import SearchClient.Aggs.Document
import SearchClient.Engine.Features
import SearchClient.Search.Basic

/-!
# The body of a search

Queries are reduced before they are written.  The main query and the filters
become one query: the query itself when nothing filters it, a lone filter
itself, and otherwise clauses that must match the query and filter by the
filters.
-/

namespace SearchClient

open Json (Object field field? natField boolField stringField objectUnder listField objectField)

namespace Search

variable {δ : Type}

/-- The main query restricted to the filters, reduced. -/
def filteredQuery (s : Search δ) : Option Query :=
  match s.query >>= Query.reduce, s.filters with
  | query, [] => query
  | none, [single] => single.reduce
  | query, filters => (Query.bool none { must := query.toList, filter := filters }).reduce

def postFilter (s : Search δ) : Option Query :=
  match s.postFilters with
  | [] => none
  | [single] => single.reduce
  | filters => (Query.bool none { filter := filters }).reduce

def queryField (f : Features) (s : Search δ) : Object :=
  field? "query" (s.filteredQuery.map (Query.document f))

def stringsField (name : String) (items : List String) : Object :=
  listField name (items.map Json.string)

/-- A script field named twice keeps its place and takes the later script. -/
def scriptFieldsDocument (fields : List (String × Script)) : Object :=
  Entries.setAll [] (fields.map fun (name, s) => (name, .object (objectUnder "script" s.document)))

def trackTotalHitsField (f : Features) (s : Search δ) : Object :=
  if f.supportsTrackTotalHits then
    field? "track_total_hits" (s.trackTotalHits.map TrackTotalHits.document)
  else []

def body (f : Features) (s : Search δ) : Json :=
  .object (s.queryField f ++
    field? "post_filter" (s.postFilter.map (Query.document f)) ++
    objectField "aggs" (Agg.documents f s.aggs) ++
    listField "rescore" (s.rescores.map (Rescore.document f)) ++
    listField "sort" (s.sort.map (SortKey.document f)) ++
    boolField "track_scores" s.trackScores ++
    s.trackTotalHitsField f ++
    field? "_source" (s.source.map SourceFilter.document) ++
    stringsField "fields" s.fields ++
    stringsField "docvalue_fields" s.docvalueFields ++
    stringsField "stored_fields" s.storedFields ++
    objectField "script_fields" (scriptFieldsDocument s.scriptFields) ++
    natField "size" s.size ++
    natField "from" s.start ++
    natField "terminate_after" s.terminateAfter ++
    objectField "ext" s.ext)

def countBody (f : Features) (s : Search δ) : Json := .object (s.queryField f)

def header (index : String) (p : SearchParams) : Json :=
  .object (field "index" index ++ stringField "routing" p.routing ++
    stringField "preference" p.preference ++ stringField "search_type" p.searchType ++
    boolField "request_cache" p.requestCache)

end Search

end SearchClient
