import SearchClient.Aggs.Basic
import SearchClient.Search.Rescore

/-!
# Searches

A search collects queries, aggregations and settings.  Its queries stand in
four places: the main query, the filters, the filters of the hits alone, and
the rescorers; nodes in any of them can be found and replaced.
-/

namespace SearchClient

open Json (Object)

inductive TrackTotalHits where
  | enabled (enabled : Bool)
  | upTo (limit : Nat)
  deriving DecidableEq, Repr

def TrackTotalHits.document : TrackTotalHits → Json
  | enabled b => b
  | upTo limit => limit

structure SearchParams where
  routing : Option String := none
  preference : Option String := none
  searchType : Option String := none
  requestCache : Option Bool := none
  scroll : Option String := none
  extra : List (String × String) := []
  deriving DecidableEq, Repr

namespace SearchParams

def boolText (b : Bool) : String := if b then "true" else "false"

def pair (name : String) (value : Option String) : List (String × String) :=
  (value.map fun v => (name, v)).toList

def pairs (p : SearchParams) : List (String × String) :=
  pair "routing" p.routing ++ pair "preference" p.preference ++
    pair "search_type" p.searchType ++ pair "request_cache" (p.requestCache.map boolText) ++
    pair "scroll" p.scroll ++ p.extra

end SearchParams

/--
What a search for documents read as `δ` asks for besides its queries.  Sort
keys and aggregations may hold queries, too, but no node is looked for there.
-/
structure SearchSettings (δ : Type) where
  aggs : Aggs δ := []
  sort : List SortKey := []
  trackScores : Option Bool := none
  trackTotalHits : Option TrackTotalHits := none
  source : Option SourceFilter := none
  fields : List String := []
  docvalueFields : List String := []
  storedFields : List String := []
  scriptFields : List (String × Script) := []
  size : Option Nat := none
  start : Option Nat := none
  terminateAfter : Option Nat := none
  ext : Object := []
  params : SearchParams := {}
  doc : DocReader δ

structure Search (δ : Type) extends SearchSettings δ where
  query : Option Query := none
  filters : List Query := []
  postFilters : List Query := []
  rescores : List Rescore := []

namespace Search

variable {δ : Type}

/-- All queries that may hold nodes, in the order their nodes are listed. -/
def roots (s : Search δ) : List Query :=
  s.query.toList ++ s.filters ++ s.postFilters ++ s.rescores.map (·.query)

def nodeIndex (s : Search δ) : Except Error NodeIndex := NodeIndex.collect s.roots

def findNode (s : Search δ) (h : Handle) : Except Error Node := do (← s.nodeIndex).find h

def replaceNode (s : Search δ) (new : Node) : Except Error (Search δ) := do
  let index ← s.nodeIndex
  if index.contains new.handle then
    return { s with
      query := s.query.map (Query.replace new)
      filters := s.filters.map (Query.replace new)
      postFilters := s.postFilters.map (Query.replace new)
      rescores := s.rescores.map (Rescore.replace new) }
  else .error (.handleNotFound new.handle.name)

end Search

end SearchClient
