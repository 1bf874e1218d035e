import SearchClient.Bulk.Action
import SearchClient.Engine.Features

/-!
# The lines of a bulk request

An action is one line that names the operation and the document, followed by a
line with the source unless the document is deleted.
-/

namespace SearchClient

open Json (Object field field? boolField stringField objectUnder)

def Concurrency.fields : Concurrency → Object
  | version v => field "version_type" "external" ++ field "version" v
  | versionAtLeast v => field "version_type" "external_gte" ++ field "version" v
  | sequence seqNo primaryTerm =>
      field "if_seq_no" seqNo ++ field "if_primary_term" primaryTerm

def typeField (f : Features) : Object :=
  if f.requiresTypeName then field "_type" defaultType else []

def ActionMeta.fields (f : Features) (m : ActionMeta) : Object :=
  stringField "_index" m.index ++ stringField "_id" m.id ++ typeField f ++
    stringField "routing" m.routing ++ (m.concurrency.map Concurrency.fields).getD []

def UpdateSource.fields : UpdateSource → Object
  | doc d docAsUpsert => field "doc" d ++ boolField "doc_as_upsert" docAsUpsert
  | script s scriptedUpsert =>
      objectUnder "script" s.document ++ boolField "scripted_upsert" scriptedUpsert

namespace BulkAction

def metaLine (f : Features) (a : BulkAction) : Json :=
  .object (objectUnder a.op.text (a.target.fields f))

def sourceLine? : BulkAction → Option Json
  | index _ source => some source
  | create _ source => some source
  | update _ source upsert detectNoop =>
      some (.object (field? "upsert" upsert ++ boolField "detect_noop" detectNoop ++
        source.fields))
  | delete _ => none

def lines (f : Features) (a : BulkAction) : List Json := a.metaLine f :: a.sourceLine?.toList

end BulkAction

end SearchClient
