import SearchClient.Engine.Features
import SearchClient.Mapping.Basic
import SearchClient.Request

/-!
# The wire form of mappings

Where a mapping type must be named, the mapping of a new index stands under
the default type, and later changes are sent to the address of that type.
-/

namespace SearchClient

open Json (Object Cursor field field? stringField objectUnder listField objectField)

def DynamicFields.document : DynamicFields → Json
  | enabled => true
  | disabled => false
  | strict => "strict"

namespace FieldMapping

mutual

/-- Parameters are written after the type and may take the place of any field before them. -/
def document : FieldMapping → Object
  | mk type params subFields properties =>
      ((field "type" type).setAll params).setAll
        (objectField "fields" (Entries.setAll [] (documents subFields)) ++
          objectField "properties" (Entries.setAll [] (documents properties)))
termination_by structural f => f

def documents : List (String × FieldMapping) → Object
  | [] => []
  | (name, f) :: rest => (name, .object f.document) :: documents rest
termination_by structural fs => fs

end

end FieldMapping

def DynamicTemplate.document (t : DynamicTemplate) : Object :=
  stringField "match_mapping_type" t.matchMappingType ++ stringField "match" t.matchName ++
    stringField "unmatch" t.unmatchName ++ stringField "path_match" t.pathMatch ++
    stringField "path_unmatch" t.pathUnmatch ++ field "mapping" (.object t.mapping)

namespace Mapping

def templatesField (m : Mapping) : Object :=
  listField "dynamic_templates"
    (m.templates.map fun (name, t) => .object (objectUnder name t.document))

/-- A field named twice keeps its place and takes the later mapping. -/
def fieldsDocument (m : Mapping) : Object := Entries.setAll [] (FieldMapping.documents m.fields)

def document (m : Mapping) : Object :=
  field? "dynamic" (m.dynamic.map DynamicFields.document) ++
    field? "_source" (m.sourceEnabled.map fun b => .object (field "enabled" b)) ++
    m.templatesField ++ objectUnder "properties" m.fieldsDocument

def documentFor (f : Features) (m : Mapping) : Json :=
  if f.requiresTypeName then .object (objectUnder defaultType m.document)
  else .object m.document

end Mapping

structure CreatedIndex where
  acknowledged : Bool
  shardsAcknowledged : Bool
  index : Option String
  deriving DecidableEq, Repr

def CreatedIndex.read (c : Cursor) : Except Error CreatedIndex := do
  return {
    acknowledged := ← c.bool "acknowledged"
    shardsAcknowledged := (← c.bool? "shards_acknowledged").getD false
    index := ← c.string? "index" }

def createIndexRequest (f : Features) (index : String) (settings : Option Object) (m : Mapping) :
    Request CreatedIndex where
  method := .put
  path := index
  body := some (.document
    (.object (field? "settings" (settings.map Json.object) ++
      field "mappings" (m.documentFor f))))
  read response := do CreatedIndex.read (← Cursor.ofDocument response)

def updateMappingRequest (f : Features) (index : String) (m : Mapping) : Request Bool where
  method := .put
  path := if f.requiresTypeName then index ++ "/_mapping/" ++ defaultType else index ++ "/_mapping"
  body := some (.document (.object m.document))
  read := readAcknowledged

end SearchClient
