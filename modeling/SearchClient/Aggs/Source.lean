import SearchClient.Query.Document
import SearchClient.Term.Type

/-!
# What an aggregation measures

The values come from a field, from a script, or from a script over a field,
and have a field type either way.
-/

namespace SearchClient

open Json (Object field field? objectUnder)

inductive Origin where
  | field (name : String)
  | script (script : Script)
  | fieldScript (name : String) (script : Script)

def Origin.document : Origin → Object
  | field name => Json.field "field" name
  | script s => objectUnder "script" s.document
  | fieldScript name s => Json.field "field" name ++ objectUnder "script" s.document

def Origin.describe : Origin → String
  | field name => name
  | script _ => "<script>"
  | fieldScript name _ => name

structure AggValue where
  type : FieldType
  origin : Origin

structure Term where
  type : FieldType
  value : type.Value

namespace AggValue

def document (v : AggValue) : Object := v.origin.document

def read (v : AggValue) (j : Json) : Except Error v.type.Value :=
  v.type.readFor v.origin.describe j

def readTerm (v : AggValue) (j : Json) : Except Error Term := do return ⟨v.type, ← v.read j⟩

end AggValue

structure AggSource where
  value : AggValue
  missing : Option value.type.Value := none

namespace AggSource

def missingField (s : AggSource) : Object := field? "missing" (s.missing.map s.value.type.write)

/-- The values with options written before the replacement. -/
def documentWith (s : AggSource) (options : Object) : Object :=
  s.value.document ++ options ++ s.missingField

def document (s : AggSource) : Object := s.documentWith []

end AggSource

end SearchClient
