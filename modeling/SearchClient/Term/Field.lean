import SearchClient.Query.Basic
import SearchClient.Term.Type

/-!
# Typed fields

A field is a name with a type.  Its operators build queries on it from typed
values.
-/

namespace SearchClient

structure Field where
  name : String
  type : FieldType

namespace Field

def sub (f : Field) (name : String) (type : FieldType) : Field := ⟨f.name ++ "." ++ name, type⟩

def write (f : Field) (value : f.type.Value) : Json := f.type.write value

def read (f : Field) (j : Json) : Except Error f.type.Value := f.type.readFor f.name j

def present (f : Field) : Query := .leaf (.hasField f.name none)

def absent (f : Field) : Query := .bool none { mustNot := [f.present] }

def term (f : Field) (value : f.type.Value) : Query := .leaf (.term f.name (f.write value) none)

def eq (f : Field) : Option f.type.Value → Query
  | some value => f.term value
  | none => f.absent

/-- Difference from a value, or presence of any. -/
def ne (f : Field) : Option f.type.Value → Query
  | some value => .bool none { mustNot := [f.term value] }
  | none => f.present

def oneOf (f : Field) (values : List f.type.Value) : Query :=
  .leaf (.terms f.name (values.map f.write) none)

def gt (f : Field) (value : f.type.Value) : Query :=
  .leaf (.range f.name { gt := some (f.write value) })

def gte (f : Field) (value : f.type.Value) : Query :=
  .leaf (.range f.name { gte := some (f.write value) })

def lt (f : Field) (value : f.type.Value) : Query :=
  .leaf (.range f.name { lt := some (f.write value) })

def lte (f : Field) (value : f.type.Value) : Query :=
  .leaf (.range f.name { lte := some (f.write value) })

/-- From the first value on, up to but not including the second. -/
def between (f : Field) (low high : Option f.type.Value) : Query :=
  .leaf (.range f.name { gte := low.map f.write, lt := high.map f.write })

def matchText (f : Field) (text : String) : Query := .leaf (.matchText f.name text {})

def matchPhrase (f : Field) (text : String) : Query := .leaf (.matchPhrase f.name text {})

def startsWith (f : Field) (value : String) : Query := .leaf (.startsWith f.name value none)

end Field

end SearchClient
