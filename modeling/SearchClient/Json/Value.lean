import SearchClient.Entries

/-!
# JSON documents

A document keeps the order of its keys and tells whole numbers from floats:
`1` and `1.0` are different values.
-/

namespace SearchClient

inductive Json where
  | null
  | bool (value : Bool)
  | int (value : Int)
  | float (value : Float)
  | string (value : String)
  | array (items : List Json)
  | object (fields : List (String × Json))
  deriving Inhabited

namespace Json

abbrev Object := Entries Json

/-- A float that is not finite has no number text and is written as null. -/
def ofFloat (x : Float) : Json := if x.isFinite then .float x else .null

instance : Coe String Json := ⟨.string⟩
instance : Coe Bool Json := ⟨.bool⟩
instance : Coe Int Json := ⟨.int⟩
instance : Coe Float Json := ⟨ofFloat⟩
instance : Coe Nat Json := ⟨fun n => .int n⟩
instance : Coe (List String) Json := ⟨fun items => .array (items.map .string)⟩

def field (name : String) (value : Json) : Object := [(name, value)]

def field? (name : String) : Option Json → Object
  | none => []
  | some value => [(name, value)]

def natField (name : String) (n : Option Nat) : Object := field? name (n.map fun n => .int n)

def boolField (name : String) (b : Option Bool) : Object := field? name (b.map .bool)

def stringField (name : String) (s : Option String) : Object := field? name (s.map .string)

def floatField (name : String) (x : Option Float) : Object := field? name (x.map ofFloat)

def objectUnder (name : String) (fields : Object) : Object := field name (.object fields)

def listField (name : String) (items : List Json) : Object :=
  if items.isEmpty then [] else [(name, .array items)]

def objectField (name : String) (fields : Object) : Object :=
  if fields.isEmpty then [] else [(name, .object fields)]

/-! ## Equality

Objects are equal when they bind the same names to equal values in any order;
floats are equal as numbers.
-/

mutual

def beq : Json → Json → Bool
  | .null, .null => true
  | .bool a, .bool b => a == b
  | .int a, .int b => a == b
  | .float a, .float b => a == b
  | .string a, .string b => a == b
  | .array xs, .array ys => beqItems xs ys
  | .object xs, .object ys => xs.length == ys.length && beqFields xs ys
  | _, _ => false

def beqItems : List Json → List Json → Bool
  | [], [] => true
  | x :: xs, y :: ys => beq x y && beqItems xs ys
  | _, _ => false

def beqFields : List (String × Json) → List (String × Json) → Bool
  | [], _ => true
  | (name, x) :: rest, ys =>
      (match ys.lookup name with
        | some y => beq x y
        | none => false) && beqFields rest ys

end

instance : BEq Json := ⟨beq⟩

/-- Objects are compared as documents, whatever the order of their fields. -/
instance : BEq Object := ⟨fun a b => Json.object a == Json.object b⟩

end Json

end SearchClient
