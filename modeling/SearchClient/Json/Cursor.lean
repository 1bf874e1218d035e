import SearchClient.Decimal.Binary
import SearchClient.Error
import SearchClient.Json.Value

/-!
# Typed reading of documents

A cursor stands at an object and reads its fields by name and type.  It knows
the path it stands at, so an error says where the document is wrong.  A null
field counts as absent.
-/

namespace SearchClient.Json

open Decimal

def minInt64 : Int := -(pow2 63 : Int)

def maxInt64 : Int := (pow2 63 : Int) - 1

def clampInt64 (n : Int) : Int := max minInt64 (min n maxInt64)

def int64? : Json → Option Int
  | .int n => if minInt64 ≤ n ∧ n ≤ maxInt64 then some n else none
  | _ => none

/-- A whole number, also one written as a float; beyond 64 bits it is the nearest in range. -/
def long? : Json → Option Int
  | .int n => some (clampInt64 n)
  | .float x => if x.isFinite then (Binary.ofFloat x).toInt?.map clampInt64 else none
  | _ => none

def double? : Json → Option Float
  | .int n => some (Float.ofInt n)
  | .float x => some x
  | _ => none

def string? : Json → Option String
  | .string s => some s
  | _ => none

def bool? : Json → Option Bool
  | .bool b => some b
  | _ => none

structure Items where
  values : List Json
  path : Path

/-- An object being read, and where it stands. -/
structure Cursor where
  fields : Object
  path : Path := {}

namespace Cursor

def ofDocument : Json → Except Error Cursor
  | .object fields => .ok ⟨fields, {}⟩
  | _ => .error (.invalidType .document "object")

def keys (c : Cursor) : List String := c.fields.keys

def value? (c : Cursor) (name : String) : Option Json :=
  match c.fields.get? name with
  | none | some .null => none
  | some value => some value

def contains (c : Cursor) (name : String) : Bool := (c.value? name).isSome

def require {α : Type} (c : Cursor) (name : String) (found : Except Error (Option α)) :
    Except Error α :=
  match found with
  | .ok (some a) => .ok a
  | .ok none => .error (.missingField (c.path.field name))
  | .error e => .error e

def value (c : Cursor) (name : String) : Except Error Json :=
  c.require name (.ok (c.value? name))

def read? {α : Type} (c : Cursor) (name expected : String) (reader : Json → Option α) :
    Except Error (Option α) :=
  match c.value? name with
  | none => .ok none
  | some value =>
      match reader value with
      | some a => .ok (some a)
      | none => .error (.invalidType (c.path.field name) expected)

def string? (c : Cursor) (name : String) : Except Error (Option String) :=
  c.read? name "string" Json.string?

def string (c : Cursor) (name : String) : Except Error String :=
  c.require name (c.string? name)

def long? (c : Cursor) (name : String) : Except Error (Option Int) :=
  c.read? name "integer" Json.long?

def long (c : Cursor) (name : String) : Except Error Int :=
  c.require name (c.long? name)

def double? (c : Cursor) (name : String) : Except Error (Option Float) :=
  c.read? name "number" Json.double?

def double (c : Cursor) (name : String) : Except Error Float :=
  c.require name (c.double? name)

def bool? (c : Cursor) (name : String) : Except Error (Option Bool) :=
  c.read? name "boolean" Json.bool?

def bool (c : Cursor) (name : String) : Except Error Bool :=
  c.require name (c.bool? name)

def at? (path : Path) : Json → Option Cursor
  | .object fields => some ⟨fields, path⟩
  | _ => none

def object? (c : Cursor) (name : String) : Except Error (Option Cursor) :=
  c.read? name "object" (at? (c.path.field name))

def object (c : Cursor) (name : String) : Except Error Cursor :=
  c.require name (c.object? name)

end Cursor

namespace Items

def at? (path : Path) : Json → Option Items
  | .array values => some ⟨values, path⟩
  | _ => none

def object (items : Items) (index : Nat) : Except Error Cursor :=
  match items.values[index]? with
  | some (.object fields) => .ok ⟨fields, items.path.item index⟩
  | some _ => .error (.invalidType (items.path.item index) "object")
  | none => .error (.missingField (items.path.item index))

def objects (items : Items) : List (Except Error Cursor) :=
  (List.range items.values.length).map items.object

def mapObjects {α : Type} (items : Items) (read : Cursor → Except Error α) :
    Except Error (List α) :=
  items.objects.mapM fun cursor => cursor >>= read

def strings (items : Items) : Except Error (List String) :=
  items.values.zipIdx.mapM fun (value, index) =>
    match value.string? with
    | some s => .ok s
    | none => .error (.invalidType (items.path.item index) "string")

end Items

namespace Cursor

def array? (c : Cursor) (name : String) : Except Error (Option Items) :=
  c.read? name "array" (Items.at? (c.path.field name))

def array (c : Cursor) (name : String) : Except Error Items :=
  c.require name (c.array? name)

end Cursor

end SearchClient.Json
