import SearchClient.Decimal.Single
import SearchClient.Json.Cursor
import SearchClient.Json.Text
import SearchClient.Time.Instant

/-!
# Field types and their terms

A field type fixes the values a field may hold and how a value is written as a
term and read back.  Engines answer with other forms than they were sent, so
reading accepts more than writing produces: numbers and truth values for
strings, and the keys 0 and 1 for truth values.
-/

namespace SearchClient

open Decimal Json Time

/-- Named cases that are stored as whole numbers. -/
structure IntEnum where
  toInt : String → Int
  ofInt? : Int → Option String

inductive FieldType where
  | keyword
  | text
  | integer
  | long
  | float
  | double
  | boolean
  | date
  | enum (cases : IntEnum)

namespace FieldType

def Value : FieldType → Type
  | keyword => String
  | text => String
  | integer => Int32
  | long => Int64
  | float => Single
  | double => Float
  | boolean => Bool
  | date => Instant
  | enum _ => String

def name : FieldType → String
  | keyword => "keyword"
  | text => "text"
  | integer => "integer"
  | long => "long"
  | float => "float"
  | double => "double"
  | boolean => "boolean"
  | date => "date"
  | enum _ => "integer"

def write : (t : FieldType) → t.Value → Json
  | keyword, s => .string s
  | text, s => .string s
  | integer, n => .int (Int32.toInt n)
  | long, n => .int (Int64.toInt n)
  | float, x => Json.ofFloat (Single.toFloat x)
  | double, x => Json.ofFloat x
  | boolean, b => .bool b
  | date, t => .string (Instant.text t)
  | enum cases, c => .int (cases.toInt c)

def scalarText? : Json → Option String
  | .string s => some s
  | .bool b => some (if b then "true" else "false")
  | .int n => some (Json.int n).text
  | .float x => some (Json.float x).text
  | _ => none

def readBool? : Json → Option Bool
  | .bool b => some b
  | .string s => if s = "true" then some true else if s = "false" then some false else none
  | j => j.int64?.map (· != 0)

def readDate? : Json → Option Instant
  | .string s => Instant.ofText? s
  | j => j.int64? >>= Instant.ofMillis?

def readInt32? (j : Json) : Option Int32 :=
  j.int64? >>= fun n => if -(pow2 31 : Int) ≤ n ∧ n < (pow2 31 : Int) then some (Int32.ofInt n) else none

def read? : (t : FieldType) → Json → Option t.Value
  | keyword, j => scalarText? j
  | text, j => scalarText? j
  | integer, j => readInt32? j
  | long, j => j.int64?.map Int64.ofInt
  | float, j => j.double?.map Single.ofFloat
  | double, j => j.double?
  | boolean, j => readBool? j
  | date, j => readDate? j
  | enum cases, j => j.int64? >>= cases.ofInt?

def readFor (t : FieldType) (field : String) (j : Json) : Except Error t.Value :=
  match t.read? j with
  | some v => .ok v
  | none => .error (.invalidTerm field ("cannot read " ++ j.text ++ " as " ++ t.name))

end FieldType

end SearchClient
