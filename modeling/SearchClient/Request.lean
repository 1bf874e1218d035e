import SearchClient.Expression
import SearchClient.Json.Cursor
import SearchClient.Json.Text

/-!
# Requests

A request says what is sent to the engine and how the answer to it is read.
-/

namespace SearchClient

open Json (Cursor)

inductive Method where
  | get
  | head
  | post
  | put
  | delete
  deriving DecidableEq, Repr

def Method.text : Method → String
  | get => "GET"
  | head => "HEAD"
  | post => "POST"
  | put => "PUT"
  | delete => "DELETE"

instance : Keyword Method := ⟨[.get, .head, .post, .put, .delete], Method.text⟩

inductive RequestBody where
  | document (document : Json)
  | lines (lines : List Json)

namespace RequestBody

def contentType : RequestBody → String
  | document _ => "application/json"
  | lines _ => "application/x-ndjson"

/-- Every line ends with a line feed, the last one too. -/
def chars : RequestBody → List Char
  | document d => d.chars
  | lines ls => ls.flatMap fun line => line.chars ++ ['\n']

def text (b : RequestBody) : String := String.ofList b.chars

end RequestBody

structure Request (α : Type) where
  method : Method
  path : String
  params : List (String × String) := []
  body : Option RequestBody := none
  read : Json → Except Error α

/-- The path of an endpoint of some indices, or of all when none is named. -/
def indexPath (indices : List String) (endpoint : String) : String :=
  if indices.isEmpty then endpoint else ",".intercalate indices ++ "/" ++ endpoint

structure ErrorCause where
  type : String
  reason : Option String
  deriving DecidableEq, Repr

def ErrorCause.read (c : Cursor) : Except Error ErrorCause := do
  return ⟨← c.string "type", ← c.string? "reason"⟩

def readAcknowledged (response : Json) : Except Error Bool := do
  (← Cursor.ofDocument response).bool "acknowledged"

end SearchClient
