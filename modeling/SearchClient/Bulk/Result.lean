import SearchClient.Bulk.Lines
import SearchClient.Request

/-!
# Bulk requests and their answers

The answer has one item for each action, which is the document written or the
reason why it was not.
-/

namespace SearchClient

open Json (Cursor)

inductive Refresh where
  | now
  | never
  | waitFor
  deriving DecidableEq, Repr

def Refresh.text : Refresh → String
  | now => "true"
  | never => "false"
  | waitFor => "wait_for"

instance : Keyword Refresh := ⟨[.now, .never, .waitFor], Refresh.text⟩

structure BulkSuccess where
  index : String
  version : Int
  seqNo : Int
  primaryTerm : Int
  result : String
  deriving DecidableEq, Repr

structure BulkFailure where
  cause : ErrorCause
  index : String
  indexUuid : String
  shard : Option String
  deriving DecidableEq, Repr

structure BulkItem where
  op : BulkOp
  id : Option String
  status : Option Int
  outcome : Except BulkFailure BulkSuccess

/-- The text of a shard, which may be given as a number. -/
def shardText : Json → String
  | .string s => s
  | other => other.text

def BulkFailure.read (error : Cursor) : Except Error BulkFailure := do
  let cause ← ErrorCause.read error
  return {
    cause
    index := ← error.string "index"
    indexUuid := ← error.string "index_uuid"
    shard := (error.value? "shard").map shardText }

def BulkSuccess.read (body : Cursor) : Except Error BulkSuccess := do
  return {
    index := ← body.string "_index"
    version := ← body.long "_version"
    seqNo := ← body.long "_seq_no"
    primaryTerm := ← body.long "_primary_term"
    result := ← body.string "result" }

def BulkItem.op? (item : Cursor) : Except Error BulkOp :=
  match BulkOp.all.find? fun op => item.contains op.text with
  | some op => .ok op
  | none => .error (.unknownBulkOp (",".intercalate item.keys))

def BulkItem.read (item : Cursor) : Except Error BulkItem := do
  let op ← BulkItem.op? item
  let body ← item.object op.text
  let id ← body.string? "_id"
  let status ← body.long? "status"
  match ← body.object? "error" with
  | some error => return ⟨op, id, status, .error (← BulkFailure.read error)⟩
  | none => return ⟨op, id, status, .ok (← BulkSuccess.read body)⟩

structure BulkResult where
  took : Int
  errors : Bool
  items : List BulkItem

namespace BulkResult

def read (c : Cursor) : Except Error BulkResult := do
  let items ←
    match ← c.array? "items" with
    | some items => items.mapObjects BulkItem.read
    | none => pure []
  return { took := ← c.long "took", errors := ← c.bool "errors", items }

def failures (r : BulkResult) : List BulkItem :=
  r.items.filter fun item => match item.outcome with | .error _ => true | .ok _ => false

end BulkResult

def bulkRequest (f : Features) (index : Option String) (actions : List BulkAction)
    (refresh : Option Refresh) : Request BulkResult where
  method := .post
  path :=
    match index with
    | some index => index ++ "/_bulk"
    | none => "_bulk"
  params := (refresh.map fun r => ("refresh", r.text)).toList
  body := some (.lines (actions.flatMap (BulkAction.lines f)))
  read response := do BulkResult.read (← Cursor.ofDocument response)

end SearchClient
