import SearchClient.Expression

/-!
# Bulk actions

A bulk request carries many writes at once.  Each may be made to depend on the
version of the document it finds.
-/

namespace SearchClient

inductive BulkOp where
  | index
  | create
  | update
  | delete
  deriving DecidableEq, Repr

namespace BulkOp

def text : BulkOp → String
  | index => "index"
  | create => "create"
  | update => "update"
  | delete => "delete"

def all : List BulkOp := [index, create, update, delete]

end BulkOp

inductive Concurrency where
  | version (version : Int)
  | versionAtLeast (version : Int)
  | sequence (seqNo primaryTerm : Int)
  deriving DecidableEq, Repr

structure ActionMeta where
  index : Option String := none
  id : Option String := none
  routing : Option String := none
  concurrency : Option Concurrency := none
  deriving DecidableEq, Repr

inductive UpdateSource where
  | doc (doc : Json) (docAsUpsert : Option Bool)
  | script (script : Script) (scriptedUpsert : Option Bool)

inductive BulkAction where
  | index (target : ActionMeta) (source : Json)
  | create (target : ActionMeta) (source : Json)
  | update (target : ActionMeta) (source : UpdateSource) (upsert : Option Json)
      (detectNoop : Option Bool)
  | delete (target : ActionMeta)

namespace BulkAction

def op : BulkAction → BulkOp
  | index .. => .index
  | create .. => .create
  | update .. => .update
  | delete _ => .delete

def target : BulkAction → ActionMeta
  | index target _ => target
  | create target _ => target
  | update target .. => target
  | delete target => target

/-- Gives an update a document to insert when there is none; no other action has one. -/
def withUpsert (doc : Json) : BulkAction → BulkAction
  | update target source _ detectNoop => update target source (some doc) detectNoop
  | action => action

def withDetectNoop (detect : Bool) : BulkAction → BulkAction
  | update target source upsert _ => update target source upsert (some detect)
  | action => action

end BulkAction

end SearchClient
