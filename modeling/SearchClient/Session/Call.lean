import SearchClient.Bulk.Result
import SearchClient.Mapping.Document
import SearchClient.Search.Result
import SearchClient.Session.Config
import SearchClient.Session.Exchange

/-!
# Calls of a session

A session knows the engine behind it or not yet.  The first call that depends
on the version asks the engine for it; once known it is not asked for again,
and a failure to learn it is not remembered.
-/

namespace SearchClient

structure Engine where
  version : Version
  features : Features
  deriving DecidableEq, Repr

def Engine.ofVersion (v : Version) : Except Error Engine := do
  return ⟨v, ← Features.ofVersion v⟩

def Engine.ofInfo (info : Json) : Except Error Engine := do
  Engine.ofVersion (← Version.ofInfo info)

abbrev Session := Option Engine

/-- A call may change the session, also when it fails. -/
def Call (α : Type) := Session → Exchange (Except SessionError α × Session)

namespace Call

variable {α β : Type}

def pure (a : α) : Call α := fun s => .done (.ok a, s)

def fail (e : SessionError) : Call α := fun s => .done (.error e, s)

def bind (c : Call α) (f : α → Call β) : Call β := fun s =>
  (c s).bind fun
    | (.ok a, s) => f a s
    | (.error e, s) => .done (.error e, s)

instance : Monad Call where
  pure := pure
  bind := bind

def ofExcept : Except SessionError α → Call α
  | .ok a => pure a
  | .error e => fail e

def answer (m : Message) : Call Response := fun s =>
  (Exchange.ask m).bind fun answer => .done (answer, s)

def send (m : Message) : Call Json := do
  ofExcept ((← answer m).content m.path)

def execute (r : Request α) : Call α := do
  ofExcept (liftCore (r.read (← send r.message)))

end Call

namespace Session

variable {δ : Type}

def root (method : Method) : Message := { method, path := "" }

def detect : Call Engine := do
  Call.ofExcept (liftCore (Engine.ofInfo (← Call.send (root .get))))

def engine : Call Engine := fun
  | some e => .done (.ok e, some e)
  | none =>
      (detect none).bind fun
        | (.ok e, _) => .done (.ok e, some e)
        | (.error e, s) => .done (.error e, s)

def version : Call Version := Engine.version <$> engine

def features : Call Features := Engine.features <$> engine

def pinned (v : Version) : Except SessionError Session :=
  liftCore (some <$> Engine.ofVersion v)

def connect (c : Config) : Except SessionError Session := do
  let _ ← c.baseUrl
  match ← c.pinned with
  | some v => pinned v
  | none => return none

def search (indices : List String) (s : Search δ) : Call (SearchResult δ) := do
  Call.execute (s.request (← features) indices)

def count (indices : List String) (s : Search δ) : Call Int := do
  Call.execute (s.countRequest (← features) indices)

/-- Several searches in one message; for none nothing is sent. -/
def multiSearch (searches : List (String × Search δ)) : Call (List (MultiItem δ)) :=
  if searches.isEmpty then return []
  else do Call.execute (Search.multiRequest (← features) searches)

def bulk (index : Option String) (actions : List BulkAction) (refresh : Option Refresh) :
    Call BulkResult := do
  Call.execute (bulkRequest (← features) index actions refresh)

def createIndex (index : String) (settings : Option Json.Object) (m : Mapping) :
    Call CreatedIndex := do
  Call.execute (createIndexRequest (← features) index settings m)

def updateMapping (index : String) (m : Mapping) : Call Bool := do
  Call.execute (updateMappingRequest (← features) index m)

def existsRequest (index : String) : Request Unit where
  method := .head
  path := index
  read _ := .ok ()

def deleteRequest (index : String) : Request Bool where
  method := .delete
  path := index
  read := readAcknowledged

/-- Whether there is an index; that there is none is no failure. -/
def indexExists (index : String) : Call Bool := fun s =>
  (Call.execute (existsRequest index) s).bind fun
    | (.ok (), s) => .done (.ok true, s)
    | (.error e, s) => .done (if e.isNotFound then .ok false else .error e, s)

def deleteIndex (index : String) : Call Bool := Call.execute (deleteRequest index)

def ping : Call Nat := do
  return (← Call.answer (root .head)).status

end Session

end SearchClient
