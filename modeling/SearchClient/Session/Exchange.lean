import SearchClient.Request
import SearchClient.Session.Error

/-!
# Exchanges with the engine

An exchange sends messages one after the other; what it sends next, and what
it ends with, depends on the answers so far and on nothing else.
-/

namespace SearchClient

structure Message where
  method : Method
  path : String
  params : List (String × String) := []
  body : Option RequestBody := none

def Request.message {α : Type} (r : Request α) : Message :=
  ⟨r.method, r.path, r.params, r.body⟩

structure Response where
  status : Nat
  body : Json := .null

namespace Response

def isSuccess (r : Response) : Bool := 200 ≤ r.status && r.status < 300

def error? (r : Response) : Option Json :=
  match r.body with
  | .object fields => Entries.get? fields "error"
  | _ => none

def textAt? (fields : Json.Object) (name : String) : Option String :=
  (Entries.get? fields name).bind Json.string?

def refusal (path : String) (r : Response) : SessionError :=
  match r.error? with
  | some (.object cause) =>
      .status r.status ((textAt? cause "type").getD "unknown") (textAt? cause "reason")
  | some (.string type) => .status r.status type none
  | _ =>
      if r.status = 404 then .notFound path
      else .status r.status "unknown" r.body.string?

def content (path : String) (r : Response) : Except SessionError Json :=
  if r.isSuccess then .ok r.body else .error (r.refusal path)

end Response

/-- A message may fail to reach the engine. -/
abbrev Answer := Except SessionError Response

inductive Exchange (α : Type) where
  | done (a : α)
  | send (m : Message) (next : Answer → Exchange α)

namespace Exchange

variable {α β : Type}

def bind : Exchange α → (α → Exchange β) → Exchange β
  | done a, f => f a
  | send m next, f => send m fun answer => (next answer).bind f

instance : Monad Exchange where
  pure := done
  bind := bind

def ask (m : Message) : Exchange Answer := send m done

structure Outcome (α : Type) where
  value : α
  sent : List Message
  left : List Answer

def noAnswer : Answer := .error (.config "no response left")

def run : Exchange α → List Answer → Outcome α
  | done a, answers => ⟨a, [], answers⟩
  | send m next, answers =>
      let o := (next (answers.headD noAnswer)).run answers.tail
      { o with sent := m :: o.sent }

end Exchange

end SearchClient
