import SearchClient.Session.Call

/-!
# Calls carried out with given answers

A call is an exchange that starts from what the session knows.  Carried out
with a list of answers, a call that sends one message takes one answer and
leaves the session as it is; a call that needs the engine of a session that
does not know it first reads the root of the engine, and goes on from the
engine it finds there.
-/

namespace SearchClient

variable {α β : Type}

open Exchange (noAnswer Outcome)

namespace Exchange

theorem run_bind (x : Exchange α) (f : α → Exchange β) (answers : List Answer) :
    (x.bind f).run answers =
      let o := x.run answers
      let p := (f o.value).run o.left
      ⟨p.value, o.sent ++ p.sent, p.left⟩ := by
  induction x generalizing answers with
  | done a => rfl
  | send m next ih => simp only [bind, run, ih, List.cons_append]

namespace Outcome

def sentFirst (m : Message) (o : Outcome α) : Outcome α := { o with sent := m :: o.sent }

/-- How an outcome of a call goes on: from its result, or no further after a failure. -/
def andThen (o : Outcome (Except SessionError α × Session)) (f : α → Call β) :
    Outcome (Except SessionError β × Session) :=
  match o.value with
  | (.ok a, s) =>
      let p := (f a s).run o.left
      ⟨p.value, o.sent ++ p.sent, p.left⟩
  | (.error e, s) => ⟨(.error e, s), o.sent, o.left⟩

theorem andThen_sentFirst (m : Message) (o : Outcome (Except SessionError α × Session))
    (f : α → Call β) : (o.sentFirst m).andThen f = (o.andThen f).sentFirst m := by
  obtain ⟨⟨result, s⟩, sent, left⟩ := o
  cases result <;> rfl

end Outcome

end Exchange

theorem Call.run_bind (c : Call α) (f : α → Call β) (s : Session) (answers : List Answer) :
    ((c >>= f) s).run answers = ((c s).run answers).andThen f := by
  refine (Exchange.run_bind (c s) _ answers).trans ?_
  rcases (c s).run answers with ⟨⟨result, s⟩, sent, left⟩
  cases result with
  | ok a => rfl
  | error e => simp only [Exchange.run, List.append_nil, Exchange.Outcome.andThen]

def Request.reply (r : Request α) (answer : Answer) : Except SessionError α := do
  liftCore (r.read (← (← answer).content r.path))

namespace Call

theorem run_ofExcept (x : Except SessionError α) (s : Session) (answers : List Answer) :
    (ofExcept x s).run answers = ⟨(x, s), [], answers⟩ := by
  cases x <;> rfl

theorem run_answer (m : Message) (s : Session) (answers : List Answer) :
    (answer m s).run answers = ⟨(answers.headD noAnswer, s), [m], answers.tail⟩ :=
  rfl

theorem run_send (m : Message) (s : Session) (answers : List Answer) :
    (send m s).run answers =
      ⟨((answers.headD noAnswer).bind fun a => a.content m.path, s), [m], answers.tail⟩ := by
  rw [send, run_bind, run_answer, Outcome.andThen]
  cases answers.headD noAnswer with
  | ok a => simp only [run_ofExcept, List.append_nil, Except.bind]
  | error e => rfl

theorem run_execute (r : Request α) (s : Session) (answers : List Answer) :
    (execute r s).run answers =
      ⟨(r.reply (answers.headD noAnswer), s), [r.message], answers.tail⟩ := by
  have hreply : r.reply (answers.headD noAnswer) =
      ((answers.headD noAnswer).bind fun a => a.content r.message.path).bind fun d =>
        liftCore (r.read d) := by
    cases h : answers.headD noAnswer <;> rfl
  rw [execute, run_bind, run_send, hreply, Outcome.andThen]
  cases (answers.headD noAnswer).bind fun a => a.content r.message.path with
  | ok d => simp only [run_ofExcept, List.append_nil, Except.bind]
  | error e => rfl

end Call

namespace Session

def resolve (answer : Answer) : Except SessionError Engine :=
  answer.bind fun r => (r.content "").bind fun info => liftCore (Engine.ofInfo info)

/-- A call that asks for an engine that is not known before it does anything else. -/
structure ResolvesFirst {α : Type} (c : Call α) : Prop where
  error {answers : List Answer} {e : SessionError}
    (h : resolve (answers.headD noAnswer) = .error e) :
    (c none).run answers = ⟨(.error e, none), [root .get], answers.tail⟩
  ok {answers : List Answer} {e : Engine} (h : resolve (answers.headD noAnswer) = .ok e) :
    (c none).run answers = ((c (some e)).run answers.tail).sentFirst (root .get)

theorem ResolvesFirst.bind {α β : Type} {c : Call α} (hc : ResolvesFirst c) (k : α → Call β) :
    ResolvesFirst (c >>= k) where
  error h := by rw [Call.run_bind, hc.error h, Exchange.Outcome.andThen]
  ok h := by
    rw [Call.run_bind, hc.ok h, Exchange.Outcome.andThen_sentFirst]
    exact congrArg _ (Call.run_bind c k _ _).symm

theorem run_indexExists (index : String) (s : Session) (answers : List Answer) :
    (indexExists index s).run answers =
      ⟨(match (existsRequest index).reply (answers.headD noAnswer) with
        | .ok () => .ok true
        | .error e => if e.isNotFound then .ok false else .error e, s),
        [(existsRequest index).message], answers.tail⟩ := by
  rw [indexExists, Exchange.run_bind, Call.run_execute]
  cases (existsRequest index).reply (answers.headD noAnswer) <;> rfl

end Session

end SearchClient
