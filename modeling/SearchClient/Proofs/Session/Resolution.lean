import SearchClient.Proofs.Session.Commands

/-!
# The engine of a session

A session that does not know its engine reads the root of the engine before a
call that needs it.  If that fails, the call fails with it and the session
knows no more than before; if it succeeds, the session knows its engine from
then on and does not read the root again, whatever calls follow.
-/

namespace SearchClient

open Exchange (noAnswer)

namespace Session

end Session

structure Step where
  command : Command
  before : Session
  given : List Answer
  sent : List Message
  value : Except SessionError command.Result
  after : Session
  left : List Answer

namespace Step

def of (c : Command) (s : Session) (answers : List Answer) : Step :=
  let o := (c.call s).run answers
  ⟨c, s, answers, o.sent, o.value.1, o.value.2, o.left⟩

theorem of_eq {c : Command} {s : Session} {answers : List Answer}
    {o : Exchange.Outcome (Except SessionError c.Result × Session)}
    (h : (c.call s).run answers = o) :
    of c s answers = ⟨c, s, answers, o.sent, o.value.1, o.value.2, o.left⟩ :=
  h ▸ rfl

end Step

namespace Session

end Session

end SearchClient
