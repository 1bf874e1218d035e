import SearchClient.Proofs.Session.Runs

/-!
# What the status of an answer decides

The status of an answer alone decides whether its body is read, whether what
the call is about does not exist, or whether the call has failed otherwise.
The body only decides how a failure is worded.
-/

namespace SearchClient

namespace Response

def Succeeds (r : Response) : Prop := 200 ≤ r.status ∧ r.status < 300

def NamesError (r : Response) : Prop :=
  ∃ fields error, r.body = .object fields ∧ Entries.get? fields "error" = some error ∧
    ((∃ cause, error = .object cause) ∨ ∃ text, error = .string text)

/-- What comes of an answer to a message that was sent to a path. -/
inductive Classified (path : String) (r : Response) : Except SessionError Json → Prop where
  | passed (success : r.Succeeds) : Classified path r (.ok r.body)
  | missing (status : r.status = 404) (unnamed : ¬ r.NamesError) :
      Classified path r (.error (.notFound path))
  | refused {type : String} {reason : Option String} (failure : ¬ r.Succeeds)
      (named : r.status = 404 → r.NamesError) :
      Classified path r (.error (.status r.status type reason))

variable {path : String} {r : Response}

theorem isSuccess_iff : r.isSuccess = true ↔ r.Succeeds := by
  rw [isSuccess, Bool.and_eq_true, decide_eq_true_eq, decide_eq_true_eq, Succeeds]

theorem namesError_iff :
    r.NamesError ↔
      ∃ error, r.error? = some error ∧
        ((∃ cause, error = .object cause) ∨ ∃ text, error = .string text) := by
  unfold NamesError error?
  cases r.body with
  | object fields => simp
  | _ => simp

theorem classified_of_unnamed (h : ¬ r.Succeeds) (hunnamed : ¬ r.NamesError) :
    r.Classified path
      (.error (if r.status = 404 then .notFound path
        else .status r.status "unknown" r.body.string?)) := by
  by_cases hstatus : r.status = 404
  · rw [if_pos hstatus]
    exact .missing hstatus hunnamed
  · rw [if_neg hstatus]
    exact .refused h fun hmissing => absurd hmissing hstatus

theorem classified_refusal (h : ¬ r.Succeeds) : r.Classified path (.error (r.refusal path)) := by
  have hnamed := namesError_iff (r := r)
  unfold refusal
  cases herror : r.error? with
  | none => exact classified_of_unnamed h (by simp [hnamed, herror])
  | some error =>
      rw [herror] at hnamed
      cases error with
      | object cause => exact .refused h fun _ => hnamed.mpr ⟨_, rfl, .inl ⟨cause, rfl⟩⟩
      | string text => exact .refused h fun _ => hnamed.mpr ⟨_, rfl, .inr ⟨text, rfl⟩⟩
      | _ => exact classified_of_unnamed h (by simp [hnamed])

theorem classified_content (path : String) (r : Response) :
    r.Classified path (r.content path) := by
  unfold content
  by_cases h : r.Succeeds
  · rw [if_pos (isSuccess_iff.mpr h)]
    exact .passed h
  · rw [if_neg (mt isSuccess_iff.mp h)]
    exact classified_refusal h

namespace Classified

variable {result : Except SessionError Json}

theorem exists_ok_iff (h : r.Classified path result) : (∃ d, result = .ok d) ↔ r.Succeeds := by
  cases h with
  | passed success => simp [success]
  | missing status => simp [Succeeds, status]
  | refused failure => simp [failure]

theorem isNotFound_iff {e : SessionError} (h : r.Classified path (.error e)) :
    e.isNotFound = true ↔ r.status = 404 := by
  cases h with
  | missing status => simp [SessionError.isNotFound, status]
  | refused failure => simp [SessionError.isNotFound]

end Classified

end Response

namespace Session

open Exchange (noAnswer)
open Response

variable {α : Type}

theorem reply_existsRequest (index : String) (answer : Answer) :
    (existsRequest index).reply answer =
      (answer.bind fun r => r.content index).bind fun _ => .ok () := by
  cases answer <;> rfl

/-- An index is there unless the call fails, and not there if it fails for that very reason. -/
def existence : Except SessionError Json → Except SessionError Bool
  | .ok _ => .ok true
  | .error e => if e.isNotFound then .ok false else .error e

theorem existence_of_classified {path : String} {r : Response} {content : Except SessionError Json}
    (h : r.Classified path content) :
    (existence content = .ok true ↔ r.Succeeds) ∧ (existence content = .ok false ↔ r.status = 404) ∧
      ∀ e, existence content = .error e ↔ content = .error e ∧ r.status ≠ 404 := by
  cases h with
  | passed success =>
      have hstatus : r.status ≠ 404 := fun h => by simp [Succeeds, h] at success
      simp [existence, success, hstatus]
  | missing status => simp [existence, SessionError.isNotFound, Succeeds, status]
  | refused failure =>
      by_cases hstatus : r.status = 404 <;>
        simp [existence, SessionError.isNotFound, failure, hstatus]

theorem run_indexExists_eq (index : String) (s : Session) (answers : List Answer) :
    (indexExists index s).run answers =
      ⟨(existence ((answers.headD noAnswer).bind fun r => r.content index), s),
        [(existsRequest index).message], answers.tail⟩ := by
  rw [run_indexExists, reply_existsRequest]
  generalize (answers.headD noAnswer).bind (fun r => r.content index) = content
  cases content <;> rfl

/--
An answer with a status of success, and no other, has its body read; the body
goes to the reader of the request as it is.  Any other answer fails the call
with its status, or with the path where nothing is there and the body names no
error; the failure means that nothing is there exactly for the status 404.  So
an index is there on success, not there on 404, and for any other answer the
question fails as every call would.  An answer that never came fails every
call with its own error, unless that error says that nothing is there.
-/
theorem statuses_decide (s : Session) (left : List Answer) :
    (∀ (request : Request α) (r : Response), ∃ content, r.Classified request.path content ∧
      ((∃ d, content = .ok d) ↔ r.Succeeds) ∧
      (∀ e, content = .error e → (e.isNotFound = true ↔ r.status = 404)) ∧
      (Call.send request.message s).run (.ok r :: left) =
        ⟨(content, s), [request.message], left⟩ ∧
      (Call.execute request s).run (.ok r :: left) =
        ⟨(content >>= fun d => liftCore (request.read d), s), [request.message], left⟩) ∧
    (∀ (index : String) (r : Response), ∃ content found, r.Classified index content ∧
      (indexExists index s).run (.ok r :: left) =
        ⟨(found, s), [(existsRequest index).message], left⟩ ∧
      (found = .ok true ↔ r.Succeeds) ∧ (found = .ok false ↔ r.status = 404) ∧
      ∀ e, found = .error e ↔ content = .error e ∧ r.status ≠ 404) ∧
    (∀ (request : Request α) (index : String) (e : SessionError),
      (Call.execute request s).run (.error e :: left) =
        ⟨(.error e, s), [request.message], left⟩ ∧
      (e.isNotFound = false → (indexExists index s).run (.error e :: left) =
        ⟨(.error e, s), [(existsRequest index).message], left⟩)) := by
  refine ⟨fun request r => ?_, fun index r => ?_, fun request index e => ⟨?_, fun he => ?_⟩⟩
  · have hcontent := classified_content request.path r
    refine ⟨r.content request.path, hcontent, hcontent.exists_ok_iff, fun e he => ?_, ?_, ?_⟩
    · rw [he] at hcontent
      exact hcontent.isNotFound_iff
    · exact Call.run_send request.message s (.ok r :: left)
    · exact Call.run_execute request s (.ok r :: left)
  · have hcontent := classified_content index r
    exact ⟨_, _, hcontent, run_indexExists_eq index s (.ok r :: left),
      existence_of_classified hcontent⟩
  · exact Call.run_execute request s (.error e :: left)
  · rw [run_indexExists_eq, List.headD_cons, List.tail_cons, Except.bind, existence, he]
    rfl

theorem statuses_decide_named_error :
    let gone : Response := ⟨404, .object [("error", .object [("type", "index_not_found")])]⟩
    let lost : SessionError := .config "no route"
    (∃ e, ((Call.send (existsRequest "posts").message none).run [.ok gone]).value.1 = .error e ∧
        e.isNotFound = true ∧ e ≠ .notFound "posts") ∧
      ((indexExists "posts" none).run [.ok gone]).value.1 = .ok false ∧
      ((indexExists "posts" none).run [.error lost]).value.1 = .error lost := by
  intro gone lost
  obtain ⟨hanswered, hexists, hlost⟩ := statuses_decide (α := Unit) none []
  refine ⟨?_, ?_, ?_⟩
  · obtain ⟨content, hclassified, -, hmissing, hsend, -⟩ := hanswered (existsRequest "posts") gone
    rw [hsend]
    cases hclassified with
    | passed success => exact absurd success (by simp [Succeeds, gone])
    | missing _ unnamed => exact absurd ⟨_, _, rfl, rfl, .inl ⟨_, rfl⟩⟩ unnamed
    | refused => exact ⟨_, rfl, (hmissing _ rfl).mpr rfl, nofun⟩
  · obtain ⟨content, found, -, hrun, -, hfound, -⟩ := hexists "posts" gone
    rw [hrun]
    exact hfound.mpr rfl
  · rw [(hlost (existsRequest "posts") "posts" lost).2 rfl]

end Session

end SearchClient
