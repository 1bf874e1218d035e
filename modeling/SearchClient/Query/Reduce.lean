import SearchClient.Query.Basic

/-!
# Reduction

Reduction removes the parts of a query that say nothing: combinations without
members, combinations around a single member, and labels.  A query that
constrains nothing reduces to none.
-/

namespace SearchClient

namespace BoolClauses

variable {α : Type}

def isEmpty (c : BoolClauses α) : Bool :=
  c.filter.isEmpty && c.should.isEmpty && c.must.isEmpty && c.mustNot.isEmpty

/-- The only member, when it alone carries the meaning of the clauses. -/
def only? (c : BoolClauses α) : Option α :=
  if c.filter.isEmpty && c.mustNot.isEmpty && c.minimumShouldMatch.isNone && c.boost.isNone then
    match c.should, c.must with
    | [q], [] => some q
    | [], [q] => some q
    | _, _ => none
  else none

end BoolClauses

def FunctionScore.isPlain {α : Type} (f : FunctionScore α) : Bool :=
  f.functions.isEmpty && f.options.minScore.isNone

namespace Query

def ofClauses? (c : BoolClauses Query) : Option Query :=
  if c.isEmpty then none
  else
    match c.only? with
    | some q => some q
    | none => some (.bool none c)

def ofAlternatives? (d : DisMax Query) : Option Query :=
  match d.queries with
  | [] => none
  | [q] => some q
  | _ => some (.disMax none d)

mutual

def reduce : Query → Option Query
  | leaf l => some (leaf l)
  | bool _ ⟨f, s, m, n, msm, b⟩ =>
      ofClauses? ⟨reduceAll f, reduceAll s, reduceAll m, reduceAll n, msm, b⟩
  | disMax _ ⟨qs, t, b⟩ => ofAlternatives? ⟨reduceAll qs, t, b⟩
  | functionScore _ ⟨q, fs, o⟩ =>
      if FunctionScore.isPlain ⟨q, fs, o⟩ then reduceOption q
      else some (functionScore none ⟨reduceOption q, reduceFunctions fs, o⟩)
  | joining j q =>
      match reduce q with
      | some inner => some (joining j inner)
      | none => some (joining j matchAll)
  | node _ q => reduce q
termination_by structural q => q

def reduceAll : List Query → List Query
  | [] => []
  | q :: qs =>
      match reduce q with
      | some r => r :: reduceAll qs
      | none => reduceAll qs
termination_by structural qs => qs

def reduceOption : Option Query → Option Query
  | none => none
  | some q => reduce q
termination_by structural q => q

def reduceFunctions : List (ScoreFunction Query) → List (ScoreFunction Query)
  | [] => []
  | ⟨s, q⟩ :: rest => ⟨s, reduceOption q⟩ :: reduceFunctions rest
termination_by structural fs => fs

end

theorem reduceAll_eq_filterMap (qs : List Query) : reduceAll qs = qs.filterMap reduce := by
  induction qs with
  | nil => rfl
  | cons q qs ih => cases h : reduce q <;> simp [reduceAll, h, ih]

/-- The reduction, with the query that matches everything in place of none. -/
def reduceOrAll (q : Query) : Query := (reduce q).getD matchAll

end Query

end SearchClient
