import Mathlib.Logic.Basic
import SearchClient.Proofs.Query.NormalForm

/-!
# Conditions under reduction

The conditions of a query are its leaves in the order of the tree, each with
the places on the way to it that decide how it is applied: as a filter, negated,
for one function only, or to related documents.  Reduction removes shells and
no condition; the only leaves it adds are those that stand for the whole of an
inner query that says nothing.
-/

namespace SearchClient

/-! ## Conditions -/

inductive Place where
  | filter
  | mustNot
  | function (scoring : Scoring)
  | joined (joining : Joining)

structure Condition where
  path : List Place
  leaf : Leaf

def Condition.under (place : Place) (c : Condition) : Condition :=
  { c with path := place :: c.path }

namespace Query

mutual

/-- The conditions of a tree, where an inner query may have gained some. -/
def conditionsWith (gain : Query → List Condition) : Query → List Condition
  | leaf l => [⟨[], l⟩]
  | bool _ ⟨f, s, m, n, _, _⟩ =>
      (conditionsWithAll gain f).map (.under .filter) ++ conditionsWithAll gain s ++
        conditionsWithAll gain m ++ (conditionsWithAll gain n).map (.under .mustNot)
  | disMax _ ⟨qs, _, _⟩ => conditionsWithAll gain qs
  | functionScore _ ⟨q, fs, _⟩ => conditionsWithOption gain q ++ conditionsWithFunctions gain fs
  | joining j q => (conditionsWith gain q ++ gain q).map (.under (.joined j))
  | node _ q => conditionsWith gain q
termination_by structural q => q

def conditionsWithAll (gain : Query → List Condition) : List Query → List Condition
  | [] => []
  | q :: qs => conditionsWith gain q ++ conditionsWithAll gain qs
termination_by structural qs => qs

def conditionsWithOption (gain : Query → List Condition) : Option Query → List Condition
  | none => []
  | some q => conditionsWith gain q
termination_by structural q => q

def conditionsWithFunctions (gain : Query → List Condition) :
    List (ScoreFunction Query) → List Condition
  | [] => []
  | ⟨s, q⟩ :: rest =>
      (conditionsWithOption gain q).map (.under (.function s)) ++ conditionsWithFunctions gain rest
termination_by structural fs => fs

end

def conditions (q : Query) : List Condition := q.conditionsWith fun _ => []

/-- What an inner query gains: the query that matches everything, if it reduces away. -/
def supplied (q : Query) : List Condition :=
  if q.reduce = none then [⟨[], .matchAll none⟩] else []

theorem conditionsWithAll_eq_flatMap (gain : Query → List Condition) (qs : List Query) :
    conditionsWithAll gain qs = qs.flatMap (conditionsWith gain) := by
  induction qs with
  | nil => rfl
  | cons q qs ih => simp [conditionsWithAll, ih]

theorem conditionsWithOption_eq_flatMap (gain : Query → List Condition) (q : Option Query) :
    conditionsWithOption gain q = q.toList.flatMap (conditionsWith gain) := by
  cases q <;> simp [conditionsWithOption]

theorem leaf_under (place : Place) (cs : List Condition) :
    (cs.map (Condition.under place)).map (·.leaf) = cs.map (·.leaf) := by
  simp [Condition.under]

theorem leaf_conditionsWithFunctions (gain : Query → List Condition)
    (fs : List (ScoreFunction Query)) :
    (conditionsWithFunctions gain fs).map (·.leaf) =
      (fs.filterMap (·.filter)).flatMap fun c => (c.conditionsWith gain).map (·.leaf) := by
  induction fs with
  | nil => rfl
  | cons f fs ih =>
      obtain ⟨s, q⟩ := f
      rw [conditionsWithFunctions, ScoreFunction.filterMap_cons, List.map_append, leaf_under, ih,
        List.flatMap_append, conditionsWithOption_eq_flatMap, List.map_flatMap]

theorem leaf_conditions {q : Query} (h : ∀ l, q ≠ leaf l) :
    q.conditions.map (·.leaf) = q.children.flatMap fun c => c.conditions.map (·.leaf) := by
  unfold conditions
  cases q with
  | leaf l => exact absurd rfl (h l)
  | bool l c =>
      simp only [conditionsWith, children, List.map_append, leaf_under, List.flatMap_append,
        conditionsWithAll_eq_flatMap]
      simp only [List.map_flatMap]
  | disMax l d =>
      simp only [conditionsWith, children, conditionsWithAll_eq_flatMap, List.map_flatMap]
  | functionScore l s =>
      simp only [conditionsWith, children, List.map_append, List.flatMap_append,
        conditionsWithOption_eq_flatMap, List.map_flatMap, leaf_conditionsWithFunctions]
  | joining j q => simp only [conditionsWith, children, List.append_nil, leaf_under,
      List.flatMap_singleton]
  | node l q => simp [conditionsWith, children]

def IsConstraint : Query → Prop
  | leaf _ => True
  | functionScore _ s => s.functions ≠ [] ∨ s.options.minScore ≠ none
  | joining _ _ => True
  | _ => False

inductive Constrains : Query → Prop where
  | root {q : Query} (h : q.IsConstraint) : q.Constrains
  | child {q c : Query} (hc : c ∈ q.children) (h : c.Constrains) : q.Constrains

theorem constrains_iff {q : Query} :
    q.Constrains ↔ q.IsConstraint ∨ ∃ c ∈ q.children, c.Constrains := by
  constructor
  · intro h
    cases h with
    | root h => exact .inl h
    | child hc h => exact .inr ⟨_, hc, h⟩
  · rintro (h | ⟨c, hc, h⟩)
    · exact .root h
    · exact .child hc h

theorem ofClauses?_eq_none_iff {c : BoolClauses Query} : ofClauses? c = none ↔ c.Empty := by
  rw [← BoolClauses.isEmpty_iff, ofClauses?]
  cases c.only? <;> simp

theorem ofAlternatives?_eq_none_iff {d : DisMax Query} :
    ofAlternatives? d = none ↔ d.queries = [] := by
  unfold ofAlternatives?
  split <;> simp_all

theorem reduce_ne_none_of_isConstraint {q : Query} (h : q.IsConstraint) : q.reduce ≠ none := by
  cases q with
  | leaf l => simp [reduce]
  | bool l c => exact h.elim
  | disMax l d => exact h.elim
  | node l q => exact h.elim
  | joining j q =>
      rw [reduce]
      split <;> simp
  | functionScore l s =>
      have hplain : s.isPlain = false := by
        simpa [FunctionScore.isPlain, IsConstraint, imp_iff_not_or, Option.isSome_iff_ne_none]
          using h
      simp [reduce, hplain]

theorem reduce_eq_none_iff_children {q : Query} (h : ¬ q.IsConstraint) :
    q.reduce = none ↔ ∀ c ∈ q.children, c.reduce = none := by
  cases q with
  | leaf l => exact absurd trivial h
  | joining j q => exact absurd trivial h
  | node l q => simp [reduce, children]
  | bool l c =>
      simp only [reduce, ofClauses?_eq_none_iff, BoolClauses.Empty, reduceAll_eq_nil_iff, children,
        List.mem_append, or_imp, forall_and, and_assoc]
  | disMax l d =>
      simp only [reduce, ofAlternatives?_eq_none_iff, reduceAll_eq_nil_iff, children]
  | functionScore l s =>
      obtain ⟨q, fs, o⟩ := s
      simp only [IsConstraint, not_or, not_not] at h
      obtain ⟨rfl, hscore⟩ := h
      have hplain : FunctionScore.isPlain (⟨q, [], o⟩ : FunctionScore Query) = true := by
        simp [FunctionScore.isPlain, hscore]
      cases q <;> simp [reduce, hplain, reduceOption, children]

theorem reduce_eq_none_iff {q : Query} : q.reduce = none ↔ ¬ q.Constrains := by
  induction q using children_induction with
  | step q ih =>
      rw [constrains_iff, not_or]
      by_cases hroot : q.IsConstraint
      · simp [hroot, reduce_ne_none_of_isConstraint hroot]
      · rw [reduce_eq_none_iff_children hroot]
        simp only [hroot, not_false_eq_true, true_and, not_exists, not_and]
        exact forall_congr' fun c => forall_congr' fun hc => ih c hc

/-! ## Conditions of a reduction -/

section Reduction

variable {gain : Query → List Condition}

theorem conditions_ofClauses? (c : BoolClauses Query) :
    conditionsWithOption gain (ofClauses? c) = (bool none c).conditionsWith gain := by
  rcases ofClauses?_cases c with ⟨hempty, h⟩ | ⟨q, honly, h⟩ | ⟨-, -, h⟩
  · obtain ⟨f, s, m, n, msm, b⟩ := c
    obtain ⟨rfl, rfl, rfl, rfl⟩ := hempty
    rfl
  · obtain ⟨f, s, m, n, msm, b⟩ := c
    rw [h]
    obtain ⟨rfl, rfl, -, -, ⟨rfl, rfl⟩ | ⟨rfl, rfl⟩⟩ := BoolClauses.only?_eq_some_iff.mp honly
    · simp [conditionsWithOption, conditionsWith, conditionsWithAll]
    · simp [conditionsWithOption, conditionsWith, conditionsWithAll]
  · rw [h]
    rfl

theorem conditions_ofAlternatives? (d : DisMax Query) :
    conditionsWithOption gain (ofAlternatives? d) = (disMax none d).conditionsWith gain := by
  obtain ⟨qs, t, b⟩ := d
  match qs with
  | [] => rfl
  | [q] => simp [ofAlternatives?, conditionsWithOption, conditionsWith, conditionsWithAll]
  | q :: q' :: qs => rfl

end Reduction

/-- Whether the reduction of a query has the conditions of the query and what its parts gain. -/
def KeepsConditions (q : Query) : Prop :=
  conditionsWithOption (fun _ => []) q.reduce = q.conditionsWith supplied

theorem conditions_reduceAll {qs : List Query} (ih : ∀ q ∈ qs, KeepsConditions q) :
    conditionsWithAll (fun _ => []) (reduceAll qs) = conditionsWithAll supplied qs := by
  induction qs with
  | nil => rfl
  | cons q qs ihqs =>
      have hq := ih q List.mem_cons_self
      have hqs := ihqs fun c hc => ih c (List.mem_cons_of_mem _ hc)
      rw [KeepsConditions] at hq
      rw [reduceAll, conditionsWithAll, ← hq, ← hqs]
      cases q.reduce <;> rfl

theorem conditions_reduceOption {q : Option Query} (ih : ∀ c ∈ q.toList, KeepsConditions c) :
    conditionsWithOption (fun _ => []) (reduceOption q) = conditionsWithOption supplied q := by
  cases q with
  | none => rfl
  | some q => exact ih q (by simp)

theorem conditions_reduceFunctions {fs : List (ScoreFunction Query)}
    (ih : ∀ c ∈ fs.filterMap (·.filter), KeepsConditions c) :
    conditionsWithFunctions (fun _ => []) (reduceFunctions fs) =
      conditionsWithFunctions supplied fs := by
  induction fs with
  | nil => rfl
  | cons f fs ihfs =>
      obtain ⟨s, q⟩ := f
      rw [ScoreFunction.filterMap_cons] at ih
      rw [reduceFunctions, conditionsWithFunctions, conditionsWithFunctions,
        conditions_reduceOption fun c hc => ih c (List.mem_append_left _ hc),
        ihfs fun c hc => ih c (List.mem_append_right _ hc)]

theorem keepsConditions (q : Query) : KeepsConditions q := by
  induction q using children_induction with
  | step q ih =>
      unfold KeepsConditions
      cases q with
      | leaf l => rfl
      | bool l c =>
          simp only [children, List.mem_append] at ih
          rw [reduce, conditions_ofClauses?]
          simp only [conditionsWith, conditions_reduceAll fun c hc => ih c (.inl (.inl (.inl hc))),
            conditions_reduceAll fun c hc => ih c (.inl (.inl (.inr hc))),
            conditions_reduceAll fun c hc => ih c (.inl (.inr hc)),
            conditions_reduceAll fun c hc => ih c (.inr hc)]
      | disMax l d =>
          rw [reduce, conditions_ofAlternatives?]
          exact conditions_reduceAll ih
      | functionScore l s =>
          obtain ⟨q, fs, o⟩ := s
          simp only [children, List.mem_append] at ih
          have hq := conditions_reduceOption fun c hc => ih c (.inl hc)
          have hfs := conditions_reduceFunctions fun c hc => ih c (.inr hc)
          rw [reduce]
          split
          · rename_i hplain
            obtain rfl : fs = [] := by simp_all [FunctionScore.isPlain]
            simp only [conditionsWith, hq, conditionsWithFunctions, List.append_nil]
          · simp only [conditionsWithOption, conditionsWith, hq, hfs]
      | joining j q =>
          -- the inner query is kept, or reduced away with nothing in it
          have hq : conditionsWithOption (fun _ => []) q.reduce = q.conditionsWith supplied :=
            ih q (by simp [children])
          rw [conditionsWith, ← hq, supplied, reduce]
          cases q.reduce with
          | some inner => simp [conditionsWithOption, conditionsWith]
          | none => rfl
      | node l q => exact ih q (by simp [children])

/--
A query reduces to none when nothing in it says anything: no leaf, no query on
related documents, no function and no least score.  Otherwise the reduction
has the same leaves in the same order, which is that of the children, each in
the same filters, negations, functions and joins, save that an inner query
which reduces away becomes one leaf that matches everything.
-/
theorem reduce_keeps_conditions (q : Query) :
    (q.reduce = none ↔ ¬ q.Constrains) ∧
      (∀ r, q.reduce = some r → r.conditions = q.conditionsWith supplied) ∧
      ((∀ l, q ≠ leaf l) →
        q.conditions.map (·.leaf) = q.children.flatMap fun c => c.conditions.map (·.leaf)) := by
  refine ⟨reduce_eq_none_iff, fun r hr => ?_, leaf_conditions⟩
  have hq := q.keepsConditions
  rw [KeepsConditions, hr] at hq
  exact hq

theorem reduce_keeps_conditions_emptied_join :
    let comments : Joining := .nested "comments" none none none
    let lang : Leaf := .hasField "lang" none
    let q : Query := .bool (some ⟨1, "part"⟩)
      { filter := [.bool none { should := [.node ⟨2, "lang"⟩ (.leaf lang)] }]
        mustNot := [.joining comments (.disMax (some ⟨3, "empty"⟩) {})] }
    q.conditions.map (·.leaf) = [lang] ∧ ∃ r, q.reduce = some r ∧
      r.conditions = [⟨[.filter], lang⟩, ⟨[.mustNot, .joined comments], .matchAll none⟩] := by
  intro comments lang q
  refine ⟨rfl, _, rfl, ?_⟩
  exact (reduce_keeps_conditions q).2.1 _ rfl

end Query

end SearchClient
