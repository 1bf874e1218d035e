import Mathlib.Logic.Basic
import SearchClient.Proofs.Query.NormalForm

/-!
# What a query matches

The leaves of a query are predicates on documents, and the combinations put
them together.  A member that reduces away matches every document; reduction
drops it, and that is right only where a member that matches everything makes
no difference.  It does under a negation, beside alternatives that are kept,
and as the one clause whose presence made the other clauses optional.
-/

namespace SearchClient

structure Interpretation (δ : Type) where
  holds : Leaf → δ → Prop
  joined : Joining → (δ → Prop) → δ → Prop
  matchAll (boost : Option Float) (d : δ) : holds (.matchAll boost) d

namespace Query

section Matching

variable {δ : Type} (I : Interpretation δ)

mutual

/--
Whether a query matches a document, where no number of clauses and no least
score is asked for.  Clauses that should match are optional beside those that
must.
-/
def Matches : Query → δ → Prop
  | leaf l => I.holds l
  | bool _ ⟨f, s, m, n, _, _⟩ => fun d =>
      MatchesAll f d ∧ MatchesAll m d ∧ ¬ MatchesAny n d ∧
        (s = [] ∨ f ≠ [] ∨ m ≠ [] ∨ MatchesAny s d)
  | disMax _ ⟨qs, _, _⟩ => MatchesAny qs
  | functionScore _ ⟨q, _, _⟩ => MatchesOption q
  | joining j q => I.joined j (Matches q)
  | node _ q => Matches q
termination_by structural q => q

def MatchesAll : List Query → δ → Prop
  | [] => fun _ => True
  | q :: qs => fun d => Matches q d ∧ MatchesAll qs d
termination_by structural qs => qs

def MatchesAny : List Query → δ → Prop
  | [] => fun _ => False
  | q :: qs => fun d => Matches q d ∨ MatchesAny qs d
termination_by structural qs => qs

def MatchesOption : Option Query → δ → Prop
  | none => fun _ => True
  | some q => Matches q
termination_by structural q => q

end

variable {I} {d : δ}

theorem matchesAll_iff {qs : List Query} : MatchesAll I qs d ↔ ∀ q ∈ qs, q.Matches I d := by
  induction qs with
  | nil => simp [MatchesAll]
  | cons q qs ih => simp [MatchesAll, ih]

theorem matchesAny_iff {qs : List Query} : MatchesAny I qs d ↔ ∃ q ∈ qs, q.Matches I d := by
  induction qs with
  | nil => simp [MatchesAny]
  | cons q qs ih => simp [MatchesAny, ih]

theorem matches_bool {l : Option Label} {c : BoolClauses Query} :
    (bool l c).Matches I d ↔
      (∀ q ∈ c.filter ++ c.must, q.Matches I d) ∧ (∀ q ∈ c.mustNot, ¬ q.Matches I d) ∧
        (c.should = [] ∨ c.filter ++ c.must ≠ [] ∨ ∃ q ∈ c.should, q.Matches I d) := by
  have hne : c.filter ++ c.must ≠ [] ↔ c.filter ≠ [] ∨ c.must ≠ [] := by
    simp [imp_iff_not_or]
  rw [hne]
  simp only [Matches, matchesAll_iff, matchesAny_iff, List.mem_append, or_imp, forall_and,
    not_exists, not_and, and_assoc, or_assoc]

theorem matches_disMax {l : Option Label} {a : DisMax Query} :
    (disMax l a).Matches I d ↔ ∃ q ∈ a.queries, q.Matches I d :=
  matchesAny_iff

end Matching

/-- The members that decide which documents a query matches; the filters of functions do not. -/
def deciders : Query → List Query
  | functionScore _ s => s.query.toList
  | q => q.children

theorem mem_children_of_mem_deciders {q c : Query} (h : c ∈ q.deciders) : c ∈ q.children := by
  cases q with
  | functionScore l s => exact List.mem_append_left _ h
  | _ => exact h

inductive Throughout (P : Query → Prop) : Query → Prop where
  | intro {q : Query} (root : P q) (inside : ∀ c ∈ q.deciders, c.Throughout P) : q.Throughout P

theorem throughout_iff {P : Query → Prop} {q : Query} :
    q.Throughout P ↔ P q ∧ ∀ c ∈ q.deciders, c.Throughout P := by
  constructor
  · intro h
    cases h with
    | intro root inside => exact ⟨root, inside⟩
  · rintro ⟨root, inside⟩
    exact .intro root inside

section

variable {P : Query → Prop}

@[simp] theorem throughout_leaf {l : Leaf} : (leaf l).Throughout P ↔ P (leaf l) := by
  simp [throughout_iff (q := leaf l), deciders, children]

@[simp] theorem throughout_bool {l : Option Label} {c : BoolClauses Query} :
    (bool l c).Throughout P ↔
      P (bool l c) ∧ ∀ q ∈ c.filter ++ c.should ++ c.must ++ c.mustNot, q.Throughout P :=
  throughout_iff

@[simp] theorem throughout_disMax {l : Option Label} {a : DisMax Query} :
    (disMax l a).Throughout P ↔ P (disMax l a) ∧ ∀ q ∈ a.queries, q.Throughout P :=
  throughout_iff

@[simp] theorem throughout_node {l : Label} {q : Query} :
    (node l q).Throughout P ↔ P (node l q) ∧ q.Throughout P := by
  simp [throughout_iff (q := node l q), deciders, children]

end

def Interpretable : Query → Prop
  | bool _ c => c.minimumShouldMatch = none
  | disMax _ a => a.queries ≠ []
  | functionScore _ s => s.options.minScore = none
  | _ => True

/-- Whether the members that reduce away make no difference to a query. -/
def DropsFreely : Query → Prop
  | bool _ c =>
      (∀ q ∈ c.mustNot, q.reduce ≠ none) ∧
        (reduceAll c.should = [] ∨ reduceAll (c.filter ++ c.must) ≠ [] ∨
          ∀ q ∈ c.filter ++ c.must ++ c.should, q.reduce ≠ none)
  | disMax _ a => reduceAll a.queries = [] ∨ ∀ q ∈ a.queries, q.reduce ≠ none
  | _ => True

/-! ## Reduction -/

section Reduction

variable {δ : Type} {I : Interpretation δ} {d : δ}

def KeepsMeaning (I : Interpretation δ) (q : Query) : Prop :=
  ∀ d, MatchesOption I q.reduce d ↔ q.Matches I d

theorem KeepsMeaning.matches_of_reduce_eq_none {q : Query} (hq : q.KeepsMeaning I)
    (h : q.reduce = none) (d : δ) : q.Matches I d := by
  rw [← hq d, h]
  trivial

theorem KeepsMeaning.matches_iff {q r : Query} (hq : q.KeepsMeaning I)
    (h : q.reduce = some r) (d : δ) : r.Matches I d ↔ q.Matches I d := by
  rw [← hq d, h]
  exact Iff.rfl

theorem forall_mem_reduceAll {qs : List Query} (hqs : ∀ q ∈ qs, q.KeepsMeaning I) :
    (∀ r ∈ reduceAll qs, r.Matches I d) ↔ ∀ q ∈ qs, q.Matches I d := by
  constructor
  · intro h q hq
    cases hr : q.reduce with
    | none => exact (hqs q hq).matches_of_reduce_eq_none hr d
    | some r => exact ((hqs q hq).matches_iff hr d).mp (h r (mem_reduceAll.mpr ⟨q, hq, hr⟩))
  · intro h r hr
    obtain ⟨q, hq, hqr⟩ := mem_reduceAll.mp hr
    exact ((hqs q hq).matches_iff hqr d).mpr (h q hq)

theorem exists_mem_reduceAll {qs : List Query} (hqs : ∀ q ∈ qs, q.KeepsMeaning I)
    (hkept : ∀ q ∈ qs, q.reduce ≠ none) :
    (∃ r ∈ reduceAll qs, r.Matches I d) ↔ ∃ q ∈ qs, q.Matches I d := by
  constructor
  · rintro ⟨r, hr, hmatch⟩
    obtain ⟨q, hq, hqr⟩ := mem_reduceAll.mp hr
    exact ⟨q, hq, ((hqs q hq).matches_iff hqr d).mp hmatch⟩
  · rintro ⟨q, hq, hmatch⟩
    obtain ⟨r, hr⟩ := Option.ne_none_iff_exists'.mp (hkept q hq)
    exact ⟨r, mem_reduceAll.mpr ⟨q, hq, hr⟩, ((hqs q hq).matches_iff hr d).mpr hmatch⟩

theorem ne_nil_of_reduceAll_ne_nil {qs : List Query} (h : reduceAll qs ≠ []) : qs ≠ [] := by
  rintro rfl
  exact h rfl

theorem reduceAll_eq_nil_iff_of_kept {qs : List Query} (hkept : ∀ q ∈ qs, q.reduce ≠ none) :
    reduceAll qs = [] ↔ qs = [] := by
  cases qs with
  | nil => simp [reduceAll]
  | cons q qs => simp [reduceAll_eq_nil_iff, hkept q List.mem_cons_self]

theorem matches_ofClauses? (c : BoolClauses Query) :
    MatchesOption I (ofClauses? c) d ↔ (bool none c).Matches I d := by
  rcases ofClauses?_cases c with ⟨⟨hf, hs, hm, hn⟩, h⟩ | ⟨q, honly, h⟩ | ⟨-, -, h⟩
  · rw [h, matches_bool]
    simp [MatchesOption, hf, hs, hm, hn]
  · rw [h, matches_bool]
    obtain ⟨hf, hn, -, -, ⟨hs, hm⟩ | ⟨hs, hm⟩⟩ := BoolClauses.only?_eq_some_iff.mp honly
    · simp [MatchesOption, hf, hs, hm, hn]
    · simp [MatchesOption, hf, hs, hm, hn]
  · rw [h]
    exact Iff.rfl

theorem matches_ofAlternatives? {a : DisMax Query} (h : a.queries ≠ []) :
    MatchesOption I (ofAlternatives? a) d ↔ (disMax none a).Matches I d := by
  obtain ⟨qs, t, b⟩ := a
  match qs with
  | [] => exact absurd rfl h
  | [q] => simp [ofAlternatives?, MatchesOption, matches_disMax]
  | q :: q' :: qs => exact Iff.rfl

theorem should_reduceAll {must should : List Query} (hshould : ∀ q ∈ should, q.KeepsMeaning I)
    (hdrop : reduceAll should = [] ∨ reduceAll must ≠ [] ∨
      ∀ q ∈ must ++ should, q.reduce ≠ none) :
    (reduceAll should = [] ∨ reduceAll must ≠ [] ∨ ∃ r ∈ reduceAll should, r.Matches I d) ↔
      (should = [] ∨ must ≠ [] ∨ ∃ q ∈ should, q.Matches I d) := by
  rcases hdrop with hnone | hmust | hkept
  · -- each of the clauses matches everything, so one that has to match does
    refine iff_of_true (.inl hnone) ?_
    cases should with
    | nil => exact .inl rfl
    | cons q qs =>
        have hq := reduceAll_eq_nil_iff.mp hnone q List.mem_cons_self
        have hmatch := (hshould q List.mem_cons_self).matches_of_reduce_eq_none hq d
        exact .inr (.inr ⟨q, List.mem_cons_self, hmatch⟩)
  · exact iff_of_true (.inr (.inl hmust)) (.inr (.inl (ne_nil_of_reduceAll_ne_nil hmust)))
  · have hkept' : ∀ q ∈ should, q.reduce ≠ none := fun q hq => hkept q (List.mem_append_right _ hq)
    have hmust : reduceAll must = [] ↔ must = [] :=
      reduceAll_eq_nil_iff_of_kept fun q hq => hkept q (List.mem_append_left _ hq)
    rw [reduceAll_eq_nil_iff_of_kept hkept', exists_mem_reduceAll hshould hkept', ne_eq, hmust]

theorem keepsMeaning_bool {l : Option Label} {c : BoolClauses Query}
    (hc : ∀ q ∈ (bool l c).children, q.KeepsMeaning I) (hdrop : (bool l c).DropsFreely) :
    (bool l c).KeepsMeaning I := by
  intro d
  obtain ⟨f, s, m, n, msm, b⟩ := c
  obtain ⟨hnot, hshould⟩ := hdrop
  simp only [children, List.mem_append] at hc
  have hmust : ∀ q ∈ f ++ m, q.KeepsMeaning I := by
    intro q hq
    rcases List.mem_append.mp hq with hq | hq
    · exact hc q (by simp [hq])
    · exact hc q (by simp [hq])
  have hany := exists_mem_reduceAll (d := d) (fun q hq => hc q (.inr hq)) hnot
  rw [reduce, matches_ofClauses?, matches_bool, matches_bool]
  refine and_congr ?_ (and_congr ?_ ?_)
  · rw [← reduceAll_append]
    exact forall_mem_reduceAll hmust
  · simpa only [not_exists, not_and] using not_congr hany
  · rw [← reduceAll_append]
    exact should_reduceAll (fun q hq => hc q (by simp [hq])) hshould

theorem keepsMeaning_disMax {l : Option Label} {a : DisMax Query}
    (hc : ∀ q ∈ (disMax l a).children, q.KeepsMeaning I) (hsome : (disMax l a).Interpretable)
    (hdrop : (disMax l a).DropsFreely) : (disMax l a).KeepsMeaning I := by
  intro d
  obtain ⟨qs, t, b⟩ := a
  rw [reduce, matches_disMax]
  rcases hdrop with hnone | hkept
  · obtain ⟨q, hq⟩ := List.exists_mem_of_ne_nil qs hsome
    have hmatch := (hc q hq).matches_of_reduce_eq_none (reduceAll_eq_nil_iff.mp hnone q hq) d
    simp only [hnone, ofAlternatives?, MatchesOption, true_iff]
    exact ⟨q, hq, hmatch⟩
  · have hsome' : reduceAll qs ≠ [] := by rwa [ne_eq, reduceAll_eq_nil_iff_of_kept hkept]
    rw [matches_ofAlternatives? hsome', matches_disMax]
    exact exists_mem_reduceAll hc hkept

theorem keepsMeaning_functionScore {l : Option Label} {s : FunctionScore Query}
    (hs : ∀ q ∈ s.query, q.KeepsMeaning I) : (functionScore l s).KeepsMeaning I := by
  intro d
  obtain ⟨q, fs, o⟩ := s
  have hquery : MatchesOption I (reduceOption q) d ↔ MatchesOption I q d := by
    cases q with
    | none => exact Iff.rfl
    | some q => exact hs q rfl d
  rw [reduce]
  split
  · exact hquery
  · exact hquery

theorem keepsMeaning_joining {j : Joining} {q : Query} (hq : q.KeepsMeaning I) :
    (joining j q).KeepsMeaning I := by
  intro d
  have hinner : ∀ r, (∀ e, r.Matches I e ↔ q.Matches I e) →
      ((joining j r).Matches I d ↔ (joining j q).Matches I d) := by
    intro r hr
    rw [Matches, Matches, funext fun e => propext (hr e)]
  rw [reduce]
  split
  · rename_i r hr
    exact hinner r (hq.matches_iff hr)
  · rename_i hr
    exact hinner matchAll fun e =>
      iff_of_true (I.matchAll none e) (hq.matches_of_reduce_eq_none hr e)

/--
Where members that reduce away make no difference, a query and its reduction
match the same documents; a query that reduces to none matches all of them.
-/
theorem matches_reduce_iff {q : Query} (hq : q.Throughout Interpretable)
    (hdrop : q.Throughout DropsFreely) (d : δ) :
    MatchesOption I q.reduce d ↔ q.Matches I d := by
  suffices h : q.KeepsMeaning I from h d
  induction q using children_induction with
  | step q ih =>
      obtain ⟨hroot, hq⟩ := throughout_iff.mp hq
      obtain ⟨hfree, hdrop⟩ := throughout_iff.mp hdrop
      have hinside : ∀ c ∈ q.deciders, c.KeepsMeaning I := fun c hc =>
        ih c (mem_children_of_mem_deciders hc) (hq c hc) (hdrop c hc)
      cases q with
      | leaf l => exact fun d => Iff.rfl
      | bool l c => exact keepsMeaning_bool hinside hfree
      | disMax l a => exact keepsMeaning_disMax hinside hroot hfree
      | functionScore l s =>
          exact keepsMeaning_functionScore fun c hc => hinside c (Option.mem_toList.mpr hc)
      | joining j q => exact keepsMeaning_joining (hinside q (by simp [deciders, children]))
      | node l q => exact hinside q (by simp [deciders, children])

end Reduction

/-- Documents told by the fields they have. -/
def presence : Interpretation (List String) where
  holds
    | .hasField field _, d => field ∈ d
    | _, _ => True
  joined _ p := p
  matchAll _ _ := trivial

theorem matches_reduce_iff_placeholder :
    let q : Query := .bool none
      { must := [.node ⟨1, "part"⟩ (.bool none {}), .leaf (.hasField "lang" none)]
        should := [.disMax none { queries := [.leaf (.hasField "title" none)] }]
        mustNot := [.leaf (.hasField "draft" none)] }
    MatchesOption presence q.reduce ["lang"] ∧ q.Matches presence ["lang"] := by
  intro q
  have hq : q.Throughout Interpretable := by
    simp [q, Interpretable]
  have hdrop : q.Throughout DropsFreely := by
    simp [q, DropsFreely, reduceAll, reduce, ofClauses?, ofAlternatives?, BoolClauses.isEmpty]
  have hmatch : q.Matches presence ["lang"] := by
    simp [q, Matches, MatchesAll, MatchesAny, presence]
  exact ⟨(matches_reduce_iff hq hdrop ["lang"]).mpr hmatch, hmatch⟩

/-- A clause that must match and says nothing makes the others optional; without it they are not. -/
theorem reduce_requires_optional_clause :
    let q : Query := .bool none
      { must := [.bool none {}], should := [.leaf (.hasField "lang" none)] }
    q.Throughout Interpretable ∧ q.Matches presence [] ∧
      ¬ MatchesOption presence q.reduce [] := by
  intro q
  refine ⟨?_, ?_, ?_⟩
  · simp [q, Interpretable]
  · simp [q, Matches, MatchesAll, MatchesAny]
  · simp [q, reduce, reduceAll, ofClauses?, BoolClauses.isEmpty, BoolClauses.only?, MatchesOption,
      Matches, presence]

end Query

end SearchClient
