import SearchClient.Proofs.Query.Children
import SearchClient.Query.Reduce

/-!
# Normal forms

A query is normal when no place in it can be reduced.  The rule of a
combination acts on members that are reduced already, and what it leaves is
either one of these members or a combination to which no rule applies; so the
normal queries are the values of reduction, and those that it keeps.
-/

namespace SearchClient

namespace BoolClauses

variable {α : Type}

def Empty (c : BoolClauses α) : Prop :=
  c.filter = [] ∧ c.should = [] ∧ c.must = [] ∧ c.mustNot = []

def Lone (c : BoolClauses α) : Prop :=
  c.filter = [] ∧ c.mustNot = [] ∧ c.minimumShouldMatch = none ∧ c.boost = none ∧
    (c.should.length = 1 ∧ c.must = [] ∨ c.should = [] ∧ c.must.length = 1)

theorem isEmpty_iff {c : BoolClauses α} : c.isEmpty = true ↔ c.Empty := by
  simp [isEmpty, Empty, and_assoc]

theorem only?_eq_some_iff {c : BoolClauses α} {x : α} :
    c.only? = some x ↔
      c.filter = [] ∧ c.mustNot = [] ∧ c.minimumShouldMatch = none ∧ c.boost = none ∧
        (c.should = [x] ∧ c.must = [] ∨ c.should = [] ∧ c.must = [x]) := by
  obtain ⟨f, s, m, n, msm, b⟩ := c
  constructor
  · intro hx
    unfold only? at hx
    split at hx
    · rename_i hbare
      simp only [Bool.and_eq_true, List.isEmpty_iff, Option.isNone_iff_eq_none] at hbare
      obtain ⟨⟨⟨hf, hn⟩, hmsm⟩, hb⟩ := hbare
      refine ⟨hf, hn, hmsm, hb, ?_⟩
      split at hx
      · rename_i hs hm
        cases hx
        exact .inl ⟨hs, hm⟩
      · rename_i hs hm
        cases hx
        exact .inr ⟨hs, hm⟩
      · cases hx
    · cases hx
  · rintro ⟨rfl, rfl, rfl, rfl, ⟨rfl, rfl⟩ | ⟨rfl, rfl⟩⟩
    · rfl
    · rfl

theorem lone_iff {c : BoolClauses α} : c.Lone ↔ ∃ x, c.only? = some x := by
  simp only [Lone, only?_eq_some_iff, List.length_eq_one_iff]
  constructor
  · rintro ⟨hf, hn, hmsm, hb, ⟨⟨x, hs⟩, hm⟩ | ⟨hs, x, hm⟩⟩
    · exact ⟨x, hf, hn, hmsm, hb, .inl ⟨hs, hm⟩⟩
    · exact ⟨x, hf, hn, hmsm, hb, .inr ⟨hs, hm⟩⟩
  · rintro ⟨x, hf, hn, hmsm, hb, ⟨hs, hm⟩ | ⟨hs, hm⟩⟩
    · exact ⟨hf, hn, hmsm, hb, .inl ⟨⟨x, hs⟩, hm⟩⟩
    · exact ⟨hf, hn, hmsm, hb, .inr ⟨hs, x, hm⟩⟩

theorem mem_of_only? {c : BoolClauses α} {x : α} (h : c.only? = some x) :
    x ∈ c.filter ++ c.should ++ c.must ++ c.mustNot := by
  obtain ⟨-, -, -, -, ⟨hs, -⟩ | ⟨-, hm⟩⟩ := only?_eq_some_iff.mp h
  · simp [hs]
  · simp [hm]

end BoolClauses

namespace Query

/-- Whether a rule of reduction applies at the root of a query. -/
def IsRedex : Query → Prop
  | leaf _ => False
  | bool l c => l.isSome ∨ c.Empty ∨ c.Lone
  | disMax l d => l.isSome ∨ d.queries.length < 2
  | functionScore l f => l.isSome ∨ f.functions = [] ∧ f.options.minScore = none
  | joining _ _ => False
  | node _ _ => True

/-- A query without a redex, at the root or anywhere inside. -/
inductive Normal : Query → Prop where
  | intro {q : Query} (root : ¬ q.IsRedex) (inside : ∀ c ∈ q.children, c.Normal) : q.Normal

theorem Normal.root {q : Query} (h : q.Normal) : ¬ q.IsRedex := by
  cases h with
  | intro root inside => exact root

theorem Normal.inside {q : Query} (h : q.Normal) : ∀ c ∈ q.children, c.Normal := by
  cases h with
  | intro root inside => exact inside

theorem normal_leaf (l : Leaf) : (leaf l).Normal :=
  .intro id fun _ hc => nomatch hc

theorem ofClauses?_cases (c : BoolClauses Query) :
    c.Empty ∧ ofClauses? c = none ∨
      (∃ q, c.only? = some q ∧ ofClauses? c = some q) ∨
      ¬ c.Empty ∧ c.only? = none ∧ ofClauses? c = some (bool none c) := by
  unfold ofClauses?
  rw [← BoolClauses.isEmpty_iff]
  by_cases hempty : c.isEmpty = true
  · exact .inl ⟨hempty, if_pos hempty⟩
  · rw [if_neg hempty]
    cases c.only? with
    | some q => exact .inr (.inl ⟨q, rfl, rfl⟩)
    | none => exact .inr (.inr ⟨hempty, rfl, rfl⟩)

theorem ofClauses?_normal {c : BoolClauses Query} {r : Query}
    (hc : ∀ x ∈ (bool none c).children, x.Normal) (h : ofClauses? c = some r) : r.Normal := by
  unfold ofClauses? at h
  by_cases hempty : c.isEmpty = true
  · simp [hempty] at h
  · rw [if_neg hempty] at h
    cases honly : c.only? with
    | some x =>
        obtain rfl : x = r := by simpa [honly] using h
        exact hc x (BoolClauses.mem_of_only? honly)
    | none =>
        obtain rfl : bool none c = r := by simpa [honly] using h
        refine .intro ?_ hc
        rintro (hlabel | hempty' | hlone)
        · cases hlabel
        · exact hempty (BoolClauses.isEmpty_iff.mpr hempty')
        · obtain ⟨x, hx⟩ := BoolClauses.lone_iff.mp hlone
          rw [honly] at hx
          cases hx

theorem ofClauses?_of_not_redex {l : Option Label} {c : BoolClauses Query}
    (h : ¬ (bool l c).IsRedex) : ofClauses? c = some (bool l c) := by
  simp only [IsRedex, not_or] at h
  obtain ⟨hlabel, hempty, hlone⟩ := h
  have honly : c.only? = none := by
    simpa [BoolClauses.lone_iff, Option.eq_none_iff_forall_ne_some] using hlone
  cases l with
  | some l => exact absurd rfl hlabel
  | none => simp only [ofClauses?, BoolClauses.isEmpty_iff, hempty, if_false, honly]

theorem ofAlternatives?_normal {d : DisMax Query} {r : Query}
    (hd : ∀ x ∈ d.queries, x.Normal) (h : ofAlternatives? d = some r) : r.Normal := by
  obtain ⟨qs, t, b⟩ := d
  match qs with
  | [] => cases h
  | [_] =>
      cases h
      exact hd r List.mem_cons_self
  | q :: q' :: qs =>
      cases h
      refine .intro ?_ hd
      rintro (hlabel | hshort)
      · cases hlabel
      · simp only [List.length_cons] at hshort
        omega

theorem ofAlternatives?_of_not_redex {l : Option Label} {d : DisMax Query}
    (h : ¬ (disMax l d).IsRedex) : ofAlternatives? d = some (disMax l d) := by
  simp only [IsRedex, not_or] at h
  obtain ⟨hlabel, hlong⟩ := h
  obtain ⟨qs, t, b⟩ := d
  cases l with
  | some l => exact absurd rfl hlabel
  | none =>
      match qs with
      | [] => exact absurd Nat.zero_lt_two hlong
      | [q] => exact absurd Nat.one_lt_two hlong
      | q :: q' :: qs => rfl

theorem mem_reduceAll {qs : List Query} {r : Query} :
    r ∈ reduceAll qs ↔ ∃ q ∈ qs, q.reduce = some r := by
  rw [reduceAll_eq_filterMap, List.mem_filterMap]

theorem reduceAll_eq_nil_iff {qs : List Query} :
    reduceAll qs = [] ↔ ∀ q ∈ qs, q.reduce = none := by
  rw [reduceAll_eq_filterMap, List.filterMap_eq_nil_iff]

theorem reduceAll_append (qs rs : List Query) :
    reduceAll (qs ++ rs) = reduceAll qs ++ reduceAll rs := by
  simp only [reduceAll_eq_filterMap, List.filterMap_append]

theorem toList_reduceOption (q : Option Query) : (reduceOption q).toList = reduceAll q.toList := by
  cases q with
  | none => rfl
  | some q => cases h : reduce q <;> simp [reduceOption, reduceAll, h]

theorem filters_reduceFunctions (fs : List (ScoreFunction Query)) :
    (reduceFunctions fs).filterMap (·.filter) = reduceAll (fs.filterMap (·.filter)) := by
  induction fs with
  | nil => rfl
  | cons f fs ih =>
      obtain ⟨s, q⟩ := f
      rw [reduceFunctions, ScoreFunction.filterMap_cons, ScoreFunction.filterMap_cons, ih,
        toList_reduceOption, reduceAll_append]

theorem reduceAll_of_fixed {qs : List Query} (h : ∀ q ∈ qs, q.reduce = some q) :
    reduceAll qs = qs := by
  induction qs with
  | nil => rfl
  | cons q qs ih =>
      have hqs := ih fun c hc => h c (List.mem_cons_of_mem _ hc)
      simp only [reduceAll, h q List.mem_cons_self, hqs]

theorem reduceOption_of_fixed {q : Option Query} (h : ∀ c ∈ q.toList, c.reduce = some c) :
    reduceOption q = q := by
  cases q with
  | none => rfl
  | some q => exact h q (by simp)

theorem reduceFunctions_of_fixed {fs : List (ScoreFunction Query)}
    (h : ∀ c ∈ fs.filterMap (·.filter), c.reduce = some c) : reduceFunctions fs = fs := by
  induction fs with
  | nil => rfl
  | cons f fs ih =>
      obtain ⟨s, q⟩ := f
      rw [ScoreFunction.filterMap_cons] at h
      rw [reduceFunctions, ih fun c hc => h c (List.mem_append_right _ hc),
        reduceOption_of_fixed fun c hc => h c (List.mem_append_left _ hc)]

/-! ## Normal forms -/

theorem normal_of_reduce {q r : Query} (h : q.reduce = some r) : r.Normal := by
  induction q using children_induction generalizing r with
  | step q ih =>
      have hmembers : ∀ x ∈ reduceAll q.children, x.Normal := fun x hx =>
        let ⟨c, hc, hr⟩ := mem_reduceAll.mp hx
        ih c hc hr
      cases q with
      | leaf l =>
          cases h
          exact normal_leaf l
      | bool l c =>
          refine ofClauses?_normal (fun x hx => hmembers x ?_) h
          simpa [children, reduceAll_eq_filterMap] using hx
      | disMax l d => exact ofAlternatives?_normal hmembers h
      | functionScore l s =>
          obtain ⟨q, fs, o⟩ := s
          rw [reduce] at h
          split at h
          · cases q with
            | none => cases h
            | some q => exact ih q (by simp [children]) h
          · rename_i hplain
            cases h
            refine .intro ?_ fun x hx => ?_
            · rintro (hlabel | ⟨hfs, hscore⟩)
              · cases hlabel
              · cases fs with
                | nil => exact hplain (by simp_all [FunctionScore.isPlain])
                | cons f fs => cases hfs
            · refine hmembers x ?_
              rw [children, toList_reduceOption, filters_reduceFunctions] at hx
              simpa only [children, reduceAll_eq_filterMap, List.filterMap_append] using hx
      | joining j q =>
          rw [reduce] at h
          split at h
          · rename_i inner hinner
            cases h
            refine .intro id fun c hc => ?_
            rw [List.mem_singleton.mp hc]
            exact ih q (by simp [children]) hinner
          · cases h
            refine .intro id fun c hc => ?_
            rw [List.mem_singleton.mp hc]
            exact normal_leaf _
      | node l q => exact ih q (by simp [children]) h

theorem reduce_of_normal {q : Query} (h : q.Normal) : q.reduce = some q := by
  induction q using children_induction with
  | step q ih =>
      have hfixed : ∀ c ∈ q.children, c.reduce = some c := fun c hc => ih c hc (h.inside c hc)
      have hroot := h.root
      cases q with
      | leaf l => rfl
      | bool l c =>
          obtain ⟨f, s, m, n, msm, b⟩ := c
          simp only [children, List.mem_append] at hfixed
          rw [reduce, reduceAll_of_fixed fun c hc => hfixed c (by simp [hc]),
            reduceAll_of_fixed fun c hc => hfixed c (by simp [hc]),
            reduceAll_of_fixed fun c hc => hfixed c (by simp [hc]),
            reduceAll_of_fixed fun c hc => hfixed c (by simp [hc])]
          exact ofClauses?_of_not_redex hroot
      | disMax l d =>
          obtain ⟨qs, t, b⟩ := d
          have hqs : reduceAll qs = qs := reduceAll_of_fixed hfixed
          rw [reduce, hqs]
          exact ofAlternatives?_of_not_redex hroot
      | functionScore l s =>
          obtain ⟨q, fs, o⟩ := s
          simp only [children, List.mem_append] at hfixed
          simp only [IsRedex, not_or] at hroot
          obtain ⟨hlabel, hplain⟩ := hroot
          rw [reduce, reduceOption_of_fixed fun c hc => hfixed c (.inl hc),
            reduceFunctions_of_fixed fun c hc => hfixed c (.inr hc)]
          cases l with
          | some l => exact absurd rfl hlabel
          | none => rw [if_neg (by simpa [FunctionScore.isPlain] using hplain)]
      | joining j q => simp only [reduce, hfixed q (by simp [children])]
      | node l q => exact absurd trivial hroot

theorem normal_iff_reduce_eq_some {q : Query} : q.Normal ↔ q.reduce = some q :=
  ⟨reduce_of_normal, normal_of_reduce⟩

/--
A query reduces to none or to a normal query; the normal queries are those
that reduce to themselves, so a second reduction changes nothing.
-/
theorem reduce_normalizes (q : Query) :
    (q.reduce = none ∨ ∃ r, q.reduce = some r ∧ r.Normal) ∧
      (q.Normal ↔ q.reduce = some q) ∧ q.reduce.bind reduce = q.reduce := by
  refine ⟨?_, normal_iff_reduce_eq_some, ?_⟩
  · cases h : q.reduce with
    | none => exact .inl rfl
    | some r => exact .inr ⟨r, rfl, normal_of_reduce h⟩
  · cases h : q.reduce with
    | none => rfl
    | some r => exact reduce_of_normal (normal_of_reduce h)

example :
    reduce (.bool none { must := [.node ⟨1, "part"⟩ (.bool none {}), matchAll] }) =
      some matchAll := rfl

end Query

end SearchClient
