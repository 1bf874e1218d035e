import Mathlib.Data.List.Forall2
import SearchClient.Proofs.Query.Shared

/-!
# Identity under replacement

Replacement in a shared tree says what substitution says.  A query without the
handle stays the object it was, with everything inside it; a query with the
handle anywhere inside becomes a new object, whatever is put in.
-/

namespace SearchClient.SharedQuery

open Query (Occurs OccursAny)

/-! ## One replacement -/

section Replacement

variable {new : SharedNode}

structure Replaced (new : SharedNode) (t : SharedQuery) (next : Nat) (r : SharedQuery × Nat) :
    Prop where
  le : next ≤ r.2
  content : r.1.toQuery = t.toQuery.substitute new.toNode
  kept : ¬ t.toQuery.Occurs new.handle → r = (t, next)
  made : t.toQuery.Occurs new.handle → next ≤ r.1.address

theorem Replaced.same {t : SharedQuery} {next : Nat} {r : SharedQuery × Nat}
    (h : Replaced new t next r) (below : t.Below next) :
    r.1.same t = !decide (t.toQuery.Occurs new.handle) := by
  by_cases ho : t.toQuery.Occurs new.handle
  · have hroot := below.root
    have hmade := h.made ho
    simp [SharedQuery.same, ho]
    omega
  · simp [SharedQuery.same, ho, h.kept ho]

theorem Replaced.changed? {t : SharedQuery} {next : Nat} {r : SharedQuery × Nat}
    (h : Replaced new t next r) (below : t.Below next) :
    SharedQuery.changed? t r.1 =
      if t.toQuery.Occurs new.handle then some r.1 else none := by
  rw [SharedQuery.changed?, h.same below]
  by_cases ho : t.toQuery.Occurs new.handle <;> simp [ho]

def ReplacedFromAbove (new : SharedNode) (t : SharedQuery) : Prop :=
  ∀ next, t.Below next → Replaced new t next (replace new t next)

/-- A tree becomes another by replacement from some address on. -/
def Becomes (new : SharedNode) (next : Nat) (t t' : SharedQuery) : Prop :=
  ∃ k, next ≤ k ∧ (replace new t k).1 = t'

theorem Becomes.mono {next next' : Nat} (hle : next ≤ next') {t t' : SharedQuery}
    (h : Becomes new next' t t') : Becomes new next t t' := by
  obtain ⟨k, hk, rfl⟩ := h
  exact ⟨k, Nat.le_trans hle hk, rfl⟩

structure ReplacedAll (new : SharedNode) (ts : List SharedQuery) (next : Nat)
    (r : List SharedQuery × Nat) : Prop where
  le : next ≤ r.2
  content : r.1.map toQuery = (ts.map toQuery).map (Query.substitute new.toNode)
  kept : ¬ OccursAny new.handle (ts.map toQuery) → r = (ts, next)
  changed : ((r.1.zip ts).any fun (n, o) => !n.same o) =
    decide (OccursAny new.handle (ts.map toQuery))
  pairs : List.Forall₂ (Becomes new next) ts r.1

theorem replaced_replaceAll {ts : List SharedQuery} (ih : ∀ t ∈ ts, ReplacedFromAbove new t)
    {next : Nat} (below : ∀ t ∈ ts, t.Below next) :
    ReplacedAll new ts next (replaceAll new ts next) := by
  induction ts generalizing next with
  | nil => exact ⟨Nat.le_refl _, rfl, fun _ => rfl, by simp [replaceAll], .nil⟩
  | cons t ts ihts =>
      have ht := ih t List.mem_cons_self next (below t List.mem_cons_self)
      have hts := ihts (fun t h => ih t (List.mem_cons_of_mem _ h))
        (fun t h => (below t (List.mem_cons_of_mem _ h)).mono ht.le)
      have hsame := ht.same (below t List.mem_cons_self)
      rw [replaceAll]
      refine ⟨Nat.le_trans ht.le hts.le, ?_, ?_, ?_, ?_⟩
      · simp only [List.map_cons, ht.content, hts.content]
      · intro hnot
        simp only [List.map_cons, Query.occursAny_cons, not_or] at hnot
        have hkept := ht.kept hnot.1
        simp only [hkept] at hts ⊢
        rw [hts.kept hnot.2]
      · simp only [List.zip_cons_cons, List.any_cons, hsame, hts.changed]
        simp
      · exact .cons ⟨next, Nat.le_refl _, rfl⟩ (hts.pairs.imp fun _ _ => Becomes.mono ht.le)

theorem ReplacedAll.anyChanged?_eq_none_iff {ts : List SharedQuery} {next : Nat}
    {r : List SharedQuery × Nat} (h : ReplacedAll new ts next r) :
    anyChanged? ts r.1 = none ↔ ¬ OccursAny new.handle (ts.map toQuery) := by
  rw [anyChanged?, h.changed]
  simp

theorem ReplacedAll.getD_anyChanged? {ts : List SharedQuery} {next : Nat}
    {r : List SharedQuery × Nat} (h : ReplacedAll new ts next r) :
    (anyChanged? ts r.1).getD ts = r.1 := by
  by_cases ho : OccursAny new.handle (ts.map toQuery)
  · simp [anyChanged?, h.changed, ho]
  · rw [h.anyChanged?_eq_none_iff.mpr ho, h.kept ho]
    rfl

theorem ReplacedAll.append {ts us : List SharedQuery} {next : Nat}
    {r r' : List SharedQuery × Nat} (h : ReplacedAll new ts next r)
    (h' : ReplacedAll new us r.2 r') : ReplacedAll new (ts ++ us) next (r.1 ++ r'.1, r'.2) := by
  refine ⟨Nat.le_trans h.le h'.le, ?_, ?_, ?_, ?_⟩
  · simp only [List.map_append, h.content, h'.content]
  · intro hnot
    rw [List.map_append, Query.occursAny_append, not_or] at hnot
    have hkept := h.kept hnot.1
    rw [hkept] at h' ⊢
    rw [h'.kept hnot.2]
  · rw [List.zip_append h.pairs.length_eq.symm, List.any_append, h.changed, h'.changed]
    simp
  · exact List.rel_append h.pairs (h'.pairs.imp fun _ _ => Becomes.mono h.le)

structure ReplacedOption (new : SharedNode) (t : Option SharedQuery) (next : Nat)
    (r : Option SharedQuery × Nat) : Prop where
  le : next ≤ r.2
  content : (r.1.or t).map toQuery = (t.map toQuery).map (Query.substitute new.toNode)
  kept : ¬ OccursAny new.handle (t.map toQuery).toList → r = (none, next)
  changed : r.1.isNone = !decide (OccursAny new.handle (t.map toQuery).toList)
  pairs : List.Forall₂ (Becomes new next) t.toList (r.1.or t).toList

theorem replaced_replaceOption {t : Option SharedQuery}
    (ih : ∀ c ∈ t.toList, ReplacedFromAbove new c) {next : Nat}
    (below : ∀ c ∈ t.toList, c.Below next) :
    ReplacedOption new t next (replaceOption new t next) := by
  cases t with
  | none =>
      exact ⟨Nat.le_refl _, rfl, fun _ => rfl, by simp [replaceOption], .nil⟩
  | some t =>
      have ht := ih t (by simp) next (below t (by simp))
      have hchanged := ht.changed? (below t (by simp))
      have hpair : Becomes new next t (replace new t next).1 := ⟨next, Nat.le_refl _, rfl⟩
      rw [replaceOption]
      simp only [hchanged]
      by_cases ho : t.toQuery.Occurs new.handle
      · refine ⟨ht.le, ?_, ?_, ?_, ?_⟩ <;> simp [ho, ht.content, hpair]
      · have hkept := ht.kept ho
        have hstill := hkept ▸ ht.content
        refine ⟨ht.le, ?_, ?_, ?_, ?_⟩
        · simpa [ho] using hstill
        · simp [ho, hkept]
        · simp [ho]
        · simpa [ho, hkept] using hpair

structure ReplacedFunctions (new : SharedNode) (fs : List (ScoreFunction SharedQuery))
    (next : Nat) (r : List (Option (ScoreFunction SharedQuery)) × Nat) : Prop where
  le : next ≤ r.2
  content : (r.1.zipWith (·.getD ·) fs).map (·.map toQuery) =
    (fs.map (·.map toQuery)).map (·.map (Query.substitute new.toNode))
  kept : ¬ OccursAny new.handle ((fs.filterMap (·.filter)).map toQuery) →
    r.1.zipWith (·.getD ·) fs = fs ∧ r.2 = next
  changed : r.1.all (·.isNone) =
    !decide (OccursAny new.handle ((fs.filterMap (·.filter)).map toQuery))
  pairs : List.Forall₂ (Becomes new next) (fs.filterMap (·.filter))
    ((r.1.zipWith (·.getD ·) fs).filterMap (·.filter))

theorem replaced_replaceFunctions {fs : List (ScoreFunction SharedQuery)}
    (ih : ∀ c ∈ fs.filterMap (·.filter), ReplacedFromAbove new c) {next : Nat}
    (below : ∀ c ∈ fs.filterMap (·.filter), c.Below next) :
    ReplacedFunctions new fs next (replaceFunctions new fs next) := by
  induction fs generalizing next with
  | nil => exact ⟨Nat.le_refl _, rfl, fun _ => ⟨rfl, rfl⟩, by simp [replaceFunctions], .nil⟩
  | cons f fs ihfs =>
      obtain ⟨s, t⟩ := f
      rw [ScoreFunction.filterMap_cons] at ih below
      have ht : ReplacedOption new t next (replaceOption new t next) :=
        replaced_replaceOption (fun c hc => ih c (List.mem_append_left _ hc))
          fun c hc => below c (List.mem_append_left _ hc)
      have hfs := ihfs (fun c hc => ih c (List.mem_append_right _ hc))
        (fun c hc => (below c (List.mem_append_right _ hc)).mono ht.le)
      have hhead : ((replaceOption new t next).1.map fun t' => (⟨s, some t'⟩ :
          ScoreFunction SharedQuery)).getD ⟨s, t⟩ = ⟨s, (replaceOption new t next).1.or t⟩ := by
        cases (replaceOption new t next).1 <;> rfl
      rw [replaceFunctions]
      refine ⟨Nat.le_trans ht.le hfs.le, ?_, ?_, ?_, ?_⟩
      · simp only [List.zipWith_cons_cons, List.map_cons, hhead, hfs.content]
        simp only [ScoreFunction.map, ht.content]
      · intro hnot
        rw [ScoreFunction.filterMap_cons, List.map_append, ← Option.toList_map,
          Query.occursAny_append, not_or] at hnot
        have hkept := ht.kept hnot.1
        simp only [hkept] at hfs ⊢
        obtain ⟨hsame, hnext⟩ := hfs.kept hnot.2
        exact ⟨congrArg (_ :: ·) hsame, hnext⟩
      · rw [ScoreFunction.filterMap_cons, List.map_append, ← Option.toList_map]
        simp only [List.all_cons, Option.isNone_map, ht.changed, hfs.changed,
          Query.occursAny_append, Bool.decide_or, Bool.not_or]
      · rw [ScoreFunction.filterMap_cons]
        simp only [List.zipWith_cons_cons, hhead]
        rw [ScoreFunction.filterMap_cons]
        exact List.rel_append ht.pairs (hfs.pairs.imp fun _ _ => Becomes.mono ht.le)

/-- What becomes of a tree that is not itself the node replaced. -/
structure ReplacedInside (new : SharedNode) (t : SharedQuery) (next : Nat) (r : SharedQuery × Nat) :
    Prop extends Replaced new t next r where
  pairs : List.Forall₂ (Becomes new next) t.children r.1.children

theorem substitute_toQuery {t : SharedQuery} (hroot : t.carries new.handle = false) :
    t.toQuery.substitute new.toNode = t.toQuery.mapChildren (Query.substitute new.toNode) :=
  Query.substitute_of_not_carries (by rw [carries_toQuery, SharedNode.handle_toNode, hroot])

theorem replacedInside_of_not_occurs {t : SharedQuery}
    (ih : ∀ c ∈ t.children, ReplacedFromAbove new c) {next : Nat} (below : t.Below next)
    (hnot : ¬ t.toQuery.Occurs new.handle) : ReplacedInside new t next (t, next) := by
  refine ⟨⟨Nat.le_refl _, ?_, fun _ => rfl, fun ho => absurd ho hnot⟩, ?_⟩
  · rw [Query.substitute_of_not_occurs (by simpa using hnot)]
  · refine List.forall₂_same.mpr fun c hc => ⟨next, Nat.le_refl _, ?_⟩
    have hkept := (ih c hc next (below.child hc)).kept fun ho =>
      hnot (occurs_iff.mpr (.inr ⟨_, List.mem_map_of_mem hc, ho⟩))
    rw [hkept]

theorem replacedInside_bool {a : Nat} {l : Option Label} {c : BoolClauses SharedQuery}
    (ih : ∀ t ∈ (bool a l c).children, ReplacedFromAbove new t) {next : Nat}
    (below : (bool a l c).Below next) (hroot : (bool a l c).carries new.handle = false) :
    ReplacedInside new (bool a l c) next (replace new (bool a l c) next) := by
  -- each list takes its addresses where the one before it has stopped
  obtain ⟨f, s, m, n, msm, b⟩ := c
  have inside : ∀ t ∈ f ++ s ++ m ++ n, ReplacedFromAbove new t ∧ t.Below next :=
    fun t ht => ⟨ih t ht, below.child ht⟩
  simp only [List.mem_append] at inside
  rcases ef : replaceAll new f next with ⟨f', k₁⟩
  have hf := ef ▸ replaced_replaceAll (fun t h => (inside t (by simp [h])).1)
    fun t h => (inside t (by simp [h])).2
  have le₁ : next ≤ k₁ := hf.le
  rcases es : replaceAll new s k₁ with ⟨s', k₂⟩
  have hs := es ▸ replaced_replaceAll (fun t h => (inside t (by simp [h])).1)
    fun t h => (inside t (by simp [h])).2.mono le₁
  have le₂ : k₁ ≤ k₂ := hs.le
  rcases em : replaceAll new m k₂ with ⟨m', k₃⟩
  have hm := em ▸ replaced_replaceAll (fun t h => (inside t (by simp [h])).1)
    fun t h => (inside t (by simp [h])).2.mono (Nat.le_trans le₁ le₂)
  have le₃ : k₂ ≤ k₃ := hm.le
  rcases en : replaceAll new n k₃ with ⟨n', k₄⟩
  have hn := en ▸ replaced_replaceAll (fun t h => (inside t (by simp [h])).1)
    fun t h => (inside t (by simp [h])).2.mono (Nat.le_trans (Nat.le_trans le₁ le₂) le₃)
  have le₄ : k₃ ≤ k₄ := hn.le
  have hall : ReplacedAll new (f ++ s ++ m ++ n) next (f' ++ s' ++ m' ++ n', k₄) :=
    ((hf.append hs).append hm).append hn
  have hoccurs : (bool a l ⟨f, s, m, n, msm, b⟩).toQuery.Occurs new.handle ↔
      OccursAny new.handle ((f ++ s ++ m ++ n).map toQuery) := by
    rw [occurs_iff, hroot]
    simp [children]
  have hnone : ¬ OccursAny new.handle ((f ++ s ++ m ++ n).map toQuery) ↔
      anyChanged? f f' = none ∧ anyChanged? s s' = none ∧ anyChanged? m m' = none ∧
        anyChanged? n n' = none := by
    rw [hf.anyChanged?_eq_none_iff, hs.anyChanged?_eq_none_iff, hm.anyChanged?_eq_none_iff,
      hn.anyChanged?_eq_none_iff]
    simp only [List.map_append, Query.occursAny_append, not_or, and_assoc]
  rw [replace, if_neg (by simp [hroot])]
  simp only [ef, es, em, en]
  split
  next hf₀ hs₀ hm₀ hn₀ =>
    have hnot := hnone.mpr ⟨hf₀, hs₀, hm₀, hn₀⟩
    obtain ⟨-, hnext⟩ := Prod.mk.inj (hall.kept hnot)
    rw [hnext]
    exact replacedInside_of_not_occurs ih below (mt hoccurs.mp hnot)
  next hsome =>
    rw [hf.getD_anyChanged?, hs.getD_anyChanged?, hm.getD_anyChanged?, hn.getD_anyChanged?]
    refine ⟨⟨Nat.le_succ_of_le hall.le, ?_, ?_, fun _ => hall.le⟩, hall.pairs⟩
    · rw [substitute_toQuery hroot]
      simp [Query.mapChildren, BoolClauses.map, hf.content, hs.content, hm.content, hn.content]
    · intro hnot
      obtain ⟨hf₀, hs₀, hm₀, hn₀⟩ := hnone.mp (mt hoccurs.mpr hnot)
      exact absurd hn₀ (hsome hf₀ hs₀ hm₀)

theorem replacedInside_disMax {a : Nat} {l : Option Label} {d : DisMax SharedQuery}
    (ih : ∀ t ∈ (disMax a l d).children, ReplacedFromAbove new t) {next : Nat}
    (below : (disMax a l d).Below next) (hroot : (disMax a l d).carries new.handle = false) :
    ReplacedInside new (disMax a l d) next (replace new (disMax a l d) next) := by
  obtain ⟨qs, t, b⟩ := d
  rcases e : replaceAll new qs next with ⟨qs', k⟩
  have hqs : ReplacedAll new qs next (qs', k) :=
    e ▸ replaced_replaceAll ih fun t ht => below.child ht
  have hoccurs : (disMax a l ⟨qs, t, b⟩).toQuery.Occurs new.handle ↔
      OccursAny new.handle (qs.map toQuery) := by
    rw [occurs_iff, hroot]
    simp [children]
  rw [replace, if_neg (by simp [hroot])]
  simp only [e]
  split
  next hnone =>
    have hnot := hqs.anyChanged?_eq_none_iff.mp hnone
    obtain ⟨-, rfl⟩ := Prod.mk.inj (hqs.kept hnot)
    exact replacedInside_of_not_occurs ih below (mt hoccurs.mp hnot)
  next ts hsome =>
    have hts : ts = qs' := by
      have hgetD := hqs.getD_anyChanged?
      rw [hsome] at hgetD
      exact hgetD
    subst hts
    refine ⟨⟨Nat.le_succ_of_le hqs.le, ?_, ?_, fun _ => hqs.le⟩, hqs.pairs⟩
    · rw [substitute_toQuery hroot]
      simp [Query.mapChildren, DisMax.map, hqs.content]
    · intro hnot
      rw [hqs.anyChanged?_eq_none_iff.mpr (mt hoccurs.mpr hnot)] at hsome
      cases hsome

theorem replacedInside_functionScore {a : Nat} {l : Option Label} {s : FunctionScore SharedQuery}
    (ih : ∀ t ∈ (functionScore a l s).children, ReplacedFromAbove new t) {next : Nat}
    (below : (functionScore a l s).Below next)
    (hroot : (functionScore a l s).carries new.handle = false) :
    ReplacedInside new (functionScore a l s) next (replace new (functionScore a l s) next) := by
  obtain ⟨q, fs, o⟩ := s
  have inside : ∀ t ∈ q.toList ++ fs.filterMap (·.filter), ReplacedFromAbove new t ∧ t.Below next :=
    fun t ht => ⟨ih t ht, below.child ht⟩
  rcases eq : replaceOption new q next with ⟨q', k₁⟩
  have hq := eq ▸ replaced_replaceOption (fun t h => (inside t (List.mem_append_left _ h)).1)
    fun t h => (inside t (List.mem_append_left _ h)).2
  have le₁ : next ≤ k₁ := hq.le
  rcases ef : replaceFunctions new fs k₁ with ⟨fs', k₂⟩
  have hfs := ef ▸ replaced_replaceFunctions (fun t h => (inside t (List.mem_append_right _ h)).1)
    fun t h => (inside t (List.mem_append_right _ h)).2.mono le₁
  have le₂ : k₁ ≤ k₂ := hfs.le
  have hoccurs : (functionScore a l ⟨q, fs, o⟩).toQuery.Occurs new.handle ↔
      OccursAny new.handle (q.map toQuery).toList ∨
        OccursAny new.handle ((fs.filterMap (·.filter)).map toQuery) := by
    rw [occurs_iff, hroot, Option.toList_map]
    simp [children]
  rw [replace, if_neg (by simp [hroot])]
  simp only [eq, ef, hq.changed, hfs.changed, ← Bool.not_or, ← Bool.decide_or, ← hoccurs]
  by_cases ho : (functionScore a l ⟨q, fs, o⟩).toQuery.Occurs new.handle
  · rw [decide_eq_true ho, Bool.not_true, if_neg Bool.false_ne_true]
    refine ⟨⟨Nat.le_succ_of_le (Nat.le_trans le₁ le₂), ?_, fun hnot => absurd ho hnot, ?_⟩, ?_⟩
    · rw [substitute_toQuery hroot]
      simp [Query.mapChildren, FunctionScore.map, hq.content, hfs.content]
    · exact fun _ => Nat.le_trans le₁ le₂
    · exact List.rel_append hq.pairs (hfs.pairs.imp fun _ _ => Becomes.mono le₁)
  · rw [decide_eq_false ho, Bool.not_false, if_pos rfl]
    have hnot := not_or.mp (mt hoccurs.mpr ho)
    obtain ⟨-, rfl⟩ := Prod.mk.inj (hq.kept hnot.1)
    obtain ⟨-, rfl⟩ := hfs.kept hnot.2
    exact replacedInside_of_not_occurs ih below ho

theorem replacedInside_of_inner {t inner : SharedQuery} (wrap : Nat → SharedQuery → SharedQuery)
    (hinner : t.children = [inner]) (haddress : ∀ a c, (wrap a c).address = a)
    (hchildren : ∀ a c, (wrap a c).children = [c])
    (hcontent : ∀ a c, (wrap a c).toQuery = t.toQuery.mapChildren fun _ => c.toQuery)
    (ih : ∀ c ∈ t.children, ReplacedFromAbove new c) {next : Nat} (below : t.Below next)
    (hroot : t.carries new.handle = false) :
    ReplacedInside new t next
      (match SharedQuery.changed? inner (replace new inner next).1 with
      | none => (t, (replace new inner next).2)
      | some c => (wrap (replace new inner next).2 c, (replace new inner next).2 + 1)) := by
  have hmem : inner ∈ t.children := by simp [hinner]
  have h := ih inner hmem next (below.child hmem)
  have hoccurs : t.toQuery.Occurs new.handle ↔ inner.toQuery.Occurs new.handle := by
    rw [occurs_iff, hroot, hinner]
    simp
  rw [h.changed? (below.child hmem)]
  by_cases ho : inner.toQuery.Occurs new.handle
  · rw [if_pos ho]
    refine ⟨⟨Nat.le_succ_of_le h.le, ?_, fun hnot => absurd (hoccurs.mpr ho) hnot, ?_⟩, ?_⟩
    · rw [substitute_toQuery hroot, hcontent]
      refine Query.mapChildren_congr fun c hc => ?_
      rw [children_toQuery, hinner, List.map_singleton, List.mem_singleton] at hc
      rw [hc, h.content]
    · simp [haddress, h.le]
    · simp only [hinner, hchildren]
      exact .cons ⟨next, Nat.le_refl _, rfl⟩ .nil
  · rw [if_neg ho, h.kept ho]
    exact replacedInside_of_not_occurs ih below (mt hoccurs.mp ho)

theorem replacedInside_replace {t : SharedQuery}
    (ih : ∀ c ∈ t.children, ReplacedFromAbove new c) {next : Nat} (below : t.Below next)
    (hroot : t.carries new.handle = false) : ReplacedInside new t next (replace new t next) := by
  cases t with
  | leaf a l => exact replacedInside_of_not_occurs ih below (by simp [occurs_iff, hroot, children])
  | bool a l c => exact replacedInside_bool ih below hroot
  | disMax a l d => exact replacedInside_disMax ih below hroot
  | functionScore a l s => exact replacedInside_functionScore ih below hroot
  | joining a j t =>
      exact replacedInside_of_inner (fun a t => joining a j t) rfl (fun _ _ => rfl)
        (fun _ _ => rfl) (fun _ _ => rfl) ih below hroot
  | node a l t =>
      rw [replace, if_neg (by simp [hroot])]
      exact replacedInside_of_inner (fun a t => node a l t) rfl (fun _ _ => rfl)
        (fun _ _ => rfl) (fun _ _ => rfl) ih below hroot

theorem replace_of_carries {t : SharedQuery} (hroot : t.carries new.handle = true) (next : Nat) :
    replace new t next = (new.at next, next + 1) := by
  cases t with
  | leaf a l => cases hroot
  | joining a j t => cases hroot
  | _ => rw [replace, if_pos hroot]

theorem replaced_replace (new : SharedNode) (t : SharedQuery) : ReplacedFromAbove new t := by
  induction t using children_induction with
  | step t ih =>
      intro next below
      by_cases hroot : t.carries new.handle = true
      · rw [replace_of_carries hroot]
        refine ⟨Nat.le_succ _, ?_, ?_, fun _ => Nat.le_of_eq (address_at new next).symm⟩
        · rw [toQuery_at, Query.substitute_of_carries (by simpa [carries_toQuery] using hroot)]
        · exact fun hnot => absurd (occurs_iff.mpr (.inl hroot)) hnot
      · exact (replacedInside_replace ih below (by simpa using hroot)).toReplaced

end Replacement

theorem replaceFresh_eq (new : Node) (q : Query) :
    replaceFresh new q = (q.replace new, (q.replace? new).isSome) := by
  have ht := allocates_ofQuery q 0
  have hslot := allocates_ofQuery new.toQuery (ofQuery q 0).2
  have hnode := node?_toQuery (ofQuery new.toQuery (ofQuery q 0).2).1
  rw [hslot.content, Query.node?_toQuery] at hnode
  obtain ⟨slot, hslot?, hslotNode⟩ := Option.map_eq_some_iff.mp hnode.symm
  have h := replaced_replace slot (ofQuery q 0).1 _ (ht.below.mono hslot.le)
  have hsame := h.same (ht.below.mono hslot.le)
  have hnone := @Query.replace?_eq_none_iff new q
  rw [ht.content, ← SharedNode.handle_toNode, hslotNode] at hsame
  simp only [replaceFresh, hslot?, h.content, ht.content, hslotNode, hsame,
    Query.replace_eq_substitute, Bool.not_not]
  congr 1
  cases hr : q.replace? new <;> simp_all

/-! ## Every place of a tree -/

/-- The query at a place, a place being the numbers of the children on the way to it. -/
def at? : List Nat → SharedQuery → Option SharedQuery
  | [], t => some t
  | i :: path, t => t.children[i]?.bind (at? path)

/-- The query at a place, if the way to it does not go through a node of a handle. -/
def outside? (h : Handle) : List Nat → SharedQuery → Option SharedQuery
  | [], t => some t
  | i :: path, t => if t.carries h then none else t.children[i]?.bind (outside? h path)

theorem at?_replace {new : SharedNode} {path : List Nat} {t u : SharedQuery} {next : Nat}
    (below : t.Below next) (hu : t.outside? new.handle path = some u) :
    ∃ k, next ≤ k ∧ u.Below k ∧ (replace new t next).1.at? path = some (replace new u k).1 := by
  induction path generalizing t next with
  | nil =>
      cases hu
      exact ⟨next, Nat.le_refl _, below, rfl⟩
  | cons i path ih =>
      by_cases hroot : t.carries new.handle = true
      · simp [outside?, hroot] at hu
      · rw [outside?, if_neg hroot] at hu
        obtain ⟨c, hc, hinside⟩ := Option.bind_eq_some_iff.mp hu
        obtain ⟨hi, rfl⟩ := List.getElem?_eq_some_iff.mp hc
        have hpairs := (replacedInside_replace (fun c _ => replaced_replace new c) below
          (by simpa using hroot)).pairs
        have hi' : i < (replace new t next).1.children.length := hpairs.length_eq ▸ hi
        obtain ⟨k, hk, hbecomes⟩ := hpairs.get hi hi'
        obtain ⟨k', hk', hbelow, hat⟩ := ih ((below.child (List.getElem_mem hi)).mono hk) hinside
        refine ⟨k', Nat.le_trans hk hk', hbelow, ?_⟩
        rw [at?, List.getElem?_eq_getElem hi', Option.bind_some, ← hat]
        exact congrArg (at? path) hbecomes.symm

theorem Below.at? {path : List Nat} {t u : SharedQuery} {next : Nat} (below : t.Below next)
    (hu : t.at? path = some u) : u.Below next := by
  induction path generalizing t with
  | nil =>
      cases hu
      exact below
  | cons i path ih =>
      rw [SharedQuery.at?] at hu
      obtain ⟨c, hc, hinside⟩ := Option.bind_eq_some_iff.mp hu
      exact ih (below.child (List.mem_of_getElem? hc)) hinside

/--
Replacement puts the node in the place of the outermost queries that carry its
handle, and changes nothing else.  Outside these places a query is the same
object as before when the handle does not occur in it, and otherwise an object
that the tree did not have.
-/
theorem substitution_keeps_identity (new : SharedNode) (t : SharedQuery) (next : Nat)
    (below : t.Below next) :
    (t.replace new next).1.toQuery = t.toQuery.substitute new.toNode ∧
    t.toQuery.replace new.toNode = t.toQuery.substitute new.toNode ∧
    ((t.replace new next).1.same t = true ↔ ¬ t.toQuery.Occurs new.handle) ∧
    (t.toQuery.replace? new.toNode = none ↔ ¬ t.toQuery.Occurs new.handle) ∧
    ∀ path u, t.outside? new.handle path = some u →
      ∃ u', (t.replace new next).1.at? path = some u' ∧
        u'.toQuery = u.toQuery.substitute new.toNode ∧
        (¬ u.toQuery.Occurs new.handle → u' = u) ∧
        (u.toQuery.Occurs new.handle →
          ∀ place v, t.at? place = some v → u'.same v = false) ∧
        (u.carries new.handle = true → ∃ a, u' = new.at a) := by
  have hroot := replaced_replace new t next below
  refine ⟨hroot.content, Query.replace_eq_substitute _ _, ?_, ?_, ?_⟩
  · rw [hroot.same below]
    simp
  · rw [Query.replace?_eq_none_iff, SharedNode.handle_toNode]
  · intro path u hu
    obtain ⟨k, hk, hbelow, hat⟩ := at?_replace below hu
    have hplace := replaced_replace new u k hbelow
    refine ⟨_, hat, hplace.content, ?_, ?_, ?_⟩
    · intro hnot
      rw [hplace.kept hnot]
    · intro ho place v hv
      have hold := (below.at? hv).root
      have hmade := hplace.made ho
      simp only [same, beq_eq_false_iff_ne]
      omega
    · intro hcarries
      exact ⟨k, by rw [replace_of_carries hcarries]⟩

/--
A value put in the place of an equal one makes a new root, and spares the
sibling, though both hold the same object.
-/
theorem substitution_keeps_identity_equal_value :
    let all : SharedQuery := .leaf 0 (.matchAll none)
    let t : SharedQuery := .bool 2 none { should := [.node 1 ⟨7, "part"⟩ all, all] }
    let new : SharedNode := ⟨⟨.query, ⟨7, "part"⟩⟩, all⟩
    t.Below 3 ∧ (t.replace new 3).1.toQuery = t.toQuery ∧ (t.replace new 3).1.same t = false ∧
      (t.replace new 3).1.at? [1] = some all := by
  intro all t new
  have hall : all.Below 3 := .intro (by decide) fun c hc => nomatch hc
  have hnode : (SharedQuery.node 1 ⟨7, "part"⟩ all).Below 3 :=
    .intro (by decide) fun c hc => List.mem_singleton.mp hc ▸ hall
  have below : t.Below 3 := by
    refine .intro (by decide) fun c hc => ?_
    rcases List.mem_cons.mp hc with rfl | hc
    · exact hnode
    · exact List.mem_singleton.mp hc ▸ hall
  obtain ⟨hcontent, -, hsame, -, hplaces⟩ := substitution_keeps_identity new t 3 below
  obtain ⟨u, hu, -, hkept, -⟩ := hplaces [1] all rfl
  refine ⟨below, hcontent.trans rfl, ?_, ?_⟩
  · have ho : t.toQuery.Occurs new.handle := by decide
    simpa [ho] using hsame
  · rw [hu, hkept (by decide)]

end SearchClient.SharedQuery
