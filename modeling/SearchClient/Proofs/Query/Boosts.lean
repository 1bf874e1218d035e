import Mathlib.Algebra.Order.BigOperators.Group.List
import SearchClient.Proofs.Query.Redexes

/-!
# Boosts around leaves

A leaf stands under all the boosts that are set on the way to it from the root.
Reduction moves leaves up and drops none of them, so the boosts around each can
be compared before and after.  Clauses that set a boost are never taken off
their member.  Alternatives of which one is left, and a score query without
functions, are taken off whatever they set; that is the only way for a boost to
get lost.
-/

namespace SearchClient

open Relation (ReflTransGen)

structure BoostedLeaf where
  boosts : List Float
  leaf : Leaf

/-- The leaf seen from outside a query that may set a boost. -/
def BoostedLeaf.under (boost : Option Float) (b : BoostedLeaf) : BoostedLeaf :=
  ⟨boost.toList ++ b.boosts, b.leaf⟩

@[simp] theorem BoostedLeaf.under_none (b : BoostedLeaf) : b.under none = b := rfl

@[simp] theorem BoostedLeaf.map_under_none (bs : List BoostedLeaf) : bs.map (.under none) = bs :=
  List.map_id bs

def Joining.boost? : Joining → Option Float
  | nested _ _ _ boost => boost
  | hasChild _ _ _ _ boost => boost
  | hasParent _ _ boost => boost

namespace Query

def boost? : Query → Option Float
  | leaf _ => none
  | bool _ c => c.boost
  | disMax _ d => d.boost
  | functionScore _ s => s.options.boost
  | joining j _ => j.boost?
  | node _ _ => none

/--
The leaf that a query adds to those of its children.  A join around a query that
reduces away has the leaf that matches everything, which reduction puts there.
-/
def ownLeaf : Query → List BoostedLeaf
  | leaf l => [⟨[], l⟩]
  | joining _ q => if q.reduce.isNone then [⟨[], .matchAll none⟩] else []
  | _ => []

def boostedWith (boost : Query → Option Float) (q : Query) : List BoostedLeaf :=
  (q.children.attach.flatMap (fun c : { c // c ∈ q.children } => boostedWith boost c.1) ++
    q.ownLeaf).map (.under (boost q))
termination_by sizeOf q
decreasing_by exact sizeOf_lt_of_mem_children c.2

theorem boostedWith_eq (boost : Query → Option Float) (q : Query) :
    q.boostedWith boost =
      (q.children.flatMap (boostedWith boost) ++ q.ownLeaf).map (.under (boost q)) := by
  rw [boostedWith, List.flatMap_subtype (fun _ _ => rfl), List.unattach_attach]

def boosted : Query → List BoostedLeaf := boostedWith boost?

theorem boosted_eq (q : Query) :
    q.boosted = (q.children.flatMap boosted ++ q.ownLeaf).map (.under q.boost?) :=
  boostedWith_eq boost? q

def survivors (q : Query) : List BoostedLeaf := q.reduce.toList.flatMap boosted

/-! ## What reduction keeps -/

/-- Whether reduction takes a combination off its members without a look at its boost. -/
def sheds : Query → Bool
  | disMax _ d => (reduceAll d.queries).length < 2
  | functionScore _ s => s.isPlain
  | _ => false

def keptBoost (q : Query) : Option Float := if q.sheds then none else q.boost?

theorem survivors_of_reduce {q r : Query} (h : q.reduce = some r) : q.survivors = r.boosted := by
  simp [survivors, h]

theorem flatMap_boosted_reduceAll (qs : List Query) :
    (reduceAll qs).flatMap boosted = qs.flatMap survivors := by
  induction qs with
  | nil => rfl
  | cons q qs ih =>
      rw [List.flatMap_cons, ← ih, survivors]
      cases h : q.reduce <;> simp [reduceAll, h]

theorem boosted_ofClauses? (c : BoolClauses Query) :
    (ofClauses? c).toList.flatMap boosted =
      ((bool none c).children.flatMap boosted).map (.under c.boost) := by
  rcases ofClauses?_cases c with ⟨⟨hf, hs, hm, hn⟩, h⟩ | ⟨q, honly, h⟩ | ⟨-, -, h⟩
  · simp [h, children, hf, hs, hm, hn]
  · -- an only member is unwrapped where the clauses set no boost
    obtain ⟨hf, hn, -, hb, ⟨hs, hm⟩ | ⟨hs, hm⟩⟩ := BoolClauses.only?_eq_some_iff.mp honly
    · simp [h, children, hf, hs, hm, hn, hb]
    · simp [h, children, hf, hs, hm, hn, hb]
  · simp [h, boosted_eq (bool none c), ownLeaf, boost?]

theorem boosted_ofAlternatives? (d : DisMax Query) :
    (ofAlternatives? d).toList.flatMap boosted =
      (d.queries.flatMap boosted).map
        (.under (if d.queries.length < 2 then none else d.boost)) := by
  rcases ofAlternatives?_cases d with ⟨hqs, h⟩ | ⟨q, hqs, h⟩ | ⟨hlong, h⟩
  · simp [h, hqs]
  · simp [h, hqs]
  · simp [h, boosted_eq (disMax none d), children, ownLeaf, boost?, Nat.not_lt.mpr hlong]

theorem boosted_leaf (l : Leaf) : (leaf l).boosted = [⟨[], l⟩] := by
  simp [boosted_eq, children, ownLeaf, boost?]

theorem survivors_eq (q : Query) :
    q.survivors = (q.children.flatMap survivors ++ q.ownLeaf).map (.under q.keptBoost) := by
  cases q with
  | leaf l => simp [survivors, reduce, boosted_leaf, children, ownLeaf, keptBoost, sheds, boost?]
  | bool l c =>
      obtain ⟨f, s, m, n, msm, b⟩ := c
      rw [survivors, reduce, boosted_ofClauses?]
      simp [children, flatMap_boosted_reduceAll, ownLeaf, keptBoost, sheds, boost?]
  | disMax l d =>
      obtain ⟨qs, t, b⟩ := d
      rw [survivors, reduce, boosted_ofAlternatives?]
      simp [children, flatMap_boosted_reduceAll, ownLeaf, keptBoost, sheds, boost?]
  | functionScore l s =>
      obtain ⟨q, fs, o⟩ := s
      have hquery : (reduceOption q).toList.flatMap boosted = q.toList.flatMap survivors := by
        rw [toList_reduceOption, flatMap_boosted_reduceAll]
      rw [survivors, reduce]
      split
      · rename_i hplain
        have hkept : (functionScore l ⟨q, fs, o⟩).keptBoost = none := if_pos hplain
        obtain rfl : fs = [] := by simp_all [FunctionScore.isPlain]
        simp [hquery, hkept, children, ownLeaf]
      · rename_i hscored
        have hkept : (functionScore l ⟨q, fs, o⟩).keptBoost = o.boost := if_neg hscored
        simp [boosted_eq (functionScore _ _), hquery, hkept, children, ownLeaf, boost?,
          filters_reduceFunctions, flatMap_boosted_reduceAll]
  | joining j q =>
      have hkept : (joining j q).keptBoost = j.boost? := rfl
      rw [survivors, reduce]
      cases hinner : q.reduce with
      | some r =>
          have hnormal : r.reduce = some r := reduce_of_normal (normal_of_reduce hinner)
          simp [boosted_eq (joining _ _), children, ownLeaf, boost?, hkept, hinner, hnormal,
            survivors_of_reduce hinner]
      | none =>
          have hinside : q.survivors = [] := by simp [survivors, hinner]
          have hall : matchAll.boosted = [⟨[], .matchAll none⟩] := boosted_leaf _
          have hreduced : matchAll.reduce = some matchAll := rfl
          simp [boosted_eq (joining _ _), children, ownLeaf, boost?, hkept, hinner, hinside, hall,
            hreduced]
  | node l q => simp [survivors, reduce, children, ownLeaf, keptBoost, sheds, boost?]

theorem survivors_eq_boostedWith (q : Query) : q.survivors = q.boostedWith keptBoost := by
  induction q using children_induction with
  | step q ih => rw [survivors_eq, boostedWith_eq, List.flatMap_congr ih]

/-! ## What reduction loses -/

/-- A combination that sets a boost, and is taken off leaves that the boost was for. -/
def LosesBoost (q : Query) : Prop :=
  q.sheds = true ∧ q.boost? ≠ none ∧ q.survivors ≠ []

def totalBoosts (bs : List BoostedLeaf) : Nat := (bs.map (·.boosts.length)).sum

theorem totalBoosts_append (bs bs' : List BoostedLeaf) :
    totalBoosts (bs ++ bs') = totalBoosts bs + totalBoosts bs' := by
  simp [totalBoosts]

theorem totalBoosts_flatMap (qs : List Query) (f : Query → List BoostedLeaf) :
    totalBoosts (qs.flatMap f) = (qs.map fun q => totalBoosts (f q)).sum := by
  induction qs with
  | nil => rfl
  | cons q qs ih => rw [List.flatMap_cons, totalBoosts_append, ih, List.map_cons, List.sum_cons]

theorem totalBoosts_under (boost : Option Float) (bs : List BoostedLeaf) :
    totalBoosts (bs.map (.under boost)) =
      totalBoosts bs + bs.length * boost.toList.length := by
  induction bs with
  | nil => simp [totalBoosts]
  | cons b bs ih =>
      simp only [totalBoosts, List.map_cons, List.sum_cons, BoostedLeaf.under, List.length_append,
        List.length_cons] at ih ⊢
      rw [ih, Nat.succ_mul]
      omega

theorem totalBoosts_boostedWith (boost : Query → Option Float) (q : Query) :
    totalBoosts (q.boostedWith boost) =
      (q.children.map fun c => totalBoosts (c.boostedWith boost)).sum + totalBoosts q.ownLeaf +
        (q.boostedWith boost).length * (boost q).toList.length := by
  rw [boostedWith_eq boost q, totalBoosts_under, totalBoosts_append, totalBoosts_flatMap,
    List.length_map]

theorem length_boostedWith (boost boost' : Query → Option Float) (q : Query) :
    (q.boostedWith boost).length = (q.boostedWith boost').length := by
  induction q using children_induction with
  | step q ih =>
      rw [boostedWith_eq, boostedWith_eq]
      simp only [List.length_map, List.length_append, List.length_flatMap, List.map_congr_left ih]

theorem length_keptBoost_le (q : Query) :
    q.keptBoost.toList.length ≤ q.boost?.toList.length := by
  unfold keptBoost
  split
  · exact Nat.zero_le _
  · exact le_rfl

theorem totalBoosts_keptBoost_le (q : Query) :
    totalBoosts (q.boostedWith keptBoost) ≤ totalBoosts q.boosted := by
  induction q using children_induction with
  | step q ih =>
      rw [boosted, totalBoosts_boostedWith, totalBoosts_boostedWith,
        length_boostedWith keptBoost boost?]
      have hinside := List.sum_le_sum ih
      have hroot := Nat.mul_le_mul_left (q.boostedWith boost?).length q.length_keptBoost_le
      exact Nat.add_le_add (Nat.add_le_add_right hinside _) hroot

theorem LosesBoost.totalBoosts_lt {q : Query} (h : q.LosesBoost) :
    totalBoosts (q.boostedWith keptBoost) < totalBoosts q.boosted := by
  obtain ⟨hshed, hset, hleaf⟩ := h
  have hinside := List.sum_le_sum fun c (_ : c ∈ q.children) => c.totalBoosts_keptBoost_le
  have hkept : q.keptBoost = none := if_pos hshed
  obtain ⟨b, hb⟩ := Option.ne_none_iff_exists'.mp hset
  have hpos : 0 < (q.boostedWith boost?).length := by
    rwa [length_boostedWith boost? keptBoost, ← survivors_eq_boostedWith, List.length_pos_iff]
  rw [boosted, totalBoosts_boostedWith, totalBoosts_boostedWith, hkept, hb, Option.toList_none,
    Option.toList_some, List.length_nil, List.length_singleton, Nat.mul_zero, Nat.mul_one]
  exact Nat.add_lt_add_of_le_of_lt (Nat.add_le_add_right hinside _) hpos

theorem totalBoosts_lt_of_child {q c : Query} (hc : c ∈ q.children)
    (h : totalBoosts (c.boostedWith keptBoost) < totalBoosts c.boosted) :
    totalBoosts (q.boostedWith keptBoost) < totalBoosts q.boosted := by
  have hinside := List.sum_lt_sum (fun c => totalBoosts (c.boostedWith keptBoost))
    (fun c => totalBoosts c.boosted) (fun c (_ : c ∈ q.children) => c.totalBoosts_keptBoost_le)
    ⟨c, hc, h⟩
  have hroot := Nat.mul_le_mul_left (q.boostedWith boost?).length q.length_keptBoost_le
  rw [boosted, totalBoosts_boostedWith, totalBoosts_boostedWith,
    length_boostedWith keptBoost boost?]
  exact Nat.add_lt_add_of_lt_of_le (Nat.add_lt_add_right hinside _) hroot

theorem totalBoosts_lt_of_within {p q : Query} (hp : Within p q) (h : p.LosesBoost) :
    totalBoosts (q.boostedWith keptBoost) < totalBoosts q.boosted := by
  induction hp using ReflTransGen.head_induction_on with
  | refl => exact h.totalBoosts_lt
  | head hc _ ih => exact totalBoosts_lt_of_child hc ih

theorem boostedWith_keptBoost_eq {q : Query} (h : ∀ p, Within p q → ¬ p.LosesBoost) :
    q.boostedWith keptBoost = q.boosted := by
  induction q using children_induction with
  | step q ih =>
      have hinside : ∀ c ∈ q.children, c.boostedWith keptBoost = c.boosted := fun c hc =>
        ih c hc fun p hp => h p (hp.of_child hc)
      by_cases hnone : q.survivors = []
      · -- without leaves there is nothing that a boost could be kept for
        rw [survivors_eq_boostedWith] at hnone
        have hlength := length_boostedWith keptBoost boost? q
        rw [hnone, List.length_nil, eq_comm, List.length_eq_zero_iff] at hlength
        exact hnone.trans hlength.symm
      · have hkept : q.keptBoost = q.boost? := by
          unfold keptBoost
          split
          · rename_i hshed
            by_contra hset
            exact h q .refl ⟨hshed, fun hb => hset hb.symm, hnone⟩
          · rfl
        rw [boostedWith_eq, boosted_eq, hkept, List.flatMap_congr hinside]

/--
Reduction takes along each leaf, in its place, with the boosts around it that
are not set on alternatives of which one is left or on a plain score query.  So
the boosts around the leaves are the same before and after if and only if no
such combination around a leaf sets one.
-/
theorem reduce_keeps_boosts_iff (q : Query) :
    q.survivors = q.boostedWith keptBoost ∧
      (q.survivors = q.boosted ↔ ∀ p, Within p q → ¬ p.LosesBoost) := by
  rw [survivors_eq_boostedWith]
  refine ⟨rfl, fun h p hp hloses => ?_, boostedWith_keptBoost_eq⟩
  have hlt := totalBoosts_lt_of_within hp hloses
  rw [h] at hlt
  exact lt_irrefl _ hlt

/-- A boost set on a single alternative, or on a score query without functions, is lost. -/
theorem reduce_loses_boost :
    let en : Leaf := .term "lang" (.string "en") none
    let single : Query := .disMax none { queries := [.leaf en], boost := some 2 }
    let plain : Query := .functionScore none
      { query := some (.leaf en), options := { boost := some 2 } }
    (single.boosted = [⟨[2], en⟩] ∧ single.survivors = [⟨[], en⟩] ∧
        single.survivors ≠ single.boosted) ∧
      plain.boosted = [⟨[2], en⟩] ∧ plain.survivors = [⟨[], en⟩] ∧
        plain.survivors ≠ plain.boosted := by
  intro en single plain
  have hsingle : single.boosted = [⟨[2], en⟩] := by
    simp [single, boosted_eq (disMax _ _), children, boosted_leaf, ownLeaf, boost?,
      BoostedLeaf.under]
  have hplain : plain.boosted = [⟨[2], en⟩] := by
    simp [plain, boosted_eq (functionScore _ _), children, boosted_leaf, ownLeaf, boost?,
      BoostedLeaf.under]
  have hsingle' : single.survivors = [⟨[], en⟩] :=
    (survivors_of_reduce (r := .leaf en) rfl).trans (boosted_leaf en)
  have hplain' : plain.survivors = [⟨[], en⟩] :=
    (survivors_of_reduce (r := .leaf en) rfl).trans (boosted_leaf en)
  refine ⟨⟨hsingle, hsingle', ?_⟩, hplain, hplain', ?_⟩
  · simp [hsingle, hsingle']
  · simp [hplain, hplain']

end Query

end SearchClient
