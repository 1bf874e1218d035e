import Mathlib.Data.List.Induction
import SearchClient.Proofs.Query.Identity

/-!
# The index of a tree

The index is filled by a loop over a stack.  The stack holds, last one first,
the queries that are still to come in the recursive order, so the loop enters
the nodes of the trees in that order and stops at the first one whose handle
it has seen.
-/

namespace SearchClient

namespace Node

def Distinct (ns : List Node) : Prop := ns.Pairwise fun m n => m.handle.same n.handle = false

instance (ns : List Node) : Decidable (Distinct ns) :=
  inferInstanceAs (Decidable (ns.Pairwise fun m n => m.handle.same n.handle = false))

/-- A node whose handle is on an earlier one, while the earlier ones are distinct. -/
def FirstRepeat (ns : List Node) (n : Node) : Prop :=
  ∃ before after, ns = before ++ n :: after ∧ Distinct before ∧
    ∃ m ∈ before, m.handle.same n.handle = true

theorem distinct_concat {ns : List Node} {n : Node} :
    Distinct (ns ++ [n]) ↔ Distinct ns ∧ ∀ m ∈ ns, m.handle.same n.handle = false := by
  simp [Distinct, List.pairwise_append]

theorem distinct_or_firstRepeat (ns : List Node) : Distinct ns ∨ ∃ n, FirstRepeat ns n := by
  induction ns using List.reverseRecOn with
  | nil => exact .inl .nil
  | append_singleton ns n ih =>
      rcases ih with hns | ⟨r, before, after, rfl, hbefore, hm⟩
      · by_cases hn : ∃ m ∈ ns, m.handle.same n.handle = true
        · exact .inr ⟨n, ns, [], rfl, hns, hn⟩
        · exact .inl (distinct_concat.mpr ⟨hns, by simpa using hn⟩)
      · exact .inr ⟨r, before, after ++ [n], by simp, hbefore, hm⟩

end Node

namespace NodeIndex

open Node Query

theorem contains_iff {ns : List Node} {h : Handle} :
    (⟨ns⟩ : NodeIndex).contains h = true ↔ ∃ n ∈ ns, n.handle.same h = true := by
  simp [contains, get?, List.find?_isSome]

theorem get?_eq_some_iff {ns : List Node} (hns : Distinct ns) {h : Handle} {n : Node} :
    (⟨ns⟩ : NodeIndex).get? h = some n ↔ n ∈ ns ∧ n.handle.same h = true := by
  constructor
  · intro hn
    have hsame := List.find?_some (p := fun m : Node => m.handle.same h) hn
    exact ⟨List.mem_of_find?_eq_some hn, hsame⟩
  · rintro ⟨hmem, hsame⟩
    obtain ⟨before, after, rfl⟩ := List.append_of_mem hmem
    refine List.find?_eq_some_iff_append.mpr ⟨hsame, before, after, rfl, fun m hm => ?_⟩
    have hcross := (List.pairwise_append.mp hns).2.2 m hm n List.mem_cons_self
    simp only [Handle.same, beq_eq_false_iff_ne] at hcross
    simp only [Handle.same, beq_iff_eq] at hsame
    simpa [Handle.same, ← hsame] using hcross

theorem insert_of_contains {index : NodeIndex} {n : Node} (h : index.contains n.handle = true) :
    index.insert n = .error (.duplicateHandle n.handle.name) := by
  rw [insert, if_pos h]

theorem insert_of_not_contains {index : NodeIndex} {n : Node}
    (h : ¬ index.contains n.handle = true) : index.insert n = .ok ⟨index.nodes ++ [n]⟩ := by
  rw [insert, if_neg h]

theorem foldlM_insert_of_distinct (seen : List Node) {ns : List Node}
    (h : Distinct (seen ++ ns)) :
    ns.foldlM insert ⟨seen⟩ = .ok ⟨seen ++ ns⟩ := by
  induction ns generalizing seen with
  | nil => simp [pure, Except.pure]
  | cons n ns ih =>
      have hsplit : Distinct ((seen ++ [n]) ++ ns) := by simpa using h
      have hseen := distinct_concat.mp (List.pairwise_append.mp hsplit).1
      have hnew : ¬ (⟨seen⟩ : NodeIndex).contains n.handle = true := by
        simpa [contains_iff] using hseen.2
      rw [List.foldlM_cons, insert_of_not_contains hnew]
      exact (ih (seen ++ [n]) hsplit).trans (by simp)

theorem foldlM_insert_of_firstRepeat {ns : List Node} {n : Node} (h : FirstRepeat ns n) :
    ns.foldlM insert {} = .error (.duplicateHandle n.handle.name) := by
  obtain ⟨before, after, rfl, hbefore, hm⟩ := h
  have hfill : before.foldlM insert {} = .ok ⟨before⟩ :=
    foldlM_insert_of_distinct [] hbefore
  rw [List.foldlM_append, hfill]
  change ((n :: after).foldlM insert ⟨before⟩ : Except Error NodeIndex) = _
  rw [List.foldlM_cons, insert_of_contains (contains_iff.mpr hm)]
  rfl

theorem enter_eq (index : NodeIndex) (q : Query) :
    index.enter q = q.node?.toList.foldlM insert index := by
  unfold enter
  cases q.node? with
  | none => rfl
  | some n => exact (bind_pure (index.insert n)).symm

/-- What is left of the loop enters the nodes of what is on the stack, in the recursive order. -/
theorem visit_eq_foldlM (stack : Array Query) (index : NodeIndex) :
    visit stack index = (nodesAll stack.toList.reverse).foldlM insert index := by
  induction stack, index using visit.induct with
  | case1 stack index hstack =>
      obtain rfl : stack = #[] := by simpa using hstack
      rw [visit]
      rfl
  | case2 stack index q hstack ih =>
      -- the children are pushed in reverse, so in the order to come they stand before the rest
      obtain ⟨rest, rfl⟩ := Array.back?_eq_some_iff.mp hstack
      have hrest : ((rest.push q).pop ++ q.children.reverse).toList.reverse =
          q.children ++ rest.toList.reverse := by simp
      have horder : nodesAll (rest.push q).toList.reverse =
          q.node?.toList ++ nodesAll (q.children ++ rest.toList.reverse) := by
        rw [nodesAll_append, nodesAll_eq_flatMap q.children, ← List.append_assoc, ← nodes_eq]
        simp [nodesAll]
      rw [visit, horder, List.foldlM_append, ← enter_eq]
      split
      · rename_i hempty
        rw [hstack] at hempty
        cases hempty
      · rename_i q' hq'
        obtain rfl : q = q' := by simpa using hq'
        simp only [ih, hrest]

theorem collect_eq_foldlM (roots : List Query) :
    collect roots = (nodesAll roots).foldlM insert {} := by
  rw [collect, visit_eq_foldlM, List.toList_toArray, List.reverse_reverse]

theorem collect_of_distinct {roots : List Query} (h : Distinct (nodesAll roots)) :
    collect roots = .ok ⟨nodesAll roots⟩ := by
  rw [collect_eq_foldlM]
  exact foldlM_insert_of_distinct [] h

theorem collect_of_firstRepeat {roots : List Query} {n : Node}
    (h : FirstRepeat (nodesAll roots) n) :
    collect roots = .error (.duplicateHandle n.handle.name) := by
  rw [collect_eq_foldlM, foldlM_insert_of_firstRepeat h]

theorem collect_eq_ok_iff {roots : List Query} {index : NodeIndex} :
    collect roots = .ok index ↔ Distinct (nodesAll roots) ∧ index = ⟨nodesAll roots⟩ := by
  constructor
  · intro hok
    rcases distinct_or_firstRepeat (nodesAll roots) with hdistinct | ⟨n, hn⟩
    · rw [collect_of_distinct hdistinct] at hok
      cases hok
      exact ⟨hdistinct, rfl⟩
    · rw [collect_of_firstRepeat hn] at hok
      cases hok
  · rintro ⟨hdistinct, rfl⟩
    exact collect_of_distinct hdistinct

theorem collect_eq_error_iff {roots : List Query} {e : Error} :
    collect roots = .error e ↔
      ∃ n, FirstRepeat (nodesAll roots) n ∧ e = .duplicateHandle n.handle.name := by
  constructor
  · intro herror
    rcases distinct_or_firstRepeat (nodesAll roots) with hdistinct | ⟨n, hn⟩
    · rw [collect_of_distinct hdistinct] at herror
      cases herror
    · rw [collect_of_firstRepeat hn] at herror
      cases herror
      exact ⟨n, hn, rfl⟩
  · rintro ⟨n, hn, rfl⟩
    exact collect_of_firstRepeat hn

theorem contains_iff_replace? {roots : List Query} {new : Node} :
    (⟨nodesAll roots⟩ : NodeIndex).contains new.handle = true ↔
      ∃ q ∈ roots, (q.replace? new).isSome = true := by
  simp only [contains_iff, nodesAll_eq_flatMap, List.mem_flatMap, Option.isSome_iff_ne_none,
    ne_eq, replace?_eq_none_iff, not_not, Occurs]
  constructor
  · rintro ⟨n, ⟨q, hq, hn⟩, hsame⟩
    exact ⟨q, hq, n, hn, hsame⟩
  · rintro ⟨q, hq, n, hn, hsame⟩
    exact ⟨n, ⟨q, hq, hn⟩, hsame⟩

/--
The index of some trees exists when no handle is on two of their nodes, in
whichever tree and however deep, and has each node under its handle; these are
the handles whose replacement makes a new object of some tree.  Otherwise the
first node with a handle seen before is named.
-/
theorem collect_agrees_with_nodes (roots : List Query) :
    ((∃ index, collect roots = .ok index) ↔ Distinct (nodesAll roots)) ∧
    (∀ index, collect roots = .ok index →
      (∀ h, index.contains h = true ↔ ∃ n ∈ nodesAll roots, n.handle.same h = true) ∧
      (∀ h n, index.get? h = some n ↔ n ∈ nodesAll roots ∧ n.handle.same h = true) ∧
      (∀ new : Node, index.contains new.handle = true ↔
        ∃ q ∈ roots, (SharedQuery.replaceFresh new q).2 = true)) ∧
    (∀ e, collect roots = .error e ↔
      ∃ n, FirstRepeat (nodesAll roots) n ∧ e = .duplicateHandle n.handle.name) := by
  refine ⟨?_, ?_, fun e => collect_eq_error_iff⟩
  · simp only [collect_eq_ok_iff, exists_and_left, exists_eq, and_true]
  · intro index hok
    obtain ⟨hdistinct, rfl⟩ := collect_eq_ok_iff.mp hok
    refine ⟨fun h => contains_iff, fun h n => get?_eq_some_iff hdistinct, fun new => ?_⟩
    simp only [contains_iff_replace?, SharedQuery.replaceFresh_eq]

theorem collect_agrees_with_nodes_equal_names :
    let inner : Query := .bool (some ⟨2, "part"⟩) {}
    let outer : Query := .node ⟨1, "part"⟩ inner
    let parent : Query := .joining (.hasParent "post" none none) inner
    Distinct (nodesAll [outer]) ∧
      (∃ index, collect [outer] = .ok index ∧ index.contains ⟨.bool, ⟨2, "any"⟩⟩ = true) ∧
      collect [outer, parent] = .error (.duplicateHandle "part") := by
  intro inner outer parent
  obtain ⟨hexists, hindex, -⟩ := collect_agrees_with_nodes [outer]
  obtain ⟨-, -, herror⟩ := collect_agrees_with_nodes [outer, parent]
  have hdistinct : Distinct (nodesAll [outer]) := by decide
  obtain ⟨index, hok⟩ := hexists.mpr hdistinct
  refine ⟨hdistinct, ⟨index, hok, ?_⟩, ?_⟩
  · exact ((hindex index hok).1 _).mpr ⟨_, .tail _ (.head _), rfl⟩
  · refine (herror _).mpr ⟨⟨⟨.bool, ⟨2, "part"⟩⟩, {}⟩, ?_, rfl⟩
    exact ⟨nodesAll [outer], [], rfl, hdistinct, _, .tail _ (.head _), rfl⟩

end NodeIndex

end SearchClient
