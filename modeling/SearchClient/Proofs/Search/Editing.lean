import SearchClient.Proofs.Outcome
import SearchClient.Proofs.Query.GetPut
import SearchClient.Search.Basic

/-!
# Editing a search

A program edits a search by finding nodes and putting others in their place.
What it puts there may have nodes inside, and nobody looks at their handles
before the index is made the next time.  So a handle may come to stand twice,
and no later step finds anything then; this is so just when the nodes inside a
new value repeat a handle or bear one that stands elsewhere in the search.

The queries of a search are taken as the alternatives of one query here, which
is what is known of a tree made use of for all the trees of a search.
-/

namespace SearchClient

open Node (Distinct)
open Query (OccursAny nodesAll)

/-! ## Values of one kind in the place of another -/

namespace Node

def holding (q : Query) : (kind : NodeKind) → kind.Value Query
  | .query => q
  | .bool => { must := [q] }
  | .disMax => { queries := [q] }
  | .functionScore => { query := some q }

theorem children_holding (h : Handle) (q : Query) :
    (⟨h, holding q h.kind⟩ : Node).toQuery.children = [q] := by
  obtain ⟨kind, l⟩ := h
  cases kind <;> rfl

theorem nodes_valueQuery (n : Node) : n.valueQuery.nodes = n.inner := by
  obtain ⟨⟨kind, l⟩, value⟩ := n
  cases kind with
  | query => exact (List.append_nil _).symm
  | _ => rw [inner, Query.nodesAll_eq_flatMap, Query.nodes_eq]; rfl

end Node

namespace Query

theorem carries_congr {h k : Handle} (hsame : h.same k = true) (q : Query) :
    q.carries h = q.carries k := by
  rw [Handle.same_iff] at hsame
  rw [Bool.eq_iff_iff, carries_iff_mem_rootIds, carries_iff_mem_rootIds, hsame]

theorem ids_substitute_congr {m n : Node} (hsame : m.handle.same n.handle = true)
    (hids : m.toQuery.ids = n.toQuery.ids) (q : Query) :
    (q.substitute m).ids = (q.substitute n).ids := by
  induction q using children_induction with
  | step q ih =>
      cases hroot : q.carries n.handle with
      | true =>
          rw [substitute_of_carries hroot, substitute_of_carries (carries_congr hsame q ▸ hroot), hids]
      | false =>
          rw [substitute_of_not_carries hroot,
            substitute_of_not_carries ((carries_congr hsame q).trans hroot), ids_eq,
            ids_eq (q.mapChildren (substitute n)), rootIds_mapChildren, rootIds_mapChildren,
            children_mapChildren, children_mapChildren, List.flatMap_map, List.flatMap_map]
          exact congrArg _ (List.flatMap_congr ih)

theorem OccursOutside.congr {h h' k : Handle} {q : Query} (hsame : h'.same h = true)
    (ho : OccursOutside h k q) : OccursOutside h' k q := by
  induction ho with
  | root hh hk => exact .root ((carries_congr hsame _).trans hh) hk
  | child hh hc _ ih => exact .child ((carries_congr hsame _).trans hh) hc ih

theorem Around.replaced_of_same {q : Query} {old new : Node} {before after : List Nat}
    (around : Around q old before after) (hsame : new.handle.same old.handle = true) :
    (q.substitute new).ids = before ++ new.toQuery.ids ++ after := by
  -- a node of the very handle of the old one, with the labels of the new one
  let twin : Node := ⟨old.handle, Node.holding new.valueQuery old.handle.kind⟩
  have hinner : twin.inner = new.inner := by
    rw [Node.inner, Node.children_holding, ← Node.nodes_valueQuery]
    exact List.append_nil _
  have hids : new.toQuery.ids = twin.toQuery.ids := by
    rw [Node.ids_toQuery, Node.ids_toQuery, hinner, (Handle.same_iff _ _).mp hsame]
  rw [ids_substitute_congr (n := twin) hsame hids, around.replaced twin rfl, hids]

/-- What is put into a tree leaves it without repeated handles just when it fits. -/
theorem distinct_substitute_iff {q : Query} {new : Node} (hq : Distinct q.nodes)
    (ho : q.Occurs new.handle) : Distinct (q.substitute new).nodes ↔ Fits q new := by
  obtain ⟨old, hold, hsame⟩ := ho
  have hsame' : new.handle.same old.handle = true :=
    (Handle.same_iff _ _).mpr ((Handle.same_iff _ _).mp hsame).symm
  obtain ⟨before, after, around⟩ := exists_around hq hold
  have hids : q.ids.Nodup := Node.distinct_iff_nodup.mp hq
  rw [around.whole, nodup_around, Node.ids_toQuery, List.disjoint_cons_left,
    ← (Handle.same_iff _ _).mp hsame'] at hids
  obtain ⟨-, hrest, hself, -⟩ := hids
  have houtside (k : Handle) : q.OccursOutside new.handle k ↔ k.label.id ∈ before ++ after :=
    ⟨fun ho => (around.outside k).mp (ho.congr hsame),
      fun hk => ((around.outside k).mpr hk).congr hsame'⟩
  have happart : (new.inner.map (·.handle.label.id)).Disjoint (before ++ after) ↔
      ∀ m ∈ new.inner, ¬ q.OccursOutside new.handle m.handle := by
    simp only [List.Disjoint, List.forall_mem_map, houtside]
  rw [Node.distinct_iff_nodup]
  change (q.substitute new).ids.Nodup ↔ _
  rw [around.replaced_of_same hsame', nodup_around, nodup_ids_toQuery, Node.ids_toQuery,
    List.disjoint_cons_left, happart]
  constructor
  · rintro ⟨⟨hdistinct, hinner⟩, -, -, hout⟩
    exact ⟨hdistinct, hinner, hout⟩
  · rintro ⟨hdistinct, hinner, hout⟩
    exact ⟨⟨hdistinct, hinner⟩, hrest, hself, hout⟩

end Query

namespace Search

variable {δ : Type} {s t u : Search δ} {new : Node}

def tree (s : Search δ) : Query := .disMax none { queries := s.roots }

theorem nodes_tree (s : Search δ) : s.tree.nodes = nodesAll s.roots := rfl

theorem occurs_tree {h : Handle} : s.tree.Occurs h ↔ OccursAny h s.roots := by
  rw [Query.occurs_iff_children]
  exact or_iff_right Bool.false_ne_true

theorem occursOutside_tree {h k : Handle} :
    s.tree.OccursOutside h k ↔ ∃ q ∈ s.roots, q.OccursOutside h k := by
  rw [Query.occursOutside_iff rfl]
  exact or_iff_right Bool.false_ne_true

theorem nodeIndex_eq (s : Search δ) : s.nodeIndex = NodeIndex.collect [s.tree] := by
  have hnodes : nodesAll [s.tree] = nodesAll s.roots := List.append_nil _
  rw [nodeIndex, NodeIndex.collect_eq_foldlM, NodeIndex.collect_eq_foldlM, hnodes]

theorem nodeIndex_eq_ok_iff {index : NodeIndex} :
    s.nodeIndex = .ok index ↔ Distinct (nodesAll s.roots) ∧ index = ⟨nodesAll s.roots⟩ :=
  NodeIndex.collect_eq_ok_iff

theorem exists_nodeIndex_iff :
    (∃ index, s.nodeIndex = .ok index) ↔ Distinct (nodesAll s.roots) := by
  simp only [nodeIndex_eq_ok_iff, exists_and_left, exists_eq, and_true]

theorem findNode_eq (s : Search δ) (h : Handle) : s.findNode h = s.tree.findNode h := by
  rw [findNode, nodeIndex_eq]
  rfl

def replaced (new : Node) (s : Search δ) : Search δ :=
  { s with
    query := s.query.map (Query.replace new)
    filters := s.filters.map (Query.replace new)
    postFilters := s.postFilters.map (Query.replace new)
    rescores := s.rescores.map (Rescore.replace new) }

theorem tree_replaced (new : Node) (s : Search δ) :
    (s.replaced new).tree = s.tree.substitute new := by
  have hroots : (s.replaced new).roots = s.roots.map (Query.substitute new) := by
    simp only [roots, replaced, List.map_append, List.map_map, Option.toList_map]
    simp only [← funext (Query.replace_eq_substitute new)]
    rfl
  rw [Query.substitute_of_not_carries rfl, tree, hroots]
  rfl

theorem replaceNode_eq_ok_iff :
    s.replaceNode new = .ok t ↔
      Distinct (nodesAll s.roots) ∧ OccursAny new.handle s.roots ∧ t = s.replaced new := by
  rw [replaceNode, bind_eq_ok_iff, ← occurs_tree]
  have hcontains : (⟨nodesAll s.roots⟩ : NodeIndex).contains new.handle = true ↔
      s.tree.Occurs new.handle := NodeIndex.contains_iff
  constructor
  · rintro ⟨index, hindex, h⟩
    obtain ⟨hs, rfl⟩ := nodeIndex_eq_ok_iff.mp hindex
    split_ifs at h with ho
    cases h
    exact ⟨hs, hcontains.mp ho, rfl⟩
  · rintro ⟨hs, ho, rfl⟩
    exact ⟨_, nodeIndex_eq_ok_iff.mpr ⟨hs, rfl⟩, if_pos (hcontains.mpr ho)⟩

/--
The handles inside a new value are on one node each, and on none of the search
outside the place where the value is put.
-/
structure Fits (s : Search δ) (new : Node) : Prop where
  distinct : Distinct new.inner
  self : ∀ m ∈ new.inner, m.handle.same new.handle = false
  outside : ∀ m ∈ new.inner, ∀ q ∈ s.roots, ¬ q.OccursOutside new.handle m.handle

theorem fits_tree : s.tree.Fits new ↔ s.Fits new := by
  have houtside (m : Node) : ¬ s.tree.OccursOutside new.handle m.handle ↔
      ∀ q ∈ s.roots, ¬ q.OccursOutside new.handle m.handle := by
    simp only [occursOutside_tree, not_exists, not_and]
  constructor
  · rintro ⟨hdistinct, hself, hout⟩
    exact ⟨hdistinct, hself, fun m hm => (houtside m).mp (hout m hm)⟩
  · rintro ⟨hdistinct, hself, hout⟩
    exact ⟨hdistinct, hself, fun m hm => (houtside m).mpr (hout m hm)⟩

theorem distinct_of_replaceNode (h : s.replaceNode new = .ok t) :
    Distinct (nodesAll t.roots) ↔ s.Fits new := by
  obtain ⟨hs, ho, rfl⟩ := replaceNode_eq_ok_iff.mp h
  rw [← nodes_tree, tree_replaced, ← fits_tree]
  exact Query.distinct_substitute_iff hs (occurs_tree.mpr ho)

/-! ## Runs of edits -/

inductive Edit where
  | find (h : Handle)
  | rewrite (new : Node)

def Edit.apply (s : Search δ) : Edit → Except Error (Search δ)
  | find h => (s.findNode h).map fun _ => s
  | rewrite new => s.replaceNode new

def edited (s : Search δ) (edits : List Edit) : Except Error (Search δ) :=
  edits.foldlM Edit.apply s

/-- Every value that is put in fits the search as it is by then. -/
def Fitting (s : Search δ) (edits : List Edit) : Prop :=
  ∀ before new after u, edits = before ++ .rewrite new :: after →
    s.edited before = .ok u → u.Fits new

theorem edited_cons {edit : Edit} {edits : List Edit} :
    s.edited (edit :: edits) = .ok t ↔ ∃ u, edit.apply s = .ok u ∧ u.edited edits = .ok t := by
  rw [edited, List.foldlM_cons, bind_eq_ok_iff]
  rfl

theorem fitting_nil (s : Search δ) : s.Fitting [] :=
  fun before new after _ hedits => by simp at hedits

theorem fitting_cons {edit : Edit} {edits : List Edit} (hu : edit.apply s = .ok u) :
    s.Fitting (edit :: edits) ↔
      (∀ new, edit = .rewrite new → s.Fits new) ∧ u.Fitting edits := by
  constructor
  · intro h
    refine ⟨fun new hedit => h [] new edits s (by rw [hedit]; rfl) rfl, ?_⟩
    intro before new after w hedits hw
    exact h (edit :: before) new after w (by rw [hedits]; rfl) (edited_cons.mpr ⟨u, hu, hw⟩)
  · rintro ⟨hfirst, hrest⟩ before new after w hedits hw
    cases before with
    | nil =>
        obtain ⟨rfl, rfl⟩ := List.cons.inj hedits
        cases hw
        exact hfirst new rfl
    | cons _ before =>
        obtain ⟨rfl, rfl⟩ := List.cons.inj hedits
        obtain ⟨u', hu', hw⟩ := edited_cons.mp hw
        cases hu.symm.trans hu'
        exact hrest before new after w rfl hw

theorem distinct_of_apply {edit : Edit} (h : edit.apply s = .ok t) :
    Distinct (nodesAll s.roots) := by
  cases edit with
  | find k =>
      obtain ⟨n, hfind, -⟩ := map_eq_ok_iff.mp h
      obtain ⟨index, hindex, -⟩ := bind_eq_ok_iff.mp hfind
      exact (nodeIndex_eq_ok_iff.mp hindex).1
  | rewrite new => exact (replaceNode_eq_ok_iff.mp h).1

theorem distinct_apply_iff {edit : Edit} (h : edit.apply s = .ok t) :
    Distinct (nodesAll t.roots) ↔ ∀ new, edit = .rewrite new → s.Fits new := by
  cases edit with
  | find k =>
      have hdistinct := distinct_of_apply h
      obtain ⟨n, -, rfl⟩ := map_eq_ok_iff.mp h
      exact ⟨fun _ => nofun, fun _ => hdistinct⟩
  | rewrite new =>
      rw [distinct_of_replaceNode h]
      exact ⟨fun hfits _ hnew => Edit.rewrite.inj hnew ▸ hfits, fun hfits => hfits new rfl⟩

theorem distinct_edited_iff {edits : List Edit} (hs : Distinct (nodesAll s.roots))
    (h : s.edited edits = .ok t) : Distinct (nodesAll t.roots) ↔ s.Fitting edits := by
  induction edits generalizing s with
  | nil =>
      cases h
      exact iff_of_true hs (fitting_nil _)
  | cons edit edits ih =>
      obtain ⟨u, hu, hrun⟩ := edited_cons.mp h
      rw [fitting_cons hu, ← distinct_apply_iff hu]
      by_cases hdistinct : Distinct (nodesAll u.roots)
      · rw [ih hdistinct hrun, and_iff_right hdistinct]
      · -- without an index the run cannot have gone on
        cases edits with
        | nil =>
            cases hrun
            exact (and_iff_left_of_imp fun hd => absurd hd hdistinct).symm
        | cons next edits =>
            obtain ⟨w, hw, -⟩ := edited_cons.mp hrun
            exact absurd (distinct_of_apply hw) hdistinct

theorem findNode_of_mem {n : Node} (hs : Distinct (nodesAll s.roots)) (hn : n ∈ nodesAll s.roots) :
    s.findNode n.handle = .ok n := by
  rw [findNode_eq]
  exact Query.findNode_of_mem hs hn

/--
A search with an index goes through some edits that all succeed.  Then it has an
index again, and so no handle twice, just when each value that was put in had
none of its handles twice nor on its own node nor on a node elsewhere in the
search; and with an index, each node can be found and replaced by any value.
-/
theorem handles_stay_unique (s t : Search δ) (edits : List Edit)
    (hindex : ∃ index, s.nodeIndex = .ok index) (hrun : s.edited edits = .ok t) :
    ((∃ index, t.nodeIndex = .ok index) ↔ s.Fitting edits) ∧
    ∀ index, t.nodeIndex = .ok index → Distinct (nodesAll t.roots) ∧
      ∀ n ∈ nodesAll t.roots, index.contains n.handle = true ∧ t.findNode n.handle = .ok n ∧
        ∀ value, ∃ t', t.replaceNode ⟨n.handle, value⟩ = .ok t' := by
  refine ⟨?_, fun index ht => ?_⟩
  · rw [exists_nodeIndex_iff] at hindex ⊢
    exact distinct_edited_iff hindex hrun
  · obtain ⟨hdistinct, rfl⟩ := nodeIndex_eq_ok_iff.mp ht
    refine ⟨hdistinct, fun n hn => ?_⟩
    have hself : n.handle.same n.handle = true := (Handle.same_iff _ _).mpr rfl
    refine ⟨NodeIndex.contains_iff.mpr ⟨n, hn, hself⟩, findNode_of_mem hdistinct hn, ?_⟩
    exact fun value => ⟨_, replaceNode_eq_ok_iff.mpr
      ⟨hdistinct, occurs_tree.mp ⟨n, hn, hself⟩, rfl⟩⟩

theorem handles_stay_unique_new_handles :
    let a : Handle := ⟨.query, ⟨1, "a"⟩⟩
    let s : Search Json :=
      { query := some (.node a.label .matchAll)
        filters := [.node ⟨2, "b"⟩ .matchAll]
        doc := .raw }
    let value : Query := .disMax (some ⟨3, "c"⟩) { queries := [.node ⟨4, "d"⟩ .matchAll] }
    ∃ t, s.edited [.find a, .rewrite ⟨a, value⟩] = .ok t ∧ ∃ index, t.nodeIndex = .ok index := by
  intro a s value
  have hs : Distinct (nodesAll s.roots) := by decide
  have hfind : Edit.apply s (.find a) = .ok s :=
    map_eq_ok_iff.mpr ⟨_, findNode_of_mem (n := ⟨a, .matchAll⟩) hs (.head _), rfl⟩
  have hreplace : Edit.apply s (.rewrite ⟨a, value⟩) = .ok (s.replaced ⟨a, value⟩) :=
    replaceNode_eq_ok_iff.mpr ⟨hs, by decide, rfl⟩
  have hrun : s.edited [.find a, .rewrite ⟨a, value⟩] = .ok (s.replaced ⟨a, value⟩) :=
    edited_cons.mpr ⟨s, hfind, edited_cons.mpr ⟨_, hreplace, rfl⟩⟩
  have hfits : s.Fits ⟨a, value⟩ := (distinct_of_replaceNode hreplace).mp (by decide)
  have hfitting : s.Fitting [.find a, .rewrite ⟨a, value⟩] := by
    rw [fitting_cons hfind, fitting_cons hreplace]
    refine ⟨nofun, fun new hnew => ?_, fitting_nil _⟩
    exact Edit.rewrite.inj hnew ▸ hfits
  have hindex : ∃ index, s.nodeIndex = .ok index := exists_nodeIndex_iff.mpr hs
  exact ⟨_, hrun, (handles_stay_unique s _ _ hindex hrun).1.mpr hfitting⟩

/--
A handle that stands in a filter is put into the main query, too.  The rewrite
succeeds, and no edit does after it.
-/
theorem rewrite_may_repeat_handle :
    let a : Handle := ⟨.query, ⟨1, "a"⟩⟩
    let b : Handle := ⟨.query, ⟨2, "b"⟩⟩
    let s : Search Json :=
      { query := some (.node a.label .matchAll)
        filters := [.node b.label .matchAll]
        doc := .raw }
    ∃ t, (∃ index, s.nodeIndex = .ok index) ∧
      s.edited [.find a, .rewrite ⟨a, .node b.label .matchAll⟩] = .ok t ∧
      t.nodeIndex = .error (.duplicateHandle "b") ∧
      ∀ edit : Edit, edit.apply t = .error (.duplicateHandle "b") := by
  intro a b s
  let value : Query := .node b.label .matchAll
  have hs : Distinct (nodesAll s.roots) := by decide
  have hfind : Edit.apply s (.find a) = .ok s :=
    map_eq_ok_iff.mpr ⟨_, findNode_of_mem (n := ⟨a, .matchAll⟩) hs (.head _), rfl⟩
  have hreplace : Edit.apply s (.rewrite ⟨a, value⟩) = .ok (s.replaced ⟨a, value⟩) :=
    replaceNode_eq_ok_iff.mpr ⟨hs, by decide, rfl⟩
  have hrepeat : (s.replaced ⟨a, value⟩).nodeIndex = .error (.duplicateHandle "b") := by
    refine NodeIndex.collect_eq_error_iff.mpr ⟨⟨b, .matchAll⟩, ?_, rfl⟩
    exact ⟨[⟨a, value⟩, ⟨b, .matchAll⟩], [], rfl, by decide, _, .tail _ (.head _), rfl⟩
  refine ⟨_, exists_nodeIndex_iff.mpr hs,
    edited_cons.mpr ⟨s, hfind, edited_cons.mpr ⟨_, hreplace, rfl⟩⟩, hrepeat, fun edit => ?_⟩
  cases edit with
  | find h => rw [Edit.apply, findNode, hrepeat]; rfl
  | rewrite new => rw [Edit.apply, replaceNode, hrepeat]; rfl

end Search

end SearchClient
