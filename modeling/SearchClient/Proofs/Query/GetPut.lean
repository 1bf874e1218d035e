import Mathlib.Data.List.Nodup
import SearchClient.Proofs.Query.NodeIndex

/-!
# Finding and replacing nodes

A node that is found and put back leaves the tree as it was; a node that is
put is the one found next; of two nodes put under one handle the second stays.
A tree without repeated handles is told apart by its labels: those before the
node of a handle, those of the node itself and those after it, of which a
replacement exchanges the middle part.
-/

namespace SearchClient

open Node

namespace Query

def ids (q : Query) : List Nat := q.nodes.map (·.handle.label.id)

def rootIds (q : Query) : List Nat := q.node?.toList.map (·.handle.label.id)

theorem ids_eq (q : Query) : q.ids = q.rootIds ++ q.children.flatMap ids := by
  rw [ids, nodes_eq, List.map_append, List.map_flatMap]
  rfl

theorem rootIds_mapChildren (f : Query → Query) (q : Query) :
    (q.mapChildren f).rootIds = q.rootIds := by
  cases q with
  | leaf l => rfl
  | joining j q => rfl
  | node l q => rfl
  | bool l c => cases l <;> rfl
  | disMax l d => cases l <;> rfl
  | functionScore l s => cases l <;> rfl

theorem carries_iff_mem_rootIds {q : Query} {h : Handle} :
    q.carries h = true ↔ h.label.id ∈ q.rootIds := by
  rw [carries_iff, rootIds, List.mem_map]
  constructor
  · rintro ⟨n, hn, hsame⟩
    exact ⟨n, Option.mem_toList.mpr hn, (Handle.same_iff _ _).mp hsame⟩
  · rintro ⟨n, hn, hid⟩
    exact ⟨n, Option.mem_toList.mp hn, (Handle.same_iff _ _).mpr hid⟩

@[simp] theorem carries_mapChildren (f : Query → Query) (h : Handle) (q : Query) :
    (q.mapChildren f).carries h = q.carries h := by
  rw [Bool.eq_iff_iff, carries_iff_mem_rootIds, carries_iff_mem_rootIds, rootIds_mapChildren]

theorem occurs_iff_mem_ids {q : Query} {h : Handle} : q.Occurs h ↔ h.label.id ∈ q.ids := by
  simp only [Occurs, ids, List.mem_map, Handle.same_iff]

theorem occursAny_iff_mem_ids {qs : List Query} {h : Handle} :
    OccursAny h qs ↔ h.label.id ∈ qs.flatMap ids := by
  simp only [OccursAny, occurs_iff_mem_ids, List.mem_flatMap]

end Query

namespace Node

def inner (n : Node) : List Node := Query.nodesAll n.toQuery.children

theorem nodes_toQuery (n : Node) : n.toQuery.nodes = n :: n.inner := by
  rw [Query.nodes_eq, Query.node?_toQuery, inner, Query.nodesAll_eq_flatMap]
  rfl

/-- Whether a handle stands inside the value of a node. -/
def Holds (n : Node) (h : Handle) : Prop := ∃ m ∈ n.inner, m.handle.same h = true

theorem holds_iff_mem {n : Node} {h : Handle} :
    n.Holds h ↔ h.label.id ∈ n.inner.map (·.handle.label.id) := by
  simp only [Holds, List.mem_map, Handle.same_iff]

theorem ids_toQuery (n : Node) :
    n.toQuery.ids = n.handle.label.id :: n.inner.map (·.handle.label.id) := by
  rw [Query.ids, nodes_toQuery, List.map_cons]

theorem distinct_iff_nodup {ns : List Node} :
    Distinct ns ↔ (ns.map (·.handle.label.id)).Nodup := by
  simp only [Distinct, Handle.same, beq_eq_false_iff_ne, List.Nodup, List.pairwise_map]

theorem Distinct.eq_of_same {ns : List Node} (hns : Distinct ns) {m n : Node} (hm : m ∈ ns)
    (hn : n ∈ ns) (hsame : m.handle.same n.handle = true) : m = n := by
  have hmget := (NodeIndex.get?_eq_some_iff hns).mpr ⟨hm, hsame⟩
  have hnget := (NodeIndex.get?_eq_some_iff hns).mpr ⟨hn, (Handle.same_iff n.handle _).mpr rfl⟩
  exact Option.some.inj (hmget.symm.trans hnget)

end Node

namespace Query

/-- A node of `k` stands in a tree, neither inside a node of `h` nor being one. -/
inductive OccursOutside (h k : Handle) : Query → Prop where
  | root {q : Query} (hh : q.carries h = false) (hk : q.carries k = true) : OccursOutside h k q
  | child {q c : Query} (hh : q.carries h = false) (hc : c ∈ q.children)
      (ho : OccursOutside h k c) : OccursOutside h k q

theorem occursOutside_iff {h k : Handle} {q : Query} (hroot : q.carries h = false) :
    OccursOutside h k q ↔ q.carries k = true ∨ ∃ c ∈ q.children, OccursOutside h k c := by
  constructor
  · intro ho
    cases ho with
    | root hh hk => exact .inl hk
    | child hh hc ho => exact .inr ⟨_, hc, ho⟩
  · rintro (hk | ⟨c, hc, ho⟩)
    · exact .root hroot hk
    · exact .child hroot hc ho

theorem not_occursOutside_of_carries {h k : Handle} {q : Query} (hroot : q.carries h = true) :
    ¬ OccursOutside h k q := by
  intro ho
  cases ho with
  | root hh hk => simp [hroot] at hh
  | child hh hc ho => simp [hroot] at hh

theorem occursOutside_of_not_occurs {h k : Handle} {q : Query} (hnot : ¬ q.Occurs h) :
    OccursOutside h k q ↔ q.Occurs k := by
  induction q using children_induction with
  | step q ih =>
      have hroot : q.carries h = false := by simpa using fun hc => hnot (.of_carries hc)
      rw [occursOutside_iff hroot, occurs_iff (h := k)]
      have hchildren : ∀ c ∈ q.children, (OccursOutside h k c ↔ c.Occurs k) := fun c hc =>
        ih c hc fun ho => hnot (.of_child hc ho)
      exact or_congr_right (exists_congr fun c => and_congr_right (hchildren c))

theorem exists_occursOutside_of_not_occurs {h k : Handle} {qs : List Query}
    (hnot : ¬ OccursAny h qs) : (∃ c ∈ qs, OccursOutside h k c) ↔ OccursAny k qs :=
  exists_congr fun c => and_congr_right fun hc =>
    occursOutside_of_not_occurs fun ho => hnot ⟨c, hc, ho⟩

/-- The labels before and after those of a node; they stay when the node is replaced. -/
structure Around (q : Query) (old : Node) (before after : List Nat) : Prop where
  whole : q.ids = before ++ old.toQuery.ids ++ after
  replaced : ∀ new : Node, new.handle = old.handle →
    (q.substitute new).ids = before ++ new.toQuery.ids ++ after
  outside : ∀ k, OccursOutside old.handle k q ↔ k.label.id ∈ before ++ after

theorem around_toQuery (old : Node) : Around old.toQuery old [] [] where
  whole := by simp
  replaced new hnew := by
    have hroot : old.toQuery.carries new.handle = true := by simp [hnew, Handle.same]
    rw [substitute_of_carries hroot]
    simp
  outside k := by
    have hroot : old.toQuery.carries old.handle = true := by simp [Handle.same]
    simpa using not_occursOutside_of_carries hroot

theorem Around.of_child {q c : Query} {old : Node} {before after : List Nat}
    {left right : List Query} (hroot : q.carries old.handle = false)
    (hsplit : q.children = left ++ c :: right)
    (hleft : ¬ OccursAny old.handle left) (hright : ¬ OccursAny old.handle right)
    (hc : Around c old before after) :
    Around q old (q.rootIds ++ left.flatMap ids ++ before) (after ++ right.flatMap ids) where
  whole := by
    rw [ids_eq, hsplit, List.flatMap_append, List.flatMap_cons, hc.whole]
    simp only [List.append_assoc]
  replaced new hnew := by
    rw [← hnew] at hroot hleft hright
    rw [substitute_of_not_carries hroot, ids_eq, rootIds_mapChildren, children_mapChildren, hsplit,
      List.map_append, List.map_cons, map_substitute_of_not_occurs hleft,
      map_substitute_of_not_occurs hright, List.flatMap_append, List.flatMap_cons,
      hc.replaced new hnew]
    simp only [List.append_assoc]
  outside k := by
    have hinside : (∃ d ∈ q.children, OccursOutside old.handle k d) ↔
        OccursAny k left ∨ OccursOutside old.handle k c ∨ OccursAny k right := by
      rw [hsplit, ← exists_occursOutside_of_not_occurs hleft,
        ← exists_occursOutside_of_not_occurs hright]
      simp [or_and_right, exists_or]
    rw [occursOutside_iff hroot, hinside, carries_iff_mem_rootIds, occursAny_iff_mem_ids,
      occursAny_iff_mem_ids, hc.outside k]
    simp only [List.mem_append, or_assoc]

theorem exists_around {q : Query} {old : Node} (hq : Distinct q.nodes) (hold : old ∈ q.nodes) :
    ∃ before after, Around q old before after := by
  induction q using children_induction with
  | step q ih =>
      by_cases hroot : q.carries old.handle = true
      · obtain ⟨n, hn, hsame⟩ := carries_iff.mp hroot
        obtain rfl := hq.eq_of_same (mem_nodes_iff.mpr (.inl hn)) hold hsame
        rw [← toQuery_of_node? hn]
        exact ⟨[], [], around_toQuery n⟩
      · -- the node is in one child, and its label in no child beside that one
        obtain ⟨c, hc, holdc⟩ : ∃ c ∈ q.children, old ∈ c.nodes := by
          exact (mem_nodes_iff.mp hold).resolve_left fun hn =>
            hroot (carries_iff.mpr ⟨old, hn, (Handle.same_iff _ _).mpr rfl⟩)
        obtain ⟨left, right, hsplit⟩ := List.append_of_mem hc
        have hids : (q.rootIds ++ (left.flatMap ids ++ (c.ids ++ right.flatMap ids))).Nodup := by
          have hall := distinct_iff_nodup.mp hq
          change q.ids.Nodup at hall
          rwa [ids_eq, hsplit, List.flatMap_append, List.flatMap_cons] at hall
        have hidc : old.handle.label.id ∈ c.ids := List.mem_map.mpr ⟨old, holdc, rfl⟩
        have hbelow := (List.nodup_append.mp hids).2.1
        have hleft : ¬ OccursAny old.handle left := fun ho =>
          (List.nodup_append.mp hbelow).2.2 _ (occursAny_iff_mem_ids.mp ho) _
            (List.mem_append_left _ hidc) rfl
        have hbeside := (List.nodup_append.mp hbelow).2.1
        have hright : ¬ OccursAny old.handle right := fun ho =>
          (List.nodup_append.mp hbeside).2.2 _ hidc _ (occursAny_iff_mem_ids.mp ho) rfl
        obtain ⟨before, after, haround⟩ :=
          ih c hc (distinct_iff_nodup.mpr (List.nodup_append.mp hbeside).1) holdc
        exact ⟨_, _, haround.of_child (by simpa using hroot) hsplit hleft hright⟩

theorem substitute_self {q : Query} {old : Node}
    (h : ∀ n ∈ q.nodes, n.handle.same old.handle = true → n = old) : q.substitute old = q := by
  induction q using children_induction with
  | step q ih =>
      by_cases hroot : q.carries old.handle = true
      · obtain ⟨n, hn, hsame⟩ := carries_iff.mp hroot
        obtain rfl := h n (mem_nodes_iff.mpr (.inl hn)) hsame
        rw [substitute_of_carries hroot, toQuery_of_node? hn]
      · rw [substitute_of_not_carries (by simpa using hroot)]
        exact mapChildren_eq_self fun c hc =>
          ih c hc fun n hn => h n (mem_nodes_iff.mpr (.inr ⟨c, hc, hn⟩))

theorem substitute_substitute {v w : Node} (h : w.handle = v.handle) (q : Query) :
    (q.substitute v).substitute w = q.substitute w := by
  induction q using children_induction with
  | step q ih =>
      by_cases hroot : q.carries v.handle = true
      · have hv : v.toQuery.carries w.handle = true := by simp [h, Handle.same]
        rw [substitute_of_carries hroot, substitute_of_carries hv,
          substitute_of_carries (h ▸ hroot)]
      · have hroot : q.carries v.handle = false := by simpa using hroot
        rw [substitute_of_not_carries hroot, substitute_of_not_carries (by simp [h, hroot]),
          substitute_of_not_carries (h ▸ hroot), mapChildren_mapChildren]
        exact mapChildren_congr ih

theorem mem_nodes_substitute {q : Query} {new : Node} (h : q.Occurs new.handle) :
    new ∈ (q.substitute new).nodes := by
  induction q using children_induction with
  | step q ih =>
      by_cases hroot : q.carries new.handle = true
      · rw [substitute_of_carries hroot, nodes_toQuery]
        exact List.mem_cons_self
      · have hroot : q.carries new.handle = false := by simpa using hroot
        obtain ⟨c, hc, ho⟩ := h.child hroot
        rw [substitute_of_not_carries hroot, mem_nodes_iff, children_mapChildren]
        exact .inr ⟨_, List.mem_map_of_mem hc, ih c hc ho⟩

/--
The handles inside a node are on one node each, and on none of a tree outside
the place of the node.
-/
structure Fits (q : Query) (new : Node) : Prop where
  distinct : Distinct new.inner
  self : ∀ m ∈ new.inner, m.handle.same new.handle = false
  outside : ∀ m ∈ new.inner, ¬ q.OccursOutside new.handle m.handle

theorem nodup_around {before mid after : List Nat} :
    (before ++ mid ++ after).Nodup ↔
      mid.Nodup ∧ (before ++ after).Nodup ∧ mid.Disjoint (before ++ after) := by
  rw [List.append_assoc, (List.perm_append_comm_assoc before mid after).nodup_iff,
    List.nodup_append']

theorem nodup_ids_toQuery {n : Node} :
    n.toQuery.ids.Nodup ↔
      Distinct n.inner ∧ ∀ m ∈ n.inner, m.handle.same n.handle = false := by
  rw [ids_toQuery, List.nodup_cons, ← distinct_iff_nodup, and_comm, List.mem_map]
  simp only [Handle.same, beq_eq_false_iff_ne, not_exists, not_and]

theorem distinct_substitute {q : Query} {old new : Node} (hq : Distinct q.nodes)
    (hold : old ∈ q.nodes) (hnew : new.handle = old.handle) (hfits : Fits q new) :
    Distinct (q.substitute new).nodes := by
  obtain ⟨before, after, around⟩ := exists_around hq hold
  have hids : q.ids.Nodup := distinct_iff_nodup.mp hq
  rw [around.whole, nodup_around] at hids
  obtain ⟨-, hrest, hdisjoint⟩ := hids
  refine distinct_iff_nodup.mpr ?_
  change (q.substitute new).ids.Nodup
  rw [around.replaced new hnew, nodup_around]
  refine ⟨nodup_ids_toQuery.mpr ⟨hfits.distinct, hfits.self⟩, hrest, fun id hid => ?_⟩
  rw [ids_toQuery] at hid hdisjoint
  rcases List.mem_cons.mp hid with rfl | hinner
  · rw [hnew]
    exact hdisjoint List.mem_cons_self
  · obtain ⟨m, hm, rfl⟩ := List.mem_map.mp hinner
    exact fun hmem => hfits.outside m hm (hnew ▸ (around.outside m.handle).mpr hmem)

theorem occurs_substitute {q : Query} {old new : Node} (hq : Distinct q.nodes)
    (hold : old ∈ q.nodes) (hnew : new.handle = old.handle) (k : Handle) :
    (q.substitute new).Occurs k ↔ q.Occurs k ∧ ¬ old.Holds k ∨ new.Holds k := by
  obtain ⟨before, after, around⟩ := exists_around hq hold
  have hids : q.ids.Nodup := distinct_iff_nodup.mp hq
  rw [around.whole, nodup_around, ids_toQuery, List.nodup_cons] at hids
  obtain ⟨⟨hself, -⟩, -, hdisjoint⟩ := hids
  rw [occurs_iff_mem_ids, occurs_iff_mem_ids, around.replaced new hnew, around.whole,
    holds_iff_mem, holds_iff_mem, ids_toQuery, ids_toQuery, hnew]
  have houtside : k.label.id ∈ old.inner.map (·.handle.label.id) →
      k.label.id ≠ old.handle.label.id ∧ k.label.id ∉ before ∧ k.label.id ∉ after := by
    intro hk
    have hrest : k.label.id ∉ before ++ after := hdisjoint (List.mem_cons_of_mem _ hk)
    rw [List.mem_append, not_or] at hrest
    exact ⟨fun hid => hself (hid ▸ hk), hrest⟩
  simp only [List.mem_append, List.mem_cons]
  tauto

theorem collect_singleton {q : Query} {index : NodeIndex} :
    NodeIndex.collect [q] = .ok index ↔ Distinct q.nodes ∧ index = ⟨q.nodes⟩ := by
  have hnodes : nodesAll [q] = q.nodes := List.append_nil _
  rw [NodeIndex.collect_eq_ok_iff, hnodes]

theorem findNode_of_mem {q : Query} {n : Node} (hq : Distinct q.nodes) (hn : n ∈ q.nodes) :
    q.findNode n.handle = .ok n := by
  have hget := (NodeIndex.get?_eq_some_iff hq).mpr ⟨hn, (Handle.same_iff n.handle _).mpr rfl⟩
  rw [findNode, collect_singleton.mpr ⟨hq, rfl⟩]
  change NodeIndex.find ⟨q.nodes⟩ n.handle = .ok n
  rw [NodeIndex.find, hget]
  exact dif_pos rfl

theorem findNode_of_not_occurs {q : Query} {h : Handle} (hq : Distinct q.nodes)
    (hnot : ¬ q.Occurs h) : q.findNode h = .error (.handleNotFound h.name) := by
  have hget : (⟨q.nodes⟩ : NodeIndex).get? h = none := by
    cases hn : (⟨q.nodes⟩ : NodeIndex).get? h with
    | none => rfl
    | some n => exact absurd ⟨n, (NodeIndex.get?_eq_some_iff hq).mp hn⟩ hnot
  rw [findNode, collect_singleton.mpr ⟨hq, rfl⟩]
  change NodeIndex.find ⟨q.nodes⟩ h = _
  rw [NodeIndex.find, hget]

theorem replaceNode_of_occurs {q : Query} {new : Node} (hq : Distinct q.nodes)
    (ho : q.Occurs new.handle) : q.replaceNode new = .ok (q.substitute new) := by
  rw [replaceNode, collect_singleton.mpr ⟨hq, rfl⟩, ← replace_eq_substitute]
  exact if_pos (NodeIndex.contains_iff.mpr ho)

theorem replaceNode_of_not_occurs {q : Query} {new : Node} (hq : Distinct q.nodes)
    (hnot : ¬ q.Occurs new.handle) :
    q.replaceNode new = .error (.handleNotFound new.handle.name) := by
  rw [replaceNode, collect_singleton.mpr ⟨hq, rfl⟩]
  exact if_neg fun hc => hnot (NodeIndex.contains_iff.mp hc)

theorem replaceNode_of_fits {q : Query} {index : NodeIndex} {old : Node} (new : Node)
    (hindex : NodeIndex.collect [q] = .ok index) (hold : old ∈ q.nodes)
    (hnew : new.handle = old.handle) (hfits : Fits q new) :
    ∃ q' index', q.replaceNode new = .ok q' ∧ NodeIndex.collect [q'] = .ok index' ∧
      (∀ k, index'.contains k = true ↔
        index.contains k = true ∧ ¬ old.Holds k ∨ new.Holds k) ∧
      q'.findNode new.handle = .ok new ∧
      ∀ w : Node, w.handle = new.handle →
        ∃ q'', q'.replaceNode w = .ok q'' ∧ q.replaceNode w = .ok q'' := by
  obtain ⟨hq, rfl⟩ := collect_singleton.mp hindex
  have ho : q.Occurs new.handle := ⟨old, hold, (Handle.same_iff _ _).mpr (by rw [hnew])⟩
  have hq' := distinct_substitute hq hold hnew hfits
  have hnew' := mem_nodes_substitute ho
  refine ⟨q.substitute new, ⟨(q.substitute new).nodes⟩, replaceNode_of_occurs hq ho,
    collect_singleton.mpr ⟨hq', rfl⟩, fun k => ?_, findNode_of_mem hq' hnew', fun w hw => ?_⟩
  · rw [NodeIndex.contains_iff, NodeIndex.contains_iff]
    exact occurs_substitute hq hold hnew k
  · have ho' : (q.substitute new).Occurs w.handle :=
      ⟨new, hnew', (Handle.same_iff _ _).mpr (by rw [hw])⟩
    refine ⟨q.substitute w, ?_, replaceNode_of_occurs hq (hw ▸ ho)⟩
    rw [replaceNode_of_occurs hq' ho', substitute_substitute hw]

/--
In a tree without repeated handles, of a handle that is on a node with the kind
and the name it was made with: the node that is found can be put back with no
change; a fitting value that is put is found next, in a tree whose handles are
the old ones without those inside the old value and with those inside the new
one; and a second value put there is as good as put at once.  A handle that the
tree lacks is reported by both operations.
-/
theorem replaceNode_get_put (q : Query) (index : NodeIndex)
    (hindex : NodeIndex.collect [q] = .ok index) :
    (∀ h : Handle, (∃ n ∈ q.nodes, n.handle = h) → ∃ old : h.kind.Value Query,
      q.findNode h = .ok ⟨h, old⟩ ∧ q.replaceNode ⟨h, old⟩ = .ok q ∧
      ∀ v : h.kind.Value Query, Fits q ⟨h, v⟩ →
        ∃ q' index', q.replaceNode ⟨h, v⟩ = .ok q' ∧ NodeIndex.collect [q'] = .ok index' ∧
          (∀ k, index'.contains k = true ↔
            index.contains k = true ∧ ¬ Holds ⟨h, old⟩ k ∨ Holds ⟨h, v⟩ k) ∧
          q'.findNode h = .ok ⟨h, v⟩ ∧
          ∀ w : h.kind.Value Query,
            ∃ q'', q'.replaceNode ⟨h, w⟩ = .ok q'' ∧ q.replaceNode ⟨h, w⟩ = .ok q'') ∧
    (∀ h : Handle, ¬ q.Occurs h → q.findNode h = .error (.handleNotFound h.name) ∧
      ∀ v : h.kind.Value Query, q.replaceNode ⟨h, v⟩ = .error (.handleNotFound h.name)) := by
  obtain ⟨hq, rfl⟩ := collect_singleton.mp hindex
  refine ⟨?_, fun h hnot => ⟨findNode_of_not_occurs hq hnot, fun v => ?_⟩⟩
  · rintro h ⟨⟨h, old⟩, hold, rfl⟩
    have ho : q.Occurs h := ⟨_, hold, (Handle.same_iff _ _).mpr rfl⟩
    have hself : q.substitute ⟨h, old⟩ = q :=
      substitute_self fun n hn hsame => hq.eq_of_same hn hold hsame
    refine ⟨old, findNode_of_mem hq hold, ?_, fun v hfits => ?_⟩
    · rw [replaceNode_of_occurs hq ho, hself]
    · obtain ⟨q', index', hput, hcollect, hkeys, hget, htwice⟩ :=
        replaceNode_of_fits ⟨h, v⟩ hindex hold rfl hfits
      exact ⟨q', index', hput, hcollect, hkeys, hget, fun w => htwice ⟨h, w⟩ rfl⟩
  · exact replaceNode_of_not_occurs hq hnot

theorem replaceNode_get_put_nested :
    let part : Handle := ⟨.query, ⟨1, "part"⟩⟩
    let clauses : Handle := ⟨.bool, ⟨2, "clauses"⟩⟩
    let q : Query := .disMax none
      { queries := [.node part.label (.bool (some clauses.label) {}), matchAll] }
    let v : Query := .bool (some clauses.label) { should := [matchAll] }
    Fits q ⟨part, v⟩ ∧ ∃ q', q.replaceNode ⟨part, v⟩ = .ok q' ∧
      q'.findNode part = .ok ⟨part, v⟩ ∧
      q.findNode ⟨.bool, ⟨3, "other"⟩⟩ = .error (.handleNotFound "other") := by
  intro part clauses q v
  have hfits : Fits q ⟨part, v⟩ := by
    refine ⟨by decide, by decide, fun m hm ho => ?_⟩
    obtain rfl : m = ⟨clauses, { should := [matchAll] }⟩ := List.mem_singleton.mp hm
    rcases (occursOutside_iff (by decide)).mp ho with hroot | ⟨c, hc, hinside⟩
    · cases hroot
    · rcases List.mem_cons.mp hc with rfl | hc
      · exact not_occursOutside_of_carries (by decide) hinside
      · obtain rfl := List.mem_singleton.mp hc
        exact absurd ((occursOutside_of_not_occurs (by decide)).mp hinside) (by decide)
  have hindex : NodeIndex.collect [q] = .ok ⟨q.nodes⟩ := collect_singleton.mpr ⟨by decide, rfl⟩
  obtain ⟨hpresent, habsent⟩ := replaceNode_get_put q ⟨q.nodes⟩ hindex
  obtain ⟨old, -, -, hput⟩ := hpresent part ⟨_, .head _, rfl⟩
  obtain ⟨q', index', hreplace, -, -, hfind, -⟩ := hput v hfits
  exact ⟨hfits, q', hreplace, hfind, (habsent _ (by decide)).1⟩

end Query

end SearchClient
