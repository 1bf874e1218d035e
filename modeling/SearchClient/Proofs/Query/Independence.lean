import SearchClient.Proofs.Search.Editing

/-!
# Independent edits

Two nodes of a tree are apart when neither is inside the other.  The places of
such nodes do not meet, so it does not matter which of them is replaced first,
as long as the new values bring no handle that is in use.  A node inside
another one goes with the value it stands in.
-/

namespace SearchClient

theorem Handle.same_comm (a b : Handle) : a.same b = b.same a := by
  rw [Bool.eq_iff_iff, same_iff, same_iff, eq_comm]

instance (n : Node) (h : Handle) : Decidable (n.Holds h) :=
  inferInstanceAs (Decidable (∃ m ∈ n.inner, m.handle.same h = true))

namespace Query

open Node (Distinct)

theorem Occurs.congr {h k : Handle} {q : Query} (hsame : h.same k = true) (ho : q.Occurs h) :
    q.Occurs k := by
  rw [occurs_iff_mem_ids] at ho ⊢
  rwa [← (Handle.same_iff _ _).mp hsame]

theorem OccursOutside.occurs {h k : Handle} {q : Query} (ho : OccursOutside h k q) :
    q.Occurs k := by
  induction ho with
  | root _ hk => exact .of_carries hk
  | child _ hc _ ih => exact .of_child hc ih

theorem occurs_substitute_iff {q : Query} {new : Node} {k : Handle} :
    (q.substitute new).Occurs k ↔
      OccursOutside new.handle k q ∨ q.Occurs new.handle ∧ new.toQuery.Occurs k := by
  induction q using children_induction with
  | step q ih =>
      cases hroot : q.carries new.handle with
      | true =>
          rw [substitute_of_carries hroot]
          simp [not_occursOutside_of_carries hroot, Occurs.of_carries hroot]
      | false =>
          have hchildren : (∃ c ∈ q.children.map (substitute new), c.Occurs k) ↔
              (∃ c ∈ q.children, OccursOutside new.handle k c) ∨
                (∃ c ∈ q.children, c.Occurs new.handle) ∧ new.toQuery.Occurs k := by
            simp only [List.mem_map, exists_exists_and_eq_and]
            rw [exists_congr fun c => and_congr_right (ih c)]
            simp only [and_or_left, exists_or, ← and_assoc, exists_and_right]
          rw [substitute_of_not_carries hroot, occurs_iff, carries_mapChildren,
            children_mapChildren, hchildren, occursOutside_iff hroot,
            occurs_iff (h := new.handle), hroot]
          simp only [Bool.false_eq_true, false_or, or_assoc]

theorem occurs_toQuery_iff {n : Node} {k : Handle} :
    n.toQuery.Occurs k ↔ n.handle.same k = true ∨ n.Holds k := by
  simp only [Occurs, Node.nodes_toQuery, Node.Holds, List.exists_mem_cons_iff]

/-- A node of `k` stands inside the value of a node of `h`. -/
def Nests (h k : Handle) (q : Query) : Prop :=
  ∃ n ∈ q.nodes, n.handle.same h = true ∧ n.Holds k

instance (h k : Handle) (q : Query) : Decidable (Nests h k q) :=
  inferInstanceAs (Decidable (∃ n ∈ q.nodes, n.handle.same h = true ∧ n.Holds k))

theorem Nests.of_child {h k : Handle} {q c : Query} (hc : c ∈ q.children) (hn : Nests h k c) :
    Nests h k q :=
  let ⟨n, hmem, hrest⟩ := hn
  ⟨n, mem_nodes_iff.mpr (.inr ⟨c, hc, hmem⟩), hrest⟩

theorem Nests.occurs_outer {h k : Handle} {q : Query} (hn : Nests h k q) : q.Occurs h :=
  let ⟨n, hmem, hsame, _⟩ := hn
  ⟨n, hmem, hsame⟩

theorem Nests.occurs {h k : Handle} {q : Query} (hn : Nests h k q) : q.Occurs k := by
  obtain ⟨n, hmem, -, hinner⟩ := hn
  induction q using children_induction with
  | step q ih =>
      rcases mem_nodes_iff.mp hmem with hroot | ⟨c, hc, hmem⟩
      · rw [← toQuery_of_node? hroot]
        exact occurs_toQuery_iff.mpr (.inr hinner)
      · exact .of_child hc (ih c hc hmem)

theorem nests_of_carries {h k : Handle} {q : Query} (hroot : q.carries h = true)
    (hne : h.same k = false) (ho : q.Occurs k) : Nests h k q := by
  obtain ⟨n, hn, hsame⟩ := carries_iff.mp hroot
  have hk : n.handle.same k = true ∨ n.Holds k := by
    rwa [← occurs_toQuery_iff, toQuery_of_node? hn]
  refine ⟨n, mem_nodes_iff.mpr (.inl hn), hsame, hk.resolve_left fun hnk => ?_⟩
  rw [Handle.same_iff] at hsame hnk
  simp [Handle.same, ← hsame, ← hnk] at hne

theorem occursOutside_of_not_nests {h k : Handle} {q : Query} (hne : h.same k = false)
    (ho : q.Occurs k) (hapart : ¬ Nests h k q) : OccursOutside h k q := by
  induction q using children_induction with
  | step q ih =>
      cases hroot : q.carries h with
      | true => exact absurd (nests_of_carries hroot hne ho) hapart
      | false =>
          cases hk : q.carries k with
          | true => exact .root hroot hk
          | false =>
              obtain ⟨c, hc, hoc⟩ := ho.child hk
              exact .child hroot hc (ih c hc hoc fun hn => hapart (hn.of_child hc))

theorem Nests.apart {h k : Handle} {q : Query} (hnests : Nests h k q) (hq : Distinct q.nodes) :
    h.same k = false ∧ ¬ OccursOutside h k q := by
  obtain ⟨old, hold, hsame, hinner⟩ := hnests
  rw [Node.holds_iff_mem] at hinner
  obtain ⟨before, after, around⟩ := exists_around hq hold
  have hids : q.ids.Nodup := Node.distinct_iff_nodup.mp hq
  rw [around.whole, nodup_around, Node.ids_toQuery, List.nodup_cons] at hids
  obtain ⟨⟨hself, -⟩, -, hdisjoint⟩ := hids
  constructor
  · rw [Handle.same_iff] at hsame
    rw [Handle.same, ← hsame, beq_eq_false_iff_ne]
    exact fun hk => hself (hk ▸ hinner)
  · intro hout
    exact hdisjoint (List.mem_cons_of_mem _ hinner) ((around.outside k).mp (hout.congr hsame))

/-- No handle is on two of the nodes, nor on one of them and one of a tree. -/
structure Fresh (q : Query) (ns : List Node) : Prop where
  distinct : Distinct ns
  absent : ∀ n ∈ ns, ¬ q.Occurs n.handle

namespace Fresh

variable {q : Query} {v w : Node} {ms ns : List Node}

theorem left (h : Fresh q (ms ++ ns)) : Fresh q ms where
  distinct := (List.pairwise_append.mp h.distinct).1
  absent n hn := h.absent n (List.mem_append_left _ hn)

theorem symm (h : Fresh q (ms ++ ns)) : Fresh q (ns ++ ms) where
  distinct := by
    rw [Node.distinct_iff_nodup, List.map_append, List.nodup_append_comm, ← List.map_append,
      ← Node.distinct_iff_nodup]
    exact h.distinct
  absent n hn := h.absent n (List.mem_append.mpr (List.mem_append.mp hn).symm)

theorem same_eq_false (h : Fresh q ns) {n : Node} (hn : n ∈ ns) {k : Handle} (hk : q.Occurs k) :
    n.handle.same k = false := by
  rw [Bool.eq_false_iff]
  intro hsame
  rw [Handle.same_iff] at hsame
  exact h.absent n hn (hk.congr ((Handle.same_iff _ _).mpr hsame.symm))

theorem not_holds (h : Fresh q v.inner) {k : Handle} (hk : q.Occurs k) : ¬ v.Holds k := by
  rintro ⟨m, hm, hsame⟩
  simp [h.same_eq_false hm hk] at hsame

theorem fits (h : Fresh q v.inner) (hv : q.Occurs v.handle) : Fits q v where
  distinct := h.distinct
  self _ hm := h.same_eq_false hm hv
  outside _ hm ho := h.absent _ hm ho.occurs

theorem substitute (h : Fresh q (v.inner ++ w.inner)) (hv : q.Occurs v.handle) :
    Fresh (q.substitute v) w.inner where
  distinct := h.symm.left.distinct
  absent m hm := by
    rw [occurs_substitute_iff, not_or, not_and]
    refine ⟨fun ho => h.absent m (List.mem_append_right _ hm) ho.occurs, fun _ ho => ?_⟩
    rcases occurs_toQuery_iff.mp ho with hsame | ⟨n, hn, hsame⟩
    · exact h.absent m (List.mem_append_right _ hm) (hv.congr hsame)
    · have hcross := (List.pairwise_append.mp h.distinct).2.2 n hn m hm
      rw [hcross] at hsame
      cases hsame

end Fresh

/-! ## Two edits -/

section

variable {q : Query} {v w : Node}

theorem substitute_comm_of_carries (hroot : q.carries v.handle = true)
    (hne : v.handle.same w.handle = false) (hapart : ¬ Nests v.handle w.handle q)
    (hv : ¬ v.toQuery.Occurs w.handle) :
    (q.substitute v).substitute w = (q.substitute w).substitute v := by
  have hq : ¬ q.Occurs w.handle := fun ho => hapart (nests_of_carries hroot hne ho)
  rw [substitute_of_not_occurs hq, substitute_of_carries hroot, substitute_of_not_occurs hv]

theorem substitute_comm (hne : v.handle.same w.handle = false)
    (hvw : ¬ Nests v.handle w.handle q) (hwv : ¬ Nests w.handle v.handle q)
    (hv : ¬ v.toQuery.Occurs w.handle) (hw : ¬ w.toQuery.Occurs v.handle) :
    (q.substitute v).substitute w = (q.substitute w).substitute v := by
  induction q using children_induction with
  | step q ih =>
      cases hrootv : q.carries v.handle with
      | true => exact substitute_comm_of_carries hrootv hne hvw hv
      | false =>
          cases hrootw : q.carries w.handle with
          | true =>
              have hne' : w.handle.same v.handle = false := (Handle.same_comm _ _).trans hne
              exact (substitute_comm_of_carries hrootw hne' hwv hw).symm
          | false =>
              -- both places are further down, and apart in every child
              rw [substitute_of_not_carries hrootv, substitute_of_not_carries (by simp [hrootw]),
                substitute_of_not_carries hrootw, substitute_of_not_carries (by simp [hrootv]),
                mapChildren_mapChildren, mapChildren_mapChildren]
              exact mapChildren_congr fun c hc =>
                ih c hc (fun hn => hvw (hn.of_child hc)) fun hn => hwv (hn.of_child hc)

theorem replaceNode_after (hq : Distinct q.nodes) (hv : q.Occurs v.handle)
    (hw : q.Occurs w.handle) (hne : v.handle.same w.handle = false)
    (hvw : ¬ Nests v.handle w.handle q) (hfresh : Fresh q (v.inner ++ w.inner)) :
    q.replaceNode v = .ok (q.substitute v) ∧
      (q.substitute v).replaceNode w = .ok ((q.substitute v).substitute w) ∧
      Distinct ((q.substitute v).substitute w).nodes := by
  have hplace := occursOutside_of_not_nests hne hw hvw
  have hw' : (q.substitute v).Occurs w.handle := occurs_substitute_iff.mpr (.inl hplace)
  have hq' := (distinct_substitute_iff hq hv).mpr (hfresh.left.fits hv)
  exact ⟨replaceNode_of_occurs hq hv, replaceNode_of_occurs hq' hw',
    (distinct_substitute_iff hq' hw').mpr ((hfresh.substitute hv).fits hw')⟩

end

/--
In a tree without repeated handles, two nodes are replaced by values whose
handles are all new.  If neither node is inside the other, both edits succeed
in either order and give the same tree, which again has an index.  If the
second node is inside the value that the first edit replaces, the second edit
does not find it any more.
-/
theorem independent_edits_commute (q : Query) (index : NodeIndex)
    (hindex : NodeIndex.collect [q] = .ok index) (v w : Node) :
    (q.Occurs v.handle → q.Occurs w.handle → v.handle.same w.handle = false →
      ¬ Nests v.handle w.handle q → ¬ Nests w.handle v.handle q →
      Fresh q (v.inner ++ w.inner) →
        ∃ qv qw q' index', q.replaceNode v = .ok qv ∧ qv.replaceNode w = .ok q' ∧
          q.replaceNode w = .ok qw ∧ qw.replaceNode v = .ok q' ∧
          NodeIndex.collect [q'] = .ok index') ∧
    (Nests v.handle w.handle q → Fresh q v.inner →
      ∃ qv, q.replaceNode v = .ok qv ∧
        qv.replaceNode w = .error (.handleNotFound w.handle.name)) := by
  obtain ⟨hq, rfl⟩ := collect_singleton.mp hindex
  refine ⟨fun hv hw hne hvw hwv hfresh => ?_, fun hnests hfresh => ?_⟩
  · have hne' : w.handle.same v.handle = false := (Handle.same_comm _ _).trans hne
    obtain ⟨hputv, hthenw, hdistinct⟩ := replaceNode_after hq hv hw hne hvw hfresh
    obtain ⟨hputw, hthenv, -⟩ := replaceNode_after hq hw hv hne' hwv hfresh.symm
    have hcomm : (q.substitute v).substitute w = (q.substitute w).substitute v := by
      refine substitute_comm hne hvw hwv ?_ ?_
      · simp [occurs_toQuery_iff, hne, hfresh.left.not_holds hw]
      · simp [occurs_toQuery_iff, hne', hfresh.symm.left.not_holds hv]
    exact ⟨_, _, _, _, hputv, hthenw, hputw, hcomm ▸ hthenv,
      collect_singleton.mpr ⟨hdistinct, rfl⟩⟩
  · obtain ⟨hne, hout⟩ := hnests.apart hq
    have hv := hnests.occurs_outer
    have hq' := (distinct_substitute_iff hq hv).mpr (hfresh.fits hv)
    refine ⟨_, replaceNode_of_occurs hq hv, replaceNode_of_not_occurs hq' ?_⟩
    simp [occurs_substitute_iff, occurs_toQuery_iff, hne, hout, hfresh.not_holds hnests.occurs]

/--
Nodes in two lists of clauses are replaced, one of them by a value with a new
node inside; the node that stood inside the other one is gone after that.
-/
theorem independent_edits_commute_clauses :
    let a : Handle := ⟨.query, ⟨1, "a"⟩⟩
    let b : Handle := ⟨.disMax, ⟨2, "b"⟩⟩
    let c : Handle := ⟨.query, ⟨3, "c"⟩⟩
    let q : Query := .bool none
      { must := [.node a.label matchAll]
        mustNot := [.disMax (some b.label) { queries := [.node c.label matchAll] }] }
    let v : Node := ⟨a, .node ⟨4, "d"⟩ matchAll⟩
    let w : Node := ⟨b, {}⟩
    (∃ qv qw q', q.replaceNode v = .ok qv ∧ qv.replaceNode w = .ok q' ∧
      q.replaceNode w = .ok qw ∧ qw.replaceNode v = .ok q') ∧
    ∃ qw, q.replaceNode w = .ok qw ∧ qw.replaceNode ⟨c, matchAll⟩ = .error (.handleNotFound "c") := by
  intro a b c q v w
  have hindex : NodeIndex.collect [q] = .ok ⟨q.nodes⟩ := collect_singleton.mpr ⟨by decide, rfl⟩
  have hfresh : Fresh q (v.inner ++ w.inner) := ⟨by decide, by decide⟩
  obtain ⟨qv, qw, q', -, hv, hvw, hw, hwv, -⟩ :=
    (independent_edits_commute q _ hindex v w).1 (by decide) (by decide) (by decide) (by decide)
      (by decide) hfresh
  have hlost := (independent_edits_commute q _ hindex w ⟨c, matchAll⟩).2 (by decide)
    hfresh.symm.left
  exact ⟨⟨qv, qw, q', hv, hvw, hw, hwv⟩, hlost⟩

end Query

end SearchClient
