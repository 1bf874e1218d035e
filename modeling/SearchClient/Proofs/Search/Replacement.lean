import Mathlib.Data.List.Pairwise
import SearchClient.Proofs.Query.GetPut
import SearchClient.Search.Shared

/-!
# Replacement in a search

The index of a search holds the nodes of all its queries, and no handle twice,
so at most one query of the search has a given handle inside.  Replacement
fails before it touches the search, or it makes that one query anew and keeps
every other query the object it was.
-/

namespace SearchClient

open Query (OccursAny nodesAll)
open SharedQuery (Becomes)

theorem Query.pairwise_of_distinct {qs : List Query} (hqs : Node.Distinct (nodesAll qs))
    (h : Handle) : qs.Pairwise fun q r => ¬ (q.Occurs h ∧ r.Occurs h) := by
  rw [nodesAll_eq_flatMap, Node.Distinct, List.pairwise_flatMap] at hqs
  refine hqs.2.imp ?_
  rintro q r hcross ⟨⟨m, hm, hmh⟩, ⟨n, hn, hnh⟩⟩
  have hmn := hcross m hm n hn
  simp only [Handle.same, beq_iff_eq, beq_eq_false_iff_ne] at hmh hnh hmn
  exact hmn (hmh.trans hnh.symm)

namespace SharedSearch

variable {δ : Type} {new : SharedNode} {s : SharedSearch δ}

inductive Slot where
  | query
  | filter (i : Nat)
  | postFilter (i : Nat)
  | rescore (i : Nat)

def at? (s : SharedSearch δ) : Slot → Option SharedQuery
  | .query => s.query
  | .filter i => s.filters[i]?
  | .postFilter i => s.postFilters[i]?
  | .rescore i => s.rescores[i]?.map (·.query)

def entries (s : SharedSearch δ) : List (Slot × SharedQuery) :=
  s.query.toList.map (.query, ·) ++
    s.filters.zipIdx.map (fun (t, i) => (.filter i, t)) ++
    s.postFilters.zipIdx.map (fun (t, i) => (.postFilter i, t)) ++
    s.rescores.zipIdx.map fun (r, i) => (.rescore i, r.query)

theorem mem_entries_iff {p : Slot} {t : SharedQuery} : (p, t) ∈ s.entries ↔ s.at? p = some t := by
  cases p <;> simp [entries, at?, List.mem_zipIdx_iff_getElem?, Option.map_eq_some_iff]

theorem map_snd_entries (s : SharedSearch δ) : s.entries.map (·.2) = s.roots := by
  have hfst {α : Type} (f : α → SharedQuery) (l : List α) :
      l.zipIdx.map (fun x => f x.1) = l.map f := by
    rw [← Function.comp_def f Prod.fst, ← List.map_map, List.zipIdx_map_fst]
  simp [entries, roots, hfst, Function.comp_def]

theorem roots_toSearch (s : SharedSearch δ) :
    s.toSearch.roots = s.roots.map SharedQuery.toQuery := by
  simp only [Search.roots, toSearch, roots, List.map_append, List.map_map, Option.toList_map]
  rfl

theorem exists_slot {h : Handle} (ho : OccursAny h s.toSearch.roots) :
    ∃ p t, s.at? p = some t ∧ t.toQuery.Occurs h := by
  obtain ⟨q, hq, ho⟩ := ho
  rw [roots_toSearch, ← map_snd_entries] at hq
  obtain ⟨t, ht, rfl⟩ := List.mem_map.mp hq
  obtain ⟨⟨p, t⟩, hp, rfl⟩ := List.mem_map.mp ht
  exact ⟨p, t, mem_entries_iff.mp hp, ho⟩

theorem slot_unique (hs : Node.Distinct (nodesAll s.toSearch.roots)) {h : Handle} {p p' : Slot}
    {t t' : SharedQuery} (ht : s.at? p = some t) (ht' : s.at? p' = some t')
    (ho : t.toQuery.Occurs h) (ho' : t'.toQuery.Occurs h) : p = p' := by
  have hpairs := Query.pairwise_of_distinct hs h
  rw [roots_toSearch, ← map_snd_entries, List.map_map, List.pairwise_map] at hpairs
  simp only [Function.comp_apply] at hpairs
  have : Std.Symm fun e e' : Slot × SharedQuery =>
      ¬ (e.2.toQuery.Occurs h ∧ e'.2.toQuery.Occurs h) := ⟨fun e e' => mt And.symm⟩
  by_contra hne
  have hentries : (p, t) ≠ (p', t') := fun heq => hne (congrArg Prod.fst heq)
  exact hpairs.forall (mem_entries_iff.mpr ht) (mem_entries_iff.mpr ht') hentries ⟨ho, ho'⟩

/-! ## What becomes of the slots -/

theorem forall₂_getElem? {α : Type} {R : α → α → Prop} {l l' : List α} (h : List.Forall₂ R l l')
    (i : Nat) : Option.Rel R l[i]? l'[i]? := by
  induction h generalizing i with
  | nil => exact .none
  | cons hab _ ih =>
      cases i with
      | zero => exact .some hab
      | succ i => exact ih i

theorem map_eq_of_forall₂ {α β : Type} {R : α → α → Prop} {f g : α → β} {l l' : List α}
    (h : List.Forall₂ R l l') (hfg : ∀ a ∈ l, ∀ a', R a a' → f a' = g a) : l'.map f = l.map g := by
  induction h with
  | nil => rfl
  | cons hab _ ih =>
      have hhead := hfg _ List.mem_cons_self _ hab
      have htail := ih fun a ha => hfg a (List.mem_cons_of_mem _ ha)
      rw [List.map_cons, List.map_cons, hhead, htail]

theorem toQuery_of_becomes {next : Nat} {t t' : SharedQuery} (below : t.Below next)
    (h : Becomes new next t t') : t'.toQuery = t.toQuery.replace new.toNode := by
  obtain ⟨k, hk, rfl⟩ := h
  rw [Query.replace_eq_substitute]
  exact (SharedQuery.replaced_replace new t k (below.mono hk)).content

theorem becomes_query (t : Option SharedQuery) (next : Nat) :
    Option.Rel (Becomes new next) t (replaceQuery new t next).1 := by
  cases t with
  | none => exact .none
  | some t => exact .some ⟨next, Nat.le_refl _, rfl⟩

theorem le_replaceQuery (new : SharedNode) {t : Option SharedQuery} {next : Nat}
    (below : ∀ c ∈ t, c.Below next) : next ≤ (replaceQuery new t next).2 := by
  cases t with
  | none => exact Nat.le_refl _
  | some t => exact (SharedQuery.replaced_replace new t next (below t rfl)).le

theorem becomes_rescores (new : SharedNode) {rs : List SharedRescore} {next : Nat}
    (below : ∀ r ∈ rs, r.query.Below next) :
    List.Forall₂ (fun r r' => Becomes new next r.query r'.query ∧ r' = { r with query := r'.query })
      rs (SharedRescore.replaceAll new rs next).1 := by
  induction rs generalizing next with
  | nil => exact .nil
  | cons r rs ih =>
      have hle := (SharedQuery.replaced_replace new r.query next (below r List.mem_cons_self)).le
      have hrs := ih fun r' hr' => (below r' (List.mem_cons_of_mem _ hr')).mono hle
      refine .cons ⟨⟨next, Nat.le_refl _, rfl⟩, rfl⟩ (hrs.imp ?_)
      exact fun _ _ h => ⟨h.1.mono hle, h.2⟩

/-- What the search becomes, slot by slot. -/
structure SlotsReplaced (new : SharedNode) (s s' : SharedSearch δ) : Prop where
  query : Option.Rel (Becomes new (s.freeAddress new)) s.query s'.query
  filters : List.Forall₂ (Becomes new (s.freeAddress new)) s.filters s'.filters
  postFilters : List.Forall₂ (Becomes new (s.freeAddress new)) s.postFilters s'.postFilters
  rescores : List.Forall₂
    (fun r r' => Becomes new (s.freeAddress new) r.query r'.query ∧
      r' = { r with query := r'.query }) s.rescores s'.rescores
  settings : s'.toSearchSettings = s.toSearchSettings

theorem below_freeAddress (new : SharedNode) {t : SharedQuery} (h : t ∈ s.roots) :
    t.Below (s.freeAddress new) :=
  (SharedQuery.below_boundAll t h).mono (Nat.le_max_left _ _)

theorem slots_below_freeAddress (new : SharedNode) (s : SharedSearch δ) :
    (∀ t ∈ s.query, t.Below (s.freeAddress new)) ∧
      (∀ t ∈ s.filters, t.Below (s.freeAddress new)) ∧
      (∀ t ∈ s.postFilters, t.Below (s.freeAddress new)) ∧
      ∀ r ∈ s.rescores, r.query.Below (s.freeAddress new) := by
  refine ⟨fun t ht => ?_, fun t ht => ?_, fun t ht => ?_, fun r hr => ?_⟩
  · exact below_freeAddress new (by simp [roots, Option.mem_def.mp ht])
  · exact below_freeAddress new (by simp [roots, ht])
  · exact below_freeAddress new (by simp [roots, ht])
  · exact below_freeAddress new (List.mem_append_right _ (List.mem_map_of_mem hr))

theorem slotsReplaced (new : SharedNode) (s : SharedSearch δ) :
    SlotsReplaced new s (s.replaceSlots new) := by
  obtain ⟨belowQuery, belowFilters, belowPost, belowRescores⟩ := slots_below_freeAddress new s
  -- each family starts where the one before it has stopped
  have hquery := le_replaceQuery new belowQuery
  have hfilters := SharedQuery.replaced_replaceAll (fun t _ => SharedQuery.replaced_replace new t)
    fun t ht => (belowFilters t ht).mono hquery
  have hle := Nat.le_trans hquery hfilters.le
  have hpost := SharedQuery.replaced_replaceAll (fun t _ => SharedQuery.replaced_replace new t)
    fun t ht => (belowPost t ht).mono hle
  have hle' := Nat.le_trans hle hpost.le
  have hrescores := becomes_rescores new fun r hr => (belowRescores r hr).mono hle'
  exact
    { query := becomes_query _ _
      filters := hfilters.pairs.imp fun _ _ => Becomes.mono hquery
      postFilters := hpost.pairs.imp fun _ _ => Becomes.mono hle
      rescores := hrescores.imp fun _ _ h => ⟨h.1.mono hle', h.2⟩
      settings := rfl }

theorem SlotsReplaced.at? {s' : SharedSearch δ} (h : SlotsReplaced new s s') (p : Slot) :
    Option.Rel (Becomes new (s.freeAddress new)) (s.at? p) (s'.at? p) := by
  cases p with
  | query => exact h.query
  | filter i => exact forall₂_getElem? h.filters i
  | postFilter i => exact forall₂_getElem? h.postFilters i
  | rescore i =>
      have hi := forall₂_getElem? h.rescores i
      rw [SharedSearch.at?, SharedSearch.at?]
      generalize s.rescores[i]? = r, s'.rescores[i]? = r' at hi
      cases hi with
      | none => exact .none
      | some hr => exact .some hr.1

theorem mem_roots_of_at? {p : Slot} {t : SharedQuery} (h : s.at? p = some t) : t ∈ s.roots := by
  rw [← map_snd_entries]
  exact List.mem_map_of_mem (mem_entries_iff.mpr h)

theorem toSearch_replaceSlots (new : SharedNode) (s : SharedSearch δ) :
    (s.replaceSlots new).toSearch =
      { s.toSearch with
        query := s.toSearch.query.map (Query.replace new.toNode)
        filters := s.toSearch.filters.map (Query.replace new.toNode)
        postFilters := s.toSearch.postFilters.map (Query.replace new.toNode)
        rescores := s.toSearch.rescores.map (Rescore.replace new.toNode) } := by
  have h := slotsReplaced new s
  obtain ⟨belowQuery, belowFilters, belowPost, belowRescores⟩ := slots_below_freeAddress new s
  have hquery : (s.replaceSlots new).query.map SharedQuery.toQuery =
      s.query.map fun t => t.toQuery.replace new.toNode := by
    have hslot := h.query
    generalize hq : s.query = q, (s.replaceSlots new).query = q' at hslot
    cases hslot with
    | none => rfl
    | some hbecomes => exact congrArg some (toQuery_of_becomes (belowQuery _ hq) hbecomes)
  have hfilters := map_eq_of_forall₂ h.filters fun t ht _ => toQuery_of_becomes (belowFilters t ht)
  have hpost := map_eq_of_forall₂ h.postFilters fun t ht _ => toQuery_of_becomes (belowPost t ht)
  have hrescores : (s.replaceSlots new).rescores.map SharedRescore.toRescore =
      s.rescores.map fun r => r.toRescore.replace new.toNode := by
    refine map_eq_of_forall₂ h.rescores fun r hr r' hbecomes => ?_
    have hcontent := toQuery_of_becomes (belowRescores r hr) hbecomes.1
    rw [hbecomes.2]
    simp only [SharedRescore.toRescore, Rescore.replace, hcontent]
  simp only [toSearch, hquery, hfilters, hpost, hrescores, h.settings, Option.map_map,
    List.map_map]
  rfl

/-! ## The operation -/

/-- One slot of a search has another query, and everything else is as it was. -/
structure ChangedAt (new : SharedNode) (s s' : SharedSearch δ) (p : Slot) : Prop where
  changed : ∃ t k, s.at? p = some t ∧ t.Below k ∧ t.toQuery.Occurs new.handle ∧
    s'.at? p = some (t.replace new k).1 ∧ (t.replace new k).1.same t = false
  kept : ∀ p', p' ≠ p → s'.at? p' = s.at? p'
  rescores : List.Forall₂ (fun r r' => r' = { r with query := r'.query }) s.rescores s'.rescores
  settings : s'.toSearchSettings = s.toSearchSettings

theorem changedAt {p : Slot} {t : SharedQuery} (hs : Node.Distinct (nodesAll s.toSearch.roots))
    (ht : s.at? p = some t) (ho : t.toQuery.Occurs new.handle) :
    ChangedAt new s (s.replaceSlots new) p := by
  have hslots := slotsReplaced new s
  have below : t.Below (s.freeAddress new) := below_freeAddress new (mem_roots_of_at? ht)
  refine ⟨?_, ?_, hslots.rescores.imp fun _ _ h => h.2, hslots.settings⟩
  · have hp := hslots.at? p
    rw [ht] at hp
    generalize (s.replaceSlots new).at? p = t' at hp
    cases hp with
    | some hbecomes =>
        obtain ⟨k, hk, rfl⟩ := hbecomes
        have hsame := (SharedQuery.replaced_replace new t k (below.mono hk)).same (below.mono hk)
        exact ⟨t, k, ht, below.mono hk, ho, rfl, by simpa [ho] using hsame⟩
  · intro p' hne
    have hp := hslots.at? p'
    generalize hu : s.at? p' = u at hp
    generalize (s.replaceSlots new).at? p' = u' at hp
    cases hp with
    | none => rfl
    | some hbecomes =>
        -- the handle is in this slot or in that one, and it is in that one
        rename_i u u'
        obtain ⟨k, hk, rfl⟩ := hbecomes
        have hnot : ¬ u.toQuery.Occurs new.handle := fun hou => hne (slot_unique hs hu ht hou ho)
        have hbelow := (below_freeAddress new (mem_roots_of_at? hu)).mono hk
        rw [(SharedQuery.replaced_replace new u k hbelow).kept hnot]

theorem run_rewrite (new : SharedNode) (s : SharedSearch δ) :
    (rewrite new).run.run s =
      match s.toSearch.nodeIndex with
      | .error e => (.error e, s)
      | .ok index =>
          if index.contains new.handle then (.ok (), s.replaceSlots new)
          else (.error (.handleNotFound new.handle.name), s) := by
  have hread : (rewrite new).run.run s = (ExceptT.run (do
      let index ← MonadExcept.ofExcept s.toSearch.nodeIndex
      unless index.contains new.handle do
        throw (.handleNotFound new.handle.name)
      modify (replaceSlots new) : ExceptT Error (StateM (SharedSearch δ)) Unit)).run s := rfl
  rw [hread]
  cases s.toSearch.nodeIndex with
  | error e => rfl
  | ok index =>
      cases hc : index.contains new.handle
      · simp [MonadExcept.ofExcept, hc]
        rfl
      · simp [MonadExcept.ofExcept, hc]
        rfl

theorem contains_iff_occursAny {qs : List Query} {h : Handle} :
    (⟨nodesAll qs⟩ : NodeIndex).contains h = true ↔ OccursAny h qs := by
  simp only [NodeIndex.contains_iff, Query.nodesAll_eq_flatMap, List.mem_flatMap, OccursAny,
    Query.Occurs]
  constructor
  · rintro ⟨n, ⟨q, hq, hn⟩, hsame⟩
    exact ⟨q, hq, n, hn, hsame⟩
  · rintro ⟨q, hq, n, hn, hsame⟩
    exact ⟨n, ⟨q, hq, hn⟩, hsame⟩

theorem rewrite_cases (new : SharedNode) (s : SharedSearch δ) :
    (∃ n, Node.FirstRepeat (nodesAll s.toSearch.roots) n ∧
      s.toSearch.nodeIndex = .error (.duplicateHandle n.handle.name) ∧
      (rewrite new).run.run s = (.error (.duplicateHandle n.handle.name), s)) ∨
    Node.Distinct (nodesAll s.toSearch.roots) ∧
      s.toSearch.nodeIndex = .ok ⟨nodesAll s.toSearch.roots⟩ ∧
      (¬ OccursAny new.handle s.toSearch.roots ∧
          (rewrite new).run.run s = (.error (.handleNotFound new.handle.name), s) ∨
        OccursAny new.handle s.toSearch.roots ∧
          (rewrite new).run.run s = (.ok (), s.replaceSlots new)) := by
  rw [run_rewrite]
  rcases Node.distinct_or_firstRepeat (nodesAll s.toSearch.roots) with hdistinct | ⟨n, hn⟩
  · have hindex : s.toSearch.nodeIndex = .ok ⟨nodesAll s.toSearch.roots⟩ :=
      NodeIndex.collect_of_distinct hdistinct
    refine .inr ⟨hdistinct, hindex, ?_⟩
    rw [hindex]
    by_cases ho : OccursAny new.handle s.toSearch.roots
    · exact .inr ⟨ho, if_pos (contains_iff_occursAny.mpr ho)⟩
    · exact .inl ⟨ho, if_neg (mt contains_iff_occursAny.mp ho)⟩
  · have hindex : s.toSearch.nodeIndex = .error (.duplicateHandle n.handle.name) :=
      NodeIndex.collect_of_firstRepeat hn
    exact .inl ⟨n, hn, hindex, by rw [hindex]⟩

theorem replaceNode_toSearch (new : SharedNode) (s : SharedSearch δ) :
    s.toSearch.replaceNode new.toNode =
      ((rewrite new).run.run s).1.map fun _ => ((rewrite new).run.run s).2.toSearch := by
  rw [run_rewrite, Search.replaceNode]
  cases s.toSearch.nodeIndex with
  | error e => rfl
  | ok index =>
      simp only [SharedNode.handle_toNode, bind, Except.bind]
      by_cases hc : index.contains new.handle = true
      · rw [if_pos hc, if_pos hc, ← toSearch_replaceSlots]
        rfl
      · rw [if_neg hc, if_neg hc]
        rfl

theorem ChangedAt.unique {s' : SharedSearch δ} {p p' : Slot} (h : ChangedAt new s s' p)
    (h' : ChangedAt new s s' p') : p' = p := by
  by_contra hne
  obtain ⟨t, k, ht, -, -, hchanged, hsame⟩ := h'.changed
  have hkept := h.kept p' hne
  rw [ht, hchanged, Option.some.injEq] at hkept
  rw [hkept] at hsame
  simp [SharedQuery.same] at hsame

/--
Replacement in a search fails when a handle stands twice in it or the one
asked for does not stand in it, and a failure leaves the search as it is.
Otherwise just one of its queries becomes another object, where it stands;
every other query is the object it was, and nothing besides the queries
changes.
-/
theorem rewrite_changes_one_slot (new : SharedNode) (s : SharedSearch δ) :
    let outcome : Except Error Unit × SharedSearch δ := (rewrite new).run.run s
    (∀ e, outcome.1 = .error e ↔ s.toSearch.nodeIndex = .error e ∨
      (∃ index, s.toSearch.nodeIndex = .ok index) ∧
        ¬ OccursAny new.handle s.toSearch.roots ∧ e = .handleNotFound new.handle.name) ∧
    (∀ e, s.toSearch.nodeIndex = .error e →
      ∃ n, Node.FirstRepeat (nodesAll s.toSearch.roots) n ∧
        e = .duplicateHandle n.handle.name) ∧
    (∀ e, outcome.1 = .error e → outcome.2 = s) ∧
    (outcome.1 = .ok () → ∃! p, ChangedAt new s outcome.2 p) ∧
    s.toSearch.replaceNode new.toNode = outcome.1.map fun _ => outcome.2.toSearch := by
  intro outcome
  have hduplicate : ∀ e, s.toSearch.nodeIndex = .error e →
      ∃ n, Node.FirstRepeat (nodesAll s.toSearch.roots) n ∧ e = .duplicateHandle n.handle.name :=
    fun e => NodeIndex.collect_eq_error_iff.mp
  refine ⟨?_, hduplicate, ?_, ?_, replaceNode_toSearch new s⟩
  · intro e
    rcases rewrite_cases new s with ⟨n, -, hindex, hrun⟩ | ⟨-, hindex, ⟨ho, hrun⟩ | ⟨ho, hrun⟩⟩
    · simp [outcome, hrun, hindex]
    · simp [outcome, hrun, hindex, ho, eq_comm]
    · simp [outcome, hrun, hindex, ho]
  · intro e he
    rcases rewrite_cases new s with ⟨n, -, -, hrun⟩ | ⟨-, -, ⟨-, hrun⟩ | ⟨-, hrun⟩⟩
    · simp [outcome, hrun]
    · simp [outcome, hrun]
    · simp [outcome, hrun] at he
  · intro hok
    rcases rewrite_cases new s with ⟨n, -, -, hrun⟩ | ⟨hdistinct, -, ⟨-, hrun⟩ | ⟨ho, hrun⟩⟩
    · simp [outcome, hrun] at hok
    · simp [outcome, hrun] at hok
    · obtain ⟨p, t, ht, hot⟩ := exists_slot ho
      have hchanged := changedAt hdistinct ht hot
      simp only [outcome, hrun]
      exact ⟨p, hchanged, fun p' hp' => hchanged.unique hp'⟩

theorem rewrite_changes_one_slot_rescore :
    let lang : SharedQuery := .leaf 0 (.hasField "lang" none)
    let s : SharedSearch Json :=
      { query := some lang
        filters := [.node 2 ⟨8, "all"⟩ (.leaf 1 (.matchAll none))]
        rescores := [{ query := .bool 3 (some ⟨7, "part"⟩) {}, windowSize := some 50 }]
        doc := .raw }
    let part : SharedNode := ⟨⟨.bool, ⟨7, "part"⟩⟩, { must := [lang] }⟩
    let ghost : SharedNode := ⟨⟨.bool, ⟨9, "ghost"⟩⟩, {}⟩
    ((rewrite part).run.run s).1 = .ok () ∧
      (∃! p, ChangedAt part s ((rewrite part).run.run s).2 p) ∧
      (rewrite ghost).run.run s = (.error (.handleNotFound "ghost"), s) := by
  intro lang s part ghost
  have hdistinct : Node.Distinct (nodesAll s.toSearch.roots) := by decide
  have hindex : s.toSearch.nodeIndex = .ok ⟨nodesAll s.toSearch.roots⟩ :=
    NodeIndex.collect_of_distinct hdistinct
  obtain ⟨herror, -, -, hchanged, -⟩ := rewrite_changes_one_slot part s
  obtain ⟨hmissing, -, hkept, -, -⟩ := rewrite_changes_one_slot ghost s
  have hok : ((rewrite part).run.run s).1 = .ok () := by
    cases hresult : ((rewrite part).run.run s).1 with
    | ok u => rfl
    | error e =>
        rcases (herror e).mp hresult with hduplicate | ⟨-, hnot, -⟩
        · rw [hindex] at hduplicate
          cases hduplicate
        · exact absurd (by decide) hnot
  have hnot : ¬ OccursAny ghost.handle s.toSearch.roots := by decide
  have hghost := (hmissing (.handleNotFound "ghost")).mpr (.inr ⟨⟨_, hindex⟩, hnot, rfl⟩)
  exact ⟨hok, hchanged hok, Prod.ext hghost (hkept _ hghost)⟩

end SharedSearch

end SearchClient
