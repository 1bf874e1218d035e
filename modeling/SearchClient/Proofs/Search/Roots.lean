import SearchClient.Proofs.Query.Independence
import SearchClient.Proofs.Search.Editing
import SearchClient.Proofs.Search.OneSlot
import SearchClient.Proofs.Search.Parts

/-!
# The roots of the index

The index of a search is made from the queries in some of its slots: the main
query, the filters, the filters of the hits and the queries of the rescorers.
In these slots every node is found, a handle at two places is refused, and
nothing of an old value is left after a rewrite.  The filters of nested sort
keys and the queries of aggregations are written into the body as well, but no
node is looked for there, and none is replaced.
-/

namespace SearchClient

open Json (Object)
open Node (Distinct)
open Query (nodesAll)

section

variable {α β : Type} {name : Nat → α} {items : List β}

def numbered (name : Nat → α) (items : List β) : List (α × β) :=
  items.zipIdx.map fun (b, i) => (name i, b)

theorem mem_numbered_iff {a : α} {b : β} :
    (a, b) ∈ numbered name items ↔ ∃ i, name i = a ∧ items[i]? = some b := by
  simp [numbered, List.mem_zipIdx_iff_getElem?, and_comm]

theorem map_snd_numbered (name : Nat → α) (items : List β) :
    (numbered name items).map (·.2) = items := by
  rw [numbered, List.map_map]
  exact List.zipIdx_map_fst _ _

theorem nodup_numbered (hname : Function.Injective name) (items : List β) :
    ((numbered name items).map (·.1)).Nodup := by
  have hpositions := (List.nodup_zipIdx_map_snd items).map hname
  rw [List.map_map] at hpositions
  rw [numbered, List.map_map]
  exact hpositions

end

theorem Query.mem_toQuery_of_mem_substitute {new n : Node} {q : Query}
    (hn : n ∈ (q.substitute new).nodes) (hsame : n.handle.same new.handle = true) :
    n ∈ new.toQuery.nodes := by
  induction q using children_induction with
  | step q ih =>
      cases hroot : q.carries new.handle with
      | true => rwa [substitute_of_carries hroot] at hn
      | false =>
          rw [substitute_of_not_carries hroot, mem_nodes_iff, children_mapChildren] at hn
          rcases hn with hself | ⟨_, hchild, hn⟩
          · have hcarries : (q.mapChildren (substitute new)).carries new.handle = true :=
              carries_iff.mpr ⟨n, hself, hsame⟩
            rw [carries_mapChildren, hroot] at hcarries
            cases hcarries
          · obtain ⟨c, hc, rfl⟩ := List.mem_map.mp hchild
            exact ih c hc hn

namespace Search

variable {δ : Type} {s t : Search δ} {new : Node}

def Slot.IsRoot : Slot → Prop
  | .query | .filter _ | .postFilter _ | .rescore _ => True
  | .sort .. | .agg .. => False

/-- The node at a place, which is a slot and the number of nodes before it in the query there. -/
def node? (s : Search δ) (place : Slot × Nat) : Option Node :=
  (s.query? place.1).bind fun q => q.nodes[place.2]?

/-- The nodes at two places of some slots bear a handle. -/
def Repeats (slots : Slot → Prop) (s : Search δ) (h : Handle) : Prop :=
  ∃ a b m n, a ≠ b ∧ slots a.1 ∧ slots b.1 ∧ s.node? a = some m ∧ s.node? b = some n ∧
    m.handle.same h = true ∧ n.handle.same h = true

def rootEntries (s : Search δ) : List (Slot × Query) :=
  s.query.toList.map (Slot.query, ·) ++ numbered .filter s.filters ++
    numbered .postFilter s.postFilters ++ numbered .rescore (s.rescores.map (·.query))

theorem mem_rootEntries_iff {p : Slot} {q : Query} :
    (p, q) ∈ s.rootEntries ↔ p.IsRoot ∧ s.query? p = some q := by
  cases p <;> simp [rootEntries, mem_numbered_iff, query?, Slot.IsRoot, Option.bind_eq_some_iff]

theorem map_snd_rootEntries (s : Search δ) : s.rootEntries.map (·.2) = s.roots := by
  simp [rootEntries, roots, map_snd_numbered, Function.comp_def]

theorem nodup_rootSlots (s : Search δ) : (s.rootEntries.map (·.1)).Nodup := by
  have hquery : ((s.query.toList.map (Slot.query, ·)).map (·.1)).Nodup := by
    cases s.query <;> simp
  have hfilters := nodup_numbered (fun _ _ => Slot.filter.inj) s.filters
  have hpost := nodup_numbered (fun _ _ => Slot.postFilter.inj) s.postFilters
  have hrescores := nodup_numbered (fun _ _ => Slot.rescore.inj) (s.rescores.map (·.query))
  simp only [rootEntries, List.map_append]
  -- the slots of one family are told from those before it by their constructor
  refine ((hquery.append hfilters ?_).append hpost ?_).append hrescores ?_
  all_goals
    intro p hbefore hp
    obtain ⟨⟨p, q⟩, hmem, rfl⟩ := List.mem_map.mp hp
    obtain ⟨i, rfl, -⟩ := mem_numbered_iff.mp hmem
    simp [mem_numbered_iff] at hbefore

/-! ## The nodes by their places -/

def rootNodes (s : Search δ) : List ((Slot × Nat) × Node) :=
  s.rootEntries.flatMap fun (p, q) => numbered (Prod.mk p) q.nodes

theorem mem_rootNodes_iff {place : Slot × Nat} {n : Node} :
    (place, n) ∈ s.rootNodes ↔ place.1.IsRoot ∧ s.node? place = some n := by
  obtain ⟨p, i⟩ := place
  simp only [rootNodes, List.mem_flatMap, Prod.exists, mem_rootEntries_iff, mem_numbered_iff,
    node?, Option.bind_eq_some_iff]
  constructor
  · rintro ⟨p, q, ⟨hp, hq⟩, j, heq, hn⟩
    cases heq
    exact ⟨hp, q, hq, hn⟩
  · rintro ⟨hp, q, hq, hn⟩
    exact ⟨p, q, ⟨hp, hq⟩, i, rfl, hn⟩

theorem map_snd_rootNodes (s : Search δ) : s.rootNodes.map (·.2) = nodesAll s.roots := by
  rw [rootNodes, List.map_flatMap, Query.nodesAll_eq_flatMap, ← map_snd_rootEntries,
    List.flatMap_map]
  exact List.flatMap_congr fun entry _ => map_snd_numbered _ _

theorem nodup_rootPlaces (s : Search δ) : (s.rootNodes.map (·.1)).Nodup := by
  rw [rootNodes, List.map_flatMap, List.nodup_flatMap]
  constructor
  · exact fun entry _ => nodup_numbered (Prod.mk_right_injective entry.1) entry.2.nodes
  · refine (List.pairwise_map.mp s.nodup_rootSlots).imp fun {entry entry'} hne => ?_
    -- places in different slots differ
    intro place hplace hplace'
    obtain ⟨⟨place, n⟩, hmem, rfl⟩ := List.mem_map.mp hplace
    obtain ⟨⟨place', n'⟩, hmem', heq⟩ := List.mem_map.mp hplace'
    obtain ⟨i, rfl, -⟩ := mem_numbered_iff.mp hmem
    obtain ⟨i', rfl, -⟩ := mem_numbered_iff.mp hmem'
    exact hne (congrArg Prod.fst heq).symm

theorem mem_nodesAll_roots_iff {n : Node} :
    n ∈ nodesAll s.roots ↔ ∃ place, place.1.IsRoot ∧ s.node? place = some n := by
  rw [← map_snd_rootNodes, List.mem_map]
  constructor
  · rintro ⟨⟨place, n⟩, hn, rfl⟩
    exact ⟨place, mem_rootNodes_iff.mp hn⟩
  · rintro ⟨place, hn⟩
    exact ⟨(place, n), mem_rootNodes_iff.mpr hn, rfl⟩

theorem not_distinct_of_repeats {h : Handle} (hrepeats : s.Repeats Slot.IsRoot h) :
    ¬ Distinct (nodesAll s.roots) := by
  obtain ⟨a, b, m, n, hne, ha, hb, hm, hn, hmh, hnh⟩ := hrepeats
  rw [← map_snd_rootNodes, Distinct, List.pairwise_map]
  intro hdistinct
  have : Std.Symm fun e e' : (Slot × Nat) × Node => e.2.handle.same e'.2.handle = false :=
    ⟨fun e e' hapart => by rwa [Handle.same_comm]⟩
  have hentries : (a, m) ≠ (b, n) := fun heq => hne (congrArg Prod.fst heq)
  have hapart : m.handle.same n.handle = false :=
    hdistinct.forall (mem_rootNodes_iff.mpr ⟨ha, hm⟩) (mem_rootNodes_iff.mpr ⟨hb, hn⟩) hentries
  rw [Handle.same_iff] at hmh hnh
  simp [Handle.same, hmh, hnh] at hapart

theorem repeats_of_firstRepeat {n : Node} (h : Node.FirstRepeat (nodesAll s.roots) n) :
    s.Repeats Slot.IsRoot n.handle := by
  obtain ⟨before, after, hsplit, -, m, hm, hsame⟩ := h
  rw [← map_snd_rootNodes] at hsplit
  obtain ⟨front, back, hroots, rfl, hback⟩ := List.map_eq_append_iff.mp hsplit
  obtain ⟨⟨b, n⟩, rest, rfl, rfl, -⟩ := List.map_eq_cons_iff.mp hback
  obtain ⟨⟨a, m⟩, hfront, rfl⟩ := List.mem_map.mp hm
  -- one place is listed in front of the other, and no place is listed twice
  have hplaces := s.nodup_rootPlaces
  rw [hroots, List.map_append, List.nodup_append] at hplaces
  have hne : a ≠ b := hplaces.2.2 a (List.mem_map.mpr ⟨_, hfront, rfl⟩) b List.mem_cons_self
  have ha : (a, m) ∈ s.rootNodes := hroots ▸ List.mem_append_left _ hfront
  have hb : (b, n) ∈ s.rootNodes := hroots ▸ List.mem_append_right _ List.mem_cons_self
  obtain ⟨hra, hm⟩ := mem_rootNodes_iff.mp ha
  obtain ⟨hrb, hn⟩ := mem_rootNodes_iff.mp hb
  exact ⟨a, b, m, n, hne, hra, hrb, hm, hn, hsame, (Handle.same_iff _ _).mpr rfl⟩

theorem repeats_of_nodeIndex_eq_error {e : Error} (h : s.nodeIndex = .error e) :
    ∃ k, s.Repeats Slot.IsRoot k ∧ e = .duplicateHandle k.name := by
  obtain ⟨n, hn, rfl⟩ := NodeIndex.collect_eq_error_iff.mp h
  exact ⟨n.handle, repeats_of_firstRepeat hn, rfl⟩

theorem exists_repeats_iff :
    (∃ h, s.Repeats Slot.IsRoot h) ↔ ∃ e, s.nodeIndex = .error e := by
  constructor
  · rintro ⟨h, hrepeats⟩
    cases hindex : s.nodeIndex with
    | error e => exact ⟨e, rfl⟩
    | ok index =>
        exact absurd (nodeIndex_eq_ok_iff.mp hindex).1 (not_distinct_of_repeats hrepeats)
  · rintro ⟨e, he⟩
    obtain ⟨k, hk, -⟩ := repeats_of_nodeIndex_eq_error he
    exact ⟨k, hk⟩

theorem contains_iff_exists_place {index : NodeIndex} (hindex : s.nodeIndex = .ok index)
    {h : Handle} : index.contains h = true ↔
      ∃ place n, place.1.IsRoot ∧ s.node? place = some n ∧ n.handle.same h = true := by
  obtain ⟨-, rfl⟩ := nodeIndex_eq_ok_iff.mp hindex
  simp only [NodeIndex.contains_iff, mem_nodesAll_roots_iff]
  constructor
  · rintro ⟨n, ⟨place, hroot, hn⟩, hsame⟩
    exact ⟨place, n, hroot, hn, hsame⟩
  · rintro ⟨place, n, hroot, hn, hsame⟩
    exact ⟨n, ⟨place, hroot, hn⟩, hsame⟩

/-! ## Replacement by places -/

theorem query?_replaced_of_isRoot {p : Slot} (hp : p.IsRoot) :
    (s.replaced new).query? p = (s.query? p).map (Query.substitute new) := by
  rw [← funext (Query.replace_eq_substitute new)]
  cases p with
  | query => rfl
  | rescore i =>
      simp only [query?, replaced, List.getElem?_map]
      cases s.rescores[i]? <;> rfl
  | filter i => simp [query?, replaced, List.getElem?_map]
  | postFilter i => simp [query?, replaced, List.getElem?_map]
  | _ => cases hp

theorem query?_replaced_of_not_isRoot {p : Slot} (hp : ¬ p.IsRoot) :
    (s.replaced new).query? p = s.query? p := by
  cases p with
  | sort key level => rfl
  | agg i slot => rfl
  | _ => exact absurd trivial hp

theorem replaced_replaced {other : Node} (h : new.handle = other.handle) :
    (s.replaced other).replaced new = s.replaced new := by
  have hquery (q : Query) : (q.replace other).replace new = q.replace new := by
    simp only [Query.replace_eq_substitute, Query.substitute_substitute h]
  have hrescore (r : Rescore) : (r.replace other).replace new = r.replace new := by
    rw [Rescore.replace, Rescore.replace, Rescore.replace, hquery]
  simp only [replaced, Option.map_map, List.map_map, Function.comp_def, hquery, hrescore]

theorem get?_parts_replaced (f : Features) {name : String} (hquery : name ≠ "query")
    (hpost : name ≠ "post_filter") (hrescore : name ≠ "rescore") :
    Entries.get? ((s.replaced new).parts f) name = Entries.get? (s.parts f) name := by
  simp only [parts, Entries.get?_cons, if_neg hquery, if_neg hpost, if_neg hrescore]
  rfl

theorem body_replaced (f : Features) (s : Search δ) (new : Node) :
    ∃ before after : Object, s.body f = .object before ∧ (s.replaced new).body f = .object after ∧
      ∀ name, name ≠ "query" → name ≠ "post_filter" → name ≠ "rescore" →
        after.get? name = before.get? name := by
  refine ⟨_, _, body_eq f s, body_eq f (s.replaced new), fun name hquery hpost hrescore => ?_⟩
  rw [Json.get?_present (nodup_keys_parts f _), Json.get?_present (nodup_keys_parts f _),
    get?_parts_replaced f hquery hpost hrescore]

theorem mem_toQuery_of_node?_replaced {place : Slot × Nat} {n : Node} (hroot : place.1.IsRoot)
    (hn : (s.replaced new).node? place = some n) (hsame : n.handle.same new.handle = true) :
    n ∈ new.toQuery.nodes := by
  obtain ⟨q', hq', hn⟩ := Option.bind_eq_some_iff.mp hn
  rw [query?_replaced_of_isRoot hroot] at hq'
  obtain ⟨q, -, rfl⟩ := Option.map_eq_some_iff.mp hq'
  exact Query.mem_toQuery_of_mem_substitute (List.mem_of_getElem? hn) hsame

theorem replaceNode_after_fitting (h : s.replaceNode new = .ok t)
    (other : new.handle.kind.Value Query) (hfits : s.Fits ⟨new.handle, other⟩) :
    ∃ u, s.replaceNode ⟨new.handle, other⟩ = .ok u ∧ u.replaceNode new = .ok t := by
  obtain ⟨hs, ho, rfl⟩ := replaceNode_eq_ok_iff.mp h
  let first : Node := ⟨new.handle, other⟩
  have hfirst : s.replaceNode first = .ok (s.replaced first) :=
    replaceNode_eq_ok_iff.mpr ⟨hs, ho, rfl⟩
  have hput : first ∈ (s.replaced first).tree.nodes := by
    rw [tree_replaced]
    exact Query.mem_nodes_substitute (occurs_tree.mpr ho)
  have hoccurs : (s.replaced first).tree.Occurs new.handle :=
    ⟨first, hput, (Handle.same_iff _ _).mpr rfl⟩
  refine ⟨_, hfirst, replaceNode_eq_ok_iff.mpr ⟨?_, occurs_tree.mp hoccurs, ?_⟩⟩
  · exact (distinct_of_replaceNode hfirst).mpr hfits
  · have hhandle : new.handle = first.handle := rfl
    exact (replaced_replaced hhandle).symm

/--
The index holds the handles of the nodes at all places of the roots, and no
others, and it is refused just when a handle stands at two of these places;
sort keys and aggregations have no part in it.  After a rewrite the nodes of the
handle at these places are the new one and those inside its value, and the
search is the one that would have come of any other fitting value before.  What
stands in the other slots stays, and so does all of the body that is not written
from the roots.
-/
theorem index_covers_roots (s : Search δ) :
    (∀ index, s.nodeIndex = .ok index → ∀ h, index.contains h = true ↔
      ∃ place n, place.1.IsRoot ∧ s.node? place = some n ∧ n.handle.same h = true) ∧
    ((∃ h, s.Repeats Slot.IsRoot h) ↔ ∃ e, s.nodeIndex = .error e) ∧
    (∀ e, s.nodeIndex = .error e → ∃ h, s.Repeats Slot.IsRoot h ∧ e = .duplicateHandle h.name) ∧
    (∀ sort aggs, ({ s with sort := sort, aggs := aggs } : Search δ).nodeIndex = s.nodeIndex) ∧
    ∀ new t, s.replaceNode new = .ok t →
      (∀ place n, place.1.IsRoot → t.node? place = some n → n.handle.same new.handle = true →
        n ∈ new.toQuery.nodes) ∧
      (∀ other, s.Fits ⟨new.handle, other⟩ →
        ∃ u, s.replaceNode ⟨new.handle, other⟩ = .ok u ∧ u.replaceNode new = .ok t) ∧
      (∀ slot, ¬ slot.IsRoot → t.query? slot = s.query? slot) ∧
      ∀ f, ∃ before after : Object, s.body f = .object before ∧ t.body f = .object after ∧
        ∀ name, name ≠ "query" → name ≠ "post_filter" → name ≠ "rescore" →
          after.get? name = before.get? name := by
  refine ⟨fun index hindex h => contains_iff_exists_place hindex, exists_repeats_iff,
    fun e => repeats_of_nodeIndex_eq_error, fun sort aggs => rfl, fun new t h => ?_⟩
  have hfitting := replaceNode_after_fitting h
  obtain ⟨-, -, rfl⟩ := replaceNode_eq_ok_iff.mp h
  exact ⟨fun place n => mem_toQuery_of_node?_replaced, hfitting,
    fun slot => query?_replaced_of_not_isRoot, fun f => body_replaced f s new⟩

theorem index_covers_roots_rescorer :
    let a : Handle := ⟨.query, ⟨1, "a"⟩⟩
    let b : Handle := ⟨.query, ⟨2, "b"⟩⟩
    let lang : Query := .leaf (.hasField "lang" none)
    let title : Query := .leaf (.hasField "title" none)
    let s : Search Json :=
      { filters := [.bool none { must := [.node a.label lang] }]
        rescores := [{ query := .joining (.hasParent "post" none none) (.node b.label lang) }]
        aggs := [("some", .buckets (.filter (.node ⟨3, "c"⟩ lang)) [])]
        doc := .raw }
    let again : Search Json := { s with postFilters := [.node b.label title] }
    ∃ index t u, s.nodeIndex = .ok index ∧ index.contains a = true ∧ index.contains b = true ∧
      s.replaceNode ⟨b, title⟩ = .ok t ∧ s.replaceNode ⟨b, .matchAll⟩ = .ok u ∧
      u.replaceNode ⟨b, title⟩ = .ok t ∧
      t.query? (.agg 0 .filter) = some (.node ⟨3, "c"⟩ lang) ∧
      ∃ h, again.nodeIndex = .error (.duplicateHandle h) := by
  intro a b lang title s again
  obtain ⟨hlisted, -, -, -, hrewritten⟩ := index_covers_roots s
  obtain ⟨-, hrefused, hnamed, -, -⟩ := index_covers_roots again
  have hs : Distinct (nodesAll s.roots) := by decide
  have hindex : s.nodeIndex = .ok ⟨nodesAll s.roots⟩ := nodeIndex_eq_ok_iff.mpr ⟨hs, rfl⟩
  have hput : s.replaceNode ⟨b, title⟩ = .ok (s.replaced ⟨b, title⟩) :=
    replaceNode_eq_ok_iff.mpr ⟨hs, by decide, rfl⟩
  obtain ⟨-, hother, hkept, -⟩ := hrewritten _ _ hput
  have hinner : ∀ m, m ∉ (⟨b, .matchAll⟩ : Node).inner := fun m => List.not_mem_nil
  have hfits : s.Fits ⟨b, .matchAll⟩ :=
    ⟨.nil, fun m hm => absurd hm (hinner m), fun m hm => absurd hm (hinner m)⟩
  obtain ⟨u, hu, hut⟩ := hother .matchAll hfits
  have hrepeats : again.Repeats Slot.IsRoot b :=
    ⟨(.rescore 0, 0), (.postFilter 0, 0), _, _, nofun, trivial, trivial, rfl, rfl, rfl, rfl⟩
  obtain ⟨e, he⟩ := hrefused.mp ⟨b, hrepeats⟩
  obtain ⟨h, -, rfl⟩ := hnamed e he
  refine ⟨_, _, u, hindex, (hlisted _ hindex a).mpr ?_, (hlisted _ hindex b).mpr ?_, hput, hu, hut,
    hkept (.agg 0 .filter) not_false, h.name, he⟩
  · exact ⟨(.filter 0, 0), _, trivial, rfl, rfl⟩
  · exact ⟨(.rescore 0, 0), _, trivial, rfl, rfl⟩

/--
A node in the filter of a sort key is not in the index.  A handle in the main
query and in an aggregation is not refused, and after a rewrite the body has the
new value in its query and the old one in its aggregations.
-/
theorem index_misses_sorts_and_aggregations :
    let a : Handle := ⟨.query, ⟨1, "a"⟩⟩
    let b : Handle := ⟨.query, ⟨2, "b"⟩⟩
    let lang : Query := .leaf (.hasField "lang" none)
    let title : Query := .leaf (.hasField "title" none)
    let s : Search Json :=
      { query := some (.node a.label lang)
        sort := [{
          target := .score
          nested := [{ path := "tags", filter := some (.node b.label lang) }] }]
        aggs := [("some", .buckets (.filter (.node a.label lang)) [])]
        doc := .raw }
    (s.node? (.sort 0 0, 0) = some ⟨b, lang⟩ ∧ s.Repeats (fun _ => True) a) ∧
      ∃ index t, s.nodeIndex = .ok index ∧ index.contains b = false ∧
        s.replaceNode ⟨a, title⟩ = .ok t ∧ t.node? (.agg 0 .filter, 0) = some ⟨a, lang⟩ ∧
        ∀ f, ∃ o : Object, t.body f = .object o ∧ o.get? "query" = some (title.document f) ∧
          o.get? "aggs" = some (.object [("some", .object [("filter", lang.document f)])]) := by
  intro a b lang title s
  have hs : Distinct (nodesAll s.roots) := by decide
  have hrepeats : s.Repeats (fun _ => True) a :=
    ⟨(.query, 0), (.agg 0 .filter, 0), _, _, nofun, trivial, trivial, rfl, rfl, rfl, rfl⟩
  have hindex : s.nodeIndex = .ok ⟨nodesAll s.roots⟩ := nodeIndex_eq_ok_iff.mpr ⟨hs, rfl⟩
  have hput : s.replaceNode ⟨a, title⟩ = .ok (s.replaced ⟨a, title⟩) :=
    replaceNode_eq_ok_iff.mpr ⟨hs, by decide, rfl⟩
  refine ⟨⟨rfl, hrepeats⟩, _, _, hindex, rfl, hput, rfl, fun f => ?_⟩
  refine ⟨_, body_eq f _, ?_, ?_⟩
  · rw [Json.get?_present (nodup_keys_parts f _)]
    rfl
  · rw [Json.get?_present (nodup_keys_parts f _)]
    rfl

end Search

end SearchClient
