import SearchClient.Proofs.Aggs.Registry
import SearchClient.Proofs.Search.Slots

/-!
# One slot of a search

Every query of a search stands in a slot: one of its own, one of a nested level
of a sort key, or one of an aggregation at any depth.  The query of a slot can be
read and exchanged, and nothing that is written changes when the new query
reduces as the old one does.
-/

namespace SearchClient

section

variable {α β : Type} {xs : List α} {i : Nat} {g : α → α}

theorem map_modify_eq {f : α → β} (h : ∀ x, xs[i]? = some x → f (g x) = f x) :
    (xs.modify i g).map f = xs.map f := by
  refine List.ext_getElem? fun j => ?_
  rw [List.getElem?_map, List.getElem?_map, List.getElem?_modify]
  by_cases hij : i = j
  · subst hij
    cases hx : xs[i]? with
    | none => rfl
    | some x => simpa using h x hx
  · simp [hij]

theorem bind_getElem?_modify {look : α → Option β} {f : β → β}
    (h : ∀ x, look (g x) = (look x).map f) :
    (xs.modify i g)[i]?.bind look = (xs[i]?.bind look).map f := by
  rw [List.getElem?_modify_eq]
  cases xs[i]? with
  | none => rfl
  | some x => exact h x

theorem bind_getElem?_modify_of_same {look : α → Option β} {j : Nat}
    (h : j = i → ∀ x, look (g x) = look x) :
    (xs.modify i g)[j]?.bind look = xs[j]?.bind look := by
  rw [List.getElem?_modify]
  by_cases hij : i = j
  · cases xs[j]? with
    | none => rfl
    | some x => simpa [hij] using h hij.symm x
  · simp [hij]

end

namespace SortKey

def query? (s : SortKey) (level : Nat) : Option Query := s.nested[level]?.bind (·.filter)

def update (f : Query → Query) (level : Nat) (s : SortKey) : SortKey :=
  { s with nested := s.nested.modify level (NestedLevel.mapQuery f) }

end SortKey

namespace FilterSet

def query? (i : Nat) : FilterSet → Option Query
  | named filters => filters[i]?.bind fun (_, q) => some q
  | anonymous filters => filters[i]?.bind some

def update (f : Query → Query) (i : Nat) : FilterSet → FilterSet
  | named filters => named (filters.modify i fun (name, q) => (name, f q))
  | anonymous filters => anonymous (filters.modify i f)

end FilterSet

namespace Agg

variable {δ : Type}

inductive Slot where
  | background
  | filter
  | filters (i : Nat)
  | topHits (key level : Nat)
  | sub (i : Nat) (slot : Slot)

def query? : Slot → Agg δ → Option Query
  | .background, buckets (.significantTerms _ _ _ background) _ => background
  | .filter, buckets (.filter q) _ => some q
  | .filters i, buckets (.filters set _) _ => set.query? i
  | .topHits key level, metric (.topHits t) => t.sort[key]?.bind (·.query? level)
  | .sub i slot, buckets _ subs => subs[i]?.bind fun (_, agg) => agg.query? slot
  | _, _ => none

def update (f : Query → Query) : Slot → Agg δ → Agg δ
  | .background, buckets (.significantTerms value size minDocCount background) subs =>
      buckets (.significantTerms value size minDocCount (background.map f)) subs
  | .filter, buckets (.filter q) subs => buckets (.filter (f q)) subs
  | .filters i, buckets (.filters set otherKey) subs =>
      buckets (.filters (set.update f i) otherKey) subs
  | .topHits key level, metric (.topHits t) =>
      metric (.topHits { t with sort := t.sort.modify key (SortKey.update f level) })
  | .sub i slot, buckets b subs =>
      buckets b (subs.modify i fun (name, agg) => (name, agg.update f slot))
  | _, agg => agg

end Agg

namespace Search

variable {δ : Type}

/-- Where a query stands in a search. -/
inductive Slot where
  | query
  | filter (i : Nat)
  | postFilter (i : Nat)
  | rescore (i : Nat)
  | sort (key level : Nat)
  | agg (i : Nat) (slot : Agg.Slot)

def query? : Slot → Search δ → Option Query
  | .query, s => s.query
  | .filter i, s => s.filters[i]?.bind some
  | .postFilter i, s => s.postFilters[i]?.bind some
  | .rescore i, s => s.rescores[i]?.bind fun r => some r.query
  | .sort key level, s => s.sort[key]?.bind (·.query? level)
  | .agg i slot, s => s.aggs[i]?.bind fun (_, agg) => agg.query? slot

def update (f : Query → Query) : Slot → Search δ → Search δ
  | .query, s => { s with query := s.query.map f }
  | .filter i, s => { s with filters := s.filters.modify i f }
  | .postFilter i, s => { s with postFilters := s.postFilters.modify i f }
  | .rescore i, s => { s with rescores := s.rescores.modify i (Rescore.mapQuery f) }
  | .sort key level, s => { s with sort := s.sort.modify key (SortKey.update f level) }
  | .agg i slot, s =>
      { s with aggs := s.aggs.modify i fun (name, agg) => (name, agg.update f slot) }

end Search

/-! ## Laws of reading and exchanging -/

section Laws

variable {δ : Type} (f : Query → Query)

namespace SortKey

variable (s : SortKey)

theorem query?_update (level : Nat) :
    (s.update f level).query? level = (s.query? level).map f :=
  bind_getElem?_modify fun _ => rfl

theorem query?_update_of_ne {level level' : Nat} (h : level' ≠ level) :
    (s.update f level).query? level' = s.query? level' :=
  bind_getElem?_modify_of_same fun heq => absurd heq h

theorem sorted_query?_update (sort : List SortKey) (key level : Nat) :
    (sort.modify key (update f level))[key]?.bind (·.query? level) =
      (sort[key]?.bind (·.query? level)).map f :=
  bind_getElem?_modify fun s => s.query?_update f level

theorem sorted_query?_update_of_ne (sort : List SortKey) {key level key' level' : Nat}
    (h : key' = key → level' ≠ level) :
    (sort.modify key (update f level))[key']?.bind (·.query? level') =
      sort[key']?.bind (·.query? level') :=
  bind_getElem?_modify_of_same fun hkey s => s.query?_update_of_ne f (h hkey)

end SortKey

namespace FilterSet

theorem query?_update (set : FilterSet) (i : Nat) :
    (set.update f i).query? i = (set.query? i).map f := by
  cases set with
  | named filters => exact bind_getElem?_modify fun _ => rfl
  | anonymous filters => exact bind_getElem?_modify fun _ => rfl

theorem query?_update_of_ne (set : FilterSet) {i i' : Nat} (h : i' ≠ i) :
    (set.update f i).query? i' = set.query? i' := by
  cases set with
  | named filters => exact bind_getElem?_modify_of_same fun heq => absurd heq h
  | anonymous filters => exact bind_getElem?_modify_of_same fun heq => absurd heq h

end FilterSet

namespace Agg

theorem query?_update (p : Slot) (agg : Agg δ) :
    (agg.update f p).query? p = (agg.query? p).map f := by
  induction p generalizing agg with
  | background => cases agg with
    | metric m => cases m <;> rfl
    | buckets b subs => cases b <;> rfl
  | filter => cases agg with
    | metric m => cases m <;> rfl
    | buckets b subs => cases b <;> rfl
  | filters i => cases agg with
    | metric m => cases m <;> rfl
    | buckets b subs => cases b with
      | filters set otherKey => exact set.query?_update f i
      | _ => rfl
  | topHits key level => cases agg with
    | metric m => cases m with
      | topHits t => exact SortKey.sorted_query?_update f t.sort key level
      | _ => rfl
    | buckets b subs => cases b <;> rfl
  | sub i p ih => cases agg with
    | metric m => cases m <;> rfl
    | buckets b subs => exact bind_getElem?_modify fun entry => ih entry.2

theorem query?_update_of_ne {p p' : Slot} (h : p' ≠ p) (agg : Agg δ) :
    (agg.update f p).query? p' = agg.query? p' := by
  induction p generalizing agg p' with
  | background => cases agg with
    | metric m => rfl
    | buckets b subs => cases b with
      | significantTerms value size minDocCount background =>
          cases p' with
          | background => exact absurd rfl h
          | _ => rfl
      | _ => rfl
  | filter => cases agg with
    | metric m => rfl
    | buckets b subs => cases b with
      | filter q =>
          cases p' with
          | filter => exact absurd rfl h
          | _ => rfl
      | _ => rfl
  | filters i => cases agg with
    | metric m => rfl
    | buckets b subs => cases b with
      | filters set otherKey =>
          cases p' with
          | filters i' => exact set.query?_update_of_ne f fun heq => h (heq ▸ rfl)
          | _ => rfl
      | _ => rfl
  | topHits key level => cases agg with
    | metric m => cases m with
      | topHits t =>
          cases p' with
          | topHits key' level' =>
              refine SortKey.sorted_query?_update_of_ne f t.sort ?_
              rintro rfl rfl
              exact h rfl
          | _ => rfl
      | _ => rfl
    | buckets b subs => rfl
  | sub i p ih => cases agg with
    | metric m => rfl
    | buckets b subs => cases p' with
      | sub i' p' =>
          refine bind_getElem?_modify_of_same fun hi entry => ih ?_ entry.2
          rintro rfl
          exact h (hi ▸ rfl)
      | _ => cases b <;> rfl

end Agg

namespace Search

theorem query?_update (p : Slot) (s : Search δ) :
    (s.update f p).query? p = (s.query? p).map f := by
  cases p with
  | query => rfl
  | filter i => exact bind_getElem?_modify fun _ => rfl
  | postFilter i => exact bind_getElem?_modify fun _ => rfl
  | rescore i => exact bind_getElem?_modify fun _ => rfl
  | sort key level => exact SortKey.sorted_query?_update f s.sort key level
  | agg i p => exact bind_getElem?_modify fun entry => entry.2.query?_update f p

theorem query?_update_of_ne {p p' : Slot} (h : p' ≠ p) (s : Search δ) :
    (s.update f p).query? p' = s.query? p' := by
  cases p with
  | query => cases p' with
    | query => exact absurd rfl h
    | _ => rfl
  | filter i => cases p' with
    | filter i' => exact bind_getElem?_modify_of_same fun heq => absurd (heq ▸ rfl) h
    | _ => rfl
  | postFilter i => cases p' with
    | postFilter i' => exact bind_getElem?_modify_of_same fun heq => absurd (heq ▸ rfl) h
    | _ => rfl
  | rescore i => cases p' with
    | rescore i' => exact bind_getElem?_modify_of_same fun heq => absurd (heq ▸ rfl) h
    | _ => rfl
  | sort key level => cases p' with
    | sort key' level' =>
        refine SortKey.sorted_query?_update_of_ne f s.sort ?_
        rintro rfl rfl
        exact h rfl
    | _ => rfl
  | agg i p => cases p' with
    | agg i' p' =>
        refine bind_getElem?_modify_of_same fun hi entry => Agg.query?_update_of_ne f ?_ entry.2
        rintro rfl
        exact h (hi ▸ rfl)
    | _ => rfl

end Search

end Laws

/-! ## What is written for a slot -/

section Written

variable {δ : Type} {f : Query → Query} {φ : Features}

theorem reducedField_congr (name : String) {q q' : Option Query}
    (h : q >>= Query.reduce = q' >>= Query.reduce) :
    reducedField φ name q = reducedField φ name q' := by
  rw [reducedField, h, reducedField]

theorem bind_reduce_map {q : Option Query} (h : ∀ c, q = some c → (f c).reduce = c.reduce) :
    q.map f >>= Query.reduce = q >>= Query.reduce := by
  cases q with
  | none => rfl
  | some q => exact h q rfl

theorem reduceOrAll_congr {q q' : Query} (h : q.reduce = q'.reduce) :
    q.reduceOrAll = q'.reduceOrAll := by
  rw [Query.reduceOrAll, h, Query.reduceOrAll]

/-- A level is written with the levels inside it, so the change is followed down the list. -/
theorem nestedDocument?_update {level : Nat} {levels : List NestedLevel}
    (h : ∀ q, levels[level]?.bind (·.filter) = some q → (f q).reduce = q.reduce) :
    nestedDocument? φ (levels.modify level (NestedLevel.mapQuery f)) =
      nestedDocument? φ levels := by
  induction levels generalizing level with
  | nil => rw [List.modify_nil]
  | cons outer inner ih =>
      cases level with
      | zero =>
          have houter : reducedField φ "filter" (outer.filter.map f) =
              reducedField φ "filter" outer.filter :=
            reducedField_congr _ (bind_reduce_map h)
          rw [List.modify_zero_cons, nestedDocument?, nestedDocument?, NestedLevel.mapQuery, houter]
      | succ level =>
          rw [List.modify_succ_cons, nestedDocument?, nestedDocument?, ih h]

theorem SortKey.document_update {level : Nat} {s : SortKey}
    (h : ∀ q, s.query? level = some q → (f q).reduce = q.reduce) :
    (s.update f level).document φ = s.document φ := by
  have hoptions : (s.update f level).options φ = s.options φ := by
    rw [options, options, update, nestedDocument?_update h]
  simp only [document, hoptions]
  rfl

theorem SortKey.documents_update {sort : List SortKey} {key level : Nat}
    (h : ∀ q, sort[key]?.bind (·.query? level) = some q → (f q).reduce = q.reduce) :
    (sort.modify key (update f level)).map (document φ) = sort.map (document φ) :=
  map_modify_eq fun _ hs => document_update fun q hq => h q (by rw [hs]; exact hq)

theorem FilterSet.document_update {i : Nat} {set : FilterSet}
    (h : ∀ q, set.query? i = some q → (f q).reduce = q.reduce) :
    (set.update f i).document φ = set.document φ := by
  have hreduced (q : Query) (hq : (f q).reduce = q.reduce) :
      reducedDocument φ (f q) = reducedDocument φ q := by
    rw [reducedDocument, reduceOrAll_congr hq, reducedDocument]
  cases set with
  | named filters =>
      refine congrArg (fun entries => Json.object (Entries.setAll [] entries)) ?_
      refine map_modify_eq fun entry hentry => ?_
      exact congrArg (Prod.mk entry.1) (hreduced _ (h _ (by rw [query?, hentry]; rfl)))
  | anonymous filters =>
      refine congrArg Json.array (map_modify_eq fun q hq => hreduced q (h q ?_))
      rw [query?, hq]
      rfl

theorem Agg.documents_modify {subs : List (String × Agg δ)} {i : Nat} {g : Agg δ → Agg δ}
    (h : ∀ entry, subs[i]? = some entry → (g entry.2).document φ = entry.2.document φ) :
    documents φ (subs.modify i fun (name, agg) => (name, g agg)) = documents φ subs := by
  rw [documents_eq_map, documents_eq_map]
  refine map_modify_eq fun entry hentry => ?_
  exact congrArg (fun fields => (entry.1, Json.object fields)) (h entry hentry)

theorem Agg.document_update {p : Agg.Slot} {agg : Agg δ}
    (h : ∀ q, agg.query? p = some q → (f q).reduce = q.reduce) :
    (agg.update f p).document φ = agg.document φ := by
  induction p generalizing agg with
  | background => cases agg with
    | metric m => rfl
    | buckets b subs => cases b with
      | significantTerms value size minDocCount background =>
          have hbackground : reducedField φ "background_filter" (background.map f) =
              reducedField φ "background_filter" background :=
            reducedField_congr _ (bind_reduce_map h)
          simp only [update, document, Bucketing.name, Bucketing.body, hbackground]
      | _ => rfl
  | filter => cases agg with
    | metric m => rfl
    | buckets b subs => cases b with
      | filter q =>
          simp only [update, document, Bucketing.name, Bucketing.body, reduceOrAll_congr (h q rfl)]
      | _ => rfl
  | filters i => cases agg with
    | metric m => rfl
    | buckets b subs => cases b with
      | filters set otherKey =>
          simp only [update, document, Bucketing.name, Bucketing.body, FilterSet.document_update h]
      | _ => rfl
  | topHits key level => cases agg with
    | metric m => cases m with
      | topHits t =>
          simp only [update, document, Metric.name, Metric.body, SortKey.documents_update h]
      | _ => rfl
    | buckets b subs => rfl
  | sub i p ih => cases agg with
    | metric m => rfl
    | buckets b subs =>
        have hsubs := documents_modify (g := update f p) fun entry hentry =>
          ih fun q hq => h q (by rw [query?, hentry]; exact hq)
        simp only [update, document, hsubs]

theorem Query.reduceAll_congr {qs rs : List Query} (h : qs.map reduce = rs.map reduce) :
    reduceAll qs = reduceAll rs := by
  have hmap (l : List Query) : l.filterMap reduce = (l.map reduce).filterMap id := by
    rw [List.filterMap_map]
    rfl
  rw [reduceAll_eq_filterMap, reduceAll_eq_filterMap, hmap, h, ← hmap]

theorem reduce_clauses_congr {must filters filters' : List Query}
    (h : filters.map Query.reduce = filters'.map Query.reduce) :
    (Query.bool none { must, filter := filters }).reduce =
      (Query.bool none { must, filter := filters' }).reduce := by
  simp only [Query.reduce, Query.reduceAll_congr h]

namespace Search

variable {s t : Search δ}

/-- Of the filters only their number and their reductions matter. -/
theorem filteredQuery_congr (hquery : s.query >>= Query.reduce = t.query >>= Query.reduce)
    (hfilters : s.filters.map Query.reduce = t.filters.map Query.reduce) :
    s.filteredQuery = t.filteredQuery := by
  unfold filteredQuery
  rw [hquery]
  generalize t.query >>= Query.reduce = query
  generalize s.filters = filters, t.filters = filters' at hfilters
  match filters, filters', hfilters with
  | [], [], _ => rfl
  | [a], [b], h =>
      cases query with
      | none => exact (List.cons.inj h).1
      | some q => exact reduce_clauses_congr h
  | a :: a' :: as, b :: b' :: bs, h => cases query <;> exact reduce_clauses_congr h
  | [a], b :: b' :: bs, h => simp at h
  | a :: a' :: as, [b], h => simp at h

theorem postFilter_congr (h : s.postFilters.map Query.reduce = t.postFilters.map Query.reduce) :
    s.postFilter = t.postFilter := by
  unfold postFilter
  generalize s.postFilters = filters, t.postFilters = filters' at h
  match filters, filters', h with
  | [], [], _ => rfl
  | [a], [b], h => exact (List.cons.inj h).1
  | a :: a' :: as, b :: b' :: bs, h => exact reduce_clauses_congr h
  | [a], b :: b' :: bs, h => simp at h
  | a :: a' :: as, [b], h => simp at h

theorem filteredQuery_update {p : Slot}
    (h : ∀ q, s.query? p = some q → (f q).reduce = q.reduce) :
    (s.update f p).filteredQuery = s.filteredQuery := by
  cases p with
  | query => exact filteredQuery_congr (bind_reduce_map h) rfl
  | filter i =>
      exact filteredQuery_congr rfl (map_modify_eq fun q hq => h q (by rw [query?, hq]; rfl))
  | _ => rfl

theorem body_update {p : Slot} (h : ∀ q, s.query? p = some q → (f q).reduce = q.reduce)
    (φ : Features) : (s.update f p).body φ = s.body φ := by
  have hmain := filteredQuery_update h
  rw [body, body, queryField, queryField, hmain]
  cases p with
  | query => rfl
  | filter i => rfl
  | postFilter i =>
      have hpost : (s.update f (.postFilter i)).postFilter = s.postFilter :=
        postFilter_congr (map_modify_eq fun q hq => h q (by rw [query?, hq]; rfl))
      rw [hpost]
      rfl
  | rescore i =>
      have hrescores : (s.update f (.rescore i)).rescores.map (Rescore.document φ) =
          s.rescores.map (Rescore.document φ) := by
        refine map_modify_eq fun r hr => ?_
        have hr := reduceOrAll_congr (h r.query (by rw [query?, hr]; rfl))
        simp only [Rescore.document, Rescore.mapQuery, hr]
      rw [hrescores]
      rfl
  | sort key level =>
      have hsort : (s.update f (.sort key level)).sort.map (SortKey.document φ) =
          s.sort.map (SortKey.document φ) := SortKey.documents_update h
      rw [hsort]
      rfl
  | agg i p =>
      have haggs : Agg.documents φ (s.update f (.agg i p)).aggs = Agg.documents φ s.aggs :=
        Agg.documents_modify fun entry hentry =>
          Agg.document_update fun q hq => h q (by rw [query?, hentry]; exact hq)
      rw [haggs]
      rfl

theorem countBody_update {p : Slot} (h : ∀ q, s.query? p = some q → (f q).reduce = q.reduce)
    (φ : Features) : (s.update f p).countBody φ = s.countBody φ := by
  rw [countBody, countBody, queryField, queryField, filteredQuery_update h]

end Search

end Written

end SearchClient
