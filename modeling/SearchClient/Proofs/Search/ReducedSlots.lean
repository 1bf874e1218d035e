import SearchClient.Proofs.Query.Redexes
import SearchClient.Proofs.Search.OneSlot

/-!
# Slots are written reduced

Every slot of a search is written through reduction, wherever it stands.  So the
reduction of a query may take its place without a trace, and what stands in the
slots of a body is normal: it holds nothing that reduction would have removed,
at no depth, besides what the bodies of raw queries hold.
-/

namespace SearchClient

open Json (Object Part Redex field items objectUnder present)
open Query (Within)

namespace Json

inductive NestedFilter : Json → Json → Prop where
  | here {o : Object} {d : Json} (h : o.get? "filter" = some d) : NestedFilter (.object o) d
  | inner {o : Object} {n d : Json} (hn : o.get? "nested" = some n) (h : NestedFilter n d) :
      NestedFilter (.object o) d

inductive SortFilter : Json → Json → Prop where
  | intro {name : String} {options : Object} {n d : Json} (hn : options.get? "nested" = some n)
      (h : NestedFilter n d) : SortFilter (.object (objectUnder name options)) d

inductive AggQuery : Json → Json → Prop where
  | filter {o : Object} {d : Json} (h : o.get? "filter" = some d) : AggQuery (.object o) d
  | named {o b filters : Object} {name : String} {d : Json}
      (hb : o.get? "filters" = some (.object b))
      (hfilters : b.get? "filters" = some (.object filters)) (h : (name, d) ∈ filters) :
      AggQuery (.object o) d
  | anonymous {o b : Object} {d : Json} (hb : o.get? "filters" = some (.object b))
      (h : d ∈ items b "filters") : AggQuery (.object o) d
  | background {o b : Object} {d : Json} (hb : o.get? "significant_terms" = some (.object b))
      (h : b.get? "background_filter" = some d) : AggQuery (.object o) d
  | topHits {o b : Object} {key d : Json} (hb : o.get? "top_hits" = some (.object b))
      (hkey : key ∈ items b "sort") (h : SortFilter key d) : AggQuery (.object o) d
  | sub {o subs : Object} {name : String} {agg d : Json}
      (hsubs : o.get? "aggs" = some (.object subs)) (hagg : (name, agg) ∈ subs)
      (h : AggQuery agg d) : AggQuery (.object o) d

/-- The queries in the slots of a body. -/
inductive SlotQuery : Json → Json → Prop where
  | query {o : Object} {d : Json} (h : o.get? "query" = some d) : SlotQuery (.object o) d
  | postFilter {o : Object} {d : Json} (h : o.get? "post_filter" = some d) :
      SlotQuery (.object o) d
  | rescore {o r q : Object} {d : Json} (hr : .object r ∈ items o "rescore")
      (hq : r.get? "query" = some (.object q)) (h : q.get? "rescore_query" = some d) :
      SlotQuery (.object o) d
  | sort {o : Object} {key d : Json} (hkey : key ∈ items o "sort") (h : SortFilter key d) :
      SlotQuery (.object o) d
  | agg {o aggs : Object} {name : String} {agg d : Json}
      (haggs : o.get? "aggs" = some (.object aggs)) (hagg : (name, agg) ∈ aggs)
      (h : AggQuery agg d) : SlotQuery (.object o) d

end Json

open Json (AggQuery NestedFilter SlotQuery SortFilter)

/-! ## What is written in a slot -/

theorem exists_bind_getElem? {α β : Type} {xs : List α} {x : α} {look : α → Option β} {b : β}
    (hx : x ∈ xs) (h : look x = some b) : ∃ i : Nat, xs[i]?.bind look = some b := by
  obtain ⟨i, hi⟩ := List.mem_iff_getElem?.mp hx
  exact ⟨i, by rw [hi]; exact h⟩

namespace Query

theorem reduceOrAll_of_reduce {q r : Query} (h : q.reduce = some r) : q.reduceOrAll = r := by
  rw [reduceOrAll, h]
  rfl

theorem normal_reduceOrAll (q : Query) : q.reduceOrAll.Normal := by
  rw [reduceOrAll]
  cases h : q.reduce with
  | none => exact normal_leaf _
  | some r => exact normal_of_reduce h

end Query

section

variable {f : Features}

theorem exists_of_reduced {q : Option Query} {d : Json}
    (h : (q >>= Query.reduce).map (Query.document f) = some d) :
    ∃ c, q = some c ∧ d = c.reduceOrAll.document f := by
  obtain ⟨r, hr, rfl⟩ := Option.map_eq_some_iff.mp h
  obtain ⟨c, hc, hr⟩ := Option.bind_eq_some_iff.mp hr
  exact ⟨c, hc, by rw [Query.reduceOrAll_of_reduce hr]⟩

def NestedLevel.parts (f : Features) (level : NestedLevel) (inner : List NestedLevel) :
    List (String × Option Json) :=
  [("path", some (.string level.path)),
    ("filter", (level.filter >>= Query.reduce).map (Query.document f)),
    ("max_children", level.maxChildren.map fun n : Nat => .int n),
    ("nested", nestedDocument? f inner)]

theorem nestedDocument?_cons (level : NestedLevel) (inner : List NestedLevel) :
    nestedDocument? f (level :: inner) = some (.object (present (level.parts f inner))) := by
  simp only [nestedDocument?, reducedField, Json.field_eq_present, Json.field?_eq_present,
    Json.natField_eq_present, ← Json.present_append]
  rfl

theorem exists_of_nestedFilter {levels : List NestedLevel} {n d : Json}
    (hn : nestedDocument? f levels = some n) (h : NestedFilter n d) :
    ∃ (level : Nat) (q : Query), levels[level]?.bind (·.filter) = some q ∧
      d = q.reduceOrAll.document f := by
  induction levels generalizing n with
  | nil => cases hn
  | cons outer inner ih =>
      rw [nestedDocument?_cons] at hn
      have hdistinct : (Entries.keys (outer.parts f inner)).Nodup := by simp [NestedLevel.parts]
      cases hn
      cases h with
      | here h =>
          rw [Json.get?_present hdistinct] at h
          obtain ⟨q, hq, rfl⟩ := exists_of_reduced h
          exact ⟨0, q, hq, rfl⟩
      | inner hn h =>
          rw [Json.get?_present hdistinct] at hn
          obtain ⟨level, q, hq, rfl⟩ := ih hn h
          exact ⟨level + 1, q, hq, rfl⟩

namespace SortKey

def parts (f : Features) (s : SortKey) : List (String × Option Json) :=
  [("order", (s.order.map (·.text)).map .string), ("mode", (s.mode.map (·.text)).map .string),
    ("numeric_type", s.numericType.map .string), ("missing", s.missing.map MissingOrder.document),
    ("unmapped_type", s.unmappedType.map .string), ("nested", nestedDocument? f s.nested)]

theorem options_eq (s : SortKey) : s.options f = present (s.parts f) := by
  simp only [options, Json.stringField, Json.field?_eq_present, ← Json.present_append]
  rfl

theorem get?_nested_options (s : SortKey) :
    (s.options f).get? "nested" = nestedDocument? f s.nested := by
  rw [options_eq, Json.get?_present (by simp [parts])]
  rfl

theorem document_cases (s : SortKey) :
    (∃ name, s.document f = .string name) ∨
      ∃ name o, s.document f = .object (objectUnder name o) ∧
        Entries.get? o "nested" = nestedDocument? f s.nested := by
  obtain ⟨target, order, mode, numericType, missing, unmappedType, nested⟩ := s
  cases target with
  | script script type =>
      refine .inr ⟨_, _, rfl, ?_⟩
      rw [Entries.get?_append]
      exact get?_nested_options _
  | _ =>
      rw [document]
      dsimp only
      split
      · exact .inl ⟨_, rfl⟩
      · exact .inr ⟨_, _, rfl, get?_nested_options _⟩

theorem exists_of_sortFilter {s : SortKey} {d : Json} (h : SortFilter (s.document f) d) :
    ∃ level q, s.query? level = some q ∧ d = q.reduceOrAll.document f := by
  rcases s.document_cases with ⟨name, hname⟩ | ⟨name, o, ho, hnested⟩
  · rw [hname] at h
    cases h
  · rw [ho] at h
    generalize he : Json.object (objectUnder name o) = e at h
    cases h with
    | intro hn h =>
        obtain ⟨rfl, rfl⟩ := Json.objectUnder_inj.mp he
        exact exists_of_nestedFilter (hnested ▸ hn) h

theorem exists_of_mem_sort {sort : List SortKey} {key d : Json}
    (hkey : key ∈ sort.map (document f)) (h : SortFilter key d) :
    ∃ (i level : Nat) (q : Query), sort[i]?.bind (·.query? level) = some q ∧
      d = q.reduceOrAll.document f := by
  obtain ⟨s, hs, rfl⟩ := List.mem_map.mp hkey
  obtain ⟨level, q, hq, rfl⟩ := exists_of_sortFilter h
  obtain ⟨i, hi⟩ : ∃ i : Nat, sort[i]?.bind (·.query? level) = some q := exists_bind_getElem? hs hq
  exact ⟨i, level, q, hi, rfl⟩

end SortKey

theorem Entries.mem_of_mem_setAll {α : Type} {entries : Entries α} {name : String} {a : α}
    (h : (name, a) ∈ setAll [] entries) : (name, a) ∈ entries := by
  have hget := get?_of_mem (nodup_keys_setAll entries) h
  rw [get?_setAll] at hget
  exact List.mem_reverse.mp (mem_of_get? hget)

namespace FilterSet

variable {set : FilterSet} {d : Json}

theorem exists_of_mem_named {filters : Object} {name : String}
    (hset : set.document f = .object filters) (hd : (name, d) ∈ filters) :
    ∃ i q, set.query? i = some q ∧ d = q.reduceOrAll.document f := by
  cases set with
  | named qs =>
      cases hset
      obtain ⟨⟨name, q⟩, hq, heq⟩ := List.mem_map.mp (Entries.mem_of_mem_setAll hd)
      cases heq
      obtain ⟨i, hi⟩ : ∃ i, (named qs).query? i = some q := exists_bind_getElem? hq rfl
      exact ⟨i, q, hi, rfl⟩
  | anonymous qs => cases hset

theorem exists_of_mem_anonymous {ds : List Json} (hset : set.document f = .array ds)
    (hd : d ∈ ds) : ∃ i q, set.query? i = some q ∧ d = q.reduceOrAll.document f := by
  cases set with
  | named qs => cases hset
  | anonymous qs =>
      cases hset
      obtain ⟨q, hq, rfl⟩ := List.mem_map.mp hd
      obtain ⟨i, hi⟩ := exists_bind_getElem? hq rfl
      exact ⟨i, q, hi, rfl⟩

end FilterSet

namespace Agg

variable {δ : Type} {agg : Agg δ}

def parts (f : Features) : Agg δ → List (String × Option Json)
  | metric m => [(m.name, some (.object (m.body f)))]
  | buckets b subs => [(b.name, some (.object (b.body f))), ("aggs", objectPart (documents f subs))]

theorem document_eq (agg : Agg δ) : agg.document f = present (agg.parts f) := by
  cases agg with
  | metric m => rfl
  | buckets b subs =>
      rw [document, Json.objectField_eq_present]
      rfl

theorem get?_document (agg : Agg δ) (name : String) :
    (agg.document f).get? name = (Entries.get? (agg.parts f) name).join := by
  rw [document_eq, Json.get?_present]
  cases agg with
  | metric m => simp [parts]
  | buckets b subs => cases b <;> simp [parts, Bucketing.name]

theorem exists_of_get? {name : String} {d : Json} (h : (agg.document f).get? name = some d)
    (hname : name ≠ "aggs") :
    (∃ m, agg = metric m ∧ m.name = name ∧ d = .object (m.body f)) ∨
      ∃ b subs, agg = buckets b subs ∧ b.name = name ∧ d = .object (b.body f) := by
  rw [get?_document] at h
  cases agg with
  | metric m =>
      rw [parts, Entries.get?_cons] at h
      split_ifs at h with heq
      · exact .inl ⟨m, rfl, heq.symm, (Option.some.inj h).symm⟩
      · cases h
  | buckets b subs =>
      rw [parts, Entries.get?_cons] at h
      split_ifs at h with heq
      · exact .inr ⟨b, subs, rfl, heq.symm, (Option.some.inj h).symm⟩
      · rw [Entries.get?_cons, if_neg hname] at h
        cases h

theorem exists_of_get?_aggs {o : Object} (h : (agg.document f).get? "aggs" = some (.object o)) :
    ∃ b subs, agg = buckets b subs ∧ o = documents f subs := by
  rw [get?_document] at h
  cases agg with
  | metric m =>
      cases m with
      | single metric source =>
          cases metric <;> simp [parts, Metric.name, SingleMetric.text, Entries.get?_cons] at h
      | _ => simp [parts, Metric.name, Entries.get?_cons] at h
  | buckets b subs =>
      have hobject : objectPart (documents f subs) = some (.object o) := by
        cases b <;> simpa [parts, Bucketing.name, Entries.get?_cons] using h
      unfold objectPart at hobject
      split_ifs at hobject
      cases hobject
      exact ⟨b, subs, rfl, rfl⟩

theorem metric_name_ne (m : Metric δ) :
    m.name ≠ "filter" ∧ m.name ≠ "filters" ∧ m.name ≠ "significant_terms" := by
  cases m with
  | single metric source => cases metric <;> simp [Metric.name, SingleMetric.text]
  | _ => simp [Metric.name]

theorem get?_filters (set : FilterSet) (otherKey : Option String) :
    ((Bucketing.filters set otherKey).body f).get? "filters" = some (set.document f) := rfl

theorem get?_background (value : AggValue) (size minDocCount : Option Nat)
    (background : Option Query) :
    ((Bucketing.significantTerms value size minDocCount background).body f).get?
        "background_filter" =
      (background >>= Query.reduce).map (Query.document f) := by
  have hvalue : value.document.get? "background_filter" = none := by
    obtain ⟨type, origin⟩ := value
    cases origin <;> rfl
  rw [Bucketing.body, reducedField, Json.field?_eq_present, Json.natField_eq_present,
    Json.natField_eq_present, List.append_assoc, List.append_assoc, Entries.get?_append, hvalue,
    ← Json.present_append, ← Json.present_append, Json.get?_present (by simp)]
  rfl

theorem items_sort (t : TopHits δ) :
    items ((Metric.topHits t).body f) "sort" = t.sort.map (SortKey.document f) := by
  rw [Metric.body, Json.natField_eq_present, Json.natField_eq_present, Json.listField_eq_present,
    Json.field?_eq_present, ← Json.present_append, ← Json.present_append, ← Json.present_append]
  exact Json.items_present (by simp) rfl

theorem exists_of_aggQuery {d : Json} (h : AggQuery (.object (agg.document f)) d) :
    ∃ slot q, agg.query? slot = some q ∧ d = q.reduceOrAll.document f := by
  generalize he : Json.object (agg.document f) = e at h
  induction h generalizing agg with
  | filter hd =>
      cases he
      rcases exists_of_get? hd (by decide) with ⟨m, -, hm, -⟩ | ⟨b, subs, rfl, hb, rfl⟩
      · exact absurd hm (metric_name_ne m).1
      · cases b with
        | filter q => exact ⟨.filter, q, rfl, rfl⟩
        | _ => simp [Bucketing.name] at hb
  | named hb hfilters hd =>
      cases he
      rcases exists_of_get? hb (by decide) with ⟨m, -, hm, -⟩ | ⟨b, subs, rfl, hb, hbody⟩
      · exact absurd hm (metric_name_ne m).2.1
      · cases b with
        | filters set otherKey =>
            cases hbody
            rw [get?_filters, Option.some.injEq] at hfilters
            obtain ⟨i, q, hq, rfl⟩ := FilterSet.exists_of_mem_named hfilters hd
            exact ⟨.filters i, q, hq, rfl⟩
        | _ => simp [Bucketing.name] at hb
  | anonymous hb hd =>
      cases he
      rcases exists_of_get? hb (by decide) with ⟨m, -, hm, -⟩ | ⟨b, subs, rfl, hb, hbody⟩
      · exact absurd hm (metric_name_ne m).2.1
      · cases b with
        | filters set otherKey =>
            cases hbody
            rw [items, get?_filters] at hd
            split at hd
            · rename_i ds hset
              obtain ⟨i, q, hq, rfl⟩ :=
                FilterSet.exists_of_mem_anonymous (Option.some.inj hset) hd
              exact ⟨.filters i, q, hq, rfl⟩
            · cases hd
        | _ => simp [Bucketing.name] at hb
  | background hb hd =>
      cases he
      rcases exists_of_get? hb (by decide) with ⟨m, -, hm, -⟩ | ⟨b, subs, rfl, hb, hbody⟩
      · exact absurd hm (metric_name_ne m).2.2
      · cases b with
        | significantTerms value size minDocCount background =>
            cases hbody
            rw [get?_background] at hd
            obtain ⟨q, hq, rfl⟩ := exists_of_reduced hd
            exact ⟨.background, q, hq, rfl⟩
        | _ => simp [Bucketing.name] at hb
  | topHits hb hkey hd =>
      cases he
      rcases exists_of_get? hb (by decide) with ⟨m, rfl, hm, hbody⟩ | ⟨b, subs, -, hb, -⟩
      · cases m with
        | topHits t =>
            cases hbody
            rw [items_sort] at hkey
            obtain ⟨i, level, q, hq, rfl⟩ := SortKey.exists_of_mem_sort hkey hd
            exact ⟨.topHits i level, q, hq, rfl⟩
        | single metric source => cases metric <;> simp [Metric.name, SingleMetric.text] at hm
        | _ => simp [Metric.name] at hm
      · cases b <;> simp [Bucketing.name] at hb
  | sub hsubs hagg hd ih =>
      cases he
      obtain ⟨b, subs, rfl, rfl⟩ := exists_of_get?_aggs hsubs
      rw [documents_eq_map] at hagg
      obtain ⟨⟨name, sub⟩, hsub, heq⟩ := List.mem_map.mp hagg
      cases heq
      obtain ⟨slot, q, hq, rfl⟩ := ih rfl
      obtain ⟨i, hi⟩ : ∃ i, (buckets b subs).query? (.sub i slot) = some q :=
        exists_bind_getElem? hsub hq
      exact ⟨.sub i slot, q, hi, rfl⟩

end Agg

theorem Rescore.eq_of_get? {r : Rescore} {o q : Object} {d : Json} (hr : r.document f = .object o)
    (hq : o.get? "query" = some (.object q)) (hd : q.get? "rescore_query" = some d) :
    d = r.query.reduceOrAll.document f := by
  obtain ⟨query, windowSize, queryWeight, rescoreQueryWeight, mode⟩ := r
  cases hr
  cases windowSize <;> (cases hq; cases hd; rfl)

end

/-! ## The queries of a search and those of its bodies -/

namespace Query

/-- A raw query is not a combination, so inside one it stands in a member. -/
theorem Within.exists_child {p q : Query} (h : Within p q) (hraw : p.IsRaw) (hq : ¬ q.IsRaw) :
    ∃ c ∈ q.children, Within p c := by
  rcases Relation.ReflTransGen.cases_head h with rfl | ⟨c, hc, hp⟩
  · exact absurd hraw hq
  · exact ⟨c, hc, hp⟩

theorem not_within_matchAll {p : Query} (hraw : p.IsRaw) : ¬ Within p matchAll := by
  intro h
  obtain ⟨c, hc, -⟩ := h.exists_child hraw (by simp [IsRaw, matchAll])
  cases hc

end Query

namespace Search

variable {δ : Type} {f : Features} {s : Search δ} {slot : Slot} {q r : Query} {d : Json}

/-- A query in a slot of the search, or one that stands in such a query at any depth. -/
def Holds (s : Search δ) (p : Query) : Prop := ∃ slot q, s.query? slot = some q ∧ Within p q

/-- A normal query whose raw queries are the search's. -/
structure Reduced (s : Search δ) (r : Query) : Prop where
  normal : r.Normal
  raw : ∀ p, Within p r → p.IsRaw → s.Holds p

theorem reduced_of_reduce (hq : s.query? slot = some q) (h : q.reduce = some r) : s.Reduced r where
  normal := Query.normal_of_reduce h
  raw _ hp hraw := ⟨slot, q, hq, Query.within_of_reduce h hp hraw⟩

theorem reduced_reduceOrAll (hq : s.query? slot = some q) : s.Reduced q.reduceOrAll := by
  refine ⟨q.normal_reduceOrAll, fun p hp hraw => ?_⟩
  cases h : q.reduce with
  | none =>
      rw [Query.reduceOrAll, h] at hp
      exact absurd hp (Query.not_within_matchAll hraw)
  | some r =>
      rw [Query.reduceOrAll_of_reduce h] at hp
      exact (reduced_of_reduce hq h).raw p hp hraw

theorem reduced_of_clauses {c : BoolClauses Query}
    (hc : ∀ x ∈ (Query.bool none c).children, ∀ p, Within p x → p.IsRaw → s.Holds p)
    (h : (Query.bool none c).reduce = some r) : s.Reduced r := by
  refine ⟨Query.normal_of_reduce h, fun p hp hraw => ?_⟩
  obtain ⟨x, hx, hp⟩ :=
    (Query.within_of_reduce h hp hraw).exists_child hraw (by simp [Query.IsRaw])
  exact hc x hx p hp hraw

theorem holds_of_mem_filters {p : Query} (hq : q ∈ s.filters) (hp : Within p q) : s.Holds p := by
  obtain ⟨i, hi⟩ := exists_bind_getElem? hq rfl
  exact ⟨.filter i, q, hi, hp⟩

theorem holds_of_mem_postFilters {p : Query} (hq : q ∈ s.postFilters) (hp : Within p q) :
    s.Holds p := by
  obtain ⟨i, hi⟩ := exists_bind_getElem? hq rfl
  exact ⟨.postFilter i, q, hi, hp⟩

theorem reduced_of_filteredQuery (h : s.filteredQuery = some r) : s.Reduced r := by
  have hmain {r : Query} (hr : s.query >>= Query.reduce = some r) : s.Reduced r := by
    obtain ⟨q, hq, hr⟩ := Option.bind_eq_some_iff.mp hr
    have hslot : s.query? .query = some q := hq
    exact reduced_of_reduce hslot hr
  unfold filteredQuery at h
  split at h
  · exact hmain h
  · rename_i single hquery hfilters
    have hslot : s.query? (.filter 0) = some single := by
      rw [query?, hfilters]
      rfl
    exact reduced_of_reduce hslot h
  · refine reduced_of_clauses (fun x hx p hp hraw => ?_) h
    simp only [Query.children, List.append_nil, List.mem_append, Option.mem_toList] at hx
    rcases hx with hfilter | hmust
    · exact holds_of_mem_filters hfilter hp
    · exact (hmain hmust).raw p hp hraw

theorem reduced_of_postFilter (h : s.postFilter = some r) : s.Reduced r := by
  unfold postFilter at h
  split at h
  · cases h
  · rename_i single hfilters
    have hslot : s.query? (.postFilter 0) = some single := by
      rw [query?, hfilters]
      rfl
    exact reduced_of_reduce hslot h
  · refine reduced_of_clauses (fun x hx p hp hraw => ?_) h
    simp only [Query.children, List.append_nil] at hx
    exact holds_of_mem_postFilters hx hp

theorem exists_reduced_of_body (h : SlotQuery (s.body f) d) :
    ∃ r, s.Reduced r ∧ d = r.document f := by
  rw [body_eq] at h
  have hget := Json.get?_present (s.nodup_keys_parts f)
  cases h with
  | query hd =>
      rw [hget] at hd
      obtain ⟨r, hr, rfl⟩ := Option.map_eq_some_iff.mp hd
      exact ⟨r, reduced_of_filteredQuery hr, rfl⟩
  | postFilter hd =>
      rw [hget] at hd
      obtain ⟨r, hr, rfl⟩ := Option.map_eq_some_iff.mp hd
      exact ⟨r, reduced_of_postFilter hr, rfl⟩
  | rescore hr hq hd =>
      rw [Json.items_present (s.nodup_keys_parts f) rfl] at hr
      obtain ⟨r, hmem, hr⟩ := List.mem_map.mp hr
      obtain ⟨i, hslot⟩ : ∃ i, s.query? (.rescore i) = some r.query :=
        exists_bind_getElem? hmem rfl
      exact ⟨_, reduced_reduceOrAll hslot, Rescore.eq_of_get? hr hq hd⟩
  | sort hkey hd =>
      rw [Json.items_present (s.nodup_keys_parts f) rfl] at hkey
      obtain ⟨i, level, q, hq, rfl⟩ := SortKey.exists_of_mem_sort hkey hd
      have hslot : s.query? (.sort i level) = some q := hq
      exact ⟨_, reduced_reduceOrAll hslot, rfl⟩
  | agg haggs hagg hd =>
      rw [hget] at haggs
      have hpart : objectPart (Agg.documents f s.aggs) = some (.object _) := haggs
      unfold objectPart at hpart
      split_ifs at hpart
      cases hpart
      rw [Agg.documents_eq_map] at hagg
      obtain ⟨⟨name, agg⟩, hmem, heq⟩ := List.mem_map.mp hagg
      cases heq
      obtain ⟨slot, q, hq, rfl⟩ := Agg.exists_of_aggQuery hd
      obtain ⟨i, hslot⟩ : ∃ i, s.query? (.agg i slot) = some q := exists_bind_getElem? hmem hq
      exact ⟨_, reduced_reduceOrAll hslot, rfl⟩

theorem countBody_eq_present (f : Features) (s : Search δ) :
    s.countBody f =
      .object (present [("query", s.filteredQuery.map (Query.document f))]) := by
  rw [countBody, queryField, Json.field?_eq_present]

theorem exists_reduced_of_countBody (h : SlotQuery (s.countBody f) d) :
    ∃ r, s.Reduced r ∧ d = r.document f := by
  rw [countBody_eq_present] at h
  have hdistinct : (Entries.keys
      [("query", s.filteredQuery.map (Query.document f))]).Nodup := by simp
  have hget := Json.get?_present hdistinct
  cases h with
  | query hd =>
      rw [hget] at hd
      obtain ⟨r, hr, rfl⟩ := Option.map_eq_some_iff.mp hd
      exact ⟨r, reduced_of_filteredQuery hr, rfl⟩
  | postFilter hd =>
      rw [hget] at hd
      cases hd
  | rescore hr =>
      rw [items, hget] at hr
      cases hr
  | sort hkey =>
      rw [items, hget] at hkey
      cases hkey
  | agg haggs =>
      rw [hget] at haggs
      cases haggs

/--
The reduction of a query takes its place in any slot and nothing that is written
changes.  A query in a slot of a body, and each query inside it, is one that
reduction would have left, unless it stands in a raw query of the search.
-/
theorem slots_written_reduced (s : Search δ) :
    (∀ slot q r, s.query? slot = some q → q.reduce = some r →
      let t := s.update (fun _ => r) slot
      t.query? slot = some r ∧ (∀ other, other ≠ slot → t.query? other = s.query? other) ∧
        ∀ f, t.body f = s.body f ∧ t.countBody f = s.countBody f) ∧
      ∀ f whole, (whole = s.countBody f ∨ whole = s.body f) →
        ∀ d part, SlotQuery whole d → Part d part → Redex part →
          ∃ raw, s.Holds raw ∧ raw.IsRaw ∧ Part (raw.document f) part := by
  refine ⟨fun slot q r hq hr => ?_, fun f whole hwhole d part hd hpart hredex => ?_⟩
  · have hsame : ∀ c, s.query? slot = some c → r.reduce = c.reduce := by
      intro c hc
      cases hq.symm.trans hc
      rw [Query.reduce_of_normal (Query.normal_of_reduce hr), hr]
    refine ⟨?_, fun other hother => query?_update_of_ne _ hother s,
      fun f => ⟨body_update hsame f, countBody_update hsame f⟩⟩
    rw [query?_update, hq]
    rfl
  · obtain ⟨r, hr, rfl⟩ : ∃ r, s.Reduced r ∧ d = r.document f := by
      rcases hwhole with rfl | rfl
      · exact exists_reduced_of_countBody hd
      · exact exists_reduced_of_body hd
    obtain ⟨raw, hwithin, hraw, hpart⟩ := Query.exists_raw_of_redex hr.normal hpart hredex
    exact ⟨raw, hr.raw raw hwithin hraw, hraw, hpart⟩

theorem slots_written_reduced_raw_filter :
    let filter : Query := .leaf (.raw "bool" [])
    let below : List (String × Agg Json) := [("some", .buckets (.filter filter) [])]
    let s : Search Json :=
      { query := some (.bool none { must := [.matchAll] })
        aggs := [("all", .buckets .all below)]
        doc := .raw }
    (s.update (fun _ => .matchAll) .query).body .untyped = s.body .untyped ∧
      SlotQuery (s.body .untyped) (filter.document .untyped) ∧ Redex (filter.document .untyped) ∧
        ∃ raw, s.Holds raw ∧ raw.IsRaw ∧ Part (raw.document .untyped) (filter.document .untyped) := by
  intro filter below s
  have haggs : (present (s.parts .untyped)).get? "aggs" =
      some (.object (Agg.documents .untyped s.aggs)) := by
    rw [Json.get?_present (s.nodup_keys_parts _)]
    rfl
  have hbelow : ((Agg.buckets .all below).document .untyped).get? "aggs" =
      some (.object (Agg.documents .untyped below)) := by
    rw [Agg.get?_document]
    rfl
  have hfilter :
      ((Agg.buckets (.filter filter) ([] : List (String × Agg Json))).document .untyped).get?
        "filter" = some (filter.document .untyped) := by
    rw [Agg.get?_document]
    rfl
  have hslot : SlotQuery (s.body .untyped) (filter.document .untyped) := by
    rw [body_eq]
    exact .agg haggs (.head _) (.sub hbelow (.head _) (.filter hfilter))
  have hredex : Redex (filter.document .untyped) := .noClause rfl rfl rfl rfl
  obtain ⟨hreplaced, hwritten⟩ := slots_written_reduced s
  exact ⟨((hreplaced .query _ _ rfl rfl).2.2 _).1, hslot, hredex,
    hwritten _ _ (.inr rfl) _ _ hslot .refl hredex⟩

end Search

end SearchClient
