import SearchClient.Proofs.Aggs.Buckets
import SearchClient.Proofs.Parallel
import SearchClient.Search.Result

/-!
# Answers read in any place

A document is given to its reader with the place it was found at.  Nothing
else in an answer is read for where it stands: if the readers of documents do
not look at the place, a part of an answer gives the same result, or fails, in
whatever place it is read.
-/

namespace SearchClient

open Json (Cursor Items)
open Json.Cursor (field_parallel field?_parallel value_parallel object_parallel object?_parallel
  array_parallel array?_parallel)

variable {δ : Type}

theorem TotalHits.read?_placeless : Placeless TotalHits.read? := by
  intro c c' h
  unfold TotalHits.read?
  rw [Cursor.value?_congr (h.get? "total")]
  split
  · exact .ok rfl
  · rename_i fields _
    let total : Cursor := ⟨fields, c.path.field "total"⟩
    let total' : Cursor := ⟨fields, c'.path.field "total"⟩
    have hrest (relation : TotalRelation) : Parallel Eq
        (do return some (⟨← total.long "value", relation⟩ : TotalHits))
        (do return some (⟨← total'.long "value", relation⟩ : TotalHits)) :=
      .next (field_parallel rfl) fun _ => .ok rfl
    refine .next (field?_parallel rfl) fun relation => ?_
    match relation with
    | none => exact hrest .exact
    | some word =>
        dsimp only
        split
        · contradiction
        · exact hrest .exact
        · exact hrest .atLeast
        · exact .error _ _
  · exact .next (field_parallel (h.get? _)) fun _ => .ok rfl

theorem readFields_placeless : Placeless readFields := by
  intro c c' h
  unfold readFields
  refine .bind (object?_parallel (h.get? "fields")) fun found found' hfound => ?_
  cases hfound with
  | none => exact .ok rfl
  | some hfields =>
      dsimp only
      rw [Cursor.keys, Cursor.keys, hfields]
      refine .mapMSame fun name _ => .bind (array_parallel (hfields.get? name)) ?_
      exact fun items items' hitems => .ok (by rw [hitems])

theorem DocReader.raw_placeless : Placeless DocReader.raw := by
  intro c c' h
  unfold raw
  rw [Cursor.value?_congr (h.get? "_source")]
  exact .ok rfl

theorem DocReader.typed_placeless (read : Json → Option δ) : Placeless (DocReader.typed read) := by
  intro c c' h
  unfold typed
  rw [Cursor.value?_congr (h.get? "_source")]
  exact .same _

variable {doc : DocReader δ}

theorem Hit.read_placeless (hdoc : Placeless doc) : Placeless (Hit.read doc) := by
  intro c c' h
  unfold Hit.read
  refine .next (readFields_placeless c c' h) fun fields => ?_
  refine .bind (array?_parallel (h.get? "sort")) fun sort sort' hsort => ?_
  have hvalues : sort.map (·.values) = sort'.map (·.values) := by
    cases hsort with
    | none => rfl
    | some hitems => exact congrArg some hitems
  dsimp only
  rw [hvalues]
  exact .next (field_parallel (h.get? _)) fun _ => .next (field?_parallel (h.get? _)) fun _ =>
    .next (field_parallel (h.get? _)) fun _ => .next (field?_parallel (h.get? _)) fun _ =>
    .next (field?_parallel (h.get? _)) fun _ => .next (field?_parallel (h.get? _)) fun _ =>
    .next (field?_parallel (h.get? _)) fun _ => .next (field?_parallel (h.get? _)) fun _ =>
    .next (hdoc c c' h) fun _ => .ok rfl

theorem mapObjects_placeless {α : Type} {read : Cursor → Except Error α} (hread : Placeless read)
    {items items' : Items} (h : items.values = items'.values) :
    Parallel Eq (items.mapObjects read) (items'.mapObjects read) :=
  (Items.mapObjects_parallel h hread).imp fun xs ys hrest => by
    rwa [List.forall₂_eq_eq_eq] at hrest

theorem Hits.read_placeless (hdoc : Placeless doc) : Placeless (Hits.read doc) := by
  intro c c' h
  unfold Hits.read
  refine .bind (array_parallel (h.get? "hits")) fun items items' hitems => ?_
  refine .next (mapObjects_placeless (Hit.read_placeless hdoc) hitems) fun _ => ?_
  exact .next (TotalHits.read?_placeless c c' h) fun _ =>
    .next (field?_parallel (h.get? _)) fun _ => .ok rfl

theorem Stats.read_placeless : Placeless Stats.read := by
  intro c c' h
  unfold Stats.read
  exact .next (field_parallel (h.get? _)) fun _ => .next (field_parallel (h.get? _)) fun _ =>
    .next (field?_parallel (h.get? _)) fun _ => .next (field?_parallel (h.get? _)) fun _ =>
    .next (field?_parallel (h.get? _)) fun _ => .ok rfl

theorem innerDouble?_parallel {found found' : Option Cursor}
    (h : Option.Rel Cursor.SameFields found found') (name : String) :
    Parallel Eq (innerDouble? found name) (innerDouble? found' name) := by
  cases h with
  | none => exact .ok rfl
  | some h => exact field?_parallel (h.get? name)

theorem ExtendedStats.read_placeless : Placeless ExtendedStats.read := by
  intro c c' h
  unfold ExtendedStats.read
  refine .bind (object?_parallel (h.get? _)) fun bounds bounds' hbounds => ?_
  exact .next (Stats.read_placeless c c' h) fun _ => .next (field?_parallel (h.get? _)) fun _ =>
    .next (field?_parallel (h.get? _)) fun _ => .next (field?_parallel (h.get? _)) fun _ =>
    .next (innerDouble?_parallel hbounds _) fun _ =>
    .next (innerDouble?_parallel hbounds _) fun _ => .ok rfl

theorem readPercentiles_placeless : Placeless readPercentiles := by
  intro c c' h
  unfold readPercentiles
  refine .next (value_parallel (h.get? "values")) fun value => ?_
  cases value with
  | object fields =>
      refine .mapMSame fun (key, value) _ => ?_
      dsimp only
      split
      · exact .ok rfl
      · exact .error _ _
  | array values =>
      refine mapObjects_placeless (fun item item' hitem => ?_) rfl
      exact .next (field_parallel (hitem.get? _)) fun _ =>
        .next (field?_parallel (hitem.get? _)) fun _ => .ok rfl
  | _ => exact .error _ _

theorem Metric.read_placeless {m : Metric δ} (hdocs : ∀ t, m = .topHits t → Placeless t.doc) :
    Placeless m.read := by
  intro c c' h
  cases m with
  | single =>
      exact .next (field?_parallel (h.get? _)) fun _ =>
        .next (field?_parallel (h.get? _)) fun _ => .ok rfl
  | weightedAvg =>
      exact .next (field?_parallel (h.get? _)) fun _ =>
        .next (field?_parallel (h.get? _)) fun _ => .ok rfl
  | stats => exact .mapSame _ (Stats.read_placeless c c' h)
  | valueCount => exact .mapSame _ (field_parallel (h.get? _))
  | cardinality => exact .mapSame _ (field_parallel (h.get? _))
  | extendedStats => exact .mapSame _ (ExtendedStats.read_placeless c c' h)
  | percentiles => exact .mapSame _ (readPercentiles_placeless c c' h)
  | scripted =>
      rw [Metric.read, Metric.read, Cursor.value?_congr (h.get? "value")]
      exact .same _
  | topHits t =>
      refine .bind (object_parallel (h.get? "hits")) fun hits hits' hhits => ?_
      exact .next (Hits.read_placeless (hdocs t rfl) hits hits' hhits) fun _ => .ok rfl

/-! ## Buckets -/

theorem readBuckets_placeless {β : Type} {read : Option String → Cursor → Except Error β}
    (hread : ∀ name, Placeless (read name)) : Placeless fun c => readBuckets c read := by
  intro c c' h
  unfold readBuckets
  refine .next (value_parallel (h.get? "buckets")) fun value => ?_
  cases value with
  | array values => exact mapObjects_placeless (hread none) rfl
  | object fields => exact .mapMSame fun name _ => .bind (object_parallel rfl) (hread (some name))
  | _ => exact .error _ _

section

variable {α κ : Type} {sub : Cursor → Except Error (List (String × α))} {c c' : Cursor}

theorem readBucket_parallel (key : κ)
    (hcount : c.fields.get? "doc_count" = c'.fields.get? "doc_count")
    (hsub : Parallel Eq (sub c) (sub c')) :
    Parallel Eq (readBucket sub key c) (readBucket sub key c') :=
  .next (field_parallel hcount) fun _ => .next hsub fun _ => .ok rfl

theorem readRange_parallel (key : Option String)
    (h : ∀ field, field ≠ "key" → c.fields.get? field = c'.fields.get? field)
    (hsub : Parallel Eq (sub c) (sub c')) :
    Parallel Eq (readRange sub key c) (readRange sub key c') :=
  .next (field?_parallel (h _ (by decide))) fun _ =>
    .next (field?_parallel (h _ (by decide))) fun _ =>
    .next (field?_parallel (h _ (by decide))) fun _ =>
    .next (field?_parallel (h _ (by decide))) fun _ =>
    readBucket_parallel _ (h _ (by decide)) hsub

variable (hsub : Placeless sub)

include hsub

theorem readBucket_placeless (key : κ) : Placeless (readBucket sub key) := fun c c' h =>
  readBucket_parallel key (h.get? _) (hsub c c' h)

theorem readTextBucket_placeless (readKey : Json → Except Error κ) :
    Placeless (fun bucket => do
      let key ← readKey (← bucket.value "key")
      let text ← bucket.string? "key_as_string"
      readBucket sub (⟨key, text⟩ : TextKey κ) bucket) := by
  intro c c' h
  exact .next (value_parallel (h.get? _)) fun key => .next (.same (readKey key)) fun _ =>
    .next (field?_parallel (h.get? _)) fun _ => readBucket_placeless hsub _ c c' h

theorem readNumberBucket_placeless :
    Placeless (fun bucket => do
      let key ← bucket.double "key"
      let text ← bucket.string? "key_as_string"
      readBucket sub (⟨key, text⟩ : TextKey Float) bucket) := by
  intro c c' h
  exact .next (field_parallel (h.get? _)) fun _ => .next (field?_parallel (h.get? _)) fun _ =>
    readBucket_placeless hsub _ c c' h

theorem readRangeBucket_placeless (name : Option String) :
    Placeless (readRangeBucket sub name) := by
  intro c c' h
  have hrest (key : Option String) : Parallel Eq (readRange sub key c) (readRange sub key c') :=
    readRange_parallel key (fun field _ => h.get? field) (hsub c c' h)
  cases name with
  | some name => exact hrest (some name)
  | none => exact .next (field?_parallel (h.get? _)) hrest

theorem readRanges_placeless (declared : List (Option String)) :
    Placeless (readRanges sub declared) := by
  intro c c' h
  unfold readRanges
  refine .next (value_parallel (h.get? "buckets")) fun _ => ?_
  exact .next (readBuckets_placeless (readRangeBucket_placeless hsub) c c' h) fun _ => .ok rfl

theorem readFilters_placeless (names : List String) (otherKey : Option String) :
    Placeless (readFilters sub names otherKey) := by
  intro c c' h
  unfold readFilters
  refine .next (value_parallel (h.get? "buckets")) fun value => ?_
  cases value with
  | object fields =>
      dsimp only
      refine .next (.mapMSame fun name _ =>
        .bind (object_parallel rfl) (readBucket_placeless hsub _)) fun declared => ?_
      cases otherKey with
      | none => exact .ok rfl
      | some other =>
          refine .bind (object?_parallel rfl) fun found found' hfound => ?_
          cases hfound with
          | none => exact .ok rfl
          | some hbucket => exact .next (readBucket_placeless hsub _ _ _ hbucket) fun _ => .ok rfl
  | _ => exact readBuckets_placeless (fun _ => readBucket_placeless hsub none) c c' h

end

theorem Bucketing.read_placeless {sub : Cursor → Except Error (List (String × AggResult δ))}
    (hsub : Placeless sub) (b : Bucketing) : Placeless (b.read sub) := by
  intro c c' h
  cases b with
  | terms source =>
      refine .bind (array_parallel (h.get? "buckets")) fun items items' hitems => ?_
      exact .next (mapObjects_placeless (readTextBucket_placeless hsub _) hitems) fun _ =>
        .next (field?_parallel (h.get? _)) fun _ => .next (field?_parallel (h.get? _)) fun _ =>
          .ok rfl
  | significantTerms value =>
      refine .bind (array_parallel (h.get? "buckets")) fun items items' hitems => ?_
      refine .next (mapObjects_placeless (fun bucket bucket' hbucket => ?_) hitems) fun _ =>
        .next (field?_parallel (h.get? _)) fun _ => .next (field?_parallel (h.get? _)) fun _ =>
          .ok rfl
      exact .next (value_parallel (hbucket.get? _)) fun _ => .next (.same _) fun _ =>
        .next (field_parallel (hbucket.get? _)) fun _ =>
        .next (field?_parallel (hbucket.get? _)) fun _ =>
        .next (field?_parallel (hbucket.get? _)) fun _ =>
        .next (hsub _ _ hbucket) fun _ => .ok rfl
  | histogram =>
      exact .mapSame _ (readBuckets_placeless (fun _ => readNumberBucket_placeless hsub) c c' h)
  | dateHistogram origin =>
      exact .mapSame _ (readBuckets_placeless (fun _ => readTextBucket_placeless hsub _) c c' h)
  | range => exact .mapSame _ (readRanges_placeless hsub _ c c' h)
  | dateRange => exact .mapSame _ (readRanges_placeless hsub _ c c' h)
  | filters => exact .mapSame _ (readFilters_placeless hsub _ _ c c' h)
  | filter => exact .mapSame _ (readBucket_placeless hsub () c c' h)
  | all => exact .mapSame _ (readBucket_placeless hsub () c c' h)
  | nested => exact .mapSame _ (readBucket_placeless hsub () c c' h)
  | reverseNested => exact .mapSame _ (readBucket_placeless hsub () c c' h)

/-- No reader of documents, at any depth, looks at the place of a hit. -/
inductive Agg.Placeless : Agg δ → Prop where
  | metric {m : Metric δ} (docs : ∀ t, m = .topHits t → SearchClient.Placeless t.doc) :
      Placeless (.metric m)
  | buckets {b : Bucketing} {subs : List (String × Agg δ)}
      (inner : ∀ name agg, (name, agg) ∈ subs → Placeless agg) : Placeless (.buckets b subs)

theorem Agg.readAll_parallel {aggs : List (String × Agg δ)} {c c' : Cursor}
    (h : ∀ name agg, (name, agg) ∈ aggs → SearchClient.Placeless agg.read)
    (hobjects : ∀ name, Parallel Cursor.SameFields (c.object name) (c'.object name)) :
    Parallel Eq (readAll aggs c) (readAll aggs c') := by
  induction aggs with
  | nil => exact .ok rfl
  | cons entry rest ih =>
      obtain ⟨name, agg⟩ := entry
      rw [readAll, readAll]
      refine .bind (hobjects name) fun inner inner' hinner => ?_
      refine .next (h name agg List.mem_cons_self inner inner' hinner) fun _ => ?_
      exact .next (ih fun name agg hmem => h name agg (List.mem_cons_of_mem _ hmem)) fun _ =>
        .ok rfl

theorem Agg.readAll_placeless {aggs : List (String × Agg δ)}
    (h : ∀ name agg, (name, agg) ∈ aggs → SearchClient.Placeless agg.read) :
    SearchClient.Placeless (readAll aggs) := fun _ _ hc =>
  readAll_parallel h fun name => object_parallel (hc.get? name)

theorem Agg.Placeless.read {agg : Agg δ} (h : agg.Placeless) : SearchClient.Placeless agg.read := by
  induction h with
  | metric hdocs =>
      intro c c' hc
      rw [Agg.read, Agg.read]
      exact Metric.read_placeless hdocs c c' hc
  | buckets _ ih =>
      intro c c' hc
      rw [Agg.read, Agg.read]
      exact Bucketing.read_placeless (Agg.readAll_placeless ih) _ c c' hc

structure Search.Placeless (s : Search δ) : Prop where
  doc : SearchClient.Placeless s.doc
  aggs : ∀ name agg, (name, agg) ∈ s.aggs → agg.Placeless

theorem SearchResult.read_placeless {s : Search δ} (hs : s.Placeless) :
    Placeless (SearchResult.read s) := by
  intro c c' h
  unfold SearchResult.read
  have hrest (aggs : AggResults δ) : Parallel Eq
      (do
        return ({
          took := ← c.long "took"
          timedOut := (← c.bool? "timed_out").getD false
          scrollId := ← c.string? "_scroll_id"
          hits := ← Hits.read s.doc (← c.object "hits")
          aggs } : SearchResult δ))
      (do
        return ({
          took := ← c'.long "took"
          timedOut := (← c'.bool? "timed_out").getD false
          scrollId := ← c'.string? "_scroll_id"
          hits := ← Hits.read s.doc (← c'.object "hits")
          aggs } : SearchResult δ)) :=
    .next (field_parallel (h.get? _)) fun _ => .next (field?_parallel (h.get? _)) fun _ =>
      .next (field?_parallel (h.get? _)) fun _ =>
      .bind (object_parallel (h.get? _)) fun hits hits' hhits =>
      .next (Hits.read_placeless hs.doc hits hits' hhits) fun _ => .ok rfl
  refine .bind (object?_parallel (h.get? "aggregations")) fun found found' hfound => ?_
  cases hfound with
  | none => exact hrest []
  | some haggs =>
      have hread := Agg.readAll_placeless fun name agg hagg => (hs.aggs name agg hagg).read
      exact .next (hread _ _ haggs) hrest

end SearchClient
