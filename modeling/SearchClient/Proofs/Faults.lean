import SearchClient.Bulk.Result
import SearchClient.Proofs.Json.Positions
import SearchClient.Search.Result

/-!
# Faults of answers

Whatever an answer to a search, to several searches or to a bulk of actions
looks like, reading it gives a result or an error that is so: the position it
names is one of the answer, with the fault it tells of.
-/

namespace SearchClient

open Json (Path Cursor Items)
open Json.Cursor (object_outcome object?_outcome array_outcome array?_outcome value_outcome)

variable {response : Json} {c : Cursor}

theorem TotalHits.read?_honest (hc : c.In response) : Honest response (TotalHits.read? c) := by
  unfold TotalHits.read?
  split
  · exact .ok
  · rename_i fields htotal
    let total : Cursor := ⟨fields, c.path.field "total"⟩
    have htotal : total.In response :=
      (hc.value?_field "total").trans (Json.Cursor.value?_eq_some htotal)
    -- The word is refused only after it was read, so there is a value at its path.
    let present : Prop := ((total.path.field "relation").value? response).isSome = true
    have hread : Outcome (total.Optional "relation" fun _ => present) (Error.Truthful response)
        (total.string? "relation") := by
      refine Json.Cursor.read?_outcome htotal _ _ fun value _ hvalue _ => ?_
      unfold present
      rw [htotal.value?_field, hvalue]
      rfl
    have hrest (relation : TotalRelation) : Honest response (do
        return some (⟨← total.long "value", relation⟩ : TotalHits)) :=
      .bind htotal.field fun _ => .ok
    refine .after hread fun relation hrelation => ?_
    match relation with
    | none => exact hrest .exact
    | some word =>
        dsimp only
        split
        · contradiction
        · exact hrest .exact
        · exact hrest .atLeast
        · exact .error (.invalidType (.inr (hrelation.good _ rfl)))
  · exact .bind hc.field fun _ => .ok

theorem readFields_honest (hc : c.In response) : Honest response (readFields c) := by
  unfold readFields
  refine .after (object?_outcome hc "fields") fun found hfound => ?_
  cases found with
  | none => exact .ok
  | some fields =>
      exact .mapM fun name _ => .after (array_outcome (hfound.good _ rfl) name) fun _ _ => .ok

/-- Reading a document can fail only in ways that are so. -/
def DocReader.Honest {δ : Type} (doc : DocReader δ) (response : Json) : Prop :=
  ∀ hit, hit.In response → SearchClient.Honest response (doc hit)

theorem DocReader.raw_honest : DocReader.raw.Honest response := fun _ _ => .ok

variable {δ : Type} {doc : DocReader δ}

theorem Hit.read_honest (hdoc : doc.Honest response) (hc : c.In response) :
    Honest response (Hit.read doc c) := by
  unfold Hit.read
  refine .bind (readFields_honest hc) fun _ => .bind hc.field? fun _ => ?_
  exact .bind hc.field fun _ => .bind hc.field? fun _ => .bind hc.field fun _ =>
    .bind hc.field? fun _ => .bind hc.field? fun _ => .bind hc.field? fun _ =>
    .bind hc.field? fun _ => .bind hc.field? fun _ => .bind (hdoc c hc) fun _ => .ok

theorem Hits.read_honest (hdoc : doc.Honest response) (hc : c.In response) :
    Honest response (Hits.read doc c) := by
  unfold Hits.read
  refine .after (array_outcome hc "hits") fun items hitems => ?_
  refine .bind (Items.mapObjects_honest hitems fun _ => Hit.read_honest hdoc) fun _ => ?_
  exact .bind (TotalHits.read?_honest hc) fun _ => .bind hc.field? fun _ => .ok

theorem Stats.read_honest (hc : c.In response) : Honest response (Stats.read c) := by
  unfold Stats.read
  exact .bind hc.field fun _ => .bind hc.field fun _ => .bind hc.field? fun _ =>
    .bind hc.field? fun _ => .bind hc.field? fun _ => .ok

theorem innerDouble?_honest {found : Option Cursor} (h : ∀ c, found = some c → c.In response)
    (name : String) : Honest response (innerDouble? found name) := by
  cases found with
  | none => exact .ok
  | some c => exact (h c rfl).field?

theorem ExtendedStats.read_honest (hc : c.In response) :
    Honest response (ExtendedStats.read c) := by
  unfold ExtendedStats.read
  refine .after (object?_outcome hc "std_deviation_bounds") fun bounds hbounds => ?_
  exact .bind (Stats.read_honest hc) fun _ => .bind hc.field? fun _ => .bind hc.field? fun _ =>
    .bind hc.field? fun _ => .bind (innerDouble?_honest hbounds.good _) fun _ =>
    .bind (innerDouble?_honest hbounds.good _) fun _ => .ok

theorem readPercentiles_honest (hc : c.In response) : Honest response (readPercentiles c) := by
  unfold readPercentiles
  refine .after (value_outcome hc "values") fun value hvalue => ?_
  have hvalues := (hc.value?_field "values").trans hvalue
  cases value with
  | object fields =>
      have hkeyed : Cursor.In response ⟨fields, c.path.field "values"⟩ := hvalues
      refine .mapM fun (key, value) hentry => ?_
      dsimp only
      split
      · exact .ok
      · refine .error (.invalidType (.inr ?_))
        -- The percentage is the name of a field that the answer has.
        have hkey : key ∈ Entries.keys fields := List.mem_map_of_mem (f := Prod.fst) hentry
        obtain ⟨value', hvalue'⟩ := Entries.exists_get?_of_mem_keys hkey
        exact Option.isSome_iff_exists.mpr ⟨value', (hkeyed.value?_field key).trans hvalue'⟩
  | array values =>
      have hitems : Items.In response ⟨values, c.path.field "values"⟩ := hvalues
      refine Items.mapObjects_honest hitems fun item hitem => ?_
      exact .bind hitem.field fun _ => .bind hitem.field? fun _ => .ok
  | _ => exact .error (.invalidType (.inr (by rw [hvalues]; rfl)))

theorem Metric.read_honest {m : Metric δ}
    (hdocs : ∀ t, m = .topHits t → t.doc.Honest response) (hc : c.In response) :
    Honest response (m.read c) := by
  cases m with
  | single => exact .bind hc.field? fun _ => .bind hc.field? fun _ => .ok
  | weightedAvg => exact .bind hc.field? fun _ => .bind hc.field? fun _ => .ok
  | stats => exact .map _ (Stats.read_honest hc)
  | valueCount => exact .map _ hc.field
  | cardinality => exact .map _ hc.field
  | extendedStats => exact .map _ (ExtendedStats.read_honest hc)
  | percentiles => exact .map _ (readPercentiles_honest hc)
  | scripted => exact .ok
  | topHits t =>
      exact .after (object_outcome hc "hits") fun hits hhits =>
        .bind (Hits.read_honest (hdocs t rfl) hhits) fun _ => .ok

/-! ## Buckets -/

theorem readBuckets_honest {β : Type} {read : Option String → Cursor → Except Error β}
    (hread : ∀ name c, c.In response → Honest response (read name c)) (hc : c.In response) :
    Honest response (readBuckets c read) := by
  unfold readBuckets
  refine .after (value_outcome hc "buckets") fun value hvalue => ?_
  have hbuckets := (hc.value?_field "buckets").trans hvalue
  cases value with
  | array values =>
      have hitems : Items.In response ⟨values, c.path.field "buckets"⟩ := hbuckets
      exact Items.mapObjects_honest hitems (hread none)
  | object fields =>
      have hkeyed : Cursor.In response ⟨fields, c.path.field "buckets"⟩ := hbuckets
      exact .mapM fun name _ => .after (object_outcome hkeyed name) (hread (some name))
  | _ => exact .error (.invalidType (.inr (by rw [hbuckets]; rfl)))

theorem FieldType.readFor_honest (t : FieldType) (field : String) (j : Json) :
    Honest response (t.readFor field j) := by
  unfold FieldType.readFor
  split
  · exact .ok
  · exact .error (.invalidTerm _ _)

theorem AggValue.readTerm_honest (v : AggValue) (j : Json) : Honest response (v.readTerm j) :=
  .bind (FieldType.readFor_honest _ _ j) fun _ => .ok

section

variable {α κ : Type} {sub : Cursor → Except Error (List (String × α))}
  (hsub : ∀ c, c.In response → Honest response (sub c))

include hsub

theorem readBucket_honest (key : κ) (hc : c.In response) :
    Honest response (readBucket sub key c) :=
  .bind hc.field fun _ => .bind (hsub c hc) fun _ => .ok

theorem readRangeBucket_honest (name : Option String) (hc : c.In response) :
    Honest response (readRangeBucket sub name c) := by
  have hrest (key : Option String) : Honest response (do
      let low ← c.double? "from"
      let high ← c.double? "to"
      let lowText ← c.string? "from_as_string"
      let highText ← c.string? "to_as_string"
      readBucket sub (⟨key, low, high, lowText, highText⟩ : RangeKey) c) :=
    .bind hc.field? fun _ => .bind hc.field? fun _ => .bind hc.field? fun _ =>
      .bind hc.field? fun _ => readBucket_honest hsub _ hc
  cases name with
  | some name => exact hrest (some name)
  | none => exact .bind hc.field? hrest

theorem readRanges_honest (declared : List (Option String)) (hc : c.In response) :
    Honest response (readRanges sub declared c) := by
  unfold readRanges
  refine .after (value_outcome hc "buckets") fun _ _ => ?_
  exact .bind (readBuckets_honest (fun name _ => readRangeBucket_honest hsub name) hc) fun _ => .ok

theorem readFilters_honest (names : List String) (otherKey : Option String) (hc : c.In response) :
    Honest response (readFilters sub names otherKey c) := by
  unfold readFilters
  refine .after (value_outcome hc "buckets") fun value hvalue => ?_
  cases value with
  | object fields =>
      let keyed : Cursor := ⟨fields, c.path.field "buckets"⟩
      have hkeyed : keyed.In response := (hc.value?_field "buckets").trans hvalue
      refine .bind (.mapM fun name _ => .after (object_outcome hkeyed name) fun _ =>
        readBucket_honest hsub _) fun declared => ?_
      cases otherKey with
      | none => exact .ok
      | some other =>
          refine .after (object?_outcome hkeyed other) fun found hfound => ?_
          cases found with
          | none => exact .ok
          | some bucket =>
              exact .bind (readBucket_honest hsub _ (hfound.good _ rfl)) fun _ => .ok
  | _ => exact readBuckets_honest (fun _ _ => readBucket_honest hsub none) hc

end

theorem Bucketing.read_honest {δ : Type} {sub : Cursor → Except Error (List (String × AggResult δ))}
    (hsub : ∀ c, c.In response → Honest response (sub c)) (b : Bucketing) (hc : c.In response) :
    Honest response (b.read sub c) := by
  cases b with
  | terms source =>
      refine .after (array_outcome hc "buckets") fun items hitems => ?_
      refine .bind (Items.mapObjects_honest hitems fun bucket hbucket => ?_) fun _ =>
        .bind hc.field? fun _ => .bind hc.field? fun _ => .ok
      exact .after (value_outcome hbucket "key") fun key _ =>
        .bind (source.value.readTerm_honest key) fun _ => .bind hbucket.field? fun _ =>
          readBucket_honest hsub _ hbucket
  | significantTerms value =>
      refine .after (array_outcome hc "buckets") fun items hitems => ?_
      refine .bind (Items.mapObjects_honest hitems fun bucket hbucket => ?_) fun _ =>
        .bind hc.field? fun _ => .bind hc.field? fun _ => .ok
      exact .after (value_outcome hbucket "key") fun key _ =>
        .bind (value.readTerm_honest key) fun _ => .bind hbucket.field fun _ =>
          .bind hbucket.field? fun _ => .bind hbucket.field? fun _ =>
          .bind (hsub _ hbucket) fun _ => .ok
  | histogram =>
      exact .map _ (readBuckets_honest (fun _ bucket hbucket =>
        .bind hbucket.field fun _ => .bind hbucket.field? fun _ =>
          readBucket_honest hsub _ hbucket) hc)
  | dateHistogram origin =>
      exact .map _ (readBuckets_honest (fun _ bucket hbucket =>
        .after (value_outcome hbucket "key") fun key _ =>
          .bind (FieldType.readFor_honest .date origin.describe key) fun _ =>
          .bind hbucket.field? fun _ => readBucket_honest hsub _ hbucket) hc)
  | range => exact .map _ (readRanges_honest hsub _ hc)
  | dateRange => exact .map _ (readRanges_honest hsub _ hc)
  | filters => exact .map _ (readFilters_honest hsub _ _ hc)
  | filter => exact .map _ (readBucket_honest hsub () hc)
  | all => exact .map _ (readBucket_honest hsub () hc)
  | nested => exact .map _ (readBucket_honest hsub () hc)
  | reverseNested => exact .map _ (readBucket_honest hsub () hc)

inductive Agg.Raw : Agg Json → Prop where
  | metric {m : Metric Json} (raw : ∀ t, m = .topHits t → t.doc = DocReader.raw) :
      Raw (.metric m)
  | buckets {b : Bucketing} {subs : List (String × Agg Json)}
      (raw : ∀ name agg, (name, agg) ∈ subs → Raw agg) : Raw (.buckets b subs)

theorem Agg.readAll_honest {δ : Type} {aggs : List (String × Agg δ)}
    (h : ∀ name agg, (name, agg) ∈ aggs → ∀ c, c.In response → Honest response (agg.read c)) :
    ∀ c, c.In response → Honest response (readAll aggs c) := by
  intro c hc
  induction aggs with
  | nil => exact .ok
  | cons entry rest ih =>
      obtain ⟨name, agg⟩ := entry
      rw [readAll]
      refine .after (object_outcome hc name) fun inner hinner => ?_
      refine .bind (h name agg List.mem_cons_self inner hinner) fun _ => ?_
      exact .bind (ih fun name agg hmem => h name agg (List.mem_cons_of_mem _ hmem)) fun _ => .ok

theorem Agg.Raw.read_honest {agg : Agg Json} (h : agg.Raw) :
    ∀ c, c.In response → Honest response (agg.read c) := by
  induction h with
  | metric hraw =>
      intro c hc
      rw [Agg.read]
      exact Metric.read_honest (fun t ht => hraw t ht ▸ DocReader.raw_honest) hc
  | buckets _ ih =>
      intro c hc
      rw [Agg.read]
      exact Bucketing.read_honest (Agg.readAll_honest ih) _ hc

/-! ## Answers -/

structure Search.Raw (s : Search Json) : Prop where
  hits : s.doc = DocReader.raw
  aggs : ∀ name agg, (name, agg) ∈ s.aggs → agg.Raw

theorem SearchResult.read_honest {s : Search Json} (hs : s.Raw) (hc : c.In response) :
    Honest response (SearchResult.read s c) := by
  unfold SearchResult.read
  have hrest (aggs : AggResults Json) : Honest response (do
      return ({
        took := ← c.long "took"
        timedOut := (← c.bool? "timed_out").getD false
        scrollId := ← c.string? "_scroll_id"
        hits := ← Hits.read s.doc (← c.object "hits")
        aggs } : SearchResult Json)) :=
    .bind hc.field fun _ => .bind hc.field? fun _ => .bind hc.field? fun _ =>
      .after (object_outcome hc "hits") fun _ hhits =>
      .bind (Hits.read_honest (hs.hits ▸ DocReader.raw_honest) hhits) fun _ => .ok
  refine .after (object?_outcome hc "aggregations") fun found hfound => ?_
  cases found with
  | none => exact hrest []
  | some aggregations =>
      exact .bind (Agg.readAll_honest (fun name agg hagg => (hs.aggs name agg hagg).read_honest) _
        (hfound.good _ rfl)) hrest

theorem ErrorCause.read_honest (hc : c.In response) : Honest response (ErrorCause.read c) :=
  .bind hc.field fun _ => .bind hc.field? fun _ => .ok

theorem MultiItem.read_honest {s : Search Json} (hs : s.Raw) (hc : c.In response) :
    Honest response (MultiItem.read s c) := by
  unfold MultiItem.read
  refine .after (object?_outcome hc "error") fun found hfound => ?_
  cases found with
  | none => exact .map _ (SearchResult.read_honest hs hc)
  | some error =>
      exact .bind hc.field? fun _ =>
        .bind (ErrorCause.read_honest (hfound.good _ rfl)) fun _ => .ok

theorem readMulti_honest {searches : List (Search Json)} (hs : ∀ s ∈ searches, s.Raw)
    (response : Json) : Honest response (readMulti searches response) := by
  unfold readMulti
  refine .after (Cursor.ofDocument_outcome response) fun c hc => ?_
  refine .after (array_outcome hc "responses") fun responses hresponses => ?_
  dsimp only
  split
  -- With too few answers the first that is missing lies right behind the last one given.
  · refine .error (.missingField (.item hresponses (.inl ?_)))
    exact List.getElem?_eq_none (Nat.le_refl _)
  · split
    · refine .error (.invalidType (.inr ?_))
      rw [hresponses]
      rfl
    · refine .mapM fun (cursor, s) hmem => ?_
      obtain ⟨hcursor, hsearch⟩ := List.of_mem_zip hmem
      obtain ⟨index, -, rfl⟩ := List.mem_map.mp hcursor
      exact .after (Items.object_outcome hresponses index) fun _ hitem =>
        MultiItem.read_honest (hs s hsearch) hitem

theorem BulkFailure.read_honest (hc : c.In response) : Honest response (BulkFailure.read c) :=
  .bind (ErrorCause.read_honest hc) fun _ => .bind hc.field fun _ => .bind hc.field fun _ => .ok

theorem BulkSuccess.read_honest (hc : c.In response) : Honest response (BulkSuccess.read c) :=
  .bind hc.field fun _ => .bind hc.field fun _ => .bind hc.field fun _ => .bind hc.field fun _ =>
    .bind hc.field fun _ => .ok

theorem BulkItem.op?_honest (item : Cursor) : Honest response (BulkItem.op? item) := by
  unfold BulkItem.op?
  split
  · exact .ok
  · exact .error (.unknownBulkOp _)

theorem BulkItem.read_honest (hc : c.In response) : Honest response (BulkItem.read c) := by
  unfold BulkItem.read
  refine .bind (op?_honest c) fun op => .after (object_outcome hc op.text) fun body hbody => ?_
  refine .bind hbody.field? fun _ => .bind hbody.field? fun _ => ?_
  refine .after (object?_outcome hbody "error") fun found hfound => ?_
  cases found with
  | none => exact .bind (BulkSuccess.read_honest hbody) fun _ => .ok
  | some error => exact .bind (BulkFailure.read_honest (hfound.good _ rfl)) fun _ => .ok

theorem BulkResult.read_honest (hc : c.In response) : Honest response (BulkResult.read c) := by
  unfold BulkResult.read
  have hrest (items : List BulkItem) : Honest response (do
      return ({ took := ← c.long "took", errors := ← c.bool "errors", items } : BulkResult)) :=
    .bind hc.field fun _ => .bind hc.field fun _ => .ok
  refine .after (array?_outcome hc "items") fun found hfound => ?_
  cases found with
  | none => exact hrest []
  | some items =>
      exact .bind (Items.mapObjects_honest (hfound.good _ rfl) fun _ => BulkItem.read_honest) hrest

/--
Every error of reading an answer to a search, to several searches or to a bulk
of actions is a decode error, and what it says of a position in the answer is so.
-/
theorem decode_errors_truthful (s : Search Json) (hs : s.Raw)
    (searches : List (String × Search Json)) (hsearches : ∀ index s, (index, s) ∈ searches → s.Raw)
    (response : Json) :
    (∀ f indices e, (s.request f indices).read response = .error e → e.Truthful response) ∧
      (∀ f e, (Search.multiRequest f searches).read response = .error e → e.Truthful response) ∧
      ∀ f index actions refresh e,
        (bulkRequest f index actions refresh).read response = .error e → e.Truthful response := by
  have hdocument := Cursor.ofDocument_outcome response
  refine ⟨fun f indices e he => ?_, fun f e he => ?_, fun f index actions refresh e he => ?_⟩
  · have hread : Honest response ((s.request f indices).read response) :=
      .after hdocument fun _ => SearchResult.read_honest hs
    rwa [he] at hread
  · have hread : Honest response ((Search.multiRequest f searches).read response) := by
      refine readMulti_honest (fun s hs => ?_) response
      obtain ⟨⟨index, s⟩, hmem, rfl⟩ := List.mem_map.mp hs
      exact hsearches index s hmem
    rwa [he] at hread
  · have hread : Honest response ((bulkRequest f index actions refresh).read response) :=
      .after hdocument fun _ => BulkResult.read_honest
    rwa [he] at hread

theorem decode_errors_truthful_nested :
    let best : Agg Json := .metric (.topHits { doc := .raw })
    let s : Search Json :=
      { doc := .raw
        aggs :=
          [("langs", .buckets (.filters (.named [("en", .matchAll)]) none) [("best", best)])] }
    let hits : Json := .object [("hits", .array [.object [("_index", .string "posts")]])]
    let bucket : Json := .object [("doc_count", .int 1), ("best", .object [("hits", hits)])]
    let response : Json := .object [("aggregations", .object [("langs",
      .object [("buckets", .object [("en", bucket)])])])]
    let path : Path := ⟨"", [.name "aggregations", .name "langs", .name "buckets", .name "en",
      .name "best", .name "hits", .name "hits", .index 0, .name "_id"]⟩
    (s.request .untyped []).read response = .error (.missingField path) ∧
      path.text = "aggregations.langs.buckets.en.best.hits.hits[0]._id" ∧
      path.Missing response := by
  intro best s hits bucket response path
  have hbest : best.Raw := .metric (by rintro t ⟨⟩; rfl)
  have hs : s.Raw := by
    refine ⟨rfl, fun name agg hagg => ?_⟩
    obtain ⟨rfl, rfl⟩ := Prod.mk.inj (List.mem_singleton.mp hagg)
    refine .buckets fun name agg hagg => ?_
    obtain ⟨rfl, rfl⟩ := Prod.mk.inj (List.mem_singleton.mp hagg)
    exact hbest
  obtain ⟨hsearch, -, -⟩ := decode_errors_truthful s hs [] (by simp) response
  have hread : (s.request .untyped []).read response = .error (.missingField path) := by rfl
  refine ⟨hread, by decide +kernel, ?_⟩
  exact (hsearch .untyped [] _ hread).missing _ rfl

end SearchClient
