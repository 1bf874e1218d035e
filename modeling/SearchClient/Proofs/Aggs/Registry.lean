import Mathlib.Data.List.Induction
import SearchClient.Aggs.Document
import SearchClient.Proofs.Aggs.Buckets
import SearchClient.Proofs.Entries

/-!
# Aggregations and their results

A registry of aggregations is written entry by entry, and what is read for it
has its names, in its order.  The same holds inside every bucket: whatever way
the buckets are found in an answer, the results inside each of them are a
reading of the aggregations registered for the inside.
-/

namespace SearchClient

open Json (Cursor Items)
open Json.Cursor (array_eq_ok_iff object_eq_ok_iff)
open Json.Items (mapObjects_eq_ok_iff)

namespace Entries

variable {α : Type}

theorem keys_setAll (entries : Entries α) : (setAll [] entries).keys = entries.keys.eraseDups := by
  induction entries using List.reverseRecOn with
  | nil => rfl
  | append_singleton entries entry ih =>
      obtain ⟨name, a⟩ := entry
      rw [setAll] at ih ⊢
      have hkeys : keys (entries ++ [(name, a)]) = keys entries ++ [name] := by simp [keys]
      rw [List.foldl_append, List.foldl_cons, List.foldl_nil, keys_set, ih, hkeys,
        List.eraseDups_append]
      simp only [List.mem_eraseDups]
      by_cases h : name ∈ keys entries <;> simp [List.removeAll, List.eraseDups_cons, h]

theorem get?_setAll (entries : Entries α) (name : String) :
    get? (setAll [] entries) name = get? entries.reverse name := by
  induction entries using List.reverseRecOn with
  | nil => rfl
  | append_singleton entries entry ih =>
      obtain ⟨key, a⟩ := entry
      rw [setAll] at ih ⊢
      rw [List.foldl_append, List.foldl_cons, List.foldl_nil, get?_set, ih, List.reverse_append]
      exact (get?_cons key a entries.reverse name).symm

theorem nodup_keys_setAll (entries : Entries α) : (setAll [] entries).keys.Nodup := by
  induction entries using List.reverseRecOn with
  | nil => exact List.nodup_nil
  | append_singleton entries entry ih =>
      rw [setAll, List.foldl_append]
      exact nodup_keys_set ih entry.1 entry.2

end Entries

variable {δ : Type}

theorem Agg.documents_eq_map (f : Features) (aggs : Aggs δ) :
    documents f aggs = aggs.map fun e => (e.1, .object (e.2.document f)) := by
  induction aggs with
  | nil => rfl
  | cons entry rest ih => rw [documents, ih, List.map_cons]

theorem Agg.readAll_eq_mapM (aggs : Aggs δ) (c : Cursor) :
    readAll aggs c = aggs.mapM fun e => do return (e.1, ← e.2.read (← c.object e.1)) := by
  induction aggs with
  | nil => rfl
  | cons entry rest ih =>
      obtain ⟨name, agg⟩ := entry
      rw [readAll, ih, List.mapM_cons]
      cases c.object name with
      | error e => rfl
      | ok inner =>
          cases hread : agg.read inner <;> simp [bind, Except.bind, pure, Except.pure, hread]

theorem Agg.readAll_eq_ok_iff {aggs : Aggs δ} {c : Cursor} {results : AggResults δ} :
    readAll aggs c = .ok results ↔
      List.Forall₂ (fun e r => r.1 = e.1 ∧ ∃ inner, c.object e.1 = .ok inner ∧
        e.2.read inner = .ok r.2) aggs results := by
  rw [readAll_eq_mapM, mapM_eq_ok_iff]
  refine iff_of_eq (congrArg (List.Forall₂ · aggs results) ?_)
  funext e r
  obtain ⟨name, result⟩ := r
  simp only [bind_eq_ok_iff, eq_iff_iff]
  constructor
  · rintro ⟨inner, hinner, result, hread, ⟨⟩⟩
    exact ⟨rfl, inner, hinner, hread⟩
  · rintro ⟨rfl, inner, hinner, hread⟩
    exact ⟨inner, hinner, result, hread, rfl⟩

inductive BucketKey where
  | term (key : TextKey Term)
  | significant (key : SignificantKey)
  | number (key : TextKey Float)
  | date (key : TextKey Time.Instant)
  | range (key : RangeKey)
  | filter (key : Option String)
  | only

def Bucket.mapKey {κ κ' α : Type} (f : κ → κ') (b : Bucket κ α) : Bucket κ' α :=
  ⟨f b.key, b.docCount, b.aggs⟩

@[simp] theorem Bucket.aggs_mapKey {κ κ' α : Type} (f : κ → κ') (b : Bucket κ α) :
    (b.mapKey f).aggs = b.aggs := rfl

def AggResult.buckets : AggResult δ → List (Bucket BucketKey (AggResult δ))
  | terms _ _ bs => bs.map (·.mapKey .term)
  | significantTerms _ _ bs => bs.map (·.mapKey .significant)
  | histogram bs => bs.map (·.mapKey .number)
  | dateHistogram bs => bs.map (·.mapKey .date)
  | ranges bs => bs.map (·.mapKey .range)
  | filters bs => bs.map (·.mapKey .filter)
  | single b => [b.mapKey fun _ => .only]
  | _ => []

def Bucketing.Single : Bucketing → Prop
  | filter _ | all | nested _ | reverseNested _ => True
  | _ => False

/-! ## Inside the buckets -/

namespace Bucketing

variable {sub : Cursor → Except Error (AggResults δ)} {c : Cursor} {result : AggResult δ}

theorem aggs_of_read {b : Bucketing} (h : b.read sub c = .ok result)
    {bucket : Bucket BucketKey (AggResult δ)} (hbucket : bucket ∈ result.buckets) :
    ∃ c', sub c' = .ok bucket.aggs := by
  cases b with
  | terms source =>
      obtain ⟨items, -, h⟩ := bind_eq_ok_iff.mp h
      obtain ⟨bs, hbs, h⟩ := bind_eq_ok_iff.mp h
      obtain ⟨errorBound, -, h⟩ := bind_eq_ok_iff.mp h
      obtain ⟨otherCount, -, h⟩ := bind_eq_ok_iff.mp h
      cases h
      obtain ⟨b, hb, rfl⟩ := List.mem_map.mp hbucket
      obtain ⟨c', hread⟩ := (mapObjects_eq_ok_iff.mp hbs).exists_of_mem hb
      exact ⟨c', aggs_of_readTextBucket hread⟩
  | significantTerms value =>
      obtain ⟨items, -, h⟩ := bind_eq_ok_iff.mp h
      obtain ⟨bs, hbs, h⟩ := bind_eq_ok_iff.mp h
      obtain ⟨docCount, -, h⟩ := bind_eq_ok_iff.mp h
      obtain ⟨bgCount, -, h⟩ := bind_eq_ok_iff.mp h
      cases h
      obtain ⟨b, hb, rfl⟩ := List.mem_map.mp hbucket
      obtain ⟨c', hread⟩ := (mapObjects_eq_ok_iff.mp hbs).exists_of_mem hb
      exact ⟨c', aggs_of_readSignificantBucket hread⟩
  | histogram =>
      obtain ⟨bs, hbs, rfl⟩ := map_eq_ok_iff.mp h
      obtain ⟨b, hb, rfl⟩ := List.mem_map.mp hbucket
      obtain ⟨name, c', hread⟩ := exists_of_mem_readBuckets hbs hb
      exact ⟨c', aggs_of_readNumberBucket hread⟩
  | dateHistogram origin =>
      obtain ⟨bs, hbs, rfl⟩ := map_eq_ok_iff.mp h
      obtain ⟨b, hb, rfl⟩ := List.mem_map.mp hbucket
      obtain ⟨name, c', hread⟩ := exists_of_mem_readBuckets hbs hb
      exact ⟨c', aggs_of_readTextBucket hread⟩
  | range | dateRange =>
      obtain ⟨bs, hbs, rfl⟩ := map_eq_ok_iff.mp h
      obtain ⟨b, hb, rfl⟩ := List.mem_map.mp hbucket
      exact aggs_of_readRanges hbs hb
  | filters =>
      obtain ⟨bs, hbs, rfl⟩ := map_eq_ok_iff.mp h
      obtain ⟨b, hb, rfl⟩ := List.mem_map.mp hbucket
      exact aggs_of_readFilters hbs hb
  | filter | all | nested | reverseNested =>
      obtain ⟨b, hb, rfl⟩ := map_eq_ok_iff.mp h
      obtain rfl := List.mem_singleton.mp hbucket
      rw [Bucket.aggs_mapKey]
      exact ⟨c, aggs_of_readBucket hb⟩

theorem aggs_of_map_mapKey {κ κ' : Type} {read : Cursor → Except Error (Bucket κ (AggResult δ))}
    {f : κ → κ'} (hread : ∀ c b, read c = .ok b → sub c = .ok b.aggs) (c : Cursor)
    (bucket : Bucket κ' (AggResult δ)) (h : Bucket.mapKey f <$> read c = .ok bucket) :
    sub c = .ok bucket.aggs := by
  obtain ⟨b, hb, rfl⟩ := map_eq_ok_iff.mp h
  exact hread c b hb

theorem eq_of_array {values : List Json} {items : Items}
    (hvalues : c.fields.get? "buckets" = some (.array values))
    (hitems : c.array "buckets" = .ok items) : items = ⟨values, c.path.field "buckets"⟩ := by
  rw [array_eq_ok_iff.mpr ⟨values, hvalues, rfl⟩] at hitems
  exact (Except.ok.inj hitems).symm

theorem exists_readEach (b : Bucketing) (hmany : ¬ b.Single)
    (sub : Cursor → Except Error (AggResults δ)) :
    ∃ one : Cursor → Except Error (Bucket BucketKey (AggResult δ)),
      (∀ (c : Cursor) (values : List Json) (result : AggResult δ),
        c.fields.get? "buckets" = some (.array values) → b.read sub c = .ok result →
        Items.ReadEach ⟨values, c.path.field "buckets"⟩ one result.buckets) ∧
      ∀ element bucket, one element = .ok bucket → sub element = .ok bucket.aggs := by
  -- In each case the first part finds the reader, which is the one that the division uses.
  cases b with
  | terms source =>
      apply Exists.intro
      constructor
      · intro c values result hvalues h
        obtain ⟨items, hitems, h⟩ := bind_eq_ok_iff.mp h
        obtain rfl := eq_of_array hvalues hitems
        obtain ⟨bs, hbs, h⟩ := bind_eq_ok_iff.mp h
        obtain ⟨errorBound, -, h⟩ := bind_eq_ok_iff.mp h
        obtain ⟨otherCount, -, h⟩ := bind_eq_ok_iff.mp h
        cases h
        exact (mapObjects_eq_ok_iff.mp hbs).map _
      · exact aggs_of_map_mapKey fun _ _ => aggs_of_readTextBucket
  | significantTerms value =>
      apply Exists.intro
      constructor
      · intro c values result hvalues h
        obtain ⟨items, hitems, h⟩ := bind_eq_ok_iff.mp h
        obtain rfl := eq_of_array hvalues hitems
        obtain ⟨bs, hbs, h⟩ := bind_eq_ok_iff.mp h
        obtain ⟨docCount, -, h⟩ := bind_eq_ok_iff.mp h
        obtain ⟨bgCount, -, h⟩ := bind_eq_ok_iff.mp h
        cases h
        exact (mapObjects_eq_ok_iff.mp hbs).map _
      · exact aggs_of_map_mapKey fun _ _ => aggs_of_readSignificantBucket
  | histogram =>
      apply Exists.intro
      constructor
      · intro c values result hvalues h
        obtain ⟨bs, hbs, rfl⟩ := map_eq_ok_iff.mp h
        rw [readBuckets_array hvalues] at hbs
        exact (mapObjects_eq_ok_iff.mp hbs).map _
      · exact aggs_of_map_mapKey fun _ _ => aggs_of_readNumberBucket
  | dateHistogram origin =>
      apply Exists.intro
      constructor
      · intro c values result hvalues h
        obtain ⟨bs, hbs, rfl⟩ := map_eq_ok_iff.mp h
        rw [readBuckets_array hvalues] at hbs
        exact (mapObjects_eq_ok_iff.mp hbs).map _
      · exact aggs_of_map_mapKey fun _ _ => aggs_of_readTextBucket
  | range | dateRange =>
      apply Exists.intro
      constructor
      · intro c values result hvalues h
        obtain ⟨bs, hbs, rfl⟩ := map_eq_ok_iff.mp h
        rw [readRanges_array hvalues] at hbs
        exact (mapObjects_eq_ok_iff.mp hbs).map _
      · exact aggs_of_map_mapKey fun _ _ => aggs_of_readRangeBucket
  | filters =>
      apply Exists.intro
      constructor
      · intro c values result hvalues h
        obtain ⟨bs, hbs, rfl⟩ := map_eq_ok_iff.mp h
        rw [readFilters_array hvalues] at hbs
        exact (mapObjects_eq_ok_iff.mp hbs).map _
      · exact aggs_of_map_mapKey fun _ _ => aggs_of_readBucket
  | filter | all | nested | reverseNested => exact absurd trivial hmany

end Bucketing

/-! ## Trees of results -/

namespace Agg

variable {aggs : Aggs δ} {c : Cursor} {results : AggResults δ}

theorem keys_of_readAll (h : readAll aggs c = .ok results) : results.keys = aggs.keys := by
  have hentries := readAll_eq_ok_iff.mp h
  rw [Entries.keys, Entries.keys, ← List.forall₂_eq_eq_eq, List.forall₂_map_left_iff,
    List.forall₂_map_right_iff]
  exact hentries.flip.imp fun _ _ hentry => hentry.1

theorem object_of_readAll (h : readAll aggs c = .ok results) {name : String}
    (hname : name ∈ aggs.keys) : ∃ fields, c.fields.get? name = some (.object fields) := by
  obtain ⟨hlength, hentry⟩ := List.forall₂_iff_get.mp (readAll_eq_ok_iff.mp h)
  obtain ⟨e, he, rfl⟩ := List.mem_map.mp hname
  obtain ⟨i, hi, rfl⟩ := List.mem_iff_getElem.mp he
  obtain ⟨-, inner, hinner, -⟩ := hentry i hi (hlength ▸ hi)
  obtain ⟨fields, hfields, -⟩ := object_eq_ok_iff.mp hinner
  exact ⟨fields, hfields⟩

theorem read_of_readAll (h : readAll aggs c = .ok results) {i : Nat} {name name' : String}
    {agg : Agg δ} {result : AggResult δ} (hagg : aggs[i]? = some (name, agg))
    (hresult : results[i]? = some (name', result)) : ∃ inner, agg.read inner = .ok result := by
  obtain ⟨-, hentry⟩ := List.forall₂_iff_get.mp (readAll_eq_ok_iff.mp h)
  obtain ⟨hi, heq⟩ := List.getElem?_eq_some_iff.mp hagg
  obtain ⟨hi', heq'⟩ := List.getElem?_eq_some_iff.mp hresult
  obtain ⟨-, inner, -, hread⟩ := hentry i hi hi'
  rw [List.get_eq_getElem, List.get_eq_getElem, heq, heq'] at hread
  exact ⟨inner, hread⟩

end Agg

/--
The aggregations `inner` with the results `innerResults` stand inside a bucket
of a bucket, and so on, of the aggregations `aggs` with the results `results`.
-/
inductive Inside : Aggs δ → AggResults δ → Aggs δ → AggResults δ → Prop where
  | here {aggs : Aggs δ} {results : AggResults δ} : Inside aggs results aggs results
  | bucket {aggs subs inner : Aggs δ} {results innerResults : AggResults δ} {i : Nat}
      {name name' : String} {b : Bucketing} {result : AggResult δ}
      {bucket : Bucket BucketKey (AggResult δ)}
      (hagg : aggs[i]? = some (name, .buckets b subs))
      (hresult : results[i]? = some (name', result)) (hbucket : bucket ∈ result.buckets)
      (inside : Inside subs bucket.aggs inner innerResults) :
      Inside aggs results inner innerResults

theorem Inside.readAll {aggs inner : Aggs δ} {results innerResults : AggResults δ}
    (h : Inside aggs results inner innerResults) {c : Cursor}
    (hread : Agg.readAll aggs c = .ok results) :
    ∃ c', Agg.readAll inner c' = .ok innerResults := by
  induction h generalizing c with
  | here => exact ⟨c, hread⟩
  | bucket hagg hresult hbucket _ ih =>
      obtain ⟨answer, hanswer⟩ := Agg.read_of_readAll hread hagg hresult
      rw [Agg.read] at hanswer
      obtain ⟨c', hc'⟩ := Bucketing.aggs_of_read hanswer hbucket
      exact ih hc'

/--
A registry names each aggregation once, in the order of first registration, with
the aggregation registered last, and is written so.  Results have the names of
their aggregations at the top and inside every bucket at every depth.  Buckets
given in an array are read one from each element alone.  An answer that lacks a
registered name cannot be read.
-/
theorem results_mirror_aggregations :
    (∀ adds : Entries (Agg δ),
      let aggs : Aggs δ := adds.foldl (fun aggs e => aggs.add e.1 e.2) []
      aggs.keys.Nodup ∧ aggs.keys = adds.keys.eraseDups ∧
        (∀ name, aggs.get? name = Entries.get? adds.reverse name) ∧
        ∀ f : Features,
          Agg.documents f aggs = aggs.map fun e => (e.1, .object (e.2.document f))) ∧
    (∀ (aggs : Aggs δ) (c : Cursor) (results : AggResults δ), Agg.readAll aggs c = .ok results →
      ∀ inner innerResults, Inside aggs results inner innerResults →
        innerResults.keys = inner.keys ∧ ∃ c', Agg.readAll inner c' = .ok innerResults) ∧
    (∀ (b : Bucketing) (subs : Aggs δ), ¬ b.Single →
      ∃ one : Cursor → Except Error (Bucket BucketKey (AggResult δ)),
        (∀ (c : Cursor) (values : List Json) (result : AggResult δ),
          c.fields.get? "buckets" = some (.array values) →
          (Agg.buckets b subs).read c = .ok result →
          result.buckets.length = values.length ∧
            ∀ (k : Nat) (bucket : Bucket BucketKey (AggResult δ)),
              result.buckets[k]? = some bucket →
              ∃ element, values[k]? = some (.object element) ∧
                one ⟨element, (c.path.field "buckets").item k⟩ = .ok bucket) ∧
        ∀ element bucket, one element = .ok bucket →
          Agg.readAll subs element = .ok bucket.aggs) ∧
    ∀ (aggs : Aggs δ) (c : Cursor) (name : String), name ∈ aggs.keys →
      (c.fields.get? name = none ∨ c.fields.get? name = some .null) →
      ∃ e, Agg.readAll aggs c = .error e := by
  refine ⟨fun adds => ?_, fun aggs c results hread inner innerResults hinside => ?_,
    fun b subs hmany => ?_, fun aggs c name hname habsent => ?_⟩
  · exact ⟨Entries.nodup_keys_setAll adds, Entries.keys_setAll adds, Entries.get?_setAll adds,
      fun f => Agg.documents_eq_map f _⟩
  · obtain ⟨c', hc'⟩ := hinside.readAll hread
    exact ⟨Agg.keys_of_readAll hc', c', hc'⟩
  · obtain ⟨one, heach, hsub⟩ := b.exists_readEach hmany (Agg.readAll subs)
    refine ⟨one, fun c values result hvalues hread => ?_, hsub⟩
    rw [Agg.read] at hread
    obtain ⟨hlength, hitem⟩ := heach c values result hvalues hread
    exact ⟨hlength, hitem⟩
  · cases hread : Agg.readAll aggs c with
    | error e => exact ⟨e, rfl⟩
    | ok results =>
        obtain ⟨fields, hfields⟩ := Agg.object_of_readAll hread hname
        rw [hfields] at habsent
        rcases habsent with habsent | habsent <;> cases habsent

theorem results_mirror_aggregations_nested :
    let counted : Aggs Json := [("n", .metric (.valueCount ⟨.long, .field "rank"⟩))]
    let langs : Aggs Json :=
      [("langs", .buckets (.filters (.named [("en", .matchAll)]) none) counted)]
    let aggs : Aggs Json := [("tags", .buckets (.terms ⟨⟨.keyword, .field "tag"⟩, none⟩ {}) langs)]
    let bucket (tag : String) (n : Int) : Json := .object [("key", .string tag),
      ("doc_count", .int 1), ("langs", .object [("buckets", .object [("en", .object
        [("doc_count", .int 1), ("n", .object [("value", .int n)])])])])]
    let c : Cursor := ⟨[("tags", .object [("buckets", .array [bucket "a" 1, bucket "b" 2])])], {}⟩
    ∃ results, Agg.readAll aggs c = .ok results ∧
      Inside aggs results counted [("n", .count 2)] ∧
      Entries.keys [("n", (AggResult.count 2 : AggResult Json))] = counted.keys := by
  intro counted langs aggs bucket c
  let en (n : Int) : AggResults Json := [("langs", .filters [⟨some "en", 1, [("n", .count n)]⟩])]
  let results : AggResults Json := [("tags", .terms 0 0
    [⟨⟨⟨.keyword, "a"⟩, none⟩, 1, en 1⟩, ⟨⟨⟨.keyword, "b"⟩, none⟩, 1, en 2⟩])]
  have hread : Agg.readAll aggs c = .ok results := by rfl
  have hinside : Inside aggs results counted [("n", .count 2)] := by
    have htags : results[0]? = some ("tags", results[0].2) := rfl
    refine .bucket (i := 0) rfl htags (List.mem_cons_of_mem _ List.mem_cons_self) ?_
    have hlangs : (en 2)[0]? = some ("langs", (en 2)[0].2) := rfl
    exact .bucket (i := 0) rfl hlangs List.mem_cons_self .here
  exact ⟨results, hread, hinside,
    (results_mirror_aggregations.2.1 aggs c results hread counted _ hinside).1⟩

end SearchClient
