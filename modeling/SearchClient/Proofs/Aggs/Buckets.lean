import SearchClient.Aggs.Decode
import SearchClient.Proofs.Json.Success

/-!
# Reading buckets

Every bucket holds what the reader for its inside gives at the bucket itself,
and a list of buckets comes from the elements of an array, one from each, or
from the fields of an object.
-/

namespace SearchClient

open Json (Cursor Items)
open Json.Cursor (value_eq_ok_iff)
open Json.Items (mapObjects_eq_ok_iff)

section

variable {α κ : Type} {sub : Cursor → Except Error (List (String × α))} {c : Cursor}

theorem aggs_of_readBucket {key : κ} {b : Bucket κ α} (h : readBucket sub key c = .ok b) :
    sub c = .ok b.aggs := by
  obtain ⟨count, -, h⟩ := bind_eq_ok_iff.mp h
  obtain ⟨results, hresults, h⟩ := bind_eq_ok_iff.mp h
  cases h
  exact hresults

theorem key_of_readBucket {key : κ} {b : Bucket κ α} (h : readBucket sub key c = .ok b) :
    b.key = key := by
  obtain ⟨count, -, h⟩ := bind_eq_ok_iff.mp h
  obtain ⟨results, hresults, h⟩ := bind_eq_ok_iff.mp h
  cases h
  rfl

theorem aggs_of_readTextBucket {readKey : Json → Except Error κ} {b : Bucket (TextKey κ) α}
    (h : (do
      let key ← readKey (← c.value "key")
      let text ← c.string? "key_as_string"
      readBucket sub (⟨key, text⟩ : TextKey κ) c) = .ok b) : sub c = .ok b.aggs := by
  obtain ⟨value, -, h⟩ := bind_eq_ok_iff.mp h
  obtain ⟨key, -, h⟩ := bind_eq_ok_iff.mp h
  obtain ⟨text, -, h⟩ := bind_eq_ok_iff.mp h
  exact aggs_of_readBucket h

theorem aggs_of_readNumberBucket {b : Bucket (TextKey Float) α}
    (h : (do
      let key ← c.double "key"
      let text ← c.string? "key_as_string"
      readBucket sub (⟨key, text⟩ : TextKey Float) c) = .ok b) : sub c = .ok b.aggs := by
  obtain ⟨key, -, h⟩ := bind_eq_ok_iff.mp h
  obtain ⟨text, -, h⟩ := bind_eq_ok_iff.mp h
  exact aggs_of_readBucket h

theorem aggs_of_readSignificantBucket {readKey : Json → Except Error Term}
    {b : Bucket SignificantKey α}
    (h : (do
      let key ← readKey (← c.value "key")
      let docCount ← c.long "doc_count"
      let bgCount ← c.long? "bg_count"
      let score ← c.double? "score"
      return (⟨⟨key, bgCount, score⟩, docCount, ← sub c⟩ : Bucket SignificantKey α)) = .ok b) :
    sub c = .ok b.aggs := by
  obtain ⟨value, -, h⟩ := bind_eq_ok_iff.mp h
  obtain ⟨key, -, h⟩ := bind_eq_ok_iff.mp h
  obtain ⟨docCount, -, h⟩ := bind_eq_ok_iff.mp h
  obtain ⟨bgCount, -, h⟩ := bind_eq_ok_iff.mp h
  obtain ⟨score, -, h⟩ := bind_eq_ok_iff.mp h
  obtain ⟨results, hresults, h⟩ := bind_eq_ok_iff.mp h
  cases h
  exact hresults

def readRange (sub : Cursor → Except Error (List (String × α))) (key : Option String)
    (c : Cursor) : Except Error (Bucket RangeKey α) := do
  let low ← c.double? "from"
  let high ← c.double? "to"
  let lowText ← c.string? "from_as_string"
  let highText ← c.string? "to_as_string"
  readBucket sub ⟨key, low, high, lowText, highText⟩ c

theorem readRangeBucket_some (name : String) (c : Cursor) :
    readRangeBucket sub (some name) c = readRange sub (some name) c := rfl

theorem readRangeBucket_none (c : Cursor) :
    readRangeBucket sub none c = c.string? "key" >>= fun key => readRange sub key c := rfl

theorem readBucket_of_readRange {key : Option String} {b : Bucket RangeKey α}
    (h : readRange sub key c = .ok b) :
    ∃ range : RangeKey, range.key = key ∧ readBucket sub range c = .ok b := by
  obtain ⟨low, -, h⟩ := bind_eq_ok_iff.mp h
  obtain ⟨high, -, h⟩ := bind_eq_ok_iff.mp h
  obtain ⟨lowText, -, h⟩ := bind_eq_ok_iff.mp h
  obtain ⟨highText, -, h⟩ := bind_eq_ok_iff.mp h
  exact ⟨_, rfl, h⟩

theorem key_of_readRange {key : Option String} {b : Bucket RangeKey α}
    (h : readRange sub key c = .ok b) : b.key.key = key := by
  obtain ⟨range, rfl, hbucket⟩ := readBucket_of_readRange h
  rw [key_of_readBucket hbucket]

theorem aggs_of_readRangeBucket {name : Option String} {b : Bucket RangeKey α}
    (h : readRangeBucket sub name c = .ok b) : sub c = .ok b.aggs := by
  have hrest {key : Option String} (hread : readRange sub key c = .ok b) : sub c = .ok b.aggs := by
    obtain ⟨range, -, hbucket⟩ := readBucket_of_readRange hread
    exact aggs_of_readBucket hbucket
  cases name with
  | some name => exact hrest h
  | none =>
      obtain ⟨key, -, h⟩ := bind_eq_ok_iff.mp h
      exact hrest h

end

section

variable {β : Type} {read : Option String → Cursor → Except Error β} {c : Cursor}

theorem readBuckets_array {values : List Json}
    (h : c.fields.get? "buckets" = some (.array values)) :
    readBuckets c read = Items.mapObjects ⟨values, c.path.field "buckets"⟩ (read none) := by
  unfold readBuckets
  rw [value_eq_ok_iff.mpr ⟨h, by simp⟩]
  rfl

theorem readBuckets_object {fields : Json.Object}
    (h : c.fields.get? "buckets" = some (.object fields)) :
    readBuckets c read = fields.keys.mapM fun name =>
      Cursor.object ⟨fields, c.path.field "buckets"⟩ name >>= read (some name) := by
  unfold readBuckets
  rw [value_eq_ok_iff.mpr ⟨h, by simp⟩]
  rfl

theorem exists_of_mem_readBuckets {bs : List β} (h : readBuckets c read = .ok bs) {b : β}
    (hb : b ∈ bs) : ∃ name c', read name c' = .ok b := by
  obtain ⟨value, -, hrest⟩ := bind_eq_ok_iff.mp h
  cases value with
  | array values =>
      obtain ⟨c', hread⟩ := (mapObjects_eq_ok_iff.mp hrest).exists_of_mem hb
      exact ⟨none, c', hread⟩
  | object fields =>
      obtain ⟨name, -, hname⟩ := exists_of_mem_mapM hrest hb
      obtain ⟨c', -, hread⟩ := bind_eq_ok_iff.mp hname
      exact ⟨some name, c', hread⟩
  | _ => cases hrest

end

section

variable {α : Type} {sub : Cursor → Except Error (List (String × α))} {c : Cursor}

theorem aggs_of_readRanges {declared : List (Option String)} {bs : List (Bucket RangeKey α)}
    (h : readRanges sub declared c = .ok bs) {b : Bucket RangeKey α} (hb : b ∈ bs) :
    ∃ c', sub c' = .ok b.aggs := by
  obtain ⟨value, -, h⟩ := bind_eq_ok_iff.mp h
  obtain ⟨found, hfound, h⟩ := bind_eq_ok_iff.mp h
  have hmem : b ∈ found := by
    cases h
    split at hb
    · exact List.mem_mergeSort.mp hb
    · exact hb
  obtain ⟨name, c', hread⟩ := exists_of_mem_readBuckets hfound hmem
  exact ⟨c', aggs_of_readRangeBucket hread⟩

theorem readRanges_array {declared : List (Option String)} {values : List Json}
    (h : c.fields.get? "buckets" = some (.array values)) :
    readRanges sub declared c =
      Items.mapObjects ⟨values, c.path.field "buckets"⟩ (readRangeBucket sub none) := by
  unfold readRanges
  rw [value_eq_ok_iff.mpr ⟨h, by simp⟩, readBuckets_array h]
  exact bind_pure (Items.mapObjects _ (readRangeBucket sub none))

theorem readFilters_array {names : List String} {otherKey : Option String} {values : List Json}
    (h : c.fields.get? "buckets" = some (.array values)) :
    readFilters sub names otherKey c =
      Items.mapObjects ⟨values, c.path.field "buckets"⟩ (readBucket sub none) := by
  unfold readFilters
  rw [value_eq_ok_iff.mpr ⟨h, by simp⟩]
  change readBuckets c (fun _ bucket => readBucket sub none bucket) = _
  exact readBuckets_array h

theorem aggs_of_readFilters {names : List String} {otherKey : Option String}
    {bs : List (Bucket (Option String) α)} (h : readFilters sub names otherKey c = .ok bs)
    {b : Bucket (Option String) α} (hb : b ∈ bs) : ∃ c', sub c' = .ok b.aggs := by
  obtain ⟨value, -, h⟩ := bind_eq_ok_iff.mp h
  cases value with
  | object fields =>
      obtain ⟨declared, hdeclared, h⟩ := bind_eq_ok_iff.mp h
      have hinside {b : Bucket (Option String) α} (hb : b ∈ declared) :
          ∃ c', sub c' = .ok b.aggs := by
        obtain ⟨name, -, hname⟩ := exists_of_mem_mapM hdeclared hb
        obtain ⟨c', -, hread⟩ := bind_eq_ok_iff.mp hname
        exact ⟨c', aggs_of_readBucket hread⟩
      cases otherKey with
      | none =>
          cases h
          exact hinside hb
      | some other =>
          obtain ⟨found, -, h⟩ := bind_eq_ok_iff.mp h
          cases found with
          | none =>
              cases h
              exact hinside hb
          | some c' =>
              obtain ⟨last, hlast, h⟩ := bind_eq_ok_iff.mp h
              cases h
              rcases List.mem_append.mp hb with hb | hb
              · exact hinside hb
              · obtain rfl := List.mem_singleton.mp hb
                exact ⟨c', aggs_of_readBucket hlast⟩
  | _ =>
      obtain ⟨name, c', hread⟩ := exists_of_mem_readBuckets h hb
      exact ⟨c', aggs_of_readBucket hread⟩

end

end SearchClient
