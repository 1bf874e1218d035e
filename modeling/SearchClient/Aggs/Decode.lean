import SearchClient.Aggs.Basic
import SearchClient.Aggs.Result
import SearchClient.Decimal.Read

/-!
# Reading results of aggregations

Each aggregation reads the object under its name.  Buckets come as an array or
as an object keyed by name; both shapes are read the same way, apart from the
order in which ranges and filters are then listed.
-/

namespace SearchClient

open Json (Cursor Items)

def Stats.read (c : Cursor) : Except Error Stats := do
  return {
    count := ← c.long "count"
    sum := ← c.double "sum"
    min := ← c.double? "min"
    max := ← c.double? "max"
    avg := ← c.double? "avg" }

def innerDouble? (c : Option Cursor) (name : String) : Except Error (Option Float) :=
  match c with
  | some c => c.double? name
  | none => .ok none

def ExtendedStats.read (c : Cursor) : Except Error ExtendedStats := do
  let bounds ← c.object? "std_deviation_bounds"
  return {
    stats := ← Stats.read c
    sumOfSquares := ← c.double? "sum_of_squares"
    variance := ← c.double? "variance"
    stdDeviation := ← c.double? "std_deviation"
    upper := ← innerDouble? bounds "upper"
    lower := ← innerDouble? bounds "lower" }

def readPercentiles (c : Cursor) : Except Error (List (Float × Option Float)) := do
  let path := c.path.field "values"
  match ← c.value "values" with
  | .object fields =>
      fields.mapM fun (key, value) =>
        match Decimal.float? key with
        | some percent => .ok (percent, value.double?)
        | none => .error (.invalidType (path.field key) "number")
  | .array values =>
      Items.mapObjects ⟨values, path⟩ fun item => do
        return (← item.double "key", ← item.double? "value")
  | _ => .error (.invalidType path "object or array")

namespace Metric

variable {δ : Type}

def read : Metric δ → Cursor → Except Error (AggResult δ)
  | single .., c | weightedAvg .., c => do
      return .value (← c.double? "value") (← c.string? "value_as_string")
  | stats _, c => .stats <$> Stats.read c
  | valueCount _, c | cardinality .., c => .count <$> c.long "value"
  | extendedStats .., c => .extendedStats <$> ExtendedStats.read c
  | percentiles .., c => .percentiles <$> readPercentiles c
  | scripted .., c => .ok (.document ((c.value? "value").getD .null))
  | topHits t, c => do return .topHits (← Hits.read t.doc (← c.object "hits"))

end Metric

def readBuckets {β : Type} (c : Cursor) (read : Option String → Cursor → Except Error β) :
    Except Error (List β) := do
  let path := c.path.field "buckets"
  match ← c.value "buckets" with
  | .array values => Items.mapObjects ⟨values, path⟩ (read none)
  | .object fields =>
      let keyed : Cursor := ⟨fields, path⟩
      keyed.keys.mapM fun name => do read (some name) (← keyed.object name)
  | _ => .error (.invalidType path "array or object")

def declaredPlace (declared : List (Option String)) (key : Option String) : Nat :=
  declared.findIdx fun k => k.isSome && k == key

def isKeyed : Json → Bool
  | .object _ => true
  | _ => false

section

variable {α : Type} (sub : Cursor → Except Error (List (String × α)))

def readBucket {κ : Type} (key : κ) (c : Cursor) : Except Error (Bucket κ α) := do
  return ⟨key, ← c.long "doc_count", ← sub c⟩

def readRangeBucket (name : Option String) (c : Cursor) :
    Except Error (Bucket RangeKey α) := do
  let key ←
    match name with
    | some name => pure (some name)
    | none => c.string? "key"
  let low ← c.double? "from"
  let high ← c.double? "to"
  let lowText ← c.string? "from_as_string"
  let highText ← c.string? "to_as_string"
  readBucket sub ⟨key, low, high, lowText, highText⟩ c

/-- Keyed range buckets are listed in the order the ranges were declared. -/
def readRanges (declared : List (Option String)) (c : Cursor) :
    Except Error (List (Bucket RangeKey α)) := do
  let keyed := isKeyed (← c.value "buckets")
  let buckets ← readBuckets c (readRangeBucket sub)
  let place (b : Bucket RangeKey α) : Nat := declaredPlace declared b.key.key
  return if keyed then buckets.mergeSort fun a b => decide (place a ≤ place b) else buckets

/-- Keyed filter buckets are read by the declared names, then the other bucket. -/
def readFilters (names : List String) (otherKey : Option String) (c : Cursor) :
    Except Error (List (Bucket (Option String) α)) := do
  match ← c.value "buckets" with
  | .object fields =>
      let keyed : Cursor := ⟨fields, c.path.field "buckets"⟩
      let declared ← names.mapM fun name => do
        readBucket sub (some name) (← keyed.object name)
      match otherKey with
      | none => return declared
      | some other =>
          match ← keyed.object? other with
          | none => return declared
          | some bucket => return declared ++ [← readBucket sub (some other) bucket]
  | _ => readBuckets c fun _ bucket => readBucket sub none bucket

end

def FilterSet.names : FilterSet → List String
  | named filters => filters.map (·.1)
  | anonymous _ => []

namespace Bucketing

variable {δ : Type}

def read (sub : Cursor → Except Error (List (String × AggResult δ))) :
    Bucketing → Cursor → Except Error (AggResult δ)
  | terms source _, c => do
      let buckets ← (← c.array "buckets").mapObjects fun bucket => do
        let key ← source.value.readTerm (← bucket.value "key")
        let text ← bucket.string? "key_as_string"
        readBucket sub ⟨key, text⟩ bucket
      return .terms ((← c.long? "doc_count_error_upper_bound").getD 0)
        ((← c.long? "sum_other_doc_count").getD 0) buckets
  | significantTerms value .., c => do
      let buckets ← (← c.array "buckets").mapObjects fun bucket => do
        let key ← value.readTerm (← bucket.value "key")
        let docCount ← bucket.long "doc_count"
        let bgCount ← bucket.long? "bg_count"
        let score ← bucket.double? "score"
        return (⟨⟨key, bgCount, score⟩, docCount, ← sub bucket⟩ : Bucket SignificantKey _)
      return .significantTerms (← c.long? "doc_count") (← c.long? "bg_count") buckets
  | histogram .., c =>
      .histogram <$> readBuckets c fun _ bucket => do
        let key ← bucket.double "key"
        let text ← bucket.string? "key_as_string"
        readBucket sub ⟨key, text⟩ bucket
  | dateHistogram origin _, c =>
      .dateHistogram <$> readBuckets c fun _ bucket => do
        let key ← FieldType.date.readFor origin.describe (← bucket.value "key")
        let text ← bucket.string? "key_as_string"
        readBucket sub ⟨key, text⟩ bucket
  | range _ ranges _, c => .ranges <$> readRanges sub (ranges.map (·.key)) c
  | dateRange _ ranges .., c => .ranges <$> readRanges sub (ranges.map (·.key)) c
  | filters set otherKey, c => .filters <$> readFilters sub set.names otherKey c
  | filter _, c | all, c | nested _, c | reverseNested _, c => .single <$> readBucket sub () c

end Bucketing

namespace Agg

variable {δ : Type}

mutual

def read : Agg δ → Cursor → Except Error (AggResult δ)
  | metric m, c => m.read c
  | buckets b subs, c => b.read (readAll subs) c
termination_by structural agg => agg

def readAll : List (String × Agg δ) → Cursor → Except Error (List (String × AggResult δ))
  | [], _ => .ok []
  | (name, agg) :: rest, c => do
      let result ← agg.read (← c.object name)
      let results ← readAll rest c
      return (name, result) :: results
termination_by structural aggs => aggs

end

end Agg

end SearchClient
