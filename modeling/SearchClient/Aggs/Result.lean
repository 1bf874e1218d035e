import SearchClient.Aggs.Source
import SearchClient.Search.Hits

/-!
# Results of aggregations

Results form a tree of the shape of the aggregations they answer: every bucket
holds the results of the aggregations inside it, by name and in order.
-/

namespace SearchClient

open Time (Instant)

structure Stats where
  count : Int
  sum : Float
  min : Option Float
  max : Option Float
  avg : Option Float

structure ExtendedStats where
  stats : Stats
  sumOfSquares : Option Float
  variance : Option Float
  stdDeviation : Option Float
  upper : Option Float
  lower : Option Float

structure Bucket (κ α : Type) where
  key : κ
  docCount : Int
  aggs : List (String × α)

structure TextKey (κ : Type) where
  value : κ
  text : Option String

structure SignificantKey where
  value : Term
  bgCount : Option Int
  score : Option Float

structure RangeKey where
  key : Option String
  low : Option Float
  high : Option Float
  lowText : Option String
  highText : Option String

inductive AggResult (δ : Type) where
  | value (value : Option Float) (text : Option String)
  | count (count : Int)
  | stats (stats : Stats)
  | extendedStats (stats : ExtendedStats)
  | percentiles (values : List (Float × Option Float))
  | document (value : Json)
  | topHits (hits : Hits δ)
  | terms (errorBound otherCount : Int) (buckets : List (Bucket (TextKey Term) (AggResult δ)))
  | significantTerms (docCount bgCount : Option Int)
      (buckets : List (Bucket SignificantKey (AggResult δ)))
  | histogram (buckets : List (Bucket (TextKey Float) (AggResult δ)))
  | dateHistogram (buckets : List (Bucket (TextKey Instant) (AggResult δ)))
  | ranges (buckets : List (Bucket RangeKey (AggResult δ)))
  | filters (buckets : List (Bucket (Option String) (AggResult δ)))
  | single (bucket : Bucket Unit (AggResult δ))

abbrev AggResults (δ : Type) := Entries (AggResult δ)

def percentile? (values : List (Float × Option Float)) (percent : Float) : Option Float :=
  (values.find? fun entry => entry.1 == percent) >>= (·.2)

def rangeBucket? {α : Type} (buckets : List (Bucket RangeKey α)) (key : String) :
    Option (Bucket RangeKey α) :=
  buckets.find? fun b => b.key.key == some key

def filterBucket? {α : Type} (buckets : List (Bucket (Option String) α)) (key : String) :
    Option (Bucket (Option String) α) :=
  buckets.find? fun b => b.key == some key

end SearchClient
