import SearchClient.Aggs.Source
import SearchClient.Expression
import SearchClient.Search.Hits
import SearchClient.SortKey

/-!
# Aggregations

An aggregation is a metric over documents or a division of documents into
buckets, each of which may be aggregated further.  A registry of aggregations
keeps them by name, in the order their names were first used.
-/

namespace SearchClient

open Json (Object)

inductive SingleMetric where
  | min
  | max
  | avg
  | sum
  deriving DecidableEq, Repr

structure TopHits (δ : Type) where
  size : Option Nat := none
  start : Option Nat := none
  sort : List SortKey := []
  source : Option SourceFilter := none
  doc : DocReader δ

inductive Metric (δ : Type) where
  | single (metric : SingleMetric) (source : AggSource)
  | stats (source : AggSource)
  | valueCount (value : AggValue)
  | cardinality (source : AggSource) (precisionThreshold : Option Nat)
  | extendedStats (source : AggSource) (sigma : Option Float)
  | percentiles (source : AggSource) (percents : List Float) (keyed : Option Bool)
  | weightedAvg (value weight : AggSource) (format : Option String)
  | scripted (init : Option Script) (map : Script) (combine reduce : Option Script)
      (params : Object)
  | topHits (topHits : TopHits δ)

abbrev BucketOrder := List (String × Order)

structure TermsOptions where
  size : Option Nat := none
  shardSize : Option Nat := none
  minDocCount : Option Nat := none
  included : Option Json := none
  excluded : Option Json := none
  order : BucketOrder := []

structure HistogramOptions where
  interval : Float
  offset : Option Float := none
  minDocCount : Option Nat := none
  extendedBounds : Option (Float × Float) := none
  keyed : Option Bool := none
  order : BucketOrder := []

/-- Calendar intervals vary in length, fixed ones do not. -/
structure DateHistogramOptions where
  calendarInterval : Option String := none
  fixedInterval : Option String := none
  format : Option String := none
  timeZone : Option String := none
  minDocCount : Option Nat := none
  keyed : Option Bool := none
  order : BucketOrder := []

structure AggRange (α : Type) where
  key : Option String := none
  low : Option α := none
  high : Option α := none

inductive FilterSet where
  | named (filters : List (String × Query))
  | anonymous (filters : List Query)

inductive Bucketing where
  | terms (source : AggSource) (options : TermsOptions)
  | significantTerms (value : AggValue) (size minDocCount : Option Nat)
      (background : Option Query)
  | histogram (source : AggSource) (options : HistogramOptions)
  | dateHistogram (origin : Origin) (options : DateHistogramOptions)
  | range (source : AggSource) (ranges : List (AggRange source.value.type.Value))
      (keyed : Option Bool)
  | dateRange (origin : Origin) (ranges : List (AggRange String)) (format timeZone : Option String)
      (keyed : Option Bool)
  | filter (query : Query)
  | all
  | nested (path : String)
  | reverseNested (path : Option String)
  | filters (filters : FilterSet) (otherKey : Option String)

inductive Agg (δ : Type) where
  | metric (metric : Metric δ)
  | buckets (bucketing : Bucketing) (subs : List (String × Agg δ))

abbrev Aggs (δ : Type) := Entries (Agg δ)

/-- Registers an aggregation; a name used before keeps its place. -/
def Aggs.add {δ : Type} (aggs : Aggs δ) (name : String) (agg : Agg δ) : Aggs δ :=
  Entries.set aggs name agg

end SearchClient
