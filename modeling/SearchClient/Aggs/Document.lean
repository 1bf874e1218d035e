import SearchClient.Aggs.Basic

/-!
# The wire form of aggregations

An aggregation is written under its kind, with the aggregations of its
buckets, if any, beside it.  Queries in aggregations are written reduced.
-/

namespace SearchClient

open Json (Object field field? natField boolField stringField floatField objectUnder listField
  objectField)

def scriptField (name : String) (s : Option Script) : Object :=
  field? name (s.map fun s => .object s.document)

def SingleMetric.text : SingleMetric → String
  | min => "min"
  | max => "max"
  | avg => "avg"
  | sum => "sum"

instance : Keyword SingleMetric := ⟨[.min, .max, .avg, .sum], SingleMetric.text⟩

namespace Metric

variable {δ : Type}

def name : Metric δ → String
  | single m _ => m.text
  | stats _ => "stats"
  | valueCount _ => "value_count"
  | cardinality .. => "cardinality"
  | extendedStats .. => "extended_stats"
  | percentiles .. => "percentiles"
  | weightedAvg .. => "weighted_avg"
  | scripted .. => "scripted_metric"
  | topHits _ => "top_hits"

def body (f : Features) : Metric δ → Object
  | single _ source => source.document
  | stats source => source.document
  | valueCount value => value.document
  | cardinality source precisionThreshold =>
      source.documentWith (natField "precision_threshold" precisionThreshold)
  | extendedStats source sigma => source.documentWith (floatField "sigma" sigma)
  | percentiles source percents keyed =>
      source.documentWith
        (listField "percents" (percents.map Json.ofFloat) ++ boolField "keyed" keyed)
  | weightedAvg value weight format =>
      objectUnder "value" value.document ++ objectUnder "weight" weight.document ++
        stringField "format" format
  | scripted init map combine reduce params =>
      scriptField "init_script" init ++ scriptField "map_script" (some map) ++
        scriptField "combine_script" combine ++ scriptField "reduce_script" reduce ++
        objectField "params" params
  | topHits t =>
      natField "from" t.start ++ natField "size" t.size ++
        listField "sort" (t.sort.map (SortKey.document f)) ++
        field? "_source" (t.source.map SourceFilter.document)

end Metric

/-- One order is written as an object, several as a list of such objects. -/
def orderField : BucketOrder → Object
  | [] => []
  | [(key, order)] => objectUnder "order" (field key order.text)
  | orders =>
      field "order" (.array (orders.map fun (key, order) => .object (field key order.text)))

def AggRange.document {α : Type} (write : α → Json) (r : AggRange α) : Json :=
  .object (stringField "key" r.key ++ field? "from" (r.low.map write) ++
    field? "to" (r.high.map write))

def rangesField {α : Type} (write : α → Json) (ranges : List (AggRange α)) : Object :=
  field "ranges" (.array (ranges.map (AggRange.document write)))

def reducedDocument (f : Features) (q : Query) : Json := q.reduceOrAll.document f

/-- A filter name used twice keeps its place and takes the later filter. -/
def FilterSet.document (f : Features) : FilterSet → Json
  | named filters =>
      .object (Entries.setAll [] (filters.map fun (name, q) => (name, reducedDocument f q)))
  | anonymous filters => .array (filters.map (reducedDocument f))

namespace Bucketing

def name : Bucketing → String
  | terms .. => "terms"
  | significantTerms .. => "significant_terms"
  | histogram .. => "histogram"
  | dateHistogram .. => "date_histogram"
  | range .. => "range"
  | dateRange .. => "date_range"
  | filter _ => "filter"
  | all => "global"
  | nested _ => "nested"
  | reverseNested _ => "reverse_nested"
  | filters .. => "filters"

def body (f : Features) : Bucketing → Object
  | terms source o =>
      source.documentWith
          (natField "size" o.size ++ natField "shard_size" o.shardSize ++
            natField "min_doc_count" o.minDocCount ++ field? "include" o.included ++
            field? "exclude" o.excluded) ++
        orderField o.order
  | significantTerms value size minDocCount background =>
      value.document ++ natField "size" size ++ natField "min_doc_count" minDocCount ++
        reducedField f "background_filter" background
  | histogram source o =>
      source.documentWith
          (field "interval" o.interval ++ floatField "offset" o.offset ++
            natField "min_doc_count" o.minDocCount ++
            field? "extended_bounds" (o.extendedBounds.map fun (low, high) =>
              .object (field "min" low ++ field "max" high)) ++
            boolField "keyed" o.keyed) ++
        orderField o.order
  | dateHistogram origin o =>
      origin.document ++ stringField "calendar_interval" o.calendarInterval ++
        stringField "fixed_interval" o.fixedInterval ++ stringField "format" o.format ++
        stringField "time_zone" o.timeZone ++ natField "min_doc_count" o.minDocCount ++
        boolField "keyed" o.keyed ++ orderField o.order
  | range source ranges keyed =>
      source.documentWith (rangesField source.value.type.write ranges ++ boolField "keyed" keyed)
  | dateRange origin ranges format timeZone keyed =>
      origin.document ++ stringField "format" format ++ stringField "time_zone" timeZone ++
        rangesField Json.string ranges ++ boolField "keyed" keyed
  | filter q => q.reduceOrAll.fields f
  | all => []
  | nested path => field "path" path
  | reverseNested path => stringField "path" path
  | filters set otherKey =>
      field "filters" (set.document f) ++ stringField "other_bucket_key" otherKey

end Bucketing

namespace Agg

variable {δ : Type}

mutual

def document (f : Features) : Agg δ → Object
  | metric m => objectUnder m.name (m.body f)
  | buckets b subs => objectUnder b.name (b.body f) ++ objectField "aggs" (documents f subs)
termination_by structural agg => agg

def documents (f : Features) : List (String × Agg δ) → Object
  | [] => []
  | (name, agg) :: rest => (name, .object (agg.document f)) :: documents f rest
termination_by structural aggs => aggs

end

end Agg

end SearchClient
