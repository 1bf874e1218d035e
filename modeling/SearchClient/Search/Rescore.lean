import SearchClient.Query.Document
import SearchClient.Query.Node
import SearchClient.Query.Reduce

/-!
# Rescoring

The best hits are scored again by a second query.
-/

namespace SearchClient

open Json (natField stringField floatField objectUnder)

inductive RescoreMode where
  | total
  | multiply
  | avg
  | max
  | min
  deriving DecidableEq, Repr

def RescoreMode.text : RescoreMode → String
  | total => "total"
  | multiply => "multiply"
  | avg => "avg"
  | max => "max"
  | min => "min"

instance : Keyword RescoreMode := ⟨[.total, .multiply, .avg, .max, .min], RescoreMode.text⟩

structure Rescore where
  query : Query
  windowSize : Option Nat := none
  queryWeight : Option Float := none
  rescoreQueryWeight : Option Float := none
  mode : Option RescoreMode := none

namespace Rescore

def document (f : Features) (r : Rescore) : Json :=
  .object (natField "window_size" r.windowSize ++
    objectUnder "query"
      (objectUnder "rescore_query" (r.query.reduceOrAll.fields f) ++
        floatField "query_weight" r.queryWeight ++
        floatField "rescore_query_weight" r.rescoreQueryWeight ++
        stringField "score_mode" (r.mode.map (·.text))))

def replace (new : Node) (r : Rescore) : Rescore := { r with query := r.query.replace new }

end Rescore

end SearchClient
