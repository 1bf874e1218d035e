import SearchClient.Query.Document
import SearchClient.Query.Reduce

/-!
# Sort orders

Hits are sorted by a field, by score or by a script.  A field of nested
objects is sorted by the objects that a filter admits, one filter for each
level of nesting; a filter that constrains nothing is not written.
-/

namespace SearchClient

open Json (Object field field? natField stringField objectUnder)

inductive Order where
  | asc
  | desc
  deriving DecidableEq, Repr

def Order.text : Order → String
  | asc => "asc"
  | desc => "desc"

instance : Keyword Order := ⟨[.asc, .desc], Order.text⟩

inductive SortMode where
  | min
  | max
  | sum
  | avg
  | median
  deriving DecidableEq, Repr

def SortMode.text : SortMode → String
  | min => "min"
  | max => "max"
  | sum => "sum"
  | avg => "avg"
  | median => "median"

instance : Keyword SortMode := ⟨[.min, .max, .sum, .avg, .median], SortMode.text⟩

inductive MissingOrder where
  | first
  | last
  | value (value : Json)

def MissingOrder.document : MissingOrder → Json
  | first => "_first"
  | last => "_last"
  | value v => v

structure NestedLevel where
  path : String
  filter : Option Query := none
  maxChildren : Option Nat := none

def reducedField (f : Features) (name : String) (q : Option Query) : Object :=
  field? name ((q >>= Query.reduce).map (Query.document f))

/-- Levels of nested objects are written one inside the other, outermost first. -/
def nestedDocument? (f : Features) : List NestedLevel → Option Json
  | [] => none
  | level :: inner =>
      some (.object (field "path" level.path ++ reducedField f "filter" level.filter ++
        natField "max_children" level.maxChildren ++
        field? "nested" (nestedDocument? f inner)))

inductive SortTarget where
  | field (name : String)
  | score
  | script (script : Script) (type : String)

structure SortKey where
  target : SortTarget
  order : Option Order := none
  mode : Option SortMode := none
  numericType : Option String := none
  missing : Option MissingOrder := none
  unmappedType : Option String := none
  nested : List NestedLevel := []

namespace SortKey

def options (f : Features) (s : SortKey) : Object :=
  stringField "order" (s.order.map (·.text)) ++
    stringField "mode" (s.mode.map (·.text)) ++
    stringField "numeric_type" s.numericType ++
    field? "missing" (s.missing.map MissingOrder.document) ++
    stringField "unmapped_type" s.unmappedType ++
    field? "nested" (nestedDocument? f s.nested)

/-- The name alone when no option is set; scripts are always written in full. -/
def document (f : Features) (s : SortKey) : Json :=
  let named (name : String) : Json :=
    if (s.options f).isEmpty then name else .object (objectUnder name (s.options f))
  match s.target with
  | .field name => named name
  | .score => named "_score"
  | .script script type =>
      .object (objectUnder "_script"
        (field "type" type ++ objectUnder "script" script.document ++ s.options f))

end SortKey

namespace SortKey

def ofField (name : String) : SortKey := { target := .field name }

def asc (name : String) : SortKey := { target := .field name, order := some .asc }

def desc (name : String) : SortKey := { target := .field name, order := some .desc }

end SortKey

end SearchClient
