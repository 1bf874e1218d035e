import SearchClient.Engine.Features
import SearchClient.Expression

/-!
# Queries without queries inside

A leaf query tests the fields of a document directly.  Its body is what stands
under its name on the wire; many kinds have a short body for the case that no
option is set.
-/

namespace SearchClient

open Json (Object field field? natField boolField stringField floatField)

def boostField (boost : Option Float) : Object := floatField "boost" boost

inductive RangeRelation where
  | intersects
  | contains
  | within
  deriving DecidableEq, Repr

def RangeRelation.text : RangeRelation → String
  | intersects => "INTERSECTS"
  | contains => "CONTAINS"
  | within => "WITHIN"

instance : Keyword RangeRelation := ⟨[.intersects, .contains, .within], RangeRelation.text⟩

structure RangeBounds where
  gt : Option Json := none
  gte : Option Json := none
  lt : Option Json := none
  lte : Option Json := none
  relation : Option RangeRelation := none
  boost : Option Float := none
  deriving BEq, Inhabited

def RangeBounds.document (r : RangeBounds) : Object :=
  field? "gt" r.gt ++ field? "gte" r.gte ++ field? "lt" r.lt ++ field? "lte" r.lte ++
    stringField "relation" (r.relation.map (·.text)) ++ boostField r.boost

inductive Operator where
  | and
  | or
  deriving DecidableEq, Repr

def Operator.text : Operator → String
  | and => "and"
  | or => "or"

instance : Keyword Operator := ⟨[.and, .or], Operator.text⟩

def operatorField (operator : Option Operator) : Object :=
  stringField "operator" (operator.map (·.text))

structure MatchOptions where
  analyzer : Option String := none
  operator : Option Operator := none
  minimumShouldMatch : Option Json := none
  fuzziness : Option String := none
  boost : Option Float := none
  deriving BEq, Inhabited

def MatchOptions.document (o : MatchOptions) : Object :=
  stringField "analyzer" o.analyzer ++ operatorField o.operator ++
    field? "minimum_should_match" o.minimumShouldMatch ++
    stringField "fuzziness" o.fuzziness ++ boostField o.boost

structure PhraseOptions where
  slop : Option Nat := none
  analyzer : Option String := none
  boost : Option Float := none
  deriving BEq, Inhabited

def PhraseOptions.document (o : PhraseOptions) : Object :=
  natField "slop" o.slop ++
    stringField "analyzer" o.analyzer ++ boostField o.boost

inductive MultiMatchType where
  | bestFields
  | mostFields
  | crossFields
  | phrase
  | phraseStart
  | boolStart
  deriving DecidableEq, Repr

def MultiMatchType.text : MultiMatchType → String
  | bestFields => "best_fields"
  | mostFields => "most_fields"
  | crossFields => "cross_fields"
  | phrase => "phrase"
  | phraseStart => "phrase_prefix"
  | boolStart => "bool_prefix"

instance : Keyword MultiMatchType :=
  ⟨[.bestFields, .mostFields, .crossFields, .phrase, .phraseStart, .boolStart], MultiMatchType.text⟩

structure MultiMatchOptions where
  type : Option MultiMatchType := none
  operator : Option Operator := none
  minimumShouldMatch : Option Json := none
  tieBreaker : Option Float := none
  boost : Option Float := none
  deriving BEq, Inhabited

def MultiMatchOptions.document (o : MultiMatchOptions) : Object :=
  stringField "type" (o.type.map (·.text)) ++ operatorField o.operator ++
    field? "minimum_should_match" o.minimumShouldMatch ++
    floatField "tie_breaker" o.tieBreaker ++ boostField o.boost

structure WildcardOptions where
  caseInsensitive : Option Bool := none
  boost : Option Float := none
  deriving BEq, Inhabited

def WildcardOptions.document (o : WildcardOptions) : Object :=
  boolField "case_insensitive" o.caseInsensitive ++ boostField o.boost

inductive Leaf where
  | matchAll (boost : Option Float)
  | term (field : String) (value : Json) (boost : Option Float)
  | terms (field : String) (values : List Json) (boost : Option Float)
  | ids (values : List String) (boost : Option Float)
  | hasField (field : String) (boost : Option Float)
  | range (field : String) (bounds : RangeBounds)
  | startsWith (field value : String) (boost : Option Float)
  | wildcard (field value : String) (options : WildcardOptions)
  | matchText (field text : String) (options : MatchOptions)
  | matchPhrase (field text : String) (options : PhraseOptions)
  | multiMatch (text : String) (fields : List String) (options : MultiMatchOptions)
  | raw (name : String) (body : Object)
  deriving BEq, Inhabited

namespace Leaf

def name : Leaf → String
  | matchAll _ => "match_all"
  | term .. => "term"
  | terms .. => "terms"
  | ids .. => "ids"
  | hasField .. => "exists"
  | range .. => "range"
  | startsWith .. => "prefix"
  | wildcard .. => "wildcard"
  | matchText .. => "match"
  | matchPhrase .. => "match_phrase"
  | multiMatch .. => "multi_match"
  | raw name _ => name

/-- A value alone, or under its own key when options go with it. -/
def valueOr (key : String) (value : Json) (options : Object) : Json :=
  if options.isEmpty then value else .object (field key value ++ options)

/--
The body of a leaf query.  The boost of a terms query is written after the
terms, into the same object as the field, and takes its place when the field
is itself called `boost`.
-/
def body (_f : Features) : Leaf → Object
  | matchAll boost => boostField boost
  | term name value boost => field name (valueOr "value" value (boostField boost))
  | terms name values boost => (field name (.array values)).setAll (boostField boost)
  | ids values boost => field "values" values ++ boostField boost
  | hasField name boost => field "field" name ++ boostField boost
  | range name bounds => field name (.object bounds.document)
  | startsWith name value boost => field name (valueOr "value" value (boostField boost))
  | wildcard name value options => field name (valueOr "value" value options.document)
  | matchText name text options => field name (valueOr "query" text options.document)
  | matchPhrase name text options => field name (valueOr "query" text options.document)
  | multiMatch text fields options =>
      field "query" text ++ field "fields" fields ++ options.document
  | raw _ body => body

end Leaf

end SearchClient
