import SearchClient.Json.Value

/-!
# What expressions share

Settings that take one of a few fixed words, scripts, and the choice of the
parts of a document that are returned.
-/

namespace SearchClient

open Json (Object field stringField listField objectField)

class Keyword (α : Type) where
  all : List α
  text : α → String

def Keyword.ofText? {α : Type} [Keyword α] (word : String) : Option α :=
  (Keyword.all : List α).find? fun a => Keyword.text a == word

inductive Script where
  | inline (source : String) (lang : Option String) (params : Object)
  | stored (id : String) (params : Object)
  deriving BEq, Inhabited

def Script.document : Script → Object
  | inline source lang params =>
      field "source" source ++ stringField "lang" lang ++
        objectField "params" params
  | stored id params => field "id" id ++ objectField "params" params

inductive SourceFilter where
  | enabled (enabled : Bool)
  | fields (includes excludes : List String)
  deriving DecidableEq, Repr

def SourceFilter.document : SourceFilter → Json
  | enabled b => b
  | fields includes excludes =>
      .object (listField "includes" (includes.map Json.string) ++
        listField "excludes" (excludes.map Json.string))

end SearchClient
