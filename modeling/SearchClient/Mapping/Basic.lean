import SearchClient.Json.Value

/-!
# Mappings

A mapping says how the fields of documents are stored.  A field may be stored
in further ways, its sub-fields, and an object has properties of its own.
-/

namespace SearchClient

open Json (Object)

inductive DynamicFields where
  | enabled
  | disabled
  | strict
  deriving DecidableEq, Repr

inductive FieldMapping where
  | mk (type : String) (params : Object) (subFields properties : List (String × FieldMapping))

namespace FieldMapping

def type : FieldMapping → String
  | mk type _ _ _ => type

def params : FieldMapping → Object
  | mk _ params _ _ => params

def subFields : FieldMapping → Entries FieldMapping
  | mk _ _ subFields _ => subFields

def properties : FieldMapping → Entries FieldMapping
  | mk _ _ _ properties => properties

end FieldMapping

structure DynamicTemplate where
  matchMappingType : Option String := none
  matchName : Option String := none
  unmatchName : Option String := none
  pathMatch : Option String := none
  pathUnmatch : Option String := none
  mapping : Object := []
  deriving BEq, Inhabited

structure Mapping where
  dynamic : Option DynamicFields := none
  sourceEnabled : Option Bool := none
  fields : Entries FieldMapping := []
  templates : Entries DynamicTemplate := []

end SearchClient
