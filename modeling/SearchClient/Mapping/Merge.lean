import SearchClient.Error
import SearchClient.Json.Text
import SearchClient.Mapping.Basic

/-!
# Merging mappings

Two mappings merge when they agree wherever both say something.  The result
lists what the first one says, then what only the second one adds.
-/

namespace SearchClient

open Json (Object)

def conflict {α : Type} (field reason : String) : Except Error α :=
  .error (.mappingConflict field reason)

def fieldPath (parent name : String) : String :=
  if parent.isEmpty then name else parent ++ "." ++ name

/-- Adds parameters to those of a field at a path, which they must not contradict. -/
def mergeParams (path : String) (left right : Object) : Except Error Object :=
  right.foldlM
    (fun merged (name, value) =>
      match merged.get? name with
      | none => .ok (merged.set name value)
      | some existing =>
          if existing == value then .ok merged
          else
            conflict path ("parameter [" ++ name ++ "] has conflicting values " ++
              existing.text ++ " and " ++ value.text))
    left

namespace FieldMapping

mutual

def merge (path : String) (left : FieldMapping) : FieldMapping → Except Error FieldMapping
  | mk type params subFields properties => do
      if left.type ≠ type then
        conflict path
          ("type [" ++ left.type ++ "] cannot be merged with type [" ++ type ++ "]")
      else
        let params ← mergeParams path left.params params
        let subFields ← mergeAll path left.subFields subFields
        let properties ← mergeAll path left.properties properties
        return mk left.type params subFields properties
termination_by structural right => right

def mergeAll (parent : String) (merged : Entries FieldMapping) :
    List (String × FieldMapping) → Except Error (Entries FieldMapping)
  | [] => .ok merged
  | (name, field) :: rest => do
      match merged.get? name with
      | none => mergeAll parent (merged.set name field) rest
      | some existing =>
          let both ← merge (fieldPath parent name) existing field
          mergeAll parent (merged.set name both) rest
termination_by structural right => right

end

end FieldMapping

def mergeSetting {α : Type} [DecidableEq α] (name : String) (shown : α → String) :
    Option α → Option α → Except Error (Option α)
  | some left, some right =>
      if left = right then .ok (some left)
      else conflict name (shown left ++ " cannot be merged with " ++ shown right)
  | some left, none => .ok (some left)
  | none, right => .ok right

def DynamicFields.shown : DynamicFields → String
  | enabled => "True"
  | disabled => "False"
  | strict => "Strict"

def mergeTemplates (left right : Entries DynamicTemplate) :
    Except Error (Entries DynamicTemplate) :=
  right.foldlM
    (fun merged (name, template) =>
      match merged.get? name with
      | none => .ok (merged.set name template)
      | some existing =>
          if existing == template then .ok merged
          else
            conflict ("dynamic_templates." ++ name)
              "template is defined twice with different settings")
    left

def Mapping.merge (left right : Mapping) : Except Error Mapping := do
  let dynamic ← mergeSetting "dynamic" DynamicFields.shown left.dynamic right.dynamic
  let sourceEnabled ←
    mergeSetting "_source" (fun b => if b then "true" else "false") left.sourceEnabled
      right.sourceEnabled
  let templates ← mergeTemplates left.templates right.templates
  let fields ← FieldMapping.mergeAll "" left.fields right.fields
  return { dynamic, sourceEnabled, fields, templates }

end SearchClient
