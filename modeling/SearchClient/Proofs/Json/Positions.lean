import SearchClient.Json.Cursor
import SearchClient.Proofs.Entries
import SearchClient.Proofs.Outcome

/-!
# Errors and the positions they name

A cursor stands at the object its path leads to, and every way to move it or to
read from it keeps to that.  So a reading that fails names the position it
looked at, with all steps from the root of the response.
-/

namespace SearchClient

namespace Json

def step? : Json → Step → Option Json
  | .object fields, .name name => Entries.get? fields name
  | .array items, .index index => items[index]?
  | _, _ => none

namespace Path

def value? (p : Path) (response : Json) : Option Json :=
  if p.root = "" then p.steps.foldlM step? response else none

theorem value?_root (response : Json) : value? {} response = some response := rfl

theorem value?_field (p : Path) (name : String) (response : Json) :
    (p.field name).value? response = (p.value? response).bind (·.step? (.name name)) := by
  unfold value? field
  by_cases h : p.root = ""
  · simp only [h, if_true, List.foldlM_append]
    cases p.steps.foldlM step? response <;> simp
  · simp only [h, if_false, Option.bind_none]

theorem value?_item (p : Path) (index : Nat) (response : Json) :
    (p.item index).value? response = (p.value? response).bind (·.step? (.index index)) := by
  unfold value? item
  by_cases h : p.root = ""
  · simp only [h, if_true, List.foldlM_append]
    cases p.steps.foldlM step? response <;> simp
  · simp only [h, if_false, Option.bind_none]

/-- An object or an array stands in the response and has no value, or null, at a place. -/
inductive Missing (response : Json) : Path → Prop where
  | field {p : Path} {name : String} {fields : Object}
      (parent : p.value? response = some (.object fields))
      (absent : fields.get? name = none ∨ fields.get? name = some .null) :
      Missing response (p.field name)
  | item {p : Path} {index : Nat} {items : List Json}
      (parent : p.value? response = some (.array items))
      (absent : items[index]? = none ∨ items[index]? = some .null) :
      Missing response (p.item index)

end Path

end Json

open Json (Path Cursor Items)

/-- An error of decoding that names a position at which the response is wrong. -/
structure Error.Truthful (response : Json) (e : Error) : Prop where
  decode : e.isDecodeError = true
  missing : ∀ path, e = .missingField path → path.Missing response
  invalid : ∀ path expected, e = .invalidType path expected →
    path = .document ∨ (path.value? response).isSome = true

def Honest (response : Json) {α : Type} (r : Except Error α) : Prop :=
  Outcome (fun _ => True) (Error.Truthful response) r

variable {response : Json} {α β : Type}

namespace Error

theorem Truthful.missingField {path : Path} (h : path.Missing response) :
    (missingField path).Truthful response where
  decode := rfl
  missing := by
    rintro _ ⟨⟩
    exact h
  invalid := by rintro _ _ ⟨⟩

theorem Truthful.invalidType {path : Path} {expected : String}
    (h : path = .document ∨ (path.value? response).isSome = true) :
    (invalidType path expected).Truthful response where
  decode := rfl
  missing := by rintro _ ⟨⟩
  invalid := by
    rintro _ _ ⟨⟩
    exact h

theorem Truthful.unknownBulkOp (keys : String) : (unknownBulkOp keys).Truthful response :=
  ⟨rfl, by rintro _ ⟨⟩, by rintro _ _ ⟨⟩⟩

theorem Truthful.invalidTerm (field reason : String) :
    (invalidTerm field reason).Truthful response :=
  ⟨rfl, by rintro _ ⟨⟩, by rintro _ _ ⟨⟩⟩

end Error

namespace Honest

theorem ok {a : α} : Honest response (.ok a) := trivial

theorem error {e : Error} (h : e.Truthful response) : Honest response (.error e : Except Error α) :=
  h

theorem of_outcome {good : α → Prop} {r : Except Error α}
    (h : Outcome good (Error.Truthful response) r) : Honest response r :=
  h.imp (fun _ _ => trivial) fun _ he => he

/-- What follows a reading may rely on what that reading found. -/
theorem after {good : α → Prop} {r : Except Error α} {f : α → Except Error β}
    (h : Outcome good (Error.Truthful response) r) (hf : ∀ a, good a → Honest response (f a)) :
    Honest response (r >>= f) :=
  Outcome.bind h hf

theorem bind {r : Except Error α} {f : α → Except Error β} (h : Honest response r)
    (hf : ∀ a, Honest response (f a)) : Honest response (r >>= f) :=
  after h fun a _ => hf a

theorem map {r : Except Error α} (f : α → β) (h : Honest response r) :
    Honest response (f <$> r) :=
  Outcome.map h fun _ _ => trivial

theorem mapM {f : α → Except Error β} {xs : List α} (h : ∀ x ∈ xs, Honest response (f x)) :
    Honest response (xs.mapM f) :=
  of_outcome (Outcome.mapM h)

end Honest

namespace Json

/-! ## Objects -/

namespace Cursor

def In (response : Json) (c : Cursor) : Prop := c.path.value? response = some (.object c.fields)

variable {c : Cursor} {name : String}

theorem In.value?_field (hc : c.In response) (name : String) :
    (c.path.field name).value? response = c.fields.get? name := by
  rw [Path.value?_field, hc]
  rfl

theorem ofDocument_outcome (response : Json) :
    Outcome (In response) (Error.Truthful response) (ofDocument response) := by
  cases response with
  | object fields => exact Path.value?_root _
  | _ => exact Error.Truthful.invalidType (.inl rfl)

theorem value?_eq_some {value : Json} (h : c.value? name = some value) :
    c.fields.get? name = some value := by
  unfold value? at h
  split at h
  · cases h
  · cases h
  · rename_i hget
    rwa [← h]

theorem value?_eq_none (h : c.value? name = none) :
    c.fields.get? name = none ∨ c.fields.get? name = some .null := by
  unfold value? at h
  split at h
  · exact .inl ‹_›
  · exact .inr ‹_›
  · cases h

theorem In.missing (hc : c.In response) (h : c.value? name = none) :
    (c.path.field name).Missing response :=
  .field hc (value?_eq_none h)

theorem In.value?_isSome (hc : c.In response) {value : Json} (h : c.value? name = some value) :
    ((c.path.field name).value? response).isSome = true := by
  rw [hc.value?_field, value?_eq_some h]
  rfl

structure Optional (c : Cursor) (name : String) (good : α → Prop) (found : Option α) : Prop where
  absent : found = none → c.value? name = none
  good : ∀ a, found = some a → good a

theorem require_outcome (hc : c.In response) {good : α → Prop}
    {found : Except Error (Option α)}
    (h : Outcome (Optional c name good) (Error.Truthful response) found) :
    Outcome good (Error.Truthful response) (c.require name found) := by
  cases found with
  | error e => exact h
  | ok found =>
      cases found with
      | none => exact Error.Truthful.missingField (hc.missing (h.absent rfl))
      | some a => exact h.good a rfl

theorem read?_outcome (hc : c.In response) (good : α → Prop) (expected : String)
    {reader : Json → Option α}
    (h : ∀ value a, c.fields.get? name = some value → reader value = some a → good a) :
    Outcome (Optional c name good) (Error.Truthful response) (c.read? name expected reader) := by
  unfold read?
  cases hvalue : c.value? name with
  | none => exact ⟨fun _ => hvalue, by rintro a ⟨⟩⟩
  | some value =>
      cases hread : reader value with
      | none =>
          simp only [hread, outcome_error]
          exact Error.Truthful.invalidType (.inr (hc.value?_isSome hvalue))
      | some a =>
          simp only [hread, outcome_ok]
          refine ⟨by rintro ⟨⟩, ?_⟩
          rintro _ ⟨⟩
          exact h value a (value?_eq_some hvalue) hread

theorem In.field? (hc : c.In response) {expected : String} {reader : Json → Option α} :
    Honest response (c.read? name expected reader) :=
  .of_outcome (read?_outcome hc (fun _ => True) expected fun _ _ _ _ => trivial)

theorem In.field (hc : c.In response) {expected : String} {reader : Json → Option α} :
    Honest response (c.require name (c.read? name expected reader)) :=
  require_outcome hc (read?_outcome hc _ expected fun _ _ _ _ => trivial)

theorem value_outcome (hc : c.In response) (name : String) :
    Outcome (fun value => c.fields.get? name = some value) (Error.Truthful response)
      (c.value name) := by
  refine require_outcome hc ⟨id, fun value hvalue => value?_eq_some hvalue⟩

theorem at?_eq_some {path : Path} {value : Json} {c' : Cursor} (h : at? path value = some c') :
    value = .object c'.fields ∧ c'.path = path := by
  cases value with
  | object fields =>
      cases h
      exact ⟨rfl, rfl⟩
  | _ => cases h

theorem object?_outcome (hc : c.In response) (name : String) :
    Outcome (Optional c name (In response)) (Error.Truthful response) (c.object? name) := by
  refine read?_outcome hc _ _ fun value c' hvalue hc' => ?_
  obtain ⟨rfl, hpath⟩ := at?_eq_some hc'
  rw [In, hpath, hc.value?_field, hvalue]

theorem object_outcome (hc : c.In response) (name : String) :
    Outcome (In response) (Error.Truthful response) (c.object name) :=
  require_outcome hc (object?_outcome hc name)

end Cursor

namespace Items

def In (response : Json) (items : Items) : Prop :=
  items.path.value? response = some (.array items.values)

variable {items : Items}

theorem at?_eq_some {path : Path} {value : Json} {items : Items} (h : at? path value = some items) :
    value = .array items.values ∧ items.path = path := by
  cases value with
  | array values =>
      cases h
      exact ⟨rfl, rfl⟩
  | _ => cases h

theorem In.value?_item (h : items.In response) (index : Nat) :
    (items.path.item index).value? response = items.values[index]? := by
  rw [Path.value?_item, h]
  rfl

theorem object_outcome (h : items.In response) (index : Nat) :
    Outcome (Cursor.In response) (Error.Truthful response) (items.object index) := by
  have hvalue := h.value?_item index
  unfold object
  cases hitem : items.values[index]? with
  | none => exact Error.Truthful.missingField (.item h (.inl hitem))
  | some value =>
      cases value with
      | object fields => exact hvalue.trans hitem
      | _ => exact Error.Truthful.invalidType (.inr (by rw [hvalue, hitem]; rfl))

theorem mapObjects_honest (h : items.In response) {read : Cursor → Except Error α}
    (hread : ∀ c, c.In response → Honest response (read c)) :
    Honest response (items.mapObjects read) := by
  refine Honest.mapM fun cursor hcursor => ?_
  obtain ⟨index, -, rfl⟩ := List.mem_map.mp hcursor
  exact .after (object_outcome h index) hread

end Items

namespace Cursor

variable {c : Cursor}

theorem array?_outcome (hc : c.In response) (name : String) :
    Outcome (Optional c name (Items.In response)) (Error.Truthful response) (c.array? name) := by
  refine read?_outcome hc _ _ fun value items hvalue hitems => ?_
  obtain ⟨rfl, hpath⟩ := Items.at?_eq_some hitems
  rw [Items.In, hpath, hc.value?_field, hvalue]

theorem array_outcome (hc : c.In response) (name : String) :
    Outcome (Items.In response) (Error.Truthful response) (c.array name) :=
  require_outcome hc (array?_outcome hc name)

end Cursor

end Json

end SearchClient
