import SearchClient.Json.Cursor
import SearchClient.Proofs.Outcome

/-!
# Readings that succeed

What a reading of a document gives when it succeeds is said by the document
alone: an object or an array is given with the place it stands at, and from a
list of items every item is read by itself.
-/

namespace SearchClient.Json

variable {α : Type}

namespace Cursor

variable {c : Cursor} {name : String}

theorem value?_eq_some_iff {value : Json} :
    c.value? name = some value ↔ c.fields.get? name = some value ∧ value ≠ .null := by
  unfold value?
  split
  · rename_i h
    simp [h]
  · rename_i h
    rw [h]
    constructor
    · rintro ⟨⟩
    · rintro ⟨⟨⟩, hnull⟩
      exact absurd rfl hnull
  · rename_i found hnull hfound
    rw [hfound]
    constructor
    · rintro ⟨⟩
      exact ⟨rfl, fun heq => hnull heq⟩
    · exact And.left

theorem value?_eq_none_iff :
    c.value? name = none ↔ c.fields.get? name = none ∨ c.fields.get? name = some .null := by
  rw [Option.eq_none_iff_forall_ne_some]
  constructor
  · intro h
    cases hvalue : c.fields.get? name with
    | none => exact .inl rfl
    | some value =>
        by_contra hnull
        exact h value (value?_eq_some_iff.mpr ⟨hvalue, by rintro rfl; exact hnull (.inr rfl)⟩)
  · rintro (h | h) value hvalue
    · rw [(value?_eq_some_iff.mp hvalue).1] at h
      cases h
    · rw [(value?_eq_some_iff.mp hvalue).1] at h
      cases h
      exact (value?_eq_some_iff.mp hvalue).2 rfl

theorem require_eq_ok_iff {found : Except Error (Option α)} {a : α} :
    c.require name found = .ok a ↔ found = .ok (some a) := by
  unfold require
  split <;> simp

theorem value_eq_ok_iff {value : Json} :
    c.value name = .ok value ↔ c.fields.get? name = some value ∧ value ≠ .null := by
  rw [Cursor.value, require_eq_ok_iff, ← value?_eq_some_iff, Except.ok.injEq]

theorem read?_eq_some_iff {expected : String} {reader : Json → Option α} {a : α}
    (hnull : reader .null = none) :
    c.read? name expected reader = .ok (some a) ↔
      ∃ value, c.fields.get? name = some value ∧ reader value = some a := by
  unfold read?
  split
  · rename_i h
    rcases value?_eq_none_iff.mp h with h | h <;> simp [h, hnull]
  · rename_i value h
    obtain ⟨hvalue, -⟩ := value?_eq_some_iff.mp h
    cases hread : reader value <;> simp [hvalue, hread]

theorem read?_eq_none_iff {expected : String} {reader : Json → Option α} :
    c.read? name expected reader = .ok none ↔ c.value? name = none := by
  unfold read?
  split
  · rename_i h
    simp [h]
  · rename_i value h
    cases hread : reader value <;> simp [h]

theorem at?_eq_some_iff {path : Path} {value : Json} {c : Cursor} :
    at? path value = some c ↔ ∃ fields, value = .object fields ∧ c = ⟨fields, path⟩ := by
  cases value <;> simp [at?, eq_comm]

theorem object?_eq_some_iff {inner : Cursor} :
    c.object? name = .ok (some inner) ↔
      ∃ fields, c.fields.get? name = some (.object fields) ∧
        inner = ⟨fields, c.path.field name⟩ := by
  rw [object?, read?_eq_some_iff rfl]
  constructor
  · rintro ⟨value, hvalue, hat⟩
    obtain ⟨fields, rfl, rfl⟩ := at?_eq_some_iff.mp hat
    exact ⟨fields, hvalue, rfl⟩
  · rintro ⟨fields, hvalue, rfl⟩
    exact ⟨_, hvalue, rfl⟩

theorem object_eq_ok_iff {inner : Cursor} :
    c.object name = .ok inner ↔
      ∃ fields, c.fields.get? name = some (.object fields) ∧
        inner = ⟨fields, c.path.field name⟩ := by
  rw [object, require_eq_ok_iff, object?_eq_some_iff]

theorem array_eq_ok_iff {items : Items} :
    c.array name = .ok items ↔
      ∃ values, c.fields.get? name = some (.array values) ∧
        items = ⟨values, c.path.field name⟩ := by
  rw [array, require_eq_ok_iff, array?, read?_eq_some_iff rfl]
  constructor
  · rintro ⟨value, hvalue, hat⟩
    cases value <;> cases hat
    exact ⟨_, hvalue, rfl⟩
  · rintro ⟨values, hvalue, rfl⟩
    exact ⟨_, hvalue, rfl⟩

theorem ofDocument_eq_ok_iff {document : Json} :
    ofDocument document = .ok c ↔ ∃ fields, document = .object fields ∧ c = ⟨fields, {}⟩ := by
  cases document <;> simp [ofDocument, eq_comm]

end Cursor

namespace Items

variable {items : Items} {read : Cursor → Except Error α}

theorem object_eq_ok_iff {index : Nat} {c : Cursor} :
    items.object index = .ok c ↔
      ∃ fields, items.values[index]? = some (.object fields) ∧
        c = ⟨fields, items.path.item index⟩ := by
  unfold object
  split
  · rename_i fields h
    simp [h, eq_comm]
  · rename_i value hobject h
    simp only [h, reduceCtorEq, false_iff, not_exists, not_and]
    rintro fields ⟨⟩
    exact absurd rfl (hobject fields)
  · rename_i h
    simp [h]

theorem mapObjects_eq (items : Items) (read : Cursor → Except Error α) :
    items.mapObjects read =
      (List.range items.values.length).mapM fun index => items.object index >>= read := by
  rw [mapObjects, objects, List.mapM_map]
  rfl

/-- Each result is read from the element at its own index, whatever the others are. -/
structure ReadEach (items : Items) (read : Cursor → Except Error α) (results : List α) : Prop where
  length : results.length = items.values.length
  item : ∀ (k : Nat) (result : α), results[k]? = some result →
    ∃ element, items.values[k]? = some (.object element) ∧
      read ⟨element, items.path.item k⟩ = .ok result

theorem mapObjects_eq_ok_iff {results : List α} :
    items.mapObjects read = .ok results ↔ items.ReadEach read results := by
  have hread (k : Nat) (result : α) : items.object k >>= read = .ok result ↔
      ∃ element, items.values[k]? = some (.object element) ∧
        read ⟨element, items.path.item k⟩ = .ok result := by
    rw [bind_eq_ok_iff]
    constructor
    · rintro ⟨c, hc, hread⟩
      obtain ⟨element, helement, rfl⟩ := object_eq_ok_iff.mp hc
      exact ⟨element, helement, hread⟩
    · rintro ⟨element, helement, hread⟩
      exact ⟨_, object_eq_ok_iff.mpr ⟨element, helement, rfl⟩, hread⟩
  rw [mapObjects_eq, mapM_eq_ok_iff_getElem?, List.length_range]
  simp only [hread]
  constructor
  · rintro ⟨hlength, h⟩
    refine ⟨hlength, fun k result hresult => ?_⟩
    have hk : k < items.values.length := hlength ▸ (List.getElem?_eq_some_iff.mp hresult).1
    exact h k k result (List.getElem?_range hk) hresult
  · rintro ⟨hlength, h⟩
    refine ⟨hlength, fun i k result hi hresult => ?_⟩
    obtain ⟨hk, heq⟩ := List.getElem?_eq_some_iff.mp hi
    rw [List.getElem_range] at heq
    exact h k result (heq ▸ hresult)

theorem ReadEach.exists_of_mem {results : List α} (h : items.ReadEach read results) {result : α}
    (hmem : result ∈ results) : ∃ c, read c = .ok result := by
  obtain ⟨k, hk, rfl⟩ := List.mem_iff_getElem.mp hmem
  obtain ⟨element, -, hread⟩ := h.item k _ (List.getElem?_eq_getElem hk)
  exact ⟨_, hread⟩

theorem ReadEach.map {β : Type} {results : List α} (h : items.ReadEach read results)
    (f : α → β) : items.ReadEach (fun c => f <$> read c) (results.map f) := by
  refine ⟨by rw [List.length_map, h.length], fun k result hresult => ?_⟩
  rw [List.getElem?_map, Option.map_eq_some_iff] at hresult
  obtain ⟨before, hbefore, rfl⟩ := hresult
  obtain ⟨element, helement, hread⟩ := h.item k before hbefore
  exact ⟨element, helement, by rw [hread]; rfl⟩

end Items

end SearchClient.Json
