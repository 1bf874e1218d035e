import Mathlib.Data.List.Forall2
import Mathlib.Data.Option.Basic
import SearchClient.Proofs.Json.Success

/-!
# Readings in parallel

Two readings run in parallel when both fail, though perhaps with different
errors, or both give values that are related.  Readings of one field run in
parallel at any two objects that have the same value there, wherever the
objects stand.
-/

namespace SearchClient

variable {ε α β γ δ : Type}

inductive Parallel (R : α → β → Prop) : Except ε α → Except ε β → Prop where
  | ok {a : α} {b : β} (h : R a b) : Parallel R (.ok a) (.ok b)
  | error (e e' : ε) : Parallel R (.error e) (.error e')

namespace Parallel

variable {R : α → β → Prop} {r : Except ε α} {r' : Except ε β}

theorem same (r : Except ε α) : Parallel Eq r r := by
  cases r with
  | ok a => exact .ok rfl
  | error e => exact .error e e

theorem imp {S : α → β → Prop} (h : Parallel R r r') (hRS : ∀ a b, R a b → S a b) :
    Parallel S r r' := by
  cases h with
  | ok h => exact .ok (hRS _ _ h)
  | error e e' => exact .error e e'

theorem bind {S : γ → δ → Prop} {f : α → Except ε γ} {g : β → Except ε δ} (h : Parallel R r r')
    (hfg : ∀ a b, R a b → Parallel S (f a) (g b)) : Parallel S (r >>= f) (r' >>= g) := by
  cases h with
  | ok h => exact hfg _ _ h
  | error e e' => exact .error e e'

theorem next {S : γ → δ → Prop} {r r' : Except ε α} {f : α → Except ε γ} {g : α → Except ε δ}
    (h : Parallel Eq r r') (hfg : ∀ a, Parallel S (f a) (g a)) :
    Parallel S (r >>= f) (r' >>= g) :=
  h.bind fun a _ hab => hab ▸ hfg a

theorem map {S : γ → δ → Prop} {f : α → γ} {g : β → δ} (h : Parallel R r r')
    (hfg : ∀ a b, R a b → S (f a) (g b)) : Parallel S (f <$> r) (g <$> r') := by
  cases h with
  | ok h => exact .ok (hfg _ _ h)
  | error e e' => exact .error e e'

theorem mapSame {r r' : Except ε α} (f : α → γ) (h : Parallel Eq r r') :
    Parallel Eq (f <$> r) (f <$> r') :=
  h.map fun _ _ hab => congrArg f hab

theorem mapM {S : γ → δ → Prop} {f : α → Except ε γ} {g : β → Except ε δ} {xs : List α}
    {ys : List β} (h : List.Forall₂ (fun x y => Parallel S (f x) (g y)) xs ys) :
    Parallel (List.Forall₂ S) (xs.mapM f) (ys.mapM g) := by
  induction h with
  | nil => exact .ok .nil
  | cons hxy _ ih =>
      rw [List.mapM_cons, List.mapM_cons]
      refine hxy.bind fun c d hcd => ih.bind fun cs ds hrest => ?_
      exact .ok (.cons hcd hrest)

theorem mapMSame {f g : α → Except ε γ} {xs : List α}
    (h : ∀ x ∈ xs, Parallel Eq (f x) (g x)) : Parallel Eq (xs.mapM f) (xs.mapM g) :=
  (mapM (List.forall₂_same.mpr h)).imp fun cs ds hrest => by
    rwa [List.forall₂_eq_eq_eq] at hrest

theorem ok_iff {r r' : Except ε α} (h : Parallel Eq r r') (a : α) : r = .ok a ↔ r' = .ok a := by
  cases h with
  | ok h => rw [h]
  | error e e' => exact ⟨by rintro ⟨⟩, by rintro ⟨⟩⟩

end Parallel

theorem optionRel_eq {x y : Option α} : Option.Rel Eq x y ↔ x = y := by
  constructor
  · rintro (h | -)
    · rw [h]
    · rfl
  · rintro rfl
    cases x with
    | none => exact .none
    | some a => exact .some rfl

namespace Json

namespace Cursor

def SameFields (c c' : Cursor) : Prop := c.fields = c'.fields

variable {c c' : Cursor} {name : String}

theorem SameFields.get? (h : c.SameFields c') (name : String) :
    c.fields.get? name = c'.fields.get? name :=
  congrArg (Entries.get? · name) h

theorem value?_congr (h : c.fields.get? name = c'.fields.get? name) :
    c.value? name = c'.value? name := by
  rw [value?, value?, h]

theorem require_parallel {R : α → β → Prop} {found : Except Error (Option α)}
    {found' : Except Error (Option β)} (h : Parallel (Option.Rel R) found found') :
    Parallel R (c.require name found) (c'.require name found') := by
  cases h with
  | ok h =>
      cases h with
      | some h => exact .ok h
      | none => exact .error _ _
  | error e e' => exact .error e e'

theorem read?_parallel {R : α → β → Prop} {expected : String} {reader : Json → Option α}
    {reader' : Json → Option β} (h : c.fields.get? name = c'.fields.get? name)
    (hreader : ∀ value, Option.Rel R (reader value) (reader' value)) :
    Parallel (Option.Rel R) (c.read? name expected reader) (c'.read? name expected reader') := by
  unfold read?
  rw [value?_congr h]
  cases c'.value? name with
  | none => exact .ok .none
  | some value =>
      dsimp only
      have hvalue := hreader value
      generalize reader value = found, reader' value = found' at hvalue
      cases hvalue with
      | some h => exact .ok (.some h)
      | none => exact .error _ _

theorem field?_parallel {expected : String} {reader : Json → Option α}
    (h : c.fields.get? name = c'.fields.get? name) :
    Parallel Eq (c.read? name expected reader) (c'.read? name expected reader) :=
  (read?_parallel h fun _ => optionRel_eq.mpr rfl).imp fun _ _ => optionRel_eq.mp

theorem field_parallel {expected : String} {reader : Json → Option α}
    (h : c.fields.get? name = c'.fields.get? name) :
    Parallel Eq (c.require name (c.read? name expected reader))
      (c'.require name (c'.read? name expected reader)) :=
  require_parallel (read?_parallel h fun _ => optionRel_eq.mpr rfl)

theorem value_parallel (h : c.fields.get? name = c'.fields.get? name) :
    Parallel Eq (c.value name) (c'.value name) :=
  require_parallel (.ok (optionRel_eq.mpr (value?_congr h)))

theorem object?_parallel (h : c.fields.get? name = c'.fields.get? name) :
    Parallel (Option.Rel SameFields) (c.object? name) (c'.object? name) := by
  refine read?_parallel h fun value => ?_
  cases value with
  | object fields => exact .some rfl
  | _ => exact .none

theorem object_parallel (h : c.fields.get? name = c'.fields.get? name) :
    Parallel SameFields (c.object name) (c'.object name) :=
  require_parallel (object?_parallel h)

theorem array?_parallel (h : c.fields.get? name = c'.fields.get? name) :
    Parallel (Option.Rel fun items items' => items.values = items'.values) (c.array? name)
      (c'.array? name) := by
  refine read?_parallel h fun value => ?_
  cases value with
  | array values => exact .some rfl
  | _ => exact .none

theorem array_parallel (h : c.fields.get? name = c'.fields.get? name) :
    Parallel (fun items items' => items.values = items'.values) (c.array name) (c'.array name) :=
  require_parallel (array?_parallel h)

end Cursor

namespace Items

variable {items items' : Items}

theorem object_parallel (h : items.values = items'.values) (index : Nat) :
    Parallel Cursor.SameFields (items.object index) (items'.object index) := by
  unfold object
  rw [h]
  split
  · exact .ok rfl
  · exact .error _ _
  · exact .error _ _

theorem mapObjects_parallel {R : α → β → Prop} {read : Cursor → Except Error α}
    {read' : Cursor → Except Error β} (h : items.values = items'.values)
    (hread : ∀ c c', c.SameFields c' → Parallel R (read c) (read' c')) :
    Parallel (List.Forall₂ R) (items.mapObjects read) (items'.mapObjects read') := by
  rw [mapObjects_eq, mapObjects_eq, h]
  refine Parallel.mapM (List.forall₂_same.mpr fun index _ => ?_)
  exact (object_parallel h index).bind hread

end Items

end Json

open Json (Cursor)

/-- At equal objects the reading gives equal values, or fails, wherever they stand. -/
def Placeless (read : Cursor → Except Error α) : Prop :=
  ∀ c c', c.SameFields c' → Parallel Eq (read c) (read c')

end SearchClient
