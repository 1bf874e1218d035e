import Mathlib.Data.List.Forall2
import SearchClient.Error

/-!
# Outcomes

What is said about a computation that may fail is said of both its endings:
what holds of the value it gives, and what holds of the error it stops with.
Of a sequence of computations the first that fails decides.
-/

namespace SearchClient

variable {ε α β : Type} {good : α → Prop} {bad : ε → Prop}

theorem bind_eq_ok_iff {r : Except ε α} {f : α → Except ε β} {b : β} :
    r >>= f = .ok b ↔ ∃ a, r = .ok a ∧ f a = .ok b := by
  cases r <;> simp [bind, Except.bind]

theorem map_eq_ok_iff {r : Except ε α} {f : α → β} {b : β} :
    f <$> r = .ok b ↔ ∃ a, r = .ok a ∧ f a = b := by
  cases r <;> simp [Functor.map, Except.map]

theorem mapM_congr {f g : α → Except ε β} {xs : List α} (h : ∀ x ∈ xs, f x = g x) :
    xs.mapM f = xs.mapM g := by
  induction xs with
  | nil => rfl
  | cons x xs ih =>
      rw [List.mapM_cons, List.mapM_cons, h x List.mem_cons_self,
        ih fun y hy => h y (List.mem_cons_of_mem _ hy)]

theorem mapM_eq_ok_iff {f : α → Except ε β} {xs : List α} {ys : List β} :
    xs.mapM f = .ok ys ↔ List.Forall₂ (fun x y => f x = .ok y) xs ys := by
  induction xs generalizing ys with
  | nil =>
      rw [List.forall₂_nil_left_iff]
      constructor
      · rintro ⟨⟩
        rfl
      · rintro rfl
        rfl
  | cons x xs ih =>
      rw [List.mapM_cons, List.forall₂_cons_left_iff, bind_eq_ok_iff]
      constructor
      · rintro ⟨y, hy, hrest⟩
        obtain ⟨ys', hys', heq⟩ := bind_eq_ok_iff.mp hrest
        cases heq
        exact ⟨y, ys', hy, ih.mp hys', rfl⟩
      · rintro ⟨y, ys', hy, hys', rfl⟩
        exact ⟨y, hy, bind_eq_ok_iff.mpr ⟨ys', ih.mpr hys', rfl⟩⟩

theorem mapM_eq_ok_iff_getElem? {f : α → Except ε β} {xs : List α} {ys : List β} :
    xs.mapM f = .ok ys ↔
      ys.length = xs.length ∧
        ∀ (i : Nat) (x : α) (y : β), xs[i]? = some x → ys[i]? = some y → f x = .ok y := by
  rw [mapM_eq_ok_iff, List.forall₂_iff_get, eq_comm]
  refine and_congr_right fun _ => ?_
  constructor
  · intro h i x y hx hy
    obtain ⟨hi, rfl⟩ := List.getElem?_eq_some_iff.mp hx
    obtain ⟨hi', rfl⟩ := List.getElem?_eq_some_iff.mp hy
    exact h i hi hi'
  · intro h i hi hi'
    exact h i _ _ (List.getElem?_eq_getElem hi) (List.getElem?_eq_getElem hi')

theorem exists_of_mem_mapM {f : α → Except ε β} {xs : List α} {ys : List β}
    (h : xs.mapM f = .ok ys) {y : β} (hy : y ∈ ys) : ∃ x ∈ xs, f x = .ok y := by
  obtain ⟨hlength, hitem⟩ := mapM_eq_ok_iff_getElem?.mp h
  obtain ⟨i, hi, rfl⟩ := List.mem_iff_getElem.mp hy
  exact ⟨xs[i], List.getElem_mem (hlength ▸ hi), hitem i _ _ (List.getElem?_eq_getElem _)
    (List.getElem?_eq_getElem hi)⟩

theorem mapM_cons_eq_error_iff {f : α → Except ε β} {x : α} {xs : List α} {e : ε} :
    (x :: xs).mapM f = .error e ↔ f x = .error e ∨ (f x).isOk ∧ xs.mapM f = .error e := by
  rw [List.mapM_cons]
  cases f x with
  | error e' => simp [bind, Except.bind, Except.isOk, Except.toBool]
  | ok y =>
      cases xs.mapM f <;>
        simp [bind, Except.bind, pure, Except.pure, Except.isOk, Except.toBool]

theorem mapM_eq_error_iff {f : α → Except ε β} {xs : List α} {e : ε} :
    xs.mapM f = .error e ↔
      ∃ (i : Nat) (x : α), xs[i]? = some x ∧ f x = .error e ∧
        ∀ j y, j < i → xs[j]? = some y → (f y).isOk := by
  induction xs with
  | nil => simp [pure, Except.pure]
  | cons x xs ih =>
      rw [mapM_cons_eq_error_iff, ih]
      constructor
      · rintro (he | ⟨hx, i, y, hy, he, hbefore⟩)
        · exact ⟨0, x, rfl, he, by simp⟩
        · refine ⟨i + 1, y, hy, he, fun j z hj hz => ?_⟩
          cases j with
          | zero =>
              cases hz
              exact hx
          | succ j => exact hbefore j z (Nat.lt_of_succ_lt_succ hj) hz
      · rintro ⟨i, y, hy, he, hbefore⟩
        cases i with
        | zero =>
            cases hy
            exact .inl he
        | succ i =>
            refine .inr ⟨hbefore 0 x (Nat.succ_pos i) rfl, i, y, hy, he, fun j z hj hz => ?_⟩
            exact hbefore (j + 1) z (Nat.succ_lt_succ hj) hz

/-- A value has one property, an error another. -/
def Outcome (good : α → Prop) (bad : ε → Prop) : Except ε α → Prop
  | .ok a => good a
  | .error e => bad e

@[simp] theorem outcome_ok {a : α} : Outcome good bad (.ok a) ↔ good a := Iff.rfl

@[simp] theorem outcome_pure {a : α} : Outcome good bad (pure a) ↔ good a := Iff.rfl

@[simp] theorem outcome_error {e : ε} : Outcome good bad (.error e : Except ε α) ↔ bad e := Iff.rfl

namespace Outcome

variable {r : Except ε α}

theorem imp {good' : α → Prop} {bad' : ε → Prop} (h : Outcome good bad r)
    (hgood : ∀ a, good a → good' a) (hbad : ∀ e, bad e → bad' e) : Outcome good' bad' r := by
  cases r with
  | ok a => exact hgood a h
  | error e => exact hbad e h

theorem bind {good' : β → Prop} {f : α → Except ε β} (h : Outcome good bad r)
    (hf : ∀ a, good a → Outcome good' bad (f a)) : Outcome good' bad (r >>= f) := by
  cases r with
  | ok a => exact hf a h
  | error e => exact h

theorem map {good' : β → Prop} {f : α → β} (h : Outcome good bad r)
    (hf : ∀ a, good a → good' (f a)) : Outcome good' bad (f <$> r) := by
  cases r with
  | ok a => exact hf a h
  | error e => exact h

theorem mapM {good' : β → Prop} {f : α → Except ε β} {xs : List α}
    (h : ∀ x ∈ xs, Outcome good' bad (f x)) :
    Outcome (fun ys => ∀ y ∈ ys, good' y) bad (xs.mapM f) := by
  induction xs with
  | nil => simp
  | cons x xs ih =>
      rw [List.mapM_cons]
      apply (h x List.mem_cons_self).bind
      intro y hy
      apply (ih fun x hx => h x (List.mem_cons_of_mem _ hx)).bind
      intro ys hys
      simpa using ⟨hy, hys⟩

end Outcome

end SearchClient
