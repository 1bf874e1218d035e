import Mathlib
import SearchClient.Json.Value
import SearchClient.Proofs.Entries

/-!
# Equality of documents

Objects are equal when they bind the same names to equal values.  Between
documents whose numbers are numbers and whose objects name each field once
this is an equivalence; two zeros of different sign are equal, and so are two
orders of the same fields.
-/

namespace SearchClient.Json

section Numbers

open Float.Model

def unsignedZero : UnpackedFloat → UnpackedFloat
  | .zero _ => .zero .positive
  | x => x

theorem compare_eq_eq_iff {a b : UnpackedFloat} :
    a.compare b = some .eq ↔ a.isNaN = false ∧ unsignedZero a = unsignedZero b := by
  unfold UnpackedFloat.isNaN unsignedZero UnpackedFloat.compare
  cases a with
  | infinity s =>
      cases b with
      | infinity t => cases s <;> cases t <;> simp [compare]
      | _ => cases s <;> simp
  | notANumber => simp
  | zero s =>
      cases b with
      | infinity t => cases t <;> simp
      | finite t n f hn => cases t <;> simp
      | _ => simp
  | finite s m e hm =>
      cases b with
      | infinity t => cases t <;> simp
      | finite t n f hn => cases s <;> cases t <;> simp [Ordering.then_eq_eq, and_comm]
      | _ => cases s <;> simp

theorem float_beq_iff {a b : Float} :
    (a == b) = true ↔
      a.isNaN = false ∧ unsignedZero a.toModel.unpack = unsignedZero b.toModel.unpack := by
  change (a.toModel.unpack.compare b.toModel.unpack == some .eq) = true ↔ _
  rw [beq_iff_eq, compare_eq_eq_iff]
  rfl

theorem float_beq_self {a : Float} (h : a.isNaN = false) : (a == a) = true :=
  float_beq_iff.mpr ⟨h, rfl⟩

theorem isNaN_unsignedZero (x : UnpackedFloat) : (unsignedZero x).isNaN = x.isNaN := by
  cases x <;> rfl

theorem float_beq_symm {a b : Float} (h : (a == b) = true) : (b == a) = true := by
  obtain ⟨ha, hab⟩ := float_beq_iff.mp h
  refine float_beq_iff.mpr ⟨?_, hab.symm⟩
  have hnan : a.toModel.unpack.isNaN = b.toModel.unpack.isNaN := by
    rw [← isNaN_unsignedZero, hab, isNaN_unsignedZero]
  exact hnan.symm.trans ha

theorem float_beq_trans {a b c : Float} (hab : (a == b) = true) (hbc : (b == c) = true) :
    (a == c) = true := by
  obtain ⟨ha, hab⟩ := float_beq_iff.mp hab
  obtain ⟨-, hbc⟩ := float_beq_iff.mp hbc
  exact float_beq_iff.mpr ⟨ha, hab.trans hbc⟩

end Numbers

theorem null_beq_iff {y : Json} : (Json.null == y) = true ↔ y = .null := by
  cases y <;> simp [BEq.beq, beq]

theorem bool_beq_iff {b : Bool} {y : Json} : (Json.bool b == y) = true ↔ y = .bool b := by
  cases y with
  | bool b' =>
      change (b == b') = true ↔ _
      rw [beq_iff_eq, bool.injEq, eq_comm]
  | _ => simp [BEq.beq, beq]

theorem int_beq_iff {n : Int} {y : Json} : (Json.int n == y) = true ↔ y = .int n := by
  cases y with
  | int m =>
      change (n == m) = true ↔ _
      rw [beq_iff_eq, int.injEq, eq_comm]
  | _ => simp [BEq.beq, beq]

theorem string_beq_iff {s : String} {y : Json} : (Json.string s == y) = true ↔ y = .string s := by
  cases y with
  | string t =>
      change (s == t) = true ↔ _
      rw [beq_iff_eq, string.injEq, eq_comm]
  | _ => simp [BEq.beq, beq]

/-! ## Arrays and objects -/

theorem list_beq_iff {α : Type} [BEq α] {xs ys : List α} :
    (xs == ys) = true ↔ List.Forall₂ (fun x y => (x == y) = true) xs ys := by
  induction xs generalizing ys with
  | nil => cases ys <;> simp
  | cons x xs ih =>
      cases ys with
      | nil => simp
      | cons y ys => rw [List.cons_beq_cons, Bool.and_eq_true, ih, List.forall₂_cons]

theorem list_beq_trans {α : Type} [BEq α] {xs ys zs : List α}
    (h : ∀ x ∈ xs, ∀ {y z}, (x == y) = true → (y == z) = true → (x == z) = true)
    (hxy : (xs == ys) = true) (hyz : (ys == zs) = true) : (xs == zs) = true := by
  rw [list_beq_iff] at hxy hyz ⊢
  induction hxy generalizing zs with
  | nil => exact hyz
  | @cons x y xs ys hxy hrest ih =>
      cases hyz with
      | cons hyz hzs =>
          exact .cons (h x List.mem_cons_self hxy hyz)
            (ih (fun x hx => h x (List.mem_cons_of_mem _ hx)) hzs)

theorem beqItems_eq (xs ys : List Json) : beqItems xs ys = (xs == ys) := by
  induction xs generalizing ys with
  | nil => cases ys <;> rfl
  | cons x xs ih =>
      cases ys with
      | nil => rfl
      | cons y ys =>
          rw [beqItems, ih]
          rfl

theorem array_beq_iff {xs ys : List Json} :
    (Json.array xs == Json.array ys) = true ↔ (xs == ys) = true := by
  rw [← beqItems_eq]
  rfl

theorem beqFields_cons (key : String) (x : Json) (xs ys : Object) :
    beqFields ((key, x) :: xs) ys = ((ys.get? key).any (x == ·) && beqFields xs ys) := by
  rw [beqFields]
  congr 1
  change _ = (List.lookup key ys).any (x == ·)
  cases List.lookup key ys <;> rfl

theorem beqFields_iff {xs ys : Object} :
    beqFields xs ys = true ↔
      ∀ name x, (name, x) ∈ xs → ∃ y, ys.get? name = some y ∧ (x == y) = true := by
  induction xs with
  | nil => simp [beqFields]
  | cons entry xs ih =>
      obtain ⟨key, x⟩ := entry
      rw [beqFields_cons, Bool.and_eq_true, Option.any_eq_true, ih]
      constructor
      · rintro ⟨hkey, hrest⟩ name y hmem
        rcases List.mem_cons.mp hmem with heq | hmem
        · obtain ⟨rfl, rfl⟩ := Prod.mk.inj heq
          exact hkey
        · exact hrest name y hmem
      · intro h
        refine ⟨h key x List.mem_cons_self, fun name y hmem => ?_⟩
        exact h name y (List.mem_cons_of_mem _ hmem)

theorem object_beq_iff_fields {xs ys : Object} :
    (Json.object xs == Json.object ys) = true ↔
      xs.length = ys.length ∧
        ∀ name x, (name, x) ∈ xs → ∃ y, ys.get? name = some y ∧ (x == y) = true := by
  change (xs.length == ys.length && beqFields xs ys) = true ↔ _
  rw [Bool.and_eq_true, beq_iff_eq, beqFields_iff]

theorem object_beq_iff {xs ys : Object} (hx : xs.keys.Nodup) (hy : ys.keys.Nodup) :
    (Json.object xs == Json.object ys) = true ↔
      ∀ name, (xs.get? name == ys.get? name) = true := by
  rw [object_beq_iff_fields]
  constructor
  · rintro ⟨hlength, hfields⟩ name
    -- As many names, all of them on the right: the names are the same up to order.
    have hsub : xs.keys ⊆ ys.keys := by
      intro key hkey
      obtain ⟨x, hx⟩ := Entries.exists_get?_of_mem_keys hkey
      obtain ⟨y, hy, -⟩ := hfields key x (Entries.mem_of_get? hx)
      exact Entries.mem_keys_of_get? hy
    have hperm : xs.keys.Perm ys.keys :=
      (hx.subperm hsub).perm_of_length_le (by simp [Entries.keys, hlength])
    cases hname : xs.get? name with
    | none =>
        have hnot : name ∉ ys.keys := fun h =>
          Entries.get?_eq_none_iff.mp hname (hperm.mem_iff.mpr h)
        simp [Entries.get?_eq_none_iff.mpr hnot]
    | some x =>
        obtain ⟨y, hy, hxy⟩ := hfields name x (Entries.mem_of_get? hname)
        simpa [hy] using hxy
  · intro h
    have hmem (name : String) : name ∈ xs.keys ↔ name ∈ ys.keys := by
      have hname := h name
      rw [← not_iff_not, ← Entries.get?_eq_none_iff, ← Entries.get?_eq_none_iff]
      cases hxs : xs.get? name <;> cases hys : ys.get? name <;> simp [hxs, hys] at hname ⊢
    have hperm : xs.keys.Perm ys.keys := (List.perm_ext_iff_of_nodup hx hy).mpr hmem
    refine ⟨by simpa [Entries.keys] using hperm.length_eq, fun name x hx' => ?_⟩
    have hname := h name
    rw [Entries.get?_of_mem hx hx'] at hname
    cases hys : ys.get? name with
    | none => simp [hys] at hname
    | some y => exact ⟨y, rfl, by simpa [hys] using hname⟩

/-! ## Documents -/

/-- A document whose numbers are numbers and whose objects name each field once. -/
inductive Proper : Json → Prop where
  | null : Proper .null
  | bool (b : Bool) : Proper (.bool b)
  | int (n : Int) : Proper (.int n)
  | float {x : Float} (h : x.isNaN = false) : Proper (.float x)
  | string (s : String) : Proper (.string s)
  | array {items : List Json} (h : ∀ x ∈ items, Proper x) : Proper (.array items)
  | object {fields : Object} (distinct : fields.keys.Nodup)
      (h : ∀ name x, fields.get? name = some x → Proper x) : Proper (.object fields)

namespace Proper

theorem beq_self {x : Json} (h : x.Proper) : (x == x) = true := by
  induction h with
  | null => exact null_beq_iff.mpr rfl
  | bool b => exact bool_beq_iff.mpr rfl
  | int n => exact int_beq_iff.mpr rfl
  | float h => exact float_beq_self h
  | string s => exact string_beq_iff.mpr rfl
  | array _ ih =>
      rw [array_beq_iff, list_beq_iff]
      exact List.forall₂_same.mpr ih
  | @object fields hdistinct _ ih =>
      rw [object_beq_iff hdistinct hdistinct]
      intro name
      cases hname : fields.get? name with
      | none => rfl
      | some x => exact ih name x hname

theorem beq_symm {x y : Json} (hx : x.Proper) (hy : y.Proper) (h : (x == y) = true) :
    (y == x) = true := by
  induction hx generalizing y with
  | null => exact null_beq_iff.mp h ▸ h
  | bool b => exact bool_beq_iff.mp h ▸ bool_beq_iff.mpr rfl
  | int n => exact int_beq_iff.mp h ▸ int_beq_iff.mpr rfl
  | string s => exact string_beq_iff.mp h ▸ string_beq_iff.mpr rfl
  | float _ => cases y with
    | float _ => exact float_beq_symm h
    | _ => exact h
  | array _ ih => cases hy with
    | array hitems =>
        rw [array_beq_iff, list_beq_iff] at h ⊢
        have hpairs := (List.forall₂_and_left _ _).mpr ⟨ih, h⟩
        have hproper := (List.forall₂_and_left _ _).mpr ⟨hitems, hpairs.flip⟩
        exact hproper.imp fun y x ⟨hy, hx, hxy⟩ => hx hy hxy
    | _ => exact h
  | @object fields hdistinct _ ih => cases hy with
    | @object fields' hdistinct' hfields =>
        rw [object_beq_iff hdistinct hdistinct'] at h
        rw [object_beq_iff hdistinct' hdistinct]
        intro name
        have hname := h name
        cases hx : fields.get? name with
        | none => cases hy : fields'.get? name <;> simp [hx, hy] at hname ⊢
        | some x =>
            cases hy : fields'.get? name with
            | none => simp [hx, hy] at hname
            | some y => exact ih name x hx (hfields name y hy) (by simpa [hx, hy] using hname)
    | _ => exact h

theorem beq_trans {x y z : Json} (hx : x.Proper) (hxy : (x == y) = true)
    (hyz : (y == z) = true) : (x == z) = true := by
  induction hx generalizing y z with
  | null => exact null_beq_iff.mp hxy ▸ hyz
  | bool b => exact bool_beq_iff.mp hxy ▸ hyz
  | int n => exact int_beq_iff.mp hxy ▸ hyz
  | string s => exact string_beq_iff.mp hxy ▸ hyz
  | float _ => cases y with
    | float _ => cases z with
      | float _ => exact float_beq_trans hxy hyz
      | _ => exact hyz
    | _ => cases hxy
  | array _ ih => cases y with
    | array ys => cases z with
      | array zs =>
          rw [array_beq_iff] at hxy hyz ⊢
          exact list_beq_trans ih hxy hyz
      | _ => exact hyz
    | _ => cases hxy
  | @object fields hdistinct _ ih => cases y with
    | object ys => cases z with
      | object zs =>
          rw [object_beq_iff_fields] at hxy hyz ⊢
          refine ⟨hxy.1.trans hyz.1, fun name x hx => ?_⟩
          obtain ⟨y, hy, hxy⟩ := hxy.2 name x hx
          obtain ⟨z, hz, hyz⟩ := hyz.2 name y (Entries.mem_of_get? hy)
          exact ⟨z, hz, ih name x (Entries.get?_of_mem hdistinct hx) hxy hyz⟩
      | _ => exact hyz
    | _ => cases hxy

end Proper

end SearchClient.Json
