import SearchClient.Json.Number
import SearchClient.Proofs.Decimal.Bits
import SearchClient.Proofs.Json.Success

/-!
# Whole numbers read from documents

A number in a document is a word of 64 bits or a float.  A reader of whole
numbers takes every number without a fraction, also one written as a float, and
gives it exactly as long as it has 64 bits; a greater one it gives as the
nearest number that has.
-/

namespace SearchClient.Json

open Decimal

def IsNumber : Json → Prop
  | .int n => minInt64 ≤ n ∧ n < 2 ^ 64
  | .float x => x.isFinite = true
  | _ => False

/-- The number that is meant: a signed word itself, any other number exactly as its float. -/
def number? (j : Json) : Option Rat :=
  match j.int64? with
  | some n => some n
  | none => j.double?.bind rational?

theorem clampInt64_of_gt {n : Int} (h : maxInt64 < n) : clampInt64 n = maxInt64 := by
  rw [clampInt64, min_eq_right h.le, max_eq_right (by decide)]

theorem long?_eq_some_iff {j : Json} (hj : j.IsNumber) :
    ∃ q, j.number? = some q ∧ ∀ v, j.long? = some v ↔ ∃ n : Int, q = n ∧ v = clampInt64 n := by
  have hgreatest : maxInt64 = 2 ^ 63 - 1 := rfl
  cases j with
  | int n =>
      obtain ⟨hleast, hword⟩ := hj
      by_cases hn : n ≤ maxInt64
      · refine ⟨n, by simp [number?, int64?, hleast, hn], fun v => ?_⟩
        simp only [long?, Option.some_inj, Int.cast_inj, exists_eq_left', eq_comm]
      · obtain ⟨k, rfl⟩ := Int.eq_ofNat_of_zero_le (a := n) (by omega)
        obtain ⟨m, hm, hexact⟩ := rational?_ofInt (n := k) (by omega) (by omega)
        refine ⟨m, ?_, fun v => ?_⟩
        · simp [number?, int64?, hn, double?, hexact]
        · rw [long?, Option.some_inj, clampInt64_of_gt (by omega)]
          simp only [Int.cast_inj, exists_eq_left', clampInt64_of_gt (n := m) (by omega), eq_comm]
  | float x =>
      have hfinite : x.isFinite = true := hj
      refine ⟨(Binary.ofFloat x).value, rational?_eq hfinite, fun v => ?_⟩
      rw [long?, if_pos hfinite, Option.map_eq_some_iff]
      exact exists_congr fun n => and_congr Binary.toInt?_eq_some_iff eq_comm
  | null | bool | string | array | object => exact hj.elim

theorem clampInt64_eq_self_iff {n : Int} :
    clampInt64 n = n ↔ minInt64 ≤ n ∧ n ≤ maxInt64 := by
  have hrange : minInt64 ≤ maxInt64 := by decide
  rw [clampInt64]
  omega

section Fields

variable {c : Cursor} {name : String} {j : Json}

theorem long_of_some {n : Int} (hfield : c.fields.get? name = some j) (hj : j ≠ .null)
    (hread : j.long? = some n) : c.long name = .ok n ∧ c.long? name = .ok (some n) := by
  have hlong? : c.long? name = .ok (some n) := by
    rw [Cursor.long?, Cursor.read?, Cursor.value?_eq_some_iff.mpr ⟨hfield, hj⟩]
    simp only [hread]
  exact ⟨Cursor.require_eq_ok_iff.mpr hlong?, hlong?⟩

theorem long_of_none (hfield : c.fields.get? name = some j) (hj : j ≠ .null)
    (hread : j.long? = none) :
    c.long name = .error (.invalidType (c.path.field name) "integer") ∧
      c.long? name = .error (.invalidType (c.path.field name) "integer") := by
  have hlong? : c.long? name = .error (.invalidType (c.path.field name) "integer") := by
    rw [Cursor.long?, Cursor.read?, Cursor.value?_eq_some_iff.mpr ⟨hfield, hj⟩]
    simp only [hread]
  rw [Cursor.long, hlong?]
  exact ⟨rfl, rfl⟩

/--
A number that means a whole number is read as that, and beyond 64 bits as the
nearest number in range; any other number is refused.
-/
theorem integers_exact_iff (hfield : c.fields.get? name = some j) (hj : j.IsNumber) :
    ∃ q, j.number? = some q ∧
      (∀ n : Int, q = n →
        c.long name = .ok (clampInt64 n) ∧ c.long? name = .ok (some (clampInt64 n))) ∧
      ((∀ n : Int, q ≠ n) →
        c.long name = .error (.invalidType (c.path.field name) "integer") ∧
        c.long? name = .error (.invalidType (c.path.field name) "integer")) ∧
      ((∀ v, c.long name = .ok v → q = v) ↔
        ∀ n : Int, q = n → minInt64 ≤ n ∧ n ≤ maxInt64) := by
  obtain ⟨q, hq, hread⟩ := long?_eq_some_iff hj
  have hnull : j ≠ .null := by
    rintro rfl
    exact hj
  have hwhole (n : Int) (hn : q = n) :=
    long_of_some hfield hnull ((hread (clampInt64 n)).mpr ⟨n, hn, rfl⟩)
  have hparts (hnone : ∀ n : Int, q ≠ n) : j.long? = none := by
    rw [Option.eq_none_iff_forall_ne_some]
    intro v hv
    obtain ⟨n, hn, -⟩ := (hread v).mp hv
    exact hnone n hn
  refine ⟨q, hq, hwhole, fun hnone => long_of_none hfield hnull (hparts hnone), ?_⟩
  constructor
  · intro hexact n hn
    have heq : q = (clampInt64 n : Int) := hexact _ (hwhole n hn).1
    rw [hn, Int.cast_inj] at heq
    exact clampInt64_eq_self_iff.mp heq.symm
  · intro hrange v hv
    by_cases hinteger : ∃ n : Int, q = n
    · obtain ⟨n, hn⟩ := hinteger
      have heq := (hwhole n hn).1.symm.trans hv
      rw [clampInt64_eq_self_iff.mpr (hrange n hn), Except.ok.injEq] at heq
      rw [hn, heq]
    · rw [(long_of_none hfield hnull (hparts (not_exists.mp hinteger))).1] at hv
      cases hv

theorem integers_exact_iff_word :
    (⟨[("version", .int (2 ^ 53 + 1))], {}⟩ : Cursor).long "version" = .ok (2 ^ 53 + 1) := by
  have hfield : Entries.get? [("version", Json.int (2 ^ 53 + 1))] "version" =
    some (.int (2 ^ 53 + 1)) := rfl
  obtain ⟨q, hq, hwhole, -⟩ := integers_exact_iff (c := ⟨[("version", .int (2 ^ 53 + 1))], {}⟩)
    hfield ⟨by decide, by decide⟩
  obtain rfl : ((2 ^ 53 + 1 : Int) : Rat) = q := Option.some_inj.mp hq
  exact (hwhole _ rfl).1

/-- The first whole number beyond 63 bits is read as its neighbour. -/
theorem integers_inexact :
    Json.number? (.int (2 ^ 63)) = some ((2 ^ 63 : Int) : Rat) ∧
      (⟨[("n", .int (2 ^ 63))], {}⟩ : Cursor).long "n" = .ok (2 ^ 63 - 1) ∧
      (⟨[("n", .int (2 ^ 63))], {}⟩ : Cursor).long? "n" = .ok (some (2 ^ 63 - 1)) := by
  refine ⟨?_, rfl, rfl⟩
  change rational? (Float.ofInt (2 ^ 63)) = _
  rw [rational?_eq (by decide)]
  have : Binary.toInt? (Binary.ofFloat (Float.ofInt (2 ^ 63))) = some (2 ^ 63) := by decide +kernel
  rw [Binary.toInt?_eq_some_iff.mp this]

end Fields

end SearchClient.Json
