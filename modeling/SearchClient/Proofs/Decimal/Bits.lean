import Mathlib
import SearchClient.Decimal.Read

/-!
# The words behind floats

A float is a word of 64 bits: a sign, eleven bits of exponent and 52 bits of
fraction.  The three fields are read off the word as a number, so that a finite
word is put together again from the parts it was taken into, and the binary
fraction of a float is the number the float stands for.
-/

namespace SearchClient.Decimal

open Float.Model (totalExponent)
open Float.Model.UnpackedFloat

abbrev doubleSpec : Float.Model.Format := Float.Model.Format.binary64

section Fields

variable (b : BitVec doubleSpec.numBits)

theorem toNat_unpackMantissa : (unpackMantissa b).toNat = b.toNat % 2 ^ 52 := by
  simp [unpackMantissa, BitVec.extractLsb_toNat]

theorem toNat_unpackExponent : (unpackExponent b).toNat = b.toNat / 2 ^ 52 % 2 ^ 11 := by
  simp [unpackExponent, BitVec.extractLsb_toNat, Nat.shiftRight_eq_div_pow]

theorem toNat_unpackSign : (unpackSign b).toNat = b.toNat / 2 ^ 63 := by
  have hb : b.toNat < 2 ^ 64 := b.isLt
  simp [unpackSign, BitVec.extractLsb_toNat, Nat.shiftRight_eq_div_pow]
  omega

def signOf (b : BitVec doubleSpec.numBits) : Sign := Sign.ofBitVec (unpackSign b)

theorem toNat_signOf : (signOf b).toBitVec.toNat = b.toNat / 2 ^ 63 := by
  rw [signOf, Sign.toBitVec_ofBitVec, toNat_unpackSign]

end Fields

/-! ## Parts of a word -/

section Parts

variable {b : BitVec doubleSpec.numBits}

theorem unpackExponent_eq_greatest_iff :
    unpackExponent b = -1#_ ↔ b.toNat / 2 ^ 52 % 2 ^ 11 = 2047 := by
  rw [← BitVec.toNat_inj, toNat_unpackExponent]
  rfl

theorem unpackExponent_eq_zero_iff :
    unpackExponent b = 0#_ ↔ b.toNat / 2 ^ 52 % 2 ^ 11 = 0 := by
  rw [← BitVec.toNat_inj, toNat_unpackExponent]
  rfl

theorem unpackMantissa_eq_zero_iff : unpackMantissa b = 0#_ ↔ b.toNat % 2 ^ 52 = 0 := by
  rw [← BitVec.toNat_inj, toNat_unpackMantissa]
  rfl

theorem unpack_of_greatest (he : b.toNat / 2 ^ 52 % 2 ^ 11 = 2047) :
    (unpack doubleSpec b).isFinite = false := by
  simp only [unpack, if_pos (unpackExponent_eq_greatest_iff.mpr he)]
  split <;> rfl

theorem unpack_of_zero (he : b.toNat / 2 ^ 52 % 2 ^ 11 = 0) (hm : b.toNat % 2 ^ 52 = 0) :
    unpack doubleSpec b = .zero (signOf b) := by
  have hgreatest : unpackExponent b ≠ -1#_ := fun h => by
    rw [unpackExponent_eq_greatest_iff] at h
    omega
  simp only [unpack, if_neg hgreatest, if_pos (unpackExponent_eq_zero_iff.mpr he),
    dif_pos (unpackMantissa_eq_zero_iff.mpr hm)]
  rfl

theorem unpack_of_subnormal (he : b.toNat / 2 ^ 52 % 2 ^ 11 = 0) (hm : 0 < b.toNat % 2 ^ 52) :
    unpack doubleSpec b = .finite (signOf b) (b.toNat % 2 ^ 52) (-1074) hm := by
  have hgreatest : unpackExponent b ≠ -1#_ := fun h => by
    rw [unpackExponent_eq_greatest_iff] at h
    omega
  have hmantissa : unpackMantissa b ≠ 0#_ := fun h =>
    hm.ne' (unpackMantissa_eq_zero_iff.mp h)
  simp only [unpack, if_neg hgreatest, if_pos (unpackExponent_eq_zero_iff.mpr he),
    dif_neg hmantissa, toNat_unpackMantissa, toNat_unpackExponent, he]
  rfl

theorem unpack_of_normal (he : 0 < b.toNat / 2 ^ 52 % 2 ^ 11)
    (he' : b.toNat / 2 ^ 52 % 2 ^ 11 < 2047) :
    unpack doubleSpec b = .finite (signOf b) (2 ^ 52 + b.toNat % 2 ^ 52)
      ((b.toNat / 2 ^ 52 % 2 ^ 11 : Nat) - 1075) (by omega) := by
  have hgreatest : unpackExponent b ≠ -1#_ := fun h =>
    he'.ne (unpackExponent_eq_greatest_iff.mp h)
  have hnormal : unpackExponent b ≠ 0#_ := fun h =>
    he.ne' (unpackExponent_eq_zero_iff.mp h)
  have hmantissa : (1#1 ++ unpackMantissa b).toNat = 2 ^ 52 + b.toNat % 2 ^ 52 := by
    rw [BitVec.toNat_append, ← Nat.shiftLeft_add_eq_or_of_lt (unpackMantissa b).isLt,
      toNat_unpackMantissa]
    rfl
  simp only [unpack, if_neg hgreatest, if_neg hnormal, hmantissa, toNat_unpackExponent]
  rfl

theorem fields_cases (b : BitVec doubleSpec.numBits) :
    b.toNat / 2 ^ 52 % 2 ^ 11 = 0 ∧ b.toNat % 2 ^ 52 = 0 ∨
      b.toNat / 2 ^ 52 % 2 ^ 11 = 0 ∧ 0 < b.toNat % 2 ^ 52 ∨ 0 < b.toNat / 2 ^ 52 % 2 ^ 11 := by
  omega

theorem pack_unpack_of_finite (h : b.toNat / 2 ^ 52 % 2 ^ 11 < 2047) :
    pack doubleSpec (unpack doubleSpec b) = b := by
  have hnumber : ¬ isNaNBits b = true := fun hnan => by
    rw [isNaNBits, decide_eq_true_eq] at hnan
    exact h.ne (unpackExponent_eq_greatest_iff.mp hnan.1)
  rw [pack_unpack, if_neg hnumber]

theorem pack_normal (s : Sign) {m e : Nat} (he : 0 < e) (he' : e < 2047) (hm : m < 2 ^ 52) :
    pack doubleSpec (.finite s (2 ^ 52 + m) ((e : Int) - 1075) (by omega)) =
      packComponents doubleSpec s (.ofNat 11 e) (.ofNat 52 (2 ^ 52 + m)) := by
  have hlog : (2 ^ 52 + m).log2 = 52 := (Nat.log2_eq_iff (by omega)).mpr ⟨by omega, by omega⟩
  have hbiased : ((e : Int) - 1075 + doubleSpec.exponentBias +
      doubleSpec.mantissaBitsWithoutImplicit).toNat = e := by
    change ((e : Int) - 1075 + 1023 + 52).toNat = e
    omega
  have hroom : ¬ 2 ^ doubleSpec.exponentBits ≤ e + 1 := by
    change ¬ 2048 ≤ e + 1
    omega
  simp only [pack, hbiased, if_neg hroom, hlog]
  rfl

theorem unpack_pack_normal (s : Sign) {m e : Nat} (hm : m < 2 ^ 52) (he : 0 < e) (he' : e < 2047) :
    unpack doubleSpec (pack doubleSpec (.finite s (2 ^ 52 + m) ((e : Int) - 1075) (by omega))) =
      .finite s (2 ^ 52 + m) ((e : Int) - 1075) (by omega) := by
  rw [pack_normal s he he' hm]
  generalize hword : packComponents doubleSpec s (.ofNat 11 e) (.ofNat 52 (2 ^ 52 + m)) = b
  have hfield : b.toNat / 2 ^ 52 % 2 ^ 11 = e := by
    rw [← toNat_unpackExponent, ← hword, unpackExponent_packComponents, BitVec.toNat_ofNat]
    exact Nat.mod_eq_of_lt (Nat.lt_succ_of_lt he')
  have hfraction : b.toNat % 2 ^ 52 = m := by
    rw [← toNat_unpackMantissa, ← hword, unpackMantissa_packComponents, BitVec.toNat_ofNat]
    exact (Nat.add_mod_left _ _).trans (Nat.mod_eq_of_lt hm)
  have hsign : signOf b = s := by
    rw [signOf, ← hword, unpackSign_packComponents, Sign.ofBitVec_toBitVec]
  rw [unpack_of_normal (by omega) (by omega)]
  simp only [hsign, hfield, hfraction]

end Parts

namespace Binary

def sign (b : Binary) : Int := if b.negative then -1 else 1

def value (b : Binary) : Rat := b.sign * b.mantissa * 2 ^ b.exponent

theorem natAbs_sign (b : Binary) : b.sign.natAbs = 1 := by
  rw [sign]
  split <;> rfl

theorem signed_eq (b : Binary) (k : Int) : (if b.negative then -k else k) = b.sign * k := by
  rw [sign]
  split <;> ring

theorem toInt?_of_whole {b : Binary} {k : Nat} (hk : b.exponent = k) :
    b.toInt? = some (b.sign * (b.mantissa * 2 ^ k : Nat)) := by
  simp only [toInt?, hk, Int.natCast_nonneg, if_true, Int.toNat_natCast, ← signed_eq]
  rfl

theorem toInt?_of_parts {b : Binary} {k : Nat} (hk : b.exponent = -(k + 1 : Nat)) :
    b.toInt? = if b.mantissa % 2 ^ (k + 1) = 0 then
      some (b.sign * (b.mantissa / 2 ^ (k + 1) : Nat)) else none := by
  have hneg : ¬ (0 : Int) ≤ -(k + 1 : Nat) := by omega
  simp only [toInt?, hk, if_neg hneg, neg_neg, Int.toNat_natCast, ← signed_eq]
  change Option.map _ (Option.bind (if b.mantissa % 2 ^ (k + 1) = 0 then _ else _) _) = _
  by_cases hdvd : b.mantissa % 2 ^ (k + 1) = 0
  · rw [if_pos hdvd, if_pos hdvd]
    rfl
  · rw [if_neg hdvd, if_neg hdvd]
    rfl

theorem toInt?_eq_some_iff {b : Binary} {n : Int} : b.toInt? = some n ↔ b.value = n := by
  by_cases hwhole : 0 ≤ b.exponent
  · obtain ⟨k, hk⟩ := Int.eq_ofNat_of_zero_le hwhole
    have hvalue : b.value = ((b.sign * (b.mantissa * 2 ^ k : Nat) : Int) : Rat) := by
      rw [value, hk, zpow_natCast]
      push_cast
      ring
    rw [toInt?_of_whole hk, hvalue, Option.some_inj, Int.cast_inj]
  · obtain ⟨k, hk⟩ : ∃ k : Nat, b.exponent = -(k + 1 : Nat) :=
      ⟨(-b.exponent - 1).toNat, by omega⟩
    have hunit : 0 < 2 ^ (k + 1) := Nat.two_pow_pos _
    have hvalue : b.value = n ↔ b.sign * b.mantissa = n * 2 ^ (k + 1) := by
      rw [value, hk, zpow_neg, zpow_natCast, ← div_eq_mul_inv, div_eq_iff (by positivity)]
      exact_mod_cast Iff.rfl
    rw [toInt?_of_parts hk, hvalue]
    by_cases hdvd : b.mantissa % 2 ^ (k + 1) = 0
    · obtain ⟨q, hq⟩ := Nat.dvd_of_mod_eq_zero hdvd
      rw [if_pos hdvd, Option.some_inj, hq, Nat.mul_div_cancel_left q hunit]
      push_cast
      rw [mul_comm (2 ^ (k + 1)) (q : Int), ← mul_assoc, mul_left_inj' (by positivity)]
    · rw [if_neg hdvd]
      -- the sign aside, a whole value makes the mantissa a multiple of the unit
      refine iff_of_false (by simp) fun h => hdvd (Nat.mod_eq_zero_of_dvd ⟨n.natAbs, ?_⟩)
      have := congrArg Int.natAbs h
      simpa [Int.natAbs_mul, natAbs_sign, Int.natAbs_pow, mul_comm] using this

end Binary

section Floats

variable {x : Float}

def word (x : Float) : BitVec doubleSpec.numBits := x.toBits.toBitVec

theorem isFinite_iff : x.isFinite = true ↔ (word x).toNat / 2 ^ 52 % 2 ^ 11 < 2047 := by
  change (unpack doubleSpec (word x)).isFinite = true ↔ _
  generalize word x = b
  have hb : b.toNat / 2 ^ 52 % 2 ^ 11 < 2 ^ 11 := Nat.mod_lt _ (by decide)
  obtain h | h : b.toNat / 2 ^ 52 % 2 ^ 11 = 2047 ∨ b.toNat / 2 ^ 52 % 2 ^ 11 < 2047 := by omega
  · simp only [unpack_of_greatest h, h, lt_irrefl, Bool.false_eq_true]
  · refine iff_of_true ?_ h
    obtain ⟨he, hm⟩ | ⟨he, hm⟩ | he := fields_cases b
    · rw [unpack_of_zero he hm]
      rfl
    · rw [unpack_of_subnormal he hm]
      rfl
    · rw [unpack_of_normal he h]
      rfl

theorem word_ofBits {n : Nat} (hn : n < 2 ^ 64) (h : n / 2 ^ 52 % 2 ^ 11 < 2047) :
    (word (Float.ofBits (UInt64.ofNat n))).toNat = n := by
  have hword : (BitVec.ofNat 64 n).toNat = n := Nat.mod_eq_of_lt hn
  change (pack doubleSpec (unpack doubleSpec (BitVec.ofNat 64 n))).toNat = n
  rw [pack_unpack_of_finite (by rwa [hword]), hword]

theorem word_floatOf (negative : Bool) {m : Nat} (hm : m < 2047 * 2 ^ 52) :
    (word (floatOf negative m)).toNat = (if negative then 2 ^ 63 else 0) + m := by
  have hsign : pow2 63 = 2 ^ 63 := rfl
  rw [floatOf, hsign]
  exact word_ofBits (by split <;> omega) (by split <;> omega)

theorem isFinite_floatOf (negative : Bool) {m : Nat} (hm : m < 2047 * 2 ^ 52) :
    (floatOf negative m).isFinite = true := by
  rw [isFinite_iff, word_floatOf negative hm]
  split <;> omega

def rationalOf : Float.Model.UnpackedFloat → Option Rat
  | .zero _ => some 0
  | .finite s m e _ => some (s.apply m * 2 ^ e)
  | _ => none

def rational? (x : Float) : Option Rat := rationalOf (unpack doubleSpec (word x))

theorem apply_signOf (b : BitVec doubleSpec.numBits) (m : Int) :
    (signOf b).apply m = (if b.toNat / 2 ^ 63 == 1 then -1 else 1) * m := by
  rw [← toNat_signOf]
  cases signOf b
  · exact neg_eq_neg_one_mul m
  · exact (one_mul m).symm

theorem ofFloat_eq (x : Float) :
    Binary.ofFloat x = if (word x).toNat / 2 ^ 52 % 2 ^ 11 = 0 then
      ⟨(word x).toNat / 2 ^ 63 == 1, (word x).toNat % 2 ^ 52, -1074⟩
    else ⟨(word x).toNat / 2 ^ 63 == 1, 2 ^ 52 + (word x).toNat % 2 ^ 52,
      ((word x).toNat / 2 ^ 52 % 2 ^ 11 : Nat) - 1075⟩ :=
  rfl

theorem rational?_eq (h : x.isFinite = true) : rational? x = some (Binary.ofFloat x).value := by
  rw [isFinite_iff] at h
  rw [ofFloat_eq, rational?]
  generalize word x = b at h ⊢
  obtain ⟨he, hm⟩ | ⟨he, hm⟩ | he := fields_cases b
  · rw [unpack_of_zero he hm, if_pos he, hm]
    simp only [rationalOf, Binary.value, Nat.cast_zero, mul_zero, zero_mul]
  · rw [unpack_of_subnormal he hm, if_pos he]
    simp only [rationalOf, Binary.value, Binary.sign, apply_signOf, Int.cast_mul, Int.cast_natCast]
  · rw [unpack_of_normal he h, if_neg he.ne']
    simp only [rationalOf, Binary.value, Binary.sign, apply_signOf, Int.cast_mul, Int.cast_natCast]

end Floats

section Rounding

theorem mantissa_shiftRight (em : ExtendedMantissa) (k : Nat) :
    (em >>> k).mantissa = em.mantissa / 2 ^ k := by
  induction k with
  | zero =>
      rw [pow_zero, Nat.div_one]
      rfl
  | succ k ih =>
      change (em >>> k).mantissa / 2 = _
      rw [ih, Nat.div_div_eq_div_mul, pow_succ]

theorem roundedMantissa_bounds (em : ExtendedMantissa) :
    em.mantissa ≤ em.roundedMantissa ∧ em.roundedMantissa ≤ em.mantissa + 1 := by
  rw [ExtendedMantissa.roundedMantissa]
  cases em.accuracy with
  | exact => exact ⟨le_rfl, Nat.le_succ _⟩
  | inexact o => cases o <;> simp only [Accuracy.roundToNearestEven] <;> omega

theorem targetExponent_eq (m : Nat) (e : Int) :
    doubleSpec.targetExponent (totalExponent m e) = max (m.log2 + 1 + e - 53) (-1074) := rfl

theorem mantissa_ofExact (m : Nat) :
    (ExtendedMantissa.ofMantissaAndAccuracy m .exact).mantissa = m := rfl

/-- A whole number of 64 bits loses its last eleven bits; rounding may carry into one more. -/
theorem round_of_large {n : Nat} (h : 2 ^ 63 ≤ n) (h' : n < 2 ^ 64) :
    ∃ m e : Nat, m < 2 ^ 52 ∧ 1086 ≤ e ∧ e ≤ 1087 ∧
      roundWithAccuracy doubleSpec .positive (n * 2 ^ 53) (-53) .exact =
        .finite .positive (2 ^ 52 + m) ((e : Int) - 1075) (by omega) := by
  have hlog : (n * 2 ^ 53).log2 = 116 := (Nat.log2_eq_iff (by omega)).mpr ⟨by omega, by omega⟩
  have hshift : (max (((116 : Nat) : Int) + 1 + -53 - 53) (-1074) - -53).toNat = 64 := by decide
  obtain ⟨r, hr⟩ : ∃ r, (ExtendedMantissa.ofMantissaAndAccuracy (n * 2 ^ 53) .exact >>>
    64).roundedMantissa = r := ⟨_, rfl⟩
  have hbounds := roundedMantissa_bounds
    (ExtendedMantissa.ofMantissaAndAccuracy (n * 2 ^ 53) .exact >>> 64)
  rw [hr, mantissa_shiftRight, mantissa_ofExact] at hbounds
  simp only [roundWithAccuracy, shiftToTargetExponent, shiftToExponent, targetExponent_eq, hlog,
    hshift, mantissa_shiftRight, mantissa_ofExact, hr]
  obtain ⟨m, rfl⟩ : ∃ m, r = 2 ^ 52 + m := Nat.exists_eq_add_of_le (by omega)
  obtain hlt | rfl : m < 2 ^ 52 ∨ m = 2 ^ 52 := by omega
  · have hlog : (2 ^ 52 + m).log2 = 52 := (Nat.log2_eq_iff (by omega)).mpr ⟨by omega, by omega⟩
    have hnone : (max (((52 : Nat) : Int) + 1 + (-53 + (64 : Nat)) - 53) (-1074) -
      (-53 + (64 : Nat))).toNat = 0 := by decide
    refine ⟨m, 1086, hlt, le_rfl, by omega, ?_⟩
    simp only [hlog, hnone, pow_zero, Nat.div_one]
    rw [dif_neg (by omega)]
    rfl
  · exact ⟨0, 1087, by omega, by omega, le_rfl, rfl⟩

theorem word_ofInt {n : Nat} (h : 2 ^ 63 ≤ n) :
    word (Float.ofInt n) =
      pack doubleSpec (roundWithAccuracy doubleSpec .positive (n * 2 ^ 53) (-53) .exact) := by
  change word (Float.ofScientific n false 0) = _
  rw [Float.ofScientific, dif_neg (by omega)]
  change pack doubleSpec (ofScientific doubleSpec n 0) = _
  have hsize : ¬ (0 : Int) < -((2 ^ doubleSpec.exponentBits : Int) + n.log2) := by
    change ¬ (0 : Int) < -(2048 + (n.log2 : Int))
    omega
  have hbits : doubleSpec.mantissaBits = 53 := rfl
  rw [ofScientific, dif_neg (by omega), if_neg (by decide), if_neg hsize, if_pos le_rfl, mul,
    Nat.shiftLeft_eq, Int.toNat_zero, pow_zero, mul_one, hbits]
  rfl

theorem rational?_ofInt {n : Nat} (h : 2 ^ 63 ≤ n) (h' : n < 2 ^ 64) :
    ∃ m : Int, 2 ^ 63 ≤ m ∧ rational? (Float.ofInt n) = some (m : Rat) := by
  obtain ⟨m, e, hm, he, he', hround⟩ := round_of_large h h'
  obtain ⟨k, rfl⟩ := Nat.exists_eq_add_of_le he
  have hexponent : ((1086 + k : Nat) : Int) - 1075 = (11 + k : Nat) := by omega
  refine ⟨((2 ^ 52 + m : Nat) : Int) * 2 ^ (11 + k), ?_, ?_⟩
  · have hmantissa : (2 : Int) ^ 52 ≤ (2 ^ 52 + m : Nat) := by omega
    have hpower : (2 : Int) ^ 11 ≤ 2 ^ (11 + k) := pow_le_pow_right₀ (by norm_num) (by omega)
    calc (2 : Int) ^ 63 = 2 ^ 52 * 2 ^ 11 := by norm_num
      _ ≤ ((2 ^ 52 + m : Nat) : Int) * 2 ^ (11 + k) :=
        mul_le_mul hmantissa hpower (by positivity) (by positivity)
  · rw [rational?, word_ofInt h, hround, unpack_pack_normal _ hm (by omega) (by omega), hexponent,
      rationalOf, zpow_natCast, Sign.apply]
    push_cast
    rfl

end Rounding

end SearchClient.Decimal
