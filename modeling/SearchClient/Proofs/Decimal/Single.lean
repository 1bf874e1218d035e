import SearchClient.Decimal.Single
import SearchClient.Proofs.Decimal.Bits
import SearchClient.Proofs.Decimal.Nearest

/-!
# Single precision within double precision

A single keeps its value when it is widened to a float.  Its subnormal numbers
become normal ones, with a fraction shifted up to the leading digit.  A float
that has the value of a single is narrowed to that single again.
-/

namespace SearchClient.Decimal

theorem Format.wellFormed_single : Format.single.WellFormed := ⟨rfl, by decide⟩

theorem ofFloat_floatOf (negative : Bool) {m : Nat} (hm : m < 2047 * 2 ^ 52) :
    (Binary.ofFloat (floatOf negative m)).negative = negative ∧
      ratio (Binary.ofFloat (floatOf negative m)).mantissa
        (Binary.ofFloat (floatOf negative m)).exponent = Format.double.fraction m := by
  have hfield : ((if negative then 2 ^ 63 else 0) + m) / 2 ^ 52 % 2 ^ 11 = m / 2 ^ 52 := by
    split <;> omega
  have hrest : ((if negative then 2 ^ 63 else 0) + m) % 2 ^ 52 = m % 2 ^ 52 := by
    split <;> omega
  have hsign : (((if negative then 2 ^ 63 else 0) + m) / 2 ^ 63 == 1) = negative := by
    cases negative
    · simp only [Bool.false_eq_true, if_false, beq_eq_false_iff_ne]
      omega
    · simp only [if_true, beq_iff_eq]
      omega
  rw [ofFloat_eq, word_floatOf negative hm, hfield, hrest, hsign]
  have hfraction : Format.double.fraction m = if m / 2 ^ 52 = 0 then ratio (m % 2 ^ 52) (-1074)
      else ratio (2 ^ 52 + m % 2 ^ 52) (-1074 + (m / 2 ^ 52 : Nat) - 1) := rfl
  rw [hfraction]
  split
  · exact ⟨rfl, rfl⟩
  · refine ⟨rfl, congrArg (ratio _) ?_⟩
    dsimp only
    omega

theorem number_of_isFinite {x : Float} (h : x.isFinite = true) :
    x.isNaN = false ∧ x.isInf = false := by
  change x.toModel.unpack.isFinite = true at h
  change x.toModel.unpack.isNaN = false ∧ x.toModel.unpack.isInf = false
  generalize x.toModel.unpack = parts at h ⊢
  cases parts with
  | zero | finite => exact ⟨rfl, rfl⟩
  | infinity | notANumber => cases h

namespace Single

variable {s : Single}

theorem toFloat_of_zero (h : s.magnitude / 2 ^ 23 = 0) (h' : s.magnitude % 2 ^ 23 = 0) :
    s.toFloat = floatOf s.negative 0 := by
  simp only [toFloat, floatOf, pow2, Nat.pow_eq, h, h', Nat.add_zero, if_true]
  rfl

theorem toFloat_of_subnormal {shift : Nat} (h : s.magnitude / 2 ^ 23 = 0)
    (h' : s.magnitude % 2 ^ 23 ≠ 0) (hshift : 23 - (s.magnitude % 2 ^ 23).log2 = shift) :
    s.toFloat = floatOf s.negative ((897 - shift) * 2 ^ 52 +
      (s.magnitude % 2 ^ 23 * 2 ^ shift - 2 ^ 23) * 2 ^ 29) := by
  simp only [toFloat, floatOf, pow2, Nat.pow_eq, h, if_neg h', hshift, Nat.add_assoc, if_true]
  rfl

theorem toFloat_of_normal (h : s.magnitude / 2 ^ 23 ≠ 255) (h' : s.magnitude / 2 ^ 23 ≠ 0) :
    s.toFloat = floatOf s.negative
      ((s.magnitude / 2 ^ 23 + 896) * 2 ^ 52 + s.magnitude % 2 ^ 23 * 2 ^ 29) := by
  simp only [toFloat, floatOf, pow2, Nat.pow_eq, if_neg h, if_neg h', Nat.add_assoc]

section Values

variable {fraction : Nat}

theorem value_normal {field : Nat} (hfraction : fraction < 2 ^ 23) :
    Format.double.value ((field + 897) * 2 ^ 52 + fraction * 2 ^ 29) =
      Format.single.value ((field + 1) * 2 ^ 23 + fraction) := by
  have htwo : (2 : Rat) ≠ 0 := by norm_num
  have hrest : fraction * 2 ^ 29 < 2 ^ 52 := by omega
  have hdouble := Format.value_of_normal .double (field + 896) hrest
  have hsingle := Format.value_of_normal .single field hfraction
  have hmantissa : 2 ^ 52 + fraction * 2 ^ 29 = (2 ^ 23 + fraction) * 2 ^ 29 := by omega
  have hexponent : (-149 + field : Int) = 29 + (-1074 + (field + 896 : Nat)) := by omega
  refine hdouble.trans (Eq.trans ?_ hsingle.symm)
  change ((2 ^ 52 + fraction * 2 ^ 29 : Nat) : Rat) * 2 ^ (-1074 + (field + 896 : Nat) : Int) =
    (2 ^ 23 + fraction : Nat) * 2 ^ (-149 + field : Int)
  rw [hmantissa, hexponent, zpow_add₀ htwo 29]
  push_cast
  ring

theorem exists_shift (hpos : 0 < fraction) (hfraction : fraction < 2 ^ 23) :
    ∃ shift, 23 - fraction.log2 = shift ∧ shift ≤ 23 ∧
      2 ^ 23 ≤ fraction * 2 ^ shift ∧ fraction * 2 ^ shift < 2 ^ 24 := by
  have hlog : fraction.log2 < 23 := (Nat.log2_lt hpos.ne').mpr hfraction
  obtain ⟨shift, hshift⟩ := Nat.exists_eq_add_of_le hlog.le
  refine ⟨shift, by omega, by omega, ?_, ?_⟩
  · calc 2 ^ 23 = 2 ^ fraction.log2 * 2 ^ shift := by rw [hshift, pow_add]
      _ ≤ fraction * 2 ^ shift := Nat.mul_le_mul_right _ (Nat.log2_self_le hpos.ne')
  · calc fraction * 2 ^ shift < 2 ^ (fraction.log2 + 1) * 2 ^ shift :=
          Nat.mul_lt_mul_of_pos_right Nat.lt_log2_self (Nat.two_pow_pos _)
      _ = 2 ^ 24 := by
        rw [← pow_add]
        congr 1
        omega

theorem value_subnormal {shift : Nat} (hfraction : fraction < 2 ^ 23) (hshift : shift ≤ 23)
    (hle : 2 ^ 23 ≤ fraction * 2 ^ shift) (hlt : fraction * 2 ^ shift < 2 ^ 24) :
    Format.double.value ((897 - shift) * 2 ^ 52 + (fraction * 2 ^ shift - 2 ^ 23) * 2 ^ 29) =
      Format.single.value fraction := by
  have htwo : (2 : Rat) ≠ 0 := by norm_num
  have hrest : (fraction * 2 ^ shift - 2 ^ 23) * 2 ^ 29 < 2 ^ 52 := by omega
  have hdouble := Format.value_of_normal .double (896 - shift) hrest
  have hsingle := Format.value_of_subnormal .single hfraction
  have hfield : 897 - shift = 896 - shift + 1 := by omega
  have hmantissa : 2 ^ 52 + (fraction * 2 ^ shift - 2 ^ 23) * 2 ^ 29 =
      fraction * 2 ^ shift * 2 ^ 29 := by omega
  have hexponent : (-149 : Int) = shift + (29 + (-1074 + (896 - shift : Nat))) := by omega
  rw [hfield]
  refine hdouble.trans (Eq.trans ?_ hsingle.symm)
  change ((2 ^ 52 + (fraction * 2 ^ shift - 2 ^ 23) * 2 ^ 29 : Nat) : Rat) *
      2 ^ (-1074 + (896 - shift : Nat) : Int) = fraction * 2 ^ (-149 : Int)
  rw [hmantissa, hexponent, zpow_add₀ htwo (shift : Int), zpow_add₀ htwo 29, zpow_natCast]
  push_cast
  ring

end Values

/-- A single is widened to a float of the same sign and the same value. -/
theorem exists_toFloat_eq (hs : s.isFinite = true) :
    ∃ m < 2047 * 2 ^ 52, s.toFloat = floatOf s.negative m ∧
      Format.double.value m = Format.single.value s.magnitude := by
  have hmagnitude : s.magnitude < 255 * 2 ^ 23 := of_decide_eq_true hs
  have hfraction : s.magnitude % 2 ^ 23 < 2 ^ 23 := Nat.mod_lt _ (by decide)
  obtain hfield | ⟨field, hfield⟩ : s.magnitude / 2 ^ 23 = 0 ∨
      ∃ field, s.magnitude / 2 ^ 23 = field + 1 := by
    cases s.magnitude / 2 ^ 23 with
    | zero => exact .inl rfl
    | succ field => exact .inr ⟨field, rfl⟩
  · obtain hzero | hpos := Nat.eq_zero_or_pos (s.magnitude % 2 ^ 23)
    · have hnone : s.magnitude = 0 := by omega
      refine ⟨0, by decide, toFloat_of_zero hfield hzero, ?_⟩
      rw [hnone, Format.value_of_subnormal _ (Nat.two_pow_pos _),
        Format.value_of_subnormal _ (Nat.two_pow_pos _), Nat.cast_zero, zero_mul, zero_mul]
    · obtain ⟨shift, hshift, hle, hnormal, hnormal'⟩ := exists_shift hpos hfraction
      refine ⟨_, ?_, toFloat_of_subnormal hfield hpos.ne' hshift, ?_⟩
      · omega
      · rw [value_subnormal hfraction hle hnormal hnormal']
        congr 1
        omega
  · refine ⟨_, ?_, toFloat_of_normal (by omega) (by omega), ?_⟩
    · omega
    · rw [hfield, value_normal hfraction]
      congr 1
      omega

theorem isFinite_toFloat (hs : s.isFinite = true) : s.toFloat.isFinite = true := by
  obtain ⟨m, hm, hfloat, -⟩ := exists_toFloat_eq hs
  rw [hfloat]
  exact isFinite_floatOf s.negative hm

theorem ofMagnitude_magnitude (s : Single) : ofMagnitude s.negative s.magnitude = s := by
  obtain ⟨bits⟩ := s
  have hbits : bits.toNat < 2 ^ 32 := bits.toNat_lt
  have hsum : (if bits.toNat / 2 ^ 31 == 1 then 2 ^ 31 else 0) + bits.toNat % 2 ^ 31 =
      bits.toNat := by
    simp only [beq_iff_eq]
    split <;> omega
  change Single.mk (UInt32.ofNat ((if bits.toNat / 2 ^ 31 == 1 then 2 ^ 31 else 0) +
    bits.toNat % 2 ^ 31)) = ⟨bits⟩
  rw [hsum, UInt32.ofNat_toNat]

theorem ofFloat_toFloat (hs : s.isFinite = true) : ofFloat s.toFloat = s := by
  obtain ⟨m, hm, hfloat, hvalue⟩ := exists_toFloat_eq hs
  obtain ⟨hnan, hinf⟩ := number_of_isFinite (isFinite_floatOf s.negative hm)
  obtain ⟨hsign, hratio⟩ := ofFloat_floatOf s.negative hm
  have hnearest : nearestMagnitude (Binary.ofFloat (floatOf s.negative m)) = s.magnitude := by
    simp only [nearestMagnitude, hratio]
    exact Format.nearest_eq Format.wellFormed_single (Format.fraction_snd_pos _ _)
      (of_decide_eq_true hs) hvalue
  rw [hfloat, ofFloat]
  simp only [hnan, hinf, Bool.false_eq_true, if_false, hsign, hnearest, ofMagnitude_magnitude]

end Single

end SearchClient.Decimal
