import Mathlib.Algebra.Order.Field.Power
import Mathlib.Tactic.Positivity
import Mathlib.Tactic.Ring
import SearchClient.Decimal.Format

/-!
# Rounding what needs no rounding

The leading digit of a fraction is found from the sizes of its two parts.  It
gives the unit that the format has for a number of that size, and a number of
whole units is not rounded: so what a format holds is its own nearest magnitude.
-/

namespace SearchClient.Decimal

theorem roundHalfEven_mul (m : Nat) {d : Nat} (hd : 0 < d) : roundHalfEven (m * d) d = m := by
  rw [roundHalfEven, Nat.mul_div_cancel m hd, Nat.mul_mod_left, if_pos hd]

theorem two_zpow_eq (e : Int) : (2 : Rat) ^ e = (2 : Rat) ^ e.toNat / 2 ^ (-e).toNat := by
  rw [← zpow_natCast, ← zpow_natCast, ← zpow_sub₀ (by norm_num)]
  congr 1
  omega

theorem ratio_value (m : Nat) (e : Int) :
    ((ratio m e).1 : Rat) / (ratio m e).2 = m * 2 ^ e := by
  rw [two_zpow_eq, ← mul_div_assoc]
  simp only [ratio, pow2, Nat.pow_eq]
  push_cast
  rfl

section LeadingBit

variable {num den : Nat}

theorem log2_bounds {n : Nat} (hn : 0 < n) :
    (2 : Rat) ^ (n.log2 : Int) ≤ n ∧ (n : Rat) < 2 ^ ((n.log2 : Int) + 1) := by
  have hle := Nat.log2_self_le hn.ne'
  have hlt := Nat.lt_log2_self (n := n)
  constructor
  · exact_mod_cast hle
  · exact_mod_cast hlt

theorem leadingBit_bounds (hn : 0 < num) (hd : 0 < den) :
    (2 : Rat) ^ leadingBit num den ≤ (num : Rat) / den ∧
      (num : Rat) / den < 2 ^ (leadingBit num den + 1) := by
  have hden : (0 : Rat) < den := by exact_mod_cast hd
  have htwo : (2 : Rat) ≠ 0 := by norm_num
  have hpow (e : Int) : den * pow2 e.toNat ≤ num * pow2 (-e).toNat ↔ (2 : Rat) ^ e ≤ num / den := by
    rw [two_zpow_eq, div_le_div_iff₀ (by positivity) hden, mul_comm ((2 : Rat) ^ e.toNat)]
    exact_mod_cast Iff.rfl
  obtain ⟨hnum, hnum'⟩ := log2_bounds hn
  obtain ⟨hden₁, hden₂⟩ := log2_bounds hd
  -- the estimate is right or one too great
  have hleast : (2 : Rat) ^ ((num.log2 : Int) - den.log2 - 1) ≤ num / den := by
    rw [le_div_iff₀ hden]
    calc (2 : Rat) ^ ((num.log2 : Int) - den.log2 - 1) * den
        ≤ 2 ^ ((num.log2 : Int) - den.log2 - 1) * 2 ^ ((den.log2 : Int) + 1) := by
          gcongr
      _ = 2 ^ (num.log2 : Int) := by
        rw [← zpow_add₀ htwo]
        congr 1
        omega
      _ ≤ num := hnum
  have hgreatest : (num : Rat) / den < 2 ^ ((num.log2 : Int) - den.log2 + 1) := by
    rw [div_lt_iff₀ hden]
    calc (num : Rat) < 2 ^ ((num.log2 : Int) + 1) := hnum'
      _ = 2 ^ ((num.log2 : Int) - den.log2 + 1) * 2 ^ (den.log2 : Int) := by
        rw [← zpow_add₀ htwo]
        congr 1
        omega
      _ ≤ 2 ^ ((num.log2 : Int) - den.log2 + 1) * den := by gcongr
  rw [leadingBit]
  split
  · next h => exact ⟨(hpow _).mp h, hgreatest⟩
  · next h =>
    rw [hpow, not_le] at h
    exact ⟨hleast, by rwa [Int.sub_add_cancel]⟩

theorem leadingBit_eq {k : Int} (hn : 0 < num) (hd : 0 < den)
    (h : (2 : Rat) ^ k ≤ (num : Rat) / den) (h' : (num : Rat) / den < 2 ^ (k + 1)) :
    leadingBit num den = k := by
  obtain ⟨hl, hl'⟩ := leadingBit_bounds hn hd
  have := (zpow_lt_zpow_iff_right₀ (by norm_num)).mp (hl.trans_lt h')
  have := (zpow_lt_zpow_iff_right₀ (by norm_num)).mp (h.trans_lt hl')
  omega

theorem num_pos_of_value {q : Rat} (hq : 0 < q) (h : (num : Rat) / den = q) : 0 < num := by
  apply Nat.pos_of_ne_zero
  rintro rfl
  rw [Nat.cast_zero, zero_div] at h
  exact hq.ne h

end LeadingBit

namespace Format

structure WellFormed (f : Format) : Prop where
  balanced : f.leastUnit + f.fractionBits + f.greatestLead = 1
  greatestLead_pos : 0 < f.greatestLead

variable {f : Format}

theorem nearest_of_units {num den m : Nat} {unit : Int} (hnum : 0 < num) (hden : 0 < den)
    (hrange : leadingBit num den ≤ f.greatestLead)
    (hunit : max (leadingBit num den - f.fractionBits) f.leastUnit = unit)
    (hvalue : (num : Rat) / den = m * 2 ^ unit) :
    f.nearest num den = (unit - f.leastUnit).toNat * 2 ^ f.fractionBits + m := by
  have hscaled : num * pow2 (-unit).toNat = m * (den * pow2 unit.toNat) := by
    have hden' : (den : Rat) ≠ 0 := by positivity
    rw [two_zpow_eq, ← mul_div_assoc, div_eq_div_iff hden' (by positivity)] at hvalue
    simp only [pow2, Nat.pow_eq]
    rw [mul_comm den, ← mul_assoc]
    exact_mod_cast hvalue
  have hpos : 0 < den * pow2 unit.toNat := Nat.mul_pos hden (Nat.two_pow_pos _)
  simp only [nearest, if_neg hnum.ne', if_neg hrange.not_gt, hunit, hscaled,
    roundHalfEven_mul m hpos]
  rfl

def value (f : Format) (bits : Nat) : Rat := (f.fraction bits).1 / (f.fraction bits).2

theorem fraction_snd_pos (f : Format) (bits : Nat) : 0 < (f.fraction bits).2 := by
  rw [fraction]
  split <;> exact Nat.two_pow_pos _

theorem value_of_subnormal (f : Format) {bits : Nat} (h : bits < 2 ^ f.fractionBits) :
    f.value bits = bits * 2 ^ f.leastUnit := by
  rw [value, fraction]
  simp only [pow2, Nat.pow_eq, Nat.div_eq_of_lt h, Nat.mod_eq_of_lt h, if_true, ratio_value]

theorem value_of_normal (f : Format) (field : Nat) {rest : Nat}
    (hrest : rest < 2 ^ f.fractionBits) :
    f.value ((field + 1) * 2 ^ f.fractionBits + rest) =
      (2 ^ f.fractionBits + rest : Nat) * 2 ^ (f.leastUnit + field) := by
  have hpos := Nat.two_pow_pos f.fractionBits
  have hfield : ((field + 1) * 2 ^ f.fractionBits + rest) / 2 ^ f.fractionBits = field + 1 := by
    rw [mul_comm, Nat.mul_add_div hpos, Nat.div_eq_of_lt hrest, add_zero]
  have hfraction : ((field + 1) * 2 ^ f.fractionBits + rest) % 2 ^ f.fractionBits = rest := by
    rw [mul_comm, Nat.mul_add_mod, Nat.mod_eq_of_lt hrest]
  rw [value, fraction]
  simp only [pow2, Nat.pow_eq, hfield, hfraction, Nat.add_one_ne_zero, if_false, ratio_value]
  congr 2
  omega

theorem nearest_of_subnormal (hf : f.WellFormed) {bits num den : Nat} (hden : 0 < den)
    (hbits : bits < 2 ^ f.fractionBits) (hvalue : (num : Rat) / den = bits * 2 ^ f.leastUnit) :
    f.nearest num den = bits := by
  obtain ⟨hbalanced, hgreatest⟩ := hf
  have htwo : (2 : Rat) ≠ 0 := by norm_num
  obtain rfl | hpos := Nat.eq_zero_or_pos bits
  · have hden' : (den : Rat) ≠ 0 := by exact_mod_cast hden.ne'
    have hzero : num = 0 := by
      rw [Nat.cast_zero, zero_mul, div_eq_zero_iff] at hvalue
      exact_mod_cast hvalue.resolve_right hden'
    rw [nearest, if_pos hzero]
  · have hnum : 0 < num := num_pos_of_value (by positivity) hvalue
    obtain ⟨hle, hlt⟩ := log2_bounds hpos
    have hleading : leadingBit num den = bits.log2 + f.leastUnit := by
      apply leadingBit_eq hnum hden
      · rw [hvalue, zpow_add₀ htwo]
        gcongr
      · rw [hvalue, add_right_comm, zpow_add₀ htwo]
        gcongr
    have hlog : bits.log2 < f.fractionBits := (Nat.log2_lt hpos.ne').mpr hbits
    rw [nearest_of_units hnum hden (by omega) (by omega) hvalue, sub_self, Int.toNat_zero,
      zero_mul, zero_add]

theorem nearest_of_normal (hf : f.WellFormed) {field rest num den : Nat} (hden : 0 < den)
    (hrest : rest < 2 ^ f.fractionBits) (hfield : field < 2 * f.greatestLead)
    (hvalue : (num : Rat) / den = (2 ^ f.fractionBits + rest : Nat) * 2 ^ (f.leastUnit + field)) :
    f.nearest num den = (field + 1) * 2 ^ f.fractionBits + rest := by
  obtain ⟨hbalanced, hgreatest⟩ := hf
  have htwo : (2 : Rat) ≠ 0 := by norm_num
  have hnum : 0 < num := num_pos_of_value (by positivity) hvalue
  have hlog : (2 ^ f.fractionBits + rest).log2 = f.fractionBits := by
    refine (Nat.log2_eq_iff (by positivity)).mpr ⟨Nat.le_add_right _ _, ?_⟩
    rw [pow_succ]
    omega
  obtain ⟨hle, hlt⟩ := log2_bounds (n := 2 ^ f.fractionBits + rest) (by positivity)
  rw [hlog] at hle hlt
  have hleading : leadingBit num den = f.fractionBits + (f.leastUnit + field) := by
    apply leadingBit_eq hnum hden
    · rw [hvalue, zpow_add₀ htwo]
      gcongr
    · rw [hvalue, add_right_comm, zpow_add₀ htwo (f.fractionBits + 1 : Int)]
      gcongr
  have hunit : (f.leastUnit + field - f.leastUnit).toNat = field := by omega
  rw [nearest_of_units hnum hden (by omega) (by omega) hvalue, hunit]
  ring

/-- Rounding leaves what the format holds as it is. -/
theorem nearest_eq (hf : f.WellFormed) {bits num den : Nat} (hden : 0 < den)
    (hbits : bits < f.infinity) (hvalue : (num : Rat) / den = f.value bits) :
    f.nearest num den = bits := by
  obtain hsmall | hlarge := Nat.lt_or_ge bits (2 ^ f.fractionBits)
  · rw [value_of_subnormal f hsmall] at hvalue
    exact nearest_of_subnormal hf hden hsmall hvalue
  · have hpos := Nat.two_pow_pos f.fractionBits
    have hrest := Nat.mod_lt bits hpos
    obtain ⟨field, hfield⟩ : ∃ field, bits / 2 ^ f.fractionBits = field + 1 :=
      Nat.exists_eq_add_one.mpr (Nat.div_pos hlarge hpos)
    have hsum : (field + 1) * 2 ^ f.fractionBits + bits % 2 ^ f.fractionBits = bits := by
      rw [← hfield, Nat.div_add_mod']
    have hgreatest : bits / 2 ^ f.fractionBits < 2 * f.greatestLead + 1 :=
      (Nat.div_lt_iff_lt_mul hpos).mpr hbits
    rw [← hsum, value_of_normal f field hrest] at hvalue
    rw [nearest_of_normal hf hden hrest (by omega) hvalue, hsum]

end Format

end SearchClient.Decimal
