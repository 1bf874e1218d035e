import SearchClient.Decimal.Binary

/-!
# Rounding into a floating-point format

A format keeps the bits of the exponent above those of the fraction, so the
bits of a magnitude, taken as one number, count the magnitudes in order.
Rounding up out of a fraction carries into the exponent, and out of the
greatest finite magnitude into infinity.
-/

namespace SearchClient.Decimal

/-- The bits of a fraction, and the exponents that its last and its first bit reach. -/
structure Format where
  fractionBits : Nat
  leastUnit : Int
  greatestLead : Nat
  deriving DecidableEq, Repr

namespace Format

def double : Format := ⟨52, -1074, 1023⟩

def single : Format := ⟨23, -149, 127⟩

def infinity (f : Format) : Nat := (2 * f.greatestLead + 1) * pow2 f.fractionBits

def fraction (f : Format) (bits : Nat) : Nat × Nat :=
  let field := bits / pow2 f.fractionBits
  let rest := bits % pow2 f.fractionBits
  if field = 0 then ratio rest f.leastUnit
  else ratio (pow2 f.fractionBits + rest) (f.leastUnit + field - 1)

end Format

def leadingBit (num den : Nat) : Int :=
  let estimate : Int := (num.log2 : Int) - den.log2
  if den * pow2 estimate.toNat ≤ num * pow2 (-estimate).toNat then estimate else estimate - 1

/-- The bits of the magnitude nearest to a fraction, a tie going to the even one. -/
def Format.nearest (f : Format) (num den : Nat) : Nat :=
  if num = 0 then 0
  else
    let lead := leadingBit num den
    if f.greatestLead < lead then f.infinity
    else
      let unit : Int := max (lead - f.fractionBits) f.leastUnit
      let scaled := roundHalfEven (num * pow2 (-unit).toNat) (den * pow2 unit.toNat)
      (unit - f.leastUnit).toNat * pow2 f.fractionBits + scaled

end SearchClient.Decimal
