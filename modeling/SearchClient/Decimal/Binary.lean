/-!
# Binary fractions behind a float

A finite float is a sign, a mantissa and a power of two.  Everything this
library decides about floats (their text, their integer value, their single
precision neighbour) is decided on these three numbers in exact arithmetic.
-/

namespace SearchClient.Decimal

abbrev pow2 (n : Nat) : Nat := Nat.pow 2 n

abbrev pow10 (n : Nat) : Nat := Nat.pow 10 n

/-- A signed binary fraction `± mantissa · 2 ^ exponent`. -/
structure Binary where
  negative : Bool
  mantissa : Nat
  exponent : Int
  deriving DecidableEq, Repr

namespace Binary

def ofFloat (x : Float) : Binary :=
  let bits : Nat := x.toBits.toNat
  let fraction : Nat := bits % pow2 52
  let biased : Nat := bits / pow2 52 % pow2 11
  let negative := bits / pow2 63 == 1
  if biased = 0 then ⟨negative, fraction, -1074⟩
  else ⟨negative, pow2 52 + fraction, (biased : Int) - 1075⟩

def toInt? (b : Binary) : Option Int :=
  let magnitude? : Option Nat :=
    if 0 ≤ b.exponent then some (b.mantissa * pow2 b.exponent.toNat)
    else
      let unit := pow2 (-b.exponent).toNat
      if b.mantissa % unit = 0 then some (b.mantissa / unit) else none
  magnitude?.map fun n => if b.negative then -(n : Int) else n

end Binary

/-- The quotient nearest to `num / den`; a tie goes to the even neighbour. -/
def roundHalfEven (num den : Nat) : Nat :=
  let q := num / den
  let twice := 2 * (num % den)
  if twice < den then q
  else if den < twice then q + 1
  else if q % 2 = 0 then q else q + 1

def ratio (mantissa : Nat) (exponent : Int) : Nat × Nat :=
  (mantissa * pow2 exponent.toNat, pow2 (-exponent).toNat)

end SearchClient.Decimal
