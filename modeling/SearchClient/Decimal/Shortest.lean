import SearchClient.Decimal.Binary

/-!
# The shortest decimal that reads back

Each positive float is the rounding of a whole interval of reals.  The digits
chosen for it are those of a decimal in that interval with as few digits as
possible and, among these, nearest to the float itself.
-/

namespace SearchClient.Decimal

structure Scaled where
  digits : Nat
  exponent : Int
  deriving DecidableEq, Repr

/--
The reals that round to a positive float, in quarters of its last binary
place, all over the common denominator `den`.  The ends belong to the interval
when `closed` holds, which is when the mantissa is even.
-/
structure RoundingInterval where
  low : Nat
  value : Nat
  high : Nat
  den : Nat
  closed : Bool
  deriving DecidableEq, Repr

namespace RoundingInterval

/--
Below a power of two the floats lie twice as close, so the lower half gap is
half as wide there.
-/
def ofBinary (b : Binary) : RoundingInterval :=
  let m := b.mantissa
  let below := if m = pow2 52 ∧ b.exponent ≠ -1074 then 1 else 2
  let (num, den) := ratio 1 (b.exponent - 2)
  ⟨(4 * m - below) * num, 4 * m * num, (4 * m + 2) * num, den, m % 2 == 0⟩

def scale (r : RoundingInterval) (k : Int) : RoundingInterval :=
  let up := pow10 (-k).toNat
  { r with
    low := r.low * up, value := r.value * up, high := r.high * up
    den := r.den * pow10 k.toNat }

def contains (r : RoundingInterval) (n : Nat) : Bool :=
  let x := n * r.den
  if r.closed then r.low ≤ x && x ≤ r.high else r.low < x && x < r.high

def nearest? (r : RoundingInterval) : Option Nat :=
  let below := r.value / r.den
  match r.contains below, r.contains (below + 1) with
  | true, true => some (roundHalfEven r.value r.den)
  | true, false => some below
  | false, true => some (below + 1)
  | false, false => none

end RoundingInterval

def leadingExponent (b : Binary) : Int :=
  let (num, den) := ratio b.mantissa b.exponent
  let estimate := (Int.ofNat b.mantissa.log2 + b.exponent) * 30103 / 100000
  let next := estimate + 1
  if den * pow10 next.toNat ≤ num * pow10 (-next).toNat then next else estimate

def stripZeros : Nat → Scaled → Scaled
  | 0, d => d
  | fuel + 1, d =>
      if d.digits % 10 = 0 ∧ d.digits ≠ 0 then
        stripZeros fuel ⟨d.digits / 10, d.exponent + 1⟩
      else d

/--
The shortest decimal for a positive binary fraction.  Seventeen digits always
suffice, so the first grid with a hit is found among the grids tried.
-/
def shortest (b : Binary) : Scaled :=
  let top := leadingExponent b
  let interval := RoundingInterval.ofBinary b
  let hit := (List.range 17).findSome? fun (extra : Nat) =>
    let k : Int := top - extra
    ((interval.scale k).nearest?).map fun n => (⟨n, k⟩ : Scaled)
  match hit with
  | some d => stripZeros 20 d
  | none => ⟨0, 0⟩

end SearchClient.Decimal
