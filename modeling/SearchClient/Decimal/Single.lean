import SearchClient.Decimal.Format

/-!
# Single precision

A single precision number is kept as its 32 bits.  It widens to a float
exactly; a float narrows to the nearest single, a tie going to the even one.
-/

namespace SearchClient.Decimal

structure Single where
  bits : UInt32
  deriving DecidableEq, Repr

namespace Single

def magnitude (s : Single) : Nat := s.bits.toNat % pow2 31

def negative (s : Single) : Bool := s.bits.toNat / pow2 31 == 1

def isFinite (s : Single) : Bool := decide (s.magnitude < Format.single.infinity)

def ofMagnitude (negative : Bool) (magnitude : Nat) : Single :=
  ⟨UInt32.ofNat ((if negative then pow2 31 else 0) + magnitude)⟩

def nearestMagnitude (b : Binary) : Nat :=
  let (num, den) := ratio b.mantissa b.exponent
  Format.single.nearest num den

def ofFloat (x : Float) : Single :=
  if x.isNaN then ⟨0x7fc00000⟩
  else if x.isInf then ofMagnitude (decide (x < 0)) Format.single.infinity
  else
    let b := Binary.ofFloat x
    ofMagnitude b.negative (nearestMagnitude b)

def toFloat (s : Single) : Float :=
  let field := s.magnitude / pow2 23
  let fraction := s.magnitude % pow2 23
  let sign : Nat := if s.negative then pow2 63 else 0
  if field = 255 then
    if fraction = 0 then Float.ofBits (UInt64.ofNat (sign + 2047 * pow2 52))
    else 0.0 / 0.0
  else if field = 0 then
    if fraction = 0 then Float.ofBits (UInt64.ofNat sign)
    else
      let shift := 23 - fraction.log2
      let normal := fraction * pow2 shift
      Float.ofBits (UInt64.ofNat
        (sign + (897 - shift) * pow2 52 + (normal - pow2 23) * pow2 29))
  else Float.ofBits (UInt64.ofNat (sign + (field + 896) * pow2 52 + fraction * pow2 29))

end Single

end SearchClient.Decimal
