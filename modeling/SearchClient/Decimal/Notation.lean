import SearchClient.Decimal.Shortest

/-!
# Writing a float in decimal notation

A float is written from its shortest digits: positionally, with at least one
fraction digit, for exponents within a window, and with a signed exponent
outside it.
-/

namespace SearchClient.Decimal

/-- The least and the greatest exponent of the first digit that is written positionally. -/
structure Layout where
  leastPositional : Int
  greatestPositional : Int
  deriving DecidableEq, Repr

def positional (digits : List Char) (lead : Int) : List Char :=
  if lead < 0 then
    ['0', '.'] ++ List.replicate ((-lead).toNat - 1) '0' ++ digits
  else
    let whole := lead.toNat + 1
    let padded := digits ++ List.replicate (whole - digits.length) '0'
    let fraction := padded.drop whole
    padded.take whole ++ '.' :: (if fraction.isEmpty then ['0'] else fraction)

def scientific (digits : List Char) (lead : Int) : List Char :=
  let mantissa :=
    match digits with
    | d :: e :: rest => d :: '.' :: e :: rest
    | short => short
  mantissa ++ 'e' :: (if lead < 0 then '-' else '+') :: Nat.toDigits 10 lead.natAbs

def Layout.chars (layout : Layout) (x : Float) : List Char :=
  let b := Binary.ofFloat x
  let sign := if b.negative then ['-'] else []
  if b.mantissa = 0 then sign ++ ['0', '.', '0']
  else
    let d := shortest b
    let digits := Nat.toDigits 10 d.digits
    let lead := d.exponent + (digits.length : Int) - 1
    sign ++
      if layout.leastPositional ≤ lead ∧ lead ≤ layout.greatestPositional then
        positional digits lead
      else scientific digits lead

end SearchClient.Decimal
