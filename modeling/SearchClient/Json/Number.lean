import SearchClient.Decimal.Read
import SearchClient.Json.Value

/-!
# Reading numbers

A whole number in the range of 64 bit words stays whole, and any other number
is a float.  Of the digits of a float those are kept that fit in such a word.
What they name is rounded to a float, and that is multiplied or divided by a
power of ten and rounded again: the result may miss the nearest float by a little.
-/

namespace SearchClient.Json

open Decimal

/-- Takes further digits as long as the number stays below `2 ^ 64`, and counts them. -/
def keepDigits (n : Nat) : List Char → Nat × Nat
  | [] => (n, 0)
  | d :: rest =>
      let more := 10 * n + (d.toNat - '0'.toNat)
      if more < pow2 64 then
        let (m, count) := keepDigits more rest
        (m, count + 1)
      else (n, 0)

def significand (whole fraction : List Char) : Nat × Int :=
  let (n, kept) := keepDigits 0 whole
  let (n, places) := keepDigits n fraction
  (n, (whole.length : Int) - kept - places)

def quotientBits (a b : Nat × Nat) : Nat := Format.double.nearest (a.1 * b.2) (a.2 * b.1)

def floatPower (e : Nat) : Nat × Nat := Format.double.fraction (Format.double.nearest (pow10 e) 1)

def greatestPower : Nat := 308

/--
The bits of a number times a power of ten.  Below the least power the number is
divided twice, and below the square of that nothing is left of it.
-/
def scaledBits (n : Nat) (e : Int) : Nat :=
  let start := Format.double.fraction (Format.double.nearest n 1)
  let least := floatPower greatestPower
  if n = 0 then 0
  else if greatestPower < e then Format.double.infinity
  else if 0 ≤ e then
    let (num, den) := floatPower e.toNat
    quotientBits start (den, num)
  else if -greatestPower ≤ e then quotientBits start (floatPower (-e).toNat)
  else if -(2 * greatestPower) ≤ e then
    quotientBits (Format.double.fraction (quotientBits start least))
      (floatPower (-e - greatestPower).toNat)
  else 0

def scaled? (negative : Bool) (n : Nat) (e : Int) : Option Json :=
  let bits := scaledBits n e
  if bits < Format.double.infinity then some (.float (floatOf negative bits)) else none

/-- A number without fraction and exponent; a negative zero is a float. -/
def ofWhole? (negative : Bool) (digits : List Char) : Option Json :=
  let n := digitsValue digits
  let (kept, e) := significand digits []
  if negative && 0 < n && n ≤ pow2 63 then some (.int (-(n : Int)))
  else if !negative && n < pow2 64 then some (.int n)
  else scaled? negative kept e

def takeNumber (cs : List Char) : Option (Json × List Char) := do
  let (negative, body) :=
    match cs with
    | '-' :: rest => (true, rest)
    | rest => (false, rest)
  let (whole, rest) := takeDigits body
  if whole.isEmpty || (whole.length > 1 && whole.head? = some '0') then none
  else
    let (fraction, rest) ←
      match rest with
      | '.' :: after =>
          let (ds, after) := takeDigits after
          if ds.isEmpty then none else some (ds, after)
      | after => some ([], after)
    let isMarked := rest.head? = some 'e' || rest.head? = some 'E'
    if fraction.isEmpty && !isMarked then
      let value ← ofWhole? negative whole
      some (value, rest)
    else
      let (exponent, rest) ← takeExponent rest
      let (n, e) := significand whole fraction
      let value ← scaled? negative n (e + exponent)
      some (value, rest)

end SearchClient.Json
