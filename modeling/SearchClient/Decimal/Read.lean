import SearchClient.Decimal.Format

/-!
# Reading decimal text

A decimal text gives a mantissa of digits and a power of ten; the value is
rounded once, to the nearest float.
-/

namespace SearchClient.Decimal

def takeDigits (cs : List Char) : List Char × List Char :=
  (cs.takeWhile Char.isDigit, cs.dropWhile Char.isDigit)

def digitsValue (ds : List Char) : Nat :=
  ds.foldl (fun n c => 10 * n + (c.toNat - '0'.toNat)) 0

def takeExponent : List Char → Option (Int × List Char)
  | c :: rest =>
      if c = 'e' ∨ c = 'E' then
        let (negative, body) :=
          match rest with
          | '+' :: r => (false, r)
          | '-' :: r => (true, r)
          | r => (false, r)
        let (ds, after) := takeDigits body
        if ds.isEmpty then none
        else
          let n : Int := digitsValue ds
          some (if negative then -n else n, after)
      else some (0, c :: rest)
  | [] => some (0, [])

def floatOf (negative : Bool) (magnitude : Nat) : Float :=
  Float.ofBits (UInt64.ofNat ((if negative then pow2 63 else 0) + magnitude))

/--
The float nearest to `digits · 10 ^ exponent`.  Beyond 400 places the value is
out of range whatever the digits, and no power of ten is computed.
-/
def nearestFloat (negative : Bool) (digits : List Char) (exponent : Int) : Float :=
  let mantissa := digitsValue digits
  let size := (digits.dropWhile (· = '0')).length
  floatOf negative
    (if mantissa = 0 then 0
    else if exponent + size > 400 then Format.double.infinity
    else if exponent + size < -400 then 0
    else
      Format.double.nearest (mantissa * pow10 exponent.toNat) (pow10 (-exponent).toNat))

def special? (cs : List Char) : Option Float :=
  let name := String.ofList (cs.map Char.toLower)
  if name = "inf" ∨ name = "infinity" then some (1.0 / 0.0)
  else if name = "nan" then some (0.0 / 0.0)
  else none

/--
A float in free decimal form: an optional sign, then digits with an optional
point and exponent, or the name of a special value.  Digits may be missing on
one side of the point but not on both.
-/
def float? (text : String) : Option Float := do
  let (negative, body) :=
    match text.toList with
    | '+' :: rest => (false, rest)
    | '-' :: rest => (true, rest)
    | rest => (false, rest)
  match special? body with
  | some x => some (if negative then -x else x)
  | none =>
      let (whole, rest) := takeDigits body
      let (fraction, rest) :=
        match rest with
        | '.' :: r => takeDigits r
        | r => ([], r)
      if whole.isEmpty && fraction.isEmpty then none
      else
        let (exponent, rest) ← takeExponent rest
        if rest.isEmpty then
          some (nearestFloat negative (whole ++ fraction) (exponent - fraction.length))
        else none

end SearchClient.Decimal
