import SearchClient.Decimal.Read
import SearchClient.Time.Calendar

/-!
# Instants

An instant is a number of seconds since 1970 and of nanoseconds.  A leap second
is the second 59 with its nanoseconds counted on beyond one thousand million.
Instants are written as date and time in UTC to the millisecond, and read from
date and time with any offset.
-/

namespace SearchClient.Time

open Decimal

structure Instant where
  seconds : Int
  nanos : Nat
  deriving DecidableEq, Repr, Inhabited

namespace Instant

def secondsPerDay : Int := 86400

def firstYear : Int := -262143

def lastYear : Int := 262142

def ofMillis? (millis : Int) : Option Instant :=
  let seconds := millis / 1000
  let year := (CivilDate.ofDays (seconds / secondsPerDay)).year
  if firstYear ≤ year ∧ year ≤ lastYear then
    some ⟨seconds, (millis % 1000).toNat * 1000000⟩
  else none

def padded (width n : Nat) : List Char :=
  let digits := Nat.toDigits 10 n
  List.replicate (width - digits.length) '0' ++ digits

/-- Years of four digits are written as such, others with their sign. -/
def yearChars (year : Int) : List Char :=
  if 0 ≤ year ∧ year ≤ 9999 then padded 4 year.toNat
  else (if year < 0 then '-' else '+') :: padded 4 year.natAbs

def chars (t : Instant) : List Char :=
  let date := CivilDate.ofDays (t.seconds / secondsPerDay)
  let ofDay := (t.seconds % secondsPerDay).toNat
  let leap := if t.nanos ≥ 1000000000 then 1 else 0
  let nanos := t.nanos - leap * 1000000000
  yearChars date.year ++ '-' :: padded 2 date.month ++ '-' :: padded 2 date.day ++
    'T' :: padded 2 (ofDay / 3600) ++ ':' :: padded 2 (ofDay / 60 % 60) ++
    ':' :: padded 2 (ofDay % 60 + leap) ++ '.' :: padded 3 (nanos / 1000000) ++ ['Z']

def text (t : Instant) : String := String.ofList t.chars

def takeNumber (width : Nat) (cs : List Char) : Option (Nat × List Char) :=
  let ds := cs.take width
  if ds.length = width ∧ ds.all Char.isDigit then some (digitsValue ds, cs.drop width)
  else none

def takeChar (c : Char) : List Char → Option (List Char)
  | d :: rest => if d = c then some rest else none
  | [] => none

def takeSeparator : List Char → Option (List Char)
  | c :: rest => if c = 'T' ∨ c = 't' ∨ c = ' ' then some rest else none
  | [] => none

/-- A fraction of a second in nanoseconds; digits after the ninth are passed over. -/
def takeFraction : List Char → Option (Nat × List Char)
  | '.' :: rest =>
      let (ds, after) := takeDigits rest
      if ds.isEmpty then none
      else
        let kept := ds.take 9
        some (digitsValue kept * pow10 (9 - kept.length), after)
  | rest => some (0, rest)

def takeOffset : List Char → Option (Int × List Char)
  | [] => none
  | c :: rest =>
      if c = 'Z' ∨ c = 'z' then some (0, rest)
      else if c = '+' ∨ c = '-' ∨ c = '−' then do
        let (hours, rest) ← takeNumber 2 rest
        let rest ← takeChar ':' rest
        let (minutes, rest) ← takeNumber 2 rest
        if hours < 24 ∧ minutes < 60 then
          let offset : Int := hours * 3600 + minutes * 60
          some (if c = '+' then offset else -offset, rest)
        else none
      else none

/-- Reads date, time and offset; the second 60 is a leap second. -/
def ofText? (text : String) : Option Instant := do
  let (year, rest) ← takeNumber 4 text.toList
  let (month, rest) ← takeNumber 2 (← takeChar '-' rest)
  let (day, rest) ← takeNumber 2 (← takeChar '-' rest)
  let (hour, rest) ← takeNumber 2 (← takeSeparator rest)
  let (minute, rest) ← takeNumber 2 (← takeChar ':' rest)
  let (second, rest) ← takeNumber 2 (← takeChar ':' rest)
  let (nanos, rest) ← takeFraction rest
  let (offset, rest) ← takeOffset rest
  let date ← CivilDate.ofNumbers? year month day
  if rest.isEmpty ∧ hour < 24 ∧ minute < 60 ∧ second ≤ 60 then
    let leap : Nat := if second = 60 then 1 else 0
    let ofDay : Nat := hour * 3600 + minute * 60 + (second - leap)
    let seconds : Int := date.toDays * secondsPerDay + ofDay
    some ⟨seconds - offset, nanos + leap * 1000000000⟩
  else none

end Instant

end SearchClient.Time
