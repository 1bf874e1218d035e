import SearchClient.Text.Basic

/-!
# Punycode

A label with letters beyond ASCII is written in ASCII: its ASCII letters come
first, then each other letter as the distance from the one before it, in order
of code points.
-/

namespace SearchClient.Url

open Text

namespace Punycode

def digit (n : Nat) : Char := Char.ofNat (if n < 26 then 'a'.toNat + n else '0'.toNat + (n - 26))

def threshold (place bias : Nat) : Nat := max 1 (min 26 (36 * place - bias))

def damp (distance : Nat) : Nat × Nat :=
  if distance ≤ 455 then (0, distance)
  else
    let (count, rest) := damp (distance / 35)
    (count + 1, rest)
termination_by distance

def adapt (distance length : Nat) (isFirst : Bool) : Nat :=
  let scaled := if isFirst then distance / 700 else distance / 2
  let (count, rest) := damp (scaled + scaled / length)
  36 * count + 36 * rest / (rest + 38)

/-- A distance as digits of varying base, the least first; the fuel bounds their number. -/
def distanceDigits (bias : Nat) : Nat → Nat → Nat → List Char
  | 0, _, _ => []
  | fuel + 1, place, distance =>
      let t := threshold place bias
      if distance < t then [digit distance]
      else
        digit (t + (distance - t) % (36 - t)) ::
          distanceDigits bias fuel (place + 1) ((distance - t) / (36 - t))

structure State where
  point : Nat := 128
  distance : Nat := 0
  bias : Nat := 72
  written : Nat
  out : List Char

/-- Passes over a label once for one code point, writing it wherever it stands. -/
def writePoint (basic : Nat) (label : List Char) (s : State) : State :=
  label.foldl
    (fun s c =>
      if c.toNat < s.point then { s with distance := s.distance + 1 }
      else if c.toNat = s.point then
        { s with
          out := s.out ++ distanceDigits s.bias (s.distance + 1) 1 s.distance
          bias := adapt s.distance (s.written + 1) (s.written = basic)
          distance := 0
          written := s.written + 1 }
      else s)
    s

def writePoints (basic : Nat) (label : List Char) : List Nat → State → State
  | [], s => s
  | point :: rest, s =>
      let s := { s with
        distance := s.distance + (point - s.point) * (s.written + 1), point }
      let s := writePoint basic label s
      writePoints basic label rest { s with distance := s.distance + 1, point := point + 1 }

def isBasic (c : Char) : Bool := c.toNat < 128

def encode (label : List Char) : List Char :=
  let basic := label.filter isBasic
  let points := ((label.filter fun c => !isBasic c).map Char.toNat).eraseDups.mergeSort
  let start := if basic.isEmpty then [] else basic ++ ['-']
  (writePoints basic.length label points { written := basic.length, out := start }).out

def digitValue? (c : Char) : Option Nat :=
  if c.isAlpha then some (c.toLower.toNat - 'a'.toNat)
  else if c.isDigit then some (c.toNat - '0'.toNat + 26)
  else none

def takeDistance (bias : Nat) : Nat → Nat → List Char → Option (Nat × List Char)
  | _, _, [] => none
  | place, weight, c :: rest => do
      let n ← digitValue? c
      let t := threshold place bias
      if n < t then some (n * weight, rest)
      else
        let (more, rest) ← takeDistance bias (place + 1) (weight * (36 - t)) rest
        some (n * weight + more, rest)

/-- Reads letters from their distances and puts them in; each takes some of the fuel. -/
def insertPoints : Nat → Nat → Nat → Nat → List Char → List Char → Option (List Char)
  | _, _, _, _, letters, [] => some letters
  | 0, _, _, _, _, _ => none
  | fuel + 1, point, place, bias, letters, digits => do
      let (distance, rest) ← takeDistance bias 1 1 digits
      let length := letters.length + 1
      let point := point + (place + distance) / length
      let here := (place + distance) % length
      if point.isValidChar then
        insertPoints fuel point (here + 1) (adapt distance length (place = 0))
          (letters.insertIdx here (Char.ofNat point)) rest
      else none

def decode? (label : List Char) : Option (List Char) :=
  let (basic, digits) :=
    match cutAtLast '-' label with
    | (some (c :: basic), digits) => (c :: basic, digits)
    | _ => ([], label)
  insertPoints digits.length 128 0 72 basic digits

end Punycode

end SearchClient.Url
