/-!
# Texts

Texts are cut at separators, and their hexadecimal digits are read.
-/

namespace SearchClient.Text

/-- The parts of a text between the separators; there is one more than separators. -/
def splitOn (isSeparator : Char → Bool) : List Char → List (List Char)
  | [] => [[]]
  | c :: rest =>
      if isSeparator c then [] :: splitOn isSeparator rest
      else
        match splitOn isSeparator rest with
        | [] => [[c]]
        | part :: parts => (c :: part) :: parts

def cutAt (mark : Char) : List Char → List Char × Option (List Char)
  | [] => ([], none)
  | c :: rest =>
      if c = mark then ([], some rest)
      else
        let (front, after) := cutAt mark rest
        (c :: front, after)

def cutAtLast (mark : Char) : List Char → Option (List Char) × List Char
  | [] => (none, [])
  | c :: rest =>
      match cutAtLast mark rest with
      | (some front, after) => (some (c :: front), after)
      | (none, after) => if c = mark then (some [], after) else (none, c :: after)

def trimStart (drop : Char → Bool) (cs : List Char) : List Char := cs.dropWhile drop

def trimEnd (drop : Char → Bool) (cs : List Char) : List Char :=
  (cs.reverse.dropWhile drop).reverse

def hexDigit (n : Nat) : Char := Nat.digitChar n

def upperHexDigit (n : Nat) : Char := (hexDigit n).toUpper

def hexValue? (c : Char) : Option Nat :=
  if c.isDigit then some (c.toNat - '0'.toNat)
  else if 'a' ≤ c ∧ c ≤ 'f' then some (c.toNat - 'a'.toNat + 10)
  else if 'A' ≤ c ∧ c ≤ 'F' then some (c.toNat - 'A'.toNat + 10)
  else none

def isHexDigit (c : Char) : Bool := (hexValue? c).isSome

/-- The number a list of digits names; what is no digit counts as zero. -/
def hexDigitsValue (ds : List Char) : Nat :=
  ds.foldl (fun n c => 16 * n + (hexValue? c).getD 0) 0

end SearchClient.Text
