/-!
# Tables of characters

A table is a text of numbers in base 26: capital letters are the leading
digits of a number and a small letter is its last, `a` for zero.  All else in
the text only breaks it into lines.  The tables hold for version 17 of Unicode.
-/

namespace SearchClient.Unicode

def readDigit : List Nat × Nat → Char → List Nat × Nat
  | (read, n), c =>
      if c.isUpper then (read, 26 * n + (c.toNat - 'A'.toNat))
      else if c.isLower then ((26 * n + (c.toNat - 'a'.toNat)) :: read, 0)
      else (read, n)

def numbers (text : String) : List Nat := (text.toList.foldl readDigit ([], 0)).1.reverse

structure Span where
  first : Nat
  last : Nat
  cls : Nat
  deriving Repr

/-- Spans in order, each as the gap before it, its reach and its class. -/
def spans : Nat → List Nat → List Span
  | start, gap :: reach :: cls :: rest =>
      ⟨start + gap, start + gap + reach, cls⟩ :: spans (start + gap + reach + 1) rest
  | _, _ => []

def readSpans (text : String) : List Span := spans 0 (numbers text)

def classOf (table : List Span) (c : Char) : Nat :=
  match table.find? fun s => s.first ≤ c.toNat && c.toNat ≤ s.last with
  | some s => s.cls
  | none => 0

end SearchClient.Unicode
