import SearchClient.Decimal.Notation
import SearchClient.Json.Value
import SearchClient.Text.Basic

/-!
# The compact text of a document

Documents are written without spaces, keys in order.  In a string only the
quote, the backslash and the control characters below the space are escaped.
-/

namespace SearchClient.Json

open Decimal Text

/-- Floats are written as `0.00001` or `1000000000000000.0`, and beyond as `1e-6` or `1.5e+16`. -/
def floatLayout : Layout := ⟨-5, 15⟩

def escapeChar (c : Char) : List Char :=
  if c = '"' then ['\\', '"']
  else if c = '\\' then ['\\', '\\']
  else if c.toNat = 8 then ['\\', 'b']
  else if c.toNat = 12 then ['\\', 'f']
  else if c = '\n' then ['\\', 'n']
  else if c = '\r' then ['\\', 'r']
  else if c = '\t' then ['\\', 't']
  else if c.toNat < 32 then
    ['\\', 'u', '0', '0', hexDigit (c.toNat / 16), hexDigit (c.toNat % 16)]
  else [c]

def quoted (s : String) : List Char := '"' :: s.toList.flatMap escapeChar ++ ['"']

mutual

def chars : Json → List Char
  | .null => "null".toList
  | .bool true => "true".toList
  | .bool false => "false".toList
  | .int n => (toString n).toList
  | .float x => if x.isFinite then floatLayout.chars x else "null".toList
  | .string s => quoted s
  | .array [] => ['[', ']']
  | .array (x :: xs) => '[' :: (chars x ++ itemChars xs)
  | .object [] => ['\x7b', '\x7d']
  | .object ((name, x) :: rest) =>
      '\x7b' :: (quoted name ++ ':' :: (chars x ++ fieldChars rest))

def itemChars : List Json → List Char
  | [] => [']']
  | x :: xs => ',' :: (chars x ++ itemChars xs)

def fieldChars : List (String × Json) → List Char
  | [] => ['\x7d']
  | (name, x) :: rest => ',' :: (quoted name ++ ':' :: (chars x ++ fieldChars rest))

end

def text (j : Json) : String := String.ofList j.chars

end SearchClient.Json
