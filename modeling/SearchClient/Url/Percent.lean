import SearchClient.Text.Basic

/-!
# Percent encoding

A character that may not stand for itself is written as its UTF-8 bytes, each
a percent sign and two hexadecimal digits.  Which characters stand for
themselves depends on the part of the address they are in.
-/

namespace SearchClient.Url

open Text

def isPrintable (c : Char) : Bool := 32 ≤ c.toNat && c.toNat < 127

def keptInFragment (c : Char) : Bool :=
  isPrintable c && !([' ', '"', '<', '>', '\x60'].contains c)

def keptInQuery (c : Char) : Bool :=
  isPrintable c && !([' ', '"', '#', '<', '>'].contains c)

def keptInPath (c : Char) : Bool :=
  keptInFragment c && !(['#', '?', '\x7b', '\x7d'].contains c)

def keptInUserinfo (c : Char) : Bool :=
  keptInPath c && !(['/', ':', ';', '=', '@', '[', '\\', ']', '^', '|'].contains c)

def keptInForm (c : Char) : Bool :=
  c.isAlphanum || ['*', '-', '.', '_'].contains c

def encodeByte (b : UInt8) : List Char :=
  ['%', upperHexDigit (b.toNat / 16), upperHexDigit (b.toNat % 16)]

def encodeChar (kept : Char → Bool) (c : Char) : List Char :=
  if kept c then [c] else (String.utf8EncodeChar c).flatMap encodeByte

def encode (kept : Char → Bool) (cs : List Char) : List Char := cs.flatMap (encodeChar kept)

def encodeForm (cs : List Char) : List Char :=
  cs.flatMap fun c => if c = ' ' then ['+'] else encodeChar keptInForm c

/-- The bytes of a text; a percent sign without two digits stands for itself. -/
def decodeBytes : List Char → List UInt8
  | [] => []
  | '%' :: a :: b :: rest =>
      match hexValue? a, hexValue? b with
      | some high, some low => UInt8.ofNat (16 * high + low) :: decodeBytes rest
      | _, _ => String.utf8EncodeChar '%' ++ decodeBytes (a :: b :: rest)
  | c :: rest => String.utf8EncodeChar c ++ decodeBytes rest

def decode? (cs : List Char) : Option (List Char) :=
  (ByteArray.utf8Decode? ⟨(decodeBytes cs).toArray⟩).map Array.toList

end SearchClient.Url
