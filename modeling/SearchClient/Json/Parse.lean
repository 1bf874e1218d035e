import SearchClient.Json.Number
import SearchClient.Text.Basic

/-!
# Reading a document from text

A reader takes a value off the front of a text and returns what follows it.
The fuel of a reader is the length of its text: every call of it passes at
least one character.
-/

namespace SearchClient.Json

open Text

def isBlank (c : Char) : Bool := c = ' ' || c = '\n' || c = '\r' || c = '\t'

def skipBlanks (cs : List Char) : List Char := cs.dropWhile isBlank

def dropWord (word : String) (cs : List Char) : Option (List Char) :=
  let w := word.toList
  if w.isPrefixOf cs then some (cs.drop w.length) else none

def takeUnit : List Char → Option (Nat × List Char)
  | a :: b :: c :: d :: rest => do
      let a ← hexValue? a
      let b ← hexValue? b
      let c ← hexValue? c
      let d ← hexValue? d
      some (((a * 16 + b) * 16 + c) * 16 + d, rest)
  | _ => none

/-- One escaped character, after the backslash; a high unit needs its low partner. -/
def takeEscape : List Char → Option (Char × List Char)
  | 'u' :: rest => do
      let (unit, rest) ← takeUnit rest
      if 0xD800 ≤ unit ∧ unit < 0xDC00 then
        match rest with
        | '\\' :: 'u' :: rest =>
            let (low, rest) ← takeUnit rest
            if 0xDC00 ≤ low ∧ low < 0xE000 then
              some (Char.ofNat (0x10000 + (unit - 0xD800) * 0x400 + (low - 0xDC00)), rest)
            else none
        | _ => none
      else if 0xDC00 ≤ unit ∧ unit < 0xE000 then none
      else some (Char.ofNat unit, rest)
  | c :: rest =>
      if c = '"' ∨ c = '\\' ∨ c = '/' then some (c, rest)
      else if c = 'b' then some ('\x08', rest)
      else if c = 'f' then some ('\x0c', rest)
      else if c = 'n' then some ('\n', rest)
      else if c = 'r' then some ('\r', rest)
      else if c = 't' then some ('\t', rest)
      else none
  | [] => none

def takeString : Nat → List Char → List Char → Option (String × List Char)
  | 0, _, _ => none
  | fuel + 1, acc, cs =>
      match cs with
      | [] => none
      | '"' :: rest => some (String.ofList acc.reverse, rest)
      | '\\' :: rest => do
          let (c, rest) ← takeEscape rest
          takeString fuel (c :: acc) rest
      | c :: rest => if c.toNat < 32 then none else takeString fuel (c :: acc) rest

mutual

def takeValue : Nat → List Char → Option (Json × List Char)
  | 0, _ => none
  | fuel + 1, cs =>
      match skipBlanks cs with
      | '"' :: rest => do
          let (s, rest) ← takeString fuel [] rest
          some (.string s, rest)
      | '[' :: rest =>
          match skipBlanks rest with
          | ']' :: rest => some (.array [], rest)
          | rest => takeItems fuel [] rest
      | '\x7b' :: rest =>
          match skipBlanks rest with
          | '\x7d' :: rest => some (.object [], rest)
          | rest => takeFields fuel [] rest
      | 't' :: rest => (dropWord "rue" rest).map fun rest => (.bool true, rest)
      | 'f' :: rest => (dropWord "alse" rest).map fun rest => (.bool false, rest)
      | 'n' :: rest => (dropWord "ull" rest).map fun rest => (.null, rest)
      | rest => takeNumber rest

def takeItems : Nat → List Json → List Char → Option (Json × List Char)
  | 0, _, _ => none
  | fuel + 1, acc, cs => do
      let (item, rest) ← takeValue fuel cs
      match skipBlanks rest with
      | ',' :: rest => takeItems fuel (item :: acc) rest
      | ']' :: rest => some (.array (item :: acc).reverse, rest)
      | _ => none

/-- A repeated name takes the last value in the place of the first. -/
def takeFields : Nat → Object → List Char → Option (Json × List Char)
  | 0, _, _ => none
  | fuel + 1, acc, cs =>
      match skipBlanks cs with
      | '"' :: rest => do
          let (name, rest) ← takeString fuel [] rest
          match skipBlanks rest with
          | ':' :: rest =>
              let (value, rest) ← takeValue fuel rest
              match skipBlanks rest with
              | ',' :: rest => takeFields fuel (acc.set name value) rest
              | '\x7d' :: rest => some (.object (acc.set name value), rest)
              | _ => none
          | _ => none
      | _ => none

end

def parse? (text : String) : Option Json := do
  let cs := text.toList
  let (value, rest) ← takeValue (cs.length + 1) cs
  if (skipBlanks rest).isEmpty then some value else none

end SearchClient.Json
