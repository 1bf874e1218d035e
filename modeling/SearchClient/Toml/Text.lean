import SearchClient.Text.Basic
import SearchClient.Toml.Basic

/-!
# Writing settings

A string is written in the plainest quotes that need no escapes: one double
quote, one apostrophe, three double quotes, three apostrophes.  Only a string
that fits in none of these is escaped.
-/

namespace SearchClient.Toml

open Text

def longestRun (mark : Char) (cs : List Char) : Nat :=
  (cs.foldl
    (fun (best, run) c => if c = mark then (max best (run + 1), run + 1) else (best, 0))
    (0, 0)).1

def needsCode (c : Char) : Bool := (c.toNat < 32 && c ≠ '\t' && c ≠ '\n') || c.toNat = 127

def escapeChar (long : Bool) (c : Char) : List Char :=
  if c = '\\' then ['\\', '\\']
  else if c.toNat = 8 then ['\\', 'b']
  else if c = '\t' then ['\\', 't']
  else if c = '\n' then if long then ['\n'] else ['\\', 'n']
  else if c.toNat = 12 then ['\\', 'f']
  else if c = '\r' then ['\\', 'r']
  else if needsCode c then
    ['\\', 'u', '0', '0', upperHexDigit (c.toNat / 16), upperHexDigit (c.toNat % 16)]
  else [c]

/-- Escapes a text in which at most `room` double quotes may stand side by side. -/
def escape (long : Bool) (room : Nat) : Nat → List Char → List Char
  | _, [] => []
  | run, c :: rest =>
      if c = '"' then
        if run < room then '"' :: escape long room (run + 1) rest
        else '\\' :: '"' :: escape long room 0 rest
      else escapeChar long c ++ escape long room 0 rest

/-- A long string begins on a line of its own if it has several lines. -/
def enclose (quotes : List Char) (hasLines : Bool) (body : List Char) : List Char :=
  quotes ++ (if hasLines then ['\n'] else []) ++ body ++ quotes

def stringChars (s : String) : List Char :=
  let cs := s.toList
  let hasLines := cs.contains '\n'
  let doubles := longestRun '"' cs
  let singles := longestRun '\x27' cs
  let isPlain := !cs.any needsCode
  let isUnescaped := isPlain && !cs.contains '\\'
  let long (quote : Char) (body : List Char) : List Char :=
    enclose (List.replicate 3 quote) hasLines body
  if isUnescaped && doubles = 0 && !hasLines then enclose ['"'] false (escape false 0 0 cs)
  else if isPlain && singles = 0 && !hasLines then enclose ['\x27'] false cs
  else if isUnescaped && doubles ≤ 2 then long '"' (escape true 2 0 cs)
  else if isPlain && singles ≤ 2 then long '\x27' cs
  else if hasLines then long '"' (escape true 2 0 cs)
  else enclose ['"'] false (escape false 0 0 cs)

def pairChars (name : String) (value : List Char) : List Char :=
  name.toList ++ " = ".toList ++ value ++ ['\n']

end SearchClient.Toml
