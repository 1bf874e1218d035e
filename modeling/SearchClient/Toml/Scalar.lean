import SearchClient.Decimal.Read
import SearchClient.Text.Basic
import SearchClient.Time.Instant
import SearchClient.Toml.Basic

/-!
# Scalars of settings documents

A reader takes a scalar off the front of a text and returns what follows it.
-/

namespace SearchClient.Toml

open Decimal Text Time

def isSpace (c : Char) : Bool := c = ' ' || c = '\t'

def skipSpaces (cs : List Char) : List Char := cs.dropWhile isSpace

def takeLineEnd : List Char → Option (List Char)
  | '\n' :: rest => some rest
  | '\r' :: '\n' :: rest => some rest
  | _ => none

def isPlain (c : Char) : Bool := c = '\t' || (32 ≤ c.toNat && c.toNat ≠ 127)

def skipComment : List Char → List Char
  | '#' :: rest => rest.dropWhile isPlain
  | rest => rest

def endLine (cs : List Char) : Option (List Char) :=
  match skipComment (skipSpaces cs) with
  | [] => some []
  | rest => takeLineEnd rest

def skipBlanks : List Char → List Char
  | '\r' :: '\n' :: rest => skipBlanks rest
  | c :: rest => if isSpace c ∨ c = '\n' then skipBlanks rest else c :: rest
  | [] => []

def takeCodePoint (width : Nat) (cs : List Char) : Option (Char × List Char) :=
  let ds := cs.take width
  let n := hexDigitsValue ds
  if ds.length = width ∧ ds.all isHexDigit ∧ n.isValidChar then
    some (Char.ofNat n, cs.drop width)
  else none

def takeEscape : List Char → Option (Char × List Char)
  | 'u' :: rest => takeCodePoint 4 rest
  | 'U' :: rest => takeCodePoint 8 rest
  | c :: rest =>
      if c = '"' ∨ c = '\\' then some (c, rest)
      else if c = 'b' then some ('\x08', rest)
      else if c = 'f' then some ('\x0c', rest)
      else if c = 'n' then some ('\n', rest)
      else if c = 'r' then some ('\r', rest)
      else if c = 't' then some ('\t', rest)
      else none
  | [] => none

def takeBasic : Nat → List Char → List Char → Option (String × List Char)
  | 0, _, _ => none
  | fuel + 1, acc, cs =>
      match cs with
      | [] => none
      | '"' :: rest => some (String.ofList acc.reverse, rest)
      | '\\' :: rest => do
          let (c, rest) ← takeEscape rest
          takeBasic fuel (c :: acc) rest
      | c :: rest => if isPlain c then takeBasic fuel (c :: acc) rest else none

def takeLiteral (cs : List Char) : Option (String × List Char) :=
  let isBody (c : Char) : Bool := isPlain c && c ≠ '\x27'
  match cs.dropWhile isBody with
  | '\x27' :: rest => some (String.ofList (cs.takeWhile isBody), rest)
  | _ => none

/-- What follows three quotes; one or two more at the end belong to the string. -/
def takeClosing (quote : Char) (cs : List Char) : Option (List Char × List Char) :=
  let run := min 5 (cs.takeWhile (· = quote)).length
  if run < 3 then none else some (List.replicate (run - 3) quote, cs.drop run)

/-- The body of a string over several lines; a backslash at a line end joins lines. -/
def takeLong (quote : Char) : Nat → List Char → List Char → Option (String × List Char)
  | 0, _, _ => none
  | fuel + 1, acc, cs =>
      match takeClosing quote cs with
      | some (extra, rest) => some (String.ofList (acc.reverse ++ extra), rest)
      | none =>
          match takeLineEnd cs, cs with
          | some rest, _ => takeLong quote fuel ('\n' :: acc) rest
          | none, [] => none
          | none, c :: rest =>
              if c = '\\' ∧ quote = '"' then
                match takeLineEnd (skipSpaces rest) with
                | some rest => takeLong quote fuel acc (skipBlanks rest)
                | none => do
                    let (c, rest) ← takeEscape rest
                    takeLong quote fuel (c :: acc) rest
              else if isPlain c then takeLong quote fuel (c :: acc) rest
              else none

def dropLineEnd (cs : List Char) : List Char := (takeLineEnd cs).getD cs

def takeShort : List Char → Option (String × List Char)
  | '"' :: rest => takeBasic (rest.length + 1) [] rest
  | '\x27' :: rest => takeLiteral rest
  | _ => none

def takeString : List Char → Option (String × List Char)
  | '"' :: '"' :: '"' :: rest => takeLong '"' (rest.length + 1) [] (dropLineEnd rest)
  | '\x27' :: '\x27' :: '\x27' :: rest =>
      takeLong '\x27' (rest.length + 1) [] (dropLineEnd rest)
  | cs => takeShort cs

/-- Digits after the first, each of which may follow an underscore. -/
def takeMore (isDigit : Char → Bool) : List Char → List Char × List Char
  | '_' :: c :: rest =>
      if isDigit c then
        let (ds, after) := takeMore isDigit rest
        (c :: ds, after)
      else ([], '_' :: c :: rest)
  | c :: rest =>
      if isDigit c then
        let (ds, after) := takeMore isDigit rest
        (c :: ds, after)
      else ([], c :: rest)
  | [] => ([], [])

def takeGroup (isDigit : Char → Bool) : List Char → Option (List Char × List Char)
  | c :: rest =>
      if isDigit c then
        let (ds, after) := takeMore isDigit rest
        some (c :: ds, after)
      else none
  | [] => none

def takeWhole : List Char → Option (List Char × List Char)
  | '0' :: rest => some (['0'], rest)
  | cs => takeGroup Char.isDigit cs

def takeSign : List Char → Bool × List Char
  | '-' :: rest => (true, rest)
  | '+' :: rest => (false, rest)
  | rest => (false, rest)

def inInt64 (n : Int) : Bool := -(pow2 63 : Int) ≤ n && n < (pow2 63 : Int)

def takeBased (base : Nat) (cs : List Char) : Option (Toml × List Char) := do
  let isDigit (c : Char) : Bool := (hexValue? c).any (· < base)
  let (ds, rest) ← takeGroup isDigit cs
  let n : Int := ds.foldl (fun n c => base * n + (hexValue? c).getD 0) 0
  if inInt64 n then some (.integer n, rest) else none

def takeFraction : List Char → Option (List Char × List Char)
  | '.' :: rest => takeGroup Char.isDigit rest
  | rest => some ([], rest)

def takePower : List Char → Option (Int × List Char)
  | c :: rest =>
      if c = 'e' ∨ c = 'E' then do
        let (negative, body) := takeSign rest
        let (ds, after) ← takeGroup Char.isDigit body
        let n : Int := digitsValue ds
        some (if negative then -n else n, after)
      else some (0, c :: rest)
  | [] => some (0, [])

def takeDecimal (cs : List Char) : Option (Toml × List Char) := do
  let (negative, body) := takeSign cs
  match body with
  | 'i' :: 'n' :: 'f' :: rest => some (.float (if negative then -1.0 / 0.0 else 1.0 / 0.0), rest)
  | 'n' :: 'a' :: 'n' :: rest => some (.float (0.0 / 0.0), rest)
  | body =>
      let (whole, rest) ← takeWhole body
      let isMark (c : Char) : Bool := c = '.' || c = 'e' || c = 'E'
      if rest.head?.any isMark then
        let (fraction, rest) ← takeFraction rest
        let (power, rest) ← takePower rest
        let x := nearestFloat negative (whole ++ fraction) (power - fraction.length)
        if x.isInf && !negative then none else some (.float x, rest)
      else
        let n : Int := digitsValue whole
        let n := if negative then -n else n
        if inInt64 n then some (.integer n, rest) else none

def takeTime (cs : List Char) : Option (List Char) := do
  let (hour, rest) ← Instant.takeNumber 2 cs
  let (minute, rest) ← Instant.takeNumber 2 (← Instant.takeChar ':' rest)
  let (second, rest) ← Instant.takeNumber 2 (← Instant.takeChar ':' rest)
  let (_, rest) ← Instant.takeFraction rest
  if hour < 24 ∧ minute < 60 ∧ second ≤ 60 then some rest else none

def takeOffset (cs : List Char) : Option (List Char) :=
  match cs with
  | c :: rest =>
      if c = 'Z' ∨ c = 'z' then some rest
      else if c = '+' ∨ c = '-' then do
        let (hours, rest) ← Instant.takeNumber 2 rest
        let (minutes, rest) ← Instant.takeNumber 2 (← Instant.takeChar ':' rest)
        if hours < 24 ∧ minutes < 60 then some rest else none
      else some cs
  | [] => some []

def takeDate (cs : List Char) : Option (List Char) := do
  let (year, rest) ← Instant.takeNumber 4 cs
  let (month, rest) ← Instant.takeNumber 2 (← Instant.takeChar '-' rest)
  let (day, rest) ← Instant.takeNumber 2 (← Instant.takeChar '-' rest)
  let _ ← CivilDate.ofNumbers? year month day
  match Instant.takeSeparator rest >>= takeTime with
  | some after => takeOffset after
  | none => some rest

def takeMoment (cs : List Char) : Option (Toml × List Char) :=
  ((takeDate cs).or (takeTime cs)).map fun rest => (.time, rest)

def takeNumber (cs : List Char) : Option (Toml × List Char) :=
  match takeMoment cs with
  | some found => some found
  | none =>
      match cs with
      | '0' :: 'x' :: rest => takeBased 16 rest
      | '0' :: 'o' :: rest => takeBased 8 rest
      | '0' :: 'b' :: rest => takeBased 2 rest
      | cs => takeDecimal cs

end SearchClient.Toml
