import SearchClient.Decimal.Read
import SearchClient.Text.Basic
import SearchClient.Url.Domain
import SearchClient.Url.Percent

/-!
# Hosts

The host of an address is a name, or an address of four bytes or of eight
groups of sixteen bits.
-/

namespace SearchClient.Url

open Decimal Text

inductive Host where
  | name (text : String)
  | ipv4 (address : Nat)
  | ipv6 (groups : List Nat)
  deriving DecidableEq, Repr

namespace Host

def number? (cs : List Char) : Option Nat :=
  match cs with
  | [] => none
  | ['0'] => some 0
  | '0' :: x :: digits =>
      if x = 'x' ∨ x = 'X' then
        if digits.all isHexDigit then some (hexDigitsValue digits) else none
      else if (x :: digits).all fun c => '0' ≤ c ∧ c ≤ '7' then
        some ((x :: digits).foldl (fun n c => 8 * n + (c.toNat - '0'.toNat)) 0)
      else none
  | digits => if digits.all Char.isDigit then some (digitsValue digits) else none

def parts (cs : List Char) : List (List Char) :=
  match (splitOn (· = '.') cs).reverse with
  | [] :: rest => rest.reverse
  | all => all.reverse

/-- Whether a name must be read as four bytes: its last part is a number or looks like one. -/
def endsInNumber (cs : List Char) : Bool :=
  match (parts cs).getLast? with
  | none => false
  | some last => (!last.isEmpty && last.all Char.isDigit) || (number? last).isSome

/-- The address of some bytes and a number that fills the room they leave. -/
def fill? : Nat → List Nat → Option Nat
  | 0, _ | _, [] => none
  | room + 1, [last] => if last < Nat.pow 256 (room + 1) then some last else none
  | room + 1, byte :: rest =>
      if byte < 256 then (fill? room rest).map (byte * Nat.pow 256 room + ·) else none

def ipv4? (cs : List Char) : Option Nat := do
  fill? 4 (← (parts cs).mapM number?)

def ipv4Text (address : Nat) : List Char :=
  let byte (place : Nat) : String := toString (address / Nat.pow 256 place % 256)
  (".".intercalate [byte 3, byte 2, byte 1, byte 0]).toList

def group? (cs : List Char) : Option Nat :=
  if !cs.isEmpty && cs.length ≤ 4 && cs.all isHexDigit then some (hexDigitsValue cs) else none

def byte? (cs : List Char) : Option Nat :=
  if cs.isEmpty || !cs.all Char.isDigit || (cs.length > 1 && cs.head? = some '0') then none
  else if digitsValue cs < 256 then some (digitsValue cs) else none

def groups? : List (List Char) → Option (List Nat)
  | [] => some []
  | [last] =>
      if last.contains '.' then do
        match ← (splitOn (· = '.') last).mapM byte? with
        | [a, b, c, d] => some [a * 256 + b, c * 256 + d]
        | _ => none
      else (group? last).map fun g => [g]
  | part :: rest => do
      let g ← group? part
      let gs ← groups? rest
      some (g :: gs)

def cutAtGap : List Char → Option (List Char × List Char)
  | ':' :: ':' :: rest => some ([], rest)
  | c :: rest => (cutAtGap rest).map fun (front, after) => (c :: front, after)
  | [] => none

def side? (read : List (List Char) → Option (List Nat)) (cs : List Char) : Option (List Nat) :=
  if cs.isEmpty then some [] else read (splitOn (· = ':') cs)

/-- Eight groups; a double colon stands for at least one group of zero. -/
def ipv6? (cs : List Char) : Option (List Nat) := do
  match cutAtGap cs with
  | none =>
      let groups ← groups? (splitOn (· = ':') cs)
      if groups.length = 8 then some groups else none
  | some (front, after) =>
      let front ← side? (List.mapM group?) front
      let after ← side? groups? after
      let given := front.length + after.length
      if given < 8 then some (front ++ List.replicate (8 - given) 0 ++ after) else none

def zeroRun (groups : List Nat) : Nat := (groups.takeWhile (· = 0)).length

def longestZeroRun (groups : List Nat) : Nat × Nat :=
  (List.range groups.length).foldl
    (fun best start =>
      let run := zeroRun (groups.drop start)
      if best.2 < run then (start, run) else best)
    (0, 0)

def groupsText (groups : List Nat) : List Char :=
  (":".intercalate (groups.map fun g => String.ofList (Nat.toDigits 16 g))).toList

/-- The longest run of at least two zeros is left out. -/
def ipv6Text (groups : List Nat) : List Char :=
  let (start, run) := longestZeroRun groups
  if run < 2 then groupsText groups
  else groupsText (groups.take start) ++ ':' :: ':' :: groupsText (groups.drop (start + run))

def chars : Host → List Char
  | name text => text.toList
  | ipv4 address => ipv4Text address
  | ipv6 groups => '[' :: ipv6Text groups ++ [']']

def isDelimiter (c : Char) : Bool :=
  ['\x00', '\t', '\n', '\r', ' ', '#', '/', ':', '<', '>', '?', '@', '[', '\\', ']', '^', '|'].contains c

def isForbidden (c : Char) : Bool :=
  isDelimiter c || c.toNat < 32 || c.toNat = 127 || c = '%'

def bracketed? (cs : List Char) : Option Host :=
  if cs.getLast? = some ']' then (ipv6? cs.dropLast).map ipv6 else none

def domain? (cs : List Char) : Option Host := do
  match cs with
  | '[' :: rest => bracketed? rest
  | cs =>
      let decoded ← decode? cs
      let lower ← Domain.ascii? decoded
      if lower.isEmpty || lower.any isForbidden then none
      else if endsInNumber lower then (ipv4? lower).map ipv4
      else some (name (String.ofList lower))

def plain? (cs : List Char) : Option Host :=
  match cs with
  | '[' :: rest => bracketed? rest
  | cs =>
      if cs.any isDelimiter then none
      else some (name (String.ofList (encode isPrintable cs)))

end Host

end SearchClient.Url
