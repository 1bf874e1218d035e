import SearchClient.Decimal.Read
import SearchClient.Json.Cursor
import SearchClient.Text.Basic

/-!
# Engine versions

A version names a distribution and a release number of three components, as
in `opensearch:2.11.0`.  The distribution may be left out, and so may trailing
components; a suffix such as `-SNAPSHOT` is passed over.
-/

namespace SearchClient

open Decimal Json

inductive Distribution where
  | elasticsearch
  | openSearch
  deriving DecidableEq, Repr

namespace Distribution

def name : Distribution → String
  | elasticsearch => "elasticsearch"
  | openSearch => "opensearch"

def ofName (s : String) : Except Error Distribution :=
  if s = "elasticsearch" then .ok elasticsearch
  else if s = "opensearch" then .ok openSearch
  else .error (.unknownDistribution s)

end Distribution

structure Version where
  distribution : Distribution
  major : Nat
  minor : Nat
  patch : Nat
  deriving DecidableEq, Repr

namespace Version

/-- A component: an optional plus sign and digits of a number below `2 ^ 32`. -/
def component? (cs : List Char) : Option Nat :=
  let digits :=
    match cs with
    | '+' :: rest => rest
    | rest => rest
  if digits.isEmpty || !digits.all Char.isDigit then none
  else
    let n := digitsValue digits
    if n < pow2 32 then some n else none

def componentAt (number : String) (parts : List (List Char)) (index : Nat) :
    Except Error Nat :=
  match parts[index]? with
  | none => .ok 0
  | some part =>
      match component? part with
      | some n => .ok n
      | none => .error (.invalidVersion number)

def parseNumber (distribution : Distribution) (number : String) : Except Error Version := do
  let release := number.toList.takeWhile (· ≠ '-')
  let parts := Text.splitOn (· = '.') release
  let major ← componentAt number parts 0
  let minor ← componentAt number parts 1
  let patch ← componentAt number parts 2
  return ⟨distribution, major, minor, patch⟩

/-- Reads a version; the text before the first colon is the distribution. -/
def parse (s : String) : Except Error Version := do
  let cs := s.toList
  let front := cs.takeWhile (· ≠ ':')
  match cs.dropWhile (· ≠ ':') with
  | [] => parseNumber .elasticsearch s
  | _ :: number => do
      let distribution ← Distribution.ofName (String.ofList front)
      parseNumber distribution (String.ofList number)

def text (v : Version) : String :=
  v.distribution.name ++ ":" ++ toString v.major ++ "." ++ toString v.minor ++ "." ++
    toString v.patch

def ofInfo (body : Json) : Except Error Version := do
  let root ← Cursor.ofDocument body
  let version ← root.object "version"
  let distribution ←
    match ← version.string? "distribution" with
    | some name => Distribution.ofName name
    | none => pure .elasticsearch
  parseNumber distribution (← version.string "number")

def atLeast (v : Version) (major : Nat) : Bool := decide (major ≤ v.major)

end Version

end SearchClient
