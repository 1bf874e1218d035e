import SearchClient.Unicode.Direction
import SearchClient.Unicode.Joining
import SearchClient.Unicode.Mapping
import SearchClient.Url.Punycode

/-!
# Domains in ASCII

A domain is brought into lower case and composed form and cut into labels at
its points.  A label beyond ASCII is written in Punycode behind a mark; a label
that has the mark already must be what would be written for the letters it
stands for.
-/

namespace SearchClient.Url

open Text Unicode

namespace Domain

def mark : List Char := ['x', 'n', '-', '-']

def isMarked (label : List Char) : Bool := mark.isPrefixOf (label.map Char.toLower)

def isProper (letters : List Char) : Bool :=
  !letters.head?.any isCombining && hasJoinersInPlace [] letters

def letters? (label : List Char) : Option (List Char) := do
  if isMarked label then
    if label.all Punycode.isBasic && label.getLast? ≠ some '-' then
      let letters ← Punycode.decode? (label.drop mark.length)
      if letters.all isKept && composedForm letters = letters && isProper letters then
        some letters
      else none
    else none
  else if isProper label then some label
  else none

def written (label : List Char) : List Char :=
  if label.all Punycode.isBasic then label else mark ++ Punycode.encode label

def labels? (cs : List Char) : Option (List (List Char)) := do
  let images ← cs.mapM image?
  some (splitOn (· = '.') (composedForm images.flatten))

/-- A domain in ASCII; one with letters from right to left has only labels of one direction. -/
def ascii? (cs : List Char) : Option (List Char) :=
  if cs.all Punycode.isBasic && !(splitOn (· = '.') cs).any isMarked then
    some (cs.map Char.toLower)
  else do
    let labels ← labels? cs
    let letters ← labels.mapM letters?
    if letters.any hasRightToLeft && !letters.all isDirected then none
    else some (".".intercalate (labels.map fun l => String.ofList (written l))).toList

end Domain

end SearchClient.Url
