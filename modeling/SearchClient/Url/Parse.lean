import SearchClient.Url.Basic

/-!
# Reading addresses

An address is cut into its parts at fixed marks: the fragment at the first
number sign, the query at the first question mark before it, the authority at
the first slash, the port at the colon outside brackets.  The parts are then
brought into their encoded form.
-/

namespace SearchClient.Url

open Decimal Text

def isSchemeChar (c : Char) : Bool := c.isAlphanum || c = '+' || c = '-' || c = '.'

def takeScheme (cs : List Char) : Option (String × List Char) :=
  match cutAt ':' cs with
  | (scheme, some rest) =>
      if scheme.head?.any Char.isAlpha && scheme.all isSchemeChar then
        some (String.ofList (scheme.map Char.toLower), rest)
      else none
  | (_, none) => none

def isSingleDot (segment : List Char) : Bool :=
  [".", "%2e"].contains (String.ofList (segment.map Char.toLower))

def isDoubleDot (segment : List Char) : Bool :=
  ["..", ".%2e", "%2e.", "%2e%2e"].contains (String.ofList (segment.map Char.toLower))

def isDrive : List Char → Bool
  | [letter, mark] => letter.isAlpha && (mark = ':' || mark = '|')
  | _ => false

def beginsWithDrive (segment : List Char) : Bool :=
  isDrive (segment.takeWhile (· ≠ '\\'))

/-- One step up; a segment that begins with a drive is not left. -/
def up (path : List String) : List String :=
  if path.getLast?.any fun s => beginsWithDrive s.toList then path else path.dropLast

/-- A segment in its encoded form; a file's path may begin with a drive, which has a colon. -/
def segment (ofFile : Bool) (path : List String) (cs : List Char) : String :=
  if ofFile && path.isEmpty && isDrive cs then String.ofList (cs.take 1 ++ [':'])
  else String.ofList (encode keptInPath cs)

def step (ofFile : Bool) (path : List String) (cs : List Char) : List String :=
  if isDoubleDot cs then up path
  else if isSingleDot cs then path
  else path ++ [segment ofFile path cs]

/-- Follows segments from the root; dots at the end leave an empty segment. -/
def follow (ofFile : Bool) (parts : List (List Char)) : List String :=
  let path := parts.foldl (step ofFile) []
  if parts.getLast?.any fun s => isDoubleDot s || isSingleDot s then path ++ [""] else path

def isSlash (special : Bool) (c : Char) : Bool := c = '/' || (special && c = '\\')

def segments (special ofFile : Bool) (cs : List Char) : List String :=
  let body :=
    match cs with
    | c :: rest => if isSlash special c then rest else c :: rest
    | [] => []
  follow ofFile (splitOn (isSlash special) body)

def cutPort : Bool → List Char → List Char × Option (List Char)
  | _, [] => ([], none)
  | inBrackets, c :: rest =>
      if c = ':' ∧ !inBrackets then ([], some rest)
      else
        let (host, port) := cutPort (c = '[' || (inBrackets && c ≠ ']')) rest
        (c :: host, port)

def port? (scheme : String) (cs : List Char) : Option (Option Nat) :=
  if !cs.all Char.isDigit || digitsValue cs ≥ pow2 16 then none
  else if cs.isEmpty || defaultPort? scheme = some (digitsValue cs) then some none
  else some (some (digitsValue cs))

def host? (scheme : String) (cs : List Char) : Option Host :=
  if isSpecial scheme then Host.domain? cs else Host.plain? cs

/--
An authority, and a backslash after its port with what follows it.  Only an
address outside the usual schemes may lack the host, and then it has no name,
password or port; an at sign alone may stand at the end of an address.
-/
def authority? (scheme : String) (isLast : Bool) (cs : List Char) :
    Option (Authority × List Char) := do
  let (userinfo, place) := cutAtLast '@' cs
  let (hostText, portText) := cutPort false place
  let (name, password) := cutAt ':' (userinfo.getD [])
  let (name, password) := (encode keptInUserinfo name, encode keptInUserinfo (password.getD []))
  let needsHost :=
    isSpecial scheme || portText.isSome || !name.isEmpty || !password.isEmpty ||
      (userinfo = some [] && !isLast)
  if hostText.isEmpty && needsHost then none
  else
    let rest := (portText.getD []).dropWhile (· ≠ '\\')
    let port ←
      match portText with
      | some digits => port? scheme (digits.takeWhile (· ≠ '\\'))
      | none => some none
    let host ← host? scheme hostText
    some (⟨String.ofList name, String.ofList password, host, port⟩, rest)

def special? (scheme : String) (cs : List Char) : Option (Option Authority × Path) := do
  let rest := trimStart (isSlash true) cs
  let place := rest.takeWhile fun c => !isSlash true c
  let (a, _) ← authority? scheme false place
  some (some a, .rooted (segments true false (rest.drop place.length)))

def fileHost? (cs : List Char) : Option Host := do
  if cs.isEmpty then some (.name "")
  else
    let host ← Host.domain? cs
    some (if host = .name "localhost" then .name "" else host)

/-- A file has no host if its path is on a drive, and its path has no empty segments at its start. -/
def onHost (host : Host) (path : List String) : Option Authority × Path :=
  let host := if path.head?.any fun s => isDrive s.toList then .name "" else host
  match path.dropWhile String.isEmpty with
  | [] => (some { host }, .rooted [""])
  | rest => (some { host }, .rooted rest)

def file? (cs : List Char) : Option (Option Authority × Path) := do
  let localFile := onHost (.name "") (segments true true cs)
  match cs with
  | a :: b :: rest =>
      if isSlash true a && isSlash true b then
        let place := rest.takeWhile fun c => !isSlash true c
        if isDrive place then some (onHost (.name "") (segments true true rest))
        else
          let host ← fileHost? place
          some (onHost host (segments true true (rest.drop place.length)))
      else some localFile
  | _ => some localFile

/--
An address of any other scheme, with an authority after two slashes or without;
the text may be the last part of the address.
-/
def other? (scheme : String) (isLast : Bool) (cs : List Char) :
    Option (Option Authority × Path) := do
  match cs with
  | '/' :: '/' :: rest =>
      let place := rest.takeWhile (· ≠ '/')
      let path := rest.drop place.length
      let (a, front) ← authority? scheme (isLast && path.isEmpty) place
      let path := front ++ path
      some (some a, .rooted (if path.isEmpty then [] else segments false false path))
  | '/' :: rest => some (none, .rooted (segments false false rest))
  | cs => some (none, .rootless (String.ofList (encode isPrintable cs)))

/-- A text without blanks and control characters around it and line breaks within it. -/
def strip (cs : List Char) : List Char :=
  let isBlank (c : Char) : Bool := c.toNat ≤ 32
  (trimEnd isBlank (trimStart isBlank cs)).filter fun c => c ≠ '\t' && c ≠ '\n' && c ≠ '\r'

def keptInQueryOf (scheme : String) (c : Char) : Bool :=
  keptInQuery c && !(isSpecial scheme && c = '\x27')

def ofChars? (cs : List Char) : Option Url := do
  let (scheme, rest) ← takeScheme (strip cs)
  let (rest, fragment) := cutAt '#' rest
  let (front, query) := cutAt '?' rest
  let (authority, path) ←
    if scheme = "file" then file? front
    else if isSpecial scheme then special? scheme front
    else other? scheme (query.isNone && fragment.isNone) front
  some {
    scheme, authority, path
    query := query.map fun q => String.ofList (encode (keptInQueryOf scheme) q)
    fragment := fragment.map fun f => String.ofList (encode keptInFragment f) }

def parse? (text : String) : Option Url := ofChars? text.toList

end SearchClient.Url
