import SearchClient.Toml.Scalar

/-!
# Reading settings documents

A document is read line by line: a header begins a table, and a pair writes a
value into the table begun last.
-/

namespace SearchClient.Toml

def isBare (c : Char) : Bool := c.isAlphanum || c = '_' || c = '-'

def takeName (cs : List Char) : Option (String × List Char) :=
  match takeShort cs with
  | some found => some found
  | none =>
      let name := cs.takeWhile isBare
      if name.isEmpty then none else some (String.ofList name, cs.dropWhile isBare)

/-- The most names a path may have, and the most lists and tables in one another. -/
def greatestDepth : Nat := 79

def takePath : Nat → List Char → Option (List String × List Char)
  | 0, _ => none
  | count + 1, cs => do
      let (name, rest) ← takeName cs
      match skipSpaces rest with
      | '.' :: rest => do
          let (names, rest) ← takePath count (skipSpaces rest)
          some (name :: names, rest)
      | rest => some ([name], rest)

def skipLines : Nat → List Char → List Char
  | 0, cs => cs
  | fuel + 1, cs =>
      let rest := skipComment (skipSpaces cs)
      match takeLineEnd rest with
      | some rest => skipLines fuel rest
      | none => rest

def takeWord (word : String) (v : Toml) (cs : List Char) : Option (Toml × List Char) :=
  let w := word.toList
  if w.isPrefixOf cs then some (v, cs.drop w.length) else none

mutual

/-- A value; the first number is the fuel, and so many lists and tables may be in one another. -/
def takeValue : Nat → Nat → List Char → Option (Toml × List Char)
  | 0, _, _ => none
  | fuel + 1, depth, cs =>
      match cs with
      | [] => none
      | c :: rest =>
          if c = '"' ∨ c = '\x27' then (takeString cs).map fun (s, rest) => (.string s, rest)
          else if c = '[' then
            if depth = 0 then none
            else takeItems fuel (depth - 1) [] (skipLines rest.length rest)
          else if c = '\x7b' then
            if depth = 0 then none
            else
              match skipSpaces rest with
              | '\x7d' :: rest => some (.table .inline [], rest)
              | rest => takeFields fuel (depth - 1) [] rest
          else if c = 't' then takeWord "true" (.bool true) cs
          else if c = 'f' then takeWord "false" (.bool false) cs
          else takeNumber cs

def takeItems : Nat → Nat → List Toml → List Char → Option (Toml × List Char)
  | 0, _, _, _ => none
  | _ + 1, _, acc, ']' :: rest => some (.array acc.reverse, rest)
  | fuel + 1, depth, acc, cs => do
      let (item, rest) ← takeValue fuel depth cs
      match skipLines rest.length rest with
      | ',' :: rest => takeItems fuel depth (item :: acc) (skipLines rest.length rest)
      | ']' :: rest => some (.array (item :: acc).reverse, rest)
      | _ => none

def takeFields : Nat → Nat → Fields → List Char → Option (Toml × List Char)
  | 0, _, _, _ => none
  | fuel + 1, depth, acc, cs => do
      let ((path, v), rest) ← takePair fuel depth cs
      let acc ← assign v path acc
      match skipSpaces rest with
      | ',' :: rest => takeFields fuel depth acc (skipSpaces rest)
      | '\x7d' :: rest => some (.table .inline acc, rest)
      | _ => none

def takePair : Nat → Nat → List Char → Option ((List String × Toml) × List Char)
  | 0, _, _ => none
  | fuel + 1, depth, cs => do
      let (path, rest) ← takePath greatestDepth cs
      match rest with
      | '=' :: rest => do
          let (v, rest) ← takeValue fuel depth (skipSpaces rest)
          some ((path, v), rest)
      | _ => none

end

inductive Line where
  | blank
  | header (path : List String)
  | item (path : List String)
  | pair (path : List String) (v : Toml)

def takeHeader (close : List Char) (cs : List Char) : Option (List String × List Char) := do
  let (path, rest) ← takePath greatestDepth (skipSpaces cs)
  if close.isPrefixOf rest then some (path, rest.drop close.length) else none

def takeLine (cs : List Char) : Option (Line × List Char) :=
  match skipSpaces cs with
  | '[' :: '[' :: rest =>
      (takeHeader [']', ']'] rest).map fun (path, rest) => (.item path, rest)
  | '[' :: rest => (takeHeader [']'] rest).map fun (path, rest) => (.header path, rest)
  | rest =>
      if (endLine rest).isSome then some (.blank, rest)
      else
        (takePair (2 * rest.length + 2) greatestDepth rest).map fun ((path, v), rest) => (.pair path v, rest)

/-- Reads lines into a document; the path is the one of the last header. -/
def takeLines : Nat → List String → Fields → List Char → Option Fields
  | 0, _, _, _ => none
  | _ + 1, _, fields, [] => some fields
  | fuel + 1, path, fields, cs => do
      let (line, rest) ← takeLine cs
      let rest ← endLine rest
      match line with
      | .blank => takeLines fuel path fields rest
      | .header new => takeLines fuel new (← beginAt beginTable new fields) rest
      | .item new => takeLines fuel new (← beginAt beginItem new fields) rest
      | .pair names v => takeLines fuel path (← within (assign v names) path fields) rest

def skipByteOrder : List Char → List Char
  | '\ufeff' :: rest => rest
  | cs => cs

def parse? (text : String) : Option Fields :=
  let cs := skipByteOrder text.toList
  takeLines (cs.length + 1) [] [] cs

end SearchClient.Toml
