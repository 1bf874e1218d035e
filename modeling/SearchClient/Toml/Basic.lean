import SearchClient.Entries

/-!
# Settings documents

A TOML document is a table of named values.  How a table came to be decides
whether a later line may add to it.
-/

namespace SearchClient

inductive Toml.Origin where
  | header
  | implied
  | dotted
  | inline
  deriving DecidableEq, Repr

/-- Dates and times are told from other values but not from each other. -/
inductive Toml where
  | string (s : String)
  | integer (n : Int)
  | float (x : Float)
  | bool (b : Bool)
  | time
  | array (items : List Toml)
  | table (origin : Toml.Origin) (fields : List (String × Toml))
  | tables (items : List (List (String × Toml)))

namespace Toml

abbrev Fields := Entries Toml

def changeLast {α : Type} (f : α → Option α) : List α → Option (List α)
  | [] => none
  | [a] => (f a).map fun b => [b]
  | a :: rest => (changeLast f rest).map (a :: ·)

def assign (v : Toml) : List String → Fields → Option Fields
  | [], _ => none
  | [name], fields =>
      if fields.contains name then none else some (fields.set name v)
  | name :: next :: rest, fields =>
      match fields.get? name with
      | none => do
          let inner ← assign v (next :: rest) []
          some (fields.set name (.table .dotted inner))
      | some (.table .dotted inner) => do
          let inner ← assign v (next :: rest) inner
          some (fields.set name (.table .dotted inner))
      | some (.table .implied inner) =>
          if rest.isEmpty then none
          else do
            let inner ← assign v (next :: rest) inner
            some (fields.set name (.table .implied inner))
      | some (.tables items) =>
          if rest.isEmpty then none
          else do
            let items ← changeLast (assign v (next :: rest)) items
            some (fields.set name (.tables items))
      | some _ => none

/-- Changes the table that a path of names leads to; of several tables the last counts. -/
def within (f : Fields → Option Fields) : List String → Fields → Option Fields
  | [], fields => f fields
  | name :: rest, fields =>
      match fields.get? name with
      | none => do
          let inner ← within f rest []
          some (fields.set name (.table .implied inner))
      | some (.table origin inner) =>
          if origin = .inline then none
          else do
            let inner ← within f rest inner
            some (fields.set name (.table origin inner))
      | some (.tables items) => do
          let items ← changeLast (within f rest) items
          some (fields.set name (.tables items))
      | some _ => none

/-- Begins the table of a header, which may have been implied before but not written. -/
def beginTable (name : String) (fields : Fields) : Option Fields :=
  match fields.get? name with
  | none => some (fields.set name (.table .header []))
  | some (.table .implied inner) => some (fields.set name (.table .header inner))
  | some _ => none

/-- Begins one more of several tables of the same name. -/
def beginItem (name : String) (fields : Fields) : Option Fields :=
  match fields.get? name with
  | none => some (fields.set name (.tables [[]]))
  | some (.tables items) => some (fields.set name (.tables (items ++ [[]])))
  | some _ => none

def beginAt (begin? : String → Fields → Option Fields) (path : List String) (fields : Fields) :
    Option Fields :=
  match path.getLast? with
  | some name => within (begin? name) path.dropLast fields
  | none => none

end Toml

end SearchClient
