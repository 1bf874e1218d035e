/-!
# Positions in a document

A path names a position by the steps that lead to it from a root.  Its text is
the dotted and indexed form, such as `hits.hits[2]._source`.
-/

namespace SearchClient.Json

inductive Step where
  | name (name : String)
  | index (index : Nat)
  deriving DecidableEq, Repr

/-- A position below a root of the given name, by its steps in order. -/
structure Path where
  root : String := ""
  steps : List Step := []
  deriving DecidableEq, Repr

namespace Path

def field (p : Path) (name : String) : Path := { p with steps := p.steps ++ [.name name] }

def item (p : Path) (index : Nat) : Path := { p with steps := p.steps ++ [.index index] }

/-- The text of a path grown by one step; no dot stands in front of the first name. -/
def extend (text : String) : Step → String
  | .name name => if text.isEmpty then name else text ++ "." ++ name
  | .index index => text ++ "[" ++ toString index ++ "]"

def text (p : Path) : String := p.steps.foldl extend p.root

def document : Path := ⟨"$", []⟩

@[simp] theorem text_field (p : Path) (name : String) :
    (p.field name).text = extend p.text (.name name) := by
  simp [text, field]

@[simp] theorem text_item (p : Path) (index : Nat) :
    (p.item index).text = extend p.text (.index index) := by
  simp [text, item]

end Path

end SearchClient.Json
