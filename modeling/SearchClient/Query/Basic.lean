import SearchClient.Query.Leaf

/-!
# Query trees

A query is a leaf, a combination of queries, or a query on related documents.
Combinations may carry a label, and any query may be wrapped in a labelled
node; labels let a part of a tree be found and replaced later and leave no
trace on the wire.
-/

namespace SearchClient

/-! ## Combinations -/

structure BoolClauses (α : Type) where
  filter : List α := []
  should : List α := []
  must : List α := []
  mustNot : List α := []
  minimumShouldMatch : Option Json := none
  boost : Option Float := none

inductive Clause where
  | filter
  | should
  | must
  | mustNot
  deriving DecidableEq, Repr

def Clause.text : Clause → String
  | filter => "filter"
  | should => "should"
  | must => "must"
  | mustNot => "must_not"

instance : Keyword Clause := ⟨[.filter, .should, .must, .mustNot], Clause.text⟩

def BoolClauses.add {α : Type} (clause : Clause) (more : List α) (c : BoolClauses α) :
    BoolClauses α :=
  match clause with
  | .filter => { c with filter := c.filter ++ more }
  | .should => { c with should := c.should ++ more }
  | .must => { c with must := c.must ++ more }
  | .mustNot => { c with mustNot := c.mustNot ++ more }

structure DisMax (α : Type) where
  queries : List α := []
  tieBreaker : Option Float := none
  boost : Option Float := none

inductive Modifier where
  | none
  | log
  | log1p
  | log2p
  | ln
  | ln1p
  | ln2p
  | square
  | sqrt
  | reciprocal
  deriving DecidableEq, Repr

def Modifier.text : Modifier → String
  | none => "none"
  | log => "log"
  | log1p => "log1p"
  | log2p => "log2p"
  | ln => "ln"
  | ln1p => "ln1p"
  | ln2p => "ln2p"
  | square => "square"
  | sqrt => "sqrt"
  | reciprocal => "reciprocal"

instance : Keyword Modifier :=
  ⟨[.none, .log, .log1p, .log2p, .ln, .ln1p, .ln2p, .square, .sqrt, .reciprocal], Modifier.text⟩

inductive Scoring where
  | weight (weight : Float)
  | fieldValue (field : String) (factor : Option Float) (modifier : Option Modifier)
      (missing : Option Float)
  | script (script : Script)
  | random (seed : Option Json) (field : Option String)
  deriving BEq, Inhabited

structure ScoreFunction (α : Type) where
  scoring : Scoring
  filter : Option α := none

inductive ScoreMode where
  | multiply
  | sum
  | avg
  | first
  | max
  | min
  deriving DecidableEq, Repr

def ScoreMode.text : ScoreMode → String
  | multiply => "multiply"
  | sum => "sum"
  | avg => "avg"
  | first => "first"
  | max => "max"
  | min => "min"

instance : Keyword ScoreMode := ⟨[.multiply, .sum, .avg, .first, .max, .min], ScoreMode.text⟩

inductive BoostMode where
  | multiply
  | replace
  | sum
  | avg
  | max
  | min
  deriving DecidableEq, Repr

def BoostMode.text : BoostMode → String
  | multiply => "multiply"
  | replace => "replace"
  | sum => "sum"
  | avg => "avg"
  | max => "max"
  | min => "min"

instance : Keyword BoostMode := ⟨[.multiply, .replace, .sum, .avg, .max, .min], BoostMode.text⟩

structure ScoreOptions where
  boost : Option Float := none
  scoreMode : Option ScoreMode := none
  boostMode : Option BoostMode := none
  minScore : Option Float := none
  deriving BEq, Inhabited

structure FunctionScore (α : Type) where
  query : Option α := none
  functions : List (ScoreFunction α) := []
  options : ScoreOptions := {}

inductive NestedScoreMode where
  | avg
  | max
  | min
  | none
  | sum
  deriving DecidableEq, Repr

def NestedScoreMode.text : NestedScoreMode → String
  | avg => "avg"
  | max => "max"
  | min => "min"
  | none => "none"
  | sum => "sum"

instance : Keyword NestedScoreMode := ⟨[.avg, .max, .min, .none, .sum], NestedScoreMode.text⟩

inductive Joining where
  | nested (path : String) (scoreMode : Option NestedScoreMode)
      (ignoreUnmapped : Option Bool) (boost : Option Float)
  | hasChild (type : String) (scoreMode : Option NestedScoreMode)
      (minChildren maxChildren : Option Nat) (boost : Option Float)
  | hasParent (type : String) (score : Option Bool) (boost : Option Float)
  deriving BEq, Inhabited

/-! ## Trees -/

/-- A label is told from others by its id; its name is for messages. -/
structure Label where
  id : Nat
  name : String
  deriving DecidableEq, Repr

inductive Query where
  | leaf (leaf : Leaf)
  | bool (label : Option Label) (clauses : BoolClauses Query)
  | disMax (label : Option Label) (alternatives : DisMax Query)
  | functionScore (label : Option Label) (scored : FunctionScore Query)
  | joining (joining : Joining) (inner : Query)
  | node (label : Label) (value : Query)

namespace Query

def matchAll : Query := leaf (.matchAll none)

instance : Inhabited Query := ⟨matchAll⟩

def children : Query → List Query
  | leaf _ => []
  | bool _ c => c.filter ++ c.should ++ c.must ++ c.mustNot
  | disMax _ d => d.queries
  | functionScore _ f => f.query.toList ++ f.functions.filterMap (·.filter)
  | joining _ inner => [inner]
  | node _ value => [value]

/-! ### Sizes

What is inside a query is smaller than the query, and so is all of it taken
together; a walk over a tree that keeps a list of what is left ends for that.
-/

noncomputable def totalSize : List Query → Nat
  | [] => 0
  | q :: qs => sizeOf q + totalSize qs

@[simp] theorem totalSize_append (qs rs : List Query) :
    totalSize (qs ++ rs) = totalSize qs + totalSize rs := by
  induction qs with
  | nil => simp [totalSize]
  | cons q qs ih =>
      simp only [List.cons_append, totalSize, ih]
      omega

@[simp] theorem totalSize_reverse (qs : List Query) : totalSize qs.reverse = totalSize qs := by
  induction qs with
  | nil => rfl
  | cons q qs ih =>
      simp only [List.reverse_cons, totalSize_append, totalSize, ih]
      omega

theorem totalSize_lt (qs : List Query) : totalSize qs < sizeOf qs := by
  induction qs with
  | nil => simp [totalSize]
  | cons q qs ih =>
      simp only [totalSize, List.cons.sizeOf_spec]
      omega

theorem totalSize_filters_lt (fs : List (ScoreFunction Query)) :
    totalSize (fs.filterMap (·.filter)) < sizeOf fs := by
  induction fs with
  | nil => simp [totalSize]
  | cons f fs ih =>
      obtain ⟨s, q⟩ := f
      cases q with
      | none =>
          change totalSize (fs.filterMap (·.filter)) < _
          rw [List.cons.sizeOf_spec]
          omega
      | some q =>
          change sizeOf q + totalSize (fs.filterMap (·.filter)) < _
          rw [List.cons.sizeOf_spec, ScoreFunction.mk.sizeOf_spec, Option.some.sizeOf_spec]
          omega

theorem totalSize_children_lt (q : Query) : totalSize q.children < sizeOf q := by
  cases q with
  | leaf l =>
      simp only [children, totalSize, leaf.sizeOf_spec]
      omega
  | bool l c =>
      obtain ⟨f, s, m, n, msm, b⟩ := c
      have hf := totalSize_lt f
      have hs := totalSize_lt s
      have hm := totalSize_lt m
      have hn := totalSize_lt n
      simp only [children, totalSize_append, bool.sizeOf_spec, BoolClauses.mk.sizeOf_spec]
      omega
  | disMax l d =>
      obtain ⟨qs, t, b⟩ := d
      have h := totalSize_lt qs
      simp only [children, disMax.sizeOf_spec, DisMax.mk.sizeOf_spec]
      omega
  | functionScore l s =>
      obtain ⟨q, fs, o⟩ := s
      have h := totalSize_filters_lt fs
      cases q <;>
        simp only [children, Option.toList_none, Option.toList_some, totalSize_append, totalSize,
          functionScore.sizeOf_spec, FunctionScore.mk.sizeOf_spec, Option.some.sizeOf_spec,
          Option.none.sizeOf_spec] <;>
        omega
  | joining j q =>
      simp only [children, totalSize, joining.sizeOf_spec]
      omega
  | node l q =>
      simp only [children, totalSize, node.sizeOf_spec]
      omega

/-! ## Equality

Labels count with their names; option values are compared as documents.
-/

mutual

def beq : Query → Query → Bool
  | leaf a, leaf b => a == b
  | bool l ⟨f, s, m, n, msm, b⟩, bool l' ⟨f', s', m', n', msm', b'⟩ =>
      l == l' && beqAll f f' && beqAll s s' && beqAll m m' && beqAll n n' && msm == msm' &&
        b == b'
  | disMax l ⟨qs, t, b⟩, disMax l' ⟨qs', t', b'⟩ =>
      l == l' && beqAll qs qs' && t == t' && b == b'
  | functionScore l ⟨q, fs, o⟩, functionScore l' ⟨q', fs', o'⟩ =>
      l == l' && beqOption q q' && beqFunctions fs fs' && o == o'
  | joining j q, joining j' q' => j == j' && beq q q'
  | node l q, node l' q' => l == l' && beq q q'
  | _, _ => false
termination_by structural q => q

def beqAll : List Query → List Query → Bool
  | [], [] => true
  | q :: qs, q' :: qs' => beq q q' && beqAll qs qs'
  | _, _ => false
termination_by structural qs => qs

def beqOption : Option Query → Option Query → Bool
  | none, none => true
  | some q, some q' => beq q q'
  | _, _ => false
termination_by structural q => q

def beqFunctions : List (ScoreFunction Query) → List (ScoreFunction Query) → Bool
  | [], [] => true
  | ⟨s, q⟩ :: rest, ⟨s', q'⟩ :: rest' => s == s' && beqOption q q' && beqFunctions rest rest'
  | _, _ => false
termination_by structural fs => fs

end

instance : BEq Query := ⟨beq⟩

end Query

end SearchClient
