import SearchClient.Error
import SearchClient.Query.Basic

/-!
# Labelled nodes

A handle is a label together with the kind of query it may carry.  A tree in
which no handle occurs twice has an index of its nodes; a node can be found
there and replaced in the tree.  Replacement tells whether it changed
anything, so untouched parts of a tree are kept as they are.
-/

namespace SearchClient

inductive NodeKind where
  | query
  | bool
  | disMax
  | functionScore
  deriving DecidableEq, Repr

def NodeKind.text : NodeKind → String
  | query => "query"
  | bool => "bool"
  | disMax => "dis_max"
  | functionScore => "function_score"

instance : Keyword NodeKind := ⟨[.query, .bool, .disMax, .functionScore], NodeKind.text⟩

def NodeKind.Value (α : Type) : NodeKind → Type
  | query => α
  | bool => BoolClauses α
  | disMax => DisMax α
  | functionScore => FunctionScore α

structure Handle where
  kind : NodeKind
  label : Label
  deriving DecidableEq, Repr

namespace Handle

def name (h : Handle) : String := h.label.name

/-- Handles are the same when their ids are, whatever their names. -/
def same (a b : Handle) : Bool := a.label.id == b.label.id

theorem same_iff (a b : Handle) : a.same b = true ↔ a.label.id = b.label.id := by
  simp [same]

end Handle

structure Node where
  handle : Handle
  value : handle.kind.Value Query

namespace Node

def label (l : Label) : (kind : NodeKind) → kind.Value Query → Query
  | .query, value => .node l value
  | .bool, value => .bool (some l) value
  | .disMax, value => .disMax (some l) value
  | .functionScore, value => .functionScore (some l) value

def ofQuery? (h : Handle) (q : Query) : Option Node :=
  match h, q with
  | ⟨.query, l⟩, q => some ⟨⟨.query, l⟩, q⟩
  | ⟨.bool, l⟩, .bool _ c => some ⟨⟨.bool, l⟩, c⟩
  | ⟨.disMax, l⟩, .disMax _ d => some ⟨⟨.disMax, l⟩, d⟩
  | ⟨.functionScore, l⟩, .functionScore _ f => some ⟨⟨.functionScore, l⟩, f⟩
  | _, _ => none

def toQuery (n : Node) : Query := label n.handle.label n.handle.kind n.value

def plain : (kind : NodeKind) → kind.Value Query → Query
  | .query, value => value
  | .bool, value => .bool none value
  | .disMax, value => .disMax none value
  | .functionScore, value => .functionScore none value

def valueQuery (n : Node) : Query := plain n.handle.kind n.value

end Node

namespace Query

def node? : Query → Option Node
  | bool (some l) c => some ⟨⟨.bool, l⟩, c⟩
  | disMax (some l) d => some ⟨⟨.disMax, l⟩, d⟩
  | functionScore (some l) f => some ⟨⟨.functionScore, l⟩, f⟩
  | node l q => some ⟨⟨.query, l⟩, q⟩
  | _ => none

def carries (h : Handle) (q : Query) : Bool :=
  match q.node? with
  | some n => n.handle.same h
  | none => false

mutual

def nodes : Query → List Node
  | leaf _ => []
  | bool l ⟨f, s, m, n, msm, b⟩ =>
      (node? (bool l ⟨f, s, m, n, msm, b⟩)).toList ++
        (nodesAll f ++ nodesAll s ++ nodesAll m ++ nodesAll n)
  | disMax l ⟨qs, t, b⟩ => (node? (disMax l ⟨qs, t, b⟩)).toList ++ nodesAll qs
  | functionScore l ⟨q, fs, o⟩ =>
      (node? (functionScore l ⟨q, fs, o⟩)).toList ++ (nodesOption q ++ nodesFunctions fs)
  | joining _ q => nodes q
  | node l q => ⟨⟨.query, l⟩, q⟩ :: nodes q
termination_by structural q => q

def nodesAll : List Query → List Node
  | [] => []
  | q :: qs => nodes q ++ nodesAll qs
termination_by structural qs => qs

def nodesOption : Option Query → List Node
  | none => []
  | some q => nodes q
termination_by structural q => q

def nodesFunctions : List (ScoreFunction Query) → List Node
  | [] => []
  | ⟨_, q⟩ :: rest => nodesOption q ++ nodesFunctions rest
termination_by structural fs => fs

end

end Query

structure NodeIndex where
  nodes : List Node := []

namespace NodeIndex

def size (index : NodeIndex) : Nat := index.nodes.length

def isEmpty (index : NodeIndex) : Bool := index.nodes.isEmpty

def get? (index : NodeIndex) (h : Handle) : Option Node :=
  index.nodes.find? fun n => n.handle.same h

def contains (index : NodeIndex) (h : Handle) : Bool := (index.get? h).isSome

def insert (index : NodeIndex) (n : Node) : Except Error NodeIndex :=
  if index.contains n.handle then .error (.duplicateHandle n.handle.name)
  else .ok ⟨index.nodes ++ [n]⟩

def enter (index : NodeIndex) (q : Query) : Except Error NodeIndex :=
  match q.node? with
  | some n => index.insert n
  | none => .ok index

/--
Enters the queries on a stack, the last one first, each before the queries
inside it.
-/
def visit (stack : Array Query) (index : NodeIndex) : Except Error NodeIndex :=
  match _ : stack.back? with
  | none => .ok index
  | some q => do
      let index ← index.enter q
      visit (stack.pop ++ q.children.reverse) index
termination_by Query.totalSize stack.toList
decreasing_by
  obtain ⟨rest, rfl⟩ := Array.back?_eq_some_iff.mp ‹stack.back? = some q›
  have inside := q.totalSize_children_lt
  simp only [Array.pop_push, Array.toList_push, Array.toList_appendList, Query.totalSize_append,
    Query.totalSize_reverse, Query.totalSize]
  omega

/-- The index of some trees, in which no handle may occur twice. -/
def collect (roots : List Query) : Except Error NodeIndex :=
  visit roots.reverse.toArray {}

def find (index : NodeIndex) (h : Handle) : Except Error Node :=
  match index.get? h with
  | some n =>
      if same : n.handle.kind = h.kind then .ok ⟨h, same ▸ n.value⟩
      else .error (.handleNotFound h.name)
  | none => .error (.handleNotFound h.name)

end NodeIndex

namespace Query

mutual

/--
The tree with a node in the place of every outermost occurrence of its handle,
or none when the handle does not occur.
-/
def replace? (new : Node) : Query → Option Query
  | leaf _ => none
  | bool l ⟨f, s, m, n, msm, b⟩ =>
      if carries new.handle (bool l ⟨f, s, m, n, msm, b⟩) then some new.toQuery
      else
        match replaceAll? new f, replaceAll? new s, replaceAll? new m, replaceAll? new n with
        | none, none, none, none => none
        | f', s', m', n' =>
            some (bool l ⟨f'.getD f, s'.getD s, m'.getD m, n'.getD n, msm, b⟩)
  | disMax l ⟨qs, t, b⟩ =>
      if carries new.handle (disMax l ⟨qs, t, b⟩) then some new.toQuery
      else (replaceAll? new qs).map fun qs' => disMax l ⟨qs', t, b⟩
  | functionScore l ⟨q, fs, o⟩ =>
      if carries new.handle (functionScore l ⟨q, fs, o⟩) then some new.toQuery
      else
        match replaceOption? new q, replaceFunctions? new fs with
        | none, none => none
        | q', fs' => some (functionScore l ⟨q'.or q, fs'.getD fs, o⟩)
  | joining j q => (replace? new q).map (joining j)
  | node l q =>
      if carries new.handle (node l q) then some new.toQuery
      else (replace? new q).map (node l)
termination_by structural q => q

def replaceAll? (new : Node) : List Query → Option (List Query)
  | [] => none
  | q :: qs =>
      match replace? new q, replaceAll? new qs with
      | none, none => none
      | q', qs' => some (q'.getD q :: qs'.getD qs)
termination_by structural qs => qs

def replaceOption? (new : Node) : Option Query → Option Query
  | none => none
  | some q => replace? new q
termination_by structural q => q

def replaceFunctions? (new : Node) :
    List (ScoreFunction Query) → Option (List (ScoreFunction Query))
  | [] => none
  | ⟨s, q⟩ :: rest =>
      match replaceOption? new q, replaceFunctions? new rest with
      | none, none => none
      | q', rest' => some (⟨s, q'.or q⟩ :: rest'.getD rest)
termination_by structural fs => fs

end

def replace (new : Node) (q : Query) : Query := (replace? new q).getD q

def findNode (q : Query) (h : Handle) : Except Error Node := do
  (← NodeIndex.collect [q]).find h

def replaceNode (q : Query) (new : Node) : Except Error Query := do
  let index ← NodeIndex.collect [q]
  if index.contains new.handle then .ok (q.replace new)
  else .error (.handleNotFound new.handle.name)

end Query

end SearchClient
