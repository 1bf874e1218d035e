import SearchClient.Query.Node

/-!
# Shared trees

Trees share their parts.  Here every query of a tree is an object at an
address, and two queries are the same object when their addresses are equal,
whatever they hold.  Replacement makes a new object only where something
inside has changed, and tells a change by the address alone: a value that is
put in the place of an equal one is a change, too.
-/

namespace SearchClient

inductive SharedQuery where
  | leaf (address : Nat) (leaf : Leaf)
  | bool (address : Nat) (label : Option Label) (clauses : BoolClauses SharedQuery)
  | disMax (address : Nat) (label : Option Label) (alternatives : DisMax SharedQuery)
  | functionScore (address : Nat) (label : Option Label) (scored : FunctionScore SharedQuery)
  | joining (address : Nat) (joining : Joining) (inner : SharedQuery)
  | node (address : Nat) (label : Label) (value : SharedQuery)

structure SharedNode where
  handle : Handle
  value : handle.kind.Value SharedQuery

namespace SharedQuery

def address : SharedQuery → Nat
  | leaf a _ | bool a _ _ | disMax a _ _ | functionScore a _ _ | joining a _ _ | node a _ _ => a

/-- Whether two queries are one object. -/
def same (a b : SharedQuery) : Bool := a.address == b.address

def children : SharedQuery → List SharedQuery
  | leaf _ _ => []
  | bool _ _ c => c.filter ++ c.should ++ c.must ++ c.mustNot
  | disMax _ _ d => d.queries
  | functionScore _ _ f => f.query.toList ++ f.functions.filterMap (·.filter)
  | joining _ _ inner => [inner]
  | node _ _ value => [value]

def node? : SharedQuery → Option SharedNode
  | bool _ (some l) c => some ⟨⟨.bool, l⟩, c⟩
  | disMax _ (some l) d => some ⟨⟨.disMax, l⟩, d⟩
  | functionScore _ (some l) f => some ⟨⟨.functionScore, l⟩, f⟩
  | node _ l q => some ⟨⟨.query, l⟩, q⟩
  | _ => none

def carries (h : Handle) (t : SharedQuery) : Bool :=
  match t.node? with
  | some n => n.handle.same h
  | none => false

mutual

def toQuery : SharedQuery → Query
  | leaf _ l => .leaf l
  | bool _ l ⟨f, s, m, n, msm, b⟩ =>
      .bool l ⟨toQueries f, toQueries s, toQueries m, toQueries n, msm, b⟩
  | disMax _ l ⟨qs, t, b⟩ => .disMax l ⟨toQueries qs, t, b⟩
  | functionScore _ l ⟨q, fs, o⟩ => .functionScore l ⟨optionToQuery q, toFunctions fs, o⟩
  | joining _ j q => .joining j (toQuery q)
  | node _ l q => .node l (toQuery q)
termination_by structural t => t

def toQueries : List SharedQuery → List Query
  | [] => []
  | t :: ts => toQuery t :: toQueries ts
termination_by structural ts => ts

def optionToQuery : Option SharedQuery → Option Query
  | none => none
  | some t => some (toQuery t)
termination_by structural t => t

def toFunctions : List (ScoreFunction SharedQuery) → List (ScoreFunction Query)
  | [] => []
  | ⟨s, t⟩ :: rest => ⟨s, optionToQuery t⟩ :: toFunctions rest
termination_by structural fs => fs

end

mutual

def bound : SharedQuery → Nat
  | leaf a _ => a + 1
  | bool a _ ⟨f, s, m, n, _, _⟩ =>
      max (a + 1) (max (max (boundAll f) (boundAll s)) (max (boundAll m) (boundAll n)))
  | disMax a _ ⟨qs, _, _⟩ => max (a + 1) (boundAll qs)
  | functionScore a _ ⟨q, fs, _⟩ => max (a + 1) (max (boundOption q) (boundFunctions fs))
  | joining a _ t => max (a + 1) (bound t)
  | node a _ t => max (a + 1) (bound t)
termination_by structural t => t

def boundAll : List SharedQuery → Nat
  | [] => 0
  | t :: ts => max (bound t) (boundAll ts)
termination_by structural ts => ts

def boundOption : Option SharedQuery → Nat
  | none => 0
  | some t => bound t
termination_by structural t => t

def boundFunctions : List (ScoreFunction SharedQuery) → Nat
  | [] => 0
  | ⟨_, t⟩ :: rest => max (boundOption t) (boundFunctions rest)
termination_by structural fs => fs

end

/-! ## Building

Every query of the tree becomes an object of its own.  The count is the next
free address.
-/

mutual

def ofQuery : Query → Nat → SharedQuery × Nat
  | .leaf l, next => (leaf next l, next + 1)
  | .bool l ⟨f, s, m, n, msm, b⟩, next =>
      let (f, next) := ofQueries f next
      let (s, next) := ofQueries s next
      let (m, next) := ofQueries m next
      let (n, next) := ofQueries n next
      (bool next l ⟨f, s, m, n, msm, b⟩, next + 1)
  | .disMax l ⟨qs, t, b⟩, next =>
      let (qs, next) := ofQueries qs next
      (disMax next l ⟨qs, t, b⟩, next + 1)
  | .functionScore l ⟨q, fs, o⟩, next =>
      let (q, next) := ofOption q next
      let (fs, next) := ofFunctions fs next
      (functionScore next l ⟨q, fs, o⟩, next + 1)
  | .joining j q, next =>
      let (q, next) := ofQuery q next
      (joining next j q, next + 1)
  | .node l q, next =>
      let (q, next) := ofQuery q next
      (node next l q, next + 1)
termination_by structural q => q

def ofQueries : List Query → Nat → List SharedQuery × Nat
  | [], next => ([], next)
  | q :: qs, next =>
      let (t, next) := ofQuery q next
      let (ts, next) := ofQueries qs next
      (t :: ts, next)
termination_by structural qs => qs

def ofOption : Option Query → Nat → Option SharedQuery × Nat
  | none, next => (none, next)
  | some q, next =>
      let (t, next) := ofQuery q next
      (some t, next)
termination_by structural q => q

def ofFunctions : List (ScoreFunction Query) → Nat → List (ScoreFunction SharedQuery) × Nat
  | [], next => ([], next)
  | ⟨s, q⟩ :: rest, next =>
      let (t, next) := ofOption q next
      let (rest, next) := ofFunctions rest next
      (⟨s, t⟩ :: rest, next)
termination_by structural fs => fs

end

def changed? (old new : SharedQuery) : Option SharedQuery :=
  if new.same old then none else some new

def anyChanged? (old new : List SharedQuery) : Option (List SharedQuery) :=
  if (new.zip old).any fun (n, o) => !n.same o then some new else none

end SharedQuery

def SharedNode.at (address : Nat) : SharedNode → SharedQuery
  | ⟨⟨.query, l⟩, value⟩ => .node address l value
  | ⟨⟨.bool, l⟩, value⟩ => .bool address (some l) value
  | ⟨⟨.disMax, l⟩, value⟩ => .disMax address (some l) value
  | ⟨⟨.functionScore, l⟩, value⟩ => .functionScore address (some l) value

namespace SharedQuery

mutual

/--
The tree with a node in the place of every outermost occurrence of its handle,
new objects taking the addresses from a free one on.
-/
def replace (new : SharedNode) : SharedQuery → Nat → SharedQuery × Nat
  | leaf a l, next => (leaf a l, next)
  | bool a l ⟨f, s, m, n, msm, b⟩, next =>
      if carries new.handle (bool a l ⟨f, s, m, n, msm, b⟩) then (new.at next, next + 1)
      else
        let (f', next) := replaceAll new f next
        let (s', next) := replaceAll new s next
        let (m', next) := replaceAll new m next
        let (n', next) := replaceAll new n next
        match anyChanged? f f', anyChanged? s s', anyChanged? m m', anyChanged? n n' with
        | none, none, none, none => (bool a l ⟨f, s, m, n, msm, b⟩, next)
        | f', s', m', n' =>
            (bool next l ⟨f'.getD f, s'.getD s, m'.getD m, n'.getD n, msm, b⟩, next + 1)
  | disMax a l ⟨qs, t, b⟩, next =>
      if carries new.handle (disMax a l ⟨qs, t, b⟩) then (new.at next, next + 1)
      else
        let (qs', next) := replaceAll new qs next
        match anyChanged? qs qs' with
        | none => (disMax a l ⟨qs, t, b⟩, next)
        | some qs' => (disMax next l ⟨qs', t, b⟩, next + 1)
  | functionScore a l ⟨q, fs, o⟩, next =>
      if carries new.handle (functionScore a l ⟨q, fs, o⟩) then (new.at next, next + 1)
      else
        let (q', next) := replaceOption new q next
        let (fs', next) := replaceFunctions new fs next
        if q'.isNone && fs'.all (·.isNone) then (functionScore a l ⟨q, fs, o⟩, next)
        else
          (functionScore next l ⟨q'.or q, fs'.zipWith (·.getD ·) fs, o⟩, next + 1)
  | joining a j q, next =>
      let (q', next) := replace new q next
      match changed? q q' with
      | none => (joining a j q, next)
      | some q' => (joining next j q', next + 1)
  | node a l q, next =>
      if carries new.handle (node a l q) then (new.at next, next + 1)
      else
        let (q', next) := replace new q next
        match changed? q q' with
        | none => (node a l q, next)
        | some q' => (node next l q', next + 1)
termination_by structural t => t

def replaceAll (new : SharedNode) : List SharedQuery → Nat → List SharedQuery × Nat
  | [], next => ([], next)
  | t :: ts, next =>
      let (t', next) := replace new t next
      let (ts', next) := replaceAll new ts next
      (t' :: ts', next)
termination_by structural ts => ts

def replaceOption (new : SharedNode) :
    Option SharedQuery → Nat → Option SharedQuery × Nat
  | none, next => (none, next)
  | some t, next =>
      let (t', next) := replace new t next
      (changed? t t', next)
termination_by structural t => t

def replaceFunctions (new : SharedNode) :
    List (ScoreFunction SharedQuery) → Nat → List (Option (ScoreFunction SharedQuery)) × Nat
  | [], next => ([], next)
  | ⟨s, t⟩ :: rest, next =>
      let (t', next) := replaceOption new t next
      let (rest', next) := replaceFunctions new rest next
      (t'.map (fun t' => ⟨s, some t'⟩) :: rest', next)
termination_by structural fs => fs

end

def replaceFresh (new : Node) (q : Query) : Query × Bool :=
  let (t, next) := ofQuery q 0
  let (slot, next) := ofQuery new.toQuery next
  match slot.node? with
  | some new =>
      let (t', _) := replace new t next
      (t'.toQuery, !t'.same t)
  | none => (q, false)

end SharedQuery

end SearchClient
