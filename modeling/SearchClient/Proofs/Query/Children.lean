import SearchClient.Query.Node

/-!
# Trees by their children

A recursion over query trees goes through lists of clauses, an optional query
and the filters of functions.  Here all of these are told by the children of a
query alone: a property that passes from the children to the query holds of
every tree, and a function on the children acts on the query around them.
-/

namespace SearchClient

variable {α β : Type}

def BoolClauses.map (f : α → β) (c : BoolClauses α) : BoolClauses β :=
  ⟨c.filter.map f, c.should.map f, c.must.map f, c.mustNot.map f, c.minimumShouldMatch, c.boost⟩

def DisMax.map (f : α → β) (d : DisMax α) : DisMax β :=
  ⟨d.queries.map f, d.tieBreaker, d.boost⟩

def ScoreFunction.map (f : α → β) (s : ScoreFunction α) : ScoreFunction β :=
  ⟨s.scoring, s.filter.map f⟩

def FunctionScore.map (f : α → β) (s : FunctionScore α) : FunctionScore β :=
  ⟨s.query.map f, s.functions.map (·.map f), s.options⟩

theorem ScoreFunction.filterMap_cons (s : Scoring) (x : Option α) (fs : List (ScoreFunction α)) :
    (⟨s, x⟩ :: fs : List (ScoreFunction α)).filterMap (·.filter) =
      x.toList ++ fs.filterMap (·.filter) := by
  cases x <;> rfl

theorem ScoreFunction.filterMap_map (f : α → β) (fs : List (ScoreFunction α)) :
    (fs.map (·.map f)).filterMap (·.filter) = (fs.filterMap (·.filter)).map f := by
  rw [List.filterMap_map, List.map_filterMap]
  rfl

namespace Query

theorem sizeOf_lt_of_mem_children {c q : Query} (hc : c ∈ q.children) : sizeOf c < sizeOf q := by
  obtain ⟨before, after, hsplit⟩ := List.append_of_mem hc
  have hlt := q.totalSize_children_lt
  rw [hsplit, totalSize_append, totalSize] at hlt
  omega

@[elab_as_elim]
theorem children_induction {motive : Query → Prop}
    (step : ∀ q : Query, (∀ c ∈ q.children, motive c) → motive q) (q : Query) : motive q :=
  step q fun c hc =>
    have := sizeOf_lt_of_mem_children hc
    children_induction step c
termination_by sizeOf q

def mapChildren (f : Query → Query) : Query → Query
  | leaf l => leaf l
  | bool l c => bool l (c.map f)
  | disMax l d => disMax l (d.map f)
  | functionScore l s => functionScore l (s.map f)
  | joining j q => joining j (f q)
  | node l q => node l (f q)

@[simp] theorem children_mapChildren (f : Query → Query) (q : Query) :
    (q.mapChildren f).children = q.children.map f := by
  cases q with
  | functionScore l s =>
      simp only [mapChildren, children, FunctionScore.map, ScoreFunction.filterMap_map,
        List.map_append, Option.toList_map]
  | _ => simp [mapChildren, children, BoolClauses.map, DisMax.map]

theorem mapChildren_congr {f g : Query → Query} {q : Query}
    (h : ∀ c ∈ q.children, f c = g c) : q.mapChildren f = q.mapChildren g := by
  cases q with
  | leaf l => rfl
  | bool l c =>
      simp only [children, List.mem_append] at h
      simp only [mapChildren, BoolClauses.map]
      congr 2 <;> exact List.map_congr_left fun c hc => h c (by simp [hc])
  | disMax l d =>
      simp only [mapChildren, DisMax.map]
      congr 2
      exact List.map_congr_left h
  | functionScore l s =>
      simp only [children, List.mem_append, Option.mem_toList, List.mem_filterMap] at h
      simp only [mapChildren, FunctionScore.map]
      congr 2
      · exact Option.map_congr fun c hc => h c (.inl hc)
      · refine List.map_congr_left fun s hs => ?_
        simp only [ScoreFunction.map]
        congr 1
        exact Option.map_congr fun c hc => h c (.inr ⟨s, hs, hc⟩)
  | joining j q => simp only [mapChildren, h q (by simp [children])]
  | node l q => simp only [mapChildren, h q (by simp [children])]

theorem mapChildren_id (q : Query) : q.mapChildren id = q := by
  have hfilter : ∀ s : ScoreFunction Query, s.map id = s := fun s => by
    simp [ScoreFunction.map]
  cases q <;>
    simp [mapChildren, BoolClauses.map, DisMax.map, FunctionScore.map, hfilter]

theorem mapChildren_eq_self {f : Query → Query} {q : Query} (h : ∀ c ∈ q.children, f c = c) :
    q.mapChildren f = q :=
  (mapChildren_congr h).trans q.mapChildren_id

theorem mapChildren_mapChildren (f g : Query → Query) (q : Query) :
    (q.mapChildren f).mapChildren g = q.mapChildren (g ∘ f) := by
  have hfilter : ∀ s : ScoreFunction Query, (s.map f).map g = s.map (g ∘ f) := fun s => by
    simp [ScoreFunction.map]
  cases q <;>
    simp [mapChildren, BoolClauses.map, DisMax.map, FunctionScore.map, hfilter]

theorem nodesAll_eq_flatMap (qs : List Query) : nodesAll qs = qs.flatMap nodes := by
  induction qs with
  | nil => rfl
  | cons q qs ih => simp [nodesAll, ih]

theorem nodesAll_append (qs rs : List Query) :
    nodesAll (qs ++ rs) = nodesAll qs ++ nodesAll rs := by
  simp only [nodesAll_eq_flatMap, List.flatMap_append]

theorem nodesOption_eq_flatMap (q : Option Query) : nodesOption q = q.toList.flatMap nodes := by
  cases q <;> simp [nodesOption]

theorem nodesFunctions_eq_flatMap (fs : List (ScoreFunction Query)) :
    nodesFunctions fs = (fs.filterMap (·.filter)).flatMap nodes := by
  induction fs with
  | nil => rfl
  | cons f fs ih =>
      obtain ⟨s, q⟩ := f
      rw [ScoreFunction.filterMap_cons, List.flatMap_append, ← ih, ← nodesOption_eq_flatMap]
      rfl

theorem nodes_eq (q : Query) : q.nodes = q.node?.toList ++ q.children.flatMap nodes := by
  cases q with
  | leaf l => rfl
  | bool l c => simp [nodes, children, nodesAll_eq_flatMap]
  | disMax l d => simp [nodes, children, nodesAll_eq_flatMap]
  | functionScore l s =>
      simp [nodes, children, nodesOption_eq_flatMap, nodesFunctions_eq_flatMap]
  | joining j q => simp [nodes, children, node?]
  | node l q => simp [nodes, children, node?]

theorem mem_nodes_iff {q : Query} {n : Node} :
    n ∈ q.nodes ↔ q.node? = some n ∨ ∃ c ∈ q.children, n ∈ c.nodes := by
  rw [nodes_eq, List.mem_append, Option.mem_toList, List.mem_flatMap]

theorem toQuery_of_node? {q : Query} {n : Node} (h : q.node? = some n) : n.toQuery = q := by
  cases q with
  | leaf l => cases h
  | joining j q => cases h
  | node l q => cases h; rfl
  | bool l c => cases l <;> cases h; rfl
  | disMax l d => cases l <;> cases h; rfl
  | functionScore l s => cases l <;> cases h; rfl

@[simp] theorem node?_toQuery (n : Node) : n.toQuery.node? = some n := by
  obtain ⟨⟨kind, l⟩, value⟩ := n
  cases kind <;> rfl

@[simp] theorem carries_toQuery (n : Node) (h : Handle) :
    n.toQuery.carries h = n.handle.same h := by
  simp [carries]

theorem carries_iff {q : Query} {h : Handle} :
    q.carries h = true ↔ ∃ n, q.node? = some n ∧ n.handle.same h = true := by
  unfold carries
  cases q.node? <;> simp

end Query

end SearchClient
