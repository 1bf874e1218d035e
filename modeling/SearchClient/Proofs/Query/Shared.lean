import SearchClient.Proofs.Query.Substitution
import SearchClient.Query.Shared

/-!
# What shared trees say

A shared tree says the query it is without its addresses; its children, its
nodes and the occurrences in it are those of that query.  Every query has a
shared tree, all of whose objects lie below the next free address.
-/

namespace SearchClient

open Query (Occurs OccursAny)

def SharedNode.toNode : SharedNode → Node
  | ⟨⟨.query, l⟩, value⟩ => ⟨⟨.query, l⟩, value.toQuery⟩
  | ⟨⟨.bool, l⟩, value⟩ => ⟨⟨.bool, l⟩, BoolClauses.map SharedQuery.toQuery value⟩
  | ⟨⟨.disMax, l⟩, value⟩ => ⟨⟨.disMax, l⟩, DisMax.map SharedQuery.toQuery value⟩
  | ⟨⟨.functionScore, l⟩, value⟩ =>
      ⟨⟨.functionScore, l⟩, FunctionScore.map SharedQuery.toQuery value⟩

@[simp] theorem SharedNode.handle_toNode (n : SharedNode) : n.toNode.handle = n.handle := by
  obtain ⟨⟨kind, l⟩, value⟩ := n
  cases kind <;> rfl

namespace SharedQuery

theorem toQueries_eq_map (ts : List SharedQuery) : toQueries ts = ts.map toQuery := by
  induction ts with
  | nil => rfl
  | cons t ts ih => simp [toQueries, ih]

theorem optionToQuery_eq_map (t : Option SharedQuery) : optionToQuery t = t.map toQuery := by
  cases t <;> rfl

theorem toFunctions_eq_map (fs : List (ScoreFunction SharedQuery)) :
    toFunctions fs = fs.map (·.map toQuery) := by
  induction fs with
  | nil => rfl
  | cons f fs ih =>
      obtain ⟨s, t⟩ := f
      simp [toFunctions, optionToQuery_eq_map, ScoreFunction.map, ih]

@[simp] theorem toQuery_bool (a : Nat) (l : Option Label) (c : BoolClauses SharedQuery) :
    (bool a l c).toQuery = .bool l (c.map toQuery) := by
  simp only [toQuery, toQueries_eq_map, BoolClauses.map]

@[simp] theorem toQuery_disMax (a : Nat) (l : Option Label) (d : DisMax SharedQuery) :
    (disMax a l d).toQuery = .disMax l (d.map toQuery) := by
  simp only [toQuery, toQueries_eq_map, DisMax.map]

@[simp] theorem toQuery_functionScore (a : Nat) (l : Option Label)
    (s : FunctionScore SharedQuery) :
    (functionScore a l s).toQuery = .functionScore l (s.map toQuery) := by
  simp only [toQuery, optionToQuery_eq_map, toFunctions_eq_map, FunctionScore.map]

theorem children_toQuery (t : SharedQuery) : t.toQuery.children = t.children.map toQuery := by
  cases t with
  | functionScore a l s =>
      simp only [toQuery_functionScore, Query.children, children, FunctionScore.map,
        ScoreFunction.filterMap_map, List.map_append, Option.toList_map]
  | bool a l c => simp [Query.children, children, BoolClauses.map]
  | disMax a l d => simp [Query.children, children, DisMax.map]
  | leaf a l => rfl
  | joining a j t => rfl
  | node a l t => rfl

theorem node?_toQuery (t : SharedQuery) : t.toQuery.node? = t.node?.map SharedNode.toNode := by
  cases t with
  | leaf a l => rfl
  | joining a j t => rfl
  | node a l t => rfl
  | bool a l c => cases l <;> simp [Query.node?, node?, SharedNode.toNode]
  | disMax a l d => cases l <;> simp [Query.node?, node?, SharedNode.toNode]
  | functionScore a l s => cases l <;> simp [Query.node?, node?, SharedNode.toNode]

theorem carries_toQuery (t : SharedQuery) (h : Handle) : t.toQuery.carries h = t.carries h := by
  unfold Query.carries carries
  rw [node?_toQuery]
  cases t.node? <;> simp

theorem toQuery_at (n : SharedNode) (a : Nat) : (n.at a).toQuery = n.toNode.toQuery := by
  obtain ⟨⟨kind, l⟩, value⟩ := n
  cases kind with
  | query => rfl
  | bool => exact toQuery_bool a (some l) value
  | disMax => exact toQuery_disMax a (some l) value
  | functionScore => exact toQuery_functionScore a (some l) value

theorem address_at (n : SharedNode) (a : Nat) : (n.at a).address = a := by
  obtain ⟨⟨kind, l⟩, value⟩ := n
  cases kind <;> rfl

@[elab_as_elim]
theorem children_induction {motive : SharedQuery → Prop}
    (step : ∀ t : SharedQuery, (∀ c ∈ t.children, motive c) → motive t) (t : SharedQuery) :
    motive t :=
  step t fun c hc =>
    have : sizeOf c.toQuery < sizeOf t.toQuery := by
      apply Query.sizeOf_lt_of_mem_children
      rw [children_toQuery]
      exact List.mem_map_of_mem hc
    children_induction step c
termination_by sizeOf t.toQuery

theorem occurs_iff {h : Handle} {t : SharedQuery} :
    t.toQuery.Occurs h ↔ t.carries h = true ∨ OccursAny h (t.children.map toQuery) := by
  rw [Query.occurs_iff_children, carries_toQuery, children_toQuery]

/-- All objects of a tree lie below an address. -/
inductive Below (next : Nat) : SharedQuery → Prop where
  | intro {t : SharedQuery} (root : t.address < next)
      (children : ∀ c ∈ t.children, Below next c) : Below next t

theorem Below.root {next : Nat} {t : SharedQuery} (h : Below next t) : t.address < next := by
  cases h
  assumption

theorem Below.child {next : Nat} {t c : SharedQuery} (h : Below next t) (hc : c ∈ t.children) :
    Below next c := by
  cases h with
  | intro root children => exact children c hc

theorem Below.mono {next next' : Nat} {t : SharedQuery} (hle : next ≤ next') (h : Below next t) :
    Below next' t := by
  induction h with
  | intro root children ih => exact .intro (Nat.lt_of_lt_of_le root hle) ih

theorem Below.of_children {next : Nat} {t : SharedQuery} (haddress : t.address = next)
    (hchildren : ∀ c ∈ t.children, c.Below next) : t.Below (next + 1) :=
  .intro (by omega) fun c hc => (hchildren c hc).mono (Nat.le_succ next)

theorem address_lt_bound (t : SharedQuery) : t.address < t.bound := by
  cases t <;> simp only [address, bound] <;> omega

theorem bound_le_boundAll {ts : List SharedQuery} {t : SharedQuery} (h : t ∈ ts) :
    t.bound ≤ boundAll ts := by
  induction ts with
  | nil => cases h
  | cons u us ih =>
      rw [boundAll]
      rcases List.mem_cons.mp h with rfl | h
      · exact Nat.le_max_left _ _
      · exact Nat.le_trans (ih h) (Nat.le_max_right _ _)

theorem bound_le_boundFunctions {fs : List (ScoreFunction SharedQuery)} {t : SharedQuery}
    (h : t ∈ fs.filterMap (·.filter)) : t.bound ≤ boundFunctions fs := by
  induction fs with
  | nil => cases h
  | cons f fs ih =>
      obtain ⟨s, u⟩ := f
      rw [ScoreFunction.filterMap_cons, List.mem_append, Option.mem_toList] at h
      rw [boundFunctions]
      rcases h with rfl | h
      · exact Nat.le_max_left _ _
      · exact Nat.le_trans (ih h) (Nat.le_max_right _ _)

theorem bound_le_of_mem_children {t c : SharedQuery} (h : c ∈ t.children) : c.bound ≤ t.bound := by
  cases t with
  | leaf a l => cases h
  | bool a l cs =>
      simp only [children, List.mem_append] at h
      simp only [bound]
      rcases h with ((h | h) | h) | h
      all_goals
        have := bound_le_boundAll h
        omega
  | disMax a l d =>
      have := bound_le_boundAll (show c ∈ d.queries from h)
      simp only [bound]
      omega
  | functionScore a l s =>
      obtain ⟨q, fs, o⟩ := s
      simp only [children, List.mem_append, Option.mem_toList] at h
      simp only [bound]
      rcases h with rfl | h
      · simp only [boundOption]
        omega
      · have := bound_le_boundFunctions h
        omega
  | joining a j u =>
      rw [List.mem_singleton.mp h, bound]
      omega
  | node a l u =>
      rw [List.mem_singleton.mp h, bound]
      omega

theorem below_bound (t : SharedQuery) : t.Below t.bound := by
  induction t using children_induction with
  | step t ih =>
      exact .intro t.address_lt_bound fun c hc => (ih c hc).mono (bound_le_of_mem_children hc)

theorem below_boundAll {ts : List SharedQuery} : ∀ t ∈ ts, t.Below (boundAll ts) := fun t h =>
  t.below_bound.mono (bound_le_boundAll h)

/-! ## Building -/

/-- A query laid out as objects from an address on, and the next address that is free. -/
structure Allocates (q : Query) (next : Nat) (r : SharedQuery × Nat) : Prop where
  le : next ≤ r.2
  content : r.1.toQuery = q
  below : r.1.Below r.2

structure AllocatesAll (qs : List Query) (next : Nat) (r : List SharedQuery × Nat) : Prop where
  le : next ≤ r.2
  content : r.1.map toQuery = qs
  below : ∀ t ∈ r.1, t.Below r.2

theorem allocates_ofQueries {qs : List Query}
    (ih : ∀ q ∈ qs, ∀ next, Allocates q next (ofQuery q next)) (next : Nat) :
    AllocatesAll qs next (ofQueries qs next) := by
  induction qs generalizing next with
  | nil => exact ⟨Nat.le_refl _, rfl, by simp [ofQueries]⟩
  | cons q qs ihqs =>
      have hq := ih q List.mem_cons_self next
      have hqs := ihqs (fun q h => ih q (List.mem_cons_of_mem _ h)) (ofQuery q next).2
      rw [ofQueries]
      refine ⟨Nat.le_trans hq.le hqs.le, ?_, ?_⟩
      · simp only [List.map_cons, hq.content, hqs.content]
      · intro t ht
        rcases List.mem_cons.mp ht with rfl | ht
        · exact hq.below.mono hqs.le
        · exact hqs.below t ht

theorem AllocatesAll.append {qs rs : List Query} {next : Nat} {r r' : List SharedQuery × Nat}
    (h : AllocatesAll qs next r) (h' : AllocatesAll rs r.2 r') :
    AllocatesAll (qs ++ rs) next (r.1 ++ r'.1, r'.2) := by
  refine ⟨Nat.le_trans h.le h'.le, ?_, ?_⟩
  · simp only [List.map_append, h.content, h'.content]
  · intro t ht
    rcases List.mem_append.mp ht with ht | ht
    · exact (h.below t ht).mono h'.le
    · exact h'.below t ht

structure AllocatesOption (q : Option Query) (next : Nat) (r : Option SharedQuery × Nat) :
    Prop where
  le : next ≤ r.2
  content : r.1.map toQuery = q
  below : ∀ t ∈ r.1.toList, t.Below r.2

theorem allocates_ofOption {q : Option Query}
    (ih : ∀ c ∈ q.toList, ∀ next, Allocates c next (ofQuery c next)) (next : Nat) :
    AllocatesOption q next (ofOption q next) := by
  cases q with
  | none => exact ⟨Nat.le_refl _, rfl, by simp [ofOption]⟩
  | some q =>
      have hq := ih q (by simp) next
      exact ⟨hq.le, congrArg some hq.content, by simpa [ofOption] using hq.below⟩

structure AllocatesFunctions (fs : List (ScoreFunction Query)) (next : Nat)
    (r : List (ScoreFunction SharedQuery) × Nat) : Prop where
  le : next ≤ r.2
  content : r.1.map (·.map toQuery) = fs
  below : ∀ t ∈ r.1.filterMap (·.filter), t.Below r.2

theorem allocates_ofFunctions {fs : List (ScoreFunction Query)}
    (ih : ∀ c ∈ fs.filterMap (·.filter), ∀ next, Allocates c next (ofQuery c next)) (next : Nat) :
    AllocatesFunctions fs next (ofFunctions fs next) := by
  induction fs generalizing next with
  | nil => exact ⟨Nat.le_refl _, rfl, by simp [ofFunctions]⟩
  | cons f fs ihfs =>
      obtain ⟨s, q⟩ := f
      rw [ScoreFunction.filterMap_cons] at ih
      have hq := allocates_ofOption (fun c h => ih c (List.mem_append_left _ h)) next
      have hfs := ihfs (fun c h => ih c (List.mem_append_right _ h)) (ofOption q next).2
      rw [ofFunctions]
      refine ⟨Nat.le_trans hq.le hfs.le, ?_, ?_⟩
      · simp only [List.map_cons, hfs.content]
        simp only [ScoreFunction.map, hq.content]
      · rw [ScoreFunction.filterMap_cons]
        intro t ht
        rcases List.mem_append.mp ht with ht | ht
        · exact (hq.below t ht).mono hfs.le
        · exact hfs.below t ht

theorem allocates_ofQuery (q : Query) (next : Nat) : Allocates q next (ofQuery q next) := by
  induction q using Query.children_induction generalizing next with
  | step q ih =>
      cases q with
      | leaf l => exact ⟨Nat.le_succ _, rfl, .of_children rfl (fun c hc => nomatch hc)⟩
      | bool l c =>
          obtain ⟨f, s, m, n, msm, b⟩ := c
          simp only [Query.children, List.mem_append] at ih
          have hf := allocates_ofQueries (fun c (h : c ∈ f) => ih c (by simp [h])) next
          have hs := allocates_ofQueries (fun c (h : c ∈ s) => ih c (by simp [h]))
            (ofQueries f next).2
          have hm := allocates_ofQueries (fun c (h : c ∈ m) => ih c (by simp [h]))
            (ofQueries s (ofQueries f next).2).2
          have hn := allocates_ofQueries (fun c (h : c ∈ n) => ih c (by simp [h]))
            (ofQueries m (ofQueries s (ofQueries f next).2).2).2
          have hall := ((hf.append hs).append hm).append hn
          rw [ofQuery]
          refine ⟨Nat.le_succ_of_le hall.le, ?_, .of_children rfl hall.below⟩
          simp [BoolClauses.map, hf.content, hs.content, hm.content, hn.content]
      | disMax l d =>
          obtain ⟨qs, t, b⟩ := d
          have hqs : AllocatesAll qs next (ofQueries qs next) := allocates_ofQueries ih next
          rw [ofQuery]
          refine ⟨Nat.le_succ_of_le hqs.le, ?_, .of_children rfl hqs.below⟩
          simp [DisMax.map, hqs.content]
      | functionScore l s =>
          obtain ⟨q, fs, o⟩ := s
          simp only [Query.children, List.mem_append] at ih
          have hq := allocates_ofOption (fun c h => ih c (.inl h)) next
          have hfs := allocates_ofFunctions (fun c h => ih c (.inr h)) (ofOption q next).2
          rw [ofQuery]
          refine ⟨Nat.le_succ_of_le (Nat.le_trans hq.le hfs.le), ?_, .of_children rfl ?_⟩
          · simp only [toQuery_functionScore, FunctionScore.map, hq.content, hfs.content]
          · intro t ht
            rcases List.mem_append.mp ht with ht | ht
            · exact (hq.below t ht).mono hfs.le
            · exact hfs.below t ht
      | joining j q =>
          have hq := ih q (by simp [Query.children]) next
          rw [ofQuery]
          refine ⟨Nat.le_succ_of_le hq.le, ?_, .of_children rfl ?_⟩
          · simp [toQuery, hq.content]
          · simp [children, hq.below]
      | node l q =>
          have hq := ih q (by simp [Query.children]) next
          rw [ofQuery]
          refine ⟨Nat.le_succ_of_le hq.le, ?_, .of_children rfl ?_⟩
          · simp [toQuery, hq.content]
          · simp [children, hq.below]

end SharedQuery

end SearchClient
