import Mathlib.Data.List.Basic
import SearchClient.Proofs.Query.NormalForm
import SearchClient.Query.Document

/-!
# Trees without nodes

Erasure puts the plain query in the place of every node of a tree.  A tree and
its erasure have the same name, are written alike and reduce alike, so nothing
that is sent tells where the nodes of a query were.
-/

namespace SearchClient.Query

open Json (field objectUnder)

mutual

/-- The tree with the plain query of its value for every node, at every depth. -/
def erase : Query → Query
  | leaf l => leaf l
  | bool _ ⟨f, s, m, n, msm, b⟩ =>
      bool none ⟨eraseAll f, eraseAll s, eraseAll m, eraseAll n, msm, b⟩
  | disMax _ ⟨qs, t, b⟩ => disMax none ⟨eraseAll qs, t, b⟩
  | functionScore _ ⟨q, fs, o⟩ => functionScore none ⟨eraseOption q, eraseFunctions fs, o⟩
  | joining j q => joining j (erase q)
  | node _ q => erase q
termination_by structural q => q

def eraseAll : List Query → List Query
  | [] => []
  | q :: qs => erase q :: eraseAll qs
termination_by structural qs => qs

def eraseOption : Option Query → Option Query
  | none => none
  | some q => some (erase q)
termination_by structural q => q

def eraseFunctions : List (ScoreFunction Query) → List (ScoreFunction Query)
  | [] => []
  | ⟨s, q⟩ :: rest => ⟨s, eraseOption q⟩ :: eraseFunctions rest
termination_by structural fs => fs

end

theorem eraseAll_eq_map (qs : List Query) : eraseAll qs = qs.map erase := by
  induction qs with
  | nil => rfl
  | cons q qs ih => simp [eraseAll, ih]

theorem eraseOption_eq_map (q : Option Query) : eraseOption q = q.map erase := by
  cases q <;> rfl

theorem eraseFunctions_eq_map (fs : List (ScoreFunction Query)) :
    eraseFunctions fs = fs.map (·.map erase) := by
  induction fs with
  | nil => rfl
  | cons f fs ih =>
      obtain ⟨s, q⟩ := f
      simp [eraseFunctions, eraseOption_eq_map, ScoreFunction.map, ih]

@[simp] theorem erase_bool (l : Option Label) (c : BoolClauses Query) :
    (bool l c).erase = bool none (c.map erase) := by
  simp only [erase, eraseAll_eq_map, BoolClauses.map]

@[simp] theorem erase_disMax (l : Option Label) (d : DisMax Query) :
    (disMax l d).erase = disMax none (d.map erase) := by
  simp only [erase, eraseAll_eq_map, DisMax.map]

@[simp] theorem erase_functionScore (l : Option Label) (s : FunctionScore Query) :
    (functionScore l s).erase = functionScore none (s.map erase) := by
  simp only [erase, eraseOption_eq_map, eraseFunctions_eq_map, FunctionScore.map]

theorem erase_of_node? {q : Query} {n : Node} (h : q.node? = some n) :
    q.erase = n.valueQuery.erase := by
  cases q with
  | leaf l => cases h
  | joining j q => cases h
  | node l q => cases h; rfl
  | bool l c => cases l <;> cases h; rfl
  | disMax l d => cases l <;> cases h; rfl
  | functionScore l s => cases l <;> cases h; rfl

theorem erase_of_node?_eq_none {q : Query} (h : q.node? = none) :
    q.erase = q.mapChildren erase := by
  cases q with
  | leaf l => rfl
  | joining j q => rfl
  | node l q => cases h
  | bool l c =>
      cases l with
      | none => exact erase_bool none c
      | some l => cases h
  | disMax l d =>
      cases l with
      | none => exact erase_disMax none d
      | some l => cases h
  | functionScore l s =>
      cases l with
      | none => exact erase_functionScore none s
      | some l => cases h

theorem nodes_erase (q : Query) : q.erase.nodes = [] := by
  induction q using children_induction with
  | step q ih =>
      have hinside : (q.mapChildren erase).children.flatMap nodes = [] := by
        rw [children_mapChildren, List.flatMap_map]
        exact List.flatMap_eq_nil_iff.mpr ih
      cases q with
      | leaf l => rfl
      | joining j q => exact ih q (by simp [children])
      | node l q => exact ih q (by simp [children])
      | bool l c =>
          rw [erase_bool, nodes_eq]
          exact hinside
      | disMax l d =>
          rw [erase_disMax, nodes_eq]
          exact hinside
      | functionScore l s =>
          rw [erase_functionScore, nodes_eq]
          exact hinside

variable {φ : Features}

theorem documents_map {f : Query → Query} {qs : List Query}
    (h : ∀ c ∈ qs, (f c).fields φ = c.fields φ) : documents φ (qs.map f) = documents φ qs := by
  rw [documents_eq_map, documents_eq_map, List.map_map]
  exact List.map_congr_left fun c hc => congrArg Json.object (h c hc)

theorem optionDocument_map {f : Query → Query} {q : Option Query}
    (h : ∀ c ∈ q.toList, (f c).fields φ = c.fields φ) :
    optionDocument φ (q.map f) = optionDocument φ q := by
  cases q with
  | none => rfl
  | some q => exact congrArg (some <| Json.object ·) (h q (by simp))

theorem functionDocuments_map {f : Query → Query} {fs : List (ScoreFunction Query)}
    (h : ∀ c ∈ fs.filterMap (·.filter), (f c).fields φ = c.fields φ) :
    functionDocuments φ (fs.map (·.map f)) = functionDocuments φ fs := by
  induction fs with
  | nil => rfl
  | cons s fs ih =>
      obtain ⟨s, q⟩ := s
      rw [ScoreFunction.filterMap_cons] at h
      have hq := optionDocument_map fun c hc => h c (List.mem_append_left _ hc)
      have hfs := ih fun c hc => h c (List.mem_append_right _ hc)
      rw [List.map_cons, ScoreFunction.map, functionDocuments, functionDocuments, hq, hfs]

theorem fields_mapChildren {f : Query → Query} {q : Query}
    (h : ∀ c ∈ q.children, (f c).fields φ = c.fields φ) :
    (q.mapChildren f).fields φ = q.fields φ := by
  cases q with
  | leaf l => rfl
  | bool l c =>
      simp only [children, List.mem_append] at h
      simp only [fields, name, mapChildren, BoolClauses.map, body,
        documents_map fun c hc => h c (.inl (.inl (.inl hc))),
        documents_map fun c hc => h c (.inl (.inl (.inr hc))),
        documents_map fun c hc => h c (.inl (.inr hc)),
        documents_map fun c hc => h c (.inr hc)]
  | disMax l d =>
      have hqueries : documents φ (d.queries.map f) = documents φ d.queries := documents_map h
      simp only [fields, name, mapChildren, DisMax.map, body, hqueries]
  | functionScore l s =>
      simp only [children, List.mem_append] at h
      simp only [fields, name, mapChildren, FunctionScore.map, body,
        optionDocument_map fun c hc => h c (.inl hc),
        functionDocuments_map fun c hc => h c (.inr hc)]
  | joining j q =>
      have hq : objectUnder (f q).name ((f q).body φ) = objectUnder q.name (q.body φ) :=
        h q (by simp [children])
      simp only [fields, name, mapChildren, body, hq]
  | node l q => exact h q (by simp [children])

theorem fields_erase (φ : Features) (q : Query) : q.erase.fields φ = q.fields φ := by
  induction q using children_induction with
  | step q ih =>
      have hroot : q.erase.fields φ = (q.mapChildren erase).fields φ := by
        cases q with
        | bool l c => rw [erase_bool]; rfl
        | disMax l d => rw [erase_disMax]; rfl
        | functionScore l s => rw [erase_functionScore]; rfl
        | _ => rfl
      exact hroot.trans (fields_mapChildren ih)

theorem name_erase (q : Query) : q.erase.name = q.name := by
  have h := q.fields_erase default
  simp only [fields, objectUnder, field, List.cons.injEq, Prod.mk.injEq] at h
  exact h.1.1

theorem reduceAll_map {f : Query → Query} {qs : List Query}
    (h : ∀ c ∈ qs, (f c).reduce = c.reduce) : reduceAll (qs.map f) = reduceAll qs := by
  rw [reduceAll_eq_filterMap, reduceAll_eq_filterMap, List.filterMap_map]
  exact List.filterMap_congr h

theorem reduceOption_map {f : Query → Query} {q : Option Query}
    (h : ∀ c ∈ q.toList, (f c).reduce = c.reduce) :
    reduceOption (q.map f) = reduceOption q := by
  cases q with
  | none => rfl
  | some q => exact h q (by simp)

theorem reduceFunctions_map {f : Query → Query} {fs : List (ScoreFunction Query)}
    (h : ∀ c ∈ fs.filterMap (·.filter), (f c).reduce = c.reduce) :
    reduceFunctions (fs.map (·.map f)) = reduceFunctions fs := by
  induction fs with
  | nil => rfl
  | cons s fs ih =>
      obtain ⟨s, q⟩ := s
      rw [ScoreFunction.filterMap_cons] at h
      have hq := reduceOption_map fun c hc => h c (List.mem_append_left _ hc)
      have hfs := ih fun c hc => h c (List.mem_append_right _ hc)
      rw [List.map_cons, ScoreFunction.map, reduceFunctions, reduceFunctions, hq, hfs]

theorem reduce_mapChildren {f : Query → Query} {q : Query}
    (h : ∀ c ∈ q.children, (f c).reduce = c.reduce) : (q.mapChildren f).reduce = q.reduce := by
  cases q with
  | leaf l => rfl
  | bool l c =>
      simp only [children, List.mem_append] at h
      simp only [mapChildren, BoolClauses.map, reduce,
        reduceAll_map fun c hc => h c (.inl (.inl (.inl hc))),
        reduceAll_map fun c hc => h c (.inl (.inl (.inr hc))),
        reduceAll_map fun c hc => h c (.inl (.inr hc)),
        reduceAll_map fun c hc => h c (.inr hc)]
  | disMax l d =>
      have hqueries : reduceAll (d.queries.map f) = reduceAll d.queries := reduceAll_map h
      simp only [mapChildren, DisMax.map, reduce, hqueries]
  | functionScore l s =>
      obtain ⟨q, fs, o⟩ := s
      simp only [children, List.mem_append] at h
      have hplain : FunctionScore.isPlain ⟨q.map f, fs.map (·.map f), o⟩ =
          FunctionScore.isPlain ⟨q, fs, o⟩ := by
        simp only [FunctionScore.isPlain, List.isEmpty_map]
      simp only [mapChildren, FunctionScore.map, reduce, hplain,
        reduceOption_map fun c hc => h c (.inl hc),
        reduceFunctions_map fun c hc => h c (.inr hc)]
  | joining j q => simp only [mapChildren, reduce, h q (by simp [children])]
  | node l q => exact h q (by simp [children])

theorem reduce_erase (q : Query) : q.erase.reduce = q.reduce := by
  induction q using children_induction with
  | step q ih =>
      have hroot : q.erase.reduce = (q.mapChildren erase).reduce := by
        cases q with
        | bool l c => rw [erase_bool]; rfl
        | disMax l d => rw [erase_disMax]; rfl
        | functionScore l s => rw [erase_functionScore]; rfl
        | _ => rfl
      exact hroot.trans (reduce_mapChildren ih)

end SearchClient.Query
