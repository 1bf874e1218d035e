import SearchClient.Proofs.Query.Children

/-!
# Substitution

The node of a handle is put in the place of every outermost query that
carries the handle, whatever was there before.  Replacement, which looks for
changes on its way, is this substitution where the handle occurs and finds
no change where it does not.
-/

namespace SearchClient.Query

def Occurs (h : Handle) (q : Query) : Prop := ∃ n ∈ q.nodes, n.handle.same h = true

instance (h : Handle) (q : Query) : Decidable (q.Occurs h) :=
  inferInstanceAs (Decidable (∃ n ∈ q.nodes, n.handle.same h = true))

theorem occurs_iff {h : Handle} {q : Query} :
    q.Occurs h ↔ q.carries h = true ∨ ∃ c ∈ q.children, c.Occurs h := by
  rw [carries_iff]
  constructor
  · rintro ⟨n, hn, hsame⟩
    rcases mem_nodes_iff.mp hn with hroot | ⟨c, hc, hnc⟩
    · exact .inl ⟨n, hroot, hsame⟩
    · exact .inr ⟨c, hc, n, hnc, hsame⟩
  · rintro (⟨n, hroot, hsame⟩ | ⟨c, hc, n, hnc, hsame⟩)
    · exact ⟨n, mem_nodes_iff.mpr (.inl hroot), hsame⟩
    · exact ⟨n, mem_nodes_iff.mpr (.inr ⟨c, hc, hnc⟩), hsame⟩

theorem Occurs.of_carries {h : Handle} {q : Query} (hc : q.carries h = true) : q.Occurs h :=
  occurs_iff.mpr (.inl hc)

theorem Occurs.of_child {h : Handle} {q c : Query} (hc : c ∈ q.children) (ho : c.Occurs h) :
    q.Occurs h :=
  occurs_iff.mpr (.inr ⟨c, hc, ho⟩)

theorem Occurs.child {h : Handle} {q : Query} (ho : q.Occurs h) (hc : q.carries h = false) :
    ∃ c ∈ q.children, c.Occurs h := by
  simpa [hc] using occurs_iff.mp ho

def OccursAny (h : Handle) (qs : List Query) : Prop := ∃ q ∈ qs, q.Occurs h

instance (h : Handle) (qs : List Query) : Decidable (OccursAny h qs) :=
  inferInstanceAs (Decidable (∃ q ∈ qs, q.Occurs h))

@[simp] theorem not_occursAny_nil (h : Handle) : ¬ OccursAny h [] := by
  simp [OccursAny]

@[simp] theorem occursAny_cons {h : Handle} {q : Query} {qs : List Query} :
    OccursAny h (q :: qs) ↔ q.Occurs h ∨ OccursAny h qs := by
  simp [OccursAny]

@[simp] theorem occursAny_append {h : Handle} {qs rs : List Query} :
    OccursAny h (qs ++ rs) ↔ OccursAny h qs ∨ OccursAny h rs := by
  simp [OccursAny, or_and_right, exists_or]

theorem occurs_iff_children {h : Handle} {q : Query} :
    q.Occurs h ↔ q.carries h = true ∨ OccursAny h q.children :=
  occurs_iff

mutual

/-- The tree with a node in the place of every outermost query that carries its handle. -/
def substitute (new : Node) : Query → Query
  | leaf l => leaf l
  | bool l ⟨f, s, m, n, msm, b⟩ =>
      if carries new.handle (bool l ⟨f, s, m, n, msm, b⟩) then new.toQuery
      else
        bool l ⟨substituteAll new f, substituteAll new s, substituteAll new m,
          substituteAll new n, msm, b⟩
  | disMax l ⟨qs, t, b⟩ =>
      if carries new.handle (disMax l ⟨qs, t, b⟩) then new.toQuery
      else disMax l ⟨substituteAll new qs, t, b⟩
  | functionScore l ⟨q, fs, o⟩ =>
      if carries new.handle (functionScore l ⟨q, fs, o⟩) then new.toQuery
      else functionScore l ⟨substituteOption new q, substituteFunctions new fs, o⟩
  | joining j q => joining j (substitute new q)
  | node l q => if carries new.handle (node l q) then new.toQuery else node l (substitute new q)
termination_by structural q => q

def substituteAll (new : Node) : List Query → List Query
  | [] => []
  | q :: qs => substitute new q :: substituteAll new qs
termination_by structural qs => qs

def substituteOption (new : Node) : Option Query → Option Query
  | none => none
  | some q => some (substitute new q)
termination_by structural q => q

def substituteFunctions (new : Node) : List (ScoreFunction Query) → List (ScoreFunction Query)
  | [] => []
  | ⟨s, q⟩ :: rest => ⟨s, substituteOption new q⟩ :: substituteFunctions new rest
termination_by structural fs => fs

end

theorem substituteAll_eq_map (new : Node) (qs : List Query) :
    substituteAll new qs = qs.map (substitute new) := by
  induction qs with
  | nil => rfl
  | cons q qs ih => simp [substituteAll, ih]

theorem substituteOption_eq_map (new : Node) (q : Option Query) :
    substituteOption new q = q.map (substitute new) := by
  cases q <;> rfl

theorem substituteFunctions_eq_map (new : Node) (fs : List (ScoreFunction Query)) :
    substituteFunctions new fs = fs.map (·.map (substitute new)) := by
  induction fs with
  | nil => rfl
  | cons f fs ih =>
      obtain ⟨s, q⟩ := f
      simp [substituteFunctions, substituteOption_eq_map, ScoreFunction.map, ih]

theorem substitute_eq (new : Node) (q : Query) :
    q.substitute new =
      if q.carries new.handle then new.toQuery else q.mapChildren (substitute new) := by
  cases q with
  | leaf l => rfl
  | bool l c => simp only [substitute, substituteAll_eq_map, mapChildren, BoolClauses.map]
  | disMax l d => simp only [substitute, substituteAll_eq_map, mapChildren, DisMax.map]
  | functionScore l s =>
      simp only [substitute, substituteOption_eq_map, substituteFunctions_eq_map, mapChildren,
        FunctionScore.map]
  | joining j q => rfl
  | node l q => rfl

theorem substitute_of_carries {new : Node} {q : Query} (h : q.carries new.handle = true) :
    q.substitute new = new.toQuery := by
  rw [substitute_eq, if_pos h]

theorem substitute_of_not_carries {new : Node} {q : Query} (h : q.carries new.handle = false) :
    q.substitute new = q.mapChildren (substitute new) := by
  rw [substitute_eq, if_neg (by simp [h])]

theorem substitute_of_not_occurs {new : Node} {q : Query} (h : ¬ q.Occurs new.handle) :
    q.substitute new = q := by
  induction q using children_induction with
  | step q ih =>
      have hroot : q.carries new.handle = false := by
        simpa using fun hc => h (.of_carries hc)
      rw [substitute_of_not_carries hroot]
      exact mapChildren_eq_self fun c hc => ih c hc fun ho => h (.of_child hc ho)

/-! ## Replacement is substitution -/

/-- What replacement finds in a tree. -/
def Replaces (new : Node) (q : Query) : Prop :=
  replace? new q = if q.Occurs new.handle then some (q.substitute new) else none

theorem map_substitute_of_not_occurs {new : Node} {qs : List Query}
    (h : ¬ OccursAny new.handle qs) : qs.map (substitute new) = qs := by
  rw [List.map_congr_left fun q hq => substitute_of_not_occurs fun ho => h ⟨q, hq, ho⟩]
  exact List.map_id' qs

theorem replaceAll?_eq {new : Node} {qs : List Query} (ih : ∀ q ∈ qs, Replaces new q) :
    replaceAll? new qs =
      if OccursAny new.handle qs then some (qs.map (substitute new)) else none := by
  induction qs with
  | nil => simp [replaceAll?]
  | cons q qs ihqs =>
      have hq := ih q List.mem_cons_self
      have hqs := ihqs fun q hq => ih q (List.mem_cons_of_mem _ hq)
      rw [Replaces] at hq
      by_cases ho : q.Occurs new.handle <;> by_cases hos : OccursAny new.handle qs <;>
        simp [replaceAll?, hq, hqs, ho, hos, substitute_of_not_occurs,
          map_substitute_of_not_occurs]

theorem map_substitute_option_of_not_occurs {new : Node} {q : Option Query}
    (h : ¬ OccursAny new.handle q.toList) : q.map (substitute new) = q := by
  cases q with
  | none => rfl
  | some q => simpa using substitute_of_not_occurs (by simpa using h)

theorem replaceOption?_eq {new : Node} {q : Option Query}
    (ih : ∀ c ∈ q.toList, Replaces new c) :
    replaceOption? new q =
      if OccursAny new.handle q.toList then q.map (substitute new) else none := by
  cases q with
  | none => simp [replaceOption?]
  | some q =>
      have hq := ih q (by simp)
      rw [Replaces] at hq
      simpa [replaceOption?] using hq

theorem map_substitute_functions_of_not_occurs {new : Node} {fs : List (ScoreFunction Query)}
    (h : ¬ OccursAny new.handle (fs.filterMap (·.filter))) :
    fs.map (·.map (substitute new)) = fs := by
  induction fs with
  | nil => rfl
  | cons f fs ih =>
      obtain ⟨s, q⟩ := f
      rw [ScoreFunction.filterMap_cons, occursAny_append, not_or] at h
      rw [List.map_cons, ih h.2, ScoreFunction.map, map_substitute_option_of_not_occurs h.1]

theorem replaceFunctions?_eq {new : Node} {fs : List (ScoreFunction Query)}
    (ih : ∀ c ∈ fs.filterMap (·.filter), Replaces new c) :
    replaceFunctions? new fs =
      if OccursAny new.handle (fs.filterMap (·.filter)) then
        some (fs.map (·.map (substitute new)))
      else none := by
  induction fs with
  | nil => simp [replaceFunctions?]
  | cons f fs ihfs =>
      obtain ⟨s, q⟩ := f
      rw [ScoreFunction.filterMap_cons] at ih ⊢
      have hq := replaceOption?_eq (q := q) fun c hc => ih c (List.mem_append_left _ hc)
      have hfs := ihfs fun c hc => ih c (List.mem_append_right _ hc)
      rw [replaceFunctions?, hq, hfs, List.map_cons, ScoreFunction.map]
      by_cases ho : OccursAny new.handle q.toList <;>
        by_cases hos : OccursAny new.handle (fs.filterMap (·.filter)) <;>
        simp only [occursAny_append, ho, hos, if_true, if_false, or_true, or_false]
      · cases q <;> simp_all
      · cases q <;> simp_all [map_substitute_functions_of_not_occurs]
      · simp [map_substitute_option_of_not_occurs ho]

theorem replace?_of_carries {new : Node} {q : Query} (h : q.carries new.handle = true) :
    replace? new q = some new.toQuery := by
  cases q with
  | leaf l => cases h
  | joining j q => cases h
  | _ => simp only [replace?, h, if_true]

theorem replace?_of_not_carries {new : Node} {q : Query} (h : q.carries new.handle = false)
    (ih : ∀ c ∈ q.children, Replaces new c) :
    replace? new q =
      if OccursAny new.handle q.children then some (q.mapChildren (substitute new)) else none := by
  cases q with
  | leaf l => simp [replace?, children]
  | bool l c =>
      obtain ⟨f, s, m, n, msm, b⟩ := c
      simp only [children, List.mem_append] at ih
      rw [replace?, replaceAll?_eq fun c hc => ih c (by simp [hc]),
        replaceAll?_eq fun c hc => ih c (by simp [hc]),
        replaceAll?_eq fun c hc => ih c (by simp [hc]),
        replaceAll?_eq fun c hc => ih c (by simp [hc])]
      by_cases hf : OccursAny new.handle f <;> by_cases hs : OccursAny new.handle s <;>
        by_cases hm : OccursAny new.handle m <;> by_cases hn : OccursAny new.handle n <;>
        simp [h, children, mapChildren, BoolClauses.map, hf, hs, hm, hn,
          map_substitute_of_not_occurs]
  | disMax l d =>
      have hqs : replaceAll? new d.queries =
          if OccursAny new.handle d.queries then some (d.queries.map (substitute new)) else none :=
        replaceAll?_eq ih
      by_cases ho : OccursAny new.handle d.queries <;>
        simp [replace?, h, children, mapChildren, DisMax.map, hqs, ho]
  | functionScore l s =>
      obtain ⟨q, fs, o⟩ := s
      simp only [children, List.mem_append] at ih
      rw [replace?, replaceOption?_eq fun c hc => ih c (.inl hc),
        replaceFunctions?_eq fun c hc => ih c (.inr hc)]
      cases q with
      | none =>
          by_cases hfs : OccursAny new.handle (fs.filterMap (·.filter)) <;>
            simp [h, children, mapChildren, FunctionScore.map, hfs]
      | some q =>
          by_cases hq : q.Occurs new.handle <;>
            by_cases hfs : OccursAny new.handle (fs.filterMap (·.filter)) <;>
            simp [h, children, mapChildren, FunctionScore.map, hq, hfs, substitute_of_not_occurs,
              map_substitute_functions_of_not_occurs]
  | joining j q =>
      have hq := ih q (by simp [children])
      rw [Replaces] at hq
      by_cases ho : q.Occurs new.handle <;> simp [replace?, children, mapChildren, hq, ho]
  | node l q =>
      have hq := ih q (by simp [children])
      rw [Replaces] at hq
      by_cases ho : q.Occurs new.handle <;> simp [replace?, h, children, mapChildren, hq, ho]

theorem replace?_eq (new : Node) (q : Query) : Replaces new q := by
  induction q using children_induction with
  | step q ih =>
      by_cases hroot : q.carries new.handle = true
      · rw [Replaces, if_pos (.of_carries hroot), replace?_of_carries hroot,
          substitute_of_carries hroot]
      · have hroot : q.carries new.handle = false := by simpa using hroot
        rw [Replaces, replace?_of_not_carries hroot ih, substitute_of_not_carries hroot]
        simp [occurs_iff_children, hroot]

theorem replace?_eq_none_iff {new : Node} {q : Query} :
    replace? new q = none ↔ ¬ q.Occurs new.handle := by
  have h := replace?_eq new q
  rw [Replaces] at h
  by_cases ho : q.Occurs new.handle <;> simp [h, ho]

theorem replace_eq_substitute (new : Node) (q : Query) : q.replace new = q.substitute new := by
  have h := replace?_eq new q
  rw [Replaces] at h
  by_cases ho : q.Occurs new.handle
  · simp [replace, h, ho]
  · simp [replace, h, ho, substitute_of_not_occurs ho]

end SearchClient.Query
