import SearchClient.Proofs.Mapping.Union

/-!
# When mappings merge

The three merges of lists, of parameters, of templates and of fields, go
through the entries on the right one by one.  What each step does to the entry
of one name is enough to know what becomes of the whole list.
-/

namespace SearchClient

open Json (Object)

/--
Steps that combine each entry on the right with the one of its name, as long
as the two agree, unite the lists; a step that fails does so for a name that
was there from the start, since no name comes twice from the right.
-/
theorem foldlM_unite {α : Type} (agree : α → α → Prop) {combine : α → α → α} {bad : Error → Prop}
    {step : Entries α → String × α → Except Error (Entries α)} {left right : Entries α}
    (hl : left.keys.Nodup) (hr : right.keys.Nodup)
    (hstep : ∀ (merged : Entries α) name b, (name, b) ∈ right →
      merged.get? name = left.get? name →
        Outcome (fun m => (∀ a, merged.get? name = some a → agree a b) ∧
          m = merged.set name ((merged.get? name).elim b (combine · b))) bad
        (step merged (name, b))) :
    Outcome (fun m => left.Agree agree right ∧ m = left.unite combine right) bad
      (right.foldlM step left) := by
  -- The list on the left grows, but what it says of the names still to come stays the same.
  induction right generalizing left with
  | nil => simp [pure, Except.pure, Entries.Agree, Entries.unite_nil_right]
  | cons entry rest ih =>
      obtain ⟨name, b⟩ := entry
      rw [Entries.keys_cons, List.nodup_cons] at hr
      rw [List.foldlM_cons]
      apply (hstep left name b List.mem_cons_self rfl).bind
      rintro _ ⟨hagree, rfl⟩
      have hother : ∀ other, other ≠ name →
          (left.set name ((left.get? name).elim b (combine · b))).get? other =
            left.get? other := by
        intro other hne
        rw [Entries.get?_set, if_neg hne]
      have hne : ∀ other c, (other, c) ∈ rest → other ≠ name := by
        rintro other c hmem rfl
        exact hr.1 (List.mem_map_of_mem (f := Prod.fst) hmem)
      apply (ih (Entries.nodup_keys_set hl _ _) hr.2 fun merged other c hmem hmerged =>
        hstep merged other c (List.mem_cons_of_mem _ hmem)
          (hmerged.trans (hother other (hne other c hmem)))).imp
      · rintro m ⟨hrest, rfl⟩
        constructor
        · intro other x y hx hy
          rw [Entries.get?_cons] at hy
          by_cases h : other = name
          · subst h
            obtain rfl : b = y := by simpa using hy
            exact hagree x hx
          · rw [if_neg h] at hy
            exact hrest other x y (by rw [hother other h, hx]) hy
        · exact Entries.unite_set hl hr.2 hr.1 b
      · exact fun e he => he

theorem mergeParams_outcome (path : String) {left right : Object} (hl : left.keys.Nodup)
    (hr : right.keys.Nodup) :
    Outcome (fun m => left.Agree (fun x y => (x == y) = true) right ∧
        m = left.unite (fun value _ => value) right)
      (fun e => (∃ reason, e = .mappingConflict path reason) ∧
        ∃ name x y, left.get? name = some x ∧ right.get? name = some y ∧ (x == y) = false)
      (mergeParams path left right) := by
  refine foldlM_unite (fun x y => (x == y) = true) hl hr fun merged name y hy hmerged => ?_
  cases hx : merged.get? name with
  | none => simp [hx]
  | some x =>
      by_cases hxy : (x == y) = true
      · simp [hx, hxy, Entries.set_of_get? hx]
      · simp only [hx, hxy, conflict]
        refine ⟨⟨_, rfl⟩, name, x, y, hmerged ▸ hx, Entries.get?_of_mem hr hy, by simpa using hxy⟩

theorem mergeTemplates_outcome {left right : Entries DynamicTemplate} (hl : left.keys.Nodup)
    (hr : right.keys.Nodup) :
    Outcome (fun m => left.Agree (fun s t => (s == t) = true) right ∧
        m = left.unite (fun template _ => template) right)
      (fun e => ∃ reason name s t, e = .mappingConflict ("dynamic_templates." ++ name) reason ∧
        left.get? name = some s ∧ right.get? name = some t ∧ (s == t) = false)
      (mergeTemplates left right) := by
  refine foldlM_unite (fun s t => (s == t) = true) hl hr fun merged name t ht hmerged => ?_
  cases hs : merged.get? name with
  | none => simp [hs]
  | some s =>
      by_cases hst : (s == t) = true
      · simp [hs, hst, Entries.set_of_get? hs]
      · simp only [hs, hst, conflict]
        exact ⟨_, name, s, t, rfl, hmerged ▸ hs, Entries.get?_of_mem hr ht, by simpa using hst⟩

/-! ## Fields -/

namespace FieldMapping

/-- An error that names a shared place of two fields at which they do not agree. -/
def Disagree (path : String) (f g : FieldMapping) (e : Error) : Prop :=
  ∃ steps x y reason, f.Meet g steps x y ∧ ¬ x.Agrees y ∧
    e = .mappingConflict (steps.foldl fieldPath path) reason

def DisagreeAmong (parent : String) (left right : Entries FieldMapping) (e : Error) : Prop :=
  ∃ name f g, left.get? name = some f ∧ right.get? name = some g ∧
    Disagree (fieldPath parent name) f g e

theorem Disagree.of_subFields {path : String} {f g : FieldMapping} {e : Error}
    (h : DisagreeAmong path f.subFields g.subFields e) : Disagree path f g e := by
  obtain ⟨name, f', g', hf, hg, steps, x, y, reason, hmeet, hnot, rfl⟩ := h
  exact ⟨name :: steps, x, y, reason, .subField hf hg hmeet, hnot, rfl⟩

theorem Disagree.of_properties {path : String} {f g : FieldMapping} {e : Error}
    (h : DisagreeAmong path f.properties g.properties e) : Disagree path f g e := by
  obtain ⟨name, f', g', hf, hg, steps, x, y, reason, hmeet, hnot, rfl⟩ := h
  exact ⟨name :: steps, x, y, reason, .property hf hg hmeet, hnot, rfl⟩

def mergeStep (parent : String) (merged : Entries FieldMapping)
    (entry : String × FieldMapping) : Except Error (Entries FieldMapping) :=
  match merged.get? entry.1 with
  | none => .ok (merged.set entry.1 entry.2)
  | some existing => do
      let both ← merge (fieldPath parent entry.1) existing entry.2
      return merged.set entry.1 both

theorem mergeAll_eq_foldlM (parent : String) (left right : Entries FieldMapping) :
    mergeAll parent left right = right.foldlM (mergeStep parent) left := by
  induction right generalizing left with
  | nil => rfl
  | cons entry rest ih =>
      obtain ⟨name, f⟩ := entry
      rw [mergeAll, List.foldlM_cons, mergeStep]
      cases left.get? name with
      | none => exact ih _
      | some existing =>
          cases hmerge : merge (fieldPath parent name) existing f with
          | error e => simp [hmerge, bind, Except.bind]
          | ok both => simpa [hmerge, bind, Except.bind, pure, Except.pure] using ih _

theorem mergeAll_outcome (parent : String) {left right : Entries FieldMapping}
    (hl : left.keys.Nodup) (hr : right.keys.Nodup)
    (h : ∀ name f g, left.get? name = some f → right.get? name = some g →
      Outcome (fun m => f.Compatible g ∧ m = f.union g) (Disagree (fieldPath parent name) f g)
        (merge (fieldPath parent name) f g)) :
    Outcome (fun m => left.Agree Compatible right ∧ m = left.unite union right)
      (DisagreeAmong parent left right) (mergeAll parent left right) := by
  rw [mergeAll_eq_foldlM]
  refine foldlM_unite Compatible hl hr fun merged name g hg hmerged => ?_
  have hg := Entries.get?_of_mem hr hg
  unfold mergeStep
  cases hf : merged.get? name with
  | none => simp
  | some f =>
      have hf' : left.get? name = some f := hmerged ▸ hf
      apply ((h name f g hf' hg).imp (fun m hm => hm)
        fun e he => ⟨name, f, g, hf', hg, he⟩).bind
      rintro m ⟨hcompatible, rfl⟩
      simpa using hcompatible

/-- Fields merge into their union if they are compatible, and otherwise fail at a shared place. -/
theorem merge_outcome {f g : FieldMapping} (hf : f.Distinct) (hg : g.Distinct) (path : String) :
    Outcome (fun m => f.Compatible g ∧ m = f.union g) (Disagree path f g) (merge path f g) := by
  -- The merge goes down on the right; at every level the lists are merged by `foldlM_unite`.
  induction g using inner_induction generalizing f path with
  | step g ihsub ihprop =>
      have hparams := mergeParams_outcome path hf.here.params hg.here.params
      have hsub := mergeAll_outcome path hf.here.subFields hg.here.subFields
        fun name x y hx hy => ihsub name y hy (hf.subFields name x hx) (hg.subFields name y hy) _
      have hprop := mergeAll_outcome path hf.here.properties hg.here.properties
        fun name x y hx hy => ihprop name y hy (hf.properties name x hx) (hg.properties name y hy) _
      cases g with
      | mk type params subFields properties =>
          rw [merge]
          by_cases htype : f.type = type
          · rw [if_neg (not_not.mpr htype)]
            apply (hparams.imp (fun _ hm => hm) ?_).bind
            · rintro _ ⟨hparams, rfl⟩
              apply (hsub.imp (fun _ hm => hm) fun _ he => Disagree.of_subFields he).bind
              rintro _ ⟨hsub, rfl⟩
              apply (hprop.imp (fun _ hm => hm) fun _ he => Disagree.of_properties he).bind
              rintro _ ⟨hprop, rfl⟩
              exact ⟨compatible_iff.mpr ⟨⟨htype, hparams⟩, hsub, hprop⟩, (union_eq f _).symm⟩
            · rintro e ⟨⟨reason, rfl⟩, name, x, y, hx, hy, hxy⟩
              refine ⟨[], f, _, reason, .here f _, fun h => ?_, rfl⟩
              rw [h.params name x y hx hy] at hxy
              cases hxy
          · rw [if_pos htype]
            exact ⟨[], f, _, _, .here f _, fun h => htype h.type, rfl⟩

end FieldMapping

/-! ## Mappings -/

theorem mergeSetting_outcome {α : Type} [DecidableEq α] (name : String) (shown : α → String)
    (left right : Option α) :
    Outcome (fun m => (∀ x y, left = some x → right = some y → x = y) ∧ m = left.or right)
      (fun e => ∃ reason x y, e = .mappingConflict name reason ∧ left = some x ∧
        right = some y ∧ x ≠ y)
      (mergeSetting name shown left right) := by
  unfold mergeSetting
  split
  · rename_i x y
    by_cases h : x = y
    · simp [h]
    · rw [if_neg h]
      exact ⟨_, x, y, rfl, rfl, rfl, h⟩
  · simp
  · simp

namespace Mapping

structure Distinct (m : Mapping) : Prop where
  templates : m.templates.keys.Nodup
  fields : m.fields.keys.Nodup
  inside : m.fields.All FieldMapping.Distinct

structure Compatible (a b : Mapping) : Prop where
  dynamic : ∀ x y, a.dynamic = some x → b.dynamic = some y → x = y
  sourceEnabled : ∀ x y, a.sourceEnabled = some x → b.sourceEnabled = some y → x = y
  templates : a.templates.Agree (fun s t => (s == t) = true) b.templates
  fields : a.fields.Agree FieldMapping.Compatible b.fields

def union (a b : Mapping) : Mapping where
  dynamic := a.dynamic.or b.dynamic
  sourceEnabled := a.sourceEnabled.or b.sourceEnabled
  fields := a.fields.unite FieldMapping.union b.fields
  templates := a.templates.unite (fun template _ => template) b.templates

theorem templates_union (a b : Mapping) :
    (a.union b).templates = a.templates.unite (fun template _ => template) b.templates := rfl

theorem fields_union (a b : Mapping) :
    (a.union b).fields = a.fields.unite FieldMapping.union b.fields := rfl

/-- What an error may name, and the difference that must then be found there. -/
inductive ConflictAt (a b : Mapping) : String → Prop where
  | dynamic {x y : DynamicFields} (left : a.dynamic = some x) (right : b.dynamic = some y)
      (differ : x ≠ y) : ConflictAt a b "dynamic"
  | source {x y : Bool} (left : a.sourceEnabled = some x) (right : b.sourceEnabled = some y)
      (differ : x ≠ y) : ConflictAt a b "_source"
  | template {name : String} {s t : DynamicTemplate} (left : a.templates.get? name = some s)
      (right : b.templates.get? name = some t) (differ : (s == t) = false) :
      ConflictAt a b ("dynamic_templates." ++ name)
  | field {name : String} {steps : List String} {f g x y : FieldMapping}
      (left : a.fields.get? name = some f) (right : b.fields.get? name = some g)
      (shared : f.Meet g steps x y) (differ : ¬ x.Agrees y) :
      ConflictAt a b ((name :: steps).foldl fieldPath "")

theorem ConflictAt.not_compatible {a b : Mapping} {field : String} (h : a.ConflictAt b field) :
    ¬ a.Compatible b := by
  intro hcompatible
  cases h with
  | dynamic hx hy hne => exact hne (hcompatible.dynamic _ _ hx hy)
  | source hx hy hne => exact hne (hcompatible.sourceEnabled _ _ hx hy)
  | template hs ht hst =>
      rw [hcompatible.templates _ _ _ hs ht] at hst
      cases hst
  | field hf hg hmeet hnot => exact hnot (hcompatible.fields _ _ _ hf hg _ _ _ hmeet)

theorem Distinct.union {a b : Mapping} (ha : a.Distinct) (hb : b.Distinct) :
    (a.union b).Distinct := by
  constructor
  · rw [templates_union]
    exact Entries.nodup_keys_unite ha.templates hb.templates
  · exact Entries.nodup_keys_unite ha.fields hb.fields
  · intro name f hf
    obtain hf | hf | ⟨x, y, hx, hy, rfl⟩ := Entries.get?_unite_cases hf
    · exact ha.inside name f hf
    · exact hb.inside name f hf
    · exact (ha.inside name x hx).union (fun _ _ => FieldMapping.Named.union) (hb.inside name y hy)

theorem merge_outcome {a b : Mapping} (ha : a.Distinct) (hb : b.Distinct) :
    Outcome (fun m => a.Compatible b ∧ m = a.union b)
      (fun e => ∃ field reason, e = .mappingConflict field reason ∧ a.ConflictAt b field)
      (a.merge b) := by
  unfold merge
  apply ((mergeSetting_outcome _ _ a.dynamic b.dynamic).imp (fun _ hm => hm) ?_).bind
  · rintro _ ⟨hdynamic, rfl⟩
    apply ((mergeSetting_outcome _ _ a.sourceEnabled b.sourceEnabled).imp (fun _ hm => hm) ?_).bind
    · rintro _ ⟨hsource, rfl⟩
      apply ((mergeTemplates_outcome ha.templates hb.templates).imp (fun _ hm => hm) ?_).bind
      · rintro _ ⟨htemplates, rfl⟩
        apply ((FieldMapping.mergeAll_outcome "" ha.fields hb.fields fun name f g hf hg =>
          FieldMapping.merge_outcome (ha.inside name f hf) (hb.inside name g hg) _).imp
            (fun _ hm => hm) ?_).bind
        · rintro _ ⟨hfields, rfl⟩
          exact ⟨⟨hdynamic, hsource, htemplates, hfields⟩, rfl⟩
        · rintro e ⟨name, f, g, hf, hg, steps, x, y, reason, hmeet, hnot, rfl⟩
          exact ⟨_, reason, rfl, .field hf hg hmeet hnot⟩
      · rintro e ⟨reason, name, s, t, rfl, hs, ht, hst⟩
        exact ⟨_, reason, rfl, .template hs ht hst⟩
    · rintro e ⟨reason, x, y, rfl, hx, hy, hne⟩
      exact ⟨_, reason, rfl, .source hx hy hne⟩
  · rintro e ⟨reason, x, y, rfl, hx, hy, hne⟩
    exact ⟨_, reason, rfl, .dynamic hx hy hne⟩

theorem merge_eq_ok_iff {a b m : Mapping} (ha : a.Distinct) (hb : b.Distinct) :
    a.merge b = .ok m ↔ a.Compatible b ∧ m = a.union b := by
  have houtcome := merge_outcome ha hb
  cases hmerge : a.merge b with
  | ok m' =>
      rw [hmerge, outcome_ok] at houtcome
      obtain ⟨hcompatible, rfl⟩ := houtcome
      rw [Except.ok.injEq, eq_comm]
      exact ⟨fun h => ⟨hcompatible, h⟩, fun h => h.2⟩
  | error e =>
      rw [hmerge, outcome_error] at houtcome
      obtain ⟨field, reason, -, hconflict⟩ := houtcome
      constructor
      · rintro ⟨⟩
      · rintro ⟨hcompatible, -⟩
        exact absurd hcompatible hconflict.not_compatible

/--
A merge succeeds exactly for compatible mappings.  It gives their union, in
which names are distinct again; a failure is a conflict and names one that is
there.
-/
theorem merge_unites_exactly_compatible {a b : Mapping} (ha : a.Distinct) (hb : b.Distinct) :
    ((∃ m, a.merge b = .ok m) ↔ a.Compatible b) ∧
      (∀ m, a.merge b = .ok m → m = a.union b ∧ m.Distinct) ∧
      ∀ e, a.merge b = .error e →
        ∃ field reason, e = .mappingConflict field reason ∧ a.ConflictAt b field := by
  refine ⟨?_, fun m hm => ?_, fun e he => ?_⟩
  · simp [merge_eq_ok_iff ha hb]
  · obtain ⟨-, rfl⟩ := (merge_eq_ok_iff ha hb).mp hm
    exact ⟨rfl, ha.union hb⟩
  · have houtcome := merge_outcome ha hb
    rwa [he, outcome_error] at houtcome

theorem merge_unites_exactly_compatible_nested :
    let raw : FieldMapping := .mk "keyword" [] [] []
    let a : Mapping := { fields := [("title", .mk "text" [("boost", .int 2)] [("raw", raw)] [])] }
    let b : Mapping :=
      { dynamic := some .strict
        fields := [("lang", raw), ("title",
          .mk "text" [("index", .bool true)] [("raw", raw), ("words", .mk "text" [] [] [])] [])] }
    let c : Mapping :=
      { fields := [("title", .mk "text" [] [("raw", .mk "long" [] [] [])] [])] }
    a.Compatible b ∧ (a.union b).Distinct ∧ (a.union b).fields = [
        ("title", .mk "text" [("boost", .int 2), ("index", .bool true)]
          [("raw", raw), ("words", .mk "text" [] [] [])] []),
        ("lang", raw)] ∧
      ¬ a.Compatible c ∧ a.ConflictAt c "title.raw" := by
  intro raw a b c
  have leaf (type : String) : (FieldMapping.mk type [] [] []).Distinct :=
    .intro ⟨.nil, .nil, .nil⟩ Entries.All.nil Entries.All.nil
  have field {type : String} {params : Object} {subFields : Entries FieldMapping}
      (hparams : params.keys.Nodup) (hnames : subFields.keys.Nodup)
      (hsub : subFields.All FieldMapping.Distinct) :
      (FieldMapping.mk type params subFields []).Distinct :=
    .intro ⟨hparams, hnames, .nil⟩ hsub Entries.All.nil
  have ha : a.Distinct :=
    ⟨by decide, by decide, .cons (field (by decide) (by decide) (.cons (leaf _) .nil)) .nil⟩
  have hb : b.Distinct :=
    ⟨by decide, by decide, .cons (leaf _) (.cons
      (field (by decide) (by decide) (.cons (leaf _) (.cons (leaf _) .nil))) .nil)⟩
  have hc : c.Distinct :=
    ⟨by decide, by decide, .cons (field (by decide) (by decide) (.cons (leaf _) .nil)) .nil⟩
  have hmerge : a.merge b = .ok (a.union b) := rfl
  obtain ⟨hcompatible, hunion, -⟩ := merge_unites_exactly_compatible ha hb
  obtain ⟨hnot, -, hconflict⟩ := merge_unites_exactly_compatible ha hc
  obtain ⟨field, reason, heq, hat⟩ := hconflict _ rfl
  cases heq
  refine ⟨hcompatible.mp ⟨_, hmerge⟩, (hunion _ hmerge).2, rfl, fun h => ?_, hat⟩
  obtain ⟨m, hm⟩ := hnot.mpr h
  cases hm

end Mapping

end SearchClient
