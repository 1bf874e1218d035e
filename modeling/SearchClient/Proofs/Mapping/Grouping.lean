import SearchClient.Proofs.Json.Equality
import SearchClient.Proofs.Mapping.Merge

/-!
# Merging in any grouping

Merging is a partial operation with a neutral mapping.  It is defined for the
same groupings of several mappings and gives the same for all of them; the
order of two mappings decides only in which order entries are listed, and which
of two equal values is kept.
-/

namespace SearchClient

/-- A relation that is an equality between the values of one kind. -/
structure EqualityOn {α : Type} (P : α → Prop) (R : α → α → Prop) : Prop where
  refl : ∀ {a}, P a → R a a
  symm : ∀ {a b}, P a → P b → R a b → R b a
  trans : ∀ {a b c}, P a → R a b → R b c → R a c

theorem Json.equalityOn_proper : EqualityOn Json.Proper (fun x y => (x == y) = true) where
  refl := Proper.beq_self
  symm := Proper.beq_symm
  trans := Proper.beq_trans

namespace DynamicTemplate

def Proper (t : DynamicTemplate) : Prop := (Json.object t.mapping).Proper

theorem beq_iff {s t : DynamicTemplate} :
    (s == t) = true ↔
      (s.matchMappingType = t.matchMappingType ∧ s.matchName = t.matchName ∧
        s.unmatchName = t.unmatchName ∧ s.pathMatch = t.pathMatch ∧
        s.pathUnmatch = t.pathUnmatch) ∧
      (Json.object s.mapping == Json.object t.mapping) = true := by
  change instBEqDynamicTemplate.beq s t = true ↔ _
  simp only [instBEqDynamicTemplate.beq, Bool.and_eq_true, beq_iff_eq, and_assoc]
  rfl

theorem equalityOn_proper : EqualityOn Proper (fun s t => (s == t) = true) where
  refl := fun h => beq_iff.mpr ⟨⟨rfl, rfl, rfl, rfl, rfl⟩, h.beq_self⟩
  symm := fun hs ht h => by
    obtain ⟨⟨h₁, h₂, h₃, h₄, h₅⟩, hmapping⟩ := beq_iff.mp h
    exact beq_iff.mpr ⟨⟨h₁.symm, h₂.symm, h₃.symm, h₄.symm, h₅.symm⟩, hs.beq_symm ht hmapping⟩
  trans := fun hs h h' => by
    obtain ⟨⟨h₁, h₂, h₃, h₄, h₅⟩, hmapping⟩ := beq_iff.mp h
    obtain ⟨⟨h₁', h₂', h₃', h₄', h₅'⟩, hmapping'⟩ := beq_iff.mp h'
    exact beq_iff.mpr ⟨⟨h₁.trans h₁', h₂.trans h₂', h₃.trans h₃', h₄.trans h₄', h₅.trans h₅'⟩,
      hs.beq_trans hmapping hmapping'⟩

end DynamicTemplate

section Kept

variable {α : Type} {P : α → Prop} {R : α → α → Prop} {left middle right : Entries α}

theorem EqualityOn.agree_unite_iff (hR : EqualityOn P R) (right : Entries α) (hl : left.All P)
    (hm : middle.All P) (hagree : left.Agree R middle) :
    (left.unite (fun a _ => a) middle).Agree R right ↔
      left.Agree R right ∧ middle.Agree R right := by
  apply Entries.agree_unite_iff
  intro name a b c ha hb _
  refine ⟨fun hac => ⟨hac, ?_⟩, fun h => h.1⟩
  have hba := hR.symm (hl name a ha) (hm name b hb) (hagree name a b ha hb)
  exact hR.trans (hm name b hb) hba hac

theorem EqualityOn.agree_symm (hR : EqualityOn P R) (hl : left.All P) (hr : right.All P)
    (h : left.Agree R right) : right.Agree R left :=
  h.flip fun name a b ha hb => hR.symm (hl name a ha) (hr name b hb)

theorem EqualityOn.agree_self (hR : EqualityOn P R) (h : left.All P) : left.Agree R left :=
  .self fun name a ha => hR.refl (h name a ha)

theorem EqualityOn.agree_unite_comm (hR : EqualityOn P R) (hl : left.All P) (hr : right.All P)
    (hagree : left.Agree R right) :
    (left.unite (fun a _ => a) right).Agree R (right.unite (fun a _ => a) left) :=
  Entries.agree_unite_comm (fun name a ha => hR.refl (hl name a ha))
    (fun name a ha => hR.refl (hr name a ha)) hagree

end Kept

/-! ## Fields -/

namespace FieldMapping

abbrev Proper : FieldMapping → Prop := Throughout fun f => f.params.All Json.Proper

variable {f g k : FieldMapping}

theorem Proper.union (hf : f.Proper) (hg : g.Proper) : (f.union g).Proper := by
  refine Throughout.union (fun f g hf hg name x hx => ?_) hf hg
  rw [params_union] at hx
  obtain hx | hx | ⟨y, z, hy, -, rfl⟩ := Entries.get?_unite_cases hx
  · exact hf name x hx
  · exact hg name x hx
  · exact hf name y hy

theorem compatible_self (hf : f.Proper) : f.Compatible f := by
  induction f using inner_induction with
  | step f ihsub ihprop =>
      refine compatible_iff.mpr ⟨⟨rfl, Json.equalityOn_proper.agree_self hf.here⟩, ?_, ?_⟩
      · exact .self fun name g hg => ihsub name g hg (hf.subFields name g hg)
      · exact .self fun name g hg => ihprop name g hg (hf.properties name g hg)

theorem Compatible.symm (hf : f.Proper) (hg : g.Proper) (h : f.Compatible g) : g.Compatible f := by
  induction f using inner_induction generalizing g with
  | step f ihsub ihprop =>
      obtain ⟨⟨htype, hparams⟩, hsub, hprop⟩ := compatible_iff.mp h
      refine compatible_iff.mpr
        ⟨⟨htype.symm, Json.equalityOn_proper.agree_symm hf.here hg.here hparams⟩, ?_, ?_⟩
      · exact hsub.flip fun name x y hx hy =>
          ihsub name x hx (hf.subFields name x hx) (hg.subFields name y hy)
      · exact hprop.flip fun name x y hx hy =>
          ihprop name x hx (hf.properties name x hx) (hg.properties name y hy)

theorem compatible_union_iff (hf : f.Proper) (hg : g.Proper) (h : f.Compatible g) :
    (f.union g).Compatible k ↔ f.Compatible k ∧ g.Compatible k := by
  induction f using inner_induction generalizing g k with
  | step f ihsub ihprop =>
      obtain ⟨⟨htype, hparams⟩, hsub, hprop⟩ := compatible_iff.mp h
      have hagrees : (f.union g).Agrees k ↔ f.Agrees k ∧ g.Agrees k := by
        have hparams := Json.equalityOn_proper.agree_unite_iff k.params hf.here hg.here hparams
        rw [← params_union] at hparams
        constructor
        · rintro ⟨htype', hparams'⟩
          rw [type_union] at htype'
          obtain ⟨hf, hg⟩ := hparams.mp hparams'
          exact ⟨⟨htype', hf⟩, htype.symm.trans htype', hg⟩
        · rintro ⟨hf, hg⟩
          exact ⟨(type_union f g).trans hf.type, hparams.mpr ⟨hf.params, hg.params⟩⟩
      have hsub : (f.union g).subFields.Agree Compatible k.subFields ↔
          f.subFields.Agree Compatible k.subFields ∧ g.subFields.Agree Compatible k.subFields := by
        rw [subFields_union]
        exact Entries.agree_unite_iff fun name x y z hx hy _ =>
          ihsub name x hx (hf.subFields name x hx) (hg.subFields name y hy) (hsub name x y hx hy)
      have hprop : (f.union g).properties.Agree Compatible k.properties ↔
          f.properties.Agree Compatible k.properties ∧
            g.properties.Agree Compatible k.properties := by
        rw [properties_union]
        exact Entries.agree_unite_iff fun name x y z hx hy _ =>
          ihprop name x hx (hf.properties name x hx) (hg.properties name y hy)
            (hprop name x y hx hy)
      rw [compatible_iff, hagrees, hsub, hprop, compatible_iff, compatible_iff]
      tauto

theorem compatible_union_right_iff (hf : f.Proper) (hg : g.Proper) (hk : k.Proper)
    (h : g.Compatible k) : f.Compatible (g.union k) ↔ f.Compatible g ∧ f.Compatible k := by
  have hsymm {x y : FieldMapping} (hx : x.Proper) (hy : y.Proper) :
      x.Compatible y ↔ y.Compatible x := ⟨Compatible.symm hx hy, Compatible.symm hy hx⟩
  rw [hsymm hf (hg.union hk), compatible_union_iff hg hk h, hsymm hg hf, hsymm hk hf]

theorem union_self (hf : f.Distinct) : f.union f = f := by
  induction f using inner_induction with
  | step f ihsub ihprop =>
      have hparams : f.params.unite (fun value _ => value) f.params = f.params :=
        Entries.unite_self hf.here.params fun _ _ _ => rfl
      have hsub : f.subFields.unite union f.subFields = f.subFields :=
        Entries.unite_self hf.here.subFields fun name x hx =>
          ihsub name x hx (hf.subFields name x hx)
      have hprop : f.properties.unite union f.properties = f.properties :=
        Entries.unite_self hf.here.properties fun name x hx =>
          ihprop name x hx (hf.properties name x hx)
      rw [union_eq, hparams, hsub, hprop]
      cases f
      rfl

theorem union_assoc (hf : f.Distinct) (hg : g.Distinct) (hk : k.Distinct) :
    (f.union g).union k = f.union (g.union k) := by
  induction f using inner_induction generalizing g k with
  | step f ihsub ihprop =>
      rw [union_eq, union_eq f (g.union k)]
      simp only [type_union, params_union, subFields_union, properties_union]
      rw [Entries.unite_assoc hf.here.params hg.here.params hk.here.params fun _ _ _ _ _ _ _ => rfl,
        Entries.unite_assoc hf.here.subFields hg.here.subFields hk.here.subFields
          fun name x y z hx hy hz => ihsub name x hx (hf.subFields name x hx)
            (hg.subFields name y hy) (hk.subFields name z hz),
        Entries.unite_assoc hf.here.properties hg.here.properties hk.here.properties
          fun name x y z hx hy hz => ihprop name x hx (hf.properties name x hx)
            (hg.properties name y hy) (hk.properties name z hz)]

/-- Fields that differ only in the order of entries and in which of equal values they hold. -/
inductive Alike : FieldMapping → FieldMapping → Prop where
  | intro {f g : FieldMapping} (type : f.type = g.type)
      (paramNames : f.params.keys.Perm g.params.keys)
      (params : ∀ name x y, f.params.get? name = some x → g.params.get? name = some y →
        (x == y) = true)
      (subFieldNames : f.subFields.keys.Perm g.subFields.keys)
      (subFields : ∀ name x y, f.subFields.get? name = some x → g.subFields.get? name = some y →
        Alike x y)
      (propertyNames : f.properties.keys.Perm g.properties.keys)
      (properties : ∀ name x y, f.properties.get? name = some x →
        g.properties.get? name = some y → Alike x y) :
      Alike f g

theorem alike_self (hf : f.Proper) : f.Alike f := by
  induction f using inner_induction with
  | step f ihsub ihprop =>
      have hparams := Json.equalityOn_proper.agree_self hf.here
      refine .intro rfl (.refl _) hparams (.refl _) ?_ (.refl _) ?_
      · exact Entries.Agree.self fun name g hg => ihsub name g hg (hf.subFields name g hg)
      · exact Entries.Agree.self fun name g hg => ihprop name g hg (hf.properties name g hg)

theorem union_alike_comm (hf : f.Distinct) (hg : g.Distinct) (hf' : f.Proper) (hg' : g.Proper)
    (h : f.Compatible g) : (f.union g).Alike (g.union f) := by
  induction f using inner_induction generalizing g with
  | step f ihsub ihprop =>
      obtain ⟨⟨htype, hparams⟩, hsub, hprop⟩ := compatible_iff.mp h
      constructor
      · simpa only [type_union] using htype
      · rw [params_union, params_union]
        exact Entries.keys_unite_perm hf.here.params hg.here.params
      · rw [params_union, params_union]
        exact Json.equalityOn_proper.agree_unite_comm hf'.here hg'.here hparams
      · rw [subFields_union, subFields_union]
        exact Entries.keys_unite_perm hf.here.subFields hg.here.subFields
      · rw [subFields_union, subFields_union]
        exact Entries.agree_unite_comm (fun name x hx => alike_self (hf'.subFields name x hx))
          (fun name x hx => alike_self (hg'.subFields name x hx)) fun name x y hx hy =>
          ihsub name x hx (hf.subFields name x hx) (hg.subFields name y hy)
            (hf'.subFields name x hx) (hg'.subFields name y hy) (hsub name x y hx hy)
      · rw [properties_union, properties_union]
        exact Entries.keys_unite_perm hf.here.properties hg.here.properties
      · rw [properties_union, properties_union]
        exact Entries.agree_unite_comm (fun name x hx => alike_self (hf'.properties name x hx))
          (fun name x hx => alike_self (hg'.properties name x hx)) fun name x y hx hy =>
          ihprop name x hx (hf.properties name x hx) (hg.properties name y hy)
            (hf'.properties name x hx) (hg'.properties name y hy) (hprop name x y hx hy)

end FieldMapping

/-! ## Mappings -/

namespace Mapping

structure Proper (m : Mapping) : Prop where
  templates : m.templates.All DynamicTemplate.Proper
  fields : m.fields.All FieldMapping.Proper

structure Alike (a b : Mapping) : Prop where
  dynamic : a.dynamic = b.dynamic
  sourceEnabled : a.sourceEnabled = b.sourceEnabled
  templateNames : a.templates.keys.Perm b.templates.keys
  templates : a.templates.Agree (fun s t => (s == t) = true) b.templates
  fieldNames : a.fields.keys.Perm b.fields.keys
  fields : a.fields.Agree FieldMapping.Alike b.fields

section Settings

variable {α : Type} {x y : Option α}

theorem setting_or_iff (z : Option α) (h : ∀ a b, x = some a → y = some b → a = b) :
    (∀ a c, x.or y = some a → z = some c → a = c) ↔
      (∀ a c, x = some a → z = some c → a = c) ∧ ∀ b c, y = some b → z = some c → b = c := by
  cases x <;> cases y <;> simp_all

theorem setting_or_comm (h : ∀ a b, x = some a → y = some b → a = b) : x.or y = y.or x := by
  cases x <;> cases y <;> simp_all

end Settings

variable {a b c : Mapping}

theorem Distinct.empty : Distinct {} where
  templates := List.nodup_nil
  fields := List.nodup_nil
  inside := by rintro name f ⟨⟩

theorem compatible_empty_left : Compatible {} a where
  dynamic := by rintro x y ⟨⟩
  sourceEnabled := by rintro x y ⟨⟩
  templates := .nil_left
  fields := .nil_left

theorem compatible_empty_right : a.Compatible {} where
  dynamic := by rintro x y - ⟨⟩
  sourceEnabled := by rintro x y - ⟨⟩
  templates := .nil_right
  fields := .nil_right

theorem union_empty_left (a : Mapping) : union {} a = a := by
  simp [union, Entries.unite_nil_left]

theorem union_empty_right (a : Mapping) : a.union {} = a := by
  simp [union, Entries.unite_nil_right]

theorem compatible_self (ha : a.Proper) : a.Compatible a where
  dynamic := by
    intro x y hx hy
    exact Option.some.inj (hx.symm.trans hy)
  sourceEnabled := by
    intro x y hx hy
    exact Option.some.inj (hx.symm.trans hy)
  templates := DynamicTemplate.equalityOn_proper.agree_self ha.templates
  fields := .self fun name f hf => FieldMapping.compatible_self (ha.fields name f hf)

theorem union_self (ha : a.Distinct) : a.union a = a := by
  have htemplates : a.templates.unite (fun template _ => template) a.templates = a.templates :=
    Entries.unite_self ha.templates fun _ _ _ => rfl
  have hfields : a.fields.unite FieldMapping.union a.fields = a.fields :=
    Entries.unite_self ha.fields fun name f hf => FieldMapping.union_self (ha.inside name f hf)
  rw [union, htemplates, hfields, Option.or_self, Option.or_self]

theorem Compatible.symm (ha : a.Proper) (hb : b.Proper) (h : a.Compatible b) :
    b.Compatible a where
  dynamic := fun x y hx hy => (h.dynamic y x hy hx).symm
  sourceEnabled := fun x y hx hy => (h.sourceEnabled y x hy hx).symm
  templates := DynamicTemplate.equalityOn_proper.agree_symm ha.templates hb.templates h.templates
  fields := h.fields.flip fun name f g hf hg =>
    FieldMapping.Compatible.symm (ha.fields name f hf) (hb.fields name g hg)

theorem Proper.union (ha : a.Proper) (hb : b.Proper) : (a.union b).Proper where
  templates := by
    intro name t ht
    rw [templates_union] at ht
    obtain ht | ht | ⟨s, t, hs, -, rfl⟩ := Entries.get?_unite_cases ht
    · exact ha.templates name t ht
    · exact hb.templates name t ht
    · exact ha.templates name s hs
  fields := by
    intro name f hf
    obtain hf | hf | ⟨x, y, hx, hy, rfl⟩ := Entries.get?_unite_cases hf
    · exact ha.fields name f hf
    · exact hb.fields name f hf
    · exact (ha.fields name x hx).union (hb.fields name y hy)

theorem compatible_union_iff (ha : a.Proper) (hb : b.Proper) (h : a.Compatible b) :
    (a.union b).Compatible c ↔ a.Compatible c ∧ b.Compatible c := by
  have hdynamic := setting_or_iff c.dynamic h.dynamic
  have hsource := setting_or_iff c.sourceEnabled h.sourceEnabled
  have htemplates := DynamicTemplate.equalityOn_proper.agree_unite_iff c.templates
    ha.templates hb.templates h.templates
  have hfields : (a.union b).fields.Agree FieldMapping.Compatible c.fields ↔
      a.fields.Agree FieldMapping.Compatible c.fields ∧
        b.fields.Agree FieldMapping.Compatible c.fields := by
    rw [fields_union]
    exact Entries.agree_unite_iff fun name f g k hf hg _ => FieldMapping.compatible_union_iff
      (ha.fields name f hf) (hb.fields name g hg) (h.fields name f g hf hg)
  rw [← templates_union] at htemplates
  constructor
  · rintro ⟨h₁, h₂, h₃, h₄⟩
    exact ⟨⟨(hdynamic.mp h₁).1, (hsource.mp h₂).1, (htemplates.mp h₃).1, (hfields.mp h₄).1⟩,
      (hdynamic.mp h₁).2, (hsource.mp h₂).2, (htemplates.mp h₃).2, (hfields.mp h₄).2⟩
  · rintro ⟨⟨h₁, h₂, h₃, h₄⟩, h₁', h₂', h₃', h₄'⟩
    exact ⟨hdynamic.mpr ⟨h₁, h₁'⟩, hsource.mpr ⟨h₂, h₂'⟩, htemplates.mpr ⟨h₃, h₃'⟩,
      hfields.mpr ⟨h₄, h₄'⟩⟩

theorem compatible_union_right_iff (ha : a.Proper) (hb : b.Proper) (hc : c.Proper)
    (h : b.Compatible c) : a.Compatible (b.union c) ↔ a.Compatible b ∧ a.Compatible c := by
  -- What is known of a union on the left holds on the right, since compatibility is symmetric.
  have hsymm {x y : Mapping} (hx : x.Proper) (hy : y.Proper) :
      x.Compatible y ↔ y.Compatible x := ⟨Compatible.symm hx hy, Compatible.symm hy hx⟩
  rw [hsymm ha (hb.union hc), compatible_union_iff hb hc h, hsymm hb ha, hsymm hc ha]

theorem union_assoc (ha : a.Distinct) (hb : b.Distinct) (hc : c.Distinct) :
    (a.union b).union c = a.union (b.union c) := by
  unfold union
  rw [mk.injEq]
  refine ⟨Option.or_assoc, Option.or_assoc, ?_, ?_⟩
  · exact Entries.unite_assoc ha.fields hb.fields hc.fields fun name f g k hf hg hk =>
      FieldMapping.union_assoc (ha.inside name f hf) (hb.inside name g hg) (hc.inside name k hk)
  · exact Entries.unite_assoc ha.templates hb.templates hc.templates fun _ _ _ _ _ _ _ => rfl

theorem union_alike_comm (ha : a.Distinct) (hb : b.Distinct) (ha' : a.Proper) (hb' : b.Proper)
    (h : a.Compatible b) : (a.union b).Alike (b.union a) where
  dynamic := setting_or_comm h.dynamic
  sourceEnabled := setting_or_comm h.sourceEnabled
  templateNames := by
    rw [templates_union, templates_union]
    exact Entries.keys_unite_perm ha.templates hb.templates
  templates := by
    rw [templates_union, templates_union]
    exact DynamicTemplate.equalityOn_proper.agree_unite_comm ha'.templates hb'.templates h.templates
  fieldNames := Entries.keys_unite_perm ha.fields hb.fields
  fields := Entries.agree_unite_comm
    (fun name f hf => FieldMapping.alike_self (ha'.fields name f hf))
    (fun name f hf => FieldMapping.alike_self (hb'.fields name f hf))
    fun name f g hf hg => FieldMapping.union_alike_comm (ha.inside name f hf) (hb.inside name g hg)
      (ha'.fields name f hf) (hb'.fields name g hg) (h.fields name f g hf hg)

theorem merge_then_eq_ok_iff {m : Mapping} (ha : a.Distinct) (hb : b.Distinct) (hc : c.Distinct)
    (ha' : a.Proper) (hb' : b.Proper) :
    (a.merge b >>= fun both => both.merge c) = .ok m ↔
      (a.Compatible b ∧ a.Compatible c ∧ b.Compatible c) ∧ m = (a.union b).union c := by
  rw [bind_eq_ok_iff]
  constructor
  · rintro ⟨both, hboth, hm⟩
    obtain ⟨hab, rfl⟩ := (merge_eq_ok_iff ha hb).mp hboth
    obtain ⟨habc, rfl⟩ := (merge_eq_ok_iff (ha.union hb) hc).mp hm
    exact ⟨⟨hab, (compatible_union_iff ha' hb' hab).mp habc⟩, rfl⟩
  · rintro ⟨⟨hab, hac, hbc⟩, rfl⟩
    refine ⟨a.union b, (merge_eq_ok_iff ha hb).mpr ⟨hab, rfl⟩, ?_⟩
    exact (merge_eq_ok_iff (ha.union hb) hc).mpr
      ⟨(compatible_union_iff ha' hb' hab).mpr ⟨hac, hbc⟩, rfl⟩

theorem merge_after_eq_ok_iff {m : Mapping} (ha : a.Distinct) (hb : b.Distinct) (hc : c.Distinct)
    (ha' : a.Proper) (hb' : b.Proper) (hc' : c.Proper) :
    (b.merge c >>= fun both => a.merge both) = .ok m ↔
      (a.Compatible b ∧ a.Compatible c ∧ b.Compatible c) ∧ m = a.union (b.union c) := by
  rw [bind_eq_ok_iff]
  constructor
  · rintro ⟨both, hboth, hm⟩
    obtain ⟨hbc, rfl⟩ := (merge_eq_ok_iff hb hc).mp hboth
    obtain ⟨habc, rfl⟩ := (merge_eq_ok_iff ha (hb.union hc)).mp hm
    obtain ⟨hab, hac⟩ := (compatible_union_right_iff ha' hb' hc' hbc).mp habc
    exact ⟨⟨hab, hac, hbc⟩, rfl⟩
  · rintro ⟨⟨hab, hac, hbc⟩, rfl⟩
    refine ⟨b.union c, (merge_eq_ok_iff hb hc).mpr ⟨hbc, rfl⟩, ?_⟩
    exact (merge_eq_ok_iff ha (hb.union hc)).mpr
      ⟨(compatible_union_right_iff ha' hb' hc' hbc).mpr ⟨hab, hac⟩, rfl⟩

/--
Merging is a partial monoid: the empty mapping is neutral, a mapping merged with
itself is itself, and both groupings of three mappings fail or give one result.
Two mappings merge in both orders or in none, and alike.
-/
theorem merge_partial_monoid (ha : a.Distinct) (hb : b.Distinct) (hc : c.Distinct)
    (ha' : a.Proper) (hb' : b.Proper) (hc' : c.Proper) :
    merge {} a = .ok a ∧ a.merge {} = .ok a ∧ a.merge a = .ok a ∧
      (∀ m, (a.merge b >>= fun both => both.merge c) = .ok m ↔
        (b.merge c >>= fun both => a.merge both) = .ok m) ∧
      ((∃ m, a.merge b = .ok m) ↔ ∃ m, b.merge a = .ok m) ∧
      ∀ m m', a.merge b = .ok m → b.merge a = .ok m' → m.Alike m' := by
  refine ⟨?_, ?_, ?_, fun m => ?_, ?_, fun m m' hm hm' => ?_⟩
  · exact (merge_eq_ok_iff .empty ha).mpr ⟨compatible_empty_left, (union_empty_left a).symm⟩
  · exact (merge_eq_ok_iff ha .empty).mpr ⟨compatible_empty_right, (union_empty_right a).symm⟩
  · exact (merge_eq_ok_iff ha ha).mpr ⟨compatible_self ha', (union_self ha).symm⟩
  · rw [merge_then_eq_ok_iff ha hb hc ha' hb', merge_after_eq_ok_iff ha hb hc ha' hb' hc',
      union_assoc ha hb hc]
  · simp only [merge_eq_ok_iff ha hb, merge_eq_ok_iff hb ha, exists_and_left, exists_eq, and_true]
    exact ⟨Compatible.symm ha' hb', Compatible.symm hb' ha'⟩
  · obtain ⟨hcompatible, rfl⟩ := (merge_eq_ok_iff ha hb).mp hm
    obtain ⟨-, rfl⟩ := (merge_eq_ok_iff hb ha).mp hm'
    exact union_alike_comm ha hb ha' hb' hcompatible

theorem merge_partial_monoid_conflict :
    let text (boost : Int) : FieldMapping := .mk "text" [("boost", .int boost)] [] []
    let a : Mapping := { fields := [("lang", text 1)] }
    let b : Mapping := { dynamic := some .strict, fields := [("title", text 2)] }
    let c : Mapping := { fields := [("title", text 3), ("lang", text 1)] }
    (∃ m, a.merge b = .ok m ∧ ∃ m', b.merge a = .ok m' ∧ m.Alike m' ∧
      m.fields.keys = ["lang", "title"] ∧ m'.fields.keys = ["title", "lang"]) ∧
      ∀ m, (b.merge c >>= fun both => a.merge both) ≠ .ok m := by
  intro text a b c
  have htext (boost : Int) : (text boost).Distinct :=
    .intro ⟨by simp [text, FieldMapping.params], .nil, .nil⟩ Entries.All.nil Entries.All.nil
  have htext' (boost : Int) : (text boost).Proper :=
    .intro (.cons (.int boost) .nil) Entries.All.nil Entries.All.nil
  have ha : a.Distinct := ⟨by decide, by decide, .cons (htext 1) .nil⟩
  have hb : b.Distinct := ⟨by decide, by decide, .cons (htext 2) .nil⟩
  have hc : c.Distinct := ⟨by decide, by decide, .cons (htext 3) (.cons (htext 1) .nil)⟩
  have ha' : a.Proper := ⟨.nil, .cons (htext' 1) .nil⟩
  have hb' : b.Proper := ⟨.nil, .cons (htext' 2) .nil⟩
  have hc' : c.Proper := ⟨.nil, .cons (htext' 3) (.cons (htext' 1) .nil)⟩
  obtain ⟨-, -, -, hgroup, -, halike⟩ := merge_partial_monoid ha hb hc ha' hb' hc'
  refine ⟨⟨_, rfl, _, rfl, halike _ _ rfl rfl, rfl, rfl⟩, fun m hm => ?_⟩
  cases (hgroup m).mpr hm

end Mapping

end SearchClient
