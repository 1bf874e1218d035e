import SearchClient.Mapping.Merge
import SearchClient.Proofs.Entries
import SearchClient.Proofs.Outcome

/-!
# Unions of mappings

Two mappings are compatible when nothing they both say, at whatever depth, is
said differently.  A merge succeeds for these and no others, and what it gives
is their union; when it fails it names a place where they differ.
-/

namespace SearchClient

namespace FieldMapping

theorem sizeOf_lt_of_get? {fields : Entries FieldMapping} {name : String} {g : FieldMapping}
    (h : fields.get? name = some g) : sizeOf g < sizeOf fields := by
  have hentry := List.sizeOf_lt_of_mem (Entries.mem_of_get? h)
  rw [Prod.mk.sizeOf_spec] at hentry
  omega

theorem inner_induction {motive : FieldMapping → Prop}
    (step : ∀ f, (∀ name g, f.subFields.get? name = some g → motive g) →
      (∀ name g, f.properties.get? name = some g → motive g) → motive f)
    (f : FieldMapping) : motive f := by
  refine step f (fun name g h => inner_induction step g) fun name g h => inner_induction step g
termination_by f
decreasing_by
  all_goals
    have hlt := sizeOf_lt_of_get? h
    cases f
    simp only [subFields, properties] at hlt
    rw [mk.sizeOf_spec]
    omega

/-- A property of a field and of all fields inside it. -/
inductive Throughout (P : FieldMapping → Prop) : FieldMapping → Prop where
  | intro {f : FieldMapping} (here : P f)
      (subFields : ∀ name g, f.subFields.get? name = some g → Throughout P g)
      (properties : ∀ name g, f.properties.get? name = some g → Throughout P g) :
      Throughout P f

namespace Throughout

variable {P : FieldMapping → Prop} {f : FieldMapping}

theorem here (h : Throughout P f) : P f := by
  cases h with
  | intro here => exact here

theorem subFields (h : Throughout P f) :
    ∀ name g, f.subFields.get? name = some g → Throughout P g := by
  cases h with
  | intro _ hsub => exact hsub

theorem properties (h : Throughout P f) :
    ∀ name g, f.properties.get? name = some g → Throughout P g := by
  cases h with
  | intro _ _ hprop => exact hprop

end Throughout

structure Named (f : FieldMapping) : Prop where
  params : f.params.keys.Nodup
  subFields : f.subFields.keys.Nodup
  properties : f.properties.keys.Nodup

abbrev Distinct : FieldMapping → Prop := Throughout Named

/-- Both fields have a field at a path, through the same kind of list at every step. -/
inductive Meet :
    FieldMapping → FieldMapping → List String → FieldMapping → FieldMapping → Prop where
  | here (f g : FieldMapping) : Meet f g [] f g
  | subField {f g f' g' x y : FieldMapping} {name : String} {path : List String}
      (left : f.subFields.get? name = some f') (right : g.subFields.get? name = some g')
      (rest : Meet f' g' path x y) : Meet f g (name :: path) x y
  | property {f g f' g' x y : FieldMapping} {name : String} {path : List String}
      (left : f.properties.get? name = some f') (right : g.properties.get? name = some g')
      (rest : Meet f' g' path x y) : Meet f g (name :: path) x y

structure Agrees (f g : FieldMapping) : Prop where
  type : f.type = g.type
  params : f.params.Agree (fun x y => (x == y) = true) g.params

def Compatible (f g : FieldMapping) : Prop :=
  ∀ path x y, f.Meet g path x y → x.Agrees y

theorem compatible_iff {f g : FieldMapping} :
    f.Compatible g ↔ f.Agrees g ∧ f.subFields.Agree Compatible g.subFields ∧
      f.properties.Agree Compatible g.properties := by
  constructor
  · intro h
    exact ⟨h [] f g (.here f g),
      fun name f' g' hf hg path x y hmeet => h (name :: path) x y (.subField hf hg hmeet),
      fun name f' g' hf hg path x y hmeet => h (name :: path) x y (.property hf hg hmeet)⟩
  · rintro ⟨hagrees, hsub, hprop⟩ path x y hmeet
    cases hmeet with
    | here => exact hagrees
    | subField hf hg hmeet => exact hsub _ _ _ hf hg _ x y hmeet
    | property hf hg hmeet => exact hprop _ _ _ hf hg _ x y hmeet

mutual

/-- What the first field says and what only the second one adds. -/
def union : FieldMapping → FieldMapping → FieldMapping
  | mk type params subFields properties, g =>
      mk type (params.unite (fun value _ => value) g.params)
        (unionAll subFields g.subFields ++ Entries.beyond subFields g.subFields)
        (unionAll properties g.properties ++ Entries.beyond properties g.properties)
termination_by structural f => f

def unionAll : List (String × FieldMapping) → Entries FieldMapping → Entries FieldMapping
  | [], _ => []
  | (name, f) :: rest, right =>
      (name, match right.get? name with
        | some g => union f g
        | none => f) :: unionAll rest right
termination_by structural fs => fs

end

theorem unionAll_eq_map (left right : Entries FieldMapping) :
    unionAll left right =
      left.map fun entry => (entry.1, (right.get? entry.1).elim entry.2 (union entry.2)) := by
  induction left with
  | nil => rfl
  | cons entry rest ih =>
      obtain ⟨name, f⟩ := entry
      rw [unionAll, ih, List.map_cons]
      cases right.get? name <;> rfl

theorem union_eq (f g : FieldMapping) :
    f.union g = mk f.type (f.params.unite (fun value _ => value) g.params)
      (f.subFields.unite union g.subFields) (f.properties.unite union g.properties) := by
  cases f with
  | mk type params subFields properties =>
      rw [union, unionAll_eq_map, unionAll_eq_map]
      rfl

@[simp] theorem type_union (f g : FieldMapping) : (f.union g).type = f.type := by
  rw [union_eq, type]

@[simp] theorem params_union (f g : FieldMapping) :
    (f.union g).params = f.params.unite (fun value _ => value) g.params := by
  rw [union_eq, params]

@[simp] theorem subFields_union (f g : FieldMapping) :
    (f.union g).subFields = f.subFields.unite union g.subFields := by
  rw [union_eq, subFields]

@[simp] theorem properties_union (f g : FieldMapping) :
    (f.union g).properties = f.properties.unite union g.properties := by
  rw [union_eq, properties]

theorem Throughout.union {P : FieldMapping → Prop}
    (hunion : ∀ f g : FieldMapping, P f → P g → P (f.union g)) {f g : FieldMapping}
    (hf : Throughout P f) (hg : Throughout P g) : Throughout P (f.union g) := by
  induction f using inner_induction generalizing g with
  | step f ihsub ihprop =>
      refine .intro (hunion f g hf.here hg.here) (fun name x hx => ?_) fun name x hx => ?_
      · rw [subFields_union] at hx
        obtain hx | hx | ⟨y, z, hy, hz, rfl⟩ := Entries.get?_unite_cases hx
        · exact hf.subFields name x hx
        · exact hg.subFields name x hx
        · exact ihsub name y hy (hf.subFields name y hy) (hg.subFields name z hz)
      · rw [properties_union] at hx
        obtain hx | hx | ⟨y, z, hy, hz, rfl⟩ := Entries.get?_unite_cases hx
        · exact hf.properties name x hx
        · exact hg.properties name x hx
        · exact ihprop name y hy (hf.properties name y hy) (hg.properties name z hz)

theorem Named.union {f g : FieldMapping} (hf : f.Named) (hg : g.Named) : (f.union g).Named := by
  constructor
  · rw [params_union]
    exact Entries.nodup_keys_unite hf.params hg.params
  · rw [subFields_union]
    exact Entries.nodup_keys_unite hf.subFields hg.subFields
  · rw [properties_union]
    exact Entries.nodup_keys_unite hf.properties hg.properties

end FieldMapping

end SearchClient
