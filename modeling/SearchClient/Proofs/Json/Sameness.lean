import SearchClient.Expression
import SearchClient.Proofs.Json.Equality

/-!
# Reading documents back

A document is written field by field, each present or left out.  From two
documents that are the same, everything written into them can be read back and
is the same; this holds of identical documents and of documents that are equal.
-/

namespace SearchClient

/-- Values are the same when they are identical, or when they compare equal. -/
inductive Sameness where
  | identity
  | equality

namespace Sameness

variable {m : Sameness} {α β : Type} [BEq α] [BEq β]

def Rel : Sameness → α → α → Prop
  | identity, a, b => a = b
  | equality, a, b => (a == b) = true

theorem rel_iff_eq [LawfulBEq α] {a b : α} : m.Rel a b ↔ a = b := by
  cases m with
  | identity => exact Iff.rfl
  | equality => exact beq_iff_eq

theorem rel_refl [LawfulBEq α] (a : α) : m.Rel a a := rel_iff_eq.mpr rfl

/-! Values made of the same parts are the same, if they compare equal part by part. -/

section Congruence

variable {γ δ : Type} [BEq γ] [BEq δ] {a a' : α} {b b' : β} {c c' : γ}

theorem rel_congr {f : α → β} (hf : ∀ a a', (f a == f a') = (a == a')) (ha : m.Rel a a') :
    m.Rel (f a) (f a') := by
  cases m with
  | identity => exact congrArg f ha
  | equality => exact (hf a a').trans ha

theorem rel_congr₂ {f : α → β → γ} (hf : ∀ a b a' b', (f a b == f a' b') = (a == a' && b == b'))
    (ha : m.Rel a a') (hb : m.Rel b b') : m.Rel (f a b) (f a' b') := by
  cases m with
  | identity => exact congr (congrArg f ha) hb
  | equality => exact (hf a b a' b').trans (Bool.and_eq_true_iff.mpr ⟨ha, hb⟩)

theorem rel_congr₃ {f : α → β → γ → δ}
    (hf : ∀ a b c a' b' c', (f a b c == f a' b' c') = (a == a' && (b == b' && c == c')))
    (ha : m.Rel a a') (hb : m.Rel b b') (hc : m.Rel c c') : m.Rel (f a b c) (f a' b' c') := by
  cases m with
  | identity => exact congr (congr (congrArg f ha) hb) hc
  | equality =>
      have hrest := Bool.and_eq_true_iff.mpr ⟨hb, hc⟩
      exact (hf a b c a' b' c').trans (Bool.and_eq_true_iff.mpr ⟨ha, hrest⟩)

theorem rel_prod (ha : m.Rel a a') (hb : m.Rel b b') : m.Rel (a, b) (a', b') :=
  rel_congr₂ (fun _ _ _ _ => rfl) ha hb

end Congruence

@[simp] theorem rel_some {a b : α} : m.Rel (some a) (some b) ↔ m.Rel a b := by
  cases m with
  | identity => exact Option.some_inj
  | equality => exact Iff.rfl

@[simp] theorem rel_none : m.Rel (none : Option α) none := by
  cases m <;> rfl

@[simp] theorem not_rel_none_some {b : α} : ¬ m.Rel none (some b) := by
  cases m <;> rintro ⟨⟩

@[simp] theorem not_rel_some_none {a : α} : ¬ m.Rel (some a) none := by
  cases m <;> rintro ⟨⟩

theorem rel_of_map {f : α → β} {x y : Option α} (h : m.Rel (x.map f) (y.map f))
    (hf : ∀ a b, x = some a → y = some b → m.Rel (f a) (f b) → m.Rel a b) : m.Rel x y := by
  cases x with
  | none =>
      cases y with
      | none => exact rel_none
      | some b => exact absurd h not_rel_none_some
  | some a =>
      cases y with
      | none => exact absurd h not_rel_some_none
      | some b => exact rel_some.mpr (hf a b rfl rfl (rel_some.mp h))

theorem rel_list_iff {xs ys : List α} : m.Rel xs ys ↔ List.Forall₂ m.Rel xs ys := by
  cases m with
  | identity =>
      change xs = ys ↔ List.Forall₂ (· = ·) xs ys
      rw [List.forall₂_eq_eq_eq]
  | equality => exact Json.list_beq_iff

end Sameness

namespace Json

open Sameness

variable {m : Sameness}

theorem rel_string {s t : String} : m.Rel (Json.string s) (.string t) ↔ s = t := by
  cases m with
  | identity => exact ⟨string.inj, congrArg _⟩
  | equality =>
      rw [Sameness.Rel, string_beq_iff, string.injEq, eq_comm]

theorem rel_bool {a b : Bool} : m.Rel (Json.bool a) (.bool b) ↔ a = b := by
  cases m with
  | identity => exact ⟨bool.inj, congrArg _⟩
  | equality => rw [Sameness.Rel, bool_beq_iff, bool.injEq, eq_comm]

theorem rel_int {a b : Int} : m.Rel (Json.int a) (.int b) ↔ a = b := by
  cases m with
  | identity => exact ⟨int.inj, congrArg _⟩
  | equality => rw [Sameness.Rel, int_beq_iff, int.injEq, eq_comm]

theorem rel_float {a b : Float} : m.Rel (Json.float a) (.float b) ↔ m.Rel a b := by
  cases m with
  | identity => exact ⟨float.inj, congrArg _⟩
  | equality => exact Iff.rfl

theorem rel_array {xs ys : List Json} : m.Rel (Json.array xs) (.array ys) ↔ m.Rel xs ys := by
  cases m with
  | identity => exact ⟨array.inj, congrArg _⟩
  | equality => exact array_beq_iff

theorem rel_object {xs ys : Object} : m.Rel (Json.object xs) (.object ys) ↔ m.Rel xs ys := by
  cases m with
  | identity => exact ⟨object.inj, congrArg _⟩
  | equality => exact Iff.rfl

def Bare : Json → Prop
  | .object _ => False
  | _ => True

theorem bare_string (s : String) : (Json.string s).Bare := trivial

theorem Bare.not_rel_object {value : Json} (h : value.Bare) (xs : Object) :
    ¬ m.Rel value (.object xs) ∧ ¬ m.Rel (.object xs) value := by
  cases value with
  | object => exact h.elim
  | _ => cases m <;> constructor <;> rintro ⟨⟩

theorem not_rel_array_ofFloat {items : List Json} {x : Float} :
    ¬ m.Rel (Json.array items) (ofFloat x) := by
  unfold ofFloat
  split <;> cases m <;> rintro ⟨⟩

theorem rel_get? {xs ys : Object} (hx : xs.keys.Nodup) (hy : ys.keys.Nodup)
    (h : m.Rel (Json.object xs) (.object ys)) (name : String) :
    m.Rel (xs.get? name) (ys.get? name) := by
  cases m with
  | identity =>
      obtain rfl := object.inj h
      rfl
  | equality => exact (object_beq_iff hx hy).mp h name

def present (parts : List (String × Option Json)) : Object :=
  parts.filterMap fun part => part.2.map fun value => (part.1, value)

theorem present_append (xs ys : List (String × Option Json)) :
    present (xs ++ ys) = present xs ++ present ys :=
  List.filterMap_append

theorem field?_eq_present (name : String) (value : Option Json) :
    field? name value = present [(name, value)] := by
  cases value <;> rfl

theorem field_eq_present (name : String) (value : Json) :
    field name value = present [(name, some value)] := rfl

theorem keys_present_sublist (parts : List (String × Option Json)) :
    (present parts).keys.Sublist (Entries.keys parts) := by
  induction parts with
  | nil => exact .slnil
  | cons part rest ih =>
      obtain ⟨name, value⟩ := part
      cases value with
      | none => exact ih.cons name
      | some value => exact ih.cons_cons name

theorem get?_present_of_not_mem {parts : List (String × Option Json)} {name : String}
    (h : name ∉ Entries.keys parts) : (present parts).get? name = none :=
  Entries.get?_eq_none_iff.mpr fun hmem => h ((keys_present_sublist parts).subset hmem)

theorem get?_present_cons {parts : List (String × Option Json)} {name : String}
    (h : name ∉ Entries.keys parts) (value : Option Json) (other : String) :
    (present ((name, value) :: parts)).get? other =
      if other = name then value else (present parts).get? other := by
  cases value with
  | none =>
      change (present parts).get? other = _
      split
      · rename_i heq
        exact heq ▸ get?_present_of_not_mem h
      · rfl
  | some value => exact Entries.get?_cons name value (present parts) other

/-- Of two documents with the same names to write, the parts are the same if the documents are. -/
theorem rel_present {xs ys : List (String × Option Json)}
    (hnames : Entries.keys xs = Entries.keys ys) (hdistinct : (Entries.keys xs).Nodup)
    (h : ∀ name, m.Rel ((present xs).get? name) ((present ys).get? name)) :
    List.Forall₂ (fun x y => m.Rel x.2 y.2) xs ys := by
  -- Under the first name both documents have its value or nothing; the rest does not have it.
  induction xs generalizing ys with
  | nil =>
      cases ys with
      | nil => exact .nil
      | cons part rest => cases hnames
  | cons part rest ih =>
      obtain ⟨name, value⟩ := part
      cases ys with
      | nil => cases hnames
      | cons part' rest' =>
          obtain ⟨name', value'⟩ := part'
          obtain ⟨rfl, hrest⟩ := List.cons.inj hnames
          obtain ⟨hnot, hdistinct⟩ := List.nodup_cons.mp hdistinct
          change Entries.keys rest = Entries.keys rest' at hrest
          have hnot' : name ∉ Entries.keys rest' := hrest ▸ hnot
          simp only [get?_present_cons hnot, get?_present_cons hnot'] at h
          refine .cons (by simpa using h name) (ih hrest hdistinct fun other => ?_)
          by_cases heq : other = name
          · rw [heq, get?_present_of_not_mem hnot, get?_present_of_not_mem hnot']
            exact rel_none
          · simpa [heq] using h other

theorem rel_parts {xs ys : List (String × Option Json)}
    (h : m.Rel (Json.object (present xs)) (.object (present ys)))
    (hnames : Entries.keys xs = Entries.keys ys) (hdistinct : (Entries.keys xs).Nodup) :
    List.Forall₂ (fun x y => m.Rel x.2 y.2) xs ys :=
  rel_present hnames hdistinct (rel_get? ((keys_present_sublist xs).nodup hdistinct)
    ((keys_present_sublist ys).nodup (hnames ▸ hdistinct)) h)

end Json

end SearchClient
