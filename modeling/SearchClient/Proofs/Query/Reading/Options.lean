import SearchClient.Proofs.Json.Sameness
import SearchClient.Query.Document

/-!
# Reading options back

Options are written as parts under fixed names, each present or left out, so
they can be told from what was written, as long as their numbers are finite.
-/

namespace SearchClient

open Json (Object ofFloat present)

variable {m : Sameness}

class LawfulKeyword (α : Type) [Keyword α] : Prop where
  ofText?_text : ∀ a : α, Keyword.ofText? (Keyword.text a) = some a

instance : LawfulKeyword RangeRelation := ⟨by rintro ⟨⟩ <;> rfl⟩
instance : LawfulKeyword Operator := ⟨by rintro ⟨⟩ <;> rfl⟩
instance : LawfulKeyword MultiMatchType := ⟨by rintro ⟨⟩ <;> rfl⟩
instance : LawfulKeyword Modifier := ⟨by rintro ⟨⟩ <;> rfl⟩
instance : LawfulKeyword ScoreMode := ⟨by rintro ⟨⟩ <;> rfl⟩
instance : LawfulKeyword BoostMode := ⟨by rintro ⟨⟩ <;> rfl⟩
instance : LawfulKeyword NestedScoreMode := ⟨by rintro ⟨⟩ <;> rfl⟩

theorem LawfulKeyword.text_injective {α : Type} [Keyword α] [LawfulKeyword α] :
    Function.Injective (Keyword.text : α → String) := by
  intro a b h
  have hword := congrArg (Keyword.ofText? (α := α)) h
  rw [ofText?_text, ofText?_text] at hword
  exact Option.some.inj hword

namespace Sameness

abbrev Parts (m : Sameness) (xs ys : List (String × Option Json)) : Prop :=
  List.Forall₂ (fun x y => m.Rel x.2 y.2) xs ys

theorem rel_of_strings {x y : Option String} (h : m.Rel (x.map Json.string) (y.map .string)) :
    m.Rel x y :=
  rel_of_map h fun _ _ _ _ hab => rel_iff_eq.mpr (Json.rel_string.mp hab)

theorem rel_of_bools {x y : Option Bool} (h : m.Rel (x.map Json.bool) (y.map .bool)) : m.Rel x y :=
  rel_of_map h fun _ _ _ _ hab => rel_iff_eq.mpr (Json.rel_bool.mp hab)

theorem rel_of_nats {x y : Option Nat}
    (h : m.Rel (x.map fun n : Nat => Json.int n) (y.map fun n : Nat => .int n)) : m.Rel x y :=
  rel_of_map h fun _ _ _ _ hab => rel_iff_eq.mpr (Int.ofNat_inj.mp (Json.rel_int.mp hab))

theorem rel_of_words {α : Type} [Keyword α] [LawfulKeyword α] [BEq α] [LawfulBEq α] {x y : Option α}
    (h : m.Rel ((x.map Keyword.text).map Json.string) ((y.map Keyword.text).map .string)) :
    m.Rel x y :=
  rel_of_map (rel_of_strings h) fun _ _ _ _ hab =>
    rel_iff_eq.mpr (LawfulKeyword.text_injective (rel_iff_eq.mp hab))

end Sameness

/-- A number, if given, that can be written as one. -/
def Written (x : Option Float) : Prop := ∀ a, x = some a → a.isFinite = true

namespace Sameness

theorem rel_of_float {a b : Float} (ha : a.isFinite = true) (hb : b.isFinite = true)
    (h : m.Rel (ofFloat a) (ofFloat b)) : m.Rel a b := by
  rw [ofFloat, if_pos ha, ofFloat, if_pos hb] at h
  exact Json.rel_float.mp h

theorem rel_of_floats {x y : Option Float} (hx : Written x) (hy : Written y)
    (h : m.Rel (x.map ofFloat) (y.map ofFloat)) : m.Rel x y :=
  rel_of_map h fun a b ha hb hab => rel_of_float (hx a ha) (hy b hb) hab

theorem rel_of_texts {xs ys : List String}
    (h : m.Rel (Json.array (xs.map .string)) (.array (ys.map .string))) : m.Rel xs ys := by
  have hitems := rel_list_iff.mp (Json.rel_array.mp h)
  rw [List.forall₂_map_left_iff, List.forall₂_map_right_iff] at hitems
  exact rel_list_iff.mpr (hitems.imp fun s t hst => rel_iff_eq.mpr (Json.rel_string.mp hst))

end Sameness

open Sameness

def listPart (items : List Json) : Option Json :=
  if items.isEmpty then none else some (.array items)

def objectPart (fields : Object) : Option Json :=
  if fields.isEmpty then none else some (.object fields)

theorem Json.natField_eq_present (name : String) (n : Option Nat) :
    natField name n = present [(name, n.map fun n : Nat => .int n)] := by
  cases n <;> rfl

theorem Json.listField_eq_present (name : String) (items : List Json) :
    listField name items = present [(name, listPart items)] := by
  unfold listField listPart
  cases items <;> rfl

theorem Json.objectField_eq_present (name : String) (fields : Object) :
    objectField name fields = present [(name, objectPart fields)] := by
  unfold objectField objectPart
  cases fields <;> rfl

theorem rel_of_listPart {xs ys : List Json} (h : m.Rel (listPart xs) (listPart ys)) :
    m.Rel xs ys := by
  unfold listPart at h
  cases xs with
  | nil =>
      cases ys with
      | nil => exact rel_list_iff.mpr .nil
      | cons y ys => exact absurd h not_rel_none_some
  | cons x xs =>
      cases ys with
      | nil => exact absurd h not_rel_some_none
      | cons y ys => exact Json.rel_array.mp (rel_some.mp h)

theorem rel_of_objectPart {xs ys : Object} (h : m.Rel (objectPart xs) (objectPart ys)) :
    m.Rel xs ys := by
  unfold objectPart at h
  cases xs with
  | nil =>
      cases ys with
      | nil => cases m <;> rfl
      | cons y ys => exact absurd h not_rel_none_some
  | cons x xs =>
      cases ys with
      | nil => exact absurd h not_rel_some_none
      | cons y ys => exact Json.rel_object.mp (rel_some.mp h)

def boostPart (boost : Option Float) : String × Option Json := ("boost", boost.map ofFloat)

theorem boostField_eq_present (boost : Option Float) :
    boostField boost = present [boostPart boost] :=
  Json.field?_eq_present _ _

namespace RangeBounds

def parts (r : RangeBounds) : List (String × Option Json) :=
  [("gt", r.gt), ("gte", r.gte), ("lt", r.lt), ("lte", r.lte),
    ("relation", (r.relation.map Keyword.text).map .string), boostPart r.boost]

theorem document_eq (r : RangeBounds) : r.document = present r.parts := by
  simp only [document, Json.stringField, Json.field?_eq_present, boostField_eq_present,
    ← Json.present_append]
  rfl

theorem rel_of_parts {r r' : RangeBounds} (hr : Written r.boost) (hr' : Written r'.boost)
    (h : m.Parts r.parts r'.parts) : m.Rel r r' := by
  simp only [Parts, parts, boostPart, List.forall₂_cons] at h
  obtain ⟨hgt, hgte, hlt, hlte, hrelation, hboost, -⟩ := h
  have hrelation := rel_of_words hrelation
  have hboost := rel_of_floats hr hr' hboost
  cases r
  cases r'
  exact rel_congr₃ (f := fun a b p => RangeBounds.mk a b p.1 p.2.1 p.2.2.1 p.2.2.2)
    (fun _ _ _ _ _ _ => rfl) hgt hgte (rel_prod hlt (rel_prod hlte (rel_prod hrelation hboost)))

end RangeBounds

namespace MatchOptions

def parts (o : MatchOptions) : List (String × Option Json) :=
  [("analyzer", o.analyzer.map .string), ("operator", (o.operator.map Keyword.text).map .string),
    ("minimum_should_match", o.minimumShouldMatch), ("fuzziness", o.fuzziness.map .string),
    boostPart o.boost]

theorem document_eq (o : MatchOptions) : o.document = present o.parts := by
  simp only [document, operatorField, Json.stringField, Json.field?_eq_present,
    boostField_eq_present, ← Json.present_append]
  rfl

theorem rel_of_parts {o o' : MatchOptions} (ho : Written o.boost) (ho' : Written o'.boost)
    (h : m.Parts o.parts o'.parts) : m.Rel o o' := by
  simp only [Parts, parts, boostPart, List.forall₂_cons] at h
  obtain ⟨hanalyzer, hoperator, hminimum, hfuzziness, hboost, -⟩ := h
  have hanalyzer := rel_of_strings hanalyzer
  have hoperator := rel_of_words hoperator
  have hfuzziness := rel_of_strings hfuzziness
  have hboost := rel_of_floats ho ho' hboost
  cases o
  cases o'
  exact rel_congr₃ (f := fun a b p => MatchOptions.mk a b p.1 p.2.1 p.2.2)
    (fun _ _ _ _ _ _ => rfl) hanalyzer hoperator
    (rel_prod hminimum (rel_prod hfuzziness hboost))

end MatchOptions

namespace PhraseOptions

def parts (o : PhraseOptions) : List (String × Option Json) :=
  [("slop", o.slop.map fun n : Nat => .int n), ("analyzer", o.analyzer.map .string),
    boostPart o.boost]

theorem document_eq (o : PhraseOptions) : o.document = present o.parts := by
  simp only [document, Json.natField_eq_present, Json.stringField, Json.field?_eq_present,
    boostField_eq_present, ← Json.present_append]
  rfl

theorem rel_of_parts {o o' : PhraseOptions} (ho : Written o.boost) (ho' : Written o'.boost)
    (h : m.Parts o.parts o'.parts) : m.Rel o o' := by
  simp only [Parts, parts, boostPart, List.forall₂_cons] at h
  obtain ⟨hslop, hanalyzer, hboost, -⟩ := h
  have hslop := rel_of_nats hslop
  have hanalyzer := rel_of_strings hanalyzer
  have hboost := rel_of_floats ho ho' hboost
  cases o
  cases o'
  exact rel_congr₃ (f := PhraseOptions.mk) (fun _ _ _ _ _ _ => rfl) hslop hanalyzer hboost

end PhraseOptions

namespace MultiMatchOptions

def parts (o : MultiMatchOptions) : List (String × Option Json) :=
  [("type", (o.type.map Keyword.text).map .string),
    ("operator", (o.operator.map Keyword.text).map .string),
    ("minimum_should_match", o.minimumShouldMatch), ("tie_breaker", o.tieBreaker.map ofFloat),
    boostPart o.boost]

theorem document_eq (o : MultiMatchOptions) : o.document = present o.parts := by
  simp only [document, operatorField, Json.stringField, Json.floatField, Json.field?_eq_present,
    boostField_eq_present, ← Json.present_append]
  rfl

theorem rel_of_parts {o o' : MultiMatchOptions} (ho : Written o.tieBreaker ∧ Written o.boost)
    (ho' : Written o'.tieBreaker ∧ Written o'.boost) (h : m.Parts o.parts o'.parts) :
    m.Rel o o' := by
  simp only [Parts, parts, boostPart, List.forall₂_cons] at h
  obtain ⟨htype, hoperator, hminimum, htie, hboost, -⟩ := h
  have htype := rel_of_words htype
  have hoperator := rel_of_words hoperator
  have htie := rel_of_floats ho.1 ho'.1 htie
  have hboost := rel_of_floats ho.2 ho'.2 hboost
  cases o
  cases o'
  exact rel_congr₃ (f := fun a b p => MultiMatchOptions.mk a b p.1 p.2.1 p.2.2)
    (fun _ _ _ _ _ _ => rfl) htype hoperator (rel_prod hminimum (rel_prod htie hboost))

end MultiMatchOptions

namespace WildcardOptions

def parts (o : WildcardOptions) : List (String × Option Json) :=
  [("case_insensitive", o.caseInsensitive.map .bool), boostPart o.boost]

theorem document_eq (o : WildcardOptions) : o.document = present o.parts := by
  simp only [document, Json.boolField, Json.field?_eq_present, boostField_eq_present,
    ← Json.present_append]
  rfl

theorem rel_of_parts {o o' : WildcardOptions} (ho : Written o.boost) (ho' : Written o'.boost)
    (h : m.Parts o.parts o'.parts) : m.Rel o o' := by
  simp only [Parts, parts, boostPart, List.forall₂_cons] at h
  obtain ⟨hcase, hboost, -⟩ := h
  have hcase := rel_of_bools hcase
  have hboost := rel_of_floats ho ho' hboost
  cases o
  cases o'
  exact rel_congr₂ (f := WildcardOptions.mk) (fun _ _ _ _ => rfl) hcase hboost

end WildcardOptions

end SearchClient
