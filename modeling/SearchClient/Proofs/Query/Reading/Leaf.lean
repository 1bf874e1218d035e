import SearchClient.Proofs.Query.Reading.Options

/-!
# Reading leaves back

A leaf can be told from its name and body: from the field it names, from its
value alone or with options beside it, and from its options.
-/

namespace SearchClient

open Json (present ofFloat)
open Sameness

variable {m : Sameness} {φ : Features}

theorem rel_of_field {name name' : String} {x y : Json}
    (h : m.Rel (Json.object (Json.field name x)) (.object (Json.field name' y))) :
    name = name' ∧ m.Rel x y := by
  have hdistinct (name : String) (x : Json) : (Entries.keys (Json.field name x)).Nodup :=
    List.nodup_singleton name
  have hget := Json.rel_get? (hdistinct name x) (hdistinct name' y) h name
  simp only [Json.field, Entries.get?_cons, if_true, Entries.get?_nil] at hget
  split at hget
  · exact ⟨‹_›, rel_some.mp hget⟩
  · exact absurd hget not_rel_some_none

namespace Leaf

theorem rel_of_valueOr {key : String} {x y : Json} {xs ys : List (String × Option Json)}
    (hx : x.Bare) (hy : y.Bare)
    (h : m.Rel (valueOr key x (present xs)) (valueOr key y (present ys)))
    (hnames : Entries.keys xs = Entries.keys ys) (hdistinct : (key :: Entries.keys xs).Nodup) :
    m.Rel x y ∧ m.Parts xs ys := by
  have hparts := List.nodup_cons.mp hdistinct |>.2
  -- The long form is an object and the short one is not, so both documents have the same form.
  unfold valueOr at h
  cases hxs : present xs with
  | nil =>
      cases hys : present ys with
      | nil =>
          simp only [hxs, hys, List.isEmpty_nil, if_true] at h
          have hempty : m.Rel (Json.object (present xs)) (.object (present ys)) := by
            rw [hxs, hys]
            cases m <;> rfl
          exact ⟨h, Json.rel_parts hempty hnames hparts⟩
      | cons =>
          simp only [hxs, hys, List.isEmpty_nil, List.isEmpty_cons, if_true] at h
          exact absurd h (hx.not_rel_object _).1
  | cons =>
      cases hys : present ys with
      | nil =>
          simp only [hxs, hys, List.isEmpty_nil, List.isEmpty_cons, if_true] at h
          exact absurd h (hy.not_rel_object _).2
      | cons =>
          rw [if_neg (by simp [hxs]), if_neg (by simp [hys])] at h
          have hall : m.Parts ((key, some x) :: xs) ((key, some y) :: ys) :=
            Json.rel_parts h (congrArg (key :: ·) hnames) hdistinct
          obtain ⟨hvalue, hrest⟩ := List.forall₂_cons.mp hall
          exact ⟨rel_some.mp hvalue, hrest⟩

/--
A leaf whose body tells what it is.  An object as the value of a term could be
one with options beside it, and the boost of a terms query on a field `boost`
is written over the terms.
-/
def Plain : Leaf → Prop
  | matchAll boost => Written boost
  | term _ value boost => value.Bare ∧ Written boost
  | terms name _ boost => (name = "boost" → boost = none) ∧ Written boost
  | ids _ boost => Written boost
  | hasField _ boost => Written boost
  | range _ bounds => Written bounds.boost
  | startsWith _ _ boost => Written boost
  | wildcard _ _ options => Written options.boost
  | matchText _ _ options => Written options.boost
  | matchPhrase _ _ options => Written options.boost
  | multiMatch _ _ options => Written options.tieBreaker ∧ Written options.boost
  | raw .. => False

theorem rel_of_matchAll {boost boost' : Option Float} (hl : Written boost) (hl' : Written boost')
    (h : m.Rel (Json.object ((matchAll boost).body φ)) (.object ((matchAll boost').body φ))) :
    m.Rel (matchAll boost) (matchAll boost') := by
  simp only [body, boostField_eq_present] at h
  have hparts := Json.rel_parts h rfl (by simp [Entries.keys])
  have hboost := rel_of_floats hl hl' (List.forall₂_cons.mp hparts).1
  exact rel_congr (fun _ _ => rfl) hboost

theorem rel_of_term {name name' : String} {value value' : Json} {boost boost' : Option Float}
    (hl : (term name value boost).Plain) (hl' : (term name' value' boost').Plain)
    (h : m.Rel (Json.object ((term name value boost).body φ))
      (.object ((term name' value' boost').body φ))) :
    m.Rel (term name value boost) (term name' value' boost') := by
  simp only [body, boostField_eq_present] at h
  obtain ⟨rfl, hbody⟩ := rel_of_field h
  obtain ⟨hvalue, hparts⟩ := rel_of_valueOr hl.1 hl'.1 hbody rfl (by simp [Entries.keys, boostPart])
  have hboost := rel_of_floats hl.2 hl'.2 (List.forall₂_cons.mp hparts).1
  exact rel_congr₃ (fun _ _ _ _ _ _ => rfl) (rel_refl name) hvalue hboost

theorem terms_body {name : String} {values : List Json} {boost : Option Float}
    (h : name = "boost" → boost = none) :
    (terms name values boost).body φ = Json.field name (.array values) ++ boostField boost := by
  cases boost with
  | none => rfl
  | some b =>
      have hne : name ≠ "boost" := fun heq => by cases h heq
      simp [body, Json.field, boostField, Json.floatField, Json.field?, Entries.setAll,
        Entries.set, hne]

theorem terms_distinct {name : String} {value : Json} {boost : Option Float}
    (h : name = "boost" → boost = none) :
    (Entries.keys (Json.field name value ++ boostField boost)).Nodup := by
  cases boost with
  | none => exact List.nodup_singleton name
  | some b =>
      have hne : name ≠ "boost" := fun heq => by cases h heq
      simp [Entries.keys, Json.field, boostField, Json.floatField, Json.field?, hne]

theorem terms_get? (name other : String) (value : Json) (boost : Option Float) :
    Entries.get? (Json.field name value ++ boostField boost) other =
      (if other = name then some value else none).or
        (if other = "boost" then boost.map ofFloat else none) := by
  rw [Entries.get?_append, Json.field, Entries.get?_cons, Entries.get?_nil]
  cases boost <;> simp [boostField, Json.floatField, Json.field?, Entries.get?_cons]

theorem rel_of_terms {name name' : String} {values values' : List Json}
    {boost boost' : Option Float} (hl : (terms name values boost).Plain)
    (hl' : (terms name' values' boost').Plain)
    (h : m.Rel (Json.object ((terms name values boost).body φ))
      (.object ((terms name' values' boost').body φ))) :
    m.Rel (terms name values boost) (terms name' values' boost') := by
  rw [terms_body hl.1, terms_body hl'.1] at h
  have hget := Json.rel_get? (terms_distinct hl.1) (terms_distinct hl'.1) h
  simp only [terms_get?] at hget
  -- What stands under the field's name is an array, so it is not the boost of the other query.
  have hname : name = name' := by
    by_contra hne
    have hvalues := hget name
    rw [if_pos rfl, Option.some_or, if_neg hne, Option.none_or] at hvalues
    split at hvalues
    · cases boost' with
      | none => exact not_rel_some_none hvalues
      | some b' => exact Json.not_rel_array_ofFloat (rel_some.mp hvalues)
    · exact not_rel_some_none hvalues
  subst hname
  have hvalues : m.Rel values values' := by
    have hvalues := hget name
    simp only [if_true, Option.some_or] at hvalues
    exact Json.rel_array.mp (rel_some.mp hvalues)
  have hboost : m.Rel boost boost' := by
    by_cases heq : name = "boost"
    · rw [hl.1 heq, hl'.1 heq]
      exact rel_none
    · have hboost := hget "boost"
      simp only [if_neg (Ne.symm heq), if_true, Option.none_or] at hboost
      exact rel_of_floats hl.2 hl'.2 hboost
  exact rel_congr₃ (fun _ _ _ _ _ _ => rfl) (rel_refl name) hvalues hboost

theorem rel_of_ids {values values' : List String} {boost boost' : Option Float}
    (hl : Written boost) (hl' : Written boost')
    (h : m.Rel (Json.object ((ids values boost).body φ)) (.object ((ids values' boost').body φ))) :
    m.Rel (ids values boost) (ids values' boost') := by
  simp only [body, Json.field_eq_present, boostField_eq_present, ← Json.present_append] at h
  have hparts := Json.rel_parts h rfl (by simp [Entries.keys, boostPart])
  simp only [List.cons_append, List.nil_append, List.forall₂_cons] at hparts
  obtain ⟨hvalues, hboost, -⟩ := hparts
  exact rel_congr₂ (fun _ _ _ _ => rfl) (rel_of_texts (rel_some.mp hvalues))
    (rel_of_floats hl hl' hboost)

theorem rel_of_hasField {name name' : String} {boost boost' : Option Float}
    (hl : Written boost) (hl' : Written boost')
    (h : m.Rel (Json.object ((hasField name boost).body φ))
      (.object ((hasField name' boost').body φ))) :
    m.Rel (hasField name boost) (hasField name' boost') := by
  simp only [body, Json.field_eq_present, boostField_eq_present, ← Json.present_append] at h
  have hparts := Json.rel_parts h rfl (by simp [Entries.keys, boostPart])
  simp only [List.cons_append, List.nil_append, List.forall₂_cons] at hparts
  obtain ⟨hname, hboost, -⟩ := hparts
  exact rel_congr₂ (fun _ _ _ _ => rfl) (rel_iff_eq.mpr (Json.rel_string.mp (rel_some.mp hname)))
    (rel_of_floats hl hl' hboost)

theorem rel_of_range {name name' : String} {bounds bounds' : RangeBounds}
    (hl : Written bounds.boost) (hl' : Written bounds'.boost)
    (h : m.Rel (Json.object ((range name bounds).body φ))
      (.object ((range name' bounds').body φ))) :
    m.Rel (range name bounds) (range name' bounds') := by
  simp only [body, RangeBounds.document_eq] at h
  obtain ⟨rfl, hbounds⟩ := rel_of_field h
  have hparts := Json.rel_parts hbounds rfl (by simp [Entries.keys, RangeBounds.parts, boostPart])
  exact rel_congr₂ (fun _ _ _ _ => rfl) (rel_refl name) (RangeBounds.rel_of_parts hl hl' hparts)

theorem rel_of_textOr {key name name' text text' : String} {xs ys : List (String × Option Json)}
    (h : m.Rel (Json.object (Json.field name (valueOr key (.string text) (present xs))))
      (.object (Json.field name' (valueOr key (.string text') (present ys)))))
    (hnames : Entries.keys xs = Entries.keys ys) (hdistinct : (key :: Entries.keys xs).Nodup) :
    name = name' ∧ text = text' ∧ m.Parts xs ys := by
  obtain ⟨hname, hbody⟩ := rel_of_field h
  obtain ⟨htext, hparts⟩ :=
    rel_of_valueOr (Json.bare_string _) (Json.bare_string _) hbody hnames hdistinct
  exact ⟨hname, Json.rel_string.mp htext, hparts⟩

theorem rel_of_startsWith {name name' value value' : String} {boost boost' : Option Float}
    (hl : Written boost) (hl' : Written boost')
    (h : m.Rel (Json.object ((startsWith name value boost).body φ))
      (.object ((startsWith name' value' boost').body φ))) :
    m.Rel (startsWith name value boost) (startsWith name' value' boost') := by
  simp only [body, boostField_eq_present] at h
  obtain ⟨rfl, rfl, hparts⟩ := rel_of_textOr h rfl (by simp [Entries.keys, boostPart])
  have hboost := rel_of_floats hl hl' (List.forall₂_cons.mp hparts).1
  exact rel_congr₃ (fun _ _ _ _ _ _ => rfl) (rel_refl name) (rel_refl value) hboost

theorem rel_of_wildcard {name name' value value' : String} {options options' : WildcardOptions}
    (hl : Written options.boost) (hl' : Written options'.boost)
    (h : m.Rel (Json.object ((wildcard name value options).body φ))
      (.object ((wildcard name' value' options').body φ))) :
    m.Rel (wildcard name value options) (wildcard name' value' options') := by
  simp only [body, WildcardOptions.document_eq] at h
  obtain ⟨rfl, rfl, hparts⟩ :=
    rel_of_textOr h rfl (by simp [Entries.keys, WildcardOptions.parts, boostPart])
  exact rel_congr₃ (fun _ _ _ _ _ _ => rfl) (rel_refl name) (rel_refl value)
    (WildcardOptions.rel_of_parts hl hl' hparts)

theorem rel_of_matchText {name name' text text' : String} {options options' : MatchOptions}
    (hl : Written options.boost) (hl' : Written options'.boost)
    (h : m.Rel (Json.object ((matchText name text options).body φ))
      (.object ((matchText name' text' options').body φ))) :
    m.Rel (matchText name text options) (matchText name' text' options') := by
  simp only [body, MatchOptions.document_eq] at h
  obtain ⟨rfl, rfl, hparts⟩ :=
    rel_of_textOr h rfl (by simp [Entries.keys, MatchOptions.parts, boostPart])
  exact rel_congr₃ (fun _ _ _ _ _ _ => rfl) (rel_refl name) (rel_refl text)
    (MatchOptions.rel_of_parts hl hl' hparts)

theorem rel_of_matchPhrase {name name' text text' : String} {options options' : PhraseOptions}
    (hl : Written options.boost) (hl' : Written options'.boost)
    (h : m.Rel (Json.object ((matchPhrase name text options).body φ))
      (.object ((matchPhrase name' text' options').body φ))) :
    m.Rel (matchPhrase name text options) (matchPhrase name' text' options') := by
  simp only [body, PhraseOptions.document_eq] at h
  obtain ⟨rfl, rfl, hparts⟩ :=
    rel_of_textOr h rfl (by simp [Entries.keys, PhraseOptions.parts, boostPart])
  exact rel_congr₃ (fun _ _ _ _ _ _ => rfl) (rel_refl name) (rel_refl text)
    (PhraseOptions.rel_of_parts hl hl' hparts)

theorem rel_of_multiMatch {text text' : String} {fields fields' : List String}
    {options options' : MultiMatchOptions} (hl : (multiMatch text fields options).Plain)
    (hl' : (multiMatch text' fields' options').Plain)
    (h : m.Rel (Json.object ((multiMatch text fields options).body φ))
      (.object ((multiMatch text' fields' options').body φ))) :
    m.Rel (multiMatch text fields options) (multiMatch text' fields' options') := by
  simp only [body, Json.field_eq_present, MultiMatchOptions.document_eq, ← Json.present_append] at h
  have hparts := Json.rel_parts h rfl (by simp [Entries.keys, MultiMatchOptions.parts, boostPart])
  simp only [List.cons_append, List.nil_append, List.forall₂_cons] at hparts
  obtain ⟨htext, hfields, hoptions⟩ := hparts
  exact rel_congr₃ (fun _ _ _ _ _ _ => rfl)
    (rel_iff_eq.mpr (Json.rel_string.mp (rel_some.mp htext)))
    (rel_of_texts (rel_some.mp hfields)) (MultiMatchOptions.rel_of_parts hl hl' hoptions)

theorem rel_of_body {l l' : Leaf} (hl : l.Plain) (hl' : l'.Plain) (hname : l.name = l'.name)
    (h : m.Rel (Json.object (l.body φ)) (.object (l'.body φ))) : m.Rel l l' := by
  cases l with
  | matchAll => cases l' with
    | matchAll => exact rel_of_matchAll hl hl' h
    | raw => exact hl'.elim
    | _ => simp [name] at hname
  | term => cases l' with
    | term => exact rel_of_term hl hl' h
    | raw => exact hl'.elim
    | _ => simp [name] at hname
  | terms => cases l' with
    | terms => exact rel_of_terms hl hl' h
    | raw => exact hl'.elim
    | _ => simp [name] at hname
  | ids => cases l' with
    | ids => exact rel_of_ids hl hl' h
    | raw => exact hl'.elim
    | _ => simp [name] at hname
  | hasField => cases l' with
    | hasField => exact rel_of_hasField hl hl' h
    | raw => exact hl'.elim
    | _ => simp [name] at hname
  | range => cases l' with
    | range => exact rel_of_range hl hl' h
    | raw => exact hl'.elim
    | _ => simp [name] at hname
  | startsWith => cases l' with
    | startsWith => exact rel_of_startsWith hl hl' h
    | raw => exact hl'.elim
    | _ => simp [name] at hname
  | wildcard => cases l' with
    | wildcard => exact rel_of_wildcard hl hl' h
    | raw => exact hl'.elim
    | _ => simp [name] at hname
  | matchText => cases l' with
    | matchText => exact rel_of_matchText hl hl' h
    | raw => exact hl'.elim
    | _ => simp [name] at hname
  | matchPhrase => cases l' with
    | matchPhrase => exact rel_of_matchPhrase hl hl' h
    | raw => exact hl'.elim
    | _ => simp [name] at hname
  | multiMatch => cases l' with
    | multiMatch => exact rel_of_multiMatch hl hl' h
    | raw => exact hl'.elim
    | _ => simp [name] at hname
  | raw => exact hl.elim

end Leaf

end SearchClient
