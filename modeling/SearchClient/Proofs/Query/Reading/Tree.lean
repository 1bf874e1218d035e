import SearchClient.Proofs.Query.Children
import SearchClient.Proofs.Query.Reading.Leaf

/-!
# Reading queries back

A query without nodes and without raw bodies can be told from its document: no
option of it, at whatever depth, is dropped or taken for another.
-/

namespace SearchClient

open Json (Object ofFloat present)
open Sameness

variable {m : Sameness}

/-! ## Scripts and scorings -/

namespace Script

def parts : Script → List (String × Option Json)
  | inline source lang params =>
      [("id", none), ("source", some (.string source)), ("lang", lang.map .string),
        ("params", objectPart params)]
  | stored id params =>
      [("id", some (.string id)), ("source", none), ("lang", none), ("params", objectPart params)]

theorem document_eq (s : Script) : s.document = present s.parts := by
  cases s <;>
    simp only [document, Json.field_eq_present, Json.stringField, Json.field?_eq_present,
      Json.objectField_eq_present, ← Json.present_append] <;>
    rfl

theorem keys_parts (s : Script) : Entries.keys s.parts = ["id", "source", "lang", "params"] := by
  cases s <;> rfl

theorem rel_of_parts {s s' : Script} (h : m.Parts s.parts s'.parts) : m.Rel s s' := by
  cases s with
  | inline source lang params => cases s' with
    | inline source' lang' params' =>
        simp only [Parts, parts, List.forall₂_cons] at h
        obtain ⟨-, hsource, hlang, hparams, -⟩ := h
        exact rel_congr₃ (fun _ _ _ _ _ _ => rfl)
          (rel_iff_eq.mpr (Json.rel_string.mp (rel_some.mp hsource))) (rel_of_strings hlang)
          (rel_of_objectPart hparams)
    | stored => exact absurd (List.forall₂_cons.mp h).1 not_rel_none_some
  | stored id params => cases s' with
    | inline => exact absurd (List.forall₂_cons.mp h).1 not_rel_some_none
    | stored id' params' =>
        simp only [Parts, parts, List.forall₂_cons] at h
        obtain ⟨hid, -, -, hparams, -⟩ := h
        exact rel_congr₂ (fun _ _ _ _ => rfl)
          (rel_iff_eq.mpr (Json.rel_string.mp (rel_some.mp hid))) (rel_of_objectPart hparams)

end Script

namespace Scoring

def factorParts (name : String) (factor : Option Float) (modifier : Option Modifier)
    (missing : Option Float) : List (String × Option Json) :=
  [("field", some (.string name)), ("factor", factor.map ofFloat),
    ("modifier", (modifier.map Keyword.text).map .string), ("missing", missing.map ofFloat)]

def randomParts (seed : Option Json) (name : Option String) : List (String × Option Json) :=
  [("seed", seed), ("field", name.map .string)]

def scriptParts (s : Script) : List (String × Option Json) :=
  [("script", some (.object (present s.parts)))]

def parts : Scoring → List (String × Option Json)
  | weight w =>
      [("weight", some (ofFloat w)), ("field_value_factor", none), ("script_score", none),
        ("random_score", none)]
  | fieldValue name factor modifier missing =>
      [("weight", none),
        ("field_value_factor", some (.object (present (factorParts name factor modifier missing)))),
        ("script_score", none), ("random_score", none)]
  | script s =>
      [("weight", none), ("field_value_factor", none),
        ("script_score", some (.object (present (scriptParts s)))), ("random_score", none)]
  | random seed name =>
      [("weight", none), ("field_value_factor", none), ("script_score", none),
        ("random_score", some (.object (present (randomParts seed name))))]

theorem document_eq (s : Scoring) : s.document = present s.parts := by
  cases s <;>
    simp only [document, Json.objectUnder, Json.field_eq_present, Json.stringField,
      Json.floatField, Json.field?_eq_present, Script.document_eq, ← Json.present_append] <;>
    rfl

theorem keys_parts (s : Scoring) :
    Entries.keys s.parts = ["weight", "field_value_factor", "script_score", "random_score"] := by
  cases s <;> rfl

def Plain : Scoring → Prop
  | weight w => w.isFinite = true
  | fieldValue _ factor _ missing => Written factor ∧ Written missing
  | script _ => True
  | random .. => True

theorem rel_of_parts {s s' : Scoring} (hs : s.Plain) (hs' : s'.Plain)
    (h : m.Parts s.parts s'.parts) : m.Rel s s' := by
  cases s with
  | weight w => cases s' with
    | weight w' =>
        have hw := rel_some.mp (List.forall₂_cons.mp h).1
        exact rel_congr (fun _ _ => rfl) (rel_of_float hs hs' hw)
    | _ => simp [Parts, parts] at h
  | fieldValue name factor modifier missing => cases s' with
    | fieldValue name' factor' modifier' missing' =>
        simp only [Parts, parts, List.forall₂_cons] at h
        obtain ⟨-, h, -⟩ := h
        have hparts := Json.rel_parts (rel_some.mp h) rfl (by simp [Entries.keys, factorParts])
        simp only [factorParts, List.forall₂_cons] at hparts
        obtain ⟨hname, hfactor, hmodifier, hmissing, -⟩ := hparts
        have hname := Json.rel_string.mp (rel_some.mp hname)
        have hmissing := rel_of_floats hs.2 hs'.2 hmissing
        exact rel_congr₃ (f := fun a b p => fieldValue a b p.1 p.2) (fun _ _ _ _ _ _ => rfl)
          (rel_iff_eq.mpr hname) (rel_of_floats hs.1 hs'.1 hfactor)
          (rel_prod (rel_of_words hmodifier) hmissing)
    | _ => simp [Parts, parts] at h
  | script s => cases s' with
    | script s' =>
        simp only [Parts, parts, List.forall₂_cons] at h
        obtain ⟨-, -, h, -⟩ := h
        have hparts := Json.rel_parts (rel_some.mp h) rfl (by simp [Entries.keys, scriptParts])
        simp only [scriptParts, List.forall₂_cons] at hparts
        have hnames := s.keys_parts.trans s'.keys_parts.symm
        have hscript := Json.rel_parts (rel_some.mp hparts.1) hnames (by simp [s.keys_parts])
        exact rel_congr (fun _ _ => rfl) (Script.rel_of_parts hscript)
    | _ => simp [Parts, parts] at h
  | random seed name => cases s' with
    | random seed' name' =>
        simp only [Parts, parts, List.forall₂_cons] at h
        obtain ⟨-, -, -, h, -⟩ := h
        have hparts := Json.rel_parts (rel_some.mp h) rfl (by simp [Entries.keys, randomParts])
        simp only [randomParts, List.forall₂_cons] at hparts
        obtain ⟨hseed, hname, -⟩ := hparts
        exact rel_congr₂ (fun _ _ _ _ => rfl) hseed (rel_of_strings hname)
    | _ => simp [Parts, parts] at h

end Scoring

namespace ScoreOptions

def parts (o : ScoreOptions) : List (String × Option Json) :=
  [boostPart o.boost, ("score_mode", (o.scoreMode.map Keyword.text).map .string),
    ("boost_mode", (o.boostMode.map Keyword.text).map .string),
    ("min_score", o.minScore.map ofFloat)]

theorem document_eq (o : ScoreOptions) : o.document = present o.parts := by
  simp only [document, Json.stringField, Json.floatField, Json.field?_eq_present,
    boostField_eq_present, ← Json.present_append]
  rfl

def Plain (o : ScoreOptions) : Prop := Written o.boost ∧ Written o.minScore

theorem rel_of_parts {o o' : ScoreOptions} (ho : o.Plain) (ho' : o'.Plain)
    (h : m.Parts o.parts o'.parts) : m.Rel o o' := by
  simp only [Parts, parts, boostPart, List.forall₂_cons] at h
  obtain ⟨hboost, hscore, hmode, hminimum, -⟩ := h
  have hboost := rel_of_floats ho.1 ho'.1 hboost
  have hscore := rel_of_words hscore
  have hmode := rel_of_words hmode
  have hminimum := rel_of_floats ho.2 ho'.2 hminimum
  cases o
  cases o'
  exact rel_congr₃ (f := fun a b p => ScoreOptions.mk a b p.1 p.2) (fun _ _ _ _ _ _ => rfl)
    hboost hscore (rel_prod hmode hminimum)

end ScoreOptions

namespace Joining

def parts (inner : Json) : Joining → List (String × Option Json)
  | nested path scoreMode ignoreUnmapped boost =>
      [("path", some (.string path)), ("query", some inner),
        ("score_mode", (scoreMode.map Keyword.text).map .string),
        ("ignore_unmapped", ignoreUnmapped.map .bool), boostPart boost]
  | hasChild type scoreMode minChildren maxChildren boost =>
      [("type", some (.string type)), ("query", some inner),
        ("score_mode", (scoreMode.map Keyword.text).map .string),
        ("min_children", minChildren.map fun n : Nat => .int n),
        ("max_children", maxChildren.map fun n : Nat => .int n), boostPart boost]
  | hasParent type score boost =>
      [("parent_type", some (.string type)), ("query", some inner),
        ("score", score.map .bool), boostPart boost]

theorem document_eq (j : Joining) (inner : Object) :
    j.relation ++ Json.objectUnder "query" inner ++ j.options =
      present (j.parts (.object inner)) := by
  cases j <;>
    simp only [relation, options, Json.objectUnder, Json.field_eq_present, Json.stringField,
      Json.boolField, Json.natField_eq_present, Json.field?_eq_present, boostField_eq_present,
      ← Json.present_append] <;>
    rfl

def Plain : Joining → Prop
  | nested _ _ _ boost => Written boost
  | hasChild _ _ _ _ boost => Written boost
  | hasParent _ _ boost => Written boost

theorem rel_of_parts {j j' : Joining} {inner inner' : Json} (hj : j.Plain) (hj' : j'.Plain)
    (hname : j.name = j'.name)
    (h : m.Rel (Json.object (present (j.parts inner))) (.object (present (j'.parts inner')))) :
    m.Rel j j' ∧ m.Rel inner inner' := by
  cases j with
  | nested path scoreMode ignoreUnmapped boost => cases j' with
    | nested path' scoreMode' ignoreUnmapped' boost' =>
        have hparts := Json.rel_parts h rfl (by simp [Entries.keys, parts, boostPart])
        simp only [parts, boostPart, List.forall₂_cons] at hparts
        obtain ⟨hpath, hinner, hscore, hignore, hboost, -⟩ := hparts
        have hpath := Json.rel_string.mp (rel_some.mp hpath)
        refine ⟨?_, rel_some.mp hinner⟩
        exact rel_congr₃ (f := fun a b p => nested a b p.1 p.2) (fun _ _ _ _ _ _ => rfl)
          (rel_iff_eq.mpr hpath) (rel_of_words hscore)
          (rel_prod (rel_of_bools hignore) (rel_of_floats hj hj' hboost))
    | _ => simp [name] at hname
  | hasChild type scoreMode minChildren maxChildren boost => cases j' with
    | hasChild type' scoreMode' minChildren' maxChildren' boost' =>
        have hparts := Json.rel_parts h rfl (by simp [Entries.keys, parts, boostPart])
        simp only [parts, boostPart, List.forall₂_cons] at hparts
        obtain ⟨htype, hinner, hscore, hmin, hmax, hboost, -⟩ := hparts
        have htype := Json.rel_string.mp (rel_some.mp htype)
        refine ⟨?_, rel_some.mp hinner⟩
        exact rel_congr₃ (f := fun a b p => hasChild a b p.1 p.2.1 p.2.2) (fun _ _ _ _ _ _ => rfl)
          (rel_iff_eq.mpr htype) (rel_of_words hscore) (rel_prod (rel_of_nats hmin)
            (rel_prod (rel_of_nats hmax) (rel_of_floats hj hj' hboost)))
    | _ => simp [name] at hname
  | hasParent type score boost => cases j' with
    | hasParent type' score' boost' =>
        have hparts := Json.rel_parts h rfl (by simp [Entries.keys, parts, boostPart])
        simp only [parts, boostPart, List.forall₂_cons] at hparts
        obtain ⟨htype, hinner, hscore, hboost, -⟩ := hparts
        have htype := Json.rel_string.mp (rel_some.mp htype)
        refine ⟨?_, rel_some.mp hinner⟩
        exact rel_congr₃ (fun _ _ _ _ _ _ => rfl) (rel_iff_eq.mpr htype) (rel_of_bools hscore)
          (rel_of_floats hj hj' hboost)
    | _ => simp [name] at hname

end Joining

/-! ## Trees -/

namespace Query

variable {φ : Features}

theorem beqAll_eq (qs qs' : List Query) : beqAll qs qs' = (qs == qs') := by
  induction qs generalizing qs' with
  | nil => cases qs' <;> rfl
  | cons q qs ih =>
      cases qs' with
      | nil => rfl
      | cons q' qs' =>
          rw [beqAll, ih]
          rfl

theorem beqOption_eq (q q' : Option Query) : beqOption q q' = (q == q') := by
  cases q <;> cases q' <;> rfl

theorem optionDocument_eq_map (q : Option Query) : optionDocument φ q = q.map (document φ) := by
  cases q <;> rfl

def functionParts (φ : Features) (f : ScoreFunction Query) : List (String × Option Json) :=
  ("filter", f.filter.map (document φ)) :: f.scoring.parts

theorem functionDocuments_eq_map (fs : List (ScoreFunction Query)) :
    functionDocuments φ fs = fs.map fun f => .object (present (functionParts φ f)) := by
  induction fs with
  | nil => rfl
  | cons f fs ih =>
      obtain ⟨s, q⟩ := f
      rw [functionDocuments, ih, List.map_cons, optionDocument_eq_map, Json.field?_eq_present,
        Scoring.document_eq, ← Json.present_append]
      rfl

def parts (φ : Features) : Query → List (String × Option Json)
  | leaf _ => []
  | bool _ c =>
      [("minimum_should_match", c.minimumShouldMatch),
        ("filter", listPart (c.filter.map (document φ))),
        ("should", listPart (c.should.map (document φ))),
        ("must", listPart (c.must.map (document φ))),
        ("must_not", listPart (c.mustNot.map (document φ))), boostPart c.boost]
  | disMax _ d =>
      [("queries", some (.array (d.queries.map (document φ)))),
        ("tie_breaker", d.tieBreaker.map ofFloat), boostPart d.boost]
  | functionScore _ s =>
      let functions := s.functions.map fun f => Json.object (present (functionParts φ f))
      ("query", s.query.map (document φ)) :: s.options.parts ++
        [("functions", some (.array functions))]
  | joining j q => j.parts (q.document φ)
  | node _ _ => []

theorem body_bool (l : Option Label) (c : BoolClauses Query) :
    (bool l c).body φ = present ((bool l c).parts φ) := by
  simp only [body, documents_eq_map, Json.field?_eq_present, Json.listField_eq_present,
    boostField_eq_present, ← Json.present_append]
  rfl

theorem body_disMax (l : Option Label) (d : DisMax Query) :
    (disMax l d).body φ = present ((disMax l d).parts φ) := by
  simp only [body, documents_eq_map, Json.field_eq_present, Json.floatField,
    Json.field?_eq_present, boostField_eq_present, ← Json.present_append]
  rfl

theorem body_functionScore (l : Option Label) (s : FunctionScore Query) :
    (functionScore l s).body φ = present ((functionScore l s).parts φ) := by
  simp only [body, optionDocument_eq_map, functionDocuments_eq_map, Json.field_eq_present,
    Json.field?_eq_present, ScoreOptions.document_eq, ← Json.present_append]
  rfl

theorem body_joining (j : Joining) (q : Query) :
    (joining j q).body φ = present ((joining j q).parts φ) := by
  rw [body, Joining.document_eq]
  rfl

/-- A query without nodes and raw bodies, whose leaves and numbers can be told from the wire. -/
inductive Plain : Query → Prop where
  | leaf {l : Leaf} (plain : l.Plain) : Plain (.leaf l)
  | bool {c : BoolClauses Query} (boost : Written c.boost) (filter : ∀ p ∈ c.filter, Plain p)
      (should : ∀ p ∈ c.should, Plain p) (must : ∀ p ∈ c.must, Plain p)
      (mustNot : ∀ p ∈ c.mustNot, Plain p) : Plain (.bool none c)
  | disMax {d : DisMax Query} (tieBreaker : Written d.tieBreaker) (boost : Written d.boost)
      (queries : ∀ p ∈ d.queries, Plain p) : Plain (.disMax none d)
  | functionScore {s : FunctionScore Query} (options : s.options.Plain)
      (query : ∀ p, s.query = some p → Plain p)
      (scorings : ∀ f ∈ s.functions, f.scoring.Plain)
      (filters : ∀ f ∈ s.functions, ∀ p, f.filter = some p → Plain p) :
      Plain (.functionScore none s)
  | joining {j : Joining} {q : Query} (plain : j.Plain) (inner : Plain q) : Plain (.joining j q)

def form : Query → Nat
  | leaf _ => 0
  | bool .. => 1
  | disMax .. => 2
  | functionScore .. => 3
  | joining .. => 4
  | node .. => 5

def formOf (name : String) : Nat :=
  if name = "bool" then 1 else if name = "dis_max" then 2 else if name = "function_score" then 3
  else if name ∈ ["nested", "has_child", "has_parent"] then 4 else 0

theorem Plain.formOf_name {q : Query} (hq : q.Plain) : formOf q.name = q.form := by
  cases hq with
  | @leaf l hl => cases l with
    | raw => exact hl.elim
    | _ => simp [name, Leaf.name, formOf, form]
  | @joining j => cases j <;> simp [name, Joining.name, formOf, form]
  | _ => simp [name, formOf, form]

theorem rel_of_document {p q : Query} (h : m.Rel (p.document φ) (q.document φ)) :
    p.name = q.name ∧ m.Rel (Json.object (p.body φ)) (.object (q.body φ)) :=
  rel_of_field h

theorem rel_of_documents {ps qs : List Query}
    (ih : ∀ p ∈ ps, ∀ {q : Query}, q.Plain → m.Rel (p.document φ) (q.document φ) → m.Rel p q)
    (hqs : ∀ q ∈ qs, q.Plain) (h : m.Rel (ps.map (document φ)) (qs.map (document φ))) :
    m.Rel ps qs := by
  have hdocuments := rel_list_iff.mp h
  rw [List.forall₂_map_left_iff, List.forall₂_map_right_iff] at hdocuments
  have hpairs := (List.forall₂_and_left _ _).mpr ⟨ih, hdocuments⟩
  have hplain := (List.forall₂_and_left _ _).mpr ⟨hqs, hpairs.flip⟩
  exact rel_list_iff.mpr (hplain.flip.imp fun p q ⟨hq, hp, hpq⟩ => hp hq hpq)

theorem rel_of_optionDocument {p q : Option Query}
    (ih : ∀ p', p = some p' → ∀ {q : Query}, q.Plain →
      m.Rel (p'.document φ) (q.document φ) → m.Rel p' q)
    (hq : ∀ q', q = some q' → q'.Plain)
    (h : m.Rel (p.map (document φ)) (q.map (document φ))) : m.Rel p q :=
  rel_of_map h fun p' q' hp' hq' => ih p' hp' (hq q' hq')

theorem rel_of_functionParts {f g : ScoreFunction Query} (hf : f.scoring.Plain)
    (hg : g.scoring.Plain)
    (ih : ∀ p, f.filter = some p → ∀ {q : Query}, q.Plain →
      m.Rel (p.document φ) (q.document φ) → m.Rel p q)
    (hfilter : ∀ q, g.filter = some q → q.Plain)
    (h : m.Rel (Json.object (present (functionParts φ f)))
      (.object (present (functionParts φ g)))) :
    m.Rel f.scoring g.scoring ∧ m.Rel f.filter g.filter := by
  have hkeys (f : ScoreFunction Query) : Entries.keys (functionParts φ f) =
      ["filter", "weight", "field_value_factor", "script_score", "random_score"] :=
    congrArg ("filter" :: ·) f.scoring.keys_parts
  have hparts := Json.rel_parts h ((hkeys f).trans (hkeys g).symm) (by simp [hkeys])
  obtain ⟨hquery, hscoring⟩ := List.forall₂_cons.mp hparts
  exact ⟨Scoring.rel_of_parts hf hg hscoring, rel_of_optionDocument ih hfilter hquery⟩

theorem rel_of_functionDocuments {fs gs : List (ScoreFunction Query)}
    (hfs : ∀ f ∈ fs, f.scoring.Plain) (hgs : ∀ g ∈ gs, g.scoring.Plain)
    (ih : ∀ f ∈ fs, ∀ p, f.filter = some p → ∀ {q : Query}, q.Plain →
      m.Rel (p.document φ) (q.document φ) → m.Rel p q)
    (hfilters : ∀ g ∈ gs, ∀ q, g.filter = some q → q.Plain)
    (h : m.Rel (fs.map fun f => Json.object (present (functionParts φ f)))
      (gs.map fun g => Json.object (present (functionParts φ g)))) :
    List.Forall₂ (fun f g => m.Rel f.scoring g.scoring ∧ m.Rel f.filter g.filter) fs gs := by
  have hdocuments := rel_list_iff.mp h
  rw [List.forall₂_map_left_iff, List.forall₂_map_right_iff] at hdocuments
  have hpairs := (List.forall₂_and_left _ _).mpr
    ⟨fun f hf => And.intro (hfs f hf) (ih f hf), hdocuments⟩
  have hplain := (List.forall₂_and_left _ _).mpr
    ⟨fun g hg => And.intro (hgs g hg) (hfilters g hg), hpairs.flip⟩
  exact hplain.flip.imp fun f g ⟨⟨hg, hfilter⟩, ⟨hf, ih⟩, hfg⟩ =>
    rel_of_functionParts hf hg ih hfilter hfg

/-! ### Queries -/

theorem rel_bool {c c' : BoolClauses Query} (hfilter : m.Rel c.filter c'.filter)
    (hshould : m.Rel c.should c'.should) (hmust : m.Rel c.must c'.must)
    (hmustNot : m.Rel c.mustNot c'.mustNot)
    (hminimum : m.Rel c.minimumShouldMatch c'.minimumShouldMatch)
    (hboost : m.Rel c.boost c'.boost) : m.Rel (bool none c) (bool none c') := by
  cases c
  cases c'
  cases m with
  | identity => simp_all only [Sameness.Rel]
  | equality =>
      change Query.beq _ _ = true
      simp only [beq, beqAll_eq, Bool.and_eq_true]
      exact ⟨⟨⟨⟨⟨⟨rfl, hfilter⟩, hshould⟩, hmust⟩, hmustNot⟩, hminimum⟩, hboost⟩

theorem rel_disMax {d d' : DisMax Query} (hqueries : m.Rel d.queries d'.queries)
    (htie : m.Rel d.tieBreaker d'.tieBreaker) (hboost : m.Rel d.boost d'.boost) :
    m.Rel (disMax none d) (disMax none d') := by
  cases d
  cases d'
  cases m with
  | identity => simp_all only [Sameness.Rel]
  | equality =>
      change Query.beq _ _ = true
      simp only [beq, beqAll_eq, Bool.and_eq_true]
      exact ⟨⟨⟨rfl, hqueries⟩, htie⟩, hboost⟩

theorem beqFunctions_of_forall₂ {fs gs : List (ScoreFunction Query)}
    (h : List.Forall₂ (fun f g => (f.scoring == g.scoring) = true ∧ (f.filter == g.filter) = true)
      fs gs) : beqFunctions fs gs = true := by
  induction h with
  | nil => rfl
  | @cons f g fs gs hfg _ ih =>
      obtain ⟨s, q⟩ := f
      obtain ⟨s', q'⟩ := g
      simp only [beqFunctions, beqOption_eq, Bool.and_eq_true]
      exact ⟨hfg, ih⟩

theorem rel_functionScore {s s' : FunctionScore Query} (hquery : m.Rel s.query s'.query)
    (hfunctions : List.Forall₂ (fun f g => m.Rel f.scoring g.scoring ∧ m.Rel f.filter g.filter)
      s.functions s'.functions) (hoptions : m.Rel s.options s'.options) :
    m.Rel (functionScore none s) (functionScore none s') := by
  cases s
  cases s'
  cases m with
  | identity =>
      have heach (f g : ScoreFunction Query) (h : f.scoring = g.scoring ∧ f.filter = g.filter) :
          f = g := by
        cases f
        cases g
        simp_all only
      have hfunctions := hfunctions.imp heach
      rw [List.forall₂_eq_eq_eq] at hfunctions
      simp_all only [Sameness.Rel]
  | equality =>
      change Query.beq _ _ = true
      simp only [beq, beqOption_eq, Bool.and_eq_true]
      exact ⟨⟨⟨rfl, hquery⟩, beqFunctions_of_forall₂ hfunctions⟩, hoptions⟩

theorem rel_joining {j j' : Joining} {q q' : Query} (hj : m.Rel j j') (hq : m.Rel q q') :
    m.Rel (joining j q) (joining j' q') :=
  rel_congr₂ (fun _ _ _ _ => rfl) hj hq

/-- Queries that can be told from the wire are the same if their documents are. -/
theorem Plain.rel_of_document {p q : Query} (hp : p.Plain) (hq : q.Plain)
    (h : m.Rel (p.document φ) (q.document φ)) : m.Rel p q := by
  induction p using children_induction generalizing q with
  | step p ih =>
  obtain ⟨hname, hbody⟩ := Query.rel_of_document h
  -- The name gives the constructor, and the parts of the body everything under it.
  have hform : p.form = q.form := by rw [← hp.formOf_name, ← hq.formOf_name, hname]
  cases hp with
  | leaf hl => cases hq with
    | leaf hl' => exact rel_congr (fun _ _ => rfl) (Leaf.rel_of_body hl hl' hname hbody)
    | _ => cases hform
  | @bool c hboost hfilter hshould hmust hmustNot => cases hq with
    | bool hboost' hfilter' hshould' hmust' hmustNot' =>
        simp only [children, List.mem_append] at ih
        rw [body_bool, body_bool] at hbody
        have hparts := Json.rel_parts hbody rfl (by simp [Entries.keys, parts, boostPart])
        simp only [parts, boostPart, List.forall₂_cons] at hparts
        obtain ⟨hminimum, hf, hs, hm, hn, hb, -⟩ := hparts
        have hf := rel_of_documents (fun p hp => ih p (by simp [hp]) (hfilter p hp)) hfilter'
          (rel_of_listPart hf)
        have hs := rel_of_documents (fun p hp => ih p (by simp [hp]) (hshould p hp)) hshould'
          (rel_of_listPart hs)
        have hm := rel_of_documents (fun p hp => ih p (by simp [hp]) (hmust p hp)) hmust'
          (rel_of_listPart hm)
        have hn := rel_of_documents (fun p hp => ih p (by simp [hp]) (hmustNot p hp)) hmustNot'
          (rel_of_listPart hn)
        exact rel_bool hf hs hm hn hminimum (rel_of_floats hboost hboost' hb)
    | _ => cases hform
  | disMax htie hboost hqueries => cases hq with
    | disMax htie' hboost' hqueries' =>
        rw [body_disMax, body_disMax] at hbody
        have hparts := Json.rel_parts hbody rfl (by simp [Entries.keys, parts, boostPart])
        simp only [parts, boostPart, List.forall₂_cons] at hparts
        obtain ⟨hq, ht, hb, -⟩ := hparts
        have hq := rel_of_documents (fun p hp => ih p hp (hqueries p hp)) hqueries'
          (Json.rel_array.mp (rel_some.mp hq))
        exact rel_disMax hq (rel_of_floats htie htie' ht) (rel_of_floats hboost hboost' hb)
    | _ => cases hform
  | @functionScore s hoptions hquery hscorings hfilters => cases hq with
    | functionScore hoptions' hquery' hscorings' hfilters' =>
        simp only [children, List.mem_append, Option.mem_toList, List.mem_filterMap] at ih
        rw [body_functionScore, body_functionScore] at hbody
        have hparts := Json.rel_parts hbody rfl
          (by simp [Entries.keys, parts, ScoreOptions.parts, boostPart])
        simp only [parts, ScoreOptions.parts, List.cons_append, List.nil_append,
          List.forall₂_cons] at hparts
        obtain ⟨hq, hb, hscore, hmode, hmin, hfs, -⟩ := hparts
        have hq := rel_of_optionDocument (fun p hp => ih p (.inl hp) (hquery p hp)) hquery' hq
        have hfs := rel_of_functionDocuments hscorings hscorings'
          (fun f hf p hp => ih p (.inr ⟨f, hf, hp⟩) (hfilters f hf p hp)) hfilters'
          (Json.rel_array.mp (rel_some.mp hfs))
        have hoptions := ScoreOptions.rel_of_parts hoptions hoptions'
          (.cons hb (.cons hscore (.cons hmode (.cons hmin .nil))))
        exact rel_functionScore hq hfs hoptions
    | _ => cases hform
  | joining hj hinner => cases hq with
    | joining hj' hinner' =>
        rw [body_joining, body_joining] at hbody
        obtain ⟨hj, hdocument⟩ := Joining.rel_of_parts hj hj' hname hbody
        exact rel_joining hj (ih _ (.head _) hinner hinner' hdocument)
    | _ => cases hform

/--
A query can be told from its document: documents are equal only for equal
queries, and identical only for identical ones.
-/
theorem document_injective (φ : Features) {p q : Query} (hp : p.Plain) (hq : q.Plain) :
    ((p.document φ == q.document φ) = true → (p == q) = true) ∧
      (p.document φ = q.document φ → p = q) :=
  ⟨fun h => hp.rel_of_document hq (m := .equality) h,
    fun h => hp.rel_of_document hq (m := .identity) h⟩

/-- Two orders of the same parameters of a script, below a join, are no difference. -/
theorem document_injective_reordered :
    let scored (params : Object) : Query := .joining (.nested "comments" none (some true) none)
      (.functionScore none
        { query := some (.leaf (.term "lang" (.string "en") none))
          functions :=
            [{ scoring := .script (.inline "_score" none params), filter := some matchAll }] })
    let p := scored [("a", .int 1), ("b", .int 2)]
    let q := scored [("b", .int 2), ("a", .int 1)]
    p.Plain ∧ q.Plain ∧ (p.document .untyped == q.document .untyped) = true ∧ (p == q) = true := by
  intro scored p q
  have hnone : Written none := by rintro a ⟨⟩
  have hplain (params : Object) : (scored params).Plain := by
    refine .joining hnone (.functionScore ⟨hnone, hnone⟩ ?_ ?_ ?_)
    · rintro _ ⟨⟩
      exact .leaf ⟨Json.bare_string _, hnone⟩
    · intro f hf
      rw [List.mem_singleton.mp hf]
      exact trivial
    · intro f hf
      rw [List.mem_singleton.mp hf]
      rintro _ ⟨⟩
      exact .leaf hnone
  have hdocument : (p.document .untyped == q.document .untyped) = true := by rfl
  have heq := (document_injective .untyped (hplain _) (hplain _)).1 hdocument
  exact ⟨hplain _, hplain _, hdocument, heq⟩

end Query

end SearchClient
