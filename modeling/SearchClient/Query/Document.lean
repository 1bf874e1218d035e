import SearchClient.Query.Basic

/-!
# The wire form of queries

A query is written as an object with one field: its name, over its body.
Labels are not written, and a node is written as its value.
-/

namespace SearchClient

open Json (Object field field? natField boolField stringField floatField objectUnder listField)

def ScoreOptions.document (o : ScoreOptions) : Object :=
  boostField o.boost ++ stringField "score_mode" (o.scoreMode.map (·.text)) ++
    stringField "boost_mode" (o.boostMode.map (·.text)) ++
    floatField "min_score" o.minScore

def Scoring.document : Scoring → Object
  | weight w => field "weight" w
  | fieldValue name factor modifier missing =>
      objectUnder "field_value_factor"
        (field "field" name ++ floatField "factor" factor ++
          stringField "modifier" (modifier.map (·.text)) ++
          floatField "missing" missing)
  | script s => objectUnder "script_score" (objectUnder "script" s.document)
  | random seed name =>
      objectUnder "random_score"
        (field? "seed" seed ++ stringField "field" name)

namespace Joining

def name : Joining → String
  | nested .. => "nested"
  | hasChild .. => "has_child"
  | hasParent .. => "has_parent"

def relation : Joining → Object
  | nested path .. => field "path" path
  | hasChild type .. => field "type" type
  | hasParent type .. => field "parent_type" type

def options : Joining → Object
  | nested _ scoreMode ignoreUnmapped boost =>
      stringField "score_mode" (scoreMode.map (·.text)) ++
        boolField "ignore_unmapped" ignoreUnmapped ++ boostField boost
  | hasChild _ scoreMode minChildren maxChildren boost =>
      stringField "score_mode" (scoreMode.map (·.text)) ++
        natField "min_children" minChildren ++
        natField "max_children" maxChildren ++ boostField boost
  | hasParent _ score boost => boolField "score" score ++ boostField boost

end Joining

namespace Query

def name : Query → String
  | leaf l => l.name
  | bool .. => "bool"
  | disMax .. => "dis_max"
  | functionScore .. => "function_score"
  | joining j _ => j.name
  | node _ value => value.name

mutual

def body (f : Features) : Query → Object
  | leaf l => l.body f
  | bool _ ⟨fs, s, m, n, msm, b⟩ =>
      field? "minimum_should_match" msm ++ listField "filter" (documents f fs) ++
        listField "should" (documents f s) ++ listField "must" (documents f m) ++
        listField "must_not" (documents f n) ++ boostField b
  | disMax _ ⟨qs, t, b⟩ =>
      field "queries" (.array (documents f qs)) ++ floatField "tie_breaker" t ++
        boostField b
  | functionScore _ ⟨q, fs, o⟩ =>
      field? "query" (optionDocument f q) ++ o.document ++
        field "functions" (.array (functionDocuments f fs))
  | joining j q => j.relation ++ objectUnder "query" (objectUnder q.name (q.body f)) ++ j.options
  | node _ q => q.body f
termination_by structural q => q

def documents (f : Features) : List Query → List Json
  | [] => []
  | q :: qs => .object (objectUnder q.name (q.body f)) :: documents f qs
termination_by structural qs => qs

def optionDocument (f : Features) : Option Query → Option Json
  | none => none
  | some q => some (.object (objectUnder q.name (q.body f)))
termination_by structural q => q

def functionDocuments (f : Features) : List (ScoreFunction Query) → List Json
  | [] => []
  | ⟨s, q⟩ :: rest =>
      .object (field? "filter" (optionDocument f q) ++ s.document) :: functionDocuments f rest
termination_by structural fs => fs

end

def fields (f : Features) (q : Query) : Object := objectUnder q.name (q.body f)

def document (f : Features) (q : Query) : Json := .object (q.fields f)

theorem documents_eq_map (f : Features) (qs : List Query) :
    documents f qs = qs.map (document f) := by
  induction qs with
  | nil => rfl
  | cons q qs ih => simp [documents, document, fields, ih]

end Query

end SearchClient
