import SearchClient.Search.Body

/-!
# Encoders and the engine

What writes queries, sort keys, rescorers and aggregations is handed the
features of the engine and hands them on to what writes their parts.  No encoder
looks at them, so all of this is written alike for any two engines.
-/

namespace SearchClient

variable {δ : Type}

namespace Query

mutual

theorem body_indep (f g : Features) : ∀ q : Query, q.body f = q.body g
  | leaf _ => rfl
  | bool _ ⟨filter, should, must, mustNot, _, _⟩ => by
      rw [body, body, documents_indep f g filter, documents_indep f g should,
        documents_indep f g must, documents_indep f g mustNot]
  | disMax _ ⟨qs, _, _⟩ => by rw [body, body, documents_indep f g qs]
  | functionScore _ ⟨q, fs, _⟩ => by
      rw [body, body, optionDocument_indep f g q, functionDocuments_indep f g fs]
  | joining _ q => by rw [body, body, body_indep f g q]
  | node _ q => body_indep f g q
termination_by structural q => q

theorem documents_indep (f g : Features) : ∀ qs : List Query, documents f qs = documents g qs
  | [] => rfl
  | q :: qs => by rw [documents, documents, body_indep f g q, documents_indep f g qs]
termination_by structural qs => qs

theorem optionDocument_indep (f g : Features) :
    ∀ q : Option Query, optionDocument f q = optionDocument g q
  | none => rfl
  | some q => by rw [optionDocument, optionDocument, body_indep f g q]
termination_by structural q => q

theorem functionDocuments_indep (f g : Features) :
    ∀ fs : List (ScoreFunction Query), functionDocuments f fs = functionDocuments g fs
  | [] => rfl
  | ⟨_, q⟩ :: rest => by
      rw [functionDocuments, functionDocuments, optionDocument_indep f g q,
        functionDocuments_indep f g rest]
termination_by structural fs => fs

end

theorem fields_indep (f g : Features) (q : Query) : q.fields f = q.fields g := by
  rw [fields, fields, body_indep f g]

theorem document_indep (f g : Features) : document f = document g := by
  funext q
  rw [document, document, fields_indep f g]

end Query

theorem reducedField_indep (f g : Features) (name : String) (q : Option Query) :
    reducedField f name q = reducedField g name q := by
  rw [reducedField, reducedField, Query.document_indep f g]

theorem nestedDocument?_indep (f g : Features) (levels : List NestedLevel) :
    nestedDocument? f levels = nestedDocument? g levels := by
  induction levels with
  | nil => rfl
  | cons level inner ih =>
      rw [nestedDocument?, nestedDocument?, reducedField_indep f g, ih]

theorem SortKey.document_indep (f g : Features) : document f = document g := by
  funext s
  have hoptions : s.options f = s.options g := by
    rw [options, options, nestedDocument?_indep f g]
  simp only [document, hoptions]

theorem Rescore.document_indep (f g : Features) : document f = document g := by
  funext r
  rw [document, document, Query.fields_indep f g]

theorem Metric.body_indep (f g : Features) (m : Metric δ) : m.body f = m.body g := by
  cases m with
  | topHits t => rw [body, body, SortKey.document_indep f g]
  | _ => rfl

theorem FilterSet.document_indep (f g : Features) (set : FilterSet) :
    set.document f = set.document g := by
  have hreduced : reducedDocument f = reducedDocument g := by
    funext q
    rw [reducedDocument, reducedDocument, Query.document_indep f g]
  cases set with
  | named filters => rw [document, document, hreduced]
  | anonymous filters => rw [document, document, hreduced]

theorem Bucketing.body_indep (f g : Features) (b : Bucketing) : b.body f = b.body g := by
  cases b with
  | significantTerms value size minDocCount background =>
      rw [body, body, reducedField_indep f g]
  | filter q => rw [body, body, Query.fields_indep f g]
  | filters set otherKey => rw [body, body, set.document_indep f g]
  | _ => rfl

namespace Agg

mutual

theorem document_indep (f g : Features) : ∀ agg : Agg δ, agg.document f = agg.document g
  | metric m => by rw [document, document, m.body_indep f g]
  | buckets b subs => by
      rw [document, document, b.body_indep f g, documents_indep f g subs]
termination_by structural agg => agg

theorem documents_indep (f g : Features) :
    ∀ aggs : List (String × Agg δ), documents f aggs = documents g aggs
  | [] => rfl
  | (_, agg) :: rest => by
      rw [documents, documents, document_indep f g agg, documents_indep f g rest]
termination_by structural aggs => aggs

end

end Agg

namespace Search

theorem queryField_indep (f g : Features) (s : Search δ) : s.queryField f = s.queryField g := by
  rw [queryField, queryField, Query.document_indep f g]

theorem countBody_indep (f g : Features) (s : Search δ) : s.countBody f = s.countBody g := by
  rw [countBody, countBody, s.queryField_indep f g]

end Search

end SearchClient
