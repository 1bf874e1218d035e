import SearchClient.Proofs.Query.Erasure
import SearchClient.Search.Result

/-!
# Queries in the slots of a search

A search holds queries as its main query and filters, in its rescorers, under
its sort keys and in its aggregations.  Every slot is written from the
reduction of its query, so queries that reduce alike can be exchanged in all
slots at once; among them are a query and its erasure.
-/

namespace SearchClient

section Exchange

variable {δ : Type} (f : Query → Query)

def NestedLevel.mapQuery (level : NestedLevel) : NestedLevel :=
  { level with filter := level.filter.map f }

def SortKey.mapQuery (s : SortKey) : SortKey :=
  { s with nested := s.nested.map (NestedLevel.mapQuery f) }

def Rescore.mapQuery (r : Rescore) : Rescore := { r with query := f r.query }

def Metric.mapQuery : Metric δ → Metric δ
  | topHits t => topHits { t with sort := t.sort.map (SortKey.mapQuery f) }
  | m => m

def FilterSet.mapQuery : FilterSet → FilterSet
  | named filters => named (filters.map fun (name, q) => (name, f q))
  | anonymous filters => anonymous (filters.map f)

def Bucketing.mapQuery : Bucketing → Bucketing
  | significantTerms value size minDocCount background =>
      significantTerms value size minDocCount (background.map f)
  | filter q => filter (f q)
  | filters set otherKey => filters (set.mapQuery f) otherKey
  | b => b

mutual

def Agg.mapQuery : Agg δ → Agg δ
  | .metric m => .metric (m.mapQuery f)
  | .buckets b subs => .buckets (b.mapQuery f) (Agg.mapQueries subs)
termination_by structural agg => agg

def Agg.mapQueries : List (String × Agg δ) → List (String × Agg δ)
  | [] => []
  | (name, agg) :: rest => (name, Agg.mapQuery agg) :: Agg.mapQueries rest
termination_by structural aggs => aggs

end

def Search.mapQuery (s : Search δ) : Search δ :=
  { s with
    query := s.query.map f
    filters := s.filters.map f
    postFilters := s.postFilters.map f
    aggs := Agg.mapQueries f s.aggs
    rescores := s.rescores.map (Rescore.mapQuery f)
    sort := s.sort.map (SortKey.mapQuery f) }

end Exchange

/-! ## Queries that reduce alike -/

def KeepsReduction (f : Query → Query) : Prop := ∀ q, (f q).reduce = q.reduce

section Reduction

variable {δ : Type} {f : Query → Query} {φ : Features}

theorem reducedField_map (hf : KeepsReduction f) (name : String) (q : Option Query) :
    reducedField φ name (q.map f) = reducedField φ name q := by
  cases q with
  | none => rfl
  | some q => simp [reducedField, hf q]

theorem KeepsReduction.reduceOrAll (hf : KeepsReduction f) (q : Query) :
    (f q).reduceOrAll = q.reduceOrAll := by
  rw [Query.reduceOrAll, hf q, Query.reduceOrAll]

theorem nestedDocument?_mapQuery (hf : KeepsReduction f) (levels : List NestedLevel) :
    nestedDocument? φ (levels.map (NestedLevel.mapQuery f)) = nestedDocument? φ levels := by
  induction levels with
  | nil => rfl
  | cons level inner ih =>
      simp only [List.map_cons, nestedDocument?, ih, NestedLevel.mapQuery, reducedField_map hf]

theorem SortKey.document_mapQuery (hf : KeepsReduction f) (s : SortKey) :
    (s.mapQuery f).document φ = s.document φ := by
  have hoptions : (s.mapQuery f).options φ = s.options φ := by
    simp only [SortKey.options, SortKey.mapQuery, nestedDocument?_mapQuery hf]
  simp only [SortKey.document, hoptions]
  rfl

theorem SortKey.map_document_mapQuery (hf : KeepsReduction f) (keys : List SortKey) :
    (keys.map (SortKey.mapQuery f)).map (SortKey.document φ) = keys.map (SortKey.document φ) := by
  rw [List.map_map]
  exact List.map_congr_left fun s _ => s.document_mapQuery hf

theorem Rescore.document_mapQuery (hf : KeepsReduction f) (r : Rescore) :
    (r.mapQuery f).document φ = r.document φ := by
  simp only [Rescore.document, Rescore.mapQuery, hf.reduceOrAll]

theorem Metric.name_mapQuery (m : Metric δ) : (m.mapQuery f).name = m.name := by
  cases m <;> rfl

theorem Metric.body_mapQuery (hf : KeepsReduction f) (m : Metric δ) :
    (m.mapQuery f).body φ = m.body φ := by
  cases m with
  | topHits t => simp only [Metric.mapQuery, Metric.body, SortKey.map_document_mapQuery hf]
  | _ => rfl

theorem FilterSet.document_mapQuery (hf : KeepsReduction f) (set : FilterSet) :
    (set.mapQuery f).document φ = set.document φ := by
  have hreduced : ∀ q, reducedDocument φ (f q) = reducedDocument φ q := fun q => by
    rw [reducedDocument, hf.reduceOrAll, reducedDocument]
  cases set with
  | named filters =>
      simp only [FilterSet.mapQuery, FilterSet.document, List.map_map, Function.comp_def, hreduced]
  | anonymous filters =>
      simp only [FilterSet.mapQuery, FilterSet.document, List.map_map, Function.comp_def, hreduced]

theorem Bucketing.name_mapQuery (b : Bucketing) : (b.mapQuery f).name = b.name := by
  cases b <;> rfl

theorem Bucketing.body_mapQuery (hf : KeepsReduction f) (b : Bucketing) :
    (b.mapQuery f).body φ = b.body φ := by
  cases b with
  | significantTerms value size minDocCount background =>
      simp only [Bucketing.mapQuery, Bucketing.body, reducedField_map hf]
  | filter q => simp only [Bucketing.mapQuery, Bucketing.body, hf.reduceOrAll]
  | filters set otherKey =>
      simp only [Bucketing.mapQuery, Bucketing.body, set.document_mapQuery hf]
  | _ => rfl

mutual

theorem Agg.document_mapQuery (hf : KeepsReduction f) :
    ∀ agg : Agg δ, (agg.mapQuery f).document φ = agg.document φ
  | .metric m => by
      simp only [Agg.mapQuery, Agg.document, m.name_mapQuery, m.body_mapQuery hf]
  | .buckets b subs => by
      simp only [Agg.mapQuery, Agg.document, b.name_mapQuery, b.body_mapQuery hf,
        Agg.documents_mapQueries hf subs]

theorem Agg.documents_mapQueries (hf : KeepsReduction f) :
    ∀ aggs : List (String × Agg δ),
      Agg.documents φ (Agg.mapQueries f aggs) = Agg.documents φ aggs
  | [] => rfl
  | (name, agg) :: rest => by
      simp only [Agg.mapQueries, Agg.documents, Agg.document_mapQuery hf agg,
        Agg.documents_mapQueries hf rest]

end

theorem reduce_clauses_map (hf : KeepsReduction f) (must filters : List Query) :
    (Query.bool none { must, filter := filters.map f }).reduce =
      (Query.bool none { must, filter := filters }).reduce := by
  simp only [Query.reduce, Query.reduceAll_map fun q _ => hf q]

namespace Search

theorem filteredQuery_mapQuery (hf : KeepsReduction f) (s : Search δ) :
    (s.mapQuery f).filteredQuery = s.filteredQuery := by
  have hquery : (s.query.map f >>= Query.reduce) = s.query >>= Query.reduce := by
    cases s.query with
    | none => rfl
    | some q => exact hf q
  unfold filteredQuery
  simp only [mapQuery, hquery]
  match s.query >>= Query.reduce, s.filters with
  | _, [] => rfl
  | none, [single] => exact hf single
  | some q, [single] => exact reduce_clauses_map hf [q] [single]
  | q, a :: b :: rest => cases q <;> exact reduce_clauses_map hf _ (a :: b :: rest)

theorem postFilter_mapQuery (hf : KeepsReduction f) (s : Search δ) :
    (s.mapQuery f).postFilter = s.postFilter := by
  unfold postFilter
  simp only [mapQuery]
  match s.postFilters with
  | [] => rfl
  | [single] => exact hf single
  | a :: b :: rest => exact reduce_clauses_map hf [] (a :: b :: rest)

theorem countBody_mapQuery (hf : KeepsReduction f) (φ : Features) (s : Search δ) :
    (s.mapQuery f).countBody φ = s.countBody φ := by
  rw [countBody, queryField, filteredQuery_mapQuery hf, countBody, queryField]

theorem body_mapQuery (hf : KeepsReduction f) (φ : Features) (s : Search δ) :
    (s.mapQuery f).body φ = s.body φ := by
  have haggs : Agg.documents φ (s.mapQuery f).aggs = Agg.documents φ s.aggs :=
    Agg.documents_mapQueries hf s.aggs
  have hrescores : (s.mapQuery f).rescores.map (Rescore.document φ) =
      s.rescores.map (Rescore.document φ) := by
    simp only [mapQuery, List.map_map]
    exact List.map_congr_left fun r _ => r.document_mapQuery hf
  have hsort : (s.mapQuery f).sort.map (SortKey.document φ) =
      s.sort.map (SortKey.document φ) :=
    SortKey.map_document_mapQuery hf s.sort
  rw [body, queryField, filteredQuery_mapQuery hf, postFilter_mapQuery hf, haggs, hrescores, hsort]
  rfl

/-- The search with the plain query of its value for every node, in every slot. -/
def erase (s : Search δ) : Search δ := s.mapQuery Query.erase

theorem body_erase (φ : Features) (s : Search δ) :
    s.erase.body φ = s.body φ :=
  body_mapQuery Query.reduce_erase φ s

theorem countBody_erase (φ : Features) (s : Search δ) : s.erase.countBody φ = s.countBody φ :=
  countBody_mapQuery Query.reduce_erase φ s

theorem lines_erase (φ : Features) (searches : List (String × Search δ)) :
    (multiRequest φ (searches.map (Prod.map id erase))).body =
      (multiRequest φ searches).body := by
  -- besides its body, a search gives a line its parameters, which erasure does not touch
  have hlines : ∀ pair : String × Search δ,
      [header pair.1 pair.2.erase.params, pair.2.erase.body φ] =
        [header pair.1 pair.2.params, pair.2.body φ] := fun pair => by
    rw [body_erase]
    rfl
  simp only [multiRequest, List.flatMap_map, Prod.map, id_eq, hlines]

end Search

end Reduction

/--
The erasure of a query has the plain query of its value in the place of every
node, and the name, the wire form and the reduction of the query itself.  So
searches with the same erasure, whatever labels there are in which slots, have
the same body, the same count body and the same lines among several searches.
-/
theorem Search.nodes_leave_no_trace (δ : Type) :
    (∀ q : Query,
      (q.erase.nodes = [] ∧ (∀ n, q.node? = some n → q.erase = n.valueQuery.erase) ∧
        (q.node? = none → q.erase = q.mapChildren Query.erase)) ∧
      q.erase.name = q.name ∧ (∀ φ, q.erase.document φ = q.document φ) ∧
        q.erase.reduce = q.reduce) ∧
    (∀ (φ : Features) (s t : Search δ), s.erase = t.erase →
      s.body φ = t.body φ ∧ s.countBody φ = t.countBody φ) ∧
    (∀ (φ : Features) (ss ts : List (String × Search δ)),
      ss.map (Prod.map id erase) = ts.map (Prod.map id erase) →
      (multiRequest φ ss).body = (multiRequest φ ts).body) := by
  refine ⟨fun q => ⟨⟨q.nodes_erase, fun n => Query.erase_of_node?, Query.erase_of_node?_eq_none⟩,
    q.name_erase, fun φ => congrArg Json.object (q.fields_erase φ),
    q.reduce_erase⟩, ?_, ?_⟩
  · intro φ s t h
    rw [← body_erase φ s, ← countBody_erase φ s, h, body_erase, countBody_erase]
    exact ⟨rfl, rfl⟩
  · intro φ ss ts h
    rw [← lines_erase φ ss, h, lines_erase]

theorem Search.nodes_leave_no_trace_every_slot :
    let plain : Query := .bool none { mustNot := [.leaf (.hasField "lang" none)] }
    let inner : Query := .bool (some ⟨1, "part"⟩) { mustNot := [.leaf (.hasField "lang" none)] }
    let marked : Query := .node ⟨2, "part"⟩ inner
    let search (q : Query) : Search Json :=
      { query := some q, filters := [q], postFilters := [q], rescores := [{ query := q }]
        sort := [{ target := .score, nested := [{ path := "tags", filter := some q }] }]
        aggs := [("all", .buckets .all [("part", .buckets (.filter q) [])])], doc := .raw }
    plain.erase = plain ∧ marked.erase = plain ∧
      (search marked).erase = (search plain).erase ∧
      (∀ φ, (search marked).body φ = (search plain).body φ) ∧
      (∀ φ, (multiRequest φ [("posts", search marked)]).body =
        (multiRequest φ [("posts", search plain)]).body) := by
  intro plain inner marked search
  obtain ⟨hquery, hsearch, hlines⟩ := nodes_leave_no_trace Json
  have hplain : plain.erase = plain := (hquery plain).1.2.2 rfl
  have hmarked : marked.erase = plain := (hquery marked).1.2.1 ⟨⟨.query, ⟨2, "part"⟩⟩, inner⟩ rfl
  have herase : (search marked).erase = (search plain).erase := rfl
  refine ⟨hplain, hmarked, herase, fun φ => (hsearch φ _ _ herase).1,
    fun φ => ?_⟩
  exact hlines φ _ _ (congrArg (fun s => [("posts", s)]) herase)

end SearchClient
