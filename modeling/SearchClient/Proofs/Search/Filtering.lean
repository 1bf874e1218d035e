import SearchClient.Proofs.Query.NormalForm
import SearchClient.Proofs.Search.Parts
import SearchClient.Proofs.Search.Several

/-!
# Queries under filters

The main query and the filters of a search are one query on the wire, and so are
the filters of its hits.  Which query that is depends on the reductions of the
parts alone, but for one thing: a filter that was added alone is the query
itself, while one that is left of several stands in clauses of its own.
-/

namespace SearchClient

open Json (Object present)

namespace Query

/-- A reduced query under filters that may not be reduced yet. -/
def combined (query : Option Query) (filters : List Query) : Option Query :=
  match query, filters with
  | query, [] => query
  | none, [single] => single.reduce
  | query, filters => (bool none { must := query.toList, filter := filters }).reduce

def restricted (query : Option Query) : List Query → Option Query
  | [] => query
  | filters => some (bool none { filter := filters, must := query.toList })

/-- A filter that says something was added alone, to no query. -/
def LoneFilter (query : Option Query) (filters : List Query) (r : Query) : Prop :=
  query = none ∧ ∃ single, filters = [single] ∧ single.reduce = some r

section

variable {query : Option Query} {filters : List Query}

theorem ofClauses?_restricted (query : Option Query) (filters : List Query) :
    ofClauses? { filter := filters, must := query.toList } = restricted query filters := by
  cases filters with
  | nil => cases query <;> rfl
  | cons filter filters => rfl

theorem restricted_eq_none_iff : restricted query filters = none ↔ query = none ∧ filters = [] := by
  cases filters with
  | nil => simp [restricted]
  | cons filter filters => simp [restricted]

theorem reduce_clauses (hquery : ∀ q ∈ query, q.reduce = some q) :
    (bool none { must := query.toList, filter := filters }).reduce =
      restricted query (reduceAll filters) := by
  have hmust : reduceAll query.toList = query.toList :=
    reduceAll_of_fixed fun q hq => hquery q (Option.mem_toList.mp hq)
  rw [reduce, hmust]
  exact ofClauses?_restricted query (reduceAll filters)

theorem combined_eq_restricted (hquery : ∀ q ∈ query, q.reduce = some q)
    (hmany : ¬ (query = none ∧ filters.length = 1)) :
    combined query filters = restricted query (reduceAll filters) := by
  unfold combined
  split
  · rfl
  · exact absurd ⟨rfl, rfl⟩ hmany
  · exact reduce_clauses hquery

theorem combined_eq_none_iff (hquery : ∀ q ∈ query, q.reduce = some q) :
    combined query filters = none ↔ query = none ∧ reduceAll filters = [] := by
  by_cases hlone : query = none ∧ filters.length = 1
  · obtain ⟨rfl, hlength⟩ := hlone
    obtain ⟨single, rfl⟩ := List.length_eq_one_iff.mp hlength
    simp [combined, reduceAll_eq_filterMap]
  · rw [combined_eq_restricted hquery hlone, restricted_eq_none_iff]

theorem combined_of_reduceAll_eq_nil (hquery : ∀ q ∈ query, q.reduce = some q)
    (hnone : reduceAll filters = []) : combined query filters = query := by
  cases query with
  | none => exact (combined_eq_none_iff hquery).mpr ⟨rfl, hnone⟩
  | some q => rw [combined_eq_restricted hquery (by simp), hnone, restricted]

theorem reduceAll_insert {e : Query} (he : e.reduce = none) (before after : List Query) :
    reduceAll (before ++ e :: after) = reduceAll (before ++ after) := by
  rw [reduceAll_append, reduceAll_append, reduceAll, he]

theorem combined_of_loneFilter {r : Query} (h : LoneFilter query filters r) :
    combined query filters = some r := by
  obtain ⟨rfl, single, rfl, hr⟩ := h
  exact hr

variable {e : Query} {before after : List Query}

/-- Beside a filter that says nothing, a lone filter is put under clauses. -/
theorem combined_insert_of_loneFilter (he : e.reduce = none) {r : Query}
    (h : LoneFilter query (before ++ after) r) :
    combined query (before ++ e :: after) = some (bool none { filter := [r] }) := by
  obtain ⟨rfl, single, hsingle, hr⟩ := h
  have hlength : (before ++ e :: after).length = 2 := by
    have := congrArg List.length hsingle
    simp only [List.length_append, List.length_cons, List.length_nil] at this ⊢
    omega
  rw [combined_eq_restricted (by simp) (by omega), reduceAll_insert he, hsingle, reduceAll, hr]
  rfl

theorem combined_insert (hquery : ∀ q ∈ query, q.reduce = some q) (he : e.reduce = none)
    (h : ∀ r, ¬ LoneFilter query (before ++ after) r) :
    combined query (before ++ e :: after) = combined query (before ++ after) := by
  by_cases hnone : reduceAll (before ++ after) = []
  · rw [combined_of_reduceAll_eq_nil hquery hnone,
      combined_of_reduceAll_eq_nil hquery ((reduceAll_insert he before after).trans hnone)]
  · have hmany : ¬ (query = none ∧ (before ++ after).length = 1) := by
      rintro ⟨hquery, hlength⟩
      obtain ⟨single, hsingle⟩ := List.length_eq_one_iff.mp hlength
      rw [hsingle] at h hnone
      cases hr : single.reduce with
      | none => exact hnone (by rw [reduceAll, hr]; rfl)
      | some r => exact h r ⟨hquery, single, rfl, hr⟩
    have hmany' : ¬ (query = none ∧ (before ++ e :: after).length = 1) := by
      rintro ⟨-, hlength⟩
      have hempty : before ++ after = [] := by
        rw [← List.length_eq_zero_iff]
        simp only [List.length_append, List.length_cons] at hlength ⊢
        omega
      rw [hempty] at hnone
      exact hnone rfl
    rw [combined_eq_restricted hquery hmany, combined_eq_restricted hquery hmany',
      reduceAll_insert he]

theorem document_filter_ne (f : Features) (r : Query) :
    (bool none { filter := [r] }).document f ≠ r.document f := by
  intro h
  have hclauses : (bool none { filter := [r] }).document f =
      .object [("bool", .object [("filter", .array [r.document f])])] := rfl
  have hsize := congrArg sizeOf (hclauses.symm.trans h)
  simp only [Json.object.sizeOf_spec, List.cons.sizeOf_spec, Prod.mk.sizeOf_spec,
    Json.array.sizeOf_spec] at hsize
  omega

end

end Query

namespace Search

open Query (LoneFilter combined matchAll reduceAll)

variable {δ : Type}

/-! ## The combinations of a search -/

theorem filteredQuery_eq (s : Search δ) :
    s.filteredQuery = combined (s.query >>= Query.reduce) s.filters := rfl

theorem postFilter_eq (s : Search δ) : s.postFilter = combined none s.postFilters := by
  unfold postFilter
  match s.postFilters with
  | [] => rfl
  | [_] => rfl
  | _ :: _ :: _ => rfl

theorem reduce_of_mem_query (s : Search δ) :
    ∀ q ∈ s.query >>= Query.reduce, q.reduce = some q := by
  intro r hr
  obtain ⟨q, -, hq⟩ := Option.bind_eq_some_iff.mp hr
  exact Query.reduce_of_normal (Query.normal_of_reduce hq)

section

variable {s : Search δ} {r : Query}

theorem body_of_filteredQuery (f : Features) (h : s.filteredQuery = some r) :
    s.body f = .object (("query", r.document f) :: present (s.parts f).tail) := by
  rw [body_eq, parts, h]
  rfl

theorem countBody_of_filteredQuery (f : Features) (h : s.filteredQuery = some r) :
    s.countBody f = .object [("query", r.document f)] := by
  rw [countBody, queryField, h]
  rfl

theorem body_of_postFilter (f : Features) (h : s.postFilter = some r) :
    s.body f =
      .object
        (s.queryField f ++ ("post_filter", r.document f) :: present ((s.parts f).drop 2)) := by
  rw [body_eq, queryField, Json.field?_eq_present, parts, h]
  exact congrArg Json.object (Json.present_append [_] (_ :: _))

theorem bodies_ne {t : Search δ} (f : Features) (hs : s.filteredQuery = some r)
    (ht : t.filteredQuery = some (.bool none { filter := [r] })) :
    t.body f ≠ s.body f ∧ t.countBody f ≠ s.countBody f := by
  rw [body_of_filteredQuery f hs, body_of_filteredQuery f ht, countBody_of_filteredQuery f hs,
    countBody_of_filteredQuery f ht]
  simp [Query.document_filter_ne]

end

section

variable {s : Search δ} {e : Query} {before after : List Query}

theorem filteredQuery_insert (he : e.reduce = none) (hfilters : s.filters = before ++ after)
    (hmany : ∀ r, ¬ LoneFilter (s.query >>= Query.reduce) s.filters r) :
    ({ s with filters := before ++ e :: after }).filteredQuery = s.filteredQuery := by
  rw [filteredQuery_eq, filteredQuery_eq, hfilters]
  exact Query.combined_insert s.reduce_of_mem_query he (hfilters ▸ hmany)

theorem filteredQuery_insert_of_loneFilter (he : e.reduce = none)
    (hfilters : s.filters = before ++ after) {r : Query}
    (hlone : LoneFilter (s.query >>= Query.reduce) s.filters r) :
    s.filteredQuery = some r ∧
      ({ s with filters := before ++ e :: after }).filteredQuery =
        some (.bool none { filter := [r] }) :=
  ⟨Query.combined_of_loneFilter hlone,
    Query.combined_insert_of_loneFilter he (hfilters ▸ hlone)⟩

theorem postFilter_insert (he : e.reduce = none) (hfilters : s.postFilters = before ++ after)
    (hmany : ∀ r, ¬ LoneFilter none s.postFilters r) :
    ({ s with postFilters := before ++ e :: after }).postFilter = s.postFilter := by
  rw [postFilter_eq, postFilter_eq, hfilters]
  exact Query.combined_insert (by simp) he (hfilters ▸ hmany)

theorem postFilter_insert_of_loneFilter (he : e.reduce = none)
    (hfilters : s.postFilters = before ++ after) {r : Query}
    (hlone : LoneFilter none s.postFilters r) :
    s.postFilter = some r ∧
      ({ s with postFilters := before ++ e :: after }).postFilter =
        some (.bool none { filter := [r] }) := by
  rw [postFilter_eq, postFilter_eq]
  exact ⟨Query.combined_of_loneFilter hlone,
    Query.combined_insert_of_loneFilter he (hfilters ▸ hlone)⟩

end

/--
A filter that reduces to none is added at any place.  Nothing is written
differently, unless it joins a lone filter that says something, which was
written by itself and is then put under clauses; the rest stays as it is.  The
same holds of the filters of the hits.
-/
theorem vanishing_filter_insert (f : Features) (s : Search δ) (e : Query) (he : e.reduce = none)
    (before after : List Query) :
    (s.filters = before ++ after →
      let t := { s with filters := before ++ e :: after }
      (t.body f = s.body f ↔ ∀ r, ¬ LoneFilter (s.query >>= Query.reduce) s.filters r) ∧
      (t.countBody f = s.countBody f ↔
        ∀ r, ¬ LoneFilter (s.query >>= Query.reduce) s.filters r) ∧
      ∀ r, LoneFilter (s.query >>= Query.reduce) s.filters r →
        let clauses := Query.bool none { filter := [r] }
        (∃ rest, s.body f = .object (("query", r.document f) :: rest) ∧
          t.body f = .object (("query", clauses.document f) :: rest)) ∧
        s.countBody f = .object [("query", r.document f)] ∧
        t.countBody f = .object [("query", clauses.document f)]) ∧
    (s.postFilters = before ++ after →
      let t := { s with postFilters := before ++ e :: after }
      t.countBody f = s.countBody f ∧
      (t.body f = s.body f ↔ ∀ r, ¬ LoneFilter none s.postFilters r) ∧
      ∀ r, LoneFilter none s.postFilters r →
        let clauses := Query.bool none { filter := [r] }
        ∃ first rest, s.body f = .object (first ++ ("post_filter", r.document f) :: rest) ∧
          t.body f = .object (first ++ ("post_filter", clauses.document f) :: rest)) := by
  constructor
  · intro hfilters t
    have hlone (r : Query) (h : LoneFilter (s.query >>= Query.reduce) s.filters r) :=
      filteredQuery_insert_of_loneFilter he hfilters h
    refine ⟨⟨fun heq r h => ?_, fun hmany => ?_⟩, ⟨fun heq r h => ?_, fun hmany => ?_⟩,
      fun r h => ?_⟩
    · exact (bodies_ne f (hlone r h).1 (hlone r h).2).1 heq
    · rw [body_eq, body_eq, parts, parts, filteredQuery_insert he hfilters hmany]
      rfl
    · exact (bodies_ne f (hlone r h).1 (hlone r h).2).2 heq
    · rw [countBody, countBody, queryField, queryField, filteredQuery_insert he hfilters hmany]
    · obtain ⟨hs, ht⟩ := hlone r h
      exact ⟨⟨_, body_of_filteredQuery f hs, body_of_filteredQuery f ht⟩,
        countBody_of_filteredQuery f hs, countBody_of_filteredQuery f ht⟩
  · intro hfilters t
    have hlone (r : Query) (h : LoneFilter none s.postFilters r) :
        let clauses := Query.bool none { filter := [r] }
        ∃ first rest, s.body f = .object (first ++ ("post_filter", r.document f) :: rest) ∧
          t.body f = .object (first ++ ("post_filter", clauses.document f) :: rest) := by
      obtain ⟨hs, ht⟩ := postFilter_insert_of_loneFilter he hfilters h
      exact ⟨_, _, body_of_postFilter f hs, body_of_postFilter f ht⟩
    refine ⟨rfl, ⟨fun heq r h => ?_, fun hmany => ?_⟩, hlone⟩
    · obtain ⟨first, rest, hs, ht⟩ := hlone r h
      rw [hs, ht] at heq
      simp [Query.document_filter_ne] at heq
    · rw [body_eq, body_eq, parts, parts, postFilter_insert he hfilters hmany]
      rfl

theorem vanishing_filter_insert_placeholder :
    let e : Query := .node ⟨1, "part"⟩ (.bool none {})
    let lang : Query := .leaf (.hasField "lang" none)
    let s : Search Json :=
      { query := some matchAll, filters := [lang], postFilters := [lang], doc := .raw }
    e.reduce = none ∧
      ({ s with filters := [e, lang] }).body .untyped = s.body .untyped ∧
      ({ s with postFilters := [e, lang] }).body .untyped ≠ s.body .untyped := by
  intro e lang s
  obtain ⟨hfilters, hpost⟩ := vanishing_filter_insert .untyped s e rfl [] [lang]
  refine ⟨rfl, (hfilters rfl).1.mpr ?_, fun h => (hpost rfl).2.1.mp h lang ⟨rfl, lang, rfl, rfl⟩⟩
  rintro r ⟨hnone, -⟩
  cases hnone

/-- A lone filter is written by itself, and under clauses beside a filter that says nothing. -/
theorem vanishing_filter_changes_body :
    let e : Query := .bool none {}
    let lang : Query := .leaf (.hasField "lang" none)
    let s : Search Json := { filters := [lang], doc := .raw }
    let t := { s with filters := [lang, e] }
    e.reduce = none ∧ t.body .untyped ≠ s.body .untyped ∧
      t.countBody .untyped ≠ s.countBody .untyped := by
  intro e lang s t
  exact ⟨rfl, bodies_ne .untyped rfl rfl⟩

end Search

end SearchClient
