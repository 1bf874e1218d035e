import SearchClient.Query.Shared
import SearchClient.Search.Basic

/-!
# Searches over shared trees

A search that is being built holds its queries as objects.  Replacement looks
for the node in all of them first, and then goes through the places of the
search and puts there what each query has become.
-/

namespace SearchClient

structure SharedRescore where
  query : SharedQuery
  windowSize : Option Nat := none
  queryWeight : Option Float := none
  rescoreQueryWeight : Option Float := none
  mode : Option RescoreMode := none

namespace SharedRescore

def toRescore (r : SharedRescore) : Rescore :=
  { r with query := r.query.toQuery }

def replaceAll (new : SharedNode) : List SharedRescore → Nat → List SharedRescore × Nat
  | [], next => ([], next)
  | r :: rs, next =>
      let (query, next) := r.query.replace new next
      let (rs, next) := replaceAll new rs next
      ({ r with query } :: rs, next)

end SharedRescore

structure SharedSearch (δ : Type) extends SearchSettings δ where
  query : Option SharedQuery := none
  filters : List SharedQuery := []
  postFilters : List SharedQuery := []
  rescores : List SharedRescore := []

namespace SharedSearch

variable {δ : Type}

def toSearch (s : SharedSearch δ) : Search δ :=
  { s with
    query := s.query.map SharedQuery.toQuery
    filters := s.filters.map SharedQuery.toQuery
    postFilters := s.postFilters.map SharedQuery.toQuery
    rescores := s.rescores.map SharedRescore.toRescore }

def roots (s : SharedSearch δ) : List SharedQuery :=
  s.query.toList ++ s.filters ++ s.postFilters ++ s.rescores.map (·.query)

def freeAddress (s : SharedSearch δ) (new : SharedNode) : Nat :=
  max (SharedQuery.boundAll s.roots) (new.at 0).bound

def replaceQuery (new : SharedNode) : Option SharedQuery → Nat → Option SharedQuery × Nat
  | none, next => (none, next)
  | some t, next =>
      let (t, next) := t.replace new next
      (some t, next)

/-- Puts a node in the place of every occurrence of its handle, in one place after another. -/
def replaceSlots (new : SharedNode) (s : SharedSearch δ) : SharedSearch δ :=
  let (query, next) := replaceQuery new s.query (s.freeAddress new)
  let (filters, next) := SharedQuery.replaceAll new s.filters next
  let (postFilters, next) := SharedQuery.replaceAll new s.postFilters next
  let (rescores, _) := SharedRescore.replaceAll new s.rescores next
  { s with query, filters, postFilters, rescores }

def rewrite (new : SharedNode) : ExceptT Error (StateM (SharedSearch δ)) Unit := do
  let index ← MonadExcept.ofExcept (← get).toSearch.nodeIndex
  unless index.contains new.handle do
    throw (.handleNotFound new.handle.name)
  modify (replaceSlots new)

end SharedSearch

end SearchClient
