import SearchClient.Aggs.Decode
import SearchClient.Request
import SearchClient.Search.Body

/-!
# Search requests and their answers
-/

namespace SearchClient

open Json (Cursor)

variable {δ : Type}

structure SearchResult (δ : Type) where
  took : Int
  timedOut : Bool
  scrollId : Option String
  hits : Hits δ
  aggs : AggResults δ

def SearchResult.total (r : SearchResult δ) : Option Int := r.hits.total.map (·.value)

/-- Reads an answer to a search; without aggregations in it there are no results of them. -/
def SearchResult.read (s : Search δ) (c : Cursor) : Except Error (SearchResult δ) := do
  let aggs ←
    match ← c.object? "aggregations" with
    | some aggregations => Agg.readAll s.aggs aggregations
    | none => pure []
  return {
    took := ← c.long "took"
    timedOut := (← c.bool? "timed_out").getD false
    scrollId := ← c.string? "_scroll_id"
    hits := ← Hits.read s.doc (← c.object "hits")
    aggs }

inductive MultiItem (δ : Type) where
  | result (result : SearchResult δ)
  | failed (status : Option Int) (cause : ErrorCause)

def MultiItem.read (s : Search δ) (c : Cursor) : Except Error (MultiItem δ) := do
  match ← c.object? "error" with
  | some error => do
      let status ← c.long? "status"
      return .failed status (← ErrorCause.read error)
  | none => .result <$> SearchResult.read s c

/-- Reads the answers in the order of the searches; there must be as many. -/
def readMulti (searches : List (Search δ)) (response : Json) :
    Except Error (List (MultiItem δ)) := do
  let responses ← (← Cursor.ofDocument response).array "responses"
  let given := responses.values.length
  if given < searches.length then .error (.missingField (responses.path.item given))
  else if searches.length < given then
    .error (.invalidType responses.path "one response per search")
  else
    (responses.objects.zip searches).mapM fun (cursor, s) => cursor >>= MultiItem.read s

namespace Search

def request (f : Features) (indices : List String) (s : Search δ) :
    Request (SearchResult δ) where
  method := .post
  path := indexPath indices "_search"
  params := s.params.pairs
  body := some (.document (s.body f))
  read response := do SearchResult.read s (← Cursor.ofDocument response)

/-- A count depends on routing and preference, but on no other parameter. -/
def countParams (p : SearchParams) : SearchParams :=
  { routing := p.routing, preference := p.preference }

def countRequest (f : Features) (indices : List String) (s : Search δ) : Request Int where
  method := .post
  path := indexPath indices "_count"
  params := (countParams s.params).pairs
  body := some (.document (s.countBody f))
  read response := do (← Cursor.ofDocument response).long "count"

def multiRequest (f : Features) (searches : List (String × Search δ)) :
    Request (List (MultiItem δ)) where
  method := .post
  path := "_msearch"
  body := some (.lines (searches.flatMap fun (index, s) => [header index s.params, s.body f]))
  read := readMulti (searches.map (·.2))

end Search

end SearchClient
