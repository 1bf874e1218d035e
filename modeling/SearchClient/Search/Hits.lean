import SearchClient.Json.Cursor
import SearchClient.Json.Text

/-!
# Hits

A hit carries the document found and how it was found.  What a document is
read as is left to a reader of the caller's choice, which is given the whole
hit.
-/

namespace SearchClient

open Json (Cursor)

/-- Reads the document of a hit; a hit may come without one. -/
abbrev DocReader (δ : Type) := Cursor → Except Error (Option δ)

def DocReader.raw : DocReader Json := fun hit => .ok (hit.value? "_source")

def DocReader.typed {δ : Type} (read : Json → Option δ) : DocReader δ := fun hit =>
  match hit.value? "_source" with
  | none => .ok none
  | some source =>
      match read source with
      | some doc => .ok (some doc)
      | none => .error (.document ("cannot read " ++ source.text))

inductive TotalRelation where
  | exact
  | atLeast
  deriving DecidableEq, Repr

structure TotalHits where
  value : Int
  relation : TotalRelation
  deriving DecidableEq, Repr

/-- The number of hits, given bare or with its relation to the true number. -/
def TotalHits.read? (hits : Cursor) : Except Error (Option TotalHits) :=
  match hits.value? "total" with
  | none => .ok none
  | some (.object fields) => do
      let total : Cursor := ⟨fields, hits.path.field "total"⟩
      let relation ←
        match ← total.string? "relation" with
        | none => pure .exact
        | some "eq" => pure .exact
        | some "gte" => pure .atLeast
        | some _ => .error (.invalidType (total.path.field "relation") "eq or gte")
      return some ⟨← total.long "value", relation⟩
  | some _ => do return some ⟨← hits.long "total", .exact⟩

structure Hit (δ : Type) where
  index : String
  type : String
  id : String
  routing : Option String
  version : Option Int
  seqNo : Option Int
  primaryTerm : Option Int
  score : Option Float
  doc : Option δ
  fields : Entries (List Json)
  sort : Option (List Json)

variable {δ : Type}

def readFields (hit : Cursor) : Except Error (Entries (List Json)) := do
  match ← hit.object? "fields" with
  | none => return []
  | some fields => fields.keys.mapM fun name => do return (name, (← fields.array name).values)

def Hit.read (doc : DocReader δ) (hit : Cursor) : Except Error (Hit δ) := do
  let fields ← readFields hit
  let sort := ((← hit.array? "sort").map (·.values)).filter fun values => !values.isEmpty
  return {
    index := ← hit.string "_index"
    type := (← hit.string? "_type").getD "_doc"
    id := ← hit.string "_id"
    routing := ← hit.string? "_routing"
    version := ← hit.long? "_version"
    seqNo := ← hit.long? "_seq_no"
    primaryTerm := ← hit.long? "_primary_term"
    score := ← hit.double? "_score"
    doc := ← doc hit
    fields, sort }

structure Hits (δ : Type) where
  total : Option TotalHits
  maxScore : Option Float
  hits : List (Hit δ)

def Hits.read (doc : DocReader δ) (hits : Cursor) : Except Error (Hits δ) := do
  let items ← (← hits.array "hits").mapObjects (Hit.read doc)
  return { total := ← TotalHits.read? hits, maxScore := ← hits.double? "max_score", hits := items }

end SearchClient
