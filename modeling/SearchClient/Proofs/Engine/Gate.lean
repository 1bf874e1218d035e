import SearchClient.Bulk.Result
import SearchClient.Proofs.Engine.Encoders
import SearchClient.Proofs.Search.Parts
import SearchClient.Proofs.Session.Commands

/-!
# What the version changes on the wire

Requests are written for the features of an engine.  Whatever is asked for, the
features decide on four things only: whether a search body tells how many hits
to count, whether a bulk line names a mapping type, whether the mapping of a new
index stands under that type, and whether a later mapping is sent to the address
of that type.  Everything else that is sent is the same for every engine.
-/

namespace SearchClient

open Json (Object present)

/-- Two requests that may differ in what is sent, but not in where it goes or how it is answered. -/
structure Request.SameButBody {α : Type} (r r' : Request α) : Prop where
  method : r.method = r'.method
  path : r.path = r'.path
  params : r.params = r'.params
  read : r.read = r'.read

def Json.without (name : String) : Json → Json
  | .object fields => .object (fields.filter fun entry => entry.1 ≠ name)
  | d => d

def Json.only (name : String) : Json → Object
  | .object fields => fields.filter fun entry => entry.1 = name
  | _ => []

theorem Json.without_present (name : String) (parts : List (String × Option Json)) :
    (Json.object (present parts)).without name =
      .object (present (parts.filter fun part => part.1 ≠ name)) :=
  congrArg object (filter_present (fun key => decide (key ≠ name)) parts)

theorem Json.only_present (name : String) (parts : List (String × Option Json)) :
    (Json.object (present parts)).only name = present (parts.filter fun part => part.1 = name) :=
  filter_present (fun key => decide (key = name)) parts

namespace Search

variable {δ : Type}

theorem without_body (f g : Features) (s : Search δ) :
    (s.body f).without "track_total_hits" = (s.body g).without "track_total_hits" := by
  simp [body_eq, Json.without_present, parts, Query.document_indep f g,
    Agg.documents_indep f g, Rescore.document_indep f g, SortKey.document_indep f g]

theorem only_body (f : Features) (s : Search δ) :
    (s.body f).only "track_total_hits" =
      present [("track_total_hits", s.trackTotalHitsPart f)] := by
  simp [body_eq, Json.only_present, parts]

theorem countBody_eq (f : Features) (s : Search δ) :
    s.countBody f = .object ((s.body f).only "query") := by
  simp [countBody, queryField, Json.field?_eq_present, body_eq, Json.only_present, parts]

theorem countRequest_indep (f g : Features) (indices : List String) (s : Search δ) :
    s.countRequest f indices = s.countRequest g indices := by
  rw [countRequest, countRequest, s.countBody_indep f g]

theorem only_trackTotalHits (f : Features) (s : Search δ) :
    (s.body f).only "track_total_hits" =
      match f.supportsTrackTotalHits, s.trackTotalHits with
      | true, some track => [("track_total_hits", track.document)]
      | _, _ => [] := by
  rw [only_body, trackTotalHitsPart]
  cases f.supportsTrackTotalHits <;> cases s.trackTotalHits <;> rfl

end Search

namespace ActionMeta

def beforeType (m : ActionMeta) : Object :=
  Json.stringField "_index" m.index ++ Json.stringField "_id" m.id

def afterType (m : ActionMeta) : Object :=
  Json.stringField "routing" m.routing ++ (m.concurrency.map Concurrency.fields).getD []

theorem fields_eq (f : Features) (m : ActionMeta) :
    m.fields f = m.beforeType ++ typeField f ++ m.afterType := by
  simp only [fields, beforeType, afterType, List.append_assoc]

theorem mem_keys_beforeType {m : ActionMeta} {name : String} (h : name ∈ m.beforeType.keys) :
    name = "_index" ∨ name = "_id" := by
  have hparts : m.beforeType =
      present [("_index", m.index.map .string), ("_id", m.id.map .string)] := by
    simp only [beforeType, Json.stringField, Json.field?_eq_present, ← Json.present_append]
    rfl
  rw [hparts] at h
  simpa using (Json.keys_present_sublist _).subset h

theorem not_mem_keys_afterType {m : ActionMeta} {name : String} (h : name ∈ m.afterType.keys) :
    name ∉ ["_index", "_id", "_type"] := by
  obtain ⟨index, id, routing, concurrency⟩ := m
  revert h
  cases routing <;> rcases concurrency with - | (v | v | ⟨seqNo, primaryTerm⟩) <;>
    simp [afterType, Json.stringField, Json.field?, Json.field, Concurrency.fields,
      Entries.keys] <;>
    rintro (rfl | rfl | rfl) <;> decide

end ActionMeta

theorem BulkAction.lines_eq (f : Features) (a : BulkAction) :
    a.lines f = .object [(a.op.text, .object (a.target.beforeType ++
      (if f.requiresTypeName then [("_type", .string "_doc")] else []) ++
        a.target.afterType))] :: a.sourceLine?.toList := by
  rw [lines, metaLine, ActionMeta.fields_eq]
  rfl

theorem body_createIndexRequest (f : Features) (index : String) (settings : Option Object)
    (m : Mapping) :
    (createIndexRequest f index settings m).body = some (.document (.object
      (present [("settings", settings.map .object)] ++
        [("mappings", if f.requiresTypeName then .object [("_doc", .object m.document)]
          else .object m.document)]))) := by
  rw [createIndexRequest, Json.field?_eq_present]
  rfl

theorem path_updateMappingRequest (f : Features) (index : String) (m : Mapping) :
    (updateMappingRequest f index m).path =
      if f.requiresTypeName then index ++ "/_mapping" ++ "/_doc" else index ++ "/_mapping" := by
  have htyped : index ++ "/_mapping/" ++ defaultType = index ++ "/_mapping" ++ "/_doc" := by
    rw [String.append_assoc, String.append_assoc]
    rfl
  rw [updateMappingRequest, htyped]

/--
For any two engines, the same call asks the same address in the same way, but
for the address of a later mapping.  What is sent differs in no more than these
places: the number of hits to count at the top of a search body, the type in a
bulk line after the index and the id, and the type around the mapping of a new
index.
-/
theorem gate_keeps_its_places (f g : Features) :
    (∀ (δ : Type) (indices : List String) (s : Search δ),
      (s.request f indices).SameButBody (s.request g indices) ∧
      (s.body f).without "track_total_hits" = (s.body g).without "track_total_hits" ∧
      s.countRequest f indices = s.countRequest g indices ∧
      (Command.count indices s).own? f = (Command.count indices s).own? g ∧
      ∀ h : Features,
        (s.request h indices).body = some (.document (s.body h)) ∧
        ((s.body h).only "track_total_hits" =
          match h.supportsTrackTotalHits, s.trackTotalHits with
          | true, some track => [("track_total_hits", track.document)]
          | _, _ => []) ∧
        (s.countRequest h indices).body = some (.document (.object ((s.body h).only "query")))) ∧
    (∀ (δ : Type) (searches : List (String × Search δ)),
      (Search.multiRequest f searches).SameButBody (Search.multiRequest g searches) ∧
      (searches.flatMap fun (index, s) =>
          [Search.header index s.params, (s.body f).without "track_total_hits"]) =
        (searches.flatMap fun (index, s) =>
          [Search.header index s.params, (s.body g).without "track_total_hits"]) ∧
      ∀ h : Features,
        (Search.multiRequest h searches).body = some (.lines
          (searches.flatMap fun (index, s) => [Search.header index s.params, s.body h]))) ∧
    (∀ (index : Option String) (actions : List BulkAction) (refresh : Option Refresh),
      (bulkRequest f index actions refresh).SameButBody (bulkRequest g index actions refresh) ∧
      (∀ a ∈ actions,
        (∀ name ∈ a.target.beforeType.keys, name = "_index" ∨ name = "_id") ∧
        ∀ name ∈ a.target.afterType.keys, name ∉ ["_index", "_id", "_type"]) ∧
      ∀ h : Features,
        (bulkRequest h index actions refresh).body = some (.lines (actions.flatMap fun a =>
          .object [(a.op.text, .object (a.target.beforeType ++
            (if h.requiresTypeName then [("_type", .string "_doc")] else []) ++
              a.target.afterType))] :: a.sourceLine?.toList))) ∧
    (∀ (index : String) (settings : Option Object) (m : Mapping),
      (createIndexRequest f index settings m).SameButBody
        (createIndexRequest g index settings m) ∧
      ∀ h : Features,
        (createIndexRequest h index settings m).body = some (.document (.object
          (present [("settings", settings.map .object)] ++
            [("mappings", if h.requiresTypeName then .object [("_doc", .object m.document)]
              else .object m.document)])))) ∧
    ∀ (index : String) (m : Mapping),
      (updateMappingRequest f index m).body = (updateMappingRequest g index m).body ∧
      (updateMappingRequest f index m).method = (updateMappingRequest g index m).method ∧
      (updateMappingRequest f index m).params = (updateMappingRequest g index m).params ∧
      (updateMappingRequest f index m).read = (updateMappingRequest g index m).read ∧
      ∀ h : Features, (updateMappingRequest h index m).path =
        if h.requiresTypeName then index ++ "/_mapping" ++ "/_doc" else index ++ "/_mapping" := by
  refine ⟨fun δ indices s => ⟨⟨rfl, rfl, rfl, rfl⟩, s.without_body f g,
      s.countRequest_indep f g indices, ?_, fun h => ⟨rfl, ?_, ?_⟩⟩,
    fun δ searches => ⟨⟨rfl, rfl, rfl, rfl⟩, ?_, fun h => rfl⟩,
    fun index actions refresh => ⟨⟨rfl, rfl, rfl, rfl⟩, fun a _ => ⟨?_, ?_⟩, fun h => ?_⟩,
    fun index settings m => ⟨⟨rfl, rfl, rfl, rfl⟩, fun h => ?_⟩,
    fun index m => ⟨rfl, rfl, rfl, rfl, fun h => path_updateMappingRequest h index m⟩⟩
  · exact congrArg (fun r => some r.message) (s.countRequest_indep f g indices)
  · exact s.only_trackTotalHits h
  · exact congrArg (some ∘ RequestBody.document) (s.countBody_eq h)
  · simp only [Search.without_body f g]
  · exact fun name => ActionMeta.mem_keys_beforeType
  · exact fun name => ActionMeta.not_mem_keys_afterType
  · simp only [bulkRequest, ← BulkAction.lines_eq]
  · exact body_createIndexRequest h index settings m

theorem gate_keeps_its_places_typed_untyped :
    let s : Search Json := { trackTotalHits := some (.upTo 10), size := some 0, doc := .raw }
    let a : BulkAction := .delete { id := some "1", routing := some "r" }
    (s.body .typed).without "track_total_hits" = (s.body .untyped).without "track_total_hits" ∧
      (s.body .typed).only "track_total_hits" = [] ∧
      (s.body .untyped).only "track_total_hits" = [("track_total_hits", .int 10)] ∧
      "_id" ∈ a.target.beforeType.keys ∧ ("_id" = "_index" ∨ "_id" = "_id") ∧
      "routing" ∈ a.target.afterType.keys ∧ "routing" ∉ ["_index", "_id", "_type"] := by
  intro s a
  obtain ⟨hsearch, -, hbulk, -⟩ := gate_keeps_its_places .typed .untyped
  obtain ⟨-, hwithout, -, -, honly⟩ := hsearch Json [] s
  obtain ⟨-, hkeys, -⟩ := hbulk none [a] none
  obtain ⟨hbefore, hafter⟩ := hkeys a (.head _)
  have hid : "_id" ∈ a.target.beforeType.keys := .head _
  have hrouting : "routing" ∈ a.target.afterType.keys := .head _
  exact ⟨hwithout, (honly .typed).2.1, (honly .untyped).2.1, hid, hbefore _ hid, hrouting,
    hafter _ hrouting⟩

end SearchClient
