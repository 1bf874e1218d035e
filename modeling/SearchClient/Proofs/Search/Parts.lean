import SearchClient.Proofs.Query.Reading.Options
import SearchClient.Search.Body

/-!
# The parts of a search body

A body has one part for each thing that a search may ask for, under a name of
its own.  Just one of them depends on the engine.
-/

namespace SearchClient

open Json (Object present)

theorem Json.filter_present (keep : String → Bool) (parts : List (String × Option Json)) :
    (present parts).filter (fun entry => keep entry.1) =
      present (parts.filter fun part => keep part.1) := by
  induction parts with
  | nil => rfl
  | cons part rest ih =>
      obtain ⟨name, value⟩ := part
      cases value with
      | none => cases h : keep name <;> simpa [present, h] using ih
      | some value => cases h : keep name <;> simpa [present, h] using ih

theorem Json.get?_present {parts : List (String × Option Json)}
    (hdistinct : (Entries.keys parts).Nodup) (name : String) :
    (present parts).get? name = (Entries.get? parts name).join := by
  induction parts with
  | nil => rfl
  | cons part rest ih =>
      obtain ⟨key, value⟩ := part
      obtain ⟨hnot, hdistinct⟩ := List.nodup_cons.mp hdistinct
      rw [get?_present_cons hnot, Entries.get?_cons, ih hdistinct]
      split <;> rfl

namespace Search

variable {δ : Type}

def trackTotalHitsPart (f : Features) (s : Search δ) : Option Json :=
  if f.supportsTrackTotalHits then s.trackTotalHits.map TrackTotalHits.document else none

def parts (f : Features) (s : Search δ) : List (String × Option Json) :=
  [("query", s.filteredQuery.map (Query.document f)),
    ("post_filter", s.postFilter.map (Query.document f)),
    ("aggs", objectPart (Agg.documents f s.aggs)),
    ("rescore", listPart (s.rescores.map (Rescore.document f))),
    ("sort", listPart (s.sort.map (SortKey.document f))),
    ("track_scores", s.trackScores.map .bool),
    ("track_total_hits", s.trackTotalHitsPart f),
    ("_source", s.source.map SourceFilter.document),
    ("fields", listPart (s.fields.map .string)),
    ("docvalue_fields", listPart (s.docvalueFields.map .string)),
    ("stored_fields", listPart (s.storedFields.map .string)),
    ("script_fields", objectPart (scriptFieldsDocument s.scriptFields)),
    ("size", s.size.map fun n : Nat => .int n),
    ("from", s.start.map fun n : Nat => .int n),
    ("terminate_after", s.terminateAfter.map fun n : Nat => .int n),
    ("ext", objectPart s.ext)]

theorem body_eq (f : Features) (s : Search δ) : s.body f = .object (present (s.parts f)) := by
  have htrack : s.trackTotalHitsField f =
      present [("track_total_hits", s.trackTotalHitsPart f)] := by
    unfold trackTotalHitsField trackTotalHitsPart
    split
    · exact Json.field?_eq_present _ _
    · rfl
  simp only [body, queryField, stringsField, htrack, Json.field?_eq_present, Json.boolField,
    Json.natField_eq_present, Json.listField_eq_present, Json.objectField_eq_present,
    ← Json.present_append]
  rfl

theorem nodup_keys_parts (f : Features) (s : Search δ) : (Entries.keys (s.parts f)).Nodup := by
  simp [parts]

end Search

end SearchClient
