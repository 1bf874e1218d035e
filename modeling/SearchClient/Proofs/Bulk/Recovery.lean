import SearchClient.Bulk.Result
import SearchClient.Proofs.Entries
import SearchClient.Proofs.Json.OneLine

/-!
# Reading bulk lines back

A line that names an operation says whether a source line follows, whatever
that line looks like.  So the lines of a bulk request fall apart into actions
in one way only, and every option of an action is found under its name.
-/

namespace SearchClient

open Json (Object field field? boolField stringField objectUnder objectField)

namespace Json

def whole? : Json → Option Int
  | int n => some n
  | _ => none

def fields? : Json → Option Object
  | object fields => some fields
  | _ => none

def textAt (fields : Object) (name : String) : Option String := (fields.get? name).bind string?

def flagAt (fields : Object) (name : String) : Option Bool := (fields.get? name).bind bool?

def wholeAt (fields : Object) (name : String) : Option Int := (fields.get? name).bind whole?

theorem get?_field (name other : String) (value : Json) :
    (field name value).get? other = if other = name then some value else none := by
  simp [field, Entries.get?_cons]

theorem get?_field? (name other : String) (value : Option Json) :
    (field? name value).get? other = if other = name then value else none := by
  cases value with
  | none => simp [field?]
  | some value => exact get?_field name other value

theorem get?_objectField (name other : String) (fields : Object) :
    (objectField name fields).get? other =
      if other = name ∧ fields ≠ [] then some (.object fields) else none := by
  cases fields with
  | nil => simp [objectField]
  | cons entry rest => simp [objectField, Entries.get?_cons]

@[simp] theorem bind_string?_map (s : Option String) : (s.map Json.string).bind string? = s := by
  cases s <;> rfl

@[simp] theorem bind_bool?_map (b : Option Bool) : (b.map Json.bool).bind bool? = b := by
  cases b <;> rfl

end Json

open Json (textAt flagAt wholeAt get?_field get?_field? get?_objectField)

def Concurrency.ofFields? (fields : Object) : Option Concurrency :=
  match textAt fields "version_type", wholeAt fields "if_seq_no" with
  | some "external", _ => (wholeAt fields "version").map version
  | some "external_gte", _ => (wholeAt fields "version").map versionAtLeast
  | _, some seqNo => (wholeAt fields "if_primary_term").map (sequence seqNo)
  | _, none => none

def ActionMeta.ofFields (fields : Object) : ActionMeta where
  index := textAt fields "_index"
  id := textAt fields "_id"
  routing := textAt fields "routing"
  concurrency := Concurrency.ofFields? fields

theorem get?_typeField (f : Features) {name : String} (h : name ≠ "_type") :
    (typeField f).get? name = none := by
  unfold typeField
  split
  · rw [get?_field, if_neg h]
  · rfl

theorem Concurrency.ofFields?_fields (c : Option Concurrency) :
    ofFields? ((c.map fields).getD []) = c := by
  rcases c with - | (v | v | ⟨seqNo, primaryTerm⟩) <;> rfl

theorem ActionMeta.get?_fields_of_condition (f : Features) (m : ActionMeta) {name : String}
    (h : name ∈ ["version_type", "version", "if_seq_no", "if_primary_term"]) :
    (m.fields f).get? name = ((m.concurrency.map Concurrency.fields).getD []).get? name := by
  have hother : name ≠ "_index" ∧ name ≠ "_id" ∧ name ≠ "_type" ∧ name ≠ "routing" := by
    revert name
    decide
  obtain ⟨hindex, hid, htype, hrouting⟩ := hother
  simp [ActionMeta.fields, stringField, Entries.get?_append, get?_field?, get?_typeField f htype,
    hindex, hid, hrouting]

theorem Concurrency.get?_fields_of_target (c : Option Concurrency) {name : String}
    (h : name ∈ ["_index", "_id", "routing"]) :
    ((c.map fields).getD []).get? name = none := by
  revert name
  rcases c with - | (v | v | ⟨seqNo, primaryTerm⟩) <;>
    simp [Concurrency.fields, Entries.get?_append, get?_field]

theorem ActionMeta.ofFields_fields (f : Features) (m : ActionMeta) :
    ofFields (m.fields f) = m := by
  have hcondition : Concurrency.ofFields? (m.fields f) = m.concurrency := by
    rw [← Concurrency.ofFields?_fields m.concurrency]
    simp only [Concurrency.ofFields?, textAt, wholeAt]
    rw [m.get?_fields_of_condition f (by simp), m.get?_fields_of_condition f (by simp),
      m.get?_fields_of_condition f (by simp), m.get?_fields_of_condition f (by simp)]
  have hnone {name : String} (h : name ∈ ["_index", "_id", "routing"]) :=
    Concurrency.get?_fields_of_target m.concurrency h
  have htarget : textAt (m.fields f) "_index" = m.index ∧ textAt (m.fields f) "_id" = m.id ∧
      textAt (m.fields f) "routing" = m.routing := by
    simp [textAt, ActionMeta.fields, stringField, Entries.get?_append, get?_field?,
      get?_typeField f, hnone]
  obtain ⟨hindex, hid, hrouting⟩ := htarget
  rw [ofFields, hindex, hid, hrouting, hcondition]

def Script.ofFields? (fields : Object) : Option Script :=
  let params := ((fields.get? "params").bind Json.fields?).getD []
  match textAt fields "source", textAt fields "id" with
  | some source, _ => some (inline source (textAt fields "lang") params)
  | none, some id => some (stored id params)
  | none, none => none

theorem Script.ofFields?_document (s : Script) : ofFields? s.document = some s := by
  have hparams {fields params : Object} (h : fields.get? "params" = none) :
      ((Entries.get? (fields ++ objectField "params" params) "params").bind
        Json.fields?).getD [] = params := by
    rw [Entries.get?_append, h, get?_objectField]
    cases params <;> rfl
  cases s with
  | inline source lang params =>
      have hnone : Entries.get? (field "source" source ++ stringField "lang" lang) "params" =
          none := by
        simp [stringField, Entries.get?_append, get?_field, get?_field?]
      rw [ofFields?, document, hparams hnone]
      simp [textAt, stringField, Entries.get?_append, get?_field, get?_field?, get?_objectField,
        Json.string?]
  | stored id params =>
      have hnone : Entries.get? (field "id" id) "params" = none := by simp [get?_field]
      rw [ofFields?, document, hparams hnone]
      simp [textAt, Entries.get?_append, get?_field, get?_objectField, Json.string?]

def UpdateSource.ofFields? (fields : Object) : Option UpdateSource :=
  match fields.get? "doc", (fields.get? "script").bind Json.fields? with
  | some d, _ => some (doc d (flagAt fields "doc_as_upsert"))
  | none, some s =>
      (Script.ofFields? s).map fun s => script s (flagAt fields "scripted_upsert")
  | none, none => none

theorem UpdateSource.ofFields?_fields (upsert : Option Json) (detectNoop : Option Bool)
    (s : UpdateSource) :
    let fields := field? "upsert" upsert ++ boolField "detect_noop" detectNoop ++ s.fields
    fields.get? "upsert" = upsert ∧ flagAt fields "detect_noop" = detectNoop ∧
      ofFields? fields = some s := by
  cases s with
  | doc d docAsUpsert =>
      simp [ofFields?, UpdateSource.fields, flagAt, boolField, Entries.get?_append, get?_field,
        get?_field?]
  | script s scriptedUpsert =>
      simp [ofFields?, UpdateSource.fields, flagAt, boolField, objectUnder, Entries.get?_append,
        get?_field, get?_field?, Json.fields?, Script.ofFields?_document]

/-! ## Actions -/

def BulkOp.ofText? (name : String) : Option BulkOp := all.find? fun op => op.text == name

def BulkOp.hasSource : BulkOp → Bool
  | delete => false
  | _ => true

theorem BulkOp.ofText?_text (op : BulkOp) : ofText? op.text = some op := by
  cases op <;> rfl

namespace BulkAction

def ofMetaLine? : Json → Option (BulkOp × ActionMeta)
  | .object [(name, .object target)] =>
      (BulkOp.ofText? name).map fun op => (op, ActionMeta.ofFields target)
  | _ => none

def ofSourceLine? (target : ActionMeta) : BulkOp → Json → Option BulkAction
  | .index, source => some (index target source)
  | .create, source => some (create target source)
  | .update, .object source =>
      (UpdateSource.ofFields? source).map fun s =>
        update target s (Entries.get? source "upsert") (flagAt source "detect_noop")
  | _, _ => none

/-- Reads lines from the first one on; the operation says whether the next one is a source. -/
def ofLines? : List Json → Option (List BulkAction)
  | [] => some []
  | line :: rest =>
      match ofMetaLine? line with
      | none => none
      | some (op, target) =>
          if op.hasSource then
            match rest with
            | [] => none
            | source :: rest => do
                let action ← ofSourceLine? target op source
                return action :: (← ofLines? rest)
          else (ofLines? rest).map (delete target :: ·)

theorem ofMetaLine?_metaLine (f : Features) (a : BulkAction) :
    ofMetaLine? (a.metaLine f) = some (a.op, a.target) := by
  simp [metaLine, objectUnder, field, ofMetaLine?, BulkOp.ofText?_text, ActionMeta.ofFields_fields]

theorem isSome_sourceLine? (a : BulkAction) : a.sourceLine?.isSome = a.op.hasSource := by
  cases a <;> rfl

theorem ofSourceLine?_sourceLine? {a : BulkAction} {source : Json}
    (h : a.sourceLine? = some source) : ofSourceLine? a.target a.op source = some a := by
  cases a with
  | delete target => cases h
  | index target _ => exact Option.some.inj h ▸ rfl
  | create target _ => exact Option.some.inj h ▸ rfl
  | update target s upsert detectNoop =>
      obtain ⟨hupsert, hdetect, hsource⟩ := UpdateSource.ofFields?_fields upsert detectNoop s
      rw [← Option.some.inj h]
      simp only [op, BulkAction.target, ofSourceLine?, hsource, hupsert, hdetect, Option.map_some]

theorem ofLines?_lines_append (f : Features) (a : BulkAction) (rest : List Json) :
    ofLines? (a.lines f ++ rest) = (ofLines? rest).map (a :: ·) := by
  have hop := isSome_sourceLine? a
  cases hsource : a.sourceLine? with
  | none =>
      have hdelete : delete a.target = a := by
        cases a with
        | delete target => rfl
        | _ => cases hsource
      rw [hsource, Option.isSome_none] at hop
      rw [lines, hsource, Option.toList_none, List.singleton_append, ofLines?, ofMetaLine?_metaLine]
      simp only [← hop, hdelete, if_false, Bool.false_eq_true]
  | some source =>
      rw [hsource, Option.isSome_some] at hop
      rw [lines, hsource, Option.toList_some, List.cons_append, List.singleton_append, ofLines?,
        ofMetaLine?_metaLine]
      simp only [← hop, if_true, ofSourceLine?_sourceLine? hsource]
      cases ofLines? rest <;> rfl

theorem ofLines?_lines (f : Features) (actions : List BulkAction) :
    ofLines? (actions.flatMap (lines f)) = some actions := by
  induction actions with
  | nil => rfl
  | cons a rest ih => rw [List.flatMap_cons, ofLines?_lines_append, ih, Option.map_some]

theorem lines_injective (f : Features) :
    Function.Injective fun actions : List BulkAction => actions.flatMap (lines f) := by
  intro actions actions' h
  have hread := congrArg ofLines? h
  simp only [ofLines?_lines] at hread
  exact Option.some.inj hread

end BulkAction

theorem RequestBody.text_lines (ls : List Json) :
    (lines ls).text = String.join (ls.map fun line => line.text ++ "\n") := by
  rw [← String.toList_inj, text, String.toList_ofList, String.toList_join]
  induction ls with
  | nil => rfl
  | cons line rest ih =>
      simp only [chars, List.flatMap_cons, List.map_cons, Json.text, String.toList_append,
        String.toList_ofList] at ih ⊢
      rw [ih]
      rfl

/--
A bulk request is recovered from its lines, each of which takes one line of the
text.  A line that names an operation has no other key, and a source follows
it for every operation but a deletion.
-/
theorem bulkRequest_recovered (f : Features) :
    (∀ index actions refresh, ∃ lines,
      (bulkRequest f index actions refresh).body = some (.lines lines) ∧
        lines = actions.flatMap (fun a => a.metaLine f :: a.sourceLine?.toList) ∧
        BulkAction.ofLines? lines = some actions ∧
        (RequestBody.lines lines).text = String.join (lines.map fun line => line.text ++ "\n") ∧
        ∀ line ∈ lines, '\n' ∉ line.text.toList) ∧
      (∀ a : BulkAction, (∃ target, a.metaLine f = .object [(a.op.text, .object target)]) ∧
        (a.sourceLine?.isSome = true ↔ a.op ≠ .delete)) ∧
      ∀ index index' actions actions' refresh refresh',
        (bulkRequest f index actions refresh).body = (bulkRequest f index' actions' refresh').body →
          actions = actions' := by
  refine ⟨fun index actions refresh => ?_, fun a => ⟨⟨_, rfl⟩, ?_⟩, ?_⟩
  · exact ⟨_, rfl, rfl, BulkAction.ofLines?_lines f actions, RequestBody.text_lines _,
      fun line _ => line.newline_not_mem_text⟩
  · rw [BulkAction.isSome_sourceLine?]
    cases a.op <;> simp [BulkOp.hasSource]
  · intro index index' actions actions' refresh refresh' h
    exact BulkAction.lines_injective f (RequestBody.lines.inj (Option.some.inj h))

/-- The source of the first action looks like the line of a deletion and has a line feed in it. -/
theorem bulkRequest_recovered_disguised :
    let deletion : Json := .object [("delete", .object [("_id", .string "2\n")])]
    let actions : List BulkAction :=
      [.create { id := some "1" } deletion, .delete { id := some "2\n" }]
    ∃ created, (bulkRequest .untyped none actions none).body =
        some (.lines [created, deletion, deletion]) ∧
      BulkAction.ofLines? [created, deletion, deletion] = some actions ∧
      deletion.text = "\x7b\"delete\":\x7b\"_id\":\"2\\n\"\x7d\x7d" ∧
      '\n' ∉ deletion.text.toList := by
  intro deletion actions
  obtain ⟨lines, hbody, rfl, hread, -, hlines⟩ :=
    (bulkRequest_recovered .untyped).1 none actions none
  refine ⟨_, hbody, hread, by decide +kernel, hlines deletion ?_⟩
  simp [actions, BulkAction.sourceLine?]

end SearchClient
