import SearchClient.Mapping.Document
import SearchClient.Proofs.Mapping.Grouping
import SearchClient.Proofs.Query.Reading.Leaf

/-!
# Reading mappings back

A mapping can be told from its document.  Parameters share an object with what
is written beside them, so that they must not take its names; sub-fields,
properties and fields are listed by name, so that no name may come twice.  With
the order of the document the mapping is known to the last entry; without it,
up to the order of entries.
-/

namespace SearchClient

open Json (Object present)
open Sameness

variable {m : Sameness}

def Sameness.Names : Sameness → List String → List String → Prop
  | identity, xs, ys => xs = ys
  | equality, xs, ys => xs.Perm ys

namespace Json

theorem entries_of_rel {xs ys : Object} (hx : xs.keys.Nodup) (hy : ys.keys.Nodup)
    (h : m.Rel (Json.object xs) (.object ys)) : m.Names xs.keys ys.keys ∧ xs.Agree m.Rel ys := by
  have hget := rel_get? hx hy h
  constructor
  · cases m with
    | identity => exact congrArg Entries.keys (object.inj h)
    | equality =>
        refine (List.perm_ext_iff_of_nodup hx hy).mpr fun name => ?_
        rw [← not_iff_not, ← Entries.get?_eq_none_iff, ← Entries.get?_eq_none_iff]
        have hname := hget name
        cases hxs : xs.get? name <;> cases hys : ys.get? name <;> simp [hxs, hys] at hname ⊢
  · intro name x y hxs hys
    have hname := hget name
    rwa [hxs, hys, rel_some] at hname

theorem get?_objectPart (name other : String) (fields : Object) :
    (objectField name fields).get? other = if other = name then objectPart fields else none := by
  rw [objectField_eq_present, get?_present_cons (by simp)]
  rfl

end Json

theorem Entries.eq_of_agree {α : Type} {left right : Entries α} (hkeys : left.keys = right.keys)
    (hdistinct : left.keys.Nodup) (h : left.Agree (· = ·) right) : left = right := by
  refine ext_get? hkeys hdistinct fun name => ?_
  cases hl : left.get? name with
  | none => rw [get?_eq_none_iff, hkeys, ← get?_eq_none_iff] at hl; exact hl.symm
  | some a =>
      obtain ⟨b, hb⟩ := exists_get?_of_mem_keys (hkeys ▸ mem_keys_of_get? hl)
      rw [hb, h name a b hl hb]

theorem Sameness.rel_prod_iff {α β : Type} [BEq α] [BEq β] {x y : α × β} :
    m.Rel x y ↔ m.Rel x.1 y.1 ∧ m.Rel x.2 y.2 := by
  cases m with
  | identity => exact Prod.ext_iff
  | equality => exact Bool.and_eq_true_iff

theorem Entries.agree_of_rel {α : Type} [BEq α] {left right : Entries α} (h : m.Rel left right) :
    left.keys = right.keys ∧ left.Agree m.Rel right := by
  have hitems := rel_list_iff.mp h
  clear h
  induction hitems with
  | nil => exact ⟨rfl, .nil_left⟩
  | @cons x y left right hitem _ ih =>
      obtain ⟨hname, hvalue⟩ := rel_prod_iff.mp hitem
      obtain ⟨hkeys, hagree⟩ := ih
      have hname := rel_iff_eq.mp hname
      refine ⟨congrArg₂ List.cons hname hkeys, fun name a b ha hb => ?_⟩
      rw [get?_cons] at ha hb
      rw [← hname] at hb
      split at ha
      · rw [if_pos ‹_›] at hb
        rwa [← Option.some.inj ha, ← Option.some.inj hb]
      · rw [if_neg ‹_›] at hb
        exact hagree name a b ha hb

/-! ## Fields -/

namespace FieldMapping

/-- The names of what is written beside the parameters of a field. -/
def reserved : List String := ["type", "fields", "properties"]

structure Unambiguous (f : FieldMapping) : Prop extends Named f where
  unreserved : ∀ name ∈ f.params.keys, name ∉ reserved

/-- A field that can be told from its document, with all fields inside it. -/
abbrev Legible : FieldMapping → Prop := Throughout Unambiguous

theorem keys_documents (fs : Entries FieldMapping) : (documents fs).keys = fs.keys := by
  induction fs with
  | nil => rfl
  | cons entry rest ih => rw [documents, Entries.keys_cons, Entries.keys_cons, ih]

theorem get?_documents (fs : Entries FieldMapping) (name : String) :
    (documents fs).get? name = (fs.get? name).map fun f => .object f.document := by
  induction fs with
  | nil => rfl
  | cons entry rest ih =>
      rw [documents, Entries.get?_cons, Entries.get?_cons, ih]
      split <;> rfl

theorem setAll_documents {fs : Entries FieldMapping} (h : fs.keys.Nodup) :
    Entries.setAll [] (documents fs) = documents fs :=
  Entries.setAll_eq_append (by rwa [List.nil_append, keys_documents])

variable {f g : FieldMapping}

def inside (f : FieldMapping) : Object :=
  Json.objectField "fields" (documents f.subFields) ++
    Json.objectField "properties" (documents f.properties)

theorem keys_inside (f : FieldMapping) : f.inside.keys.Sublist ["fields", "properties"] := by
  rw [inside, Json.objectField_eq_present, Json.objectField_eq_present, ← Json.present_append]
  exact Json.keys_present_sublist _

theorem nodup_names (hf : f.Unambiguous) :
    ("type" :: f.params.keys ++ ["fields", "properties"]).Nodup := by
  have hnot (name : String) (h : name ∈ reserved) : name ∉ f.params.keys := fun hmem =>
    hf.unreserved name hmem h
  refine List.Nodup.append (List.nodup_cons.mpr ⟨hnot "type" (by decide), hf.params⟩) (by decide) ?_
  intro name hparam hrest
  rcases List.mem_cons.mp hparam with rfl | hparam
  · exact absurd hrest (by decide)
  · exact hnot name (List.mem_cons_of_mem _ hrest) hparam

theorem document_eq (hf : f.Unambiguous) :
    f.document = ("type", .string f.type) :: f.params ++ f.inside := by
  have hnames := nodup_names hf
  have hall : (Entries.keys (("type", Json.string f.type) :: f.params ++ f.inside)).Nodup := by
    rw [Entries.keys, List.map_append]
    exact ((List.Sublist.refl _).append f.keys_inside).nodup hnames
  have hfirst : (Entries.keys (Json.field "type" f.type ++ f.params)).Nodup :=
    hnames.sublist (List.sublist_append_left _ _)
  have hdocument : f.document = ((Json.field "type" f.type).setAll f.params).setAll f.inside := by
    rw [inside, ← setAll_documents hf.subFields, ← setAll_documents hf.properties]
    cases f
    rfl
  rw [hdocument, Entries.setAll_eq_append hfirst]
  exact Entries.setAll_eq_append hall

theorem nodup_keys_document (hf : f.Unambiguous) : f.document.keys.Nodup := by
  rw [document_eq hf, Entries.keys, List.map_append]
  exact ((List.Sublist.refl _).append f.keys_inside).nodup (nodup_names hf)

theorem get?_document (hf : f.Unambiguous) (name : String) :
    f.document.get? name =
      if name = "type" then some (.string f.type)
      else if name = "fields" then objectPart (documents f.subFields)
      else if name = "properties" then objectPart (documents f.properties)
      else f.params.get? name := by
  have hparams (h : name ∈ reserved) : f.params.get? name = none :=
    Entries.get?_eq_none_iff.mpr fun hmem => hf.unreserved name hmem h
  rw [document_eq hf, List.cons_append, Entries.get?_cons, Entries.get?_append, inside,
    Entries.get?_append, Json.get?_objectPart, Json.get?_objectPart]
  rcases eq_or_ne name "fields" with rfl | hfields
  · simp [hparams (by decide)]
  · rcases eq_or_ne name "properties" with rfl | hproperties
    · simp [hparams (by decide)]
    · simp [hfields, hproperties]

theorem filter_document (hf : f.Unambiguous) :
    f.document.filter (fun entry => entry.1 ∉ reserved) = f.params := by
  have hparams : f.params.filter (fun entry => entry.1 ∉ reserved) = f.params :=
    List.filter_eq_self.mpr fun entry hentry => by
      simpa using hf.unreserved entry.1 (List.mem_map_of_mem hentry)
  have hinside : f.inside.filter (fun entry => entry.1 ∉ reserved) = [] :=
    List.filter_eq_nil_iff.mpr fun entry hentry => by
      have hname := f.keys_inside.subset (List.mem_map_of_mem hentry)
      exact fun h => of_decide_eq_true h (List.mem_cons_of_mem "type" hname)
  rw [document_eq hf, List.cons_append, List.filter_cons_of_neg (by simp [reserved]),
    List.filter_append, hparams, hinside, List.append_nil]

theorem rel_of_document (hf : f.Unambiguous) (hg : g.Unambiguous)
    (h : m.Rel (Json.object f.document) (.object g.document)) :
    f.type = g.type ∧ m.Rel (Json.object f.params) (.object g.params) ∧
      m.Rel (Json.object (documents f.subFields)) (.object (documents g.subFields)) ∧
      m.Rel (Json.object (documents f.properties)) (.object (documents g.properties)) := by
  have hget := Json.rel_get? (nodup_keys_document hf) (nodup_keys_document hg) h
  simp only [get?_document hf, get?_document hg] at hget
  have htype : m.Rel (some (Json.string f.type)) (some (.string g.type)) := hget "type"
  have hfields : m.Rel (objectPart (documents f.subFields)) (objectPart (documents g.subFields)) :=
    hget "fields"
  have hproperties :
      m.Rel (objectPart (documents f.properties)) (objectPart (documents g.properties)) :=
    hget "properties"
  refine ⟨Json.rel_string.mp (rel_some.mp htype), ?_,
    Json.rel_object.mpr (rel_of_objectPart hfields),
    Json.rel_object.mpr (rel_of_objectPart hproperties)⟩
  cases m with
  | identity =>
      change Json.object f.params = .object g.params
      rw [← filter_document hf, ← filter_document hg, Json.object.inj h]
  | equality =>
      refine (Json.object_beq_iff hf.params hg.params).mpr fun name => ?_
      by_cases hname : name ∈ reserved
      · rw [Entries.get?_eq_none_iff.mpr fun hmem => hf.unreserved name hmem hname,
          Entries.get?_eq_none_iff.mpr fun hmem => hg.unreserved name hmem hname]
        rfl
      · have hvalue := hget name
        simp only [reserved, List.mem_cons, List.not_mem_nil, or_false, not_or] at hname
        rwa [if_neg hname.1, if_neg hname.1, if_neg hname.2.1, if_neg hname.2.1,
          if_neg hname.2.2, if_neg hname.2.2] at hvalue

def Same : Sameness → FieldMapping → FieldMapping → Prop
  | .identity, f, g => f = g
  | .equality, f, g => f.Alike g

theorem same_of_documents {fs gs : Entries FieldMapping} (hfs : fs.keys.Nodup)
    (hgs : gs.keys.Nodup)
    (h : m.Rel (Json.object (documents fs)) (.object (documents gs)))
    (ih : ∀ name f g, fs.get? name = some f → gs.get? name = some g →
      m.Rel (Json.object f.document) (.object g.document) → Same m f g) :
    m.Names fs.keys gs.keys ∧ fs.Agree (Same m) gs := by
  obtain ⟨hnames, hvalues⟩ :=
    Json.entries_of_rel (by rwa [keys_documents]) (by rwa [keys_documents]) h
  rw [keys_documents, keys_documents] at hnames
  refine ⟨hnames, fun name f g hf hg => ih name f g hf hg (hvalues name _ _ ?_ ?_)⟩
  · rw [get?_documents, hf, Option.map_some]
  · rw [get?_documents, hg, Option.map_some]

theorem same_of_parts {f g : FieldMapping} (hf : f.Named) (htype : f.type = g.type)
    (hparams : m.Names f.params.keys g.params.keys ∧ f.params.Agree m.Rel g.params)
    (hsub : m.Names f.subFields.keys g.subFields.keys ∧ f.subFields.Agree (Same m) g.subFields)
    (hprop : m.Names f.properties.keys g.properties.keys ∧
      f.properties.Agree (Same m) g.properties) : Same m f g := by
  cases m with
  | identity =>
      have hparams := Entries.eq_of_agree hparams.1 hf.params hparams.2
      have hsub := Entries.eq_of_agree hsub.1 hf.subFields hsub.2
      have hprop := Entries.eq_of_agree hprop.1 hf.properties hprop.2
      cases f
      cases g
      exact (mk.injEq ..).mpr ⟨htype, hparams, hsub, hprop⟩
  | equality => exact .intro htype hparams.1 hparams.2 hsub.1 hsub.2 hprop.1 hprop.2

theorem same_of_document (hf : f.Legible) (hg : g.Legible)
    (h : m.Rel (Json.object f.document) (.object g.document)) : Same m f g := by
  induction f using inner_induction generalizing g with
  | step f ihsub ihprop =>
      obtain ⟨htype, hparams, hsub, hprop⟩ := rel_of_document hf.here hg.here h
      refine same_of_parts hf.here.toNamed htype
        (Json.entries_of_rel hf.here.params hg.here.params hparams) ?_ ?_
      · exact same_of_documents hf.here.subFields hg.here.subFields hsub fun name x y hx hy =>
          ihsub name x hx (hf.subFields name x hx) (hg.subFields name y hy)
      · exact same_of_documents hf.here.properties hg.here.properties hprop fun name x y hx hy =>
          ihprop name x hx (hf.properties name x hx) (hg.properties name y hy)

end FieldMapping

theorem DynamicFields.eq_of_document {d e : DynamicFields} (h : m.Rel d.document e.document) :
    d = e := by
  cases d <;> cases e <;> first | rfl | (cases m <;> cases h)

namespace DynamicTemplate

def parts (t : DynamicTemplate) : List (String × Option Json) :=
  [("match_mapping_type", t.matchMappingType.map .string), ("match", t.matchName.map .string),
    ("unmatch", t.unmatchName.map .string), ("path_match", t.pathMatch.map .string),
    ("path_unmatch", t.pathUnmatch.map .string), ("mapping", some (.object t.mapping))]

theorem document_eq (t : DynamicTemplate) : t.document = present t.parts := by
  simp only [document, Json.stringField, Json.field?_eq_present, Json.field_eq_present,
    ← Json.present_append]
  rfl

theorem rel_of_parts {s t : DynamicTemplate} (h : m.Parts s.parts t.parts) : m.Rel s t := by
  simp only [Parts, parts, List.forall₂_cons] at h
  obtain ⟨htype, hmatch, hunmatch, hpath, hunpath, hmapping, -⟩ := h
  have htype := rel_of_strings htype
  have hmatch := rel_of_strings hmatch
  have hunmatch := rel_of_strings hunmatch
  have hpath := rel_of_strings hpath
  have hunpath := rel_of_strings hunpath
  have hmapping := Json.rel_object.mp (rel_some.mp hmapping)
  cases s
  cases t
  exact rel_congr₃ (f := fun a b p => DynamicTemplate.mk a b p.1 p.2.1 p.2.2.1 p.2.2.2)
    (fun _ _ _ _ _ _ => rfl) htype hmatch
    (rel_prod hunmatch (rel_prod hpath (rel_prod hunpath hmapping)))

end DynamicTemplate

namespace Mapping

variable {a b : Mapping}

theorem rel_of_templates (h : m.Rel (listPart (a.templates.map fun (name, t) =>
      .object (Json.objectUnder name t.document)))
    (listPart (b.templates.map fun (name, t) => .object (Json.objectUnder name t.document)))) :
    m.Rel a.templates b.templates := by
  have hitems := rel_list_iff.mp (rel_of_listPart h)
  rw [List.forall₂_map_left_iff, List.forall₂_map_right_iff] at hitems
  refine rel_list_iff.mpr (hitems.imp fun s t hst => ?_)
  obtain ⟨hname, hdocument⟩ := rel_of_field hst
  rw [DynamicTemplate.document_eq, DynamicTemplate.document_eq] at hdocument
  have hparts := Json.rel_parts hdocument rfl (by simp [Entries.keys, DynamicTemplate.parts])
  exact rel_prod (rel_iff_eq.mpr hname) (DynamicTemplate.rel_of_parts hparts)

/-! ## Whole mappings -/

structure Legible (m : Mapping) : Prop where
  distinct : m.fields.keys.Nodup
  fields : m.fields.All FieldMapping.Legible

def parts (a : Mapping) : List (String × Option Json) :=
  [("dynamic", a.dynamic.map DynamicFields.document),
    ("_source", a.sourceEnabled.map fun b : Bool => .object (Json.field "enabled" (.bool b))),
    ("dynamic_templates",
      listPart (a.templates.map fun (name, t) => .object (Json.objectUnder name t.document))),
    ("properties", some (.object a.fieldsDocument))]

theorem document_eq (a : Mapping) : a.document = present a.parts := by
  obtain ⟨dynamic, sourceEnabled, fields, templates⟩ := a
  cases sourceEnabled <;>
    simp only [document, templatesField, Json.objectUnder, Json.field?_eq_present,
      Json.listField_eq_present, Json.field_eq_present, ← Json.present_append] <;>
    rfl

theorem rel_of_document (ha : a.Legible) (hb : b.Legible)
    (h : m.Rel (Json.object a.document) (.object b.document)) :
    a.dynamic = b.dynamic ∧ a.sourceEnabled = b.sourceEnabled ∧ m.Rel a.templates b.templates ∧
      m.Names a.fields.keys b.fields.keys ∧ a.fields.Agree (FieldMapping.Same m) b.fields := by
  rw [document_eq, document_eq] at h
  have hparts := Json.rel_parts h rfl (by simp [Entries.keys, parts])
  simp only [parts, List.forall₂_cons] at hparts
  obtain ⟨hdynamic, hsource, htemplates, hfields, -⟩ := hparts
  have hdynamic := rel_of_map hdynamic fun x y _ _ hxy =>
    rel_iff_eq.mpr (DynamicFields.eq_of_document hxy)
  have hsource : m.Rel a.sourceEnabled b.sourceEnabled := rel_of_map hsource fun x y _ _ hxy =>
    rel_iff_eq.mpr (Json.rel_bool.mp (rel_of_field hxy).2)
  have hfields := rel_some.mp hfields
  rw [fieldsDocument, fieldsDocument, FieldMapping.setAll_documents ha.distinct,
    FieldMapping.setAll_documents hb.distinct] at hfields
  refine ⟨rel_iff_eq.mp hdynamic, rel_iff_eq.mp hsource, rel_of_templates htemplates, ?_⟩
  exact FieldMapping.same_of_documents ha.distinct hb.distinct hfields fun name f g hf hg =>
    FieldMapping.same_of_document (ha.fields name f hf) (hb.fields name g hg)

theorem eq_of_document (ha : a.Legible) (hb : b.Legible) (h : a.document = b.document) : a = b := by
  obtain ⟨hdynamic, hsource, htemplates, hnames, hfields⟩ :=
    rel_of_document (m := identity) ha hb (congrArg Json.object h)
  have hfields : a.fields = b.fields := Entries.eq_of_agree hnames ha.distinct hfields
  cases a
  cases b
  exact (mk.injEq ..).mpr ⟨hdynamic, hsource, hfields, htemplates⟩

theorem alike_of_document (ha : a.Legible) (hb : b.Legible)
    (h : (Json.object a.document == Json.object b.document) = true) : a.Alike b := by
  obtain ⟨hdynamic, hsource, htemplates, hnames, hfields⟩ :=
    rel_of_document (m := equality) ha hb h
  obtain ⟨htemplateNames, htemplates⟩ := Entries.agree_of_rel htemplates
  exact ⟨hdynamic, hsource, .of_eq htemplateNames, htemplates, hnames, hfields⟩

theorem rel_of_documentFor (f : Features) (h : m.Rel (a.documentFor f) (b.documentFor f)) :
    m.Rel (Json.object a.document) (.object b.document) := by
  unfold documentFor at h
  split at h
  · exact (rel_of_field h).2
  · exact h

theorem documentFor_of_body {f : Features} {i j : String} {s t : Option Object}
    (h : (createIndexRequest f i s a).body = (createIndexRequest f j t b).body) :
    a.documentFor f = b.documentFor f := by
  simp only [createIndexRequest, Option.some.injEq, RequestBody.document.injEq,
    Json.field?_eq_present, Json.field_eq_present, ← Json.present_append] at h
  have hparts := Json.rel_parts (m := identity) h rfl (by simp [Entries.keys])
  simp only [List.cons_append, List.nil_append, List.forall₂_cons] at hparts
  exact Option.some.inj hparts.2.1

/--
A mapping is known from its document, to the order of the entries: two mappings
that a new index or a later change of it is sent with are identical if what is
sent is.  Documents that are equal whatever the order of their fields come
from mappings that differ only in the order of entries.
-/
theorem documents_determine_mapping (ha : a.Legible) (hb : b.Legible) (f : Features) :
    (a.documentFor f = b.documentFor f → a = b) ∧
      (∀ i j s t, (createIndexRequest f i s a).body = (createIndexRequest f j t b).body → a = b) ∧
      (∀ i j, (updateMappingRequest f i a).body = (updateMappingRequest f j b).body → a = b) ∧
      ((a.documentFor f == b.documentFor f) = true → a.Alike b) ∧
      ((Json.object a.document == Json.object b.document) = true → a.Alike b) := by
  have hfor (h : a.documentFor f = b.documentFor f) : a = b :=
    eq_of_document ha hb (Json.object.inj (rel_of_documentFor (m := identity) f h))
  refine ⟨hfor, fun i j s t h => hfor (documentFor_of_body h), fun i j h => ?_, fun h => ?_,
    alike_of_document ha hb⟩
  · simp only [updateMappingRequest, Option.some.injEq, RequestBody.document.injEq,
      Json.object.injEq] at h
    exact eq_of_document ha hb h
  · exact alike_of_document ha hb (rel_of_documentFor (m := equality) f h)

theorem documents_determine_mapping_reordered :
    let title : FieldMapping := .mk "text" [("boost", .int 2)] [("raw", .mk "keyword" [] [] [])] []
    let author : FieldMapping := .mk "object" [] [] [("name", .mk "text" [] [] [])]
    let a : Mapping :=
      { dynamic := some .strict
        templates := [("codes", { matchName := some "*_code" })]
        fields := [("title", title), ("author", author)] }
    let b : Mapping := { a with fields := [("author", author), ("title", title)] }
    (a.documentFor .typed == b.documentFor .typed) = true ∧ a.Alike b ∧
      a.documentFor .typed ≠ b.documentFor .typed ∧
      (updateMappingRequest .untyped "books" a).body ≠
        (updateMappingRequest .untyped "shelves" b).body := by
  intro title author a b
  have hleaf (type : String) : (FieldMapping.mk type [] [] []).Legible :=
    .intro ⟨⟨.nil, .nil, .nil⟩, by simp [FieldMapping.params]⟩ Entries.All.nil Entries.All.nil
  have htitle : title.Legible :=
    .intro ⟨⟨by decide, by decide, by decide⟩, by decide⟩
      (Entries.All.cons (hleaf "keyword") .nil) Entries.All.nil
  have hauthor : author.Legible :=
    .intro ⟨⟨by decide, by decide, by decide⟩, by decide⟩ Entries.All.nil
      (Entries.All.cons (hleaf "text") .nil)
  have ha : a.Legible := ⟨by decide, .cons htitle (.cons hauthor .nil)⟩
  have hb : b.Legible := ⟨by decide, .cons hauthor (.cons htitle .nil)⟩
  have hequal : (a.documentFor .typed == b.documentFor .typed) = true := by decide
  have hne : a ≠ b := fun h => absurd (congrArg (Entries.keys ∘ fields) h) (by decide)
  obtain ⟨hidentical, -, -, halike, -⟩ := documents_determine_mapping ha hb .typed
  obtain ⟨-, -, hupdate, -⟩ := documents_determine_mapping ha hb .untyped
  exact ⟨hequal, halike hequal, fun h => hne (hidentical h), fun h => hne (hupdate _ _ h)⟩

end Mapping

end SearchClient
