import SearchClient.Proofs.Json.Sameness
import SearchClient.Proofs.Placeless

/-!
# Several searches in one request

A request for several searches has two lines for each of them, and its answer is
read element by element, each for the search at the same place.  There must be
as many elements as searches, and the first that cannot be read decides.  An
element gives the result that it would give as an answer of its own, unless
documents are read for where they stand.
-/

namespace SearchClient

open Json (Cursor Items Path present)
open Json.Cursor (array_eq_ok_iff ofDocument_eq_ok_iff object?_eq_some_iff read?_eq_none_iff
  require_eq_ok_iff value?_eq_none_iff value?_eq_some_iff)

variable {δ : Type}

section

variable {α β : Type} (first second : α → β)

theorem length_flatMap_pair (xs : List α) :
    (xs.flatMap fun x => [first x, second x]).length = 2 * xs.length := by
  induction xs with
  | nil => rfl
  | cons x xs ih =>
      rw [List.flatMap_cons, List.length_append, ih, List.length_cons]
      simp only [List.length_cons, List.length_nil]
      omega

theorem getElem?_flatMap_pair (xs : List α) (i : Nat) :
    (xs.flatMap fun x => [first x, second x])[2 * i]? = xs[i]?.map first ∧
      (xs.flatMap fun x => [first x, second x])[2 * i + 1]? = xs[i]?.map second := by
  induction xs generalizing i with
  | nil => simp
  | cons x xs ih =>
      cases i with
      | zero => exact ⟨rfl, rfl⟩
      | succ i => exact ih i

end

theorem Search.header_eq (index : String) (p : SearchParams) :
    header index p = .object (present
      [("index", some (.string index)), ("routing", p.routing.map .string),
        ("preference", p.preference.map .string), ("search_type", p.searchType.map .string),
        ("request_cache", p.requestCache.map .bool)]) := by
  simp only [header, Json.field_eq_present, Json.stringField, Json.boolField,
    Json.field?_eq_present, ← Json.present_append]
  rfl

/-- An element fails its search exactly when it holds an error, and is read for it otherwise. -/
inductive MultiItem.Answers (s : Search δ) (c : Cursor) : MultiItem δ → Prop where
  | failed {error : Cursor} {status : Option Int} {cause : ErrorCause}
      (herror : c.object? "error" = .ok (some error)) (hstatus : c.long? "status" = .ok status)
      (hcause : ErrorCause.read error = .ok cause) : Answers s c (.failed status cause)
  | result {result : SearchResult δ} (herror : c.value? "error" = none)
      (hread : SearchResult.read s c = .ok result) : Answers s c (.result result)

theorem MultiItem.read_eq_ok_iff {s : Search δ} {c : Cursor} {item : MultiItem δ} :
    MultiItem.read s c = .ok item ↔ item.Answers s c := by
  unfold MultiItem.read
  rw [bind_eq_ok_iff]
  constructor
  · rintro ⟨found, hfound, h⟩
    cases found with
    | none =>
        obtain ⟨result, hread, rfl⟩ := map_eq_ok_iff.mp h
        exact .result (read?_eq_none_iff.mp hfound) hread
    | some error =>
        obtain ⟨status, hstatus, h⟩ := bind_eq_ok_iff.mp h
        obtain ⟨cause, hcause, h⟩ := bind_eq_ok_iff.mp h
        cases h
        exact .failed hfound hstatus hcause
  · rintro (⟨herror, hstatus, hcause⟩ | ⟨herror, hread⟩)
    · exact ⟨_, herror, bind_eq_ok_iff.mpr ⟨_, hstatus, bind_eq_ok_iff.mpr ⟨_, hcause, rfl⟩⟩⟩
    · exact ⟨none, read?_eq_none_iff.mpr herror, map_eq_ok_iff.mpr ⟨_, hread, rfl⟩⟩

def responsesPath : Path := ⟨"", [.name "responses"]⟩

/-! ## Answers -/

section

variable {searches : List (Search δ)} {fields : Json.Object} {values : List Json}

def readElement (values : List Json) (i : Nat) (s : Search δ) : Except Error (MultiItem δ) :=
  Items.object ⟨values, responsesPath⟩ i >>= MultiItem.read s

theorem objects_zip (hlength : values.length = searches.length) :
    (Items.objects ⟨values, responsesPath⟩).zip searches =
      searches.zipIdx.map fun (s, i) => (Items.object ⟨values, responsesPath⟩ i, s) := by
  refine List.ext_getElem (by simp [Items.objects, hlength]) fun i hi hi' => ?_
  simp [Items.objects]

theorem readMulti_object (hvalues : fields.get? "responses" = some (.array values)) :
    readMulti searches (.object fields) =
      if values.length < searches.length then
        .error (.missingField (responsesPath.item values.length))
      else if searches.length < values.length then
        .error (.invalidType responsesPath "one response per search")
      else
        searches.zipIdx.mapM fun (s, i) => readElement values i s := by
  have harray : (⟨fields, {}⟩ : Cursor).array "responses" = .ok ⟨values, responsesPath⟩ :=
    array_eq_ok_iff.mpr ⟨values, hvalues, rfl⟩
  change ((⟨fields, {}⟩ : Cursor).array "responses" >>= _) = _
  rw [harray]
  change (if values.length < searches.length then _ else _) = _
  split_ifs with hshort hlong
  · rfl
  · rfl
  · rw [objects_zip (Nat.le_antisymm (Nat.le_of_not_lt hlong) (Nat.le_of_not_lt hshort)),
      List.mapM_map]
    rfl

theorem getElem?_zipIdx_iff {i j : Nat} {s : Search δ} :
    searches.zipIdx[i]? = some (s, j) ↔ searches[i]? = some s ∧ j = i := by
  rw [List.getElem?_zipIdx, Option.map_eq_some_iff]
  constructor
  · rintro ⟨s, hs, heq⟩
    obtain ⟨rfl, rfl⟩ := Prod.mk.inj heq
    exact ⟨hs, Nat.zero_add i⟩
  · rintro ⟨hs, rfl⟩
    exact ⟨s, hs, by rw [Nat.zero_add]⟩

theorem readElements_eq_ok_iff {items : List (MultiItem δ)} :
    (searches.zipIdx.mapM fun (s, i) => readElement values i s) = .ok items ↔
      items.length = searches.length ∧
        ∀ (i : Nat) (s : Search δ) (item : MultiItem δ), searches[i]? = some s →
          items[i]? = some item → readElement values i s = .ok item := by
  rw [mapM_eq_ok_iff_getElem?, List.length_zipIdx]
  refine and_congr_right fun _ => ?_
  constructor
  · intro h i s item hs hitem
    exact h i (s, i) item (getElem?_zipIdx_iff.mpr ⟨hs, rfl⟩) hitem
  · rintro h i ⟨s, j⟩ item hs hitem
    obtain ⟨hs, rfl⟩ := getElem?_zipIdx_iff.mp hs
    exact h j s item hs hitem

theorem readElements_eq_error_iff {e : Error} :
    (searches.zipIdx.mapM fun (s, i) => readElement values i s) = .error e ↔
      ∃ i s, searches[i]? = some s ∧ readElement values i s = .error e ∧
        ∀ j s, j < i → searches[j]? = some s → (readElement values j s).isOk := by
  rw [mapM_eq_error_iff]
  constructor
  · rintro ⟨i, ⟨s, j⟩, hs, he, hbefore⟩
    obtain ⟨hs, rfl⟩ := getElem?_zipIdx_iff.mp hs
    refine ⟨j, s, hs, he, fun k s hk hsk => ?_⟩
    exact hbefore k (s, k) hk (getElem?_zipIdx_iff.mpr ⟨hsk, rfl⟩)
  · rintro ⟨i, s, hs, he, hbefore⟩
    refine ⟨i, (s, i), getElem?_zipIdx_iff.mpr ⟨hs, rfl⟩, he, ?_⟩
    rintro j ⟨s, k⟩ hj hsj
    obtain ⟨hsj, rfl⟩ := getElem?_zipIdx_iff.mp hsj
    exact hbefore k s hj hsj

theorem readElement_eq_ok_iff {i : Nat} {s : Search δ} {item : MultiItem δ} :
    readElement values i s = .ok item ↔
      ∃ element, values[i]? = some (.object element) ∧
        item.Answers s ⟨element, responsesPath.item i⟩ := by
  unfold readElement
  rw [bind_eq_ok_iff]
  simp only [MultiItem.read_eq_ok_iff, Items.object_eq_ok_iff]
  constructor
  · rintro ⟨_, ⟨element, helement, rfl⟩, hitem⟩
    exact ⟨element, helement, hitem⟩
  · rintro ⟨element, helement, hitem⟩
    exact ⟨_, ⟨element, helement, rfl⟩, hitem⟩

theorem Search.Placeless.read_eq_ok_iff {s : Search δ} {c : Cursor} {result : SearchResult δ}
    (hs : s.Placeless) (f : Features) (indices : List String) :
    SearchResult.read s c = .ok result ↔
      (s.request f indices).read (.object c.fields) = .ok result :=
  (SearchResult.read_placeless hs c ⟨c.fields, {}⟩ rfl).ok_iff result

/-- An element without an error has the result that it has as an answer of its own. -/
theorem readElement_eq_ok_result_iff {i : Nat} {s : Search δ} {element : Json.Object}
    (hs : s.Placeless) (helement : values[i]? = some (.object element))
    (herror : ∀ error, Entries.get? element "error" = some error → error = .null) (f : Features)
    (indices : List String) (result : SearchResult δ) :
    readElement values i s = .ok (.result result) ↔
      (s.request f indices).read (.object element) = .ok result := by
  have hnone : (⟨element, responsesPath.item i⟩ : Cursor).value? "error" = none := by
    rw [value?_eq_none_iff]
    cases hfound : Entries.get? element "error" with
    | none => exact .inl rfl
    | some error => exact .inr (congrArg some (herror error hfound))
  rw [← hs.read_eq_ok_iff (c := ⟨element, responsesPath.item i⟩) f indices, readElement_eq_ok_iff]
  constructor
  · rintro ⟨other, hother, hanswers⟩
    obtain rfl := Json.object.inj (Option.some.inj (helement.symm.trans hother))
    cases hanswers with
    | result _ hread => exact hread
  · exact fun hread => ⟨element, helement, .result hnone hread⟩

end

theorem getElem?_map_snd {pairs : List (String × Search δ)} {i : Nat} {s : Search δ} :
    (pairs.map (·.2))[i]? = some s ↔ ∃ index, pairs[i]? = some (index, s) := by
  rw [List.getElem?_map, Option.map_eq_some_iff]
  constructor
  · rintro ⟨⟨index, s⟩, hs, rfl⟩
    exact ⟨index, hs⟩
  · rintro ⟨index, hs⟩
    exact ⟨_, hs, rfl⟩

theorem multiRequest_read_object (f : Features) (pairs : List (String × Search δ))
    {fields : Json.Object} {values : List Json}
    (hvalues : fields.get? "responses" = some (.array values)) :
    (Search.multiRequest f pairs).read (.object fields) =
      if values.length < pairs.length then
        .error (.missingField (responsesPath.item values.length))
      else if pairs.length < values.length then
        .error (.invalidType responsesPath "one response per search")
      else
        (pairs.map (·.2)).zipIdx.mapM fun (s, i) => readElement values i s := by
  change readMulti (pairs.map (·.2)) (.object fields) = _
  rw [readMulti_object hvalues, List.length_map]

namespace MultiItem.Answers

variable {s : Search δ} {c : Cursor} {item : MultiItem δ}

theorem failed_iff (h : item.Answers s c) :
    (∃ status cause, item = .failed status cause) ↔
      ∃ error, c.fields.get? "error" = some error ∧ error ≠ .null := by
  cases h with
  | failed herror =>
      obtain ⟨fields, hfields, -⟩ := object?_eq_some_iff.mp herror
      exact ⟨fun _ => ⟨_, hfields, by simp⟩, fun _ => ⟨_, _, rfl⟩⟩
  | result herror =>
      constructor
      · rintro ⟨_, _, ⟨⟩⟩
      · intro hfound
        obtain ⟨error, hfound⟩ := hfound
        rw [value?_eq_some_iff.mpr hfound] at herror
        cases herror

theorem of_failed {status : Option Int} {cause : ErrorCause}
    (h : (MultiItem.failed status cause).Answers s c) :
    c.long? "status" = .ok status ∧ c.object "error" >>= ErrorCause.read = .ok cause := by
  cases h with
  | failed herror hstatus hcause =>
      exact ⟨hstatus, bind_eq_ok_iff.mpr ⟨_, require_eq_ok_iff.mpr herror, hcause⟩⟩

theorem of_result {result : SearchResult δ} (h : (MultiItem.result result).Answers s c) :
    SearchResult.read s c = .ok result ∧
      (s.Placeless → ∀ f indices, (s.request f indices).read (.object c.fields) = .ok result) := by
  cases h with
  | result herror hread =>
      exact ⟨hread, fun hs f indices => (hs.read_eq_ok_iff f indices).mp hread⟩

end MultiItem.Answers

/--
A request for several searches has a header and a body for each of them, in
order; the header has the index and the parameters of its search that are set.
The answer is read only if it has one element for each search, and then each item
is what the element at its index says of the search at that index: why it failed,
if there is an error, or its result.  With too few or too many elements the error
says so; otherwise the first element that cannot be read decides the error.  An
element without an error is read as an answer of its own would be, if no reader
of documents looks at the place of a hit.
-/
theorem several_searches_paired (f : Features) (searches : List (String × Search δ)) :
    (∃ lines, (Search.multiRequest f searches).body = some (.lines lines) ∧
      lines.length = 2 * searches.length ∧
      ∀ (i : Nat) (index : String) (s : Search δ), searches[i]? = some (index, s) →
        lines[2 * i]? = some (Search.header index s.params) ∧
        Search.header index s.params = .object (present
          [("index", some (.string index)), ("routing", s.params.routing.map .string),
            ("preference", s.params.preference.map .string),
            ("search_type", s.params.searchType.map .string),
            ("request_cache", s.params.requestCache.map .bool)]) ∧
        lines[2 * i + 1]? = some (s.body f)) ∧
    (∀ response items, (Search.multiRequest f searches).read response = .ok items →
      ∃ fields values, response = .object fields ∧
        Entries.get? fields "responses" = some (.array values) ∧
        values.length = searches.length ∧ items.length = searches.length ∧
        ∀ (i : Nat) (index : String) (s : Search δ) (item : MultiItem δ),
          searches[i]? = some (index, s) → items[i]? = some item →
          ∃ element, values[i]? = some (.object element) ∧
            ((∃ status cause, item = .failed status cause) ↔
              ∃ error, Entries.get? element "error" = some error ∧ error ≠ .null) ∧
            (∀ status cause, item = .failed status cause →
              (⟨element, responsesPath.item i⟩ : Cursor).long? "status" = .ok status ∧
              (⟨element, responsesPath.item i⟩ : Cursor).object "error" >>= ErrorCause.read =
                .ok cause) ∧
            ∀ result, item = .result result →
              SearchResult.read s ⟨element, responsesPath.item i⟩ = .ok result ∧
              (s.Placeless → ∀ f' indices,
                (s.request f' indices).read (.object element) = .ok result)) ∧
    (∀ fields values, Entries.get? fields "responses" = some (.array values) →
      (values.length < searches.length →
        (Search.multiRequest f searches).read (.object fields) =
          .error (.missingField (responsesPath.item values.length)) ∧
        (responsesPath.item values.length).text =
          "responses[" ++ toString values.length ++ "]") ∧
      (searches.length < values.length →
        (Search.multiRequest f searches).read (.object fields) =
          .error (.invalidType responsesPath "one response per search") ∧
        responsesPath.text = "responses") ∧
      (values.length = searches.length → ∀ e,
        (Search.multiRequest f searches).read (.object fields) = .error e ↔
          ∃ i index s, searches[i]? = some (index, s) ∧ readElement values i s = .error e ∧
            ∀ j index s, j < i → searches[j]? = some (index, s) →
              (readElement values j s).isOk)) ∧
    (∀ (values : List Json) (i : Nat) (s : Search δ) (element : Json.Object), s.Placeless →
      values[i]? = some (.object element) →
      (∀ error, Entries.get? element "error" = some error → error = .null) →
      ∀ f' indices result, readElement values i s = .ok (.result result) ↔
        (s.request f' indices).read (.object element) = .ok result) ∧
    Placeless DocReader.raw ∧ ∀ read : Json → Option δ, Placeless (DocReader.typed read) := by
  have hpath : responsesPath.text = "responses" := by decide +kernel
  refine ⟨⟨_, rfl, ?_, fun i index s hs => ?_⟩, fun response items hread => ?_,
    fun fields values hvalues => ?_, fun values i s element hs helement herror =>
    readElement_eq_ok_result_iff hs helement herror, DocReader.raw_placeless,
    DocReader.typed_placeless⟩
  · exact length_flatMap_pair (fun e => Search.header e.1 e.2.params) (fun e => e.2.body f) searches
  · have hlines := getElem?_flatMap_pair (fun e : String × Search δ => Search.header e.1 e.2.params)
      (fun e => e.2.body f) searches i
    rw [hs] at hlines
    exact ⟨hlines.1, Search.header_eq index s.params, hlines.2⟩
  · obtain ⟨c, hc, hrest⟩ := bind_eq_ok_iff.mp hread
    obtain ⟨fields, rfl, rfl⟩ := ofDocument_eq_ok_iff.mp hc
    obtain ⟨answers, hanswers, -⟩ := bind_eq_ok_iff.mp hrest
    obtain ⟨values, hvalues, rfl⟩ := array_eq_ok_iff.mp hanswers
    rw [multiRequest_read_object f searches hvalues] at hread
    split_ifs at hread with hshort hlong
    obtain ⟨hitems, hitem⟩ := readElements_eq_ok_iff.mp hread
    rw [List.length_map] at hitems
    refine ⟨fields, values, rfl, hvalues, by omega, hitems, fun i index s item hs hi => ?_⟩
    have hanswer := hitem i s item (getElem?_map_snd.mpr ⟨index, hs⟩) hi
    obtain ⟨element, helement, hanswers⟩ := readElement_eq_ok_iff.mp hanswer
    refine ⟨element, helement, hanswers.failed_iff, ?_, ?_⟩
    · rintro status cause rfl
      exact hanswers.of_failed
    · rintro result rfl
      exact hanswers.of_result
  · rw [multiRequest_read_object f searches hvalues]
    refine ⟨fun hshort => ⟨if_pos hshort, ?_⟩, fun hlong => ⟨?_, hpath⟩, fun hlength e => ?_⟩
    · rw [Path.text_item, hpath]
      rfl
    · rw [if_neg (by omega), if_pos hlong]
    · rw [if_neg (by omega), if_neg (by omega), readElements_eq_error_iff]
      simp only [getElem?_map_snd]
      constructor
      · rintro ⟨i, s, ⟨index, hs⟩, he, hbefore⟩
        exact ⟨i, index, s, hs, he, fun j index s hj hs => hbefore j s hj ⟨index, hs⟩⟩
      · rintro ⟨i, index, s, hs, he, hbefore⟩
        exact ⟨i, s, ⟨index, hs⟩, he, fun j s hj ⟨index, hs⟩ => hbefore j index s hj hs⟩

/-- The first search is refused, and the second one has the result it has by itself. -/
theorem several_searches_paired_mixed :
    let s : Search Json := { doc := .raw }
    let refused : Json.Object :=
      [("status", .int 404), ("error", .object [("type", .string "missing")])]
    let found : Json.Object := [("took", .int 1), ("hits", .object [("hits", .array [])])]
    let response : Json := .object [("responses", .array [.object refused, .object found])]
    ∃ result, (Search.multiRequest .untyped [("a", s), ("b", s)]).read response =
        .ok [.failed (some 404) ⟨"missing", none⟩, .result result] ∧
      (s.request .untyped []).read (.object found) = .ok result := by
  intro s refused found response
  let result : SearchResult Json := ⟨1, false, none, ⟨none, none, []⟩, []⟩
  have hread : (Search.multiRequest .untyped [("a", s), ("b", s)]).read response =
      .ok [.failed (some 404) ⟨"missing", none⟩, .result result] := by rfl
  have hs : s.Placeless := ⟨DocReader.raw_placeless, by simp [s]⟩
  obtain ⟨_, hpaired, -⟩ := several_searches_paired .untyped [("a", s), ("b", s)]
  obtain ⟨fields, values, hfields, hvalues, -, -, hitem⟩ := hpaired response _ hread
  obtain rfl := Json.object.inj hfields
  obtain rfl : [.object refused, .object found] = values :=
    Json.array.inj (Option.some.inj hvalues)
  obtain ⟨element, helement, -, -, hresult⟩ := hitem 1 "b" s _ rfl rfl
  obtain rfl : found = element := Json.object.inj (Option.some.inj helement)
  exact ⟨result, hread, (hresult result rfl).2 hs .untyped []⟩

/-- A reader that takes the place of a hit for its document tells a search among several apart. -/
theorem several_searches_differ_by_place :
    let place : DocReader String := fun hit => .ok (some hit.path.text)
    let s : Search String := { doc := place }
    let hit : Json := .object [("_index", .string "posts"), ("_id", .string "1")]
    let element : Json.Object :=
      [("took", .int 1), ("hits", .object [("hits", .array [hit])])]
    ∃ among alone, (Search.multiRequest .untyped [("posts", s)]).read
        (.object [("responses", .array [.object element])]) = .ok [.result among] ∧
      (s.request .untyped ["posts"]).read (.object element) = .ok alone ∧
      among.hits.hits.map (·.doc) ≠ alone.hits.hits.map (·.doc) := by
  intro place s hit element
  let inHits : List Json.Step := [.name "hits", .name "hits", .index 0]
  let result (doc : String) : SearchResult String :=
    ⟨1, false, none, ⟨none, none,
      [⟨"posts", "_doc", "1", none, none, none, none, none, some doc, [], none⟩]⟩, []⟩
  have htext : (⟨"", .name "responses" :: .index 0 :: inHits⟩ : Path).text ≠
      (⟨"", inHits⟩ : Path).text := by decide +kernel
  refine ⟨result (⟨"", .name "responses" :: .index 0 :: inHits⟩ : Path).text,
    result (⟨"", inHits⟩ : Path).text, rfl, rfl, ?_⟩
  simpa [result] using htext

end SearchClient
