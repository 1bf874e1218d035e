import SearchClient.Proofs.Aggs.Buckets
import SearchClient.Proofs.Parallel

/-!
# The two shapes of percentiles

Percentiles come as an object whose names are the percentages, or as a list of
pairs.  A value in the object that is no number counts as absent, whatever it
is; in the list it is an error.  So both shapes of one answer are read alike if
and only if every value is a number or null.
-/

namespace SearchClient

open Json (Object Cursor Items)
open Json.Cursor (value_eq_ok_iff)

def Json.isMeasured : Json → Bool
  | .null | .int _ | .float _ => true
  | _ => false

section

variable {entries : Object} {percent : String → Float} {number : String → Json}
  {keyed listed : Cursor}

theorem readPercentiles_object (hkeyed : keyed.fields.get? "values" = some (.object entries))
    (hpercent : ∀ e ∈ entries, Decimal.float? e.1 = some (percent e.1)) :
    readPercentiles keyed = .ok (entries.map fun e => (percent e.1, e.2.double?)) := by
  unfold readPercentiles
  rw [value_eq_ok_iff.mpr ⟨hkeyed, by simp⟩]
  change entries.mapM _ = _
  rw [mapM_eq_ok_iff, List.forall₂_map_right_iff, List.forall₂_same]
  intro e he
  simp only [hpercent e he]

def readPercentile (c : Cursor) : Except Error (Float × Option Float) := do
  return (← c.double "key", ← c.double? "value")

theorem readPercentiles_array {values : List Json}
    (hlisted : listed.fields.get? "values" = some (.array values)) :
    readPercentiles listed =
      Items.mapObjects ⟨values, listed.path.field "values"⟩ readPercentile := by
  unfold readPercentiles
  rw [value_eq_ok_iff.mpr ⟨hlisted, by simp⟩]
  rfl

theorem readPercentile_eq {n value : Json} {p : Float} (hn : n.double? = some p)
    (path : Json.Path) :
    readPercentile ⟨[("key", n), ("value", value)], path⟩ =
      if value.isMeasured then .ok (p, value.double?)
      else .error (.invalidType (path.field "value") "number") := by
  have hkey : Cursor.double ⟨[("key", n), ("value", value)], path⟩ "key" = .ok p := by
    refine Json.Cursor.require_eq_ok_iff.mpr ((Json.Cursor.read?_eq_some_iff rfl).mpr ?_)
    exact ⟨n, rfl, hn⟩
  rw [readPercentile, hkey]
  cases value <;> rfl

section

variable
  (hlisted : listed.fields.get? "values" =
    some (.array (entries.map fun e => .object [("key", number e.1), ("value", e.2)])))
  (hnumber : ∀ e ∈ entries, (number e.1).double? = some (percent e.1))

include hnumber in
theorem read_object_listed {i : Nat} {e : String × Json} (he : entries[i]? = some e)
    (path : Json.Path) :
    Items.object ⟨entries.map fun e => .object [("key", number e.1), ("value", e.2)], path⟩ i >>=
        readPercentile =
      if e.2.isMeasured then .ok (percent e.1, e.2.double?)
      else .error (.invalidType ((path.item i).field "value") "number") := by
  rw [Json.Items.object_eq_ok_iff.mpr ⟨_, by rw [List.getElem?_map, he]; rfl, rfl⟩]
  exact readPercentile_eq (hnumber e (List.mem_of_getElem? he)) _

include hlisted hnumber

theorem readPercentiles_listed (hmeasured : ∀ e ∈ entries, e.2.isMeasured = true) :
    readPercentiles listed = .ok (entries.map fun e => (percent e.1, e.2.double?)) := by
  rw [readPercentiles_array hlisted, Items.mapObjects_eq, mapM_eq_ok_iff_getElem?]
  refine ⟨by simp, fun k index result hindex hresult => ?_⟩
  rw [List.getElem?_map, Option.map_eq_some_iff] at hresult
  obtain ⟨e, he, rfl⟩ := hresult
  obtain ⟨hk, rfl⟩ := List.getElem?_eq_some_iff.mp hindex
  rw [List.getElem_range, read_object_listed hnumber he,
    if_pos (hmeasured e (List.mem_of_getElem? he))]

theorem measured_of_readPercentiles {results : List (Float × Option Float)}
    (h : readPercentiles listed = .ok results) : ∀ e ∈ entries, e.2.isMeasured = true := by
  rw [readPercentiles_array hlisted, Items.mapObjects_eq, mapM_eq_ok_iff_getElem?] at h
  obtain ⟨hlength, hread⟩ := h
  intro e he
  obtain ⟨k, hk, rfl⟩ := List.mem_iff_getElem.mp he
  have hresult : k < results.length := by simpa [hlength] using hk
  have hitem := hread k k results[k] (by simp [hk]) (List.getElem?_eq_getElem hresult)
  rw [read_object_listed hnumber (List.getElem?_eq_getElem hk)] at hitem
  by_contra hnot
  rw [if_neg hnot] at hitem
  cases hitem

theorem readPercentiles_listed_eq_error {i : Nat} {e : String × Json} (he : entries[i]? = some e)
    (hbad : e.2.isMeasured = false)
    (hbefore : ∀ (j : Nat) (e' : String × Json), j < i → entries[j]? = some e' →
      e'.2.isMeasured = true) :
    readPercentiles listed =
      .error (.invalidType (((listed.path.field "values").item i).field "value") "number") := by
  have hlength : i < entries.length := (List.getElem?_eq_some_iff.mp he).1
  rw [readPercentiles_array hlisted, Items.mapObjects_eq, mapM_eq_error_iff]
  refine ⟨i, i, by simp [hlength], ?_, fun j index hj hindex => ?_⟩
  · rw [read_object_listed hnumber he, hbad]
    rfl
  · obtain ⟨-, rfl⟩ := List.getElem?_eq_some_iff.mp hindex
    have he' : entries[j]? = some entries[j] := List.getElem?_eq_getElem (Nat.lt_trans hj hlength)
    rw [List.getElem_range, read_object_listed hnumber he', hbefore j _ hj he']
    rfl

end

end

variable {δ : Type}

theorem read_percentiles (source : AggSource) (percents : List Float) (flag : Option Bool)
    (c : Cursor) :
    (Agg.metric (δ := δ) (.percentiles source percents flag)).read c =
      .percentiles <$> readPercentiles c := by
  rw [Agg.read]
  rfl

/--
The same entries are given as an object and as a list of pairs.  From the object
every entry is read, with its value where that is a number.  Both shapes are read
alike if and only if every value is a number or null; otherwise the list fails at
the first value that is neither.
-/
theorem percentile_shapes_agree_iff (source : AggSource) (percents : List Float)
    (flag : Option Bool) (entries : Object) (percent : String → Float) (number : String → Json)
    (hpercent : ∀ e ∈ entries, Decimal.float? e.1 = some (percent e.1))
    (hnumber : ∀ e ∈ entries, (number e.1).double? = some (percent e.1)) (keyed listed : Cursor)
    (hkeyed : keyed.fields.get? "values" = some (.object entries))
    (hlisted : listed.fields.get? "values" =
      some (.array (entries.map fun e => .object [("key", number e.1), ("value", e.2)]))) :
    let agg : Agg δ := .metric (.percentiles source percents flag)
    agg.read keyed = .ok (.percentiles (entries.map fun e => (percent e.1, e.2.double?))) ∧
    (Parallel Eq (agg.read keyed) (agg.read listed) ↔ ∀ e ∈ entries, e.2.isMeasured = true) ∧
    ∀ (i : Nat) (e : String × Json), entries[i]? = some e → e.2.isMeasured = false →
      (∀ (j : Nat) (e' : String × Json), j < i → entries[j]? = some e' →
        e'.2.isMeasured = true) →
      agg.read listed =
        .error (.invalidType (((listed.path.field "values").item i).field "value") "number") := by
  intro agg
  have hobject : agg.read keyed =
      .ok (.percentiles (entries.map fun e => (percent e.1, e.2.double?))) := by
    rw [read_percentiles, readPercentiles_object hkeyed hpercent]
    rfl
  refine ⟨hobject, ⟨fun hparallel => ?_, fun hmeasured => ?_⟩, fun i e he hbad hbefore => ?_⟩
  · have hlist := (hparallel.ok_iff _).mp hobject
    rw [read_percentiles, map_eq_ok_iff] at hlist
    obtain ⟨results, hresults, -⟩ := hlist
    exact measured_of_readPercentiles hlisted hnumber hresults
  · rw [hobject, read_percentiles, readPercentiles_listed hlisted hnumber hmeasured]
    exact .ok rfl
  · rw [read_percentiles, readPercentiles_listed_eq_error hlisted hnumber he hbad hbefore]
    rfl

theorem percentile_shapes_agree_iff_repeated :
    let agg : Agg Json := .metric (.percentiles ⟨⟨.double, .field "latency"⟩, none⟩ [] none)
    let number (text : String) : Json := if text = "50" then .int 50 else .float 50
    let entries : Object := [("50.0", .float 12.5), ("50", .null), ("5e1", .int 7)]
    let keyed : Cursor := ⟨[("values", .object entries)], {}⟩
    let listed : Cursor := ⟨[("values",
      .array (entries.map fun e => .object [("key", number e.1), ("value", e.2)]))], {}⟩
    agg.read keyed = .ok (.percentiles [(50, some 12.5), (50, none), (50, some 7)]) ∧
      Parallel Eq (agg.read keyed) (agg.read listed) := by
  intro agg number entries keyed listed
  obtain ⟨hkeyed, hagree, -⟩ := percentile_shapes_agree_iff (δ := Json)
    ⟨⟨.double, .field "latency"⟩, none⟩ [] none entries (fun _ => 50) number
    (by decide +kernel) (by decide +kernel) keyed listed rfl rfl
  refine ⟨hkeyed.trans ?_, hagree.mpr (by decide)⟩
  have hseven : (Json.int 7).double? = some 7 := by decide +kernel
  simp only [entries, List.map_cons, List.map_nil, hseven]
  rfl

/-- A text for a value is passed over under the name of a percentage, and an error in a list. -/
theorem percentile_shapes_differ :
    let agg : Agg Json := .metric (.percentiles ⟨⟨.double, .field "latency"⟩, none⟩ [] none)
    let keyed : Cursor := ⟨[("values", .object [("50.0", .string "x")])], {}⟩
    let listed : Cursor := ⟨[("values",
      .array [.object [("key", .float 50), ("value", .string "x")]])], {}⟩
    agg.read keyed = .ok (.percentiles [(50, none)]) ∧
      agg.read listed = .error (.invalidType
        ⟨"", [.name "values", .index 0, .name "value"]⟩ "number") ∧
      ¬ Parallel Eq (agg.read keyed) (agg.read listed) := by
  intro agg keyed listed
  have hkeyed : agg.read keyed = .ok (.percentiles [(50, none)]) := by
    have hread := @readPercentiles_object _ (fun _ => 50) keyed rfl (by decide +kernel)
    rw [read_percentiles, hread]
    rfl
  have hlisted : agg.read listed =
      .error (.invalidType ⟨"", [.name "values", .index 0, .name "value"]⟩ "number") := by rfl
  refine ⟨hkeyed, hlisted, fun h => ?_⟩
  rw [hkeyed, hlisted] at h
  cases h

end SearchClient
