import Mathlib.Data.List.Sort
import SearchClient.Proofs.Entries
import SearchClient.Proofs.Placeless

/-!
# The two shapes of buckets

Ranges and histograms come as a list of buckets or as buckets under their
names.  Where no reader of documents looks at the place of a hit, both shapes
of the same buckets are read alike; named ranges are then put in the order in
which they were declared.
-/

namespace SearchClient

open Json (Object Cursor Items)
open Json.Cursor (object_parallel value_eq_ok_iff object_eq_ok_iff)

section

variable {β : Type} {place : β → Nat}

/-- The list `ys` has the elements of `xs` by their places, those of one place as they came. -/
structure StablySorted (place : β → Nat) (xs ys : List β) : Prop where
  perm : ys.Perm xs
  sorted : ys.Pairwise (place · ≤ place ·)
  stable : ∀ p, ys.filter (place · == p) = xs.filter (place · == p)

theorem stablySorted_mergeSort (place : β → Nat) (xs : List β) :
    StablySorted place xs (xs.mergeSort fun a b => decide (place a ≤ place b)) := by
  have htrans : ∀ a b c : β, decide (place a ≤ place b) = true →
      decide (place b ≤ place c) = true → decide (place a ≤ place c) = true := by
    simp only [decide_eq_true_eq]
    omega
  have htotal : ∀ a b : β, (decide (place a ≤ place b) || decide (place b ≤ place a)) = true := by
    simp only [Bool.or_eq_true, decide_eq_true_eq]
    omega
  have hperm := xs.mergeSort_perm fun a b => decide (place a ≤ place b)
  refine ⟨hperm, ?_, fun p => ?_⟩
  · exact (List.pairwise_mergeSort htrans htotal xs).imp of_decide_eq_true
  · -- The elements of one place are in order as they stand, so sorting keeps them so.
    let same : β → Bool := (place · == p)
    have hplace : ∀ a ∈ xs.filter same, place a = p := fun a ha => by
      simpa [same] using (List.mem_filter.mp ha).2
    have hsame : (xs.filter same).Pairwise fun a b => decide (place a ≤ place b) = true := by
      refine List.pairwise_of_forall_mem_list fun a ha b hb => ?_
      rw [hplace a ha, hplace b hb, decide_eq_true_eq]
    have hsub := (List.sublist_mergeSort htrans htotal hsame List.filter_sublist).filter same
    simp only [List.filter_filter, Bool.and_self] at hsub
    exact (hsub.eq_of_length (hperm.filter same).length_eq.symm).symm

theorem StablySorted.congr {place' : β → Nat} {xs ys : List β} (h : StablySorted place xs ys)
    (heq : ∀ b ∈ xs, place b = place' b) : StablySorted place' xs ys := by
  have heq' : ∀ b ∈ ys, place b = place' b := fun b hb => heq b (h.perm.mem_iff.mp hb)
  refine ⟨h.perm, ?_, fun p => ?_⟩
  · refine h.sorted.imp_of_mem fun ha hb hab => ?_
    rwa [← heq' _ ha, ← heq' _ hb]
  · have hfilter (zs : List β) (hzs : ∀ b ∈ zs, place b = place' b) :
        zs.filter (place' · == p) = zs.filter (place · == p) :=
      List.filter_congr fun b hb => by rw [hzs b hb]
    rw [hfilter ys heq', hfilter xs heq, h.stable]

theorem StablySorted.find? {xs ys : List β} (h : StablySorted place xs ys) {wanted : β → Bool}
    {p : Nat} (hp : ∀ b, wanted b = true → place b = p) : ys.find? wanted = xs.find? wanted := by
  have hwanted (zs : List β) :
      zs.find? wanted = (zs.filter (place · == p)).find? wanted := by
    rw [List.find?_filter]
    congr 1
    funext b
    cases hb : wanted b with
    | false => simp
    | true => simp [hp b hb]
  rw [hwanted ys, hwanted xs, h.stable]

end

variable {bodies : Entries Object} {listed keyed : Cursor}

theorem keys_map_object (bodies : Entries Object) :
    Entries.keys (bodies.map fun e => (e.1, Json.object e.2)) = bodies.keys := by
  simp [Entries.keys, Function.comp_def]

theorem readBuckets_shapes {β : Type} {read : Option String → Cursor → Except Error β}
    {form : String × Object → Object} (hnames : bodies.keys.Nodup)
    (hlisted : listed.fields.get? "buckets" = some (.array (bodies.map fun e => .object (form e))))
    (hkeyed : keyed.fields.get? "buckets" =
      some (.object (bodies.map fun e => (e.1, .object e.2))))
    (hread : ∀ e ∈ bodies, ∀ p p',
      Parallel Eq (read none ⟨form e, p⟩) (read (some e.1) ⟨e.2, p'⟩)) :
    Parallel Eq (readBuckets listed read) (readBuckets keyed read) := by
  let named : Cursor := ⟨bodies.map fun e => (e.1, .object e.2), keyed.path.field "buckets"⟩
  rw [readBuckets_array hlisted, readBuckets_object hkeyed, Items.mapObjects_eq,
    keys_map_object, Entries.keys, List.mapM_map]
  refine (Parallel.mapM ?_).imp fun ls ks h => by rwa [List.forall₂_eq_eq_eq] at h
  rw [List.forall₂_iff_get]
  refine ⟨by simp, fun k hk hk' => ?_⟩
  have hmem : bodies[k] ∈ bodies := List.getElem_mem hk'
  have hitem : Items.object ⟨bodies.map fun e => .object (form e), listed.path.field "buckets"⟩ k =
      .ok ⟨form bodies[k], (listed.path.field "buckets").item k⟩ :=
    Items.object_eq_ok_iff.mpr ⟨_, by simp [List.getElem?_eq_getElem hk'], rfl⟩
  have hentry : named.object bodies[k].1 = .ok ⟨bodies[k].2, named.path.field bodies[k].1⟩ := by
    refine object_eq_ok_iff.mpr ⟨_, Entries.get?_of_mem (keys_map_object bodies ▸ hnames) ?_, rfl⟩
    exact List.mem_map_of_mem (f := fun e => (e.1, Json.object e.2)) hmem
  simp only [List.get_eq_getElem, List.getElem_range, hitem, Function.comp_apply]
  change Parallel Eq _ (named.object bodies[k].1 >>= read (some bodies[k].1))
  rw [hentry]
  exact hread _ hmem _ _

/-! ## Ranges -/

variable {δ : Type} {subs : Aggs δ}

section

variable {name : String} {body : Object}

theorem get?_body_set {field : String} (hfield : field ≠ "key") :
    Entries.get? (Entries.set body "key" (.string name)) field = Entries.get? body field := by
  rw [Entries.get?_set, if_neg hfield]

theorem objects_parallel_set (hkey : Entries.get? body "key" = none) (p p' : Json.Path)
    (field : String) :
    Parallel Cursor.SameFields
      ((⟨Entries.set body "key" (.string name), p⟩ : Cursor).object field)
      ((⟨body, p'⟩ : Cursor).object field) := by
  by_cases hfield : field = "key"
  · subst hfield
    have hlisted : (⟨Entries.set body "key" (.string name), p⟩ : Cursor).object "key" =
        .error (.invalidType (p.field "key") "object") := by
      simp [Cursor.object, Cursor.object?, Cursor.require, Cursor.read?, Cursor.value?,
        Entries.get?_set, Cursor.at?]
    have hkeyed : (⟨body, p'⟩ : Cursor).object "key" = .error (.missingField (p'.field "key")) := by
      simp [Cursor.object, Cursor.object?, Cursor.require, Cursor.read?, Cursor.value?, hkey]
    rw [hlisted, hkeyed]
    exact .error _ _
  · exact object_parallel (get?_body_set hfield)

theorem readRangeBucket_shapes (hsubs : ∀ name agg, (name, agg) ∈ subs → agg.Placeless)
    (hkey : Entries.get? body "key" = none) (p p' : Json.Path) :
    Parallel Eq
      (readRangeBucket (Agg.readAll subs) none ⟨Entries.set body "key" (.string name), p⟩)
      (readRangeBucket (Agg.readAll subs) (some name) ⟨body, p'⟩) := by
  have hname : (⟨Entries.set body "key" (.string name), p⟩ : Cursor).string? "key" =
      .ok (some name) := by
    simp [Cursor.string?, Cursor.read?, Cursor.value?, Entries.get?_set, Json.string?]
  rw [readRangeBucket_none, hname, readRangeBucket_some]
  refine readRange_parallel _ (fun field hfield => get?_body_set hfield) ?_
  exact Agg.readAll_parallel (fun name agg hagg => (hsubs name agg hagg).read)
    (objects_parallel_set hkey p p')

end

theorem declaredPlace_some (declared : List (Option String)) (name : String) :
    declaredPlace declared (some name) = declared.idxOf (some name) := by
  unfold declaredPlace List.idxOf
  congr 1
  funext key
  cases key <;> simp

theorem keys_of_readBuckets {sub : Cursor → Except Error (AggResults δ)}
    {ks : List (Bucket RangeKey (AggResult δ))}
    (hkeyed : keyed.fields.get? "buckets" =
      some (.object (bodies.map fun e => (e.1, .object e.2))))
    (hread : readBuckets keyed (readRangeBucket sub) = .ok ks) :
    ks.map (·.key.key) = bodies.keys.map some := by
  rw [readBuckets_object hkeyed, keys_map_object] at hread
  rw [← List.forall₂_eq_eq_eq, List.forall₂_map_left_iff, List.forall₂_map_right_iff]
  refine ((mapM_eq_ok_iff.mp hread).imp fun name b hb => ?_).flip
  obtain ⟨inner, -, hb⟩ := bind_eq_ok_iff.mp hb
  exact key_of_readRange hb

theorem readRanges_shapes (hsubs : ∀ name agg, (name, agg) ∈ subs → agg.Placeless)
    (hnames : bodies.keys.Nodup) (hkeys : ∀ e ∈ bodies, Entries.get? e.2 "key" = none)
    (hlisted : listed.fields.get? "buckets" =
      some (.array (bodies.map fun e => .object (Entries.set e.2 "key" (.string e.1)))))
    (hkeyed : keyed.fields.get? "buckets" =
      some (.object (bodies.map fun e => (e.1, .object e.2))))
    (declared : List (Option String)) :
    Parallel
      (fun ls ks => ls.map (·.key.key) = bodies.keys.map some ∧
        StablySorted (fun b => declared.idxOf b.key.key) ls ks ∧
        ∀ name, rangeBucket? ks name = rangeBucket? ls name)
      (readRanges (Agg.readAll subs) declared listed)
      (readRanges (Agg.readAll subs) declared keyed) := by
  unfold readRanges
  rw [value_eq_ok_iff.mpr ⟨hlisted, by simp⟩, value_eq_ok_iff.mpr ⟨hkeyed, by simp⟩]
  have hbuckets := readBuckets_shapes hnames hlisted hkeyed fun e he =>
    readRangeBucket_shapes hsubs (hkeys e he)
  have hread (ks : List (Bucket RangeKey (AggResult δ))) :
      readBuckets keyed (readRangeBucket (Agg.readAll subs)) = .ok ks →
        ks.map (·.key.key) = bodies.keys.map some := keys_of_readBuckets hkeyed
  dsimp only [bind, Except.bind]
  generalize readBuckets listed (readRangeBucket (Agg.readAll subs)) = r,
    readBuckets keyed (readRangeBucket (Agg.readAll subs)) = r' at hbuckets hread
  cases hbuckets with
  | error e e' => exact .error e e'
  | @ok ls ks heq =>
      subst heq
      have hkey := hread ls rfl
      have hsorted := stablySorted_mergeSort (fun b => declaredPlace declared b.key.key) ls
      refine .ok ⟨hkey, hsorted.congr fun b hb => ?_, fun name => ?_⟩
      · have hmem : b.key.key ∈ ls.map (·.key.key) := List.mem_map_of_mem hb
        rw [hkey] at hmem
        obtain ⟨name, -, hname⟩ := List.mem_map.mp hmem
        rw [← hname, declaredPlace_some]
      · refine hsorted.find? (p := declaredPlace declared (some name)) fun b hb => ?_
        rw [beq_iff_eq.mp hb]

/-! ## Both shapes of an answer -/

def Bucketing.declared? : Bucketing → Option (List (Option String))
  | range _ ranges _ => some (ranges.map (·.key))
  | dateRange _ ranges .. => some (ranges.map (·.key))
  | _ => none

def Bucketing.IsHistogram : Bucketing → Prop
  | histogram .. | dateHistogram .. => True
  | _ => False

/--
Ranges are read from a list of buckets exactly when they are read from the same
buckets under their keys, which are then listed in the order of the first
declaration of each key, those that were not declared last.  Histograms read
from a list and under any names are the same.
-/
theorem shapes_agree (subs : Aggs δ) (hsubs : ∀ name agg, (name, agg) ∈ subs → agg.Placeless)
    (bodies : Entries Object) (hnames : bodies.keys.Nodup) (keyed : Cursor)
    (hkeyed : keyed.fields.get? "buckets" =
      some (.object (bodies.map fun e => (e.1, .object e.2)))) :
    (∀ (b : Bucketing) (declared : List (Option String)) (listed : Cursor),
      b.declared? = some declared → (∀ e ∈ bodies, Entries.get? e.2 "key" = none) →
      listed.fields.get? "buckets" =
        some (.array (bodies.map fun e => .object (Entries.set e.2 "key" (.string e.1)))) →
      Parallel
        (fun l k => ∃ ls ks, l = .ranges ls ∧ k = .ranges ks ∧
          ls.map (·.key.key) = bodies.keys.map some ∧
          StablySorted (fun b => declared.idxOf b.key.key) ls ks ∧
          ∀ name, rangeBucket? ks name = rangeBucket? ls name)
        ((Agg.buckets b subs).read listed) ((Agg.buckets b subs).read keyed)) ∧
    ∀ (b : Bucketing) (listed : Cursor), b.IsHistogram →
      listed.fields.get? "buckets" = some (.array (bodies.map fun e => .object e.2)) →
      Parallel Eq ((Agg.buckets b subs).read listed) ((Agg.buckets b subs).read keyed) := by
  refine ⟨fun b declared listed hb hkeys hlisted => ?_, fun b listed hb hlisted => ?_⟩
  · have hranges := readRanges_shapes hsubs hnames hkeys hlisted hkeyed declared
    rw [Agg.read, Agg.read]
    cases b with
    | range | dateRange =>
        cases hb
        exact hranges.map fun ls ks h => ⟨ls, ks, rfl, rfl, h⟩
    | _ => cases hb
  · have hsub := Agg.readAll_placeless fun name agg hagg => (hsubs name agg hagg).read
    rw [Agg.read, Agg.read]
    cases b with
    | histogram =>
        refine .mapSame _ (readBuckets_shapes hnames hlisted hkeyed fun e _ p p' => ?_)
        exact readNumberBucket_placeless hsub _ _ rfl
    | dateHistogram origin =>
        refine .mapSame _ (readBuckets_shapes hnames hlisted hkeyed fun e _ p p' => ?_)
        exact readTextBucket_placeless hsub _ _ _ rfl
    | _ => exact hb.elim

theorem shapes_agree_declared :
    let best : Agg Json := .metric (.topHits { doc := .raw })
    let prices : Bucketing := .range ⟨⟨.double, .field "price"⟩, none⟩
      [{ key := some "mid" }, { key := some "cheap" }] (some true)
    let hits : Json := .object [("hits", .array
      [.object [("_index", .string "posts"), ("_id", .string "1")]])]
    let body : Object := [("doc_count", .int 1), ("best", .object [("hits", hits)])]
    let listed : Cursor := ⟨[("buckets", .array
      [.object (Entries.set body "key" (.string "cheap")),
        .object (Entries.set body "key" (.string "mid"))])], {}⟩
    let keyed : Cursor := ⟨[("buckets", .object
      [("cheap", .object body), ("mid", .object body)])], {}⟩
    ∃ ls ks, (Agg.buckets prices [("best", best)]).read listed = .ok (.ranges ls) ∧
      (Agg.buckets prices [("best", best)]).read keyed = .ok (.ranges ks) ∧
      ls.map (·.key.key) = [some "cheap", some "mid"] ∧
      ks.map (·.key.key) = [some "mid", some "cheap"] ∧
      StablySorted (fun b => [some "mid", some "cheap"].idxOf b.key.key) ls ks := by
  intro best prices hits body listed keyed
  have hbest : best.Placeless := .metric (by rintro t ⟨⟩; exact DocReader.raw_placeless)
  have hboth := (shapes_agree [("best", best)]
    (fun name agg hagg => by
      obtain ⟨rfl, rfl⟩ := Prod.mk.inj (List.mem_singleton.mp hagg)
      exact hbest)
    [("cheap", body), ("mid", body)] (by decide) keyed rfl).1 prices _ listed rfl
    (by simp [body, Entries.get?_cons]) rfl
  have hlisted : ∃ ls, (Agg.buckets prices [("best", best)]).read listed = .ok (.ranges ls) :=
    ⟨_, rfl⟩
  obtain ⟨ls, hls⟩ := hlisted
  rw [hls] at hboth
  generalize (Agg.buckets prices [("best", best)]).read keyed = read at hboth ⊢
  cases hboth with
  | ok h =>
      obtain ⟨_, ks, ⟨⟩, rfl, hkeys, hsorted, -⟩ := h
      refine ⟨ls, ks, hls, rfl, hkeys, ?_, hsorted⟩
      -- The places of the two keys differ, so their order leaves no choice.
      have hperm : (ks.map (·.key.key)).Perm [some "mid", some "cheap"] :=
        (hsorted.perm.map (·.key.key)).trans (hkeys ▸ .swap ..)
      have hpairwise : (ks.map (·.key.key)).Pairwise fun a b =>
          [some "mid", some "cheap"].idxOf a ≤ [some "mid", some "cheap"].idxOf b :=
        List.pairwise_map.mpr hsorted.sorted
      refine hperm.eq_of_pairwise (fun a b _ hb hab hba => ?_) hpairwise (by decide)
      exact ((List.idxOf_inj hb).mp (Nat.le_antisymm hba hab)).symm

/-- A reader that takes the place of a hit for its document tells the shapes apart. -/
theorem shapes_differ_by_place :
    let place : DocReader String := fun hit => .ok (some hit.path.text)
    let best : Agg String := .metric (.topHits { doc := place })
    let prices : Bucketing := .range ⟨⟨.double, .field "price"⟩, none⟩
      [{ key := some "cheap" }] (some true)
    let hits : Json := .object [("hits", .array
      [.object [("_index", .string "posts"), ("_id", .string "1")]])]
    let body : Object := [("doc_count", .int 1), ("best", .object [("hits", hits)])]
    let listed : Cursor := ⟨[("buckets", .array
      [.object (Entries.set body "key" (.string "cheap"))])], {}⟩
    let keyed : Cursor := ⟨[("buckets", .object [("cheap", .object body)])], {}⟩
    ∃ ls ks, (Agg.buckets prices [("best", best)]).read listed = .ok (.ranges ls) ∧
      (Agg.buckets prices [("best", best)]).read keyed = .ok (.ranges ks) ∧
      rangeBucket? ks "cheap" ≠ rangeBucket? ls "cheap" ∧ ¬ ks.Perm ls := by
  intro place best prices hits body listed keyed
  let path (bucket : Json.Step) : Json.Path :=
    ⟨"", [.name "buckets", bucket, .name "best", .name "hits", .name "hits", .index 0]⟩
  let bucket (doc : String) : Bucket RangeKey (AggResult String) :=
    ⟨⟨some "cheap", none, none, none, none⟩, 1, [("best", .topHits ⟨none, none,
      [⟨"posts", "_doc", "1", none, none, none, none, none, some doc, [], none⟩]⟩)]⟩
  have hlisted : (Agg.buckets prices [("best", best)]).read listed =
      .ok (.ranges [bucket (path (.index 0)).text]) := by rfl
  have hkeyed : (Agg.buckets prices [("best", best)]).read keyed =
      .ok (.ranges [bucket (path (.name "cheap")).text]) :=
    congrArg (fun bs => Except.ok (AggResult.ranges bs))
      (List.mergeSort_singleton (bucket (path (.name "cheap")).text))
  have htext : (path (.name "cheap")).text ≠ (path (.index 0)).text := by decide +kernel
  have hdiffer : bucket (path (.name "cheap")).text ≠ bucket (path (.index 0)).text := by
    simpa [bucket] using htext
  refine ⟨_, _, hlisted, hkeyed, ?_, ?_⟩
  · simpa [rangeBucket?, bucket] using htext
  · simpa [List.perm_singleton] using hdiffer

end SearchClient
