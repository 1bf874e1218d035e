import SearchClient.Proofs.Aggs.Buckets
import SearchClient.Proofs.Entries
import SearchClient.Proofs.Parallel

/-!
# Filter buckets

Named filters are looked up in the answer one after the other, as they were
declared, and the bucket of all other documents comes last.  So the answer
decides what stands in each bucket, and the declarations decide the order.
Buckets in a list have no name and are read in the order of the list.
-/

namespace SearchClient

open Json (Object Cursor Items)
open Json.Cursor (object_eq_ok_iff object?_eq_some_iff read?_eq_none_iff value_eq_ok_iff)
open Json.Items (mapObjects_eq_ok_iff)

section

variable {α κ : Type} {sub : Cursor → Except Error (List (String × α))}

structure Bucket.IsAt (sub : Cursor → Except Error (List (String × α))) (key : κ) (c : Cursor)
    (b : Bucket κ α) : Prop where
  key : b.key = key
  docCount : c.long "doc_count" = .ok b.docCount
  aggs : sub c = .ok b.aggs

theorem readBucket_eq_ok_iff {key : κ} {c : Cursor} {b : Bucket κ α} :
    readBucket sub key c = .ok b ↔ b.IsAt sub key c := by
  constructor
  · intro h
    obtain ⟨count, hcount, h⟩ := bind_eq_ok_iff.mp h
    obtain ⟨results, hresults, h⟩ := bind_eq_ok_iff.mp h
    cases h
    exact ⟨rfl, hcount, hresults⟩
  · obtain ⟨bkey, count, results⟩ := b
    rintro ⟨rfl, hcount, hresults⟩
    exact bind_eq_ok_iff.mpr ⟨_, hcount, bind_eq_ok_iff.mpr ⟨_, hresults, rfl⟩⟩

def Bucket.IsUnder (sub : Cursor → Except Error (List (String × α))) (keyed : Cursor)
    (name : String) (b : Bucket (Option String) α) : Prop :=
  ∃ body, keyed.fields.get? name = some (.object body) ∧
    b.IsAt sub (some name) ⟨body, keyed.path.field name⟩

/-- The other bucket is there if and only if a key is set for it and has a value in the answer. -/
structure OtherBucket (sub : Cursor → Except Error (List (String × α))) (keyed : Cursor)
    (otherKey : Option String) (other : Option (Bucket (Option String) α)) : Prop where
  present : other.isSome = true ↔ ∃ key ∈ otherKey, keyed.contains key = true
  under : ∀ key ∈ otherKey, ∀ b ∈ other, b.IsUnder sub keyed key

/-! ## Reading by name -/

def readNamed (sub : Cursor → Except Error (List (String × α))) (keyed : Cursor) (name : String) :
    Except Error (Bucket (Option String) α) :=
  keyed.object name >>= readBucket sub (some name)

def readOther? (sub : Cursor → Except Error (List (String × α))) (keyed : Cursor) :
    Option String → Except Error (Option (Bucket (Option String) α))
  | none => .ok none
  | some key => do
      match ← keyed.object? key with
      | none => return none
      | some inner => return some (← readBucket sub (some key) inner)

theorem readNamed_eq_ok_iff {keyed : Cursor} {name : String} {b : Bucket (Option String) α} :
    readNamed sub keyed name = .ok b ↔ b.IsUnder sub keyed name := by
  rw [readNamed, bind_eq_ok_iff]
  simp only [object_eq_ok_iff, readBucket_eq_ok_iff]
  constructor
  · rintro ⟨_, ⟨body, hbody, rfl⟩, hb⟩
    exact ⟨body, hbody, hb⟩
  · rintro ⟨body, hbody, hb⟩
    exact ⟨_, ⟨body, hbody, rfl⟩, hb⟩

theorem contains_of_isUnder {keyed : Cursor} {name : String} {b : Bucket (Option String) α}
    (h : b.IsUnder sub keyed name) : keyed.contains name = true := by
  obtain ⟨body, hbody, -⟩ := h
  rw [Cursor.contains, Json.Cursor.value?_eq_some_iff.mpr ⟨hbody, by simp⟩]
  rfl

theorem readOther?_eq_ok_iff {keyed : Cursor} {otherKey : Option String}
    {other : Option (Bucket (Option String) α)} :
    readOther? sub keyed otherKey = .ok other ↔ OtherBucket sub keyed otherKey other := by
  cases otherKey with
  | none =>
      rw [readOther?]
      constructor
      · rintro ⟨⟩
        exact ⟨by simp, by simp⟩
      · rintro ⟨hpresent, -⟩
        cases other with
        | none => rfl
        | some b => simp at hpresent
  | some key =>
      rw [readOther?, bind_eq_ok_iff]
      constructor
      · rintro ⟨found, hfound, hread⟩
        cases found with
        | none =>
            cases hread
            have hnone : keyed.value? key = none := read?_eq_none_iff.mp hfound
            exact ⟨by simp [Cursor.contains, hnone], by simp⟩
        | some inner =>
            obtain ⟨b, hb, hread⟩ := bind_eq_ok_iff.mp hread
            cases hread
            obtain ⟨body, hbody, rfl⟩ := object?_eq_some_iff.mp hfound
            have hunder : b.IsUnder sub keyed key := ⟨body, hbody, readBucket_eq_ok_iff.mp hb⟩
            exact ⟨by simp [contains_of_isUnder hunder], by simpa using hunder⟩
      · rintro ⟨hpresent, hunder⟩
        cases other with
        | none =>
            have hnone : keyed.value? key = none := by simpa [Cursor.contains] using hpresent
            exact ⟨none, read?_eq_none_iff.mpr hnone, rfl⟩
        | some b =>
            obtain ⟨body, hbody, hb⟩ := hunder key rfl b rfl
            exact ⟨_, object?_eq_some_iff.mpr ⟨body, hbody, rfl⟩,
              bind_eq_ok_iff.mpr ⟨b, readBucket_eq_ok_iff.mpr hb, rfl⟩⟩

section

variable {c : Cursor} {fields : Object} {names : List String} {otherKey : Option String}

theorem readFilters_object (h : c.fields.get? "buckets" = some (.object fields)) :
    readFilters sub names otherKey c = (do
      let keyed : Cursor := ⟨fields, c.path.field "buckets"⟩
      let declared ← names.mapM (readNamed sub keyed)
      let other ← readOther? sub keyed otherKey
      return declared ++ other.toList) := by
  unfold readFilters
  rw [value_eq_ok_iff.mpr ⟨h, by simp⟩]
  change names.mapM (readNamed sub ⟨fields, c.path.field "buckets"⟩) >>= _ =
    names.mapM (readNamed sub ⟨fields, c.path.field "buckets"⟩) >>= _
  refine bind_congr fun declared => ?_
  cases otherKey with
  | none => simp [readOther?, bind, Except.bind, pure, Except.pure]
  | some key =>
      simp only [readOther?, bind_assoc]
      refine bind_congr fun found => ?_
      cases found with
      | none => simp
      | some inner => simp

theorem readFilters_object_eq_ok_iff (h : c.fields.get? "buckets" = some (.object fields))
    {bs : List (Bucket (Option String) α)} :
    readFilters sub names otherKey c = .ok bs ↔
      ∃ declared other, bs = declared ++ other.toList ∧
        List.Forall₂ (fun name b => b.IsUnder sub ⟨fields, c.path.field "buckets"⟩ name)
          names declared ∧
        OtherBucket sub ⟨fields, c.path.field "buckets"⟩ otherKey other := by
  rw [readFilters_object h]
  dsimp only
  simp only [bind_eq_ok_iff, mapM_eq_ok_iff, readNamed_eq_ok_iff, readOther?_eq_ok_iff]
  constructor
  · rintro ⟨declared, hdeclared, other, hother, ⟨⟩⟩
    exact ⟨declared, other, rfl, hdeclared, hother⟩
  · rintro ⟨declared, other, rfl, hdeclared, hother⟩
    exact ⟨declared, hdeclared, other, hother, rfl⟩

theorem readFilters_congr {c' : Cursor} {fields' : Object} (hpath : c'.path = c.path)
    (h : c.fields.get? "buckets" = some (.object fields))
    (h' : c'.fields.get? "buckets" = some (.object fields'))
    (hfields : ∀ name, name ∈ names ∨ name ∈ otherKey → fields'.get? name = fields.get? name) :
    readFilters sub names otherKey c' = readFilters sub names otherKey c := by
  rw [readFilters_object h, readFilters_object h', hpath]
  have hvalue (name : String) (hname : name ∈ names ∨ name ∈ otherKey) :
      Cursor.value? ⟨fields', c.path.field "buckets"⟩ name =
        Cursor.value? ⟨fields, c.path.field "buckets"⟩ name :=
    Json.Cursor.value?_congr (hfields name hname)
  have hobject? (name : String) (hname : name ∈ names ∨ name ∈ otherKey) :
      Cursor.object? ⟨fields', c.path.field "buckets"⟩ name =
        Cursor.object? ⟨fields, c.path.field "buckets"⟩ name := by
    rw [Cursor.object?, Cursor.object?, Cursor.read?, Cursor.read?, hvalue name hname]
  have hnamed : names.mapM (readNamed sub ⟨fields', c.path.field "buckets"⟩) =
      names.mapM (readNamed sub ⟨fields, c.path.field "buckets"⟩) := by
    refine mapM_congr fun name hname => ?_
    rw [readNamed, readNamed, Cursor.object, Cursor.object, hobject? name (.inl hname)]
    rfl
  have hother : readOther? sub ⟨fields', c.path.field "buckets"⟩ otherKey =
      readOther? sub ⟨fields, c.path.field "buckets"⟩ otherKey := by
    cases otherKey with
    | none => rfl
    | some key => rw [readOther?, readOther?, hobject? key (.inr rfl)]
  dsimp only
  rw [hnamed, hother]

/-! ## Finding a bucket by its name -/

theorem filterBucket?_of_mem {bs : List (Bucket (Option String) α)}
    (hkeys : (bs.map (·.key)).Nodup) {b : Bucket (Option String) α} (hb : b ∈ bs) {name : String}
    (hname : b.key = some name) : filterBucket? bs name = some b := by
  induction bs with
  | nil => cases hb
  | cons first rest ih =>
      rw [List.map_cons, List.nodup_cons] at hkeys
      rw [filterBucket?, List.find?_cons]
      rcases List.mem_cons.mp hb with rfl | hb
      · simp [hname]
      · have hne : first.key ≠ some name := fun heq =>
          hkeys.1 (heq.trans hname.symm ▸ List.mem_map_of_mem hb)
        rw [show (first.key == some name) = false by simpa using hne]
        exact ih hkeys.2 hb

variable {keyed : Cursor} {declared : List (Bucket (Option String) α)}
  {other : Option (Bucket (Option String) α)}

theorem keys_of_isUnder (h : List.Forall₂ (fun name b => b.IsUnder sub keyed name) names declared) :
    declared.map (·.key) = names.map some := by
  induction h with
  | nil => rfl
  | cons hb _ ih =>
      obtain ⟨body, -, hb⟩ := hb
      rw [List.map_cons, List.map_cons, hb.key, ih]

theorem nodup_keys (hnames : names.Nodup) (hotherKey : ∀ key ∈ otherKey, key ∉ names)
    (hdeclared : List.Forall₂ (fun name b => b.IsUnder sub keyed name) names declared)
    (hother : OtherBucket sub keyed otherKey other) :
    ((declared ++ other.toList).map (·.key)).Nodup := by
  have hdistinct : (names.map some).Nodup := hnames.map (Option.some_injective String)
  cases other with
  | none => simpa [keys_of_isUnder hdeclared] using hdistinct
  | some b =>
      obtain ⟨key, hkey, -⟩ := hother.present.mp rfl
      obtain ⟨body, -, hb⟩ := hother.under key hkey b rfl
      rw [List.map_append, keys_of_isUnder hdeclared]
      refine hdistinct.append (List.nodup_singleton _) fun k hk hk' => ?_
      obtain ⟨name, hname, rfl⟩ := List.mem_map.mp hk
      obtain rfl : name = key := by simpa [hb.key] using hk'
      exact hotherKey name hkey hname

theorem exists_key (hdeclared : List.Forall₂ (fun name b => b.IsUnder sub keyed name) names declared)
    (hother : OtherBucket sub keyed otherKey other) {b : Bucket (Option String) α}
    (hb : b ∈ declared ++ other.toList) : ∃ name, b.key = some name := by
  rcases List.mem_append.mp hb with hb | hb
  · have hmem := List.mem_map_of_mem (f := (·.key)) hb
    rw [keys_of_isUnder hdeclared] at hmem
    obtain ⟨name, -, hname⟩ := List.mem_map.mp hmem
    exact ⟨name, hname.symm⟩
  · rw [Option.mem_toList] at hb
    obtain ⟨key, hkey, -⟩ := hother.present.mp (Option.isSome_of_mem hb)
    obtain ⟨body, -, hat⟩ := hother.under key hkey b hb
    exact ⟨key, hat.key⟩

end

end

variable {δ : Type}

theorem read_filters (set : FilterSet) (otherKey : Option String) (subs : Aggs δ) (c : Cursor) :
    (Agg.buckets (.filters set otherKey) subs).read c =
      .filters <$> readFilters (Agg.readAll subs) set.names otherKey c := by
  rw [Agg.read]
  rfl

/--
Named filters are read from an object into one bucket for each filter, in the
order of their declaration, each from what stands under its own name, and the
other bucket after them if and only if something stands under its key; every
bucket is then found by its name.  The order of the answer makes no difference,
and neither do names that were not asked for.  Buckets in a list are read one by
one and have no name.
-/
theorem named_filters_in_declared_order (filters : List (String × Query))
    (otherKey : Option String) (subs : Aggs δ) (hnames : (filters.map (·.1)).Nodup)
    (hotherKey : ∀ key ∈ otherKey, key ∉ filters.map (·.1)) (c : Cursor) :
    let agg : Agg δ := .buckets (.filters (.named filters) otherKey) subs
    let names := filters.map (·.1)
    let path := c.path.field "buckets"
    (∀ fields : Object, c.fields.get? "buckets" = some (.object fields) →
      (∀ result, agg.read c = .ok result ↔
        ∃ declared other, result = .filters (declared ++ other.toList) ∧
          List.Forall₂ (fun name b => b.IsUnder (Agg.readAll subs) ⟨fields, path⟩ name)
            names declared ∧
          OtherBucket (Agg.readAll subs) ⟨fields, path⟩ otherKey other) ∧
      (∀ bs, agg.read c = .ok (.filters bs) →
        ∀ b ∈ bs, ∃ name, b.key = some name ∧ filterBucket? bs name = some b) ∧
      ∀ (c' : Cursor) (fields' more : Object), c'.path = c.path →
        c'.fields.get? "buckets" = some (.object fields') → fields'.keys.Nodup →
        fields'.Perm (fields ++ more) →
        (∀ name ∈ Entries.keys more, name ∉ names ∧ name ∉ otherKey) →
        agg.read c' = agg.read c) ∧
    ∀ (set : FilterSet) (values : List Json), c.fields.get? "buckets" = some (.array values) →
      ∀ result, (Agg.buckets (.filters set otherKey) subs).read c = .ok result ↔
        ∃ bs, result = .filters bs ∧ bs.length = values.length ∧
          ∀ (k : Nat) (b : Bucket (Option String) (AggResult δ)), bs[k]? = some b →
            ∃ body, values[k]? = some (.object body) ∧
              b.IsAt (Agg.readAll subs) none ⟨body, path.item k⟩ := by
  intro agg names path
  refine ⟨fun fields hfields => ⟨fun result => ?_, fun bs hread b hb => ?_,
    fun c' fields' more hpath hfields' hdistinct hperm hmore => ?_⟩,
    fun set values hvalues result => ?_⟩
  · rw [read_filters, map_eq_ok_iff]
    simp only [readFilters_object_eq_ok_iff hfields]
    constructor
    · rintro ⟨_, ⟨declared, other, rfl, hdeclared, hother⟩, rfl⟩
      exact ⟨declared, other, rfl, hdeclared, hother⟩
    · rintro ⟨declared, other, rfl, hdeclared, hother⟩
      exact ⟨_, ⟨declared, other, rfl, hdeclared, hother⟩, rfl⟩
  · rw [read_filters, map_eq_ok_iff] at hread
    obtain ⟨bs, hread, ⟨⟩⟩ := hread
    obtain ⟨declared, other, rfl, hdeclared, hother⟩ :=
      (readFilters_object_eq_ok_iff hfields).mp hread
    have hkeys := nodup_keys hnames hotherKey hdeclared hother
    obtain ⟨name, hname⟩ := exists_key hdeclared hother hb
    exact ⟨name, hname, filterBucket?_of_mem hkeys hb hname⟩
  · rw [read_filters, read_filters]
    congr 1
    refine readFilters_congr hpath hfields hfields' fun name hname => ?_
    have hnot : name ∉ Entries.keys more := fun hmem =>
      hname.elim (hmore name hmem).1 (hmore name hmem).2
    rw [Entries.get?_perm hperm hdistinct, Entries.get?_append,
      Entries.get?_eq_none_iff.mpr hnot, Option.or_none]
  · rw [read_filters, map_eq_ok_iff]
    simp only [readFilters_array hvalues, mapObjects_eq_ok_iff]
    constructor
    · rintro ⟨bs, ⟨hlength, hitem⟩, rfl⟩
      refine ⟨bs, rfl, hlength, fun k b hb => ?_⟩
      obtain ⟨body, hbody, hread⟩ := hitem k b hb
      exact ⟨body, hbody, readBucket_eq_ok_iff.mp hread⟩
    · rintro ⟨bs, rfl, hlength, hitem⟩
      refine ⟨bs, ⟨hlength, fun k b hb => ?_⟩, rfl⟩
      obtain ⟨body, hbody, hat⟩ := hitem k b hb
      exact ⟨body, hbody, readBucket_eq_ok_iff.mpr hat⟩

theorem named_filters_in_declared_order_reversed :
    let filters : List (String × Query) := [("errors", .matchAll), ("warnings", .matchAll)]
    let agg : Agg Json := .buckets (.filters (.named filters) (some "rest"))
      [("n", .metric (.valueCount ⟨.long, .field "rank"⟩))]
    let body (n : Int) : Json := .object [("doc_count", .int n), ("n", .object [("value", .int n)])]
    let fields : Object := [("rest", body 1), ("warnings", body 7), ("errors", body 2)]
    let c : Cursor := ⟨[("buckets", .object fields)], {}⟩
    let c' : Cursor := ⟨[("buckets", .object (("stray", .null) :: fields.reverse))], {}⟩
    let bucket (name : String) (n : Int) : Bucket (Option String) (AggResult Json) :=
      ⟨some name, n, [("n", .count n)]⟩
    let bs := [bucket "errors" 2, bucket "warnings" 7, bucket "rest" 1]
    agg.read c = .ok (.filters bs) ∧ agg.read c' = .ok (.filters bs) ∧
      filterBucket? bs "rest" = some (bucket "rest" 1) := by
  intro filters agg body fields c c' bucket bs
  obtain ⟨hobject, -⟩ := named_filters_in_declared_order filters (some "rest")
    [("n", (.metric (.valueCount ⟨.long, .field "rank"⟩) : Agg Json))] (by decide) (by decide) c
  obtain ⟨hread, hfind, hsame⟩ := hobject fields rfl
  have hresult : agg.read c = .ok (.filters bs) :=
    (hread _).mpr ⟨[bucket "errors" 2, bucket "warnings" 7], some (bucket "rest" 1), rfl,
      .cons ⟨_, rfl, rfl, rfl, rfl⟩ (.cons ⟨_, rfl, rfl, rfl, rfl⟩ .nil),
      ⟨by simp; rfl, by rintro _ ⟨⟩ _ ⟨⟩; exact ⟨_, rfl, rfl, rfl, rfl⟩⟩⟩
  refine ⟨hresult, ?_, ?_⟩
  · rw [hsame c' (("stray", .null) :: fields.reverse) [("stray", .null)] rfl rfl (by decide)
      ?_ (by decide), hresult]
    exact ((@List.perm_append_comm _ fields [("stray", .null)]).trans
      (.cons _ fields.reverse_perm.symm)).symm
  · obtain ⟨name, hname, hfound⟩ := hfind bs hresult (bucket "rest" 1) (by simp [bs])
    cases hname
    exact hfound

end SearchClient
