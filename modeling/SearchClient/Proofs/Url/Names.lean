import SearchClient.Mapping.Document
import SearchClient.Proofs.Url.Base
import SearchClient.Session.Call

/-!
# Names as paths

The name of an index is sent as a path, as it is.  Some names are taken for
more than a segment, or for less: this module says exactly which names stand
for themselves in the address that comes of them.
-/

namespace SearchClient.Url

open Text

/--
A name that stands for itself in a path: no mark and no break is in it, it does
not end with a blank, it is no step, and it has no escapes.
-/
structure Literal (name : String) : Prop where
  unmarked : ∀ c ∈ name.toList, c ∉ ['/', '\\', '?', '#', '\t', '\n', '\r']
  ended : ∀ c ∈ name.toList.getLast?, 32 < c.toNat
  noSingleDot : isSingleDot name.toList = false
  noDoubleDot : isDoubleDot name.toList = false
  noEscape : hasEscape name.toList = false

/-- The path of the base with one more segment, which is read as the name, and nothing behind it. -/
structure Addresses (base : Url) (name : String) (u : Url) : Prop where
  query : u.query = none
  fragment : u.fragment = none
  segment : ∃ path s, base.path = .rooted path ∧ u.path = .rooted (stem path ++ [s]) ∧
    decode? s.toList = some name.toList

variable {base u : Url} {a : Authority} {path : List String} {name : String}

theorem Literal.whole (h : Literal name) : ∀ c ∈ name.toList, isSlash true c = false := by
  intro c hc
  have hc := h.unmarked c hc
  simp at hc
  simp [isSlash, hc]

theorem Literal.not_mem (h : Literal name) {mark : Char}
    (hmark : mark ∈ ['/', '\\', '?', '#', '\t', '\n', '\r']) : mark ∉ name.toList :=
  fun hmem => h.unmarked mark hmem hmark

theorem sent_of_literal (h : Literal name) : sent name = name.toList := by
  have hstart : trimStart (· = '/') name.toList = name.toList := by
    cases hname : name.toList with
    | nil => rfl
    | cons c rest =>
        have hslash : '/' ∉ name.toList := h.not_mem (by decide)
        refine trimStart_of_head (decide_eq_false ?_) rest
        rintro rfl
        exact hslash (hname ▸ List.mem_cons_self)
  have hend : trimEnd (fun c => c.toNat ≤ 32) name.toList = name.toList :=
    trimEnd_eq_self_iff.mpr fun c hc => by simpa using h.ended c hc
  rw [sent, hstart, hend, List.filter_eq_self]
  intro c hc
  have hc := h.unmarked c hc
  simp at hc
  simp [hc]

theorem of_sent_eq (h : sent name = name.toList) :
    (∀ c ∈ name.toList, c ≠ '\t' ∧ c ≠ '\n' ∧ c ≠ '\r') ∧
      ∀ c ∈ name.toList.getLast?, 32 < c.toNat := by
  have hbreaks : ∀ c ∈ name.toList, c ≠ '\t' ∧ c ≠ '\n' ∧ c ≠ '\r' := by
    intro c hc
    rw [← h] at hc
    simpa [and_assoc] using (List.mem_filter.mp hc).2
  have htrimmed := trimEnd_sublist (fun c => c.toNat ≤ 32) (trimStart (· = '/') name.toList)
  have hstart : (trimStart (· = '/') name.toList).Sublist name.toList := List.dropWhile_sublist _
  have hname : name.toList.Sublist
      (trimEnd (fun c => c.toNat ≤ 32) (trimStart (· = '/') name.toList)) := by
    conv => lhs; rw [← h]
    exact List.filter_sublist
  have hall := hstart.antisymm (hname.trans htrimmed)
  rw [hall] at htrimmed hname
  refine ⟨hbreaks, fun c hc => ?_⟩
  simpa using trimEnd_eq_self_iff.mp (htrimmed.antisymm hname) c hc

theorem addresses_of_literal (h : base.Based a path) (hname : Literal name)
    (hu : base.below? name = some u) : Addresses base name u := by
  obtain ⟨hpath, hquery, hfragment⟩ := h.below?_parts hu
  have hhash : cutAt '#' name.toList = (name.toList, none) :=
    cutAt_of_not_mem (hname.not_mem (by decide))
  have hquestion : cutAt '?' name.toList = (name.toList, none) :=
    cutAt_of_not_mem (hname.not_mem (by decide))
  rw [sent_of_literal hname, hhash] at hpath hquery hfragment
  rw [hquestion] at hpath hquery
  rw [splitOn_of_forall hname.whole,
    follow_settled_concat (fun s hs => h.settled s (mem_of_mem_stem hs)) hname.noSingleDot
      hname.noDoubleDot] at hpath
  refine ⟨hquery.mpr rfl, hfragment.mpr rfl, path, _, h.rooted, hpath, ?_⟩
  rw [String.toList_ofList]
  exact (keepsEscapes_keptInPath.decode?_encode_iff (.refl _)).mpr ⟨rfl, hname.noEscape⟩

/-- A name that is read back from the last segment is all there is of the path that was sent. -/
theorem literal_of_addresses (h : base.Based a path) (hne : name ≠ "")
    (hu : base.below? name = some u) (haddresses : Addresses base name u) : Literal name := by
  obtain ⟨hpath, hquery, hfragment⟩ := h.below?_parts hu
  have hhash := not_mem_of_cutAt (hfragment.mp haddresses.fragment)
  have hcut := cutAt_of_not_mem hhash
  rw [hcut] at hquery hpath
  have hquestion := not_mem_of_cutAt (hquery.mp haddresses.query)
  rw [cutAt_of_not_mem hquestion] at hpath
  obtain ⟨path', s, -, hpath', hdecode⟩ := haddresses.segment
  have hparts : (stem path).map String.toList ++ splitOn (isSlash true) (sent name) ≠ [] := by
    simp [splitOn_ne_nil]
  obtain ⟨front, last, hfollow, hlast⟩ := follow_last hparts
  have hs : s = last := by
    rw [hpath', Path.rooted.injEq, hfollow] at hpath
    simpa using (List.append_inj' hpath rfl).2
  subst hs
  rcases hlast with rfl | ⟨part, hpart, hsingle, hdouble, rfl⟩
  · -- The address ends with a slash: the name is read back as no characters.
    have hempty := (keepsEscapes_keptInPath.decode?_encode_iff (List.nil_sublist _)).mp hdecode
    exact absurd (String.toList_eq_nil_iff.mp hempty.1.symm) hne
  · rw [List.getLast?_append_of_ne_nil _ (splitOn_ne_nil _)] at hpart
    have hmem := List.mem_of_getLast? hpart
    -- The part is as long as the name, so that nothing of the name was cut away or dropped.
    have hsub := (sublist_of_mem_splitOn hmem).trans (sent_sublist name)
    rw [String.toList_ofList] at hdecode
    obtain ⟨rfl, hescape⟩ := (keepsEscapes_keptInPath.decode?_encode_iff hsub).mp hdecode
    have hsent := (sent_sublist name).antisymm (sublist_of_mem_splitOn hmem)
    obtain ⟨hbreaks, hended⟩ := of_sent_eq hsent
    refine ⟨fun c hc => ?_, hended, hsingle, hdouble, hescape⟩
    have hslash := (of_mem_splitOn hmem hc).2
    have hc' : c ≠ '?' ∧ c ≠ '#' := by
      constructor
      · rintro rfl
        exact hquestion (hsent ▸ hc)
      · rintro rfl
        exact hhash (hsent ▸ hc)
    simp [isSlash] at hslash
    simp [hslash, hc', hbreaks c hc]

theorem addresses_iff_literal (h : base.Based a path) (hne : name ≠ "")
    (hu : base.below? name = some u) : Addresses base name u ↔ Literal name :=
  ⟨literal_of_addresses h hne hu, fun hname => addresses_of_literal h hname hu⟩

theorem Addresses.unique {other : String} (h : Addresses base name u)
    (h' : Addresses base other u) : name = other := by
  obtain ⟨path, s, hpath, hu, hdecode⟩ := h.segment
  obtain ⟨path', s', hpath', hu', hdecode'⟩ := h'.segment
  obtain rfl : path = path' := Path.rooted.inj (hpath.symm.trans hpath')
  have hsegments := Path.rooted.inj (hu.symm.trans hu')
  obtain rfl : s = s' := by simpa using hsegments
  exact String.toList_inj.mp (Option.some.inj (hdecode.symm.trans hdecode'))

inductive AsksOf (index : String) : Message → Prop where
  | exists : AsksOf index (Session.existsRequest index).message
  | delete : AsksOf index (Session.deleteRequest index).message
  | create (f : Features) (settings : Option Json.Object) (m : Mapping) :
      AsksOf index (createIndexRequest f index settings m).message

theorem endpoint?_of_asksOf {m : Message} (h : AsksOf name m) (base : Url) :
    base.endpoint? m.path m.params = base.below? name := by
  have hparams : (fun u : Url => u.withParams []) = id := rfl
  cases h <;> exact (congrArg (Option.map · (base.below? name)) hparams).trans Option.map_id_apply

/--
The address that comes of an index name is the one of that index if and only if
the name stands for itself in a path; such names never share an address.
-/
theorem index_address_iff_literal {text : String} (hbase : parse? text = some base)
    (hscheme : base.scheme = "http" ∨ base.scheme = "https") (hquery : base.query = none)
    (hfragment : base.fragment = none) (hne : name ≠ "") {m : Message} (hm : AsksOf name m)
    (hu : base.endpoint? m.path m.params = some u) :
    (Addresses base name u ↔ Literal name) ∧
      ∀ other m', Literal name → Literal other → AsksOf other m' →
        base.endpoint? m'.path m'.params = some u → other = name := by
  obtain ⟨a, path, h⟩ := based_of_parse? hbase hscheme hquery hfragment
  rw [endpoint?_of_asksOf hm] at hu
  refine ⟨addresses_iff_literal h hne hu, fun other m' hname hother hm' hu' => ?_⟩
  rw [endpoint?_of_asksOf hm'] at hu'
  exact (addresses_of_literal h hother hu').unique (addresses_of_literal h hname hu)

theorem index_address_iff_literal_encoded :
    ∃ base u, parse? "https://proxy.internal/es/" = some base ∧
      base.endpoint? (Session.deleteRequest "50% märz").path [] = some u ∧
      u.text = "https://proxy.internal/es/50%%20m%C3%A4rz" ∧ Literal "50% märz" ∧
      Addresses base "50% märz" u := by
  let a : Authority := { host := .name "proxy.internal" }
  let base : Url := { scheme := "https", authority := some a, path := .rooted ["es", ""] }
  let u : Url :=
    { scheme := "https", authority := some a, path := .rooted ["es", "50%%20m%C3%A4rz"] }
  have hbase : parse? "https://proxy.internal/es/" = some base := by decide +kernel
  have hu : base.endpoint? (Session.deleteRequest "50% märz").path [] = some u := by
    decide +kernel
  have hname : Literal "50% märz" :=
    ⟨by simp, by simp, by decide, by decide, by decide⟩
  have hexact := index_address_iff_literal hbase (.inr rfl) rfl rfl (by decide) .delete hu
  exact ⟨base, u, hbase, hu, by decide +kernel, hname, hexact.1.mpr hname⟩

/--
Other names are taken for something else: dots lead out of the path of the
base, a question mark begins a query, and a name with slashes shares its
address with a name without.
-/
theorem index_address_not_exact :
    ∃ base u v w, parse? "https://proxy.internal/es/" = some base ∧
      base.endpoint? (Session.deleteRequest "../posts").path [] = some u ∧
      u.text = "https://proxy.internal/posts" ∧ ¬ Addresses base "../posts" u ∧
      base.endpoint? (Session.deleteRequest "a?b").path [] = some v ∧
      v.text = "https://proxy.internal/es/a?b" ∧ ¬ Addresses base "a?b" v ∧
      base.endpoint? (Session.deleteRequest "a").path [] = some w ∧
      base.endpoint? (Session.deleteRequest "b/../a").path [] = some w := by
  let a : Authority := { host := .name "proxy.internal" }
  let base : Url := { scheme := "https", authority := some a, path := .rooted ["es", ""] }
  let u : Url := { scheme := "https", authority := some a, path := .rooted ["posts"] }
  let v : Url :=
    { scheme := "https", authority := some a, path := .rooted ["es", "a"], query := some "b" }
  let w : Url := { scheme := "https", authority := some a, path := .rooted ["es", "a"] }
  have hbase : parse? "https://proxy.internal/es/" = some base := by decide +kernel
  have hout : ¬ Addresses base "../posts" u := by
    rintro ⟨-, -, path, s, hpath, hu, -⟩
    obtain rfl : ["es", ""] = path := Path.rooted.inj hpath
    have hstem : stem ["es", ""] = ["es"] := by decide
    rw [hstem] at hu
    simpa using congrArg List.length (Path.rooted.inj hu)
  have hquery : ¬ Addresses base "a?b" v := fun h => absurd h.query (by decide)
  exact ⟨base, u, v, w, hbase, by decide +kernel, by decide +kernel, hout, by decide +kernel,
    by decide +kernel, hquery, by decide +kernel, by decide +kernel⟩

end SearchClient.Url
