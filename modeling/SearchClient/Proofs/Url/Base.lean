import SearchClient.Proofs.Url.Authority
import SearchClient.Url.Endpoint

/-!
# Reading below a base

An address that was read, written again with a path behind it, is read as far
as its own end like before.  What becomes of the path behind it depends only on
the path.
-/

namespace SearchClient.Url

open Text

/-- The address of an engine as it was read: its host, a path, and nothing behind it. -/
structure Based (base : Url) (a : Authority) (path : List String) : Prop where
  scheme : base.scheme = "http" ∨ base.scheme = "https"
  authority : base.authority = some a
  rooted : base.path = .rooted path
  query : base.query = none
  fragment : base.fragment = none
  firm : Firm a.chars
  nonempty : a.chars ≠ []
  settled : ∀ s ∈ path, Settled s.toList

variable {base u : Url} {a : Authority} {path : List String}

theorem special?_parts {scheme : String} (hscheme : isSpecial scheme = true) {cs : List Char}
    {authority : Option Authority} {place : Path}
    (h : special? scheme cs = some (authority, place)) :
    ∃ a path, authority = some a ∧ place = .rooted path ∧ Firm a.chars ∧ a.chars ≠ [] ∧
      ∀ s ∈ path, Settled s.toList := by
  unfold special? at h
  obtain ⟨⟨a, front⟩, ha, h⟩ := Option.bind_eq_some_iff.mp h
  cases h
  obtain ⟨hfirm, hne⟩ := firm_of_authority? hscheme ha
  exact ⟨a, _, rfl, rfl, hfirm, hne, segments_settled _⟩

theorem isSpecial_of_web {scheme : String} (h : scheme = "http" ∨ scheme = "https") :
    isSpecial scheme = true ∧ scheme ≠ "file" := by
  rcases h with rfl | rfl <;> decide

theorem ofChars?_parts {cs rest : List Char} {scheme : String} (h : ofChars? cs = some u)
    (htake : takeScheme (strip cs) = some (scheme, rest))
    (hscheme : scheme = "http" ∨ scheme = "https") :
    special? scheme (cutAt '?' (cutAt '#' rest).1).1 = some (u.authority, u.path) ∧
      (u.query = none ↔ (cutAt '?' (cutAt '#' rest).1).2 = none) ∧
      (u.fragment = none ↔ (cutAt '#' rest).2 = none) := by
  obtain ⟨hspecial, hfile⟩ := isSpecial_of_web hscheme
  rw [ofChars?, htake] at h
  change (if scheme = "file" then _ else _) = some u at h
  rw [if_neg hfile, if_pos hspecial] at h
  obtain ⟨parts, hparts, h⟩ := Option.bind_eq_some_iff.mp h
  obtain rfl := Option.some.inj h
  exact ⟨hparts, Option.map_eq_none_iff, Option.map_eq_none_iff⟩

theorem takeScheme_of_ofChars? {cs : List Char} (h : ofChars? cs = some u) :
    ∃ rest, takeScheme (strip cs) = some (u.scheme, rest) := by
  unfold ofChars? at h
  obtain ⟨⟨scheme, rest⟩, htake, h⟩ := Option.bind_eq_some_iff.mp h
  refine ⟨rest, htake.trans ?_⟩
  dsimp only at h
  split at h
  · obtain ⟨parts, -, h⟩ := Option.bind_eq_some_iff.mp h
    rw [← Option.some.inj h]
  · split at h
    · obtain ⟨parts, -, h⟩ := Option.bind_eq_some_iff.mp h
      rw [← Option.some.inj h]
    · obtain ⟨parts, -, h⟩ := Option.bind_eq_some_iff.mp h
      rw [← Option.some.inj h]

theorem based_of_parse? {text : String} (h : parse? text = some base)
    (hscheme : base.scheme = "http" ∨ base.scheme = "https") (hquery : base.query = none)
    (hfragment : base.fragment = none) : ∃ a path, base.Based a path := by
  obtain ⟨rest, htake⟩ := takeScheme_of_ofChars? h
  obtain ⟨hparts, -, -⟩ := ofChars?_parts h htake hscheme
  obtain ⟨a, path, hauthority, hplace, hfirm, hne, hsettled⟩ :=
    special?_parts (isSpecial_of_web hscheme).1 hparts
  exact ⟨a, path, hscheme, hauthority, hplace, hquery, hfragment, hfirm, hne, hsettled⟩

def stem (path : List String) : List String := path.rdropWhile String.isEmpty

theorem mem_of_mem_stem {s : String} (h : s ∈ stem path) : s ∈ path := by
  have hprefix : stem path <+: path := List.rdropWhile_prefix String.isEmpty path
  exact hprefix.subset h

theorem chars_concat (path : List String) (s : String) :
    (Path.rooted (path ++ [s])).chars = (Path.rooted path).chars ++ '/' :: s.toList := by
  simp [Path.chars]

theorem trimEnd_rooted {front : List Char} (hfront : trimEnd (· = '/') front = front)
    (hwhole : ∀ s ∈ path, ∀ c ∈ s.toList, isSlash true c = false) :
    trimEnd (· = '/') (front ++ (Path.rooted path).chars) =
      front ++ (Path.rooted (stem path)).chars := by
  induction path using List.reverseRecOn with
  | nil => simpa [Path.chars, stem] using hfront
  | append_singleton path s ih =>
      rw [chars_concat, stem]
      by_cases hempty : s = ""
      · subst hempty
        rw [List.rdropWhile_concat_pos _ _ _ (by decide), ← List.append_assoc]
        exact (trimEnd_concat_pos (by decide) _).trans
          (ih fun t ht => hwhole t (List.mem_append_left _ ht))
      · have hs : s.toList ≠ [] := by simpa using hempty
        obtain ⟨init, c, hs⟩ := (List.eq_nil_or_concat s.toList).resolve_left hs
        have hc : c ≠ '/' := by
          rintro rfl
          exact absurd (hwhole s (by simp) '/' (by simp [hs])) (by decide)
        rw [List.rdropWhile_concat_neg _ _ _ (by simpa using hempty), chars_concat, hs,
          List.concat_eq_append, ← List.cons_append, ← List.append_assoc, ← List.append_assoc]
        exact trimEnd_concat_neg (by simpa using hc) _

def placeChars (scheme : String) (a : Authority) : List Char :=
  scheme.toList ++ ':' :: '/' :: '/' :: a.chars

theorem Based.chars_eq (h : base.Based a path) :
    base.chars = placeChars base.scheme a ++ (Path.rooted path).chars := by
  simp [chars, placeChars, h.authority, h.rooted, h.query, h.fragment, marked, needsDot]

theorem Based.trimEnd_chars (h : base.Based a path) :
    trimEnd (· = '/') base.chars = placeChars base.scheme a ++ (Path.rooted (stem path)).chars := by
  rw [h.chars_eq]
  refine trimEnd_rooted ?_ fun s hs => (h.settled s hs).whole
  obtain ⟨init, c, ha⟩ := (List.eq_nil_or_concat a.chars).resolve_left h.nonempty
  have hc : c ≠ '/' := by
    rintro rfl
    exact absurd (h.firm '/' (by simp [ha])) (by decide)
  have hplace : placeChars base.scheme a =
      (base.scheme.toList ++ ':' :: '/' :: '/' :: init) ++ [c] := by
    simp [placeChars, ha]
  rw [hplace]
  exact trimEnd_concat_neg (by simpa using hc) _

/-- What is read of a path below a base: slashes before it, blanks behind it and breaks are lost. -/
def sent (path : String) : List Char :=
  (trimEnd (fun c => c.toNat ≤ 32) (trimStart (· = '/') path.toList)).filter fun c =>
    c ≠ '\t' && c ≠ '\n' && c ≠ '\r'

theorem sent_sublist (path : String) : (sent path).Sublist path.toList :=
  (List.filter_sublist.trans (trimEnd_sublist _ _)).trans (List.dropWhile_sublist _)

def Lasting (cs : List Char) : Prop := ∀ c ∈ cs, 32 < c.toNat

theorem strip_append {front : List Char} (hfront : Lasting front) (hne : front ≠ [])
    (path : String) :
    strip (front ++ '/' :: trimStart (· = '/') path.toList) = front ++ '/' :: sent path := by
  obtain ⟨first, front, rfl⟩ := List.exists_cons_of_ne_nil hne
  have hkept : ∀ c ∈ first :: front, (c ≠ '\t' && c ≠ '\n' && c ≠ '\r') = true := by
    intro c hc
    have hlasting := hfront c hc
    have hother (d : Char) (hd : d.toNat ≤ 32) : c ≠ d := by
      rintro rfl
      omega
    simp [hother '\t' (by decide), hother '\n' (by decide), hother '\r' (by decide)]
  have hfirst := hfront first List.mem_cons_self
  simp only [strip]
  rw [List.cons_append, trimStart_of_head (by simpa using hfirst), ← List.cons_append,
    trimEnd_append_cons (by decide), List.filter_append, List.filter_eq_self.mpr hkept,
    List.filter_cons_of_pos (by decide)]
  rfl

theorem takeScheme_of_web {scheme : String} (h : scheme = "http" ∨ scheme = "https")
    (rest : List Char) : takeScheme (scheme.toList ++ ':' :: rest) = some (scheme, rest) := by
  rcases h with rfl | rfl <;> rfl

theorem special?_path {scheme : String} {a : Authority} {rest : List Char} {place : Path}
    {authority : Option Authority} (hfirm : Firm a.chars) (hne : a.chars ≠ [])
    (h : special? scheme ('/' :: '/' :: (a.chars ++ '/' :: rest)) = some (authority, place)) :
    place = .rooted (segments true false ('/' :: rest)) := by
  have hwhole : ∀ c ∈ a.chars, (!isSlash true c) = true := fun c hc => by
    have hc := hfirm c hc
    simp only [isFirm, Bool.and_eq_true] at hc
    exact hc.1.1.2
  have htrim : trimStart (isSlash true) ('/' :: '/' :: (a.chars ++ '/' :: rest)) =
      a.chars ++ '/' :: rest := by
    obtain ⟨first, more, ha⟩ := List.exists_cons_of_ne_nil hne
    have hfirst := hwhole first (by simp [ha])
    change trimStart (isSlash true) (a.chars ++ '/' :: rest) = a.chars ++ '/' :: rest
    rw [ha, List.cons_append]
    exact trimStart_of_head (by simpa using hfirst) _
  have hplace : (a.chars ++ '/' :: rest).takeWhile (fun c => !isSlash true c) = a.chars := by
    rw [List.takeWhile_append_of_pos hwhole, List.takeWhile_cons_of_neg (by decide),
      List.append_nil]
  rw [special?, htrim, hplace, List.drop_left] at h
  obtain ⟨parts, -, h⟩ := Option.bind_eq_some_iff.mp h
  cases h
  rfl

def frontChars (a : Authority) (path : List String) : List Char :=
  '/' :: '/' :: (a.chars ++ ((Path.rooted path).chars ++ ['/']))

theorem Based.isFirm_or_slash (h : base.Based a path) {c : Char}
    (hc : c ∈ frontChars a (stem path)) : isFirm c = true ∨ c = '/' := by
  simp only [frontChars, Path.chars, List.mem_cons, List.mem_append, List.mem_flatMap,
    List.not_mem_nil, or_false] at hc
  rcases hc with hc | hc | hc | ⟨s, hs, hc | hc⟩ | hc
  · exact .inr hc
  · exact .inr hc
  · exact .inl (h.firm c hc)
  · exact .inr hc
  · have hsettled := h.settled s (mem_of_mem_stem hs)
    exact .inl (isFirm_of_keptInPath (hsettled.kept c hc) (hsettled.whole c hc))
  · exact .inr hc

theorem Based.lasting (h : base.Based a path) :
    Lasting (placeChars base.scheme a ++ (Path.rooted (stem path)).chars) := by
  have hscheme : Lasting (base.scheme.toList ++ [':']) := by
    rcases h.scheme with hscheme | hscheme <;> simp [hscheme, Lasting]
  have hfront : Lasting (frontChars a (stem path)) := fun c hc => by
    rcases h.isFirm_or_slash hc with hfirm | rfl
    · simp only [isFirm, Bool.and_eq_true, decide_eq_true_eq] at hfirm
      exact hfirm.1.1.1
    · decide
  intro c hc
  rw [placeChars, List.append_assoc] at hc
  have hc : c ∈ (base.scheme.toList ++ [':']) ++ frontChars a (stem path) := by
    simp only [frontChars, List.mem_append, List.mem_cons] at hc ⊢
    tauto
  exact (List.mem_append.mp hc).elim (hscheme c) (hfront c)

theorem Based.takeScheme_below (h : base.Based a path) (name : String) :
    takeScheme (strip (trimEnd (· = '/') base.chars ++ '/' :: trimStart (· = '/') name.toList)) =
      some (base.scheme, frontChars a (stem path) ++ sent name) := by
  have hne : placeChars base.scheme a ++ (Path.rooted (stem path)).chars ≠ [] := by
    simp [placeChars]
  rw [h.trimEnd_chars, strip_append h.lasting hne, ← takeScheme_of_web h.scheme]
  simp [placeChars, frontChars]

theorem Based.below?_parts {name : String} (h : base.Based a path)
    (hu : base.below? name = some u) :
    u.path = .rooted (follow false ((stem path).map String.toList ++
        splitOn (isSlash true) (cutAt '?' (cutAt '#' (sent name)).1).1)) ∧
      (u.query = none ↔ (cutAt '?' (cutAt '#' (sent name)).1).2 = none) ∧
      (u.fragment = none ↔ (cutAt '#' (sent name)).2 = none) := by
  have hsettled : ∀ s ∈ stem path, Settled s.toList := fun s hs => h.settled s (mem_of_mem_stem hs)
  have hnot (mark : Char) (hfirm : isFirm mark = false) (hslash : mark ≠ '/') :
      mark ∉ frontChars a (stem path) := fun hmem =>
    (h.isFirm_or_slash hmem).elim (fun hc => by simp [hfirm] at hc) hslash
  have hparts := ofChars?_parts hu (h.takeScheme_below name) h.scheme
  rw [cutAt_append (hnot '#' (by decide) (by decide)),
    cutAt_append (hnot '?' (by decide) (by decide))] at hparts
  obtain ⟨hspecial, hquery, hfragment⟩ := hparts
  obtain ⟨body, hbody, -⟩ := splitOn_written hsettled (cutAt '?' (cutAt '#' (sent name)).1).1
  refine ⟨?_, hquery, hfragment⟩
  rw [← segments_written hsettled, hbody]
  have htext : frontChars a (stem path) ++ (cutAt '?' (cutAt '#' (sent name)).1).1 =
      '/' :: '/' :: (a.chars ++ '/' :: body) := by
    rw [← hbody]
    simp [frontChars]
  rw [htext] at hspecial
  exact special?_path h.firm h.nonempty hspecial

end SearchClient.Url
