import SearchClient.Proofs.Text.Cut
import SearchClient.Proofs.Url.Percent
import SearchClient.Url.Parse

/-!
# Segments of paths

The segments of a path that was read stand in it encoded, and none of them is a
step.  Such segments are followed to themselves, so that a path written from
them and read again leads through them to whatever is written behind.
-/

namespace SearchClient.Url

open Text

theorem toLower_cases (c : Char) :
    c.toLower = c ∨ (65 ≤ c.toNat ∧ c.toNat ≤ 90 ∧ c.toLower.toNat = c.toNat + 32) := by
  unfold Char.toLower
  split
  · rename_i h
    simp only [UInt32.le_iff_toNat_le, ge_iff_le] at h
    refine .inr ⟨h.1, h.2, ?_⟩
    change (c.val + ('a'.val - 'A'.val)).toNat = c.val.toNat + 32
    have hle : c.val.toNat ≤ 90 := h.2
    have hoffset : ('a'.val - 'A'.val).toNat = 32 := rfl
    rw [UInt32.toNat_add, hoffset]
    exact Nat.mod_eq_of_lt (by omega)
  · exact .inl rfl

theorem toLower_eq_iff {c d : Char} (hd : d.toLower = d) (hnot : d.toNat < 97) :
    c.toLower = d ↔ c = d := by
  refine ⟨fun h => ?_, fun h => h ▸ hd⟩
  rcases toLower_cases c with hc | ⟨hlow, -, hc⟩
  · rw [← hc, h]
  · rw [h] at hc
    omega

theorem toLower_eq_e_iff {c : Char} : c.toLower = 'e' ↔ c = 'e' ∨ c = 'E' := by
  constructor
  · intro h
    rcases toLower_cases c with hc | ⟨-, -, hc⟩
    · exact .inl (hc.symm.trans h)
    · rw [h] at hc
      exact .inr (Char.toNat_inj.mp (Nat.add_right_cancel hc.symm))
  · rintro (rfl | rfl) <;> rfl

/-! ## Steps -/

def dots : List (List Char) := [['.'], ['%', '2', 'e'], ['%', '2', 'E']]

theorem isSingleDot_iff_mem {cs : List Char} : isSingleDot cs = true ↔ cs ∈ dots := by
  simp [isSingleDot, dots, ← String.toList_inj, List.map_eq_cons_iff, toLower_eq_iff,
    toLower_eq_e_iff, and_or_left, exists_or]

theorem isDoubleDot_iff_mem {cs : List Char} :
    isDoubleDot cs = true ↔ ∃ a ∈ dots, ∃ b ∈ dots, cs = a ++ b := by
  simp [isDoubleDot, dots, ← String.toList_inj, List.map_eq_cons_iff, toLower_eq_iff,
    toLower_eq_e_iff, and_or_left, exists_or]
  grind

theorem toNat_of_utf8EncodeChar {c : Char} {byte : UInt8} {more : List UInt8}
    (h : String.utf8EncodeChar c = byte :: more) (hbyte : byte.toNat < 128) :
    c.toNat = byte.toNat := by
  have hfirst : ((String.utf8EncodeChar c).headD 0).toNat = byte.toNat := by rw [h, List.headD_cons]
  change c.val.toNat = byte.toNat
  simp only [String.utf8EncodeChar] at hfirst
  split at hfirst
  · rw [List.headD_cons, UInt8.toNat_ofNat'] at hfirst
    omega
  · split at hfirst
    · rw [List.headD_cons, UInt8.toNat_ofNat'] at hfirst
      omega
    · split at hfirst
      · rw [List.headD_cons, UInt8.toNat_ofNat'] at hfirst
        omega
      · rw [List.headD_cons, UInt8.toNat_ofNat'] at hfirst
        omega

theorem utf8EncodeChar_append_eq_iff {c : Char} {xs bs : List UInt8} :
    String.utf8EncodeChar c ++ xs = 46 :: bs ↔ c = '.' ∧ xs = bs := by
  constructor
  · intro h
    obtain ⟨byte, more, hchar⟩ := List.exists_cons_of_ne_nil (String.utf8EncodeChar_ne_nil (c := c))
    have hbyte : byte = 46 := by
      rw [hchar, List.cons_append] at h
      exact (List.cons.inj h).1
    obtain rfl : c = '.' :=
      Char.toNat_inj.mp (toNat_of_utf8EncodeChar (hbyte ▸ hchar) (by decide))
    exact ⟨rfl, (List.cons.inj h).2⟩
  · rintro ⟨rfl, rfl⟩
    rfl

theorem escaped_eq_iff {a b : Char} (ha : isHexDigit a = true) (hb : isHexDigit b = true) :
    escaped a b = 46 ↔ a = '2' ∧ (b = 'e' ∨ b = 'E') := by
  constructor
  · intro h
    obtain ⟨high, hhigh⟩ := Option.isSome_iff_exists.mp ha
    obtain ⟨low, hlow⟩ := Option.isSome_iff_exists.mp hb
    have hsum : (16 * high + low) % 256 = 46 := by
      simpa [escaped, hhigh, hlow] using congrArg UInt8.toNat h
    have ha := hexValue?_cases hhigh
    have hb := hexValue?_cases hlow
    have hdigit : a.toNat = 50 := by omega
    have hletter : b.toNat = 101 ∨ b.toNat = 69 := by omega
    exact ⟨Char.toNat_inj.mp hdigit, hletter.imp Char.toNat_inj.mp Char.toNat_inj.mp⟩
  · rintro ⟨rfl, rfl | rfl⟩ <;> rfl

theorem decodeBytes_dot {dot : List Char} (h : dot ∈ dots) (rest : List Char) :
    decodeBytes (dot ++ rest) = 46 :: decodeBytes rest := by
  simp only [dots, List.mem_cons, List.not_mem_nil, or_false] at h
  rcases h with rfl | rfl | rfl
  · have hnot : beginsEscape ('.' :: rest) = false := by
      rcases rest with _ | ⟨a, _ | ⟨b, rest⟩⟩ <;> rfl
    exact decodeBytes_cons hnot
  · exact decodeBytes_escape (by decide) (by decide) rest
  · exact decodeBytes_escape (by decide) (by decide) rest

theorem decodeBytes_eq_dot_cons {cs : List Char} {bs : List UInt8} :
    decodeBytes cs = 46 :: bs ↔ ∃ dot ∈ dots, ∃ rest, cs = dot ++ rest ∧ decodeBytes rest = bs := by
  constructor
  · intro h
    rcases beginsEscape_cases cs with ⟨a, b, rest, rfl, ha, hb⟩ | hnot
    · rw [decodeBytes_escape ha hb, List.cons.injEq, escaped_eq_iff ha hb] at h
      obtain ⟨⟨rfl, rfl | rfl⟩, hrest⟩ := h
      · exact ⟨['%', '2', 'e'], by decide, rest, rfl, hrest⟩
      · exact ⟨['%', '2', 'E'], by decide, rest, rfl, hrest⟩
    · cases cs with
      | nil => cases h
      | cons c rest =>
          rw [decodeBytes_cons hnot, utf8EncodeChar_append_eq_iff] at h
          obtain ⟨rfl, hrest⟩ := h
          exact ⟨['.'], by decide, rest, rfl, hrest⟩
  · rintro ⟨dot, hdot, rest, rfl, rfl⟩
    exact decodeBytes_dot hdot rest

theorem decodeBytes_eq_nil_iff {cs : List Char} : decodeBytes cs = [] ↔ cs = [] := by
  constructor
  · intro h
    rcases beginsEscape_cases cs with ⟨a, b, rest, rfl, ha, hb⟩ | hnot
    · rw [decodeBytes_escape ha hb] at h
      cases h
    · cases cs with
      | nil => rfl
      | cons c rest =>
          rw [decodeBytes_cons hnot] at h
          exact absurd (List.append_eq_nil_iff.mp h).1 String.utf8EncodeChar_ne_nil
  · rintro rfl
    rfl

theorem isSingleDot_iff {cs : List Char} : isSingleDot cs = true ↔ decodeBytes cs = [46] := by
  rw [isSingleDot_iff_mem, decodeBytes_eq_dot_cons]
  simp only [decodeBytes_eq_nil_iff]
  simp

theorem isDoubleDot_iff {cs : List Char} : isDoubleDot cs = true ↔ decodeBytes cs = [46, 46] := by
  rw [isDoubleDot_iff_mem, decodeBytes_eq_dot_cons]
  simp only [decodeBytes_eq_dot_cons, decodeBytes_eq_nil_iff]
  constructor
  · rintro ⟨a, ha, b, hb, rfl⟩
    exact ⟨a, ha, b, rfl, b, hb, [], (List.append_nil b).symm, rfl⟩
  · rintro ⟨a, ha, _, rfl, b, hb, _, rfl, rfl⟩
    exact ⟨a, ha, b, hb, by rw [List.append_nil]⟩

/-- A segment as it stands in a path that was read: encoded, in one piece, and no step. -/
structure Settled (cs : List Char) : Prop where
  kept : ∀ c ∈ cs, keptInPath c = true
  whole : ∀ c ∈ cs, isSlash true c = false
  noSingleDot : isSingleDot cs = false
  noDoubleDot : isDoubleDot cs = false

theorem settled_nil : Settled [] where
  kept := by simp
  whole := by simp
  noSingleDot := by decide
  noDoubleDot := by decide

theorem isSlash_of_isHexDigit {c : Char} (h : isHexDigit c = true) : isSlash true c = false :=
  forall_hexDigit (P := fun c => isSlash true c = false) (by decide +kernel) h

theorem isSingleDot_encode (cs : List Char) :
    isSingleDot (encode keptInPath cs) = isSingleDot cs := by
  rw [Bool.eq_iff_iff, isSingleDot_iff, isSingleDot_iff, keepsEscapes_keptInPath.decodeBytes_encode]

theorem isDoubleDot_encode (cs : List Char) :
    isDoubleDot (encode keptInPath cs) = isDoubleDot cs := by
  rw [Bool.eq_iff_iff, isDoubleDot_iff, isDoubleDot_iff, keepsEscapes_keptInPath.decodeBytes_encode]

theorem settled_encode {cs : List Char} (hwhole : ∀ c ∈ cs, isSlash true c = false)
    (hsingle : isSingleDot cs = false) (hdouble : isDoubleDot cs = false) :
    Settled (encode keptInPath cs) where
  kept _ hc := keepsEscapes_keptInPath.kept_of_mem_encode hc
  whole c hc := by
    rcases mem_encode hc with ⟨hmem, -⟩ | rfl | hdigit
    · exact hwhole c hmem
    · decide
    · exact isSlash_of_isHexDigit hdigit
  noSingleDot := (isSingleDot_encode cs).trans hsingle
  noDoubleDot := (isDoubleDot_encode cs).trans hdouble

/-! ## Following segments -/

theorem step_of_not_dots {cs : List Char} (hsingle : isSingleDot cs = false)
    (hdouble : isDoubleDot cs = false) (path : List String) :
    step false path cs = path ++ [String.ofList (encode keptInPath cs)] := by
  simp [step, segment, hsingle, hdouble]

theorem up_subset (path : List String) : up path ⊆ path := by
  unfold up
  split
  · exact List.Subset.refl path
  · exact List.dropLast_subset path

theorem foldl_step_keeps_settled {parts : List (List Char)} {path : List String}
    (hparts : ∀ part ∈ parts, ∀ c ∈ part, isSlash true c = false)
    (hpath : ∀ s ∈ path, Settled s.toList) :
    ∀ s ∈ parts.foldl (step false) path, Settled s.toList := by
  induction parts generalizing path with
  | nil => exact hpath
  | cons part parts ih =>
      refine ih (fun other hother => hparts other (List.mem_cons_of_mem _ hother)) fun s hs => ?_
      cases hdouble : isDoubleDot part with
      | true =>
          rw [step, if_pos hdouble] at hs
          exact hpath s (up_subset path hs)
      | false =>
          cases hsingle : isSingleDot part with
          | true =>
              rw [step, if_neg (by simp [hdouble]), if_pos hsingle] at hs
              exact hpath s hs
          | false =>
              rw [step_of_not_dots hsingle hdouble] at hs
              rcases List.mem_append.mp hs with hs | hs
              · exact hpath s hs
              · rw [List.mem_singleton.mp hs, String.toList_ofList]
                exact settled_encode (hparts part List.mem_cons_self) hsingle hdouble

theorem follow_settled {parts : List (List Char)}
    (hparts : ∀ part ∈ parts, ∀ c ∈ part, isSlash true c = false) :
    ∀ s ∈ follow false parts, Settled s.toList := by
  have hsteps : ∀ s ∈ parts.foldl (step false) [], Settled s.toList :=
    foldl_step_keeps_settled hparts (by simp)
  intro s hs
  unfold follow at hs
  split at hs
  · rcases List.mem_append.mp hs with hs | hs
    · exact hsteps s hs
    · rw [List.mem_singleton.mp hs]
      exact settled_nil
  · exact hsteps s hs

theorem segments_settled (cs : List Char) : ∀ s ∈ segments true false cs, Settled s.toList :=
  follow_settled fun _ hpart _ hc => (of_mem_splitOn hpart hc).2

theorem foldl_step_settled {path : List String} (h : ∀ s ∈ path, Settled s.toList)
    (before : List String) :
    (path.map String.toList).foldl (step false) before = before ++ path := by
  induction path generalizing before with
  | nil => exact (List.append_nil before).symm
  | cons s path ih =>
      have hs := h s List.mem_cons_self
      rw [List.map_cons, List.foldl_cons, step_of_not_dots hs.noSingleDot hs.noDoubleDot,
        encode_eq_self hs.kept, String.ofList_toList,
        ih fun t ht => h t (List.mem_cons_of_mem _ ht), List.append_assoc, List.singleton_append]

/-- A path of segments that were read is cut into them again, and what is behind it on its own. -/
theorem splitOn_written {path : List String} (h : ∀ s ∈ path, Settled s.toList)
    (rest : List Char) :
    ∃ body, (Path.rooted path).chars ++ '/' :: rest = '/' :: body ∧
      splitOn (isSlash true) body = path.map String.toList ++ splitOn (isSlash true) rest := by
  -- The first slash is left out of the text that is cut, so each segment ends with one.
  induction path with
  | nil => exact ⟨rest, rfl, rfl⟩
  | cons s path ih =>
      obtain ⟨body, hbody, hparts⟩ := ih fun t ht => h t (List.mem_cons_of_mem _ ht)
      refine ⟨s.toList ++ '/' :: body, ?_, ?_⟩
      · rw [← hbody]
        simp [Path.chars]
      · rw [splitOn_append_separator (h s List.mem_cons_self).whole (by decide), hparts,
          List.map_cons, List.cons_append]

theorem segments_written {path : List String} (h : ∀ s ∈ path, Settled s.toList)
    (rest : List Char) :
    segments true false ((Path.rooted path).chars ++ '/' :: rest) =
      follow false (path.map String.toList ++ splitOn (isSlash true) rest) := by
  obtain ⟨body, hbody, hparts⟩ := splitOn_written h rest
  rw [hbody, ← hparts]
  rfl

theorem follow_concat (parts : List (List Char)) (part : List Char) :
    follow false (parts ++ [part]) =
      if isDoubleDot part || isSingleDot part then
        step false (parts.foldl (step false) []) part ++ [""]
      else parts.foldl (step false) [] ++ [String.ofList (encode keptInPath part)] := by
  rw [follow, List.foldl_append, List.foldl_cons, List.foldl_nil, List.getLast?_concat,
    Option.any_some]
  split
  · rfl
  · rename_i hdots
    simp only [Bool.or_eq_true, not_or, Bool.not_eq_true] at hdots
    exact step_of_not_dots hdots.2 hdots.1 _

theorem follow_last {parts : List (List Char)} (hparts : parts ≠ []) :
    ∃ front last, follow false parts = front ++ [last] ∧
      (last = "" ∨ ∃ part ∈ parts.getLast?, isSingleDot part = false ∧ isDoubleDot part = false ∧
        last = String.ofList (encode keptInPath part)) := by
  obtain ⟨init, part, rfl⟩ := (List.eq_nil_or_concat parts).resolve_left hparts
  rw [List.concat_eq_append, follow_concat]
  split
  · exact ⟨_, "", rfl, .inl rfl⟩
  · rename_i hdots
    simp only [Bool.or_eq_true, not_or, Bool.not_eq_true] at hdots
    exact ⟨_, _, rfl, .inr ⟨part, by simp, hdots.2, hdots.1, rfl⟩⟩

theorem follow_settled_concat {path : List String} (h : ∀ s ∈ path, Settled s.toList)
    {part : List Char} (hsingle : isSingleDot part = false) (hdouble : isDoubleDot part = false) :
    follow false (path.map String.toList ++ [part]) =
      path ++ [String.ofList (encode keptInPath part)] := by
  rw [follow_concat, foldl_step_settled h, hsingle, hdouble]
  rfl

end SearchClient.Url
