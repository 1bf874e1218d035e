import SearchClient.Url.Percent

/-!
# Percent encoding read back

An encoded text stands for the same bytes as the text itself: what is encoded
reads back as itself, and an escape that the text had before stays what it was.
So a text reads back from its encoded form only if it has no escapes.
-/

namespace SearchClient.Url

open Text

theorem forall_ascii {P : Char → Prop} (h : ∀ n < 128, P (Char.ofNat n)) {c : Char}
    (hc : c.toNat < 128) : P c := by
  simpa using h c.toNat hc

theorem hexValue?_cases {c : Char} {n : Nat} (h : hexValue? c = some n) :
    (48 ≤ c.toNat ∧ c.toNat ≤ 57 ∧ n = c.toNat - 48) ∨
      (97 ≤ c.toNat ∧ c.toNat ≤ 102 ∧ n = c.toNat - 97 + 10) ∨
      (65 ≤ c.toNat ∧ c.toNat ≤ 70 ∧ n = c.toNat - 65 + 10) := by
  unfold hexValue? at h
  simp only [Char.isDigit, Char.le_def, UInt32.le_iff_toNat_le, ge_iff_le, Bool.and_eq_true,
    decide_eq_true_eq] at h
  split at h
  · exact .inl ⟨‹_ ∧ _›.1, ‹_ ∧ _›.2, (Option.some.inj h).symm⟩
  · split at h
    · exact .inr (.inl ⟨‹_ ∧ _›.1, ‹_ ∧ _›.2, (Option.some.inj h).symm⟩)
    · split at h
      · exact .inr (.inr ⟨‹_ ∧ _›.1, ‹_ ∧ _›.2, (Option.some.inj h).symm⟩)
      · cases h

theorem ascii_of_isHexDigit {c : Char} (h : isHexDigit c = true) : c.toNat < 128 := by
  obtain ⟨n, hn⟩ := Option.isSome_iff_exists.mp h
  have hn := hexValue?_cases hn
  omega

theorem forall_hexDigit {P : Char → Prop}
    (h : ∀ n < 128, isHexDigit (Char.ofNat n) = true → P (Char.ofNat n)) {c : Char}
    (hc : isHexDigit c = true) : P c :=
  forall_ascii (P := fun c => isHexDigit c = true → P c) h (ascii_of_isHexDigit hc) hc

def bytes (cs : List Char) : List UInt8 := cs.flatMap String.utf8EncodeChar

theorem bytes_cons (c : Char) (cs : List Char) :
    bytes (c :: cs) = String.utf8EncodeChar c ++ bytes cs := rfl

theorem length_bytes_cons (c : Char) (cs : List Char) :
    (bytes cs).length < (bytes (c :: cs)).length := by
  have hc := List.length_pos_iff.mpr (String.utf8EncodeChar_ne_nil (c := c))
  rw [bytes_cons, List.length_append]
  omega

theorem utf8Encode_eq (cs : List Char) : cs.utf8Encode = ⟨(bytes cs).toArray⟩ :=
  ByteArray.ext List.data_toByteArray

theorem decode?_eq_some_iff {cs ds : List Char} :
    decode? cs = some ds ↔ decodeBytes cs = bytes ds := by
  rw [decode?, Option.map_eq_some_iff]
  constructor
  · rintro ⟨chars, hchars, rfl⟩
    have hencoded := ByteArray.utf8Encode_get_utf8Decode? (h := Option.isSome_of_eq_some hchars)
    rw [Option.get_of_eq_some _ hchars, utf8Encode_eq, ByteArray.mk.injEq] at hencoded
    exact (congrArg Array.toList hencoded).symm
  · intro h
    rw [h, ← utf8Encode_eq, List.utf8Decode?_utf8Encode]
    exact ⟨_, rfl, rfl⟩

theorem length_bytes_le {cs ds : List Char} (h : cs.Sublist ds) :
    (bytes cs).length ≤ (bytes ds).length := by
  induction h with
  | slnil => exact Nat.le_refl _
  | @cons cs ds c h ih => exact Nat.le_of_lt (Nat.lt_of_le_of_lt ih (length_bytes_cons c ds))
  | @cons_cons cs ds c h ih =>
      rw [bytes_cons, bytes_cons, List.length_append, List.length_append]
      exact Nat.add_le_add_left ih _

theorem eq_of_length_bytes {cs ds : List Char} (h : cs.Sublist ds)
    (hlength : (bytes ds).length ≤ (bytes cs).length) : cs = ds := by
  induction h with
  | slnil => rfl
  | @cons cs ds c h ih =>
      have hless := length_bytes_cons c ds
      have hle := length_bytes_le h
      omega
  | @cons_cons cs ds c h ih =>
      rw [bytes_cons, bytes_cons, List.length_append, List.length_append] at hlength
      rw [ih (by omega)]

def beginsEscape : List Char → Bool
  | c :: a :: b :: _ => c = '%' && isHexDigit a && isHexDigit b
  | _ => false

def hasEscape : List Char → Bool
  | [] => false
  | c :: rest => beginsEscape (c :: rest) || hasEscape rest

variable {c a b : Char} {rest : List Char}

theorem decodeBytes_cons (h : beginsEscape (c :: rest) = false) :
    decodeBytes (c :: rest) = String.utf8EncodeChar c ++ decodeBytes rest := by
  rw [decodeBytes.eq_def]
  split
  · contradiction
  · rename_i a b rest' heq
    cases heq
    split
    · rename_i ha hb
      simp [beginsEscape, isHexDigit, ha, hb] at h
    · rfl
  · rename_i heq
    cases heq
    rfl

def escaped (a b : Char) : UInt8 :=
  UInt8.ofNat (16 * (hexValue? a).getD 0 + (hexValue? b).getD 0)

theorem decodeBytes_escape (ha : isHexDigit a = true) (hb : isHexDigit b = true)
    (rest : List Char) :
    decodeBytes ('%' :: a :: b :: rest) = escaped a b :: decodeBytes rest := by
  obtain ⟨high, hhigh⟩ := Option.isSome_iff_exists.mp ha
  obtain ⟨low, hlow⟩ := Option.isSome_iff_exists.mp hb
  simp [decodeBytes, escaped, hhigh, hlow]

theorem beginsEscape_cases (cs : List Char) :
    (∃ a b rest, cs = '%' :: a :: b :: rest ∧ isHexDigit a = true ∧ isHexDigit b = true) ∨
      beginsEscape cs = false := by
  match cs with
  | [] | [_] | [_, _] => exact .inr rfl
  | c :: a :: b :: rest =>
      cases h : beginsEscape (c :: a :: b :: rest) with
      | false => exact .inr rfl
      | true =>
          simp only [beginsEscape, Bool.and_eq_true, decide_eq_true_eq] at h
          exact .inl ⟨a, b, rest, by rw [h.1.1], h.1.2, h.2⟩

theorem escape_induction {P : List Char → Prop} (nil : P [])
    (escape : ∀ a b rest, isHexDigit a = true → isHexDigit b = true → P rest →
      P ('%' :: a :: b :: rest))
    (char : ∀ c rest, beginsEscape (c :: rest) = false → P rest → P (c :: rest)) :
    ∀ cs, P cs
  | [] => nil
  | c :: rest => by
      rcases beginsEscape_cases (c :: rest) with ⟨a, b, rest', heq, ha, hb⟩ | h
      · obtain ⟨rfl, rfl⟩ := List.cons.inj heq
        exact escape a b rest' ha hb (escape_induction nil escape char rest')
      · exact char c rest h (escape_induction nil escape char rest)
termination_by cs => cs.length

theorem decodeBytes_or (cs : List Char) :
    (hasEscape cs = false ∧ decodeBytes cs = bytes cs) ∨
      (hasEscape cs = true ∧ (decodeBytes cs).length < (bytes cs).length) := by
  induction cs using escape_induction with
  | nil => exact .inl ⟨rfl, rfl⟩
  | escape a b rest ha hb ih =>
      have hle : (decodeBytes rest).length ≤ (bytes rest).length := by
        rcases ih with ⟨-, ih⟩ | ⟨-, ih⟩
        · exact Nat.le_of_eq (congrArg List.length ih)
        · exact Nat.le_of_lt ih
      have hrest := length_bytes_cons b rest
      have hb' := length_bytes_cons a (b :: rest)
      have ha' := length_bytes_cons '%' (a :: b :: rest)
      refine .inr ⟨by simp [hasEscape, beginsEscape, ha, hb], ?_⟩
      rw [decodeBytes_escape ha hb, List.length_cons]
      omega
  | char c rest h ih =>
      rw [decodeBytes_cons h, bytes_cons, hasEscape, h, Bool.false_or]
      refine ih.imp (fun ih => ⟨ih.1, by rw [ih.2]⟩) fun ih => ⟨ih.1, ?_⟩
      rw [List.length_append, List.length_append]
      exact Nat.add_lt_add_left ih.2 _

/-! ## Encoding -/

theorem hexValue?_upperHexDigit : ∀ n < 16, hexValue? (upperHexDigit n) = some n := by
  decide

theorem isHexDigit_upperHexDigit {n : Nat} (h : n < 16) : isHexDigit (upperHexDigit n) = true := by
  rw [isHexDigit, hexValue?_upperHexDigit n h]
  rfl

theorem decodeBytes_encodeByte (byte : UInt8) (rest : List Char) :
    decodeBytes (encodeByte byte ++ rest) = byte :: decodeBytes rest := by
  have hlt : byte.toNat < 256 := byte.toNat_lt
  have hhigh : byte.toNat / 16 < 16 := by omega
  have hlow : byte.toNat % 16 < 16 := Nat.mod_lt _ (by decide)
  have hbyte :
      escaped (upperHexDigit (byte.toNat / 16)) (upperHexDigit (byte.toNat % 16)) = byte := by
    rw [escaped, hexValue?_upperHexDigit _ hhigh, hexValue?_upperHexDigit _ hlow,
      Option.getD_some, Option.getD_some, Nat.div_add_mod, UInt8.ofNat_toNat]
  have hescape :=
    decodeBytes_escape (isHexDigit_upperHexDigit hhigh) (isHexDigit_upperHexDigit hlow) rest
  rw [hbyte] at hescape
  exact hescape

theorem decodeBytes_flatMap_encodeByte (bs : List UInt8) (rest : List Char) :
    decodeBytes (bs.flatMap encodeByte ++ rest) = bs ++ decodeBytes rest := by
  induction bs with
  | nil => rfl
  | cons byte bs ih =>
      rw [List.flatMap_cons, List.append_assoc, decodeBytes_encodeByte, ih, List.cons_append]

/-- What escapes are made of stands for itself. -/
structure KeepsEscapes (kept : Char → Bool) : Prop where
  percent : kept '%' = true
  digit : ∀ c, isHexDigit c = true → kept c = true

theorem keepsEscapes_keptInPath : KeepsEscapes keptInPath where
  percent := by decide
  digit _ h := forall_hexDigit (P := fun c => keptInPath c = true) (by decide +kernel) h

theorem keepsEscapes_keptInUserinfo : KeepsEscapes keptInUserinfo where
  percent := by decide
  digit _ h := forall_hexDigit (P := fun c => keptInUserinfo c = true) (by decide +kernel) h

variable {kept : Char → Bool}

theorem encode_cons (c : Char) (cs : List Char) :
    encode kept (c :: cs) = encodeChar kept c ++ encode kept cs := rfl

theorem encode_cons_of_kept (h : kept c = true) (cs : List Char) :
    encode kept (c :: cs) = c :: encode kept cs := by
  rw [encode_cons, encodeChar, if_pos h]
  rfl

theorem encode_cons_of_not_kept (h : kept c = false) (cs : List Char) :
    encode kept (c :: cs) = (String.utf8EncodeChar c).flatMap encodeByte ++ encode kept cs := by
  rw [encode_cons, encodeChar, if_neg (by simp [h])]

theorem head?_encode_of_not_kept (h : kept c = false) (cs : List Char) :
    (encode kept (c :: cs)).head? = some '%' := by
  rw [encode_cons_of_not_kept h]
  cases hbytes : String.utf8EncodeChar c with
  | nil => exact absurd hbytes String.utf8EncodeChar_ne_nil
  | cons byte bs => rfl

theorem encode_eq_self {cs : List Char} (h : ∀ c ∈ cs, kept c = true) : encode kept cs = cs := by
  induction cs with
  | nil => rfl
  | cons c cs ih =>
      rw [encode_cons_of_kept (h c List.mem_cons_self),
        ih fun d hd => h d (List.mem_cons_of_mem _ hd)]

theorem mem_encode {d : Char} {cs : List Char} (h : d ∈ encode kept cs) :
    (d ∈ cs ∧ kept d = true) ∨ d = '%' ∨ isHexDigit d = true := by
  obtain ⟨c, hc, hd⟩ := List.mem_flatMap.mp h
  unfold encodeChar at hd
  split at hd
  · obtain rfl := List.mem_singleton.mp hd
    exact .inl ⟨hc, ‹_›⟩
  · obtain ⟨byte, -, hd⟩ := List.mem_flatMap.mp hd
    have hbyte : byte.toNat < 256 := byte.toNat_lt
    have hhigh : byte.toNat / 16 < 16 := by omega
    have hlow : byte.toNat % 16 < 16 := Nat.mod_lt _ (by decide)
    simp only [encodeByte, List.mem_cons, List.not_mem_nil, or_false] at hd
    rcases hd with rfl | rfl | rfl
    · exact .inr (.inl rfl)
    · exact .inr (.inr (isHexDigit_upperHexDigit hhigh))
    · exact .inr (.inr (isHexDigit_upperHexDigit hlow))

theorem KeepsEscapes.kept_of_mem_encode (hkept : KeepsEscapes kept) {d : Char} {cs : List Char}
    (h : d ∈ encode kept cs) : kept d = true := by
  rcases mem_encode h with ⟨-, h⟩ | rfl | h
  · exact h
  · exact hkept.percent
  · exact hkept.digit d h

theorem KeepsEscapes.not_digit (hkept : KeepsEscapes kept) (h : kept c = false) :
    isHexDigit c = false := by
  cases hc : isHexDigit c with
  | false => rfl
  | true => exact absurd (hkept.digit c hc) (by simp [h])

theorem beginsEscape_of_first (h : isHexDigit a = false) :
    beginsEscape (c :: a :: rest) = false := by
  cases rest with
  | nil => rfl
  | cons b rest => simp [beginsEscape, h]

theorem beginsEscape_of_second (h : isHexDigit b = false) :
    beginsEscape (c :: a :: b :: rest) = false := by
  simp [beginsEscape, h]

theorem KeepsEscapes.beginsEscape_encode (hkept : KeepsEscapes kept) (c : Char) (cs : List Char) :
    beginsEscape (c :: encode kept cs) = beginsEscape (c :: cs) := by
  match cs with
  | [] => rfl
  | a :: rest =>
      cases ha : kept a with
      | false =>
          obtain ⟨more, hmore⟩ := List.head?_eq_some_iff.mp (head?_encode_of_not_kept ha rest)
          rw [hmore, beginsEscape_of_first (by decide), beginsEscape_of_first (hkept.not_digit ha)]
      | true =>
          rw [encode_cons_of_kept ha]
          match rest with
          | [] => rfl
          | b :: rest =>
              cases hb : kept b with
              | false =>
                  obtain ⟨more, hmore⟩ :=
                    List.head?_eq_some_iff.mp (head?_encode_of_not_kept hb rest)
                  rw [hmore, beginsEscape_of_second (by decide),
                    beginsEscape_of_second (hkept.not_digit hb)]
              | true =>
                  rw [encode_cons_of_kept hb]
                  rfl

theorem KeepsEscapes.decodeBytes_encode (hkept : KeepsEscapes kept) (cs : List Char) :
    decodeBytes (encode kept cs) = decodeBytes cs := by
  induction cs using escape_induction with
  | nil => rfl
  | escape a b rest ha hb ih =>
      rw [encode_cons_of_kept hkept.percent, encode_cons_of_kept (hkept.digit a ha),
        encode_cons_of_kept (hkept.digit b hb), decodeBytes_escape ha hb, ih,
        decodeBytes_escape ha hb]
  | char c rest h ih =>
      cases hc : kept c with
      | false =>
          rw [encode_cons_of_not_kept hc, decodeBytes_flatMap_encodeByte, ih, decodeBytes_cons h]
      | true =>
          have hencoded := (hkept.beginsEscape_encode c rest).trans h
          rw [encode_cons_of_kept hc, decodeBytes_cons hencoded, ih, decodeBytes_cons h]

/-- A text is read back from the encoded form of a part of it only if the part is all of it. -/
theorem KeepsEscapes.decode?_encode_iff (hkept : KeepsEscapes kept) {cs ds : List Char}
    (h : cs.Sublist ds) : decode? (encode kept cs) = some ds ↔ cs = ds ∧ hasEscape ds = false := by
  rw [decode?_eq_some_iff, hkept.decodeBytes_encode]
  constructor
  · intro hbytes
    have hlength := length_bytes_le h
    rcases decodeBytes_or cs with ⟨hnone, hcs⟩ | ⟨-, hless⟩
    · have hbytes := congrArg List.length (hbytes.symm.trans hcs)
      have hall : cs = ds := eq_of_length_bytes h (Nat.le_of_eq hbytes)
      exact ⟨hall, hall ▸ hnone⟩
    · rw [hbytes] at hless
      omega
  · rintro ⟨rfl, hnone⟩
    rcases decodeBytes_or cs with ⟨-, hcs⟩ | ⟨hsome, -⟩
    · exact hcs
    · rw [hnone] at hsome
      cases hsome

end SearchClient.Url
