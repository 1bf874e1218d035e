import SearchClient.Proofs.Url.Segments

/-!
# Authorities as they are written

What ends an authority, and what is dropped from an address when it is read, is
forbidden in a domain and encoded in a name and a password.  So the text of an
authority that was read has none of it.
-/

namespace SearchClient.Url

open Text

/-- A character that ends no part of an address before the fragment and is never dropped. -/
def isFirm (c : Char) : Bool := 32 < c.toNat && !isSlash true c && c ≠ '?' && c ≠ '#'

def Firm (cs : List Char) : Prop := ∀ c ∈ cs, isFirm c = true

theorem firm_append {xs ys : List Char} : Firm (xs ++ ys) ↔ Firm xs ∧ Firm ys :=
  List.forall_mem_append

theorem firm_cons {c : Char} {cs : List Char} : Firm (c :: cs) ↔ isFirm c = true ∧ Firm cs :=
  List.forall_mem_cons

theorem firm_nil : Firm [] := by
  simp [Firm]

theorem firm_intercalate {mark : Char} {parts : List (List Char)} (hmark : isFirm mark = true)
    (hparts : ∀ part ∈ parts, Firm part) : Firm ([mark].intercalate parts) := by
  induction parts with
  | nil => exact firm_nil
  | cons part parts ih =>
      have hrest := ih fun other hother => hparts other (List.mem_cons_of_mem _ hother)
      have hpart := hparts part List.mem_cons_self
      cases parts with
      | nil =>
          rw [List.intercalate_singleton]
          exact hpart
      | cons next parts =>
          rw [List.intercalate_cons_cons, firm_append, firm_append]
          exact ⟨⟨hpart, firm_cons.mpr ⟨hmark, firm_nil⟩⟩, hrest⟩

theorem isFirm_digitChar : ∀ n < 16, isFirm (Nat.digitChar n) = true := by
  decide

theorem firm_toDigits {base : Nat} (hbase : 1 < base) (hle : base ≤ 16) (n : Nat) :
    Firm (Nat.toDigits base n) := by
  induction n using Nat.strongRecOn with
  | _ n ih =>
      rw [Nat.toDigits_eq_if hbase]
      split
      · exact firm_cons.mpr ⟨isFirm_digitChar n (by omega), firm_nil⟩
      · have hmod := Nat.mod_lt n (Nat.zero_lt_of_lt hbase)
        refine firm_append.mpr ⟨ih _ (Nat.div_lt_self (by omega) hbase), ?_⟩
        exact firm_cons.mpr ⟨isFirm_digitChar _ (by omega), firm_nil⟩

theorem firm_toString (n : Nat) : Firm (toString n).toList := by
  rw [Nat.toString_eq_repr, Nat.toList_repr]
  exact firm_toDigits (by decide) (by decide) n

theorem isFirm_of_not_ascii {c : Char} (h : 128 ≤ c.toNat) : isFirm c = true := by
  have hne (d : Char) (hd : d.toNat < 128) : c ≠ d := by
    rintro rfl
    omega
  simp [isFirm, isSlash, hne '/' (by decide), hne '\\' (by decide), hne '?' (by decide),
    hne '#' (by decide)]
  omega

theorem isFirm_of_not_isForbidden {c : Char} (h : Host.isForbidden c = false) :
    isFirm c = true := by
  by_cases hc : c.toNat < 128
  · exact forall_ascii (P := fun c => Host.isForbidden c = false → isFirm c = true)
      (by decide +kernel) hc h
  · exact isFirm_of_not_ascii (Nat.le_of_not_lt hc)

theorem ascii_of_isPrintable {c : Char} (h : isPrintable c = true) : c.toNat < 128 := by
  simp only [isPrintable, Bool.and_eq_true, decide_eq_true_eq] at h
  omega

theorem isFirm_of_keptInPath {c : Char} (h : keptInPath c = true)
    (hslash : isSlash true c = false) : isFirm c = true := by
  have hc : isPrintable c = true := by
    simp only [keptInPath, keptInFragment, Bool.and_eq_true] at h
    exact h.1.1
  exact forall_ascii (P := fun c => keptInPath c = true → isSlash true c = false → isFirm c = true)
    (by decide +kernel) (ascii_of_isPrintable hc) h hslash

theorem firm_encode_userinfo (cs : List Char) : Firm (encode keptInUserinfo cs) := by
  intro c hc
  have hkept := keepsEscapes_keptInUserinfo.kept_of_mem_encode hc
  simp only [keptInUserinfo, Bool.and_eq_true] at hkept
  refine isFirm_of_keptInPath hkept.1 ?_
  have hothers := hkept.2
  simp [isSlash] at hothers ⊢
  exact ⟨hothers.1, hothers.2.2.2.2.2.2.1⟩

namespace Host

theorem firm_ipv4Text (address : Nat) : Firm (ipv4Text address) := by
  simp only [ipv4Text, String.toList_intercalate]
  refine firm_intercalate (by decide) ?_
  simp only [List.map_cons, List.map_nil, List.forall_mem_cons]
  exact ⟨firm_toString _, firm_toString _, firm_toString _, firm_toString _, by simp⟩

theorem ipv4Text_ne_nil (address : Nat) : ipv4Text address ≠ [] := by
  simp [ipv4Text]

theorem firm_groupsText (groups : List Nat) : Firm (groupsText groups) := by
  rw [groupsText, String.toList_intercalate, List.map_map]
  refine firm_intercalate (by decide) fun part hpart => ?_
  obtain ⟨g, -, rfl⟩ := List.mem_map.mp hpart
  rw [Function.comp_apply, String.toList_ofList]
  exact firm_toDigits (by decide) (by decide) g

theorem firm_ipv6Text (groups : List Nat) : Firm (ipv6Text groups) := by
  have hgap (front after : List Nat) :
      Firm (groupsText front ++ ':' :: ':' :: groupsText after) := by
    rw [firm_append, firm_cons, firm_cons]
    exact ⟨firm_groupsText front, by decide, by decide, firm_groupsText after⟩
  unfold ipv6Text
  split
  split
  · exact firm_groupsText groups
  · exact hgap _ _

theorem firm_chars_ipv6 (groups : List Nat) : Firm (ipv6 groups).chars := by
  rw [chars, List.cons_append, firm_cons, firm_append, firm_cons]
  exact ⟨by decide, firm_ipv6Text groups, by decide, firm_nil⟩

theorem firm_of_bracketed? {cs : List Char} {host : Host} (h : bracketed? cs = some host) :
    Firm host.chars ∧ host.chars ≠ [] := by
  unfold bracketed? at h
  split at h
  · obtain ⟨groups, -, rfl⟩ := Option.map_eq_some_iff.mp h
    exact ⟨firm_chars_ipv6 groups, List.cons_ne_nil _ _⟩
  · cases h

theorem firm_of_domain? {cs : List Char} {host : Host} (h : domain? cs = some host) :
    Firm host.chars ∧ host.chars ≠ [] := by
  unfold domain? at h
  split at h
  · exact firm_of_bracketed? h
  · obtain ⟨decoded, -, h⟩ := Option.bind_eq_some_iff.mp h
    obtain ⟨lower, -, h⟩ := Option.bind_eq_some_iff.mp h
    split at h
    · cases h
    · rename_i hproper
      simp only [Bool.or_eq_true, not_or, Bool.not_eq_true, List.any_eq_false] at hproper
      obtain ⟨hempty, hall⟩ := hproper
      split at h
      · obtain ⟨address, -, rfl⟩ := Option.map_eq_some_iff.mp h
        exact ⟨firm_ipv4Text address, ipv4Text_ne_nil address⟩
      · obtain rfl := Option.some.inj h
        rw [chars, String.toList_ofList]
        exact ⟨fun c hc => isFirm_of_not_isForbidden (hall c hc), by simpa using hempty⟩

end Host

theorem authority?_parts {scheme : String} {isLast : Bool} {cs rest : List Char} {a : Authority}
    (h : authority? scheme isLast cs = some (a, rest)) :
    ∃ name password hostText, a.username = String.ofList (encode keptInUserinfo name) ∧
      a.password = String.ofList (encode keptInUserinfo password) ∧
      host? scheme hostText = some a.host := by
  unfold authority? at h
  simp only [] at h
  split at h
  · cases h
  · split at h
    · obtain ⟨port, -, h⟩ := Option.bind_eq_some_iff.mp h
      obtain ⟨host, hhost, h⟩ := Option.bind_eq_some_iff.mp h
      cases h
      exact ⟨_, _, _, rfl, rfl, hhost⟩
    · obtain ⟨port, -, h⟩ := Option.bind_eq_some_iff.mp h
      obtain ⟨host, hhost, h⟩ := Option.bind_eq_some_iff.mp h
      cases h
      exact ⟨_, _, _, rfl, rfl, hhost⟩

theorem Authority.firm_userinfoChars {a : Authority} (hname : Firm a.username.toList)
    (hpassword : Firm a.password.toList) : Firm a.userinfoChars := by
  unfold userinfoChars
  split
  · exact firm_nil
  · split
    · exact firm_append.mpr ⟨hname, firm_cons.mpr ⟨by decide, firm_nil⟩⟩
    · rw [firm_append, firm_append, firm_cons, firm_cons]
      exact ⟨⟨hname, by decide, hpassword⟩, by decide, firm_nil⟩

theorem Authority.firm_portChars (a : Authority) : Firm a.portChars := by
  unfold portChars
  split
  · exact firm_cons.mpr ⟨by decide, firm_toString _⟩
  · exact firm_nil

theorem firm_of_authority? {scheme : String} (hscheme : isSpecial scheme = true) {isLast : Bool}
    {cs rest : List Char} {a : Authority} (h : authority? scheme isLast cs = some (a, rest)) :
    Firm a.chars ∧ a.chars ≠ [] := by
  obtain ⟨name, password, hostText, hname, hpassword, hhost⟩ := authority?_parts h
  rw [host?, if_pos hscheme] at hhost
  obtain ⟨hfirm, hne⟩ := Host.firm_of_domain? hhost
  have huserinfo : Firm a.userinfoChars := by
    refine Authority.firm_userinfoChars ?_ ?_
    · rw [hname, String.toList_ofList]
      exact firm_encode_userinfo name
    · rw [hpassword, String.toList_ofList]
      exact firm_encode_userinfo password
  refine ⟨firm_append.mpr ⟨firm_append.mpr ⟨huserinfo, hfirm⟩, a.firm_portChars⟩, fun hempty => ?_⟩
  exact hne (List.append_eq_nil_iff.mp (List.append_eq_nil_iff.mp hempty).1).2

end SearchClient.Url
