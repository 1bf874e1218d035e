import Mathlib.Algebra.Group.Nat.Defs
import SearchClient.Engine.Version
import SearchClient.Proofs.Outcome
import SearchClient.Proofs.Text.Split

/-!
# The text of a version

A text is read as a version exactly when it has the form of one, and what is
written for a version is such a text.  A colon always ends the name of a
distribution, a hyphen the release number, and of the components of the
release the first three count.
-/

namespace SearchClient.Version

open Decimal Text

structure Digits (n : Nat) (cs : List Char) : Prop where
  nonempty : cs ≠ []
  digits : ∀ c ∈ cs, c.isDigit = true
  value : Nat.ofDigitChars 10 cs 0 = n
  fits : n < 2 ^ 32

inductive Component (n : Nat) : List Char → Prop where
  | unsigned {cs : List Char} (h : Digits n cs) : Component n cs
  | signed {cs : List Char} (h : Digits n cs) : Component n ('+' :: cs)

def ComponentAt (parts : List (List Char)) (place n : Nat) : Prop :=
  (parts[place]? = none ∧ n = 0) ∨ ∃ part, parts[place]? = some part ∧ Component n part

/-- Components parted by points, and behind a hyphen anything. -/
def NumberText (number : String) (major minor patch : Nat) : Prop :=
  ∃ (release suffix : List Char) (parts : List (List Char)),
    number.toList = release ++ suffix ∧ '-' ∉ release ∧ (∀ c ∈ suffix.head?, c = '-') ∧
    release = ['.'].intercalate parts ∧ parts ≠ [] ∧ (∀ part ∈ parts, '.' ∉ part) ∧
    ComponentAt parts 0 major ∧ ComponentAt parts 1 minor ∧ ComponentAt parts 2 patch

/-- The number in the text of a version, and the distribution named before it. -/
inductive Headed : String → Distribution → String → Prop where
  | unnamed {number : String} (h : ':' ∉ number.toList) : Headed number .elasticsearch number
  | elasticsearch (number : String) : Headed ("elasticsearch:" ++ number) .elasticsearch number
  | openSearch (number : String) : Headed ("opensearch:" ++ number) .openSearch number

theorem digits_iff {n : Nat} {cs : List Char} :
    Digits n cs ↔
      (if cs.isEmpty || !cs.all Char.isDigit then none
        else if digitsValue cs < pow2 32 then some (digitsValue cs) else none) = some n := by
  constructor
  · rintro ⟨hne, hdigits, hvalue, hfits⟩
    have hall : cs.all Char.isDigit = true := List.all_eq_true.mpr hdigits
    have hvalue : digitsValue cs = n := hvalue
    have hempty : cs.isEmpty = false := by simpa using hne
    rw [hempty, hall, hvalue]
    exact if_pos hfits
  · intro h
    split at h
    · cases h
    · rename_i hform
      split at h
      · rename_i hfits
        simp only [Bool.or_eq_true, List.isEmpty_iff, Bool.not_eq_true', not_or,
          Bool.not_eq_false] at hform
        obtain rfl := Option.some.inj h
        exact ⟨hform.1, List.all_eq_true.mp hform.2, rfl, hfits⟩
      · cases h

theorem component?_eq_some_iff {n : Nat} {cs : List Char} :
    component? cs = some n ↔ Component n cs := by
  have hplus (rest : List Char) : ¬ Digits n ('+' :: rest) := fun h =>
    absurd (h.digits '+' List.mem_cons_self) (by decide)
  unfold component?
  split
  · rename_i rest
    rw [← digits_iff]
    refine ⟨.signed, fun h => ?_⟩
    cases h with
    | unsigned h => exact absurd h (hplus rest)
    | signed h => exact h
  · rename_i hunsigned
    rw [← digits_iff]
    refine ⟨.unsigned, fun h => ?_⟩
    cases h with
    | unsigned h => exact h
    | signed h => exact absurd rfl (hunsigned _)

theorem componentAt_eq_ok_iff {number : String} {parts : List (List Char)} {place n : Nat} :
    componentAt number parts place = .ok n ↔ ComponentAt parts place n := by
  unfold componentAt ComponentAt
  cases parts[place]? with
  | none => simp [eq_comm]
  | some part =>
      simp only [← component?_eq_some_iff]
      cases hn : component? part <;> simp [hn]

theorem componentAt_outcome (number : String) (parts : List (List Char)) (place : Nat) :
    Outcome (ComponentAt parts place) (· = .invalidVersion number)
      (componentAt number parts place) := by
  cases h : componentAt number parts place with
  | ok n => exact componentAt_eq_ok_iff.mp h
  | error e =>
      unfold componentAt at h
      cases hpart : parts[place]? with
      | none => simp [hpart] at h
      | some part => cases hn : component? part <;> simp_all

theorem numberText_iff {number : String} {major minor patch : Nat} :
    NumberText number major minor patch ↔
      let parts := splitOn (· = '.') (number.toList.takeWhile (· ≠ '-'))
      ComponentAt parts 0 major ∧ ComponentAt parts 1 minor ∧ ComponentAt parts 2 patch := by
  constructor
  · rintro ⟨release, suffix, parts, hnumber, hrelease, hsuffix, hjoined, hparts, hpoints, hread⟩
    rw [hnumber, takeWhile_ne_append hrelease hsuffix, hjoined, splitOn_intercalate hpoints hparts]
    exact hread
  · intro hread
    refine ⟨number.toList.takeWhile (· ≠ '-'), number.toList.dropWhile (· ≠ '-'), _,
      List.takeWhile_append_dropWhile.symm, not_mem_takeWhile_ne _, head?_dropWhile_ne _,
      (intercalate_splitOn _).symm, splitOn_ne_nil _, fun part hpart hpoint => ?_, hread⟩
    simpa using (of_mem_splitOn hpart hpoint).2

theorem parseNumber_eq_ok_iff {d : Distribution} {number : String} {v : Version} :
    parseNumber d number = .ok v ↔
      v.distribution = d ∧ NumberText number v.major v.minor v.patch := by
  obtain ⟨distribution, major, minor, patch⟩ := v
  simp only [parseNumber, bind_eq_ok_iff, componentAt_eq_ok_iff, numberText_iff]
  constructor
  · rintro ⟨_, hmajor, _, hminor, _, hpatch, h⟩
    cases h
    exact ⟨rfl, hmajor, hminor, hpatch⟩
  · rintro ⟨rfl, hmajor, hminor, hpatch⟩
    exact ⟨major, hmajor, minor, hminor, patch, hpatch, rfl⟩

theorem parseNumber_outcome (d : Distribution) (number : String) :
    Outcome (fun _ => True) (· = .invalidVersion number) (parseNumber d number) := by
  apply (componentAt_outcome number _ 0).bind
  intro major _
  apply (componentAt_outcome number _ 1).bind
  intro minor _
  apply (componentAt_outcome number _ 2).bind
  intro patch _
  exact trivial

theorem parseNumber_eq_error_iff {d : Distribution} {number : String} {e : Error} :
    parseNumber d number = .error e ↔
      (∀ major minor patch, ¬ NumberText number major minor patch) ∧
        e = .invalidVersion number := by
  cases h : parseNumber d number with
  | ok v =>
      obtain ⟨-, hread⟩ := parseNumber_eq_ok_iff.mp h
      simp only [reduceCtorEq, false_iff, not_and]
      exact fun hnone => absurd hread (hnone _ _ _)
  | error e' =>
      have he : e' = .invalidVersion number := by
        simpa [h] using parseNumber_outcome d number
      have hnone : ∀ major minor patch, ¬ NumberText number major minor patch := by
        intro major minor patch hread
        have hok : parseNumber d number = .ok ⟨d, major, minor, patch⟩ :=
          parseNumber_eq_ok_iff.mpr ⟨rfl, hread⟩
        rw [h] at hok
        cases hok
      rw [Except.error.injEq, he, eq_comm]
      exact ⟨fun h => ⟨hnone, h⟩, fun h => h.2⟩

def NamesUnknown (s name : String) : Prop :=
  ':' ∉ name.toList ∧ name ≠ "elasticsearch" ∧ name ≠ "opensearch" ∧
    ∃ number, s = name ++ ":" ++ number

theorem parse_of_unnamed {s : String} (h : ':' ∉ s.toList) :
    parse s = parseNumber .elasticsearch s := by
  have hdrop : (s.toList ++ []).dropWhile (· ≠ ':') = [] := dropWhile_ne_append h (by simp)
  rw [List.append_nil] at hdrop
  simp only [parse, hdrop]

theorem parse_of_named {name number : String} (h : ':' ∉ name.toList) :
    parse (name ++ ":" ++ number) =
      (Distribution.ofName name >>= fun d => parseNumber d number) := by
  have hchars : (name ++ ":" ++ number).toList = name.toList ++ ':' :: number.toList := by simp
  have htake : (name.toList ++ ':' :: number.toList).takeWhile (· ≠ ':') = name.toList :=
    takeWhile_ne_append h (by simp)
  have hdrop : (name.toList ++ ':' :: number.toList).dropWhile (· ≠ ':') = ':' :: number.toList :=
    dropWhile_ne_append h (by simp)
  simp only [parse, hchars, htake, hdrop, String.ofList_toList]

theorem parse_of_headed {s number : String} {d : Distribution} (h : Headed s d number) :
    parse s = parseNumber d number := by
  cases h with
  | unnamed h => exact parse_of_unnamed h
  | elasticsearch number => exact @parse_of_named "elasticsearch" number (by decide)
  | openSearch number => exact @parse_of_named "opensearch" number (by decide)

theorem parse_of_namesUnknown {s name : String} (h : NamesUnknown s name) :
    parse s = .error (.unknownDistribution name) := by
  obtain ⟨hcolon, helastic, hopen, number, rfl⟩ := h
  rw [parse_of_named hcolon, Distribution.ofName, if_neg helastic, if_neg hopen]
  rfl

theorem headed_or_namesUnknown (s : String) :
    (∃ d number, Headed s d number) ∨ ∃ name, NamesUnknown s name := by
  by_cases hcolon : ':' ∈ s.toList
  · obtain ⟨front, rest, hchars, hfront⟩ := List.eq_append_cons_of_mem hcolon
    have hs : s = String.ofList front ++ ":" ++ String.ofList rest := by
      rw [← String.toList_inj, hchars]
      simp
    by_cases helastic : String.ofList front = "elasticsearch"
    · rw [hs, helastic]
      exact .inl ⟨_, _, .elasticsearch _⟩
    · by_cases hopen : String.ofList front = "opensearch"
      · rw [hs, hopen]
        exact .inl ⟨_, _, .openSearch _⟩
      · exact .inr ⟨_, by simpa using hfront, helastic, hopen, _, hs⟩
  · exact .inl ⟨_, _, .unnamed hcolon⟩

/-! ## Written versions -/

theorem digits_toDigits {n : Nat} (h : n < 2 ^ 32) : Digits n (Nat.toDigits 10 n) where
  nonempty := Nat.toDigits_ne_nil
  digits := fun _ hc => Nat.isDigit_of_mem_toDigits (by decide) (by decide) hc
  value := Nat.ofDigitChars_ten_toDigits
  fits := h

def numberText (major minor patch : Nat) : String :=
  toString major ++ "." ++ toString minor ++ "." ++ toString patch

theorem headed_text (v : Version) :
    Headed v.text v.distribution (numberText v.major v.minor v.patch) := by
  obtain ⟨d, major, minor, patch⟩ := v
  cases d with
  | elasticsearch =>
      have htext : text ⟨.elasticsearch, major, minor, patch⟩ =
          "elasticsearch:" ++ numberText major minor patch := by
        simp [text, numberText, Distribution.name, ← String.append_assoc]
      rw [htext]
      exact .elasticsearch _
  | openSearch =>
      have htext : text ⟨.openSearch, major, minor, patch⟩ =
          "opensearch:" ++ numberText major minor patch := by
        simp [text, numberText, Distribution.name, ← String.append_assoc]
      rw [htext]
      exact .openSearch _

theorem not_mem_toDigits {c : Char} (h : c.isDigit = false) (n : Nat) : c ∉ Nat.toDigits 10 n := by
  intro hc
  rw [Nat.isDigit_of_mem_toDigits (by decide) (by decide) hc] at h
  cases h

theorem numberText_written {major minor patch : Nat} (hmajor : major < 2 ^ 32)
    (hminor : minor < 2 ^ 32) (hpatch : patch < 2 ^ 32) :
    NumberText (numberText major minor patch) major minor patch := by
  have hchars : (numberText major minor patch).toList =
      ['.'].intercalate [Nat.toDigits 10 major, Nat.toDigits 10 minor, Nat.toDigits 10 patch] := by
    simp [numberText, List.intercalate]
  refine ⟨_, [], _, by rw [hchars, List.append_nil], ?_, by simp, rfl, by simp, ?_,
    .inr ⟨_, rfl, .unsigned (digits_toDigits hmajor)⟩,
    .inr ⟨_, rfl, .unsigned (digits_toDigits hminor)⟩,
    .inr ⟨_, rfl, .unsigned (digits_toDigits hpatch)⟩⟩
  · simp [List.intercalate, not_mem_toDigits]
  · simp [not_mem_toDigits]

/--
A text is read as a version exactly when it has the form of one, with the
components that it names.  Any other text is refused: for the name before its
first colon if no distribution has that name, and otherwise for its number.
Every version is read back from its own text.
-/
theorem parse_accepts_exactly :
    (∀ s v, parse s = .ok v ↔ ∃ number, Headed s v.distribution number ∧
      NumberText number v.major v.minor v.patch) ∧
    (∀ s e, parse s = .error e ↔
      (∃ name, NamesUnknown s name ∧ e = .unknownDistribution name) ∨
      ∃ d number, Headed s d number ∧
        (∀ major minor patch, ¬ NumberText number major minor patch) ∧
        e = .invalidVersion number) ∧
    ∀ v : Version, v.major < 2 ^ 32 → v.minor < 2 ^ 32 → v.patch < 2 ^ 32 →
      parse v.text = .ok v := by
  have hok : ∀ s v, parse s = .ok v ↔ ∃ number, Headed s v.distribution number ∧
      NumberText number v.major v.minor v.patch := by
    intro s v
    constructor
    · intro h
      rcases headed_or_namesUnknown s with ⟨d, number, hs⟩ | ⟨name, hs⟩
      · rw [parse_of_headed hs] at h
        obtain ⟨rfl, hnumber⟩ := parseNumber_eq_ok_iff.mp h
        exact ⟨number, hs, hnumber⟩
      · rw [parse_of_namesUnknown hs] at h
        cases h
    · rintro ⟨number, hs, hnumber⟩
      rw [parse_of_headed hs]
      exact parseNumber_eq_ok_iff.mpr ⟨rfl, hnumber⟩
  refine ⟨hok, fun s e => ⟨fun h => ?_, ?_⟩, fun v hmajor hminor hpatch => ?_⟩
  · rcases headed_or_namesUnknown s with ⟨d, number, hs⟩ | ⟨name, hs⟩
    · rw [parse_of_headed hs] at h
      obtain ⟨hnone, he⟩ := parseNumber_eq_error_iff.mp h
      exact .inr ⟨d, number, hs, hnone, he⟩
    · rw [parse_of_namesUnknown hs, Except.error.injEq] at h
      exact .inl ⟨name, hs, h.symm⟩
  · rintro (⟨name, hs, rfl⟩ | ⟨d, number, hs, hnone, he⟩)
    · exact parse_of_namesUnknown hs
    · rw [parse_of_headed hs]
      exact parseNumber_eq_error_iff.mpr ⟨hnone, he⟩
  · exact (hok v.text v).mpr ⟨_, headed_text v, numberText_written hmajor hminor hpatch⟩

theorem parse_accepts_exactly_greatest :
    parse (text ⟨.openSearch, 4294967295, 0, 4294967295⟩) =
        .ok ⟨.openSearch, 4294967295, 0, 4294967295⟩ ∧
      parse "elasticsearch:+07.1.2.x-y:z" = .ok ⟨.elasticsearch, 7, 1, 2⟩ := by
  obtain ⟨hok, -, htext⟩ := parse_accepts_exactly
  have hdigits {n : Nat} {c : Char} (hc : [c].all Char.isDigit = true)
      (hn : Nat.ofDigitChars 10 [c] 0 = n) (hfits : n < 2 ^ 32) : Digits n [c] :=
    ⟨by simp, by simpa using hc, hn, hfits⟩
  have hseven : Digits 7 ['0', '7'] := ⟨by simp, by simp, by decide, by decide⟩
  have hheaded : Headed "elasticsearch:+07.1.2.x-y:z" .elasticsearch "+07.1.2.x-y:z" := by
    have htext : "elasticsearch:+07.1.2.x-y:z" = "elasticsearch:" ++ "+07.1.2.x-y:z" := by decide
    rw [htext]
    exact .elasticsearch _
  refine ⟨htext _ (by decide) (by decide) (by decide), (hok _ _).mpr ⟨_, hheaded,
    "+07.1.2.x".toList, "-y:z".toList,
    ["+07".toList, "1".toList, "2".toList, "x".toList], by decide, by decide, by simp, by decide,
    by simp, by decide, ?_, ?_, ?_⟩⟩
  · exact .inr ⟨_, rfl, .signed hseven⟩
  · exact .inr ⟨_, rfl, .unsigned (hdigits (by decide) (by decide) (by decide))⟩
  · exact .inr ⟨_, rfl, .unsigned (hdigits (by decide) (by decide) (by decide))⟩

end SearchClient.Version
