import Mathlib.Data.Char
import Mathlib.Data.List.Basic
import SearchClient.Json.Text

/-!
# Documents on one line

Control characters lie below the space, and a string is written with all of
them escaped.  So no text of a document has one, and a line feed behind a
document ends it.
-/

namespace SearchClient

def Printed (cs : List Char) : Prop := ∀ c ∈ cs, 32 ≤ c.toNat

@[simp] theorem printed_nil : Printed [] := by simp [Printed]

@[simp] theorem printed_cons {c : Char} {cs : List Char} :
    Printed (c :: cs) ↔ 32 ≤ c.toNat ∧ Printed cs := by
  simp [Printed]

@[simp] theorem printed_append {cs ds : List Char} :
    Printed (cs ++ ds) ↔ Printed cs ∧ Printed ds := by
  simp [Printed, or_imp, forall_and]

theorem Printed.of_subset {cs ds : List Char} (h : Printed ds) (hsub : cs ⊆ ds) : Printed cs :=
  fun c hc => h c (hsub hc)

theorem printed_replicate_zero (n : Nat) : Printed (List.replicate n '0') := by
  intro c hc
  rw [List.eq_of_mem_replicate hc]
  decide

theorem printed_toDigits (n : Nat) : Printed (Nat.toDigits 10 n) := by
  intro c hc
  have hdigit := Nat.isDigit_of_mem_toDigits (by decide) (Nat.le_refl 10) hc
  simp only [Char.isDigit, Bool.and_eq_true, decide_eq_true_eq] at hdigit
  have hzero : '0'.toNat ≤ c.toNat := hdigit.1
  exact Nat.le_trans (by decide) hzero

theorem printed_int (n : Int) : Printed (toString n).toList := by
  change Printed (Int.repr n).toList
  rw [Int.repr_eq_if]
  split
  · rw [Nat.toList_repr]
    exact printed_toDigits _
  · rw [String.toList_append, Nat.toList_repr, printed_append]
    exact ⟨by simp, printed_toDigits _⟩

namespace Decimal

variable {digits : List Char}

theorem printed_positional (h : Printed digits) (lead : Int) :
    Printed (positional digits lead) := by
  unfold positional
  split
  · rw [printed_append, printed_append]
    exact ⟨⟨by simp, printed_replicate_zero _⟩, h⟩
  · let whole := lead.toNat + 1
    let padded := digits ++ List.replicate (whole - digits.length) '0'
    have hpadded : Printed padded := printed_append.mpr ⟨h, printed_replicate_zero _⟩
    have hfraction : Printed (padded.drop whole) := hpadded.of_subset (List.drop_subset _ _)
    rw [printed_append, printed_cons]
    refine ⟨hpadded.of_subset (List.take_subset _ _), by decide, ?_⟩
    split
    · simp
    · exact hfraction

theorem printed_scientific (h : Printed digits) (lead : Int) :
    Printed (scientific digits lead) := by
  unfold scientific
  rw [printed_append, printed_cons, printed_cons]
  refine ⟨?_, by decide, by split <;> decide, printed_toDigits _⟩
  split
  · simpa using h
  · exact h

theorem printed_chars (layout : Layout) (x : Float) : Printed (layout.chars x) := by
  unfold Layout.chars
  have hsign : Printed (if (Binary.ofFloat x).negative then ['-'] else []) := by
    split <;> simp
  dsimp only
  split
  · exact printed_append.mpr ⟨hsign, by simp⟩
  · refine printed_append.mpr ⟨hsign, ?_⟩
    split
    · exact printed_positional (printed_toDigits _) _
    · exact printed_scientific (printed_toDigits _) _

end Decimal

namespace Json

theorem printed_hexDigit : ∀ n < 16, 32 ≤ (Text.hexDigit n).toNat := by decide

theorem printed_escapeChar (c : Char) : Printed (escapeChar c) := by
  unfold escapeChar
  repeat' split
  all_goals try simp
  -- What is left is a control character in hexadecimal, and a character that is none.
  · rename_i hcontrol
    exact ⟨printed_hexDigit _ (by omega), printed_hexDigit _ (Nat.mod_lt _ (by decide))⟩
  · omega

theorem printed_quoted (s : String) : Printed (quoted s) := by
  have hbody : Printed (s.toList.flatMap escapeChar) := by
    intro c hc
    obtain ⟨c', -, hc⟩ := List.mem_flatMap.mp hc
    exact printed_escapeChar c' c hc
  simpa [quoted] using hbody

mutual

theorem printed_document : ∀ j : Json, Printed j.chars
  | .null => by simp [chars]
  | .bool true => by simp [chars]
  | .bool false => by simp [chars]
  | .int n => printed_int n
  | .float x => by
      rw [chars]
      split
      · exact Decimal.printed_chars floatLayout x
      · simp
  | .string s => printed_quoted s
  | .array [] => by simp [chars]
  | .array (x :: xs) => by simp [chars, printed_document x, printed_items xs]
  | .object [] => by simp [chars]
  | .object ((name, x) :: rest) => by
      simp [chars, printed_quoted name, printed_document x, printed_fields rest]

theorem printed_items : ∀ xs : List Json, Printed (itemChars xs)
  | [] => by simp [itemChars]
  | x :: xs => by simp [itemChars, printed_document x, printed_items xs]

theorem printed_fields : ∀ fields : List (String × Json), Printed (fieldChars fields)
  | [] => by simp [fieldChars]
  | (name, x) :: rest => by
      simp [fieldChars, printed_quoted name, printed_document x, printed_fields rest]

end

theorem newline_not_mem_text (j : Json) : '\n' ∉ j.text.toList := by
  intro h
  rw [text, String.toList_ofList] at h
  exact absurd (printed_document j _ h) (by decide)

end Json

end SearchClient
