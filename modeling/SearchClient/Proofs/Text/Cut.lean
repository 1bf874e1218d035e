import Mathlib.Data.List.DropRight
import SearchClient.Proofs.Text.Split

/-!
# Texts in front of others

Cutting, splitting and trimming a text that begins with a part without marks
comes to doing the same to the rest of it.
-/

namespace SearchClient.Text

variable {mark : Char} {drop isSeparator : Char → Bool} {front : List Char}

theorem cutAt_append (h : mark ∉ front) (rest : List Char) :
    cutAt mark (front ++ rest) = (front ++ (cutAt mark rest).1, (cutAt mark rest).2) := by
  induction front with
  | nil => rfl
  | cons c front ih =>
      have hc : c ≠ mark := fun heq => h (heq ▸ List.mem_cons_self)
      rw [List.cons_append, cutAt, if_neg hc, ih fun hmem => h (List.mem_cons_of_mem _ hmem)]
      rfl

theorem cutAt_of_not_mem {cs : List Char} (h : mark ∉ cs) : cutAt mark cs = (cs, none) := by
  simpa [cutAt] using cutAt_append h []

theorem not_mem_of_cutAt {cs : List Char} (h : (cutAt mark cs).2 = none) : mark ∉ cs := by
  induction cs with
  | nil => exact List.not_mem_nil
  | cons c rest ih =>
      rw [cutAt] at h
      split at h
      · cases h
      · exact fun hmem => (List.mem_cons.mp hmem).elim (fun heq => ‹¬ c = mark› heq.symm) (ih h)

theorem splitOn_append_separator {c : Char} (h : ∀ d ∈ front, isSeparator d = false)
    (hc : isSeparator c = true) (rest : List Char) :
    splitOn isSeparator (front ++ c :: rest) = front :: splitOn isSeparator rest := by
  induction front with
  | nil => rw [List.nil_append, splitOn, if_pos hc]
  | cons d front ih =>
      rw [List.cons_append, splitOn, ih fun e he => h e (List.mem_cons_of_mem _ he),
        if_neg (by simp [h d List.mem_cons_self])]

theorem splitOn_of_forall (h : ∀ d ∈ front, isSeparator d = false) :
    splitOn isSeparator front = [front] := by
  induction front with
  | nil => rfl
  | cons d front ih =>
      rw [splitOn, ih fun e he => h e (List.mem_cons_of_mem _ he),
        if_neg (by simp [h d List.mem_cons_self])]

theorem sublist_of_mem_splitOn {cs part : List Char} (h : part ∈ splitOn isSeparator cs) :
    part.Sublist cs := by
  induction cs generalizing part with
  | nil => exact (List.mem_singleton.mp h) ▸ List.Sublist.refl []
  | cons c rest ih =>
      rw [splitOn] at h
      split at h
      · rcases List.mem_cons.mp h with rfl | h
        · exact List.nil_sublist _
        · exact (ih h).cons c
      · cases hparts : splitOn isSeparator rest with
        | nil => exact absurd hparts (splitOn_ne_nil rest)
        | cons first parts =>
            rw [hparts] at h ih
            rcases List.mem_cons.mp h with rfl | h
            · exact (ih List.mem_cons_self).cons_cons c
            · exact (ih (List.mem_cons_of_mem _ h)).cons c

theorem trimStart_of_head {c : Char} (h : drop c = false) (rest : List Char) :
    trimStart drop (c :: rest) = c :: rest :=
  List.dropWhile_cons_of_neg (by simp [h])

theorem trimEnd_sublist (drop : Char → Bool) (cs : List Char) : (trimEnd drop cs).Sublist cs := by
  have hprefix : trimEnd drop cs <+: cs := List.rdropWhile_prefix drop cs
  exact hprefix.sublist

theorem trimEnd_concat_neg {c : Char} (h : drop c = false) (front : List Char) :
    trimEnd drop (front ++ [c]) = front ++ [c] :=
  List.rdropWhile_concat_neg _ _ _ (by simp [h])

theorem trimEnd_concat_pos {c : Char} (h : drop c = true) (front : List Char) :
    trimEnd drop (front ++ [c]) = trimEnd drop front :=
  List.rdropWhile_concat_pos _ _ _ h

theorem trimEnd_append_cons {c : Char} (h : drop c = false) (rest : List Char) :
    trimEnd drop (front ++ c :: rest) = front ++ c :: trimEnd drop rest := by
  induction rest using List.reverseRecOn with
  | nil => exact trimEnd_concat_neg h front
  | append_singleton rest d ih =>
      rw [← List.cons_append, ← List.append_assoc]
      cases hd : drop d with
      | false =>
          rw [trimEnd_concat_neg hd, trimEnd_concat_neg hd, List.append_assoc, List.cons_append]
      | true => rw [trimEnd_concat_pos hd, trimEnd_concat_pos hd, ih]

theorem trimEnd_eq_self_iff {cs : List Char} :
    trimEnd drop cs = cs ↔ ∀ c ∈ cs.getLast?, drop c = false := by
  induction cs using List.reverseRecOn with
  | nil => simp [trimEnd]
  | append_singleton cs c =>
      rw [List.getLast?_concat]
      cases hc : drop c with
      | false => simp [trimEnd_concat_neg hc, hc]
      | true =>
          have hless := (trimEnd_sublist drop cs).length_le
          rw [trimEnd_concat_pos hc]
          refine iff_of_false (fun heq => ?_) (by simp [hc])
          have hlength := congrArg List.length heq
          rw [List.length_append, List.length_singleton] at hlength
          omega

end SearchClient.Text
