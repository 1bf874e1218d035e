import SearchClient.Text.Basic

/-!
# Parts between separators

Cutting a text at separators and putting the parts together again are inverse
to each other, since no part has a separator in it.
-/

namespace SearchClient.Text

variable {isSeparator : Char → Bool}

theorem splitOn_eq_splitOnP (cs : List Char) :
    splitOn isSeparator cs = cs.splitOnP isSeparator := by
  induction cs with
  | nil => rfl
  | cons c rest ih =>
      rw [splitOn, List.splitOnP_cons_eq_if_modifyHead, ← ih]
      split
      · rfl
      · have hparts : splitOn isSeparator rest ≠ [] := ih ▸ List.splitOnP_ne_nil _ _
        cases h : splitOn isSeparator rest with
        | nil => exact absurd h hparts
        | cons part parts => rfl

theorem splitOn_ne_nil (cs : List Char) : splitOn isSeparator cs ≠ [] := by
  rw [splitOn_eq_splitOnP]
  exact List.splitOnP_ne_nil _ _

theorem of_mem_splitOn {cs part : List Char} (h : part ∈ splitOn isSeparator cs) {c : Char}
    (hc : c ∈ part) : c ∈ cs ∧ isSeparator c = false := by
  induction cs generalizing part with
  | nil =>
      obtain rfl : part = [] := by simpa [splitOn] using h
      cases hc
  | cons d rest ih =>
      rw [splitOn] at h
      by_cases hd : isSeparator d = true
      · rw [if_pos hd] at h
        rcases List.mem_cons.mp h with rfl | h
        · cases hc
        · exact (ih h hc).imp (List.mem_cons_of_mem _) id
      · rw [if_neg hd] at h
        cases hparts : splitOn isSeparator rest with
        | nil => exact absurd hparts (splitOn_ne_nil rest)
        | cons first parts =>
            rw [hparts] at h
            rcases List.mem_cons.mp h with rfl | h
            · rcases List.mem_cons.mp hc with rfl | hc
              · exact ⟨List.mem_cons_self, by simpa using hd⟩
              · exact (ih (hparts ▸ List.mem_cons_self) hc).imp (List.mem_cons_of_mem _) id
            · exact (ih (hparts ▸ List.mem_cons_of_mem _ h) hc).imp (List.mem_cons_of_mem _) id

section Mark

variable {mark : Char}

theorem splitOn_mark (cs : List Char) : splitOn (· = mark) cs = cs.splitOn mark := by
  rw [splitOn_eq_splitOnP, List.splitOn_eq_splitOnP]
  rfl

theorem intercalate_splitOn (cs : List Char) : [mark].intercalate (splitOn (· = mark) cs) = cs := by
  rw [splitOn_mark]
  exact List.intercalate_splitOn mark

theorem splitOn_intercalate {parts : List (List Char)} (h : ∀ part ∈ parts, mark ∉ part)
    (hparts : parts ≠ []) : splitOn (· = mark) ([mark].intercalate parts) = parts := by
  rw [splitOn_mark]
  exact List.splitOn_intercalate mark h hparts

theorem takeWhile_ne_append {front rest : List Char} (hfront : mark ∉ front)
    (hrest : ∀ c ∈ rest.head?, c = mark) : (front ++ rest).takeWhile (· ≠ mark) = front := by
  have hall : ∀ c ∈ front, decide (c ≠ mark) = true := by
    intro c hc
    exact decide_eq_true fun h => hfront (h ▸ hc)
  rw [List.takeWhile_append_of_pos hall]
  cases rest with
  | nil => simp
  | cons c rest => simp [hrest c rfl]

theorem dropWhile_ne_append {front rest : List Char} (hfront : mark ∉ front)
    (hrest : ∀ c ∈ rest.head?, c = mark) : (front ++ rest).dropWhile (· ≠ mark) = rest := by
  have htake := List.takeWhile_append_dropWhile (p := (· ≠ mark)) (l := front ++ rest)
  rw [takeWhile_ne_append hfront hrest] at htake
  exact List.append_cancel_left htake

theorem not_mem_takeWhile_ne (cs : List Char) : mark ∉ cs.takeWhile (· ≠ mark) := by
  intro h
  simpa using List.all_eq_true.mp List.all_takeWhile mark h

theorem head?_dropWhile_ne (cs : List Char) : ∀ c ∈ (cs.dropWhile (· ≠ mark)).head?, c = mark := by
  intro c hc
  have hhead := List.head?_dropWhile_not (· ≠ mark) cs
  rw [Option.mem_def.mp hc] at hhead
  simpa using hhead

end Mark

end SearchClient.Text
