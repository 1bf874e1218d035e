import SearchClient.Proofs.Time.Calendar
import SearchClient.Time.Instant

/-!
# The text of an instant, read back

Every part of the text is a number of fixed width with a mark behind it, so
that the reader finds the parts where the writer left them.  Of the
nanoseconds the text keeps the whole milliseconds, which for an instant before
1970, too, is the last whole millisecond up to it.
-/

namespace SearchClient.Time.Instant

open Decimal

theorem isDigit_of_mem_padded {width n : Nat} {c : Char} (h : c ∈ padded width n) :
    c.isDigit := by
  rw [padded, List.mem_append] at h
  rcases h with h | h
  · obtain ⟨-, rfl⟩ := List.mem_replicate.mp h
    rfl
  · exact Nat.isDigit_of_mem_toDigits (by decide) (by decide) h

theorem length_padded {width n : Nat} (hw : 0 < width) (hn : n < 10 ^ width) :
    (padded width n).length = width := by
  have hlength : (Nat.toDigits 10 n).length ≤ width :=
    (Nat.length_toDigits_le_iff (by decide) hw).mpr hn
  rw [padded, List.length_append, List.length_replicate]
  omega

theorem digitsValue_padded (width n : Nat) : digitsValue (padded width n) = n := by
  change Nat.ofDigitChars 10 (padded width n) 0 = n
  rw [padded, Nat.ofDigitChars_append, Nat.ofDigitChars_replicate_zero, Nat.mul_zero,
    Nat.ofDigitChars_ten_toDigits]

section Taking

variable {width n : Nat} (rest : List Char)

theorem takeNumber_padded (hw : 0 < width) (hn : n < 10 ^ width) :
    takeNumber width (padded width n ++ rest) = some (n, rest) := by
  have hlength := length_padded hw hn
  rw [takeNumber, List.take_left' hlength, List.drop_left' hlength, digitsValue_padded, if_pos]
  exact ⟨hlength, List.all_eq_true.mpr fun c hc => isDigit_of_mem_padded hc⟩

theorem takeChar_cons (c : Char) : takeChar c (c :: rest) = some rest := by
  rw [takeChar, if_pos rfl]

theorem takeSeparator_cons : takeSeparator ('T' :: rest) = some rest := by
  rw [takeSeparator, if_pos (.inl rfl)]

theorem takeOffset_cons : takeOffset ('Z' :: rest) = some (0, rest) := by
  rw [takeOffset, if_pos (.inl rfl)]

theorem takeFraction_padded {ms : Nat} (hms : ms < 1000) :
    takeFraction ('.' :: (padded 3 ms ++ ['Z'])) = some (ms * 1000000, ['Z']) := by
  have hlength : (padded 3 ms).length = 3 := length_padded (by decide) hms
  have hall : ∀ c ∈ padded 3 ms, c.isDigit = true := fun c hc => isDigit_of_mem_padded hc
  have hdigits : takeDigits (padded 3 ms ++ ['Z']) = (padded 3 ms, ['Z']) := by
    rw [takeDigits, List.takeWhile_append_of_pos hall, List.dropWhile_append_of_pos hall]
    simp
  have hsome : (padded 3 ms).isEmpty = false := by
    rw [List.isEmpty_eq_false_iff_exists_mem, ← List.length_pos_iff_exists_mem, hlength]
    decide
  simp only [takeFraction, hdigits, hsome, Bool.false_eq_true, if_false]
  rw [List.take_of_length_le (by omega), digitsValue_padded, hlength]

end Taking

/-- An instant that has a text of four digits for its year and is no leap second. -/
structure IsPlain (t : Instant) : Prop where
  year_nonneg : 0 ≤ (CivilDate.ofDays (t.seconds / secondsPerDay)).year
  year_le : (CivilDate.ofDays (t.seconds / secondsPerDay)).year ≤ 9999
  nanos_lt : t.nanos < 1000000000

theorem daysInMonth_le (year : Int) (month : Nat) : CivilDate.daysInMonth year month ≤ 31 := by
  unfold CivilDate.daysInMonth
  split
  · split <;> omega
  · split <;> omega

def parts (date : CivilDate) (ofDay ms : Nat) : List Char :=
  padded 4 date.year.toNat ++ '-' :: (padded 2 date.month ++ '-' :: (padded 2 date.day ++
    'T' :: (padded 2 (ofDay / 3600) ++ ':' :: (padded 2 (ofDay / 60 % 60) ++
      ':' :: (padded 2 (ofDay % 60) ++ '.' :: (padded 3 ms ++ ['Z']))))))

theorem chars_eq {t : Instant} (ht : t.IsPlain) :
    t.chars = parts (CivilDate.ofDays (t.seconds / secondsPerDay))
      (t.seconds % secondsPerDay).toNat (t.nanos / 1000000) := by
  obtain ⟨hyear, hyear', hnanos⟩ := ht
  have hleap : (if t.nanos ≥ 1000000000 then 1 else 0) = 0 := if_neg (by omega)
  simp only [chars, hleap, yearChars, if_pos (And.intro hyear hyear'), List.append_assoc,
    List.cons_append, Nat.zero_mul, Nat.sub_zero, Nat.add_zero, parts]

def totalNanos (t : Instant) : Int := t.seconds * 1000000000 + t.nanos

def floorMillis (t : Instant) : Instant := ⟨t.seconds, t.nanos / 1000000 * 1000000⟩

theorem totalNanos_floorMillis (t : Instant) :
    t.floorMillis.totalNanos = t.totalNanos / 1000000 * 1000000 := by
  simp only [totalNanos, floorMillis]
  omega

theorem floorMillis_eq_self {t : Instant} (h : 1000000 ∣ t.nanos) : t.floorMillis = t := by
  rw [floorMillis, Nat.div_mul_cancel h]

theorem ofText?_text {t : Instant} (ht : t.IsPlain) : ofText? t.text = some t.floorMillis := by
  obtain ⟨hmonth, hmonth', hday, hday'⟩ := CivilDate.ofDays_mem (t.seconds / secondsPerDay)
  have hdays := CivilDate.toDays_ofDays (t.seconds / secondsPerDay)
  rw [ofText?, text, String.toList_ofList, chars_eq ht]
  obtain ⟨hyear, hyear', hnanos⟩ := ht
  generalize CivilDate.ofDays (t.seconds / secondsPerDay) = date at *
  have hlength := daysInMonth_le date.year date.month
  have hnumbers : CivilDate.ofNumbers? date.year.toNat date.month date.day = some date := by
    rw [CivilDate.ofNumbers?, Int.toNat_of_nonneg hyear, if_pos ⟨hmonth, hmonth', hday, hday'⟩]
  have hseconds : t.seconds / secondsPerDay * secondsPerDay + (t.seconds % secondsPerDay).toNat =
      t.seconds ∧ (t.seconds % secondsPerDay).toNat < 86400 := by
    unfold secondsPerDay
    omega
  generalize (t.seconds % secondsPerDay).toNat = ofDay at *
  -- the parts in the order in which the reader takes them
  refine Option.bind_eq_some_iff.mpr ⟨_, takeNumber_padded _ (by decide) (by omega), ?_⟩
  refine Option.bind_eq_some_iff.mpr ⟨_, takeChar_cons _ _, ?_⟩
  refine Option.bind_eq_some_iff.mpr ⟨_, takeNumber_padded _ (by decide) (by omega), ?_⟩
  refine Option.bind_eq_some_iff.mpr ⟨_, takeChar_cons _ _, ?_⟩
  refine Option.bind_eq_some_iff.mpr ⟨_, takeNumber_padded _ (by decide) (by omega), ?_⟩
  refine Option.bind_eq_some_iff.mpr ⟨_, takeSeparator_cons _, ?_⟩
  refine Option.bind_eq_some_iff.mpr ⟨_, takeNumber_padded _ (by decide) (by omega), ?_⟩
  refine Option.bind_eq_some_iff.mpr ⟨_, takeChar_cons _ _, ?_⟩
  refine Option.bind_eq_some_iff.mpr ⟨_, takeNumber_padded _ (by decide) (by omega), ?_⟩
  refine Option.bind_eq_some_iff.mpr ⟨_, takeChar_cons _ _, ?_⟩
  refine Option.bind_eq_some_iff.mpr ⟨_, takeNumber_padded _ (by decide) (by omega), ?_⟩
  refine Option.bind_eq_some_iff.mpr ⟨_, takeFraction_padded (by omega), ?_⟩
  refine Option.bind_eq_some_iff.mpr ⟨_, takeOffset_cons _, ?_⟩
  refine Option.bind_eq_some_iff.mpr ⟨_, hnumbers, ?_⟩
  have hsecond : (if ofDay % 60 = 60 then 1 else 0) = 0 := if_neg (by omega)
  dsimp only
  rw [if_pos ⟨rfl, by omega, by omega, by omega⟩, hsecond, hdays, Option.some_inj,
    floorMillis, Instant.mk.injEq]
  constructor <;> omega

end SearchClient.Time.Instant
