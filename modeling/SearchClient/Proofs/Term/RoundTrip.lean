import SearchClient.Proofs.Decimal.Single
import SearchClient.Proofs.Time.Instant
import SearchClient.Term.Type

/-!
# Terms read back

A value that is written as a term is read back from it: words, texts and truth
values as they are, finite floats bit by bit, cases by their number, and
instants to the millisecond.
-/

namespace SearchClient.FieldType

open Json Time

/--
The values that a term holds without loss.  The number of a case is a signed
word.
-/
def Exact : (t : FieldType) → t.Value → Prop
  | keyword, _ => True
  | text, _ => True
  | integer, _ => True
  | long, _ => True
  | float, x => Decimal.Single.isFinite x = true
  | double, x => Float.isFinite x = true
  | boolean, _ => True
  | date, i => Instant.IsPlain i ∧ 1000000 ∣ Instant.nanos i
  | enum cases, c => minInt64 ≤ cases.toInt c ∧ cases.toInt c ≤ maxInt64 ∧
      cases.ofInt? (cases.toInt c) = some c

theorem int64?_int {n : Int} (h : minInt64 ≤ n) (h' : n ≤ maxInt64) :
    (Json.int n).int64? = some n := by
  rw [int64?, if_pos ⟨h, h'⟩]

theorem read?_integer (n : Int32) : integer.read? (integer.write n) = some n := by
  have hleast : -(2 ^ 31) ≤ n.toInt := n.le_toInt
  have hgreatest : n.toInt < 2 ^ 31 := n.toInt_lt
  have hword : (Json.int n.toInt).int64? = some n.toInt := by
    apply int64?_int
    · change -(2 ^ 63) ≤ n.toInt
      omega
    · change n.toInt ≤ 2 ^ 63 - 1
      omega
  change ((Json.int n.toInt).int64? >>= fun m =>
    if -(2 ^ 31 : Int) ≤ m ∧ m < (2 ^ 31 : Int) then some (Int32.ofInt m) else none) = some n
  rw [hword]
  change (if -(2 ^ 31 : Int) ≤ n.toInt ∧ n.toInt < (2 ^ 31 : Int) then some (Int32.ofInt n.toInt)
    else none) = some n
  rw [if_pos ⟨hleast, hgreatest⟩, Int32.ofInt_toInt]

theorem read?_long (n : Int64) : long.read? (long.write n) = some n := by
  have hword : (Json.int n.toInt).int64? = some n.toInt := by
    apply int64?_int
    · exact n.le_toInt
    · have := n.toInt_lt
      change n.toInt ≤ 2 ^ 63 - 1
      omega
  change (Json.int n.toInt).int64?.map Int64.ofInt = some n
  rw [hword, Option.map_some, Int64.ofInt_toInt]

theorem double?_ofFloat {x : Float} (h : x.isFinite = true) :
    (Json.ofFloat x).double? = some x := by
  rw [Json.ofFloat, if_pos h, double?]

theorem read?_float {s : Decimal.Single} (h : s.isFinite = true) :
    float.read? (float.write s) = some s := by
  change (Json.ofFloat s.toFloat).double?.map Decimal.Single.ofFloat = some s
  rw [double?_ofFloat (Decimal.Single.isFinite_toFloat h), Option.map_some,
    Decimal.Single.ofFloat_toFloat h]

theorem read?_date {i : Instant} (h : i.IsPlain) :
    date.read? (date.write i) = some i.floorMillis := Instant.ofText?_text h

theorem read?_enum {cases : IntEnum} {c : String} (h : minInt64 ≤ cases.toInt c)
    (h' : cases.toInt c ≤ maxInt64) (hc : cases.ofInt? (cases.toInt c) = some c) :
    (enum cases).read? ((enum cases).write c) = some c := by
  change (Json.int (cases.toInt c)).int64? >>= cases.ofInt? = some c
  rw [int64?_int h h']
  exact hc

theorem read?_write {t : FieldType} {v : t.Value} (h : t.Exact v) :
    t.read? (t.write v) = some v := by
  cases t with
  | keyword => rfl
  | text => rfl
  | integer => exact read?_integer v
  | long => exact read?_long v
  | float => exact read?_float h
  | double => exact double?_ofFloat h
  | boolean => rfl
  | date =>
      obtain ⟨hplain, hmillis⟩ := h
      exact (read?_date hplain).trans (congrArg some (Instant.floorMillis_eq_self hmillis))
  | enum cases =>
      obtain ⟨hleast, hgreatest, hcase⟩ := h
      exact read?_enum hleast hgreatest hcase

/-- Terms are read back as they were; an instant loses what is finer than a millisecond. -/
theorem terms_round_trip :
    (∀ (t : FieldType) (v : t.Value), t.Exact v → t.read? (t.write v) = some v) ∧
      ∀ i : Instant, i.IsPlain → ∃ j : Instant,
        date.read? (date.write i) = some j ∧ j.nanos < 1000000000 ∧
          j.totalNanos = i.totalNanos / 1000000 * 1000000 := by
  refine ⟨fun t v => read?_write, fun i hi => ?_⟩
  refine ⟨i.floorMillis, read?_date hi, ?_, i.totalNanos_floorMillis⟩
  exact (Nat.div_mul_le_self _ _).trans_lt hi.nanos_lt

theorem terms_round_trip_extremes :
    FieldType.float.read? (FieldType.float.write ⟨1⟩) = some ⟨1⟩ ∧
      ∃ j : Instant, date.read? (date.write (⟨-1, 999999999⟩ : Instant)) = some j ∧
        j.totalNanos = -1000000 := by
  obtain ⟨hexact, hdate⟩ := terms_round_trip
  have hfinite : Decimal.Single.isFinite ⟨1⟩ = true := by decide
  refine ⟨hexact .float ⟨1⟩ hfinite, ?_⟩
  obtain ⟨j, hread, -, hnanos⟩ := hdate ⟨-1, 999999999⟩ ⟨by decide, by decide, by decide⟩
  exact ⟨j, hread, hnanos⟩

end SearchClient.FieldType
