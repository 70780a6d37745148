import Mathlib.Data.Bool.AllAny
import Mathlib.Data.Nat.Digits.Lemmas
import LockDiscipline.Token.Literal
/-!
# Numerals

Digits are read from left to right, each one added to the multiple of what was read before. What is read so
is the number that the digits denote in the notation with places, and nothing is read where a digit is too
large for the base. The digits of a base stand in two tables here, for small letters and for capitals.
-/

namespace LockDiscipline.Literal

/-- The number of a digit, sixteen for what is none. -/
def digitNumber (c : Char) : Nat :=
  min ("0123456789abcdef".toList.idxOf c) ("0123456789ABCDEF".toList.idxOf c)

/-- A text of digits of a base. -/
structure IsNumeral (base : Nat) (digits : List Char) : Prop where
  ne_nil : digits ≠ []
  lt_base : ∀ c ∈ digits, digitNumber c < base

/-- The number that digits denote, of which the last one counts once. -/
def numeral (base : Nat) (digits : List Char) : Nat :=
  Nat.ofDigits base (digits.reverse.map digitNumber)

theorem isNumeral_iff {base : Nat} {digits : List Char} :
    IsNumeral base digits ↔ digits ≠ [] ∧ ∀ c ∈ digits, digitNumber c < base :=
  ⟨fun h => ⟨h.ne_nil, h.lt_base⟩, fun h => ⟨h.1, h.2⟩⟩

instance (base : Nat) (digits : List Char) : Decidable (IsNumeral base digits) :=
  decidable_of_iff (digits ≠ [] ∧ digits.all (digitNumber · < base))
    (by simp only [isNumeral_iff, List.all_eq_true, decide_eq_true_eq])

theorem numeral_append (base : Nat) (digits more : List Char) :
    numeral base (digits ++ more) = numeral base more + base ^ more.length * numeral base digits := by
  rw [numeral, List.reverse_append, List.map_append, Nat.ofDigits_append, List.length_map, List.length_reverse]
  rfl

theorem numeral_singleton (base : Nat) (c : Char) : numeral base [c] = digitNumber c :=
  Nat.ofDigits_singleton

theorem numeral_concat (base : Nat) (digits : List Char) (c : Char) :
    numeral base (digits ++ [c]) = base * numeral base digits + digitNumber c := by
  rw [numeral_append, numeral_singleton, List.length_singleton, pow_one, Nat.add_comm]

theorem numeral_cons (base : Nat) (c : Char) (digits : List Char) :
    numeral base (c :: digits) = numeral base digits + base ^ digits.length * digitNumber c := by
  rw [← List.singleton_append, numeral_append, numeral_singleton]

/-- A numeral is less than the power of its base that has one digit more. -/
theorem numeral_lt {base : Nat} (hbase : 1 < base) {digits : List Char}
    (h : ∀ c ∈ digits, digitNumber c < base) : numeral base digits < base ^ digits.length := by
  have hdigits : ∀ number ∈ digits.reverse.map digitNumber, number < base := by
    simpa using h
  simpa [numeral] using Nat.ofDigits_lt_base_pow_length hbase hdigits

/-! ### Digits that are read -/

/-- Every digit of a base up to sixteen. -/
def digitTable : List Char :=
  "0123456789abcdefABCDEF".toList

theorem mem_digitTable_of_digitNumber_lt {c : Char} (h : digitNumber c < 16) : c ∈ digitTable := by
  -- To decide this as it stands may go through all characters, not only those of the list.
  have hsmall : ∀ d ∈ "0123456789abcdef".toList, d ∈ digitTable := List.all_iff_forall_prop.mp (by decide)
  have hcapital : ∀ d ∈ "0123456789ABCDEF".toList, d ∈ digitTable := List.all_iff_forall_prop.mp (by decide)
  rcases min_lt_iff.mp h with hlt | hlt
  · exact hsmall c (List.idxOf_lt_length_iff.mp hlt)
  · exact hcapital c (List.idxOf_lt_length_iff.mp hlt)

theorem mem_digitTable_of_digitValue? {c : Char} (h : digitValue? 16 c ≠ none) : c ∈ digitTable := by
  have hcode : c.toNat ∈ List.range' 48 10 ++ List.range' 97 6 ++ List.range' 65 6 := by
    simp only [List.mem_append, List.mem_range'_1]
    by_contra hcode
    refine h ?_
    have hle (low high : Char) : low ≤ c ∧ c ≤ high ↔ low.toNat ≤ c.toNat ∧ c.toNat ≤ high.toNat := Iff.rfl
    have hdigit : ¬('0' ≤ c ∧ c ≤ '9') := by
      rw [hle]
      exact fun hc => hcode (.inl (.inl ⟨hc.1, Nat.lt_succ_of_le hc.2⟩))
    have hsmall : ¬('a' ≤ c ∧ c ≤ 'f') := by
      rw [hle]
      exact fun hc => hcode (.inl (.inr ⟨hc.1, Nat.lt_succ_of_le hc.2⟩))
    have hcapital : ¬('A' ≤ c ∧ c ≤ 'F') := by
      rw [hle]
      exact fun hc => hcode (.inr ⟨hc.1, Nat.lt_succ_of_le hc.2⟩)
    rw [digitValue?, if_neg hdigit, if_neg hsmall, if_neg hcapital]
    rfl
  have htable : ∀ code ∈ List.range' 48 10 ++ List.range' 97 6 ++ List.range' 65 6,
      Char.ofNat code ∈ digitTable := by
    decide
  rw [← Char.ofNat_toNat c]
  exact htable _ hcode

theorem digitValue?_sixteen (c : Char) :
    digitValue? 16 c = if digitNumber c < 16 then some (digitNumber c) else none := by
  have htable : ∀ d ∈ digitTable, digitNumber d < 16 ∧ digitValue? 16 d = some (digitNumber d) :=
    List.all_iff_forall_prop.mp (by decide)
  by_cases hc : c ∈ digitTable
  · obtain ⟨hlt, hvalue⟩ := htable c hc
    rw [hvalue, if_pos hlt]
  · rw [if_neg (mt mem_digitTable_of_digitNumber_lt hc)]
    exact not_not.mp (mt mem_digitTable_of_digitValue? hc)

/-- A digit of a base is read as its number, and nothing else is. -/
theorem digitValue?_eq {base : Nat} (hbase : base ≤ 16) (c : Char) :
    digitValue? base c = if digitNumber c < base then some (digitNumber c) else none := by
  have hbelow : digitValue? base c = (digitValue? 16 c).filter (· < base) := by
    rw [digitValue?, digitValue?, Option.filter_filter]
    congr 1
    funext number
    by_cases hnumber : number < base
    · simp [hnumber, hnumber.trans_le hbase]
    · simp [hnumber]
  rw [hbelow, digitValue?_sixteen]
  by_cases hc : digitNumber c < base
  · simp [hc, hc.trans_le hbase]
  · have hle := Nat.le_of_not_lt hc
    split <;> simp [hle]

theorem digitValue?_eq_some_iff {base : Nat} (hbase : base ≤ 16) {c : Char} {number : Nat} :
    digitValue? base c = some number ↔ digitNumber c < base ∧ digitNumber c = number := by
  rw [digitValue?_eq hbase, Option.ite_none_right_eq_some, Option.some.injEq]

/-- Digits are read one after another, behind those that were read before. -/
theorem digitsValue?_eq_some_iff {base : Nat} (hbase : base ≤ 16) (value : Nat) (digits : List Char)
    (number : Nat) : digitsValue? base value digits = some number ↔
      (∀ c ∈ digits, digitNumber c < base) ∧ base ^ digits.length * value + numeral base digits = number := by
  induction digits generalizing value with
  | nil => simp [digitsValue?, numeral]
  | cons c digits ih =>
      rw [digitsValue?, Option.bind_eq_bind, Option.bind_eq_some_iff]
      simp only [digitValue?_eq_some_iff hbase, ih, List.forall_mem_cons, numeral_cons, List.length_cons, pow_succ]
      constructor
      · rintro ⟨_, ⟨hc, rfl⟩, hdigits, rfl⟩
        exact ⟨⟨hc, hdigits⟩, by ring⟩
      · rintro ⟨⟨hc, hdigits⟩, rfl⟩
        exact ⟨_, ⟨hc, rfl⟩, hdigits, by ring⟩

/-- What is read of a text is the number that it denotes, if it is a numeral. -/
theorem natural?_eq_some_iff {base : Nat} (hbase : base ≤ 16) {digits : List Char} {number : Nat} :
    natural? base digits = some number ↔ IsNumeral base digits ∧ numeral base digits = number := by
  rw [natural?, isNumeral_iff, and_assoc]
  split
  case isTrue hempty => simp [List.isEmpty_iff.mp hempty]
  case isFalse hempty =>
    rw [digitsValue?_eq_some_iff hbase, Nat.mul_zero, Nat.zero_add]
    simp [List.isEmpty_iff] at hempty
    simp [hempty]

end LockDiscipline.Literal
