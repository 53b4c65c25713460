import MonkeyLang.Numeral
import MonkeyLang.Token.Scan

/-!
Numerals that are a run of the digits from 0 to 9.
-/

namespace MonkeyLang.Numeral

open Text
open Token (isDigit)

/-- The value of a run of digits. -/
def decimal (digits : List Char) : Nat := ofDigits (digits.map fun c => c.toNat - '0'.toNat)

theorem digit_bounds {c : Char} (digit : isDigit c) : 48 ≤ c.toNat ∧ c.toNat ≤ 57 := by
  simp only [isDigit, Bool.and_eq_true, decide_eq_true_eq, Char.le_def,
    UInt32.le_iff_toNat_le] at digit
  exact digit

theorem digitValue?_digit {c : Char} (digit : isDigit c) :
    digitValue? c = some (c.toNat - '0'.toNat) := by
  have bounds := digit_bounds digit
  have first : zeroDigits.find? (fun start => start ≤ c.toNat && c.toNat < start + 10) =
      some 0x30 := by
    apply List.find?_cons_of_pos
    simp only [Bool.and_eq_true, decide_eq_true_eq]
    omega
  rw [digitValue?, first]
  rfl

theorem isMargin_digit {c : Char} (digit : isDigit c) : ¬isMargin c := by
  have bounds := digit_bounds digit
  simp [isMargin, isBlank, blankRanges]
  omega

theorem digits?_cons {c : Char} {run : List Char} (initial : isDigit c)
    (others : ∀ digit ∈ run, isDigit digit) :
    digits? (c :: run) = some ((c :: run).map fun digit => digit.toNat - '0'.toNat) := by
  induction run generalizing c with
  | nil =>
      simp only [digits?, digitValue?_digit initial, Option.map_some, List.map_cons, List.map_nil]
  | cons next run ih =>
      have following : isDigit next := others next List.mem_cons_self
      have plain : next ≠ '_' := by
        rintro rfl
        exact absurd following (by decide)
      have rest := ih following fun digit member => others digit (List.mem_cons_of_mem _ member)
      rw [digits?]
      · rw [digitValue?_digit initial, rest]
        rfl
      · simp
      · simpa using plain

theorem trimMargins_digits {digits : List Char} (inside : ∀ c ∈ digits, isDigit c) :
    trimMargins digits = digits := by
  have unchanged : ∀ {text : List Char}, (∀ c ∈ text, isDigit c) →
      text.dropWhile isMargin = text := by
    intro text inside
    cases text with
    | nil => rfl
    | cons c rest =>
        exact List.dropWhile_cons_of_neg (isMargin_digit (inside c List.mem_cons_self))
  rw [trimMargins, unchanged inside,
    unchanged fun c member => inside c (List.mem_reverse.mp member), List.reverse_reverse]

/-- A run of digits is read unless it is too long. -/
theorem read?_digits {digits : List Char} (nonempty : digits ≠ [])
    (inside : ∀ c ∈ digits, isDigit c) :
    read? digits =
      if digits.length ≤ digitLimit then some (decimal digits : Int) else none := by
  have value : readNat? digits =
      if digits.length ≤ digitLimit then some (decimal digits) else none := by
    obtain ⟨c, run, rfl⟩ := List.exists_cons_of_ne_nil nonempty
    have initial := inside c List.mem_cons_self
    have others : ∀ digit ∈ run, isDigit digit :=
      fun digit member => inside digit (List.mem_cons_of_mem _ member)
    rw [readNat?, digits?_cons initial others, Option.bind_eq_bind, Option.bind_some,
      List.length_map]
    rfl
  rw [read?, trimMargins_digits inside]
  split
  · exact absurd (inside '+' List.mem_cons_self) (by decide)
  · exact absurd (inside '-' List.mem_cons_self) (by decide)
  · rw [value]
    split <;> rfl

theorem isWritable_iff {n : Int} :
    isWritable n ↔ (Nat.toDigits 10 n.natAbs).length ≤ digitLimit := by
  rw [isWritable, decide_eq_true_eq, Nat.length_toDigits_le_iff (by decide) (by decide), Nat.pow_eq]

theorem digit_of_mem_toDigits {n : Nat} {c : Char} (member : c ∈ Nat.toDigits 10 n) :
    isDigit c := by
  have bounds := Char.isDigit_iff_toNat.mp
    (Nat.isDigit_of_mem_toDigits (by decide) (by decide) member)
  simp only [isDigit, Bool.and_eq_true, decide_eq_true_eq, Char.le_def, UInt32.le_iff_toNat_le]
  exact bounds

theorem decimal_toDigits (n : Nat) : decimal (Nat.toDigits 10 n) = n := by
  rw [decimal, ofDigits, List.foldl_map]
  exact Nat.ofDigitChars_ten_toDigits

/-- A number that is not too long is read as it is written. -/
theorem read?_toDigits {n : Nat} (short : (Nat.toDigits 10 n).length ≤ digitLimit) :
    read? (Nat.toDigits 10 n) = some (n : Int) := by
  rw [read?_digits Nat.toDigits_ne_nil (fun _ => digit_of_mem_toDigits), if_pos short,
    decimal_toDigits]

end MonkeyLang.Numeral
