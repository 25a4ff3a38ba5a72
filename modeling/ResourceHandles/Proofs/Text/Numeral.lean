import ResourceHandles.Proofs.Text.Tokens
import Mathlib.Data.Nat.Digits.Defs
import Mathlib.Tactic

/-!
# The value of a numeral

A numeral is read from the left, and reading gives up at the first digit with
which the value leaves the range.  Since the value only moves away from zero,
that is the case exactly if the value of the whole numeral is outside the range.
The magnitude of what was read so far carries the induction for both signs.
-/

namespace ResourceHandles.Text

/-- The value of one digit. -/
def digitValue (c : Char) : ℕ :=
  c.toNat - '0'.toNat

/-- The decimal value of digits, the most significant one first. -/
def decimalValue (digits : List Char) : ℕ :=
  Nat.ofDigits 10 (digits.reverse.map digitValue)

def IsAsciiDigit (c : Char) : Prop :=
  '0' ≤ c ∧ c ≤ '9'

/-- A numeral that fits signed 64-bit integers, and its value. -/
inductive NumeralText : List Char → Int → Prop where
  | natural {digits : List Char}
      (hne : digits ≠ []) (hdigits : ∀ c ∈ digits, IsAsciiDigit c)
      (hrange : (decimalValue digits : Int) ≤ maxInteger) :
      NumeralText digits (decimalValue digits)
  | negative {digits : List Char}
      (hne : digits ≠ []) (hdigits : ∀ c ∈ digits, IsAsciiDigit c)
      (hrange : minInteger ≤ -(decimalValue digits : Int)) :
      NumeralText ('-' :: digits) (-(decimalValue digits : Int))

/-! ## Values -/

@[simp] theorem decimalValue_nil : decimalValue [] = 0 := by
  simp [decimalValue]

theorem decimalValue_cons (c : Char) (rest : List Char) :
    decimalValue (c :: rest) =
      digitValue c * 10 ^ rest.length + decimalValue rest := by
  unfold decimalValue
  rw [List.reverse_cons, List.map_append, Nat.ofDigits_append]
  simp [Nat.mul_comm, Nat.add_comm]

theorem decimalValue_concat (digits : List Char) (c : Char) :
    decimalValue (digits ++ [c]) = decimalValue digits * 10 + digitValue c := by
  unfold decimalValue
  rw [List.reverse_append, List.map_append, List.reverse_singleton, List.map_singleton,
    Nat.ofDigits_append]
  simp [Nat.mul_comm, Nat.add_comm]

/-- A value with digits behind it is the value with the first digit, with the others behind it. -/
theorem shift_decimalValue_cons (value : ℕ) (c : Char) (rest : List Char) :
    value * 10 ^ (c :: rest).length + decimalValue (c :: rest) =
      (value * 10 + digitValue c) * 10 ^ rest.length + decimalValue rest := by
  rw [decimalValue_cons, List.length_cons]
  ring

def signed (negative : Bool) (magnitude : ℕ) : Int :=
  if negative then -(magnitude : Int) else magnitude

/-- The greatest magnitude that fits under a sign. -/
def magnitudeLimit (negative : Bool) : ℕ :=
  if negative then 9223372036854775808 else 9223372036854775807

theorem asciiDigit?_eq_some_iff {c : Char} {digit : ℕ} :
    asciiDigit? c = some digit ↔ IsAsciiDigit c ∧ digitValue c = digit := by
  unfold asciiDigit? IsAsciiDigit digitValue
  by_cases hdigit : '0' ≤ c ∧ c ≤ '9' <;> simp [hdigit]

theorem asciiDigit?_eq_none_iff {c : Char} : asciiDigit? c = none ↔ ¬ IsAsciiDigit c := by
  unfold asciiDigit? IsAsciiDigit
  split
  · next hdigit => simp [hdigit]
  · next hdigit => simp [hdigit]

/-! ## Reading -/

theorem appendDigit_eq_ok_iff
    {negative : Bool} {magnitude : ℕ} {c : Char} {next : Int} :
    appendDigit negative (signed negative magnitude) c = .ok next ↔
      IsAsciiDigit c ∧
        magnitude * 10 + digitValue c ≤ magnitudeLimit negative ∧
        next = signed negative (magnitude * 10 + digitValue c) := by
  unfold appendDigit
  cases hdigit : asciiDigit? c with
  | none =>
      simp [asciiDigit?_eq_none_iff.mp hdigit]
  | some digit =>
      obtain ⟨hascii, rfl⟩ := asciiDigit?_eq_some_iff.mp hdigit
      cases negative with
      | true =>
          simp only [signed, magnitudeLimit, minInteger, hascii, true_and,
            if_true]
          split
          next hlow =>
            constructor
            · intro herror
              contradiction
            · rintro ⟨hlimit, -⟩
              omega
          next hlow =>
            rw [Except.ok.injEq]
            constructor
            · intro hnext
              constructor <;> omega
            · rintro ⟨-, hnext⟩
              omega
      | false =>
          simp only [signed, magnitudeLimit, maxInteger, hascii, true_and,
            Bool.false_eq_true, if_false]
          split
          next hhigh =>
            constructor
            · intro herror
              contradiction
            · rintro ⟨hlimit, -⟩
              omega
          next hhigh =>
            rw [Except.ok.injEq]
            constructor
            · intro hnext
              constructor <;> omega
            · rintro ⟨-, hnext⟩
              omega

/-- Reading goes through exactly if all digits are ASCII digits and the whole
value is in range. -/
theorem readDigits_eq_ok_iff
    {negative : Bool} {magnitude : ℕ} {digits : List Char} {value : Int}
    (hstart : magnitude ≤ magnitudeLimit negative) :
    readDigits negative (signed negative magnitude) digits = .ok value ↔
      (∀ c ∈ digits, IsAsciiDigit c) ∧
        magnitude * 10 ^ digits.length + decimalValue digits ≤
          magnitudeLimit negative ∧
        value = signed negative
          (magnitude * 10 ^ digits.length + decimalValue digits) := by
  induction digits generalizing magnitude with
  | nil =>
      simp [readDigits, hstart, eq_comm]
  | cons c rest ih =>
      have hgrows :
          magnitude * 10 + digitValue c ≤
            (magnitude * 10 + digitValue c) * 10 ^ rest.length +
              decimalValue rest := by
        have hpositive : 0 < 10 ^ rest.length := by positivity
        calc
          magnitude * 10 + digitValue c ≤
              (magnitude * 10 + digitValue c) * 10 ^ rest.length :=
            Nat.le_mul_of_pos_right _ hpositive
          _ ≤ _ := Nat.le_add_right _ _
      rw [shift_decimalValue_cons, List.forall_mem_cons, readDigits]
      cases happend : appendDigit negative (signed negative magnitude) c with
      | error fault =>
          constructor
          · intro hread
            simp at hread
          · rintro ⟨⟨hascii, -⟩, hlimit, -⟩
            have hok := appendDigit_eq_ok_iff.mpr
              ⟨hascii, hgrows.trans hlimit, rfl⟩
            rw [happend] at hok
            contradiction
      | ok next =>
          obtain ⟨hascii, hlimit, rfl⟩ := appendDigit_eq_ok_iff.mp happend
          simp only
          rw [ih hlimit]
          simp [hascii]

theorem readInteger_eq_ok_iff
    {negative : Bool} {digits : List Char} {value : Int} :
    readInteger negative digits = .ok value ↔
      (∀ c ∈ digits, IsAsciiDigit c) ∧
        decimalValue digits ≤ magnitudeLimit negative ∧
        value = signed negative (decimalValue digits) := by
  have hzero : (0 : Int) = signed negative 0 := by
    cases negative <;> rfl
  unfold readInteger
  rw [hzero, readDigits_eq_ok_iff (Nat.zero_le _)]
  simp

def signText (negative : Bool) : List Char :=
  if negative then ['-'] else []

theorem numeralText_iff {text : List Char} {value : Int} :
    NumeralText text value ↔
      ∃ negative digits, text = signText negative ++ digits ∧
        digits ≠ [] ∧ readInteger negative digits = .ok value := by
  constructor
  · intro hnumeral
    cases hnumeral with
    | natural hne hdigits hrange =>
        refine ⟨false, text, rfl, hne, ?_⟩
        rw [readInteger_eq_ok_iff]
        refine ⟨hdigits, ?_, rfl⟩
        simp only [magnitudeLimit, maxInteger] at hrange ⊢
        exact_mod_cast hrange
    | @negative digits hne hdigits hrange =>
        refine ⟨true, digits, rfl, hne, ?_⟩
        rw [readInteger_eq_ok_iff]
        refine ⟨hdigits, ?_, rfl⟩
        simp only [magnitudeLimit, minInteger, if_true] at hrange ⊢
        omega
  · rintro ⟨negative, digits, rfl, hne, hread⟩
    obtain ⟨hdigits, hlimit, rfl⟩ := readInteger_eq_ok_iff.mp hread
    cases negative with
    | true =>
        apply NumeralText.negative hne hdigits
        simp only [magnitudeLimit, minInteger, if_true] at hlimit ⊢
        omega
    | false =>
        apply NumeralText.natural hne hdigits
        simp only [magnitudeLimit, maxInteger] at hlimit ⊢
        exact_mod_cast hlimit

/-! ## Numerals as they are written -/

theorem decimalValue_eq_ofDigitChars (digits : List Char) :
    decimalValue digits = Nat.ofDigitChars 10 digits 0 := by
  induction digits with
  | nil => simp
  | cons c rest ih =>
      rw [decimalValue_cons, Nat.ofDigitChars_cons, Nat.ofDigitChars_eq_ofDigitChars_zero, ih]
      simp [digitValue, Nat.mul_comm]

@[simp] theorem decimalValue_toDigits (n : ℕ) : decimalValue (Nat.toDigits 10 n) = n := by
  rw [decimalValue_eq_ofDigitChars]
  exact Nat.ofDigitChars_toDigits (by omega) (by omega)

theorem isAsciiDigit_of_mem_toDigits
    {n : ℕ} {c : Char} (hmem : c ∈ Nat.toDigits 10 n) :
    IsAsciiDigit c :=
  Char.isDigit_iff_toNat.mp (Nat.isDigit_of_mem_toDigits (by omega) (by omega) hmem)

theorem numeralText_toString
    {value : Int} (hlow : minInteger ≤ value) (hhigh : value ≤ maxInteger) :
    NumeralText (toString value).toList value := by
  rw [Int.toString_eq_repr, Int.repr_eq_if]
  have hne : ∀ n, Nat.toDigits 10 n ≠ [] := fun n => Nat.toDigits_ne_nil
  have hdigits : ∀ n, ∀ c ∈ Nat.toDigits 10 n, IsAsciiDigit c :=
    fun n c hmem => isAsciiDigit_of_mem_toDigits hmem
  split
  · next hnonneg =>
      obtain ⟨n, rfl⟩ := Int.eq_ofNat_of_zero_le hnonneg
      have hnumeral := NumeralText.natural (hne n) (hdigits n) (by simpa using hhigh)
      simpa using hnumeral
  · next hneg =>
      obtain ⟨n, hn⟩ := Int.eq_ofNat_of_zero_le (Int.neg_nonneg.mpr (Int.le_of_not_le hneg))
      obtain rfl : value = -(n : Int) := by omega
      have hnumeral := NumeralText.negative (hne n) (hdigits n) (by simpa using hlow)
      simpa using hnumeral

theorem isDecimalDigit_of_isAsciiDigit
    {c : Char} (hdigit : IsAsciiDigit c) :
    isDecimalDigit c = true := by
  unfold isDecimalDigit
  rw [List.any_eq_true]
  refine ⟨0x30, by decide, ?_⟩
  obtain ⟨hlow, hhigh⟩ := hdigit
  have hlow' : '0'.toNat ≤ c.toNat := hlow
  have hhigh' : c.toNat ≤ '9'.toNat := hhigh
  simp only [Bool.and_eq_true, decide_eq_true_eq]
  constructor
  · exact hlow'
  · exact Nat.lt_succ_of_le hhigh'

end ResourceHandles.Text
