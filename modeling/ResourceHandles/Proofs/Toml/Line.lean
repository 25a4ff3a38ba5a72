import ResourceHandles.Proofs.Text.Numeral
import ResourceHandles.Proofs.Toml.Quoted
import ResourceHandles.Toml.Document

/-!
# Lines that assign a value to a key

A line with a bare key and the text of a value in it adds one member to the table at the
top of a document.  The value is a string as it is written, or a numeral; a numeral is not
mistaken for a date or a number in another base because it holds digits only and starts
with a zero only if it is zero.
-/

namespace ResourceHandles.Toml

open Text

variable {text rest : List Char}

/-! ## Numerals -/

theorem head_toDigits_ne_zero
    {n : Nat} (hpositive : 0 < n) : (Nat.toDigits 10 n).head? ≠ some '0' := by
  induction n using Nat.strongRecOn with
  | ind n ih =>
      by_cases hlt : n < 10
      · rw [Nat.toDigits_of_lt_base hlt]
        simp only [List.head?_cons, ne_eq, Option.some.injEq, Nat.digitChar_eq_zero]
        omega
      · rw [Nat.toDigits_of_base_le (by omega) (by omega)]
        have hfront := ih (n / 10) (by omega) (by omega)
        rw [List.head?_append_of_ne_nil _ Nat.toDigits_ne_nil]
        exact hfront

theorem hexDigit?_of_isDigit
    {c : Char} (hdigit : IsAsciiDigit c) : hexDigit? c = some (digitValue c) := by
  unfold IsAsciiDigit at hdigit
  rw [hexDigit?, if_pos hdigit]
  rfl

theorem valueInBase_eq_ofDigitChars
    {digits : List Char} (hdigits : ∀ c ∈ digits, IsAsciiDigit c) (value : Nat) :
    valueInBase 10 value digits = Nat.ofDigitChars 10 digits value := by
  induction digits generalizing value with
  | nil => simp [valueInBase]
  | cons c digits ih =>
      rw [List.forall_mem_cons] at hdigits
      rw [valueInBase, hexDigit?_of_isDigit hdigits.1, ih hdigits.2, Nat.ofDigitChars_cons,
        Nat.mul_comm]
      rfl

theorem digitsOf?_of_isDigit
    {digits : List Char} (hdigits : ∀ c ∈ digits, c.isDigit = true) :
    digitsOf? Char.isDigit true digits = some digits := by
  induction digits with
  | nil => rfl
  | cons c digits ih =>
      rw [List.forall_mem_cons] at hdigits
      rw [digitsOf?, if_pos hdigits.1, ih hdigits.2]
      rfl

theorem isDigit_of_mem
    {n : Nat} {c : Char} (hmem : c ∈ Nat.toDigits 10 n) : c.isDigit = true :=
  Nat.isDigit_of_mem_toDigits (by omega) (by omega) hmem

theorem exists_toDigits_eq_cons (n : Nat) :
    ∃ c digits, Nat.toDigits 10 n = c :: digits ∧ c.isDigit = true := by
  obtain ⟨c, digits, heq⟩ := List.exists_cons_of_ne_nil (Nat.toDigits_ne_nil (n := n) (b := 10))
  refine ⟨c, digits, heq, isDigit_of_mem (n := n) ?_⟩
  rw [heq]
  exact List.mem_cons_self

theorem wholeDigits?_toDigits (n : Nat) :
    wholeDigits? (Nat.toDigits 10 n) = some (Nat.toDigits 10 n) := by
  have hdigits : digitsOf? Char.isDigit false (Nat.toDigits 10 n) = some (Nat.toDigits 10 n) := by
    obtain ⟨c, digits, heq, -⟩ := exists_toDigits_eq_cons n
    have hall : ∀ c ∈ Nat.toDigits 10 n, c.isDigit = true := fun c hmem => isDigit_of_mem hmem
    rw [heq] at hall ⊢
    rw [List.forall_mem_cons] at hall
    rw [digitsOf?, if_pos hall.1, digitsOf?_of_isDigit hall.2]
    rfl
  unfold wholeDigits?
  rw [hdigits]
  split
  · next d digits heq =>
      have hzero : n = 0 := by
        by_contra hne
        apply head_toDigits_ne_zero (Nat.pos_of_ne_zero hne)
        rw [Option.some.inj heq]
        rfl
      rw [hzero] at heq
      simp at heq
  · rfl

theorem takeSign_toDigits (n : Nat) :
    takeSign (Nat.toDigits 10 n) = (false, Nat.toDigits 10 n) := by
  unfold takeSign
  split
  · next rest heq =>
      have hmem : '+' ∈ Nat.toDigits 10 n := by simp [heq]
      exact absurd (isDigit_of_mem hmem) (by decide)
  · next rest heq =>
      have hmem : '-' ∈ Nat.toDigits 10 n := by simp [heq]
      exact absurd (isDigit_of_mem hmem) (by decide)
  · rfl

theorem readInteger?_toDigits (n : Nat) :
    readInteger? (Nat.toDigits 10 n) = some (n : Int) := by
  unfold readInteger?
  split
  · next digits heq =>
      have hmem : 'x' ∈ Nat.toDigits 10 n := by simp [heq]
      exact absurd (isDigit_of_mem hmem) (by decide)
  · next digits heq =>
      have hmem : 'o' ∈ Nat.toDigits 10 n := by simp [heq]
      exact absurd (isDigit_of_mem hmem) (by decide)
  · next digits heq =>
      have hmem : 'b' ∈ Nat.toDigits 10 n := by simp [heq]
      exact absurd (isDigit_of_mem hmem) (by decide)
  · have hvalue : valueInBase 10 0 (Nat.toDigits 10 n) = n := by
      rw [valueInBase_eq_ofDigitChars fun c hmem => isAsciiDigit_of_mem_toDigits hmem]
      exact Nat.ofDigitChars_toDigits (by omega) (by omega)
    simp [readDecimalInteger?, takeSign_toDigits, wholeDigits?_toDigits, hvalue]

theorem ofWord?_toDigits
    {n : Nat} (hrange : (n : Int) ≤ maxWideInteger) :
    Scalar.ofWord? (Nat.toDigits 10 n) = some (.integer n) := by
  unfold Scalar.ofWord?
  rw [if_neg, readInteger?_toDigits]
  · have hlow : minWideInteger ≤ (n : Int) := by
      unfold minWideInteger
      omega
    simp only
    rw [if_pos ⟨hlow, hrange⟩]
  · rintro (heq | heq)
    · have hmem : 't' ∈ Nat.toDigits 10 n := by simp [heq]
      exact absurd (isDigit_of_mem hmem) (by decide)
    · have hmem : 'f' ∈ Nat.toDigits 10 n := by simp [heq]
      exact absurd (isDigit_of_mem hmem) (by decide)

/-- A numeral that ends its line is read as the number it shows. -/
theorem readScalar?_toDigits
    {n : Nat} (hrange : (n : Int) ≤ maxWideInteger) (rest : List Char) :
    readScalar? (Nat.toDigits 10 n ++ '\n' :: rest) = some (.integer n, '\n' :: rest) := by
  have hword : ∀ c ∈ Nat.toDigits 10 n, isWordChar c = true := by
    intro c hmem
    simp [isWordChar, Char.isAlphanum, isDigit_of_mem hmem]
  have hfeed : StopsAt isWordChar ('\n' :: rest) := stopsAt_cons.mpr (by decide)
  obtain ⟨htake, hdrop⟩ := takeWhile_append_of_stopsAt hword hfeed
  simp only [readScalar?, htake, hdrop, ofWord?_toDigits hrange]
  split
  · rfl
  · rfl

/-! ## Values -/

theorem head_of_readString?
    {c : Char} {read : List Char × List Char} (hread : readString? (c :: text) = some read) :
    c = '"' ∨ c = '\'' := by
  unfold readString? at hread
  split at hread
  · next heq => exact Or.inl (List.cons.inj heq).1
  · next heq => exact Or.inl (List.cons.inj heq).1
  · next heq => exact Or.inr (List.cons.inj heq).1
  · next heq => exact Or.inr (List.cons.inj heq).1
  · cases hread

theorem readValue?_string
    {value : List Char} (hread : readString? text = some (value, rest)) (fuel depth : Nat) :
    readValue? (fuel + 1) depth text = some (.string (String.ofList value), rest) := by
  cases text with
  | nil => cases hread
  | cons c text =>
      have hquote := head_of_readString? hread
      rw [readValue?]
      · rw [if_pos hquote, hread]
        rfl
      · rintro rfl
        simp at hquote
      · rintro rfl
        simp at hquote

theorem readValue?_integer
    {n : Nat} (hrange : (n : Int) ≤ maxWideInteger) (fuel depth : Nat) (rest : List Char) :
    readValue? (fuel + 1) depth (Nat.toDigits 10 n ++ '\n' :: rest) =
      some (.integer n, '\n' :: rest) := by
  have hread := readScalar?_toDigits hrange rest
  obtain ⟨c, digits, heq, hdigit⟩ := exists_toDigits_eq_cons n
  rw [heq, List.cons_append] at hread ⊢
  have hother : ¬(c = '"' ∨ c = '\'') := by
    rintro (rfl | rfl)
    · exact absurd hdigit (by decide)
    · exact absurd hdigit (by decide)
  rw [readValue?]
  · rw [if_neg hother, hread]
    rfl
  · rintro rfl
    exact absurd hdigit (by decide)
  · rintro rfl
    exact absurd hdigit (by decide)

/-! ## Lines -/

/-- The text of a value, which ends with its line, and the value. -/
structure ValueText (text : List Char) (item : Item) : Prop where
  head : ∀ rest, StopsAt (fun c => c == ' ' || c == '\t') (text ++ '\n' :: rest)
  read : ∀ fuel depth rest,
    readValue? (fuel + 1) depth (text ++ '\n' :: rest) = some (item, '\n' :: rest)

theorem valueText_string (text : List Char) :
    ValueText (writeString text) (.string (String.ofList text)) := by
  have hread : ∀ rest, readString? (writeString text ++ '\n' :: rest) = some (text, '\n' :: rest) :=
    fun rest => readString?_writeString (stopsAt_cons.mpr (by decide)) text
  constructor
  · intro rest
    have hhead := hread rest
    generalize writeString text ++ '\n' :: rest = line at hhead
    cases line with
    | nil => cases hhead
    | cons c line =>
        apply stopsAt_cons.mpr
        rcases head_of_readString? hhead with rfl | rfl
        · decide
        · decide
  · intro fuel depth rest
    exact readValue?_string (hread rest) fuel depth

theorem valueText_integer
    {n : Nat} (hrange : (n : Int) ≤ maxWideInteger) :
    ValueText (Nat.toDigits 10 n) (.integer n) := by
  constructor
  · intro rest
    obtain ⟨c, digits, heq, hdigit⟩ := exists_toDigits_eq_cons n
    rw [heq]
    apply stopsAt_cons.mpr
    by_contra hspace
    simp only [Bool.not_eq_false, Bool.or_eq_true, beq_iff_eq] at hspace
    rcases hspace with rfl | rfl
    · exact absurd hdigit (by decide)
    · exact absurd hdigit (by decide)
  · exact fun fuel depth rest => readValue?_integer hrange fuel depth rest

theorem skipSpaces_of_stopsAt
    (hstop : StopsAt (fun c => c == ' ' || c == '\t') text) : skipSpaces text = text := by
  have hnone : ∀ c ∈ [], (fun c : Char => c == ' ' || c == '\t') c = true := by simp
  exact (takeWhile_append_of_stopsAt hnone hstop).2

/-- A key that needs no quotes. -/
structure IsBareKey (key : List Char) : Prop where
  ne_nil : key ≠ []
  chars : ∀ c ∈ key, isKeyChar c = true

theorem IsBareKey.exists_cons
    {key : List Char} (hkey : IsBareKey key) :
    ∃ c rest, key = c :: rest ∧ isKeyChar c = true := by
  obtain ⟨c, rest, rfl⟩ := List.exists_cons_of_ne_nil hkey.ne_nil
  exact ⟨c, rest, rfl, hkey.chars c List.mem_cons_self⟩

theorem ne_of_isKeyChar
    {c d : Char} (hkey : isKeyChar c = true) (hother : isKeyChar d = false) : c ≠ d := by
  rintro rfl
  rw [hkey] at hother
  cases hother

theorem IsBareKey.readName?
    {key : List Char} (hkey : IsBareKey key) (hrest : StopsAt isKeyChar rest) :
    readName? (key ++ rest) = some (String.ofList key, rest) := by
  obtain ⟨htake, hdrop⟩ := takeWhile_append_of_stopsAt hkey.chars hrest
  obtain ⟨c, tail, rfl, hhead⟩ := hkey.exists_cons
  rw [List.cons_append] at htake hdrop ⊢
  rw [Toml.readName?, htake, hdrop]
  · rfl
  · exact fun _ heq => ne_of_isKeyChar (d := '"') hhead (by decide) (List.cons.inj heq).1
  · exact fun _ heq => ne_of_isKeyChar (d := '\'') hhead (by decide) (List.cons.inj heq).1

theorem IsBareKey.readAssigned?
    {key : List Char} (hkey : IsBareKey key)
    (hrest : StopsAt (fun c => c == ' ' || c == '\t') rest) :
    readAssigned? skipSpaces (key ++ ' ' :: '=' :: ' ' :: rest) =
      some ([String.ofList key], rest) := by
  have hname : Toml.readName? (key ++ ' ' :: '=' :: ' ' :: rest) =
      some (String.ofList key, ' ' :: '=' :: ' ' :: rest) :=
    hkey.readName? (stopsAt_cons.mpr (by decide))
  have hkeyRead : readKey? (key ++ ' ' :: '=' :: ' ' :: rest) =
      some ([String.ofList key], '=' :: ' ' :: rest) := by
    rw [readKey?, maxNames, readNames?, hname]
    rfl
  rw [Toml.readAssigned?, hkeyRead]
  show some ([String.ofList key], skipSpaces rest) = _
  rw [skipSpaces_of_stopsAt hrest]

theorem assign_root
    {root : Members} {key : String} (hfresh : Members.find? root key = none) (item : Item) :
    State.assign ⟨root, []⟩ [key] item = some ⟨root ++ [(key, item)], []⟩ := by
  simp [State.assign, Members.changeAt, Members.assign, hfresh]

/-- A line with a new key and a value adds a member to the top table. -/
theorem IsBareKey.readLines?
    {key value : List Char} {item : Item} {root : Members} (hkey : IsBareKey key)
    (hfresh : Members.find? root (String.ofList key) = none) (hvalue : ValueText value item)
    (fuel : Nat) (rest : List Char) :
    readLines? (fuel + 1) ⟨root, []⟩ (key ++ ' ' :: '=' :: ' ' :: (value ++ '\n' :: rest)) =
      readLines? fuel ⟨root ++ [(String.ofList key, item)], []⟩ rest := by
  have hassigned := hkey.readAssigned? (hvalue.head rest)
  have hline :
      readAssignment? ⟨root, []⟩ (key ++ ' ' :: '=' :: ' ' :: (value ++ '\n' :: rest)) =
        some (⟨root ++ [(String.ofList key, item)], []⟩, '\n' :: rest) := by
    rw [readAssignment?, hassigned]
    simp only [hvalue.read, assign_root hfresh]
    rfl
  obtain ⟨c, tail, rfl, hhead⟩ := hkey.exists_cons
  have hspaces : StopsAt (fun c => c == ' ' || c == '\t')
      (c :: tail ++ ' ' :: '=' :: ' ' :: (value ++ '\n' :: rest)) := by
    apply stopsAt_cons.mpr
    simp [ne_of_isKeyChar (d := ' ') hhead (by decide),
      ne_of_isKeyChar (d := '\t') hhead (by decide)]
  have hstart :
      readLine? ⟨root, []⟩ (c :: tail ++ ' ' :: '=' :: ' ' :: (value ++ '\n' :: rest)) =
        some (⟨root ++ [(String.ofList (c :: tail), item)], []⟩, '\n' :: rest) := by
    rw [List.cons_append] at hline ⊢
    rw [readLine?, if_neg, hline]
    · simp [ne_of_isKeyChar (d := '#') hhead (by decide),
        ne_of_isKeyChar (d := '\n') hhead (by decide),
        ne_of_isKeyChar (d := '\r') hhead (by decide)]
    · exact ne_of_isKeyChar (d := '[') hhead (by decide)
  rw [Toml.readLines?, skipSpaces_of_stopsAt hspaces, hstart]
  rfl

end ResourceHandles.Toml
