import ResourceHandles.Text.Digit
import ResourceHandles.Text.Hex

/-!
# Numbers, truth values and dates

A value that is neither a string nor a collection is one word: a truth value,
an integer, a floating-point number, a date, a time, or both.  Only integers
are kept with their value.  Of the others it matters that they are well formed
and in range.
-/

namespace ResourceHandles.Toml

/-- A value that is one word. -/
inductive Scalar where
  | integer (value : Int)
  | other
  deriving Repr, DecidableEq

def minWideInteger : Int := -170141183460469231731687303715884105728

def maxWideInteger : Int := 340282366920938463463374607431768211455

/-! ## Integers -/

/-- The digits of a word in which single underscores may stand between two
digits; `after` tells whether a digit stands before the word. -/
def digitsOf? (isDigit : Char → Bool) : Bool → List Char → Option (List Char)
  | after, [] => if after then some [] else none
  | after, c :: rest =>
    if isDigit c then (digitsOf? isDigit true rest).map (c :: ·)
    else if c = '_' ∧ after = true then digitsOf? isDigit false rest
    else none

/-- The value of digits in a base, read after those that gave `value`. -/
def valueInBase (base value : Nat) : List Char → Nat
  | [] => value
  | c :: rest => valueInBase base (value * base + (Text.hexDigit? c).getD 0) rest

/-- Whether a character is a digit of a base up to sixteen. -/
def isDigitOf (base : Nat) (c : Char) : Bool :=
  match Text.hexDigit? c with
  | some digit => digit < base
  | none => false

def readInBase? (base : Nat) (word : List Char) : Option Nat :=
  (digitsOf? (isDigitOf base) false word).map (valueInBase base 0)

def takeSign : List Char → Bool × List Char
  | '+' :: rest => (false, rest)
  | '-' :: rest => (true, rest)
  | word => (false, word)

/-- The digits of a whole number; they start with zero only if they are zero. -/
def wholeDigits? (word : List Char) : Option (List Char) :=
  match digitsOf? Char.isDigit false word with
  | some ('0' :: _ :: _) => none
  | digits => digits

def readDecimalInteger? (word : List Char) : Option Int :=
  let (negative, unsigned) := takeSign word
  (wholeDigits? unsigned).map fun digits =>
    let value : Int := valueInBase 10 0 digits
    if negative then -value else value

def readInteger? (word : List Char) : Option Int :=
  match word with
  | '0' :: 'x' :: digits => (readInBase? 16 digits).map Int.ofNat
  | '0' :: 'o' :: digits => (readInBase? 8 digits).map Int.ofNat
  | '0' :: 'b' :: digits => (readInBase? 2 digits).map Int.ofNat
  | _ => readDecimalInteger? word

/-! ## Floating-point numbers -/

/-- The least number that is too large for a floating-point number of 64 bits. -/
def floatLimit : Nat := Nat.pow 2 1024 - Nat.pow 2 970

/-- Whether `digits * 10 ^ (power - shift)` is too large. -/
def overflowsFloat (digits power shift : Nat) : Bool :=
  let count := (Nat.repr digits).length
  if digits = 0 then false
  else if count + power < 300 + shift then false
  else if 320 + shift < count + power then true
  else floatLimit * Nat.pow 10 shift ≤ digits * Nat.pow 10 power

/-- The parts of a number: its whole digits, the digits behind the point, and
the exponent with its sign. -/
structure FloatParts where
  whole : List Char
  fraction : List Char
  negativeExponent : Bool
  exponent : Nat
  deriving Repr, DecidableEq

def readExponent? (word : List Char) : Option (Bool × Nat) :=
  match word with
  | [] => some (false, 0)
  | c :: rest =>
    if c = 'e' ∨ c = 'E' then
      let (negative, unsigned) := takeSign rest
      (digitsOf? Char.isDigit false unsigned).map fun digits => (negative, valueInBase 10 0 digits)
    else none

/-- Whether a character can stand in a row of digits. -/
def isDigitOrLine (c : Char) : Bool :=
  c.isDigit || c == '_'

/-- The parts of a number without its sign; it has a point or an exponent. -/
def readFloatParts? (word : List Char) : Option FloatParts := do
  let whole ← wholeDigits? (word.takeWhile isDigitOrLine)
  match word.dropWhile isDigitOrLine with
  | [] => none
  | '.' :: rest =>
    let fraction ← digitsOf? Char.isDigit false (rest.takeWhile isDigitOrLine)
    let (negative, exponent) ← readExponent? (rest.dropWhile isDigitOrLine)
    return ⟨whole, fraction, negative, exponent⟩
  | rest =>
    let (negative, exponent) ← readExponent? rest
    return ⟨whole, [], negative, exponent⟩

def FloatParts.fits (parts : FloatParts) : Bool :=
  let digits := valueInBase 10 0 (parts.whole ++ parts.fraction)
  let places := parts.fraction.length
  if parts.negativeExponent then !overflowsFloat digits 0 (places + parts.exponent)
  else !overflowsFloat digits parts.exponent places

def isFloat (word : List Char) : Bool :=
  let unsigned := (takeSign word).2
  unsigned == ['i', 'n', 'f'] || unsigned == ['n', 'a', 'n'] ||
    match readFloatParts? unsigned with
    | some parts => parts.fits
    | none => false

/-! ## Dates and times -/

/-- A number of two digits that is not above a bound, and what follows it. -/
def takeTwoDigits? (bound : Nat) : List Char → Option (Nat × List Char)
  | a :: b :: rest =>
    match Text.asciiDigit? a, Text.asciiDigit? b with
    | some tens, some ones =>
      if tens * 10 + ones ≤ bound then some (tens * 10 + ones, rest) else none
    | _, _ => none
  | _ => none

def dropMark? (mark : Char) : List Char → Option (List Char)
  | c :: rest => if c = mark then some rest else none
  | [] => none

def isLeapYear (year : Nat) : Bool :=
  (year % 4 == 0 && year % 100 != 0) || year % 400 == 0

def daysOf (year month : Nat) : Nat :=
  if month = 2 then if isLeapYear year then 29 else 28
  else if month = 4 ∨ month = 6 ∨ month = 9 ∨ month = 11 then 30
  else 31

def dropDate? (word : List Char) : Option (List Char) := do
  let (century, rest) ← takeTwoDigits? 99 word
  let (year, rest) ← takeTwoDigits? 99 rest
  let rest ← dropMark? '-' rest
  let (month, rest) ← takeTwoDigits? 12 rest
  let rest ← dropMark? '-' rest
  let (day, rest) ← takeTwoDigits? 31 rest
  if 0 < month ∧ 0 < day ∧ day ≤ daysOf (century * 100 + year) month then some rest else none

/-- Drops a fraction of a second if there is one. -/
def dropSecondFraction? (word : List Char) : Option (List Char) :=
  match word with
  | '.' :: rest =>
    if (rest.takeWhile Char.isDigit).isEmpty then none else some (rest.dropWhile Char.isDigit)
  | _ => some word

/-- Drops a time; its seconds may be missing. -/
def dropTime? (word : List Char) : Option (List Char) := do
  let (_, rest) ← takeTwoDigits? 23 word
  let rest ← dropMark? ':' rest
  let (_, rest) ← takeTwoDigits? 59 rest
  match rest with
  | ':' :: rest =>
    let (_, rest) ← takeTwoDigits? 60 rest
    dropSecondFraction? rest
  | _ => some rest

/-- Drops the distance from universal time if there is one. -/
def dropOffset? (word : List Char) : Option (List Char) :=
  match word with
  | [] => some []
  | c :: rest =>
    if c = 'Z' ∨ c = 'z' then some rest
    else if c = '+' ∨ c = '-' then do
      let (_, rest) ← takeTwoDigits? 23 rest
      let rest ← dropMark? ':' rest
      let (_, rest) ← takeTwoDigits? 59 rest
      return rest
    else none

/-- Whether a word is a time with or without its distance from universal time. -/
def isZonedTime (word : List Char) : Bool :=
  ((dropTime? word).bind dropOffset?) == some []

def isDate (word : List Char) : Bool :=
  dropDate? word == some []

/-- Whether a word is a date, a time, or a date and a time around a letter T. -/
def isDateOrTime (word : List Char) : Bool :=
  match dropDate? word with
  | some [] => true
  | some (c :: rest) => (c == 'T' || c == 't') && isZonedTime rest
  | none => dropTime? word == some []

/-! ## Words -/

/-- A character that can stand in the word of a value. -/
def isWordChar (c : Char) : Bool :=
  c.isAlphanum || c == '+' || c == '-' || c == '_' || c == '.' || c == ':'

def Scalar.ofWord? (word : List Char) : Option Scalar :=
  if word = ['t', 'r', 'u', 'e'] ∨ word = ['f', 'a', 'l', 's', 'e'] then some .other
  else
    match readInteger? word with
    | some value =>
      if minWideInteger ≤ value ∧ value ≤ maxWideInteger then some (.integer value) else none
    | none => if isFloat word || isDateOrTime word then some .other else none

/-- What follows a date if a space and a time come next. -/
def dropSpacedTime? (rest : List Char) : Option (List Char) :=
  match rest with
  | ' ' :: next =>
    if isZonedTime (next.takeWhile isWordChar) then some (next.dropWhile isWordChar) else none
  | _ => none

/-- The value at the head of the text, and what follows it. -/
def readScalar? (text : List Char) : Option (Scalar × List Char) :=
  let word := text.takeWhile isWordChar
  let rest := text.dropWhile isWordChar
  match Scalar.ofWord? word with
  | none => none
  | some scalar =>
    if isDate word then some (scalar, (dropSpacedTime? rest).getD rest) else some (scalar, rest)

end ResourceHandles.Toml
