/-!
# Decimal digits

Two classes of digits meet in a numeral.  A numeral is recognised by the
Unicode category `Nd`, which comes in runs of ten, and it is read by its ASCII
digits alone, so a numeral of another script is recognised and then refused.
Reading goes from left to right and stops at the first digit that cannot be
taken: one outside ASCII, or one with which the value leaves the range of
signed 64-bit integers.
-/

namespace ResourceHandles.Text

/-- The zero of each run of ten decimal digits of the Unicode category `Nd`. -/
def zeroDigits : List Nat :=
  [0x0030, 0x0660, 0x06F0, 0x07C0, 0x0966, 0x09E6, 0x0A66, 0x0AE6, 0x0B66, 0x0BE6,
   0x0C66, 0x0CE6, 0x0D66, 0x0DE6, 0x0E50, 0x0ED0, 0x0F20, 0x1040, 0x1090, 0x17E0,
   0x1810, 0x1946, 0x19D0, 0x1A80, 0x1A90, 0x1B50, 0x1BB0, 0x1C40, 0x1C50, 0xA620,
   0xA8D0, 0xA900, 0xA9D0, 0xA9F0, 0xAA50, 0xABF0, 0xFF10, 0x104A0, 0x10D30, 0x10D40,
   0x11066, 0x110F0, 0x11136, 0x111D0, 0x112F0, 0x11450, 0x114D0, 0x11650, 0x116C0, 0x116D0,
   0x116DA, 0x11730, 0x118E0, 0x11950, 0x11BF0, 0x11C50, 0x11D50, 0x11DA0, 0x11F50, 0x16130,
   0x16A60, 0x16AC0, 0x16B50, 0x16D70, 0x1CCF0, 0x1D7CE, 0x1D7D8, 0x1D7E2, 0x1D7EC, 0x1D7F6,
   0x1E140, 0x1E2F0, 0x1E4F0, 0x1E5F1, 0x1E950, 0x1FBF0]

/-- The Unicode category `Nd`. -/
def isDecimalDigit (c : Char) : Bool :=
  zeroDigits.any fun first => first ≤ c.toNat && c.toNat < first + 10

def asciiDigit? (c : Char) : Option Nat :=
  if '0' ≤ c ∧ c ≤ '9' then some (c.toNat - '0'.toNat) else none

def minInteger : Int := -9223372036854775808

def maxInteger : Int := 9223372036854775807

/-- Why a numeral has no value. -/
inductive IntegerFault where
  | tooLarge
  | tooSmall
  | invalidDigit
  deriving Repr, DecidableEq

def IntegerFault.message : IntegerFault → String
  | .tooLarge => "number too large to fit in target type"
  | .tooSmall => "number too small to fit in target type"
  | .invalidDigit => "invalid digit found in string"

/-- Appends one digit to a value that grows away from zero. -/
def appendDigit (negative : Bool) (value : Int) (c : Char) : Except IntegerFault Int :=
  match asciiDigit? c with
  | none => .error .invalidDigit
  | some digit =>
    if negative then
      let next := value * 10 - digit
      if next < minInteger then .error .tooSmall else .ok next
    else
      let next := value * 10 + digit
      if maxInteger < next then .error .tooLarge else .ok next

/-- The value of the digits of a numeral, read after those that gave `value`. -/
def readDigits (negative : Bool) : Int → List Char → Except IntegerFault Int
  | value, [] => .ok value
  | value, c :: rest =>
    match appendDigit negative value c with
    | .error fault => .error fault
    | .ok next => readDigits negative next rest

def readInteger (negative : Bool) (digits : List Char) : Except IntegerFault Int :=
  readDigits negative 0 digits

end ResourceHandles.Text
