/-!
# Hexadecimal digits

The value of a digit is the same in both cases of its letter; each format says
in which case it writes one.
-/

namespace ResourceHandles.Text

def hexDigit? (c : Char) : Option Nat :=
  if '0' ≤ c ∧ c ≤ '9' then some (c.toNat - '0'.toNat)
  else if 'a' ≤ c ∧ c ≤ 'f' then some (c.toNat - 'a'.toNat + 10)
  else if 'A' ≤ c ∧ c ≤ 'F' then some (c.toNat - 'A'.toNat + 10)
  else none

/-- The value of hexadecimal digits read after those that gave `value`. -/
def hexValueAfter? (value : Nat) : List Char → Option Nat
  | [] => some value
  | c :: rest =>
    match hexDigit? c with
    | some digit => hexValueAfter? (value * 16 + digit) rest
    | none => none

def hexValue? (digits : List Char) : Option Nat :=
  hexValueAfter? 0 digits

/-- The digit of a number below sixteen, with a lower-case letter. -/
def lowerHexDigit (value : Nat) : Char :=
  if value < 10 then Char.ofNat ('0'.toNat + value) else Char.ofNat ('a'.toNat + (value - 10))

/-- The digit of a number below sixteen, with an upper-case letter. -/
def upperHexDigit (value : Nat) : Char :=
  if value < 10 then Char.ofNat ('0'.toNat + value) else Char.ofNat ('A'.toNat + (value - 10))

/-- The character of a code point; surrogates and numbers that are too large
have none. -/
def charOf? (code : Nat) : Option Char :=
  if code.isValidChar then some (Char.ofNat code) else none

end ResourceHandles.Text
