import ResourceHandles.Text.Hex
import ResourceHandles.Text.Split

/-!
# Hosts

A host is given in numbers and dots, one to four of them, of which the last one
fills the bytes that are left.  A number may also be written in octal digits
behind a zero or in hexadecimal digits behind `0x`.  The name `localhost` is
known too; every other name would have to be asked for.
-/

namespace ResourceHandles

/-- An address of 32 bits. -/
structure IpAddress where
  value : Nat
  deriving Repr, DecidableEq

namespace IpAddress

/-- The address that stands for every address of this host. -/
def unspecified : IpAddress := ⟨0⟩

def loopback : IpAddress := ⟨0x7F000001⟩

def isLoopback (address : IpAddress) : Bool :=
  address.value / 0x1000000 == 0x7F

def isLocal (address : IpAddress) : Bool :=
  address == unspecified || address.isLoopback

/-- The value of digits in a base, all of which have to be below it. -/
def digitsInBase? (base value : Nat) : List Char → Option Nat
  | [] => some value
  | c :: rest =>
    match Text.hexDigit? c with
    | some digit =>
      if digit < base then digitsInBase? base (value * base + digit) rest else none
    | none => none

def readNumber? : List Char → Option Nat
  | [] => none
  | ['0'] => some 0
  | '0' :: 'x' :: digits => if digits.isEmpty then none else digitsInBase? 16 0 digits
  | '0' :: 'X' :: digits => if digits.isEmpty then none else digitsInBase? 16 0 digits
  | '0' :: digits => digitsInBase? 8 0 digits
  | digits => digitsInBase? 10 0 digits

/-- The address of its numbers, read after those that gave `value`; `room` is
the number of bytes that are left. -/
def ofNumbers? (value : Nat) : Nat → List Nat → Option IpAddress
  | _, [] => none
  | room, [last] => if last < 256 ^ room then some ⟨value * 256 ^ room + last⟩ else none
  | 0, _ :: _ => none
  | room + 1, number :: rest =>
    if number < 256 then ofNumbers? (value * 256 + number) room rest else none

def ofHost? (host : String) : Option IpAddress :=
  if host = "localhost" then some loopback
  else
    let pieces := Text.splitOn '.' host.toList
    if 4 < pieces.length then none
    else (pieces.mapM readNumber?).bind (ofNumbers? 0 4)

end IpAddress

end ResourceHandles
