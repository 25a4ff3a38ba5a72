import ResourceHandles.Text.Digit
import ResourceHandles.Text.Split

/-!
# Addresses

An address is a host and a port with a colon between them; the last colon of
the text counts.  A host in square brackets loses them, and an empty host
stands for the wildcard host.  A port is written in ASCII digits, with any
number of leading zeros, and lies between 1 and 65535.
-/

namespace ResourceHandles

/-- A host and a port. -/
structure Endpoint where
  host : String
  port : Nat
  deriving Repr, DecidableEq

/-- The greatest port. -/
def maxPort : Nat := 65535

namespace Endpoint

/-- The text of an endpoint; a host with a colon is put in square brackets. -/
def text (endpoint : Endpoint) : String :=
  if ':' ∈ endpoint.host.toList then
    "[" ++ endpoint.host ++ "]:" ++ toString endpoint.port
  else endpoint.host ++ ":" ++ toString endpoint.port

def readDecimal? : Nat → List Char → Option Nat
  | value, [] => some value
  | value, c :: rest =>
    match Text.asciiDigit? c with
    | some digit => readDecimal? (value * 10 + digit) rest
    | none => none

def readPort? (text : List Char) : Option Nat :=
  if text.isEmpty then none
  else
    match readDecimal? 0 text with
    | some port => if 0 < port ∧ port ≤ maxPort then some port else none
    | none => none

def unbracket (host : List Char) : List Char :=
  match host with
  | '[' :: inner => if inner.getLast? = some ']' then inner.dropLast else host
  | _ => host

/-- Reads an address; `none` for every text that is not one. -/
def parse? (address wildcardHost : String) : Option Endpoint :=
  match Text.splitAtLast? ':' address.toList with
  | none => none
  | some (host, port) =>
    match readPort? port with
    | none => none
    | some number =>
      let named := unbracket host
      some ⟨if named.isEmpty then wildcardHost else String.ofList named, number⟩

end Endpoint

end ResourceHandles
