import ResourceHandles.Machine.Steps
import ResourceHandles.Proofs.Text.Numeral
import ResourceHandles.Proofs.Text.Pieces
import Mathlib.Tactic

/-!
# The texts of an address

The grammar is a relation between texts and endpoints that does not say how a text is read.
Since the digits of a port are no colons, the colon of the grammar is the last one of the text,
and so everything before it belongs to the host.  Reading accepts the texts of the grammar and
no others; a listen or connect with another text ends before anything is done.
-/

namespace ResourceHandles

open Text

/-- The host that a text names: the inner text if it is put in square brackets, else the text
itself. -/
inductive HostName : List Char → List Char → Prop where
  | bracketed (inner : List Char) : HostName ('[' :: (inner ++ [']'])) inner
  | plain {host : List Char} (hplain : ∀ inner, host ≠ '[' :: (inner ++ [']'])) :
      HostName host host

/-- The texts of an address: a host, a colon, and a port in digits.  A host that names nothing
stands for the wildcard host. -/
inductive AddressText (wildcardHost : String) : List Char → Endpoint → Prop where
  | intro {host named digits : List Char} (hhost : HostName host named)
      (hne : digits ≠ []) (hdigits : ∀ c ∈ digits, IsAsciiDigit c)
      (hlow : 1 ≤ decimalValue digits) (hhigh : decimalValue digits ≤ 65535) :
      AddressText wildcardHost (host ++ ':' :: digits)
        ⟨if named = [] then wildcardHost else String.ofList named, decimalValue digits⟩

namespace Endpoint

/-! ## Ports -/

theorem readDecimal?_eq_some_iff {value port : ℕ} {digits : List Char} :
    readDecimal? value digits = some port ↔
      (∀ c ∈ digits, IsAsciiDigit c) ∧
        port = value * 10 ^ digits.length + decimalValue digits := by
  induction digits generalizing value with
  | nil => simp [readDecimal?, eq_comm]
  | cons c rest ih =>
      rw [readDecimal?, List.forall_mem_cons, shift_decimalValue_cons]
      cases hdigit : asciiDigit? c with
      | none => simp [asciiDigit?_eq_none_iff.mp hdigit]
      | some digit =>
          obtain ⟨hascii, rfl⟩ := asciiDigit?_eq_some_iff.mp hdigit
          simp only [ih, hascii, true_and]

theorem readPort?_eq_some_iff {digits : List Char} {port : ℕ} :
    readPort? digits = some port ↔
      digits ≠ [] ∧ (∀ c ∈ digits, IsAsciiDigit c) ∧ decimalValue digits = port ∧
        1 ≤ port ∧ port ≤ 65535 := by
  have hread : ∀ value, readDecimal? 0 digits = some value ↔
      (∀ c ∈ digits, IsAsciiDigit c) ∧ value = decimalValue digits := by
    intro value
    rw [readDecimal?_eq_some_iff, Nat.zero_mul, Nat.zero_add]
  unfold readPort? maxPort
  cases hempty : digits.isEmpty with
  | true => simp [List.isEmpty_iff.mp hempty]
  | false =>
      have hne : digits ≠ [] := by simpa using hempty
      simp only [Bool.false_eq_true, if_false, hne, ne_eq, not_false_eq_true, true_and]
      cases hvalue : readDecimal? 0 digits with
      | none =>
          have hnot : ¬ ∀ c ∈ digits, IsAsciiDigit c := by
            intro hdigits
            have hsome := (hread _).mpr ⟨hdigits, rfl⟩
            rw [hvalue] at hsome
            cases hsome
          simp [hnot]
      | some value =>
          obtain ⟨hdigits, rfl⟩ := (hread value).mp hvalue
          simp only [Option.ite_none_right_eq_some, Option.some.injEq]
          constructor
          · rintro ⟨⟨hlow, hhigh⟩, rfl⟩
            exact ⟨hdigits, rfl, hlow, hhigh⟩
          · rintro ⟨-, rfl, hlow, hhigh⟩
            exact ⟨⟨hlow, hhigh⟩, rfl⟩

/-! ## Hosts -/

@[simp] theorem unbracket_bracketed (inner : List Char) :
    unbracket ('[' :: (inner ++ [']'])) = inner := by
  simp [unbracket]

theorem unbracket_plain
    {host : List Char} (hplain : ∀ inner, host ≠ '[' :: (inner ++ [']'])) :
    unbracket host = host := by
  unfold unbracket
  split
  · next inner =>
      split
      · next hlast =>
          obtain ⟨front, rfl⟩ := List.getLast?_eq_some_iff.mp hlast
          exact absurd rfl (hplain front)
      · rfl
  · rfl

theorem hostName_iff {host named : List Char} : HostName host named ↔ unbracket host = named := by
  constructor
  · intro hhost
    cases hhost with
    | bracketed => exact unbracket_bracketed named
    | plain hplain => exact unbracket_plain hplain
  · rintro rfl
    by_cases hbracketed : ∃ inner, host = '[' :: (inner ++ [']'])
    · obtain ⟨inner, rfl⟩ := hbracketed
      rw [unbracket_bracketed]
      exact .bracketed inner
    · rw [not_exists] at hbracketed
      rw [unbracket_plain hbracketed]
      exact .plain hbracketed

/-! ## Addresses -/

theorem colon_notMem_of_digits {digits : List Char} (hdigits : ∀ c ∈ digits, IsAsciiDigit c) :
    ':' ∉ digits := by
  intro hmem
  have hcolon : ¬ ':' ≤ '9' := by decide
  exact hcolon (hdigits ':' hmem).2

/-- An address is read from the host before its last colon and the port after it. -/
theorem parse?_append
    {host digits : List Char} (hcolon : ':' ∉ digits) {address : String}
    (haddress : address.toList = host ++ ':' :: digits) (wildcardHost : String) :
    parse? address wildcardHost =
      (readPort? digits).map fun port =>
        ⟨if unbracket host = [] then wildcardHost else String.ofList (unbracket host), port⟩ := by
  rw [parse?, haddress, splitAtLast?_append hcolon]
  dsimp only
  cases readPort? digits with
  | none => rfl
  | some port => simp

theorem parse?_eq_some_iff
    {address wildcardHost : String} {endpoint : Endpoint} :
    parse? address wildcardHost = some endpoint ↔
      AddressText wildcardHost address.toList endpoint := by
  constructor
  · intro hparse
    cases hsplit : splitAtLast? ':' address.toList with
    | none =>
        rw [parse?, hsplit] at hparse
        cases hparse
    | some parts =>
        obtain ⟨host, digits⟩ := parts
        obtain ⟨haddress, hcolon⟩ := splitAtLast?_eq_some hsplit
        rw [parse?_append hcolon haddress, Option.map_eq_some_iff] at hparse
        obtain ⟨port, hport, rfl⟩ := hparse
        obtain ⟨hne, hdigits, rfl, hlow, hhigh⟩ := readPort?_eq_some_iff.mp hport
        rw [haddress]
        exact .intro (hostName_iff.mpr rfl) hne hdigits hlow hhigh
  · intro htext
    generalize haddress : address.toList = text at htext
    cases htext with
    | @intro host named digits hhost hne hdigits hlow hhigh =>
        have hport := readPort?_eq_some_iff.mpr ⟨hne, hdigits, rfl, hlow, hhigh⟩
        -- No digit is a colon, so the colon before the digits is the last one.
        rw [parse?_append (colon_notMem_of_digits hdigits) haddress, hport,
          hostName_iff.mp hhost]
        rfl

end Endpoint

theorem Machine.plan_of_parse?_eq_none
    {machine : Machine} {space : Nat} {address : String} {call : Call}
    (hnone : Endpoint.parse? address (machine.space space).configuration.wildcardHost = none)
    (hcall : call = .listen address ∨ call = .connect address) :
    machine.plan space call = (machine, .answer (.handle .invalid)) := by
  rcases hcall with rfl | rfl
  · simp only [plan, hnone]
  · simp only [plan, hnone]

/-- The texts of an address are read as the endpoint that the grammar says, and no other text is
read.  A listen or connect with another text comes to no action: it is answered with the handle
`-1`, and the machine is as it was. -/
theorem Endpoint.accepts_host_and_port (address : String) :
    (∀ wildcardHost endpoint, Endpoint.parse? address wildcardHost = some endpoint ↔
      AddressText wildcardHost address.toList endpoint) ∧
    (∀ wildcardHost, (∀ endpoint, ¬ AddressText wildcardHost address.toList endpoint) →
      Endpoint.parse? address wildcardHost = none) ∧
    ∀ (machine : Machine) (space : Nat),
      (∀ endpoint, ¬ AddressText (machine.space space).configuration.wildcardHost
        address.toList endpoint) →
      ∀ call, call = .listen address ∨ call = .connect address →
        machine.plan space call = (machine, .answer (.handle ⟨-1⟩)) ∧
          machine.start space call = (machine, .answered (.handle ⟨-1⟩)) := by
  have hnone : ∀ wildcardHost, (∀ endpoint, ¬ AddressText wildcardHost address.toList endpoint) →
      Endpoint.parse? address wildcardHost = none := by
    intro wildcardHost hother
    rw [Option.eq_none_iff_forall_not_mem]
    intro endpoint hparse
    exact hother endpoint (parse?_eq_some_iff.mp hparse)
  refine ⟨fun wildcardHost endpoint => parse?_eq_some_iff, hnone, ?_⟩
  intro machine space hother call hcall
  have hplan := Machine.plan_of_parse?_eq_none (hnone _ hother) hcall
  refine ⟨hplan, ?_⟩
  rw [Machine.start, hplan]
  rfl

end ResourceHandles
