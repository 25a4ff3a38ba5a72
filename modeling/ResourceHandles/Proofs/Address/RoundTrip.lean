import ResourceHandles.Proofs.Address.Grammar

/-!
# Endpoints and their texts

The text of an endpoint puts a host with a colon in square brackets, so the last colon of the
text stands before the port whatever the host is, and the text tells the endpoint.  Reading
takes brackets away by their place alone and puts the wildcard host for an empty one.  So it
gives the endpoint back unless the host is empty or in brackets already, and otherwise an
endpoint with the same port and another host.
-/

namespace ResourceHandles

open Text

namespace Endpoint

/-! ## The text of an endpoint -/

/-- A host as it stands in the text of an endpoint. -/
def shown (host : List Char) : List Char :=
  if ':' ∈ host then '[' :: (host ++ [']']) else host

theorem shown_plain {host : List Char} (hcolon : ':' ∉ host) : shown host = host :=
  if_neg hcolon

theorem toList_text (endpoint : Endpoint) :
    endpoint.text.toList =
      shown endpoint.host.toList ++ ':' :: Nat.toDigits 10 endpoint.port := by
  unfold text shown
  split
  · simp
  · simp

theorem colon_mem_shown_iff (host : List Char) : ':' ∈ shown host ↔ ':' ∈ host := by
  unfold shown
  split
  · next hcolon => simp [hcolon]
  · rfl

theorem shown_injective : Function.Injective shown := by
  intro host other hshown
  have hcolon : ':' ∈ host ↔ ':' ∈ other := by
    rw [← colon_mem_shown_iff, hshown, colon_mem_shown_iff]
  unfold shown at hshown
  by_cases hhost : ':' ∈ host
  · rw [if_pos hhost, if_pos (hcolon.mp hhost)] at hshown
    exact List.append_cancel_right (List.cons.inj hshown).2
  · rwa [if_neg hhost, if_neg (mt hcolon.mpr hhost)] at hshown

theorem colon_notMem_toDigits (port : ℕ) : ':' ∉ Nat.toDigits 10 port :=
  colon_notMem_of_digits fun _ hmem => isAsciiDigit_of_mem_toDigits hmem

theorem text_injective : Function.Injective text := by
  intro endpoint other htext
  have hlist := congrArg String.toList htext
  rw [toList_text, toList_text] at hlist
  have hsplit := congrArg (splitAtLast? ':') hlist
  rw [splitAtLast?_append (colon_notMem_toDigits _),
    splitAtLast?_append (colon_notMem_toDigits _), Option.some.injEq, Prod.mk.injEq] at hsplit
  obtain ⟨hshown, hdigits⟩ := hsplit
  have hhost : endpoint.host = other.host := String.toList_injective (shown_injective hshown)
  have hport := congrArg decimalValue hdigits
  rw [decimalValue_toDigits, decimalValue_toDigits] at hport
  cases endpoint
  cases other
  exact congr (congrArg Endpoint.mk hhost) hport

/-! ## Reading the text again -/

theorem readPort?_toDigits {port : ℕ} (hlow : 1 ≤ port) (hhigh : port ≤ 65535) :
    readPort? (Nat.toDigits 10 port) = some port :=
  readPort?_eq_some_iff.mpr
    ⟨Nat.toDigits_ne_nil, fun _ hmem => isAsciiDigit_of_mem_toDigits hmem,
      decimalValue_toDigits port, hlow, hhigh⟩

theorem readPort?_zero : readPort? (Nat.toDigits 10 0) = none := by
  rw [Option.eq_none_iff_forall_not_mem]
  intro port hport
  obtain ⟨-, -, hvalue, hlow, -⟩ := readPort?_eq_some_iff.mp hport
  rw [decimalValue_toDigits] at hvalue
  omega

/-- The host that comes back when the text of an endpoint is read. -/
def hostBack (host wildcardHost : String) : String :=
  if unbracket (shown host.toList) = [] then wildcardHost
  else String.ofList (unbracket (shown host.toList))

theorem parse?_text_eq (endpoint : Endpoint) (wildcardHost : String) :
    parse? endpoint.text wildcardHost =
      (readPort? (Nat.toDigits 10 endpoint.port)).map fun port =>
        ⟨hostBack endpoint.host wildcardHost, port⟩ :=
  parse?_append (colon_notMem_toDigits _) (toList_text endpoint) wildcardHost

theorem hostBack_of_colon {host : String} (hcolon : ':' ∈ host.toList) (wildcardHost : String) :
    hostBack host wildcardHost = host := by
  have hne : host.toList ≠ [] := List.ne_nil_of_mem hcolon
  unfold hostBack shown
  rw [if_pos hcolon, unbracket_bracketed, if_neg hne, String.ofList_toList]

theorem toList_bracketed (inner : String) :
    ("[" ++ inner ++ "]").toList = '[' :: (inner.toList ++ [']']) := by
  simp

theorem ne_bracketed (inner : String) : inner ≠ "[" ++ inner ++ "]" := by
  intro hsame
  have hlength := congrArg String.length hsame
  simp only [String.length_append] at hlength
  have hbracket : "[".length = 1 := rfl
  omega

theorem hostBack_bracketed
    {inner : String} (hcolon : ':' ∉ ("[" ++ inner ++ "]").toList) (wildcardHost : String) :
    hostBack ("[" ++ inner ++ "]") wildcardHost = if inner = "" then wildcardHost else inner := by
  unfold hostBack
  rw [shown_plain hcolon, toList_bracketed, unbracket_bracketed, String.ofList_toList]
  simp

theorem hostBack_plain
    {host : String} (hcolon : ':' ∉ host.toList)
    (hplain : ¬ ∃ inner, host = "[" ++ inner ++ "]") (wildcardHost : String) :
    hostBack host wildcardHost = if host = "" then wildcardHost else host := by
  have hlist : ∀ inner, host.toList ≠ '[' :: (inner ++ [']']) := by
    intro inner hbracketed
    refine hplain ⟨String.ofList inner, String.toList_injective ?_⟩
    rw [toList_bracketed, String.toList_ofList, hbracketed]
  unfold hostBack
  rw [shown_plain hcolon, unbracket_plain hlist, String.ofList_toList]
  simp

theorem hostBack_eq_iff {host wildcardHost : String} :
    hostBack host wildcardHost = host ↔
      ':' ∈ host.toList ∨ (host ≠ "" ∧ ¬ ∃ inner, host = "[" ++ inner ++ "]") ∨
        ((host = "" ∨ host = "[]") ∧ wildcardHost = host) := by
  by_cases hcolon : ':' ∈ host.toList
  · simp [hostBack_of_colon hcolon, hcolon]
  · by_cases hbracketed : ∃ inner, host = "[" ++ inner ++ "]"
    · simp only [hcolon, hbracketed, not_true_eq_false, and_false, false_or]
      obtain ⟨inner, rfl⟩ := hbracketed
      rw [hostBack_bracketed hcolon]
      by_cases hinner : inner = ""
      · subst hinner
        simp
      · have hempty : "[" ++ inner ++ "]" ≠ "" := by
          rw [ne_eq, ← String.toList_inj, toList_bracketed]
          simp
        have hpair : "[" ++ inner ++ "]" ≠ "[]" := by
          rw [ne_eq, ← String.toList_inj, toList_bracketed]
          simpa using hinner
        simp [hinner, hempty, hpair, ne_bracketed]
    · simp only [hcolon, hbracketed, not_false_eq_true, and_true, false_or]
      rw [hostBack_plain hcolon hbracketed]
      by_cases hhost : host = ""
      · simp [hhost]
      · simp [hhost]

/-- Reading the text of an endpoint gives the endpoint back exactly if its host has a colon, or
is neither empty nor in brackets, or names nothing and is the wildcard host itself.  In all
other cases another host comes back with the same port.  Port 0 cannot be read, and no two
endpoints have the same text. -/
theorem reads_back_where_possible :
    (∀ (endpoint : Endpoint) (wildcardHost : String),
      1 ≤ endpoint.port → endpoint.port ≤ 65535 →
      (parse? endpoint.text wildcardHost = some endpoint ↔
        ':' ∈ endpoint.host.toList ∨
          (endpoint.host ≠ "" ∧ ¬ ∃ inner, endpoint.host = "[" ++ inner ++ "]") ∨
          ((endpoint.host = "" ∨ endpoint.host = "[]") ∧ wildcardHost = endpoint.host)) ∧
      (parse? endpoint.text wildcardHost ≠ some endpoint →
        ∃ other, other ≠ endpoint.host ∧
          parse? endpoint.text wildcardHost = some ⟨other, endpoint.port⟩)) ∧
    (∀ (endpoint : Endpoint) (wildcardHost : String),
      endpoint.port = 0 → parse? endpoint.text wildcardHost = none) ∧
    Function.Injective text := by
  have hback : ∀ (endpoint : Endpoint) (wildcardHost : String),
      1 ≤ endpoint.port → endpoint.port ≤ 65535 →
        parse? endpoint.text wildcardHost =
          some ⟨hostBack endpoint.host wildcardHost, endpoint.port⟩ := by
    intro endpoint wildcardHost hlow hhigh
    rw [parse?_text_eq, readPort?_toDigits hlow hhigh]
    rfl
  refine ⟨?_, ?_, text_injective⟩
  · intro endpoint wildcardHost hlow hhigh
    have hsame : parse? endpoint.text wildcardHost = some endpoint ↔
        hostBack endpoint.host wildcardHost = endpoint.host := by
      rw [hback endpoint wildcardHost hlow hhigh, Option.some.injEq]
      constructor
      · exact fun heq => congrArg Endpoint.host heq
      · intro heq
        rw [heq]
    refine ⟨hsame.trans hostBack_eq_iff, ?_⟩
    intro hother
    exact ⟨_, mt hsame.mpr hother, hback endpoint wildcardHost hlow hhigh⟩
  · intro endpoint wildcardHost hzero
    rw [parse?_text_eq, hzero, readPort?_zero]
    rfl

/-- Brackets that belong to the host are taken away. -/
example : parse? (text ⟨"[x]", 80⟩) "0.0.0.0" = some ⟨"x", 80⟩ := by cbv

end Endpoint

end ResourceHandles
