/-!
# Tokens at the head of a text

Each function takes something from the head of a text and returns what follows
it, or `none` if the text starts otherwise.  Whatever follows a character or a
name is shorter than the text itself.
-/

namespace ResourceHandles.Text

def dropChar? (expected : Char) : List Char → Option (List Char)
  | [] => none
  | c :: rest => if c = expected then some rest else none

def dropWord? : List Char → List Char → Option (List Char)
  | [], text => some text
  | _ :: _, [] => none
  | w :: word, c :: text => if c = w then dropWord? word text else none

def isNameStart (c : Char) : Bool :=
  c.isAlpha || c == '_'

def isNameChar (c : Char) : Bool :=
  c.isAlphanum || c == '_'

/-- A name, as long as possible, and what follows it. -/
def takeName? : List Char → Option (List Char × List Char)
  | [] => none
  | c :: rest =>
    if isNameStart c then some (c :: rest.takeWhile isNameChar, rest.dropWhile isNameChar)
    else none

theorem length_of_dropChar? {expected : Char} {text rest : List Char}
    (hdrop : dropChar? expected text = some rest) : rest.length < text.length := by
  cases text with
  | nil => simp [dropChar?] at hdrop
  | cons c tail =>
    simp only [dropChar?] at hdrop
    split at hdrop
    · obtain rfl := Option.some.inj hdrop
      simp
    · simp at hdrop

theorem length_of_takeName? {text name rest : List Char}
    (htake : takeName? text = some (name, rest)) : rest.length < text.length := by
  cases text with
  | nil => simp [takeName?] at htake
  | cons c tail =>
    simp only [takeName?] at htake
    split at htake
    · obtain ⟨-, rfl⟩ := Prod.mk.inj (Option.some.inj htake)
      exact Nat.lt_succ_of_le (List.dropWhile_sublist isNameChar).length_le
    · simp at htake

/-- Dropping a word succeeds exactly on the texts that start with it. -/
theorem dropWord?_eq_some_iff {word text rest : List Char} :
    dropWord? word text = some rest ↔ text = word ++ rest := by
  induction word generalizing text with
  | nil => simp [dropWord?]
  | cons w word ih =>
    cases text with
    | nil => simp [dropWord?]
    | cons c tail =>
      by_cases hhead : c = w
      · simp [dropWord?, hhead, ih]
      · simp [dropWord?, hhead]

end ResourceHandles.Text
