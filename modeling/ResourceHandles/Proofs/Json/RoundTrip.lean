import ResourceHandles.Json
import ResourceHandles.Proofs.Text.Tokens
import ResourceHandles.Proofs.Toml.Line

/-!
# Reading what was written

A value that is written over several lines is read back, whatever level it stands at and
whatever spaces stand around it.  Strings are read back character by character, each of them
with the escape that stands for it.  Only numbers that are kept as their text are left out:
such a text may be anything.
-/

namespace ResourceHandles.Json

open Text

variable {gap after rest : List Char}

/-! ## Spaces -/

/-- A text of spaces and line ends. -/
def Spaces (text : List Char) : Prop :=
  ∀ c ∈ text, isSpace c = true

theorem spaces_indentation (level : Nat) : Spaces (indentation level).toList := by
  intro c hmem
  rw [indentation, String.toList_ofList] at hmem
  rw [List.eq_of_mem_replicate hmem]
  rfl

theorem skipSpaces_append
    {text : List Char} (hgap : Spaces gap) (htext : StopsAt isSpace text) :
    skipSpaces (gap ++ text) = text :=
  takeWhile_append_of_stopsAt hgap htext |>.2

/-! ## Strings -/

theorem readStringFrom?_unicode
    {a b c d : Char} {unit : Nat} (hvalue : hexValue? [a, b, c, d] = some unit)
    (hunit : unit < 0xD800) (reversed rest : List Char) :
    readStringFrom? reversed ('\\' :: 'u' :: a :: b :: c :: d :: rest) =
      readStringFrom? (Char.ofNat unit :: reversed) rest := by
  have hhigh : isHighSurrogate unit = false := by
    simp [isHighSurrogate]
    omega
  have hlow : isLowSurrogate unit = false := by
    simp [isLowSurrogate]
    omega
  rw [readStringFrom?.eq_def]
  split
  · next heq => cases heq
  · next heq => cases heq
  · next heq =>
      -- A second escape follows; it is read on its own, as the first is no half of a pair.
      cases heq
      simp only [hvalue, hhigh, hlow, Bool.false_eq_true, if_false]
  · next heq =>
      cases heq
      simp only [hvalue, hhigh, hlow, Bool.or_false, Bool.false_eq_true, if_false]
  · next hshort heq =>
      cases heq
      exact absurd rfl (hshort a b c d rest rfl)
  · next hplain heq =>
      cases heq
      exact absurd rfl (hplain 'u' _ rfl)

theorem readStringFrom?_short
    {c escaped : Char} (hescape : shortEscape? c = some escaped) (reversed rest : List Char) :
    readStringFrom? reversed ('\\' :: c :: rest) =
      readStringFrom? (escaped :: reversed) rest := by
  have hother : c ≠ 'u' := by
    rintro rfl
    cases hescape
  rw [readStringFrom?.eq_def]
  split
  · next heq => cases heq
  · next heq => cases heq
  · next heq => exact absurd (List.cons.inj (List.cons.inj heq).2).1 hother
  · next heq => exact absurd (List.cons.inj (List.cons.inj heq).2).1 hother
  · next heq =>
      cases heq
      simp only [hescape]
  · next hplain heq =>
      cases heq
      exact absurd rfl (hplain c rest rfl)

theorem readStringFrom?_plain
    {c : Char} (hquote : c ≠ '"') (hbackslash : c ≠ '\\') (hcode : ¬ c.toNat < 0x20)
    (reversed rest : List Char) :
    readStringFrom? reversed (c :: rest) = readStringFrom? (c :: reversed) rest := by
  rw [readStringFrom?.eq_def]
  split
  · next heq => cases heq
  · next heq => exact absurd (List.cons.inj heq).1 hquote
  · next heq => exact absurd (List.cons.inj heq).1 hbackslash
  · next heq => exact absurd (List.cons.inj heq).1 hbackslash
  · next heq => exact absurd (List.cons.inj heq).1 hbackslash
  · next heq =>
      cases heq
      rw [if_neg hcode]

theorem hexValue?_lowerHexDigit
    {code : Nat} (hlt : code < 0x20) :
    hexValue? ['0', '0', lowerHexDigit (code / 16), lowerHexDigit (code % 16)] = some code := by
  interval_cases code <;> rfl

theorem readStringFrom?_escape (c : Char) (reversed rest : List Char) :
    readStringFrom? reversed (escape c ++ rest) = readStringFrom? (c :: reversed) rest := by
  unfold escape
  split_ifs with hquote hbackslash hback hfeed hline hreturn htab hcode
  · subst hquote
    exact readStringFrom?_short rfl reversed rest
  · subst hbackslash
    exact readStringFrom?_short rfl reversed rest
  · subst hback
    exact readStringFrom?_short rfl reversed rest
  · subst hfeed
    exact readStringFrom?_short rfl reversed rest
  · subst hline
    exact readStringFrom?_short rfl reversed rest
  · subst hreturn
    exact readStringFrom?_short rfl reversed rest
  · subst htab
    exact readStringFrom?_short rfl reversed rest
  · have hread :=
      readStringFrom?_unicode (hexValue?_lowerHexDigit hcode) (by omega) reversed rest
    rwa [Char.ofNat_toNat] at hread
  · exact readStringFrom?_plain hquote hbackslash hcode reversed rest

theorem readStringFrom?_escaped (text reversed rest : List Char) :
    readStringFrom? reversed (text.flatMap escape ++ '"' :: rest) =
      some (reversed.reverse ++ text, rest) := by
  induction text generalizing reversed with
  | nil =>
      rw [List.flatMap_nil, List.nil_append, readStringFrom?, List.append_nil]
  | cons c text ih =>
      rw [List.flatMap_cons, List.append_assoc, readStringFrom?_escape, ih]
      simp

theorem readString?_quote (text : String) (rest : List Char) :
    readString? ((quote text).toList ++ rest) = some (text, rest) := by
  have hshape :
      (quote text).toList ++ rest = '"' :: (text.toList.flatMap escape ++ '"' :: rest) := by
    simp [quote]
  rw [hshape, readString?, readStringFrom?_escaped]
  simp

/-! ## Numbers -/

/-- The characters that would be read as a part of the number before them. -/
def continuesNumber (c : Char) : Bool :=
  c.isDigit || c == '.' || c == 'e' || c == 'E'

theorem decimalValue_toDigits (n : Nat) : decimalValue (Nat.toDigits 10 n) = n := by
  have hfold : ∀ digits value,
      List.foldl (fun value (c : Char) => value * 10 + (c.toNat - '0'.toNat)) value digits =
        Nat.ofDigitChars 10 digits value := by
    intro digits
    induction digits with
    | nil => simp
    | cons c digits ih =>
        intro value
        rw [List.foldl_cons, ih, Nat.ofDigitChars_cons, Nat.mul_comm]
  unfold decimalValue
  rw [hfold]
  exact Nat.ofDigitChars_toDigits (by omega) (by omega)

theorem takeWhole?_toDigits
    (n : Nat) (hrest : StopsAt continuesNumber rest) :
    takeWhole? (Nat.toDigits 10 n ++ rest) = some (Nat.toDigits 10 n, rest) := by
  have hstop : StopsAt Char.isDigit rest := by
    intro c hc
    have hnone := hrest c hc
    unfold continuesNumber at hnone
    simp only [Bool.or_eq_false_iff] at hnone
    exact hnone.1.1.1
  obtain ⟨htake, hdrop⟩ :=
    takeWhile_append_of_stopsAt (fun c hmem => Toml.isDigit_of_mem (n := n) hmem) hstop
  obtain ⟨d, digits, heq, hdigit⟩ := Toml.exists_toDigits_eq_cons n
  unfold takeWhole?
  split
  · next tail hzero =>
      -- A number that starts with a zero is zero, so nothing of it follows.
      obtain rfl : n = 0 := by
        by_contra hne
        apply Toml.head_toDigits_ne_zero (Nat.pos_of_ne_zero hne)
        rw [heq] at hzero ⊢
        rw [(List.cons.inj hzero).1]
        rfl
      obtain rfl : tail = rest := by simpa using hzero.symm
      split
      · next c later =>
          rw [stopsAt_cons.mp hstop]
          rfl
      · rfl
  · rw [htake, hdrop, heq]
    rfl

theorem toList_toString (value : Int) :
    (∃ n : Nat, value = n ∧ (toString value).toList = Nat.toDigits 10 n) ∨
      ∃ n : Nat, n ≠ 0 ∧ value = -(n : Int) ∧
        (toString value).toList = '-' :: Nat.toDigits 10 n := by
  rw [Int.toString_eq_repr, Int.repr_eq_if]
  split
  · next hnonneg =>
      obtain ⟨n, rfl⟩ := Int.eq_ofNat_of_zero_le hnonneg
      exact .inl ⟨n, rfl, by simp⟩
  · next hneg =>
      obtain ⟨n, hn⟩ := Int.eq_ofNat_of_zero_le (Int.neg_nonneg.mpr (Int.le_of_not_le hneg))
      obtain rfl : value = -(n : Int) := by omega
      exact .inr ⟨n, by omega, rfl, by simp⟩

theorem skipFraction?_of_stopsAt
    (hrest : StopsAt continuesNumber rest) : skipFraction? rest = some rest := by
  unfold skipFraction?
  split
  · exact absurd (stopsAt_cons.mp hrest) (by decide)
  · rfl

theorem skipExponent?_of_stopsAt
    (hrest : StopsAt continuesNumber rest) : skipExponent? rest = some rest := by
  unfold skipExponent?
  split
  · next c tail =>
      rw [if_neg]
      rintro (rfl | rfl)
      · exact absurd (stopsAt_cons.mp hrest) (by decide)
      · exact absurd (stopsAt_cons.mp hrest) (by decide)
  · rfl

theorem readNumber?_toString
    (value : Int) (hrest : StopsAt continuesNumber rest) :
    readNumber? ((toString value).toList ++ rest) = some (.integer value, rest) := by
  rcases toList_toString value with ⟨n, rfl, htext⟩ | ⟨n, hne, rfl, htext⟩
  · rw [htext]
    unfold readNumber?
    split
    next negative unsigned hsign =>
    split at hsign
    · next tail hminus =>
        obtain ⟨d, digits, heq, hdigit⟩ := Toml.exists_toDigits_eq_cons n
        rw [heq] at hminus
        obtain rfl := (List.cons.inj hminus).1
        exact absurd hdigit (by decide)
    · obtain ⟨rfl, rfl⟩ := Prod.mk.inj hsign
      simp [takeWhole?_toDigits n hrest, skipFraction?_of_stopsAt hrest,
        skipExponent?_of_stopsAt hrest, decimalValue_toDigits]
  · rw [htext]
    unfold readNumber?
    simp [takeWhole?_toDigits n hrest, skipFraction?_of_stopsAt hrest,
      skipExponent?_of_stopsAt hrest, decimalValue_toDigits, hne]

/-! ## Values -/

mutual

/-- Whether a value holds no number that is kept as its text. -/
def IsExact : Json → Prop
  | .null => True
  | .bool _ => True
  | .integer _ => True
  | .decimal _ => False
  | .string _ => True
  | .array items => AreExact items
  | .object members => MembersAreExact members

def AreExact : List Json → Prop
  | [] => True
  | item :: items => IsExact item ∧ AreExact items

def MembersAreExact : List (String × Json) → Prop
  | [] => True
  | (_, value) :: members => IsExact value ∧ MembersAreExact members

end

/-- The lines between two brackets. -/
def between (level : Nat) (lines : List String) : List Char :=
  [',', '\n'].intercalate (lines.map fun line => (indentation level).toList ++ line.toList)

theorem between_singleton (level : Nat) (line : String) :
    between level [line] = (indentation level).toList ++ line.toList := by
  simp [between]

theorem between_cons_cons (level : Nat) (line next : String) (lines : List String) :
    between level (line :: next :: lines) =
      (indentation level).toList ++
        (line.toList ++ (',' :: '\n' :: between level (next :: lines))) := by
  simp [between]

theorem toList_bracketed
    {lines : List String} (hne : lines ≠ []) (level : Nat) (opening closing : String) :
    (bracketed level opening closing lines).toList =
      opening.toList ++ ('\n' :: (between (level + 1) lines ++
        ('\n' :: ((indentation level).toList ++ closing.toList)))) := by
  simp [bracketed, between, hne, List.map_map, Function.comp_def]

theorem prettyItems_ne_nil
    {items : List Json} (hne : items ≠ []) (level : Nat) : prettyItems level items ≠ [] := by
  cases items with
  | nil => exact absurd rfl hne
  | cons item items => simp [prettyItems]

theorem prettyMembers_ne_nil
    {members : List (String × Json)} (hne : members ≠ []) (level : Nat) :
    prettyMembers level members ≠ [] := by
  cases members with
  | nil => exact absurd rfl hne
  | cons member members => simp [prettyMembers]

theorem exists_quote_eq_cons (text : String) :
    ∃ tail, (quote text).toList = '"' :: tail :=
  ⟨text.toList.flatMap escape ++ ['"'], by simp [quote]⟩

theorem exists_toString_eq_cons (value : Int) :
    ∃ c tail, (toString value).toList = c :: tail ∧ (c.isDigit = true ∨ c = '-') := by
  rcases toList_toString value with ⟨n, -, htext⟩ | ⟨n, -, -, htext⟩
  · obtain ⟨d, digits, heq, hdigit⟩ := Toml.exists_toDigits_eq_cons n
    exact ⟨d, digits, htext.trans heq, .inl hdigit⟩
  · exact ⟨'-', _, htext, .inr rfl⟩

/-- The text of a value starts with a character that is neither a space nor a bracket that
closes an array. -/
theorem exists_pretty_eq_cons
    {value : Json} (hexact : value.IsExact) (level : Nat) :
    ∃ c tail, (pretty level value).toList = c :: tail ∧ isSpace c = false ∧ c ≠ ']' := by
  cases value with
  | null => exact ⟨'n', ['u', 'l', 'l'], by simp [pretty], rfl, by decide⟩
  | bool value =>
      cases value with
      | true => exact ⟨'t', ['r', 'u', 'e'], by simp [pretty], rfl, by decide⟩
      | false => exact ⟨'f', ['a', 'l', 's', 'e'], by simp [pretty], rfl, by decide⟩
  | integer value =>
      obtain ⟨c, tail, htext, hstart⟩ := exists_toString_eq_cons value
      refine ⟨c, tail, by rw [pretty, htext], ?_, ?_⟩
      · by_contra hspace
        simp only [isSpace, Bool.not_eq_false, Bool.or_eq_true, beq_iff_eq] at hspace
        rcases hspace with ((rfl | rfl) | rfl) | rfl <;> exact absurd hstart (by decide)
      · rintro rfl
        exact absurd hstart (by decide)
  | decimal text => exact hexact.elim
  | string value =>
      obtain ⟨tail, htext⟩ := exists_quote_eq_cons value
      exact ⟨'"', tail, by rw [pretty, htext], rfl, by decide⟩
  | array items =>
      by_cases hnil : prettyItems (level + 1) items = []
      · exact ⟨'[', [']'], by simp [pretty, bracketed, hnil], rfl, by decide⟩
      · have htext := toList_bracketed hnil level "[" "]"
        exact ⟨'[', _, by rw [pretty]; exact htext, rfl, by decide⟩
  | object members =>
      by_cases hnil : prettyMembers (level + 1) members = []
      · exact ⟨'\x7b', ['\x7d'], by simp [pretty, bracketed, hnil], rfl, by decide⟩
      · have htext := toList_bracketed hnil level "\x7b" "\x7d"
        exact ⟨'\x7b', _, by rw [pretty]; exact htext, rfl, by decide⟩

theorem stopsAt_pretty
    {value : Json} (hexact : value.IsExact) (level : Nat) (rest : List Char) :
    StopsAt isSpace ((pretty level value).toList ++ rest) := by
  obtain ⟨c, tail, htext, hspace, -⟩ := exists_pretty_eq_cons hexact level
  rw [htext]
  exact stopsAt_cons.mpr hspace

/-! ## One value -/

theorem readValue?_skip
    {text : List Char} (hgap : Spaces gap) (htext : StopsAt isSpace text) (depth : Nat) :
    readValue? depth (gap ++ text) = readValue? depth text := by
  have hnone : skipSpaces ([] ++ text) = text := skipSpaces_append (by simp [Spaces]) htext
  rw [List.nil_append] at hnone
  cases depth with
  | zero => rw [readValue?, readValue?]
  | succ depth => rw [readValue?, readValue?, skipSpaces_append hgap htext, hnone]

theorem readValue?_string (depth : Nat) (value : String) (rest : List Char) :
    readValue? (depth + 1) ((quote value).toList ++ rest) = some (.string value, rest) := by
  have hread := readString?_quote value rest
  obtain ⟨tail, htext⟩ := exists_quote_eq_cons value
  rw [htext, List.cons_append] at hread ⊢
  have hskip : skipSpaces ('"' :: (tail ++ rest)) = '"' :: (tail ++ rest) := rfl
  rw [readValue?, hskip]
  simp only [hread, Option.map_some]

theorem readValue?_integer
    (depth : Nat) (value : Int) (hrest : StopsAt continuesNumber rest) :
    readValue? (depth + 1) ((toString value).toList ++ rest) = some (.integer value, rest) := by
  have hread := readNumber?_toString value hrest
  have hstop := @stopsAt_pretty (.integer value) trivial 0 rest
  obtain ⟨c, tail, htext, hstart⟩ := exists_toString_eq_cons value
  rw [pretty] at hstop
  have hskip := @skipSpaces_append [] _ (by simp [Spaces]) hstop
  rw [List.nil_append] at hskip
  rw [readValue?, hskip]
  rw [htext, List.cons_append] at hread ⊢
  have hhead : ∀ d later, c :: (tail ++ rest) = d :: later → d.isDigit = true ∨ d = '-' := by
    rintro d later heq
    rw [← (List.cons.inj heq).1]
    exact hstart
  split
  · next heq => exact absurd (hhead _ _ heq) (by decide)
  · next heq => exact absurd (hhead _ _ heq) (by decide)
  · next heq => exact absurd (hhead _ _ heq) (by decide)
  · next heq => exact absurd (hhead _ _ heq) (by decide)
  · next heq => exact absurd (hhead _ _ heq) (by decide)
  · next heq => exact absurd (hhead _ _ heq) (by decide)
  · exact hread

theorem readValue?_array
    {depth : Nat} {items : List Json} {text : List Char}
    (hclosing : (skipSpaces text).head? ≠ some ']')
    (hread : readItems? depth text = some (items, rest)) :
    readValue? (depth + 1) ('[' :: text) = some (.array items, rest) := by
  have hskip : skipSpaces ('[' :: text) = '[' :: text := rfl
  rw [readValue?, hskip]
  simp only
  split
  · next heq =>
      rw [heq] at hclosing
      exact absurd rfl hclosing
  · rw [hread]
    rfl

theorem readValue?_object
    {depth : Nat} {members : List (String × Json)} {text : List Char}
    (hclosing : (skipSpaces text).head? ≠ some '\x7d')
    (hread : readMembers? depth text = some (members, rest)) :
    readValue? (depth + 1) ('\x7b' :: text) = some (.object members, rest) := by
  have hskip : skipSpaces ('\x7b' :: text) = '\x7b' :: text := rfl
  rw [readValue?, hskip]
  simp only
  split
  · next heq =>
      rw [heq] at hclosing
      exact absurd rfl hclosing
  · rw [hread]
    rfl

/-! ## Items and members -/

theorem readItems?_last
    {depth : Nat} {item : Json} {text : List Char} (hgap : Spaces gap)
    (hvalue : readValue? depth text = some (item, gap ++ ']' :: rest)) :
    readItems? (depth + 1) text = some ([item], rest) := by
  have hskip : skipSpaces (gap ++ ']' :: rest) = ']' :: rest :=
    skipSpaces_append hgap (stopsAt_cons.mpr rfl)
  rw [readItems?, hvalue]
  simp only [hskip]

theorem readItems?_next
    {depth : Nat} {item : Json} {items : List Json} {text later : List Char}
    (hvalue : readValue? depth text = some (item, ',' :: later))
    (hread : readItems? depth later = some (items, rest)) :
    readItems? (depth + 1) text = some (item :: items, rest) := by
  have hskip : skipSpaces (',' :: later) = ',' :: later := rfl
  rw [readItems?, hvalue]
  simp only [hskip, hread, Option.map_some]

theorem readMembers?_last
    {depth : Nat} (name : String) {value : Json} {before text : List Char}
    (hbefore : Spaces before) (hgap : Spaces gap)
    (hvalue : readValue? depth text = some (value, gap ++ '\x7d' :: rest)) :
    readMembers? (depth + 1) (before ++ ((quote name).toList ++ ':' :: text)) =
      some ([(name, value)], rest) := by
  have hname := readString?_quote name (':' :: text)
  have hskip : skipSpaces (gap ++ '\x7d' :: rest) = '\x7d' :: rest :=
    skipSpaces_append hgap (stopsAt_cons.mpr rfl)
  have hcolon : skipSpaces (':' :: text) = ':' :: text := rfl
  have hfirst : skipSpaces (before ++ ((quote name).toList ++ ':' :: text)) =
      (quote name).toList ++ ':' :: text := by
    obtain ⟨tail, htext⟩ := exists_quote_eq_cons name
    rw [htext]
    exact skipSpaces_append hbefore (stopsAt_cons.mpr rfl)
  rw [readMembers?, hfirst, hname]
  simp only [hcolon, hvalue, hskip]

theorem readMembers?_next
    {depth : Nat} (name : String) {value : Json} {members : List (String × Json)}
    {before text later : List Char} (hbefore : Spaces before)
    (hvalue : readValue? depth text = some (value, ',' :: later))
    (hread : readMembers? depth later = some (members, rest)) :
    readMembers? (depth + 1) (before ++ ((quote name).toList ++ ':' :: text)) =
      some ((name, value) :: members, rest) := by
  have hname := readString?_quote name (':' :: text)
  have hskip : skipSpaces (',' :: later) = ',' :: later := rfl
  have hcolon : skipSpaces (':' :: text) = ':' :: text := rfl
  have hfirst : skipSpaces (before ++ ((quote name).toList ++ ':' :: text)) =
      (quote name).toList ++ ':' :: text := by
    obtain ⟨tail, htext⟩ := exists_quote_eq_cons name
    rw [htext]
    exact skipSpaces_append hbefore (stopsAt_cons.mpr rfl)
  rw [readMembers?, hfirst, hname]
  simp only [hcolon, hvalue, hskip, hread, Option.map_some]

/-! ## All values -/

theorem spaces_feed (level : Nat) : Spaces ('\n' :: (indentation level).toList) := by
  have hspaces := spaces_indentation level
  exact List.forall_mem_cons.mpr ⟨rfl, hspaces⟩

/-- The first character of the lines that is no space is the first of the first line. -/
theorem head_skipSpaces_between
    {line : String} {c : Char} {tail : List Char} (hline : line.toList = c :: tail)
    (hspace : isSpace c = false) (level : Nat) (lines : List String) (rest : List Char) :
    (skipSpaces ('\n' :: (between level (line :: lines) ++ rest))).head? = some c := by
  have hshape : ∃ later, '\n' :: (between level (line :: lines) ++ rest) =
      '\n' :: (indentation level).toList ++ (c :: later) := by
    cases lines with
    | nil => exact ⟨tail ++ rest, by simp [between_singleton, hline]⟩
    | cons next lines => exact ⟨_, by rw [between_cons_cons, hline]; simp; rfl⟩
  obtain ⟨later, hlater⟩ := hshape
  rw [hlater, skipSpaces_append (spaces_feed level) (stopsAt_cons.mpr hspace)]
  rfl

theorem stopsAt_closing
    {c : Char} (hgap : Spaces gap) (hclosing : continuesNumber c = false) :
    StopsAt continuesNumber (gap ++ c :: rest) := by
  cases gap with
  | nil => exact stopsAt_cons.mpr hclosing
  | cons d gap =>
      have hspace := hgap d List.mem_cons_self
      simp only [isSpace, Bool.or_eq_true, beq_iff_eq] at hspace
      apply stopsAt_cons.mpr
      rcases hspace with ((rfl | rfl) | rfl) | rfl <;> rfl

/-- Values are read back wherever their text stands, as long as no number goes on behind it. -/
def ReadsValues (depth : Nat) : Prop :=
  ∀ (value : Json) (level : Nat) (rest : List Char), value.IsExact →
    StopsAt continuesNumber rest → (pretty level value).toList.length < depth →
      readValue? depth ((pretty level value).toList ++ rest) = some (value, rest)

/-- The items of an array are read back with the bracket behind them. -/
def ReadsItems (depth : Nat) : Prop :=
  ∀ (item : Json) (items : List Json) (level : Nat) (gap rest : List Char), item.IsExact →
    AreExact items → Spaces gap →
      (between level (prettyItems level (item :: items))).length + 1 < depth →
        readItems? depth ('\n' :: (between level (prettyItems level (item :: items)) ++
          (gap ++ ']' :: rest))) = some (item :: items, rest)

/-- The members of an object are read back with the brace behind them. -/
def ReadsMembers (depth : Nat) : Prop :=
  ∀ (name : String) (value : Json) (members : List (String × Json)) (level : Nat)
    (gap rest : List Char), value.IsExact → MembersAreExact members → Spaces gap →
      (between level (prettyMembers level ((name, value) :: members))).length + 1 < depth →
        readMembers? depth ('\n' :: (between level (prettyMembers level ((name, value) :: members))
          ++ (gap ++ '\x7d' :: rest))) = some ((name, value) :: members, rest)

theorem readsValues_succ
    {depth : Nat} (hitems : ReadsItems depth) (hmembers : ReadsMembers depth) :
    ReadsValues (depth + 1) := by
  intro value level rest hexact hrest hdepth
  match value with
  | .null => simp [pretty, readValue?, skipSpaces, isSpace, dropWord?]
  | .bool true => simp [pretty, readValue?, skipSpaces, isSpace, dropWord?]
  | .bool false => simp [pretty, readValue?, skipSpaces, isSpace, dropWord?]
  | .integer value => exact readValue?_integer depth value hrest
  | .decimal text => exact hexact.elim
  | .string value => exact readValue?_string depth value rest
  | .array [] => simp [pretty, prettyItems, bracketed, readValue?, skipSpaces, isSpace]
  | .array (item :: items) =>
      have htext := toList_bracketed (prettyItems_ne_nil (List.cons_ne_nil item items) (level + 1))
        level "[" "]"
      rw [pretty, htext] at hdepth ⊢
      simp only [List.length_append, List.length_cons] at hdepth
      have hread := hitems item items (level + 1) _ rest hexact.1 hexact.2 (spaces_feed level)
        (by omega)
      obtain ⟨c, tail, hitem, hspace, hclosing⟩ := exists_pretty_eq_cons hexact.1 (level + 1)
      have hvalue := readValue?_array ?_ hread
      · simpa using hvalue
      · rw [prettyItems, head_skipSpaces_between hitem hspace]
        simpa using hclosing
  | .object [] => simp [pretty, prettyMembers, bracketed, readValue?, skipSpaces, isSpace]
  | .object ((name, value) :: members) =>
      have htext := toList_bracketed
        (prettyMembers_ne_nil (List.cons_ne_nil (name, value) members) (level + 1))
        level "\x7b" "\x7d"
      rw [pretty, htext] at hdepth ⊢
      simp only [List.length_append, List.length_cons] at hdepth
      have hread := hmembers name value members (level + 1) _ rest hexact.1 hexact.2
        (spaces_feed level) (by omega)
      have hmember : ∃ tail, (quote name ++ ": " ++ pretty (level + 1) value).toList =
          '"' :: tail := by
        obtain ⟨tail, hquote⟩ := exists_quote_eq_cons name
        exact ⟨_, by rw [String.toList_append, String.toList_append, hquote]; rfl⟩
      obtain ⟨tail, hmember⟩ := hmember
      have hvalue := readValue?_object ?_ hread
      · simpa using hvalue
      · rw [prettyMembers, head_skipSpaces_between hmember rfl]
        decide

theorem readsItems_succ
    {depth : Nat} (hvalues : ReadsValues depth) (hitems : ReadsItems depth) :
    ReadsItems (depth + 1) := by
  intro item items level gap rest hexact hlater hgap hdepth
  cases items with
  | nil =>
      rw [prettyItems, prettyItems, between_singleton] at hdepth ⊢
      rw [List.length_append] at hdepth
      have hvalue := hvalues item level (gap ++ ']' :: rest) hexact
        (stopsAt_closing hgap (by decide)) (by omega)
      rw [← readValue?_skip (spaces_feed level) (stopsAt_pretty hexact level _)] at hvalue
      have hread := readItems?_last hgap hvalue
      simpa using hread
  | cons next items =>
      rw [prettyItems, prettyItems, between_cons_cons] at hdepth ⊢
      simp only [List.length_append, List.length_cons] at hdepth
      have hrest := hitems next items level gap rest hlater.1 hlater.2 hgap
        (by rw [prettyItems]; omega)
      rw [prettyItems] at hrest
      have hvalue := hvalues item level (',' :: '\n' :: (between level
        (pretty level next :: prettyItems level items) ++ (gap ++ ']' :: rest))) hexact
        (stopsAt_cons.mpr (by decide)) (by omega)
      rw [← readValue?_skip (spaces_feed level) (stopsAt_pretty hexact level _)] at hvalue
      have hread := readItems?_next hvalue hrest
      simpa using hread

theorem readsMembers_succ
    {depth : Nat} (hvalues : ReadsValues depth) (hmembers : ReadsMembers depth) :
    ReadsMembers (depth + 1) := by
  intro name value members level gap rest hexact hlater hgap hdepth
  have hspace : Spaces [' '] := by simp [Spaces, isSpace]
  cases members with
  | nil =>
      rw [prettyMembers, prettyMembers, between_singleton] at hdepth ⊢
      simp only [String.toList_append, List.length_append] at hdepth
      have hvalue := hvalues value level (gap ++ '\x7d' :: rest) hexact
        (stopsAt_closing hgap (by decide)) (by omega)
      rw [← readValue?_skip hspace (stopsAt_pretty hexact level _)] at hvalue
      have hread := readMembers?_last name (spaces_feed level) hgap hvalue
      simpa using hread
  | cons member members =>
      obtain ⟨next, later⟩ := member
      rw [prettyMembers, prettyMembers, between_cons_cons] at hdepth ⊢
      simp only [String.toList_append, List.length_append, List.length_cons] at hdepth
      have hrest := hmembers next later members level gap rest hlater.1 hlater.2 hgap
        (by rw [prettyMembers]; omega)
      rw [prettyMembers] at hrest
      have hvalue := hvalues value level (',' :: '\n' :: (between level
        ((quote next ++ ": " ++ pretty level later) :: prettyMembers level members) ++
          (gap ++ '\x7d' :: rest))) hexact (stopsAt_cons.mpr (by decide)) (by omega)
      rw [← readValue?_skip hspace (stopsAt_pretty hexact level _)] at hvalue
      have hread := readMembers?_next name (spaces_feed level) hvalue hrest
      simpa using hread

/-- The three readers call each other with a smaller bound, so the induction is on the bound. -/
theorem reads_all (depth : Nat) : ReadsValues depth ∧ ReadsItems depth ∧ ReadsMembers depth := by
  induction depth with
  | zero =>
      refine ⟨?_, ?_, ?_⟩
      · intro value level rest _ _ hdepth
        exact absurd hdepth (Nat.not_lt_zero _)
      · intro item items level gap rest _ _ _ hdepth
        exact absurd hdepth (Nat.not_lt_zero _)
      · intro name value members level gap rest _ _ _ hdepth
        exact absurd hdepth (Nat.not_lt_zero _)
  | succ depth ih =>
      obtain ⟨hvalues, hitems, hmembers⟩ := ih
      exact ⟨readsValues_succ hitems hmembers, readsItems_succ hvalues hitems,
        readsMembers_succ hvalues hmembers⟩

/-- Reading the text of a value gives the value again. -/
theorem parse?_pretty
    {value : Json} (hexact : value.IsExact) (level : Nat) {after : String}
    (hafter : Spaces after.toList) :
    parse? (pretty level value ++ after) = some value := by
  have hstop : StopsAt continuesNumber after.toList := by
    have hnone : StopsAt continuesNumber (after.toList ++ ['\n']) :=
      stopsAt_closing hafter (by decide)
    intro c hc
    apply hnone c
    rw [List.head?_append, hc]
    rfl
  have hread := (reads_all (2 * (pretty level value ++ after).length + 2)).1 value level
    after.toList hexact hstop (by rw [String.length_append, String.length_toList]; omega)
  have hend : skipSpaces after.toList = [] := List.dropWhile_eq_nil_iff.mpr hafter
  rw [parse?, String.toList_append, hread]
  simp [hend]

end ResourceHandles.Json
