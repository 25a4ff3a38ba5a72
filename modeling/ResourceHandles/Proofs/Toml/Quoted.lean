import ResourceHandles.Proofs.Text.Tokens
import ResourceHandles.Toml.Quoted

/-!
# Strings are read as they were written

Writing chooses one of four forms, and each of them is read back by a reader of its own.
A character is written either as itself or as an escape, and both readers of escapes undo
one such piece at a time.  Between triples of quotes a single quote or two of them stand
for themselves, so what has to be excluded is that three come together before the end.
-/

namespace ResourceHandles.Toml

open Text

variable {c : Char} {text rest : List Char}

/-! ## Escapes -/

theorem hexValue?_of_lt
    {n : Nat} (hlt : n < 128) :
    hexValue? ['0', '0', upperHexDigit (n / 16), upperHexDigit (n % 16)] = some n := by
  revert n
  decide

theorem charOf?_toNat (c : Char) : charOf? c.toNat = some c := by
  have hvalid : c.toNat.isValidChar := c.valid
  rw [charOf?, if_pos hvalid, Char.ofNat_toNat]

theorem takeEscape?_hex (hlt : c.toNat < 128) :
    takeEscape?
        ('u' :: '0' :: '0' :: upperHexDigit (c.toNat / 16) :: upperHexDigit (c.toNat % 16) ::
          rest) =
      some (c, rest) := by
  simp only [takeEscape?]
  rw [hexValue?_of_lt hlt, Option.bind_some, charOf?_toNat]
  rfl

theorem takeEscape?_quote (rest : List Char) : takeEscape? ('"' :: rest) = some ('"', rest) :=
  rfl

theorem lt_of_needsEscape (hescape : needsEscape c = true) : c.toNat < 128 := by
  simp only [needsEscape, Bool.or_eq_true, Bool.and_eq_true, decide_eq_true_eq,
    beq_iff_eq] at hescape
  omega

theorem isPlain_of_needsEscape
    (hescape : needsEscape c = false) (hfeed : c ≠ '\n') : isPlain c = true := by
  simp only [needsEscape, isPlain] at hescape ⊢
  by_cases htab : c = '\t'
  · simp [htab]
  · simp [htab, hfeed] at hescape ⊢
    omega

/-- What is written for a character: the character itself, or a backslash and something
that is read as the character. -/
theorem escape_cases (multiline : Bool) (c : Char) :
    (escape multiline c = [c] ∧ c ≠ '\\' ∧ c ≠ '\r' ∧
      (isPlain c = true ∨ (multiline = true ∧ c = '\n'))) ∨
    ∃ code, escape multiline c = '\\' :: code ∧
      ∀ rest, takeEscape? (code ++ rest) = some (c, rest) ∧ endsLine (code ++ rest) = false := by
  unfold escape
  split_ifs with hbackspace htab hform hreturn hbackslash hfeed hmultiline hescape
  · exact Or.inr ⟨['b'], rfl, fun rest => ⟨by rw [hbackspace]; rfl, rfl⟩⟩
  · exact Or.inr ⟨['t'], rfl, fun rest => ⟨by rw [htab]; rfl, rfl⟩⟩
  · exact Or.inr ⟨['f'], rfl, fun rest => ⟨by rw [hform]; rfl, rfl⟩⟩
  · exact Or.inr ⟨['r'], rfl, fun rest => ⟨by rw [hreturn]; rfl, rfl⟩⟩
  · exact Or.inr ⟨['\\'], rfl, fun rest => ⟨by rw [hbackslash]; rfl, rfl⟩⟩
  · exact Or.inl ⟨by rw [hfeed], hbackslash, hreturn, Or.inr ⟨hmultiline, hfeed⟩⟩
  · exact Or.inr ⟨['n'], rfl, fun rest => ⟨by rw [hfeed]; rfl, rfl⟩⟩
  · exact Or.inr ⟨_, rfl, fun rest => ⟨takeEscape?_hex (lt_of_needsEscape hescape), rfl⟩⟩
  · refine Or.inl ⟨rfl, hbackslash, hreturn, Or.inl (isPlain_of_needsEscape ?_ hfeed)⟩
    simpa using hescape

/-- What is written for a text starts with a quotation mark only if the text does, and if
quotation marks still stand for themselves. -/
theorem exists_escapeAll_cons
    (multiline : Bool) (run : Nat) (c : Char) (text : List Char) :
    ∃ first rest, escapeAll multiline run (c :: text) = first :: rest ∧
      (first = '"' → c = '"' ∧ multiline = true ∧ run < 2) ∧ (first = '\n' → c = '\n') ∧
        first ≠ '\r' := by
  rw [escapeAll]
  split
  · next hquote =>
      split
      · next hkept =>
          simp only [Bool.and_eq_true, decide_eq_true_eq] at hkept
          exact ⟨_, _, rfl, fun _ => ⟨hquote, hkept⟩, by simp, by simp⟩
      · exact ⟨_, _, rfl, by simp, by simp, by simp⟩
  · next hquote =>
      rcases escape_cases multiline c with ⟨hself, -, hreturn, -⟩ | ⟨code, hcode, -⟩
      · rw [hself]
        exact ⟨_, _, rfl, fun hfirst => absurd hfirst hquote, id, hreturn⟩
      · rw [hcode]
        exact ⟨_, _, rfl, by simp, by simp, by simp⟩

/-! ## Between single quotes -/

theorem readBasic?_escaped
    {after : List Char} (htake : takeEscape? rest = some (c, after)) :
    readBasic? ('\\' :: rest) = (readBasic? after).map (prepend c) := by
  rw [readBasic?]
  split
  · next hnone =>
      rw [htake] at hnone
      cases hnone
  · next hsome =>
      rw [htake] at hsome
      cases hsome
      rfl

theorem readBasic?_plain
    (hquote : c ≠ '"') (hbackslash : c ≠ '\\') (hplain : isPlain c = true) :
    readBasic? (c :: rest) = (readBasic? rest).map (prepend c) := by
  rw [readBasic?]
  · rw [if_pos hplain]
  · exact hquote
  · exact hbackslash

theorem readBasic?_escapeAll (run : Nat) (text rest : List Char) :
    readBasic? (escapeAll false run text ++ '"' :: rest) = some (text, rest) := by
  induction text generalizing run with
  | nil => rw [escapeAll, List.nil_append, readBasic?]
  | cons c text ih =>
      rw [escapeAll]
      split
      · next hquote =>
          simp only [Bool.false_and, Bool.false_eq_true, if_false, List.cons_append]
          rw [readBasic?_escaped (takeEscape?_quote _), ih, hquote]
          rfl
      · next hquote =>
          rw [List.append_assoc]
          rcases escape_cases false c with ⟨hself, hbackslash, -, hplain⟩ | ⟨code, hcode, htake⟩
          · have hplain : isPlain c = true := by simpa using hplain
            rw [hself, List.singleton_append, readBasic?_plain hquote hbackslash hplain, ih]
            rfl
          · rw [hcode, List.cons_append, readBasic?_escaped (htake _).1, ih]
            rfl

theorem readLiteral?_append
    (hplain : ∀ c ∈ text, isPlain c = true) (hquote : '\'' ∉ text) (rest : List Char) :
    readLiteral? (text ++ '\'' :: rest) = some (text, rest) := by
  induction text with
  | nil => rw [List.nil_append, readLiteral?]
  | cons c text ih =>
      rw [List.forall_mem_cons] at hplain
      rw [List.mem_cons, not_or] at hquote
      rw [List.cons_append, readLiteral?, if_pos hplain.1, ih hplain.2 hquote.2]
      · rfl
      · exact fun hc => hquote.1 hc.symm

/-! ## Between triples of quotation marks -/

theorem readMultilineBasic?_escaped
    {after : List Char} (hends : endsLine rest = false)
    (htake : takeEscape? rest = some (c, after)) :
    readMultilineBasic? ('\\' :: rest) = (readMultilineBasic? after).map (prepend c) := by
  rw [readMultilineBasic?, if_neg (by simp [hends])]
  split
  · next hnone =>
      rw [htake] at hnone
      cases hnone
  · next hsome =>
      rw [htake] at hsome
      cases hsome
      rfl

theorem readMultilineBasic?_self
    (hclosing : ¬['"', '"', '"'] <+: c :: rest) (hbackslash : c ≠ '\\') (hreturn : c ≠ '\r')
    (hplain : isPlain c = true ∨ c = '\n') :
    readMultilineBasic? (c :: rest) = (readMultilineBasic? rest).map (prepend c) := by
  rw [readMultilineBasic?.eq_def]
  split
  · next heq => cases heq
  · next heq =>
      rw [heq] at hclosing
      simp at hclosing
  · next heq =>
      rw [heq] at hclosing
      simp at hclosing
  · next heq =>
      rw [heq] at hclosing
      simp at hclosing
  · next heq =>
      cases heq
      exact absurd rfl hbackslash
  · next heq =>
      cases heq
      exact absurd rfl hreturn
  · next heq =>
      cases heq
      rw [if_pos]
      simpa using hplain

/-- The closing quotation marks, with up to two others before them. -/
theorem readMultilineBasic?_closing
    (hrest : StopsAt (· == '"') rest) :
    readMultilineBasic? ('"' :: '"' :: '"' :: rest) = some ([], rest) ∧
      readMultilineBasic? ('"' :: '"' :: '"' :: '"' :: rest) = some (['"'], rest) ∧
        readMultilineBasic? ('"' :: '"' :: '"' :: '"' :: '"' :: rest) =
          some (['"', '"'], rest) := by
  have hother : ∀ tail, rest ≠ '"' :: tail := by
    rintro tail rfl
    exact absurd (stopsAt_cons.mp hrest) (by decide)
  refine ⟨?_, ?_, ?_⟩
  · rw [readMultilineBasic?.eq_4]
    · exact fun tail heq => hother _ heq
    · exact fun tail heq => hother _ heq
  · rw [readMultilineBasic?.eq_3]
    exact fun tail heq => hother _ heq
  · rw [readMultilineBasic?]

/-- A quotation mark that stands for itself is not taken for the end of the string, unless
the string is about to end. -/
theorem not_closing_of_kept
    {run : Nat} (hmore : text ≠ []) (hlast : ¬(run = 0 ∧ text = ['"'])) (rest : List Char) :
    ¬['"', '"', '"'] <+: '"' :: (escapeAll true (run + 1) text ++ rest) := by
  intro hclosing
  have hsecond := (List.cons_prefix_cons.mp hclosing).2
  cases text with
  | nil => exact hmore rfl
  | cons c text =>
      obtain ⟨first, others, heq, hquote, -, -⟩ := exists_escapeAll_cons true (run + 1) c text
      rw [heq, List.cons_append] at hsecond
      obtain ⟨hfirst, hthird⟩ := List.cons_prefix_cons.mp hsecond
      obtain ⟨rfl, -, hrun⟩ := hquote hfirst.symm
      obtain rfl : run = 0 := by omega
      rw [escapeAll, if_pos rfl] at heq
      simp only [Nat.zero_add, Bool.true_and, Nat.one_lt_ofNat, decide_true, if_true,
        List.cons.injEq] at heq
      cases text with
      | nil => exact hlast ⟨rfl, rfl⟩
      | cons d text =>
          obtain ⟨next, _, hnext, hquote', -, -⟩ := exists_escapeAll_cons true 2 d text
          rw [← heq.2, hnext, List.cons_append] at hthird
          obtain ⟨-, -, hlt⟩ := hquote' (List.cons_prefix_cons.mp hthird).1.symm
          exact absurd hlt (by omega)

theorem readMultilineBasic?_escapeAll
    (hrest : StopsAt (· == '"') rest) {run : Nat} (hrun : run ≤ 2) (text : List Char) :
    readMultilineBasic? (escapeAll true run text ++ '"' :: '"' :: '"' :: rest) =
      some (text, rest) := by
  induction text generalizing run with
  | nil => exact (readMultilineBasic?_closing hrest).1
  | cons c text ih =>
      rw [escapeAll]
      split
      · next hquote =>
          simp only [Bool.true_and, decide_eq_true_eq]
          split
          · next hkept =>
              by_cases hend : text = []
              · rw [hend, hquote]
                exact (readMultilineBasic?_closing hrest).2.1
              by_cases hlast : run = 0 ∧ text = ['"']
              · rw [hlast.1, hlast.2, hquote]
                exact (readMultilineBasic?_closing hrest).2.2
              rw [List.cons_append,
                readMultilineBasic?_self (not_closing_of_kept hend hlast _) (by decide)
                  (by decide) (Or.inl (by decide)), ih (by omega), hquote]
              rfl
          · rw [List.cons_append, List.cons_append,
              readMultilineBasic?_escaped rfl (takeEscape?_quote _), ih (Nat.zero_le _), hquote]
            rfl
      · next hquote =>
          rw [List.append_assoc]
          rcases escape_cases true c with
            ⟨hself, hbackslash, hreturn, hplain⟩ | ⟨code, hcode, htake⟩
          · have hclosing : ¬['"', '"', '"'] <+:
                c :: (escapeAll true 0 text ++ '"' :: '"' :: '"' :: rest) := by
              intro hclosed
              exact hquote (List.cons_prefix_cons.mp hclosed).1.symm
            rw [hself, List.singleton_append,
              readMultilineBasic?_self hclosing hbackslash hreturn (by simpa using hplain),
              ih (Nat.zero_le _)]
            rfl
          · obtain ⟨htaken, hends⟩ := htake
              (escapeAll true 0 text ++ '"' :: '"' :: '"' :: rest)
            rw [hcode, List.cons_append, readMultilineBasic?_escaped hends htaken,
              ih (Nat.zero_le _)]
            rfl

/-! ## Between triples of apostrophes -/

theorem le_longestRunFrom (counted : Char) (run longest : Nat) (text : List Char) :
    run ≤ longestRunFrom counted run longest text ∧
      longest ≤ longestRunFrom counted run longest text := by
  induction text generalizing run longest with
  | nil => simp [longestRunFrom]
  | cons c text ih =>
      rw [longestRunFrom]
      split
      · exact ⟨(Nat.le_succ run).trans (ih (run + 1) longest).1, (ih (run + 1) longest).2⟩
      · have hmax := (ih 0 (max run longest)).2
        exact ⟨(Nat.le_max_left _ _).trans hmax, (Nat.le_max_right _ _).trans hmax⟩

theorem three_le_longestRunFrom
    (counted : Char) (run longest : Nat) (before after : List Char) :
    3 ≤ longestRunFrom counted run longest
      (before ++ counted :: counted :: counted :: after) := by
  induction before generalizing run longest with
  | nil =>
      simp only [List.nil_append, longestRunFrom, if_true]
      have hrun := (le_longestRunFrom counted (run + 1 + 1 + 1) longest after).1
      omega
  | cons c before ih =>
      rw [List.cons_append, longestRunFrom]
      split
      · exact ih (run + 1) longest
      · exact ih 0 (max run longest)

theorem untripled_of_longestRun
    {counted : Char} (hrun : longestRun counted text ≤ 2) :
    ¬[counted, counted, counted] <:+: text := by
  rintro ⟨before, after, rfl⟩
  have hthree := three_le_longestRunFrom counted 0 0 before after
  simp only [longestRun, List.append_assoc, List.cons_append, List.nil_append] at hrun
  omega

theorem readMultilineLiteral?_self
    (hclosing : ¬['\'', '\'', '\''] <+: c :: rest) (hreturn : c ≠ '\r')
    (hplain : isPlain c = true ∨ c = '\n') :
    readMultilineLiteral? (c :: rest) = (readMultilineLiteral? rest).map (prepend c) := by
  rw [readMultilineLiteral?.eq_def]
  split
  · next heq => cases heq
  · next heq =>
      rw [heq] at hclosing
      simp at hclosing
  · next heq =>
      rw [heq] at hclosing
      simp at hclosing
  · next heq =>
      rw [heq] at hclosing
      simp at hclosing
  · next heq =>
      cases heq
      exact absurd rfl hreturn
  · next heq =>
      cases heq
      rw [if_pos]
      simpa using hplain

theorem readMultilineLiteral?_closing
    (hrest : StopsAt (· == '\'') rest) :
    readMultilineLiteral? ('\'' :: '\'' :: '\'' :: rest) = some ([], rest) ∧
      readMultilineLiteral? ('\'' :: '\'' :: '\'' :: '\'' :: rest) = some (['\''], rest) ∧
        readMultilineLiteral? ('\'' :: '\'' :: '\'' :: '\'' :: '\'' :: rest) =
          some (['\'', '\''], rest) := by
  have hother : ∀ tail, rest ≠ '\'' :: tail := by
    rintro tail rfl
    exact absurd (stopsAt_cons.mp hrest) (by decide)
  refine ⟨?_, ?_, ?_⟩
  · rw [readMultilineLiteral?.eq_4]
    · exact fun tail heq => hother _ heq
    · exact fun tail heq => hother _ heq
  · rw [readMultilineLiteral?.eq_3]
    exact fun tail heq => hother _ heq
  · rw [readMultilineLiteral?]

theorem not_closing_of_untripled
    (htriple : ¬['\'', '\'', '\''] <:+: c :: text)
    (hend : ¬(c = '\'' ∧ (text = [] ∨ text = ['\''])))  (rest : List Char) :
    ¬['\'', '\'', '\''] <+: c :: (text ++ rest) := by
  intro hclosing
  obtain ⟨rfl, hsecond⟩ := List.cons_prefix_cons.mp hclosing
  match text with
  | [] => exact hend ⟨rfl, Or.inl rfl⟩
  | [d] =>
      obtain ⟨rfl, -⟩ := List.cons_prefix_cons.mp hsecond
      exact hend ⟨rfl, Or.inr rfl⟩
  | d :: e :: after =>
      obtain ⟨rfl, hthird⟩ := List.cons_prefix_cons.mp hsecond
      obtain ⟨rfl, -⟩ := List.cons_prefix_cons.mp hthird
      exact htriple ⟨[], after, rfl⟩

theorem readMultilineLiteral?_append
    (hrest : StopsAt (· == '\'') rest) (htriple : ¬['\'', '\'', '\''] <:+: text)
    (hplain : ∀ c ∈ text, isPlain c = true ∨ c = '\n') (hreturn : '\r' ∉ text) :
    readMultilineLiteral? (text ++ '\'' :: '\'' :: '\'' :: rest) = some (text, rest) := by
  induction text with
  | nil => exact (readMultilineLiteral?_closing hrest).1
  | cons c text ih =>
      rw [List.forall_mem_cons] at hplain
      rw [List.mem_cons, not_or] at hreturn
      by_cases hend : c = '\'' ∧ (text = [] ∨ text = ['\''])
      · obtain ⟨rfl, rfl | rfl⟩ := hend
        · exact (readMultilineLiteral?_closing hrest).2.1
        · exact (readMultilineLiteral?_closing hrest).2.2
      have hinner : ¬['\'', '\'', '\''] <:+: text :=
        fun htripled => htriple (htripled.trans (List.suffix_cons c text).isInfix)
      rw [List.cons_append,
        readMultilineLiteral?_self (not_closing_of_untripled htriple hend _)
          (fun hc => hreturn.1 hc.symm) hplain.1, ih hinner hplain.2 hreturn.2]
      rfl

/-! ## All forms -/

theorem plain_of_formOf
    (hescapes : text.any needsEscape = false) :
    (∀ c ∈ text, isPlain c = true ∨ c = '\n') ∧ '\r' ∉ text := by
  simp only [List.any_eq_false] at hescapes
  constructor
  · intro c hmem
    by_cases hfeed : c = '\n'
    · exact Or.inr hfeed
    · exact Or.inl (isPlain_of_needsEscape (by simpa using hescapes c hmem) hfeed)
  · intro hmem
    exact hescapes _ hmem (by decide)

theorem formOf_literal
    (hform : formOf text = .literal) :
    text.any needsEscape = false ∧ '\'' ∉ text ∧ '\n' ∉ text := by
  unfold formOf at hform
  dsimp only at hform
  split_ifs at hform with hbasic hliteral
  simpa [and_assoc] using hliteral

theorem formOf_multilineLiteral
    (hform : formOf text = .multilineLiteral) :
    text.any needsEscape = false ∧ longestRun '\'' text ≤ 2 := by
  unfold formOf at hform
  dsimp only at hform
  split_ifs at hform with hbasic hliteral hmultiline hmultilineLiteral
  simpa using hmultilineLiteral

theorem dropNewline_leadingNewline
    (hfeed : '\n' ∉ text → ∀ tail, rest ≠ '\n' :: tail) (hreturn : ∀ tail, rest ≠ '\r' :: tail) :
    dropNewline (leadingNewline text ++ rest) = rest := by
  unfold leadingNewline
  split
  · rfl
  · next hnone =>
      rw [List.nil_append, dropNewline]
      · exact fun tail => hfeed (by simpa using hnone) tail
      · exact fun tail => hreturn _

theorem readString?_basic
    (hopening : ∀ tail, rest ≠ '"' :: '"' :: tail) :
    readString? ('"' :: rest) = readBasic? rest := by
  rw [readString?]
  exact fun tail heq => hopening tail heq

theorem readString?_literal
    (hopening : ∀ tail, rest ≠ '\'' :: '\'' :: tail) :
    readString? ('\'' :: rest) = readLiteral? rest := by
  rw [readString?]
  exact fun tail heq => hopening tail heq

theorem readString?_writeAs_basic
    (hrest : StopsAt (· == '"') rest) (text : List Char) :
    readString? (writeAs text .basic ++ rest) = some (text, rest) := by
  have hopening : ∀ tail, escapeAll false 0 text ++ '"' :: rest ≠ '"' :: '"' :: tail := by
    intro tail heq
    cases text with
    | nil =>
        cases heq
        exact absurd (stopsAt_cons.mp hrest) (by decide)
    | cons c text =>
        obtain ⟨first, others, hcons, hquote, -⟩ := exists_escapeAll_cons false 0 c text
        rw [hcons] at heq
        obtain ⟨-, hfalse, -⟩ := hquote (List.cons.inj heq).1
        cases hfalse
  simp only [writeAs, List.cons_append, List.append_assoc, List.nil_append]
  rw [readString?_basic hopening, readBasic?_escapeAll]

theorem readString?_writeAs_literal
    (hrest : StopsAt (· == '\'') rest) (hescapes : text.any needsEscape = false)
    (hquote : '\'' ∉ text) (hfeed : '\n' ∉ text) :
    readString? (writeAs text .literal ++ rest) = some (text, rest) := by
  have hopening : ∀ tail, text ++ '\'' :: rest ≠ '\'' :: '\'' :: tail := by
    intro tail heq
    cases text with
    | nil =>
        cases heq
        exact absurd (stopsAt_cons.mp hrest) (by decide)
    | cons c text =>
        obtain ⟨rfl, -⟩ := List.cons.inj heq
        exact hquote List.mem_cons_self
  have hplain : ∀ c ∈ text, isPlain c = true := by
    intro c hmem
    rcases (plain_of_formOf hescapes).1 c hmem with hplain | rfl
    · exact hplain
    · exact absurd hmem hfeed
  simp only [writeAs, List.cons_append, List.append_assoc, List.nil_append]
  rw [readString?_literal hopening, readLiteral?_append hplain hquote]

theorem readString?_writeAs_multilineBasic
    (hrest : StopsAt (· == '"') rest) (text : List Char) :
    readString? (writeAs text .multilineBasic ++ rest) = some (text, rest) := by
  have hhead : ∀ first tail, escapeAll true 0 text ++ '"' :: '"' :: '"' :: rest = first :: tail →
      (first = '\n' → '\n' ∈ text) ∧ first ≠ '\r' := by
    intro first tail heq
    cases text with
    | nil =>
        cases heq
        simp
    | cons c text =>
        obtain ⟨first', others, hcons, -, hfeed, hreturn⟩ := exists_escapeAll_cons true 0 c text
        rw [hcons] at heq
        obtain ⟨rfl, -⟩ := List.cons.inj heq
        refine ⟨fun hfirst => ?_, hreturn⟩
        rw [hfeed hfirst]
        exact List.mem_cons_self
  simp only [writeAs, List.cons_append, List.append_assoc, List.nil_append]
  rw [readString?, dropNewline_leadingNewline, readMultilineBasic?_escapeAll hrest
    (Nat.zero_le _)]
  · exact fun hnone tail heq => hnone ((hhead _ _ heq).1 rfl)
  · exact fun tail heq => (hhead _ _ heq).2 rfl

theorem readString?_writeAs_multilineLiteral
    (hrest : StopsAt (· == '\'') rest) (hescapes : text.any needsEscape = false)
    (hrun : longestRun '\'' text ≤ 2) :
    readString? (writeAs text .multilineLiteral ++ rest) = some (text, rest) := by
  obtain ⟨hplain, hreturn⟩ := plain_of_formOf hescapes
  have hhead : ∀ first tail, text ++ '\'' :: '\'' :: '\'' :: rest = first :: tail →
      first ∈ text ∨ first = '\'' := by
    intro first tail heq
    cases text with
    | nil =>
        cases heq
        exact Or.inr rfl
    | cons c text =>
        obtain ⟨rfl, -⟩ := List.cons.inj heq
        exact Or.inl List.mem_cons_self
  simp only [writeAs, List.cons_append, List.append_assoc, List.nil_append]
  rw [readString?, dropNewline_leadingNewline, readMultilineLiteral?_append hrest
    (untripled_of_longestRun hrun) hplain hreturn]
  · intro hnone tail heq
    exact (hhead _ _ heq).elim hnone (by decide)
  · intro tail heq
    exact (hhead _ _ heq).elim hreturn (by decide)

/-- A string that was written is read back, whatever follows it but quotes. -/
theorem readString?_writeString
    (hrest : StopsAt (fun c => c == '"' || c == '\'') rest) (text : List Char) :
    readString? (writeString text ++ rest) = some (text, rest) := by
  have hbasicRest : StopsAt (· == '"') rest :=
    fun c hc => (Bool.or_eq_false_iff.mp (hrest c hc)).1
  have hliteralRest : StopsAt (· == '\'') rest :=
    fun c hc => (Bool.or_eq_false_iff.mp (hrest c hc)).2
  unfold writeString
  cases hform : formOf text with
  | basic => exact readString?_writeAs_basic hbasicRest text
  | literal =>
      obtain ⟨hescapes, hquote, hfeed⟩ := formOf_literal hform
      exact readString?_writeAs_literal hliteralRest hescapes hquote hfeed
  | multilineBasic => exact readString?_writeAs_multilineBasic hbasicRest text
  | multilineLiteral =>
      obtain ⟨hescapes, hrun⟩ := formOf_multilineLiteral hform
      exact readString?_writeAs_multilineLiteral hliteralRest hescapes hrun

end ResourceHandles.Toml
