import ResourceHandles.Text.Blank
import ResourceHandles.Text.Digit
import ResourceHandles.Text.Token
import Mathlib.Data.List.TakeWhile
import Mathlib.Tactic

/-!
# What the token functions take from a text

Every token function splits a text in two.  The lemmas of this file say which
splits these are: a run of characters of one class, as long as possible, and
behind it a text that does not go on with the class.  Both directions are
stated at once, so reading a text and writing one down are the same equation.

The classes that matter are blanks, names and decimal digits; they exclude one
another where one of them may follow another.
-/

namespace ResourceHandles.Text

/-- The text does not start with a character of the class. -/
def StopsAt (p : Char → Bool) (text : List Char) : Prop :=
  ∀ c ∈ text.head?, p c = false

theorem stopsAt_cons {p : Char → Bool} {c : Char} {rest : List Char} :
    StopsAt p (c :: rest) ↔ p c = false := by
  simp [StopsAt]

theorem stopsAt_dropWhile (p : Char → Bool) (text : List Char) :
    StopsAt p (text.dropWhile p) := by
  intro c hc
  have hhead := List.head?_dropWhile_not p text
  rw [Option.mem_def] at hc
  rw [hc] at hhead
  simpa using hhead

theorem takeWhile_append_of_stopsAt
    {p : Char → Bool} {run rest : List Char}
    (hrun : ∀ c ∈ run, p c = true) (hrest : StopsAt p rest) :
    (run ++ rest).takeWhile p = run ∧
      (run ++ rest).dropWhile p = rest := by
  rw [List.takeWhile_append_of_pos hrun, List.dropWhile_append_of_pos hrun]
  cases rest with
  | nil => simp
  | cons c tail =>
      have hstop : p c = false := stopsAt_cons.mp hrest
      simp [hstop]

theorem takeWhile_dropWhile_eq_iff
    {p : Char → Bool} {text run rest : List Char} :
    text.takeWhile p = run ∧ text.dropWhile p = rest ↔
      text = run ++ rest ∧ (∀ c ∈ run, p c = true) ∧ StopsAt p rest := by
  constructor
  · rintro ⟨rfl, rfl⟩
    refine ⟨(List.takeWhile_append_dropWhile).symm, ?_, stopsAt_dropWhile p text⟩
    intro c hc
    exact List.mem_takeWhile_imp hc
  · rintro ⟨rfl, hrun, hrest⟩
    exact takeWhile_append_of_stopsAt hrun hrest

/-! ## Blanks -/

/-- A text of blanks, possibly none. -/
def Blanks (text : List Char) : Prop :=
  ∀ c ∈ text, isBlank c = true

@[simp] theorem blanks_nil : Blanks [] := by
  intro c hc
  simp at hc

@[simp] theorem blanks_cons {c : Char} {rest : List Char} :
    Blanks (c :: rest) ↔ isBlank c = true ∧ Blanks rest := by
  simp [Blanks]

@[simp] theorem blanks_append {text other : List Char} :
    Blanks (text ++ other) ↔ Blanks text ∧ Blanks other := by
  simp [Blanks, or_imp, forall_and]

@[simp] theorem blanks_reverse {text : List Char} :
    Blanks text.reverse ↔ Blanks text := by
  simp [Blanks]

theorem skipBlanks_eq_iff {text rest : List Char} :
    skipBlanks text = rest ↔
      ∃ gap, text = gap ++ rest ∧ Blanks gap ∧ StopsAt isBlank rest := by
  constructor
  · intro hskip
    exact ⟨text.takeWhile isBlank,
      takeWhile_dropWhile_eq_iff.mp ⟨rfl, hskip⟩⟩
  · rintro ⟨gap, hsplit⟩
    exact (takeWhile_dropWhile_eq_iff.mpr hsplit).2

theorem skipBlanks_append
    {gap rest : List Char} (hgap : Blanks gap)
    (hrest : StopsAt isBlank rest) :
    skipBlanks (gap ++ rest) = rest :=
  skipBlanks_eq_iff.mpr ⟨gap, rfl, hgap, hrest⟩

theorem skipSomeBlanks?_eq_some_iff {text rest : List Char} :
    skipSomeBlanks? text = some rest ↔
      ∃ gap, text = gap ++ rest ∧ gap ≠ [] ∧ Blanks gap ∧
        StopsAt isBlank rest := by
  cases text with
  | nil =>
      constructor
      · intro hskip
        simp [skipSomeBlanks?] at hskip
      · rintro ⟨gap, hsplit, hne, -, -⟩
        have hgap : gap = [] := (List.append_eq_nil_iff.mp hsplit.symm).1
        exact (hne hgap).elim
  | cons c tail =>
      simp only [skipSomeBlanks?]
      constructor
      · intro hskip
        split at hskip
        next hblank =>
          obtain ⟨gap, hsplit, hgap, hrest⟩ :=
            skipBlanks_eq_iff.mp (Option.some.inj hskip)
          refine ⟨c :: gap, ?_, by simp, ?_, hrest⟩
          · rw [hsplit]
            rfl
          · exact blanks_cons.mpr ⟨hblank, hgap⟩
        next => simp at hskip
      · rintro ⟨gap, hsplit, hne, hgap, hrest⟩
        cases gap with
        | nil => exact (hne rfl).elim
        | cons d gap =>
            rw [List.cons_append, List.cons.injEq] at hsplit
            obtain ⟨rfl, rfl⟩ := hsplit
            rw [blanks_cons] at hgap
            rw [if_pos hgap.1, skipBlanks_append hgap.2 hrest]

/-! ## Trimming -/

theorem exists_eq_append_trim (text : List Char) :
    ∃ before after, text = before ++ trim text ++ after ∧
      Blanks before ∧ Blanks after := by
  have hskip : skipBlanks text = skipBlanks text := rfl
  obtain ⟨before, hsplit, hbefore, -⟩ := skipBlanks_eq_iff.mp hskip
  have hback :
      skipBlanks (skipBlanks text).reverse = skipBlanks (skipBlanks text).reverse := rfl
  obtain ⟨after, hreverse, hafter, -⟩ := skipBlanks_eq_iff.mp hback
  refine ⟨before, after.reverse, ?_, hbefore, blanks_reverse.mpr hafter⟩
  have htrim : skipBlanks text = trim text ++ after.reverse := by
    unfold trim dropTrailingBlanks
    rw [← List.reverse_append]
    rw [← List.reverse_eq_iff]
    exact hreverse
  rw [List.append_assoc, ← htrim]
  exact hsplit

theorem trim_append
    {before core after : List Char}
    (hbefore : Blanks before) (hafter : Blanks after)
    (hfirst : StopsAt isBlank core) (hlast : StopsAt isBlank core.reverse) :
    trim (before ++ core ++ after) = core := by
  unfold trim dropTrailingBlanks
  cases core with
  | nil =>
      have hblanks : Blanks (before ++ [] ++ after) := by
        simp [hbefore, hafter]
      have hskip : skipBlanks (before ++ [] ++ after) = [] := by
        exact skipBlanks_eq_iff.mpr
          ⟨_, (List.append_nil _).symm, hblanks, by simp [StopsAt]⟩
      rw [hskip]
      rfl
  | cons c rest =>
      have hskip :
          skipBlanks (before ++ (c :: rest) ++ after) =
            (c :: rest) ++ after := by
        rw [List.append_assoc]
        exact skipBlanks_append hbefore (stopsAt_cons.mpr (stopsAt_cons.mp hfirst))
      rw [hskip, List.reverse_append]
      have hback := skipBlanks_append (blanks_reverse.mpr hafter) hlast
      unfold skipBlanks at hback
      rw [hback, List.reverse_reverse]

theorem isEmpty_trim_iff {text : List Char} :
    (trim text).isEmpty = true ↔ Blanks text := by
  rw [List.isEmpty_iff]
  constructor
  · intro htrim
    obtain ⟨before, after, hsplit, hbefore, hafter⟩ :=
      exists_eq_append_trim text
    rw [hsplit, htrim]
    simp [hbefore, hafter]
  · intro hblanks
    have htrim : trim (text ++ [] ++ []) = [] :=
      trim_append hblanks blanks_nil (by simp [StopsAt]) (by simp [StopsAt])
    simpa using htrim

/-! ## Characters and names -/

theorem dropChar?_eq_some_iff {expected : Char} {text rest : List Char} :
    dropChar? expected text = some rest ↔ text = expected :: rest := by
  cases text with
  | nil => simp [dropChar?]
  | cons c tail =>
      by_cases hhead : c = expected <;> simp [dropChar?, hhead]

/-- A name: a letter or an underscore, then letters, digits and underscores. -/
def IsName (text : List Char) : Prop :=
  ∃ c rest, text = c :: rest ∧ isNameStart c = true ∧
    ∀ d ∈ rest, isNameChar d = true

theorem takeName?_eq_some_iff {text name rest : List Char} :
    takeName? text = some (name, rest) ↔
      text = name ++ rest ∧ IsName name ∧ StopsAt isNameChar rest := by
  cases text with
  | nil =>
      constructor
      · intro htake
        simp [takeName?] at htake
      · rintro ⟨hsplit, ⟨c, tail, rfl, -, -⟩, -⟩
        simp at hsplit
  | cons c tail =>
      simp only [takeName?]
      constructor
      · intro htake
        split at htake
        next hstart =>
          obtain ⟨rfl, rfl⟩ := Prod.mk.inj (Option.some.inj htake)
          have hread :
              tail.takeWhile isNameChar = tail.takeWhile isNameChar ∧
                tail.dropWhile isNameChar = tail.dropWhile isNameChar :=
            ⟨rfl, rfl⟩
          obtain ⟨hsplit, hrun, hrest⟩ := takeWhile_dropWhile_eq_iff.mp hread
          refine ⟨?_, ⟨c, _, rfl, hstart, hrun⟩, hrest⟩
          rw [List.cons_append, ← hsplit]
        next => simp at htake
      · rintro ⟨hsplit, ⟨d, run, rfl, hstart, hrun⟩, hrest⟩
        rw [List.cons_append, List.cons.injEq] at hsplit
        obtain ⟨rfl, rfl⟩ := hsplit
        obtain ⟨htake, hdrop⟩ := takeWhile_append_of_stopsAt hrun hrest
        rw [if_pos hstart, htake, hdrop]

/-! ## Classes that exclude one another -/

/-- The code points of the blanks. -/
def blankCodes : List Nat :=
  [0x09, 0x0A, 0x0B, 0x0C, 0x0D, 0x20, 0x85, 0xA0, 0x1680, 0x2000, 0x2001, 0x2002,
   0x2003, 0x2004, 0x2005, 0x2006, 0x2007, 0x2008, 0x2009, 0x200A, 0x2028, 0x2029,
   0x202F, 0x205F, 0x3000]

theorem isBlank_iff_mem_blankCodes (c : Char) :
    isBlank c = true ↔ c.toNat ∈ blankCodes := by
  simp only [isBlank, blankCodes, Bool.or_eq_true, Bool.and_eq_true,
    decide_eq_true_eq, beq_iff_eq, List.mem_cons, List.not_mem_nil, or_false]
  omega

/-- What holds of the twenty-five blanks holds of every blank. -/
theorem eq_of_isBlank
    {p : Char → Bool} {answer : Bool}
    (hcodes : ∀ code ∈ blankCodes, p (Char.ofNat code) = answer)
    {c : Char} (hblank : isBlank c = true) :
    p c = answer := by
  have hcode := hcodes c.toNat ((isBlank_iff_mem_blankCodes c).mp hblank)
  rwa [Char.ofNat_toNat] at hcode

theorem isDecimalDigit_eq_false_of_isBlank
    {c : Char} (hblank : isBlank c = true) :
    isDecimalDigit c = false :=
  eq_of_isBlank (by decide) hblank

theorem isNameChar_eq_false_of_isBlank
    {c : Char} (hblank : isBlank c = true) :
    isNameChar c = false :=
  eq_of_isBlank (by decide) hblank

theorem isBlank_eq_false_of_isNameStart
    {c : Char} (hstart : isNameStart c = true) :
    isBlank c = false := by
  by_contra hblank
  have hnot : isNameStart c = false :=
    eq_of_isBlank (by decide) (by simpa using hblank)
  rw [hnot] at hstart
  contradiction

theorem stopsAt_append_of_blanks
    {p : Char → Bool} (hclass : ∀ c, isBlank c = true → p c = false)
    {gap rest : List Char} (hgap : Blanks gap) (hrest : StopsAt p rest) :
    StopsAt p (gap ++ rest) := by
  cases gap with
  | nil => exact hrest
  | cons c gap =>
      rw [blanks_cons] at hgap
      exact stopsAt_cons.mpr (hclass c hgap.1)

theorem stopsAt_append_of_blanks_ne_nil
    {p : Char → Bool} (hclass : ∀ c, isBlank c = true → p c = false)
    {gap : List Char} (hne : gap ≠ []) (hgap : Blanks gap)
    (rest : List Char) :
    StopsAt p (gap ++ rest) := by
  cases gap with
  | nil => exact (hne rfl).elim
  | cons c gap =>
      rw [blanks_cons] at hgap
      exact stopsAt_cons.mpr (hclass c hgap.1)

end ResourceHandles.Text
