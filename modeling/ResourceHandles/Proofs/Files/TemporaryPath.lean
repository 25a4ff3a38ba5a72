import ResourceHandles.Configuration
import ResourceHandles.Proofs.Text.Pieces

/-!
# The path of the temporary file

The temporary file lies beside the file it stands in for, under another name: its name
has one more extension than the stem of the other one, and that stem has no extension
left.  If no name can be given, the path leads up the tree and is no file at all.
-/

namespace ResourceHandles

namespace Path

variable {path : Path} {front : List (List Char)} {name last : List Char}

/-! ## Paths and their pieces -/

theorem pieces_ofPieces
    {pieces : List (List Char)} (hpieces : ∀ piece ∈ pieces, '/' ∉ piece) (hne : pieces ≠ [])
    (hroot : pieces ≠ [[]]) : (ofPieces pieces).pieces = pieces := by
  unfold ofPieces Path.pieces
  rw [if_neg hroot, String.toList_ofList]
  exact Text.splitOn_joinWith hpieces hne

theorem notMem_of_pieces (hpieces : path.pieces = front ++ [last]) :
    (∀ piece ∈ front, '/' ∉ piece) ∧ '/' ∉ last := by
  have hall : ∀ piece ∈ path.pieces, '/' ∉ piece :=
    fun piece hmem => Text.notMem_of_mem_splitOn hmem
  rw [hpieces, List.forall_mem_append, List.forall_mem_singleton] at hall
  exact hall

theorem dropIdle_concat (hcounts : counts last = true) :
    dropIdle (front ++ [last]) = front ++ [last] := by
  cases front with
  | nil => rfl
  | cons piece front => simp [dropIdle, hcounts]

theorem fileName?_of_pieces
    (hpieces : path.pieces = front ++ [last]) (hcounts : counts last = true) :
    path.fileName? = if last = ['.', '.'] then none else some last := by
  have hother : last ≠ [] ∧ last ≠ ['.'] := by simpa [counts] using hcounts
  unfold fileName?
  rw [hpieces, dropIdle_concat hcounts, List.getLast?_concat]
  simp [hother.1, hother.2]

/-! ## Stems -/

/-- The stem of a name without its extension is the stem of the name. -/
theorem stem_take (name : List Char) :
    let cut := name.take (name.length - (extension name).length)
    stem cut = stem name ∧ (cut = name ∨ ∃ before, before ≠ [] ∧ cut = before ++ ['.']) := by
  intro cut
  have hwhole : extension name = [] → cut = name := by
    intro hnone
    show name.take (name.length - (extension name).length) = name
    rw [hnone, List.length_nil, Nat.sub_zero, List.take_length]
  cases hsplit : Text.splitAtLast? '.' name with
  | none =>
      have hcut := hwhole (by rw [extension, hsplit])
      exact ⟨by rw [hcut], Or.inl hcut⟩
  | some parts =>
      obtain ⟨before, after⟩ := parts
      obtain ⟨hname, hafter⟩ := Text.splitAtLast?_eq_some hsplit
      by_cases hempty : before = []
      · have hcut := hwhole (by simp [extension, hsplit, hempty])
        exact ⟨by rw [hcut], Or.inl hcut⟩
      · have hextension : extension name = after := by simp [extension, hsplit, hempty]
        have hcut : cut = before ++ ['.'] := by
          show name.take (name.length - (extension name).length) = before ++ ['.']
          rw [hextension, hname, List.append_cons, List.length_append, Nat.add_sub_cancel,
            List.take_left]
        refine ⟨?_, Or.inr ⟨before, hempty, hcut⟩⟩
        have hshort : Text.splitAtLast? '.' (before ++ ['.']) = some (before, []) :=
          Text.splitAtLast?_append List.not_mem_nil
        rw [hcut, stem, hshort, stem, hsplit]
        simp [hempty]

theorem stem_subset (name : List Char) : stem name ⊆ name := by
  unfold stem
  split
  · next before after hsplit =>
      obtain ⟨hname, -⟩ := Text.splitAtLast?_eq_some hsplit
      split
      · exact List.Subset.refl _
      · rw [hname]
        exact List.subset_append_left _ _
  · exact List.Subset.refl _

theorem toList_toml_tmp :
    "toml.tmp".toList = ['t', 'o', 'm', 'l', '.', 't', 'm', 'p'] := by
  decide

/-- A name is not made of its stem and two extensions. -/
theorem stem_append_ne (name : List Char) : stem name ++ '.' :: "toml.tmp".toList ≠ name := by
  intro hsame
  cases hsplit : Text.splitAtLast? '.' name with
  | none =>
      rw [stem, hsplit] at hsame
      simp at hsame
  | some parts =>
      obtain ⟨before, after⟩ := parts
      obtain ⟨hname, hafter⟩ := Text.splitAtLast?_eq_some hsplit
      by_cases hempty : before = []
      · rw [stem, hsplit] at hsame
        simp [hempty] at hsame
      · have hstem : stem name = before := by simp [stem, hsplit, hempty]
        rw [hstem] at hsame
        have hextension := List.append_cancel_left (hsame.trans hname)
        rw [List.cons.injEq] at hextension
        apply hafter
        rw [← hextension.2, toList_toml_tmp]
        simp

/-! ## The temporary path -/

/-- A path whose last piece is a name loses the extension of that name. -/
theorem pieces_cutExtension
    (hpieces : path.pieces = front ++ [name]) (hname : path.fileName? = some name) :
    path.cutExtension.pieces =
      front ++ [name.take (name.length - (extension name).length)] := by
  obtain ⟨before, htext, hlast⟩ := Text.exists_of_splitOn hpieces
  have hextension : (extension name).length ≤ name.length := by
    unfold extension
    split
    · next front back hsplit =>
        obtain ⟨hwhole, -⟩ := Text.splitAtLast?_eq_some hsplit
        split
        · exact Nat.zero_le _
        · rw [hwhole, List.length_append, List.length_cons]
          omega
    · exact Nat.zero_le _
  unfold cutExtension Path.pieces
  rw [hname, String.toList_ofList, htext, List.length_append, Option.map_some, Option.getD_some,
    Nat.add_sub_assoc hextension, List.take_length_add_append]
  apply hlast
  intro hmem
  exact (notMem_of_pieces hpieces).2 (List.mem_of_mem_take hmem)

theorem counts_temporary (stem : List Char) :
    counts (stem ++ '.' :: "toml.tmp".toList) = true ∧
      stem ++ '.' :: "toml.tmp".toList ≠ ['.', '.'] := by
  have hlength : 9 ≤ (stem ++ '.' :: "toml.tmp".toList).length := by
    rw [List.length_append, toList_toml_tmp]
    simp
  generalize stem ++ '.' :: "toml.tmp".toList = name at hlength
  constructor
  · unfold counts
    rw [Bool.and_eq_true, bne_iff_ne, bne_iff_ne]
    constructor
    · rintro rfl
      simp at hlength
    · rintro rfl
      simp at hlength
  · rintro rfl
    simp at hlength

theorem pieces_temporary
    (hfront : ∀ piece ∈ front, '/' ∉ piece) (hname : '/' ∉ name) :
    (ofPieces (front ++ [stem name ++ '.' :: "toml.tmp".toList])).pieces =
      front ++ [stem name ++ '.' :: "toml.tmp".toList] := by
  apply pieces_ofPieces
  · intro piece hmem
    rcases List.mem_append.mp hmem with hold | hnew
    · exact hfront piece hold
    · rw [List.mem_singleton.mp hnew, List.mem_append, not_or, toList_toml_tmp]
      exact ⟨fun hslash => hname (stem_subset name hslash), by simp⟩
  · simp
  · intro hroot
    have hlast := congrArg List.getLast? hroot
    simp at hlast

/-- The temporary path has another name in the place of the last one, or goes up. -/
theorem pieces_withExtension
    (hpieces : path.pieces = front ++ [name]) (hname : path.fileName? = some name)
    (hcounts : counts name = true) :
    (path.withExtension "toml.tmp").pieces = front ++ [stem name ++ '.' :: "toml.tmp".toList] ∨
      (path.withExtension "toml.tmp").pieces = front ++ [['.', '.']] ∧
        (path.withExtension "toml.tmp").fileName? = none := by
  have hcut := pieces_cutExtension hpieces hname
  obtain ⟨hstem, hshape⟩ := stem_take name
  generalize name.take (name.length - (extension name).length) = cut at hcut hstem hshape
  have hcutCounts : counts cut = true := by
    rcases hshape with rfl | ⟨before, hbefore, rfl⟩
    · exact hcounts
    · simp [counts, hbefore]
  have hcutName := fileName?_of_pieces hcut hcutCounts
  unfold withExtension
  by_cases hup : cut = ['.', '.']
  · rw [if_pos hup] at hcutName
    simp only [hcutName]
    exact Or.inr ⟨by rw [hcut, hup], trivial⟩
  · rw [if_neg hup] at hcutName
    simp only [hcutName]
    left
    obtain ⟨hfront, hlast⟩ := notMem_of_pieces hpieces
    rw [hcut, dropIdle_concat hcutCounts, List.dropLast_concat, hstem]
    exact pieces_temporary hfront hlast

/-! ## Another name -/

theorem mem_of_mem_dropIdle {pieces : List (List Char)} {piece : List Char}
    (hmem : piece ∈ dropIdle pieces) : piece ∈ pieces := by
  cases pieces with
  | nil => cases hmem
  | cons first rest =>
      rcases List.mem_cons.mp hmem with rfl | hrest
      · exact List.mem_cons_self
      · rw [List.mem_reverse] at hrest
        have hsuffix := List.dropWhile_suffix (l := rest.reverse) fun piece => !counts piece
        exact List.mem_cons_of_mem _ (List.mem_reverse.mp (hsuffix.subset hrest))

/-- The temporary path is never the path itself, unless that names no file. -/
theorem withExtension_ne (hname : path.fileName? = some name) :
    path.withExtension "toml.tmp" ≠ path := by
  intro hsame
  cases hcut : path.cutExtension.fileName? with
  | none =>
      have hup : path.withExtension "toml.tmp" = path.cutExtension := by
        unfold withExtension
        simp only [hcut]
      rw [← hup, hsame, hname] at hcut
      cases hcut
  | some cut =>
      have hcutMem : cut ∈ path.cutExtension.pieces := by
        unfold fileName? at hcut
        split at hcut
        · cases hcut
        · next last hlast =>
            split at hcut
            · cases hcut
            · cases hcut
              exact mem_of_mem_dropIdle (List.mem_of_getLast? hlast)
      have hfront :
          ∀ piece ∈ (dropIdle path.cutExtension.pieces).dropLast, '/' ∉ piece := by
        intro piece hmem
        exact Text.notMem_of_mem_splitOn (mem_of_mem_dropIdle (List.mem_of_mem_dropLast hmem))
      have hpieces : path.pieces =
          (dropIdle path.cutExtension.pieces).dropLast ++
            [stem cut ++ '.' :: "toml.tmp".toList] := by
        rw [← pieces_temporary hfront (Text.notMem_of_mem_splitOn hcutMem)]
        conv_lhs => rw [← hsame]
        unfold withExtension
        simp only [hcut]
      obtain ⟨hcounts, hnotUp⟩ := counts_temporary (stem cut)
      have htemporary := fileName?_of_pieces hpieces hcounts
      rw [if_neg hnotUp] at htemporary
      rcases pieces_withExtension hpieces htemporary hcounts with hnext | ⟨-, hup⟩
      · rw [hsame, hpieces] at hnext
        have hlast := List.append_cancel_left hnext
        exact stem_append_ne _ (List.cons.inj hlast).1.symm
      · rw [hsame, hname] at hup
        cases hup

end Path

namespace FileTree

variable {tree grown : FileTree} {path : Path} {directory other : Location} {name next : String}
  {slash : Bool}

/-- What a walk that ends at a name tells of the path. -/
theorem locate_eq_name (hlocate : tree.locate path = .ok (.name directory name slash)) :
    path.names.getLast? = some name ∧ name ≠ "." ∧ name ≠ ".." ∧
      slash = path.endsInSlash ∧ path.text ≠ "" := by
  unfold locate at hlocate
  split_ifs at hlocate with hnull hempty hlong
  split at hlocate
  · cases hlocate
  · next last hlast =>
      split at hlocate
      · cases hlocate
      · split at hlocate
        · cases hlocate
        · next hdot =>
            split at hlocate
            · cases hlocate
            · next hup =>
                cases hlocate
                refine ⟨hlast, hdot, hup, rfl, ?_⟩
                intro htext
                rw [htext] at hempty
                exact hempty rfl

theorem getLast?_names {front : List (List Char)} {last : List Char}
    (hpieces : path.pieces = front ++ [last]) (hne : last ≠ []) :
    path.names.getLast? = some (String.ofList last) := by
  unfold Path.names
  rw [hpieces, List.filter_append, List.map_append]
  simp [hne]

/-- A path that leads to a file without a slash behind it ends with the name of the file. -/
theorem pieces_of_locate (hlocate : tree.locate path = .ok (.name directory name false)) :
    ∃ front, path.pieces = front ++ [name.toList] ∧ Path.counts name.toList = true ∧
      path.fileName? = some name.toList := by
  obtain ⟨hlast, hdot, hup, hslash, htext⟩ := locate_eq_name hlocate
  obtain ⟨front, last, hpieces⟩ : ∃ front last, path.pieces = front ++ [last] :=
    ⟨_, _, (List.dropLast_append_getLast (Text.splitOn_ne_nil '/' path.text.toList)).symm⟩
  have hne : last ≠ [] := by
    rintro rfl
    have hjoined : Text.joinWith '/' (front ++ [[]]) = path.text.toList := by
      rw [← hpieces]
      exact Text.joinWith_splitOn '/' path.text.toList
    by_cases hfront : front = []
    · rw [hfront] at hjoined
      exact htext (String.toList_eq_nil_iff.mp hjoined.symm)
    · have hend := Text.getLast?_joinWith '/' hfront
      rw [hjoined] at hend
      rw [Path.endsInSlash, hend] at hslash
      cases hslash
  rw [getLast?_names hpieces hne, Option.some.injEq] at hlast
  subst hlast
  rw [String.toList_ofList]
  have hcounts : Path.counts last = true := by
    unfold Path.counts
    rw [Bool.and_eq_true, bne_iff_ne, bne_iff_ne]
    exact ⟨hne, fun hsame => hdot (by rw [hsame])⟩
  refine ⟨front, hpieces, hcounts, ?_⟩
  rw [Path.fileName?_of_pieces hpieces hcounts, if_neg]
  exact fun hsame => hup (by rw [hsame])

/-- The temporary file and the file it stands in for have different names. -/
theorem name_ne_of_locate
    (hlocate : tree.locate path = .ok (.name directory name false))
    (htemporary :
      grown.locate (Configuration.temporaryPath path) = .ok (.name other next slash)) :
    next ≠ name := by
  obtain ⟨front, hpieces, hcounts, hname⟩ := pieces_of_locate hlocate
  obtain ⟨hlast, -, hup, -, -⟩ := locate_eq_name htemporary
  rcases Path.pieces_withExtension hpieces hname hcounts with hnext | ⟨hnext, -⟩
  · rw [show Configuration.temporaryPath path = path.withExtension "toml.tmp" from rfl,
      getLast?_names hnext (by simp), Option.some.injEq] at hlast
    intro hsame
    apply Path.stem_append_ne name.toList
    have hlist := congrArg String.toList (hlast.trans hsame)
    rwa [String.toList_ofList] at hlist
  · rw [show Configuration.temporaryPath path = path.withExtension "toml.tmp" from rfl,
      getLast?_names hnext (by simp), Option.some.injEq] at hlast
    exact absurd hlast.symm hup

end FileTree

end ResourceHandles
