import ResourceHandles.Proofs.Configuration.RoundTrip
import ResourceHandles.Proofs.Files.Separate

/-!
# A save, one change of the tree at a time

Saving changes the tree many times: it makes directories one by one, opens the temporary
file, writes to it as many bytes at a time as the system takes, and moves it.  Between any
two of these changes the tree can be seen by others.  What all the changes come to is what
saving was said to come to, however the bytes are divided, and there is a bound on their
number.
-/

namespace ResourceHandles

namespace FileTree

/-- Makes a directory unless it is there already. -/
def ensureDirectory (tree : FileTree) (path : Path) : FileTree × Option FileFault :=
  match tree.makeDirectory path with
  | .ok grown => (grown, none)
  | .error fault =>
    if fault = .alreadyExists ∧ tree.isDirectory path = true then (tree, none)
    else (tree, some fault)

/-- Makes directories one after the other. -/
def ensureEach (tree : FileTree) : List Path → FileTree × Option FileFault
  | [] => (tree, none)
  | path :: rest =>
    match tree.ensureDirectory path with
    | (grown, some fault) => (grown, some fault)
    | (grown, none) => grown.ensureEach rest

/-- A directory in others is tried first, and once more when the others are there. -/
theorem makeNested_cons (tree : FileTree) (path : Path) (above : List Path) :
    tree.makeNested (path :: above) =
      if (tree.ensureDirectory path).2 = some .notFound then
        match tree.makeNested above with
        | (grown, some fault) => (grown, some fault)
        | (grown, none) => grown.ensureDirectory path
      else tree.ensureDirectory path := by
  rw [makeNested]
  unfold ensureDirectory
  cases tree.makeDirectory path with
  | ok grown => rfl
  | error fault =>
      cases fault with
      | notFound => rfl
      | alreadyExists =>
          dsimp only
          split
          · rfl
          · rfl
      | _ => rfl

theorem ensureDirectory_of_fault {tree grown : FileTree} {path : Path} {fault : FileFault}
    (hensure : tree.ensureDirectory path = (grown, some fault)) : grown = tree := by
  unfold ensureDirectory at hensure
  split at hensure
  · cases hensure
  · split at hensure
    · cases hensure
    · cases hensure
      rfl

/-- No file changes where a directory is made. -/
theorem Stored.ensureDirectory
    {tree : FileTree} (hstored : tree.Stored) (path : Path) :
    tree.SameFiles (tree.ensureDirectory path).1 ∧ (tree.ensureDirectory path).1.Stored := by
  unfold FileTree.ensureDirectory
  split
  · next grown hmake =>
      exact ⟨sameFiles_makeDirectory hmake, (makeDirectory_evolves hmake).stored hstored⟩
  · split
    · exact ⟨.refl tree, hstored⟩
    · exact ⟨.refl tree, hstored⟩

end FileTree

namespace Configuration

/-- What a save does next.  Directories are tried from the innermost one outwards until
one can be made or is there; those that were tried before are made on the way back. -/
inductive Stage where
  | descending (todo tried : List Path)
  | ascending (tried : List Path)
  | opening
  | writing (number : Nat) (rest : Bytes)
  | moving
  | ended (fault : Option ConfigurationFault)
  deriving Repr, DecidableEq

/-- A save that is under way. -/
structure Saving where
  tree : FileTree
  stage : Stage
  deriving Repr, DecidableEq

/-- What a save is about: the directory to be made, the path, and the bytes. -/
structure Errand where
  parent : Path
  path : Path
  data : Bytes
  deriving Repr, DecidableEq

def errand (path : Path) (configuration : Configuration) : Errand :=
  ⟨path.parent?.getD path, path, Bytes.ofString configuration.render⟩

namespace Saving

/-- Where a save begins. -/
def start (tree : FileTree) (path : Path) (configuration : Configuration) : Saving :=
  match configuration.fault? with
  | some fault => ⟨tree, .ended (some fault)⟩
  | none =>
    match path.parent? with
    | none => ⟨tree, .ended (some (.noParent path))⟩
    | some parent =>
      if parent.text.isEmpty then ⟨tree, .ascending []⟩
      else
        ⟨tree,
          .descending
            ((parent.chain parent.pieces.length).filter fun path => !path.text.isEmpty) []⟩

/-- One change of the tree, or the step to the next stage.  A write takes one byte and at
most `amount` more. -/
def step (errand : Errand) (amount : Nat) (saving : Saving) : Saving :=
  match saving.stage with
  | .descending [] tried => ⟨saving.tree, .ascending tried⟩
  | .descending (directory :: above) tried =>
    match saving.tree.ensureDirectory directory with
    | (grown, none) => ⟨grown, .ascending tried⟩
    | (grown, some fault) =>
      if fault = .notFound then ⟨grown, .descending above (directory :: tried)⟩
      else ⟨grown, .ended (some (.noDirectory errand.parent fault))⟩
  | .ascending [] => ⟨saving.tree, .opening⟩
  | .ascending (directory :: tried) =>
    match saving.tree.ensureDirectory directory with
    | (grown, none) => ⟨grown, .ascending tried⟩
    | (grown, some fault) => ⟨grown, .ended (some (.noDirectory errand.parent fault))⟩
  | .opening =>
    match saving.tree.openPath (temporaryPath errand.path) FileTree.replaceAccess with
    | .error fault =>
      ⟨saving.tree, .ended (some (.noTemporary (temporaryPath errand.path) fault))⟩
    | .ok (_, .directory) =>
      ⟨saving.tree, .ended (some (.noTemporary (temporaryPath errand.path) .isADirectory))⟩
    | .ok (opened, .file number) => ⟨opened, .writing number errand.data⟩
  | .writing number rest =>
    if rest = [] then ⟨saving.tree, .moving⟩
    else
      ⟨saving.tree.setContent number (saving.tree.content number ++ rest.take (amount + 1)),
        .writing number (rest.drop (amount + 1))⟩
  | .moving =>
    match saving.tree.rename (temporaryPath errand.path) errand.path with
    | .error fault => ⟨saving.tree, .ended (some (.notReplaced errand.path fault))⟩
    | .ok moved => ⟨moved, .ended none⟩
  | .ended fault => ⟨saving.tree, .ended fault⟩

/-- The save after some steps. -/
def run (errand : Errand) (saving : Saving) (amounts : List Nat) : Saving :=
  amounts.foldl (fun saving amount => saving.step errand amount) saving

variable {errand : Errand} {saving : Saving} {tree : FileTree} {path : Path}
  {configuration : Configuration}

/-- What every step preserves holds after every run. -/
theorem run_preserves
    {P : Saving → Prop} (hstep : ∀ saving amount, P saving → P (saving.step errand amount))
    (hsaving : P saving) (amounts : List Nat) : P (saving.run errand amounts) := by
  induction amounts generalizing saving with
  | nil => exact hsaving
  | cons amount amounts ih => exact ih (hstep saving amount hsaving)

/-! ## What the steps come to -/

/-- Moves the temporary file. -/
def moveOutcome (errand : Errand) (tree : FileTree) : FileTree × Option ConfigurationFault :=
  match tree.rename (temporaryPath errand.path) errand.path with
  | .error fault => (tree, some (.notReplaced errand.path fault))
  | .ok moved => (moved, none)

/-- Replaces the file once the directories are made. -/
def madeOutcome (errand : Errand) :
    FileTree × Option FileFault → FileTree × Option ConfigurationFault
  | (grown, some fault) => (grown, some (.noDirectory errand.parent fault))
  | (grown, none) => replaceFile grown errand.path errand.data

/-- Goes on with the directories that were tried before. -/
def remake (tried : List Path) : FileTree × Option FileFault → FileTree × Option FileFault
  | (grown, some fault) => (grown, some fault)
  | (grown, none) => grown.ensureEach tried

/-- What a save that is under way comes to in the end. -/
def outcome (errand : Errand) (saving : Saving) : FileTree × Option ConfigurationFault :=
  match saving.stage with
  | .descending todo tried => madeOutcome errand (remake tried (saving.tree.makeNested todo))
  | .ascending tried => madeOutcome errand (saving.tree.ensureEach tried)
  | .opening => replaceFile saving.tree errand.path errand.data
  | .writing number rest =>
    moveOutcome errand
      (saving.tree.setContent number (saving.tree.content number ++ rest))
  | .moving => moveOutcome errand saving.tree
  | .ended fault => (saving.tree, fault)

theorem remake_nil (made : FileTree × Option FileFault) : remake [] made = made := by
  obtain ⟨grown, fault⟩ := made
  cases fault with
  | none => rfl
  | some fault => rfl

theorem outcome_start (tree : FileTree) (path : Path) (configuration : Configuration) :
    (start tree path configuration).outcome (Configuration.errand path configuration) =
      save tree path configuration := by
  cases hsound : configuration.fault? with
  | some fault => simp only [start, save, hsound, outcome]
  | none =>
      rw [save_of_sound hsound]
      cases hparent : path.parent? with
      | none => simp only [start, hsound, hparent, outcome]
      | some parent =>
          have hmade : (start tree path configuration).outcome
              (Configuration.errand path configuration) =
                madeOutcome (Configuration.errand path configuration)
                  (tree.makeDirectories parent) := by
            simp only [start, hsound, hparent, FileTree.makeDirectories]
            split
            · rfl
            · simp only [outcome, remake_nil]
          rw [hmade]
          cases hgrown : tree.makeDirectories parent with
          | mk grown fault =>
              cases fault with
              | none => simp only [madeOutcome, Configuration.errand, hgrown]
              | some fault =>
                  simp only [madeOutcome, Configuration.errand, hparent, Option.getD_some, hgrown]

theorem setContent_content (tree : FileTree) (number : Nat) :
    tree.setContent number (tree.content number) = tree := by
  unfold FileTree.setContent FileTree.content
  by_cases hlt : number < tree.contents.length
  · simp [List.getD_eq_getElem?_getD, hlt]
  · rw [List.set_eq_of_length_le (Nat.not_lt.mp hlt)]

/-- A write that is divided comes to the same. -/
theorem setContent_append (tree : FileTree) (number : Nat) (first second : Bytes) :
    let written := tree.setContent number (tree.content number ++ first)
    written.setContent number (written.content number ++ second) =
      tree.setContent number (tree.content number ++ (first ++ second)) := by
  intro written
  by_cases hlt : number < tree.contents.length
  · rw [FileTree.content_setContent hlt, List.append_assoc]
    simp [written, FileTree.setContent]
  · have hsame : ∀ data, tree.setContent number data = tree := by
      intro data
      unfold FileTree.setContent
      rw [List.set_eq_of_length_le (Nat.not_lt.mp hlt)]
    simp only [written, hsame]

/-- A file that was opened to be replaced is empty. -/
theorem content_of_emptied
    {opened : FileTree} {number : Nat} (hsame : opened.setContent number [] = opened) :
    opened.content number = [] := by
  by_cases hlt : number < opened.contents.length
  · rw [← hsame, FileTree.content_setContent hlt]
  · simp [FileTree.content, List.getD_eq_getElem?_getD, hlt]

/-- A directory that cannot be made yet is made when those above it are there. -/
theorem remake_makeNested
    {grown : FileTree} {directory : Path} {above tried : List Path}
    (hensure : tree.ensureDirectory directory = (grown, some .notFound)) :
    remake tried (tree.makeNested (directory :: above)) =
      remake (directory :: tried) (grown.makeNested above) := by
  rw [FileTree.makeNested_cons, hensure, FileTree.ensureDirectory_of_fault hensure]
  simp only [if_true]
  cases tree.makeNested above with
  | mk made failed =>
      cases failed with
      | some failed => rfl
      | none => simp only [remake, FileTree.ensureEach]

theorem makeNested_of_ne_notFound
    {made : FileTree × Option FileFault} {directory : Path} (above : List Path)
    (hensure : tree.ensureDirectory directory = made) (hfound : made.2 ≠ some .notFound) :
    tree.makeNested (directory :: above) = made := by
  rw [FileTree.makeNested_cons, hensure, if_neg hfound]

theorem outcome_descending
    (errand : Errand) (amount : Nat) (tree : FileTree) (todo tried : List Path) :
    (step errand amount ⟨tree, .descending todo tried⟩).outcome errand =
      outcome errand ⟨tree, .descending todo tried⟩ := by
  cases todo with
  | nil => rfl
  | cons directory above =>
      simp only [step, outcome]
      cases hensure : tree.ensureDirectory directory with
      | mk grown fault =>
          cases fault with
          | none =>
              rw [makeNested_of_ne_notFound above hensure (by simp)]
              rfl
          | some fault =>
              by_cases hmissing : fault = .notFound
              · subst hmissing
                simp only [if_true]
                rw [remake_makeNested hensure]
              · rw [makeNested_of_ne_notFound above hensure (by simpa using hmissing)]
                simp only [hmissing, if_false]
                rfl

theorem outcome_ascending
    (errand : Errand) (amount : Nat) (tree : FileTree) (tried : List Path) :
    (step errand amount ⟨tree, .ascending tried⟩).outcome errand =
      outcome errand ⟨tree, .ascending tried⟩ := by
  cases tried with
  | nil => rfl
  | cons directory tried =>
      simp only [step, outcome, FileTree.ensureEach]
      cases tree.ensureDirectory directory with
      | mk grown fault =>
          cases fault with
          | none => rfl
          | some fault => rfl

theorem outcome_opening (errand : Errand) (amount : Nat) (tree : FileTree) :
    (step errand amount ⟨tree, .opening⟩).outcome errand = outcome errand ⟨tree, .opening⟩ := by
  unfold outcome step replaceFile FileTree.writeFile moveOutcome
  generalize temporaryPath errand.path = temporary
  cases hopen : tree.openPath temporary FileTree.replaceAccess with
  | error fault => simp only [hopen]
  | ok result =>
      obtain ⟨opened, entry⟩ := result
      cases entry with
      | directory => simp only [hopen]
      | file number =>
          have hempty := content_of_emptied (FileTree.setContent_of_openPath hopen)
          cases hrename : (opened.setContent number errand.data).rename temporary errand.path with
          | error fault => simp only [hopen, hempty, List.nil_append, hrename]
          | ok moved => simp only [hopen, hempty, List.nil_append, hrename]

/-- No step changes what the save comes to. -/
theorem outcome_step (errand : Errand) (amount : Nat) (saving : Saving) :
    (saving.step errand amount).outcome errand = saving.outcome errand := by
  obtain ⟨tree, stage⟩ := saving
  cases stage with
  | descending todo tried => exact outcome_descending errand amount tree todo tried
  | ascending tried => exact outcome_ascending errand amount tree tried
  | opening => exact outcome_opening errand amount tree
  | writing number rest =>
      simp only [step]
      split
      · next hrest =>
          simp only [outcome]
          rw [hrest, List.append_nil, setContent_content]
      · simp only [outcome]
        rw [setContent_append, List.take_append_drop]
  | moving =>
      unfold outcome step moveOutcome
      generalize temporaryPath errand.path = temporary
      cases tree.rename temporary errand.path with
      | error fault => rfl
      | ok moved => rfl
  | ended fault => rfl

/-- A save that was carried out step by step has come to what saving comes to. -/
theorem save_of_ended
    {amounts : List Nat} {fault : Option ConfigurationFault}
    (hended :
      ((start tree path configuration).run
          (Configuration.errand path configuration) amounts).stage =
        .ended fault) :
    (((start tree path configuration).run
        (Configuration.errand path configuration) amounts).tree, fault) =
      save tree path configuration := by
  have houtcome :=
    run_preserves
      (P := fun saving => saving.outcome (Configuration.errand path configuration) =
        save tree path configuration)
      (fun saving amount hsaving => (outcome_step _ amount saving).trans hsaving)
      (outcome_start tree path configuration) amounts
  rw [← houtcome, outcome, hended]

/-! ## How many steps there are -/

/-- A bound on the steps that are left. -/
def remaining (errand : Errand) (saving : Saving) : Nat :=
  match saving.stage with
  | .descending todo tried => 2 * todo.length + tried.length + errand.data.length + 5
  | .ascending tried => tried.length + errand.data.length + 4
  | .opening => errand.data.length + 3
  | .writing _ rest => rest.length + 2
  | .moving => 1
  | .ended _ => 0

theorem remaining_eq_zero (hzero : saving.remaining errand = 0) :
    ∃ fault, saving.stage = .ended fault := by
  unfold remaining at hzero
  split at hzero
  · omega
  · omega
  · omega
  · omega
  · omega
  · next fault hstage => exact ⟨fault, hstage⟩

theorem remaining_step (errand : Errand) (amount : Nat) (saving : Saving) :
    (saving.step errand amount).remaining errand ≤ saving.remaining errand - 1 := by
  obtain ⟨tree, stage⟩ := saving
  cases stage with
  | descending todo tried =>
      cases todo with
      | nil => simp [step, remaining]
      | cons directory above =>
          simp only [step]
          split
          · simp only [remaining, List.length_cons]
            omega
          · split
            · simp only [remaining, List.length_cons]
              omega
            · simp [remaining]
  | ascending tried =>
      cases tried with
      | nil => simp [step, remaining]
      | cons directory tried =>
          simp only [step]
          split
          · simp only [remaining, List.length_cons]
            omega
          · simp [remaining]
  | opening =>
      simp only [step]
      split
      · simp [remaining]
      · simp [remaining]
      · simp [remaining]
  | writing number rest =>
      simp only [step]
      split
      · simp [remaining]
      · next hrest =>
          have hpositive := List.length_pos_iff.mpr hrest
          simp only [remaining, List.length_drop]
          omega
  | moving =>
      simp only [step]
      split
      · simp [remaining]
      · simp [remaining]
  | ended fault => simp [step, remaining]

/-- A save ends after a bounded number of steps. -/
theorem ended_of_remaining_le
    {amounts : List Nat} (hlength : saving.remaining errand ≤ amounts.length) :
    ∃ fault, (saving.run errand amounts).stage = .ended fault := by
  induction amounts generalizing saving with
  | nil => exact remaining_eq_zero (Nat.le_zero.mp hlength)
  | cons amount amounts ih =>
      have hstep := remaining_step errand amount saving
      rw [List.length_cons] at hlength
      have hleft : (saving.step errand amount).remaining errand ≤ amounts.length := by omega
      exact ih hleft

end Saving

end Configuration

end ResourceHandles
