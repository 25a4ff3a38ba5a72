import ResourceHandles.Proofs.Files.OpenFiles
import ResourceHandles.Proofs.Files.Replacing
import ResourceHandles.Proofs.Transfer.Writing

/-!
# A write to a file, transfer by transfer

A write to an open file offers what is left of its data poll by poll.  A poll takes a part of at
most one transfer and starts the transfer, but only once the transfer before it has ended; while
that one is under way the poll may have to wait, and if it failed the poll tells so.  When all the
data are taken, a flush waits for the last transfer.

Whichever polls have to wait, this comes to `OpenFile.write`: one change of the tree if nothing
fails, and none otherwise.  The invariant is that the bytes under way and those that are still to
be offered would together go to the file in one transfer.
-/

namespace ResourceHandles

/-! ## Two transfers in a row -/

namespace OpenFile

variable {file moved last : OpenFile} {tree later grown : FileTree}

/-- The transfer after a transfer goes on where that one has stopped. -/
theorem put_append
    {first : Bytes} (hput : file.put tree first = .ok (moved, later))
    (hnumber : ∀ number, file.entry = .file number → number < tree.contents.length)
    (second : Bytes) : file.put tree (first ++ second) = moved.put later second := by
  obtain ⟨number, hwrites, hentry, rfl, rfl⟩ := put_eq_ok hput
  have hlt := hnumber number hentry
  let position := file.writePosition (tree.content number)
  have hposition :
      ({ file with cursor := position + first.length } : OpenFile).writePosition
          ((tree.content number).overwrite position first) = position + first.length := by
    simp only [position, writePosition]
    split
    · simp [Bytes.overwrite]
    · rfl
  have hover := Bytes.overwrite_append (tree.content number) position first second
  rw [put_file hwrites hentry,
    @put_file { file with cursor := position + first.length } number hwrites hentry]
  dsimp only
  rw [FileTree.content_setContent hlt, hposition, hover, List.length_append, Nat.add_assoc,
    FileTree.setContent, FileTree.setContent, FileTree.setContent, List.set_set]

end OpenFile

/-! ## Polls -/

/-- An open file that is written: the file and the tree as the last transfer that has ended left
them, and the bytes of the transfer that is under way. -/
structure FileSink where
  file : OpenFile
  tree : FileTree
  underWay : Bytes := []

namespace FileSink

/-- Waits for the transfer that is under way and tells how it failed, if it did.  None is under way
afterwards. -/
def flush (sink : FileSink) : FileSink × Option FileFault :=
  if sink.underWay.isEmpty then (sink, none)
  else
    match sink.file.put sink.tree sink.underWay with
    | .ok (moved, grown) => (⟨moved, grown, []⟩, none)
    | .error fault => ({ sink with underWay := [] }, some fault)

/-- The polls of a write to an open file, from the first poll on: what is still to be offered, the
answers, and the file when the polls have ended. -/
inductive Plays : FileSink → Bytes → List (SinkItem FileFault) → FileSink → Prop where
  | done (sink : FileSink) : Plays sink [] [] sink
  | waits {sink last : FileSink} {part : Bytes} {script : List (SinkItem FileFault)}
      (hpart : part ≠ []) (hbusy : sink.underWay ≠ []) (hrest : Plays sink part script last) :
      Plays sink part (.pending :: script) last
  | accepts {sink settled last : FileSink} {part : Bytes} {script : List (SinkItem FileFault)}
      (hpart : part ≠ []) (hflush : sink.flush = (settled, none))
      (hrest :
        Plays { settled with underWay := part.take transferLimit } (part.drop transferLimit)
          script last) :
      Plays sink part (.accept (min part.length transferLimit) :: script) last
  | fails {sink settled : FileSink} {part : Bytes} {fault : FileFault}
      (hpart : part ≠ []) (hflush : sink.flush = (settled, some fault)) :
      Plays sink part [.fail fault] settled

/-- How a write has ended that left the file as `last` says: a poll has failed, or all the data were
taken and a flush followed.  A write that fails has changed nothing.  In no case is a transfer under
way at the end. -/
def EndsWith (file : OpenFile) (tree : FileTree) (last : FileSink)
    (outcome : WriteOutcome FileFault) :
    Except (WriteStage × FileFault) (OpenFile × FileTree) → Prop
  | .ok (moved, grown) => outcome = .complete ∧ last.flush = (⟨moved, grown, []⟩, none)
  | .error (.flush, fault) => outcome = .complete ∧ last.flush = (⟨file, tree, []⟩, some fault)
  | .error (.write, fault) => outcome = .failed fault ∧ last = ⟨file, tree, []⟩

variable {sink settled last : FileSink} {part data : Bytes} {script : List (SinkItem FileFault)}

theorem flush_of_idle (hidle : sink.underWay = []) : sink.flush = (sink, none) :=
  if_pos (List.isEmpty_iff.mpr hidle)

theorem flush_of_put
    (hbusy : sink.underWay ≠ []) {moved : OpenFile} {grown : FileTree}
    (hput : sink.file.put sink.tree sink.underWay = .ok (moved, grown)) :
    sink.flush = (⟨moved, grown, []⟩, none) := by
  simp only [flush, List.isEmpty_iff, hbusy, if_false, hput]

theorem flush_of_put_error
    (hbusy : sink.underWay ≠ []) {fault : FileFault}
    (hput : sink.file.put sink.tree sink.underWay = .error fault) :
    sink.flush = ({ sink with underWay := [] }, some fault) := by
  simp only [flush, List.isEmpty_iff, hbusy, if_false, hput]

/-- After a flush there is nothing to wait for, so the flush of a file that is closed changes
nothing and never fails. -/
theorem flush_flush (sink : FileSink) : sink.flush.1.flush = (sink.flush.1, none) := by
  by_cases hbusy : sink.underWay = []
  · rw [flush_of_idle hbusy, flush_of_idle hbusy]
  · cases hput : sink.file.put sink.tree sink.underWay with
    | ok written =>
        rw [flush_of_put hbusy hput]
        exact flush_of_idle rfl
    | error fault =>
        rw [flush_of_put_error hbusy hput]
        exact flush_of_idle rfl

/-- Every part can be written, whatever is under way. -/
theorem exists_plays (sink : FileSink) (part : Bytes) :
    ∃ script last, sink.Plays part script last := by
  by_cases hpart : part = []
  · exact ⟨[], sink, hpart ▸ .done sink⟩
  · have hdrop : (part.drop transferLimit).length < part.length := by
      rw [List.length_drop]
      exact Nat.sub_lt (List.length_pos_iff.mpr hpart) (by decide)
    rcases hflush : sink.flush with ⟨settled, _ | fault⟩
    · obtain ⟨script, last, hrest⟩ :=
        exists_plays { settled with underWay := part.take transferLimit } (part.drop transferLimit)
      exact ⟨_, last, .accepts hpart hflush hrest⟩
    · exact ⟨_, settled, .fails hpart hflush⟩
termination_by part.length
decreasing_by exact hdrop

/-- A write goes on behind the part that a poll takes. -/
theorem outcome_accept
    (hpart : part ≠ []) (perPoll : Option Nat) (script : List (SinkItem FileFault)) :
    (writeFully perPoll (.accept (min part.length transferLimit) :: script) part).outcome =
      (writeFully perPoll script (part.drop transferLimit)).outcome := by
  have hpositive : min part.length transferLimit ≠ 0 := by
    have := List.length_pos_iff.mpr hpart
    simp only [transferLimit]
    omega
  have hdrop : part.drop (min part.length transferLimit) = part.drop transferLimit := by
    rw [Nat.min_comm, WriteLoop.drop_min_length]
  simp [writeFully, hpart, hpositive, WriteReport.after, hdrop]

/-! ## Writes that succeed -/

/-- What is under way and what is to be offered are one transfer with the bytes that are taken at
a poll ahead of the rest. -/
theorem put_of_accepts
    (hnumber :
      ∀ number, sink.file.entry = .file number → number < sink.tree.contents.length)
    (hflush : sink.flush = (settled, none)) (part : Bytes) :
    settled.file.put settled.tree part = sink.file.put sink.tree (sink.underWay ++ part) ∧
      ∀ number, settled.file.entry = .file number → number < settled.tree.contents.length := by
  by_cases hbusy : sink.underWay = []
  · obtain rfl : sink = settled := by
      rw [flush_of_idle hbusy] at hflush
      exact congrArg Prod.fst hflush
    exact ⟨by rw [hbusy, List.nil_append], hnumber⟩
  · cases hput : sink.file.put sink.tree sink.underWay with
    | error fault =>
        rw [flush_of_put_error hbusy hput] at hflush
        cases hflush
    | ok written =>
        obtain ⟨moved, grown⟩ := written
        rw [flush_of_put hbusy hput] at hflush
        obtain rfl := congrArg Prod.fst hflush
        refine ⟨(OpenFile.put_append hput hnumber part).symm, ?_⟩
        obtain ⟨_, -, -, rfl, rfl⟩ := OpenFile.put_eq_ok hput
        simpa [FileTree.setContent] using hnumber

theorem Plays.complete
    (hplays : sink.Plays part script last) (perPoll : Option Nat) {moved : OpenFile}
    {grown : FileTree}
    (hnumber :
      ∀ number, sink.file.entry = .file number → number < sink.tree.contents.length)
    (hbytes : sink.underWay ++ part ≠ [])
    (hput : sink.file.put sink.tree (sink.underWay ++ part) = .ok (moved, grown)) :
    (writeFully perPoll script part).outcome = .complete ∧
      last.flush = (⟨moved, grown, []⟩, none) := by
  induction hplays with
  | done sink =>
      rw [List.append_nil] at hbytes hput
      refine ⟨?_, flush_of_put hbytes hput⟩
      rw [WriteLoop.writeFully_nil]
  | waits hpart hbusy hrest ih =>
      obtain ⟨hcomplete, hflush⟩ := ih hnumber hbytes hput
      refine ⟨?_, hflush⟩
      simpa [writeFully, hpart, WriteReport.after] using hcomplete
  | @accepts sink settled last part script hpart hflush hrest ih =>
      obtain ⟨hsame, hsettled⟩ := put_of_accepts hnumber hflush part
      have htaken : part.take transferLimit ++ part.drop transferLimit = part :=
        List.take_append_drop _ _
      obtain ⟨hcomplete, hlast⟩ :=
        ih hsettled (htaken.symm ▸ hpart) ((congrArg _ htaken).trans (hsame.trans hput))
      exact ⟨(outcome_accept hpart perPoll script).trans hcomplete, hlast⟩
  | @fails sink settled part fault hpart hflush =>
      -- The transfer that failed would have failed with the rest behind it as well.
      by_cases hbusy : sink.underWay = []
      · rw [flush_of_idle hbusy] at hflush
        cases hflush
      · cases hunder : sink.file.put sink.tree sink.underWay with
        | ok written =>
            rw [flush_of_put hbusy hunder] at hflush
            cases hflush
        | error other =>
            rw [OpenFile.put_eq_error hunder] at hput
            cases hput

/-! ## Writes that fail -/

/-- The fault of a transfer is told at the next poll, or at the flush if there is none. -/
theorem Plays.tells
    (hplays : sink.Plays part script last) (perPoll : Option Nat) {fault : FileFault}
    (hbusy : sink.underWay ≠ [])
    (hput : sink.file.put sink.tree sink.underWay = .error fault) :
    part = [] ∧ (writeFully perPoll script part).outcome = .complete ∧
        last.flush = ({ sink with underWay := [] }, some fault) ∨
      part ≠ [] ∧ (writeFully perPoll script part).outcome = .failed fault ∧
        last = { sink with underWay := [] } := by
  have hfault := flush_of_put_error hbusy hput
  induction hplays with
  | done sink => exact .inl ⟨rfl, by rw [WriteLoop.writeFully_nil], hfault⟩
  | waits hpart _ hrest ih =>
      rcases ih hbusy hput hfault with ⟨hempty, -⟩ | ⟨-, hfailed, hlast⟩
      · exact absurd hempty hpart
      · exact .inr ⟨hpart, by simpa [writeFully, hpart, WriteReport.after] using hfailed, hlast⟩
  | accepts hpart hflush hrest ih =>
      rw [hfault] at hflush
      cases hflush
  | fails hpart hflush =>
      rw [hfault] at hflush
      cases hflush
      exact .inr ⟨hpart, by simp [writeFully, hpart], rfl⟩

/-! ## Every write -/

variable {file : OpenFile} {tree : FileTree}

/-- A write in transfers, with a flush behind them, comes to `OpenFile.write`. -/
theorem Plays.endsWith_write
    (hplays : Plays ⟨file, tree, []⟩ data script last)
    (hnumber : ∀ number, file.entry = .file number → number < tree.contents.length)
    (perPoll : Option Nat) :
    EndsWith file tree last (writeFully perPoll script data).outcome (file.write tree data) := by
  -- Nothing is under way at first, so the first poll takes a part.
  cases hplays with
  | done => exact ⟨by rw [WriteLoop.writeFully_nil], flush_of_idle rfl⟩
  | waits _ hbusy _ => exact absurd rfl hbusy
  | fails _ hflush => cases (flush_of_idle rfl).symm.trans hflush
  | @accepts _ settled _ _ script hdata hflush hrest =>
      cases hput : file.put tree data with
      | ok written =>
          rw [OpenFile.write_of_put hput hdata]
          exact (Plays.accepts hdata hflush hrest).complete perPoll hnumber hdata hput
      | error fault =>
          obtain rfl : ⟨file, tree, []⟩ = settled :=
            congrArg Prod.fst ((flush_of_idle rfl).symm.trans hflush)
          have htaken : data.take transferLimit ≠ [] := by
            simp [List.take_eq_nil_iff, hdata, transferLimit]
          rw [OpenFile.write_of_put_error hput hdata, outcome_accept hdata]
          rcases hrest.tells perPoll htaken (OpenFile.put_eq_error hput tree _) with
            ⟨hempty, hcomplete, hlast⟩ | ⟨hmore, hfailed, hlast⟩
          · rw [if_pos (List.drop_eq_nil_iff.mp hempty)]
            exact ⟨hcomplete, hlast⟩
          · rw [if_neg fun hle => hmore (List.drop_eq_nil_of_le hle)]
            exact ⟨hfailed, hlast⟩

end FileSink

end ResourceHandles
