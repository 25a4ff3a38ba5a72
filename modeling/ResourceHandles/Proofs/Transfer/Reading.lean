import ResourceHandles.Transfer
import Mathlib.Tactic

/-!
# Reads into one buffer

A read is a loop that goes on until something has been received, and it offers the source the
buffer behind what has been received.  This comes to one answer: the loop is polled with the
whole buffer as long as it has to wait, and the first answer that does not make it wait ends it,
whether it brings bytes, nothing, or a fault.

Several reads after one another share a buffer and a source.  The bytes at the front of the
buffer after each read are those that the source has given away, so over all reads together no
byte is lost, repeated or made up, and a stale byte of an earlier read is never counted.
-/

namespace ResourceHandles

variable {ε : Type}

/-- The bytes of an item. -/
def SourceItem.bytes : SourceItem ε → Bytes
  | .deliver data => data
  | .pending => []
  | .fail _ => []

/-- The bytes of a source in order. -/
def sourceBytes (source : List (SourceItem ε)) : Bytes :=
  source.flatMap SourceItem.bytes

/-- The bytes that a read reports: those at the front of its buffer. -/
def ReadReport.received (report : ReadReport ε) : Bytes :=
  match report.outcome with
  | .received count => report.buffer.take count
  | .failed _ => []

theorem length_after_le (data : Bytes) (count : Nat) (rest : List (SourceItem ε)) :
    (SourceItem.after data count rest).length ≤ rest.length + 1 := by
  unfold SourceItem.after
  split
  · exact Nat.le_succ _
  · exact Nat.le_refl _

/-- The loop of a read of which `count` bytes have arrived at the front of the buffer.  As long
as there are none, the source is polled with the room behind them. -/
def readFrom (count : Nat) (buffer : Bytes) (source : List (SourceItem ε)) : ReadReport ε :=
  if 1 ≤ count then ⟨.received count, [], buffer, source⟩
  else
    let room := buffer.length - count
    match source with
    | [] => ⟨.received 0, [room], buffer, []⟩
    | .pending :: rest =>
      let report := readFrom count buffer rest
      { report with offered := room :: report.offered }
    | .fail fault :: rest => ⟨.failed fault, [room], buffer, rest⟩
    | .deliver data :: rest =>
      let arrived := min data.length room
      if arrived = 0 then ⟨.received 0, [room], buffer, SourceItem.after data 0 rest⟩
      else
        let filled := buffer.take count ++ data.take arrived ++ buffer.drop (count + arrived)
        let report := readFrom (count + arrived) filled (SourceItem.after data arrived rest)
        { report with offered := room :: report.offered }
termination_by (1 - count) + source.length
decreasing_by
  · simp only [List.length_cons]
    omega
  · have hafter := length_after_le data (min data.length (buffer.length - count)) rest
    simp only [List.length_cons]
    omega

/-- What one read does, which is what the loop comes to.  The source makes it wait some times,
and then `rest` begins with the answer that ends the read, or there is nothing left.  The whole
buffer is offered at every poll.  Nothing is received exactly if the answer brings nothing or the
buffer has no room, and a fault is reported exactly if it is the answer. -/
inductive ReadsOnce (buffer : Bytes) : List (SourceItem ε) → ReadReport ε → Prop where
  | intro {waits : Nat} {rest : List (SourceItem ε)} {report : ReadReport ε}
      (loop : report = readFrom 0 buffer (List.replicate waits .pending ++ rest))
      (answer : rest.head? ≠ some .pending)
      (offered : report.offered = List.replicate (waits + 1) buffer.length)
      (nothing_iff : report.outcome = .received 0 ↔
        rest = [] ∨ rest.head? = some (.deliver []) ∨
          buffer = [] ∧ ∃ data, rest.head? = some (.deliver data))
      (failed_iff : ∀ fault, report.outcome = .failed fault ↔ rest.head? = some (.fail fault))
      (length : report.buffer.length = buffer.length)
      (behind : ∀ count, report.outcome = .received count →
        count ≤ buffer.length ∧ report.buffer.drop count = buffer.drop count)
      (unchanged : ∀ fault, report.outcome = .failed fault → report.buffer = buffer)
      (left : report.source = rest.tail ∨ ∃ data, report.source = .deliver data :: rest.tail) :
      ReadsOnce buffer (List.replicate waits .pending ++ rest) report

/-- Reads after one another: each starts with the buffer and the source as the one before it
left them. -/
inductive ReadRun :
    Bytes → List (SourceItem ε) → List (ReadReport ε) → List (SourceItem ε) → Prop where
  | nil {buffer : Bytes} {source : List (SourceItem ε)} : ReadRun buffer source [] source
  | cons {buffer : Bytes} {source left : List (SourceItem ε)} {report : ReadReport ε}
      {reports : List (ReadReport ε)} (hread : ReadsOnce buffer source report)
      (hrest : ReadRun report.buffer report.source reports left) :
      ReadRun buffer source (report :: reports) left

/-! ## Bytes of a source -/

theorem sourceBytes_cons (item : SourceItem ε) (source : List (SourceItem ε)) :
    sourceBytes (item :: source) = item.bytes ++ sourceBytes source := rfl

theorem sourceBytes_after (data : Bytes) (count : Nat) (rest : List (SourceItem ε)) :
    sourceBytes (SourceItem.after data count rest) = data.drop count ++ sourceBytes rest := by
  unfold SourceItem.after
  split
  · next hempty => rw [List.isEmpty_iff.mp hempty, List.nil_append]
  · rfl

/-! ## One read -/

theorem readFrom_of_pos
    {count : Nat} (hcount : 1 ≤ count) (buffer : Bytes) (source : List (SourceItem ε)) :
    readFrom count buffer source = ⟨.received count, [], buffer, source⟩ := by
  rw [readFrom.eq_def, if_pos hcount]

/-- The loop receives bytes once at most, since it ends as soon as there are any. -/
theorem readFrom_zero (buffer : Bytes) (source : List (SourceItem ε)) :
    readFrom 0 buffer source = readSome buffer source := by
  induction source with
  | nil => rw [readFrom.eq_def]; rfl
  | cons item source ih =>
      rw [readFrom.eq_def, if_neg (by omega)]
      cases item with
      | pending => simp only [Nat.sub_zero, ih, readSome]
      | fail fault => rfl
      | deliver data =>
          simp only [Nat.sub_zero, Nat.zero_add, List.take_zero, List.nil_append, readSome]
          split
          · next hnothing => simp [hnothing]
          · next hsome => rw [readFrom_of_pos (Nat.pos_of_ne_zero hsome)]

theorem exists_waits (source : List (SourceItem ε)) :
    ∃ waits rest, source = List.replicate waits .pending ++ rest ∧
      rest.head? ≠ some .pending := by
  induction source with
  | nil => exact ⟨0, [], rfl, by simp⟩
  | cons item source ih =>
      cases item with
      | pending =>
          obtain ⟨waits, rest, rfl, hanswer⟩ := ih
          exact ⟨waits + 1, rest, rfl, hanswer⟩
      | deliver data => exact ⟨0, .deliver data :: source, rfl, by simp⟩
      | fail fault => exact ⟨0, .fail fault :: source, rfl, by simp⟩

theorem readSome_waits (buffer : Bytes) (waits : Nat) (rest : List (SourceItem ε)) :
    readSome buffer (List.replicate waits .pending ++ rest) =
      { readSome buffer rest with
        offered := List.replicate waits buffer.length ++ (readSome buffer rest).offered } := by
  induction waits with
  | zero => rfl
  | succ waits ih =>
      rw [List.replicate_succ, List.cons_append, readSome, ih, List.replicate_succ,
        List.cons_append]

theorem readsOnce_readSome (buffer : Bytes) (source : List (SourceItem ε)) :
    ReadsOnce buffer source (readSome buffer source) := by
  obtain ⟨waits, rest, rfl, hanswer⟩ := exists_waits source
  -- Waiting shows in what was offered and in nothing else, so the answer decides alone.
  have hloop := ((readFrom_zero buffer _).trans (readSome_waits buffer waits rest)).symm
  rw [readSome_waits]
  cases rest with
  | nil =>
      refine .intro hloop hanswer ?_ ?_ ?_ rfl ?_ ?_ (.inl rfl)
      all_goals simp [readSome, List.replicate_succ']
  | cons item rest =>
      cases item with
      | pending => exact absurd rfl hanswer
      | fail fault =>
          refine .intro hloop hanswer ?_ ?_ ?_ rfl ?_ ?_ (.inl rfl)
          all_goals simp [readSome, List.replicate_succ']
      | deliver data =>
          have hfront : (data.take (min data.length buffer.length)).length =
              min data.length buffer.length := by
            simp
          refine .intro hloop hanswer ?_ ?_ ?_ ?_ ?_ ?_ ?_
          · simp [readSome, List.replicate_succ']
          · simp [readSome]
          · simp [readSome]
          · simp [readSome]
          · rintro count hreceived
            obtain rfl := ReadOutcome.received.inj hreceived
            exact ⟨Nat.min_le_right _ _, List.drop_left' hfront⟩
          · rintro fault hfailed
            cases hfailed
          · simp only [readSome, SourceItem.after, List.tail_cons]
            split
            · exact .inl rfl
            · exact .inr ⟨_, rfl⟩

/-- What a read reports, and what is left of the source, are the bytes of the source. -/
theorem received_readSome (buffer : Bytes) (source : List (SourceItem ε)) :
    (readSome buffer source).received ++ sourceBytes (readSome buffer source).source =
      sourceBytes source := by
  induction source with
  | nil => rfl
  | cons item source ih =>
      cases item with
      | pending => exact ih
      | fail fault => rfl
      | deliver data =>
          simp only [readSome, ReadReport.received, sourceBytes_after, sourceBytes_cons,
            SourceItem.bytes]
          rw [List.take_left' (by simp), ← List.append_assoc, List.take_append_drop]

/-! ## Reads after one another -/

theorem length_readRepeatedly
    (calls : Nat) (buffer : Bytes) (source : List (SourceItem ε)) :
    (readRepeatedly calls buffer source).length = calls := by
  induction calls generalizing buffer source with
  | zero => rfl
  | succ calls ih => rw [readRepeatedly, List.length_cons, ih]

/-- Over any number of reads into one buffer, the bytes at the front of the buffer after each of
them, and then those that are left, are the bytes of the source in order; and each read does
what `ReadsOnce` says with the buffer and the source that the one before it left. -/
theorem readRepeatedly_conserves
    (calls : Nat) (buffer : Bytes) (source : List (SourceItem ε)) :
    let reports := readRepeatedly calls buffer source
    reports.length = calls ∧
      ∃ left, ReadRun buffer source reports left ∧
        reports.flatMap ReadReport.received ++ sourceBytes left = sourceBytes source := by
  intro reports
  refine ⟨length_readRepeatedly calls buffer source, ?_⟩
  -- The first read hands its buffer and its source on to the others.
  induction calls generalizing buffer source with
  | zero => exact ⟨source, .nil, rfl⟩
  | succ calls ih =>
      obtain ⟨left, hrun, hbytes⟩ :=
        ih (readSome buffer source).buffer (readSome buffer source).source
      refine ⟨left, .cons (readsOnce_readSome buffer source) hrun, ?_⟩
      rw [← received_readSome buffer source, ← hbytes, ← List.append_assoc]
      rfl

/-- The stale second byte of the buffer is not counted by the second read. -/
example : ((readRepeatedly 3 [0, 0] [.deliver [1, 2, 3], .pending] : List (ReadReport Unit)).map
    ReadReport.received) = [[1, 2], [3], []] := by decide

end ResourceHandles
