import ResourceHandles.Bytes

/-!
# Partial transfers

Sources and sinks move as many bytes as they like at a time.  A read asks once
for as much as the buffer holds and passes on what arrives; only a source that
is not ready is asked again.  A write goes on from where the last transfer
stopped until nothing is left, and fails if the sink takes nothing of a part
that is not empty.

Sources and sinks are scripts here: one item for each time they are polled.
The faults they report may be of any type.
-/

namespace ResourceHandles

/-- What a source does when it is polled. -/
inductive SourceItem (ε : Type) where
  | deliver (data : Bytes)
  | pending
  | fail (fault : ε)
  deriving Repr, DecidableEq

/-- How a read ends: with the number of bytes at the front of the buffer, or
with the fault of the source. -/
inductive ReadOutcome (ε : Type) where
  | received (count : Nat)
  | failed (fault : ε)
  deriving Repr, DecidableEq

/-- A finished read: its outcome, the room offered at each poll, the buffer
afterwards, and what is left of the source. -/
structure ReadReport (ε : Type) where
  outcome : ReadOutcome ε
  offered : List Nat
  buffer : Bytes
  source : List (SourceItem ε)
  deriving Repr, DecidableEq

/-- The source after `count` bytes of its first item were delivered; an item
that is used up is gone. -/
def SourceItem.after {ε : Type} (data : Bytes) (count : Nat) (rest : List (SourceItem ε)) :
    List (SourceItem ε) :=
  if (data.drop count).isEmpty then rest else .deliver (data.drop count) :: rest

def readSome {ε : Type} (buffer : Bytes) : List (SourceItem ε) → ReadReport ε
  | [] => ⟨.received 0, [buffer.length], buffer, []⟩
  | .pending :: rest =>
    let report := readSome buffer rest
    { report with offered := buffer.length :: report.offered }
  | .fail fault :: rest => ⟨.failed fault, [buffer.length], buffer, rest⟩
  | .deliver data :: rest =>
    let count := min data.length buffer.length
    ⟨.received count, [buffer.length], data.take count ++ buffer.drop count,
      SourceItem.after data count rest⟩

def readRepeatedly {ε : Type} : Nat → Bytes → List (SourceItem ε) → List (ReadReport ε)
  | 0, _, _ => []
  | calls + 1, buffer, source =>
    let report := readSome buffer source
    report :: readRepeatedly calls report.buffer report.source

/-- What a sink does when it is polled. -/
inductive SinkItem (ε : Type) where
  | accept (count : Nat)
  | pending
  | fail (fault : ε)
  deriving Repr, DecidableEq

/-- How a write ends: all is delivered, the sink failed, or it accepted nothing
of a part of the given length. -/
inductive WriteOutcome (ε : Type) where
  | complete
  | failed (fault : ε)
  | stuck (remaining : Nat)
  deriving Repr, DecidableEq

def stuckMessage (remaining : Nat) : String :=
  "sink accepted 0 of " ++ toString remaining ++ " bytes"

/-- A finished write: its outcome, the part offered at each poll by its length,
and what the sink has accepted. -/
structure WriteReport (ε : Type) where
  outcome : WriteOutcome ε
  offered : List Nat
  sink : Bytes
  deriving Repr, DecidableEq

/-- A report with one more poll in front, at which the sink accepted `accepted`
of `offered` bytes. -/
def WriteReport.after {ε : Type} (offered : Nat) (accepted : Bytes) (report : WriteReport ε) :
    WriteReport ε :=
  ⟨report.outcome, offered :: report.offered, accepted ++ report.sink⟩

/-- Writes to a sink that accepts a fixed number of bytes each time, or
everything if no number is given. -/
def writeSteadily {ε : Type} (perPoll : Option Nat) (data : Bytes) : WriteReport ε :=
  if data.isEmpty then ⟨.complete, [], []⟩
  else
    match perPoll with
    | none => ⟨.complete, [data.length], data⟩
    | some 0 => ⟨.stuck data.length, [data.length], []⟩
    | some (count + 1) =>
      (writeSteadily (some (count + 1)) (data.drop (count + 1))).after data.length
        (data.take (count + 1))
termination_by data.length
decreasing_by
  rename_i hnonempty
  have hpositive : 0 < data.length := by
    cases data with
    | nil => simp at hnonempty
    | cons => simp
  simp only [List.length_drop]
  omega

/-- Writes all data to a sink that plays a script and then accepts a fixed
number of bytes each time. -/
def writeFully {ε : Type} (perPoll : Option Nat) : List (SinkItem ε) → Bytes → WriteReport ε
  | [], data => writeSteadily perPoll data
  | item :: rest, data =>
    if data.isEmpty then ⟨.complete, [], []⟩
    else
      match item with
      | .pending => (writeFully perPoll rest data).after data.length []
      | .fail fault => ⟨.failed fault, [data.length], []⟩
      | .accept count =>
        if count = 0 then ⟨.stuck data.length, [data.length], []⟩
        else (writeFully perPoll rest (data.drop count)).after data.length (data.take count)

end ResourceHandles
