import ResourceHandles.Transfer
import Mathlib.Tactic

/-!
# A write turn by turn

A write is a loop: as long as bytes are left, the sink is offered all of them from an offset
on, and the offset moves by what the sink takes.  Here the loop runs one poll at a time, with
the sink as a party of its own that keeps what it took.

What a write comes to from any point on is the same at every point, and at the start it is the
report of `writeFully`.  So whatever the invariant of the loop says of its end holds of the
report, and a rank that every turn lowers says that there is an end.
-/

namespace ResourceHandles

variable {ε : Type}

/-! ## Polls -/

/-- A sink between two polls: what is left of its script, how much it accepts at each poll
after that, and the bytes it has accepted. -/
structure Sink (ε : Type) where
  perPoll : Option Nat
  script : List (SinkItem ε)
  accepted : Bytes := []

/-- A poll of a sink: the part it was offered, and its answer. -/
structure SinkPoll (ε : Type) where
  offered : Bytes
  answer : SinkItem ε

/-- The bytes of a part that are taken with an answer. -/
def SinkItem.taken (part : Bytes) : SinkItem ε → Bytes
  | .accept count => part.take count
  | .pending => []
  | .fail _ => []

namespace Sink

/-- The answer to the next poll.  No more is accepted than is offered. -/
def answer (sink : Sink ε) (part : Bytes) : SinkItem ε :=
  match sink.script.headD (.accept (sink.perPoll.getD part.length)) with
  | .accept count => .accept (min count part.length)
  | .pending => .pending
  | .fail fault => .fail fault

def poll (sink : Sink ε) (part : Bytes) : Sink ε :=
  { sink with
    script := sink.script.tail
    accepted := sink.accepted ++ (sink.answer part).taken part }

theorem count_le {sink : Sink ε} {part : Bytes} {count : Nat}
    (hanswer : sink.answer part = .accept count) : count ≤ part.length := by
  unfold answer at hanswer
  split at hanswer
  · obtain rfl := SinkItem.accept.inj hanswer
    exact Nat.min_le_right _ _
  · cases hanswer
  · cases hanswer

/-- Only a script makes a write wait. -/
theorem script_ne_nil {sink : Sink ε} {part : Bytes} (hanswer : sink.answer part = .pending) :
    sink.script ≠ [] := by
  intro hscript
  unfold answer at hanswer
  rw [hscript] at hanswer
  cases hanswer

end Sink

namespace SinkPoll

/-- How a poll ends a write, if it does: the sink fails, or takes nothing. -/
def refusal? (poll : SinkPoll ε) : Option (WriteOutcome ε) :=
  match poll.answer with
  | .fail fault => some (.failed fault)
  | .accept 0 => some (.stuck poll.offered.length)
  | .accept (_ + 1) => none
  | .pending => none

theorem refusal?_eq_some_iff {poll : SinkPoll ε} {outcome : WriteOutcome ε} :
    poll.refusal? = some outcome ↔
      (∃ fault, poll.answer = .fail fault ∧ outcome = .failed fault) ∨
        poll.answer = .accept 0 ∧ outcome = .stuck poll.offered.length := by
  unfold refusal?
  split
  · next fault hanswer => simp [hanswer, eq_comm]
  · next hanswer => simp [hanswer, eq_comm]
  · next hanswer => simp [hanswer]
  · next hanswer => simp [hanswer]

end SinkPoll

/-! ## The loop -/

/-- A write between two polls: its data, how many of them are written, the sink, the polls up
to now, and the outcome once there is one. -/
structure WriteLoop (ε : Type) where
  data : Bytes
  written : Nat := 0
  sink : Sink ε
  polls : List (SinkPoll ε) := []
  outcome : Option (WriteOutcome ε) := none

namespace WriteLoop

def start (perPoll : Option Nat) (script : List (SinkItem ε)) (data : Bytes) : WriteLoop ε :=
  { data := data, sink := { perPoll := perPoll, script := script } }

/-- The part that the next poll offers. -/
def rest (loop : WriteLoop ε) : Bytes :=
  loop.data.drop loop.written

@[simp] theorem rest_mk (data : Bytes) (written : Nat) (sink : Sink ε)
    (polls : List (SinkPoll ε)) (outcome : Option (WriteOutcome ε)) :
    (⟨data, written, sink, polls, outcome⟩ : WriteLoop ε).rest = data.drop written := rfl

@[simp] theorem length_rest (loop : WriteLoop ε) :
    loop.rest.length = loop.data.length - loop.written :=
  List.length_drop

def polled (loop : WriteLoop ε) : WriteLoop ε :=
  { loop with
    sink := loop.sink.poll loop.rest
    polls := loop.polls ++ [⟨loop.rest, loop.sink.answer loop.rest⟩] }

@[simp] theorem polled_data (loop : WriteLoop ε) : loop.polled.data = loop.data := rfl

@[simp] theorem polled_written (loop : WriteLoop ε) : loop.polled.written = loop.written := rfl

@[simp] theorem polled_outcome (loop : WriteLoop ε) : loop.polled.outcome = loop.outcome := rfl

@[simp] theorem polled_perPoll (loop : WriteLoop ε) :
    loop.polled.sink.perPoll = loop.sink.perPoll := rfl

@[simp] theorem polled_script (loop : WriteLoop ε) :
    loop.polled.sink.script = loop.sink.script.tail := rfl

@[simp] theorem polled_accepted (loop : WriteLoop ε) :
    loop.polled.sink.accepted =
      loop.sink.accepted ++ (loop.sink.answer loop.rest).taken loop.rest := rfl

@[simp] theorem polled_polls (loop : WriteLoop ε) :
    loop.polled.polls = loop.polls ++ [⟨loop.rest, loop.sink.answer loop.rest⟩] := rfl

/-- One turn of the loop; none once the write is over. -/
def step? (loop : WriteLoop ε) : Option (WriteLoop ε) :=
  if loop.outcome.isSome then none
  else if loop.written < loop.data.length then
    match loop.sink.answer loop.rest with
    | .pending => some loop.polled
    | .fail fault => some { loop.polled with outcome := some (.failed fault) }
    | .accept count =>
      if count = 0 then
        some { loop.polled with outcome := some (.stuck (loop.data.length - loop.written)) }
      else some { loop.polled with written := loop.written + count }
  else some { loop with outcome := some .complete }

/-- The write after some turns; a write that is over stays as it is. -/
def after (loop : WriteLoop ε) : Nat → WriteLoop ε
  | 0 => loop
  | turns + 1 => (loop.after turns).step?.getD (loop.after turns)

/-- What a turn can do. -/
inductive Turn (loop : WriteLoop ε) : WriteLoop ε → Prop where
  | finished (hall : loop.data.length ≤ loop.written) :
      Turn loop { loop with outcome := some .complete }
  | waited (hleft : loop.written < loop.data.length)
      (hanswer : loop.sink.answer loop.rest = .pending) : Turn loop loop.polled
  | refused {outcome : WriteOutcome ε} (hleft : loop.written < loop.data.length)
      (hrefusal :
        (⟨loop.rest, loop.sink.answer loop.rest⟩ : SinkPoll ε).refusal? = some outcome) :
      Turn loop { loop.polled with outcome := some outcome }
  | moved {count : Nat} (hleft : loop.written < loop.data.length)
      (hanswer : loop.sink.answer loop.rest = .accept count) (hpositive : 0 < count) :
      Turn loop { loop.polled with written := loop.written + count }

variable {loop next : WriteLoop ε}

theorem turn_of_step? (hstep : loop.step? = some next) :
    loop.outcome = none ∧ loop.Turn next := by
  unfold step? at hstep
  split at hstep
  · cases hstep
  · next hrunning =>
      refine ⟨by simpa using hrunning, ?_⟩
      split at hstep
      · next hleft =>
          split at hstep
          · next hanswer =>
              obtain rfl := Option.some.inj hstep
              exact .waited hleft hanswer
          · next hanswer =>
              obtain rfl := Option.some.inj hstep
              exact .refused hleft (SinkPoll.refusal?_eq_some_iff.mpr (.inl ⟨_, hanswer, rfl⟩))
          · next count hanswer =>
              split at hstep
              · next hzero =>
                  obtain rfl := Option.some.inj hstep
                  rw [hzero] at hanswer
                  rw [← length_rest]
                  exact .refused hleft (SinkPoll.refusal?_eq_some_iff.mpr (.inr ⟨hanswer, rfl⟩))
              · next hcount =>
                  obtain rfl := Option.some.inj hstep
                  exact .moved hleft hanswer (Nat.pos_of_ne_zero hcount)
      · next hall =>
          obtain rfl := Option.some.inj hstep
          exact .finished (Nat.le_of_not_lt hall)

theorem step?_eq_none_iff : loop.step? = none ↔ loop.outcome.isSome := by
  unfold step?
  split
  · next hover => simpa using hover
  · next hrunning =>
      simp only [hrunning]
      split
      · split
        · simp
        · simp
        · split <;> simp
      · simp

/-- What every turn keeps holds after any number of turns. -/
theorem after_induction {P : WriteLoop ε → Prop} (hstart : P loop)
    (hturn : ∀ now next, P now → now.outcome = none → now.Turn next → P next) (turns : Nat) :
    P (loop.after turns) := by
  induction turns with
  | zero => exact hstart
  | succ turns ih =>
      rw [after]
      cases hstep : (loop.after turns).step? with
      | none => exact ih
      | some next =>
          obtain ⟨hrunning, hnext⟩ := turn_of_step? hstep
          exact hturn _ next ih hrunning hnext

theorem after_add (loop : WriteLoop ε) (turns later : Nat) :
    loop.after (turns + later) = (loop.after turns).after later := by
  induction later with
  | zero => rfl
  | succ later ih => rw [← Nat.add_assoc, after, ih, after]

/-! ## What holds at every turn -/

/-- What a write has done so far: the sink holds the data up to the offset, no poll has been
refused before the write was over, and the outcome says why it is over. -/
structure Sound (loop : WriteLoop ε) : Prop where
  written_le : loop.written ≤ loop.data.length
  accepted_eq : loop.sink.accepted = loop.data.take loop.written
  refused : ∀ outcome, (∃ poll ∈ loop.polls, poll.refusal? = some outcome) ↔
    loop.outcome = some outcome ∧ outcome ≠ .complete
  complete : loop.outcome = some .complete → loop.written = loop.data.length
  incomplete : ∀ outcome, loop.outcome = some outcome → outcome ≠ .complete →
    loop.written < loop.data.length
  stuck : ∀ count, loop.outcome = some (.stuck count) → count = loop.data.length - loop.written

theorem sound_start (perPoll : Option Nat) (script : List (SinkItem ε)) (data : Bytes) :
    (start perPoll script data).Sound := by
  constructor <;> simp [start]

theorem rest_ne_nil (hleft : loop.written < loop.data.length) : loop.rest ≠ [] := by
  unfold rest
  rw [ne_eq, List.drop_eq_nil_iff]
  omega

/-- While a write goes on, only its last poll can be refused. -/
theorem Sound.refused_polled
    (hsound : loop.Sound) (hrunning : loop.outcome = none) (outcome : WriteOutcome ε) :
    (∃ poll ∈ loop.polled.polls, poll.refusal? = some outcome) ↔
      (⟨loop.rest, loop.sink.answer loop.rest⟩ : SinkPoll ε).refusal? = some outcome := by
  have hnone : ∀ poll ∈ loop.polls, poll.refusal? ≠ some outcome := by
    intro poll hmem hrefusal
    have hover := (hsound.refused outcome).mp ⟨poll, hmem, hrefusal⟩
    rw [hrunning] at hover
    cases hover.1
  constructor
  · rintro ⟨poll, hmem, hrefusal⟩
    rcases List.mem_append.mp hmem with hold | hlast
    · exact absurd hrefusal (hnone poll hold)
    · rw [List.mem_singleton.mp hlast] at hrefusal
      exact hrefusal
  · intro hrefusal
    exact ⟨_, List.mem_append_right _ List.mem_cons_self, hrefusal⟩

theorem Sound.turn
    (hsound : loop.Sound) (hrunning : loop.outcome = none) (hturn : loop.Turn next) :
    next.Sound := by
  have haccepted := hsound.accepted_eq
  have hrefused := hsound.refused_polled hrunning
  cases hturn with
  | finished hall =>
      refine ⟨hsound.written_le, haccepted, ?_, ?_, ?_, ?_⟩
      · intro outcome
        rw [hsound.refused outcome, hrunning]
        constructor
        · rintro ⟨hover, -⟩
          cases hover
        · rintro ⟨hover, hcomplete⟩
          exact absurd (Option.some.inj hover).symm hcomplete
      · intro _
        exact Nat.le_antisymm hsound.written_le hall
      · intro outcome hover hcomplete
        exact absurd (Option.some.inj hover).symm hcomplete
      · intro count hover
        cases hover
  | waited hleft hanswer =>
      refine ⟨hleft.le, ?_, ?_, ?_, ?_, ?_⟩
      · simp [hanswer, SinkItem.taken, haccepted]
      · intro outcome
        rw [hrefused outcome, SinkPoll.refusal?_eq_some_iff]
        simp [hanswer, hrunning]
      all_goals simp [hrunning]
  | @refused outcome hleft hrefusal =>
      -- Nothing is taken at the poll that ends the write, and no poll before it was refused.
      have hcause := SinkPoll.refusal?_eq_some_iff.mp hrefusal
      have htaken : (loop.sink.answer loop.rest).taken loop.rest = [] := by
        rcases hcause with ⟨fault, hanswer, -⟩ | ⟨hanswer, -⟩
        · exact congrArg (SinkItem.taken loop.rest) hanswer
        · exact congrArg (SinkItem.taken loop.rest) hanswer
      have hcomplete : outcome ≠ .complete := by
        rintro rfl
        rcases hcause with ⟨fault, -, hfailed⟩ | ⟨-, hstuck⟩
        · cases hfailed
        · cases hstuck
      refine ⟨hleft.le, ?_, ?_, ?_, ?_, ?_⟩
      · simp [htaken, haccepted]
      · intro other
        refine (hrefused other).trans ?_
        rw [hrefusal]
        constructor
        · intro hother
          obtain rfl := Option.some.inj hother
          exact ⟨rfl, hcomplete⟩
        · exact fun hover => hover.1
      · intro hover
        exact absurd (Option.some.inj hover) hcomplete
      · exact fun _ _ _ => hleft
      · intro count hover
        obtain rfl := Option.some.inj hover
        rcases hcause with ⟨fault, -, hfailed⟩ | ⟨-, hstuck⟩
        · cases hfailed
        · exact (WriteOutcome.stuck.inj hstuck).trans (length_rest loop)
  | @moved count hleft hanswer hpositive =>
      have hcount : count ≤ loop.data.length - loop.written := by
        rw [← length_rest]
        exact Sink.count_le hanswer
      refine ⟨Nat.add_le_of_le_sub' hsound.written_le hcount, ?_, ?_, ?_, ?_, ?_⟩
      · simp only [polled_accepted, hanswer, SinkItem.taken, haccepted]
        exact List.take_add.symm
      · intro outcome
        refine (hrefused outcome).trans ?_
        rw [SinkPoll.refusal?_eq_some_iff]
        simp [hanswer, hrunning, hpositive.ne']
      all_goals simp [hrunning]

theorem Sound.after (hsound : loop.Sound) (turns : Nat) : (loop.after turns).Sound :=
  after_induction hsound (fun _ _ hnow hrunning hturn => hnow.turn hrunning hturn) turns

theorem data_after (loop : WriteLoop ε) (turns : Nat) : (loop.after turns).data = loop.data := by
  refine after_induction (P := fun now => now.data = loop.data) rfl ?_ turns
  intro now next hnow hrunning hturn
  cases hturn with
  | finished => exact hnow
  | waited => exact hnow
  | refused => exact hnow
  | moved => exact hnow

theorem Sound.accepted_append_rest (hsound : loop.Sound) :
    loop.sink.accepted ++ loop.rest = loop.data := by
  rw [hsound.accepted_eq]
  exact List.take_append_drop _ _

theorem Sound.accepted_eq_data_iff (hsound : loop.Sound) :
    loop.sink.accepted = loop.data ↔ loop.written = loop.data.length := by
  have hle := hsound.written_le
  rw [hsound.accepted_eq, List.take_eq_self_iff]
  omega

theorem Sound.failed_iff (hsound : loop.Sound) (fault : ε) :
    loop.outcome = some (.failed fault) ↔ ∃ poll ∈ loop.polls, poll.answer = .fail fault := by
  have hrefused := hsound.refused (.failed fault)
  simp only [SinkPoll.refusal?_eq_some_iff] at hrefused
  simpa [eq_comm] using hrefused.symm

theorem Sound.length_accepted (hsound : loop.Sound) :
    loop.sink.accepted.length = loop.written := by
  rw [hsound.accepted_eq, List.length_take]
  exact Nat.min_eq_left hsound.written_le

theorem Sound.stuck_iff (hsound : loop.Sound) (count : Nat) :
    loop.outcome = some (.stuck count) ↔
      count = loop.data.length - loop.sink.accepted.length ∧
        ∃ poll ∈ loop.polls, poll.answer = .accept 0 := by
  rw [hsound.length_accepted]
  constructor
  · intro hover
    refine ⟨hsound.stuck count hover, ?_⟩
    obtain ⟨poll, hmem, hrefusal⟩ := (hsound.refused _).mpr ⟨hover, by simp⟩
    rcases SinkPoll.refusal?_eq_some_iff.mp hrefusal with ⟨fault, -, hfailed⟩ | ⟨hanswer, -⟩
    · cases hfailed
    · exact ⟨poll, hmem, hanswer⟩
  · rintro ⟨rfl, poll, hmem, hanswer⟩
    have hrefusal := SinkPoll.refusal?_eq_some_iff.mpr (.inr ⟨hanswer, rfl⟩)
    obtain ⟨hover, -⟩ := (hsound.refused _).mp ⟨poll, hmem, hrefusal⟩
    rw [hover, hsound.stuck _ hover]

/-- A write that is over has delivered everything exactly if it says so. -/
theorem Sound.complete_iff (hsound : loop.Sound) {outcome : WriteOutcome ε}
    (hover : loop.outcome = some outcome) :
    outcome = .complete ↔ loop.sink.accepted = loop.data := by
  rw [hsound.accepted_eq_data_iff]
  constructor
  · rintro rfl
    exact hsound.complete hover
  · intro hall
    by_contra hcomplete
    exact (hsound.incomplete outcome hover hcomplete).ne hall

/-- What is offered at a turn is all that the sink has not taken. -/
theorem Turn.polls_eq (hturn : loop.Turn next) :
    next.polls = loop.polls ∨
      loop.rest ≠ [] ∧ ∃ answer, next.polls = loop.polls ++ [⟨loop.rest, answer⟩] := by
  cases hturn with
  | finished => exact .inl rfl
  | waited hleft => exact .inr ⟨rest_ne_nil hleft, _, rfl⟩
  | refused hleft => exact .inr ⟨rest_ne_nil hleft, _, rfl⟩
  | moved hleft => exact .inr ⟨rest_ne_nil hleft, _, rfl⟩

theorem polls_after_succ (loop : WriteLoop ε) (turns : Nat) :
    (loop.after (turns + 1)).polls = (loop.after turns).polls ∨
      (loop.after turns).rest ≠ [] ∧
        ∃ answer, (loop.after (turns + 1)).polls =
          (loop.after turns).polls ++ [⟨(loop.after turns).rest, answer⟩] := by
  rw [after]
  cases hstep : (loop.after turns).step? with
  | none => exact .inl rfl
  | some next => exact (turn_of_step? hstep).2.polls_eq

/-! ## The end of a write -/

/-- The sink is not polled any more: everything is written, or the write is over. -/
def Settled (loop : WriteLoop ε) : Prop :=
  loop.data.length ≤ loop.written ∨ loop.outcome.isSome

theorem Sound.settled (hsound : loop.Sound)
    (hlast : loop.sink.accepted = loop.data ∨
      ∃ poll ∈ loop.polls, poll.answer = .accept 0 ∨ ∃ fault, poll.answer = .fail fault) :
    loop.Settled := by
  rcases hlast with hall | ⟨poll, hmem, hanswer | ⟨fault, hanswer⟩⟩
  · exact .inl (hsound.accepted_eq_data_iff.mp hall).ge
  · have hover := (hsound.stuck_iff _).mpr ⟨rfl, poll, hmem, hanswer⟩
    exact .inr (by rw [hover]; rfl)
  · have hover := (hsound.failed_iff fault).mpr ⟨poll, hmem, hanswer⟩
    exact .inr (by rw [hover]; rfl)

theorem Settled.after (hsettled : loop.Settled) (turns : Nat) :
    (loop.after turns).polls = loop.polls := by
  have hkept :
      (loop.after turns).Settled ∧ (loop.after turns).polls = loop.polls := by
    refine after_induction (P := fun now => now.Settled ∧ now.polls = loop.polls)
      ⟨hsettled, rfl⟩ ?_ turns
    rintro now next ⟨hnow, hpolls⟩ hrunning hturn
    have hall : now.data.length ≤ now.written := by
      rcases hnow with hall | hover
      · exact hall
      · rw [hrunning] at hover
        cases hover
    cases hturn with
    | finished => exact ⟨Or.inr rfl, hpolls⟩
    | waited hleft => exact absurd hall (Nat.not_le.mpr hleft)
    | refused hleft => exact absurd hall (Nat.not_le.mpr hleft)
    | moved hleft => exact absurd hall (Nat.not_le.mpr hleft)
  exact hkept.2

/-- A bound on the turns that are left. -/
def remaining (loop : WriteLoop ε) : Nat :=
  if loop.outcome.isSome then 0
  else loop.sink.script.length + (loop.data.length - loop.written) + 1

theorem remaining_of_running (hrunning : loop.outcome = none) :
    loop.remaining = loop.sink.script.length + (loop.data.length - loop.written) + 1 := by
  simp [remaining, hrunning]

theorem Turn.remaining_lt (hturn : loop.Turn next) (hrunning : loop.outcome = none) :
    next.remaining < loop.remaining := by
  rw [remaining_of_running hrunning]
  -- Waiting uses up an item of the script, and moving leaves fewer bytes.
  cases hturn with
  | finished => exact Nat.succ_pos _
  | waited hleft hanswer =>
      have hscript : 0 < loop.sink.script.length :=
        List.length_pos_iff.mpr (Sink.script_ne_nil hanswer)
      have hnext :
          loop.polled.remaining =
            loop.sink.script.tail.length + (loop.data.length - loop.written) + 1 :=
        remaining_of_running hrunning
      rw [hnext, List.length_tail]
      omega
  | refused => exact Nat.succ_pos _
  | @moved count hleft hanswer hpositive =>
      have hnext :
          ({ loop.polled with written := loop.written + count } : WriteLoop ε).remaining =
            loop.sink.script.tail.length + (loop.data.length - (loop.written + count)) + 1 :=
        remaining_of_running hrunning
      rw [hnext, List.length_tail]
      omega

theorem remaining_after_le (loop : WriteLoop ε) (turns : Nat) :
    (loop.after turns).remaining ≤ loop.remaining - turns := by
  induction turns with
  | zero => exact Nat.le_refl _
  | succ turns ih =>
      rw [after]
      cases hstep : (loop.after turns).step? with
      | none =>
          have hover := step?_eq_none_iff.mp hstep
          simp [remaining, hover]
      | some next =>
          obtain ⟨hrunning, hturn⟩ := turn_of_step? hstep
          have hlower := hturn.remaining_lt hrunning
          simp only [Option.getD_some]
          omega

theorem over_of_remaining_le {turns : Nat} (hturns : loop.remaining ≤ turns) :
    (loop.after turns).outcome.isSome := by
  have hnone := loop.remaining_after_le turns
  by_contra hrunning
  rw [remaining, if_neg hrunning] at hnone
  omega

/-! ## What a write comes to -/

theorem drop_min_length (count : Nat) (data : Bytes) :
    data.drop (min count data.length) = data.drop count := by
  rw [List.drop_eq_drop_iff]
  simp

theorem take_min_length (count : Nat) (data : Bytes) :
    data.take (min count data.length) = data.take count := by
  rw [List.take_eq_take_iff]
  simp

theorem writeFully_nil (perPoll : Option Nat) (script : List (SinkItem ε)) :
    writeFully perPoll script [] = ⟨.complete, [], []⟩ := by
  cases script with
  | nil =>
      rw [writeFully, writeSteadily.eq_def]
      rfl
  | cons item script => rfl

theorem writeSteadily_eq (perPoll : Option Nat) {data : Bytes} (hne : data ≠ []) :
    writeSteadily (ε := ε) perPoll data =
      let count := min (perPoll.getD data.length) data.length
      if count = 0 then ⟨.stuck data.length, [data.length], []⟩
      else (writeSteadily perPoll (data.drop count)).after data.length (data.take count) := by
  have hempty : data.isEmpty = false := by simpa using hne
  have hlength : data.length ≠ 0 := by simpa using hne
  rw [writeSteadily.eq_def]
  simp only [hempty, Bool.false_eq_true, if_false]
  cases perPoll with
  | none =>
      have hrest : writeSteadily (ε := ε) none [] = ⟨.complete, [], []⟩ := by
        rw [writeSteadily.eq_def]
        rfl
      simp [hlength, hrest, WriteReport.after]
  | some count =>
      cases count with
      | zero => simp
      | succ count => simp [hlength, drop_min_length, take_min_length]

/-- A write is its first poll and, if that is not refused, the write of what is left. -/
theorem writeFully_eq (sink : Sink ε) {data : Bytes} (hne : data ≠ []) :
    writeFully sink.perPoll sink.script data =
      match sink.answer data with
      | .pending => (writeFully sink.perPoll sink.script.tail data).after data.length []
      | .fail fault => ⟨.failed fault, [data.length], []⟩
      | .accept count =>
        if count = 0 then ⟨.stuck data.length, [data.length], []⟩
        else
          (writeFully sink.perPoll sink.script.tail (data.drop count)).after data.length
            (data.take count) := by
  have hempty : data.isEmpty = false := by simpa using hne
  have hlength : data.length ≠ 0 := by simpa using hne
  obtain ⟨perPoll, script, accepted⟩ := sink
  cases script with
  | nil =>
      simp only [writeFully, Sink.answer, List.headD_nil, List.tail_nil]
      exact writeSteadily_eq perPoll hne
  | cons item script =>
      cases item with
      | accept count =>
          simp [writeFully, Sink.answer, hempty, hlength, drop_min_length, take_min_length]
      | pending => simp [writeFully, Sink.answer, hempty]
      | fail fault => simp [writeFully, Sink.answer, hempty]

/-- What has happened in a write so far, and its outcome: the report if it is over. -/
def reportOf (loop : WriteLoop ε) (outcome : WriteOutcome ε) : WriteReport ε :=
  ⟨outcome, loop.polls.map (·.offered.length), loop.sink.accepted⟩

/-- The report that a write comes to: what has happened so far, and from here on the report of
the write of what is left. -/
def forecast (loop : WriteLoop ε) : WriteReport ε :=
  match loop.outcome with
  | some outcome => loop.reportOf outcome
  | none =>
    let report := writeFully loop.sink.perPoll loop.sink.script loop.rest
    ⟨report.outcome, loop.polls.map (·.offered.length) ++ report.offered,
      loop.sink.accepted ++ report.sink⟩

theorem forecast_start (perPoll : Option Nat) (script : List (SinkItem ε)) (data : Bytes) :
    (start perPoll script data).forecast = writeFully perPoll script data := rfl

theorem Turn.forecast_eq (hturn : loop.Turn next) (hrunning : loop.outcome = none) :
    next.forecast = loop.forecast := by
  cases hturn with
  | finished hall =>
      have hrest : loop.rest = [] := List.drop_eq_nil_of_le hall
      simp [forecast, reportOf, hrunning, hrest, writeFully_nil]
  | waited hleft hanswer =>
      have hreport := writeFully_eq loop.sink (rest_ne_nil hleft)
      have hrest : loop.polled.rest = loop.rest := rfl
      simp only [hanswer] at hreport
      simp [forecast, hrunning, hrest, hreport, hanswer, SinkItem.taken, WriteReport.after]
  | @refused outcome hleft hrefusal =>
      have hreport := writeFully_eq loop.sink (rest_ne_nil hleft)
      rcases SinkPoll.refusal?_eq_some_iff.mp hrefusal with
        ⟨fault, hanswer, rfl⟩ | ⟨hanswer, rfl⟩
      · dsimp only at hanswer
        simp only [hanswer] at hreport
        simp [forecast, reportOf, hrunning, hreport, hanswer, SinkItem.taken]
      · dsimp only at hanswer
        simp only [hanswer, if_pos] at hreport
        simp [forecast, reportOf, hrunning, hreport, hanswer, SinkItem.taken]
  | @moved count hleft hanswer hpositive =>
      have hreport := writeFully_eq loop.sink (rest_ne_nil hleft)
      have hrest : loop.data.drop (loop.written + count) = loop.rest.drop count := by
        simp [rest]
      simp only [hanswer, if_neg hpositive.ne'] at hreport
      simp [forecast, hrunning, hrest, hreport, hanswer, SinkItem.taken, WriteReport.after]

theorem forecast_after (loop : WriteLoop ε) (turns : Nat) :
    (loop.after turns).forecast = loop.forecast :=
  after_induction (P := fun now => now.forecast = loop.forecast) rfl
    (fun _ _ hnow hrunning hturn => (hturn.forecast_eq hrunning).trans hnow) turns

/-- The end of the loop is what the report says. -/
theorem report_of_over
    {perPoll : Option Nat} {script : List (SinkItem ε)} {data : Bytes} {turns : Nat}
    (hturns : script.length + data.length < turns) :
    let now := (start perPoll script data).after turns
    let report := writeFully perPoll script data
    now.outcome = some report.outcome ∧ now.reportOf report.outcome = report := by
  intro now report
  have hremaining : (start perPoll script data).remaining ≤ turns := by
    simpa [remaining, start] using hturns
  obtain ⟨outcome, hover⟩ := Option.isSome_iff_exists.mp (over_of_remaining_le hremaining)
  have hforecast : now.forecast = report :=
    (forecast_after _ turns).trans (forecast_start perPoll script data)
  have hreport : now.reportOf outcome = report := by
    rw [← hforecast, forecast, hover]
  obtain rfl : outcome = report.outcome := congrArg WriteReport.outcome hreport
  exact ⟨hover, hreport⟩

end WriteLoop

/-- At every turn of a write the sink holds a prefix of the data, and the sink is offered the
rest of them or is not polled; once it has taken all data or a poll was refused, it is not
polled again.  The loop ends, and the report says how: all data are delivered exactly if the
sink holds them; a fault is reported exactly if it was the answer to a poll, and being stuck
exactly if a poll was answered with nothing, with the number of bytes that the sink has not
taken. -/
theorem writeFully_delivers
    (perPoll : Option Nat) (script : List (SinkItem ε)) (data : Bytes) :
    let loop := (WriteLoop.start perPoll script data).after
    let report := writeFully perPoll script data
    (∀ turns, ∃ rest, (loop turns).sink.accepted ++ rest = data ∧
      ((loop (turns + 1)).polls = (loop turns).polls ∨
        rest ≠ [] ∧
          ∃ answer, (loop (turns + 1)).polls = (loop turns).polls ++ [⟨rest, answer⟩])) ∧
    (∀ turns later,
      ((loop turns).sink.accepted = data ∨
        ∃ poll ∈ (loop turns).polls,
          poll.answer = .accept 0 ∨ ∃ fault, poll.answer = .fail fault) →
      (loop (turns + later)).polls = (loop turns).polls) ∧
    (∀ turns, script.length + data.length < turns →
      (loop turns).outcome = some report.outcome ∧ (loop turns).sink.accepted = report.sink ∧
        (loop turns).polls.map (·.offered.length) = report.offered ∧
        (∀ fault, report.outcome = .failed fault ↔
          ∃ poll ∈ (loop turns).polls, poll.answer = .fail fault) ∧
        ∀ count, report.outcome = .stuck count ↔
          count = data.length - report.sink.length ∧
            ∃ poll ∈ (loop turns).polls, poll.answer = .accept 0) ∧
    (report.outcome = .complete ↔ report.sink = data) ∧
    ∀ count, report.outcome = .stuck count →
      stuckMessage count =
        "sink accepted 0 of " ++ toString (data.length - report.sink.length) ++ " bytes" := by
  intro loop report
  have hsound : ∀ turns, (loop turns).Sound :=
    fun turns => (WriteLoop.sound_start _ _ _).after turns
  have hdata : ∀ turns, (loop turns).data = data := fun turns => WriteLoop.data_after _ turns
  have hend : ∀ turns, script.length + data.length < turns →
      (loop turns).outcome = some report.outcome ∧
        (loop turns).reportOf report.outcome = report :=
    fun turns hturns => WriteLoop.report_of_over hturns
  have hstuck : ∀ turns, script.length + data.length < turns → ∀ count,
      report.outcome = .stuck count ↔ count = data.length - report.sink.length ∧
        ∃ poll ∈ (loop turns).polls, poll.answer = .accept 0 := by
    intro turns hturns count
    obtain ⟨hover, hreport⟩ := hend turns hturns
    have hsink : (loop turns).sink.accepted = report.sink := congrArg WriteReport.sink hreport
    rw [← hsink, ← hdata turns, ← (hsound turns).stuck_iff count, hover, Option.some.injEq]
  have hlast := Nat.lt_succ_self (script.length + data.length)
  refine ⟨?_, ?_, ?_, ?_, ?_⟩
  · intro turns
    refine ⟨(loop turns).rest, ?_, WriteLoop.polls_after_succ _ turns⟩
    rw [(hsound turns).accepted_append_rest, hdata]
  · intro turns later hlast
    rw [← hdata turns] at hlast
    rw [← ((hsound turns).settled hlast).after later, ← WriteLoop.after_add]
  · intro turns hturns
    obtain ⟨hover, hreport⟩ := hend turns hturns
    refine ⟨hover, congrArg WriteReport.sink hreport, congrArg WriteReport.offered hreport, ?_,
      hstuck turns hturns⟩
    intro fault
    rw [← (hsound turns).failed_iff, hover, Option.some.injEq]
  · obtain ⟨hover, hreport⟩ := hend _ hlast
    have hsink : (loop _).sink.accepted = report.sink := congrArg WriteReport.sink hreport
    rw [(hsound _).complete_iff hover, hsink, hdata]
  · intro count houtcome
    rw [((hstuck _ hlast count).mp houtcome).1]
    rfl

/-- Two bytes are taken, the sink makes the write wait, and then it takes nothing. -/
example : (writeFully none [.accept 2, .pending, .accept 0] [7, 8, 9] : WriteReport Unit) =
    ⟨.stuck 1, [3, 1, 1], [7, 8]⟩ := by decide

end ResourceHandles
