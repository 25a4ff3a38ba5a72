import ResourceHandles.Session.Step
import ResourceHandles.Proofs.Machine.Amounts

/-!
# Scripts that play alone

A script that plays on a machine on which nothing else is done makes one call after the
other, until it ends or one of its calls waits for something that does not come.  It makes
a bounded number of calls: every stage of a script is passed once, but for reading, and
each read that does not end the reading leaves less to read.
-/

namespace ResourceHandles

namespace Script

variable {machine next last : Machine} {space limit bound : Nat} {script : Script}
variable {call : Call} {reply : Reply} {outcome : Outcome} {handle : Handle}

/-- A script makes a number of calls on a machine; it leaves a machine and ends with an
outcome. -/
inductive Plays (space : Nat) : Machine → Script → Nat → Machine → Outcome → Prop where
  | finished {machine : Machine} {script : Script} {outcome : Outcome}
      (hturn : script.turn = .finish outcome) : Plays space machine script 0 machine outcome
  | answered {machine next last : Machine} {script : Script} {call : Call} {reply : Reply}
      {count : Nat} {outcome : Outcome}
      (hturn : script.turn = .call call)
      (halone : machine.alone space call = (next, some reply))
      (hlater : Plays space next (script.after reply) count last outcome) :
      Plays space machine script (count + 1) last outcome
  | unanswered {machine last : Machine} {script : Script} {call : Call}
      (hturn : script.turn = .call call) (halone : machine.alone space call = (last, none)) :
      Plays space machine script 1 last (.failed .timedOut)

/-- A script makes no more than a number of calls. -/
def EndsWithin (machine : Machine) (space : Nat) (script : Script) (limit : Nat) : Prop :=
  ∃ count last outcome, count ≤ limit ∧ Plays space machine script count last outcome

theorem EndsWithin.mono
    {larger : Nat} (hends : EndsWithin machine space script limit) (hle : limit ≤ larger) :
    EndsWithin machine space script larger := by
  obtain ⟨count, last, outcome, hcount, hplays⟩ := hends
  exact ⟨count, last, outcome, hcount.trans hle, hplays⟩

theorem endsWithin_of_finish (hturn : script.turn = .finish outcome) :
    EndsWithin machine space script limit :=
  ⟨0, machine, outcome, Nat.zero_le _, .finished hturn⟩

theorem endsWithin_ended : EndsWithin machine space (.ended outcome) limit :=
  endsWithin_of_finish rfl

/-- A call is one more than the calls that come after it. -/
theorem endsWithin_of_call
    (hturn : script.turn = .call call)
    (hafter :
      ∀ next reply, machine.alone space call = (next, some reply) →
        EndsWithin next space (script.after reply) limit) :
    EndsWithin machine space script (limit + 1) := by
  cases halone : machine.alone space call with
  | mk next answer =>
      cases answer with
      | none => exact ⟨1, next, _, Nat.le_add_left 1 limit, .unanswered hturn halone⟩
      | some reply =>
          obtain ⟨count, last, outcome, hcount, hplays⟩ := hafter next reply halone
          exact ⟨count + 1, last, outcome, Nat.add_le_add_right hcount 1,
            .answered hturn halone hplays⟩

/-! ## Reading -/

/-- Scripts that read until there is nothing left: each read that does not end the reading
takes away what there is to read, and reading goes on. -/
theorem endsWithin_of_reading
    {reads : Script → Prop}
    (hturn :
      ∀ script, reads script →
        script.turn = .call (.read handle) ∨ ∃ outcome, script.turn = .finish outcome)
    (hafter :
      ∀ script reply, reads script →
        (∀ machine, EndsWithin machine space (script.after reply) limit) ∨
          ∃ data, reply = .bytes data ∧ data ≠ [] ∧ reads (script.after reply))
    (hreads : reads script) :
    EndsWithin machine space script (machine.remaining space handle + limit + 1) := by
  -- The induction is on what is left to read; a read that passes on nothing ends the reading.
  generalize hremaining : machine.remaining space handle = remaining
  induction remaining using Nat.strong_induction_on generalizing machine script with
  | _ remaining ih =>
      rcases hturn script hreads with hread | ⟨outcome, hfinish⟩
      · apply endsWithin_of_call hread
        intro next reply halone
        rcases hafter script reply hreads with hends | ⟨data, rfl, hdata, hlater⟩
        · exact (hends next).mono (Nat.le_add_left _ _)
        · have hless := Machine.remaining_alone_read halone
          have hpositive := List.length_pos_iff.mpr hdata
          rw [hremaining] at hless
          exact (ih (next.remaining space handle) (by omega) hlater rfl).mono (by omega)
      · exact endsWithin_of_finish hfinish

theorem endsWithin_drain (chunks : List Bytes) :
    EndsWithin machine space (.drain handle chunks) (machine.remaining space handle + 1) := by
  apply @endsWithin_of_reading machine space 0 _ handle
    (fun script => ∃ chunks, script = .drain handle chunks)
  · rintro _ ⟨chunks, rfl⟩
    exact Or.inl rfl
  · rintro _ reply ⟨chunks, rfl⟩
    cases reply with
    | handle opened => exact Or.inl fun _ => endsWithin_ended
    | done => exact Or.inl fun _ => endsWithin_ended
    | failed fault => exact Or.inl fun _ => endsWithin_ended
    | bytes data =>
        cases data with
        | nil => exact Or.inl fun _ => endsWithin_ended
        | cons byte rest =>
            exact Or.inr ⟨_, rfl, List.cons_ne_nil _ _, (byte :: rest) :: chunks, rfl⟩
  · exact ⟨chunks, rfl⟩

theorem endsWithin_gather (wanted size count : Nat) (chunks : List Bytes) :
    EndsWithin machine space (.gather handle wanted size count chunks)
      (machine.remaining space handle + 1) := by
  apply @endsWithin_of_reading machine space 0 _ handle
    (fun script => ∃ count chunks, script = .gather handle wanted size count chunks)
  · rintro _ ⟨count, chunks, rfl⟩
    by_cases hcount : count < wanted
    · exact Or.inl (if_pos hcount)
    · exact Or.inr ⟨_, if_neg hcount⟩
  · rintro _ reply ⟨count, chunks, rfl⟩
    cases reply with
    | handle opened => exact Or.inl fun _ => endsWithin_ended
    | done => exact Or.inl fun _ => endsWithin_ended
    | failed fault => exact Or.inl fun _ => endsWithin_ended
    | bytes data =>
        cases data with
        | nil => exact Or.inl fun _ => endsWithin_ended
        | cons byte rest =>
            exact Or.inr ⟨_, rfl, List.cons_ne_nil _ _, _, (byte :: rest) :: chunks, rfl⟩
  · exact ⟨count, chunks, rfl⟩

/-! ## Round trips -/

section RoundTrip

variable {path : Path}

theorem endsWithin_unlink (data : Bytes) :
    EndsWithin machine space (.roundTrip path (.unlink data)) 1 := by
  apply endsWithin_of_call rfl
  intro next reply _
  cases reply with
  | _ => exact endsWithin_ended

theorem endsWithin_closeRead (data : Bytes) :
    EndsWithin machine space (.roundTrip path (.closeRead handle data)) 2 := by
  apply endsWithin_of_call rfl
  intro next reply _
  cases reply with
  | failed fault => exact endsWithin_ended
  | _ => exact endsWithin_unlink data

theorem endsWithin_read (chunks : List Bytes) :
    EndsWithin machine space (.roundTrip path (.read handle chunks))
      (machine.remaining space handle + 3) := by
  apply @endsWithin_of_reading machine space 2 _ handle
    (fun script => ∃ chunks, script = .roundTrip path (.read handle chunks))
  · rintro _ ⟨chunks, rfl⟩
    exact Or.inl rfl
  · rintro _ reply ⟨chunks, rfl⟩
    cases reply with
    | handle opened => exact Or.inl fun _ => endsWithin_ended
    | done => exact Or.inl fun _ => endsWithin_ended
    | failed fault => exact Or.inl fun _ => endsWithin_ended
    | bytes data =>
        cases data with
        | nil => exact Or.inl fun _ => endsWithin_closeRead _
        | cons byte rest =>
            exact Or.inr ⟨_, rfl, List.cons_ne_nil _ _, (byte :: rest) :: chunks, rfl⟩
  · exact ⟨chunks, rfl⟩

theorem endsWithin_reopen (hwithin : machine.Within bound) :
    EndsWithin machine space (.roundTrip path .reopen) (bound + 4) := by
  apply endsWithin_of_call rfl
  intro next reply halone
  cases reply with
  | handle opened =>
      have hnext := hwithin.open space path (some [.read])
      rw [show machine.alone space (.open path (some [.read])) = (next, some (.handle opened))
        from halone] at hnext
      exact (endsWithin_read []).mono
        (Nat.add_le_add_right (hnext.remaining_le space opened) 3)
  | _ => exact endsWithin_ended

theorem endsWithin_closeFilled (hwithin : machine.Within bound) :
    EndsWithin machine space (.roundTrip path (.closeFilled handle)) (bound + 5) := by
  apply endsWithin_of_call rfl
  intro next reply halone
  have hnext := hwithin.close space handle
  rw [show machine.alone space (.close handle) = (next, some reply) from halone] at hnext
  cases reply with
  | failed fault => exact endsWithin_ended
  | _ => exact endsWithin_reopen hnext

theorem endsWithin_fill
    {data : Bytes} (hwithin : (machine.alone space (.write handle data)).1.Within bound) :
    EndsWithin machine space (.roundTrip path (.fill handle data)) (bound + 6) := by
  apply endsWithin_of_call rfl
  intro next reply halone
  rw [show machine.alone space (.write handle data) = (next, some reply) from halone] at hwithin
  cases reply with
  | failed fault => exact endsWithin_ended
  | _ => exact endsWithin_closeFilled hwithin

theorem endsWithin_create
    (hwithin : machine.Within bound) (htable : (machine.space space).table.WellFormed)
    (data : Bytes) :
    EndsWithin machine space (.roundTrip path (.create data)) (bound + data.length + 7) := by
  apply endsWithin_of_call rfl
  intro next reply halone
  cases reply with
  | handle opened => exact endsWithin_fill (hwithin.fill htable halone data)
  | _ => exact endsWithin_ended

end RoundTrip

/-! ## Requests -/

section Request

variable {address : String}

/-- A request makes one call in each of its stages. -/
theorem endsWithin_of_stage
    {stage : Request}
    (hunder :
      ∀ next reply later, stage.after address reply = .under later →
        EndsWithin next space (.request address later) limit) :
    EndsWithin machine space (.request address stage) (limit + 1) := by
  apply endsWithin_of_call rfl
  intro next reply _
  have hafter : EndsWithin next space (afterRequest address reply stage) limit := by
    unfold afterRequest
    split
    · next later hlater => exact hunder next reply later hlater
    · next response hover =>
        cases response with
        | _ => exact endsWithin_ended
  cases reply with
  | failed fault => exact endsWithin_ended
  | _ => exact hafter

theorem endsWithin_close (data : Bytes) :
    EndsWithin machine space (.request address (.close handle data)) 1 := by
  apply endsWithin_of_stage
  intro next reply later hunder
  cases reply with
  | _ => cases hunder

theorem endsWithin_receive :
    EndsWithin machine space (.request address (.receive handle)) 2 := by
  apply endsWithin_of_stage
  intro next reply later hunder
  cases reply with
  | bytes data =>
      cases hunder
      exact endsWithin_close data
  | _ => cases hunder

theorem endsWithin_send (body : Bytes) :
    EndsWithin machine space (.request address (.send handle body)) 3 := by
  apply endsWithin_of_stage
  intro next reply later hunder
  cases reply with
  | failed fault => cases hunder
  | _ =>
      cases hunder
      exact endsWithin_receive

theorem endsWithin_request (body : Bytes) :
    EndsWithin machine space (.request address (.connect body)) 4 := by
  apply endsWithin_of_stage
  intro next reply later hunder
  cases reply with
  | handle opened =>
      unfold Request.after at hunder
      dsimp only at hunder
      split at hunder
      · cases hunder
        exact endsWithin_send body
      · cases hunder
  | _ => cases hunder

end Request

/-! ## Steps -/

/-- The script of a step makes no more calls than there are bytes, and a few. -/
theorem endsWithin_of_step
    {session : Session} {step : Step} {runtime : Nat}
    (hscript : session.script? step = some (runtime, script)) (hwithin : machine.Within bound)
    (htable : (machine.space space).table.WellFormed) :
    EndsWithin machine space script (bound + script.volume + 7) := by
  have hreading : ∀ handle, machine.remaining space handle + 1 ≤ bound + script.volume + 7 := by
    intro handle
    have hremaining := hwithin.remaining_le space handle
    omega
  cases step with
  | call runtime call =>
      cases hscript
      apply EndsWithin.mono (endsWithin_of_call rfl ?_) (Nat.le_add_left 1 _)
      intro next reply _
      cases reply with
      | _ => exact endsWithin_ended
  | lend runtime handle =>
      cases hscript
      apply EndsWithin.mono (endsWithin_of_call rfl ?_) (Nat.le_add_left 1 _)
      intro next reply _
      cases reply with
      | _ => exact endsWithin_ended
  | drain runtime handle =>
      cases hscript
      exact (endsWithin_drain []).mono (hreading handle)
  | gather runtime handle wanted =>
      cases hscript
      exact (endsWithin_gather wanted _ 0 []).mono (hreading handle)
  | roundTrip runtime path data =>
      cases hscript
      exact endsWithin_create hwithin htable data
  | request runtime address body =>
      cases hscript
      exact (endsWithin_request body).mono (by omega)
  | _ => cases hscript

end Script

end ResourceHandles
