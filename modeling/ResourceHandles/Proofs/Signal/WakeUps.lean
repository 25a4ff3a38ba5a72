import ResourceHandles.CloseSignal
import Mathlib.Tactic

/-!
# No wake-up is lost

A waiter looks at the signal when it is first polled, and again only when the signal was written
since.  It stays only if it finds the signal not raised, and until then the signal was never
written; so a waiter that stays has seen nothing, and the first raise is news to it.  Whether a
poll answers that the signal is raised therefore depends on nothing but whether it was, in
whatever order waiters came, were polled, replaced and dropped.
-/

namespace ResourceHandles

namespace SignalRoom

/-- The name of the waiter that a step is about. -/
def Step.name? : Step → Option String
  | .raise => none
  | .wait name => some name
  | .poll name => some name
  | .drop name => some name

/-- The room after some steps. -/
def run (room : SignalRoom) (steps : List Step) : SignalRoom :=
  steps.foldl (fun room step => (room.step step).1) room

theorem run_concat (room : SignalRoom) (steps : List Step) (step : Step) :
    room.run (steps ++ [step]) = ((room.run steps).step step).1 := by
  unfold run
  rw [List.foldl_append]
  rfl

/-! ## Who waits -/

/-- A waiter of the name is there after some steps: it came, it was not dropped since, and
whenever it was polled since, the signal had not been raised. -/
def Waits (steps : List Step) (name : String) : Prop :=
  ∃ before after, steps = before ++ .wait name :: after ∧ .drop name ∉ after ∧
    ∀ earlier later, after = earlier ++ .poll name :: later →
      .raise ∉ before ∧ .raise ∉ earlier

theorem not_waits_nil (name : String) : ¬Waits [] name := by
  rintro ⟨before, after, hsteps, -⟩
  simp at hsteps

theorem waits_concat {steps : List Step} {step : Step} {name : String} :
    Waits (steps ++ [step]) name ↔
      step = .wait name ∨
        (Waits steps name ∧ step ≠ .drop name ∧ (step = .poll name → .raise ∉ steps)) := by
  constructor
  · rintro ⟨before, after, hsteps, hdrop, hpoll⟩
    rcases List.eq_nil_or_concat after with rfl | ⟨front, last, rfl⟩
    · left
      exact (List.append_inj' hsteps rfl).2 |> List.singleton_inj.mp
    · right
      rw [List.concat_eq_append] at hsteps hdrop hpoll
      rw [← List.cons_append, ← List.append_assoc] at hsteps
      obtain ⟨rfl, hlast⟩ := List.append_inj' hsteps rfl
      obtain rfl := List.singleton_inj.mp hlast
      rw [List.mem_append, List.mem_singleton, not_or] at hdrop
      refine ⟨⟨before, front, rfl, hdrop.1, ?_⟩, Ne.symm hdrop.2, ?_⟩
      · intro earlier later hfront
        exact hpoll earlier (later ++ [step]) (by simp [hfront])
      · rintro rfl
        obtain ⟨hbefore, hfront⟩ := hpoll front [] rfl
        simp [hbefore, hfront]
  · rintro (rfl | ⟨⟨before, after, rfl, hdrop, hpoll⟩, hstep, hraise⟩)
    · refine ⟨steps, [], rfl, List.not_mem_nil, ?_⟩
      intro earlier later hnone
      simp at hnone
    · refine ⟨before, after ++ [step], by simp, ?_, ?_⟩
      · rw [List.mem_append, List.mem_singleton, not_or]
        exact ⟨hdrop, Ne.symm hstep⟩
      · intro earlier later hsplit
        rcases List.eq_nil_or_concat later with rfl | ⟨front, last, rfl⟩
        · -- The last step is the poll, so all of the steps before it count.
          obtain ⟨rfl, hlast⟩ := List.append_inj' hsplit rfl
          have hnone := hraise (List.singleton_inj.mp hlast)
          simp only [List.mem_append, List.mem_cons, not_or] at hnone
          exact ⟨hnone.1, hnone.2.2⟩
        · rw [List.concat_eq_append, ← List.cons_append, ← List.append_assoc] at hsplit
          exact hpoll earlier front (List.append_inj' hsplit rfl).1

/-! ## What a waiter knows -/

/-- A waiter that has seen nothing: it is new, or it looked before the signal was written. -/
def Unaware (waiter : Waiter) : Prop :=
  waiter = .fresh ∨ waiter = .parked 0

/-- Polled, a waiter that has seen nothing ends exactly if the signal is raised. -/
theorem poll_unaware
    {signal : CloseSignal} {waiter : Waiter}
    (hversion : signal.raised = true ↔ signal.version ≠ 0) (hunaware : Unaware waiter) :
    signal.poll waiter = if signal.raised then none else some (.parked 0) := by
  cases hraised : signal.raised with
  | true =>
      have hwritten : 0 ≠ signal.version := Ne.symm (hversion.mp hraised)
      rcases hunaware with rfl | rfl <;>
        simp [CloseSignal.poll, CloseSignal.look, hraised, hwritten]
  | false =>
      have hunwritten : signal.version = 0 := by
        by_contra hwritten
        rw [hversion.mpr hwritten] at hraised
        cases hraised
      rcases hunaware with rfl | rfl <;>
        simp [CloseSignal.poll, CloseSignal.look, hraised, hunwritten]

/-- What a room shows of the steps that led to it. -/
structure Shows (room : SignalRoom) (steps : List Step) : Prop where
  raised : room.signal.raised = true ↔ .raise ∈ steps
  version : room.signal.raised = true ↔ room.signal.version ≠ 0
  unaware : ∀ name waiter, room.waiters.find? name = some waiter → Unaware waiter
  waits : ∀ name, (room.waiters.find? name).isSome = true ↔ Waits steps name

variable {room : SignalRoom} {steps : List Step}

theorem Shows.raised_concat
    (hshows : room.Shows steps) {step : Step} (hstep : step ≠ .raise) :
    room.signal.raised = true ↔ .raise ∈ steps ++ [step] := by
  rw [hshows.raised, List.mem_append, List.mem_singleton, or_iff_left (Ne.symm hstep)]

/-- A waiter that is there is ready exactly if the signal was raised. -/
theorem Shows.step_poll
    (hshows : room.Shows steps) (name : String) :
    room.step (.poll name) =
      if (room.waiters.find? name).isSome then
        if room.signal.raised then
          ({ room with waiters := room.waiters.erase name }, some .ready)
        else ({ room with waiters := room.waiters.insert name (.parked 0) }, some .pending)
      else (room, some .gone) := by
  cases hfind : room.waiters.find? name with
  | none => simp only [SignalRoom.step, hfind, Option.isSome_none, Bool.false_eq_true, if_false]
  | some waiter =>
      have hpoll := poll_unaware hshows.version (hshows.unaware name waiter hfind)
      cases hraised : room.signal.raised with
      | true => simp [SignalRoom.step, hfind, hpoll, hraised]
      | false => simp [SignalRoom.step, hfind, hpoll, hraised]

theorem Shows.raise (hshows : room.Shows steps) :
    (room.step .raise).1.Shows (steps ++ [.raise]) where
  raised := by simp [step, CloseSignal.raise]
  version := by simp [step, CloseSignal.raise]
  unaware := hshows.unaware
  waits name := by
    rw [waits_concat]
    simp [step, hshows.waits]

theorem Shows.wait (hshows : room.Shows steps) (name : String) :
    (room.step (.wait name)).1.Shows (steps ++ [.wait name]) where
  raised := hshows.raised_concat (by simp)
  version := hshows.version
  unaware other waiter hfind := by
    unfold step at hfind
    dsimp only at hfind
    by_cases hother : other = name
    · rw [hother, Store.find?_insert_self] at hfind
      exact .inl (Option.some.inj hfind).symm
    · rw [Store.find?_insert_of_ne _ _ hother] at hfind
      exact hshows.unaware other waiter hfind
  waits other := by
    unfold step
    dsimp only
    rw [waits_concat]
    by_cases hother : other = name
    · simp [hother]
    · rw [Store.find?_insert_of_ne _ _ hother, hshows.waits]
      simp [Ne.symm hother]

theorem Shows.erase
    (hshows : room.Shows steps) {step : Step} {name : String} (hstep : step.name? = some name)
    (hends : step = .drop name ∨ step = .poll name ∧ .raise ∈ steps) :
    ({ room with waiters := room.waiters.erase name } : SignalRoom).Shows (steps ++ [step]) where
  raised := hshows.raised_concat (by rintro rfl; cases hstep)
  version := hshows.version
  unaware other waiter hfind := by
    by_cases hother : other = name
    · rw [hother, Store.find?_erase_self] at hfind
      cases hfind
    · rw [Store.find?_erase_of_ne _ hother] at hfind
      exact hshows.unaware other waiter hfind
  waits other := by
    rw [waits_concat]
    by_cases hother : other = name
    · subst hother
      rw [Store.find?_erase_self]
      rcases hends with rfl | ⟨rfl, hraise⟩
      · simp
      · simp [hraise]
    · rw [Store.find?_erase_of_ne _ hother, hshows.waits]
      rcases hends with rfl | ⟨rfl, -⟩
      · simp [Ne.symm hother]
      · simp [Ne.symm hother]

theorem Shows.poll (hshows : room.Shows steps) (name : String) :
    (room.step (.poll name)).1.Shows (steps ++ [.poll name]) := by
  rw [hshows.step_poll name]
  split
  · next hthere =>
      split
      · next hraised => exact hshows.erase rfl (.inr ⟨rfl, hshows.raised.mp hraised⟩)
      · next hraised =>
          have hnone : .raise ∉ steps := fun hmem => hraised (hshows.raised.mpr hmem)
          refine ⟨hshows.raised_concat (by simp), hshows.version, ?_, ?_⟩
          · intro other waiter hfind
            by_cases hother : other = name
            · rw [hother, Store.find?_insert_self] at hfind
              exact .inr (Option.some.inj hfind).symm
            · rw [Store.find?_insert_of_ne _ _ hother] at hfind
              exact hshows.unaware other waiter hfind
          · intro other
            rw [waits_concat]
            by_cases hother : other = name
            · subst hother
              simp [← hshows.waits, hthere, hnone]
            · rw [Store.find?_insert_of_ne _ _ hother, hshows.waits]
              simp [Ne.symm hother]
  · next hgone =>
      refine ⟨hshows.raised_concat (by simp), hshows.version, hshows.unaware, ?_⟩
      intro other
      rw [waits_concat, hshows.waits]
      by_cases hother : other = name
      · subst hother
        simp [← hshows.waits, hgone]
      · simp [Ne.symm hother]

theorem Shows.step (hshows : room.Shows steps) (step : Step) :
    (room.step step).1.Shows (steps ++ [step]) := by
  cases step with
  | raise => exact hshows.raise
  | wait name => exact hshows.wait name
  | poll name => exact hshows.poll name
  | drop name => exact hshows.erase rfl (.inl rfl)

theorem shows_run (steps : List Step) : (run {} steps).Shows steps := by
  induction steps using List.reverseRecOn with
  | nil =>
      refine ⟨by simp [run], by simp [run], by simp [run], ?_⟩
      intro name
      simp [run, not_waits_nil]
  | append_singleton steps step ih =>
      rw [run_concat]
      exact ih.step step

/-! ## Other waiters -/

/-- Two rooms that differ in the waiter of one name at most. -/
structure SameBut (name : String) (first second : SignalRoom) : Prop where
  signal : second.signal = first.signal
  waiters : ∀ other, other ≠ name → second.waiters.find? other = first.waiters.find? other

variable {name other : String} {first second : SignalRoom} {step : Step}

theorem signal_step (room : SignalRoom) (hraise : step ≠ .raise) :
    (room.step step).1.signal = room.signal := by
  cases step with
  | raise => exact absurd rfl hraise
  | wait name => rfl
  | drop name => rfl
  | poll name =>
      unfold SignalRoom.step
      dsimp only
      split
      · rfl
      · split
        · rfl
        · rfl

/-- A step leaves the waiters alone that it is not about. -/
theorem find?_step (room : SignalRoom) (hother : step.name? ≠ some other) :
    (room.step step).1.waiters.find? other = room.waiters.find? other := by
  cases step with
  | raise => rfl
  | wait name =>
      exact Store.find?_insert_of_ne _ _ fun hsame => hother (congrArg some hsame.symm)
  | drop name => exact Store.find?_erase_of_ne _ fun hsame => hother (congrArg some hsame.symm)
  | poll name =>
      have hne : other ≠ name := fun hsame => hother (congrArg some hsame.symm)
      unfold SignalRoom.step
      dsimp only
      split
      · rfl
      · split
        · exact Store.find?_erase_of_ne _ hne
        · exact Store.find?_insert_of_ne _ _ hne

theorem SameBut.step_own
    (hsame : SameBut name first second) (hstep : step.name? = some name) :
    SameBut name (first.step step).1 second where
  signal := by
    rw [first.signal_step (by rintro rfl; cases hstep)]
    exact hsame.signal
  waiters other hother := by
    rw [first.find?_step (by simpa [hstep] using Ne.symm hother)]
    exact hsame.waiters other hother

/-- A step about another waiter is answered alike, and keeps two rooms the same but for one. -/
theorem SameBut.step_other
    (hsame : SameBut name first second) (hstep : step.name? ≠ some name) :
    SameBut name (first.step step).1 (second.step step).1 ∧
      (second.step step).2 = (first.step step).2 := by
  have hkept : ∀ other, other ≠ name → step.name? ≠ some other →
      (second.step step).1.waiters.find? other = (first.step step).1.waiters.find? other := by
    intro other hother hstranger
    rw [first.find?_step hstranger, second.find?_step hstranger]
    exact hsame.waiters other hother
  cases step with
  | raise =>
      have hsignal := congrArg CloseSignal.raise hsame.signal
      exact ⟨⟨hsignal, fun other hother => hkept other hother nofun⟩, rfl⟩
  | wait stranger =>
      refine ⟨⟨hsame.signal, fun other hother => ?_⟩, rfl⟩
      by_cases hstranger : stranger = other
      · subst hstranger
        simp [SignalRoom.step]
      · exact hkept other hother (by simpa [Step.name?] using hstranger)
  | drop stranger =>
      refine ⟨⟨hsame.signal, fun other hother => ?_⟩, rfl⟩
      by_cases hstranger : stranger = other
      · subst hstranger
        simp [SignalRoom.step]
      · exact hkept other hother (by simpa [Step.name?] using hstranger)
  | poll stranger =>
      have hfind : second.waiters.find? stranger = first.waiters.find? stranger :=
        hsame.waiters stranger (by simpa [Step.name?] using hstep)
      refine ⟨⟨?_, fun other hother => ?_⟩, ?_⟩
      · have hraise : Step.poll stranger ≠ .raise := by simp
        rw [first.signal_step hraise, second.signal_step hraise, hsame.signal]
      · by_cases hstranger : stranger = other
        · subst hstranger
          simp only [SignalRoom.step, hfind, hsame.signal]
          split
          · exact hfind
          · split
            · simp
            · simp
        · exact hkept other hother (by simpa [Step.name?] using hstranger)
      · simp only [SignalRoom.step, hfind, hsame.signal]
        split
        · rfl
        · split
          · rfl
          · rfl

/-- All that was done with one waiter may be left out. -/
theorem SameBut.run
    (hsame : SameBut name first second) (steps : List Step) :
    SameBut name (first.run steps)
      (second.run (steps.filter fun step => step.name? != some name)) := by
  induction steps generalizing first second with
  | nil => exact hsame
  | cons step steps ih =>
      by_cases hstep : step.name? = some name
      · rw [List.filter_cons_of_neg (by simp [hstep])]
        exact ih (hsame.step_own hstep)
      · rw [List.filter_cons_of_pos (by simpa using hstep)]
        exact ih (hsame.step_other hstep).1

/-! ## No wake-up is lost -/

theorem raised_run (hraised : room.signal.raised = true) (steps : List Step) :
    (room.run steps).signal.raised = true := by
  induction steps generalizing room with
  | nil => exact hraised
  | cons step steps ih =>
      apply ih
      by_cases hraise : step = .raise
      · subst hraise
        rfl
      · rwa [room.signal_step hraise]

/-- Whatever steps were done before, a waiter that is there is ready when it is polled exactly if
the signal was raised at some time, and it is gone then; the signal shows whether it was raised,
and stays raised.  The answers to one waiter are the same as if another one had never been. -/
theorem no_wake_up_is_lost (steps : List Step) :
    let room := run {} steps
    (room.signal.raised = true ↔ .raise ∈ steps) ∧
    (∀ later, room.signal.raised = true → (room.run later).signal.raised = true) ∧
    (∀ name, (room.waiters.find? name).isSome = true ↔ Waits steps name) ∧
    (∀ name, (room.step (.poll name)).2 = some .ready ↔ Waits steps name ∧ .raise ∈ steps) ∧
    (∀ name, (room.step (.poll name)).2 = some .pending ↔ Waits steps name ∧ .raise ∉ steps) ∧
    (∀ name, (room.step (.poll name)).2 = some .gone ↔ ¬Waits steps name) ∧
    (∀ name, (room.step (.poll name)).2 = some .ready →
      (room.step (.poll name)).1.waiters.find? name = none) ∧
    ∀ name other, other ≠ name →
      let without := run {} (steps.filter fun step => step.name? != some name)
      (without.step (.poll other)).2 = (room.step (.poll other)).2 := by
  intro room
  have hshows : room.Shows steps := shows_run steps
  have hanswer := fun name => congrArg Prod.snd (hshows.step_poll name)
  refine ⟨hshows.raised, fun later hraised => raised_run hraised later, hshows.waits,
    ?_, ?_, ?_, ?_, ?_⟩
  · intro name
    rw [hanswer, ← hshows.waits, ← hshows.raised]
    split_ifs <;> simp [*]
  · intro name
    rw [hanswer, ← hshows.waits, ← hshows.raised]
    split_ifs <;> simp [*]
  · intro name
    rw [hanswer, ← hshows.waits]
    split_ifs <;> simp [*]
  · intro name hready
    rw [hshows.step_poll name] at hready ⊢
    split_ifs at hready ⊢
    · exact Store.find?_erase_self _ _
    · cases hready
    · cases hready
  · intro name other hother without
    have hsame : SameBut name room without := SameBut.run ⟨rfl, fun _ _ => rfl⟩ steps
    exact (hsame.step_other (by simpa [Step.name?] using hother)).2

end SignalRoom

end ResourceHandles
