import ResourceHandles.Proofs.Machine.Sound

/-!
# A machine without its waiting actions

Carrying out an action looks neither at the actions that wait nor at tickets.  So a machine
on which nothing waits is treated as the one on which nothing has ever waited, and that one
tells where two ways of making a call come to the same.
-/

namespace ResourceHandles

namespace Machine

/-- The machine on which nothing waits or has waited. -/
def bare (machine : Machine) : Machine :=
  { machine with
    pending := []
    nextTicket := 0 }

variable {machine next : Machine}

/-- What two machines share that are the same but for what waits. -/
theorem fields_of_bare (hbare : next.bare = machine.bare) :
    next.tree = machine.tree ∧ next.network = machine.network ∧ next.files = machine.files ∧
      next.listeners = machine.listeners ∧ next.connections = machine.connections ∧
        next.spaces = machine.spaces := by
  have htree := congrArg Machine.tree hbare
  have hnetwork := congrArg Machine.network hbare
  have hfiles := congrArg Machine.files hbare
  have hlisteners := congrArg Machine.listeners hbare
  have hconnections := congrArg Machine.connections hbare
  have hspaces := congrArg Machine.spaces hbare
  exact ⟨htree, hnetwork, hfiles, hlisteners, hconnections, hspaces⟩

@[simp] theorem space_bare (machine : Machine) (space : Nat) :
    machine.bare.space space = machine.space space := rfl

@[simp] theorem lookup_bare (machine : Machine) (space : Nat) (handle : Handle) :
    machine.bare.lookup space handle = machine.lookup space handle := rfl

/-! ## Actions -/

theorem bare_openFile (machine : Machine) (space : Nat) (path : Path) (access : Access) :
    machine.bare.openFile space path access =
      ((machine.openFile space path access).1.bare, (machine.openFile space path access).2) := by
  unfold openFile
  rw [show machine.bare.tree = machine.tree from rfl]
  split
  · rfl
  · rfl

theorem bare_listen (machine : Machine) (space : Nat) (endpoint : Endpoint) :
    machine.bare.listen space endpoint =
      ((machine.listen space endpoint).1.bare, (machine.listen space endpoint).2) := by
  unfold listen
  rw [space_bare,
    show machine.bare.bindAt (machine.space space).configuration.mode endpoint =
      machine.bindAt (machine.space space).configuration.mode endpoint from rfl]
  split
  · rfl
  · rfl

theorem bare_connect (machine : Machine) (space : Nat) (endpoint : Endpoint) :
    machine.bare.connect space endpoint =
      ((machine.connect space endpoint).1.bare, (machine.connect space endpoint).2) := by
  unfold connect
  rw [show machine.bare.reach endpoint = machine.reach endpoint from rfl]
  split
  · rfl
  · rfl

theorem bare_accept (machine : Machine) (space number : Nat) :
    machine.bare.accept space number =
      ((machine.accept space number).1.bare, (machine.accept space number).2) := by
  unfold accept
  rw [show machine.bare.listeners = machine.listeners from rfl,
    show machine.bare.network = machine.network from rfl]
  split
  · rfl
  · split
    · rfl
    · split
      · rfl
      · rfl
      · rfl

theorem bare_receive (machine : Machine) (handle : Handle) (number amount : Nat) :
    machine.bare.receive handle number amount =
      ((machine.receive handle number amount).1.bare,
        (machine.receive handle number amount).2) := by
  unfold receive
  rw [show machine.bare.connections = machine.connections from rfl,
    show machine.bare.network = machine.network from rfl]
  split
  · rfl
  · split
    · rfl
    · split
      · rfl
      · rfl
      · rfl

theorem bare_send (machine : Machine) (handle : Handle) (number : Nat) (data : Bytes)
    (amount : Nat) :
    machine.bare.send handle number data amount =
      ((machine.send handle number data amount).1.bare,
        (machine.send handle number data amount).2) := by
  unfold send
  rw [show machine.bare.connections = machine.connections from rfl,
    show machine.bare.network = machine.network from rfl]
  split
  · rfl
  · split
    · rfl
    · split
      · rfl
      · split
        · rfl
        · rfl
        · rfl

/-- Carrying out an action does not depend on what waits. -/
theorem bare_perform (machine : Machine) (space amount : Nat) (action : Action) :
    machine.bare.perform space amount action =
      ((machine.perform space amount action).1.bare,
        (machine.perform space amount action).2) := by
  cases action with
  | openFile path access =>
      simp only [perform, finish, bare_openFile]
  | closeFile file => rfl
  | readFile handle number =>
      simp only [perform, finish, readFile]
      rw [show machine.bare.files = machine.files from rfl,
        show machine.bare.tree = machine.tree from rfl]
      split
      · rfl
      · split
        · rfl
        · rfl
  | writeFile handle number data =>
      simp only [perform, finish, writeFile]
      rw [show machine.bare.files = machine.files from rfl,
        show machine.bare.tree = machine.tree from rfl]
      split
      · rfl
      · split
        · rfl
        · rfl
  | unlink path =>
      simp only [perform, finish, unlink]
      rw [show machine.bare.tree = machine.tree from rfl]
      split
      · rfl
      · rfl
  | listen endpoint =>
      simp only [perform, finish, bare_listen]
  | connect endpoint =>
      simp only [perform, finish, bare_connect]
  | accept number => exact machine.bare_accept space number
  | receive handle number => exact machine.bare_receive handle number amount
  | send handle number data => exact machine.bare_send handle number data amount
  | endSending number =>
      simp only [perform, endSending]
      rw [show machine.bare.connections = machine.connections from rfl]
      split
      · rfl
      · rfl

/-! ## Resources -/

theorem bare_unbind
    (machine : Machine) (space : Nat) (handle : Handle) (resource : Resource) :
    (machine.unbind space handle resource).bare =
      machine.bare.unbind space handle resource := by
  cases resource with
  | file number => rfl
  | listener number => rfl
  | connection number => rfl

theorem isUsed_of_quiet (hquiet : machine.pending = []) (resource : Resource) :
    machine.isUsed resource = false := by
  unfold isUsed
  rw [hquiet]
  rfl

/-- If nothing waits, a resource is let go alike. -/
theorem bare_letGo (hquiet : machine.pending = []) (resource : Resource) :
    (machine.letGo resource).bare = machine.bare.letGo resource := by
  have hused := machine.isUsed_of_quiet hquiet resource
  have hbare := machine.bare.isUsed_of_quiet rfl resource
  unfold letGo
  rw [hused, hbare]
  simp only [Bool.false_eq_true, if_false]
  cases resource with
  | file number => rfl
  | listener number =>
      dsimp only
      rw [show machine.bare.listeners = machine.listeners from rfl]
      split
      · rfl
      · split
        · rfl
        · rfl
  | connection number =>
      dsimp only
      rw [show machine.bare.connections = machine.connections from rfl]
      split
      · rfl
      · split
        · rfl
        · rfl

theorem bare_letGoOf (hquiet : machine.pending = []) (action : Action) :
    (machine.letGoOf action).bare = machine.bare.letGoOf action := by
  unfold letGoOf
  split
  · exact bare_letGo hquiet _
  · rfl

theorem bare_drop (hquiet : machine.pending = []) (resource : Resource) :
    (machine.drop resource).bare = machine.bare.drop resource ∧
      (machine.drop resource).pending = [] := by
  have hunhold : (machine.unhold resource).bare = machine.bare.unhold resource ∧
      (machine.unhold resource).pending = [] := by
    cases resource with
    | file number => exact ⟨rfl, hquiet⟩
    | listener number => exact ⟨rfl, hquiet⟩
    | connection number => exact ⟨rfl, hquiet⟩
  unfold drop
  rw [bare_letGo hunhold.2, hunhold.1, (letGo_pending _ _).1]
  exact ⟨rfl, hunhold.2⟩

theorem bare_dropAll (hquiet : machine.pending = []) (resources : List Resource) :
    (resources.foldl drop machine).bare = resources.foldl drop machine.bare ∧
      (resources.foldl drop machine).pending = [] := by
  induction resources generalizing machine with
  | nil => exact ⟨rfl, hquiet⟩
  | cons resource resources ih =>
      obtain ⟨hdropped, hstill⟩ := bare_drop hquiet resource
      rw [List.foldl_cons, List.foldl_cons, ← hdropped]
      exact ih hstill

theorem bare_dropSpace (hquiet : machine.pending = []) (space : Nat) :
    (machine.dropSpace space).bare = machine.bare.dropSpace space ∧
      (machine.dropSpace space).pending = [] :=
  @bare_dropAll (machine.setTable space {}) hquiet _

/-- Ending the only action that waits. -/
theorem bare_forget
    {pending : Pending} (hpending : ∀ other ∈ machine.pending, other.ticket = pending.ticket) :
    (machine.forget pending).bare = machine.bare.letGoOf pending.action ∧
      (machine.forget pending).pending = [] := by
  have hnone :
      (machine.pending.filter fun other => other.ticket != pending.ticket) = [] := by
    rw [List.filter_eq_nil_iff]
    intro other hother
    simp [hpending other hother]
  constructor
  · unfold forget
    rw [hnone]
    exact bare_letGoOf rfl _
  · rw [forget_pending, hnone]

end Machine

end ResourceHandles
