import NodePlane.Agent.SelfUpdate

/-! When every unconfirmed update has its marker, its saved binary and its own guard. -/
namespace NodePlane
namespace Update
namespace Host

/-- A guard that has found a marker. -/
def pastRead : Guard → Bool
  | .armed => false
  | _ => true

/-- A guard that has put the previous binary back. -/
def pastRestore : Guard → Bool
  | .noting _ | .clearing _ => true
  | _ => false

theorem pastRead_of_restore {guard : Guard} (done : pastRestore guard = true) :
    pastRead guard = true := by
  cases guard with
  | armed => cases done
  | restoring _ => rfl
  | noting _ => rfl
  | clearing _ => rfl

/-- The installed update that has not confirmed itself is named by the marker, the previous
binary is saved, and its own guard is still to put it back. -/
def UnconfirmedGuarded (host : Host) : Prop :=
  host.binary.attempt ∉ host.confirmed →
    host.pending = some ⟨host.binary.version, host.binary.attempt⟩ ∧
      (∃ previous, host.previous = some previous ∧ previous.attempt ∈ host.confirmed) ∧
      ∃ guard, host.guards host.binary.attempt = some guard ∧ pastRestore guard = false

/-- A marker has a guard that will clear it, or the process that wrote it is about to schedule
one or to remove the marker. -/
def MarkerGuarded (host : Host) : Prop :=
  ∀ marker, host.pending = some marker →
    (∃ guard, host.guards marker.attempt = some guard) ∨
      ∃ updater, host.updaters marker.attempt = some updater ∧
        (updater.phase = .marked ∨ updater.phase = .unmarking)

/-- No confirmed update was rolled back, and no update by another's guard. -/
def RolledByOwn (host : Host) : Prop :=
  ∀ entry ∈ host.rolled, entry.1 = entry.2 ∧ entry.2 ∉ host.confirmed

structure Guarded (host : Host) : Prop where
  unconfirmed : host.UnconfirmedGuarded
  marker : host.MarkerGuarded
  rolled : host.RolledByOwn

/-- No update is between its first step of `activate` and its last. -/
def Quiet (host : Host) : Prop :=
  ∀ update updater, host.updaters update = some updater → updater.activating = false

/-- What a step needs of the state before it. -/
def Sound (host : Host) : Event → Prop
  -- One activation at a time, none while a marker is there, and of another version than the
  -- installed one.
  | .save update ok => ok = true → ∀ updater, host.updaters update = some updater →
      host.pending = none ∧ host.Quiet ∧ updater.version ≠ host.binary.version
  -- A marker that fails to be written leaves nothing behind.
  | .markFails update left =>
      ∀ updater, host.updaters update = some updater → updater.phase = .saved → left = none
  -- A marker whose guard was not scheduled is removed.
  | .unmark update ok => ok = true ∨ ∀ updater, host.updaters update = some updater →
      updater.phase = .unmarking → ∃ guard, host.guards update = some guard
  | .stop update => ∀ updater, host.updaters update = some updater →
      updater.phase = .marked ∨ updater.phase = .unmarking →
        ∃ guard, host.guards update = some guard
  -- An agent confirms its own update, before a guard has found the marker.
  | .removePending ok => ok = true → ∀ agent marker, host.agent = some agent →
      agent.confirm = .cleared → host.pending = some marker →
        marker.attempt = agent.image.attempt ∧
          ∀ update guard, host.guards update = some guard → pastRead guard = false
  -- A guard that finds a marker finds its own, after the activation has ended.
  | .guardRead update ok => ∀ marker, host.guards update = some .armed →
      host.pending = some marker → ok = true ∧ marker.attempt = update ∧ host.Quiet
  | .guardRestore _ ok | .guardNote _ ok | .guardClear _ ok => ok = true
  | _ => True

def SoundRun : Host → List Event → Prop
  | _, [] => True
  | host, event :: rest => host.Sound event ∧ SoundRun (host.step event) rest

/-- What every state of a sound run keeps. -/
structure Inv (host : Host) : Prop where
  updater_new : ∀ update updater, host.updaters update = some updater →
    update < host.next ∧ update ∉ host.confirmed ∧ host.binary.attempt ≠ update ∧
      (∀ agent, host.agent = some agent → agent.image.attempt ≠ update) ∧
      (∀ entry ∈ host.rolled, entry.2 ≠ update) ∧ updater.version ≠ ""
  known : (∀ k ∈ host.confirmed, k < host.next) ∧ host.binary.attempt < host.next ∧
    (∀ agent, host.agent = some agent → agent.image.attempt < host.next) ∧
      ∀ entry ∈ host.rolled, entry.2 < host.next
  one : ∀ a b first second, host.updaters a = some first → host.updaters b = some second →
    first.activating = true → second.activating = true → a = b
  saved : ∀ update updater, host.updaters update = some updater → updater.phase = .saved →
    host.pending = none ∧ host.previous = some host.binary ∧ host.binary.attempt ∈ host.confirmed
  marked : ∀ update updater, host.updaters update = some updater → updater.activating = true →
    updater.version ≠ host.binary.version ∧
      (updater.phase ≠ .saved → host.pending = some ⟨updater.version, update⟩)
  scheduled : ∀ update updater, host.updaters update = some updater → updater.phase = .scheduled →
    host.guards update = some .armed
  marker : ∀ marker, host.pending = some marker →
    marker.attempt ∉ host.confirmed ∧ marker.line ≠ "" ∧
      (host.binary.attempt = marker.attempt → host.binary.version = marker.line) ∧
      ∃ previous, host.previous = some previous ∧ previous.attempt ∈ host.confirmed ∧
        (host.binary = previous ∨ host.binary.attempt = marker.attempt)
  binary : host.binary.attempt ∉ host.confirmed →
    ∃ marker, host.pending = some marker ∧ marker.attempt = host.binary.attempt
  guarded : host.MarkerGuarded
  working : ∀ update guard, host.guards update = some guard → pastRead guard = true →
    host.Quiet ∧ (∃ marker, host.pending = some marker ∧ marker.attempt = update) ∧
      (pastRestore guard = true → host.binary.attempt ∈ host.confirmed)
  rolled : ∀ entry ∈ host.rolled, entry.1 = entry.2 ∧ entry.2 ∉ host.confirmed ∧
    ∀ marker, host.pending = some marker → marker.attempt = entry.2 →
      ∃ guard, host.guards entry.2 = some guard ∧ pastRestore guard = true

theorem Inv.safe {host : Host} (inv : Inv host) : Guarded host := by
  constructor
  · intro unconfirmed
    obtain ⟨marker, pending, same⟩ := inv.binary unconfirmed
    obtain ⟨-, -, line, previous, saved, confirmed, -⟩ := inv.marker marker pending
    refine ⟨?_, ⟨previous, saved, confirmed⟩, ?_⟩
    · rw [pending, line same.symm, ← same]
    · rcases inv.guarded marker pending with ⟨guard, held⟩ | ⟨updater, active, -⟩
      · rw [same] at held
        refine ⟨guard, held, ?_⟩
        cases done : pastRestore guard with
        | false => rfl
        | true =>
          have past := pastRead_of_restore done
          exact absurd ((inv.working _ guard held past).2.2 done) unconfirmed
      · exact absurd same.symm (inv.updater_new _ updater active).2.2.1
  · exact inv.guarded
  · intro entry held
    obtain ⟨own, open', -⟩ := inv.rolled entry held
    exact ⟨own, open'⟩

theorem inv_fresh (version : String) (rolledBack : Option String) :
    Inv (Host.fresh version rolledBack) := by
  constructor <;> simp [Host.fresh, MarkerGuarded]

@[grind =] theorem updaters_set (host : Host) (update other : ℕ) (updater : Option Updater) :
    (host.setUpdater update updater).updaters other =
      if other = update then updater else host.updaters other := by
  simp [setUpdater, Function.update_apply]

@[grind =] theorem guards_set (host : Host) (update other : ℕ) (guard : Option Guard) :
    (host.setGuard update guard).guards other =
      if other = update then guard else host.guards other := by
  simp [setGuard, Function.update_apply]

@[simp, grind =] theorem updaters_setGuard (host : Host) (update : ℕ) (guard : Option Guard) :
    (host.setGuard update guard).updaters = host.updaters := rfl

@[simp, grind =] theorem guards_setUpdater (host : Host) (update : ℕ) (updater : Option Updater) :
    (host.setUpdater update updater).guards = host.guards := rfl

@[grind =] theorem activating_eq (updater : Updater) :
    updater.activating = true ↔ updater.phase ≠ .preparing := by
  simp [Updater.activating]

theorem Quiet.set {host : Host} (quiet : host.Quiet) (update : ℕ) {updater : Option Updater}
    (still : ∀ new, updater = some new → new.activating = false) :
    (host.setUpdater update updater).Quiet := by
  intro other known held
  rw [updaters_set] at held
  split at held
  · exact still known held
  · exact quiet other known held

theorem valid_nonempty {version : String} (valid : validVersion version = true) : version ≠ "" := by
  rintro rfl
  revert valid
  decide

theorem check_updating {host : Host} {own base version : String} {keyed staged : Bool}
    (passed : host.check own base version keyed staged = .ok .updating) :
    validVersion version = true := by
  unfold check at passed
  split at passed
  · cases passed
  next checks =>
    rw [not_or, not_not, not_not] at checks
    exact checks.2

/-! The updating process. -/

section
variable {host : Host} {update : ℕ} {updater : Updater}

/-- No guard works on the marker while an activation is under way. -/
theorem Inv.no_worker (inv : Inv host) (held : host.updaters update = some updater)
    (active : updater.activating = true) {other : ℕ} {guard : Guard}
    (found : host.guards other = some guard) : pastRead guard = false := by
  cases past : pastRead guard with
  | false => rfl
  | true =>
    have quiet := (inv.working other guard found past).1
    rw [quiet update updater held] at active
    cases active

theorem Inv.no_worker_free (inv : Inv host) (free : host.pending = none) {other : ℕ} {guard : Guard}
    (found : host.guards other = some guard) : pastRead guard = false := by
  cases past : pastRead guard with
  | false => rfl
  | true =>
    obtain ⟨-, ⟨marker, pending, -⟩, -⟩ := inv.working other guard found past
    rw [free] at pending
    cases pending

theorem begin_inv {version : String} (inv : Inv host) (named : version ≠ "") :
    Inv { host.setUpdater host.next (some ⟨version, .preparing⟩) with next := host.next + 1 } := by
  obtain ⟨confirmed, binary, agent, rolled⟩ := inv.known
  constructor
  · intro other known held
    have old := inv.updater_new other
    grind [setUpdater]
  · exact ⟨fun k held => Nat.lt_succ_of_lt (confirmed k held), Nat.lt_succ_of_lt binary,
      fun a held => Nat.lt_succ_of_lt (agent a held), fun e held => Nat.lt_succ_of_lt (rolled e held)⟩
  · have one := inv.one
    grind [setUpdater]
  · have saved := inv.saved
    grind [setUpdater]
  · have marked := inv.marked
    grind [setUpdater]
  · have scheduled := inv.scheduled
    grind [setUpdater]
  · exact inv.marker
  · exact inv.binary
  · intro marker pending
    rcases inv.guarded marker pending with guard | ⟨writer, held, phase⟩
    · exact Or.inl guard
    · have known := (inv.updater_new _ writer held).1
      refine Or.inr ⟨writer, ?_, phase⟩
      rw [updaters_set, if_neg (Nat.ne_of_lt known)]
      exact held
  · intro other guard held past
    obtain ⟨quiet, marker, restored⟩ := inv.working other guard held past
    have still := @Quiet.set host quiet host.next (some ⟨version, .preparing⟩) (by rintro _ ⟨⟩; rfl)
    exact ⟨still, marker, restored⟩
  · exact inv.rolled

/-- A process that ends, with its marker guarded or without one. -/
theorem drop_inv (inv : Inv host)
    (safe : ∀ updater, host.updaters update = some updater →
      updater.phase = .marked ∨ updater.phase = .unmarking →
        ∃ guard, host.guards update = some guard) :
    Inv (host.setUpdater update none) := by
  constructor
  · have old := inv.updater_new
    grind [setUpdater]
  · exact inv.known
  · have one := inv.one
    grind [setUpdater]
  · have saved := inv.saved
    grind [setUpdater]
  · have marked := inv.marked
    grind [setUpdater]
  · have scheduled := inv.scheduled
    grind [setUpdater]
  · exact inv.marker
  · exact inv.binary
  · intro marker pending
    rcases inv.guarded marker pending with guard | ⟨writer, held, phase⟩
    · exact Or.inl guard
    · by_cases same : marker.attempt = update
      · rw [same] at held ⊢
        exact Or.inl (safe writer held phase)
      · refine Or.inr ⟨writer, ?_, phase⟩
        rw [updaters_set, if_neg same]
        exact held
  · intro other guard found past
    obtain ⟨quiet, marker, restored⟩ := inv.working other guard found past
    have still := @Quiet.set host quiet update none (by rintro _ ⟨⟩)
    exact ⟨still, marker, restored⟩
  · exact inv.rolled

theorem save_inv (inv : Inv host) (held : host.updaters update = some updater)
    (free : host.pending = none) (quiet : host.Quiet)
    (other : updater.version ≠ host.binary.version) :
    Inv { host.setUpdater update (some { updater with phase := .saved }) with
      previous := some host.binary } := by
  -- Without a marker the installed binary is confirmed, and it is what is saved.
  have confirmed : host.binary.attempt ∈ host.confirmed := by
    by_contra open'
    obtain ⟨marker, pending, -⟩ := inv.binary open'
    rw [free] at pending
    cases pending
  constructor
  · have old := inv.updater_new
    grind [setUpdater]
  · exact inv.known
  · grind [setUpdater, Quiet]
  · grind [setUpdater, Quiet]
  · grind [setUpdater, Quiet]
  · grind [setUpdater, Quiet]
  · intro marker pending
    cases free.symm.trans pending
  · exact inv.binary
  · intro marker pending
    cases free.symm.trans pending
  · intro other guard found past
    rw [inv.no_worker_free free found] at past
    cases past
  · exact inv.rolled

theorem mark_inv (inv : Inv host) (held : host.updaters update = some updater)
    (phase : updater.phase = .saved) :
    Inv { host.setUpdater update (some { updater with phase := .marked }) with
      pending := some ⟨updater.version, update⟩ } := by
  obtain ⟨free, previous, confirmed⟩ := inv.saved update updater held phase
  obtain ⟨-, fresh, apart, -, rolled, named⟩ := inv.updater_new update updater held
  have active : updater.activating = true := by simp [activating_eq, phase]
  constructor
  · have old := inv.updater_new
    grind [setUpdater]
  · exact inv.known
  · have one := inv.one
    grind [setUpdater]
  · have one := inv.one
    grind [setUpdater]
  · have one := inv.one
    have marked := inv.marked
    grind [setUpdater]
  · have one := inv.one
    grind [setUpdater]
  · rintro marker pending
    cases pending
    exact ⟨fresh, named, fun same => absurd same apart, host.binary, previous, confirmed, Or.inl rfl⟩
  · intro open'
    exact absurd confirmed open'
  · rintro marker pending
    cases pending
    refine Or.inr ⟨{ updater with phase := .marked }, ?_, Or.inl rfl⟩
    exact (updaters_set host update update _).trans (if_pos rfl)
  · intro other guard found past
    rw [inv.no_worker held active found] at past
    cases past
  · intro entry known
    obtain ⟨own, open', -⟩ := inv.rolled entry known
    refine ⟨own, open', ?_⟩
    rintro marker pending same
    cases pending
    exact absurd same.symm (rolled entry known)

/-- The guard is scheduled while the process waits for it. -/
theorem arm_inv (inv : Inv host) (held : host.updaters update = some updater)
    (phase : updater.phase = .marked) : Inv (host.setGuard update (some .armed)) := by
  have active : updater.activating = true := by simp [activating_eq, phase]
  have rolled := (inv.updater_new update updater held).2.2.2.2.1
  constructor
  · exact inv.updater_new
  · exact inv.known
  · exact inv.one
  · exact inv.saved
  · exact inv.marked
  · have scheduled := inv.scheduled
    grind
  · exact inv.marker
  · exact inv.binary
  · intro marker pending
    rcases inv.guarded marker pending with ⟨guard, found⟩ | writer
    · by_cases same : marker.attempt = update
      · exact Or.inl ⟨.armed, by rw [guards_set, if_pos same]⟩
      · exact Or.inl ⟨guard, by rw [guards_set, if_neg same]; exact found⟩
    · exact Or.inr writer
  · intro other guard found past
    rw [guards_set] at found
    split at found
    · cases found
      cases past
    · rw [inv.no_worker held active found] at past
      cases past
  · intro entry known
    obtain ⟨own, open', done⟩ := inv.rolled entry known
    refine ⟨own, open', fun marker pending same => ?_⟩
    obtain ⟨guard, found, restored⟩ := done marker pending same
    refine ⟨guard, ?_, restored⟩
    rw [guards_set, if_neg (rolled entry known)]
    exact found

/-- Behind its marker the process goes on: with its guard scheduled, or to remove the marker. -/
theorem advance_inv (inv : Inv host) (held : host.updaters update = some updater)
    (active : updater.activating = true) (phase : updater.phase ≠ .saved) {now : Phase}
    (goes : now = .scheduled ∧ host.guards update = some .armed ∨ now = .unmarking) :
    Inv (host.setUpdater update (some { updater with phase := now })) := by
  have pending := (inv.marked update updater held active).2 phase
  constructor
  · have old := inv.updater_new
    grind [setUpdater]
  · exact inv.known
  · have one := inv.one
    grind [setUpdater]
  · have saved := inv.saved
    grind [setUpdater]
  · have marked := inv.marked
    grind [setUpdater]
  · have scheduled := inv.scheduled
    grind [setUpdater]
  · exact inv.marker
  · exact inv.binary
  · intro marker there
    cases pending.symm.trans there
    rcases goes with ⟨-, guard⟩ | unmarking
    · exact Or.inl ⟨_, guard⟩
    · refine Or.inr ⟨{ updater with phase := now }, ?_, Or.inr unmarking⟩
      exact (updaters_set host update update _).trans (if_pos rfl)
  · intro other guard found past
    rw [inv.no_worker held active found] at past
    cases past
  · exact inv.rolled

theorem schedule_inv (inv : Inv host) (held : host.updaters update = some updater)
    (phase : updater.phase = .marked) :
    Inv ((host.setUpdater update (some { updater with phase := .scheduled })).setGuard update
      (some .armed)) := by
  have armed := arm_inv inv held phase
  refine @advance_inv (host.setGuard update (some .armed)) update updater armed held ?_ ?_ .scheduled
    (Or.inl ⟨rfl, ?_⟩)
  · simp [activating_eq, phase]
  · simp [phase]
  · rw [guards_set, if_pos rfl]

theorem install_inv (inv : Inv host) (held : host.updaters update = some updater)
    (phase : updater.phase = .scheduled) :
    Inv { host.setUpdater update none with binary := ⟨updater.version, update⟩ } := by
  have active : updater.activating = true := by simp [activating_eq, phase]
  obtain ⟨-, marked⟩ := inv.marked update updater held active
  have pending := marked (by simp [phase])
  have guard := inv.scheduled update updater held phase
  obtain ⟨below, fresh, apart, -, rolled, -⟩ := inv.updater_new update updater held
  obtain ⟨-, line, -, previous, saved, confirmed, -⟩ := inv.marker _ pending
  obtain ⟨known, -, agent, others⟩ := inv.known
  constructor
  · have old := inv.updater_new
    grind [setUpdater]
  · exact ⟨known, below, agent, others⟩
  · have one := inv.one
    grind [setUpdater]
  · have one := inv.one
    grind [setUpdater]
  · have one := inv.one
    grind [setUpdater]
  · have scheduled := inv.scheduled
    grind [setUpdater]
  · intro marker there
    cases pending.symm.trans there
    exact ⟨fresh, line, fun _ => rfl, previous, saved, confirmed, Or.inr rfl⟩
  · intro _
    exact ⟨_, pending, rfl⟩
  · intro marker there
    cases pending.symm.trans there
    exact Or.inl ⟨_, guard⟩
  · intro other working found past
    rw [inv.no_worker held active found] at past
    cases past
  · exact inv.rolled

theorem unmark_inv (inv : Inv host) (held : host.updaters update = some updater)
    (phase : updater.phase = .unmarking) :
    Inv { host.setUpdater update none with pending := none } := by
  have active : updater.activating = true := by simp [activating_eq, phase]
  obtain ⟨-, marked⟩ := inv.marked update updater held active
  have pending := marked (by simp [phase])
  have apart := (inv.updater_new update updater held).2.2.1
  constructor
  · have old := inv.updater_new
    grind [setUpdater]
  · exact inv.known
  · have one := inv.one
    grind [setUpdater]
  · have one := inv.one
    grind [setUpdater]
  · have one := inv.one
    grind [setUpdater]
  · have scheduled := inv.scheduled
    grind [setUpdater]
  · intro marker there
    cases there
  · intro open'
    obtain ⟨marker, there, same⟩ := inv.binary open'
    rw [pending] at there
    cases there
    exact absurd same.symm apart
  · intro marker there
    cases there
  · intro other working found past
    rw [inv.no_worker held active found] at past
    cases past
  · intro entry known
    obtain ⟨own, open', -⟩ := inv.rolled entry known
    refine ⟨own, open', ?_⟩
    rintro marker there
    cases there

end

/-! The started agent and the guard. -/

section
variable {host : Host} {update : ℕ}

theorem rolledBack_inv (inv : Inv host) (rolledBack : Option String) :
    Inv { host with rolledBack := rolledBack } :=
  ⟨inv.updater_new, inv.known, inv.one, inv.saved, inv.marked, inv.scheduled, inv.marker, inv.binary,
    inv.guarded, inv.working, inv.rolled⟩

/-- The agent runs an image that no unfinished update is to install. -/
theorem agent_inv (inv : Inv host) (agent : Option Agent)
    (image : ∀ new, agent = some new → new.image = host.binary ∨
      ∃ old, host.agent = some old ∧ new.image = old.image) :
    Inv { host with agent := agent } := by
  obtain ⟨confirmed, binary, running, rolled⟩ := inv.known
  constructor
  · intro other updater held
    obtain ⟨below, fresh, apart, old, entries, named⟩ := inv.updater_new other updater held
    refine ⟨below, fresh, apart, ?_, entries, named⟩
    intro new now
    rcases image new now with same | ⟨before, known, same⟩
    · rw [same]
      exact apart
    · rw [same]
      exact old before known
  · refine ⟨confirmed, binary, ?_, rolled⟩
    intro new now
    rcases image new now with same | ⟨before, known, same⟩
    · rw [same]
      exact binary
    · rw [same]
      exact running before known
  · exact inv.one
  · exact inv.saved
  · exact inv.marked
  · exact inv.scheduled
  · exact inv.marker
  · exact inv.binary
  · exact inv.guarded
  · exact inv.working
  · exact inv.rolled

theorem setConfirm_inv (inv : Inv host) {agent : Agent} (running : host.agent = some agent)
    (confirm : Confirm) : Inv (host.setConfirm agent confirm) := by
  apply agent_inv inv
  intro new now
  cases now
  exact Or.inr ⟨agent, running, rfl⟩

/-- The confirmation of the update that the marker names. -/
theorem confirm_inv (inv : Inv host) {agent : Agent} {marker : Marker}
    (running : host.agent = some agent) (pending : host.pending = some marker)
    (own : marker.attempt = agent.image.attempt)
    (idle : ∀ update guard, host.guards update = some guard → pastRead guard = false) :
    Inv { host with pending := none, confirmed := agent.image.attempt :: host.confirmed } := by
  obtain ⟨confirmed, binary, images, rolled⟩ := inv.known
  constructor
  · intro other updater held
    obtain ⟨below, fresh, apart, old, entries, named⟩ := inv.updater_new other updater held
    refine ⟨below, ?_, apart, old, entries, named⟩
    rw [List.mem_cons, not_or]
    exact ⟨fun same => old agent running same.symm, fresh⟩
  · refine ⟨?_, binary, images, rolled⟩
    intro k held
    rcases List.mem_cons.mp held with same | before
    · rw [same]
      exact images agent running
    · exact confirmed k before
  · exact inv.one
  · intro other updater held phase
    cases pending.symm.trans (inv.saved other updater held phase).1
  · -- An activating process would have written the marker for an update that no agent runs.
    intro other updater held active
    obtain ⟨apart, marked⟩ := inv.marked other updater held active
    refine ⟨apart, fun phase => ?_⟩
    cases pending.symm.trans (marked phase)
    exact absurd own.symm ((inv.updater_new other updater held).2.2.2.1 agent running)
  · exact inv.scheduled
  · intro other there
    cases there
  · intro open'
    rw [List.mem_cons, not_or] at open'
    obtain ⟨other, there, same⟩ := inv.binary open'.2
    cases pending.symm.trans there
    exact absurd (same.symm.trans own) open'.1
  · intro other there
    cases there
  · intro other guard found past
    rw [idle other guard found] at past
    cases past
  · intro entry held
    obtain ⟨own', open', done⟩ := inv.rolled entry held
    refine ⟨own', ?_, ?_⟩
    · rw [List.mem_cons, not_or]
      refine ⟨fun same => ?_, open'⟩
      -- A guard that rolled it back would still be working.
      obtain ⟨guard, found, restored⟩ := done marker pending (own.trans same.symm)
      have past := pastRead_of_restore restored
      rw [idle _ guard found] at past
      cases past
    · intro other there
      cases there

/-- A guard that ends without a marker. -/
theorem idle_inv (inv : Inv host) (free : host.pending = none) : Inv (host.setGuard update none) := by
  constructor
  · exact inv.updater_new
  · exact inv.known
  · exact inv.one
  · exact inv.saved
  · exact inv.marked
  · intro other updater held phase
    have active : updater.activating = true := by simp [activating_eq, phase]
    have pending := (inv.marked other updater held active).2 (by simp [phase])
    cases free.symm.trans pending
  · exact inv.marker
  · exact inv.binary
  · intro marker there
    cases free.symm.trans there
  · intro other guard found past
    rw [guards_set] at found
    split at found
    · cases found
    · exact inv.working other guard found past
  · intro entry held
    obtain ⟨own, open', -⟩ := inv.rolled entry held
    refine ⟨own, open', ?_⟩
    intro marker there
    cases free.symm.trans there

/-- The guard of the marker's update goes on. -/
theorem work_inv (inv : Inv host) {marker : Marker} (pending : host.pending = some marker)
    (own : marker.attempt = update) (quiet : host.Quiet) {guard now : Guard}
    (before : host.guards update = some guard) (onward : pastRestore guard = true → pastRestore now = true)
    (restored : pastRestore now = true → host.binary.attempt ∈ host.confirmed) :
    Inv (host.setGuard update (some now)) := by
  constructor
  · exact inv.updater_new
  · exact inv.known
  · exact inv.one
  · exact inv.saved
  · exact inv.marked
  · intro other updater held phase
    have still := quiet other updater held
    simp [Updater.activating, phase] at still
  · exact inv.marker
  · exact inv.binary
  · intro other there
    cases pending.symm.trans there
    exact Or.inl ⟨now, by rw [guards_set, if_pos own]⟩
  · intro other guard' found past
    rw [guards_set] at found
    split at found
    next same =>
      cases found
      exact ⟨quiet, ⟨marker, pending, own.trans same.symm⟩, restored⟩
    · exact inv.working other guard' found past
  · intro entry held
    obtain ⟨own', open', done⟩ := inv.rolled entry held
    refine ⟨own', open', fun other there same => ?_⟩
    obtain ⟨guard', found, past⟩ := done other there same
    by_cases here : entry.2 = update
    · refine ⟨now, by rw [guards_set, if_pos here], onward ?_⟩
      rw [here, before] at found
      cases found
      exact past
    · exact ⟨guard', by rw [guards_set, if_neg here]; exact found, past⟩

theorem restore_inv (inv : Inv host) {version : String} {previous : Image}
    (found : host.guards update = some (.restoring version)) (saved : host.previous = some previous) :
    Inv { host.setGuard update (some (.noting version)) with
      binary := previous
      rolled := if host.binary = previous then host.rolled
        else (update, host.binary.attempt) :: host.rolled } := by
  obtain ⟨quiet, ⟨marker, pending, own⟩, -⟩ := inv.working update _ found rfl
  obtain ⟨open', line, -, image, kept, confirmed, installed⟩ := inv.marker marker pending
  cases saved.symm.trans kept
  obtain ⟨known, binary, images, rolled⟩ := inv.known
  -- What is replaced is the marker's update, or nothing is.
  have replaced : ∀ entry ∈ (if host.binary = previous then host.rolled
      else (update, host.binary.attempt) :: host.rolled),
      entry ∈ host.rolled ∨ entry = (update, update) ∧ host.binary.attempt = update := by
    intro entry held
    split at held
    · exact Or.inl held
    next other =>
      have attempt := (installed.resolve_left other).trans own
      rcases List.mem_cons.mp held with same | before
      · rw [attempt] at same
        exact Or.inr ⟨same, attempt⟩
      · exact Or.inl before
  constructor
  · intro other updater held
    obtain ⟨below, fresh, apart, agents, entries, named⟩ := inv.updater_new other updater held
    refine ⟨below, fresh, ?_, agents, ?_, named⟩
    · rintro rfl
      exact fresh confirmed
    · intro entry there
      rcases replaced entry there with before | ⟨rfl, attempt⟩
      · exact entries entry before
      · rw [← attempt]
        exact apart
  · refine ⟨known, known _ confirmed, images, ?_⟩
    intro entry there
    rcases replaced entry there with before | ⟨rfl, attempt⟩
    · exact rolled entry before
    · rw [← attempt]
      exact binary
  · exact inv.one
  · intro other updater held phase
    have still := quiet other updater held
    simp [Updater.activating, phase] at still
  · intro other updater held active
    rw [quiet other updater held] at active
    cases active
  · intro other updater held phase
    have still := quiet other updater held
    simp [Updater.activating, phase] at still
  · intro other there
    cases pending.symm.trans there
    refine ⟨open', line, fun same => ?_, previous, saved, confirmed, Or.inl rfl⟩
    rw [← same] at open'
    exact absurd confirmed open'
  · intro unconfirmed
    exact absurd confirmed unconfirmed
  · intro other there
    cases pending.symm.trans there
    exact Or.inl ⟨.noting version, (guards_set host update _ _).trans (if_pos own)⟩
  · intro other guard held past
    have held' := (guards_set host update other _).symm.trans held
    split at held'
    next same =>
      cases held'
      exact ⟨quiet, ⟨marker, pending, own.trans same.symm⟩, fun _ => confirmed⟩
    · obtain ⟨still, marker', done⟩ := inv.working other guard held' past
      exact ⟨still, marker', fun _ => confirmed⟩
  · intro entry there
    rcases replaced entry there with before | ⟨rfl, attempt⟩
    · obtain ⟨own', fresh, done⟩ := inv.rolled entry before
      refine ⟨own', fresh, fun other there' same => ?_⟩
      obtain ⟨guard, held, past⟩ := done other there' same
      by_cases here : entry.2 = update
      · exact ⟨.noting version, (guards_set host update _ _).trans (if_pos here), rfl⟩
      · exact ⟨guard, ((guards_set host update _ _).trans (if_neg here)).trans held, past⟩
    · refine ⟨rfl, ?_, fun _ _ _ => ?_⟩
      · rw [← own]
        exact open'
      · exact ⟨.noting version, (guards_set host update _ _).trans (if_pos rfl), rfl⟩

theorem clear_inv (inv : Inv host) {version : String}
    (found : host.guards update = some (.clearing version)) :
    Inv { host.setGuard update none with pending := none } := by
  obtain ⟨quiet, ⟨marker, pending, own⟩, restored⟩ := inv.working update _ found rfl
  have confirmed := restored rfl
  constructor
  · exact inv.updater_new
  · exact inv.known
  · exact inv.one
  · intro other updater held phase
    have still := quiet other updater held
    simp [Updater.activating, phase] at still
  · intro other updater held active
    rw [quiet other updater held] at active
    cases active
  · intro other updater held phase
    have still := quiet other updater held
    simp [Updater.activating, phase] at still
  · intro other there
    cases there
  · intro unconfirmed
    exact absurd confirmed unconfirmed
  · intro other there
    cases there
  · intro other guard held past
    have held' := (guards_set host update other _).symm.trans held
    split at held'
    · cases held'
    next apart =>
      -- The marker has one guard that works on it.
      obtain ⟨-, ⟨marker', pending', own'⟩, -⟩ := inv.working other guard held' past
      cases pending.symm.trans pending'
      exact absurd (own'.symm.trans own) apart
  · intro entry there
    obtain ⟨own', fresh, -⟩ := inv.rolled entry there
    refine ⟨own', fresh, ?_⟩
    intro other there'
    cases there'

end

section
variable {host : Host}

/-- The update whose process or guard an event is about. -/
def about : Event → Option ℕ
  | .save update _ | .mark update | .markFails update _ | .schedule update _ | .install update _
  | .unmark update _ | .stop update | .guardRead update _ | .guardRestore update _
  | .guardNote update _ | .guardClear update _ => some update
  | _ => none

theorem activate_inv (inv : Inv host) {event : Event} {update : ℕ} {updater : Updater}
    (held : host.updaters update = some updater) (sound : host.Sound event)
    (here : about event = some update) :
    Inv (host.activate update updater event) := by
  unfold activate
  split
  next ok phase =>
    cases here
    cases ok with
    | true =>
      obtain ⟨free, quiet, other⟩ := sound rfl updater held
      exact save_inv inv held free quiet other
    | false =>
      apply drop_inv inv
      intro other found late
      cases held.symm.trans found
      rcases late with late | late <;> cases phase.symm.trans late
  next phase => exact mark_inv inv held phase
  next left phase =>
    cases here
    cases sound updater held phase
    apply drop_inv inv
    intro other found late
    cases held.symm.trans found
    rcases late with late | late <;> cases phase.symm.trans late
  next ok phase =>
    cases ok with
    | true => exact schedule_inv inv held phase
    | false =>
      exact advance_inv inv held (by simp [activating_eq, phase]) (by simp [phase]) (Or.inr rfl)
  next ok phase =>
    cases ok with
    | true => exact install_inv inv held phase
    | false =>
      exact advance_inv inv held (by simp [activating_eq, phase]) (by simp [phase]) (Or.inr rfl)
  next ok phase =>
    cases here
    cases ok with
    | true => exact unmark_inv inv held phase
    | false =>
      apply drop_inv inv
      intro other found _
      exact (sound.resolve_left Bool.false_ne_true) other found
        (by cases held.symm.trans found; exact phase)
  next => exact inv

theorem confirmStep_inv (inv : Inv host) {event : Event} {agent : Agent}
    (running : host.agent = some agent) (sound : host.Sound event) :
    Inv (host.confirmStep agent event) := by
  unfold confirmStep
  split
  next ok _ =>
    split
    · exact setConfirm_inv inv running _
    · exact setConfirm_inv inv running _
  next ok _ =>
    cases ok with
    | true => exact rolledBack_inv (setConfirm_inv inv running _) none
    | false => exact setConfirm_inv inv running _
  next ok phase =>
    have served := setConfirm_inv inv running .served
    simp only
    split
    next removes =>
      obtain ⟨marker, pending⟩ := Option.isSome_iff_exists.mp removes.2
      obtain ⟨own, idle⟩ := sound removes.1 agent marker running phase pending
      exact @confirm_inv (host.setConfirm agent .served) served { agent with confirm := .served } marker
        rfl pending own idle
    · exact served
  next => exact inv

theorem guardStep_inv (inv : Inv host) {event : Event} {update : ℕ} {guard : Guard}
    (found : host.guards update = some guard) (sound : host.Sound event)
    (here : about event = some update) :
    Inv (host.guardStep update guard event) := by
  unfold guardStep
  split
  next ok =>
    cases here
    cases pending : host.pending with
    | none =>
      rw [Option.map_none, show (if ok = true then readLine none else none) = none by
        cases ok <;> rfl]
      exact idle_inv inv pending
    | some marker =>
      obtain ⟨reads, own, quiet⟩ := sound marker found pending
      have line : readLine (some marker.line) = some marker.line := by
        simp [readLine, (inv.marker marker pending).2.1]
      rw [reads, Option.map_some, if_pos rfl, line]
      exact work_inv inv pending own quiet found (fun done => by cases done) (fun done => by cases done)
  next version _ ok =>
    obtain ⟨-, ⟨marker, pending, -⟩, -⟩ := inv.working update _ found rfl
    obtain ⟨-, -, -, previous, saved, -⟩ := inv.marker marker pending
    cases show ok = true from sound
    rw [saved]
    exact restore_inv inv found saved
  next version _ ok =>
    obtain ⟨quiet, ⟨marker, pending, own⟩, restored⟩ := inv.working update _ found rfl
    cases show ok = true from sound
    have clearing := @work_inv host update inv marker pending own quiet _ (.clearing version) found
      (fun _ => rfl) (fun _ => restored rfl)
    exact rolledBack_inv clearing (some version)
  next ok =>
    cases show ok = true from sound
    exact clear_inv inv found
  next => exact inv

/-- One sound step keeps the invariant. -/
theorem step_inv (inv : Inv host) {event : Event} (sound : host.Sound event) :
    Inv (host.step event) := by
  cases event with
  | begin own base version keyed staged =>
    simp only [step]
    split
    next passed => exact begin_inv inv (valid_nonempty (check_updating passed))
    · exact inv
  | retry => exact rolledBack_inv inv none
  | stop update => exact drop_inv inv sound
  | start =>
    apply agent_inv inv
    rintro new ⟨⟩
    exact Or.inl rfl
  | stopAgent =>
    apply agent_inv inv
    rintro new ⟨⟩
  | readPending ok | forgetRolledBack ok | removePending ok =>
    simp only [step]
    split
    · exact inv
    next agent running => exact confirmStep_inv inv running sound
  | guardRead update ok | guardRestore update ok | guardNote update ok | guardClear update ok =>
    simp only [step]
    split
    · exact inv
    next guard found => exact guardStep_inv inv found sound rfl
  | save update ok | mark update | markFails update left | schedule update ok | install update ok
  | unmark update ok =>
    simp only [step]
    split
    · exact inv
    next updater held => exact activate_inv inv held sound rfl

theorem run_inv (events : List Event) (inv : Inv host) (sound : host.SoundRun events) :
    Inv (host.run events) := by
  induction events generalizing host with
  | nil => exact inv
  | cons event rest ih =>
    obtain ⟨now, later⟩ := sound
    exact ih (step_inv inv now) later

end

/-- An update to `version`, by the agent of `own`, up to its installation as number `update`. -/
def installed (update : ℕ) (own version : String) : List Event :=
  [.begin own "https://releases" version true true, .save update true, .mark update,
    .schedule update true, .install update true]

/-- The agent starts and confirms. -/
def confirmation : List Event :=
  [.start, .readPending true, .forgetRolledBack true, .removePending true]

/-- What `update` of the sample leaves when its checks have passed. -/
theorem begun : (Host.fresh "1.0.0" none).step (.begin "1.0.0" "https://releases" "1.1.0" true true) =
    { (Host.fresh "1.0.0" none).setUpdater 1 (some ⟨"1.1.0", .preparing⟩) with next := 2 } := by
  have passed : (Host.fresh "1.0.0" none).check "1.0.0" "https://releases" "1.1.0" true true =
      .ok .updating := by decide
  simp only [step]
  rw [passed]
  rfl

end Host
end Update
end NodePlane
