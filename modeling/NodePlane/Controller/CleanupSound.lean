import NodePlane.Controller.SystemCleanup

/-! What holds in every state of a cleanup job's careful runs, and that each single change keeps
it. -/
namespace NodePlane
namespace SystemCleanup

variable {s : State} {pass : Pass} {outcome : Outcome} {status : Status} {row : Row}

/-- No pass or failing retry writes over an aborted job, nor a failing retry over one that
succeeded, and a requested cancellation is not given up before the job is aborted. -/
def State.careful (s : State) : Op → Bool
  | .pass outcome =>
    decide (outcome = .raised) ||
      match s.pass with
      | .block | .backedUp _ | .prepared _ | .settle false => decide (s.job.status ≠ .aborted)
      | .items _ listed [] =>
        (listed.any fun item => decide (item.2 ≠ .succeeded)) || decide (s.job.status ≠ .aborted)
      | .uncancel => decide (s.job.status = .aborted)
      | _ => true
  | .retryStep call outcome =>
    decide (outcome = .raised) || decide (s.retries[call]? ≠ some .failing) ||
      decide (s.job.status ∉ [.aborted, .succeeded])
  | _ => true

/-- Every step is careful. -/
def State.carefulRun (s : State) : List Op → Bool
  | [] => true
  | op :: ops => s.careful op && (s.step op).carefulRun ops

/-- Each of the items succeeded. -/
def State.cleanedAll (s : State) (items : Items) : Prop := ∀ item ∈ items, item.1 ∈ s.cleaned

/-- What is read as succeeded did succeed. -/
def State.confirms (s : State) (items : Items) : Prop :=
  ∀ item ∈ items, item.2 = .succeeded → item.1 ∈ s.cleaned

/-- What holds at each point of a pass. -/
def Pass.Fits (s : State) : Pass → Prop
  | .read row => row.phase = s.job.phase ∧ (row.ack = true → s.job.ack = true) ∧
      (row.cancel = true → s.accepted = true)
  | .backup _ => s.job.phase = .backup
  | .backedUp _ => s.job.phase = .backup ∧ (s.action = .reset → s.saved = true)
  | .nodes _ => s.job.phase = .nodes
  | .items _ listed _ | .request _ listed _ _ => s.job.phase = .nodes ∧ s.confirms listed ∧
      listed.map Prod.fst = s.items.map Prod.fst
  | .markBlocked _ _ | .markDone _ _ => s.job.phase = .nodes
  | .wipe _ => s.job.phase = .localState
  | .clear _ | .cleared _ => s.job.phase = .localFiles
  | .prepare _ | .prepared _ => s.job.phase = .uninstallPrepare
  | .wipeAll _ => s.job.phase = .shutdown ∧ s.job.ack = true
  | .launch _ => s.job.phase = .uninstallLaunch ∧ s.launches = 0
  | .launched _ => s.job.phase = .uninstallLaunch
  | .finish _ => s.accepted = true
  | .settle wasAborted => wasAborted = true → s.accepted = true
  | .idle | .discard _ | .uncancel | .block => True

/-- The phases of each action. -/
def Action.phases : Action → List Phase
  | .reset => [.backup, .nodes, .localState, .localFiles, .complete]
  | .remove => [.nodes, .uninstallPrepare, .shutdown, .uninstallLaunch]

/-- What holds in every state of a careful run. -/
structure Sound (s : State) : Prop where
  items : s.confirms s.items
  phases : s.job.phase ∈ s.action.phases
  nodes : s.job.phase ∉ [.backup, .nodes] → s.cleanedAll s.items
  saved : s.action = .reset → s.job.phase ≠ .backup → s.saved = true
  fits : s.pass.Fits s
  finished : s.gone = true → s.pass = .idle
  ended : s.job.phase = .complete → s.job.status = .succeeded ∧ s.pass = .idle
  launches : s.launches = 0 ∨ s.launches = 1 ∧ s.job.phase = .uninstallLaunch
  wiped : s.wiped = true → s.cleanedAll s.items ∧ (s.action = .reset → s.saved = true) ∧
    (s.action = .remove → s.job.ack = true)
  late : s.wiped = true → s.job.phase ∈ [.localFiles, .complete, .uninstallLaunch]
  cancelled : s.job.cancel = true → s.accepted = true ∧ s.action = .remove
  aborted : s.job.status = .aborted → s.accepted = true
  stopped : s.accepted = true → s.job.ack = false ∧
    s.job.phase ∉ [.localState, .localFiles, .uninstallLaunch] ∧
    (s.job.status = .aborted ∨ s.action = .remove ∧ s.job.cancel = true)

theorem State.write_open {f : Row → Row} (open' : s.gone = false) :
    s.write f = { s with job := f s.job } := by
  simp [State.write, open']

theorem Sound.initial (action : Action) (nodes : List ℕ) : Sound (.initial action nodes) where
  items item listed succeeded := by
    obtain ⟨node, _, rfl⟩ := List.mem_map.mp listed
    cases succeeded
  phases := by cases action <;> simp [State.initial, Action.phases]
  nodes late := by cases action <;> simp [State.initial] at late
  saved reset late := by
    have reset : action = .reset := reset
    simp [State.initial, reset] at late
  fits := trivial
  finished gone := nomatch gone
  ended done := by cases action <;> simp [State.initial] at done
  launches := .inl rfl
  wiped done := nomatch done
  late done := nomatch done
  cancelled asked := nomatch asked
  aborted done := nomatch done
  stopped accepted := nomatch accepted

/-! Single changes -/

/-- The pass goes on. -/
theorem Sound.goto (sound : Sound s) (busy : s.pass ≠ .idle) (fits : pass.Fits s) :
    Sound { s with pass := pass } where
  items := sound.items
  phases := sound.phases
  nodes := sound.nodes
  saved := sound.saved
  fits := by cases pass <;> exact fits
  finished gone := absurd (sound.finished gone) busy
  ended done := absurd (sound.ended done).2 busy
  launches := sound.launches
  wiped := sound.wiped
  late := sound.late
  cancelled := sound.cancelled
  aborted := sound.aborted
  stopped := sound.stopped

theorem Sound.idle (sound : Sound s) : Sound { s with pass := .idle } where
  items := sound.items
  phases := sound.phases
  nodes := sound.nodes
  saved := sound.saved
  fits := trivial
  finished _ := rfl
  ended done := ⟨(sound.ended done).1, rfl⟩
  launches := sound.launches
  wiped := sound.wiped
  late := sound.late
  cancelled := sound.cancelled
  aborted := sound.aborted
  stopped := sound.stopped

theorem Sound.fail (sound : Sound s) (busy : s.pass ≠ .idle) : Sound (s.fail row) := by
  unfold State.fail
  split
  · exact sound.goto busy trivial
  · exact sound.goto busy trivial

/-- A pass reads the job. -/
theorem Sound.pick (sound : Sound s) (picked : s.picked = true) :
    Sound { s with pass := .read s.job } where
  items := sound.items
  phases := sound.phases
  nodes := sound.nodes
  saved := sound.saved
  fits := ⟨rfl, id, fun asked => (sound.cancelled asked).1⟩
  finished gone := by
    have gone : s.gone = true := gone
    simp [State.picked, gone] at picked
  ended done := by
    simp [State.picked, (sound.ended done).1] at picked
  launches := sound.launches
  wiped := sound.wiped
  late := sound.late
  cancelled := sound.cancelled
  aborted := sound.aborted
  stopped := sound.stopped

/-- The state of the job that a pass relies on. -/
theorem Pass.Fits.mono {next : State} (fits : pass.Fits s) (phase : next.job.phase = s.job.phase)
    (ack : s.job.ack = true → next.job.ack = true)
    (accepted : s.accepted = true → next.accepted = true) (action : next.action = s.action)
    (saved : s.saved = true → next.saved = true) (launches : next.launches = s.launches)
    (cleaned : ∀ node ∈ s.cleaned, node ∈ next.cleaned)
    (items : next.items.map Prod.fst = s.items.map Prod.fst) : pass.Fits next := by
  cases pass with
  | read row => exact ⟨fits.1.trans phase.symm, fun has => ack (fits.2.1 has), fun has => accepted (fits.2.2 has)⟩
  | backup row => exact phase.trans fits
  | backedUp row => exact ⟨phase.trans fits.1, fun reset => saved (fits.2 (action ▸ reset))⟩
  | nodes row => exact phase.trans fits
  | items row read todo =>
    exact ⟨phase.trans fits.1, fun item listed done => cleaned _ (fits.2.1 item listed done),
      fits.2.2.trans items.symm⟩
  | request row read node rest =>
    exact ⟨phase.trans fits.1, fun item listed done => cleaned _ (fits.2.1 item listed done),
      fits.2.2.trans items.symm⟩
  | markBlocked row node => exact phase.trans fits
  | markDone row node => exact phase.trans fits
  | wipe row => exact phase.trans fits
  | clear row => exact phase.trans fits
  | cleared row => exact phase.trans fits
  | prepare row => exact phase.trans fits
  | prepared row => exact phase.trans fits
  | wipeAll row => exact ⟨phase.trans fits.1, ack fits.2⟩
  | launch row => exact ⟨phase.trans fits.1, launches.trans fits.2⟩
  | launched row => exact phase.trans fits
  | finish row => exact accepted fits
  | settle aborted => exact fun was => accepted (fits was)
  | idle => trivial
  | discard row => trivial
  | uncancel => trivial
  | block => trivial

/-- A status is written over a job that was not aborted, or as aborted after an accepted abort. -/
theorem Sound.set (sound : Sound s) (going : s.job.phase ≠ .complete)
    (keeps : status = .aborted ∨ s.job.status ≠ .aborted)
    (ends : status = .aborted → s.accepted = true) : Sound (s.set status) := by
  unfold State.set State.write
  split
  · exact sound
  · constructor
    · exact sound.items
    · exact sound.phases
    · exact sound.nodes
    · exact sound.saved
    · exact sound.fits.mono rfl id id rfl id rfl (fun _ has => has) rfl
    · exact sound.finished
    · exact fun done => absurd done going
    · exact sound.launches
    · exact sound.wiped
    · exact sound.late
    · exact sound.cancelled
    · exact ends
    · intro accepted
      obtain ⟨ack, phase, how⟩ := sound.stopped accepted
      refine ⟨ack, phase, ?_⟩
      rcases keeps with written | open'
      · exact .inl written
      · exact .inr (how.resolve_left open')

/-- The worker writes the next phase of a job that was not aborted. -/
theorem Sound.move {f : Row → Row} (sound : Sound s) (open' : s.gone = false)
    (status : s.job.status ≠ .aborted) (from' : s.job.phase ≠ .uninstallLaunch)
    (ack : (f s.job).ack = s.job.ack) (cancel : (f s.job).cancel = s.job.cancel)
    (next : (f s.job).status ≠ .aborted) (phases : (f s.job).phase ∈ s.action.phases)
    (nodes : (f s.job).phase ∉ [.backup, .nodes] → s.cleanedAll s.items)
    (saved : s.action = .reset → (f s.job).phase ≠ .backup → s.saved = true)
    (stop : s.accepted = true →
      (f s.job).phase ∉ [.localState, .localFiles, .uninstallLaunch])
    (ended : (f s.job).phase = .complete → (f s.job).status = .succeeded)
    (late : s.wiped = true →
      (f s.job).phase ∈ [.localFiles, .complete, .uninstallLaunch]) :
    Sound { s.write f with pass := .idle } := by
  rw [State.write_open open']
  constructor
  · exact sound.items
  · exact phases
  · exact nodes
  · exact saved
  · trivial
  · exact fun _ => rfl
  · exact fun done => ⟨ended done, rfl⟩
  · exact .inl (sound.launches.resolve_right fun one => from' one.2)
  · intro done
    obtain ⟨all, kept, asked⟩ := sound.wiped done
    exact ⟨all, kept, fun remove => ack.trans (asked remove)⟩
  · exact late
  · exact fun asked => sound.cancelled (cancel.symm.trans asked)
  · exact fun done => absurd done next
  · intro accepted
    obtain ⟨unasked, _, how⟩ := sound.stopped accepted
    obtain ⟨remove, asked⟩ := how.resolve_left status
    exact ⟨ack.trans unasked, stop accepted, .inr ⟨remove, cancel.trans asked⟩⟩

/-- A removal in the phases from the wipe on is not stopped, and neither is a reset. -/
theorem Sound.unstopped (sound : Sound s)
    (phase : s.job.phase ∈ [.localState, .localFiles, .uninstallLaunch]) :
    s.accepted = false := by
  by_contra accepted
  exact (sound.stopped (by simpa using accepted)).2.1 phase

/-- A pass past the removal of the nodes is of a job that is not aborted. -/
theorem Sound.unaborted (sound : Sound s)
    (phase : s.job.phase ∈ [.localState, .localFiles, .uninstallLaunch]) :
    s.job.status ≠ .aborted := fun done =>
  absurd ((sound.unstopped phase).symm.trans (sound.aborted done)) (by decide)

/-- The wipe, when everything it waits for is done. -/
theorem Sound.wipe {phase : Phase} (sound : Sound s) (open' : s.gone = false)
    (unasked : s.accepted = false) (all : s.cleanedAll s.items)
    (saved : s.action = .reset → s.saved = true) (ack : s.action = .remove → s.job.ack = true)
    (from' : s.job.phase ≠ .uninstallLaunch) (phases : phase ∈ s.action.phases)
    (next : phase ∈ [.localFiles, .uninstallLaunch])
    (fits : pass.Fits { s.wipe phase with pass := pass }) :
    Sound { s.wipe phase with pass := pass } := by
  have none : s.launches = 0 := sound.launches.resolve_right fun one => from' one.2
  rw [State.wipe, State.write_open open'] at fits ⊢
  constructor
  · exact sound.items
  · exact phases
  · exact fun _ => all
  · exact fun reset _ => saved reset
  · exact fits
  · exact fun gone => absurd (show s.gone = true from gone) (by simp [open'])
  · intro done
    have done : phase = .complete := done
    simp [done] at next
  · exact .inl none
  · exact fun _ => ⟨all, saved, ack⟩
  · intro _
    have next : phase = .localFiles ∨ phase = .uninstallLaunch := by simpa using next
    rcases next with rfl | rfl <;> simp
  · exact sound.cancelled
  · intro done
    cases done
  · exact fun stopped => absurd (show s.accepted = true from stopped) (by simp [unasked])

/-- What an accepted `abort` has checked. -/
theorem State.safe_of_abort (sound : Sound s) (safe : s.abortUnsafe = false) :
    s.job.ack = false ∧ s.job.phase ∉ [.localState, .localFiles, .uninstallLaunch] ∧
      s.job.phase ≠ .complete := by
  simp only [State.abortUnsafe, Bool.or_eq_false_iff, decide_eq_false_iff_not,
    Bool.not_eq_false'] at safe
  obtain ⟨⟨ack, phase⟩, status⟩ := safe
  refine ⟨ack, phase, fun done => ?_⟩
  simp [(sound.ended done).1] at status

/-- `abort` is accepted at once. -/
theorem Sound.abort (sound : Sound s) (open' : s.gone = false) (safe : s.abortUnsafe = false) :
    Sound s.aborted := by
  obtain ⟨ack, phase, going⟩ := State.safe_of_abort sound safe
  rw [State.aborted, State.set, State.write_open open']
  constructor
  · exact sound.items
  · exact sound.phases
  · exact sound.nodes
  · exact sound.saved
  · exact sound.fits.mono rfl id (fun _ => rfl) rfl id rfl (fun _ has => has) rfl
  · exact sound.finished
  · exact fun done => absurd done going
  · exact sound.launches
  · exact sound.wiped
  · exact sound.late
  · exact fun asked => ⟨rfl, (sound.cancelled asked).2⟩
  · exact fun _ => rfl
  · exact fun _ => ⟨ack, phase, .inl rfl⟩

/-- `abort` records a request to cancel. -/
theorem Sound.cancel (sound : Sound s) (open' : s.gone = false) (safe : s.abortUnsafe = false)
    (remove : s.action = .remove) :
    Sound { s.write fun job => { job with cancel := true } with accepted := true } := by
  obtain ⟨ack, phase, _⟩ := State.safe_of_abort sound safe
  rw [State.write_open open']
  constructor
  · exact sound.items
  · exact sound.phases
  · exact sound.nodes
  · exact sound.saved
  · exact sound.fits.mono rfl id (fun _ => rfl) rfl id rfl (fun _ has => has) rfl
  · exact sound.finished
  · exact sound.ended
  · exact sound.launches
  · exact sound.wiped
  · exact sound.late
  · exact fun _ => ⟨rfl, remove⟩
  · exact fun _ => rfl
  · exact fun _ => ⟨ack, phase, .inr ⟨remove, rfl⟩⟩

/-- The request to cancel an aborted job is cleared. -/
theorem Sound.uncancel (sound : Sound s) (busy : s.pass ≠ .idle) (open' : s.gone = false)
    (done : s.job.status = .aborted) :
    Sound { s.write fun job => { job with cancel := false } with pass := .settle true } := by
  have accepted := sound.aborted done
  rw [State.write_open open']
  constructor
  · exact sound.items
  · exact sound.phases
  · exact sound.nodes
  · exact sound.saved
  · exact fun _ => accepted
  · exact fun gone => absurd (sound.finished gone) busy
  · exact fun done => absurd (sound.ended done).2 busy
  · exact sound.launches
  · exact sound.wiped
  · exact sound.late
  · exact fun asked => nomatch asked
  · exact sound.aborted
  · exact fun _ => ⟨(sound.stopped accepted).1, (sound.stopped accepted).2.1, .inl done⟩

/-- `acknowledge_shutdown`. -/
theorem Sound.acknowledge (sound : Sound s) (open' : s.gone = false)
    (status : s.job.status = .awaitingShutdown) (cancel : s.job.cancel = false) :
    Sound (s.write fun job => { job with ack := true }) := by
  have unasked : s.accepted ≠ true := by
    intro accepted
    rcases (sound.stopped accepted).2.2 with done | ⟨_, asked⟩
    · exact absurd (status.symm.trans done) (by decide)
    · exact absurd (cancel.symm.trans asked) (by decide)
  rw [State.write_open open']
  constructor
  · exact sound.items
  · exact sound.phases
  · exact sound.nodes
  · exact sound.saved
  · exact sound.fits.mono rfl (fun _ => rfl) id rfl id rfl (fun _ has => has) rfl
  · exact sound.finished
  · exact sound.ended
  · exact sound.launches
  · intro done
    obtain ⟨all, saved, _⟩ := sound.wiped done
    exact ⟨all, saved, fun _ => rfl⟩
  · exact sound.late
  · exact sound.cancelled
  · exact sound.aborted
  · exact fun accepted => absurd accepted unasked

/-! Items -/

@[simp] theorem State.setItem_fst (node : ℕ) (next : ItemStatus) :
    (s.setItem node next).items.map Prod.fst = s.items.map Prod.fst := by
  simp only [State.setItem, List.map_map]
  apply List.map_congr_left
  intro item _
  by_cases same : item.1 = node <;> simp [same]

theorem State.cleanedAll_congr {items later : Items}
    (same : later.map Prod.fst = items.map Prod.fst) (all : s.cleanedAll items) :
    s.cleanedAll later := by
  intro item listed
  have : item.1 ∈ items.map Prod.fst := same ▸ List.mem_map_of_mem listed
  obtain ⟨was, wasListed, key⟩ := List.mem_map.mp this
  exact key ▸ all was wasListed

theorem State.confirms_setItem {node : ℕ} {next : ItemStatus} (items : s.confirms s.items)
    (done : next = .succeeded → node ∈ s.cleaned) : s.confirms (s.setItem node next).items := by
  intro item listed succeeded
  obtain ⟨was, wasListed, rfl⟩ := List.mem_map.mp listed
  by_cases same : was.1 = node
  · simp only [same, if_true] at succeeded ⊢
    exact done succeeded
  · simp only [same, if_false] at succeeded ⊢
    exact items was wasListed succeeded

theorem Sound.setItem {node : ℕ} {next : ItemStatus} (sound : Sound s)
    (done : next = .succeeded → node ∈ s.cleaned) : Sound (s.setItem node next) where
  items := State.confirms_setItem sound.items done
  phases := sound.phases
  nodes late := State.cleanedAll_congr (State.setItem_fst node next) (sound.nodes late)
  saved := sound.saved
  fits := sound.fits.mono rfl id id rfl id rfl (fun _ has => has) (State.setItem_fst node next)
  finished := sound.finished
  ended := sound.ended
  launches := sound.launches
  wiped was := by
    obtain ⟨all, saved, ack⟩ := sound.wiped was
    exact ⟨State.cleanedAll_congr (State.setItem_fst node next) all, saved, ack⟩
  cancelled := sound.cancelled
  aborted := sound.aborted
  stopped := sound.stopped
  late := sound.late

theorem Sound.retries (sound : Sound s) (retries : List Retry) :
    Sound { s with retries := retries } where
  items := sound.items
  phases := sound.phases
  nodes := sound.nodes
  saved := sound.saved
  fits := sound.fits.mono rfl id id rfl id rfl (fun _ has => has) rfl
  finished := sound.finished
  ended := sound.ended
  launches := sound.launches
  wiped := sound.wiped
  cancelled := sound.cancelled
  aborted := sound.aborted
  stopped := sound.stopped
  late := sound.late

/-- An item succeeds. -/
theorem Sound.confirm (sound : Sound s) (node : ℕ) :
    Sound { s with cleaned := node :: s.cleaned } where
  items item listed done := List.mem_cons_of_mem _ (sound.items item listed done)
  phases := sound.phases
  nodes late item listed := List.mem_cons_of_mem _ (sound.nodes late item listed)
  saved := sound.saved
  fits := sound.fits.mono rfl id id rfl id rfl (fun _ has => List.mem_cons_of_mem _ has) rfl
  finished := sound.finished
  ended := sound.ended
  launches := sound.launches
  wiped was := by
    obtain ⟨all, saved, ack⟩ := sound.wiped was
    exact ⟨fun item listed => List.mem_cons_of_mem _ (all item listed), saved, ack⟩
  cancelled := sound.cancelled
  aborted := sound.aborted
  stopped := sound.stopped
  late := sound.late

/-- The backup was made. -/
theorem Sound.save (sound : Sound s) {saved : Bool} (more : s.saved = true → saved = true) :
    Sound { s with saved := saved } where
  items := sound.items
  phases := sound.phases
  nodes := sound.nodes
  saved reset late := more (sound.saved reset late)
  fits := sound.fits.mono rfl id id rfl more rfl (fun _ has => has) rfl
  finished := sound.finished
  ended := sound.ended
  launches := sound.launches
  wiped was := by
    obtain ⟨all, kept, ack⟩ := sound.wiped was
    exact ⟨all, fun reset => more (kept reset), ack⟩
  cancelled := sound.cancelled
  aborted := sound.aborted
  stopped := sound.stopped
  late := sound.late

/-- The uninstall is launched. -/
theorem Sound.launch (sound : Sound s) (busy : s.pass ≠ .idle) (none : s.launches = 0)
    (phase : s.job.phase = .uninstallLaunch)
    (fits : pass.Fits { s with launches := 1, pass := pass }) :
    Sound { s with launches := s.launches + 1, pass := pass } := by
  rw [none]
  constructor
  · exact sound.items
  · exact sound.phases
  · exact sound.nodes
  · exact sound.saved
  · exact fits
  · exact fun gone => absurd (sound.finished gone) busy
  · exact fun done => absurd (sound.ended done).2 busy
  · exact .inr ⟨rfl, phase⟩
  · exact sound.wiped
  · exact sound.late
  · exact sound.cancelled
  · exact sound.aborted
  · exact sound.stopped

theorem Sound.discarded (sound : Sound s) : Sound { s with gone := true, pass := .idle } where
  items := sound.items
  phases := sound.phases
  nodes := sound.nodes
  saved := sound.saved
  fits := trivial
  finished _ := rfl
  ended done := ⟨(sound.ended done).1, rfl⟩
  launches := sound.launches
  wiped := sound.wiped
  cancelled := sound.cancelled
  aborted := sound.aborted
  stopped := sound.stopped
  late := sound.late

end SystemCleanup
end NodePlane
