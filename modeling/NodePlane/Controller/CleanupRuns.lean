import NodePlane.Controller.CleanupSound

/-! Runs of a cleanup job: when the controller is wiped, that the uninstall is launched once, and
what an accepted abort stops. -/
namespace NodePlane
namespace SystemCleanup

variable {s : State} {pass : Pass} {outcome : Outcome} {status : Status} {row : Row}

/-! Steps -/

theorem Sound.open (sound : Sound s) (busy : s.pass ≠ .idle) : s.gone = false := by
  by_contra gone
  exact busy (sound.finished (by simpa using gone))

/-- Where a pass goes fits the job that it read. -/
theorem Sound.fits_byPhase (phase : row.phase = s.job.phase)
    (ack : row.ack = true → s.job.ack = true) : (byPhase row).Fits s := by
  unfold byPhase
  split <;> rename_i read
  · exact phase.symm.trans read
  · exact phase.symm.trans read
  · exact phase.symm.trans read
  · exact phase.symm.trans read
  · exact phase.symm.trans read
  · split
    · rename_i asked
      exact ⟨phase.symm.trans read, ack asked⟩
    · trivial
  · trivial
  · trivial

theorem Action.reset_of_backup {action : Action} (phase : Phase.backup ∈ action.phases) :
    action = .reset := by
  cases action
  · rfl
  · simp [Action.phases] at phase

theorem Action.reset_of_wipe {action : Action} {phase : Phase} (listed : phase ∈ action.phases)
    (is : phase = .localState ∨ phase = .localFiles) : action = .reset := by
  cases action
  · rfl
  · rcases is with rfl | rfl <;> simp [Action.phases] at listed

theorem Action.remove_of_shutdown {action : Action} {phase : Phase} (listed : phase ∈ action.phases)
    (is : phase = .uninstallPrepare ∨ phase = .shutdown) : action = .remove := by
  cases action
  · rcases is with rfl | rfl <;> simp [Action.phases] at listed
  · rfl

/-- All the items were read as succeeded, so they all did succeed. -/
theorem State.cleanedAll_of_read {listed : Items} (read : s.confirms listed)
    (same : listed.map Prod.fst = s.items.map Prod.fst)
    (done : (listed.any fun item => decide (item.2 ≠ .succeeded)) = false) :
    s.cleanedAll s.items := by
  refine State.cleanedAll_congr same.symm fun item has => ?_
  refine read item has ?_
  by_contra other
  have : (listed.any fun item => decide (item.2 ≠ .succeeded)) = true :=
    List.any_eq_true.mpr ⟨item, has, by simpa using other⟩
  exact absurd (done.symm.trans this) (by decide)

/-- The backup is recorded. -/
theorem Sound.backedUp {backup : Bool} (sound : Sound s) (open' : s.gone = false)
    (fits : (Pass.backedUp row).Fits s) (status : s.job.status ≠ .aborted) :
    Sound { s.write fun job => { job with status := .running, phase := .nodes, backup := backup }
      with pass := .idle } := by
  obtain ⟨phase, saved⟩ := fits
  have reset := Action.reset_of_backup (phase ▸ sound.phases)
  apply sound.move open' status (by simp [phase]) rfl rfl
  · simp
  · simp [reset, Action.phases]
  · simp
  · exact fun reset _ => saved reset
  · simp
  · simp
  · exact fun done => absurd (sound.late done) (by simp [phase])

/-- The nodes are removed. -/
theorem Sound.removed {listed : Items} (sound : Sound s) (open' : s.gone = false)
    (fits : (Pass.items row listed []).Fits s) (status : s.job.status ≠ .aborted)
    (done : (listed.any fun item => decide (item.2 ≠ .succeeded)) = false) :
    Sound { s.write fun job =>
      { job with status := .running,
                 phase := if s.action = .reset then Phase.localState else .uninstallPrepare } with
      pass := .idle } := by
  obtain ⟨phase, confirms, same⟩ := fits
  have all := State.cleanedAll_of_read confirms same done
  apply sound.move open' status (by simp [phase]) rfl rfl
  · simp
  · cases action : s.action <;> simp [Action.phases]
  · exact fun _ => all
  · exact fun reset _ => sound.saved reset (by simp [phase])
  · intro accepted
    obtain ⟨remove, _⟩ := (sound.stopped accepted).2.2.resolve_left status
    simp [remove]
  · cases action : s.action <;> simp
  · exact fun done => absurd (sound.late done) (by simp [phase])

/-- A reset wipes the controller. -/
theorem Sound.wipeReset (sound : Sound s) (open' : s.gone = false)
    (phase : s.job.phase = .localState) : Sound { s.wipe .localFiles with pass := .idle } := by
  have reset := Action.reset_of_wipe sound.phases (.inl phase)
  apply sound.wipe open' (sound.unstopped (by simp [phase]))
  · exact sound.nodes (by simp [phase])
  · exact fun reset => sound.saved reset (by simp [phase])
  · exact fun remove => absurd (reset.symm.trans remove) (by decide)
  · simp [phase]
  · simp [reset, Action.phases]
  · simp
  · trivial

/-- A reset ends. -/
theorem Sound.complete (sound : Sound s) (open' : s.gone = false)
    (phase : s.job.phase = .localFiles) :
    Sound { s.write fun job => { job with status := .succeeded, phase := .complete } with
      pass := .idle } := by
  have reset := Action.reset_of_wipe sound.phases (.inr phase)
  apply sound.move open' (sound.unaborted (by simp [phase])) (by simp [phase]) rfl rfl
  · simp
  · simp [reset, Action.phases]
  · exact fun _ => sound.nodes (by simp [phase])
  · exact fun reset _ => sound.saved reset (by simp [phase])
  · simp
  · simp
  · simp

/-- The uninstall is prepared. -/
theorem Sound.prepared (sound : Sound s) (open' : s.gone = false)
    (phase : s.job.phase = .uninstallPrepare) (status : s.job.status ≠ .aborted) :
    Sound { s.write fun job =>
        { job with status := .awaitingShutdown, phase := .shutdown, plan := true } with
      pass := .idle } := by
  have remove := Action.remove_of_shutdown sound.phases (.inl phase)
  apply sound.move open' status (by simp [phase]) rfl rfl
  · simp
  · simp [remove, Action.phases]
  · exact fun _ => sound.nodes (by simp [phase])
  · exact fun reset => absurd (remove.symm.trans reset) (by decide)
  · simp
  · simp
  · exact fun done => absurd (sound.late done) (by simp [phase])

/-- A removal wipes the controller. -/
theorem Sound.wipeAll (sound : Sound s) (open' : s.gone = false)
    (fits : (Pass.wipeAll row).Fits s) :
    Sound { s.wipe .uninstallLaunch with pass := .launch row } := by
  obtain ⟨phase, ack⟩ := fits
  have remove := Action.remove_of_shutdown sound.phases (.inr phase)
  have unasked : s.accepted = false := by
    by_contra accepted
    have stopped := sound.stopped (by simpa using accepted)
    exact absurd (ack.symm.trans stopped.1) (by decide)
  have none : s.launches = 0 := sound.launches.resolve_right fun one => by simp [phase] at one
  apply sound.wipe open' unasked
  · exact sound.nodes (by simp [phase])
  · exact fun reset => absurd (remove.symm.trans reset) (by decide)
  · exact fun _ => ack
  · simp [phase]
  · simp [remove, Action.phases]
  · simp
  · rw [State.wipe, State.write_open open']
    exact ⟨rfl, none⟩

theorem Sound.advance (sound : Sound s) (careful : s.careful (.pass outcome) = true) :
    Sound (s.advance outcome) := by
  by_cases quiet : s.pass = .idle
  · simp only [State.advance, quiet]
    split
    · rename_i picked
      exact sound.pick picked
    · exact sound
  have open' := sound.open quiet
  have fits := sound.fits
  simp only [State.careful, Bool.or_eq_true, decide_eq_true_eq] at careful
  unfold State.advance
  split <;> rename_i at' <;> rw [at'] at fits careful
  · exact absurd at' quiet
  · -- read
    obtain ⟨phase, ack, cancel⟩ := fits
    split
    · exact sound.goto quiet trivial
    split
    · exact sound.fail quiet
    split
    · rename_i asked
      exact sound.goto quiet (cancel asked)
    · exact sound.goto quiet (Sound.fits_byPhase phase ack)
  · -- backup
    split
    · exact sound.fail quiet
    · have saved : Sound { s with saved := s.saved || decide (s.action = .reset) } :=
        sound.save fun kept => by simp [kept]
      exact saved.goto quiet ⟨fits, fun reset => by simp [show s.action = .reset from reset]⟩
  · -- backedUp
    split
    · exact sound.fail quiet
    · rename_i fine
      exact sound.backedUp open' fits (of_decide_eq_true (careful.resolve_left fine))
  · -- nodes
    split
    · exact sound.fail quiet
    · exact sound.goto quiet ⟨fits, sound.items, rfl⟩
  · -- items, at the end
    split
    · exact sound.fail quiet
    split
    · exact sound.idle
    · rename_i fine done
      have done := Bool.eq_false_iff.mpr done
      have status := careful.resolve_left fine
      simp only [done, Bool.false_or, decide_eq_true_eq] at status
      exact sound.removed open' fits status done
  · -- items, at a node
    obtain ⟨phase, confirms, same⟩ := fits
    split
    · exact sound.goto quiet ⟨phase, confirms, same⟩
    split
    · exact sound.fail quiet
    split
    · exact sound.idle
    · exact sound.goto quiet ⟨phase, confirms, same⟩
  · -- request
    split
    · exact sound.fail quiet
    · exact sound.goto quiet fits.1
    · exact sound.goto quiet fits.1
    · exact sound.goto quiet fits
    · exact sound.goto quiet fits
  · -- markBlocked
    rename_i row node
    split
    · exact sound.fail quiet
    · have marked : Sound (s.setItem node .blocked) := sound.setItem (by rintro ⟨⟩)
      exact marked.fail quiet
  · -- markDone
    rename_i row node
    split
    · exact sound.fail quiet
    · have confirmed : Sound { s with cleaned := node :: s.cleaned } := sound.confirm node
      exact (confirmed.setItem fun _ => List.mem_cons_self).idle
  · -- wipe
    split
    · exact sound.fail quiet
    · exact sound.wipeReset open' fits
  · -- clear
    split
    · exact sound.fail quiet
    · exact sound.goto quiet fits
  · -- cleared
    split
    · exact sound.fail quiet
    · exact sound.complete open' fits
  · -- prepare
    split
    · exact sound.fail quiet
    · exact sound.goto quiet fits
  · -- prepared
    split
    · exact sound.fail quiet
    · rename_i fine
      exact sound.prepared open' fits (of_decide_eq_true (careful.resolve_left fine))
  · -- wipeAll
    split
    · exact sound.fail quiet
    · exact sound.wipeAll open' fits
  · -- launch
    obtain ⟨phase, none⟩ := fits
    dsimp only
    split
    · unfold State.fail
      split
      · exact sound.launch quiet none phase trivial
      · exact sound.launch quiet none phase trivial
    · exact sound.launch quiet none phase phase
  · -- launched
    split
    · exact sound.fail quiet
    · exact sound.discarded
  · -- finish
    split
    · exact sound.fail quiet
    split
    · exact sound.idle
    split
    · exact sound.fail quiet
    · rename_i safe
      have aborted := sound.abort open' (by simpa using safe)
      have busy : s.aborted.pass ≠ .idle := by
        rw [State.aborted, State.set, State.write_open open']
        exact quiet
      exact aborted.goto busy trivial
  · -- discard
    split
    · exact sound.fail quiet
    · exact sound.idle
  · -- uncancel
    split
    · exact sound.idle
    rename_i fine
    have status : s.job.status = .aborted := of_decide_eq_true (careful.resolve_left fine)
    simp only [status, decide_true]
    exact sound.uncancel quiet open' status
  · -- settle
    rename_i wasAborted
    have going : s.job.phase ≠ .complete := fun done => quiet (sound.ended done).2
    split
    · exact sound.idle
    rename_i fine
    cases wasAborted with
    | false =>
      have status : s.job.status ≠ .aborted := of_decide_eq_true (careful.resolve_left fine)
      have set : Sound (s.set .blocked) := sound.set going (.inr status) (by rintro ⟨⟩)
      exact set.idle
    | true =>
      have set : Sound (s.set .aborted) := sound.set going (.inl rfl) fun _ => fits rfl
      exact set.idle
  · -- block
    have going : s.job.phase ≠ .complete := fun done => quiet (sound.ended done).2
    split
    · exact sound.idle
    rename_i fine
    have status : s.job.status ≠ .aborted := of_decide_eq_true (careful.resolve_left fine)
    have set : Sound (s.set .blocked) := sound.set going (.inr status) (by rintro ⟨⟩)
    exact set.idle

/-- A call of `retry` goes on, or ends. -/
theorem Sound.setRetry {call : ℕ} {retry : Option Retry} (sound : Sound s) :
    Sound (s.setRetry call retry) :=
  sound.retries _

theorem Sound.retryStep {call : ℕ} (sound : Sound s)
    (careful : s.careful (.retryStep call outcome) = true) :
    Sound (s.retryStep call outcome) := by
  simp only [State.careful, Bool.or_eq_true, decide_eq_true_eq] at careful
  unfold State.retryStep
  split <;> rename_i at'
  · exact sound
  · split
    · exact sound.setRetry
    · exact sound.setRetry
  · exact sound.setRetry
  · split
    · exact sound.setRetry
    · exact sound.setRetry
  · split
    · exact sound.setRetry
    · rename_i node _ _
      have marked : Sound (s.setItem node .pending) := sound.setItem nofun
      exact marked.setRetry
  · split
    · exact sound.setRetry
    rename_i fine
    have status : s.job.status ∉ [.aborted, .succeeded] := by
      rcases careful with (failed | other) | status
      · exact absurd failed fine
      · exact absurd at' other
      · exact status
    simp only [List.mem_cons, List.not_mem_nil, or_false, not_or] at status
    have going : s.job.phase ≠ .complete := fun done => status.2 (sound.ended done).1
    have set : Sound (s.set .blocked) := sound.set going (.inr status.1) nofun
    exact set.setRetry

theorem Sound.step {op : Op} (sound : Sound s) (careful : s.careful op = true) :
    Sound (s.step op) := by
  cases op with
  | pass outcome => exact sound.advance careful
  | crash => exact sound.idle
  | retryStep call outcome => exact sound.retryStep careful
  | dropRetry call =>
    have dropped : Sound (s.setRetry call none) := sound.setRetry
    exact dropped
  | retry =>
    simp only [State.step]
    split
    · exact sound
    · rename_i blocked
      simp only [not_or, not_not] at blocked
      have going : s.job.phase ≠ .complete := fun done => by
        simp [(sound.ended done).1] at blocked
      have asked : Sound (s.set .running) :=
        sound.set going (.inr (by simp [blocked.2.1])) nofun
      split
      · exact asked.retries _
      · exact asked
  | abort =>
    simp only [State.step]
    split
    · exact sound
    rename_i open'
    have open' : s.gone = false := by simpa using open'
    split
    · rename_i done
      have same : { s with accepted := true } = s := by
        rw [← sound.aborted done]
      exact same ▸ sound
    split
    · exact sound
    rename_i safe
    have safe : s.abortUnsafe = false := by simpa using safe
    split
    · rename_i preparing
      exact sound.cancel open' safe preparing.1
    · exact sound.abort open' safe
  | acknowledge =>
    simp only [State.step]
    split
    · exact sound
    · rename_i ready
      simp only [not_or, not_not, Bool.not_eq_true] at ready
      exact sound.acknowledge ready.1 ready.2.1 ready.2.2

theorem Sound.run {ops : List Op} (sound : Sound s) (careful : s.carefulRun ops = true) :
    Sound (s.run ops) := by
  induction ops generalizing s with
  | nil => exact sound
  | cons op ops ih =>
    simp only [State.carefulRun, Bool.and_eq_true] at careful
    exact ih (sound.step careful.1) careful.2

/-! Aborted jobs -/

@[simp] theorem State.fail_job : (s.fail row).job = s.job := rfl

@[simp] theorem State.setRetry_job {call : ℕ} {retry : Option Retry} :
    (s.setRetry call retry).job = s.job := rfl

@[simp] theorem State.setItem_job {node : ℕ} {next : ItemStatus} :
    (s.setItem node next).job = s.job := rfl

theorem State.write_status {f : Row → Row} (keeps : (f s.job).status = s.job.status) :
    (s.write f).job.status = s.job.status := by
  unfold State.write
  split
  · rfl
  · exact keeps

theorem Sound.aborted_advance (sound : Sound s) (done : s.job.status = .aborted)
    (careful : s.careful (.pass outcome) = true) : (s.advance outcome).job.status = .aborted := by
  have fits := sound.fits
  simp only [State.careful, Bool.or_eq_true, decide_eq_true_eq] at careful
  unfold State.advance
  split <;> rename_i at' <;> rw [at'] at fits careful
  · split <;> exact done
  · repeat' split
    all_goals exact done
  · split <;> exact done
  · -- backedUp
    split
    · exact done
    · rename_i fine
      exact absurd done (of_decide_eq_true (careful.resolve_left fine))
  · split <;> exact done
  · -- items, at the end
    split
    · exact done
    split
    · exact done
    · rename_i fine some
      have status := careful.resolve_left fine
      simp only [Bool.eq_false_iff.mpr some, Bool.false_or, decide_eq_true_eq] at status
      exact absurd done status
  · repeat' split
    all_goals exact done
  · split <;> exact done
  · split <;> exact done
  · split <;> exact done
  · -- wipe
    split
    · exact done
    · exact absurd done (sound.unaborted (by simp [show s.job.phase = .localState from fits]))
  · split <;> exact done
  · -- cleared
    split
    · exact done
    · exact absurd done (sound.unaborted (by simp [show s.job.phase = .localFiles from fits]))
  · split <;> exact done
  · -- prepared
    split
    · exact done
    · rename_i fine
      exact absurd done (of_decide_eq_true (careful.resolve_left fine))
  · -- wipeAll
    split
    · exact done
    · have stopped := sound.stopped (sound.aborted done)
      exact absurd (fits.2.symm.trans stopped.1) (by decide)
  · dsimp only
    split <;> exact done
  · split <;> exact done
  · -- finish
    split
    · exact done
    · exact done
  · split <;> exact done
  · -- uncancel
    split
    · exact done
    · exact (State.write_status rfl).trans done
  · -- settle
    rename_i wasAborted
    split
    · exact done
    rename_i fine
    cases wasAborted with
    | false => exact absurd done (of_decide_eq_true (careful.resolve_left fine))
    | true =>
      simp only [State.set, State.write, if_true]
      split
      · exact done
      · rfl
  · -- block
    split
    · exact done
    · rename_i fine
      exact absurd done (of_decide_eq_true (careful.resolve_left fine))

theorem Sound.aborted_retryStep {call : ℕ} (done : s.job.status = .aborted)
    (careful : s.careful (.retryStep call outcome) = true) :
    (s.retryStep call outcome).job.status = .aborted := by
  simp only [State.careful, Bool.or_eq_true, decide_eq_true_eq] at careful
  unfold State.retryStep
  split <;> rename_i at'
  · exact done
  · split <;> exact done
  · exact done
  · split <;> exact done
  · split <;> exact done
  · split
    · exact done
    rename_i fine
    rcases careful with (failed | other) | status
    · exact absurd failed fine
    · exact absurd at' other
    · exact absurd (by simp [done]) status

theorem Sound.aborted_step {op : Op} (sound : Sound s) (done : s.job.status = .aborted)
    (careful : s.careful op = true) : (s.step op).job.status = .aborted := by
  cases op with
  | pass outcome => exact sound.aborted_advance done careful
  | crash => exact done
  | retryStep call outcome => exact Sound.aborted_retryStep done careful
  | dropRetry call => exact done
  | retry =>
    have refused : s.gone = true ∨ s.job.status ≠ .blocked ∨ s.job.phase = .uninstallLaunch :=
      .inr (.inl (by simp [done]))
    simp only [State.step, if_pos refused]
    exact done
  | abort =>
    simp only [State.step]
    split
    · exact done
    · exact done
  | acknowledge =>
    have refused : s.gone = true ∨ s.job.status ≠ .awaitingShutdown ∨ s.job.cancel = true :=
      .inr (.inl (by simp [done]))
    simp only [State.step, if_pos refused]
    exact done

theorem Sound.aborted_run {ops : List Op} (sound : Sound s) (done : s.job.status = .aborted)
    (careful : s.carefulRun ops = true) : (s.run ops).job.status = .aborted := by
  induction ops generalizing s with
  | nil => exact done
  | cons op ops ih =>
    simp only [State.carefulRun, Bool.and_eq_true] at careful
    exact ih (sound.step careful.1) (sound.aborted_step done careful.1) careful.2

/-- The job of an accepted abort is not wiped. -/
theorem Sound.spared (sound : Sound s) (accepted : s.accepted = true) : s.wiped = false := by
  by_contra wiped
  obtain ⟨_, phase, how⟩ := sound.stopped accepted
  have late := sound.late (by simpa using wiped)
  have complete : s.job.phase = .complete := by
    cases at' : s.job.phase <;> simp [at'] at phase late ⊢
  rcases how with done | ⟨remove, _⟩
  · exact absurd (done.symm.trans (sound.ended complete).1) (by decide)
  · have := sound.phases
    simp [remove, complete, Action.phases] at this

theorem State.carefulRun_append {ops more : List Op} :
    s.carefulRun (ops ++ more) = (s.carefulRun ops && (s.run ops).carefulRun more) := by
  induction ops generalizing s with
  | nil => simp [State.carefulRun, State.run]
  | cons op ops ih =>
    simp only [List.cons_append, State.carefulRun, ih, Bool.and_assoc]
    rfl

/-! The nodes of a job do not change. -/

/-- The action and the nodes of a job. -/
def State.plan (s : State) : Action × List ℕ := (s.action, s.items.map Prod.fst)

@[simp] theorem State.write_plan {f : Row → Row} : (s.write f).plan = s.plan := by
  unfold State.write
  split <;> rfl

@[simp] theorem State.setItem_plan {node : ℕ} {next : ItemStatus} :
    (s.setItem node next).plan = s.plan := by
  simp only [State.plan, State.setItem_fst]
  rfl

theorem State.advance_plan : (s.advance outcome).plan = s.plan := by
  have written (f : Row → Row) : (s.write f).plan = s.plan := State.write_plan
  have marked (node : ℕ) (next : ItemStatus) : (s.setItem node next).plan = s.plan :=
    State.setItem_plan
  unfold State.advance
  split
  all_goals repeat' split
  all_goals first
    | rfl
    | exact written _
    | exact marked _ _

theorem State.retryStep_plan {call : ℕ} : (s.retryStep call outcome).plan = s.plan := by
  have written (f : Row → Row) : (s.write f).plan = s.plan := State.write_plan
  have marked (node : ℕ) (next : ItemStatus) : (s.setItem node next).plan = s.plan :=
    State.setItem_plan
  unfold State.retryStep
  split
  · rfl
  · split <;> rfl
  · rfl
  · split <;> rfl
  · split
    · rfl
    · exact marked _ _
  · split
    · rfl
    · exact written _

theorem State.step_plan (op : Op) : (s.step op).plan = s.plan := by
  have written (f : Row → Row) : (s.write f).plan = s.plan := State.write_plan
  cases op with
  | pass outcome => exact State.advance_plan
  | crash => rfl
  | retryStep call outcome => exact State.retryStep_plan
  | dropRetry call => rfl
  | retry =>
    simp only [State.step]
    split
    · rfl
    · split <;> exact written _
  | abort =>
    simp only [State.step]
    split
    · rfl
    split
    · rfl
    split
    · rfl
    split <;> exact written _
  | acknowledge =>
    simp only [State.step]
    split
    · rfl
    · exact written _

theorem State.run_plan (ops : List Op) : (s.run ops).plan = s.plan := by
  induction ops generalizing s with
  | nil => rfl
  | cons op ops ih => exact (ih (s := s.step op)).trans (State.step_plan op)

/-- Every careful run of a cleanup job wipes the controller only after each node was removed, a
reset only after its backup and a removal only after its shutdown was acknowledged; the uninstall
is launched at most once; the job of an accepted abort is not wiped; and an aborted job stays
aborted in any careful run from there on. -/
theorem cleanup_kept (action : Action) (nodes : List ℕ) (ops more : List Op)
    (careful : (State.initial action nodes).carefulRun (ops ++ more) = true) :
    let s := (State.initial action nodes).run ops
    (s.wiped = true → (∀ node ∈ nodes, node ∈ s.cleaned) ∧ (action = .reset → s.saved = true) ∧
      (action = .remove → s.job.ack = true)) ∧
    s.launches ≤ 1 ∧
    (s.accepted = true → s.wiped = false) ∧
    (s.job.status = .aborted → (s.run more).job.status = .aborted) := by
  intro s
  rw [State.carefulRun_append, Bool.and_eq_true] at careful
  have sound : Sound s := (Sound.initial action nodes).run careful.1
  have plan : s.plan = (action, nodes) := by
    refine (State.run_plan ops).trans ?_
    simp [State.plan, State.initial, Function.comp_def]
  have same : s.action = action := congrArg Prod.fst plan
  have listed : s.items.map Prod.fst = nodes := congrArg Prod.snd plan
  refine ⟨fun wiped => ?_, ?_, sound.spared, fun done => sound.aborted_run done careful.2⟩
  · obtain ⟨all, saved, ack⟩ := sound.wiped wiped
    refine ⟨fun node has => ?_, same ▸ saved, same ▸ ack⟩
    rw [← listed] at has
    obtain ⟨item, wasListed, rfl⟩ := List.mem_map.mp has
    exact all item wasListed
  · rcases sound.launches with none | ⟨one, _⟩
    · omega
    · omega

/-- A reset of one node up to its wipe. -/
def resetOps : List Op :=
  List.replicate 8 (Op.pass .ok) ++ [Op.pass .removed] ++ List.replicate 9 (Op.pass .ok)

theorem cleanup_kept_reset :
    (let s := (State.initial .reset [1]).run resetOps
     s.wiped = true ∧ 1 ∈ s.cleaned ∧ s.saved = true) := by
  have careful : (State.initial .reset [1]).carefulRun (resetOps ++ []) = true := by decide
  have wiped : ((State.initial .reset [1]).run resetOps).wiped = true := by decide
  obtain ⟨all, saved, _⟩ := (cleanup_kept .reset [1] resetOps [] careful).1 wiped
  exact ⟨wiped, all 1 (by simp), saved rfl⟩

/-- A retry asks again for a blocked node while the worker removes it; it fails, and the job is
aborted, before the worker's pass writes the phase after the nodes. -/
def lateRetryOps : List Op :=
  List.replicate 8 (Op.pass .ok) ++ [Op.pass .blocked, .pass .ok, .pass .ok] ++
  [Op.retry, .retryStep 0 .ok] ++
  List.replicate 4 (Op.pass .ok) ++ [Op.pass .removed, .pass .ok] ++
  List.replicate 4 (Op.pass .ok) ++
  [Op.retryStep 0 .raised, .retryStep 0 .ok, .abort] ++
  List.replicate 4 (Op.pass .ok)

/-- The pass then revives the aborted job and wipes the controller. -/
theorem wiped_after_abort : ¬ ∀ (action : Action) (nodes : List ℕ) (ops more : List Op),
    let s := (State.initial action nodes).run ops
    (s.wiped = true → (∀ node ∈ nodes, node ∈ s.cleaned) ∧ (action = .reset → s.saved = true) ∧
      (action = .remove → s.job.ack = true)) ∧
    s.launches ≤ 1 ∧
    (s.accepted = true → s.wiped = false) ∧
    (s.job.status = .aborted → (s.run more).job.status = .aborted) := by
  intro kept
  obtain ⟨_, _, spared, _⟩ := kept .reset [1] lateRetryOps []
  exact absurd (spared (by decide)) (by decide)

end SystemCleanup
end NodePlane
