import NodePlane.Agent.Calls

/-! Temporary identities are used once: a profile with a lease is never ensured
again, neither renewed nor converted. -/
namespace NodePlane
open Library
namespace SingleUse

variable {p : Platform}

def Leased (j : Journal) (target : String × String) : Prop := (j.leases.lookup target).isSome

/-- An ensure of the profile runs, temporary or permanent. -/
def Ensures (target : String × String) (e : Event) : Prop :=
  ∃ origin intent, e.invocation = .profile origin intent ∧ intent.ensure = true ∧
    intent.target = target

/-- A grant of the profile runs. -/
def Grants (target : String × String) (e : Event) : Prop :=
  ∃ origin intent, e.invocation = .profile origin intent ∧ intent.leaseSeconds.isSome ∧
    intent.target = target

theorem Leased.mono {j k : Journal} {target : String × String} (leased : Leased j target)
    (grows : j.Extends k) : Leased k target := by
  obtain ⟨lease, held⟩ := Option.isSome_iff_exists.mp leased
  obtain ⟨next, kept, _⟩ := grows.leases target lease held
  rw [Leased, kept]
  rfl

/-- An ensure begins only beside no lease of its profile. -/
theorem begin_unleased {j k : Journal} {origin : Origin} {intent : Intent}
    (begun : Begin p j (.profile origin intent) k) (ensures : intent.ensure = true) :
    ¬Leased j intent.target := by
  cases begun with
  | ensure instanceId granted valid ensures new idle unleased =>
    rw [Leased, unleased]
    simp
  | delete instanceId granted valid deletes =>
    rw [deletes] at ensures
    cases ensures
  | retry instanceId granted valid deletes =>
    rw [deletes] at ensures
    cases ensures
  | expiry | decommission => simp [deleteIntent, Intent.ensure] at ensures

/-- The commit of a grant records its lease. -/
theorem begin_leased {j k : Journal} {origin : Origin} {intent : Intent}
    (begun : Begin p j (.profile origin intent) k) (lifetime : intent.leaseSeconds.isSome) :
    Leased k intent.target := by
  cases begun with
  | ensure instanceId granted valid ensures new idle unleased =>
    obtain ⟨seconds, timed⟩ := Option.isSome_iff_exists.mp lifetime
    simp only [Leased, Profile.start, timed]
    rw [Table.lookup_put_self]
    rfl
  | delete instanceId granted valid deletes =>
    rw [Intent.validate_lease valid lifetime] at deletes
    cases deletes
  | retry instanceId granted valid deletes =>
    rw [Intent.validate_lease valid lifetime] at deletes
    cases deletes
  | expiry | decommission => cases lifetime

/-- What the runs so far leave: their leases, and no ensure after one. -/
structure Kept (past : List Event) (n : Node) : Prop where
  granted : ∀ e ∈ past, ∀ target, Grants target e → Leased e.journal target
  leased : ∀ e ∈ past, ∀ target, Leased e.journal target → Leased n.journal target
  once : past.Pairwise fun e f => ∀ target, Leased e.journal target → ¬Ensures target f

theorem Kept.mono {past : List Event} {n m : Node} (kept : Kept past n)
    (grows : n.journal.Extends m.journal) : Kept past m :=
  ⟨kept.granted, fun e ran target held => (kept.leased e ran target held).mono grows, kept.once⟩

theorem Kept.add {past : List Event} {n : Node} (kept : Kept past n) {e : Event}
    (granted : ∀ target, Grants target e → Leased e.journal target)
    (leased : ∀ target, Leased e.journal target → Leased n.journal target)
    (unleased : ∀ target, Ensures target e → ∀ f ∈ past, ¬Leased f.journal target) :
    Kept (past ++ [e]) n where
  granted f ran := by
    rcases List.mem_append.mp ran with old | new
    · exact kept.granted f old
    · exact List.mem_singleton.mp new ▸ granted
  leased f ran := by
    rcases List.mem_append.mp ran with old | new
    · exact kept.leased f old
    · exact List.mem_singleton.mp new ▸ leased
  once := by
    refine List.pairwise_append.mpr ⟨kept.once, List.pairwise_singleton _ _, ?_⟩
    intro f old g new target held ensures
    rw [List.mem_singleton.mp new] at ensures
    exact unleased target ensures f old held

theorem kept_step {past : List Event} {n m : Node} {events : List Event} (kept : Kept past n)
    (step : Transition p n events m) : Kept (past ++ events) m := by
  cases step with
  | tickets | mark =>
    rw [List.append_nil]
    exact ⟨kept.granted, kept.leased, kept.once⟩
  | quiet enabled file change => simpa using kept.mono change.toExtends
  | start enabled file begun => simpa using kept.mono begun.grows
  | script enabled name args =>
    refine kept.add ?_ (fun _ held => held) ?_
    · rintro target ⟨origin, intent, same, _⟩
      cases same
    · rintro target ⟨origin, intent, same, _⟩
      cases same
  | invoke enabled file begun =>
    refine (kept.mono begun.grows).add ?_ (fun _ held => held) ?_
    · rintro target ⟨origin, intent, same, lifetime, rfl⟩
      cases same
      exact begin_leased begun lifetime
    · rintro target ⟨origin, intent, same, ensures, rfl⟩ f ran held
      cases same
      exact begin_unleased begun ensures (kept.leased f ran _ held)

theorem kept_steps {past : List Event} {n m : Node} {events : List Event} (kept : Kept past n)
    (steps : Steps (Transition p) n events m) : Kept (past ++ events) m :=
  steps.history (fun kept step => kept_step kept step) kept

/-- From a state with a lease of the profile, no run ensures it. -/
theorem never_ensured {n m : Node} {events : List Event} {target : String × String}
    (steps : Steps (Transition p) n events m) (leased : Leased n.journal target) :
    ∀ e ∈ events, ¬Ensures target e := by
  -- The state itself stands as an event before the run.
  let held : Event := ⟨.script "" [], n.journal⟩
  have start : Kept [held] n := by
    refine ⟨?_, ?_, List.pairwise_singleton _ _⟩
    · rintro e ran target ⟨origin, intent, same, _⟩
      rw [List.mem_singleton.mp ran] at same
      cases same
    · intro e ran target here
      rw [List.mem_singleton.mp ran] at here
      exact here
  have kept := (kept_steps start steps).once
  rw [List.singleton_append, List.pairwise_cons] at kept
  exact fun e ran => kept.1 e ran target leased

/-- No ensure of a profile runs after its first grant, nor once its lease is recorded. -/
theorem identities_single_use (p : Platform) (before later : List Call) :
    ((Agent.history p before).Pairwise fun e f => ∀ target, Grants target e →
      ¬Ensures target f) ∧
    ∀ target, Leased (Agent.after p before).journal target →
      ∀ e ∈ (run (Agent.exec p) (Agent.after p before) later).2, ¬Ensures target e := by
  refine ⟨?_, ?_⟩
  · have start : Kept [] Node.fresh := ⟨by simp, by simp, List.Pairwise.nil⟩
    have kept := kept_steps start (Agent.after_steps p before)
    rw [List.nil_append] at kept
    refine kept.once.imp_of_mem ?_
    intro e f ran _ apart target grants
    exact apart target (kept.granted e ran target grants)
  · intro target leased
    exact never_ensured (run_steps (Agent.exec_steps p) (Agent.after p before) later) leased

end SingleUse
end NodePlane
