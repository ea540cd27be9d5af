import Mathlib.Data.List.Induction
import NodePlane.Agent.AtMostOnce
import NodePlane.Agent.SingleUse

/-! The answer to a temporary grant after its profile was deleted: the lease row is
what a lookup reads, and a decommission deletes without it. -/
namespace NodePlane
open Library
namespace StoredGrants

variable {p : Platform}

/-- No lease becomes active. -/
def Cools (j k : Journal) : Prop :=
  ∀ target lease, k.leases.lookup target = some lease → lease.status = .active →
    ∃ old, j.leases.lookup target = some old ∧ old.status = .active

theorem Cools.of_leases {j k : Journal} (same : k.leases = j.leases) : Cools j k := by
  intro target lease held active
  exact ⟨lease, same ▸ held, active⟩

theorem Cools.trans {j k l : Journal} (first : Cools j k) (second : Cools k l) : Cools j l := by
  intro target lease held active
  obtain ⟨middle, kept, still⟩ := second target lease held active
  exact first target middle kept still

/-- A lease that is marked, and not active. -/
theorem Cools.alter {j k : Journal} {target : String × String} {f : Lease → Lease}
    (same : k.leases = j.leases.alter target f) (cold : ∀ lease, (f lease).status ≠ .active) :
    Cools j k := by
  intro other lease held active
  rw [same, Table.lookup_alter] at held
  split_ifs at held with here
  · obtain ⟨old, _, rfl⟩ := Option.map_eq_some_iff.mp held
    exact absurd active (cold old)
  · exact ⟨lease, held, active⟩

/-- No lease of `target` is active. -/
def Cold (j : Journal) (target : String × String) : Prop :=
  ∀ lease, j.leases.lookup target = some lease → lease.status ≠ .active

theorem Cold.cools {j k : Journal} {target : String × String} (cold : Cold j target)
    (cools : Cools j k) : Cold k target := by
  intro lease held active
  obtain ⟨old, before, warm⟩ := cools target lease held active
  exact cold old before warm

theorem revoke_cools (j : Journal) (target : String × String) :
    Cools j (Profile.revoke j target) := by
  unfold Profile.revoke
  split
  · exact Cools.of_leases rfl
  · exact Cools.alter rfl (by simp)

/-- A revocation leaves no active lease of the profile. -/
theorem revoke_cold (j : Journal) (target : String × String) : Cold (Profile.revoke j target) target := by
  intro lease held
  unfold Profile.revoke at held
  split at held
  · next absent =>
    rw [absent] at held
    cases held
  · have marked : (j.markLease target .revoked).leases.lookup target = some lease := held
    rw [Journal.markLease, Table.lookup_alter, if_pos rfl] at marked
    obtain ⟨old, _, rfl⟩ := Option.map_eq_some_iff.mp marked
    simp

/-- Apart from its own profile, which no fence knows yet, a grant leaves the leases. -/
theorem start_cools {intent : Intent} {instanceId : String} {granted : Int}
    {retryDelete leased : Bool} {j : Journal} {target : String × String} {lease : Lease}
    (other : intent.leaseSeconds.isSome → target ≠ intent.target)
    (held : (Profile.start p intent instanceId granted retryDelete leased j).leases.lookup target =
      some lease) (active : lease.status = .active) :
    ∃ old, j.leases.lookup target = some old ∧ old.status = .active := by
  unfold Profile.start at held
  cases lifetime : intent.leaseSeconds with
  | some seconds =>
    simp only [lifetime] at held
    rw [Table.lookup_put_ne _ (other (by rw [lifetime]; rfl))] at held
    exact ⟨lease, held, active⟩
  | none =>
    simp only [lifetime] at held
    split_ifs at held
    · exact Cools.alter (k := { j with leases := _ }) rfl (by simp) target lease held active
    · exact ⟨lease, held, active⟩

/-- What closing an intent does to the leases of another profile, or of its own unless
it is a grant. -/
theorem close_cools {intent : Intent} {leased : Bool} {finished : Int} {j k : Journal}
    {result r : Response} (closed : Profile.close p intent leased finished j result = .ok (k, r))
    {target : String × String} {lease : Lease}
    (other : intent.leaseSeconds.isSome → target ≠ intent.target)
    (held : k.leases.lookup target = some lease) (active : lease.status = .active) :
    ∃ old, j.leases.lookup target = some old ∧ old.status = .active := by
  unfold Profile.close at closed
  cases lifetime : intent.leaseSeconds with
  | some seconds =>
    simp only [lifetime] at closed
    cases dated : Profile.leasePayload p intent (finished + Profile.micros seconds) result with
    | error err => simp [dated] at closed
    | ok response =>
      simp only [dated, Except.ok.injEq, Prod.mk.injEq] at closed
      obtain ⟨rfl, rfl⟩ := closed
      have elsewhere := other (by rw [lifetime]; rfl)
      have before : (j.leases.alter intent.target fun lease =>
          { lease with status := .active, expiresAt := finished + Profile.micros seconds }).lookup
            target = some lease := held
      rw [Table.lookup_alter_ne _ elsewhere] at before
      exact ⟨lease, before, active⟩
  | none =>
    simp only [lifetime, Except.ok.injEq, Prod.mk.injEq] at closed
    obtain ⟨rfl, rfl⟩ := closed
    have kept : (if (!intent.ensure && leased) = true then Profile.revoke j intent.target
        else j).leases.lookup target = some lease := held
    split_ifs at kept
    · exact revoke_cools j intent.target target lease kept active
    · exact ⟨lease, kept, active⟩

/-- A delete closed while its profile is leased leaves the lease cold. -/
theorem close_cold {intent : Intent} {leased : Bool} {finished : Int} {j k : Journal}
    {result r : Response} (closed : Profile.close p intent leased finished j result = .ok (k, r))
    (permanent : intent.leaseSeconds = none) (deletes : intent.ensure = false)
    (known : leased = false → j.leases.lookup intent.target = none) : Cold k intent.target := by
  unfold Profile.close at closed
  simp only [permanent, deletes, Bool.not_false, Bool.true_and, Except.ok.injEq,
    Prod.mk.injEq] at closed
  obtain ⟨rfl, rfl⟩ := closed
  intro lease held
  have kept : (if leased = true then Profile.revoke j intent.target else j).leases.lookup
      intent.target = some lease := held
  split_ifs at kept with marked
  · exact revoke_cold j intent.target lease kept
  · rw [known (by simpa using marked)] at kept
    cases kept

theorem admission_leased {intent : Intent} {now : Int} {retry leased : Bool} {j : Journal}
    (deletes : intent.ensure = false)
    (admitted : Profile.admission p intent now j = .ok (.start retry leased)) :
    leased = (j.leases.lookup intent.target).isSome := by
  have checked : ∀ {retryDelete : Bool} {known : Option Lease},
      Profile.startAdmission intent now retryDelete known j = .ok (.start retry leased) →
      leased = (j.leases.lookup intent.target).isSome := by
    intro retryDelete known started
    unfold Profile.startAdmission at started
    have current : Profile.leaseCurrent j intent now = .ok (j.leases.lookup intent.target) := by
      unfold Profile.leaseCurrent
      cases j.leases.lookup intent.target <;> simp [deletes]
    simp only [current, deletes, Bool.and_false, Bool.false_eq_true, if_false] at started
    have only : ∀ {known : Bool}, (Except.ok (Profile.Admission.start known
        (j.leases.lookup intent.target).isSome) : Except String Profile.Admission) =
          .ok (.start retry leased) → leased = (j.leases.lookup intent.target).isSome := by
      intro known same
      cases same
      rfl
    cases fenced : j.fences.lookup intent.target with
    | none =>
      simp only [fenced] at started
      split_ifs at started
      all_goals exact only started
    | some fence =>
      simp only [fenced] at started
      split_ifs at started
      all_goals exact only started
  unfold Profile.admission at admitted
  dsimp only at admitted
  split at admitted
  · exact checked admitted
  · next row _ =>
    split_ifs at admitted
    · split at admitted
      · cases admitted
      · cases parsed : Response.parse row.response <;> simp [parsed, Except.map] at admitted
    · exact checked admitted
    · exact checked admitted

section Apply
variable {intent : Intent} {instanceId : String} {clock : Profile.Clock}
  {runner : Intent → Outcome Response} {n : Node}

/-- An applied intent answers without a runner, or is an attempt after its commit. -/
theorem apply_cases (intent : Intent) (instanceId : String) (clock : Profile.Clock)
    (runner : Intent → Outcome Response) (n : Node) :
    let ran := Profile.apply p intent instanceId clock runner n
    let opened := n.journal.commandsSchema.fencesSchema.leasesSchema
    (ran.node.journal.leases = n.journal.leases ∧ ran.events = []) ∨
      ∃ retry leased, intent.validate = .ok () ∧
        Profile.admission p intent clock.now opened = .ok (.start retry leased) ∧
        ran = attempt
          { n with
            journal := Profile.start p intent instanceId clock.granted retry leased opened }
          (.profile (if retry then .retry else .command) intent) (runner intent) id
          (Profile.close p intent leased clock.finished
            (Profile.start p intent instanceId clock.granted retry leased opened)) := by
  intro ran opened
  dsimp only [ran, opened]
  unfold Profile.apply
  cases valid : intent.validate with
  | error err => exact .inl ⟨rfl, rfl⟩
  | ok =>
    dsimp only
    split
    · exact .inl ⟨rfl, rfl⟩
    · cases admitted : Profile.admission p intent clock.now
          n.journal.commandsSchema.fencesSchema.leasesSchema with
      | error err => exact .inl ⟨rfl, rfl⟩
      | ok verdict =>
        cases verdict with
        | replay response => exact .inl ⟨rfl, rfl⟩
        | start retry leased => exact .inr ⟨retry, leased, rfl, rfl, rfl⟩

/-- A grant is admitted for a profile without a fence only. -/
theorem admission_unused {now : Int} {retry leased : Bool} {j : Journal}
    (valid : intent.validate = .ok ())
    (admitted : Profile.admission p intent now j = .ok (.start retry leased))
    (lifetime : intent.leaseSeconds.isSome) : j.fences.lookup intent.target = none := by
  have begun := Profile.admission_begin "" 0 valid admitted
  generalize Profile.start p intent "" 0 retry leased j = k at begun
  have ensures := Intent.validate_lease valid lifetime
  cases retry with
  | true =>
    cases begun with
    | retry instanceId granted valid deletes =>
      rw [ensures] at deletes
      cases deletes
  | false =>
    cases begun with
    | ensure instanceId granted valid ensures new idle unleased unused => exact unused lifetime
    | delete instanceId granted valid deletes =>
      rw [ensures] at deletes
      cases deletes

/-- Where the profile is fenced, an applied intent makes no lease active. -/
theorem apply_warm {target : String × String} {lease : Lease}
    (fenced : (n.journal.fences.lookup target).isSome)
    (held : (Profile.apply p intent instanceId clock runner n).node.journal.leases.lookup target =
      some lease) (active : lease.status = .active) :
    ∃ old, n.journal.leases.lookup target = some old ∧ old.status = .active := by
  rcases apply_cases (p := p) intent instanceId clock runner n with
    ⟨same, _⟩ | ⟨retry, leased, valid, admitted, ran⟩
  · rw [same] at held
    exact ⟨lease, held, active⟩
  · rw [ran] at held
    have other : intent.leaseSeconds.isSome → target ≠ intent.target := by
      rintro lifetime rfl
      have unfenced : n.journal.fences.lookup intent.target = none :=
        admission_unused valid admitted lifetime
      rw [unfenced] at fenced
      cases fenced
    let opened := n.journal.commandsSchema.fencesSchema.leasesSchema
    have started : ∀ lease, (Profile.start p intent instanceId clock.granted retry leased
        opened).leases.lookup target = some lease → lease.status = .active →
        ∃ old, opened.leases.lookup target = some old ∧ old.status = .active :=
      fun lease held active => start_cools other held active
    rcases attempt_cases _ _ (runner intent) id (Profile.close p intent leased clock.finished
        (Profile.start p intent instanceId clock.granted retry leased
          n.journal.commandsSchema.fencesSchema.leasesSchema)) with
      ⟨node, _⟩ | ⟨node, _⟩ | ⟨result, journal, a, closed, node, _⟩
    · rw [node] at held
      exact started lease held active
    · rw [node] at held
      exact started lease held active
    · rw [node] at held
      obtain ⟨middle, kept, warm⟩ := close_cools closed other held active
      exact started middle kept warm

/-- A delete that its runner confirmed leaves the profile's lease cold. -/
theorem apply_confirms {e : Event} {origin : Origin} {d : Intent} {r : Response}
    (ran : e ∈ (Profile.apply p intent instanceId clock runner n).events)
    (invoked : e.invocation = .profile origin d) (deletes : d.ensure = false)
    (confirmed : runner d = .done r) :
    Cold (Profile.apply p intent instanceId clock runner n).node.journal d.target := by
  rcases apply_cases (p := p) intent instanceId clock runner n with
    ⟨_, none⟩ | ⟨retry, leased, valid, admitted, same⟩
  · rw [none] at ran
    cases ran
  · rw [same] at ran ⊢
    rw [attempt_events ran] at invoked
    cases invoked
    have permanent : intent.leaseSeconds = none := by
      by_contra lifetime
      rw [Intent.validate_lease valid (Option.isSome_iff_ne_none.mpr lifetime)] at deletes
      cases deletes
    have known := admission_leased deletes admitted
    have closed : ∃ k s, Profile.close p intent leased clock.finished
        (Profile.start p intent instanceId clock.granted retry leased
          n.journal.commandsSchema.fencesSchema.leasesSchema) r = .ok (k, s) := by
      unfold Profile.close
      simp [permanent]
    obtain ⟨k, s, closed⟩ := closed
    rw [confirmed]
    simp only [attempt, closed]
    refine close_cold closed permanent deletes ?_
    intro unleased
    rw [unleased] at known
    have absent := Option.not_isSome_iff_eq_none.mp (by rw [← known]; simp)
    simpa [Profile.start, permanent, unleased] using absent

end Apply

/-! The expiry pass. -/

theorem expired_leases (instanceId : String) (intent : Intent) (lease : Lease) (fence : Fence)
    (response : Response) (j : Journal) :
    (Expiry.close p instanceId intent lease fence response j).leases =
      j.leases.alter intent.target fun lease => { lease with status := .expired } := by
  unfold Expiry.close
  cases j.commands.lookup intent.commandId <;> dsimp only <;> split_ifs <;> rfl

/-- One overdue lease: no lease becomes active, and a confirmed delete leaves it cold. -/
theorem expireLease_cools (instanceId : String) (runner : Intent → Outcome Response)
    (target : String × String) (lease : Lease) (n : Node) :
    let ran := Expiry.expireLease p instanceId runner target lease n
    Cools n.journal ran.node.journal ∧ ∀ e ∈ ran.events, ∀ origin d r,
      e.invocation = .profile origin d → runner d = .done r → Cold ran.node.journal d.target := by
  have marked : Cools n.journal (n.journal.markLease target .revoking) :=
    Cools.alter rfl (by simp)
  unfold Expiry.expireLease
  dsimp only
  split
  · exact ⟨marked, by simp⟩
  split
  · exact ⟨marked, by simp⟩
  next fence _ _ valid =>
    generalize asked : deleteIntent (Expiry.expiryId p lease) target fence.revision = intent
    have named : intent.target = target := by rw [← asked, deleteIntent_target]
    have closing (response : Response) : Cools (n.journal.markLease target .revoking)
        (Expiry.close p instanceId intent lease fence response
          (n.journal.markLease target .revoking)) :=
      Cools.alter (expired_leases ..) (by simp)
    refine ⟨?_, ?_⟩
    · obtain ⟨node, _⟩ | ⟨node, _⟩ | ⟨response, journal, a, closed, node, _⟩ := attempt_cases
        { n with journal := n.journal.markLease target .revoking } (.profile .expiry intent)
        (runner intent) (fun _ => ()) fun response => .ok (Expiry.close p instanceId intent lease
          fence response (n.journal.markLease target .revoking), ())
      · rw [node]
        exact marked
      · rw [node]
        exact marked
      · cases closed
        rw [node]
        exact marked.trans (closing response)
    · intro e ran origin d r invoked confirmed
      rw [attempt_events ran] at invoked
      cases invoked
      rw [confirmed]
      intro held row active
      simp only [attempt, expired_leases, Table.lookup_alter, if_pos] at row
      obtain ⟨old, _, rfl⟩ := Option.map_eq_some_iff.mp row
      cases active

theorem scan_cools (instanceId : String) (now : Int) (runner : Intent → Outcome Response)
    (rows : List Expiry.Row) (found : Expiry.Scan) (n : Node) :
    let ran := Expiry.scan p instanceId now runner rows found n
    Cools n.journal ran.node.journal ∧ ∀ e ∈ ran.events, ∀ origin d r,
      e.invocation = .profile origin d → runner d = .done r → Cold ran.node.journal d.target := by
  induction rows generalizing found n with
  | nil => exact ⟨Cools.of_leases rfl, by simp [Expiry.scan]⟩
  | cons row rest ih =>
    obtain ⟨target, lease⟩ := row
    have one := expireLease_cools (p := p) instanceId runner target lease n
    unfold Expiry.scan
    split
    · exact ih found n
    · dsimp only at one ⊢
      split
      · exact one
      · exact one
      · obtain ⟨cools, confirmed⟩ := ih _ _
        refine ⟨one.1.trans cools, ?_⟩
        intro e ran origin d r invoked done
        rcases List.mem_append.mp ran with now | later
        · exact (one.2 e now origin d r invoked done).cools cools
        · exact confirmed e later origin d r invoked done

theorem expire_cools (instanceId : String) (now : Int) (runner : Intent → Outcome Response)
    (n : Node) :
    let ran := Expiry.expire p instanceId now runner n
    Cools n.journal ran.node.journal ∧ ∀ e ∈ ran.events, ∀ origin d r,
      e.invocation = .profile origin d → runner d = .done r → Cold ran.node.journal d.target := by
  unfold Expiry.expire
  split
  · exact ⟨Cools.of_leases rfl, by simp⟩
  · exact scan_cools instanceId now runner _ _ n

/-! A decommission: it deletes profiles, and no lease knows. -/

/-- The profiles a decommission has to delete, in its order. -/
def owed (j : Journal) : List Decommission.Row :=
  (Decommission.fenced j).filter fun row => !Decommission.deleted j row.2

/-- Its delete of one of them. -/
def removal (command : String) (row : Decommission.Row) : Intent :=
  deleteIntent (command ++ ":" ++ row.1.1 ++ ":" ++ row.1.2) row.1 row.2.revision

/-- What it checks of every profile before its first delete. -/
def Deletable (command : String) (j : Journal) : Prop :=
  ∀ row ∈ owed j, Decommission.succeeded j row.2.commandId = true ∧
    (removal command row).validate = .ok ()

/-- The runner reported success. -/
def confirms {ρ : Type} : Outcome ρ → Bool
  | .done _ => true
  | .stoppedBefore | .stopped | .failed _ => false

/-- A delete the decommission gets confirmed once it comes to it. -/
def removes (command : String) (runner : Intent → Outcome Response) (j : Journal)
    (row : Decommission.Row) : Bool :=
  confirms (runner (removal command row)) &&
    (j.commands.lookup (removal command row).commandId).isNone

theorem plan_rows {j : Journal} {command : String} {rows : List Decommission.Row}
    {intents : List Intent} (planned : Decommission.plan j command rows = .ok intents) :
    let left := rows.filter fun row => !Decommission.deleted j row.2
    intents = left.map (removal command) ∧ ∀ row ∈ left,
      Decommission.succeeded j row.2.commandId = true ∧ (removal command row).validate = .ok () := by
  induction rows generalizing intents with
  | nil =>
    cases planned
    simp
  | cons row rest ih =>
    obtain ⟨target, fence⟩ := row
    unfold Decommission.plan at planned
    dsimp only at planned
    split at planned
    · next gone =>
      simpa [gone] using ih planned
    split at planned
    · cases planned
    · next left confirmed =>
      split at planned
      · cases planned
      · next valid =>
        cases tail : Decommission.plan j command rest with
        | error err => simp [tail, Except.map] at planned
        | ok later =>
          obtain ⟨same, checked⟩ := ih tail
          simp only [tail, Except.map, Except.ok.injEq] at planned
          subst planned
          have left' : Decommission.deleted j fence = false := by simpa using left
          dsimp only
          rw [List.filter_cons_of_pos (by simp [left'])]
          refine ⟨by rw [same, List.map_cons]; rfl, ?_⟩
          intro row member
          rcases List.mem_cons.mp member with rfl | member
          · exact ⟨by simpa using confirmed, valid⟩
          · exact checked row member

theorem mem_takeWhile_mono {α : Type} {f g : α → Bool} (weaker : ∀ a, f a = true → g a = true)
    {l : List α} {a : α} (member : a ∈ l.takeWhile f) : a ∈ l.takeWhile g := by
  induction l with
  | nil => cases member
  | cons b rest ih =>
    rw [List.takeWhile_cons] at member
    split_ifs at member with passes
    · rw [List.takeWhile_cons, if_pos (weaker b passes)]
      rcases List.mem_cons.mp member with rfl | later
      · exact List.mem_cons_self ..
      · exact List.mem_cons_of_mem _ (ih later)
    · cases member

theorem revokeOne_leases (instanceId : String) (runner : Intent → Outcome Response)
    (intent : Intent) (n : Node) :
    (Decommission.revokeOne p instanceId runner intent n).node.journal.leases =
      n.journal.leases := by
  unfold Decommission.revokeOne
  split
  · rfl
  · obtain ⟨node, _⟩ | ⟨node, _⟩ | ⟨response, journal, a, closed, node, _⟩ := attempt_cases
      { n with journal := Decommission.start p instanceId intent n.journal }
      (.profile .decommission intent) (runner intent) id fun response =>
        .ok ((Decommission.start p instanceId intent n.journal).closeCommand intent.commandId
          .succeeded response.toJson, ())
    · rw [node]
      rfl
    · rw [node]
      rfl
    · cases closed
      rw [node]
      rfl

/-- What a delete that ran left, and what a step past it needed. -/
theorem revokeOne_ran (instanceId : String) (runner : Intent → Outcome Response)
    (intent : Intent) (n : Node) :
    let ran := Decommission.revokeOne p instanceId runner intent n
    (∀ e ∈ ran.events, e.invocation = .profile .decommission intent ∧
      (n.journal.commands.lookup intent.commandId).isNone) ∧
    (ran.answer = some (.ok ()) → confirms (runner intent) ∧
      (n.journal.commands.lookup intent.commandId).isNone ∧
      ∀ id, (ran.node.journal.commands.lookup id).isNone → (n.journal.commands.lookup id).isNone) := by
  unfold Decommission.revokeOne
  split
  · refine ⟨by simp, ?_⟩
    intro answered
    cases answered
  · next new =>
    have absent : (n.journal.commands.lookup intent.commandId).isNone := by simpa using new
    refine ⟨?_, ?_⟩
    · intro e ran
      rw [attempt_events ran]
      exact ⟨rfl, absent⟩
    · intro answered
      obtain ⟨result, journal, closed, node⟩ := attempt_ok answered
      cases closed
      refine ⟨?_, absent, ?_⟩
      · revert answered
        cases runner intent <;> simp [attempt, confirms]
      · intro id later
        rw [node] at later
        by_cases same : id = intent.commandId
        · rw [same]
          exact absent
        · have kept : (((n.journal.commands.put intent.commandId
              ⟨intent.fingerprint p, .running, none, instanceId⟩).alter intent.commandId
              fun row => { row with status := .succeeded, response := some result.toJson }).lookup
              id).isNone := later
          rwa [Table.lookup_alter_ne _ same, Table.lookup_put_ne _ same] at kept

/-- The deletes that ran and were confirmed came before the first that was not. -/
theorem revokeAll_removes (instanceId command : String) (runner : Intent → Outcome Response)
    (rows : List Decommission.Row) (n : Node) :
    let ran := Decommission.revokeAll p instanceId runner (rows.map (removal command)) n
    ran.node.journal.leases = n.journal.leases ∧ ∀ e ∈ ran.events, ∀ origin d,
      e.invocation = .profile origin d → confirms (runner d) →
        ∃ row ∈ rows.takeWhile (removes command runner n.journal), d = removal command row := by
  induction rows generalizing n with
  | nil => exact ⟨rfl, by simp [Decommission.revokeAll]⟩
  | cons row rest ih =>
    have one := revokeOne_leases (p := p) instanceId runner (removal command row) n
    obtain ⟨events, passed⟩ := revokeOne_ran (p := p) instanceId runner
      (removal command row) n
    have first : ∀ e ∈ (Decommission.revokeOne p instanceId runner (removal command row) n).events,
        ∀ origin d, e.invocation = .profile origin d → confirms (runner d) →
          ∃ r ∈ (row :: rest).takeWhile (removes command runner n.journal),
            d = removal command r := by
      intro e ran origin d invoked confirmed
      obtain ⟨same, absent⟩ := events e ran
      rw [same] at invoked
      cases invoked
      refine ⟨row, ?_, rfl⟩
      rw [List.takeWhile_cons, if_pos (by simp [removes, confirmed, absent])]
      exact List.mem_cons_self ..
    rw [List.map_cons]
    unfold Decommission.revokeAll
    dsimp only
    split
    · next answered =>
      obtain ⟨confirmed, absent, older⟩ := passed answered
      obtain ⟨leases, later⟩ := ih (Decommission.revokeOne p instanceId runner
        (removal command row) n).node
      refine ⟨leases.trans one, ?_⟩
      intro e ran origin d invoked done
      rcases List.mem_append.mp ran with now | after
      · exact first e now origin d invoked done
      · obtain ⟨r, member, same⟩ := later e after origin d invoked done
        refine ⟨r, ?_, same⟩
        rw [List.takeWhile_cons, if_pos (by simp [removes, confirmed, absent])]
        refine List.mem_cons_of_mem _ (mem_takeWhile_mono ?_ member)
        intro a passes
        simp only [removes, Bool.and_eq_true] at passes ⊢
        exact ⟨passes.1, older _ passes.2⟩
    · exact ⟨one, first⟩

theorem revokeProfiles_removes (instanceId command : String)
    (runner : Intent → Outcome Response) (n : Node) :
    let ran := Decommission.revokeProfiles p command instanceId runner n
    ran.node.journal.leases = n.journal.leases ∧ ∀ e ∈ ran.events, ∀ origin d,
      e.invocation = .profile origin d → confirms (runner d) →
        n.journal.unfinished [] = false ∧ Deletable command n.journal ∧
          ∃ row ∈ (owed n.journal).takeWhile (removes command runner n.journal),
            d = removal command row := by
  unfold Decommission.revokeProfiles
  dsimp only
  split
  · exact ⟨rfl, by simp⟩
  split
  · exact ⟨rfl, by simp⟩
  split
  · exact ⟨rfl, by simp⟩
  · next _ idle _ =>
    cases planned : Decommission.plan n.journal command (Decommission.fenced n.journal) with
    | error err => exact ⟨rfl, by simp⟩
    | ok intents =>
      obtain ⟨same, checked⟩ := plan_rows planned
      dsimp only
      rw [same]
      obtain ⟨leases, confirmed⟩ := revokeAll_removes (p := p) instanceId command runner
        (owed n.journal) n
      refine ⟨leases, ?_⟩
      intro e ran origin d invoked done
      exact ⟨by simpa using idle, checked, confirmed e ran origin d invoked done⟩

theorem prepare_removes (instanceId command : String)
    (runner : Option (Intent → Outcome Response)) (persisted : Bool) (n : Node) :
    let ran := Decommission.prepare p command instanceId runner persisted n
    ran.node.journal.leases = n.journal.leases ∧ ∀ e ∈ ran.events, ∃ run, runner = some run ∧
      ∀ origin d, e.invocation = .profile origin d → confirms (run d) →
        forceIdentity command = true ∧ n.disabled = false ∧ n.journal.unfinished [] = false ∧
          Deletable command n.journal ∧
          ∃ row ∈ (owed n.journal).takeWhile (removes command run n.journal),
            d = removal command row := by
  unfold Decommission.prepare
  split
  · exact ⟨rfl, by simp⟩
  split
  · exact ⟨rfl, by simp⟩
  next named enabled =>
  extract_lets revoked marked ran
  have first : revoked.node.journal.leases = n.journal.leases ∧ ∀ e ∈ revoked.events,
      ∃ run, runner = some run ∧ ∀ origin d, e.invocation = .profile origin d →
        confirms (run d) → forceIdentity command = true ∧ n.disabled = false ∧
          n.journal.unfinished [] = false ∧ Deletable command n.journal ∧
          ∃ row ∈ (owed n.journal).takeWhile (removes command run n.journal),
            d = removal command row := by
    cases runner with
    | none => exact ⟨rfl, by simp [revoked]⟩
    | some run =>
      by_cases file : n.journal.schema.file = true
      · obtain ⟨leases, confirmed⟩ := revokeProfiles_removes (p := p) instanceId command run n
        simp only [revoked, file, if_true]
        refine ⟨leases, ?_⟩
        intro e ran
        refine ⟨run, rfl, ?_⟩
        intro origin d invoked done
        exact ⟨by simpa using named, by simpa using enabled,
          confirmed e ran origin d invoked done⟩
      · simp [revoked, file]
  dsimp only [ran, marked]
  clear_value revoked
  obtain ⟨leases, confirmed⟩ := first
  split
  · exact ⟨leases, confirmed⟩
  · exact ⟨leases, confirmed⟩
  split
  · exact ⟨leases, confirmed⟩
  · unfold Decommission.mark
    dsimp only
    split
    · exact ⟨leases, confirmed⟩
    · exact ⟨leases, confirmed⟩

/-! The calls that leave the leases alone. -/

theorem attempt_leases {ρ ε α : Type} {started : Node} {invocation : Invocation}
    {outcome : Outcome ρ} {failed : String → ε} {close : ρ → Except ε (Journal × α)}
    (kept : ∀ result journal a, close result = .ok (journal, a) →
      journal.leases = started.journal.leases) :
    (attempt started invocation outcome failed close).node.journal.leases =
      started.journal.leases := by
  obtain ⟨node, _⟩ | ⟨node, _⟩ | ⟨result, journal, a, closed, node, _⟩ :=
    attempt_cases started invocation outcome failed close
  · rw [node]
  · rw [node]
  · rw [node]
    exact kept result journal a closed

theorem raiseSettingsFence_leases (j : Journal) (node : String) (fence : SettingsFence) :
    (j.raiseSettingsFence node fence).leases = j.leases := by
  unfold Journal.raiseSettingsFence
  repeat' split
  all_goals rfl

theorem resolve_leases (intent : Intent) (instanceId : String) (inspection : Except String Json)
    (now : Int) (n : Node) :
    (Profile.resolveInterrupted p intent instanceId inspection now n).node.journal.leases =
      n.journal.leases := by
  unfold Profile.resolveInterrupted
  dsimp only
  repeat' split
  all_goals rfl

theorem settings_leases (intent : Json) (instanceId : String) (outcome : Outcome Response)
    (reached : Bool) (n : Node) :
    (SettingsJournal.apply p intent instanceId outcome reached n).node.journal.leases =
      n.journal.leases := by
  unfold SettingsJournal.apply
  split
  · rfl
  split
  · rfl
  split
  · rfl
  dsimp only
  split
  · rfl
  · rfl
  · refine attempt_leases ?_
    intro result journal a closed
    unfold SettingsJournal.close at closed
    split at closed
    · cases closed
    · cases closed
      rfl

theorem settingsResolve_leases (intent : Json) (instanceId : String)
    (inspection : Except String Json) (now : Int) (n : Node) :
    (SettingsJournal.resolve p intent instanceId inspection now n).node.journal.leases =
      n.journal.leases := by
  have repaired {observation : Except String Json} {opened : Node} {commit : Json → Journal}
      (kept : ∀ record, (commit record).leases = opened.journal.leases) :
      (SettingsJournal.repair p observation now opened commit).node.journal.leases =
        opened.journal.leases := by
    unfold SettingsJournal.repair
    split
    · rfl
    split
    · rfl
    · exact kept _
  unfold SettingsJournal.resolve
  split
  · rfl
  split
  · rfl
  split
  · rfl
  dsimp only
  split
  · split
    · rfl
    split
    · rfl
    split
    · rfl
    split
    · rfl
    · exact repaired fun _ => rfl
  · split
    · rfl
    · exact repaired fun _ => raiseSettingsFence_leases _ _ _

theorem operation_leases (owner : Except String String) (instanceId requested commandId : String)
    (intent : Json) (recover : Bool) (outcome : Outcome Json) (reached : Bool) (n : Node) :
    (Operation.command p owner instanceId requested commandId intent recover outcome reached
      n).node.journal.leases = n.journal.leases := by
  unfold Operation.command
  dsimp only
  split
  · rfl
  split
  · rfl
  split
  · rfl
  split
  · rfl
  · rfl
  · unfold Operation.retire
    split
    · rfl
    · rfl
  · refine attempt_leases ?_
    intro result journal a closed
    cases closed
    rfl

theorem force_leases (s : Force.Spec) (instanceId : String) (n : Node) :
    (∀ view stopped, (Force.prepare s instanceId view stopped n).node.journal.leases =
      n.journal.leases) ∧
    ∀ free, (Force.retire s instanceId free n).node.journal.leases = n.journal.leases := by
  have raised (j : Journal) : (Force.raise s j).leases = j.leases := by
    unfold Force.raise
    split
    · exact raiseSettingsFence_leases _ _ _
    · unfold Journal.raiseFence
      repeat' split
      all_goals rfl
    · rfl
  refine ⟨?_, ?_⟩
  · intro view stopped
    unfold Force.prepare
    dsimp only
    repeat' split
    all_goals rfl
  · intro free
    unfold Force.retire
    dsimp only
    repeat' split
    all_goals first | rfl | exact raised _

theorem unused_leases (instanceId : String) (intent : Intent) (t : Temporary) (n : Node) :
    (Temporary.resolveUnused p instanceId intent t n).node.journal.leases = n.journal.leases := by
  have cancelled (opened : Node) :
      (Temporary.cancel p instanceId intent t opened).node.journal.leases =
        opened.journal.leases := by
    unfold Temporary.cancel
    dsimp only
    repeat' split
    all_goals rfl
  unfold Temporary.resolveUnused
  split
  · rfl
  split
  · rfl
  dsimp only
  split
  · split
    · rfl
    split
    · rfl
    split
    · rfl
    · exact cancelled _
  · exact cancelled _

theorem legacy_leases (script : String) (args : List String) (outcome : Outcome String) (n : Node) :
    (Legacy.run script args outcome n).node.journal.leases = n.journal.leases := by
  unfold Legacy.run
  split
  · rfl
  split
  · rfl
  · refine attempt_leases ?_
    intro result journal a closed
    cases closed
    rfl

theorem supervise_cools (protocol : String) (now : Int) (stopped : Bool) (n : Node) :
    Cools n.journal (Supervisor.supervise protocol now stopped n).node.journal := by
  have pruned : Cools n.journal (Supervisor.pruneLocked protocol now n).node.journal := by
    unfold Supervisor.pruneLocked
    split
    · exact Cools.of_leases rfl
    split
    · exact Cools.of_leases rfl
    · intro target lease held active
      have mapped : (n.journal.leases.mapRows (Supervisor.pruned protocol now)).lookup target =
          some lease := held
      rw [Table.lookup_mapRows] at mapped
      obtain ⟨old, found, rfl⟩ := Option.map_eq_some_iff.mp mapped
      refine ⟨old, found, ?_⟩
      unfold Supervisor.pruned at active
      split at active
      · cases active
      · exact active
  unfold Supervisor.supervise
  split
  · exact Cools.of_leases rfl
  split
  · exact pruned
  · exact Cools.of_leases rfl

/-! A whole run. -/

/-- What runs a call's profile mutations. -/
def runner : Call → Option (Intent → Outcome Response)
  | .applyProfile _ _ _ run => some run
  | .temporary _ _ _ _ _ _ _ t => some t.mutate
  | .expire _ _ run => some run
  | .decommission _ _ run _ => run
  | _ => none

/-- The call runs a delete of the profile, and its runner confirms it. -/
def Deletes (p : Platform) (n : Node) (call : Call) (target : String × String) : Prop :=
  ∃ e ∈ (Agent.exec p n call).2, ∃ origin d run, e.invocation = .profile origin d ∧
    d.ensure = false ∧ d.target = target ∧ runner call = some run ∧ confirms (run d) = true

/-- The profiles that a decommission gets deleted have no active lease. -/
def Sheltered (n : Node) : Call → Prop
  | .decommission command _ (some run) _ =>
    n.disabled = false → forceIdentity command = true → n.journal.unfinished [] = false →
      Deletable command n.journal →
        ∀ row ∈ (owed n.journal).takeWhile (removes command run n.journal), Cold n.journal row.1
  | _ => True

/-- Every call of the run is sheltered when it arrives. -/
def RunsSheltered (p : Platform) (calls : List Call) : Prop :=
  ∀ before call later, calls = before ++ call :: later → Sheltered (Agent.after p before) call

/-- A call of the run deleted the profile. -/
def Deleted (p : Platform) (calls : List Call) (target : String × String) : Prop :=
  ∃ before call later, calls = before ++ call :: later ∧
    Deletes p (Agent.after p before) call target

/-- A call over the node RPC leaves the node, cancels an unused grant, or applies an
intent. -/
theorem temporary_cases (view : Node) (instanceId action commandId : String) (value : Json)
    (recover : Bool) (clock : Profile.Clock) (t : Temporary) (n : Node) :
    let ran := Temporary.temporary p view instanceId action commandId value recover clock t n
    (ran.node = n ∧ ran.events = []) ∨
    (∃ intent, ran.node = (Temporary.resolveUnused p instanceId intent t n).node ∧
      ran.events = []) ∨
    ∃ intent, ran.node = (Profile.apply p intent instanceId clock t.mutate n).node ∧
      ran.events = (Profile.apply p intent instanceId clock t.mutate n).events := by
  have mutated (intent : Intent) :
      let ran := Temporary.mutation p view instanceId action intent recover clock t n
      (ran.node = n ∧ ran.events = []) ∨
      (∃ intent, ran.node = (Temporary.resolveUnused p instanceId intent t n).node ∧
        ran.events = []) ∨
      ∃ intent, ran.node = (Profile.apply p intent instanceId clock t.mutate n).node ∧
        ran.events = (Profile.apply p intent instanceId clock t.mutate n).events := by
    unfold Temporary.mutation
    split
    · exact .inl ⟨rfl, rfl⟩
    split
    · exact .inl ⟨rfl, rfl⟩
    split
    · exact .inl ⟨rfl, rfl⟩
    · exact .inr (.inr ⟨intent, rfl, rfl⟩)
  have unused (intent : Intent) :
      (Temporary.resolveUnused p instanceId intent t n).events = [] := by
    have cancelled (opened : Node) : (Temporary.cancel p instanceId intent t opened).events = [] := by
      unfold Temporary.cancel
      dsimp only
      repeat' split
      all_goals rfl
    unfold Temporary.resolveUnused
    dsimp only
    repeat' split
    all_goals first | rfl | exact cancelled _
  unfold Temporary.temporary
  dsimp only
  repeat' split
  all_goals first
    | exact .inl ⟨rfl, rfl⟩
    | exact mutated _
    | exact .inr (.inl ⟨_, rfl, unused _⟩)

/-- Where the profile is fenced, no call makes its lease active. -/
theorem exec_cold {n : Node} {target : String × String} (call : Call)
    (fenced : (n.journal.fences.lookup target).isSome) (cold : Cold n.journal target) :
    Cold (Agent.exec p n call).1.journal target := by
  have leased {k : Journal} (same : k.leases = n.journal.leases) : Cold k target :=
    cold.cools (Cools.of_leases same)
  cases call with
  | applyProfile intent instanceId clock run =>
    intro lease held active
    obtain ⟨old, before, warm⟩ := apply_warm fenced held active
    exact cold old before warm
  | resolveProfile => exact leased (resolve_leases ..)
  | applySettings => exact leased (settings_leases ..)
  | resolveSettings => exact leased (settingsResolve_leases ..)
  | operation => exact leased (operation_leases ..)
  | temporary view instanceId action commandId value recover clock t =>
    rcases temporary_cases (p := p) view instanceId action commandId value recover clock t n with
      ⟨same, _⟩ | ⟨intent, same, _⟩ | ⟨intent, node, _⟩
    · exact leased (congrArg (·.journal.leases) same)
    · exact leased ((congrArg (·.journal.leases) same).trans (unused_leases ..))
    · intro lease held active
      have applied : (Profile.apply p intent instanceId clock t.mutate n).node.journal.leases.lookup
          target = some lease := by
        rw [← node]
        exact held
      obtain ⟨old, before, warm⟩ := apply_warm fenced applied active
      exact cold old before warm
  | expire instanceId now run => exact cold.cools (expire_cools instanceId now run n).1
  | supervise protocol now stopped => exact cold.cools (supervise_cools protocol now stopped n)
  | forcePrepare spec =>
    dsimp only [Agent.exec]
    split
    · exact cold
    · exact leased ((force_leases _ _ n).1 _ _)
  | forceRetire spec =>
    dsimp only [Agent.exec]
    split
    · exact cold
    · exact leased ((force_leases _ _ n).2 _)
  | decommission => exact leased (prepare_removes _ _ _ _ n).1
  | legacy => exact leased (legacy_leases ..)
  | uninstall =>
    refine leased ?_
    show (Legacy.uninstall n).node.journal.leases = _
    unfold Legacy.uninstall
    split
    · rfl
    · rfl

/-- A confirmed delete leaves the lease of its profile cold, unless a decommission made it
under an active one. -/
theorem deletes_cold {n : Node} {call : Call} {target : String × String}
    (deletes : Deletes p n call target) (sheltered : Sheltered n call) :
    Cold (Agent.exec p n call).1.journal target := by
  obtain ⟨e, ran, origin, d, run, invoked, delete, rfl, runs, confirmed⟩ := deletes
  have done : ∃ r, run d = .done r := by
    cases answered : run d with
    | done r => exact ⟨r, rfl⟩
    | _ => simp [answered, confirms] at confirmed
  obtain ⟨r, done⟩ := done
  cases call with
  | applyProfile intent instanceId clock own =>
    cases runs
    exact apply_confirms ran invoked delete done
  | temporary view instanceId action commandId value recover clock t =>
    cases runs
    rcases temporary_cases (p := p) view instanceId action commandId value recover clock t n with
      ⟨_, none⟩ | ⟨intent, _, none⟩ | ⟨intent, node, events⟩
    · have absent : e ∈ (Temporary.temporary p view instanceId action commandId value recover
        clock t n).events := ran
      rw [none] at absent
      cases absent
    · have absent : e ∈ (Temporary.temporary p view instanceId action commandId value recover
        clock t n).events := ran
      rw [none] at absent
      cases absent
    · have applied : e ∈ (Profile.apply p intent instanceId clock t.mutate n).events := by
        rw [← events]
        exact ran
      have cold := apply_confirms applied invoked delete done
      rw [← node] at cold
      exact cold
  | expire instanceId now own =>
    cases runs
    exact (expire_cools instanceId now run n).2 e ran origin d r invoked done
  | decommission command instanceId own persisted =>
    cases runs
    obtain ⟨leases, removed⟩ := prepare_removes (p := p) instanceId command (some run)
      persisted n
    obtain ⟨same, here, deleted⟩ := removed e ran
    cases here
    obtain ⟨named, enabled, idle, deletable, row, member, rfl⟩ :=
      deleted origin d invoked confirmed
    have cold := sheltered enabled named idle deletable row member
    exact cold.cools (Cools.of_leases leases)
  | _ => cases runs

/-- A profile mutation that ran left its profile fenced. -/
theorem ran_fenced {n m : Node} {events : List Event} (steps : Steps (Transition p) n events m)
    {e : Event} {origin : Origin} {d : Intent} (ran : e ∈ events)
    (invoked : e.invocation = .profile origin d) : (m.journal.fences.lookup d.target).isSome := by
  have kept {j k : Journal} (grows : j.Extends k) (held : (j.fences.lookup d.target).isSome) :
      (k.fences.lookup d.target).isSome := by
    obtain ⟨fence, found⟩ := Option.isSome_iff_exists.mp held
    obtain ⟨next, still, _⟩ := grows.fences _ fence found
    rw [still]
    rfl
  induction steps with
  | refl => cases ran
  | head step later ih =>
    rcases List.mem_append.mp ran with now | after
    · refine kept (Agent.extends_steps later) ?_
      cases step with
      | tickets | quiet | start | mark => cases now
      | script enabled name args =>
        rw [List.mem_singleton.mp now] at invoked
        cases invoked
      | invoke enabled file begun =>
        rw [List.mem_singleton.mp now] at invoked
        cases invoked
        have put (j : Journal) (fence : Fence) :
            ((j.fences.put d.target fence).lookup d.target).isSome := by
          rw [Table.lookup_put_self]
          rfl
        cases begun with
        | ensure | delete | retry | decommission => exact put _ _
        | expiry leased marked fenced => exact Option.isSome_iff_exists.mpr ⟨_, fenced⟩
    · exact ih after

/-- Deleted profiles stay fenced, and without an active lease. -/
theorem deleted_cold {calls : List Call} (sheltered : RunsSheltered p calls)
    {target : String × String} (deleted : Deleted p calls target) :
    ((Agent.after p calls).journal.fences.lookup target).isSome ∧
      Cold (Agent.after p calls).journal target := by
  induction calls using List.reverseRecOn with
  | nil =>
    obtain ⟨before, call, later, split, _⟩ := deleted
    simp at split
  | append_singleton calls call ih =>
    have last : Agent.after p (calls ++ [call]) = (Agent.exec p (Agent.after p calls) call).1 := by
      simp [Agent.after, run_append, run]
    have steps := Agent.exec_steps p (Agent.after p calls) call
    rw [last]
    obtain ⟨before, one, later, split, deletes⟩ := deleted
    rcases List.eq_nil_or_concat later with rfl | ⟨middle, final, rfl⟩
    · -- The last call made the delete.
      obtain ⟨rfl, same⟩ := List.append_inj' split rfl
      cases same
      have cold := deletes_cold deletes (sheltered calls call [] rfl)
      obtain ⟨e, ran, origin, d, _, invoked, _, rfl, _⟩ := deletes
      exact ⟨ran_fenced steps ran invoked, cold⟩
    · have earlier : calls = before ++ one :: middle ∧ [call] = [final] := by
        refine List.append_inj' ?_ rfl
        rw [split]
        simp
      have before' : RunsSheltered p calls := by
        intro first c rest splits
        exact sheltered first c (rest ++ [call]) (by simp [splits])
      obtain ⟨fenced, cold⟩ := ih before' ⟨before, one, middle, earlier.1, deletes⟩
      refine ⟨?_, exec_cold call fenced cold⟩
      obtain ⟨fence, found⟩ := Option.isSome_iff_exists.mp fenced
      obtain ⟨next, kept, _⟩ := (Agent.extends_steps steps).fences target fence found
      rw [kept]
      rfl

/-- A grant meets a cold lease. -/
theorem current_cold {j : Journal} {intent : Intent} {now : Int}
    (valid : intent.validate = .ok ()) (lifetime : intent.leaseSeconds.isSome)
    (leased : SingleUse.Leased j intent.target) (cold : Cold j intent.target) :
    Profile.leaseCurrent j intent now = .error "temporary lease is unavailable" := by
  have ensures := Intent.validate_lease valid lifetime
  obtain ⟨lease, held⟩ := Option.isSome_iff_exists.mp leased
  unfold Profile.leaseCurrent
  simp [held, ensures, cold lease held]

theorem lookup_cold {j : Journal} {intent : Intent} (lifetime : intent.leaseSeconds.isSome)
    (leased : SingleUse.Leased j intent.target) (cold : Cold j intent.target) (now : Int)
    (r : Response) : Profile.lookup p intent now j ≠ .ok r := by
  intro answered
  unfold Profile.lookup at answered
  split at answered
  · cases answered
  next valid =>
  rw [current_cold valid lifetime leased cold] at answered
  split_ifs at answered
  split at answered
  · cases answered
  · split_ifs at answered

theorem apply_cold {n : Node} {intent : Intent} (lifetime : intent.leaseSeconds.isSome)
    (leased : SingleUse.Leased n.journal intent.target) (cold : Cold n.journal intent.target)
    (instanceId : String) (clock : Profile.Clock) (run : Intent → Outcome Response) (r : Response) :
    (Profile.apply p intent instanceId clock run n).answer ≠ some (.ok r) := by
  intro answered
  have refused {j : Journal} (same : j.leases = n.journal.leases)
      (valid : intent.validate = .ok ()) (verdict : Profile.Admission) :
      Profile.admission p intent clock.now j ≠ .ok verdict := by
    have current : Profile.leaseCurrent j intent clock.now =
        .error "temporary lease is unavailable" := by
      refine current_cold valid lifetime ?_ ?_
      · rw [SingleUse.Leased, same]
        exact leased
      · exact cold.cools (Cools.of_leases same)
    have blocked (retry : Bool) (known : Option Lease) :
        Profile.startAdmission intent clock.now retry known j ≠ .ok verdict := by
      intro started
      unfold Profile.startAdmission at started
      rw [current] at started
      dsimp only at started
      split_ifs at started
    intro admitted
    unfold Profile.admission at admitted
    rw [current] at admitted
    dsimp only at admitted
    split at admitted
    · exact blocked _ _ admitted
    split_ifs at admitted
    · exact blocked _ _ admitted
    · exact blocked _ _ admitted
  unfold Profile.apply at answered
  split at answered
  · cases answered
  next valid =>
  split at answered
  · cases answered
  dsimp only at answered
  split at answered
  · cases answered
  · next admitted => exact refused rfl valid _ admitted
  · next admitted => exact refused rfl valid _ admitted

/-- Once a delete of a granted profile is confirmed, neither a lookup nor a replay of the
grant answers success. -/
theorem stored_success_fresh (p : Platform) (calls : List Call) (sheltered : RunsSheltered p calls)
    (intent : Intent) (lifetime : intent.leaseSeconds.isSome)
    (granted : SingleUse.Leased (Agent.after p calls).journal intent.target)
    (deleted : Deleted p calls intent.target) :
    (∀ now r, Profile.lookup p intent now (Agent.after p calls).journal ≠ .ok r) ∧
      ∀ instanceId clock run r,
        (Profile.apply p intent instanceId clock run (Agent.after p calls)).answer ≠ some (.ok r) := by
  have cold := (deleted_cold sheltered deleted).2
  exact ⟨lookup_cold lifetime granted cold, apply_cold lifetime granted cold⟩

/-! A decommission that fails on its second profile. -/

def sampleCommand : String := "0123abcd-4567-89ab-cdef-0123456789ab"

def sampleOther : Intent := ⟨"ensure-2", "awg", "zoe", 1, "ensure", "", "", none⟩

/-- The host, with the digests of these runs. -/
def sampleHost : Platform :=
  let digests := [
    (canonical sampleOther.toValue,
      "ac9448312eac46652853afda0360e39c7732b8b99eec37c9cd3dea0e3045297e"),
    (canonical (deleteIntent (sampleCommand ++ ":awg:zoe") sampleOther.target 1).toValue,
      "53c3f6343e5cf117cc8451a235aa6a9fa3496ff16476c070fd1cef467085ebb4"),
    (canonical (deleteIntent (sampleCommand ++ ":awg:" ++ sampleGrant.runtimeName)
        sampleGrant.target 1).toValue,
      "ed9b4baeb3e9d5468a07a639fb5847e48d474026afbcc82051ecca1d9cd1c386")]
  { Platform.sample with
    sha256Hex := fun text => (digests.lookup text).getD (Platform.sample.sha256Hex text) }

def sampleApply (intent : Intent) : Call :=
  .applyProfile intent "agent-1" ⟨0, 0, 0⟩ fun _ => .done Response.ok

def sampleRevocation (left : String) : Call :=
  .decommission sampleCommand "agent-1"
    (some fun d => if d.runtimeName = left then .failed "interface busy" else .done Response.ok) true

/-- The profiles a call's runners were started for. -/
def mutations (p : Platform) (n : Node) (call : Call) : List (Option (Origin × Intent)) :=
  (Agent.exec p n call).2.map fun e => e.invocation.mutation

theorem deletes_of_mutations {p : Platform} {n : Node} {call : Call} {origin : Origin} {d : Intent}
    {run : Intent → Outcome Response} (ran : some (origin, d) ∈ mutations p n call)
    (delete : d.ensure = false) (runs : runner call = some run) (done : confirms (run d) = true) :
    Deletes p n call d.target := by
  obtain ⟨e, member, mutation⟩ := List.mem_map.mp ran
  refine ⟨e, member, origin, d, run, ?_, delete, rfl, runs, done⟩
  revert mutation
  cases e.invocation with
  | profile o i => simp [Invocation.mutation]
  | _ => simp [Invocation.mutation]

/-- A grant that is deleted, on a node then decommissioned. -/
def sampleRevoked : List Call :=
  [sampleApply sampleGrant, sampleApply sampleDelete, sampleRevocation ""]

private theorem sample_deletes :
    owed (Agent.after sampleHost [sampleApply sampleGrant, sampleApply sampleDelete]).journal = [] ∧
      ((Agent.after sampleHost sampleRevoked).journal.leases.lookup sampleGrant.target).isSome = true ∧
      some (Origin.command, sampleDelete) ∈ mutations sampleHost
        (Agent.after sampleHost [sampleApply sampleGrant]) (sampleApply sampleDelete) := by
  decide

/-- The deleted grant is not confirmed any more. -/
theorem stored_success_fresh_sample :
    (∀ now r, Profile.lookup sampleHost sampleGrant now
      (Agent.after sampleHost sampleRevoked).journal ≠ .ok r) ∧
    ∀ instanceId clock run r, (Profile.apply sampleHost sampleGrant instanceId clock run
      (Agent.after sampleHost sampleRevoked)).answer ≠ some (.ok r) := by
  refine stored_success_fresh sampleHost sampleRevoked ?_ sampleGrant rfl ?_ ?_
  · intro before call later split
    match before, split with
    | [], split =>
      cases split
      exact trivial
    | [first], split =>
      cases split
      exact trivial
    | [first, second], split =>
      cases split
      intro _ _ _ _ row member
      rw [sample_deletes.1] at member
      cases member
    | _ :: _ :: _ :: rest, split => simp [sampleRevoked] at split
  · exact sample_deletes.2.1
  · refine ⟨[sampleApply sampleGrant], sampleApply sampleDelete, [sampleRevocation ""], rfl, ?_⟩
    have deletes := deletes_of_mutations sample_deletes.2.2 rfl rfl rfl
    exact deletes

private theorem sample_decommission :
    some (Origin.decommission, deleteIntent
        (sampleCommand ++ ":awg:" ++ sampleGrant.runtimeName) sampleGrant.target 1) ∈
        mutations sampleHost (Agent.after sampleHost [sampleApply sampleGrant,
          sampleApply sampleOther]) (sampleRevocation "zoe") ∧
      ((Agent.after sampleHost [sampleApply sampleGrant, sampleApply sampleOther,
        sampleRevocation "zoe"]).journal.leases.lookup sampleGrant.target).isSome = true ∧
      (Profile.lookup sampleHost sampleGrant 0 (Agent.after sampleHost [sampleApply sampleGrant,
        sampleApply sampleOther, sampleRevocation "zoe"]).journal).toOption.isSome = true := by
  decide +kernel

/-- A decommission that deletes the granted profile and fails on the next one leaves the
grant's success standing. -/
theorem deleted_grant_confirmed : ¬∀ (p : Platform) (calls : List Call) (intent : Intent),
    intent.leaseSeconds.isSome → SingleUse.Leased (Agent.after p calls).journal intent.target →
      Deleted p calls intent.target →
        ∀ now r, Profile.lookup p intent now (Agent.after p calls).journal ≠ .ok r := by
  intro fresh
  let calls := [sampleApply sampleGrant, sampleApply sampleOther, sampleRevocation "zoe"]
  have deleted : Deleted sampleHost calls sampleGrant.target := by
    refine ⟨[sampleApply sampleGrant, sampleApply sampleOther], sampleRevocation "zoe", [], rfl, ?_⟩
    have deletes := deletes_of_mutations sample_decommission.1 rfl rfl rfl
    exact deletes
  have leased : SingleUse.Leased (Agent.after sampleHost calls).journal sampleGrant.target :=
    sample_decommission.2.1
  have answered : (Profile.lookup sampleHost sampleGrant 0
      (Agent.after sampleHost calls).journal).toOption.isSome = true := sample_decommission.2.2
  have stale := fresh sampleHost calls sampleGrant rfl leased deleted 0
  cases found : Profile.lookup sampleHost sampleGrant 0 (Agent.after sampleHost calls).journal with
  | error err => simp [found, Except.toOption] at answered
  | ok r => exact stale r found

end StoredGrants
end NodePlane
