import NodePlane.Agent.Refinement.Covers

/-! Profile and settings commands are runs of the agent's transitions. -/
namespace NodePlane
open Library

variable {p : Platform} {n : Node}

namespace Profile

theorem leaseCurrent_ok {j : Journal} {intent : Intent} {now : Int} {lease : Option Lease}
    (current : leaseCurrent j intent now = .ok lease) : lease = j.leases.lookup intent.target := by
  unfold leaseCurrent at current
  cases found : j.leases.lookup intent.target with
  | none => simpa [found, eq_comm] using current
  | some old =>
    simp only [found] at current
    split_ifs at current
    exact (Except.ok.inj current).symm

/-- What the checks of a start establish. -/
theorem startAdmission_ok {intent : Intent} {now : Int} {retryDelete retry leased : Bool}
    {known : Option Lease} {j : Journal}
    (admitted : startAdmission intent now retryDelete known j = .ok (.start retry leased)) :
    retry = retryDelete ∧ leased = (j.leases.lookup intent.target).isSome ∧
      (∀ id, j.Running id → id ∈ (if retryDelete then [intent.commandId] else []) ++
        known.elim [] fun lease => [lease.commandId]) ∧
      (intent.ensure = true → j.leases.lookup intent.target = none) ∧
      (intent.leaseSeconds.isSome → j.fences.lookup intent.target = none) ∧
      ∀ fence, j.fences.lookup intent.target = some fence → fence.revision < intent.revision ∨
        (retryDelete = true ∧ fence.revision = intent.revision ∧
          fence.commandId = intent.commandId) := by
  unfold startAdmission at admitted
  cases unfinished : j.unfinished ((if retryDelete then [intent.commandId] else []) ++
      known.elim [] fun lease => [lease.commandId]) with
  | true => simp [unfinished] at admitted
  | false =>
    have idle := Journal.unfinished_false.mp unfinished
    simp only [unfinished, Bool.false_eq_true, if_false] at admitted
    cases current : leaseCurrent j intent now with
    | error err => simp [current] at admitted
    | ok lease =>
      have lease_eq := leaseCurrent_ok current
      subst lease_eq
      simp only [current] at admitted
      cases renewed : (j.leases.lookup intent.target).isSome && intent.ensure with
      | true => simp [renewed] at admitted
      | false =>
        simp only [renewed, Bool.false_eq_true, if_false] at admitted
        have unleased : intent.ensure = true → j.leases.lookup intent.target = none := by
          intro ensures
          simpa [ensures] using renewed
        cases fenced : j.fences.lookup intent.target with
        | none =>
          simp only [fenced, Except.ok.injEq, Admission.start.injEq] at admitted
          exact ⟨admitted.1.symm, admitted.2.symm, idle, unleased, fun _ => rfl, by simp⟩
        | some fence =>
          simp only [fenced] at admitted
          split_ifs at admitted with lifetime stale
          simp only [Except.ok.injEq, Admission.start.injEq] at admitted
          refine ⟨admitted.1.symm, admitted.2.symm, idle, unleased, fun h => absurd h lifetime, ?_⟩
          intro other same
          cases same
          by_cases less : fence.revision < intent.revision
          · exact .inl less
          · have low : intent.revision ≤ fence.revision := by omega
            simp only [low, decide_true, Bool.true_and, Bool.not_eq_true', Bool.not_eq_false,
              Bool.and_eq_true, beq_iff_eq, and_assoc] at stale
            exact .inr stale

/-- A start the checks allow is a commit of the agent's transitions. -/
theorem startAdmission_begin {intent : Intent} {now : Int} {retryDelete retry leased : Bool}
    {known : Option Lease} {j : Journal} (instanceId : String) (granted : Int)
    (valid : intent.validate = .ok ())
    (knows : known = if intent.ensure then none else j.leases.lookup intent.target)
    (recorded : if retryDelete then ∃ row, j.commands.lookup intent.commandId = some row ∧
        row.status = .running ∧ row.fingerprint = intent.fingerprint p ∧ known.isSome
      else j.commands.lookup intent.commandId = none)
    (admitted : startAdmission intent now retryDelete known j = .ok (.start retry leased)) :
    Begin p j (.profile (if retry then .retry else .command) intent)
      (start p intent instanceId granted retry leased j) := by
  obtain ⟨rfl, rfl, idle, unleased, unused, newer⟩ := startAdmission_ok admitted
  cases ensures : intent.ensure with
  | true =>
    simp only [ensures, if_true] at knows
    subst knows
    cases retry with
    | true =>
      obtain ⟨row, _, _, _, leased⟩ := recorded
      cases leased
    | false =>
      have absent := unleased ensures
      rw [absent]
      exact .ensure instanceId granted valid ensures recorded (fun id run => by simpa using idle id run)
        absent unused fun fence found => by simpa using newer fence found
  | false =>
    simp only [ensures, Bool.false_eq_true, if_false] at knows
    subst knows
    cases retry with
    | true =>
      obtain ⟨row, found, unfinished, same, leased⟩ := recorded
      obtain ⟨lease, held⟩ := Option.isSome_iff_exists.mp leased
      rw [held]
      refine .retry instanceId granted valid ensures found unfinished same held ?_ ?_
      · intro id run
        simpa [held] using idle id run
      · intro fence fenced
        exact (newer fence fenced).imp_right And.right
    | false =>
      refine .delete instanceId granted valid ensures recorded ?_ ?_
      · intro id run
        have member := idle id run
        cases held : j.leases.lookup intent.target with
        | none => simp [held] at member
        | some lease => exact ⟨lease, rfl, by simpa [held] using member⟩
      · intro fence fenced
        simpa using newer fence fenced

theorem admission_begin {intent : Intent} {now : Int} {retry leased : Bool} {j : Journal}
    (instanceId : String) (granted : Int) (valid : intent.validate = .ok ())
    (admitted : admission p intent now j = .ok (.start retry leased)) :
    Begin p j (.profile (if retry then .retry else .command) intent)
      (start p intent instanceId granted retry leased j) := by
  unfold admission at admitted
  generalize knows : (if intent.ensure = true then none else j.leases.lookup intent.target) = known
    at admitted
  cases found : j.commands.lookup intent.commandId with
  | none =>
    simp only [found] at admitted
    exact startAdmission_begin instanceId granted valid knows.symm (by simpa using found) admitted
  | some row =>
    simp only [found] at admitted
    split_ifs at admitted with conflict done retries
    · cases current : leaseCurrent j intent now with
      | error err => simp [current] at admitted
      | ok lease =>
        simp only [current] at admitted
        cases parsed : Response.parse row.response <;> simp [parsed, Except.map] at admitted
    · simp only [ne_eq, not_not] at conflict
      simp only [Bool.and_eq_true, decide_eq_true_eq] at retries
      refine startAdmission_begin instanceId granted valid knows.symm ?_ admitted
      exact ⟨row, found, retries.1.1, conflict, retries.2⟩

theorem revoke_quiet (j : Journal) (target : String × String) :
    j.Quiet (revoke j target) ∧ (revoke j target).schema = j.schema := by
  unfold revoke
  cases j.leases.lookup target with
  | none => exact ⟨Journal.Quiet.refl j, rfl⟩
  | some lease =>
    exact ⟨(Journal.Quiet.markLease j target .revoked).trans (Journal.Quiet.supersede _ _), rfl⟩

theorem close_quiet {intent : Intent} {leased : Bool} {finished : Int} {j journal : Journal}
    {response answer : Response} (running : j.Running intent.commandId)
    (closed : close p intent leased finished j response = .ok (journal, answer)) :
    j.Quiet journal ∧ journal.schema = j.schema := by
  unfold close at closed
  cases seconds : intent.leaseSeconds with
  | some s =>
    simp only [seconds] at closed
    cases payload : leasePayload p intent (finished + micros s) response with
    | error err => simp [payload] at closed
    | ok r =>
      simp only [payload, Except.ok.injEq, Prod.mk.injEq] at closed
      rw [← closed.1]
      refine ⟨Journal.Quiet.thenClose (Journal.Quiet.alterLease j intent.target ?_) running, rfl⟩
      exact fun _ => rfl
  | none =>
    simp only [seconds, Except.ok.injEq, Prod.mk.injEq] at closed
    rw [← closed.1]
    split_ifs
    · obtain ⟨quiet, schema⟩ := revoke_quiet j intent.target
      exact ⟨quiet.thenClose running, schema⟩
    · exact ⟨Journal.Quiet.closeCommand running, rfl⟩

theorem apply_covers (intent : Intent) (instanceId : String) (clock : Clock)
    (runner : Intent → Outcome Response) (n : Node) :
    (apply p intent instanceId clock runner n).Covers p n := by
  unfold apply
  cases valid : intent.validate with
  | error err => exact covers_refuse err
  | ok =>
    simp only
    split_ifs with disabled
    · exact covers_refuse _
    · have enabled := enabled_of disabled
      refine covers_after (k := n.journal.commandsSchema.fencesSchema.leasesSchema) enabled rfl
        ⟨rfl, rfl, rfl, rfl⟩ ?_
      cases admitted : admission p intent clock.now
          n.journal.commandsSchema.fencesSchema.leasesSchema with
      | error err => exact covers_refuse err
      | ok verdict =>
        cases verdict with
        | replay response => exact covers_reply _
        | start retry leased =>
          have begun := admission_begin instanceId clock.granted valid admitted
          refine covers_attempt enabled rfl begun fun result journal answer closed => ?_
          obtain ⟨quiet, schema⟩ := close_quiet (begun.runs rfl (by split_ifs <;> simp)) closed
          exact ⟨quiet, by rw [schema]; rfl⟩

theorem resolveInterrupted_covers (intent : Intent) (instanceId : String)
    (inspection : Except String Json) (now : Int) (n : Node) :
    (resolveInterrupted p intent instanceId inspection now n).Covers p n := by
  unfold resolveInterrupted
  cases intent.validate with
  | error err => exact covers_refuse err
  | ok =>
    simp only
    split
    · exact covers_refuse _
    · next disabled =>
      have enabled := enabled_of disabled
      refine covers_after (k := n.journal.openFile) enabled rfl ⟨rfl, rfl, rfl, rfl⟩ ?_
      split
      · exact covers_refuse _
      cases found : n.journal.openFile.commands.lookup intent.commandId with
      | none => exact covers_refuse _
      | some row =>
        simp only
        split_ifs with conflict superseded running instance_
        · exact covers_refuse _
        · exact covers_reply _
        · exact covers_refuse _
        · exact covers_refuse _
        · cases inspection with
          | error err => exact covers_refuse err
          | ok observation =>
            simp only
            split
            · exact covers_refuse _
            · have runs : n.journal.openFile.Running intent.commandId :=
                ⟨row, found, not_not.mp running⟩
              exact covers_quiet (n := { n with journal := n.journal.openFile }) enabled rfl
                (Journal.Quiet.closeCommand runs) _

end Profile

namespace SettingsJournal

theorem admission_begin {intent : Json} {settings : Settings} {j : Journal} (instanceId : String)
    (wrote : Bool) (checked : Settings.check p intent = .ok settings)
    (admitted : admission p settings j = .ok none) :
    Begin p j (.settings intent wrote) (start p settings instanceId j) := by
  unfold admission at admitted
  cases found : j.commands.lookup settings.commandId with
  | some row =>
    simp only [found] at admitted
    split_ifs at admitted
    cases parsed : Response.parse row.response <;> simp [parsed, Except.map] at admitted
  | none =>
    simp only [found] at admitted
    split_ifs at admitted with unfinished
    have idle := Journal.unfinished_false.mp (Bool.eq_false_iff.mpr unfinished)
    refine .settings instanceId wrote checked found (fun id run => by simpa using idle id run) ?_
    intro fence fenced
    simp only [fenced] at admitted
    split_ifs at admitted with stale
    omega

theorem apply_covers (intent : Json) (instanceId : String) (outcome : Outcome Response)
    (reached : Bool) (n : Node) :
    (apply p intent instanceId outcome reached n).Covers p n := by
  unfold apply
  cases checked : Settings.check p intent with
  | error err => exact covers_refuse err
  | ok settings =>
    simp only
    split_ifs with empty disabled
    · exact covers_refuse _
    · exact covers_refuse _
    · have enabled := enabled_of disabled
      refine covers_after (k := schema n.journal) enabled rfl ⟨rfl, rfl, rfl, rfl⟩ ?_
      cases admitted : admission p settings (schema n.journal) with
      | error err => exact covers_refuse err
      | ok stored =>
        cases stored with
        | some response => exact covers_reply _
        | none =>
          have begun := admission_begin instanceId (outcome.wrote reached) checked admitted
          refine covers_attempt enabled rfl begun fun result journal answer closed => ?_
          unfold close at closed
          cases verified : verifyResult p settings result with
          | error err => simp [verified] at closed
          | ok =>
            simp only [verified, Except.ok.injEq, Prod.mk.injEq] at closed
            rw [← closed.1]
            have running := begun.runs (Settings.check_identity checked).2.1 (by simp)
            exact ⟨Journal.Quiet.closeCommand running, rfl⟩

private theorem repair_covers {observation : Except String Json} {now : Int}
    {commit : Json → Journal} (enabled : n.marker = none)
    (commits : ∀ record, n.journal.Quiet (commit record) ∧ (commit record).schema.file = true) :
    (repair p observation now n commit).Covers p n := by
  unfold repair
  cases observation with
  | error err => exact covers_refuse err
  | ok observation =>
    simp only
    split
    · exact covers_refuse _
    · exact covers_quiet enabled (commits _).2 (commits _).1 _

theorem resolve_covers (intent : Json) (instanceId : String) (inspection : Except String Json)
    (now : Int) (n : Node) : (resolve p intent instanceId inspection now n).Covers p n := by
  unfold resolve
  cases Settings.check p intent with
  | error err => exact covers_refuse err
  | ok settings =>
    simp only
    split
    · exact covers_refuse _
    split
    · exact covers_refuse _
    · next disabled =>
      have enabled := enabled_of disabled
      refine covers_after (k := schema n.journal) enabled rfl ⟨rfl, rfl, rfl, rfl⟩ ?_
      cases found : (schema n.journal).commands.lookup settings.commandId with
      | some row =>
        simp only
        split_ifs with conflict superseded running instance_
        · exact covers_refuse _
        · exact covers_reply _
        · exact covers_refuse _
        · exact covers_refuse _
        · refine repair_covers enabled fun record => ⟨Journal.Quiet.closeCommand ?_, rfl⟩
          exact ⟨row, found, not_not.mp running⟩
      | none =>
        simp only
        split
        · exact covers_refuse _
        · refine repair_covers enabled fun record => ?_
          let row : Command := ⟨p.fingerprint settings.value, .superseded, some record, instanceId⟩
          have inserted : (schema n.journal).Quiet
              ((schema n.journal).insertCommand settings.commandId row) :=
            Journal.Quiet.insertCommand found (by simp [row])
          refine ⟨inserted.trans (Journal.Quiet.raiseSettingsFence _ _ _), ?_⟩
          rw [tombstone, Journal.raiseSettingsFence_schema]
          rfl

end SettingsJournal

end NodePlane
