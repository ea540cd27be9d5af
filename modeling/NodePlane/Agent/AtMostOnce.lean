import NodePlane.Agent.Starts

/-! Commands that run at most once: ensures, settings changes and node operations, and
what a repeated request is answered. -/
namespace NodePlane
open Library

variable {p : Platform}

/-- The profile is fenced and has no lease: it never gets one. -/
def Journal.Unleased (j : Journal) (target : String × String) : Prop :=
  (j.fences.lookup target).isSome ∧ j.leases.lookup target = none

theorem Begin.unleased {j k : Journal} {invocation : Invocation} {target : String × String}
    (begun : Begin p j invocation k) (unleased : j.Unleased target) :
    k.leases.lookup target = none := by
  obtain ⟨fenced, free⟩ := unleased
  have altered {f : Lease → Lease} {other : String × String} :
      (j.leases.alter other f).lookup target = none := by
    rw [Table.lookup_alter]
    split_ifs with same
    · rw [← same, free]
      rfl
    · exact free
  cases begun with
  | @ensure i instanceId granted valid ensures new idle absent unused newer =>
    unfold Profile.start
    cases lifetime : i.leaseSeconds with
    | none => simpa [ensures] using free
    | some seconds =>
      have unfenced := unused (by rw [lifetime]; rfl)
      have differs : target ≠ i.target := by
        intro same
        rw [same, unfenced] at fenced
        cases fenced
      exact (Table.lookup_put_ne _ differs).trans free
  | @delete i instanceId granted valid deletes =>
    have permanent : i.leaseSeconds = none := by
      by_contra lifetime
      rw [Intent.validate_lease valid (Option.isSome_iff_ne_none.mpr lifetime)] at deletes
      cases deletes
    simp only [Profile.start, permanent]
    split_ifs
    · exact altered
    · exact free
  | @retry i row lease instanceId granted valid deletes =>
    have permanent : i.leaseSeconds = none := by
      by_contra lifetime
      rw [Intent.validate_lease valid (Option.isSome_iff_ne_none.mpr lifetime)] at deletes
      cases deletes
    simp only [Profile.start, permanent]
    split_ifs
    · exact altered
    · exact free
  | expiry | decommission | settings | operation => exact free

theorem unleased_steps {n m : Node} {events : List Event} {target : String × String}
    (steps : Steps (Transition p) n events m) (unleased : n.journal.Unleased target) :
    m.journal.Unleased target := by
  have fenced {j k : Journal} (grows : j.Extends k) (held : (j.fences.lookup target).isSome) :
      (k.fences.lookup target).isSome := by
    obtain ⟨fence, found⟩ := Option.isSome_iff_exists.mp held
    obtain ⟨next, kept, _⟩ := grows.fences target fence found
    rw [kept]
    rfl
  induction steps with
  | refl => exact unleased
  | head step _ ih =>
    refine ih ?_
    cases step with
    | tickets | script | mark => exact unleased
    | quiet enabled file change =>
      exact ⟨fenced change.toExtends unleased.1, change.unleased target unleased.2⟩
    | start enabled file begun | invoke enabled file begun =>
      exact ⟨fenced begun.grows unleased.1, begun.unleased unleased⟩

/-- A confirmed row stays as it is. -/
theorem stored_steps {n m : Node} {events : List Event} {id : String} {row : Command}
    (steps : Steps (Transition p) n events m) (found : n.journal.commands.lookup id = some row)
    (closed : row.status = .succeeded) : m.journal.commands.lookup id = some row := by
  obtain ⟨next, kept, le⟩ := (Agent.extends_steps steps).commands id row found
  rw [kept, le.2 (by rw [closed]; simp)]

/-- A closed command's row. -/
private theorem lookup_closed {j k : Journal} {id : String} {row : Command} {status : Status}
    {response : Json} (grows : j.Extends k) (found : j.commands.lookup id = some row) :
    ∃ closed, (k.closeCommand id status response).commands.lookup id = some closed ∧
      closed.fingerprint = row.fingerprint ∧ closed.status = status ∧
      closed.response = some response := by
  obtain ⟨next, kept, le⟩ := grows.commands id row found
  exact ⟨{ next with status := status, response := some response }, by
    rw [Journal.closeCommand, Table.lookup_alter, if_pos rfl, kept]; rfl, le.1, rfl, rfl⟩

namespace Profile
variable {n : Node} {intent : Intent} {instanceId : String} {clock : Clock}
  {runner : Intent → Outcome Response} {r : Response}

/-- A confirmed result stands in the command's row as it was answered. -/
private theorem close_stored {leased : Bool} {finished : Int} {j journal : Journal}
    {result : Response} {row : Command} (found : j.commands.lookup intent.commandId = some row)
    (closed : close p intent leased finished j result = .ok (journal, r)) :
    ∃ done, journal.commands.lookup intent.commandId = some done ∧
      done.fingerprint = row.fingerprint ∧ done.Stored r := by
  unfold close at closed
  cases lifetime : intent.leaseSeconds with
  | some seconds =>
    simp only [lifetime] at closed
    cases dated : leasePayload p intent (finished + micros seconds) result with
    | error err => simp [dated] at closed
    | ok response =>
      simp only [dated, Except.ok.injEq, Prod.mk.injEq] at closed
      obtain ⟨rfl, rfl⟩ := closed
      obtain ⟨done, kept, same, status, stored⟩ := lookup_closed
        (Journal.Quiet.alterLease j intent.target fun _ => rfl).toExtends found
      exact ⟨done, kept, same, status, by rw [stored]; rfl⟩
  | none =>
    simp only [lifetime, Except.ok.injEq, Prod.mk.injEq] at closed
    obtain ⟨rfl, rfl⟩ := closed
    have grows : j.Extends (if (!intent.ensure && leased) = true then revoke j intent.target else j) := by
      split_ifs
      · exact (revoke_quiet j intent.target).1.toExtends
      · exact Journal.Extends.refl j
    obtain ⟨done, kept, same, status, stored⟩ := lookup_closed grows found
    exact ⟨done, kept, same, status, by rw [stored]; rfl⟩

/-- A permanent identity's ensure leaves its profile without a lease. -/
private theorem close_unleased {retry leased : Bool} {finished granted : Int} {j journal : Journal}
    {result : Response} (ensures : intent.ensure = true) (permanent : intent.leaseSeconds = none)
    (begun : Begin p j (.profile (if retry then .retry else .command) intent)
      (start p intent instanceId granted retry leased j))
    (closed : close p intent leased finished (start p intent instanceId granted retry leased j)
      result = .ok (journal, r)) : journal.Unleased intent.target := by
  have absent : j.leases.lookup intent.target = none := by
    generalize start p intent instanceId granted retry leased j = k at begun
    cases retry with
    | true =>
      cases begun with
      | retry instanceId granted valid deletes => simp [ensures] at deletes
    | false =>
      cases begun with
      | ensure instanceId granted valid ensures new idle absent => exact absent
      | delete instanceId granted valid deletes => simp [ensures] at deletes
  unfold close at closed
  simp only [permanent, ensures, Bool.not_true, Bool.false_and, Bool.false_eq_true, if_false,
    Except.ok.injEq, Prod.mk.injEq] at closed
  obtain ⟨rfl, rfl⟩ := closed
  refine ⟨?_, ?_⟩
  · show ((j.fences.put _ _).lookup _).isSome
    rw [Table.lookup_put_self]
    rfl
  · show (start p intent instanceId granted retry leased j).leases.lookup _ = none
    simpa [start, permanent, ensures] using absent

/-- What the run of an intent that answered leaves in the journal. -/
theorem apply_first (started : (apply p intent instanceId clock runner n).events ≠ [])
    (answered : (apply p intent instanceId clock runner n).answer = some (.ok r)) :
    intent.validate = .ok () ∧ (∃ row,
      (apply p intent instanceId clock runner n).node.journal.commands.lookup intent.commandId =
        some row ∧ row.fingerprint = intent.fingerprint p ∧ row.Stored r) ∧
      (intent.ensure = true → intent.leaseSeconds = none →
        (apply p intent instanceId clock runner n).node.journal.Unleased intent.target) := by
  obtain ⟨valid, retry, leased, begun, same⟩ := apply_started started
  rw [same] at answered ⊢
  obtain ⟨row, found, _, fingerprint⟩ := begun.recorded rfl rfl (by split_ifs <;> simp)
  obtain ⟨result, journal, closed, node⟩ := attempt_ok answered
  obtain ⟨done, kept, recorded, stored⟩ := close_stored found closed
  rw [node]
  exact ⟨valid, ⟨done, kept, recorded.trans fingerprint, stored⟩, fun ensures permanent =>
    close_unleased ensures permanent begun closed⟩

end Profile

namespace SettingsJournal
variable {n : Node} {intent : Json} {instanceId : String} {outcome : Outcome Response}
  {reached : Bool} {r : Response}

theorem apply_first (started : (apply p intent instanceId outcome reached n).events ≠ [])
    (answered : (apply p intent instanceId outcome reached n).answer = some (.ok r)) :
    ∃ settings, Settings.check p intent = .ok settings ∧ settings.empty = false ∧ ∃ row,
      (apply p intent instanceId outcome reached n).node.journal.commands.lookup
        settings.commandId = some row ∧ row.fingerprint = p.fingerprint intent ∧ row.Stored r := by
  obtain ⟨settings, checked, asked, _, same⟩ := apply_started started
  rw [same] at answered ⊢
  refine ⟨settings, checked, asked, ?_⟩
  obtain ⟨result, journal, closed, node⟩ := attempt_ok answered
  rw [node]
  unfold close at closed
  cases verified : verifyResult p settings result with
  | error err => simp [verified] at closed
  | ok =>
    simp only [verified, Except.ok.injEq, Prod.mk.injEq] at closed
    obtain ⟨rfl, rfl⟩ := closed
    obtain ⟨done, kept, fingerprint, status, stored⟩ := lookup_closed
      (Journal.Extends.refl (start p settings instanceId (schema n.journal)))
      (Table.lookup_put_self _ _ _)
    refine ⟨done, kept, fingerprint.trans ?_, status, by rw [stored]; rfl⟩
    rw [(Settings.check_identity checked).1]

end SettingsJournal

namespace Operation
variable {n : Node} {owner : Except String String} {instanceId requested commandId : String}
  {intent : Json} {recover : Bool} {outcome : Outcome Json} {reached : Bool} {value : Json}

theorem command_first (started :
      (command p owner instanceId requested commandId intent recover outcome reached n).events ≠ [])
    (answered : (command p owner instanceId requested commandId intent recover outcome
      reached n).answer = some (.ok value)) :
    resolving requested = none ∧ check p requested commandId intent = .ok () ∧ ∃ row,
      (command p owner instanceId requested commandId intent recover outcome
        reached n).node.journal.commands.lookup commandId = some row ∧
      row.fingerprint = fingerprint p requested intent ∧ Kept row value := by
  obtain ⟨plain, checked, _, same⟩ := command_started started
  rw [same] at answered ⊢
  refine ⟨plain, checked, ?_⟩
  obtain ⟨result, journal, closed, node⟩ := attempt_ok answered
  cases closed
  rw [node]
  obtain ⟨done, kept, fingerprint, status, stored⟩ := lookup_closed
    (Journal.Extends.refl (n.journal.commandsSchema.insertCommand commandId
      ⟨fingerprint p requested intent, .running, none, instanceId⟩))
    (Table.lookup_put_self _ _ _)
  exact ⟨done, kept, fingerprint, status, stored⟩

end Operation

namespace AtMostOnce

/-- The runs so far: each command once, and recorded under its payload's fingerprint. -/
structure Kept (p : Platform) (past : List Event) (n : Node) : Prop where
  single : (past.filterMap fun e => e.invocation.once).Nodup
  recorded : ∀ e ∈ past, ∀ id, e.invocation.once = some id → ∃ body row,
    e.invocation.payload = some body ∧ body.Names id ∧
      n.journal.commands.lookup id = some row ∧ row.fingerprint = p.sha256Hex body.text

private theorem Kept.mono {past : List Event} {n m : Node} (kept : Kept p past n)
    (grows : n.journal.Extends m.journal) : Kept p (past ++ []) m := by
  rw [List.append_nil]
  refine ⟨kept.single, fun e old id once => ?_⟩
  obtain ⟨body, row, payload, named, found, same⟩ := kept.recorded e old id once
  obtain ⟨next, still, le⟩ := grows.commands id row found
  exact ⟨body, next, payload, named, still, le.1.trans same⟩

theorem kept_step {past events : List Event} {n m : Node} (kept : Kept p past n)
    (step : Transition p n events m) : Kept p (past ++ events) m := by
  cases step with
  | tickets | mark => exact kept.mono (Journal.Extends.refl _)
  | quiet enabled file change => exact kept.mono change.toExtends
  | start enabled file begun => exact kept.mono begun.grows
  | @invoke invocation journal enabled file begun =>
    have old := (kept.mono (m := { n with journal }) begun.grows).recorded
    rw [List.append_nil] at old
    refine ⟨?_, fun e member id once => ?_⟩
    · rw [List.filterMap_append]
      cases once : invocation.once with
      | none => simpa [once] using kept.single
      | some id =>
        have new : ∀ a ∈ past.filterMap fun e => e.invocation.once, a ≠ id := by
          intro a member same
          obtain ⟨e, ran, named⟩ := List.mem_filterMap.mp member
          obtain ⟨body, row, _, _, found, _⟩ := kept.recorded e ran a named
          rw [same, (begun.once once).1] at found
          cases found
        simp only [List.filterMap_cons, once, List.filterMap_nil]
        exact List.nodup_append.mpr ⟨kept.single, List.nodup_singleton id,
          fun a member b single => by rw [List.mem_singleton.mp single]; exact new a member⟩
    · rcases List.mem_append.mp member with ran | now
      · exact old e ran id once
      · rw [List.mem_singleton] at now
        subst now
        obtain ⟨_, command, journaled, body, payload, named⟩ := begun.once once
        obtain ⟨row, found, _, same⟩ := begun.recorded command payload journaled
        exact ⟨body, row, payload, named, found, same⟩
  | script enabled name args =>
    refine ⟨?_, fun e member id once => ?_⟩
    · simpa [Invocation.once] using kept.single
    · rcases List.mem_append.mp member with ran | now
      · exact kept.recorded e ran id once
      · rw [List.mem_singleton] at now
        subst now
        cases once

theorem history_kept (p : Platform) (calls : List Call) :
    Kept p (Agent.history p calls) (Agent.after p calls) := by
  have start : Kept p [] Node.fresh := ⟨List.nodup_nil, by simp⟩
  exact Steps.history (fun kept step => kept_step kept step) start (Agent.after_steps p calls)

/-- What the entry points make of a command whose row is `row`: no runner starts, no row
changes, and the recorded payload alone is answered, with the stored response. -/
structure Answered (p : Platform) (n : Node) (id : String) (row : Command) : Prop where
  profile : ∀ intent instanceId clock runner, intent.commandId = id →
    (intent.ensure = true ∨ row.fingerprint ≠ intent.fingerprint p) →
    (Profile.apply p intent instanceId clock runner n).Answers n fun r =>
      row.fingerprint = intent.fingerprint p ∧ row.Stored r
  settings : ∀ (intent : Json) instanceId outcome reached, (intent.field "command_id").asStr = some id →
    (SettingsJournal.apply p intent instanceId outcome reached n).Answers n fun r =>
      row.fingerprint = p.fingerprint intent ∧ row.Stored r
  operation : ∀ owner instanceId requested intent recover outcome reached,
    (Operation.resolving requested = none ∨
      row.fingerprint ≠ Operation.fingerprint p (Operation.action requested) intent) →
    (Operation.command p owner instanceId requested id intent recover outcome reached n).Answers n
      fun value => row.fingerprint = Operation.fingerprint p (Operation.action requested) intent ∧
        Operation.Kept row value
  grant : ∀ view instanceId value clock t,
    (Temporary.temporary p view instanceId "temporary_ensure" id value false clock t n).Answers n
      fun _ => ∃ (intent : Intent) (r : Response), intent.commandId = id ∧
        row.fingerprint = intent.fingerprint p ∧ row.Stored r
  resolveProfile : ∀ intent instanceId inspection now, intent.commandId = id →
    row.fingerprint ≠ intent.fingerprint p →
    (Profile.resolveInterrupted p intent instanceId inspection now n).Refuses n
  resolveSettings : ∀ intent instanceId inspection now,
    (intent.field "command_id").asStr = some id → row.fingerprint ≠ p.fingerprint intent →
    (SettingsJournal.resolve p intent instanceId inspection now n).Refuses n
  force : ∀ (s : Force.Spec) instanceId free, s.commandId = id → row.fingerprint ≠ s.fingerprint →
    (Force.retire s instanceId free n).Refuses n

theorem answered {n : Node} {id : String} {row : Command}
    (found : n.journal.commands.lookup id = some row) : Answered p n id row where
  profile _ instanceId clock runner same single :=
    Profile.apply_known (same ▸ found) (single.imp_right .inl) instanceId clock runner
  settings _ instanceId outcome reached named :=
    SettingsJournal.apply_known named found instanceId outcome reached
  operation owner instanceId _ _ recover outcome reached single :=
    Operation.command_known found single owner instanceId recover outcome reached
  grant _ instanceId _ clock t := Temporary.grant_known found instanceId clock t
  resolveProfile _ instanceId inspection now same other :=
    Profile.resolve_conflict (same ▸ found) other instanceId inspection now
  resolveSettings _ instanceId inspection now named other :=
    SettingsJournal.resolve_conflict named found other instanceId inspection now
  force _ instanceId free same other := Force.retire_conflict (same ▸ found) other instanceId free

/-- A lease that an ensure may not meet. -/
def Lapsed (n : Node) (intent : Intent) (now : Int) : Prop :=
  intent.leaseSeconds.isSome ∧ ∃ lease, n.journal.leases.lookup intent.target = some lease ∧
    (lease.status ≠ .active ∨ lease.expiresAt ≤ now)

/-- A profile command that ran and answered is answered the same ever after; only a
removal and the end of its lease refuse it. -/
def ProfileRepeats (p : Platform) (before later : List Call) : Prop :=
  ∀ intent instanceId clock runner r,
    (Profile.apply p intent instanceId clock runner (Agent.after p before)).events ≠ [] →
    (Profile.apply p intent instanceId clock runner (Agent.after p before)).answer = some (.ok r) →
    ∀ n, n = Agent.after p (before ++ .applyProfile intent instanceId clock runner :: later) →
    ∀ instanceId' clock' runner',
      (Profile.apply p intent instanceId' clock' runner' n).Answers n (· = r) ∧
        (¬n.disabled = true → ¬Lapsed n intent clock'.now →
          (Profile.apply p intent instanceId' clock' runner' n).answer = some (.ok r))

def SettingsRepeats (p : Platform) (before later : List Call) : Prop :=
  ∀ intent instanceId outcome reached r,
    (SettingsJournal.apply p intent instanceId outcome reached (Agent.after p before)).events ≠ [] →
    (SettingsJournal.apply p intent instanceId outcome reached (Agent.after p before)).answer =
      some (.ok r) →
    ∀ n, n = Agent.after p (before ++ .applySettings intent instanceId outcome reached :: later) →
    ∀ instanceId' outcome' reached',
      (SettingsJournal.apply p intent instanceId' outcome' reached' n).Answers n (· = r) ∧
        (¬n.disabled = true →
          (SettingsJournal.apply p intent instanceId' outcome' reached' n).answer = some (.ok r))

/-- The same for a node operation, which an owner of another node also refuses. -/
def OperationRepeats (p : Platform) (before later : List Call) : Prop :=
  ∀ owner instanceId action id intent recover outcome reached value,
    (Operation.command p owner instanceId action id intent recover outcome reached
      (Agent.after p before)).events ≠ [] →
    (Operation.command p owner instanceId action id intent recover outcome reached
      (Agent.after p before)).answer = some (.ok value) →
    ∀ n, n = Agent.after p
      (before ++ .operation owner instanceId action id intent recover outcome reached :: later) →
    ∀ owner' instanceId' recover' outcome' reached',
      (Operation.command p owner' instanceId' action id intent recover' outcome' reached' n).Answers
          n (· = value) ∧
        (¬n.disabled = true → (ownedActions.contains action = true → recover' = false →
            Operation.checkOwner owner' intent = .ok ()) →
          (Operation.command p owner' instanceId' action id intent recover' outcome' reached'
            n).answer = some (.ok value))

/-- The later calls run from the state the first one left. -/
private theorem later_steps (before later : List Call) (call : Call) :
    ∃ events, Steps (Transition p) (Agent.exec p (Agent.after p before) call).1 events
      (Agent.after p (before ++ call :: later)) := by
  have first : Agent.after p (before ++ [call]) = (Agent.exec p (Agent.after p before) call).1 := by
    simp [Agent.after, run_append, run]
  obtain ⟨events, _, steps⟩ := Agent.continue_steps p (before ++ [call]) later
  rw [first, List.append_assoc] at steps
  exact ⟨events, steps⟩

private theorem stored_unique {row : Command} {r s : Response} (first : row.Stored r)
    (second : row.Stored s) : r = s :=
  Except.ok.inj (first.2.symm.trans second.2)

/-- A lease that has not lapsed admits the recorded intent. -/
private theorem leaseCurrent_live {n : Node} {intent : Intent} {now : Int}
    (live : ¬Lapsed n intent now)
    (permanent : intent.ensure = true → intent.leaseSeconds = none →
      n.journal.leases.lookup intent.target = none) :
    Profile.leaseCurrent n.journal intent now = .ok (n.journal.leases.lookup intent.target) := by
  unfold Profile.leaseCurrent
  cases held : n.journal.leases.lookup intent.target with
  | none => rfl
  | some lease =>
    cases ensures : intent.ensure with
    | false => simp
    | true =>
      have lifetime : intent.leaseSeconds.isSome := by
        rw [Option.isSome_iff_ne_none]
        intro absent
        rw [permanent ensures absent] at held
        cases held
      have current : lease.status = .active ∧ now < lease.expiresAt := by
        by_contra lapsed
        refine live ⟨lifetime, lease, held, ?_⟩
        by_cases active : lease.status = .active
        · exact .inr (by simpa [active] using lapsed)
        · exact .inl active
      simp [current.1, current.2, Option.isSome_iff_ne_none.mp lifetime]

theorem profile_repeats (p : Platform) (before later : List Call) :
    ProfileRepeats p before later := by
  rintro intent instanceId clock runner r started answer n rfl instanceId' clock' runner'
  obtain ⟨valid, ⟨row, recorded, same, stored⟩, permanent⟩ :=
    Profile.apply_first started answer
  obtain ⟨events, steps⟩ := later_steps (p := p) before later
    (.applyProfile intent instanceId clock runner)
  have found := stored_steps steps recorded stored.1
  refine ⟨(Profile.apply_known found (.inr (.inr (by rw [stored.1]; simp))) instanceId' clock'
    runner').mono fun s kept => stored_unique kept.2 stored, fun enabled live => ?_⟩
  have current := leaseCurrent_live live fun ensures lifetime =>
    (unleased_steps steps (permanent ensures lifetime)).2
  exact Profile.apply_stored found same stored valid (enabled_of enabled) current _ _

theorem settings_repeats (p : Platform) (before later : List Call) :
    SettingsRepeats p before later := by
  rintro intent instanceId outcome reached r started answer n rfl instanceId' outcome' reached'
  obtain ⟨settings, checked, asked, row, recorded, same, stored⟩ :=
    SettingsJournal.apply_first started answer
  obtain ⟨events, steps⟩ := later_steps (p := p) before later
    (.applySettings intent instanceId outcome reached)
  have found := stored_steps steps recorded stored.1
  have named := (Settings.check_identity checked).2.1
  refine ⟨(SettingsJournal.apply_known named found instanceId' outcome' reached').mono
    fun s kept => stored_unique kept.2 stored, fun enabled => ?_⟩
  exact SettingsJournal.apply_stored checked found same stored asked (enabled_of enabled) _ _ _

theorem operation_repeats (p : Platform) (before later : List Call) :
    OperationRepeats p before later := by
  rintro owner instanceId action id intent recover outcome reached value started answer n rfl owner'
    instanceId' recover' outcome' reached'
  obtain ⟨plain, checked, row, recorded, same, kept⟩ := Operation.command_first started answer
  obtain ⟨events, steps⟩ := later_steps (p := p) before later
    (.operation owner instanceId action id intent recover outcome reached)
  have found := stored_steps steps recorded kept.1
  refine ⟨(Operation.command_known found (.inl plain) owner' instanceId' recover' outcome'
    reached').mono fun other stored => ?_, fun enabled owned => ?_⟩
  · exact Option.some.inj (stored.2.2.symm.trans kept.2)
  · exact Operation.command_stored found plain checked same kept (enabled_of enabled) owned _ _ _

def sampleAnswer : Response :=
  ⟨"OK", canonical (.obj [("expires_at", .str "1970-01-01T12:00:00.000000+00:00"),
    ("revocation_mode", .str "peer_removed")])⟩

end AtMostOnce
end NodePlane
