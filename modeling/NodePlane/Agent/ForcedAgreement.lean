import NodePlane.Agent.ForcedFingerprints

/-! The rows that the ordinary entry points store, and what forced recovery makes of them. -/
namespace NodePlane
open Library

variable {p : Platform} {n : Node} {row : Command}

/-- A started attempt leaves its command under the fingerprint it was started with. -/
theorem attempt_row {ρ ε α : Type} {started : Node} {invocation : Invocation}
    {outcome : Outcome ρ} {failed : String → ε} {close : ρ → Except ε (Journal × α)} {id : String}
    {last : Command}
    (found : (attempt started invocation outcome failed close).node.journal.commands.lookup id =
      some last)
    (first : started.journal.commands.lookup id = some row)
    (closes : ∀ result journal a, close result = .ok (journal, a) →
      started.journal.Extends journal) : last.fingerprint = row.fingerprint := by
  obtain ⟨node, _⟩ | ⟨node, _⟩ | ⟨result, journal, a, closed, node, _⟩ :=
    attempt_cases started invocation outcome failed close
  · rw [node, first] at found
    cases found
    rfl
  · rw [node, first] at found
    cases found
    rfl
  · obtain ⟨next, kept, le⟩ := (closes result journal a closed).commands id row first
    rw [node, kept] at found
    cases found
    exact le.1

namespace Profile
variable {intent : Intent} {instanceId : String} {clock : Clock} {runner : Intent → Outcome Response}

/-- The row that a profile intent stores. -/
theorem apply_recorded (new : n.journal.commands.lookup intent.commandId = none)
    (found : (apply p intent instanceId clock runner n).node.journal.commands.lookup
      intent.commandId = some row) : row.fingerprint = intent.fingerprint p := by
  have unchanged {j : Journal} (same : j.commands = n.journal.commands) :
      j.commands.lookup intent.commandId ≠ some row := by
    rw [same, new]
    simp
  unfold apply at found
  cases valid : intent.validate with
  | error err =>
    simp only [valid] at found
    exact absurd found (unchanged rfl)
  | ok =>
    simp only [valid] at found
    split at found
    · exact absurd found (unchanged rfl)
    cases admitted : admission p intent clock.now
        n.journal.commandsSchema.fencesSchema.leasesSchema with
    | error err =>
      simp only [admitted] at found
      exact absurd found (unchanged rfl)
    | ok verdict =>
      cases verdict with
      | replay response =>
        simp only [admitted] at found
        exact absurd found (unchanged rfl)
      | start retry leased =>
        have begun := admission_begin instanceId clock.granted valid admitted
        have journaled : ∀ i, Invocation.profile (if retry then .retry else .command) intent ≠
            .profile .expiry i := by split_ifs <;> simp
        obtain ⟨first, stored, _, fingerprint⟩ := begun.recorded rfl rfl journaled
        simp only [admitted] at found
        have same := attempt_row found stored fun result journal answer closed =>
          (close_quiet (begun.runs rfl journaled) closed).1.toExtends
        exact same.trans fingerprint

end Profile

namespace SettingsJournal
variable {intent : Json} {instanceId : String} {outcome : Outcome Response} {reached : Bool}
  {s : Settings}

/-- The row that a settings intent stores. -/
theorem apply_recorded (checked : Settings.check p intent = .ok s)
    (new : n.journal.commands.lookup s.commandId = none)
    (found : (apply p intent instanceId outcome reached n).node.journal.commands.lookup
      s.commandId = some row) : row.fingerprint = p.fingerprint intent := by
  have unchanged {j : Journal} (same : j.commands = n.journal.commands) :
      j.commands.lookup s.commandId ≠ some row := by
    rw [same, new]
    simp
  unfold apply at found
  simp only [checked] at found
  split at found
  · exact absurd found (unchanged rfl)
  split at found
  · exact absurd found (unchanged rfl)
  cases admitted : admission p s (schema n.journal) with
  | error err =>
    simp only [admitted] at found
    exact absurd found (unchanged rfl)
  | ok stored =>
    cases stored with
    | some response =>
      simp only [admitted] at found
      exact absurd found (unchanged rfl)
    | none =>
      have begun := admission_begin instanceId (outcome.wrote reached) checked admitted
      have named := (Settings.check_identity checked).2.1
      obtain ⟨first, stored, _, fingerprint⟩ := begun.recorded named rfl (by simp)
      simp only [admitted] at found
      have same := attempt_row found stored fun result journal answer closed => by
        unfold close at closed
        split at closed
        · cases closed
        · cases closed
          exact (Journal.Quiet.closeCommand (begun.runs named (by simp))).toExtends
      exact same.trans fingerprint

end SettingsJournal

namespace Operation
variable {owner : Except String String} {instanceId requested id : String} {intent : Json}
  {recover : Bool} {outcome : Outcome Json} {reached : Bool}

/-- The row that a node operation stores. -/
theorem command_recorded (new : n.journal.commands.lookup id = none)
    (found : (command p owner instanceId requested id intent recover outcome
      reached n).node.journal.commands.lookup id = some row) :
    row.fingerprint = fingerprint p (action requested) intent := by
  have unchanged {j : Journal} (same : j.commands = n.journal.commands) :
      j.commands.lookup id ≠ some row := by
    rw [same, new]
    simp
  unfold command at found
  dsimp only at found
  cases checked : check p ((resolving requested).getD requested) id intent with
  | error err =>
    simp only [checked] at found
    exact absurd found (unchanged rfl)
  | ok =>
    simp only [checked] at found
    split at found
    · exact absurd found (unchanged rfl)
    split at found
    · exact absurd found (unchanged rfl)
    cases admitted : admission p ((resolving requested).getD requested) id intent
        (resolving requested).isSome recover n.journal.commandsSchema with
    | error err =>
      simp only [admitted] at found
      exact absurd found (unchanged rfl)
    | ok verdict =>
      cases verdict with
      | replay response =>
        simp only [admitted] at found
        exact absurd found (unchanged rfl)
      | retire known =>
        simp only [admitted] at found
        have absent : n.journal.commandsSchema.commands.lookup id = none := new
        have known' : known = false := by
          unfold admission at admitted
          simp only [absent] at admitted
          split_ifs at admitted
          · cases admitted
            rfl
          · cases admitted
        subst known'
        have stored : (retire p ((resolving requested).getD requested) id intent instanceId false
            n.journal.commandsSchema).commands.lookup id = some row := found
        simp only [retire, Bool.false_eq_true, if_false] at stored
        rw [Journal.insertCommand, Table.lookup_put_self] at stored
        cases stored
        rfl
      | start =>
        have begun := admission_begin instanceId (settingsActions.contains
          ((resolving requested).getD requested) && outcome.wrote reached)
          (fun wrote => (Bool.and_eq_true_iff.mp wrote).1) checked admitted
        obtain ⟨first, stored, _, fingerprint⟩ := begun.recorded rfl rfl (by simp)
        simp only [admitted] at found
        have same := attempt_row found stored fun result journal answer closed => by
          cases closed
          exact (Journal.Quiet.closeCommand (begun.runs rfl (by simp))).toExtends
        exact same.trans fingerprint

end Operation

namespace Force
variable {s : Spec} {instanceId : String} {stopped free : Bool}

/-- What forced recovery makes of the row that a call stored for a ticket's command: it holds the
ticket's fingerprint, and after any further calls neither the preparation nor the retirement of
the ticket takes it for another command. -/
def Retires (p : Platform) (s : Spec) (n m : Node) : Prop :=
  n.journal.commands.lookup s.commandId = none →
    ∀ row, m.journal.commands.lookup s.commandId = some row →
      row.fingerprint = s.fingerprint ∧ ∀ calls instanceId stopped free,
        let later := after p m calls
        (prepare s instanceId later.journal stopped later).answer ≠
          some (.error "force_command_conflict") ∧
        (retire s instanceId free later).answer ≠ some (.error "force_command_conflict")

theorem publish_error {tickets : Table String Json} {name err : String} {value : Json}
    (refused : publish tickets name value = .error err) : err = "force_ticket_conflict" := by
  unfold publish at refused
  split at refused
  · cases refused
  · split at refused
    · cases refused
      rfl
    · cases refused

theorem prepare_same (found : n.journal.commands.lookup s.commandId = some row)
    (same : row.fingerprint = s.fingerprint) :
    (prepare s instanceId n.journal stopped n).answer ≠ some (.error "force_command_conflict") := by
  have closed : cancellable s n.journal ≠ .error "force_command_conflict" := by
    simp only [cancellable, found, same, ne_eq, not_true_eq_false, if_false]
    split <;> simp
  unfold prepare
  split
  · simp [Ran.refuse]
  split
  · rename_i err refused
    intro answer
    have : err = "force_command_conflict" := by simpa [Ran.refuse] using answer
    exact closed (this ▸ refused)
  split
  · rename_i refused
    simp [Ran.refuse, publish_error refused]
  dsimp only
  split
  · simp
  split
  · rename_i refused
    simp [Ran.refuse, publish_error refused]
  · simp [Ran.reply]

theorem ticketed_error {tickets : Table String Json} {err : String}
    (refused : ticketed s instanceId tickets = .error err) : err ≠ "force_command_conflict" := by
  unfold ticketed at refused
  split at refused
  · split at refused
    · cases refused
      decide
    split at refused
    · cases refused
      decide
    · cases refused
  · cases refused
    decide

theorem retire_same (found : n.journal.commands.lookup s.commandId = some row)
    (same : row.fingerprint = s.fingerprint) :
    (retire s instanceId free n).answer ≠ some (.error "force_command_conflict") := by
  have found' : n.journal.commandsSchema.commands.lookup s.commandId = some row := found
  unfold retire
  split
  · rename_i err refused
    simpa [Ran.refuse] using ticketed_error refused
  split
  · simp [Ran.refuse]
  split
  · simp [Ran.refuse]
  simp only [found', same, ne_eq, not_true_eq_false, if_false]
  split
  · split <;> simp [Ran.refuse, Ran.reply]
  · split <;> simp [Ran.refuse, Ran.reply]

/-- A stored row under the ticket's fingerprint is retired as the ticket's command. -/
theorem retires {m : Node} (same : n.journal.commands.lookup s.commandId = none →
    ∀ row, m.journal.commands.lookup s.commandId = some row → row.fingerprint = s.fingerprint) :
    Retires p s n m := by
  intro new row found
  have first := same new row found
  refine ⟨first, fun calls instanceId stopped free => ?_⟩
  obtain ⟨last, kept, le⟩ :=
    (Agent.extends_steps (after_steps p m calls)).commands s.commandId row found
  have last := le.1.trans first
  exact ⟨prepare_same kept last, retire_same kept last⟩

end Force

/-! Agreement -/

theorem Force.text_injective {kind kind' : Force.Kind} {node node' id id' : String}
    {intent intent' : Json} (admits : Force.Admits kind node id intent)
    (admits' : Force.Admits kind' node' id' intent')
    (same : (Force.payloadOf kind intent).text = (Force.payloadOf kind' intent').text) :
    Force.payloadOf kind intent = Force.payloadOf kind' intent' := by
  have named {kind : Force.Kind} {node id : String} {intent : Json}
      (admits : Force.Admits kind node id intent) : (Force.payloadOf kind intent).Names id := by
    cases kind with
    | node =>
      have command := admits.command
      simp only [Force.bodyOf, if_true] at command
      simp [Force.payloadOf, Payload.Names, command, Json.asStr]
    | settings | profile =>
      have command := admits.command
      simp only [Force.bodyOf, reduceCtorEq, if_false] at command
      simp [Force.payloadOf, Payload.Names, command, Json.asStr]
  exact Payload.text_injective (named admits) (named admits') same

/-- Force recovery and the ordinary entry points agree on the fingerprint of a permanent profile
intent, a settings intent and a node operation under a UUID, so a ticket for the same request
retires exactly the row that the entry point stored; requests that differ hash different texts. -/
theorem fingerprints_agree (p : Platform) :
    (∀ ticketId node members i, forceIdentity ticketId = true → nodeKey node = true →
      Json.Ascending (members.map Prod.fst) → Intent.parse (.obj members) = .ok i →
      i.leaseSeconds = none → forceIdentity i.commandId = true →
      ∃ s, Force.check p (Force.request ticketId node i.commandId .profile (.obj members)) = .ok s ∧
        s.fingerprint = i.fingerprint p ∧ ∀ n instanceId clock runner,
          Force.Retires p s n (Profile.apply p i instanceId clock runner n).node) ∧
    (∀ ticketId intent settings, forceIdentity ticketId = true →
      Settings.check p intent = .ok settings → forceIdentity settings.commandId = true →
      ∃ s, Force.check p
          (Force.request ticketId settings.nodeKey settings.commandId .settings intent) = .ok s ∧
        s.fingerprint = p.fingerprint intent ∧ ∀ n instanceId outcome reached,
          Force.Retires p s n (SettingsJournal.apply p intent instanceId outcome reached n).node) ∧
    (∀ ticketId node requested id intent, forceIdentity ticketId = true →
      Operation.check p (Operation.action requested) id intent = .ok () →
      forceIdentity id = true → intent.field "node_key" = .str node →
      (bareActions.contains (Operation.action requested) = true → Operation.Plain node intent) →
      ∃ s, Force.check p (Force.request ticketId node id .node
          (Operation.request (Operation.action requested) intent)) = .ok s ∧
        s.fingerprint = Operation.fingerprint p (Operation.action requested) intent ∧
        ∀ n owner instanceId recover outcome reached, Force.Retires p s n
          (Operation.command p owner instanceId requested id intent recover outcome
            reached n).node) ∧
    ∀ kind kind' node node' id id' intent intent', Force.Admits kind node id intent →
      Force.Admits kind' node' id' intent' →
      Force.payloadOf kind intent ≠ Force.payloadOf kind' intent' →
      (Force.payloadOf kind intent).text ≠ (Force.payloadOf kind' intent').text := by
  refine ⟨?_, ?_, ?_, ?_⟩
  · intro ticketId node members i ticket key ascending parsed permanent identity
    obtain ⟨_, object, fields⟩ := Intent.parse_ok parsed
    cases object
    obtain ⟨s, checked, named, _, fingerprint⟩ :=
      Force.check_request ticket identity key (fields.admits permanent node)
    have agree : s.fingerprint = i.fingerprint p := by
      rw [fingerprint, Intent.fingerprint, ← Intent.toValue_of_parse ascending fields]
      rfl
    refine ⟨s, checked, agree, fun n instanceId clock runner => Force.retires fun new row found => ?_⟩
    rw [named] at new found
    exact (Profile.apply_recorded new found).trans agree.symm
  · intro ticketId intent settings ticket valid identity
    obtain ⟨admits, key⟩ := Settings.admits valid
    obtain ⟨s, checked, named, _, fingerprint⟩ :=
      Force.check_request ticket identity key admits
    refine ⟨s, checked, fingerprint, fun n instanceId outcome reached =>
      Force.retires fun new row found => ?_⟩
    rw [named] at new found
    exact (SettingsJournal.apply_recorded valid new found).trans fingerprint.symm
  · intro ticketId node requested id intent ticket valid identity listed bare
    have plain : Operation.Plain node intent := by
      obtain ⟨_, object, settings⟩ := Operation.check_body valid
      cases isBare : bareActions.contains (Operation.action requested) with
      | true => exact bare isBare
      | false =>
        obtain ⟨s, settings⟩ := settings isBare
        have plain := Operation.plain_of_settings object settings
        have same : s.nodeKey = node := Json.str.inj (plain.named.symm.trans listed)
        exact same ▸ plain
    obtain ⟨s, checked, named, _, fingerprint⟩ :=
      Force.check_request ticket identity plain.key (Operation.admits valid plain)
    have members : Json.object [("action", .str (Operation.action requested)), ("intent", intent)] =
        Operation.request (Operation.action requested) intent := by
      simp +decide [Json.object, Json.set, Json.insertMember, Operation.request]
    have agree : s.fingerprint = Operation.fingerprint p (Operation.action requested) intent := by
      rw [fingerprint, Operation.fingerprint, members]
      rfl
    refine ⟨s, checked, agree, fun n owner instanceId recover outcome reached =>
      Force.retires fun new row found => ?_⟩
    rw [named] at new found
    exact (Operation.command_recorded new found).trans agree.symm
  · intro kind kind' node node' id id' intent intent' admits admits' differ same
    exact differ (Force.text_injective admits admits' same)

def sampleId : String := "0123abcd-4567-89ab-cdef-0123456789ab"

/-- A revocation as a ticket carries it. -/
def sampleRevocation : List (String × Json) :=
  [("action", .str "delete"), ("command_id", .str sampleId), ("protocol", .str "awg"),
    ("revision", .int 2), ("runtime_name", .str "alice"), ("short_id", .str ""), ("uuid", .str "")]

theorem fingerprints_agree_revocation :
    ∃ s, Force.check Platform.sample
        (Force.request sampleId "node-1" sampleId .profile (.obj sampleRevocation)) = .ok s ∧
      s.fingerprint = Intent.fingerprint Platform.sample
        ⟨sampleId, "awg", "alice", 2, "delete", "", "", none⟩ := by
  obtain ⟨profile, _⟩ := fingerprints_agree Platform.sample
  obtain ⟨s, checked, same, _⟩ := profile sampleId "node-1" sampleRevocation
    ⟨sampleId, "awg", "alice", 2, "delete", "", "", none⟩ (by decide) (by decide) (by decide)
    (by decide) rfl (by decide)
  exact ⟨s, checked, same⟩

/-- A temporary grant under a UUID. -/
def leasedGrant : Intent :=
  ⟨sampleId, "awg", "tmp_0123456789abcdef0123456789abcdef", 1, "ensure", "", "", some 43200⟩

/-- The agent records a temporary grant, and a ticket for it is refused. -/
theorem lease_ticket_refused :
    Intent.parse leasedGrant.toValue = .ok leasedGrant ∧ forceIdentity leasedGrant.commandId = true ∧
    ((Profile.apply Platform.sample leasedGrant "first" ⟨0, 0, 0⟩ (fun _ => .stopped)
      Node.fresh).node.journal.commands.lookup leasedGrant.commandId).isSome ∧
    Force.check Platform.sample
      (Force.request sampleId "node-1" sampleId .profile leasedGrant.toValue) =
      .error "force_invalid_request" := by
  refine ⟨?_, ?_, ?_, ?_⟩
  · decide
  · decide
  · decide
  · rfl

end NodePlane
