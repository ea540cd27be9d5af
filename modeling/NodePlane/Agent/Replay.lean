import NodePlane.Agent.Force
import NodePlane.Agent.Extension
import NodePlane.Agent.Operation

/-! What the entry points answer to a command the journal already knows. -/
namespace NodePlane
open Library

/-- No row, marker or ticket differs. -/
structure Node.Alike (n m : Node) : Prop where
  rows : n.journal.SameRows m.journal
  marker : m.marker = n.marker
  tickets : m.tickets = n.tickets

theorem Node.alike {n : Node} {journal : Journal} (rows : n.journal.SameRows journal) :
    n.Alike { n with journal } :=
  ⟨rows, rfl, rfl⟩

theorem Node.Alike.refl (n : Node) : n.Alike n := ⟨⟨rfl, rfl, rfl, rfl⟩, rfl, rfl⟩

namespace Ran
variable {ε α β : Type} {n m : Node}

/-- The call starts no runner and leaves the node alike; its answer is a refusal or
meets `P`. -/
structure Answers (n : Node) (P : α → Prop) (ran : Ran ε α) : Prop where
  events : ran.events = []
  alike : n.Alike ran.node
  answer : ∃ answer, ran.answer = some answer ∧ ∀ a, answer = .ok a → P a

/-- The same with a refusal. -/
abbrev Refuses (n : Node) (ran : Ran ε α) : Prop := ran.Answers n fun _ => False

theorem refuses_refuse (alike : n.Alike m) (err : ε) : (Ran.refuse m err : Ran ε α).Refuses n :=
  ⟨rfl, alike, .error err, rfl, fun _ ok => by cases ok⟩

theorem answers_reply {P : α → Prop} (alike : n.Alike m) {answer : Except ε α}
    (meets : ∀ a, answer = .ok a → P a) : (Ran.reply m answer).Answers n P :=
  ⟨rfl, alike, answer, rfl, meets⟩

theorem Answers.mono {P Q : α → Prop} {ran : Ran ε α} (answers : ran.Answers n P)
    (weaker : ∀ a, P a → Q a) : ran.Answers n Q := by
  obtain ⟨answer, answered, meets⟩ := answers.answer
  exact ⟨answers.events, answers.alike, answer, answered, fun a ok => weaker a (meets a ok)⟩

theorem Refuses.answers {P : α → Prop} {ran : Ran ε α} (refuses : ran.Refuses n) :
    ran.Answers n P :=
  Answers.mono refuses fun _ impossible => impossible.elim

theorem Answers.bind {P : α → Prop} {f : α → Except ε β} {ran : Ran ε α}
    (answers : ran.Answers n P) : (ran.bind f).Answers n fun b => ∃ a, P a ∧ f a = .ok b := by
  obtain ⟨answer, answered, meets⟩ := answers.answer
  refine ⟨answers.events, answers.alike, answer.bind f, ?_, fun b ok => ?_⟩
  · simp [Ran.bind, answered]
  · cases answer with
    | error err => cases ok
    | ok a => exact ⟨a, meets a rfl, ok⟩

end Ran

/-- The response a confirmed command stored. -/
def Command.Stored (row : Command) (r : Response) : Prop :=
  row.status = .succeeded ∧ Response.parse row.response = .ok r

variable {p : Platform} {n : Node} {row : Command}

namespace Profile
variable {intent : Intent} {j : Journal} {now : Int}

/-- A known command is admitted to its stored response only; the exception is a
delete left running. -/
theorem admission_known (found : j.commands.lookup intent.commandId = some row)
    (single : intent.ensure = true ∨ row.fingerprint ≠ intent.fingerprint p ∨ row.status ≠ .running)
    {verdict : Admission} (admitted : admission p intent now j = .ok verdict) :
    ∃ r, verdict = .replay r ∧ row.fingerprint = intent.fingerprint p ∧ row.Stored r := by
  unfold admission at admitted
  generalize (if intent.ensure = true then none else j.leases.lookup intent.target) = known
    at admitted
  simp only [found] at admitted
  split_ifs at admitted with conflict succeeded retry
  · cases current : leaseCurrent j intent now with
    | error err => simp [current] at admitted
    | ok lease =>
      simp only [current] at admitted
      cases parsed : Response.parse row.response with
      | error err => simp [parsed, Except.map] at admitted
      | ok r =>
        simp only [parsed, Except.map, Except.ok.injEq] at admitted
        exact ⟨r, admitted.symm, not_not.mp conflict, succeeded, parsed⟩
  · simp only [Bool.and_eq_true, decide_eq_true_eq, Bool.not_eq_true'] at retry
    rcases single with ensures | other | stopped
    · rw [retry.1.2] at ensures
      cases ensures
    · exact absurd other conflict
    · exact absurd retry.1.1 stopped

theorem apply_known (found : n.journal.commands.lookup intent.commandId = some row)
    (single : intent.ensure = true ∨ row.fingerprint ≠ intent.fingerprint p ∨ row.status ≠ .running)
    (instanceId : String) (clock : Clock) (runner : Intent → Outcome Response) :
    (apply p intent instanceId clock runner n).Answers n fun r =>
      row.fingerprint = intent.fingerprint p ∧ row.Stored r := by
  have alike : n.Alike { n with journal := n.journal.commandsSchema.fencesSchema.leasesSchema } :=
    Node.alike ⟨rfl, rfl, rfl, rfl⟩
  unfold apply
  split
  · exact (Ran.refuses_refuse (Node.Alike.refl n) _).answers
  split
  · exact (Ran.refuses_refuse (Node.Alike.refl n) _).answers
  dsimp only
  split
  · exact (Ran.refuses_refuse alike _).answers
  · next response admitted =>
    obtain ⟨r, same, stored⟩ := admission_known found single admitted
    cases same
    exact Ran.answers_reply alike fun a ok => by cases ok; exact stored
  · next admitted =>
    obtain ⟨r, same, _⟩ := admission_known found single admitted
    cases same

/-- A repair is refused under another fingerprint. -/
theorem resolve_conflict (found : n.journal.commands.lookup intent.commandId = some row)
    (other : row.fingerprint ≠ intent.fingerprint p) (instanceId : String)
    (inspection : Except String Json) (now : Int) :
    (resolveInterrupted p intent instanceId inspection now n).Refuses n := by
  have alike : n.Alike { n with journal := n.journal.openFile } := Node.alike ⟨rfl, rfl, rfl, rfl⟩
  have found' : n.journal.openFile.commands.lookup intent.commandId = some row := found
  unfold resolveInterrupted
  split
  · exact Ran.refuses_refuse (Node.Alike.refl n) _
  dsimp only
  split
  · exact Ran.refuses_refuse (Node.Alike.refl n) _
  split
  · exact Ran.refuses_refuse alike _
  · simp only [found', ne_eq, other, not_false_eq_true, if_true]
    exact Ran.refuses_refuse alike _

/-- The checks that stand between a recorded intent and its stored response. -/
theorem apply_stored (found : n.journal.commands.lookup intent.commandId = some row)
    (same : row.fingerprint = intent.fingerprint p) {r : Response} (stored : row.Stored r)
    (valid : intent.validate = .ok ()) (enabled : n.marker = none) {clock : Clock}
    {lease : Option Lease} (current : leaseCurrent n.journal intent clock.now = .ok lease)
    (instanceId : String) (runner : Intent → Outcome Response) :
    (apply p intent instanceId clock runner n).answer = some (.ok r) := by
  have known : admission p intent clock.now n.journal.commandsSchema.fencesSchema.leasesSchema =
      .ok (.replay r) := by
    have found' : n.journal.commandsSchema.fencesSchema.leasesSchema.commands.lookup
        intent.commandId = some row := found
    have current' : leaseCurrent n.journal.commandsSchema.fencesSchema.leasesSchema intent clock.now =
        .ok lease := current
    unfold admission
    simp [found', current', same, stored.1, stored.2, Except.map]
  unfold apply
  simp [valid, Node.disabled, enabled, known]

end Profile

namespace SettingsJournal
variable {intent : Json} {settings : Settings} {j : Journal}

theorem admission_known (found : j.commands.lookup settings.commandId = some row)
    {stored : Option Response} (admitted : admission p settings j = .ok stored) :
    ∃ r, stored = some r ∧ row.fingerprint = p.fingerprint settings.value ∧ row.Stored r := by
  unfold admission at admitted
  simp only [found] at admitted
  split_ifs at admitted with conflict succeeded
  cases parsed : Response.parse row.response with
  | error err => simp [parsed, Except.map] at admitted
  | ok r =>
    simp only [parsed, Except.map, Except.ok.injEq] at admitted
    exact ⟨r, admitted.symm, not_not.mp conflict, succeeded, parsed⟩

theorem apply_known {id : String} (named : (intent.field "command_id").asStr = some id)
    (found : n.journal.commands.lookup id = some row) (instanceId : String)
    (outcome : Outcome Response) (reached : Bool) :
    (apply p intent instanceId outcome reached n).Answers n fun r =>
      row.fingerprint = p.fingerprint intent ∧ row.Stored r := by
  unfold apply
  split
  · exact (Ran.refuses_refuse (Node.Alike.refl n) _).answers
  · next settings checked =>
    obtain ⟨value, identity, _⟩ := Settings.check_identity checked
    have same : settings.commandId = id := Option.some.inj (identity.symm.trans named)
    have found' : (schema n.journal).commands.lookup settings.commandId = some row :=
      same ▸ found
    have alike : n.Alike { n with journal := schema n.journal } := Node.alike ⟨rfl, rfl, rfl, rfl⟩
    split
    · exact (Ran.refuses_refuse (Node.Alike.refl n) _).answers
    split
    · exact (Ran.refuses_refuse (Node.Alike.refl n) _).answers
    dsimp only
    split
    · exact (Ran.refuses_refuse alike _).answers
    · next response admitted =>
      obtain ⟨r, replayed, fingerprint, stored⟩ := admission_known found' admitted
      cases replayed
      rw [value] at fingerprint
      exact Ran.answers_reply alike fun a ok => by cases ok; exact ⟨fingerprint, stored⟩
    · next admitted =>
      obtain ⟨r, replayed, _⟩ := admission_known found' admitted
      cases replayed

theorem resolve_conflict {id : String} (named : (intent.field "command_id").asStr = some id)
    (found : n.journal.commands.lookup id = some row) (other : row.fingerprint ≠ p.fingerprint intent)
    (instanceId : String) (inspection : Except String Json) (now : Int) :
    (resolve p intent instanceId inspection now n).Refuses n := by
  have alike : n.Alike { n with journal := schema n.journal } := Node.alike ⟨rfl, rfl, rfl, rfl⟩
  unfold resolve
  split
  · exact Ran.refuses_refuse (Node.Alike.refl n) _
  · next settings checked =>
    have same : settings.commandId = id :=
      Option.some.inj ((Settings.check_identity checked).2.1.symm.trans named)
    have found' : (schema n.journal).commands.lookup settings.commandId = some row :=
      same ▸ found
    dsimp only
    split
    · exact Ran.refuses_refuse (Node.Alike.refl n) _
    split
    · exact Ran.refuses_refuse (Node.Alike.refl n) _
    · simp only [found', ne_eq, other, not_false_eq_true, if_true]
      exact Ran.refuses_refuse alike _

theorem apply_stored (checked : Settings.check p intent = .ok settings)
    (found : n.journal.commands.lookup settings.commandId = some row)
    (same : row.fingerprint = p.fingerprint intent) {r : Response} (stored : row.Stored r)
    (asked : settings.empty = false) (enabled : n.marker = none) (instanceId : String)
    (outcome : Outcome Response) (reached : Bool) :
    (apply p intent instanceId outcome reached n).answer = some (.ok r) := by
  have known : admission p settings (schema n.journal) = .ok (some r) := by
    have found' : (schema n.journal).commands.lookup settings.commandId = some row := found
    have value := (Settings.check_identity checked).1
    unfold admission
    simp [found', same, value, stored.1, stored.2, Except.map]
  unfold apply
  simp [checked, asked, Node.disabled, enabled, known]

end SettingsJournal

namespace Operation
variable {requested commandId : String} {intent : Json}

/-- The action a request names, whether it runs or retires it. -/
def action (requested : String) : String := (resolving requested).getD requested

/-- The result a confirmed operation stored. -/
def Kept (row : Command) (value : Json) : Prop :=
  row.status = .succeeded ∧ row.response = some value

theorem admission_known {j : Journal} {resolving recover : Bool} {name : String}
    (found : j.commands.lookup commandId = some row) {verdict : Admission}
    (admitted : admission p name commandId intent resolving recover j = .ok verdict) :
    row.fingerprint = fingerprint p name intent ∧
      ((∃ value, verdict = .replay value ∧ Kept row value) ∨
        (verdict = .retire true ∧ resolving = true)) := by
  unfold admission at admitted
  simp only [found] at admitted
  split_ifs at admitted with conflict unclosed closed
  · cases admitted
    simp only [Bool.and_eq_true] at unclosed
    exact ⟨not_not.mp conflict, .inr ⟨rfl, unclosed.1⟩⟩
  · refine ⟨not_not.mp conflict, .inl ?_⟩
    cases stored : row.response with
    | none => simp [stored] at admitted
    | some value =>
      simp only [stored, Option.elim_some, Function.comp_apply, Except.ok.injEq] at admitted
      exact ⟨value, admitted.symm, not_not.mp closed, stored⟩

/-- A known operation is answered from its row; a `resolve_` request may retire it. -/
theorem command_known (found : n.journal.commands.lookup commandId = some row)
    (single : resolving requested = none ∨ row.fingerprint ≠ fingerprint p (action requested) intent)
    (owner : Except String String) (instanceId : String) (recover : Bool) (outcome : Outcome Json)
    (reached : Bool) :
    (command p owner instanceId requested commandId intent recover outcome reached n).Answers n
      fun value => row.fingerprint = fingerprint p (action requested) intent ∧ Kept row value := by
  have found' : n.journal.commandsSchema.commands.lookup commandId = some row := found
  have alike : n.Alike { n with journal := n.journal.commandsSchema } :=
    Node.alike ⟨rfl, rfl, rfl, rfl⟩
  unfold command
  dsimp only
  split
  · exact (Ran.refuses_refuse (Node.Alike.refl n) _).answers
  split
  · exact (Ran.refuses_refuse (Node.Alike.refl n) _).answers
  split
  · exact (Ran.refuses_refuse (Node.Alike.refl n) _).answers
  split
  · exact (Ran.refuses_refuse alike _).answers
  · next response admitted =>
    obtain ⟨same, ⟨value, replayed, kept⟩ | ⟨retired, _⟩⟩ := admission_known found' admitted
    · cases replayed
      exact Ran.answers_reply alike fun a ok => by cases ok; exact ⟨same, kept⟩
    · cases retired
  · next admitted =>
    obtain ⟨same, ⟨value, replayed, _⟩ | ⟨_, resolves⟩⟩ := admission_known found' admitted
    · cases replayed
    · rcases single with plain | other
      · rw [plain] at resolves
        cases resolves
      · exact absurd same other
  · next admitted =>
    obtain ⟨same, ⟨value, replayed, _⟩ | ⟨started, _⟩⟩ := admission_known found' admitted
    · cases replayed
    · cases started

theorem command_stored (found : n.journal.commands.lookup commandId = some row)
    (plain : resolving requested = none) (checked : check p requested commandId intent = .ok ())
    (same : row.fingerprint = fingerprint p requested intent) {value : Json} (kept : Kept row value)
    (enabled : n.marker = none) {owner : Except String String} {recover : Bool}
    (owned : ownedActions.contains requested = true → recover = false →
      checkOwner owner intent = .ok ())
    (instanceId : String) (outcome : Outcome Json) (reached : Bool) :
    (command p owner instanceId requested commandId intent recover outcome reached n).answer =
      some (.ok value) := by
  have known : admission p requested commandId intent false recover n.journal.commandsSchema =
      .ok (.replay value) := by
    have found' : n.journal.commandsSchema.commands.lookup commandId = some row := found
    unfold admission
    simp [found', same, kept.1, kept.2]
  have owner_ok : (if ownedActions.contains requested && !recover then checkOwner owner intent
      else .ok ()) = .ok () := by
    split_ifs with asked
    · simp only [Bool.and_eq_true, Bool.not_eq_true'] at asked
      exact owned asked.1 asked.2
    · rfl
  unfold command
  simp only [plain, Option.getD_none, checked, Option.isSome_none, Bool.not_false, Bool.and_true,
    owner_ok, Node.disabled, enabled, Bool.false_eq_true, if_false, known]
  rfl

end Operation

namespace Temporary

/-- A grant request is a profile's ensure, so its answer comes from the same row. -/
theorem grant_known {view : Node} {commandId : String} {value : Json}
    (found : n.journal.commands.lookup commandId = some row) (instanceId : String)
    (clock : Profile.Clock) (t : Temporary) :
    (temporary p view instanceId "temporary_ensure" commandId value false clock t n).Answers n
      fun _ => ∃ (intent : Intent) (r : Response), intent.commandId = commandId ∧
        row.fingerprint = intent.fingerprint p ∧ row.Stored r := by
  unfold temporary
  dsimp only
  split
  · exact (Ran.refuses_refuse (Node.Alike.refl n) _).answers
  · next intent parsed =>
    split
    · exact (Ran.refuses_refuse (Node.Alike.refl n) _).answers
    · next named =>
      have named : intent.commandId = commandId := not_not.mp named
      simp only [String.reduceEq, if_false, if_true]
      split
      · exact (Ran.refuses_refuse (Node.Alike.refl n) _).answers
      · next asked =>
        have ensures : intent.ensure = true := by
          simp only [Bool.or_eq_true, decide_eq_true_eq, not_or, not_not] at asked
          simp [Intent.ensure, asked.2]
        unfold mutation
        split
        · exact (Ran.refuses_refuse (Node.Alike.refl n) _).answers
        simp only [Bool.false_eq_true, if_false, if_true]
        split
        · exact (Ran.refuses_refuse (Node.Alike.refl n) _).answers
        · have known := Profile.apply_known (p := p) (named ▸ found) (.inl ensures) instanceId clock
            t.mutate
          refine (known.bind (f := reply p "temporary_ensure" intent)).mono ?_
          rintro _ ⟨r, stored, _⟩
          exact ⟨intent, r, named, stored⟩

end Temporary

namespace Force

/-- A forced retirement is refused under another fingerprint. -/
theorem retire_conflict {s : Spec} (found : n.journal.commands.lookup s.commandId = some row)
    (other : row.fingerprint ≠ s.fingerprint) (instanceId : String) (free : Bool) :
    (retire s instanceId free n).Refuses n := by
  have alike : n.Alike { n with journal := n.journal.commandsSchema } :=
    Node.alike ⟨rfl, rfl, rfl, rfl⟩
  have found' : n.journal.commandsSchema.commands.lookup s.commandId = some row := found
  unfold retire
  split
  · exact Ran.refuses_refuse (Node.Alike.refl n) _
  split
  · exact Ran.refuses_refuse (Node.Alike.refl n) _
  split
  · exact Ran.refuses_refuse (Node.Alike.refl n) _
  · simp only [found', ne_eq, other, not_false_eq_true, if_true]
    exact Ran.refuses_refuse alike _

end Force
end NodePlane
