import NodePlane.Agent.Calls
import NodePlane.Agent.Replay

/-! Which runners a call starts, and from which commit. -/
namespace NodePlane
open Library

variable {p : Platform} {n : Node}

theorem attempt_events {ρ ε α : Type} {started : Node} {invocation : Invocation}
    {outcome : Outcome ρ} {failed : String → ε} {close : ρ → Except ε (Journal × α)} {e : Event}
    (member : e ∈ (attempt started invocation outcome failed close).events) :
    e = ⟨invocation, started.journal⟩ := by
  obtain ⟨_, events⟩ | ⟨_, events⟩ | ⟨_, _, _, _, _, events, _⟩ :=
    attempt_cases started invocation outcome failed close
  · rw [events] at member
    cases member
  · rw [events] at member
    exact List.mem_singleton.mp member
  · rw [events] at member
    exact List.mem_singleton.mp member

namespace Profile
variable {intent : Intent} {instanceId : String} {clock : Clock} {runner : Intent → Outcome Response}

/-- A call that started its runner is an attempt after an admitted commit. -/
theorem apply_started (started : (apply p intent instanceId clock runner n).events ≠ []) :
    intent.validate = .ok () ∧ ∃ retry leased,
      Begin p n.journal.commandsSchema.fencesSchema.leasesSchema
        (.profile (if retry then .retry else .command) intent)
        (start p intent instanceId clock.granted retry leased
          n.journal.commandsSchema.fencesSchema.leasesSchema) ∧
      apply p intent instanceId clock runner n = attempt
        { n with journal := (start p intent instanceId clock.granted retry leased
            n.journal.commandsSchema.fencesSchema.leasesSchema) }
        (.profile (if retry then .retry else .command) intent) (runner intent) id
        (close p intent leased clock.finished (start p intent instanceId clock.granted retry leased
          n.journal.commandsSchema.fencesSchema.leasesSchema)) := by
  unfold apply at started ⊢
  cases valid : intent.validate with
  | error err => simp [valid] at started
  | ok =>
    by_cases disabled : n.disabled = true
    · simp [valid, disabled] at started
    · simp only [valid, disabled, Bool.false_eq_true, if_false] at started ⊢
      cases admitted : admission p intent clock.now
          n.journal.commandsSchema.fencesSchema.leasesSchema with
      | error err => simp [admitted] at started
      | ok verdict =>
        cases verdict with
        | replay response => simp [admitted] at started
        | start retry leased =>
          exact ⟨trivial, retry, leased, admission_begin instanceId clock.granted valid admitted, rfl⟩

end Profile

namespace SettingsJournal
variable {intent : Json} {instanceId : String} {outcome : Outcome Response} {reached : Bool}

theorem apply_started (started : (apply p intent instanceId outcome reached n).events ≠ []) :
    ∃ settings, Settings.check p intent = .ok settings ∧ settings.empty = false ∧
      Begin p (schema n.journal) (.settings intent (outcome.wrote reached))
        (start p settings instanceId (schema n.journal)) ∧
      apply p intent instanceId outcome reached n = attempt
        { n with journal := (start p settings instanceId (schema n.journal)) }
        (.settings intent (outcome.wrote reached)) outcome id
        (close p settings (start p settings instanceId (schema n.journal))) := by
  unfold apply at started ⊢
  cases checked : Settings.check p intent with
  | error err => simp [checked] at started
  | ok settings =>
    refine ⟨settings, rfl, ?_⟩
    cases asked : settings.empty with
    | true => simp [checked, asked] at started
    | false =>
      by_cases disabled : n.disabled = true
      · simp [checked, asked, disabled] at started
      · simp only [checked, asked, disabled, Bool.false_eq_true, if_false] at started ⊢
        cases admitted : admission p settings (schema n.journal) with
        | error err => simp [admitted] at started
        | ok stored =>
          cases stored with
          | some response => simp [admitted] at started
          | none => exact ⟨trivial, admission_begin instanceId _ checked admitted, rfl⟩

end SettingsJournal

namespace Operation
variable {owner : Except String String} {instanceId requested commandId : String} {intent : Json}
  {recover : Bool} {outcome : Outcome Json} {reached : Bool}

theorem admission_start {name : String} {resolving : Bool} {j : Journal}
    (admitted : admission p name commandId intent resolving recover j = .ok .start) :
    resolving = false ∧ j.commands.lookup commandId = none := by
  cases found : j.commands.lookup commandId with
  | some row =>
    obtain ⟨_, ⟨value, replayed, _⟩ | ⟨retired, _⟩⟩ := admission_known found admitted
    · cases replayed
    · cases retired
  | none =>
    unfold admission at admitted
    simp only [found] at admitted
    split_ifs at admitted with resolves recovers unfinished
    · cases admitted
    · exact ⟨Bool.eq_false_iff.mpr resolves, rfl⟩

theorem command_started (started :
      (command p owner instanceId requested commandId intent recover outcome reached n).events ≠ []) :
    resolving requested = none ∧ check p requested commandId intent = .ok () ∧
      n.journal.commands.lookup commandId = none ∧
      command p owner instanceId requested commandId intent recover outcome reached n = attempt
        { n with journal := (n.journal.commandsSchema.insertCommand commandId
            ⟨fingerprint p requested intent, .running, none, instanceId⟩) }
        (.operation requested commandId intent
          (settingsActions.contains requested && outcome.wrote reached)) outcome .failed fun value =>
        let record := result requested intent value
        .ok ((n.journal.commandsSchema.insertCommand commandId
          ⟨fingerprint p requested intent, .running, none, instanceId⟩).closeCommand commandId
            .succeeded record, record) := by
  unfold command at started ⊢
  dsimp only at started ⊢
  cases checked : check p ((resolving requested).getD requested) commandId intent with
  | error err => simp [checked] at started
  | ok =>
    simp only [checked] at started ⊢
    split at started
    · simp at started
    · by_cases disabled : n.disabled = true
      · simp [disabled] at started
      · simp only [disabled, Bool.false_eq_true, if_false] at started ⊢
        cases admitted : admission p ((resolving requested).getD requested) commandId intent
            (resolving requested).isSome recover n.journal.commandsSchema with
        | error err => simp [admitted] at started
        | ok verdict =>
          cases verdict with
          | replay response => simp [admitted] at started
          | retire known => simp [admitted] at started
          | start =>
            cases plain : resolving requested with
            | none =>
              simp only [plain, Option.getD_none] at checked
              exact ⟨rfl, checked, (admission_start admitted).2, rfl⟩
            | some name =>
              rw [plain] at admitted
              exact absurd (admission_start admitted).1 (by simp)

end Operation

/-- Every runner the call started is a profile's mutation or a legacy script. -/
def Ran.SettingsFree {ε α : Type} (ran : Ran ε α) : Prop :=
  ∀ e ∈ ran.events, e.invocation.settingsFree = true

private theorem free_nil {ε α : Type} {ran : Ran ε α} (none : ran.events = []) : ran.SettingsFree := by
  intro e member
  rw [none] at member
  cases member

private theorem free_attempt {ρ ε α : Type} {started : Node} {invocation : Invocation}
    {outcome : Outcome ρ} {failed : String → ε} {close : ρ → Except ε (Journal × α)}
    (free : invocation.settingsFree = true) :
    (attempt started invocation outcome failed close).SettingsFree := by
  intro e member
  rw [attempt_events member]
  exact free

theorem Profile.apply_free (intent : Intent) (instanceId : String) (clock : Profile.Clock)
    (runner : Intent → Outcome Response) (n : Node) :
    (Profile.apply p intent instanceId clock runner n).SettingsFree := by
  by_cases started : (Profile.apply p intent instanceId clock runner n).events = []
  · exact free_nil started
  · obtain ⟨_, retry, leased, _, same⟩ := Profile.apply_started started
    rw [same]
    exact free_attempt rfl

namespace Temporary

private theorem mutation_free (view : Node) (instanceId action : String) (intent : Intent)
    (recover : Bool) (clock : Profile.Clock) (t : Temporary) (n : Node) :
    (mutation p view instanceId action intent recover clock t n).SettingsFree := by
  unfold mutation
  split
  · exact free_nil rfl
  split
  · exact free_nil rfl
  split
  · exact free_nil rfl
  · exact Profile.apply_free intent instanceId clock t.mutate n

private theorem cancel_events (instanceId : String) (intent : Intent) (t : Temporary) (n : Node) :
    (cancel p instanceId intent t n).events = [] := by
  unfold cancel
  split
  · rfl
  split
  · rfl
  split
  · rfl
  · rfl

private theorem resolveUnused_events (instanceId : String) (intent : Intent) (t : Temporary)
    (n : Node) : (resolveUnused p instanceId intent t n).events = [] := by
  unfold resolveUnused
  split
  · rfl
  split
  · rfl
  dsimp only
  split
  · split
    · rfl
    split
    · rfl
    split
    · rfl
    · exact cancel_events instanceId intent t _
  · exact cancel_events instanceId intent t _

theorem temporary_free (view : Node) (instanceId action commandId : String) (value : Json)
    (recover : Bool) (clock : Profile.Clock) (t : Temporary) (n : Node) :
    (temporary p view instanceId action commandId value recover clock t n).SettingsFree := by
  unfold temporary
  dsimp only
  split
  · exact free_nil rfl
  split
  · exact free_nil rfl
  split
  · split
    · exact free_nil rfl
    · exact free_nil (resolveUnused_events instanceId _ t n)
  split
  · split
    · exact free_nil rfl
    split
    · exact free_nil rfl
    split
    · exact free_nil rfl
    · exact free_nil rfl
  split
  · split
    · exact free_nil rfl
    · exact mutation_free view instanceId action _ recover clock t n
  split
  · split
    · exact free_nil rfl
    split
    · exact free_nil rfl
    · exact free_nil rfl
    split
    · exact free_nil rfl
    · exact mutation_free view instanceId action _ recover clock t n
  · exact free_nil rfl

end Temporary

namespace Expiry

private theorem expireLease_free (instanceId : String) (runner : Intent → Outcome Response)
    (target : String × String) (lease : Lease) (n : Node) :
    (expireLease p instanceId runner target lease n).SettingsFree := by
  unfold expireLease
  dsimp only
  split
  · exact free_nil rfl
  split
  · exact free_nil rfl
  · intro e member
    rw [attempt_events member]
    rfl

theorem scan_free (instanceId : String) (now : Int) (runner : Intent → Outcome Response)
    (rows : List Row) (found : Scan) (n : Node) :
    (scan p instanceId now runner rows found n).SettingsFree := by
  induction rows generalizing found n with
  | nil => exact free_nil rfl
  | cons row rest ih =>
    obtain ⟨target, lease⟩ := row
    have one := expireLease_free (p := p) instanceId runner target lease n
    unfold scan
    split
    · exact ih found n
    dsimp only
    split
    · exact one
    · exact one
    · intro e member
      rcases List.mem_append.mp member with first | later
      · exact one e first
      · exact ih _ _ e later

theorem expire_free (instanceId : String) (now : Int) (runner : Intent → Outcome Response)
    (n : Node) : (expire p instanceId now runner n).SettingsFree := by
  unfold expire
  split
  · exact free_nil rfl
  · exact scan_free instanceId now runner _ _ n

end Expiry

namespace Decommission

theorem revokeAll_free (instanceId : String) (runner : Intent → Outcome Response)
    (intents : List Intent) (n : Node) : (revokeAll p instanceId runner intents n).SettingsFree := by
  induction intents generalizing n with
  | nil => exact free_nil rfl
  | cons intent rest ih =>
    have one : (revokeOne p instanceId runner intent n).SettingsFree := by
      unfold revokeOne
      split
      · exact free_nil rfl
      · exact free_attempt rfl
    unfold revokeAll
    dsimp only
    split
    · intro e member
      rcases List.mem_append.mp member with first | later
      · exact one e first
      · exact ih _ e later
    · exact one

theorem prepare_free (command instanceId : String) (runner : Option (Intent → Outcome Response))
    (persisted : Bool) (n : Node) :
    (prepare p command instanceId runner persisted n).SettingsFree := by
  have revoked : ∀ runner, (revokeProfiles p command instanceId runner n).SettingsFree := by
    intro runner
    unfold revokeProfiles
    dsimp only
    split
    · exact free_nil rfl
    split
    · exact free_nil rfl
    split
    · exact free_nil rfl
    split
    · exact free_nil rfl
    · exact revokeAll_free instanceId runner _ n
  unfold prepare
  split
  · exact free_nil rfl
  split
  · exact free_nil rfl
  extract_lets first marked
  have free : first.SettingsFree := by
    cases runner with
    | none => exact free_nil rfl
    | some runner =>
      by_cases file : n.journal.schema.file = true
      · simpa [first, file] using revoked runner
      · exact free_nil (by simp [first, file])
  clear_value first
  split
  · exact free
  · exact free
  split
  · exact free
  · exact free

end Decommission

/-- The calls that may start a settings change or a node operation. -/
def Call.settings : Call → Bool
  | .applySettings .. | .operation .. => true
  | _ => false

theorem Agent.exec_free (n : Node) {call : Call} (other : call.settings = false) :
    ∀ e ∈ (Agent.exec p n call).2, e.invocation.settingsFree = true := by
  cases call with
  | applySettings | operation => cases other
  | applyProfile => exact Profile.apply_free _ _ _ _ n
  | temporary => exact Temporary.temporary_free _ _ _ _ _ _ _ _ n
  | expire => exact Expiry.expire_free _ _ _ n
  | decommission => exact Decommission.prepare_free _ _ _ _ n
  | resolveProfile intent instanceId inspection now =>
    refine free_nil (?_ : (Profile.resolveInterrupted p intent instanceId inspection now n).events = _)
    unfold Profile.resolveInterrupted
    dsimp only
    repeat' split
    all_goals rfl
  | resolveSettings intent instanceId inspection now =>
    refine free_nil (?_ : (SettingsJournal.resolve p intent instanceId inspection now n).events = _)
    unfold SettingsJournal.resolve SettingsJournal.repair
    dsimp only
    repeat' split
    all_goals rfl
  | supervise protocol now stopped =>
    refine free_nil (?_ : (Supervisor.supervise protocol now stopped n).events = _)
    unfold Supervisor.supervise Supervisor.pruneLocked
    dsimp only
    repeat' split
    all_goals rfl
  | forcePrepare spec instanceId view stopped =>
    dsimp only [Agent.exec]
    split
    · simp
    · refine free_nil (?_ : (Force.prepare _ instanceId view stopped n).events = _)
      unfold Force.prepare
      dsimp only
      repeat' split
      all_goals rfl
  | forceRetire spec instanceId free =>
    dsimp only [Agent.exec]
    split
    · simp
    · refine free_nil (?_ : (Force.retire _ instanceId free n).events = _)
      unfold Force.retire
      dsimp only
      repeat' split
      all_goals rfl
  | legacy script args outcome =>
    refine (?_ : (Legacy.run script args outcome n).SettingsFree)
    unfold Legacy.run
    split
    · exact free_nil rfl
    split
    · exact free_nil rfl
    · exact free_attempt rfl
  | uninstall =>
    refine free_nil (?_ : (Legacy.uninstall n).events = _)
    unfold Legacy.uninstall
    split <;> rfl

end NodePlane
