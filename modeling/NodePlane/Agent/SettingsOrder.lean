import Mathlib.Data.List.Induction
import NodePlane.Agent.Starts

/-! The revisions written to node.env: settings changes are fenced, node operations
that carry settings are not. -/
namespace NodePlane
open Library
namespace SettingsOrder

def revisionOf (intent : Json) : Int := (intent.field "revision").asI64.getD 0

def nodeOf (intent : Json) : String := (intent.field "node_key").asStr.getD ""

/-- The settings revision a runner wrote to node.env. -/
def written : Invocation → Option Int
  | .settings intent true | .operation _ _ intent true => some (revisionOf intent)
  | _ => none

/-- The settings revision of a node operation that goes on to the settings path. -/
def carried : Invocation → Option Int
  | .operation action _ intent _ =>
    if settingsActions.contains action then some (revisionOf intent) else none
  | _ => none

/-- The revision a settings change of another node carries. -/
def foreign (node : String) : Invocation → Option Int
  | .settings intent _ => if nodeOf intent = node then none else some (revisionOf intent)
  | _ => none

/-- A call that would start on the settings path carries no revision below what went
there before it, where nothing in the journal compares the two: a node operation below
the settings fences or an earlier node operation, a settings change below an earlier
node operation or another node's change. -/
def InOrder (past : List Event) (n : Node) : Call → Prop
  | .applySettings intent _ _ _ =>
    (∀ id, (intent.field "command_id").asStr = some id → n.journal.commands.lookup id = none) →
      ∀ e ∈ past, ∀ r, carried e.invocation = some r ∨ foreign (nodeOf intent) e.invocation = some r →
        r ≤ revisionOf intent
  | .operation _ _ action id intent _ _ _ =>
    settingsActions.contains action = true → n.journal.commands.lookup id = none →
      (∀ node fence, n.journal.settingsFence.lookup node = some fence →
        fence.revision ≤ revisionOf intent) ∧
      ∀ e ∈ past, ∀ r, carried e.invocation = some r → r ≤ revisionOf intent
  | _ => True

/-- Every call of the run is in order when it arrives. -/
def RunsInOrder (p : Platform) (calls : List Call) : Prop :=
  ∀ before call later, calls = before ++ call :: later →
    InOrder (Agent.history p before) (Agent.after p before) call

variable {p : Platform}

/-- Every settings change that ran is under its node's fence. -/
def Fenced (past : List Event) (n : Node) : Prop :=
  ∀ e ∈ past, ∀ intent wrote, e.invocation = .settings intent wrote →
    ∃ fence, n.journal.settingsFence.lookup (nodeOf intent) = some fence ∧
      revisionOf intent ≤ fence.revision

private theorem Fenced.mono {past : List Event} {n m : Node} (fenced : Fenced past n)
    (grows : n.journal.Extends m.journal) : Fenced past m := by
  intro e ran intent wrote change
  obtain ⟨fence, found, below⟩ := fenced e ran intent wrote change
  obtain ⟨next, kept, risen⟩ := grows.settingsFence _ fence found
  exact ⟨next, kept, Int.le_trans below risen⟩

private theorem begin_fenced {j k : Journal} {intent : Json} {wrote : Bool}
    (begun : Begin p j (.settings intent wrote) k) :
    ∃ fence, k.settingsFence.lookup (nodeOf intent) = some fence ∧
      revisionOf intent ≤ fence.revision := by
  cases begun with
  | settings instanceId wrote checked new idle newer =>
    have value := (Settings.check_identity checked).1
    subst value
    exact ⟨_, Table.lookup_put_self _ _ _, Int.le_refl _⟩

theorem fenced_step {past events : List Event} {n m : Node} (fenced : Fenced past n)
    (step : Transition p n events m) : Fenced (past ++ events) m := by
  cases step with
  | tickets | mark =>
    rw [List.append_nil]
    exact fenced.mono (Journal.Extends.refl _)
  | quiet enabled file change =>
    rw [List.append_nil]
    exact fenced.mono change.toExtends
  | start enabled file begun =>
    rw [List.append_nil]
    exact fenced.mono begun.grows
  | @invoke invocation journal enabled file begun =>
    have old := fenced.mono (m := { n with journal }) begun.grows
    intro e member intent wrote change
    rcases List.mem_append.mp member with ran | now
    · exact old e ran intent wrote change
    · rw [List.mem_singleton] at now
      subst now
      cases change
      exact begin_fenced begun
  | script enabled name args =>
    intro e member intent wrote change
    rcases List.mem_append.mp member with ran | now
    · exact fenced e ran intent wrote change
    · rw [List.mem_singleton] at now
      subst now
      cases change

theorem history_fenced (p : Platform) (calls : List Call) :
    Fenced (Agent.history p calls) (Agent.after p calls) := by
  have start : Fenced [] Node.fresh := by
    intro e ran
    cases ran
  exact Steps.history (fun fenced step => fenced_step fenced step) start (Agent.after_steps p calls)

private theorem written_free {invocation : Invocation} (free : invocation.settingsFree = true) :
    written invocation = none := by
  cases invocation <;> first | rfl | cases free

/-- A revision that reached node.env: a carried one, or a settings change's. -/
private theorem written_cases {invocation : Invocation} {r : Int} (wrote : written invocation = some r)
    (carries : ∀ action id intent, invocation = .operation action id intent true →
      settingsActions.contains action = true) :
    carried invocation = some r ∨ ∃ intent, invocation = .settings intent true ∧ r = revisionOf intent := by
  cases invocation with
  | profile | script => cases wrote
  | settings intent reached =>
    cases reached with
    | false => cases wrote
    | true => exact .inr ⟨intent, rfl, (Option.some.inj wrote).symm⟩
  | operation action id intent reached =>
    cases reached with
    | false => cases wrote
    | true =>
      have settings := carries action id intent rfl
      exact .inl (by rw [carried, if_pos settings]; exact wrote)

/-- Only an operation on the settings path writes node.env. -/
def Carries (past : List Event) : Prop :=
  ∀ e ∈ past, ∀ action id intent, e.invocation = .operation action id intent true →
    settingsActions.contains action = true

theorem history_carries (p : Platform) (calls : List Call) : Carries (Agent.history p calls) := by
  have step : ∀ {past : List Event} {n : Node} {events : List Event} {m : Node}, Carries past →
      Transition p n events m → Carries (past ++ events) := by
    intro past n events m carries step e member action id intent operation
    rcases List.mem_append.mp member with ran | now
    · exact carries e ran action id intent operation
    · cases step with
      | tickets | quiet | start | mark => cases now
      | script =>
        rw [List.mem_singleton] at now
        subst now
        cases operation
      | invoke enabled file begun =>
        rw [List.mem_singleton] at now
        subst now
        cases operation
        cases begun with
        | operation instanceId wrote carries => exact carries rfl
  have start : Carries [] := by
    intro e ran
    cases ran
  exact @Steps.history Node Event (Transition p) _ _ _ (fun past _ => Carries past) step [] start
    (Agent.after_steps p calls)

/-- The new write of a call in order is at or above every earlier one. -/
theorem exec_above {calls : List Call} {call : Call}
    (ordered : InOrder (Agent.history p calls) (Agent.after p calls) call) {e : Event}
    (member : e ∈ (Agent.exec p (Agent.after p calls) call).2) {r : Int}
    (wrote : written e.invocation = some r) :
    ∀ f ∈ Agent.history p calls, ∀ s, written f.invocation = some s → s ≤ r := by
  intro f ran s earlier
  have fenced := history_fenced p calls
  have past := written_cases earlier (history_carries p calls f ran)
  cases kind : call.settings with
  | false =>
    rw [written_free (Agent.exec_free _ kind e member)] at wrote
    cases wrote
  | true =>
    cases call with
    | applySettings intent instanceId outcome reached =>
      have started : (SettingsJournal.apply p intent instanceId outcome reached
          (Agent.after p calls)).events ≠ [] := List.ne_nil_of_mem member
      obtain ⟨settings, checked, _, begun, same⟩ := SettingsJournal.apply_started started
      change e ∈ (SettingsJournal.apply p intent instanceId outcome reached _).events at member
      rw [same] at member
      rw [attempt_events member] at wrote
      have revision : r = revisionOf intent := by
        cases reached' : outcome.wrote reached with
        | false => simp [written, reached'] at wrote
        | true => simpa [written, reached', eq_comm] using wrote
      generalize SettingsJournal.start p settings instanceId _ = k at begun
      cases begun with
      | @settings _ other instanceId wrote checked' new idle newer =>
        have one : other = settings := Except.ok.inj (checked'.symm.trans checked)
        subst one
        obtain ⟨value, identity, _⟩ := Settings.check_identity checked
        have fresh : ∀ id, (intent.field "command_id").asStr = some id →
            (Agent.after p calls).journal.commands.lookup id = none := by
          intro id named
          have same : other.commandId = id := Option.some.inj (identity.symm.trans named)
          exact same ▸ new
        rw [revision]
        rcases past with carries | ⟨change, settings, rfl⟩
        · exact ordered fresh f ran s (.inl carries)
        · by_cases node : nodeOf change = nodeOf intent
          · obtain ⟨fence, found, below⟩ := fenced f ran change true settings
            have key : other.nodeKey = nodeOf intent := by rw [← value]; rfl
            have above := newer fence (by rw [key, ← node]; exact found)
            have carried : other.revision = revisionOf intent := by rw [← value]; rfl
            omega
          · exact ordered fresh f ran _ (.inr (by simp [settings, foreign, node]))
    | operation owner instanceId requested id intent recover outcome reached =>
      have started : (Operation.command p owner instanceId requested id intent recover outcome reached
          (Agent.after p calls)).events ≠ [] := List.ne_nil_of_mem member
      obtain ⟨plain, checked, new, same⟩ := Operation.command_started started
      change e ∈ (Operation.command p owner instanceId requested id intent recover outcome
        reached _).events at member
      rw [same] at member
      rw [attempt_events member] at wrote
      have facts : settingsActions.contains requested = true ∧ r = revisionOf intent := by
        cases reached' : settingsActions.contains requested && outcome.wrote reached with
        | false => simp only [written, reached'] at wrote; cases wrote
        | true =>
          simp only [written, reached', Option.some.injEq] at wrote
          exact ⟨(Bool.and_eq_true_iff.mp reached').1, wrote.symm⟩
      obtain ⟨fences, operations⟩ := ordered facts.1 new
      rw [facts.2]
      rcases past with carries | ⟨change, settings, rfl⟩
      · exact operations f ran s carries
      · obtain ⟨fence, found, below⟩ := fenced f ran change true settings
        have above := fences _ fence found
        omega
    | _ => cases kind

/-- A call starts at most one runner on the settings path. -/
private theorem exec_single (n : Node) (call : Call) :
    ((Agent.exec p n call).2.filterMap fun e => written e.invocation).Pairwise (· ≤ ·) := by
  have short {ρ ε α : Type} (started : Node) (invocation : Invocation) (outcome : Outcome ρ)
      (failed : String → ε) (close : ρ → Except ε (Journal × α)) :
      ((attempt started invocation outcome failed close).events.filterMap fun e =>
        written e.invocation).Pairwise (· ≤ ·) := by
    obtain ⟨_, events⟩ | ⟨_, events⟩ | ⟨_, _, _, _, _, events, _⟩ :=
      attempt_cases started invocation outcome failed close
    all_goals
      rw [events]
      cases wrote : written invocation <;> simp [wrote]
  cases kind : call.settings with
  | false =>
    have nothing : ((Agent.exec p n call).2.filterMap fun e => written e.invocation) = [] := by
      rw [List.filterMap_eq_nil_iff]
      intro e member
      exact written_free (Agent.exec_free n kind e member)
    rw [nothing]
    exact List.Pairwise.nil
  | true =>
    cases call with
    | applySettings intent instanceId outcome reached =>
      change ((SettingsJournal.apply p intent instanceId outcome reached n).events.filterMap
        _).Pairwise _
      by_cases started : (SettingsJournal.apply p intent instanceId outcome reached n).events = []
      · rw [started]
        exact List.Pairwise.nil
      · obtain ⟨_, _, _, _, same⟩ := SettingsJournal.apply_started started
        rw [same]
        exact short _ _ _ _ _
    | operation owner instanceId requested id intent recover outcome reached =>
      change ((Operation.command p owner instanceId requested id intent recover outcome reached
        n).events.filterMap _).Pairwise _
      by_cases started : (Operation.command p owner instanceId requested id intent recover outcome
          reached n).events = []
      · rw [started]
        exact List.Pairwise.nil
      · obtain ⟨_, _, _, same⟩ := Operation.command_started started
        rw [same]
        exact short _ _ _ _ _
    | _ => cases kind

/-- A run whose calls arrive in order writes node.env in the order of its revisions. -/
theorem writes_in_order (p : Platform) (calls : List Call) (ordered : RunsInOrder p calls) :
    ((Agent.history p calls).filterMap fun e => written e.invocation).Pairwise (· ≤ ·) := by
  induction calls using List.reverseRecOn with
  | nil => exact List.Pairwise.nil
  | append_singleton calls call ih =>
    have one : Agent.history p (calls ++ [call]) =
        Agent.history p calls ++ (Agent.exec p (Agent.after p calls) call).2 := by
      simp [Agent.history, Agent.after, run_append, run]
    have before : RunsInOrder p calls := by
      intro first c later split
      exact ordered first c (later ++ [call]) (by simp [split])
    rw [one, List.filterMap_append]
    refine List.pairwise_append.mpr ⟨ih before, exec_single _ call, ?_⟩
    intro s earlier r new
    obtain ⟨f, ran, wrote⟩ := List.mem_filterMap.mp earlier
    obtain ⟨e, member, wrote'⟩ := List.mem_filterMap.mp new
    exact exec_above (ordered calls call [] rfl) member wrote' f ran s wrote

def sampleChange : Call :=
  .applySettings sampleSettings "agent-1" (.done ⟨"OK", canonical sampleReport⟩) false

/-- Settings at revision 5, then a repair of node.env at `revision`. -/
def sampleCalls (revision : Int) : List Call :=
  [sampleChange,
    .operation (.ok "node-1") "agent-1" "sync_env" "sync-1" (sampleSync revision) false
      (.done (.obj [])) false]

private theorem sample_writes :
    (Agent.after Platform.sample [sampleChange]).journal.settingsFence.rows =
        [("node-1", ⟨5, "settings-1"⟩)] ∧
      (Agent.history Platform.sample [sampleChange]).map (fun e => carried e.invocation) = [none] ∧
      ((Agent.history Platform.sample (sampleCalls 7)).filterMap fun e => written e.invocation) =
        [5, 7] ∧
      ((Agent.history Platform.sample (sampleCalls 3)).filterMap fun e => written e.invocation) =
        [5, 3] := by
  decide +kernel

private theorem sample_in_order : RunsInOrder Platform.sample (sampleCalls 7) := by
  intro before call later split
  match before, split with
  | [], split =>
    cases split
    intro _ e ran
    cases ran
  | [first], split =>
    cases split
    intro _ _
    refine ⟨fun node fence found => ?_, fun e ran r wrote => ?_⟩
    · have member : (node, fence) ∈
          (Agent.after Platform.sample [sampleChange]).journal.settingsFence.rows :=
        Table.mem_rows_iff.mpr found
      rw [sample_writes.1, List.mem_singleton] at member
      cases member
      decide
    · have member : carried e.invocation ∈ (Agent.history Platform.sample [sampleChange]).map
          (fun e => carried e.invocation) := List.mem_map_of_mem ran
      rw [sample_writes.2.1, List.mem_singleton, wrote] at member
      cases member
  | _ :: _ :: rest, split => simp [sampleCalls] at split

/-- A settings change and a later repair of node.env, in order. -/
theorem writes_in_order_sample :
    ((Agent.history Platform.sample (sampleCalls 7)).filterMap fun e => written e.invocation) = [5, 7] ∧
      ((Agent.history Platform.sample (sampleCalls 7)).filterMap fun e =>
        written e.invocation).Pairwise (· ≤ ·) :=
  ⟨sample_writes.2.2.1, writes_in_order Platform.sample (sampleCalls 7) sample_in_order⟩

/-- A delayed repair of node.env writes settings older than those already there. -/
theorem stale_operation_written : ¬∀ (p : Platform) (calls : List Call),
    ((Agent.history p calls).filterMap fun e => written e.invocation).Pairwise (· ≤ ·) := by
  intro ordered
  have stale := ordered Platform.sample (sampleCalls 3)
  rw [sample_writes.2.2.2] at stale
  revert stale
  decide

end SettingsOrder
end NodePlane
