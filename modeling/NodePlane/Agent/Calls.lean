import NodePlane.Agent.Refinement.Operation
import NodePlane.Agent.Refinement.Revocation

/-! Runs of the agent: any sequence of calls from an empty journal, each under the
journal's lock. -/
namespace NodePlane
open Library

/-- A call of the agent, with what the host and the clock answer it. The `view`s
are the states that reads outside the lock saw. -/
inductive Call where
  | applyProfile (intent : Intent) (instanceId : String) (clock : Profile.Clock)
      (runner : Intent → Outcome Response)
  | resolveProfile (intent : Intent) (instanceId : String) (inspection : Except String Json)
      (now : Int)
  | applySettings (intent : Json) (instanceId : String) (outcome : Outcome Response)
      (reached : Bool)
  | resolveSettings (intent : Json) (instanceId : String) (inspection : Except String Json)
      (now : Int)
  | operation (owner : Except String String) (instanceId requested commandId : String)
      (intent : Json) (recover : Bool) (outcome : Outcome Json) (reached : Bool)
  | temporary (view : Node) (instanceId action commandId : String) (value : Json)
      (recover : Bool) (clock : Profile.Clock) (t : Temporary)
  | expire (instanceId : String) (now : Int) (runner : Intent → Outcome Response)
  | supervise (protocol : String) (now : Int) (stopped : Bool)
  | forcePrepare (spec : Json) (instanceId : String) (view : Journal) (stopped : Bool)
  | forceRetire (spec : Json) (instanceId : String) (free : Bool)
  | decommission (command instanceId : String) (runner : Option (Intent → Outcome Response))
      (persisted : Bool)
  | legacy (script : String) (args : List String) (outcome : Outcome String)
  | uninstall

/-! Values that example runs use: a temporary grant and its delete, a permanent
identity, node settings and operations. -/

def sampleGrant : Intent :=
  ⟨"grant-1", "awg", "tmp_0123456789abcdef0123456789abcdef", 1, "ensure", "", "", some 43200⟩

def sampleDelete : Intent :=
  ⟨"delete-1", "awg", "tmp_0123456789abcdef0123456789abcdef", 2, "delete", "", "", none⟩

def sampleEnsure : Intent := ⟨"ensure-1", "awg", "alice", 1, "ensure", "", "", none⟩

def sampleValues : Json :=
  .obj [("awg_port", .int 443), ("public_host", .str "vpn.example.com")]

def sampleSettings : Json :=
  .obj [("command_id", .str "settings-1"), ("kind", .str "node_settings"),
    ("node_key", .str "node-1"), ("protocols", .arr [.str "awg"]), ("revision", .int 5),
    ("settings", sampleValues)]

/-- What the settings runner reports. -/
def sampleReport : Json :=
  .obj [("node_key", .str "node-1"), ("revision", .int 5), ("settings_sha256",
    .str "d165082e63dc63ea7e7bd9fb3d415de91757e7f36d232d44f2dacfc8b74ee379")]

def sampleSync (revision : Int) : Json :=
  .obj [("command_id", .str "sync-1"), ("node_key", .str "node-1"),
    ("protocols", .arr [.str "awg"]), ("revision", .int revision), ("settings", sampleValues)]

def sampleCleanup : Json :=
  .obj [("command_id", .str "cleanup-1"), ("node_key", .str "node-1"), ("protocols", .arr []),
    ("revision", .int 1), ("settings", .obj [])]

namespace Platform

/-- The digests of the texts these runs hash. -/
def sampleDigests : List (String × String) :=
  let operation (action : String) (intent : Json) : String :=
    sortedDumps (.obj [("action", .str action), ("intent", intent)])
  [("grant-1", "00d1c1c9f0bcc58c43e6d0b1c69ce3c8250dd42a15f9127dc42eb95303c4bec6"),
    (canonical sampleGrant.toValue,
      "925fcc31ac289c19894c37ab6d747ecdf606a4db8420f36c1bf0755cd7cd623a"),
    (canonical sampleDelete.toValue,
      "e25e160212a5af00a45b11e47a696c5f127d74ba1bf4e8e8bddfde00d2731ed4"),
    (canonical sampleEnsure.toValue,
      "2669fbb914208bf2131f78066584080031e90d76c7450808f8fe5a83f0d83c4d"),
    (canonical sampleSettings,
      "0c29bee12c793ee89d5ee7eac0a0281dac8cbf9965519d9deb6922abea2b1fd8"),
    (canonical (.obj [("protocols", .arr [.str "awg"]), ("settings", sampleValues)]),
      "d165082e63dc63ea7e7bd9fb3d415de91757e7f36d232d44f2dacfc8b74ee379"),
    (operation "sync_env" (sampleSync 3),
      "f2861df0a6094e6f2cc87d8b908622bca701c29377f76fc19dab4f9229e5762e"),
    (operation "sync_env" (sampleSync 7),
      "48e4769350f3936ed558dc3d0868d5cf130bca633d664e31825ba2ac3f177553"),
    (operation "cleanup_runtime" sampleCleanup,
      "93539bb16dcf69f8b645b42e7a213ebe4e63a492def736a8086e94aeff9449ef"),
    (canonical (deleteIntent "0123abcd-4567-89ab-cdef-0123456789ab:awg:alice"
        sampleEnsure.target 1).toValue,
      "6553b82f66111939b440b76ea467aa734665880e8f9ef9c52544275f9f5e7c11"),
    (canonical (deleteIntent
        "expiry:00d1c1c9f0bcc58c43e6d0b1c69ce3c8250dd42a15f9127dc42eb95303c4bec6"
        sampleGrant.target 1).toValue,
      "598a8982d50510472ba09f9154707dde81eb4744d9c50b7396bc32eb785c0e79")]

/-- A host on these values. -/
def sample : Platform where
  sha256Hex text := (sampleDigests.lookup text).getD ""
  fromStr text := if text = canonical sampleReport then some sampleReport else none
  toText := canonical
  timestamp micros := if micros = 43200000000 then "1970-01-01T12:00:00.000000+00:00" else ""
  awgProfile _ := true

end Platform

/-- The state and the runner starts a call leaves. -/
def Ran.trace {ε α : Type} (ran : Ran ε α) : Node × List Event := (ran.node, ran.events)

namespace Agent

def exec (p : Platform) (n : Node) : Call → Node × List Event
  | .applyProfile intent instanceId clock runner =>
    (Profile.apply p intent instanceId clock runner n).trace
  | .resolveProfile intent instanceId inspection now =>
    (Profile.resolveInterrupted p intent instanceId inspection now n).trace
  | .applySettings intent instanceId outcome reached =>
    (SettingsJournal.apply p intent instanceId outcome reached n).trace
  | .resolveSettings intent instanceId inspection now =>
    (SettingsJournal.resolve p intent instanceId inspection now n).trace
  | .operation owner instanceId requested commandId intent recover outcome reached =>
    (Operation.command p owner instanceId requested commandId intent recover outcome reached n).trace
  | .temporary view instanceId action commandId value recover clock t =>
    (Temporary.temporary p view instanceId action commandId value recover clock t n).trace
  | .expire instanceId now runner => (Expiry.expire p instanceId now runner n).trace
  | .supervise protocol now stopped => (Supervisor.supervise protocol now stopped n).trace
  | .forcePrepare spec instanceId view stopped =>
    match Force.check p spec with
    | .error _ => (n, [])
    | .ok spec => (Force.prepare spec instanceId view stopped n).trace
  | .forceRetire spec instanceId free =>
    match Force.check p spec with
    | .error _ => (n, [])
    | .ok spec => (Force.retire spec instanceId free n).trace
  | .decommission command instanceId runner persisted =>
    (Decommission.prepare p command instanceId runner persisted n).trace
  | .legacy script args outcome => (Legacy.run script args outcome n).trace
  | .uninstall => (Legacy.uninstall n).trace

/-- The agent after `calls`, from an empty journal. -/
def after (p : Platform) (calls : List Call) : Node := (run (exec p) Node.fresh calls).1

/-- The runners the calls started, oldest first. -/
def history (p : Platform) (calls : List Call) : List Event := (run (exec p) Node.fresh calls).2

/-- Every call is a run of transitions. -/
theorem exec_steps (p : Platform) (n : Node) (call : Call) :
    Steps (Transition p) n (exec p n call).2 (exec p n call).1 := by
  cases call with
  | applyProfile => exact Profile.apply_covers _ _ _ _ n
  | resolveProfile => exact Profile.resolveInterrupted_covers _ _ _ _ n
  | applySettings => exact SettingsJournal.apply_covers _ _ _ _ n
  | resolveSettings => exact SettingsJournal.resolve_covers _ _ _ _ n
  | operation => exact Operation.command_covers _ _ _ _ _ _ _ _ n
  | temporary => exact Temporary.temporary_covers _ _ _ _ _ _ _ _ n
  | expire => exact Expiry.expire_covers _ _ _ n
  | supervise => exact Supervisor.supervise_covers _ _ _ n
  | forcePrepare spec =>
    dsimp only [exec]
    split
    · exact Steps.refl n
    · exact Force.prepare_covers _ _ _ _ n
  | forceRetire spec =>
    dsimp only [exec]
    split
    · exact Steps.refl n
    · exact Force.retire_covers _ _ _ n
  | decommission => exact Decommission.prepare_covers _ _ _ _ n
  | legacy => exact Legacy.run_covers _ _ _ n
  | uninstall => exact Legacy.uninstall_covers n

theorem after_steps (p : Platform) (calls : List Call) :
    Steps (Transition p) Node.fresh (history p calls) (after p calls) :=
  run_steps (exec_steps p) Node.fresh calls

/-- What later calls do is a run of transitions from the state before them. -/
theorem continue_steps (p : Platform) (before later : List Call) :
    ∃ events, history p (before ++ later) = history p before ++ events ∧
      Steps (Transition p) (after p before) events (after p (before ++ later)) := by
  refine ⟨(run (exec p) (after p before) later).2, ?_, ?_⟩
  · simp [history, after, run_append]
  · have last : after p (before ++ later) = (run (exec p) (after p before) later).1 := by
      simp [after, run_append]
    rw [last]
    exact run_steps (exec_steps p) _ later

/-- The rows only grow over any run. -/
theorem extends_steps {p : Platform} {n m : Node} {events : List Event}
    (steps : Steps (Transition p) n events m) : n.journal.Extends m.journal := by
  induction steps with
  | refl n => exact Journal.Extends.refl n.journal
  | head step _ ih =>
    refine Journal.Extends.trans ?_ ih
    cases step with
    | tickets | script | mark => exact Journal.Extends.refl _
    | quiet enabled file change => exact change.toExtends
    | start enabled file begun | invoke enabled file begun => exact begun.grows

end Agent
end NodePlane
