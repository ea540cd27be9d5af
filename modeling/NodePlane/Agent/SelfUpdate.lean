import Mathlib.Algebra.Group.Nat.Defs
import Mathlib.Logic.Function.Basic
import Mathlib.Data.Nat.Basic
import Mathlib.Data.List.Basic

/-! The agent's self-update: the swap of the binary, the pending marker, the confirmation by the
started agent and the delayed guards that put the previous binary back. -/
namespace NodePlane
namespace Update

/-! Versions. -/

def parseNumber (text : List Char) : Option ℕ :=
  if text.isEmpty || !text.all Char.isDigit then none
  else
    let number := text.foldl (fun n c => 10 * n + (c.toNat - '0'.toNat)) 0
    if number < 2 ^ 64 then some number else none

structure Version where
  core : List ℕ
  pre : Option (List (List Char))
  deriving DecidableEq, Repr

/-- `parse_version`. -/
def parseVersion (text : String) : Option Version := do
  let chars := text.toList
  let core := chars.takeWhile (· ≠ '-')
  let parts := core.splitOn '.'
  let numbers ← parts.mapM parseNumber
  if numbers.length ≠ 3 then none
  else if core.length = chars.length then some ⟨numbers, none⟩
  else
    let ids := (chars.drop (core.length + 1)).splitOn '.'
    if ids.any fun id => id.isEmpty || !id.all Char.isAlphanum then none
    else some ⟨numbers, some ids⟩

def validVersion (text : String) : Bool := (parseVersion text).isSome

def compareIds : List (List Char) → List (List Char) → Ordering
  | a :: left, b :: right =>
    let order := match parseNumber a, parseNumber b with
      | some m, some n => Ord.compare m n
      | some _, none => .lt
      | none, some _ => .gt
      | none, none => Ord.compare (a.map Char.toNat) (b.map Char.toNat)
    if order = .eq then compareIds left right else order
  | [], _ :: _ => .lt
  | _ :: _, [] => .gt
  | [], [] => .eq

/-- Semantic version order; a pre-release sorts before its release. -/
def compareVersions (left right : String) : Option Ordering := do
  let left ← parseVersion left
  let right ← parseVersion right
  let core := Ord.compare left.core right.core
  if core ≠ .eq then some core
  else
    match left.pre, right.pre with
    | none, none => some .eq
    | none, some _ => some .gt
    | some _, none => some .lt
    | some left, some right => some (compareIds left right)

/-- `valid_base`. -/
def validBase (base : String) : Bool :=
  let chars := base.toList
  ("https://".toList.isPrefixOf chars || "http://".toList.isPrefixOf chars) &&
    base.utf8ByteSize ≤ 512 && chars.getLast? ≠ some '/' &&
    chars.all fun c => 33 ≤ c.toNat && c.toNat ≤ 126 &&
      ¬c.toNat ∈ [34, 36, 39, 92, 96]

/-! Files and processes. -/

/-- A binary by the version it reports; `attempt` tells which update's it is, 0 the first one. -/
structure Image where
  version : String
  attempt : ℕ
  deriving DecidableEq, Repr

/-- The line of the pending marker, and which update wrote it. -/
structure Marker where
  line : String
  attempt : ℕ
  deriving DecidableEq, Repr

/-- Where an `update` call stands: its checks passed and the new binary is being prepared, then
the steps of `activate`. -/
inductive Phase
  | preparing | saved | marked | scheduled | unmarking
  deriving DecidableEq, Repr

structure Updater where
  version : String
  phase : Phase
  deriving DecidableEq, Repr

def Updater.activating (updater : Updater) : Bool := updater.phase ≠ .preparing

/-- A guard: its timer runs, or it has read the marker and works on it. -/
inductive Guard
  | armed
  | restoring (version : String)
  | noting (version : String)
  | clearing (version : String)
  deriving DecidableEq, Repr

/-- A started agent's way through `confirm`. -/
inductive Confirm
  | started | matched | cleared | served
  deriving DecidableEq, Repr

structure Agent where
  image : Image
  confirm : Confirm
  deriving DecidableEq, Repr

/-- Updates and their guards go by the number of the update. -/
structure Host where
  binary : Image
  previous : Option Image
  pending : Option Marker
  rolledBack : Option String
  updaters : ℕ → Option Updater
  guards : ℕ → Option Guard
  agent : Option Agent
  next : ℕ
  /-- Updates that confirmed themselves. -/
  confirmed : List ℕ
  /-- Which guard put the previous binary back over which update. -/
  rolled : List (ℕ × ℕ)

/-- The installed agent before any update. -/
def Host.fresh (version : String) (rolledBack : Option String) : Host where
  binary := ⟨version, 0⟩
  previous := none
  pending := none
  rolledBack := rolledBack
  updaters := fun _ => none
  guards := fun _ => none
  agent := none
  next := 1
  confirmed := [0]
  rolled := []

/-- `read_line`. -/
def readLine (line : Option String) : Option String := line.filter (· ≠ "")

inductive Outcome
  | current | updating
  deriving DecidableEq, Repr

/-- The checks of `update` before it fetches anything; `keyed` and `staged` tell whether there is
a release key and whether the stage could be made. -/
def Host.check (host : Host) (own base version : String) (keyed staged : Bool) : Except String Outcome :=
  if ¬validBase base ∨ ¬validVersion version then .error "agent_update_invalid"
  else
    match compareVersions version own with
    | none => .error "agent_update_version_unknown"
    | some .eq => .ok .current
    | some .lt => .error "agent_update_downgrade"
    | some .gt =>
      if ¬keyed then .error "agent_update_key_missing"
      else if ¬staged then .error "agent_update_stage"
      else if host.pending.isSome then .error "agent_update_in_progress"
      else if readLine host.rolledBack = some version then .error "agent_update_rolled_back"
      else .ok .updating

/-- One file operation or one process starting or ending. An operation that is told to fail leaves
the files as they are, but for a marker that was written in part. -/
inductive Event
  /-- `update`, asked of an agent or a command line of version `own`. -/
  | begin (own base version : String) (keyed staged : Bool)
  /-- `clear_rolled_back`. -/
  | retry
  | save (update : ℕ) (ok : Bool)
  | mark (update : ℕ)
  | markFails (update : ℕ) (left : Option String)
  | schedule (update : ℕ) (ok : Bool)
  | install (update : ℕ) (ok : Bool)
  | unmark (update : ℕ) (ok : Bool)
  /-- The updating process ends, or its preparation fails. -/
  | stop (update : ℕ)
  | start
  | stopAgent
  | readPending (ok : Bool)
  | forgetRolledBack (ok : Bool)
  | removePending (ok : Bool)
  | guardRead (update : ℕ) (ok : Bool)
  | guardRestore (update : ℕ) (ok : Bool)
  | guardNote (update : ℕ) (ok : Bool)
  | guardClear (update : ℕ) (ok : Bool)
  deriving DecidableEq, Repr

namespace Host

def setUpdater (host : Host) (update : ℕ) (updater : Option Updater) : Host :=
  { host with updaters := Function.update host.updaters update updater }

def setGuard (host : Host) (update : ℕ) (guard : Option Guard) : Host :=
  { host with guards := Function.update host.guards update guard }

def setConfirm (host : Host) (agent : Agent) (confirm : Confirm) : Host :=
  { host with agent := some { agent with confirm := confirm } }

/-- `activate`, step by step. -/
def activate (host : Host) (update : ℕ) (updater : Updater) (event : Event) : Host :=
  match updater.phase, event with
  | .preparing, .save _ ok =>
    if ok then
      let host := host.setUpdater update (some { updater with phase := .saved })
      { host with previous := some host.binary }
    else host.setUpdater update none
  | .saved, .mark _ =>
    let host := host.setUpdater update (some { updater with phase := .marked })
    { host with pending := some ⟨updater.version, update⟩ }
  | .saved, .markFails _ left =>
    let host := host.setUpdater update none
    match left with
    | none => host
    | some line => { host with pending := some ⟨line, update⟩ }
  | .marked, .schedule _ ok =>
    if ok then
      let host := host.setUpdater update (some { updater with phase := .scheduled })
      host.setGuard update (some .armed)
    else host.setUpdater update (some { updater with phase := .unmarking })
  | .scheduled, .install _ ok =>
    if ok then
      let host := host.setUpdater update none
      { host with binary := ⟨updater.version, update⟩ }
    else host.setUpdater update (some { updater with phase := .unmarking })
  -- `let _ = fs::remove_file(&pending)`.
  | .unmarking, .unmark _ ok =>
    let host := host.setUpdater update none
    if ok then { host with pending := none } else host
  | _, _ => host

/-- `guard`, step by step. -/
def guardStep (host : Host) (update : ℕ) (guard : Guard) (event : Event) : Host :=
  match guard, event with
  | .armed, .guardRead _ ok =>
    match if ok then readLine (host.pending.map Marker.line) else none with
    | none => host.setGuard update none
    | some version => host.setGuard update (some (.restoring version))
  | .restoring version, .guardRestore _ ok =>
    match host.previous with
    | none => host.setGuard update none
    | some previous =>
      if ok then
        let rolled := if host.binary = previous then host.rolled
          else (update, host.binary.attempt) :: host.rolled
        let host := host.setGuard update (some (.noting version))
        { host with binary := previous, rolled := rolled }
      else host.setGuard update none
  | .noting version, .guardNote _ ok =>
    if ok then
      let host := host.setGuard update (some (.clearing version))
      { host with rolledBack := some version }
    else host.setGuard update none
  | .clearing _, .guardClear _ ok =>
    let host := host.setGuard update none
    if ok then { host with pending := none } else host
  | _, _ => host

/-- `confirm`, step by step. -/
def confirmStep (host : Host) (agent : Agent) (event : Event) : Host :=
  match agent.confirm, event with
  | .started, .readPending ok =>
    if ok ∧ readLine (host.pending.map Marker.line) = some agent.image.version then
      host.setConfirm agent .matched
    else host.setConfirm agent .served
  | .matched, .forgetRolledBack ok =>
    let host := host.setConfirm agent .cleared
    if ok then { host with rolledBack := none } else host
  | .cleared, .removePending ok =>
    let host := host.setConfirm agent .served
    if ok ∧ host.pending.isSome then
      { host with pending := none, confirmed := agent.image.attempt :: host.confirmed }
    else host
  | _, _ => host

def step (host : Host) (event : Event) : Host :=
  match event with
  | .begin own base version keyed staged =>
    match host.check own base version keyed staged with
    | .ok .updating =>
      let host' := host.setUpdater host.next (some ⟨version, .preparing⟩)
      { host' with next := host.next + 1 }
    | _ => host
  | .retry => { host with rolledBack := none }
  | .save update _ | .mark update | .markFails update _ | .schedule update _ | .install update _
  | .unmark update _ =>
    match host.updaters update with
    | none => host
    | some updater => host.activate update updater event
  | .stop update => host.setUpdater update none
  | .start => { host with agent := some ⟨host.binary, .started⟩ }
  | .stopAgent => { host with agent := none }
  | .readPending _ | .forgetRolledBack _ | .removePending _ =>
    match host.agent with
    | none => host
    | some agent => host.confirmStep agent event
  | .guardRead update _ | .guardRestore update _ | .guardNote update _ | .guardClear update _ =>
    match host.guards update with
    | none => host
    | some guard => host.guardStep update guard event

def run (host : Host) (events : List Event) : Host := events.foldl step host

end Host
end Update
end NodePlane
