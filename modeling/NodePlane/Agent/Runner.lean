import NodePlane.Agent.Intent

/-! Runner invocations: what one call hands to the node's mutation scripts, and
the points at which the process may stop around them. -/
namespace NodePlane

/-- How a runner ends for the call that started it: the process may stop after
the commit that precedes the runner, or before the result is recorded. -/
inductive Outcome (ρ : Type) where
  | stoppedBefore
  | stopped
  | failed (err : String)
  | done (result : ρ)

/-- A settings runner succeeds only after it rewrote node.env; one that fails or
stops may have, as `reached` tells. -/
def Outcome.wrote (reached : Bool) : Outcome ρ → Bool
  | .stoppedBefore => false
  | .stopped | .failed _ => reached
  | .done _ => true

/-- Why a profile mutation runs: a new command, the retry of a delete left
running, a lease's local expiry, or a decommission. -/
inductive Origin where
  | command | retry | expiry | decommission
  deriving DecidableEq

/-- The body of a command: profile and settings intents are hashed in the compact
form, node operations with their action in the spaced one. -/
inductive Payload where
  | intent (value : Json)
  | operation (value : Json)

namespace Payload

def text : Payload → String
  | intent value => canonical value
  | operation value => sortedDumps value

/-- The body names `id` as its command. -/
def Names (id : String) : Payload → Prop
  | intent value => (value.field "command_id").asStr = some id
  | operation value => ((value.field "intent").field "command_id").asStr = some id

private theorem members {value : Json} {key : String} {id : String}
    (named : (value.field key).asStr = some id) : ∃ m ms, value = .obj (m :: ms) := by
  cases value with
  | obj members =>
    cases members with
    | nil => cases named
    | cons m ms => exact ⟨m, ms, rfl⟩
  | _ => cases named

theorem text_injective {id other : String} {v w : Payload} (named : v.Names id)
    (named' : w.Names other) (same : v.text = w.text) : v = w := by
  cases v with
  | intent v =>
    cases w with
    | intent w => rw [canonical_injective same]
    | operation w =>
      obtain ⟨m, ms, rfl⟩ := members named
      exact absurd same canonical_ne_sortedDumps
  | operation v =>
    cases w with
    | intent w =>
      obtain ⟨m, ms, rfl⟩ := members named'
      exact absurd same.symm canonical_ne_sortedDumps
    | operation w => rw [sortedDumps_injective same]

end Payload

/-- What a runner was asked to do; `wrote` tells whether it got as far as
rewriting node.env. -/
inductive Invocation where
  | profile (origin : Origin) (intent : Intent)
  | settings (intent : Json) (wrote : Bool)
  | operation (action commandId : String) (intent : Json) (wrote : Bool)
  | script (name : String) (args : List String)

namespace Invocation

def commandId : Invocation → Option String
  | profile _ intent => some intent.commandId
  | settings intent _ => (intent.field "command_id").asStr
  | operation _ id _ _ => some id
  | script _ _ => none

/-- What its command's fingerprint hashes. -/
def payload : Invocation → Option Payload
  | profile _ intent => some (.intent intent.toValue)
  | settings intent _ => some (.intent intent)
  | operation action _ intent _ =>
    some (.operation (Json.object [("action", .str action), ("intent", intent)]))
  | script _ _ => none

/-- The profile mutation, if it is one. -/
def mutation : Invocation → Option (Origin × Intent)
  | profile origin intent => some (origin, intent)
  | _ => none

/-- Neither a settings change nor a node operation. -/
def settingsFree : Invocation → Bool
  | profile _ _ | script _ _ => true
  | settings _ _ | operation _ _ _ _ => false

/-- The command of a mutation that must not run twice: an ensure, a settings change
or a node operation. -/
def once : Invocation → Option String
  | profile _ intent => if intent.ensure then some intent.commandId else none
  | settings intent _ => (intent.field "command_id").asStr
  | operation _ id _ _ => some id
  | script _ _ => none

end Invocation

/-- A runner invocation and the journal it started under. -/
structure Event where
  invocation : Invocation
  journal : Journal

/-- The state a call leaves, the runners it started, and its answer, if the
process lived to give one. -/
structure Ran (ε α : Type) where
  node : Node
  events : List Event
  answer : Option (Except ε α)

namespace Ran
variable {ε α β : Type}

/-- An answer that starts no runner. -/
def reply (node : Node) (answer : Except ε α) : Ran ε α := ⟨node, [], some answer⟩

def refuse (node : Node) (err : ε) : Ran ε α := reply node (.error err)

/-- The same call with its answer read further. -/
def bind (r : Ran ε α) (f : α → Except ε β) : Ran ε β :=
  ⟨r.node, r.events, r.answer.map (·.bind f)⟩

@[simp] theorem bind_node (r : Ran ε α) (f : α → Except ε β) : (r.bind f).node = r.node := rfl
@[simp] theorem bind_events (r : Ran ε α) (f : α → Except ε β) : (r.bind f).events = r.events := rfl
@[simp] theorem reply_node (n : Node) (a : Except ε α) : (reply n a).node = n := rfl
@[simp] theorem reply_events (n : Node) (a : Except ε α) : (reply n a).events = [] := rfl
@[simp] theorem reply_answer (n : Node) (a : Except ε α) : (reply n a).answer = some a := rfl
@[simp] theorem refuse_node (n : Node) (e : ε) : (refuse n e : Ran ε α).node = n := rfl
@[simp] theorem refuse_events (n : Node) (e : ε) : (refuse n e : Ran ε α).events = [] := rfl

end Ran

/-- Runs a mutation whose command is committed in `started`; `close` commits its
result. A failure leaves the command running. -/
def attempt (started : Node) (invocation : Invocation) (outcome : Outcome ρ)
    (failed : String → ε) (close : ρ → Except ε (Journal × α)) : Ran ε α :=
  let event : Event := ⟨invocation, started.journal⟩
  match outcome with
  | .stoppedBefore => ⟨started, [], none⟩
  | .stopped => ⟨started, [event], none⟩
  | .failed err => ⟨started, [event], some (.error (failed err))⟩
  | .done result =>
    match close result with
    | .error err => ⟨started, [event], some (.error err)⟩
    | .ok (journal, a) => ⟨{ started with journal }, [event], some (.ok a)⟩

/-- The three ways a mutation leaves the node: not started, without a recorded
result, or closed. -/
theorem attempt_cases {ρ ε α : Type} (started : Node) (invocation : Invocation)
    (outcome : Outcome ρ) (failed : String → ε) (close : ρ → Except ε (Journal × α)) :
    let ran := attempt started invocation outcome failed close
    (ran.node = started ∧ ran.events = []) ∨
      (ran.node = started ∧ ran.events = [⟨invocation, started.journal⟩]) ∨
      (∃ result journal a, close result = .ok (journal, a) ∧
        ran.node = { started with journal } ∧ ran.events = [⟨invocation, started.journal⟩] ∧
        ran.answer = some (.ok a)) := by
  cases outcome with
  | stoppedBefore => exact .inl ⟨rfl, rfl⟩
  | stopped => exact .inr (.inl ⟨rfl, rfl⟩)
  | failed err => exact .inr (.inl ⟨rfl, rfl⟩)
  | done result =>
    cases closed : close result with
    | error err => exact .inr (.inl (by simp [attempt, closed]))
    | ok pair => exact .inr (.inr ⟨result, pair.1, pair.2, closed, by simp [attempt, closed]⟩)

/-- Only a closed mutation answers with a result. -/
theorem attempt_ok {ρ ε α : Type} {started : Node} {invocation : Invocation} {outcome : Outcome ρ}
    {failed : String → ε} {close : ρ → Except ε (Journal × α)} {a : α}
    (answered : (attempt started invocation outcome failed close).answer = some (.ok a)) :
    ∃ result journal, close result = .ok (journal, a) ∧
      (attempt started invocation outcome failed close).node = { started with journal } := by
  unfold attempt at answered ⊢
  cases outcome with
  | stoppedBefore | stopped | failed => simp at answered
  | done result =>
    cases closed : close result with
    | error err => simp [closed] at answered
    | ok pair =>
      simp only [closed, Option.some.injEq, Except.ok.injEq] at answered
      exact ⟨result, pair.1, by rw [closed, ← answered], by simp [closed]⟩

end NodePlane
