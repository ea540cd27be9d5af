import NodePlane.Library.BTreeMap
import NodePlane.Xray.Api
import Mathlib.Data.List.Sort

/-! Concurrent source limit for VLESS clients. A source is a network with a recent new
connection; over the limit the source that appeared first is evicted and blocked for the
cooldown. `source_key`, with the address syntax behind it, is a parameter: a network is
its text. -/
namespace NodePlane
namespace Xray
namespace Admission
open Library

inductive Mode
  | observe
  | enforce
  deriving DecidableEq, Repr

structure Policy where
  maxSources : ℕ
  mode : Mode
  windowSeconds : ℕ
  cooldownSeconds : ℕ
  deriving DecidableEq, Repr

structure Source where
  firstSeen : ℕ
  lastSeen : ℕ
  deriving DecidableEq, Repr

structure Block where
  ruleTag : String
  expires : ℕ
  deriving DecidableEq, Repr

/-- `reported`: in observe mode, sources already reported, until when. `released`: sources
whose block ended, and when. -/
structure Client where
  sources : BTreeMap String Source
  blocks : BTreeMap String Block
  reported : BTreeMap String ℕ
  released : BTreeMap String ℕ

def Client.default : Client := ⟨∅, ∅, ∅, ∅⟩

structure State where
  clients : BTreeMap String Client
  nextRule : ℕ
  xrayUptime : Option ℕ

def State.default : State := ⟨∅, 0, none⟩

inductive Event
  | evicted (email source : String)
  | wouldEvict (email source : String)
  deriving DecidableEq, Repr

/-- Routing changes one step needs. -/
structure Changes where
  add : List (String × String × String)
  remove : List String
  events : List Event
  deriving DecidableEq, Repr

def evictPrefix : String := "np-evict-"

def evictTag (n : ℕ) : String := evictPrefix ++ toString n

/-- Every block that should exist in Xray now: client, source and block. -/
def State.blocks (state : State) : List (String × String × Block) :=
  state.clients.toList.flatMap fun client =>
    client.2.blocks.toList.map fun block => (client.1, block.1, block.2)

/-! One observation of a client, in the paragraphs of `observe`. -/

section
variable (sourceKey : String → Option String)

/-- Blocks that ended give their rules up, and their sources are released. -/
def Client.expire (client : Client) (policy : Policy) (now : ℕ) : Client × List String :=
  let ended := client.blocks.filter fun _ block => !decide (now < block.expires)
  let since := now - policy.windowSeconds
  let released := BTreeMap.upsertAll (fun _ (block : Block) _ => block.expires) client.released ended
  ({ client with
      blocks := client.blocks.filter fun _ block => decide (now < block.expires)
      released := released.filter fun _ until_ => decide (since ≤ until_)
      reported := client.reported.filter fun _ until_ => decide (now < until_) },
    ended.toList.map fun block => block.2.ruleTag)

/-- The networks with a connection in the window that count, each with its latest. -/
def Client.active (client : Client) (policy : Policy) (online : BTreeMap String Int) (now : ℕ) :
    BTreeMap String ℕ :=
  let since := now - policy.windowSeconds
  online.foldl
    (fun active ip seen =>
      let seen := seen.toNat
      match sourceKey ip with
      | none => active
      | some key =>
        if seen < since || client.blocks.contains key ||
            client.released[key]?.any fun until_ => decide (seen ≤ until_) then
          active
        else
          active.insert key (max (active[key]?.getD seen) seen))
    ∅

/-- Counted sources: those that left the window go, new ones appear now. -/
def admitSources (sources : BTreeMap String Source) (active : BTreeMap String ℕ) (now : ℕ) :
    BTreeMap String Source :=
  BTreeMap.upsertAll
    (fun _ seen source =>
      match source with
      | some source => { source with lastSeen := max source.lastSeen seen }
      | none => ⟨now, seen⟩)
    (sources.filter fun key _ => active.contains key) active

/-- `(first_seen, key)` in ascending order. -/
def older (a b : ℕ × String) : Prop := a.1 < b.1 ∨ a.1 = b.1 ∧ a.2 ≤ b.2

instance : DecidableRel older := fun a b =>
  inferInstanceAs (Decidable (a.1 < b.1 ∨ a.1 = b.1 ∧ a.2 ≤ b.2))

def evictionOrder (sources : BTreeMap String Source) : List (ℕ × String) :=
  (sources.toList.map fun source => (source.2.firstSeen, source.1)).insertionSort older

/-- What `observe` changes while it evicts. -/
structure Pass where
  client : Client
  nextRule : ℕ
  changes : Changes

def Pass.evict (email : String) (policy : Policy) (now : ℕ) (pass : Pass) (source : String) : Pass :=
  match policy.mode with
  | .observe =>
    if pass.client.reported.contains source then
      pass
    else
      { pass with
        client.reported := pass.client.reported.insert source (now + policy.cooldownSeconds)
        changes.events := pass.changes.events ++ [.wouldEvict email source] }
  | .enforce =>
    let ruleTag := evictTag pass.nextRule
    { client :=
        { pass.client with
          sources := pass.client.sources.erase source
          blocks := pass.client.blocks.insert source ⟨ruleTag, now + policy.cooldownSeconds⟩ }
      nextRule := pass.nextRule + 1
      changes :=
        { pass.changes with
          add := pass.changes.add ++ [(ruleTag, email, source)]
          events := pass.changes.events ++ [.evicted email source] } }

/-- The client as it is counted, before anything is evicted, and the rules of its ended blocks. -/
def State.counted (state : State) (email : String) (policy : Policy)
    (online : BTreeMap String Int) (now : ℕ) : Client × List String :=
  let expired := ((state.clients[email]?).getD Client.default).expire policy now
  let client := expired.1
  ({ client with sources := admitSources client.sources (client.active sourceKey policy online now) now },
    expired.2)

/-- The sources over the limit, those that appeared first. -/
def Client.excess (client : Client) (policy : Policy) : List String :=
  ((evictionOrder client.sources).take (client.sources.size - policy.maxSources)).map Prod.snd

/-- The client is counted, and who is over the limit is evicted. -/
def State.pass (state : State) (email : String) (policy : Policy)
    (online : BTreeMap String Int) (now : ℕ) : Pass :=
  let counted := state.counted sourceKey email policy online now
  (counted.1.excess policy).foldl (Pass.evict email policy now)
    ⟨counted.1, state.nextRule, ⟨[], counted.2, []⟩⟩

def State.observe (state : State) (email : String) (policy : Policy)
    (online : BTreeMap String Int) (now : ℕ) : State × Changes :=
  let pass := state.pass sourceKey email policy online now
  ({ state with clients := state.clients.insert email pass.client, nextRule := pass.nextRule },
    pass.changes)

end

def liftsBlocks : Option Policy → Bool
  | none => true
  | some policy => policy.mode = .observe

/-- Drops clients without a policy and returns the rules of their blocks to remove. -/
def State.retainPolicies (state : State) (policies : BTreeMap String Policy) : State × List String :=
  ({ state with
      clients := (state.clients.filter fun email _ => policies.contains email).map fun email client =>
        if liftsBlocks policies[email]? then { client with blocks := ∅ } else client },
    (state.clients.toList.filter fun client => liftsBlocks policies[client.1]?).flatMap fun client =>
      client.2.blocks.toList.map fun block => block.2.ruleTag)

/-- Records Xray's uptime; true when Xray restarted and lost dynamic rules. -/
def State.xrayRestarted (state : State) (uptime : ℕ) : State × Bool :=
  ({ state with xrayUptime := some uptime },
    state.xrayUptime.any fun previous => decide (uptime < previous))

end Admission
end Xray
end NodePlane
