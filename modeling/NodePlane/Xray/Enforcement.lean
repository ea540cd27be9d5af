import NodePlane.Xray.AdmissionState

/-! One enforcement pass: the journaled state, the running Xray, and the calls between
them, each of which can fail, with Xray restarting at any time. -/
namespace NodePlane
namespace Xray
namespace Admission
open Library

def blockedOutbound : String := "node-plane-blocked"

/-- Blocks the client's source on every VLESS inbound. -/
def rule (ruleTag name source : String) (inbounds : List String) : RouteRule :=
  ⟨ruleTag, blockedOutbound, emails name inbounds, [source]⟩

def isEvict (ruleTag : String) : Bool := evictPrefix.toList.isPrefixOf ruleTag.toList

/-- The calls of one pass. `left` counts the calls of the same loop still to come, and
`due` the rules the client still has to get. -/
inductive ApiCall
  | connect
  | retained (ruleTag : String) (left : ℕ)
  | vlessInboundTags
  | uptime
  | restored (ruleTag : String) (left : ℕ)
  | onlineIps (name : String) (left : ℕ)
  | expired (ruleTag : String) (left due : ℕ)
  | blocked (ruleTag : String) (left : ℕ)
  | closed (ruleTag inbound : String) (left : ℕ)
  deriving DecidableEq, Repr

/-- What a pass meets: the policies, the clock, the online lists and the calls' answers. -/
structure Inputs extends Answers ApiCall where
  policies : BTreeMap String Policy
  now : ℕ
  online : String → BTreeMap String Int

namespace Inputs

def removeRules (inputs : Inputs) (site : String → ℕ → ApiCall) :
    List String → Process → Process × Except XrayApiError Unit
  | [], xray => (xray, .ok ())
  | ruleTag :: rest, xray =>
    match inputs.perform (site ruleTag rest.length) (fun x => .ok (x.removeRule ruleTag)) xray with
    | (xray, .error err) => (xray, .error err)
    | (xray, .ok ()) => inputs.removeRules site rest xray

def restoreRules (inputs : Inputs) : List RouteRule → Process → Process × Except XrayApiError Unit
  | [], xray => (xray, .ok ())
  | block :: rest, xray =>
    match inputs.perform (.restored block.ruleTag rest.length) (fun x => x.addRule block) xray with
    | (xray, .error err) => (xray, .error err)
    | (xray, .ok ()) => inputs.restoreRules rest xray

/-- The client's sources on all inbounds, each with its latest connection. -/
def onlineSources (inputs : Inputs) (name : String) :
    List String → BTreeMap String Int → Process → Process × Except XrayApiError (BTreeMap String Int)
  | [], sources, xray => (xray, .ok sources)
  | email :: rest, sources, xray =>
    if inputs.fails (.onlineIps name rest.length) then
      (inputs.before (.onlineIps name rest.length) xray, .error .unavailable)
    else
      inputs.onlineSources name rest
        (BTreeMap.upsertAll (fun _ seen latest => max (latest.getD seen) seen) sources
          (inputs.online email))
        (inputs.before (.onlineIps name rest.length) xray)

/-- An Xray that cannot close connections answers so, and the block still stands. -/
def closeConnections (inputs : Inputs) (ruleTag : String) (left : ℕ) :
    List String → Process → Process × Except XrayApiError Unit
  | [], xray => (xray, .ok ())
  | inbound :: rest, xray =>
    if inputs.fails (.closed ruleTag inbound left) then
      (inputs.before (.closed ruleTag inbound left) xray, .error .unavailable)
    else
      inputs.closeConnections ruleTag left rest (inputs.before (.closed ruleTag inbound left) xray)

def addBlocks (inputs : Inputs) (inbounds : List String) :
    List (String × String × String) → Process → Process × Except XrayApiError Unit
  | [], xray => (xray, .ok ())
  | (ruleTag, name, source) :: rest, xray =>
    match inputs.perform (.blocked ruleTag rest.length)
        (fun x => x.addRule (rule ruleTag name source inbounds)) xray with
    | (xray, .error err) => (xray, .error err)
    | (xray, .ok ()) =>
      match inputs.closeConnections ruleTag rest.length inbounds xray with
      | (xray, .error err) => (xray, .error err)
      | (xray, .ok ()) => inputs.addBlocks inbounds rest xray

end Inputs

structure System where
  state : State
  xray : Process

section
variable (sourceKey : String → Option String)

/-- One client: observe, then apply the rule changes. -/
def System.enforce (inputs : Inputs) (inbounds : List String) (name : String) (policy : Policy)
    (system : System) : System × Except XrayApiError (List Event) :=
  match inputs.onlineSources name (emails name inbounds) ∅ system.xray with
  | (xray, .error err) => (⟨system.state, xray⟩, .error err)
  | (xray, .ok online) =>
    let observed := system.state.observe sourceKey name policy online inputs.now
    match inputs.removeRules (fun ruleTag left => .expired ruleTag left observed.2.add.length)
        observed.2.remove xray with
    | (xray, .error err) => (⟨observed.1, xray⟩, .error err)
    | (xray, .ok ()) =>
      match inputs.addBlocks inbounds observed.2.add xray with
      | (xray, .error err) => (⟨observed.1, xray⟩, .error err)
      | (xray, .ok ()) => (⟨observed.1, xray⟩, .ok observed.2.events)

def System.enforceAll (inputs : Inputs) (inbounds : List String) :
    List (String × Policy) → List Event → System → System × Except XrayApiError (List Event)
  | [], events, system => (system, .ok events)
  | (name, policy) :: rest, events, system =>
    match system.enforce sourceKey inputs inbounds name policy with
    | (system, .error err) => (system, .error err)
    | (system, .ok more) => System.enforceAll inputs inbounds rest (events ++ more) system

/-- The rules of an Xray that has restarted since it was last asked. -/
def System.restore (inputs : Inputs) (inbounds : List String) (restarted : Bool) (system : System) :
    System × Except XrayApiError Unit :=
  if restarted then
    let blocks := system.state.blocks.map fun block =>
      rule block.2.2.ruleTag block.1 block.2.1 inbounds
    let done := inputs.restoreRules blocks system.xray
    (⟨system.state, done.1⟩, done.2)
  else
    (system, .ok ())

/-- One pass over every limited client. -/
def System.step (inputs : Inputs) (system : System) : System × Except XrayApiError (List Event) :=
  let retained := system.state.retainPolicies inputs.policies
  match inputs.removeRules .retained retained.2 system.xray with
  | (xray, .error err) => (⟨retained.1, xray⟩, .error err)
  | (xray, .ok ()) =>
    let xray := inputs.before .vlessInboundTags xray
    if inputs.fails .vlessInboundTags then
      (⟨retained.1, xray⟩, .error .unavailable)
    else
      let inbounds := xray.vlessInboundTags.filter validTag
      let xray := inputs.before .uptime xray
      if inputs.fails .uptime then
        (⟨retained.1, xray⟩, .error .unavailable)
      else
        let looked := retained.1.xrayRestarted xray.uptime
        match System.restore inputs inbounds looked.2 ⟨looked.1, { xray with asked := true }⟩ with
        | (system, .error err) => (system, .error err)
        | (system, .ok ()) =>
          system.enforceAll sourceKey inputs inbounds inputs.policies.toList []

/-- One tick: the journaled state is saved also when the pass fails midway. Without limits
and blocks it does not touch Xray. -/
def System.tick (inputs : Inputs) (system : System) : System × Except XrayApiError (List Event) :=
  if inputs.policies.isEmpty && system.state.clients.isEmpty then
    (system, .ok [])
  else if inputs.fails .connect then
    (⟨system.state, inputs.before .connect system.xray⟩, .error .unavailable)
  else
    System.step sourceKey inputs ⟨system.state, inputs.before .connect system.xray⟩

/-- What happens to the node: ticks, and Xray running on or restarting between them. -/
inductive Happening
  | tick (inputs : Inputs)
  | elapse (seconds : ℕ)
  | restart (config : Config)

def happen (system : System) : Happening → System × List (Except XrayApiError (List Event))
  | .tick inputs =>
    let done := system.tick sourceKey inputs
    (done.1, [done.2])
  | .elapse seconds =>
    (⟨system.state, { system.xray with uptime := system.xray.uptime + seconds }⟩, [])
  | .restart config => (⟨system.state, Process.start config⟩, [])

def System.start (config : Config) : System := ⟨State.default, Process.start config⟩

def after (config : Config) (happenings : List Happening) : System :=
  (run (happen sourceKey) (System.start config) happenings).1

end

/-- The block's rule is in Xray. -/
def Enforced (rules : List RouteRule) (block : String × String × Block) : Prop :=
  ∃ inbounds, rule block.2.2.ruleTag block.1 block.2.1 inbounds ∈ rules

end Admission
end Xray
end NodePlane
