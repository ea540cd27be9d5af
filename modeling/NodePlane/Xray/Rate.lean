import NodePlane.Shaping.Allocate
import NodePlane.Xray.Enforcement

/-! Speed limits for Xray clients: each limited client gets a marked outbound and a routing
rule that sends its traffic there. The kernel side is what its last build left. -/
namespace NodePlane
namespace Xray
namespace Rate
open Library Shaping

def markBase : ℕ := 0x4e500000

def tagPrefix : String := "np-rate-"

def isRate (tag : String) : Bool := tagPrefix.toList.isPrefixOf tag.toList

def tag (minor : ℕ) : String := tagPrefix ++ toString minor

/-- `marks`: client email and class number. `kernel` tells whether a tree was built. -/
structure State where
  marks : BTreeMap String ℕ
  domainStrategy : Option Int
  kernel : Bool

def State.default : State := ⟨∅, none, false⟩

def State.built (state : State) : Bool := !state.marks.isEmpty || state.kernel

/-- The number that these decimal digits spell. -/
def number (digits : List Char) : Option ℕ :=
  if !digits.isEmpty && digits.all Char.isDigit then some (Nat.ofDigitChars 10 digits 0) else none

/-- The calls of one pass. A removal tells whether its tag was given out in this pass, and
how many such tags are still to be removed after it. -/
inductive RateCall
  | connect
  | outboundTags
  | listRules
  | vlessInboundTags
  | removeRule (tag : String) (given : Bool) (left : ℕ)
  | removeOutbound (tag : String)
  | addOutbound (tag : String)
  | addRule (tag : String)
  deriving DecidableEq, Repr

/-- How bringing the kernel in line ends: done, before the old tree was gone, or midway
through the new one. -/
inductive KernelOutcome
  | done
  | kept
  | incomplete
  deriving DecidableEq, Repr

/-- What a pass meets: the limits, the domain strategy of the config file, and how the calls
and the kernel side end. -/
structure Inputs extends Answers RateCall where
  clients : BTreeMap String Rate
  strategy : Int
  kernel : KernelOutcome

/-- The client's traffic goes to its own outbound, on every VLESS inbound. -/
def rateRule (tag name : String) (inbounds : List String) : RouteRule :=
  ⟨tag, tag, emails name inbounds, []⟩

/-- Tag and client of every number. -/
def State.wanted (state : State) : BTreeMap String String :=
  state.marks.foldl (fun wanted email minor => wanted.insert (tag minor) email) ∅

section
variable (wanted : BTreeMap String String) (fresh : List String)

/-- A rule given out just now may still carry a former client's users, and one in front of
an eviction rule would pass its client by: both go. -/
def outdated : List RouteRule → List String
  | [] => []
  | rule :: rest =>
    if isRate rule.ruleTag && (!wanted.contains rule.ruleTag || fresh.contains rule.ruleTag ||
        rest.any fun later => Admission.isEvict later.ruleTag) then
      rule.ruleTag :: outdated rest
    else
      outdated rest

def present : List RouteRule → List String
  | [] => []
  | rule :: rest =>
    if isRate rule.ruleTag && !(!wanted.contains rule.ruleTag || fresh.contains rule.ruleTag ||
        rest.any fun later => Admission.isEvict later.ruleTag) then
      rule.ruleTag :: present rest
    else
      present rest

end

namespace Inputs

def removeRules (inputs : Inputs) (fresh : List String) :
    List String → Process → Process × Except XrayApiError Unit
  | [], xray => (xray, .ok ())
  | tag :: rest, xray =>
    match inputs.perform (.removeRule tag (fresh.contains tag) (rest.countP fun t => fresh.contains t))
        (fun x => .ok (x.removeRule tag)) xray with
    | (xray, .error err) => (xray, .error err)
    | (xray, .ok ()) => inputs.removeRules fresh rest xray

def removeOutbounds (inputs : Inputs) : List String → Process → Process × Except XrayApiError Unit
  | [], xray => (xray, .ok ())
  | tag :: rest, xray =>
    match inputs.perform (.removeOutbound tag) (fun x => .ok (x.removeOutbound tag)) xray with
    | (xray, .error err) => (xray, .error err)
    | (xray, .ok ()) => inputs.removeOutbounds rest xray

/-- One wanted client: its outbound unless it stands, and its rule unless it is present. -/
def addWanted (inputs : Inputs) (stands : String → Bool) (present : List String)
    (inbounds : List String) (tag name : String) (xray : Process) :
    Process × Except XrayApiError Unit :=
  let outbound : Process × Except XrayApiError Unit :=
    if stands tag then
      (xray, .ok ())
    else
      match number (tag.toList.drop tagPrefix.length) with
      | none => (xray, .error (.invalid ("bad rate tag " ++ tag)))
      | some minor =>
        inputs.perform (.addOutbound tag)
          (fun x => x.addOutbound ⟨tag, markBase ||| minor, inputs.strategy⟩) xray
  match outbound with
  | (xray, .error err) => (xray, .error err)
  | (xray, .ok ()) =>
    if present.contains tag then
      (xray, .ok ())
    else
      inputs.perform (.addRule tag) (fun x => x.addRule (rateRule tag name inbounds)) xray

def addAll (inputs : Inputs) (stands : String → Bool) (present inbounds : List String) :
    List (String × String) → Process → Process × Except XrayApiError Unit
  | [], xray => (xray, .ok ())
  | (tag, name) :: rest, xray =>
    match inputs.addWanted stands present inbounds tag name xray with
    | (xray, .error err) => (xray, .error err)
    | (xray, .ok ()) => inputs.addAll stands present inbounds rest xray

/-- Brings rate outbounds and rules in line with `wanted`. -/
def routing (inputs : Inputs) (wanted : BTreeMap String String) (fresh : List String)
    (recreate : Bool) (xray : Process) : Process × Except XrayApiError Unit :=
  let xray := inputs.before .outboundTags xray
  if inputs.fails .outboundTags then
    (xray, .error .unavailable)
  else
    let outbounds := (xray.outbounds.map Outbound.tag).filter isRate
    let xray := inputs.before .listRules xray
    if inputs.fails .listRules then
      (xray, .error .unavailable)
    else
      let rules := xray.rules
      let xray := inputs.before .vlessInboundTags xray
      if inputs.fails .vlessInboundTags then
        (xray, .error .unavailable)
      else
        let inbounds := xray.vlessInboundTags.filter validTag
        let stale (tag : String) : Bool := !wanted.contains tag || fresh.contains tag || recreate
        match inputs.removeRules fresh (outdated wanted fresh rules) xray with
        | (xray, .error err) => (xray, .error err)
        | (xray, .ok ()) =>
          match inputs.removeOutbounds (outbounds.filter stale) xray with
          | (xray, .error err) => (xray, .error err)
          | (xray, .ok ()) =>
            inputs.addAll (fun tag => outbounds.contains tag && !(fresh.contains tag || recreate))
              (present wanted fresh rules) inbounds wanted.toList xray

/-- Connects to the API first. -/
def connectAndRoute (inputs : Inputs) (wanted : BTreeMap String String) (fresh : List String)
    (recreate : Bool) (xray : Process) : Process × Except XrayApiError Unit :=
  let xray := inputs.before .connect xray
  if inputs.fails .connect then
    (xray, .error .unavailable)
  else
    inputs.routing wanted fresh recreate xray

/-- The kernel side, once routing allows it. -/
def bring (inputs : Inputs) (built : Bool) : Bool × Except ShapeError Unit :=
  if inputs.clients.isEmpty && !built then
    (built, .ok ())
  else
    match inputs.kernel with
    | .done => (!inputs.clients.isEmpty, .ok ())
    | .kept => (built, .error (.failed "tc"))
    | .incomplete => (!inputs.clients.isEmpty, .error (.failed "tc"))

end Inputs

structure System where
  state : State
  xray : Process

/-- One pass: Xray routing first, then the kernel. Lifting limits tears the tree down even
when Xray cannot be reached. -/
def System.step (inputs : Inputs) (system : System) : System × Except ShapeError Unit :=
  let allocated := allocate system.state.marks (inputs.clients.toList.map Prod.fst)
  let state := { system.state with marks := allocated.1 }
  match allocated.2 with
  | .error err => (⟨state, system.xray⟩, .error err)
  | .ok names =>
    let fresh := names.map fun email => tag ((state.marks[email]?).getD 0)
    let recreate := state.domainStrategy.any fun applied => applied ≠ inputs.strategy
    let routed := inputs.connectAndRoute state.wanted fresh recreate system.xray
    let applied : Option Int := if state.wanted.isEmpty then none else some inputs.strategy
    match routed.2 with
    | .ok () =>
      let kernel := inputs.bring state.kernel
      (⟨{ state with domainStrategy := applied, kernel := kernel.1 }, routed.1⟩, kernel.2)
    | .error _ =>
      if !inputs.clients.isEmpty then
        (⟨state, routed.1⟩, .error (.failed "routing"))
      else
        let kernel := inputs.bring state.kernel
        (⟨{ state with kernel := kernel.1 }, routed.1⟩,
          match kernel.2 with
          | .error err => .error err
          | .ok () => .error (.failed "routing"))

/-- One tick: nothing is done without limits and with nothing built; else a pass. -/
def System.tick (inputs : Inputs) (system : System) : System × Option (Except ShapeError Unit) :=
  if inputs.clients.isEmpty && !system.state.built then
    (system, none)
  else
    let done := system.step inputs
    (done.1, some done.2)

/-- What happens to the node: ticks, Xray restarting between them, and the eviction rules
that admission adds and takes back. -/
inductive Happening
  | tick (inputs : Inputs)
  | restart (config : Config)
  | block (number : ℕ) (name source : String)
  | unblock (number : ℕ)

def happen (system : System) : Happening → System × List (Except ShapeError Unit)
  | .tick inputs =>
    let done := system.tick inputs
    (done.1, done.2.toList)
  | .restart config => (⟨system.state, Process.start config⟩, [])
  | .block number name source =>
    match system.xray.addRule (Admission.rule (Admission.evictTag number) name source
        (system.xray.vlessInboundTags.filter validTag)) with
    | .ok xray => (⟨system.state, xray⟩, [])
    | .error _ => (system, [])
  | .unblock number => (⟨system.state, system.xray.removeRule (Admission.evictTag number)⟩, [])

def System.start (config : Config) : System := ⟨State.default, Process.start config⟩

def after (config : Config) (happenings : List Happening) : System :=
  (run happen (System.start config) happenings).1

end Rate
end Xray
end NodePlane
