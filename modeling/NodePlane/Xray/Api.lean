import Mathlib.Data.List.Basic

/-! The running Xray behind its API: clients' emails, the routing rules in order, the
outbounds, and how a call to it can end. -/
namespace NodePlane
namespace Xray

/-- The email of a client on one inbound. -/
def email (name tag : String) : String := name ++ "." ++ tag

/-- The client's emails on these inbounds. -/
def emails (name : String) (tags : List String) : List String := tags.map (email name)

def validTag (tag : String) : Bool := !tag.isEmpty && !tag.toList.contains '.'

/-- Emails tell clients apart: a valid tag has no dot, so the last dot of an email ends the
client's name. -/
theorem email_injective {a b s t : String} (first : validTag s = true) (second : validTag t = true)
    (same : email a s = email b t) : a = b := by
  have split : ∀ {name tag : String}, validTag tag = true →
      (email name tag).toList.reverse.dropWhile (· ≠ '.') = '.' :: name.toList.reverse := by
    intro name tag valid
    have plain : ∀ c ∈ tag.toList.reverse, decide (c ≠ '.') = true := by
      intro c held
      simp only [validTag, Bool.and_eq_true, Bool.not_eq_true', List.contains_eq_mem,
        decide_eq_false_iff_not] at valid
      rw [decide_eq_true_iff]
      rintro rfl
      exact valid.2 (List.mem_reverse.mp held)
    have whole : (email name tag).toList.reverse =
        tag.toList.reverse ++ '.' :: name.toList.reverse := by
      simp [email]
    rw [whole, List.dropWhile_append_of_pos plain]
    rfl
  have lists := @split a _ first
  rw [same, split second, List.cons.injEq] at lists
  exact String.toList_inj.mp (List.reverse_injective lists.2.symm)

/-- Traffic of the users (and sources) goes to the outbound. -/
structure RouteRule where
  ruleTag : String
  outboundTag : String
  users : List String
  sources : List String
  deriving DecidableEq, Repr

/-- A freedom outbound whose sockets carry `mark`. -/
structure Outbound where
  tag : String
  mark : ℕ
  domainStrategy : Int
  deriving DecidableEq, Repr

inductive XrayApiError
  | unavailable
  | rejected
  | invalid (detail : String)
  deriving DecidableEq, Repr

/-- How a call ends: answered, refused before it took effect, or carried out with its
answer lost on the way. -/
inductive Outcome
  | answered
  | refused
  | lost
  deriving DecidableEq, Repr

def Outcome.fails : Outcome → Bool
  | .answered => false
  | .refused | .lost => true

/-- The rules, outbounds and inbounds that the config file gives a starting Xray. -/
structure Config where
  rules : List RouteRule
  outbounds : List Outbound
  inbounds : List String
  deriving DecidableEq, Repr

/-- `asked` tells whether this process has answered for its uptime yet. -/
structure Process where
  config : Config
  rules : List RouteRule
  outbounds : List Outbound
  uptime : ℕ
  asked : Bool
  deriving DecidableEq, Repr

namespace Process

def start (config : Config) : Process := ⟨config, config.rules, config.outbounds, 0, false⟩

def vlessInboundTags (xray : Process) : List String := xray.config.inbounds

/-- Appends a rule; a rule without users matches everything and is refused, and so is a
tag that is in use. -/
def addRule (xray : Process) (rule : RouteRule) : Except XrayApiError Process :=
  if rule.ruleTag.isEmpty || rule.outboundTag.isEmpty || rule.users.isEmpty then
    .error (.invalid "a rule needs a tag, an outbound and at least one user")
  else if xray.rules.any fun other => other.ruleTag = rule.ruleTag then
    .error .rejected
  else
    .ok { xray with rules := xray.rules ++ [rule] }

/-- Removing an absent tag succeeds. -/
def removeRule (xray : Process) (ruleTag : String) : Process :=
  { xray with rules := xray.rules.filter fun rule => rule.ruleTag ≠ ruleTag }

/-- Adds an outbound; a tag that is in use is refused. -/
def addOutbound (xray : Process) (outbound : Outbound) : Except XrayApiError Process :=
  if xray.outbounds.any fun other => other.tag = outbound.tag then
    .error .rejected
  else
    .ok { xray with outbounds := xray.outbounds ++ [outbound] }

def removeOutbound (xray : Process) (tag : String) : Process :=
  { xray with outbounds := xray.outbounds.filter fun outbound => outbound.tag ≠ tag }

end Process

/-- A call that changes the rules and outbounds, under the outcome it meets. -/
def call (outcome : Outcome) (effect : Except XrayApiError Process) (xray : Process) :
    Process × Except XrayApiError Unit :=
  match effect, outcome with
  | .error err, _ => (xray, .error err)
  | .ok _, .refused => (xray, .error .unavailable)
  | .ok next, .lost => (next, .error .unavailable)
  | .ok next, .answered => (next, .ok ())

/-- How each call of a pass ends, and where Xray restarts just before a call, with the
config it then reads. -/
structure Answers (κ : Type) where
  outcome : κ → Outcome
  restarts : κ → Option Config

namespace Answers
variable {κ : Type}

def before (answers : Answers κ) (c : κ) (xray : Process) : Process :=
  match answers.restarts c with
  | none => xray
  | some config => Process.start config

/-- A call that changes Xray. -/
def perform (answers : Answers κ) (c : κ) (effect : Process → Except XrayApiError Process)
    (xray : Process) : Process × Except XrayApiError Unit :=
  call (answers.outcome c) (effect (answers.before c xray)) (answers.before c xray)

/-- A call that only asks. -/
def fails (answers : Answers κ) (c : κ) : Bool := (answers.outcome c).fails

/-- Xray does not restart while the pass runs. -/
def Undisturbed (answers : Answers κ) : Prop := ∀ c, answers.restarts c = none

theorem before_undisturbed {answers : Answers κ} {xray : Process} (undisturbed : answers.Undisturbed)
    (c : κ) : answers.before c xray = xray := by
  rw [before, undisturbed c]

theorem perform_undisturbed {answers : Answers κ} {xray : Process} (undisturbed : answers.Undisturbed)
    (c : κ) (effect : Process → Except XrayApiError Process) :
    answers.perform c effect xray = call (answers.outcome c) (effect xray) xray := by
  rw [perform, before_undisturbed undisturbed]

end Answers
end Xray
end NodePlane
