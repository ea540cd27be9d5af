import NodePlane.Xray.BlockRules

/-! Rules without a block: while no removal of a rule fails, every eviction rule in Xray is
that of a block in the journal, whatever else fails and whenever Xray restarts. -/
namespace NodePlane
namespace Xray
namespace Admission
open Library

/-- The rules already dropped from the journal that a failing call leaves in Xray. -/
def leftBehind : ApiCall → Outcome → ℕ
  | .retained _ left, .refused => left + 1
  | .retained _ left, .lost => left
  | .expired _ left _, .refused => left + 1
  | .expired _ left _, .lost => left
  | _, _ => 0

/-- A pass that takes back every rule it drops; an Xray restarting on the way starts
without rules of the agent's. -/
structure Swept (inputs : Inputs) : Prop where
  complete : ∀ c, leftBehind c (inputs.outcome c) = 0
  foreign : ∀ c config, inputs.restarts c = some config → Foreign config.rules

/-- `next` has the agent's rules of `xray`, less some, and those in `added`. -/
def Within (added : List RouteRule) (xray next : Process) : Prop :=
  ∀ rule ∈ next.rules, isEvict rule.ruleTag = true → rule ∈ xray.rules ∨ rule ∈ added

section
variable {inputs : Inputs} {xray next last : Process} {first second : List RouteRule}

theorem Within.refl : Within [] xray xray := fun _ held _ => .inl held

theorem Within.trans (one : Within first xray next) (two : Within second next last) :
    Within (first ++ second) xray last := by
  intro rule held evicts
  rcases two rule held evicts with before | added
  · rcases one rule before evicts with old | new
    · exact .inl old
    · exact .inr (List.mem_append_left _ new)
  · exact .inr (List.mem_append_right _ added)

theorem within_before (swept : Swept inputs) (c : ApiCall) : Within [] xray (inputs.before c xray) := by
  intro rule held evicts
  cases restarted : inputs.restarts c with
  | none =>
    rw [Answers.before, restarted] at held
    exact .inl held
  | some config =>
    rw [Answers.before, restarted] at held
    have foreign := swept.foreign c config restarted rule held
    rw [evicts] at foreign
    cases foreign

theorem within_add {rule : RouteRule} (outcome : Outcome) :
    Within [rule] xray (call outcome (xray.addRule rule) xray).1 := by
  have grown : ∀ added, xray.addRule rule = .ok added → Within [rule] xray added := by
    intro added done other held _
    rw [Process.addRule] at done
    split at done
    · cases done
    · split at done
      · cases done
      · rw [← Except.ok.inj done] at held
        exact List.mem_append.mp held
  cases added : xray.addRule rule with
  | error err => exact fun _ held _ => .inl held
  | ok next =>
    cases outcome with
    | answered => exact grown next added
    | refused => exact fun _ held _ => .inl held
    | lost => exact grown next added

theorem within_perform (swept : Swept inputs) (c : ApiCall) (rule : RouteRule) :
    Within [rule] xray (inputs.perform c (fun x => x.addRule rule) xray).1 :=
  (within_before swept c).trans (within_add (inputs.outcome c))

theorem within_restore (swept : Swept inputs) (rules : List RouteRule) (xray : Process) :
    Within rules xray (inputs.restoreRules rules xray).1 := by
  induction rules generalizing xray with
  | nil => exact Within.refl
  | cons rule rest ih =>
    have one := @within_perform _ xray swept (.restored rule.ruleTag rest.length) rule
    rw [Inputs.restoreRules]
    generalize inputs.perform (.restored rule.ruleTag rest.length) _ xray = done at one
    obtain ⟨next, result⟩ := done
    cases result with
    | error err => exact @Within.trans _ _ _ _ rest one fun _ held _ => .inl held
    | ok => exact one.trans (ih next)

theorem within_online (swept : Swept inputs) (name : String) (emails : List String)
    (sources : BTreeMap String Int) (xray : Process) :
    Within [] xray (inputs.onlineSources name emails sources xray).1 := by
  induction emails generalizing sources xray with
  | nil => exact Within.refl
  | cons email rest ih =>
    have one := @within_before _ xray swept (.onlineIps name rest.length)
    rw [Inputs.onlineSources]
    split
    · exact one
    · exact one.trans (ih _ _)

theorem within_close (swept : Swept inputs) (ruleTag : String) (left : ℕ) (inbounds : List String)
    (xray : Process) : Within [] xray (inputs.closeConnections ruleTag left inbounds xray).1 := by
  induction inbounds generalizing xray with
  | nil => exact Within.refl
  | cons inbound rest ih =>
    have one := @within_before _ xray swept (.closed ruleTag inbound left)
    rw [Inputs.closeConnections]
    split
    · exact one
    · exact one.trans (ih _)

theorem within_blocks (swept : Swept inputs) (inbounds : List String)
    (added : List (String × String × String)) (xray : Process) :
    Within (blockRules inbounds added) xray (inputs.addBlocks inbounds added xray).1 := by
  induction added generalizing xray with
  | nil => exact Within.refl
  | cons block rest ih =>
    obtain ⟨ruleTag, name, source⟩ := block
    have one := @within_perform _ xray swept (.blocked ruleTag rest.length)
      (rule ruleTag name source inbounds)
    have stopped : ∀ {next}, Within [rule ruleTag name source inbounds] xray next →
        Within (blockRules inbounds ((ruleTag, name, source) :: rest)) xray next :=
      fun reached => @Within.trans _ _ _ _ (blockRules inbounds rest) reached
        fun _ held _ => .inl held
    rw [Inputs.addBlocks]
    generalize inputs.perform (.blocked ruleTag rest.length) _ xray = done at one
    obtain ⟨next, result⟩ := done
    cases result with
    | error err => exact stopped one
    | ok =>
      dsimp only
      have two := one.trans (within_close swept ruleTag rest.length inbounds next)
      generalize inputs.closeConnections ruleTag rest.length inbounds next = closed at two
      obtain ⟨next, result⟩ := closed
      cases result with
      | error err => exact stopped two
      | ok => exact two.trans (ih next)

/-- A loop that takes rules back, none of whose failures leaves one, takes all back. -/
theorem removeRules_sweeps (swept : Swept inputs) {site : String → ℕ → ApiCall}
    (refused : ∀ ruleTag left, leftBehind (site ruleTag left) .refused = left + 1)
    (lost : ∀ ruleTag left, leftBehind (site ruleTag left) .lost = left)
    (tags : List String) (xray : Process) :
    ∀ rule ∈ (inputs.removeRules site tags xray).1.rules, isEvict rule.ruleTag = true →
      rule ∈ xray.rules ∧ rule.ruleTag ∉ tags := by
  induction tags generalizing xray with
  | nil => exact fun rule held _ => ⟨held, List.not_mem_nil⟩
  | cons ruleTag rest ih =>
    have one : ∀ rule ∈ ((inputs.before (site ruleTag rest.length) xray).removeRule ruleTag).rules,
        isEvict rule.ruleTag = true → rule ∈ xray.rules ∧ rule.ruleTag ≠ ruleTag := by
      intro rule held evicts
      obtain ⟨before, apart⟩ := List.mem_filter.mp held
      refine ⟨?_, by simpa using apart⟩
      simpa using within_before swept (site ruleTag rest.length) rule before evicts
    have complete := swept.complete (site ruleTag rest.length)
    rw [Inputs.removeRules, Answers.perform]
    cases outcome : inputs.outcome (site ruleTag rest.length) with
    | answered =>
      intro rule held evicts
      obtain ⟨before, apart⟩ := ih _ rule held evicts
      obtain ⟨old, other⟩ := one rule before evicts
      exact ⟨old, by simp [apart, other]⟩
    | refused =>
      rw [outcome, refused] at complete
      cases complete
    | lost =>
      rw [outcome, lost] at complete
      rw [List.eq_nil_of_length_eq_zero complete]
      intro rule held evicts
      obtain ⟨old, other⟩ := one rule (by simpa [call, complete] using held) evicts
      exact ⟨old, by simpa using other⟩

end

/-- Every eviction rule in Xray is that of a block in the journal. -/
def Owned (system : System) : Prop :=
  ∀ rule ∈ system.xray.rules, isEvict rule.ruleTag = true → rule.ruleTag ∈ system.state.tags

section
variable {sourceKey : String → Option String} {inputs : Inputs} {system : System}

theorem Owned.within {xray next : Process} {state : State} {added : List RouteRule}
    (owned : Owned ⟨state, xray⟩) (within : Within added xray next)
    (known : ∀ rule ∈ added, rule.ruleTag ∈ state.tags) : Owned ⟨state, next⟩ := by
  intro rule held evicts
  rcases within rule held evicts with before | new
  · exact owned rule before evicts
  · exact known rule new

theorem Owned.before (swept : Swept inputs) (c : ApiCall) {state : State} {xray : Process}
    (owned : Owned ⟨state, xray⟩) : Owned ⟨state, inputs.before c xray⟩ :=
  owned.within (within_before swept c) fun _ held => absurd held List.not_mem_nil

theorem retain_owned (swept : Swept inputs) (owned : Owned system) :
    Owned ⟨(system.state.retainPolicies inputs.policies).1,
      (inputs.removeRules .retained (system.state.retainPolicies inputs.policies).2 system.xray).1⟩ := by
  intro rule held evicts
  obtain ⟨before, stays⟩ := removeRules_sweeps swept (fun _ _ => rfl) (fun _ _ => rfl) _ _ rule held evicts
  have tag := owned rule before evicts
  rw [← (retain_balance inputs.policies).mem_iff, List.mem_append] at tag
  exact tag.resolve_right stays

theorem added_tags {state : State} {name : String} {policy : Policy} {online : BTreeMap String Int}
    {now : ℕ} {tag : String}
    (given : tag ∈ (state.observe sourceKey name policy online now).2.add.map Prod.fst) :
    tag ∈ (state.observe sourceKey name policy online now).1.tags := by
  obtain ⟨-, -, tags⟩ := @pass_tags sourceKey state name policy online now
  have own := tags.mem_iff.mpr (List.mem_append_right _ given)
  rw [State.tags_eq, State.observe]
  exact (tagsOf_insert _ _ _).mem_iff.mpr (List.mem_append_left _ own)

theorem enforce_owned {inbounds : List String} {name : String} {policy : Policy}
    (swept : Swept inputs) (owned : Owned system) :
    Owned (system.enforce sourceKey inputs inbounds name policy).1 := by
  have asked := owned.within (within_online swept name (emails name inbounds) ∅ system.xray)
    fun _ held => absurd held List.not_mem_nil
  rw [System.enforce]
  generalize inputs.onlineSources name (emails name inbounds) ∅ system.xray = answered at asked
  obtain ⟨xray, result⟩ := answered
  cases result with
  | error err => exact asked
  | ok online =>
    dsimp only
    have removed : Owned ⟨(system.state.observe sourceKey name policy online inputs.now).1,
        (inputs.removeRules (fun ruleTag left => .expired ruleTag left
            (system.state.observe sourceKey name policy online inputs.now).2.add.length)
          (system.state.observe sourceKey name policy online inputs.now).2.remove xray).1⟩ := by
      intro rule held evicts
      obtain ⟨before, stays⟩ := removeRules_sweeps swept (fun _ _ => rfl) (fun _ _ => rfl) _ _ rule
        held evicts
      have tag := List.mem_append_left
        ((system.state.observe sourceKey name policy online inputs.now).2.add.map Prod.fst)
        (asked rule before evicts)
      rw [← observe_balance.mem_iff, List.mem_append] at tag
      exact tag.resolve_right stays
    generalize inputs.removeRules _ _ xray = removes at removed
    obtain ⟨xray, result⟩ := removes
    cases result with
    | error err => exact removed
    | ok =>
      have added := removed.within (within_blocks swept inbounds
        (system.state.observe sourceKey name policy online inputs.now).2.add xray) (by
          intro rule held
          obtain ⟨block, member, rfl⟩ := List.mem_map.mp held
          exact added_tags (List.mem_map_of_mem member))
      dsimp only
      generalize inputs.addBlocks inbounds _ xray = adds at added
      obtain ⟨xray, result⟩ := adds
      cases result with
      | error err => exact added
      | ok => exact added

theorem enforceAll_owned {inbounds : List String} (swept : Swept inputs)
    (clients : List (String × Policy)) (events : List Event) (owned : Owned system) :
    Owned (System.enforceAll sourceKey inputs inbounds clients events system).1 := by
  induction clients generalizing system events with
  | nil => exact owned
  | cons client rest ih =>
    obtain ⟨name, policy⟩ := client
    have one := @enforce_owned sourceKey _ _ inbounds name policy swept owned
    rw [System.enforceAll]
    generalize system.enforce sourceKey inputs inbounds name policy = done at one
    obtain ⟨next, result⟩ := done
    cases result with
    | error err => exact one
    | ok more => exact ih (events ++ more) one

theorem restore_owned {inbounds : List String} {restarted : Bool} (swept : Swept inputs)
    (owned : Owned system) : Owned (System.restore inputs inbounds restarted system).1 := by
  rw [System.restore]
  split
  · refine owned.within (within_restore swept _ _) ?_
    intro rule held
    obtain ⟨block, member, rfl⟩ := List.mem_map.mp held
    exact tag_of_block member
  · exact owned

theorem step_owned (swept : Swept inputs) (owned : Owned system) :
    Owned (system.step sourceKey inputs).1 := by
  have retained := retain_owned swept owned
  rw [System.step]
  dsimp only
  generalize inputs.removeRules .retained _ system.xray = removes at retained
  obtain ⟨xray, result⟩ := removes
  cases result with
  | error err => exact retained
  | ok =>
    dsimp only
    have tagged := retained.before swept .vlessInboundTags
    have looked := tagged.before swept .uptime
    split
    · exact tagged
    · split
      · exact looked
      · have lit : Owned ⟨(State.xrayRestarted (system.state.retainPolicies inputs.policies).1
            (inputs.before .uptime (inputs.before .vlessInboundTags xray)).uptime).1,
            { inputs.before .uptime (inputs.before .vlessInboundTags xray) with asked := true }⟩ :=
          looked
        have restored := @restore_owned inputs _
          ((inputs.before .vlessInboundTags xray).vlessInboundTags.filter validTag)
          ((State.xrayRestarted (system.state.retainPolicies inputs.policies).1
            (inputs.before .uptime (inputs.before .vlessInboundTags xray)).uptime).2) swept lit
        generalize System.restore inputs _ _ _ = back at restored ⊢
        obtain ⟨next, result⟩ := back
        cases result with
        | error err => exact restored
        | ok => exact enforceAll_owned swept _ _ restored

theorem tick_owned (swept : Swept inputs) (owned : Owned system) :
    Owned (system.tick sourceKey inputs).1 := by
  rw [System.tick]
  split
  · exact owned
  · split
    · exact owned.before swept .connect
    · exact step_owned swept (owned.before swept .connect)

def SweptHappening : Happening → Prop
  | .tick inputs => Swept inputs
  | .elapse _ => True
  | .restart config => Foreign config.rules

theorem foreign_owned {config : Config} (foreign : Foreign config.rules) (state : State) :
    Owned ⟨state, Process.start config⟩ := by
  intro rule held evicts
  rw [foreign rule held] at evicts
  cases evicts

theorem happen_owned {happening : Happening} (swept : SweptHappening happening)
    (owned : Owned system) : Owned (happen sourceKey system happening).1 := by
  cases happening with
  | tick inputs => exact tick_owned swept owned
  | elapse seconds => exact owned
  | restart config => exact foreign_owned swept system.state

end

theorem rules_owned (sourceKey : String → Option String) (config : Config)
    (foreign : Foreign config.rules) (happenings : List Happening)
    (swept : ∀ happening ∈ happenings, SweptHappening happening) :
    ∀ rule ∈ (after sourceKey config happenings).xray.rules, isEvict rule.ruleTag = true →
      ∃ block ∈ (after sourceKey config happenings).state.blocks,
        block.2.2.ruleTag = rule.ruleTag := by
  have runs : ∀ system : System, Owned system →
      Owned (run (happen sourceKey) system happenings).1 := by
    induction happenings with
    | nil => exact fun _ owned => owned
    | cons happening rest ih =>
      intro system owned
      exact ih (fun h member => swept h (List.mem_cons_of_mem _ member)) _
        (happen_owned (swept happening List.mem_cons_self) owned)
  intro rule held evicts
  have owned := runs _ (foreign_owned foreign State.default) rule held evicts
  obtain ⟨block, member, same⟩ := List.mem_map.mp owned
  exact ⟨block, member, same⟩

theorem rules_owned_sample :
    sampleConfig.inbounds = ["reality-tcp"] ∧
      ∃ block ∈ (after sampleKey sampleConfig (sampleRun.take 3)).state.blocks,
        block.2.2.ruleTag = "np-evict-0" := by
  refine ⟨rfl, ?_⟩
  refine rules_owned sampleKey sampleConfig (by decide) (sampleRun.take 3) ?_
    (rule "np-evict-0" "phone" "198.51.100.1/32" ["reality-tcp"]) (by decide +kernel)
    (by decide)
  have swept : ∀ now ips, Swept (sampleTick now ips) := by
    intro now ips
    refine ⟨?_, fun _ _ restarted => nomatch restarted⟩
    intro c
    cases c <;> rfl
  intro happening member
  simp only [sampleRun, List.take_succ_cons, List.take_zero, List.mem_cons, List.not_mem_nil,
    or_false] at member
  rcases member with rfl | rfl | rfl
  · trivial
  · exact swept _ _
  · exact swept _ _

/-- The client of `sampleRun` loses its limit, and Xray refuses to take its rule back. -/
def orphanRun : List Happening :=
  sampleRun.take 3 ++
    [.tick { sampleTick 1020 [] with
      policies := (∅ : BTreeMap String Policy).insert "tablet" ⟨1, .enforce, 120, 300⟩
      outcome := fun c => if c = .retained "np-evict-0" 0 then .refused else .answered }]

/-- The rule belongs to no block, and the next pass returns Ok without removing it. -/
theorem orphan_stays :
    (after sampleKey sampleConfig orphanRun).state.blocks = [] ∧
      rule "np-evict-0" "phone" "198.51.100.1/32" ["reality-tcp"] ∈
        (after sampleKey sampleConfig orphanRun).xray.rules ∧
      ((after sampleKey sampleConfig orphanRun).tick sampleKey
        { sampleTick 1030 [] with
          policies := (∅ : BTreeMap String Policy).insert "tablet" ⟨1, .enforce, 120, 300⟩ }).2 =
        .ok [] ∧
      rule "np-evict-0" "phone" "198.51.100.1/32" ["reality-tcp"] ∈
        ((after sampleKey sampleConfig orphanRun).tick sampleKey
          { sampleTick 1030 [] with
            policies :=
              (∅ : BTreeMap String Policy).insert "tablet" ⟨1, .enforce, 120, 300⟩ }).1.xray.rules := by
  decide +kernel

end Admission
end Xray
end NodePlane
