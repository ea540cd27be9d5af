import NodePlane.Xray.Enforcement

/-! Journaled blocks and their rules: while nothing fails between the record of a block
and its rule, and Xray's restarts are noticed, every block has its rule. -/
namespace NodePlane
namespace Xray
namespace Admission
open Library

/-- The rules already recorded that a failing call leaves out. -/
def undone : ApiCall → Outcome → ℕ
  | .restored _ left, .refused => left + 1
  | .restored _ left, .lost => left
  | .blocked _ left, .refused => left + 1
  | .blocked _ left, .lost => left
  | .expired _ _ due, .refused => due
  | .expired _ _ due, .lost => due
  | .closed _ _ left, .refused => left
  | .closed _ _ left, .lost => left
  | _, _ => 0

/-- No rule carries the prefix of the agent's eviction rules. -/
def Foreign (rules : List RouteRule) : Prop := ∀ rule ∈ rules, isEvict rule.ruleTag = false

instance (rules : List RouteRule) : Decidable (Foreign rules) :=
  inferInstanceAs (Decidable (∀ rule ∈ rules, isEvict rule.ruleTag = false))

theorem isEvict_tag (n : ℕ) : isEvict (evictTag n) = true := by
  simp [isEvict, evictTag]

theorem evictTag_ne_empty (n : ℕ) : (evictTag n).isEmpty = false := by
  have letters : (evictTag n).toList ≠ [] := by
    simp [evictTag, evictPrefix]
  simpa using letters

section
variable {inputs : Inputs} {xray : Process}

/-- Only rules with one of the tags go. -/
theorem removeRules_keeps (undisturbed : inputs.Undisturbed) (site : String → ℕ → ApiCall)
    (tags : List String) (xray : Process) :
    ∃ rules, (inputs.removeRules site tags xray).1 = { xray with rules := rules } ∧
      (∀ rule ∈ rules, rule ∈ xray.rules) ∧
      ∀ rule ∈ xray.rules, rule.ruleTag ∉ tags → rule ∈ rules := by
  induction tags generalizing xray with
  | nil => exact ⟨xray.rules, rfl, fun _ h => h, fun _ h _ => h⟩
  | cons ruleTag rest ih =>
    rw [Inputs.removeRules, Answers.perform_undisturbed undisturbed]
    have later : ∃ rules, (inputs.removeRules site rest (xray.removeRule ruleTag)).1 =
        { xray with rules := rules } ∧ (∀ rule ∈ rules, rule ∈ xray.rules) ∧
        ∀ rule ∈ xray.rules, rule.ruleTag ∉ ruleTag :: rest → rule ∈ rules := by
      obtain ⟨rules, same, old, stay⟩ := ih (xray.removeRule ruleTag)
      refine ⟨rules, same, ?_, ?_⟩
      · intro rule held
        exact List.mem_of_mem_filter (old rule held)
      · intro rule held apart
        rw [List.mem_cons, not_or] at apart
        refine stay rule ?_ apart.2
        exact List.mem_filter.mpr ⟨held, by simpa using apart.1⟩
    cases outcome : inputs.outcome (site ruleTag rest.length) with
    | answered => exact later
    | refused => exact ⟨xray.rules, rfl, fun _ h => h, fun _ h _ => h⟩
    | lost =>
      refine ⟨(xray.removeRule ruleTag).rules, rfl, fun _ h => List.mem_of_mem_filter h, ?_⟩
      intro rule held apart
      rw [List.mem_cons, not_or] at apart
      exact List.mem_filter.mpr ⟨held, by simpa using apart.1⟩

theorem removeRules_answered (undisturbed : inputs.Undisturbed) {site : String → ℕ → ApiCall}
    (answered : ∀ ruleTag left, inputs.outcome (site ruleTag left) = .answered)
    (tags : List String) (xray : Process) : (inputs.removeRules site tags xray).2 = .ok () := by
  induction tags generalizing xray with
  | nil => rfl
  | cons ruleTag rest ih =>
    rw [Inputs.removeRules, Answers.perform_undisturbed undisturbed, answered]
    exact ih (xray.removeRule ruleTag)

/-- A rule whose tag is free, with a user, is taken. -/
theorem addRule_free {rule : RouteRule} (named : rule.ruleTag.isEmpty = false)
    (routed : rule.outboundTag.isEmpty = false) (users : rule.users ≠ [])
    (free : ∀ other ∈ xray.rules, other.ruleTag ≠ rule.ruleTag) :
    xray.addRule rule = .ok { xray with rules := xray.rules ++ [rule] } := by
  have unused : (xray.rules.any fun other => decide (other.ruleTag = rule.ruleTag)) = false := by
    simpa using free
  have some_user : rule.users.isEmpty = false := by
    simpa using users
  rw [Process.addRule, named, routed, some_user, unused]
  rfl

/-- Rules to be added: each with a tag and users, and no tag in use or twice. -/
structure Addable (xray : Process) (rules : List RouteRule) : Prop where
  named : ∀ rule ∈ rules, rule.ruleTag.isEmpty = false
  routed : ∀ rule ∈ rules, rule.outboundTag.isEmpty = false
  users : ∀ rule ∈ rules, rule.users ≠ []
  free : ∀ rule ∈ rules, ∀ other ∈ xray.rules, other.ruleTag ≠ rule.ruleTag
  distinct : (rules.map RouteRule.ruleTag).Nodup

theorem Addable.head {rule : RouteRule} {rest : List RouteRule} (addable : Addable xray (rule :: rest)) :
    xray.addRule rule = .ok { xray with rules := xray.rules ++ [rule] } :=
  addRule_free (addable.named rule List.mem_cons_self) (addable.routed rule List.mem_cons_self)
    (addable.users rule List.mem_cons_self) (addable.free rule List.mem_cons_self)

theorem Addable.tail {rule : RouteRule} {rest : List RouteRule} (addable : Addable xray (rule :: rest)) :
    Addable { xray with rules := xray.rules ++ [rule] } rest := by
  have distinct := addable.distinct
  rw [List.map_cons, List.nodup_cons] at distinct
  refine ⟨fun r h => addable.named r (List.mem_cons_of_mem _ h),
    fun r h => addable.routed r (List.mem_cons_of_mem _ h),
    fun r h => addable.users r (List.mem_cons_of_mem _ h), ?_, distinct.2⟩
  intro r member other held
  rcases List.mem_append.mp held with held | held
  · exact addable.free r (List.mem_cons_of_mem _ member) other held
  · rw [List.mem_singleton.mp held]
    intro same
    apply distinct.1
    rw [same]
    exact List.mem_map_of_mem member

/-- No failing call of the pass leaves a recorded rule out. -/
def Inputs.Complete (inputs : Inputs) : Prop := ∀ c, undone c (inputs.outcome c) = 0

theorem restoreRules_complete (undisturbed : inputs.Undisturbed) (complete : inputs.Complete)
    (rules : List RouteRule) (xray : Process) (addable : Addable xray rules) :
    (inputs.restoreRules rules xray).1 = { xray with rules := xray.rules ++ rules } := by
  induction rules generalizing xray with
  | nil => simp [Inputs.restoreRules]
  | cons rule rest ih =>
    rw [Inputs.restoreRules, Answers.perform_undisturbed undisturbed, addable.head]
    have later := ih _ addable.tail
    have done := complete (.restored rule.ruleTag rest.length)
    cases outcome : inputs.outcome (.restored rule.ruleTag rest.length) with
    | answered => simpa [call] using later
    | refused => simp [undone, outcome] at done
    | lost =>
      have last : rest = [] := by
        simpa [undone, outcome] using done
      rw [last]
      rfl

theorem closeConnections_undisturbed (undisturbed : inputs.Undisturbed) (ruleTag : String) (left : ℕ)
    (inbounds : List String) : (inputs.closeConnections ruleTag left inbounds xray).1 = xray := by
  induction inbounds with
  | nil => rfl
  | cons inbound rest ih =>
    rw [Inputs.closeConnections, Answers.before_undisturbed undisturbed]
    split
    · rfl
    · exact ih

theorem closeConnections_complete (complete : inputs.Complete) (ruleTag : String) {left : ℕ}
    (more : 0 < left) (inbounds : List String) (xray : Process) :
    (inputs.closeConnections ruleTag left inbounds xray).2 = .ok () := by
  induction inbounds generalizing xray with
  | nil => rfl
  | cons inbound rest ih =>
    have done := complete (.closed ruleTag inbound left)
    have answered : inputs.fails (.closed ruleTag inbound left) = false := by
      cases outcome : inputs.outcome (.closed ruleTag inbound left) with
      | answered => simp [Answers.fails, outcome, Outcome.fails]
      | refused =>
        simp only [undone, outcome] at done
        omega
      | lost =>
        simp only [undone, outcome] at done
        omega
    rw [Inputs.closeConnections, answered]
    exact ih _

def blockRules (inbounds : List String) (added : List (String × String × String)) : List RouteRule :=
  added.map fun block => rule block.1 block.2.1 block.2.2 inbounds

theorem addBlocks_complete (undisturbed : inputs.Undisturbed) (complete : inputs.Complete)
    {inbounds : List String} (added : List (String × String × String)) (xray : Process)
    (addable : Addable xray (blockRules inbounds added)) :
    (inputs.addBlocks inbounds added xray).1 =
      { xray with rules := xray.rules ++ blockRules inbounds added } := by
  induction added generalizing xray with
  | nil => simp [Inputs.addBlocks, blockRules]
  | cons block rest ih =>
    obtain ⟨ruleTag, name, source⟩ := block
    rw [Inputs.addBlocks, Answers.perform_undisturbed undisturbed, addable.head]
    have later := ih _ addable.tail
    have done := complete (.blocked ruleTag rest.length)
    cases outcome : inputs.outcome (.blocked ruleTag rest.length) with
    | answered =>
      have same := @closeConnections_undisturbed _
        { xray with rules := xray.rules ++ [rule ruleTag name source inbounds] }
        undisturbed ruleTag rest.length inbounds
      have closes : rest ≠ [] → (inputs.closeConnections ruleTag rest.length inbounds
          { xray with rules := xray.rules ++ [rule ruleTag name source inbounds] }).2 = .ok () :=
        fun more => closeConnections_complete complete ruleTag (List.length_pos_iff.mpr more) _ _
      simp only [call]
      generalize inputs.closeConnections ruleTag rest.length inbounds _ = closed at same closes
      obtain ⟨next, result⟩ := closed
      subst same
      cases result with
      | ok => simpa [blockRules] using later
      | error err =>
        have last : rest = [] := by
          by_contra more
          cases closes more
        rw [last]
        rfl
    | refused => simp [undone, outcome] at done
    | lost =>
      have last : rest = [] := by
        simpa [undone, outcome] using done
      rw [last]
      rfl

end

/-! Where a block comes from. -/

theorem mem_blocks {state : State} {name source : String} {block : Block} :
    (name, source, block) ∈ state.blocks ↔
      ∃ client : Client, state.clients[name]? = some client ∧ client.blocks[source]? = some block := by
  simp only [State.blocks, List.mem_flatMap, List.mem_map, Prod.mk.injEq]
  constructor
  · rintro ⟨⟨n, client⟩, held, ⟨s, b⟩, row, rfl, rfl, rfl⟩
    exact ⟨client, BTreeMap.mem_toList.mp held, BTreeMap.mem_toList.mp row⟩
  · rintro ⟨client, held, row⟩
    exact ⟨(name, client), BTreeMap.mem_toList.mpr held, (source, block),
      BTreeMap.mem_toList.mpr row, rfl, rfl, rfl⟩

theorem tag_of_block {state : State} {block : String × String × Block} (held : block ∈ state.blocks) :
    block.2.2.ruleTag ∈ state.tags :=
  List.mem_map_of_mem held

section
variable {email : String} {policy : Policy} {now : ℕ}

theorem evict_origin (pass : Pass) (source : String) :
    (∀ added ∈ pass.changes.add, added ∈ (pass.evict email policy now source).changes.add) ∧
      ∀ (key : String) (block : Block),
        (pass.evict email policy now source).client.blocks[key]? = some block →
          pass.client.blocks[key]? = some block ∨
            (block.ruleTag, email, key) ∈ (pass.evict email policy now source).changes.add := by
  cases enforcing : policy.mode with
  | observe =>
    obtain ⟨-, add, -, -, blocks⟩ := @evict_observe email _ now enforcing pass source
    rw [add, blocks]
    exact ⟨fun _ member => member, fun _ _ held => .inl held⟩
  | enforce =>
    rw [evict_enforce enforcing]
    refine ⟨fun _ member => List.mem_append_left _ member, ?_⟩
    intro key block held
    rw [BTreeMap.get_insert] at held
    split at held
    next same =>
      rw [← Option.some.inj held, ← same]
      exact .inr (List.mem_append_right _ List.mem_cons_self)
    · exact .inl held

theorem evictions_origin (sources : List String) (pass : Pass) :
    (∀ added ∈ pass.changes.add,
        added ∈ (sources.foldl (Pass.evict email policy now) pass).changes.add) ∧
      ∀ (key : String) (block : Block),
        (sources.foldl (Pass.evict email policy now) pass).client.blocks[key]? = some block →
          pass.client.blocks[key]? = some block ∨ (block.ruleTag, email, key) ∈
            (sources.foldl (Pass.evict email policy now) pass).changes.add := by
  induction sources generalizing pass with
  | nil => exact ⟨fun _ member => member, fun _ _ held => .inl held⟩
  | cons source rest ih =>
    obtain ⟨grow, origin⟩ := @evict_origin email policy now pass source
    obtain ⟨more, later⟩ := ih (pass.evict email policy now source)
    refine ⟨fun added member => more added (grow added member), ?_⟩
    intro key block held
    rcases later key block held with old | new
    · rcases origin key block old with old | new
      · exact .inl old
      · exact .inr (more _ new)
    · exact .inr new

end

section
variable {sourceKey : String → Option String} {state : State} {email : String} {policy : Policy}
  {online : BTreeMap String Int} {now : ℕ}

theorem observe_origin {block : String × String × Block}
    (held : block ∈ (state.observe sourceKey email policy online now).1.blocks) :
    block ∈ state.blocks ∨ (block.2.2.ruleTag, block.1, block.2.1) ∈
      (state.observe sourceKey email policy online now).2.add := by
  obtain ⟨name, source, block⟩ := block
  obtain ⟨client, found, row⟩ := mem_blocks.mp held
  by_cases same : email = name
  · subst same
    rw [observe_client] at found
    rw [← Option.some.inj found, State.pass] at row
    rcases (evictions_origin _ _).2 source block row with old | new
    · refine .inl (mem_blocks.mpr ?_)
      simp only [State.counted, Client.expire, BTreeMap.get_filter, Option.filter_eq_some_iff] at old
      cases known : state.clients[email]? with
      | none => simp [known, Client.default] at old
      | some client => exact ⟨client, rfl, by simpa [known] using old.1⟩
    · exact .inr new
  · rw [State.observe, BTreeMap.get_insert, if_neg same] at found
    exact .inl (mem_blocks.mpr ⟨client, found, row⟩)

theorem retain_origin {policies : BTreeMap String Policy} {block : String × String × Block}
    (held : block ∈ (state.retainPolicies policies).1.blocks) : block ∈ state.blocks := by
  obtain ⟨name, source, block⟩ := block
  obtain ⟨client, found, row⟩ := mem_blocks.mp held
  simp only [State.retainPolicies, Std.ExtTreeMap.getElem?_map, BTreeMap.get_filter,
    Option.map_eq_some_iff, Option.filter_eq_some_iff] at found
  obtain ⟨old, ⟨known, -⟩, same⟩ := found
  refine mem_blocks.mpr ⟨old, known, ?_⟩
  rw [← same] at row
  split at row
  · simp at row
  · exact row

/-- A client nobody has connected as has nothing to add. -/
theorem observe_offline : (state.observe sourceKey email policy ∅ now).2.add = [] := by
  have empty : ∀ client : Client, client.active sourceKey policy ∅ now = ∅ := fun _ => rfl
  have uncounted : (state.counted sourceKey email policy ∅ now).1.sources = ∅ := by
    apply Std.ExtTreeMap.ext_getElem?
    intro key
    rw [State.counted]
    dsimp only
    rw [empty]
    simp [admitSources, BTreeMap.get_upsertAll]
  have nobody : (state.counted sourceKey email policy ∅ now).1.excess policy = [] := by
    apply List.eq_nil_of_length_eq_zero
    rw [excess_length, uncounted, Std.ExtTreeMap.size_empty, Nat.zero_sub]
  rw [State.observe, State.pass, nobody]
  rfl

/-- The tags of new rules are the next numbers. -/
theorem observe_numbers {tag : String}
    (given : tag ∈ (state.observe sourceKey email policy online now).2.add.map Prod.fst) :
    ∃ n, state.nextRule ≤ n ∧
      n < (state.observe sourceKey email policy online now).1.nextRule ∧ tag = evictTag n := by
  obtain ⟨⟨count, number, fresh⟩, -⟩ := @pass_tags sourceKey state email policy online now
  rw [State.observe, fresh] at given
  obtain ⟨n, span, same⟩ := List.mem_map.mp given
  rw [List.mem_range'_1] at span
  refine ⟨n, span.1, ?_, same.symm⟩
  rw [State.observe, number]
  exact span.2

theorem observe_numbered : (state.observe sourceKey email policy online now).2.add.map Prod.fst =
    (List.range' state.nextRule ((state.observe sourceKey email policy online now).1.nextRule -
      state.nextRule)).map evictTag := by
  obtain ⟨⟨count, number, fresh⟩, -⟩ := @pass_tags sourceKey state email policy online now
  rw [State.observe, fresh, number, Nat.add_sub_cancel_left]

end

/-- What was taken back names no block that stays. -/
theorem removed_apart {history : List Changes} {state : State} (kept : Kept history state)
    {tag : String} (gone : tag ∈ removed history) : tag ∉ state.tags := by
  have distinct := kept.balance.nodup_iff.mpr (added_nodup kept)
  intro held
  exact (List.nodup_append.mp distinct).2.2 tag held tag gone rfl

/-! The state and Xray, over a pass and over a run. -/

/-- Every rule of the agent's in Xray has a number given out. -/
def Bounded (rules : List RouteRule) (nextRule : ℕ) : Prop :=
  ∀ rule ∈ rules, isEvict rule.ruleTag = true → ∃ n < nextRule, rule.ruleTag = evictTag n

structure Sound (system : System) : Prop where
  kept : ∃ history, Kept history system.state
  bounded : Bounded system.xray.rules system.state.nextRule
  dark : system.xray.asked = false → Foreign system.xray.rules
  unlooked : system.state.xrayUptime = none → system.state.blocks = []
  looked : system.xray.asked = true →
    (∃ u, system.state.xrayUptime = some u ∧ u ≤ system.xray.uptime) ∧
      ∀ block ∈ system.state.blocks, Enforced system.xray.rules block

section
variable {sourceKey : String → Option String} {inputs : Inputs} {system : System}

/-- An Xray that was asked since it started. -/
structure Looked (system : System) : Prop where
  sound : Sound system
  asked : system.xray.asked = true

theorem onlineSources_undisturbed (undisturbed : inputs.Undisturbed) (name : String)
    (emails : List String) (sources : BTreeMap String Int) (xray : Process) :
    (inputs.onlineSources name emails sources xray).1 = xray := by
  induction emails generalizing sources with
  | nil => rfl
  | cons email rest ih =>
    rw [Inputs.onlineSources, Answers.before_undisturbed undisturbed]
    split
    · rfl
    · exact ih _

theorem blockRules_addable {inbounds : List String} (inbound : inbounds ≠ [])
    {state : State} {name : String} {policy : Policy} {online : BTreeMap String Int} {now : ℕ}
    {xray : Process} (bounded : Bounded xray.rules state.nextRule) :
    Addable xray (blockRules inbounds (state.observe sourceKey name policy online now).2.add) := by
  have numbered : ∀ r ∈ blockRules inbounds (state.observe sourceKey name policy online now).2.add,
      ∃ n, state.nextRule ≤ n ∧ r.ruleTag = evictTag n := by
    intro r member
    obtain ⟨added, held, rfl⟩ := List.mem_map.mp member
    obtain ⟨n, from_, -, same⟩ := observe_numbers (List.mem_map_of_mem (f := Prod.fst) held)
    exact ⟨n, from_, same⟩
  refine ⟨?_, ?_, ?_, ?_, ?_⟩
  · intro r member
    obtain ⟨n, -, same⟩ := numbered r member
    rw [same]
    exact evictTag_ne_empty n
  · intro r member
    obtain ⟨added, -, rfl⟩ := List.mem_map.mp member
    exact rfl
  · intro r member
    obtain ⟨added, -, rfl⟩ := List.mem_map.mp member
    simpa [rule, emails] using inbound
  · intro r member other held same
    obtain ⟨n, from_, number⟩ := numbered r member
    rw [number] at same
    obtain ⟨m, below, old⟩ := bounded other held (by rw [same]; exact isEvict_tag n)
    have equal := evictTag_injective (old.symm.trans same)
    omega
  · have tags : (blockRules inbounds (state.observe sourceKey name policy online now).2.add).map
        RouteRule.ruleTag =
          (state.observe sourceKey name policy online now).2.add.map Prod.fst := by
      simp [blockRules, rule, Function.comp_def]
    rw [tags, observe_numbered]
    exact List.Nodup.map (fun _ _ same => evictTag_injective same) List.nodup_range'

theorem Bounded.grow {rules : List RouteRule} {m n : ℕ} (bounded : Bounded rules m) (more : m ≤ n) :
    Bounded rules n := by
  intro r held evicts
  obtain ⟨k, below, same⟩ := bounded r held evicts
  exact ⟨k, by omega, same⟩

theorem observe_grows {state : State} {name : String} {policy : Policy}
    {online : BTreeMap String Int} {now : ℕ} :
    state.nextRule ≤ (state.observe sourceKey name policy online now).1.nextRule := by
  obtain ⟨⟨count, number, -⟩, -⟩ := @pass_tags sourceKey state name policy online now
  rw [State.observe, number]
  exact Nat.le_add_right _ _

/-- After an observation, rules that kept every other tag and gained the new ones. -/
theorem looked_observe {history : List Changes} {state : State} {name : String} {policy : Policy}
    {online : BTreeMap String Int} {now : ℕ} {xray : Process} {rules : List RouteRule}
    {inbounds : List String} (looked : Looked ⟨state, xray⟩) (kept : Kept history state)
    (old : ∀ r ∈ rules, r ∈ xray.rules ∨
      r ∈ blockRules inbounds (state.observe sourceKey name policy online now).2.add)
    (stay : ∀ r ∈ xray.rules,
      r.ruleTag ∉ (state.observe sourceKey name policy online now).2.remove → r ∈ rules)
    (new : ∀ r ∈ blockRules inbounds (state.observe sourceKey name policy online now).2.add,
      r ∈ rules) :
    Looked ⟨(state.observe sourceKey name policy online now).1, { xray with rules := rules }⟩ := by
  have next := @observe_kept sourceKey _ _ name policy online now kept
  obtain ⟨uptime, enforced⟩ := looked.sound.looked looked.asked
  refine ⟨⟨⟨_, next⟩, ?_, ?_, ?_, ?_⟩, looked.asked⟩
  · intro r held evicts
    rcases old r held with before | added
    · exact (looked.sound.bounded.grow observe_grows) r before evicts
    · obtain ⟨block, member, rfl⟩ := List.mem_map.mp added
      obtain ⟨n, -, below, same⟩ := observe_numbers (List.mem_map_of_mem (f := Prod.fst) member)
      exact ⟨n, below, same⟩
  · intro unasked
    exact Bool.noConfusion (looked.asked.symm.trans unasked)
  · intro unlooked
    obtain ⟨u, recorded, -⟩ := uptime
    exact absurd (recorded.symm.trans unlooked) (Option.some_ne_none u)
  · intro _
    refine ⟨uptime, ?_⟩
    intro block held
    rcases observe_origin held with before | added
    · obtain ⟨inbounds, rule_held⟩ := enforced block before
      refine ⟨inbounds, stay _ rule_held ?_⟩
      intro gone
      refine removed_apart next ?_ (tag_of_block held)
      rw [removed, List.flatMap_append]
      exact List.mem_append_right _ (List.mem_flatMap.mpr ⟨_, List.mem_singleton_self _, gone⟩)
    · exact ⟨inbounds, new _ (List.mem_map.mpr ⟨_, added, rfl⟩)⟩

theorem enforce_looked {inbounds : List String} {name : String} {policy : Policy}
    (undisturbed : inputs.Undisturbed) (complete : inputs.Complete) (looked : Looked system) :
    Looked (system.enforce sourceKey inputs inbounds name policy).1 := by
  obtain ⟨history, kept⟩ := looked.sound.kept
  have asks := onlineSources_undisturbed undisturbed name (emails name inbounds) ∅ system.xray
  rw [System.enforce]
  generalize answer : inputs.onlineSources name (emails name inbounds) ∅ system.xray = answered at asks
  obtain ⟨xray, result⟩ := answered
  change xray = system.xray at asks
  subst asks
  cases result with
  | error err => exact looked
  | ok online =>
    dsimp only
    obtain ⟨rules, removal, from_, stay⟩ := removeRules_keeps undisturbed
      (fun ruleTag left => .expired ruleTag left
        (system.state.observe sourceKey name policy online inputs.now).2.add.length)
      (system.state.observe sourceKey name policy online inputs.now).2.remove system.xray
    have finishes : (system.state.observe sourceKey name policy online inputs.now).2.add ≠ [] →
        (inputs.removeRules (fun ruleTag left => .expired ruleTag left
          (system.state.observe sourceKey name policy online inputs.now).2.add.length)
          (system.state.observe sourceKey name policy online inputs.now).2.remove
          system.xray).2 = .ok () := by
      intro some_due
      apply removeRules_answered undisturbed
      intro ruleTag left
      have done := complete (.expired ruleTag left
        (system.state.observe sourceKey name policy online inputs.now).2.add.length)
      have due := List.length_pos_iff.mpr some_due
      cases outcome : inputs.outcome (.expired ruleTag left
          (system.state.observe sourceKey name policy online inputs.now).2.add.length) with
      | answered => rfl
      | refused =>
        simp only [undone, outcome] at done
        omega
      | lost =>
        simp only [undone, outcome] at done
        omega
    generalize inputs.removeRules _ _ system.xray = removes at removal finishes
    obtain ⟨xray, result⟩ := removes
    change xray = _ at removal
    subst removal
    by_cases idle : (system.state.observe sourceKey name policy online inputs.now).2.add = []
    · have after := @looked_observe _ _ _ _ _ _ _ _ _ inbounds looked kept
        (fun r held => .inl (from_ r held)) stay (by simp [idle, blockRules])
      cases result with
      | error err => exact after
      | ok => simpa [idle, Inputs.addBlocks] using after
    · have inbound : inbounds ≠ [] := by
        intro none
        apply idle
        have offline : online = ∅ := by
          rw [none] at answer
          exact (Except.ok.inj (Prod.mk.inj answer).2).symm
        rw [offline]
        exact observe_offline
      cases result with
      | error err => cases finishes idle
      | ok =>
        have adds := addBlocks_complete undisturbed complete _ { system.xray with rules := rules }
          (@blockRules_addable sourceKey _ inbound system.state name policy online inputs.now _
            fun r held => looked.sound.bounded r (from_ r held))
        have after := @looked_observe _ _ _ _ _ _ _ _ (rules ++ blockRules inbounds
            (system.state.observe sourceKey name policy online inputs.now).2.add) inbounds
          looked kept (fun r held => (List.mem_append.mp held).imp_left (from_ r))
          (fun r held apart => List.mem_append_left _ (stay r held apart))
          (fun r held => List.mem_append_right _ held)
        dsimp only
        generalize inputs.addBlocks inbounds _ _ = added at adds
        obtain ⟨xray, result⟩ := added
        change xray = _ at adds
        subst adds
        cases result with
        | error err => exact after
        | ok => exact after

theorem enforceAll_looked {inbounds : List String} (undisturbed : inputs.Undisturbed)
    (complete : inputs.Complete) (clients : List (String × Policy)) (events : List Event)
    (looked : Looked system) :
    Looked (System.enforceAll sourceKey inputs inbounds clients events system).1 := by
  induction clients generalizing system events with
  | nil => exact looked
  | cons client rest ih =>
    obtain ⟨name, policy⟩ := client
    have one := @enforce_looked sourceKey _ _ inbounds name policy undisturbed complete looked
    rw [System.enforceAll]
    generalize system.enforce sourceKey inputs inbounds name policy = done at one
    obtain ⟨next, result⟩ := done
    cases result with
    | error err => exact one
    | ok more => exact ih (events ++ more) one

/-- Dropping policies drops the rules of their blocks only. -/
theorem retain_sound (undisturbed : inputs.Undisturbed) (sound : Sound system) :
    ∃ rules, (inputs.removeRules .retained (system.state.retainPolicies inputs.policies).2
        system.xray).1 = { system.xray with rules := rules } ∧
      Sound ⟨(system.state.retainPolicies inputs.policies).1, { system.xray with rules := rules }⟩ := by
  obtain ⟨history, kept⟩ := sound.kept
  have next := retain_kept inputs.policies kept
  obtain ⟨rules, same, old, stay⟩ := removeRules_keeps undisturbed .retained
    (system.state.retainPolicies inputs.policies).2 system.xray
  refine ⟨rules, same, ⟨_, next⟩, ?_, ?_, ?_, ?_⟩
  · exact fun r held => sound.bounded r (old r held)
  · exact fun unasked r held => sound.dark unasked r (old r held)
  · intro unlooked
    have nothing := sound.unlooked unlooked
    rw [List.eq_nil_iff_forall_not_mem] at nothing ⊢
    exact fun block held => nothing block (retain_origin held)
  · intro asked
    obtain ⟨uptime, enforced⟩ := sound.looked asked
    refine ⟨uptime, ?_⟩
    intro block held
    obtain ⟨inbounds, present⟩ := enforced block (retain_origin held)
    refine ⟨inbounds, stay _ present ?_⟩
    intro gone
    refine removed_apart next ?_ (tag_of_block held)
    rw [removed, List.flatMap_append]
    exact List.mem_append_right _ (List.mem_flatMap.mpr ⟨_, List.mem_singleton_self _, gone⟩)

/-- Looking at the uptime brings the rules of a restarted Xray back. -/
theorem restore_looked {inbounds : List String} (undisturbed : inputs.Undisturbed)
    (complete : inputs.Complete) (sound : Sound system)
    (noticed : system.xray.asked = false → system.state.blocks ≠ [] →
      (∃ u, system.state.xrayUptime = some u ∧ system.xray.uptime < u) ∧ inbounds ≠ []) :
    Looked (System.restore inputs inbounds (system.state.xrayRestarted system.xray.uptime).2
      ⟨(system.state.xrayRestarted system.xray.uptime).1, { system.xray with asked := true }⟩).1 := by
  obtain ⟨history, kept⟩ := sound.kept
  have next : Kept history (system.state.xrayRestarted system.xray.uptime).1 :=
    ⟨kept.unblocked, kept.numbered, kept.balance⟩
  have lit : ∀ rules : List RouteRule, Bounded rules system.state.nextRule →
      (∀ block ∈ system.state.blocks, Enforced rules block) →
      Looked ⟨(system.state.xrayRestarted system.xray.uptime).1,
        { system.xray with asked := true, rules := rules }⟩ := by
    intro rules bounded enforced
    refine ⟨⟨⟨history, next⟩, bounded, ?_, ?_, ?_⟩, rfl⟩
    · exact fun unasked => Bool.noConfusion unasked
    · exact fun unlooked => absurd unlooked (Option.some_ne_none _)
    · exact fun _ => ⟨⟨_, rfl, Nat.le_refl _⟩, enforced⟩
  rw [System.restore]
  cases asked : system.xray.asked with
  | true =>
    obtain ⟨⟨u, recorded, below⟩, enforced⟩ := sound.looked asked
    have running : (system.state.xrayRestarted system.xray.uptime).2 = false := by
      simp only [State.xrayRestarted, recorded, Option.any_some, decide_eq_false_iff_not]
      omega
    rw [running]
    exact lit _ sound.bounded enforced
  | false =>
    by_cases idle : system.state.blocks = []
    · have nothing : ∀ block ∈ system.state.blocks, Enforced system.xray.rules block := by
        rw [idle]
        exact fun block held => absurd held List.not_mem_nil
      split
      · have blocks : (system.state.xrayRestarted system.xray.uptime).1.blocks = [] := idle
        dsimp only
        rw [blocks]
        exact lit _ sound.bounded nothing
      · exact lit _ sound.bounded nothing
    · obtain ⟨⟨u, recorded, above⟩, inbound⟩ := noticed asked idle
      have restarted : (system.state.xrayRestarted system.xray.uptime).2 = true := by
        simpa [State.xrayRestarted, recorded] using above
      obtain ⟨distinct, numbered⟩ := kept_tags kept
      have addable : Addable { system.xray with asked := true } (system.state.blocks.map fun block =>
          rule block.2.2.ruleTag block.1 block.2.1 inbounds) := by
        refine ⟨?_, ?_, ?_, ?_, ?_⟩
        · intro r member
          obtain ⟨block, held, rfl⟩ := List.mem_map.mp member
          obtain ⟨n, -, same⟩ := numbered _ (tag_of_block held)
          rw [rule, same]
          exact evictTag_ne_empty n
        · intro r member
          obtain ⟨block, -, rfl⟩ := List.mem_map.mp member
          rfl
        · intro r member
          obtain ⟨block, -, rfl⟩ := List.mem_map.mp member
          simpa [rule, emails] using inbound
        · intro r member other held same
          obtain ⟨block, of_state, rfl⟩ := List.mem_map.mp member
          obtain ⟨n, -, number⟩ := numbered _ (tag_of_block of_state)
          have foreign := sound.dark asked other held
          rw [same, rule, number, isEvict_tag] at foreign
          cases foreign
        · simpa [rule, Function.comp_def, State.tags] using distinct
      have adds := restoreRules_complete undisturbed complete _ _ addable
      rw [restarted, if_pos rfl]
      dsimp only
      have blocks : (system.state.xrayRestarted system.xray.uptime).1.blocks = system.state.blocks := rfl
      rw [blocks, adds]
      apply lit
      · intro r held evicts
        rcases List.mem_append.mp held with before | added
        · exact sound.bounded r before evicts
        · obtain ⟨block, of_state, rfl⟩ := List.mem_map.mp added
          exact numbered _ (tag_of_block of_state)
      · intro block held
        exact ⟨inbounds, List.mem_append_right _ (List.mem_map_of_mem held)⟩

/-- A pass on which the journal and Xray stay together. -/
structure Steady (inputs : Inputs) (system : System) : Prop where
  undisturbed : inputs.Undisturbed
  complete : inputs.Complete
  noticed : system.xray.asked = false →
    (system.state.retainPolicies inputs.policies).1.blocks ≠ [] →
      (∃ u, system.state.xrayUptime = some u ∧ system.xray.uptime < u) ∧
        system.xray.config.inbounds.filter validTag ≠ []

theorem step_sound (steady : Steady inputs system) (sound : Sound system) :
    Sound (system.step sourceKey inputs).1 ∧
      ∀ events, (system.step sourceKey inputs).2 = .ok events →
        Looked (system.step sourceKey inputs).1 := by
  obtain ⟨rules, removal, retained⟩ := retain_sound steady.undisturbed sound
  rw [System.step]
  dsimp only
  generalize inputs.removeRules .retained _ system.xray = removes at removal
  obtain ⟨xray, result⟩ := removes
  change xray = _ at removal
  subst removal
  cases result with
  | error err => exact ⟨retained, fun _ done => nomatch done⟩
  | ok =>
    dsimp only
    rw [Answers.before_undisturbed steady.undisturbed, Answers.before_undisturbed steady.undisturbed]
    split
    · exact ⟨retained, fun _ done => nomatch done⟩
    · split
      · exact ⟨retained, fun _ done => nomatch done⟩
      · have restored := @restore_looked _ _ (List.filter validTag system.xray.config.inbounds)
          steady.undisturbed steady.complete retained steady.noticed
        change Looked (System.restore inputs (List.filter validTag system.xray.config.inbounds)
          _ ⟨_, _⟩).1 at restored
        simp only [Process.vlessInboundTags]
        generalize System.restore inputs _ _ _ = back at restored ⊢
        obtain ⟨next, result⟩ := back
        cases result with
        | error err => exact ⟨restored.sound, fun _ done => nomatch done⟩
        | ok =>
          have all := @enforceAll_looked sourceKey _ _
            (List.filter validTag system.xray.config.inbounds) steady.undisturbed
            steady.complete inputs.policies.toList [] restored
          exact ⟨all.sound, fun _ _ => all⟩

theorem tick_sound (steady : Steady inputs system) (sound : Sound system) :
    Sound (system.tick sourceKey inputs).1 ∧
      ∀ events, (system.tick sourceKey inputs).2 = .ok events →
        ∀ block ∈ (system.tick sourceKey inputs).1.state.blocks,
          Enforced (system.tick sourceKey inputs).1.xray.rules block := by
  rw [System.tick]
  split
  next nothing =>
    refine ⟨sound, fun _ _ block held => ?_⟩
    obtain ⟨client, found, -⟩ := mem_blocks.mp held
    have empty := (Bool.and_eq_true_iff.mp nothing).2
    rw [Std.ExtTreeMap.isEmpty_iff] at empty
    rw [empty] at found
    simp at found
  · rw [Answers.before_undisturbed steady.undisturbed]
    split
    · exact ⟨sound, fun _ done => nomatch done⟩
    · obtain ⟨after, looked⟩ := @step_sound sourceKey _ _ steady sound
      refine ⟨after, fun events done => ?_⟩
      have lit := looked events done
      exact (lit.sound.looked lit.asked).2

/-- What leaves the journal and Xray together, whatever happens to the node. -/
def SteadyHappening (system : System) : Happening → Prop
  | .tick inputs => Steady inputs system
  | .elapse _ => True
  | .restart config => Foreign config.rules

def SteadyRun (sourceKey : String → Option String) : System → List Happening → Prop
  | _, [] => True
  | system, happening :: rest =>
    SteadyHappening system happening ∧ SteadyRun sourceKey (happen sourceKey system happening).1 rest

theorem start_sound {config : Config} (foreign : Foreign config.rules) (state : State)
    (kept : ∃ history, Kept history state) (unlooked : state.xrayUptime = none → state.blocks = []) :
    Sound ⟨state, Process.start config⟩ := by
  refine ⟨kept, ?_, fun _ => foreign, unlooked, fun asked => Bool.noConfusion asked⟩
  intro r held evicts
  rw [foreign r held] at evicts
  cases evicts

theorem happen_sound {happening : Happening} (steady : SteadyHappening system happening)
    (sound : Sound system) : Sound (happen sourceKey system happening).1 := by
  cases happening with
  | tick inputs => exact (tick_sound steady sound).1
  | elapse seconds =>
    refine ⟨sound.kept, sound.bounded, sound.dark, sound.unlooked, fun asked => ?_⟩
    obtain ⟨⟨u, recorded, below⟩, enforced⟩ := sound.looked asked
    exact ⟨⟨u, recorded, Nat.le_trans below (Nat.le_add_right _ _)⟩, enforced⟩
  | restart config => exact start_sound steady system.state sound.kept sound.unlooked

theorem run_sound {happenings : List Happening} (steady : SteadyRun sourceKey system happenings)
    (sound : Sound system) : Sound (run (happen sourceKey) system happenings).1 := by
  induction happenings generalizing system with
  | nil => exact sound
  | cons happening rest ih => exact ih steady.2 (happen_sound steady.1 sound)

end

theorem blocks_enforced (sourceKey : String → Option String) (config : Config)
    (foreign : Foreign config.rules) (happenings : List Happening)
    (steady : SteadyRun sourceKey (System.start config) happenings) (inputs : Inputs)
    (next : Steady inputs (after sourceKey config happenings)) (events : List Event)
    (done : ((after sourceKey config happenings).tick sourceKey inputs).2 = .ok events) :
    ∀ block ∈ ((after sourceKey config happenings).tick sourceKey inputs).1.state.blocks,
      inputs.now < block.2.2.expires →
        Enforced ((after sourceKey config happenings).tick sourceKey inputs).1.xray.rules block := by
  have start : Sound (System.start config) :=
    start_sound foreign State.default ⟨[], default_kept⟩ fun _ => rfl
  have sound := run_sound steady start
  intro block held _
  exact (tick_sound next sound).2 events done block held

def sampleKey (ip : String) : Option String := some (ip ++ "/32")

def sampleConfig : Config := ⟨[], [], ["reality-tcp"]⟩

/-- One client with one source allowed, seen from `ips`. -/
def sampleTick (now : ℕ) (ips : List String) : Inputs where
  policies := (∅ : BTreeMap String Policy).insert "phone" ⟨1, .enforce, 120, 300⟩
  now := now
  online := fun email =>
    if email = "phone.reality-tcp" then ips.foldl (fun seen ip => seen.insert ip (now : Int)) ∅
    else ∅
  outcome := fun _ => .answered
  restarts := fun _ => none

/-- A second source evicts the first, and Xray restarts. -/
def sampleRun : List Happening :=
  [.elapse 1000, .tick (sampleTick 1000 ["198.51.100.1"]),
    .tick (sampleTick 1010 ["198.51.100.1", "203.0.113.9"]), .restart sampleConfig, .elapse 20]

theorem sampleTick_complete (now : ℕ) (ips : List String) : (sampleTick now ips).Complete := by
  intro c
  cases c <;> rfl

theorem sampleRun_steady : SteadyRun sampleKey (System.start sampleConfig) sampleRun := by
  refine ⟨trivial, ⟨fun _ => rfl, sampleTick_complete _ _, fun _ blocked => ?_⟩,
    ⟨fun _ => rfl, sampleTick_complete _ _, fun unasked => ?_⟩, ?_, trivial, trivial⟩
  · exact absurd (by decide) blocked
  · exact absurd unasked (by decide)
  · show Foreign sampleConfig.rules
    decide

theorem blocks_enforced_sample :
    sampleConfig.inbounds = ["reality-tcp"] ∧
      Enforced ((after sampleKey sampleConfig sampleRun).tick sampleKey
          (sampleTick 1030 ["203.0.113.9"])).1.xray.rules
        ("phone", "198.51.100.1/32", ⟨"np-evict-0", 1310⟩) := by
  refine ⟨rfl, ?_⟩
  refine blocks_enforced sampleKey sampleConfig (by decide) sampleRun sampleRun_steady
    (sampleTick 1030 ["203.0.113.9"]) ⟨fun _ => rfl, sampleTick_complete _ _, fun _ _ => ?_⟩ []
    (by decide +kernel) _ (by decide +kernel) (by decide)
  exact ⟨⟨1000, by decide +kernel, by decide +kernel⟩, by decide +kernel⟩

/-- The same run where Xray refuses the restored rule once: the next pass returns Ok, with
the block in the journal for another 270 seconds and no rule for it. -/
def lostRun : List Happening :=
  sampleRun ++
    [.tick { sampleTick 1030 ["203.0.113.9"] with
        outcome := fun c => if c = .restored "np-evict-0" 0 then .refused else .answered },
      .elapse 10]

theorem restored_rule_lost :
    ((after sampleKey sampleConfig lostRun).tick sampleKey (sampleTick 1040 ["203.0.113.9"])).2 =
        .ok [] ∧
      ("phone", "198.51.100.1/32", (⟨"np-evict-0", 1310⟩ : Block)) ∈
        ((after sampleKey sampleConfig lostRun).tick sampleKey
          (sampleTick 1040 ["203.0.113.9"])).1.state.blocks ∧
      ¬Enforced ((after sampleKey sampleConfig lostRun).tick sampleKey
          (sampleTick 1040 ["203.0.113.9"])).1.xray.rules
        ("phone", "198.51.100.1/32", ⟨"np-evict-0", 1310⟩) := by
  refine ⟨by decide +kernel, by decide +kernel, ?_⟩
  rintro ⟨inbounds, held⟩
  have none : ((after sampleKey sampleConfig lostRun).tick sampleKey
      (sampleTick 1040 ["203.0.113.9"])).1.xray.rules = [] := by decide +kernel
  rw [none] at held
  cases held

end Admission
end Xray
end NodePlane
