import NodePlane.Xray.Rate
import Std.Data.String.ToNat
import NodePlane.Xray.BlockRules

/-! Rate rules after a pass: each limited client has one rule of its own behind the eviction
rules, while no pass gives out a number whose former client's rule outlives it. -/
namespace NodePlane
namespace Xray
namespace Rate
open Library Shaping

theorem tag_toList (n : ℕ) : (tag n).toList = tagPrefix.toList ++ n.repr.toList := by
  simp [tag]

theorem isRate_tag (n : ℕ) : isRate (tag n) = true := by
  simp [isRate, tag]

theorem tag_injective {m n : ℕ} (same : tag m = tag n) : m = n := by
  have lists := congrArg String.toList same
  rw [tag_toList, tag_toList, List.append_cancel_left_eq] at lists
  exact Nat.repr_injective (String.toList_inj.mp lists)

theorem tag_number (n : ℕ) : number ((tag n).toList.drop tagPrefix.length) = some n := by
  have letters : (tag n).toList.drop tagPrefix.length = Nat.toDigits 10 n := by
    rw [tag_toList, Nat.toList_repr]
    exact List.drop_left
  have digits : (Nat.toDigits 10 n).all Char.isDigit = true :=
    List.all_eq_true.mpr fun c held =>
      Nat.isDigit_of_mem_toDigits (by decide) (by decide) held
  have some_digit : (Nat.toDigits 10 n).isEmpty = false := by
    simp
  rw [letters, number, some_digit, digits, Nat.ofDigitChars_ten_toDigits]
  rfl

/-- No tag is both a rate rule's and an eviction rule's. -/
theorem isEvict_of_isRate {t : String} (rate : isRate t = true) : Admission.isEvict t = false := by
  rw [isRate, List.isPrefixOf_iff_prefix] at rate
  obtain ⟨tail, whole⟩ := rate
  rw [Admission.isEvict, ← whole]
  rfl

/-- The calls left undone by a failing one, of those after which no number given out in the
pass has a former client's rule. -/
def undone : RateCall → Outcome → ℕ
  | .connect, outcome | .outboundTags, outcome | .listRules, outcome | .vlessInboundTags, outcome =>
    if outcome.fails then 1 else 0
  | .removeRule _ given left, .refused => (if given then 1 else 0) + left
  | .removeRule _ _ left, .lost => left
  | _, _ => 0

def Inputs.Complete (inputs : Inputs) : Prop := ∀ c, undone c (inputs.outcome c) = 0

/-- The tags of the rate rules, in order. -/
def rateTags (rules : List RouteRule) : List String :=
  (rules.filter fun rule => isRate rule.ruleTag).map RouteRule.ruleTag

/-- Neither rate rules nor rate outbounds are in the config file. -/
structure Foreign (config : Config) : Prop where
  rules : ∀ rule ∈ config.rules, isRate rule.ruleTag = false
  outbounds : ∀ outbound ∈ config.outbounds, isRate outbound.tag = false

section
variable {inputs : Inputs}

theorem removeRules_removes (undisturbed : inputs.Undisturbed) (fresh tags : List String)
    (xray : Process) :
    ∃ gone : List String,
      (inputs.removeRules fresh tags xray).1 =
        { xray with rules := xray.rules.filter fun rule => !gone.contains rule.ruleTag } ∧
      gone ⊆ tags ∧
      ((inputs.removeRules fresh tags xray).2 = .ok () → tags ⊆ gone) ∧
      (inputs.Complete → ∀ t ∈ tags, t ∈ fresh → t ∈ gone) := by
  induction tags generalizing xray with
  | nil => exact ⟨[], by simp [Inputs.removeRules], List.nil_subset _, fun _ => List.nil_subset _,
      fun _ _ held _ => absurd held List.not_mem_nil⟩
  | cons t rest ih =>
    rw [Inputs.removeRules, Answers.perform_undisturbed undisturbed]
    cases outcome : inputs.outcome
        (.removeRule t (fresh.contains t) (rest.countP fun t => fresh.contains t)) with
    | answered =>
      obtain ⟨gone, same, old, all, given⟩ := ih (xray.removeRule t)
      refine ⟨t :: gone, ?_, List.cons_subset_cons t old, ?_, ?_⟩
      · rw [call, same, Process.removeRule]
        simp only [List.filter_filter, List.contains_cons, Bool.not_or, ne_eq, decide_not,
          beq_eq_decide, Bool.and_comm]
      · exact fun ok => List.cons_subset_cons t (all ok)
      · intro complete s member held
        rcases List.mem_cons.mp member with rfl | later
        · exact List.mem_cons_self
        · exact List.mem_cons_of_mem t (given complete s later held)
    | refused =>
      refine ⟨[], by simp [call], List.nil_subset _, by rintro ⟨⟩, ?_⟩
      intro complete s member held
      have none := complete (.removeRule t (fresh.contains t) (rest.countP fun t => fresh.contains t))
      rw [outcome, undone, Nat.add_eq_zero_iff, List.countP_eq_zero] at none
      rcases List.mem_cons.mp member with rfl | later
      · simp [held] at none
      · exact absurd (by simpa using held) (none.2 s later)
    | lost =>
      refine ⟨[t], ?_, by simp, by rintro ⟨⟩, ?_⟩
      · simp [call, Process.removeRule]
      · intro complete s member held
        have none := complete (.removeRule t (fresh.contains t) (rest.countP fun t => fresh.contains t))
        rw [outcome, undone, List.countP_eq_zero] at none
        rcases List.mem_cons.mp member with rfl | later
        · exact List.mem_cons_self
        · exact absurd (by simpa using held) (none s later)

theorem removeOutbounds_removes (undisturbed : inputs.Undisturbed) (tags : List String)
    (xray : Process) :
    ∃ gone : List String,
      (inputs.removeOutbounds tags xray).1 =
        { xray with outbounds := xray.outbounds.filter fun o => !gone.contains o.tag } ∧
      gone ⊆ tags := by
  induction tags generalizing xray with
  | nil => exact ⟨[], by simp [Inputs.removeOutbounds], List.nil_subset _⟩
  | cons t rest ih =>
    rw [Inputs.removeOutbounds, Answers.perform_undisturbed undisturbed]
    cases outcome : inputs.outcome (.removeOutbound t) with
    | answered =>
      obtain ⟨gone, same, old⟩ := ih (xray.removeOutbound t)
      refine ⟨t :: gone, ?_, List.cons_subset_cons t old⟩
      rw [call, same, Process.removeOutbound]
      simp only [List.filter_filter, List.contains_cons, Bool.not_or, ne_eq, decide_not,
        beq_eq_decide, Bool.and_comm]
    | refused => exact ⟨[], by simp [call], List.nil_subset _⟩
    | lost => exact ⟨[t], by simp [call, Process.removeOutbound], by simp⟩

/-- `next` is `xray` with these rules and outbounds behind its own, for some of `entries`. -/
structure Grown (entries : List (String × String)) (inbounds : List String) (xray next : Process)
    (rules : List RouteRule) (outbounds : List Outbound) : Prop where
  same : next =
    { xray with rules := xray.rules ++ rules, outbounds := xray.outbounds ++ outbounds }
  wanted : ∀ rule ∈ rules, ∃ e ∈ entries, rule = rateRule e.1 e.2 inbounds
  free : ∀ rule ∈ rules, ∀ other ∈ xray.rules, other.ruleTag ≠ rule.ruleTag
  distinct : (rules.map RouteRule.ruleTag).Nodup
  marked : ∀ o ∈ outbounds, ∃ n, o.tag = tag n ∧ o.mark = markBase ||| n

theorem Grown.refl {entries : List (String × String)} {inbounds : List String} {xray : Process} :
    Grown entries inbounds xray xray [] [] :=
  ⟨by simp, fun _ held => absurd held List.not_mem_nil, fun _ held => absurd held List.not_mem_nil,
    List.nodup_nil, fun _ held => absurd held List.not_mem_nil⟩

theorem Grown.trans {e : String × String} {entries : List (String × String)} {inbounds : List String}
    {xray next last : Process} {rules more : List RouteRule} {outbounds others : List Outbound}
    (one : Grown [e] inbounds xray next rules outbounds)
    (two : Grown entries inbounds next last more others) :
    Grown (e :: entries) inbounds xray last (rules ++ more) (outbounds ++ others) := by
  obtain ⟨same, wanted, free, distinct, marked⟩ := one
  subst same
  constructor
  · rw [two.same]
    simp
  · intro rule held
    rcases List.mem_append.mp held with held | held
    · obtain ⟨first, member, shape⟩ := wanted rule held
      rw [List.mem_singleton.mp member] at shape
      exact ⟨e, List.mem_cons_self, shape⟩
    · obtain ⟨entry, member, shape⟩ := two.wanted rule held
      exact ⟨entry, List.mem_cons_of_mem e member, shape⟩
  · intro rule held other before
    rcases List.mem_append.mp held with held | held
    · exact free rule held other before
    · exact two.free rule held other (List.mem_append_left _ before)
  · rw [List.map_append, List.nodup_append]
    refine ⟨distinct, two.distinct, ?_⟩
    intro a first b second
    obtain ⟨rule, held, rfl⟩ := List.mem_map.mp first
    obtain ⟨other, later, rfl⟩ := List.mem_map.mp second
    exact two.free other later rule (List.mem_append_right _ held)
  · intro o held
    rcases List.mem_append.mp held with held | held
    · exact marked o held
    · exact two.marked o held

end

section
variable {inputs : Inputs} {stands : String → Bool} {present inbounds : List String}

/-- What an answered walk has seen to for one entry. -/
def Served (stands : String → Bool) (present inbounds : List String) (rules : List RouteRule)
    (outbounds : List Outbound) (e : String × String) : Prop :=
  (e.1 ∈ present ∨ rateRule e.1 e.2 inbounds ∈ rules) ∧
    (stands e.1 = true ∨ ∃ o ∈ outbounds, o.tag = e.1)

theorem Served.mono {rules more : List RouteRule} {outbounds others : List Outbound}
    {e : String × String} (served : Served stands present inbounds rules outbounds e)
    (rest : rules ⊆ more) (left : outbounds ⊆ others) :
    Served stands present inbounds more others e := by
  refine ⟨served.1.imp_right fun held => rest held, served.2.imp_right ?_⟩
  rintro ⟨o, held, same⟩
  exact ⟨o, left held, same⟩

theorem addRule_grows (undisturbed : inputs.Undisturbed) (t name : String) (xray : Process) :
    ∃ rules, Grown [(t, name)] inbounds xray
        (inputs.perform (.addRule t) (fun x => x.addRule (rateRule t name inbounds)) xray).1 rules [] ∧
      ((inputs.perform (.addRule t) (fun x => x.addRule (rateRule t name inbounds)) xray).2 = .ok () →
        rateRule t name inbounds ∈ rules) := by
  rw [Answers.perform_undisturbed undisturbed, Process.addRule]
  split
  · exact ⟨[], Grown.refl, by rintro ⟨⟩⟩
  · split
    · exact ⟨[], Grown.refl, by rintro ⟨⟩⟩
    next free =>
      have added : Grown [(t, name)] inbounds xray
          { xray with rules := xray.rules ++ [rateRule t name inbounds] }
          [rateRule t name inbounds] [] := by
        refine ⟨by simp, ?_, ?_, by simp, fun _ held => absurd held List.not_mem_nil⟩
        · intro rule held
          exact ⟨(t, name), List.mem_cons_self, List.mem_singleton.mp held⟩
        · intro rule held other before same
          rw [List.mem_singleton.mp held] at same
          exact free (List.any_eq_true.mpr ⟨other, before, by simpa using same⟩)
      cases inputs.outcome (.addRule t) with
      | answered => exact ⟨_, added, fun _ => List.mem_cons_self⟩
      | refused => exact ⟨[], Grown.refl, by rintro ⟨⟩⟩
      | lost => exact ⟨_, added, by rintro ⟨⟩⟩

theorem addOutbound_grows (undisturbed : inputs.Undisturbed) (n : ℕ) (name : String)
    (strategy : Int) (xray : Process) :
    ∃ outbounds, Grown [(tag n, name)] inbounds xray
        (inputs.perform (.addOutbound (tag n))
          (fun x => x.addOutbound ⟨tag n, markBase ||| n, strategy⟩) xray).1 [] outbounds ∧
      ((inputs.perform (.addOutbound (tag n))
          (fun x => x.addOutbound ⟨tag n, markBase ||| n, strategy⟩) xray).2 = .ok () →
        ∃ o ∈ outbounds, o.tag = tag n) := by
  rw [Answers.perform_undisturbed undisturbed, Process.addOutbound]
  split
  · exact ⟨[], Grown.refl, fun done => nomatch done⟩
  · have added : Grown [(tag n, name)] inbounds xray
        { xray with outbounds := xray.outbounds ++ [⟨tag n, markBase ||| n, strategy⟩] }
        [] [⟨tag n, markBase ||| n, strategy⟩] := by
      refine ⟨by simp, fun _ held => absurd held List.not_mem_nil,
        fun _ held => absurd held List.not_mem_nil, List.nodup_nil, ?_⟩
      intro o held
      rw [List.mem_singleton.mp held]
      exact ⟨n, rfl, rfl⟩
    cases inputs.outcome (.addOutbound (tag n)) with
    | answered => exact ⟨_, added, fun _ => ⟨_, List.mem_cons_self, rfl⟩⟩
    | refused => exact ⟨[], Grown.refl, fun done => nomatch done⟩
    | lost => exact ⟨_, added, fun done => nomatch done⟩

/-- Two steps for one entry. -/
theorem Grown.andThen {e : String × String} {xray next last : Process}
    {rules more : List RouteRule} {outbounds others : List Outbound}
    (one : Grown [e] inbounds xray next rules outbounds)
    (two : Grown [e] inbounds next last more others) :
    Grown [e] inbounds xray last (rules ++ more) (outbounds ++ others) := by
  have both := one.trans two
  refine ⟨both.same, ?_, both.free, both.distinct, both.marked⟩
  intro rule held
  obtain ⟨entry, member, shape⟩ := both.wanted rule held
  exact ⟨entry, by simpa using member, shape⟩

theorem addWanted_grows (undisturbed : inputs.Undisturbed) (n : ℕ) (name : String) (xray : Process) :
    ∃ rules outbounds, Grown [(tag n, name)] inbounds xray
        (inputs.addWanted stands present inbounds (tag n) name xray).1 rules outbounds ∧
      ((inputs.addWanted stands present inbounds (tag n) name xray).2 = .ok () →
        Served stands present inbounds rules outbounds (tag n, name)) := by
  have stood : ∃ outbounds, Grown [(tag n, name)] inbounds xray
        (if stands (tag n) then (xray, .ok ()) else
          inputs.perform (.addOutbound (tag n))
            (fun x => x.addOutbound ⟨tag n, markBase ||| n, inputs.strategy⟩) xray :
          Process × Except XrayApiError Unit).1 [] outbounds ∧
      ((if stands (tag n) then (xray, .ok ()) else
          inputs.perform (.addOutbound (tag n))
            (fun x => x.addOutbound ⟨tag n, markBase ||| n, inputs.strategy⟩) xray :
          Process × Except XrayApiError Unit).2 = .ok () →
        stands (tag n) = true ∨ ∃ o ∈ outbounds, o.tag = tag n) := by
    split
    next standing => exact ⟨[], Grown.refl, fun _ => .inl standing⟩
    next =>
      obtain ⟨outbounds, grown, there⟩ :=
        addOutbound_grows undisturbed n name inputs.strategy xray
      exact ⟨outbounds, grown, fun done => .inr (there done)⟩
  rw [Inputs.addWanted, tag_number]
  dsimp only
  obtain ⟨outbounds, grown, there⟩ := stood
  generalize (if stands (tag n) then (xray, .ok ()) else
    inputs.perform (.addOutbound (tag n))
      (fun x => x.addOutbound ⟨tag n, markBase ||| n, inputs.strategy⟩) xray :
    Process × Except XrayApiError Unit) = first at grown there
  obtain ⟨next, result⟩ := first
  cases result with
  | error err => exact ⟨[], outbounds, grown, fun done => nomatch done⟩
  | ok =>
    dsimp only
    split
    next known =>
      refine ⟨[], outbounds, grown, fun _ => ⟨.inl ?_, there rfl⟩⟩
      simpa using known
    next =>
      obtain ⟨rules, more, ruled⟩ :=
        addRule_grows undisturbed (tag n) name next
      refine ⟨rules, outbounds ++ [], grown.andThen more, fun done => ⟨.inr (ruled done), ?_⟩⟩
      simpa using there rfl

theorem addAll_grows (undisturbed : inputs.Undisturbed) (entries : List (String × String))
    (numbered : ∀ e ∈ entries, ∃ n, e.1 = tag n) (xray : Process) :
    ∃ rules outbounds, Grown entries inbounds xray
        (inputs.addAll stands present inbounds entries xray).1 rules outbounds ∧
      ((inputs.addAll stands present inbounds entries xray).2 = .ok () →
        ∀ e ∈ entries, Served stands present inbounds rules outbounds e) := by
  induction entries generalizing xray with
  | nil => exact ⟨[], [], Grown.refl, fun _ _ held => absurd held List.not_mem_nil⟩
  | cons e rest ih =>
    obtain ⟨t, name⟩ := e
    obtain ⟨n, numeral⟩ := numbered (t, name) List.mem_cons_self
    change t = tag n at numeral
    subst numeral
    obtain ⟨rules, outbounds, one, served⟩ :=
      addWanted_grows undisturbed n
        name xray
    rw [Inputs.addAll]
    generalize inputs.addWanted stands present inbounds (tag n) name xray = first at one served
    obtain ⟨next, result⟩ := first
    cases result with
    | error err =>
      refine ⟨rules ++ [], outbounds ++ [], one.trans Grown.refl, fun done => nomatch done⟩
    | ok =>
      obtain ⟨more, others, two, later⟩ :=
        ih (fun e held => numbered e (List.mem_cons_of_mem _ held)) next
      refine ⟨rules ++ more, outbounds ++ others, one.trans two, ?_⟩
      intro done e member
      rcases List.mem_cons.mp member with rfl | member
      · exact (served rfl).mono (List.subset_append_left _ _) (List.subset_append_left _ _)
      · exact (later done e member).mono (List.subset_append_right _ _)
          (List.subset_append_right _ _)

end

/-! Which rules of a listing go and which stay. -/

section
variable {wanted : BTreeMap String String} {fresh : List String}

theorem outdated_present (rules : List RouteRule) :
    (outdated wanted fresh rules ++ present wanted fresh rules).Perm (rateTags rules) := by
  induction rules with
  | nil => exact List.Perm.nil
  | cons rule rest ih =>
    rw [outdated, present, rateTags, List.filter_cons]
    by_cases rate : isRate rule.ruleTag = true
    · rw [if_pos rate, List.map_cons]
      split
      next goes =>
        rw [rate, Bool.true_and] at goes
        rw [goes, if_neg (by simp)]
        exact ih.cons _
      next stays =>
        rw [rate, Bool.true_and, Bool.not_eq_true] at stays
        rw [rate, stays]
        exact List.perm_middle.trans (ih.cons _)
    · rw [Bool.not_eq_true] at rate
      simpa [rate, rateTags] using ih

theorem outdated_isRate {rules : List RouteRule} {t : String}
    (goes : t ∈ outdated wanted fresh rules) : isRate t = true := by
  have listed := (outdated_present rules).mem_iff.mp (List.mem_append_left _ goes)
  obtain ⟨rule, held, rfl⟩ := List.mem_map.mp listed
  exact (List.mem_filter.mp held).2

theorem present_current {rules : List RouteRule} {t : String}
    (stays : t ∈ present wanted fresh rules) : t ∈ wanted ∧ t ∉ fresh := by
  induction rules with
  | nil => exact absurd stays List.not_mem_nil
  | cons rule rest ih =>
    rw [present] at stays
    split at stays
    next current =>
      rcases List.mem_cons.mp stays with rfl | later
      · simp only [Bool.and_eq_true, Bool.not_or, Bool.not_not, Std.ExtTreeMap.contains_iff_mem,
          Bool.not_eq_true', List.contains_eq_mem, decide_eq_false_iff_not] at current
        exact current.2.1
      · exact ih later
    next => exact ih stays

/-- Once the outdated rules are gone, no rate rule stands in front of an eviction rule. -/
theorem outdated_last {gone : List String} (rules : List RouteRule)
    (all : outdated wanted fresh rules ⊆ gone) :
    (rules.filter fun rule => !gone.contains rule.ruleTag).Pairwise fun a b =>
      isRate a.ruleTag = true → Admission.isEvict b.ruleTag = false := by
  induction rules with
  | nil => exact List.Pairwise.nil
  | cons rule rest ih =>
    rw [outdated] at all
    have later := ih fun t held => all (by split <;> simp [held])
    rw [List.filter_cons]
    split
    next stays =>
      refine List.Pairwise.cons ?_ later
      intro other held rate
      by_contra evicts
      rw [Bool.not_eq_false] at evicts
      have behind : (rest.any fun later => Admission.isEvict later.ruleTag) = true :=
        List.any_eq_true.mpr ⟨other, List.mem_of_mem_filter held, evicts⟩
      have gone_too : rule.ruleTag ∈ gone := by
        apply all
        simp [rate, behind]
      simp [gone_too] at stays
    next => exact later

end

theorem wanted_keys {marks : BTreeMap String ℕ} (distinct : Distinct marks) :
    ((marks.toList.map fun e => (tag e.2, e.1)).map Prod.fst).Nodup := by
  rw [List.map_map]
  refine List.Nodup.map_on ?_ (BTreeMap.toList_nodup _)
  rintro ⟨a, m⟩ first ⟨b, n⟩ second same
  change tag m = tag n at same
  have number := tag_injective same
  subst number
  rw [distinct a b m (BTreeMap.mem_toList.mp first) (BTreeMap.mem_toList.mp second)]

/-- The wanted clients by tag. -/
theorem get_wanted {state : State} (distinct : Distinct state.marks) {t name : String} :
    state.wanted[t]? = some name ↔ ∃ n, state.marks[name]? = some n ∧ t = tag n := by
  have entries := BTreeMap.get_inserts _ (wanted_keys distinct) t name
  rw [List.foldl_map] at entries
  rw [State.wanted, Std.ExtTreeMap.foldl_eq_foldl_toList]
  refine entries.trans ?_
  rw [List.mem_map]
  constructor
  · rintro ⟨⟨a, n⟩, held, same⟩
    rw [Prod.mk.injEq] at same
    refine ⟨n, ?_, same.1.symm⟩
    rw [← same.2]
    exact BTreeMap.mem_toList.mp held
  · rintro ⟨n, row, same⟩
    exact ⟨(name, n), BTreeMap.mem_toList.mpr row, by rw [same]⟩

/-- Numbers are told apart, rate rules by their tags, and a rule with a client's tag is that
client's. -/
structure Sound (system : System) : Prop where
  distinct : Distinct system.state.marks
  single : (rateTags system.xray.rules).Nodup
  own : ∀ rule ∈ system.xray.rules, ∀ (name : String) (n : ℕ),
    system.state.marks[name]? = some n → rule.ruleTag = tag n →
      rule = rateRule (tag n) name (system.xray.vlessInboundTags.filter validTag)
  marked : ∀ o ∈ system.xray.outbounds, ∀ n, o.tag = tag n → o.mark = markBase ||| n

/-- Each client has one rule, behind every eviction rule, and its own marked outbound. -/
structure Routed (system : System) : Prop where
  rules : (system.xray.rules.filter fun rule => isRate rule.ruleTag).Perm
    (system.state.marks.toList.map fun e =>
      rateRule (tag e.2) e.1 (system.xray.vlessInboundTags.filter validTag))
  last : system.xray.rules.Pairwise fun a b =>
    isRate a.ruleTag = true → Admission.isEvict b.ruleTag = false
  outbounds : ∀ (name : String) (n : ℕ), system.state.marks[name]? = some n →
    ∃ o ∈ system.xray.outbounds, o.tag = tag n ∧ o.mark = markBase ||| n

theorem mem_rateTags {rules : List RouteRule} {rule : RouteRule} (held : rule ∈ rules) {n : ℕ}
    (same : rule.ruleTag = tag n) : tag n ∈ rateTags rules :=
  List.mem_map.mpr ⟨rule, List.mem_filter.mpr ⟨held, by rw [same]; exact isRate_tag n⟩, same⟩

theorem rateTags_filter {rules : List RouteRule} (keep : RouteRule → Bool) :
    (rateTags (rules.filter keep)).Sublist (rateTags rules) :=
  (List.filter_sublist.filter _).map _

theorem rateTags_append (rules more : List RouteRule) :
    rateTags (rules ++ more) = rateTags rules ++ rateTags more := by
  simp [rateTags]

section
variable {inputs : Inputs} {state : State} {xray next : Process} {rules : List RouteRule}
  {outbounds : List Outbound}

theorem Sound.shrink (sound : Sound ⟨state, xray⟩) (keep : RouteRule → Bool)
    (stay : Outbound → Bool) :
    Sound ⟨state,
      { xray with rules := xray.rules.filter keep, outbounds := xray.outbounds.filter stay }⟩ :=
  ⟨sound.distinct, sound.single.sublist (rateTags_filter keep),
    fun rule held => sound.own rule (List.mem_of_mem_filter held),
    fun o held => sound.marked o (List.mem_of_mem_filter held)⟩

theorem Sound.grow (sound : Sound ⟨state, xray⟩)
    (grown : Grown state.wanted.toList (xray.vlessInboundTags.filter validTag) xray next rules
      outbounds) : Sound ⟨state, next⟩ := by
  obtain ⟨same, wanted, free, distinct, marked⟩ := grown
  subst same
  constructor
  · exact sound.distinct
  · show (rateTags (xray.rules ++ rules)).Nodup
    rw [rateTags_append, List.nodup_append]
    refine ⟨sound.single, distinct.sublist (List.filter_sublist.map _), ?_⟩
    intro a first b second same
    obtain ⟨old, held, rfl⟩ := List.mem_map.mp first
    obtain ⟨new, later, rfl⟩ := List.mem_map.mp second
    exact free new (List.mem_of_mem_filter later) old (List.mem_of_mem_filter held) same
  · intro rule held name n numbered same
    rcases List.mem_append.mp held with held | held
    · exact sound.own rule held name n numbered same
    · obtain ⟨⟨t, other⟩, member, shape⟩ := wanted rule held
      obtain ⟨m, given, numeral⟩ := (get_wanted sound.distinct).mp (BTreeMap.mem_toList.mp member)
      subst shape
      change t = tag n at same
      have number : m = n := tag_injective (numeral.symm.trans same)
      subst number
      rw [sound.distinct name other m numbered given, ← same]
      rfl
  · intro o held n same
    rcases List.mem_append.mp held with held | held
    · exact sound.marked o held n same
    · obtain ⟨m, numeral, mark⟩ := marked o held
      have number : m = n := tag_injective (numeral.symm.trans same)
      rw [mark, number]

/-- What an answered walk over the wanted clients leaves. -/
theorem Sound.routed {fresh gone leaving : List String} {stands : String → Bool}
    (sound : Sound ⟨state, { xray with
      rules := xray.rules.filter fun rule => !gone.contains rule.ruleTag }⟩)
    (single : (rateTags xray.rules).Nodup)
    (marked : ∀ o ∈ xray.outbounds, ∀ n, o.tag = tag n → o.mark = markBase ||| n)
    (only : gone ⊆ outdated state.wanted fresh xray.rules)
    (all : outdated state.wanted fresh xray.rules ⊆ gone)
    (stood : ∀ t ∈ state.wanted, stands t = true → ∃ o ∈ xray.outbounds, o.tag = t ∧ t ∉ leaving)
    (grown : Grown state.wanted.toList (xray.vlessInboundTags.filter validTag)
      { xray with
        rules := xray.rules.filter fun rule => !gone.contains rule.ruleTag
        outbounds := xray.outbounds.filter fun o => !leaving.contains o.tag } next rules outbounds)
    (served : ∀ e ∈ state.wanted.toList, Served stands (present state.wanted fresh xray.rules)
      (xray.vlessInboundTags.filter validTag) rules outbounds e) : Routed ⟨state, next⟩ := by
  have apart : ∀ t ∈ present state.wanted fresh xray.rules, t ∉ gone := by
    intro t stays goes
    have listed := (@outdated_present state.wanted fresh xray.rules).nodup_iff.mpr
      single
    exact (List.nodup_append.mp listed).2.2 t (only goes) t stays rfl
  have ended := sound.shrink (fun _ => true) fun o => !leaving.contains o.tag
  simp only [List.filter_true] at ended
  have settled := ended.grow grown
  obtain ⟨same, wanted, -, -, -⟩ := grown
  subst same
  have numbers : ∀ e ∈ state.marks.toList, (tag e.2, e.1) ∈ state.wanted.toList := by
    rintro ⟨name, n⟩ row
    exact BTreeMap.mem_toList.mpr ((get_wanted sound.distinct).mpr
      ⟨n, BTreeMap.mem_toList.mp row, rfl⟩)
  constructor
  · rw [List.perm_ext_iff_of_nodup]
    · intro rule
      rw [List.mem_filter]
      constructor
      · rintro ⟨held, rate⟩
        obtain ⟨name, n, numbered, tagged⟩ : ∃ name n, state.marks[name]? = some n ∧
            rule.ruleTag = tag n := by
          rcases List.mem_append.mp held with old | new
          · obtain ⟨before, stays⟩ := List.mem_filter.mp old
            have listed : rule.ruleTag ∈ rateTags xray.rules :=
              List.mem_map.mpr ⟨rule, List.mem_filter.mpr ⟨before, rate⟩, rfl⟩
            rw [← (@outdated_present state.wanted fresh xray.rules).mem_iff,
              List.mem_append] at listed
            have current : rule.ruleTag ∈ present state.wanted fresh xray.rules := by
              refine listed.resolve_left fun goes => ?_
              simp [all goes] at stays
            obtain ⟨name, row⟩ := Option.isSome_iff_exists.mp
              (Std.ExtTreeMap.mem_iff_isSome_getElem?.mp (present_current current).1)
            obtain ⟨n, numbered, tagged⟩ := (get_wanted sound.distinct).mp row
            exact ⟨name, n, numbered, tagged⟩
          · obtain ⟨⟨t, name⟩, member, shape⟩ := wanted rule new
            obtain ⟨n, numbered, tagged⟩ :=
              (get_wanted sound.distinct).mp (BTreeMap.mem_toList.mp member)
            exact ⟨name, n, numbered, by rw [shape]; exact tagged⟩
        refine List.mem_map.mpr ⟨(name, n), BTreeMap.mem_toList.mpr numbered, ?_⟩
        exact (settled.own rule held name n numbered tagged).symm
      · intro member
        obtain ⟨⟨name, n⟩, row, rfl⟩ := List.mem_map.mp member
        refine ⟨?_, isRate_tag n⟩
        rcases (served _ (numbers _ row)).1 with stays | new
        · have listed := (@outdated_present state.wanted fresh
            xray.rules).mem_iff.mp (List.mem_append_right _ stays)
          obtain ⟨rule, held, tagged⟩ := List.mem_map.mp listed
          have kept : rule ∈ xray.rules.filter fun rule => !gone.contains rule.ruleTag := by
            refine List.mem_filter.mpr ⟨List.mem_of_mem_filter held, ?_⟩
            simpa [tagged] using apart _ stays
          have owner := settled.own rule (List.mem_append_left _ kept) name n
            (BTreeMap.mem_toList.mp row) tagged
          refine List.mem_append_left _ ?_
          rw [← owner]
          exact kept
        · exact List.mem_append_right _ new
    · exact List.Nodup.of_map _ settled.single
    · apply List.Nodup.of_map RouteRule.ruleTag
      have keys := wanted_keys sound.distinct
      rw [List.map_map] at keys ⊢
      exact keys
  · show (_ ++ rules).Pairwise _
    rw [List.pairwise_append]
    have quiet : ∀ rule ∈ rules, Admission.isEvict rule.ruleTag = false := by
      intro rule held
      obtain ⟨⟨t, name⟩, member, shape⟩ := wanted rule held
      obtain ⟨n, -, tagged⟩ := (get_wanted sound.distinct).mp (BTreeMap.mem_toList.mp member)
      rw [shape]
      exact isEvict_of_isRate (by rw [tagged]; exact isRate_tag n)
    refine ⟨outdated_last xray.rules all, ?_, fun _ _ b new _ => quiet b new⟩
    exact List.pairwise_of_forall_mem_list fun _ _ b new _ => quiet b new
  · intro name n numbered
    have row : (tag n, name) ∈ state.wanted.toList :=
      numbers (name, n) (BTreeMap.mem_toList.mpr numbered)
    rcases (served _ row).2 with standing | ⟨o, held, tagged⟩
    · have known : tag n ∈ state.wanted :=
        Std.ExtTreeMap.mem_iff_isSome_getElem?.mpr (by rw [BTreeMap.mem_toList.mp row]; rfl)
      obtain ⟨o, held, tagged, stays⟩ := stood (tag n) known standing
      refine ⟨o, List.mem_append_left _ (List.mem_filter.mpr ⟨held, ?_⟩), tagged,
        marked o held n tagged⟩
      simpa [tagged] using stays
    · exact ⟨o, List.mem_append_right _ held, tagged,
        settled.marked o (List.mem_append_right _ held) n tagged⟩

end

section
variable {inputs : Inputs} {state : State} {fresh : List String} {recreate : Bool} {xray : Process}

/-- A rule that is not wanted, or whose number was given out just now, goes. -/
theorem mem_outdated {rules : List RouteRule} {rule : RouteRule} (held : rule ∈ rules) {n : ℕ}
    (same : rule.ruleTag = tag n) (given : tag n ∈ fresh) :
    tag n ∈ outdated state.wanted fresh rules := by
  have listed := mem_rateTags held same
  rw [← (@outdated_present state.wanted fresh rules).mem_iff,
    List.mem_append] at listed
  exact listed.resolve_right fun stays => (present_current stays).2 given

theorem Inputs.Complete.fails (complete : inputs.Complete) :
    inputs.fails .connect = false ∧ inputs.fails .outboundTags = false ∧
      inputs.fails .listRules = false ∧ inputs.fails .vlessInboundTags = false := by
  have answered : ∀ c, undone c (inputs.outcome c) = (if (inputs.outcome c).fails then 1 else 0) →
      inputs.fails c = false := by
    intro c one
    rw [complete c] at one
    rw [Answers.fails]
    cases failing : (inputs.outcome c).fails with
    | false => rfl
    | true => simp [failing] at one
  exact ⟨answered _ rfl, answered _ rfl, answered _ rfl, answered _ rfl⟩

/-- Routing with the numbers of `state`, some given out just now: `own` is all that is known
of the rules with one of these. -/
theorem routing_sound (undisturbed : inputs.Undisturbed) (distinct : Distinct state.marks)
    (single : (rateTags xray.rules).Nodup)
    (marked : ∀ o ∈ xray.outbounds, ∀ n, o.tag = tag n → o.mark = markBase ||| n)
    (own : ∀ rule ∈ xray.rules, ∀ (name : String) (n : ℕ), state.marks[name]? = some n →
      rule.ruleTag = tag n →
        tag n ∈ fresh ∨ rule = rateRule (tag n) name (xray.vlessInboundTags.filter validTag))
    (clear : inputs.Complete ∨ ∀ rule ∈ xray.rules, ∀ (name : String) (n : ℕ),
      state.marks[name]? = some n → rule.ruleTag = tag n →
        rule = rateRule (tag n) name (xray.vlessInboundTags.filter validTag)) :
    Sound ⟨state, (inputs.routing state.wanted fresh recreate xray).1⟩ ∧
      ((inputs.routing state.wanted fresh recreate xray).2 = .ok () →
        Routed ⟨state, (inputs.routing state.wanted fresh recreate xray).1⟩) := by
  have early : (inputs.Complete → False) → Sound ⟨state, xray⟩ := by
    intro failed
    exact ⟨distinct, single, clear.resolve_left failed, marked⟩
  rw [Inputs.routing]
  simp only [Answers.before_undisturbed undisturbed]
  split
  next fails =>
    exact ⟨early fun complete => by simp [complete.fails.2.1] at fails, fun done => nomatch done⟩
  next =>
    split
    next fails =>
      exact ⟨early fun complete => by simp [complete.fails.2.2.1] at fails, fun done => nomatch done⟩
    next =>
      split
      next fails =>
        exact ⟨early fun complete => by simp [complete.fails.2.2.2] at fails,
          fun done => nomatch done⟩
      next =>
        obtain ⟨gone, removed, only, all, given⟩ := removeRules_removes undisturbed fresh
          (outdated state.wanted fresh xray.rules) xray
        have swept : Sound ⟨state, (inputs.removeRules fresh
            (outdated state.wanted fresh xray.rules) xray).1⟩ := by
          rw [removed]
          refine ⟨distinct, single.sublist (rateTags_filter _), ?_, marked⟩
          intro rule held name n numbered same
          obtain ⟨before, stays⟩ := List.mem_filter.mp held
          rcases clear with complete | clear
          · refine (own rule before name n numbered same).resolve_left fun new => ?_
            have goes := given complete (tag n) (mem_outdated before same new) new
            rw [← same] at goes
            simp [goes] at stays
          · exact clear rule before name n numbered same
        generalize inputs.removeRules fresh _ xray = removes at removed all swept
        obtain ⟨cleared, result⟩ := removes
        change cleared = _ at removed
        subst removed
        cases result with
        | error err => exact ⟨swept, fun done => nomatch done⟩
        | ok =>
          dsimp only
          have kept := removeOutbounds_removes undisturbed
            (((xray.outbounds.map Outbound.tag).filter isRate).filter fun t =>
              !state.wanted.contains t || fresh.contains t || recreate)
            { xray with rules := xray.rules.filter fun rule => !gone.contains rule.ruleTag }
          obtain ⟨leaving, dropped, stale⟩ := kept
          have lean := swept.shrink (fun _ => true) fun o => !leaving.contains o.tag
          simp only [List.filter_true] at lean
          generalize inputs.removeOutbounds _ _ = drops at dropped
          obtain ⟨emptied, result⟩ := drops
          change emptied = _ at dropped
          subst dropped
          cases result with
          | error err => exact ⟨lean, fun done => nomatch done⟩
          | ok =>
            dsimp only
            obtain ⟨rules, outbounds, grown, served⟩ := addAll_grows undisturbed state.wanted.toList (by
              rintro ⟨t, name⟩ member
              obtain ⟨n, -, same⟩ := (get_wanted distinct).mp (BTreeMap.mem_toList.mp member)
              exact ⟨n, same⟩) _
            refine ⟨lean.grow grown, fun done => ?_⟩
            refine swept.routed single marked only (all rfl) ?_ grown (served done)
            intro t known standing
            rw [Bool.and_eq_true, List.contains_iff_mem, Bool.not_eq_true', Bool.or_eq_false_iff]
              at standing
            obtain ⟨o, held, same⟩ := List.mem_map.mp (List.mem_of_mem_filter standing.1)
            refine ⟨o, held, same, fun leaves => ?_⟩
            have old := (List.mem_filter.mp (stale leaves)).2
            rw [standing.2.1, standing.2.2, Std.ExtTreeMap.contains_iff_mem.mpr known] at old
            cases old

end

section
variable {inputs : Inputs} {state : State} {fresh : List String} {recreate : Bool} {xray : Process}

theorem connected_sound (undisturbed : inputs.Undisturbed) (distinct : Distinct state.marks)
    (single : (rateTags xray.rules).Nodup)
    (marked : ∀ o ∈ xray.outbounds, ∀ n, o.tag = tag n → o.mark = markBase ||| n)
    (own : ∀ rule ∈ xray.rules, ∀ (name : String) (n : ℕ), state.marks[name]? = some n →
      rule.ruleTag = tag n →
        tag n ∈ fresh ∨ rule = rateRule (tag n) name (xray.vlessInboundTags.filter validTag))
    (clear : inputs.Complete ∨ ∀ rule ∈ xray.rules, ∀ (name : String) (n : ℕ),
      state.marks[name]? = some n → rule.ruleTag = tag n →
        rule = rateRule (tag n) name (xray.vlessInboundTags.filter validTag)) :
    Sound ⟨state, (inputs.connectAndRoute state.wanted fresh recreate xray).1⟩ ∧
      ((inputs.connectAndRoute state.wanted fresh recreate xray).2 = .ok () →
        Routed ⟨state, (inputs.connectAndRoute state.wanted fresh recreate xray).1⟩) := by
  rw [Inputs.connectAndRoute, Answers.before_undisturbed undisturbed]
  split
  next fails =>
    refine ⟨⟨distinct, single, clear.resolve_left fun complete => ?_, marked⟩,
      fun done => nomatch done⟩
    rw [complete.fails.1] at fails
    cases fails
  next => exact routing_sound undisturbed distinct single marked own clear

end

theorem Sound.of_marks {state other : State} {xray : Process} (sound : Sound ⟨state, xray⟩)
    (same : other.marks = state.marks) : Sound ⟨other, xray⟩ := by
  constructor
  · show Distinct other.marks
    rw [same]
    exact sound.distinct
  · exact sound.single
  · show ∀ rule ∈ xray.rules, ∀ (name : String) (n : ℕ), other.marks[name]? = some n → _
    rw [same]
    exact sound.own
  · exact sound.marked

theorem Routed.of_marks {state other : State} {xray : Process} (routed : Routed ⟨state, xray⟩)
    (same : other.marks = state.marks) : Routed ⟨other, xray⟩ := by
  constructor
  · show (xray.rules.filter fun rule => isRate rule.ruleTag).Perm (other.marks.toList.map _)
    rw [same]
    exact routed.rules
  · exact routed.last
  · show ∀ (name : String) (n : ℕ), other.marks[name]? = some n → _
    rw [same]
    exact routed.outbounds

/-- What a pass that returns Ok leaves: one rule for each client with a limit, behind the
eviction rules and into an outbound that no other client's email is routed to. -/
structure Converged (inputs : Inputs) (system : System) : Prop extends Routed system where
  clients : ∀ name, name ∈ system.state.marks ↔ name ∈ inputs.clients
  distinct : Distinct system.state.marks
  apart : ∀ rule ∈ system.xray.rules, isRate rule.ruleTag = true → ∀ name inbound,
    validTag inbound = true → email name inbound ∈ rule.users →
      ∃ n, system.state.marks[name]? = some n ∧ rule.outboundTag = tag n

theorem Routed.converged {inputs : Inputs} {system : System} (routed : Routed system)
    (sound : Sound system)
    (clients : ∀ name, name ∈ system.state.marks ↔ name ∈ inputs.clients) :
    Converged inputs system := by
  refine ⟨routed, clients, sound.distinct, ?_⟩
  intro rule held rate name inbound valid user
  have listed := routed.rules.mem_iff.mp (List.mem_filter.mpr ⟨held, rate⟩)
  obtain ⟨⟨other, n⟩, row, rfl⟩ := List.mem_map.mp listed
  obtain ⟨s, known, same⟩ := List.mem_map.mp user
  have whose := email_injective (List.mem_filter.mp known).2 valid same
  subst whose
  exact ⟨n, BTreeMap.mem_toList.mp row, rfl⟩

section
variable {inputs : Inputs} {system : System}

/-- The numbers a pass goes on with, and the names that were just given theirs. -/
def System.allocated (inputs : Inputs) (system : System) :
    BTreeMap String ℕ × Except ShapeError (List String) :=
  allocate system.state.marks (inputs.clients.toList.map Prod.fst)

/-- A pass that gives out no number with a rule in Xray, or takes such rules back first. -/
structure Clean (inputs : Inputs) (system : System) : Prop where
  undisturbed : inputs.Undisturbed
  clear : (inputs.Complete ∧ ∃ fresh, (system.allocated inputs).2 = .ok fresh) ∨
    ∀ rule ∈ system.xray.rules, ∀ (name : String) (n : ℕ),
      (system.allocated inputs).1[name]? = some n → rule.ruleTag = tag n →
        system.state.marks[name]? = some n

theorem step_sound (clean : Clean inputs system) (sound : Sound system) :
    Sound (system.step inputs).1 ∧
      ((system.step inputs).2 = .ok () → Converged inputs (system.step inputs).1) := by
  obtain ⟨distinct, fewer, given⟩ :=
    allocate_numbers sound.distinct (inputs.clients.toList.map Prod.fst)
  obtain ⟨undisturbed, clear⟩ := clean
  rw [System.allocated] at clear
  rw [System.step]
  generalize allocate system.state.marks (inputs.clients.toList.map Prod.fst) = allocated at *
  obtain ⟨marks, result⟩ := allocated
  have early : ¬(inputs.Complete ∧ ∃ fresh, result = .ok fresh) →
      Sound ⟨{ system.state with marks := marks }, system.xray⟩ := by
    intro failed
    refine ⟨distinct, sound.single, ?_, sound.marked⟩
    intro rule held name n numbered same
    exact sound.own rule held name n (clear.resolve_left failed rule held name n numbered same) same
  cases result with
  | error err =>
    have untouched := early fun ⟨_, _, bad⟩ => nomatch bad
    exact ⟨untouched, fun done => nomatch done⟩
  | ok names =>
    dsimp only
    obtain ⟨everyone, origin⟩ := given names rfl
    have clients : ∀ name, name ∈ marks ↔ name ∈ inputs.clients := by
      intro name
      have named : name ∈ inputs.clients.toList.map Prod.fst ↔ name ∈ inputs.clients := by
        rw [Std.ExtTreeMap.map_fst_toList_eq_keys, Std.ExtTreeMap.mem_keys]
      exact ⟨fun held => named.mp (fewer name held), fun limited => everyone name (named.mpr limited)⟩
    have routed := @connected_sound inputs { system.state with marks := marks }
      (names.map fun email => tag ((marks[email]?).getD 0))
      (system.state.domainStrategy.any fun applied => applied ≠ inputs.strategy) system.xray
      undisturbed distinct sound.single sound.marked ?_ ?_
    · generalize inputs.connectAndRoute _ _ _ system.xray = called at routed ⊢
      obtain ⟨xray, result⟩ := called
      cases result with
      | ok =>
        have settled : Sound ⟨{ system.state with
            marks := marks
            domainStrategy := if (State.wanted { system.state with marks := marks }).isEmpty then none
              else some inputs.strategy
            kernel := (inputs.bring system.state.kernel).1 }, xray⟩ := routed.1.of_marks rfl
        refine ⟨settled, fun _ => Routed.converged ?_ settled clients⟩
        exact (routed.2 rfl).of_marks rfl
      | error err =>
        dsimp only
        split
        · exact ⟨routed.1, fun done => nomatch done⟩
        · refine ⟨routed.1.of_marks rfl, fun done => ?_⟩
          dsimp only at done
          split at done <;> cases done
    · intro rule held name n numbered same
      rcases origin name n numbered with old | new
      · exact .inr (sound.own rule held name n old same)
      · refine .inl (List.mem_map.mpr ⟨name, new, ?_⟩)
        rw [show marks[name]? = some n from numbered]
        rfl
    · refine clear.imp And.left ?_
      intro kept rule held name n numbered same
      exact sound.own rule held name n (kept rule held name n numbered same) same

end

section
variable {inputs : Inputs} {system : System} {config : Config}

theorem tick_sound (clean : Clean inputs system) (sound : Sound system) :
    Sound (system.tick inputs).1 ∧
      ((system.tick inputs).2 = some (.ok ()) → Converged inputs (system.tick inputs).1) := by
  rw [System.tick]
  split
  · exact ⟨sound, fun done => nomatch done⟩
  · obtain ⟨after, converged⟩ := step_sound clean sound
    exact ⟨after, fun done => converged (Option.some.inj done)⟩

theorem isRate_evictTag (n : ℕ) : isRate (Admission.evictTag n) = false := by
  by_contra rate
  rw [Bool.not_eq_false] at rate
  have plain := isEvict_of_isRate rate
  rw [Admission.isEvict_tag] at plain
  cases plain

theorem start_sound (foreign : Foreign config) {state : State} (distinct : Distinct state.marks) :
    Sound ⟨state, Process.start config⟩ := by
  have unmarked : ∀ rule ∈ config.rules, ∀ n, rule.ruleTag ≠ tag n := by
    intro rule held n same
    have plain := foreign.rules rule held
    rw [same, isRate_tag] at plain
    cases plain
  constructor
  · exact distinct
  · have none : rateTags config.rules = [] := by
      rw [rateTags, List.map_eq_nil_iff, List.filter_eq_nil_iff]
      intro rule held
      rw [foreign.rules rule held]
      exact Bool.false_ne_true
    show (rateTags config.rules).Nodup
    rw [none]
    exact List.nodup_nil
  · exact fun rule held _ n _ same => absurd same (unmarked rule held n)
  · intro o held n same
    have plain := foreign.outbounds o held
    rw [same, isRate_tag] at plain
    cases plain

/-- What lets routing converge, whatever happens to the node. -/
def CleanHappening (system : System) : Happening → Prop
  | .tick inputs => Clean inputs system
  | .restart config => Foreign config
  | .block _ _ _ | .unblock _ => True

def CleanRun : System → List Happening → Prop
  | _, [] => True
  | system, happening :: rest =>
    CleanHappening system happening ∧ CleanRun (happen system happening).1 rest

theorem happen_sound {happening : Happening} (clean : CleanHappening system happening)
    (sound : Sound system) : Sound (happen system happening).1 := by
  cases happening with
  | tick inputs => exact (tick_sound clean sound).1
  | restart config => exact start_sound clean sound.distinct
  | block number name source =>
    rw [happen, Process.addRule]
    split
    next added =>
      split at added
      · cases added
      · split at added
        · cases added
        · rw [← Except.ok.inj added]
          refine ⟨sound.distinct, ?_, ?_, sound.marked⟩
          · show (rateTags (_ ++ [_])).Nodup
            have plain : rateTags [Admission.rule (Admission.evictTag number) name source
                (system.xray.vlessInboundTags.filter validTag)] = [] := by
              simp [rateTags, Admission.rule, isRate_evictTag]
            rw [rateTags_append, plain, List.append_nil]
            exact sound.single
          · intro rule held other n numbered same
            rcases List.mem_append.mp held with held | held
            · exact sound.own rule held other n numbered same
            · have rate := isRate_tag n
              rw [← same, List.mem_singleton.mp held, Admission.rule, isRate_evictTag] at rate
              cases rate
    next => exact sound
  | unblock number =>
    exact ⟨sound.distinct, sound.single.sublist (rateTags_filter _),
      fun rule held => sound.own rule (List.mem_of_mem_filter held), sound.marked⟩

theorem run_sound {happenings : List Happening} (clean : CleanRun system happenings)
    (sound : Sound system) : Sound (run happen system happenings).1 := by
  induction happenings generalizing system with
  | nil => exact sound
  | cons happening rest ih => exact ih clean.2 (happen_sound clean.1 sound)

end

theorem rate_rules_converge (config : Config) (foreign : Foreign config)
    (happenings : List Happening) (clean : CleanRun (System.start config) happenings)
    (inputs : Inputs) (next : Clean inputs (after config happenings))
    (done : ((after config happenings).tick inputs).2 = some (.ok ())) :
    Converged inputs ((after config happenings).tick inputs).1 := by
  have start : Sound (System.start config) := by
    refine start_sound foreign ?_
    intro a b n first
    simp [State.default] at first
  exact (tick_sound next (run_sound clean start)).2 done

def sampleConfig : Config := ⟨[], [], ["reality-tcp"]⟩

/-- A pass with these clients, under these answers. -/
def sampleTick (names : List String) (outcome : RateCall → Outcome) : Inputs where
  clients := names.foldl (fun clients name => clients.insert name ⟨1000, 0⟩) ∅
  strategy := 0
  kernel := .done
  outcome := outcome
  restarts := fun _ => none

/-- Client a gets number 1, then loses its limit; client b takes its number over. -/
def sampleRun : List Happening := [.tick (sampleTick ["a"] fun _ => .answered)]

theorem rate_rules_converge_sample :
    sampleConfig.inbounds = ["reality-tcp"] ∧
      Converged (sampleTick ["b"] fun _ => .answered)
        ((after sampleConfig sampleRun).tick (sampleTick ["b"] fun _ => .answered)).1 := by
  refine ⟨rfl, ?_⟩
  have answered : ∀ names, (sampleTick names fun _ => .answered).Complete := by
    intro names c
    cases c <;> rfl
  refine rate_rules_converge sampleConfig ⟨by decide, by decide⟩ sampleRun ⟨?_, trivial⟩ _
    ⟨fun _ => rfl, .inl ⟨answered _, ["b"], by decide +kernel⟩⟩ (by decide +kernel)
  exact ⟨fun _ => rfl, .inl ⟨answered _, ["a"], by decide⟩⟩

/-- The same, but the pass that hands the number over cannot list the outbounds. -/
def reusedRun : List Happening :=
  sampleRun ++ [.tick (sampleTick ["b"] fun c => if c = .outboundTags then .refused else .answered)]

/-- The next pass returns Ok: client b is limited, client a is not, and the only rate rule
routes a's traffic into the class of b. -/
theorem former_rule_kept :
    ((after sampleConfig reusedRun).tick (sampleTick ["b"] fun _ => .answered)).2 = some (.ok ()) ∧
      ((after sampleConfig reusedRun).tick
          (sampleTick ["b"] fun _ => .answered)).1.state.marks.toList = [("b", 1)] ∧
      ((after sampleConfig reusedRun).tick (sampleTick ["b"] fun _ => .answered)).1.xray.rules =
        [rateRule (tag 1) "a" ["reality-tcp"]] := by
  decide +kernel

end Rate
end Xray
end NodePlane
