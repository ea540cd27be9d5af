import NodePlane.Library.History
import NodePlane.Xray.Admission
import Mathlib.Data.String.Basic
import Mathlib.Data.List.Range
import Std.Data.String.ToNat

/-! The admission state over any calls: what is counted is not blocked, an eviction takes
the oldest, and the rules given out less the rules taken back are those of the blocks. -/
namespace NodePlane
namespace Xray
namespace Admission
open Library

theorem evictTag_injective {m n : ℕ} (same : evictTag m = evictTag n) : m = n :=
  Nat.repr_injective (String.append_right_inj evictPrefix |>.mp same)

def Client.tags (client : Client) : List String :=
  client.blocks.toList.map fun block => block.2.ruleTag

def State.tags (state : State) : List String := state.blocks.map fun block => block.2.2.ruleTag

def tagsOf (clients : BTreeMap String Client) : List String :=
  clients.toList.flatMap fun client => client.2.tags

theorem State.tags_eq (state : State) : state.tags = tagsOf state.clients := by
  simp [State.tags, State.blocks, tagsOf, Client.tags, List.map_flatMap, Function.comp_def]

theorem tagsOf_insert (clients : BTreeMap String Client) (email : String) (client : Client) :
    (tagsOf (clients.insert email client)).Perm (client.tags ++ tagsOf (clients.erase email)) :=
  (BTreeMap.toList_insert clients email client).flatMap_right _

theorem tagsOf_split (clients : BTreeMap String Client) (email : String) :
    (tagsOf clients).Perm
      (((clients[email]?).getD Client.default).tags ++ tagsOf (clients.erase email)) := by
  cases found : clients[email]? with
  | none =>
    have none : Client.default.tags = [] := rfl
    rw [Option.getD_none, none, List.nil_append, BTreeMap.erase_of_get found]
  | some client => exact (BTreeMap.toList_of_get found).flatMap_right _

/-! Ended blocks. -/

theorem expire_tags (client : Client) (policy : Policy) (now : ℕ) :
    ((client.expire policy now).1.tags ++ (client.expire policy now).2).Perm client.tags := by
  simp only [Client.expire, Client.tags, Std.ExtTreeMap.toList_filter, ← List.map_append]
  exact (List.filter_append_perm _ _).map _

theorem mem_blocks_expire {client : Client} {policy : Policy} {now : ℕ} {key : String}
    (held : key ∈ (client.expire policy now).1.blocks) : key ∈ client.blocks := by
  rw [Std.ExtTreeMap.mem_iff_isSome_getElem?] at held ⊢
  simp only [Client.expire, BTreeMap.get_filter] at held
  cases found : client.blocks[key]? with
  | none => simp [found] at held
  | some block => rfl

/-! Counted sources. -/

section
variable {sourceKey : String → Option String}

theorem active_unblocked {client : Client} {policy : Policy} {online : BTreeMap String Int}
    {now : ℕ} {key : String} (counts : key ∈ client.active sourceKey policy online now) :
    key ∉ client.blocks := by
  rw [Client.active, Std.ExtTreeMap.foldl_eq_foldl_toList] at counts
  generalize online.toList = entries at counts
  have start : ∀ k ∈ (∅ : BTreeMap String ℕ), k ∉ client.blocks := by
    intro k member
    simp at member
  generalize (∅ : BTreeMap String ℕ) = active at counts start
  induction entries generalizing active with
  | nil => exact start key counts
  | cons entry rest ih =>
    refine ih _ counts ?_
    intro k member
    cases named : sourceKey entry.1 with
    | none => exact start k (by simpa [named] using member)
    | some name =>
      simp only [named] at member
      split at member
      · exact start k member
      next free =>
        rw [Std.ExtTreeMap.mem_insert] at member
        rcases member with same | member
        · rw [← Std.LawfulEqOrd.eq_of_compare same]
          intro held
          apply free
          simp [held]
        · exact start k member

theorem mem_admitSources {sources : BTreeMap String Source} {active : BTreeMap String ℕ} {now : ℕ}
    {key : String} : key ∈ admitSources sources active now ↔ key ∈ active := by
  rw [Std.ExtTreeMap.mem_iff_isSome_getElem?, Std.ExtTreeMap.mem_iff_isSome_getElem?, admitSources,
    BTreeMap.get_upsertAll]
  cases found : active[key]? with
  | none =>
    have missing : active.contains key = false := by
      rw [Std.ExtTreeMap.contains_eq_isSome_getElem?, found]
      rfl
    simp [missing]
  | some seen => simp

theorem counted_unblocked {state : State} {email : String} {policy : Policy}
    {online : BTreeMap String Int} {now : ℕ} {key : String}
    (counts : key ∈ (state.counted sourceKey email policy online now).1.sources) :
    key ∉ (state.counted sourceKey email policy online now).1.blocks :=
  active_unblocked (mem_admitSources.mp counts)

end

/-! The order of evictions. -/

instance : Std.Total older where
  total a b := by
    unfold older
    rcases Nat.lt_trichotomy a.1 b.1 with h | h | h
    · exact .inl (.inl h)
    · rcases le_total a.2 b.2 with l | l
      · exact .inl (.inr ⟨h, l⟩)
      · exact .inr (.inr ⟨h.symm, l⟩)
    · exact .inr (.inl h)

instance : IsTrans (ℕ × String) older where
  trans a b c := by
    unfold older
    rintro (h | ⟨h, l⟩) (g | ⟨g, m⟩)
    · exact .inl (h.trans g)
    · exact .inl (by omega)
    · exact .inl (by omega)
    · exact .inr ⟨h.trans g, l.trans m⟩

theorem mem_evictionOrder {sources : BTreeMap String Source} {e : ℕ × String} :
    e ∈ evictionOrder sources ↔ ∃ source, sources[e.2]? = some source ∧ source.firstSeen = e.1 := by
  rw [evictionOrder, (List.perm_insertionSort older _).mem_iff, List.mem_map]
  constructor
  · rintro ⟨⟨key, source⟩, member, rfl⟩
    exact ⟨source, BTreeMap.mem_toList.mp member, rfl⟩
  · rintro ⟨source, found, same⟩
    exact ⟨(e.2, source), BTreeMap.mem_toList.mpr found, Prod.ext same rfl⟩

theorem evictionOrder_keys (sources : BTreeMap String Source) :
    ((evictionOrder sources).map Prod.snd).Nodup := by
  have keys : (sources.toList.map Prod.fst).Nodup := by
    rw [Std.ExtTreeMap.map_fst_toList_eq_keys]
    exact Std.ExtTreeMap.nodup_keys
  refine ((List.perm_insertionSort older _).map Prod.snd).nodup_iff.mpr ?_
  simpa [Function.comp_def] using keys

theorem evictionOrder_length (sources : BTreeMap String Source) :
    (evictionOrder sources).length = sources.size := by
  rw [evictionOrder, List.length_insertionSort, List.length_map, Std.ExtTreeMap.length_toList]

theorem excess_nodup (client : Client) (policy : Policy) : (client.excess policy).Nodup := by
  rw [Client.excess, List.map_take]
  exact (evictionOrder_keys client.sources).sublist (List.take_sublist _ _)

theorem excess_counted {client : Client} {policy : Policy} {key : String}
    (member : key ∈ client.excess policy) : key ∈ client.sources := by
  obtain ⟨e, taken, rfl⟩ := List.mem_map.mp member
  obtain ⟨source, found, -⟩ := mem_evictionOrder.mp (List.mem_of_mem_take taken)
  rw [Std.ExtTreeMap.mem_iff_isSome_getElem?, found]
  rfl

theorem excess_length (client : Client) (policy : Policy) :
    (client.excess policy).length = client.sources.size - policy.maxSources := by
  simp [Client.excess, evictionOrder_length]

/-- Who is evicted appeared before who stays. -/
theorem excess_oldest {client : Client} {policy : Policy} {gone kept : String} {a b : Source}
    (evicted : gone ∈ client.excess policy) (stays : kept ∉ client.excess policy)
    (old : client.sources[gone]? = some a) (new : client.sources[kept]? = some b) :
    older (a.firstSeen, gone) (b.firstSeen, kept) := by
  obtain ⟨e, taken, rfl⟩ := List.mem_map.mp evicted
  have first : e.1 = a.firstSeen := by
    obtain ⟨source, found, same⟩ := mem_evictionOrder.mp (List.mem_of_mem_take taken)
    rw [old] at found
    rw [← same, ← Option.some.inj found]
  have listed : (b.firstSeen, kept) ∈ evictionOrder client.sources :=
    mem_evictionOrder.mpr ⟨b, new, rfl⟩
  have later : (b.firstSeen, kept) ∈
      (evictionOrder client.sources).drop (client.sources.size - policy.maxSources) := by
    rw [← List.take_append_drop (client.sources.size - policy.maxSources)
      (evictionOrder client.sources), List.mem_append] at listed
    rcases listed with listed | listed
    · exact absurd (List.mem_map.mpr ⟨_, listed, rfl⟩) stays
    · exact listed
  have sorted := List.pairwise_insertionSort older
    (client.sources.toList.map fun source => (source.2.firstSeen, source.1))
  change (evictionOrder client.sources).Pairwise older at sorted
  rw [← List.take_append_drop (client.sources.size - policy.maxSources)
    (evictionOrder client.sources), List.pairwise_append] at sorted
  have before := sorted.2.2 e taken _ later
  rwa [← first]

/-! Evicting. -/

theorem tags_block {client : Client} {source : String} (block : Block) (sources : BTreeMap String Source)
    (free : source ∉ client.blocks) :
    (Client.tags { client with sources := sources, blocks := client.blocks.insert source block }).Perm
      (block.ruleTag :: client.tags) := by
  have missing : client.blocks[source]? = none := Std.ExtTreeMap.getElem?_eq_none free
  have entries := BTreeMap.toList_insert client.blocks source block
  rw [BTreeMap.erase_of_get missing] at entries
  exact entries.map _

section
variable {email : String} {policy : Policy} {now : ℕ}

theorem evict_observe (watching : policy.mode = .observe) (pass : Pass) (source : String) :
    (pass.evict email policy now source).nextRule = pass.nextRule ∧
      (pass.evict email policy now source).changes.add = pass.changes.add ∧
      (pass.evict email policy now source).changes.remove = pass.changes.remove ∧
      (pass.evict email policy now source).client.sources = pass.client.sources ∧
      (pass.evict email policy now source).client.blocks = pass.client.blocks := by
  rw [Pass.evict, watching]
  dsimp only
  split
  · exact ⟨rfl, rfl, rfl, rfl, rfl⟩
  · exact ⟨rfl, rfl, rfl, rfl, rfl⟩

theorem evictions_observe (watching : policy.mode = .observe) (sources : List String) (pass : Pass) :
    (sources.foldl (Pass.evict email policy now) pass).nextRule = pass.nextRule ∧
      (sources.foldl (Pass.evict email policy now) pass).changes.add = pass.changes.add ∧
      (sources.foldl (Pass.evict email policy now) pass).changes.remove = pass.changes.remove ∧
      (sources.foldl (Pass.evict email policy now) pass).client.sources = pass.client.sources ∧
      (sources.foldl (Pass.evict email policy now) pass).client.blocks = pass.client.blocks := by
  induction sources generalizing pass with
  | nil => exact ⟨rfl, rfl, rfl, rfl, rfl⟩
  | cons source rest ih =>
    obtain ⟨number, add, remove, counted, blocked⟩ := @evict_observe email _ now watching pass source
    have later := ih (pass.evict email policy now source)
    rw [number, add, remove, counted, blocked] at later
    exact later

theorem evict_enforce (enforcing : policy.mode = .enforce) (pass : Pass) (source : String) :
    pass.evict email policy now source =
      { client :=
          { pass.client with
            sources := pass.client.sources.erase source
            blocks := pass.client.blocks.insert source
              ⟨evictTag pass.nextRule, now + policy.cooldownSeconds⟩ }
        nextRule := pass.nextRule + 1
        changes :=
          { pass.changes with
            add := pass.changes.add ++ [(evictTag pass.nextRule, email, source)]
            events := pass.changes.events ++ [.evicted email source] } } := by
  rw [Pass.evict, enforcing]

/-- The rules an enforcing pass adds are numbered on from `next_rule`. -/
theorem evictions_enforce (enforcing : policy.mode = .enforce) (sources : List String) (pass : Pass) :
    (sources.foldl (Pass.evict email policy now) pass).nextRule = pass.nextRule + sources.length ∧
      (sources.foldl (Pass.evict email policy now) pass).changes.add.map Prod.fst =
        pass.changes.add.map Prod.fst ++ (List.range' pass.nextRule sources.length).map evictTag ∧
      (sources.foldl (Pass.evict email policy now) pass).changes.add.map (fun rule => rule.2.2) =
        pass.changes.add.map (fun rule => rule.2.2) ++ sources ∧
      (sources.foldl (Pass.evict email policy now) pass).changes.remove = pass.changes.remove := by
  induction sources generalizing pass with
  | nil => simp
  | cons source rest ih =>
    obtain ⟨number, tags, names, removed⟩ := ih (pass.evict email policy now source)
    rw [evict_enforce enforcing] at number tags names removed
    rw [List.foldl_cons, evict_enforce enforcing, number, tags, names, removed]
    refine ⟨?_, ?_, ?_, rfl⟩
    · rw [List.length_cons, Nat.add_assoc, Nat.add_comm 1]
    · simp [List.range'_succ]
    · simp

theorem evictions_sources (enforcing : policy.mode = .enforce) (sources : List String) (pass : Pass)
    (key : String) :
    (sources.foldl (Pass.evict email policy now) pass).client.sources[key]? =
      if key ∈ sources then none else pass.client.sources[key]? := by
  induction sources generalizing pass with
  | nil => simp
  | cons source rest ih =>
    rw [List.foldl_cons, ih, evict_enforce enforcing, BTreeMap.get_erase]
    by_cases same : source = key
    · simp [same]
    · simp [same, Ne.symm same]

theorem evictions_blocks (enforcing : policy.mode = .enforce) (sources : List String) (pass : Pass)
    (key : String) :
    key ∈ (sources.foldl (Pass.evict email policy now) pass).client.blocks ↔
      key ∈ sources ∨ key ∈ pass.client.blocks := by
  induction sources generalizing pass with
  | nil => simp
  | cons source rest ih =>
    rw [List.foldl_cons, ih, evict_enforce enforcing, Std.ExtTreeMap.mem_insert, List.mem_cons]
    simp only [Std.LawfulEqOrd.compare_eq_iff_eq]
    tauto

theorem evictions_size (enforcing : policy.mode = .enforce) (sources : List String) (pass : Pass)
    (distinct : sources.Nodup) (counted : ∀ source ∈ sources, source ∈ pass.client.sources) :
    (sources.foldl (Pass.evict email policy now) pass).client.sources.size =
      pass.client.sources.size - sources.length := by
  induction sources generalizing pass with
  | nil => simp
  | cons source rest ih =>
    rw [List.nodup_cons] at distinct
    have one := @evict_enforce email _ now enforcing pass source
    have others : ∀ other ∈ rest,
        other ∈ (pass.evict email policy now source).client.sources := by
      intro other member
      rw [one, Std.ExtTreeMap.mem_erase]
      refine ⟨?_, counted other (List.mem_cons_of_mem _ member)⟩
      intro same
      rw [Std.LawfulEqOrd.eq_of_compare same] at distinct
      exact distinct.1 member
    rw [List.foldl_cons, ih _ distinct.2 others, one]
    show (pass.client.sources.erase source).size - rest.length = _
    rw [Std.ExtTreeMap.size_erase,
      if_pos (Std.ExtTreeMap.mem_iff_contains.mp (counted source List.mem_cons_self)),
      List.length_cons]
    omega

theorem evictions_tags (enforcing : policy.mode = .enforce) (sources : List String) (pass : Pass)
    (distinct : sources.Nodup) (free : ∀ source ∈ sources, source ∉ pass.client.blocks) :
    (sources.foldl (Pass.evict email policy now) pass).client.tags.Perm
      (pass.client.tags ++ (List.range' pass.nextRule sources.length).map evictTag) := by
  induction sources generalizing pass with
  | nil => simp
  | cons source rest ih =>
    rw [List.nodup_cons] at distinct
    have one := @evict_enforce email _ now enforcing pass source
    have others : ∀ other ∈ rest,
        other ∉ (pass.evict email policy now source).client.blocks := by
      intro other member
      rw [one, Std.ExtTreeMap.mem_insert]
      rintro (same | held)
      · rw [Std.LawfulEqOrd.eq_of_compare same] at distinct
        exact distinct.1 member
      · exact free other (List.mem_cons_of_mem _ member) held
    have later := ih _ distinct.2 others
    rw [one] at later
    rw [List.foldl_cons, one]
    refine later.trans ?_
    have added := tags_block ⟨evictTag pass.nextRule, now + policy.cooldownSeconds⟩
      (pass.client.sources.erase source) (free source List.mem_cons_self)
    rw [List.length_cons, List.range'_succ, List.map_cons]
    refine (added.append_right _).trans ?_
    rw [List.cons_append]
    exact List.perm_middle.symm

end

/-! Runs of observations and policy changes. -/

inductive Call
  | observe (email : String) (policy : Policy) (online : BTreeMap String Int) (now : ℕ)
  | retainPolicies (policies : BTreeMap String Policy)

def exec (sourceKey : String → Option String) (state : State) : Call → State × List Changes
  | .observe email policy online now =>
    let done := state.observe sourceKey email policy online now
    (done.1, [done.2])
  | .retainPolicies policies =>
    let done := state.retainPolicies policies
    (done.1, [⟨[], done.2, []⟩])

def added (history : List Changes) : List String :=
  history.flatMap fun changes => changes.add.map Prod.fst

def removed (history : List Changes) : List String := history.flatMap Changes.remove

/-- When the client's source appeared, seen from an observation at `now`. -/
def State.firstSeen (state : State) (email : String) (now : ℕ) (key : String) : ℕ :=
  match (((state.clients[email]?).getD Client.default).sources)[key]? with
  | some source => source.firstSeen
  | none => now

structure Kept (history : List Changes) (state : State) : Prop where
  unblocked : ∀ (email : String) (client : Client), state.clients[email]? = some client →
    ∀ key ∈ client.sources, key ∉ client.blocks
  numbered : added history = (List.range state.nextRule).map evictTag
  balance : (state.tags ++ removed history).Perm (added history)

section
variable {sourceKey : String → Option String} {history : List Changes} {state : State}
  {email : String} {policy : Policy} {online : BTreeMap String Int} {now : ℕ}

theorem counted_first_seen {key : String} {source : Source}
    (counts : (state.counted sourceKey email policy online now).1.sources[key]? = some source) :
    source.firstSeen = state.firstSeen email now key := by
  simp only [State.counted, admitSources, BTreeMap.get_upsertAll, BTreeMap.get_filter] at counts
  generalize expired : ((state.clients[email]?).getD Client.default).expire policy now = client at counts
  have same : client.1.sources = ((state.clients[email]?).getD Client.default).sources := by
    rw [← expired, Client.expire]
  rw [State.firstSeen, ← same]
  cases found : (client.1.active sourceKey policy online now)[key]? with
  | none =>
    have absent : (client.1.active sourceKey policy online now).contains key = false := by
      rw [Std.ExtTreeMap.contains_eq_isSome_getElem?, found]
      rfl
    simp [found, absent] at counts
  | some seen =>
    have held : (client.1.active sourceKey policy online now).contains key = true := by
      rw [Std.ExtTreeMap.contains_eq_isSome_getElem?, found]
      rfl
    rw [found] at counts
    rw [← Option.some.inj counts]
    cases client.1.sources[key]? with
    | none => rfl
    | some source =>
      simp only [held]
      rfl

theorem observe_client :
    (state.observe sourceKey email policy online now).1.clients[email]? =
      some (state.pass sourceKey email policy online now).client := by
  rw [State.observe]
  exact Std.ExtTreeMap.getElem?_insert_self

theorem tags_counted :
    ((state.counted sourceKey email policy online now).1.tags ++
      (state.counted sourceKey email policy online now).2).Perm
      ((state.clients[email]?).getD Client.default).tags :=
  expire_tags _ policy now

theorem pass_observe (watching : policy.mode = .observe) :
    (state.pass sourceKey email policy online now).nextRule = state.nextRule ∧
      (state.pass sourceKey email policy online now).changes.add = [] ∧
      (state.pass sourceKey email policy online now).changes.remove =
        (state.counted sourceKey email policy online now).2 ∧
      (state.pass sourceKey email policy online now).client.sources =
        (state.counted sourceKey email policy online now).1.sources ∧
      (state.pass sourceKey email policy online now).client.blocks =
        (state.counted sourceKey email policy online now).1.blocks :=
  evictions_observe watching _ _

theorem pass_unblocked {key : String}
    (counts : key ∈ (state.pass sourceKey email policy online now).client.sources) :
    key ∉ (state.pass sourceKey email policy online now).client.blocks := by
  cases enforcing : policy.mode with
  | observe =>
    obtain ⟨-, -, -, sources, blocks⟩ := @pass_observe sourceKey state email _ online now enforcing
    rw [sources] at counts
    rw [blocks]
    exact counted_unblocked counts
  | enforce =>
    rw [State.pass, Std.ExtTreeMap.mem_iff_isSome_getElem?, evictions_sources enforcing] at counts
    rw [State.pass, evictions_blocks enforcing]
    split at counts
    · cases counts
    next stays =>
      rintro (gone | held)
      · exact stays gone
      · exact counted_unblocked (Std.ExtTreeMap.mem_iff_isSome_getElem?.mpr counts) held

/-- A pass numbers its rules on, and its client's blocks gain their tags. -/
theorem pass_tags :
    (∃ count, (state.pass sourceKey email policy online now).nextRule = state.nextRule + count ∧
      (state.pass sourceKey email policy online now).changes.add.map Prod.fst =
        (List.range' state.nextRule count).map evictTag) ∧
    (state.pass sourceKey email policy online now).changes.remove =
      (state.counted sourceKey email policy online now).2 ∧
    (state.pass sourceKey email policy online now).client.tags.Perm
      ((state.counted sourceKey email policy online now).1.tags ++
        (state.pass sourceKey email policy online now).changes.add.map Prod.fst) := by
  cases enforcing : policy.mode with
  | observe =>
    obtain ⟨number, add, remove, -, blocks⟩ := @pass_observe sourceKey state email _ online now enforcing
    refine ⟨⟨0, number, by rw [add]; rfl⟩, remove, ?_⟩
    rw [add, Client.tags, blocks]
    simp [Client.tags]
  | enforce =>
    rw [State.pass]
    obtain ⟨number, tags, -, remove⟩ := @evictions_enforce email _ now enforcing
      ((state.counted sourceKey email policy online now).1.excess policy)
      ⟨(state.counted sourceKey email policy online now).1, state.nextRule,
        ⟨[], (state.counted sourceKey email policy online now).2, []⟩⟩
    refine ⟨⟨_, number, tags⟩, remove, ?_⟩
    rw [tags]
    exact evictions_tags enforcing _ _ (excess_nodup _ policy) fun source member =>
      counted_unblocked (excess_counted member)

/-- The tags of an observation's blocks and those it takes back, against those before and
those it adds. -/
theorem observe_balance :
    ((state.observe sourceKey email policy online now).1.tags ++
      (state.observe sourceKey email policy online now).2.remove).Perm
      (state.tags ++ (state.observe sourceKey email policy online now).2.add.map Prod.fst) := by
  obtain ⟨-, remove, tags⟩ := @pass_tags sourceKey state email policy online now
  rw [List.perm_iff_count]
  intro tag
  have settled := tags.count_eq tag
  have expired := (@tags_counted sourceKey state email policy online now).count_eq tag
  have old := (tagsOf_split state.clients email).count_eq tag
  have new := (tagsOf_insert state.clients email
    (state.pass sourceKey email policy online now).client).count_eq tag
  rw [State.tags_eq, State.tags_eq, State.observe, remove]
  simp only [List.count_append] at settled expired old new ⊢
  omega

theorem observe_kept (kept : Kept history state) :
    Kept (history ++ [(state.observe sourceKey email policy online now).2])
      (state.observe sourceKey email policy online now).1 := by
  obtain ⟨⟨count, number, fresh⟩, -⟩ := @pass_tags sourceKey state email policy online now
  have ledger : added (history ++ [(state.observe sourceKey email policy online now).2]) =
      added history ++ (state.observe sourceKey email policy online now).2.add.map Prod.fst := by
    simp [added]
  have returned : removed (history ++ [(state.observe sourceKey email policy online now).2]) =
      removed history ++ (state.observe sourceKey email policy online now).2.remove := by
    simp [removed]
  constructor
  · intro other client found
    by_cases same : email = other
    · subst same
      rw [observe_client] at found
      rw [← Option.some.inj found]
      exact fun key => pass_unblocked
    · rw [State.observe, BTreeMap.get_insert, if_neg same] at found
      exact kept.unblocked other client found
  · have span := List.range'_append_1 (s := 0) (m := state.nextRule) (n := count)
    rw [Nat.zero_add] at span
    rw [ledger, kept.numbered, State.observe, fresh, number, List.range_eq_range',
      List.range_eq_range', ← List.map_append, span]
  · rw [ledger, returned, List.perm_iff_count]
    intro tag
    have balance := kept.balance.count_eq tag
    have moved := (@observe_balance sourceKey state email policy online now).count_eq tag
    simp only [List.count_append] at balance moved ⊢
    omega

end

/-! Clients without a policy, and clients that are only watched. -/

theorem retain_tags (clients : List (String × Client)) (policies : BTreeMap String Policy) :
    ((((clients.filter fun client => policies.contains client.1).map fun client =>
        (client.1, if liftsBlocks policies[client.1]? then { client.2 with blocks := ∅ } else client.2)).flatMap
          fun client => client.2.tags) ++
      (clients.filter fun client => liftsBlocks policies[client.1]?).flatMap fun client =>
        client.2.tags).Perm (clients.flatMap fun client => client.2.tags) := by
  induction clients with
  | nil => exact List.Perm.refl _
  | cons client rest ih =>
    rw [List.perm_iff_count] at ih ⊢
    intro tag
    have later := ih tag
    have bare : Client.tags { client.2 with blocks := ∅ } = [] := rfl
    rw [List.filter_cons, List.filter_cons]
    cases lifted : liftsBlocks policies[client.1]? with
    | true =>
      by_cases known : policies.contains client.1 = true
      · simp only [known, if_true, List.map_cons, List.flatMap_cons, lifted, bare,
          List.count_append, List.nil_append] at later ⊢
        omega
      · simp only [known, if_true, List.flatMap_cons, List.count_append] at later ⊢
        simp only [Bool.false_eq_true, if_false]
        omega
    | false =>
      have known : policies.contains client.1 = true := by
        rw [Std.ExtTreeMap.contains_eq_isSome_getElem?]
        cases found : policies[client.1]? with
        | none => simp [found, liftsBlocks] at lifted
        | some policy => rfl
      simp only [known, if_true, List.map_cons, List.flatMap_cons, lifted, Bool.false_eq_true,
        if_false, List.count_append] at later ⊢
      omega

section
variable {history : List Changes} {state : State}

theorem retain_balance (policies : BTreeMap String Policy) :
    ((state.retainPolicies policies).1.tags ++ (state.retainPolicies policies).2).Perm state.tags := by
  have settled := retain_tags state.clients.toList policies
  rwa [State.tags_eq, State.tags_eq, tagsOf, State.retainPolicies, Std.ExtTreeMap.toList_map,
    Std.ExtTreeMap.toList_filter]

theorem retain_kept (policies : BTreeMap String Policy) (kept : Kept history state) :
    Kept (history ++ [⟨[], (state.retainPolicies policies).2, []⟩]) (state.retainPolicies policies).1 := by
  have ledger : added (history ++ [⟨[], (state.retainPolicies policies).2, []⟩]) = added history := by
    simp [added]
  have returned : removed (history ++ [⟨[], (state.retainPolicies policies).2, []⟩]) =
      removed history ++ (state.retainPolicies policies).2 := by
    simp [removed]
  constructor
  · intro email client found
    simp only [State.retainPolicies, Std.ExtTreeMap.getElem?_map, BTreeMap.get_filter,
      Option.map_eq_some_iff, Option.filter_eq_some_iff] at found
    obtain ⟨old, ⟨row, -⟩, same⟩ := found
    rw [← same]
    split
    · intro key counts held
      simp at held
    · exact kept.unblocked email old row
  · rw [ledger]
    exact kept.numbered
  · rw [ledger, returned, List.perm_iff_count]
    intro tag
    have balance := kept.balance.count_eq tag
    have moved := (@retain_balance state policies).count_eq tag
    simp only [List.count_append] at balance moved ⊢
    omega

theorem exec_kept (sourceKey : String → Option String) (call : Call) (kept : Kept history state) :
    Kept (history ++ (exec sourceKey state call).2) (exec sourceKey state call).1 := by
  cases call with
  | observe email policy online now => exact observe_kept kept
  | retainPolicies policies => exact retain_kept policies kept

end

theorem default_kept : Kept [] State.default := by
  constructor
  · intro email client found
    simp [State.default] at found
  · rfl
  · exact List.Perm.refl _

/-- The blocks and the rules given out and taken back, in every state that calls reach. -/
theorem run_kept (sourceKey : String → Option String) (calls : List Call) :
    Kept (run (exec sourceKey) State.default calls).2 (run (exec sourceKey) State.default calls).1 := by
  have start : Kept [] State.default := default_kept
  exact run_invariant Kept (fun _ _ call kept => exec_kept sourceKey call kept) start calls

section
variable {sourceKey : String → Option String} {state : State} {email : String} {policy : Policy}
  {online : BTreeMap String Int} {now : ℕ}

theorem evicted_sources (enforcing : policy.mode = .enforce) :
    (state.observe sourceKey email policy online now).2.add.map (fun rule => rule.2.2) =
      (state.counted sourceKey email policy online now).1.excess policy := by
  rw [State.observe, State.pass]
  exact (evictions_enforce enforcing _ _).2.2.1

/-- An enforcing observation leaves the limit at most, takes no more than it must, and
takes those that appeared first. -/
theorem observe_enforced (enforcing : policy.mode = .enforce) :
    ∃ client, (state.observe sourceKey email policy online now).1.clients[email]? = some client ∧
      client.sources.size ≤ policy.maxSources ∧
      ((state.observe sourceKey email policy online now).2.add ≠ [] →
        client.sources.size = policy.maxSources) ∧
      ∀ gone ∈ (state.observe sourceKey email policy online now).2.add.map fun rule => rule.2.2,
        gone ∉ client.sources ∧
        ∀ stays ∈ client.sources,
          older (state.firstSeen email now gone, gone) (state.firstSeen email now stays, stays) := by
  refine ⟨_, observe_client, ?_⟩
  have size : (state.pass sourceKey email policy online now).client.sources.size =
      (state.counted sourceKey email policy online now).1.sources.size -
        ((state.counted sourceKey email policy online now).1.excess policy).length :=
    evictions_size enforcing _ _ (excess_nodup _ policy) fun _ member => excess_counted member
  rw [excess_length] at size
  refine ⟨by omega, ?_, ?_⟩
  · intro some_evicted
    have taken : (state.counted sourceKey email policy online now).1.excess policy ≠ [] := by
      rw [← evicted_sources enforcing]
      simpa using some_evicted
    have length := excess_length (state.counted sourceKey email policy online now).1 policy
    have positive := List.length_pos_iff.mpr taken
    omega
  · rw [evicted_sources enforcing]
    intro gone evicted
    have gets := @evictions_sources email _ now enforcing
      ((state.counted sourceKey email policy online now).1.excess policy)
      ⟨(state.counted sourceKey email policy online now).1, state.nextRule,
        ⟨[], (state.counted sourceKey email policy online now).2, []⟩⟩
    refine ⟨?_, ?_⟩
    · rw [Std.ExtTreeMap.mem_iff_isSome_getElem?, State.pass, gets, if_pos evicted]
      simp
    · intro stays held
      rw [Std.ExtTreeMap.mem_iff_isSome_getElem?, State.pass, gets] at held
      split at held
      · cases held
      next apart =>
        obtain ⟨a, old⟩ := Option.isSome_iff_exists.mp
          (Std.ExtTreeMap.mem_iff_isSome_getElem?.mp (excess_counted evicted))
        obtain ⟨b, new⟩ := Option.isSome_iff_exists.mp held
        rw [← counted_first_seen old, ← counted_first_seen new]
        exact excess_oldest evicted apart old new

end

theorem added_nodup {history : List Changes} {state : State} (kept : Kept history state) :
    (added history).Nodup := by
  rw [kept.numbered]
  exact List.nodup_range.map fun _ _ same => evictTag_injective same

theorem kept_tags {history : List Changes} {state : State} (kept : Kept history state) :
    state.tags.Nodup ∧ ∀ tag ∈ state.tags, ∃ n < state.nextRule, tag = evictTag n := by
  refine ⟨(List.nodup_append.mp (kept.balance.nodup_iff.mpr (added_nodup kept))).1, ?_⟩
  intro tag held
  have given := kept.balance.mem_iff.mp (List.mem_append_left _ held)
  rw [kept.numbered] at given
  obtain ⟨n, below, same⟩ := List.mem_map.mp given
  exact ⟨n, List.mem_range.mp below, same.symm⟩

theorem admission_state (sourceKey : String → Option String) (calls : List Call) :
    (∀ (email : String) (client : Client),
      (run (exec sourceKey) State.default calls).1.clients[email]? = some client →
        ∀ key ∈ client.sources, key ∉ client.blocks) ∧
    (∀ email policy online now, policy.mode = .enforce →
      ∃ client, ((run (exec sourceKey) State.default calls).1.observe sourceKey email policy online
          now).1.clients[email]? = some client ∧
        client.sources.size ≤ policy.maxSources ∧
        (((run (exec sourceKey) State.default calls).1.observe sourceKey email policy online
            now).2.add ≠ [] → client.sources.size = policy.maxSources) ∧
        ∀ gone ∈ ((run (exec sourceKey) State.default calls).1.observe sourceKey email policy online
            now).2.add.map fun rule => rule.2.2,
          gone ∉ client.sources ∧
          ∀ stays ∈ client.sources,
            older ((run (exec sourceKey) State.default calls).1.firstSeen email now gone, gone)
              ((run (exec sourceKey) State.default calls).1.firstSeen email now stays, stays)) ∧
    (run (exec sourceKey) State.default calls).1.tags.Nodup ∧
    (∀ tag ∈ (run (exec sourceKey) State.default calls).1.tags,
      ∃ n < (run (exec sourceKey) State.default calls).1.nextRule, tag = evictTag n) ∧
    (added (run (exec sourceKey) State.default calls).2).Nodup ∧
    ((run (exec sourceKey) State.default calls).1.tags ++
      removed (run (exec sourceKey) State.default calls).2).Perm
        (added (run (exec sourceKey) State.default calls).2) := by
  have kept := run_kept sourceKey calls
  obtain ⟨unique, numbered⟩ := kept_tags kept
  refine ⟨kept.unblocked, ?_, unique, numbered, added_nodup kept, kept.balance⟩
  intro email policy online now enforcing
  exact observe_enforced enforcing

end Admission
end Xray
end NodePlane
