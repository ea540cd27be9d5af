import NodePlane.Agent.Calls

/-! The revision fence of a profile: it never falls, and the mutations of a profile
are ordered by it. -/
namespace NodePlane
open Library
namespace RevisionFence

/-- What the journal still knows of a mutation that ran: its revision is fenced. A
local expiry is fenced only once confirmed, but its lease stays. -/
def Behind (j : Journal) (origin : Origin) (i : Intent) : Prop :=
  ∃ fence, j.fences.lookup i.target = some fence ∧
    if origin = .expiry then
      i.revision ≤ fence.revision + 1 ∧ (j.leases.lookup i.target).isSome
    else i.revision < fence.revision ∨ (i.revision = fence.revision ∧ i.commandId = fence.commandId)

/-- The order of two mutations of one profile: the revision rises, except at the
retry of a delete, and at a delete that follows an unconfirmed local expiry. -/
def Ordered (first : Origin) (i : Intent) (second : Origin) (k : Intent) : Prop :=
  i.revision < k.revision ∨ (k.ensure = false ∧
    ((second = .retry ∧ i.revision = k.revision ∧ i.commandId = k.commandId) ∨
      (first = .expiry ∧ (i.revision = k.revision ∨
        (second = .retry ∧ i.revision = k.revision + 1)))))

/-- Events in the order of their revisions, where both mutate one profile. -/
def InOrder (e f : Event) : Prop :=
  ∀ first i second k, e.invocation = .profile first i → f.invocation = .profile second k →
    i.target = k.target → Ordered first i second k

theorem Behind.mono {j k : Journal} {origin : Origin} {i : Intent} (grows : j.Extends k)
    (behind : Behind j origin i) : Behind k origin i := by
  obtain ⟨fence, fenced, order⟩ := behind
  obtain ⟨next, found, risen⟩ := grows.fences _ fence fenced
  refine ⟨next, found, ?_⟩
  split_ifs at order ⊢ with expiry
  · obtain ⟨lease, leased⟩ := Option.isSome_iff_exists.mp order.2
    obtain ⟨later, kept, _⟩ := grows.leases _ lease leased
    have rise := risen.revision
    refine ⟨by omega, ?_⟩
    rw [kept]
    rfl
  · rcases order with less | ⟨same, id⟩
    · have rise := risen.revision
      exact .inl (by omega)
    · rcases risen with less | ⟨equal, kept⟩
      · exact .inl (by omega)
      · exact .inr ⟨same.trans equal, id.trans kept⟩

private theorem behind_own {j : Journal} {origin : Origin} {i : Intent} {fence : Fence}
    (fenced : j.fences.lookup i.target = some fence) (journaled : origin ≠ .expiry)
    (revision : i.revision = fence.revision) (id : i.commandId = fence.commandId) :
    Behind j origin i := by
  refine ⟨fence, fenced, ?_⟩
  rw [if_neg journaled]
  exact .inr ⟨revision, id⟩

/-- A delete at the next revision of a fence. -/
private theorem deleteIntent_revision {id : String} {target : String × String} {revision : Int}
    (valid : (deleteIntent id target revision).validate = .ok ()) :
    (deleteIntent id target revision).revision = revision + 1 :=
  nextRevision_pos (Intent.validate_target valid).1

/-- A mutation that begins is fenced from then on. -/
theorem begin_behind {p : Platform} {j k : Journal} {origin : Origin} {i : Intent}
    (begun : Begin p j (.profile origin i) k) : Behind k origin i := by
  cases begun with
  | ensure | delete | retry => exact behind_own (Table.lookup_put_self _ _ _) (by simp) rfl rfl
  | decommission => exact behind_own (Table.lookup_put_self _ _ _) (by simp) rfl rfl
  | expiry leased marked fenced valid =>
    refine ⟨_, fenced, ?_⟩
    rw [if_pos rfl]
    refine ⟨Int.le_of_eq (deleteIntent_revision valid), ?_⟩
    rw [deleteIntent_target, leased]
    rfl

/-- A delete above the fence is in order with every earlier mutation. -/
private theorem delete_ordered {first second : Origin} {i k : Intent} {fence : Fence} {leased : Prop}
    (order : if first = .expiry then i.revision ≤ fence.revision + 1 ∧ leased
      else i.revision < fence.revision ∨
        (i.revision = fence.revision ∧ i.commandId = fence.commandId))
    (deletes : k.ensure = false) (above : fence.revision < k.revision) :
    Ordered first i second k := by
  by_cases less : i.revision < k.revision
  · exact .inl less
  · split_ifs at order with expiry
    · exact .inr ⟨deletes, .inr ⟨expiry, .inl (by omega)⟩⟩
    · exact .inl (by omega)

/-- A mutation that begins is in order with every earlier one of its profile. -/
theorem begin_ordered {p : Platform} {j l : Journal} {first second : Origin} {i k : Intent}
    (behind : Behind j first i) (begun : Begin p j (.profile second k) l)
    (same : i.target = k.target) : Ordered first i second k := by
  obtain ⟨fence, fenced, order⟩ := behind
  rw [same] at fenced
  cases begun with
  | ensure instanceId granted valid ensures new idle unleased unused newer =>
    have above := newer fence fenced
    split_ifs at order with expiry
    · rw [same, unleased] at order
      cases order.2
    · exact .inl (by omega)
  | delete instanceId granted valid deletes new idle newer =>
    exact delete_ordered order deletes (newer fence fenced)
  | retry instanceId granted valid deletes found unfinished recorded leased idle newer =>
    have above := newer fence fenced
    by_cases less : i.revision < k.revision
    · exact .inl less
    · refine .inr ⟨deletes, ?_⟩
      split_ifs at order with expiry
      · refine .inr ⟨expiry, ?_⟩
        by_cases equal : i.revision = k.revision
        · exact .inl equal
        · exact .inr ⟨rfl, by omega⟩
      · rcases above with above | ⟨equal, id⟩
        · omega
        · rcases order with below | ⟨revision, command⟩
          · omega
          · exact .inl ⟨rfl, by omega, command.trans id⟩
  | @expiry target lease held leased marked fenced' valid =>
    have revision := deleteIntent_revision valid
    have one : held = fence := Option.some.inj (fenced'.symm.trans fenced)
    subst one
    exact delete_ordered order rfl (by omega)
  | @decommission id target held instanceId new idle fenced' confirmed valid =>
    have revision := deleteIntent_revision valid
    have one : held = fence := Option.some.inj (fenced'.symm.trans fenced)
    subst one
    exact delete_ordered order rfl (by omega)

/-- The runs so far: in order, and every mutation still fenced. -/
structure Kept (past : List Event) (n : Node) : Prop where
  ordered : past.Pairwise InOrder
  behind : ∀ e ∈ past, ∀ origin i, e.invocation = .profile origin i → Behind n.journal origin i

private theorem kept_mono {past : List Event} {n m : Node} (kept : Kept past n)
    (grows : n.journal.Extends m.journal) : Kept (past ++ []) m := by
  rw [List.append_nil]
  exact ⟨kept.ordered, fun e old origin i profile => (kept.behind e old origin i profile).mono grows⟩

theorem kept_step {p : Platform} {past events : List Event} {n m : Node} (kept : Kept past n)
    (step : Transition p n events m) : Kept (past ++ events) m := by
  cases step with
  | tickets | mark => exact kept_mono kept (Journal.Extends.refl _)
  | quiet enabled file change => exact kept_mono kept change.toExtends
  | start enabled file begun => exact kept_mono kept begun.grows
  | invoke enabled file begun =>
    refine ⟨List.pairwise_append.mpr ⟨kept.ordered, List.pairwise_singleton _ _, ?_⟩, ?_⟩
    · intro e old f new first i second k profile profile' same
      rw [List.mem_singleton] at new
      subst new
      cases profile'
      exact begin_ordered (kept.behind e old first i profile) begun same
    · intro e member origin i profile
      rcases List.mem_append.mp member with old | new
      · exact (kept.behind e old origin i profile).mono begun.grows
      · rw [List.mem_singleton] at new
        subst new
        cases profile
        exact begin_behind begun
  | script enabled name args =>
    refine ⟨List.pairwise_append.mpr ⟨kept.ordered, List.pairwise_singleton _ _, ?_⟩, ?_⟩
    · intro e old f new first i second k profile profile'
      rw [List.mem_singleton] at new
      subst new
      cases profile'
    · intro e member origin i profile
      rcases List.mem_append.mp member with old | new
      · exact kept.behind e old origin i profile
      · rw [List.mem_singleton] at new
        subst new
        cases profile

theorem history_kept (p : Platform) (calls : List Call) :
    Kept (Agent.history p calls) (Agent.after p calls) := by
  have start : Kept [] Node.fresh := ⟨List.Pairwise.nil, by simp⟩
  exact Steps.history (fun kept step => kept_step kept step) start (Agent.after_steps p calls)

/-- The order without exception for local expiries. -/
def Strict (e f : Event) : Prop :=
  ∀ first i second k, e.invocation = .profile first i → f.invocation = .profile second k →
    i.target = k.target → i.revision < k.revision ∨
      (second = .retry ∧ k.ensure = false ∧ i.commandId = k.commandId)

/-- A grant, its failed expiry, and the controller's delete. -/
def sampleCalls : List Call :=
  [.applyProfile sampleGrant "agent-1" ⟨0, 0, 0⟩ fun _ => .done Response.ok,
    .expire "agent-1" 43200000000 fun _ => .failed "peer removal failed",
    .applyProfile sampleDelete "agent-1" ⟨43200000001, 0, 0⟩ fun _ => .done Response.ok]

end RevisionFence
end NodePlane
