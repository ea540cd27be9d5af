import NodePlane.Controller.Rows
import NodePlane.Controller.Temporary

/-! Leases of temporary configurations: each is issued at most once, and only an agent
that enforces its expiry makes it active; its revocation and its end are final. -/
namespace NodePlane
namespace Controller
open Library

/-- Its revocation was requested, or it has ended. -/
def LeaseStatus.ended : LeaseStatus → Bool
  | revoking | revokeBlocked | expired | revoked | cancelled => true
  | _ => false

theorem LeaseStatus.ended_of_terminal {s : LeaseStatus} (final : s.terminal = true) :
    s.ended = true := by
  cases s <;> first | rfl | cases final

/-- A lease over one call; `ok` says which lease the call may activate, and until when. -/
structure Lease.Moves (ok : Uuid → Option Time → Prop) (l m : Lease) : Prop where
  id : m.id = l.id
  place : m.node = l.node ∧ m.protocol = l.protocol
  final : l.status.terminal = true → m.status = l.status
  ended : l.status.ended = true → m.status.ended = true
  left : l.status ≠ .queued → m.status ≠ .queued
  active : m.status = .active →
    (l.status = .active ∧ m.expiresAt = l.expiresAt) ∨ ok l.id m.expiresAt

namespace Lease.Moves
variable {ok : Uuid → Option Time → Prop} {l m n : Lease}

theorem refl (ok : Uuid → Option Time → Prop) (l : Lease) : l.Moves ok l :=
  ⟨rfl, ⟨rfl, rfl⟩, fun _ => rfl, fun h => h, fun h => h, fun h => .inl ⟨h, rfl⟩⟩

theorem trans (first : l.Moves ok m) (second : m.Moves ok n) : l.Moves ok n where
  id := second.id.trans first.id
  place := ⟨second.place.1.trans first.place.1, second.place.2.trans first.place.2⟩
  final := fun h => (second.final (first.final h ▸ h)).trans (first.final h)
  ended := fun h => second.ended (first.ended h)
  left := fun h => second.left (first.left h)
  active := by
    intro h
    rcases second.active h with ⟨was, same⟩ | allowed
    · rcases first.active was with ⟨before, kept⟩ | allowed
      · exact .inl ⟨before, same.trans kept⟩
      · exact .inr (same ▸ allowed)
    · exact .inr (first.id ▸ allowed)

/-- Towards its end, from a status that is not final. -/
theorem ends (row : m.id = l.id ∧ m.node = l.node ∧ m.protocol = l.protocol)
    (open_ : l.status.terminal = false) (end_ : m.status.ended = true) : l.Moves ok m where
  id := row.1
  place := row.2
  final := fun h => by rw [open_] at h; cases h
  ended := fun _ => end_
  left := fun _ bad => by rw [bad] at end_; cases end_
  active := fun bad => by rw [bad] at end_; cases end_

/-- Between the statuses before activation. -/
theorem issues (row : m.id = l.id ∧ m.node = l.node ∧ m.protocol = l.protocol)
    (open_ : l.status.ended = false) (next : m.status = .issuing ∨ m.status = .blocked) :
    l.Moves ok m where
  id := row.1
  place := row.2
  final := fun h => by rw [LeaseStatus.ended_of_terminal h] at open_; cases open_
  ended := fun h => by rw [open_] at h; cases h
  left := fun _ bad => by rw [bad] at next; rcases next with h | h <;> cases h
  active := fun bad => by rw [bad] at next; rcases next with h | h <;> cases h

/-- A change that leaves the status and the expiry. -/
theorem still (row : m.id = l.id ∧ m.node = l.node ∧ m.protocol = l.protocol)
    (status : m.status = l.status) (expiry : m.expiresAt = l.expiresAt) : l.Moves ok m where
  id := row.1
  place := row.2
  final := fun _ => status
  ended := fun h => status ▸ h
  left := fun h => status ▸ h
  active := fun h => .inl ⟨status ▸ h, expiry⟩

end Lease.Moves

namespace TemporaryLeases
open TemporaryConfig

/-- All rows move, or one that is `fit` is added under an identity drawn now. -/
inductive Evolves (ok : Uuid → Option Time → Prop) (fit : Lease → Prop) (leases : List Lease)
    (next : Uuid) : List Lease → Uuid → Prop
  | moved (f : Lease → Lease) (moves : ∀ l ∈ leases, l.Moves ok (f l)) :
    Evolves ok fit leases next (leases.map f) next
  | added (l : Lease) (drawn : l.id = next) (queued : l.status = .queued) (new : fit l) :
    Evolves ok fit leases next (leases ++ [l]) (next + 2)

section Rows
variable {ok : Uuid → Option Time → Prop} {fit : Lease → Prop} {leases after : List Lease}
  {next bound : Uuid}

theorem Evolves.refl (ok : Uuid → Option Time → Prop) (leases : List Lease) (next : Uuid) :
    Evolves ok fit leases next leases next := by
  have same : Evolves ok fit leases next (leases.map id) next :=
    .moved id fun l _ => Lease.Moves.refl ok l
  rwa [List.map_id] at same

theorem Evolves.update {p : Lease → Bool} {f : Lease → Lease}
    (each : ∀ l ∈ leases, p l = true → l.Moves ok (f l)) :
    Evolves ok fit leases next (update leases p f) next := by
  refine .moved _ fun l listed => ?_
  by_cases chosen : p l = true
  · rw [if_pos chosen]
    exact each l listed chosen
  · rw [if_neg chosen]
    exact Lease.Moves.refl ok l

/-- Two updates in one transaction. -/
theorem Evolves.andThen {mid : List Lease} (first : ∃ f, mid = leases.map f ∧
      ∀ l ∈ leases, l.Moves ok (f l))
    (second : ∃ f, after = mid.map f ∧ ∀ l ∈ mid, l.Moves ok (f l)) :
    Evolves ok fit leases next after next := by
  obtain ⟨f, rfl, one⟩ := first
  obtain ⟨g, rfl, two⟩ := second
  rw [List.map_map]
  refine .moved _ fun l listed => (one l listed).trans ?_
  exact two (f l) (List.mem_map_of_mem listed)

theorem Evolves.from_ (evolves : Evolves ok fit leases next after bound) {m : Lease}
    (listed : m ∈ after) :
    (∃ l ∈ leases, l.Moves ok m) ∨ (m.status = .queued ∧ fit m) := by
  cases evolves with
  | moved f moves =>
    obtain ⟨l, old, rfl⟩ := List.mem_map.mp listed
    exact .inl ⟨l, old, moves l old⟩
  | added l drawn queued requested =>
    rcases List.mem_append.mp listed with old | new
    · exact .inl ⟨m, old, Lease.Moves.refl ok m⟩
    · rw [List.mem_singleton.mp new]
      exact .inr ⟨queued, requested⟩

theorem Evolves.to_ (evolves : Evolves ok fit leases next after bound) {l : Lease}
    (listed : l ∈ leases) : ∃ m ∈ after, l.Moves ok m := by
  cases evolves with
  | moved f moves => exact ⟨f l, List.mem_map_of_mem listed, moves l listed⟩
  | added m drawn queued => exact ⟨l, List.mem_append_left _ listed, Lease.Moves.refl ok l⟩

theorem Evolves.drawn (evolves : Evolves ok fit leases next after bound)
    (drawn : Drawn (leases.map Lease.id) next) : Drawn (after.map Lease.id) bound := by
  cases evolves with
  | moved f moves =>
    have same : (leases.map f).map Lease.id = leases.map Lease.id := by
      rw [List.map_map]
      exact List.map_congr_left fun l listed => (moves l listed).id
    rw [same]
    exact drawn
  | added l new queued =>
    have one : Drawn [next] (next + 2) :=
      ⟨List.nodup_singleton _, fun i only => by
        rw [List.mem_singleton.mp only]
        exact Nat.lt_add_of_pos_right (by decide)⟩
    rw [List.map_append, List.map_singleton, new]
    exact drawn.append one (by simp) (Nat.le_add_right _ _)

end Rows

/-! What each call does to the leases. -/

section Calls
variable {ok : Uuid → Option Time → Prop} {fit : Lease → Prop} {leases : List Lease}
  {next : Uuid}

theorem setStatus_ends (leases : List Lease) (id : Uuid) {old new : LeaseStatus}
    (open_ : old.terminal = false) (end_ : new.ended = true) :
    Evolves ok fit leases next (setStatus leases id old new) next := by
  refine .update fun l _ chosen => ?_
  simp only [Bool.and_eq_true, decide_eq_true_eq] at chosen
  exact .ends ⟨rfl, rfl, rfl⟩ (by rw [chosen.2]; exact open_) end_

theorem setStatus_issues (leases : List Lease) (id : Uuid) {old new : LeaseStatus}
    (open_ : old.ended = false) (before : new = .issuing ∨ new = .blocked) :
    Evolves ok fit leases next (setStatus leases id old new) next := by
  refine .update fun l _ chosen => ?_
  simp only [Bool.and_eq_true, decide_eq_true_eq] at chosen
  exact .issues ⟨rfl, rfl, rfl⟩ (by rw [chosen.2]; exact open_) before

theorem ending_ended (l : Lease) : (ending l).status.ended = true := by
  unfold ending
  dsimp only
  split <;> rfl

theorem ending_moves {l : Lease} (open_ : l.status.terminal = false) : l.Moves ok (ending l) :=
  .ends ⟨rfl, rfl, rfl⟩ open_ (ending_ended l)

theorem revokeRemoved_map (leases : List Lease) (node : NodeKey) (removed : List Protocol) :
    ∃ f, revokeRemoved leases node removed = leases.map f ∧ ∀ l ∈ leases, l.Moves ok (f l) := by
  refine ⟨_, rfl, fun l _ => ?_⟩
  split
  · next chosen =>
    simp only [removable, Bool.and_eq_true, Bool.not_eq_true'] at chosen
    exact ending_moves chosen.1.1.2
  · exact Lease.Moves.refl ok l

theorem carry_map (leases : List Lease) (node : NodeKey) (revision : ℕ) (p : Lease → Bool) :
    ∃ f, carry leases node revision p = leases.map f ∧ ∀ l ∈ leases, l.Moves ok (f l) := by
  refine ⟨_, rfl, fun l _ => ?_⟩
  split
  · exact .still ⟨rfl, rfl, rfl⟩ rfl rfl
  · exact Lease.Moves.refl ok l

theorem same_map (leases : List Lease) :
    ∃ f, leases = leases.map f ∧ ∀ l ∈ leases, l.Moves ok (f l) :=
  ⟨id, (List.map_id leases).symm, fun l _ => Lease.Moves.refl ok l⟩

theorem follow_evolves (leases : List Lease) (key : NodeKey) (revision : ℕ) (previous : Settings)
    (n m : Node) : Evolves ok fit leases next (follow leases key revision previous n m) next := by
  refine Evolves.andThen (revokeRemoved_map leases key (dropped n m)) ?_
  unfold follow
  dsimp only
  split
  · exact carry_map _ _ _ _
  · split
    · exact carry_map _ _ _ _
    · exact same_map _

theorem after_evolves (db db' : Db) (leases : List Lease) (r : Request) :
    Evolves ok fit leases next (TemporaryConfig.after db db' leases r) next := by
  unfold TemporaryConfig.after
  split
  · split
    · exact follow_evolves leases _ _ _ _ _
    · exact Evolves.refl ok leases next
  · exact Evolves.andThen (revokeRemoved_map leases _ _) (same_map _)
  · exact Evolves.refl ok leases next

theorem lapse_moves (db : Db) (now : Time) (l : Lease) : l.Moves ok (lapse db now l) := by
  unfold lapse
  split
  · exact Lease.Moves.refl ok l
  · next open_ =>
    have open_ : l.status.terminal = false := by simpa using open_
    split
    · exact .ends ⟨rfl, rfl, rfl⟩ open_ rfl
    · exact .ends ⟨rfl, rfl, rfl⟩ open_ rfl
    · split
      · exact .ends ⟨rfl, rfl, rfl⟩ open_ rfl
      · exact Lease.Moves.refl ok l

theorem activate_evolves (db : Db) (leases : List Lease) (id : Uuid) (r : LeaseReceipt)
    (allowed : ok id (some r.expiresAt)) :
    Evolves ok fit leases next (activate db leases id r) next := by
  refine .update fun l _ chosen => ?_
  simp only [Bool.and_eq_true, Bool.or_eq_true, decide_eq_true_eq] at chosen
  have open_ : l.status.ended = false := by
    rcases chosen.2 with h | h <;> rw [h] <;> rfl
  constructor
  · rfl
  · exact ⟨rfl, rfl⟩
  · intro final
    rw [LeaseStatus.ended_of_terminal final] at open_
    cases open_
  · intro ended
    rw [open_] at ended
    cases ended
  · intro _
    dsimp only
    split <;> simp
  · intro _
    exact .inr (chosen.1 ▸ allowed)

end Calls

variable {s : TemporarySystem} {ok : Uuid → Option Time → Prop} {fit : Lease → Prop}

theorem failIssue_evolves (ok : Uuid → Option Time → Prop) (s : TemporarySystem) (id : Uuid) (run : Bool) :
    Evolves ok fit s.leases s.next (s.failIssue id run).leases (s.failIssue id run).next := by
  unfold TemporarySystem.failIssue
  cases run
  · exact Evolves.refl ok s.leases s.next
  · exact setStatus_issues s.leases id rfl (.inr rfl)

theorem claim_evolves (id : Uuid) :
    Evolves ok fit s.leases s.next (s.claim id).1.leases (s.claim id).1.next := by
  unfold TemporarySystem.claim
  split
  · exact Evolves.refl _ s.leases s.next
  · split
    · exact Evolves.refl _ s.leases s.next
    · split
      · split
        · exact setStatus_issues s.leases id rfl (.inl rfl)
        · exact setStatus_ends s.leases id rfl rfl
      · exact Evolves.refl _ s.leases s.next

theorem receive_evolves (l : Lease) (run : Bool) (now : Time) (reply : Option LeaseReceipt) :
    Evolves ok fit s.leases s.next (s.receive l run now reply).1.leases
      (s.receive l run now reply).1.next := by
  unfold TemporarySystem.receive
  cases reply with
  | none => exact failIssue_evolves _ s l.id run
  | some r =>
    dsimp only
    split
    · exact Evolves.refl _ s.leases s.next
    · exact failIssue_evolves _ s l.id run

theorem poll_evolves (l : Lease) (r : LeaseReceipt) (run : Bool) (reply : Option AgentLease)
    (allowed : ∀ state, reply = some state → enforced r state = true →
      ok l.id (some r.expiresAt)) :
    Evolves ok fit s.leases s.next (s.poll l r run reply).1.leases
      (s.poll l r run reply).1.next := by
  unfold TemporarySystem.poll
  cases reply with
  | none => exact failIssue_evolves _ s l.id run
  | some state =>
    dsimp only
    split
    · next enforces =>
      exact activate_evolves s.core.db s.leases l.id r (allowed state rfl enforces)
    · exact failIssue_evolves _ s l.id run

theorem read_evolves (ok : Uuid → Option Time → Prop) (l : Lease) (reply : Option AgentState) :
    Evolves ok fit s.leases s.next (s.read l reply).leases (s.read l reply).next := by
  have confirm : ∀ status : LeaseStatus, status.ended = true → Evolves ok fit s.leases s.next
      (update s.leases
        (fun m => m.id = l.id && (m.status = .blocked || m.status = .revokeBlocked))
        fun m => { m with status := status }) s.next := by
    intro status end_
    refine .update fun m _ chosen => ?_
    simp only [Bool.and_eq_true, Bool.or_eq_true, decide_eq_true_eq] at chosen
    refine .ends ⟨rfl, rfl, rfl⟩ ?_ end_
    rcases chosen.2 with h | h <;> rw [h] <;> rfl
  unfold TemporarySystem.read
  cases reply with
  | none => exact Evolves.refl ok s.leases s.next
  | some state =>
    cases state with
    | expired => exact confirm .expired rfl
    | revoked => exact confirm .revoked rfl
    | active => dsimp only; split <;> exact Evolves.refl ok s.leases s.next
    | other => dsimp only; split <;> exact Evolves.refl ok s.leases s.next

theorem select_evolves (ok : Uuid → Option Time → Prop) (id : Uuid) (p : LeaseStatus → Bool)
    (worker : Lease → LeaseWorker) :
    Evolves ok fit s.leases s.next (s.select id p worker).leases (s.select id p worker).next := by
  unfold TemporarySystem.select
  split
  · exact Evolves.refl ok s.leases s.next
  · split <;> exact Evolves.refl ok s.leases s.next

/-- The call is the poll that confirms the lease's grant. -/
def Activates (s : TemporarySystem) (c : TemporaryCall) (id : Uuid) (expiry : Option Time) :
    Prop :=
  ∃ l r run state, s.worker = .granted l r run ∧ c = .poll (some state) ∧ l.id = id ∧
    expiry = some r.expiresAt ∧ enforced r state = true

/-- The node was ready for the lease. -/
def Requested (s : TemporarySystem) (l : Lease) : Prop :=
  ∃ node, readyNode s.core.db l.node l.protocol l.transport = .ok node

theorem exec_evolves (drawn : Drawn (s.leases.map Lease.id) s.next) (c : TemporaryCall) :
    Evolves (Activates s c) (Requested s) s.leases s.next (s.exec c).1.leases
      (s.exec c).1.next := by
  have still : ∀ ok, Evolves ok (Requested s) s.leases s.next s.leases s.next :=
    fun ok => Evolves.refl ok s.leases s.next
  unfold TemporarySystem.exec
  cases c with
  | core c =>
    cases c with
    | request r =>
      unfold TemporarySystem.requestStep
      dsimp only
      split
      · exact still _
      · exact after_evolves _ _ s.leases _
    | _ => dsimp only; split <;> exact still _
  | create now key protocol transport duration =>
    dsimp only
    split
    · exact still _
    · next made =>
      simp only [create, deny_ok, admitted_ok] at made
      obtain ⟨_, _, _, made⟩ := made
      cases ready : readyNode s.core.db key protocol transport with
      | error code => rw [ready] at made; cases made
      | ok node =>
        rw [ready] at made
        cases made
        exact .added _ rfl rfl ⟨node, ready⟩
  | revoke id =>
    dsimp only
    split
    · exact still _
    · next done =>
      simp only [revoke, admitted_ok, need_ok] at done
      obtain ⟨_, _, l, found, done⟩ := done
      cases done
      dsimp only
      split
      · exact still _
      · next open_ =>
        refine .update fun m listed chosen => ?_
        have same : m = l := drawn.unique listed (List.mem_of_find?_eq_some found) (by
          have its := List.find?_some found
          simp only [decide_eq_true_eq] at its chosen
          exact chosen.trans its.symm)
        rw [same]
        exact ending_moves (by simpa using (not_or.mp open_).1)
  | scheduled now =>
    dsimp only
    split
    · unfold scheduled
      split
      · exact still _
      · exact .moved _ fun l _ => lapse_moves s.core.db now l
    · exact still _
  | recover =>
    dsimp only
    split
    · refine .update fun l _ chosen => ?_
      simp only [decide_eq_true_eq] at chosen
      exact .issues ⟨rfl, rfl, rfl⟩ (by rw [chosen]; rfl) (.inr rfl)
    · exact still _
  | claim id =>
    dsimp only
    split
    · exact claim_evolves id
    · exact still _
  | receive now reply =>
    dsimp only
    split
    · exact receive_evolves _ _ now reply
    · exact still _
  | poll reply =>
    dsimp only
    split
    · next l r run granted =>
      refine poll_evolves l r run reply ?_
      rintro state rfl enforces
      exact ⟨l, r, run, state, granted, rfl, rfl, rfl, enforces⟩
    · exact still _
  | confirmRevoke confirmed =>
    dsimp only
    split
    · refine setStatus_ends s.leases _ rfl ?_
      split
      · rfl
      · split <;> rfl
    · exact still _
  | read reply =>
    dsimp only
    split
    · exact read_evolves _ _ reply
    · exact still _
  | recheck id =>
    dsimp only
    split
    · exact select_evolves _ id _ _
    · exact still _
  | resolve id =>
    dsimp only
    split
    · exact select_evolves _ id _ _
    · exact still _
  | resolved confirmed =>
    dsimp only
    split
    · cases confirmed
      · exact still _
      · exact setStatus_ends s.leases _ rfl rfl
    · exact still _
  | crash => exact still _
  | _ => dsimp only; split <;> exact still _

/-! What a call reports and how the worker goes on. -/

theorem ensured_from {c : TemporaryCall} {id : Uuid} (shown : .ensured id ∈ (s.exec c).2) :
    ∃ l, s.worker = .issuing l ∧ l.id = id ∧ c = .sendEnsure := by
  unfold TemporarySystem.exec at shown
  cases c with
  | core c =>
    cases c with
    | request r =>
      unfold TemporarySystem.requestStep at shown
      dsimp only at shown
      split at shown
      · cases shown
      · simp at shown
    | _ =>
      unfold TemporarySystem.coreStep at shown
      dsimp only at shown
      split at shown
      · simp at shown
      · cases shown
  | sendEnsure =>
    dsimp only at shown
    split at shown
    · next l held =>
      cases List.mem_singleton.mp shown
      exact ⟨l, held, rfl, rfl⟩
    · cases shown
  | claim id =>
    unfold TemporarySystem.claim at shown
    dsimp only at shown
    repeat' split at shown
    all_goals cases shown
  | receive now reply =>
    unfold TemporarySystem.receive at shown
    dsimp only at shown
    repeat' split at shown
    all_goals simp at shown
  | poll reply =>
    unfold TemporarySystem.poll at shown
    dsimp only at shown
    repeat' split at shown
    all_goals simp at shown
  | _ =>
    dsimp only at shown
    repeat' split at shown
    all_goals simp at shown

/-- The lease of a protocol that is removed ends, or is about to. -/
theorem revokeRemoved_ends {leases : List Lease} {node : NodeKey} {removed : List Protocol}
    {l : Lease} (listed : l ∈ leases) (chosen : removable node removed l = true) :
    ∃ m ∈ revokeRemoved leases node removed, m.id = l.id ∧ m.status.ended = true := by
  refine ⟨_, List.mem_map_of_mem listed, ?_⟩
  split
  · exact ⟨rfl, ending_ended l⟩
  · next busy =>
    refine ⟨rfl, ?_⟩
    simp only [chosen, Bool.true_and, Bool.and_eq_true, decide_eq_true_eq, not_and_or,
      Decidable.not_not] at busy
    rcases busy with h | h <;> rw [h] <;> rfl

theorem follow_ends {leases : List Lease} {key : NodeKey} {revision : ℕ} {previous : Settings}
    {n m : Node} {l : Lease} (listed : l ∈ leases)
    (chosen : removable key (dropped n m) l = true) :
    ∃ k ∈ follow leases key revision previous n m, k.id = l.id ∧ k.status.ended = true := by
  obtain ⟨k, member, same, ended⟩ := revokeRemoved_ends listed chosen
  have carried : ∀ p, ∃ j ∈ carry (revokeRemoved leases key (dropped n m)) key revision p,
      j.id = l.id ∧ j.status.ended = true := by
    intro p
    obtain ⟨f, shape, moves⟩ := carry_map (revokeRemoved leases key (dropped n m)) key revision p
    have move : k.Moves (fun _ _ => False) (f k) := moves k member
    rw [shape]
    exact ⟨f k, List.mem_map_of_mem member, move.id.trans same, move.ended ended⟩
  unfold follow
  dsimp only
  split
  · exact carried _
  · split
    · exact carried _
    · exact ⟨k, member, same, ended⟩

theorem lapse_ends {db : Db} {now : Time} {l : Lease} (open_ : l.status.terminal = false)
    (due : db.fleet.retired l.node = true ∨ overdue now l = true) :
    (lapse db now l).status.ended = true := by
  unfold lapse
  rw [open_]
  unfold Fleet.retired at due
  cases gone : db.fleet.retirements.lookup l.node with
  | none =>
    rw [gone] at due
    have late : overdue now l = true := due.resolve_left (by simp)
    simp [late, LeaseStatus.ended]
  | some mode => cases mode <;> rfl

theorem revocation_from {c : TemporaryCall} {id : Uuid}
    (shown : .revocation id ∈ (s.exec c).2) :
    ∃ m ∈ (s.exec c).1.leases, m.id = id ∧ m.status.ended = true := by
  unfold TemporarySystem.exec at shown ⊢
  cases c with
  | core c =>
    cases c with
    | request r =>
      unfold TemporarySystem.requestStep at shown ⊢
      dsimp only at shown ⊢
      split at shown
      · cases shown
      · next db done =>
        obtain ⟨l, member, same⟩ := List.mem_map.mp shown
        cases same
        obtain ⟨listed, chosen⟩ := List.mem_filter.mp member
        dsimp only
        unfold removedBy at chosen
        unfold TemporaryConfig.after
        split at chosen
        · split at chosen
          · exact follow_ends listed chosen
          · simp [removable] at chosen
        · exact revokeRemoved_ends listed chosen
        · simp [removable] at chosen
    | _ =>
      unfold TemporarySystem.coreStep at shown
      dsimp only at shown
      split at shown
      · simp at shown
      · cases shown
  | revoke wanted =>
    dsimp only at shown ⊢
    split at shown
    · cases shown
    · next leases done =>
      cases List.mem_singleton.mp shown
      simp only [revoke, admitted_ok, need_ok] at done
      obtain ⟨_, _, l, found, done⟩ := done
      cases done
      have its := List.find?_some found
      simp only [decide_eq_true_eq] at its
      have listed := List.mem_of_find?_eq_some found
      dsimp only
      split
      · next over_ =>
        refine ⟨l, listed, its, ?_⟩
        rcases over_ with final | waits
        · exact LeaseStatus.ended_of_terminal final
        · rw [waits]; rfl
      · refine ⟨ending l, List.mem_map.mpr ⟨l, listed, ?_⟩, its, ending_ended l⟩
        rw [if_pos (by simpa using its)]
  | scheduled now =>
    dsimp only at shown ⊢
    split at shown
    · next free =>
      rw [if_pos free]
      obtain ⟨l, member, same⟩ := List.mem_map.mp shown
      cases same
      unfold lapsed at member
      unfold scheduled
      split at member
      · cases member
      · next works =>
        rw [if_neg works]
        obtain ⟨listed, due⟩ := List.mem_filter.mp member
        simp only [Bool.and_eq_true, Bool.not_eq_true', Bool.or_eq_true] at due
        have moves : l.Moves (fun _ _ => False) (lapse s.core.db now l) := lapse_moves _ now l
        exact ⟨_, List.mem_map_of_mem listed, moves.id, lapse_ends due.1 due.2⟩
    · cases shown
  | claim id =>
    unfold TemporarySystem.claim at shown
    dsimp only at shown
    repeat' split at shown
    all_goals cases shown
  | receive now reply =>
    unfold TemporarySystem.receive at shown
    dsimp only at shown
    repeat' split at shown
    all_goals simp at shown
  | poll reply =>
    unfold TemporarySystem.poll at shown
    dsimp only at shown
    repeat' split at shown
    all_goals simp at shown
  | _ =>
    dsimp only at shown
    repeat' split at shown
    all_goals simp at shown

/-- What the worker may turn to over a call with these events and leases. -/
inductive Handed (s : TemporarySystem) (es : List LeaseEvent) (leases : List Lease) :
    LeaseWorker → Prop
  | kept : Handed s es leases s.worker
  | claims {l : Lease} (listed : l ∈ s.leases) (queued : l.status = .queued)
      (claimed : ∃ m ∈ leases, m.id = l.id ∧ m.status = .issuing) :
    Handed s es leases (.issuing l)
  | receipt {l : Lease} {r : LeaseReceipt} {run : Bool}
      (shown : .granted l.id r.expiresAt ∈ es) : Handed s es leases (.granted l r run)
  | other {w : LeaseWorker} (issuing : ∀ l, w ≠ .issuing l)
      (granted : ∀ l r run, w ≠ .granted l r run) : Handed s es leases w

theorem claim_handed (id : Uuid) :
    Handed s (s.claim id).2 (s.claim id).1.leases (s.claim id).1.worker := by
  unfold TemporarySystem.claim
  split
  · exact .kept
  · split
    · exact .kept
    · next l found =>
      have picked := List.find?_some found
      simp only [Bool.and_eq_true, decide_eq_true_eq] at picked
      have listed := List.mem_of_find?_eq_some found
      split
      · next queued =>
        split
        · refine .claims listed queued ⟨{ l with status := .issuing }, ?_, rfl, rfl⟩
          refine List.mem_map.mpr ⟨l, listed, ?_⟩
          rw [if_pos (by simp [picked.1.1, queued])]
        · exact .other (by simp [TemporarySystem.done]) (by simp [TemporarySystem.done])
      · exact .other (by simp) (by simp)

theorem receive_handed (l : Lease) (run : Bool) (now : Time) (reply : Option LeaseReceipt) :
    Handed s (s.receive l run now reply).2 (s.receive l run now reply).1.leases
      (s.receive l run now reply).1.worker := by
  unfold TemporarySystem.receive
  split
  · exact .other (by simp [TemporarySystem.failIssue, TemporarySystem.done])
      (by simp [TemporarySystem.failIssue, TemporarySystem.done])
  · split
    · exact .receipt (List.mem_singleton.mpr rfl)
    · exact .other (by simp [TemporarySystem.failIssue, TemporarySystem.done])
        (by simp [TemporarySystem.failIssue, TemporarySystem.done])

theorem poll_idle (l : Lease) (r : LeaseReceipt) (run : Bool) (reply : Option AgentLease) :
    (s.poll l r run reply).1.worker = .idle := by
  unfold TemporarySystem.poll
  cases reply with
  | none => rfl
  | some state => dsimp only; split <;> rfl

theorem read_handed (es : List LeaseEvent) (leases : List Lease) (l : Lease)
    (reply : Option AgentState) : Handed s es leases (s.read l reply).worker := by
  have idle : Handed s es leases .idle := .other (by simp) (by simp)
  unfold TemporarySystem.read
  dsimp only
  split
  · exact idle
  · exact idle
  · exact idle
  · split
    · exact .other (by simp) (by simp)
    · exact idle

theorem select_handed (es : List LeaseEvent) (leases : List Lease) (id : Uuid)
    (p : LeaseStatus → Bool) {worker : Lease → LeaseWorker}
    (issuing : ∀ l m, worker l ≠ .issuing m)
    (granted : ∀ l m r run, worker l ≠ .granted m r run) :
    Handed s es leases (s.select id p worker).worker := by
  unfold TemporarySystem.select
  split
  · exact .kept
  · next l _ =>
    split
    · exact .other (issuing l) (granted l)
    · exact .kept

theorem exec_handed (s : TemporarySystem) (c : TemporaryCall) :
    Handed s (s.exec c).2 (s.exec c).1.leases (s.exec c).1.worker := by
  unfold TemporarySystem.exec
  cases c with
  | core c =>
    cases c with
    | request r =>
      unfold TemporarySystem.requestStep
      dsimp only
      split <;> exact .kept
    | _ => dsimp only; split <;> exact .kept
  | claim id =>
    dsimp only
    split
    · exact claim_handed id
    · exact .kept
  | receive now reply =>
    dsimp only
    split
    · exact receive_handed _ _ now reply
    · exact .kept
  | poll reply =>
    dsimp only
    split
    · rw [poll_idle]
      exact .other (by simp) (by simp)
    · exact .kept
  | read reply =>
    dsimp only
    split
    · exact read_handed _ _ _ reply
    · exact .kept
  | recheck id =>
    dsimp only
    split
    · exact select_handed _ _ id _ (by simp) (by simp)
    · exact .kept
  | resolve id =>
    dsimp only
    split
    · exact select_handed _ _ id _ (by simp) (by simp)
    · exact .kept
  | sendEnsure =>
    dsimp only
    split
    · exact .other (by simp) (by simp)
    · exact .kept
  | sendRevoke =>
    dsimp only
    split
    · exact .other (by simp) (by simp)
    · exact .kept
  | nextRow =>
    dsimp only
    split
    · exact .other (by simp) (by simp)
    · exact .kept
  | confirmRevoke confirmed =>
    dsimp only
    split
    · exact .other (by simp [TemporarySystem.confirmRevoke, TemporarySystem.done])
        (by simp [TemporarySystem.confirmRevoke, TemporarySystem.done])
    · exact .kept
  | resolved confirmed =>
    dsimp only
    split
    · exact .other (by simp [TemporarySystem.done]) (by simp [TemporarySystem.done])
    · exact .kept
  | crash => exact .other (by simp) (by simp)
  | _ => dsimp only; split <;> exact .kept

/-! The ledger of what was reported, beside the leases. -/

def ensuredId : LeaseEvent → Option Uuid
  | .ensured id => some id
  | _ => none

theorem mem_ensured {past : List LeaseEvent} {id : Uuid} :
    id ∈ past.filterMap ensuredId ↔ .ensured id ∈ past := by
  rw [List.mem_filterMap]
  constructor
  · rintro ⟨e, listed, same⟩
    cases e <;> cases same
    exact listed
  · intro listed
    exact ⟨_, listed, rfl⟩

structure Ledger (past : List LeaseEvent) (s : TemporarySystem) : Prop where
  drawn : Drawn (s.leases.map Lease.id) s.next
  once : (past.filterMap ensuredId).Nodup
  left : ∀ id, .ensured id ∈ past → ∃ l ∈ s.leases, l.id = id ∧ l.status ≠ .queued
  unsent : ∀ l, s.worker = .issuing l → .ensured l.id ∉ past ∧
    ∃ m ∈ s.leases, m.id = l.id ∧ m.status ≠ .queued
  requested : ∀ id, .revocation id ∈ past → ∃ l ∈ s.leases, l.id = id ∧ l.status.ended = true
  granted : ∀ l r run, s.worker = .granted l r run → .granted l.id r.expiresAt ∈ past

variable {past : List LeaseEvent}

theorem Ledger.once_step (ledger : Ledger past s) (c : TemporaryCall) :
    ((past ++ (s.exec c).2).filterMap ensuredId).Nodup := by
  rw [List.filterMap_append]
  by_cases quiet : (s.exec c).2.filterMap ensuredId = []
  · rw [quiet, List.append_nil]
    exact ledger.once
  · obtain ⟨id, sent⟩ := List.exists_mem_of_ne_nil _ quiet
    obtain ⟨l, held, _, rfl⟩ := ensured_from (mem_ensured.mp sent)
    have events : (s.exec .sendEnsure).2 = [.ensured l.id] := by
      simp [TemporarySystem.exec, held]
    rw [events]
    refine List.nodup_append.mpr ⟨ledger.once, List.nodup_singleton _, ?_⟩
    intro a old b only same
    rw [List.mem_singleton.mp only] at same
    exact (ledger.unsent l held).1 (mem_ensured.mp (same ▸ old))

theorem Ledger.step (ledger : Ledger past s) (c : TemporaryCall) :
    Ledger (past ++ (s.exec c).2) (s.exec c).1 := by
  have evolves := exec_evolves ledger.drawn c
  have handed := exec_handed s c
  constructor
  · exact evolves.drawn ledger.drawn
  · exact ledger.once_step c
  · intro id sent
    have there : ∃ l ∈ s.leases, l.id = id ∧ l.status ≠ .queued := by
      rcases List.mem_append.mp sent with old | new
      · exact ledger.left id old
      · obtain ⟨l, held, rfl, _⟩ := ensured_from new
        exact (ledger.unsent l held).2
    obtain ⟨l, listed, same, left⟩ := there
    obtain ⟨m, kept, moves⟩ := evolves.to_ listed
    exact ⟨m, kept, moves.id.trans same, moves.left left⟩
  · intro l held
    generalize worker : (s.exec c).1.worker = w at handed
    rw [worker] at held
    cases handed with
    | kept =>
      obtain ⟨unsent, m, listed, same, left⟩ := ledger.unsent l held
      refine ⟨fun sent => ?_, ?_⟩
      · rcases List.mem_append.mp sent with old | new
        · exact unsent old
        · obtain ⟨k, holds, _, rfl⟩ := ensured_from new
          simp [TemporarySystem.exec, holds] at worker
      · obtain ⟨n, kept, moves⟩ := evolves.to_ listed
        exact ⟨n, kept, moves.id.trans same, moves.left left⟩
    | @claims k listed queued claimed =>
      cases held
      obtain ⟨m, there, same, status⟩ := claimed
      refine ⟨fun sent => ?_, m, there, same, by rw [status]; simp⟩
      rcases List.mem_append.mp sent with old | new
      · obtain ⟨n, known, its, left⟩ := ledger.left l.id old
        rw [ledger.drawn.unique known listed its] at left
        exact left queued
      · obtain ⟨k, holds, _, rfl⟩ := ensured_from new
        simp [TemporarySystem.exec, holds] at worker
    | receipt shown => cases held
    | other issuing granted => exact absurd held (issuing l)
  · intro id asked
    rcases List.mem_append.mp asked with old | new
    · obtain ⟨l, listed, same, ended⟩ := ledger.requested id old
      obtain ⟨m, kept, moves⟩ := evolves.to_ listed
      exact ⟨m, kept, moves.id.trans same, moves.ended ended⟩
    · exact revocation_from new
  · intro l r run held
    generalize worker : (s.exec c).1.worker = w at handed
    rw [worker] at held
    cases handed with
    | kept => exact List.mem_append_left _ (ledger.granted l r run held)
    | claims listed queued claimed => cases held
    | receipt shown =>
      cases held
      exact List.mem_append_right _ shown
    | other issuing granted => exact absurd held (granted l r run)

theorem after_ledger (calls : List TemporaryCall) :
    Ledger (TemporarySystem.history calls) (TemporarySystem.after calls) := by
  refine @run_invariant _ _ _ TemporarySystem.exec Ledger (fun past s c ledger => ledger.step c) []
    TemporarySystem.start ?_ calls
  exact ⟨⟨by simp [TemporarySystem.start], by simp [TemporarySystem.start]⟩, by simp, by simp,
    by simp [TemporarySystem.start], by simp, by simp [TemporarySystem.start]⟩

/-- A lease of a state is, after any further calls, still there and only moved on. -/
theorem later_lease (calls later : List TemporaryCall) {l : Lease}
    (listed : l ∈ (TemporarySystem.after calls).leases) :
    ∃ m ∈ (TemporarySystem.after (calls ++ later)).leases, m.id = l.id ∧
      (l.status.terminal = true → m.status = l.status) ∧
      (l.status.ended = true → m.status.ended = true) := by
  have kept := @run_invariant _ _ _ TemporarySystem.exec (fun _ s =>
    Drawn (s.leases.map Lease.id) s.next ∧ ∃ m ∈ s.leases, m.id = l.id ∧
      (l.status.terminal = true → m.status = l.status) ∧
      (l.status.ended = true → m.status.ended = true)) ?_ []
    (TemporarySystem.after calls) ⟨(after_ledger calls).drawn, l, listed, rfl, fun _ => rfl,
      fun h => h⟩ later
  · unfold TemporarySystem.after
    rw [run_append]
    exact kept.2
  · rintro _ s c ⟨drawn, m, there, same, final, ended⟩
    have evolves := exec_evolves drawn c
    obtain ⟨n, stays, moves⟩ := evolves.to_ there
    exact ⟨evolves.drawn drawn, n, stays, moves.id.trans same,
      fun h => (moves.final (by rw [final h]; exact h)).trans (final h),
      fun h => moves.ended (ended h)⟩

/-- Each lease's ensure goes to the driver at most once; from a request for its end on a
lease is never active; an ended lease stays as it is; and a lease becomes active only in
the poll that reports the granted expiry as enforced. -/
theorem temporary_leases (calls : List TemporaryCall) :
    ((TemporarySystem.history calls).filterMap ensuredId).Nodup ∧
    (∀ id, .revocation id ∈ TemporarySystem.history calls → ∀ later,
      ∀ m ∈ (TemporarySystem.after (calls ++ later)).leases, m.id = id → m.status ≠ .active) ∧
    (∀ l ∈ (TemporarySystem.after calls).leases, l.status.terminal = true → ∀ later,
      ∀ m ∈ (TemporarySystem.after (calls ++ later)).leases, m.id = l.id →
        m.status = l.status) ∧
    ∀ call, ∀ m ∈ ((TemporarySystem.after calls).exec call).1.leases, m.status = .active →
      (∃ l ∈ (TemporarySystem.after calls).leases, l.id = m.id ∧ l.status = .active ∧
        l.expiresAt = m.expiresAt) ∨
      ∃ state, call = .poll (some state) ∧ state.status = .active ∧
        state.enforcementReady = true ∧ m.expiresAt = some state.expiresAt ∧
        .granted m.id state.expiresAt ∈ TemporarySystem.history calls := by
  have ledger := after_ledger calls
  refine ⟨ledger.once, ?_, ?_, ?_⟩
  · intro id asked later m listed same active
    obtain ⟨l, known, its, ended⟩ := ledger.requested id asked
    obtain ⟨n, there, is, _, stays⟩ := later_lease calls later known
    have equal : n = m := (after_ledger (calls ++ later)).drawn.unique there listed
      ((is.trans its).trans same.symm)
    have still := stays ended
    rw [equal, active] at still
    cases still
  · intro l known final later m listed same
    obtain ⟨n, there, is, stays, _⟩ := later_lease calls later known
    have equal : n = m := (after_ledger (calls ++ later)).drawn.unique there listed
      (is.trans same.symm)
    rw [← equal]
    exact stays final
  · intro call m listed active
    rcases (exec_evolves ledger.drawn call).from_ listed with ⟨l, known, moves⟩ | ⟨queued, _⟩
    · rcases moves.active active with ⟨was, same⟩ | allowed
      · exact .inl ⟨l, known, moves.id.symm, was, same.symm⟩
      · obtain ⟨k, r, run, state, held, rfl, its, expiry, enforces⟩ := allowed
        simp only [enforced, Bool.and_eq_true, decide_eq_true_eq] at enforces
        have given := ledger.granted k r run held
        rw [its, ← moves.id] at given
        exact .inr ⟨state, rfl, enforces.1.1, enforces.1.2, by rw [expiry, enforces.2],
          by rw [enforces.2]; exact given⟩
    · rw [queued] at active
      cases active

end TemporaryLeases
end Controller
end NodePlane
