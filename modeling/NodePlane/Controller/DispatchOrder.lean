import NodePlane.Controller.Refinement.Calls

/-! Tasks of a profile go to a node in revision order. -/
namespace NodePlane
namespace Controller
namespace DispatchOrder
open Library

/-- Every task of the row's profile and node at a lower revision is finished, except
that the delete of a removed protocol does not wait for queued tasks of another one. -/
def Ordered (db : Db) (row : TaskRow) (removed : Bool) : Prop :=
  ∀ u ∈ db.outbox.tasks, u.row.node = row.node → u.row.profile = row.profile →
    u.row.revision < row.revision → u.status.finished = true ∨
      (removed = true ∧ row.action = .delete ∧ u.row.protocol ≠ row.protocol ∧
        u.status = .awaitingExecutor)

/-- Without the lock lower tasks only finish, and new tasks lie above. -/
theorem Ordered.step {allow : Fleet → Job → Prop} {db next : Db} {es : List Event}
    {row : TaskRow} {removed : Bool} (ordered : Ordered db row removed)
    (numbered : Numbered db) (change : Change false allow db es next)
    {t : Task} (listed : t ∈ db.outbox.tasks) (itself : t.row = row) :
    Ordered next row removed := by
  intro u new node profile lower
  rcases change.task_from numbered new with ⟨v, old, step⟩ | recorded
  · rw [step.row] at node profile lower ⊢
    cases step with
    | moves h =>
      rcases ordered v old node profile lower with done | ⟨gone, delete, other, waits⟩
      · exact .inl (h.status.finished done)
      · rcases h.status with same | ⟨_, superseded⟩ | ⟨bad, _⟩
        · exact .inr ⟨gone, delete, other, same.trans waits⟩
        · exact .inl (by rw [superseded]; rfl)
        · cases bad
    | claimed held => cases held
  · obtain ⟨now, actor, owner, previous, scope, rfl, behind, created⟩ := recorded
    obtain ⟨p, _, _, found, _, _, _, _, owns, revision, _⟩ :=
      OperationRepository.created_task created
    have ahead := behind t listed p (by rw [itself, ← profile, owns]) found
    rw [itself, ← revision] at ahead
    exact absurd lower (Nat.lt_asymm ahead)

theorem Ordered.steps {allow : Fleet → Job → Prop} {db next : Db} {es : List Event}
    {row : TaskRow} {removed : Bool} (ordered : Ordered db row removed) (sound : Sound db)
    (ran : Steps (Change false allow) db es next) {t : Task} (listed : t ∈ db.outbox.tasks)
    (itself : t.row = row) : Ordered next row removed := by
  induction ran generalizing t with
  | refl => exact ordered
  | head step _ ih =>
    obtain ⟨u, kept, moved⟩ := step.task_to sound.numbered listed
    exact ih (ordered.step sound.numbered step listed itself) (sound.step step) kept
      (moved.row.trans itself)

theorem ordered_of_claimable {db : Db} {t : Task}
    (free : IntentExecutor.claimable db t = true) :
    Ordered db t.row (IntentExecutor.unwanted db.fleet t.row) := by
  simp only [IntentExecutor.claimable, Bool.and_eq_true, Bool.not_eq_true'] at free
  intro u listed node profile lower
  have clear := List.any_eq_false.mp free.2 u listed
  by_contra neither
  obtain ⟨unfinished, kept⟩ := not_or.mp neither
  apply clear
  have stays : IntentExecutor.bypassed db.fleet t.row u = false := by
    by_contra bypassed
    simp only [IntentExecutor.bypassed, Bool.not_eq_false, Bool.and_eq_true,
      decide_eq_true_eq] at bypassed
    exact kept ⟨bypassed.2, bypassed.1.1.1, bypassed.1.1.2, bypassed.1.2⟩
  simp [node, profile, lower, stays, unfinished]

/-- The claimed task was seen to be claimed, and its lower tasks are still settled. -/
def Claimed (past : List Event) (db : Db) : Holder → Prop
  | .operation row _ => ∃ removed, .claimed row removed ∈ past ∧ Ordered db row removed
  | _ => True

/-- The claim leaves what lies below the claimed row as it was. -/
theorem claim_keeps {db next : Db} {id : Uuid} {row : TaskRow} {removed : Bool}
    (numbered : Numbered db)
    (claim : IntentExecutor.claim db id = some (next, some row))
    (before : Ordered db row removed) : Ordered next row removed := by
  unfold IntentExecutor.claim at claim
  split at claim
  · cases claim
  · split at claim
    · cases claim
    · next t found =>
      split at claim
      · cases claim
      · cases claim
        have picked := List.find?_some found
        simp only [Bool.and_eq_true, decide_eq_true_eq] at picked
        intro u listed node profile lower
        obtain ⟨v, old, rfl⟩ := List.mem_map.mp listed
        by_cases mine : IntentExecutor.byId id v = true
        · have itself : v = t := numbered.tasks.unique old (List.mem_of_find?_eq_some found) (by
            rw [picked.1.1]
            simpa [IntentExecutor.byId] using mine)
          rw [if_pos mine, itself] at lower
          exact absurd lower (Nat.lt_irrefl _)
        · rw [if_neg mine] at node profile lower ⊢
          exact before v old node profile lower

theorem claim_row {db next : Db} {id : Uuid} {row : TaskRow}
    (claim : IntentExecutor.claim db id = some (next, some row)) :
    ∃ t ∈ db.outbox.tasks, t.row = row ∧ IntentExecutor.claimable db t = true := by
  unfold IntentExecutor.claim at claim
  split at claim
  · cases claim
  · split at claim
    · cases claim
    · next t found =>
      split at claim
      · cases claim
      · cases claim
        have picked := List.find?_some found
        simp only [Bool.and_eq_true, decide_eq_true_eq] at picked
        exact ⟨t, List.mem_of_find?_eq_some found, rfl, picked.1.2⟩

theorem exec_claimed {past : List Event} {s : System} (c : Call) (sound : Sound s.db)
    (holds : s.holder.Holds s.db) (claimed : Claimed past s.db s.holder) :
    Claimed (past ++ (s.exec c).2) (s.exec c).1.db (s.exec c).1.holder := by
  have covers : System.Covers (fun _ _ => True) c.locked s (s.exec c) :=
    System.exec_covers c sound holds fun _ _ => trivial
  have run := covers.run
  generalize out : (s.exec c).1 = next at run
  have moved : Handover s c next := out ▸ exec_handover s c
  cases moved with
  | kept =>
    unfold Claimed at claimed ⊢
    split
    · next row sent held =>
      rw [held] at claimed
      obtain ⟨removed, seen, ordered⟩ := claimed
      exact ⟨removed, List.mem_append_left _ seen, ordered⟩
    · trivial
  | @request r db =>
    dsimp only
    cases held : s.holder with
    | operation row sent =>
      rw [held] at claimed holds
      obtain ⟨removed, seen, ordered⟩ := claimed
      obtain ⟨t, listed, itself, _⟩ := holds
      exact ⟨removed, List.mem_append_left _ seen, ordered.steps sound run listed itself⟩
    | _ => trivial
  | @claimsTask id db row free claim =>
    have events : (s.exec (.claimTask id)).2 =
        [.claimed row (IntentExecutor.unwanted s.db.fleet row)] := by
      unfold System.exec System.claimTask
      dsimp only
      rw [free, claim]
    obtain ⟨t, listed, rfl, ready⟩ := claim_row claim
    refine ⟨IntentExecutor.unwanted s.db.fleet t.row, ?_,
      claim_keeps sound.numbered claim (ordered_of_claimable ready)⟩
    rw [events]
    exact List.mem_append_right _ (List.mem_singleton.mpr rfl)
  | sendsTask held =>
    rw [held] at claimed
    obtain ⟨removed, seen, ordered⟩ := claimed
    exact ⟨removed, List.mem_append_left _ seen, ordered⟩
  | _ => trivial

theorem after_claimed (calls : List Call) :
    Claimed (System.history calls) (System.after calls).db (System.after calls).holder := by
  have both := @run_invariant _ _ _ System.exec
    (fun past s => (Sound s.db ∧ s.holder.Holds s.db) ∧ Claimed past s.db s.holder) ?_ []
    System.start ⟨⟨Sound.empty, trivial⟩, trivial⟩ calls
  · exact both.2
  · rintro past s c ⟨⟨sound, holds⟩, claimed⟩
    have covers : System.Covers (fun _ _ => True) c.locked s (s.exec c) :=
      System.exec_covers c sound holds fun _ _ => trivial
    exact ⟨⟨sound.steps covers.run, covers.holds⟩, exec_claimed c sound holds claimed⟩

theorem finished_stays {locked : Bool} {allow : Fleet → Job → Prop} {db next : Db}
    {es : List Event} {t u : Task} (sound : Sound db)
    (ran : Steps (Change locked allow) db es next) (listed : u ∈ db.outbox.tasks)
    (itself : u.row = t.row) (status : u.status = t.status)
    (done : t.status.finished = true) :
    ∃ v ∈ next.outbox.tasks, v.row = t.row ∧ v.status = t.status := by
  induction ran generalizing u with
  | refl => exact ⟨u, listed, itself, status⟩
  | head step _ ih =>
    obtain ⟨v, kept, moved⟩ := step.task_to sound.numbered listed
    refine ih (sound.step step) kept (moved.row.trans itself) ?_
    cases moved with
    | moves h => exact (h.status.final (status ▸ done)).trans status
    | claimed held free current =>
      simp only [IntentExecutor.claimable, Bool.and_eq_true, decide_eq_true_eq] at free
      rw [← status, free.1.1.1.1.1] at done
      cases done

/-- A finished task is never handed to the driver again. -/
theorem never_executed {s : System} {t : Task} (sound : Sound s.db)
    (holds : s.holder.Holds s.db) (listed : t ∈ s.db.outbox.tasks)
    (done : t.status.finished = true) (later : List Call) (row : TaskRow)
    (same : row.id = t.row.id) : .executed row ∉ (run System.exec s later).2 := by
  have kept := @run_invariant _ _ _ System.exec (fun past s => Sound s.db ∧
    s.holder.Holds s.db ∧ (∃ u ∈ s.db.outbox.tasks, u.row = t.row ∧ u.status = t.status) ∧
    .executed row ∉ past) ?_ [] s ⟨sound, holds, ⟨t, listed, rfl, rfl⟩, by simp⟩ later
  · simpa using kept.2.2.2
  · rintro past s c ⟨sound, holds, ⟨u, member, itself, status⟩, unseen⟩
    have covers : System.Covers (fun _ _ => True) c.locked s (s.exec c) :=
      System.exec_covers c sound holds fun _ _ => trivial
    refine ⟨sound.steps covers.run, covers.holds, ?_, ?_⟩
    · exact finished_stays sound covers.run member itself status done
    · intro seen
      rcases List.mem_append.mp seen with old | new
      · exact unseen old
      · cases System.exec_reports new with
        | executed claimed live =>
          rw [claimed] at holds
          obtain ⟨v, known, is, running⟩ := holds
          have equal : v = u := sound.numbered.tasks.unique known member (by
            rw [is, itself, same])
          rw [equal, status] at running
          rw [running] at done
          cases done
        | confirms shown => cases shown

/-- In every run a task is claimed, and handed to the driver, only when every task of
its profile and node at a lower revision is finished (a delete that removes a protocol
passes queued tasks of the others), and a superseded task never is. -/
theorem dispatch_in_order (calls : List Call) :
    (∀ call row removed, .claimed row removed ∈ ((System.after calls).exec call).2 →
      removed = IntentExecutor.unwanted (System.after calls).db.fleet row ∧
        Ordered (System.after calls).db row removed) ∧
    (∀ call row, .executed row ∈ ((System.after calls).exec call).2 →
      ∃ removed, .claimed row removed ∈ System.history calls ∧
        Ordered (System.after calls).db row removed) ∧
    ∀ t ∈ (System.after calls).db.outbox.tasks, t.status = .superseded →
      ∀ later row, row.id = t.row.id →
        .executed row ∉ (run System.exec (System.after calls) later).2 := by
  obtain ⟨sound, holds⟩ := System.after_sound calls
  have claimed := after_claimed calls
  refine ⟨?_, ?_, ?_⟩
  · intro call row removed seen
    cases System.exec_reports seen with
    | claimed free claim =>
      obtain ⟨t, _, rfl, ready⟩ := claim_row claim
      exact ⟨rfl, ordered_of_claimable ready⟩
    | confirms shown => cases shown
  · intro call row seen
    cases System.exec_reports seen with
    | executed held live =>
      rw [held] at claimed
      exact claimed
    | confirms shown => cases shown
  · intro t listed superseded later row same
    exact never_executed sound holds listed (by rw [superseded]; rfl) later row same

end DispatchOrder
end Controller
end NodePlane
