import NodePlane.Controller.Complete
import NodePlane.Controller.Refinement.Calls

/-! Recorded operations are complete: every recording of every run ensures exactly the
entitled targets of its scope, and deletes the other targets that were ever recorded. -/
namespace NodePlane
namespace Controller
namespace Completeness
open Library OperationRepository

/-- What a recording for `profile` owes; `new` are the tasks that it appends. Without
a scope every target counts. -/
structure Complete (db : Db) (now : Time) (profile : Uuid) (scope : Option (List Target))
    (new : List Task) : Prop where
  ensures : ∀ target device,
    (∃ u ∈ new, u.row.For profile target device ∧ u.row.action = .ensure) ↔
      Entitled db now profile target device ∧ scope.all (·.contains target) = true
  deletes : ∀ t ∈ db.outbox.tasks, t.row.profile = profile →
    scope.all (·.contains (t.row.node, t.row.protocol)) = true →
    t.row.node ∉ db.fleet.cleanups → db.fleet.retired t.row.node = false →
    ¬Forgotten db profile t.row.device →
    ¬Entitled db now profile (t.row.node, t.row.protocol) t.row.device →
    ∃ u ∈ new, u.row.For profile (t.row.node, t.row.protocol) t.row.device ∧
      u.row.action = .delete

/-- A database step: a complete recording, or a step that records no operation. -/
inductive Recording (db : Db) : List Event → Db → Prop
  | record (now : Time) (actor profile : Uuid) (previous : List Target)
      (scope : Option (List Target)) (new : List Task)
      (appends : (record db now actor profile previous scope).outbox.tasks =
        db.outbox.tasks ++ new)
      (complete : Complete db now profile scope new) :
    Recording db [] (record db now actor profile previous scope)
  | other {es : List Event} {next : Db}
      (operations : SameOperations db next.outbox.operations)
      (tasks : next.outbox.tasks.map Task.row = db.outbox.tasks.map Task.row) :
    Recording db es next

section Steps
variable {locked : Bool} {allow : Fleet → Job → Prop} {db next : Db} {es : List Event}

/-- Updates of the status keep the rows of all tasks. -/
theorem rows_kept {tasks : List Task} {f : Task → Task}
    (keeps : ∀ t ∈ tasks, (f t).row = t.row) : (tasks.map f).map Task.row = tasks.map Task.row := by
  rw [List.map_map]
  exact List.map_congr_left keeps

theorem record_complete (sound : Sound db) (now : Time) (actor profile : Uuid)
    (previous : List Target) (scope : Option (List Target)) {row : Profile}
    (owned : db.access.profiles.lookup profile = some row)
    (covers : ∀ t ∈ db.outbox.tasks, t.row.profile = profile →
      scope.all (·.contains (t.row.node, t.row.protocol)) = true →
      (t.row.node, t.row.protocol) ∈ previous) :
    Complete db now profile scope (created db now actor profile previous scope) where
  ensures := created_ensures sound.fenced
  deletes := by
    intro t listed owns inside clean live kept refused
    obtain ⟨u, new, its, _, act⟩ := created_deletes now actor sound.owned owned covers listed
      (sound.known t listed) owns inside clean live kept refused
    exact ⟨u, new, its, act⟩

theorem recording_of_change (sound : Sound db) (change : Change locked allow db es next) :
    Recording db es next := by
  cases change with
  | access grows kept => exact .other kept rfl
  | maintain maintenance => exact .other rfl rfl
  | record now actor profile previous scope behind covers =>
    cases owned : db.access.profiles.lookup profile with
    | none =>
      have same : record db now actor profile previous scope = db := by
        unfold record
        rw [owned]
      rw [same]
      exact .other rfl rfl
    | some row =>
      exact .record now actor profile previous scope _
        (record_tasks db now actor profile previous scope)
        (record_complete sound now actor profile previous scope owned covers)
  | tasks f moves kept => exact .other kept (rows_kept fun t listed => (moves t listed).row)
  | claim held row free current kept =>
    refine .other kept (rows_kept fun t _ => ?_)
    split <;> rfl
  | enqueue queued => exact .other rfl rfl
  | fleet change => exact .other rfl rfl

theorem steps_recording (sound : Sound db) (ran : Steps (Change locked allow) db es next) :
    Steps Recording db es next := by
  induction ran with
  | refl db => exact Steps.refl db
  | head step _ ih => exact Steps.head (recording_of_change sound step) (ih (sound.step step))

end Steps

/-- Settings that a node of these protocols stores by default. -/
def stored (protocols : List Protocol) : Settings :=
  Settings.protocolDefaults 0 (Settings.empty.set .publicHost (.text "h")) protocols

/-- A node is created and its settings task `id` is applied. -/
def install (id : Uuid) (node : NodeKey) (protocols : List Protocol)
    (transports : List Transport) : List Call :=
  [.request (.createNode 0 0 node protocols transports (stored protocols) 0 []),
    .request (.installed node),
    .request (.queueSettings 0 0 node 1 0),
    .inspectNode id true,
    .claimSettings true,
    .sendSettings,
    .finishSettings 0 0 (some ⟨node, 1, (protocols, stored protocols), none⟩) []]

/-- A profile with access to two nodes and one device. -/
def granted : List Call :=
  install 0 "a" [.awg] [] ++ install 1 "b" [.awg, .xray] [.tcp] ++
    [.request (.createProfile 0 0 0 none [] [("a", .awg), ("b", .xray)]),
      .request (.device 0 0 2 (.create none 1))]

/-- One node loses a protocol. -/
def narrowed : List Call :=
  granted ++ [.request (.editNode 0 0 "b" 1 ⟨some [.awg], none, none, false⟩ (0, 0) [])]

end Completeness
end Controller
end NodePlane
