import NodePlane.Agent.Calls

/-! The removal marker: the state it may be written in, and that nothing of the agent
moves after it. -/
namespace NodePlane
open Library
namespace Removal

/-- What the writer of a marker left: a decommission no running command and only
confirmed deletes, the removal of an unowned agent no profile. -/
def Settled (j : Journal) : Marker → Prop
  | .decommission _ _ => (∀ id, ¬j.Running id) ∧
      ∀ target fence, j.fences.lookup target = some fence → Decommission.deleted j fence = true
  | .removal => ∀ target, j.fences.lookup target = none

/-- A journal without its file holds no rows; a marker stands on a settled journal. -/
structure Kept (n : Node) : Prop where
  absent : n.journal.schema.file = false →
    (∀ id, n.journal.commands.lookup id = none) ∧ ∀ target, n.journal.fences.lookup target = none
  settled : ∀ marker, n.marker = some marker → Settled n.journal marker

private theorem kept_change {n : Node} {journal : Journal} (enabled : n.marker = none)
    (file : journal.schema.file = true) : Kept { n with journal } := by
  refine ⟨fun missing => ?_, fun marker marked => ?_⟩
  · rw [file] at missing
    cases missing
  · rw [enabled] at marked
    cases marked

/-- A marker is written on a settled journal only. -/
theorem markable_settled {n : Node} {marker : Marker} (kept : Kept n)
    (safe : Markable n.journal marker) : Settled n.journal marker := by
  cases file : n.journal.schema.file with
  | true =>
    cases marker with
    | decommission => exact safe file
    | removal => exact safe file
  | false =>
    obtain ⟨commands, fences⟩ := kept.absent file
    cases marker with
    | decommission =>
      refine ⟨fun id ⟨row, found, _⟩ => ?_, fun target fence fenced => ?_⟩
      · rw [commands id] at found
        cases found
      · rw [fences target] at fenced
        cases fenced
    | removal => exact fences

theorem kept_step {p : Platform} {n m : Node} {events : List Event} (kept : Kept n)
    (step : Transition p n events m) : Kept m := by
  cases step with
  | tickets => exact ⟨kept.absent, kept.settled⟩
  | quiet enabled file | start enabled file | invoke enabled file => exact kept_change enabled file
  | script => exact kept
  | mark enabled safe =>
    have settled := markable_settled kept safe
    refine ⟨kept.absent, fun marker marked => ?_⟩
    cases marked
    exact settled

theorem after_kept (p : Platform) (calls : List Call) : Kept (Agent.after p calls) := by
  have start : Kept Node.fresh := ⟨fun _ => ⟨fun _ => rfl, fun _ => rfl⟩, fun _ none => by cases none⟩
  exact Steps.invariant (fun kept step => kept_step kept step) start (Agent.after_steps p calls)

/-- Only the forced recovery files still change once the marker stands. -/
theorem marked_still {p : Platform} {n m : Node} {events : List Event} {marker : Marker}
    (steps : Steps (Transition p) n events m) (marked : n.marker = some marker) :
    m.journal = n.journal ∧ m.marker = some marker ∧ events = [] := by
  induction steps with
  | refl n => exact ⟨rfl, marked, rfl⟩
  | head step _ ih =>
    cases step with
    | tickets => exact ih marked
    | quiet enabled | start enabled | invoke enabled | script enabled | mark enabled =>
      rw [enabled] at marked
      cases marked

/-- A node whose marker stands is settled, and later calls start no runner and leave
its journal as it is. -/
theorem removal_is_final (p : Platform) (before later : List Call) (marker : Marker)
    (marked : (Agent.after p before).marker = some marker) :
    Settled (Agent.after p before).journal marker ∧
      (Agent.after p (before ++ later)).journal = (Agent.after p before).journal ∧
      (Agent.after p (before ++ later)).marker = some marker ∧
      Agent.history p (before ++ later) = Agent.history p before := by
  obtain ⟨events, continued, steps⟩ := Agent.continue_steps p before later
  obtain ⟨journal, still, none⟩ := marked_still steps marked
  refine ⟨(after_kept p before).settled marker marked, journal, still, ?_⟩
  rw [continued, none, List.append_nil]

def sampleCommand : String := "0123abcd-4567-89ab-cdef-0123456789ab"

/-- A profile's ensure, and the decommission that deletes it. -/
def sampleRemoval : List Call :=
  [.applyProfile sampleEnsure "agent-1" ⟨0, 0, 0⟩ fun _ => .done Response.ok,
    .decommission sampleCommand "agent-1" (some fun _ => .done Response.ok) true]

/-- A decommissioned node never runs the ensure again. -/
theorem removal_is_final_sample :
    (Agent.after Platform.sample sampleRemoval).marker = some (.decommission sampleCommand true) ∧
      Agent.history Platform.sample (sampleRemoval ++
        [.applyProfile sampleEnsure "agent-2" ⟨9, 9, 9⟩ fun _ => .done Response.ok]) =
        Agent.history Platform.sample sampleRemoval := by
  have marked : (Agent.after Platform.sample sampleRemoval).marker =
      some (.decommission sampleCommand true) := by decide
  exact ⟨marked, (removal_is_final Platform.sample sampleRemoval _ _ marked).2.2.2⟩

/-- A cleanup the process does not survive, a refused ensure, which creates the
fences' table, and the removal of an agent without fences. -/
def sampleUninstall : List Call :=
  [.operation (.ok "node-1") "agent-1" "cleanup_runtime" "cleanup-1" sampleCleanup false .stopped
      false,
    .applyProfile sampleEnsure "agent-2" ⟨0, 0, 0⟩ fun _ => .done Response.ok, .uninstall]

/-- The marker of a plain removal does not wait for a running command. -/
theorem uninstall_beside_running : ¬∀ (p : Platform) (calls : List Call),
    (Agent.after p calls).disabled = true →
      (∀ target fence, (Agent.after p calls).journal.fences.lookup target = some fence →
        Decommission.deleted (Agent.after p calls).journal fence = true) ∧
      ∀ id, ¬(Agent.after p calls).journal.Running id := by
  intro final
  have running : ((Agent.after Platform.sample sampleUninstall).journal.commands.lookup
      "cleanup-1").map Command.status = some .running := by decide
  obtain ⟨row, found, status⟩ := Option.map_eq_some_iff.mp running
  exact (final Platform.sample sampleUninstall (by decide)).2 "cleanup-1" ⟨row, found, status⟩

end Removal
end NodePlane
