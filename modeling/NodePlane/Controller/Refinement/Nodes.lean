import NodePlane.Controller.Refinement.Profiles

/-! Requests of the API over nodes are runs of changes that take no lock. -/
namespace NodePlane
namespace Controller
open Library

/-! Revocations leave the fleet alone. -/

theorem foldl_fleet {α : Type} {f : Db → α → Db} (each : ∀ db x, (f db x).fleet = db.fleet)
    (items : List α) (db : Db) : (items.foldl f db).fleet = db.fleet := by
  induction items generalizing db with
  | nil => rfl
  | cons x rest ih => rw [List.foldl_cons, ih, each]

theorem record_fleet (db : Db) (now : Time) (actor profile : Uuid) (previous : List Target)
    (scope : Option (List Target)) :
    (OperationRepository.record db now actor profile previous scope).fleet = db.fleet :=
  (OperationRepository.record_frame db now actor profile previous scope).1

theorem summarize_fleet (db : Db) (operation : Uuid) :
    (OperationRepository.summarize db operation).fleet = db.fleet := rfl

theorem retireQueued_fleet (db : Db) (node : NodeKey) (removed : List Protocol) (profile : Uuid) :
    (ProtocolRemoval.retireQueued db node removed profile).fleet = db.fleet :=
  (foldl_fleet (fun db operation => summarize_fleet db operation) _ _).trans rfl

theorem revokeRemovedProtocols_fleet (db : Db) (now : Time) (actor : Uuid) (node : NodeKey)
    (removed : List Protocol) :
    (ProtocolRemoval.revokeRemovedProtocols db now actor node removed).fleet = db.fleet := by
  unfold ProtocolRemoval.revokeRemovedProtocols
  split
  · rfl
  · refine (foldl_fleet (fun db profile => ?_) _ _).trans rfl
    exact (record_fleet _ now actor profile _ _).trans (retireQueued_fleet db node removed profile)

section Runs
variable {locked : Bool} {allow : Fleet → Job → Prop} {db : Db}

namespace Reaches

theorem notes (installations : List NodeKey) (bootstraps : List Bootstrap) :
    Reaches locked allow db [] { db with
      fleet := { db.fleet with installations := installations, bootstraps := bootstraps } } :=
  fleet fun _ => .notes installations bootstraps

theorem supersedeSettings {p : SettingsTask → Bool}
    (settles : ∀ s ∈ db.fleet.settingsTasks, p s = true → s.status.Settles locked .superseded) :
    Reaches locked allow db [] { db with fleet := NodeService.supersedeSettings db.fleet p } := by
  refine fleet fun _ => .settings (fun s => if p s then { s with status := .superseded } else s) ?_
  intro s listed
  split
  · next chosen => exact ⟨rfl, settles s listed chosen⟩
  · exact SettingsTask.Moves.refl _ s

theorem supersedeQueued (key : NodeKey) :
    Reaches locked allow db [] { db with
      fleet := NodeService.supersedeSettings db.fleet fun s =>
        s.node = key && s.status = .awaitingExecutor } := by
  refine supersedeSettings fun s _ chosen => ?_
  simp only [Bool.and_eq_true, decide_eq_true_eq] at chosen
  exact .inr (.inl ⟨chosen.2, rfl⟩)

theorem setJobs {p : Job → Bool} {status : Status}
    (settles : ∀ j ∈ db.fleet.jobs, p j = true → j.status.Settles locked status) :
    Reaches locked allow db [] { db with fleet := NodeOperations.setStatus db.fleet p status } := by
  refine fleet fun _ => .jobs (fun j => if p j then { j with status := status } else j) ?_
  intro j listed
  split
  · next chosen => exact ⟨rfl, settles j listed chosen⟩
  · exact Job.Moves.refl _ j

theorem createNode {now : Time} {actor : Uuid} {key : NodeKey} {protocols : List Protocol}
    {transports : List Transport} {settings : Settings} {draw : ℕ}
    {changes : List (Uuid × List Target)} {next : Db}
    (done : NodeService.create db now actor key protocols transports settings draw changes =
      .ok next) : Reaches locked allow db [] next := by
  simp only [NodeService.create, admitted_ok, deny_ok] at done
  obtain ⟨_, _, unfenced, unused, _, _, ended⟩ := done
  cases ended
  refine after (fleet fun _ => .create transports settings draw ?_ unfenced)
    (reconcile now actor changes)
  simpa using unused

theorem editNode {now : Time} {actor : Uuid} {key : NodeKey} {revision : ℕ}
    {e : NodeService.Edit} {draws : ℕ × ℕ} {changes : List (Uuid × List Target)} {next : Db}
    (done : NodeService.edit db now actor key revision e draws changes = .ok next) :
    Reaches locked allow db [] next := by
  simp only [NodeService.edit, admitted_ok, need_ok, deny_ok] at done
  obtain ⟨_, _, node, row, _, _, _, jobs, valid, _, ended⟩ := done
  have edited : Reaches locked allow db [] _ := fleet fun _ =>
    .edit (e.protocols.getD node.protocols)
      (e.nextTransports node (e.protocols.getD node.protocols)) _ draws row jobs valid
  have revoked := edited.after (revokeRemovedProtocols now actor key
    (node.protocols.filter fun p => !(e.protocols.getD node.protocols).contains p))
  have retired := revoked.after (supersedeQueued key)
  split at ended
  · cases ended
    exact retired.after (reconcile now actor changes)
  · cases ended
    exact retired

theorem changePolicies (changes : List (Option NodeKey × Option Bittorrent)) (f : Fleet) :
    Reaches locked allow { db with fleet := f } []
      { db with fleet := changes.foldl (fun f c => VpnPolicies.change f c.1 c.2) f } := by
  induction changes generalizing f with
  | nil => exact refl _
  | cons c rest ih =>
    refine after ?_ (ih (VpnPolicies.change f c.1 c.2))
    exact fleet fun _ => .policies c.1 c.2

theorem setPolicies {changes : List (Option NodeKey × Option Bittorrent)} {next : Db}
    (done : VpnPolicies.set db changes = .ok next) : Reaches locked allow db [] next := by
  simp only [VpnPolicies.set, admitted_ok, deny_ok] at done
  obtain ⟨_, _, _, ended⟩ := done
  cases ended
  exact changePolicies changes db.fleet

theorem enqueue {f : Fleet} (queued : Enqueue locked db f) :
    Reaches locked allow db [] { db with fleet := f, fresh := db.fresh + 1 } :=
  change fun _ => .enqueue queued

/-- The new row of a settings queue, after the revocations it resumes. -/
theorem queueSettings {now : Time} {actor : Uuid} {key : NodeKey} {revision draw : ℕ} {next : Db}
    (done : NodeSettingsService.queue db now actor key revision draw = .ok next) :
    Reaches locked allow db [] next := by
  simp only [NodeSettingsService.queue, admitted_ok, need_ok, deny_ok] at done
  obtain ⟨_, _, node, row, open_, _, current, jobs, _, _, _, rest⟩ := done
  cases taken : NodeSettings.snapshot draw db.fleet key node with
  | error code =>
    rw [taken] at rest
    cases rest
  | ok intent =>
    rw [taken] at rest
    simp only [Except.bind, deny_ok] at rest
    obtain ⟨settings, ended⟩ := rest
    have same : node.desiredRevision = revision := by simpa using current
    cases ended
    rw [← same]
    split at settings
    · next resumed =>
      rw [if_pos resumed]
      refine after (revokeRemovedProtocols now actor key _) (enqueue ?_)
      have kept := revokeRemovedProtocols_fleet db now actor key
        (((NodeService.appliedProtocols db.fleet key node).getD []).filter
          fun p => !intent.protocols.contains p)
      exact .queueSettings _ (by rw [kept]; exact row) (by rw [kept]; exact open_)
        (by rw [kept]; exact jobs) settings (by rw [kept]; exact taken)
    · next plain =>
      rw [if_neg plain]
      exact enqueue (.queueSettings _ row open_ jobs settings taken)

theorem queueJob {key : NodeKey} {action : JobAction} {revision : ℕ} {coordinator : Option Uuid}
    {draw : ℕ} {next : Db}
    (done : NodeOperations.queue db key action revision coordinator draw = .ok next) :
    Reaches locked allow db [] next := by
  simp only [NodeOperations.queue, admitted_ok, need_ok, deny_ok] at done
  obtain ⟨_, _, node, row, _, current, _, _, clean, open_, idle, _, _, _, rest⟩ := done
  simp only [Bool.or_eq_false_iff] at idle
  cases taken : NodeOperations.snapshot db.fleet key node action draw with
  | error code =>
    rw [taken] at rest
    cases rest
  | ok intent =>
    rw [taken] at rest
    cases rest
    have same : node.desiredRevision = revision := by simpa using current
    rw [← same]
    refine enqueue (.queueJob row open_ idle.1.1 idle.1.2 idle.2 ?_ taken)
    rintro rfl
    simpa [NodeOperations.installs] using clean

theorem queueBootstrap {key : NodeKey} {revision pick : ℕ} {next : Db}
    (done : NodeBootstrapService.queue db key revision pick = .ok next) :
    Reaches locked allow db [] next := by
  simp only [NodeBootstrapService.queue, admitted_ok, need_ok, deny_ok] at done
  obtain ⟨_, _, node, _, _, _, rest⟩ := done
  cases taken : NodeSettings.snapshot pick db.fleet key node with
  | error code =>
    rw [taken] at rest
    cases rest
  | ok intent =>
    rw [taken] at rest
    simp only [Except.bind, deny_ok] at rest
    obtain ⟨_, _, _, ended⟩ := rest
    cases ended
    have drawn : Reaches locked allow db [] { db with fresh := db.fresh + 1 } :=
      draw fun _ => .of_same (Nat.le_succ _) rfl rfl rfl rfl
    exact drawn.after (notes _ _)

theorem maintain (maintenance : Maintenance) :
    Reaches locked allow db [] { db with maintenance := maintenance } :=
  change fun _ => .maintain maintenance

theorem request {r : Request} {next : Db} (done : r.exec db = .ok next) :
    Reaches locked allow db [] next := by
  cases r with
  | createProfile now actor owner expiresAt explicit rows => exact createProfile done
  | editProfile now actor profile revision edit => exact editProfile done
  | deleteProfile now actor profile revision => exact deleteProfile done
  | device now actor profile change => exact device done
  | setRole now actor account admin changes => exact changeRole done
  | suspend now profile blocked =>
    cases done
    exact suspend now profile blocked
  | setPolicies changes => exact setPolicies done
  | createNode now actor key protocols transports settings draw changes => exact createNode done
  | editNode now actor key revision edit draws changes => exact editNode done
  | installed key =>
    cases done
    exact notes _ _
  | queueSettings now actor key revision draw => exact queueSettings done
  | queueJob key action revision coordinator draw => exact queueJob done
  | queueBootstrap key revision draw => exact queueBootstrap done
  | maintain maintenance =>
    cases done
    exact maintain maintenance

end Reaches
end Runs
end Controller
end NodePlane
