import NodePlane.Agent.Force
import NodePlane.Agent.Refinement.Covers

/-! Expiry, decommission, force and the legacy paths are runs of the agent's
transitions. -/
namespace NodePlane
open Library

variable {p : Platform} {n : Node}

namespace Expiry

private theorem close_quiet (instanceId : String) (lease : Lease) (fence : Fence)
    (response : Response) {j : Journal} {target : String × String} {id : String}
    (fenced : j.fences.lookup target = some fence)
    (valid : (deleteIntent id target fence.revision).validate = .ok ()) :
    j.Quiet (close p instanceId (deleteIntent id target fence.revision) lease fence response j) := by
  have next := nextRevision_pos (Intent.validate_target valid).1
  have raises (k : Journal) (same : k.fences = j.fences) :
      k.Quiet (k.setFence target ⟨nextRevision fence.revision, id, some "delete"⟩) := by
    refine Journal.Quiet.setFence fun old found => ?_
    rw [same, fenced] at found
    cases found
    refine .inl ?_
    show fence.revision < nextRevision fence.revision
    omega
  have superseded (k : Journal) : k.Quiet (if fence.action = some "delete" then
      (k.supersede lease.commandId).supersede fence.commandId
      else k.supersede lease.commandId) := by
    split_ifs
    · exact (Journal.Quiet.supersede k _).trans (Journal.Quiet.supersede _ _)
    · exact Journal.Quiet.supersede k _
  unfold close
  cases found : j.commands.lookup (deleteIntent id target fence.revision).commandId with
  | some row =>
    exact ((raises j rfl).trans (superseded _)).trans (Journal.Quiet.markLease _ target .expired)
  | none =>
    have inserted : j.Quiet (j.insertCommand (deleteIntent id target fence.revision).commandId
        ⟨(deleteIntent id target fence.revision).fingerprint p, .succeeded, some response.toJson,
          instanceId⟩) := Journal.Quiet.insertCommand found (by simp)
    exact (inserted.trans ((raises (j.insertCommand _ _) rfl).trans (superseded _))).trans
      (Journal.Quiet.markLease _ target .expired)

/-- What a revocation leaves alone. -/
structure Frame (target : String × String) (n m : Node) : Prop where
  marker : m.marker = n.marker
  schema : m.journal.schema = n.journal.schema
  leases : ∀ other, other ≠ target →
    m.journal.leases.lookup other = n.journal.leases.lookup other

private theorem close_frame (instanceId : String) (intent : Intent) (lease : Lease) (fence : Fence)
    (response : Response) (j : Journal) (n : Node) :
    Frame intent.target { n with journal := j }
      { n with journal := close p instanceId intent lease fence response j } := by
  unfold close
  refine ⟨rfl, ?_, fun other differs => ?_⟩
  · cases j.commands.lookup intent.commandId <;> dsimp only <;> split_ifs <;> rfl
  · cases j.commands.lookup intent.commandId <;> dsimp only <;> split_ifs <;>
      exact Table.lookup_alter_ne _ differs

theorem expireLease_frame (instanceId : String) (runner : Intent → Outcome Response)
    (target : String × String) (lease : Lease) (n : Node) :
    Frame target n (expireLease p instanceId runner target lease n).node := by
  have marked : Frame target n { n with journal := n.journal.markLease target .revoking } :=
    ⟨rfl, rfl, fun other differs => Table.lookup_alter_ne _ differs⟩
  unfold expireLease
  dsimp only
  cases fenced : (n.journal.markLease target .revoking).fences.lookup target with
  | none => exact marked
  | some fence =>
    dsimp only
    cases (deleteIntent (expiryId p lease) target fence.revision).validate with
    | error err => exact marked
    | ok =>
      dsimp only
      obtain ⟨node, _⟩ | ⟨node, _⟩ | ⟨response, journal, a, closed, node, _⟩ := attempt_cases
        { n with journal := n.journal.markLease target .revoking }
        (.profile .expiry (deleteIntent (expiryId p lease) target fence.revision))
        (runner (deleteIntent (expiryId p lease) target fence.revision)) (fun _ => ())
        fun response => .ok (close p instanceId
          (deleteIntent (expiryId p lease) target fence.revision) lease fence response
          (n.journal.markLease target .revoking), ())
      · rw [node]
        exact marked
      · rw [node]
        exact marked
      · cases closed
        have closing := close_frame (p := p) instanceId
          (deleteIntent (expiryId p lease) target fence.revision) lease fence response
          (n.journal.markLease target .revoking) n
        rw [node]
        exact ⟨rfl, closing.schema, fun other differs =>
          (closing.leases other differs).trans (marked.leases other differs)⟩

theorem expireLease_covers (instanceId : String) (runner : Intent → Outcome Response)
    (target : String × String) (lease : Lease) (n : Node) (enabled : n.marker = none)
    (file : n.journal.schema.file = true) (held : n.journal.leases.lookup target = some lease) :
    (expireLease p instanceId runner target lease n).Covers p n := by
  have marked : Steps (Transition p) n [] { n with journal := n.journal.markLease target .revoking } :=
    Steps.single (.quiet enabled file (Journal.Quiet.markLease _ target .revoking))
  unfold expireLease
  dsimp only
  cases fenced : (n.journal.markLease target .revoking).fences.lookup target with
  | none => exact marked
  | some fence =>
    dsimp only
    cases valid : (deleteIntent (expiryId p lease) target fence.revision).validate with
    | error err => exact marked
    | ok =>
      have leased : (n.journal.markLease target .revoking).leases.lookup target =
          some { lease with status := .revoking } := by
        rw [Journal.markLease, Table.lookup_alter, if_pos rfl, held]
        rfl
      have begun : Begin p (n.journal.markLease target .revoking)
          (.profile .expiry (deleteIntent (expiryId p lease) target fence.revision))
          (n.journal.markLease target .revoking) :=
        @Begin.expiry p _ target { lease with status := .revoking } fence leased rfl fenced valid
      refine marked.trans (covers_attempt (n := { n with journal := _ }) enabled file begun ?_)
      intro response journal answer closed
      cases closed
      exact ⟨close_quiet instanceId lease fence response fenced valid, by
        rw [(close_frame instanceId _ lease fence response _ n).schema]; exact file⟩

theorem scan_covers (instanceId : String) (now : Int) (runner : Intent → Outcome Response)
    (rows : List Row) (found : Scan) (n : Node) (enabled : n.marker = none)
    (file : n.journal.schema.file = true) (distinct : (rows.map Prod.fst).Nodup)
    (held : ∀ row ∈ rows, n.journal.leases.lookup row.1 = some row.2) :
    (scan p instanceId now runner rows found n).Covers p n := by
  induction rows generalizing found n with
  | nil => exact covers_reply _
  | cons row rest ih =>
    obtain ⟨target, lease⟩ := row
    rw [List.map_cons, List.nodup_cons] at distinct
    have later : ∀ row ∈ rest, n.journal.leases.lookup row.1 = some row.2 :=
      fun row member => held row (List.mem_cons_of_mem _ member)
    unfold scan
    split
    · exact ih found n enabled file distinct.2 later
    · have one := expireLease_covers (p := p) instanceId runner target lease n enabled file
        (held _ (List.mem_cons_self ..))
      have frame := expireLease_frame (p := p) instanceId runner target lease n
      dsimp only
      split
      · exact one
      · exact one
      · refine Steps.trans one (ih _ _ (frame.marker.trans enabled) (frame.schema ▸ file)
          distinct.2 fun row member => ?_)
        rw [frame.leases row.1 fun same => distinct.1 (List.mem_map.mpr ⟨row, member, same⟩)]
        exact later row member

theorem openLeases_distinct (j : Journal) : ((openLeases j).map Prod.fst).Nodup := by
  have sorted : (openLeases j).Perm (j.leases.rows.filter fun row => open_ row.2) :=
    List.perm_insertionSort _ _
  rw [(sorted.map Prod.fst).nodup_iff]
  exact j.leases.rows_keys_nodup.sublist (List.filter_sublist.map _)

theorem mem_openLeases {j : Journal} {row : Row} (member : row ∈ openLeases j) :
    j.leases.lookup row.1 = some row.2 := by
  rw [openLeases, List.mem_insertionSort] at member
  exact Table.mem_rows_iff.mp (List.mem_of_mem_filter member)

theorem expire_covers (instanceId : String) (now : Int) (runner : Intent → Outcome Response)
    (n : Node) : (expire p instanceId now runner n).Covers p n := by
  unfold expire
  split
  · exact covers_reply _
  · next present =>
    simp only [Bool.or_eq_true, Bool.not_eq_true', not_or, Bool.not_eq_false] at present
    exact scan_covers instanceId now runner _ _ n (enabled_of present.1.2) present.1.1
      (openLeases_distinct _) fun row member => mem_openLeases member

end Expiry

namespace Supervisor

theorem pruneLocked_covers (protocol : String) (now : Int) (n : Node) :
    (pruneLocked protocol now n).Covers p n := by
  unfold pruneLocked
  split
  · exact covers_refuse _
  split
  · exact covers_reply _
  · next disabled present =>
    simp only [Bool.or_eq_true, Bool.not_eq_true', not_or, Bool.not_eq_false] at present
    refine covers_quiet (enabled_of disabled) ?_ (Journal.Quiet.mapLeases _ ?_) _
    · exact present.1
    · intro target lease
      unfold pruned
      split <;> rfl

theorem supervise_covers (protocol : String) (now : Int) (stopped : Bool) (n : Node) :
    (supervise protocol now stopped n).Covers p n := by
  unfold supervise
  split
  · exact covers_refuse _
  split
  · exact pruneLocked_covers protocol now n
  · exact covers_reply _

end Supervisor

namespace Decommission

/-- A delete the journal owes: its profile's last command is confirmed. -/
def Owed (j : Journal) (intent : Intent) : Prop :=
  intent.validate = .ok () ∧ ∃ id target fence, intent = deleteIntent id target fence.revision ∧
    j.fences.lookup target = some fence ∧ succeeded j fence.commandId = true

theorem plan_owed {j : Journal} {command : String} {rows : List Row} {intents : List Intent}
    (held : ∀ row ∈ rows, j.fences.lookup row.1 = some row.2)
    (planned : plan j command rows = .ok intents) :
    (∀ intent ∈ intents, Owed j intent) ∧
      (intents.map Intent.target).Sublist (rows.map Prod.fst) := by
  induction rows generalizing intents with
  | nil =>
    cases planned
    simp
  | cons row rest ih =>
    obtain ⟨target, fence⟩ := row
    have later := fun row member => held row (List.mem_cons_of_mem _ member)
    unfold plan at planned
    dsimp only at planned
    split at planned
    · obtain ⟨owed, sub⟩ := ih later planned
      exact ⟨owed, sub.cons _⟩
    split at planned
    · cases planned
    · next confirmed =>
      split at planned
      · cases planned
      · next valid =>
        cases tail : plan j command rest with
        | error err => simp [tail, Except.map] at planned
        | ok intents' =>
          obtain ⟨owed, sub⟩ := ih later tail
          simp only [tail, Except.map, Except.ok.injEq] at planned
          subst planned
          refine ⟨fun intent member => ?_, sub.cons_cons _⟩
          rcases List.mem_cons.mp member with rfl | member
          · exact ⟨valid, _, target, fence, rfl, held _ (List.mem_cons_self ..), by simpa using confirmed⟩
          · exact owed intent member

theorem revokeOne_covers (instanceId : String) (runner : Intent → Outcome Response)
    (intent : Intent) (n : Node) (enabled : n.marker = none) (file : n.journal.schema.file = true)
    (idle : ∀ id, ¬n.journal.Running id) (owed : Owed n.journal intent) :
    (revokeOne p instanceId runner intent n).Covers p n := by
  unfold revokeOne
  split
  · exact covers_refuse _
  · next new =>
    obtain ⟨valid, id, target, fence, rfl, fenced, confirmed⟩ := owed
    have absent : n.journal.commands.lookup id = none := by
      simpa [deleteIntent] using new
    have begun := @Begin.decommission p n.journal id target fence instanceId absent idle fenced
      confirmed valid
    refine covers_attempt enabled file begun fun response journal answer closed => ?_
    cases closed
    exact ⟨Journal.Quiet.closeCommand (begun.runs rfl (by simp)), file⟩

/-- A confirmed delete leaves the journal idle and the other deletes owed. -/
theorem revokeOne_ok {instanceId : String} {runner : Intent → Outcome Response} {intent : Intent}
    {n : Node} (idle : ∀ id, ¬n.journal.Running id)
    (answered : (revokeOne p instanceId runner intent n).answer = some (.ok ())) :
    (∀ id, ¬(revokeOne p instanceId runner intent n).node.journal.Running id) ∧
      ∀ other, other.target ≠ intent.target → Owed n.journal other →
        Owed (revokeOne p instanceId runner intent n).node.journal other := by
  unfold revokeOne at answered ⊢
  split at answered
  · cases answered
  · next new =>
    rw [if_neg new]
    obtain ⟨response, journal, closed, node⟩ := attempt_ok answered
    cases closed
    dsimp only
    rw [node]
    have absent : n.journal.commands.lookup intent.commandId = none := by simpa using new
    have closedRow (id : String) (row : Command) (found :
        ((start p instanceId intent n.journal).closeCommand intent.commandId .succeeded
          response.toJson).commands.lookup id = some row) :
        row.status = .succeeded ∨ n.journal.commands.lookup id = some row := by
      rw [Journal.closeCommand, Table.lookup_alter] at found
      split_ifs at found with same
      · obtain ⟨old, _, rfl⟩ := Option.map_eq_some_iff.mp found
        exact .inl rfl
      · exact .inr (by rwa [← Table.lookup_put_ne _ same])
    refine ⟨?_, ?_⟩
    · rintro id ⟨row, found, running⟩
      rcases closedRow id row found with done | kept
      · rw [done] at running
        cases running
      · exact idle id ⟨row, kept, running⟩
    · rintro other differs ⟨valid, id, target, fence, rfl, fenced, confirmed⟩
      refine ⟨valid, id, target, fence, rfl, ?_, ?_⟩
      · exact (Table.lookup_put_ne _ differs).trans fenced
      · have present : fence.commandId ≠ intent.commandId := by
          intro same
          rw [succeeded, same, absent] at confirmed
          cases confirmed
        unfold succeeded at confirmed ⊢
        rw [Journal.closeCommand, Table.lookup_alter_ne _ present]
        show (((n.journal.commands.put _ _).lookup _).any _) = true
        rwa [Table.lookup_put_ne _ present]

theorem revokeOne_marker (instanceId : String) (runner : Intent → Outcome Response)
    (intent : Intent) (n : Node) : (revokeOne p instanceId runner intent n).node.marker = n.marker ∧
      (revokeOne p instanceId runner intent n).node.journal.schema = n.journal.schema := by
  unfold revokeOne
  split
  · exact ⟨rfl, rfl⟩
  · obtain ⟨node, _⟩ | ⟨node, _⟩ | ⟨response, journal, a, closed, node, _⟩ := attempt_cases
      { n with journal := start p instanceId intent n.journal } (.profile .decommission intent)
      (runner intent) id fun response => .ok ((start p instanceId intent n.journal).closeCommand
        intent.commandId .succeeded response.toJson, ())
    · rw [node]
      exact ⟨rfl, rfl⟩
    · rw [node]
      exact ⟨rfl, rfl⟩
    · cases closed
      rw [node]
      exact ⟨rfl, rfl⟩

theorem revokeAll_covers (instanceId : String) (runner : Intent → Outcome Response)
    (intents : List Intent) (n : Node) (enabled : n.marker = none)
    (file : n.journal.schema.file = true) (idle : ∀ id, ¬n.journal.Running id)
    (distinct : (intents.map Intent.target).Nodup)
    (owed : ∀ intent ∈ intents, Owed n.journal intent) :
    (revokeAll p instanceId runner intents n).Covers p n ∧
      (revokeAll p instanceId runner intents n).node.marker = none := by
  induction intents generalizing n with
  | nil => exact ⟨covers_reply _, enabled⟩
  | cons intent rest ih =>
    rw [List.map_cons, List.nodup_cons] at distinct
    have one := revokeOne_covers (p := p) instanceId runner intent n enabled file idle
      (owed _ (List.mem_cons_self ..))
    obtain ⟨marker, schema⟩ := revokeOne_marker (p := p) instanceId runner intent n
    unfold revokeAll
    dsimp only
    split
    · next answered =>
      obtain ⟨idle', owed'⟩ := revokeOne_ok idle answered
      obtain ⟨later, none⟩ := ih _ (marker.trans enabled) (schema ▸ file) idle' distinct.2
        fun other member => owed' other
          (fun same => distinct.1 (List.mem_map.mpr ⟨other, member, same⟩))
          (owed other (List.mem_cons_of_mem _ member))
      exact ⟨Steps.trans one later, none⟩
    · exact ⟨one, marker.trans enabled⟩

theorem revokeProfiles_covers (command instanceId : String) (runner : Intent → Outcome Response)
    (n : Node) (enabled : n.marker = none) (file : n.journal.schema.file = true) :
    (revokeProfiles p command instanceId runner n).Covers p n ∧
      (revokeProfiles p command instanceId runner n).node.marker = none := by
  unfold revokeProfiles
  dsimp only
  split
  · exact ⟨covers_refuse _, enabled⟩
  split
  · exact ⟨covers_refuse _, enabled⟩
  split
  · exact ⟨covers_reply _, enabled⟩
  · next _ unfinished _ =>
    have idle := Journal.unfinished_false.mp (Bool.eq_false_iff.mpr unfinished)
    have sorted : (fenced n.journal).Perm n.journal.fences.rows := List.perm_insertionSort _ _
    cases planned : plan n.journal command (fenced n.journal) with
    | error err => exact ⟨covers_refuse _, enabled⟩
    | ok intents =>
      obtain ⟨owed, sub⟩ := plan_owed
        (fun row member => Table.mem_rows_iff.mp (sorted.mem_iff.mp member)) planned
      refine revokeAll_covers instanceId runner intents n enabled file ?_ ?_ owed
      · exact fun id run => by simpa using idle id run
      · exact ((sorted.map Prod.fst).nodup_iff.mpr n.journal.fences.rows_keys_nodup).sublist sub

theorem confirmed_markable {j : Journal} {command : String} {persisted : Bool}
    (ok : confirmed j = .ok ()) : Markable j (.decommission command persisted) := by
  intro file
  unfold confirmed at ok
  simp only [file, Bool.not_true, Bool.false_eq_true, if_false] at ok
  split_ifs at ok with commands unfinished managed
  refine ⟨fun id run => ?_, fun target fence fenced => ?_⟩
  · have idle := Journal.unfinished_false.mp (Bool.eq_false_iff.mpr unfinished)
    simpa using idle id run
  · have confirmed := Table.has_false_iff.mp (Bool.eq_false_iff.mpr managed) target fence fenced
    simpa using confirmed

theorem prepare_covers (command instanceId : String)
    (runner : Option (Intent → Outcome Response)) (persisted : Bool) (n : Node) :
    (prepare p command instanceId runner persisted n).Covers p n := by
  unfold prepare
  split
  · exact covers_refuse _
  split
  · exact covers_reply _
  · next disabled =>
    have enabled := enabled_of disabled
    extract_lets revoked marked
    have revokes : revoked.Covers p n ∧ revoked.node.marker = none := by
      cases runner with
      | none => exact ⟨covers_reply _, enabled⟩
      | some runner =>
        show (if n.journal.schema.file = true then revokeProfiles p command instanceId runner n
          else .reply n (.ok ())).Covers p n ∧ _
        by_cases file : n.journal.schema.file = true
        · simpa [revoked, file] using
            revokeProfiles_covers (p := p) command instanceId runner n enabled file
        · simpa [revoked, file] using And.intro (covers_reply (p := p) (.ok ())) enabled
    clear_value revoked
    obtain ⟨covers, unmarked⟩ := revokes
    split
    · exact covers
    · exact covers
    · split
      · exact covers
      · next checked =>
        have fenced : Steps (Transition p) revoked.node []
            { revoked.node with marker := some (.decommission command persisted) } :=
          Steps.single (.mark unmarked (confirmed_markable checked))
        have whole := Steps.trans covers fenced
        rw [List.append_nil] at whole
        show Steps (Transition p) n revoked.events (mark command persisted revoked.node).node
        unfold mark
        split
        · exact whole
        · exact whole

end Decommission

namespace Legacy

theorem guard_ok {target : Target} (ok : guard n target = .ok ()) :
    n.marker = none ∧ (target = .node → Markable n.journal .removal) := by
  unfold guard at ok
  extract_lets j owned at ok
  split_ifs at ok with disabled file
  · refine ⟨enabled_of disabled, fun _ present => ?_⟩
    exact absurd present (by simpa using file)
  · refine ⟨enabled_of disabled, fun node _ other => ?_⟩
    subst node
    cases fences : n.journal.schema.fences with
    | false => simp [owned, j, fences] at ok
    | true =>
      simp only [owned, j, fences, Bool.not_true, Bool.false_eq_true, if_false] at ok
      cases held : n.journal.fences.lookup other with
      | none => rfl
      | some fence =>
        have some : n.journal.fences.has (fun _ _ => true) = true :=
          Table.has_iff.mpr ⟨other, fence, held, rfl⟩
        simp [some] at ok

theorem run_covers (script : String) (args : List String) (outcome : Outcome String) (n : Node) :
    (run script args outcome n).Covers p n := by
  unfold run
  split
  · exact covers_refuse _
  split
  · exact covers_refuse _
  · next allowed =>
    have invoked : Steps (Transition p) n [⟨.script script args, n.journal⟩] n :=
      Steps.single (.script (guard_ok allowed).1 script args)
    unfold attempt Ran.Covers
    cases outcome with
    | stoppedBefore => exact Steps.refl n
    | stopped => exact invoked
    | failed => exact invoked
    | done => exact invoked

theorem uninstall_covers (n : Node) : (uninstall n).Covers p n := by
  unfold uninstall
  split
  · exact covers_refuse _
  · next allowed =>
    obtain ⟨enabled, safe⟩ := guard_ok allowed
    exact Steps.single (.mark enabled (safe rfl))

end Legacy

namespace Force

theorem prepare_covers (s : Spec) (instanceId : String) (view : Journal) (stopped : Bool)
    (n : Node) : (prepare s instanceId view stopped n).Covers p n := by
  have published (tickets : Table String Json) : Steps (Transition p) n [] { n with tickets } :=
    Steps.single (.tickets n tickets)
  unfold prepare
  dsimp only
  split
  · exact covers_refuse _
  split
  · exact covers_refuse _
  split
  · exact covers_refuse _
  split
  · exact published _
  split
  · exact published _
  · exact published _

theorem raise_quiet (s : Spec) (j : Journal) :
    j.Quiet (raise s j) ∧ (j.schema.file = true → (raise s j).schema.file = true) := by
  unfold raise
  cases s.kind with
  | settings =>
    refine ⟨Journal.Quiet.trans (Journal.Quiet.of_rows ?_)
      (Journal.Quiet.raiseSettingsFence j.settingsFenceSchema _ _), fun file => ?_⟩
    · exact ⟨rfl, rfl, rfl, rfl⟩
    · rw [Journal.raiseSettingsFence_schema]
      rfl
  | profile =>
    refine ⟨Journal.Quiet.trans (Journal.Quiet.of_rows ?_)
      (Journal.Quiet.raiseFence j.fencesSchema _ _), fun file => ?_⟩
    · exact ⟨rfl, rfl, rfl, rfl⟩
    · rw [Journal.raiseFence_schema]
      rfl
  | node => exact ⟨Journal.Quiet.refl j, fun file => file⟩

theorem retire_covers (s : Spec) (instanceId : String) (free : Bool) (n : Node) :
    (retire s instanceId free n).Covers p n := by
  unfold retire
  split
  · exact covers_refuse _
  split
  · exact covers_refuse _
  split
  · exact covers_refuse _
  · next disabled =>
    have enabled := enabled_of disabled
    refine covers_after (k := n.journal.commandsSchema) enabled rfl ⟨rfl, rfl, rfl, rfl⟩ ?_
    have closed (recorded : Journal) (quiet : n.journal.commandsSchema.Quiet recorded)
        (file : recorded.schema.file = true) :
        (Ran.reply { n with journal := raise s recorded } (.ok s.receipt) : Ran String Json).Covers p
          { n with journal := n.journal.commandsSchema } := by
      obtain ⟨raises, kept⟩ := raise_quiet s recorded
      exact covers_quiet (n := { n with journal := n.journal.commandsSchema }) enabled (kept file)
        (quiet.trans raises) _
    dsimp only
    split
    · next row found =>
      split
      · exact covers_refuse _
      split
      · split
        · exact covers_refuse _
        · exact covers_reply _
      split
      · exact covers_refuse _
      · next running =>
        refine closed _ (Journal.Quiet.closeCommand ⟨row, found, not_not.mp running⟩) rfl
    · next found =>
      refine closed _ (Journal.Quiet.insertCommand found ?_) rfl
      show s.terminal ≠ .running
      unfold Spec.terminal
      split <;> simp

end Force
end NodePlane
