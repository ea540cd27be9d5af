import NodePlane.Agent.StoredGrants

/-! One pass over the leases: what is overdue is deleted, and the rest stays as it is. -/
namespace NodePlane
open Library
namespace Expiry

variable {p : Platform}

/-! Leases are recorded in their table, beside a fence. -/

/-- A profile whose delete passes its checks while its fence has a next revision. -/
structure Fit (j : Journal) (target : String × String) : Prop where
  name : runtimeName target.2 = true
  protocol : ["awg", "xray"].contains target.1 = true
  fenced : ∃ fence, j.fences.lookup target = some fence ∧ 0 < fence.revision

theorem attempt_schema {ρ ε α : Type} {started : Node} {invocation : Invocation}
    {outcome : Outcome ρ} {failed : String → ε} {close : ρ → Except ε (Journal × α)}
    (kept : ∀ result journal a, close result = .ok (journal, a) →
      journal.schema = started.journal.schema) :
    (attempt started invocation outcome failed close).node.journal.schema =
      started.journal.schema := by
  obtain ⟨node, _⟩ | ⟨node, _⟩ | ⟨result, journal, a, closed, node, _⟩ :=
    attempt_cases started invocation outcome failed close
  · rw [node]
  · rw [node]
  · rw [node]
    exact kept result journal a closed

/-- The leases' table, once created, stays. -/
def Stays (n m : Node) : Prop :=
  n.journal.schema.leases = true → m.journal.schema.leases = true

theorem resolve_stays (intent : Intent) (instanceId : String) (inspection : Except String Json)
    (now : Int) (n : Node) :
    Stays n (Profile.resolveInterrupted p intent instanceId inspection now n).node := by
  intro created
  unfold Profile.resolveInterrupted
  dsimp only
  repeat' split
  all_goals exact created

theorem settings_stays (intent : Json) (instanceId : String) (outcome : Outcome Response)
    (reached : Bool) (n : Node) :
    Stays n (SettingsJournal.apply p intent instanceId outcome reached n).node := by
  intro created
  unfold SettingsJournal.apply
  split
  · exact created
  split
  · exact created
  split
  · exact created
  dsimp only
  split
  · exact created
  · exact created
  · rw [attempt_schema]
    · exact created
    · intro result journal a closed
      unfold SettingsJournal.close at closed
      split at closed
      · cases closed
      · cases closed
        rfl

theorem settingsResolve_stays (intent : Json) (instanceId : String)
    (inspection : Except String Json) (now : Int) (n : Node) :
    Stays n (SettingsJournal.resolve p intent instanceId inspection now n).node := by
  intro created
  have repaired {observation : Except String Json} {opened : Node} {commit : Json → Journal}
      (before : opened.journal.schema.leases = true)
      (kept : ∀ record, (commit record).schema.leases = true) :
      (SettingsJournal.repair p observation now opened commit).node.journal.schema.leases = true := by
    unfold SettingsJournal.repair
    split
    · exact before
    split
    · exact before
    · exact kept _
  unfold SettingsJournal.resolve
  split
  · exact created
  split
  · exact created
  split
  · exact created
  dsimp only
  split
  · split
    · exact created
    split
    · exact created
    split
    · exact created
    split
    · exact created
    · exact repaired created fun _ => created
  · split
    · exact created
    · refine repaired created fun _ => ?_
      unfold SettingsJournal.tombstone
      rw [Journal.raiseSettingsFence_schema]
      exact created

theorem operation_stays (owner : Except String String) (instanceId requested commandId : String)
    (intent : Json) (recover : Bool) (outcome : Outcome Json) (reached : Bool) (n : Node) :
    Stays n (Operation.command p owner instanceId requested commandId intent recover outcome
      reached n).node := by
  intro created
  unfold Operation.command
  dsimp only
  split
  · exact created
  split
  · exact created
  split
  · exact created
  split
  · exact created
  · exact created
  · unfold Operation.retire
    split
    · exact created
    · exact created
  · rw [attempt_schema]
    · exact created
    · intro result journal a closed
      cases closed
      rfl

theorem force_stays (s : Force.Spec) (instanceId : String) (n : Node) :
    (∀ view stopped, Stays n (Force.prepare s instanceId view stopped n).node) ∧
      ∀ free, Stays n (Force.retire s instanceId free n).node := by
  refine ⟨?_, ?_⟩
  · intro view stopped created
    unfold Force.prepare
    dsimp only
    repeat' split
    all_goals exact created
  · intro free created
    have raised {j : Journal} (before : j.schema.leases = true) :
        (Force.raise s j).schema.leases = true := by
      unfold Force.raise
      split
      · rw [Journal.raiseSettingsFence_schema]
        exact before
      · rw [Journal.raiseFence_schema]
        exact before
      · exact before
    unfold Force.retire
    dsimp only
    repeat' split
    all_goals first | exact created | exact raised created

theorem unused_stays (instanceId : String) (intent : Intent) (t : Temporary) (n : Node) :
    Stays n (Temporary.resolveUnused p instanceId intent t n).node := by
  intro created
  have cancelled (opened : Node) (before : opened.journal.schema.leases = true) :
      (Temporary.cancel p instanceId intent t opened).node.journal.schema.leases = true := by
    unfold Temporary.cancel
    dsimp only
    repeat' split
    all_goals exact before
  unfold Temporary.resolveUnused
  dsimp only
  repeat' split
  all_goals first | exact created | exact cancelled _ created

theorem legacy_stays (script : String) (args : List String) (outcome : Outcome String) (n : Node) :
    Stays n (Legacy.run script args outcome n).node := by
  intro created
  unfold Legacy.run
  split
  · exact created
  split
  · exact created
  · rw [attempt_schema]
    · exact created
    · intro result journal a closed
      cases closed
      rfl

theorem decommission_stays (command instanceId : String)
    (run : Option (Intent → Outcome Response)) (persisted : Bool) (n : Node) :
    Stays n (Decommission.prepare p command instanceId run persisted n).node := by
  have all (run : Intent → Outcome Response) (intents : List Intent) : ∀ n : Node,
      Stays n (Decommission.revokeAll p instanceId run intents n).node := by
    induction intents with
    | nil => exact fun _ created => created
    | cons intent rest ih =>
      intro n created
      have one := (Decommission.revokeOne_marker (p := p) instanceId run intent n).2
      unfold Decommission.revokeAll
      dsimp only
      split
      · exact ih _ (by rw [one]; exact created)
      · rw [one]
        exact created
  have revoked (run : Intent → Outcome Response) :
      Stays n (Decommission.revokeProfiles p command instanceId run n).node := by
    intro created
    unfold Decommission.revokeProfiles
    dsimp only
    repeat' split
    all_goals first | exact created | exact all run _ n created
  intro created
  unfold Decommission.prepare
  split
  · exact created
  split
  · exact created
  extract_lets first
  have same : first.node.journal.schema.leases = true := by
    cases run with
    | none => exact created
    | some run =>
      by_cases file : n.journal.schema.file = true
      · simpa [first, file] using revoked run created
      · simpa [first, file] using created
  clear_value first
  split
  · exact same
  · exact same
  split
  · exact same
  · show (Decommission.mark command persisted first.node).node.journal.schema.leases = true
    unfold Decommission.mark
    dsimp only
    split
    · exact same
    · exact same

/-- An applied intent creates the table, or leaves the node. -/
theorem apply_creates (intent : Intent) (instanceId : String) (clock : Profile.Clock)
    (run : Intent → Outcome Response) (n : Node) :
    (Profile.apply p intent instanceId clock run n).node = n ∨
      (Profile.apply p intent instanceId clock run n).node.journal.schema.leases = true := by
  unfold Profile.apply
  split
  · exact .inl rfl
  split
  · exact .inl rfl
  dsimp only
  split
  · exact .inr rfl
  · exact .inr rfl
  · refine .inr ?_
    rw [attempt_schema]
    · rfl
    · intro result journal a closed
      unfold Profile.close at closed
      split at closed
      · dsimp only at closed
        split at closed
        · cases closed
        · cases closed
          rfl
      · cases closed
        dsimp only [Journal.closeCommand]
        split
        · unfold Profile.revoke
          split
          · rfl
          · rfl
        · rfl

theorem scan_schema (instanceId : String) (now : Int) (run : Intent → Outcome Response)
    (rows : List Row) (found : Scan) (n : Node) :
    (scan p instanceId now run rows found n).node.journal.schema = n.journal.schema := by
  induction rows generalizing found n with
  | nil => rfl
  | cons row rest ih =>
    have one := (expireLease_frame (p := p) instanceId run row.1 row.2 n).schema
    unfold scan
    split
    · exact ih found n
    dsimp only
    split
    · exact one
    · exact one
    · exact (ih _ _).trans one

/-- Leases are recorded in a table the journal has. -/
def Tabled (n : Node) : Prop :=
  ∀ target lease, n.journal.leases.lookup target = some lease → n.journal.schema.leases = true

theorem Tabled.stays {n m : Node} (tabled : Tabled n) (same : m.journal.leases = n.journal.leases)
    (stays : Stays n m) : Tabled m := by
  intro target lease held
  rw [same] at held
  exact stays (tabled target lease held)

theorem exec_tabled {n : Node} (call : Call) (tabled : Tabled n) :
    Tabled (Agent.exec p n call).1 := by
  have created {m : Node} (table : m = n ∨ m.journal.schema.leases = true) : Tabled m := by
    rcases table with rfl | table
    · exact tabled
    · exact fun _ _ _ => table
  cases call with
  | applyProfile intent instanceId clock run =>
    exact created (apply_creates intent instanceId clock run n)
  | resolveProfile => exact tabled.stays (StoredGrants.resolve_leases ..) (resolve_stays _ _ _ _ n)
  | applySettings => exact tabled.stays (StoredGrants.settings_leases ..) (settings_stays _ _ _ _ n)
  | resolveSettings =>
    exact tabled.stays (StoredGrants.settingsResolve_leases ..) (settingsResolve_stays _ _ _ _ n)
  | operation => exact tabled.stays (StoredGrants.operation_leases ..) (operation_stays _ _ _ _ _ _ _ _ n)
  | temporary view instanceId action commandId value recover clock t =>
    rcases StoredGrants.temporary_cases (p := p) view instanceId action commandId value recover
      clock t n with ⟨same, _⟩ | ⟨intent, same, _⟩ | ⟨intent, node, _⟩
    · exact created (.inl same)
    · show Tabled (Temporary.temporary p view instanceId action commandId value recover clock t
        n).node
      rw [same]
      exact tabled.stays (StoredGrants.unused_leases ..) (unused_stays _ _ _ n)
    · refine created ?_
      show (Temporary.temporary p view instanceId action commandId value recover clock t n).node = n ∨
        (Temporary.temporary p view instanceId action commandId value recover clock t
          n).node.journal.schema.leases = true
      rw [node]
      exact apply_creates intent instanceId clock t.mutate n
  | expire instanceId now run =>
    refine created ?_
    show (expire p instanceId now run n).node = n ∨
      (expire p instanceId now run n).node.journal.schema.leases = true
    unfold expire
    split
    · exact .inl rfl
    · next present =>
      refine .inr ?_
      rw [scan_schema]
      simp only [Bool.or_eq_true, Bool.not_eq_true', not_or, Bool.not_eq_false] at present
      exact present.2
  | supervise protocol now stopped =>
    refine created ?_
    show (Supervisor.supervise protocol now stopped n).node = n ∨
      (Supervisor.supervise protocol now stopped n).node.journal.schema.leases = true
    unfold Supervisor.supervise Supervisor.pruneLocked
    split
    · exact .inl rfl
    split
    · split
      · exact .inl rfl
      · next present =>
        refine .inr ?_
        simp only [Bool.or_eq_true, Bool.not_eq_true', not_or, Bool.not_eq_false] at present
        exact present.2
    · exact .inl rfl
  | forcePrepare spec =>
    dsimp only [Agent.exec]
    split
    · exact tabled
    · exact tabled.stays ((StoredGrants.force_leases _ _ n).1 _ _) ((force_stays _ _ n).1 _ _)
  | forceRetire spec =>
    dsimp only [Agent.exec]
    split
    · exact tabled
    · exact tabled.stays ((StoredGrants.force_leases _ _ n).2 _) ((force_stays _ _ n).2 _)
  | decommission =>
    exact tabled.stays (StoredGrants.prepare_removes _ _ _ _ n).1 (decommission_stays _ _ _ _ n)
  | legacy => exact tabled.stays (StoredGrants.legacy_leases ..) (legacy_stays _ _ _ n)
  | uninstall =>
    show Tabled (Legacy.uninstall n).node
    unfold Legacy.uninstall
    split
    · exact tabled
    · exact tabled

theorem after_tabled (p : Platform) (calls : List Call) : Tabled (Agent.after p calls) := by
  have start : Tabled Node.fresh := fun _ _ held => by cases held
  have tabled (n : Node) (tabled : Tabled n) : Tabled (run (Agent.exec p) n calls).1 := by
    induction calls generalizing n with
    | nil => exact tabled
    | cons call rest ih => exact ih _ (exec_tabled call tabled)
  exact tabled Node.fresh start

theorem Fit.mono {j k : Journal} {target : String × String} (fit : Fit j target)
    (grows : j.Extends k) : Fit k target := by
  obtain ⟨fence, found, positive⟩ := fit.fenced
  obtain ⟨next, kept, le⟩ := grows.fences target fence found
  exact ⟨fit.name, fit.protocol, next, kept, Int.lt_of_lt_of_le positive le.revision⟩

/-- Every leased profile is fit. -/
def Ready (j : Journal) : Prop :=
  ∀ target lease, j.leases.lookup target = some lease → Fit j target

theorem Ready.mono {j k : Journal} (ready : Ready j) (grows : j.Extends k)
    (unleased : ∀ target, j.leases.lookup target = none → k.leases.lookup target = none) :
    Ready k := by
  intro target lease held
  cases before : j.leases.lookup target with
  | none =>
    rw [unleased target before] at held
    cases held
  | some old => exact (ready target old before).mono grows

theorem begin_ready {j k : Journal} {invocation : Invocation} (begun : Begin p j invocation k)
    (ready : Ready j) : Ready k := by
  have alters {other : String × String} {f : Lease → Lease} {target : String × String}
      (free : j.leases.lookup target = none) : (j.leases.alter other f).lookup target = none := by
    rw [Table.lookup_alter]
    split_ifs with same
    · rw [← same, free]
      rfl
    · exact free
  have deletes {i : Intent} {instanceId : String} {granted : Int} {retry leased : Bool}
      (permanent : i.leaseSeconds = none) (target : String × String)
      (free : j.leases.lookup target = none) :
      (Profile.start p i instanceId granted retry leased j).leases.lookup target = none := by
    simp only [Profile.start, permanent]
    split_ifs
    · exact alters free
    · exact free
  have permanent {i : Intent} (valid : i.validate = .ok ()) (deletes : i.ensure = false) :
      i.leaseSeconds = none := by
    by_contra lifetime
    rw [Intent.validate_lease valid (Option.isSome_iff_ne_none.mpr lifetime)] at deletes
    cases deletes
  cases begun with
  | @ensure i instanceId granted valid ensures new idle unleased unused newer =>
    intro target lease held
    by_cases own : i.leaseSeconds.isSome ∧ target = i.target
    · obtain ⟨lifetime, rfl⟩ := own
      obtain ⟨name, protocol⟩ := Intent.validate_shape valid
      refine ⟨name, protocol, _, Table.lookup_put_self _ _ _, (Intent.validate_target valid).1⟩
    · have before : j.leases.lookup target = some lease := by
        cases timed : i.leaseSeconds with
        | none => simpa [Profile.start, timed, ensures] using held
        | some seconds =>
          have other : target ≠ i.target := fun same => own ⟨by rw [timed]; rfl, same⟩
          simp only [Profile.start, timed] at held
          rwa [Table.lookup_put_ne _ other] at held
      refine (ready target lease before).mono ?_
      exact (Begin.ensure instanceId granted valid ensures new idle unleased unused newer).grows
  | delete instanceId granted valid delete new idle newer =>
    exact ready.mono (Begin.delete instanceId granted valid delete new idle newer).grows
      (deletes (permanent valid delete))
  | retry instanceId granted valid delete found unfinished same leased idle newer =>
    exact ready.mono
      (Begin.retry instanceId granted valid delete found unfinished same leased idle newer).grows
      (deletes (permanent valid delete))
  | expiry => exact ready
  | decommission instanceId new idle fenced confirmed valid =>
    exact ready.mono (Begin.decommission instanceId new idle fenced confirmed valid).grows
      fun _ free => free
  | settings instanceId wrote checked new idle newer =>
    exact ready.mono (Begin.settings instanceId wrote checked new idle newer).grows
      fun _ free => free
  | operation instanceId wrote carries checked new idle =>
    exact ready.mono (Begin.operation instanceId wrote carries checked new idle).grows
      fun _ free => free

theorem ready_steps {n m : Node} {events : List Event} (steps : Steps (Transition p) n events m)
    (ready : Ready n.journal) : Ready m.journal := by
  induction steps with
  | refl => exact ready
  | head step _ ih =>
    refine ih ?_
    cases step with
    | tickets | script | mark => exact ready
    | quiet enabled file change => exact ready.mono change.toExtends change.unleased
    | start enabled file begun | invoke enabled file begun => exact begin_ready begun ready

theorem after_ready (p : Platform) (calls : List Call) : Ready (Agent.after p calls).journal :=
  ready_steps (Agent.after_steps p calls) fun _ _ held => by cases held

/-- A journal with leases has its file. -/
theorem steps_file {n m : Node} {events : List Event} (steps : Steps (Transition p) n events m)
    (filed : ∀ target lease, n.journal.leases.lookup target = some lease →
      n.journal.schema.file = true) :
    ∀ target lease, m.journal.leases.lookup target = some lease → m.journal.schema.file = true := by
  induction steps with
  | refl => exact filed
  | head step _ ih =>
    refine ih ?_
    cases step with
    | tickets | script | mark => exact filed
    | quiet enabled file | start enabled file | invoke enabled file => exact fun _ _ _ => file

/-! One overdue lease. -/

/-- Digests are lowercase hexadecimal text. -/
def Hexadecimal (p : Platform) : Prop :=
  ∀ text, (p.sha256Hex text).utf8ByteSize ≤ 64 ∧ (p.sha256Hex text).toList.all hexDigitLower = true

theorem expiryId_valid (digests : Hexadecimal p) (lease : Lease) :
    NodePlane.commandId (expiryId p lease) = true := by
  obtain ⟨short, hex⟩ := digests lease.commandId
  have size : "expiry:".utf8ByteSize = 7 := by decide
  simp only [NodePlane.commandId, matchesName, expiryId, String.utf8ByteSize_append, size,
    Bool.and_eq_true, decide_eq_true_eq, String.toList_append, List.all_append]
  refine ⟨⟨by omega, by omega⟩, by decide, ?_⟩
  rw [List.all_eq_true] at hex ⊢
  intro c member
  have digit := hex c member
  simp only [hexDigitLower, Bool.or_eq_true, Bool.and_eq_true, decide_eq_true_eq] at digit
  rcases digit with digit | ⟨low, high⟩
  · simp [Char.isAlphanum, digit]
  · have lower : c.isLower = true := by
      show (decide (c.val ≥ 97) && decide (c.val ≤ 122)) = true
      simp only [Char.toNat, ge_iff_le, Bool.and_eq_true, decide_eq_true_eq,
        UInt32.le_iff_toNat_le] at low high ⊢
      exact ⟨low, by simpa using Nat.le_trans high (by decide)⟩
    have letter : c.isAlphanum = true := by
      show (c.isUpper || c.isLower || c.isDigit) = true
      simp [lower]
    simp [letter]

theorem deleteIntent_valid {id : String} {target : String × String} {revision : Int}
    (named : NodePlane.commandId id = true) (name : runtimeName target.2 = true)
    (protocol : ["awg", "xray"].contains target.1 = true) (positive : 0 < nextRevision revision) :
    (deleteIntent id target revision).validate = .ok () := by
  unfold Intent.validate Intent.validateLease
  have above : ¬nextRevision revision ≤ 0 := by omega
  simp only [deleteIntent, named, name, protocol, above]
  simp

/-- The pass deletes the lease's profile: it is being revoked, or its time is over. -/
def Due (now : Int) (lease : Lease) : Prop :=
  open_ lease = true ∧ (lease.status = .revoking ∨ lease.expiresAt ≤ now)

/-- The fence's revision has no next one. -/
def Exhausted (j : Journal) (target : String × String) : Prop :=
  ∃ fence, j.fences.lookup target = some fence ∧ fence.revision = 9223372036854775807

/-- The command stands in the journal, as it was closed. -/
def Stands (j : Journal) (id : String) (row : Command) : Prop :=
  j.commands.lookup id = some row ∧ row.status ≠ .running

theorem Stands.mono {j k : Journal} {id : String} {row : Command} (stands : Stands j id row)
    (grows : j.Extends k) : Stands k id row := by
  obtain ⟨next, kept, le⟩ := grows.commands id row stands.1
  exact ⟨by rw [kept, le.2 stands.2], stands.2⟩

theorem supersede_stands {j : Journal} {id other : String} {row : Command}
    (stands : Stands j other row) : Stands (j.supersede id) other row := by
  refine ⟨?_, stands.2⟩
  rw [Journal.supersede, Table.lookup_alter]
  split_ifs with same
  · subst same
    rw [stands.1, Option.map_some, if_neg stands.2]
  · exact stands.1

theorem supersede_known {j : Journal} {id other : String} :
    ((j.supersede id).commands.lookup other).isSome = (j.commands.lookup other).isSome := by
  rw [Journal.supersede, Table.lookup_alter]
  split_ifs with same
  · rw [same, Option.isSome_map]
  · rfl

theorem closed_fences (instanceId : String) (intent : Intent) (lease : Lease) (fence : Fence)
    (response : Response) (j : Journal) :
    (close p instanceId intent lease fence response j).fences =
      j.fences.put intent.target ⟨intent.revision, intent.commandId, some "delete"⟩ := by
  unfold close
  cases j.commands.lookup intent.commandId <;> dsimp only <;> split_ifs <;> rfl

/-- A confirmed revocation records its command, unless the identity is taken, and no
other. -/
theorem closed_commands (instanceId : String) (intent : Intent) (lease : Lease) (fence : Fence)
    (response : Response) (j : Journal) :
    let k := close p instanceId intent lease fence response j
    (k.commands.lookup intent.commandId).isSome ∧
      (j.commands.lookup intent.commandId = none → Stands k intent.commandId
        ⟨intent.fingerprint p, .succeeded, some response.toJson, instanceId⟩) ∧
      ∀ id, id ≠ intent.commandId →
        (k.commands.lookup id).isSome = (j.commands.lookup id).isSome := by
  have known (k : Journal) (id : String) :
      ((if fence.action = some "delete" then (k.supersede lease.commandId).supersede
        fence.commandId else k.supersede lease.commandId).commands.lookup id).isSome =
      (k.commands.lookup id).isSome := by
    split_ifs
    · rw [supersede_known, supersede_known]
    · rw [supersede_known]
  have stands {k : Journal} {id : String} {row : Command} (before : Stands k id row) :
      Stands (if fence.action = some "delete" then (k.supersede lease.commandId).supersede
        fence.commandId else k.supersede lease.commandId) id row := by
    split_ifs
    · exact supersede_stands (supersede_stands before)
    · exact supersede_stands before
  unfold close
  cases found : j.commands.lookup intent.commandId with
  | some row =>
    refine ⟨?_, by simp, fun id _ => known _ id⟩
    rw [Option.isSome_iff_exists]
    have here := known (j.setFence intent.target
      ⟨intent.revision, intent.commandId, some "delete"⟩) intent.commandId
    have before : (j.commands.lookup intent.commandId).isSome = true := by rw [found]; rfl
    exact Option.isSome_iff_exists.mp (here.trans before)
  | none =>
    let recorded := (j.insertCommand intent.commandId
      ⟨intent.fingerprint p, .succeeded, some response.toJson, instanceId⟩).setFence intent.target
        ⟨intent.revision, intent.commandId, some "delete"⟩
    have inserted : Stands recorded intent.commandId
        ⟨intent.fingerprint p, .succeeded, some response.toJson, instanceId⟩ :=
      ⟨Table.lookup_put_self _ _ _, by simp⟩
    refine ⟨?_, fun _ => stands inserted, ?_⟩
    · exact Option.isSome_iff_exists.mpr ⟨_, (stands inserted).1⟩
    · intro id other
      refine (known recorded id).trans ?_
      show ((j.commands.put _ _).lookup id).isSome = _
      rw [Table.lookup_put_ne _ other]

/-- The delete of a leased profile at some revision, recorded as confirmed under the
lease's expiry. -/
def Revoked (p : Platform) (j : Journal) (lease : Lease) (target : String × String) : Prop :=
  ∃ (revision : Int) (row : Command), Stands j (expiryId p lease) row ∧ row.status = .succeeded ∧
    row.fingerprint = (deleteIntent (expiryId p lease) target revision).fingerprint p

theorem Revoked.mono {j k : Journal} {lease : Lease} {target : String × String}
    (revoked : Revoked p j lease target) (grows : j.Extends k) : Revoked p k lease target := by
  obtain ⟨revision, row, stands, closed, same⟩ := revoked
  exact ⟨revision, row, stands.mono grows, closed, same⟩

section Pass
variable {instanceId : String} {now : Int} {run : Intent → Outcome Response} {n : Node}

/-- The revocation of one lease whose runner succeeds. -/
theorem expireLease_done (instanceId : String) {target : String × String} {lease : Lease}
    (digests : Hexadecimal p)
    (fit : Fit n.journal target) (below : ¬Exhausted n.journal target)
    (held : n.journal.leases.lookup target = some lease) (runs : ∀ d, ∃ r, run d = .done r) :
    let ran := expireLease p instanceId run target lease n
    ran.answer = some (.ok true) ∧
      ran.node.journal.leases.lookup target = some { lease with status := .expired } ∧
      (∀ other, other ≠ target →
        ran.node.journal.fences.lookup other = n.journal.fences.lookup other) ∧
      (ran.node.journal.commands.lookup (expiryId p lease)).isSome ∧
      (n.journal.commands.lookup (expiryId p lease) = none →
        Revoked p ran.node.journal lease target) ∧
      ∀ id, id ≠ expiryId p lease →
        (ran.node.journal.commands.lookup id).isSome = (n.journal.commands.lookup id).isSome := by
  obtain ⟨fence, fenced, positive⟩ := fit.fenced
  have next : 0 < nextRevision fence.revision := by
    unfold nextRevision
    rw [if_neg fun top => below ⟨fence, fenced, top⟩]
    omega
  have valid := deleteIntent_valid (expiryId_valid digests lease) fit.name fit.protocol next
  obtain ⟨response, done⟩ := runs (deleteIntent (expiryId p lease) target fence.revision)
  have found : (n.journal.markLease target .revoking).fences.lookup target = some fence := fenced
  obtain ⟨known, recorded, others⟩ := closed_commands (p := p) instanceId
    (deleteIntent (expiryId p lease) target fence.revision) lease fence response
    (n.journal.markLease target .revoking)
  unfold expireLease
  simp only [found, valid, done, attempt, Option.map_some, Except.toBool]
  refine ⟨trivial, ?_, ?_, known, ?_, others⟩
  · rw [StoredGrants.expired_leases]
    simp [Journal.markLease, Table.lookup_alter, held]
  · intro other differs
    rw [closed_fences]
    exact Table.lookup_put_ne _ differs
  · intro absent
    exact ⟨fence.revision, _, recorded absent, rfl, rfl⟩

/-- What a pass does to the rows it goes through: the due ones expire, each with its
delete recorded unless another command had its identity, and no other lease changes. -/
structure Passed (p : Platform) (now : Int) (rows : List Row) (n m : Node) : Prop where
  expired : ∀ row ∈ rows, Due now row.2 →
    m.journal.leases.lookup row.1 = some { row.2 with status := .expired }
  recorded : ∀ row ∈ rows, Due now row.2 →
    (m.journal.commands.lookup (expiryId p row.2)).isSome ∧
      (n.journal.commands.lookup (expiryId p row.2) = none → ∃ other ∈ rows,
        expiryId p other.2 = expiryId p row.2 ∧ Revoked p m.journal row.2 other.1)
  kept : ∀ target, (∀ row ∈ rows, Due now row.2 → row.1 ≠ target) →
    m.journal.leases.lookup target = n.journal.leases.lookup target

theorem scan_passed (instanceId : String) (now : Int) {rows : List Row} (digests : Hexadecimal p)
    (runs : ∀ d, ∃ r, run d = .done r) (enabled : n.marker = none)
    (file : n.journal.schema.file = true) (distinct : (rows.map Prod.fst).Nodup)
    (opened : ∀ row ∈ rows, open_ row.2 = true)
    (held : ∀ row ∈ rows, n.journal.leases.lookup row.1 = some row.2)
    (fit : ∀ row ∈ rows, Fit n.journal row.1)
    (below : ∀ row ∈ rows, Due now row.2 → ¬Exhausted n.journal row.1) (found : Scan) :
    (∃ total, (scan p instanceId now run rows found n).answer = some (.ok total)) ∧
      Passed p now rows n (scan p instanceId now run rows found n).node := by
  induction rows generalizing n found with
  | nil => exact ⟨⟨found, rfl⟩, by simp, by simp, fun _ _ => rfl⟩
  | cons row rest ih =>
    obtain ⟨target, lease⟩ := row
    rw [List.map_cons, List.nodup_cons] at distinct
    have here := List.mem_cons_self (a := (target, lease)) (l := rest)
    have later {row : Row} (member : row ∈ rest) : row ∈ (target, lease) :: rest :=
      List.mem_cons_of_mem _ member
    have apart {row : Row} (member : row ∈ rest) : row.1 ≠ target := by
      rintro same
      exact distinct.1 (List.mem_map.mpr ⟨row, member, same⟩)
    unfold scan
    split
    · next skipped =>
      -- Neither marked nor overdue: the pass goes on.
      simp only [Bool.and_eq_true, decide_eq_true_eq] at skipped
      have idle : ¬Due now lease := by
        rintro ⟨_, revoking | passed⟩
        · exact skipped.1 revoking
        · omega
      obtain ⟨answered, passed⟩ := ih enabled file distinct.2 (fun row member => opened row (later member))
        (fun row member => held row (later member)) (fun row member => fit row (later member))
        (fun row member => below row (later member)) found
      refine ⟨answered, ?_, ?_, ?_⟩
      · intro row member due
        rcases List.mem_cons.mp member with rfl | member
        · exact absurd due idle
        · exact passed.expired row member due
      · intro row member due
        rcases List.mem_cons.mp member with rfl | member
        · exact absurd due idle
        · obtain ⟨known, recorded⟩ := passed.recorded row member due
          refine ⟨known, fun absent => ?_⟩
          obtain ⟨other, among, same, revoked⟩ := recorded absent
          exact ⟨other, later among, same, revoked⟩
      · intro other free
        exact passed.kept other fun row member => free row (later member)
    · next visited =>
      have due : Due now lease := by
        refine ⟨opened _ here, ?_⟩
        simp only [Bool.and_eq_true, decide_eq_true_eq, not_and, Int.not_lt] at visited
        by_cases revoking : lease.status = .revoking
        · exact .inl revoking
        · exact .inr (visited revoking)
      obtain ⟨answer, expired, fences, known, revoked, others⟩ := expireLease_done instanceId
        digests (fit _ here) (below _ here due) (held _ here) runs
      have frame := expireLease_frame (p := p) instanceId run target lease n
      have covers := expireLease_covers (p := p) instanceId run target lease n enabled file
        (held _ here)
      generalize expireLease p instanceId run target lease n = one at *
      simp only [answer]
      have fit' : ∀ row ∈ rest, Fit one.node.journal row.1 :=
        fun row member => (fit row (later member)).mono (Agent.extends_steps covers)
      have below' : ∀ row ∈ rest, Due now row.2 → ¬Exhausted one.node.journal row.1 := by
        rintro row member overdue ⟨fence, fenced, top⟩
        rw [fences row.1 (apart member)] at fenced
        exact below row (later member) overdue ⟨fence, fenced, top⟩
      have held' : ∀ row ∈ rest, one.node.journal.leases.lookup row.1 = some row.2 := by
        intro row member
        rw [frame.leases row.1 (apart member)]
        exact held row (later member)
      have enabled' := frame.marker.trans enabled
      have file' : one.node.journal.schema.file = true := by rw [frame.schema]; exact file
      obtain ⟨answered, passed⟩ := ih enabled' file' distinct.2
        (fun row member => opened row (later member)) held' fit' below'
        { found with expired := found.expired + 1 }
      have grows := Agent.extends_steps (scan_covers (p := p) instanceId now run rest
        { found with expired := found.expired + 1 } one.node enabled' file' distinct.2 held')
      simp only [if_true]
      refine ⟨answered, ?_, ?_, ?_⟩
      · intro row member overdue
        rcases List.mem_cons.mp member with rfl | member
        · rw [passed.kept target fun row member _ => apart member]
          exact expired
        · exact passed.expired row member overdue
      · intro row member overdue
        rcases List.mem_cons.mp member with rfl | member
        · obtain ⟨first, stood⟩ := Option.isSome_iff_exists.mp known
          obtain ⟨next, kept, _⟩ := grows.commands _ first stood
          refine ⟨Option.isSome_iff_exists.mpr ⟨next, kept⟩, fun absent => ?_⟩
          exact ⟨_, here, rfl, (revoked absent).mono grows⟩
        · obtain ⟨known, recorded⟩ := passed.recorded row member overdue
          refine ⟨known, fun absent => ?_⟩
          by_cases same : expiryId p row.2 = expiryId p lease
          · refine ⟨_, here, same.symm, ?_⟩
            have first := (revoked (by rw [← same]; exact absent)).mono grows
            unfold Revoked at first ⊢
            rw [same]
            exact first
          · have still : one.node.journal.commands.lookup (expiryId p row.2) = none := by
              have missing := others _ same
              rw [absent] at missing
              exact Option.not_isSome_iff_eq_none.mp (by rw [missing]; simp)
            obtain ⟨other, among, shared, done⟩ := recorded still
            exact ⟨other, later among, shared, done⟩
      · intro other free
        rw [passed.kept other fun row member => free row (later member)]
        exact frame.leases other fun same => free _ here due same.symm

end Pass

theorem openLeases_open {j : Journal} {row : Row} (member : row ∈ openLeases j) :
    open_ row.2 = true := by
  rw [openLeases, List.mem_insertionSort] at member
  exact (List.mem_filter.mp member).2

theorem due_openLeases {j : Journal} {now : Int} {target : String × String} {lease : Lease}
    (held : j.leases.lookup target = some lease) (due : Due now lease) :
    (target, lease) ∈ openLeases j := by
  rw [openLeases, List.mem_insertionSort, List.mem_filter]
  exact ⟨Table.mem_rows_iff.mpr held, due.1⟩

/-- One pass whose deletes succeed leaves no lease that is overdue or being revoked, with
a recorded delete for each it expired, and does not touch the others. -/
theorem expiry_complete (p : Platform) (digests : Hexadecimal p) (calls : List Call)
    (enabled : (Agent.after p calls).marker = none) (instanceId : String) (now : Int)
    (run : Intent → Outcome Response) (runs : ∀ d, ∃ r, run d = .done r)
    (below : ∀ target lease, (Agent.after p calls).journal.leases.lookup target = some lease →
      Due now lease → ¬Exhausted (Agent.after p calls).journal target) :
    let n := Agent.after p calls
    let m := (expire p instanceId now run n).node
    (∀ target lease, m.journal.leases.lookup target = some lease → ¬Due now lease) ∧
    (∀ target lease, n.journal.leases.lookup target = some lease → Due now lease →
      m.journal.leases.lookup target = some { lease with status := .expired } ∧
      (m.journal.commands.lookup (expiryId p lease)).isSome ∧
      (n.journal.commands.lookup (expiryId p lease) = none → ∃ other old,
        n.journal.leases.lookup other = some old ∧ expiryId p old = expiryId p lease ∧
        Revoked p m.journal lease other)) ∧
    ∀ target, (∀ lease, n.journal.leases.lookup target = some lease → ¬Due now lease) →
      m.journal.leases.lookup target = n.journal.leases.lookup target := by
  intro n m
  have tabled : Tabled n := after_tabled p calls
  have ready : Ready n.journal := after_ready p calls
  have filed := steps_file (Agent.after_steps p calls) fun _ _ held => by cases held
  by_cases some : ∃ target lease, n.journal.leases.lookup target = some lease
  · obtain ⟨target, lease, held⟩ := some
    have file : n.journal.schema.file = true := filed target lease held
    have table : n.journal.schema.leases = true := tabled target lease held
    have passed := (scan_passed instanceId now digests runs enabled file (openLeases_distinct _)
      (fun row member => openLeases_open member) (fun row member => mem_openLeases member)
      (fun row member => ready _ _ (mem_openLeases member))
      (fun row member => below _ _ (mem_openLeases member)) ⟨0, 0⟩).2
    have ran : m = (scan p instanceId now run (openLeases n.journal) ⟨0, 0⟩ n).node := by
      show (expire p instanceId now run n).node = _
      unfold expire
      rw [if_neg (by simp [file, table, Node.disabled, enabled, n])]
    rw [← ran] at passed
    have kept : ∀ target, (∀ lease, n.journal.leases.lookup target = some lease → ¬Due now lease) →
        m.journal.leases.lookup target = n.journal.leases.lookup target := by
      intro target idle
      refine passed.kept target ?_
      rintro row member due rfl
      exact idle row.2 (mem_openLeases member) due
    refine ⟨?_, ?_, kept⟩
    · intro target lease held due
      by_cases before : ∃ old, n.journal.leases.lookup target = some old ∧ Due now old
      · obtain ⟨old, was, overdue⟩ := before
        have now := passed.expired (target, old) (due_openLeases was overdue) overdue
        rw [held] at now
        cases now
        exact absurd due.1 (by simp [open_])
      · rw [kept target fun old was overdue => before ⟨old, was, overdue⟩] at held
        exact before ⟨lease, held, due⟩
    · intro target lease held due
      have member := due_openLeases held due
      obtain ⟨known, recorded⟩ := passed.recorded _ member due
      refine ⟨passed.expired _ member due, known, fun absent => ?_⟩
      obtain ⟨other, among, same, revoked⟩ := recorded absent
      exact ⟨other.1, other.2, mem_openLeases among, same, revoked⟩
  · -- No lease: the pass has nothing to do.
    have none : openLeases n.journal = [] := by
      rw [List.eq_nil_iff_forall_not_mem]
      intro row member
      exact some ⟨row.1, row.2, mem_openLeases member⟩
    have same : m = n := by
      show (expire p instanceId now run n).node = n
      unfold expire
      split
      · rfl
      · rw [none]
        rfl
    rw [same]
    exact ⟨fun target lease held => absurd ⟨target, lease, held⟩ some,
      fun target lease held => absurd ⟨target, lease, held⟩ some, fun _ _ => rfl⟩

theorem sample_hexadecimal : Hexadecimal Platform.sample := by
  have listed : ∀ digest ∈ Platform.sampleDigests.map Prod.snd,
      digest.utf8ByteSize ≤ 64 ∧ digest.toList.all hexDigitLower = true := by decide +kernel
  intro text
  show ((Platform.sampleDigests.lookup text).getD "").utf8ByteSize ≤ 64 ∧ _
  cases found : Platform.sampleDigests.lookup text with
  | none => simp [Platform.sample, found]
  | some digest =>
    obtain ⟨before, after, same, _⟩ := List.lookup_eq_some_iff.mp found
    have member : digest ∈ Platform.sampleDigests.map Prod.snd := by
      rw [same]
      simp
    simpa [Platform.sample, found] using listed digest member

private theorem sample_leases :
    (Agent.after Platform.sample [StoredGrants.sampleApply sampleGrant]).journal.fences.rows =
        [(sampleGrant.target, ⟨1, "grant-1", some "ensure"⟩)] ∧
      (Agent.after Platform.sample [StoredGrants.sampleApply sampleGrant]).journal.leases.lookup
        sampleGrant.target = some ⟨"grant-1", 43200000000, .active⟩ ∧
      (Agent.after Platform.sample [StoredGrants.sampleApply sampleGrant]).marker = none := by
  decide +kernel

/-- The pass at a grant's deadline. -/
theorem expiry_complete_sample :
    (expire Platform.sample "agent-1" 43200000000 (fun _ => .done Response.ok)
      (Agent.after Platform.sample [StoredGrants.sampleApply sampleGrant])).node.journal.leases.lookup
        sampleGrant.target = some ⟨"grant-1", 43200000000, .expired⟩ := by
  have below : ∀ target, ¬Exhausted (Agent.after Platform.sample
      [StoredGrants.sampleApply sampleGrant]).journal target := by
    rintro target ⟨fence, found, top⟩
    have member := Table.mem_rows_iff.mpr found
    rw [sample_leases.1, List.mem_singleton] at member
    cases member
    revert top
    decide
  exact ((expiry_complete Platform.sample sample_hexadecimal
    [StoredGrants.sampleApply sampleGrant] sample_leases.2.2 "agent-1" 43200000000
    (fun _ => .done Response.ok) (fun _ => ⟨_, rfl⟩) fun target _ _ _ => below target).2.1 _ _
      sample_leases.2.1
      ⟨by decide, .inr (by decide)⟩).1

private theorem sample_revoking :
    let calls : List Call := [StoredGrants.sampleApply sampleGrant,
      .applyProfile sampleDelete "agent-1" ⟨0, 0, 0⟩ fun _ => .failed "interface busy"]
    (Agent.after Platform.sample calls).journal.leases.lookup sampleGrant.target =
        some ⟨"grant-1", 43200000000, .revoking⟩ ∧
      (Agent.after Platform.sample calls).marker = none ∧
      (expire Platform.sample "agent-1" 0 (fun _ => .done Response.ok)
        (Agent.after Platform.sample calls)).node.journal.leases.lookup sampleGrant.target =
          some ⟨"grant-1", 43200000000, .expired⟩ := by
  decide +kernel

/-- A lease that is being revoked is deleted before its deadline. -/
theorem revoking_expires_early : ¬∀ (p : Platform) (calls : List Call),
    Hexadecimal p → (Agent.after p calls).marker = none →
      ∀ instanceId now run, (∀ d, ∃ r, run d = .done r) → ∀ target lease,
        (Agent.after p calls).journal.leases.lookup target = some lease → now < lease.expiresAt →
          (expire p instanceId now run (Agent.after p calls)).node.journal.leases.lookup target =
            some lease := by
  intro unchanged
  let calls : List Call := [StoredGrants.sampleApply sampleGrant,
    .applyProfile sampleDelete "agent-1" ⟨0, 0, 0⟩ fun _ => .failed "interface busy"]
  obtain ⟨held, unmarked, expired⟩ := sample_revoking
  have stale := unchanged Platform.sample calls sample_hexadecimal unmarked "agent-1" 0
    (fun _ => .done Response.ok) (fun _ => ⟨_, rfl⟩) sampleGrant.target _ held (by decide)
  rw [expired] at stale
  cases stale

end Expiry
end NodePlane
