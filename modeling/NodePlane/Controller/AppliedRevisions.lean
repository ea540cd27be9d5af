import NodePlane.Controller.SelectedPort

/-! The two revisions of a node: the applied one never passes the desired one, reaches it only where an
agent has confirmed the node's runtime settings, and stays zero after a confirmed cleanup until the next
confirmed write. -/
namespace NodePlane
namespace Controller
namespace AppliedRevisions
open Library SelectedPort

/-- Whether the runtime of the node stands cleaned, after one more event. -/
def cleanedAfter (key : NodeKey) (before : Bool) : Event → Bool
  | .cleaned k _ => before || k = key
  | .wrote k _ _ => before && k ≠ key
  | _ => before

/-- The node's runtime was cleaned, and nothing has been written there since. -/
def cleaned (key : NodeKey) (past : List Event) : Bool := past.foldl (cleanedAfter key) false

/-- What the revisions of the nodes say about what agents have confirmed. -/
structure Agrees (past : List Event) (f : Fleet) : Prop where
  bounded : ∀ key n, f.nodes.lookup key = some n → n.appliedRevision ≤ n.desiredRevision
  confirmed : ∀ key n, f.nodes.lookup key = some n → n.appliedRevision = n.desiredRevision →
    ∃ revision, .wrote key revision (Runtime.current f key n) ∈ past
  cleaned : ∀ key n, f.nodes.lookup key = some n → cleaned key past = true →
    n.enabled = false ∧ n.appliedRevision = 0

/-- The job that a call confirms; a retirement confirms none. -/
def confirming (s : System) : Call → Option Job
  | .repair (.resolveJob _ _ _ none _) => none
  | c => s.completing c

/-- A cleanup is confirmed at its own revision, and new entropy for a node whose settings had been
applied. -/
def undisturbed (f : Fleet) (j : Job) : Bool :=
  (f.nodes.lookup j.node).all fun n =>
    (j.action ≠ .cleanupRuntime || n.desiredRevision = j.revision ||
      !n.enabled && n.appliedRevision = 0) &&
    (j.action ≠ .regenerateEntropy || n.desiredRevision ≠ j.revision ||
      n.appliedRevision + 1 = n.desiredRevision)

def Undisturbed (f : Fleet) (j : Job) : Prop := undisturbed f j = true

/-- Every job that a run confirms is undisturbed. -/
def careful (s : System) : List Call → Bool
  | [] => true
  | c :: rest => (confirming s c).all (undisturbed s.db.fleet) && careful (s.exec c).1 rest

/-! What one change does to a node's row. -/

/-- All defaults of the node's protocols are stored. -/
def Filled (n : Node) : Prop := ∀ draw, n.settings.protocolDefaults draw n.protocols = n.settings

/-- The node is at its desired revision, or will be when a job that writes nothing is confirmed. -/
def Standing (f : Fleet) (key : NodeKey) (n : Node) : Prop :=
  n.appliedRevision = n.desiredRevision ∨ n.appliedRevision + 1 = n.desiredRevision ∧
    ∃ j ∈ f.jobs, j.node = key ∧ j.action = .regenerateEntropy ∧ j.status.pending = true ∧
      j.revision = n.desiredRevision

/-- A queued job that writes nothing, and its node. -/
structure Awaits (f : Fleet) (j : Job) : Prop where
  later : 2 ≤ j.revision
  gone : f.nodes.lookup j.node = none → f.retired j.node = true
  behind : ∀ n, f.nodes.lookup j.node = some n → j.revision ≤ n.desiredRevision

structure Kept (past : List Event) (f : Fleet) : Prop where
  bounded : ∀ key n, f.nodes.lookup key = some n →
    n.appliedRevision ≤ n.desiredRevision ∧ 1 ≤ n.desiredRevision
  filled : ∀ key n, f.nodes.lookup key = some n → Filled n
  confirmed : ∀ key n, f.nodes.lookup key = some n → Standing f key n →
    ∃ revision, .wrote key revision (Runtime.current f key n) ∈ past
  cleaned : ∀ key n, f.nodes.lookup key = some n → cleaned key past = true →
    n.enabled = false ∧ n.appliedRevision = 0
  jobs : ∀ j ∈ f.jobs, j.status.pending = true → j.action = .regenerateEntropy → Awaits f j

/-- What a change makes of a node's row `m`. -/
structure Fate (f g : Fleet) (es : List Event) (key : NodeKey) (m n : Node) : Prop where
  bounded : n.appliedRevision ≤ n.desiredRevision ∧ 1 ≤ n.desiredRevision
  filled : Filled n
  standing : Standing g key n →
    (Standing f key m ∧ Runtime.current g key n = Runtime.current f key m) ∨
      ∃ revision, .wrote key revision (Runtime.current g key n) ∈ es
  cleaned : ∀ before, es.foldl (cleanedAfter key) before = true →
    (before = true → m.enabled = false ∧ m.appliedRevision = 0) →
    n.enabled = false ∧ n.appliedRevision = 0

/-- Unfinished jobs come from unfinished jobs. -/
def JobsFrom (f g : Fleet) : Prop :=
  ∀ k ∈ g.jobs, k.status.pending = true →
    ∃ j ∈ f.jobs, j.status.pending = true ∧ k = { j with status := k.status }

section Rows
variable {past es : List Event} {f g : Fleet} {key : NodeKey} {m n : Node}

theorem current_same (protocols : n.protocols = m.protocols) (settings : n.settings = m.settings)
    (policies : VpnPolicies.runtimeSettings g.policies key m.protocols =
      VpnPolicies.runtimeSettings f.policies key m.protocols) :
    Runtime.current g key n = Runtime.current f key m := by
  rw [Runtime.current, Runtime.current, protocols, settings, policies]

theorem Filled.congr (filled : Filled m) (protocols : n.protocols = m.protocols)
    (settings : n.settings = m.settings) : Filled n := by
  intro draw
  rw [protocols, settings]
  exact filled draw

theorem Filled.of_defaults {draw : ℕ} {s : Settings}
    (settings : n.settings = s.protocolDefaults draw n.protocols) : Filled n := by
  intro next
  rw [settings]
  exact Settings.protocolDefaults_idem draw next s n.protocols

theorem Standing.back (jobs : JobsFrom f g) (applied : n.appliedRevision = m.appliedRevision)
    (desired : n.desiredRevision = m.desiredRevision) (standing : Standing g key n) :
    Standing f key m := by
  rw [Standing, applied, desired] at standing
  rcases standing with equal | ⟨next, k, listed, at_node, entropy, busy, revision⟩
  · exact .inl equal
  · obtain ⟨j, member, was, shape⟩ := jobs k listed busy
    rw [shape] at at_node entropy revision
    exact .inr ⟨next, j, member, at_node, entropy, was, revision⟩

theorem stays_off (enabled : n.enabled = true → m.enabled = true) (off : m.enabled = false) :
    n.enabled = false := by
  by_contra on
  rw [enabled (by simpa using on)] at off
  cases off

/-- A node that nothing has confirmed does not stand. -/
theorem Kept.not_standing (kept : Kept past f) (jobs : JobsFrom f g) (zero : n.appliedRevision = 0)
    (behind : 1 ≤ n.desiredRevision) : ¬ Standing g key n := by
  rintro (equal | ⟨next, k, member, at_node, entropy, busy, revision⟩)
  · omega
  · obtain ⟨i, known, was, shape⟩ := jobs k member busy
    rw [shape] at entropy revision
    have later := (kept.jobs i known was entropy).later
    dsimp only at revision
    omega

/-- A queued job waits on while its node leaves no revision behind. -/
theorem Awaits.leaves {j k : Job} (awaits : Awaits f j) (leaves : Leaves f g j.node)
    (at_node : k.node = j.node) (revision : k.revision = j.revision) : Awaits g k := by
  obtain ⟨later, gone, behind⟩ := awaits
  rw [← at_node] at gone behind leaves
  refine ⟨revision ▸ later, ?_, ?_⟩
  · intro missing
    rcases leaves.gone missing with before | retired
    · exact leaves.retired (gone before)
    · exact retired
  · intro n row
    rw [revision]
    rcases leaves.node n row with ⟨m, before, raised | ⟨same, -⟩⟩ | ⟨before, unfenced⟩
    · have older := behind m before
      omega
    · rw [same]
      exact behind m before
    · rw [gone before] at unfenced
      cases unfenced

/-- The row stays as it is, but for being disabled. -/
theorem Fate.kept (kept : Kept past f) (row : f.nodes.lookup key = some m) (jobs : JobsFrom f g)
    (revisions : n.appliedRevision = m.appliedRevision ∧ n.desiredRevision = m.desiredRevision)
    (enabled : n.enabled = true → m.enabled = true)
    (stored : n.protocols = m.protocols ∧ n.settings = m.settings)
    (policies : VpnPolicies.runtimeSettings g.policies key m.protocols =
      VpnPolicies.runtimeSettings f.policies key m.protocols)
    (apart : ∀ before, es.foldl (cleanedAfter key) before = true → before = true) :
    Fate f g es key m n where
  bounded := by
    rw [revisions.1, revisions.2]
    exact kept.bounded key m row
  filled := (kept.filled key m row).congr stored.1 stored.2
  standing := fun standing =>
    .inl ⟨standing.back jobs revisions.1 revisions.2, current_same stored.1 stored.2 policies⟩
  cleaned := by
    intro before after was
    obtain ⟨off, zero⟩ := was (apart before after)
    exact ⟨stays_off enabled off, revisions.1.trans zero⟩

/-- The desired revision rises and nothing stands any more. -/
theorem Fate.raised (kept : Kept past f) (row : f.nodes.lookup key = some m) (jobs : JobsFrom f g)
    (applied : n.appliedRevision = m.appliedRevision)
    (desired : m.desiredRevision < n.desiredRevision) (filled : Filled n)
    (enabled : n.enabled = true → m.enabled = true) : Fate f g [] key m n where
  bounded := by
    have bounds := kept.bounded key m row
    omega
  filled := filled
  standing := by
    have bounds := kept.bounded key m row
    rintro (equal | ⟨next, k, listed, at_node, entropy, busy, revision⟩)
    · omega
    · obtain ⟨j, member, was, shape⟩ := jobs k listed busy
      rw [shape] at at_node entropy revision
      have behind := (kept.jobs j member was entropy).behind m (by rw [at_node, row])
      dsimp only at revision
      omega
  cleaned := by
    intro before after was
    obtain ⟨off, zero⟩ := was after
    exact ⟨stays_off enabled off, applied.trans zero⟩

/-- What an agent has written at a node's revision is what runs there. -/
theorem written {revision : ℕ} {intent : NodeIntent} {settings : Settings} {awgPort : Option ℕ}
    (follows : Follows f key revision intent) (row : f.nodes.lookup key = some m) (filled : Filled m)
    (now : m.desiredRevision = revision)
    (effective : NodeSettings.effectivePort intent awgPort = some settings) :
    Runtime.of intent.protocols settings =
        Runtime.current f key (NodeSettings.ported revision settings awgPort m) ∧
      Filled (NodeSettings.ported revision settings awgPort m) := by
  obtain ⟨listed, ⟨draw, given⟩, plain⟩ := follows.current m row now.symm
  rw [filled draw] at given
  have absent : ∀ field, field ≠ .xrayBittorrent →
      VpnPolicies.runtimeSettings f.policies key m.protocols field = none := by
    intro field other
    unfold VpnPolicies.runtimeSettings
    split
    · rw [Settings.set, if_neg other]
      rfl
    · rfl
  cases awgPort with
  | none =>
    cases effective
    have same : NodeSettings.ported revision intent.settings none m = m := if_neg fun h => by cases h.1
    rw [same]
    refine ⟨?_, filled⟩
    rw [Runtime.current, filled 0, listed, given]
  | some selected =>
    have shape : settings = intent.settings.set .awgPort (.port selected) := by
      unfold NodeSettings.effectivePort at effective
      dsimp only at effective
      split at effective
      · split at effective
        · exact (Option.some.inj effective).symm
        · cases effective
      · cases effective
    have ported : NodeSettings.ported revision settings (some selected) m =
        { m with settings := settings } := if_pos ⟨rfl, now⟩
    have field (k : Field) (other : k ≠ .awgPort) : settings k =
        (VpnPolicies.runtimeSettings f.policies key m.protocols k).or (m.settings k) := by
      rw [shape, Settings.set, if_neg other, given]
      rfl
    have stays : Filled { m with settings := settings } := by
      intro next
      funext k
      change (settings k).or (Settings.defaults next settings m.protocols k) = settings k
      cases stored : settings k with
      | some v => rfl
      | none =>
        have port : k ≠ .awgPort := by
          rintro rfl
          rw [shape, Settings.set, if_pos rfl] at stored
          cases stored
        have own : m.settings k = none := by
          rw [field k port, Option.or_eq_none_iff] at stored
          exact stored.2
        have host : settings .publicHost = m.settings .publicHost := by
          rw [field _ (by decide), absent _ (by decide)]
          rfl
        have missing : Settings.defaults next m.settings m.protocols k = none := by
          have whole := congrFun (filled next) k
          rw [Settings.protocolDefaults, own] at whole
          exact whole
        have same := Settings.defaults_isSome_congr next next m.protocols host k
        rw [missing] at same
        exact Option.isSome_eq_false_iff.mp same |> Option.isNone_iff_eq_none.mp
    rw [ported]
    refine ⟨?_, stays⟩
    have whole : settings.overlay (VpnPolicies.runtimeSettings f.policies key m.protocols) =
        settings := by
      funext k
      by_cases port : k = .awgPort
      · rw [Settings.overlay, port, absent _ (by decide)]
        rfl
      · rw [Settings.overlay, field k port]
        cases VpnPolicies.runtimeSettings f.policies key m.protocols k <;> rfl
    have filledNow := stays 0
    dsimp only at filledNow
    rw [Runtime.current]
    dsimp only
    rw [filledNow, whole, listed]

end Rows

/-! One change. -/

section Changes
variable {locked : Bool} {allow : Fleet → Job → Prop} {db next : Db} {past es : List Event}

theorem JobsFrom.refl (f : Fleet) : JobsFrom f f := fun k listed busy => ⟨k, listed, busy, rfl⟩

theorem jobsFrom_of_change {f : Fleet} (numbered : Numbered db)
    (change : FleetChange locked allow db es f) : JobsFrom db.fleet f := by
  obtain ⟨g, jobs, moved⟩ := change.job_map numbered
  intro k listed busy
  rw [jobs] at listed
  obtain ⟨j, member, rfl⟩ := List.mem_map.mp listed
  exact ⟨j, member, (moved j member).pending busy, (moved j member).shape⟩

/-- A new row, or what the change makes of the row that was there. -/
def From (f g : Fleet) (es : List Event) (key : NodeKey) (n : Node) : Prop :=
  (f.nodes.lookup key = none ∧ n.enabled = false ∧ n.appliedRevision = 0 ∧ n.desiredRevision = 1 ∧
    Filled n) ∨ ∃ m, f.nodes.lookup key = some m ∧ Fate f g es key m n

/-- A table in which only the row of `at_key` has changed. -/
theorem From.at_key {f g : Fleet} {key : NodeKey} {n : Node} (at_key : NodeKey) (h : Node → Node)
    (kept : Kept past f) (jobs : JobsFrom f g)
    (shape : g.nodes.lookup key =
      if key = at_key then (f.nodes.lookup at_key).map h else f.nodes.lookup key)
    (policies : g.policies = f.policies)
    (apart : key ≠ at_key → ∀ before, es.foldl (cleanedAfter key) before = true → before = true)
    (changed : ∀ m, f.nodes.lookup at_key = some m → Fate f g es at_key m (h m))
    (row : g.nodes.lookup key = some n) : From f g es key n := by
  right
  rw [shape] at row
  split at row
  next same =>
    obtain ⟨m, found, rfl⟩ := Option.map_eq_some_iff.mp row
    rw [same]
    exact ⟨m, found, changed m found⟩
  next other =>
    exact ⟨n, row, Fate.kept kept row jobs ⟨rfl, rfl⟩ id ⟨rfl, rfl⟩ (by rw [policies]) (apart other)⟩

theorem cleaned_other {key other : NodeKey} (differ : key ≠ other) (es : List Event)
    (about : ∀ e ∈ es, (∃ revision, e = .cleaned other revision) ∨
      ∃ revision runtime, e = .wrote other revision runtime) (before : Bool) :
    es.foldl (cleanedAfter key) before = before := by
  induction es generalizing before with
  | nil => rfl
  | cons e rest ih =>
    rw [List.foldl_cons, ih fun d inside => about d (List.mem_cons_of_mem e inside)]
    rcases about e List.mem_cons_self with ⟨revision, rfl⟩ | ⟨revision, runtime, rfl⟩
    · simp [cleanedAfter, Ne.symm differ]
    · simp [cleanedAfter, Ne.symm differ]

/-- What a confirmed settings task makes of its node. -/
theorem fate_of_write {s : SettingsTask} {r : NodeSettings.Receipt} {settings : Settings} {m : Node}
    {g : Fleet} (kept : Kept past db.fleet) (exclusive : Exclusive db)
    (follows : Follows db.fleet s.node s.revision s.intent) (listed : s ∈ db.fleet.settingsTasks)
    (sent : s.status.held = true)
    (valid : NodeSettings.validResult s.node s.revision s.intent r = some settings)
    (row : db.fleet.nodes.lookup s.node = some m) (same : g.jobs = db.fleet.jobs)
    (policies : g.policies = db.fleet.policies) :
    Fate db.fleet g [.wrote s.node s.revision (Runtime.of s.intent.protocols settings)] s.node m
      (NodeSettingsExecutor.appliedNode s (db.fleet.draining s.node) settings r.awgPort m) := by
  have bounds := kept.bounded _ m row
  have effective : NodeSettings.effectivePort s.intent r.awgPort = some settings := by
    unfold NodeSettings.validResult at valid
    split at valid
    · cases valid
    next found =>
      split at valid
      · rw [← Option.some.inj valid]
        exact found
      · cases valid
  -- No job of the node is unfinished while the task is.
  have idle : ∀ n : Node, Standing g s.node n → n.appliedRevision = n.desiredRevision := by
    rintro n (equal | ⟨next, k, member, at_node, entropy, busy, revision⟩)
    · exact equal
    · rw [same] at member
      have clear := exclusive.jobSettings k member s listed at_node busy
      rw [Status.pending_of_held sent] at clear
      cases clear
  have ported : Filled (NodeSettings.ported s.revision settings r.awgPort m) ∧
      (m.desiredRevision = s.revision → Runtime.of s.intent.protocols settings =
        Runtime.current g s.node (NodeSettings.ported s.revision settings r.awgPort m)) := by
    by_cases now : m.desiredRevision = s.revision
    · obtain ⟨runs, filled⟩ := written follows row (kept.filled _ m row) now effective
      refine ⟨filled, fun _ => runs.trans ?_⟩
      exact (current_same rfl rfl (by rw [policies])).symm
    · rw [NodeSettings.ported, if_neg fun h => now h.2]
      exact ⟨kept.filled _ m row, fun h => absurd h now⟩
  have vacuous : ∀ before, [Event.wrote s.node s.revision
      (Runtime.of s.intent.protocols settings)].foldl (cleanedAfter s.node) before = true → False := by
    intro before after
    simp [cleanedAfter] at after
  unfold NodeSettingsExecutor.appliedNode
  dsimp only
  split
  next advances =>
    rw [NodeSettings.ported_applied, NodeSettings.ported_desired] at advances
    refine ⟨?_, ?_, ?_, fun before after _ => (vacuous before after).elim⟩
    · dsimp only
      rw [NodeSettings.ported_desired]
      omega
    · exact ported.1.congr rfl rfl
    · intro standing
      have equal := idle _ standing
      dsimp only at equal
      rw [NodeSettings.ported_desired] at equal
      refine .inr ⟨s.revision, ?_⟩
      rw [ported.2 equal.symm, List.mem_singleton]
      rfl
  next stays =>
    refine ⟨?_, ported.1, ?_, fun before after _ => (vacuous before after).elim⟩
    · rw [NodeSettings.ported_applied, NodeSettings.ported_desired]
      exact bounds
    · intro standing
      by_cases now : m.desiredRevision = s.revision
      · refine .inr ⟨s.revision, ?_⟩
        rw [ported.2 now, List.mem_singleton]
      · have unported : NodeSettings.ported s.revision settings r.awgPort m = m :=
          if_neg fun h => now h.2
        rw [unported] at standing ⊢
        exact .inl ⟨.inl (idle m standing), current_same rfl rfl (by rw [policies])⟩

/-- What a confirmed job makes of its node. -/
theorem fate_of_finish {j : Job} {r : NodeOperations.Receipt} {settings : Settings} {m : Node}
    {g : Fleet} (kept : Kept past db.fleet)
    (follows : j.action.rebuild = true → Follows db.fleet j.node j.revision j.intent)
    (listed : j ∈ db.fleet.jobs) (sent : j.status.held = true) (action : r.action = j.action)
    (allowed : Undisturbed db.fleet j) (valid : NodeOperations.confirmed j r = some settings)
    (row : db.fleet.nodes.lookup j.node = some m) (jobs : JobsFrom db.fleet g)
    (policies : g.policies = db.fleet.policies) :
    Fate db.fleet g (NodeOperations.confirmations j settings) j.node m
      (NodeOperations.completedNode j settings r.awgPort m) := by
  have bounds := kept.bounded _ m row
  have effective : NodeSettings.effectivePort j.intent r.awgPort = some settings := by
    unfold NodeOperations.confirmed at valid
    split at valid
    · cases valid
    next found =>
      split at valid
      · rw [← Option.some.inj valid]
        exact found
      · cases valid
  rw [Undisturbed, undisturbed, row, Option.all_some] at allowed
  have allowed : (j.action = .cleanupRuntime → m.desiredRevision = j.revision ∨
      m.enabled = false ∧ m.appliedRevision = 0) ∧ (j.action = .regenerateEntropy →
      m.desiredRevision = j.revision → m.appliedRevision + 1 = m.desiredRevision) := by
    refine ⟨fun cleans => ?_, fun entropy now => ?_⟩
    · simpa [cleans] using allowed
    · simpa [entropy, now] using allowed
  have unported : j.action.rebuild = false →
      NodeSettings.ported j.revision settings r.awgPort m = m := by
    intro plain
    refine if_neg fun h => ?_
    have reports := r.reports h.1
    rw [action, plain] at reports
    cases reports
  have policy : VpnPolicies.runtimeSettings g.policies j.node m.protocols =
      VpnPolicies.runtimeSettings db.fleet.policies j.node m.protocols := by rw [policies]
  unfold NodeOperations.completedNode
  dsimp only
  rw [NodeSettings.ported_desired]
  by_cases now : m.desiredRevision = j.revision
  · rw [if_neg (by simpa using now)]
    by_cases cleans : j.action = .cleanupRuntime
    · rw [if_pos cleans, unported (by rw [cleans]; rfl)]
      refine ⟨?_, (kept.filled _ m row).congr rfl rfl, ?_, fun _ _ _ => ⟨rfl, rfl⟩⟩
      · dsimp only
        omega
      · refine fun standing => absurd standing (kept.not_standing jobs rfl ?_)
        dsimp only
        omega
    · rw [if_neg cleans]
      by_cases invalidates : j.action.invalidate = true
      · rw [if_pos invalidates]
        cases rebuild : j.action.rebuild with
        | true =>
          obtain ⟨runs, filled⟩ := written (follows rebuild) row (kept.filled _ m row) now effective
          have event : NodeOperations.confirmations j settings =
              [.wrote j.node j.revision (Runtime.of j.intent.protocols settings)] := by
            rw [NodeOperations.confirmations, if_neg cleans, if_pos rebuild]
          rw [event]
          refine ⟨?_, filled.congr rfl rfl, ?_, ?_⟩
          · dsimp only
            omega
          · intro _
            refine .inr ⟨j.revision, ?_⟩
            rw [runs, List.mem_singleton, current_same (g := g) (f := db.fleet) rfl rfl
              (by rw [policies])]
            rfl
          · intro before after
            simp [cleanedAfter] at after
        | false =>
          have entropy : j.action = .regenerateEntropy := by
            revert cleans invalidates rebuild
            cases j.action <;> decide
          have event : NodeOperations.confirmations j settings = [] := by
            rw [NodeOperations.confirmations, if_neg cleans, if_neg (by rw [rebuild]; decide)]
          have ready := allowed.2 entropy now
          rw [event, unported rebuild]
          refine ⟨?_, (kept.filled _ m row).congr rfl rfl, ?_, ?_⟩
          · dsimp only
            omega
          · intro _
            refine .inl ⟨.inr ⟨ready, j, listed, rfl, entropy, Status.pending_of_held sent, now.symm⟩, ?_⟩
            exact current_same rfl rfl policy
          · intro before after was
            have zero := (was after).2
            have later := (kept.jobs j listed (Status.pending_of_held sent) entropy).later
            omega
      · rw [if_neg invalidates]
        have plain : j.action.rebuild = false := by
          revert invalidates
          cases j.action <;> decide
        have event : NodeOperations.confirmations j settings = [] := by
          rw [NodeOperations.confirmations, if_neg cleans, if_neg (by rw [plain]; decide)]
        rw [event, unported plain]
        exact Fate.kept kept row jobs ⟨rfl, rfl⟩ id ⟨rfl, rfl⟩ policy fun _ => id
  · rw [if_pos now]
    have same : NodeSettings.ported j.revision settings r.awgPort m = m := if_neg fun h => now h.2
    rw [same]
    by_cases cleans : j.action = .cleanupRuntime
    · have off := (allowed.1 cleans).resolve_left now
      have base : Fate db.fleet g [] j.node m m :=
        Fate.kept kept row jobs ⟨rfl, rfl⟩ id ⟨rfl, rfl⟩ policy fun _ => id
      exact ⟨base.bounded, base.filled, fun standing => (base.standing standing).imp_right
        fun ⟨_, inside⟩ => (List.not_mem_nil inside).elim, fun _ _ _ => off⟩
    · refine Fate.kept kept row jobs ⟨rfl, rfl⟩ id ⟨rfl, rfl⟩ policy ?_
      intro before after
      rw [NodeOperations.confirmations, if_neg cleans] at after
      split at after
      · simp [cleanedAfter] at after
      · exact after

theorem from_of_change {f : Fleet} (kept : Kept past db.fleet) (faithful : Faithful db.fleet)
    (sound : Sound db)
    (change : FleetChange locked Undisturbed db es f) {key : NodeKey} {n : Node}
    (row : f.nodes.lookup key = some n) : From db.fleet f es key n := by
  have jobs := jobsFrom_of_change sound.numbered change
  have same : ∀ {g : Fleet}, JobsFrom db.fleet g → g.policies = db.fleet.policies →
      db.fleet.nodes.lookup key = some n → From db.fleet g [] key n := fun jobs policies before =>
    .inr ⟨n, before, Fate.kept kept before jobs ⟨rfl, rfl⟩ id ⟨rfl, rfl⟩ (by rw [policies])
      fun _ => id⟩
  cases change with
  | notes => exact same jobs rfl row
  | settings => exact same jobs rfl row
  | jobs => exact same jobs rfl row
  | claimSettings => exact same jobs rfl row
  | claimJob => exact same jobs rfl row
  | drain => exact same jobs rfl row
  | cleanup => exact same jobs rfl row
  | remove mode held known draining => exact same jobs rfl (Table.lookup_keep.mp row).1
  | @writeSettings s r settings held listed sent valid =>
    refine From.at_key _ _ kept jobs
      (NodeSettingsExecutor.lookup_applied db.fleet s settings r.awgPort key) rfl ?_ ?_ row
    · intro other before after
      rw [cleaned_other other] at after
      · exact after
      · intro e inside
        exact .inr ⟨_, _, List.mem_singleton.mp inside⟩
    · intro m found
      exact fate_of_write kept sound.exclusive
        (faithful.settings s listed (Status.pending_of_held sent)) listed sent valid found rfl rfl
  | @finishJob j r settings installations held listed sent allowed action valid =>
    refine From.at_key _ _ kept jobs
      (NodeOperations.lookup_completed db.fleet j settings r.awgPort key) rfl ?_ ?_ row
    · intro other before after
      rw [cleaned_other other] at after
      · exact after
      · intro e inside
        unfold NodeOperations.confirmations at inside
        split at inside
        · exact .inl ⟨_, List.mem_singleton.mp inside⟩
        · split at inside
          · exact .inr ⟨_, _, List.mem_singleton.mp inside⟩
          · cases inside
    · intro m found
      exact fate_of_finish kept (faithful.jobs j listed (Status.pending_of_held sent)) listed sent
        action allowed valid found jobs rfl
  | @create fresh protocols transports settings draw unused unfenced =>
    change (db.fleet.nodes.put fresh _).lookup key = some n at row
    rw [Table.lookup_put] at row
    split at row
    next is =>
      cases row
      rw [is]
      exact .inl ⟨unused, rfl, rfl, rfl, Filled.of_defaults rfl⟩
    next => exact same jobs rfl row
  | @edit edited node protocols transports settings draws found pending valid =>
    refine From.at_key edited (fun _ => NodeService.edited node
      (node.settings.protocolDefaults draws.1 node.protocols) protocols transports
      (settings.protocolDefaults draws.2 protocols)) kept jobs ?_ rfl (fun _ _ => id) ?_ row
    · change (db.fleet.nodes.put edited _).lookup key = _
      rw [Table.lookup_put, found, Option.map_some]
    · intro m before
      rw [found] at before
      cases before
      have bounds := kept.bounded _ node found
      rw [kept.filled _ node found draws.1]
      unfold NodeService.edited
      dsimp only
      split
      next carried =>
        -- Nothing that runs has changed, and the revisions move on together.
        refine ⟨by dsimp only; omega, Filled.of_defaults rfl, fun _ => .inl ⟨.inl carried.2, ?_⟩, ?_⟩
        · have alike : protocols = node.protocols ∧
              settings.protocolDefaults draws.2 protocols = node.settings ∨
              node.protocols = [] ∧ protocols = [] := by
            by_contra differ
            apply carried.1
            rw [not_or] at differ
            refine ⟨?_, differ.2⟩
            by_contra nothing
            simp only [not_or, not_not] at nothing
            exact differ.1 ⟨nothing.1, nothing.2.2⟩
          rcases alike with ⟨listed, stored⟩ | ⟨empty, nothing⟩
          · exact current_same listed stored rfl
          · rw [Runtime.current, Runtime.current, empty]
            dsimp only
            rw [nothing]
            rfl
        · intro before after was
          have zero := (was after).2
          omega
      next => exact Fate.raised kept found jobs rfl (Nat.lt_succ_self _) (Filled.of_defaults rfl) id
  | policies scope value =>
    change (VpnPolicies.markNodes db.fleet scope).lookup key = some n at row
    rw [VpnPolicies.markNodes, Table.lookup_mapRows] at row
    obtain ⟨m, before, rfl⟩ := Option.map_eq_some_iff.mp row
    refine .inr ⟨m, before, ?_⟩
    split
    · exact Fate.raised kept before jobs rfl (Nat.lt_succ_self _)
        ((kept.filled _ m before).congr rfl rfl) id
    next apart =>
      exact Fate.kept kept before jobs ⟨rfl, rfl⟩ id ⟨rfl, rfl⟩ (runtimeSettings_write apart)
        fun _ => id
  | repair =>
    simp only [NodeOperations.repairRemovedRuntimeState, Table.lookup_mapRows] at row
    obtain ⟨m, before, rfl⟩ := Option.map_eq_some_iff.mp row
    have bounds := kept.bounded _ m before
    refine .inr ⟨m, before, ?_⟩
    split
    next removed =>
      refine ⟨by dsimp only; omega, (kept.filled _ m before).congr rfl rfl, ?_,
        fun _ _ _ => ⟨removed.1, rfl⟩⟩
      refine fun standing => absurd standing (kept.not_standing jobs rfl ?_)
      dsimp only
      omega
    next => exact Fate.kept kept before jobs ⟨rfl, rfl⟩ id ⟨rfl, rfl⟩ rfl fun _ => id
  | disable closed =>
    refine From.at_key _ _ kept jobs (Table.lookup_alter _ _ _ _) rfl (fun _ _ => id) ?_ row
    intro m before
    exact Fate.kept kept before jobs ⟨rfl, rfl⟩ (fun on => by cases on) ⟨rfl, rfl⟩ rfl fun _ => id
  | advance raised revision =>
    refine From.at_key _ _ kept jobs (Table.lookup_alter db.fleet.nodes raised key _) rfl
      (fun _ _ => id) ?_ row
    intro m before
    refine Fate.raised kept before jobs rfl ?_ ((kept.filled _ m before).congr rfl rfl) id
    dsimp only
    split <;> omega

theorem from_of_enqueue {f : Fleet} (kept : Kept past db.fleet) (queued : Enqueue locked db f)
    {key : NodeKey} {n : Node} (row : f.nodes.lookup key = some n) : From db.fleet f [] key n := by
  cases queued with
  | queueSettings =>
    exact .inr ⟨n, row, Fate.kept kept row (JobsFrom.refl _) ⟨rfl, rfl⟩ id ⟨rfl, rfl⟩ rfl fun _ => id⟩
  | @replaceSettings s node draw intent removed held known blocked found open_ others taken =>
    refine From.at_key s.node (fun _ => { node with
      enabled := false, desiredRevision := max node.desiredRevision s.revision + 1 }) kept
      (JobsFrom.refl _) ?_ rfl (fun _ _ => id) ?_ row
    · dsimp only
      rw [Table.lookup_put, found, Option.map_some]
    · intro m before
      rw [found] at before
      cases before
      refine Fate.raised kept found (JobsFrom.refl _) rfl ?_
        ((kept.filled _ node found).congr rfl rfl) fun on => by cases on
      dsimp only
      omega
  | @queueJob at_key node action draw intent found open_ pending settings tasks clean taken =>
    have others : ∀ {g : Fleet} {m : Node}, db.fleet.nodes.lookup key = some m →
        g.policies = db.fleet.policies → g.jobs = db.fleet.jobs ++ [⟨db.fresh, at_key, action,
          if action.invalidate then node.desiredRevision + 1 else node.desiredRevision,
          { intent with requestedRevision := node.desiredRevision }, .awaitingExecutor⟩] →
        (key = at_key → action ≠ .regenerateEntropy) → Fate db.fleet g [] key m m := by
      intro g m before policies jobs plain
      refine ⟨kept.bounded _ m before, kept.filled _ m before, ?_, fun _ after was => was after⟩
      intro standing
      refine .inl ⟨?_, current_same rfl rfl (by rw [policies])⟩
      rcases standing with equal | ⟨next, j, listed, at_node, entropy, busy, revision⟩
      · exact .inl equal
      · rw [jobs] at listed
        rcases List.mem_append.mp listed with old | new
        · exact .inr ⟨next, j, old, at_node, entropy, busy, revision⟩
        · rw [List.mem_singleton.mp new] at at_node entropy
          exact absurd entropy (plain at_node.symm)
    cases invalidates : action.invalidate with
    | false =>
      rw [invalidates] at row others
      refine .inr ⟨n, row, others row rfl rfl fun _ entropy => ?_⟩
      rw [entropy] at invalidates
      cases invalidates
    | true =>
      rw [invalidates] at row others
      change (db.fleet.nodes.put at_key _).lookup key = some n at row
      rw [Table.lookup_put] at row
      split at row
      next is =>
        cases row
        have bounds := kept.bounded _ node found
        refine .inr ⟨node, is ▸ found, ⟨?_, (kept.filled _ node found).congr rfl rfl, ?_, ?_⟩⟩
        · dsimp only
          rw [if_pos rfl]
          omega
        · intro standing
          refine .inl ⟨.inl ?_, current_same rfl rfl rfl⟩
          rcases standing with equal | ⟨next, rest⟩
          · dsimp only at equal
            rw [if_pos rfl] at equal
            omega
          · dsimp only at next
            rw [if_pos rfl] at next
            omega
        · intro before after was
          exact ⟨rfl, (was after).2⟩
      next other => exact .inr ⟨n, row, others row rfl rfl fun is => absurd is other⟩

theorem awaits_of_change {f : Fleet} (kept : Kept past db.fleet) (sound : Sound db)
    (change : FleetChange locked allow db es f) {k : Job} (listed : k ∈ f.jobs)
    (busy : k.status.pending = true) (entropy : k.action = .regenerateEntropy) : Awaits f k := by
  obtain ⟨j, member, was, shape⟩ := jobsFrom_of_change sound.numbered change k listed busy
  rcases leaves_of_change sound.exclusive change k.node with leaves | idle
  · rw [shape] at leaves entropy ⊢
    exact (kept.jobs j member was entropy).leaves leaves rfl rfl
  · rw [idle.2 k listed rfl] at busy
    cases busy

theorem awaits_of_enqueue {f : Fleet} (kept : Kept past db.fleet) (queued : Enqueue locked db f)
    {k : Job} (listed : k ∈ f.jobs) (busy : k.status.pending = true)
    (entropy : k.action = .regenerateEntropy) : Awaits f k := by
  have leaves := leaves_of_enqueue queued k.node
  have old : k ∈ db.fleet.jobs → Awaits f k := fun member =>
    (kept.jobs k member busy entropy).leaves leaves rfl rfl
  cases queued with
  | queueSettings => exact old listed
  | replaceSettings => exact old listed
  | @queueJob at_key node action draw intent found open_ pending settings tasks clean taken =>
    rcases List.mem_append.mp listed with member | new
    · exact old member
    · have shape := List.mem_singleton.mp new
      rw [shape] at entropy
      dsimp only at entropy
      subst entropy
      have bounds := kept.bounded _ node found
      rw [shape]
      have invalidates : JobAction.regenerateEntropy.invalidate = true := rfl
      rw [invalidates]
      refine ⟨?_, ?_, ?_⟩
      · dsimp only
        rw [if_pos rfl]
        omega
      · intro missing
        change (db.fleet.nodes.put at_key _).lookup at_key = none at missing
        rw [Table.lookup_put_self] at missing
        cases missing
      · intro n row
        change (db.fleet.nodes.put at_key _).lookup at_key = some n at row
        rw [Table.lookup_put_self] at row
        cases row
        exact Nat.le_refl _

/-- The rows of a fleet after a change that each come from a row before it. -/
theorem Kept.of_rows {f g : Fleet} (kept : Kept past f)
    (rows : ∀ key n, g.nodes.lookup key = some n → From f g es key n)
    (jobs : ∀ k ∈ g.jobs, k.status.pending = true → k.action = .regenerateEntropy → Awaits g k) :
    Kept (past ++ es) g where
  bounded := by
    intro key n row
    rcases rows key n row with ⟨-, -, applied, desired, -⟩ | ⟨m, -, fate⟩
    · omega
    · exact fate.bounded
  filled := by
    intro key n row
    rcases rows key n row with ⟨-, -, -, -, filled⟩ | ⟨m, -, fate⟩
    · exact filled
    · exact fate.filled
  confirmed := by
    intro key n row standing
    rcases rows key n row with ⟨missing, -, applied, desired, -⟩ | ⟨m, before, fate⟩
    · rcases standing with equal | ⟨next, k, listed, at_node, entropy, busy, revision⟩
      · omega
      · have later := (jobs k listed busy entropy).later
        omega
    · rcases fate.standing standing with ⟨old, same⟩ | ⟨revision, now⟩
      · obtain ⟨revision, seen⟩ := kept.confirmed key m before old
        exact ⟨revision, List.mem_append_left _ (same ▸ seen)⟩
      · exact ⟨revision, List.mem_append_right _ now⟩
  cleaned := by
    intro key n row clean
    rcases rows key n row with ⟨missing, off, applied, -⟩ | ⟨m, before, fate⟩
    · exact ⟨off, applied⟩
    · rw [AppliedRevisions.cleaned, List.foldl_append] at clean
      exact fate.cleaned _ clean (kept.cleaned key m before)
  jobs := jobs

theorem Kept.step (kept : Kept past db.fleet) (faithful : Faithful db.fleet) (sound : Sound db)
    (change : Change locked Undisturbed db es next) : Kept (past ++ es) next.fleet := by
  cases change with
  | access => simpa using kept
  | maintain => simpa using kept
  | record now actor profile previous scope behind covers =>
    rw [record_fleet, List.append_nil]
    exact kept
  | tasks => simpa using kept
  | claim => simpa using kept
  | enqueue queued =>
    exact kept.of_rows (fun key n row => from_of_enqueue kept queued row)
      fun k listed busy entropy => awaits_of_enqueue kept queued listed busy entropy
  | fleet change =>
    exact kept.of_rows (fun key n row => from_of_change kept faithful sound change row)
      fun k listed busy entropy => awaits_of_change kept sound change listed busy entropy

end Changes
/-! Runs. -/

theorem Kept.empty : Kept [] Db.empty.fleet where
  bounded := fun _ _ row => by cases row
  filled := fun _ _ row => by cases row
  confirmed := fun _ _ row => by cases row
  cleaned := fun _ _ row => by cases row
  jobs := fun _ listed => by cases listed

theorem cleaned_filter (key : NodeKey) (past : List Event) :
    cleaned key (past.filter Event.confirms) = cleaned key past := by
  have each (before : Bool) : (past.filter Event.confirms).foldl (cleanedAfter key) before =
      past.foldl (cleanedAfter key) before := by
    induction past generalizing before with
    | nil => rfl
    | cons e rest ih =>
      cases e <;> exact ih _
  exact each false

/-- A call of a careful run goes through changes that confirm undisturbed jobs only. -/
theorem careful_covers {s : System} (c : Call) (sound : Sound s.db) (holds : s.holder.Holds s.db)
    (cautious : (confirming s c).all (undisturbed s.db.fleet) = true) :
    System.Covers Undisturbed c.locked s (s.exec c) := by
  have direct (same : confirming s c = s.completing c) :
      System.Covers Undisturbed c.locked s (s.exec c) := by
    refine System.exec_covers c sound holds fun k found => ?_
    rw [same, found] at cautious
    exact cautious
  cases c with
  | repair r =>
    cases r with
    | resolveJob now actor id receipt changes =>
      cases receipt with
      | some r => exact direct rfl
      | none =>
        -- The retired job is superseded, and confirms nothing.
        unfold System.exec
        dsimp only
        split
        next =>
          refine System.Covers.commit sound holds fun out done => ?_
          simp only [Repair.exec, need_ok, Repair.retired] at done
          obtain ⟨j, found, ended⟩ := done
          cases ended
          exact ⟨Reaches.retireJob id, fun _ => trivial⟩
        next => exact System.Covers.refl true holds
    | _ => exact direct rfl
  | _ => exact direct rfl

theorem run_kept (calls : List Call) {s : System} {past : List Event} (sound : Sound s.db)
    (holds : s.holder.Holds s.db) (faithful : Faithful s.db.fleet)
    (kept : Kept (past.filter Event.confirms) s.db.fleet) (cautious : careful s calls = true) :
    Kept ((past ++ (run System.exec s calls).2).filter Event.confirms)
      (run System.exec s calls).1.db.fleet := by
  induction calls generalizing s past with
  | nil => simpa using kept
  | cons c rest ih =>
    rw [careful, Bool.and_eq_true] at cautious
    have covers := careful_covers c sound holds cautious.1
    have all := @Steps.history _ _ _ _ _ _
      (fun past db => Sound db ∧ Faithful db.fleet ∧ Kept past db.fleet)
      (fun held step => ⟨held.1.step step, held.2.1.step held.1 step,
        held.2.2.step held.2.1 held.1 step⟩)
      (past.filter Event.confirms) ⟨sound, faithful, kept⟩ covers.run
    rw [← List.filter_append] at all
    have later := ih all.1 covers.holds all.2.1 all.2.2 cautious.2
    rw [List.append_assoc] at later
    exact later

/-- In every run whose confirmed jobs are undisturbed: the applied revision of a node is at most the
desired one; where both agree, an agent has confirmed writing the node's present runtime settings; and
after a confirmed cleanup the node is not enabled and at applied revision zero until the next confirmed
write. -/
theorem node_revisions (calls : List Call) (cautious : careful System.start calls = true) :
    Agrees (System.history calls) (System.after calls).db.fleet := by
  have start : System.start.holder.Holds System.start.db := trivial
  have kept := @run_kept calls System.start [] Sound.empty start Faithful.empty Kept.empty cautious
  rw [List.nil_append] at kept
  refine ⟨fun key n row => (kept.bounded key n row).1, ?_, ?_⟩
  · intro key n row equal
    obtain ⟨revision, seen⟩ := kept.confirmed key n row (.inl equal)
    exact ⟨revision, List.mem_of_mem_filter seen⟩
  · intro key n row clean
    apply kept.cleaned key n row
    rw [cleaned_filter]
    exact clean

/-! A node that gets its settings and new entropy, has its runtime cleaned and is installed again. -/

def installs : List Call :=
  [.request (.createNode 0 0 "n" SelectedPort.both [.tcp] SelectedPort.host 0 []), .request (.installed "n"),
    .request (.queueSettings 0 0 "n" 1 0), .inspectNode 0 true, .prepareNode, .claimSettings true,
    .sendSettings, .finishSettings 0 0 (some ⟨"n", 1, (SelectedPort.both, SelectedPort.host.protocolDefaults 0 SelectedPort.both), none⟩) []]

def entropy : List Call :=
  [.request (.queueJob "n" .regenerateEntropy 1 none 0), .claimJob 1, .sendJob,
    .finishJob 0 0 ⟨"n", .regenerateEntropy, 2, (SelectedPort.both, SelectedPort.host), none, by decide⟩ []]

def cleans : List Call :=
  [.request (.queueJob "n" .cleanupRuntime 2 none 0), .claimJob 2, .sendJob,
    .finishJob 0 0 ⟨"n", .cleanupRuntime, 3, (SelectedPort.both, SelectedPort.host), none, by decide⟩ []]

def row (s : System) : Option (ℕ × ℕ × Bool) :=
  (s.db.fleet.nodes.lookup "n").map fun n => (n.desiredRevision, n.appliedRevision, n.enabled)

theorem node_revisions_sample :
    row (System.after (installs ++ entropy)) = some (2, 2, true) ∧
      row (System.after (installs ++ entropy ++ cleans)) = some (3, 0, false) ∧
      Agrees (System.history (installs ++ entropy ++ cleans))
        (System.after (installs ++ entropy ++ cleans)).db.fleet :=
  ⟨by decide, by decide, node_revisions (installs ++ entropy ++ cleans) (by decide)⟩

end AppliedRevisions
end Controller
end NodePlane
