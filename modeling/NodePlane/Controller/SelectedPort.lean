import NodePlane.Controller.Refinement.Calls

/-! The AWG port that an agent selects: what its confirmation makes of the node's stored settings, and
which later snapshots of the node are still accepted. -/
namespace NodePlane
namespace Controller
namespace SelectedPort
open Library

/-! What unfinished work was asked to write. -/

/-- The intent is a snapshot of the node as it stands. -/
structure Asks (policies : Policies) (key : NodeKey) (n : Node) (intent : NodeIntent) : Prop where
  protocols : intent.protocols = n.protocols
  settings : ∃ draw, intent.settings = (n.settings.protocolDefaults draw n.protocols).overlay
    (VpnPolicies.runtimeSettings policies key n.protocols)
  plain : n.settings .xrayBittorrent = none

/-- Work of a revision that is still the node's asks for the node as it stands. -/
structure Follows (f : Fleet) (key : NodeKey) (revision : ℕ) (intent : NodeIntent) : Prop where
  gone : f.nodes.lookup key = none → f.retired key = true
  behind : ∀ n, f.nodes.lookup key = some n → revision ≤ n.desiredRevision
  current : ∀ n, f.nodes.lookup key = some n → revision = n.desiredRevision →
    Asks f.policies key n intent

structure Faithful (f : Fleet) : Prop where
  settings : ∀ s ∈ f.settingsTasks, s.status.pending = true → Follows f s.node s.revision s.intent
  jobs : ∀ j ∈ f.jobs, j.status.pending = true → j.action.rebuild = true →
    Follows f j.node j.revision j.intent

/-- The node of a key keeps what is stored of it, or has a higher revision. -/
structure Leaves (f g : Fleet) (key : NodeKey) : Prop where
  retired : f.retired key = true → g.retired key = true
  gone : g.nodes.lookup key = none → f.nodes.lookup key = none ∨ g.retired key = true
  node : ∀ n, g.nodes.lookup key = some n →
    (∃ m, f.nodes.lookup key = some m ∧ (m.desiredRevision < n.desiredRevision ∨
      n.desiredRevision = m.desiredRevision ∧ n.settings = m.settings ∧ n.protocols = m.protocols ∧
      VpnPolicies.runtimeSettings g.policies key n.protocols =
        VpnPolicies.runtimeSettings f.policies key n.protocols)) ∨
    f.nodes.lookup key = none ∧ f.retired key = false

theorem Follows.kept {f g : Fleet} {key : NodeKey} {revision : ℕ} {intent : NodeIntent}
    (follows : Follows f key revision intent) (leaves : Leaves f g key) :
    Follows g key revision intent where
  gone := by
    intro missing
    rcases leaves.gone missing with before | retired
    · exact leaves.retired (follows.gone before)
    · exact retired
  behind := by
    intro n row
    rcases leaves.node n row with ⟨m, before, raised | ⟨same, -⟩⟩ | ⟨before, unfenced⟩
    · exact Nat.le_trans (follows.behind m before) (Nat.le_of_lt raised)
    · rw [same]
      exact follows.behind m before
    · rw [follows.gone before] at unfenced
      cases unfenced
  current := by
    intro n row now
    rcases leaves.node n row with ⟨m, before, raised | ⟨same, settings, protocols, values⟩⟩ |
      ⟨before, unfenced⟩
    · have older := follows.behind m before
      omega
    · obtain ⟨asked, ⟨draw, given⟩, plain⟩ := follows.current m before (now.trans same)
      refine ⟨asked.trans protocols.symm, ⟨draw, ?_⟩, by rw [settings, plain]⟩
      rw [values, settings, protocols]
      exact given
    · rw [follows.gone before] at unfenced
      cases unfenced

theorem Leaves.refl (f : Fleet) (key : NodeKey) : Leaves f f key where
  retired := id
  gone := .inl
  node := fun n row => .inl ⟨n, row, .inr ⟨rfl, rfl, rfl, rfl⟩⟩

/-- A node's row changes where another is left alone. -/
theorem Leaves.at_key {f g : Fleet} {k : NodeKey} (key : NodeKey) (h : Node → Node)
    (shape : g.nodes.lookup k = if k = key then (f.nodes.lookup key).map h else f.nodes.lookup k)
    (policies : g.policies = f.policies) (retirements : g.retirements = f.retirements)
    (changed : k = key → ∀ m, f.nodes.lookup key = some m → m.desiredRevision < (h m).desiredRevision ∨
      (h m).desiredRevision = m.desiredRevision ∧ (h m).settings = m.settings ∧
        (h m).protocols = m.protocols) : Leaves f g k where
  retired := by
    unfold Fleet.retired
    rw [retirements]
    exact id
  gone := by
    intro missing
    left
    rw [shape] at missing
    split at missing
    next same =>
      rw [same]
      exact Option.map_eq_none_iff.mp missing
    next => exact missing
  node := by
    intro n row
    left
    rw [shape] at row
    split at row
    next same =>
      obtain ⟨m, before, rfl⟩ := Option.map_eq_some_iff.mp row
      refine ⟨m, by rw [same, before], ?_⟩
      rcases changed same m before with raised | ⟨desired, settings, protocols⟩
      · exact .inl raised
      · exact .inr ⟨desired, settings, protocols, by rw [policies]⟩
    next => exact ⟨n, row, .inr ⟨rfl, rfl, rfl, by rw [policies]⟩⟩

/-- A policy change that does not mark a node leaves its runtime values alone. -/
theorem runtimeSettings_write {f : Fleet} {scope : Option NodeKey} {value : Option Bittorrent}
    {key : NodeKey} {protocols : List Protocol}
    (apart : ¬((scope = none ∧ (f.policies.nodes.lookup key).isNone = true ∨ scope = some key) ∧
      .xray ∈ protocols)) :
    VpnPolicies.runtimeSettings (VpnPolicies.write f.policies scope value) key protocols =
      VpnPolicies.runtimeSettings f.policies key protocols := by
  by_cases runs : Protocol.xray ∈ protocols
  · have hidden : ¬(scope = none ∧ (f.policies.nodes.lookup key).isNone = true ∨ scope = some key) :=
      fun marked => apart ⟨marked, runs⟩
    have same : VpnPolicies.effective (VpnPolicies.write f.policies scope value) key =
        VpnPolicies.effective f.policies key := by
      cases scope with
      | none =>
        obtain ⟨own, held⟩ : ∃ own, f.policies.nodes.lookup key = some own := by
          cases held : f.policies.nodes.lookup key with
          | none => exact absurd (.inl ⟨rfl, by rw [held]; rfl⟩) hidden
          | some own => exact ⟨own, rfl⟩
        simp [VpnPolicies.effective, VpnPolicies.write, held]
      | some other =>
        have differs : key ≠ other := fun is => hidden (.inr (by rw [is]))
        have row : (VpnPolicies.write f.policies (some other) value).nodes.lookup key =
            f.policies.nodes.lookup key := by
          cases value with
          | some v => exact Table.lookup_put_ne v differs
          | none =>
            apply Option.ext
            intro own
            rw [VpnPolicies.write, Table.lookup_keep]
            simp [differs]
        rw [VpnPolicies.effective, VpnPolicies.effective, row]
        rfl
    rw [VpnPolicies.runtimeSettings, VpnPolicies.runtimeSettings, same]
  · rw [VpnPolicies.runtimeSettings, VpnPolicies.runtimeSettings, if_neg fun h => runs h.1,
      if_neg fun h => runs h.1]

/-- Nothing that is stored of nodes changes. -/
theorem Leaves.of_same {f g : Fleet} (key : NodeKey) (nodes : g.nodes = f.nodes)
    (policies : g.policies = f.policies) (retirements : g.retirements = f.retirements) :
    Leaves f g key := by
  apply Leaves.at_key key id _ policies retirements
  · intro _ m _
    exact .inr ⟨rfl, rfl, rfl⟩
  · rw [nodes, Option.map_id, id, ite_self]

/-- No work of the node is unfinished. -/
def Idle (f : Fleet) (key : NodeKey) : Prop :=
  (∀ s ∈ f.settingsTasks, s.node = key → s.status.pending = false) ∧
    ∀ j ∈ f.jobs, j.node = key → j.status.pending = false

section Changes
variable {locked : Bool} {allow : Fleet → Job → Prop} {db next : Db} {es : List Event}

/-- A node row is rewritten only with a higher revision, or by the work that ends. -/
theorem leaves_of_change {f : Fleet} (exclusive : Exclusive db)
    (change : FleetChange locked allow db es f) (key : NodeKey) : Leaves db.fleet f key ∨ Idle f key := by
  cases change with
  | @writeSettings s r settings held listed sent valid =>
    by_cases same : key = s.node
    · right
      constructor
      · intro t inside at_node
        obtain ⟨u, member, rfl⟩ := List.mem_map.mp inside
        split
        · rfl
        next other =>
          by_contra busy
          rw [if_neg other] at at_node
          exact other (exclusive.settings u member s listed (at_node.trans same)
            (by simpa using busy) (Status.pending_of_held sent))
      · intro j member at_node
        by_contra busy
        have clear := exclusive.jobSettings j member s listed (at_node.trans same) (by simpa using busy)
        rw [Status.pending_of_held sent] at clear
        cases clear
    · left
      exact Leaves.at_key _ _ (NodeSettingsExecutor.lookup_applied db.fleet s settings r.awgPort key)
        rfl rfl fun is => absurd is same
  | @finishJob j r settings installations held listed sent allowed action valid =>
    by_cases same : key = j.node
    · right
      constructor
      · intro s member at_node
        exact exclusive.jobSettings j listed s member (same.symm.trans at_node.symm)
          (Status.pending_of_held sent)
      · intro k inside at_node
        obtain ⟨u, member, rfl⟩ := List.mem_map.mp inside
        split
        · rfl
        next other =>
          by_contra busy
          rw [if_neg other] at at_node
          have one := exclusive.jobs u member j listed (at_node.trans same) (by simpa using busy)
            (Status.pending_of_held sent)
          exact other (by simpa using one)
    · left
      exact Leaves.at_key _ _ (NodeOperations.lookup_completed db.fleet j settings r.awgPort key)
        rfl rfl fun is => absurd is same
  | @create fresh protocols transports settings draw unused unfenced =>
    left
    refine ⟨id, ?_, ?_⟩
    · intro missing
      dsimp only at missing
      rw [Table.lookup_put] at missing
      split at missing
      · cases missing
      · exact .inl missing
    · intro n row
      dsimp only at row
      rw [Table.lookup_put] at row
      split at row
      next same =>
        rw [same]
        exact .inr ⟨unused, unfenced⟩
      next => exact .inl ⟨n, row, .inr ⟨rfl, rfl, rfl, rfl⟩⟩
  | @edit edited node protocols transports settings draws found jobs valid =>
    left
    refine Leaves.at_key edited (fun _ => NodeService.edited node
      (node.settings.protocolDefaults draws.1 node.protocols) protocols transports
      (settings.protocolDefaults draws.2 protocols)) ?_ rfl rfl ?_
    · rw [Table.lookup_put, found, Option.map_some]
    · intro _ m before
      rw [found] at before
      cases before
      exact .inl (Nat.lt_succ_self _)
  | policies scope value =>
    left
    refine ⟨id, ?_, ?_⟩
    · intro missing
      change (VpnPolicies.markNodes db.fleet scope).lookup key = none at missing
      rw [VpnPolicies.markNodes, Table.lookup_mapRows] at missing
      exact .inl (Option.map_eq_none_iff.mp missing)
    · intro n row
      change (VpnPolicies.markNodes db.fleet scope).lookup key = some n at row
      rw [VpnPolicies.markNodes, Table.lookup_mapRows] at row
      obtain ⟨m, before, rfl⟩ := Option.map_eq_some_iff.mp row
      refine .inl ⟨m, before, ?_⟩
      split
      · exact .inl (Nat.lt_succ_self _)
      next apart => exact .inr ⟨rfl, rfl, rfl, runtimeSettings_write apart⟩
  | repair =>
    left
    refine ⟨id, ?_, ?_⟩
    · intro missing
      simp only [NodeOperations.repairRemovedRuntimeState, Table.lookup_mapRows] at missing
      exact .inl (Option.map_eq_none_iff.mp missing)
    · intro n row
      simp only [NodeOperations.repairRemovedRuntimeState, Table.lookup_mapRows] at row
      obtain ⟨m, before, rfl⟩ := Option.map_eq_some_iff.mp row
      refine .inl ⟨m, before, .inr ?_⟩
      split <;> exact ⟨rfl, rfl, rfl, rfl⟩
  | disable closed =>
    left
    exact Leaves.at_key _ _ (Table.lookup_alter _ _ _ _) rfl rfl fun _ m _ => .inr ⟨rfl, rfl, rfl⟩
  | @remove removed mode held known draining =>
    left
    refine ⟨?_, ?_, ?_⟩
    · intro retired
      change ((db.fleet.retirements.put removed mode).lookup key).isSome = true
      rw [Table.lookup_put]
      split
      · rfl
      · exact retired
    · intro missing
      by_cases same : key = removed
      · right
        change ((db.fleet.retirements.put removed mode).lookup key).isSome = true
        rw [same, Table.lookup_put_self]
        rfl
      · left
        cases before : db.fleet.nodes.lookup key with
        | none => rfl
        | some n =>
          have kept : (NodeLifecycle.remove db.fleet removed mode).nodes.lookup key = some n :=
            Table.lookup_keep.mpr ⟨before, by simpa using same⟩
          rw [missing] at kept
          cases kept
    · intro n row
      exact .inl ⟨n, (Table.lookup_keep.mp row).1, .inr ⟨rfl, rfl, rfl, rfl⟩⟩
  | advance raised revision =>
    left
    refine Leaves.at_key raised _ (Table.lookup_alter db.fleet.nodes raised key _) rfl rfl ?_
    intro _ m _
    left
    dsimp only
    split
    · exact Nat.lt_succ_self _
    · omega
  | notes => exact .inl (Leaves.of_same key rfl rfl rfl)
  | settings => exact .inl (Leaves.of_same key rfl rfl rfl)
  | jobs => exact .inl (Leaves.of_same key rfl rfl rfl)
  | claimSettings => exact .inl (Leaves.of_same key rfl rfl rfl)
  | claimJob => exact .inl (Leaves.of_same key rfl rfl rfl)
  | drain => exact .inl (Leaves.of_same key rfl rfl rfl)
  | cleanup => exact .inl (Leaves.of_same key rfl rfl rfl)

theorem asks_of_snapshot {f : Fleet} {draw : ℕ} {key : NodeKey} {n : Node} {intent : NodeIntent}
    (taken : NodeSettings.snapshot draw f key n = .ok intent) : Asks f.policies key n intent := by
  simp only [NodeSettings.snapshot, deny_ok, Except.ok.injEq] at taken
  obtain ⟨-, valid, rfl⟩ := taken
  refine ⟨rfl, ⟨draw, rfl⟩, ?_⟩
  rw [Settings.invalid, Bool.or_eq_false_iff] at valid
  have absent := Option.isSome_eq_false_iff.mp valid.1
  rw [Option.isNone_iff_eq_none, Settings.protocolDefaults, Option.or_eq_none_iff] at absent
  exact absent.1

/-- A new row asks for the node as it stands. -/
theorem follows_of_snapshot {f g : Fleet} {draw : ℕ} {key : NodeKey} {n m : Node}
    {intent asked : NodeIntent} (taken : NodeSettings.snapshot draw f key n = .ok intent)
    (row : g.nodes.lookup key = some m) (policies : g.policies = f.policies)
    (settings : m.settings = n.settings) (protocols : m.protocols = n.protocols)
    (same : asked.settings = intent.settings) (also : asked.protocols = intent.protocols) :
    Follows g key m.desiredRevision asked where
  gone := by
    intro missing
    rw [row] at missing
    cases missing
  behind := by
    intro p found
    rw [row] at found
    cases found
    exact Nat.le_refl _
  current := by
    intro p found _
    rw [row] at found
    cases found
    obtain ⟨listed, ⟨draw', given⟩, plain⟩ := asks_of_snapshot taken
    refine ⟨also.trans (listed.trans protocols.symm), ⟨draw', ?_⟩, by rw [settings, plain]⟩
    rw [same, given, settings, protocols, policies]

theorem leaves_of_enqueue {f : Fleet} (queued : Enqueue locked db f) (key : NodeKey) :
    Leaves db.fleet f key := by
  cases queued with
  | queueSettings => exact Leaves.of_same key rfl rfl rfl
  | @replaceSettings s node draw intent removed held row blocked found open_ others taken =>
    refine Leaves.at_key s.node (fun _ => { node with
      enabled := false, desiredRevision := max node.desiredRevision s.revision + 1 }) ?_ rfl rfl ?_
    · dsimp only
      rw [Table.lookup_put, found, Option.map_some]
    · intro _ m before
      rw [found] at before
      cases before
      left
      dsimp only
      omega
  | @queueJob at_key node action draw intent found open_ jobs settings tasks clean taken =>
    cases invalidates : action.invalidate with
    | false => exact Leaves.of_same key rfl rfl rfl
    | true =>
      refine Leaves.at_key at_key (fun _ => { node with
        enabled := false, desiredRevision := node.desiredRevision + 1 }) ?_ rfl rfl ?_
      · dsimp only
        rw [if_pos rfl, if_pos rfl, Table.lookup_put, found, Option.map_some]
      · intro _ m before
        rw [found] at before
        cases before
        exact .inl (Nat.lt_succ_self _)

/-- Work that was asked for before asks for the same afterwards. -/
theorem Faithful.of_rows {f g : Fleet} (faithful : Faithful f)
    (leaves : ∀ key, Leaves f g key ∨ Idle g key)
    (settings : ∀ t ∈ g.settingsTasks, t.status.pending = true → Follows g t.node t.revision t.intent ∨
      ∃ s ∈ f.settingsTasks, s.status.pending = true ∧ t = { s with status := t.status })
    (jobs : ∀ k ∈ g.jobs, k.status.pending = true → k.action.rebuild = true →
      Follows g k.node k.revision k.intent ∨
      ∃ j ∈ f.jobs, j.status.pending = true ∧ k = { j with status := k.status }) : Faithful g where
  settings := by
    intro t listed busy
    rcases settings t listed busy with new | ⟨s, member, was, shape⟩
    · exact new
    rcases leaves t.node with left' | idle
    · rw [shape] at left' ⊢
      exact (faithful.settings s member was).kept left'
    · rw [idle.1 t listed rfl] at busy
      cases busy
  jobs := by
    intro k listed busy rebuilds
    rcases jobs k listed busy rebuilds with new | ⟨j, member, was, shape⟩
    · exact new
    rcases leaves k.node with left' | idle
    · rw [shape] at left' rebuilds ⊢
      exact (faithful.jobs j member was rebuilds).kept left'
    · rw [idle.2 k listed rfl] at busy
      cases busy

theorem Faithful.enqueue {f : Fleet} (faithful : Faithful db.fleet) (queued : Enqueue locked db f) :
    Faithful f := by
  have leaves := leaves_of_enqueue queued
  refine faithful.of_rows (fun key => .inl (leaves key)) ?_ ?_
  · intro t listed busy
    cases queued with
    | @queueSettings key node draw intent removed row open_ jobs settings taken =>
      rcases List.mem_append.mp listed with old | new
      · exact .inr ⟨t, old, busy, rfl⟩
      · left
        rw [List.mem_singleton.mp new]
        exact follows_of_snapshot taken row rfl rfl rfl rfl rfl
    | @replaceSettings s node draw intent removed held row blocked found open_ others taken =>
      rcases List.mem_append.mp listed with old | new
      · obtain ⟨u, member, rfl⟩ := List.mem_map.mp old
        split at busy
        · cases busy
        next other =>
          rw [if_neg other]
          exact .inr ⟨u, member, busy, rfl⟩
      · left
        rw [List.mem_singleton.mp new]
        exact follows_of_snapshot (m := { node with
          enabled := false, desiredRevision := max node.desiredRevision s.revision + 1 })
          taken (Table.lookup_put_self _ _ _) rfl rfl rfl rfl rfl
    | queueJob => exact .inr ⟨t, listed, busy, rfl⟩
  · intro k listed busy rebuilds
    cases queued with
    | queueSettings => exact .inr ⟨k, listed, busy, rfl⟩
    | replaceSettings => exact .inr ⟨k, listed, busy, rfl⟩
    | @queueJob key node action draw intent found open_ jobs settings tasks clean taken =>
      rcases List.mem_append.mp listed with old | new
      · exact .inr ⟨k, old, busy, rfl⟩
      · left
        have shape := List.mem_singleton.mp new
        have rebuild : action.rebuild = true := by
          rw [shape] at rebuilds
          exact rebuilds
        have writes : NodeSettings.snapshot draw db.fleet key node = .ok intent := by
          rw [NodeOperations.snapshot, if_neg] at taken
          · exact taken
          · rintro (rfl | rfl | rfl) <;> cases rebuild
        have invalidates : action.invalidate = true := by
          cases action <;> first | rfl | cases rebuild
        rw [shape]
        dsimp only
        rw [if_pos invalidates, if_pos invalidates]
        exact follows_of_snapshot (m := { node with
          enabled := false, desiredRevision := node.desiredRevision + 1 })
          writes (Table.lookup_put_self _ _ _) rfl rfl rfl rfl rfl

theorem Faithful.step (faithful : Faithful db.fleet) (sound : Sound db)
    (change : Change locked allow db es next) : Faithful next.fleet := by
  cases change with
  | access => exact faithful
  | maintain => exact faithful
  | record now actor profile previous scope behind covers =>
    rw [record_fleet]
    exact faithful
  | tasks => exact faithful
  | claim => exact faithful
  | enqueue queued => exact faithful.enqueue queued
  | fleet change =>
    obtain ⟨g, settings, moved⟩ := change.settings_map sound.numbered
    obtain ⟨h, jobs, movedToo⟩ := change.job_map sound.numbered
    refine faithful.of_rows (leaves_of_change sound.exclusive change) ?_ ?_
    · intro t listed busy
      rw [settings] at listed
      obtain ⟨s, member, rfl⟩ := List.mem_map.mp listed
      exact .inr ⟨s, member, (moved s member).pending busy, (moved s member).shape⟩
    · intro k listed busy _
      rw [jobs] at listed
      obtain ⟨j, member, rfl⟩ := List.mem_map.mp listed
      exact .inr ⟨j, member, (movedToo j member).pending busy, (movedToo j member).shape⟩

end Changes

theorem Faithful.empty : Faithful Db.empty.fleet := ⟨by simp [Db.empty], by simp [Db.empty]⟩

/-- Unfinished work of a run asks for the nodes as they stand. -/
theorem after_faithful (calls : List Call) : Faithful (System.after calls).db.fleet := by
  have whole : (Sound (System.after calls).db ∧
      (System.after calls).holder.Holds (System.after calls).db) ∧
      Faithful (System.after calls).db.fleet := by
    refine @run_invariant _ _ _ System.exec
      (fun _ s => (Sound s.db ∧ s.holder.Holds s.db) ∧ Faithful s.db.fleet) ?_ [] System.start
      ⟨⟨Sound.empty, trivial⟩, Faithful.empty⟩ calls
    rintro _ s c ⟨⟨sound, holds⟩, faithful⟩
    have covers : System.Covers (fun _ _ => True) c.locked s (s.exec c) :=
      System.exec_covers c sound holds fun _ _ => trivial
    have both : Sound (s.exec c).1.db ∧ Faithful (s.exec c).1.db.fleet :=
      @Steps.invariant _ _ _ _ _ _ (fun db => Sound db ∧ Faithful db.fleet)
        (fun held step => ⟨held.1.step step, held.2.step held.1 step⟩) ⟨sound, faithful⟩ covers.run
    exact ⟨⟨both.1, covers.holds⟩, both.2⟩
  exact whole.2

/-! What a confirmation with a port leaves, and what is accepted later. -/

/-- A snapshot of a node with these settings is accepted, whatever the policies say. -/
def Accepted (stored : Settings × List Protocol) : Prop :=
  ∀ draw f key n, n.settings = stored.1 → n.protocols = stored.2 →
    ∃ intent, NodeSettings.snapshot draw f key n = .ok intent

/-- The settings and the protocols of a node after an edit. -/
def edit (stored : Settings × List Protocol) (e : NodeService.Edit × ℕ × ℕ) :
    Settings × List Protocol :=
  let previous := stored.1.protocolDefaults e.2.1 stored.2
  let protocols := e.1.protocols.getD stored.2
  (((e.1.settings.map previous.merge).getD previous).protocolDefaults e.2.2 protocols, protocols)

/-- Only the port changes: other fields stay or are filled in with their defaults, no value of a policy
becomes the node's own, and what was accepted after any edits still is. -/
structure Keeps (before : Node) (after : Settings) : Prop where
  port : ∀ f, f ≠ .awgPort → after f = before.settings f ∨
    before.settings f = none ∧ after f = Settings.defaults 0 before.settings before.protocols f
  policy : after .xrayBittorrent = before.settings .xrayBittorrent
  later : ∀ edits : List (NodeService.Edit × ℕ × ℕ),
    Accepted (edits.foldl edit (before.settings, before.protocols)) →
      Accepted (edits.foldl edit (after, before.protocols))

/-- What the acceptance of a snapshot depends on. -/
structure Alike (s t : Settings) : Prop where
  host : s .publicHost = t .publicHost
  policy : s .xrayBittorrent = t .xrayBittorrent
  tcp : (s .xrayTcpPort).getD (.port 443) = (t .xrayTcpPort).getD (.port 443)
  xhttp : (s .xrayXhttpPort).getD (.port 8443) = (t .xrayXhttpPort).getD (.port 8443)

theorem Alike.defaults {s t : Settings} (alike : Alike s t) (draw next : ℕ)
    (protocols : List Protocol) :
    Alike (s.protocolDefaults draw protocols) (t.protocolDefaults next protocols) where
  host := by simp [Settings.protocolDefaults, Settings.defaults, alike.host]
  policy := by simp [Settings.protocolDefaults, Settings.defaults, alike.policy]
  tcp := by
    have same := alike.tcp
    revert same
    simp only [Settings.protocolDefaults, Settings.defaults]
    cases s .xrayTcpPort <;> cases t .xrayTcpPort <;> split <;> simp_all
  xhttp := by
    have same := alike.xhttp
    revert same
    simp only [Settings.protocolDefaults, Settings.defaults]
    cases s .xrayXhttpPort <;> cases t .xrayXhttpPort <;> split <;> simp_all

/-- On the fields that no rule of its own touches, a merge takes the changes over what was. -/
theorem merge_plain {s changes : Settings} {f : Field} (host : f ≠ .xrayHost) (awg : f ≠ .awgPublicHost)
    (mode : f ≠ .awgPortMode) (port : f ≠ .awgPort) : s.merge changes f = (changes f).or (s f) := by
  simp only [Settings.merge]
  split <;> split <;> simp [Settings.set, Settings.overlay, host, awg, mode, port]

theorem Alike.merge {s t : Settings} (alike : Alike s t) (changes : Settings) :
    Alike (s.merge changes) (t.merge changes) where
  host := by
    rw [merge_plain, merge_plain, alike.host] <;> decide
  policy := by
    rw [merge_plain, merge_plain, alike.policy] <;> decide
  tcp := by
    rw [merge_plain, merge_plain]
    · cases changes .xrayTcpPort with
      | some v => rfl
      | none => exact alike.tcp
    all_goals decide
  xhttp := by
    rw [merge_plain, merge_plain]
    · cases changes .xrayXhttpPort with
      | some v => rfl
      | none => exact alike.xhttp
    all_goals decide

theorem Alike.edits {s t : Settings} (alike : Alike s t) (protocols : List Protocol)
    (edits : List (NodeService.Edit × ℕ × ℕ)) :
    Alike (edits.foldl edit (s, protocols)).1 (edits.foldl edit (t, protocols)).1 ∧
      (edits.foldl edit (s, protocols)).2 = (edits.foldl edit (t, protocols)).2 := by
  induction edits generalizing s t protocols with
  | nil => exact ⟨alike, rfl⟩
  | cons e rest ih =>
    have filled := alike.defaults e.2.1 e.2.1 protocols
    apply ih
    dsimp only
    cases e.1.settings with
    | none => exact filled.defaults e.2.2 e.2.2 _
    | some changes => exact (filled.merge changes).defaults e.2.2 e.2.2 _

/-- When a snapshot is accepted. -/
theorem accepted_iff {s : Settings} {protocols : List Protocol} :
    Accepted (s, protocols) ↔ (protocols ≠ [] → (s .publicHost).isSome = true) ∧
      s .xrayBittorrent = none ∧ (.xray ∈ protocols →
        (s .xrayTcpPort).getD (.port 443) ≠ (s .xrayXhttpPort).getD (.port 8443)) := by
  have each (draw : ℕ) : ((s.protocolDefaults draw protocols).incomplete protocols = false ∧
      (s.protocolDefaults draw protocols).invalid protocols = false) ↔
      (protocols ≠ [] → (s .publicHost).isSome = true) ∧ s .xrayBittorrent = none ∧
        (.xray ∈ protocols →
          (s .xrayTcpPort).getD (.port 443) ≠ (s .xrayXhttpPort).getD (.port 8443)) := by
    by_cases xray : Protocol.xray ∈ protocols
    · have some_ : protocols ≠ [] := List.ne_nil_of_mem xray
      by_cases awg : Protocol.awg ∈ protocols <;>
        simp [Settings.incomplete, Settings.invalid, Settings.protocolDefaults, Settings.defaults, xray,
          awg, some_, Option.or_some, Option.isSome_iff_ne_none]
    · by_cases awg : Protocol.awg ∈ protocols <;>
        simp [Settings.incomplete, Settings.invalid, Settings.protocolDefaults, Settings.defaults, xray,
          awg, Option.isSome_iff_ne_none]
  constructor
  · intro accepted
    obtain ⟨intent, taken⟩ := accepted 0 Db.empty.fleet "" ⟨false, protocols, [], s, 0, 0⟩ rfl rfl
    simp only [NodeSettings.snapshot, deny_ok] at taken
    exact (each 0).mp ⟨taken.1, taken.2.1⟩
  · rintro fine draw f key n rfl rfl
    obtain ⟨complete, valid⟩ := (each draw).mpr fine
    unfold NodeSettings.snapshot
    dsimp only
    rw [complete, valid]
    exact ⟨_, rfl⟩

theorem Alike.accepted {s t : Settings} {protocols : List Protocol} (alike : Alike s t)
    (accepted : Accepted (s, protocols)) : Accepted (t, protocols) := by
  rw [accepted_iff] at accepted ⊢
  rw [← alike.host, ← alike.policy, ← alike.tcp, ← alike.xhttp]
  exact accepted

/-- The two hosts of what a settings task and a node job leave of the settings. -/
theorem keeps_iff {policies : Policies} {key : NodeKey} {node : Node} {intent : NodeIntent}
    {settings : Settings} {selected : ℕ} (asks : Asks policies key node intent)
    (effective : NodeSettings.effectivePort intent (some selected) = some settings) :
    Keeps node settings ↔
      ¬(.xray ∈ node.protocols ∧ VpnPolicies.effective policies key ≠ .allow) := by
  obtain ⟨listed, ⟨draw, given⟩, plain⟩ := asks
  have written : settings = intent.settings.set .awgPort (.port selected) := by
    unfold NodeSettings.effectivePort at effective
    dsimp only at effective
    split at effective
    · split at effective
      · exact (Option.some.inj effective).symm
      · cases effective
    · cases effective
  have field (f : Field) (other : f ≠ .awgPort) : settings f =
      (VpnPolicies.runtimeSettings policies key node.protocols f).or
        ((node.settings f).or (Settings.defaults 0 node.settings node.protocols f)) := by
    have drawn : Settings.defaults draw node.settings node.protocols f =
        Settings.defaults 0 node.settings node.protocols f := by
      cases f <;> first | rfl | exact absurd rfl other
    rw [written, Settings.set, if_neg other, given, Settings.overlay, Settings.protocolDefaults, drawn]
  constructor
  · rintro ⟨-, kept, -⟩ resolved
    have value := field .xrayBittorrent (by decide)
    rw [VpnPolicies.runtimeSettings, if_pos resolved] at value
    rw [kept, plain] at value
    cases value
  · intro resolved
    have plainField (f : Field) (other : f ≠ .awgPort) : settings f =
        (node.settings f).or (Settings.defaults 0 node.settings node.protocols f) := by
      have value := field f other
      rw [VpnPolicies.runtimeSettings, if_neg resolved] at value
      exact value
    have alike : Alike node.settings settings := by
      refine ⟨?_, ?_, ?_, ?_⟩
      · rw [plainField _ (by decide)]
        simp [Settings.defaults]
      · rw [plainField _ (by decide)]
        simp [Settings.defaults]
      · rw [plainField _ (by decide), Settings.defaults]
        cases node.settings .xrayTcpPort <;> split <;> rfl
      · rw [plainField _ (by decide), Settings.defaults]
        cases node.settings .xrayXhttpPort <;> split <;> rfl
    refine ⟨?_, ?_, ?_⟩
    · intro f other
      rw [plainField f other]
      cases stored : node.settings f with
      | some v => exact .inl rfl
      | none => exact .inr ⟨rfl, rfl⟩
    · exact alike.policy.symm
    · intro edits accepted
      obtain ⟨same, protocols⟩ := alike.edits node.protocols edits
      have later : Accepted ((edits.foldl edit (settings, node.protocols)).1,
          (edits.foldl edit (node.settings, node.protocols)).2) := same.accepted accepted
      rw [protocols] at later
      exact later

/-- A node whose settings stay as they are keeps them. -/
theorem Keeps.refl (n : Node) : Keeps n n.settings := ⟨fun _ _ => .inl rfl, rfl, fun _ accepted => accepted⟩

/-- What work that reports a port leaves of the node's settings. -/
theorem ported_keeps_iff {f : Fleet} {key : NodeKey} {revision : ℕ} {intent : NodeIntent} {node : Node}
    {settings : Settings} {selected : ℕ} (follows : Follows f key revision intent)
    (row : f.nodes.lookup key = some node)
    (effective : NodeSettings.effectivePort intent (some selected) = some settings) :
    Keeps node (NodeSettings.ported revision settings (some selected) node).settings ↔
      ¬(node.desiredRevision = revision ∧ .xray ∈ node.protocols ∧
        VpnPolicies.effective f.policies key ≠ .allow) := by
  unfold NodeSettings.ported
  by_cases current : node.desiredRevision = revision
  · rw [if_pos ⟨rfl, current⟩, keeps_iff (follows.current node row current.symm) effective]
    simp [current]
  · rw [if_neg fun both => current both.2]
    simp [current, Keeps.refl]

theorem reconcile_fleet (db : Db) (now : Time) (actor : Uuid) (changes : List (Uuid × List Target)) :
    (GrantPolicies.reconcile db now actor changes).fleet = db.fleet := by
  have each (db : Db) (change : Uuid × List Target) :
      (GrantPolicies.refresh now actor db change).fleet = db.fleet :=
    (record_fleet _ _ _ _ _ _).trans rfl
  exact foldl_fleet each _ _

theorem resume_fleet (db : Db) (now : Time) (actor : Uuid) (node : NodeKey) :
    (ForceRecovery.resumeForcedProfileTargets db now actor node).fleet = db.fleet := by
  have each (forced : List Task) (db : Db) (profile : Uuid) :
      (ForceRecovery.resumeProfile now actor forced db profile).fleet = db.fleet :=
    (record_fleet _ _ _ _ _ _).trans rfl
  exact foldl_fleet (each _) _ _

theorem regrant_fleet (db : Db) (now : Time) (actor : Uuid) (j : Job)
    (changes : List (Uuid × List Target)) :
    (NodeOperations.regrant db now actor j changes).fleet = db.fleet := by
  have each (db : Db) (profile : Uuid) : (NodeOperations.renew now actor db profile).fleet = db.fleet :=
    (record_fleet _ _ _ _ _ _).trans rfl
  have renewed := foldl_fleet each
  unfold NodeOperations.regrant
  dsimp only
  split
  · split
    · rw [resume_fleet, renewed, reconcile_fleet]
    · rw [resume_fleet]
  · split
    · rw [renewed, reconcile_fleet]
    · rfl

/-- In every reachable state: a confirmed settings task or node job that reports a selected port changes
only the port of its node, unless the work is of the node's present revision and the node runs Xray with
a value that its policies resolve to other than the default. -/
theorem selected_port (calls : List Call) :
    (∀ s ∈ (System.after calls).db.fleet.settingsTasks, s.status.held = true →
      ∀ r settings selected node now actor changes,
        NodeSettings.validResult s.node s.revision s.intent r = some settings →
        r.awgPort = some selected → (System.after calls).db.fleet.nodes.lookup s.node = some node →
        ∃ after, (NodeSettingsExecutor.finish (System.after calls).db now actor s (some r)
            changes).1.fleet.nodes.lookup s.node = some after ∧
          (Keeps node after.settings ↔ ¬(node.desiredRevision = s.revision ∧ .xray ∈ node.protocols ∧
            VpnPolicies.effective (System.after calls).db.fleet.policies s.node ≠ .allow))) ∧
    (∀ j ∈ (System.after calls).db.fleet.jobs, j.status.held = true →
      ∀ r selected node now actor changes next events,
        NodeOperations.finish (System.after calls).db now actor j r changes = .ok (next, events) →
        r.awgPort = some selected → (System.after calls).db.fleet.nodes.lookup j.node = some node →
        ∃ after, next.fleet.nodes.lookup j.node = some after ∧
          (Keeps node after.settings ↔ ¬(node.desiredRevision = j.revision ∧ .xray ∈ node.protocols ∧
            VpnPolicies.effective (System.after calls).db.fleet.policies j.node ≠ .allow))) := by
  have faithful := after_faithful calls
  generalize (System.after calls).db = db at faithful ⊢
  constructor
  · intro s listed held r settings selected node now actor changes valid named row
    have follows := faithful.settings s listed (Status.pending_of_held held)
    have effective : NodeSettings.effectivePort s.intent (some selected) = some settings := by
      unfold NodeSettings.validResult at valid
      rw [named] at valid
      split at valid
      · cases valid
      next found =>
        split at valid
        · cases valid
          exact found
        · cases valid
    have nodes : (NodeSettingsExecutor.finish db now actor s (some r) changes).1.fleet.nodes =
        NodeSettingsExecutor.applied db.fleet s settings r.awgPort := by
      unfold NodeSettingsExecutor.finish
      rw [Option.bind_some, valid, Option.map_some]
      dsimp only
      rw [resume_fleet, reconcile_fleet]
    refine ⟨NodeSettingsExecutor.appliedNode s (db.fleet.draining s.node) settings r.awgPort node, ?_, ?_⟩
    · rw [nodes, NodeSettingsExecutor.lookup_applied, if_pos rfl, row]
      rfl
    · have same : (NodeSettingsExecutor.appliedNode s (db.fleet.draining s.node) settings r.awgPort
          node).settings = (NodeSettings.ported s.revision settings (some selected) node).settings := by
        unfold NodeSettingsExecutor.appliedNode
        rw [named]
        dsimp only
        split <;> rfl
      rw [same]
      exact ported_keeps_iff follows row effective
  · intro j listed held r selected node now actor changes next events done named row
    unfold NodeOperations.finish at done
    rw [deny_ok] at done
    obtain ⟨matched, done⟩ := done
    have action : r.action = j.action := by
      rw [Bool.or_eq_false_iff, Bool.or_eq_false_iff] at matched
      simpa using matched.1.2
    have rebuild : j.action.rebuild = true := by
      rw [← action]
      exact r.reports (by rw [named]; rfl)
    have follows := faithful.jobs j listed (Status.pending_of_held held) rebuild
    cases found : NodeOperations.find db.fleet j.id Status.held with
    | none =>
      have missing := List.find?_eq_none.mp found j listed
      simp [held] at missing
    | some k =>
      rw [found] at done
      dsimp only at done
      cases confirmed : NodeOperations.confirmed j r with
      | none =>
        rw [confirmed] at done
        cases done
      | some settings =>
        rw [confirmed] at done
        cases done
        have effective : NodeSettings.effectivePort j.intent (some selected) = some settings := by
          unfold NodeOperations.confirmed at confirmed
          rw [named] at confirmed
          split at confirmed
          · cases confirmed
          next found =>
            split at confirmed
            · cases confirmed
              exact found
            · cases confirmed
        refine ⟨NodeOperations.completedNode j settings r.awgPort node, ?_, ?_⟩
        · rw [regrant_fleet]
          dsimp only
          rw [NodeOperations.lookup_completed, if_pos rfl, row]
          rfl
        · have same : (NodeOperations.completedNode j settings r.awgPort node).settings =
              (NodeSettings.ported j.revision settings (some selected) node).settings := by
            unfold NodeOperations.completedNode
            rw [named]
            dsimp only
            split
            · rfl
            · split
              · rfl
              · split <;> rfl
          rw [same]
          exact ported_keeps_iff follows row effective

/-! A node of both protocols, a bittorrent policy for the installation, and an agent that selects
another port. -/

def both : List Protocol := [.awg, .xray]

def host : Settings := Settings.empty.set .publicHost (.text "h")

def sent : List Call :=
  [.request (.createNode 0 0 "n" both [.tcp] host 0 []), .request (.installed "n"),
    .request (.setPolicies [(none, some .block)]), .request (.queueSettings 0 0 "n" 2 0),
    .inspectNode 0 true, .prepareNode, .claimSettings true, .sendSettings]

def receipt : NodeSettings.Receipt :=
  ⟨"n", 2, (both, ((host.protocolDefaults 0 both).overlay
    (Settings.empty.set .xrayBittorrent (.text "block"))).set .awgPort (.port 8443)), some 8443⟩

/-- Whether a snapshot of the node is accepted, and the node's own bittorrent setting. -/
def snapshots (s : System) : Option (Bool × Option Value) :=
  (s.db.fleet.nodes.lookup "n").map fun n =>
    ((NodeSettings.snapshot 0 s.db.fleet "n" n).isOk, n.settings .xrayBittorrent)

/-- The policy's value becomes the node's own, and no snapshot of the node is accepted any more. -/
theorem policy_value_stored :
    snapshots (System.after sent) = some (true, none) ∧
      snapshots (System.after (sent ++ [.finishSettings 0 0 (some receipt) []])) =
        some (false, some (.text "block")) := by decide

end SelectedPort
end Controller
end NodePlane
