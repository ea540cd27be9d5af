import NodePlane.Controller.TrafficRange

/-! The split by inbound beside the totals, through baseline adoption and accepted
observations. -/
namespace NodePlane
namespace Traffic
open Library

/-- One row of `_adopt_baselines`: a device without a row gets the usage row's last counters. -/
def Db.adopt (db : Db) (key : Key) (row : Usage) (device : ℕ) : Db :=
  if (db.peers.lookup (key, device)).isSome then db
  else
    let peer : Peer := ⟨row.baseline, ∅, row.lastSampleAt, none, row.status⟩
    { db with peers := db.peers.put (key, device) peer }

/-- `_adopt_baselines`; `originals` are the devices under the profile's own runtime name. -/
def Db.adoptBaselines (db : Db) (originals : Key → List ℕ) : Db :=
  db.usage.rows.foldl (fun db row => (originals row.1).foldl (fun db => db.adopt row.1 row.2) db) db

/-- What the traffic service does to its store. -/
inductive Event
  | adopt (originals : Key → List ℕ)
  | observe (answer : Answer)

/-- An observation that the checks refuse is a missing one to `_record`. -/
def Db.next (stale : String → String) (db : Db) : Event → Db
  | .adopt originals => db.adoptBaselines originals
  | .observe answer =>
    record stale db answer.recorded.target answer.recorded.observation answer.recorded.timestamp

def Db.history (stale : String → String) (db : Db) (events : List Event) : Db :=
  events.foldl (Db.next stale) db

/-- The split sums to these totals. -/
def SplitOf (inbounds : BTreeMap String Bytes) (up down : ℕ) : Prop :=
  sumValues Prod.fst inbounds = up ∧ sumValues Prod.snd inbounds = down

/-- The per-inbound counters of the device's last reading are in this one, none smaller. -/
def Grows (last observed : BTreeMap String Bytes) : Prop :=
  ∀ (name : String) (before : Bytes), last[name]? = some before →
    ∃ values, observed[name]? = some values ∧ before.1 ≤ values.1 ∧ before.2 ≤ values.2

/-- The readings that an Xray agent gives: bytes come with their split, and within a run the
per-inbound counters grow from those of the device's last reading. -/
structure OfXray (db : Db) (target : Target) (observation : Observation) : Prop where
  split : observation.inbounds = ∅ →
    observation.reading.uplink = 0 ∧ observation.reading.downlink = 0
  grows : ∀ peer last, db.peers.lookup (target.key, target.device) = some peer →
    peer.baseline = some last → sameRun last observation.reading = true →
      Grows peer.lastInbounds observation.inbounds
  /-- The run does not go on from counters that were adopted without their split. -/
  ownBaseline : ∀ peer last, db.peers.lookup (target.key, target.device) = some peer →
    peer.baseline = some last → sameRun last observation.reading = true →
      peer.lastInbounds = ∅ → last.uplink = 0 ∧ last.downlink = 0

/-- What a counted observation keeps to: an Xray reading as above, an AWG reading without a
split. -/
def Regular (db : Db) (r : Recorded) : Prop :=
  ∀ observation, r.observation = some observation → taken db r = some observation.reading →
    match r.target.key.protocol with
    | .xray => OfXray db r.target observation
    | .awg => observation.inbounds = ∅

/-- Each event of a history meets it in the state it finds. -/
def RegularHistory (stale : String → String) : Db → List Event → Prop
  | _, [] => True
  | db, event :: rest =>
    (match event with
      | .adopt _ => True
      | .observe answer => Regular db answer.recorded) ∧
      RegularHistory stale (db.next stale event) rest

/-- The split of a row: an Xray row's sums to its totals, an AWG row has none. -/
def RowSplit (protocol : Protocol) (inbounds : BTreeMap String Bytes) (up down : ℕ) : Prop :=
  match protocol with
  | .xray => SplitOf inbounds up down
  | .awg => inbounds = ∅

/-- What every state keeps of the splits. -/
structure Splits (db : Db) : Prop where
  usage : ∀ key row, db.usage.lookup key = some row →
    RowSplit key.protocol row.inbounds row.uplink row.downlink
  nodes : ∀ key row, db.nodes.lookup key = some row →
    RowSplit key.2 row.inbounds row.uplink row.downlink
  peers : ∀ key peer last, key.1.protocol = .xray → db.peers.lookup key = some peer →
    peer.baseline = some last →
      SplitOf peer.lastInbounds last.uplink last.downlink ∨ peer.lastInbounds = ∅

section
variable {stored increments : BTreeMap String Bytes}

theorem splitOf_empty : SplitOf ∅ 0 0 := ⟨sumValues_empty _, sumValues_empty _⟩

theorem rowSplit_empty (protocol : Protocol) : RowSplit protocol ∅ 0 0 := by
  cases protocol with
  | xray => exact splitOf_empty
  | awg => rfl

theorem splitOf_added {a b : Bytes} (before : SplitOf stored a.1 a.2)
    (now : SplitOf increments b.1 b.2) :
    SplitOf (added stored increments) (a.add b).1 (a.add b).2 := by
  have up := @sumValues_upsertAll String Bytes Bytes _ _ _ Prod.fst _
    (fun _ values known => Bytes.add (known.getD (0, 0)) values) Prod.fst
    (by intro _ v known; cases known <;> simp [Bytes.add, Nat.add_comm]) stored increments
  have down := @sumValues_upsertAll String Bytes Bytes _ _ _ Prod.snd _
    (fun _ values known => Bytes.add (known.getD (0, 0)) values) Prod.snd
    (by intro _ v known; cases known <;> simp [Bytes.add, Nat.add_comm]) stored increments
  rw [before.1, now.1] at up
  rw [before.2, now.2] at down
  exact ⟨up, down⟩

theorem added_empty : added ∅ ∅ = (∅ : BTreeMap String Bytes) := by
  apply Std.ExtTreeMap.ext_getElem?
  intro name
  rw [added, BTreeMap.get_upsertAll]
  simp

theorem rowSplit_added {protocol : Protocol} {a b : Bytes} (before : RowSplit protocol stored a.1 a.2)
    (now : RowSplit protocol increments b.1 b.2) :
    RowSplit protocol (added stored increments) (a.add b).1 (a.add b).2 := by
  cases protocol with
  | xray => exact splitOf_added before now
  | awg =>
    rw [show stored = ∅ from before, show increments = ∅ from now]
    exact added_empty

end

/-! The increments of one observation. -/

section
variable {last : Reading} {observed lastInbounds : BTreeMap String Bytes}

/-- What a run's observation adds to one inbound. -/
def inboundIncrement (same : Bool) (lastInbounds : BTreeMap String Bytes) (name : String)
    (values : Bytes) : Bytes :=
  match lastInbounds[name]? with
  | none => values
  | some before => (increment same before.1 values.1, increment same before.2 values.2)

theorem sum_apart (part : Bytes → ℕ)
    (keeps : ∀ name values, part (inboundIncrement false lastInbounds name values) = part values) :
    sumValues part (observed.map (inboundIncrement false lastInbounds)) = sumValues part observed := by
  rw [sumValues, Std.ExtTreeMap.toList_map, sumOf_map, sumValues]
  apply sumOf_congr
  rintro ⟨name, values⟩ _
  exact keeps name values

theorem apart_up (name : String) (values : Bytes) :
    (inboundIncrement false lastInbounds name values).1 = values.1 := by
  rw [inboundIncrement]
  cases lastInbounds[name]? with
  | none => rfl
  | some before => simp [increment]

theorem apart_down (name : String) (values : Bytes) :
    (inboundIncrement false lastInbounds name values).2 = values.2 := by
  rw [inboundIncrement]
  cases lastInbounds[name]? with
  | none => rfl
  | some before => simp [increment]

/-- Within a run the increments and the last counters make up the counters. -/
theorem sum_together (part : Bytes → ℕ)
    (covers : ∀ (name : String) (before : Bytes), lastInbounds[name]? = some before →
      ∃ values, observed[name]? = some values)
    (splits : ∀ name values, observed[name]? = some values →
      part (inboundIncrement true lastInbounds name values) + valueAt part lastInbounds name =
        part values) :
    sumValues part (observed.map (inboundIncrement true lastInbounds)) + sumValues part lastInbounds =
      sumValues part observed := by
  rw [sumValues, Std.ExtTreeMap.toList_map, sumOf_map, ← sumOf_valueAt covers, ← sumOf_add, sumValues]
  apply sumOf_congr
  rintro ⟨name, values⟩ held
  exact splits name values (BTreeMap.mem_toList.mp held)

theorem together_up (grows : Grows lastInbounds observed) (name : String) (values : Bytes)
    (there : observed[name]? = some values) :
    (inboundIncrement true lastInbounds name values).1 + valueAt Prod.fst lastInbounds name =
      values.1 := by
  rw [inboundIncrement, valueAt]
  cases found : lastInbounds[name]? with
  | none => rfl
  | some before =>
    obtain ⟨now, held, up, -⟩ := grows name before found
    rw [there] at held
    cases held
    simp only [increment, up, and_self, if_true, Option.map_some, Option.getD_some]
    omega

theorem together_down (grows : Grows lastInbounds observed) (name : String) (values : Bytes)
    (there : observed[name]? = some values) :
    (inboundIncrement true lastInbounds name values).2 + valueAt Prod.snd lastInbounds name =
      values.2 := by
  rw [inboundIncrement, valueAt]
  cases found : lastInbounds[name]? with
  | none => rfl
  | some before =>
    obtain ⟨now, held, -, down⟩ := grows name before found
    rw [there] at held
    cases held
    simp only [increment, down, and_self, if_true, Option.map_some, Option.getD_some]
    omega

end

section
variable {db : Db} {r : Recorded} {stale : String → String}

/-- The two increments of a counted Xray observation agree. -/
theorem xray_splits {target : Target} {observation : Observation} (splits : Splits db)
    (xray : target.key.protocol = .xray) (accepted : Accepted observation)
    (regular : OfXray db target observation) :
    SplitOf (byInbound (db.peers.lookup (target.key, target.device)) observation)
      (growth db target observation).1 (growth db target observation).2 := by
  rw [growth, Db.baseline]
  cases known : db.peers.lookup (target.key, target.device) with
  | none => exact splitOf_empty
  | some peer =>
    simp only [Option.bind_some, byInbound]
    cases before : peer.baseline with
    | none => exact splitOf_empty
    | some last =>
      have whole : SplitOf observation.inbounds observation.reading.uplink
          observation.reading.downlink := by
        rcases accepted.split with none | both
        · obtain ⟨up, down⟩ := regular.split none
          rw [none, up, down]
          exact splitOf_empty
        · exact both
      show SplitOf (observation.inbounds.map
        (inboundIncrement (sameRun last observation.reading) peer.lastInbounds)) _ _
      cases together : sameRun last observation.reading with
      | false =>
        constructor
        · rw [sum_apart Prod.fst apart_up, whole.1]
          simp [increments, together, increment]
        · rw [sum_apart Prod.snd apart_down, whole.2]
          simp [increments, together, increment]
      | true =>
        have grows := regular.grows peer last known before together
        have base : SplitOf peer.lastInbounds last.uplink last.downlink := by
          rcases splits.peers _ peer last xray known before with both | none
          · exact both
          · obtain ⟨up, down⟩ := regular.ownBaseline peer last known before together none
            rw [none, up, down]
            exact splitOf_empty
        have covers : ∀ (name : String) (held : Bytes), peer.lastInbounds[name]? = some held →
            ∃ values, observation.inbounds[name]? = some values := by
          intro name held found
          obtain ⟨values, there, -⟩ := grows name held found
          exact ⟨values, there⟩
        have up := sum_together Prod.fst covers (together_up grows)
        have down := sum_together Prod.snd covers (together_down grows)
        rw [base.1, whole.1] at up
        rw [base.2, whole.2] at down
        constructor
        · have bigger : last.uplink ≤ observation.reading.uplink := by omega
          simp only [increments, together, increment, bigger, and_self, if_true]
          omega
        · have bigger : last.downlink ≤ observation.reading.downlink := by omega
          simp only [increments, together, increment, bigger, and_self, if_true]
          omega

theorem awg_splits {peer : Option Peer} {observation : Observation} (none : observation.inbounds = ∅) :
    byInbound peer observation = ∅ := by
  cases peer with
  | none => rfl
  | some peer =>
    simp only [byInbound, Option.bind_some]
    cases peer.baseline with
    | none => rfl
    | some last =>
      rw [none]
      apply Std.ExtTreeMap.ext_getElem?
      intro name
      simp

/-- What the observation adds is split as its row is. -/
theorem counted_split {observation : Observation} (splits : Splits db)
    (observed : r.observation = some observation) (reading : taken db r = some observation.reading)
    (accepted : Accepted observation) (regular : Regular db r) :
    RowSplit r.target.key.protocol
      (byInbound (db.peers.lookup (r.target.key, r.target.device)) observation)
      (growth db r.target observation).1 (growth db r.target observation).2 := by
  have keeps := regular observation observed reading
  cases protocol : r.target.key.protocol with
  | xray =>
    rw [protocol] at keeps
    exact xray_splits splits protocol accepted keeps
  | awg =>
    rw [protocol] at keeps
    exact awg_splits keeps

/-! The rows. -/

/-- Steps that leave the totals and the splits of every row. -/
structure Kept (db next : Db) : Prop where
  usage : ∀ key row, next.usage.lookup key = some row →
    (∃ old, db.usage.lookup key = some old ∧ row.inbounds = old.inbounds ∧ row.uplink = old.uplink ∧
      row.downlink = old.downlink) ∨ row.inbounds = ∅ ∧ row.uplink = 0 ∧ row.downlink = 0
  nodes : next.nodes = db.nodes
  peers : ∀ key peer last, next.peers.lookup key = some peer → peer.baseline = some last →
    (∃ old, db.peers.lookup key = some old ∧ old.baseline = some last ∧
      peer.lastInbounds = old.lastInbounds) ∨ peer.lastInbounds = ∅

theorem Kept.splits {next : Db} (kept : Kept db next) (splits : Splits db) : Splits next := by
  constructor
  · intro key row found
    rcases kept.usage key row found with ⟨old, before, inbounds, up, down⟩ | ⟨inbounds, up, down⟩
    · rw [inbounds, up, down]
      exact splits.usage key old before
    · rw [inbounds, up, down]
      exact rowSplit_empty _
  · rw [kept.nodes]
    exact splits.nodes
  · intro key peer last xray found known
    rcases kept.peers key peer last found known with ⟨old, before, same, inbounds⟩ | none
    · rw [inbounds]
      exact splits.peers key old last xray before same
    · exact Or.inr none

theorem Kept.trans {next later : Db} (first : Kept db next) (second : Kept next later) :
    Kept db later := by
  constructor
  · intro key row found
    rcases second.usage key row found with ⟨middle, before, inbounds, up, down⟩ | empty
    · rw [inbounds, up, down]
      exact first.usage key middle before
    · exact Or.inr empty
  · rw [second.nodes, first.nodes]
  · intro key peer last found known
    rcases second.peers key peer last found known with ⟨middle, before, same, inbounds⟩ | none
    · rw [inbounds]
      exact first.peers key middle last before same
    · exact Or.inr none

theorem Kept.refl (db : Db) : Kept db db :=
  ⟨fun _ row found => Or.inl ⟨row, found, rfl, rfl, rfl⟩, rfl,
    fun _ peer _ found known => Or.inl ⟨peer, found, known, rfl⟩⟩

theorem usage_kept (key : Key) (row : Usage) (found : db.usage.lookup key = some row) :
    (∃ old, db.usage.lookup key = some old ∧ row.inbounds = old.inbounds ∧ row.uplink = old.uplink ∧
      row.downlink = old.downlink) ∨ row.inbounds = ∅ ∧ row.uplink = 0 ∧ row.downlink = 0 :=
  (Kept.refl db).usage key row found

/-- A new peer row comes without a split. -/
theorem putPeer_kept {key : Key × ℕ} {peer : Peer} (none : peer.lastInbounds = ∅) :
    Kept db { db with peers := db.peers.put key peer } := by
  constructor
  · exact usage_kept
  · rfl
  · intro other row last found known
    rw [show Db.peers { db with peers := db.peers.put key peer } = db.peers.put key peer from rfl,
      Table.lookup_put] at found
    split at found
    · cases found
      exact Or.inr none
    · exact Or.inl ⟨row, found, known, rfl⟩

theorem addPeer_kept (key : Key) (device : ℕ) : Kept db (db.addPeer key device) := by
  rw [Db.addPeer]
  split
  · exact Kept.refl db
  · exact putPeer_kept rfl

theorem adopt_kept (key : Key) (row : Usage) (device : ℕ) : Kept db (db.adopt key row device) := by
  rw [Db.adopt]
  split
  · exact Kept.refl db
  · exact putPeer_kept rfl

theorem addUsage_kept (key : Key) (account : Option ℕ) : Kept db (db.addUsage key account) := by
  rw [Db.addUsage]
  split
  · exact Kept.refl db
  · constructor
    · intro other row found
      simp only [Table.lookup_put] at found
      split at found
      · cases found
        exact Or.inr ⟨rfl, rfl, rfl⟩
      · exact usage_kept other row found
    · rfl
    · exact (Kept.refl db).peers

theorem markUnknown_kept (key : Key) (device : ℕ) : Kept db (db.markUnknown key device) := by
  constructor
  · intro other row found
    rw [Db.markUnknown, Table.lookup_alter] at found
    split at found
    next same =>
      obtain ⟨old, before, rfl⟩ := Option.map_eq_some_iff.mp found
      exact Or.inl ⟨old, same ▸ before, rfl, rfl, rfl⟩
    · exact usage_kept other row found
  · rfl
  · intro other peer last found known
    rw [Db.markUnknown, Table.lookup_alter] at found
    split at found
    next same =>
      obtain ⟨old, before, rfl⟩ := Option.map_eq_some_iff.mp found
      exact Or.inl ⟨old, same ▸ before, known, rfl⟩
    · exact Or.inl ⟨peer, found, known, rfl⟩

theorem prepared_kept (target : Target) : Kept db (prepared db target) :=
  (addPeer_kept _ _).trans (addUsage_kept _ _)

/-- A fold of steps that keep the rows. -/
theorem foldl_kept {α : Type} {step : Db → α → Db} (keeps : ∀ db a, Kept db (step db a))
    (items : List α) (db : Db) : Kept db (items.foldl step db) := by
  induction items generalizing db with
  | nil => exact Kept.refl db
  | cons item rest ih => exact (keeps db item).trans (ih (step db item))

theorem adoptBaselines_kept (originals : Key → List ℕ) : Kept db (db.adoptBaselines originals) := by
  apply foldl_kept
  intro db row
  apply foldl_kept
  intro db device
  exact adopt_kept row.1 row.2 device

end

section
variable {db : Db} {r : Recorded} {stale : String → String}

theorem carried_split {key : Key} {month : String} (splits : Splits db) :
    RowSplit key.protocol
      (if (db.usage.lookup key).any fun row => row.periodMonth = some month
        then ((db.usage.lookup key).map Usage.inbounds).getD ∅ else ∅)
      (db.carried key month).1 (db.carried key month).2 := by
  rw [Db.carried]
  cases known : db.usage.lookup key with
  | none => exact rowSplit_empty _
  | some row =>
    by_cases current : row.periodMonth = some month
    · simp only [Option.any_some, current, decide_true, if_true, Option.map_some, Option.getD_some]
      exact splits.usage key row known
    · simp only [Option.any_some, current, decide_false, Bool.false_eq_true, if_false]
      exact rowSplit_empty _

theorem addNode_split {key : Key} {month timestamp : String} {bytes : Bytes}
    {inbounds : BTreeMap String Bytes} (before : ∀ key row, db.nodes.lookup key = some row →
      RowSplit key.2 row.inbounds row.uplink row.downlink)
    (now : RowSplit key.protocol inbounds bytes.1 bytes.2) {at' : ℕ × Protocol} {row : NodeTotal}
    (found : (db.addNode key month timestamp bytes inbounds).nodes.lookup at' = some row) :
    RowSplit at'.2 row.inbounds row.uplink row.downlink := by
  have fresh : RowSplit key.protocol (added ∅ inbounds) bytes.1 bytes.2 := by
    have both := @rowSplit_added ∅ inbounds key.protocol (0, 0) bytes (rowSplit_empty _) now
    simp only [Bytes.add, Nat.zero_add] at both
    exact both
  rw [Db.addNode] at found
  simp only [Table.lookup_put] at found
  split at found
  next same =>
    cases same
    cases found
    cases known : db.nodes.lookup (key.node, key.protocol) with
    | none => exact fresh
    | some old =>
      simp only
      by_cases current : old.periodMonth = month
      · rw [if_pos current]
        exact @rowSplit_added old.inbounds inbounds key.protocol (old.uplink, old.downlink) bytes
          (before _ old known) now
      · rw [if_neg current]
        exact fresh
  · exact before at' row found

theorem count_splits {observation : Observation} (splits : Splits db)
    (observed : r.observation = some observation) (reading : taken db r = some observation.reading)
    (accepted : Accepted observation) (regular : Regular db r) :
    Splits (count stale (prepared db r.target) r.target observation r.timestamp
      (growth db r.target observation) (monthTotal db r.target observation r.timestamp)
      (db.peers.lookup (r.target.key, r.target.device)) (db.usage.lookup r.target.key)) := by
  have now := counted_split splits observed reading accepted regular
  have ready := (prepared_kept r.target).splits splits
  constructor
  · intro key row found
    by_cases same : key = r.target.key
    · subst same
      obtain ⟨before, held⟩ := @prepared_usage db r.target
      obtain ⟨written, there, up, down, -, -, inbounds⟩ := @count_usage (prepared db r.target) r.target
        observation r.timestamp (growth db r.target observation)
        (monthTotal db r.target observation r.timestamp)
        (db.peers.lookup (r.target.key, r.target.device)) (db.usage.lookup r.target.key) stale before held
      rw [there] at found
      cases found
      rw [up, down, inbounds, monthTotal]
      exact rowSplit_added (carried_split splits) now
    · rw [count_usage_other same] at found
      exact ready.usage key row found
  · intro key row found
    rw [count_nodes] at found
    exact addNode_split ready.nodes now found
  · rintro ⟨key, device⟩ peer last xray found known
    by_cases same : (key, device) = (r.target.key, r.target.device)
    · cases same
      obtain ⟨before, held⟩ := @prepared_peer db r.target
      obtain ⟨written, there, baseline, inbounds⟩ := @count_peer (prepared db r.target) r.target
        observation r.timestamp (growth db r.target observation)
        (monthTotal db r.target observation r.timestamp)
        (db.peers.lookup (r.target.key, r.target.device)) (db.usage.lookup r.target.key) stale before held
      rw [there] at found
      cases found
      rw [baseline] at known
      cases known
      rw [inbounds]
      exact accepted.split.symm
    · rw [count_peers_other same] at found
      exact ready.peers (key, device) peer last xray found known

/-- One observation keeps the splits. -/
theorem record_splits (splits : Splits db)
    (accepted : ∀ observation, r.observation = some observation → Accepted observation)
    (regular : Regular db r) :
    Splits (record stale db r.target r.observation r.timestamp) := by
  have outcome := @record_outcome db r stale
  generalize record stale db r.target r.observation r.timestamp = next at outcome ⊢
  cases outcome with
  | late _ => exact (addPeer_kept _ _).splits splits
  | unknown _ => exact ((prepared_kept r.target).trans (markUnknown_kept _ _)).splits splits
  | counted observation observed reading _ =>
    exact count_splits splits observed reading (accepted observation observed) regular

/-- By induction over the history. -/
theorem history_splits (events : List Event) (splits : Splits db)
    (regular : RegularHistory stale db events) : Splits (db.history stale events) := by
  induction events generalizing db with
  | nil => exact splits
  | cons event rest ih =>
    obtain ⟨here, later⟩ := regular
    apply ih _ later
    cases event with
    | adopt originals => exact (adoptBaselines_kept originals).splits splits
    | observe answer =>
      apply record_splits splits _ here
      intro observation observed
      have accepted := answers_accepted [answer] answer.recorded (List.mem_singleton.mpr rfl)
      exact accepted observation observed

end

theorem empty_splits : Splits Db.empty :=
  ⟨(fun _ _ found => nomatch found), (fun _ _ found => nomatch found),
    (fun _ _ _ _ found => nomatch found)⟩

/-- In every state that a regular history reaches, the split of every Xray row, of a profile and
of a node, sums to the row's totals, and AWG rows have none. -/
theorem inbounds_add_up (stale : String → String) (events : List Event)
    (regular : RegularHistory stale Db.empty events) :
    (∀ key row, (Db.empty.history stale events).usage.lookup key = some row →
      RowSplit key.protocol row.inbounds row.uplink row.downlink) ∧
    ∀ key row, (Db.empty.history stale events).nodes.lookup key = some row →
      RowSplit key.2 row.inbounds row.uplink row.downlink := by
  have splits := history_splits events empty_splits regular
  exact ⟨splits.usage, splits.nodes⟩

/-! Histories on fixed readings. -/

/-- `Grows`, by the last reading's entries. -/
def growsBy (last observed : BTreeMap String Bytes) : Bool :=
  last.toList.all fun entry => match observed[entry.1]? with
    | none => false
    | some values => entry.2.1 ≤ values.1 && entry.2.2 ≤ values.2

theorem grows_of {last observed : BTreeMap String Bytes} (all : growsBy last observed = true) :
    Grows last observed := by
  intro name before found
  have entry := List.all_eq_true.mp all (name, before) (BTreeMap.mem_toList.mpr found)
  simp only at entry
  cases there : observed[name]? with
  | none => simp [there] at entry
  | some values =>
    rw [there, Bool.and_eq_true, decide_eq_true_iff, decide_eq_true_iff] at entry
    exact ⟨values, rfl, entry⟩

theorem regular_of {db : Db} {r : Recorded} (xray : r.target.key.protocol = .xray)
    (all : (r.observation.all fun observation => !observation.inbounds.isEmpty &&
      (db.peers.lookup (r.target.key, r.target.device)).all fun peer =>
        !peer.lastInbounds.isEmpty && growsBy peer.lastInbounds observation.inbounds) = true) :
    Regular db r := by
  intro observation observed _
  rw [xray]
  rw [observed, Option.all_some, Bool.and_eq_true] at all
  obtain ⟨split, peers⟩ := all
  constructor
  · intro none
    rw [none] at split
    simp at split
  · intro peer last found _ _
    rw [found, Option.all_some, Bool.and_eq_true] at peers
    exact grows_of peers.2
  · intro peer last found _ _ none
    rw [found, Option.all_some, none] at peers
    simp at peers

/-- An answer about profile 1 on node 1. -/
def sampleAnswer (protocol : Protocol) (device : ℕ) (split : Bool) (up down : Int)
    (timestamp : String) : Answer :=
  let name := match protocol with
    | .awg => "awg"
    | .xray => "xray"
  let counters := [("downlink_bytes", Json.int down), ("uplink_bytes", Json.int up)]
  let inbounds := if split then [("vless-tcp", Json.obj counters)] else []
  ⟨⟨⟨1, 1, protocol⟩, device, none⟩, ⟨"node", name, "client", "key"⟩,
    some (.obj [("downlink_bytes", .int down), ("epoch", .str (String.ofList (List.replicate 64 'a'))),
      ("identity", .str "key"), ("inbounds", .obj inbounds), ("node_key", .str "node"),
      ("protocol", .str name), ("runtime_name", .str "client"), ("uplink_bytes", .int up)]), timestamp⟩

def sampleHistory : List Event :=
  [.observe (sampleAnswer .xray 1 true 10 20 "2026-11-01T00:00:00"), .adopt fun _ => [1],
    .observe (sampleAnswer .xray 1 true 15 26 "2026-11-01T00:02:00")]

theorem inbounds_add_up_sample :
    (∀ key row, (Db.empty.history (fun text => text) sampleHistory).usage.lookup key = some row →
      RowSplit key.protocol row.inbounds row.uplink row.downlink) ∧
    ∀ key row, (Db.empty.history (fun text => text) sampleHistory).nodes.lookup key = some row →
      RowSplit key.2 row.inbounds row.uplink row.downlink := by
  apply inbounds_add_up (fun text => text) sampleHistory
  refine ⟨regular_of rfl ?_, trivial, regular_of rfl ?_, trivial⟩
  · decide
  · decide

/-- An AWG row counts its bytes and has no split. -/
theorem awg_has_no_split :
    let db := Db.empty.history (fun text => text)
      [.observe (sampleAnswer .awg 1 false 0 0 "2026-11-01T00:00:00"),
        .observe (sampleAnswer .awg 1 false 10 20 "2026-11-01T00:02:00")]
    ((db.usage.lookup ⟨1, 1, .awg⟩).map fun row =>
        (row.uplink, row.downlink, sumValues Prod.fst row.inbounds)) = some (10, 20, 0) ∧
      ((db.nodes.lookup (1, .awg)).map fun row =>
        (row.uplink, row.downlink, sumValues Prod.fst row.inbounds)) = some (10, 20, 0) := by
  decide

end Traffic
end NodePlane
