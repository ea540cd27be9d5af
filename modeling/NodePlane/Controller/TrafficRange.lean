import NodePlane.Agent.Json
import NodePlane.Controller.TrafficSums
import NodePlane.Library.MapSums

/-! The checks of an agent's reading, and the range of the columns that the recorder adds
it to. -/
namespace NodePlane
namespace Traffic
open Library

/-- What a target's agent is asked. -/
structure Intent where
  nodeKey : String
  protocol : String
  runtimeName : String
  identity : String
  deriving DecidableEq, Repr

def Intent.fields (intent : Intent) : List (String × String) :=
  [("node_key", intent.nodeKey), ("protocol", intent.protocol),
    ("runtime_name", intent.runtimeName), ("identity", intent.identity)]

def field (members : List (String × Json)) (name : String) : Option Json :=
  (members.find? fun member => member.1 = name).map Prod.snd

/-- `set(result) == {…}`. -/
def hasExactly (members : List (String × Json)) (names : List String) : Bool :=
  (names.all fun name => members.any fun member => member.1 = name) &&
    members.all fun member => member.1 ∈ names

/-- `[0-9a-f]{64}`. -/
def isEpoch (text : String) : Bool :=
  text.length = 64 && text.toList.all fun c => c.isDigit || 'a' ≤ c && c ≤ 'f'

/-- `[a-z0-9-]{1,32}`. -/
def isInbound (text : String) : Bool :=
  1 ≤ text.length && text.length ≤ 32 &&
    text.toList.all fun c => 'a' ≤ c && c ≤ 'z' || c.isDigit || c = '-'

def counter : Json → Option ℕ
  | .int n => if 0 ≤ n ∧ n ≤ maxCounter then some n.toNat else none
  | _ => none

/-- One inbound's counters. -/
def inbound : String × Json → Option (String × Bytes)
  | (name, .obj members) => do
    let up ← (field members "uplink_bytes").bind counter
    let down ← (field members "downlink_bytes").bind counter
    if isInbound name && hasExactly members ["uplink_bytes", "downlink_bytes"] then
      some (name, up, down)
    else none
  | _ => none

/-- `_checked`; `none` is one of its errors, an unknown observation. -/
def checked (intent : Intent) (result : Json) : Option Observation :=
  match result with
  | .obj members => do
    let up ← (field members "uplink_bytes").bind counter
    let down ← (field members "downlink_bytes").bind counter
    match field members "epoch", field members "inbounds" with
    | some (.str epoch), some (.obj listed) =>
      let entries ← listed.mapM inbound
      let inbounds := entries.foldl (fun known entry => known.insert entry.1 entry.2) ∅
      if hasExactly members
          (intent.fields.map Prod.fst ++ ["epoch", "uplink_bytes", "downlink_bytes", "inbounds"]) &&
        (intent.fields.all fun f => field members f.1 = some (.str f.2)) && isEpoch epoch &&
        (inbounds.isEmpty ||
          sumValues Prod.fst inbounds = up && sumValues Prod.snd inbounds = down) then
        some ⟨⟨epoch, intent.identity, up, down⟩, inbounds⟩
      else none
    | _, _ => none
  | _ => none

/-- An agent's answer for a target; `none` where the agent gave none. -/
structure Answer where
  target : Target
  intent : Intent
  result : Option Json
  timestamp : String

def Answer.recorded (answer : Answer) : Recorded :=
  ⟨answer.target, answer.result.bind (checked answer.intent), answer.timestamp⟩

def Bytes.Within (bytes : Bytes) : Prop := bytes.1 ≤ maxCounter ∧ bytes.2 ≤ maxCounter

instance (bytes : Bytes) : Decidable bytes.Within :=
  inferInstanceAs (Decidable (bytes.1 ≤ maxCounter ∧ bytes.2 ≤ maxCounter))

/-- What the checks promise of an observation. -/
structure Accepted (observation : Observation) : Prop where
  counters : Bytes.Within (observation.reading.uplink, observation.reading.downlink)
  split : observation.inbounds = ∅ ∨
    sumValues Prod.fst observation.inbounds = observation.reading.uplink ∧
      sumValues Prod.snd observation.inbounds = observation.reading.downlink

theorem counter_within {json : Json} {n : ℕ} (read : counter json = some n) : n ≤ maxCounter := by
  cases json with
  | int value =>
    simp only [counter] at read
    split at read
    next range =>
      cases read
      omega
    · cases read
  | _ => cases read

theorem checked_accepted {intent : Intent} {result : Json} {observation : Observation}
    (accepted : checked intent result = some observation) : Accepted observation := by
  cases result with
  | obj members =>
    simp only [checked, Option.bind_eq_bind] at accepted
    obtain ⟨up, upRead, accepted⟩ := Option.bind_eq_some_iff.mp accepted
    obtain ⟨down, downRead, accepted⟩ := Option.bind_eq_some_iff.mp accepted
    obtain ⟨upJson, -, upRead⟩ := Option.bind_eq_some_iff.mp upRead
    obtain ⟨downJson, -, downRead⟩ := Option.bind_eq_some_iff.mp downRead
    split at accepted
    · obtain ⟨entries, -, accepted⟩ := Option.bind_eq_some_iff.mp accepted
      split at accepted
      next fits =>
        cases accepted
        rw [Bool.and_eq_true, Bool.or_eq_true, Bool.and_eq_true] at fits
        constructor
        · exact ⟨counter_within upRead, counter_within downRead⟩
        · rcases fits.2 with empty | sums
          · exact Or.inl (Std.ExtTreeMap.isEmpty_iff.mp empty)
          · obtain ⟨up, down⟩ := Bool.and_eq_true_iff.mp sums
            exact Or.inr ⟨of_decide_eq_true up, of_decide_eq_true down⟩
      · cases accepted
    · cases accepted
  | _ => cases accepted

/-! The columns. -/

/-- Usage of the profiles and the last counters; all of them are BIGINT columns. -/
def Db.UsageInRange (db : Db) : Prop :=
  (∀ row ∈ db.usage.rows, Bytes.Within (row.2.uplink, row.2.downlink)) ∧
    ∀ row ∈ db.peers.rows, ∀ last ∈ row.2.baseline, Bytes.Within (last.uplink, last.downlink)

/-- The sums over profiles, months and nodes. -/
def Db.SumsInRange (db : Db) : Prop :=
  (∀ row ∈ db.daily.rows, Bytes.Within row.2) ∧
    (∀ row ∈ db.nodes.rows, Bytes.Within (row.2.uplink, row.2.downlink)) ∧
      ∀ row ∈ db.periods, Bytes.Within (row.uplink, row.downlink)

def Db.InRange (db : Db) : Prop := db.UsageInRange ∧ db.SumsInRange

instance (db : Db) : Decidable db.InRange :=
  inferInstanceAs (Decidable (((∀ row ∈ db.usage.rows, Bytes.Within (row.2.uplink, row.2.downlink)) ∧
    ∀ row ∈ db.peers.rows, ∀ last ∈ row.2.baseline, Bytes.Within (last.uplink, last.downlink)) ∧
      (∀ row ∈ db.daily.rows, Bytes.Within row.2) ∧
        (∀ row ∈ db.nodes.rows, Bytes.Within (row.2.uplink, row.2.downlink)) ∧
          ∀ row ∈ db.periods, Bytes.Within (row.uplink, row.downlink)))

/-- The transaction of a scan: a value out of range aborts it with all that it recorded. -/
def commit (stale : String → String) : Db → List Recorded → Option Db
  | db, [] => some db
  | db, r :: rest =>
    let next := record stale db r.target r.observation r.timestamp
    if next.InRange then commit stale next rest else none

/-- The rows that a counted reading is added to have room for what it adds. -/
structure Room (db : Db) (target : Target) (timestamp : String) (bytes : Bytes) : Prop where
  day : Bytes.Within
    (((db.daily.lookup (firstChars 10 timestamp, target.key)).getD (0, 0)).add bytes)
  node : ∀ row, db.nodes.lookup (target.key.node, target.key.protocol) = some row →
    row.periodMonth = firstChars 7 timestamp → Bytes.Within (Bytes.add (row.uplink, row.downlink) bytes)
  quota : ∀ row ∈ db.periods, row.isOpenOf target.key.profile = true →
    Bytes.Within (Bytes.add (row.uplink, row.downlink) bytes)

/-- A call that counts its reading finds room. -/
def Fits (db : Db) (r : Recorded) : Prop :=
  ∀ observation, r.observation = some observation → taken db r = some observation.reading →
    Room db r.target r.timestamp (growth db r.target observation)

/-- `P` before the calls and after each of them. -/
def Throughout (stale : String → String) (P : Db → Prop) : Db → List Recorded → Prop
  | db, [] => P db
  | db, r :: rest =>
    P db ∧ Throughout stale P (record stale db r.target r.observation r.timestamp) rest

/-- Each call meets `P` in the state it finds. -/
def Steps (stale : String → String) (P : Db → Recorded → Prop) : Db → List Recorded → Prop
  | _, [] => True
  | db, r :: rest => P db r ∧ Steps stale P (record stale db r.target r.observation r.timestamp) rest

section
variable {db : Db} {r : Recorded} {stale : String → String}

theorem within_zero : Bytes.Within (0, 0) := ⟨Nat.zero_le _, Nat.zero_le _⟩

theorem within_mono {a b : Bytes} (up : a.1 ≤ b.1) (down : a.2 ≤ b.2) (bound : b.Within) : a.Within :=
  ⟨Nat.le_trans up bound.1, Nat.le_trans down bound.2⟩

theorem increment_le (same : Bool) (last value : ℕ) : increment same last value ≤ value := by
  rw [increment]
  split
  · exact Nat.sub_le value last
  · exact Nat.le_refl value

theorem increments_le (baseline : Option Reading) (reading : Reading) :
    (increments baseline reading).1 ≤ reading.uplink ∧
      (increments baseline reading).2 ≤ reading.downlink := by
  cases baseline with
  | none => exact ⟨Nat.zero_le _, Nat.zero_le _⟩
  | some last => exact ⟨increment_le _ _ _, increment_le _ _ _⟩

theorem growth_within {target : Target} {observation : Observation} (accepted : Accepted observation) :
    (growth db target observation).Within := by
  obtain ⟨up, down⟩ := increments_le (db.baseline target.key target.device) observation.reading
  exact @within_mono _ (observation.reading.uplink, observation.reading.downlink) up down
    accepted.counters

theorem usage_rows {k : Key} {row : Usage} (usage : db.UsageInRange)
    (found : db.usage.lookup k = some row) : Bytes.Within (row.uplink, row.downlink) :=
  usage.1 (k, row) (Table.mem_rows_iff.mpr found)

theorem peer_rows {k : Key × ℕ} {row : Peer} {last : Reading} (usage : db.UsageInRange)
    (found : db.peers.lookup k = some row) (known : row.baseline = some last) :
    Bytes.Within (last.uplink, last.downlink) :=
  usage.2 (k, row) (Table.mem_rows_iff.mpr found) last known

theorem usageInRange_of {next : Db}
    (usage : ∀ k row, next.usage.lookup k = some row → Bytes.Within (row.uplink, row.downlink))
    (peers : ∀ k row last, next.peers.lookup k = some row → row.baseline = some last →
      Bytes.Within (last.uplink, last.downlink)) : next.UsageInRange := by
  constructor
  · rintro ⟨k, row⟩ held
    exact usage k row (Table.mem_rows_iff.mp held)
  · rintro ⟨k, row⟩ held last known
    exact peers k row last (Table.mem_rows_iff.mp held) known

theorem addPeer_inRange (key : Key) (device : ℕ) (usage : db.UsageInRange) :
    (db.addPeer key device).UsageInRange := by
  apply usageInRange_of
  · intro k row found
    rw [addPeer_usage] at found
    exact usage_rows usage found
  · intro k row last found known
    rw [Db.addPeer] at found
    split at found
    · exact peer_rows usage found known
    · rw [Table.lookup_put] at found
      split at found
      · cases found
        cases known
      · exact peer_rows usage found known

theorem addUsage_inRange (key : Key) (account : Option ℕ) (usage : db.UsageInRange) :
    (db.addUsage key account).UsageInRange := by
  apply usageInRange_of
  · intro k row found
    rw [Db.addUsage] at found
    split at found
    · exact usage_rows usage found
    · rw [Table.lookup_put] at found
      split at found
      · cases found
        exact within_zero
      · exact usage_rows usage found
  · intro k row last found known
    rw [addUsage_peers] at found
    exact peer_rows usage found known

theorem prepared_inRange (target : Target) (usage : db.UsageInRange) :
    (prepared db target).UsageInRange :=
  addUsage_inRange _ _ (addPeer_inRange _ _ usage)

theorem markUnknown_inRange (key : Key) (device : ℕ) (usage : db.UsageInRange) :
    (db.markUnknown key device).UsageInRange := by
  apply usageInRange_of
  · intro k row found
    rw [Db.markUnknown, Table.lookup_alter] at found
    split at found
    · obtain ⟨old, before, rfl⟩ := Option.map_eq_some_iff.mp found
      have bound := usage_rows usage before
      exact bound
    · exact usage_rows usage found
  · intro k row last found known
    rw [Db.markUnknown, Table.lookup_alter] at found
    split at found
    · obtain ⟨old, before, rfl⟩ := Option.map_eq_some_iff.mp found
      exact peer_rows usage before known
    · exact peer_rows usage found known

/-- The month's total is checked before it is written. -/
theorem record_usage (usage : db.UsageInRange)
    (accepted : ∀ observation, r.observation = some observation → Accepted observation) :
    (record stale db r.target r.observation r.timestamp).UsageInRange := by
  have outcome := @record_outcome db r stale
  generalize record stale db r.target r.observation r.timestamp = next at outcome ⊢
  cases outcome with
  | late _ => exact addPeer_inRange _ _ usage
  | unknown _ => exact markUnknown_inRange _ _ (prepared_inRange r.target usage)
  | counted observation observed _ fits =>
    have ready := prepared_inRange r.target usage
    apply usageInRange_of
    · intro k row found
      by_cases same : k = r.target.key
      · subst same
        obtain ⟨before, held⟩ := @prepared_usage db r.target
        obtain ⟨now, written, up, down, -⟩ := @count_usage (prepared db r.target) r.target observation
          r.timestamp (growth db r.target observation) (monthTotal db r.target observation r.timestamp)
          (db.peers.lookup (r.target.key, r.target.device)) (db.usage.lookup r.target.key) stale before held
        rw [written] at found
        cases found
        rw [up, down]
        exact ⟨Nat.le_trans (Nat.le_max_left _ _) fits, Nat.le_trans (Nat.le_max_right _ _) fits⟩
      · rw [count_usage_other same] at found
        exact usage_rows ready found
    · rintro ⟨k, d⟩ row last found known
      by_cases same : (k, d) = (r.target.key, r.target.device)
      · cases same
        obtain ⟨before, held⟩ := @prepared_peer db r.target
        obtain ⟨now, written, fresh, -⟩ := @count_peer (prepared db r.target) r.target observation
          r.timestamp (growth db r.target observation) (monthTotal db r.target observation r.timestamp)
          (db.peers.lookup (r.target.key, r.target.device)) (db.usage.lookup r.target.key) stale before held
        rw [written] at found
        cases found
        rw [fresh] at known
        cases known
        exact (accepted observation observed).counters
      · rw [count_peers_other same] at found
        exact peer_rows ready found known

end

section
variable {db next : Db} {r : Recorded} {stale : String → String}

theorem sums_congr (daily : next.daily = db.daily) (nodes : next.nodes = db.nodes)
    (periods : next.periods = db.periods) : next.SumsInRange ↔ db.SumsInRange := by
  rw [Db.SumsInRange, Db.SumsInRange, daily, nodes, periods]

/-- A written row is in range with the others iff its own value is. -/
theorem put_rows {κ ρ : Type} [DecidableEq κ] {P : ρ → Prop} {t : Table κ ρ} {k : κ} {row : ρ}
    (before : ∀ held ∈ t.rows, P held.2) : (∀ held ∈ (t.put k row).rows, P held.2) ↔ P row := by
  constructor
  · intro all
    exact all (k, row) (Table.mem_rows_iff.mpr (Table.lookup_put_self t k row))
  · rintro own ⟨j, q⟩ held
    rw [Table.mem_rows_iff, Table.lookup_put] at held
    split at held
    · cases held
      exact own
    · exact before (j, q) (Table.mem_rows_iff.mpr held)

theorem addDay_rows {key : Key} {day : String} {bytes : Bytes}
    (before : ∀ row ∈ db.daily.rows, Bytes.Within row.2) :
    (∀ row ∈ (db.addDay key day bytes).daily.rows, Bytes.Within row.2) ↔
      Bytes.Within (Bytes.add ((db.daily.lookup (day, key)).getD (0, 0)) bytes) := by
  rw [addDay_daily]
  split
  next nothing =>
    rw [nothing, add_zero_bytes]
    refine ⟨fun _ => ?_, fun _ => before⟩
    cases known : db.daily.lookup (day, key) with
    | none => exact within_zero
    | some row => exact before ((day, key), row) (Table.mem_rows_iff.mpr known)
  · exact put_rows before

theorem addNode_rows {key : Key} {month timestamp : String} {bytes : Bytes}
    {inbounds : BTreeMap String Bytes} (bound : bytes.Within)
    (before : ∀ row ∈ db.nodes.rows, Bytes.Within (row.2.uplink, row.2.downlink)) :
    (∀ row ∈ (db.addNode key month timestamp bytes inbounds).nodes.rows,
        Bytes.Within (row.2.uplink, row.2.downlink)) ↔
      ∀ row, db.nodes.lookup (key.node, key.protocol) = some row → row.periodMonth = month →
        Bytes.Within (Bytes.add (row.uplink, row.downlink) bytes) := by
  rw [Db.addNode]
  simp only
  rw [@put_rows _ _ _ (fun row : NodeTotal => Bytes.Within (row.uplink, row.downlink)) _ _ _ before]
  cases known : db.nodes.lookup (key.node, key.protocol) with
  | none =>
    refine ⟨fun _ row found => ?_, fun _ => bound⟩
    cases found
  | some row =>
    simp only
    by_cases current : row.periodMonth = month
    · rw [if_pos current]
      constructor
      · intro own _ found _
        cases found
        exact own
      · intro room
        exact room row rfl current
    · rw [if_neg current]
      refine ⟨fun _ _ found same => ?_, fun _ => bound⟩
      cases found
      exact absurd same current

theorem accrue_rows {periods : List Quotas.Period} {profile : ℕ} {bytes : Bytes}
    (before : ∀ row ∈ periods, Bytes.Within (row.uplink, row.downlink)) :
    (∀ row ∈ Quotas.accrue periods profile bytes.1 bytes.2, Bytes.Within (row.uplink, row.downlink)) ↔
      ∀ row ∈ periods, row.isOpenOf profile = true →
        Bytes.Within (Bytes.add (row.uplink, row.downlink) bytes) := by
  rw [Quotas.accrue]
  split
  next =>
    rw [List.forall_mem_map]
    constructor
    · intro all row held isOpen
      have own := all row held
      rwa [if_pos isOpen] at own
    · intro room row held
      split
      next isOpen => exact room row held isOpen
      · exact before row held
  next nothing =>
    simp only [ne_eq, not_or, not_not] at nothing
    refine ⟨fun _ row held _ => ?_, fun _ => before⟩
    rw [show bytes = (0, 0) from Prod.ext nothing.1 nothing.2, add_zero_bytes]
    exact before row held

theorem count_sums {observation : Observation} {total : Bytes} {peer : Option Peer}
    {previous : Option Usage} (bound : (growth db r.target observation).Within) (sums : db.SumsInRange) :
    (count stale (prepared db r.target) r.target observation r.timestamp (growth db r.target observation)
        total peer previous).SumsInRange ↔
      Room db r.target r.timestamp (growth db r.target observation) := by
  obtain ⟨daily, nodes, periods⟩ := (sums_congr (prepared_daily r.target) (prepared_nodes r.target)
    (prepared_periods r.target)).mpr sums
  rw [Db.SumsInRange, count_daily, count_nodes, count_periods, addDay_rows daily,
    addNode_rows bound nodes, accrue_rows periods, prepared_daily, prepared_nodes, prepared_periods]
  constructor
  · rintro ⟨day, node, quota⟩
    exact ⟨day, node, quota⟩
  · rintro ⟨day, node, quota⟩
    exact ⟨day, node, quota⟩

/-- One call keeps the sums in range exactly where it finds room. -/
theorem record_sums (sums : db.SumsInRange)
    (accepted : ∀ observation, r.observation = some observation → Accepted observation) :
    (record stale db r.target r.observation r.timestamp).SumsInRange ↔ Fits db r := by
  have outcome := @record_outcome db r stale
  generalize record stale db r.target r.observation r.timestamp = next at outcome ⊢
  have idle : taken db r = none → Fits db r := by
    intro nothing observation _ reading
    rw [nothing] at reading
    cases reading
  cases outcome with
  | late sampled =>
    have fits := idle (taken_late sampled)
    rw [sums_congr addPeer_daily (by rw [Db.addPeer]; split <;> rfl)
      (by rw [Db.addPeer]; split <;> rfl)]
    exact ⟨fun _ => fits, fun _ => sums⟩
  | unknown nothing =>
    have fits := idle nothing
    have kept := (sums_congr (prepared_daily r.target) (prepared_nodes r.target)
      (prepared_periods r.target)).mpr sums
    exact ⟨fun _ => fits, fun _ => kept⟩
  | counted observation observed reading _ =>
    rw [count_sums (growth_within (accepted observation observed)) sums]
    constructor
    · intro room other same _
      rw [observed] at same
      cases same
      exact room
    · intro fits
      exact fits observation observed reading

/-! The run. -/

theorem usage_throughout (records : List Recorded) (usage : db.UsageInRange)
    (accepted : ∀ r ∈ records, ∀ observation, r.observation = some observation → Accepted observation) :
    Throughout stale Db.UsageInRange db records := by
  induction records generalizing db with
  | nil => exact usage
  | cons r rest ih =>
    have next := @record_usage db r stale usage (accepted r List.mem_cons_self)
    exact ⟨usage, ih next fun q held => accepted q (List.mem_cons_of_mem r held)⟩

theorem throughout_start {P : Db → Prop} {records : List Recorded}
    (all : Throughout stale P db records) : P db := by
  cases records with
  | nil => exact all
  | cons r rest => exact all.1

theorem sums_throughout (records : List Recorded) (sums : db.SumsInRange)
    (accepted : ∀ r ∈ records, ∀ observation, r.observation = some observation → Accepted observation) :
    Throughout stale Db.SumsInRange db records ↔ Steps stale Fits db records := by
  induction records generalizing db with
  | nil => exact ⟨fun _ => trivial, fun _ => sums⟩
  | cons r rest ih =>
    have step := @record_sums db r stale sums (accepted r List.mem_cons_self)
    have later := fun q held => accepted q (List.mem_cons_of_mem r held)
    constructor
    · rintro ⟨-, all⟩
      have next := throughout_start all
      exact ⟨step.mp next, (ih next later).mp all⟩
    · rintro ⟨fits, steps⟩
      have next := step.mpr fits
      exact ⟨sums, (ih next later).mpr steps⟩

/-- A transaction that commits has recorded all of them. -/
theorem commit_iff (records : List Recorded) (usage : db.UsageInRange) (sums : db.SumsInRange)
    (accepted : ∀ r ∈ records, ∀ observation, r.observation = some observation → Accepted observation) :
    commit stale db records = some (run stale db records) ↔ Steps stale Fits db records := by
  induction records generalizing db with
  | nil => exact ⟨fun _ => trivial, fun _ => rfl⟩
  | cons r rest ih =>
    have step := @record_sums db r stale sums (accepted r List.mem_cons_self)
    have used := @record_usage db r stale usage (accepted r List.mem_cons_self)
    have later := fun q held => accepted q (List.mem_cons_of_mem r held)
    rw [commit, run_cons, Steps, ← step]
    by_cases kept : (record stale db r.target r.observation r.timestamp).SumsInRange
    · rw [if_pos (show Db.InRange _ from ⟨used, kept⟩), ih used kept later]
      exact ⟨fun steps => ⟨kept, steps⟩, fun both => both.2⟩
    · rw [if_neg fun both => kept both.2]
      constructor
      · intro impossible
        cases impossible
      · intro both
        exact absurd both.1 kept

theorem answers_accepted (answers : List Answer) :
    ∀ r ∈ answers.map Answer.recorded, ∀ observation, r.observation = some observation →
      Accepted observation := by
  intro r held observation observed
  obtain ⟨answer, -, rfl⟩ := List.mem_map.mp held
  obtain ⟨result, -, accepted⟩ := Option.bind_eq_some_iff.mp observed
  exact checked_accepted accepted

end

/-- Over any answers, of any number of profiles: profile usage never leaves the column's range,
and the sums (and with them the scans) stay whole exactly where every counted reading finds
room in its day, its node's month and the profile's open period. -/
theorem counters_in_range (stale : String → String) (db : Db) (answers : List Answer)
    (start : db.InRange) :
    Throughout stale Db.UsageInRange db (answers.map Answer.recorded) ∧
      (Throughout stale Db.SumsInRange db (answers.map Answer.recorded) ↔
        Steps stale Fits db (answers.map Answer.recorded)) ∧
      (commit stale db (answers.map Answer.recorded) =
          some (run stale db (answers.map Answer.recorded)) ↔
        Steps stale Fits db (answers.map Answer.recorded)) := by
  obtain ⟨usage, sums⟩ := start
  have accepted := answers_accepted answers
  exact ⟨usage_throughout _ usage accepted, sums_throughout _ sums accepted,
    commit_iff _ usage sums accepted⟩

/-- Two profiles of one node, each seen at zero first. -/
def fullNode : List Answer :=
  let ask (name : String) : Intent := ⟨"node", "awg", name, "key"⟩
  let epoch := String.ofList (List.replicate 64 'a')
  let reading (name : String) (up : Int) : Json :=
    .obj [("downlink_bytes", .int 0), ("epoch", .str epoch), ("identity", .str "key"),
      ("inbounds", .obj []), ("node_key", .str "node"), ("protocol", .str "awg"),
      ("runtime_name", .str name), ("uplink_bytes", .int up)]
  let answer (profile : ℕ) (name : String) (up : Int) (at' : String) : Answer :=
    ⟨⟨⟨profile, 1, .awg⟩, profile, none⟩, ask name, some (reading name up), at'⟩
  [answer 1 "a" 0 "2026-11-01T00:00:00", answer 2 "b" 0 "2026-11-01T00:00:00",
    answer 1 "a" (2 ^ 63 - 1) "2026-11-01T00:02:00", answer 2 "b" 1 "2026-11-01T00:02:00"]

/-- Every reading passes its checks, and the node's total is past the column: nothing of the
scan is kept. -/
theorem node_total_overflows :
    (fullNode.all fun answer => answer.recorded.observation.isSome) = true ∧
      (((run (fun text => text) Db.empty (fullNode.map Answer.recorded)).nodes.lookup (1, .awg)).map
        NodeTotal.uplink) = some (2 ^ 63) ∧
      (commit (fun text => text) Db.empty (fullNode.map Answer.recorded)).isNone = true := by
  decide

theorem counters_in_range_sample :
    Throughout (fun text => text) Db.UsageInRange Db.empty (fullNode.map Answer.recorded) ∧
      (Throughout (fun text => text) Db.SumsInRange Db.empty (fullNode.map Answer.recorded) ↔
        Steps (fun text => text) Fits Db.empty (fullNode.map Answer.recorded)) ∧
      (commit (fun text => text) Db.empty (fullNode.map Answer.recorded) =
          some (run (fun text => text) Db.empty (fullNode.map Answer.recorded)) ↔
        Steps (fun text => text) Fits Db.empty (fullNode.map Answer.recorded)) :=
  counters_in_range (fun text => text) Db.empty fullNode (by decide)

end Traffic
end NodePlane
