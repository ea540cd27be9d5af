import Mathlib.Data.List.Dedup
import NodePlane.Library.Sums
import NodePlane.Controller.Traffic

/-! What the accounting adds over a sequence of observations: the runs of every device, last
minus first. -/
namespace NodePlane
namespace Traffic
open Library

section
variable (stale : String → String)

/-- The reading that a call counts: later than the device's last sample, there, and in range. -/
def taken (db : Db) (r : Recorded) : Option Reading :=
  if db.sampled r.target.key r.target.device r.timestamp then none
  else
    match r.observation with
    | none => none
    | some observation =>
      let total := (db.carried r.target.key (firstChars 7 r.timestamp)).add
        (increments (db.baseline r.target.key r.target.device) observation.reading)
      if maxCounter < max total.1 total.2 then none else some observation.reading

/-- The readings of one device that a run counts. -/
def followed (key : Key) (device : ℕ) : Db → List Recorded → List Reading
  | _, [] => []
  | db, r :: rest =>
    (if r.target.key = key ∧ r.target.device = device then (taken db r).toList else []) ++
      followed key device (record stale db r.target r.observation r.timestamp) rest

/-- The device's readings of a run, behind the baseline it starts from. -/
def readings (key : Key) (device : ℕ) (db : Db) (records : List Recorded) : List Reading :=
  (db.baseline key device).toList ++ followed stale key device db records

/-- What a row of usage grew by; a row of a new month starts from zero. -/
def grew (before after : Option Usage) : Bytes :=
  match before, after with
  | _, none => (0, 0)
  | none, some row => (row.uplink, row.downlink)
  | some old, some row =>
    if old.periodMonth = row.periodMonth then (row.uplink - old.uplink, row.downlink - old.downlink)
    else (row.uplink, row.downlink)

/-- What a run adds to the usage of a key. -/
def gained (key : Key) : Db → List Recorded → Bytes
  | _, [] => (0, 0)
  | db, r :: rest =>
    let next := record stale db r.target r.observation r.timestamp
    (grew (db.usage.lookup key) (next.usage.lookup key)).add (gained key next rest)

end

/-- One run of a counter: the same epoch and identity, and the counter does not shrink. -/
def sameCounter (value : Reading → ℕ) (before after : Reading) : Bool :=
  sameRun before after && decide (value before ≤ value after)

/-- Last minus first over the runs of a device's counter. -/
def measuredBy (value : Reading → ℕ) (readings : List Reading) : ℕ :=
  measured value (readings.splitBy (sameCounter value))

/-- The key's bytes over the days. -/
def dailyTotal (db : Db) (key : Key) : Bytes :=
  (sumOf (fun row => row.2.1) (db.daily.rows.filter fun row => row.1.2 = key),
    sumOf (fun row => row.2.2) (db.daily.rows.filter fun row => row.1.2 = key))

/-! What one call changes. -/

section
variable {db : Db} {key : Key} {device : ℕ}

/-- A step that counts nothing: baselines, days and the bytes of every row stay. -/
structure Idle (db next : Db) : Prop where
  baseline : ∀ k d, next.baseline k d = db.baseline k d
  usage : ∀ k, grew (db.usage.lookup k) (next.usage.lookup k) = (0, 0)
  daily : next.daily = db.daily

theorem grew_same (row : Option Usage) : grew row row = (0, 0) := by
  cases row with
  | none => rfl
  | some row =>
    rw [grew, if_pos rfl, Nat.sub_self, Nat.sub_self]

theorem addPeer_baseline (k : Key) (d : ℕ) : (db.addPeer key device).baseline k d = db.baseline k d := by
  rw [Db.addPeer]
  split
  · rfl
  next missing =>
    rw [Db.baseline, Db.baseline, Table.lookup_put]
    split
    next same =>
      rw [same, Option.not_isSome_iff_eq_none.mp missing]
      rfl
    · rfl

theorem addPeer_present : ((db.addPeer key device).peers.lookup (key, device)).isSome = true := by
  rw [Db.addPeer]
  split
  · assumption
  · rw [Table.lookup_put_self]
    rfl

theorem addUsage_grew (k : Key) (account : Option ℕ) :
    grew (db.usage.lookup k) ((db.addUsage key account).usage.lookup k) = (0, 0) := by
  rw [Db.addUsage]
  split
  · exact grew_same _
  next missing =>
    rw [Table.lookup_put]
    split
    next same =>
      rw [same, Option.not_isSome_iff_eq_none.mp missing]
      rfl
    · exact grew_same _

theorem addUsage_present (account : Option ℕ) :
    ((db.addUsage key account).usage.lookup key).isSome = true := by
  rw [Db.addUsage]
  split
  · assumption
  · rw [Table.lookup_put_self]
    rfl

@[simp] theorem addPeer_usage : (db.addPeer key device).usage = db.usage := by
  rw [Db.addPeer]
  split <;> rfl

@[simp] theorem addPeer_daily : (db.addPeer key device).daily = db.daily := by
  rw [Db.addPeer]
  split <;> rfl

@[simp] theorem addUsage_peers (account : Option ℕ) :
    (db.addUsage key account).peers = db.peers := by
  rw [Db.addUsage]
  split <;> rfl

@[simp] theorem addUsage_daily (account : Option ℕ) :
    (db.addUsage key account).daily = db.daily := by
  rw [Db.addUsage]
  split <;> rfl

theorem addUsage_baseline (k : Key) (d : ℕ) (account : Option ℕ) :
    (db.addUsage key account).baseline k d = db.baseline k d := by
  rw [Db.baseline, Db.baseline, addUsage_peers]

theorem markUnknown_baseline (k : Key) (d : ℕ) :
    (db.markUnknown key device).baseline k d = db.baseline k d := by
  rw [Db.baseline, Db.baseline, Db.markUnknown, Table.lookup_alter]
  split
  next same =>
    rw [same]
    cases db.peers.lookup (key, device) <;> rfl
  · rfl

theorem markUnknown_grew (before : Option Usage) (k : Key) :
    grew before ((db.markUnknown key device).usage.lookup k) = grew before (db.usage.lookup k) := by
  rw [Db.markUnknown, Table.lookup_alter]
  split
  next same =>
    rw [same]
    cases before <;> cases db.usage.lookup key <;> rfl
  · rfl

theorem peer_added : Idle db (db.addPeer key device) :=
  ⟨addPeer_baseline, fun k => by rw [addPeer_usage]; exact grew_same _, addPeer_daily⟩

theorem unknown_marked (account : Option ℕ) :
    Idle db (((db.addPeer key device).addUsage key account).markUnknown key device) := by
  constructor
  · intro k d
    rw [markUnknown_baseline, addUsage_baseline, addPeer_baseline]
  · intro k
    rw [markUnknown_grew, ← addPeer_usage, addUsage_grew]
  · rw [show (((db.addPeer key device).addUsage key account).markUnknown key device).daily =
      ((db.addPeer key device).addUsage key account).daily from rfl, addUsage_daily, addPeer_daily]

end

/-! A counted observation. -/

section
variable {db : Db} {target : Target} {observation : Observation} {timestamp : String}
variable {bytes total : Bytes} {peer : Option Peer} {previous : Option Usage}
variable {stale : String → String}

@[simp] theorem addDay_peers (key : Key) (day : String) : (db.addDay key day bytes).peers = db.peers := by
  rw [Db.addDay]
  split <;> rfl

@[simp] theorem addDay_usage (key : Key) (day : String) : (db.addDay key day bytes).usage = db.usage := by
  rw [Db.addDay]
  split <;> rfl

@[simp] theorem addDay_nodes (key : Key) (day : String) : (db.addDay key day bytes).nodes = db.nodes := by
  rw [Db.addDay]
  split <;> rfl

@[simp] theorem addDay_periods (key : Key) (day : String) :
    (db.addDay key day bytes).periods = db.periods := by
  rw [Db.addDay]
  split <;> rfl

theorem addDay_daily (key : Key) (day : String) :
    (db.addDay key day bytes).daily =
      if bytes = (0, 0) then db.daily
      else db.daily.put (day, key) (Bytes.add ((db.daily.lookup (day, key)).getD (0, 0)) bytes) := by
  rw [Db.addDay]
  split <;> rfl

theorem count_daily :
    (count stale db target observation timestamp bytes total peer previous).daily =
      (db.addDay target.key (firstChars 10 timestamp) bytes).daily := by
  rw [addDay_daily]
  exact addDay_daily _ _

theorem count_nodes :
    (count stale db target observation timestamp bytes total peer previous).nodes =
      (db.addNode target.key (firstChars 7 timestamp) timestamp bytes (byInbound peer observation)).nodes := by
  simp only [count, Db.sample, Db.addNode, addDay_nodes]

theorem count_periods :
    (count stale db target observation timestamp bytes total peer previous).periods =
      Quotas.accrue db.periods target.key.profile bytes.1 bytes.2 := by
  simp only [count, Db.sample, Db.addNode, addDay_periods]

/-- The device's counters are the baseline now, its inbounds beside them. -/
theorem count_peer {row : Peer} (held : db.peers.lookup (target.key, target.device) = some row) :
    ∃ now, (count stale db target observation timestamp bytes total peer previous).peers.lookup
        (target.key, target.device) = some now ∧
      now.baseline = some observation.reading ∧ now.lastInbounds = observation.inbounds := by
  simp only [count, Db.sample, Db.addNode, addDay_peers, Table.lookup_alter, held]
  exact ⟨_, rfl, rfl, rfl⟩

theorem count_peers_other {k : Key} {d : ℕ} (other : (k, d) ≠ (target.key, target.device)) :
    (count stale db target observation timestamp bytes total peer previous).peers.lookup (k, d) =
      db.peers.lookup (k, d) := by
  simp only [count, Db.sample, Db.addNode, addDay_peers]
  exact Table.lookup_alter_ne _ other

theorem count_usage {row : Usage} (held : db.usage.lookup target.key = some row) :
    ∃ now, (count stale db target observation timestamp bytes total peer previous).usage.lookup
        target.key = some now ∧
      now.uplink = total.1 ∧ now.downlink = total.2 ∧
      now.periodMonth = some (firstChars 7 timestamp) ∧ now.baseline = some observation.reading ∧
      now.inbounds = added (if previous.any fun row => row.periodMonth = some (firstChars 7 timestamp)
        then (previous.map Usage.inbounds).getD ∅ else ∅) (byInbound peer observation) := by
  simp only [count, Db.sample, Db.addNode, addDay_usage, Table.lookup_alter, held]
  exact ⟨_, rfl, rfl, rfl, rfl, rfl, rfl⟩

theorem count_usage_other {k : Key} (other : k ≠ target.key) :
    (count stale db target observation timestamp bytes total peer previous).usage.lookup k =
      db.usage.lookup k := by
  simp only [count, Db.sample, Db.addNode, addDay_usage]
  exact Table.lookup_alter_ne _ other

end

section
variable {db : Db} {r : Recorded} {stale : String → String}

/-- The rows of the call's device and key, made where they were missing. -/
def prepared (db : Db) (target : Target) : Db :=
  (db.addPeer target.key target.device).addUsage target.key target.account

/-- What the reading adds over the device's baseline. -/
def growth (db : Db) (target : Target) (observation : Observation) : Bytes :=
  increments (db.baseline target.key target.device) observation.reading

/-- The month's bytes with it. -/
def monthTotal (db : Db) (target : Target) (observation : Observation) (timestamp : String) : Bytes :=
  (db.carried target.key (firstChars 7 timestamp)).add (growth db target observation)

/-- The three ways through `_record`. -/
inductive Outcome (stale : String → String) (db : Db) (r : Recorded) : Db → Prop
  | late (sampled : db.sampled r.target.key r.target.device r.timestamp = true) :
    Outcome stale db r (db.addPeer r.target.key r.target.device)
  | unknown (nothing : taken db r = none) :
    Outcome stale db r ((prepared db r.target).markUnknown r.target.key r.target.device)
  | counted (observation : Observation) (observed : r.observation = some observation)
    (reading : taken db r = some observation.reading)
    (fits : max (monthTotal db r.target observation r.timestamp).1
      (monthTotal db r.target observation r.timestamp).2 ≤ maxCounter) :
    Outcome stale db r (count stale (prepared db r.target) r.target observation r.timestamp
      (growth db r.target observation) (monthTotal db r.target observation r.timestamp)
      (db.peers.lookup (r.target.key, r.target.device)) (db.usage.lookup r.target.key))

theorem record_outcome :
    Outcome stale db r (record stale db r.target r.observation r.timestamp) := by
  simp only [record]
  cases late : db.sampled r.target.key r.target.device r.timestamp with
  | true =>
    rw [if_pos rfl]
    exact Outcome.late late
  | false =>
    rw [if_neg Bool.false_ne_true]
    cases observed : r.observation with
    | none =>
      apply Outcome.unknown
      rw [taken, late, observed, if_neg Bool.false_ne_true]
    | some observation =>
      simp only
      split
      next above =>
        apply Outcome.unknown
        rw [taken, late, observed, if_neg Bool.false_ne_true]
        exact if_pos above
      next within =>
        apply Outcome.counted observation observed
        · rw [taken, late, observed, if_neg Bool.false_ne_true]
          exact if_neg within
        · exact Nat.le_of_not_lt within

theorem prepared_peer (target : Target) :
    ∃ row, (prepared db target).peers.lookup (target.key, target.device) = some row := by
  rw [prepared, addUsage_peers]
  exact Option.isSome_iff_exists.mp addPeer_present

theorem prepared_usage (target : Target) :
    ∃ row, (prepared db target).usage.lookup target.key = some row :=
  Option.isSome_iff_exists.mp (addUsage_present _)

theorem prepared_usage_other {target : Target} {k : Key} (other : k ≠ target.key) :
    (prepared db target).usage.lookup k = db.usage.lookup k := by
  rw [prepared, Db.addUsage]
  split
  · rw [addPeer_usage]
  · rw [Table.lookup_put_ne _ other, addPeer_usage]

theorem prepared_peers_other {target : Target} {k : Key} {d : ℕ}
    (other : (k, d) ≠ (target.key, target.device)) :
    (prepared db target).peers.lookup (k, d) = db.peers.lookup (k, d) := by
  rw [prepared, addUsage_peers, Db.addPeer]
  split
  · rfl
  · exact Table.lookup_put_ne _ other

theorem prepared_daily (target : Target) : (prepared db target).daily = db.daily := by
  rw [prepared, addUsage_daily, addPeer_daily]

theorem prepared_nodes (target : Target) : (prepared db target).nodes = db.nodes := by
  rw [prepared, Db.addUsage, Db.addPeer]
  split <;> split <;> rfl

theorem prepared_periods (target : Target) : (prepared db target).periods = db.periods := by
  rw [prepared, Db.addUsage, Db.addPeer]
  split <;> split <;> rfl

/-- What a call adds to the usage of a key. -/
def gain (db : Db) (r : Recorded) (key : Key) : Bytes :=
  if r.target.key = key then
    match taken db r with
    | none => (0, 0)
    | some reading => increments (db.baseline key r.target.device) reading
  else (0, 0)

theorem gain_idle (nothing : taken db r = none) (key : Key) : gain db r key = (0, 0) := by
  rw [gain, nothing]
  split <;> rfl

theorem taken_late (late : db.sampled r.target.key r.target.device r.timestamp = true) :
    taken db r = none := by
  rw [taken, late, if_pos rfl]

theorem count_grew {observation : Observation} (reading : taken db r = some observation.reading)
    (key : Key) {peer : Option Peer} :
    grew (db.usage.lookup key) ((count stale (prepared db r.target) r.target observation r.timestamp
      (growth db r.target observation) (monthTotal db r.target observation r.timestamp) peer
      (db.usage.lookup r.target.key)).usage.lookup key) = gain db r key := by
  by_cases same : r.target.key = key
  · subst same
    obtain ⟨row, held⟩ := @prepared_usage db r.target
    obtain ⟨now, written, up, down, month, -⟩ := @count_usage (prepared db r.target) r.target
      observation r.timestamp (growth db r.target observation)
      (monthTotal db r.target observation r.timestamp) peer (db.usage.lookup r.target.key) stale row held
    rw [written, gain, if_pos rfl, reading]
    show _ = growth db r.target observation
    cases known : db.usage.lookup r.target.key with
    | none =>
      rw [grew, up, down, monthTotal, Db.carried, known]
      simp [Bytes.add]
    | some old =>
      rw [grew, month, up, down, monthTotal, Db.carried, known]
      by_cases current : old.periodMonth = some (firstChars 7 r.timestamp)
      · simp [current, Bytes.add]
      · simp [current, Bytes.add]
  · rw [count_usage_other (Ne.symm same), prepared_usage_other (Ne.symm same), grew_same, gain,
      if_neg same]

theorem record_grew (key : Key) :
    grew (db.usage.lookup key)
      ((record stale db r.target r.observation r.timestamp).usage.lookup key) = gain db r key := by
  have outcome := @record_outcome db r stale
  generalize record stale db r.target r.observation r.timestamp = next at outcome ⊢
  cases outcome with
  | late sampled => rw [peer_added.usage, gain_idle (taken_late sampled)]
  | unknown nothing => rw [prepared, (unknown_marked _).usage, gain_idle nothing]
  | counted observation _ reading _ => exact count_grew reading key

theorem record_baseline (key : Key) (device : ℕ) :
    (record stale db r.target r.observation r.timestamp).baseline key device =
      if r.target.key = key ∧ r.target.device = device then (taken db r).or (db.baseline key device)
      else db.baseline key device := by
  have outcome := @record_outcome db r stale
  generalize record stale db r.target r.observation r.timestamp = next at outcome ⊢
  cases outcome with
  | late sampled => rw [peer_added.baseline, taken_late sampled, Option.none_or, ite_self]
  | unknown nothing => rw [prepared, (unknown_marked _).baseline, nothing, Option.none_or, ite_self]
  | counted observation _ reading _ =>
    rw [reading]
    split
    next same =>
      obtain ⟨rfl, rfl⟩ := same
      obtain ⟨row, held⟩ := @prepared_peer db r.target
      obtain ⟨now, written, fresh, -⟩ := @count_peer (prepared db r.target) r.target observation
        r.timestamp (growth db r.target observation) (monthTotal db r.target observation r.timestamp)
        (db.peers.lookup (r.target.key, r.target.device)) (db.usage.lookup r.target.key) stale row held
      rw [Db.baseline, written]
      exact fresh
    next other =>
      have apart : (key, device) ≠ (r.target.key, r.target.device) := by
        intro same
        exact other ⟨(congrArg Prod.fst same).symm, (congrArg Prod.snd same).symm⟩
      rw [Db.baseline, count_peers_other apart, prepared_peers_other apart, Db.baseline]

end

section
variable {db : Db} {r : Recorded} {stale : String → String}

/-- The bytes of one key in the rows of the days. -/
def dayBytes (value : Bytes → ℕ) (key : Key) (row : (String × Key) × Bytes) : ℕ :=
  if row.1.2 = key then value row.2 else 0

theorem sumOf_filter {α : Type} (p : α → Prop) [DecidablePred p] (f : α → ℕ) (rows : List α) :
    sumOf f (rows.filter fun row => p row) = sumOf (fun row => if p row then f row else 0) rows := by
  induction rows with
  | nil => rfl
  | cons row rest ih =>
    by_cases holds : p row
    · simp [holds, ih]
    · simp [holds, ih]

theorem dailyTotal_eq (key : Key) :
    dailyTotal db key = (sumOf (dayBytes Prod.fst key) db.daily.rows,
      sumOf (dayBytes Prod.snd key) db.daily.rows) := by
  rw [dailyTotal, sumOf_filter, sumOf_filter]
  rfl

theorem sumOf_put {value : Bytes → ℕ} (zero : value (0, 0) = 0)
    (adds : ∀ a b, value (Bytes.add a b) = value a + value b) (days : Table (String × Key) Bytes)
    (day : String) (known key : Key) (bytes : Bytes) :
    sumOf (dayBytes value key)
        (days.put (day, known) (Bytes.add ((days.lookup (day, known)).getD (0, 0)) bytes)).rows =
      sumOf (dayBytes value key) days.rows + if known = key then value bytes else 0 := by
  rw [sumOf_perm (Table.rows_put _ _ _), sumOf_cons]
  cases found : days.lookup (day, known) with
  | none =>
    rw [Table.without_missing found]
    by_cases same : known = key
    · simp [dayBytes, same, adds, zero]
      omega
    · simp [dayBytes, same]
  | some row =>
    rw [sumOf_perm (Table.rows_of_lookup found), sumOf_cons]
    by_cases same : known = key
    · simp [dayBytes, same, adds]
      omega
    · simp [dayBytes, same]

theorem addDay_total (key known : Key) (day : String) (bytes : Bytes) :
    dailyTotal (db.addDay known day bytes) key =
      (dailyTotal db key).add (if known = key then bytes else (0, 0)) := by
  rw [dailyTotal_eq, dailyTotal_eq, addDay_daily]
  split
  next none =>
    rw [none, ite_self]
    rfl
  next some =>
    rw [sumOf_put rfl (fun _ _ => rfl), sumOf_put rfl (fun _ _ => rfl)]
    by_cases same : known = key
    · simp [same, Bytes.add]
    · simp [same, Bytes.add]

theorem dailyTotal_congr {next : Db} (same : next.daily = db.daily) (key : Key) :
    dailyTotal next key = dailyTotal db key := by
  rw [dailyTotal, dailyTotal, same]

theorem add_zero_bytes (bytes : Bytes) : bytes.add (0, 0) = bytes := rfl

theorem record_daily (key : Key) :
    dailyTotal (record stale db r.target r.observation r.timestamp) key =
      (dailyTotal db key).add (gain db r key) := by
  have outcome := @record_outcome db r stale
  generalize record stale db r.target r.observation r.timestamp = next at outcome ⊢
  cases outcome with
  | late sampled =>
    rw [gain_idle (taken_late sampled), add_zero_bytes, dailyTotal_congr addPeer_daily]
  | unknown nothing =>
    rw [gain_idle nothing, add_zero_bytes]
    exact dailyTotal_congr (unknown_marked _).daily key
  | counted observation _ reading _ =>
    rw [dailyTotal_congr count_daily, addDay_total, dailyTotal_congr (prepared_daily r.target), gain,
      reading]
    by_cases same : r.target.key = key
    · rw [if_pos same, if_pos same, ← same]
      rfl
    · rw [if_neg same, if_neg same]

end

/-! The run. -/

section
variable {stale : String → String}

theorem run_cons (db : Db) (r : Recorded) (rest : List Recorded) :
    run stale db (r :: rest) =
      run stale (record stale db r.target r.observation r.timestamp) rest := rfl

/-- A counter of a reading, and what the recorder adds to that counter. -/
structure Column where
  value : Reading → ℕ
  part : Bytes → ℕ
  adds : ∀ a b : Bytes, part (a.add b) = part a + part b
  zero : part (0, 0) = 0
  grows : ∀ last reading, part (increments (some last) reading) =
    increment (sameRun last reading) (value last) (value reading)

def upColumn : Column := ⟨Reading.uplink, Prod.fst, fun _ _ => rfl, rfl, fun _ _ => rfl⟩

def downColumn : Column := ⟨Reading.downlink, Prod.snd, fun _ _ => rfl, rfl, fun _ _ => rfl⟩

variable (column : Column)

/-- The counter's growth over the followed readings of a device. -/
def ofDevice (stale : String → String) (key : Key) (device : ℕ) (db : Db) (records : List Recorded) : ℕ :=
  Library.increments (sameCounter column.value) column.value (readings stale key device db records)

theorem increment_eq (last reading : Reading) :
    (if sameCounter column.value last reading then column.value reading - column.value last
      else column.value reading) = column.part (increments (some last) reading) := by
  rw [column.grows, increment]
  by_cases together : sameRun last reading = true <;>
    by_cases bigger : column.value last ≤ column.value reading <;>
    simp [sameCounter, together, bigger]

/-- The device of a call: its growth moves from the readings to what the call adds. -/
theorem ofDevice_here (db : Db) (r : Recorded) (rest : List Recorded) :
    ofDevice column stale r.target.key r.target.device db (r :: rest) =
      column.part (gain db r r.target.key) +
        ofDevice column stale r.target.key r.target.device
          (record stale db r.target r.observation r.timestamp) rest := by
  simp only [ofDevice, readings, followed, record_baseline, and_self, if_true, gain]
  cases reading : taken db r with
  | none => simp [column.zero]
  | some x =>
    cases known : db.baseline r.target.key r.target.device with
    | none =>
      show Library.increments _ _ (x :: _) = column.part (0, 0) + Library.increments _ _ (x :: _)
      rw [column.zero, Nat.zero_add]
    | some last =>
      show Library.increments _ _ (last :: x :: _) = _ + Library.increments _ _ (x :: _)
      rw [Library.increments, increment_eq]

theorem ofDevice_other {key : Key} {device : ℕ} (db : Db) (r : Recorded) (rest : List Recorded)
    (other : ¬(r.target.key = key ∧ r.target.device = device)) :
    ofDevice column stale key device db (r :: rest) =
      ofDevice column stale key device (record stale db r.target r.observation r.timestamp) rest := by
  simp only [ofDevice, readings, followed, record_baseline, if_neg other, List.nil_append]

/-- Devices of the key that the calls are about. -/
def devicesOf (key : Key) (records : List Recorded) : List ℕ :=
  ((records.filter fun r => r.target.key = key).map fun r => r.target.device).dedup

/-- By induction over the calls: what they add to the key is the growth of its devices. -/
theorem gained_eq (key : Key) {devices : List ℕ} (distinct : devices.Nodup) (db : Db)
    (records : List Recorded)
    (covers : ∀ r ∈ records, r.target.key = key → r.target.device ∈ devices) :
    column.part (gained stale key db records) =
      sumOf (fun device => ofDevice column stale key device db records) devices := by
  induction records generalizing db with
  | nil =>
    have none : ∀ device ∈ devices, ofDevice column stale key device db [] = (fun _ => 0) device := by
      intro device _
      rw [ofDevice, readings, followed, List.append_nil]
      cases db.baseline key device <;> rfl
    have zero : ∀ rows : List ℕ, sumOf (fun _ => 0) rows = 0 := by
      intro rows
      induction rows with
      | nil => rfl
      | cons _ rest ih => rw [sumOf_cons, ih]
    rw [sumOf_congr none, zero]
    exact column.zero
  | cons r rest ih =>
    have later := ih (record stale db r.target r.observation r.timestamp)
      fun q held => covers q (List.mem_cons_of_mem r held)
    have now : column.part (gained stale key db (r :: rest)) = column.part (gain db r key) +
        column.part (gained stale key (record stale db r.target r.observation r.timestamp) rest) := by
      rw [gained, column.adds, record_grew]
    rw [now, later]
    by_cases same : r.target.key = key
    · subst same
      symm
      apply sumOf_update distinct (covers r List.mem_cons_self rfl)
      · exact ofDevice_here column db r rest
      · intro other _ apart
        exact ofDevice_other column db r rest fun both => apart both.2.symm
    · have untouched : ∀ device ∈ devices, ofDevice column stale key device db (r :: rest) =
          ofDevice column stale key device
            (record stale db r.target r.observation r.timestamp) rest := by
        intro device _
        exact ofDevice_other column db r rest fun both => same both.1
      rw [sumOf_congr untouched, gain, if_neg same, column.zero, Nat.zero_add]

theorem ofDevice_measured (key : Key) (device : ℕ) (db : Db) (records : List Recorded) :
    ofDevice column stale key device db records =
      measuredBy column.value (readings stale key device db records) := by
  apply increments_eq
  intro a b together
  rw [sameCounter, Bool.and_eq_true, decide_eq_true_iff] at together
  exact together.2

theorem covers_devices (key : Key) (records : List Recorded) :
    ∀ r ∈ records, r.target.key = key → r.target.device ∈ devicesOf key records := by
  intro r held same
  rw [devicesOf, List.mem_dedup]
  exact List.mem_map.mpr ⟨r, List.mem_filter.mpr ⟨held, decide_eq_true same⟩, rfl⟩

theorem run_daily (key : Key) (db : Db) (records : List Recorded) :
    dailyTotal (run stale db records) key = (dailyTotal db key).add (gained stale key db records) := by
  induction records generalizing db with
  | nil => rfl
  | cons r rest ih =>
    rw [run_cons, ih, record_daily, gained, record_grew]
    simp only [Bytes.add, Nat.add_assoc]

end

/-- Over any calls, from any store: what is added to a key's usage, and to its days, is last
minus first over the runs of each of its devices. -/
theorem usage_telescopes (stale : String → String) (db : Db) (key : Key) (records : List Recorded) :
    gained stale key db records =
        (sumOf (fun device => measuredBy Reading.uplink (readings stale key device db records))
            (devicesOf key records),
          sumOf (fun device => measuredBy Reading.downlink (readings stale key device db records))
            (devicesOf key records)) ∧
      dailyTotal (run stale db records) key =
        (dailyTotal db key).add (gained stale key db records) := by
  have distinct : (devicesOf key records).Nodup := List.nodup_dedup _
  have covered := covers_devices key records
  constructor
  · apply Prod.ext
    · have up := @gained_eq stale upColumn key _ distinct db records covered
      simp only [ofDevice_measured] at up
      exact up
    · have down := @gained_eq stale downColumn key _ distinct db records covered
      simp only [ofDevice_measured] at down
      exact down
  · exact run_daily key db records

/-- Last minus first by epoch alone, the first epoch from its first reading. -/
def byEpoch (value : Reading → ℕ) (readings : List Reading) : ℤ :=
  match readings.splitBy sameRun with
  | [] => 0
  | run :: rest =>
    (lastValue value run : ℤ) - firstValue value run + sumOf (lastValue value) rest

def Db.empty : Db := ⟨∅, ∅, ∅, ∅, [], fun _ => []⟩

/-- One device whose counter shrinks within an epoch. -/
def shrinking : List Recorded :=
  let target : Target := ⟨⟨1, 1, .awg⟩, 1, none⟩
  [⟨target, some ⟨⟨"e", "key", 100, 100⟩, ∅⟩, "2026-11-01T00:00:00"⟩,
    ⟨target, some ⟨⟨"e", "key", 40, 130⟩, ∅⟩, "2026-11-01T00:02:00"⟩]

/-- A counter that shrinks counts from zero: by epochs the sum would be negative. -/
theorem shrinking_counts_again :
    let readings := readings (fun text => text) ⟨1, 1, .awg⟩ 1 Db.empty shrinking
    gained (fun text => text) ⟨1, 1, .awg⟩ Db.empty shrinking = (40, 30) ∧
      devicesOf ⟨1, 1, .awg⟩ shrinking = [1] ∧
      byEpoch Reading.uplink readings = -60 ∧ byEpoch Reading.downlink readings = 30 := by
  decide

end Traffic
end NodePlane
