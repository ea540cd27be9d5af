import NodePlane.Driver.OperationFile

/-! Every map of a store, in memory or in a version of its file, follows from the commands
handed out and the completions attempted so far; what was acknowledged stays as it is. -/
namespace NodePlane
namespace Driver
open Library

/-- What the operation of a command handed out as `s` may have become. -/
inductive Became (past : List Event) (s : StoredOperation) : Operation → Prop
  | running : Became past s s.operation
  | interrupted (now reason : String) : Became past s (markInterrupted now reason s.operation)
  | completed {operation : Operation} {acknowledged : Bool} :
      .completed operation acknowledged ∈ past →
      operation.operationId = s.operation.operationId → Became past s operation

/-- The record `r` is the one of the command handed out as `s`. -/
structure Stands (past : List Event) (s r : StoredOperation) : Prop where
  id : r.operation.operationId = s.operation.operationId
  command : r.commandId = s.commandId
  hash : r.requestHash = s.requestHash
  became : Became past s r.operation

/-- The map `records` holds what `past` has handed out and acknowledged. -/
structure Holds (uuids : Uuids) (past : List Event) (drawn : ℕ) (records : Operations) : Prop
    extends records.WellFormed where
  drawn : ∀ {k r}, records.lookup k = some r → ∃ n < drawn, k = uuids.draw n
  started : ∀ {s}, .started s ∈ past →
    ∃ r, records.lookup s.operation.operationId = some r ∧ Stands past s r
  acknowledged : ∀ {operation}, .completed operation true ∈ past →
    ∃ r, records.lookup operation.operationId = some r ∧ r.operation = operation

/-- Events that promise nothing new of a map. -/
def Event.quiet : Event → Prop
  | .started _ => False
  | .completed _ acknowledged => acknowledged = false
  | _ => True

/-- Events of a call that hands out nothing and ends nothing. -/
def Event.silent : Event → Prop
  | .started _ => False
  | .completed _ _ => False
  | _ => True

theorem Event.silent.quiet {e : Event} (silent : e.silent) : e.quiet := by
  cases e <;> trivial

theorem Became.later {past : List Event} {s : StoredOperation} {operation : Operation}
    (became : Became past s operation) (es : List Event) : Became (past ++ es) s operation := by
  cases became with
  | running => exact .running
  | interrupted now reason => exact .interrupted now reason
  | completed seen same => exact .completed (List.mem_append_left es seen) same

theorem Stands.later {past : List Event} {s r : StoredOperation} (stands : Stands past s r)
    (es : List Event) : Stands (past ++ es) s r :=
  ⟨stands.id, stands.command, stands.hash, stands.became.later es⟩

section
variable {format : Format} {uuids : Uuids} {past : List Event} {drawn : ℕ} {records : Operations}

theorem Holds.later (holds : Holds uuids past drawn records) {es : List Event} {n : ℕ}
    (quiet : ∀ e ∈ es, e.quiet) (more : drawn ≤ n) : Holds uuids (past ++ es) n records where
  keyed := holds.keyed
  identified := holds.identified
  unique := holds.unique
  drawn row := by
    obtain ⟨m, below, same⟩ := holds.drawn row
    exact ⟨m, by omega, same⟩
  started seen := by
    rcases List.mem_append.mp seen with old | new
    · obtain ⟨r, row, stands⟩ := holds.started old
      exact ⟨r, row, stands.later es⟩
    · exact absurd (quiet _ new) id
  acknowledged seen := by
    rcases List.mem_append.mp seen with old | new
    · exact holds.acknowledged old
    · exact absurd (quiet _ new) (by simp [Event.quiet])

/-- The same map in another order. -/
theorem Holds.same (holds : Holds uuids past drawn records) {read : Operations}
    (same : ∀ k, read.lookup k = records.lookup k) : Holds uuids past drawn read where
  keyed row := holds.keyed (same _ ▸ row)
  identified row := holds.identified (same _ ▸ row)
  unique row other := holds.unique (same _ ▸ row) (same _ ▸ other)
  drawn row := holds.drawn (same _ ▸ row)
  started seen := by
    rw [same]
    exact holds.started seen
  acknowledged seen := by
    rw [same]
    exact holds.acknowledged seen

/-- The next id is the id of no record. -/
theorem Holds.next_absent (holds : Holds uuids past drawn records) {k : String}
    {r : StoredOperation} (row : records.lookup k = some r) : k ≠ uuids.draw drawn := by
  intro same
  obtain ⟨n, below, drew⟩ := holds.drawn row
  have equal := uuids.distinct (drew.symm.trans same)
  omega

/-- A record of an id not drawn before, for a command the map does not have. -/
theorem Holds.insert (holds : Holds uuids past drawn records) {record : StoredOperation}
    (id : record.operation.operationId = uuids.draw drawn)
    (identified : record.commandId ≠ "" → record.requestHash.length = 32)
    (unused : ∀ k r, records.lookup k = some r → r.commandId = record.commandId →
      record.commandId = "") :
    Holds uuids past (drawn + 1) (records.put (uuids.draw drawn) record) := by
  have stays : ∀ {k r}, records.lookup k = some r →
      (records.put (uuids.draw drawn) record).lookup k = some r := by
    intro k r row
    rw [Table.lookup_put_ne record (holds.next_absent row)]
    exact row
  constructor
  · constructor
    · intro k r row
      rw [Table.lookup_put] at row
      split at row
      · rename_i here
        cases row
        exact ⟨by rw [id, here], here ▸ uuids.nonempty drawn⟩
      · exact holds.keyed row
    · intro k r row
      rw [Table.lookup_put] at row
      split at row
      · cases row
        exact identified
      · exact holds.identified row
    · intro k j r q row other same named
      rw [Table.lookup_put] at row other
      split at row <;> split at other
      · rename_i here there
        rw [here, there]
      · cases row
        exact absurd (unused j q other same.symm) named
      · cases other
        exact absurd (same.trans (unused k r row same)) named
      · exact holds.unique row other same named
  · intro k r row
    rw [Table.lookup_put] at row
    split at row
    · rename_i here
      exact ⟨drawn, by omega, here⟩
    · obtain ⟨n, below, same⟩ := holds.drawn row
      exact ⟨n, by omega, same⟩
  · intro s seen
    obtain ⟨r, row, stands⟩ := holds.started seen
    exact ⟨r, stays row, stands⟩
  · intro operation seen
    obtain ⟨r, row, same⟩ := holds.acknowledged seen
    exact ⟨r, stays row, same⟩

/-- The record of a guard takes what its command becomes with the events `es`. -/
theorem Holds.replace (holds : Holds uuids past drawn records) {es : List Event}
    {s r : StoredOperation} {operation : Operation} (seen : .started s ∈ past)
    (row : records.lookup s.operation.operationId = some r)
    (id : operation.operationId = s.operation.operationId)
    (became : Became (past ++ es) s operation)
    (alone : ∀ t, .started t ∈ past → t.operation.operationId = s.operation.operationId → t = s)
    (unfinished : ∀ done, .completed done true ∈ past →
      done.operationId ≠ s.operation.operationId)
    (handed : ∀ t, .started t ∉ es) (done : ∀ o, .completed o true ∈ es → o = operation) :
    Holds uuids (past ++ es) drawn (records.put operation.operationId { r with operation }) := by
  obtain ⟨r', row', stands⟩ := holds.started seen
  cases row.symm.trans row'
  rw [id]
  constructor
  · constructor
    · intro k q found
      rw [Table.lookup_put] at found
      split at found
      · rename_i here
        cases found
        exact ⟨by rw [id, here], here ▸ (holds.keyed row).2⟩
      · exact holds.keyed found
    · intro k q found
      rw [Table.lookup_put] at found
      split at found
      · cases found
        show r.commandId ≠ "" → r.requestHash.length = 32
        exact holds.identified row
      · exact holds.identified found
    · intro k j q p found other same named
      rw [Table.lookup_put] at found other
      split at found <;> split at other
      · rename_i here there
        rw [here, there]
      · rename_i here _
        cases found
        rw [here]
        exact holds.unique row other same named
      · rename_i _ there
        cases other
        rw [there]
        exact holds.unique found row same named
      · exact holds.unique found other same named
  · intro k q found
    rw [Table.lookup_put] at found
    split at found
    · rename_i here
      rw [here]
      exact holds.drawn row
    · exact holds.drawn found
  · intro t seen
    have old := (List.mem_append.mp seen).resolve_right (handed t)
    rw [Table.lookup_put]
    split
    · rename_i here
      obtain rfl := alone t old here
      exact ⟨_, rfl, id, stands.command, stands.hash, became⟩
    · obtain ⟨q, found, stands⟩ := holds.started old
      exact ⟨q, found, stands.later es⟩
  · intro o acknowledged
    rw [Table.lookup_put]
    rcases List.mem_append.mp acknowledged with old | new
    · rw [if_neg (unfinished o old)]
      exact holds.acknowledged old
    · obtain rfl := done o new
      rw [if_pos id]
      exact ⟨_, rfl, rfl⟩

/-- What a version of the file was written from; no file is an empty map. -/
def Written (format : Format) (records : Operations) : Option Bytes → Prop
  | none => records = ∅
  | some bytes => bytes = fileBytes format records

theorem readFile_written {version : Option Bytes} (written : Written format records version)
    (wellFormed : records.WellFormed) :
    ∃ read, readFile format version = .ok read ∧ ∀ k, read.lookup k = records.lookup k := by
  cases version with
  | none =>
    cases written
    exact ⟨∅, rfl, fun _ => rfl⟩
  | some bytes =>
    cases written
    exact readFile_fileBytes format wellFormed

/-- Every version that the path may show was written from a map that holds the past. -/
def Kept (format : Format) (uuids : Uuids) (past : List Event) (drawn : ℕ) (disk : Disk) : Prop :=
  ∀ version ∈ disk.versions,
    ∃ records, Written format records version ∧ Holds uuids past drawn records

theorem Kept.later {disk : Disk} (kept : Kept format uuids past drawn disk) {es : List Event}
    {n : ℕ} (quiet : ∀ e ∈ es, e.quiet) (more : drawn ≤ n) :
    Kept format uuids (past ++ es) n disk := by
  intro version present
  obtain ⟨records, written, holds⟩ := kept version present
  exact ⟨records, written, holds.later quiet more⟩

theorem Kept.crash {disk : Disk} (kept : Kept format uuids past drawn disk) (lost : ℕ) :
    Kept format uuids past drawn (disk.crash lost) := by
  intro version present
  unfold Disk.crash at present
  split at present
  · exact kept version present
  · rename_i file unsynced left
    apply kept version
    have among : version ∈ disk.versions.drop lost := by
      rw [left]
      exact present
    exact List.mem_of_mem_drop among

theorem Kept.persist {disk : Disk} (kept : Kept format uuids past drawn disk)
    (holds : Holds uuids past drawn records) (fault : Option Fault) :
    Kept format uuids past drawn (disk.persist format records fault).1 := by
  intro version present
  cases fault with
  | none =>
    obtain rfl := List.mem_singleton.mp present
    exact ⟨records, rfl, holds⟩
  | some fault =>
    simp only [Disk.persist] at present
    split at present
    · rcases List.mem_cons.mp present with rfl | old
      · exact ⟨records, rfl, holds⟩
      · exact kept version old
    · exact kept version present

/-- A save that succeeds leaves one version. -/
theorem kept_saved (disk : Disk) (holds : Holds uuids past drawn records) :
    Kept format uuids past drawn (disk.persist format records none).1 := by
  intro version present
  obtain rfl := List.mem_singleton.mp present
  exact ⟨records, rfl, holds⟩

/-- The commands handed out as new, oldest first; an anonymous one has no id. -/
def newCommands (past : List Event) : List String :=
  past.filterMap fun
    | .started s => if s.commandId = "" then none else some s.commandId
    | _ => none

theorem mem_newCommands {commandId : String} :
    commandId ∈ newCommands past ↔
      ∃ s, .started s ∈ past ∧ s.commandId = commandId ∧ commandId ≠ "" := by
  unfold newCommands
  rw [List.mem_filterMap]
  constructor
  · rintro ⟨e, seen, named⟩
    cases e with
    | started s =>
      by_cases anonymous : s.commandId = ""
      · simp [anonymous] at named
      · simp only [if_neg anonymous, Option.some.injEq] at named
        exact ⟨s, seen, named, named ▸ anonymous⟩
    | _ => simp at named
  · rintro ⟨s, seen, rfl, named⟩
    exact ⟨.started s, seen, if_neg named⟩

/-- What holds of the events alone. -/
structure Ledger (past : List Event) : Prop where
  alone : ∀ {s t}, .started s ∈ past → .started t ∈ past →
    s.operation.operationId = t.operation.operationId → s = t
  running : ∀ {s}, .started s ∈ past → s.operation.unfinished = true
  terminal : ∀ {operation acknowledged}, .completed operation acknowledged ∈ past →
    operation.unfinished = false
  once : (newCommands past).Nodup

/-- The guard of a command that was handed out and whose completion was not acknowledged. -/
structure Guards (past : List Event) (guard : Operation) : Prop where
  handed : ∃ s, .started s ∈ past ∧ s.operation = guard
  unfinished : ∀ done, .completed done true ∈ past → done.operationId ≠ guard.operationId

structure Process.Sound (uuids : Uuids) (past : List Event) (drawn : ℕ) (process : Process) :
    Prop where
  holds : Holds uuids past drawn process.operations
  guards : ∀ g ∈ process.running ++ process.ended, Guards past g
  distinct : ((process.running ++ process.ended).map Operation.operationId).Nodup

structure Store.Sound (format : Format) (uuids : Uuids) (past : List Event) (s : Store) : Prop where
  ledger : Ledger past
  kept : Kept format uuids past s.drawn s.disk
  process : ∀ p, s.process = some p → p.Sound uuids past s.drawn

theorem Ledger.quiet (ledger : Ledger past) {es : List Event} (handed : ∀ t, .started t ∉ es)
    (terminal : ∀ o acknowledged, .completed o acknowledged ∈ es → o.unfinished = false) :
    Ledger (past ++ es) where
  alone first second := ledger.alone ((List.mem_append.mp first).resolve_right (handed _))
    ((List.mem_append.mp second).resolve_right (handed _))
  running seen := ledger.running ((List.mem_append.mp seen).resolve_right (handed _))
  terminal seen := by
    rcases List.mem_append.mp seen with old | new
    · exact ledger.terminal old
    · exact terminal _ _ new
  once := by
    have none_new : newCommands es = [] := by
      rw [List.eq_nil_iff_forall_not_mem]
      intro commandId named
      obtain ⟨s, seen, _⟩ := mem_newCommands.mp named
      exact handed s seen
    have split : newCommands (past ++ es) = newCommands past ++ newCommands es := by
      simp [newCommands]
    rw [split, none_new, List.append_nil]
    exact ledger.once

theorem Guards.quiet {guard : Operation} (guards : Guards past guard) {es : List Event}
    (done : ∀ o, .completed o true ∈ es → o.operationId ≠ guard.operationId) :
    Guards (past ++ es) guard where
  handed := by
    obtain ⟨s, seen, same⟩ := guards.handed
    exact ⟨s, List.mem_append_left es seen, same⟩
  unfinished o seen := by
    rcases List.mem_append.mp seen with old | new
    · exact guards.unfinished o old
    · exact done o new

/-- `recover` ends only what no completion has reached. -/
theorem Holds.recover (holds : Holds uuids past drawn records) (ledger : Ledger past)
    (now : String → String) : Holds uuids past drawn (recover now records) := by
  have row_of : ∀ {k q}, (Driver.recover now records).lookup k = some q →
      ∃ r, records.lookup k = some r ∧ q.operation.operationId = r.operation.operationId ∧
        q.commandId = r.commandId ∧ q.requestHash = r.requestHash := by
    intro k q found
    rw [Driver.recover, Table.lookup_mapRows] at found
    obtain ⟨r, row, same⟩ := Option.map_eq_some_iff.mp found
    refine ⟨r, row, ?_⟩
    split at same <;> cases same <;> exact ⟨rfl, rfl, rfl⟩
  constructor
  · constructor
    · intro k q found
      obtain ⟨r, row, id, -, -⟩ := row_of found
      rw [id]
      exact holds.keyed row
    · intro k q found
      obtain ⟨r, row, -, command, hash⟩ := row_of found
      rw [command, hash]
      exact holds.identified row
    · intro k j q p found other
      obtain ⟨r, row, -, command, -⟩ := row_of found
      obtain ⟨r', row', -, command', -⟩ := row_of other
      rw [command, command']
      exact holds.unique row row'
  · intro k q found
    obtain ⟨r, row, -⟩ := row_of found
    exact holds.drawn row
  · intro s seen
    obtain ⟨r, row, stands⟩ := holds.started seen
    rw [Driver.recover, Table.lookup_mapRows, row]
    refine ⟨_, rfl, ?_⟩
    dsimp only
    split
    · rename_i unfinished
      refine ⟨stands.id, stands.command, stands.hash, ?_⟩
      have became := stands.became
      generalize r.operation = operation at unfinished became
      cases became with
      | running => exact .interrupted _ _
      | interrupted _ _ => simp [Operation.unfinished, markInterrupted] at unfinished
      | completed done _ =>
        rw [ledger.terminal done] at unfinished
        cases unfinished
    · exact stands
  · intro operation seen
    obtain ⟨r, row, same⟩ := holds.acknowledged seen
    have terminal := ledger.terminal seen
    refine ⟨r, ?_, same⟩
    rw [Driver.recover, Table.lookup_mapRows, row]
    simp [same, terminal]

/-- What `open` reads back from any version the path may show. -/
theorem Kept.read {disk : Disk} (kept : Kept format uuids past drawn disk) :
    ∃ read, readFile format disk.file = .ok read ∧ Holds uuids past drawn read := by
  obtain ⟨records, written, holds⟩ := kept disk.file (by simp [Disk.versions])
  obtain ⟨read, ok, same⟩ := readFile_written written holds.toWellFormed
  exact ⟨read, ok, holds.same same⟩

/-- Opening the store: only a failed save of the recovered records refuses it. -/
theorem openStore_cases {disk : Disk} (kept : Kept format uuids past drawn disk)
    (ledger : Ledger past) (now : String → String) (fault : Option Fault) :
    Kept format uuids past drawn (openStore format now fault disk).1 ∧
      ((∃ operations, (openStore format now fault disk).2 = .ok operations ∧
          Holds uuids past drawn operations ∧
          ∀ k r, operations.lookup k = some r → r.operation.unfinished = false) ∨
        ∃ failed, fault = some failed ∧ (openStore format now fault disk).2 = .error failed.error) := by
  obtain ⟨read, ok, holds⟩ := kept.read
  have recovered := holds.recover ledger now
  have ended : ∀ k r, (recover now read).lookup k = some r → r.operation.unfinished = false := by
    intro k q found
    rw [recover, Table.lookup_mapRows] at found
    obtain ⟨r, row, same⟩ := Option.map_eq_some_iff.mp found
    split at same
    · cases same
      simp [Operation.unfinished, markInterrupted]
    · rename_i finished
      cases same
      exact Bool.eq_false_iff.mpr finished
  unfold openStore
  rw [ok]
  dsimp only
  split
  · cases fault with
    | none => exact ⟨kept_saved disk recovered, .inl ⟨_, rfl, recovered, ended⟩⟩
    | some failed => exact ⟨kept.persist recovered (some failed), .inr ⟨failed, rfl, rfl⟩⟩
  · rename_i finished
    refine ⟨kept, .inl ⟨read, rfl, holds, ?_⟩⟩
    exact Table.has_false_iff.mp (Bool.eq_false_iff.mpr finished)

/-- `find` by command id meets the one record that has it. -/
theorem findCommand_iff (wellFormed : records.WellFormed) {commandId : String} (named : commandId ≠ "")
    {r : StoredOperation} :
    findCommand records commandId = some r ↔
      records.lookup r.operation.operationId = some r ∧ r.commandId = commandId := by
  unfold findCommand
  constructor
  · intro found
    have among := List.mem_of_find?_eq_some found
    have same := List.find?_some found
    obtain ⟨⟨k, q⟩, row, rfl⟩ := List.mem_map.mp among
    have lookup := Table.mem_rows_iff.mp row
    rw [(wellFormed.keyed lookup).1]
    exact ⟨lookup, by simpa using same⟩
  · rintro ⟨row, rfl⟩
    cases found : (records.rows.map Prod.snd).find? fun record => record.commandId = r.commandId with
    | none =>
      rw [List.find?_eq_none] at found
      have among := List.mem_map_of_mem (f := Prod.snd) (Table.mem_rows_iff.mpr row)
      have other := found r among
      simp at other
    | some q =>
      have among := List.mem_of_find?_eq_some found
      have same : q.commandId = r.commandId := by simpa using List.find?_some found
      obtain ⟨⟨k, q'⟩, there, rfl⟩ := List.mem_map.mp among
      have lookup := Table.mem_rows_iff.mp there
      have key := wellFormed.unique lookup row same (same ▸ named)
      rw [key] at lookup
      exact congrArg some (Option.some.inj (lookup.symm.trans row))

theorem Process.Sound.later {p : Process} (sound : p.Sound uuids past drawn) {es : List Event}
    {n : ℕ} (quiet : ∀ e ∈ es, e.quiet) (more : drawn ≤ n) : p.Sound uuids (past ++ es) n where
  holds := sound.holds.later quiet more
  guards g present := (sound.guards g present).quiet fun o done => by
    have calm := quiet _ done
    simp [Event.quiet] at calm
  distinct := sound.distinct

theorem Ledger.later (ledger : Ledger past) {es : List Event} (silent : ∀ e ∈ es, e.silent) :
    Ledger (past ++ es) :=
  ledger.quiet (fun _ seen => silent _ seen) fun _ _ seen => absurd (silent _ seen) id

/-- Events of a call that changes neither the map nor the guards. -/
theorem Store.Sound.later {s : Store} (sound : s.Sound format uuids past) {es : List Event} {n : ℕ}
    (silent : ∀ e ∈ es, e.silent) (more : s.drawn ≤ n) :
    Store.Sound format uuids (past ++ es) { s with drawn := n } where
  ledger := sound.ledger.later silent
  kept := sound.kept.later (fun e present => (silent e present).quiet) more
  process p running :=
    (sound.process p running).later (fun e present => (silent e present).quiet) more

theorem Store.Sound.openStore {s : Store} (sound : s.Sound format uuids past)
    (now : String → String) (fault : Option Fault) :
    (exec format uuids s (.openStore now fault)).1.Sound format uuids
      (past ++ (exec format uuids s (.openStore now fault)).2) := by
  unfold exec
  cases process : s.process with
  | some p => exact sound.later (by simp [Event.silent]) le_rfl
  | none =>
    obtain ⟨kept, outcome⟩ := openStore_cases sound.kept sound.ledger now fault
    dsimp only
    generalize Driver.openStore format now fault s.disk = result at kept outcome
    obtain ⟨disk, answer⟩ := result
    rcases outcome with ⟨operations, rfl, holds, -⟩ | ⟨failed, -, rfl⟩
    · refine ⟨sound.ledger.later (by simp [Event.silent]),
        kept.later (by simp [Event.quiet]) le_rfl, ?_⟩
      intro p running
      cases running
      exact ⟨holds.later (by simp [Event.quiet]) le_rfl, by simp, by simp⟩
    · refine ⟨sound.ledger.later (by simp [Event.silent]),
        kept.later (by simp [Event.quiet]) le_rfl, ?_⟩
      intro p running
      cases running

/-- The record of a command that is handed out. -/
theorem Holds.handOut (holds : Holds uuids past drawn records) {record : StoredOperation}
    (row : records.lookup record.operation.operationId = some record) :
    Holds uuids (past ++ [.started record]) drawn records where
  toWellFormed := holds.toWellFormed
  drawn := holds.drawn
  started seen := by
    rcases List.mem_append.mp seen with old | new
    · obtain ⟨r, found, stands⟩ := holds.started old
      exact ⟨r, found, stands.later _⟩
    · cases List.mem_singleton.mp new
      exact ⟨record, row, rfl, rfl, rfl, .running⟩
  acknowledged seen := by
    rcases List.mem_append.mp seen with old | new
    · exact holds.acknowledged old
    · cases List.mem_singleton.mp new

theorem Ledger.handOut (ledger : Ledger past) (holds : Holds uuids past drawn records)
    {record : StoredOperation} (id : record.operation.operationId = uuids.draw drawn)
    (running : record.operation.unfinished = true)
    (unused : ∀ k r, records.lookup k = some r → r.commandId = record.commandId →
      record.commandId = "") : Ledger (past ++ [.started record]) := by
  have fresh : ∀ s, .started s ∈ past → s.operation.operationId ≠ record.operation.operationId := by
    intro s seen same
    obtain ⟨r, row, -⟩ := holds.started seen
    exact holds.next_absent row (same.trans id)
  constructor
  · intro s t first second same
    rcases List.mem_append.mp first with old | new <;>
      rcases List.mem_append.mp second with old' | new'
    · exact ledger.alone old old' same
    · cases List.mem_singleton.mp new'
      exact absurd same (fresh s old)
    · cases List.mem_singleton.mp new
      exact absurd same.symm (fresh t old')
    · cases List.mem_singleton.mp new
      cases List.mem_singleton.mp new'
      rfl
  · intro s seen
    rcases List.mem_append.mp seen with old | new
    · exact ledger.running old
    · cases List.mem_singleton.mp new
      exact running
  · intro o acknowledged seen
    rcases List.mem_append.mp seen with old | new
    · exact ledger.terminal old
    · cases List.mem_singleton.mp new
  · have split : newCommands (past ++ [.started record]) =
        newCommands past ++ newCommands [.started record] := by
      simp [newCommands]
    rw [split, List.nodup_append]
    refine ⟨ledger.once, ?_, ?_⟩
    · by_cases anonymous : record.commandId = "" <;> simp [newCommands, anonymous]
    · intro commandId old other new same
      subst same
      obtain ⟨s, seen, command, named⟩ := mem_newCommands.mp old
      obtain ⟨t, handed, command', -⟩ := mem_newCommands.mp new
      cases List.mem_singleton.mp handed
      obtain ⟨r, row, stands⟩ := holds.started seen
      have same : r.commandId = record.commandId := by rw [stands.command, command, command']
      exact named (command' ▸ unused _ r row same)

/-- The guard of a command that is handed out. -/
theorem Process.Sound.handOut {p : Process} (sound : p.Sound uuids past drawn)
    {updated : Operations} {record : StoredOperation}
    (holds : Holds uuids (past ++ [.started record]) (drawn + 1) updated)
    (id : record.operation.operationId = uuids.draw drawn) :
    Process.Sound uuids (past ++ [.started record]) (drawn + 1)
      { p with
        operations := updated
        running := record.operation :: p.running } where
  holds := holds
  guards g present := by
    rcases List.mem_cons.mp present with rfl | old
    · refine ⟨⟨record, by simp, rfl⟩, ?_⟩
      intro done seen same
      rcases List.mem_append.mp seen with before | new
      · obtain ⟨r, row, -⟩ := sound.holds.acknowledged before
        exact sound.holds.next_absent row (same.trans id)
      · cases List.mem_singleton.mp new
    · exact (sound.guards g old).quiet (by simp)
  distinct := by
    show (record.operation.operationId ::
      (p.running ++ p.ended).map Operation.operationId).Nodup
    refine List.nodup_cons.mpr ⟨?_, sound.distinct⟩
    intro used
    obtain ⟨g, present, same⟩ := List.mem_map.mp used
    obtain ⟨s, seen, rfl⟩ := (sound.guards g present).handed
    obtain ⟨r, row, -⟩ := sound.holds.started seen
    exact sound.holds.next_absent row (same.trans id)

/-- The same command asks for something else. -/
def Differs (record : StoredOperation) (kind nodeKey profileName : String)
    (identity : CommandIdentity) : Prop :=
  record.operation.kind ≠ kind ∨ record.operation.nodeKey ≠ nodeKey ∨
    record.operation.profileName ≠ profileName ∨ record.requestHash ≠ identity.requestHash

theorem beginCommand_known (format : Format) (disk : Disk) {current : Operations}
    {record : StoredOperation} {identity : CommandIdentity}
    (known : findCommand current identity.commandId = some record)
    (kind nodeKey profileName operationId timestamp : String) (fault : Option Fault) :
    (Differs record kind nodeKey profileName identity →
      beginCommand format disk current kind nodeKey profileName (some identity) operationId
          timestamp fault =
        (disk, current, .error (.alreadyExists "command id was used with a different request"))) ∧
    (¬Differs record kind nodeKey profileName identity →
      beginCommand format disk current kind nodeKey profileName (some identity) operationId
          timestamp fault =
        (disk, current, .ok (.existing record.operation.operationId))) := by
  unfold beginCommand
  simp only [Option.bind_some, known, Option.map_some, ne_eq, Option.some.injEq]
  exact ⟨fun differs => if_pos differs, fun agrees => if_neg agrees⟩

/-- The identity of a request is met by no record. -/
def Unknown (current : Operations) (identity : Option CommandIdentity) : Prop :=
  (identity.bind fun identity => findCommand current identity.commandId) = none

/-- The record that a new command is given. -/
def newRecord (kind nodeKey profileName : String) (identity : Option CommandIdentity)
    (operationId timestamp : String) : StoredOperation where
  operation :=
    { operationId, kind, status := "RUNNING", nodeKey, profileName, startedAt := timestamp,
      updatedAt := timestamp, progressMessage := "execution started" }
  commandId := (identity.map CommandIdentity.commandId).getD ""
  requestHash := (identity.map CommandIdentity.requestHash).getD []

theorem beginCommand_new {disk : Disk} {current : Operations} {identity : Option CommandIdentity}
    (unknown : Unknown current identity)
    (kind nodeKey profileName operationId timestamp : String) (fault : Option Fault) :
    let record := newRecord kind nodeKey profileName identity operationId timestamp
    let updated := current.put operationId record
    beginCommand format disk current kind nodeKey profileName identity operationId timestamp fault =
      ((disk.persist format updated fault).1,
        match fault with
        | none => (updated, .ok (.new record.operation))
        | some failed =>
          (current, .error (.internal ("failed to persist operation: " ++ failed.error)))) := by
  unfold Unknown at unknown
  unfold beginCommand
  rw [unknown]
  cases fault <;> rfl

theorem newRecord_identified (kind nodeKey profileName : String)
    (identity : Option CommandIdentity) (operationId timestamp : String) :
    (newRecord kind nodeKey profileName identity operationId timestamp).commandId ≠ "" →
      (newRecord kind nodeKey profileName identity operationId timestamp).requestHash.length =
        32 := by
  cases identity with
  | none => simp [newRecord]
  | some identity => simp [newRecord, identity.digest]

theorem newRecord_unused (wellFormed : records.WellFormed) {identity : Option CommandIdentity}
    (unknown : Unknown records identity) (kind nodeKey profileName operationId timestamp : String)
    (k : String) (r : StoredOperation) (row : records.lookup k = some r)
    (same : r.commandId =
      (newRecord kind nodeKey profileName identity operationId timestamp).commandId) :
    (newRecord kind nodeKey profileName identity operationId timestamp).commandId = "" := by
  cases identity with
  | none => rfl
  | some identity =>
    have there : findCommand records identity.commandId = some r := by
      rw [findCommand_iff wellFormed identity.named, (wellFormed.keyed row).1]
      exact ⟨row, same⟩
    simp [Unknown, there] at unknown

theorem Store.Sound.beginCommand {s : Store} (sound : s.Sound format uuids past)
    (kind nodeKey profileName : String) (identity : Option CommandIdentity) (timestamp : String)
    (fault : Option Fault) :
    (exec format uuids s
        (.beginCommand kind nodeKey profileName identity timestamp fault)).1.Sound format uuids
      (past ++ (exec format uuids s
        (.beginCommand kind nodeKey profileName identity timestamp fault)).2) := by
  obtain ⟨disk, process, drawn⟩ := s
  unfold exec
  cases process with
  | none => simpa using sound
  | some p =>
    have old := sound.process p rfl
    dsimp only
    by_cases unknown : Unknown p.operations identity
    · have inserted := old.holds.insert rfl
        (newRecord_identified kind nodeKey profileName identity (uuids.draw drawn) timestamp)
        (newRecord_unused old.holds.toWellFormed unknown kind nodeKey profileName
          (uuids.draw drawn) timestamp)
      have unused := newRecord_unused old.holds.toWellFormed unknown kind nodeKey profileName
        (uuids.draw drawn) timestamp
      rw [beginCommand_new unknown]
      generalize made : newRecord kind nodeKey profileName identity (uuids.draw drawn) timestamp =
        record at inserted unused
      have id : record.operation.operationId = uuids.draw drawn := by
        rw [← made]
        rfl
      have running : record.operation.unfinished = true := by
        rw [← made]
        rfl
      cases fault with
      | none =>
        have row : (p.operations.put (uuids.draw drawn) record).lookup
            record.operation.operationId = some record := by
          rw [id, Table.lookup_put_self]
        have handed := inserted.handOut row
        simp only [row, Option.map_some, Option.toList_some]
        refine ⟨sound.ledger.handOut old.holds id running unused, kept_saved disk handed, ?_⟩
        intro q now_running
        cases now_running
        exact old.handOut handed id
      | some failed =>
        refine ⟨sound.ledger.later (by simp [Event.silent]), ?_, ?_⟩
        · exact (sound.kept.later (by simp [Event.quiet]) (Nat.le_succ _)).persist
            (inserted.later (by simp [Event.quiet]) le_rfl) _
        · intro q running
          cases running
          exact old.later (by simp [Event.quiet]) (Nat.le_succ _)
    · cases identity with
      | none => exact absurd rfl unknown
      | some identity =>
        obtain ⟨record, known⟩ := Option.ne_none_iff_exists'.mp unknown
        obtain ⟨refused, existing⟩ := beginCommand_known format disk known
          kind nodeKey profileName (uuids.draw drawn) timestamp fault
        by_cases differs : Differs record kind nodeKey profileName identity
        · rw [refused differs]
          exact sound.later (by simp [Event.silent]) (Nat.le_succ _)
        · rw [existing differs]
          exact sound.later (by simp [Event.silent]) (Nat.le_succ _)

theorem putOperation_eq (format : Format) (disk : Disk) (current : Operations)
    (operation : Operation) (fault : Option Fault) :
    let record := (current.lookup operation.operationId).getD {}
    let updated := current.put operation.operationId { record with operation }
    putOperation format disk current operation fault =
      ((disk.persist format updated fault).1,
        match fault with
        | none => (updated, .ok ())
        | some failed =>
          (current, .error (.internal ("failed to persist operation: " ++ failed.error)))) := by
  cases fault <;> rfl

theorem find_guard {guards : List Operation} {operationId : String} {guard : Operation}
    (found : Process.find guards operationId = some guard) :
    guard ∈ guards ∧ guard.operationId = operationId := by
  refine ⟨List.mem_of_find?_eq_some found, ?_⟩
  simpa using List.find?_some found

theorem mem_without {guards : List Operation} {operationId : String} {g : Operation} :
    g ∈ without guards operationId ↔ g ∈ guards ∧ g.operationId ≠ operationId := by
  simp [without]

/-- The map with the record of a guard put as `operation`, when the events `es` add that
`operation` was recorded. -/
theorem Process.Sound.put {p : Process} (sound : p.Sound uuids past drawn) (ledger : Ledger past)
    {guard operation : Operation} (held : guard ∈ p.running ++ p.ended)
    (id : operation.operationId = guard.operationId) {es : List Event}
    (became : ∀ s, .started s ∈ past → s.operation = guard → Became (past ++ es) s operation)
    (handed : ∀ t, .started t ∉ es) (done : ∀ o, .completed o true ∈ es → o = operation) :
    Holds uuids (past ++ es) drawn
      (p.operations.put operation.operationId
        { (p.operations.lookup operation.operationId).getD {} with operation }) := by
  have guards := sound.guards guard held
  obtain ⟨s, seen, rfl⟩ := guards.handed
  obtain ⟨r, row, -⟩ := sound.holds.started seen
  rw [id, row, ← id]
  exact sound.holds.replace seen row id (became s seen rfl)
    (fun t started same => ledger.alone started seen same) guards.unfinished handed done

theorem without_sublist (guards : List Operation) (operationId : String) :
    List.Sublist ((without guards operationId).map Operation.operationId)
      (guards.map Operation.operationId) :=
  List.filter_sublist.map _

theorem Process.Sound.apart {p : Process} (sound : p.Sound uuids past drawn) {guard g : Operation}
    (held : guard ∈ p.running) (ended : g ∈ p.ended) : g.operationId ≠ guard.operationId := by
  have distinct := sound.distinct
  rw [List.map_append, List.nodup_append] at distinct
  intro same
  exact distinct.2.2 _ (List.mem_map_of_mem held) _ (List.mem_map_of_mem ended) same.symm

/-- The guard of an acknowledged completion is gone. -/
theorem Process.Sound.acknowledge {p : Process} (sound : p.Sound uuids past drawn)
    {guard operation : Operation} (held : guard ∈ p.running)
    (id : operation.operationId = guard.operationId) {updated : Operations}
    (holds : Holds uuids (past ++ [.completed operation true]) drawn updated) :
    Process.Sound uuids (past ++ [.completed operation true]) drawn
      { p with
        operations := updated
        running := without p.running guard.operationId } where
  holds := holds
  guards g present := by
    have away : g.operationId ≠ operation.operationId ∧ g ∈ p.running ++ p.ended := by
      rcases List.mem_append.mp present with running | ended
      · obtain ⟨running, ne⟩ := mem_without.mp running
        exact ⟨id ▸ ne, List.mem_append_left _ running⟩
      · exact ⟨id ▸ sound.apart held ended, List.mem_append_right _ ended⟩
    refine (sound.guards g away.2).quiet ?_
    intro o done
    cases List.mem_singleton.mp done
    exact away.1.symm
  distinct := by
    refine List.Sublist.nodup ?_ sound.distinct
    rw [List.map_append, List.map_append]
    exact (without_sublist p.running _).append_right _

/-- The guard of a completion that failed is still to be dropped. -/
theorem Process.Sound.fail {p : Process} (sound : p.Sound uuids past drawn)
    {guard operation : Operation} (held : guard ∈ p.running) :
    Process.Sound uuids (past ++ [.completed operation false]) drawn
      { p with
        running := without p.running guard.operationId
        ended := guard :: p.ended } where
  holds := sound.holds.later (by simp [Event.quiet]) le_rfl
  guards g present := by
    refine (sound.guards g ?_).quiet (by simp)
    rcases List.mem_append.mp present with running | ended
    · exact List.mem_append_left _ (mem_without.mp running).1
    · rcases List.mem_cons.mp ended with rfl | ended
      · exact List.mem_append_left _ held
      · exact List.mem_append_right _ ended
  distinct := by
    have distinct := sound.distinct
    rw [List.map_append, List.nodup_append] at distinct
    rw [List.map_append, List.nodup_append]
    refine ⟨(without_sublist p.running _).nodup distinct.1, ?_, ?_⟩
    · refine List.nodup_cons.mpr ⟨?_, distinct.2.1⟩
      intro used
      obtain ⟨g, ended, same⟩ := List.mem_map.mp used
      exact sound.apart held ended same
    · intro a left b right
      obtain ⟨g, running, rfl⟩ := List.mem_map.mp left
      obtain ⟨running, ne⟩ := mem_without.mp running
      rcases List.mem_cons.mp right with rfl | ended
      · exact ne
      · exact distinct.2.2 _ (List.mem_map_of_mem running) _ ended

theorem Process.Sound.dropped {p : Process} (sound : p.Sound uuids past drawn)
    {operations : Operations} (holds : Holds uuids past drawn operations) (operationId : String) :
    Process.Sound uuids past drawn
      ⟨operations, without p.running operationId, without p.ended operationId⟩ where
  holds := holds
  guards g present := by
    apply sound.guards g
    rcases List.mem_append.mp present with running | ended
    · exact List.mem_append_left _ (mem_without.mp running).1
    · exact List.mem_append_right _ (mem_without.mp ended).1
  distinct := by
    refine List.Sublist.nodup ?_ sound.distinct
    rw [List.map_append, List.map_append]
    exact (without_sublist p.running _).append (without_sublist p.ended _)

theorem Completion.record_unfinished (completion : Completion) (now : String)
    (operation : Operation) : (completion.record now operation).unfinished = false := by
  simp [Operation.unfinished, Completion.record, completion.terminal]

theorem Store.Sound.complete {s : Store} (sound : s.Sound format uuids past) (operationId : String)
    (completion : Completion) (now : String) (fault : Option Fault) :
    (exec format uuids s (.complete operationId completion now fault)).1.Sound format uuids
      (past ++ (exec format uuids s (.complete operationId completion now fault)).2) := by
  obtain ⟨disk, process, drawn⟩ := s
  unfold exec
  cases process with
  | none => simpa using sound
  | some p =>
    dsimp only
    have old := sound.process p rfl
    cases found : Process.find p.running operationId with
    | none => simpa using sound
    | some guard =>
      obtain ⟨held, rfl⟩ := find_guard found
      have same : (completion.record now guard).operationId = guard.operationId := rfl
      have terminal := completion.record_unfinished now guard
      dsimp only
      rw [putOperation_eq]
      generalize completion.record now guard = operation at same terminal
      have held' := List.mem_append_left p.ended held
      have put : ∀ acknowledged, Holds uuids (past ++ [.completed operation acknowledged]) drawn
          (p.operations.put operation.operationId
            { (p.operations.lookup operation.operationId).getD {} with operation }) := by
        intro acknowledged
        refine old.put sound.ledger held' same ?_ (by simp) (by simp +contextual)
        intro s _ own
        have seen : Event.completed operation acknowledged ∈
            past ++ [.completed operation acknowledged] := by simp
        exact .completed seen (own ▸ same)
      cases fault with
      | none =>
        refine ⟨sound.ledger.quiet (by simp) (by simp [terminal]), kept_saved disk (put true), ?_⟩
        intro q running
        cases running
        exact old.acknowledge held same (put true)
      | some failed =>
        refine ⟨sound.ledger.quiet (by simp) (by simp [terminal]), ?_, ?_⟩
        · exact (sound.kept.later (by simp [Event.quiet]) le_rfl).persist (put false) _
        · intro q running
          cases running
          exact old.fail held

theorem Store.Sound.drop {s : Store} (sound : s.Sound format uuids past) (operationId : String)
    (now : String) (fault : Option Fault) :
    (exec format uuids s (.drop operationId now fault)).1.Sound format uuids
      (past ++ (exec format uuids s (.drop operationId now fault)).2) := by
  obtain ⟨disk, process, drawn⟩ := s
  unfold exec
  cases process with
  | none => simpa using sound
  | some p =>
    dsimp only
    have old := sound.process p rfl
    cases found : Process.find (p.running ++ p.ended) operationId with
    | none => simpa using sound
    | some guard =>
      obtain ⟨held, rfl⟩ := find_guard found
      dsimp only
      rw [putOperation_eq]
      generalize ended : markInterrupted now "execution ended before recording a terminal result"
        guard = operation
      have same : operation.operationId = guard.operationId := by
        rw [← ended]
        rfl
      have put : Holds uuids (past ++ []) drawn (p.operations.put operation.operationId
          { (p.operations.lookup operation.operationId).getD {} with operation }) := by
        refine old.put sound.ledger held same ?_ (by simp) (by simp)
        intro s _ own
        rw [← ended, ← own]
        exact .interrupted now _
      rw [List.append_nil] at put ⊢
      refine ⟨sound.ledger, sound.kept.persist put fault, ?_⟩
      intro q running
      cases fault with
      | none =>
        cases running
        exact old.dropped put guard.operationId
      | some failed =>
        cases running
        exact old.dropped old.holds guard.operationId

/-- Every call keeps what the store holds. -/
theorem Store.Sound.exec {s : Store} (sound : s.Sound format uuids past) (c : Call) :
    (exec format uuids s c).1.Sound format uuids (past ++ (exec format uuids s c).2) := by
  cases c with
  | openStore now fault => exact sound.openStore now fault
  | beginCommand kind nodeKey profileName identity timestamp fault =>
    exact sound.beginCommand kind nodeKey profileName identity timestamp fault
  | complete operationId completion now fault => exact sound.complete operationId completion now fault
  | drop operationId now fault => exact sound.drop operationId now fault
  | crash lost =>
    rw [Driver.exec, List.append_nil]
    exact ⟨sound.ledger, sound.kept.crash lost, by simp⟩
  | close =>
    rw [Driver.exec]
    split
    · simpa using sound
    · split
      · rw [List.append_nil]
        exact ⟨sound.ledger, sound.kept, by simp⟩
      · simpa using sound

theorem fresh_sound : Store.fresh.Sound format uuids [] where
  ledger := ⟨by simp, by simp, by simp, by simp [newCommands]⟩
  kept version present := by
    obtain rfl := List.mem_singleton.mp present
    refine ⟨∅, rfl, ⟨by simp, by simp, by simp⟩, by simp, by simp, by simp⟩
  process p running := by cases running

theorem after_sound (format : Format) (uuids : Uuids) (calls : List Call) :
    (after format uuids calls).Sound format uuids (history format uuids calls) := by
  have start : Store.fresh.Sound format uuids [] := fresh_sound
  have sound := run_invariant (fun past (s : Store) => s.Sound format uuids past)
    (fun past s c sound => sound.exec c) start calls
  rw [List.nil_append] at sound
  exact sound

/-- `r` is the record of a command that was handed out and whose completion was
acknowledged. -/
def Acknowledged (past : List Event) (r : StoredOperation) : Prop :=
  .completed r.operation true ∈ past ∧
    ∃ s, .started s ∈ past ∧ r.operation.operationId = s.operation.operationId ∧
      r.commandId = s.commandId ∧ r.requestHash = s.requestHash

theorem Holds.acknowledged_record (holds : Holds uuids past drawn records) {r : StoredOperation}
    (acknowledged : Acknowledged past r) :
    records.lookup r.operation.operationId = some r := by
  obtain ⟨completed, s, started, id, command, hash⟩ := acknowledged
  obtain ⟨q, row, same⟩ := holds.acknowledged completed
  obtain ⟨p, row', stands⟩ := holds.started started
  rw [← id, row] at row'
  cases row'
  rw [row]
  have command' : q.commandId = r.commandId := stands.command.trans command.symm
  have hash' : q.requestHash = r.requestHash := stands.hash.trans hash.symm
  obtain ⟨operation, commandId, requestHash⟩ := q
  cases same
  cases command'
  cases hash'
  rfl

/-- A record that no acknowledged completion has reached, after a reopening. -/
def Interrupted (past : List Event) (s r : StoredOperation) : Prop :=
  r.commandId = s.commandId ∧ r.requestHash = s.requestHash ∧
    ((∃ now reason, r.operation = markInterrupted now reason s.operation) ∨
      .completed r.operation false ∈ past)

/-- What a reopening yields: every acknowledged record unchanged, every other command
that was handed out interrupted or with the result of an attempt. -/
structure Reopened (past : List Event) (operations : Operations) : Prop where
  unchanged : ∀ r, Acknowledged past r → operations.lookup r.operation.operationId = some r
  ended : ∀ s, .started s ∈ past →
    (∀ done, .completed done true ∈ past → done.operationId ≠ s.operation.operationId) →
    ∃ r, operations.lookup s.operation.operationId = some r ∧ Interrupted past s r

theorem Holds.reopened (holds : Holds uuids past drawn records)
    (ledger : Ledger past) (ended : ∀ k r, records.lookup k = some r → r.operation.unfinished = false) :
    Reopened past records where
  unchanged r acknowledged := holds.acknowledged_record acknowledged
  ended s started unfinished := by
    obtain ⟨r, row, stands⟩ := holds.started started
    refine ⟨r, row, stands.command, stands.hash, ?_⟩
    have finished := ended _ _ row
    have became := stands.became
    generalize r.operation = operation at became finished
    cases became with
    | running =>
      rw [ledger.running started] at finished
      cases finished
    | interrupted now reason => exact .inl ⟨now, reason, rfl⟩
    | completed done same =>
      rename_i acknowledged
      cases acknowledged with
      | false => exact .inr done
      | true => exact absurd same (unfinished _ done)

end
end Driver
end NodePlane
