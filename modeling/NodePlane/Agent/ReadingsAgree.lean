import NodePlane.Agent.Readings
import Mathlib.Data.List.Infix

/-! A batch gives each identity the reading that its single read gives from the same state. -/
namespace NodePlane
namespace Readings
open Library

variable {name identity : String} {stats : BTreeMap String Int} {node : Node} {query : Query}

/-- What a reply of the batch tells about an identity. -/
def BatchSnapshot.reading (reply : BatchSnapshot) (query : Query) : Option Snapshot :=
  reply.items.find? fun snapshot =>
    snapshot.runtimeName = query.runtimeName ∧ snapshot.protocol = query.protocol ∧
      snapshot.identity = query.identity

theorem contains_of_prefix {text start pattern : List Char} (starts : start.isPrefixOf text = true)
    (part : pattern <+: start) : contains text pattern = true := by
  rw [List.isPrefixOf_iff_prefix] at starts
  rw [contains, List.any_eq_true]
  refine ⟨text, ?_, ?_⟩
  · rw [List.mem_tails]
  · rw [List.isPrefixOf_iff_prefix]
    exact part.trans starts

/-- Where every single read fails, a batch of nothing known says the same. -/
theorem silent {α β : Type} {users : List α} {reads : α → Except String β}
    (fails : ∀ user, ∃ err, reads user = .error err) :
    List.replicate users.length none = users.map fun user => (reads user).toOption := by
  rw [← List.map_const']
  apply List.map_congr_left
  intro user _
  obtain ⟨err, failed⟩ := fails user
  rw [failed]
  rfl

/-- A client's own counters are among those of any part of its prefix. -/
theorem Xray.own_queryStats {pattern : String}
    (part : pattern.toList <+: ("user>>>" ++ name ++ ".").toList) :
    own name (queryStats stats pattern) = own name stats := by
  apply Std.ExtTreeMap.ext_getElem?
  intro stat
  rw [own, own, queryStats, BTreeMap.get_filter, BTreeMap.get_filter, BTreeMap.get_filter]
  generalize ("user>>>" ++ name ++ ".").toList = start at part
  cases stats[stat]? with
  | none => rfl
  | some value =>
    by_cases starts : start.isPrefixOf stat.toList = true
    · simp only [Option.filter, contains_of_prefix starts part, if_true]
    · by_cases held : contains stat.toList pattern.toList = true
      · simp only [Option.filter, held, if_true]
      · simp only [Option.filter, held, starts, Bool.false_eq_true, if_false]

/-- One query for all users attributes as a query for each. -/
theorem Xray.batch_counters (node : Xray.Node) (users : List (String × String)) :
    Xray.batch node users =
      users.map fun user => (Xray.counters node user.1 user.2).toOption := by
  rw [batch]
  cases found : node.config with
  | error err =>
    apply silent
    intro user
    exact ⟨err, by rw [counters, found]; rfl⟩
  | ok config =>
    cases answered : node.stats with
    | none =>
      apply silent
      intro user
      rw [counters, found, answered]
      cases checked : checkConfig config node.tags user.1 user.2 with
      | error err => exact ⟨err, by simp [bind, Except.bind, checked]⟩
      | ok _ => exact ⟨_, by simp [bind, Except.bind, checked, throw, throwThe, MonadExceptOf.throw]; rfl⟩
    | some all =>
      dsimp only
      rw [Xray.split]
      apply List.map_congr_left
      rintro ⟨name, identity⟩ _
      have whole : "user>>>".toList <+: ("user>>>" ++ name ++ ".").toList := by
        simp
      simp only [counters, found, answered]
      cases checked : checkConfig config node.tags name identity with
      | error err => simp [bind, Except.bind, Except.toOption, checked]
      | ok _ =>
        have every := @own_queryStats name all _ whole
        have each := @own_queryStats name all _ (List.prefix_refl _)
        simp [bind, Except.bind, checked, every, each]

/-- One transfer listing for all peers attributes as a listing for each. -/
theorem Awg.batch_counters (node : Awg.Node) (peers : List (String × String)) :
    Awg.batch node peers =
      peers.map fun peer => (Awg.counters node peer.1 peer.2).toOption := by
  rw [batch]
  cases found : node.config with
  | error err =>
    apply silent
    intro peer
    exact ⟨err, by rw [counters, found]; rfl⟩
  | ok text =>
    by_cases valid : validInterface node.interface = true
    · cases printed : node.transfer with
      | error err =>
        simp only [valid, if_true, Except.toOption, Option.map_none]
        apply silent
        intro peer
        rw [counters, found, printed]
        cases checked : checkConfig text (node.peerName peer.1) peer.2 with
        | error refused => exact ⟨refused, by simp [bind, Except.bind, checked]⟩
        | ok _ => exact ⟨err, by simp [bind, Except.bind, checked, valid]⟩
      | ok output =>
        simp only [valid, if_true, Except.toOption, Option.map_some]
        rw [Awg.split]
        apply List.map_congr_left
        rintro ⟨name, identity⟩ _
        simp only [counters, found, printed]
        cases checked : checkConfig text (node.peerName name) identity with
        | error err => simp [bind, Except.bind, checked]
        | ok _ => simp [bind, Except.bind, checked, valid, Except.toOption]
    · simp only [valid, Bool.false_eq_true, if_false]
      apply silent
      intro peer
      rw [counters, found]
      cases checked : checkConfig text (node.peerName peer.1) peer.2 with
      | error refused => exact ⟨refused, by simp [bind, Except.bind, checked]⟩
      | ok _ =>
        exact ⟨_, by simp [bind, Except.bind, checked, valid, throw, throwThe,
          MonadExceptOf.throw]; rfl⟩

/-! One protocol's pass, and the whole batch. -/

/-- A single read by what it asks: the epoch, the counters, the epoch again. -/
theorem read_of_valid (valid : query.validate = .ok ()) :
    (read node query).toOption =
      (checkedEpoch node.before node.boot (node.container query.protocol)).toOption.bind
        fun epoch => (node.counters query).toOption.bind fun counted =>
          if (checkedEpoch node.after node.boot (node.container query.protocol)).toOption =
            some epoch then some (query.snapshot epoch counted.1 counted.2) else none := by
  rw [read, valid]
  simp only [bind, Except.bind]
  cases checkedEpoch node.before node.boot (node.container query.protocol) with
  | error err => rfl
  | ok epoch =>
    cases node.counters query with
    | error err => rfl
    | ok counted =>
      cases checkedEpoch node.after node.boot (node.container query.protocol) with
      | error err => simp [Except.toOption]
      | ok again =>
        by_cases same : again = epoch
        · simp [Except.toOption, same, pure, Except.pure]
        · simp [Except.toOption, same, throw, throwThe, MonadExceptOf.throw]

theorem zip_map_filterMap {α β γ : Type} (f : α → β) (g : α × β → Option γ) (rows : List α) :
    (rows.zip (rows.map f)).filterMap g = rows.filterMap fun row => g (row, f row) := by
  induction rows with
  | nil => rfl
  | cons row rest ih => simp [List.filterMap_cons, ih]

/-- The counters of a protocol's pass are those of the single reads. -/
theorem pass_counters {selected : List Query} {protocol : String}
    (alike : ∀ query ∈ selected, query.protocol = protocol) :
    (let pairs := selected.map fun query => (query.runtimeName, query.identity)
      if protocol = "xray" then Xray.batch node.xray pairs
      else (Awg.batch node.awg pairs).map (·.map fun counters => (counters, (∅ : ByInbound)))) =
      selected.map fun query => (node.counters query).toOption := by
  dsimp only
  by_cases engine : protocol = "xray"
  · rw [if_pos engine, Xray.batch_counters, List.map_map]
    apply List.map_congr_left
    intro query held
    rw [Node.counters, if_pos ((alike query held).trans engine)]
    rfl
  · rw [if_neg engine, Awg.batch_counters, List.map_map, List.map_map]
    apply List.map_congr_left
    intro query held
    rw [Node.counters, if_neg (by rw [alike query held]; exact engine)]
    simp only [Function.comp_apply]
    cases Awg.counters node.awg query.runtimeName query.identity <;> rfl

theorem readProtocol_eq {queries : List Query} {protocol : String}
    (valid : ∀ query ∈ queries, query.validate = .ok ()) :
    readProtocol node queries protocol =
      (queries.filter fun query => query.protocol = protocol).filterMap fun query =>
        (read node query).toOption := by
  rw [readProtocol]
  have alike : ∀ query ∈ queries.filter (fun query => query.protocol = protocol),
      query.validate = .ok () ∧ query.protocol = protocol := by
    intro query held
    rw [List.mem_filter, decide_eq_true_iff] at held
    exact ⟨valid query held.1, held.2⟩
  generalize queries.filter (fun query => query.protocol = protocol) = selected at alike
  have single : ∀ query ∈ selected, (read node query).toOption = _ :=
    fun query held => read_of_valid (alike query held).1
  dsimp only
  by_cases empty : selected.isEmpty = true
  · rw [if_pos empty, List.isEmpty_iff.mp empty, List.filterMap_nil]
  · rw [if_neg empty, pass_counters fun query held => (alike query held).2]
    symm
    cases started : checkedEpoch node.before node.boot (node.container protocol) with
    | error err =>
      rw [List.filterMap_eq_nil_iff]
      intro query held
      rw [single query held, (alike query held).2, started]
      rfl
    | ok epoch =>
      dsimp only
      split
      next changed =>
        rw [List.filterMap_eq_nil_iff]
        intro query held
        rw [single query held, (alike query held).2, started]
        cases (node.counters query).toOption with
        | none => rfl
        | some counted => exact if_neg changed
      next steady =>
        rw [not_not] at steady
        rw [zip_map_filterMap]
        apply List.filterMap_congr
        intro query held
        rw [single query held, (alike query held).2, started, steady]
        cases (node.counters query).toOption with
        | none => rfl
        | some counted => exact if_pos rfl

theorem validated_iff {queries : List Query} :
    queries.forM Query.validate = .ok () ↔ ∀ query ∈ queries, query.validate = .ok () := by
  induction queries with
  | nil => simp [pure, Except.pure]
  | cons query rest ih =>
    rw [List.forall_mem_cons, ← ih]
    change (query.validate >>= fun _ => rest.forM Query.validate) = .ok () ↔ _
    cases query.validate with
    | error err => simp [bind, Except.bind]
    | ok _ => simp [bind, Except.bind]

theorem validate_protocol (valid : query.validate = .ok ()) :
    query.protocol = "xray" ∨ query.protocol = "awg" := by
  rw [Query.validate] at valid
  split at valid
  · cases valid
  · split at valid
    · exact .inl (by assumption)
    · split at valid
      · exact .inr (by assumption)
      · cases valid

/-- A batch is refused for its size or one bad query, and for nothing else. -/
theorem readBatch_of_valid {batch : Batch} (small : batch.items.length ≤ maxBatch)
    (valid : ∀ query ∈ batch.queries, query.validate = .ok ()) :
    readBatch node batch =
      .ok ⟨batch.nodeKey, ["xray", "awg"].flatMap (readProtocol node batch.queries)⟩ := by
  rw [readBatch, if_neg (Nat.not_lt.mpr small), validated_iff.mpr valid]
  rfl

theorem valid_of_readBatch {batch : Batch} {reply : BatchSnapshot}
    (answered : readBatch node batch = .ok reply) :
    batch.items.length ≤ maxBatch ∧ ∀ query ∈ batch.queries, query.validate = .ok () := by
  rw [readBatch] at answered
  by_cases big : maxBatch < batch.items.length
  · rw [if_pos big] at answered
    cases answered
  · refine ⟨Nat.not_lt.mp big, ?_⟩
    rw [if_neg big] at answered
    rw [← validated_iff]
    cases validated : batch.queries.forM Query.validate with
    | error err =>
      rw [validated] at answered
      cases answered
    | ok _ => rfl

theorem read_snapshot {snapshot : Snapshot} (got : read node query = .ok snapshot) :
    snapshot.nodeKey = query.nodeKey ∧ snapshot.runtimeName = query.runtimeName ∧
      snapshot.protocol = query.protocol ∧ snapshot.identity = query.identity := by
  have valid : query.validate = .ok () := by
    cases checked : query.validate with
    | error err =>
      rw [read, checked] at got
      cases got
    | ok _ => rfl
  have answer : (read node query).toOption = some snapshot := by rw [got]; rfl
  rw [read_of_valid valid, Option.bind_eq_some_iff] at answer
  obtain ⟨epoch, _, answer⟩ := answer
  rw [Option.bind_eq_some_iff] at answer
  obtain ⟨counted, _, answer⟩ := answer
  split at answer
  · cases answer
    exact ⟨rfl, rfl, rfl, rfl⟩
  · cases answer

/-- The reply holds the successful single reads and nothing else. -/
theorem mem_items {batch : Batch} {snapshot : Snapshot}
    (valid : ∀ query ∈ batch.queries, query.validate = .ok ()) :
    snapshot ∈ ["xray", "awg"].flatMap (readProtocol node batch.queries) ↔
      ∃ query ∈ batch.queries, read node query = .ok snapshot := by
  have item : ∀ protocol, snapshot ∈ readProtocol node batch.queries protocol ↔
      ∃ query ∈ batch.queries, query.protocol = protocol ∧ read node query = .ok snapshot := by
    intro protocol
    rw [readProtocol_eq valid, List.mem_filterMap]
    constructor
    · rintro ⟨query, held, got⟩
      rw [List.mem_filter, decide_eq_true_iff] at held
      cases answer : read node query with
      | error err => rw [answer] at got; cases got
      | ok found => rw [answer] at got; cases got; exact ⟨query, held.1, held.2, answer⟩
    · rintro ⟨query, held, alike, got⟩
      refine ⟨query, ?_, by rw [got]; rfl⟩
      rw [List.mem_filter, decide_eq_true_iff]
      exact ⟨held, alike⟩
  rw [List.mem_flatMap]
  constructor
  · rintro ⟨protocol, _, held⟩
    obtain ⟨query, asked, _, got⟩ := (item protocol).mp held
    exact ⟨query, asked, got⟩
  · rintro ⟨query, asked, got⟩
    refine ⟨query.protocol, ?_, (item _).mpr ⟨query, asked, rfl, got⟩⟩
    simpa using validate_protocol (valid query asked)

/-- A batch of at most `maxBatch` valid queries is answered, and its reply tells of each
identity exactly what its single read from the same state tells; one whose single read fails
is left out. -/
theorem batch_agrees (node : Node) (batch : Batch) :
    ((∃ reply, readBatch node batch = .ok reply) ↔
      batch.items.length ≤ maxBatch ∧ ∀ query ∈ batch.queries, query.validate = .ok ()) ∧
    ∀ reply, readBatch node batch = .ok reply →
      reply.nodeKey = batch.nodeKey ∧
      (∀ query ∈ batch.queries, reply.reading query = (read node query).toOption) ∧
      ∀ snapshot ∈ reply.items, ∃ query ∈ batch.queries, read node query = .ok snapshot := by
  constructor
  · constructor
    · rintro ⟨reply, answered⟩
      exact valid_of_readBatch answered
    · rintro ⟨small, valid⟩
      exact ⟨_, readBatch_of_valid small valid⟩
  · intro reply answered
    obtain ⟨small, valid⟩ := valid_of_readBatch answered
    rw [readBatch_of_valid small valid] at answered
    cases answered
    refine ⟨rfl, ?_, fun snapshot held => (mem_items valid).mp held⟩
    intro query asked
    -- Two queries of a batch under one identity are the same query.
    have sole : ∀ snapshot ∈ ["xray", "awg"].flatMap (readProtocol node batch.queries),
        snapshot.runtimeName = query.runtimeName ∧ snapshot.protocol = query.protocol ∧
          snapshot.identity = query.identity → read node query = .ok snapshot := by
      rintro snapshot held ⟨name, protocol, identity⟩
      obtain ⟨other, also, got⟩ := (mem_items valid).mp held
      obtain ⟨_, itsName, itsProtocol, itsIdentity⟩ := read_snapshot got
      rw [Batch.queries, List.mem_map] at asked also
      obtain ⟨_, _, rfl⟩ := asked
      obtain ⟨_, _, rfl⟩ := also
      rw [itsName] at name
      rw [itsProtocol] at protocol
      rw [itsIdentity] at identity
      dsimp only at name protocol identity
      rwa [name, protocol, identity] at got
    rw [BatchSnapshot.reading]
    cases found : List.find? _ _ with
    | some snapshot =>
      have matched := List.find?_some found
      rw [decide_eq_true_iff] at matched
      rw [sole snapshot (List.mem_of_find?_eq_some found) matched]
      rfl
    | none =>
      cases got : read node query with
      | error err => rfl
      | ok snapshot =>
        rw [List.find?_eq_none] at found
        have absent := found snapshot ((mem_items valid).mpr ⟨query, asked, got⟩)
        rw [decide_eq_true_iff] at absent
        exact absurd (read_snapshot got).2 absent

/-- A node with alice in both protocols, and bob's counters only. -/
def home : Node :=
  let uuid := "00000000-0000-4000-8000-000000000001"
  let inbound := fun tag => Json.obj [("settings", .obj [("clients", .arr [.obj
    [("email", .str ("alice." ++ tag)), ("id", .str uuid), ("name", .str "alice")]])]),
    ("tag", .str tag)]
  let level := Json.obj [("statsUserDownlink", .bool true), ("statsUserUplink", .bool true)]
  { xray :=
      { config := .ok (.obj [("api", .obj [("services", .arr [.str "StatsService"])]),
          ("inbounds", .arr [inbound "reality-tcp", inbound "reality-xhttp"]),
          ("policy", .obj [("levels", .obj [("0", level)])]), ("stats", .obj [])])
        container := "node-plane-xray"
        tags := ("reality-tcp", "reality-xhttp")
        stats := some (((∅ : BTreeMap String Int).insert
          "user>>>alice.reality-tcp>>>traffic>>>uplink" 3).insert
          "user>>>bob.reality-tcp>>>traffic>>>uplink" 5) }
    awg :=
      { config := .ok "# alice\n[Peer]\nPublicKey = a2tra2tra2tra2tra2tra2tra2tra2tra2tra2tra2s=\n".toList
        container := "node-plane-awg"
        interface := "wg0"
        serverKey := ""
        transfer := .ok "a2tra2tra2tra2tra2tra2tra2tra2tra2tra2tra2s=\t150\t300\n".toList }
    boot := .ok "boot\n".toList
    before := fun _ => .records [.obj [("State", .obj [("Running", .bool true)])]]
    after := fun _ => .records [.obj [("State", .obj [("Running", .bool true)])]] }

def alice : Query := ⟨"n1", "alice", "xray", "00000000-0000-4000-8000-000000000001"⟩

/-- Alice in both protocols, and bob, whom the config does not hold. -/
def together : Batch :=
  ⟨"n1", [⟨"alice", "xray", alice.identity⟩, ⟨"bob", "xray", alice.identity⟩,
    ⟨"alice", "awg", "a2tra2tra2tra2tra2tra2tra2tra2tra2tra2tra2s="⟩]⟩

theorem batch_agrees_together : ∃ reply, readBatch home together = .ok reply ∧
    (reply.reading alice).map Snapshot.uplinkBytes = some 3 := by
  obtain ⟨answer, agree⟩ := batch_agrees home together
  obtain ⟨reply, answered⟩ := answer.mpr ⟨by decide, by decide⟩
  refine ⟨reply, answered, ?_⟩
  rw [(agree reply answered).2.1 alice (by decide)]
  decide +kernel

/-- Alice's identity beside one whose name is not a profile's. -/
def mixed : Batch :=
  ⟨"n1", [⟨"alice", "xray", alice.identity⟩, ⟨"../alice", "xray", alice.identity⟩]⟩

/-- One bad query refuses a batch whose other identity has a single reading. -/
theorem refused_beside_bad_query :
    alice ∈ mixed.queries ∧ (read home alice).toOption.map Snapshot.uplinkBytes = some 3 ∧
      (readBatch home mixed).toOption.isNone = true := by
  decide +kernel

end Readings
end NodePlane
