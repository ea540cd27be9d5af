import NodePlane.Controller.DeliveryClaims

/-! Runs of the two delivery services: when a message is never given again. -/
namespace NodePlane
namespace Deliveries
open Library

/-- No step may hand such a delivery out. -/
def Status.final : Status → Bool
  | .queued | .claimed => false
  | _ => true

section Rows
variable {rows next : Rows} {id : ℕ}

/-- What the statements that neither hand out nor return a delivery do to the rows. -/
structure Quiet (rows next : Rows) : Prop where
  kept : ∀ id row, rows.lookup id = some row → ∃ later, next.lookup id = some later
  moves : ∀ id later, next.lookup id = some later →
    (rows.lookup id = none ∧ later.claim = none ∧ later.status ≠ .claimed) ∨
      ∃ row, rows.lookup id = some row ∧
        (later = row ∨ ∃ status : Status, status.final = true ∧ later = { row with status := status })

namespace Quiet

theorem refl (rows : Rows) : Quiet rows rows where
  kept _ row found := ⟨row, found⟩
  moves _ later found := .inr ⟨later, found, .inl rfl⟩

theorem expire (rows : Rows) (now : ℕ) : Quiet rows (expire rows now) where
  kept _ _ found := expire_some found
  moves id later found := by
    obtain ⟨row, old, rfl | ⟨_, rfl⟩⟩ := of_expire found
    · exact .inr ⟨later, old, .inl rfl⟩
    · exact .inr ⟨row, old, .inr ⟨.unknown, rfl, rfl⟩⟩

theorem setStatus (rows : Rows) (id : ℕ) {status : Status} (ends : status.final = true) :
    Quiet rows (setStatus rows id status) where
  kept other row found := by
    rw [lookup_setStatus]
    split
    · next here =>
      subst here
      exact ⟨_, by rw [found, Option.map_some]⟩
    · exact ⟨row, found⟩
  moves other later found := by
    rw [lookup_setStatus] at found
    split at found
    · next here =>
      subst here
      obtain ⟨row, old, rfl⟩ := Option.map_eq_some_iff.mp found
      exact .inr ⟨row, old, .inr ⟨status, ends, rfl⟩⟩
    · exact .inr ⟨later, found, .inl rfl⟩

theorem skipQueued (rows : Rows) (which : ℕ → Bool) {status : Status}
    (ends : status.final = true) : Quiet rows (skipQueued rows which status) where
  kept id row found := ⟨_, by rw [Deliveries.skipQueued, Table.lookup_mapRows, found, Option.map_some]⟩
  moves id later found := by
    rw [Deliveries.skipQueued, Table.lookup_mapRows] at found
    obtain ⟨row, old, rfl⟩ := Option.map_eq_some_iff.mp found
    refine .inr ⟨row, old, ?_⟩
    split
    · exact .inr ⟨status, ends, rfl⟩
    · exact .inl rfl

theorem put (missing : rows.lookup id = none) {row : Delivery} (free : row.claim = none)
    (unclaimed : row.status ≠ .claimed) : Quiet rows (rows.put id row) where
  kept other old found := by
    rw [Table.lookup_put]
    split
    · exact ⟨row, rfl⟩
    · exact ⟨old, found⟩
  moves other later found := by
    rw [Table.lookup_put] at found
    split at found
    · next here =>
      subst here
      cases found
      exact .inl ⟨missing, free, unclaimed⟩
    · exact .inr ⟨later, found, .inl rfl⟩

end Quiet

end Rows

/-! Careful steps -/

section Careful
variable (s : State) (service : Service) (id : ℕ) (claim : Claim)

/-- The claim holds the delivery. -/
def State.live : Bool :=
  ((s.rows service).lookup id).any fun row =>
    decide (row.status = .claimed ∧ row.claim = some claim)

/-- The claim is the last one that the delivery was given to. -/
def State.carries : Bool :=
  ((s.rows service).lookup id).any fun row => decide (row.claim = some claim)

def State.final : Bool := ((s.rows service).lookup id).any fun row => row.status.final

def State.isQueued : Bool :=
  ((s.rows service).lookup id).any fun row => decide (row.status = .queued)

theorem State.live_iff : s.live service id claim = true ↔
    ∃ row, (s.rows service).lookup id = some row ∧ row.status = .claimed ∧
      row.claim = some claim := by
  simp [State.live, Option.any_eq_true]

theorem State.carries_iff : s.carries service id claim = true ↔
    ∃ row, (s.rows service).lookup id = some row ∧ row.claim = some claim := by
  simp [State.carries, Option.any_eq_true]

theorem State.final_iff : s.final service id = true ↔
    ∃ row, (s.rows service).lookup id = some row ∧ row.status.final = true := by
  simp [State.final, Option.any_eq_true]

theorem State.isQueued_iff : s.isQueued service id = true ↔
    ∃ row, (s.rows service).lookup id = some row ∧ row.status = .queued := by
  simp [State.isQueued, Option.any_eq_true]

/-- A claim still finds its adapter without backoff, and a delivery that its key was given before
still under the key; a retry is written while its claim holds the delivery. -/
def State.careful : Op → Bool
  | .finish _ =>
    match s.claiming with
    | none => true
    | some claiming =>
      !s.waits claiming.claim.adapter claiming.now &&
        s.given.all fun given =>
          decide (given.service = claiming.service ∧ given.claim = claiming.claim →
            s.carries claiming.service given.id claiming.claim = true)
  | .writeAck read _ =>
    match s.acks[read]? with
    | none => true
    | some reading =>
      match reading.ack with
      | .retry _ => s.live reading.service reading.id reading.claim
      | _ => true
  | _ => true

/-- Every step is careful. -/
def State.carefulRun (s : State) : List Op → Bool
  | [] => true
  | op :: ops => s.careful op && (s.step op).2.carefulRun ops

end Careful

/-! What every state of a careful run has -/

structure Sound (s : State) : Prop where
  given : ∀ service id row claim, (s.rows service).lookup id = some row →
    row.claim = some claim → ⟨service, claim, id⟩ ∈ s.given
  single : ∀ service id other row old claim, (s.rows service).lookup id = some row →
    (s.rows service).lookup other = some old → row.claim = some claim →
      old.claim = some claim → id = other
  once : ∀ first ∈ s.given, ∀ second ∈ s.given, first.service = second.service →
    first.claim = second.claim → first.id = second.id
  deferred : ∀ service id row claim, (s.rows service).lookup id = some row →
    row.status = .queued → row.claim = some claim →
      ∃ until' limit, row.claimedUntil = some until' ∧
        s.backoff.lookup claim.adapter = some limit ∧ until' ≤ limit

section Steps
variable {s next : State} {service : Service} {id : ℕ}

theorem Sound.initial : Sound .initial where
  given service id row claim found := by cases found
  single service id other row old claim found := by cases found
  once first listed := nomatch listed
  deferred service id row claim found := by cases found

theorem Sound.quiet (sound : Sound s)
    (rows : ∀ service, Quiet (s.rows service) (next.rows service)) (given : next.given = s.given)
    (backoff : next.backoff = s.backoff) : Sound next := by
  -- a row that carries a claim carried it before
  have carried : ∀ {service id later claim}, (next.rows service).lookup id = some later →
      later.claim = some claim → ∃ row, (s.rows service).lookup id = some row ∧
        row.claim = some claim ∧ (later.status = .queued → later = row) := by
    intro service id later claim found mine
    rcases (rows service).moves id later found with ⟨_, free, _⟩ | ⟨row, old, rfl | ⟨_, ends, rfl⟩⟩
    · rw [free] at mine
      cases mine
    · exact ⟨later, old, mine, fun _ => rfl⟩
    · refine ⟨row, old, mine, fun waits => ?_⟩
      dsimp only at waits
      rw [waits] at ends
      cases ends
  constructor
  · intro service id later claim found mine
    obtain ⟨row, old, was, _⟩ := carried found mine
    rw [given]
    exact sound.given service id row claim old was
  · intro service id other later later' claim found found' mine mine'
    obtain ⟨row, old, was, _⟩ := carried found mine
    obtain ⟨row', old', was', _⟩ := carried found' mine'
    exact sound.single service id other row row' claim old old' was was'
  · rw [given]
    exact sound.once
  · intro service id later claim found waits mine
    obtain ⟨row, old, was, same⟩ := carried found mine
    cases same waits
    rw [backoff]
    exact sound.deferred service id later claim old waits mine

/-- What a step keeps of final deliveries, and how a delivery comes back to the queue. -/
structure Keeps (s next : State) (returned : Service → ℕ → Prop) : Prop where
  final : ∀ service id, s.final service id = true → next.final service id = true
  queued : ∀ service id, next.isQueued service id = true →
    s.isQueued service id = true ∨ (s.rows service).lookup id = none ∨ returned service id

theorem Keeps.quiet {returned : Service → ℕ → Prop}
    (rows : ∀ service, Quiet (s.rows service) (next.rows service)) : Keeps s next returned where
  final service id ended := by
    obtain ⟨row, found, ends⟩ := (s.final_iff service id).mp ended
    obtain ⟨later, found'⟩ := (rows service).kept id row found
    rw [State.final_iff]
    refine ⟨later, found', ?_⟩
    rcases (rows service).moves id later found' with ⟨none, _⟩ | ⟨row', old, rfl | ⟨_, ends', rfl⟩⟩
    · rw [found] at none
      cases none
    · rw [found] at old
      cases old
      exact ends
    · exact ends'
  queued service id waits := by
    obtain ⟨later, found, waits⟩ := (next.isQueued_iff service id).mp waits
    rcases (rows service).moves id later found with ⟨none, _⟩ | ⟨row, old, rfl | ⟨_, ends, rfl⟩⟩
    · exact .inr (.inl none)
    · exact .inl ((s.isQueued_iff service id).mpr ⟨later, old, waits⟩)
    · dsimp only at waits
      rw [waits] at ends
      cases ends

@[simp] theorem write_rows_self (s : State) (service : Service) (rows : Rows) :
    (s.write service rows).rows service = rows := by
  simp [State.write]

theorem write_rows_other {service other : Service} (rows : Rows) (apart : other ≠ service) :
    (s.write service rows).rows other = s.rows other := by
  simp [State.write, Function.update_of_ne apart]

theorem quiet_write {rows : Rows} (quiet : Quiet (s.rows service) rows) (other : Service) :
    Quiet (s.rows other) ((s.write service rows).rows other) := by
  by_cases here : other = service
  · subst here
    rw [write_rows_self]
    exact quiet
  · rw [write_rows_other rows here]
    exact Quiet.refl _

end Steps

/-! Claims in a careful run -/

section Finishing
variable {s : State} {claiming : Claiming} {env : Env}

/-- The condition of a claim, spelled out. -/
theorem careful_finish (has : s.claiming = some claiming)
    (careful : s.careful (.finish env) = true) :
    s.waits claiming.claim.adapter claiming.now = false ∧
      ∀ given ∈ s.given, given.service = claiming.service → given.claim = claiming.claim →
        ∃ row, (s.rows claiming.service).lookup given.id = some row ∧
          row.claim = some claiming.claim := by
  simp only [State.careful, has, Bool.and_eq_true, Bool.not_eq_true', List.all_eq_true,
    decide_eq_true_iff] at careful
  refine ⟨careful.1, fun given listed there mine => ?_⟩
  exact (s.carries_iff _ _ _).mp (careful.2 given listed ⟨there, mine⟩)

/-- The rows after a claim. -/
theorem finished_rows (s : State) (claiming : Claiming) (env : Env) (service : Service) :
    (s.finished claiming env).2.rows service =
      if service = claiming.service then
        (claiming.service.claim env (s.rows claiming.service) claiming.claim claiming.now).2
      else s.rows service := by
  obtain ⟨at', claim, now⟩ := claiming
  unfold State.finished
  dsimp only
  split <;> by_cases here : service = at' <;> simp [here, State.write, Function.update_of_ne]

theorem finished_given (s : State) (claiming : Claiming) (env : Env) :
    (s.finished claiming env).2.given = s.given ++
      ((claiming.service.claim env (s.rows claiming.service) claiming.claim
        claiming.now).1.map fun id => Given.mk claiming.service claiming.claim id).toList := by
  unfold State.finished
  dsimp only
  split
  · next none => simp [none, State.write]
  · next id hit => simp [hit]

theorem finished_backoff (s : State) (claiming : Claiming) (env : Env) :
    (s.finished claiming env).2.backoff = s.backoff := by
  unfold State.finished
  dsimp only
  split <;> rfl

theorem finished_reply (s : State) (claiming : Claiming) (env : Env) (id : ℕ) :
    (s.finished claiming env).1 = .delivery id ↔
      (claiming.service.claim env (s.rows claiming.service) claiming.claim claiming.now).1 =
        some id := by
  unfold State.finished
  dsimp only
  split
  · next none => simp [none]
  · next other hit => simp [hit]

theorem finished_keeps (s : State) (claiming : Claiming) (env : Env)
    (returned : Service → ℕ → Prop) : Keeps s (s.finished claiming env).2 returned := by
  have claims := service_claims claiming.service env (s.rows claiming.service) claiming.claim
    claiming.now
  constructor
  · intro service id ended
    obtain ⟨row, found, ends⟩ := (s.final_iff service id).mp ended
    rw [State.final_iff, finished_rows]
    split
    · next here =>
      subst here
      obtain ⟨later, found'⟩ := claims.kept id row found
      obtain ⟨old, was, goes⟩ := claims.goes id later found'
      rw [found] at was
      cases was
      refine ⟨later, found', ?_⟩
      cases goes with
      | stays => exact ends
      | lost held => rfl
      | aside status held aside => rcases aside with rfl | rfl <;> rfl
      | handed held => rw [held] at ends; cases ends
    · exact ⟨row, found, ends⟩
  · intro service id waits
    rw [State.isQueued_iff, finished_rows] at waits
    obtain ⟨later, found, waits⟩ := waits
    left
    rw [State.isQueued_iff]
    split at found
    · next here =>
      subst here
      obtain ⟨row, old, goes⟩ := claims.goes id later found
      cases goes with
      | stays => exact ⟨later, old, waits⟩
      | lost held => cases waits
      | aside status held aside => rcases aside with rfl | rfl <;> cases waits
      | handed held => cases waits
    · exact ⟨later, found, waits⟩

theorem Sound.finished (sound : Sound s) (has : s.claiming = some claiming)
    (careful : s.careful (.finish env) = true) : Sound (s.finished claiming env).2 := by
  obtain ⟨_, keyed⟩ := careful_finish has careful
  have claims := service_claims claiming.service env (s.rows claiming.service) claiming.claim
    claiming.now
  have reply := finished_given s claiming env
  have rows := finished_rows s claiming env
  -- a row that carries a claim carried it, or was given to this one
  have carried : ∀ {service id later claim},
      ((s.finished claiming env).2.rows service).lookup id = some later →
      later.claim = some claim →
        (∃ row, (s.rows service).lookup id = some row ∧ row.claim = some claim ∧
          (later.status = .queued → later = row)) ∨
        (service = claiming.service ∧ claim = claiming.claim ∧ later.status = .claimed ∧
          (claiming.service.claim env (s.rows claiming.service) claiming.claim
            claiming.now).1 = some id ∧
          ∀ other old, (s.rows service).lookup other = some old → old.claim ≠ some claim) := by
    intro service id later claim found mine
    rw [rows] at found
    split at found
    · next here =>
      subst here
      obtain ⟨row, old, goes⟩ := claims.goes id later found
      cases goes with
      | stays => exact .inl ⟨later, old, mine, fun _ => rfl⟩
      | lost held => exact .inl ⟨row, old, mine, fun waits => nomatch waits⟩
      | aside status held aside =>
        refine .inl ⟨row, old, mine, fun waits => ?_⟩
        rcases aside with rfl | rfl <;> cases waits
      | handed held hit =>
        cases mine
        obtain ⟨row', old', status | ⟨_, free⟩⟩ := claims.fresh id hit
        · rw [old] at old'
          cases old'
          rw [held] at status
          cases status.1
        · exact .inr ⟨rfl, rfl, rfl, hit, free⟩
    · exact .inl ⟨later, found, mine, fun _ => rfl⟩
  constructor
  · intro service id later claim found mine
    rw [reply, List.mem_append]
    rcases carried found mine with ⟨row, old, was, _⟩ | ⟨rfl, rfl, _, hit, _⟩
    · exact .inl (sound.given service id row claim old was)
    · exact .inr (by simp [hit])
  · intro service id other later later' claim found found' mine mine'
    rcases carried found mine with ⟨row, old, was, _⟩ | ⟨rfl, rfl, _, hit, free⟩
    · rcases carried found' mine' with ⟨row', old', was', _⟩ | ⟨_, _, _, _, free⟩
      · exact sound.single service id other row row' claim old old' was was'
      · exact absurd was (free id row old)
    · rcases carried found' mine' with ⟨row', old', was', _⟩ | ⟨_, _, _, hit', _⟩
      · exact absurd was' (free other row' old')
      · rw [hit] at hit'
        exact Option.some.inj hit'
  · -- a key's earlier delivery still carries it, so the key is given that one again
    have again : ∀ first ∈ s.given, ∀ id, (claiming.service.claim env
        (s.rows claiming.service) claiming.claim claiming.now).1 = some id →
          first.service = claiming.service → first.claim = claiming.claim → first.id = id := by
      intro first listed id hit there mine
      obtain ⟨row, found, carries⟩ := keyed first listed there mine
      obtain ⟨row', found', ⟨_, mine'⟩ | ⟨_, free⟩⟩ := claims.fresh id hit
      · exact sound.single claiming.service first.id id row row' _ found found' carries mine'
      · exact absurd carries (free first.id row found)
    rw [reply]
    intro first listed second listed' there mine
    rcases List.mem_append.mp listed with old | new
    · rcases List.mem_append.mp listed' with old' | new'
      · exact sound.once first old second old' there mine
      · obtain ⟨id, hit, rfl⟩ := by simpa using new'
        exact again first old id hit there mine
    · obtain ⟨id, hit, rfl⟩ := by simpa using new
      rcases List.mem_append.mp listed' with old' | new'
      · exact (again second old' id hit there.symm mine.symm).symm
      · obtain ⟨id', hit', rfl⟩ := by simpa using new'
        rw [hit] at hit'
        exact Option.some.inj hit'
  · intro service id later claim found waits mine
    rw [finished_backoff]
    rcases carried found mine with ⟨row, old, was, same⟩ | ⟨_, _, held, _⟩
    · cases same waits
      exact sound.deferred service id later claim old waits mine
    · rw [held] at waits
      cases waits

end Finishing

/-! Retries -/

section Retrying
variable {s : State} {service : Service} {id : ℕ} {claim : Claim}

/-- The backoff only grows, and the delivery keeps its claim. -/
theorem defer_writes (s : State) (service : Service) (id adapter after now : ℕ) :
    ∃ until', (s.defer service id adapter after now).backoff = s.backoff.put adapter until' ∧
      (∀ old, s.backoff.lookup adapter = some old → old ≤ until') ∧
      ∀ other, (s.defer service id adapter after now).rows other =
        if other = service then (s.rows service).alter id fun row =>
          { row with status := .queued, claimedUntil := some until' }
        else s.rows other := by
  unfold State.defer
  cases s.backoff.lookup adapter with
  | none =>
    refine ⟨now + after, rfl, fun old held => (nomatch held), fun other => ?_⟩
    by_cases here : other = service <;> simp [here, State.write, Function.update_of_ne]
  | some limit =>
    refine ⟨max (now + after) limit, rfl, fun old held => ?_, fun other => ?_⟩
    · cases held
      exact Nat.le_max_right _ _
    · by_cases here : other = service <;> simp [here, State.write, Function.update_of_ne]

theorem Sound.retry (sound : Sound s) (live : s.live service id claim = true) (after now : ℕ) :
    Sound (s.defer service id claim.adapter after now) := by
  obtain ⟨until', backoff, higher, rows⟩ := defer_writes s service id claim.adapter after now
  obtain ⟨row, found, held, mine⟩ := (s.live_iff service id claim).mp live
  have given : (s.defer service id claim.adapter after now).given = s.given := rfl
  have carried : ∀ {at' key later},
      ((s.defer service id claim.adapter after now).rows at').lookup key = some later →
        (at' = service ∧ key = id ∧ later.claim = some claim ∧ later.claimedUntil = some until' ∧
          (s.rows at').lookup key = some row) ∨ (s.rows at').lookup key = some later := by
    intro at' key later found'
    rw [rows] at found'
    split at found'
    · next here =>
      subst here
      rw [Table.lookup_alter] at found'
      split at found'
      · next same =>
        subst same
        rw [found, Option.map_some] at found'
        cases found'
        exact .inl ⟨rfl, rfl, mine, rfl, found⟩
      · exact .inr found'
    · exact .inr found'
  have before : ∀ {at' key later other},
      ((s.defer service id claim.adapter after now).rows at').lookup key = some later →
        later.claim = some other →
          ∃ old, (s.rows at').lookup key = some old ∧ old.claim = some other := by
    intro at' key later other found' carries
    rcases carried found' with ⟨_, _, same, _, old⟩ | old
    · rw [same] at carries
      cases carries
      exact ⟨row, old, mine⟩
    · exact ⟨later, old, carries⟩
  constructor
  · intro at' key later other found' carries
    obtain ⟨old, was, carries⟩ := before found' carries
    rw [given]
    exact sound.given at' key old other was carries
  · intro at' key key' later later' other found' found'' carries carries'
    obtain ⟨old, was, carries⟩ := before found' carries
    obtain ⟨old', was', carries'⟩ := before found'' carries'
    exact sound.single at' key key' old old' other was was' carries carries'
  · rw [given]
    exact sound.once
  · intro at' key later other found' waits carries
    rw [backoff]
    rcases carried found' with ⟨_, _, same, still, _⟩ | old
    · rw [same] at carries
      cases carries
      exact ⟨until', until', still, Table.lookup_put_self _ _ _, le_rfl⟩
    · obtain ⟨time, limit, still, waits, low⟩ := sound.deferred at' key later other old waits carries
      rw [Table.lookup_put]
      split
      · next same =>
        rw [same] at waits
        exact ⟨time, until', still, rfl, low.trans (higher limit waits)⟩
      · exact ⟨time, limit, still, waits, low⟩

theorem retry_keeps (returned : Service → ℕ → Prop) (live : s.live service id claim = true)
    (returns : returned service id) (after now : ℕ) :
    Keeps s (s.defer service id claim.adapter after now) returned := by
  obtain ⟨until', _, _, rows⟩ := defer_writes s service id claim.adapter after now
  obtain ⟨row, found, held, _⟩ := (s.live_iff service id claim).mp live
  constructor
  · intro at' key ended
    obtain ⟨old, was, ends⟩ := (s.final_iff at' key).mp ended
    rw [State.final_iff, rows]
    split
    · next here =>
      subst here
      have apart : key ≠ id := by
        rintro rfl
        rw [found] at was
        cases was
        rw [held] at ends
        cases ends
      exact ⟨old, by rw [Table.lookup_alter_ne _ apart, was], ends⟩
    · exact ⟨old, was, ends⟩
  · intro at' key waits
    rw [State.isQueued_iff, rows] at waits
    obtain ⟨later, found', waits⟩ := waits
    split at found'
    · next here =>
      subst here
      by_cases same : key = id
      · subst same
        exact .inr (.inr returns)
      · rw [Table.lookup_alter_ne _ same] at found'
        exact .inl ((s.isQueued_iff _ _).mpr ⟨later, found', waits⟩)
    · exact .inl ((s.isQueued_iff _ _).mpr ⟨later, found', waits⟩)

end Retrying

/-! Runs -/

section Runs
variable {s : State} {op : Op}

/-- The write of a retry whose claim holds the delivery. -/
def State.retries (s : State) (op : Op) (service : Service) (id : ℕ) : Prop :=
  ∃ read now claim after, op = .writeAck read now ∧
    s.acks[read]? = some ⟨service, id, claim, .retry after⟩ ∧ s.live service id claim = true

theorem Sound.step (sound : Sound s) (careful : s.careful op = true) :
    Sound (s.step op).2 ∧ Keeps s (s.step op).2 (s.retries op) := by
  have quiet : ∀ {next : State}, (∀ service, Quiet (s.rows service) (next.rows service)) →
      next.given = s.given → next.backoff = s.backoff → Sound next ∧ Keeps s next (s.retries op) :=
    fun rows given backoff => ⟨sound.quiet rows given backoff, .quiet rows⟩
  have same : ∀ {next : State}, next.rows = s.rows → next.given = s.given →
      next.backoff = s.backoff → Sound next ∧ Keeps s next (s.retries op) :=
    fun rows => quiet fun service => by rw [rows]; exact Quiet.refl _
  cases op with
  | enqueue service id of createdAt chat =>
    simp only [State.step]
    split
    · exact same rfl rfl rfl
    · split
      · next missing =>
        refine quiet (quiet_write (Quiet.put missing rfl ?_)) rfl rfl
        cases chat <;> simp
      · exact same rfl rfl rfl
  | gate service claim now maintenance =>
    simp only [State.step]
    split
    · exact same rfl rfl rfl
    · split <;> exact same rfl rfl rfl
  | finish env =>
    simp only [State.step]
    cases has : s.claiming with
    | none => exact same rfl rfl rfl
    | some claiming =>
      exact ⟨sound.finished has careful, finished_keeps s claiming env _⟩
  | drop => exact same rfl rfl rfl
  | readAck reading =>
    simp only [State.step]
    split <;> exact same rfl rfl rfl
  | writeAck read now =>
    simp only [State.step]
    cases pending : s.acks[read]? with
    | none => exact same rfl rfl rfl
    | some reading =>
      obtain ⟨service, id, claim, ack⟩ := reading
      have ends : ∀ {status : Status}, status.final = true →
          Sound { s.write service (setStatus (s.rows service) id status) with
            acks := s.acks.eraseIdx read } ∧
          Keeps s { s.write service (setStatus (s.rows service) id status) with
            acks := s.acks.eraseIdx read } (s.retries (.writeAck read now)) :=
        fun final => quiet (quiet_write (Quiet.setStatus _ id final)) rfl rfl
      cases ack with
      | sent => exact ends rfl
      | failed => exact ends rfl
      | unknown => exact ends rfl
      | retry after =>
        have live : s.live service id claim = true := by
          simpa [State.careful, pending] using careful
        have sound := sound.retry live after now
        have keeps := retry_keeps (s.retries (.writeAck read now)) live
          ⟨read, now, claim, after, rfl, pending, live⟩ after now
        exact ⟨⟨sound.given, sound.single, sound.once, sound.deferred⟩, keeps.final, keeps.queued⟩
  | loseAck read => exact same rfl rfl rfl
  | expireAnnouncements now =>
    exact quiet (quiet_write (Quiet.expire _ now)) rfl rfl
  | disableTelegram =>
    have first : Quiet (s.rows .announcements)
        (skipQueued (s.rows .announcements) (fun _ => true) .inboxOnly) := .skipQueued _ _ rfl
    have second : Quiet (s.rows .alerts)
        (skipQueued (s.rows .alerts) (fun _ => true) .skipped) := .skipQueued _ _ rfl
    refine quiet (fun service => ?_) rfl rfl
    cases service with
    | announcements => exact first
    | alerts => exact second
  | stopAlerts kind =>
    simp only [State.step]
    split
    · exact same rfl rfl rfl
    · exact quiet (quiet_write (Quiet.skipQueued _ _ rfl)) rfl rfl

theorem Sound.run (sound : Sound s) {ops : List Op} (careful : s.carefulRun ops = true) :
    Sound (s.run ops) ∧
      ∀ service id, s.final service id = true → (s.run ops).final service id = true := by
  induction ops generalizing s with
  | nil => exact ⟨sound, fun _ _ ended => ended⟩
  | cons op ops ih =>
    rw [State.carefulRun, Bool.and_eq_true] at careful
    obtain ⟨after, keeps⟩ := sound.step careful.1
    obtain ⟨last, rest⟩ := ih after careful.2
    exact ⟨last, fun service id ended => rest service id (keeps.final service id ended)⟩

/-- What a claim is given was not final, is held by the claim, and was not put off for longer by
its adapter. -/
theorem Sound.gives (sound : Sound s) {claiming : Claiming} {env : Env} {id : ℕ}
    (has : s.claiming = some claiming) (careful : s.careful (.finish env) = true)
    (given : (s.step (.finish env)).1 = .delivery id) :
    (s.step (.finish env)).2.live claiming.service id claiming.claim = true ∧
      s.final claiming.service id = false ∧
      s.waits claiming.claim.adapter claiming.now = false ∧
      ∀ row claim until', (s.rows claiming.service).lookup id = some row → row.status = .queued →
        row.claim = some claim → claim.adapter = claiming.claim.adapter →
          row.claimedUntil = some until' → until' ≤ claiming.now := by
  obtain ⟨rested, _⟩ := careful_finish has careful
  simp only [State.step, has] at given ⊢
  have hit := (finished_reply s claiming env id).mp given
  have claims := service_claims claiming.service env (s.rows claiming.service) claiming.claim
    claiming.now
  refine ⟨?_, ?_, rested, ?_⟩
  · obtain ⟨later, found, held, mine⟩ := claims.live id hit
    rw [State.live_iff, finished_rows, if_pos rfl]
    exact ⟨later, found, held, mine⟩
  · obtain ⟨row, found, was⟩ := claims.fresh id hit
    unfold State.final
    rw [found, Option.any_some]
    rcases was with ⟨held, _⟩ | ⟨waits, _⟩
    · rw [held]
      rfl
    · rw [waits]
      rfl
  · intro row claim until' found waits mine same put
    obtain ⟨until'', limit, put', backoff, low⟩ :=
      sound.deferred claiming.service id row claim found waits mine
    rw [put] at put'
    cases put'
    rw [same] at backoff
    unfold State.waits at rested
    rw [backoff, Option.any_some, decide_eq_false_iff_not] at rested
    omega

/-- A claim whose time is over becomes unknown at the next claim of its service. -/
theorem finish_expires {claiming : Claiming} (has : s.claiming = some claiming) (env : Env)
    {id : ℕ} {row : Delivery} (found : (s.rows claiming.service).lookup id = some row)
    (held : row.status = .claimed)
    (due : row.claimedUntil.any (fun until' => decide (until' ≤ claiming.now)) = true) :
    ∃ later, ((s.step (.finish env)).2.rows claiming.service).lookup id = some later ∧
      later.status = .unknown := by
  have claims := service_claims claiming.service env (s.rows claiming.service) claiming.claim
    claiming.now
  simp only [State.step, has]
  rw [finished_rows, if_pos rfl]
  exact claims.due id row found held due

section Samples

private def wanted : Env :=
  ⟨false, fun _ => true, fun _ => false, fun _ => .node, fun _ => true, true, fun _ => true,
    fun _ => true⟩

private def claimAt (adapter key now : ℕ) : List Op :=
  [.gate .alerts ⟨adapter, key⟩ now false, .finish wanted]

private def retryOf (adapter key : ℕ) : Op := .readAck ⟨.alerts, 7, ⟨adapter, key⟩, .retry 1⟩

/-- An alert is claimed, put off by a retry and claimed again, under another key, and sent. -/
private def retried : List Op :=
  [.enqueue .alerts 7 1 0 true] ++ claimAt 1 10 0 ++ [retryOf 1 10, .writeAck 0 5] ++
    claimAt 1 11 6 ++ [.readAck ⟨.alerts, 7, ⟨1, 11⟩, .sent⟩, .writeAck 0 8]

/-- A key is given another delivery after its first one was retried under another key. -/
example : (State.initial.run ([.enqueue .alerts 7 1 0 true, .enqueue .alerts 8 1 0 true] ++
    claimAt 1 10 0 ++ [retryOf 1 10, .writeAck 0 5] ++ claimAt 1 11 6 ++ claimAt 1 10 7)).given =
      [⟨.alerts, ⟨1, 10⟩, 7⟩, ⟨.alerts, ⟨1, 11⟩, 7⟩, ⟨.alerts, ⟨1, 10⟩, 8⟩] := by decide

end Samples

end Runs

end Deliveries
end NodePlane
