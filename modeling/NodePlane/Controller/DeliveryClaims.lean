import NodePlane.Controller.Deliveries

/-! No delivery is given twice: what claims, acknowledgements and expiries keep. -/
namespace NodePlane
namespace Deliveries
open Library

/-! What a claim does to each row -/

/-- A row before and after a claim that was `given` a delivery, or none. -/
inductive Goes (claim : Claim) (now : ℕ) (given : Option ℕ) (id : ℕ) (row : Delivery) :
    Delivery → Prop
  | stays : Goes claim now given id row row
  | lost : row.status = .claimed → Goes claim now given id row { row with status := .unknown }
  | aside (status : Status) : row.status = .queued → status = .skipped ∨ status = .inboxOnly →
      Goes claim now given id row { row with status := status }
  | handed : row.status = .queued → given = some id →
      Goes claim now given id row
        { row with status := .claimed, claim := some claim, claimedUntil := some (now + claimTtl) }

section Claims
variable {rows next : Rows} {claim : Claim} {now id : ℕ} {given : Option ℕ}

theorem of_expire {later : Delivery} (found : (expire rows now).lookup id = some later) :
    ∃ row, rows.lookup id = some row ∧
      (later = row ∨ row.status = .claimed ∧ later = { row with status := .unknown }) := by
  rw [expire, Table.lookup_mapRows] at found
  obtain ⟨row, old, rfl⟩ := Option.map_eq_some_iff.mp found
  refine ⟨row, old, ?_⟩
  split
  · next due => exact .inr ⟨due.1, rfl⟩
  · exact .inl rfl

theorem expire_some {row : Delivery} (found : rows.lookup id = some row) :
    ∃ later, (expire rows now).lookup id = some later := by
  rw [expire, Table.lookup_mapRows, found]
  exact ⟨_, rfl⟩

/-- A claim whose time is over becomes unknown. -/
theorem expire_due {row : Delivery} (found : rows.lookup id = some row)
    (held : row.status = .claimed)
    (due : row.claimedUntil.any (fun until' => decide (until' ≤ now)) = true) :
    (expire rows now).lookup id = some { row with status := .unknown } := by
  rw [expire, Table.lookup_mapRows, found, Option.map_some, if_pos ⟨held, due⟩]

theorem lookup_setStatus (rows : Rows) (id other : ℕ) (status : Status) :
    (setStatus rows id status).lookup other = if other = id then
      (rows.lookup id).map (fun row => { row with status := status }) else rows.lookup other := by
  rw [setStatus, Table.lookup_alter]

/-- What the loop over queued rows leaves. -/
structure Offered (rows next : Rows) (claim : Claim) (now : ℕ) (given : Option ℕ) : Prop where
  kept : ∀ id row, rows.lookup id = some row → ∃ later, next.lookup id = some later
  goes : ∀ id later, next.lookup id = some later →
    ∃ row, rows.lookup id = some row ∧ Goes claim now given id row later
  handed : ∀ id, given = some id → ∃ row later, rows.lookup id = some row ∧
    row.status = .queued ∧ next.lookup id = some later ∧ later.status = .claimed ∧
    later.claim = some claim
  other : ∀ id row, rows.lookup id = some row → row.status ≠ .queued → next.lookup id = some row

theorem Offered.refl (rows : Rows) (claim : Claim) (now : ℕ) :
    Offered rows rows claim now none where
  kept _ row found := ⟨row, found⟩
  goes _ later found := ⟨later, found, .stays⟩
  handed _ given := nomatch given
  other _ _ found _ := found

theorem offered {verdict : ℕ → Option Status} (put : ∀ id status, verdict id = some status →
      status = .skipped ∨ status = .inboxOnly) (claim : Claim) (now : ℕ) (rows : Rows)
    (queue : List (ℕ × Delivery)) (distinct : (queue.map Prod.fst).Nodup)
    (listed : ∀ entry ∈ queue, rows.lookup entry.1 = some entry.2 ∧ entry.2.status = .queued) :
    Offered rows (offer verdict claim now rows queue).2 claim now
      (offer verdict claim now rows queue).1 := by
  induction queue generalizing rows with
  | nil => exact Offered.refl rows claim now
  | cons entry rest ih =>
    obtain ⟨id, row⟩ := entry
    obtain ⟨found, waits⟩ := listed (id, row) List.mem_cons_self
    dsimp only at found waits
    rw [List.map_cons, List.nodup_cons] at distinct
    unfold offer
    cases said : verdict id with
    | some status =>
      have aside := put id status said
      have rest := ih (setStatus rows id status) distinct.2 fun entry held => by
        have apart : entry.1 ≠ id := by
          intro same
          apply distinct.1
          rw [← same]
          exact List.mem_map.mpr ⟨entry, held, rfl⟩
        rw [lookup_setStatus, if_neg apart]
        exact listed entry (List.mem_cons_of_mem _ held)
      have set : (setStatus rows id status).lookup id = some { row with status := status } := by
        rw [lookup_setStatus, if_pos rfl, found, Option.map_some]
      have done := rest.other id _ set (by rcases aside with rfl | rfl <;> simp)
      constructor
      · intro key old held
        by_cases here : key = id
        · subst here
          exact ⟨_, done⟩
        · exact rest.kept key old (by rw [lookup_setStatus, if_neg here, held])
      · intro key later held
        by_cases here : key = id
        · subst here
          rw [done] at held
          cases held
          exact ⟨row, found, .aside status waits aside⟩
        · obtain ⟨old, was, goes⟩ := rest.goes key later held
          rw [lookup_setStatus, if_neg here] at was
          exact ⟨old, was, goes⟩
      · intro key given
        obtain ⟨old, later, was, queued, now⟩ := rest.handed key given
        by_cases here : key = id
        · subst here
          rw [set] at was
          cases was
          rcases aside with rfl | rfl <;> cases queued
        · rw [lookup_setStatus, if_neg here] at was
          exact ⟨old, later, was, queued, now⟩
      · intro key old was notQueued
        have here : key ≠ id := by
          rintro rfl
          rw [found] at was
          cases was
          exact notQueued waits
        exact rest.other key old (by rw [lookup_setStatus, if_neg here, was]) notQueued
    | none =>
      have after : ∀ (key : ℕ) (f : Delivery → Delivery), (rows.alter id f).lookup key =
          if key = id then some (f row) else rows.lookup key := by
        intro key f
        rw [Table.lookup_alter, found, Option.map_some]
      constructor
      · intro key old held
        dsimp only
        rw [after]
        split
        · exact ⟨_, rfl⟩
        · exact ⟨old, held⟩
      · intro key later held
        dsimp only at held
        rw [after] at held
        split at held
        · next here =>
          subst here
          cases held
          exact ⟨row, found, .handed waits rfl⟩
        · exact ⟨later, held, .stays⟩
      · intro key given
        cases given
        exact ⟨row, _, found, waits, by dsimp only; rw [after, if_pos rfl], rfl, rfl⟩
      · intro key old was notQueued
        dsimp only
        rw [after]
        split
        · next here =>
          subst here
          rw [found] at was
          cases was
          exact absurd waits notQueued
        · exact was

/-- What a whole claim leaves. -/
structure Claims (rows next : Rows) (claim : Claim) (now : ℕ) (given : Option ℕ) : Prop where
  kept : ∀ id row, rows.lookup id = some row → ∃ later, next.lookup id = some later
  goes : ∀ id later, next.lookup id = some later →
    ∃ row, rows.lookup id = some row ∧ Goes claim now given id row later
  due : ∀ id row, rows.lookup id = some row → row.status = .claimed →
    row.claimedUntil.any (fun until' => decide (until' ≤ now)) = true →
      ∃ later, next.lookup id = some later ∧ later.status = .unknown
  live : ∀ id, given = some id → ∃ later, next.lookup id = some later ∧
    later.status = .claimed ∧ later.claim = some claim
  fresh : ∀ id, given = some id → ∃ row, rows.lookup id = some row ∧
    (row.status = .claimed ∧ row.claim = some claim ∨
      row.status = .queued ∧ ∀ other old, rows.lookup other = some old → old.claim ≠ some claim)

theorem previous_some {found : ℕ × Delivery} (hit : previous rows claim = some found) :
    rows.lookup found.1 = some found.2 ∧ found.2.claim = some claim := by
  constructor
  · exact Table.mem_rows_iff.mp (List.mem_of_find?_eq_some hit)
  · simpa using List.find?_some hit

theorem previous_none (miss : previous rows claim = none) {row : Delivery}
    (found : rows.lookup id = some row) : row.claim ≠ some claim := by
  have free := List.find?_eq_none.mp miss (id, row) (Table.mem_rows_iff.mpr found)
  simpa using free

theorem queued_listed {place : ℕ × Delivery → List ℕ} {entry : ℕ × Delivery}
    (listed : entry ∈ queued rows place) :
    rows.lookup entry.1 = some entry.2 ∧ entry.2.status = .queued := by
  rw [queued, List.mem_insertionSort, List.mem_filter] at listed
  exact ⟨Table.mem_rows_iff.mp listed.1, by simpa using listed.2⟩

theorem queued_distinct (rows : Rows) (place : ℕ × Delivery → List ℕ) :
    ((queued rows place).map Prod.fst).Nodup := by
  rw [queued, ((List.perm_insertionSort _ _).map Prod.fst).nodup_iff]
  exact rows.rows_keys_nodup.sublist (List.filter_sublist.map Prod.fst)

/-- The rows after the expiry, as the claim goes on. -/
theorem Offered.claims (offered : Offered (expire rows now) next claim now given)
    (free : given ≠ none → previous (expire rows now) claim = none) :
    Claims rows next claim now given := by
  constructor
  · intro id row found
    have ⟨later, found⟩ : ∃ later, (expire rows now).lookup id = some later := expire_some found
    exact offered.kept id later found
  · intro id later found
    obtain ⟨middle, was, goes⟩ := offered.goes id later found
    obtain ⟨row, old, rfl | ⟨held, rfl⟩⟩ := of_expire was
    · exact ⟨middle, old, goes⟩
    · have same := offered.other id _ was (by simp)
      rw [found] at same
      cases same
      exact ⟨row, old, .lost held⟩
  · intro id row found held due
    exact ⟨_, offered.other id _ (expire_due found held due) (by simp), rfl⟩
  · intro id hit
    obtain ⟨_, later, _, _, found, status, mine⟩ := offered.handed id hit
    exact ⟨later, found, status, mine⟩
  · intro id hit
    obtain ⟨middle, _, was, waits, _⟩ := offered.handed id hit
    obtain ⟨row, old, rfl | ⟨held, rfl⟩⟩ := of_expire was
    · refine ⟨middle, old, .inr ⟨waits, fun other row found => ?_⟩⟩
      have none := free (by rw [hit]; simp)
      have ⟨later, was⟩ : ∃ later, (expire rows now).lookup other = some later :=
        expire_some found
      have unlike := previous_none none was
      obtain ⟨again, old, rfl | ⟨_, rfl⟩⟩ := of_expire was
      · rw [found] at old
        cases old
        exact unlike
      · rw [found] at old
        cases old
        exact unlike
    · cases waits

/-- The delivery that the key was given is returned while it is claimed. -/
theorem previous_claims {entry : ℕ × Delivery}
    (hit : previous (expire rows now) claim = some entry) (held : entry.2.status = .claimed) :
    Claims rows (expire rows now) claim now (some entry.1) := by
  obtain ⟨was, mine⟩ := previous_some hit
  constructor
  · exact fun id row found => expire_some found
  · intro id later found
    obtain ⟨row, old, rfl | ⟨held, rfl⟩⟩ := of_expire found
    · exact ⟨later, old, .stays⟩
    · exact ⟨row, old, .lost held⟩
  · intro id row found held due
    exact ⟨_, expire_due found held due, rfl⟩
  · intro id given
    cases given
    exact ⟨entry.2, was, held, mine⟩
  · intro id given
    cases given
    obtain ⟨row, old, same | ⟨_, lost⟩⟩ := of_expire was
    · rw [← same] at old
      exact ⟨entry.2, old, .inl ⟨held, mine⟩⟩
    · rw [lost] at held
      cases held

/-- A claim that is given nothing changes rows by the expiry alone, or puts one row aside. -/
theorem nothing_claims (rows : Rows) (claim : Claim) (now : ℕ) :
    Claims rows (expire rows now) claim now none :=
  (Offered.refl (expire rows now) claim now).claims fun given => absurd rfl given

theorem lost_claims {entry : ℕ × Delivery}
    (hit : previous (expire rows now) claim = some entry) (held : entry.2.status = .claimed) :
    Claims rows (setStatus (expire rows now) entry.1 .unknown) claim now none := by
  obtain ⟨was, _⟩ := previous_some hit
  have after : ∀ key, (setStatus (expire rows now) entry.1 .unknown).lookup key =
      if key = entry.1 then some { entry.2 with status := .unknown }
      else (expire rows now).lookup key := by
    intro key
    rw [lookup_setStatus, was, Option.map_some]
  constructor
  · intro id row found
    rw [after]
    split
    · exact ⟨_, rfl⟩
    · exact expire_some found
  · intro id later found
    rw [after] at found
    split at found
    · next here =>
      subst here
      cases found
      obtain ⟨row, old, same | ⟨held, lost⟩⟩ := of_expire was
      · rw [← same] at old
        exact ⟨entry.2, old, .lost held⟩
      · rw [lost]
        exact ⟨row, old, .lost held⟩
    · obtain ⟨row, old, rfl | ⟨held, rfl⟩⟩ := of_expire found
      · exact ⟨later, old, .stays⟩
      · exact ⟨row, old, .lost held⟩
  · intro id row found held due
    rw [after]
    split
    · exact ⟨_, rfl, rfl⟩
    · exact ⟨_, expire_due found held due, rfl⟩
  · exact fun _ given => nomatch given
  · exact fun _ given => nomatch given

theorem announcements_claims (env : Env) (rows : Rows) (claim : Claim) (now : ℕ) :
    Claims rows (Announcements.claim env rows claim now).2 claim now
      (Announcements.claim env rows claim now).1 := by
  have put : ∀ id status, Announcements.verdict env id = some status →
      status = .skipped ∨ status = .inboxOnly := by
    intro id status said
    unfold Announcements.verdict at said
    split at said
    · cases said
      exact .inl rfl
    · split at said
      · cases said
        exact .inr rfl
      · cases said
  unfold Announcements.claim
  dsimp only
  split
  · exact nothing_claims rows claim now
  · cases hit : previous (expire rows now) claim with
    | some entry =>
      dsimp only
      split
      · exact nothing_claims rows claim now
      · next held =>
        split
        · exact lost_claims hit (not_not.mp held)
        · exact previous_claims hit (not_not.mp held)
    | none =>
      exact (offered put claim now _ _ (queued_distinct _ _) fun entry listed =>
        queued_listed listed).claims fun _ => hit

theorem alerts_claims (env : Env) (rows : Rows) (claim : Claim) (now : ℕ) :
    Claims rows (Alerts.claim env rows claim now).2 claim now
      (Alerts.claim env rows claim now).1 := by
  have put : ∀ id status, Alerts.verdict env id = some status →
      status = .skipped ∨ status = .inboxOnly := by
    intro id status said
    grind [Alerts.verdict]
  unfold Alerts.claim
  dsimp only
  cases hit : previous (expire rows now) claim with
  | some entry =>
    dsimp only
    split
    · next held => exact previous_claims hit held
    · exact nothing_claims rows claim now
  | none =>
    refine (offered put claim now _ _ ((queued_distinct _ _).sublist
      ((List.take_sublist _ _).map Prod.fst)) ?_).claims fun _ => hit
    intro entry listed
    exact queued_listed ((List.take_sublist _ _).subset listed)

theorem service_claims (service : Service) (env : Env) (rows : Rows) (claim : Claim) (now : ℕ) :
    Claims rows (service.claim env rows claim now).2 claim now
      (service.claim env rows claim now).1 := by
  cases service with
  | announcements => exact announcements_claims env rows claim now
  | alerts => exact alerts_claims env rows claim now

end Claims

end Deliveries
end NodePlane
