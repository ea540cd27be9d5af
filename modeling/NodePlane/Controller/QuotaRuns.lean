import NodePlane.Library.Sums
import NodePlane.Controller.Quotas

/-! Quotas over whole runs: one open period, each notice once, bytes counted once, access
restored when a suspension ends; and what a pass opens. -/
namespace NodePlane
namespace Quotas
open Library

/-! What the small updates leave alone. -/

section
variable {db : Db} {profile actor id : ℕ} {now : Time} {f : Period → Period} {g : Profile → Profile}

@[simp] theorem changePeriod_profiles : (db.changePeriod id f).profiles = db.profiles := rfl

@[simp] theorem changePeriod_operations : (db.changePeriod id f).operations = db.operations := rfl

@[simp] theorem changePeriod_notices : (db.changePeriod id f).notices = db.notices := rfl

@[simp] theorem changePeriod_next : (db.changePeriod id f).next = db.next := rfl

@[simp] theorem changeProfile_periods : (db.changeProfile profile g).periods = db.periods := by
  rw [Db.changeProfile]
  split <;> rfl

@[simp] theorem changeProfile_notices : (db.changeProfile profile g).notices = db.notices := by
  rw [Db.changeProfile]
  split <;> rfl

@[simp] theorem changeProfile_next : (db.changeProfile profile g).next = db.next := by
  rw [Db.changeProfile]
  split <;> rfl

@[simp] theorem changeProfile_operations :
    (db.changeProfile profile g).operations = db.operations := by
  rw [Db.changeProfile]
  split <;> rfl

@[simp] theorem record_periods : (db.record profile actor now).periods = db.periods := by
  rw [Db.record]
  split <;> rfl

@[simp] theorem record_notices : (db.record profile actor now).notices = db.notices := by
  rw [Db.record]
  split <;> rfl

@[simp] theorem record_next : (db.record profile actor now).next = db.next := by
  rw [Db.record]
  split <;> rfl

@[simp] theorem record_profiles : (db.record profile actor now).profiles = db.profiles := by
  rw [Db.record]
  split <;> rfl

@[simp] theorem changeAccess_periods : (db.changeAccess profile now).periods = db.periods := by
  rw [Db.changeAccess]
  split <;> simp

@[simp] theorem changeAccess_notices : (db.changeAccess profile now).notices = db.notices := by
  rw [Db.changeAccess]
  split <;> simp

@[simp] theorem changeAccess_next : (db.changeAccess profile now).next = db.next := by
  rw [Db.changeAccess]
  split <;> simp

theorem changeProfile_get (j : ℕ) : (db.changeProfile profile g).profiles[j]? =
    if profile = j then db.profiles[profile]?.map g else db.profiles[j]? := by
  rw [Db.changeProfile]
  split
  next missing =>
    by_cases same : profile = j
    · rw [if_pos same, ← same, missing]
      rfl
    · rw [if_neg same]
  next row found =>
    rw [BTreeMap.get_insert, found]
    rfl

end

/-! What a profile and its policies keep. -/

/-- The same profile, perhaps at a later revision or with its anchor set. -/
structure Alike (before after : Profile) : Prop where
  frozen : after.frozen = before.frozen
  expiresAt : after.expiresAt = before.expiresAt
  deleting : after.deleting = before.deleting
  own : after.own = before.own
  tariff : after.tariff = before.tariff
  revision : before.desiredRevision ≤ after.desiredRevision

theorem Alike.refl (row : Profile) : Alike row row := ⟨rfl, rfl, rfl, rfl, rfl, Nat.le_refl _⟩

theorem Alike.trans {a b c : Profile} (one : Alike a b) (two : Alike b c) : Alike a c :=
  ⟨two.frozen.trans one.frozen, two.expiresAt.trans one.expiresAt, two.deleting.trans one.deleting,
    two.own.trans one.own, two.tariff.trans one.tariff, Nat.le_trans one.revision two.revision⟩

/-- Policies and profiles are those of before. -/
structure Kept (db next : Db) : Prop where
  installation : next.installation = db.installation
  zone : next.zone = db.zone
  tariffs : next.tariffs = db.tariffs
  profiles : ∀ id : ℕ, Option.Rel Alike db.profiles[id]? next.profiles[id]?

namespace Kept
variable {db mid next : Db}

theorem of_profiles (installation : next.installation = db.installation) (zone : next.zone = db.zone)
    (tariffs : next.tariffs = db.tariffs) (same : next.profiles = db.profiles) : Kept db next := by
  refine ⟨installation, zone, tariffs, fun id => ?_⟩
  rw [same]
  cases db.profiles[id]? with
  | none => exact .none
  | some row => exact .some (Alike.refl row)

theorem refl (db : Db) : Kept db db := of_profiles rfl rfl rfl rfl

theorem trans (one : Kept db mid) (two : Kept mid next) : Kept db next := by
  refine ⟨two.installation.trans one.installation, two.zone.trans one.zone,
    two.tariffs.trans one.tariffs, fun id => ?_⟩
  have first := one.profiles id
  have second := two.profiles id
  revert first second
  cases db.profiles[id]? <;> cases mid.profiles[id]? <;> cases next.profiles[id]? <;>
    intro first second <;> cases first <;> cases second
  · exact .none
  next one two => exact .some (one.trans two)

/-- A profile that is there stays there. -/
theorem forward (kept : Kept db next) {id : ℕ} {row : Profile} (found : db.profiles[id]? = some row) :
    ∃ after, next.profiles[id]? = some after ∧ Alike row after := by
  have related := kept.profiles id
  rw [found] at related
  cases after : next.profiles[id]? with
  | none => rw [after] at related; cases related
  | some q =>
    rw [after] at related
    cases related with
    | some alike => exact ⟨q, rfl, alike⟩

theorem backward (kept : Kept db next) {id : ℕ} {row : Profile}
    (found : next.profiles[id]? = some row) : ∃ before, db.profiles[id]? = some before ∧
      Alike before row := by
  have related := kept.profiles id
  rw [found] at related
  cases before : db.profiles[id]? with
  | none => rw [before] at related; cases related
  | some q =>
    rw [before] at related
    cases related with
    | some alike => exact ⟨q, rfl, alike⟩

theorem resolve (kept : Kept db next) {row after : Profile} (alike : Alike row after) :
    next.resolve after = db.resolve row := by
  simp only [Db.resolve, Db.tariffValues, alike.own, alike.tariff, kept.installation, kept.tariffs]

theorem effective (kept : Kept db next) (id : ℕ) : next.effective id = db.effective id := by
  rw [Db.effective, Db.effective]
  cases found : db.profiles[id]? with
  | none =>
    cases after : next.profiles[id]? with
    | none => exact kept.resolve (Alike.refl _)
    | some row =>
      obtain ⟨before, there, -⟩ := kept.backward after
      rw [there] at found
      cases found
  | some row =>
    obtain ⟨after, there, alike⟩ := kept.forward found
    rw [there]
    exact kept.resolve alike

theorem changeProfile {f : Profile → Profile} (profile : ℕ)
    (alike : ∀ row, db.profiles[profile]? = some row → Alike row (f row)) :
    Kept db (db.changeProfile profile f) := by
  rw [Db.changeProfile]
  split
  · exact refl db
  next row found =>
    refine ⟨rfl, rfl, rfl, fun id => ?_⟩
    rw [BTreeMap.get_insert]
    by_cases same : profile = id
    · rw [if_pos same, ← same, found]
      exact .some (alike row found)
    · rw [if_neg same]
      exact (refl db).profiles id

theorem record (profile actor : ℕ) (now : Time) : Kept db (db.record profile actor now) := by
  rw [Db.record]
  split
  · exact refl db
  · exact of_profiles rfl rfl rfl rfl

theorem changeAccess (profile : ℕ) (now : Time) : Kept db (db.changeAccess profile now) := by
  rw [Db.changeAccess]
  split
  · exact refl db
  next op _ =>
    have raised : Kept db (db.changeProfile profile fun row =>
        { row with desiredRevision := row.desiredRevision + 1 }) :=
      Kept.changeProfile profile fun row _ => ⟨rfl, rfl, rfl, rfl, rfl, Nat.le_succ _⟩
    exact raised.trans (record _ _ _)

end Kept

/-! An operation is recorded. -/

theorem latest_none {db : Db} {profile : ℕ} :
    db.latest profile = none ↔ db.collectable profile = false := by
  have fold : ∀ (ops : List Operation) (best : Option Operation),
      ops.foldl Operation.later best = none ↔ best = none ∧ ops = [] := by
    intro ops
    induction ops with
    | nil => intro best; simp
    | cons op rest ih =>
      intro best
      rw [List.foldl_cons, ih]
      cases best with
      | none => simp [Operation.later]
      | some known =>
        rw [Operation.later]
        split <;> simp
  rw [Db.latest, fold, Db.collectable, List.filter_eq_nil_iff, List.any_eq_false]
  simp

/-- An operation that gives the profile the access it has unless it is suspended by its quota. -/
def Restores (now : Time) (db : Db) (profile : ℕ) (op : Operation) : Prop :=
  op.profile = profile ∧ ∃ row, db.profiles[profile]? = some row ∧
    row.desiredRevision < op.revision ∧
      op.active = (!row.frozen && row.expiresAt.all fun expires => now < expires)

theorem Restores.back {now : Time} {db mid : Db} {profile : ℕ} {op : Operation} (kept : Kept db mid)
    (restores : Restores now mid profile op) : Restores now db profile op := by
  obtain ⟨named, row, found, later, active⟩ := restores
  obtain ⟨before, there, alike⟩ := kept.backward found
  refine ⟨named, before, there, Nat.lt_of_le_of_lt alike.revision later, ?_⟩
  rw [active, alike.frozen, alike.expiresAt]

theorem changeAccess_restores {db : Db} {profile : ℕ} {now : Time}
    (served : db.collectable profile = true) (known : db.profiles[profile]?.isSome = true)
    (lifted : db.blocked profile = false) : ∃ op,
      (db.changeAccess profile now).operations = db.operations ++ [op] ∧
        Restores now db profile op := by
  obtain ⟨row, found⟩ := Option.isSome_iff_exists.mp known
  have some : ∃ op, db.latest profile = some op := by
    rw [← Option.ne_none_iff_exists', Ne, latest_none, served]
    exact Bool.noConfusion
  obtain ⟨last, attributed⟩ := some
  have changed : (db.changeProfile profile fun row =>
      { row with desiredRevision := row.desiredRevision + 1 }).profiles[profile]? =
        Option.some { row with desiredRevision := row.desiredRevision + 1 } := by
    rw [changeProfile_get, if_pos rfl, found]
    rfl
  have stays : (db.changeProfile profile fun row =>
      { row with desiredRevision := row.desiredRevision + 1 }).blocked profile = false := by
    rw [Db.blocked, changeProfile_periods]
    exact lifted
  rw [Db.changeAccess, attributed]
  dsimp only
  rw [Db.record, changed]
  dsimp only
  rw [changeProfile_operations, stays]
  exact ⟨_, rfl, rfl, row, found, Nat.lt_succ_self _, by simp⟩

theorem changeAccess_operations (db : Db) (profile : ℕ) (now : Time) :
    ∃ more, (db.changeAccess profile now).operations = db.operations ++ more := by
  rw [Db.changeAccess]
  split
  · exact ⟨[], by simp⟩
  · rw [Db.record]
    split
    · exact ⟨[], by simp⟩
    · exact ⟨_, by rw [changeProfile_operations]⟩

/-! Notices: each kind is stamped on its period. -/

/-- The events that a period raises at most once. -/
inductive Kind
  | warning | exhausted
  deriving DecidableEq, Repr

def Notice.raises : Notice → Option (Kind × ℕ)
  | .warning _ period _ _ _ _ => some (.warning, period)
  | .exhausted _ period _ _ _ _ _ => some (.exhausted, period)
  | .reset _ _ => none

def Period.stamp (row : Period) : Kind → Option Time
  | .warning => row.warnedAt
  | .exhausted => row.exhaustedAt

/-- How often the period's event was raised. -/
def raised (notices : List Notice) (kind : Kind) (id : ℕ) : ℕ :=
  notices.countP fun notice => notice.raises = some (kind, id)

/-- A period's identity: what no update changes. -/
def Period.key (row : Period) : ℕ × ℕ := (row.id, row.profile)

/-- Bytes of the profile's periods. -/
def total (periods : List Period) (profile : ℕ) : ℕ × ℕ :=
  (sumOf Period.uplink (periods.filter fun row => row.profile = profile),
    sumOf Period.downlink (periods.filter fun row => row.profile = profile))

/-- An update of a period that keeps its identity and bytes, opens nothing and takes no stamp
back. -/
structure Marks (f : Period → Period) : Prop where
  key : ∀ row, (f row).key = row.key
  uplink : ∀ row, (f row).uplink = row.uplink
  downlink : ∀ row, (f row).downlink = row.downlink
  shut : ∀ row, (f row).isOpen = true → row.isOpen = true
  stamps : ∀ kind row, (f row).stamp kind = none → row.stamp kind = none

namespace Marks
variable {f : Period → Period} (marks : Marks f) (row : Period)
include marks

theorem id : (f row).id = row.id := congrArg Prod.fst (marks.key row)

theorem profile : (f row).profile = row.profile := congrArg Prod.snd (marks.key row)

theorem used : (f row).used = row.used := by
  rw [Period.used, Period.used, marks.uplink, marks.downlink]

end Marks

theorem marks_close (closed : Closed) : Marks fun row =>
    if row.isOpen then { row with closed := some closed, blocked := false } else row := by
  constructor
  case stamps =>
    intro kind row none
    split at none
    · cases kind <;> exact none
    · exact none
  case shut =>
    intro row still
    split at still
    · cases still
    · exact still
  all_goals
    intro row
    split <;> rfl

theorem marks_warned (now : Time) : Marks fun row => { row with warnedAt := some now } := by
  refine ⟨fun _ => rfl, fun _ => rfl, fun _ => rfl, fun _ still => still, fun kind row none => ?_⟩
  cases kind with
  | warning => cases none
  | exhausted => exact none

theorem marks_exhausted (now : Time) : Marks fun row => { row with exhaustedAt := some now } := by
  refine ⟨fun _ => rfl, fun _ => rfl, fun _ => rfl, fun _ still => still, fun kind row none => ?_⟩
  cases kind with
  | warning => exact none
  | exhausted => cases none

theorem marks_blocked (suspend : Bool) : Marks fun row => { row with blocked := suspend } :=
  ⟨fun _ => rfl, fun _ => rfl, fun _ => rfl, fun _ still => still, fun kind _ none => by
    cases kind <;> exact none⟩

/-- What every reachable state satisfies. -/
structure Sound (db : Db) : Prop where
  drawn : ∀ row ∈ db.periods, row.id < db.next
  distinct : (db.periods.map Period.id).Nodup
  single : ∀ row ∈ db.periods, ∀ other ∈ db.periods, row.isOpen = true → other.isOpen = true →
    row.profile = other.profile → row.id = other.id
  known : ∀ row ∈ db.periods, (db.profiles[row.profile]?).isSome = true
  suspended : ∀ row ∈ db.periods, row.blocked = true → row.isOpen = true ∧ 0 < row.used
  served : ∀ row ∈ db.periods, 0 < row.used → db.collectable row.profile = true
  once : ∀ kind id, raised db.notices kind id ≤ 1
  unraised : ∀ kind, ∀ row ∈ db.periods, row.stamp kind = none →
    raised db.notices kind row.id = 0
  fresh : ∀ kind id, db.next ≤ id → raised db.notices kind id = 0

namespace Sound
variable {db next : Db}

theorem row_eq (sound : Sound db) {row other : Period} (held : row ∈ db.periods)
    (there : other ∈ db.periods) (same : row.id = other.id) : row = other :=
  List.inj_on_of_nodup_map sound.distinct held there same

/-- Nothing of the quotas changed, and no operation was taken back. -/
theorem frame (sound : Sound db) (periods : next.periods = db.periods)
    (notices : next.notices = db.notices) (drawn : next.next = db.next)
    (profiles : ∀ id : ℕ, (db.profiles[id]?).isSome = true → (next.profiles[id]?).isSome = true)
    (operations : ∃ more, next.operations = db.operations ++ more) : Sound next := by
  constructor
  · rw [periods, drawn]
    exact sound.drawn
  · rw [periods]
    exact sound.distinct
  · rw [periods]
    exact sound.single
  · rw [periods]
    exact fun row held => profiles _ (sound.known row held)
  · rw [periods]
    exact sound.suspended
  · rw [periods]
    intro row held bytes
    obtain ⟨more, same⟩ := operations
    have before := sound.served row held bytes
    rw [Db.collectable] at before ⊢
    rw [same, List.any_append, before, Bool.true_or]
  · rw [notices]
    exact sound.once
  · rw [periods, notices]
    exact sound.unraised
  · rw [notices, drawn]
    exact sound.fresh

theorem kept_frame (sound : Sound db) (kept : Kept db next) (periods : next.periods = db.periods)
    (notices : next.notices = db.notices) (drawn : next.next = db.next)
    (operations : ∃ more, next.operations = db.operations ++ more) : Sound next := by
  refine sound.frame periods notices drawn (fun id there => ?_) operations
  obtain ⟨row, found⟩ := Option.isSome_iff_exists.mp there
  obtain ⟨after, found, -⟩ := kept.forward found
  rw [found]
  rfl

theorem changeAccess (sound : Sound db) (profile : ℕ) (now : Time) :
    Sound (db.changeAccess profile now) :=
  sound.kept_frame (Kept.changeAccess profile now) changeAccess_periods changeAccess_notices
    changeAccess_next (changeAccess_operations db profile now)

theorem changePeriod (sound : Sound db) {id : ℕ} {f : Period → Period} (marks : Marks f)
    (suspended : ∀ row ∈ db.periods, row.id = id → (f row).blocked = true →
      (f row).isOpen = true ∧ 0 < row.used) : Sound (db.changePeriod id f) := by
  have change : ∀ row : Period, (if row.id = id then f row else row).id = row.id ∧
      (if row.id = id then f row else row).profile = row.profile ∧
      (if row.id = id then f row else row).used = row.used ∧
      ((if row.id = id then f row else row).isOpen = true → row.isOpen = true) ∧
      ∀ kind, (if row.id = id then f row else row).stamp kind = none → row.stamp kind = none := by
    intro row
    split
    · exact ⟨marks.id row, marks.profile row, marks.used row, marks.shut row,
        fun kind => marks.stamps kind row⟩
    · exact ⟨rfl, rfl, rfl, fun still => still, fun _ none => none⟩
  have mem : ∀ row' ∈ (db.changePeriod id f).periods, ∃ row ∈ db.periods,
      row' = if row.id = id then f row else row := by
    intro row' held
    obtain ⟨row, there, rfl⟩ := List.mem_map.mp held
    exact ⟨row, there, rfl⟩
  constructor
  · intro row' held
    obtain ⟨row, there, rfl⟩ := mem row' held
    rw [(change row).1]
    exact sound.drawn row there
  · have ids : (db.changePeriod id f).periods.map Period.id = db.periods.map Period.id := by
      rw [Db.changePeriod, List.map_map]
      exact List.map_congr_left fun row _ => (change row).1
    rw [ids]
    exact sound.distinct
  · intro row' held other' held' isOpen isOpen' named
    obtain ⟨row, there, rfl⟩ := mem row' held
    obtain ⟨other, there', rfl⟩ := mem other' held'
    rw [(change row).2.1, (change other).2.1] at named
    rw [(change row).1, (change other).1]
    exact sound.single row there other there' ((change row).2.2.2.1 isOpen)
      ((change other).2.2.2.1 isOpen') named
  · intro row' held
    obtain ⟨row, there, rfl⟩ := mem row' held
    rw [(change row).2.1]
    exact sound.known row there
  · intro row' held blocked
    obtain ⟨row, there, rfl⟩ := mem row' held
    rw [(change row).2.2.1]
    by_cases this : row.id = id
    · rw [if_pos this] at blocked ⊢
      exact suspended row there this blocked
    · rw [if_neg this] at blocked ⊢
      exact sound.suspended row there blocked
  · intro row' held bytes
    obtain ⟨row, there, rfl⟩ := mem row' held
    rw [(change row).2.2.1] at bytes
    rw [(change row).2.1]
    exact sound.served row there bytes
  · exact sound.once
  · intro kind row' held none
    obtain ⟨row, there, rfl⟩ := mem row' held
    rw [(change row).1]
    exact sound.unraised kind row there ((change row).2.2.2.2 kind none)
  · exact sound.fresh

theorem raised_notify (notices : List Notice) (notice : Notice) (kind : Kind) (id : ℕ) :
    raised (notices ++ [notice]) kind id =
      raised notices kind id + if notice.raises = some (kind, id) then 1 else 0 := by
  rw [raised, raised, List.countP_append, List.countP_singleton]
  simp

/-- A notice is sent that its period carries the stamp of, or that raises nothing. -/
theorem notify (sound : Sound db) (notice : Notice)
    (stamped : ∀ kind id, notice.raises = some (kind, id) → raised db.notices kind id = 0 ∧
      id < db.next ∧ ∀ row ∈ db.periods, row.id = id → row.stamp kind ≠ none) :
    Sound (db.notify notice) := by
  refine ⟨sound.drawn, sound.distinct, sound.single, sound.known, sound.suspended, sound.served,
    ?_, ?_, ?_⟩
  · intro kind id
    rw [Db.notify, raised_notify]
    split
    next raises =>
      have first := (stamped kind id raises).1
      omega
    next => exact sound.once kind id
  · intro kind row held none
    rw [Db.notify, raised_notify, sound.unraised kind row held none, if_neg]
    exact fun raises => (stamped kind row.id raises).2.2 row held rfl none
  · intro kind id later
    rw [Db.notify, raised_notify, sound.fresh kind id later, if_neg]
    exact fun raises => absurd (stamped kind id raises).2.1 (Nat.not_lt.mpr later)

end Sound

/-! What the updates together do to the periods and the operations. -/

theorem total_map {g : Period → Period} (key : ∀ row, (g row).key = row.key)
    (uplink : ∀ row, (g row).uplink = row.uplink) (downlink : ∀ row, (g row).downlink = row.downlink)
    (periods : List Period) (profile : ℕ) : total (periods.map g) profile = total periods profile := by
  have named : (fun row : Period => decide (row.profile = profile)) ∘ g =
      fun row => decide (row.profile = profile) := by
    funext row
    rw [Function.comp_apply, show (g row).profile = row.profile from congrArg Prod.snd (key row)]
  rw [total, total, List.filter_map, named, sumOf_map, sumOf_map,
    show Period.uplink ∘ g = Period.uplink from funext uplink,
    show Period.downlink ∘ g = Period.downlink from funext downlink]

/-- No row is lost or changes its identity or bytes, and access comes back, by an operation,
where a suspension ends. -/
structure Lifted (now : Time) (db next : Db) : Prop where
  kept : Kept db next
  rows : db.periods.map Period.key <+: next.periods.map Period.key
  totals : ∀ profile, total next.periods profile = total db.periods profile
  lifts : ∃ more, next.operations = db.operations ++ more ∧
    ∀ row ∈ db.periods, row.blocked = true → ∀ after ∈ next.periods, after.id = row.id →
      after.blocked = true ∨ ∃ op ∈ more, Restores now db row.profile op

namespace Lifted
variable {now : Time} {db mid next : Db} {profile : ℕ} {row : Period}

theorem refl (sound : Sound db) : Lifted now db db := by
  refine ⟨Kept.refl db, List.prefix_refl _, fun _ => rfl, [], by simp, ?_⟩
  intro row held blocked after there same
  rw [sound.row_eq there held same]
  exact .inl blocked

theorem operations (lifted : Lifted now db next) :
    ∃ more, next.operations = db.operations ++ more := by
  obtain ⟨more, same, -⟩ := lifted.lifts
  exact ⟨more, same⟩

theorem row_of (lifted : Lifted now db next) (held : row ∈ db.periods) :
    ∃ after ∈ next.periods, after.key = row.key :=
  List.mem_map.mp (lifted.rows.subset (List.mem_map_of_mem held))

theorem trans (one : Lifted now db mid) (two : Lifted now mid next) : Lifted now db next := by
  obtain ⟨first, recorded, lifts⟩ := one.lifts
  obtain ⟨second, recorded', lifts'⟩ := two.lifts
  refine ⟨one.kept.trans two.kept, one.rows.trans two.rows,
    fun profile => (two.totals profile).trans (one.totals profile), first ++ second, ?_, ?_⟩
  · rw [recorded', recorded, List.append_assoc]
  · intro row held blocked after there same
    obtain ⟨between, present, key⟩ := one.row_of held
    have id : between.id = row.id := congrArg Prod.fst key
    have named : between.profile = row.profile := congrArg Prod.snd key
    rcases lifts row held blocked between present id with still | ⟨op, done, restores⟩
    · rcases lifts' between present still after there (same.trans id.symm) with still | ⟨op, done, back⟩
      · exact .inl still
      · rw [named] at back
        exact .inr ⟨op, List.mem_append_right _ done, back.back one.kept⟩
    · exact .inr ⟨op, List.mem_append_left _ done, restores⟩

/-- Updates besides the periods and the operations. -/
theorem of_same (sound : Sound db) (kept : Kept db next) (periods : next.periods = db.periods)
    (operations : next.operations = db.operations) : Lifted now db next := by
  refine ⟨kept, periods ▸ List.prefix_refl _, fun _ => by rw [periods], [],
    by rw [operations, List.append_nil], ?_⟩
  intro row held blocked after there same
  rw [periods] at there
  rw [sound.row_eq there held same]
  exact .inl blocked

theorem changePeriod_rows {f : Period → Period} (marks : Marks f) (id : ℕ) :
    (db.changePeriod id f).periods.map Period.key = db.periods.map Period.key := by
  rw [Db.changePeriod, List.map_map]
  apply List.map_congr_left
  intro row _
  rw [Function.comp_apply]
  split
  · exact marks.key row
  · rfl

theorem changePeriod_totals {f : Period → Period} (marks : Marks f) (id profile : ℕ) :
    total (db.changePeriod id f).periods profile = total db.periods profile := by
  rw [Db.changePeriod]
  apply total_map
  · intro row
    split
    · exact marks.key row
    · rfl
  · intro row
    split
    · exact marks.uplink row
    · rfl
  · intro row
    split
    · exact marks.downlink row
    · rfl

/-- The changed row, or another one as it was. -/
theorem changePeriod_mem {f : Period → Period} {id : ℕ} {after : Period}
    (there : after ∈ (db.changePeriod id f).periods) :
    (∃ row ∈ db.periods, row.id = id ∧ after = f row) ∨ after ∈ db.periods ∧ after.id ≠ id := by
  obtain ⟨row, held, rfl⟩ := List.mem_map.mp there
  by_cases this : row.id = id
  · rw [if_pos this]
    exact .inl ⟨row, held, this, rfl⟩
  · rw [if_neg this]
    exact .inr ⟨held, this⟩

theorem changePeriod (sound : Sound db) {f : Period → Period} {id : ℕ} (marks : Marks f)
    (blocks : ∀ row ∈ db.periods, row.id = id → row.blocked = true → (f row).blocked = true) :
    Lifted now db (db.changePeriod id f) := by
  refine ⟨Kept.of_profiles rfl rfl rfl rfl, (changePeriod_rows marks id) ▸ List.prefix_refl _,
    changePeriod_totals marks id, [], by simp, ?_⟩
  intro row held blocked after there same
  left
  rcases changePeriod_mem there with ⟨before, present, this, rfl⟩ | ⟨present, -⟩
  · rw [marks.id] at same
    rw [sound.row_eq present held same]
    exact blocks row held (by rw [← same, this]) blocked
  · rw [sound.row_eq present held same]
    exact blocked

/-- The end of a suspension, with the operation that follows it. -/
theorem unblock (sound : Sound db) (held : row ∈ db.periods) (blocked : row.blocked = true)
    {f : Period → Period} (marks : Marks f)
    (ends : (f row).isOpen = true → (f row).blocked = false) :
    Lifted now db ((db.changePeriod row.id f).changeAccess row.profile now) := by
  obtain ⟨isOpen, bytes⟩ := sound.suspended row held blocked
  have kept : Kept db (db.changePeriod row.id f) := Kept.of_profiles rfl rfl rfl rfl
  have free : (db.changePeriod row.id f).blocked row.profile = false := by
    rw [Db.blocked, List.any_eq_false]
    intro after there
    rw [Bool.and_eq_true, Period.isOpenOf, Bool.and_eq_true]
    rintro ⟨⟨named, still⟩, suspended⟩
    rcases changePeriod_mem there with ⟨before, present, this, rfl⟩ | ⟨present, other⟩
    · rw [sound.row_eq present held this] at still suspended
      rw [ends still] at suspended
      cases suspended
    · exact other (sound.single after present row held still isOpen (of_decide_eq_true named))
  obtain ⟨op, recorded, restores⟩ := @changeAccess_restores (db.changePeriod row.id f) row.profile now
    (sound.served row held bytes) (sound.known row held) free
  refine ⟨kept.trans (Kept.changeAccess _ _),
    ⟨[], by rw [List.append_nil, changeAccess_periods, changePeriod_rows marks]⟩,
    fun profile => by rw [changeAccess_periods, changePeriod_totals marks], [op], recorded, ?_⟩
  intro before present suspended after there same
  rw [changeAccess_periods] at there
  by_cases this : before.id = row.id
  · rw [sound.row_eq present held this]
    exact .inr ⟨op, List.mem_singleton_self op, restores.back kept⟩
  · left
    rcases changePeriod_mem there with ⟨other, there, own, rfl⟩ | ⟨there, -⟩
    · rw [marks.id] at same
      exact absurd (same.symm.trans own) this
    · rw [sound.row_eq there present same]
      exact suspended

end Lifted

/-- The periods of other profiles, which nothing about this one changes. -/
def others (profile : ℕ) (periods : List Period) : List Period :=
  periods.filter fun row => row.profile ≠ profile

theorem changePeriod_others {db : Db} {id profile : ℕ} {f : Period → Period} (marks : Marks f)
    (own : ∀ row ∈ db.periods, row.id = id → row.profile = profile) :
    others profile (db.changePeriod id f).periods = others profile db.periods := by
  have named : ∀ row : Period, (if row.id = id then f row else row).profile = row.profile := by
    intro row
    split
    · exact marks.profile row
    · rfl
  have same : ((fun row : Period => decide (row.profile ≠ profile)) ∘ fun row =>
      if row.id = id then f row else row) = fun row => decide (row.profile ≠ profile) := by
    funext row
    rw [Function.comp_apply, named]
  rw [others, others, Db.changePeriod, List.filter_map, same]
  conv_rhs => rw [← List.map_id (db.periods.filter _)]
  apply List.map_congr_left
  intro row held
  obtain ⟨there, apart⟩ := List.mem_filter.mp held
  rw [if_neg fun this => absurd (own row there this) (of_decide_eq_true apart)]
  rfl

/-! The parts of a pass. -/

section
variable {db next : Db} {now : Time} {profile : ℕ} {row after : Period}

theorem openPeriod_some (found : db.openPeriod profile = some row) :
    row ∈ db.periods ∧ row.profile = profile ∧ row.isOpen = true := by
  have named := List.find?_some found
  rw [Period.isOpenOf, Bool.and_eq_true] at named
  exact ⟨List.mem_of_find?_eq_some found, of_decide_eq_true named.1, named.2⟩

theorem openPeriod_none (missing : db.openPeriod profile = none) (held : row ∈ db.periods)
    (named : row.profile = profile) : row.isOpen = false := by
  have none := List.find?_eq_none.mp missing row held
  rw [Period.isOpenOf, Bool.not_eq_true, Bool.and_eq_false_iff] at none
  rcases none with other | shut
  · exact absurd named (of_decide_eq_false other)
  · exact shut

/-- The only open period is the one that is found. -/
theorem openPeriod_of (sound : Sound db) (held : row ∈ db.periods) (isOpen : row.isOpen = true) :
    db.openPeriod row.profile = some row := by
  cases found : db.openPeriod row.profile with
  | none =>
    rw [openPeriod_none found held rfl] at isOpen
    cases isOpen
  | some other =>
    obtain ⟨there, named, still⟩ := openPeriod_some found
    rw [sound.row_eq there held (sound.single other there row held still isOpen named)]

/-- A step about one period of a profile, with what the row becomes. -/
structure Staged (now : Time) (row : Period) (db next : Db) (after : Period) : Prop where
  lifted : Lifted now db next
  sound : Sound next
  others : others row.profile next.periods = others row.profile db.periods
  held : after ∈ next.periods
  key : after.key = row.key
  isOpen : after.isOpen = true
  used : after.used = row.used

namespace Staged

theorem id (staged : Staged now row db next after) : after.id = row.id :=
  congrArg Prod.fst staged.key

theorem owner (staged : Staged now row db next after) : after.profile = row.profile :=
  congrArg Prod.snd staged.key

theorem refl (sound : Sound db) (held : row ∈ db.periods) (isOpen : row.isOpen = true) :
    Staged now row db db row :=
  ⟨Lifted.refl sound, sound, rfl, held, rfl, isOpen, rfl⟩

theorem trans {last : Db} {final : Period} (one : Staged now row db next after)
    (two : Staged now after next last final) : Staged now row db last final := by
  refine ⟨one.lifted.trans two.lifted, two.sound, ?_, two.held, two.key.trans one.key, two.isOpen,
    two.used.trans one.used⟩
  have second := two.others
  rw [one.owner] at second
  rw [second, one.others]

theorem mark (sound : Sound db) (held : row ∈ db.periods) {f : Period → Period}
    (marks : Marks f) (stays : (f row).isOpen = true)
    (blocks : (f row).blocked = row.blocked) : Staged now row db (db.changePeriod row.id f) (f row) := by
  refine ⟨Lifted.changePeriod sound marks ?_, sound.changePeriod marks ?_,
    changePeriod_others marks ?_, List.mem_map.mpr ⟨row, held, if_pos rfl⟩, marks.key row, stays,
    marks.used row⟩
  · intro other there same blocked
    rw [sound.row_eq there held same] at blocked ⊢
    rw [blocks, blocked]
  · intro other there same blocked
    rw [sound.row_eq there held same] at blocked ⊢
    rw [blocks] at blocked
    exact ⟨stays, (sound.suspended row held blocked).2⟩
  · intro other there same
    rw [sound.row_eq there held same]

theorem notify (staged : Staged now row db next after) {kind : Kind} {notice : Notice}
    (raises : notice.raises = some (kind, row.id)) (first : raised next.notices kind row.id = 0)
    (stamped : after.stamp kind ≠ none) : Staged now row db (next.notify notice) after := by
  refine ⟨staged.lifted.trans (Lifted.of_same staged.sound (Kept.of_profiles rfl rfl rfl rfl) rfl rfl),
    staged.sound.notify notice ?_, staged.others, staged.held, staged.key, staged.isOpen, staged.used⟩
  intro other id also
  rw [raises] at also
  cases also
  refine ⟨first, ?_, ?_⟩
  · rw [← staged.id]
    exact staged.sound.drawn after staged.held
  · intro r there same
    rw [staged.sound.row_eq there staged.held (same.trans staged.id.symm)]
    exact stamped

end Staged

theorem warn_staged (sound : Sound db) (held : row ∈ db.periods) (isOpen : row.isOpen = true)
    (now : Time) (limit : ℕ) : ∃ after, Staged now row db (db.warn row.profile limit row now) after ∧
      after.blocked = row.blocked ∧ after.exhaustedAt = row.exhaustedAt := by
  rw [Db.warn]
  split
  next due =>
    have marked : Staged now row db (db.changePeriod row.id fun r => { r with warnedAt := some now })
        { row with warnedAt := some now } :=
      Staged.mark sound held (marks_warned now) isOpen rfl
    dsimp only
    split
    · exact ⟨_, marked.notify rfl (sound.unraised .warning row held due.2) (Option.some_ne_none now), rfl, rfl⟩
    · exact ⟨_, marked, rfl, rfl⟩
  next => exact ⟨row, Staged.refl sound held isOpen, rfl, rfl⟩

theorem exhaust_staged {current : Period} (staged : Staged now row db next current)
    (unstamped : current.exhaustedAt = row.exhaustedAt) (values : Values) (limit : ℕ) :
    ∃ after, Staged now row db (next.exhaust row.profile values limit row now) after ∧
      after.blocked = current.blocked := by
  rw [Db.exhaust]
  split
  next due =>
    have first : raised next.notices .exhausted row.id = 0 := by
      rw [← staged.id]
      exact staged.sound.unraised .exhausted current staged.held (unstamped.trans due.2)
    have marked : Staged now current next
        (next.changePeriod current.id fun r => { r with exhaustedAt := some now })
        { current with exhaustedAt := some now } :=
      Staged.mark staged.sound staged.held (marks_exhausted now) staged.isOpen rfl
    have whole := staged.trans marked
    rw [staged.id] at whole
    exact ⟨_, whole.notify rfl first (Option.some_ne_none now), rfl⟩
  next => exact ⟨current, staged, rfl⟩

theorem suspend_staged {current : Period} (staged : Staged now row db next current)
    (unblocked : current.blocked = row.blocked) (suspend : Bool)
    (used : suspend = true → 0 < row.used) :
    ∃ after, Staged now row db (next.suspend row.profile row suspend now).1 after ∧
      after.blocked = suspend := by
  rw [Db.suspend]
  split
  next change =>
    have bytes : suspend = true → 0 < current.used := by
      rw [staged.used]
      exact used
    have marks := marks_blocked suspend
    have sound : Sound (next.changePeriod current.id fun r => { r with blocked := suspend }) := by
      apply staged.sound.changePeriod marks
      intro other there same blocked
      rw [staged.sound.row_eq there staged.held same]
      exact ⟨staged.isOpen, bytes blocked⟩
    have lifted : Lifted now next ((next.changePeriod current.id fun r =>
        { r with blocked := suspend }).changeAccess current.profile now) := by
      cases suspend with
      | false =>
        have blocked : current.blocked = true := by
          rw [unblocked]
          simpa using change
        exact Lifted.unblock staged.sound staged.held blocked marks fun _ => rfl
      | true =>
        have first : Lifted now next (next.changePeriod current.id fun r => { r with blocked := true }) :=
          Lifted.changePeriod staged.sound marks fun _ _ _ _ => rfl
        obtain ⟨more, recorded⟩ := changeAccess_operations
          (next.changePeriod current.id fun r => { r with blocked := true }) current.profile now
        refine first.trans ⟨Kept.changeAccess _ _, changeAccess_periods ▸ List.prefix_refl _,
          fun _ => by rw [changeAccess_periods], more, recorded, ?_⟩
        intro before present blocked other there same
        rw [changeAccess_periods] at there
        rw [sound.row_eq there present same]
        exact .inl blocked
    have own : ∀ r ∈ next.periods, r.id = current.id → r.profile = row.profile := by
      intro r there same
      rw [staged.sound.row_eq there staged.held same, staged.owner]
    rw [staged.id, staged.owner] at lifted
    rw [staged.id] at sound own
    refine ⟨{ current with blocked := suspend }, ⟨staged.lifted.trans lifted,
      sound.changeAccess _ _, ?_, ?_, staged.key, staged.isOpen, staged.used⟩, rfl⟩
    · rw [changeAccess_periods, changePeriod_others marks own, staged.others]
    · rw [changeAccess_periods]
      exact List.mem_map.mpr ⟨current, staged.held, if_pos staged.id⟩
  next same =>
    refine ⟨current, staged, ?_⟩
    rw [unblocked]
    simpa using (not_not.mp same).symm

/-- The open period is suspended exactly when the limit is reached and the policy freezes. -/
theorem evaluate_staged (sound : Sound db) (held : row ∈ db.periods) (isOpen : row.isOpen = true)
    (values : Values) {limit : ℕ} (positive : 0 < limit) :
    ∃ after, Staged now row db (db.evaluate row.profile values limit row now).1 after ∧
      (after.blocked = true ↔ limit ≤ after.used ∧ values.onExhausted = .freeze) := by
  obtain ⟨warned, one, blocked, unstamped⟩ := warn_staged sound held isOpen now limit
  obtain ⟨exhausted, two, blocked'⟩ := exhaust_staged one unstamped values limit
  obtain ⟨after, three, suspended⟩ := suspend_staged two (blocked'.trans blocked)
    (decide (limit ≤ row.used ∧ values.onExhausted = .freeze))
    fun due => Nat.lt_of_lt_of_le positive (of_decide_eq_true due).1
  refine ⟨after, three, ?_⟩
  rw [suspended, decide_eq_true_iff, three.used]

end

/-! A worker pass. -/

/-- A step about one profile. -/
structure Worked (now : Time) (profile : ℕ) (db next : Db) : Prop where
  lifted : Lifted now db next
  sound : Sound next
  others : others profile next.periods = others profile db.periods

namespace Worked
variable {now : Time} {profile : ℕ} {db mid next : Db}

theorem refl (sound : Sound db) : Worked now profile db db := ⟨Lifted.refl sound, sound, rfl⟩

theorem trans (one : Worked now profile db mid) (two : Worked now profile mid next) :
    Worked now profile db next :=
  ⟨one.lifted.trans two.lifted, two.sound, two.others.trans one.others⟩

theorem known (worked : Worked now profile db next) (known : (db.profiles[profile]?).isSome = true) :
    (next.profiles[profile]?).isSome = true := by
  obtain ⟨row, found⟩ := Option.isSome_iff_exists.mp known
  obtain ⟨after, found, -⟩ := worked.lifted.kept.forward found
  rw [found]
  rfl

end Worked

section
variable {db : Db} {now : Time} {profile : ℕ} {row : Period}

theorem close_worked (sound : Sound db) (held : row ∈ db.periods) (isOpen : row.isOpen = true)
    (reason : CloseReason) (closedBy : Option ℕ) :
    Worked now row.profile db (db.close row reason now closedBy) ∧
      (db.close row reason now closedBy).openPeriod row.profile = none := by
  have marks := marks_close ⟨now, reason, closedBy⟩
  have shut : ∀ r : Period, (if r.isOpen = true then
      { r with closed := some ⟨now, reason, closedBy⟩, blocked := false } else r).isOpen = false := by
    intro r
    split
    · rfl
    · rename_i closed
      exact Bool.not_eq_true _ ▸ closed
  have own : ∀ r ∈ db.periods, r.id = row.id → r.profile = row.profile := by
    intro r there same
    rw [sound.row_eq there held same]
  have closed : Sound (db.changePeriod row.id fun r => if r.isOpen = true then
      { r with closed := some ⟨now, reason, closedBy⟩, blocked := false } else r) := by
    apply sound.changePeriod marks
    intro r there same blocked
    rw [sound.row_eq there held same, if_pos isOpen] at blocked
    cases blocked
  have none : ∀ next : Db, next.periods = (db.changePeriod row.id fun r => if r.isOpen = true then
      { r with closed := some ⟨now, reason, closedBy⟩, blocked := false } else r).periods →
      next.openPeriod row.profile = none := by
    intro next same
    rw [Db.openPeriod, List.find?_eq_none, same]
    intro r there found
    rw [Period.isOpenOf, Bool.and_eq_true] at found
    rcases Lifted.changePeriod_mem there with ⟨before, -, -, rfl⟩ | ⟨present, other⟩
    · rw [shut] at found
      cases found.2
    · exact other (sound.single r present row held found.2 isOpen (of_decide_eq_true found.1))
  rw [Db.close]
  split
  next blocked =>
    refine ⟨⟨Lifted.unblock sound held blocked marks fun still => ?_, closed.changeAccess _ _, ?_⟩,
      none _ changeAccess_periods⟩
    · rw [shut] at still
      cases still
    · rw [changeAccess_periods]
      exact changePeriod_others marks own
  next free =>
    refine ⟨⟨Lifted.changePeriod sound marks fun r there same blocked => ?_, closed,
      changePeriod_others marks own⟩, none _ rfl⟩
    rw [sound.row_eq there held same] at blocked
    exact absurd blocked free

theorem anchor_worked (sound : Sound db) : Worked now profile db (db.anchor profile now).1 ∧
    (db.anchor profile now).1.periods = db.periods := by
  rw [Db.anchor]
  split
  · exact ⟨Worked.refl sound, rfl⟩
  next row found =>
    split
    · exact ⟨Worked.refl sound, rfl⟩
    · let anchored : Profile := { row with anchor := some ⟨now, 1⟩ }
      have kept : Kept db { db with profiles := db.profiles.insert profile anchored } := by
        have changed := @Kept.changeProfile db (fun row => { row with anchor := some ⟨now, 1⟩ }) profile
          fun row _ => ⟨rfl, rfl, rfl, rfl, rfl, Nat.le_refl _⟩
        rwa [Db.changeProfile, found] at changed
      exact ⟨⟨Lifted.of_same sound kept rfl rfl,
        sound.kept_frame kept rfl rfl rfl ⟨[], (List.append_nil _).symm⟩, rfl⟩, rfl⟩

theorem start_worked (sound : Sound db) (known : (db.profiles[profile]?).isSome = true)
    (none : db.openPeriod profile = none) (start : Time) (finish : Option Time)
    (command : Option ℕ) (lifted : Bool) :
    Worked now profile db (db.start profile start finish command lifted).1 ∧
      (db.start profile start finish command lifted).2 ∈
        (db.start profile start finish command lifted).1.periods ∧
      (db.start profile start finish command lifted).2.isOpen = true ∧
      (db.start profile start finish command lifted).2.profile = profile := by
  let row : Period := ⟨db.next, profile, start, finish, 0, 0, .none, .none, false, command, .none⟩
  let next : Db := { db with periods := db.periods ++ [row], next := db.next + 1 }
  have apart : ∀ r ∈ db.periods, r.id ≠ db.next := fun r held => Nat.ne_of_lt (sound.drawn r held)
  have shut : ∀ r ∈ db.periods, r.isOpen = true → r.profile ≠ profile := by
    intro r held isOpen named
    rw [openPeriod_none none held named] at isOpen
    cases isOpen
  have mem : ∀ r, r ∈ next.periods ↔ r ∈ db.periods ∨ r = row := by
    intro r
    rw [List.mem_append, List.mem_singleton]
  have sounds : Sound next := by
    constructor
    · intro r held
      rcases (mem r).mp held with there | rfl
      · exact Nat.lt_succ_of_lt (sound.drawn r there)
      · exact Nat.lt_succ_self _
    · show ((db.periods ++ [row]).map Period.id).Nodup
      rw [List.map_append, List.map_singleton, List.nodup_append]
      refine ⟨sound.distinct, List.nodup_singleton _, ?_⟩
      intro a held b new same
      obtain ⟨r, there, rfl⟩ := List.mem_map.mp held
      rw [List.mem_singleton.mp new] at same
      exact apart r there same
    · intro r held other held' isOpen isOpen' same
      rcases (mem r).mp held with there | rfl <;> rcases (mem other).mp held' with there' | rfl
      · exact sound.single r there other there' isOpen isOpen' same
      · exact absurd same (shut r there isOpen)
      · exact absurd same.symm (shut other there' isOpen')
      · rfl
    · intro r held
      rcases (mem r).mp held with there | rfl
      · exact sound.known r there
      · exact known
    · intro r held blocked
      rcases (mem r).mp held with there | rfl
      · exact sound.suspended r there blocked
      · cases blocked
    · intro r held bytes
      rcases (mem r).mp held with there | rfl
      · exact sound.served r there bytes
      · cases bytes
    · exact sound.once
    · intro kind r held unstamped
      rcases (mem r).mp held with there | rfl
      · exact sound.unraised kind r there unstamped
      · exact sound.fresh kind db.next (Nat.le_refl _)
    · intro kind id later
      exact sound.fresh kind id (Nat.le_of_succ_le later)
  have moved : Lifted now db next := by
    refine ⟨Kept.of_profiles rfl rfl rfl rfl, ?_, ?_, [], (List.append_nil _).symm, ?_⟩
    · show db.periods.map Period.key <+: (db.periods ++ [row]).map Period.key
      rw [List.map_append]
      exact List.prefix_append _ _
    · intro p
      show total (db.periods ++ [row]) p = total db.periods p
      rw [total, total, List.filter_append, sumOf_append, sumOf_append]
      by_cases own : profile = p
      · rw [List.filter_cons_of_pos (by simpa using own)]
        simp [row]
      · rw [List.filter_cons_of_neg (by simpa using own)]
        simp
    · intro r held blocked after there same
      rcases (mem after).mp there with present | rfl
      · rw [sound.row_eq present held same]
        exact .inl blocked
      · exact absurd same.symm (apart r held)
  have rest : others profile next.periods = others profile db.periods := by
    show others profile (db.periods ++ [row]) = _
    rw [others, List.filter_append, List.filter_cons_of_neg (by simp [row]), List.filter_nil,
      List.append_nil]
    rfl
  have started : Worked now profile db (db.start profile start finish command lifted).1 ∧
      (db.start profile start finish command lifted).1.periods = next.periods := by
    rw [Db.start]
    dsimp only
    split
    · have sent : Sound (next.notify (.reset profile row.id)) :=
        by
        apply sounds.notify
        intro kind id raises
        cases raises
      exact ⟨⟨moved.trans (Lifted.of_same sounds (Kept.of_profiles rfl rfl rfl rfl) rfl rfl), sent, rest⟩,
        rfl⟩
    · exact ⟨⟨moved, sounds, rest⟩, rfl⟩
  refine ⟨started.1, ?_, rfl, rfl⟩
  rw [started.2]
  exact (mem row).mpr (.inr rfl)

end

section
variable (period : Strategy → Time → ℕ → String → Time → Time × Option Time)
variable {db mid : Db} {now : Time} {profile : ℕ} {zone : String}

/-- What a pass leaves of the profile's quota. -/
def Advanced (values : Values) (profile : ℕ) (next : Db) : Prop :=
  match values.limit with
  | none => next.openPeriod profile = none
  | some limit => ∃ row, next.openPeriod profile = some row ∧
      (row.blocked = true ↔ limit ≤ row.used ∧ values.onExhausted = .freeze)

theorem limit_pos {values : Values} {limit : ℕ} (limited : values.limit = some limit) : 0 < limit :=
  of_decide_eq_true (Option.filter_eq_some_iff.mp limited).2

theorem evaluate_worked (worked : Worked now profile db mid) {row : Period} (held : row ∈ mid.periods)
    (isOpen : row.isOpen = true) (named : row.profile = profile) (values : Values) {limit : ℕ}
    (limited : values.limit = some limit) :
    Worked now profile db (mid.evaluate profile values limit row now).1 ∧
      Advanced values profile (mid.evaluate profile values limit row now).1 := by
  obtain ⟨after, staged, blocked⟩ := @evaluate_staged mid now row worked.sound held isOpen values limit
    (limit_pos limited)
  have owner := staged.owner.trans named
  rw [named] at staged
  refine ⟨worked.trans ⟨staged.lifted, staged.sound, ?_⟩, ?_⟩
  · rw [← named]
    exact named ▸ staged.others
  · rw [Advanced, limited]
    refine ⟨after, ?_, blocked⟩
    have found := openPeriod_of staged.sound staged.held staged.isOpen
    rwa [owner] at found

theorem advance_worked (sound : Sound db) (known : (db.profiles[profile]?).isSome = true) :
    Worked now profile db (advance period db profile zone now).1 ∧
      Advanced (db.effective profile) profile (advance period db profile zone now).1 := by
  rw [advance]
  dsimp only
  cases limited : (db.effective profile).limit with
  | none =>
    rw [Advanced, limited]
    cases found : db.openPeriod profile with
    | none => exact ⟨Worked.refl sound, found⟩
    | some row =>
      obtain ⟨held, rfl, isOpen⟩ := openPeriod_some found
      exact close_worked sound held isOpen .quotaRemoved none
  | some limit =>
    obtain ⟨anchored, same⟩ := @anchor_worked db now profile sound
    have known' := anchored.known known
    -- A new period, once the profile has no open one.
    have opens : ∀ {mid : Db}, Worked now profile db mid → mid.openPeriod profile = none →
        ∀ (start : Time) (finish : Option Time) (lifted : Bool),
          Worked now profile db (Db.evaluate (mid.start profile start finish none lifted).1 profile
            (db.effective profile) limit (mid.start profile start finish none lifted).2 now).1 ∧
          Advanced (db.effective profile) profile
            (Db.evaluate (mid.start profile start finish none lifted).1 profile
              (db.effective profile) limit (mid.start profile start finish none lifted).2 now).1 := by
      intro mid worked none start finish lifted
      obtain ⟨started, held, isOpen, named⟩ := @start_worked mid now profile worked.sound
        (worked.known known) none start finish .none lifted
      exact evaluate_worked (worked.trans started) held isOpen named _ limited
    cases found : db.openPeriod profile with
    | none =>
      have none : (db.anchor profile now).1.openPeriod profile = none := by
        rw [Db.openPeriod, same]
        exact found
      exact opens anchored none _ _ _
    | some row =>
      obtain ⟨held, named, isOpen⟩ := openPeriod_some found
      rw [← same] at held
      by_cases due : (row.finish.any fun finish => decide (finish ≤ now)) = true
      · simp only [due, if_true]
        obtain ⟨closed, none⟩ := @close_worked (db.anchor profile now).1 now row anchored.sound held
          isOpen .periodEnd none
        rw [named] at closed none
        exact opens (anchored.trans closed) none _ _ _
      · simp only [due]
        exact evaluate_worked anchored held isOpen named _ limited

end

/-! A whole pass. -/

section
variable {db next : Db} {profile id : ℕ}

/-- The open periods of a profile. -/
def openCount (db : Db) (profile : ℕ) : ℕ := db.periods.countP (Period.isOpenOf profile)

theorem openCount_le (sound : Sound db) (profile : ℕ) : openCount db profile ≤ 1 := by
  rw [openCount, List.countP_eq_length_filter]
  by_contra more
  have nodup : ((db.periods.filter (Period.isOpenOf profile)).map Period.id).Nodup :=
    sound.distinct.sublist (List.filter_sublist.map _)
  match found : db.periods.filter (Period.isOpenOf profile) with
  | [] => rw [found] at more; exact more (Nat.zero_le _)
  | [row] => rw [found] at more; exact more (Nat.le_refl _)
  | row :: other :: rest =>
    have held : ∀ r ∈ row :: other :: rest, r ∈ db.periods ∧ r.profile = profile ∧
        r.isOpen = true := by
      intro r there
      rw [← found] at there
      obtain ⟨there, named⟩ := List.mem_filter.mp there
      rw [Period.isOpenOf, Bool.and_eq_true] at named
      exact ⟨there, of_decide_eq_true named.1, named.2⟩
    obtain ⟨a, named, isOpen⟩ := held row List.mem_cons_self
    obtain ⟨b, named', isOpen'⟩ := held other (List.mem_cons_of_mem _ List.mem_cons_self)
    have same := sound.single row a other b isOpen isOpen' (named.trans named'.symm)
    rw [found, List.map_cons, List.map_cons, same] at nodup
    exact (List.nodup_cons.mp nodup).1 List.mem_cons_self

theorem openCount_none : db.openPeriod profile = none ↔ openCount db profile = 0 := by
  rw [Db.openPeriod, List.find?_eq_none, openCount, List.countP_eq_zero]

theorem openCount_some (sound : Sound db) :
    (db.openPeriod profile).isSome = true ↔ openCount db profile = 1 := by
  have bound := openCount_le sound profile
  rw [Option.isSome_iff_ne_none, Ne, openCount_none]
  omega

/-- Whatever happened to another profile's periods. -/
theorem openPeriod_frame (same : others id next.periods = others id db.periods)
    (apart : profile ≠ id) : next.openPeriod profile = db.openPeriod profile := by
  have find : ∀ periods : List Period, (others id periods).find? (Period.isOpenOf profile) =
      periods.find? (Period.isOpenOf profile) := by
    intro periods
    rw [others, List.find?_filter]
    congr 1
    funext row
    by_cases named : row.profile = profile
    · rw [Bool.eq_iff_iff]
      simp [named, apart]
    · simp [Period.isOpenOf, named]
  rw [Db.openPeriod, Db.openPeriod, ← find, same, find]

theorem Advanced.frame {values : Values} (advanced : Advanced values profile db)
    (same : next.openPeriod profile = db.openPeriod profile) : Advanced values profile next := by
  rw [Advanced, same]
  exact advanced

variable (period : Strategy → Time → ℕ → String → Time → Time × Option Time) {zone : String}
  {now : Time}

theorem passOver_spec (profiles : List ℕ) (distinct : profiles.Nodup) (sound : Sound db)
    (known : ∀ profile ∈ profiles, (db.profiles[profile]?).isSome = true) :
    Lifted now db (passOver period zone now profiles db).1 ∧
      Sound (passOver period zone now profiles db).1 ∧
      (∀ profile ∈ profiles,
        Advanced (db.effective profile) profile (passOver period zone now profiles db).1) ∧
      ∀ profile, profile ∉ profiles →
        (passOver period zone now profiles db).1.openPeriod profile = db.openPeriod profile := by
  induction profiles generalizing db with
  | nil => exact ⟨Lifted.refl sound, sound, fun _ held => absurd held List.not_mem_nil, fun _ _ => rfl⟩
  | cons first rest ih =>
    obtain ⟨fresh, distinct⟩ := List.nodup_cons.mp distinct
    obtain ⟨worked, advanced⟩ := @advance_worked period db now first zone sound
      (known first List.mem_cons_self)
    have stay : ∀ profile ∈ rest,
        ((advance period db first zone now).1.profiles[profile]?).isSome = true := by
      intro profile held
      obtain ⟨row, found⟩ :=
        Option.isSome_iff_exists.mp (known profile (List.mem_cons_of_mem _ held))
      obtain ⟨after, found, -⟩ := worked.lifted.kept.forward found
      rw [found]
      rfl
    obtain ⟨lifted, sound', opens, apart⟩ := ih distinct worked.sound stay
    have whole : (passOver period zone now (first :: rest) db).1 =
        (passOver period zone now rest (advance period db first zone now).1).1 := rfl
    rw [whole]
    refine ⟨worked.lifted.trans lifted, sound', ?_, ?_⟩
    · intro profile held
      rcases List.mem_cons.mp held with rfl | later
      · exact advanced.frame (apart profile fresh)
      · rw [← worked.lifted.kept.effective]
        exact opens profile later
    · intro profile missing
      rw [List.mem_cons, not_or] at missing
      rw [apart profile missing.2, openPeriod_frame worked.others missing.1]

theorem candidates_mem : profile ∈ db.candidates ↔
    ∃ row, db.profiles[profile]? = some row ∧ db.candidate profile row = true := by
  rw [Db.candidates, List.mem_map]
  constructor
  · rintro ⟨⟨p, row⟩, held, rfl⟩
    obtain ⟨there, admitted⟩ := List.mem_filter.mp held
    exact ⟨row, BTreeMap.mem_toList.mp there, admitted⟩
  · rintro ⟨row, found, admitted⟩
    exact ⟨(profile, row), List.mem_filter.mpr ⟨BTreeMap.mem_toList.mpr found, admitted⟩, rfl⟩

theorem candidates_nodup : db.candidates.Nodup := by
  have keys : (db.profiles.toList.map Prod.fst).Nodup := by
    rw [Std.ExtTreeMap.map_fst_toList_eq_keys]
    exact Std.ExtTreeMap.nodup_keys
  exact keys.sublist (List.filter_sublist.map _)

theorem scheduled_spec (sound : Sound db) (held : Bool) :
    Lifted now db (scheduled period held now db).1 ∧ Sound (scheduled period held now db).1 := by
  rw [scheduled]
  split
  · exact ⟨Lifted.refl sound, sound⟩
  · obtain ⟨lifted, sound', -, -⟩ := @passOver_spec db period db.zone now db.candidates
      candidates_nodup sound fun profile held => by
        obtain ⟨row, found, -⟩ := candidates_mem.mp held
        rw [found]
        rfl
    exact ⟨lifted, sound'⟩

/-- After a pass the profiles with a quota have one open period each, exactly when the pass
considered them all. -/
theorem scheduled_opens (sound : Sound db) :
    (∀ profile row, db.profiles[profile]? = some row → row.deleting = false →
        (db.effective profile).limit.isSome = true →
          openCount (scheduled period false now db).1 profile = 1) ↔
      ∀ profile row, db.profiles[profile]? = some row → row.deleting = false →
        (db.effective profile).limit.isSome = true →
          db.installation.bytes.isSome = true ∨ row.own.bytes.isSome = true ∨
            openCount db profile = 1 := by
  obtain ⟨-, sound', opens, apart⟩ := @passOver_spec db period db.zone now db.candidates
    candidates_nodup sound fun profile held => by
      obtain ⟨row, found, -⟩ := candidates_mem.mp held
      rw [found]
      rfl
  have considered : ∀ profile row, db.profiles[profile]? = some row → row.deleting = false →
      (profile ∈ db.candidates ↔ db.installation.bytes.isSome = true ∨ row.own.bytes.isSome = true ∨
        openCount db profile = 1) := by
    intro profile row found stays
    rw [candidates_mem, ← openCount_some sound]
    constructor
    · rintro ⟨same, found', admitted⟩
      rw [found] at found'
      rw [← Option.some.inj found', Db.candidate, stays, Bool.not_false, Bool.true_and, Bool.or_eq_true,
        Bool.or_eq_true, or_assoc] at admitted
      exact admitted
    · intro admitted
      refine ⟨row, found, ?_⟩
      rw [Db.candidate, stays, Bool.not_false, Bool.true_and, Bool.or_eq_true, Bool.or_eq_true, or_assoc]
      exact admitted
  have pass : (scheduled period false now db).1 = (passOver period db.zone now db.candidates db).1 := rfl
  rw [pass]
  constructor
  · intro all profile row found stays limited
    by_contra passed
    have one := all profile row found stays limited
    have missing := apart profile (mt (considered profile row found stays).mp passed)
    rw [← openCount_some sound', missing, openCount_some sound] at one
    exact passed (.inr (.inr one))
  · intro all profile row found stays limited
    have advanced := opens profile
      ((considered profile row found stays).mpr (all profile row found stays limited))
    obtain ⟨limit, some⟩ := Option.isSome_iff_exists.mp limited
    rw [Advanced, some] at advanced
    obtain ⟨after, there, -⟩ := advanced
    rw [← openCount_some sound', there]
    rfl

end

/-! Collected traffic. -/

section
variable {db : Db} {profile uplink downlink : ℕ}

/-- The row with the traffic added, if it is the open period of the profile. -/
def Period.add (profile uplink downlink : ℕ) (row : Period) : Period :=
  if row.isOpenOf profile then
    { row with uplink := row.uplink + uplink, downlink := row.downlink + downlink }
  else row

theorem accrue_eq (periods : List Period) (profile uplink downlink : ℕ) :
    accrue periods profile uplink downlink = periods.map (Period.add profile uplink downlink) := by
  rw [accrue]
  split
  · rfl
  next none =>
    rw [not_or, not_not, not_not] at none
    rw [none.1, none.2]
    conv_lhs => rw [← List.map_id periods]
    apply List.map_congr_left
    intro row _
    rw [Period.add]
    split <;> rfl

theorem add_same (row : Period) : (row.add profile uplink downlink).key = row.key ∧
    (row.add profile uplink downlink).isOpen = row.isOpen ∧
    (row.add profile uplink downlink).blocked = row.blocked ∧
    ∀ kind, (row.add profile uplink downlink).stamp kind = row.stamp kind := by
  rw [Period.add]
  split
  · exact ⟨rfl, rfl, rfl, fun kind => by cases kind <;> rfl⟩
  · exact ⟨rfl, rfl, rfl, fun _ => rfl⟩

theorem sum_add (periods : List Period) (p : ℕ) :
    total (periods.map (Period.add profile uplink downlink)) p =
      ((total periods p).1 + if p = profile then uplink * periods.countP (Period.isOpenOf profile) else 0,
        (total periods p).2 +
          if p = profile then downlink * periods.countP (Period.isOpenOf profile) else 0) := by
  induction periods with
  | nil => simp [total]
  | cons row rest ih =>
    have owner : (row.add profile uplink downlink).profile = row.profile :=
      congrArg Prod.snd (add_same row).1
    have first := congrArg Prod.fst ih
    have second := congrArg Prod.snd ih
    simp only [total] at first second
    rw [List.map_cons, total, total]
    by_cases named : row.profile = p
    · rw [List.filter_cons_of_pos (by simpa [owner] using named),
        List.filter_cons_of_pos (by simpa using named), sumOf_cons, sumOf_cons, sumOf_cons,
        sumOf_cons, first, second,
        List.countP_cons, Period.add]
      by_cases isOpen : row.isOpenOf profile = true
      · have same : p = profile := by
          rw [Period.isOpenOf, Bool.and_eq_true] at isOpen
          rw [← named, of_decide_eq_true isOpen.1]
        simp only [isOpen, if_true, same, Nat.mul_add, Nat.mul_one, Prod.mk.injEq]
        omega
      · rw [if_neg isOpen, if_neg isOpen, Nat.add_zero, Nat.add_assoc, Nat.add_assoc]
    · rw [List.filter_cons_of_neg (by simpa [owner] using named),
        List.filter_cons_of_neg (by simpa using named), first, second, List.countP_cons]
      by_cases same : p = profile
      · have shut : row.isOpenOf profile = false := by
          rw [Period.isOpenOf, Bool.and_eq_false_iff]
          exact .inl (decide_eq_false (by rw [← same]; exact named))
        simp [shut]
      · simp [same]

/-- What the collection adds to the profile's periods: its bytes, if one is open. -/
theorem accrue_total (sound : Sound db) (p : ℕ) :
    total (accrue db.periods profile uplink downlink) p =
      ((total db.periods p).1 + if p = profile ∧ openCount db profile = 1 then uplink else 0,
        (total db.periods p).2 + if p = profile ∧ openCount db profile = 1 then downlink else 0) := by
  have bound := openCount_le sound profile
  rw [accrue_eq, sum_add]
  rw [openCount] at bound ⊢
  by_cases same : p = profile
  · rcases Nat.le_one_iff_eq_zero_or_eq_one.mp bound with none | one
    · simp [same, none]
    · simp [same, one]
  · simp [same]

theorem accrue_sound (sound : Sound db) (served : db.collectable profile = true) :
    Sound { db with periods := accrue db.periods profile uplink downlink } := by
  have mem : ∀ after ∈ accrue db.periods profile uplink downlink, ∃ row ∈ db.periods,
      after = row.add profile uplink downlink := by
    intro after there
    rw [accrue_eq] at there
    obtain ⟨row, held, rfl⟩ := List.mem_map.mp there
    exact ⟨row, held, rfl⟩
  have id : ∀ row : Period, (row.add profile uplink downlink).id = row.id := fun row =>
    congrArg Prod.fst (add_same row).1
  have owner : ∀ row : Period, (row.add profile uplink downlink).profile = row.profile := fun row =>
    congrArg Prod.snd (add_same row).1
  have used : ∀ row : Period, row.used ≤ (row.add profile uplink downlink).used ∧
      (row.profile ≠ profile → (row.add profile uplink downlink).used = row.used) := by
    intro row
    rw [Period.add]
    split
    next isOpen =>
      rw [Period.isOpenOf, Bool.and_eq_true] at isOpen
      refine ⟨?_, fun apart => absurd (of_decide_eq_true isOpen.1) apart⟩
      rw [Period.used, Period.used]
      dsimp only
      omega
    next => exact ⟨Nat.le_refl _, fun _ => rfl⟩
  constructor
  · intro after there
    obtain ⟨row, held, rfl⟩ := mem after there
    rw [id]
    exact sound.drawn row held
  · show ((accrue db.periods profile uplink downlink).map Period.id).Nodup
    rw [accrue_eq, List.map_map]
    have same : Period.id ∘ Period.add profile uplink downlink = Period.id := funext id
    rw [same]
    exact sound.distinct
  · intro after there other there' isOpen isOpen' named
    obtain ⟨row, held, rfl⟩ := mem after there
    obtain ⟨row', held', rfl⟩ := mem other there'
    rw [(add_same row).2.1] at isOpen
    rw [(add_same row').2.1] at isOpen'
    rw [owner, owner] at named
    rw [id, id]
    exact sound.single row held row' held' isOpen isOpen' named
  · intro after there
    obtain ⟨row, held, rfl⟩ := mem after there
    rw [owner]
    exact sound.known row held
  · intro after there blocked
    obtain ⟨row, held, rfl⟩ := mem after there
    rw [(add_same row).2.2.1] at blocked
    obtain ⟨isOpen, bytes⟩ := sound.suspended row held blocked
    rw [(add_same row).2.1]
    exact ⟨isOpen, Nat.lt_of_lt_of_le bytes (used row).1⟩
  · intro after there bytes
    obtain ⟨row, held, rfl⟩ := mem after there
    rw [owner]
    by_cases same : row.profile = profile
    · rw [same]
      exact served
    · rw [(used row).2 same] at bytes
      exact sound.served row held bytes
  · exact sound.once
  · intro kind after there unstamped
    obtain ⟨row, held, rfl⟩ := mem after there
    rw [(add_same row).2.2.2] at unstamped
    rw [id]
    exact sound.unraised kind row held unstamped
  · exact sound.fresh

end

/-! Every step. -/

section
variable (period : Strategy → Time → ℕ → String → Time → Time × Option Time) {db next : Db}

/-- When the event happens, as far as it matters for expiry. -/
def Event.now : Event → Time
  | .edited _ _ _ _ _ now => now
  | .pass _ now => now
  | .reset _ _ _ _ now => now
  | _ => 0

/-- The bytes an event counts for a profile. -/
def Event.counts (db : Db) (profile : ℕ) : Event → ℕ × ℕ
  | .collected owner uplink downlink =>
    if profile = owner ∧ db.collectable owner = true ∧ openCount db owner = 1 then
      (uplink, downlink)
    else (0, 0)
  | _ => (0, 0)

theorem reset_lifted (sound : Sound db) {refused : Option Denied} {key profile actor : ℕ} {now : Time}
    (done : reset period refused key profile actor now db = .ok next) :
    Lifted now db next ∧ Sound next := by
  rw [reset] at done
  cases known : admin refused profile db with
  | error denied =>
    rw [known] at done
    cases done
  | ok row =>
    have there : (db.profiles[profile]?).isSome = true := by
      unfold admin at known
      split at known
      · cases known
      · cases known
      next found =>
        rw [found]
        rfl
    rw [known] at done
    dsimp only at done
    split at done
    · split at done
      · cases done
      · rw [← Except.ok.inj done]
        exact ⟨Lifted.refl sound, sound⟩
    · split at done
      · cases done
      · rw [← Except.ok.inj done]
        have begun : ∀ {mid : Db}, Worked now profile db mid → mid.openPeriod profile = none →
            ∀ (finish : Option Time) (lifted : Bool),
              Lifted now db ((mid.anchor profile now).1.start profile now finish (some key) lifted).1 ∧
              Sound ((mid.anchor profile now).1.start profile now finish (some key) lifted).1 := by
          intro mid worked none finish lifted
          obtain ⟨anchored, same⟩ := @anchor_worked mid now profile worked.sound
          have whole := worked.trans anchored
          have stays : (mid.anchor profile now).1.openPeriod profile = .none := by
            rw [Db.openPeriod, same]
            exact none
          obtain ⟨started, -⟩ := @start_worked (mid.anchor profile now).1 now profile anchored.sound
            (whole.known there) stays now finish (some key) lifted
          exact ⟨(whole.trans started).lifted, started.sound⟩
        cases found : db.openPeriod profile with
        | none => exact begun (Worked.refl sound) found _ _
        | some row =>
          obtain ⟨held, rfl, isOpen⟩ := openPeriod_some found
          obtain ⟨closed, none⟩ := @close_worked db now row sound held isOpen .manual (some actor)
          exact begun closed none _ _

/-- What a step keeps: the invariant, the operations, the bytes and the end of suspensions. -/
structure Stepped (now : Time) (counts : ℕ → ℕ × ℕ) (db next : Db) : Prop where
  sound : Sound next
  totals : ∀ profile, total next.periods profile =
    ((total db.periods profile).1 + (counts profile).1,
      (total db.periods profile).2 + (counts profile).2)
  lifts : ∃ more, next.operations = db.operations ++ more ∧
    ∀ row ∈ db.periods, row.blocked = true → ∀ after ∈ next.periods, after.id = row.id →
      after.blocked = true ∨ ∃ op ∈ more, Restores now db row.profile op

theorem Lifted.stepped {now : Time} (lifted : Lifted now db next) (sound : Sound next) :
    Stepped now (fun _ => (0, 0)) db next :=
  ⟨sound, lifted.totals, lifted.lifts⟩

/-- A step that leaves the periods alone. -/
theorem stepped_same {now : Time} (sound : Sound db) (sound' : Sound next)
    (periods : next.periods = db.periods)
    (operations : ∃ more, next.operations = db.operations ++ more) :
    Stepped now (fun _ => (0, 0)) db next := by
  refine ⟨sound', fun _ => by rw [periods]; rfl, ?_⟩
  obtain ⟨more, same⟩ := operations
  refine ⟨more, same, fun row held blocked after there id => .inl ?_⟩
  rw [periods] at there
  rw [sound.row_eq there held id]
  exact blocked

theorem changeProfile_sound (sound : Sound db) (profile : ℕ) (f : Profile → Profile) :
    Sound (db.changeProfile profile f) := by
  refine sound.frame changeProfile_periods changeProfile_notices changeProfile_next ?_
    ⟨[], by rw [changeProfile_operations, List.append_nil]⟩
  intro id there
  rw [changeProfile_get]
  split
  next same =>
    rw [← same] at there
    rw [Option.isSome_map]
    exact there
  · exact there

theorem record_operations (db : Db) (profile actor : ℕ) (now : Time) :
    ∃ more, (db.record profile actor now).operations = db.operations ++ more := by
  rw [Db.record]
  split
  · exact ⟨[], (List.append_nil _).symm⟩
  · exact ⟨_, rfl⟩

theorem record_sound (sound : Sound db) (profile actor : ℕ) (now : Time) :
    Sound (db.record profile actor now) :=
  sound.kept_frame (Kept.record profile actor now) record_periods record_notices record_next
    (record_operations db profile actor now)

theorem step_stepped (sound : Sound db) (event : Event) :
    Stepped event.now (fun profile => event.counts db profile) db (step period db event) := by
  have kept : ∃ more, db.operations = db.operations ++ more := ⟨[], (List.append_nil _).symm⟩
  cases event with
  | created profile =>
    rw [step]
    split
    · exact stepped_same sound sound rfl kept
    · refine stepped_same sound (sound.frame rfl rfl rfl ?_ kept) rfl kept
      intro id there
      rw [BTreeMap.get_insert]
      split
      · rfl
      · exact there
  | edited profile frozen expiresAt deleting actor now =>
    rw [step]
    refine stepped_same sound (record_sound (changeProfile_sound sound _ _) _ _ _) ?_ ?_
    · rw [record_periods, changeProfile_periods]
    · obtain ⟨more, same⟩ := record_operations (db.changeProfile profile fun row => { row with
        frozen := frozen, expiresAt := expiresAt, deleting := row.deleting || deleting,
        desiredRevision := row.desiredRevision + 1 }) profile actor now
      exact ⟨more, by rw [same, changeProfile_operations]⟩
  | installation layer zone =>
    exact stepped_same sound (sound.frame rfl rfl rfl (fun _ there => there) kept) rfl kept
  | own profile layer =>
    exact stepped_same sound (changeProfile_sound sound _ _) changeProfile_periods
      ⟨[], by rw [step.eq_def, changeProfile_operations, List.append_nil]⟩
  | tariff id layer =>
    exact stepped_same sound (sound.frame rfl rfl rfl (fun _ there => there) kept) rfl kept
  | assigned profile tariff =>
    exact stepped_same sound (changeProfile_sound sound _ _) changeProfile_periods
      ⟨[], by rw [step.eq_def, changeProfile_operations, List.append_nil]⟩
  | collected profile uplink downlink =>
    rw [step]
    split
    next served =>
      refine ⟨accrue_sound sound served, fun p => ?_, [], (List.append_nil _).symm, ?_⟩
      · show total (accrue db.periods profile uplink downlink) p = _
        rw [accrue_total sound, Event.counts]
        by_cases counted : p = profile ∧ openCount db profile = 1
        · rw [if_pos counted, if_pos counted, if_pos ⟨counted.1, served, counted.2⟩]
        · rw [if_neg counted, if_neg counted, if_neg fun all => counted ⟨all.1, all.2.2⟩]
      · intro row held blocked after there same
        change after ∈ accrue db.periods profile uplink downlink at there
        rw [accrue_eq] at there
        obtain ⟨before, present, rfl⟩ := List.mem_map.mp there
        left
        rw [show (before.add profile uplink downlink).id = before.id from
          congrArg Prod.fst (add_same before).1] at same
        rw [(add_same before).2.2.1, sound.row_eq present held same]
        exact blocked
    next idle =>
      have none : (fun p => Event.counts db p (.collected profile uplink downlink)) =
          fun _ => (0, 0) := by
        funext p
        rw [Event.counts, if_neg fun all => idle all.2.1]
      rw [none]
      exact stepped_same sound sound rfl kept
  | pass held now =>
    obtain ⟨lifted, sound'⟩ := @scheduled_spec db period now sound held
    exact lifted.stepped sound'
  | reset refused key profile actor now =>
    rw [step]
    cases done : reset period refused key profile actor now db with
    | error denied => exact stepped_same sound sound rfl kept
    | ok next =>
      obtain ⟨lifted, sound'⟩ := reset_lifted period sound done
      exact lifted.stepped sound'
  | anchor refused profile instant revision =>
    rw [step]
    cases done : moveAnchor refused profile instant revision db with
    | error denied => exact stepped_same sound sound rfl kept
    | ok next =>
      rw [moveAnchor] at done
      split at done
      · cases done
      · split at done
        · cases done
        · split at done
          · cases done
          · rw [← Except.ok.inj done]
            exact stepped_same sound (changeProfile_sound sound _ _) changeProfile_periods
              ⟨[], by rw [committed, changeProfile_operations, List.append_nil]⟩

end

/-! Runs. -/

section
variable (period : Strategy → Time → ℕ → String → Time → Time × Option Time)

/-- The bytes that a run counts for a profile: those collected while it has an open period. -/
def counted (db : Db) (profile : ℕ) : List Event → ℕ × ℕ
  | [] => (0, 0)
  | event :: rest =>
    ((event.counts db profile).1 + (counted (step period db event) profile rest).1,
      (event.counts db profile).2 + (counted (step period db event) profile rest).2)

theorem empty_sound : Sound Db.empty where
  drawn _ held := absurd held List.not_mem_nil
  distinct := List.nodup_nil
  single _ held := absurd held List.not_mem_nil
  known _ held := absurd held List.not_mem_nil
  suspended _ held := absurd held List.not_mem_nil
  served _ held := absurd held List.not_mem_nil
  once _ _ := Nat.zero_le _
  unraised _ _ held := absurd held List.not_mem_nil
  fresh _ _ _ := rfl

theorem run_spec {db : Db} (sound : Sound db) (events : List Event) :
    Sound (run period db events) ∧ ∀ profile, total (run period db events).periods profile =
      ((total db.periods profile).1 + (counted period db profile events).1,
        (total db.periods profile).2 + (counted period db profile events).2) := by
  induction events generalizing db with
  | nil => exact ⟨sound, fun _ => rfl⟩
  | cons event rest ih =>
    have stepped := step_stepped period sound event
    obtain ⟨sound', totals⟩ := ih stepped.sound
    refine ⟨sound', fun profile => ?_⟩
    rw [run, List.foldl_cons]
    rw [run] at totals
    rw [totals, stepped.totals, counted, Nat.add_assoc, Nat.add_assoc]

/-- The law of the quotas in one state, about what is there and about the next step. -/
structure Law (db : Db) : Prop where
  /-- At most one open period. -/
  single : ∀ profile, openCount db profile ≤ 1
  /-- The warning and the exhausted event at most once per period. -/
  once : ∀ kind id, raised db.notices kind id ≤ 1
  /-- After an advance the open period is suspended exactly when the limit is reached and the
  policy freezes. -/
  suspends : ∀ profile zone now, (db.profiles[profile]?).isSome = true →
    ∀ row, (advance period db profile zone now).1.openPeriod profile = some row →
      (row.blocked = true ↔ ∃ limit, (db.effective profile).limit = some limit ∧
        limit ≤ row.used ∧ (db.effective profile).onExhausted = .freeze)
  /-- Where a suspended period closes, an operation that restores access is recorded. -/
  restores : ∀ event, ∃ more, (step period db event).operations = db.operations ++ more ∧
    ∀ row ∈ db.periods, row.blocked = true → ∀ after ∈ (step period db event).periods,
      after.id = row.id → after.isOpen = false → ∃ op ∈ more, Restores event.now db row.profile op

theorem Sound.law {db : Db} (sound : Sound db) : Law period db := by
  refine ⟨openCount_le sound, sound.once, ?_, ?_⟩
  · intro profile zone now known row found
    obtain ⟨-, advanced⟩ := @advance_worked period db now profile zone sound known
    rw [Advanced] at advanced
    cases limited : (db.effective profile).limit with
    | none =>
      rw [limited] at advanced
      dsimp only at advanced
      rw [advanced] at found
      cases found
    | some limit =>
      rw [limited] at advanced
      obtain ⟨after, there, blocked⟩ := advanced
      rw [there] at found
      rw [← Option.some.inj found, blocked]
      simp
  · intro event
    have stepped := step_stepped period sound event
    obtain ⟨more, recorded, lifts⟩ := stepped.lifts
    refine ⟨more, recorded, fun row held blocked after there same shut => ?_⟩
    rcases lifts row held blocked after there same with still | ended
    · rw [(stepped.sound.suspended after there still).1] at shut
      cases shut
    · exact ended

/-- In every run the quotas obey their law and each byte collected under an open period is in
exactly one period; and a pass leaves one open period to every profile with a quota exactly when
none has it from its tariff alone while no period is open. -/
theorem quota_law (events : List Event) :
    Law period (run period Db.empty events) ∧
      (∀ profile, total (run period Db.empty events).periods profile =
        counted period Db.empty profile events) ∧
      ∀ now, (∀ profile row, (run period Db.empty events).profiles[profile]? = some row →
          row.deleting = false →
          ((run period Db.empty events).effective profile).limit.isSome = true →
          openCount (step period (run period Db.empty events) (.pass false now)) profile = 1) ↔
        ∀ profile row, (run period Db.empty events).profiles[profile]? = some row →
          row.deleting = false →
          ((run period Db.empty events).effective profile).limit.isSome = true →
          (run period Db.empty events).installation.bytes.isSome = true ∨
            row.own.bytes.isSome = true ∨ openCount (run period Db.empty events) profile = 1 := by
  obtain ⟨sound, totals⟩ := run_spec period empty_sound events
  refine ⟨sound.law period, fun profile => ?_, fun now => scheduled_opens period sound⟩
  rw [totals]
  simp [total, Db.empty]

/-- A profile whose tariff alone sets the quota gets no period from a pass. -/
theorem tariff_quota_unopened : ∃ row,
    (run (fun _ anchor _ _ _ => (anchor, none)) Db.empty
      [.created 1, .tariff 7 { Layer.unset with bytes := some 1000 }, .assigned 1 (some 7)]).profiles[1]? =
        some row ∧ row.deleting = false ∧
    ((run (fun _ anchor _ _ _ => (anchor, none)) Db.empty
      [.created 1, .tariff 7 { Layer.unset with bytes := some 1000 },
        .assigned 1 (some 7)]).effective 1).limit = some 1000 ∧
    openCount (run (fun _ anchor _ _ _ => (anchor, none)) Db.empty
      [.created 1, .tariff 7 { Layer.unset with bytes := some 1000 }, .assigned 1 (some 7),
        .pass false 100]) 1 = 0 := by
  refine ⟨{ Db.nobody with desiredRevision := 1, tariff := some 7 }, ?_⟩
  decide

end

end Quotas
end NodePlane
