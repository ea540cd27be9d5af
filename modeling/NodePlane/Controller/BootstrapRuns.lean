import NodePlane.Controller.BootstrapLock

/-! A bootstrap has one unfinished child a phase, succeeds on what was confirmed, and ends after
its children, unless the process dies between a replacement and its link. -/
namespace NodePlane
namespace Bootstraps
open Library

variable {s s' : System} {step : Step} {db after : Db} {b c : ℕ} {row r : Bootstrap}
  {child : Child} {p : Phase} {seen : Seen} {holder : Holder}

/-- At most one command of a phase is unfinished. -/
def OneUnfinished (db : Db) : Prop :=
  ∀ b p x y cx cy, IsChild db b p x cx → IsChild db b p y cy → cx.status.unfinished = true →
    cy.status.unfinished = true → x = y

/-- A step that creates a command of a phase finds the earlier ones retired. -/
def CreatesAfterRetired (s : System) (step : Step) : Prop :=
  ∀ b p c child, IsChild (s.step step).db b p c child → s.db.children.lookup c = none →
    ∀ x cx, IsChild s.db b p x cx → cx.status = .superseded

/-- The protocols child succeeded, or the node serves its protocols at its applied revision. -/
def Confirmed (db : Db) (b : ℕ) (row : Bootstrap) (step : Step) : Prop :=
  (∃ c child, row.child = some c ∧ IsChild db b .protocols c child ∧ child.status = .succeeded) ∨
    ∃ facts site env id node, step = .decide (.facts facts) site env id ∧
      db.nodes.lookup row.node = some node ∧ node.applied = node.desired ∧
      facts.serve node.protocols = true

/-- A step that makes a bootstrap succeed finds it confirmed. -/
def SucceedsConfirmed (s : System) (step : Step) : Prop :=
  ∀ b row', (s.step step).db.bootstraps.lookup b = some row' → row'.status = .succeeded →
    ∃ row, s.db.bootstraps.lookup b = some row ∧
      (row.status = .succeeded ∨ Confirmed s.db b row step)

/-- An ended bootstrap has no unfinished child, unless its node is removed. -/
def EndsAfterChildren (s : System) : Prop :=
  ∀ b row, s.db.bootstraps.lookup b = some row → row.active = false →
    s.db.nodes.lookup row.node ≠ none → s.holder ≠ .retiring row.node →
    ∀ p c child, IsChild s.db b p c child → child.status.unfinished = false

/-- The holder may stop here: no replacement lacks its link, and no node is half removed. -/
def Holder.stops : Holder → Bool
  | .linking _ row child _ _ => row.child = none || row.child = some child
  | .retiring _ => false
  | _ => true

def careful (s : System) : Step → Bool
  | .stop => s.holder.stops
  | _ => true

def carefulRun (s : System) : List Step → Bool
  | [] => true
  | step :: rest => careful s step && carefulRun (s.step step) rest

/-- Beside the link of an active bootstrap an unfinished child is the one that is being linked. -/
structure Tidy (s : System) : Prop where
  linked : ∀ b r, s.db.bootstraps.lookup b = some r → r.active = true → ∀ c, r.child = some c →
    ∀ x child, IsChild s.db b r.phase x child → x ≠ c → child.status.unfinished = true →
      ∃ row kind worker, s.holder = .linking b row x kind worker
  ended : EndsAfterChildren s

/-- What is shown of one step. -/
structure StepFacts (s : System) (step : Step) (s' : System) : Prop where
  creates : ∀ b p c child, IsChild s'.db b p c child → s.db.children.lookup c = none →
    child.status = .awaitingExecutor ∧ ∀ x cx, s.db.children.lookup x = some cx →
      s'.db.children.lookup x = some cx
  succeeds : ∀ b row', s'.db.bootstraps.lookup b = some row' → row'.status = .succeeded →
    ∃ row, s.db.bootstraps.lookup b = some row ∧
      (row.status = .succeeded ∨ Confirmed s.db b row step)
  tidy : careful s step = true → Tidy s → Tidy s'

theorem StepFacts.refl (s : System) (step : Step) : StepFacts s step s :=
  { creates := fun _ _ _ _ held missing => nomatch missing.symm.trans held.found
    succeeds := fun _ row found succeeded => ⟨row, found, .inl succeeded⟩
    tidy := fun _ tidy => tidy }

/-- Neither a link nor a removal is under way. -/
def Holder.free : Holder → Prop
  | .linking .. | .retiring _ => False
  | _ => True

/-- A free holder touches children. -/
theorem facts_touches (free : s.holder.free) (touches : Touches s.db db) :
    StepFacts s step ⟨db, holder⟩ := by
  constructor
  · intro b p c child held missing
    obtain ⟨old, found, _⟩ := touches.known c child held.found
    exact nomatch missing.symm.trans found
  · intro b row found succeeded
    rw [touches.bootstraps] at found
    exact ⟨row, found, .inl succeeded⟩
  · intro _ tidy
    constructor
    · intro b r found active c link x child held apart unfinished
      rw [touches.bootstraps] at found
      obtain ⟨old, held', same⟩ := touches.isChild held
      have unfinished' : old.status.unfinished = true := by
        by_contra ended
        rw [same.finished (Bool.not_eq_true _ ▸ ended)] at unfinished
        cases unfinished
      obtain ⟨_, _, _, links⟩ := tidy.linked b r found active c link x old held' apart unfinished'
      rw [links] at free
      exact free.elim
    · intro b row found ended home _ p c child held
      rw [touches.bootstraps] at found
      obtain ⟨old, held', same⟩ := touches.isChild held
      refine same.finished (tidy.ended b row found ended ?_ ?_ p c old held')
      · intro none
        exact home ((touches.nodes _).mpr none)
      · intro retires
        rw [retires] at free
        exact free

/-- A request beside the holder. -/
theorem facts_beside (apart : Apart s.db db)
    (rows : ∀ b row', db.bootstraps.lookup b = some row' → s.db.bootstraps.lookup b = some row' ∨
      row'.active = true ∧ row'.child = none)
    (homes : ∀ b row, s.db.bootstraps.lookup b = some row → db.nodes.lookup row.node ≠ none →
      s.db.nodes.lookup row.node ≠ none)
    (creates : ∀ c child, db.children.lookup c = some child → s.db.children.lookup c = none →
      child.parent = none) : StepFacts s step ⟨db, s.holder⟩ := by
  constructor
  · intro b p c child held missing
    cases (creates c child held.found missing).symm.trans held.parent
  · intro b row found succeeded
    rcases rows b row found with old | ⟨active, _⟩
    · exact ⟨row, old, .inl succeeded⟩
    · rw [Bootstrap.active, succeeded] at active
      cases active
  · intro _ tidy
    constructor
    · intro b r found active c link x child held apart' unfinished
      rcases rows b r found with old | ⟨_, none⟩
      · exact tidy.linked b r old active c link x child (apart.children _ _ _ _ held) apart'
          unfinished
      · cases none.symm.trans link
    · intro b row found ended home retires p c child held
      rcases rows b row found with old | ⟨active, _⟩
      · exact tidy.ended b row old ended (homes b row old home) retires p c child
          (apart.children _ _ _ _ held)
      · cases active.symm.trans ended

/-- Every child of a bootstrap ended, but one that a holder is linking. -/
theorem Tidy.finished (tidy : Tidy s) (sound : Sound s.db)
    (found : s.db.bootstraps.lookup b = some r) (active : r.active = true)
    (link : r.child = some c) (free : ∀ row x kind worker, s.holder ≠ .linking b row x kind worker)
    (ended : ∀ child, IsChild s.db b r.phase c child → child.status.unfinished = false) (x : ℕ)
    (held : IsChild s.db b p x child) : child.status.unfinished = false := by
  by_cases this : p = r.phase
  · subst this
    by_cases same : x = c
    · subst same
      exact ended child held
    · by_contra unfinished
      rw [Bool.not_eq_false] at unfinished
      obtain ⟨row, kind, worker, links⟩ :=
        tidy.linked b r found active c link x child held same unfinished
      exact free row x kind worker links
  · exact (sound.good b r found active).earlier x child p held this

def Status.active : Status → Bool
  | .awaitingExecutor | .running | .blocked => true
  | .succeeded | .failed | .superseded => false

theorem active_status (row : Bootstrap) : row.active = row.status.active := by
  rw [Bootstrap.active]
  cases row.status <;> rfl

/-- The holder changes the bootstrap it has read, and rests. -/
theorem facts_change {values : Change} (matches' : Matches s.db b row r)
    (busy : ∀ n, s.holder ≠ .retiring n)
    (others : ∀ b' row x kind worker, s.holder = .linking b' row x kind worker → b' = b)
    (succeeds : values.status = .succeeded → Confirmed s.db b r step)
    (linked : Tidy s → values.status.active = true → ∀ c, values.child = some c → ∀ x child,
      IsChild s.db b values.phase x child → x ≠ c → child.status.unfinished = false)
    (ended : Tidy s → values.status.active = false → s.db.nodes.lookup r.node ≠ none →
      ∀ p c child, IsChild s.db b p c child → child.status.unfinished = false) :
    StepFacts s step (resting (s.db.change b values)) := by
  have child {b' p c child} (held : IsChild (s.db.change b values) b' p c child) :
      IsChild s.db b' p c child := ⟨held.found, held.parent⟩
  have looked (other : ℕ) : (s.db.change b values).bootstraps.lookup other = _ :=
    lookup_change matches'.found matches'.active other
  constructor
  · intro b p c held held' missing
    exact nomatch missing.symm.trans held'.found
  · intro b' row' found succeeded
    rw [resting, looked] at found
    by_cases mine : b' = b
    · subst mine
      rw [if_pos rfl] at found
      cases found
      exact ⟨r, matches'.found, .inr (succeeds succeeded)⟩
    · rw [if_neg mine] at found
      exact ⟨row', found, .inl succeeded⟩
  · intro _ tidy
    constructor
    · intro b' r' found active c link x other held apart unfinished
      rw [resting, looked] at found
      by_cases mine : b' = b
      · subst mine
        rw [if_pos rfl] at found
        cases found
        rw [active_status] at active
        rw [linked tidy active c link x other (child held) apart] at unfinished
        cases unfinished
      · rw [if_neg mine] at found
        obtain ⟨read, kind, worker, links⟩ :=
          tidy.linked b' r' found active c link x other (child held) apart unfinished
        exact absurd (others b' read x kind worker links) mine
    · intro b' row' found past home _ p c other held
      rw [resting, looked] at found
      by_cases mine : b' = b
      · subst mine
        rw [if_pos rfl] at found
        cases found
        rw [active_status] at past
        exact ended tidy past home p c other (child held)
      · rw [if_neg mine] at found
        exact tidy.ended b' row' found past home (busy _) p c other (child held)

/-! The coordinator. -/

theorem status_active {status : Status} (active : status = .awaitingExecutor ∨
    status = .running ∨ status = .blocked) : status.active = true := by
  rcases active with same | same | same <;> rw [same] <;> rfl

/-- A change that keeps the bootstrap active ends nothing. -/
theorem facts_active {values : Change} (matches' : Matches s.db b row r)
    (busy : ∀ n, s.holder ≠ .retiring n)
    (others : ∀ b' row x kind worker, s.holder = .linking b' row x kind worker → b' = b)
    (active : values.status.active = true)
    (linked : Tidy s → ∀ c, values.child = some c → ∀ x child,
      IsChild s.db b values.phase x child → x ≠ c → child.status.unfinished = false) :
    StepFacts s step (resting (s.db.change b values)) := by
  refine facts_change matches' busy others ?_ (fun tidy _ => linked tidy) ?_
  · intro succeeded
    rw [succeeded] at active
    cases active
  · intro _ past
    exact nomatch active.symm.trans past

theorem facts_ended {values : Change} (matches' : Matches s.db b row r)
    (busy : ∀ n, s.holder ≠ .retiring n)
    (others : ∀ b' row x kind worker, s.holder = .linking b' row x kind worker → b' = b)
    (ended : values.status.active = false)
    (succeeds : values.status = .succeeded → Confirmed s.db b r step)
    (all : Tidy s → s.db.nodes.lookup r.node ≠ none →
      ∀ p c child, IsChild s.db b p c child → child.status.unfinished = false) :
    StepFacts s step (resting (s.db.change b values)) := by
  refine facts_change matches' busy others succeeds ?_ fun tidy _ => all tidy
  intro _ active
  exact nomatch active.symm.trans ended

section
variable {worker : Bool} (at' : s.holder = .advancing b row seen worker)
include at'

theorem advancing_busy : (∀ n, s.holder ≠ .retiring n) ∧
    (∀ b' row x kind worker, s.holder = .linking b' row x kind worker → b' = b) ∧
    s.holder.free := by
  rw [at']
  exact ⟨nofun, nofun, trivial⟩

variable (advancing : Advancing s.db b row r seen)
include advancing

/-- A change that keeps the phase and the link that was read. -/
theorem Advancing.facts_same {values : Change} (phase : values.phase = row.phase)
    (child : values.child = row.child) (active : values.status.active = true) :
    StepFacts s step (resting (s.db.change b values)) := by
  obtain ⟨busy, others, _⟩ := advancing_busy at'
  refine facts_active advancing.toMatches busy others active ?_
  intro tidy c link x other held apart
  rw [child] at link
  rw [phase, ← advancing.phase] at held
  by_contra unfinished
  rw [Bool.not_eq_false] at unfinished
  obtain ⟨_, _, _, links⟩ := tidy.linked b r advancing.found advancing.active c
    (advancing.linked c link).1 x other held apart unfinished
  exact nomatch at'.symm.trans links

theorem Advancing.facts_raised {code : String} :
    StepFacts s step (s.raised b row worker code) := by
  cases worker with
  | true => exact advancing.facts_same at' rfl rfl rfl
  | false =>
    have touches : Touches s.db s.db := ⟨updates_of_eq rfl, rfl, fun _ => Iff.rfl, rfl⟩
    exact facts_touches (advancing_busy at').2.2 touches

variable (sound : Sound s.db)
include sound

/-- The linked child ended, and so did every other. -/
theorem Advancing.all {status : ChildStatus} {error : Option String} (link : row.child = some c)
    (shown : seen.child = some (status, error)) (finished : status.unfinished = false)
    (tidy : Tidy s) (p : Phase) (x : ℕ) (other : Child) (held' : IsChild s.db b p x other) :
    other.status.unfinished = false := by
  obtain ⟨read, held, same⟩ := advancing.read sound link shown
  refine tidy.finished sound advancing.found advancing.active (advancing.linked c link).1 ?_ ?_ x
    held'
  · intro _ _ _ _ links
    exact nomatch at'.symm.trans links
  · intro again held''
    rw [advancing.phase] at held''
    cases held.found.symm.trans held''.found
    rw [same]
    exact finished

theorem Advancing.facts_decides {values : Change} {probe : Probe} {site : Site} {env : Env}
    {id : ℕ} (decides : Decides row seen probe values) :
    StepFacts s (.decide probe site env id) (resting (s.db.change b values)) := by
  obtain ⟨busy, others, _⟩ := advancing_busy at'
  cases decides with
  | adopts c recorded phase child kind status =>
    refine facts_active advancing.toMatches busy others (by rw [status]; rfl) ?_
    intro _ c' link x other held apart
    cases child.symm.trans link
    rw [phase] at held
    have unlinked : row.child = none := by
      cases link' : row.child with
      | none => rfl
      | some old => exact nomatch recorded.symm.trans (advancing.linked old link').2.2.1
    obtain ⟨adopted, held'⟩ := (advancing.recorded c recorded).1
    exact absurd (derived_unique sound advancing.found held held'
      (advancing.first unlinked x other held) (advancing.first unlinked c adopted held')) apart
  | gone recorded home status =>
    refine facts_ended advancing.toMatches busy others (by rw [status]; rfl) ?_ ?_
    · intro succeeded
      exact nomatch status.symm.trans succeeded
    · intro _ found
      rw [advancing.node, ← advancing.home] at found
      exact absurd home found
  | keeps recorded phase child kind status =>
    exact advancing.facts_same at' phase child (status_active status)
  | ends c ended error recorded link shown finished status =>
    refine facts_ended advancing.toMatches busy others ?_ ?_
      fun tidy _ => advancing.all at' sound link shown finished tidy
    · rcases status with same | same <;> rw [same] <;> rfl
    · intro succeeded
      rcases status with same | same <;> exact nomatch same.symm.trans succeeded
  | next recorded phase goes child status ended =>
    refine facts_active advancing.toMatches busy others (by rw [status]; rfl) ?_
    intro _ c link
    exact nomatch child.symm.trans link
  | succeeds c error recorded phase link shown status =>
    refine facts_ended advancing.toMatches busy others (by rw [status]; rfl) ?_
      fun tidy _ => advancing.all at' sound link shown rfl tidy
    intro _
    obtain ⟨read, held, same⟩ := advancing.read sound link shown
    rw [phase] at held
    exact .inl ⟨c, read, (advancing.linked c link).1, held, same⟩
  | serves node facts recorded phase link home applied found all status =>
    subst found
    refine facts_ended advancing.toMatches busy others (by rw [status]; rfl) ?_ ?_
    · intro _
      refine .inr ⟨facts, site, env, id, node, rfl, ?_, applied, all⟩
      rw [advancing.node, ← advancing.home]
      exact home
    · intro _ _ p x other held
      by_cases this : p = r.phase
      · subst this
        rw [advancing.phase] at held
        exact absurd held ((advancing.alone link recorded).2 x other)
      · exact (sound.good b r advancing.found advancing.active).earlier x other p held this

end

/-! New children. -/

/-- A command is added for a bootstrap whose link no other unfinished child stands beside. -/
theorem facts_added {id : ℕ} {kind : ChildKind} {worker : Bool} (matches' : Matches s.db b row r)
    (free : s.holder.free) (new : s.db.children.lookup id = none)
    (children : db.children = s.db.children.put id child)
    (bootstraps : db.bootstraps = s.db.bootstraps)
    (nodes : ∀ n, db.nodes.lookup n = none ↔ s.db.nodes.lookup n = none)
    (waits : child.status = .awaitingExecutor) (queued : child.parent = some (b, row.phase)) :
    StepFacts s step ⟨db, .linking b row id kind worker⟩ := by
  have stays {x : ℕ} {cx : Child} (found : s.db.children.lookup x = some cx) :
      db.children.lookup x = some cx := by
    rw [children, Table.lookup_put_ne, found]
    rintro rfl
    exact nomatch new.symm.trans found
  have was {b' : ℕ} {p : Phase} {x : ℕ} {cx : Child} (held : IsChild db b' p x cx) :
      x = id ∧ cx = child ∧ b' = b ∨ IsChild s.db b' p x cx := by
    have found := held.found
    rw [children, Table.lookup_put] at found
    split at found
    · next mine =>
      cases found
      exact .inl ⟨mine, rfl, (Prod.mk.inj (Option.some.inj (held.parent.symm.trans queued))).1⟩
    · exact .inr ⟨found, held.parent⟩
  constructor
  · intro b' p c held held' missing
    rcases was held' with ⟨rfl, rfl, _⟩ | old
    · exact ⟨waits, fun x cx found => stays found⟩
    · exact nomatch missing.symm.trans old.found
  · intro b' row' found succeeded
    rw [bootstraps] at found
    exact ⟨row', found, .inl succeeded⟩
  · intro _ tidy
    constructor
    · intro b' r' found active c link x other held apart unfinished
      rw [bootstraps] at found
      rcases was held with ⟨rfl, rfl, rfl⟩ | old
      · exact ⟨row, kind, worker, rfl⟩
      · obtain ⟨_, _, _, links⟩ := tidy.linked b' r' found active c link x other old apart unfinished
        rw [links] at free
        exact free.elim
    · intro b' row' found ended home _ p x other held
      rw [bootstraps] at found
      rcases was held with ⟨rfl, rfl, rfl⟩ | old
      · cases matches'.found.symm.trans found
        exact nomatch matches'.active.symm.trans ended
      · refine tidy.ended b' row' found ended ?_ ?_ p x other old
        · intro none
          exact home ((nodes _).mpr none)
        · intro retires
          rw [retires] at free
          exact free

/-- A replayed command changes nothing. -/
theorem facts_free (free : s.holder.free) : StepFacts s step ⟨s.db, holder⟩ :=
  facts_touches free ⟨updates_of_eq rfl, rfl, fun _ => Iff.rfl, rfl⟩

theorem facts_enqueued {actor node id found : ℕ} {intent : Intent} {key : Key} {kind : ChildKind}
    {worker : Bool} (matches' : Matches s.db b row r) (free : s.holder.free)
    (new : s.db.children.lookup id = none)
    (ok : Enqueued s.db db actor node intent key (some (b, row.phase)) id found) :
    StepFacts s step ⟨db, .linking b row found kind worker⟩ := by
  cases ok with
  | replayed _ _ same =>
    rw [same]
    exact facts_free free
  | added child missing idle home acts keyed asks waits queued children bootstraps nodes =>
    exact facts_added matches' free new children bootstraps nodes waits queued

/-! The link. -/

theorem facts_link {kind : ChildKind} {worker : Bool}
    (at' : s.holder = .linking b row c kind worker) (linking : Linking s.db b row r c kind worker) :
    StepFacts s step (resting (s.db.change b
      { phase := row.phase, status := .running, child := some c, kind := some kind })) := by
  refine facts_active linking.toMatches ?_ ?_ rfl ?_
  · intro n retires
    exact nomatch at'.symm.trans retires
  · intro b' row' x kind' worker' links
    cases at'.symm.trans links
    rfl
  · intro _ c' link x other held apart
    cases link
    rw [linking.others x other held apart]
    rfl

theorem facts_link_raised {kind : ChildKind} {code : String}
    (at' : s.holder = .linking b row c kind true) (linking : Linking s.db b row r c kind true) :
    StepFacts s step (s.raised b row true code) := by
  refine facts_active linking.toMatches ?_ ?_ rfl ?_
  · intro n retires
    exact nomatch at'.symm.trans retires
  · intro b' row' x kind' worker' links
    cases at'.symm.trans links
    rfl
  · intro _ c' link
    exact nomatch (linking.catches rfl).symm.trans link

/-! Ends from outside. -/

theorem Tidy.beside (tidy : Tidy s) (sound : Sound s.db) (free : s.holder.free)
    (found : s.db.bootstraps.lookup b = some r) (active : r.active = true)
    (link : r.child = some c) {x : ℕ} (held : IsChild s.db b p x child) (apart : x ≠ c) :
    child.status.unfinished = false := by
  by_cases this : p = r.phase
  · subst this
    by_contra unfinished
    rw [Bool.not_eq_false] at unfinished
    obtain ⟨_, _, _, links⟩ := tidy.linked b r found active c link x child held apart unfinished
    rw [links] at free
    exact free
  · exact (sound.good b r found active).earlier x child p held this

/-- Children are touched, and some bootstraps end as superseded. -/
theorem facts_ends (free : s.holder.free) (updates : Updates s.db db)
    (nodes : ∀ n, db.nodes.lookup n = none ↔ s.db.nodes.lookup n = none)
    (rows : ∀ b row', db.bootstraps.lookup b = some row' → ∃ row,
      s.db.bootstraps.lookup b = some row ∧ row'.node = row.node ∧
        (row' = row ∨ row'.status = .superseded ∧ (Tidy s → holder = .retiring row.node ∨
          ∀ p x other, IsChild db b p x other → other.status.unfinished = false))) :
    StepFacts s step ⟨db, holder⟩ := by
  constructor
  · intro b p c child held missing
    obtain ⟨old, found, _⟩ := updates.known c child held.found
    exact nomatch missing.symm.trans found
  · intro b row' found succeeded
    obtain ⟨row, found', _, same | ⟨superseded, _⟩⟩ := rows b row' found
    · rw [same] at succeeded
      exact ⟨row, found', .inl succeeded⟩
    · exact nomatch superseded.symm.trans succeeded
  · intro _ tidy
    constructor
    · intro b r' found active c link x child held apart unfinished
      obtain ⟨r, found', _, same | ⟨superseded, _⟩⟩ := rows b r' found
      · subst same
        obtain ⟨old, held', same⟩ := updates.isChild held
        have unfinished' : old.status.unfinished = true := by
          by_contra ended
          rw [same.finished (Bool.not_eq_true _ ▸ ended)] at unfinished
          cases unfinished
        obtain ⟨_, _, _, links⟩ :=
          tidy.linked b r' found' active c link x old held' apart unfinished'
        rw [links] at free
        exact free.elim
      · rw [Bootstrap.active, superseded] at active
        cases active
    · intro b row' found ended home retires p x child held
      obtain ⟨row, found', node, same | ⟨_, all⟩⟩ := rows b row' found
      · subst same
        obtain ⟨old, held', same⟩ := updates.isChild held
        refine same.finished (tidy.ended b row' found' ended ?_ ?_ p x old held')
        · intro none
          exact home ((nodes _).mpr none)
        · intro retires'
          rw [retires'] at free
          exact free
      · rcases all tidy with same | all
        · rw [node] at retires
          exact absurd same retires
        · exact all p x child held

/-- A bootstrap ends together with its child. -/
theorem all_ended (tidy : Tidy s) (sound : Sound s.db) (free : s.holder.free)
    (updates : Updates s.db db) (found : s.db.bootstraps.lookup b = some r)
    (active : r.active = true) (link : r.child = some c)
    (ended : ∀ child, db.children.lookup c = some child → child.status.unfinished = false)
    (p : Phase) (x : ℕ) (other : Child) (held : IsChild db b p x other) :
    other.status.unfinished = false := by
  by_cases mine : x = c
  · subst mine
    exact ended other held.found
  · obtain ⟨old, held', same⟩ := updates.isChild held
    exact same.finished (tidy.beside sound free found active link held' mine)

theorem lookup_force {child : Child} :
    ((db.force c child).children.lookup c) =
      some { child with status := .superseded, error := some "operator_force_cancelled" } :=
  Table.lookup_put_self ..

theorem facts_forceNode (sound : Sound s.db) (free : s.holder.free) :
    StepFacts s step ⟨s.db.forceNode c, holder⟩ := by
  rw [Db.forceNode]
  split
  · exact facts_free free
  · next child found =>
    split
    · exact facts_free free
    · next checked =>
      rw [not_or, not_or, not_not, not_not] at checked
      have touches := touches_force found checked.2.1
      refine facts_ends free (touches.toUpdates.trans (updates_of_eq rfl)) touches.nodes ?_
      intro b row' found'
      rw [Table.lookup_mapRows, touches.bootstraps, Option.map_eq_some_iff] at found'
      obtain ⟨row, held, same⟩ := found'
      refine ⟨row, held, ?_⟩
      subst same
      split
      · next parent =>
        refine ⟨rfl, .inr ⟨rfl, fun tidy => .inr ?_⟩⟩
        refine all_ended tidy sound free (touches.toUpdates.trans (updates_of_eq rfl)) held
          (active_of_blocked parent.2.2) parent.1 ?_
        intro now at'
        cases lookup_force.symm.trans at'
        rfl
      · exact ⟨rfl, .inl rfl⟩

theorem facts_forceBootstrap (sound : Sound s.db) (free : s.holder.free) :
    StepFacts s step ⟨s.db.forceBootstrap b, holder⟩ := by
  rw [Db.forceBootstrap]
  split
  · exact facts_free free
  · next row found =>
    split
    · exact facts_free free
    · next c child linked =>
      split
      · exact facts_free free
      · next checked =>
        simp only [not_or, not_not] at checked
        obtain ⟨link, at', mapped⟩ := Option.bind_eq_some_iff.mp linked
        obtain ⟨_, found', same⟩ := Option.map_eq_some_iff.mp mapped
        cases same
        have touches := touches_force found' checked.2.2.2.2.1
        refine facts_ends free (touches.toUpdates.trans (updates_of_eq rfl)) touches.nodes ?_
        intro b' row' held
        rw [Table.lookup_put, touches.bootstraps] at held
        split at held
        · next mine =>
          subst mine
          cases held
          refine ⟨row, found, rfl, .inr ⟨rfl, fun tidy => .inr ?_⟩⟩
          refine all_ended tidy sound free (touches.toUpdates.trans (updates_of_eq rfl)) found
            (active_of_blocked checked.1) at' ?_
          intro now found''
          cases lookup_force.symm.trans found''
          rfl
        · exact ⟨row', held, rfl, .inl rfl⟩

theorem facts_abandon {node : ℕ} (free : s.holder.free) :
    StepFacts s step ⟨s.db.abandon node, .retiring node⟩ := by
  rw [Db.abandon]
  split
  · exact facts_free free
  · have touches : Touches s.db (s.db.supersedeJobs node ChildStatus.unfinished) :=
      touches_supersedeJobs fun _ unfinished => unfinished
    refine facts_ends free (touches.toUpdates.trans (updates_of_eq rfl)) touches.nodes ?_
    intro b row' found'
    rw [Table.lookup_mapRows, Option.map_eq_some_iff] at found'
    obtain ⟨row, held, same⟩ := found'
    refine ⟨row, held, ?_⟩
    subst same
    split
    · next here => exact ⟨rfl, .inr ⟨rfl, fun _ => .inl (by rw [here.1])⟩⟩
    · exact ⟨rfl, .inl rfl⟩

theorem facts_cancel {answer : Resolution} (sound : Sound s.db) (free : s.holder.free) :
    StepFacts s step (s.cancel b answer) := by
  rw [System.cancel]
  split
  · exact .refl s step
  · next row found =>
    split
    · exact .refl s step
    · next c link =>
      split
      · exact .refl s step
      · next blocked =>
        split
        · split
          · next ok => exact facts_touches free (touches_resolve ok)
          · exact .refl s step
        · split
          · exact .refl s step
          · next child found' =>
            split
            · exact .refl s step
            · next failed =>
              rw [Bool.not_eq_true, Bool.not_eq_false'] at failed
              have same : Same child (child.withStatus .cancelled) :=
                same_withStatus (by rw [blocked_of_preflight failed]; rfl)
              let ended : Db := { s.db with
                children := s.db.children.put c (child.withStatus .cancelled)
                bootstraps := s.db.bootstraps.put b (row.superseded (some "setup_cancelled")) }
              have updates : Updates s.db ended :=
                (touches_put found' same).toUpdates.trans (updates_of_eq rfl)
              refine facts_ends free updates (fun _ => Iff.rfl) ?_
              intro b' row' held
              rw [Table.lookup_put] at held
              split at held
              · next mine =>
                subst mine
                cases held
                refine ⟨row, found, rfl, .inr ⟨rfl, fun tidy => .inr ?_⟩⟩
                refine all_ended tidy sound free updates found
                  (active_of_blocked (not_not.mp blocked)) link ?_
                intro now at'
                cases (Table.lookup_put_self ..).symm.trans at'
                rfl
              · exact ⟨row', held, rfl, .inl rfl⟩

/-! Requests, removals and stops. -/

theorem facts_resumes {row' : Bootstrap} (resumes : Resumes s.db db b row row')
    (sound : Sound s.db) : StepFacts s step ⟨db, s.holder⟩ := by
  have child {b' p c child} (held : IsChild db b' p c child) : IsChild s.db b' p c child := by
    rw [resumes.put] at held
    exact ⟨held.found, held.parent⟩
  have looked (other : ℕ) : db.bootstraps.lookup other =
      if other = b then some row' else s.db.bootstraps.lookup other := by
    rw [resumes.put]
    exact Table.lookup_put ..
  have first := (sound.good b row resumes.found (active_of_blocked resumes.blocked)).first
    resumes.unlinked
  constructor
  · intro b' p c held held' missing
    cases missing.symm.trans (child held').found
  · intro b' held found succeeded
    rw [looked] at found
    by_cases mine : b' = b
    · subst mine
      rw [if_pos rfl] at found
      cases found
      have active := resumes.active
      rw [Bootstrap.active, succeeded] at active
      cases active
    · rw [if_neg mine] at found
      exact ⟨held, found, .inl succeeded⟩
  · intro _ tidy
    constructor
    · intro b' r' found active c link x other held apart unfinished
      rw [looked] at found
      by_cases mine : b' = b
      · subst mine
        rw [if_pos rfl] at found
        cases found
        obtain ⟨adopted, held', key, _⟩ := resumes.adopted sound link
        rw [resumes.phase] at held
        exact absurd (derived_unique sound resumes.found (child held) held'
          (first x other (child held)) key) apart
      · rw [if_neg mine] at found
        exact tidy.linked b' r' found active c link x other (child held) apart unfinished
    · intro b' held found ended home retires p x other held'
      rw [looked] at found
      by_cases mine : b' = b
      · subst mine
        rw [if_pos rfl] at found
        cases found
        cases resumes.active.symm.trans ended
      · rw [if_neg mine] at found
        refine tidy.ended b' held found ended ?_ retires p x other (child held')
        rw [resumes.put] at home
        exact home

theorem facts_resume {env : Env} (sound : Sound s.db) :
    StepFacts s step ⟨s.db.resume env b, s.holder⟩ := by
  rcases resume_cases s.db env b with same | ⟨row, row', resumes⟩
  · rw [same]
    exact .refl s step
  · exact facts_resumes resumes sound

/-- A node leaves the registry. -/
theorem facts_remove {node : ℕ} (free : s.holder.free ∨ s.holder = .retiring node)
    (touches : Touches s.db db) : StepFacts s step (resting (db.remove node)) := by
  have unlinked (b : ℕ) (row : Bootstrap) (x : ℕ) (kind : ChildKind) (worker : Bool) :
      s.holder ≠ .linking b row x kind worker := by
    intro links
    rcases free with free | retires
    · rw [links] at free
      exact free
    · exact nomatch links.symm.trans retires
  have updates : Updates s.db (db.remove node) := touches.toUpdates.trans (updates_of_eq rfl)
  constructor
  · intro b p c child held missing
    obtain ⟨old, found, _⟩ := updates.known c child held.found
    exact nomatch missing.symm.trans found
  · intro b row found succeeded
    exact ⟨row, by rw [← touches.bootstraps]; exact found, .inl succeeded⟩
  · intro _ tidy
    constructor
    · intro b r found active c link x child held apart unfinished
      have found' : s.db.bootstraps.lookup b = some r := by
        rw [← touches.bootstraps]
        exact found
      obtain ⟨old, held', same⟩ := updates.isChild held
      have unfinished' : old.status.unfinished = true := by
        by_contra ended
        rw [same.finished (Bool.not_eq_true _ ▸ ended)] at unfinished
        cases unfinished
      obtain ⟨row, kind, worker, links⟩ :=
        tidy.linked b r found' active c link x old held' apart unfinished'
      exact absurd links (unlinked b row x kind worker)
    · intro b row found ended home _ p x child held
      have found' : s.db.bootstraps.lookup b = some row := by
        rw [← touches.bootstraps]
        exact found
      obtain ⟨old, held', same⟩ := updates.isChild held
      obtain ⟨stays, at'⟩ := Option.ne_none_iff_exists'.mp home
      obtain ⟨at', elsewhere⟩ := Table.lookup_keep.mp at'
      refine same.finished (tidy.ended b row found' ended ?_ ?_ p x old held')
      · intro none
        rw [← touches.nodes] at none
        exact nomatch none.symm.trans at'
      · intro retires
        rcases free with free | here
        · rw [retires] at free
          exact free
        · cases retires.symm.trans here
          exact of_decide_eq_true elsewhere rfl

theorem facts_stop (kept : Inv s) : StepFacts s .stop (resting s.db) := by
  constructor
  · intro b p c child held missing
    exact nomatch missing.symm.trans held.found
  · intro b row found succeeded
    exact ⟨row, found, .inl succeeded⟩
  · intro stops tidy
    have stops : s.holder.stops = true := stops
    constructor
    · intro b r found active c link x child held apart unfinished
      exfalso
      obtain ⟨row, kind, worker, links⟩ :=
        tidy.linked b r found active c link x child held apart unfinished
      have held' := kept.held
      rw [links] at held' stops
      obtain ⟨r', linking⟩ := held'
      cases found.symm.trans linking.found
      rw [Holder.stops, Bool.or_eq_true, decide_eq_true_iff, decide_eq_true_iff] at stops
      rcases stops with none | again
      · -- The first child of the phase, which a resumed bootstrap adopted meanwhile.
        obtain ⟨linked, at', _⟩ := (kept.sound.good b r found active).linked c link
        rw [linking.phase] at at' held
        exact apart (derived_unique kept.sound found held at' (linking.first none x child held)
          (linking.first none c linked at'))
      · cases link.symm.trans (linking.link x again)
        exact apart rfl
    · intro b row found ended home _ p x child held
      refine tidy.ended b row found ended home ?_ p x child held
      intro retires
      rw [retires] at stops
      cases stops

/-! Every step. -/

theorem facts_decide {worker : Bool} {probe : Probe} {site : Site} {env : Env} {id : ℕ}
    (kept : Inv s) (at' : s.holder = .advancing b row seen worker) :
    StepFacts s (.decide probe site env id) (s.decide b row seen worker probe site env id) := by
  have sound := kept.sound
  have held := kept.held
  rw [at'] at held
  obtain ⟨r, advancing⟩ := held
  have free := (advancing_busy at').2.2
  have early : row.phase ≠ .done := by
    rw [← advancing.phase]
    exact (sound.good b r advancing.found advancing.active).phase
  obtain ⟨changes, sends⟩ := decide_cases seen probe site early
  rw [System.decide]
  split
  · exact facts_free free
  · next values decided => exact advancing.facts_decides at' sound (changes values decided)
  · exact advancing.facts_raised at'
  · split
    · exact .refl s _
    · next new =>
      rw [Bool.not_eq_true, Option.isSome_eq_false_iff, Option.isNone_iff_eq_none] at new
      split
      · exact advancing.facts_raised at'
      · next ok => exact facts_enqueued advancing.toMatches free new (enqueued ok)

theorem facts_proceed {purpose : Purpose} {env : Env} {actor id : ℕ} {admin : Bool} (kept : Inv s)
    (at' : s.holder = .resolved b row purpose) :
    StepFacts s step (s.proceed b row purpose env actor admin id) := by
  have sound := kept.sound
  have held := kept.held
  have free : s.holder.free := by
    rw [at']
    trivial
  rw [at'] at held
  obtain ⟨r, c, child, resolved⟩ := held
  cases purpose with
  | cancel =>
    rw [System.proceed]
    refine facts_ends free (updates_of_eq rfl) (fun _ => Iff.rfl) ?_
    intro b' row' found'
    rw [Table.lookup_alter] at found'
    by_cases mine : b' = b
    · subst mine
      rw [if_pos rfl, resolved.found, Option.map_some, Option.some.injEq] at found'
      refine ⟨r, resolved.found, ?_⟩
      subst found'
      split
      · refine ⟨rfl, .inr ⟨rfl, fun tidy => .inr ?_⟩⟩
        refine all_ended tidy sound free (updates_of_eq rfl) resolved.found resolved.active
          resolved.link ?_
        intro now at''
        cases resolved.child.found.symm.trans at''
        exact resolved.finished
      · exact ⟨rfl, .inl rfl⟩
    · rw [if_neg mine] at found'
      exact ⟨row', found', rfl, .inl rfl⟩
  | resume =>
    simp only [System.proceed, resolved.linked, Option.bind_some, resolved.child.found,
      Option.map_some]
    split
    · exact facts_free free
    · split
      · exact .refl s _
      · next new =>
        rw [Bool.not_eq_true, Option.isSome_eq_false_iff, Option.isNone_iff_eq_none] at new
        split
        · exact facts_free free
        · next ok => exact facts_enqueued resolved.toMatches free new (enqueued ok)
    · exact facts_free free

theorem facts_resumeChild {env : Env} {answer : Resolution} (kept : Inv s)
    (idle : s.holder = .idle) : StepFacts s step (s.resumeChild env b answer) := by
  have free : s.holder.free := by
    rw [idle]
    trivial
  rw [System.resumeChild]
  split
  · exact .refl s _
  · split
    · exact .refl s _
    · split
      · have resume : StepFacts s step ⟨s.db.resume env b, s.holder⟩ := facts_resume kept.sound
        rw [idle] at resume
        exact resume
      · split
        · split
          · next ok => exact facts_touches free (touches_resumePreflight ok)
          · split
            · exact .refl s _
            · split
              · exact facts_free free
              · split
                · next ok => exact facts_touches free (touches_recheck ok)
                · exact .refl s _
        · split
          · next ok => exact facts_touches free (touches_resolve ok)
          · exact .refl s _

theorem StepFacts.whenIdle {next : System} (facts : s.holder = .idle → StepFacts s step next) :
    StepFacts s step (s.whenIdle next) := by
  rw [System.whenIdle]
  split
  · next idle => exact facts idle
  · exact .refl s step

/-- A repair of one child. -/
theorem facts_repair {repaired : Option Db} :
    (∀ db, repaired = some db → Touches s.db db) →
    StepFacts s step (s.whenIdle (match repaired with
      | none => s
      | some db => resting db)) := by
  intro touches
  apply StepFacts.whenIdle
  intro idle
  cases repaired with
  | none => exact .refl s step
  | some db => exact facts_touches (by rw [idle]; trivial) (touches db rfl)

theorem facts_queue {env : Env} {actor node revision id : ℕ} {recover : Bool} :
    StepFacts s step ⟨s.db.queue env actor node revision recover id, s.holder⟩ := by
  rcases queue_cases s.db env actor node revision recover id with
    same | ⟨_, _, row, _, active, unlinked, _, same⟩
  · rw [same]
    exact .refl s step
  · have looked (b : ℕ) : (s.db.queue env actor node revision recover id).bootstraps.lookup b =
        if b = id then some row else s.db.bootstraps.lookup b := by
      rw [same]
      exact Table.lookup_put ..
    refine facts_beside apart_queue ?_ ?_ ?_
    · intro b row' found
      rw [looked] at found
      split at found
      · cases found
        exact .inr ⟨active, unlinked⟩
      · exact .inl found
    · intro b row' _ home
      rw [same] at home
      exact home
    · intro c child found missing
      rw [same] at found
      exact nomatch missing.symm.trans found

theorem facts_command {actor node id : ℕ} {intent : Intent} {key : Key}
    (new : s.db.children.lookup id = none)
    (ok : Enqueued s.db db actor node intent key none id c) :
    StepFacts s step ⟨db, s.holder⟩ := by
  cases ok with
  | replayed _ _ same =>
    rw [same]
    exact .refl s step
  | added child missing idle home acts keyed asks waits queued children bootstraps nodes others
      retirements =>
    refine facts_beside (apart_command new (.added child missing idle home acts keyed asks waits
      queued children bootstraps nodes others retirements)) ?_ ?_ ?_
    · intro b row found
      rw [bootstraps] at found
      exact .inl found
    · intro b row _ home' none
      exact home' ((nodes _).mpr none)
    · intro x held found missing'
      rw [children, Table.lookup_put] at found
      split at found
      · cases found
        exact queued
      · exact nomatch missing'.symm.trans found

theorem facts_create {node : ℕ} {new : Node} (sound : Sound s.db) :
    StepFacts s step ⟨s.db.create node new, s.holder⟩ := by
  refine facts_beside (apart_create sound) ?_ ?_ ?_
  · intro b row found
    rw [Db.create] at found
    split at found <;> exact .inl found
  · intro b row found home none
    rw [Db.create] at home
    split at home
    · exact home none
    · next free =>
      rw [Bool.or_eq_true, not_or, List.contains_iff_mem] at free
      have elsewhere : row.node ≠ node := by
        rintro rfl
        exact free.2 (sound.homes b row found none)
      apply home
      exact (Table.lookup_put_ne _ elsewhere).trans none
  · intro c child found missing
    rw [Db.create] at found
    split at found <;> cases missing.symm.trans found

theorem facts_edit {node revision : ℕ} {changed complete : Bool} {protocols : List String} :
    StepFacts s step ⟨s.db.edit node revision changed protocols complete, s.holder⟩ := by
  have touches : Touches s.db (s.db.edit node revision changed protocols complete) := touches_edit
  refine facts_beside apart_edit ?_ ?_ ?_
  · intro b row found
    rw [touches.bootstraps] at found
    exact .inl found
  · intro b row _ home none
    exact home ((touches.nodes _).mpr none)
  · intro c child found missing
    obtain ⟨old, found', _⟩ := touches.known c child found
    exact nomatch missing.symm.trans found'

/-- A step of the lock's holder that touches children. -/
theorem StepFacts.touching (touches : Touches s.db db) :
    StepFacts s step (s.whenIdle ⟨db, holder⟩) := by
  apply StepFacts.whenIdle
  intro idle
  exact facts_touches (by rw [idle]; trivial) touches

theorem facts_step (kept : Inv s) (step : Step) : StepFacts s step (s.step step) := by
  have sound := kept.sound
  have held := kept.held
  have free (idle : s.holder = .idle) : s.holder.free := by
    rw [idle]
    trivial
  cases step with
  | queue env actor node revision recover id => exact facts_queue
  | resume env id => exact facts_resume sound
  | command env actor node intent key id =>
    rw [System.step]
    split
    · exact .refl s _
    · next new =>
      rw [Bool.not_eq_true, Option.isSome_eq_false_iff, Option.isNone_iff_eq_none] at new
      split
      · exact .refl s _
      · next ok => exact facts_command new (enqueued ok)
  | create node row => exact facts_create sound
  | edit node revision changed protocols complete => exact facts_edit
  | start id =>
    apply StepFacts.whenIdle
    intro idle
    split
    · exact .refl s _
    · next child found =>
      split
      · exact .refl s _
      · next waits =>
        rw [not_not] at waits
        have same : Same child (child.withStatus .running) :=
          same_withStatus (by rw [waits]; rfl)
        exact facts_touches (free idle) (touches_put found same)
  | finish outcome =>
    rw [System.step]
    split
    · next id at' =>
      have running : s.holder.free := by
        rw [at']
        trivial
      split
      · exact facts_free running
      · next child found =>
        split
        · exact facts_free running
        · next runs => exact facts_touches running (touches_conclude found (not_not.mp runs))
    · exact .refl s _
  | recover => exact .touching touches_recover
  | reconcile id => exact facts_repair fun _ ok => touches_resolve ok
  | applied node => exact .touching ⟨updates_of_eq rfl, rfl, fun _ => alter_none, rfl⟩
  | resolve id answer => exact facts_repair fun _ ok => touches_resolve ok
  | recheck id => exact facts_repair fun _ ok => touches_recheck ok
  | resumePreflight env id => exact facts_repair fun _ ok => touches_resumePreflight ok
  | advance id admin worker =>
    apply StepFacts.whenIdle
    intro idle
    rw [System.advance]
    split
    · exact .refl s _
    · split
      · exact facts_free (free idle)
      · exact .refl s _
  | decide probe site env child =>
    rw [System.step]
    split
    · next at' => exact facts_decide kept at'
    · exact .refl s _
  | link =>
    rw [System.step]
    split
    · next at' =>
      rw [at'] at held
      obtain ⟨r, linking⟩ := held
      exact facts_link at' linking
    · exact .refl s _
  | fail code =>
    rw [System.step]
    split
    · next at' =>
      rw [at'] at held
      obtain ⟨r, advancing⟩ := held
      exact advancing.facts_raised at'
    · next at' =>
      rw [at'] at held
      obtain ⟨r, linking⟩ := held
      exact facts_link_raised at' linking
    · exact .refl s _
  | resumeChild env id answer => exact .whenIdle fun idle => facts_resumeChild kept idle
  | cancel id answer => exact .whenIdle fun idle => facts_cancel sound (free idle)
  | proceed env actor admin child =>
    rw [System.step]
    split
    · next at' => exact facts_proceed kept at'
    · exact .refl s _
  | forceBootstrap id => exact .whenIdle fun idle => facts_forceBootstrap sound (free idle)
  | forceNode child => exact .whenIdle fun idle => facts_forceNode sound (free idle)
  | drain node =>
    apply StepFacts.touching
    rw [Db.drain]
    split
    · exact ⟨updates_of_eq rfl, rfl, fun _ => Iff.rfl, rfl⟩
    · have drained : Touches (s.db.supersedeJobs node (· = .awaitingExecutor))
          { s.db.supersedeJobs node (· = .awaitingExecutor) with
            drains := node :: s.db.drains } := ⟨updates_of_eq rfl, rfl, fun _ => Iff.rfl, rfl⟩
      exact (touches_supersedeJobs fun _ => unfinished_waiting).trans drained
  | abandon node =>
    apply StepFacts.whenIdle
    intro idle
    split
    · exact .refl s _
    · exact facts_abandon (free idle)
  | retire =>
    rw [System.step]
    split
    · next at' => exact facts_remove (.inr at') (touches_fenced fun _ => rfl)
    · exact .refl s _
  | removeVerified node =>
    apply StepFacts.whenIdle
    intro idle
    split
    · exact facts_remove (.inl (free idle)) ⟨updates_of_eq rfl, rfl, fun _ => Iff.rfl, rfl⟩
    · exact .refl s _
  | stop => exact facts_stop kept

/-! Every run. -/

theorem inv_initial (nodes : Table ℕ Node) : Inv (.initial nodes) := by
  refine ⟨⟨?_, ?_, ?_, ?_, ?_⟩, trivial⟩
  · intro x y cx cy found
    exact nomatch found
  · intro b p c child held
    exact nomatch held.found
  · intro b p x y cx cy held
    exact nomatch held.found
  · intro b row found
    exact nomatch found
  · intro b row found
    exact nomatch found

theorem tidy_initial (nodes : Table ℕ Node) : Tidy (.initial nodes) := by
  constructor
  · intro b r found
    exact nomatch found
  · intro b row found
    exact nomatch found

theorem inv_run (kept : Inv s) (steps : List Step) : Inv (s.run steps) := by
  induction steps generalizing s with
  | nil => exact kept
  | cons step rest ih => exact ih (inv_step kept step)

theorem tidy_run (kept : Inv s) (tidy : Tidy s) (steps : List Step)
    (careful' : carefulRun s steps = true) : Tidy (s.run steps) := by
  induction steps generalizing s with
  | nil => exact tidy
  | cons step rest ih =>
    rw [carefulRun, Bool.and_eq_true] at careful'
    exact ih (inv_step kept step) ((facts_step kept step).tidy careful'.1 tidy) careful'.2

theorem Inv.oneUnfinished (kept : Inv s) : OneUnfinished s.db := by
  intro b p x y cx cy heldX heldY unfinishedX unfinishedY
  by_contra apart
  rcases kept.sound.retired b p x y cx cy heldX heldY apart with retired | retired
  · rw [retired] at unfinishedX
    cases unfinishedX
  · rw [retired] at unfinishedY
    cases unfinishedY

/-- A new command waits, so the sound state after it has every other retired. -/
theorem Inv.createsAfterRetired (kept : Inv s) (step : Step) : CreatesAfterRetired s step := by
  intro b p c child held missing x cx held'
  obtain ⟨waits, stays⟩ := (facts_step kept step).creates b p c child held missing
  have apart : c ≠ x := by
    rintro rfl
    exact nomatch missing.symm.trans held'.found
  have again : IsChild (s.step step).db b p x cx := ⟨stays x cx held'.found, held'.parent⟩
  rcases (inv_step kept step).sound.retired b p c x child cx held again apart with retired | retired
  · exact nomatch waits.symm.trans retired
  · exact retired

/-- From an installation without bootstraps, over every run: a phase has at most one unfinished
command, which is created after the earlier ones are retired; a bootstrap succeeds on a succeeded
protocols child or on a node that serves; and it ends after its children in every run whose holder
stops neither between a replacement and its link nor in a removal. -/
theorem bootstraps_kept (nodes : Table ℕ Node) (steps : List Step) :
    let s := (System.initial nodes).run steps
    OneUnfinished s.db ∧ (∀ step, CreatesAfterRetired s step) ∧
      (∀ step, SucceedsConfirmed s step) ∧
      (carefulRun (.initial nodes) steps = true → EndsAfterChildren s) := by
  have kept := inv_run (inv_initial nodes) steps
  refine ⟨kept.oneUnfinished, kept.createsAfterRetired, ?_, ?_⟩
  · intro step
    exact (facts_step kept step).succeeds
  · intro careful'
    exact (tidy_run (inv_initial nodes) (tidy_initial nodes) steps careful').ended

/-! A job of the protocols phase is retired and replaced. -/

def oneNode : Table ℕ Node := (∅ : Table ℕ Node).put 1 ⟨1, 1, ["awg"], true⟩

def anyEnv : Env := ⟨true, true, false, true, true⟩

def advances (probe : Probe) (child : ℕ) : List Step :=
  [.advance 10 true true, .decide probe ⟨none, none, none⟩ anyEnv child]

/-- The worker goes as far as the blocked job 20, which an administrator retires; its replacement
21 is committed. -/
def replaces (last : List Step) : List Step :=
  let idleDocker : Probe := .facts ⟨true, ["awg"], []⟩
  [.queue anyEnv 7 1 1 false 10] ++ advances idleDocker 20 ++ advances idleDocker 20 ++
    advances idleDocker 20 ++ [.link, .start 20, .finish (.blocked none none)] ++
    advances idleDocker 20 ++ [.resumeChild anyEnv 10 .retired, .proceed anyEnv 7 true 21] ++ last

theorem bootstraps_kept_replaces :
    carefulRun (.initial oneNode) (replaces [.link, .start 21, .finish .succeeded]) = true ∧
      EndsAfterChildren
        ((System.initial oneNode).run (replaces [.link, .start 21, .finish .succeeded])) := by
  have careful' : carefulRun (.initial oneNode)
      (replaces [.link, .start 21, .finish .succeeded]) = true := by decide
  exact ⟨careful', (bootstraps_kept oneNode _).2.2.2 careful'⟩

/-- The process dies before the link of the replacement: the worker ends the bootstrap on the
retired job, while its replacement waits. -/
theorem stop_loses_replacement :
    ¬ EndsAfterChildren
        ((System.initial oneNode).run (replaces (.stop :: advances .missing 22))) := by
  let dead := (System.initial oneNode).run (replaces (.stop :: advances .missing 22))
  intro ends
  have found : (dead.db.bootstraps.lookup 10).map (fun row => (row.node, row.status)) =
      some (1, .superseded) := by decide
  have waits : (dead.db.children.lookup 21).map (fun child => (child.parent, child.status)) =
      some (some (10, .protocols), .awaitingExecutor) := by decide
  have home : (dead.db.nodes.lookup 1).isSome = true := by decide
  have rests : dead.holder = .idle := by decide
  obtain ⟨row, found, same⟩ := Option.map_eq_some_iff.mp found
  obtain ⟨child, at', held⟩ := Option.map_eq_some_iff.mp waits
  rw [Prod.mk.injEq] at same held
  have finished := ends 10 row found (by rw [Bootstrap.active, same.2]; rfl)
    (by rw [same.1]; exact Option.isSome_iff_ne_none.mp home) (by rw [rests]; rintro ⟨⟩)
    .protocols 21 child ⟨at', held.1⟩
  rw [held.2] at finished
  cases finished

end Bootstraps
end NodePlane
