import NodePlane.Controller.BootstrapChildren

/-! What the holder of the lock knows between two transactions, and that every step keeps it. -/
namespace NodePlane
namespace Bootstraps
open Library

variable {db after : Db} {b c : ℕ} {row r r' : Bootstrap} {child : Child} {p : Phase} {seen : Seen}

/-! One bootstrap changes its link or its phase. -/

theorem Good.link (good : Good db b r) (node : r'.node = r.node) (phase : r'.phase = r.phase)
    (linked : ∀ c, r'.child = some c → ∃ child, IsChild db b r.phase c child ∧
      r'.childKind = some child.intent.kind)
    (others : ∀ c, r'.child = some c → ∀ x child, IsChild db b r.phase x child → x ≠ c →
      child.status = .superseded ∨ child.key = .replacing b r.phase c ∧
        ∃ old, db.children.lookup c = some old ∧ old.status = .superseded)
    (first : r'.child = none → ∀ x child, IsChild db b r.phase x child →
      child.key = .derived b r.phase) : Good db b r' := by
  constructor
  · rw [phase]
    exact linked
  · rw [phase]
    exact others
  · rw [phase]
    exact first
  · rw [phase]
    exact good.earlier
  · rw [phase]
    exact good.later
  · rw [node]
    exact good.keys
  · rw [phase]
    exact good.phase

theorem Good.same (good : Good db b r) (node : r'.node = r.node) (phase : r'.phase = r.phase)
    (child : r'.child = r.child) (kind : r'.child ≠ none → r'.childKind = r.childKind) :
    Good db b r' := by
  refine good.link node phase ?_ ?_ ?_
  · intro c link
    rw [kind (by rw [link]; exact nofun)]
    exact good.linked c (child.symm.trans link)
  · intro c link
    exact good.others c (child.symm.trans link)
  · intro link
    exact good.first (child.symm.trans link)

/-- The next phase starts without a child, after every child of this one ended. -/
theorem Good.next (good : Good db b r) (node : r'.node = r.node)
    (phase : r'.phase.rank = r.phase.rank + 1) (goes : r'.phase ≠ .done) (child : r'.child = none)
    (ended : ∀ x child, IsChild db b r.phase x child → child.status.unfinished = false) :
    Good db b r' := by
  constructor
  · intro c link
    exact nomatch child.symm.trans link
  · intro c link
    exact nomatch child.symm.trans link
  · intro _ x held held'
    have late := good.later x held r'.phase held'
    omega
  · intro x held p held' _
    by_cases this : p = r.phase
    · subst this
      exact ended x held held'
    · exact good.earlier x held p held' this
  · intro x held p held'
    have late := good.later x held p held'
    omega
  · rw [node]
    exact good.keys
  · exact goes

/-! The holder. -/

/-- The row that the holder read, and the row as it is. -/
structure Matches (db : Db) (b : ℕ) (row r : Bootstrap) : Prop where
  found : db.bootstraps.lookup b = some r
  active : r.active = true
  node : r.node = row.node
  actor : r.actor = row.actor
  phase : r.phase = row.phase

structure Advancing (db : Db) (b : ℕ) (row r : Bootstrap) (seen : Seen) : Prop
    extends Matches db b row r where
  home : seen.node = db.nodes.lookup row.node
  linked : ∀ c, row.child = some c → r.child = some c ∧ r.childKind = row.childKind ∧
    seen.recorded = none ∧ ∃ child, db.children.lookup c = some child ∧
      seen.child = some (child.status, child.error)
  alone : row.child = none → seen.recorded = none → r.child = none ∧
    ∀ x child, ¬ IsChild db b row.phase x child
  recorded : ∀ c, seen.recorded = some c → (∃ child, IsChild db b row.phase c child) ∧
    (r.child = none ∨ r.child = some c)
  first : row.child = none → ∀ x child, IsChild db b row.phase x child →
    child.key = .derived b row.phase

structure Linking (db : Db) (b : ℕ) (row r : Bootstrap) (c : ℕ) (kind : ChildKind)
    (worker : Bool) : Prop extends Matches db b row r where
  child : ∃ child, IsChild db b row.phase c child ∧ child.intent.kind = kind
  others : ∀ x child, IsChild db b row.phase x child → x ≠ c → child.status = .superseded
  first : row.child = none → ∀ x child, IsChild db b row.phase x child →
    child.key = .derived b row.phase
  catches : worker = true → row.child = none
  link : ∀ old, row.child = some old → r.child = some old

structure Resolved (db : Db) (b : ℕ) (row r : Bootstrap) (c : ℕ) (child : Child) : Prop
    extends Matches db b row r where
  linked : row.child = some c
  link : r.child = some c
  kind : r.childKind = row.childKind
  finished : child.status.unfinished = false
  child : IsChild db b row.phase c child
  others : ∀ x child, IsChild db b row.phase x child → x ≠ c → child.status = .superseded

def Held (db : Db) : Holder → Prop
  | .advancing b row seen _ => ∃ r, Advancing db b row r seen
  | .linking b row c kind worker => ∃ r, Linking db b row r c kind worker
  | .resolved b row _ => ∃ r c child, Resolved db b row r c child
  | .idle | .executing _ | .retiring _ => True

structure Inv (s : System) : Prop where
  sound : Sound s.db
  held : Held s.db s.holder

theorem inv_resting (sound : Sound db) : Inv (resting db) := ⟨sound, trivial⟩

/-! The coordinator reads. -/

theorem recorded_child (sound : Sound db) (found : db.bootstraps.lookup b = some row)
    (active : row.active = true) (recorded : db.recorded b row = some c) :
    ∃ child, IsChild db b row.phase c child := by
  rw [Db.recorded] at recorded
  split at recorded
  · next held keyed =>
    split at recorded
    · next home =>
      cases recorded
      obtain ⟨at', _, _, key⟩ := keyed_found keyed
      exact ⟨held, at', (sound.good b row found active).keys _ _ _ at' home (by rw [key]; rfl)⟩
    · cases recorded
  · cases recorded

theorem unrecorded (sound : Sound db) (found : db.bootstraps.lookup b = some row)
    (active : row.active = true) (link : row.child = none) (recorded : db.recorded b row = none)
    (x : ℕ) (child : Child) : ¬ IsChild db b row.phase x child := by
  intro held
  obtain ⟨_, kind, row', found', home, acts⟩ := sound.owned b row.phase x child held
  cases found.symm.trans found'
  have key := (sound.good b row found active).first link x child held
  rw [Db.recorded] at recorded
  split at recorded
  · next y other keyed =>
    split at recorded
    · cases recorded
    · next away =>
      obtain ⟨at', kind', acts', key'⟩ := keyed_found keyed
      have same := sound.unique x y child other held.found at' (kind.trans kind'.symm)
        ((acts key).trans acts'.symm) (key.trans key'.symm)
      subst same
      cases held.found.symm.trans at'
      exact away home
  · next missing => exact keyed_none missing held.found kind (acts key) key

theorem seen_child {admin : Bool} (link : row.child = some c)
    (found : db.children.lookup c = some child) (kind : row.childKind = some child.intent.kind) :
    (db.seen b row admin).child = some (child.status, child.error) := by
  rw [Db.seen, link, Option.bind_some, found, kind]
  cases asks : child.intent <;> simp [Option.filter, asks, Intent.kind]

theorem advancing_seen {admin : Bool} (sound : Sound db) (found : db.bootstraps.lookup b = some row)
    (active : row.active = true) : Advancing db b row row (db.seen b row admin) := by
  have good := sound.good b row found active
  refine ⟨⟨found, active, rfl, rfl, rfl⟩, rfl, ?_, ?_, ?_, good.first⟩
  · intro c link
    obtain ⟨child, held, kind⟩ := good.linked c link
    refine ⟨link, rfl, ?_, child, held.found, seen_child link held.found kind⟩
    rw [Db.seen, link]
    rfl
  · intro link recorded
    rw [Db.seen, link] at recorded
    exact ⟨link, unrecorded sound found active link recorded⟩
  · intro c recorded
    cases link : row.child with
    | none =>
      rw [Db.seen, link] at recorded
      exact ⟨recorded_child sound found active recorded, .inl rfl⟩
    | some old =>
      rw [Db.seen, link] at recorded
      cases recorded

/-! `_change`. -/

theorem lookup_change {values : Change} (found : db.bootstraps.lookup b = some r)
    (active : r.active = true) (other : ℕ) : (db.change b values).bootstraps.lookup other =
      if other = b then some { r with
        phase := values.phase
        status := values.status
        child := values.child
        childKind := values.kind
        error := values.error }
      else db.bootstraps.lookup other := by
  rw [Db.change, Table.lookup_alter, found, Option.map_some, if_pos active]

theorem Sound.change {values : Change} (sound : Sound db) (matches' : Matches db b row r)
    (good : Good db b { r with
      phase := values.phase
      status := values.status
      child := values.child
      childKind := values.kind
      error := values.error }) : Sound (db.change b values) :=
  sound.put matches'.found (lookup_change matches'.found matches'.active) rfl rfl rfl rfl rfl
    fun _ => good

/-- An end needs nothing of the bootstrap's children here. -/
theorem Sound.end_change {values : Change} (sound : Sound db) (matches' : Matches db b row r)
    (ended : values.status = .succeeded ∨ values.status = .failed ∨ values.status = .superseded) :
    Sound (db.change b values) := by
  refine sound.put matches'.found (lookup_change matches'.found matches'.active) rfl rfl rfl rfl rfl
    fun active => ?_
  rcases ended with status | status | status <;> simp [Bootstrap.active, status] at active

section
variable {values : Change} (sound : Sound db)
include sound

/-- The change keeps the phase and the link that the holder read. -/
theorem Advancing.change_same (advancing : Advancing db b row r seen)
    (phase : values.phase = row.phase) (child : values.child = row.child)
    (kind : row.child ≠ none → values.kind = row.childKind) : Sound (db.change b values) := by
  have good := sound.good b r advancing.found advancing.active
  refine sound.change advancing.toMatches (good.link rfl (phase.trans advancing.phase.symm) ?_ ?_ ?_)
  · intro c link
    rw [child] at link
    obtain ⟨link', kind', _⟩ := advancing.linked c link
    have set := kind (by rw [link]; exact nofun)
    rw [show values.kind = r.childKind from set.trans kind'.symm]
    exact good.linked c link'
  · intro c link
    rw [child] at link
    exact good.others c (advancing.linked c link).1
  · intro link
    rw [child] at link
    rw [advancing.phase]
    exact advancing.first link

theorem Advancing.change_adopts (advancing : Advancing db b row r seen)
    (link : row.child = none) (recorded : seen.recorded = some c)
    (phase : values.phase = row.phase) (child : values.child = some c)
    (kind : values.kind = some row.phase.table) : Sound (db.change b values) := by
  have good := sound.good b r advancing.found advancing.active
  obtain ⟨adopted, held⟩ := (advancing.recorded c recorded).1
  obtain ⟨_, table, row', found, _, acts⟩ := sound.owned b row.phase c adopted held
  cases advancing.found.symm.trans found
  have key := advancing.first link
  refine sound.change advancing.toMatches (good.link rfl (phase.trans advancing.phase.symm) ?_ ?_ ?_)
  · intro c' link'
    cases child.symm.trans link'
    rw [advancing.phase]
    exact ⟨adopted, held, kind.trans (by rw [table])⟩
  · intro c' link' x other held' apart
    cases child.symm.trans link'
    rw [advancing.phase] at held'
    obtain ⟨_, table', row', found', _, acts'⟩ := sound.owned b row.phase x other held'
    cases advancing.found.symm.trans found'
    have same := sound.unique x c other adopted held'.found held.found (table'.trans table.symm)
      ((acts' (key x other held')).trans (acts (key c adopted held)).symm)
      ((key x other held').trans (key c adopted held).symm)
    exact absurd same apart
  · intro link'
    exact nomatch child.symm.trans link'

theorem Advancing.change_next (advancing : Advancing db b row r seen)
    (phase : values.phase.rank = row.phase.rank + 1) (goes : values.phase ≠ .done)
    (child : values.child = none)
    (ended : ∀ x child, IsChild db b row.phase x child → child.status.unfinished = false) :
    Sound (db.change b values) := by
  have good := sound.good b r advancing.found advancing.active
  refine sound.change advancing.toMatches (good.next rfl ?_ goes child ?_)
  · rw [advancing.phase]
    exact phase
  · rw [advancing.phase]
    exact ended

end

/-! `_advance` decides. -/

/-- What a decision to change the bootstrap rests on. -/
inductive Decides (row : Bootstrap) (seen : Seen) (probe : Probe) (values : Change) : Prop
  | adopts (c : ℕ) (recorded : seen.recorded = some c) (phase : values.phase = row.phase)
      (child : values.child = some c) (kind : values.kind = some row.phase.table)
      (status : values.status = .running)
  | gone (recorded : seen.recorded = none) (home : seen.node = none)
      (status : values.status = .superseded)
  | keeps (recorded : seen.recorded = none) (phase : values.phase = row.phase)
      (child : values.child = row.child) (kind : row.child ≠ none → values.kind = row.childKind)
      (status : values.status = .awaitingExecutor ∨ values.status = .running ∨
        values.status = .blocked)
  | ends (c : ℕ) (ended : ChildStatus) (error : Option String) (recorded : seen.recorded = none)
      (link : row.child = some c) (child : seen.child = some (ended, error))
      (finished : ended.unfinished = false)
      (status : values.status = .failed ∨ values.status = .superseded)
  | next (recorded : seen.recorded = none) (phase : values.phase.rank = row.phase.rank + 1)
      (goes : values.phase ≠ .done) (child : values.child = none)
      (status : values.status = .awaitingExecutor)
      (ended : row.child = none ∨ ∃ c error, row.child = some c ∧
        seen.child = some (.succeeded, error))
  | succeeds (c : ℕ) (error : Option String) (recorded : seen.recorded = none)
      (phase : row.phase = .protocols) (link : row.child = some c)
      (child : seen.child = some (.succeeded, error)) (status : values.status = .succeeded)
  | serves (node : Node) (facts : Facts) (recorded : seen.recorded = none)
      (phase : row.phase = .protocols) (link : row.child = none) (home : seen.node = some node)
      (applied : node.applied = node.desired) (found : probe = .facts facts)
      (all : facts.serve node.protocols = true) (status : values.status = .succeeded)

variable {values : Change} {intent : Intent}

theorem installAgent_cases (probe : Probe) (site : Site) {d : Decision} (link : row.child = none)
    (recorded : seen.recorded = none) (decided : row.installAgent site = d) :
    (∀ values, d = .change values → Decides row seen probe values) ∧
      ∀ intent, d = .dispatch intent → intent.kind = .agentRollouts := by
  subst decided
  rw [Bootstrap.installAgent]
  split
  · exact ⟨nofun, nofun⟩
  · refine ⟨?_, nofun⟩
    rintro values same
    cases same
    exact .keeps recorded rfl link.symm (fun some => absurd link some) (.inr (.inr rfl))
  · split
    · exact ⟨nofun, nofun⟩
    · split
      · refine ⟨?_, nofun⟩
        rintro values same
        cases same
        exact .keeps recorded rfl link.symm (fun some => absurd link some) (.inr (.inr rfl))
      · refine ⟨nofun, ?_⟩
        rintro intent same
        cases same
        rfl

theorem decideAlone_cases (probe : Probe) (site : Site) {node : Node} {d : Decision}
    (link : row.child = none)
    (recorded : seen.recorded = none) (home : seen.node = some node)
    (decided : row.decideAlone node probe site = d) :
    (∀ values, d = .change values → Decides row seen probe values) ∧
      ∀ intent, d = .dispatch intent → intent.kind = row.phase.table := by
  subst decided
  have stays (status : Status) (error : Option String)
      (active : status = .awaitingExecutor ∨ status = .running ∨ status = .blocked) :
      (∀ values, Decision.change { phase := row.phase, status := status, error := error } =
        .change values → Decides row seen probe values) ∧
        ∀ intent, Decision.change { phase := row.phase, status := status, error := error } =
          .dispatch intent → intent.kind = row.phase.table := by
    refine ⟨?_, nofun⟩
    rintro values same
    cases same
    exact .keeps recorded rfl link.symm (fun some => absurd link some) active
  have goes (phase : Phase) (rank : phase.rank = row.phase.rank + 1) (after : phase ≠ .done) :
      (∀ values, Decision.change { phase := phase } = .change values →
        Decides row seen probe values) ∧
        ∀ intent, Decision.change { phase := phase } = .dispatch intent →
          intent.kind = row.phase.table := by
    refine ⟨?_, nofun⟩
    rintro values same
    cases same
    exact .next recorded rank after rfl rfl (.inl link)
  have sends (action : Action) (table : row.phase.table = .nodeJobs) :
      (∀ values, Decision.dispatch (.job action row.revision) = .change values →
        Decides row seen probe values) ∧
        ∀ intent, Decision.dispatch (.job action row.revision) = .dispatch intent →
          intent.kind = row.phase.table := by
    refine ⟨nofun, ?_⟩
    rintro intent same
    cases same
    exact table.symm
  have none' : (∀ values, Decision.stay = .change values → Decides row seen probe values) ∧
      ∀ intent, Decision.stay = .dispatch intent → intent.kind = row.phase.table :=
    ⟨nofun, nofun⟩
  have refuses (code : String) :
      (∀ values, Decision.refuse code = .change values → Decides row seen probe values) ∧
        ∀ intent, Decision.refuse code = .dispatch intent → intent.kind = row.phase.table :=
    ⟨nofun, nofun⟩
  unfold Bootstrap.decideAlone
  split
  · split
    · split
      · exact stays _ _ (.inl rfl)
      · exact none'
    · exact none'
  split
  · exact stays _ _ (.inr (.inr rfl))
  split
  · next phase =>
    have installs := installAgent_cases probe site link recorded rfl
    rw [phase]
    split
    · refine ⟨?_, nofun⟩
      rintro values same
      cases same
      exact .next recorded (by rw [phase]; rfl) nofun rfl rfl (.inl link)
    · exact installs
    · split
      · exact installs
      · exact ⟨nofun, nofun⟩
  · next phase =>
    split
    · split
      · exact goes _ (by rw [phase]; rfl) nofun
      · exact sends _ (by rw [phase]; rfl)
    · exact refuses _
  · next phase =>
    split
    · next applied =>
      split
      · next facts =>
        split
        · next all =>
          refine ⟨?_, nofun⟩
          rintro values same
          cases same
          exact .serves node facts recorded phase link home applied rfl all rfl
        · exact sends _ (by rw [phase]; rfl)
      · exact refuses _
    · exact sends _ (by rw [phase]; rfl)
  · next phase => exact sends _ (by rw [phase]; rfl)

theorem decideChild_cases {probe : Probe} {status : ChildStatus} {error : Option String}
    (link : row.child = some c)
    (recorded : seen.recorded = none) (child : seen.child = some (status, error))
    (phase : row.phase ≠ .done) (decided : row.decideChild c status error = .change values) :
    Decides row seen probe values := by
  cases status with
  | awaitingExecutor =>
    rw [Bootstrap.decideChild] at decided
    split at decided
    · cases decided
      exact .keeps recorded rfl link.symm (fun _ => rfl) (.inr (.inl rfl))
    · cases decided
  | running =>
    rw [Bootstrap.decideChild] at decided
    split at decided
    · cases decided
      exact .keeps recorded rfl link.symm (fun _ => rfl) (.inr (.inl rfl))
    · cases decided
  | blocked =>
    rw [Bootstrap.decideChild] at decided
    split at decided
    · cases decided
      exact .keeps recorded rfl link.symm (fun _ => rfl) (.inr (.inr rfl))
    · cases decided
  | failed =>
    cases decided
    exact .ends c _ error recorded link child rfl (.inl rfl)
  | superseded =>
    cases decided
    exact .ends c _ error recorded link child rfl (.inr rfl)
  | cancelled =>
    cases decided
    exact .ends c _ error recorded link child rfl (.inr rfl)
  | succeeded =>
    rw [Bootstrap.decideChild] at decided
    split at decided
    · next last =>
      cases decided
      exact .succeeds c error recorded last link child rfl
    · next early =>
      cases decided
      refine .next recorded ?_ ?_ rfl rfl (.inr ⟨c, error, link, child⟩)
      · cases at' : row.phase with
        | agent => rfl
        | docker => rfl
        | protocols => exact absurd at' early
        | done => exact absurd at' phase
      · dsimp only
        split
        · exact nofun
        · exact nofun

theorem decide_cases (seen : Seen) (probe : Probe) (site : Site) (phase : row.phase ≠ .done) :
    (∀ values, row.decide seen probe site = .change values → Decides row seen probe values) ∧
      ∀ intent, row.decide seen probe site = .dispatch intent →
        row.child = none ∧ seen.recorded = none ∧ intent.kind = row.phase.table := by
  rw [Bootstrap.decide]
  split
  · next c recorded =>
    refine ⟨?_, nofun⟩
    rintro values same
    cases same
    exact .adopts c recorded rfl rfl rfl rfl
  · next recorded =>
    split
    · next home =>
      refine ⟨?_, nofun⟩
      rintro values same
      cases same
      exact .gone recorded home rfl
    · next node home =>
      split
      · split
        · refine ⟨?_, nofun⟩
          rintro values same
          cases same
          exact .keeps recorded rfl rfl (fun _ => rfl) (.inr (.inr rfl))
        · exact ⟨nofun, nofun⟩
      · split
        · next link =>
          obtain ⟨changes, sends⟩ :=
            decideAlone_cases probe site link recorded home rfl
          exact ⟨changes, fun intent same => ⟨link, recorded, sends intent same⟩⟩
        · next c link =>
          split
          · split
            · refine ⟨?_, nofun⟩
              rintro values same
              cases same
              exact .keeps recorded rfl link.symm (fun _ => rfl) (.inr (.inr rfl))
            · exact ⟨nofun, nofun⟩
          · next status error child =>
            refine ⟨fun values same => decideChild_cases link recorded child phase same, ?_⟩
            intro intent same
            cases status with
            | failed => cases same
            | superseded => cases same
            | cancelled => cases same
            | awaitingExecutor =>
              rw [Bootstrap.decideChild] at same
              split at same
              · cases same
              · cases same
            | running =>
              rw [Bootstrap.decideChild] at same
              split at same
              · cases same
              · cases same
            | blocked =>
              rw [Bootstrap.decideChild] at same
              split at same
              · cases same
              · cases same
            | succeeded =>
              rw [Bootstrap.decideChild] at same
              split at same
              · cases same
              · cases same

end Bootstraps
end NodePlane
