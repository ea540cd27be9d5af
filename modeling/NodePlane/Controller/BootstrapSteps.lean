import NodePlane.Controller.BootstrapHolder

/-! Every step keeps what holds of the bootstraps, their children and the lock's holder. -/
namespace NodePlane
namespace Bootstraps
open Library

variable {s : System} {db after : Db} {b c : ℕ} {row r : Bootstrap} {child : Child} {p : Phase}
  {seen : Seen} {env : Env} {holder : Holder}

/-! Steps of children alone. -/

/-- The same bootstraps, their nodes and commands, some with a later status. -/
structure Touches (db after : Db) : Prop extends Updates db after where
  bootstraps : after.bootstraps = db.bootstraps
  nodes : ∀ n, after.nodes.lookup n = none ↔ db.nodes.lookup n = none
  retirements : after.retirements = db.retirements

theorem Touches.trans {middle : Db} (first : Touches db middle) (second : Touches middle after) :
    Touches db after :=
  { toUpdates := first.toUpdates.trans second.toUpdates
    bootstraps := second.bootstraps.trans first.bootstraps
    nodes := fun n => (second.nodes n).trans (first.nodes n)
    retirements := second.retirements.trans first.retirements }

theorem Touches.sound (touches : Touches db after) (sound : Sound db) : Sound after := by
  refine sound.updates touches.toUpdates touches.bootstraps ?_
  intro b row found missing
  rw [touches.retirements]
  exact sound.homes b row found ((touches.nodes row.node).mp missing)

theorem alter_none {ρ : Type} {t : Table ℕ ρ} {k n : ℕ} {f : ρ → ρ} :
    (t.alter k f).lookup n = none ↔ t.lookup n = none := by
  rw [Table.lookup_alter]
  by_cases mine : n = k
  · subst mine
    rw [if_pos rfl, Option.map_eq_none_iff]
  · rw [if_neg mine]

theorem touches_put {child' : Child} (found : db.children.lookup c = some child)
    (same : Same child child') : Touches db { db with children := db.children.put c child' } :=
  { toUpdates := updates_put rfl found same
    bootstraps := rfl
    nodes := fun _ => Iff.rfl
    retirements := rfl }

theorem same_withStatus {status : ChildStatus} (unfinished : child.status.unfinished = true) :
    Same child (child.withStatus status) :=
  same_of_unfinished unfinished rfl rfl rfl rfl rfl

theorem touches_finish (found : db.children.lookup c = some child)
    (unfinished : child.status.unfinished = true) : Touches db (db.finish c child) := by
  have same : Same child (child.withStatus .succeeded) := same_withStatus unfinished
  have put := touches_put found same
  rw [Db.finish]
  split
  · exact put
  · split
    · exact { toUpdates := put.toUpdates.trans (updates_of_eq rfl)
              bootstraps := rfl
              nodes := fun _ => alter_none
              retirements := rfl }
    · exact put

theorem touches_resolve {answer : Resolution} (ok : db.resolve c answer = some after) :
    Touches db after := by
  rw [Db.resolve] at ok
  split at ok
  · cases ok
  · next child found =>
    split at ok
    · cases ok
    · next checked =>
      rw [not_or, not_not, not_not] at checked
      have unfinished : child.status.unfinished = true := by
        rw [checked.2]
        rfl
      cases answer with
      | finished =>
        cases ok
        exact touches_finish found unfinished
      | retired =>
        cases ok
        exact touches_put found (same_withStatus unfinished)

theorem touches_recheck (ok : db.recheck c = some after) : Touches db after := by
  rw [Db.recheck] at ok
  split at ok
  · cases ok
  · next child found =>
    split at ok
    · cases ok
    · next checked =>
      rw [not_or, not_not, not_not] at checked
      cases ok
      exact touches_put found (same_withStatus (by rw [checked.2]; rfl))

theorem blocked_of_preflight (failed : db.preflightFailed c child = true) :
    child.status = .blocked := by
  simp only [Db.preflightFailed, Bool.and_eq_true, decide_eq_true_eq] at failed
  exact failed.1.1.1.2

theorem touches_resumePreflight (ok : db.resumePreflight env c = some after) :
    Touches db after := by
  rw [Db.resumePreflight] at ok
  split at ok
  · cases ok
  · next child found =>
    split at ok
    · cases ok
    · next checked =>
      simp only [Bool.or_eq_true, not_or, Bool.not_eq_true', Bool.not_eq_false] at checked
      have blocked := blocked_of_preflight checked.1.1.1.1
      cases ok
      exact touches_put found (same_of_unfinished (by rw [blocked]; rfl) rfl rfl rfl rfl rfl)

/-- A statement over the table of commands. -/
theorem touches_mapRows {f : Child → Child} (same : ∀ child, Same child (f child)) :
    Touches db { db with children := db.children.mapRows fun _ => f } :=
  ⟨updates_mapRows rfl same, rfl, fun _ => Iff.rfl, rfl⟩

theorem touches_recover : Touches db db.recover := by
  apply touches_mapRows
  intro child
  split
  · next running => exact same_withStatus (by rw [running]; rfl)
  · exact .refl child

theorem touches_supersedeJobs {node : ℕ} {statuses : ChildStatus → Bool}
    (unfinished : ∀ status, statuses status = true → status.unfinished = true) :
    Touches db (db.supersedeJobs node statuses) := by
  apply touches_mapRows
  intro child
  split
  · next jobs => exact same_withStatus (unfinished _ jobs.2.2)
  · exact .refl child

theorem touches_conclude {outcome : Outcome} (found : db.children.lookup c = some child)
    (running : child.status = .running) : Touches db (db.conclude c child outcome) := by
  have unfinished : child.status.unfinished = true := by
    rw [running]
    rfl
  cases outcome with
  | succeeded => exact touches_finish found unfinished
  | blocked error preflight =>
    exact touches_put found (same_of_unfinished unfinished rfl rfl rfl rfl rfl)
  | failed error =>
    exact touches_put found (same_of_unfinished unfinished rfl rfl rfl rfl rfl)

/-! Requests beside a holder. -/

/-- Bootstraps and commands stay, new commands are no bootstrap's, and the nodes of active
bootstraps stay. -/
structure Apart (db after : Db) : Prop where
  bootstraps : ∀ b row, db.bootstraps.lookup b = some row → after.bootstraps.lookup b = some row
  kept : ∀ c child, db.children.lookup c = some child → after.children.lookup c = some child
  children : ∀ b p c child, IsChild after b p c child → IsChild db b p c child
  nodes : ∀ b row, db.bootstraps.lookup b = some row → row.active = true →
    after.nodes.lookup row.node = db.nodes.lookup row.node

theorem Apart.refl (db : Db) : Apart db db :=
  ⟨fun _ _ found => found, fun _ _ found => found, fun _ _ _ _ held => held, fun _ _ _ _ => rfl⟩

theorem Apart.stays (apart : Apart db after) (held : IsChild db b p c child) :
    IsChild after b p c child :=
  ⟨apart.kept c child held.found, held.parent⟩

theorem Matches.apart (apart : Apart db after) (matches' : Matches db b row r) :
    Matches after b row r :=
  { matches' with found := apart.bootstraps b r matches'.found }

theorem Held.apart (apart : Apart db after) (held : Held db holder) : Held after holder := by
  cases holder with
  | idle => trivial
  | executing c => trivial
  | retiring n => trivial
  | advancing b row seen worker =>
    obtain ⟨r, advancing⟩ := held
    refine ⟨r, advancing.toMatches.apart apart, ?_, ?_, ?_, ?_, ?_⟩
    · have home := apart.nodes b r advancing.found advancing.active
      rw [advancing.node] at home
      rw [home]
      exact advancing.home
    · intro c link
      obtain ⟨same, kind, none, child, found, shown⟩ := advancing.linked c link
      exact ⟨same, kind, none, child, apart.kept c child found, shown⟩
    · intro link recorded
      obtain ⟨link', alone⟩ := advancing.alone link recorded
      exact ⟨link', fun x child held => alone x child (apart.children _ _ x child held)⟩
    · intro c recorded
      obtain ⟨⟨child, held⟩, link⟩ := advancing.recorded c recorded
      exact ⟨⟨child, apart.stays held⟩, link⟩
    · intro link x child held
      exact advancing.first link x child (apart.children _ _ x child held)
  | linking b row c kind worker =>
    obtain ⟨r, linking⟩ := held
    obtain ⟨child, held, asks⟩ := linking.child
    exact ⟨r, linking.toMatches.apart apart, ⟨child, apart.stays held, asks⟩,
      fun x child held => linking.others x child (apart.children _ _ x child held),
      fun link x child held => linking.first link x child (apart.children _ _ x child held),
      linking.catches, linking.link⟩
  | resolved b row purpose =>
    obtain ⟨r, c, child, resolved⟩ := held
    exact ⟨r, c, child, resolved.toMatches.apart apart, resolved.linked, resolved.link,
      resolved.kind, resolved.finished, apart.stays resolved.child,
      fun x child held => resolved.others x child (apart.children _ _ x child held)⟩

theorem apart_create {node : ℕ} {new : Node} (sound : Sound db) :
    Apart db (db.create node new) := by
  rw [Db.create]
  split
  · exact .refl db
  · next free =>
    rw [Bool.or_eq_true, not_or] at free
    refine ⟨fun _ _ found => found, fun _ _ found => found,
      fun _ _ _ _ held => ⟨held.found, held.parent⟩, ?_⟩
    intro b row found _
    apply Table.lookup_put_ne
    rintro rfl
    rw [Bool.not_eq_true, Option.isSome_eq_false_iff, Option.isNone_iff_eq_none] at free
    exact free.2 (List.contains_iff_mem.mpr (sound.homes b row found free.1))

theorem sound_create {node : ℕ} {new : Node} (sound : Sound db) : Sound (db.create node new) := by
  rw [Db.create]
  split
  · exact sound
  · refine sound.updates (updates_of_eq rfl) rfl ?_
    intro b row found missing
    rw [Table.lookup_put] at missing
    split at missing
    · cases missing
    · exact sound.homes b row found missing

theorem touches_edit {node revision : ℕ} {changed complete : Bool} {protocols : List String} :
    Touches db (db.edit node revision changed protocols complete) := by
  rw [Db.edit]
  split
  · exact ⟨updates_of_eq rfl, rfl, fun _ => Iff.rfl, rfl⟩
  · exact ⟨updates_of_eq rfl, rfl, fun _ => alter_none, rfl⟩

theorem apart_edit {node revision : ℕ} {changed complete : Bool} {protocols : List String} :
    Apart db (db.edit node revision changed protocols complete) := by
  rw [Db.edit]
  split
  · exact .refl db
  · next free =>
    simp only [Bool.or_eq_true, not_or, Bool.not_eq_true', Bool.not_eq_false] at free
    refine ⟨fun _ _ found => found, fun _ _ found => found,
      fun _ _ _ _ held => ⟨held.found, held.parent⟩, ?_⟩
    intro b row found active
    apply Table.lookup_alter_ne
    intro home
    exact nomatch idle_own free.1.1.2 found active home

theorem apart_command {actor node id : ℕ} {intent : Intent} {key : Key}
    (new : db.children.lookup id = none)
    (ok : Enqueued db after actor node intent key none id c) : Apart db after := by
  cases ok with
  | replayed _ _ same => exact same ▸ .refl _
  | added child missing idle home acts keyed asks waits queued children bootstraps nodes others =>
    constructor
    · intro b row found
      rw [bootstraps, found]
    · intro x held found
      rw [children, Table.lookup_put_ne, found]
      rintro rfl
      exact nomatch new.symm.trans found
    · intro b p x held held'
      have found := held'.found
      rw [children, Table.lookup_put] at found
      split at found
      · cases found
        exact nomatch queued.symm.trans held'.parent
      · exact ⟨found, held'.parent⟩
    · intro b row found active
      apply others
      intro home
      exact nomatch idle_own idle found active home

theorem sound_command {actor node id : ℕ} {intent : Intent} {key : Key} (sound : Sound db)
    (new : db.children.lookup id = none)
    (ok : Enqueued db after actor node intent key none id c) : Sound after := by
  cases ok with
  | replayed _ _ same => exact same ▸ sound
  | added child missing idle home acts keyed asks waits queued children bootstraps nodes others
      retirements =>
    refine sound.add new (by rw [asks, acts, keyed]; exact missing) children bootstraps nodes
      retirements (.inl ⟨queued, ?_⟩)
    intro b row found active same
    exact nomatch idle_own idle found active (same.trans home)

/-! New bootstraps. -/

theorem queue_cases (db : Db) (env : Env) (actor node revision : ℕ) (recover : Bool) (id : ℕ) :
    db.queue env actor node revision recover id = db ∨ db.fresh id = true ∧
      (db.nodes.lookup node).isSome ∧
      ∃ row, row.phase = .agent ∧ row.active = true ∧ row.child = none ∧ row.node = node ∧
        db.queue env actor node revision recover id =
          { db with bootstraps := db.bootstraps.put id row } := by
  rw [Db.queue]
  split
  · exact .inl rfl
  · next found =>
    split
    · exact .inl rfl
    · next checked =>
      simp only [Bool.or_eq_true, not_or, Bool.not_eq_true', Bool.not_eq_false] at checked
      refine .inr ⟨checked.2, by rw [found]; rfl, ⟨_, ?_, ?_, ?_, ?_, rfl⟩⟩
      · rfl
      · rfl
      · rfl
      · rfl

theorem fresh_cases {id : ℕ} (fresh : db.fresh id = true) :
    db.bootstraps.lookup id = none ∧ db.children.lookup id = none ∧
      ∀ c child, db.children.lookup c = some child → child.key.bootstrap ≠ some id := by
  simp only [Db.fresh, Bool.and_eq_true, Option.isNone_iff_eq_none, Bool.not_eq_true',
    Table.has_false_iff, decide_eq_false_iff_not] at fresh
  exact ⟨fresh.1.1, fresh.1.2, fresh.2⟩

theorem apart_queue {actor node revision id : ℕ} {recover : Bool} :
    Apart db (db.queue env actor node revision recover id) := by
  rcases queue_cases db env actor node revision recover id with same | ⟨fresh, _, row, _, _, _, _, same⟩
  · rw [same]
    exact .refl db
  · rw [same]
    refine ⟨?_, fun _ _ found => found, fun _ _ _ _ held => ⟨held.found, held.parent⟩,
      fun _ _ _ _ => rfl⟩
    intro b row found
    refine (Table.lookup_put_ne _ ?_).trans found
    rintro rfl
    exact nomatch (fresh_cases fresh).1.symm.trans found

theorem sound_queue {actor node revision id : ℕ} {recover : Bool} (sound : Sound db) :
    Sound (db.queue env actor node revision recover id) := by
  rcases queue_cases db env actor node revision recover id with same | ⟨fresh, home, row, phase, _, link, node, same⟩
  · rw [same]
    exact sound
  · rw [same]
    obtain ⟨new, _, keys⟩ := fresh_cases fresh
    have childless (p : Phase) (c : ℕ) (child : Child) : ¬ IsChild db id p c child := by
      intro held
      apply keys c child held.found
      rw [bootstrap_owner, (sound.owned id p c child held).1]
      rfl
    have put {b : ℕ} {found : Bootstrap} (held : db.bootstraps.lookup b = some found) :
        (db.bootstraps.put id row).lookup b = some found := by
      rw [Table.lookup_put_ne, held]
      rintro rfl
      exact nomatch new.symm.trans held
    have child {b p c child} (held : IsChild { db with bootstraps := db.bootstraps.put id row }
        b p c child) : IsChild db b p c child := ⟨held.found, held.parent⟩
    constructor
    · exact sound.unique
    · intro b p c held held'
      obtain ⟨key, kind, found, at', rest⟩ := sound.owned b p c held (child held')
      exact ⟨key, kind, found, put at', rest⟩
    · intro b p x y cx cy hx hy apart
      exact sound.retired b p x y cx cy (child hx) (child hy) apart
    · intro b found at' active
      rw [Table.lookup_put] at at'
      by_cases mine : b = id
      · subst mine
        rw [if_pos rfl] at at'
        cases at'
        constructor
        · intro c some
          exact nomatch link.symm.trans some
        · intro c some
          exact nomatch link.symm.trans some
        · intro _ x held held'
          exact absurd (child held') (childless _ x held)
        · intro x held p held'
          exact absurd (child held') (childless p x held)
        · intro x held p held'
          exact absurd (child held') (childless p x held)
        · intro x held p found home key
          apply absurd _ (keys x held found)
          rw [bootstrap_owner, key]
          rfl
        · rw [phase]
          exact nofun
      · rw [if_neg mine] at at'
        exact (sound.good b found at' active).of_children rfl
    · intro b found at' missing
      rw [Table.lookup_put] at at'
      by_cases mine : b = id
      · subst mine
        rw [if_pos rfl] at at'
        cases at'
        rw [node] at missing
        rw [show db.nodes.lookup _ = none from missing] at home
        cases home
      · rw [if_neg mine] at at'
        exact sound.homes b found at' missing

/-! `resume`. -/

/-- What a resumed bootstrap becomes: it starts again, or adopts the child under its key. -/
structure Resumes (db after : Db) (b : ℕ) (row row' : Bootstrap) : Prop where
  found : db.bootstraps.lookup b = some row
  blocked : row.status = .blocked
  unlinked : row.child = none
  put : after = { db with bootstraps := db.bootstraps.put b row' }
  active : row'.active = true
  node : row'.node = row.node
  actor : row'.actor = row.actor
  phase : row'.phase = row.phase
  child : row'.child = none ∨ ∃ c child, row'.child = some c ∧
    row'.childKind = some row.phase.table ∧
    db.keyed row.phase.table row.actor (.derived b row.phase) = some (c, child) ∧
    child.node = row.node

theorem resume_cases (db : Db) (env : Env) (b : ℕ) :
    db.resume env b = db ∨ ∃ row row', Resumes db (db.resume env b) b row row' := by
  rw [Db.resume]
  split
  · exact .inl rfl
  · next row found =>
    split
    · exact .inl rfl
    · split
      · exact .inl rfl
      · next checked =>
        simp only [Bool.or_eq_true, not_or, Bool.not_eq_true', Bool.not_eq_true,
          Option.isSome_eq_false_iff, Option.isNone_iff_eq_none, decide_eq_true_eq, not_not]
          at checked
        have blocked : row.status = .blocked := checked.1.1.1.1.2
        have unlinked : row.child = none := checked.1.1.1.2
        split
        · next c child keyed =>
          split
          · exact .inl rfl
          · next home =>
            rw [not_not] at home
            exact .inr ⟨row, _, found, blocked, unlinked, rfl, rfl, rfl, rfl, rfl,
              .inr ⟨c, child, rfl, rfl, keyed, home⟩⟩
        · split
          · exact .inl rfl
          · exact .inr ⟨row, _, found, blocked, unlinked, rfl, rfl, rfl, rfl, rfl, .inl unlinked⟩

theorem active_of_blocked (blocked : row.status = .blocked) : row.active = true := by
  rw [Bootstrap.active, blocked]
  rfl

/-- Commands under the key of a phase are one. -/
theorem derived_unique (sound : Sound db) (found : db.bootstraps.lookup b = some row)
    {x y : ℕ} {cx cy : Child} (hx : IsChild db b p x cx) (hy : IsChild db b p y cy)
    (kx : cx.key = .derived b p) (ky : cy.key = .derived b p) : x = y := by
  obtain ⟨_, tx, rx, fx, _, ax⟩ := sound.owned b p x cx hx
  obtain ⟨_, ty, ry, fy, _, ay⟩ := sound.owned b p y cy hy
  cases found.symm.trans fx
  cases found.symm.trans fy
  exact sound.unique x y cx cy hx.found hy.found (tx.trans ty.symm) ((ax kx).trans (ay ky).symm)
    (kx.trans ky.symm)

theorem Resumes.adopted {row' : Bootstrap} (resumes : Resumes db after b row row')
    (sound : Sound db) (link : row'.child = some c) :
    ∃ child, IsChild db b row.phase c child ∧ child.key = .derived b row.phase ∧
      row'.childKind = some child.intent.kind := by
  rcases resumes.child with none | ⟨c', child, link', kind, keyed, home⟩
  · exact nomatch none.symm.trans link
  · cases link'.symm.trans link
    obtain ⟨found, table, _, key⟩ := keyed_found keyed
    have active := active_of_blocked resumes.blocked
    have parent := (sound.good b row resumes.found active).keys c child row.phase found home
      (by rw [key]; rfl)
    exact ⟨child, ⟨found, parent⟩, key, by rw [kind, table]⟩

theorem Resumes.sound {row' : Bootstrap} (resumes : Resumes db after b row row')
    (sound : Sound db) : Sound after := by
  have active := active_of_blocked resumes.blocked
  have good := sound.good b row resumes.found active
  have first := good.first resumes.unlinked
  rw [resumes.put]
  refine sound.put resumes.found (fun other => Table.lookup_put ..) rfl rfl rfl resumes.node
    resumes.actor fun _ => good.link resumes.node resumes.phase ?_ ?_ (fun _ => first)
  · intro c link
    obtain ⟨child, held, _, kind⟩ := resumes.adopted sound link
    exact ⟨child, held, kind⟩
  · intro c link x other held' apart
    obtain ⟨child, held, key, _⟩ := resumes.adopted sound link
    exact absurd (derived_unique sound resumes.found held' held (first x other held') key) apart

theorem Resumes.held {row' : Bootstrap} (resumes : Resumes db after b row row')
    (sound : Sound db) (held : Held db holder) : Held after holder := by
  have child {b p c child} (held : IsChild after b p c child) : IsChild db b p c child := by
    rw [resumes.put] at held
    exact ⟨held.found, held.parent⟩
  have child' {b p c child} (held : IsChild db b p c child) : IsChild after b p c child := by
    rw [resumes.put]
    exact ⟨held.found, held.parent⟩
  have matches' {b' : ℕ} {read r : Bootstrap} (matches' : Matches db b' read r) :
      ∃ r', Matches after b' read r' ∧ (r' = r ∨ b' = b ∧ r = row ∧ r' = row') := by
    by_cases mine : b' = b
    · subst mine
      cases resumes.found.symm.trans matches'.found
      refine ⟨row', ⟨?_, resumes.active, resumes.node.trans matches'.node,
        resumes.actor.trans matches'.actor, resumes.phase.trans matches'.phase⟩,
        .inr ⟨rfl, rfl, rfl⟩⟩
      rw [resumes.put]
      exact Table.lookup_put_self ..
    · refine ⟨r, { matches' with found := ?_ }, .inl rfl⟩
      rw [resumes.put]
      exact (Table.lookup_put_ne _ mine).trans matches'.found
  cases holder with
  | idle => trivial
  | executing c => trivial
  | retiring n => trivial
  | advancing b' read seen worker =>
    obtain ⟨r, advancing⟩ := held
    obtain ⟨r', matched, same⟩ := matches' advancing.toMatches
    have home : seen.node = after.nodes.lookup read.node := by
      rw [resumes.put]
      exact advancing.home
    have first : read.child = none → ∀ x child, IsChild after b' read.phase x child →
        child.key = .derived b' read.phase :=
      fun link x held at' => advancing.first link x held (child at')
    rcases same with rfl | ⟨rfl, rfl, rfl⟩
    · refine ⟨r', matched, home, ?_, ?_, ?_, first⟩
      · intro c link
        obtain ⟨same, kind, none, held, found, shown⟩ := advancing.linked c link
        refine ⟨same, kind, none, held, ?_, shown⟩
        rw [resumes.put]
        exact found
      · intro link recorded
        obtain ⟨link', alone⟩ := advancing.alone link recorded
        exact ⟨link', fun x held at' => alone x held (child at')⟩
      · intro c recorded
        obtain ⟨⟨held, at'⟩, link⟩ := advancing.recorded c recorded
        exact ⟨⟨held, child' at'⟩, link⟩
    · have unlinked : read.child = none := by
        cases link : read.child with
        | none => rfl
        | some c => exact nomatch resumes.unlinked.symm.trans (advancing.linked c link).1
      refine ⟨r', matched, home, ?_, ?_, ?_, first⟩
      · intro c link
        exact nomatch unlinked.symm.trans link
      · intro link recorded
        obtain ⟨_, alone⟩ := advancing.alone link recorded
        refine ⟨?_, fun x held at' => alone x held (child at')⟩
        cases link' : r'.child with
        | none => rfl
        | some c =>
          obtain ⟨held, at', _⟩ := resumes.adopted sound link'
          rw [advancing.phase] at at'
          exact absurd at' (alone c held)
      · intro c recorded
        obtain ⟨⟨held, at'⟩, _⟩ := advancing.recorded c recorded
        refine ⟨⟨held, child' at'⟩, ?_⟩
        cases link' : r'.child with
        | none => exact .inl rfl
        | some c' =>
          right
          obtain ⟨other, other', key, _⟩ := resumes.adopted sound link'
          rw [advancing.phase] at other' key
          exact congrArg some (derived_unique sound resumes.found other' at' key
            (advancing.first unlinked c held at'))
  | linking b' read c kind worker =>
    obtain ⟨r, linking⟩ := held
    obtain ⟨r', matched, same⟩ := matches' linking.toMatches
    obtain ⟨held, at', asks⟩ := linking.child
    refine ⟨r', matched, ⟨held, child' at', asks⟩,
      fun x held at' => linking.others x held (child at'),
      fun link x held at' => linking.first link x held (child at'), linking.catches, ?_⟩
    intro old link
    have link' := linking.link old link
    rcases same with rfl | ⟨_, rfl, rfl⟩
    · exact link'
    · exact nomatch resumes.unlinked.symm.trans link'
  | resolved b' read purpose =>
    obtain ⟨r, c, held, resolved⟩ := held
    obtain ⟨r', matched, same⟩ := matches' resolved.toMatches
    rcases same with rfl | ⟨_, rfl, rfl⟩
    · exact ⟨r', c, held, matched, resolved.linked, resolved.link, resolved.kind,
        resolved.finished, child' resolved.child,
        fun x other at' => resolved.others x other (child at')⟩
    · exact nomatch resumes.unlinked.symm.trans resolved.link

end Bootstraps
end NodePlane
