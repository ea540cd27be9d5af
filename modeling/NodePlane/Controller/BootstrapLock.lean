import NodePlane.Controller.BootstrapSteps

/-! The steps of the lock's holder: the coordinator, its repairs, cancellations and removals. -/
namespace NodePlane
namespace Bootstraps
open Library

variable {s : System} {db after : Db} {b c : ℕ} {row r : Bootstrap} {child : Child} {p : Phase}
  {seen : Seen} {env : Env} {probe : Probe} {site : Site} {values : Change}

/-! The coordinator decides. -/

/-- The child that the coordinator read is as it was. -/
theorem Advancing.read (advancing : Advancing db b row r seen) (sound : Sound db)
    (link : row.child = some c) {status : ChildStatus} {error : Option String}
    (shown : seen.child = some (status, error)) :
    ∃ child, IsChild db b row.phase c child ∧ child.status = status := by
  obtain ⟨link', _, _, child, found, shown'⟩ := advancing.linked c link
  obtain ⟨child', held, _⟩ := (sound.good b r advancing.found advancing.active).linked c link'
  cases found.symm.trans held.found
  rw [advancing.phase] at held
  cases shown'.symm.trans shown
  exact ⟨child, held, rfl⟩

/-- A succeeded child leaves no other of its phase unfinished. -/
theorem Advancing.ended (advancing : Advancing db b row r seen) (sound : Sound db)
    (link : row.child = some c) (held : IsChild db b row.phase c child)
    (finished : child.status.unfinished = false) (kept : child.status ≠ .superseded) (x : ℕ)
    (other : Child) (at' : IsChild db b row.phase x other) : other.status.unfinished = false := by
  by_cases same : x = c
  · subst same
    cases at'.found.symm.trans held.found
    exact finished
  · have good := sound.good b r advancing.found advancing.active
    rw [← advancing.phase] at at'
    rcases good.others c (advancing.linked c link).1 x other at' same with
      retired | ⟨_, old, found, retired⟩
    · rw [retired]
      rfl
    · cases found.symm.trans held.found
      exact absurd retired kept

theorem Advancing.sound_change (advancing : Advancing db b row r seen) (sound : Sound db)
    (decides : Decides row seen probe values) : Sound (db.change b values) := by
  cases decides with
  | adopts c recorded phase child kind status =>
    have link : row.child = none := by
      cases link : row.child with
      | none => rfl
      | some c' => exact nomatch recorded.symm.trans (advancing.linked c' link).2.2.1
    exact advancing.change_adopts sound link recorded phase child kind
  | gone recorded home status => exact sound.end_change advancing.toMatches (.inr (.inr status))
  | keeps recorded phase child kind status => exact advancing.change_same sound phase child kind
  | ends c ended error recorded link child finished status =>
    exact sound.end_change advancing.toMatches (.inr status)
  | succeeds c error recorded phase link child status =>
    exact sound.end_change advancing.toMatches (.inl status)
  | serves node facts recorded phase link home applied found all status =>
    exact sound.end_change advancing.toMatches (.inl status)
  | next recorded phase goes child status ended =>
    refine advancing.change_next sound phase goes child ?_
    rcases ended with link | ⟨c, error, link, shown⟩
    · intro x held at'
      exact absurd at' ((advancing.alone link recorded).2 x held)
    · obtain ⟨held, at', succeeded⟩ := advancing.read sound link shown
      exact advancing.ended sound link at' (by rw [succeeded]; rfl) (by rw [succeeded]; exact nofun)

theorem Advancing.raised (advancing : Advancing s.db b row r seen) (sound : Sound s.db)
    (worker : Bool) (code : String) : Sound (s.raised b row worker code).db := by
  cases worker with
  | true => exact advancing.change_same sound rfl rfl fun _ => rfl
  | false => exact sound

/-- The first child of a phase. -/
theorem Advancing.dispatch {intent : Intent} {id : ℕ} {worker : Bool}
    (advancing : Advancing db b row r seen) (sound : Sound db) (link : row.child = none)
    (recorded : seen.recorded = none) (table : intent.kind = row.phase.table)
    (new : db.children.lookup id = none)
    (ok : Enqueued db after row.actor row.node intent (.derived b row.phase)
      (some (b, row.phase)) id c) : Inv ⟨after, .linking b row c intent.kind worker⟩ := by
  have good := sound.good b r advancing.found advancing.active
  obtain ⟨link', alone⟩ := advancing.alone link recorded
  cases ok with
  | replayed _ child same found home asks =>
    obtain ⟨at', _, _, key⟩ := keyed_found found
    have parent := good.keys c child row.phase at' (home.trans advancing.node.symm)
      (by rw [key]; rfl)
    exact absurd ⟨at', parent⟩ (alone c child)
  | added child missing idle home acts keyed asks waits queued children bootstraps nodes others
      retirements =>
    have was {x : ℕ} {held : Child} (at' : IsChild after b row.phase x held) :
        x = c ∧ held = child := by
      have found := at'.found
      rw [children, Table.lookup_put] at found
      split at found
      · next mine => exact ⟨mine, (Option.some.inj found).symm⟩
      · exact absurd ⟨found, at'.parent⟩ (alone x held)
    constructor
    · refine sound.add new (by rw [asks, acts, keyed]; exact missing) children bootstraps nodes
        retirements (.inr ⟨b, r, advancing.found, ?_, ?_, ?_, ?_, ?_, ?_, ?_, ?_⟩)
      · rw [queued, advancing.phase]
      · rw [keyed, advancing.phase]
        rfl
      · rw [asks, table, advancing.phase]
      · exact home.trans advancing.node.symm
      · exact fun _ => acts.trans advancing.actor.symm
      · intro x held at'
        rw [advancing.phase] at at'
        exact absurd at' (alone x held)
      · intro _
        rw [keyed, advancing.phase]
      · intro old some
        exact nomatch link'.symm.trans some
    · refine ⟨r, { advancing.toMatches with found := by rw [bootstraps]; exact advancing.found },
        ⟨child, ⟨by rw [children]; exact Table.lookup_put_self .., queued⟩, by rw [asks]⟩,
        ?_, ?_, fun _ => link, ?_⟩
      · intro x held at' apart
        exact absurd (was at').1 apart
      · intro _ x held at'
        rw [(was at').2]
        exact keyed
      · intro old some
        exact nomatch link.symm.trans some

theorem inv_decide {worker : Bool} {id : ℕ} (sound : Sound s.db)
    (held : Held s.db (.advancing b row seen worker)) (kept : Inv s) :
    Inv (s.decide b row seen worker probe site env id) := by
  obtain ⟨r, advancing⟩ := held
  have early : row.phase ≠ .done := by
    rw [← advancing.phase]
    exact (sound.good b r advancing.found advancing.active).phase
  obtain ⟨changes, sends⟩ := decide_cases seen probe site early
  rw [System.decide]
  split
  · exact inv_resting sound
  · next values decided => exact inv_resting (advancing.sound_change sound (changes values decided))
  · exact inv_resting (advancing.raised sound worker _)
  · next intent decided =>
    obtain ⟨link, recorded, table⟩ := sends intent decided
    split
    · exact kept
    · next new =>
      rw [Bool.not_eq_true, Option.isSome_eq_false_iff, Option.isNone_iff_eq_none] at new
      split
      · exact inv_resting (advancing.raised sound worker _)
      · next ok => exact advancing.dispatch sound link recorded table new (enqueued ok)

/-! The link, and what stands in its way. -/

theorem Linking.sound_link {kind : ChildKind} {worker : Bool}
    (linking : Linking db b row r c kind worker) (sound : Sound db) :
    Sound (db.change b
      { phase := row.phase, status := .running, child := some c, kind := some kind }) := by
  have good := sound.good b r linking.found linking.active
  obtain ⟨child, held, asks⟩ := linking.child
  refine sound.change linking.toMatches (good.link rfl linking.phase.symm ?_ ?_ nofun)
  · intro c' link
    cases link
    rw [linking.phase]
    exact ⟨child, held, congrArg some asks.symm⟩
  · intro c' link x other at' apart
    cases link
    rw [linking.phase] at at'
    exact .inl (linking.others x other at' apart)

theorem Linking.raised {kind : ChildKind} {code : String}
    (linking : Linking s.db b row r c kind true) (sound : Sound s.db) :
    Sound (s.raised b row true code).db := by
  have good := sound.good b r linking.found linking.active
  have unlinked := linking.catches rfl
  refine sound.change linking.toMatches (good.link rfl linking.phase.symm ?_ ?_ ?_)
  · intro c' link
    exact nomatch unlinked.symm.trans link
  · intro c' link
    exact nomatch unlinked.symm.trans link
  · intro _
    rw [linking.phase]
    exact linking.first unlinked

/-! Repairs of a bootstrap's child. -/

/-- Beside a child that is not retired every other is. -/
theorem Good.alone (good : Good db b row) (link : row.child = some c)
    (found : db.children.lookup c = some child) (kept : child.status ≠ .superseded) (x : ℕ)
    (other : Child) (held : IsChild db b row.phase x other) (apart : x ≠ c) :
    other.status = .superseded := by
  rcases good.others c link x other held apart with retired | ⟨_, old, found', retired⟩
  · exact retired
  · cases found.symm.trans found'
    exact absurd retired kept

theorem Touches.matches (touches : Touches db after) (matches' : Matches db b row r) :
    Matches after b row r :=
  { matches' with found := by rw [touches.bootstraps]; exact matches'.found }

theorem resolve_blocked {answer : Resolution} (ok : db.resolve c answer = some after) :
    ∃ child, db.children.lookup c = some child ∧ child.status = .blocked := by
  rw [Db.resolve] at ok
  split at ok
  · cases ok
  · next child found =>
    split at ok
    · cases ok
    · next checked =>
      rw [not_or, not_not, not_not] at checked
      exact ⟨child, found, checked.2⟩

theorem resolve_finished {answer : Resolution} (ok : db.resolve c answer = some after)
    (found : after.children.lookup c = some child) : child.status.unfinished = false := by
  rw [Db.resolve] at ok
  split at ok
  · cases ok
  · next old found' =>
    split at ok
    · cases ok
    · cases answer with
      | finished =>
        cases ok
        have put : (db.finish c old).children.lookup c = some (old.withStatus .succeeded) := by
          rw [Db.finish]
          split
          · exact Table.lookup_put_self ..
          · split
            · exact Table.lookup_put_self ..
            · exact Table.lookup_put_self ..
        cases put.symm.trans found
        rfl
      | retired =>
        cases ok
        cases (Table.lookup_put_self ..).symm.trans found
        rfl

theorem held_resolved {answer : Resolution} {purpose : Purpose} (sound : Sound db)
    (found : db.bootstraps.lookup b = some row) (active : row.active = true)
    (link : row.child = some c) (ok : db.resolve c answer = some after) :
    Inv ⟨after, .resolved b row purpose⟩ := by
  have touches := touches_resolve ok
  have good := sound.good b row found active
  obtain ⟨old, found', blocked⟩ := resolve_blocked ok
  obtain ⟨child, held, _⟩ := good.linked c link
  obtain ⟨child', held', _⟩ := touches.stays held
  refine ⟨touches.sound sound, row, c, child',
    touches.matches ⟨found, active, rfl, rfl, rfl⟩, link, link, rfl,
    resolve_finished ok held'.found, held', ?_⟩
  intro x other' at' apart
  obtain ⟨other, at'', same⟩ := touches.isChild at'
  exact same.superseded (good.alone link found' (by rw [blocked]; exact nofun) x other at'' apart)

theorem held_advancing {admin worker : Bool} (sound : Sound db)
    (found : db.bootstraps.lookup b = some row) (active : row.active = true) :
    Inv ⟨db, .advancing b row (db.seen b row admin) worker⟩ :=
  ⟨sound, row, advancing_seen sound found active⟩

theorem preflight_cases (ok : db.resumePreflight env c = some after) :
    ∃ child, db.children.lookup c = some child ∧ child.status = .blocked ∧
      child.intent.kind = .agentRollouts := by
  rw [Db.resumePreflight] at ok
  split at ok
  · cases ok
  · next child found =>
    split at ok
    · cases ok
    · next checked =>
      simp only [Bool.or_eq_true, not_or, Bool.not_eq_true', Bool.not_eq_false] at checked
      have failed := checked.1.1.1.1
      refine ⟨child, found, blocked_of_preflight failed, ?_⟩
      simp only [Db.preflightFailed, Bool.and_eq_true, decide_eq_true_eq] at failed
      exact failed.1.1.1.1

theorem held_relinking (sound : Sound db) (found : db.bootstraps.lookup b = some row)
    (active : row.active = true) (link : row.child = some c)
    (ok : db.resumePreflight env c = some after) :
    Inv ⟨after, .linking b row c .agentRollouts false⟩ := by
  have touches := touches_resumePreflight ok
  have good := sound.good b row found active
  obtain ⟨old, found', blocked, table⟩ := preflight_cases ok
  obtain ⟨child, held, _⟩ := good.linked c link
  cases found'.symm.trans held.found
  obtain ⟨child', held', same⟩ := touches.stays held
  refine ⟨touches.sound sound, row, touches.matches ⟨found, active, rfl, rfl, rfl⟩,
    ⟨child', held', by rw [same.intent, table]⟩, ?_, ?_, nofun, fun _ => id⟩
  · intro x other' at' apart
    obtain ⟨other, at'', same⟩ := touches.isChild at'
    exact same.superseded (good.alone link found' (by rw [blocked]; exact nofun) x other at'' apart)
  · intro none
    exact nomatch none.symm.trans link

theorem inv_resumeChild {answer : Resolution} (kept : Inv s) :
    Inv (s.resumeChild env b answer) := by
  have sound := kept.sound
  rw [System.resumeChild]
  split
  · exact kept
  · next row found =>
    split
    · exact kept
    · next blocked =>
      have active : row.active = true := active_of_blocked (not_not.mp blocked)
      split
      · rcases resume_cases s.db env b with same | ⟨row, row', resumes⟩
        · rw [same]
          exact inv_resting sound
        · exact inv_resting (resumes.sound sound)
      · next c link =>
        split
        · split
          · next ok => exact held_relinking sound found active link ok
          · split
            · exact kept
            · split
              · exact held_advancing sound found active
              · split
                · next ok =>
                  have touches := touches_recheck ok
                  refine held_advancing (touches.sound sound) ?_ active
                  rw [touches.bootstraps]
                  exact found
                · exact kept
        · split
          · next ok => exact held_resolved sound found active link ok
          · exact kept

/-- Ended bootstraps after a step of their children. -/
theorem Sound.put_ended {row' : Bootstrap} (sound : Sound db)
    (found : db.bootstraps.lookup b = some row) (node : row'.node = row.node)
    (actor : row'.actor = row.actor) (ended : row'.active = false) :
    Sound { db with bootstraps := db.bootstraps.put b row' } := by
  refine sound.put found (fun other => Table.lookup_put ..) rfl rfl rfl node actor ?_
  intro active
  rw [ended] at active
  cases active

theorem inv_cancel {answer : Resolution} (kept : Inv s) : Inv (s.cancel b answer) := by
  have sound := kept.sound
  rw [System.cancel]
  split
  · exact kept
  · next row found =>
    split
    · exact kept
    · next c link =>
      split
      · exact kept
      · next blocked =>
        have active : row.active = true := active_of_blocked (not_not.mp blocked)
        split
        · split
          · next ok => exact held_resolved sound found active link ok
          · exact kept
        · split
          · exact kept
          · next child found' =>
            split
            · exact kept
            · next failed =>
              rw [Bool.not_eq_true, Bool.not_eq_false'] at failed
              have blocked := blocked_of_preflight failed
              have same : Same child (child.withStatus .cancelled) :=
                same_withStatus (by rw [blocked]; rfl)
              have touches := touches_put found' same
              exact inv_resting ((touches.sound sound).put_ended found rfl rfl rfl)

/-! What follows a resolution. -/

theorem Resolved.advancing {admin : Bool} (resolved : Resolved db b row r c child)
    (sound : Sound db) : Advancing db b row r (db.seen b row admin) := by
  obtain ⟨child', held, kind⟩ :=
    (sound.good b r resolved.found resolved.active).linked c resolved.link
  cases held.found.symm.trans resolved.child.found
  rw [resolved.kind] at kind
  have linked := resolved.linked
  refine ⟨resolved.toMatches, rfl, ?_, ?_, ?_, ?_⟩
  · intro c' link
    cases link.symm.trans linked
    refine ⟨resolved.link, resolved.kind, ?_, child, held.found, seen_child link held.found kind⟩
    rw [Db.seen, link]
    rfl
  · intro none
    cases none.symm.trans linked
  · intro c' recorded
    rw [Db.seen, linked] at recorded
    cases recorded
  · intro none
    cases none.symm.trans linked

/-- The replacement of a retired job. -/
theorem Resolved.replace {actor id requested : ℕ} {action : Action} {found : ℕ}
    (resolved : Resolved db b row r c child) (sound : Sound db)
    (retired : child.status = .superseded) (table : child.intent.kind = .nodeJobs)
    (new : db.children.lookup id = none)
    (ok : Enqueued db after actor row.node (.job action requested) (.replacing b row.phase c)
      (some (b, row.phase)) id found) :
    Inv ⟨after, .linking b row found .nodeJobs false⟩ := by
  have all (x : ℕ) (held : Child) (at' : IsChild db b row.phase x held) :
      held.status = .superseded := by
    by_cases same : x = c
    · subst same
      cases at'.found.symm.trans resolved.child.found
      exact retired
    · exact resolved.others x held at' same
  have unlinked {P : Prop} (none : row.child = none) : P :=
    nomatch none.symm.trans resolved.linked
  have link (old : ℕ) (linked : row.child = some old) : r.child = some old := by
    cases linked.symm.trans resolved.linked
    exact resolved.link
  cases ok with
  | replayed _ held same keyed home asks =>
    subst same
    obtain ⟨at', table', _, key⟩ := keyed_found keyed
    have parent := (sound.good b r resolved.found resolved.active).keys found held row.phase at'
      (home.trans resolved.node.symm) (by rw [key]; rfl)
    exact ⟨sound, r, resolved.toMatches, ⟨held, ⟨at', parent⟩, table'⟩,
      fun x other held _ => all x other held, fun none => unlinked none, nofun, link⟩
  | added held missing idle home acts keyed asks waits queued children bootstraps nodes others
      retirements =>
    obtain ⟨_, kind, _⟩ := sound.owned b row.phase c child resolved.child
    constructor
    · refine sound.add new (by rw [asks, acts, keyed]; exact missing) children bootstraps nodes
        retirements (.inr ⟨b, r, resolved.found, ?_, ?_, ?_, ?_, ?_, ?_, ?_, ?_⟩)
      · rw [queued, resolved.phase]
      · rw [keyed, resolved.phase]
        rfl
      · rw [asks, resolved.phase, ← kind, table]
        rfl
      · exact home.trans resolved.node.symm
      · intro derived
        exact nomatch keyed.symm.trans derived
      · intro x other at'
        rw [resolved.phase] at at'
        exact all x other at'
      · intro none
        exact nomatch none.symm.trans resolved.link
      · intro old some
        cases some.symm.trans resolved.link
        exact ⟨by rw [keyed, resolved.phase], child, resolved.child.found, retired⟩
    · refine ⟨r, { resolved.toMatches with found := by rw [bootstraps]; exact resolved.found },
        ⟨held, ⟨by rw [children]; exact Table.lookup_put_self .., queued⟩, by rw [asks]; rfl⟩,
        ?_, fun none => unlinked none, nofun, link⟩
      intro x other at' apart
      have found := at'.found
      rw [children, Table.lookup_put, if_neg apart] at found
      exact all x other ⟨found, at'.parent⟩

/-- Rows that end, each with its node and actor. -/
theorem Sound.ends_mapRows {f : ℕ → Bootstrap → Bootstrap} (sound : Sound db)
    (ends : ∀ b row, (f b row).node = row.node ∧ (f b row).actor = row.actor ∧
      ((f b row).active = true → f b row = row)) :
    Sound { db with bootstraps := db.bootstraps.mapRows f } := by
  have rows : Ends db { db with bootstraps := db.bootstraps.mapRows f } := by
    constructor
    · intro b row found
      obtain ⟨node, actor, _⟩ := ends b row
      exact ⟨f b row, (Table.lookup_mapRows ..).trans (by rw [found]; rfl), node, actor⟩
    · intro b row' found'
      rw [Table.lookup_mapRows, Option.map_eq_some_iff] at found'
      obtain ⟨row, found, rfl⟩ := found'
      obtain ⟨node, _, active⟩ := ends b row
      exact ⟨row, found, node, active⟩
  exact sound.ends rows rfl sound.homes

theorem superseded_ends {P : Prop} [Decidable P] {error : Option String} :
    (if P then row.superseded error else row).node = row.node ∧
      (if P then row.superseded error else row).actor = row.actor ∧
      ((if P then row.superseded error else row).active = true →
        (if P then row.superseded error else row) = row) := by
  split
  · exact ⟨rfl, rfl, nofun⟩
  · exact ⟨rfl, rfl, fun _ => rfl⟩

theorem inv_proceed {purpose : Purpose} {actor id : ℕ} {admin : Bool} (kept : Inv s)
    (held : Held s.db (.resolved b row purpose)) :
    Inv (s.proceed b row purpose env actor admin id) := by
  have sound := kept.sound
  obtain ⟨r, c, child, resolved⟩ := held
  cases purpose with
  | cancel =>
    rw [System.proceed]
    apply inv_resting
    rw [Table.alter, resolved.found]
    by_cases blocked : r.status = .blocked
    · simp only [if_pos blocked]
      exact sound.put_ended resolved.found rfl rfl rfl
    · simp only [if_neg blocked]
      refine sound.put resolved.found (fun other => Table.lookup_put ..) rfl rfl rfl rfl rfl ?_
      exact sound.good b r resolved.found
  | resume =>
    simp only [System.proceed, resolved.linked, Option.bind_some, resolved.child.found,
      Option.map_some]
    split
    · exact ⟨sound, r, resolved.advancing sound⟩
    · next action requested node retired asks home =>
      split
      · exact kept
      · next new =>
        rw [Bool.not_eq_true, Option.isSome_eq_false_iff, Option.isNone_iff_eq_none] at new
        split
        · exact inv_resting sound
        · next ok => exact resolved.replace sound retired (by rw [asks]; rfl) new (enqueued ok)
    · exact inv_resting sound

/-! Forced cancellations. -/

theorem touches_force (found : db.children.lookup c = some child)
    (blocked : child.status = .blocked) : Touches db (db.force c child) :=
  { toUpdates := updates_put rfl found
      (same_of_unfinished (by rw [blocked]; rfl) rfl rfl rfl rfl rfl)
    bootstraps := rfl
    nodes := fun _ => alter_none
    retirements := rfl }

theorem sound_forceBootstrap (sound : Sound db) : Sound (db.forceBootstrap b) := by
  rw [Db.forceBootstrap]
  split
  · exact sound
  · next row found =>
    split
    · exact sound
    · next c child linked =>
      split
      · exact sound
      · next checked =>
        simp only [not_or, not_not] at checked
        obtain ⟨_, _, mapped⟩ := Option.bind_eq_some_iff.mp linked
        obtain ⟨_, found', same⟩ := Option.map_eq_some_iff.mp mapped
        cases same
        have touches := touches_force found' checked.2.2.2.2.1
        have kept : (db.force c child).bootstraps.lookup b = some row := by
          rw [touches.bootstraps]
          exact found
        exact (touches.sound sound).put_ended kept rfl rfl rfl

theorem sound_forceNode (sound : Sound db) : Sound (db.forceNode c) := by
  rw [Db.forceNode]
  split
  · exact sound
  · next child found =>
    split
    · exact sound
    · next checked =>
      rw [not_or, not_or, not_not, not_not] at checked
      exact ((touches_force found checked.2.1).sound sound).ends_mapRows fun _ _ => superseded_ends

/-! Drains and removals. -/

theorem Sound.drained {drains : List ℕ} (sound : Sound db) :
    Sound { db with drains := drains } := by
  have touches : Touches db { db with drains := drains } :=
    ⟨updates_of_eq rfl, rfl, fun _ => Iff.rfl, rfl⟩
  exact touches.sound sound

theorem unfinished_waiting {status : ChildStatus}
    (waits : decide (status = .awaitingExecutor) = true) : status.unfinished = true := by
  rw [of_decide_eq_true waits]
  rfl

theorem sound_drain {node : ℕ} (sound : Sound db) : Sound (db.drain node) := by
  rw [Db.drain]
  split
  · exact sound
  · exact ((touches_supersedeJobs fun _ => unfinished_waiting).sound sound).drained

theorem sound_abandon {node : ℕ} (sound : Sound db) : Sound (db.abandon node) := by
  rw [Db.abandon]
  split
  · exact sound
  · have jobs : Sound (db.supersedeJobs node ChildStatus.unfinished) :=
      (touches_supersedeJobs fun _ unfinished => unfinished).sound sound
    let ends (_ : ℕ) (row : Bootstrap) : Bootstrap :=
      if row.node = node ∧ row.active then row.superseded row.error else row
    exact (jobs.ends_mapRows (f := ends) fun _ _ => superseded_ends).drained

theorem Sound.remove {node : ℕ} (sound : Sound db) : Sound (db.remove node) := by
  refine sound.updates (updates_of_eq rfl) rfl ?_
  intro b row found missing
  by_cases here : row.node = node
  · exact List.mem_cons.mpr (.inl here)
  · refine List.mem_cons_of_mem _ (sound.homes b row found ?_)
    rw [Option.eq_none_iff_forall_ne_some] at missing ⊢
    intro held at'
    exact missing held (Table.lookup_keep.mpr ⟨at', decide_eq_true here⟩)

theorem unfinished_queued {status : ChildStatus} (waits : queued status = true) :
    status.unfinished = true := by
  cases status with
  | awaitingExecutor | running => rfl
  | blocked | succeeded | failed | superseded | cancelled => cases waits

/-- The registry gives up what the drained node still waits for. -/
theorem touches_fenced {node : ℕ} {f : Child → Child}
    (fences : ∀ child, f child = if child.node = node ∧ child.intent.kind = .agentRollouts ∧
      queued child.status then child.withStatus .blocked else child) :
    Touches db (Db.supersedeJobs { db with children := db.children.mapRows fun _ => f } node
      ChildStatus.unfinished) := by
  have fenced : Touches db { db with children := db.children.mapRows fun _ => f } := by
    refine touches_mapRows fun child => ?_
    rw [fences]
    split
    · next waits => exact same_withStatus (unfinished_queued waits.2.2)
    · exact .refl child
  exact fenced.trans (touches_supersedeJobs fun _ unfinished => unfinished)

theorem sound_retire {node : ℕ} (sound : Sound db) : Sound (db.retire node) :=
  ((touches_fenced fun _ => rfl).sound sound).remove

/-! Every step. -/

theorem Inv.whenIdle {step : System} (kept : Inv s) (next : Inv step) : Inv (s.whenIdle step) := by
  rw [System.whenIdle]
  split
  · exact next
  · exact kept

/-- A request beside the holder. -/
theorem Inv.beside (kept : Inv s) (apart : Apart s.db db) (sound : Sound db) :
    Inv ⟨db, s.holder⟩ :=
  ⟨sound, kept.held.apart apart⟩

/-- A repair of one child. -/
theorem Inv.repair (kept : Inv s) {repaired : Option Db} :
    (∀ db, repaired = some db → Touches s.db db) →
    Inv (s.whenIdle (match repaired with
      | none => s
      | some db => resting db)) := by
  intro touches
  apply kept.whenIdle
  cases repaired with
  | none => exact kept
  | some db => exact inv_resting ((touches db rfl).sound kept.sound)

theorem inv_step (kept : Inv s) (step : Step) : Inv (s.step step) := by
  have sound := kept.sound
  have held := kept.held
  cases step with
  | queue env actor node revision recover id => exact kept.beside apart_queue (sound_queue sound)
  | resume env id =>
    rcases resume_cases s.db env id with same | ⟨row, row', resumes⟩
    · rw [System.step, same]
      exact kept
    · exact ⟨resumes.sound sound, resumes.held sound held⟩
  | command env actor node intent key id =>
    rw [System.step]
    split
    · exact kept
    · next new =>
      rw [Bool.not_eq_true, Option.isSome_eq_false_iff, Option.isNone_iff_eq_none] at new
      split
      · exact kept
      · next ok =>
        exact kept.beside (apart_command new (enqueued ok)) (sound_command sound new (enqueued ok))
  | create node row => exact kept.beside (apart_create sound) (sound_create sound)
  | edit node revision changed protocols complete =>
    exact kept.beside apart_edit (touches_edit.sound sound)
  | start id =>
    refine kept.whenIdle ?_
    split
    · exact kept
    · next child found =>
      split
      · exact kept
      · next waits =>
        rw [not_not] at waits
        have same : Same child (child.withStatus .running) :=
          same_withStatus (by rw [waits]; rfl)
        exact ⟨(touches_put found same).sound sound, trivial⟩
  | finish outcome =>
    rw [System.step]
    split
    · split
      · exact inv_resting sound
      · next child found =>
        split
        · exact inv_resting sound
        · next running => exact inv_resting ((touches_conclude found (not_not.mp running)).sound sound)
    · exact kept
  | recover => exact kept.whenIdle (inv_resting (touches_recover.sound sound))
  | reconcile id => exact kept.repair fun _ ok => touches_resolve ok
  | applied node =>
    refine kept.whenIdle (inv_resting (Touches.sound ?_ sound))
    exact ⟨updates_of_eq rfl, rfl, fun _ => alter_none, rfl⟩
  | resolve id answer => exact kept.repair fun _ ok => touches_resolve ok
  | recheck id => exact kept.repair fun _ ok => touches_recheck ok
  | resumePreflight env id => exact kept.repair fun _ ok => touches_resumePreflight ok
  | advance id admin worker =>
    refine kept.whenIdle ?_
    rw [System.advance]
    split
    · exact kept
    · next row found =>
      split
      · next active =>
        rw [Bool.and_eq_true] at active
        exact held_advancing sound found active.1
      · exact kept
  | decide probe site env child =>
    rw [System.step]
    split
    · next at' =>
      rw [at'] at held
      exact inv_decide sound held kept
    · exact kept
  | link =>
    rw [System.step]
    split
    · next at' =>
      rw [at'] at held
      obtain ⟨r, linking⟩ := held
      exact inv_resting (linking.sound_link sound)
    · exact kept
  | fail code =>
    rw [System.step]
    split
    · next at' =>
      rw [at'] at held
      obtain ⟨r, advancing⟩ := held
      exact inv_resting (advancing.raised sound true code)
    · next at' =>
      rw [at'] at held
      obtain ⟨r, linking⟩ := held
      exact inv_resting (linking.raised sound)
    · exact kept
  | resumeChild env id answer => exact kept.whenIdle (inv_resumeChild kept)
  | cancel id answer => exact kept.whenIdle (inv_cancel kept)
  | proceed env actor admin child =>
    rw [System.step]
    split
    · next at' =>
      rw [at'] at held
      exact inv_proceed kept held
    · exact kept
  | forceBootstrap id => exact kept.whenIdle (inv_resting (sound_forceBootstrap sound))
  | forceNode child => exact kept.whenIdle (inv_resting (sound_forceNode sound))
  | drain node => exact kept.whenIdle (inv_resting (sound_drain sound))
  | abandon node =>
    refine kept.whenIdle ?_
    split
    · exact kept
    · exact ⟨sound_abandon sound, trivial⟩
  | retire =>
    rw [System.step]
    split
    · exact inv_resting (sound_retire sound)
    · exact kept
  | removeVerified node =>
    refine kept.whenIdle ?_
    split
    · exact inv_resting sound.remove
    · exact kept
  | stop => exact inv_resting sound

end Bootstraps
end NodePlane
