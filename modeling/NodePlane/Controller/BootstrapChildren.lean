import NodePlane.Controller.Bootstraps

/-! What holds of the bootstraps' rows and of their children's, whoever holds the lock: a phase has
one command that is not retired, and the coordinator finds it by the link or by its key. -/
namespace NodePlane
namespace Bootstraps
open Library

variable {db after : Db} {b c : ℕ} {row : Bootstrap} {child : Child} {p : Phase}

/-- The bootstrap and phase that a key was derived for. -/
def Key.owner : Key → Option (ℕ × Phase)
  | .given _ => none
  | .derived id phase => some (id, phase)
  | .replacing id phase _ => some (id, phase)

theorem bootstrap_owner (key : Key) : key.bootstrap = key.owner.map Prod.fst := by
  cases key <;> rfl

def Phase.rank : Phase → ℕ
  | .agent => 0
  | .docker => 1
  | .protocols => 2
  | .done => 3

/-- A command that was queued for the phase of the bootstrap. -/
structure IsChild (db : Db) (b : ℕ) (p : Phase) (c : ℕ) (child : Child) : Prop where
  found : db.children.lookup c = some child
  parent : child.parent = some (b, p)

/-- An active bootstrap and its children. -/
structure Good (db : Db) (b : ℕ) (row : Bootstrap) : Prop where
  linked : ∀ c, row.child = some c → ∃ child, IsChild db b row.phase c child ∧
    row.childKind = some child.intent.kind
  /-- Beside the link only a replacement of a retired child is not retired itself. -/
  others : ∀ c, row.child = some c → ∀ x child, IsChild db b row.phase x child → x ≠ c →
    child.status = .superseded ∨ child.key = .replacing b row.phase c ∧
      ∃ old, db.children.lookup c = some old ∧ old.status = .superseded
  first : row.child = none → ∀ x child, IsChild db b row.phase x child →
    child.key = .derived b row.phase
  earlier : ∀ x child p, IsChild db b p x child → p ≠ row.phase → child.status.unfinished = false
  later : ∀ x child p, IsChild db b p x child → p.rank ≤ row.phase.rank
  keys : ∀ x child p, db.children.lookup x = some child → child.node = row.node →
    child.key.owner = some (b, p) → child.parent = some (b, p)
  phase : row.phase ≠ .done

structure Sound (db : Db) : Prop where
  unique : ∀ x y cx cy, db.children.lookup x = some cx → db.children.lookup y = some cy →
    cx.intent.kind = cy.intent.kind → cx.actor = cy.actor → cx.key = cy.key → x = y
  owned : ∀ b p c child, IsChild db b p c child → child.key.owner = some (b, p) ∧
    child.intent.kind = p.table ∧ ∃ row, db.bootstraps.lookup b = some row ∧
      child.node = row.node ∧ (child.key = .derived b p → child.actor = row.actor)
  retired : ∀ b p x y cx cy, IsChild db b p x cx → IsChild db b p y cy → x ≠ y →
    cx.status = .superseded ∨ cy.status = .superseded
  good : ∀ b row, db.bootstraps.lookup b = some row → row.active = true → Good db b row
  homes : ∀ b row, db.bootstraps.lookup b = some row → db.nodes.lookup row.node = none →
    row.node ∈ db.retirements

/-! Changes of children: all but the status stays, an end stays, and so does a retirement. -/

structure Same (child child' : Child) : Prop where
  node : child'.node = child.node
  actor : child'.actor = child.actor
  key : child'.key = child.key
  intent : child'.intent = child.intent
  parent : child'.parent = child.parent
  finished : child.status.unfinished = false → child'.status.unfinished = false
  superseded : child.status = .superseded → child'.status = .superseded

theorem Same.refl (child : Child) : Same child child := ⟨rfl, rfl, rfl, rfl, rfl, id, id⟩

theorem Same.trans {child child' child'' : Child} (first : Same child child')
    (second : Same child' child'') : Same child child'' :=
  { node := second.node.trans first.node
    actor := second.actor.trans first.actor
    key := second.key.trans first.key
    intent := second.intent.trans first.intent
    parent := second.parent.trans first.parent
    finished := fun ended => second.finished (first.finished ended)
    superseded := fun ended => second.superseded (first.superseded ended) }

/-- An unfinished child takes any status. -/
theorem same_of_unfinished {child' : Child} (unfinished : child.status.unfinished = true)
    (node : child'.node = child.node) (actor : child'.actor = child.actor)
    (key : child'.key = child.key) (intent : child'.intent = child.intent)
    (parent : child'.parent = child.parent) : Same child child' := by
  refine ⟨node, actor, key, intent, parent, ?_, ?_⟩
  · intro finished
    rw [unfinished] at finished
    cases finished
  · intro superseded
    rw [superseded] at unfinished
    cases unfinished

/-- The same commands, each with a later status. -/
structure Updates (db after : Db) : Prop where
  kept : ∀ c child, db.children.lookup c = some child → ∃ child',
    after.children.lookup c = some child' ∧ Same child child'
  known : ∀ c child', after.children.lookup c = some child' → ∃ child,
    db.children.lookup c = some child ∧ Same child child'

theorem updates_of_eq (children : after.children = db.children) : Updates db after := by
  constructor
  · intro c child found
    exact ⟨child, by rw [children, found], .refl child⟩
  · intro c child found
    exact ⟨child, by rw [← children, found], .refl child⟩

theorem Updates.trans {middle : Db} (first : Updates db middle) (second : Updates middle after) :
    Updates db after := by
  constructor
  · intro c child found
    obtain ⟨child', found', same⟩ := first.kept c child found
    obtain ⟨child'', found'', same'⟩ := second.kept c child' found'
    exact ⟨child'', found'', same.trans same'⟩
  · intro c child'' found''
    obtain ⟨child', found', same'⟩ := second.known c child'' found''
    obtain ⟨child, found, same⟩ := first.known c child' found'
    exact ⟨child, found, same.trans same'⟩

theorem updates_put {child' : Child} (children : after.children = db.children.put c child')
    (found : db.children.lookup c = some child) (same : Same child child') :
    Updates db after := by
  constructor
  · intro x held at'
    rw [children, Table.lookup_put]
    by_cases mine : x = c
    · subst mine
      cases found.symm.trans at'
      exact ⟨child', if_pos rfl, same⟩
    · exact ⟨held, by rw [if_neg mine, at'], .refl held⟩
  · intro x held at'
    rw [children, Table.lookup_put] at at'
    by_cases mine : x = c
    · subst mine
      rw [if_pos rfl] at at'
      cases at'
      exact ⟨child, found, same⟩
    · rw [if_neg mine] at at'
      exact ⟨held, at', .refl held⟩

theorem updates_mapRows {f : Child → Child}
    (children : after.children = db.children.mapRows fun _ => f)
    (same : ∀ child, Same child (f child)) : Updates db after := by
  constructor
  · intro c child found
    exact ⟨f child, by rw [children, Table.lookup_mapRows, found]; rfl, same child⟩
  · intro c child' found'
    rw [children, Table.lookup_mapRows, Option.map_eq_some_iff] at found'
    obtain ⟨child, found, rfl⟩ := found'
    exact ⟨child, found, same child⟩

theorem Updates.isChild (updates : Updates db after) {child' : Child}
    (held : IsChild after b p c child') : ∃ child, IsChild db b p c child ∧ Same child child' := by
  obtain ⟨child, found, same⟩ := updates.known c child' held.found
  exact ⟨child, ⟨found, same.parent.symm.trans held.parent⟩, same⟩

theorem Updates.stays (updates : Updates db after) (held : IsChild db b p c child) :
    ∃ child', IsChild after b p c child' ∧ Same child child' := by
  obtain ⟨child', found, same⟩ := updates.kept c child held.found
  exact ⟨child', ⟨found, same.parent.trans held.parent⟩, same⟩

theorem Good.updates (good : Good db b row) (updates : Updates db after) : Good after b row := by
  constructor
  · intro c link
    obtain ⟨child, held, kind⟩ := good.linked c link
    obtain ⟨child', held', same⟩ := updates.stays held
    exact ⟨child', held', by rw [kind, same.intent]⟩
  · intro c link x child' held' apart
    obtain ⟨child, held, same⟩ := updates.isChild held'
    rcases good.others c link x child held apart with ended | ⟨key, old, found, ended⟩
    · exact .inl (same.superseded ended)
    · obtain ⟨old', found', same'⟩ := updates.kept c old found
      exact .inr ⟨same.key.trans key, old', found', same'.superseded ended⟩
  · intro link x child' held'
    obtain ⟨child, held, same⟩ := updates.isChild held'
    exact same.key.trans (good.first link x child held)
  · intro x child' p held' apart
    obtain ⟨child, held, same⟩ := updates.isChild held'
    exact same.finished (good.earlier x child p held apart)
  · intro x child' p held'
    obtain ⟨child, held, _⟩ := updates.isChild held'
    exact good.later x child p held
  · intro x child' p found' node key
    obtain ⟨child, found, same⟩ := updates.known x child' found'
    rw [same.parent]
    exact good.keys x child p found (same.node.symm.trans node) (by rw [← same.key, key])
  · exact good.phase

theorem Sound.updates (sound : Sound db) (updates : Updates db after)
    (bootstraps : after.bootstraps = db.bootstraps)
    (homes : ∀ b row, db.bootstraps.lookup b = some row → after.nodes.lookup row.node = none →
      row.node ∈ after.retirements) : Sound after := by
  constructor
  · intro x y cx' cy' fx' fy' kind actor key
    obtain ⟨cx, fx, sx⟩ := updates.known x cx' fx'
    obtain ⟨cy, fy, sy⟩ := updates.known y cy' fy'
    rw [sx.intent, sy.intent] at kind
    exact sound.unique x y cx cy fx fy kind (sx.actor.symm.trans (actor.trans sy.actor))
      (sx.key.symm.trans (key.trans sy.key))
  · intro b p c child' held'
    obtain ⟨child, held, same⟩ := updates.isChild held'
    rw [same.key, same.intent, same.node, same.actor, bootstraps]
    exact sound.owned b p c child held
  · intro b p x y cx' cy' hx' hy' apart
    obtain ⟨cx, hx, sx⟩ := updates.isChild hx'
    obtain ⟨cy, hy, sy⟩ := updates.isChild hy'
    rcases sound.retired b p x y cx cy hx hy apart with ended | ended
    · exact .inl (sx.superseded ended)
    · exact .inr (sy.superseded ended)
  · intro b row found active
    rw [bootstraps] at found
    exact (sound.good b row found active).updates updates
  · intro b row found missing
    rw [bootstraps] at found
    exact homes b row found missing

/-! Changes of bootstraps. -/

theorem Good.of_children {row : Bootstrap} (good : Good db b row)
    (children : after.children = db.children) : Good after b row :=
  good.updates (updates_of_eq children)

/-- One bootstrap changes, as it is, with its node and actor. -/
theorem Sound.put (sound : Sound db) {row' : Bootstrap}
    (found : db.bootstraps.lookup b = some row)
    (bootstraps : ∀ other, after.bootstraps.lookup other =
      if other = b then some row' else db.bootstraps.lookup other)
    (children : after.children = db.children) (nodes : after.nodes = db.nodes)
    (retirements : after.retirements = db.retirements) (node : row'.node = row.node)
    (actor : row'.actor = row.actor) (good : row'.active = true → Good db b row') :
    Sound after := by
  have child {b p c child} (held : IsChild after b p c child) : IsChild db b p c child :=
    ⟨by rw [← children, held.found], held.parent⟩
  constructor
  · rw [children]
    exact sound.unique
  · intro other p c found' held
    obtain ⟨key, kind, row'', found'', home, acts⟩ := sound.owned other p c found' (child held)
    refine ⟨key, kind, ?_⟩
    rw [bootstraps]
    by_cases mine : other = b
    · subst mine
      cases found.symm.trans found''
      exact ⟨row', if_pos rfl, by rw [home, node], fun derived => by rw [acts derived, actor]⟩
    · exact ⟨row'', by rw [if_neg mine, found''], home, acts⟩
  · intro b p x y cx cy hx hy apart
    exact sound.retired b p x y cx cy (child hx) (child hy) apart
  · intro other held found' active
    rw [bootstraps] at found'
    by_cases mine : other = b
    · subst mine
      rw [if_pos rfl] at found'
      cases found'
      exact (good active).of_children children
    · rw [if_neg mine] at found'
      exact (sound.good other held found' active).of_children children
  · intro other held found' missing
    rw [bootstraps] at found'
    rw [retirements]
    rw [nodes] at missing
    by_cases mine : other = b
    · subst mine
      rw [if_pos rfl] at found'
      cases found'
      rw [node] at missing ⊢
      exact sound.homes other row found missing
    · rw [if_neg mine] at found'
      exact sound.homes other held found' missing

/-- Bootstraps that end, with their links. -/
structure Ends (db after : Db) : Prop where
  kept : ∀ b row, db.bootstraps.lookup b = some row → ∃ row',
    after.bootstraps.lookup b = some row' ∧ row'.node = row.node ∧ row'.actor = row.actor
  known : ∀ b row', after.bootstraps.lookup b = some row' → ∃ row,
    db.bootstraps.lookup b = some row ∧ row'.node = row.node ∧ (row'.active = true → row' = row)

theorem Sound.ends (sound : Sound db) (ends : Ends db after)
    (children : after.children = db.children)
    (homes : ∀ b row, db.bootstraps.lookup b = some row → after.nodes.lookup row.node = none →
      row.node ∈ after.retirements) : Sound after := by
  have child {b p c child} (held : IsChild after b p c child) : IsChild db b p c child :=
    ⟨by rw [← children, held.found], held.parent⟩
  constructor
  · rw [children]
    exact sound.unique
  · intro b p c found held
    obtain ⟨key, kind, row, found', home, acts⟩ := sound.owned b p c found (child held)
    obtain ⟨row', held', node, actor⟩ := ends.kept b row found'
    exact ⟨key, kind, row', held', by rw [home, node], fun derived => by rw [acts derived, actor]⟩
  · intro b p x y cx cy hx hy apart
    exact sound.retired b p x y cx cy (child hx) (child hy) apart
  · intro b row' found active
    obtain ⟨row, held, _, same⟩ := ends.known b row' found
    have alike := same active
    rw [alike] at active ⊢
    exact (sound.good b row held active).of_children children
  · intro b row' found missing
    obtain ⟨row, held, node, _⟩ := ends.known b row' found
    rw [node] at missing ⊢
    exact homes b row held missing

/-! New commands. -/

theorem keyed_found {table : ChildKind} {actor : ℕ} {key : Key}
    (found : db.keyed table actor key = some (c, child)) :
    db.children.lookup c = some child ∧ child.intent.kind = table ∧ child.actor = actor ∧
      child.key = key := by
  rw [Db.keyed] at found
  have held := Table.mem_rows_iff.mp (List.mem_of_find?_eq_some found)
  have same := List.find?_some found
  simp only [Bool.and_eq_true, decide_eq_true_eq] at same
  exact ⟨held, same.1.1, same.1.2, same.2⟩

theorem keyed_none {table : ChildKind} {actor : ℕ} {key : Key}
    (missing : db.keyed table actor key = none) (found : db.children.lookup c = some child)
    (kind : child.intent.kind = table) (acts : child.actor = actor) : child.key ≠ key := by
  intro same
  rw [Db.keyed, List.find?_eq_none] at missing
  have none := missing (c, child) (Table.mem_rows_iff.mpr found)
  simp [kind, acts, same] at none

/-- `require_idle` leaves no other active bootstrap on the node. -/
theorem idle_own {node : ℕ} {own : Option ℕ} (idle : db.idle node own = true)
    (found : db.bootstraps.lookup b = some row) (active : row.active = true)
    (home : row.node = node) : own = some b := by
  rw [Db.idle, Bool.not_eq_true', Table.has_false_iff] at idle
  have none := idle b row found
  simpa [home, active] using none

/-- What a queued command is: the one under its key, or a new one. -/
inductive Enqueued (db after : Db) (actor node : ℕ) (intent : Intent) (key : Key)
    (parent : Option (ℕ × Phase)) (id : ℕ) : ℕ → Prop
  | replayed (c : ℕ) (child : Child) (same : after = db)
      (found : db.keyed intent.kind actor key = some (c, child)) (home : child.node = node)
      (asks : child.intent = intent) : Enqueued db after actor node intent key parent id c
  | added (child : Child) (missing : db.keyed intent.kind actor key = none)
      (idle : db.idle node (parent.map Prod.fst) = true)
      (home : child.node = node) (acts : child.actor = actor) (keyed : child.key = key)
      (asks : child.intent = intent) (waits : child.status = .awaitingExecutor)
      (queued : child.parent = parent) (children : after.children = db.children.put id child)
      (bootstraps : after.bootstraps = db.bootstraps)
      (nodes : ∀ n, after.nodes.lookup n = none ↔ db.nodes.lookup n = none)
      (others : ∀ n, n ≠ node → after.nodes.lookup n = db.nodes.lookup n)
      (retirements : after.retirements = db.retirements) :
      Enqueued db after actor node intent key parent id id

theorem idle_of_refusal {env : Env} {nodeKey : ℕ} {node : Node} {own : Option ℕ} {intent : Intent}
    (allowed : db.refusal env nodeKey node own intent = none) : db.idle nodeKey own = true := by
  by_contra busy
  rw [Bool.not_eq_true] at busy
  cases intent with
  | job action requested => simp [Db.refusal, busy] at allowed
  | rollout transport target selfUpdate =>
    rw [Db.refusal, busy] at allowed
    split at allowed
    · cases allowed
    · split at allowed
      · cases allowed
      · cases allowed

theorem enqueued {env : Env} {actor node id : ℕ} {intent : Intent} {key : Key}
    {parent : Option (ℕ × Phase)}
    (ok : db.enqueue env actor node intent key parent id = .ok (after, c)) :
    Enqueued db after actor node intent key parent id c := by
  rw [Db.enqueue] at ok
  split at ok
  · cases ok
  split at ok
  · cases ok
  split at ok
  · next old previous found =>
    split at ok
    · cases ok
    · next same =>
      rw [not_or, not_not, not_not] at same
      cases ok
      exact .replayed c previous rfl found same.1 same.2
  · next missing =>
    split at ok
    · cases ok
    · next row home =>
      split at ok
      · cases ok
      · next allowed =>
        cases ok
        refine .added _ missing (idle_of_refusal allowed) rfl rfl rfl rfl rfl rfl rfl rfl ?_ ?_ rfl
        · intro n
          rw [Table.lookup_put]
          by_cases mine : n = node
          · subst mine
            simp [home]
          · rw [if_neg mine]
        · intro n apart
          exact Table.lookup_put_ne _ apart

/-- A new command that no bootstrap is waiting for, or that its bootstrap queues next. -/
theorem Sound.add (sound : Sound db) {id : ℕ} (new : db.children.lookup id = none)
    (missing : db.keyed child.intent.kind child.actor child.key = none)
    (children : after.children = db.children.put id child)
    (bootstraps : after.bootstraps = db.bootstraps)
    (nodes : ∀ n, after.nodes.lookup n = none ↔ db.nodes.lookup n = none)
    (retirements : after.retirements = db.retirements)
    (queued : (child.parent = none ∧ ∀ b row, db.bootstraps.lookup b = some row →
        row.active = true → row.node ≠ child.node) ∨
      ∃ b row, db.bootstraps.lookup b = some row ∧ child.parent = some (b, row.phase) ∧
        child.key.owner = some (b, row.phase) ∧ child.intent.kind = row.phase.table ∧
        child.node = row.node ∧ (child.key = .derived b row.phase → child.actor = row.actor) ∧
        (∀ x cx, IsChild db b row.phase x cx → cx.status = .superseded) ∧
        (row.child = none → child.key = .derived b row.phase) ∧
        ∀ c, row.child = some c → child.key = .replacing b row.phase c ∧
          ∃ old, db.children.lookup c = some old ∧ old.status = .superseded) : Sound after := by
  have looked (x : ℕ) : after.children.lookup x =
      if x = id then some child else db.children.lookup x := by
    rw [children, Table.lookup_put]
  have stays {x : ℕ} {held : Child} (found : db.children.lookup x = some held) :
      after.children.lookup x = some held := by
    rw [looked, if_neg, found]
    rintro rfl
    exact nomatch new.symm.trans found
  have was {b p x held} (held' : IsChild after b p x held) :
      IsChild db b p x held ∨ x = id ∧ held = child ∧ child.parent = some (b, p) := by
    have found := held'.found
    rw [looked] at found
    by_cases mine : x = id
    · subst mine
      rw [if_pos rfl] at found
      cases found
      exact .inr ⟨rfl, rfl, held'.parent⟩
    · rw [if_neg mine] at found
      exact .inl ⟨found, held'.parent⟩
  constructor
  · intro x y cx cy fx fy kind actor key
    rw [looked] at fx fy
    by_cases mx : x = id
    · by_cases my : y = id
      · exact mx.trans my.symm
      · rw [if_pos mx] at fx
        rw [if_neg my] at fy
        cases fx
        exact absurd key.symm (keyed_none missing fy kind.symm actor.symm)
    · rw [if_neg mx] at fx
      by_cases my : y = id
      · rw [if_pos my] at fy
        cases fy
        exact absurd key (keyed_none missing fx kind actor)
      · rw [if_neg my] at fy
        exact sound.unique x y cx cy fx fy kind actor key
  · intro b p c held child'
    rw [bootstraps]
    rcases was child' with old | ⟨rfl, rfl, parent⟩
    · exact sound.owned b p c held old
    · rcases queued with ⟨none, _⟩ | ⟨b', row, found, parent', key, kind, home, acts, _⟩
      · exact nomatch none.symm.trans parent
      · cases parent'.symm.trans parent
        exact ⟨key, kind, row, found, home, acts⟩
  · intro b p x y cx cy hx hy apart
    rcases was hx with ox | ⟨rfl, rfl, px⟩
    · rcases was hy with oy | ⟨rfl, rfl, py⟩
      · exact sound.retired b p x y cx cy ox oy apart
      · rcases queued with ⟨none, _⟩ | ⟨b', row, found, parent', _, _, _, _, all, _⟩
        · exact nomatch none.symm.trans py
        · cases parent'.symm.trans py
          exact .inl (all x cx ox)
    · rcases was hy with oy | ⟨rfl, rfl, _⟩
      · rcases queued with ⟨none, _⟩ | ⟨b', row, found, parent', _, _, _, _, all, _⟩
        · exact nomatch none.symm.trans px
        · cases parent'.symm.trans px
          exact .inr (all y cy oy)
      · exact absurd rfl apart
  · intro b row found active
    rw [bootstraps] at found
    have good := sound.good b row found active
    constructor
    · intro c link
      obtain ⟨held, old, kind⟩ := good.linked c link
      exact ⟨held, ⟨stays old.found, old.parent⟩, kind⟩
    · intro c link x held held' apart
      rcases was held' with old | ⟨rfl, rfl, parent⟩
      · rcases good.others c link x held old apart with ended | ⟨key, retired, at', ended⟩
        · exact .inl ended
        · exact .inr ⟨key, retired, stays at', ended⟩
      · rcases queued with ⟨none, _⟩ | ⟨b', row', found', parent', _, _, _, _, _, _, replaces⟩
        · exact nomatch none.symm.trans parent
        · obtain rfl := (Prod.mk.inj (Option.some.inj (parent'.symm.trans parent))).1
          cases found.symm.trans found'
          obtain ⟨key, retired, at', ended⟩ := replaces c link
          exact .inr ⟨key, retired, stays at', ended⟩
    · intro link x held held'
      rcases was held' with old | ⟨rfl, rfl, parent⟩
      · exact good.first link x held old
      · rcases queued with ⟨none, _⟩ | ⟨b', row', found', parent', _, _, _, _, _, first, _⟩
        · exact nomatch none.symm.trans parent
        · obtain rfl := (Prod.mk.inj (Option.some.inj (parent'.symm.trans parent))).1
          cases found.symm.trans found'
          exact first link
    · intro x held p held' apart
      rcases was held' with old | ⟨rfl, rfl, parent⟩
      · exact good.earlier x held p old apart
      · rcases queued with ⟨none, _⟩ | ⟨b', row', found', parent', _⟩
        · exact nomatch none.symm.trans parent
        · cases parent'.symm.trans parent
          cases found.symm.trans found'
          exact absurd rfl apart
    · intro x held p held'
      rcases was held' with old | ⟨rfl, rfl, parent⟩
      · exact good.later x held p old
      · rcases queued with ⟨none, _⟩ | ⟨b', row', found', parent', _⟩
        · exact nomatch none.symm.trans parent
        · cases parent'.symm.trans parent
          cases found.symm.trans found'
          exact le_rfl
    · intro x held p found'' home key
      rw [looked] at found''
      by_cases mine : x = id
      · subst mine
        rw [if_pos rfl] at found''
        cases found''
        rcases queued with ⟨_, none⟩ | ⟨b', row', _, parent', key', _⟩
        · exact absurd home.symm (none b row found active)
        · cases key.symm.trans key'
          exact parent'
      · rw [if_neg mine] at found''
        exact good.keys x held p found'' home key
    · exact good.phase
  · intro b row found missing'
    rw [bootstraps] at found
    rw [nodes] at missing'
    rw [retirements]
    exact sound.homes b row found missing'

end Bootstraps
end NodePlane
