import NodePlane.Controller.PolicyResolution

/-! Setting policies: a node whose resolved runtime values change gets a higher desired revision, a
failed command changes nothing and a repeated one gives its stored result. -/
namespace NodePlane
namespace Policies
open Library

/-- What a node's runtime value is resolved for. -/
def nodeTarget (key protocol : String) : Target := ⟨none, none, some key, some protocol⟩

/-- A node's value comes from the installation's rows only. -/
theorem source_node {db : Db} {key protocol name : String} {rank : Rank} {value : Json} :
    Source db (nodeTarget key protocol) name rank value ↔
      ∃ scope row, db.policies.lookup ⟨.installation, scope, name⟩ = some row ∧
        scope.covers (nodeTarget key protocol) = true ∧ rank = toLex (0, scope.rank) ∧
        value = row.value := by
  constructor
  · intro source
    cases source with
    | installation held covers => exact ⟨_, _, held, covers, rfl, rfl⟩
    | tariff known => cases known
    | profile known => cases known
    | device known => cases known
  · rintro ⟨scope, row, held, covers, rfl, rfl⟩
    exact .installation held covers

section Frame
variable {db db' : Db} {key protocol name : String} {default value : Json}

theorem mostSpecific_congr
    (same : ∀ scope : Scope, scope.covers (nodeTarget key protocol) = true →
      db'.policies.lookup ⟨.installation, scope, name⟩ = db.policies.lookup ⟨.installation, scope, name⟩)
    (first : MostSpecific db (nodeTarget key protocol) name default value) :
    MostSpecific db' (nodeTarget key protocol) name default value := by
  have sources (rank : Rank) (v : Json) : Source db' (nodeTarget key protocol) name rank v ↔
      Source db (nodeTarget key protocol) name rank v := by
    rw [source_node, source_node]
    constructor
    · rintro ⟨scope, row, held, covers, rest⟩
      exact ⟨scope, row, (same scope covers).symm.trans held, covers, rest⟩
    · rintro ⟨scope, row, held, covers, rest⟩
      exact ⟨scope, row, (same scope covers).trans held, covers, rest⟩
  simpa only [MostSpecific, sources] using first

/-- A node's own row hides the row of every node. -/
theorem mostSpecific_overridden {own : Row}
    (held : db.policies.lookup ⟨.installation, .node key, name⟩ = some own)
    (same : ∀ scope : Scope, scope ≠ .everywhere →
      db'.policies.lookup ⟨.installation, scope, name⟩ = db.policies.lookup ⟨.installation, scope, name⟩)
    (first : MostSpecific db (nodeTarget key protocol) name default value) :
    MostSpecific db' (nodeTarget key protocol) name default value := by
  have covers : (Scope.node key).covers (nodeTarget key protocol) = true := by
    simp [Scope.covers, nodeTarget]
  have ownSource : Source db (nodeTarget key protocol) name (toLex (0, 1)) own.value :=
    .installation held covers
  obtain ⟨rank, source, top⟩ | ⟨none, -⟩ := first
  · obtain ⟨scope, row, stored, covers', rfl, rfl⟩ := source_node.mp source
    have above : 1 ≤ scope.rank := by
      rcases Prod.Lex.le_iff.mp (top _ _ ownSource) with first | ⟨-, second⟩
      · exact absurd first (by simp)
      · exact second
    have inner : scope ≠ .everywhere := by
      rintro rfl
      cases above
    refine .inl ⟨_, .installation ((same scope inner).trans stored) covers', ?_⟩
    intro rank' value' source'
    obtain ⟨scope', row', stored', reaches, rfl, rfl⟩ := source_node.mp source'
    by_cases outer : scope' = .everywhere
    · subst outer
      exact Prod.Lex.le_iff.mpr (.inr ⟨rfl, Nat.zero_le _⟩)
    · exact top _ _ (.installation ((same scope' outer).symm.trans stored') reaches)
  · exact absurd ownSource (none _ _)

end Frame

variable {reg : Registry}

/-- A registered key is found by its name. -/
theorem Registry.find_of_mem {spec : PolicyKey} (listed : spec ∈ reg.keys) :
    reg.find spec.name = some spec := by
  cases found : reg.find spec.name with
  | none =>
    have other := List.find?_eq_none.mp found spec listed
    simp at other
  | some held =>
    have name : held.name = spec.name := by simpa using List.find?_some found
    rw [List.inj_on_of_nodup_map reg.distinct (List.mem_of_find?_eq_some found) listed name]

theorem Registry.mem_of_find {name : String} {spec : PolicyKey} (found : reg.find name = some spec) :
    spec ∈ reg.keys ∧ spec.name = name :=
  ⟨List.mem_of_find?_eq_some found, by simpa using List.find?_some found⟩

/-- A node's value of a registered key is its most specific one. -/
theorem nodeValue_mostSpecific {db : Db} {key protocol : String} {spec : PolicyKey}
    (listed : spec ∈ reg.keys) :
    MostSpecific db (nodeTarget key protocol) spec.name spec.default
      (nodeValue reg db key protocol spec) := by
  have registered := Registry.find_of_mem listed
  have known : ∀ name ∈ resolvedNames reg (some [spec.name]), (reg.find name).isSome := by
    intro name inside
    rw [List.mem_singleton.mp inside, registered]
    rfl
  have settled : (nodeTarget key protocol).settle db = .ok (nodeTarget key protocol) := rfl
  obtain ⟨values, resolved, names, each⟩ := effective_ok settled known
  have value : nodeValue reg db key protocol spec = (values.lookup spec.name).getD .null := by
    unfold nodeValue
    rw [show effective reg db ⟨none, none, some key, some protocol⟩ (some [spec.name]) = .ok values
      from resolved]
  obtain ⟨⟨name, v⟩, rfl⟩ : ∃ item, values = [item] := by
    rw [← List.length_eq_one_iff]
    simpa [resolvedNames] using congrArg List.length names
  have same : name = spec.name := by simpa [resolvedNames] using names
  subst same
  rw [value, List.lookup_cons, beq_self_eq_true]
  exact each _ _ spec List.mem_cons_self registered

/-- The runtime values of a node follow the values of the keys that its protocols share. -/
theorem runtimeSettings_congr {db db' : Db} {key : String} {protocols : List String}
    (same : ∀ spec ∈ reg.keys, spec.setting.isSome → ∀ protocol ∈ spec.protocols, protocol ∈ protocols →
      nodeValue reg db' key protocol spec = nodeValue reg db key protocol spec) :
    runtimeSettings reg db' key protocols = runtimeSettings reg db key protocols := by
  unfold runtimeSettings
  apply List.foldl_ext
  intro values spec listed
  cases setting : spec.setting with
  | none => rfl
  | some setting' =>
    apply List.foldl_ext
    intro values protocol inside
    obtain ⟨shared, runs⟩ := List.mem_filter.mp inside
    have equal := same spec listed (by rw [setting]; rfl) protocol shared (by simpa using runs)
    dsimp only
    rw [equal]

/-! ### Marking -/

/-- Every node is kept with its protocols, and where its runtime values differ its desired revision is
higher. -/
def Marked (reg : Registry) (db db' : Db) : Prop :=
  ∀ key node, db.nodes.lookup key = some node →
    ∃ node', db'.nodes.lookup key = some node' ∧ node'.protocols = node.protocols ∧
      node.desired ≤ node'.desired ∧
      (runtimeSettings reg db' key node.protocols ≠ runtimeSettings reg db key node.protocols →
        node.desired < node'.desired)

theorem Marked.refl (db : Db) : Marked reg db db :=
  fun _ node held => ⟨node, held, rfl, le_rfl, fun differs => absurd rfl differs⟩

theorem Marked.trans {a b c : Db} (first : Marked reg a b) (second : Marked reg b c) :
    Marked reg a c := by
  intro key node held
  obtain ⟨node', held', protocols, up, raised⟩ := first key node held
  obtain ⟨node'', held'', protocols', up', raised'⟩ := second key node' held'
  refine ⟨node'', held'', protocols'.trans protocols, up.trans up', ?_⟩
  intro differs
  rw [protocols] at raised'
  by_cases early : runtimeSettings reg b key node.protocols = runtimeSettings reg a key node.protocols
  · rw [← early] at differs
    exact up.trans_lt (raised' differs)
  · exact (raised early).trans_le up'

/-- What a parsed change keeps: its key is registered, and one that nodes run by is set for the
installation only. -/
structure Parsed (reg : Registry) (subject : Subject) (item : PolicyKey × Change) : Prop where
  listed : item.1 ∈ reg.keys
  name : item.2.name = item.1.name
  owner : item.1.setting.isSome → subject = .installation

/-- What one change does to the tables. -/
theorem applyChange_ok {db db' : Db} {subject : Subject} {now : ℕ} {item : PolicyKey × Change}
    (done : applyChange db subject now item = .ok db') :
    (∀ place, place ≠ ⟨subject, item.2.scope, item.2.name⟩ →
      db'.policies.lookup place = db.policies.lookup place) ∧
    db'.nodes = (if item.1.setting.isSome then markNodes db item.1 item.2.scope.nodeKey else db).nodes ∧
    db'.commands = db.commands := by
  have policies : (if item.1.setting.isSome then markNodes db item.1 item.2.scope.nodeKey
      else db).policies = db.policies := by
    split <;> rfl
  have commands : (if item.1.setting.isSome then markNodes db item.1 item.2.scope.nodeKey
      else db).commands = db.commands := by
    split <;> rfl
  have fresh : ((db.policies.lookup ⟨subject, item.2.scope, item.2.name⟩).map Row.revision).getD 0 =
      item.2.revision := by
    by_contra stale
    rw [applyChange, if_pos stale] at done
    cases done
  rw [applyChange, if_neg (not_not.mpr fresh)] at done
  generalize (if item.1.setting.isSome then markNodes db item.1 item.2.scope.nodeKey else db) = marked
    at done policies commands ⊢
  cases value : item.2.value with
  | none =>
    rw [value] at done
    cases done
    refine ⟨?_, rfl, commands⟩
    intro place other
    rw [← policies]
    exact AList.lookup_erase_ne other
  | some value =>
    rw [value] at done
    cases row : db.policies.lookup ⟨subject, item.2.scope, item.2.name⟩ with
    | none =>
      rw [row] at done
      cases done
      refine ⟨?_, rfl, commands⟩
      intro place other
      rw [← policies]
      exact Table.lookup_put_ne _ other
    | some row =>
      rw [row] at done
      cases done
      refine ⟨?_, rfl, commands⟩
      intro place other
      rw [← policies]
      exact Table.lookup_put_ne _ other

/-- A node is raised unless the change is another node's, the node has a row of its own that hides it
or runs none of the key's protocols. -/
theorem markNodes_lookup {db : Db} (spec : PolicyKey) (scope : Scope) {key : String} {node : Node}
    (held : db.nodes.lookup key = some node) :
    ∃ node', (markNodes db spec scope.nodeKey).nodes.lookup key = some node' ∧
      node'.protocols = node.protocols ∧ node.desired ≤ node'.desired ∧
      (node.desired < node'.desired ∨
        (∀ protocol : String, scope.covers (nodeTarget key protocol) = false) ∨
        scope = .everywhere ∧ (db.policies.lookup ⟨.installation, .node key, spec.name⟩).isSome ∨
        ∀ protocol ∈ spec.protocols, protocol ∉ node.protocols) := by
  have marked := Table.lookup_mapRows db.nodes (fun key node =>
    if (scope.nodeKey.all (· = key)) && !(scope.nodeKey.isNone &&
        (db.policies.lookup ⟨.installation, .node key, spec.name⟩).isSome) &&
        spec.protocols.any (· ∈ node.protocols) then
      { node with desired := node.desired + 1 }
    else node) key
  rw [held, Option.map_some] at marked
  refine ⟨_, marked, ?_⟩
  split
  · exact ⟨rfl, Nat.le_succ _, .inl (Nat.lt_succ_self _)⟩
  next apart =>
    refine ⟨rfl, le_rfl, .inr ?_⟩
    rw [Bool.and_eq_true, Bool.and_eq_true, not_and_or, not_and_or] at apart
    obtain (elsewhere | overridden) | idle := apart
    · left
      intro protocol
      cases scope with
      | everywhere => exact absurd rfl elsewhere
      | node other =>
        have differs : other ≠ key := by simpa [Scope.nodeKey] using elsewhere
        simp [Scope.covers, nodeTarget, differs.symm]
      | nodeProtocol other _ =>
        have differs : other ≠ key := by simpa [Scope.nodeKey] using elsewhere
        simp [Scope.covers, nodeTarget, differs.symm]
    · right; left
      cases scope with
      | everywhere => exact ⟨rfl, by simpa [Scope.nodeKey, Option.isSome_iff_ne_none] using overridden⟩
      | node other => exact absurd rfl overridden
      | nodeProtocol other _ => exact absurd rfl overridden
    · right; right
      intro protocol shared runs
      exact idle (List.any_eq_true.mpr ⟨protocol, shared, by simpa using runs⟩)

/-- One change marks every node whose runtime values it changes. -/
theorem applyChange_marked {db db' : Db} {subject : Subject} {now : ℕ} {item : PolicyKey × Change}
    (parsed : Parsed reg subject item) (done : applyChange db subject now item = .ok db') :
    Marked reg db db' := by
  obtain ⟨others, nodes, -⟩ := applyChange_ok done
  intro key node held
  -- a key of another name has the same rows
  have unrelated {spec : PolicyKey} (listed : spec ∈ reg.keys) (other : spec.name ≠ item.2.name)
      (protocol : String) :
      nodeValue reg db' key protocol spec = nodeValue reg db key protocol spec := by
    have same : MostSpecific db (nodeTarget key protocol) spec.name spec.default
        (nodeValue reg db key protocol spec) := nodeValue_mostSpecific listed
    refine (nodeValue_mostSpecific listed).unique (mostSpecific_congr ?_ same)
    intro scope _
    apply others
    intro at_place
    exact other (congrArg Place.key at_place)
  cases setting : item.1.setting with
  | none =>
    rw [setting, Option.isSome_none, if_neg Bool.false_ne_true] at nodes
    refine ⟨node, by rw [nodes, held], rfl, le_rfl, ?_⟩
    intro differs
    refine absurd (runtimeSettings_congr ?_) differs
    intro spec listed runs protocol _ _
    apply unrelated listed
    intro same
    have one : spec = item.1 :=
      List.inj_on_of_nodup_map reg.distinct listed parsed.listed (same.trans parsed.name)
    rw [one, setting] at runs
    cases runs
  | some field =>
    rw [setting, Option.isSome_some, if_pos rfl] at nodes
    obtain rfl := parsed.owner (by rw [setting]; rfl)
    obtain ⟨node', held', protocols, up, raised⟩ :=
      markNodes_lookup item.1 item.2.scope held
    refine ⟨node', by rw [nodes, held'], protocols, up, ?_⟩
    intro differs
    obtain raised | hidden := raised
    · exact raised
    refine absurd (runtimeSettings_congr ?_) differs
    intro spec listed _ protocol shared runs
    by_cases other : spec.name ≠ item.2.name
    · exact unrelated listed other protocol
    obtain rfl : spec = item.1 := List.inj_on_of_nodup_map reg.distinct listed parsed.listed
      ((not_not.mp other).trans parsed.name)
    have same : MostSpecific db (nodeTarget key protocol) item.1.name item.1.default
        (nodeValue reg db key protocol item.1) := nodeValue_mostSpecific listed
    refine (nodeValue_mostSpecific listed).unique ?_
    obtain elsewhere | ⟨everywhere, own⟩ | idle := hidden
    · -- the changed row is another node's
      refine mostSpecific_congr ?_ same
      intro scope covers
      apply others
      intro at_place
      have scope' : scope = item.2.scope := congrArg Place.scope at_place
      rw [scope', elsewhere protocol] at covers
      cases covers
    · -- the node's own row hides the changed one
      obtain ⟨row, own⟩ := Option.isSome_iff_exists.mp own
      refine mostSpecific_overridden own ?_ same
      intro scope inner
      apply others
      intro at_place
      have scope' : scope = item.2.scope := congrArg Place.scope at_place
      exact inner (scope'.trans everywhere)
    · exact absurd runs (idle protocol shared)

theorem applyChanges_marked {subject : Subject} {now : ℕ} {items : List (PolicyKey × Change)}
    {db db' : Db} (parsed : ∀ item ∈ items, Parsed reg subject item)
    (done : applyChanges db subject now items = .ok db') :
    Marked reg db db' := by
  induction items generalizing db with
  | nil =>
    cases done
    exact .refl _
  | cons item rest ih =>
    obtain ⟨here, later⟩ := List.forall_mem_cons.mp parsed
    cases first : applyChange db subject now item with
    | error err =>
      rw [applyChanges, first] at done
      cases done
    | ok next =>
      rw [applyChanges, first] at done
      exact (applyChange_marked here first).trans (ih later done)

theorem applyChanges_commands {subject : Subject} {now : ℕ} {items : List (PolicyKey × Change)}
    {db db' : Db} (done : applyChanges db subject now items = .ok db') :
    db'.commands = db.commands := by
  induction items generalizing db with
  | nil =>
    cases done
    rfl
  | cons item rest ih =>
    cases first : applyChange db subject now item with
    | error err =>
      rw [applyChanges, first] at done
      cases done
    | ok next =>
      rw [applyChanges, first] at done
      exact (ih done).trans (applyChange_ok first).2.2

/-! ### The command -/

theorem parseChange_ok {db : Db} {kind : String} {change : Json} {item : PolicyKey × Change}
    (done : parseChange reg db kind change = .ok item) :
    item.1 ∈ reg.keys ∧ item.2.name = item.1.name ∧
      (item.1.setting.isSome → kind = "installation") := by
  unfold parseChange at done
  dsimp only at done
  split at done
  · cases done
  · split at done
    · cases done
    · split at done
      next spec revision found _ =>
        split at done
        · cases done
        · split at done
          · cases done
          next owned =>
            obtain ⟨name, -, registered⟩ := Option.bind_eq_some_iff.mp found
            have listed := (Registry.mem_of_find registered).1
            have owner : spec.setting.isSome → kind = "installation" := by
              intro runs
              by_contra other
              exact owned ⟨runs, other⟩
            split at done
            · cases done
            · split at done
              · cases done
              · split at done
                · cases done
                · split at done
                  · cases done
                    exact ⟨listed, rfl, owner⟩
                  · split at done
                    · cases done
                    · cases done
                      exact ⟨listed, rfl, owner⟩
      next => cases done

theorem parsed_mem {db : Db} {kind : String} {changes : List Json} {items : List (PolicyKey × Change)}
    (done : changes.mapM (parseChange reg db kind) = .ok items) :
    ∀ item ∈ items, ∃ change, parseChange reg db kind change = .ok item := by
  induction changes generalizing items with
  | nil =>
    cases done
    exact List.forall_mem_nil _
  | cons change rest ih =>
    rw [List.mapM_cons] at done
    cases here : parseChange reg db kind change with
    | error err =>
      rw [here] at done
      cases done
    | ok item =>
      cases there : rest.mapM (parseChange reg db kind) with
      | error err =>
        rw [here, there] at done
        cases done
      | ok more =>
        rw [here, there] at done
        cases done
        exact List.forall_mem_cons.mpr ⟨⟨change, here⟩, ih there⟩

theorem lockSubject_installation {db : Db} {id : Option ℕ} {subject : Subject}
    (locked : lockSubject db "installation" id = .ok subject) : subject = .installation := by
  unfold lockSubject at locked
  rw [if_pos rfl] at locked
  split at locked
  · cases locked
  · cases locked
    rfl

/-- The record of a command, new or stored. -/
def Request.record (r : Request) (db : Db) (identity : ℕ × ℕ × ℕ) : Command :=
  (db.commands.lookup identity).getD ⟨r.subjectKind, r.subjectId, r.changes, none⟩

/-- A set command that succeeds gives its stored result, or applies its changes and stores one. -/
theorem setBody_ok {db db' : Db} {r : Request} {identity : ℕ × ℕ × ℕ} {changes : List Json}
    {result : SetResult} (done : setBody reg db r identity changes = .ok (result, db')) :
    ((r.record db identity).subjectKind, (r.record db identity).subjectId,
        (r.record db identity).changes) = (r.subjectKind, r.subjectId, r.changes) ∧
      ((r.record db identity).result = some result ∧ db' = db ∨
        (r.record db identity).result = none ∧ ∃ subject items applied,
          lockSubject db r.subjectKind r.subjectId = .ok subject ∧
          changes.mapM (parseChange reg db r.subjectKind) = .ok items ∧
          applyChanges db subject r.now items = .ok applied ∧
          db' = { applied with
            commands := applied.commands.put identity
              { r.record db identity with result := some result } }) := by
  unfold setBody at done
  rw [Request.record]
  cases refused : db.refused with
  | some code =>
    rw [refused] at done
    cases done
  | none =>
    rw [refused] at done
    dsimp only at done
    generalize (db.commands.lookup identity).getD ⟨r.subjectKind, r.subjectId, r.changes, none⟩ =
      command at done ⊢
    change (if (command.subjectKind, command.subjectId, command.changes) ≠
      (r.subjectKind, r.subjectId, r.changes) then _ else _) = _ at done
    split at done
    · cases done
    next agree =>
      refine ⟨not_not.mp agree, ?_⟩
      cases stored : command.result with
      | some held =>
        rw [stored] at done
        cases done
        exact .inl ⟨rfl, rfl⟩
      | none =>
        rw [stored] at done
        dsimp only at done
        cases locked : lockSubject db r.subjectKind r.subjectId with
        | error err =>
          rw [locked] at done
          cases done
        | ok subject =>
          cases read : changes.mapM (parseChange reg db r.subjectKind) with
          | error err =>
            rw [locked, read] at done
            cases done
          | ok items =>
            rw [locked, read] at done
            change (if ¬ (items.map fun item => (item.2.name, item.2.scope)).Nodup then _ else _) = _
              at done
            split at done
            · cases done
            · cases applied : applyChanges db subject r.now items with
              | error err =>
                rw [applied] at done
                cases done
              | ok next =>
                rw [applied] at done
                cases done
                exact .inr ⟨rfl, subject, items, next, rfl, rfl, applied, rfl⟩

/-- A command's result stands under its key. -/
def Stored (db : Db) (r : Request) (identity : ℕ × ℕ × ℕ) (result : SetResult) : Prop :=
  db.commands.lookup identity = some ⟨r.subjectKind, r.subjectId, r.changes, some result⟩

/-- A set command that succeeds marks the nodes whose runtime values it changes and stores its
result. -/
theorem setBody_marked {db db' : Db} {r : Request} {identity : ℕ × ℕ × ℕ} {changes : List Json}
    {result : SetResult} (done : setBody reg db r identity changes = .ok (result, db')) :
    Marked reg db db' ∧ Stored db' r identity result := by
  obtain ⟨agree, effect⟩ := setBody_ok done
  obtain ⟨kind, rest⟩ := Prod.mk.inj agree
  obtain ⟨id, payload⟩ := Prod.mk.inj rest
  obtain ⟨known, rfl⟩ | ⟨-, subject, items, applied, locked, read, ran, rfl⟩ := effect
  · refine ⟨.refl _, ?_⟩
    unfold Stored
    cases found : db'.commands.lookup identity with
    | none =>
      rw [Request.record, found] at known
      cases known
    | some command =>
      have held : r.record db' identity = command := by
        rw [Request.record, found]
        rfl
      rw [held] at kind id payload known
      rw [← kind, ← id, ← payload, ← known]
  · have parsed : ∀ item ∈ items, Parsed reg subject item := by
      intro item inside
      obtain ⟨change, here⟩ := parsed_mem read item inside
      obtain ⟨listed, name, owner⟩ := parseChange_ok here
      refine ⟨listed, name, ?_⟩
      intro runs
      rw [owner runs] at locked
      exact lockSubject_installation locked
    have marked : Marked reg db applied := applyChanges_marked parsed ran
    refine ⟨marked, ?_⟩
    unfold Stored
    rw [Table.lookup_put_self]
    dsimp only
    rw [kind, id, payload]

/-- A stored result is given again, and nothing changes. -/
theorem setBody_stored {db : Db} {r : Request} {identity : ℕ × ℕ × ℕ} {changes : List Json}
    {result : SetResult} (open' : db.refused = none) (stored : Stored db r identity result) :
    setBody reg db r identity changes = .ok (result, db) := by
  unfold setBody
  rw [open', stored]
  dsimp only [Option.getD_some]
  rw [if_neg (not_not.mpr rfl)]
  rfl

/-- What happens to the tables: a set command, or other work that leaves the commands alone. -/
inductive Event
  | set (r : Request)
  | other (db : Db)

def step (reg : Registry) (db : Db) : Event → Db
  | .set r => (set reg db r).2
  | .other next => { next with commands := db.commands }

def run (reg : Registry) (db : Db) (events : List Event) : Db := events.foldl (step reg) db

theorem set_ok {db db' : Db} {r : Request} {identity : ℕ × ℕ × ℕ} {changes : List Json}
    {result : SetResult} (checked : r.check = .ok (identity, changes))
    (body : setBody reg db r identity changes = .ok (result, db')) :
    set reg db r = (.ok result, db') := by
  simp only [set, checked, bind, Except.bind, body]

theorem set_error {db : Db} {r : Request} {identity : ℕ × ℕ × ℕ} {changes : List Json} {err : Denied}
    (checked : r.check = .ok (identity, changes))
    (body : setBody reg db r identity changes = .error err) :
    set reg db r = (.error err, db) := by
  simp only [set, checked, bind, Except.bind, body]

/-- A set command by its outcome. -/
theorem set_cases (reg : Registry) (db : Db) (r : Request) :
    (∃ err, set reg db r = (.error err, db)) ∨
      ∃ identity changes result db', r.check = .ok (identity, changes) ∧
        setBody reg db r identity changes = .ok (result, db') ∧ set reg db r = (.ok result, db') := by
  cases checked : r.check with
  | error err =>
    refine .inl ⟨err, ?_⟩
    unfold set
    rw [checked]
    rfl
  | ok found =>
    obtain ⟨identity, changes⟩ := found
    cases body : setBody reg db r identity changes with
    | error err => exact .inl ⟨err, set_error checked body⟩
    | ok outcome =>
      obtain ⟨result, db'⟩ := outcome
      exact .inr ⟨identity, changes, result, db', rfl, body, set_ok checked body⟩

/-- A stored result stays. -/
theorem step_stored {db : Db} {r : Request} {identity : ℕ × ℕ × ℕ} {result : SetResult} (event : Event)
    (stored : Stored db r identity result) : Stored (step reg db event) r identity result := by
  cases event with
  | other next => exact stored
  | set other =>
    change Stored (set reg db other).2 r identity result
    obtain ⟨err, failed⟩ | ⟨identity', changes, result', db', -, body, done⟩ :=
      set_cases reg db other
    · rw [failed]
      exact stored
    · rw [done]
      obtain ⟨-, effect⟩ := setBody_ok body
      obtain ⟨-, rfl⟩ | ⟨missing, subject, items, applied, -, read, ran, rfl⟩ := effect
      · exact stored
      · have commands : applied.commands = db.commands := applyChanges_commands ran
        unfold Stored at stored ⊢
        rw [Table.lookup_put_ne, commands]
        · exact stored
        · rintro rfl
          rw [Request.record, stored] at missing
          cases missing

theorem run_stored {r : Request} {identity : ℕ × ℕ × ℕ} {result : SetResult} {events : List Event}
    {db : Db} (stored : Stored db r identity result) : Stored (run reg db events) r identity result := by
  induction events generalizing db with
  | nil => exact stored
  | cons event rest ih => exact ih (step_stored event stored)

end Policies
end NodePlane
