import NodePlane.Snapshots.Delivery

/-! What a row that says current means: what the agent held when it answered, and what
may have happened to it since. -/
namespace NodePlane
open Library
namespace Snapshots

section Held
variable {α β : Type} {read : List α → Except String β} {empty : β}
  {s : State α β}

/-- The agent still holds what it answered with, unless it was lost or a newer snapshot
arrived. -/
def Since (empty : β) (s : State α β) (node : String) (held : Snapshot β) (rest : List (Event β)) :
    Prop :=
  s.agent empty node = held ∨ .lost node ∈ rest ∨
    ∃ newer, .stored node newer ∈ rest ∧ held.revision < newer.revision

/-- The agent holds what a request brought. -/
def Brought (read : List α → Except String β) (s : State α β) (node : String) (held : Snapshot β) :
    Prop :=
  ∃ request ∈ s.requests, request.node = node ∧ request.revision = held.revision ∧
    read request.clients = .ok held.clients

theorem Brought.mono {t : State α β} {node : String} {held : Snapshot β}
    (brought : Brought read s node held) (grows : s.requests ⊆ t.requests) :
    Brought read t node held := by
  obtain ⟨request, sent, same⟩ := brought
  exact ⟨request, grows sent, same⟩

theorem agent_put (empty : β) (s : State α β) (node other : String) (held : Snapshot β) :
    ({ s with agents := s.agents.put node held } : State α β).agent empty other =
      if other = node then held else s.agent empty other := by
  unfold State.agent
  rw [Table.lookup_put]
  split_ifs
  · rfl
  · rfl

/-- What a request does at its agent. -/
theorem receive_cases (read : List α → Except String β) (empty : β) (request : Send α)
    (saved : Bool) (s : State α β) :
    let current := s.agent empty request.node
    let ran := receive read empty request saved s
    ran = ({ s with agents := s.agents.put request.node current }, []) ∨
      (request.revision ≤ current.revision ∧ ran =
        ({ s with
            agents := s.agents.put request.node current
            answers := s.answers ++ [(request, current.revision)] },
          [.answered request.node current])) ∨
      ∃ clients, read request.clients = .ok clients ∧ current.revision < request.revision ∧ ran =
        ({ s with
            agents := s.agents.put request.node ⟨request.revision, clients⟩
            answers := s.answers ++ [(request, request.revision)] },
          [.stored request.node ⟨request.revision, clients⟩,
            .answered request.node ⟨request.revision, clients⟩]) := by
  intro current ran
  dsimp only [ran]
  unfold receive
  rcases apply_cases read request.revision request.clients saved current with
    ⟨err, same⟩ | ⟨old, same⟩ | ⟨clients, checked, newer, same⟩
  · refine .inl ?_
    simp [current, same]
  · refine .inr (.inl ⟨old, ?_⟩)
    simp [current, same]
  · refine .inr (.inr ⟨clients, checked, newer, ?_⟩)
    have differs : request.revision ≠ current.revision := by omega
    simp [current, same, differs]

/-! What a step does to the rows. -/

def Positive (rows : Table String (Row α)) : Prop :=
  ∀ node row, rows.lookup node = some row → 0 < row.revision

/-- The row says current as it did before. -/
def Settled (rows planned : Table String (Row α)) : Prop :=
  ∀ node row, planned.lookup node = some row → row.status = .current →
    rows.lookup node = some row

theorem plan_spec [DecidableEq α] {rows : Table String (Row α)} (positive : Positive rows)
    (targets : List (String × List α)) :
    Positive (plan rows targets).1 ∧ Settled rows (plan rows targets).1 ∧
      ∀ request ∈ (plan rows targets).2, 0 < request.revision := by
  induction targets generalizing rows with
  | nil => exact ⟨positive, fun _ _ found _ => found, by simp [plan]⟩
  | cons target rest ih =>
    obtain ⟨node, clients⟩ := target
    -- A row that is put is pending, and has a positive revision.
    have put (row : Row α) (pending : row.status = .pending) (above : 0 < row.revision) :
        Positive (rows.put node row) ∧ ∀ planned, Settled (rows.put node row) planned →
          Settled rows planned := by
      refine ⟨?_, ?_⟩
      · intro other found held
        rw [Table.lookup_put] at held
        split_ifs at held
        · cases held
          exact above
        · exact positive other found held
      · intro planned settled other found held current
        have before := settled other found held current
        rw [Table.lookup_put] at before
        split_ifs at before
        · cases before
          rw [pending] at current
          cases current
        · exact before
    unfold plan
    cases known : rows.lookup node with
    | none =>
      simp only [Option.isNone_none, Bool.true_and]
      split_ifs
      · exact ih positive
      · obtain ⟨above, settles⟩ := put ⟨1, clients, 0, .pending⟩ rfl Nat.one_pos
        obtain ⟨first, second, third⟩ := ih above
        refine ⟨first, settles _ second, ?_⟩
        intro request sent
        rcases List.mem_cons.mp sent with rfl | later
        · exact Nat.one_pos
        · exact third request later
    | some row =>
      have above := positive node row known
      simp only [Option.isNone_some, Bool.false_and, Bool.false_eq_true, if_false]
      split_ifs
      · obtain ⟨above', settles⟩ := put
          { row with revision := row.revision + 1, digest := clients, status := .pending } rfl
          (by simp)
        obtain ⟨first, second, third⟩ := ih above'
        refine ⟨first, settles _ second, ?_⟩
        intro request sent
        rcases List.mem_cons.mp sent with rfl | later
        · simp
        · exact third request later
      · obtain ⟨first, second, third⟩ := ih positive
        refine ⟨first, second, ?_⟩
        intro request sent
        rcases List.mem_cons.mp sent with rfl | later
        · exact above
        · exact third request later

/-- A record makes a row current only for an answer that holds the row's revision. -/
theorem record_spec {rows : Table String (Row α)} (positive : Positive rows) (node : String)
    (sent : ℕ) (inForce : Option ℕ) (status : Status) (failed : status ≠ .current) :
    Positive (record rows node sent inForce status) ∧
      ∀ other row, (record rows node sent inForce status).lookup other = some row →
        row.status = .current → rows.lookup other = some row ∨
          (other = node ∧ row.revision = sent ∧ inForce = some sent) := by
  have changed {other : String} {row : Row α}
      (found : (record rows node sent inForce status).lookup other = some row) :
      rows.lookup other = some row ∨ ∃ old, rows.lookup node = some old ∧ other = node ∧
        0 < row.revision ∧ (row.status = .current → row.revision = sent ∧ inForce = some sent) := by
    unfold record at found
    rw [Table.lookup_alter] at found
    split_ifs at found with same
    · obtain ⟨old, known, rfl⟩ := Option.map_eq_some_iff.mp found
      have above := positive node old known
      split_ifs with differs
      · left
        rw [same]
        exact known
      · right
        refine ⟨old, known, same, ?_⟩
        have here : old.revision = sent := not_not.mp differs
        cases inForce with
        | none => exact ⟨above, fun current => absurd current failed⟩
        | some held =>
          dsimp only
          split_ifs with newer equal
          · exact ⟨Nat.succ_pos _, fun current => by cases current⟩
          · exact ⟨above, fun _ => ⟨here, by rw [equal]⟩⟩
          · exact ⟨above, fun current => absurd current failed⟩
    · exact .inl found
  refine ⟨?_, ?_⟩
  · intro other row found
    rcases changed found with before | ⟨old, _, _, above, _⟩
    · exact positive other row before
    · exact above
  · intro other row found current
    rcases changed found with before | ⟨old, _, here, _, confirmed⟩
    · exact .inl before
    · exact .inr ⟨here, confirmed current⟩

/-! The invariant of a run. -/

/-- The agent answered that it holds revision `r`, and what came since is known. -/
def Acknowledged (read : List α → Except String β) (empty : β) (past : List (Event β))
    (s : State α β) (node : String) (r : ℕ) : Prop :=
  ∃ before held rest, past = before ++ .answered node held :: rest ∧ held.revision = r ∧
    Brought read s node held ∧ Since empty s node held rest

theorem Acknowledged.step {past es : List (Event β)} {t : State α β} {node : String} {r : ℕ}
    (known : Acknowledged read empty past s node r) (grows : s.requests ⊆ t.requests)
    (moves : t.agent empty node = s.agent empty node ∨ .lost node ∈ es ∨
      ∃ newer, .stored node newer ∈ es ∧ (s.agent empty node).revision < newer.revision) :
    Acknowledged read empty (past ++ es) t node r := by
  obtain ⟨before, held, rest, split, same, brought, since⟩ := known
  refine ⟨before, held, rest ++ es, by rw [split]; simp, same, brought.mono grows, ?_⟩
  rcases since with holds | lost | ⟨newer, arrived, above⟩
  · rcases moves with still | lost | ⟨newer, arrived, above⟩
    · exact .inl (still.trans holds)
    · exact .inr (.inl (List.mem_append.mpr (.inr lost)))
    · rw [holds] at above
      exact .inr (.inr ⟨newer, List.mem_append.mpr (.inr arrived), above⟩)
  · exact .inr (.inl (List.mem_append.mpr (.inl lost)))
  · exact .inr (.inr ⟨newer, List.mem_append.mpr (.inl arrived), above⟩)

structure Kept (read : List α → Except String β) (empty : β) (past : List (Event β))
    (s : State α β) : Prop where
  rows : Positive s.rows
  requests : ∀ request ∈ s.requests, 0 < request.revision
  agents : ∀ node, 0 < (s.agent empty node).revision → Brought read s node (s.agent empty node)
  answers : ∀ request inForce, (request, inForce) ∈ s.answers → request.revision = inForce →
    0 < inForce ∧ Acknowledged read empty past s request.node inForce
  current : ∀ node row, s.rows.lookup node = some row → row.status = .current →
    ∃ request, (request, row.revision) ∈ s.answers ∧ request.node = node ∧
      request.revision = row.revision

/-- A step that only moves the controller's rows. -/
theorem Kept.rows_step {past : List (Event β)} (kept : Kept read empty past s)
    {rows : Table String (Row α)} (sends : List (Send α)) (positive : Positive rows)
    (sent : ∀ request ∈ sends, 0 < request.revision)
    (current : ∀ node row, rows.lookup node = some row → row.status = .current →
      s.rows.lookup node = some row ∨ ∃ request, (request, row.revision) ∈ s.answers ∧
        request.node = node ∧ request.revision = row.revision) :
    Kept read empty (past ++ []) { s with rows, requests := s.requests ++ sends } := by
  have grows : s.requests ⊆ s.requests ++ sends := List.subset_append_left _ _
  refine ⟨positive, ?_, ?_, ?_, ?_⟩
  · intro request member
    rcases List.mem_append.mp member with old | new
    · exact kept.requests request old
    · exact sent request new
  · intro node above
    exact (kept.agents node above).mono grows
  · intro request inForce member same
    obtain ⟨above, known⟩ := kept.answers request inForce member same
    exact ⟨above, known.step (t := { s with rows, requests := s.requests ++ sends }) grows
      (.inl rfl)⟩
  · intro node row found status
    rcases current node row found status with before | known
    · exact kept.current node row before status
    · exact known

theorem receive_kept {past : List (Event β)} (kept : Kept read empty past s) {request : Send α}
    (sent : request ∈ s.requests) (saved : Bool) :
    Kept read empty (past ++ (receive read empty request saved s).2)
      (receive read empty request saved s).1 := by
  -- What its agent holds afterwards is what a request brought.
  have stays {agents : Table String (Snapshot β)} {answers : List (Send α × ℕ)}
      {es : List (Event β)} (held : Snapshot β)
      (put : agents = s.agents.put request.node held)
      (brought : 0 < held.revision → Brought read s request.node held)
      (moves : held = s.agent empty request.node ∨ ∃ newer, .stored request.node newer ∈ es ∧
        (s.agent empty request.node).revision < newer.revision)
      (replied : answers = s.answers ∨ (answers = s.answers ++ [(request, held.revision)] ∧
        ∃ took, es = took ++ [.answered request.node held])) :
      Kept read empty (past ++ es) { s with agents, answers } := by
    subst put
    have agent (other : String) : ({ s with agents := s.agents.put request.node held, answers } :
        State α β).agent empty other = if other = request.node then held else s.agent empty other :=
      agent_put empty s request.node other held
    have older {other : String} {r : ℕ} (known : Acknowledged read empty past s other r) :
        Acknowledged read empty (past ++ es)
          { s with agents := s.agents.put request.node held, answers } other r := by
      refine known.step (List.Subset.refl _) ?_
      rw [agent]
      split_ifs with same
      · subst same
        rcases moves with still | newer
        · exact .inl still
        · exact .inr (.inr newer)
      · exact .inl rfl
    refine ⟨kept.rows, kept.requests, ?_, ?_, ?_⟩
    · intro other above
      rw [agent] at above ⊢
      split_ifs at above ⊢ with same
      · subst same
        exact brought above
      · exact kept.agents other above
    · intro asked inForce member same
      rcases replied with rfl | ⟨rfl, took, rfl⟩
      · obtain ⟨above, known⟩ := kept.answers asked inForce member same
        exact ⟨above, older known⟩
      · rcases List.mem_append.mp member with old | new
        · obtain ⟨above, known⟩ := kept.answers asked inForce old same
          exact ⟨above, older known⟩
        · rw [List.mem_singleton] at new
          cases new
          have above : 0 < held.revision := by
            rw [← same]
            exact kept.requests request sent
          refine ⟨above, past ++ took, held, [], by simp, rfl, brought above, .inl ?_⟩
          rw [agent, if_pos rfl]
    · intro node row found status
      obtain ⟨asked, member, same⟩ := kept.current node row found status
      refine ⟨asked, ?_, same⟩
      rcases replied with rfl | ⟨rfl, _⟩
      · exact member
      · exact List.mem_append.mpr (.inl member)
  rcases receive_cases read empty request saved s with
    same | ⟨old, same⟩ | ⟨clients, checked, newer, same⟩
  · rw [same]
    exact stays _ rfl (kept.agents request.node) (.inl rfl) (.inl rfl)
  · rw [same]
    exact stays _ rfl (kept.agents request.node) (.inl rfl) (.inr ⟨rfl, [], rfl⟩)
  · rw [same]
    refine stays ⟨request.revision, clients⟩ rfl (fun _ => ?_) (.inr ?_)
      (.inr ⟨rfl, [.stored request.node ⟨request.revision, clients⟩], rfl⟩)
    · exact ⟨request, sent, rfl, rfl, checked⟩
    · exact ⟨_, List.mem_cons_self .., newer⟩

theorem kept_step [DecidableEq α] {past : List (Event β)} (kept : Kept read empty past s) (step : Step α) :
    Kept read empty (past ++ (exec read empty s step).2) (exec read empty s step).1 := by
  have same {rows : Table String (Row α)} (positive : Positive rows)
      (current : ∀ node row, rows.lookup node = some row → row.status = .current →
        s.rows.lookup node = some row ∨ ∃ request, (request, row.revision) ∈ s.answers ∧
          request.node = node ∧ request.revision = row.revision) :
      Kept read empty (past ++ []) { s with rows } := by
    have moved := kept.rows_step [] positive (by simp) current
    simpa only [List.append_nil] using moved
  have idle : Kept read empty (past ++ []) s :=
    same kept.rows fun _ _ found _ => .inl found
  cases step with
  | plan targets =>
    obtain ⟨positive, settled, sent⟩ := plan_spec kept.rows targets
    exact kept.rows_step _ positive sent fun node row found current =>
      .inl (settled node row found current)
  | receive i saved =>
    cases found : s.requests[i]? with
    | none =>
      simp only [exec, found]
      exact idle
    | some request =>
      simp only [exec, found]
      exact receive_kept kept (List.mem_of_getElem? found) saved
  | answer k =>
    cases found : s.answers[k]? with
    | none =>
      simp only [exec, found]
      exact idle
    | some answer =>
      obtain ⟨request, inForce⟩ := answer
      simp only [exec, found]
      obtain ⟨positive, current⟩ := record_spec kept.rows request.node request.revision
        (some inForce) .unavailable (by simp)
      refine same positive ?_
      intro node row held status
      rcases current node row held status with before | ⟨here, revision, confirmed⟩
      · exact .inl before
      · cases confirmed
        refine .inr ⟨request, ?_, here.symm, revision.symm⟩
        rw [revision]
        exact List.mem_of_getElem? found
  | fail i unimplemented =>
    cases found : s.requests[i]? with
    | none =>
      simp only [exec, found]
      exact idle
    | some request =>
      simp only [exec, found]
      obtain ⟨positive, current⟩ := record_spec kept.rows request.node request.revision none
        (failureStatus unimplemented) (by unfold failureStatus; split <;> simp)
      refine same positive ?_
      intro node row held status
      rcases current node row held status with before | ⟨_, _, confirmed⟩
      · exact .inl before
      · cases confirmed
  | restore =>
    refine same (fun _ _ found => by cases found) ?_
    intro node row found
    cases found
  | remove node =>
    have held {other : String} {row : Row α}
        (found : (s.rows.keep fun key _ => key ≠ node).lookup other = some row) :
        s.rows.lookup other = some row := (Table.lookup_keep.mp found).1
    refine same (fun other row found => kept.rows other row (held found)) ?_
    exact fun other row found _ => .inl (held found)
  | restart => exact idle
  | lose node =>
    have agent (other : String) := agent_put empty s node other ⟨0, empty⟩
    refine ⟨kept.rows, kept.requests, ?_, ?_, kept.current⟩
    · intro other above
      have here : 0 < (if other = node then (⟨0, empty⟩ : Snapshot β)
          else s.agent empty other).revision := by
        rw [← agent]
        exact above
      show Brought read s other (({ s with agents := _ } : State α β).agent empty other)
      rw [agent]
      split_ifs at here ⊢
      · simp at here
      · exact kept.agents other here
    · intro request inForce member same
      obtain ⟨above, known⟩ := kept.answers request inForce member same
      refine ⟨above, known.step (List.Subset.refl _) ?_⟩
      show ({ s with agents := _ } : State α β).agent empty request.node = _ ∨ _
      rw [agent]
      split_ifs with here
      · subst here
        exact .inr (.inl (List.mem_singleton.mpr rfl))
      · exact .inl rfl

/-! Without a cleared table, a revision stands for one snapshot. -/

/-- The row moved on, or stands for the same snapshot. -/
def Follows (rows later : Table String (Row α)) : Prop :=
  ∀ node row, rows.lookup node = some row → ∃ next, later.lookup node = some next ∧
    (row.revision < next.revision ∨ (next.revision = row.revision ∧ next.digest = row.digest))

theorem Follows.refl (rows : Table String (Row α)) : Follows rows rows :=
  fun _ row found => ⟨row, found, .inr ⟨rfl, rfl⟩⟩

theorem Follows.trans {first second third : Table String (Row α)} (one : Follows first second)
    (two : Follows second third) : Follows first third := by
  intro node row found
  obtain ⟨middle, kept, moved⟩ := one node row found
  obtain ⟨last, held, further⟩ := two node middle kept
  refine ⟨last, held, ?_⟩
  rcases moved with above | ⟨same, digest⟩
  · rcases further with higher | ⟨equal, _⟩
    · exact .inl (Nat.lt_trans above higher)
    · exact .inl (equal ▸ above)
  · rcases further with higher | ⟨equal, still⟩
    · exact .inl (same ▸ higher)
    · exact .inr ⟨equal.trans same, still.trans digest⟩

theorem Follows.put {rows : Table String (Row α)} {node : String} {next : Row α}
    (moved : ∀ row, rows.lookup node = some row → row.revision < next.revision ∨
      (next.revision = row.revision ∧ next.digest = row.digest)) :
    Follows rows (rows.put node next) := by
  intro other row found
  by_cases same : other = node
  · subst same
    exact ⟨next, Table.lookup_put_self _ _ _, moved row found⟩
  · exact ⟨row, by rw [Table.lookup_put_ne _ same]; exact found, .inr ⟨rfl, rfl⟩⟩

/-- The request's revision is the row's and so are its clients, or the row moved on. -/
def Carried (rows : Table String (Row α)) (request : Send α) : Prop :=
  ∃ row, rows.lookup request.node = some row ∧ (request.revision < row.revision ∨
    (row.revision = request.revision ∧ row.digest = request.clients))

theorem Carried.follows {rows later : Table String (Row α)} {request : Send α}
    (carried : Carried rows request) (follows : Follows rows later) : Carried later request := by
  obtain ⟨row, found, below⟩ := carried
  obtain ⟨next, kept, moved⟩ := follows _ row found
  refine ⟨next, kept, ?_⟩
  rcases below with under | ⟨same, digest⟩
  · rcases moved with above | ⟨equal, _⟩
    · exact .inl (Nat.lt_trans under above)
    · exact .inl (equal ▸ under)
  · rcases moved with above | ⟨equal, still⟩
    · exact .inl (same ▸ above)
    · exact .inr ⟨equal.trans same, still.trans digest⟩

/-- The node's row has a revision of at least `r`. -/
def Reaches (rows : Table String (Row α)) (node : String) (r : ℕ) : Prop :=
  ∃ row, rows.lookup node = some row ∧ r ≤ row.revision

theorem Reaches.follows {rows later : Table String (Row α)} {node : String} {r : ℕ}
    (reaches : Reaches rows node r) (follows : Follows rows later) : Reaches later node r := by
  obtain ⟨row, found, below⟩ := reaches
  obtain ⟨next, kept, moved⟩ := follows _ row found
  refine ⟨next, kept, ?_⟩
  rcases moved with above | ⟨equal, _⟩
  · exact Nat.le_trans below (Nat.le_of_lt above)
  · exact equal ▸ below

theorem Carried.reaches {rows : Table String (Row α)} {request : Send α}
    (carried : Carried rows request) : Reaches rows request.node request.revision := by
  obtain ⟨row, found, below⟩ := carried
  refine ⟨row, found, ?_⟩
  rcases below with under | ⟨same, _⟩
  · exact Nat.le_of_lt under
  · exact Nat.le_of_eq same.symm

theorem plan_follows [DecidableEq α] (rows : Table String (Row α)) (targets : List (String × List α)) :
    Follows rows (plan rows targets).1 ∧
      ∀ request ∈ (plan rows targets).2, Carried (plan rows targets).1 request := by
  induction targets generalizing rows with
  | nil => exact ⟨Follows.refl rows, by simp [plan]⟩
  | cons target rest ih =>
    obtain ⟨node, clients⟩ := target
    -- The request under way and the rest of the pass, from the row that the node has now.
    have sends {planned : Table String (Row α)} {row : Row α} (follows : Follows rows planned)
        (stands : planned.lookup node = some row) (same : row.digest = clients) :
        Follows rows (plan planned rest).1 ∧
          ∀ request ∈ ⟨node, row.revision, clients⟩ :: (plan planned rest).2,
            Carried (plan planned rest).1 request := by
      obtain ⟨further, carried⟩ := ih planned
      refine ⟨follows.trans further, ?_⟩
      intro request member
      rcases List.mem_cons.mp member with rfl | later
      · have here : Carried planned ⟨node, row.revision, clients⟩ :=
          ⟨row, stands, .inr ⟨rfl, same⟩⟩
        exact here.follows further
      · exact carried request later
    unfold plan
    cases known : rows.lookup node with
    | none =>
      simp only [Option.isNone_none, Bool.true_and]
      split_ifs
      · exact ih rows
      · refine sends (Follows.put ?_) (Table.lookup_put_self _ _ _) rfl
        intro row found
        rw [known] at found
        cases found
    | some row =>
      simp only [Option.isNone_some, Bool.false_and, Bool.false_eq_true, if_false]
      split_ifs with changed
      · refine sends (Follows.put ?_) (Table.lookup_put_self _ _ _) rfl
        intro old found
        rw [known] at found
        cases found
        exact .inl (Nat.lt_succ_self _)
      · exact sends (Follows.refl rows) known (not_not.mp changed)

/-- An answer that is not above the row leaves its revision. -/
theorem record_follows {rows : Table String (Row α)} {node : String} {sent : ℕ}
    {inForce : Option ℕ} (status : Status)
    (bounded : ∀ held row, inForce = some held → rows.lookup node = some row →
      held ≤ row.revision) : Follows rows (record rows node sent inForce status) := by
  intro other row found
  by_cases same : other = node
  · subst same
    refine ⟨_, by rw [record, Table.lookup_alter, if_pos rfl, found, Option.map_some], ?_⟩
    split_ifs with differs
    · exact .inr ⟨rfl, rfl⟩
    · cases inForce with
      | none => exact .inr ⟨rfl, rfl⟩
      | some held =>
        have below := bounded held row rfl found
        have here : row.revision = sent := not_not.mp differs
        dsimp only
        split_ifs with newer equal
        · omega
        · exact .inr ⟨rfl, rfl⟩
        · exact .inr ⟨rfl, rfl⟩
  · exact ⟨row, by rw [record, Table.lookup_alter_ne _ same]; exact found, .inr ⟨rfl, rfl⟩⟩

/-- Nothing is ahead of the controller's rows. -/
structure Behind (empty : β) (past : List (Event β)) (s : State α β) : Prop where
  requests : ∀ request ∈ s.requests, Carried s.rows request
  agents : ∀ node, (s.agent empty node).revision = 0 ∨
    Reaches s.rows node (s.agent empty node).revision
  answers : ∀ request inForce, (request, inForce) ∈ s.answers → Reaches s.rows request.node inForce
  stored : ∀ node newer, .stored node newer ∈ past → Reaches s.rows node newer.revision

theorem Behind.rows_step {past : List (Event β)} (behind : Behind empty past s)
    {rows : Table String (Row α)} (sends : List (Send α)) (follows : Follows s.rows rows)
    (carried : ∀ request ∈ sends, Carried rows request) :
    Behind empty (past ++ []) { s with rows, requests := s.requests ++ sends } := by
  rw [List.append_nil]
  refine ⟨?_, ?_, ?_, ?_⟩
  · intro request member
    rcases List.mem_append.mp member with old | new
    · exact (behind.requests request old).follows follows
    · exact carried request new
  · exact fun node => (behind.agents node).imp_right fun reaches => reaches.follows follows
  · exact fun request inForce member => (behind.answers request inForce member).follows follows
  · exact fun node newer arrived => (behind.stored node newer arrived).follows follows

end Held

/-- The step clears a node's delivery. -/
def Step.Clears {α : Type} : Step α → Prop
  | .restore | .remove _ => True
  | _ => False

section Held
variable {α β : Type} {read : List α → Except String β} {empty : β}
  {s : State α β}

theorem receive_behind {past : List (Event β)} (behind : Behind empty past s) {request : Send α}
    (sent : request ∈ s.requests) (saved : Bool) :
    Behind empty (past ++ (receive read empty request saved s).2)
      (receive read empty request saved s).1 := by
  have asked := (behind.requests request sent).reaches
  have moved {answers : List (Send α × ℕ)} {es : List (Event β)} (held : Snapshot β)
      (reaches : held.revision = 0 ∨ Reaches s.rows request.node held.revision)
      (replied : ∀ answer ∈ answers, answer ∈ s.answers ∨
        (answer.1 = request ∧ Reaches s.rows request.node answer.2))
      (stored : ∀ node newer, .stored node newer ∈ es → Reaches s.rows node newer.revision) :
      Behind empty (past ++ es)
        { s with agents := s.agents.put request.node held, answers } := by
    refine ⟨behind.requests, ?_, ?_, ?_⟩
    · intro node
      show (({ s with agents := s.agents.put request.node held } : State α β).agent empty
        node).revision = 0 ∨ Reaches s.rows node (({ s with agents := s.agents.put request.node held } :
          State α β).agent empty node).revision
      rw [agent_put]
      split_ifs with same
      · rw [same]
        exact reaches
      · exact behind.agents node
    · intro asked inForce member
      rcases replied (asked, inForce) member with old | ⟨rfl, reaches⟩
      · exact behind.answers asked inForce old
      · exact reaches
    · intro node newer arrived
      rcases List.mem_append.mp arrived with old | new
      · exact behind.stored node newer old
      · exact stored node newer new
  have current := behind.agents request.node
  have inForce : Reaches s.rows request.node (s.agent empty request.node).revision := by
    rcases current with zero | reaches
    · obtain ⟨row, found, _⟩ := asked
      exact ⟨row, found, by omega⟩
    · exact reaches
  rcases receive_cases read empty request saved s with
    same | ⟨old, same⟩ | ⟨clients, checked, newer, same⟩
  · rw [same]
    exact moved _ current (fun answer member => .inl member) (by simp)
  · rw [same]
    refine moved _ current ?_ (by simp)
    intro answer member
    rcases List.mem_append.mp member with before | new
    · exact .inl before
    · rw [List.mem_singleton] at new
      subst new
      exact .inr ⟨rfl, inForce⟩
  · rw [same]
    refine moved ⟨request.revision, clients⟩ (.inr asked) ?_ ?_
    · intro answer member
      rcases List.mem_append.mp member with before | new
      · exact .inl before
      · rw [List.mem_singleton] at new
        subst new
        exact .inr ⟨rfl, asked⟩
    · intro node stored arrived
      simp only [List.mem_cons, Event.stored.injEq, reduceCtorEq, List.not_mem_nil, or_false]
        at arrived
      obtain ⟨rfl, rfl⟩ := arrived
      exact asked

theorem behind_step [DecidableEq α] (read : List α → Except String β) {past : List (Event β)}
    (behind : Behind empty past s) (step : Step α) (keeps : ¬step.Clears) :
    Behind empty (past ++ (exec read empty s step).2) (exec read empty s step).1 := by
  have same {rows : Table String (Row α)} (follows : Follows s.rows rows) :
      Behind empty (past ++ []) { s with rows } := by
    have moved := behind.rows_step [] follows (by simp)
    simpa only [List.append_nil] using moved
  have idle : Behind empty (past ++ []) s := same (Follows.refl _)
  cases step with
  | plan targets =>
    obtain ⟨follows, carried⟩ := plan_follows s.rows targets
    exact behind.rows_step _ follows carried
  | receive i saved =>
    cases found : s.requests[i]? with
    | none =>
      simp only [exec, found]
      exact idle
    | some request =>
      simp only [exec, found]
      exact receive_behind behind (List.mem_of_getElem? found) saved
  | answer k =>
    cases found : s.answers[k]? with
    | none =>
      simp only [exec, found]
      exact idle
    | some answer =>
      obtain ⟨request, inForce⟩ := answer
      simp only [exec, found]
      refine same (record_follows _ ?_)
      rintro held row same here
      cases same
      obtain ⟨known, stands, below⟩ := behind.answers _ _ (List.mem_of_getElem? found)
      rw [here] at stands
      cases stands
      exact below
  | fail i unimplemented =>
    cases found : s.requests[i]? with
    | none =>
      simp only [exec, found]
      exact idle
    | some request =>
      simp only [exec, found]
      exact same (record_follows _ fun held row none => by cases none)
  | restore => exact absurd trivial keeps
  | remove => exact absurd trivial keeps
  | restart => exact idle
  | lose node =>
    refine ⟨behind.requests, ?_, behind.answers, ?_⟩
    · intro other
      show (({ s with agents := s.agents.put node ⟨0, empty⟩ } : State α β).agent empty
        other).revision = 0 ∨ Reaches s.rows other (({ s with agents := s.agents.put node ⟨0, empty⟩ } :
          State α β).agent empty other).revision
      rw [agent_put]
      split_ifs
      · exact .inl rfl
      · exact behind.agents other
    · intro other newer arrived
      rcases List.mem_append.mp arrived with old | new
      · exact behind.stored other newer old
      · simp [exec] at new

theorem after_kept [DecidableEq α] (read : List α → Except String β) (empty : β)
    (steps : List (Step α)) :
    Kept read empty (after read empty steps).2 (after read empty steps).1 := by
  have start : Kept read empty [] (State.fresh : State α β) := by
    refine ⟨?_, by simp [State.fresh], ?_, by simp [State.fresh], ?_⟩
    · intro node row found
      cases found
    · intro node above
      simp [State.agent, State.fresh] at above
    · intro node row found
      cases found
  have kept := run_invariant (Kept read empty) (fun _ _ step kept => kept_step kept step) start steps
  rwa [List.nil_append] at kept

theorem behind_run [DecidableEq α] (read : List α → Except String β) {past : List (Event β)}
    (behind : Behind empty past s)
    (steps : List (Step α)) (keeps : ∀ step ∈ steps, ¬step.Clears) :
    Behind empty (past ++ (run (exec read empty) s steps).2) (run (exec read empty) s steps).1 := by
  induction steps generalizing past s with
  | nil => simpa using behind
  | cons step rest ih =>
    have one := behind_step read behind step (keeps step (List.mem_cons_self ..))
    have later := ih one fun step member => keeps step (List.mem_cons_of_mem _ member)
    simpa [run, List.append_assoc] using later

end Held
/-! A limit of one client, on one node. -/

def sampleLimit (sources : ℕ) : Admission.Client := ⟨"alice", "enforce", sources, 300, 60⟩

/-- A pass whose first request is lost; the second arrives twice and is acknowledged. -/
def sampleRetry : List (Step Admission.Client) :=
  [.plan [("node-1", [sampleLimit 2])], .fail 0 false, .plan [("node-1", [sampleLimit 2])],
    .receive 1 true, .receive 1 true, .answer 1]

/-- The row as the claim reads it: the agent holds the row's clients at the row's revision. -/
def Enforced (steps : List (Step Admission.Client)) : Prop :=
  ∀ node row, (after Admission.read ∅ steps).1.rows.lookup node = some row →
    row.status = .current → ∃ clients, Admission.read row.digest = .ok clients ∧
      (after Admission.read ∅ steps).1.agent ∅ node = ⟨row.revision, clients⟩

end Snapshots
end NodePlane
