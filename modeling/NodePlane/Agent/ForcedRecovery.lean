import NodePlane.Agent.AtMostOnce

/-! Forced recovery beside ordinary commands, from any journal: what prepare and retire
may change, and what stands afterwards. -/
namespace NodePlane
open Library
namespace Force

variable {p : Platform} {n : Node}

/-! No other call touches the tickets. -/

theorem attempt_tickets {ρ ε α : Type} (started : Node) (invocation : Invocation)
    (outcome : Outcome ρ) (failed : String → ε) (close : ρ → Except ε (Journal × α)) :
    (attempt started invocation outcome failed close).node.tickets = started.tickets := by
  obtain ⟨node, _⟩ | ⟨node, _⟩ | ⟨_, _, _, _, node, _⟩ :=
    attempt_cases started invocation outcome failed close
  · rw [node]
  · rw [node]
  · rw [node]

theorem apply_tickets (intent : Intent) (instanceId : String) (clock : Profile.Clock)
    (runner : Intent → Outcome Response) (n : Node) :
    (Profile.apply p intent instanceId clock runner n).node.tickets = n.tickets := by
  unfold Profile.apply
  split
  · rfl
  split
  · rfl
  dsimp only
  split
  · rfl
  · rfl
  · exact attempt_tickets _ _ _ _ _

theorem settings_tickets (intent : Json) (instanceId : String) (outcome : Outcome Response)
    (reached : Bool) (n : Node) :
    (SettingsJournal.apply p intent instanceId outcome reached n).node.tickets = n.tickets := by
  unfold SettingsJournal.apply
  split
  · rfl
  split
  · rfl
  split
  · rfl
  dsimp only
  split
  · rfl
  · rfl
  · exact attempt_tickets _ _ _ _ _

theorem operation_tickets (owner : Except String String) (instanceId requested commandId : String)
    (intent : Json) (recover : Bool) (outcome : Outcome Json) (reached : Bool) (n : Node) :
    (Operation.command p owner instanceId requested commandId intent recover outcome reached
      n).node.tickets = n.tickets := by
  unfold Operation.command
  dsimp only
  split
  · rfl
  split
  · rfl
  split
  · rfl
  split
  · rfl
  · rfl
  · rfl
  · exact attempt_tickets _ _ _ _ _

theorem resolveUnused_tickets (instanceId : String) (intent : Intent) (t : Temporary) (n : Node) :
    (Temporary.resolveUnused p instanceId intent t n).node.tickets = n.tickets := by
  have cancelled (opened : Node) :
      (Temporary.cancel p instanceId intent t opened).node.tickets = opened.tickets := by
    unfold Temporary.cancel
    repeat' split
    all_goals rfl
  unfold Temporary.resolveUnused
  split
  · rfl
  split
  · rfl
  dsimp only
  split
  · split
    · rfl
    split
    · rfl
    split
    · rfl
    · exact cancelled _
  · exact cancelled _

theorem temporary_tickets (view : Node) (instanceId action commandId : String) (value : Json)
    (recover : Bool) (clock : Profile.Clock) (t : Temporary) (n : Node) :
    (Temporary.temporary p view instanceId action commandId value recover clock t n).node.tickets =
      n.tickets := by
  have mutated (intent : Intent) :
      (Temporary.mutation p view instanceId action intent recover clock t n).node.tickets =
        n.tickets := by
    unfold Temporary.mutation
    split
    · rfl
    split
    · rfl
    split
    · rfl
    · exact apply_tickets intent instanceId clock t.mutate n
  unfold Temporary.temporary
  dsimp only
  repeat' split
  all_goals first | rfl | exact mutated _ | exact resolveUnused_tickets instanceId _ t n

theorem expire_tickets (instanceId : String) (now : Int) (runner : Intent → Outcome Response)
    (n : Node) : (Expiry.expire p instanceId now runner n).node.tickets = n.tickets := by
  have one (target : String × String) (lease : Lease) (n : Node) :
      (Expiry.expireLease p instanceId runner target lease n).node.tickets = n.tickets := by
    unfold Expiry.expireLease
    dsimp only
    split
    · rfl
    split
    · rfl
    · exact attempt_tickets _ _ _ _ _
  have scanned (rows : List Expiry.Row) : ∀ (found : Expiry.Scan) (n : Node),
      (Expiry.scan p instanceId now runner rows found n).node.tickets = n.tickets := by
    induction rows with
    | nil => exact fun _ _ => rfl
    | cons row rest ih =>
      intro found n
      unfold Expiry.scan
      split
      · exact ih found n
      dsimp only
      split
      · exact one row.1 row.2 n
      · exact one row.1 row.2 n
      · exact (ih _ _).trans (one row.1 row.2 n)
  unfold Expiry.expire
  split
  · rfl
  · exact scanned _ _ n

theorem decommission_tickets (command instanceId : String)
    (runner : Option (Intent → Outcome Response)) (persisted : Bool) (n : Node) :
    (Decommission.prepare p command instanceId runner persisted n).node.tickets = n.tickets := by
  have all (runner : Intent → Outcome Response) (intents : List Intent) : ∀ n : Node,
      (Decommission.revokeAll p instanceId runner intents n).node.tickets = n.tickets := by
    induction intents with
    | nil => exact fun _ => rfl
    | cons intent rest ih =>
      intro n
      have one : (Decommission.revokeOne p instanceId runner intent n).node.tickets =
          n.tickets := by
        unfold Decommission.revokeOne
        split
        · rfl
        · exact attempt_tickets _ _ _ _ _
      unfold Decommission.revokeAll
      dsimp only
      split
      · exact (ih _).trans one
      · exact one
  have revoked (runner : Intent → Outcome Response) :
      (Decommission.revokeProfiles p command instanceId runner n).node.tickets = n.tickets := by
    unfold Decommission.revokeProfiles
    dsimp only
    repeat' split
    all_goals first | rfl | exact all runner _ n
  unfold Decommission.prepare
  split
  · rfl
  split
  · rfl
  extract_lets first
  have same : first.node.tickets = n.tickets := by
    cases runner with
    | none => rfl
    | some runner =>
      by_cases file : n.journal.schema.file = true
      · simpa [first, file] using revoked runner
      · simp [first, file]
  clear_value first
  split
  · exact same
  · exact same
  split
  · exact same
  · show (Decommission.mark command persisted first.node).node.tickets = _
    unfold Decommission.mark
    dsimp only
    split
    · exact same
    · exact same

/-- Only prepare writes into the tickets. -/
theorem exec_tickets (n : Node) {call : Call}
    (other : ∀ spec instanceId view stopped, call ≠ .forcePrepare spec instanceId view stopped) :
    (Agent.exec p n call).1.tickets = n.tickets := by
  cases call with
  | applyProfile => exact apply_tickets _ _ _ _ n
  | applySettings => exact settings_tickets _ _ _ _ n
  | operation => exact operation_tickets _ _ _ _ _ _ _ _ n
  | temporary => exact temporary_tickets _ _ _ _ _ _ _ _ n
  | expire => exact expire_tickets _ _ _ n
  | decommission => exact decommission_tickets _ _ _ _ n
  | forcePrepare spec instanceId view stopped => exact absurd rfl (other spec instanceId view stopped)
  | resolveProfile intent instanceId inspection now =>
    show (Profile.resolveInterrupted p intent instanceId inspection now n).node.tickets = _
    unfold Profile.resolveInterrupted
    dsimp only
    repeat' split
    all_goals rfl
  | resolveSettings intent instanceId inspection now =>
    show (SettingsJournal.resolve p intent instanceId inspection now n).node.tickets = _
    unfold SettingsJournal.resolve SettingsJournal.repair
    dsimp only
    repeat' split
    all_goals rfl
  | supervise protocol now stopped =>
    show (Supervisor.supervise protocol now stopped n).node.tickets = _
    unfold Supervisor.supervise Supervisor.pruneLocked
    dsimp only
    repeat' split
    all_goals rfl
  | forceRetire spec instanceId free =>
    dsimp only [Agent.exec]
    split
    · rfl
    · next s _ =>
      show (retire s instanceId free n).node.tickets = _
      unfold retire
      dsimp only
      repeat' split
      all_goals rfl
  | legacy script args outcome =>
    show (Legacy.run script args outcome n).node.tickets = _
    unfold Legacy.run
    split
    · rfl
    split
    · rfl
    · exact attempt_tickets _ _ _ _ _
  | uninstall =>
    show (Legacy.uninstall n).node.tickets = _
    unfold Legacy.uninstall
    split
    · rfl
    · rfl

/-- The ticket that prepare publishes under an instance. -/
def ticket (s : Spec) (instanceId : String) : Json :=
  Json.object [("binding", .str s.binding), ("old_instance", .str instanceId)]

/-- The fence record of the command. -/
def dispatchFence (s : Spec) : Json :=
  Json.object [("binding", .str s.binding), ("command_id", .str s.commandId),
    ("node_key", .str s.nodeKey)]

theorem ticket_members (s : Spec) (instanceId : String) : ticket s instanceId =
    .obj [("binding", .str s.binding), ("old_instance", .str instanceId)] := by
  simp +decide [ticket, Json.object, Json.set, Json.insertMember]

@[simp] theorem ticket_binding (s : Spec) (instanceId : String) :
    (ticket s instanceId).field "binding" = .str s.binding := by
  rw [ticket_members]
  rfl

@[simp] theorem ticket_instance (s : Spec) (instanceId : String) :
    (ticket s instanceId).field "old_instance" = .str instanceId := by
  rw [ticket_members]
  rfl

@[simp] theorem dispatchFence_binding (s : Spec) :
    (dispatchFence s).field "binding" = .str s.binding := by
  simp +decide [dispatchFence, Json.object, Json.set, Json.insertMember, Json.field]

/-- The names of the two records never meet. -/
theorem ticketFile_ne_fenceFile (s t : Spec) : s.ticketFile ≠ t.fenceFile := by
  intro same
  have ends := congrArg (fun text : String => text.toList.getLast?) same
  simp only [Spec.ticketFile, Spec.fenceFile, String.toList_append] at ends
  rw [List.getLast?_append_of_ne_nil _ (by simp), List.getLast?_append_of_ne_nil _ (by simp)] at ends
  simp at ends

/-- A published record is the one that stood there, or the new one. -/
theorem publish_ok {tickets after : Table String Json} {name : String} {value found : Json}
    (published : publish tickets name value = .ok (after, found)) :
    found.field "binding" = value.field "binding" ∧ after.lookup name = some found ∧
      (tickets.lookup name = some found ∧ after = tickets ∨
        tickets.lookup name = none ∧ found = value ∧ after = tickets.put name value) := by
  unfold publish at published
  cases stood : tickets.lookup name with
  | none =>
    simp only [stood, Except.ok.injEq, Prod.mk.injEq] at published
    obtain ⟨rfl, rfl⟩ := published
    exact ⟨rfl, Table.lookup_put_self _ _ _, .inr ⟨rfl, rfl, rfl⟩⟩
  | some old =>
    simp only [stood] at published
    split_ifs at published with other
    cases published
    exact ⟨not_not.mp other, stood, .inl ⟨rfl, rfl⟩⟩

theorem publish_keeps {tickets after : Table String Json} {name other : String}
    {value found record : Json} (published : publish tickets name value = .ok (after, found))
    (stood : tickets.lookup other = some record) : after.lookup other = some record := by
  obtain ⟨-, -, ⟨-, rfl⟩ | ⟨absent, -, rfl⟩⟩ := publish_ok published
  · exact stood
  · rw [Table.lookup_put_ne]
    · exact stood
    · intro same
      rw [same, absent] at stood
      cases stood

/-- What stands in a file after a publication stood before, or was published. -/
theorem publish_source {tickets after : Table String Json} {name other : String}
    {value found record : Json} (published : publish tickets name value = .ok (after, found))
    (stands : after.lookup other = some record) :
    tickets.lookup other = some record ∨ other = name ∧ record = value := by
  obtain ⟨-, -, ⟨-, rfl⟩ | ⟨-, -, rfl⟩⟩ := publish_ok published
  · exact .inl stands
  · rw [Table.lookup_put] at stands
    split_ifs at stands with same
    · cases stands
      exact .inr ⟨same, rfl⟩
    · exact .inl stands

/-- The answer of prepare under a ticket that stands. -/
def prepared (s : Spec) (instanceId : String) (found : Json) : Json :=
  Json.object [("ticket_id", .str s.ticketId), ("node_key", .str s.nodeKey),
    ("restart_required", .bool (found.field "old_instance" = .str instanceId))]

/-- Prepare changes the tickets alone. -/
theorem prepare_node (s : Spec) (instanceId : String) (view : Journal) (stopped : Bool) (n : Node) :
    ∃ tickets, (prepare s instanceId view stopped n).node = { n with tickets } ∧
      (∀ name record, n.tickets.lookup name = some record →
        tickets.lookup name = some record) ∧
      ∀ name record, tickets.lookup name = some record →
        n.tickets.lookup name = some record ∨ name = s.fenceFile ∨
          name = s.ticketFile ∧ record = ticket s instanceId := by
  have unchanged : ∃ tickets, n = { n with tickets } ∧
      (∀ name record, n.tickets.lookup name = some record →
        tickets.lookup name = some record) ∧
      ∀ name record, tickets.lookup name = some record →
        n.tickets.lookup name = some record ∨ name = s.fenceFile ∨
          name = s.ticketFile ∧ record = ticket s instanceId :=
    ⟨n.tickets, rfl, fun _ _ stood => stood, fun _ _ stands => .inl stands⟩
  unfold prepare
  split
  · exact unchanged
  split
  · exact unchanged
  split
  · exact unchanged
  · next tickets found published =>
    have source : ∀ name record, tickets.lookup name = some record →
        n.tickets.lookup name = some record ∨ name = s.fenceFile ∨
          name = s.ticketFile ∧ record = ticket s instanceId := by
      intro name record stands
      exact (publish_source published stands).imp_right .inr
    dsimp only
    split
    · exact ⟨tickets, rfl, fun _ _ stood => publish_keeps published stood, source⟩
    split
    · exact ⟨tickets, rfl, fun _ _ stood => publish_keeps published stood, source⟩
    · next fenced _ again =>
      refine ⟨fenced, rfl, fun _ _ stood => publish_keeps again (publish_keeps published stood), ?_⟩
      intro name record stands
      rcases publish_source again stands with before | ⟨here, -⟩
      · exact source name record before
      · exact .inr (.inl here)

/-- An answered prepare found or published both records. -/
theorem prepare_ok {s : Spec} {instanceId : String} {view : Journal} {stopped : Bool} {a : Json}
    (answered : (prepare s instanceId view stopped n).answer = some (.ok a)) :
    instanceId ≠ "" ∧ ∃ found fence, a = prepared s instanceId found ∧
      found.field "binding" = .str s.binding ∧ fence.field "binding" = .str s.binding ∧
      (prepare s instanceId view stopped n).node.tickets.lookup s.ticketFile = some found ∧
      (prepare s instanceId view stopped n).node.tickets.lookup s.fenceFile = some fence := by
  unfold prepare at answered ⊢
  split at answered
  · cases answered
  · next named =>
    refine ⟨named, ?_⟩
    rw [if_neg named]
    split at answered
    · cases answered
    split at answered
    · cases answered
    · next tickets found published =>
      cases stopped with
      | true => cases answered
      | false =>
        dsimp only at answered ⊢
        rw [if_neg Bool.false_ne_true] at answered ⊢
        split at answered
        · cases answered
        · next fenced fence again =>
          cases answered
          obtain ⟨bound, stands, -⟩ := publish_ok published
          obtain ⟨bound', stands', -⟩ := publish_ok again
          refine ⟨found, fence, rfl, ?_, ?_, publish_keeps again stands, stands'⟩
          · rw [bound]
            exact ticket_binding s instanceId
          · rw [bound']
            exact dispatchFence_binding s

theorem publish_stands {tickets : Table String Json} {name : String} {value found : Json}
    (stands : tickets.lookup name = some found)
    (bound : found.field "binding" = value.field "binding") :
    publish tickets name value = .ok (tickets, found) := by
  simp [publish, stands, bound]

/-- Prepare under records of the same request answers from them and changes nothing. -/
theorem prepare_again {s : Spec} {instanceId : String} {view : Journal} {found fence : Json}
    (named : instanceId ≠ "") (open_ : cancellable s view = .ok ())
    (ticketed : n.tickets.lookup s.ticketFile = some found)
    (bound : found.field "binding" = .str s.binding)
    (fenced : n.tickets.lookup s.fenceFile = some fence)
    (bound' : fence.field "binding" = .str s.binding) :
    prepare s instanceId view false n = .reply n (.ok (prepared s instanceId found)) := by
  have first := publish_stands ticketed (bound.trans (ticket_binding s instanceId).symm)
  have second := publish_stands fenced (bound'.trans (dispatchFence_binding s).symm)
  unfold ticket at first
  unfold dispatchFence at second
  unfold prepare
  rw [if_neg named]
  simp only [open_, first, second, Bool.false_eq_true, if_false]
  rfl

/-- A prepare of a command that is closed, or another one, changes nothing. -/
theorem prepare_refused {s : Spec} {instanceId : String} {view : Journal} {err : String}
    (named : instanceId ≠ "") (refused : cancellable s view = .error err) (stopped : Bool) :
    prepare s instanceId view stopped n = .refuse n err := by
  unfold prepare
  rw [if_neg named]
  simp only [refused]

/-- The agent after `calls`, from any state. -/
def after (p : Platform) (n : Node) (calls : List Call) : Node := (run (Agent.exec p) n calls).1

/-- The runners that the calls started. -/
def history (p : Platform) (n : Node) (calls : List Call) : List Event :=
  (run (Agent.exec p) n calls).2

theorem after_steps (p : Platform) (n : Node) (calls : List Call) :
    Steps (Transition p) n (history p n calls) (after p n calls) :=
  run_steps (Agent.exec_steps p) n calls

/-- A call of prepare that published the ticket of `s` under the instance. -/
def Publishes (p : Platform) (s : Spec) (instanceId : String) (call : Call) : Prop :=
  ∃ spec t view stopped, call = .forcePrepare spec instanceId view stopped ∧
    check p spec = .ok t ∧ t.ticketFile = s.ticketFile ∧ t.binding = s.binding

/-- What one call does to the tickets. -/
theorem exec_tickets_cases (n : Node) (call : Call) :
    (Agent.exec p n call).1.tickets = n.tickets ∨
      ∃ spec t instanceId view stopped, call = .forcePrepare spec instanceId view stopped ∧
        check p spec = .ok t ∧
        (Agent.exec p n call).1 = (prepare t instanceId view stopped n).node := by
  by_cases prepares : ∃ spec instanceId view stopped,
      call = .forcePrepare spec instanceId view stopped
  · obtain ⟨spec, instanceId, view, stopped, rfl⟩ := prepares
    cases checked : check p spec with
    | error err =>
      left
      simp only [Agent.exec, checked]
    | ok t =>
      refine .inr ⟨spec, t, instanceId, view, stopped, rfl, checked, ?_⟩
      simp only [Agent.exec, checked]
      rfl
  · left
    apply exec_tickets n
    intro spec instanceId view stopped same
    exact prepares ⟨spec, instanceId, view, stopped, same⟩

theorem exec_keeps_ticket {call : Call} {name : String} {record : Json}
    (stood : n.tickets.lookup name = some record) :
    (Agent.exec p n call).1.tickets.lookup name = some record := by
  rcases exec_tickets_cases (p := p) n call with same | ⟨_, t, instanceId, view, stopped, _, _, node⟩
  · rw [same]
    exact stood
  · obtain ⟨tickets, prepared, keeps, _⟩ := prepare_node t instanceId view stopped n
    rw [node, prepared]
    exact keeps name record stood

/-- A ticket of the request stood before, or the call published it. -/
theorem exec_ticket_source {call : Call} {s : Spec} {record : Json}
    (stands : (Agent.exec p n call).1.tickets.lookup s.ticketFile = some record)
    (bound : record.field "binding" = .str s.binding) :
    n.tickets.lookup s.ticketFile = some record ∨
      ∃ instanceId, record.field "old_instance" = .str instanceId ∧
        Publishes p s instanceId call := by
  rcases exec_tickets_cases (p := p) n call with
    same | ⟨spec, t, instanceId, view, stopped, rfl, checked, node⟩
  · rw [same] at stands
    exact .inl stands
  · obtain ⟨tickets, prepared, _, source⟩ := prepare_node t instanceId view stopped n
    rw [node, prepared] at stands
    rcases source _ _ stands with before | fence | ⟨file, rfl⟩
    · exact .inl before
    · exact absurd fence (ticketFile_ne_fenceFile s t)
    · rw [ticket_binding] at bound
      refine .inr ⟨instanceId, ticket_instance t instanceId, spec, t, view, stopped, rfl, checked,
        file.symm, ?_⟩
      exact Json.str.inj bound

theorem after_keeps_ticket {calls : List Call} {name : String} {record : Json}
    (stood : n.tickets.lookup name = some record) :
    (after p n calls).tickets.lookup name = some record := by
  induction calls generalizing n with
  | nil => exact stood
  | cons call calls ih => exact ih (exec_keeps_ticket stood)

theorem after_ticket_source {calls : List Call} {s : Spec} {record : Json}
    (stands : (after p n calls).tickets.lookup s.ticketFile = some record)
    (bound : record.field "binding" = .str s.binding) :
    n.tickets.lookup s.ticketFile = some record ∨
      ∃ instanceId, record.field "old_instance" = .str instanceId ∧
        ∃ call ∈ calls, Publishes p s instanceId call := by
  induction calls generalizing n with
  | nil => exact .inl stands
  | cons call calls ih =>
    rcases ih stands with here | ⟨instanceId, old, later, among, published⟩
    · rcases exec_ticket_source here bound with before | ⟨instanceId, old, published⟩
      · exact .inl before
      · exact .inr ⟨instanceId, old, call, by simp, published⟩
    · exact .inr ⟨instanceId, old, later, List.mem_cons_of_mem _ among, published⟩

/-- What stands of the request when retire may change a row: its ticket names another
instance, and nobody holds the lock. -/
theorem retire_changes {s : Spec} {instanceId : String} {free : Bool}
    (changed : ¬n.journal.SameRows (retire s instanceId free n).node.journal) :
    free = true ∧ instanceId ≠ "" ∧ ∃ record, n.tickets.lookup s.ticketFile = some record ∧
      record.field "binding" = .str s.binding ∧
      record.field "old_instance" ≠ .str instanceId := by
  have unchanged : n.journal.SameRows n.journal := ⟨rfl, rfl, rfl, rfl⟩
  unfold retire at changed
  split at changed
  · exact absurd unchanged changed
  · next ok =>
    split at changed
    · exact absurd unchanged changed
    · next held =>
      refine ⟨by simpa using held, ?_⟩
      unfold ticketed at ok
      split at ok
      · next record fence stands _ =>
        split_ifs at ok with conflict restart
        simp only [Bool.or_eq_true, decide_eq_true_eq, not_or, not_not] at conflict restart
        exact ⟨restart.1, record, stands, conflict.1, restart.2⟩
      · cases ok

@[simp] theorem raise_commands (s : Spec) (j : Journal) : (raise s j).commands = j.commands := by
  have settings (j : Journal) (node : String) (fence : SettingsFence) :
      (j.raiseSettingsFence node fence).commands = j.commands := by
    unfold Journal.raiseSettingsFence
    split
    · split <;> rfl
    · rfl
  have profile (j : Journal) (target : String × String) (fence : Fence) :
      (j.raiseFence target fence).commands = j.commands := by
    unfold Journal.raiseFence
    split
    · split <;> rfl
    · rfl
  unfold raise
  split
  · exact settings _ _ _
  · exact profile _ _ _
  · rfl

theorem terminal_closed (s : Spec) : s.terminal ≠ .running := by
  unfold Spec.terminal
  split <;> simp

/-- The row of a command that was retired under the request. -/
structure Retired (s : Spec) (row : Command) : Prop where
  fingerprint : row.fingerprint = s.fingerprint
  status : row.status = s.terminal
  response : row.response.getD (.obj []) = s.receipt

/-- What an answered retirement answers, and the row it leaves. -/
theorem retire_ok {s : Spec} {instanceId : String} {free : Bool} {receipt : Json}
    (answered : (retire s instanceId free n).answer = some (.ok receipt)) :
    receipt = s.receipt ∧ ticketed s instanceId n.tickets = .ok () ∧
      (retire s instanceId free n).node.tickets = n.tickets ∧
      ∃ row, (retire s instanceId free n).node.journal.commands.lookup s.commandId = some row ∧
        Retired s row := by
  unfold retire at answered ⊢
  split at answered
  · cases answered
  · next ok =>
    split at answered
    · cases answered
    · next held =>
      rw [if_neg held]
      split at answered
      · cases answered
      · next enabled =>
        rw [if_neg enabled]
        dsimp only at answered ⊢
        split at answered
        · next row found =>
          split_ifs at answered with other closed unlike unfinished
          · cases answered
          · cases answered
          · cases answered
            rw [if_neg other, if_pos closed, if_neg unlike]
            exact ⟨rfl, ok, rfl, row, found, not_not.mp other, closed, not_not.mp unlike⟩
          · cases answered
          · cases answered
            rw [if_neg other, if_neg closed, if_neg unfinished]
            refine ⟨rfl, ok, rfl, { row with status := s.terminal, response := some s.receipt }, ?_,
              not_not.mp other, rfl, rfl⟩
            rw [Ran.reply_node, raise_commands, Journal.closeCommand, Table.lookup_alter,
              if_pos rfl, found]
            rfl
        · next found =>
          cases answered
          refine ⟨rfl, ok, rfl, ⟨s.fingerprint, s.terminal, some s.receipt, instanceId⟩, ?_, rfl, rfl,
            rfl⟩
          rw [Ran.reply_node, raise_commands]
          exact Table.lookup_put_self _ _ _

/-- Under the ticket of the request and its retired row, retire answers the receipt
again and changes no row. -/
theorem retire_again {s : Spec} {instanceId : String} {row : Command}
    (ticketed : ticketed s instanceId n.tickets = .ok ()) (enabled : n.marker = none)
    (found : n.journal.commands.lookup s.commandId = some row) (retired : Retired s row) :
    (retire s instanceId true n).answer = some (.ok s.receipt) ∧
      n.Alike (retire s instanceId true n).node := by
  have same : retire s instanceId true n =
      .reply { n with journal := n.journal.commandsSchema } (.ok s.receipt) := by
    have found' : n.journal.commandsSchema.commands.lookup s.commandId = some row := found
    unfold retire
    simp [ticketed, Node.disabled, enabled, found', retired.fingerprint, retired.status,
      retired.response]
  rw [same]
  exact ⟨rfl, Node.alike ⟨rfl, rfl, rfl, rfl⟩⟩

/-- The identity of a local expiry is no ticket's. -/
theorem expiryId_foreign (lease : Lease) : forceIdentity (Expiry.expiryId p lease) = false := by
  rw [Bool.eq_false_iff]
  intro uuid
  simp only [forceIdentity, Bool.and_eq_true, List.all_eq_true] at uuid
  have second : ('x', 1) ∈ (Expiry.expiryId p lease).toList.zipIdx := by
    simp [Expiry.expiryId, String.toList_append, List.zipIdx_cons]
  exact absurd (uuid.2 _ second) (by decide)

/-- A closed command does not begin again, except as a local expiry. -/
theorem closed_begin {j k : Journal} {invocation : Invocation} (begun : Begin p j invocation k)
    {id : String} {row : Command} (found : j.commands.lookup id = some row)
    (closed : row.status ≠ .running) (uuid : forceIdentity id = true) :
    invocation.commandId ≠ some id := by
  intro command
  have absent {other : String} (new : j.commands.lookup other = none) (same : other = id) : False := by
    rw [same, found] at new
    cases new
  cases begun with
  | ensure instanceId granted valid ensures new => exact absent new (Option.some.inj command)
  | delete instanceId granted valid deletes new => exact absent new (Option.some.inj command)
  | retry instanceId granted valid deletes known unfinished =>
    cases command
    cases found.symm.trans known
    exact closed unfinished
  | @expiry target lease =>
    cases command
    rw [show (deleteIntent (Expiry.expiryId p lease) _ _).commandId = Expiry.expiryId p lease from rfl,
      expiryId_foreign] at uuid
    cases uuid
  | decommission instanceId new => exact absent new (Option.some.inj command)
  | settings instanceId wrote checked new =>
    exact absent new (Option.some.inj ((Settings.check_identity checked).2.1.symm.trans command))
  | operation instanceId wrote carries checked new => exact absent new (Option.some.inj command)

/-- A closed command starts no runner; only a local expiry takes no notice of rows,
and its name is no ticket's. -/
theorem closed_never_runs {m : Node} {events : List Event} {id : String} {row : Command}
    (steps : Steps (Transition p) n events m)
    (found : n.journal.commands.lookup id = some row) (closed : row.status ≠ .running)
    (uuid : forceIdentity id = true) : ∀ e ∈ events, e.invocation.commandId ≠ some id := by
  induction steps with
  | refl => simp
  | @head n t u es fs step _ ih =>
    obtain ⟨next, kept, le⟩ :=
      (Agent.extends_steps (Steps.single step)).commands id row found
    have same := le.2 closed
    rw [same] at kept
    intro e ran
    rcases List.mem_append.mp ran with first | later
    · cases step with
      | tickets | quiet | start | mark => cases first
      | script enabled name args =>
        rw [List.mem_singleton.mp first]
        simp [Invocation.commandId]
      | invoke enabled file begun =>
        rw [List.mem_singleton.mp first]
        exact closed_begin begun found closed uuid
    · exact ih kept e later

theorem uuidText_ok {value : Json} {text : String} (ok : uuidText value = .ok text) :
    forceIdentity text = true := by
  unfold uuidText at ok
  split at ok
  · cases ok
  · split_ifs at ok with uuid
    cases ok
    exact uuid

/-- A checked ticket request names its command by a UUID. -/
theorem check_identity {spec : Json} {s : Spec} (checked : check p spec = .ok s) :
    forceIdentity s.commandId = true := by
  have named : uuidText (spec.field "command_id") = .ok s.commandId := by
    unfold check at checked
    simp only [bind, Except.bind, pure, Except.pure] at checked
    split at checked
    · cases checked
    split at checked
    · cases checked
    split at checked
    · cases checked
    split at checked
    · cases checked
    · next id named =>
      rw [named]
      repeat' split at checked
      all_goals cases checked
      all_goals rfl
  exact uuidText_ok named

/-- No profile's fence and no settings fence goes down. -/
def FencesRise (j k : Journal) : Prop :=
  (∀ target fence, j.fences.lookup target = some fence →
    ∃ next, k.fences.lookup target = some next ∧ fence.revision ≤ next.revision) ∧
  ∀ node fence, j.settingsFence.lookup node = some fence →
    ∃ next, k.settingsFence.lookup node = some next ∧ fence.revision ≤ next.revision

theorem fences_rise {j k : Journal} (grows : j.Extends k) : FencesRise j k := by
  constructor
  · intro target fence fenced
    obtain ⟨next, found, risen⟩ := grows.fences target fence fenced
    exact ⟨next, found, risen.revision⟩
  · exact grows.settingsFence

/-- The running instance is not the one under which the ticket of `s` was prepared, in
`calls` or before them. -/
def Restarted (p : Platform) (n : Node) (calls : List Call) (s : Spec) (instanceId : String) :
    Prop :=
  (∃ record, n.tickets.lookup s.ticketFile = some record ∧
    record.field "old_instance" ≠ .str instanceId) ∨
  ∃ old, old ≠ instanceId ∧ ∃ call ∈ calls, Publishes p s old call

theorem restarted {calls : List Call} {s : Spec} {instanceId : String} {record : Json}
    (stands : (after p n calls).tickets.lookup s.ticketFile = some record)
    (bound : record.field "binding" = .str s.binding)
    (other : record.field "old_instance" ≠ .str instanceId) : Restarted p n calls s instanceId := by
  rcases after_ticket_source stands bound with before | ⟨old, named, call, among, published⟩
  · exact .inl ⟨record, before, other⟩
  · refine .inr ⟨old, ?_, call, among, published⟩
    intro same
    rw [named, same] at other
    exact other rfl

/-- What an answered retirement leaves for every later run. -/
theorem retire_final {spec : Json} {s : Spec} {instanceId : String} {free : Bool} {receipt : Json}
    (checked : check p spec = .ok s)
    (answered : (retire s instanceId free n).answer = some (.ok receipt)) (calls : List Call) :
    let first := (retire s instanceId free n).node
    let m := after p first calls
    (∀ e ∈ history p first calls, e.invocation.commandId ≠ some s.commandId) ∧
      (m.marker = none → (retire s instanceId true m).answer = some (.ok receipt) ∧
        m.Alike (retire s instanceId true m).node) := by
  obtain ⟨rfl, ok, same, row, found, retired⟩ := retire_ok answered
  have closed : row.status ≠ .running := retired.status ▸ terminal_closed s
  intro first m
  have steps := after_steps p first calls
  refine ⟨closed_never_runs steps found closed (check_identity checked), fun enabled => ?_⟩
  obtain ⟨next, kept, le⟩ := (Agent.extends_steps steps).commands _ row found
  have unchanged := le.2 closed
  rw [unchanged] at kept
  refine retire_again ?_ enabled kept retired
  -- Both records still stand as the first retirement read them.
  unfold ticketed at ok ⊢
  split at ok
  · next record fence stands fenced =>
    have stands' : m.tickets.lookup s.ticketFile = some record :=
      after_keeps_ticket (same.symm ▸ stands)
    have fenced' : m.tickets.lookup s.fenceFile = some fence :=
      after_keeps_ticket (same.symm ▸ fenced)
    simp only [stands', fenced']
    exact ok
  · cases ok

/-- What an answered prepare leaves: later it answers the same, unless the command is
closed by then, and changes nothing. -/
theorem prepare_final {s : Spec} {instanceId : String} {view : Journal} {stopped : Bool} {a : Json}
    (answered : (prepare s instanceId view stopped n).answer = some (.ok a)) (calls : List Call) :
    let m := after p (prepare s instanceId view stopped n).node calls
    ∀ view', (cancellable s view' = .ok () →
        prepare s instanceId view' false m = .reply m (.ok a)) ∧
      ∀ err, cancellable s view' = .error err → prepare s instanceId view' false m = .refuse m err := by
  obtain ⟨named, found, fence, rfl, bound, bound', stands, fenced⟩ := prepare_ok answered
  intro m view'
  refine ⟨fun open_ => ?_, fun err refused => prepare_refused named refused false⟩
  exact prepare_again named open_ (after_keeps_ticket stands) bound (after_keeps_ticket fenced) bound'

end Force
end NodePlane
