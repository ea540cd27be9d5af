import NodePlane.Library.ListEdit
import NodePlane.Agent.JsonEdit
import NodePlane.Xray.Api

/-! One client in Xray's config file and in its two live inbounds: the sync of a client, whose calls to
Xray can each fail, and runs of syncs between which Xray restarts from the file. -/
namespace NodePlane
namespace Xray
namespace UserSync
open Library

def vision : String := "xtls-rprx-vision"

/-- What Xray holds for one user: UUID and flow. -/
abbrev Live := String × String

inductive Action
  | add (uuid : String)
  | delete
  deriving DecidableEq, Repr

/-- The TCP (Vision) and XHTTP inbounds. -/
structure Target where
  tcpTag : String
  xhttpTag : String
  deriving DecidableEq, Repr

def Target.tags (t : Target) : List String := [t.tcpTag, t.xhttpTag]

/-- The client name an email belongs to. -/
def nameOf (email : String) : String := String.ofList (email.toList.takeWhile (· ≠ '.'))

/-- The client name of a config entry. -/
def clientName (client : Json) : Option String :=
  (client.field "name").asStr.or ((client.field "email").asStr.map nameOf)

def named (name : String) (client : Json) : Bool := clientName client = some name

def missing : String := "Xray TCP/XHTTP inbound is missing"

def inboundTagged (tag : String) (inbound : Json) : Bool := (inbound.field "tag").asStr = some tag

/-- The clients of the inbound. -/
def clients (config : Json) (tag : String) : Option (List Json) :=
  (((config.field "inbounds").asArray.bind fun inbounds => inbounds.find? (inboundTagged tag))).bind
    fun inbound => ((inbound.field "settings").field "clients").asArray

/-- The inbound with its clients edited in place. -/
def editInbound (edit : List Json → List Json) (inbound : Json) : Except String Json :=
  match ((inbound.field "settings").field "clients").asArray with
  | none => .error missing
  | some clients =>
    .ok (inbound.put "settings"
      ((inbound.field "settings").put "clients" (.arr (edit clients))))

def editClients (config : Json) (tag : String) (edit : List Json → List Json) :
    Except String Json :=
  match (config.field "inbounds").asArray with
  | none => .error missing
  | some inbounds =>
    (updateFirst (inboundTagged tag) (editInbound edit) missing inbounds).map fun inbounds =>
      config.put "inbounds" (.arr inbounds)

def flow (t : Target) (tag : String) : String := if tag = t.tcpTag then vision else ""

/-- The config entry of a client. -/
def entry (t : Target) (name uuid tag : String) : Json :=
  let client : Json := .obj [("email", .str (email name tag)), ("id", .str uuid), ("name", .str name)]
  if tag = t.tcpTag then client.put "flow" (.str vision) else client

/-- The entries of the client that an action asks for on one inbound. -/
def entries (t : Target) (name : String) (action : Action) (tag : String) : List Json :=
  match action with
  | .add uuid => [entry t name uuid tag]
  | .delete => []

/-- One inbound of `edit_config`, with whether it changed. -/
def editTag (t : Target) (name : String) (action : Action) (config : Json) (tag : String) :
    Except String (Json × Bool) :=
  match clients config tag with
  | none => .error missing
  | some list =>
    (editClients config tag fun list =>
        (list.filter fun c => !named name c) ++ entries t name action tag).map fun config =>
      (config, match action with
        | .add uuid => list.find? (named name) ≠ some (entry t name uuid tag)
        | .delete => (list.find? (named name)).isSome)

/-- Changes `config` for the action and returns whether it changed. -/
def editConfig (t : Target) (name : String) (action : Action) (config : Json) :
    Except String (Json × Bool) :=
  match editTag t name action config t.tcpTag with
  | .error err => .error err
  | .ok (config, changed) =>
    (editTag t name action config t.xhttpTag).map fun next => (next.1, changed || next.2)

/-- The config file, and the users of the running Xray by inbound and email. -/
structure State where
  file : Json
  live : String → String → Option Live

/-- The calls of a sync that can fail; the second inbound is that of XHTTP. -/
inductive Step
  | users (second : Bool)
  | write
  | remove (second : Bool)
  | add (second : Bool)
  | check (second : Bool)
  deriving DecidableEq, Repr

abbrev Answer := Step → Outcome

abbrev Done := State × Except String Unit

/-- Goes on where a step has not failed. -/
def Done.andThen (done : Done) (next : State → Done) : Done :=
  match done.2 with
  | .ok _ => next done.1
  | .error err => (done.1, .error err)

/-- A change under the outcome it meets. -/
def perform (outcome : Outcome) (s next : State) : Done :=
  match outcome with
  | .answered => (next, .ok ())
  | .refused => (s, .error "unavailable")
  | .lost => (next, .error "unavailable")

def State.setLive (s : State) (tag email : String) (user : Option Live) : State :=
  { s with live := fun t e => if t = tag ∧ e = email then user else s.live t e }

/-- Xray refuses to remove a user that it does not have. -/
def removeUser (outcome : Outcome) (tag email : String) (s : State) : Done :=
  if (s.live tag email).isNone then (s, .error "rejected")
  else perform outcome s (s.setLive tag email none)

/-- Xray refuses a user whose email it has. -/
def addUser (outcome : Outcome) (tag email : String) (user : Live) (s : State) : Done :=
  if (s.live tag email).isSome then (s, .error "rejected")
  else perform outcome s (s.setLive tag email (some user))

/-- What the action asks for on one live inbound. -/
def desired (t : Target) (action : Action) (tag : String) : Option Live :=
  match action with
  | .add uuid => some (uuid, flow t tag)
  | .delete => none

section Sync
variable (t : Target) (name : String) (action : Action) (answer : Answer)

/-- The read of an inbound after its change. -/
def check (second : Bool) (tag : String) (s : State) : Done :=
  if (answer (.check second)).fails then (s, .error "unavailable")
  else if s.live tag (email name tag) = desired t action tag then (s, .ok ())
  else
    (s, .error (match action with
      | .add _ => "Xray user mismatch after add on " ++ tag
      | .delete => "Xray user still present on " ++ tag))

/-- The live change of one inbound, on which `seen` was read. -/
def settle (second : Bool) (tag : String) (seen : Option Live) (s : State) : Done :=
  let removed : Done :=
    if seen.isSome then removeUser (answer (.remove second)) tag (email name tag) s else (s, .ok ())
  match action with
  | .add uuid =>
    if seen = some (uuid, flow t tag) then (s, .ok ())
    else
      (removed.andThen (addUser (answer (.add second)) tag (email name tag) (uuid, flow t tag))).andThen
        (check t name action answer second tag)
  | .delete => removed.andThen (check t name action answer second tag)

/-- Applies the action to the config file and the live users. -/
def sync (s : State) : Done :=
  if (answer (.users false)).fails || (answer (.users true)).fails then (s, .error "unavailable")
  else
    match editConfig t name action s.file with
    | .error err => (s, .error err)
    | .ok (config, changed) =>
      let saved : Done :=
        if changed then perform (answer .write) s { s with file := config } else (s, .ok ())
      (saved.andThen (settle t name action answer false t.tcpTag
          (s.live t.tcpTag (email name t.tcpTag)))).andThen
        (settle t name action answer true t.xhttpTag (s.live t.xhttpTag (email name t.xhttpTag)))

end Sync

def validEmail (value : String) : Bool :=
  !value.isEmpty && value.toList.length ≤ 64 &&
    value.toList.all fun c => c.isAlphanum || c = '_' || c = '-'

def validUuid (value : String) : Bool :=
  value.toList.length = 36 && value.toList.zipIdx.all fun c =>
    if c.2 ∈ [8, 13, 18, 23] then c.1 = '-' else c.1.isDigit || 'a' ≤ c.1 && c.1 ≤ 'f'

def Action.valid : Action → Bool
  | .add uuid => validUuid uuid
  | .delete => true

/-- UUIDs are compared in lower case. -/
def Action.lower : Action → Action
  | .add uuid => .add (String.ofList (uuid.toList.map Char.toLower))
  | .delete => .delete

/-- The subcommand: its arguments and the inbounds of the file are checked before the sync. -/
def execute (t : Target) (name : String) (action : Action) (answer : Answer) (s : State) : Done :=
  if !action.lower.valid then (s, .error "invalid uuid")
  else if !validEmail name then (s, .error "invalid profile name")
  else if !validTag t.tcpTag || !validTag t.xhttpTag then (s, .error "invalid Xray inbound tag")
  else if (clients s.file t.tcpTag).isNone || (clients s.file t.xhttpTag).isNone then
    (s, .error missing)
  else sync t name action.lower answer s

/-- The users that Xray loads from the file. -/
def loaded (config : Json) (tag email : String) : Option Live :=
  ((clients config tag).bind fun list => list.find? fun c => (c.field "email").asStr = some email).map
    fun c => ((c.field "id").asStr.getD "", (c.field "flow").asStr.getD "")

/-- What happens to the node: the subcommand runs with its arguments, or Xray restarts. -/
inductive Happening
  | sync (name : String) (action : Action) (answer : Answer)
  | restart

def happen (t : Target) (s : State) : Happening → State
  | .sync name action answer => (execute t name action answer s).1
  | .restart => { s with live := loaded s.file }

def Happening.about (name : String) : Happening → Bool
  | .sync other _ _ => other = name
  | .restart => false

def after (t : Target) (s : State) (run : List Happening) : State := run.foldl (happen t) s

/-! The config entries. -/

section Entries
variable {t : Target} {name uuid tag : String} {action : Action} {config next : Json}

theorem clientName_entry : clientName (entry t name uuid tag) = some name := by
  unfold entry
  dsimp only
  split <;> rfl

theorem email_entry : (entry t name uuid tag).field "email" = .str (email name tag) := by
  unfold entry
  dsimp only
  split <;> rfl

theorem id_entry : (entry t name uuid tag).field "id" = .str uuid := by
  unfold entry
  dsimp only
  split <;> rfl

theorem flow_entry : ((entry t name uuid tag).field "flow").asStr.getD "" = flow t tag := by
  unfold entry flow
  dsimp only
  split <;> rfl

theorem named_of_entries {c : Json} (listed : c ∈ entries t name action tag) : clientName c = some name := by
  cases action with
  | add uuid =>
    rw [List.mem_singleton.mp listed]
    exact clientName_entry
  | delete => cases listed

/-- The clients of an inbound after its edit. -/
def rewritten (t : Target) (name : String) (action : Action) (tag : String) (list : List Json) :
    List Json :=
  (list.filter fun c => !named name c) ++ entries t name action tag

theorem rewritten_named (list : List Json) :
    (rewritten t name action tag list).filter (named name) = entries t name action tag := by
  have own : (entries t name action tag).filter (named name) = entries t name action tag := by
    apply List.filter_eq_self.mpr
    intro c listed
    rw [named, named_of_entries listed, decide_eq_true_iff]
  rw [rewritten, List.filter_append, List.filter_filter, own, List.filter_eq_nil_iff.mpr,
    List.nil_append]
  intro c _
  cases named name c <;> decide

theorem rewritten_others (list : List Json) {other : String} (apart : other ≠ name) :
    (rewritten t name action tag list).filter (named other) = list.filter (named other) := by
  have none_ : (entries t name action tag).filter (named other) = [] := by
    apply List.filter_eq_nil_iff.mpr
    intro c listed
    rw [named, named_of_entries listed, decide_eq_true_iff, Option.some.injEq]
    exact fun same => apart same.symm
  rw [rewritten, List.filter_append, List.filter_filter, none_, List.append_nil]
  apply List.filter_congr
  intro c _
  by_cases its : clientName c = some other
  · simp [named, its, apart]
  · simp [named, its]

theorem rewritten_rest (list : List Json) :
    (rewritten t name action tag list).filter (fun c => !named name c) =
      list.filter fun c => !named name c := by
  have none_ : (entries t name action tag).filter (fun c => !named name c) = [] := by
    apply List.filter_eq_nil_iff.mpr
    intro c listed
    simp [named, named_of_entries listed]
  rw [rewritten, List.filter_append, List.filter_filter, none_, List.append_nil]
  apply List.filter_congr
  intro c _
  rw [Bool.and_self]

theorem rewritten_again (list : List Json) :
    rewritten t name action tag (rewritten t name action tag list) =
      rewritten t name action tag list := by
  rw [rewritten, rewritten_rest, ← rewritten]

theorem inboundTagged_iff {inbound : Json} :
    inboundTagged tag inbound = true ↔ inbound.field "tag" = .str tag := by
  rw [inboundTagged, decide_eq_true_iff]
  cases inbound.field "tag" <;> simp [Json.asStr]

theorem editInbound_ok {edit : List Json → List Json} {inbound after : Json}
    (tagged : inboundTagged tag inbound = true) (done : editInbound edit inbound = .ok after) :
    (∀ other, inboundTagged other after = inboundTagged other inbound) ∧
      ∃ list, ((inbound.field "settings").field "clients").asArray = some list ∧
        ((after.field "settings").field "clients").asArray = some (edit list) := by
  have object : inbound.isObject = true := by
    apply Json.isObject_of_field (j := "tag")
    rw [inboundTagged_iff.mp tagged]
    exact Json.noConfusion
  unfold editInbound at done
  split at done
  next => cases done
  next list found =>
    have inner : (inbound.field "settings").isObject = true := by
      apply Json.isObject_of_field (j := "clients")
      intro null
      rw [null] at found
      cases found
    cases done
    refine ⟨?_, list, found, ?_⟩
    · intro other
      rw [inboundTagged, Json.field_put object, if_neg (by decide), ← inboundTagged]
    · rw [Json.field_put object, if_pos rfl, Json.field_put inner, if_pos rfl]
      rfl

theorem editClients_ok {edit : List Json → List Json} (done : editClients config tag edit = .ok next) :
    (∃ list, clients config tag = some list ∧ clients next tag = some (edit list)) ∧
      (∀ other, other ≠ tag → clients next other = clients config other) ∧
      ∀ key, key ≠ "inbounds" → next.field key = config.field key := by
  unfold editClients at done
  split at done
  next => cases done
  next inbounds found =>
    have object : config.isObject = true := by
      apply Json.isObject_of_field (j := "inbounds")
      intro null
      rw [null] at found
      cases found
    obtain ⟨edited, changed, rfl⟩ := map_ok.mp done
    have reads (other : String) : clients (config.put "inbounds" (.arr edited)) other =
        (edited.find? (inboundTagged other)).bind fun inbound =>
          ((inbound.field "settings").field "clients").asArray := by
      rw [clients, Json.field_put object, if_pos rfl]
      rfl
    have read (other : String) : clients config other =
        (inbounds.find? (inboundTagged other)).bind fun inbound =>
          ((inbound.field "settings").field "clients").asArray := by
      rw [clients, found]
      rfl
    refine ⟨?_, ?_, ?_⟩
    · obtain ⟨a, b, first, made, stays⟩ := updateFirst_find changed
      have tagged : inboundTagged tag a = true := List.find?_some first
      obtain ⟨tags, list, before, now⟩ := editInbound_ok tagged made
      refine ⟨list, ?_, ?_⟩
      · rw [read, first]
        exact before
      · rw [reads, stays (by rw [tags, tagged])]
        exact now
    · intro other differs
      rw [reads, read, updateFirst_find_frame changed]
      intro a b tagged made
      have apart : inboundTagged other a = false := by
        rw [Bool.eq_false_iff]
        intro also
        rw [inboundTagged_iff] at tagged also
        rw [tagged] at also
        exact differs (Json.str.inj also).symm
      exact ⟨apart, by rw [(editInbound_ok tagged made).1, apart]⟩
    · intro key other
      rw [Json.field_put object, if_neg other]

/-- What an edit makes of the two inbounds and of the rest of the config. -/
structure Edited (t : Target) (name : String) (action : Action) (config next : Json) (changed : Bool) :
    Prop where
  inside : ∀ tag ∈ t.tags, ∃ list, clients config tag = some list ∧
    clients next tag = some (rewritten t name action tag list)
  outside : ∀ tag, tag ∉ t.tags → clients next tag = clients config tag
  fields : ∀ key, key ≠ "inbounds" → next.field key = config.field key
  same : changed = false → ∀ tag ∈ t.tags, ∀ list, clients config tag = some list →
    list.find? (named name) = (entries t name action tag).head?

theorem editTag_ok {changed : Bool} (done : editTag t name action config tag = .ok (next, changed)) :
    (∃ list, clients config tag = some list ∧ clients next tag = some (rewritten t name action tag list) ∧
        (changed = false → list.find? (named name) = (entries t name action tag).head?)) ∧
      (∀ other, other ≠ tag → clients next other = clients config other) ∧
      ∀ key, key ≠ "inbounds" → next.field key = config.field key := by
  unfold editTag at done
  split at done
  next => cases done
  next list found =>
    obtain ⟨edited, made, same⟩ := map_ok.mp done
    cases same
    obtain ⟨⟨all, before, now⟩, others, fields⟩ := editClients_ok made
    rw [found] at before
    cases before
    refine ⟨⟨list, found, now, ?_⟩, others, fields⟩
    intro unchanged
    cases action with
    | add uuid =>
      rw [decide_eq_false_iff_not, not_not] at unchanged
      exact unchanged
    | delete => exact Option.isNone_iff_eq_none.mp (Option.isSome_eq_false_iff.mp unchanged)

theorem editConfig_ok {after : Json} {changed : Bool}
    (done : editConfig t name action config = .ok (after, changed)) :
    Edited t name action config after changed := by
  unfold editConfig at done
  split at done
  next => cases done
  next mid first made =>
    obtain ⟨⟨edited, second⟩, made', same⟩ := map_ok.mp done
    cases same
    obtain ⟨⟨list, before, now, known⟩, others, fields⟩ := editTag_ok made
    obtain ⟨⟨list', before', now', known'⟩, others', fields'⟩ := editTag_ok made'
    have tcp : ∃ list, clients config t.tcpTag = some list ∧
        clients edited t.tcpTag = some (rewritten t name action t.tcpTag list) := by
      refine ⟨list, before, ?_⟩
      by_cases apart : t.tcpTag = t.xhttpTag
      · -- Both tags name one inbound, which is written twice.
        rw [← apart] at before' now'
        rw [now] at before'
        cases before'
        rw [rewritten_again] at now'
        exact now'
      · rw [others' _ apart, now]
    have xhttp : t.tcpTag ≠ t.xhttpTag → clients config t.xhttpTag = some list' := fun apart => by
      rw [← others _ (Ne.symm apart), before']
    refine ⟨?_, ?_, ?_, ?_⟩
    · intro tag listed
      rcases List.mem_cons.mp listed with rfl | later
      · exact tcp
      · rw [List.mem_singleton.mp later]
        by_cases apart : t.tcpTag = t.xhttpTag
        · rw [← apart]
          exact tcp
        · exact ⟨list', xhttp apart, now'⟩
    · intro tag out
      rw [Target.tags, List.mem_cons, List.mem_singleton, not_or] at out
      rw [others' tag out.2, others tag out.1]
    · intro key other
      rw [fields' key other, fields key other]
    · intro unchanged tag listed all found
      rw [Bool.or_eq_false_iff] at unchanged
      have here : tag = t.tcpTag → all.find? (named name) = (entries t name action tag).head? := by
        rintro rfl
        rw [before] at found
        cases found
        exact known unchanged.1
      rcases List.mem_cons.mp listed with first | later
      · exact here first
      · have second := List.mem_singleton.mp later
        by_cases apart : t.tcpTag = t.xhttpTag
        · exact here (second.trans apart.symm)
        · subst second
          rw [xhttp apart] at found
          cases found
          exact known' unchanged.2

end Entries

/-! One sync. -/

/-- No inbound lists a client twice, and an entry's email is its client's. -/
structure Sound (t : Target) (config : Json) : Prop where
  single : ∀ tag ∈ t.tags, ∀ list, clients config tag = some list →
    ∀ name, (list.filter (named name)).length ≤ 1
  owned : ∀ tag ∈ t.tags, ∀ list, clients config tag = some list →
    ∀ c ∈ list, ∀ e, c.field "email" = .str e → clientName c = some (nameOf e)

/-- The file holds exactly the entries of the client that the action asks for. -/
def Filed (t : Target) (name : String) (action : Action) (config : Json) : Prop :=
  ∀ tag ∈ t.tags, ∃ list, clients config tag = some list ∧
    list.filter (named name) = entries t name action tag

/-- The file and the live inbounds hold exactly what the action asks for. -/
structure Applied (t : Target) (name : String) (action : Action) (s : State) : Prop where
  file : Filed t name action s.file
  live : ∀ tag ∈ t.tags, s.live tag (email name tag) = desired t action tag

section Sync
variable {t : Target} {name : String} {action : Action} {answer : Answer} {s u : State}

theorem nameOf_email {tag : String} (plain : '.' ∉ name.toList) : nameOf (email name tag) = name := by
  have whole : (email name tag).toList = name.toList ++ '.' :: tag.toList := by simp [email]
  rw [nameOf, whole, List.takeWhile_append_of_pos]
  · simp
  · intro c inside
    rw [decide_eq_true_iff]
    rintro rfl
    exact plain inside

theorem Sound.edited {config edited : Json} {changed : Bool} (sound : Sound t config)
    (plain : '.' ∉ name.toList) (made : Edited t name action config edited changed) :
    Sound t edited where
  single := by
    intro tag listed all found other
    obtain ⟨list, before, now⟩ := made.inside tag listed
    rw [now] at found
    cases found
    by_cases apart : other = name
    · rw [apart, rewritten_named]
      cases action with
      | add uuid => exact Nat.le_refl 1
      | delete => exact Nat.zero_le 1
    · rw [rewritten_others list apart]
      exact sound.single tag listed list before other
  owned := by
    intro tag listed all found c inside e has
    obtain ⟨list, before, now⟩ := made.inside tag listed
    rw [now] at found
    cases found
    rcases List.mem_append.mp inside with old | new
    · exact sound.owned tag listed list before c (List.mem_filter.mp old).1 e has
    · cases action with
      | add uuid =>
        rw [List.mem_singleton.mp new] at has ⊢
        rw [email_entry, Json.str.injEq] at has
        rw [clientName_entry, ← has, nameOf_email plain]
      | delete => cases new

theorem filter_of_find {list : List Json} {p : Json → Bool} (single : (list.filter p).length ≤ 1) :
    list.filter p = (list.find? p).toList := by
  rw [← List.head?_filter]
  match filtered : list.filter p with
  | [] => rfl
  | [c] => rfl
  | c :: d :: rest =>
    rw [filtered] at single
    simp at single

/-- Whether it had to be written or not, the file holds what was asked for. -/
theorem filed {config edited : Json} {changed : Bool} (sound : Sound t config)
    (made : Edited t name action config edited changed) :
    Filed t name action (if changed then edited else config) := by
  intro tag listed
  obtain ⟨list, before, now⟩ := made.inside tag listed
  cases changed with
  | true => exact ⟨_, now, rewritten_named list⟩
  | false =>
    refine ⟨list, before, ?_⟩
    rw [filter_of_find (sound.single tag listed list before name),
      made.same rfl tag listed list before]
    cases action <;> rfl

theorem Filed.of_edited {config edited : Json} {changed : Bool} {other : String} {last : Action}
    (held : Filed t other last config) (apart : other ≠ name)
    (made : Edited t name action config edited changed) : Filed t other last edited := by
  intro tag listed
  obtain ⟨list, before, now⟩ := made.inside tag listed
  obtain ⟨all, found, its⟩ := held tag listed
  rw [before] at found
  cases found
  exact ⟨_, now, (rewritten_others list apart).trans its⟩

theorem andThen_ok {done : Done} {next : State → Done} :
    (done.andThen next).2 = .ok () ↔ done.2 = .ok () ∧ (next done.1).2 = .ok () := by
  unfold Done.andThen
  cases result : done.2 with
  | ok u => simp
  | error err => simp

/-- What both steps keep. -/
theorem andThen_keeps {P : State → Prop} {done : Done} {next : State → Done} (first : P done.1)
    (then_ : ∀ s, P s → P (next s).1) : P (done.andThen next).1 := by
  unfold Done.andThen
  cases done.2 with
  | ok u => exact then_ done.1 first
  | error err => exact first

theorem andThen_fst {done : Done} {next : State → Done} (ok : done.2 = .ok ()) :
    (done.andThen next).1 = (next done.1).1 := by
  rw [Done.andThen, ok]

theorem perform_cases {outcome : Outcome} {next : State} {P : State → Prop} (before : P s)
    (now : P next) : P (perform outcome s next).1 := by
  cases outcome with
  | answered => exact now
  | refused => exact before
  | lost => exact now

theorem check_state {second : Bool} {tag : String} :
    (check t name action answer second tag s).1 = s := by
  unfold check
  split
  · rfl
  · split <;> rfl

theorem check_ok {second : Bool} {tag : String}
    (ok : (check t name action answer second tag s).2 = .ok ()) :
    s.live tag (email name tag) = desired t action tag := by
  unfold check at ok
  split at ok
  · cases ok
  · split at ok
    next holds => exact holds
    next => cases ok

theorem remove_keeps {P : State → Prop} {second : Bool} {tag : String} {seen : Option Live}
    (before : P s) (cut : P (s.setLive tag (email name tag) none)) :
    P (if seen.isSome then removeUser (answer (.remove second)) tag (email name tag) s
      else (s, .ok ()) : Done).1 := by
  split
  · unfold removeUser
    split
    · exact before
    · exact perform_cases before cut
  · exact before

/-- A live change touches the client's own entry of the inbound only. -/
theorem settle_keeps {P : State → Prop} {second : Bool} {tag : String} {seen : Option Live}
    (before : P s) (set : ∀ s user, P s → P (s.setLive tag (email name tag) user)) :
    P (settle t name action answer second tag seen s).1 := by
  have checked : ∀ s, P s → P (check t name action answer second tag s).1 := fun s held => by
    rwa [check_state]
  unfold settle
  cases action with
  | add uuid =>
    dsimp only
    split
    · exact before
    · refine andThen_keeps (andThen_keeps (remove_keeps before (set s none before)) ?_) checked
      intro s held
      unfold addUser
      split
      · exact held
      · exact perform_cases held (set s _ held)
  | delete => exact andThen_keeps (remove_keeps before (set s none before)) checked

theorem settle_file {second : Bool} {tag : String} {seen : Option Live} :
    (settle t name action answer second tag seen s).1.file = s.file :=
  settle_keeps (P := fun u => u.file = s.file) rfl fun _ _ held => held

theorem settle_live {second : Bool} {tag other e : String} {seen : Option Live}
    (apart : ¬(other = tag ∧ e = email name tag)) :
    (settle t name action answer second tag seen s).1.live other e = s.live other e := by
  refine settle_keeps (P := fun u => u.live other e = s.live other e) rfl fun u user held => ?_
  rw [State.setLive]
  dsimp only
  rw [if_neg apart, held]

/-- A settled inbound was read as asked for, or had been seen so before. -/
theorem settle_ok {second : Bool} {tag : String} {seen : Option Live}
    (ok : (settle t name action answer second tag seen s).2 = .ok ()) :
    (settle t name action answer second tag seen s).1.live tag (email name tag) =
        desired t action tag ∨
      seen = desired t action tag ∧ (settle t name action answer second tag seen s).1 = s := by
  have checked : ∀ {done : Done}, (done.andThen (check t name action answer second tag)).2 = .ok () →
      (done.andThen (check t name action answer second tag)).1.live tag (email name tag) =
        desired t action tag := by
    intro done ok
    obtain ⟨first, last⟩ := andThen_ok.mp ok
    rw [andThen_fst first, check_state]
    exact check_ok last
  revert ok
  unfold settle
  cases action with
  | add uuid =>
    dsimp only
    split
    next held => exact fun _ => .inr ⟨held, rfl⟩
    next => exact fun ok => .inl (checked ok)
  | delete => exact fun ok => .inl (checked ok)

theorem perform_ok {outcome : Outcome} {next : State} (ok : (perform outcome s next).2 = .ok ()) :
    (perform outcome s next).1 = next := by
  cases outcome with
  | answered => rfl
  | refused => cases ok
  | lost => rfl

/-- The file is written, or keeps its text where nothing changed. -/
def saved (answer : Answer) (edited : Json) (changed : Bool) (s : State) : Done :=
  if changed then perform (answer .write) s { s with file := edited } else (s, .ok ())

theorem saved_live {edited : Json} {changed : Bool} :
    (saved answer edited changed s).1.live = s.live := by
  unfold saved
  split
  · exact perform_cases (P := fun u => u.live = s.live) rfl rfl
  · rfl

theorem saved_ok {edited : Json} {changed : Bool} (ok : (saved answer edited changed s).2 = .ok ()) :
    (saved answer edited changed s).1 = { s with file := if changed then edited else s.file } := by
  unfold saved at ok ⊢
  cases changed with
  | true => exact perform_ok ok
  | false => rfl

/-- A sync ends before it changes anything, or edits the config and goes on from there. -/
theorem sync_cases :
    ((sync t name action answer s).1 = s ∧ (sync t name action answer s).2 ≠ .ok ()) ∨
      ∃ edited changed, Edited t name action s.file edited changed ∧
        sync t name action answer s = ((saved answer edited changed s).andThen
          (settle t name action answer false t.tcpTag (s.live t.tcpTag (email name t.tcpTag)))).andThen
            (settle t name action answer true t.xhttpTag
              (s.live t.xhttpTag (email name t.xhttpTag))) := by
  unfold sync
  split
  · exact .inl ⟨rfl, by rintro ⟨⟩⟩
  · split
    next => exact .inl ⟨rfl, by rintro ⟨⟩⟩
    next edited changed made => exact .inr ⟨edited, changed, editConfig_ok made, rfl⟩

theorem sync_file : (sync t name action answer s).1.file = s.file ∨
    ∃ edited changed, Edited t name action s.file edited changed ∧
      (sync t name action answer s).1.file = edited := by
  rcases sync_cases (t := t) (s := s) with ⟨same, -⟩ | ⟨edited, changed, made, whole⟩
  · rw [same]
    exact .inl rfl
  · have wrote : (saved answer edited changed s).1.file = s.file ∨
        (saved answer edited changed s).1.file = edited := by
      unfold saved
      split
      · exact perform_cases (P := fun u => u.file = s.file ∨ u.file = edited) (.inl rfl) (.inr rfl)
      · exact .inl rfl
    have kept : (sync t name action answer s).1.file = s.file ∨
        (sync t name action answer s).1.file = edited := by
      rw [whole]
      refine andThen_keeps (P := fun u => u.file = s.file ∨ u.file = edited)
        (andThen_keeps (P := fun u => u.file = s.file ∨ u.file = edited) wrote ?_) ?_
      all_goals
        intro u held
        rwa [settle_file]
    exact kept.imp_right fun now => ⟨edited, changed, made, now⟩

theorem sync_live {tag e : String} (apart : tag ∉ t.tags ∨ e ≠ email name tag) :
    (sync t name action answer s).1.live tag e = s.live tag e := by
  have away (other : String) (listed : other ∈ t.tags) : ¬(tag = other ∧ e = email name other) := by
    rintro ⟨rfl, rfl⟩
    exact apart.elim (fun out => out listed) fun differs => differs rfl
  rcases sync_cases (t := t) (s := s) with ⟨same, -⟩ | ⟨edited, changed, made, whole⟩
  · rw [same]
  · rw [whole]
    refine andThen_keeps (P := fun u => u.live tag e = s.live tag e)
      (andThen_keeps (P := fun u => u.live tag e = s.live tag e) ?_ ?_) ?_
    · rw [saved_live]
    · intro u held
      rw [settle_live (away t.tcpTag List.mem_cons_self), held]
    · intro u held
      rw [settle_live (away t.xhttpTag (by simp [Target.tags])), held]

/-- Xray changes only once the file holds what was asked for. -/
theorem sync_order (sound : Sound t s.file) : (sync t name action answer s).1.live = s.live ∨
    Filed t name action (sync t name action answer s).1.file := by
  rcases sync_cases (t := t) (s := s) with ⟨same, -⟩ | ⟨edited, changed, made, whole⟩
  · rw [same]
    exact .inl rfl
  · rw [whole]
    cases result : (saved answer edited changed s).2 with
    | error err =>
      left
      rw [Done.andThen, Done.andThen, result]
      exact saved_live
    | ok u =>
      right
      refine andThen_keeps (P := fun u => Filed t name action u.file) ?_ ?_
      · rw [andThen_fst result, settle_file, saved_ok result]
        exact filed sound made
      · intro u held
        rwa [settle_file]

theorem sync_applied (sound : Sound t s.file) (ok : (sync t name action answer s).2 = .ok ()) :
    Applied t name action (sync t name action answer s).1 := by
  rcases sync_cases (t := t) (s := s) with ⟨-, failed⟩ | ⟨edited, changed, made, whole⟩
  · exact absurd ok failed
  · rw [whole] at ok ⊢
    obtain ⟨before, second⟩ := andThen_ok.mp ok
    obtain ⟨wrote, first⟩ := andThen_ok.mp before
    rw [andThen_fst before]
    rw [andThen_fst wrote, saved_ok wrote] at second ⊢
    rw [saved_ok wrote] at first
    refine ⟨?_, ?_⟩
    · rw [settle_file, settle_file]
      exact filed sound made
    · have tcp : (settle t name action answer false t.tcpTag (s.live t.tcpTag (email name t.tcpTag))
          { s with file := if changed then edited else s.file }).1.live t.tcpTag
            (email name t.tcpTag) = desired t action t.tcpTag := by
        rcases settle_ok first with done | ⟨seen, same⟩
        · exact done
        · rw [same]
          exact seen
      have apart (differ : t.tcpTag ≠ t.xhttpTag) (e : String) :
          ¬(t.xhttpTag = t.tcpTag ∧ e = email name t.tcpTag) := fun same => differ same.1.symm
      have both : ∀ tag ∈ t.tags, tag = t.tcpTag ∧ t.tcpTag ≠ t.xhttpTag ∨ tag = t.xhttpTag := by
        intro tag listed
        by_cases same : tag = t.xhttpTag
        · exact .inr same
        · rcases List.mem_cons.mp listed with is | is
          · exact .inl ⟨is, is ▸ same⟩
          · exact absurd (List.mem_singleton.mp is) same
      intro tag listed
      rcases both tag listed with ⟨rfl, differ⟩ | rfl
      · rw [settle_live fun same => differ same.1]
        exact tcp
      · rcases settle_ok second with done | ⟨seen, same⟩
        · exact done
        · rw [same]
          by_cases one : t.tcpTag = t.xhttpTag
          · rw [← one]
            exact tcp
          · rw [settle_live (apart one _)]
            exact seen

/-! Calls that Xray answers. -/

theorem editClients_total {config : Json} {tag : String} {list : List Json} (edit : List Json → List Json)
    (found : clients config tag = some list) : ∃ edited, editClients config tag edit = .ok edited := by
  obtain ⟨inbound, reached, listed⟩ := Option.bind_eq_some_iff.mp found
  obtain ⟨inbounds, array, first⟩ := Option.bind_eq_some_iff.mp reached
  have made : ∃ after, editInbound edit inbound = .ok after := by
    rw [editInbound, listed]
    exact ⟨_, rfl⟩
  have updated : ∃ rest, updateFirst (inboundTagged tag) (editInbound edit) missing inbounds = .ok rest := by
    clear reached array
    induction inbounds with
    | nil => cases first
    | cons one rest ih =>
      rw [updateFirst]
      by_cases here : inboundTagged tag one = true
      · rw [List.find?_cons_of_pos here, Option.some.injEq] at first
        obtain ⟨after, is⟩ := made
        rw [if_pos here, first, is]
        exact ⟨_, rfl⟩
      · rw [List.find?_cons_of_neg here] at first
        obtain ⟨later, is⟩ := ih first
        rw [if_neg here, is]
        exact ⟨_, rfl⟩
  obtain ⟨rest, is⟩ := updated
  rw [editClients, array]
  dsimp only
  rw [is]
  exact ⟨_, rfl⟩

theorem editTag_total {config : Json} {tag : String} (present : (clients config tag).isSome = true) :
    ∃ edited changed, editTag t name action config tag = .ok (edited, changed) := by
  obtain ⟨list, found⟩ := Option.isSome_iff_exists.mp present
  obtain ⟨edited, made⟩ := editClients_total
    (fun list => (list.filter fun c => !named name c) ++ entries t name action tag) found
  rw [editTag, found]
  dsimp only
  rw [made]
  exact ⟨_, _, rfl⟩

/-- Both inbounds have a list of clients. -/
def Present (t : Target) (config : Json) : Prop := ∀ tag ∈ t.tags, (clients config tag).isSome = true

theorem editConfig_total {config : Json} (present : Present t config) :
    ∃ edited changed, editConfig t name action config = .ok (edited, changed) := by
  obtain ⟨mid, first, made⟩ := @editTag_total t name action config t.tcpTag
    (present _ List.mem_cons_self)
  obtain ⟨⟨list, -, now, -⟩, others, -⟩ := editTag_ok made
  have later : (clients mid t.xhttpTag).isSome = true := by
    by_cases same : t.xhttpTag = t.tcpTag
    · rw [same, now]
      rfl
    · rw [others _ same]
      exact present _ (by simp [Target.tags])
  obtain ⟨edited, second, made'⟩ := @editTag_total t name action mid t.xhttpTag later
  rw [editConfig, made]
  dsimp only
  rw [made']
  exact ⟨_, _, rfl⟩

theorem settle_total {second : Bool} {tag : String} (answers : ∀ step, answer step = .answered) :
    (settle t name action answer second tag (s.live tag (email name tag)) s).2 = .ok () := by
  have checks : ∀ u : State, u.live tag (email name tag) = desired t action tag →
      (check t name action answer second tag u).2 = .ok () := by
    intro u held
    unfold check
    rw [answers, if_neg (by decide), if_pos held]
  have removes : ((if (s.live tag (email name tag)).isSome then
        removeUser (answer (.remove second)) tag (email name tag) s else (s, .ok ()) : Done)).2 = .ok () ∧
      ((if (s.live tag (email name tag)).isSome then
        removeUser (answer (.remove second)) tag (email name tag) s else (s, .ok ()) : Done)).1.live
          tag (email name tag) = none := by
    split
    next some_ =>
      rw [removeUser, if_neg (by rw [Option.isNone_iff_eq_none]; intro none_; rw [none_] at some_; cases some_),
        answers]
      exact ⟨rfl, if_pos ⟨rfl, rfl⟩⟩
    next none_ => exact ⟨rfl, by simpa using none_⟩
  unfold settle
  cases action with
  | add uuid =>
    dsimp only
    split
    · rfl
    · have adds : ∀ u : State, u.live tag (email name tag) = none →
          (addUser (answer (.add second)) tag (email name tag) (uuid, flow t tag) u).2 = .ok () ∧
          (addUser (answer (.add second)) tag (email name tag) (uuid, flow t tag) u).1.live tag
            (email name tag) = some (uuid, flow t tag) := by
        intro u free
        rw [addUser, free, if_neg (by decide), answers]
        exact ⟨rfl, if_pos ⟨rfl, rfl⟩⟩
      obtain ⟨added, now⟩ := adds _ removes.2
      refine andThen_ok.mpr ⟨andThen_ok.mpr ⟨removes.1, added⟩, ?_⟩
      rw [andThen_fst removes.1]
      exact checks _ now
  | delete =>
    refine andThen_ok.mpr ⟨removes.1, ?_⟩
    exact checks _ removes.2

theorem sync_total (apart : t.tcpTag ≠ t.xhttpTag) (present : Present t s.file)
    (answers : ∀ step, answer step = .answered) : (sync t name action answer s).2 = .ok () := by
  obtain ⟨edited, changed, made⟩ := @editConfig_total t name action s.file present
  have wrote : (saved answer edited changed s).2 = .ok () := by
    rw [saved, answers]
    split <;> rfl
  have whole : sync t name action answer s = ((saved answer edited changed s).andThen
      (settle t name action answer false t.tcpTag (s.live t.tcpTag (email name t.tcpTag)))).andThen
        (settle t name action answer true t.xhttpTag (s.live t.xhttpTag (email name t.xhttpTag))) := by
    rw [sync, answers, answers, if_neg (by decide), made]
    rfl
  rw [whole]
  refine andThen_ok.mpr ⟨andThen_ok.mpr ⟨wrote, ?_⟩, ?_⟩
  · have same : (saved answer edited changed s).1.live = s.live := saved_live
    rw [← same]
    exact settle_total answers
  · rw [andThen_fst wrote]
    have same : (settle t name action answer false t.tcpTag (s.live t.tcpTag (email name t.tcpTag))
        (saved answer edited changed s).1).1.live t.xhttpTag (email name t.xhttpTag) =
          s.live t.xhttpTag (email name t.xhttpTag) := by
      rw [settle_live fun h => apart h.1.symm, saved_live]
    rw [← same]
    exact settle_total answers

/-! The subcommand and its runs. -/

theorem plain_of_valid (valid : validEmail name = true) : '.' ∉ name.toList := by
  rw [validEmail, Bool.and_eq_true] at valid
  intro dot
  have bad := List.all_eq_true.mp valid.2 '.' dot
  revert bad
  decide

/-- The subcommand ends before it changes anything, or syncs. -/
theorem execute_cases (t : Target) (name : String) (action : Action) (answer : Answer) (s : State) :
    ((execute t name action answer s).1 = s ∧ (execute t name action answer s).2 ≠ .ok ()) ∨
      '.' ∉ name.toList ∧ execute t name action answer s = sync t name action.lower answer s := by
  unfold execute
  split
  · exact .inl ⟨rfl, by rintro ⟨⟩⟩
  · split
    · exact .inl ⟨rfl, by rintro ⟨⟩⟩
    next valid =>
      split
      · exact .inl ⟨rfl, by rintro ⟨⟩⟩
      · split
        · exact .inl ⟨rfl, by rintro ⟨⟩⟩
        · exact .inr ⟨plain_of_valid (by simpa using valid), rfl⟩

theorem sound_execute (sound : Sound t s.file) : Sound t (execute t name action answer s).1.file := by
  rcases execute_cases t name action answer s with ⟨same, -⟩ | ⟨plain, whole⟩
  · rwa [same]
  · rw [whole]
    rcases sync_file (t := t) (s := s) with same | ⟨edited, changed, made, now⟩
    · rwa [same]
    · rw [now]
      exact sound.edited plain made

theorem after_sound (run : List Happening) (sound : Sound t s.file) : Sound t (after t s run).file := by
  induction run generalizing s with
  | nil => exact sound
  | cons h rest ih =>
    apply ih
    cases h with
    | sync other last answer => exact sound_execute sound
    | restart => exact sound

theorem find_of_filter {list : List Json} {p q : Json → Bool}
    (within : ∀ c ∈ list, p c = true → q c = true) : list.find? p = (list.filter q).find? p := by
  induction list with
  | nil => rfl
  | cons c rest ih =>
    have later := ih fun d inside => within d (List.mem_cons_of_mem c inside)
    by_cases here : p c = true
    · rw [List.filter_cons_of_pos (within c List.mem_cons_self here), List.find?_cons_of_pos here,
        List.find?_cons_of_pos here]
    · rw [List.find?_cons_of_neg here, later, List.filter_cons]
      split
      · rw [List.find?_cons_of_neg here]
      · rfl

/-- A starting Xray loads what the file holds of the client. -/
theorem Applied.restarted (sound : Sound t s.file) (plain : '.' ∉ name.toList)
    (applied : Applied t name action s) : Applied t name action { s with live := loaded s.file } := by
  refine ⟨applied.file, fun tag listed => ?_⟩
  obtain ⟨list, found, its⟩ := applied.file tag listed
  have own : ∀ c ∈ list, decide ((c.field "email").asStr = some (email name tag)) = true →
      named name c = true := by
    intro c inside has
    have text : c.field "email" = .str (email name tag) := by
      rw [decide_eq_true_iff] at has
      revert has
      cases c.field "email" <;> simp [Json.asStr]
    rw [named, sound.owned tag listed list found c inside _ text, nameOf_email plain, decide_eq_true_iff]
  change loaded s.file tag (email name tag) = _
  rw [loaded, found, Option.bind_some, find_of_filter own, its]
  cases action with
  | add uuid =>
    have here : decide (((entry t name uuid tag).field "email").asStr = some (email name tag)) = true := by
      rw [email_entry]
      exact decide_eq_true rfl
    have first : [entry t name uuid tag].find?
        (fun c => decide ((c.field "email").asStr = some (email name tag))) =
          some (entry t name uuid tag) := List.find?_cons_of_pos here
    rw [entries, first, Option.map_some, id_entry, flow_entry]
    rfl
  | delete => rfl

/-- What was applied for a client stands over a sync of another one. -/
theorem Applied.other {other : String} {last : Action} (applied : Applied t other last s)
    (own : '.' ∉ other.toList) (apart : other ≠ name) :
    Applied t other last (execute t name action answer s).1 := by
  rcases execute_cases t name action answer s with ⟨same, -⟩ | ⟨plain, whole⟩
  · rwa [same]
  · rw [whole]
    constructor
    · rcases sync_file (t := t) (s := s) with same | ⟨edited, changed, made, now⟩
      · rw [same]
        exact applied.file
      · rw [now]
        exact applied.file.of_edited apart made
    · intro tag listed
      rw [sync_live]
      · exact applied.live tag listed
      · right
        intro same
        have names := congrArg nameOf same
        rw [nameOf_email own, nameOf_email plain] at names
        exact apart names

theorem stands (later : List Happening) (sound : Sound t s.file) (plain : '.' ∉ name.toList)
    (applied : Applied t name action s) (others : ∀ h ∈ later, h.about name = false) :
    Applied t name action (after t s later) := by
  induction later generalizing s with
  | nil => exact applied
  | cons h rest ih =>
    have away := others h List.mem_cons_self
    have next : Applied t name action (happen t s h) ∧ Sound t (happen t s h).file := by
      cases h with
      | sync other last answer =>
        rw [Happening.about, decide_eq_false_iff_not] at away
        exact ⟨applied.other plain (Ne.symm away), sound_execute sound⟩
      | restart => exact ⟨applied.restarted sound plain, sound⟩
    exact ih next.2 next.1 fun k inside => others k (List.mem_cons_of_mem h inside)

theorem after_present (run : List Happening) (present : Present t s.file) :
    Present t (after t s run).file := by
  induction run generalizing s with
  | nil => exact present
  | cons h rest ih =>
    apply ih
    cases h with
    | restart => exact present
    | sync other last answer =>
      change Present t (execute t other last answer s).1.file
      rcases execute_cases t other last answer s with ⟨same, -⟩ | ⟨plain, whole⟩
      · rwa [same]
      · rw [whole]
        rcases sync_file (t := t) (s := s) with same | ⟨edited, changed, made, now⟩
        · rwa [same]
        · rw [now]
          intro tag listed
          obtain ⟨list, -, found⟩ := made.inside tag listed
          rw [found]
          rfl

end Sync

/-- After any run, whatever calls have failed in it, a sync whose calls are answered succeeds. -/
theorem retry_converges (t : Target) (s : State) (apart : t.tcpTag ≠ t.xhttpTag)
    (tags : validTag t.tcpTag = true ∧ validTag t.xhttpTag = true) (present : Present t s.file)
    (run : List Happening) (name : String) (valid : validEmail name = true) (action : Action)
    (uuid : action.lower.valid = true) (answer : Answer) (answers : ∀ step, answer step = .answered) :
    (execute t name action answer (after t s run)).2 = .ok () := by
  have there := after_present run present
  have tcp := Option.isNone_eq_false_iff.mpr (there t.tcpTag List.mem_cons_self)
  have xhttp := Option.isNone_eq_false_iff.mpr (there t.xhttpTag (by simp [Target.tags]))
  rw [execute, uuid, valid, tags.1, tags.2, tcp, xhttp]
  exact sync_total apart there answers

/-! A file with one client, and a client that is added in two attempts and deleted again. -/

def uuid : String := "11111111-1111-4111-8111-111111111111"

def reality : Target := ⟨"reality-tcp", "reality-xhttp"⟩

def inboundOf (tag : String) (list : List Json) : Json :=
  .obj [("settings", .obj [("clients", .arr list)]), ("tag", .str tag)]

def bob : Json := .obj [("email", .str "bob"), ("id", .str uuid)]

def node : State :=
  ⟨.obj [("inbounds", .arr [inboundOf "reality-tcp" [bob], inboundOf "reality-xhttp" []])], fun _ _ => none⟩

def answered : Answer := fun _ => .answered

/-- The add on XHTTP is refused. -/
def partly : Answer := fun step => if step = .add true then .refused else .answered

theorem node_sound : Sound reality node.file := by
  have lists : ∀ tag ∈ reality.tags, ∀ list, clients node.file tag = some list → list = [bob] ∨ list = [] := by
    intro tag listed list found
    rcases List.mem_cons.mp listed with rfl | later
    · exact .inl (Option.some.inj (found.symm.trans (by decide)))
    · rw [List.mem_singleton.mp later] at found
      exact .inr (Option.some.inj (found.symm.trans (by decide)))
  refine ⟨fun tag listed list found name => ?_, fun tag listed list found c inside e has => ?_⟩
  · rcases lists tag listed list found with rfl | rfl
    · exact List.length_filter_le _ _
    · exact Nat.zero_le 1
  · rcases lists tag listed list found with rfl | rfl
    · rw [List.mem_singleton.mp inside] at has ⊢
      cases has
      decide
    · cases inside

theorem retry_converges_sample :
    (execute reality "alice" .delete answered
      (after reality node [.sync "alice" (.add uuid) partly, .restart])).2 = .ok () :=
  retry_converges reality node (by decide) (by decide) (by unfold Present; decide)
    [.sync "alice" (.add uuid) partly, .restart] "alice" (by decide) .delete (by decide) answered
    fun _ => rfl

/-- An entry that stands twice in a file is not repaired where the first one is as asked for. -/
example :
    let twice := [entry reality "alice" uuid "reality-xhttp", bob.put "name" (.str "alice")]
    let file : Json := .obj [("inbounds", .arr [inboundOf "reality-tcp" [entry reality "alice" uuid "reality-tcp"],
      inboundOf "reality-xhttp" twice])]
    clients (execute reality "alice" (.add uuid) answered ⟨file, fun _ _ => none⟩).1.file "reality-xhttp" =
      some twice := by decide

end UserSync
end Xray
end NodePlane
