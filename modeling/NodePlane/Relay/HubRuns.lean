import NodePlane.Relay.Hub

/-! Which request gets which response, what an ended link still holds, and when the written
link state is the true one. -/
namespace NodePlane
namespace Relay
open Library
namespace Hub

/-- The request is on that link under that id. -/
def OnLink (hub : Hub) (request link id : ℕ) : Prop :=
  ∃ value, hub.requests request = some value ∧ value.link = link ∧ value.id = some id

/-- The request an event is about. -/
def subject : Event → Option ℕ
  | .body request _ | .register request | .send request | .receive request | .expire request
  | .withdraw request => some request
  | _ => none

/-- Every request has at most one reply, exactly one when it is finished, a response only with its
own id and from its own link; and nothing but its own next step keeps it from its reply. -/
structure Answered (hub : Hub) : Prop where
  once : (hub.replies.map Prod.fst).Nodup
  finished : ∀ request value, hub.requests request = some value →
    (value.phase = .finished ↔ ∃ reply, (request, reply) ∈ hub.replies)
  own : ∀ request link response, (request, Reply.controller link response) ∈ hub.replies →
    hub.OnLink request link response.id
  moves : ∀ request value, hub.requests request = some value → value.phase = .finished ∨
    ∃ event, subject event = some request ∧ (hub.step event).requests request ≠ some value

/-- No waiter is left on a link that has ended. -/
def EndedEmpty (hub : Hub) : Prop :=
  ∀ link value, hub.links link = some value → value.phase = .ended →
    ∀ id, value.pending.lookup id = none

/-- A link's task waits for a message or is over. -/
def resting : LinkPhase → Bool
  | .attached | .serving | .ended => true
  | _ => false

/-- With no link step in progress, the file says connected exactly when a current link exists. -/
def StatusTrue (hub : Hub) : Prop :=
  (∀ link value, hub.links link = some value → resting value.phase = true) →
    (hub.status.isSome ↔ hub.current.isSome)

/-- What a step needs of the state before it. -/
def Sound (hub : Hub) : Event → Prop
  -- A link writes that it is connected while a current link exists.
  | .announce link written => ∀ value version, hub.links link = some value →
      value.phase = .replaced version → written = true ∧ hub.current.isSome
  | .release _ written => written = true
  -- A request registers while its link has not ended.
  | .register request => ∀ value link, hub.requests request = some value →
      value.phase = .numbered → hub.links value.link = some link → link.phase ≠ .ended
  -- It finds room in the channel, or the stream dropped.
  | .send request => ∀ value link, hub.requests request = some value →
      hub.links value.link = some link → link.receiver = true → link.queue < hub.concurrent
  | _ => True

def SoundRun : Hub → List Event → Prop
  | _, [] => True
  | hub, event :: rest => hub.Sound event ∧ SoundRun (hub.step event) rest

structure Inv (hub : Hub) : Prop where
  newLink : ∀ link, hub.nextLink ≤ link → hub.links link = none
  newRequest : ∀ request, hub.nextRequest ≤ request → hub.requests request = none
  waiters : ∀ link value id request, hub.links link = some value →
    value.pending.lookup id = some request → hub.OnLink request link id
  delivering : ∀ link value request response, hub.links link = some value →
    value.phase = .delivering request response → hub.OnLink request link response.id
  slots : ∀ request value link response, hub.requests request = some value →
    value.slot = .filled link response → hub.OnLink request link response.id
  own : ∀ request link response, (request, Reply.controller link response) ∈ hub.replies →
    hub.OnLink request link response.id
  replied : ∀ request reply, (request, reply) ∈ hub.replies →
    ∃ value, hub.requests request = some value ∧ value.phase = .finished
  finished : ∀ request value, hub.requests request = some value → value.phase = .finished →
    ∃ reply, (request, reply) ∈ hub.replies
  once : (hub.replies.map Prod.fst).Nodup
  unnumbered : ∀ request value, hub.requests request = some value → value.phase = .accepted →
    value.id = none
  unblocked : ∀ request value, hub.requests request = some value → value.phase ≠ .blocked
  ended : hub.EndedEmpty
  shown : hub.current.isSome → hub.status.isSome ∨
    ∃ link value version, hub.links link = some value ∧ value.phase = .replaced version
  hidden : hub.current = none → hub.status = none

@[simp] theorem links_setLink (hub : Hub) (link other : ℕ) (value : Link) :
    (hub.setLink link value).links other = if other = link then some value else hub.links other := by
  simp [setLink, Function.update_apply]

@[simp] theorem requests_setRequest (hub : Hub) (request other : ℕ) (value : Request) :
    (hub.setRequest request value).requests other =
      if other = request then some value else hub.requests other := by
  simp [setRequest, Function.update_apply]

section
variable {hub : Hub}

theorem inv_fresh {concurrent : ℕ} : Inv (Hub.fresh concurrent none) := by
  constructor <;> simp [Hub.fresh, EndedEmpty]

/-! Links. -/

/-- A link's next value: its waiters are old ones or on it, it delivers to a request on it, it ends
without waiters, and its own status write is not lost. -/
theorem setLink_inv (inv : Inv hub) {link : ℕ} {old : Link} (held : hub.links link = some old)
    (value : Link)
    (waiters : ∀ id request, value.pending.lookup id = some request → hub.OnLink request link id)
    (delivers : ∀ request response, value.phase = .delivering request response →
      hub.OnLink request link response.id)
    (ended : value.phase = .ended → ∀ id, value.pending.lookup id = none)
    (shown : ∀ version, old.phase = .replaced version →
      hub.status.isSome ∨ ∃ version, value.phase = .replaced version) :
    Inv (hub.setLink link value) := by
  constructor
  · intro other above
    rw [links_setLink, if_neg, inv.newLink other above]
    rintro rfl
    cases held.symm.trans (inv.newLink other above)
  · exact inv.newRequest
  · intro other new id request found waits
    rw [links_setLink] at found
    split at found
    next same =>
      cases found
      rw [same]
      exact waiters id request waits
    · exact inv.waiters other new id request found waits
  · intro other new request response found phase
    rw [links_setLink] at found
    split at found
    next same =>
      cases found
      rw [same]
      exact delivers request response phase
    · exact inv.delivering other new request response found phase
  · exact inv.slots
  · exact inv.own
  · exact inv.replied
  · exact inv.finished
  · exact inv.once
  · exact inv.unnumbered
  · exact inv.unblocked
  · intro other new found phase id
    rw [links_setLink] at found
    split at found
    · cases found
      exact ended phase id
    · exact inv.ended other new found phase id
  · intro current
    rcases inv.shown current with written | ⟨other, new, version, found, phase⟩
    · exact Or.inl written
    · by_cases same : other = link
      · subst same
        cases held.symm.trans found
        rcases shown version phase with written | ⟨version, phase⟩
        · exact Or.inl written
        · exact Or.inr ⟨other, value, version, by rw [links_setLink, if_pos rfl], phase⟩
      · exact Or.inr ⟨other, new, version, by rw [links_setLink, if_neg same]; exact found, phase⟩
  · exact inv.hidden

/-- A link goes on with the waiters it had. -/
theorem advance_inv (inv : Inv hub) {link : ℕ} {old : Link} (held : hub.links link = some old)
    (value : Link) (waiters : value.pending = old.pending)
    (delivers : ∀ request response, value.phase = .delivering request response → value.phase = old.phase)
    (ended : value.phase = .ended → ∀ id, value.pending.lookup id = none)
    (shown : ∀ version, old.phase = .replaced version →
      hub.status.isSome ∨ ∃ version, value.phase = .replaced version) :
    Inv (hub.setLink link value) := by
  apply setLink_inv inv held value _ _ ended shown
  · intro id request waits
    rw [waiters] at waits
    exact inv.waiters link old id request held waits
  · intro request response phase
    have before := (delivers request response phase).symm.trans phase
    exact inv.delivering link old request response held before

theorem attach_inv (inv : Inv hub) :
    Inv { hub.setLink hub.nextLink ⟨.attached, 0, ∅, 1, true, false⟩ with
      nextLink := hub.nextLink + 1 } := by
  have free := inv.newLink hub.nextLink (Nat.le_refl _)
  constructor
  · intro other above
    have apart : other ≠ hub.nextLink := Nat.ne_of_gt above
    exact (links_setLink _ _ _ _).trans
      ((if_neg apart).trans (inv.newLink other (Nat.le_of_succ_le above)))
  · exact inv.newRequest
  · intro other new id request found waits
    have found' := (links_setLink _ _ _ _).symm.trans found
    split at found'
    · cases found'
      cases waits
    · exact inv.waiters other new id request found' waits
  · intro other new request response found phase
    have found' := (links_setLink _ _ _ _).symm.trans found
    split at found'
    · cases found'
      cases phase
    · exact inv.delivering other new request response found' phase
  · exact inv.slots
  · exact inv.own
  · exact inv.replied
  · exact inv.finished
  · exact inv.once
  · exact inv.unnumbered
  · exact inv.unblocked
  · intro other new found phase id
    have found' := (links_setLink _ _ _ _).symm.trans found
    split at found'
    · cases found'
      cases phase
    · exact inv.ended other new found' phase id
  · intro current
    rcases inv.shown current with written | ⟨other, new, version, found, phase⟩
    · exact Or.inl written
    · refine Or.inr ⟨other, new, version, ?_, phase⟩
      refine (links_setLink _ _ _ _).trans ((if_neg ?_).trans found)
      rintro rfl
      cases free.symm.trans found
  · exact inv.hidden

/-- Counters and the written state beside the links. -/
theorem generations_inv (inv : Inv hub) (generations : ℕ) :
    Inv { hub with generations := generations } :=
  ⟨inv.newLink, inv.newRequest, inv.waiters, inv.delivering, inv.slots, inv.own, inv.replied,
    inv.finished, inv.once, inv.unnumbered, inv.unblocked, inv.ended, inv.shown, inv.hidden⟩

theorem ids_inv (inv : Inv hub) (ids : ℕ) : Inv { hub with ids := ids } :=
  ⟨inv.newLink, inv.newRequest, inv.waiters, inv.delivering, inv.slots, inv.own, inv.replied,
    inv.finished, inv.once, inv.unnumbered, inv.unblocked, inv.ended, inv.shown, inv.hidden⟩

theorem permits_inv (inv : Inv hub) (permits : ℕ) : Inv { hub with permits := permits } :=
  ⟨inv.newLink, inv.newRequest, inv.waiters, inv.delivering, inv.slots, inv.own, inv.replied,
    inv.finished, inv.once, inv.unnumbered, inv.unblocked, inv.ended, inv.shown, inv.hidden⟩

theorem current_inv (inv : Inv hub) {link : ℕ} {value : Link} {version : String}
    (held : hub.links link = some value) (phase : value.phase = .replaced version) :
    Inv { hub with current := some link } :=
  ⟨inv.newLink, inv.newRequest, inv.waiters, inv.delivering, inv.slots, inv.own, inv.replied,
    inv.finished, inv.once, inv.unnumbered, inv.unblocked, inv.ended,
    fun _ => Or.inr ⟨link, value, version, held, phase⟩, fun none => nomatch none⟩

theorem connected_inv (inv : Inv hub) (version : String) (current : hub.current.isSome) :
    Inv { hub with status := some version } :=
  ⟨inv.newLink, inv.newRequest, inv.waiters, inv.delivering, inv.slots, inv.own, inv.replied,
    inv.finished, inv.once, inv.unnumbered, inv.unblocked, inv.ended, fun _ => Or.inl rfl, by
      intro missing
      rw [show hub.current = none from missing] at current
      cases current⟩

theorem disconnected_inv (inv : Inv hub) : Inv { hub with current := none, status := none } :=
  ⟨inv.newLink, inv.newRequest, inv.waiters, inv.delivering, inv.slots, inv.own, inv.replied,
    inv.finished, inv.once, inv.unnumbered, inv.unblocked, inv.ended,
    fun current => absurd current Bool.false_ne_true, fun _ => rfl⟩

end

/-! Requests. -/

section
variable {hub : Hub}

theorem OnLink.mono {next : Hub} {request link id : ℕ} (on : hub.OnLink request link id)
    (keeps : ∀ value, hub.requests request = some value → value.id = some id →
      ∃ new, next.requests request = some new ∧ new.link = value.link ∧ new.id = some id) :
    next.OnLink request link id := by
  obtain ⟨value, held, same, number⟩ := on
  obtain ⟨new, found, link', id'⟩ := keeps value held number
  exact ⟨new, found, link'.trans same, id'⟩

/-- A request's next value, before its reply: on its link, its id kept, its slot filled by the link
alone. -/
theorem setRequest_inv (inv : Inv hub) {request : ℕ} {old : Request}
    (held : hub.requests request = some old) (value : Request) (link : value.link = old.link)
    (id : value.id = old.id ∨ old.id = none)
    (slot : ∀ from' response, value.slot = .filled from' response →
      old.slot = .filled from' response ∨ value.link = from' ∧ value.id = some response.id)
    (before : old.phase ≠ .finished) (now : value.phase ≠ .finished)
    (unnumbered : value.phase = .accepted → value.id = none) (unblocked : value.phase ≠ .blocked) :
    Inv (hub.setRequest request value) := by
  have keeps : ∀ {other link' number : ℕ}, hub.OnLink other link' number →
      (hub.setRequest request value).OnLink other link' number := by
    intro other link' number on
    apply on.mono
    intro known found numbered
    by_cases same : other = request
    · subst same
      cases held.symm.trans found
      refine ⟨value, by rw [requests_setRequest, if_pos rfl], link, ?_⟩
      rcases id with same | missing
      · exact same.trans numbered
      · cases missing.symm.trans numbered
    · exact ⟨known, by rw [requests_setRequest, if_neg same]; exact found, rfl, numbered⟩
  constructor
  · exact inv.newLink
  · intro other above
    rw [requests_setRequest, if_neg, inv.newRequest other above]
    rintro rfl
    cases held.symm.trans (inv.newRequest other above)
  · exact fun other new number waiter found waits =>
      keeps (inv.waiters other new number waiter found waits)
  · exact fun other new waiter response found phase =>
      keeps (inv.delivering other new waiter response found phase)
  · intro other new from' response found filled
    rw [requests_setRequest] at found
    split at found
    next same =>
      cases found
      rcases slot from' response filled with before | ⟨on, number⟩
      · exact keeps (same ▸ inv.slots request old from' response held before)
      · exact ⟨value, by rw [requests_setRequest, if_pos same], on, number⟩
    · exact keeps (inv.slots other new from' response found filled)
  · exact fun other link' response gone => keeps (inv.own other link' response gone)
  · intro other reply gone
    obtain ⟨known, found, phase⟩ := inv.replied other reply gone
    refine ⟨known, ?_, phase⟩
    rw [requests_setRequest, if_neg, found]
    rintro rfl
    cases held.symm.trans found
    exact before phase
  · intro other known found phase
    rw [requests_setRequest] at found
    split at found
    · cases found
      exact absurd phase now
    · exact inv.finished other known found phase
  · exact inv.once
  · intro other known found phase
    rw [requests_setRequest] at found
    split at found
    · cases found
      exact unnumbered phase
    · exact inv.unnumbered other known found phase
  · intro other known found
    rw [requests_setRequest] at found
    split at found
    · cases found
      exact unblocked
    · exact inv.unblocked other known found
  · exact inv.ended
  · exact inv.shown
  · exact inv.hidden

/-- The reply of a request that had none. -/
theorem answer_inv (inv : Inv hub) {request : ℕ} {old : Request}
    (held : hub.requests request = some old) (before : old.phase ≠ .finished) (value : Request)
    (link : value.link = old.link) (id : value.id = old.id)
    (slot : ∀ link response, value.slot = .filled link response → hub.OnLink request link response.id)
    (reply : Reply)
    (own : ∀ link response, reply = .controller link response → hub.OnLink request link response.id) :
    Inv (hub.answer request value reply) := by
  have keeps : ∀ {other on' number : ℕ}, hub.OnLink other on' number →
      (hub.answer request value reply).OnLink other on' number := by
    intro other on' number on
    apply on.mono
    intro known found numbered
    by_cases same : other = request
    · subst same
      cases held.symm.trans found
      exact ⟨_, (requests_setRequest hub other other _).trans (if_pos rfl), link, id.trans numbered⟩
    · exact ⟨known, (requests_setRequest hub request other _).trans ((if_neg same).trans found), rfl,
        numbered⟩
  have unanswered : ∀ other, (request, other) ∉ hub.replies := by
    intro other gone
    obtain ⟨known, found, phase⟩ := inv.replied request other gone
    cases held.symm.trans found
    exact before phase
  have cases' : ∀ other known, (hub.answer request value reply).requests other = some known →
      other = request ∧ known = { value with phase := .finished } ∨
        other ≠ request ∧ hub.requests other = some known := by
    intro other known found
    have found' := (requests_setRequest hub request other _).symm.trans found
    split at found'
    next same =>
      cases found'
      exact Or.inl ⟨same, rfl⟩
    next apart => exact Or.inr ⟨apart, found'⟩
  constructor
  · exact inv.newLink
  · intro other above
    refine (requests_setRequest hub request other _).trans ((if_neg ?_).trans (inv.newRequest other above))
    rintro rfl
    cases held.symm.trans (inv.newRequest other above)
  · exact fun other new number waiter found waits =>
      keeps (inv.waiters other new number waiter found waits)
  · exact fun other new waiter response found phase =>
      keeps (inv.delivering other new waiter response found phase)
  · intro other new link response found filled
    rcases cases' other new found with ⟨rfl, rfl⟩ | ⟨-, found⟩
    · exact keeps (slot link response filled)
    · exact keeps (inv.slots other new link response found filled)
  · intro other link response gone
    rcases List.mem_cons.mp gone with same | gone
    · cases same
      exact keeps (own link response rfl)
    · exact keeps (inv.own other link response gone)
  · intro other gone' gone
    rcases List.mem_cons.mp gone with same | gone
    · cases same
      exact ⟨_, (requests_setRequest hub request request _).trans (if_pos rfl), rfl⟩
    · obtain ⟨known, found, phase⟩ := inv.replied other gone' gone
      refine ⟨known, (requests_setRequest hub request other _).trans ((if_neg ?_).trans found), phase⟩
      rintro rfl
      exact unanswered gone' gone
  · intro other known found phase
    rcases cases' other known found with ⟨rfl, -⟩ | ⟨-, found⟩
    · exact ⟨reply, List.mem_cons_self⟩
    · obtain ⟨gone', gone⟩ := inv.finished other known found phase
      exact ⟨gone', List.mem_cons_of_mem _ gone⟩
  · refine List.nodup_cons.mpr ⟨?_, inv.once⟩
    intro held'
    obtain ⟨⟨other, gone'⟩, gone, same⟩ := List.mem_map.mp held'
    cases same
    exact unanswered gone' gone
  · intro other known found phase
    rcases cases' other known found with ⟨rfl, rfl⟩ | ⟨-, found⟩
    · cases phase
    · exact inv.unnumbered other known found phase
  · intro other known found
    rcases cases' other known found with ⟨rfl, rfl⟩ | ⟨-, found⟩
    · intro phase
      cases phase
    · exact inv.unblocked other known found
  · exact inv.ended
  · exact inv.shown
  · exact inv.hidden

theorem closeSlot_cases (value : Request) :
    (closeSlot value).link = value.link ∧ (closeSlot value).id = value.id ∧
      (closeSlot value).phase = value.phase ∧
      ∀ link response, (closeSlot value).slot = .filled link response →
        value.slot = .filled link response := by
  rw [closeSlot]
  split
  · exact ⟨rfl, rfl, rfl, fun _ _ closed => nomatch closed⟩
  · exact ⟨rfl, rfl, rfl, fun _ _ filled => filled⟩

/-- Dropped waiters only close slots. -/
theorem dropWaiters_requests (waiters : List ℕ) (request : ℕ) (value : Request)
    (found : (hub.dropWaiters waiters).requests request = some value) :
    ∃ old, hub.requests request = some old ∧ value.link = old.link ∧ value.id = old.id ∧
      value.phase = old.phase ∧ ∀ link response, value.slot = .filled link response →
        old.slot = .filled link response := by
  obtain ⟨old, held, rfl⟩ := Option.map_eq_some_iff.mp found
  refine ⟨old, held, ?_⟩
  split
  · exact closeSlot_cases old
  · exact ⟨rfl, rfl, rfl, fun _ _ filled => filled⟩

theorem dropWaiters_keeps (waiters : List ℕ) {request : ℕ} {value : Request}
    (held : hub.requests request = some value) :
    ∃ new, (hub.dropWaiters waiters).requests request = some new ∧ new.link = value.link ∧
      new.id = value.id ∧ new.phase = value.phase := by
  refine ⟨if request ∈ waiters then closeSlot value else value, ?_, ?_⟩
  · exact (congrArg (Option.map _) held).trans rfl
  · split
    · obtain ⟨link, id, phase, -⟩ := closeSlot_cases value
      exact ⟨link, id, phase⟩
    · exact ⟨rfl, rfl, rfl⟩

theorem dropWaiters_inv (inv : Inv hub) (waiters : List ℕ) : Inv (hub.dropWaiters waiters) := by
  have keeps : ∀ {request link number : ℕ}, hub.OnLink request link number →
      (hub.dropWaiters waiters).OnLink request link number := by
    intro request link number on
    apply on.mono
    intro value held numbered
    obtain ⟨new, found, link', id', -⟩ := dropWaiters_keeps waiters held
    exact ⟨new, found, link', id'.trans numbered⟩
  constructor
  · exact inv.newLink
  · intro request above
    exact (congrArg (Option.map _) (inv.newRequest request above)).trans rfl
  · exact fun other new number waiter found waits =>
      keeps (inv.waiters other new number waiter found waits)
  · exact fun other new waiter response found phase =>
      keeps (inv.delivering other new waiter response found phase)
  · intro request value link response found filled
    obtain ⟨old, held, -, -, -, slot⟩ := dropWaiters_requests waiters request value found
    exact keeps (inv.slots request old link response held (slot link response filled))
  · exact fun other link response gone => keeps (inv.own other link response gone)
  · intro request reply gone
    obtain ⟨value, held, phase⟩ := inv.replied request reply gone
    obtain ⟨new, found, -, -, same⟩ := dropWaiters_keeps waiters held
    exact ⟨new, found, same.trans phase⟩
  · intro request value found phase
    obtain ⟨old, held, -, -, same, -⟩ := dropWaiters_requests waiters request value found
    exact inv.finished request old held (same.symm.trans phase)
  · exact inv.once
  · intro request value found phase
    obtain ⟨old, held, -, id, same, -⟩ := dropWaiters_requests waiters request value found
    exact id.trans (inv.unnumbered request old held (same.symm.trans phase))
  · intro request value found
    obtain ⟨old, held, -, -, same, -⟩ := dropWaiters_requests waiters request value found
    rw [same]
    exact inv.unblocked request old held
  · exact inv.ended
  · exact inv.shown
  · exact inv.hidden

/-- A waiter taken out of a link's map. -/
theorem keep_inv (inv : Inv hub) {link : ℕ} {value : Link} (held : hub.links link = some value)
    (id : ℕ) : Inv (hub.setLink link { value with pending := value.pending.keep fun k _ => k ≠ id }) := by
  apply setLink_inv inv held
  · intro number request waits
    exact inv.waiters link value number request held (Table.lookup_keep.mp waits).1
  · intro request response phase
    exact inv.delivering link value request response held phase
  · intro phase number
    cases found : (value.pending.keep fun k _ => k ≠ id).lookup number with
    | none => rfl
    | some request =>
      have before := (Table.lookup_keep.mp found).1
      rw [inv.ended link value held phase number] at before
      cases before
  · intro version phase
    exact Or.inr ⟨version, phase⟩

theorem removeWaiter_inv (inv : Inv hub) (link : ℕ) (id : Option ℕ) :
    Inv (hub.removeWaiter link id) := by
  unfold removeWaiter
  split
  next value number held =>
    exact @keep_inv (hub.dropWaiters (value.pending.lookup number).toList)
      (dropWaiters_inv inv _) link value held number
  · exact inv

theorem removeWaiter_keeps {request : ℕ} {value : Request} (held : hub.requests request = some value)
    (link : ℕ) (id : Option ℕ) :
    ∃ new, (hub.removeWaiter link id).requests request = some new ∧ new.link = value.link ∧
      new.id = value.id ∧ new.phase = value.phase := by
  unfold removeWaiter
  split
  · exact dropWaiters_keeps _ held
  · exact ⟨value, held, rfl, rfl, rfl⟩

end

/-! Steps. -/

section
attribute [local simp] linkStep requestStep
variable {hub : Hub}

/-- It keeps its waiters and its phase. -/
theorem notifyCurrent_links {link : ℕ} {value : Link} (held : hub.links link = some value) :
    ∃ known, hub.notifyCurrent.links link = some known ∧ known.phase = value.phase ∧
      known.pending = value.pending := by
  unfold notifyCurrent
  split
  · exact ⟨value, held, rfl, rfl⟩
  next old _ =>
    split
    · exact ⟨value, held, rfl, rfl⟩
    next known found =>
      by_cases same : link = old
      · subst same
        cases held.symm.trans found
        exact ⟨{ value with notified := true }, by rw [links_setLink, if_pos rfl], rfl, rfl⟩
      · exact ⟨value, by rw [links_setLink, if_neg same]; exact held, rfl, rfl⟩

theorem notifyCurrent_inv (inv : Inv hub) : Inv hub.notifyCurrent := by
  unfold notifyCurrent
  split
  · exact inv
  next old _ =>
    split
    · exact inv
    next known found =>
      exact advance_inv inv found { known with notified := true } rfl (fun _ _ _ => rfl)
        (fun past => inv.ended old known found past) (fun version same => Or.inr ⟨version, same⟩)

theorem install_inv (inv : Inv hub) {link : ℕ} {value : Link} (held : hub.links link = some value)
    {version : String} (phase : value.phase = .connected version) :
    Inv (hub.linkStep link value (.install link)) := by
  simp only [linkStep, phase]
  obtain ⟨known, found, before, pending⟩ := notifyCurrent_links held
  have advanced := advance_inv (notifyCurrent_inv inv) found { value with phase := .replaced version }
    pending.symm (fun _ _ delivering => nomatch delivering) (fun past => nomatch past)
    (fun _ _ => Or.inr ⟨version, rfl⟩)
  exact current_inv advanced ((links_setLink _ _ _ _).trans (if_pos rfl)) rfl

theorem deliver_inv (inv : Inv hub) {link request : ℕ} {value : Link} {response : Response}
    (held : hub.links link = some value) (phase : value.phase = .delivering request response) :
    Inv (hub.linkStep link value (.deliver link)) := by
  simp only [linkStep, phase]
  have on := inv.delivering link value request response held phase
  have serving := advance_inv inv held { value with phase := .serving } rfl
    (fun _ _ delivering => nomatch delivering) (fun past => nomatch past)
    (fun version replaced => by rw [phase] at replaced; cases replaced)
  obtain ⟨waiter, found, onLink, number⟩ := on
  rw [show (hub.setLink link { value with phase := .serving }).requests request = some waiter from found]
  simp only
  split
  next open' =>
    refine @setRequest_inv _ serving request waiter found _ rfl (Or.inl rfl) ?_ open'.2.1 open'.2.1
      (inv.unnumbered request waiter found) (inv.unblocked request waiter found)
    rintro from' filled ⟨⟩
    exact Or.inr ⟨onLink, number⟩
  · exact serving

theorem clear_inv (inv : Inv hub) {link : ℕ} {value : Link} (held : hub.links link = some value)
    (phase : value.phase = .clearing) : Inv (hub.linkStep link value (.clear link)) := by
  simp only [linkStep, phase]
  have dropped := dropWaiters_inv inv (value.pending.rows.map Prod.snd)
  apply setLink_inv dropped held
  · intro id request waits
    cases waits
  · intro request response delivering
    cases delivering
  · intro _ id
    rfl
  · intro version replaced
    rw [phase] at replaced
    cases replaced

theorem release_inv (inv : Inv hub) {link : ℕ} {value : Link} (held : hub.links link = some value)
    (phase : value.phase = .leaving) : Inv (hub.linkStep link value (.release link true)) := by
  simp only [linkStep, phase]
  have clearing := advance_inv inv held { value with phase := .clearing } rfl
    (fun _ _ delivering => nomatch delivering) (fun past => nomatch past)
    (fun version replaced => by rw [phase] at replaced; cases replaced)
  split
  · exact disconnected_inv clearing
  · exact clearing

/-- The other steps of a link's task: it goes on with its waiters. -/
theorem onward_inv (inv : Inv hub) {link : ℕ} {value : Link} (held : hub.links link = some value)
    (now : LinkPhase) (delivers : ∀ request response, now ≠ .delivering request response)
    (past : now ≠ .ended) (before : ∀ version, value.phase ≠ .replaced version) :
    Inv (hub.setLink link { value with phase := now }) :=
  advance_inv inv held { value with phase := now } rfl
    (fun request response delivering => absurd delivering (delivers request response))
    (fun ended => absurd ended past) (fun version replaced => absurd replaced (before version))

theorem hello_inv (inv : Inv hub) {link : ℕ} {value : Link} (held : hub.links link = some value)
    (phase : value.phase = .attached) (version : Option String) :
    Inv (hub.linkStep link value (.hello link version)) := by
  have apart : ∀ version, value.phase ≠ .replaced version := by
    intro version replaced
    rw [phase] at replaced
    cases replaced
  simp only [linkStep, phase]
  cases version with
  | none =>
    exact setLink_inv inv held { value with phase := .ended, pending := ∅ }
      (fun _ _ waits => nomatch waits) (fun _ _ delivering => nomatch delivering) (fun _ _ => rfl)
      (fun version replaced => absurd replaced (apart version))
  | some version =>
    have connected := setLink_inv inv held
      { value with phase := .connected version, generation := hub.generations % wrap, pending := ∅ }
      (fun _ _ waits => nomatch waits) (fun _ _ delivering => nomatch delivering) (fun _ _ => rfl)
      (fun version replaced => absurd replaced (apart version))
    exact generations_inv connected (hub.generations + 1)

theorem announce_inv (inv : Inv hub) {link : ℕ} {value : Link} (held : hub.links link = some value)
    {version : String} (phase : value.phase = .replaced version) (current : hub.current.isSome) :
    Inv (hub.linkStep link value (.announce link true)) := by
  simp only [linkStep, phase]
  have shown := connected_inv inv version current
  exact advance_inv shown held { value with phase := .serving } rfl
    (fun _ _ delivering => nomatch delivering) (fun past => nomatch past) (fun _ _ => Or.inl rfl)

theorem response_inv (inv : Inv hub) {link : ℕ} {value : Link} (held : hub.links link = some value)
    (phase : value.phase = .serving) (response : Response) :
    Inv (hub.linkStep link value (.response link response)) := by
  simp only [linkStep, phase]
  split
  · exact inv
  next request waits =>
    apply setLink_inv inv held
    · intro id other found
      exact inv.waiters link value id other held (Table.lookup_keep.mp found).1
    · rintro other known ⟨⟩
      exact inv.waiters link value response.id request held waits
    · intro past
      cases past
    · intro version replaced
      rw [phase] at replaced
      cases replaced

end

section
variable {hub : Hub} {request : ℕ} {value : Request}

theorem trySend_inv (inv : Inv hub) (held : hub.requests request = some value)
    (phase : value.phase = .registered) (room : ∀ link, hub.links value.link = some link →
      link.receiver = true → link.queue < hub.concurrent) :
    Inv (hub.trySend request value) := by
  have open' : value.phase ≠ .finished := by
    rw [phase]
    intro past
    cases past
  have moves : ∀ next : Hub, Inv next → next.requests request = some value → ∀ now : Phase,
      now ≠ .finished → now ≠ .accepted → now ≠ .blocked →
        Inv (next.setRequest request { value with phase := now }) := by
    intro next inv' held' now unfinished unaccepted unblocked
    exact setRequest_inv inv' held' { value with phase := now } rfl (Or.inl rfl)
      (fun _ _ filled => Or.inl filled) open' unfinished (fun same => absurd same unaccepted) unblocked
  unfold trySend
  split
  · exact moves hub inv held .refused (by decide) (by decide) (by decide)
  next link found =>
    split
    · exact moves hub inv held .refused (by decide) (by decide) (by decide)
    next listening =>
      rw [if_pos (room link found (by simpa using listening))]
      have queued := advance_inv inv found { link with queue := link.queue + 1 } rfl (fun _ _ _ => rfl)
        (fun past => inv.ended _ link found past) (fun version same => Or.inr ⟨version, same⟩)
      exact moves _ queued held .waiting (by decide) (by decide) (by decide)

theorem register_inv (inv : Inv hub) (held : hub.requests request = some value)
    (phase : value.phase = .numbered)
    (open' : ∀ link, hub.links value.link = some link → link.phase ≠ .ended) :
    Inv (hub.requestStep request value (.register request)) := by
  have moves : ∀ next : Hub, Inv next → ∀ known, next.requests request = some known →
      known.link = value.link → known.id = value.id → known.phase = value.phase →
      (∀ link response, value.slot = .filled link response → known.slot = .filled link response ∨
        value.link = link ∧ value.id = some response.id) →
        Inv (next.setRequest request { value with phase := .registered }) := by
    intro next inv' known held' link id same slot
    refine setRequest_inv inv' held' { value with phase := .registered } link.symm (Or.inl id.symm) slot ?_
      (fun past => nomatch past) (fun accepted => nomatch accepted) (fun blocked => nomatch blocked)
    rw [same, phase]
    intro past
    cases past
  simp only [requestStep, phase]
  split
  next link id found number =>
    -- A waiter that stood under the id is dropped; then this request's stands there.
    have dropped := dropWaiters_inv inv (link.pending.lookup id).toList
    obtain ⟨known, held', onLink, sameId, samePhase⟩ :=
      dropWaiters_keeps (link.pending.lookup id).toList held
    have stands := @setLink_inv _ dropped value.link link found
      { link with pending := link.pending.put id request } ?_ ?_ ?_ ?_
    · apply moves _ stands known held' onLink sameId samePhase
      intro from' response filled
      obtain ⟨_, held'', on⟩ := inv.slots request value from' response held filled
      cases held.symm.trans held''
      exact Or.inr on
    · intro other waiter waits
      rw [Table.lookup_put] at waits
      split at waits
      next same =>
        cases waits
        exact ⟨known, held', onLink, by rw [sameId, number, same]⟩
      · exact dropped.waiters value.link link other waiter found waits
    · intro waiter response delivering
      exact dropped.delivering value.link link waiter response found delivering
    · intro past
      exact absurd past (open' link found)
    · intro version same
      exact Or.inr ⟨version, same⟩
  · exact moves hub inv value held rfl rfl rfl fun _ _ filled => Or.inl filled

theorem withdraw_inv (inv : Inv hub) (held : hub.requests request = some value)
    (open' : value.phase ≠ .finished) (reply : Reply)
    (own : ∀ link response, reply ≠ .controller link response) :
    Inv ((hub.removeWaiter value.link value.id).answer request value reply) := by
  obtain ⟨known, held', link, id, phase⟩ := removeWaiter_keeps held value.link value.id
  apply answer_inv (removeWaiter_inv inv _ _) held' (by rw [phase]; exact open') value link.symm id.symm
  · intro from' response filled
    obtain ⟨_, held'', on⟩ := inv.slots request value from' response held filled
    cases held.symm.trans held''
    exact ⟨known, held', link.trans on.1, id.trans on.2⟩
  · intro from' response same
    exact absurd same (own from' response)

theorem receive_inv (inv : Inv hub) (held : hub.requests request = some value)
    (phase : value.phase = .waiting) :
    Inv (hub.requestStep request value (.receive request)) := by
  have open' : value.phase ≠ .finished := by
    rw [phase]
    intro past
    cases past
  have answered : ∀ reply, (∀ link response, reply = .controller link response →
      hub.OnLink request link response.id) → Inv (hub.answer request value reply) := by
    intro reply own
    exact answer_inv inv held open' value rfl rfl
      (fun link response filled => inv.slots request value link response held filled) reply own
  simp only [requestStep, phase]
  split
  next link response filled =>
    apply answered
    rintro _ _ ⟨⟩
    exact inv.slots request value link response held filled
  · apply answered
    rintro _ _ ⟨⟩
  · exact inv

theorem body_inv (inv : Inv hub) (held : hub.requests request = some value)
    (phase : value.phase = .accepted) (ok : Bool) :
    Inv (hub.requestStep request value (.body request ok)) := by
  have open' : value.phase ≠ .finished := by
    rw [phase]
    intro past
    cases past
  simp only [requestStep, phase]
  cases ok with
  | true =>
    have numbered := setRequest_inv inv held
      { value with phase := .numbered, id := some (hub.ids % wrap) } rfl
      (Or.inr (inv.unnumbered request value held phase)) (fun _ _ filled => Or.inl filled) open'
      (fun past => nomatch past) (fun accepted => nomatch accepted) (fun blocked => nomatch blocked)
    exact ids_inv numbered (hub.ids + 1)
  | false =>
    exact answer_inv inv held open' value rfl rfl
      (fun link response filled => inv.slots request value link response held filled) _
      (fun _ _ same => nomatch same)

theorem expire_inv (inv : Inv hub) (held : hub.requests request = some value)
    (phase : value.phase = .waiting) :
    Inv (hub.requestStep request value (.expire request)) := by
  simp only [requestStep, phase]
  split
  · refine setRequest_inv inv held { value with phase := .timedOut } rfl (Or.inl rfl)
      (fun _ _ filled => Or.inl filled) ?_ (fun past => nomatch past) (fun accepted => nomatch accepted)
      (fun blocked => nomatch blocked)
    rw [phase]
    intro past
    cases past
  · exact inv

/-- A request that is new, answered at once or on its way. -/
theorem arrive_inv (inv : Inv hub) : Inv hub.arrive := by
  have free := inv.newRequest hub.nextRequest (Nat.le_refl _)
  have counted : ∀ new : Request, new.slot = .empty → (new.phase = .accepted → new.id = none) →
      new.phase ≠ .blocked → ∀ replies : List (ℕ × Reply),
      (replies = hub.replies ∧ new.phase ≠ .finished ∨
        new.phase = .finished ∧ ∃ reply, (∀ link response, reply ≠ Reply.controller link response) ∧
          replies = (hub.nextRequest, reply) :: hub.replies) →
      Inv { hub.setRequest hub.nextRequest new with
        nextRequest := hub.nextRequest + 1, replies := replies } := by
    intro new empty unnumbered unblocked replies told
    have keeps : ∀ {other link number : ℕ}, hub.OnLink other link number →
        ({ hub.setRequest hub.nextRequest new with
          nextRequest := hub.nextRequest + 1, replies := replies } : Hub).OnLink other link number := by
      intro other link number on
      apply on.mono
      intro known found numbered
      refine ⟨known, (requests_setRequest _ _ _ _).trans ((if_neg ?_).trans found), rfl, numbered⟩
      rintro rfl
      cases free.symm.trans found
    have old : ∀ other known, (hub.setRequest hub.nextRequest new).requests other = some known →
        other = hub.nextRequest ∧ known = new ∨ other ≠ hub.nextRequest ∧
          hub.requests other = some known := by
      intro other known found
      rw [requests_setRequest] at found
      split at found
      next same =>
        cases found
        exact Or.inl ⟨same, rfl⟩
      next apart => exact Or.inr ⟨apart, found⟩
    have before : ∀ other reply, (other, reply) ∈ replies →
        (other, reply) ∈ hub.replies ∨ other = hub.nextRequest ∧ new.phase = .finished ∧
          ∀ link response, reply ≠ Reply.controller link response := by
      intro other reply gone
      rcases told with ⟨same, -⟩ | ⟨phase, first, apart, same⟩
      · rw [same] at gone
        exact Or.inl gone
      · rw [same] at gone
        rcases List.mem_cons.mp gone with here | gone
        · cases here
          exact Or.inr ⟨rfl, phase, apart⟩
        · exact Or.inl gone
    constructor
    · exact inv.newLink
    · intro other above
      have apart : other ≠ hub.nextRequest := Nat.ne_of_gt above
      exact (requests_setRequest _ _ _ _).trans
        ((if_neg apart).trans (inv.newRequest other (Nat.le_of_succ_le above)))
    · exact fun other known number waiter found waits =>
        keeps (inv.waiters other known number waiter found waits)
    · exact fun other known waiter response found phase =>
        keeps (inv.delivering other known waiter response found phase)
    · intro other known link response found filled
      rcases old other known found with ⟨rfl, rfl⟩ | ⟨-, found⟩
      · rw [empty] at filled
        cases filled
      · exact keeps (inv.slots other known link response found filled)
    · intro other link response gone
      rcases before other _ gone with gone | ⟨-, -, apart⟩
      · exact keeps (inv.own other link response gone)
      · exact absurd rfl (apart link response)
    · intro other reply gone
      rcases before other reply gone with gone | ⟨rfl, phase, -⟩
      · obtain ⟨known, found, phase⟩ := inv.replied other reply gone
        refine ⟨known, (requests_setRequest _ _ _ _).trans ((if_neg ?_).trans found), phase⟩
        rintro rfl
        cases free.symm.trans found
      · exact ⟨new, (requests_setRequest _ _ _ _).trans (if_pos rfl), phase⟩
    · intro other known found phase
      rcases old other known found with ⟨rfl, rfl⟩ | ⟨-, found⟩
      · rcases told with ⟨-, unfinished⟩ | ⟨-, reply, -, same⟩
        · exact absurd phase unfinished
        · exact ⟨reply, by rw [show Hub.replies _ = replies from rfl, same]; exact List.mem_cons_self⟩
      · obtain ⟨reply, gone⟩ := inv.finished other known found phase
        rcases told with ⟨same, -⟩ | ⟨-, first, -, same⟩
        · exact ⟨reply, same ▸ gone⟩
        · exact ⟨reply, same ▸ List.mem_cons_of_mem _ gone⟩
    · rcases told with ⟨same, -⟩ | ⟨-, reply, -, same⟩
      · exact same ▸ inv.once
      · refine same ▸ List.nodup_cons.mpr ⟨?_, inv.once⟩
        intro held
        obtain ⟨⟨other, reply'⟩, gone, here⟩ := List.mem_map.mp held
        cases here
        obtain ⟨known, found, -⟩ := inv.replied _ reply' gone
        cases free.symm.trans found
    · intro other known found phase
      rcases old other known found with ⟨rfl, rfl⟩ | ⟨-, found⟩
      · exact unnumbered phase
      · exact inv.unnumbered other known found phase
    · intro other known found
      rcases old other known found with ⟨rfl, rfl⟩ | ⟨-, found⟩
      · exact unblocked
      · exact inv.unblocked other known found
    · exact inv.ended
    · exact inv.shown
    · exact inv.hidden
  have rejected : ∀ reply : Reply, (∀ link response, reply ≠ .controller link response) →
      Inv { hub.setRequest hub.nextRequest ⟨0, none, .finished, .empty⟩ with
        nextRequest := hub.nextRequest + 1, replies := (hub.nextRequest, reply) :: hub.replies } :=
    fun reply apart => counted ⟨0, none, .finished, .empty⟩ rfl (fun _ => rfl) (by decide) _
      (Or.inr ⟨rfl, reply, apart, rfl⟩)
  unfold arrive
  simp only
  split
  · exact rejected .relayBusy fun _ _ same => nomatch same
  · split
    · exact rejected .controllerUnavailable fun _ _ same => nomatch same
    next link _ =>
      have accepted := counted ⟨link, none, .accepted, .empty⟩ rfl (fun _ => rfl)
        (fun blocked => nomatch blocked) hub.replies (Or.inl ⟨rfl, fun past => nomatch past⟩)
      exact permits_inv accepted (hub.permits - 1)

end

section
variable {hub : Hub} {link : ℕ} {value : Link}

theorem serving_inv (inv : Inv hub) (held : hub.links link = some value)
    (phase : value.phase = .serving) : Inv (hub.setLink link { value with phase := .leaving }) := by
  apply onward_inv inv held
  · rintro _ _ ⟨⟩
  · rintro ⟨⟩
  · intro version replaced
    rw [phase] at replaced
    cases replaced

/-- One sound step of a link's task, whichever message it has. -/
theorem linkStep_inv (inv : Inv hub) (held : hub.links link = some value) {event : Event}
    (announces : ∀ other written version, event = .announce other written →
      value.phase = .replaced version → written = true ∧ hub.current.isSome)
    (releases : ∀ other written, event = .release other written → written = true) :
    Inv (hub.linkStep link value event) := by
  cases phase : value.phase with
  | attached =>
    cases event with
    | hello other version =>
      have same : hub.linkStep link value (.hello other version) =
          hub.linkStep link value (.hello link version) := by simp only [linkStep, phase]
      rw [same]
      exact hello_inv inv held phase version
    | _ => simpa only [linkStep, phase] using inv
  | connected version =>
    cases event with
    | install other =>
      have same : hub.linkStep link value (.install other) = hub.linkStep link value (.install link) := by
        simp only [linkStep, phase]
      rw [same]
      exact install_inv inv held phase
    | _ => simpa only [linkStep, phase] using inv
  | replaced version =>
    cases event with
    | announce other written =>
      obtain ⟨rfl, current⟩ := announces other written version rfl phase
      have same : hub.linkStep link value (.announce other true) =
          hub.linkStep link value (.announce link true) := by simp only [linkStep, phase]
      rw [same]
      exact announce_inv inv held phase current
    | _ => simpa only [linkStep, phase] using inv
  | serving =>
    cases event with
    | response other response =>
      have same : hub.linkStep link value (.response other response) =
          hub.linkStep link value (.response link response) := by simp only [linkStep, phase]
      rw [same]
      exact response_inv inv held phase response
    | lose other =>
      simp only [linkStep, phase]
      exact serving_inv inv held phase
    | giveWay other =>
      simp only [linkStep, phase]
      split
      · exact serving_inv inv held phase
      · exact inv
    | _ => simpa only [linkStep, phase] using inv
  | delivering request response =>
    cases event with
    | deliver other =>
      have same : hub.linkStep link value (.deliver other) = hub.linkStep link value (.deliver link) := by
        simp only [linkStep, phase]
      rw [same]
      exact deliver_inv inv held phase
    | _ => simpa only [linkStep, phase] using inv
  | leaving =>
    cases event with
    | release other written =>
      obtain rfl := releases other written rfl
      have same : hub.linkStep link value (.release other true) =
          hub.linkStep link value (.release link true) := by simp only [linkStep, phase]
      rw [same]
      exact release_inv inv held phase
    | _ => simpa only [linkStep, phase] using inv
  | clearing =>
    cases event with
    | clear other =>
      have same : hub.linkStep link value (.clear other) = hub.linkStep link value (.clear link) := by
        simp only [linkStep, phase]
      rw [same]
      exact clear_inv inv held phase
    | _ => simpa only [linkStep, phase] using inv
  | ended => simpa only [linkStep, phase] using inv

end

section
variable {hub : Hub} {request : ℕ} {value : Request}

/-- One sound step of a request. -/
theorem requestStep_inv (inv : Inv hub) (held : hub.requests request = some value) {event : Event}
    (registers : ∀ other link, event = .register other → value.phase = .numbered →
      hub.links value.link = some link → link.phase ≠ .ended)
    (sends : ∀ other link, event = .send other → hub.links value.link = some link →
      link.receiver = true → link.queue < hub.concurrent) :
    Inv (hub.requestStep request value event) := by
  cases phase : value.phase with
  | accepted =>
    cases event with
    | body other ok =>
      have same : hub.requestStep request value (.body other ok) =
          hub.requestStep request value (.body request ok) := by simp only [requestStep, phase]
      rw [same]
      exact body_inv inv held phase ok
    | _ => simpa only [requestStep, phase] using inv
  | numbered =>
    cases event with
    | register other =>
      have same : hub.requestStep request value (.register other) =
          hub.requestStep request value (.register request) := by simp only [requestStep, phase]
      rw [same]
      exact register_inv inv held phase fun link => registers other link rfl phase
    | _ => simpa only [requestStep, phase] using inv
  | registered =>
    cases event with
    | send other =>
      simp only [requestStep, phase]
      exact trySend_inv inv held phase fun link => sends other link rfl
    | _ => simpa only [requestStep, phase] using inv
  | blocked => exact absurd phase (inv.unblocked request value held)
  | waiting =>
    cases event with
    | receive other =>
      have same : hub.requestStep request value (.receive other) =
          hub.requestStep request value (.receive request) := by simp only [requestStep, phase]
      rw [same]
      exact receive_inv inv held phase
    | expire other =>
      have same : hub.requestStep request value (.expire other) =
          hub.requestStep request value (.expire request) := by simp only [requestStep, phase]
      rw [same]
      exact expire_inv inv held phase
    | _ => simpa only [requestStep, phase] using inv
  | refused =>
    cases event with
    | withdraw other =>
      simp only [requestStep, phase]
      exact withdraw_inv inv held (by rw [phase]; intro past; cases past) _ fun _ _ same => nomatch same
    | _ => simpa only [requestStep, phase] using inv
  | timedOut =>
    cases event with
    | withdraw other =>
      simp only [requestStep, phase]
      exact withdraw_inv inv held (by rw [phase]; intro past; cases past) _ fun _ _ same => nomatch same
    | _ => simpa only [requestStep, phase] using inv
  | finished => simpa only [requestStep, phase] using inv

end

section
variable {hub : Hub}

/-- Changes of a link's channel alone. -/
theorem channel_inv (inv : Inv hub) {link : ℕ} {value : Link} (held : hub.links link = some value)
    (queue : ℕ) (receiver : Bool) :
    Inv (hub.setLink link { value with queue := queue, receiver := receiver }) :=
  advance_inv inv held { value with queue := queue, receiver := receiver } rfl (fun _ _ _ => rfl)
    (fun past => inv.ended link value held past) (fun version same => Or.inr ⟨version, same⟩)

/-- One sound step keeps the invariant. -/
theorem step_inv (inv : Inv hub) {event : Event} (sound : hub.Sound event) : Inv (hub.step event) := by
  cases event with
  | attach => exact attach_inv inv
  | arrive => exact arrive_inv inv
  | transmit link =>
    simp only [step]
    split
    · exact inv
    next value held => exact channel_inv inv held (value.queue - 1) value.receiver
  | hangUp link =>
    simp only [step]
    split
    · exact inv
    next value held => exact channel_inv inv held value.queue false
  | announce link written =>
    simp only [step]
    split
    · exact inv
    next value held =>
      apply linkStep_inv inv held
      · rintro other told version ⟨⟩ phase
        exact sound value version held phase
      · rintro other told ⟨⟩
  | release link written =>
    simp only [step]
    split
    · exact inv
    next value held =>
      apply linkStep_inv inv held
      · rintro other told version ⟨⟩
      · rintro other told ⟨⟩
        exact sound
  | hello link _ | install link | response link _ | deliver link | lose link | giveWay link
  | clear link =>
    simp only [step]
    split
    · exact inv
    next value held =>
      apply linkStep_inv inv held
      · rintro other told version ⟨⟩
      · rintro other told ⟨⟩
  | register request =>
    simp only [step]
    split
    · exact inv
    next value held =>
      apply requestStep_inv inv held
      · rintro other link ⟨⟩ phase found
        exact sound value link held phase found
      · rintro other link ⟨⟩
  | send request =>
    simp only [step]
    split
    · exact inv
    next value held =>
      apply requestStep_inv inv held
      · rintro other link ⟨⟩
      · rintro other link ⟨⟩ found listening
        exact sound value link held found listening
  | body request _ | receive request | expire request | withdraw request =>
    simp only [step]
    split
    · exact inv
    next value held =>
      apply requestStep_inv inv held
      · rintro other link ⟨⟩
      · rintro other link ⟨⟩

theorem run_inv (events : List Event) (inv : Inv hub) (sound : hub.SoundRun events) :
    Inv (hub.run events) := by
  induction events generalizing hub with
  | nil => exact inv
  | cons event rest ih =>
    obtain ⟨now, later⟩ := sound
    exact ih (step_inv inv now) later

/-! What the invariant gives. -/

/-- The phase after a request's own step. -/
theorem moved {request : ℕ} {value new : Request} {next : Hub}
    (found : next.requests request = some new) (phase : new.phase ≠ value.phase) :
    next.requests request ≠ some value := by
  rw [found]
  rintro ⟨⟩
  exact phase rfl

theorem set_moved {request : ℕ} {value new : Request} (next : Hub) (phase : new.phase ≠ value.phase) :
    (next.setRequest request new).requests request ≠ some value :=
  moved ((requests_setRequest next request request new).trans (if_pos rfl)) phase

theorem answer_moved {request : ℕ} {value : Request} (next : Hub) (reply : Reply)
    (phase : value.phase ≠ .finished) : (next.answer request value reply).requests request ≠ some value :=
  moved ((requests_setRequest next request request _).trans (if_pos rfl)) (Ne.symm phase)

theorem trySend_moved {request : ℕ} {value : Request} (phase : value.phase = .registered) :
    (hub.trySend request value).requests request ≠ some value := by
  unfold trySend
  split
  · exact set_moved hub (by rw [phase]; exact fun same => nomatch same)
  · split
    · exact set_moved hub (by rw [phase]; exact fun same => nomatch same)
    · split
      · exact set_moved _ (by rw [phase]; exact fun same => nomatch same)
      · exact set_moved hub (by rw [phase]; exact fun same => nomatch same)

/-- Each request that has no reply yet has a step of its own to it. -/
theorem Inv.moves (inv : Inv hub) (request : ℕ) (value : Request)
    (held : hub.requests request = some value) : value.phase = .finished ∨
      ∃ event, subject event = some request ∧ (hub.step event).requests request ≠ some value := by
  cases phase : value.phase with
  | accepted =>
    refine Or.inr ⟨.body request true, rfl, ?_⟩
    simp only [step, held, requestStep, phase]
    exact set_moved hub (by rw [phase]; exact fun same => nomatch same)
  | numbered =>
    refine Or.inr ⟨.register request, rfl, ?_⟩
    simp only [step, held, requestStep, phase]
    split
    · exact set_moved _ (by rw [phase]; exact fun same => nomatch same)
    · exact set_moved hub (by rw [phase]; exact fun same => nomatch same)
  | registered =>
    refine Or.inr ⟨.send request, rfl, ?_⟩
    simp only [step, held, requestStep, phase]
    exact trySend_moved phase
  | blocked => exact absurd phase (inv.unblocked request value held)
  | waiting =>
    have unfinished : value.phase ≠ .finished := by
      rw [phase]
      exact fun same => nomatch same
    cases slot : value.slot with
    | empty =>
      refine Or.inr ⟨.expire request, rfl, ?_⟩
      simp only [step, held, requestStep, phase, slot]
      exact set_moved hub (by rw [phase]; exact fun same => nomatch same)
    | filled link response =>
      refine Or.inr ⟨.receive request, rfl, ?_⟩
      simp only [step, held, requestStep, phase, slot]
      exact answer_moved hub _ unfinished
    | closed =>
      refine Or.inr ⟨.receive request, rfl, ?_⟩
      simp only [step, held, requestStep, phase, slot]
      exact answer_moved hub _ unfinished
  | refused =>
    refine Or.inr ⟨.withdraw request, rfl, ?_⟩
    simp only [step, held, requestStep, phase]
    exact answer_moved _ _ (by rw [phase]; exact fun same => nomatch same)
  | timedOut =>
    refine Or.inr ⟨.withdraw request, rfl, ?_⟩
    simp only [step, held, requestStep, phase]
    exact answer_moved _ _ (by rw [phase]; exact fun same => nomatch same)
  | finished => exact Or.inl rfl

theorem Inv.answered (inv : Inv hub) : Answered hub := by
  refine ⟨inv.once, ?_, inv.own, inv.moves⟩
  intro request value held
  constructor
  · exact inv.finished request value held
  · rintro ⟨reply, gone⟩
    obtain ⟨known, found, phase⟩ := inv.replied request reply gone
    cases held.symm.trans found
    exact phase

theorem Inv.status (inv : Inv hub) : hub.StatusTrue := by
  intro rest
  constructor
  · intro written
    cases current : hub.current with
    | some _ => rfl
    | none =>
      rw [inv.hidden current] at written
      cases written
  · intro current
    rcases inv.shown current with written | ⟨link, value, version, found, phase⟩
    · exact written
    · have still := rest link value found
      rw [phase] at still
      cases still

end

/-- From a relay that starts without a stale `connected` in the file, over every run whose steps are
sound. -/
theorem link_runs (concurrent : ℕ) (events : List Event)
    (sound : (Hub.fresh concurrent none).SoundRun events) :
    Answered ((Hub.fresh concurrent none).run events) ∧
      EndedEmpty ((Hub.fresh concurrent none).run events) ∧
        StatusTrue ((Hub.fresh concurrent none).run events) := by
  have inv := run_inv events (@inv_fresh concurrent) sound
  exact ⟨inv.answered, inv.ended, inv.status⟩

/-! Runs on fixed links and requests. -/

def connect (link : ℕ) (version : String) : List Event :=
  [.attach, .hello link (some version), .install link]

def disconnect (link : ℕ) : List Event := [.lose link, .release link true, .clear link]

/-- A request up to its send. -/
def forward (request : ℕ) : List Event :=
  [.arrive, .body request true, .register request, .send request]

/-- A link that writes its state late says connected after the last link has ended; a request that
registers late stays on an ended link; and behind a transport that takes nothing from the channel
the 64th request waits in `send`, which has no timeout. -/
theorem relay_races :
    let late := (Hub.fresh 64 none).run (connect 0 "a" ++ connect 1 "b" ++ [.announce 1 true] ++
      disconnect 1 ++ [.announce 0 true, .giveWay 0, .release 0 true, .clear 0])
    let left := (Hub.fresh 64 none).run (connect 0 "a" ++ [.announce 0 true, .arrive, .body 0 true] ++
      disconnect 0 ++ [.register 0, .send 0])
    let stalled := (Hub.fresh 64 none).run (connect 0 "a" ++ [.announce 0 true] ++
      ((List.range 63).flatMap fun request => forward request ++ [.expire request, .withdraw request]) ++
      forward 63)
    (late.current = none ∧ late.status = some "a" ∧ (late.links 0).map Link.phase = some .ended ∧
        (late.links 1).map Link.phase = some .ended) ∧
      ((left.links 0).map Link.phase = some .ended ∧
        ((left.links 0).bind fun link => link.pending.lookup 0) = some 0) ∧
      (stalled.requests 63).map Request.phase = some .blocked := by
  decide +kernel

theorem link_runs_sample :
    let hub := (Hub.fresh 64 none).run (connect 0 "a" ++ [.announce 0 true] ++ forward 0 ++
      [.response 0 ⟨0, 200⟩, .deliver 0, .receive 0] ++ disconnect 0)
    Answered hub ∧ EndedEmpty hub ∧ StatusTrue hub := by
  apply link_runs
  refine ⟨trivial, trivial, trivial, ?_, trivial, trivial, ?_, ?_, trivial, trivial, trivial, trivial,
    rfl, trivial, trivial⟩
  · rintro value version - -
    exact ⟨rfl, rfl⟩
  · rintro value link held - found past
    cases held
    cases found
    cases past
  · rintro value link held found -
    cases held
    cases found
    decide

end Hub
end Relay
end NodePlane
