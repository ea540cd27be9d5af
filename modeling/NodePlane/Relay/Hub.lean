import Mathlib.Algebra.Group.Nat.Defs
import Mathlib.Logic.Function.Basic
import NodePlane.Library.Table

/-! The relay's public side: the controller's links, the requests over the current one and the
link state that is written for the agent. -/
namespace NodePlane
namespace Relay
open Library

/-- Counters and ids are 64-bit. -/
def wrap : ℕ := 2 ^ 64

/-- A response of the controller, by its id and its status. -/
structure Response where
  id : ℕ
  status : ℕ
  deriving DecidableEq, Repr

/-- What a client gets. -/
inductive Reply
  /-- A response, and the link it arrived on. -/
  | controller (link : ℕ) (response : Response)
  | relayBusy
  | controllerUnavailable
  | requestTooLarge
  | controllerTimeout
  deriving DecidableEq, Repr

/-- The status that goes out: a response's own where it is one, 502 otherwise. -/
def Reply.status : Reply → ℕ
  | .controller _ response => if 100 ≤ response.status ∧ response.status < 1000 then response.status else 502
  | .relayBusy | .controllerUnavailable => 503
  | .requestTooLarge => 413
  | .controllerTimeout => 504

/-- The one-shot channel of a request's answer; closed when its sender is dropped. -/
inductive Slot
  | empty
  | filled (link : ℕ) (response : Response)
  | closed
  deriving DecidableEq, Repr

/-- Where `forward` stands. -/
inductive Phase
  /-- It has its permit and its connection, and reads the body. -/
  | accepted
  | numbered
  | registered
  /-- `tx.send` waits for room in the channel. -/
  | blocked
  | waiting
  | refused
  | timedOut
  | finished
  deriving DecidableEq, Repr

structure Request where
  link : ℕ
  id : Option ℕ
  phase : Phase
  slot : Slot
  deriving DecidableEq, Repr

/-- Where `run` stands. -/
inductive LinkPhase
  | attached
  | connected (version : String)
  | replaced (version : String)
  | serving
  /-- It holds the waiter of a request, taken for a response. -/
  | delivering (request : ℕ) (response : Response)
  | leaving
  | clearing
  | ended
  deriving DecidableEq, Repr

/-- A link: its task, its connection's waiters by id, and the channel to the controller. -/
structure Link where
  phase : LinkPhase
  generation : ℕ
  pending : Table ℕ ℕ
  queue : ℕ
  receiver : Bool
  notified : Bool

structure Hub where
  current : Option ℕ
  generations : ℕ
  ids : ℕ
  links : ℕ → Option Link
  requests : ℕ → Option Request
  /-- The controller link version of `status.json`, none for `disconnected`. -/
  status : Option String
  concurrent : ℕ
  permits : ℕ
  nextLink : ℕ
  nextRequest : ℕ
  /-- Every reply given, by request. -/
  replies : List (ℕ × Reply)

/-- A relay that starts, with the file it finds. -/
def Hub.fresh (concurrent : ℕ) (status : Option String) : Hub :=
  ⟨none, 0, 0, fun _ => none, fun _ => none, status, concurrent, concurrent, 0, 0, []⟩

/-- A step of one link's task, of one request's, of the transport or of the clients. -/
inductive Event
  | attach
  /-- The first message or its timeout: a valid hello has a version. -/
  | hello (link : ℕ) (version : Option String)
  | install (link : ℕ)
  /-- `status.json` is written, if the write succeeds. -/
  | announce (link : ℕ) (written : Bool)
  | response (link : ℕ) (response : Response)
  | deliver (link : ℕ)
  | lose (link : ℕ)
  | giveWay (link : ℕ)
  | release (link : ℕ) (written : Bool)
  | clear (link : ℕ)
  /-- The transport takes a message from the channel, or drops the stream. -/
  | transmit (link : ℕ)
  | hangUp (link : ℕ)
  | arrive
  | body (request : ℕ) (ok : Bool)
  | register (request : ℕ)
  | send (request : ℕ)
  | receive (request : ℕ)
  | expire (request : ℕ)
  | withdraw (request : ℕ)
  deriving DecidableEq, Repr

namespace Hub

def setLink (hub : Hub) (link : ℕ) (value : Link) : Hub :=
  { hub with links := Function.update hub.links link (some value) }

def setRequest (hub : Hub) (request : ℕ) (value : Request) : Hub :=
  { hub with requests := Function.update hub.requests request (some value) }

/-- The sender of a request's answer is dropped. -/
def closeSlot (request : Request) : Request :=
  if request.slot = .empty then { request with slot := .closed } else request

/-- The waiters that stood there are dropped. -/
def dropWaiters (hub : Hub) (waiters : List ℕ) : Hub :=
  { hub with requests := fun request =>
    (hub.requests request).map fun value => if request ∈ waiters then closeSlot value else value }

/-- The handler returns: its reply goes out and its permit comes back. -/
def answer (hub : Hub) (request : ℕ) (value : Request) (reply : Reply) : Hub :=
  let hub := hub.setRequest request { value with phase := .finished }
  { hub with replies := (request, reply) :: hub.replies, permits := hub.permits + 1 }

/-- `pending.remove(&id)`. -/
def removeWaiter (hub : Hub) (link : ℕ) (id : Option ℕ) : Hub :=
  match hub.links link, id with
  | some value, some id =>
    let hub := hub.dropWaiters (value.pending.lookup id).toList
    hub.setLink link { value with pending := value.pending.keep fun k _ => k ≠ id }
  | _, _ => hub

/-- The link that is replaced is told so. -/
def notifyCurrent (hub : Hub) : Hub :=
  match hub.current with
  | none => hub
  | some old =>
    match hub.links old with
    | none => hub
    | some known => hub.setLink old { known with notified := true }

/-- `Hub::run`, step by step. -/
def linkStep (hub : Hub) (link : ℕ) (value : Link) (event : Event) : Hub :=
  match value.phase, event with
  | .attached, .hello _ version =>
    match version with
    | none => hub.setLink link { value with phase := .ended, pending := ∅ }
    | some version =>
      let hub' := hub.setLink link
        { value with phase := .connected version, generation := hub.generations % wrap, pending := ∅ }
      { hub' with generations := hub.generations + 1 }
  | .connected version, .install _ =>
    let value := { value with phase := .replaced version }
    { hub.notifyCurrent.setLink link value with current := some link }
  | .replaced version, .announce _ written =>
    let hub := hub.setLink link { value with phase := .serving }
    if written then { hub with status := some version } else hub
  | .serving, .response _ response =>
    match value.pending.lookup response.id with
    | none => hub
    | some request =>
      let pending := value.pending.keep fun k _ => k ≠ response.id
      hub.setLink link { value with pending := pending, phase := .delivering request response }
  | .delivering request response, .deliver _ =>
    let hub := hub.setLink link { value with phase := .serving }
    match hub.requests request with
    | none => hub
    | some waiter =>
      -- A handler that gave up has dropped its receiver.
      if waiter.slot = .empty ∧ waiter.phase ≠ .finished ∧ waiter.phase ≠ .timedOut then
        hub.setRequest request { waiter with slot := .filled link response }
      else hub
  | .serving, .lose _ => hub.setLink link { value with phase := .leaving }
  | .serving, .giveWay _ =>
    if value.notified then hub.setLink link { value with phase := .leaving } else hub
  -- The lock on the current connection is held over both writes.
  | .leaving, .release _ written =>
    let own := (hub.current.bind hub.links).any fun current => current.generation = value.generation
    let hub := hub.setLink link { value with phase := .clearing }
    if own then
      let hub := { hub with current := none }
      if written then { hub with status := none } else hub
    else hub
  | .clearing, .clear _ =>
    let hub := hub.dropWaiters (value.pending.rows.map Prod.snd)
    hub.setLink link { value with phase := .ended, pending := ∅ }
  | _, _ => hub

/-- `tx.send`. -/
def trySend (hub : Hub) (request : ℕ) (value : Request) : Hub :=
  match hub.links value.link with
  | none => hub.setRequest request { value with phase := .refused }
  | some link =>
    if link.receiver = false then hub.setRequest request { value with phase := .refused }
    else if link.queue < hub.concurrent then
      let hub := hub.setLink value.link { link with queue := link.queue + 1 }
      hub.setRequest request { value with phase := .waiting }
    else hub.setRequest request { value with phase := .blocked }

/-- `forward`, step by step. -/
def requestStep (hub : Hub) (request : ℕ) (value : Request) (event : Event) : Hub :=
  match value.phase, event with
  | .accepted, .body _ ok =>
    if ok then
      let hub' := hub.setRequest request
        { value with phase := .numbered, id := some (hub.ids % wrap) }
      { hub' with ids := hub.ids + 1 }
    else hub.answer request value .requestTooLarge
  | .numbered, .register _ =>
    let registered := { value with phase := .registered }
    match hub.links value.link, value.id with
    | some link, some id =>
      let hub := hub.dropWaiters (link.pending.lookup id).toList
      let hub := hub.setLink value.link { link with pending := link.pending.put id request }
      hub.setRequest request registered
    | _, _ => hub.setRequest request registered
  | .registered, .send _ => hub.trySend request value
  | .blocked, .send _ => hub.trySend request value
  | .waiting, .receive _ =>
    match value.slot with
    | .filled link response => hub.answer request value (.controller link response)
    | .closed => hub.answer request value .controllerUnavailable
    | .empty => hub
  -- The answer is looked at before the clock.
  | .waiting, .expire _ =>
    if value.slot = .empty then hub.setRequest request { value with phase := .timedOut } else hub
  | .refused, .withdraw _ =>
    (hub.removeWaiter value.link value.id).answer request value .controllerUnavailable
  | .timedOut, .withdraw _ =>
    (hub.removeWaiter value.link value.id).answer request value .controllerTimeout
  | _, _ => hub

/-- A request comes in: without a permit or a link it is answered at once. -/
def arrive (hub : Hub) : Hub :=
  let request := hub.nextRequest
  let taken := { hub with nextRequest := hub.nextRequest + 1 }
  let rejected (reply : Reply) : Hub :=
    let hub := taken.setRequest request ⟨0, none, .finished, .empty⟩
    { hub with replies := (request, reply) :: hub.replies }
  if hub.permits = 0 then rejected .relayBusy
  else
    match hub.current with
    | none => rejected .controllerUnavailable
    | some link =>
      let hub := taken.setRequest request ⟨link, none, .accepted, .empty⟩
      { hub with permits := hub.permits - 1 }

def step (hub : Hub) (event : Event) : Hub :=
  match event with
  | .attach =>
    -- The challenge is in the channel.
    let hub' := hub.setLink hub.nextLink ⟨.attached, 0, ∅, 1, true, false⟩
    { hub' with nextLink := hub.nextLink + 1 }
  | .transmit link =>
    match hub.links link with
    | none => hub
    | some value => hub.setLink link { value with queue := value.queue - 1 }
  | .hangUp link =>
    match hub.links link with
    | none => hub
    | some value => hub.setLink link { value with receiver := false }
  | .hello link _ | .install link | .announce link _ | .response link _ | .deliver link | .lose link
  | .giveWay link | .release link _ | .clear link =>
    match hub.links link with
    | none => hub
    | some value => hub.linkStep link value event
  | .arrive => hub.arrive
  | .body request _ | .register request | .send request | .receive request | .expire request
  | .withdraw request =>
    match hub.requests request with
    | none => hub
    | some value => hub.requestStep request value event

def run (hub : Hub) (events : List Event) : Hub := events.foldl step hub

end Hub
end Relay
end NodePlane
