import Dialogue.Session.Update
import Dialogue.Store.Scope

/-!
A conversation that runs.

A session takes one event after another from its queue. An event is handled in two parts: the new
state is committed, and then the deeds that come of it are done one by one: the effects of the
transition, the announcement of the new state, and the reply to whoever waits for the outcome.

An action in flight is known by its token. Leaving its step, starting another action and shutting
down cancel the token.
-/
namespace Dialogue

/-- An event in the queue, with the ticket of whoever waits for the outcome. -/
structure Envelope where
  event : Event
  ticket : Option Nat := none

/-- What is left to do of an event whose state is committed. -/
inductive Deed where
  | effect (e : Effect)
  /-- Tells listeners the new state. -/
  | announce
  | reply (ticket : Nat) (outcome : Outcome)

/-- The answer that whoever holds a ticket waits for. -/
abbrev Reply := Except TransitionError Outcome

/-- A conversation that runs. -/
structure Session where
  id : String
  machine : Machine
  /-- The committed state. -/
  state : State
  /-- Whose part of the durable store the session has. -/
  owner : String
  /-- The store that lives as long as the session. -/
  store : Store := {}
  queue : List Envelope := []
  deeds : List Deed := []
  /-- The invocation in flight, with its token. -/
  inFlight : Option (Epoch × Nat) := none
  /-- How many tokens were given out. -/
  tokens : Nat := 0
  cancelledTokens : List Nat := []
  /-- All updates so far, the oldest first. -/
  updates : List Update := []
  /-- How many tickets were given out. -/
  tickets : Nat := 0
  replies : List (Nat × Reply) := []
  /-- Whether it was told to shut down. -/
  shut : Bool := false
  /-- Whether it has stopped taking events. -/
  stopped : Bool := false

/-- What a deed starts that runs beside the session. -/
inductive Started where
  /-- An action, with its token. -/
  | action (token : Nat) (invocation : Epoch) (action : Action) (scope : Json)
  /-- The display time of a visit. -/
  | display (epoch : Epoch)

namespace Session

/-- Whether nobody can reach it any more. -/
def isClosed (s : Session) : Bool := s.shut || s.stopped

/-- Whether the action with a token is cancelled. -/
def isCancelled (s : Session) (token : Nat) : Bool := s.shut || s.cancelledTokens.contains token

/-- What is told of the session now. -/
def snapshot (s : Session) : Snapshot := .ofState s.id s.state

/-! ## Listeners -/

/-- How many updates are kept for listeners that are behind. -/
def updateCapacity : Nat := 128

/-- Tells the listeners something. -/
def tell (s : Session) (u : Update) : Session := { s with updates := s.updates ++ [u] }

/-- The first update that a listener can still read that has read all before `cursor`: the oldest
ones are dropped for one that is too far behind. -/
def firstReadable (s : Session) (cursor : Nat) : Nat :=
  max cursor (s.updates.length - updateCapacity)

/-- What a listener can read. -/
def unread (s : Session) (cursor : Nat) : List Update := s.updates.drop (s.firstReadable cursor)

/-! ## The queue -/

/-- Puts an event into the queue that nobody waits for; a stopped session loses it. -/
def post (s : Session) (e : Event) : Session :=
  if s.stopped then s else { s with queue := s.queue ++ [{ event := e }] }

/-- Puts an event into the queue and gives out a ticket for the outcome. -/
def submit (s : Session) (e : Event) : Nat × Session :=
  let ticket := s.tickets
  (ticket, { s with
    tickets := ticket + 1, queue := s.queue ++ [{ event := e, ticket := some ticket }] })

/-- The reply to a ticket, if there is one. -/
def reply? (s : Session) (ticket : Nat) : Option Reply := s.replies.lookup ticket

/-- Gives a reply to a ticket. -/
def giveReply (s : Session) (ticket : Option Nat) (reply : Reply) : Session :=
  match ticket with
  | some ticket => { s with replies := s.replies ++ [(ticket, reply)] }
  | none => s

/-! ## Handling events -/

/-- The deeds that a transition leaves to do. -/
def deedsOf (t : Transition) (ticket : Option Nat) (outcome : Outcome) : List Deed :=
  t.effects.map .effect ++ [.announce] ++ ticket.toList.map fun ticket => .reply ticket outcome

/-- Handles an event: commits the new state, or replies that the event is refused. -/
def handle (s : Session) (e : Envelope) : Session :=
  match s.machine.transition s.state e.event with
  | .error refusal => s.giveReply e.ticket (Outcome.ofRefusal refusal)
  | .ok t =>
    { s with state := t.state, deeds := deedsOf t e.ticket (.ofTransition s.state t) }

/-- Cancels the action in flight. -/
def cancelInFlight (s : Session) : Session :=
  match s.inFlight with
  | some (_, token) =>
    { s with inFlight := none, cancelledTokens := s.cancelledTokens ++ [token] }
  | none => s

/-- Starts an action: what is in flight is cancelled, and a new token is given out. -/
def startAction (s : Session) (invocation : Epoch) (action : Action) : Session × Started :=
  let s := s.cancelInFlight
  ({ s with tokens := s.tokens + 1, inFlight := some (invocation, s.tokens) },
    .action s.tokens invocation action s.state.context.scope)

/-- Does what an effect asks for. -/
def perform (s : Session) : Effect → Session × Option Started
  | .stepEntered step previous => (s.tell (.stepEntered step previous), none)
  | .invokeAction _ invocation action =>
    let (s, started) := s.startAction invocation action
    (s, some started)
  | .cancelAction invocation =>
    (if s.inFlight.any (·.1 = invocation) then s.cancelInFlight else s, none)
  | .scheduleAutoAdvance _ epoch => (s, some (.display epoch))
  | .actionFailed step error retryable =>
    ({ s with inFlight := none }.tell (.actionFailed step error retryable), none)
  | .completed step => (s.tell (.completed step), none)

/-- Does a deed. -/
def act (s : Session) : Deed → Session × Option Started
  | .effect e => s.perform e
  | .announce => (s.tell (.stateChanged s.snapshot), none)
  | .reply ticket outcome => (s.giveReply (some ticket) (.ok outcome), none)

/-- Stops: the action in flight is cancelled, and what is queued is lost. -/
def stop (s : Session) : Session := { s.cancelInFlight with stopped := true, queue := [] }

/-- Whether there is something for the session to do. -/
def canTurn (s : Session) : Bool :=
  !s.stopped && (!s.deeds.isEmpty || s.shut || !s.queue.isEmpty)

/-- One turn: a deed that is left, or else the shutdown, or else the next event. -/
def turn (s : Session) : Session × Option Started :=
  match s.deeds, s.queue with
  | deed :: rest, _ => { s with deeds := rest }.act deed
  | [], queue =>
    if s.shut then (s.stop, none)
    else
      match queue with
      | e :: rest => ({ s with queue := rest }.handle e, none)
      | [] => (s, none)

/-! ## The beginning -/

/-- The entry of the metadata that names the owner of durable storage. -/
def ownerKey : String := "clientId"

/-- Whose part of the durable store a session has: the client of its metadata, or itself. -/
def ownerOf (id : String) (metadata : Json.Fields) : String :=
  (((metadata.get? ownerKey).bind Json.string?).filter fun owner => !owner.isEmpty).getD id

/-- Does the effects of the first step, and collects what they start. -/
def performAll (s : Session) : List Effect → Session × List Started
  | [] => (s, [])
  | e :: rest =>
    let (s, started) := s.perform e
    let (s, more) := performAll s rest
    (s, started.toList ++ more)

/-- A session at the first step of a machine. -/
def start (id : String) (m : Machine) (metadata : Json.Fields) : Session × List Started :=
  let t := m.start metadata
  let s : Session := { id, machine := m, state := t.state, owner := ownerOf id metadata }
  s.performAll t.effects

end Session

end Dialogue
