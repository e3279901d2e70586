import Dialogue.Session.Call
import Dialogue.Session.Feed
import Dialogue.Settings

/-!
The world of all sessions.

Everything that goes on beside something else is a job: the loop of a session, an action, a display
time, the retention of a completed session, a feed, a call. `World.turn` gives one job one turn, and
a run of the world is any sequence of turns, new jobs and steps of the clock. What follows from
turns in any order therefore holds however the jobs are interleaved.
-/
namespace Dialogue

/-- Something that goes on for a session. -/
inductive Task where
  /-- The session takes its events. -/
  | loop
  | action (token : Nat) (invocation : Epoch) (progress : Progress ActionResult)
  /-- An action that has ended is about to report its result. -/
  | report (invocation : Epoch) (result : ActionResult)
  /-- The display time of a visit runs. -/
  | display (epoch : Epoch) (untilMs : Nat)
  /-- A session is forgotten some time after it has completed. -/
  | retention (untilMs : Option Nat)
  | feed (f : Feed)
  | call (c : Call)

/-- A task of a session, by its id. -/
structure Job where
  id : Nat
  session : String
  task : Task

/-- All sessions, and everything that goes on for them. -/
structure World where
  registry : Registry := {}
  /-- How long a message is shown before its step is left. -/
  autoAdvanceMs : Nat := 1500
  /-- How long a completed session can still be found. -/
  retentionMs : Nat := 600000
  host : Host := {}
  durable : Store := {}
  /-- Every session there ever was. -/
  sessions : Entries Session := []
  /-- The sessions that can be found by their ids. -/
  live : List String := []
  jobs : List Job := []
  /-- How many jobs there ever were. -/
  jobCount : Nat := 0

namespace World

/-- The session with an id. -/
def session? (w : World) (id : String) : Option Session := w.sessions.get? id

/-- The job with an id. -/
def job? (w : World) (id : Nat) : Option Job := w.jobs.find? fun j => j.id = id

/-- Puts a session in the place of the one with its id. -/
def putSession (w : World) (s : Session) : World := { w with sessions := w.sessions.set s.id s }

/-- Adds a job. -/
def spawn (w : World) (session : String) (task : Task) : World :=
  { w with jobs := w.jobs ++ [⟨w.jobCount, session, task⟩], jobCount := w.jobCount + 1 }

/-- Changes what a job does. -/
def setTask (w : World) (id : Nat) (task : Task) : World :=
  { w with jobs := w.jobs.map fun j => if j.id = id then { j with task } else j }

/-- Ends a job. -/
def endJob (w : World) (id : Nat) : World := { w with jobs := w.jobs.filter fun j => j.id ≠ id }

/-- The job that something started by a deed becomes. -/
def taskOf (w : World) : Started → Task
  | .action token invocation action scope =>
    .action token invocation (.running (action.execute w.registry.actions scope))
  | .display epoch => .display epoch (w.host.nowMs + w.autoAdvanceMs)

/-- Adds the jobs of what deeds have started. -/
def spawnStarted (w : World) (session : String) (started : List Started) : World :=
  started.foldl (fun w x => w.spawn session (w.taskOf x)) w

/-! ## Surroundings of work -/

/-- The surroundings of work for a session. -/
def site (w : World) (s : Session) (cancelled : Bool) : Site where
  host := w.host
  stores := { own := s.store, shared := w.durable, owner := s.owner }
  cancelled := cancelled

/-- Takes over what work for a session has left behind; its navigations go to the listeners. -/
def absorb (w : World) (s : Session) (site : Site) : World :=
  let s := { s with store := site.stores.own }
  let s := site.navigations.foldl (fun s n => s.tell (.navigate n)) s
  { w with host := site.host, durable := site.stores.shared }.putSession s

/-! ## Turns -/

/-- Whether anyone can still tell the listeners of a session something. -/
def isHeld (w : World) (s : Session) : Bool :=
  !s.stopped || w.live.contains s.id || w.jobs.any fun j => j.session = s.id &&
    match j.task with
    | .action .. => true
    | .report .. => true
    | .call (.finished ..) => false
    | .call _ => true
    | _ => false

/-- Whether a job can go on. -/
def canTurn (w : World) (j : Job) : Bool :=
  match w.session? j.session with
  | none => false
  | some s =>
    match j.task with
    | .loop => s.canTurn
    | .action token _ progress => progress.canTurn (w.site s (s.isCancelled token))
    | .report .. => true
    | .display _ untilMs => s.shut || untilMs ≤ w.host.nowMs
    | .retention none => s.shut || s.state.isCompleted
    | .retention (some untilMs) => s.shut || untilMs ≤ w.host.nowMs
    | .feed f => f.canTurn s w.host.nowMs (w.isHeld s)
    | .call c => c.canTurn (w.site s false) s

/-- A turn of the loop of a session, which ends when the session stops. -/
def turnLoop (w : World) (j : Job) (s : Session) : World :=
  let (s, started) := s.turn
  let w := (w.putSession s).spawnStarted s.id started.toList
  if s.stopped then w.endJob j.id else w

/-- A turn of an action. A result that comes after the cancellation is dropped. -/
def turnAction (w : World) (j : Job) (s : Session) (token : Nat) (invocation : Epoch) :
    Progress ActionResult → World
  | .running (.done result) =>
    if s.isCancelled token then w.endJob j.id else w.setTask j.id (.report invocation result)
  | .running .abort => w.endJob j.id
  | progress =>
    let (progress, site) := progress.turn (w.site s (s.isCancelled token))
    (w.absorb s site).setTask j.id (.action token invocation progress)

/-- Forgets a session that has completed. -/
def forget (w : World) (s : Session) : World :=
  { w with live := w.live.filter (· ≠ s.id) }.putSession { s with shut := true }

/-- A turn of a retention: it waits for the completion, then for the time after it. -/
def turnRetention (w : World) (j : Job) (s : Session) (untilMs : Option Nat) : World :=
  if s.shut then w.endJob j.id
  else
    match untilMs with
    | none =>
      if s.state.isCompleted then
        w.setTask j.id (.retention (some (w.host.nowMs + w.retentionMs)))
      else w
    | some t => if t ≤ w.host.nowMs then (w.forget s).endJob j.id else w

/-- A turn of a display time: at its end the session is sent on. -/
def turnDisplay (w : World) (j : Job) (s : Session) (epoch : Epoch) (untilMs : Nat) : World :=
  if s.shut then w.endJob j.id
  else if untilMs ≤ w.host.nowMs then
    (w.putSession (s.post (.autoAdvance (some epoch)))).endJob j.id
  else w

/-- A turn of a call. -/
def turnCall (w : World) (j : Job) (s : Session) (c : Call) : World :=
  let (c, s, site) := c.turn w.registry (w.site s false) s
  (w.absorb s site).setTask j.id (.call c)

/-- One turn of a job. -/
def turnJob (w : World) (j : Job) (s : Session) : World :=
  match j.task with
  | .loop => w.turnLoop j s
  | .action token invocation progress => w.turnAction j s token invocation progress
  | .report invocation result =>
    (w.putSession (s.post (.actionSettled invocation result))).endJob j.id
  | .display epoch untilMs => w.turnDisplay j s epoch untilMs
  | .retention untilMs => w.turnRetention j s untilMs
  | .feed f => w.setTask j.id (.feed (f.turn s w.host.nowMs (w.isHeld s)))
  | .call c => w.turnCall j s c

/-- One turn of the job with an id; a job that cannot go on stays as it is. -/
def turn (w : World) (id : Nat) : World :=
  match w.job? id with
  | none => w
  | some j =>
    match w.session? j.session with
    | none => w
    | some s => if w.canTurn j then w.turnJob j s else w

/-- Whether no job can go on before the clock does. -/
def isIdle (w : World) : Bool := w.jobs.all fun j => !w.canTurn j

/-! ## The clock -/

/-- When a job that waits can go on by the clock alone. -/
def Task.untilMs? : Task → Option Nat
  | .action _ _ (.waiting untilMs _ _) => untilMs
  | .display _ untilMs => some untilMs
  | .retention untilMs => untilMs
  | .feed f => if f.ended then none else f.pingAtMs
  | .call (.load _ (.waiting untilMs _ _)) => untilMs
  | _ => none

/-- The next time at which a job that waits can go on. -/
def nextDueMs? (w : World) : Option Nat := (w.jobs.filterMap fun j => Task.untilMs? j.task).min?

/-- Moves the clock forward. -/
def moveClock (w : World) (nowMs : Nat) : World :=
  { w with host := { w.host with nowMs := max w.host.nowMs nowMs } }

/-! ## Managing sessions -/

/-- Starts a session under a new id: its first effects are done at once, then its loop starts, then
it can be found. -/
def create (w : World) (id : String) (m : Machine) (metadata : Json.Fields) : World :=
  let (s, started) := Session.start id m metadata
  let w := ((w.putSession s).spawnStarted id started).spawn id .loop
  { w with live := w.live ++ [id] }.spawn id (.retention none)

/-- A session that can be found. -/
def find (w : World) (id : String) : Except SessionError Session :=
  match (w.session? id).filter fun _ => w.live.contains id with
  | some s => .ok s
  | none => .error (.notFound id)

/-- Tells a session to shut down. -/
def shutDown (w : World) (id : String) : World :=
  match w.session? id with
  | some s => w.putSession { s with shut := true }
  | none => w

/-- Shuts a session down and forgets it. -/
def remove (w : World) (id : String) : Except SessionError World :=
  match w.find id with
  | .ok _ => .ok ({ w with live := w.live.filter (· ≠ id) }.shutDown id)
  | .error e => .error e

/-- Shuts down and forgets every session that can be found. -/
def shutDownAll (w : World) : World :=
  w.live.foldl (fun w id => w.shutDown id) { w with live := [] }

/-- Begins a call: the world, and the id of the job. -/
def call (w : World) (session : String) (c : Call) : World × Nat :=
  (w.spawn session (.call c), w.jobCount)

/-- The result of a call that has finished, and the snapshot that goes with it. -/
def result? (w : World) (id : Nat) : Option (CallResult × Snapshot) :=
  match w.job? id with
  | some ⟨_, _, .call (.finished result snapshot)⟩ => some (result, snapshot)
  | _ => none

end World

end Dialogue
