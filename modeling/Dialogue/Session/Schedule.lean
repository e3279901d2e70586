import Dialogue.Session.World

/-!
A schedule: the order in which turns are given.

Jobs take turns in the order in which they became able to go on, each until it has to wait. Calls of
clients come after all other jobs, except that a call which the clock has woken comes first. The
clock moves only when nothing can go on, to the next time at which something can.
-/
namespace Dialogue

/-- A world with the jobs that are to have turns, in order. -/
structure Schedule where
  world : World
  ready : List Nat := []

namespace Schedule

/-- Whether a job is a call. -/
def isCall (j : Job) : Bool :=
  match j.task with
  | .call _ => true
  | _ => false

/-- Adds the jobs of one sort that have become able to go on. -/
def enlist (s : Schedule) (sort : Job → Bool) : Schedule :=
  let more := s.world.jobs.filter fun j =>
    sort j && !s.ready.contains j.id && s.world.canTurn j
  { s with ready := s.ready ++ more.map Job.id }

/-- Puts a job behind all others, so that of jobs that wait for one time the one that has waited
longer comes first. -/
def toBack (w : World) (id : Nat) : World :=
  let (this, others) := w.jobs.partition fun j => j.id = id
  { w with jobs := others ++ this }

/-- Whether the job with an id can go on. -/
def canTurn (w : World) (id : Nat) : Bool := (w.job? id).any w.canTurn

/-- The jobs that can go on once no listed job can: others before calls. -/
def refill (s : Schedule) : Schedule :=
  let others := s.enlist fun j => !isCall j
  if others.ready.isEmpty then s.enlist isCall else others

/-- Gives turns, at most `fuel` of them, until nothing can go on. -/
def settle : Nat → Schedule → Schedule
  | 0, s => s
  | fuel + 1, s =>
    match s.ready with
    | [] =>
      let s := s.refill
      if s.ready.isEmpty then s else settle fuel s
    | id :: rest =>
      if canTurn s.world id then
        settle fuel ({ s with world := s.world.turn id }.enlist fun j => !isCall j)
      else settle fuel { world := toBack s.world id, ready := rest }

/-- Settles a world. -/
def settled (fuel : Nat) (w : World) : World := (settle fuel { world := w }).world

/-- Moves the clock to a time and settles; a call that the clock wakes has the first turns. -/
def wakeAt (fuel : Nat) (w : World) (nowMs : Nat) : World :=
  let calls := ({ world := w.moveClock nowMs } : Schedule).enlist isCall
  (settle fuel calls).world

/-- Lets time go by until a time, with a stop wherever a job waits for it. -/
def advance : Nat → World → Nat → World
  | 0, w, _ => w
  | fuel + 1, w, untilMs =>
    match w.nextDueMs?.filter (· < untilMs) with
    | some t => advance fuel (wakeAt fuel w t) untilMs
    | none => wakeAt fuel w untilMs

/-- Lets time go by until a call has finished. -/
def finish : Nat → World → Nat → World
  | 0, w, _ => w
  | fuel + 1, w, call =>
    if (w.result? call).isSome then w
    else
      match w.nextDueMs? with
      | some t => finish fuel (wakeAt fuel w t) call
      | none => w

/-- Runs a call of a client to its end: the world, and what the call gave. -/
def runCall (fuel : Nat) (w : World) (session : String) (c : Call) :
    World × Option (CallResult × Snapshot) :=
  let (w, id) := w.call session c
  let calls : Schedule := { world := w, ready := [id] }
  let w := finish fuel (settle fuel calls).world id
  (w.endJob id, w.result? id)

end Schedule

end Dialogue
