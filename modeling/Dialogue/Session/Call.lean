import Dialogue.Session.Basic
import Dialogue.Session.Surface
import Dialogue.Work.Host

/-!
Calls: what clients ask of a session, turn by turn.

A call reads the committed state when its turn comes, and other calls, timers and actions have turns
in between. So what it read may be out of date when the event that it submits is handled.

* Drawing the step reads the state, loads choices if the visit has none yet, and hands them to the
  session before the surface is made of the state that was read.
* Submitting an answer finds out which step it is for, judges the raw answer against the state of
  that moment, and submits the value. An answer to a step that is not current is not judged; the
  machine drops it.
* Every call ends by reading a snapshot.
-/
namespace Dialogue

/-- What the outcome of a submitted event is for. -/
inductive Purpose where
  /-- The loaded choices of a state that was read are to be drawn. -/
  | draw (seen : State) (choices : List Choice)
  | submission
  | dispatch

/-- What a call gives. -/
inductive CallResult where
  | surface (s : Surface)
  | submission (s : Submission)
  | outcome (o : Outcome)
  | failed (e : SessionError)

/-- Where a call is. -/
inductive Call where
  /-- About to read the state, in order to draw it. -/
  | look
  /-- About to tell listeners that choices are loaded. -/
  | announce (seen : State) (config : SourceConfig)
  | load (seen : State) (progress : Progress LoadResult)
  /-- About to read which step is current, for an answer that names none. -/
  | name (raw : Json)
  /-- About to judge an answer to a step. -/
  | judge (raw : Json) (step : String)
  | submit (e : Event) (purpose : Purpose)
  | await (ticket : Nat) (purpose : Purpose)
  /-- About to read the snapshot that goes with the result. -/
  | close (result : CallResult)
  | finished (result : CallResult) (snapshot : Snapshot)

namespace Call

/-- The call that an event of a client makes: answers are judged first. -/
def ofClientEvent : ClientEvent → Call
  | .answer value (some step) => .judge value step
  | .answer value none => .name value
  | other => .submit other.toEvent .submission

/-- A surface of a state, if its step is one of the machine's. -/
def drawn (r : Registry) (m : Machine) (seen : State) (choices : List Choice) : CallResult :=
  match m.step? seen.currentStep with
  | some step => .surface (.ofStep r step seen choices)
  | none => .failed (.unknownStep seen.currentStep)

/-- The result once the outcome of the submitted event is known. -/
def conclude (r : Registry) (m : Machine) : Purpose → Reply → CallResult
  | _, .error e => .failed (.rejected e)
  | .draw seen choices, .ok _ => drawn r m seen choices
  | .submission, .ok outcome => .submission (.accepted outcome)
  | .dispatch, .ok outcome => .outcome outcome

/-- The next stage after the state was read in order to draw it. -/
def lookAt (r : Registry) (m : Machine) (seen : State) : Call :=
  match m.step? seen.currentStep with
  | none => .close (.failed (.unknownStep seen.currentStep))
  | some step =>
    match step.choicesNeed seen with
    | .known choices => .close (drawn r m seen choices)
    | .load config => .announce seen config

/-- The next stage after an answer to a step was judged. -/
def judged (r : Registry) (m : Machine) (s : State) (raw : Json) (stepId : String) : Call :=
  match (m.step? stepId).filter fun _ => stepId = s.currentStep with
  | none => .submit (.answer raw (some stepId)) .submission
  | some step =>
    match step.judge r s raw with
    | .error problems => .close (.submission (.invalid problems))
    | .ok value => .submit (.answer value (some stepId)) .submission

/-- Whether a call can go on. -/
def canTurn (site : Site) (s : Session) : Call → Bool
  | .load _ progress => progress.canTurn site
  | .await ticket _ => (s.reply? ticket).isSome || s.stopped
  | .finished .. => false
  | _ => true

/-- One turn. -/
def turn (r : Registry) (site : Site) (s : Session) : Call → Call × Session × Site
  | .look => (lookAt r s.machine s.state, s, site)
  | .announce seen config =>
    (.load seen (.running (config.load r.functions seen.context.scope)),
      s.tell (.optionsLoading seen.currentStep), site)
  | .load seen (.running (.done result)) =>
    (.submit (.optionsResolved seen.epoch result.choices) (.draw seen result.choices), s, site)
  | .load _ (.running .abort) => (.close (.failed .closed), s, site)
  | .load seen progress =>
    let (progress, site) := progress.turn site
    (.load seen progress, s, site)
  | .name raw => (.judge raw s.state.currentStep, s, site)
  | .judge raw stepId => (judged r s.machine s.state raw stepId, s, site)
  | .submit e purpose =>
    if s.stopped then (.close (.failed .closed), s, site)
    else
      let (ticket, s) := s.submit e
      (.await ticket purpose, s, site)
  | .await ticket purpose =>
    match s.reply? ticket with
    | some reply => (.close (conclude r s.machine purpose reply), s, site)
    | none => (if s.stopped then .close (.failed .closed) else .await ticket purpose, s, site)
  | .close result => (.finished result s.snapshot, s, site)
  | .finished result snapshot => (.finished result snapshot, s, site)

end Call

end Dialogue
