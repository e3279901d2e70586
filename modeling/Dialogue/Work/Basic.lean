import Dialogue.Clock.Duration
import Dialogue.Flow.Choice
import Dialogue.Http.Message
import Dialogue.Store.Scope
import Dialogue.Action.Result

/-!
Work: programs that wait and touch their surroundings.

A program asks its surroundings questions, each answered at once, and waits. A wait ends after a
time, or, where it heeds that, when the work is cancelled. What the surroundings answer is not part
of a program; `Host` answers.
-/
namespace Dialogue

/-- A wish to show another place. -/
structure Navigation where
  url : String
  /-- Whether it is to open beside the current place. -/
  newContext : Bool
  deriving DecidableEq, Repr

def Navigation.toJson (n : Navigation) : Json :=
  .object [("url", .string n.url), ("newContext", .bool n.newContext)]

/-- A question to the surroundings. -/
inductive Query where
  | isCancelled
  | send (request : HttpRequest)
  | store (scope : StoreScope) (op : StoreOp)
  | navigate (target : Navigation)
  /-- Asks for the next result that was laid out under a name. -/
  | cue (name : String)
  /-- Asks for cached choices that are younger than a lifetime. -/
  | lookUp (key : String) (ttlMs : Option Nat)
  | keep (key : String) (choices : List Choice)

/-- What a question is answered with. -/
def Query.Answer : Query → Type
  | .isCancelled => Bool
  | .send _ => HttpReply
  | .store .. => Except StoreError (Option Json)
  | .navigate _ => Except String Unit
  | .cue _ => Option ActionResult
  | .lookUp .. => Option (List Choice)
  | .keep .. => Unit

/-- Why a wait ended. -/
inductive Wake where
  | timeUp
  | cancelled
  deriving DecidableEq, Repr

/-- A program with a result. -/
inductive Work (α : Type) where
  | done (a : α)
  /-- Breaks off without a result. -/
  | abort
  | ask (q : Query) (next : q.Answer → Work α)
  /-- Waits for so many milliseconds, or without end. -/
  | wait (ms : Option Nat) (heedsCancel : Bool) (next : Wake → Work α)

namespace Work

variable {α β : Type}

/-- Work that goes on with the result of work. -/
def bind : Work α → (α → Work β) → Work β
  | .done a, f => f a
  | .abort, _ => .abort
  | .ask q next, f => .ask q fun answer => bind (next answer) f
  | .wait ms heeds next, f => .wait ms heeds fun wake => bind (next wake) f

instance : Monad Work where
  pure := .done
  bind := bind

/-- Asks a question. -/
def question (q : Query) : Work q.Answer := .ask q .done

/-- Goes on with `instead` where a program breaks off. -/
def recover : Work α → Work α → Work α
  | .done a, _ => .done a
  | .abort, instead => instead
  | .ask q next, instead => .ask q fun answer => recover (next answer) instead
  | .wait ms heeds next, instead => .wait ms heeds fun wake => recover (next wake) instead

/-- Waits so many milliseconds, cancelled or not. -/
def sleep (ms : Nat) : Work Unit := .wait (some ms) false fun _ => .done ()

/-- Waits so many milliseconds or until the work is cancelled. -/
def sleepUnlessCancelled (ms : Nat) : Work Wake := .wait (some ms) true .done

/-- Waits until the work is cancelled. -/
def untilCancelled : Work Unit := .wait none true fun _ => .done ()

/-- Sends a request and waits for what comes of it within so many milliseconds. -/
def send (request : HttpRequest) (timeoutMs : Nat) : Work (Except HttpError HttpResponse) :=
  .ask (.send request) fun (reply : HttpReply) =>
    let (ms, result) := reply.within timeoutMs
    .wait (some ms) false fun _ => .done result

/-- The same, given up when the work is cancelled. -/
def sendUnlessCancelled (request : HttpRequest) (timeoutMs : Nat) :
    Work (Option (Except HttpError HttpResponse)) :=
  .ask (.send request) fun (reply : HttpReply) =>
    let (ms, result) := reply.within timeoutMs
    .wait (some ms) true fun
      | .timeUp => .done (some result)
      | .cancelled => .done none

/-- What a wait beyond the reach of the clock is cut to: thirty years. -/
def farAway : Nat := 30 * 365 * 24 * 3600 * 1000

/-- The milliseconds that a wait of a span takes; the clock reaches `2 ^ 63` seconds. -/
def waitMs (d : Duration) : Nat := if d.seconds < signedLimit then d.coverMillis else farAway

end Work

end Dialogue
