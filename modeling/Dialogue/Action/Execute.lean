import Dialogue.Action.Retry
import Dialogue.Work.Basic

/-!
Running actions.

An action runs through the handler of its name. A failure that may be tried again is tried again
after a wait, as often as the policy allows. A cancellation is seen before each attempt and ends the
waits between them; an attempt itself ends as its handler decides. A handler that breaks off counts
as a failure that is not tried again.
-/
namespace Dialogue

/-- What runs actions of a kind, given a configuration and the scope. -/
abbrev ActionHandler := (config scope : Json) → Work ActionResult

namespace Action

/-- The configuration that a handler gets: an empty object where there is none. -/
def effectiveConfig (a : Action) : Json :=
  match a.config with
  | .null => .object []
  | v => v

/-- One attempt; breaking off is a failure. -/
def attempt (name : String) (work : Work ActionResult) : Work ActionResult :=
  work.recover (.done (.failure ("Action handler '" ++ name ++ "' panicked")))

/-- Attempts from the given number on, at most `left` of them. -/
def attempts (policy : RetryPolicy) (once : Work ActionResult) : Nat → Nat → Work ActionResult
  | 0, _ => .done .cancelled
  | left + 1, number => .ask .isCancelled fun (isCancelled : Bool) =>
    if isCancelled then .done .cancelled
    else once.bind fun result =>
      if result.success || !result.retryable || left = 0 then .done result
      else (Work.sleepUnlessCancelled (Work.waitMs (policy.delayBefore (number + 1)))).bind fun
        | .cancelled => .done .cancelled
        | .timeUp => attempts policy once left (number + 1)

/-- Runs an action through the handler of its name. -/
def execute (handlers : Entries ActionHandler) (a : Action) (scope : Json) : Work ActionResult :=
  match handlers.get? a.handlerName with
  | none => .done (.failure ("Unknown action type: " ++ a.kind))
  | some handler =>
    let policy := RetryPolicy.ofConfig a.retry
    attempts policy (attempt a.handlerName (handler a.effectiveConfig scope)) policy.maxAttempts 1

end Action

end Dialogue
