import Dialogue.Action.Definition
import Dialogue.Clock.Duration

/-!
When an action is tried again.

A policy allows a number of attempts, and the wait before an attempt grows by a factor from one
attempt to the next.
-/
namespace Dialogue

/-- How often an action is tried, and how long the waits between are. -/
structure RetryPolicy where
  maxAttempts : Nat := 3
  delay : Duration := .ofMillis 1000
  multiplier : Binary64 := .ofNat 2
  deriving DecidableEq, Repr

namespace RetryPolicy

/-- A factor that waits may grow by: finite, and not negative. -/
def isFactor (x : Binary64) : Bool := x.isFinite && (Binary64.ofNat 0).le x

/-- The policy that a document asks for; there is at least one attempt. -/
def ofConfig (config : Option RetryConfig) : RetryPolicy :=
  let defaults : RetryPolicy := {}
  match config with
  | none => defaults
  | some c => {
    maxAttempts := max 1 (c.maxAttempts.getD defaults.maxAttempts)
    delay := (c.delayMs.map Duration.ofMillis).getD defaults.delay
    multiplier := (c.multiplier.filter isFactor).getD defaults.multiplier }

/-- The greatest power that the factor is raised to. -/
def greatestPower : Nat := 2147483647

/-- The wait before an attempt, counted from one: none before the first, and
`delay · multiplier ^ (attempt - 2)` before a later one. A wait beyond the longest span is the
longest span. -/
def delayBefore (p : RetryPolicy) (attempt : Nat) : Duration :=
  if attempt ≤ 1 then .zero
  else
    let factor := p.multiplier.pow (min (attempt - 2) greatestPower)
    (Duration.ofSeconds? (p.delay.inSeconds * factor)).getD .longest

end RetryPolicy

end Dialogue
