import Dialogue.Number.Binary64

/-!
Spans of time, in whole nanoseconds up to a longest one.

`ofSeconds?` rounds a binary64 number of seconds to the nearest nanosecond, and fails for a number
that is negative, not a number, or beyond the longest span.
-/
namespace Dialogue

/-- A span of time. -/
structure Duration where
  nanos : Nat
  deriving DecidableEq, Repr, Inhabited

namespace Duration

/-- No time. -/
def zero : Duration := ⟨0⟩

/-- The longest span: just below `2 ^ 64` seconds. -/
def longest : Duration := ⟨unsignedLimit * 1000000000 - 1⟩

/-- So many milliseconds. -/
def ofMillis (n : Nat) : Duration := ⟨n * 1000000⟩

/-- So many seconds. -/
def ofSeconds (n : Nat) : Duration := ⟨n * 1000000000⟩

/-- The whole seconds. -/
def seconds (d : Duration) : Nat := d.nanos / 1000000000

/-- The nanoseconds beyond the whole seconds. -/
def fraction (d : Duration) : Nat := d.nanos % 1000000000

/-- The span in seconds: the whole seconds and the fraction are rounded first, then their sum. -/
def inSeconds (d : Duration) : Binary64 :=
  .ofNat d.seconds + .ofNat d.fraction / .ofNat 1000000000

/-- A finite number of seconds, rounded to the nearest nanosecond, a tie going to the even one. -/
def ofSeconds? (x : Binary64) : Option Duration :=
  match x with
  | .finite negative m e =>
    if negative && m ≠ 0 then none
    else
      let nanos :=
        if 0 ≤ e then m * twoTo e.toNat * 1000000000
        else Binary64.roundDiv (m * 1000000000) (twoTo (-e).toNat)
      if nanos ≤ longest.nanos then some ⟨nanos⟩ else none
  | _ => none

/-- The whole milliseconds that cover the span. -/
def coverMillis (d : Duration) : Nat := (d.nanos + 999999) / 1000000

end Duration

end Dialogue
