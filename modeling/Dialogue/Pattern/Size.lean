import Dialogue.Pattern.Basic

/-!
How large a pattern may be.

A pattern stands for a machine that reads a text byte by byte. The machine holds the part under a
repetition as often as the bounds say, so a short pattern can stand for a machine that is far too
large. A pattern is refused if its machine would take more than ten mebibytes.

The size of a set is found by going through all characters, which takes long. It is needed only if
the pattern is neither too large with the smallest of sets nor small enough with the largest.
-/
namespace Dialogue

namespace CharSet

/-- How many intervals a set has among the `n` characters from `first` on; `inside` says whether the
next character after them belongs to the set. -/
def intervals (s : CharSet) (first : Nat) : Nat → Bool → Nat → Nat
  | 0, _, count => count
  | n + 1, inside, count =>
    let code := first + n
    let here := Nat.isValidChar code && s.has (Char.ofNat code)
    intervals s first n here (if here && !inside then count + 1 else count)

/-- The bytes of a single state. -/
def stateSize : Nat := 32

/-- About how many bytes a machine takes for a set. A set of ASCII characters is one branch with its
intervals; another one branches on the bytes of its characters. -/
def size (s : CharSet) : Nat :=
  let beyond := s.intervals 128 1113984 false 0
  if beyond = 0 then 2 * stateSize + 8 * s.intervals 0 128 false 0
  else 300 + 62 * (beyond + s.intervals 0 128 false 0)

/-- About how many bytes a machine takes for a set at most. -/
def greatestSize : CharSet → Nat
  | .range first last => if first = last then 4 * stateSize else 300
  | _ => 65536

end CharSet

namespace Pattern

/-- About how many bytes the machine of a pattern takes, by the sizes of its sets. -/
def size (sizeOf : CharSet → Nat) : Pattern → Nat
  | .empty => CharSet.stateSize
  | .one (.range first last) =>
    if first = last then (Char.ofNat first).utf8Size * CharSet.stateSize
    else sizeOf (.range first last)
  | .one set => sizeOf set
  | .anchor _ _ => CharSet.stateSize
  | .seq .empty q => q.size sizeOf
  | .seq p q => p.size sizeOf + q.size sizeOf
  | .alt p q => p.size sizeOf + q.size sizeOf + CharSet.stateSize
  | .repeated p least none => max 1 least * p.size sizeOf + CharSet.stateSize
  | .repeated p least (some most) =>
    least * p.size sizeOf + (most - least) * (p.size sizeOf + CharSet.stateSize)

/-- The greatest size of a machine. -/
def sizeLimit : Nat := 10485760

/-- Whether a pattern is too large. -/
def isTooLarge (p : Pattern) : Bool :=
  sizeLimit < p.size (fun _ => CharSet.stateSize) ||
    (sizeLimit < p.size CharSet.greatestSize && sizeLimit < p.size CharSet.size)

end Pattern

end Dialogue
