import Dialogue.Text.Blank
import Dialogue.Text.Letter
import Dialogue.Text.Casing

/-!
Search patterns and where they match.

A pattern is a regular expression over sets of characters and positions of a text. `Pattern.ends`
carries a set of positions through a pattern: from each position at which a match may begin to each
at which it may end. Repetition stops growing once no new position appears, so a search takes time
polynomial in the text.

`Pattern.occursIn` asks for a match anywhere in a text.
-/
namespace Dialogue

/-- A set of characters. -/
inductive CharSet where
  | range (first last : Nat)
  | property (holds : Char → Bool)
  | none
  | union (s t : CharSet)
  | inter (s t : CharSet)
  | diff (s t : CharSet)
  | complement (s : CharSet)
  /-- The characters that are the same up to case as one of the set. -/
  | folded (s : CharSet)

namespace CharSet

/-- The set of one character. -/
def single (c : Char) : CharSet := .range c.toNat c.toNat

/-- Whether a character is in a set. -/
def has : CharSet → Char → Bool
  | .range first last, c => first ≤ c.toNat && c.toNat ≤ last
  | .property holds, c => holds c
  | .none, _ => false
  | .union s t, c => s.has c || t.has c
  | .inter s t, c => s.has c && t.has c
  | .diff s t, c => s.has c && !t.has c
  | .complement s, c => !s.has c
  | .folded s, c => (Text.caseOrbit c.toNat).any fun n => s.has (Char.ofNat n)

/-- The elements of one set but not of both. -/
def symmDiff (s t : CharSet) : CharSet := .union (.diff s t) (.diff t s)

end CharSet

/-- A condition on a position. -/
inductive Anchor where
  | textStart
  | textEnd
  | lineStart
  | lineEnd
  | wordBoundary
  | notWordBoundary
  | wordStart
  | wordEnd
  | wordStartHalf
  | wordEndHalf
  deriving DecidableEq, Repr

namespace Anchor

/-- Whether the condition holds between two neighbours, of which either may be missing. -/
def holds (a : Anchor) (isWord : Char → Bool) (before after : Option Char) : Bool :=
  let wordBefore := before.any isWord
  let wordAfter := after.any isWord
  match a with
  | .textStart => before.isNone
  | .textEnd => after.isNone
  | .lineStart => before.isNone || before = some '\n'
  | .lineEnd => after.isNone || after = some '\n'
  | .wordBoundary => wordBefore != wordAfter
  | .notWordBoundary => wordBefore == wordAfter
  | .wordStart => !wordBefore && wordAfter
  | .wordEnd => wordBefore && !wordAfter
  | .wordStartHalf => !wordBefore
  | .wordEndHalf => !wordAfter

end Anchor

/-- A search pattern. -/
inductive Pattern where
  | empty
  | one (set : CharSet)
  | anchor (a : Anchor) (isWord : Char → Bool)
  | seq (p q : Pattern)
  | alt (p q : Pattern)
  /-- At least `least` times, and at most `most` times if that is given. -/
  | repeated (p : Pattern) (least : Nat) (most : Option Nat)

namespace Pattern

/-- Whether a pattern takes no character in any match. -/
def isWidthless : Pattern → Bool
  | .empty => true
  | .one _ => false
  | .anchor _ _ => true
  | .seq p q => p.isWidthless && q.isWidthless
  | .alt p q => p.isWidthless && q.isWidthless
  | .repeated p _ most => p.isWidthless || most = some 0

/-- A repetition. What takes no character says nothing more the second time. -/
def repetition (p : Pattern) (least : Nat) (most : Option Nat) : Pattern :=
  if p.isWidthless then .repeated p (min least 1) (some (min (most.getD 1) 1))
  else .repeated p least most

/-- A set of positions of a text: whether each of `0 … n` belongs to it. -/
abbrev Positions := Array Bool

namespace Positions

/-- The positions of either set. -/
def union (s t : Positions) : Positions := s.zipWith (· || ·) t

/-- Whether there is no position. -/
def isEmpty (s : Positions) : Bool := !s.any id

/-- Keeps the positions on which a condition holds. -/
def keep (s : Positions) (f : Nat → Bool) : Positions := s.mapIdx fun i b => b && f i

/-- The positions one further on, of those whose character is in a set. -/
def advance (text : Array Char) (set : CharSet) (s : Positions) : Positions :=
  s.mapIdx fun i _ =>
    match i with
    | 0 => false
    | j + 1 => s[j]?.getD false && (text[j]?.map set.has).getD false

end Positions

/-- Applies a step `n` times. -/
def iterate (step : Positions → Positions) : Nat → Positions → Positions
  | 0, s => s
  | n + 1, s => iterate step n (step s)

/-- All positions reached by at most `n` steps. Once a step adds nothing, no later one does. -/
def closure (step : Positions → Positions) : Nat → Positions → Positions
  | 0, s => s
  | n + 1, s =>
    let t := s.union (step s)
    if t = s then s else closure step n t

/-- Where a match may end that begins at one of the positions. -/
def ends (text : Array Char) : Pattern → Positions → Positions
  | .empty, s => s
  | .one set, s => s.advance text set
  | .anchor a isWord, s =>
    s.keep fun i => a.holds isWord (if i = 0 then none else text[i - 1]?) text[i]?
  | .seq p q, s => ends text q (ends text p s)
  | .alt p q, s => (ends text p s).union (ends text q s)
  | .repeated p least most, s =>
    let start := iterate (ends text p) least s
    match most with
    | none => closure (ends text p) (text.size + 1) start
    | some most => closure (ends text p) (most - least) start

/-- Whether the pattern matches anywhere in a text. -/
def occursIn (p : Pattern) (s : String) : Bool :=
  let text := s.toList.toArray
  !(ends text p (Array.replicate (text.size + 1) true)).isEmpty

end Pattern

end Dialogue
