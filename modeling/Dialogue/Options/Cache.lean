import Dialogue.Flow.Choice
import Dialogue.Text.Blank

/-!
The cache of loaded choices.

An entry holds a list as it was fetched, before any filter, and the time at which it was stored. A
reader that names a lifetime passes over entries that have reached it.
-/
namespace Dialogue

/-- A list of choices with the time at which it was stored. -/
structure CacheEntry where
  choices : List Choice
  storedAtMs : Nat

/-- Lists of choices by key. -/
abbrev OptionCache := Entries CacheEntry

namespace OptionCache

/-- Whether an entry is young enough for a reader. -/
def isFresh (nowMs : Nat) (ttlMs : Option Nat) (e : CacheEntry) : Bool :=
  match ttlMs with
  | none => true
  | some ttl => nowMs - e.storedAtMs < ttl

/-- The list under a key, if it is fresh. -/
def lookUp (c : OptionCache) (nowMs : Nat) (key : String) (ttlMs : Option Nat) :
    Option (List Choice) :=
  ((Entries.get? c key).filter (isFresh nowMs ttlMs)).map CacheEntry.choices

/-- Stores a list. -/
def keep (c : OptionCache) (nowMs : Nat) (key : String) (choices : List Choice) : OptionCache :=
  Entries.set c key ⟨choices, nowMs⟩

/-- Whether an invalidation meets a key: every key, or those that contain a text. -/
def isMet (pattern : Option String) (key : String) : Bool :=
  match pattern with
  | none => true
  | some piece => Text.containsText key piece

/-- Drops the entries that an invalidation meets. -/
def invalidate (c : OptionCache) (pattern : Option String) : OptionCache :=
  c.filter fun (key, _) => !isMet pattern key

end OptionCache

end Dialogue
