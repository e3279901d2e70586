import Dialogue.Options.Cache
import Dialogue.Work.Basic

/-!
The surroundings of work.

`Host` is what all work shares (time, network, cache, laid out results), and `Site` adds what
belongs to one conversation: its stores, where its navigations go, and whether the work is
cancelled. `Progress` is work under way among other work; a turn of it answers one question, or
begins or ends one wait. `Work.runAlone` runs a program to its end where nothing else happens,
moving the time on at each wait.
-/
namespace Dialogue

/-- What all work shares. -/
structure Host where
  nowMs : Nat := 0
  network : Network := .queue []
  /-- The requests sent so far, with their times. -/
  sent : List (Nat × HttpRequest) := []
  /-- The results laid out under names. -/
  laidOut : Entries (List ActionResult) := []
  cache : OptionCache := []

/-- The surroundings of work for one conversation. -/
structure Site where
  host : Host
  stores : Stores
  /-- Why navigations are refused, if they are. -/
  refusal : Option String := none
  navigations : List Navigation := []
  cancelled : Bool := false

namespace Host

/-- Answers a request by the first reply that is left for it. -/
def send (h : Host) (request : HttpRequest) : HttpReply × Host :=
  let (reply, network) := h.network.send request
  (reply, { h with network, sent := h.sent ++ [(h.nowMs, request)] })

/-- The next result laid out under a name. -/
def cue (h : Host) (name : String) : Option ActionResult × Host :=
  match h.laidOut.get? name with
  | some (result :: rest) => (some result, { h with laidOut := h.laidOut.set name rest })
  | _ => (none, h)

end Host

namespace Site

/-- The answer to a question, and the surroundings afterwards. -/
def answer (s : Site) : (q : Query) → q.Answer × Site
  | .isCancelled => (s.cancelled, s)
  | .send request =>
    let (reply, host) := s.host.send request
    (reply, { s with host })
  | .store scope op =>
    let (result, stores) := s.stores.apply scope op
    (result, { s with stores })
  | .navigate target =>
    match s.refusal with
    | some reason => (.error reason, { s with navigations := s.navigations ++ [target] })
    | none => (.ok (), { s with navigations := s.navigations ++ [target] })
  | .cue name =>
    let (result, host) := s.host.cue name
    (result, { s with host })
  | .lookUp key ttlMs => (s.host.cache.lookUp s.host.nowMs key ttlMs, s)
  | .keep key choices =>
    ((), { s with host := { s.host with cache := s.host.cache.keep s.host.nowMs key choices } })

end Site

/-- Work under way: about to go on, or at a wait with the time at which it ends. -/
inductive Progress (α : Type) where
  | running (work : Work α)
  | waiting (untilMs : Option Nat) (heedsCancel : Bool) (next : Wake → Work α)

namespace Progress

variable {α : Type}

/-- What ends a wait by now. -/
def wake? (s : Site) (untilMs : Option Nat) (heedsCancel : Bool) : Option Wake :=
  if heedsCancel && s.cancelled then some .cancelled
  else if untilMs.any (· ≤ s.host.nowMs) then some .timeUp
  else none

/-- Whether a turn would change something: there is a step to take, or the wait is over. -/
def canTurn (s : Site) : Progress α → Bool
  | .running _ => true
  | .waiting untilMs heeds _ => (wake? s untilMs heeds).isSome

/-- One turn; work that has ended stays as it is. -/
def turn (s : Site) : Progress α → Progress α × Site
  | .running (.ask q next) =>
    let (reply, s) := s.answer q
    (.running (next reply), s)
  | .running (.wait ms heeds next) => (.waiting (ms.map (s.host.nowMs + ·)) heeds next, s)
  | .running work => (.running work, s)
  | .waiting untilMs heeds next =>
    match wake? s untilMs heeds with
    | some wake => (.running (next wake), s)
    | none => (.waiting untilMs heeds next, s)

end Progress

namespace Work

variable {α : Type}

/-- Runs a program to its end where nothing else happens but, at a given time, its cancellation.
There is no result if it breaks off or waits without end. -/
def runAlone (cancelAtMs : Option Nat) (s : Site) : Work α → Option α × Site
  | .done a => (some a, s)
  | .abort => (none, s)
  | .ask q next =>
    let (reply, s) := s.answer q
    runAlone cancelAtMs s (next reply)
  | .wait ms heeds next =>
    let until_ : Option Nat := ms.map (s.host.nowMs + ·)
    let moveTo (t : Nat) : Site :=
      let nowMs := max t s.host.nowMs
      { s with
        host := { s.host with nowMs }, cancelled := s.cancelled || cancelAtMs.any (· ≤ nowMs) }
    let cancelFirst : Option Nat :=
      if heeds then cancelAtMs.filter fun t => until_.all (t ≤ ·) else none
    match cancelFirst, until_ with
    | some t, _ => runAlone cancelAtMs (moveTo t) (next .cancelled)
    | none, some t => runAlone cancelAtMs (moveTo t) (next .timeUp)
    | none, none => (none, s)

end Work

end Dialogue
