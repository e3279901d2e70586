import Dialogue.Session.Basic

/-!
Feeds: what a listener of a session is sent.

A feed begins with the updates of the moment it is opened and reads the snapshot after that, so no
update falls between the two. A listener that hears nothing for a while is sent a ping.
-/
namespace Dialogue

/-- An item of a feed. -/
inductive FeedItem where
  | snapshot (s : Snapshot)
  | update (u : Update)
  | ping

namespace FeedItem

def event (name : String) (data : Json) : Json :=
  .object [("event", .string name), ("data", data)]

def toJson : FeedItem → Json
  | .snapshot s => event "init" (.object [("type", .string "init"), ("snapshot", s.toJson)])
  | .update u => event u.name u.toJson
  | .ping => .object [("comment", .string "ping")]

end FeedItem

/-- A feed: the place of the next update, and what was sent so far. -/
structure Feed where
  cursor : Nat
  /-- When the next ping is due; none before the snapshot was read. -/
  pingAtMs : Option Nat := none
  sent : List FeedItem := []
  ended : Bool := false

namespace Feed

/-- The silence after which a ping is sent. -/
def pingEveryMs : Nat := 15000

/-- A feed that hears all updates from now on. -/
def start (s : Session) : Feed := { cursor := s.updates.length }

/-- Sends an item, which puts the next ping off. -/
def send (x : Feed) (nowMs : Nat) (item : FeedItem) : Feed :=
  { x with sent := x.sent ++ [item], pingAtMs := some (nowMs + pingEveryMs) }

/-- Whether there is something to send, or nothing will ever come again. -/
def canTurn (s : Session) (nowMs : Nat) (isOpen : Bool) (x : Feed) : Bool :=
  !x.ended && (x.pingAtMs.all (· ≤ nowMs) || !(s.unread x.cursor).isEmpty || !isOpen)

/-- One turn: the snapshot first, then the next update there is, and pings in between. -/
def turn (s : Session) (nowMs : Nat) (isOpen : Bool) (x : Feed) : Feed :=
  match x.pingAtMs with
  | none => x.send nowMs (.snapshot s.snapshot)
  | some pingAt =>
    match s.unread x.cursor with
    | u :: _ => { x with cursor := s.firstReadable x.cursor + 1 }.send nowMs (.update u)
    | [] =>
      if !isOpen then { x with ended := true }
      else if pingAt ≤ nowMs then x.send nowMs .ping
      else x

end Feed

end Dialogue
