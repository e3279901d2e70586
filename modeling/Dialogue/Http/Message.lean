import Dialogue.Json.Basic

/-!
Requests to other systems, and what comes back.

A network gives each request a reply: a wait, and then an answer or nothing at all. A network is
either an endpoint that answers every request by itself or a queue of replies that are used up in
order.
-/
namespace Dialogue

/-- An outgoing request. -/
structure HttpRequest where
  method : String
  url : String
  headers : List (String × String)
  body : Option Json

namespace HttpRequest

/-- A request in a log, with the time at which it was sent. -/
def toJson (atMs : Nat) (r : HttpRequest) : Json := .object [
  ("atMs", .ofNat atMs), ("method", .string r.method), ("url", .string r.url),
  ("headers", .array (r.headers.map fun (name, v) => .array [.string name, .string v])),
  ("body", r.body.getD .null)]

end HttpRequest

/-- A response; its body is JSON, or a string if it is not. -/
structure HttpResponse where
  status : Nat
  body : Json

/-- Whether the status says that it went well. -/
def HttpResponse.isSuccess (r : HttpResponse) : Bool := 200 ≤ r.status && r.status < 300

/-- Why there is no response. -/
inductive HttpError where
  | timeout (afterMs : Nat)
  | network (message : String)
  | invalidRequest (message : String)
  deriving DecidableEq, Repr

namespace HttpError

def message : HttpError → String
  | .timeout afterMs => "Request timed out after " ++ toString afterMs ++ "ms"
  | .network message => message
  | .invalidRequest message => message

/-- Whether trying again may help. -/
def isRetryable : HttpError → Bool
  | .invalidRequest _ => false
  | _ => true

end HttpError

/-- What a request gets: after a wait an answer, or nothing ever. -/
structure HttpReply where
  delayMs : Nat := 0
  answer : Option (Except HttpError HttpResponse)

/-- How long a reply takes and what it is for one who waits so many milliseconds; a reply that comes
at the last moment counts. -/
def HttpReply.within (r : HttpReply) (timeoutMs : Nat) : Nat × Except HttpError HttpResponse :=
  match r.answer with
  | some result => if r.delayMs ≤ timeoutMs then (r.delayMs, result) else late
  | none => late
where
  late := (timeoutMs, .error (.timeout timeoutMs))

/-- Where replies come from. -/
inductive Network where
  | endpoint (reply : HttpRequest → HttpReply)
  | queue (replies : List HttpReply)

namespace Network

/-- The reply when the queue is used up. -/
def noReply : HttpReply := { answer := some (.error (.network "No mock response queued")) }

/-- Sends a request: its reply, and the network for the next one. -/
def send (n : Network) (request : HttpRequest) : HttpReply × Network :=
  match n with
  | .endpoint reply => (reply request, n)
  | .queue [] => (noReply, n)
  | .queue (reply :: rest) => (reply, .queue rest)

end Network

end Dialogue
