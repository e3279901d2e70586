import Dialogue.Text.Blank
import Dialogue.Text.Hex

/-!
Routes: which resource a path names, and what may be done with it.
-/
namespace Dialogue

/-- What a path names. -/
inductive Resource where
  | flows
  | sessions
  | session (id : String)
  | events (session : String)
  | stream (session : String)
  | version
  deriving DecidableEq, Repr

/-- What a request asks for. -/
inductive Endpoint where
  | listFlows
  | createSession
  | getSession (id : String)
  | deleteSession (id : String)
  | sendEvent (session : String)
  | openStream (session : String)
  | version
  deriving DecidableEq, Repr

/-- Why a request reaches nothing. -/
inductive RouteError where
  | unknownPath
  | wrongMethod
  /-- An id that is no text when its percent signs are resolved. -/
  | badId
  deriving DecidableEq, Repr

namespace Route

/-- The bytes of a text in which `%` and two hexadecimal digits stand for a byte. -/
def percentBytes : List Char → List UInt8
  | '%' :: a :: b :: rest =>
    match Text.hexValue? a, Text.hexValue? b with
    | some x, some y => .ofNat (16 * x + y) :: percentBytes rest
    | _, _ => 37 :: percentBytes (a :: b :: rest)
  | c :: rest => c.toString.toUTF8.toList ++ percentBytes rest
  | [] => []

/-- The text of a part of a path. -/
def percentDecoded? (cs : List Char) : Option String :=
  String.fromUTF8? ⟨(percentBytes cs).toArray⟩

/-- The parts of a path after its first slash, without what follows a question mark. -/
def parts? (path : String) : Option (List (List Char)) :=
  match path.toList.takeWhile (· ≠ '?') with
  | '/' :: rest => some (Text.splitChars '/' rest)
  | _ => none

/-- A resource named by an id, which may not be empty. -/
def withId (id : List Char) (make : String → Resource) : Except RouteError Resource :=
  if id.isEmpty then .error .unknownPath
  else
    match percentDecoded? id with
    | some id => .ok (make id)
    | none => .error .badId

/-- The resource that a path names. -/
def resource (path : String) : Except RouteError Resource :=
  match (parts? path).map fun parts => (parts.map String.ofList, parts) with
  | some (["version"], _) => .ok .version
  | some (["api", "flows"], _) => .ok .flows
  | some (["api", "sessions"], _) => .ok .sessions
  | some (["api", "sessions", _], [_, _, id]) => withId id .session
  | some (["api", "sessions", _, "events"], [_, _, id, _]) => withId id .events
  | some (["api", "sessions", _, "stream"], [_, _, id, _]) => withId id .stream
  | _ => .error .unknownPath

/-- What a method does with a resource. -/
def endpoint? (method : String) : Resource → Option Endpoint
  | .flows => if method = "GET" then some .listFlows else none
  | .sessions => if method = "POST" then some .createSession else none
  | .session id =>
    if method = "GET" then some (.getSession id)
    else if method = "DELETE" then some (.deleteSession id)
    else none
  | .events id => if method = "POST" then some (.sendEvent id) else none
  | .stream id => if method = "GET" then some (.openStream id) else none
  | .version => if method = "GET" then some .version else none

/-- What a request asks for. -/
def endpoint (method path : String) : Except RouteError Endpoint := do
  let resource ← resource path
  match endpoint? method resource with
  | some e => .ok e
  | none => .error .wrongMethod

end Route

end Dialogue
