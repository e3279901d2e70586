import Dialogue.Api.Body
import Dialogue.Api.Route
import Dialogue.Catalog
import Dialogue.Session.World

/-!
Answering requests.

`Api.handle` carries out what a request asks for. A request that needs a call of a session gives the
call and what its result is answered with; the call has its turns in the world like any other.
-/
namespace Dialogue

/-- A request. -/
structure ApiRequest where
  method : String
  path : String
  body : String := ""
  /-- Whether its header says that the body is JSON. -/
  saysJson : Bool := false

/-- What a response holds. -/
inductive ApiBody where
  | json (v : Json)
  | text (s : String)
  /-- The items of a feed, by its job. -/
  | feed (job : Nat)
  /-- A remark of the server on a request that it cannot take. -/
  | remark

/-- A response. -/
structure ApiResponse where
  status : Nat
  body : ApiBody

/-- The response with nothing in it. -/
def ApiResponse.bare (r : ApiResponse) : ApiResponse :=
  { r with body := if r.status < 400 then .text "" else .remark }

/-- Why a request fails. -/
inductive ApiError where
  | badRequest (message : String)
  | notFound (message : String)
  | conflict (message : String)
  | internal (message : String)
  deriving DecidableEq, Repr

namespace ApiError

/-- The status of a failure. -/
def status : ApiError → Nat
  | .badRequest _ => 400
  | .notFound _ => 404
  | .conflict _ => 409
  | .internal _ => 500

/-- The wording of a failure. -/
def message : ApiError → String
  | .badRequest message => message
  | .notFound message => message
  | .conflict message => message
  | .internal message => message

/-- The failure of a request whose session cannot do it. -/
def ofSession (e : SessionError) : ApiError :=
  match e with
  | .notFound _ => .notFound e.message
  | .closed => .internal e.message
  | .unknownStep _ => .internal e.message
  | .rejected (.unknownStep _) => .internal e.message
  | .rejected _ => .conflict e.message

/-- The failure of a request whose document does not compile. -/
def ofFlow (e : FlowError) : ApiError := .badRequest e.message

/-- The response that tells of a failure. -/
def toResponse (e : ApiError) : ApiResponse :=
  ⟨e.status, .json (.object [("error", .string e.message)])⟩

end ApiError

/-- A request under way: the call that it waits for, and the response to its result. -/
structure PendingCall where
  session : String
  call : Call
  respond : CallResult → Snapshot → ApiResponse

/-- What becomes of a request. -/
inductive Handling where
  | done (r : ApiResponse)
  | pending (c : PendingCall)

/-- The same with nothing in the response. -/
def Handling.bare : Handling → Handling
  | .done r => .done r.bare
  | .pending c => .pending { c with respond := fun result s => (c.respond result s).bare }

namespace Api

/-- The name and version of the server. -/
def version : String := "chatflow 0.1.0"

/-- A response of the server itself. -/
def remark (status : Nat) : ApiResponse := ⟨status, .remark⟩

/-- The status of a request that no operation answers. -/
def routeStatus : RouteError → Nat
  | .unknownPath => 404
  | .wrongMethod => 405
  | .badId => 400

/-- The body of a request as JSON of some sort, or the status with which it is refused. -/
def bodyOf (read : String → Except BodyFault α) (r : ApiRequest) : Except ApiResponse α :=
  if r.saysJson then
    match read r.body with
    | .ok a => .ok a
    | .error .notJson => .error (remark 400)
    | .error (.wrongShape _) => .error (remark 422)
  else .error (remark 415)

/-- The machine that a session is to be started on; a document in the request goes before a name. -/
def machineFor (r : Registry) (catalog : Catalog) (request : CreateRequest) :
    Except ApiError Machine :=
  match request.flow, request.flowId with
  | some document, _ =>
    match FlowDocument.ofJson document >>= Machine.build r.kinds with
    | .ok m => .ok m
    | .error e => .error (.ofFlow e)
  | none, some id =>
    match Entries.get? catalog id with
    | some m => .ok m
    | none => .error (.notFound ("Flow not found: " ++ id))
  | none, none => .error (.badRequest "Either flowId or flow is required")

/-- The response to a call, if its result is of the expected sort. -/
def respondWith (status : Nat) (fields : CallResult → Option Json.Fields) (result : CallResult)
    (snapshot : Snapshot) : ApiResponse :=
  match result, fields result with
  | .failed e, _ => (ApiError.ofSession e).toResponse
  | _, some fields => ⟨status, .json (.object (fields ++ [("snapshot", snapshot.toJson)]))⟩
  | _, none => remark 500

/-- The field of a response with a surface. -/
def surfaceField : CallResult → Option Json.Fields
  | .surface s => some [("surface", s.toJson)]
  | _ => none

/-- The field of a response with a submission. -/
def submissionField : CallResult → Option Json.Fields
  | .submission s => some [("submission", s.toJson)]
  | _ => none

/-- A request that fails at once. -/
def failed (e : ApiError) : Handling := .done e.toResponse

/-- Starts a session under a new id and draws it. -/
def create (catalog : Catalog) (newId : String) (w : World) (request : CreateRequest) :
    World × Handling :=
  match machineFor w.registry catalog request with
  | .error e => (w, failed e)
  | .ok m => (w.create newId m request.metadata,
      .pending ⟨newId, .look, respondWith 201 surfaceField⟩)

/-- A request to a session that can be found. -/
def withSession (w : World) (id : String) (f : Session → World × Handling) : World × Handling :=
  match w.find id with
  | .ok s => f s
  | .error e => (w, failed (.ofSession e))

/-- Carries out what a request asks for. -/
def perform (catalog : Catalog) (newId : String) (w : World) (r : ApiRequest) :
    Endpoint → World × Handling
  | .version => (w, .done ⟨200, .text version⟩)
  | .listFlows => (w, .done ⟨200, .json (.object [("flows", catalog.summaries)])⟩)
  | .createSession =>
    match bodyOf CreateRequest.ofText r with
    | .error response => (w, .done response)
    | .ok request => create catalog newId w request
  | .getSession id => withSession w id fun _ =>
      (w, .pending ⟨id, .look, respondWith 200 surfaceField⟩)
  | .sendEvent id =>
    match bodyOf ClientEvent.ofText r with
    | .error response => (w, .done response)
    | .ok e => withSession w id fun _ =>
        (w, .pending ⟨id, .ofClientEvent e, respondWith 200 submissionField⟩)
  | .openStream id => withSession w id fun s =>
      (w.spawn id (.feed (.start s)), .done ⟨200, .feed w.jobCount⟩)
  | .deleteSession id =>
    match w.remove id with
    | .ok w => (w, .done ⟨200, .json (.object [("success", .bool true)])⟩)
    | .error e => (w, failed (.ofSession e))

/-- Takes a request. A session that it starts gets the new id. `HEAD` asks for what `GET` does, and
is answered without a body. -/
def handle (catalog : Catalog) (newId : String) (w : World) (r : ApiRequest) : World × Handling :=
  let isHead := r.method = "HEAD"
  match Route.endpoint (if isHead then "GET" else r.method) r.path with
  | .error e => (w, .done (remark (routeStatus e)))
  | .ok e =>
    let (w, handling) := perform catalog newId w r e
    (w, if isHead then handling.bare else handling)

end Api

end Dialogue
