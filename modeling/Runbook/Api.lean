import Runbook.Api.MediaType
import Runbook.Api.Payload
import Runbook.Api.Target
import Runbook.Engine

/-!
# The inspection API

Stored runs can be listed and shown over HTTP, and live ones canceled.

* `Route` — what can be addressed, and by which methods.
* `Api.respond` — the answer to a request.
-/

namespace Runbook.Api

/-- What a request asks for. -/
inductive Method where
  /-- a representation -/
  | get
  /-- a representation, without its body -/
  | head
  /-- an action -/
  | post
  /-- anything else -/
  | other
  deriving DecidableEq, Repr

/-- The method of that name. -/
def Method.ofName (s : String) : Method :=
  match s with
  | "GET" => get
  | "HEAD" => head
  | "POST" => post
  | _ => other

/-- A request. -/
structure Request where
  /-- what it asks for -/
  method : Method
  /-- what it addresses -/
  target : Target
  /-- the type of the body -/
  contentType : Option String
  /-- the body -/
  body : String

/-- The body of an answer. -/
inductive Body where
  /-- one that says nothing beyond the status -/
  | unspecified
  /-- a text -/
  | text (s : String)
  /-- JSON -/
  | json (j : Json)

/-- An answer. -/
structure Response where
  /-- the status code -/
  status : Nat
  /-- the body -/
  body : Body

namespace Response

/-- An answer with a JSON body. -/
def ok (j : Json) : Response := ⟨200, .json j⟩

/-- An answer that refuses the request. -/
def refusal (status : Nat) : Response := ⟨status, .unspecified⟩

/-- The answer without its body. -/
def withoutBody (r : Response) : Response := { r with body := .text "" }

end Response

/-- What can be addressed. IDs are still escaped. The ID at the end of a target is
not empty; the one in the middle may be. -/
inductive Route where
  /-- whether the service is alive -/
  | health
  /-- the stored runs -/
  | runs
  /-- one stored run -/
  | run (id : String)
  /-- canceling a live run -/
  | cancel (id : String)
  /-- the names of the procedures -/
  | definitions
  deriving DecidableEq, Repr

namespace Route

/-- The route that a target addresses. -/
def ofTarget? (t : Target) : Option Route :=
  match t.segments with
  | ["", "healthz"] => some health
  | ["", "api", "workflows"] => some runs
  | ["", "api", "definitions"] => some definitions
  | ["", "api", "workflows", id] => if id.isEmpty then none else some (run id)
  | ["", "api", "workflows", id, "cancel"] => some (cancel id)
  | _ => none

end Route

/-- The request to cancel that a body holds, or the status of the refusal. -/
def readCancel (q : Request) : Except Nat CancelRequest :=
  if !(q.contentType.bind MediaType.ofString?).any MediaType.isJson then .error 415
  else
    match Json.read CancelRequest.shape q.body with
    | .ok r => .ok r
    | .error (.fault _) => .error 400
    | .error _ => .error 422

section

variable {σ : Type} [Store σ]

/-- The stored runs. -/
def showRuns (e : Engine σ) (t : Target) : Response × Engine σ :=
  match RunQuery.ofParameters t.parameters with
  | none => (.refusal 400, e)
  | some q =>
    match e.list q with
    | (.error _, e) => (.refusal 500, e)
    | (.ok (runs, total), e) =>
      let page : PageInfo :=
        ⟨UInt32.ofNat q.effectivePage, UInt32.ofNat q.effectivePageSize, UInt64.ofNat total⟩
      (.ok (RunList.toJson ⟨runs, page⟩), e)

/-- One stored run. -/
def showRun (e : Engine σ) (rawId : String) : Response × Engine σ :=
  match segmentText? rawId with
  | none => (.refusal 400, e)
  | some id =>
    match e.detail id with
    | (.error (.notFound _), e) => (.refusal 404, e)
    | (.error _, e) => (.refusal 500, e)
    | (.ok d, e) => (.ok d.toJson, e)

/-- Cancel a live run. -/
def cancelRun (e : Engine σ) (rawId : String) (q : Request) : Response × Engine σ :=
  match segmentText? rawId with
  | none => (.refusal 400, e)
  | some id =>
    match readCancel q with
    | .error status => (.refusal status, e)
    | .ok r =>
      match e.cancel id r.effectiveReason with
      | (false, e) => (.refusal 404, e)
      | (true, e) => (.ok (Acknowledgement.toJson ⟨id, "Workflow cancellation requested"⟩), e)

/-- The representation of a route, if it has one. -/
def represent (e : Engine σ) (t : Target) : Route → Option (Response × Engine σ)
  | .health => some (⟨200, .text "ok"⟩, e)
  | .runs => some (showRuns e t)
  | .run id => some (showRun e id)
  | .definitions => some (.ok (.list (e.registry.names.map .text)), e)
  | .cancel _ => none

/-- The answer to a request. -/
def respond (e : Engine σ) (q : Request) : Response × Engine σ :=
  match Route.ofTarget? q.target with
  | none => (.refusal 404, e)
  | some route =>
    -- the method is looked at before anything else about the request
    match q.method, route with
    | .get, _ => (represent e q.target route).getD (.refusal 405, e)
    | .head, _ =>
      match represent e q.target route with
      | none => (.refusal 405, e)
      | some (r, e) => (r.withoutBody, e)
    | .post, .cancel id => cancelRun e id q
    | _, _ => (.refusal 405, e)

end

end Runbook.Api
