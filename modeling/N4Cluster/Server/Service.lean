import N4Cluster.Base.Extension
import N4Cluster.Server.Auth
import N4Cluster.Server.Requests

/-! The front door: what becomes of an HTTP request before its handler runs. The size of the
body and the protocol of the peer are looked at, a peer of another version is announced once,
and the bearer token is resolved to a principal that must hold the right of the route. -/
namespace N4Cluster
open Relational Transactional Interleave

structure ServiceConfig extends ServerConfig where
  principals : List TokenPrincipal := []
  token : Option String := none
  maxRequestMb : Int := 16

/-- `_authorizer_from_config`. -/
def ServiceConfig.authorizer (config : ServiceConfig) : List TokenPrincipal :=
  config.principals ++ if truthy config.token then [{ name := "default", token := config.token.getD "" }] else []

def ServiceConfig.enforced (config : ServiceConfig) : Bool := !config.authorizer.isEmpty

/-! ## Versions -/

def clusterVersion : String := "0.1.5"

def apiVersion : Int := 1

def parseApi (P : Platform) (value : Option String) : Option Int := value.bind P.intOfStr

/-- An absent or unreadable protocol is taken for ours. -/
def isIncompatible (peerApi : Option Int) : Bool := peerApi.any fun api => api ≠ apiVersion

def isDivergent (peerVersion : Option String) : Bool := truthy peerVersion && peerVersion != some clusterVersion

/-! ## Requests over HTTP -/

/-- The headers that are read. -/
structure Headers where
  authorization : Option String := none
  contentLength : Option String := none
  api : Option String := none
  version : Option String := none
  role : Option String := none

/-- The text of an `Authorization: Bearer` header; only letters of ASCII fold to those of
the scheme. -/
def bearerToken (authorization : Option String) : Option String :=
  if truthy authorization then
    let text := (authorization.getD "").toList
    let scheme := String.ofList ((text.takeWhile (· ≠ ' ')).map Char.toLower)
    let token := String.ofList ((text.dropWhile (· ≠ ' ')).drop 1)
    if scheme ≠ "bearer" || token = "" then none else some token
  else none

/-- A route that writes, or `get_job`, with what was decoded from its path, query and body. -/
inductive Action where
  | submitJob (req : JobRequest)
  | getJob (jobId : JobId)
  | cancelJob (jobId : JobId)
  | uploadInput (upload : Option NewArtifact)
  | registerWorker (reg : WorkerRegister)
  | heartbeat (workerId : WorkerId)
  | lease (workerId : WorkerId)
  | startTask (taskId : TaskId) (workerId : WorkerId)
  | taskEvent (taskId : TaskId) (event : TaskEvent)
  | uploadArtifact (taskId : TaskId) (role : String) (upload : Option NewArtifact)
  | completeTask (attempt : Nat) (taskId : TaskId) (result : TaskResult) (workerId : WorkerId)
  | failTask (attempt : Nat) (taskId : TaskId) (failure : TaskFailure) (workerId : WorkerId)

/-- The right a route depends on. -/
def Action.right : Action → Right
  | .submitJob _ | .uploadInput _ => .submit
  | .getJob _ => .read
  | .cancelJob _ => .cancel
  | .registerWorker _ | .heartbeat _ | .lease _ | .startTask _ _ | .taskEvent _ _ | .uploadArtifact _ _ _
  | .completeTask _ _ _ _ | .failTask _ _ _ _ => .execute

/-- The paths that end in `/artifacts`. -/
def Action.streams : Action → Bool
  | .uploadInput _ | .uploadArtifact _ _ _ => true
  | _ => false

inductive Arrival where
  | request (headers : Headers) (action : Action)
  | tick (order : SetOrder)

/-! ## The service -/

/-- A peer's role and version, looked up in `seen_versions`. -/
structure Note where
  role : String
  peerVersion : String
deriving DecidableEq

/-- `seen_versions`: a new pair is added and answered with `True`. -/
def seenVersions : Machine Note (fun _ => Bool) (List Note) Io where
  exec _ note seen := if note ∈ seen then (false, seen) else (true, note :: seen)
  valid _ _ _ := True

abbrev Door := Program (Call ⊕ Note) (Sum.elim Call.Ret fun _ => Bool) Fault

def divergenceEvent (note : Note) : NewEvent where
  level := .warning
  type := "version_divergence"
  message := note.role ++ " runs nirs4all-cluster " ++ note.peerVersion ++ "; server runs " ++ clusterVersion ++
    " (compatible)"

/-- What `_note_divergence` is called with. -/
def Headers.note (headers : Headers) : Note := ⟨headers.role.getD "client", headers.version.getD ""⟩

/-- `_note_divergence`. -/
def noteDivergence (note : Note) : Door Unit :=
  .call (.inr note) fun
    | true => (emit .route (divergenceEvent note)).within
    | false => .ret ()

section
variable (P : Platform) (printable : Char → Bool) (config : ServiceConfig)

/-- The length that a header declares is more than the limit. -/
def bodyTooLarge (headers : Headers) : Bool :=
  ((headers.contentLength.bind P.intOfStr).any fun length => config.maxRequestMb * 1024 * 1024 < length : Bool)

/-- `_guard`, up to `call_next`. -/
def guard (headers : Headers) (action : Action) : Door Unit :=
  if !action.streams && bodyTooLarge P config headers then (httpError 413 "request body too large").within
  else if isIncompatible (parseApi P headers.api) then
    (httpError 426 ("incompatible protocol: server api=" ++ toString apiVersion ++ ", peer api=" ++
      toString ((parseApi P headers.api).getD 0))).within
  else if isDivergent headers.version then noteDivergence headers.note
  else .ret ()

/-- `requires`. -/
def requires (headers : Headers) (right : Right) : Prog Principal :=
  match Authorizer.check printable config.authorizer (bearerToken headers.authorization) [right] with
  | .ok principal => .ret principal.toPrincipal
  | .error (.authError status detail) => httpError status detail
  | .error (.typeError message) => raiseAt .route (.typeError message)

/-- `get_job`. -/
def Route.getJob (jobId : JobId) : Prog Reply := do
  match ← perform .route (.getJob jobId) with
  | none => httpError 404 "job not found"
  | some _ => Route.replyJob P jobId

/-- The handler of a route. -/
def Action.run (principal : Principal) : Action → Prog Reply
  | .submitJob req => handler P config.toServerConfig (.submitJob req principal)
  | .getJob jobId => Route.getJob P jobId
  | .cancelJob jobId => handler P config.toServerConfig (.cancelJob jobId)
  | .uploadInput upload => handler P config.toServerConfig (.uploadInput upload)
  | .registerWorker reg => handler P config.toServerConfig (.registerWorker reg principal)
  | .heartbeat workerId => handler P config.toServerConfig (.heartbeat workerId principal)
  | .lease workerId => handler P config.toServerConfig (.lease workerId principal)
  | .startTask taskId workerId => handler P config.toServerConfig (.startTask taskId workerId principal)
  | .taskEvent taskId event => handler P config.toServerConfig (.taskEvent taskId event principal)
  | .uploadArtifact taskId role upload => handler P config.toServerConfig (.uploadArtifact taskId role upload principal)
  | .completeTask attempt taskId result workerId =>
    handler P config.toServerConfig (.completeTask attempt taskId result workerId principal)
  | .failTask attempt taskId failure workerId =>
    handler P config.toServerConfig (.failTask attempt taskId failure workerId principal)

/-- An HTTP request behind the guard: its principal, then its route. -/
def authorized (headers : Headers) (action : Action) : Prog Reply := do
  action.run P config (← requires printable config headers action.right)

def serve : Arrival → Door Reply
  | .tick order => (reaperTick P config.toServerConfig order).within
  | .request headers action => do
    guard P config headers action
    (authorized P printable config headers action).within

/-- The service over the database and `seen_versions`, which a restart empties. -/
def service : System Arrival (Call ⊕ Note) (Sum.elim Call.Ret fun _ => Bool) Fault Reply (Session Db × List Note) Io where
  toMachine := (machine P).beside seenVersions
  handler := serve P printable config
  recover s := (.settled s.1.disk, [])

end

instance decidableServed (P : Platform) (printable : Char → Bool) (config : ServiceConfig) (io : Io) :
    (op : Call ⊕ Note) → (s : Session Db × List Note) → Decidable ((service P printable config).valid io op s)
  | .inl c, s => inferInstanceAs (Decidable (Fresh io s.1.live c.op))
  | .inr _, _ => isTrue trivial

end N4Cluster
