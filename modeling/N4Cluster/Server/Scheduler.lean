import N4Cluster.Schemas
import Mathlib.Logic.Relation

/-! Scheduling policy: the two transition tables and the matching of a task's
requirements with what a worker declared. Version comparison, text-to-number
conversion, the pydantic round trips and attribute lookup on a pydantic model
belong to third parties and enter through `Platform`. -/
namespace N4Cluster

/-- What an attribute of a metrics object that is not one of its fields can do:
`<` between two of them (`none` raises), unary minus, and `json.dumps`. -/
structure MetricAttr where
  less : Option (RunMetrics → RunMetrics → Bool)
  negates : Bool
  dumps : Bool

structure Platform where
  /-- `float(text)`; `none` is its `ValueError`. -/
  floatOfStr : String → Option PyFloat
  /-- `int(text)`; `none` is its `ValueError`. -/
  intOfStr : String → Option Int
  /-- `Version(installed) in SpecifierSet(spec)`, false when either does not parse; an
  error is the `ValueError` of `int` for a number of too many digits. -/
  versionIn : String → String → Except PyErr Bool
  /-- The message of the `UnicodeEncodeError` with which SQLite's driver refuses a text. -/
  textError : String → Option String
  /-- The exception `model_dump_json` raises on a request, if it does. -/
  dumpError : JobRequest → Option PyErr
  /-- `JobRequest.model_validate_json` applied to the stored dump of a request. -/
  reloadRequest : JobRequest → Except PyErr JobRequest
  /-- `TaskResult.model_validate_json` applied to the stored dump of a result. -/
  reloadResult : TaskResult → Except PyErr TaskResult
  /-- `getattr` on a `RunMetrics` for a name that is none of its fields. -/
  metricAttr : String → Option MetricAttr

/-- `JOB_TRANSITIONS`. -/
def jobTransitions : JobStatus → List JobStatus
  | .queued => [.running, .cancelling, .cancelled, .failed]
  | .running => [.succeeded, .failed, .cancelling, .cancelled]
  | .cancelling => [.cancelled, .failed]
  | .failed => [.queued]
  | .succeeded => []
  | .cancelled => []

/-- `TASK_TRANSITIONS`. -/
def taskTransitions : TaskStatus → List TaskStatus
  | .queued => [.leased, .cancelled]
  | .leased => [.running, .lost, .queued, .failed, .cancelled]
  | .running => [.succeeded, .failed, .lost, .cancelled]
  | .lost => [.queued, .failed, .cancelled]
  | .failed => [.queued]
  | .succeeded => []
  | .cancelled => []

def jobCanTransition (src dst : JobStatus) : Bool := dst ∈ jobTransitions src

def taskCanTransition (src dst : TaskStatus) : Bool := dst ∈ taskTransitions src

def validateJobTransition (src dst : JobStatus) : Except PyErr Unit :=
  if jobCanTransition src dst then .ok ()
  else .error (.illegalTransition s!"illegal job transition {src.value} -> {dst.value}")

def validateTaskTransition (src dst : TaskStatus) : Except PyErr Unit :=
  if taskCanTransition src dst then .ok ()
  else .error (.illegalTransition s!"illegal task transition {src.value} -> {dst.value}")

/-- A status from which the policy leaves no way, or only the manual retry. -/
def JobStatus.terminal : JobStatus → Bool
  | .succeeded | .failed | .cancelled => true
  | _ => false

def TaskStatus.terminal : TaskStatus → Bool
  | .succeeded | .failed | .cancelled => true
  | _ => false

def TaskStatus.inFlight : TaskStatus → Bool
  | .leased | .running => true
  | _ => false

theorem TaskStatus.still {status : TaskStatus} (terminal : status.terminal = true) :
    status.inFlight = false := by
  cases status <;> trivial

/-- A path of the task table. -/
abbrev TaskPath : TaskStatus → TaskStatus → Prop :=
  Relation.ReflTransGen fun src dst => taskCanTransition src dst = true

namespace Platform
variable (P : Platform)

def versionSatisfies (installed : Option String) (spec : String) : Except PyErr Bool :=
  match installed with
  | none => .ok false
  | some version => if spec == "" then .ok true else P.versionIn version spec

/-- `float(value)`; an integer too large for a double overflows. -/
def float (value : Json) : Except PyErr PyFloat :=
  match value with
  | .int n =>
    if (nearestDouble n).natAbs < 2 ^ 1024 then .ok (.fin (nearestDouble n)) else .error .overflowError
  | .float x => .ok x
  | .bool b => .ok (.fin (if b then 1 else 0))
  | .str text =>
    match P.floatOfStr text with
    | some x => .ok x
    | none => .error (.valueError "could not convert string to float")
  | .null | .arr _ | .obj _ => .error (.typeError "float() argument")

/-- `int(value)`, truncating a finite float towards zero. -/
def int (value : Json) : Except PyErr Int :=
  match value with
  | .int n => .ok n
  | .float (.fin q) => .ok (q.num.tdiv q.den)
  | .float .nan => .error (.valueError "cannot convert float NaN to integer")
  | .float _ => .error .overflowError
  | .bool b => .ok (if b then 1 else 0)
  | .str text =>
    match P.intOfStr text with
    | some n => .ok n
    | none => .error (.valueError "invalid literal for int()")
  | .null | .arr _ | .obj _ => .error (.typeError "int() argument")

/-- The soft memory floor: only a worker that advertises `memory_gb` is held to it. -/
def memoryMatches (floor : Option PyFloat) (caps : Dict) : Except PyErr Bool :=
  match floor, caps.lookup "memory_gb" with
  | none, _ | some _, none | some _, some .null => .ok true
  | some least, some advertised => do return !(← P.float advertised).lt least

/-- The GPU floor fails closed: an undeclared count is zero. -/
def gpuMatches (floor : Option Int) (caps : Dict) : Except PyErr Bool :=
  match floor with
  | none => .ok true
  | some least =>
    match (caps.lookup "gpu_count").filter Json.truthy with
    | none => .ok (decide (least ≤ 0))
    | some declared => do return decide (least ≤ (← P.int declared))

/-- The loop over `requirements.packages`, which ends at the first that is not satisfied. -/
def packagesMatch (versions : List (String × String)) : List (String × String) → Except PyErr Bool
  | [] => .ok true
  | (package, spec) :: rest => do
    if ← P.versionSatisfies (versions.lookup package) spec then packagesMatch versions rest
    else return false

def requirementsMatch (reqs : Requirements) (labels : List (String × String)) (caps : Dict)
    (versions : List (String × String)) : Except PyErr Bool :=
  if reqs.labels.all fun (key, value) => labels.lookup key == some value then do
    if ← P.memoryMatches reqs.minMemoryGb caps then
      if ← P.gpuMatches reqs.minGpuCount caps then
        P.packagesMatch versions reqs.packages
      else return false
    else return false
  else .ok false

/-- A platform for concrete runs: requests and results read back as stored, but for
a tolerance that `model_dump_json` has turned into `null`; the methods of a metrics
object are neither ordered, nor negated, nor serialized. -/
def plain : Platform where
  floatOfStr _ := none
  intOfStr := String.toInt?
  versionIn installed spec := .ok (spec == "==" ++ installed)
  textError _ := none
  dumpError _ := none
  reloadRequest req :=
    if req.parity.all fun parity => parity.metricToleranceAbs.isFinite then
      .ok { req with requirements := { req.requirements with
        minMemoryGb := req.requirements.minMemoryGb.filter PyFloat.isFinite } }
    else .error (.validationError "parity.metric_tolerance_abs")
  reloadResult := .ok
  metricAttr name :=
    if name = "model_dump" then some { less := none, negates := false, dumps := false } else none

/-- A text that no string of Lean is, by its escape in JSON: a lone surrogate. -/
def surrogate : String := "\\ud800"

/-- The platform of concrete runs with a driver that refuses the lone surrogate. -/
def strict : Platform :=
  { plain with textError := fun text => if text = surrogate then some "surrogates not allowed" else none }

end Platform
end N4Cluster
