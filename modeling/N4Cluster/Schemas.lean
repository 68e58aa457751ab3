import N4Cluster.Python

/-! The network contract: statuses, references, requests and reports. A model's
validator is a field of its structure, so only accepted values can be built. -/
namespace N4Cluster

/-- Seconds since the epoch, in ticks of the clock. -/
abbrev Time := Int

abbrev JobId := String
abbrev TaskId := String
abbrev WorkerId := String
abbrev ArtifactId := String

inductive JobStatus where
  | queued | running | succeeded | failed | cancelling | cancelled
deriving DecidableEq

inductive TaskStatus where
  | queued | leased | running | succeeded | failed | lost | cancelled
deriving DecidableEq

inductive WorkerStatus where
  | alive | dead
deriving DecidableEq

inductive EventLevel where
  | debug | info | warning | error
deriving DecidableEq

def JobStatus.value : JobStatus → String
  | .queued => "queued"
  | .running => "running"
  | .succeeded => "succeeded"
  | .failed => "failed"
  | .cancelling => "cancelling"
  | .cancelled => "cancelled"

def TaskStatus.value : TaskStatus → String
  | .queued => "queued"
  | .leased => "leased"
  | .running => "running"
  | .succeeded => "succeeded"
  | .failed => "failed"
  | .lost => "lost"
  | .cancelled => "cancelled"

inductive PipelineKind where
  | path | artifact | inlineJson | pythonEntrypoint
deriving DecidableEq

def PipelineKind.value : PipelineKind → String
  | .path => "path"
  | .artifact => "artifact"
  | .inlineJson => "inline_json"
  | .pythonEntrypoint => "python_entrypoint"

/-- How a worker obtains the pipeline; the field its kind names is present. An
`inline` of `None` is absent. -/
structure PipelineRef where
  kind : PipelineKind
  path : Option String := none
  artifactId : Option String := none
  inline : Option Json := none
  bundleArtifactId : Option String := none
  entrypoint : Option String := none
  expectedFingerprint : Option String := none
  kindFields : (match kind with
    | .path => path.isSome
    | .artifact => artifactId.isSome
    | .inlineJson => inline.isSome
    | .pythonEntrypoint => entrypoint.isSome) = true := by exact Eq.refl true
  inlineGiven : inline.all (fun doc => !doc.isNull) = true := by exact Eq.refl true

inductive DatasetKind where
  | sharedPath | artifact | catalog | workerLocal
deriving DecidableEq

def DatasetKind.value : DatasetKind → String
  | .sharedPath => "shared_path"
  | .artifact => "artifact"
  | .catalog => "catalog"
  | .workerLocal => "worker_local"

/-- How a worker obtains the dataset; the field its kind names is present. -/
structure DatasetRef where
  kind : DatasetKind
  path : Option String := none
  artifactId : Option String := none
  catalogId : Option String := none
  name : Option String := none
  kindFields : (match kind with
    | .sharedPath => path.isSome
    | .artifact => artifactId.isSome
    | .catalog => catalogId.isSome
    | .workerLocal => path.isSome) = true := by exact Eq.refl true

/-- `a or b or ... or last`. -/
def firstTruthy (values : List (Option String)) (last : String) : String :=
  match values.find? truthy with
  | some (some text) => text
  | _ => last

def DatasetRef.label (d : DatasetRef) : String :=
  firstTruthy [d.name, d.path, d.artifactId, d.catalogId] d.kind.value

structure Requirements where
  labels : List (String × String) := []
  minMemoryGb : Option PyFloat := none
  minGpuCount : Option Int := none
  packages : List (String × String) := []

structure Outputs where
  exportBestModel : Bool := true
  keepTaskWorkspace : Bool := false

structure RetryPolicy where
  maxAttempts : Nat := 2
  atLeastOne : 1 ≤ maxAttempts := by decide
  atMostTen : maxAttempts ≤ 10 := by decide

instance : Inhabited RetryPolicy := ⟨{}⟩

inductive ParityScope where
  | atomic | pipelineDatasetMatrix
deriving DecidableEq

/-- Client-declared parity contract; only `metric_tolerance_abs` is bounded (`ge=0`). -/
structure DistributedRunParity where
  scope : ParityScope
  metricToleranceAbs : PyFloat
  expectedMetricKeys : List String :=
    ["best_score", "best_rmse", "best_r2", "best_mae", "best_accuracy"]
  preservedParams : List String := []
  translatedParams : List (String × String) := []
  omittedLocalKwargs : List String := []
  deferred : List String := []
  toleranceBound : metricToleranceAbs.lt (.fin 0) = false

structure JobSubmissionMetadata where
  principal : Option String := none
  requiredRights : List String := ["submit"]
  grantedRights : List String := []

inductive SchedulerShape where
  | atomic | pipelineDatasetMatrix | dagShapedWholeRun
deriving DecidableEq

structure DagSchedulerContract where
  shape : SchedulerShape := .atomic
  submitRightsRequired : List String := ["submit"]
  executeRightsRequired : List String := ["execute"]

inductive AlignmentStrategy where
  | sampleIndices | fullDatasetLength | uniqueMetadataIdentity | relationManifestIdentity
deriving DecidableEq

/-- The names and aliases of a native model: what no extension field is called. -/
def handoffKeys : List String :=
  ["kind", "requested", "destination", "fail_closed", "alignment_strategies", "published_fields",
    "failClosed", "alignmentStrategies", "publishedFields"]

def manifestKeys : List String :=
  ["version", "robustness_evidence_publication_handoff", "robustnessEvidencePublicationHandoff"]

def nativePayloadKeys : List String :=
  ["legacy_config", "manifest", "strict_campaign_specs", "legacyConfig", "strictCampaignSpecs"]

structure NativeRobustnessEvidencePublicationHandoff where
  requested : Bool
  destination : String
  failClosed : Bool
  alignmentStrategies : List AlignmentStrategy
  publishedFields : List String
  extra : Dict := []
  extraKeys : ∀ entry ∈ extra, entry.1 ∉ handoffKeys := by nofun

structure NativeExperimentLaunchPayloadManifest where
  version : Option String := none
  robustnessEvidencePublicationHandoff :
    Option NativeRobustnessEvidencePublicationHandoff := none
  extra : Dict := []
  extraKeys : ∀ entry ∈ extra, entry.1 ∉ manifestKeys := by nofun

/-- The Studio payload the server keeps beside a job and leases with its tasks. -/
structure NativeExperimentLaunchPayload where
  legacyConfig : Option Dict := none
  manifest : NativeExperimentLaunchPayloadManifest := {}
  strictCampaignSpecs : Option Dict := none
  extra : Dict := []
  extraKeys : ∀ entry ∈ extra, entry.1 ∉ nativePayloadKeys := by nofun

inductive RankMode where
  | min | max
deriving DecidableEq

def jobType : String := "nirs4all.run"

/-- A submitted job: exactly one of `pipeline`/`pipelines` and of
`dataset`/`datasets`, and neither list empty. -/
structure JobRequest where
  name : Option String := none
  priority : Int := 0
  pipeline : Option PipelineRef := none
  pipelines : Option (List PipelineRef) := none
  dataset : Option DatasetRef := none
  datasets : Option (List DatasetRef) := none
  params : Dict := []
  requirements : Requirements := {}
  outputs : Outputs := {}
  retry : RetryPolicy := default
  rankMetric : String := "best_rmse"
  rankMode : RankMode := .min
  parity : Option DistributedRunParity := none
  scheduler : Option DagSchedulerContract := none
  submission : Option JobSubmissionMetadata := none
  nativePayload : Option NativeExperimentLaunchPayload := none
  idempotencyKey : Option String := none
  onePipeline : (pipeline.isNone == pipelines.isNone) = false := by exact Eq.refl false
  oneDataset : (dataset.isNone == datasets.isNone) = false := by exact Eq.refl false
  somePipelines : pipelines.all (fun l => !l.isEmpty) = true := by exact Eq.refl true
  someDatasets : datasets.all (fun l => !l.isEmpty) = true := by exact Eq.refl true

namespace JobRequest

def pipelineList (req : JobRequest) : List PipelineRef :=
  match req.pipelines with
  | some refs => refs
  | none => req.pipeline.toList

def datasetList (req : JobRequest) : List DatasetRef :=
  match req.datasets with
  | some refs => refs
  | none => req.dataset.toList

def pipelineListHasPython (req : JobRequest) : Bool :=
  req.pipelineList.any fun p => p.kind = .pythonEntrypoint

theorem pipelineList_ne_nil (req : JobRequest) : req.pipelineList ≠ [] := by
  have one := req.onePipeline
  have filled := req.somePipelines
  unfold pipelineList
  cases lists : req.pipelines with
  | some refs =>
    simp only [lists, Option.all_some, Bool.not_eq_true'] at filled
    simpa using filled
  | none =>
    cases single : req.pipeline with
    | some ref => simp
    | none => simp [lists, single] at one

theorem datasetList_ne_nil (req : JobRequest) : req.datasetList ≠ [] := by
  have one := req.oneDataset
  have filled := req.someDatasets
  unfold datasetList
  cases lists : req.datasets with
  | some refs =>
    simp only [lists, Option.all_some, Bool.not_eq_true'] at filled
    simpa using filled
  | none =>
    cases single : req.dataset with
    | some ref => simp
    | none => simp [lists, single] at one

end JobRequest

/-- `_pipeline_ref_looks_dag`. -/
def pipelineRefLooksDag (ref : PipelineRef) : Bool :=
  match ref.kind, ref.inline with
  | .inlineJson, some (.obj doc) =>
    (doc.lookup "dagml").any Json.isObj || (doc.lookup "dag").any Json.isObj ||
      match ((doc.lookup "pipeline").filter Json.truthy).or
          ((doc.lookup "steps").filter Json.truthy) with
      | some (.arr steps) => steps.any fun
        | .obj step => (step.lookup "after").isSome || (step.lookup "deps").isSome
        | _ => false
      | _ => false
  | _, _ => false

def JobRequest.inferredSchedulerContract (req : JobRequest) : DagSchedulerContract :=
  if req.pipelineList.any pipelineRefLooksDag then { shape := .dagShapedWholeRun }
  else if 1 < req.pipelineList.length * req.datasetList.length then
    { shape := .pipelineDatasetMatrix }
  else { shape := .atomic }

structure WorkerRegister where
  labels : List (String × String) := []
  capabilities : Dict := []
  slotsTotal : Nat := 1
  version : Dict := []
  name : Option String := none
  atLeastOneSlot : 1 ≤ slotsTotal := by exact Nat.one_pos

structure TaskAssignmentMetadata where
  executorPrincipal : Option String := none
  workerId : Option WorkerId := none
  requiredRights : List String := ["execute"]
  grantedRights : List String := []

/-- Everything a worker needs to execute a task. -/
structure TaskPayload where
  taskId : TaskId
  jobId : JobId
  type : String
  attempt : Nat
  pipeline : PipelineRef
  dataset : DatasetRef
  params : Dict
  outputs : Outputs
  scheduler : Option DagSchedulerContract
  submission : Option JobSubmissionMetadata
  assignment : Option TaskAssignmentMetadata
  nativePayload : Option NativeExperimentLaunchPayload
  leaseExpiresAt : Time

structure TaskEvent where
  level : EventLevel := .info
  type : String := "log"
  message : String := ""

structure RunMetrics where
  bestScore : Option PyFloat := none
  bestRmse : Option PyFloat := none
  bestR2 : Option PyFloat := none
  bestMae : Option PyFloat := none
  bestAccuracy : Option PyFloat := none
deriving DecidableEq

/-- The value `getattr(result.metrics, rank_metric, None)` finds: nothing, a
metric, or an attribute of the metrics object that is no metric. -/
inductive MetricValue where
  | none
  | number (value : PyFloat)
  | attribute (name : String) (of : RunMetrics)

/-- One entry of the ranking, with its value under the job's metric. A metric
named like a column takes that column's place. -/
structure RankingEntry where
  taskId : Option TaskId
  dataset : Option String
  pipeline : Option String
  value : MetricValue
  metrics : RunMetrics

structure JobAggregate where
  numTasks : Nat := 0
  numSucceeded : Nat := 0
  numFailed : Nat := 0
  numRunning : Nat := 0
  numQueued : Nat := 0
  bestMetric : MetricValue := .none
  bestTaskId : Option TaskId := none
  bestModelArtifactId : Option ArtifactId := none
  ranking : List RankingEntry := []
  errors : List (TaskId × String) := []

structure ResultProvenance where
  reportedByPrincipal : Option String := none
  workerId : Option WorkerId := none
  jobId : Option JobId := none
  taskId : Option TaskId := none
  attempt : Option Nat := none
  requiredRights : List String := ["execute"]
  grantedRights : List String := []

structure TaskResult where
  nirs4allVersion : Option String := none
  pipelineFingerprint : Option String := none
  durationSeconds : PyFloat := .fin 0
  metrics : RunMetrics := {}
  counts : List (String × Int) := []
  artifacts : List (String × Option ArtifactId) := []
  provenance : ResultProvenance := {}
  extra : Dict := []

structure TaskFailure where
  error : String
  traceback : Option String := none
  retriable : Bool := true

end N4Cluster
