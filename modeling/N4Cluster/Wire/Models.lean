import N4Cluster.Wire.Values

/-! The models of the network contract as JSON, field by field, and the request as
the store keeps it. A literal of one text is written and checked, and has no field in
its structure. -/
namespace N4Cluster
open Wire

namespace Model
variable {α : Type}

/-- A field without a default. -/
def required (name : String) (c : JsonCodec α) : Model α :=
  .field name none c (invalid "missing") nofun nofun

def optional (name : String) (c : JsonCodec α) (default : α)
    (plain : (c.dump default).finite = true := by decide) : Model α :=
  .field name none c (.ok default) nofun fun value same => by cases same; exact plain

/-- A field with an alias. -/
def aliased (name also : String) (c : JsonCodec α) (missing : Except PyErr α)
    (other : also ≠ name := by decide)
    (plain : ∀ value, missing = .ok value → (c.dump value).finite = true := by
      intro value same; cases same; rfl) : Model α :=
  .field name (some also) c missing (fun _ same => Option.some.inj same ▸ other) plain

def codec (fields : Model α) : JsonCodec α := fields.object (.validationError "model_type")

/-- `extra="allow"` with `_reject_alias_shadow`. -/
def openCodec (fields : Model α) : JsonCodec (α × fields.Extra) :=
  fields.openObject (.validationError "model_type") (.validationError "value_error")

end Model

open JsonCodec Model

/-- A validator that passed. -/
theorem checked {α : Type} {c : Prop} [Decidable c] {f : c → α} {type : String} {value : α}
    (passed : (if holds : c then .ok (f holds) else invalid type) = Except.ok value) :
    ∃ holds, f holds = value := by
  split at passed
  · exact ⟨_, Except.ok.inj passed⟩
  · contradiction

def maybeText : JsonCodec (Option String) := nullable string

def texts : JsonCodec (List String) := list string

def textDict : JsonCodec (List (String × String)) := dictOf string

def pipelineKind : JsonCodec PipelineKind :=
  literal [.path, .artifact, .inlineJson, .pythonEntrypoint] PipelineKind.value fun kind => by
    cases kind <;> rfl

def pipelineFields : Model (PipelineKind × Option String × Option String × Given × Option String ×
    Option String × Option String) :=
  (required "kind" pipelineKind).pair <| (optional "path" maybeText none).pair <|
  (optional "artifact_id" maybeText none).pair <| (optional "inline" given ⟨none, rfl⟩).pair <|
  (optional "bundle_artifact_id" maybeText none).pair <| (optional "entrypoint" maybeText none).pair <|
  optional "expected_fingerprint" maybeText none

def pipelineRef : JsonCodec PipelineRef :=
  pipelineFields.codec.refine
    (fun (kind, path, artifactId, inline, bundle, entrypoint, fingerprint) =>
      if fields : (match kind with
          | .path => path.isSome
          | .artifact => artifactId.isSome
          | .inlineJson => inline.val.isSome
          | .pythonEntrypoint => entrypoint.isSome) = true then
        .ok ⟨kind, path, artifactId, inline.val, bundle, entrypoint, fingerprint, fields, inline.property⟩
      else invalid "value_error")
    (fun ref => (ref.kind, ref.path, ref.artifactId, ⟨ref.inline, ref.inlineGiven⟩,
      ref.bundleArtifactId, ref.entrypoint, ref.expectedFingerprint))
    (fun ref => dif_pos ref.kindFields)
    fun raw ref packed => by
      obtain ⟨_, rfl⟩ := checked packed
      rfl

def datasetKind : JsonCodec DatasetKind :=
  literal [.sharedPath, .artifact, .catalog, .workerLocal] DatasetKind.value fun kind => by
    cases kind <;> rfl

def datasetFields : Model (DatasetKind × Option String × Option String × Option String ×
    Option String) :=
  (required "kind" datasetKind).pair <| (optional "path" maybeText none).pair <|
  (optional "artifact_id" maybeText none).pair <| (optional "catalog_id" maybeText none).pair <|
  optional "name" maybeText none

def datasetRef : JsonCodec DatasetRef :=
  datasetFields.codec.refine
    (fun (kind, path, artifactId, catalogId, name) =>
      if fields : (match kind with
          | .sharedPath => path.isSome
          | .artifact => artifactId.isSome
          | .catalog => catalogId.isSome
          | .workerLocal => path.isSome) = true then
        .ok ⟨kind, path, artifactId, catalogId, name, fields⟩
      else invalid "value_error")
    (fun ref => (ref.kind, ref.path, ref.artifactId, ref.catalogId, ref.name))
    (fun ref => dif_pos ref.kindFields)
    fun raw ref packed => by
      obtain ⟨_, rfl⟩ := checked packed
      rfl

def requirementsFields : Model (List (String × String) × Option PyFloat × Option Int ×
    List (String × String)) :=
  (optional "labels" textDict []).pair <| (optional "min_memory_gb" (nullable float) none).pair <|
  (optional "min_gpu_count" (nullable int) none).pair <| optional "packages" textDict []

/-- `_validate_specifiers` looks at `packages` alone, which read back as they were. -/
def requirementsModel : JsonCodec Requirements :=
  requirementsFields.codec.refine
    (fun (labels, memory, gpus, packages) => .ok ⟨labels, memory, gpus, packages⟩)
    (fun reqs => (reqs.labels, reqs.minMemoryGb, reqs.minGpuCount, reqs.packages))
    (fun _ => rfl) fun _ _ packed => by cases packed; rfl

def outputsFields : Model (Bool × Bool) :=
  (optional "export_best_model" JsonCodec.bool true).pair <|
  optional "keep_task_workspace" JsonCodec.bool false

def outputsModel : JsonCodec Outputs :=
  outputsFields.codec.refine (fun (exports, keeps) => .ok ⟨exports, keeps⟩)
    (fun given => (given.exportBestModel, given.keepTaskWorkspace))
    (fun _ => rfl) fun _ _ packed => by cases packed; rfl

def retryPolicy : JsonCodec RetryPolicy :=
  (optional "max_attempts" int 2).codec.refine
    (fun attempts =>
      if bounds : 1 ≤ attempts ∧ attempts ≤ 10 then
        .ok ⟨attempts.toNat, by omega, by omega⟩
      else invalid "greater_than_equal")
    (fun retry => retry.maxAttempts)
    (fun retry => by
      have least := retry.atLeastOne
      have most := retry.atMostTen
      exact dif_pos ⟨by omega, by omega⟩)
    fun raw retry packed => by
      obtain ⟨bounds, rfl⟩ := checked packed
      exact Int.toNat_of_nonneg (by omega)

def parityScope : JsonCodec ParityScope :=
  literal [.atomic, .pipelineDatasetMatrix]
    (fun | .atomic => "atomic" | .pipelineDatasetMatrix => "pipeline_dataset_matrix")
    fun scope => by cases scope <;> rfl

def parityFields : Model (Unit × ParityScope × Unit × Unit × PyFloat × List String × List String ×
    List (String × String) × List String × List String) :=
  (optional "local_entrypoint" (only "nirs4all.run") ()).pair <| (required "scope" parityScope).pair <|
  (optional "task_granularity" (only "whole_nirs4all_run") ()).pair <|
  (optional "workspace_policy" (only "isolated_task_workspace") ()).pair <|
  (optional "metric_tolerance_abs" float (.fin (1 / 1000000))).pair <|
  (optional "expected_metric_keys" texts
    ["best_score", "best_rmse", "best_r2", "best_mae", "best_accuracy"]).pair <|
  (optional "preserved_params" texts []).pair <| (optional "translated_params" textDict []).pair <|
  (optional "omitted_local_kwargs" texts []).pair <| optional "deferred" texts []

def parityContract : JsonCodec DistributedRunParity :=
  parityFields.codec.refine
    (fun (_, scope, _, _, tolerance, keys, preserved, translated, omitted, deferred) =>
      if bound : tolerance.lt (.fin 0) = false then
        .ok ⟨scope, tolerance, keys, preserved, translated, omitted, deferred, bound⟩
      else invalid "greater_than_equal")
    (fun parity => ((), parity.scope, (), (), parity.metricToleranceAbs, parity.expectedMetricKeys,
      parity.preservedParams, parity.translatedParams, parity.omittedLocalKwargs, parity.deferred))
    (fun parity => dif_pos parity.toleranceBound)
    fun raw parity packed => by
      obtain ⟨_, rfl⟩ := checked packed
      rfl

def schedulerShape : JsonCodec SchedulerShape :=
  literal [.atomic, .pipelineDatasetMatrix, .dagShapedWholeRun]
    (fun
      | .atomic => "atomic"
      | .pipelineDatasetMatrix => "pipeline_dataset_matrix"
      | .dagShapedWholeRun => "dag_shaped_whole_run")
    fun shape => by cases shape <;> rfl

def schedulerFields : Model (SchedulerShape × Unit × Unit × Unit × List String × List String) :=
  (optional "shape" schedulerShape .atomic).pair <|
  (optional "task_granularity" (only "whole_nirs4all_run") ()).pair <|
  (optional "assignment_mode" (only "server_leased_executor") ()).pair <|
  (optional "result_provenance" (only "server_attested_worker_report") ()).pair <|
  (optional "submit_rights_required" texts ["submit"]).pair <|
  optional "execute_rights_required" texts ["execute"]

def schedulerContract : JsonCodec DagSchedulerContract :=
  schedulerFields.codec.refine
    (fun (shape, _, _, _, submits, executes) => .ok ⟨shape, submits, executes⟩)
    (fun scheduler => (scheduler.shape, (), (), (), scheduler.submitRightsRequired,
      scheduler.executeRightsRequired))
    (fun _ => rfl) fun _ _ packed => by cases packed; rfl

def submissionFields : Model (Unit × Option String × List String × List String) :=
  (optional "mode" (only "client_submitted") ()).pair <| (optional "principal" maybeText none).pair <|
  (optional "required_rights" texts ["submit"]).pair <| optional "granted_rights" texts []

def submissionMetadata : JsonCodec JobSubmissionMetadata :=
  submissionFields.codec.refine
    (fun (_, principal, required, granted) => .ok ⟨principal, required, granted⟩)
    (fun submission => ((), submission.principal, submission.requiredRights, submission.grantedRights))
    (fun _ => rfl) fun _ _ packed => by cases packed; rfl

/-! ## Native payload -/

def alignmentStrategy : JsonCodec AlignmentStrategy :=
  literal [.sampleIndices, .fullDatasetLength, .uniqueMetadataIdentity, .relationManifestIdentity]
    (fun
      | .sampleIndices => "sample_indices"
      | .fullDatasetLength => "full_dataset_length"
      | .uniqueMetadataIdentity => "unique_metadata_identity"
      | .relationManifestIdentity => "relation_manifest_identity")
    fun strategy => by cases strategy <;> rfl

def handoffFields : Model (Unit × Bool × String × Bool × List AlignmentStrategy × List String) :=
  (required "kind" (only "robustness_evidence_publication_handoff")).pair <|
  (required "requested" JsonCodec.bool).pair <| (required "destination" string).pair <|
  (aliased "fail_closed" "failClosed" JsonCodec.bool (invalid "missing") (by decide) nofun).pair <|
  (aliased "alignment_strategies" "alignmentStrategies" (list alignmentStrategy) (invalid "missing")
    (by decide) nofun).pair <|
  aliased "published_fields" "publishedFields" texts (invalid "missing") (by decide) nofun

def publicationHandoff : JsonCodec NativeRobustnessEvidencePublicationHandoff :=
  handoffFields.openCodec.refine
    (fun ((_, requested, destination, failClosed, strategies, published), extra) =>
      .ok ⟨requested, destination, failClosed, strategies, published, extra.val, extra.property⟩)
    (fun handoff => (((), handoff.requested, handoff.destination, handoff.failClosed,
      handoff.alignmentStrategies, handoff.publishedFields), ⟨handoff.extra, handoff.extraKeys⟩))
    (fun _ => rfl) fun _ _ packed => by cases packed; rfl

def manifestFields : Model (Option String × Option NativeRobustnessEvidencePublicationHandoff) :=
  (optional "version" maybeText none).pair <|
  aliased "robustness_evidence_publication_handoff" "robustnessEvidencePublicationHandoff"
    (nullable publicationHandoff) (.ok none)

def launchManifest : JsonCodec NativeExperimentLaunchPayloadManifest :=
  manifestFields.openCodec.refine
    (fun ((version, handoff), extra) => .ok ⟨version, handoff, extra.val, extra.property⟩)
    (fun manifest => ((manifest.version, manifest.robustnessEvidencePublicationHandoff),
      ⟨manifest.extra, manifest.extraKeys⟩))
    (fun _ => rfl) fun _ _ packed => by cases packed; rfl

def nativePayloadFields : Model (Option Dict × NativeExperimentLaunchPayloadManifest × Option Dict) :=
  (aliased "legacy_config" "legacyConfig" (nullable dict) (.ok none)).pair <|
  (optional "manifest" launchManifest {}).pair <|
  aliased "strict_campaign_specs" "strictCampaignSpecs" (nullable dict) (.ok none)

def launchPayload : JsonCodec NativeExperimentLaunchPayload :=
  nativePayloadFields.openCodec.refine
    (fun ((legacy, manifest, strict), extra) =>
      .ok ⟨legacy, manifest, strict, extra.val, extra.property⟩)
    (fun payload => ((payload.legacyConfig, payload.manifest, payload.strictCampaignSpecs),
      ⟨payload.extra, payload.extraKeys⟩))
    (fun _ => rfl) fun _ _ packed => by cases packed; rfl

/-! ## The request -/

theorem schedulerContract_solid (value) : (schedulerContract.dump value).isNull = false := rfl

theorem submissionMetadata_solid (value) : (submissionMetadata.dump value).isNull = false := rfl

theorem launchPayload_solid (value) : (launchPayload.dump value).isNull = false := rfl

def rankMode : JsonCodec RankMode :=
  literal [.min, .max] (fun | .min => "min" | .max => "max") fun mode => by cases mode <;> rfl

def requestFields : Model (Unit × Option String × Int × Option PipelineRef × Option (List PipelineRef) ×
    Option DatasetRef × Option (List DatasetRef) × Dict × Requirements × Outputs × RetryPolicy × String ×
    RankMode × Option DistributedRunParity × Option DagSchedulerContract × Option JobSubmissionMetadata ×
    Option NativeExperimentLaunchPayload × Option String) :=
  (optional "type" (only jobType) ()).pair <| (optional "name" maybeText none).pair <|
  (optional "priority" int 0).pair <|
  (optional "pipeline" (nullable pipelineRef) none).pair <|
  (optional "pipelines" (nullable (list pipelineRef)) none).pair <|
  (optional "dataset" (nullable datasetRef) none).pair <|
  (optional "datasets" (nullable (list datasetRef)) none).pair <|
  (optional "params" dict []).pair <| (optional "requirements" requirementsModel {}).pair <|
  (optional "outputs" outputsModel {}).pair <| (optional "retry" retryPolicy default).pair <|
  (optional "rank_metric" string "best_rmse").pair <| (optional "rank_mode" rankMode .min).pair <|
  (optional "parity" (nullable parityContract) none).pair <|
  (optional "scheduler" (nullable schedulerContract schedulerContract_solid) none).pair <|
  (optional "submission" (nullable submissionMetadata submissionMetadata_solid) none).pair <|
  (aliased "native_payload" "nativePayload" (nullable launchPayload launchPayload_solid) (.ok none)).pair <|
  optional "idempotency_key" maybeText none

/-- `_check_one_of`. -/
def jobRequest : JsonCodec JobRequest :=
  requestFields.codec.refine
    (fun (_, name, priority, pipeline, pipelines, dataset, datasets, params, requirements, outputs,
        retry, rankMetric, rankMode, parity, scheduler, submission, nativePayload, idempotencyKey) =>
      if one : (pipeline.isNone == pipelines.isNone) = false ∧ (dataset.isNone == datasets.isNone) = false ∧
          pipelines.all (fun l => !l.isEmpty) = true ∧ datasets.all (fun l => !l.isEmpty) = true then
        .ok ⟨name, priority, pipeline, pipelines, dataset, datasets, params, requirements, outputs, retry,
          rankMetric, rankMode, parity, scheduler, submission, nativePayload, idempotencyKey,
          one.1, one.2.1, one.2.2.1, one.2.2.2⟩
      else invalid "value_error")
    (fun req => ((), req.name, req.priority, req.pipeline, req.pipelines, req.dataset, req.datasets,
      req.params, req.requirements, req.outputs, req.retry, req.rankMetric, req.rankMode, req.parity,
      req.scheduler, req.submission, req.nativePayload, req.idempotencyKey))
    (fun req => dif_pos ⟨req.onePipeline, req.oneDataset, req.somePipelines, req.someDatasets⟩)
    fun raw req packed => by
      obtain ⟨_, rfl⟩ := checked packed
      rfl

/-- `JobRequest.model_validate_json` of `model_dump_json`. The parser takes no more than
`nesting` arrays and objects in one another. -/
def JobRequest.reload (nesting : Nat) (req : JobRequest) : Except PyErr JobRequest :=
  let doc := (jobRequest.dump req).stored
  if doc.depth ≤ nesting then jobRequest.validate doc else invalid "json_invalid"

/-! ## Which requests survive -/

def PipelineRef.finite (ref : PipelineRef) : Bool := ref.inline.all Json.finite

def NativeExperimentLaunchPayloadManifest.finite (manifest : NativeExperimentLaunchPayloadManifest) :
    Bool :=
  manifest.robustnessEvidencePublicationHandoff.all (fun handoff => Json.fieldsFinite handoff.extra) &&
    Json.fieldsFinite manifest.extra

def NativeExperimentLaunchPayload.finite (payload : NativeExperimentLaunchPayload) : Bool :=
  payload.legacyConfig.all Json.fieldsFinite && payload.manifest.finite &&
    payload.strictCampaignSpecs.all Json.fieldsFinite && Json.fieldsFinite payload.extra

/-- No float the client sent is `nan` or infinite. -/
def JobRequest.finite (req : JobRequest) : Bool :=
  req.pipeline.all PipelineRef.finite && req.pipelines.all (fun refs => refs.all PipelineRef.finite) &&
    Json.fieldsFinite req.params && req.requirements.minMemoryGb.all PyFloat.isFinite &&
    req.parity.all (fun parity => parity.metricToleranceAbs.isFinite) &&
    req.nativePayload.all NativeExperimentLaunchPayload.finite

theorem Json.fieldsFinite_append (first second : Dict) :
    Json.fieldsFinite (first ++ second) = (Json.fieldsFinite first && Json.fieldsFinite second) := by
  induction first with
  | nil => rfl
  | cons entry rest ih => rw [List.cons_append, fieldsFinite, fieldsFinite, ih, Bool.and_assoc]

namespace JsonCodec
variable {α β : Type}

@[simp] theorem refine_finite (c : JsonCodec α) {pack : α → Except PyErr β} {unpack : β → α}
    (packs : ∀ value, pack (unpack value) = .ok value)
    (unpacks : ∀ raw value, pack raw = .ok value → unpack value = raw) (value : β) :
    ((c.refine pack unpack packs unpacks).dump value).finite = (c.dump (unpack value)).finite := rfl

@[simp] theorem string_finite (value : String) : (string.dump value).finite = true := rfl

@[simp] theorem bool_finite (value : Bool) : (JsonCodec.bool.dump value).finite = true := rfl

@[simp] theorem int_finite (value : Int) : (int.dump value).finite = true := rfl

@[simp] theorem float_finite (value : PyFloat) : (float.dump value).finite = value.isFinite := rfl

@[simp] theorem dict_finite (value : Dict) : (dict.dump value).finite = Json.fieldsFinite value := rfl

@[simp] theorem literal_finite (all : List α) (text : α → String)
    (listed : ∀ value, all.find? (fun other => text other = text value) = some value) (value : α) :
    ((literal all text listed).dump value).finite = true := rfl

@[simp] theorem given_finite (value : Given) :
    (given.dump value).finite = value.val.all Json.finite := by
  obtain ⟨_ | doc, _⟩ := value <;> rfl

@[simp] theorem nullable_finite (c : JsonCodec α) (solid : ∀ value, (c.dump value).isNull = false)
    (value : Option α) :
    ((nullable c solid).dump value).finite = value.all fun value => (c.dump value).finite := by
  cases value <;> rfl

@[simp] theorem list_finite (c : JsonCodec α) (values : List α) :
    ((list c).dump values).finite = values.all fun value => (c.dump value).finite := by
  change Json.allFinite (values.map c.dump) = _
  induction values with
  | nil => rfl
  | cons value rest ih => rw [List.map_cons, Json.allFinite, ih, List.all_cons]

@[simp] theorem dictOf_finite (c : JsonCodec α) (values : List (String × α)) :
    ((dictOf c).dump values).finite = values.all fun entry => (c.dump entry.2).finite := by
  change Json.fieldsFinite (values.map fun entry => (entry.1, c.dump entry.2)) = _
  induction values with
  | nil => rfl
  | cons value rest ih => rw [List.map_cons, Json.fieldsFinite, ih, List.all_cons]

end JsonCodec

namespace Model
variable {α β : Type}

@[simp] theorem codec_finite (fields : Model α) (value : α) :
    (fields.codec.dump value).finite = Json.fieldsFinite (fields.dump value) := rfl

@[simp] theorem openCodec_finite (fields : Model α) (value : α × fields.Extra) :
    (fields.openCodec.dump value).finite =
      (Json.fieldsFinite (fields.dump value.1) && Json.fieldsFinite value.2.val) :=
  Json.fieldsFinite_append _ _

@[simp] theorem pair_finite (f : Model α) (g : Model β) (distinct : ∀ name ∈ f.known, name ∉ g.known)
    (value : α × β) : Json.fieldsFinite ((f.pair g distinct).dump value) =
      (Json.fieldsFinite (f.dump value.1) && Json.fieldsFinite (g.dump value.2)) :=
  Json.fieldsFinite_append _ _

@[simp] theorem required_finite (name : String) (c : JsonCodec α) (value : α) :
    Json.fieldsFinite ((required name c).dump value) = (c.dump value).finite :=
  Bool.and_true _

@[simp] theorem optional_finite (name : String) (c : JsonCodec α) (default : α)
    (plain : (c.dump default).finite = true) (value : α) :
    Json.fieldsFinite ((optional name c default plain).dump value) = (c.dump value).finite :=
  Bool.and_true _

@[simp] theorem aliased_finite (name also : String) (c : JsonCodec α) (missing : Except PyErr α)
    (other : also ≠ name) (plain : ∀ value, missing = .ok value → (c.dump value).finite = true)
    (value : α) :
    Json.fieldsFinite ((aliased name also c missing other plain).dump value) = (c.dump value).finite :=
  Bool.and_true _

end Model

@[simp] theorem maybeText_finite (value : Option String) : (maybeText.dump value).finite = true := by
  simp [maybeText]

@[simp] theorem texts_finite (values : List String) : (texts.dump values).finite = true := by
  simp [texts]

@[simp] theorem textDict_finite (values : List (String × String)) :
    (textDict.dump values).finite = true := by
  simp [textDict]

@[simp] theorem pipelineRef_finite (ref : PipelineRef) : (pipelineRef.dump ref).finite = ref.finite := by
  simp [pipelineRef, pipelineFields, pipelineKind, PipelineRef.finite]

@[simp] theorem datasetRef_finite (ref : DatasetRef) : (datasetRef.dump ref).finite = true := by
  simp [datasetRef, datasetFields, datasetKind]

@[simp] theorem requirementsModel_finite (reqs : Requirements) :
    (requirementsModel.dump reqs).finite = reqs.minMemoryGb.all PyFloat.isFinite := by
  simp [requirementsModel, requirementsFields]

@[simp] theorem outputsModel_finite (value : Outputs) : (outputsModel.dump value).finite = true := by
  simp [outputsModel, outputsFields]

@[simp] theorem retryPolicy_finite (retry : RetryPolicy) : (retryPolicy.dump retry).finite = true := by
  simp [retryPolicy]

@[simp] theorem parityContract_finite (parity : DistributedRunParity) :
    (parityContract.dump parity).finite = parity.metricToleranceAbs.isFinite := by
  simp [parityContract, parityFields, parityScope, only]

@[simp] theorem schedulerContract_finite (scheduler : DagSchedulerContract) :
    (schedulerContract.dump scheduler).finite = true := by
  simp [schedulerContract, schedulerFields, schedulerShape, only]

@[simp] theorem submissionMetadata_finite (submission : JobSubmissionMetadata) :
    (submissionMetadata.dump submission).finite = true := by
  simp [submissionMetadata, submissionFields, only]

@[simp] theorem publicationHandoff_finite (handoff : NativeRobustnessEvidencePublicationHandoff) :
    (publicationHandoff.dump handoff).finite = Json.fieldsFinite handoff.extra := by
  rw [publicationHandoff, refine_finite, openCodec_finite]
  simp [handoffFields, alignmentStrategy, only]

@[simp] theorem launchManifest_finite (manifest : NativeExperimentLaunchPayloadManifest) :
    (launchManifest.dump manifest).finite = manifest.finite := by
  rw [launchManifest, refine_finite, openCodec_finite]
  simp [manifestFields, NativeExperimentLaunchPayloadManifest.finite]

@[simp] theorem launchPayload_finite (payload : NativeExperimentLaunchPayload) :
    (launchPayload.dump payload).finite = payload.finite := by
  rw [launchPayload, refine_finite, openCodec_finite]
  simp [nativePayloadFields, NativeExperimentLaunchPayload.finite, Bool.and_assoc]

theorem jobRequest_finite (req : JobRequest) : (jobRequest.dump req).finite = req.finite := by
  have datasets : (req.datasets.all fun refs => refs.all fun _ => true) = true := by
    cases req.datasets <;> simp
  simp [jobRequest, requestFields, rankMode, only, JobRequest.finite, Bool.and_assoc, datasets]

end N4Cluster
