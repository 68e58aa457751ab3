import Mathlib.Data.Nat.Basic
import Mathlib.Order.MinMax
import N4Cluster.Wire.Models

/-! How deep the document of a request is nested, by the free-form JSON in it: the
parser that reads the stored request back gives up below a certain depth. -/
namespace N4Cluster
open Wire JsonCodec Model

def PipelineRef.depth (ref : PipelineRef) : Nat := ref.inline.elim 0 Json.depth + 1

def NativeRobustnessEvidencePublicationHandoff.depth
    (handoff : NativeRobustnessEvidencePublicationHandoff) : Nat :=
  max 1 (Json.fieldsDepth handoff.extra) + 1

def NativeExperimentLaunchPayloadManifest.depth (manifest : NativeExperimentLaunchPayloadManifest) : Nat :=
  max (manifest.robustnessEvidencePublicationHandoff.elim 0 fun handoff => handoff.depth)
    (Json.fieldsDepth manifest.extra) + 1

def NativeExperimentLaunchPayload.depth (payload : NativeExperimentLaunchPayload) : Nat :=
  max (payload.legacyConfig.elim 0 fun config => Json.fieldsDepth config + 1) (max payload.manifest.depth
    (max (payload.strictCampaignSpecs.elim 0 fun specs => Json.fieldsDepth specs + 1)
      (Json.fieldsDepth payload.extra))) + 1

/-- The greatest of some depths. -/
def deepest (depths : List Nat) : Nat := depths.foldr max 0

/-- How many arrays and objects of the request lie in one another: at least three, those of its
requirements. -/
def JobRequest.depth (req : JobRequest) : Nat :=
  max 2 (max (req.pipeline.elim 0 fun ref => ref.depth)
    (max (req.pipelines.elim 0 fun refs => deepest (refs.map fun ref => ref.depth) + 1)
      (max (Json.fieldsDepth req.params + 1) (req.nativePayload.elim 0 fun payload => payload.depth)))) + 1

theorem Json.allDepth_eq (items : List Json) : Json.allDepth items = deepest (items.map Json.depth) := by
  induction items with
  | nil => rfl
  | cons doc rest ih =>
    rw [Json.allDepth, ih]
    rfl

theorem Json.fieldsDepth_eq (fields : Dict) :
    Json.fieldsDepth fields = deepest (fields.map fun entry => entry.2.depth) := by
  induction fields with
  | nil => rfl
  | cons entry rest ih =>
    rw [Json.fieldsDepth, ih]
    rfl

theorem deepest_append (first second : List Nat) :
    deepest (first ++ second) = max (deepest first) (deepest second) := by
  induction first with
  | nil => exact (Nat.zero_max _).symm
  | cons depth rest ih => exact (congrArg (max depth) ih).trans (Nat.max_assoc ..).symm

theorem deepest_replicate (n depth : Nat) : deepest (List.replicate n depth) ≤ depth := by
  induction n with
  | zero => exact Nat.zero_le _
  | succ n ih => exact Nat.max_le.mpr ⟨Nat.le_refl _, ih⟩

@[simp] theorem deepest_zeros (n : Nat) : deepest (List.replicate n 0) = 0 :=
  Nat.le_zero.mp (deepest_replicate n 0)

namespace JsonCodec
variable {α β : Type}

@[simp] theorem refine_depth (c : JsonCodec α) {pack : α → Except PyErr β} {unpack : β → α}
    (packs : ∀ value, pack (unpack value) = .ok value)
    (unpacks : ∀ raw value, pack raw = .ok value → unpack value = raw) (value : β) :
    ((c.refine pack unpack packs unpacks).dump value).depth = (c.dump (unpack value)).depth := rfl

@[simp] theorem string_depth (value : String) : (string.dump value).depth = 0 := rfl

@[simp] theorem bool_depth (value : Bool) : (JsonCodec.bool.dump value).depth = 0 := rfl

@[simp] theorem int_depth (value : Int) : (int.dump value).depth = 0 := rfl

@[simp] theorem float_depth (value : PyFloat) : (float.dump value).depth = 0 := rfl

@[simp] theorem dict_depth (value : Dict) : (dict.dump value).depth = Json.fieldsDepth value + 1 := rfl

@[simp] theorem literal_depth (all : List α) (text : α → String)
    (listed : ∀ value, all.find? (fun other => text other = text value) = some value) (value : α) :
    ((literal all text listed).dump value).depth = 0 := rfl

@[simp] theorem given_depth (value : Given) : (given.dump value).depth = value.val.elim 0 Json.depth := by
  obtain ⟨_ | doc, _⟩ := value <;> rfl

@[simp] theorem nullable_depth (c : JsonCodec α) (solid : ∀ value, (c.dump value).isNull = false)
    (value : Option α) :
    ((nullable c solid).dump value).depth = value.elim 0 fun value => (c.dump value).depth := by
  cases value <;> rfl

@[simp] theorem list_depth (c : JsonCodec α) (values : List α) :
    ((list c).dump values).depth = deepest (values.map fun value => (c.dump value).depth) + 1 := by
  change Json.allDepth (values.map c.dump) + 1 = _
  rw [Json.allDepth_eq, List.map_map]
  rfl

@[simp] theorem dictOf_depth (c : JsonCodec α) (values : List (String × α)) :
    ((dictOf c).dump values).depth = deepest (values.map fun entry => (c.dump entry.2).depth) + 1 := by
  change Json.fieldsDepth (values.map fun entry => (entry.1, c.dump entry.2)) + 1 = _
  rw [Json.fieldsDepth_eq, List.map_map]
  rfl

end JsonCodec

namespace Model
variable {α β : Type}

@[simp] theorem codec_depth (fields : Model α) (value : α) :
    (fields.codec.dump value).depth = Json.fieldsDepth (fields.dump value) + 1 := rfl

theorem fieldsDepth_append (first second : Dict) :
    Json.fieldsDepth (first ++ second) = max (Json.fieldsDepth first) (Json.fieldsDepth second) := by
  rw [Json.fieldsDepth_eq, List.map_append, deepest_append, ← Json.fieldsDepth_eq, ← Json.fieldsDepth_eq]

@[simp] theorem openCodec_depth (fields : Model α) (value : α × fields.Extra) :
    (fields.openCodec.dump value).depth =
      max (Json.fieldsDepth (fields.dump value.1)) (Json.fieldsDepth value.2.val) + 1 :=
  congrArg (· + 1) (fieldsDepth_append _ _)

@[simp] theorem pair_depth (f : Model α) (g : Model β) (distinct : ∀ name ∈ f.known, name ∉ g.known)
    (value : α × β) : Json.fieldsDepth ((f.pair g distinct).dump value) =
      max (Json.fieldsDepth (f.dump value.1)) (Json.fieldsDepth (g.dump value.2)) :=
  fieldsDepth_append _ _

@[simp] theorem required_depth (name : String) (c : JsonCodec α) (value : α) :
    Json.fieldsDepth ((required name c).dump value) = (c.dump value).depth :=
  Nat.max_zero _

@[simp] theorem optional_depth (name : String) (c : JsonCodec α) (default : α)
    (plain : (c.dump default).finite = true) (value : α) :
    Json.fieldsDepth ((optional name c default plain).dump value) = (c.dump value).depth :=
  Nat.max_zero _

@[simp] theorem aliased_depth (name also : String) (c : JsonCodec α) (missing : Except PyErr α)
    (other : also ≠ name) (plain : ∀ value, missing = .ok value → (c.dump value).finite = true)
    (value : α) : Json.fieldsDepth ((aliased name also c missing other plain).dump value) =
      (c.dump value).depth :=
  Nat.max_zero _

end Model

/-! ## The models -/

@[simp] theorem maybeText_depth (value : Option String) : (maybeText.dump value).depth = 0 := by
  cases value <;> rfl

@[simp] theorem texts_depth (values : List String) : (texts.dump values).depth = 1 := by
  simp [texts]

@[simp] theorem textDict_depth (values : List (String × String)) : (textDict.dump values).depth = 1 := by
  simp [textDict]

@[simp] theorem pipelineRef_depth (ref : PipelineRef) : (pipelineRef.dump ref).depth = ref.depth := by
  simp [pipelineRef, pipelineFields, pipelineKind, PipelineRef.depth]

@[simp] theorem datasetRef_depth (ref : DatasetRef) : (datasetRef.dump ref).depth = 1 := by
  simp [datasetRef, datasetFields, datasetKind]

@[simp] theorem requirementsModel_depth (reqs : Requirements) : (requirementsModel.dump reqs).depth = 2 := by
  cases memory : reqs.minMemoryGb <;> cases gpus : reqs.minGpuCount <;>
    simp [requirementsModel, requirementsFields, memory, gpus]

@[simp] theorem outputsModel_depth (value : Outputs) : (outputsModel.dump value).depth = 1 := by
  simp [outputsModel, outputsFields]

@[simp] theorem retryPolicy_depth (retry : RetryPolicy) : (retryPolicy.dump retry).depth = 1 := by
  simp [retryPolicy]

@[simp] theorem parityContract_depth (parity : DistributedRunParity) : (parityContract.dump parity).depth = 2 := by
  simp [parityContract, parityFields, parityScope, only]

@[simp] theorem schedulerContract_depth (scheduler : DagSchedulerContract) :
    (schedulerContract.dump scheduler).depth = 2 := by
  simp [schedulerContract, schedulerFields, schedulerShape, only]

@[simp] theorem submissionMetadata_depth (submission : JobSubmissionMetadata) :
    (submissionMetadata.dump submission).depth = 2 := by
  simp [submissionMetadata, submissionFields, only]

@[simp] theorem publicationHandoff_depth (handoff : NativeRobustnessEvidencePublicationHandoff) :
    (publicationHandoff.dump handoff).depth = handoff.depth := by
  rw [publicationHandoff, refine_depth, openCodec_depth]
  simp [handoffFields, alignmentStrategy, only, NativeRobustnessEvidencePublicationHandoff.depth]

@[simp] theorem launchManifest_depth (manifest : NativeExperimentLaunchPayloadManifest) :
    (launchManifest.dump manifest).depth = manifest.depth := by
  rw [launchManifest, refine_depth, openCodec_depth]
  simp [manifestFields, NativeExperimentLaunchPayloadManifest.depth]

@[simp] theorem launchPayload_depth (payload : NativeExperimentLaunchPayload) :
    (launchPayload.dump payload).depth = payload.depth := by
  rw [launchPayload, refine_depth, openCodec_depth]
  simp [nativePayloadFields, NativeExperimentLaunchPayload.depth, Nat.max_assoc]

theorem elim_const_le {α : Type} (value : Option α) (depth : Nat) : value.elim 0 (fun _ => depth) ≤ depth := by
  cases value with
  | none => exact Nat.zero_le _
  | some => exact Nat.le_refl _

/-- The parts of fixed shape are no deeper than the requirements. -/
theorem jobRequest_depth (req : JobRequest) : (jobRequest.dump req).depth = req.depth := by
  have dataset := Nat.le_succ_of_le (elim_const_le req.dataset 1)
  have datasets : (req.datasets.elim 0 fun refs => deepest (refs.map fun _ => 1) + 1) ≤ 2 := by
    cases req.datasets with
    | none => exact Nat.zero_le _
    | some refs =>
      rw [Option.elim_some, List.map_const']
      exact Nat.succ_le_succ (deepest_replicate _ 1)
  have parity := elim_const_le req.parity 2
  have scheduler := elim_const_le req.scheduler 2
  have submission := elim_const_le req.submission 2
  simp only [jobRequest, requestFields, rankMode, only, refine_depth, codec_depth, pair_depth, optional_depth,
    aliased_depth, literal_depth, maybeText_depth, int_depth, string_depth, nullable_depth, list_depth,
    pipelineRef_depth, datasetRef_depth, dict_depth, requirementsModel_depth, outputsModel_depth,
    retryPolicy_depth, parityContract_depth, schedulerContract_depth, submissionMetadata_depth,
    launchPayload_depth, JobRequest.depth, Nat.zero_max, Nat.max_zero]
  refine congrArg (· + 1) (Nat.le_antisymm ?_ ?_) <;> simp only [Nat.max_le]
  · simp only [le_max_iff, le_refl, dataset, datasets, parity, scheduler, submission, Nat.le_succ 1, true_or,
      or_true, and_self]
  · simp only [le_max_iff, le_refl, true_or, or_true, and_self]

/-- The stored text of a request says what the request says exactly if every float in it is
finite and it is not nested too deep for the parser. -/
theorem JobRequest.reload_iff (nesting : Nat) (req : JobRequest) :
    req.reload nesting = .ok req ↔ req.finite = true ∧ req.depth ≤ nesting := by
  rw [← jobRequest_finite, ← jobRequest_depth, ← Json.stored_depth]
  unfold JobRequest.reload
  dsimp only
  split
  · rename_i shallow
    exact (jobRequest.reload_iff req).trans (and_iff_left shallow).symm
  · rename_i deep
    exact iff_of_false nofun fun both => deep both.2

end N4Cluster
