import N4Cluster.Wire.Launch

/-! The runner's view of the native payload: the spec the worker builds for a task, and the
handoff the runner takes from it. What materialization returns is the environment's. -/
namespace N4Cluster
open Wire

/-- `build_runner_spec`, after both references are materialized. -/
def buildRunnerSpec (task : TaskPayload) (pipelineSpec datasetSpec : Json) (fingerprint : String) : Dict :=
  [("pipeline", pipelineSpec), ("dataset", datasetSpec), ("params", .obj task.params),
    ("outputs", outputsModel.dump task.outputs), ("pipeline_fingerprint", .str fingerprint)] ++
  match task.nativePayload with
  | some payload => [("native_payload", payload.modelDump true)]
  | none => []

def getMappingValue (mapping : Dict) (keys : List String) : Option Json :=
  keys.findSome? fun key => mapping.lookup key

/-- `_robustness_handoff_from_spec`. -/
def robustnessHandoffFromSpec (spec : Dict) : Except PyErr (Option Dict) :=
  match ((spec.lookup "native_payload").filter Json.truthy).or (spec.lookup "nativePayload") with
  | some (.obj native) => do
    let payload ← launchPayload.validate (.obj native)
    match (payload.modelDump false).dict.bind fun dumped => dumped.lookup "manifest" with
    | some (.obj manifest) =>
      match getMappingValue manifest
        ["robustnessEvidencePublicationHandoff", "robustness_evidence_publication_handoff"] with
      | some (.obj handoff) => return some handoff
      | _ => return none
    | _ => return none
  | _ => return none

theorem manifest_dumped (payload : NativeExperimentLaunchPayload) :
    ((payload.modelDump false).dict.bind fun dumped => dumped.lookup "manifest") =
      some (launchManifest.dump payload.manifest) := rfl

/-- Extension fields do not hide the handoff of a manifest. -/
theorem handoff_dumped (manifest : NativeExperimentLaunchPayloadManifest) :
    ∃ dumped, launchManifest.dump manifest = .obj dumped ∧ getMappingValue dumped
      ["robustnessEvidencePublicationHandoff", "robustness_evidence_publication_handoff"] =
        some ((manifest.robustnessEvidencePublicationHandoff.map publicationHandoff.dump).getD .null) := by
  refine ⟨_, rfl, ?_⟩
  have aliased : manifest.extra.lookup "robustnessEvidencePublicationHandoff" = none :=
    lookup_absent fun entry member same => manifest.extraKeys entry member (same ▸ by decide)
  change List.findSome? (fun key => List.lookup key (("version", _) ::
    ("robustness_evidence_publication_handoff", _) :: manifest.extra)) _ = _
  simp only [List.findSome?_cons, List.lookup_cons, aliased]
  cases manifest.robustnessEvidencePublicationHandoff <;> rfl

/-- The handoff a runner extracts is the one in the payload of the task. -/
theorem handoff_extracted (task : TaskPayload) (pipelineSpec datasetSpec : Json) (fingerprint : String) :
    ∃ handed, robustnessHandoffFromSpec (buildRunnerSpec task pipelineSpec datasetSpec fingerprint) = .ok handed ∧
      handed.map Json.obj = (task.nativePayload.bind fun payload =>
        payload.manifest.robustnessEvidencePublicationHandoff).map publicationHandoff.dump := by
  have spelled : (buildRunnerSpec task pipelineSpec datasetSpec fingerprint).lookup "nativePayload" = none := by
    unfold buildRunnerSpec
    cases task.nativePayload <;> rfl
  have native : (buildRunnerSpec task pipelineSpec datasetSpec fingerprint).lookup "native_payload" =
      task.nativePayload.map fun payload => payload.modelDump true := by
    unfold buildRunnerSpec
    cases task.nativePayload <;> rfl
  unfold robustnessHandoffFromSpec
  rw [native, spelled]
  cases task.nativePayload with
  | none => exact ⟨none, rfl, rfl⟩
  | some payload =>
    have read : launchPayload.validate (payload.modelDump true) = .ok payload := payload.modelDump_exact true
    obtain ⟨native, written⟩ : ∃ native, payload.modelDump true = .obj native := ⟨_, rfl⟩
    have given : ((some (payload.modelDump true)).filter Json.truthy).or none = some (.obj native) := by
      rw [← written]
      rfl
    obtain ⟨dumped, isObj, handoff⟩ := handoff_dumped payload.manifest
    rw [written] at read
    simp only [Option.map_some, Option.bind_some, given, read, bind, Except.bind]
    rw [manifest_dumped, isObj]
    simp only [handoff]
    cases payload.manifest.robustnessEvidencePublicationHandoff with
    | none => exact ⟨none, rfl, rfl⟩
    | some handoff => exact ⟨_, rfl, rfl⟩

/-- An accepted payload is the same after every dump and every hop, with all that is beyond
its known fields; what gives a field twice is refused; and a runner extracts the handoff
that was submitted. -/
theorem native_payload_kept :
    (∀ doc payload, launchPayload.validate doc = .ok payload →
      (∀ byAlias, launchPayload.validate (payload.modelDump byAlias) = .ok payload) ∧
      (doc.finite = true → ∀ hops, payload.relay hops = .ok payload) ∧
      (∃ fields, doc = .obj fields ∧ KeepsExtra fields payload) ∧
      ∀ (task : TaskPayload) pipelineSpec datasetSpec fingerprint, task.nativePayload = some payload →
        ∃ handed, robustnessHandoffFromSpec (buildRunnerSpec task pipelineSpec datasetSpec fingerprint) =
          .ok handed ∧ handed.map Json.obj =
            payload.manifest.robustnessEvidencePublicationHandoff.map publicationHandoff.dump) ∧
    ∀ fields, GivenTwice fields → ∃ error, launchPayload.validate (.obj fields) = .error error := by
  constructor
  · intro doc payload accepted
    refine ⟨payload.modelDump_exact, fun finite => ?_, ?_, fun task pipelineSpec datasetSpec fingerprint held => ?_⟩
    · exact payload.relay_exact (launchPayload.keeps doc payload finite accepted)
    · obtain ⟨fields, rfl, _⟩ := payload_ok.mp accepted
      exact ⟨fields, rfl, accepted_keeps accepted⟩
    · obtain ⟨handed, extracted, same⟩ := handoff_extracted task pipelineSpec datasetSpec fingerprint
      rw [held] at same
      exact ⟨handed, extracted, same⟩
  · intro fields twice
    cases validated : launchPayload.validate (.obj fields) with
    | error error => exact ⟨error, rfl⟩
    | ok payload => exact absurd twice (accepted_once validated)

/-- A payload spelled in both ways, with a field of its own on each level. -/
def launchDoc : Dict :=
  [("legacyConfig", .null), ("studio", .int 1), ("manifest", .obj [("version", .str "2"), ("tags", .arr []),
    ("robustness_evidence_publication_handoff", .obj [("kind", .str "robustness_evidence_publication_handoff"),
      ("requested", .bool true), ("destination", .str "store"), ("failClosed", .str "Yes"),
      ("alignment_strategies", .arr [.str "sample_indices"]), ("publishedFields", .arr []), ("note", .null)])])]

theorem native_payload_kept_extended :
    (∃ payload, launchPayload.validate (.obj launchDoc) = .ok payload ∧
      payload.relay [false, true, true, false] = .ok payload ∧ payload.extra = [("studio", .int 1)]) ∧
    ∃ error, launchPayload.validate (.obj (("legacy_config", .null) :: launchDoc)) = .error error := by
  have kept := native_payload_kept
  constructor
  · have valid : (launchPayload.validate (.obj launchDoc)).isOk = true := by decide +kernel
    cases validated : launchPayload.validate (.obj launchDoc) with
    | error error =>
      rw [validated] at valid
      contradiction
    | ok payload =>
      obtain ⟨_, relayed, ⟨_, ⟨⟩, keeps⟩, _⟩ := kept.1 _ payload validated
      exact ⟨payload, rfl, relayed (by decide +kernel) _, keeps.own⟩
  · exact kept.2 _ (.inl (by decide +kernel))

end N4Cluster
