import N4Cluster.Client.Params
import N4Cluster.Runner.Publication
import N4Cluster.Runner.Summary
import N4Cluster.Worker.Executor
import N4Cluster.Worker.Materialize

/-! The runner: the child process that calls `nirs4all.run` for one task. However nirs4all, the
submitted code and the file system answer, the worker reads of it that the task succeeded exactly if
the runner did, and without leave the runner touches no submitted code. Submitted code is taken to
keep off the result file. -/
namespace N4Cluster
open Acting Dictionary Fallible Paths Wire

inductive LoadedPipeline where
  | path (value : Json)
  | built (moduleName builder : String)

/-- How writing the result file ends; a file that is broken off is no JSON. -/
inductive WriteEnd where
  | whole
  | refused (exn : Exn)
  | broken (exn : Exn)

/-- `cleanLevels` and `dumpLevels` are how far `_jsonable` and `json.dumps` may descend before the
interpreter's recursion limit. -/
structure RunnerHost where
  py : Builtins
  cleanLevels : Nat
  dumpLevels : Nat
  repr : Json → String
  folders : Except Exn Unit
  taskRead : Except Exn Unit
  nirs4all : Except Raised String
  sysPath : List String
  importModule : List String → String → Except Raised Unit
  build : List String → String → String → Except Raised Unit
  run : RunCall LoadedPipeline Json → Except Raised RunResult
  duration : Rat
  preparation : Preparation
  digest : String → String
  traceback : String
  summaryWritten : WriteEnd
  failureWritten : WriteEnd

structure RunnerArgs where
  workspace : String
  outputDir : String
  allowPython : Bool := false

/-- What is done of the submitted work. -/
inductive Deed where
  | imported (moduleName : String)
  | built (moduleName builder : String)
  | ran (call : RunCall LoadedPipeline Json)

structure RunnerState where
  deeds : List Deed := []
  left : Left := .untouched

abbrev RunnerAct := Act RunnerState Raised

def performing {α : Type} (deed : Deed) (answer : Except Raised α) : RunnerAct α :=
  fun s => (answer, { s with deeds := s.deeds ++ [deed] })

def Json.pyType : Json → String
  | .null => "NoneType"
  | .bool _ => "bool"
  | .int _ => "int"
  | .float _ => "float"
  | .str _ => "str"
  | .arr _ => "list"
  | .obj _ => "dict"

def noAttribute (value : Json) (name : String) : Raised :=
  .exception ⟨"AttributeError", "'" ++ value.pyType ++ "' object has no attribute '" ++ name ++ "'"⟩

/-- `spec[key]`. -/
def getItem (spec : Dict) (key : String) : Except Raised Json :=
  match spec.lookup key with
  | some value => .ok value
  | none => .error (.exception ⟨"KeyError", "'" ++ key ++ "'"⟩)

/-- `spec[key]`, whose `get` is called. -/
def mappingAt (spec : Dict) (key : String) : Except Raised Dict := do
  match ← getItem spec key with
  | .obj fields => return fields
  | value => .error (noAttribute value "get")

/-- `spec.get("mode") == mode`. -/
def modeIs (mode : String) (spec : Dict) : Bool :=
  match spec.lookup "mode" with
  | some (.str text) => text = mode
  | _ => false

def unsupportedMode (host : RunnerHost) (kind : String) (spec : Dict) : Raised :=
  .exception (valueError ("unsupported " ++ kind ++ " mode: " ++ host.repr ((spec.lookup "mode").getD .null)))

/-- `spec.get("sys_path", [])`. -/
def sysPathOf (spec : Dict) : Except Raised (List String) :=
  match spec.lookup "sys_path" with
  | none => .ok []
  -- of a text each character is taken, of a dictionary each key; what is no text is of no use to an import
  | some (.arr items) => .ok (items.filterMap fun
    | .str text => some text
    | _ => none)
  | some (.str text) => .ok (text.toList.map String.singleton)
  | some (.obj fields) => .ok (keys fields)
  | some value => .error (.exception ⟨"TypeError", "'" ++ value.pyType ++ "' object is not iterable"⟩)

/-- The module of an entry point, up to its first colon. -/
def entryModule (text : String) : String := String.ofList (text.toList.takeWhile (· ≠ ':'))

/-- The function of an entry point, after it. -/
def entryBuilder (text : String) : String :=
  let name := String.ofList ((text.toList.dropWhile (· ≠ ':')).drop 1)
  if name = "" then "build_pipeline" else name

section
variable (host : RunnerHost) (args : RunnerArgs)

/-- An entry point is imported and its function called. -/
def buildPipeline (sysPath : List String) (text : String) : RunnerAct LoadedPipeline := do
  performing (.imported (entryModule text)) (host.importModule sysPath (entryModule text))
  performing (.built (entryModule text) (entryBuilder text)) (host.build sysPath (entryModule text) (entryBuilder text))
  return .built (entryModule text) (entryBuilder text)

/-- `_load_pipeline`. -/
def loadPipeline (spec : Dict) : RunnerAct LoadedPipeline :=
  if modeIs "path" spec then do
    return .path (← .ofExcept (getItem spec "path"))
  else if modeIs "entrypoint" spec then
    if args.allowPython = false then
      .raise (.exception ⟨"PermissionError", "python_entrypoint pipeline requires --allow-python"⟩)
    else do
      let paths ← .ofExcept (sysPathOf spec)
      let sysPath := paths.foldl (fun known path => if path ∈ known then known else path :: known) host.sysPath
      match ← .ofExcept (getItem spec "entrypoint") with
      | .str text => buildPipeline host sysPath text
      | value => .raise (noAttribute value "partition")
  else .raise (unsupportedMode host "pipeline" spec)

/-- `_load_dataset`. -/
def loadDataset (spec : Dict) : Except Raised Json :=
  if modeIs "path" spec then getItem spec "path"
  else if modeIs "spec" spec then getItem spec "spec"
  else .error (unsupportedMode host "dataset" spec)

/-- `(spec.get("outputs") or {}).get("export_best_model", True)`. -/
def exportWanted (spec : Dict) : Except Raised Bool :=
  match (spec.lookup "outputs").filter Json.truthy with
  | none => .ok true
  | some (.obj fields) => .ok ((fields.lookup "export_best_model").all Json.truthy)
  | some value => .error (noAttribute value "get")

/-- The export, which may fail without failing the task. -/
def exportModel (result : RunResult) (summary : Summary) : Except Raised Summary :=
  match result.exportTo with
  | .ok _ =>
    if result.exported then
      .ok { summary with model := some ((PurePath.parse args.outputDir.toList).child "best_model.n4a").str }
    else .ok summary
  | .error (.exception exn) =>
    .ok { summary with extra := put summary.extra "export_error" (.str (exn.type ++ ": " ++ exn.text)) }
  | .error (.exit code) => .error (.exit code)

def exportIfWanted (spec : Dict) (result : RunResult) (summary : Summary) : Except Raised Summary := do
  let wanted ← exportWanted spec
  if wanted then exportModel args result summary else .ok summary

/-- A publication's summary as a dictionary; what ends before the store is opened has fewer entries. -/
def PublicationSummary.json (summary : PublicationSummary) : Json :=
  let early := summary.reason ∈
    ["dataset_unavailable", "dataset_X_unavailable", "workspace_store_unavailable", "not_attempted"].map some
  .obj ([("status", .str summary.status), ("reason", optionalText summary.reason)] ++
    (summary.error.map fun text => ("error", .str text)).toList ++
    [("published_prediction_count", .int summary.publishedPredictionCount)] ++
    (if early then [] else [("prediction_outcomes", .arr (summary.predictionOutcomes.map RowOutcome.json))]) ++
    if early || summary.error.isSome then [] else [("workspace_required", .bool summary.workspaceRequired)])

def HandoffTrace.json (trace : HandoffTrace) : Json :=
  .obj [("kind", .str "robustness_evidence_publication_trace"), ("publisher", .str "nirs4all-cluster.runner"),
    ("status", .str trace.status), ("requested", .bool trace.requested), ("destination", .str trace.destination),
    ("fail_closed", .bool trace.failClosed),
    ("alignment_strategies", .arr (trace.alignmentStrategies.map alignmentStrategy.dump)),
    ("published_fields", .arr (trace.publishedFields.map .str)),
    ("published", .obj (trace.published.map fun field => (field.1, .str field.2))),
    ("missing", .arr (trace.missing.map .str)), ("publication_summary", trace.summary.json)]

/-- The publication of what a handoff asks for, with its trace in the summary. -/
def publishHandoff (handoff : Option NativeRobustnessEvidencePublicationHandoff) (result : RunResult)
    (summary : Summary) : Except Raised Summary :=
  match handoff.filter fun handoff => handoff.requested with
  | none => .ok summary
  | some handoff => do
    let published ← (publishEvidence host.digest args.workspace (!result.isNone) summary.model
      host.preparation).1.mapError .exception
    let trace := robustnessHandoffTrace handoff (some published)
    return { summary with extra := put summary.extra "robustness_evidence_publication_trace" trace.json.object }

/-- `run_result.close()`, whose exceptions are passed over. -/
def closeRun (result : RunResult) : Except Raised Unit :=
  match result.closed with
  | .error (.exit code) => .error (.exit code)
  | _ => .ok ()

/-- What `main` does between the return of the run and the dump. -/
def finishSummary (spec : Dict) (handoff : Option NativeRobustnessEvidencePublicationHandoff) (result : RunResult)
    (version : String) : Except Raised Summary := do
  let summary ← summarizeRun host.cleanLevels result version host.duration
  let summary ← exportIfWanted args spec result summary
  let summary ← publishHandoff host args handoff result summary
  closeRun result
  return summary

/-! ## `main` -/

def PyErr.raised : PyErr → Raised
  | .typeError message => .exception ⟨"TypeError", message⟩
  | .validationError message => .exception ⟨"ValidationError", message⟩
  | error => .exception (N4Cluster.valueError error.str)

/-- `_robustness_handoff_from_spec`, before its last dump. -/
def takenHandoff (spec : Dict) : Except PyErr (Option NativeRobustnessEvidencePublicationHandoff) :=
  match ((spec.lookup "native_payload").filter Json.truthy).or (spec.lookup "nativePayload") with
  | some (.obj native) => do
    return (← launchPayload.validate (.obj native)).manifest.robustnessEvidencePublicationHandoff
  | _ => return none

def writeResult (ends : WriteEnd) (doc : Json) : RunnerAct Unit := fun s =>
  match ends with
  | .whole => (.ok (), { s with left := .wrote (.value doc) })
  | .refused exn => (.error (.exception exn), s)
  | .broken exn => (.error (.exception exn), { s with left := .wrote .malformed })

/-- The call of `nirs4all.run` and what follows it in the `try`. -/
def runAndWrite (spec : Dict) (handoff : Option NativeRobustnessEvidencePublicationHandoff) (version : String)
    (call : RunCall LoadedPipeline Json) : RunnerAct Unit := do
  let result ← performing (.ran call) (host.run call)
  let summary ← .ofExcept (finishSummary host args spec handoff result version)
  let doc ← .ofExcept ((summary.object.dumped host.dumpLevels).mapError .exception)
  writeResult host.summaryWritten doc

/-- The body of the `try`. -/
def attempt (spec : Dict) : RunnerAct Unit := do
  .ofExcept (host.taskRead.mapError .exception)
  let handoff ← .ofExcept ((takenHandoff spec).mapError PyErr.raised)
  let version ← .ofExcept host.nirs4all
  let pipeline ← loadPipeline host args (← .ofExcept (mappingAt spec "pipeline"))
  let dataset ← .ofExcept (do loadDataset host (← mappingAt spec "dataset"))
  let call ← .ofExcept ((runCall host.py spec pipeline dataset args.workspace).mapError PyErr.raised)
  runAndWrite host args spec handoff version call

def failureDoc (exn : Exn) : Json :=
  .obj [("status", .str "failed"), ("error", .str (exn.type ++ ": " ++ exn.text)), ("traceback", .str host.traceback)]

/-- The handler of the `except`, or what goes past it. -/
def failed : Raised → RunnerAct Int
  | .exception exn => do
    writeResult host.failureWritten (failureDoc host exn)
    return 1
  | .exit code => .raise (.exit code)

/-- `main`, with the arguments parsed and the task file's content. -/
def main (spec : Dict) : RunnerAct Int := fun s =>
  match host.folders with
  | .error exn => (.error (.exception exn), s)
  | .ok _ =>
    match attempt host args spec s with
    | (.ok _, t) => (.ok 0, t)
    | (.error raised, t) => failed host raised t

end

/-! ## What an attempt comes to -/

section
variable {host : RunnerHost} {args : RunnerArgs} {spec : Dict} {text : String}

theorem getItem_ok {key : String} {value : Json} (found : getItem spec key = .ok value) :
    spec.lookup key = some value := by
  unfold getItem at found
  split at found
  · cases found
    assumption
  · cases found

theorem mappingAt_ok {key : String} {fields : Dict} (found : mappingAt spec key = .ok fields) :
    spec.lookup key = some (.obj fields) := by
  obtain ⟨value, held, same⟩ := bind_ok_iff.mp found
  split at same
  · cases same
    exact getItem_ok held
  · cases same

/-- The entry point that a pipeline's spec names, where the runner has leave for it. -/
structure EntryPoint (args : RunnerArgs) (spec : Dict) (text : String) : Prop where
  allowed : args.allowPython = true
  mode : modeIs "entrypoint" spec = true
  named : spec.lookup "entrypoint" = some (.str text)

/-- The deed is to load that entry point. -/
def LoadsEntry (args : RunnerArgs) (spec : Dict) : Deed → Prop
  | .imported moduleName => ∃ text, EntryPoint args spec text ∧ moduleName = entryModule text
  | .built moduleName builder =>
    ∃ text, EntryPoint args spec text ∧ moduleName = entryModule text ∧ builder = entryBuilder text
  | .ran _ => False

/-- The pipeline is what the spec names. -/
def Loads (args : RunnerArgs) (spec : Dict) : LoadedPipeline → Prop
  | .path value => modeIs "path" spec = true ∧ spec.lookup "path" = some value
  | .built moduleName builder =>
    ∃ text, EntryPoint args spec text ∧ moduleName = entryModule text ∧ builder = entryBuilder text

/-- Nothing but the entry point of the spec is touched, and what is returned is what it names. -/
def LoadsOnly (args : RunnerArgs) (spec : Dict) (s : RunnerState) (ran : Except Raised LoadedPipeline × RunnerState) :
    Prop :=
  ∃ mods, ran.2 = { s with deeds := s.deeds ++ mods } ∧ (∀ deed ∈ mods, LoadsEntry args spec deed) ∧
    ∀ pipeline, ran.1 = .ok pipeline → Loads args spec pipeline

theorem loads_nothing (s : RunnerState) (raised : Raised) : LoadsOnly args spec s (.error raised, s) := by
  refine ⟨[], ?_, fun _ member => False.elim (List.not_mem_nil member), fun _ same => by cases same⟩
  rw [List.append_nil]

theorem buildPipeline_loads (entry : EntryPoint args spec text) (sysPath : List String) (s : RunnerState) :
    LoadsOnly args spec s (buildPipeline host sysPath text s) := by
  have imports : LoadsEntry args spec (.imported (entryModule text)) := ⟨text, entry, rfl⟩
  have builds : LoadsEntry args spec (.built (entryModule text) (entryBuilder text)) := ⟨text, entry, rfl, rfl⟩
  unfold buildPipeline
  rw [Act.bind_run, performing]
  cases host.importModule sysPath (entryModule text) with
  | error raised =>
    exact ⟨[_], rfl, fun _ member => List.mem_singleton.mp member ▸ imports, fun _ same => by cases same⟩
  | ok _ =>
    dsimp only
    rw [Act.bind_run, performing]
    have both : ∀ deed ∈ [Deed.imported (entryModule text)] ++ [Deed.built (entryModule text) (entryBuilder text)],
        LoadsEntry args spec deed := by
      intro deed member
      rcases List.mem_append.mp member with first | second
      · exact List.mem_singleton.mp first ▸ imports
      · exact List.mem_singleton.mp second ▸ builds
    cases host.build sysPath (entryModule text) (entryBuilder text) with
    | error raised =>
      refine ⟨_, ?_, both, fun _ same => by cases same⟩
      rw [← List.append_assoc]
    | ok _ =>
      refine ⟨_, ?_, both, fun pipeline same => ?_⟩
      · rw [← List.append_assoc]
        rfl
      · cases same
        exact ⟨text, entry, rfl, rfl⟩

theorem loadPipeline_loads (host : RunnerHost) (args : RunnerArgs) (spec : Dict) (s : RunnerState) :
    LoadsOnly args spec s (loadPipeline host args spec s) := by
  unfold loadPipeline
  split
  · rename_i mode
    rw [Act.ofExcept_bind]
    cases found : getItem spec "path" with
    | error raised => exact loads_nothing s raised
    | ok value =>
      refine ⟨[], ?_, fun _ member => False.elim (List.not_mem_nil member), fun pipeline same => ?_⟩
      · rw [List.append_nil]
        rfl
      · cases same
        exact ⟨mode, getItem_ok found⟩
  · split
    · rename_i mode
      split
      · exact loads_nothing s _
      · rename_i allowed
        rw [Act.ofExcept_bind]
        cases sysPathOf spec with
        | error raised => exact loads_nothing s raised
        | ok paths =>
          dsimp only
          rw [Act.ofExcept_bind]
          cases found : getItem spec "entrypoint" with
          | error raised => exact loads_nothing s raised
          | ok value =>
            dsimp only
            split
            · exact buildPipeline_loads ⟨Bool.not_eq_false _ ▸ allowed, mode, getItem_ok found⟩ _ s
            · exact loads_nothing s _
    · exact loads_nothing s _

/-- The call of `nirs4all.run` is the one the spec asks for. -/
structure Called (host : RunnerHost) (args : RunnerArgs) (spec : Dict) (call : RunCall LoadedPipeline Json) : Prop where
  pipeline : ∃ fields, spec.lookup "pipeline" = some (.obj fields) ∧ Loads args fields call.pipeline
  dataset : ∃ fields, spec.lookup "dataset" = some (.obj fields) ∧ loadDataset host fields = .ok call.dataset
  params : ∃ params, specParams host.py spec = .ok params ∧ call.params = runnerParams params
  workspace : call.workspacePath = host.py.path args.workspace

/-- The run was called, it returned, and the document tells of it. -/
structure Completed (host : RunnerHost) (args : RunnerArgs) (spec : Dict) (call : RunCall LoadedPipeline Json)
    (doc : Dict) : Prop where
  called : Called host args spec call
  told : ∃ result version, host.run call = .ok result ∧ host.nirs4all = .ok version ∧ Summarized result version doc

/-- The ends of an attempt that has done these deeds before the run. -/
inductive AttemptEnds (host : RunnerHost) (args : RunnerArgs) (spec : Dict) (mods : List Deed) :
    Except Raised Unit × RunnerState → Prop
  | unrun (raised : Raised) : AttemptEnds host args spec mods (.error raised, ⟨mods, .untouched⟩)
  | raised {call : RunCall LoadedPipeline Json} (called : Called host args spec call) (raised : Raised) (left : Left)
      (none_told : left = .untouched ∨ left = .wrote .malformed) :
      AttemptEnds host args spec mods (.error raised, ⟨mods ++ [.ran call], left⟩)
  | completed {call : RunCall LoadedPipeline Json} {doc : Dict} (completed : Completed host args spec call doc) :
      AttemptEnds host args spec mods (.ok (), ⟨mods ++ [.ran call], .wrote (.value (.obj doc))⟩)

theorem called_of {fields beside : Dict} {pipeline : LoadedPipeline} {dataset : Json}
    {call : RunCall LoadedPipeline Json} (named : spec.lookup "pipeline" = some (.obj fields))
    (loads : Loads args fields pipeline) (other : spec.lookup "dataset" = some (.obj beside))
    (loaded : loadDataset host beside = .ok dataset)
    (made : runCall host.py spec pipeline dataset args.workspace = .ok call) : Called host args spec call := by
  obtain ⟨params, read, made⟩ := bind_ok_iff.mp made
  dsimp only at made
  split at made
  · cases made
  · split at made
    · cases made
    · cases made
      exact ⟨⟨fields, named, loads⟩, ⟨beside, other, loaded⟩, ⟨params, read, rfl⟩, rfl⟩

/-- What is taken is what `main` has, before the dump. -/
theorem robustnessHandoffFromSpec_taken (spec : Dict) : robustnessHandoffFromSpec spec = do
    let handoff ← takenHandoff spec
    return handoff.bind fun handoff => (publicationHandoff.dump handoff).dict := by
  unfold robustnessHandoffFromSpec takenHandoff
  generalize ((spec.lookup "native_payload").filter Json.truthy).or (spec.lookup "nativePayload") = given
  cases given with
  | none => rfl
  | some value =>
    cases value with
    | obj native =>
      dsimp only
      cases launchPayload.validate (.obj native) with
      | error error => rfl
      | ok payload =>
        obtain ⟨dumped, written, taken⟩ := handoff_dumped payload.manifest
        simp only [bind, Except.bind, manifest_dumped, written, taken]
        cases payload.manifest.robustnessEvidencePublicationHandoff <;> rfl
    | _ => rfl

/-- Neither the export nor the publication changes what a summary tells of the run. -/
def SameRun (summary summary' : Summary) : Prop :=
  summary'.metrics = summary.metrics ∧ summary'.version = summary.version

theorem exportIfWanted_same {result : RunResult} {summary summary' : Summary}
    (made : exportIfWanted args spec result summary = .ok summary') : SameRun summary summary' := by
  obtain ⟨wanted, _, made⟩ := bind_ok_iff.mp made
  cases wanted with
  | false =>
    cases made
    exact ⟨rfl, rfl⟩
  | true =>
    change exportModel args result summary = .ok summary' at made
    unfold exportModel at made
    split at made
    · split at made <;> cases made <;> exact ⟨rfl, rfl⟩
    · cases made
      exact ⟨rfl, rfl⟩
    · cases made

theorem publishHandoff_same {handoff : Option NativeRobustnessEvidencePublicationHandoff} {result : RunResult}
    {summary summary' : Summary} (made : publishHandoff host args handoff result summary = .ok summary') :
    SameRun summary summary' := by
  unfold publishHandoff at made
  split at made
  · cases made
    exact ⟨rfl, rfl⟩
  · obtain ⟨_, _, made⟩ := bind_ok_iff.mp made
    cases made
    exact ⟨rfl, rfl⟩

theorem summarizeRun_reads {levels : Nat} {result : RunResult} {version : String} {duration : Rat} {summary : Summary}
    (made : summarizeRun levels result version duration = .ok summary) :
    result.metrics = .ok summary.metrics ∧ summary.version = version := by
  obtain ⟨_, _, made⟩ := bind_ok_iff.mp made
  obtain ⟨metrics, read, made⟩ := bind_ok_iff.mp made
  obtain ⟨_, _, made⟩ := bind_ok_iff.mp made
  cases made
  exact ⟨read, rfl⟩

theorem finishSummary_reads {handoff : Option NativeRobustnessEvidencePublicationHandoff} {result : RunResult}
    {version : String} {summary : Summary} (made : finishSummary host args spec handoff result version = .ok summary) :
    result.metrics = .ok summary.metrics ∧ summary.version = version := by
  obtain ⟨first, summed, made⟩ := bind_ok_iff.mp made
  obtain ⟨second, exported, made⟩ := bind_ok_iff.mp made
  obtain ⟨third, published, made⟩ := bind_ok_iff.mp made
  obtain ⟨_, _, made⟩ := bind_ok_iff.mp made
  cases made
  obtain ⟨metrics, version⟩ := publishHandoff_same published
  obtain ⟨metrics', version'⟩ := exportIfWanted_same exported
  rw [metrics, metrics', version, version']
  exact summarizeRun_reads summed

/-- The ends of the call and what follows it, after these deeds. -/
theorem runAndWrite_ends {handoff : Option NativeRobustnessEvidencePublicationHandoff} {version : String}
    {call : RunCall LoadedPipeline Json} (mods : List Deed) (called : Called host args spec call)
    (known : host.nirs4all = .ok version) :
    AttemptEnds host args spec mods (runAndWrite host args spec handoff version call ⟨mods, .untouched⟩) := by
  unfold runAndWrite
  rw [Act.bind_run, performing]
  cases returned : host.run call with
  | error raised => exact .raised called raised .untouched (.inl rfl)
  | ok result =>
    dsimp only
    rw [Act.ofExcept_bind]
    cases made : finishSummary host args spec handoff result version with
    | error raised => exact .raised called raised .untouched (.inl rfl)
    | ok summary =>
      dsimp only
      rw [Act.ofExcept_bind]
      cases written : summary.object.dumped host.dumpLevels with
      | error exn => exact .raised called (.exception exn) .untouched (.inl rfl)
      | ok doc =>
        change AttemptEnds host args spec mods (writeResult host.summaryWritten doc _)
        unfold writeResult
        cases host.summaryWritten with
        | refused exn => exact .raised called (.exception exn) .untouched (.inl rfl)
        | broken exn => exact .raised called (.exception exn) (.wrote .malformed) (.inr rfl)
        | whole =>
          obtain ⟨read, same⟩ := finishSummary_reads made
          obtain ⟨fields, rfl, summarized⟩ := object_summarized read written
          exact .completed ⟨called, result, version, returned, known, same ▸ summarized⟩

/-- The deed is to load the entry point that the task names for its pipeline. -/
def LoadsNamed (args : RunnerArgs) (spec : Dict) (deed : Deed) : Prop :=
  ∃ fields, spec.lookup "pipeline" = some (.obj fields) ∧ LoadsEntry args fields deed

/-- Before the run the entry point of the task is loaded, if any, and then the attempt ends in one
of three ways. -/
theorem attempt_ends (host : RunnerHost) (args : RunnerArgs) (spec : Dict) :
    ∃ mods, (∀ deed ∈ mods, LoadsNamed args spec deed) ∧
      AttemptEnds host args spec mods (attempt host args spec {}) := by
  have early (raised : Raised) : ∃ mods, (∀ deed ∈ mods, LoadsNamed args spec deed) ∧
      AttemptEnds host args spec mods (.error raised, {}) :=
    ⟨[], fun _ member => False.elim (List.not_mem_nil member), .unrun raised⟩
  unfold attempt
  rw [Act.ofExcept_bind]
  cases host.taskRead.mapError Raised.exception with
  | error raised => exact early raised
  | ok _ =>
    dsimp only
    rw [Act.ofExcept_bind]
    cases (takenHandoff spec).mapError PyErr.raised with
    | error raised => exact early raised
    | ok handoff =>
      dsimp only
      rw [Act.ofExcept_bind]
      cases known : host.nirs4all with
      | error raised => exact early raised
      | ok version =>
        dsimp only
        rw [Act.ofExcept_bind]
        cases named : mappingAt spec "pipeline" with
        | error raised => exact early raised
        | ok fields =>
          dsimp only
          rw [Act.bind_run]
          obtain ⟨mods, after, only, loads⟩ := loadPipeline_loads host args fields {}
          refine ⟨mods, fun deed member => ⟨fields, mappingAt_ok named, only deed member⟩, ?_⟩
          change _ = ({ deeds := mods, left := .untouched } : RunnerState) at after
          cases loaded : loadPipeline host args fields {} with
          | mk ends t =>
            rw [loaded] at after loads
            subst after
            cases ends with
            | error raised => exact .unrun raised
            | ok pipeline =>
              dsimp only
              rw [Act.ofExcept_bind]
              cases data : (do loadDataset host (← mappingAt spec "dataset") : Except Raised Json) with
              | error raised => exact .unrun raised
              | ok dataset =>
                obtain ⟨beside, other, chosen⟩ := bind_ok_iff.mp data
                dsimp only
                rw [Act.ofExcept_bind]
                cases made : runCall host.py spec pipeline dataset args.workspace with
                | error error => exact .unrun error.raised
                | ok call =>
                  have called := called_of (mappingAt_ok named) (loads pipeline rfl) (mappingAt_ok other) chosen made
                  exact runAndWrite_ends mods called known

/-- The ends of `main` that has done these deeds before the run. -/
inductive MainEnds (host : RunnerHost) (args : RunnerArgs) (spec : Dict) (mods : List Deed) :
    Except Raised Int × RunnerState → Prop
  | succeeded {call : RunCall LoadedPipeline Json} {doc : Dict} (completed : Completed host args spec call doc) :
      MainEnds host args spec mods (.ok 0, ⟨mods ++ [.ran call], .wrote (.value (.obj doc))⟩)
  | unsuccessful {ends : Except Raised Int} {deeds : List Deed} {left : Left} (other : ends ≠ .ok 0)
      (ran : deeds = mods ∨ ∃ call, Called host args spec call ∧ deeds = mods ++ [.ran call])
      (told : left = .untouched ∨ left = .wrote .malformed ∨ ∃ exn, left = .wrote (.value (failureDoc host exn))) :
      MainEnds host args spec mods (ends, ⟨deeds, left⟩)

theorem failed_ends {mods deeds : List Deed} {left : Left} (raised : Raised)
    (ran : deeds = mods ∨ ∃ call, Called host args spec call ∧ deeds = mods ++ [.ran call])
    (none_told : left = .untouched ∨ left = .wrote .malformed) :
    MainEnds host args spec mods (failed host raised ⟨deeds, left⟩) := by
  have told : left = .untouched ∨ left = .wrote .malformed ∨ ∃ exn, left = .wrote (.value (failureDoc host exn)) :=
    none_told.imp_right .inl
  cases raised with
  | exit code => exact .unsuccessful (fun same => by cases same) ran told
  | exception exn =>
    change MainEnds host args spec mods
      ((writeResult host.failureWritten (failureDoc host exn) >>= fun _ => (pure 1 : RunnerAct Int)) _)
    rw [Act.bind_run]
    unfold writeResult
    cases host.failureWritten with
    | whole => exact .unsuccessful (fun same => by cases same) ran (.inr (.inr ⟨exn, rfl⟩))
    | refused _ => exact .unsuccessful (fun same => by cases same) ran told
    | broken _ => exact .unsuccessful (fun same => by cases same) ran (.inr (.inl rfl))

theorem main_ends (host : RunnerHost) (args : RunnerArgs) (spec : Dict) :
    ∃ mods, (∀ deed ∈ mods, LoadsNamed args spec deed) ∧ MainEnds host args spec mods (main host args spec {}) := by
  unfold main
  cases host.folders with
  | error exn =>
    refine ⟨[], fun _ member => False.elim (List.not_mem_nil member), ?_⟩
    exact .unsuccessful (fun same => by cases same) (.inl rfl) (.inl rfl)
  | ok _ =>
    obtain ⟨mods, named, ends⟩ := attempt_ends host args spec
    refine ⟨mods, named, ?_⟩
    dsimp only
    cases after : attempt host args spec {} with
    | mk outcome t =>
      rw [after] at ends
      cases ends with
      | unrun raised => exact failed_ends raised (.inl rfl) (.inl rfl)
      | raised called raised left none_told => exact failed_ends raised (.inr ⟨_, called, rfl⟩) none_told
      | completed completed => exact .succeeded completed

/-- What `main` has done: loads of the entry point, and then one call at most. -/
theorem main_deeds (host : RunnerHost) (args : RunnerArgs) (spec : Dict) :
    ∃ mods ran, (main host args spec {}).2.deeds = mods ++ ran ∧ (∀ deed ∈ mods, LoadsNamed args spec deed) ∧
      (ran = [] ∨ ∃ call, Called host args spec call ∧ ran = [.ran call]) := by
  obtain ⟨mods, named, ends⟩ := main_ends host args spec
  cases after : main host args spec {} with
  | mk outcome t =>
    rw [after] at ends
    cases ends with
    | succeeded completed => exact ⟨mods, _, rfl, named, .inr ⟨_, completed.called, rfl⟩⟩
    | unsuccessful _ ran _ =>
      rcases ran with rfl | ⟨call, called, rfl⟩
      · exact ⟨_, [], (List.append_nil _).symm, named, .inl rfl⟩
      · exact ⟨mods, _, rfl, named, .inr ⟨call, called, rfl⟩⟩

/-- The runner touches nothing of the submitted work but the entry point that the task names, with leave
for it, and after that `nirs4all.run` once at most, with what the task asks for. What is done with the
result of the run is no deed: its export, the publication, which loads the dataset again and calls
`nirs4all.predict`, and `close`. -/
theorem runner_restrained (host : RunnerHost) (args : RunnerArgs) (spec : Dict) :
    ∃ mods ran, (main host args spec {}).2.deeds = mods ++ ran ∧ (∀ deed ∈ mods, LoadsNamed args spec deed) ∧
      (args.allowPython = false → mods = []) ∧ (ran = [] ∨ ∃ call, Called host args spec call ∧ ran = [.ran call]) := by
  obtain ⟨mods, run, same, named, once⟩ := main_deeds host args spec
  have closed (forbidden : args.allowPython = false) : mods = [] := by
    refine List.eq_nil_iff_forall_not_mem.mpr fun deed member => ?_
    obtain ⟨fields, _, loads⟩ := named deed member
    cases deed with
    | imported moduleName =>
      obtain ⟨text, entry, _⟩ := loads
      exact Bool.false_ne_true (forbidden.symm.trans entry.allowed)
    | built moduleName builder =>
      obtain ⟨text, entry, _⟩ := loads
      exact Bool.false_ne_true (forbidden.symm.trans entry.allowed)
    | ran call => exact loads
  exact ⟨mods, run, same, named, closed, once⟩

end

/-! ## What the worker reads of it -/

section
variable {o : ExecOptions} {dir : TaskDir} {child : Child} {spec : Dict}

/-- What a finished child has written is returned as the run's result. -/
theorem finished_returns {doc : Json} (finishes : Finishes o child) (wrote : child.left = .wrote (.value doc))
    (true_doc : doc.truthy = true) :
    ∃ run dir', executeTask o spec dir child = some (.ok run, dir') ∧ run.result = doc := by
  obtain ⟨starts, stop, ticks, other, ended⟩ := finishes_iff.mp finishes
  have read : readResult (child.left.over dir.result) = .ok doc := by
    rw [wrote]
    rfl
  have returned := executeTask_ended spec dir starts ended
  rw [collect_ok read] at returned
  refine ⟨_, _, returned, ?_⟩
  change settled stop _ _ doc = doc
  rw [settled, if_neg other, if_pos true_doc]

/-- The worker reads of a child that it did not stop that the task succeeded exactly if the runner
returned zero; then `execute_task` returns, the run that the task asks for was made, it returned,
and the result tells of it. -/
theorem runs_accounted (o : ExecOptions) (host : RunnerHost) (args : RunnerArgs) (spec : Dict) (dir : TaskDir)
    (child : Child) (left : child.left = (main host args spec {}).2.left)
    (fresh : ¬(child.left = .untouched ∧ Stale dir.result)) (finishes : Finishes o child) :
    (∀ run dir', executeTask o spec dir child = some (.ok run, dir') →
      (run.result.hasStatus "succeeded" = true ↔ (main host args spec {}).1 = .ok 0)) ∧
    ((main host args spec {}).1 = .ok 0 → ∃ run dir' call doc, executeTask o spec dir child = some (.ok run, dir') ∧
      run.result = .obj doc ∧ Completed host args spec call doc) := by
  obtain ⟨mods, _, ends⟩ := main_ends host args spec
  cases after : main host args spec {} with
  | mk outcome t =>
    rw [after] at ends left
    cases ends with
    | @succeeded call doc completed =>
      obtain ⟨_, _, _, _, told⟩ := completed.told
      have good : Json.hasStatus "succeeded" (.obj doc) = true := by
        rw [Json.hasStatus, told.status]
        exact decide_eq_true rfl
      obtain ⟨run, dir', returned, result⟩ :=
        finished_returns finishes left (truthy_of_status good)
      refine ⟨fun run' dir'' ran => ?_, fun _ => ⟨run, dir', call, doc, returned, result, completed⟩⟩
      cases returned.symm.trans ran
      exact ⟨fun _ => rfl, fun _ => result ▸ good⟩
    | @unsuccessful ends deeds left' other _ told =>
      change child.left = left' at left
      have silent {run : Execution} {dir' : TaskDir} (ran : executeTask o spec dir child = some (.ok run, dir')) :
          run.result.hasStatus "succeeded" ≠ true := by
        intro succeeded
        obtain ⟨starts, stop, ticks, json, ended, read, result⟩ := executeTask_ok ran
        rw [result] at succeeded
        obtain ⟨_, has⟩ := settled_succeeded succeeded
        have held := readResult_status read has
        rw [left] at held fresh
        rcases told with rfl | rfl | ⟨exn, rfl⟩
        · exact fresh ⟨rfl, json, held, has⟩
        · cases held
        · cases held
          cases has
      refine ⟨fun run dir' ran => ?_, fun same => absurd same other⟩
      exact ⟨fun succeeded => absurd succeeded (silent ran), fun same => absurd same other⟩

/-- A host on which everything goes well, and a run with one metric. -/
def plainHost : RunnerHost where
  py := ⟨fun _ => .ok 0, fun _ => "", fun _ => .ok [], id, "run"⟩
  cleanLevels := 900
  dumpLevels := 900
  repr _ := ""
  folders := .ok ()
  taskRead := .ok ()
  nirs4all := .ok "1.0"
  sysPath := []
  importModule _ _ := .ok ()
  build _ _ _ := .ok ()
  run _ := .ok
    { attr := fun name => .ok (if name = "best_rmse" then .float (.fin 1) else .null), best := fun _ => .ok .null
      numPredictions := .ok 3, exportTo := .ok (), exported := true, closed := .ok () }
  duration := 2
  preparation := .datasetUnavailable
  digest := id
  traceback := ""
  summaryWritten := .whole
  failureWritten := .whole

def plainTask : Dict :=
  [("pipeline", .obj [("mode", .str "path"), ("path", .str "p.yaml")]),
    ("dataset", .obj [("mode", .str "path"), ("path", .str "data")])]

/-- The child that runs it. -/
def plainChild : Child where
  polls := [{ code := some 0 }]
  left := (main plainHost ⟨"ws", "out", false⟩ plainTask {}).2.left

theorem runs_accounted_plain :
    (main plainHost ⟨"ws", "out", false⟩ plainTask {}).1 = .ok 0 ∧
    ∃ run dir' call doc, executeTask {} plainTask {} plainChild = some (.ok run, dir') ∧ run.result = .obj doc ∧
      Completed plainHost ⟨"ws", "out", false⟩ plainTask call doc := by
  have fresh : ¬(plainChild.left = .untouched ∧ Stale ({} : TaskDir).result) := by
    rintro ⟨_, json, held, _⟩
    cases held
  have finishes : Finishes {} plainChild :=
    ⟨rfl, [], _, [], rfl, fun _ member => False.elim (List.not_mem_nil member), .inl rfl⟩
  exact ⟨rfl, (runs_accounted {} plainHost ⟨"ws", "out", false⟩ plainTask {} plainChild rfl fresh finishes).2 rfl⟩

end
end N4Cluster
