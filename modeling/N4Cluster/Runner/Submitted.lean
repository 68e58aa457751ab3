import N4Cluster.Runner.Main

/-! From the reference to the run. The spec that the worker prepares of a task makes the runner load
what was submitted, and nothing else. -/
namespace N4Cluster
open Dictionary Fallible Paths

/-- The entry point that was submitted, and leave for it. -/
structure EntrySubmitted (args : RunnerArgs) (ref : PipelineRef) (text : String) : Prop where
  allowed : args.allowPython = true
  kind : ref.kind = .pythonEntrypoint
  named : ref.entrypoint = some text

section
variable (whost : WorkerHost) (inputs : PurePath) (after : Tree) (args : RunnerArgs)

/-- The pipeline is the file that was placed for the reference, or comes from its entry point. -/
inductive PipelineSubmitted (ref : PipelineRef) : LoadedPipeline → Prop
  | path {path : PurePath} (placed : PipelinePlaced whost inputs after ref (pathSpec path)) :
      PipelineSubmitted ref (.path (.str path.str))
  | built {text : String} (entry : EntrySubmitted args ref text) :
      PipelineSubmitted ref (.built (entryModule text) (entryBuilder text))

/-- The dataset is the path that was placed for the reference. -/
def DatasetSubmitted (ref : DatasetRef) (value : Json) : Prop :=
  ∃ path, DatasetPlaced whost inputs after ref (pathSpec path) ∧ value = .str path.str

/-- The deed is part of what the task was submitted for. -/
inductive DeedSubmitted (task : TaskPayload) : Deed → Prop
  | imported {text : String} (entry : EntrySubmitted args task.pipeline text) :
      DeedSubmitted task (.imported (entryModule text))
  | built {text : String} (entry : EntrySubmitted args task.pipeline text) :
      DeedSubmitted task (.built (entryModule text) (entryBuilder text))
  | ran {call : RunCall LoadedPipeline Json}
      (pipeline : PipelineSubmitted whost inputs after args task.pipeline call.pipeline)
      (dataset : DatasetSubmitted whost inputs after task.dataset call.dataset)
      (params : call.params = runnerParams task.params) : DeedSubmitted task (.ran call)

end

section
variable {whost : WorkerHost} {host : RunnerHost} {inputs : PurePath} {after : Tree} {args : RunnerArgs}

theorem pathSpec_mode (path : PurePath) : modeIs "entrypoint" (pathSpec path) ≠ true := Bool.false_ne_true

theorem entrypointSpec_mode (ref : PipelineRef) (sysPath : List PurePath) :
    modeIs "path" (entrypointSpec ref sysPath) ≠ true := Bool.false_ne_true

theorem entrypointSpec_names {ref : PipelineRef} {sysPath : List PurePath} {text : String}
    (named : (entrypointSpec ref sysPath).lookup "entrypoint" = some (.str text)) : ref.entrypoint = some text := by
  change some ((ref.entrypoint.map Json.str).getD .null) = some (.str text) at named
  cases given : ref.entrypoint with
  | none =>
    rw [given] at named
    cases named
  | some entry =>
    rw [given] at named
    cases named
    rfl

/-- A spec names an entry point only for a reference to it. -/
theorem PipelinePlaced.entry {ref : PipelineRef} {fields : Dict} {text : String}
    (placed : PipelinePlaced whost inputs after ref fields) (entry : EntryPoint args fields text) :
    EntrySubmitted args ref text := by
  cases placed with
  | given kind => exact absurd entry.mode (pathSpec_mode _)
  | dumped kind dumped holds => exact absurd entry.mode (pathSpec_mode _)
  | downloaded kind delivers holds => exact absurd entry.mode (pathSpec_mode _)
  | bundled kind unpacks => exact ⟨entry.allowed, kind, entrypointSpec_names entry.named⟩
  | bare kind without => exact ⟨entry.allowed, kind, entrypointSpec_names entry.named⟩

theorem PipelinePlaced.loads {ref : PipelineRef} {fields : Dict} {pipeline : LoadedPipeline}
    (placed : PipelinePlaced whost inputs after ref fields) (loads : Loads args fields pipeline) :
    PipelineSubmitted whost inputs after args ref pipeline := by
  cases pipeline with
  | path value =>
    obtain ⟨mode, found⟩ := loads
    cases placed with
    | given kind =>
      cases found
      exact .path (.given kind)
    | dumped kind dumped holds =>
      cases found
      exact .path (.dumped kind dumped holds)
    | downloaded kind delivers holds =>
      cases found
      exact .path (.downloaded kind delivers holds)
    | bundled kind unpacks => exact absurd mode (entrypointSpec_mode _ _)
    | bare kind without => exact absurd mode (entrypointSpec_mode _ _)
  | built moduleName builder =>
    obtain ⟨text, entry, rfl, rfl⟩ := loads
    exact .built (placed.entry entry)

theorem DatasetPlaced.loads {ref : DatasetRef} {fields : Dict} {value : Json}
    (placed : DatasetPlaced whost inputs after ref fields) (loaded : loadDataset host fields = .ok value) :
    DatasetSubmitted whost inputs after ref value := by
  obtain ⟨path, rfl⟩ : ∃ path, fields = pathSpec path := by
    cases placed with
    | given kind named found => exact ⟨_, rfl⟩
    | unpacked kind unpacks chosen => exact ⟨_, rfl⟩
  have read : loadDataset host (pathSpec path) = .ok (.str path.str) := rfl
  rw [read] at loaded
  cases loaded
  exact ⟨path, placed, rfl⟩

/-- The parameters of a built spec are those of the task. -/
theorem specParams_built (py : Builtins) (task : TaskPayload) (pipeline dataset : Json) (fingerprint : String) :
    specParams py (buildRunnerSpec task pipeline dataset fingerprint) = .ok task.params := by
  have held : (buildRunnerSpec task pipeline dataset fingerprint).lookup "params" = some (.obj task.params) := rfl
  rw [specParams, held]
  cases task.params <;> rfl

theorem Called.submitted {task : TaskPayload} {pipeline dataset : Dict} {fingerprint : String}
    {call : RunCall LoadedPipeline Json} (placed : PipelinePlaced whost inputs after task.pipeline pipeline)
    (beside : DatasetPlaced whost inputs after task.dataset dataset)
    (called : Called host args (buildRunnerSpec task (.obj pipeline) (.obj dataset) fingerprint) call) :
    DeedSubmitted whost inputs after args task (.ran call) := by
  obtain ⟨fields, found, loads⟩ := called.pipeline
  obtain ⟨fields', found', loaded⟩ := called.dataset
  obtain ⟨params, read, same⟩ := called.params
  cases found
  cases found'
  rw [specParams_built] at read
  cases read
  exact .ran (placed.loads loads) (beside.loads loaded) same

theorem LoadsNamed.submitted {task : TaskPayload} {pipeline dataset : Dict} {fingerprint : String} {deed : Deed}
    (placed : PipelinePlaced whost inputs after task.pipeline pipeline)
    (named : LoadsNamed args (buildRunnerSpec task (.obj pipeline) (.obj dataset) fingerprint) deed) :
    DeedSubmitted whost inputs after args task deed := by
  obtain ⟨fields, found, loads⟩ := named
  cases found
  cases deed with
  | imported moduleName =>
    obtain ⟨text, entry, rfl⟩ := loads
    exact .imported (placed.entry entry)
  | built moduleName builder =>
    obtain ⟨text, entry, rfl, rfl⟩ := loads
    exact .built (placed.entry entry)
  | ran call => exact loads.elim

/-- On the spec that the worker has prepared for a task, all that the runner does is load the pipeline that
was submitted, by its entry point only if it was submitted as one and the worker gave leave, and run it on the
dataset that was submitted with the parameters of the task. -/
theorem submitted_run (whost : WorkerHost) (host : RunnerHost) (args : RunnerArgs) (task : TaskPayload)
    (workdir : PurePath) (tree after : Tree) (spec : Dict)
    (prepared : materialize whost task workdir tree = (.ok spec, after)) :
    ∀ deed ∈ (main host args spec {}).2.deeds,
      DeedSubmitted whost (workdir.child "inputs") after args task deed := by
  obtain ⟨pipeline, dataset, fingerprint, rfl, placed, beside, _⟩ := materialize_ready prepared
  obtain ⟨mods, run, same, named, once⟩ := main_deeds host args
    (buildRunnerSpec task (.obj pipeline) (.obj dataset) fingerprint)
  rw [same]
  intro deed member
  rcases List.mem_append.mp member with early | last
  · exact (named deed early).submitted placed
  · rcases once with rfl | ⟨call, called, rfl⟩
    · exact False.elim (List.not_mem_nil last)
    · rw [List.mem_singleton.mp last]
      exact called.submitted placed beside

/-- A task whose pipeline and dataset are paths of the worker. -/
def pathTask : TaskPayload where
  taskId := "task_1"
  jobId := "job_1"
  type := "nirs4all.run"
  attempt := 1
  pipeline := { kind := .path, path := some "/p.yaml" }
  dataset := { kind := .sharedPath, path := some "/data" }
  params := []
  outputs := {}
  scheduler := none
  submission := none
  assignment := none
  nativePayload := none
  leaseExpiresAt := 9

/-- A worker that has both. -/
def pathWorker : WorkerHost where
  cwd := []
  serves _ := {}
  unzip _ := .ok []
  safeDump _ := .ok []
  iterdir _ _ := []
  entries _ _ _ member := absurd member List.not_mem_nil
  emptyRefused := false
  floats := zeroText
  sha256 _ := "digest"

def pathTree : Tree := fun place =>
  if place = ["p.yaml".toList] then some (.file [1]) else if place = ["data".toList] then some .directory else none

theorem submitted_run_paths : ∃ spec after,
    materialize pathWorker pathTask (.parse "/work".toList) pathTree = (.ok spec, after) ∧
      ∀ deed ∈ (main plainHost ⟨"ws", "out", false⟩ spec {}).2.deeds, DeedSubmitted pathWorker
        ((PurePath.parse "/work".toList).child "inputs") after ⟨"ws", "out", false⟩ pathTask deed := by
  have prepared : ∃ spec after,
      materialize pathWorker pathTask (.parse "/work".toList) pathTree = (.ok spec, after) := ⟨_, _, rfl⟩
  obtain ⟨spec, after, prepared⟩ := prepared
  exact ⟨spec, after, prepared, submitted_run pathWorker plainHost ⟨"ws", "out", false⟩ pathTask _ _ after spec prepared⟩

end
end N4Cluster
