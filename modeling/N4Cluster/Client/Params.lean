import N4Cluster.Base.Dictionary
import N4Cluster.Base.Fallible
import N4Cluster.Worker.Handoff

/-! The parameters of a run: how the client translates the caller's words for them, and how the
runner translates them back for the call of `nirs4all.run`. -/
namespace N4Cluster
open Dictionary Fallible

/-- What Python makes of values that are not of the expected type and of the text of a path, and
the name it has for `nirs4all.run` in errors. -/
structure Builtins where
  int : Json → Except PyErr Int
  str : Json → String
  dict : Json → Except PyErr Dict
  path : String → String
  callee : String

namespace Builtins

def intOf (py : Builtins) : Json → Except PyErr Int
  | .int n => .ok n
  | value => py.int value

def strOf (py : Builtins) : Json → String
  | .str text => text
  | value => py.str value

def dictOf (py : Builtins) : Json → Except PyErr Dict
  | .obj fields => .ok fields
  | value => py.dict value

end Builtins

/-- A value that is not `None`. -/
def notNone (value : Option Json) : Option Json := value.filter fun value => !value.isNull

/-! ## The client -/

def chooseInnerNJobs (current : Option Int) (candidate : Int) (source : String) : Except PyErr Int :=
  if candidate < 1 then .error (.valueError s!"{source} must be >= 1")
  else match current with
    | none => .ok candidate
    | some value =>
      if value ≠ candidate then
        .error (.valueError s!"conflicting nirs4all.run parallelism values: {value} vs {candidate} from {source}")
      else .ok candidate

/-- The choice if there is a candidate. -/
def considerNJobs (current candidate : Option Int) (source : String) : Except PyErr (Option Int) :=
  match candidate with
  | none => .ok current
  | some candidate => (chooseInnerNJobs current candidate source).map some

structure RunParams where
  params : Dict
  translated : List (String × String)
  omitted : List String

section
variable (py : Builtins)

/-- Both workspaces are given and differ as text. -/
def workspacesDiffer (workspacePath : Option String) (paramsWorkspace : Option Json) : Bool :=
  workspacePath.any fun path => paramsWorkspace.any fun value => path ≠ py.strOf value

/-- The choice among what is given, in the order in which it is looked at. -/
def requestedInnerNJobs (nJobs innerNJobs : Option Int) (paramsNJobs paramsInnerNJobs : Option Json) :
    Except PyErr (Option Int) := do
  let requested ← considerNJobs innerNJobs nJobs "n_jobs"
  let requested ← considerNJobs requested (← paramsNJobs.mapM py.intOf) "params['n_jobs']"
  let requested ← considerNJobs requested (← paramsInnerNJobs.mapM py.intOf) "params['inner_n_jobs']"
  if requested.any (· < 1) then .error (.valueError "inner_n_jobs must be >= 1") else .ok requested

/-- `_normalize_run_params`; the path is given as its text. -/
def normalizeRunParams (params : Option Dict) (nJobs innerNJobs : Option Int)
    (workspacePath : Option String) : Except PyErr RunParams :=
  let runParams := params.getD []
  let paramsWorkspace := notNone (runParams.lookup "workspace_path")
  let runParams := pop runParams "workspace_path"
  let omitted := if workspacePath.isSome || paramsWorkspace.isSome then ["workspace_path"] else []
  if workspacesDiffer py workspacePath paramsWorkspace then
    .error (.valueError "workspace_path was provided both as an argument and in params with different values")
  else do
    let paramsNJobs := notNone (runParams.lookup "n_jobs")
    let runParams := pop runParams "n_jobs"
    let paramsInnerNJobs := notNone (runParams.lookup "inner_n_jobs")
    let runParams := pop runParams "inner_n_jobs"
    let requested ← requestedInnerNJobs py nJobs innerNJobs paramsNJobs paramsInnerNJobs
    let translated := if nJobs.isSome || paramsNJobs.isSome then [("n_jobs", "inner_n_jobs")] else []
    match requested with
    | none => return ⟨runParams, translated, omitted⟩
    | some inner => return ⟨put runParams "inner_n_jobs" (.int inner), translated, omitted⟩

/-! ## The runner -/

/-- `value == 1`. -/
def Json.isOne : Json → Bool
  | .int n => n = 1
  | .bool value => value
  | .float value => value = .fin 1
  | _ => false

/-- The keyword arguments of `nirs4all.run`: three by name, and the parameters. -/
structure RunCall (P D : Type) where
  pipeline : P
  dataset : D
  workspacePath : String
  params : Dict

/-- `dict(spec.get("params") or {})`. -/
def specParams (spec : Dict) : Except PyErr Dict :=
  match (spec.lookup "params").filter Json.truthy with
  | none => .ok []
  | some value => py.dictOf value

/-- The parameters that `main` passes on. -/
def runnerParams (params : Dict) : Dict :=
  let inner := (params.lookup "inner_n_jobs").getD (.int 1)
  let params := pop params "inner_n_jobs"
  let params := setDefault params "verbose" (.int 0)
  let params := setDefault params "save_charts" (.bool false)
  let params := pop params "workspace_path"
  let params := pop params "n_jobs"
  if inner.isOne then params else put params "n_jobs" inner

/-- What `main` calls `nirs4all.run` with, after it has loaded the pipeline and the dataset. -/
def runCall {P D : Type} (spec : Dict) (pipeline : P) (dataset : D) (workspace : String) :
    Except PyErr (RunCall P D) := do
  let params := runnerParams (← specParams py spec)
  if has params "pipeline" then
    .error (.typeError (py.callee ++ "() got multiple values for keyword argument 'pipeline'"))
  else if has params "dataset" then
    .error (.typeError (py.callee ++ "() got multiple values for keyword argument 'dataset'"))
  else .ok ⟨pipeline, dataset, py.path workspace, params⟩

end

/-! ## What is given -/

/-- The integer under a key, if there is one. -/
def intAt (params : Dict) (key : String) : Option Int :=
  match params.lookup key with
  | some (.int n) => some n
  | _ => none

/-- All the values given for one setting. -/
def parallelism (params : Dict) (nJobs innerNJobs : Option Int) : List Int :=
  innerNJobs.toList ++ nJobs.toList ++ (intAt params "n_jobs").toList ++ (intAt params "inner_n_jobs").toList

/-- The values are equal and at least one. -/
def Agreed (counts : List Int) : Prop := (∀ a ∈ counts, ∀ b ∈ counts, a = b) ∧ ∀ a ∈ counts, 1 ≤ a

def Whole (params : Dict) (key : String) : Prop :=
  ∀ value, params.lookup key = some value → value = .null ∨ ∃ n, value = .int n

/-- What the runner adds where the caller says nothing. -/
def runDefaults : Dict := [("verbose", .int 0), ("save_charts", .bool false)]

variable {py : Builtins} {params : Dict} {nJobs innerNJobs : Option Int}

theorem int_read {key : String} (whole : Whole params key) :
    (notNone (params.lookup key)).mapM py.intOf = .ok (intAt params key) := by
  rw [intAt]
  cases found : params.lookup key with
  | none => rfl
  | some value =>
    obtain rfl | ⟨n, rfl⟩ := whole value found
    · rfl
    · rfl

theorem consider_iff {current candidate chosen : Option Int} {source : String} :
    considerNJobs current candidate source = .ok chosen ↔
      (∀ n ∈ candidate, 1 ≤ n ∧ ∀ m ∈ current, m = n) ∧ chosen = candidate.or current := by
  cases candidate with
  | none => simp [considerNJobs, eq_comm]
  | some n =>
    rw [considerNJobs, chooseInnerNJobs.eq_def]
    by_cases low : n < 1
    · rw [if_pos low]
      constructor
      · intro failed
        cases failed
      · rintro ⟨all, -⟩
        have high := (all n rfl).1
        omega
    · rw [if_neg low]
      cases current with
      | none =>
        have high : 1 ≤ n := by omega
        simp [high, Except.map, eq_comm]
      | some m =>
        have high : 1 ≤ n := by omega
        by_cases same : m = n
        · simp [same, high, Except.map, eq_comm]
        · simp [same, Except.map]

/-- The choice succeeds if everything given agrees, and is then what is given. -/
theorem requestedInner_iff {chosen : Option Int} (whole : Whole params "n_jobs") (inner : Whole params "inner_n_jobs") :
    requestedInnerNJobs py nJobs innerNJobs (notNone (params.lookup "n_jobs"))
        (notNone (params.lookup "inner_n_jobs")) = .ok chosen ↔
      Agreed (parallelism params nJobs innerNJobs) ∧ chosen = (parallelism params nJobs innerNJobs).head? := by
  rw [requestedInnerNJobs, int_read whole, int_read inner]
  simp only [bind_ok_iff, consider_iff, check_ok_iff, Except.ok.injEq, parallelism, Agreed]
  generalize intAt params "n_jobs" = a
  generalize intAt params "inner_n_jobs" = b
  -- each of the four is given or not
  cases innerNJobs <;> cases nJobs <;> cases a <;> cases b <;> simp <;> grind

/-- The parameters without the words that are translated or left out. -/
def untranslated (params : Dict) : Dict := pop (pop (pop params "workspace_path") "n_jobs") "inner_n_jobs"

theorem lookup_untranslated {key : String} : (untranslated params).lookup key =
    if key ∈ ["inner_n_jobs", "n_jobs", "workspace_path"] then none else params.lookup key := by
  rw [untranslated, lookup_pop, lookup_pop, lookup_pop]
  by_cases one : key = "inner_n_jobs"
  · simp [one]
  · by_cases other : key = "n_jobs"
    · simp [other]
    · simp [one, other]

/-- The client translates if the workspaces agree and the counts agree, and puts the common count
under the runner's word. -/
theorem normalize_iff {params : Option Dict} {workspacePath : Option String} {made : RunParams}
    (whole : Whole (params.getD []) "n_jobs") (inner : Whole (params.getD []) "inner_n_jobs") :
    normalizeRunParams py params nJobs innerNJobs workspacePath = .ok made ↔
      workspacesDiffer py workspacePath (notNone ((params.getD []).lookup "workspace_path")) = false ∧
        Agreed (parallelism (params.getD []) nJobs innerNJobs) ∧
        made =
          { params := (parallelism (params.getD []) nJobs innerNJobs).head?.elim (untranslated (params.getD []))
              fun k => put (untranslated (params.getD [])) "inner_n_jobs" (.int k)
            translated := if nJobs.isSome || (notNone ((params.getD []).lookup "n_jobs")).isSome then
              [("n_jobs", "inner_n_jobs")] else []
            omitted := if workspacePath.isSome || (notNone ((params.getD []).lookup "workspace_path")).isSome then
              ["workspace_path"] else [] } := by
  have first : (pop (params.getD []) "workspace_path").lookup "n_jobs" = (params.getD []).lookup "n_jobs" := by
    rw [lookup_pop, if_neg (by decide)]
  have second : (pop (pop (params.getD []) "workspace_path") "n_jobs").lookup "inner_n_jobs" =
      (params.getD []).lookup "inner_n_jobs" := by
    rw [lookup_pop, if_neg (by decide), lookup_pop, if_neg (by decide)]
  simp only [normalizeRunParams, first, second, check_ok_iff, bind_ok_iff, requestedInner_iff whole inner,
    Bool.not_eq_true, untranslated]
  constructor
  · rintro ⟨same, chosen, ⟨agree, rfl⟩, returned⟩
    refine ⟨same, agree, ?_⟩
    cases head : (parallelism (params.getD []) nJobs innerNJobs).head? with
    | none =>
      rw [head] at returned
      exact (Except.ok.inj returned).symm
    | some k =>
      rw [head] at returned
      exact (Except.ok.inj returned).symm
  · rintro ⟨same, agree, rfl⟩
    refine ⟨same, _, ⟨agree, rfl⟩, ?_⟩
    cases (parallelism (params.getD []) nJobs innerNJobs).head? with
    | none => rfl
    | some k => rfl

/-- What the client makes of the parameters holds the choice, and the rest as it was given. -/
structure Translated (params : Dict) (nJobs innerNJobs : Option Int) (made : Dict) : Prop where
  choice : made.lookup "inner_n_jobs" = (parallelism params nJobs innerNJobs).head?.map Json.int
  rest : ∀ key, key ≠ "inner_n_jobs" → made.lookup key = (untranslated params).lookup key
  apart : (keys params).Nodup → (keys made).Nodup

theorem normalize_translated {params : Option Dict} {workspacePath : Option String} {made : RunParams}
    (whole : Whole (params.getD []) "n_jobs") (inner : Whole (params.getD []) "inner_n_jobs")
    (ran : normalizeRunParams py params nJobs innerNJobs workspacePath = .ok made) :
    Translated (params.getD []) nJobs innerNJobs made.params := by
  obtain ⟨-, -, rfl⟩ := (normalize_iff whole inner).mp ran
  have fresh : has (untranslated (params.getD [])) "inner_n_jobs" = false := has_pop _ _
  have apart (once : (keys (params.getD [])).Nodup) : (keys (untranslated (params.getD []))).Nodup :=
    keys_pop (keys_pop (keys_pop once))
  cases chosen : (parallelism (params.getD []) nJobs innerNJobs).head? with
  | none =>
    refine ⟨?_, fun key _ => rfl, apart⟩
    rw [chosen]
    exact has_lookup.mp fresh
  | some k =>
    refine ⟨?_, ?_, fun once => keys_put_fresh (apart once) fresh⟩
    · rw [chosen]
      exact (lookup_put_fresh fresh).trans (if_pos rfl)
    · intro key other
      exact (lookup_put_fresh fresh).trans (if_neg other)

theorem spec_params (task : TaskPayload) (pipelineSpec datasetSpec : Json) (fingerprint : String) :
    specParams py (buildRunnerSpec task pipelineSpec datasetSpec fingerprint) = .ok task.params := by
  have found : (buildRunnerSpec task pipelineSpec datasetSpec fingerprint).lookup "params" =
      some (.obj task.params) := rfl
  rw [specParams, found]
  cases task.params with
  | nil => rfl
  | cons entry rest => rfl

/-- What is left once the runner has taken its own words out and put its defaults in. -/
theorem lookup_defaulted {made : Dict} (translated : Translated params nJobs innerNJobs made) (key : String) :
    (pop (pop (setDefault (setDefault (pop made "inner_n_jobs") "verbose" (.int 0)) "save_charts" (.bool false))
        "workspace_path") "n_jobs").lookup key =
      if key = "n_jobs" ∨ key = "inner_n_jobs" ∨ key = "workspace_path" then none
      else (params.lookup key).or (runDefaults.lookup key) := by
  rw [lookup_pop, lookup_pop, lookup_setDefault, lookup_setDefault, lookup_pop]
  by_cases count : key = "n_jobs"
  · simp [count]
  by_cases place : key = "workspace_path"
  · simp [place]
  by_cases inner : key = "inner_n_jobs"
  · simp [inner]
  · have defaulted : runDefaults.lookup key = (if key = "verbose" then some (.int 0) else none).or
        (if key = "save_charts" then some (.bool false) else none) := by
      by_cases verbose : key = "verbose"
      · simp [verbose, runDefaults]
      · by_cases charts : key = "save_charts"
        · simp [charts, runDefaults, List.lookup_cons]
        · simp [verbose, charts, runDefaults, List.lookup_cons, beq_eq_false_iff_ne.mpr verbose,
            beq_eq_false_iff_ne.mpr charts]
    rw [translated.rest key inner, lookup_untranslated, defaulted]
    simp [count, place, inner, Option.or_assoc]

/-- What the runner passes on of what the client made. -/
theorem runnerParams_lookup {made : Dict} (translated : Translated params nJobs innerNJobs made) (key : String) :
    (runnerParams made).lookup key =
      if key = "n_jobs" then ((parallelism params nJobs innerNJobs).head?.filter (· ≠ 1)).map Json.int
      else if key = "inner_n_jobs" ∨ key = "workspace_path" then none
      else (params.lookup key).or (runDefaults.lookup key) := by
  have left := lookup_defaulted translated key
  rw [runnerParams, translated.choice]
  cases chosen : (parallelism params nJobs innerNJobs).head? with
  | none =>
    change List.lookup key (pop _ _) = _
    rw [left]
    by_cases count : key = "n_jobs"
    · simp [count]
    · simp [count]
  | some k =>
    by_cases one : k = 1
    · subst one
      change List.lookup key (pop _ _) = _
      rw [left]
      by_cases count : key = "n_jobs"
      · simp [count, Option.filter]
      · simp [count]
    · have other : (Option.getD (Option.map Json.int (some k)) (.int 1)).isOne = false := by
        simp [Json.isOne, one]
      rw [other, if_neg Bool.false_ne_true, lookup_put_fresh (has_pop _ _), left]
      by_cases count : key = "n_jobs"
      · simp [count, one, Option.filter]
      · simp [count]

theorem runnerParams_keys {made : Dict} (apart : (keys made).Nodup) : (keys (runnerParams made)).Nodup := by
  rw [runnerParams]
  split
  · exact keys_pop (keys_pop (keys_setDefault (keys_setDefault (keys_pop apart))))
  · apply keys_put_fresh
    · exact keys_pop (keys_pop (keys_setDefault (keys_setDefault (keys_pop apart))))
    · exact has_pop _ _

/-- The client accepts exactly parameters that agree, and `nirs4all.run` is then called with the
caller's parameters, the defaults, the task's workspace, and `n_jobs` for a common count but one. -/
theorem params_carried (py : Builtins) (params : Option Dict) (nJobs innerNJobs : Option Int)
    (workspacePath : Option String) (apart : (keys (params.getD [])).Nodup)
    (free : "pipeline" ∉ keys (params.getD []) ∧ "dataset" ∉ keys (params.getD []))
    (whole : Whole (params.getD []) "n_jobs" ∧ Whole (params.getD []) "inner_n_jobs") :
    let given := params.getD []
    let counts := parallelism given nJobs innerNJobs
    ((∃ made, normalizeRunParams py params nJobs innerNJobs workspacePath = .ok made) ↔
      (∀ path value, workspacePath = some path → notNone (given.lookup "workspace_path") = some value →
        path = py.strOf value) ∧
      (∀ a ∈ counts, ∀ b ∈ counts, a = b) ∧ ∀ a ∈ counts, 1 ≤ a) ∧
    ∀ made, normalizeRunParams py params nJobs innerNJobs workspacePath = .ok made →
      ∀ (task : TaskPayload) pipelineSpec datasetSpec fingerprint (P D : Type) (pipeline : P) (dataset : D) workspace,
        task.params = made.params →
        ∃ call, runCall py (buildRunnerSpec task pipelineSpec datasetSpec fingerprint) pipeline dataset workspace =
            .ok call ∧
          call.pipeline = pipeline ∧ call.dataset = dataset ∧ call.workspacePath = py.path workspace ∧
          (keys call.params).Nodup ∧
          ∀ key, call.params.lookup key =
            if key = "n_jobs" then (counts.head?.filter (· ≠ 1)).map Json.int
            else if key = "inner_n_jobs" ∨ key = "workspace_path" then none
            else (given.lookup key).or (runDefaults.lookup key) := by
  intro given counts
  constructor
  · have differ : workspacesDiffer py workspacePath (notNone (given.lookup "workspace_path")) = false ↔
        ∀ path value, workspacePath = some path → notNone (given.lookup "workspace_path") = some value →
          path = py.strOf value := by
      cases workspacePath with
      | none => simp [workspacesDiffer]
      | some path =>
        cases notNone (given.lookup "workspace_path") with
        | none => simp [workspacesDiffer]
        | some value => simp [workspacesDiffer]
    rw [← differ]
    constructor
    · rintro ⟨made, ran⟩
      obtain ⟨same, agree, -⟩ := (normalize_iff whole.1 whole.2).mp ran
      exact ⟨same, agree⟩
    · rintro ⟨same, agree⟩
      exact ⟨_, (normalize_iff whole.1 whole.2).mpr ⟨same, agree, rfl⟩⟩
  · intro made ran task pipelineSpec datasetSpec fingerprint P D pipeline dataset workspace carries
    have translated := normalize_translated whole.1 whole.2 ran
    rw [← carries] at translated
    have found := runnerParams_lookup translated
    have absent (key : String) (missing : key ∉ keys given) (other : key ≠ "n_jobs")
        (silent : runDefaults.lookup key = none) : has (runnerParams task.params) key = false := by
      rw [has_lookup, found, if_neg other, silent, Option.or_none]
      split
      · rfl
      · exact has_lookup.mp (Bool.eq_false_iff.mpr fun present => missing (has_iff.mp present))
    refine ⟨⟨pipeline, dataset, py.path workspace, runnerParams task.params⟩, ?_, rfl, rfl, rfl,
      runnerParams_keys (translated.apart apart), found⟩
    rw [runCall, spec_params]
    change (if has (runnerParams task.params) "pipeline" = true then _ else _) = _
    rw [absent "pipeline" free.1 (by decide) rfl, absent "dataset" free.2 (by decide) rfl]
    rfl

/-- The same count given twice under different words reaches the run as one `n_jobs`. -/
theorem params_carried_three :
    let py : Builtins := ⟨fun _ => .error (.typeError ""), fun _ => "", fun _ => .error (.typeError ""), id, "run"⟩
    let made : Dict := [("random_state", .int 42), ("inner_n_jobs", .int 3)]
    let task : TaskPayload :=
      { taskId := "t", jobId := "j", type := "train", attempt := 1,
        pipeline := { kind := .path, path := some "p.yaml" },
        dataset := { kind := .sharedPath, path := some "d" },
        params := made, outputs := {}, scheduler := none, submission := none, assignment := none,
        nativePayload := none, leaseExpiresAt := 0 }
    normalizeRunParams py (some [("random_state", .int 42), ("n_jobs", .int 3)]) none (some 3) (some "/w") =
        .ok ⟨made, [("n_jobs", "inner_n_jobs")], ["workspace_path"]⟩ ∧
      ∃ call, runCall py (buildRunnerSpec task .null .null "") () () "/task" = .ok call ∧
        call.workspacePath = "/task" ∧ call.params.lookup "n_jobs" = some (.int 3) := by
  intro py made task
  have ran : normalizeRunParams py (some [("random_state", .int 42), ("n_jobs", .int 3)]) none (some 3) (some "/w") =
      .ok ⟨made, [("n_jobs", "inner_n_jobs")], ["workspace_path"]⟩ := rfl
  have whole : Whole [("random_state", .int 42), ("n_jobs", .int 3)] "n_jobs" ∧
      Whole [("random_state", .int 42), ("n_jobs", .int 3)] "inner_n_jobs" := by
    constructor
    · intro value found
      exact .inr ⟨3, (Option.some.inj found).symm⟩
    · intro value found
      cases found
  refine ⟨ran, ?_⟩
  obtain ⟨call, called, -, -, place, -, found⟩ :=
    (params_carried py (some [("random_state", .int 42), ("n_jobs", .int 3)]) none (some 3) (some "/w") (by decide)
      (by decide) whole).2 _ ran task .null .null "" Unit Unit () () "/task" rfl
  exact ⟨call, called, place, found "n_jobs"⟩

end N4Cluster
