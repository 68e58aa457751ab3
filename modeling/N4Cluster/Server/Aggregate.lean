import N4Cluster.Server.Database

/-! The aggregate of a job, computed from one listing of its tasks: counts,
errors, the ranking under the job's metric and the best task. -/
namespace N4Cluster

def metricOf (value : Option PyFloat) : MetricValue :=
  match value with
  | some x => .number x
  | none => .none

/-- `getattr(result.metrics, name, None)`. -/
def Platform.getattr (P : Platform) (m : RunMetrics) (name : String) : MetricValue :=
  match name with
  | "best_score" => metricOf m.bestScore
  | "best_rmse" => metricOf m.bestRmse
  | "best_r2" => metricOf m.bestR2
  | "best_mae" => metricOf m.bestMae
  | "best_accuracy" => metricOf m.bestAccuracy
  | _ => if (P.metricAttr name).isSome then .attribute name m else .none

/-- The fields of `RunMetrics`. -/
def metricFields : List String :=
  ["best_score", "best_rmse", "best_r2", "best_mae", "best_accuracy"]

/-- A non-finite metric counts as absent. -/
def MetricValue.sanitize : MetricValue → MetricValue
  | .number x => if x.isFinite then .number x else .none
  | value => value

def RunMetrics.sanitize (m : RunMetrics) : RunMetrics where
  bestScore := m.bestScore.filter PyFloat.isFinite
  bestRmse := m.bestRmse.filter PyFloat.isFinite
  bestR2 := m.bestR2.filter PyFloat.isFinite
  bestMae := m.bestMae.filter PyFloat.isFinite
  bestAccuracy := m.bestAccuracy.filter PyFloat.isFinite

/-- `a < b` for two values found under one name. -/
def Platform.metricLt (P : Platform) (a b : MetricValue) : Except PyErr Bool :=
  match a, b with
  | .number x, .number y => .ok (x.lt y)
  | .attribute name m, .attribute _ n =>
    match (P.metricAttr name).bind MetricAttr.less with
    | some less => .ok (less m n)
    | none => .error (.typeError "'<' not supported")
  | _, _ => .error (.typeError "'<' not supported")

def Platform.aggregateMetricBetter (P : Platform) (candidate current : MetricValue)
    (mode : RankMode) : Except PyErr Bool :=
  match candidate, current with
  | .none, _ => .ok false
  | _, .none => .ok true
  | _, _ =>
    match mode with
    | .min => P.metricLt candidate current
    | .max => P.metricLt current candidate

/-- What the loop over the tasks accumulates. -/
structure Tally where
  agg : JobAggregate := {}
  bestValue : MetricValue := .none
  bestTaskId : Option TaskId := none
  ranking : List RankingEntry := []

/-- The counting part of one turn. -/
def JobAggregate.countTask (agg : JobAggregate) (row : TaskRow) : JobAggregate :=
  match row.status with
  | .succeeded => { agg with numSucceeded := agg.numSucceeded + 1 }
  | .failed =>
    { agg with
      numFailed := agg.numFailed + 1
      errors := if truthy row.error then agg.errors ++ [(row.id, row.error.getD "")] else agg.errors }
  | .running => { agg with numRunning := agg.numRunning + 1 }
  | .queued | .leased => { agg with numQueued := agg.numQueued + 1 }
  | .lost | .cancelled => agg

def rankingEntry (req : JobRequest) (row : TaskRow) (value : MetricValue) (metrics : RunMetrics) :
    RankingEntry where
  taskId := if req.rankMetric = "task_id" then none else some row.id
  dataset := if req.rankMetric = "dataset" then none else row.datasetLabel
  pipeline := if req.rankMetric = "pipeline" then none else row.pipelineLabel
  value := value
  metrics := metrics.sanitize

def Platform.tallyTask (P : Platform) (req : JobRequest) (tally : Tally) (row : TaskRow) :
    Except PyErr Tally := do
  let agg := tally.agg.countTask row
  match row.status, row.result with
  | .succeeded, some stored =>
    let result ← P.reloadResult stored
    let value := (P.getattr result.metrics req.rankMetric).sanitize
    let ranking := tally.ranking ++ [rankingEntry req row value result.metrics]
    if ← P.aggregateMetricBetter value tally.bestValue req.rankMode then
      return ⟨agg, value, some row.id, ranking⟩
    else return ⟨agg, tally.bestValue, tally.bestTaskId, ranking⟩
  | _, _ => return { tally with agg := agg }

/-- What `_rank_key` reads of an entry; a metric called `metrics` is the entry's table. -/
inductive RankValue where
  | metric (value : MetricValue)
  | table (metrics : RunMetrics)

def RankingEntry.rankValue (req : JobRequest) (entry : RankingEntry) : RankValue :=
  if req.rankMetric = "metrics" then .table entry.metrics else .metric entry.value

/-- `_rank_key`: under `max` the value is negated. -/
def Platform.rankKey (P : Platform) (mode : RankMode) (value : RankValue) : Except PyErr Unit :=
  match mode, value with
  | .min, _ | .max, .metric .none | .max, .metric (.number _) => .ok ()
  | .max, .metric (.attribute name _) =>
    if (P.metricAttr name).any MetricAttr.negates then .ok ()
    else .error (.typeError "bad operand type for unary -")
  | .max, .table _ => .error (.typeError "bad operand type for unary -")

/-- `_rank_key(a) < _rank_key(b)`; absent values come last. -/
def Platform.rankLt (P : Platform) (mode : RankMode) (a b : RankValue) : Except PyErr Bool :=
  match a, b with
  | .metric .none, _ => .ok false
  | _, .metric .none => .ok true
  | .metric x, .metric y =>
    match mode with
    | .min => P.metricLt x y
    | .max => P.metricLt y x
  | .table m, .table n => if m = n then .ok false else .error (.typeError "'<' not supported")
  | _, _ => .error (.typeError "'<' not supported")

/-- `ranking.sort(key=_rank_key)`. Sorting compares some pair that cannot be
compared whenever there is one. -/
def Platform.sortRanking (P : Platform) (req : JobRequest) (ranking : List RankingEntry) :
    Except PyErr (List RankingEntry) := do
  ranking.forM fun entry => P.rankKey req.rankMode (entry.rankValue req)
  let lt (a b : RankingEntry) := P.rankLt req.rankMode (a.rankValue req) (b.rankValue req)
  if ranking.all fun a => ranking.all fun b => a.taskId = b.taskId || (lt a b).isOk then
    return ranking.insertionSort fun a b => (lt b a).toOption ≠ some true
  else .error (.typeError "'<' not supported")

/-- The part of `_build_aggregate` between its reads. -/
def Platform.tally (P : Platform) (req : JobRequest) (tasks : List TaskRow) :
    Except PyErr JobAggregate := do
  let tally ← tasks.foldlM (P.tallyTask req) { agg := { numTasks := tasks.length } }
  let ranking ← P.sortRanking req tally.ranking
  return { tally.agg with
    ranking := ranking
    bestMetric := tally.bestValue
    bestTaskId := tally.bestTaskId }

def bestModelRoles : List String := ["model", "best_model"]

def bestModel (taskId : TaskId) (artifacts : List LinkedArtifact) : Option ArtifactId :=
  (artifacts.find? fun a => a.taskId = taskId && bestModelRoles.contains a.role).map fun a =>
    a.artifact.id

end N4Cluster
