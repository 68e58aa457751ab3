import N4Cluster.Server.Views

/-! A client that polls a job until it has ended. What `wait` returns is the end: the status,
the counts, the ranking and the errors are those of every later answer. -/
namespace N4Cluster
open Relational Transactional Relation Interleave

variable {P : Platform} {config : ServerConfig} {p q : ServerPool} {jobId : JobId} {view : JobView}

/-! ## Counts -/

theorem tallyTask_pending {req : JobRequest} {tally tally' : Tally} {row : TaskRow}
    (ran : P.tallyTask req tally row = .ok tally') (terminal : row.status.terminal = true) :
    tally'.agg.numRunning = tally.agg.numRunning ∧ tally'.agg.numQueued = tally.agg.numQueued ∧
      tally'.agg.numTasks = tally.agg.numTasks := by
  have counted : (tally.agg.countTask row).numRunning = tally.agg.numRunning ∧
      (tally.agg.countTask row).numQueued = tally.agg.numQueued ∧
      (tally.agg.countTask row).numTasks = tally.agg.numTasks := by
    unfold JobAggregate.countTask
    cases status : row.status with
    | succeeded | failed | cancelled => exact ⟨rfl, rfl, rfl⟩
    | queued | leased | running | lost =>
      rw [status] at terminal
      contradiction
  unfold Platform.tallyTask at ran
  dsimp only at ran
  split at ran
  · simp only [bind, Except.bind] at ran
    split at ran
    · contradiction
    · split at ran
      · contradiction
      · split at ran <;> cases ran <;> exact counted
  · cases ran
    exact counted

theorem tally_ended {req : JobRequest} {tasks : List TaskRow} {agg : JobAggregate}
    (ran : P.tally req tasks = .ok agg) (ended : ∀ row ∈ tasks, row.status.terminal = true) :
    agg.numRunning = 0 ∧ agg.numQueued = 0 ∧ agg.numTasks = tasks.length := by
  have folds (tally tally' : Tally) (folded : tasks.foldlM (P.tallyTask req) tally = .ok tally') :
      tally'.agg.numRunning = tally.agg.numRunning ∧ tally'.agg.numQueued = tally.agg.numQueued ∧
        tally'.agg.numTasks = tally.agg.numTasks := by
    clear ran
    induction tasks generalizing tally with
    | nil =>
      cases folded
      exact ⟨rfl, rfl, rfl⟩
    | cons row rest ih =>
      simp only [List.foldlM_cons, bind, Except.bind] at folded
      split at folded
      · contradiction
      · rename_i next stepped
        have here := tallyTask_pending stepped (ended row List.mem_cons_self)
        have later := ih (fun other member => ended other (List.mem_cons_of_mem _ member)) next folded
        exact ⟨later.1.trans here.1, later.2.1.trans here.2.1, later.2.2.trans here.2.2⟩
  simp only [Platform.tally, bind, Except.bind] at ran
  split at ran
  · contradiction
  · rename_i tally folded
    split at ran
    · contradiction
    · cases ran
      exact folds _ _ folded

/-! ## Polling -/

namespace ClusterClient

/-- `get_job`. -/
def getJob (P : Platform) (jobId : JobId) : Prog JobView := do
  match ← Route.getJob P jobId with
  | .job view => return view
  | _ => raiseAt .route (.validationError "JobView")

/-- How a `wait` has ended so far. -/
inductive Waited where
  | done (view : JobView)
  | timedOut (status : JobStatus)
  | polling

/-- `wait`, told at each poll whether the timeout has passed by then. -/
def wait (P : Platform) (jobId : JobId) : List Bool → Prog Waited
  | [] => return .polling
  | expired :: polls => do
    let view ← getJob P jobId
    if view.status.terminal then return .done view
    else if expired then return .timedOut view.status
    else wait P jobId polls

end ClusterClient

theorem looked_getJob (before : System.Reaches (server P config) (server P config).Lawful started p)
    (looks : Looks P config p (ClusterClient.getJob P jobId) q (.ok view)) :
    ∃ u v row req agg, Viewed P config p jobId q view u v row req agg := by
  obtain ⟨reply, q', looks, rest⟩ | ⟨_, _, failed⟩ := System.Observes.bind_cases looks
  · obtain ⟨view', u, v, row, req, agg, rfl, viewed⟩ := looked_view before looks
    cases rest
    exact ⟨u, v, row, req, agg, viewed⟩
  · cases failed

/-- A `wait` that is over has seen a terminal view at the last. -/
theorem waited_done {polls : List Bool} (looks : Looks P config p (ClusterClient.wait P jobId polls) q (.ok (.done view))) :
    view.status.terminal = true ∧ ∃ u, System.Reaches (server P config) (server P config).Lawful p u ∧
      Looks P config u (ClusterClient.getJob P jobId) q (.ok view) := by
  induction polls generalizing p with
  | nil => cases looks
  | cons expired polls ih =>
    obtain ⟨seen, u, polled, rest⟩ | ⟨_, _, failed⟩ := System.Observes.bind_cases looks
    · split at rest
      · rename_i terminal
        cases rest
        exact ⟨terminal, p, .refl p, polled⟩
      · split at rest
        · cases rest
        · obtain ⟨terminal, w, later, last⟩ := ih rest
          exact ⟨terminal, w, polled.reaches.trans later, last⟩
    · cases failed

/-- Whatever goes on at the server while a client polls and afterwards: what `wait` returns is
terminal with no task of the job queued or running, the job has this status in every later state,
its tasks are counted as they will always be, and every later `get_job` agrees with it. -/
theorem wait_final (before : System.Reaches (server P config) (server P config).Lawful started p) {polls : List Bool}
    (waited : Looks P config p (ClusterClient.wait P jobId polls) q (.ok (.done view))) :
    view.status.terminal = true ∧ view.aggregate.numRunning = 0 ∧ view.aggregate.numQueued = 0 ∧
    ∀ r, System.Reaches (server P config) (server P config).Lawful q r →
      r.store.live.jobStatus jobId = some view.status ∧ r.store.live.AllTerminal jobId ∧
      (r.store.live.tasksOf jobId).length = view.aggregate.numTasks ∧
      (r.store.live.tasksOf jobId).countP (fun task => task.status = .succeeded) = view.aggregate.numSucceeded ∧
      ∀ t view', Looks P config r (ClusterClient.getJob P jobId) t (.ok view') → view'.settled = view.settled := by
  obtain ⟨terminal, u₀, polled, looks⟩ := waited_done waited
  replace before := before.trans polled
  obtain ⟨u, v, row, req, agg, viewed⟩ := looked_getJob before looks
  have agrees {r t u' v' : ServerPool} {view' : JobView} {row' : JobRow} {req' : JobRequest} {agg' : JobAggregate}
      (later : System.Reaches (server P config) (server P config).Lawful q r)
      (viewed' : Viewed P config r jobId t view' u' v' row' req' agg') : view'.settled = view.settled :=
    viewed.agree before { viewed' with first := later.trans viewed'.first } terminal
  obtain ⟨first, second, third, found, reloads, tallied, best, rfl⟩ := viewed
  replace terminal : row.status.terminal = true := terminal
  have atRow := before.trans first
  have ended := run_ended atRow second found terminal
  obtain ⟨running, queued, total⟩ := tally_ended tallied (List.all_eq_true.mp (tasksOf_terminal.mpr ended.all))
  refine ⟨terminal, running, queued, fun r later => ?_⟩
  have still := run_ended atRow ((second.trans third).trans later) found terminal
  obtain ⟨row', held, same⟩ := still.shown
  have status : row'.shown.status = row.shown.status := by rw [same]
  rw [still.tasks, ← ended.tasks]
  refine ⟨?_, still.all, total.symm, (tally_succeeded tallied).symm, fun t view' shows => ?_⟩
  · rw [Db.jobStatus, held]
    exact congrArg some status
  · obtain ⟨u', v', row', req', agg', viewed'⟩ := looked_getJob (atRow.trans ((second.trans third).trans later)) shows
    exact agrees later viewed'

def ClusterClient.Waited.job : ClusterClient.Waited → Option JobView
  | .done view => some view
  | .timedOut _ | .polling => none

/-- The worker has reported, so the first poll is the last. -/
theorem wait_final_reported : ∃ (p : ServerPool) (view : JobView),
    System.Reaches (server .plain {}) (server .plain {}).Lawful started p ∧
    Looks .plain {} p (ClusterClient.wait .plain "job_0" [false]) p (.ok (.done view)) ∧
    view.status = .succeeded ∧ view.aggregate.numTasks = 1 ∧
    ∀ r, System.Reaches (server .plain {}) (server .plain {}).Lawful p r →
      r.store.live.jobStatus "job_0" = some .succeeded := by
  have played : ((server .plain {}).play (server .plain {}).Lawful reportedTurns started).any (fun p =>
      decide (((((ClusterClient.wait .plain "job_0" [false]).ask fun c => looking .plain { now := 9 } c p.store).toOption.bind
        ClusterClient.Waited.job).map fun view => (view.status, view.aggregate.numTasks)) =
        some (JobStatus.succeeded, 1))) = true := by decide +kernel
  obtain ⟨p, run, facts⟩ := System.play_any played
  obtain ⟨view, seen, shows⟩ := Option.map_eq_some_iff.mp (of_decide_eq_true facts)
  obtain ⟨waited, answered, done⟩ := Option.bind_eq_some_iff.mp seen
  obtain ⟨status, tasks⟩ := Prod.mk.inj shows
  have asked : Looks .plain {} p (ClusterClient.wait .plain "job_0" [false]) p (.ok (.done view)) := by
    cases waited with
    | done found =>
      cases done
      exact System.Observes.ask_some answered
    | timedOut | polling => cases done
  refine ⟨p, view, run, asked, status, tasks, fun r later => ?_⟩
  rw [← status]
  exact ((wait_final run asked).2.2.2 r later).1

end N4Cluster
