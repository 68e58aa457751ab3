import N4Cluster.Server.Settlement

/-! The outcome written by a finalization: `succeeded` needs a succeeded task,
`failed` the absence of one. The count comes from the first reading of the tasks
and the decision from the second, so a success between the two is lost. -/
namespace N4Cluster
open Relational Transactional Relation Interleave

variable {P : Platform} {config : ServerConfig} {A : Assumptions} {p q : ServerPool} {l : Turn}

/-- In every step of every run a job becomes `succeeded` only with a succeeded task
and `failed` only without. -/
def OutcomesHold (P : Platform) (config : ServerConfig) (ok : ServerPool → Turn → Prop) : Prop :=
  ∀ p l q, System.Reaches (server P config) ok started p → ok p l →
    (server P config).take p l = some q → ∀ jobId,
      (p.store.live.jobStatus jobId ≠ some .succeeded → q.store.live.jobStatus jobId = some .succeeded →
        q.store.live.SomeSucceeded jobId) ∧
      (p.store.live.jobStatus jobId ≠ some .failed → q.store.live.jobStatus jobId = some .failed →
        ¬q.store.live.SomeSucceeded jobId)

theorem exec_outcomes {io : Io} {op : DbOp} {s : Session Db} {jobId : JobId} {status : JobStatus}
    (fair : Fair A s.live op) (before : s.live.jobStatus jobId ≠ some status)
    (after : (op.after P io s).live.jobStatus jobId = some status) (terminal : status.terminal = true)
    (chosen : status ≠ .cancelled) : op = .trySetJobStatus jobId status ∧
      (op.after P io s).live.tasks = s.live.tasks := by
  rcases exec_status_origin after with same | sets
  · exact False.elim (before same)
  · refine ⟨?_, exec_sets_tasks _ sets (terminal_chosen terminal)⟩
    have routed := fair.routed
    cases op with
    | trySetJobStatus k new =>
      obtain ⟨rfl, rfl⟩ := sets
      rfl
    | setJobStatus k new error =>
      obtain ⟨rfl, rfl⟩ := sets
      cases new <;> contradiction
    | leaseNextTask | createJob | createTasksForJob | createJobWithTasks =>
      subst sets
      contradiction
    | _ => contradiction

/-- No finalization that counted no succeeded task finds, at its second reading,
every task terminal and one succeeded. -/
def Consistent (p : ServerPool) : Turn → Prop
  | .sched i _ => ∀ c, p.waiting i = some c → ∀ jobId, c.recounts = some jobId →
    ¬(p.store.live.AllTerminal jobId ∧ p.store.live.SomeSucceeded jobId)
  | _ => True

/-- Finalizations are consistent. -/
def Assumptions.counting : Assumptions := ⟨False, True, False, False, False⟩

theorem consistent_allowed (lawful : (server P config).Lawful p l) (consistent : Consistent p l) :
    Allowed P config .counting p l := by
  refine ⟨lawful, nofun, fun _ i io c here waits => ?_, nofun, nofun, nofun, fun ends => ends.1.elim⟩
  subst here
  rintro ⟨jobId, recounts, both⟩
  exact consistent c waits jobId recounts both

theorem outcomes_hold (P : Platform) (config : ServerConfig) :
    OutcomesHold P config fun p l => (server P config).Lawful p l ∧ Consistent p l := by
  intro p l q run allowed stepped jobId
  have keeping := run_keeping (run.mono fun _ _ both => consistent_allowed both.1 both.2)
  have allowed := consistent_allowed allowed.1 allowed.2
  rcases keeping.cases allowed stepped with ⟨same, _⟩ | ⟨i, io, _, c, _, _, _, _, fair, rfl, _⟩
  · rw [same]
    exact ⟨fun other now => absurd now other, fun other now => absurd now other⟩
  · refine ⟨fun before after => ?_, fun before after => ?_⟩
    · obtain ⟨called, tasks⟩ := exec_outcomes (P := P) fair before after rfl nofun
      obtain ⟨taskId, r, found, rest⟩ := (fair.settles jobId .succeeded called).2.1 rfl
      exact ⟨taskId, r, tasks ▸ found, rest⟩
    · obtain ⟨called, tasks⟩ := exec_outcomes (P := P) fair before after rfl nofun
      rintro ⟨taskId, r, found, rest⟩
      exact ((fair.settles jobId .failed called).2.2 rfl).1 trivial ⟨taskId, r, tasks ▸ found, rest⟩

/-- A run without cancellations. -/
def Uncancelled : Turn → Prop
  | .spawn (.cancelJob _) => False
  | _ => True

instance : (l : Turn) → Decidable (Uncancelled l)
  | .spawn (.cancelJob _) => isFalse id
  | .spawn (.submitJob _ _) | .spawn (.registerWorker _ _) | .spawn (.heartbeat _ _)
  | .spawn (.lease _ _) | .spawn (.startTask _ _ _) | .spawn (.taskEvent _ _ _)
  | .spawn (.uploadInput _) | .spawn (.uploadArtifact _ _ _ _) | .spawn (.completeTask _ _ _ _ _)
  | .spawn (.failTask _ _ _ _ _) | .spawn (.reaperTick _) | .sched _ _ | .restart => isTrue trivial

instance (p : ServerPool) : (l : Turn) → Decidable (Consistent p l)
  | .sched i _ => inferInstanceAs (Decidable (∀ c, p.waiting i = some c → ∀ jobId,
    c.recounts = some jobId → ¬(_ ∧ _)))
  | .spawn _ | .restart => isTrue trivial

theorem outcomes_hold_reported :
    ∃ p q : ServerPool, p.store.live.jobStatus "job_0" = some .running ∧
      (server .plain {}).take p (.sched 4 { now := 5 }) = some q ∧
      q.store.live.jobStatus "job_0" = some .succeeded ∧ q.store.live.SomeSucceeded "job_0" := by
  have played : ((server .plain {}).play (fun p l => (server .plain {}).Lawful p l ∧ Consistent p l)
      (reportedTurns.take 30) started).any (fun p =>
        decide (p.store.live.jobStatus "job_0" = some .running) &&
          (decide ((server .plain {}).Lawful p (.sched 4 { now := 5 }) ∧ Consistent p (.sched 4 { now := 5 })) &&
            ((server .plain {}).take p (.sched 4 { now := 5 })).any fun q =>
              decide (q.store.live.jobStatus "job_0" = some .succeeded))) = true := by decide +kernel
  obtain ⟨p, run, facts⟩ := System.play_any played
  simp only [Bool.and_eq_true, decide_eq_true_eq] at facts
  obtain ⟨running, allowed, facts⟩ := facts
  obtain ⟨q, stepped, facts⟩ := (Option.any_eq_true _ _).mp facts
  have succeeded := of_decide_eq_true facts
  exact ⟨p, q, running, stepped, succeeded, (outcomes_hold .plain {} p _ q run allowed stepped "job_0").1
    (by rw [running]; nofun) succeeded⟩

def twoTasks : JobRequest :=
  { pipelines := some [{ kind := .path, path := some "a.yaml" }, { kind := .path, path := some "b.yaml" }],
    dataset := some { kind := .sharedPath, path := some "d" } }

/-- A job of two tasks, both running on one worker. -/
def bothRunningTurns : List Turn :=
  [.spawn (.submitJob twoTasks {})] ++ turns 0 5 1 ++
  [.spawn (.registerWorker { equipped with slotsTotal := 2, atLeastOneSlot := Nat.two_pos } {})] ++ turns 1 2 2 ++
  [.spawn (.lease "worker_0" {})] ++ turns 2 3 3 ++ [.spawn (.lease "worker_0" {})] ++ turns 3 3 3 ++
  [.spawn (.startTask "task_1" "worker_0" {})] ++ turns 4 3 4 ++
  [.spawn (.startTask "task_2" "worker_0" {})] ++ turns 5 3 4

/-- The first task fails for good; while its finalization stands between its two
readings, the second task's success is stored. -/
def lostSuccessTurns : List Turn :=
  bothRunningTurns ++
  [.spawn (.failTask 1 "task_1" { error := "boom", retriable := false } "worker_0" {})] ++ turns 6 8 5 ++
  [.spawn (.completeTask 1 "task_2" {} "worker_0" {})] ++ turns 7 4 6 ++ turns 6 4 7

theorem success_lost : ¬OutcomesHold .plain {} fun p l => (server .plain {}).Lawful p l ∧ Uncancelled l := by
  intro outcomes
  have played : ((server .plain {}).play (fun p l => (server .plain {}).Lawful p l ∧ Uncancelled l)
      lostSuccessTurns started).any (fun p =>
        decide (p.store.live.jobStatus "job_0" ≠ some .failed) &&
          (decide ((server .plain {}).Lawful p (.sched 6 { now := 8 })) && ((server .plain {}).take p (.sched 6 { now := 8 })).any fun q =>
            decide (q.store.live.jobStatus "job_0" = some .failed) &&
              decide (q.store.live.SomeSucceeded "job_0"))) = true := by decide +kernel
  obtain ⟨p, run, facts⟩ := System.play_any played
  simp only [Bool.and_eq_true, decide_eq_true_eq] at facts
  obtain ⟨before, lawful, facts⟩ := facts
  obtain ⟨q, stepped, facts⟩ := (Option.any_eq_true _ _).mp facts
  simp only [Bool.and_eq_true, decide_eq_true_eq] at facts
  exact (outcomes p _ q run ⟨lawful, trivial⟩ stepped "job_0").2 before facts.1 facts.2

end N4Cluster
