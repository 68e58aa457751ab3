import N4Cluster.Server.Finalization

/-! Where a success comes from: the row of a task succeeds by a report of success alone, and the
best task of a job is one that has succeeded. -/
namespace N4Cluster
open Relational Transactional Relation Interleave

variable {P : Platform} {io : Io} {s : Session Db} {op : DbOp} {db db' : Db} {jobId : JobId}

/-- The calls that report a success. -/
def DbOp.completes : DbOp → Bool
  | .completeTask _ _ _ => true
  | _ => false

/-- The call reports a success of the task. -/
def DbOp.reports (op : DbOp) (r : TaskRow) : Prop :=
  match op with
  | .completeTask taskId _ _ => r.id = taskId
  | _ => False

/-- A task whose success is not reported has not succeeded before or after. -/
theorem TaskMove.unsucceeded {now : Time} {r r' : TaskRow} {o : Option WorkerId}
    (how : TaskMove db now r op r' o) (silent : ¬op.reports r) :
    r.status ≠ .succeeded ∧ r'.status ≠ .succeeded := by
  cases how with
  | lease leasable => exact ⟨by rw [leasable.queued]; nofun, nofun⟩
  | start owned leased => exact ⟨by rw [leased]; nofun, nofun⟩
  | complete => exact False.elim (silent rfl)
  | fail owned legal =>
    refine ⟨fun here => ?_, fun here => ?_⟩
    · rw [here] at legal
      contradiction
    · rw [fail_status] at here
      split at here <;> contradiction
  | resolve reaps inFlight job =>
    refine ⟨fun here => ?_, fun here => ?_⟩
    · rw [here] at inFlight
      contradiction
    · rw [resolve_status] at here
      split at here
      · contradiction
      · split at here <;> contradiction
  | cancel waiting =>
    refine ⟨fun here => ?_, nofun⟩
    rw [here] at waiting
    rcases waiting with queued | leased <;> contradiction
  | stop owned legal =>
    refine ⟨fun here => ?_, nofun⟩
    rw [here] at legal
    contradiction

/-- A row that has succeeded after a move had succeeded before, or is the completed row of
the report. -/
theorem Move.succeeded {taskId : TaskId} {r' : TaskRow} (move : Move io op db db')
    (found : db'.tasks.get taskId = some r') (succeeded : r'.status = .succeeded) :
    db.tasks.get taskId = some r' ∨ ∃ w result r, op = .completeTask taskId w result ∧
      db.tasks.get taskId = some r ∧ r.workerId = some w ∧ r.status = .running ∧
      r' = r.complete result io.now := by
  cases move with
  | @task r _ _ touched how =>
    rcases touched.back found with ⟨rfl, rfl⟩ | ⟨_, before⟩
    · by_cases reports : op.reports r
      · cases how with
        | complete owned running => exact .inr ⟨_, _, r, rfl, touched.found, owned, running, rfl⟩
        | resolve reaps => cases op <;> contradiction
        | _ => contradiction
      · exact absurd succeeded (how.unsucceeded reports).2
    · exact .inl before
  | renew how tasks jobs workers =>
    rw [tasks, Db.renewLeases, Table.get_updateWhere] at found
    obtain ⟨r, before, rfl⟩ := Option.map_eq_some_iff.mp found
    split at succeeded
    · rename_i inFlight
      dsimp only at succeeded
      simp [succeeded, TaskStatus.inFlight] at inFlight
    · rename_i idle
      exact .inl (by rw [before, if_neg idle])
  | newTask creates job inserted jobs workers =>
    rw [Table.get_insert inserted] at found
    split at found
    · cases found
      cases succeeded
    · exact .inl found
  | job how present legal moved =>
    subst moved
    exact .inl found
  | result how put =>
    subst put
    exact .inl found
  | newJob _ _ _ tasks | newWorker _ _ tasks | workers _ _ _ tasks | other tasks => exact .inl (tasks ▸ found)

theorem exec_completed {taskId : TaskId} {r' : TaskRow} (found : (op.after P io s).live.tasks.get taskId = some r')
    (succeeded : r'.status = .succeeded) :
    s.live.tasks.get taskId = some r' ∨ ∃ w result r, op = .completeTask taskId w result ∧
      s.live.tasks.get taskId = some r ∧ r.workerId = some w ∧ r.status = .running ∧
      r' = r.complete result io.now := by
  cases completes : op.completes with
  | true =>
    have single : op.single = true := by cases op <;> first | rfl | contradiction
    rcases exec_stutters P io single s with same | move
    · exact .inl (same ▸ found)
    · exact move.succeeded found succeeded
  | false =>
    refine .inl ((exec_moves P io op s).rec (motive := fun db _ => db.tasks.get taskId = some r' →
      s.live.tasks.get taskId = some r') id (fun _ move back there => ?_) found)
    rcases move.succeeded there succeeded with before | ⟨w, result, r, rfl, _⟩
    · exact back before
    · contradiction

theorem tally_ok {req : JobRequest} {tasks : List TaskRow} {agg : JobAggregate}
    (ran : P.tally req tasks = .ok agg) :
    ∃ tally, tasks.foldlM (P.tallyTask req) { agg := { numTasks := tasks.length } } = .ok tally ∧
      agg.bestTaskId = tally.bestTaskId := by
  simp only [Platform.tally, bind, Except.bind] at ran
  split at ran
  · contradiction
  · rename_i tally folded
    split at ran
    · contradiction
    · cases ran
      exact ⟨tally, folded, rfl⟩

theorem tallyTasks_best {req : JobRequest} {tasks : List TaskRow} {tally tally' : Tally}
    {taskId : TaskId} (ran : tasks.foldlM (P.tallyTask req) tally = .ok tally')
    (best : tally'.bestTaskId = some taskId) :
    tally.bestTaskId = some taskId ∨ ∃ r ∈ tasks, r.id = taskId ∧ r.status = .succeeded := by
  induction tasks generalizing tally with
  | nil =>
    cases ran
    exact .inl best
  | cons row rest ih =>
    simp only [List.foldlM_cons, bind, Except.bind] at ran
    split at ran
    · contradiction
    · rename_i next stepped
      rcases ih ran with before | ⟨r, member, found⟩
      · unfold Platform.tallyTask at stepped
        dsimp only at stepped
        split at stepped
        · rename_i succeeded _
          simp only [bind, Except.bind] at stepped
          split at stepped
          · contradiction
          · split at stepped
            · contradiction
            · split at stepped
              · cases stepped
                exact .inr ⟨row, List.mem_cons_self, Option.some.inj before, succeeded⟩
              · cases stepped
                exact .inl before
        · cases stepped
          exact .inl before
      · exact .inr ⟨r, List.mem_cons_of_mem _ member, found⟩

/-- The best task of a job is one of its succeeded tasks. -/
theorem tally_best {req : JobRequest} {agg : JobAggregate} {taskId : TaskId}
    (ran : P.tally req (db.tasksOf jobId) = .ok agg) (best : agg.bestTaskId = some taskId) :
    ∃ r, db.tasks.get taskId = some r ∧ r.jobId = jobId ∧ r.status = .succeeded := by
  obtain ⟨tally, folded, same⟩ := tally_ok ran
  rcases tallyTasks_best folded (same.symm.trans best) with none | ⟨r, member, id, succeeded⟩
  · cases none
  · obtain ⟨found, job⟩ := mem_tasksOf.mp member
    exact ⟨r, id ▸ found, job, succeeded⟩

theorem aggregate_best {row : JobRow} {agg : JobAggregate} {taskId : TaskId} (built : P.aggregate db row = .ok agg)
    (best : agg.bestTaskId = some taskId) :
    ∃ r, db.tasks.get taskId = some r ∧ r.jobId = row.id ∧ r.status = .succeeded := by
  simp only [Platform.aggregate, bind, Except.bind] at built
  split at built
  · contradiction
  · exact tally_best built best

end N4Cluster
