import N4Cluster.Server.Settlement
import N4Cluster.Server.Sides

/-! The calls by which a worker reports on a task. Every check comes before the first write,
and the second write of a failure is legal after the first, so a report that raises has
written nothing and one that returns has changed its task and its worker's used slots. -/
namespace N4Cluster
open Relational Transactional Relation Interleave

variable {P : Platform} {config : ServerConfig} {p : ServerPool} {io : Io} {db db' : Db} {s : Session Db}
  {taskId : TaskId} {reporter : Option WorkerId}

/-- The task a report is about, and the worker that it names. -/
def DbOp.report : DbOp → Option (TaskId × Option WorkerId)
  | .startTask taskId w | .completeTask taskId w _ | .cancelRunningTask taskId w => some (taskId, some w)
  | .failTask taskId o _ _ => some (taskId, o)
  | _ => none

/-- The columns of a task row that a report leaves alone. -/
structure TaskRow.Reported (r r' : TaskRow) : Prop where
  kept : r' = { r with
    status := r'.status, workerId := r'.workerId, leaseExpiresAt := r'.leaseExpiresAt,
    result := r'.result, error := r'.error, updatedAt := r'.updatedAt, startedAt := r'.startedAt }
  path : TaskPath r.status r'.status

/-- What a report may change of the store: the row of its task, and the used slots of its worker. -/
structure Db.Reported (db db' : Db) (taskId : TaskId) (reporter : Option WorkerId) : Prop where
  jobs : db'.jobs = db.jobs
  order : db'.tasks.rows.map TaskRow.id = db.tasks.rows.map TaskRow.id
  task : ∀ r, db.tasks.get taskId = some r → ∃ r', db'.tasks.get taskId = some r' ∧ r.Reported r'
  tasks : ∀ k, k ≠ taskId → db'.tasks.get k = db.tasks.get k
  worker : ∀ w row, db.workers.get w = some row → ∃ used, db'.workers.get w = some { row with slotsUsed := used }
  workers : ∀ w, reporter ≠ some w → db'.workers.get w = db.workers.get w
  side : db'.side = db.side

theorem TaskMove.reported {now : Time} {r r' : TaskRow} {op : DbOp} {o : Option WorkerId}
    (how : TaskMove db now r op r' o) (report : op.report = some (taskId, reporter)) : r.Reported r' := by
  refine ⟨?_, how.path⟩
  cases how with
  | start | complete | stop => rfl
  | fail =>
    unfold TaskRow.fail
    split <;> rfl
  | lease | cancel => cases report
  | resolve reaps => cases op <;> contradiction

/-- One row written, and the slots of its reporter counted again or not. -/
theorem Db.Wrote.reported {mid : Db} {r r' : TaskRow} {o : Option WorkerId} (wrote : db.Wrote mid taskId r r')
    (row : r.Reported r') (side : mid.side = db.side) (refreshed : o = none ∨ o = reporter) :
    db.Reported (mid.refresh o) taskId reporter := by
  have slots (w : WorkerId) : (mid.refresh o).workers.get w = (db.workers.get w).map fun row =>
      if o = some w then { row with slotsUsed := mid.inFlightCount w } else row := by
    rw [refresh_get, wrote.workers]
  constructor
  · rw [Db.refresh_jobs, wrote.jobs]
  · rw [Db.refresh_tasks]
    exact wrote.touched.order
  · intro before found
    cases found.symm.trans wrote.touched.found
    refine ⟨r', ?_, row⟩
    rw [Db.refresh_tasks]
    exact wrote.touched.now
  · intro k other
    rw [Db.refresh_tasks]
    exact wrote.touched.others k other
  · intro w row found
    rw [slots, found]
    by_cases same : o = some w
    · exact ⟨mid.inFlightCount w, by simp [same]⟩
    · exact ⟨row.slotsUsed, by simp [same]⟩
  · intro w other
    have away : o ≠ some w := by
      rcases refreshed with rfl | rfl
      · exact nofun
      · exact other
    rw [slots]
    simp only [away, if_false]
    exact Option.map_id'
  · rw [refresh_side, side]

theorem Db.Reported.refl (db : Db) (taskId : TaskId) (reporter : Option WorkerId) : db.Reported db taskId reporter where
  jobs := rfl
  order := rfl
  task r found := ⟨r, found, rfl, .refl⟩
  tasks _ _ := rfl
  worker _ row found := ⟨row.slotsUsed, found⟩
  workers _ _ := rfl
  side := rfl

/-- A report raises and writes nothing, or it returns and has committed. -/
theorem report_cases (P : Platform) (io : Io) {op : DbOp} (report : op.report = some (taskId, reporter))
    (s : Session Db) :
    (∃ error, op.exec P io s = (.error error, s)) ∨ (∃ value, op.exec P io s = (.ok value, s)) ∨
    ∃ value db, op.exec P io s = (.ok value, .settled db) ∧ s.live.Reported db taskId reporter := by
  cases op with
  | startTask k w =>
    cases report
    rcases startTask_cases io s taskId w with ⟨row, found, owned, leased, ran⟩ | ⟨error, ran⟩
    · obtain rfl : row.id = taskId := Table.get_key found
      have how : TaskMove s.live io.now row (.startTask row.id w) (row.start io.now) none := .start owned leased
      exact .inr (.inr ⟨_, _, ran, (setTask_wrote found _ _ _).reported (o := none) (how.reported rfl) rfl (.inl rfl)⟩)
    · exact .inl ⟨error, ran⟩
  | completeTask k w result =>
    cases report
    rcases completeTask_cases io s taskId w result with ⟨row, found, owned, running, ran⟩ | ⟨error, ran⟩
    · obtain rfl : row.id = taskId := Table.get_key found
      have how : TaskMove s.live io.now row (.completeTask row.id w result) (row.complete result io.now) (some w) :=
        .complete owned running
      exact .inr (.inr ⟨_, _, ran, (setTask_wrote found _ _ _).reported (o := some w) (how.reported rfl) rfl (.inr rfl)⟩)
    · exact .inl ⟨error, ran⟩
  | cancelRunningTask k w =>
    cases report
    rcases cancelRunningTask_cases io s taskId w with ⟨row, found, owned, legal, ran⟩ | ⟨error, ran⟩ | ran
    · obtain rfl : row.id = taskId := Table.get_key found
      have how : TaskMove s.live io.now row (.cancelRunningTask row.id w) (row.stop io.now) (some w) :=
        .stop owned legal
      exact .inr (.inr ⟨_, _, ran, (setTask_wrote found _ _ _).reported (o := some w) (how.reported rfl) rfl (.inr rfl)⟩)
    · exact .inl ⟨error, ran⟩
    · exact .inr (.inl ⟨none, ran⟩)
  | failTask k o error retriable =>
    cases report
    rcases failTask_cases P io s taskId reporter error retriable with
      ⟨row, found, owned, legal, _, ran⟩ | ⟨raised, ran⟩
    · obtain rfl : row.id = taskId := Table.get_key found
      have how : TaskMove s.live io.now row (.failTask row.id reporter error retriable)
          (row.fail error retriable io.now) reporter :=
        .fail owned legal
      exact .inr (.inr ⟨_, _, ran, (fail_wrote found error retriable io.now).reported (how.reported rfl)
        (fail_side ..) (.inr rfl)⟩)
    · exact .inl ⟨raised, ran⟩
  | _ => contradiction

/-- In every state the server can be in, a report that raises leaves the store as it was with
nothing pending, and one that returns has changed its task and its worker's slots at most. -/
theorem reports_atomic (run : System.Reaches (server P config) (server P config).Lawful started p)
    (op : DbOp) (report : op.report = some (taskId, reporter)) (io : Io) :
    ∃ db, p.store = .settled db ∧ ((∃ error, op.exec P io p.store = (.error error, .settled db)) ∨
      ∃ value db', op.exec P io p.store = (.ok value, .settled db') ∧ db.Reported db' taskId reporter) := by
  have settled := (run_keeping (run.mono fun _ _ => lawful_allowed)).1.settled
  refine ⟨p.store.live, settled, ?_⟩
  rcases report_cases P io report p.store with ⟨error, ran⟩ | ⟨value, ran⟩ | ⟨value, db', ran, reported⟩
  · exact .inl ⟨error, ran.trans (congrArg _ settled)⟩
  · exact .inr ⟨value, _, ran.trans (congrArg _ settled), .refl _ _ _⟩
  · exact .inr ⟨value, db', ran, reported⟩

/-- The owner's report of a running task, and the same report from another worker. -/
theorem reports_atomic_running : ∃ p db, System.Reaches (server .plain {}) (server .plain {}).Lawful started p ∧
    p.store = .settled db ∧
    (∃ error, (DbOp.completeTask "task_1" "worker_1" {}).exec .plain { now := 5 } p.store =
      (.error error, .settled db)) ∧
    ∃ value db', (DbOp.failTask "task_1" (some "worker_0") "killed" true).exec .plain { now := 5 } p.store =
      (.ok value, .settled db') ∧ db.Reported db' "task_1" (some "worker_0") := by
  have played : ((server .plain {}).play (server .plain {}).Lawful runningTurns started).any (fun p =>
      (!((DbOp.completeTask "task_1" "worker_1" {}).exec .plain { now := 5 } p.store).1.isOk) &&
        ((DbOp.failTask "task_1" (some "worker_0") "killed" true).exec .plain { now := 5 } p.store).1.isOk) = true := by
    decide +kernel
  obtain ⟨p, run, facts⟩ := System.play_any played
  clear played
  obtain ⟨raises, returns⟩ := Bool.and_eq_true_iff.mp facts
  obtain ⟨db, settled, first⟩ := reports_atomic run (.completeTask "task_1" "worker_1" {}) rfl { now := 5 }
  obtain ⟨db', settled', second⟩ :=
    reports_atomic run (.failTask "task_1" (some "worker_0") "killed" true) rfl { now := 5 }
  have same : db = db' := congrArg Session.live (settled.symm.trans settled')
  subst same
  refine ⟨p, db, run, settled, ?_, ?_⟩
  · rcases first with failed | ⟨value, _, ran, _⟩
    · exact failed
    · rw [ran] at raises
      contradiction
  · rcases second with ⟨error, ran⟩ | reported
    · rw [ran] at returns
      contradiction
    · exact reported

end N4Cluster
