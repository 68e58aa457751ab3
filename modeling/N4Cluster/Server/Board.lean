import N4Cluster.Base.Custody
import N4Cluster.Server.Liveness

/-! The tasks of the store as items in the custody of workers. Whatever requests are served,
in any interleaving and through restarts, the server only takes steps of such a board; so a
task changes its status only so often, and so does a job. -/
namespace N4Cluster
open Relational Transactional Relation Interleave Custody

variable {P : Platform} {config : ServerConfig} {past : ServerPast} {p q : ServerPool} {l : Turn}
  {io : Io} {op : DbOp} {db db' : Db} {taskId : TaskId} {jobId : JobId}

abbrev TaskBoard := Board TaskId WorkerId TaskStatus

/-- Who has a task. -/
def TaskRow.phase (r : TaskRow) : Phase WorkerId TaskStatus :=
  match r.status with
  | .queued => .waiting
  | .leased => .handed (r.workerId.getD "")
  | .running => .working (r.workerId.getD "")
  | status => .closed status

def TaskRow.entry (r : TaskRow) : Entry WorkerId TaskStatus := ⟨r.maxAttempts, r.attempt, r.phase⟩

/-- The tasks of the store, as items that workers hold. -/
def Db.board (db : Db) : TaskBoard := fun taskId => (db.tasks.get taskId).map TaskRow.entry

/-- The status of a task in this phase. -/
def phaseStatus : Phase WorkerId TaskStatus → TaskStatus
  | .waiting => .queued
  | .handed _ => .leased
  | .working _ => .running
  | .closed status => status

theorem phaseStatus_phase (r : TaskRow) : phaseStatus r.phase = r.status := by
  unfold TaskRow.phase
  cases r.status <;> rfl

theorem entry_waiting {r : TaskRow} (now : r.status = .queued) :
    r.entry = ⟨r.maxAttempts, r.attempt, .waiting⟩ := by
  unfold TaskRow.entry TaskRow.phase
  rw [now]

theorem entry_held {r : TaskRow} (inFlight : r.status.inFlight = true) : r.entry.phase.held = true := by
  unfold TaskRow.entry TaskRow.phase
  cases now : r.status <;> rw [now] at inFlight <;> first | rfl | contradiction

theorem entry_open {r : TaskRow} (active : r.status.inFlight = true ∨ r.status = .queued) :
    r.entry.phase.isClosed = false := by
  unfold TaskRow.entry TaskRow.phase
  cases now : r.status <;> rw [now] at active <;> first | rfl | (rcases active with here | here <;> contradiction)

theorem entry_closed {r : TaskRow} (idle : r.status.inFlight = false) (served : r.status ≠ .queued) :
    r.entry = ⟨r.maxAttempts, r.attempt, .closed r.status⟩ := by
  unfold TaskRow.entry TaskRow.phase
  cases now : r.status <;> rw [now] at idle served <;> first | rfl | contradiction

/-- What may be cancelled or fail is still open, unless it is lost. -/
theorem legal_open {r : TaskRow} {status : TaskStatus} (legal : taskCanTransition r.status status = true)
    (ends : status = .cancelled ∨ status = .failed) (settled : r.status ≠ .lost) :
    r.status.inFlight = true ∨ r.status = .queued := by
  rcases ends with rfl | rfl
  all_goals
    cases now : r.status with
    | queued => exact .inr rfl
    | leased | running => exact .inl rfl
    | lost => exact absurd now settled
    | succeeded | failed | cancelled =>
      rw [now] at legal
      contradiction

/-- A row rewritten within its attempt. -/
structure SameAttempt (r r' : TaskRow) : Prop where
  limit : r'.maxAttempts = r.maxAttempts
  attempt : r'.attempt = r.attempt

theorem close_step {r r' : TaskRow} (same : SameAttempt r r')
    (active : r.status.inFlight = true ∨ r.status = .queued) (idle : r'.status.inFlight = false)
    (served : r'.status ≠ .queued) : r.entry.Step r'.entry := by
  rw [entry_closed idle served, same.limit, same.attempt]
  exact .close r'.status (entry_open active)

theorem giveBack_step {r r' : TaskRow} (same : SameAttempt r r') (inFlight : r.status.inFlight = true)
    (left : r.attempt < r.maxAttempts) (now : r'.status = .queued) : r.entry.Step r'.entry := by
  rw [entry_waiting now, same.limit, same.attempt]
  exact .giveBack (entry_held inFlight) left

theorem fail_same (r : TaskRow) (error : String) (retriable : Bool) (now : Time) :
    SameAttempt r (r.fail error retriable now) := by
  unfold TaskRow.fail
  split <;> exact ⟨rfl, rfl⟩

theorem resolve_same (r : TaskRow) (error : String) (job : JobStatus) (now : Time) :
    SameAttempt r (r.resolve error job now) := by
  unfold TaskRow.resolve
  split
  · exact ⟨rfl, rfl⟩
  · split <;> exact ⟨rfl, rfl⟩

/-- A row that is written is one step of its item. -/
theorem TaskMove.entry {now : Time} {r r' : TaskRow} {o : Option WorkerId} (how : TaskMove db now r op r' o)
    (sound : r.Sound db) : r.entry.Step r'.entry := by
  cases how with
  | lease leasable =>
    rename_i w _ _
    exact .hand w (by rw [entry_waiting leasable.queued]) (sound.queued leasable.queued).2.2
  | start owned leased =>
    rename_i w
    have handed : r.entry.phase = .handed w := by
      simp only [TaskRow.entry, TaskRow.phase, leased, owned, Option.getD_some]
    have working : (r.start now).entry = ⟨r.maxAttempts, r.attempt, .working w⟩ := by
      simp only [TaskRow.entry, TaskRow.phase, TaskRow.start, TaskFields.set, Option.getD_none, owned, Option.getD_some]
    exact working ▸ .begin w handed
  | complete owned running => exact close_step ⟨rfl, rfl⟩ (.inl (by rw [running]; rfl)) rfl (by rintro ⟨⟩)
  | stop owned legal => exact close_step ⟨rfl, rfl⟩ (legal_open legal (.inl rfl) sound.settled) rfl (by rintro ⟨⟩)
  | cancel waiting =>
    refine close_step ⟨rfl, rfl⟩ ?_ rfl (by rintro ⟨⟩)
    rcases waiting with status | status
    · exact .inr status
    · exact .inl (by rw [status]; rfl)
  | fail owned legal =>
    rename_i error retriable
    have same := fail_same r error retriable now
    have status := fail_status r error retriable now
    have active := legal_open legal (.inr rfl) sound.settled
    split at status
    · rename_i again
      refine giveBack_step same ?_ again.2 status
      rcases active with inFlight | queued
      · exact inFlight
      · rw [queued] at legal
        contradiction
    · exact close_step same active (by rw [status]; rfl) (by rw [status]; rintro ⟨⟩)
  | resolve reaps inFlight job =>
    rename_i j error
    have same := resolve_same r error j.status now
    have status := resolve_status r error j.status now
    split at status
    · exact close_step same (.inl inFlight) (by rw [status]; rfl) (by rw [status]; rintro ⟨⟩)
    · split at status
      · rename_i left
        exact giveBack_step same inFlight left status
      · exact close_step same (.inl inFlight) (by rw [status]; rfl) (by rw [status]; rintro ⟨⟩)

/-- A move of the store is one step of its board, or none. -/
theorem Move.board (move : Move io op db db') (sound : db.Sound) :
    db'.board = db.board ∨ Board.Step db.board db'.board := by
  have same (tasks : db'.tasks = db.tasks) : db'.board = db.board := by
    unfold Db.board
    rw [tasks]
  cases move with
  | task touched how jobs workers =>
    rename_i r r' owner
    have board : db'.board = Function.update db.board r.id (some r'.entry) := by
      funext taskId
      by_cases here : taskId = r.id
      · subst here
        rw [Function.update_self, Db.board, touched.now]
        rfl
      · rw [Function.update_of_ne here, Db.board, Db.board, touched.others _ here]
    have found : db.board r.id = some r.entry := by
      rw [Db.board, touched.found]
      rfl
    exact .inr (board ▸ .move r.id found (how.entry (sound _ _ touched.found)))
  | renew how tasks jobs workers =>
    refine .inl (funext fun taskId => ?_)
    rw [Db.board, tasks, Db.renewLeases, Table.get_updateWhere, Option.map_map, Db.board]
    cases db.tasks.get taskId with
    | none => rfl
    | some r =>
      simp only [Option.map_some, Function.comp]
      split <;> rfl
  | newTask creates job inserted jobs workers =>
    rename_i req jobId taskId pair
    have board : db'.board = Function.update db.board taskId (some ⟨req.retry.maxAttempts, 0, .waiting⟩) := by
      funext other
      simp only [Db.board, Table.get_insert inserted]
      change (if other = taskId then _ else _ : Option TaskRow).map TaskRow.entry = _
      by_cases here : other = taskId
      · subst here
        rw [Function.update_self, if_pos rfl]
        rfl
      · rw [Function.update_of_ne here, if_neg here]
        rfl
    have fresh : db.board taskId = none := by
      rw [Db.board, show db.tasks.get taskId = none from Table.insert_fresh inserted]
      rfl
    exact .inr (board ▸ .post taskId _ fresh)
  | job how present legal moved =>
    subst moved
    exact .inl rfl
  | result how put =>
    subst put
    exact .inl rfl
  | newJob _ _ _ tasks | newWorker _ _ tasks | workers _ _ _ tasks | other tasks => exact .inl (same tasks)

theorem exec_board (P : Platform) (io : Io) (op : DbOp) {s : Session Db} (sound : s.live.Sound) :
    Board.Steps s.live.board (op.after P io s).live.board := by
  have both : Board.Steps s.live.board (op.after P io s).live.board ∧ (op.after P io s).live.Sound := by
    refine (exec_moves P io op s).rec ⟨.refl, sound⟩ fun _ move ih => ⟨?_, move.sound ih.2⟩
    rcases move.board ih.2 with same | step
    · exact same ▸ ih.1
    · exact ih.1.tail step
  exact both.1

theorem turn_board (run : Recorded P config past p) (lawful : (server P config).Lawful p l)
    (stepped : (server P config).take p l = some q) : Board.Steps p.store.live.board q.store.live.board := by
  have keeping := recorded_keeping run
  rcases keeping.cases (lawful_allowed lawful) stepped with ⟨same, _⟩ | ⟨i, io, _, c, _, _, _, _, _, rfl, _⟩
  · rw [same]
  · exact exec_board P io c.op keeping.1.good.sound

theorem turns_board (run : Recorded P config past p)
    (later : System.Reaches (server P config) (server P config).Lawful p q) :
    Board.Steps p.store.live.board q.store.live.board := by
  induction later generalizing past with
  | refl => exact .refl
  | next lawful stepped _ ih => exact (turn_board run lawful stepped).trans (ih (run.next lawful stepped))

theorem recorded_board (run : Recorded P config past p) : Board.Steps Board.empty p.store.live.board :=
  turns_board .start (run.reaches fun _ _ _ lawful => lawful)

/-- The server refines the board: between any two moments of any run all that happens to the
tasks is that items are posted, handed to workers, begun by them, given back and closed, under
the limits of the board. -/
theorem server_refines_board (run : Recorded P config past p)
    (later : System.Reaches (server P config) (server P config).Lawful p q) :
    Board.Steps Board.empty p.store.live.board ∧ Board.Steps p.store.live.board q.store.live.board :=
  ⟨recorded_board run, turns_board run later⟩

/-- A failed attempt is requeued and the task leased again. -/
def retriedTurns : List Turn :=
  runningTurns ++ [.spawn (.failTask 1 "task_1" { error := "lost" } "worker_0" {})] ++ turns 4 4 5 ++
  [.spawn (.lease "worker_0" {})] ++ turns 5 3 6

/-- The board while the first attempt runs, and after the second is leased. -/
theorem server_refines_board_retried : ∃ (past : ServerPast) (p q : ServerPool)
    (e e' : Entry WorkerId TaskStatus), Recorded .plain {} past p ∧
    p.store.live.board "task_1" = some e ∧ e.handouts = 1 ∧
    q.store.live.board "task_1" = some e' ∧ e'.handouts = 2 ∧
    Board.Steps Board.empty p.store.live.board ∧ Board.Steps p.store.live.board q.store.live.board := by
  have recorded : ((server .plain {}).record (fun _ => (server .plain {}).Lawful) runningTurns [] started).any
      (fun out => ((out.2.store.live.board "task_1").any fun e => decide (e.handouts = 1)) &&
        ((server .plain {}).play (server .plain {}).Lawful (retriedTurns.drop runningTurns.length) out.2).any
          fun q => (q.store.live.board "task_1").any fun e => decide (e.handouts = 2)) = true := by decide +kernel
  obtain ⟨past, p, run, facts⟩ := System.record_any recorded
  obtain ⟨running, facts⟩ := Bool.and_eq_true_iff.mp facts
  obtain ⟨e, known, once⟩ := (Option.any_eq_true _ _).mp running
  obtain ⟨q, later, facts⟩ := System.play_any facts
  obtain ⟨e', known', twice⟩ := (Option.any_eq_true _ _).mp facts
  exact ⟨past, p, q, e, e', run, known, of_decide_eq_true once, known', of_decide_eq_true twice,
    server_refines_board run later⟩

/-! ## How often a status changes -/

/-- What a client sees of a task. -/
def ServerPool.taskState (taskId : TaskId) (p : ServerPool) : Option (TaskStatus × Nat) :=
  (p.store.live.tasks.get taskId).map fun r => (r.status, r.attempt)

def ServerPool.jobState (jobId : JobId) (p : ServerPool) : Option JobStatus := p.store.live.jobStatus jobId

theorem taskState_board (p : ServerPool) : p.taskState taskId =
    (p.store.live.board taskId).map fun e => (phaseStatus e.phase, e.handouts) := by
  rw [ServerPool.taskState, Db.board, Option.map_map]
  refine congrArg (fun f => Option.map f _) (funext fun r => ?_)
  exact congrArg (fun status => (status, r.attempt)) (phaseStatus_phase r).symm

theorem task_changes_le (run : Recorded P config past p) :
    System.changes (ServerPool.taskState taskId) past p + 1 ≤ p.store.live.board.rank taskId := by
  refine run.changes_le (ServerPool.taskState taskId) (fun p => p.store.live.board.rank taskId)
    fun before lawful stepped => ?_
  rcases (turn_board before lawful stepped).advances taskId with same | more
  · refine .inl ⟨?_, ?_⟩
    · rw [taskState_board, taskState_board, same]
    · rw [Board.rank, Board.rank, same]
  · exact .inr more

/-- How far a job has come. -/
def jobRank : Option JobStatus → Nat
  | none => 0
  | some .queued => 1
  | some .running => 2
  | some .cancelling => 3
  | some .succeeded | some .failed | some .cancelled => 4

theorem jobRank_le (status : Option JobStatus) : jobRank status ≤ 4 := by
  cases status with
  | none => decide
  | some status => cases status <;> decide

theorem jobRank_step {src dst : JobStatus} (step : JobStep src dst) (forward : dst = .queued → src = .queued) :
    dst = src ∨ jobRank (some src) < jobRank (some dst) := by
  rcases step with same | legal
  · exact .inl same
  · cases src <;> cases dst <;> first
      | exact .inl rfl
      | contradiction
      | exact .inr (by decide)

theorem Move.advances_job (move : Move io op db db') (routed : op.routed = true) (jobId : JobId) :
    db'.jobStatus jobId = db.jobStatus jobId ∨ jobRank (db.jobStatus jobId) < jobRank (db'.jobStatus jobId) := by
  unfold Db.jobStatus
  cases found : db.jobs.get jobId with
  | some row =>
    obtain ⟨row', found', _, _, edge, _⟩ := move.job_step found
    rw [found']
    rcases jobRank_step edge (move.job_forward routed found found') with same | more
    · exact .inl (congrArg some same)
    · exact .inr more
  | none =>
    cases found' : db'.jobs.get jobId with
    | none => exact .inl rfl
    | some row' =>
      refine .inr ?_
      cases status : row'.status <;> simp [jobRank, status]

theorem exec_advances_job (P : Platform) (io : Io) {op : DbOp} (routed : op.routed = true) (s : Session Db) (jobId : JobId) :
    (op.after P io s).live.jobStatus jobId = s.live.jobStatus jobId ∨
      jobRank (s.live.jobStatus jobId) < jobRank ((op.after P io s).live.jobStatus jobId) := by
  refine (exec_moves P io op s).rec (.inl rfl) fun _ move ih => ?_
  rcases move.advances_job routed jobId with same | more
  · rw [same]
    exact ih
  · rcases ih with still | before
    · exact .inr (still ▸ more)
    · exact .inr (Nat.lt_trans before more)

theorem job_changes_le (run : Recorded P config past p) :
    System.changes (ServerPool.jobState jobId) past p ≤ jobRank (p.store.live.jobStatus jobId) := by
  refine run.changes_le (ServerPool.jobState jobId) (fun p => jobRank (p.store.live.jobStatus jobId))
    fun before lawful stepped => ?_
  have keeping := recorded_keeping before
  rcases keeping.cases (lawful_allowed lawful) stepped with ⟨same, _⟩ | ⟨i, io, _, c, _, _, _, _, fair, rfl, _⟩
  · rw [ServerPool.jobState, ServerPool.jobState, same]
    exact .inl ⟨rfl, Nat.le_refl _⟩
  · rcases exec_advances_job P io fair.routed _ jobId with same | more
    · exact .inl ⟨same, Nat.le_of_eq (congrArg jobRank same.symm)⟩
    · exact .inr more

/-- However long a run goes on, and however often workers report, leases lapse, clients cancel
and the server is restarted: a task changes its status or attempt at most three times an
attempt and twice more, and a job its status at most four times, its creation included. -/
theorem changes_bounded (run : Recorded P config past p) :
    (∀ taskId r, p.store.live.tasks.get taskId = some r →
      System.changes (ServerPool.taskState taskId) past p ≤ 3 * r.maxAttempts + 2) ∧
    ∀ jobId, System.changes (ServerPool.jobState jobId) past p ≤ 4 := by
  refine ⟨fun taskId r found => ?_, fun jobId => (job_changes_le run).trans (jobRank_le _)⟩
  have known : p.store.live.board taskId = some r.entry := by
    rw [Db.board, found]
    rfl
  have within := Board.reached_within (recorded_board run) known
  have most := Entry.rank_le within
  have changed : System.changes (ServerPool.taskState taskId) past p + 1 ≤ p.store.live.board.rank taskId :=
    task_changes_le run
  rw [Board.rank, known, Option.elim_some] at changed
  change r.entry.rank ≤ 3 * r.maxAttempts + 3 at most
  omega

theorem changes_bounded_retried : ∃ past p r, Recorded .plain {} past p ∧
    p.store.live.tasks.get "task_1" = some r ∧ r.maxAttempts = 2 ∧
    System.changes (ServerPool.taskState "task_1") past p = 5 ∧
    System.changes (ServerPool.taskState "task_1") past p ≤ 3 * r.maxAttempts + 2 := by
  have recorded : ((server .plain {}).record (fun _ => (server .plain {}).Lawful) retriedTurns [] started).any
      (fun out => decide (System.changes (ServerPool.taskState "task_1") out.1 out.2 = 5) &&
        (out.2.store.live.tasks.get "task_1").any fun r => decide (r.maxAttempts = 2)) = true := by decide +kernel
  obtain ⟨past, p, run, facts⟩ := System.record_any recorded
  obtain ⟨five, facts⟩ := Bool.and_eq_true_iff.mp facts
  obtain ⟨r, found, two⟩ := (Option.any_eq_true _ _).mp facts
  exact ⟨past, p, r, run, found, of_decide_eq_true two, of_decide_eq_true five,
    (changes_bounded run).1 "task_1" r found⟩

end N4Cluster
