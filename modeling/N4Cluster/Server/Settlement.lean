import N4Cluster.Server.Interleaving

/-! Jobs and their tasks end together: a terminal job has terminal tasks for ever,
and where nothing is in progress no job is left behind, unless a crash or a failed
finalization has left it. -/
namespace N4Cluster
open Relational Transactional Relation Interleave

variable {P : Platform} {config : ServerConfig} {A : Assumptions} {p q : ServerPool} {l : Turn}

/-- A terminal job has terminal tasks. -/
def Db.Closed (db : Db) : Prop := ∀ jobId, db.Settled jobId → db.AllTerminal jobId

theorem settled_status {db : Db} {jobId : JobId} :
    db.Settled jobId ↔ ∃ status, db.jobStatus jobId = some status ∧ status.terminal = true := by
  constructor
  · rintro ⟨row, found, terminal⟩
    exact ⟨row.status, by rw [Db.jobStatus, found]; rfl, terminal⟩
  · rintro ⟨status, now, terminal⟩
    obtain ⟨row, found, rfl⟩ := Option.map_eq_some_iff.mp now
    exact ⟨row, found, terminal⟩

theorem Db.Settled.held {db : Db} {jobId : JobId} (settled : db.Settled jobId) :
    (db.jobs.get jobId).isSome = true := by
  obtain ⟨row, found, _⟩ := settled
  rw [found]
  rfl

/-- A call that gives a job a terminal status finds its tasks terminal. -/
theorem Fair.closes {db : Db} {op : DbOp} (fair : Fair A db op) {jobId : JobId} {status : JobStatus}
    (sets : op.sets jobId status) (terminal : status.terminal = true) : db.AllTerminal jobId := by
  cases op with
  | setJobStatus k new error =>
    obtain ⟨rfl, rfl⟩ := sets
    have routed := fair.routed
    cases new with
    | cancelled => exact fair.cancels k error rfl
    | _ => contradiction
  | trySetJobStatus k new =>
    obtain ⟨rfl, rfl⟩ := sets
    exact (fair.settles k new rfl).1
  | leaseNextTask | createJob | createTasksForJob | createJobWithTasks =>
    subst sets
    contradiction
  | _ => contradiction

/-- A call that gives a job another status than `queued` or `running` writes no task. -/
theorem exec_sets_tasks (io : Io) {op : DbOp} {s : Session Db} {jobId : JobId} {status : JobStatus}
    (sets : op.sets jobId status) (chosen : status ≠ .queued ∧ status ≠ .running) :
    (op.after P io s).live.tasks = s.live.tasks := by
  cases op with
  | setJobStatus k new error =>
    simp only [DbOp.after, DbOp.exec]
    rcases setJobStatus_cases io s k new error with ⟨_, _, _, ran⟩ | ⟨_, ran, _⟩
    · rw [ran]
      rfl
    · rw [ran]
  | trySetJobStatus k new =>
    simp only [DbOp.after, DbOp.exec]
    rcases trySetJobStatus_cases io s k new with ⟨_, _, _, ran⟩ | ⟨ran, _⟩
    · rw [ran]
      rfl
    · rw [ran]
  | leaseNextTask => exact False.elim (chosen.2 sets)
  | createJob | createTasksForJob | createJobWithTasks => exact False.elim (chosen.1 sets)
  | _ => contradiction

theorem terminal_chosen {status : JobStatus} (terminal : status.terminal = true) :
    status ≠ .queued ∧ status ≠ .running := by
  constructor <;> rintro rfl <;> contradiction

/-- A fair call keeps the store closed. -/
theorem exec_closed {io : Io} {op : DbOp} {s : Session Db} (fair : Fair A s.live op)
    (fresh : Fresh io s.live op) (sound : Sound s) (closed : s.live.Closed) :
    (op.after P io s).live.Closed := by
  intro jobId settled
  have moved := (exec_sound (P := P) fair.routed fresh sound).2
  obtain ⟨status, now, terminal⟩ := settled_status.mp settled
  rcases exec_status_origin now with before | sets
  · have done := settled_status.mpr ⟨status, before, terminal⟩
    exact moved.allTerminal done.held (closed jobId done)
  · intro taskId r found
    rw [exec_sets_tasks _ sets (terminal_chosen terminal)] at found
    exact fair.closes sets terminal taskId r found

/-- Along every run terminal jobs have terminal tasks. -/
theorem run_closed (run : System.Reaches (server P config) (Allowed P config A) started p) :
    Keeping P config A p ∧ p.store.live.Closed := by
  refine run.invariant (I := fun p => Keeping P config A p ∧ p.store.live.Closed)
    (fun both allowed stepped => ⟨both.1.step allowed stepped, ?_⟩)
    ⟨started_keeping, fun jobId settled => ?_⟩
  · rcases both.1.cases allowed stepped with ⟨same, _⟩ | ⟨i, io, _, c, _, _, _, fresh, fair, rfl, _⟩
    · rw [same]
      exact both.2
    · exact exec_closed fair fresh both.1.1 both.2
  · obtain ⟨row, found, _⟩ := settled
    simp [started, Session.settled] at found

theorem run_evolves (run : System.Reaches (server P config) (Allowed P config A) p q)
    (keeping : Keeping P config A p) : Evolves p.store.live q.store.live :=
  run.related (I := Keeping P config A) (R := fun s t => Evolves s.live t.live) (fun _ => .refl _)
    (fun first second => first.trans second)
    (fun keeping allowed stepped => ⟨keeping.step allowed stepped, keeping.evolves allowed stepped⟩)
    keeping

/-- Nothing is assumed of a run. -/
def Assumptions.none : Assumptions := ⟨False, False, False, False, False⟩

theorem lawful_allowed (lawful : (server P config).Lawful p l) : Allowed P config .none p l :=
  ⟨lawful, nofun, nofun, nofun, nofun, nofun, fun ends => ends.1.elim⟩

/-- Every finalization runs to its end: none raises, and the server does not stop. -/
def Unbroken (P : Platform) (p : ServerPool) : Turn → Prop
  | .spawn _ => True
  | .sched i io => ∀ r, p.residual P i io = some r → ¬Failing r
  | .restart => False

instance (r : Prog Reply) : Decidable (Failing r) :=
  match r with
  | .raise fault => inferInstanceAs (Decidable (fault.site.finalizes = true))
  | .call c _ => inferInstanceAs (Decidable (c.site = .reaperError))
  | .ret _ => isFalse id

instance (db : Db) (jobId : JobId) : Decidable (db.Stuck jobId) :=
  decidable_of_iff ((∃ row ∈ db.jobs.get jobId, row.status.terminal = false) ∧ db.AllTerminal jobId) .rfl

instance (P : Platform) (s : Session Db) (c : Call) : Decidable (Refuses P s c) :=
  inferInstanceAs (Decidable (∃ jobId ∈ c.refused P, s.live.Stuck jobId))

instance (P : Platform) (p : ServerPool) : (l : Turn) → Decidable (Unbroken P p l)
  | .spawn _ => isTrue trivial
  | .sched i io => inferInstanceAs (Decidable (∀ r, p.residual P i io = some r → ¬Failing r))
  | .restart => isFalse id

/-- The driver refuses the event of no task that was the last of its job to be stopped. -/
def Heard (P : Platform) (p : ServerPool) : Turn → Prop
  | .sched i _ => ∀ c, p.waiting i = some c → ¬Refuses P p.store c
  | _ => True

instance (P : Platform) (p : ServerPool) : (l : Turn) → Decidable (Heard P p l)
  | .sched i _ => inferInstanceAs (Decidable (∀ c ∈ p.waiting i, ¬Refuses P p.store c))
  | .spawn _ | .restart => isTrue trivial

/-- Finalizations are come to, and run to their end. -/
def Assumptions.ending : Assumptions := ⟨False, False, True, False, True⟩

theorem unbroken_allowed (lawful : (server P config).Lawful p l) (unbroken : Unbroken P p l)
    (heard : Heard P p l) : Allowed P config .ending p l := by
  refine ⟨lawful, nofun, nofun, fun _ i io r here found => ?_, nofun,
    fun _ i io c here waits => ?_, fun _ here => ?_⟩
  · subst here
    exact unbroken r found
  · subst here
    exact heard c waits
  · subst here
    exact unbroken.elim

/-- A terminal job has terminal tasks and stays as it is, across every interleaving
and restart; and where finalizations run to their end, a job whose tasks are all
terminal is itself terminal as soon as nothing is in progress. -/
structure EndsWithTasks (P : Platform) (config : ServerConfig) (ok : ServerPool → Turn → Prop) : Prop where
  stays : ∀ p q, System.Reaches (server P config) (server P config).Lawful started p →
    System.Reaches (server P config) (server P config).Lawful p q →
    ∀ jobId row, p.store.live.jobs.get jobId = some row → row.status.terminal = true →
      p.store.live.AllTerminal jobId ∧ q.store.live.AllTerminal jobId ∧
      ∃ row', q.store.live.jobs.get jobId = some row' ∧ row'.status = row.status
  ends : ∀ p, System.Reaches (server P config)
      (fun p l => (server P config).Lawful p l ∧ Unbroken P p l ∧ ok p l) started p → p.Quiet →
    ∀ jobId row, p.store.live.jobs.get jobId = some row → p.store.live.AllTerminal jobId →
      row.status.terminal = true

theorem jobs_end_with_tasks (P : Platform) (config : ServerConfig) : EndsWithTasks P config (Heard P) := by
  refine ⟨fun p q first second jobId row found terminal => ?_, fun p run quiet jobId row found all => ?_⟩
  · obtain ⟨keeping, closed⟩ := run_closed (first.mono fun _ _ => lawful_allowed)
    have moved := run_evolves (second.mono fun _ _ => lawful_allowed) keeping
    have all := closed jobId ⟨row, found, terminal⟩
    obtain ⟨row', found', _, kept⟩ := moved.job jobId row found
    exact ⟨all, moved.allTerminal (by rw [found]; rfl) all, row', found', kept terminal⟩
  · have free := run_quiet ⟨trivial, .inl trivial⟩
      (run.mono fun _ _ allowed => unbroken_allowed allowed.1 allowed.2.1 allowed.2.2) quiet jobId
    obtain ⟨row', found', terminal⟩ := Db.not_stuck (by rw [found]; rfl) all free
    cases found.symm.trans found'
    exact terminal

/-- Lets one thread make its next calls. -/
def turns (i n : Nat) (now : Time) : List Turn := List.replicate n (.sched i { now := now })

def singleTask : JobRequest :=
  { pipeline := some { kind := .path, path := some "p.yaml" },
    dataset := some { kind := .sharedPath, path := some "d" } }

/-- A worker whose packages a task of the server requires. -/
def equipped : WorkerRegister := { version := [("packages", .obj [("nirs4all", .str "1.0")])] }

/-- A job of one task, submitted and running on a worker. -/
def runningTurns : List Turn :=
  [.spawn (.submitJob singleTask {})] ++ turns 0 5 1 ++ [.spawn (.registerWorker equipped {})] ++
  turns 1 2 2 ++ [.spawn (.lease "worker_0" {})] ++ turns 2 3 3 ++
  [.spawn (.startTask "task_1" "worker_0" {})] ++ turns 3 3 4

/-- The worker reports success. -/
def reportedTurns : List Turn :=
  runningTurns ++ [.spawn (.completeTask 1 "task_1" {} "worker_0" {})] ++ turns 4 14 5

theorem jobs_end_with_tasks_reported :
    ∃ p row, System.Reaches (server .plain {}) (server .plain {}).Lawful started p ∧ p.Quiet ∧
      p.store.live.jobs.get "job_0" = some row ∧ row.status.terminal = true ∧
      p.store.live.AllTerminal "job_0" := by
  have played : (((server .plain {}).play
      (fun p l => (server .plain {}).Lawful p l ∧ Unbroken .plain p l ∧ Heard .plain p l)
      reportedTurns started).any fun p => decide p.Quiet && (p.store.live.jobs.get "job_0").isSome &&
        (p.store.live.tasksOf "job_0").all fun r => r.status.terminal) = true := by decide +kernel
  obtain ⟨p, run, facts⟩ := System.play_any played
  simp only [Bool.and_eq_true, decide_eq_true_eq] at facts
  obtain ⟨⟨quiet, held⟩, all⟩ := facts
  obtain ⟨row, found⟩ := Option.isSome_iff_exists.mp held
  have lawful := run.mono fun _ _ both => both.1
  have terminal := (jobs_end_with_tasks .plain {}).ends p run quiet "job_0" row found
    (tasksOf_terminal.mp all)
  have again := (jobs_end_with_tasks .plain {}).stays p p lawful (.refl p) "job_0" row found terminal
  exact ⟨p, row, lawful, quiet, found, terminal, again.1⟩

/-- The job is being cancelled when its running task fails with the lone surrogate. -/
def refusedTurns : List Turn :=
  runningTurns ++ [.spawn (.cancelJob "job_0")] ++ turns 4 13 5 ++
  [.spawn (.failTask 1 "task_1" { error := Platform.surrogate } "worker_0" {})] ++ turns 5 5 6

/-- The task is cancelled, its event is refused, and the job's finalization is never come to. -/
theorem refused_event_leaves_job :
    ¬∀ (P : Platform) (config : ServerConfig), EndsWithTasks P config fun _ _ => True := by
  intro each
  have played : ((server .strict {}).play
      (fun p l => (server .strict {}).Lawful p l ∧ Unbroken .strict p l ∧ True) refusedTurns started).any
      (fun p => decide p.Quiet && decide (p.store.live.Stuck "job_0")) = true := by decide +kernel
  obtain ⟨p, run, facts⟩ := System.play_any played
  clear played
  simp only [Bool.and_eq_true, decide_eq_true_eq] at facts
  obtain ⟨quiet, ⟨row, found, still⟩, all⟩ := facts
  exact nomatch still.symm.trans ((each .strict {}).ends p run quiet "job_0" row found all)

/-! ## Crashes -/

def Request.reaps : Request → Bool
  | .reaperTick _ => true
  | _ => false

/-- After a crash, once a whole reaper tick has run and nothing is in progress, no
job is left with its tasks terminal and itself not. -/
def CleanAfterRestart (P : Platform) (config : ServerConfig) (ok : ServerPool → Turn → Prop) : Prop :=
  ∀ p q r : ServerPool, System.Reaches (server P config) ok started p → ok p .restart →
    (server P config).take p .restart = some q → System.Reaches (server P config) ok q r →
    (∃ th ∈ r.threads, th.request.reaps = true ∧ th.program.finished = true) → r.Quiet →
    ∀ jobId, ¬r.store.live.Stuck jobId

/-- The server stops only where no job is stuck, meets readable jobs only, and gets the
events of stopped tasks stored. -/
def Sturdy (P : Platform) (p : ServerPool) (l : Turn) : Prop :=
  p.store.live.readable P = true ∧ (l = .restart → ∀ jobId, ¬p.store.live.Stuck jobId) ∧ Heard P p l

/-- Finalizations are come to, and have nothing to fail on. -/
def Assumptions.reading : Assumptions := ⟨False, False, False, True, True⟩

theorem sturdy_allowed (lawful : (server P config).Lawful p l) (sturdy : Sturdy P p l) :
    Allowed P config .reading p l := by
  refine ⟨lawful, nofun, nofun, nofun, fun _ => sturdy.1, fun _ i io c here waits => ?_,
    fun _ => sturdy.2.1⟩
  subst here
  exact sturdy.2.2 c waits

theorem restart_clean (P : Platform) (config : ServerConfig) :
    CleanAfterRestart P config fun p l => (server P config).Lawful p l ∧ Sturdy P p l := by
  intro p q r before crashed restarted after _ quiet jobId
  have run := (before.snoc crashed restarted).trans after
  exact run_quiet ⟨trivial, .inr trivial⟩ (run.mono fun _ _ both => sturdy_allowed both.1 both.2) quiet jobId

theorem stuck_rows {db : Db} : (∀ jobId, ¬db.Stuck jobId) ↔
    ∀ row ∈ db.jobs.rows, row.status.terminal = false → ¬db.AllTerminal row.id := by
  constructor
  · intro free row member still all
    exact free row.id ⟨⟨row, Table.get_of_mem member, still⟩, all⟩
  · rintro free jobId ⟨⟨row, found, still⟩, all⟩
    obtain ⟨member, rfl⟩ := Table.get_eq_some.mp found
    exact free row member still all

instance (db : Db) : Decidable (∀ jobId, ¬db.Stuck jobId) := decidable_of_iff _ stuck_rows.symm

instance (P : Platform) (p : ServerPool) : (l : Turn) → Decidable (Sturdy P p l)
  | .spawn _ => decidable_of_iff (p.store.live.readable P = true)
    ⟨fun readable => ⟨readable, nofun, trivial⟩, And.left⟩
  | .sched i io => decidable_of_iff (p.store.live.readable P = true ∧ Heard P p (.sched i io))
    ⟨fun both => ⟨both.1, nofun, both.2⟩, fun sturdy => ⟨sturdy.1, sturdy.2.2⟩⟩
  | .restart => decidable_of_iff (p.store.live.readable P = true ∧ ∀ jobId, ¬p.store.live.Stuck jobId)
    ⟨fun both => ⟨both.1, fun _ => both.2, trivial⟩, fun sturdy => ⟨sturdy.1, sturdy.2.1 rfl⟩⟩

/-- A new process lets the running task's report through and reaps. -/
def resumedTurns : List Turn :=
  [.spawn (.completeTask 1 "task_1" {} "worker_0" {})] ++ turns 0 14 5 ++
  [.spawn (.reaperTick .insertion)] ++ turns 1 3 6

theorem restart_clean_resumed :
    ∃ p r : ServerPool, p.store.live.jobStatus "job_0" = some .running ∧
      System.Reaches (server .plain {}) (server .plain {}).Lawful ⟨.settled p.store.disk, []⟩ r ∧
      r.store.live.jobStatus "job_0" = some .succeeded ∧ ∀ jobId, ¬r.store.live.Stuck jobId := by
  have played : ((server .plain {}).play (fun p l => (server .plain {}).Lawful p l ∧ Sturdy .plain p l)
      runningTurns started).any (fun p => decide (p.store.live.jobStatus "job_0" = some .running) &&
        (decide (Sturdy .plain p .restart) &&
        ((server .plain {}).play (fun p l => (server .plain {}).Lawful p l ∧ Sturdy .plain p l)
          resumedTurns ⟨.settled p.store.disk, []⟩).any fun r =>
            decide (∃ th ∈ r.threads, th.request.reaps = true ∧ th.program.finished = true) &&
              (decide r.Quiet && decide (r.store.live.jobStatus "job_0" = some .succeeded)))) = true := by
    decide +kernel
  obtain ⟨p, before, facts⟩ := System.play_any played
  simp only [Bool.and_eq_true, decide_eq_true_eq] at facts
  obtain ⟨running, sturdy, facts⟩ := facts
  obtain ⟨r, after, facts⟩ := System.play_any facts
  simp only [Bool.and_eq_true, decide_eq_true_eq] at facts
  obtain ⟨ticked, quiet, succeeded⟩ := facts
  exact ⟨p, r, running, after.mono fun _ _ both => both.1, succeeded,
    restart_clean .plain {} p _ r before ⟨trivial, sturdy⟩ rfl after ticked quiet⟩

/-- The server stops after the result was stored and before the job is finalized;
the reaper of the next process finds no task to reclaim. -/
theorem restart_leaves_job : ¬CleanAfterRestart .plain {} (server .plain {}).Lawful := by
  intro clean
  have played : ((server .plain {}).play (server .plain {}).Lawful
      (runningTurns ++ [.spawn (.completeTask 1 "task_1" {} "worker_0" {})] ++ turns 4 4 5)
      started).any (fun p => ((server .plain {}).play (server .plain {}).Lawful
        ([.spawn (.reaperTick .insertion)] ++ turns 0 3 6) ⟨.settled p.store.disk, []⟩).any fun r =>
          decide (∃ th ∈ r.threads, th.request.reaps = true ∧ th.program.finished = true) &&
            decide r.Quiet && !decide (∀ jobId, ¬r.store.live.Stuck jobId)) = true := by decide +kernel
  obtain ⟨p, before, facts⟩ := System.play_any played
  obtain ⟨r, after, facts⟩ := System.play_any facts
  simp only [Bool.and_eq_true, Bool.not_eq_true', decide_eq_true_eq, decide_eq_false_iff_not] at facts
  obtain ⟨⟨ticked, quiet⟩, stuck⟩ := facts
  exact stuck (clean p _ r before trivial rfl after ticked quiet)

end N4Cluster
