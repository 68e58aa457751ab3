import N4Cluster.Server.Eligibility
import N4Cluster.Server.Outcomes

/-! How leases spread over the jobs of one priority. A lease takes a task of a job with the
fewest tasks in flight among those that have one waiting, so a job with a task waiting is
never two leases behind. -/
namespace N4Cluster
open Relational Transactional Relation Interleave

variable {P : Platform} {config : ServerConfig} {io : Io} {op : DbOp} {db db' : Db} {s t : Session Db}
  {jobs : JobId → Prop} {priority : Int} {p : ServerPool}

/-- The jobs' waiting tasks have one priority and suit every worker. -/
structure Db.Even (P : Platform) (db : Db) (jobs : JobId → Prop) (priority : Int) : Prop where
  ranked : ∀ task, db.Queued task → jobs task.jobId → task.priority = priority
  suited : ∀ w worker task, db.workers.get w = some worker → db.Queued task → jobs task.jobId →
    P.judge worker task = .ok true

/-- No task of the jobs leaves `leased` or `running`. -/
def Db.Keeps (db db' : Db) (jobs : JobId → Prop) : Prop :=
  ∀ taskId r, db.tasks.get taskId = some r → jobs r.jobId → r.status.inFlight = true →
    ∃ r', db'.tasks.get taskId = some r' ∧ r'.jobId = r.jobId ∧ r'.status.inFlight = true

/-- A call of the server that keeps the jobs' tasks in flight, among them every lease. -/
structure Spreads (P : Platform) (jobs : JobId → Prop) (priority : Int) (s t : Session Db) : Prop where
  even : s.live.Even P jobs priority
  called : ∃ io op, op.routed = true ∧ Fresh io s.live op ∧ t = op.after P io s
  keeps : s.live.Keeps t.live jobs

/-! ## Calls that lease nothing -/

/-- Where a task row comes from: one that was in flight, one that was not and whose status
has not come to be waiting or in flight, or a new job. -/
def Db.Calm (db db' : Db) : Prop :=
  ∀ taskId r', db'.tasks.get taskId = some r' → db.jobs.get r'.jobId = none ∨
    ∃ r, db.tasks.get taskId = some r ∧ r.jobId = r'.jobId ∧ (r.status.inFlight = true ∨
      r'.status.inFlight = false ∧ (r'.status = .queued → r.status = .queued))

theorem Db.Calm.of_kept (kept : ∀ taskId r', db'.tasks.get taskId = some r' →
    ∃ r, db.tasks.get taskId = some r ∧ r.jobId = r'.jobId ∧ r.status = r'.status) : db.Calm db' := by
  intro taskId r' found'
  obtain ⟨r, found, job, status⟩ := kept taskId r' found'
  refine .inr ⟨r, found, job, ?_⟩
  cases inFlight : r'.status.inFlight with
  | true => exact .inl (status ▸ inFlight)
  | false => exact .inr ⟨rfl, fun queued => status.trans queued⟩

theorem TaskMove.calm {now : Time} {r r' : TaskRow} {o : Option WorkerId} (how : TaskMove db now r op r' o)
    (unleased : ∀ w ttl, op ≠ .leaseNextTask w ttl) (unlost : r.status ≠ .lost) :
    r.status.inFlight = true ∨ r'.status.inFlight = false ∧ (r'.status = .queued → r.status = .queued) := by
  cases how with
  | lease => exact absurd rfl (unleased _ _)
  | start owned status | complete owned status =>
    rw [status]
    exact .inl rfl
  | fail owned legal =>
    refine .inl ?_
    cases status : r.status <;> rw [status] at legal unlost <;> first | rfl | contradiction
  | resolve reaps inFlight => exact .inl inFlight
  | cancel | stop => exact .inr ⟨rfl, nofun⟩

theorem Move.calm (move : Move io op db db') (creates : op.creates = false)
    (unleased : ∀ w ttl, op ≠ .leaseNextTask w ttl) (sound : db.Sound) : db.Calm db' := by
  cases move with
  | task touched how jobs workers =>
    intro taskId r' found'
    rcases touched.back found' with ⟨rfl, rfl⟩ | ⟨_, before⟩
    · exact .inr ⟨_, touched.found, how.same_job.2.symm, how.calm unleased (sound _ _ touched.found).settled⟩
    · exact Db.Calm.of_kept (fun _ r found => ⟨r, found, rfl, rfl⟩) taskId r' before
  | renew how tasks jobs workers =>
    apply Db.Calm.of_kept
    intro taskId r' found'
    rw [tasks, Db.renewLeases, Table.get_updateWhere] at found'
    obtain ⟨r, found, rfl⟩ := Option.map_eq_some_iff.mp found'
    exact ⟨r, found, by split <;> rfl, by split <;> rfl⟩
  | newTask made => cases creates.symm.trans made
  | job how present legal moved =>
    subst moved
    exact Db.Calm.of_kept fun _ r found => ⟨r, found, rfl, rfl⟩
  | result how put =>
    subst put
    exact Db.Calm.of_kept fun _ r found => ⟨r, found, rfl, rfl⟩
  | newJob _ _ _ tasks | newWorker _ _ tasks | workers _ _ _ tasks | other tasks =>
    exact Db.Calm.of_kept fun _ r found => ⟨r, tasks ▸ found, rfl, rfl⟩

theorem Db.Calm.trans {mid : Db} (first : db.Calm mid) (second : mid.Calm db')
    (known : ∀ jobId, mid.jobs.get jobId = none → db.jobs.get jobId = none) : db.Calm db' := by
  intro taskId r'' found''
  rcases second taskId r'' found'' with fresh | ⟨r', found', job', later⟩
  · exact .inl (known _ fresh)
  · rcases first taskId r' found' with fresh | ⟨r, found, job, before⟩
    · exact .inl (job' ▸ fresh)
    · refine .inr ⟨r, found, job.trans job', ?_⟩
      rcases before with inFlight | ⟨still, queued⟩
      · exact .inl inFlight
      · rcases later with inFlight | ⟨still', queued'⟩
        · exact nomatch still.symm.trans inFlight
        · exact .inr ⟨still', fun waits => queued (queued' waits)⟩

theorem exec_calm (routed : op.routed = true) (fresh : Fresh io s.live op)
    (unleased : ∀ w ttl, op ≠ .leaseNextTask w ttl) (sound : Sound s) : s.live.Calm (op.after P io s).live := by
  cases creates : op.creates with
  | false =>
    have both := (exec_moves P io op s).rec
      (motive := fun db _ => db.Good ∧ Evolves s.live db ∧ s.live.Calm db)
      ⟨sound.good, .refl _, .of_kept fun _ r found => ⟨r, found, rfl, rfl⟩⟩ fun _ move both => by
        obtain ⟨good, evolves, calm⟩ := both
        refine ⟨move.good routed good, evolves.trans (move.evolves creates routed),
          calm.trans (move.calm creates unleased good.sound) fun jobId absent => ?_⟩
        cases held : s.live.jobs.get jobId with
        | none => rfl
        | some row =>
          obtain ⟨_, found, _⟩ := evolves.job jobId row held
          exact nomatch absent.symm.trans found
    exact both.2.2
  | true =>
    cases op with
    | createJobWithTasks req owner =>
      rcases createJobWithTasks_cases (P := P) fresh with ⟨db, created, _, _, _, ran⟩ | ⟨_, ran⟩ | ⟨_, _, ran⟩
      · simp only [DbOp.after, DbOp.exec, ran]
        intro taskId r' found'
        rcases created.task found' with old | ⟨job, _⟩
        · exact Db.Calm.of_kept (fun _ r found => ⟨r, found, rfl, rfl⟩) taskId r' old
        · exact .inl (job ▸ created.fresh)
      all_goals
        simp only [DbOp.after, DbOp.exec, ran]
        exact Db.Calm.of_kept fun _ r found => ⟨r, found, rfl, rfl⟩
    | _ => contradiction

/-! ## Counts of tasks in flight -/

/-- A known job has no more tasks in flight than the tasks it had. -/
theorem Db.Calm.jobInFlight_le (calm : db.Calm db') {jobId : JobId} (held : (db.jobs.get jobId).isSome = true) :
    db'.jobInFlight jobId ≤ db.jobInFlight jobId := by
  apply Table.count_le_count
  intro r' member counted
  obtain ⟨job, inFlight⟩ := Bool.and_eq_true_iff.mp counted
  have job := of_decide_eq_true job
  rcases calm r'.id r' (Table.get_of_mem member) with fresh | ⟨r, found, same, before⟩
  · rw [job] at fresh
    rw [fresh] at held
    contradiction
  · obtain ⟨member, key⟩ := Table.get_eq_some.mp found
    refine ⟨r, member, key, Bool.and_eq_true_iff.mpr ⟨decide_eq_true (same.trans job), ?_⟩⟩
    rcases before with still | ⟨ended, _⟩
    · exact still
    · exact nomatch ended.symm.trans inFlight

theorem Db.Keeps.jobInFlight_le (keeps : db.Keeps db' jobs) {jobId : JobId} (chosen : jobs jobId) :
    db.jobInFlight jobId ≤ db'.jobInFlight jobId := by
  apply Table.count_le_count
  intro r member counted
  obtain ⟨job, inFlight⟩ := Bool.and_eq_true_iff.mp counted
  have job := of_decide_eq_true job
  obtain ⟨r', found, same, inFlight'⟩ := keeps r.id r (Table.get_of_mem member) (job ▸ chosen) inFlight
  obtain ⟨member', key⟩ := Table.get_eq_some.mp found
  exact ⟨r', member', key, Bool.and_eq_true_iff.mpr ⟨decide_eq_true (same.trans job), inFlight'⟩⟩

/-- A lease adds one task in flight to the job of the task. -/
theorem lease_jobInFlight {w : WorkerId} {worker : WorkerRow} {task : TaskRow} (leasable : db.Leasable w worker task)
    (ttl now : Time) (jobId : JobId) : (db.lease task w ttl now).jobInFlight jobId =
      db.jobInFlight jobId + if task.jobId = jobId then 1 else 0 := by
  have counts := (lease_touched leasable ttl now).counts fun r => r.jobId = jobId && r.status.inFlight
  have waits : task.status.inFlight = false := by
    rw [leasable.queued]
    rfl
  have leased : (task.lease w ttl now).status.inFlight = true := rfl
  have same : (task.lease w ttl now).jobId = task.jobId := rfl
  simp only [waits, leased, same, Bool.and_false, Bool.and_true, Bool.toNat_false, Nat.add_zero] at counts
  rw [Db.jobInFlight, Db.jobInFlight, counts]
  by_cases here : task.jobId = jobId <;> simp [here]

/-! ## Leases -/

/-- A lease that gives a task gives the first one in the queue that the worker does not pass. -/
theorem lease_first (P : Platform) (io : Io) (s : Session Db) (w : WorkerId) (ttl : Time) :
    (leaseNextTask P io w ttl s).2 = s ∨ ∃ worker task, s.live.Leasable w worker task ∧
      s.live.First P worker task ∧ (leaseNextTask P io w ttl s).2 = .settled (s.live.lease task w ttl io.now) := by
  rcases leaseNextTask_cases (P := P) io s w ttl with ⟨worker, task, payload, leasable, written, ran⟩ | ran | ⟨error, ran⟩
  · rcases turn_cases P io s w ttl with ⟨none, _⟩ | ⟨worker', task', able, first, leased | ⟨error, failed, _⟩⟩
    · cases none.symm.trans ran
    · obtain ⟨db, ran', leases, matched⟩ := leased
      have same : task' = task := by
        cases (lease_payload task w ttl io.now).symm.trans written
        have ids : task'.id = task.id := by
          have answers := congrArg (fun out => out.1) (ran'.symm.trans ran)
          exact congrArg TaskPayload.taskId (Option.some.inj (Except.ok.inj answers))
        exact Option.some.inj ((ids ▸ first.queued.present).symm.trans leasable.present)
      cases able.registered.symm.trans leasable.registered
      exact .inr ⟨worker, task, leasable, same ▸ first, by rw [ran]⟩
    · cases failed.symm.trans ran
  · exact .inl (by rw [ran])
  · exact .inl (by rw [ran])

/-- Among waiting tasks of one priority the first is of a job with the fewest tasks in flight. -/
theorem first_least {worker : WorkerRow} {task other : TaskRow} (first : db.First P worker task)
    (queued : db.Queued other) (matched : P.judge worker other = .ok true)
    (same : other.priority = task.priority) (apart : other.jobId ≠ task.jobId) :
    db.jobInFlight task.jobId ≤ db.jobInFlight other.jobId := by
  rcases first.least other queued (by rw [matched]; nofun) with rfl | below
  · exact absurd rfl apart
  · simp only [Db.rank, Prod.Lex.toLex_lt_toLex, same, lt_irrefl, false_or, true_and] at below
    rcases below with less | ⟨equal, _⟩
    · exact less.le
    · exact equal.le

/-- Where a job has a task waiting, no job is more than one task in flight ahead of it. -/
structure Db.Level (db : Db) (jobs : JobId → Prop) : Prop where
  held : ∀ jobId, jobs jobId → (db.jobs.get jobId).isSome = true
  level : ∀ a b, jobs a → jobs b → (∃ task, db.Queued task ∧ task.jobId = a) →
    db.jobInFlight b ≤ db.jobInFlight a + 1

theorem Db.Level.calm (level : db.Level jobs) (calm : db.Calm db') (keeps : db.Keeps db' jobs)
    (evolves : Evolves db db') : db'.Level jobs where
  held jobId chosen := evolves.exists_job (level.held jobId chosen)
  level a b chosen chosen' := by
    rintro ⟨task, queued, rfl⟩
    have fewer := calm.jobInFlight_le (level.held b chosen')
    have more := keeps.jobInFlight_le chosen
    have waited : ∃ other, db.Queued other ∧ other.jobId = task.jobId := by
      rcases calm task.id task queued.present with fresh | ⟨r, found, job, before⟩
      · have held := level.held task.jobId chosen
        rw [fresh] at held
        contradiction
      · have named : r.id = task.id := Table.get_key found
        rcases before with inFlight | ⟨_, waits⟩
        · obtain ⟨r', found', _, still⟩ := keeps task.id r found (job ▸ chosen) inFlight
          cases found'.symm.trans queued.present
          rw [queued.status] at still
          contradiction
        · exact ⟨r, ⟨named ▸ found, waits queued.status⟩, job⟩
    have before := level.level task.jobId b chosen chosen' waited
    omega

theorem Db.Level.lease {w : WorkerId} {worker : WorkerRow} {task : TaskRow} {ttl now : Time} (level : db.Level jobs)
    (even : db.Even P jobs priority) (leasable : db.Leasable w worker task) (first : db.First P worker task)
    (evolves : Evolves db (db.lease task w ttl now)) : (db.lease task w ttl now).Level jobs where
  held jobId chosen := evolves.exists_job (level.held jobId chosen)
  level a b chosen chosen' := by
    rintro ⟨other, queued, rfl⟩
    have waited : db.Queued other := by
      have found := queued.present
      rcases (lease_touched leasable ttl now).back found with ⟨_, rfl⟩ | ⟨_, before⟩
      · exact nomatch queued.status
      · exact ⟨before, queued.status⟩
    have before := level.level other.jobId b chosen chosen' ⟨other, waited, rfl⟩
    rw [lease_jobInFlight leasable, lease_jobInFlight leasable]
    by_cases mine : task.jobId = other.jobId
    · simp only [mine, if_true]
      split <;> omega
    · by_cases here : task.jobId = b
      · subst here
        have same : other.priority = task.priority :=
          (even.ranked other waited chosen).trans (even.ranked task first.queued chosen').symm
        have least := first_least first waited (even.suited w worker other leasable.registered waited chosen) same
          (Ne.symm mine)
        simp only [mine, if_true, if_false]
        omega
      · simp only [mine, here, if_false]
        omega

theorem Spreads.level (spreads : Spreads P jobs priority s t) (sound : Sound s) (level : s.live.Level jobs) :
    Sound t ∧ t.live.Level jobs := by
  obtain ⟨io, op, routed, fresh, rfl⟩ := spreads.called
  obtain ⟨sound', evolves⟩ := exec_sound (P := P) routed fresh sound
  refine ⟨sound', ?_⟩
  by_cases leases : ∃ w ttl, op = .leaseNextTask w ttl
  · obtain ⟨w, ttl, rfl⟩ := leases
    rcases lease_first P io s w ttl with same | ⟨worker, task, leasable, first, ran⟩
    · simp only [DbOp.after, DbOp.exec, same]
      exact level
    · simp only [DbOp.after, DbOp.exec, ran] at evolves ⊢
      exact level.lease spreads.even leasable first evolves
  · push Not at leases
    exact level.calm (exec_calm routed fresh leases sound) spreads.keeps evolves

/-- From any state of the server in which jobs of one priority have nothing in flight, after
any calls that take none of their tasks out of flight. -/
theorem leases_balanced (start : System.Reaches (server P config) (server P config).Lawful started p)
    (held : ∀ jobId, jobs jobId → (p.store.live.jobs.get jobId).isSome = true)
    (idle : ∀ jobId, jobs jobId → p.store.live.jobInFlight jobId = 0)
    (run : ReflTransGen (Spreads P jobs priority) p.store t) :
    ∀ a b, jobs a → jobs b → (∃ task, t.live.Queued task ∧ task.jobId = a) →
      t.live.jobInFlight b ≤ t.live.jobInFlight a + 1 := by
  have sound : Sound p.store := (run_keeping (start.mono fun _ _ => lawful_allowed)).1
  have level : Sound t ∧ t.live.Level jobs := by
    induction run with
    | refl =>
      refine ⟨sound, held, fun a b _ chosen _ => ?_⟩
      rw [idle b chosen]
      exact Nat.zero_le _
    | tail _ spreads ih => exact spreads.level ih.1 ih.2
  exact level.2.level

/-- The lease of one turn keeps every task in flight. -/
theorem lease_spreads {w : WorkerId} {ttl : Time} (even : s.live.Even P jobs priority) :
    Spreads P jobs priority s ((DbOp.leaseNextTask w ttl).after P io s) := by
  refine ⟨even, ⟨io, .leaseNextTask w ttl, rfl, trivial, rfl⟩, fun taskId r found _ inFlight => ?_⟩
  rcases lease_first P io s w ttl with same | ⟨worker, task, leasable, _, ran⟩
  · simp only [DbOp.after, DbOp.exec, same]
    exact ⟨r, found, rfl, inFlight⟩
  · simp only [DbOp.after, DbOp.exec, ran]
    rcases (lease_touched leasable ttl io.now).get found with ⟨_, rfl, now⟩ | ⟨_, now⟩
    · exact ⟨_, now, rfl, rfl⟩
    · exact ⟨r, now, rfl, inFlight⟩

/-- The conditions on the waiting tasks, by the rows of the tables. -/
def Db.evenRows (P : Platform) (db : Db) (priority : Int) : Bool :=
  db.tasks.rows.all fun task => decide (task.priority = priority) &&
    db.workers.rows.all fun worker => (P.judge worker task).toOption == some true

theorem Db.Even.of_rows (rows : db.evenRows P priority = true) : db.Even P jobs priority := by
  simp only [Db.evenRows, List.all_eq_true, Bool.and_eq_true, decide_eq_true_eq, beq_iff_eq] at rows
  constructor
  · exact fun task queued _ => (rows task (Table.mem_of_get queued.present)).1
  · intro w worker task registered queued _
    have matched := (rows task (Table.mem_of_get queued.present)).2 worker (Table.mem_of_get registered)
    cases judged : P.judge worker task with
    | error error =>
      rw [judged] at matched
      contradiction
    | ok value =>
      rw [judged] at matched
      exact congrArg Except.ok (Option.some.inj matched)

/-- Two jobs of two tasks each, and a worker with three slots. -/
def rivalTurns : List Turn :=
  [.spawn (.submitJob twoTasks {})] ++ turns 0 4 1 ++
  [.spawn (.submitJob twoTasks {})] ++ List.replicate 4 (.sched 1 { now := 2, uuid := fun n => toString (n + 3) }) ++
  [.spawn (.registerWorker { equipped with slotsTotal := 3, atLeastOneSlot := by decide } {})] ++ turns 2 2 3

/-- The worker asks for a task. -/
def askTask : Session Db → Session Db := (DbOp.leaseNextTask "worker_0" 60).after .plain { now := 4 }

/-- The worker takes three tasks: two of the older job and one of the other. -/
theorem leases_balanced_rivals : ∃ p t, System.Reaches (server .plain {}) (server .plain {}).Lawful started p ∧
    ReflTransGen (Spreads .plain (· ∈ ["job_0", "job_3"]) 0) p.store t ∧
    t.live.jobInFlight "job_0" = 2 ∧ t.live.jobInFlight "job_0" ≤ t.live.jobInFlight "job_3" + 1 := by
  have played : ((server .plain {}).play (server .plain {}).Lawful rivalTurns started).any (fun p =>
      (["job_0", "job_3"].all fun j => (p.store.live.jobs.get j).isSome && p.store.live.jobInFlight j == 0) &&
      (p.store.live.evenRows .plain 0 && ((askTask p.store).live.evenRows .plain 0 &&
      ((askTask (askTask p.store)).live.evenRows .plain 0 &&
        (decide ((askTask (askTask (askTask p.store))).live.jobInFlight "job_0" = 2) &&
        (askTask (askTask (askTask p.store))).live.candidates.any fun task => task.jobId = "job_3"))))) = true := by
    decide +kernel
  obtain ⟨p, run, facts⟩ := System.play_any played
  clear played
  simp only [Bool.and_eq_true, List.all_eq_true, beq_iff_eq, decide_eq_true_eq, List.any_eq_true] at facts
  obtain ⟨idle, first, second, third, two, task, waits, job⟩ := facts
  have asks {s : Session Db} (even : s.live.evenRows .plain 0 = true) :
      Spreads .plain (· ∈ ["job_0", "job_3"]) 0 s (askTask s) := lease_spreads (.of_rows even)
  have leased := ((ReflTransGen.single (asks first)).tail (asks second)).tail (asks third)
  refine ⟨p, _, run, leased, two, ?_⟩
  exact leases_balanced run (fun j chosen => (idle j chosen).1) (fun j chosen => (idle j chosen).2) leased
    "job_3" "job_0" (by simp) (by simp) ⟨task, queued_iff.mp waits, job⟩

end N4Cluster
