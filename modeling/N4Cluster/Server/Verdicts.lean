import N4Cluster.Server.Repetition
import N4Cluster.Server.Submissions

/-! The status of a job as its tasks and an accepted cancellation give it, where handlers
and reaper ticks run whole. Every handler leaves every job with the status its tasks say; in
between, the jobs whose tasks it has ended are due for a finalization. -/
namespace N4Cluster
open Relational Transactional Relation Interleave

variable {P : Platform} {config : ServerConfig} {s t : Session Db} {db db' : Db} {jobId : JobId}
  {flags : JobId → Bool} {due : JobId → Prop}

/-! ## What the tasks of a job say -/

/-- Every task of the job has a status and a number of attempts as described. -/
def Db.Every (db : Db) (jobId : JobId) (p : TaskStatus → Nat → Prop) : Prop :=
  ∀ taskId r, db.tasks.get taskId = some r → r.jobId = jobId → p r.status r.attempt

/-- No task of the job was ever leased: a lease counts an attempt, and nothing takes it back. -/
def Db.Untouched (db : Db) (jobId : JobId) : Prop := db.Every jobId fun _ attempt => attempt = 0

/-- No task of the job waits for a worker or to be started. -/
def Db.Withdrawn (db : Db) (jobId : JobId) : Prop :=
  db.Every jobId fun status _ => status ≠ .queued ∧ status ≠ .leased

/-- The status that goes with the tasks, by whether a cancellation was accepted. -/
def Db.Fits (db : Db) (jobId : JobId) (cancelled : Bool) (status : JobStatus) : Prop :=
  match cancelled, status with
  | false, .queued => db.Untouched jobId
  | false, .running => ¬db.Untouched jobId ∧ ¬db.AllTerminal jobId
  | false, .succeeded => ¬db.Untouched jobId ∧ db.AllTerminal jobId ∧ db.SomeSucceeded jobId
  | false, .failed => ¬db.Untouched jobId ∧ db.AllTerminal jobId ∧ ¬db.SomeSucceeded jobId
  | true, .cancelling => db.Withdrawn jobId ∧ ¬db.AllTerminal jobId
  | true, .cancelled => db.Withdrawn jobId ∧ db.AllTerminal jobId
  | _, _ => False

/-- The status of a job whose tasks may just have ended. -/
def Db.Pends (db : Db) (jobId : JobId) (cancelled : Bool) (status : JobStatus) : Prop :=
  match cancelled with
  | false => status = .running ∧ ¬db.Untouched jobId
  | true => status = .cancelling ∧ db.Withdrawn jobId

/-- Every job fits its tasks, but for those that are due for a finalization. -/
structure Fitting (flags : JobId → Bool) (due : JobId → Prop) (db : Db) : Prop where
  held : ∀ jobId, flags jobId = true → (db.jobs.get jobId).isSome = true
  fits : ∀ jobId status, db.jobStatus jobId = some status → ¬due jobId → db.Fits jobId (flags jobId) status
  pends : ∀ jobId status, db.jobStatus jobId = some status → due jobId → db.Pends jobId (flags jobId) status

/-- No job is due. -/
abbrev AllFit (flags : JobId → Bool) (db : Db) : Prop := Fitting flags (fun _ => False) db

/-- The tasks of a job have the statuses and attempts they had. -/
def Db.Alike (db db' : Db) (jobId : JobId) : Prop := ∀ p, db'.Every jobId p ↔ db.Every jobId p

theorem someSucceeded_iff : db.SomeSucceeded jobId ↔ ¬db.Every jobId fun status _ => status ≠ .succeeded := by
  simp only [Db.SomeSucceeded, Db.Every]
  push Not
  rfl

namespace Db.Alike

theorem of_tasks (tasks : db'.tasks = db.tasks) : db.Alike db' jobId := by
  intro p
  rw [Db.Every, tasks]
  rfl

theorem terminal (alike : db.Alike db' jobId) : db'.AllTerminal jobId ↔ db.AllTerminal jobId :=
  alike fun status _ => status.terminal = true

theorem succeeded (alike : db.Alike db' jobId) : db'.SomeSucceeded jobId ↔ db.SomeSucceeded jobId := by
  rw [someSucceeded_iff, someSucceeded_iff, alike]

theorem untouched (alike : db.Alike db' jobId) : db'.Untouched jobId ↔ db.Untouched jobId := alike _

theorem withdrawn (alike : db.Alike db' jobId) : db'.Withdrawn jobId ↔ db.Withdrawn jobId := alike _

theorem fits (alike : db.Alike db' jobId) (cancelled : Bool) (status : JobStatus) :
    db'.Fits jobId cancelled status ↔ db.Fits jobId cancelled status := by
  unfold Db.Fits
  rw [alike.terminal, alike.succeeded, alike.untouched, alike.withdrawn]

theorem pends (alike : db.Alike db' jobId) (cancelled : Bool) (status : JobStatus) :
    db'.Pends jobId cancelled status ↔ db.Pends jobId cancelled status := by
  unfold Db.Pends
  rw [alike.untouched, alike.withdrawn]

/-- Where one row of a table has changed, the tasks of every other job are as they were. -/
theorem touched {taskId : TaskId} {r r' : TaskRow} (touched : db.tasks.Touched db'.tasks taskId r r')
    (same : r'.jobId = r.jobId) (other : jobId ≠ r.jobId) : db.Alike db' jobId := by
  intro p
  constructor
  · intro every k row found job
    rcases touched.get found with ⟨rfl, rfl, _⟩ | ⟨_, now⟩
    · exact absurd job.symm other
    · exact every k row now job
  · intro every k row found job
    rcases touched.back found with ⟨rfl, rfl⟩ | ⟨_, before⟩
    · exact absurd (job.symm.trans same) other
    · exact every k row before job

end Db.Alike

variable {taskId : TaskId} {r r' : TaskRow} {cancelled : Bool} {status : JobStatus}

/-- A job with a task that may still run. -/
theorem Db.Fits.still (fits : db.Fits jobId cancelled status) (found : db.tasks.get taskId = some r)
    (job : r.jobId = jobId) (open_ : r.status.terminal = false) :
    cancelled = false ∧ status = .queued ∧ db.Untouched jobId ∨ db.Pends jobId cancelled status := by
  have more : ¬db.AllTerminal jobId := fun all => nomatch open_.symm.trans (all taskId r found job)
  cases cancelled <;> cases status
  case false.queued => exact .inl ⟨rfl, rfl, fits⟩
  case false.running => exact .inr ⟨rfl, fits.1⟩
  case true.cancelling => exact .inr ⟨rfl, fits.1⟩
  case false.succeeded | false.failed => exact absurd fits.2.1 more
  case true.cancelled => exact absurd fits.2 more
  all_goals exact False.elim fits

theorem Db.Fits.inFlight (fits : db.Fits jobId cancelled status) (sound : db.Sound)
    (found : db.tasks.get taskId = some r) (job : r.jobId = jobId) (inFlight : r.status.inFlight = true) :
    db.Pends jobId cancelled status := by
  have open_ : r.status.terminal = false := by
    cases terminal : r.status.terminal with
    | false => rfl
    | true => exact nomatch inFlight.symm.trans (TaskStatus.still terminal)
  rcases fits.still found job open_ with ⟨_, _, untouched⟩ | pends
  · have none := untouched taskId r found job
    have leased := ((sound taskId r found).lease inFlight).2
    omega
  · exact pends

/-- Where some task may still run, nothing is to be finalized. -/
theorem Db.Pends.fits (pends : db.Pends jobId cancelled status) (more : ¬db.AllTerminal jobId) :
    db.Fits jobId cancelled status := by
  cases cancelled with
  | false =>
    obtain ⟨rfl, touched⟩ := pends
    exact ⟨touched, more⟩
  | true =>
    obtain ⟨rfl, withdrawn⟩ := pends
    exact ⟨withdrawn, more⟩

theorem Db.Pends.touched (pends : db.Pends jobId cancelled status)
    (touched : db.tasks.Touched db'.tasks taskId r r') (same : r'.jobId = r.jobId)
    (counted : r.attempt ≤ r'.attempt) (away : cancelled = true → r'.status ≠ .queued ∧ r'.status ≠ .leased) :
    db'.Pends jobId cancelled status := by
  cases cancelled with
  | false =>
    refine ⟨pends.1, fun untouched => pends.2 fun k row found job => ?_⟩
    rcases touched.get found with ⟨rfl, rfl, now⟩ | ⟨_, now⟩
    · have none := untouched k r' now (same.trans job)
      omega
    · exact untouched k row now job
  | true =>
    refine ⟨pends.1, fun k row found job => ?_⟩
    rcases touched.back found with ⟨rfl, rfl⟩ | ⟨_, before⟩
    · exact away rfl
    · exact pends.2 k row before job

namespace Fitting

/-- A job whose status and tasks are as they were is judged as it was. -/
theorem alike (judged : Fitting flags due db) (status : ∀ k, db'.jobStatus k = db.jobStatus k)
    (tasks : ∀ k, db.Alike db' k) : Fitting flags due db' where
  held k flagged := by
    have held := judged.held k flagged
    rw [← Option.isSome_map (f := JobRow.status)] at held ⊢
    exact (congrArg Option.isSome (status k)).trans held
  fits k now found clear := ((tasks k).fits _ _).mpr (judged.fits k now ((status k).symm.trans found) clear)
  pends k now found owed := ((tasks k).pends _ _).mpr (judged.pends k now ((status k).symm.trans found) owed)

theorem same (judged : Fitting flags due db) (jobs : db'.jobs = db.jobs) (tasks : db'.tasks = db.tasks) :
    Fitting flags due db' :=
  judged.alike (fun k => by rw [Db.jobStatus, jobs]; rfl) fun _ => .of_tasks tasks

end Fitting

theorem renewLeases_alike (db : Db) (w : WorkerId) (expires : Time) (tasks : db'.tasks = (db.renewLeases w expires).tasks) :
    db.Alike db' jobId := by
  have get (k : TaskId) : db'.tasks.get k = (db.tasks.get k).map fun r =>
      if r.workerId == some w && r.status.inFlight then { r with leaseExpiresAt := some expires } else r := by
    rw [tasks]
    exact Table.get_updateWhere _ _ _ (by intro; rfl) k
  intro p
  constructor
  · intro every k r found job
    have now := every k (if r.workerId == some w && r.status.inFlight then
      { r with leaseExpiresAt := some expires } else r) (by rw [get, found]; rfl) (by split <;> exact job)
    split at now <;> exact now
  · intro every k r' found job
    rw [get] at found
    obtain ⟨r, before, rfl⟩ := Option.map_eq_some_iff.mp found
    have old := every k r before (by split at job <;> exact job)
    split <;> exact old

/-- A lease starts the task's job, and leaves the others as they are. -/
theorem AllFit.lease {w : WorkerId} {worker : WorkerRow} {ttl now : Time} (judged : AllFit flags db)
    (leasable : db.Leasable w worker r) (touched : db.tasks.Touched db'.tasks r.id r (r.lease w ttl now))
    (jobs : db'.jobs = (db.maybeJobRunning r.jobId now).jobs) : AllFit flags db' := by
  have get (k : JobId) : db'.jobs.get k = (db.jobs.get k).map fun row =>
      if row.id = r.jobId && row.status = .queued then { row with status := .running, updatedAt := now } else row := by
    rw [jobs]
    exact maybeJobRunning_get db r.jobId now k
  constructor
  · intro k flagged
    rw [get, Option.isSome_map]
    exact judged.held k flagged
  · intro k status' found _
    rw [Db.jobStatus, get, Option.map_map] at found
    obtain ⟨row, held, rfl⟩ := Option.map_eq_some_iff.mp found
    have named : row.id = k := Table.get_key held
    have fits := judged.fits k row.status (jobStatus_some held) id
    dsimp only [Function.comp]
    by_cases here : k = r.jobId
    · have more : ¬db'.AllTerminal k := fun all => by cases all r.id _ touched.now here.symm
      have counted : ¬db'.Untouched k := fun untouched => by cases untouched r.id _ touched.now here.symm
      rcases fits.still leasable.present here.symm (by rw [leasable.queued]; rfl) with ⟨flag, queued, _⟩ | pends
      · rw [if_pos (by simp [named, here, queued]), flag]
        exact ⟨counted, more⟩
      · cases flag : flags k with
        | false =>
          rw [flag] at pends
          rw [if_neg (by simp [pends.1]), pends.1]
          exact ⟨counted, more⟩
        | true =>
          rw [flag] at pends
          exact absurd leasable.queued (pends.2 r.id r leasable.present here.symm).1
    · rw [if_neg (by simp [named, here])]
      exact ((Db.Alike.touched touched rfl here).fits _ _).mpr fits
  · intro k _ _ owed
    exact False.elim owed

theorem AllFit.start {now : Time} (judged : AllFit flags db) (sound : db.Sound)
    (touched : db.tasks.Touched db'.tasks r.id r (r.start now)) (leased : r.status = .leased)
    (jobs : db'.jobs = db.jobs) : AllFit flags db' := by
  have same (k : JobId) : db'.jobStatus k = db.jobStatus k := by
    rw [Db.jobStatus, jobs]
    rfl
  constructor
  · intro k flagged
    rw [jobs]
    exact judged.held k flagged
  · intro k status' found _
    have fits := judged.fits k status' ((same k).symm.trans found) id
    by_cases here : k = r.jobId
    · have more : ¬db'.AllTerminal k := fun all => by cases all r.id _ touched.now here.symm
      have pends := fits.inFlight sound touched.found here.symm (by rw [leased]; rfl)
      exact (pends.touched touched rfl (Nat.le_refl _) fun _ => ⟨by rintro ⟨⟩, by rintro ⟨⟩⟩).fits more
    · exact ((Db.Alike.touched touched rfl here).fits _ _).mpr fits
  · intro k _ _ owed
    exact False.elim owed

theorem Move.judged {io : Io} {op : DbOp} (move : Move io op db db') (harmless : op.harmless = true)
    (creates : op.creates = false) (sound : db.Sound) (judged : AllFit flags db) : AllFit flags db' := by
  cases move with
  | task touched how jobs workers =>
    cases how with
    | lease leasable => exact judged.lease leasable touched (by rw [jobs]; exact if_pos rfl)
    | start owned leased => exact judged.start sound touched leased (by rw [jobs]; exact if_neg (by rintro ⟨⟩))
    | resolve reaps => cases op <;> contradiction
    | complete | fail | cancel | stop => contradiction
  | renew how tasks jobs workers =>
    exact judged.alike (fun k => by rw [Db.jobStatus, jobs]; rfl) fun k => renewLeases_alike db _ _ tasks
  | job how => rcases how with rfl | ⟨rfl, _⟩ <;> contradiction
  | result how put =>
    subst put
    exact judged.alike (putResult_status db _ _ _) fun _ => .of_tasks rfl
  | newJob made | newTask made => cases creates.symm.trans made
  | newWorker _ _ tasks jobs | workers _ _ _ tasks jobs | other tasks jobs => exact judged.same jobs tasks

theorem AllFit.created {io : Io} {req : JobRequest} {owner : Option String} (judged : AllFit flags db)
    (good : db.Good) (created : db.Created db' io req owner) : AllFit flags db' := by
  have unflagged : flags (genId "job" (io.uuid 0)) = false := by
    cases flag : flags (genId "job" (io.uuid 0)) with
    | false => rfl
    | true =>
      have held := judged.held _ flag
      rw [created.fresh] at held
      contradiction
  constructor
  · intro k flagged
    rw [created.get_job]
    split
    · rfl
    · exact judged.held k flagged
  · intro k status' found _
    rw [Db.jobStatus, created.get_job] at found
    split at found
    · rename_i here
      cases found
      rw [here, unflagged]
      intro taskId r task job
      rcases created.task task with old | ⟨_, _, unleased⟩
      · obtain ⟨row, linked⟩ := good.linked taskId r old
        rw [job, created.fresh] at linked
        contradiction
      · exact unleased
    · rename_i other
      have alike : db.Alike db' k := by
        intro p
        constructor
        · exact fun every taskId r task job => every taskId r (created.kept task) job
        · intro every taskId r task job
          rcases created.task task with old | ⟨made, _⟩
          · exact every taskId r old job
          · exact absurd (job.symm.trans made) other
      exact (alike.fits _ _).mpr (judged.fits k status' found id)
  · intro k _ _ owed
    exact False.elim owed

theorem exec_fitting {io : Io} {op : DbOp} (harmless : op.harmless = true) (fresh : Fresh io s.live op)
    (sound : Sound s) (judged : AllFit flags s.live) : AllFit flags (op.after P io s).live := by
  cases creates : op.creates with
  | false =>
    have both := (exec_moves P io op s).rec (motive := fun db _ => db.Good ∧ AllFit flags db)
      ⟨sound.good, judged⟩ fun _ move both =>
        ⟨move.good (DbOp.harmless_routed harmless) both.1, move.judged harmless creates both.1.sound both.2⟩
    exact both.2
  | true =>
    cases op with
    | createJobWithTasks req owner =>
      rcases createJobWithTasks_cases (P := P) fresh with ⟨db, created, _, _, _, ran⟩ | ⟨_, ran⟩ | ⟨_, _, ran⟩
      · simp only [DbOp.after, DbOp.exec, ran]
        exact judged.created sound.good created
      all_goals
        simp only [DbOp.after, DbOp.exec, ran]
        exact judged
    | _ => contradiction

theorem harmless_fitting {α : Type} {p : Prog α} {out : Except Fault α} (calls : Calls DbOp.harmless p)
    (run : p.Runs (machine P) s out t) (sound : Sound s) (judged : AllFit flags s.live) : AllFit flags t.live := by
  refine (calls.keeps (I := fun t => Sound t ∧ AllFit flags t.live) (fun io c u harmless fresh both => ?_) run
    ⟨sound, judged⟩).2
  exact ⟨(exec_sound (P := P) (DbOp.harmless_routed harmless) fresh both.1).1,
    exec_fitting (P := P) harmless fresh both.1 both.2⟩

theorem Fitting.finalized {n : Nat} (judged : Fitting flags due db) (owed : due jobId)
    (before : db.jobStatus jobId = some status) (counts : 0 < n ↔ db.SomeSucceeded jobId)
    (finalized : db.Finalized db' jobId (finalStatus status n)) :
    Fitting flags (fun k => due k ∧ k ≠ jobId) db' := by
  have tasks (k : JobId) : db.Alike db' k := .of_tasks finalized.tasks
  have pends := judged.pends jobId status before owed
  have settles (all : db.AllTerminal jobId) (legal : jobCanTransition status (finalStatus status n) = true) :
      db'.jobStatus jobId = some (finalStatus status n) := finalized.settled ⟨all, status, before, legal⟩
  have here : ∃ status', db'.jobStatus jobId = some status' ∧ db'.Fits jobId (flags jobId) status' := by
    by_cases all : db.AllTerminal jobId
    · cases flag : flags jobId with
      | false =>
        rw [flag] at pends
        obtain ⟨rfl, touched⟩ := pends
        by_cases some : 0 < n
        · refine ⟨.succeeded, ?_, ((tasks jobId).fits _ _).mpr ⟨touched, all, counts.mp some⟩⟩
          simpa [finalStatus, some] using settles all (by simp [finalStatus, some, jobCanTransition, jobTransitions])
        · refine ⟨.failed, ?_, ((tasks jobId).fits _ _).mpr ⟨touched, all, mt counts.mpr some⟩⟩
          simpa [finalStatus, some] using settles all (by simp [finalStatus, some, jobCanTransition, jobTransitions])
      | true =>
        rw [flag] at pends
        obtain ⟨rfl, withdrawn⟩ := pends
        exact ⟨.cancelled, settles all rfl, ((tasks jobId).fits _ _).mpr ⟨withdrawn, all⟩⟩
    · have same := finalized.unsettled (fun settles => all settles.1)
      exact ⟨status, same.trans before, ((tasks jobId).fits _ _).mpr (pends.fits all)⟩
  have others (k : JobId) (other : k ≠ jobId) : db'.jobStatus k = db.jobStatus k := finalized.others k other
  constructor
  · intro k flagged
    have held := judged.held k flagged
    rw [← Option.isSome_map (f := JobRow.status)] at held ⊢
    by_cases same : k = jobId
    · subst same
      obtain ⟨_, now, _⟩ := here
      exact Option.isSome_of_eq_some now
    · exact (congrArg Option.isSome (others k same)).trans held
  · intro k status' now clear
    by_cases same : k = jobId
    · subst same
      obtain ⟨_, now', fits⟩ := here
      cases now.symm.trans now'
      exact fits
    · exact ((tasks k).fits _ _).mpr (judged.fits k status' ((others k same).symm.trans now)
        fun owed => clear ⟨owed, same⟩)
  · rintro k status' now ⟨owed, other⟩
    exact ((tasks k).pends _ _).mpr (judged.pends k status' ((others k other).symm.trans now) owed)

/-- A finalization gives a job that is due its status, or finds a job that does not read back. -/
theorem finalize_fitting {out : Except Fault Unit} (judged : Fitting flags due s.live) (owed : due jobId)
    (run : (finalizeJob P jobId).Runs (machine P) s out t) :
    out = .ok () ∧ Fitting flags (fun k => due k ∧ k ≠ jobId) t.live ∨
      (∃ fault, out = .error fault) ∧ t = s ∧ s.live.readable P = false := by
  have comes := finalizeJob_runs run
  cases found : s.live.jobs.get jobId with
  | none =>
    simp only [found] at comes
    obtain ⟨rfl, rfl⟩ := comes
    have absent : t.live.jobStatus jobId = none := congrArg (Option.map JobRow.status) found
    refine .inl ⟨rfl, judged.held, fun k status now clear => judged.fits k status now fun owed => ?_,
      fun k status now both => judged.pends k status now both.1⟩
    refine clear ⟨owed, ?_⟩
    rintro rfl
    cases absent.symm.trans now
  | some row =>
    have unreadable (bad : ¬∃ agg, P.aggregate s.live row = .ok agg ∧ P.dumpsAggregate agg = true) :
        s.live.readable P = false :=
      Bool.eq_false_iff.mpr fun readable => bad (Db.readable_get readable found)
    simp only [found] at comes
    split at comes
    · rename_i error built
      obtain ⟨failed, rfl⟩ := comes
      refine .inr ⟨⟨_, failed⟩, rfl, unreadable ?_⟩
      rintro ⟨agg, built', _⟩
      cases built.symm.trans built'
    · rename_i agg built
      rcases comes with ⟨_, rfl, finalized⟩ | ⟨undumped, rfl, error, failed⟩
      · exact .inl ⟨rfl, judged.finalized owed (jobStatus_some found) (aggregate_succeeded found built) finalized⟩
      · refine .inr ⟨⟨_, failed⟩, rfl, unreadable ?_⟩
        rintro ⟨agg', built', dumps⟩
        cases built.symm.trans built'
        cases undumped.symm.trans dumps

/-- Every job fits its tasks, or some job does not read back. -/
abbrev Judging (P : Platform) (flags : JobId → Bool) (t : Session Db) : Prop :=
  AllFit flags t.live ∨ t.live.readable P = false

theorem finalizeAll_fitting {jobs : List JobId} {out : Except Fault Unit} (distinct : jobs.Nodup)
    (judged : Fitting flags (· ∈ jobs) s.live)
    (run : (Program.forEach jobs (finalizeJob P)).Runs (machine P) s out t) :
    Judging P flags t := by
  induction jobs generalizing s with
  | nil =>
    cases run
    exact .inl ⟨judged.held, fun k status now _ => judged.fits k status now nofun, fun _ _ _ owed => False.elim owed⟩
  | cons jobId rest ih =>
    obtain ⟨absent, distinct⟩ := List.nodup_cons.mp distinct
    rw [Program.forEach] at run
    obtain ⟨first, u, finalized, later⟩ := run.of_bind
    rcases finalize_fitting judged List.mem_cons_self finalized with ⟨rfl, left⟩ | ⟨⟨fault, rfl⟩, rfl, unreadable⟩
    · refine ih distinct ⟨left.held, fun k status now clear => ?_, fun k status now owed => ?_⟩ later
      · refine left.fits k status now fun both => clear ?_
        exact (List.mem_cons.mp both.1).resolve_left both.2
      · refine left.pends k status now ⟨List.mem_cons_of_mem _ owed, ?_⟩
        rintro rfl
        exact absent owed
    · rw [later.2]
      exact .inr unreadable

/-! ## Reports -/

/-- A task in flight is ended or put back: its job is due. -/
theorem AllFit.report (judged : AllFit flags db) (sound : db.Sound) (inFlight : r.status.inFlight = true)
    (touched : db.tasks.Touched db'.tasks taskId r r') (same : r'.jobId = r.jobId) (counted : r.attempt ≤ r'.attempt)
    (away : flags r.jobId = true → r'.status ≠ .queued ∧ r'.status ≠ .leased) (jobs : db'.jobs = db.jobs) :
    Fitting flags (· = r.jobId) db' := by
  have statuses (k : JobId) : db'.jobStatus k = db.jobStatus k := by
    rw [Db.jobStatus, jobs]
    rfl
  constructor
  · intro k flagged
    rw [jobs]
    exact judged.held k flagged
  · intro k status found other
    exact ((Db.Alike.touched touched same other).fits _ _).mpr
      (judged.fits k status ((statuses k).symm.trans found) id)
  · rintro k status found rfl
    have pends := (judged.fits _ status ((statuses _).symm.trans found) id).inFlight sound touched.found rfl inFlight
    exact pends.touched touched same counted away

/-- The rest of a report: it emits, finalizes the task's job and answers. -/
theorem finalizing_fitting {α : Type} {k : Unit → Prog α} {out : Except Fault α}
    (judged : Fitting flags (· = jobId) s.live) (rest : ∀ u, Calls DbOp.reads (k u))
    (run : (finalizeJob P jobId >>= k).Runs (machine P) s out t) : Judging P flags t := by
  obtain ⟨first, u, finalized, later⟩ := run.of_bind
  rcases finalize_fitting judged rfl finalized with ⟨rfl, left⟩ | ⟨⟨fault, rfl⟩, rfl, unreadable⟩
  · obtain rfl := reads_same (rest ()) later
    refine .inl ⟨left.held, fun k status now _ => left.fits k status now fun both => both.2 both.1,
      fun _ _ _ owed => False.elim owed⟩
  · rw [later.2]
    exact .inr unreadable

/-- The reads of the checks on a reporter. -/
def DbOp.checks : DbOp → Bool
  | .getTask _ | .getWorker _ => true
  | _ => false

theorem checks_same {α : Type} {p : Prog α} {out : Except Fault α} (calls : Calls DbOp.checks p)
    (run : p.Runs (machine P) s out t) : t = s := by
  refine calls.keeps (I := fun t => t = s) (fun io c u checks _ same => ?_) run rfl
  obtain ⟨site, op⟩ := c
  cases op with
  | getTask | getWorker => exact same
  | _ => contradiction

/-- A report goes on from the row of a task that is its worker's. -/
theorem requireTaskReporter_runs {α : Type} {w : WorkerId} {principal : Principal} {k : TaskRow → Prog α}
    {out : Except Fault α} (run : (Route.requireTaskReporter taskId w principal >>= k).Runs (machine P) s out t) :
    t = s ∨ ∃ row, s.live.tasks.get taskId = some row ∧ row.workerId = some w ∧ (k row).Runs (machine P) s out t := by
  unfold Route.requireTaskReporter Route.requireTaskWorkerPrincipal at run
  simp only [Program.bind_assoc] at run
  obtain ⟨io, _, answer, u, ran, run⟩ := perform_runs run
  cases ran
  dsimp only at run
  split at run
  · cases run
    exact .inl rfl
  · rename_i row found
    split at run
    · cases run
      exact .inl rfl
    · rename_i owner owned
      rw [Program.bind_assoc] at run
      obtain ⟨first, u, required, run⟩ := run.of_bind
      obtain rfl := checks_same (requireWorkerPrincipal_calls (fun _ => rfl) owner principal) required
      cases first with
      | error error => exact .inl run.2
      | ok worker =>
        simp only [Program.pure_eq, Program.ret_bind, owned] at run
        split at run
        · cases run
          exact .inl rfl
        · rename_i same
          exact .inr ⟨row, found, owned.trans (not_not.mp same), run⟩

/-- Where some task of the job may still run, it need not be finalized. -/
theorem Fitting.spared (judged : Fitting flags (· = jobId) db) (more : ¬db.AllTerminal jobId) :
    AllFit flags db := by
  refine ⟨judged.held, fun k status now _ => ?_, fun _ _ _ owed => False.elim owed⟩
  by_cases here : k = jobId
  · exact (judged.pends k status now here).fits (here ▸ more)
  · exact judged.fits k status now here

/-- Both reports on a job being cancelled: the task is stopped. If its event is refused,
another task of the job may still run. -/
theorem stopTask_fitting {w : WorkerId} {message : String} {brought : List String} {α : Type} {k : Unit → Prog α}
    {out : Except Fault α} (judged : AllFit flags s.live) (sound : s.live.Sound)
    (found : s.live.tasks.get r.id = some r) (owned : r.workerId = some w) (rest : ∀ u, Calls DbOp.reads (k u))
    (heard : (Route.taskCancelledEvent r w message brought).unstorable P ≠ none → r.status.inFlight = true →
      ∃ other, s.live.tasks.get other.id = some other ∧ other.jobId = r.jobId ∧ other.id ≠ r.id ∧
        other.status.terminal = false)
    (run : (Route.stopTask P r w message brought >>= k).Runs (machine P) s out t) : Judging P flags t := by
  unfold Route.stopTask at run
  simp only [Program.bind_assoc] at run
  obtain ⟨io, _, answer, u, ran, run⟩ := perform_runs run
  rw [DbOp.exec] at ran
  rcases setTaskStatus_cases io .cancelled {} found with ⟨legal, wrote⟩ | ⟨error, failed⟩
  · have stopped : cancelRunningTask io r.id w s = (.ok (some (r.stop io.now)),
        .settled ((s.live.setTask r.id {} .cancelled io.now).syncSlots w)) := by
      simp only [cancelRunningTask, Txn.bind_run, Txn.live_run, found, owned, if_true, wrote]
      rfl
    rw [stopped] at ran
    cases ran
    have inFlight : r.status.inFlight = true := by
      have waits := (sound r.id r found).queued
      have ended := (sound r.id r found).settled
      cases status : r.status <;> simp_all [TaskStatus.inFlight, taskCanTransition, taskTransitions]
    have wrote := setTask_wrote found {} .cancelled io.now
    have due : Fitting flags (· = r.jobId) (s.live.setTask r.id {} .cancelled io.now) :=
      judged.report sound inFlight wrote.touched rfl (Nat.le_refl _) (fun _ => ⟨by rintro ⟨⟩, by rintro ⟨⟩⟩) rfl
    rcases emit_cases run with ⟨io', run⟩ | ⟨refused, rfl⟩
    · refine finalizing_fitting ?_ rest run
      exact due.same rfl rfl
    · obtain ⟨other, present, job, apart, open_⟩ := heard refused inFlight
      refine .inl (Fitting.spared (due.same rfl rfl) fun all => ?_)
      have terminal := all other.id other ((wrote.touched.others other.id apart).trans present) job
      cases open_.symm.trans terminal
  · have failed : cancelRunningTask io r.id w s = (.error error, s) := by
      simp only [cancelRunningTask, Txn.bind_run, Txn.live_run, found, owned, if_true, failed]
    rw [failed] at ran
    cases ran
    rw [run.2]
    exact .inl judged

theorem cancelAccepted_iff {db : Db} {row : JobRow} (found : db.jobs.get jobId = some row) :
    cancelAccepted (db.jobs.get jobId) = true ↔ row.status = .cancelling ∨ row.status = .cancelled := by
  rw [found]
  simp [cancelAccepted]

theorem unflagged (judged : AllFit flags db) {row : JobRow} (found : db.jobs.get jobId = some row)
    (going : ¬cancelAccepted (db.jobs.get jobId) = true) : flags jobId = false := by
  have fits := judged.fits jobId row.status (jobStatus_some found) id
  rw [cancelAccepted_iff found] at going
  cases flag : flags jobId with
  | false => rfl
  | true =>
    rw [flag] at fits
    cases status : row.status <;> rw [status] at fits going <;> first | exact False.elim fits | simp at going

/-- A report of failure on the last open task of a job that is being cancelled, with a text
that the driver refuses. -/
def Silences (P : Platform) (request : Request) (s : Session Db) : Prop :=
  match request with
  | .failTask _ taskId failure w _ => (P.textError failure.error).isSome = true ∧
      ∃ r ∈ s.live.tasks.get taskId, r.workerId = some w ∧ s.live.jobStatus r.jobId = some .cancelling ∧
        ∀ other ∈ s.live.jobTasks r.jobId, other.id ≠ taskId → other.status.terminal = true
  | _ => False

instance (P : Platform) (request : Request) (s : Session Db) : Decidable (Silences P request s) := by
  cases request with
  | failTask => exact inferInstanceAs (Decidable (_ ∧ ∃ r ∈ _, _))
  | _ => exact isFalse id

theorem reportFailed_fitting {w : WorkerId} {failure : TaskFailure} {out : Except Fault Reply}
    {attempt : Nat} {principal : Principal} (judged : AllFit flags s.live) (good : s.live.Good)
    (found : s.live.tasks.get r.id = some r) (owned : r.workerId = some w)
    (heard : ¬Silences P (.failTask attempt r.id failure w principal) s)
    (run : (Route.reportFailed P r failure w).Runs (machine P) s out t) :
    Judging P flags t := by
  unfold Route.reportFailed at run
  obtain ⟨io, _, answer, u, ran, run⟩ := perform_runs run
  cases ran
  dsimp only at run
  split at run
  · rename_i stops
    refine stopTask_fitting judged good.sound found owned ?_ (fun refused inFlight => ?_) run
    · exact fun _ => trivial
    obtain ⟨row, linked⟩ := good.linked r.id r found
    have cancelling : row.status = .cancelling := by
      refine ((cancelAccepted_iff linked).mp stops).resolve_right fun cancelled => ?_
      have pends := (judged.fits _ _ (jobStatus_some linked) id).inFlight good.sound found rfl inFlight
      rw [cancelled] at pends
      cases flag : flags r.jobId <;> rw [flag] at pends <;> cases pends.1
    have text : (P.textError failure.error).isSome = true := by
      rw [Option.isSome_iff_ne_none]
      exact fun storable => refused (by simp [NewEvent.unstorable, Route.taskCancelledEvent, storable])
    by_contra none
    refine heard ⟨text, r, found, owned, ?_, fun other listed apart => ?_⟩
    · rw [jobStatus_some linked, cancelling]
    · obtain ⟨member, job⟩ := List.mem_filter.mp listed
      by_contra open_
      exact none ⟨other, Table.get_of_mem member, of_decide_eq_true job, apart, Bool.eq_false_iff.mpr open_⟩
  · rename_i going
    obtain ⟨row, linked⟩ := good.linked r.id r found
    have flag := unflagged judged linked going
    cases run with
    | @call io' _ _ _ _ _ valid run =>
      rcases failTask_cases P io' s r.id (some w) failure.error failure.retriable with
        ⟨row', found', _, legal, storable, failed⟩ | ⟨raised, failed⟩
      · cases found.symm.trans found'
        have step : (machine P).exec io' ⟨.route, .failTask r.id (some w) failure.error failure.retriable⟩ s = _ :=
          failed
        rw [step] at run
        obtain ⟨io'', run⟩ := emit_runs run (taskFailedEvent_storable storable)
        have wrote := fail_wrote found failure.error failure.retriable io'.now
        have inFlight : r.status.inFlight = true := by
          have ended := (good.sound r.id r found).settled
          cases status : r.status <;> simp_all [TaskStatus.inFlight, taskCanTransition, taskTransitions]
        have due : Fitting flags (· = r.jobId) (s.live.fail r failure.error failure.retriable io'.now) := by
          refine judged.report good.sound inFlight wrote.touched ?_ ?_ (fun flagged => ?_) wrote.jobs
          · unfold TaskRow.fail
            split <;> rfl
          · unfold TaskRow.fail
            split <;> exact Nat.le_refl _
          · cases flag.symm.trans flagged
        refine finalizing_fitting ?_ (fun _ => ?_) run
        · exact due.same rfl rfl
        · trivial
      · have step : (machine P).exec io' ⟨.route, .failTask r.id (some w) failure.error failure.retriable⟩ s = _ :=
          failed
        rw [step] at run
        dsimp only at run
        split at run
        · contradiction
        · cases run
          exact .inl judged
        · cases run
          exact .inl judged

theorem emit_same {site : Site} {event : NewEvent} {out : Except Fault Unit}
    (run : (emit site event).Runs (machine P) s out t) (storable : event.unstorable P = none) :
    out = .ok () ∧ t.live.jobs = s.live.jobs ∧ t.live.tasks = s.live.tasks := by
  rw [← Program.bind_ret (emit site event)] at run
  obtain ⟨io, run⟩ := emit_runs run storable
  cases run
  exact ⟨rfl, rfl, rfl⟩

theorem emits_same {ι : Type} {items : List ι} {event : ι → NewEvent} {out : Except Fault Unit}
    (run : (Program.forEach items fun item => emit .route (event item)).Runs (machine P) s out t)
    (storable : ∀ item, (event item).unstorable P = none) :
    out = .ok () ∧ t.live.jobs = s.live.jobs ∧ t.live.tasks = s.live.tasks := by
  induction items generalizing s with
  | nil =>
    cases run
    exact ⟨rfl, rfl, rfl⟩
  | cons item rest ih =>
    rw [Program.forEach] at run
    obtain ⟨io, run⟩ := emit_runs run (storable item)
    obtain ⟨rfl, jobs, tasks⟩ := ih run
    exact ⟨rfl, jobs, tasks⟩

theorem noteMismatch_same {result : TaskResult} {w : WorkerId} {out : Except Fault Unit}
    (run : (Route.noteMismatch r result w).Runs (machine P) s out t) :
    out = .ok () ∧ t.live.jobs = s.live.jobs ∧ t.live.tasks = s.live.tasks := by
  unfold Route.noteMismatch at run
  split at run
  · exact emit_same run rfl
  · cases run
    exact ⟨rfl, rfl, rfl⟩

/-- A completion is recorded, or the route fails and nothing has changed. -/
theorem recordCompleted_runs {w : WorkerId} {result : TaskResult} {out : Except Fault TaskRow}
    (run : ((perform .route (.completeTask taskId w result)).handle Route.completeFailed).Runs (machine P) s out t) :
    (∃ row value now, s.live.tasks.get taskId = some row ∧ row.status = .running ∧ out = .ok value ∧
      t = .settled ((s.live.setTask taskId { result := some result } .succeeded now).syncSlots w)) ∨
    t = s ∧ ∃ fault, out = .error fault := by
  obtain ⟨first, u, made, handled⟩ := run.of_handle
  unfold perform at made
  cases made with
  | @call io _ _ _ _ _ valid made =>
    rcases completeTask_cases io s taskId w result with ⟨row, found, _, running, ran⟩ | ⟨error, ran⟩
    · have step : (machine P).exec io ⟨.route, .completeTask taskId w result⟩ s = _ := ran
      rw [step] at made
      cases made
      obtain ⟨rfl, rfl⟩ := handled
      exact .inl ⟨row, _, _, found, running, rfl, rfl⟩
    · have step : (machine P).exec io ⟨.route, .completeTask taskId w result⟩ s = _ := ran
      rw [step] at made
      cases made
      dsimp only at handled
      unfold Route.completeFailed at handled
      split at handled <;> cases handled <;> exact .inr ⟨rfl, _, rfl⟩

theorem reportCompleted_fitting {w : WorkerId} {result : TaskResult} {principal : Principal} {α : Type}
    {k : Unit → Prog α} {out : Except Fault α} (judged : AllFit flags s.live) (good : s.live.Good)
    (found : s.live.tasks.get r.id = some r) (owned : r.workerId = some w) (rest : ∀ u, Calls DbOp.reads (k u))
    (run : (Route.reportCompleted P r result w principal >>= k).Runs (machine P) s out t) : Judging P flags t := by
  unfold Route.reportCompleted at run
  simp only [Program.bind_assoc] at run
  obtain ⟨io, _, answer, u, ran, run⟩ := perform_runs run
  cases ran
  dsimp only at run
  split at run
  · exact stopTask_fitting judged good.sound found owned rest (fun refused => absurd rfl refused) run
  · simp only [Program.bind_assoc] at run
    obtain ⟨first, u, recorded, run⟩ := run.of_bind
    rcases recordCompleted_runs recorded with ⟨row, value, now, found', running, rfl, rfl⟩ | ⟨rfl, fault, rfl⟩
    · cases found.symm.trans found'
      have wrote := setTask_wrote found { result := some (Route.attestedResult result r w principal) } .succeeded now
      have due : Fitting flags (· = r.jobId) (s.live.setTask r.id
          { result := some (Route.attestedResult result r w principal) } .succeeded now) :=
        judged.report good.sound (by rw [running]; rfl) wrote.touched rfl (Nat.le_refl _) (fun _ => ⟨by rintro ⟨⟩, by rintro ⟨⟩⟩) rfl
      dsimp only at run
      unfold Route.taskCompleted at run
      simp only [Program.bind_assoc] at run
      obtain ⟨first, u, noted, run⟩ := run.of_bind
      obtain ⟨rfl, jobs, tasks⟩ := noteMismatch_same noted
      obtain ⟨io', run⟩ := emit_runs run rfl
      refine finalizing_fitting ?_ rest run
      exact due.same jobs tasks
    · rw [run.2]
      exact .inl judged

theorem resolve_kept (r : TaskRow) (error : String) (job : JobStatus) (now : Time) :
    (r.resolve error job now).jobId = r.jobId ∧ (r.resolve error job now).attempt = r.attempt := by
  unfold TaskRow.resolve
  split
  · exact ⟨rfl, rfl⟩
  · split <;> exact ⟨rfl, rfl⟩

/-- The jobs of the rows a reaper resolves are due, besides those that were. -/
theorem Fitting.reaped {rows : List (TaskRow × JobStatus)} (judged : Fitting flags due db) (sound : db.Sound)
    (lost : db.Lost rows) (error : String) (now : Time) :
    Fitting flags (fun k => due k ∨ ∃ row ∈ rows, row.1.jobId = k) (rows.foldl (Db.resolveTurn error now) db) := by
  obtain ⟨inside, outside⟩ := reapRows_get lost error now
  have jobs := resolveTurns_jobs rows error now db
  generalize rows.foldl (Db.resolveTurn error now) db = after at inside outside jobs
  have statuses (k : JobId) : after.jobStatus k = db.jobStatus k := by
    rw [Db.jobStatus, jobs]
    rfl
  have back {taskId : TaskId} {r' : TaskRow} (found : after.tasks.get taskId = some r') :
      (∃ row ∈ rows, r' = row.1.resolve error row.2 now) ∨ db.tasks.get taskId = some r' := by
    by_cases reaped : ∃ row ∈ rows, row.1.id = taskId
    · obtain ⟨row, member, rfl⟩ := reaped
      exact .inl ⟨row, member, Option.some.inj (found.symm.trans (inside row member))⟩
    · push Not at reaped
      exact .inr ((outside taskId reaped).symm.trans found)
  have ahead {taskId : TaskId} {r : TaskRow} (found : db.tasks.get taskId = some r) :
      (∃ row ∈ rows, row.1 = r ∧ after.tasks.get taskId = some (r.resolve error row.2 now)) ∨
        after.tasks.get taskId = some r := by
    by_cases reaped : ∃ row ∈ rows, row.1.id = taskId
    · obtain ⟨row, member, rfl⟩ := reaped
      cases found.symm.trans (lost.found row member)
      exact .inl ⟨row, member, rfl, inside row member⟩
    · push Not at reaped
      exact .inr ((outside taskId reaped).trans found)
  constructor
  · intro k flagged
    rw [jobs]
    exact judged.held k flagged
  · intro k status found clear
    have alike : db.Alike after k := by
      intro p
      constructor
      · intro every taskId r task job
        rcases ahead task with ⟨row, member, rfl, _⟩ | same
        · exact absurd (.inr ⟨row, member, job⟩) clear
        · exact every taskId r same job
      · intro every taskId r' task job
        rcases back task with ⟨row, member, rfl⟩ | same
        · exact absurd (.inr ⟨row, member, (resolve_kept ..).1.symm.trans job⟩) clear
        · exact every taskId r' same job
    exact (alike.fits _ _).mpr (judged.fits k status ((statuses k).symm.trans found) fun owed => clear (.inl owed))
  · intro k status found owed
    have before := (statuses k).symm.trans found
    have pends : db.Pends k (flags k) status := by
      by_cases old : due k
      · exact judged.pends k status before old
      · obtain ⟨row, member, rfl⟩ := owed.resolve_left old
        exact (judged.fits _ status before old).inFlight sound (lost.found row member) rfl (lost.inFlight row member)
    cases flag : flags k with
    | false =>
      rw [flag] at pends
      refine ⟨pends.1, fun untouched => pends.2 fun taskId r task job => ?_⟩
      rcases ahead task with ⟨row, member, rfl, now'⟩ | same
      · have none := untouched taskId _ now' ((resolve_kept ..).1.trans job)
        exact (resolve_kept ..).2.symm.trans none
      · exact untouched taskId r same job
    | true =>
      rw [flag] at pends
      obtain ⟨rfl, withdrawn⟩ := pends
      refine ⟨rfl, fun taskId r' task job => ?_⟩
      rcases back task with ⟨row, member, rfl⟩ | same
      · obtain ⟨j, held, status⟩ := lost.job row member
        rw [← (resolve_kept row.1 error row.2 now).1, job] at held
        have cancelling : row.2 = .cancelling :=
          status.symm.trans (Option.some.inj ((jobStatus_some held).symm.trans before))
        rw [resolve_status, if_pos (.inl cancelling)]
        exact ⟨by rintro ⟨⟩, by rintro ⟨⟩⟩
      · exact withdrawn taskId r' same job

/-- The rows of a reaper's answer are due after it. -/
theorem reapRows_fitting (io : Io) {rows : List (TaskRow × JobStatus)} (judged : Fitting flags due s.live)
    (sound : s.live.Sound) (lost : s.live.Lost rows) (error : String) :
    ∃ affected, (reapRows io error rows s).1 = .ok affected ∧
      Fitting flags (fun k => due k ∨ k ∈ affected.map Prod.snd) (reapRows io error rows s).2.live := by
  rw [reapRows_ok lost]
  refine ⟨_, rfl, ?_⟩
  have same (k : JobId) : (∃ row ∈ rows, row.1.jobId = k) ↔
      k ∈ (rows.map fun row => (row.1.id, row.1.jobId)).map Prod.snd := by
    simp
  have reaped := judged.reaped sound lost error io.now
  simp only [same] at reaped
  split
  · rename_i empty
    subst empty
    exact reaped
  · exact reaped

/-- The jobs a reaping reports are finalized once each. -/
theorem finalizeReaped_fitting {order : SetOrder} {lost affected : List (TaskId × JobId)} {out : Except Fault Unit}
    (judged : Fitting flags (· ∈ (lost ++ affected).map Prod.snd) s.live)
    (run : (finalizeReaped P order lost affected).Runs (machine P) s out t) : Judging P flags t := by
  unfold finalizeReaped at run
  obtain ⟨first, u, emitted, later⟩ := run.of_bind
  obtain ⟨rfl, jobs, tasks⟩ := emits_same emitted fun _ => rfl
  have ordered := order.lists ((lost ++ affected).map Prod.snd)
  have same (k : JobId) : k ∈ order.order ((lost ++ affected).map Prod.snd) ↔ k ∈ (lost ++ affected).map Prod.snd := by
    rw [ordered.mem_iff, List.mem_dedup]
  apply finalizeAll_fitting (ordered.nodup_iff.mpr (List.nodup_dedup _)) ?_ later
  simp only [same]
  exact judged.same jobs tasks

theorem reapLeases_fitting {order : SetOrder} {lost : List (TaskId × JobId)} {out : Except Fault Unit}
    (judged : Fitting flags (· ∈ lost.map Prod.snd) s.live) (sound : Sound s)
    (run : (reapLeases P order lost).Runs (machine P) s out t) : Judging P flags t := by
  unfold reapLeases at run
  obtain ⟨first, u, emitted, later⟩ := run.of_bind
  have sound := (runs_sound (forEach_calls _ fun _ => emit_calls rfl) emitted sound).1
  obtain ⟨rfl, jobs, tasks⟩ := emits_same emitted fun _ => rfl
  have judged := judged.same jobs tasks
  clear run emitted jobs tasks
  obtain ⟨io, _, answer, v, ran, run⟩ := perform_runs later
  obtain ⟨rows, expired, reaping⟩ := reapExpiredLeases_rows io u
  obtain ⟨affected, answered, reaped⟩ := reapRows_fitting io judged sound.good.sound expired "lease expired"
  rw [← reaping] at answered reaped
  rw [DbOp.exec] at ran
  rw [ran] at answered reaped
  cases answered
  apply finalizeReaped_fitting ?_ run
  simp only [List.map_append, List.mem_append]
  exact reaped

theorem reap_fitting {order : SetOrder} {out : Except Fault Unit} (judged : AllFit flags s.live) (sound : Sound s)
    (run : (reap P config order).Runs (machine P) s out t) : Judging P flags t := by
  unfold reap at run
  obtain ⟨io, fresh, answer, u, ran, run⟩ := perform_runs run
  have marked : AllFit flags u.live ∧ Sound u := by
    have after : (DbOp.markDeadWorkers config.workerDeadAfterS).after P io s = u := congrArg Prod.snd ran
    rw [← after]
    exact ⟨exec_fitting rfl fresh sound judged, (exec_sound rfl fresh sound).1⟩
  clear ran
  obtain ⟨judged, sound⟩ := marked
  cases answer with
  | error error =>
    rw [run.2]
    exact .inl judged
  | ok dead =>
    dsimp only at run
    obtain ⟨first, v, emitted, later⟩ := run.of_bind
    have sound := (runs_sound (forEach_calls _ fun _ => emit_calls rfl) emitted sound).1
    obtain ⟨rfl, jobs, tasks⟩ := emits_same emitted fun _ => rfl
    have judged := judged.same jobs tasks
    clear run emitted jobs tasks
    obtain ⟨io', _, answer, w, ran, run⟩ := perform_runs later
    obtain ⟨rows, dying, reaping⟩ := reapTasksForWorkers_rows io' v dead "worker lost"
    obtain ⟨lost, answered, reaped⟩ := reapRows_fitting io' judged sound.good.sound dying "worker lost"
    have fresh : Fresh io' v.live (.reapTasksForWorkers dead "worker lost") := trivial
    have sound : Sound ((DbOp.reapTasksForWorkers dead "worker lost").after P io' v) :=
      (exec_sound rfl fresh sound).1
    rw [← reaping] at answered reaped
    rw [DbOp.after, DbOp.exec] at sound
    rw [DbOp.exec] at ran
    rw [ran] at answered reaped sound
    cases answered
    apply reapLeases_fitting ?_ sound run
    simpa using reaped

theorem Db.readable_same (jobs : db'.jobs = db.jobs) (tasks : db'.tasks = db.tasks) :
    db'.readable P = db.readable P := by
  rw [Db.readable, jobs]
  simp only [Platform.aggregate, Db.tasksOf, tasks]
  rfl

theorem reaperTick_fitting {order : SetOrder} {out : Except Fault Reply} (judged : AllFit flags s.live) (sound : Sound s)
    (run : (reaperTick P config order).Runs (machine P) s out t) : Judging P flags t := by
  unfold reaperTick at run
  obtain ⟨first, u, ticked, later⟩ := run.of_bind
  obtain ⟨inner, v, reaped, handled⟩ := ticked.of_handle
  have judging := reap_fitting judged sound reaped
  have same : t = u := by
    cases first with
    | ok => 
      cases later
      rfl
    | error => exact later.2
  subst same
  cases inner with
  | ok => 
    rw [handled.2]
    exact judging
  | error fault =>
    obtain ⟨_, jobs, tasks⟩ := emit_same handled rfl
    rcases judging with judged | unreadable
    · exact .inl (judged.same jobs tasks)
    · exact .inr ((Db.readable_same jobs tasks).trans unreadable)

theorem cancelTasks_get (db : Db) (jobId : JobId) (now : Time) (taskId : TaskId) :
    (db.cancelTasks jobId now).tasks.get taskId =
      (db.tasks.get taskId).map fun r => if r.jobId = jobId then r.cancelled now else r :=
  cancelJobTasks_get db jobId now taskId

theorem cancelled_kept (r : TaskRow) (now : Time) : (r.cancelled now).jobId = r.jobId := by
  unfold TaskRow.cancelled
  split <;> rfl

/-- No task of the job waits any more. -/
theorem cancelTasks_withdrawn (db : Db) (jobId : JobId) (now : Time) :
    (db.cancelTasks jobId now).Withdrawn jobId := by
  intro taskId r' found job
  rw [cancelTasks_get] at found
  obtain ⟨r, before, rfl⟩ := Option.map_eq_some_iff.mp found
  by_cases here : r.jobId = jobId
  · rw [if_pos here]
    unfold TaskRow.cancelled
    split
    · exact ⟨nofun, nofun⟩
    · rename_i away
      exact not_or.mp away
  · rw [if_neg here] at job
    exact absurd job here

/-- The tasks of other jobs stay. -/
theorem cancelTasks_others {k : JobId} (db : Db) (now : Time) (other : k ≠ jobId) :
    db.Alike (db.cancelTasks jobId now) k := by
  intro p
  constructor
  · intro every taskId r found job
    have now' := every taskId r (by rw [cancelTasks_get, found, Option.map_some, if_neg (job.symm ▸ other)]) job
    exact now'
  · intro every taskId r' found job
    rw [cancelTasks_get] at found
    obtain ⟨r, before, rfl⟩ := Option.map_eq_some_iff.mp found
    by_cases here : r.jobId = jobId
    · rw [if_pos here, cancelled_kept] at job
      exact absurd (job.symm.trans here) other
    · rw [if_neg here] at job ⊢
      exact every taskId r before job

theorem cancelTasks_terminal (jobId : JobId) (now : Time) (sound : db.Sound) :
    (db.cancelTasks jobId now).AllTerminal jobId ↔ db.stillRunning jobId = [] := by
  have ran : cancelJobTasks { now := now } jobId (.settled db) =
      (.ok (db.stillRunning jobId), .settled (db.cancelTasks jobId now)) := cancelJobTasks_ok jobId
  constructor
  · exact fun all => cancelJobTasks_running ran all
  · exact fun none => cancelJobTasks_terminal sound none ran

/-- The status a cancellation asks for goes with the tasks it leaves. -/
theorem cancelTasks_fits (jobId : JobId) (now : Time) (sound : db.Sound) :
    (db.cancelTasks jobId now).Fits jobId true (cancelStatus (db.stillRunning jobId)) := by
  have withdrawn := cancelTasks_withdrawn db jobId now
  have terminal := cancelTasks_terminal jobId now sound
  cases running : db.stillRunning jobId with
  | nil => exact ⟨withdrawn, terminal.mpr running⟩
  | cons first rest =>
    refine ⟨withdrawn, fun all => ?_⟩
    rw [terminal.mp all] at running
    contradiction

/-- An accepted cancellation is on record, whether or not its request is answered. -/
theorem cancelJob_fitting {out : Except Fault Reply} {row : JobRow} (judged : AllFit flags s.live) (sound : s.live.Sound)
    (found : s.live.jobs.get jobId = some row) (open_ : row.status.terminal = false)
    (run : (Route.cancelJob P jobId).Runs (machine P) s out t) :
    AllFit (fun k => k = jobId || flags k) t.live := by
  have comes := cancelJob_runs run
  simp only [found, open_, Bool.false_eq_true, if_false] at comes
  obtain ⟨now, now', comes⟩ := comes
  have fits := cancelTasks_fits jobId now sound
  have all (statuses : ∀ j, t.live.jobStatus j =
        if j = jobId then some (cancelStatus (s.live.stillRunning jobId)) else s.live.jobStatus j)
      (tasks : t.live.tasks = (s.live.cancelTasks jobId now).tasks) :
      AllFit (fun k => k = jobId || flags k) t.live := by
    have alike (k : JobId) : (s.live.cancelTasks jobId now).Alike t.live k := .of_tasks tasks
    constructor
    · intro k flagged
      rw [← Option.isSome_map (f := JobRow.status)]
      change (t.live.jobStatus k).isSome = true
      rw [statuses]
      split
      · rfl
      · rename_i other
        have held := judged.held k (by simpa [other] using flagged)
        rw [← Option.isSome_map (f := JobRow.status)] at held
        exact held
    · intro k status now'' _
      rw [statuses] at now''
      split at now''
      · rename_i here
        cases now''
        subst here
        simpa using ((alike _).fits _ _).mpr fits
      · rename_i other
        simpa [other] using ((alike k).fits _ _).mpr
          (((cancelTasks_others s.live now other).fits _ _).mpr (judged.fits k status now'' id))
    · exact fun _ _ _ owed => False.elim owed
  have held : ((s.live.cancelTasks jobId now).jobs.get jobId).isSome = true := by
    rw [cancelTasks_jobs, found]
    rfl
  have before (k : JobId) : (s.live.cancelTasks jobId now).jobStatus k = s.live.jobStatus k := by
    rw [Db.jobStatus, cancelTasks_jobs]
    rfl
  split at comes
  · rename_i legal
    have moved (k : JobId) := (moveJob_status _ jobId (cancelStatus (s.live.stillRunning jobId)) none now' k held)
    have status := (moved jobId).trans (if_pos rfl)
    obtain ⟨tasks, kept, _⟩ := cancelRequested_runs comes
      (Option.isSome_map.symm.trans (congrArg Option.isSome status)) (by
        rintro final ⟨terminal, status', same, legal'⟩
        cases status.symm.trans same
        have none := (cancelTasks_terminal jobId now sound).mp terminal
        rw [none] at legal'
        contradiction)
    apply all (fun j => ?_) tasks
    rw [kept]
    exact (moved j).trans (by rw [before])
  · rename_i illegal
    obtain ⟨_, rfl⟩ := comes
    apply all (fun j => ?_) rfl
    refine (before j).trans ?_
    split
    · rename_i here
      subst here
      rw [jobStatus_some found]
      have requested : cancelStatus (s.live.stillRunning j) = .cancelling ∨ cancelStatus (s.live.stillRunning j) = .cancelled := by
        unfold cancelStatus
        split <;> simp
      cases status : row.status <;> rcases requested with requested | requested <;>
        simp_all [jobCanTransition, jobTransitions, JobStatus.terminal]
    · rfl

/-! ## Requests served whole -/

/-- A cancellation of the job was served while the job was not terminal. -/
def cancelledIn (log : List (Request × Session Db)) (jobId : JobId) : Bool :=
  log.any fun served => match served.1 with
    | .cancelJob j => jobId = j && (served.2.live.jobStatus j).any fun status => !status.terminal
    | _ => false

variable {log : List (Request × Session Db)}

theorem cancelledIn_other {request : Request} (other : ∀ j, request ≠ .cancelJob j) :
    cancelledIn ((request, s) :: log) = cancelledIn log := by
  funext k
  rw [cancelledIn, List.any_cons]
  cases request with
  | cancelJob j => exact absurd rfl (other j)
  | _ => rfl

theorem cancelledIn_settled (settled : ∀ row, s.live.jobs.get jobId = some row → row.status.terminal = true) :
    cancelledIn ((.cancelJob jobId, s) :: log) = cancelledIn log := by
  funext k
  rw [cancelledIn, List.any_cons]
  dsimp only
  rw [Db.jobStatus]
  cases found : s.live.jobs.get jobId with
  | none => simp [cancelledIn]
  | some row => simp [cancelledIn, settled row found]

theorem cancelledIn_accepted {row : JobRow} (found : s.live.jobs.get jobId = some row)
    (open_ : row.status.terminal = false) :
    cancelledIn ((.cancelJob jobId, s) :: log) = fun k => k = jobId || cancelledIn log k := by
  funext k
  rw [cancelledIn, List.any_cons]
  dsimp only
  rw [jobStatus_some found]
  simp [cancelledIn, open_]

/-- Every request leaves each job with the status that fits its tasks, or a job that does not
read back. -/
theorem serves_fitting {request : Request} {out : Except Fault Reply} (sound : Sound s)
    (judged : AllFit (cancelledIn log) s.live) (heard : ¬Silences P request s)
    (run : (handler P config request).Runs (machine P) s out t) :
    Judging P (cancelledIn ((request, s) :: log)) t := by
  cases request with
  | cancelJob jobId =>
    by_cases settled : ∀ row, s.live.jobs.get jobId = some row → row.status.terminal = true
    · rw [cancelledIn_settled settled, (cancel_settled run settled).1]
      exact .inl judged
    · push Not at settled
      obtain ⟨row, found, open_⟩ := settled
      have open_ : row.status.terminal = false := Bool.not_eq_true _ ▸ open_
      rw [cancelledIn_accepted found open_]
      exact .inl (cancelJob_fitting judged sound.good.sound found open_ run)
  | completeTask attempt taskId result w principal =>
    rw [cancelledIn_other fun _ same => by cases same]
    rcases requireTaskReporter_runs run with rfl | ⟨row, found, owned, reported⟩
    · exact .inl judged
    · obtain rfl : row.id = taskId := Table.get_key found
      exact reportCompleted_fitting judged sound.good found owned (fun _ => trivial : ∀ _, Calls DbOp.reads (.ret Reply.ok)) reported
  | failTask attempt taskId failure w principal =>
    rw [cancelledIn_other fun _ same => by cases same]
    rcases requireTaskReporter_runs run with rfl | ⟨row, found, owned, reported⟩
    · exact .inl judged
    · obtain rfl : row.id = taskId := Table.get_key found
      exact reportFailed_fitting judged sound.good found owned heard reported
  | reaperTick order =>
    rw [cancelledIn_other fun _ same => by cases same]
    exact reaperTick_fitting judged sound run
  | submitJob | registerWorker | heartbeat | lease | startTask | taskEvent | uploadInput | uploadArtifact =>
    rw [cancelledIn_other fun _ same => by cases same]
    exact .inl (harmless_fitting (handler_harmless rfl) run sound judged)

theorem started_fitting : AllFit (cancelledIn []) (Session.settled {}).live where
  held _ flagged := nomatch flagged
  fits _ _ found _ := by cases found
  pends _ _ _ owed := False.elim owed

/-- The status of a job by its tasks, and by whether a cancellation was accepted while it was
not terminal. A task was leased as often as its row counts attempts. -/
def verdict (cancelled : Bool) (tasks : List TaskRow) : JobStatus :=
  if cancelled then
    if tasks.any fun r => r.status = .running then .cancelling else .cancelled
  else if tasks.all fun r => r.attempt = 0 then .queued
  else if tasks.any fun r => !r.status.terminal then .running
  else if tasks.any fun r => r.status = .succeeded then .succeeded
  else .failed

theorem every_iff {p : TaskStatus → Nat → Prop} : db.Every jobId p ↔ ∀ r ∈ db.jobTasks jobId, p r.status r.attempt := by
  simp only [Db.jobTasks, List.mem_filter, decide_eq_true_eq]
  constructor
  · exact fun every r listed => every r.id r (Table.get_of_mem listed.1) listed.2
  · exact fun every taskId r found job => every r ⟨Table.mem_of_get found, job⟩

theorem Db.Fits.verdict (fits : db.Fits jobId cancelled status) (sound : db.Sound) :
    status = verdict cancelled (db.jobTasks jobId) := by
  have untouched : db.Untouched jobId ↔ ((db.jobTasks jobId).all fun r => r.attempt = 0) = true := by
    rw [Db.Untouched, every_iff]
    simp
  have terminal : db.AllTerminal jobId ↔ ((db.jobTasks jobId).any fun r => !r.status.terminal) = false := by
    have every : db.AllTerminal jobId ↔ ∀ r ∈ db.jobTasks jobId, r.status.terminal = true :=
      every_iff (p := fun status _ => status.terminal = true)
    rw [every]
    simp
  have succeeded : db.SomeSucceeded jobId ↔ ((db.jobTasks jobId).any fun r => r.status = .succeeded) = true := by
    rw [someSucceeded_iff, every_iff]
    simp
  have running (withdrawn : db.Withdrawn jobId) :
      db.AllTerminal jobId ↔ ((db.jobTasks jobId).any fun r => r.status = .running) = false := by
    rw [terminal, List.any_eq_false, List.any_eq_false]
    apply forall₂_congr
    intro r listed
    have away := every_iff.mp withdrawn r listed
    have unlost : r.status ≠ .lost := by
      have member := List.mem_filter.mp listed
      exact (sound r.id r (Table.get_of_mem member.1)).settled
    cases status : r.status <;> simp_all [TaskStatus.terminal]
  unfold N4Cluster.verdict
  cases cancelled <;> cases status
  case false.queued => simp [untouched.mp fits]
  case false.running =>
    obtain ⟨touched, more⟩ := fits
    rw [untouched] at touched
    rw [terminal, Bool.not_eq_false] at more
    simp [touched, more]
  case false.succeeded =>
    obtain ⟨touched, all, some⟩ := fits
    rw [untouched] at touched
    simp [touched, terminal.mp all, succeeded.mp some]
  case false.failed =>
    obtain ⟨touched, all, none⟩ := fits
    rw [untouched] at touched
    rw [succeeded, Bool.not_eq_true] at none
    simp [touched, terminal.mp all, none]
  case true.cancelling =>
    obtain ⟨withdrawn, more⟩ := fits
    rw [running withdrawn, Bool.not_eq_false] at more
    simp [more]
  case true.cancelled => simp [(running fits.1).mp fits.2]
  all_goals exact False.elim fits

/-- Every job has the status its tasks and its cancellation give it, and no task of a
cancelled job waits. -/
def Verdicts (log : List (Request × Session Db)) (db : Db) : Prop :=
  ∀ jobId row, db.jobs.get jobId = some row →
    row.status = verdict (cancelledIn log jobId) (db.jobTasks jobId) ∧
      (cancelledIn log jobId = true → ∀ r ∈ db.jobTasks jobId, r.status ≠ .queued ∧ r.status ≠ .leased)

theorem AllFit.answers (judged : AllFit (cancelledIn log) db) (sound : db.Sound) : Verdicts log db := by
  intro jobId row found
  have fits := judged.fits jobId row.status (jobStatus_some found) id
  refine ⟨fits.verdict sound, fun flagged => ?_⟩
  rw [flagged] at fits
  have withdrawn : db.Withdrawn jobId := by
    cases status : row.status <;> rw [status] at fits <;> first | exact fits.1 | exact False.elim fits
  exact every_iff.mp withdrawn

/-- Whatever requests are served whole, one after another, as long as every job reads back and
the end of no cancelled job is reported in a text that the driver refuses. -/
theorem verdicts (served : System.Logs (server P config) (fun s => s.live.readable P = true) (.settled {}) log s)
    (heard : ∀ entry ∈ log, ¬Silences P entry.1 entry.2) : Verdicts log s.live := by
  have judged : Sound s ∧ AllFit (cancelledIn log) s.live := by
    induction served with
    | start => exact ⟨started_sound, started_fitting⟩
    | next _ run readable ih =>
      obtain ⟨now, before⟩ := List.forall_mem_cons.mp heard
      obtain ⟨sound, judged⟩ := ih before
      refine ⟨(runs_sound (handler_routed _) run sound).1, ?_⟩
      rcases serves_fitting sound judged now run with judged | unreadable
      · exact judged
      · exact nomatch readable.symm.trans unreadable
  exact judged.2.answers judged.1.good.sound

/-- The job of a running task is cancelled, and then the task reports. -/
theorem verdicts_cancelled : ∃ log s,
    System.Logs (server .plain {}) (fun s => s.live.readable .plain = true) (.settled {}) log s ∧
    Verdicts log s.live ∧ cancelledIn log "job_0" = true ∧ s.live.jobStatus "job_0" = some .cancelled := by
  have served : ((server .plain {}).logAll (fun s => s.live.readable .plain = true)
      (runningRequests ++ [(.cancelJob "job_0", { now := 5 }),
        (.completeTask 1 "task_1" {} "worker_0" {}, { now := 6 })]) [] (.settled {})).any
      (fun out => decide (∀ entry ∈ out.1, ¬Silences .plain entry.1 entry.2) &&
        decide (cancelledIn out.1 "job_0" = true ∧ out.2.live.jobStatus "job_0" = some .cancelled)) =
      true := by decide +kernel
  obtain ⟨log, s, logs, facts⟩ := System.logAll_any served
  clear served
  obtain ⟨heard, facts⟩ := Bool.and_eq_true_iff.mp facts
  exact ⟨log, s, logs, verdicts logs (of_decide_eq_true heard), of_decide_eq_true facts⟩

/-- Where a job's tolerance does not read back its finalization raises: the job stays running
with its only task succeeded. -/
theorem verdict_withheld : ¬∀ log s, System.Logs (server .plain {}) (fun _ => True) (.settled {}) log s →
    Verdicts log s.live := by
  intro verdicts
  have served : ((server .plain {}).logAll (fun _ => True)
      ((Request.submitJob endlessTolerance {}, { now := 1 }) :: runningRequests.tail ++
        [(.completeTask 1 "task_1" {} "worker_0" {}, { now := 5 })]) [] (.settled {})).any
      (fun out => decide (((out.2.live.jobs.get "job_0").map JobRow.status) = some .running ∧
        verdict (cancelledIn out.1 "job_0") (out.2.live.jobTasks "job_0") = .succeeded)) = true := by decide +kernel
  obtain ⟨log, s, logs, facts⟩ := System.logAll_any served
  clear served
  obtain ⟨status, fitting⟩ := of_decide_eq_true facts
  obtain ⟨row, found, running⟩ := Option.map_eq_some_iff.mp status
  have same := (verdicts log s logs "job_0" row found).1
  rw [running, fitting] at same
  contradiction

end N4Cluster
