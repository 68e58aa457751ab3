import N4Cluster.Server.Statuses
import N4Cluster.Server.Handlers

/-! What every step of a handler or of the reaper does to the store, whoever
makes it: terminal rows stay as they are, a job gains no tasks after its own
insertion, and no job goes back to `queued`. -/
namespace N4Cluster
open Relational Transactional Relation Interleave

/-- The calls handlers make: no bare inserts, no status but the ones they choose
from, no failure without a worker. -/
def DbOp.routed : DbOp → Bool
  | .createJob _ _ | .createTasksForJob _ _ => false
  | .setJobStatus _ status _ => status = .cancelling || status = .cancelled
  | .trySetJobStatus _ new => new.terminal
  | .failTask _ o _ _ => o.isSome
  | _ => true

/-- Every task of the job is in a terminal status. -/
def Db.AllTerminal (db : Db) (jobId : JobId) : Prop :=
  ∀ taskId r, db.tasks.get taskId = some r → r.jobId = jobId → r.status.terminal = true

def Db.Settled (db : Db) (jobId : JobId) : Prop :=
  ∃ row, db.jobs.get jobId = some row ∧ row.status.terminal = true

structure Evolves (db db' : Db) : Prop where
  task : ∀ taskId r, db.tasks.get taskId = some r → ∃ r', db'.tasks.get taskId = some r' ∧
    r'.jobId = r.jobId ∧ (r.status.terminal = true → r' = r)
  origin : ∀ taskId r', db'.tasks.get taskId = some r' →
    (∃ r, db.tasks.get taskId = some r) ∨ db.jobs.get r'.jobId = none
  job : ∀ jobId row, db.jobs.get jobId = some row → ∃ row', db'.jobs.get jobId = some row' ∧
    row'.request = row.request ∧ (row.status.terminal = true → row'.status = row.status)

namespace Evolves
variable {a b c : Db}

theorem refl (db : Db) : Evolves db db :=
  ⟨fun _ r found => ⟨r, found, rfl, fun _ => rfl⟩, fun _ r found => .inl ⟨r, found⟩,
    fun _ row found => ⟨row, found, rfl, fun _ => rfl⟩⟩

theorem trans (first : Evolves a b) (second : Evolves b c) : Evolves a c where
  task taskId r found := by
    obtain ⟨r', found', job, kept⟩ := first.task taskId r found
    obtain ⟨r'', found'', job', kept'⟩ := second.task taskId r' found'
    refine ⟨r'', found'', job'.trans job, fun terminal => ?_⟩
    have same := kept terminal
    exact (kept' (same ▸ terminal)).trans same
  origin taskId r'' found := by
    rcases second.origin taskId r'' found with ⟨r', found'⟩ | fresh
    · rcases first.origin taskId r' found' with old | fresh
      · exact .inl old
      · obtain ⟨same, held, job, _⟩ := second.task taskId r' found'
        cases held.symm.trans found
        exact .inr (job ▸ fresh)
    · refine .inr ?_
      cases held : a.jobs.get r''.jobId with
      | none => rfl
      | some row =>
        obtain ⟨row', found', _⟩ := first.job _ row held
        exact nomatch fresh.symm.trans found'
  job jobId row found := by
    obtain ⟨row', found', request, kept⟩ := first.job jobId row found
    obtain ⟨row'', found'', request', kept'⟩ := second.job jobId row' found'
    refine ⟨row'', found'', request'.trans request, fun terminal => ?_⟩
    have same := kept terminal
    exact (kept' (same ▸ terminal)).trans same

theorem exists_job (moved : Evolves a b) {jobId : JobId} (held : (a.jobs.get jobId).isSome = true) :
    (b.jobs.get jobId).isSome = true := by
  obtain ⟨row, found⟩ := Option.isSome_iff_exists.mp held
  obtain ⟨row', found', _⟩ := moved.job jobId row found
  rw [found']
  rfl

/-- A job all of whose tasks are terminal stays so. -/
theorem allTerminal (moved : Evolves a b) {jobId : JobId}
    (held : (a.jobs.get jobId).isSome = true) (all : a.AllTerminal jobId) : b.AllTerminal jobId := by
  intro taskId r' found job
  rcases moved.origin taskId r' found with ⟨r, before⟩ | fresh
  · obtain ⟨same, now, job', kept⟩ := moved.task taskId r before
    cases now.symm.trans found
    have terminal := all taskId r before (job'.symm.trans job)
    rw [kept terminal]
    exact terminal
  · rw [job] at fresh
    rw [fresh] at held
    contradiction

theorem settled (moved : Evolves a b) {jobId : JobId} (settled : a.Settled jobId) : b.Settled jobId := by
  obtain ⟨row, found, terminal⟩ := settled
  obtain ⟨row', found', _, kept⟩ := moved.job jobId row found
  exact ⟨row', found', (kept terminal) ▸ terminal⟩

end Evolves

/-- The invariant of the store under handlers: rows are sound, tasks belong to
jobs, and the tasks of a queued job have never been leased. -/
structure Db.Good (db : Db) : Prop where
  sound : db.Sound
  linked : ∀ taskId r, db.tasks.get taskId = some r → ∃ row, db.jobs.get r.jobId = some row
  unstarted : ∀ taskId r row, db.tasks.get taskId = some r → db.jobs.get r.jobId = some row →
    row.status = .queued → (r.status = .queued ∨ r.status = .cancelled) ∧ r.attempt = 0

theorem empty_good : Db.Good {} :=
  ⟨empty_sound, fun taskId r found => by simp at found, fun taskId r row found => by simp at found⟩

theorem TaskMove.same_job {db : Db} {now : Time} {r r' : TaskRow} {op : DbOp} {o : Option WorkerId}
    (how : TaskMove db now r op r' o) : r'.id = r.id ∧ r'.jobId = r.jobId := by
  cases how with
  | lease | start | complete | stop | cancel => exact ⟨rfl, rfl⟩
  | fail =>
    unfold TaskRow.fail
    split <;> exact ⟨rfl, rfl⟩
  | resolve =>
    unfold TaskRow.resolve
    split
    · exact ⟨rfl, rfl⟩
    · split <;> exact ⟨rfl, rfl⟩

/-- Where a task row comes from: its own earlier row, or an insertion. -/
theorem Move.task_origin {io : Io} {op : DbOp} {db db' : Db} (move : Move io op db db')
    {taskId : TaskId} {r' : TaskRow} (found' : db'.tasks.get taskId = some r') :
    (∃ r, db.tasks.get taskId = some r ∧ r'.jobId = r.jobId ∧
      (r.status.terminal = true → r' = r)) ∨
    op.creates = true ∧ db.tasks.get taskId = none ∧ r'.status = .queued ∧ r'.attempt = 0 ∧
      ∃ row, db.jobs.get r'.jobId = some row := by
  have same (found : db.tasks.get taskId = some r') : ∃ r, db.tasks.get taskId = some r ∧
      r'.jobId = r.jobId ∧ (r.status.terminal = true → r' = r) := ⟨r', found, rfl, fun _ => rfl⟩
  cases move with
  | task touched how jobs workers =>
    rcases touched.back found' with ⟨rfl, rfl⟩ | ⟨_, before⟩
    · exact .inl ⟨_, touched.found, how.same_job.2, fun terminal =>
        nomatch terminal.symm.trans how.active⟩
    · exact .inl (same before)
  | renew how tasks jobs workers =>
    rw [tasks, Db.renewLeases, Table.get_updateWhere] at found'
    obtain ⟨r, found, rfl⟩ := Option.map_eq_some_iff.mp found'
    refine .inl ⟨r, found, ?_, fun terminal => ?_⟩
    · split <;> rfl
    · rw [if_neg (by simp [TaskStatus.still terminal])]
  | newTask creates job inserted jobs workers =>
    rw [Table.get_insert inserted] at found'
    split at found'
    · rename_i here
      subst here
      cases found'
      exact .inr ⟨creates, Table.insert_fresh inserted, rfl, rfl, Option.isSome_iff_exists.mp job⟩
    · exact .inl (same found')
  | job how present legal moved =>
    subst moved
    exact .inl (same found')
  | result how put =>
    subst put
    exact .inl (same found')
  | newJob _ _ _ tasks | newWorker _ _ tasks | workers _ _ _ tasks | other tasks =>
    exact .inl (same (tasks ▸ found'))

theorem terminal_edge {src dst : JobStatus} (step : JobStep src dst) (terminal : src.terminal = true)
    (never : dst ≠ .queued) : dst = src := by
  rcases step with same | legal
  · exact same
  · cases src <;> cases dst <;> simp_all [JobStatus.terminal, jobCanTransition, jobTransitions]

/-- No call of a handler moves a job to `queued`. -/
theorem Move.job_forward {io : Io} {op : DbOp} {db db' : Db} (move : Move io op db db')
    (routed : op.routed = true) {jobId : JobId} {row row' : JobRow}
    (found : db.jobs.get jobId = some row) (found' : db'.jobs.get jobId = some row') :
    row'.status = .queued → row.status = .queued := by
  intro queued
  cases move with
  | task touched how jobs workers =>
    split at jobs
    · rw [jobs, maybeJobRunning_get, found] at found'
      cases found'
      dsimp only at queued
      split at queued
      · contradiction
      · exact queued
    · rw [jobs, found] at found'
      cases found'
      exact queued
  | job how present legal moved =>
    subst moved
    rw [moveJob_get, found] at found'
    split at found'
    · cases found'
      have target : _ = JobStatus.queued := queued
      rcases how with rfl | ⟨rfl, _⟩ <;> simp [DbOp.routed, JobRow.moved] at routed queued <;>
        simp [queued, JobStatus.terminal] at routed
    · cases found'
      exact queued
  | result how put =>
    subst put
    rw [putResult_get, found] at found'
    split at found' <;> cases found' <;> exact queued
  | newJob creates free inserted tasks workers =>
    rw [Table.get_insert inserted] at found'
    split at found'
    · rename_i same
      cases (same ▸ found).symm.trans (Table.insert_fresh inserted)
    · cases found.symm.trans found'
      exact queued
  | renew _ _ jobs | newTask _ _ _ jobs | newWorker _ _ _ jobs | workers _ _ _ _ jobs
  | other _ jobs =>
    rw [jobs, found] at found'
    cases found'
    exact queued

theorem Move.evolves {io : Io} {op : DbOp} {db db' : Db} (move : Move io op db db')
    (inserts : op.creates = false) (routed : op.routed = true) : Evolves db db' where
  task taskId r found := by
    obtain ⟨r', found', _⟩ := move.task_path found
    rcases move.task_origin found' with ⟨q, before, job, kept⟩ | ⟨creates, _⟩
    · cases before.symm.trans found
      exact ⟨r', found', job, kept⟩
    · exact nomatch inserts.symm.trans creates
  origin taskId r' found' := by
    rcases move.task_origin found' with ⟨q, before, _⟩ | ⟨creates, _⟩
    · exact .inl ⟨q, before⟩
    · exact nomatch inserts.symm.trans creates
  job jobId row found := by
    obtain ⟨row', found', request, _, edge, _⟩ := move.job_step found
    refine ⟨row', found', request, fun terminal => terminal_edge edge terminal fun queued => ?_⟩
    have := move.job_forward routed found found' queued
    simp [this, JobStatus.terminal] at terminal

/-- A task of a job that stays queued is only ever cancelled. -/
theorem TaskMove.unstarted {db : Db} {now : Time} {r r' : TaskRow} {op : DbOp} {o : Option WorkerId}
    (how : TaskMove db now r op r' o) (waiting : r.status = .queued ∨ r.status = .cancelled)
    (unleased : r'.status ≠ .leased) : r'.status = .cancelled ∧ r'.attempt = r.attempt := by
  cases how with
  | lease => contradiction
  | start owned status | complete owned status => simp [status] at waiting
  | stop => exact ⟨rfl, rfl⟩
  | cancel => exact ⟨rfl, rfl⟩
  | fail owned legal => rcases waiting with status | status <;> rw [status] at legal <;> contradiction
  | resolve reaps inFlight =>
    rcases waiting with status | status <;> rw [status] at inFlight <;> contradiction

/-- A leased task's job is running, if it was queued. -/
theorem leased_job {io : Io} {db db' : Db} {r r' : TaskRow} {row' : JobRow}
    (jobs : db'.jobs =
      if r'.status = .leased then (db.maybeJobRunning r.jobId io.now).jobs else db.jobs)
    (leased : r'.status = .leased) (found' : db'.jobs.get r.jobId = some row') :
    row'.status ≠ .queued := by
  rw [jobs, if_pos leased, maybeJobRunning_get] at found'
  obtain ⟨row, found, rfl⟩ := Option.map_eq_some_iff.mp found'
  have key : row.id = r.jobId := Table.get_key found
  split
  · nofun
  · rename_i other
    simpa [key] using other

theorem Move.good {io : Io} {op : DbOp} {db db' : Db} (move : Move io op db db')
    (routed : op.routed = true) (good : db.Good) : db'.Good := by
  have kept {j : JobId} (held : ∃ row, db.jobs.get j = some row) :
      ∃ row, db'.jobs.get j = some row := by
    obtain ⟨row, found⟩ := held
    obtain ⟨row', now, _⟩ := move.job_step found
    exact ⟨row', now⟩
  refine ⟨move.sound good.sound, fun taskId r' found' => ?_, fun taskId r' row' found' job' queued => ?_⟩
  · rcases move.task_origin found' with ⟨r, found, job, _⟩ | ⟨_, _, _, _, held⟩
    · exact job ▸ kept (good.linked taskId r found)
    · exact kept held
  · rcases move.task_origin found' with ⟨r, found, job, terminal⟩ | ⟨_, _, fresh, zero, _⟩
    · obtain ⟨row, held⟩ := good.linked taskId r found
      have before := move.job_forward routed held (job ▸ job') queued
      obtain ⟨waiting, zero⟩ := good.unstarted taskId r row found held before
      cases move with
      | task touched how jobs workers =>
        rcases touched.back found' with ⟨rfl, rfl⟩ | ⟨_, same⟩
        · cases touched.found.symm.trans found
          have unleased : r'.status ≠ .leased := fun leased =>
            leased_job jobs leased (job ▸ job') queued
          obtain ⟨status, attempt⟩ := how.unstarted waiting unleased
          exact ⟨.inr status, attempt.trans zero⟩
        · cases same.symm.trans found
          exact ⟨waiting, zero⟩
      | renew how tasks jobs workers =>
        rw [tasks, Db.renewLeases, Table.get_updateWhere, found] at found'
        cases found'
        dsimp only
        split <;> exact ⟨waiting, zero⟩
      | job how present legal moved =>
        subst moved
        cases found.symm.trans found'
        exact ⟨waiting, zero⟩
      | result how put =>
        subst put
        cases found.symm.trans found'
        exact ⟨waiting, zero⟩
      | newTask creates held inserted jobs workers =>
        rw [Table.get_insert inserted, if_neg fun same => ?_] at found'
        · cases found.symm.trans found'
          exact ⟨waiting, zero⟩
        · subst same
          cases found.symm.trans (Table.insert_fresh inserted)
      | newJob _ _ _ tasks | newWorker _ _ tasks | workers _ _ _ tasks | other tasks =>
        rw [tasks] at found'
        cases found.symm.trans found'
        exact ⟨waiting, zero⟩
    · exact ⟨.inl fresh, zero⟩

end N4Cluster
