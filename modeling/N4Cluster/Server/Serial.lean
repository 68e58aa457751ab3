import N4Cluster.Server.Ownership
import N4Cluster.Server.Ranking

/-! Handlers that run whole, one after another. A finalization that runs alone decides by
the one store it reads: it fails on a job that does not read back, and otherwise settles a
job whose tasks are all terminal. -/
namespace N4Cluster
open Relational Transactional Relation Interleave

variable {P : Platform} {config : ServerConfig} {s t : Session Db} {jobId : JobId} {α : Type}

/-! ## Calls in a row -/

theorem runs_sound {p : Prog α} {out : Except Fault α} (calls : Calls DbOp.routed p)
    (run : p.Runs (machine P) s out t) (sound : Sound s) : Sound t ∧ Evolves s.live t.live := by
  refine calls.keeps (I := fun t => Sound t ∧ Evolves s.live t.live) (fun io c u routed fresh both => ?_) run
    ⟨sound, .refl _⟩
  obtain ⟨sound, evolves⟩ := exec_sound (P := P) routed fresh both.1
  exact ⟨sound, both.2.trans evolves⟩

theorem reads_same {p : Prog α} {out : Except Fault α} (calls : Calls DbOp.reads p)
    (run : p.Runs (machine P) s out t) : t = s := by
  refine calls.keeps (I := fun t => t = s) (fun io c u reads _ same => ?_) run rfl
  obtain ⟨site, op⟩ := c
  cases op with
  | getJob | listTasksForJob | listJobArtifacts => exact same
  | _ => contradiction

theorem emit_cases {site : Site} {event : NewEvent} {k : Unit → Prog α} {out : Except Fault α}
    (run : (emit site event >>= k).Runs (machine P) s out t) :
    (∃ io, (k ()).Runs (machine P) (insertEvent io event s).2 out t) ∨
      event.unstorable P ≠ none ∧ t = s := by
  unfold emit at run
  rw [Program.bind_assoc] at run
  obtain ⟨io, _, answer, u, ran, run⟩ := perform_runs run
  rw [DbOp.exec] at ran
  rcases addEvent_cases P io s event with ⟨_, ran'⟩ | ⟨text, refused, ran'⟩
  · rw [ran'] at ran
    cases ran
    exact .inl ⟨io, run⟩
  · rw [ran'] at ran
    cases ran
    exact .inr ⟨by simp [refused], run.2⟩

theorem emit_runs {site : Site} {event : NewEvent} {k : Unit → Prog α} {out : Except Fault α}
    (run : (emit site event >>= k).Runs (machine P) s out t) (storable : event.unstorable P = none) :
    ∃ io, (k ()).Runs (machine P) (insertEvent io event s).2 out t :=
  (emit_cases run).resolve_right fun refused => refused.1 storable

/-! ## A finalization alone -/

/-- The job's tasks are all terminal, and its status may become the final one. -/
def Db.Settles (db : Db) (jobId : JobId) (final : JobStatus) : Prop :=
  db.AllTerminal jobId ∧ ∃ status, db.jobStatus jobId = some status ∧ jobCanTransition status final = true

/-- What a finalization leaves: the job has its final status if it could be settled. -/
structure Db.Finalized (db db' : Db) (jobId : JobId) (final : JobStatus) : Prop where
  tasks : db'.tasks = db.tasks
  settled : db.Settles jobId final → db'.jobStatus jobId = some final
  unsettled : ¬db.Settles jobId final → db'.jobStatus jobId = db.jobStatus jobId
  others : ∀ j, j ≠ jobId → db'.jobStatus j = db.jobStatus j

theorem jobStatus_some {db : Db} {row : JobRow} (found : db.jobs.get jobId = some row) :
    db.jobStatus jobId = some row.status := by
  rw [Db.jobStatus, found]
  rfl

theorem putResult_status (db : Db) (jobId : JobId) (agg : JobAggregate) (now : Time) (j : JobId) :
    (db.putResult jobId agg now).jobStatus j = db.jobStatus j := by
  rw [Db.jobStatus, Db.jobStatus, putResult_get]
  split
  · cases db.jobs.get j <;> rfl
  · rfl

theorem moveJob_status (db : Db) (jobId : JobId) (status : JobStatus) (error : Option String) (now : Time)
    (j : JobId) (held : (db.jobs.get jobId).isSome = true) :
    (db.moveJob jobId status error now).jobStatus j = if j = jobId then some status else db.jobStatus j := by
  rw [Db.jobStatus, Db.jobStatus, moveJob_get]
  split
  · rename_i here
    obtain ⟨row, found⟩ := Option.isSome_iff_exists.mp held
    rw [here, found]
    rfl
  · rfl

/-- From the second reading of the tasks on. -/
theorem settleIfTerminal_runs {before : JobStatus} {n : Nat} {row : JobRow} {out : Except Fault Unit}
    (found : s.live.jobs.get jobId = some row)
    (run : (settleIfTerminal jobId before n).Runs (machine P) s out t) :
    out = .ok () ∧ s.live.Finalized t.live jobId (finalStatus row.status n) := by
  have status := jobStatus_some found
  have stays (unsettled : ¬s.live.Settles jobId (finalStatus row.status n)) {u : Session Db}
      (tasks : u.live.tasks = s.live.tasks) (jobs : u.live.jobs = s.live.jobs) :
      s.live.Finalized u.live jobId (finalStatus row.status n) :=
    ⟨tasks, fun settled => absurd settled unsettled, fun _ => by rw [Db.jobStatus, jobs]; rfl,
      fun _ _ => by rw [Db.jobStatus, jobs]; rfl⟩
  unfold settleIfTerminal at run
  obtain ⟨io, _, answer, u, ran, run⟩ := perform_runs run
  cases ran
  dsimp only at run
  split at run
  · rename_i all
    have terminal := tasksOf_terminal.mp all
    obtain ⟨io, _, answer, u, ran, run⟩ := perform_runs run
    cases ran
    simp only [found] at run
    unfold settleJob at run
    obtain ⟨io, _, answer, u, ran, run⟩ := perform_runs run
    rw [DbOp.exec] at ran
    obtain ⟨row', found', legal, moved⟩ | ⟨refused, illegal⟩ :=
      trySetJobStatus_cases io s jobId (finalStatus row.status n)
    · cases found.symm.trans found'
      rw [moved] at ran
      cases ran
      simp only [if_true] at run
      unfold emit at run
      obtain ⟨io', _, answer, u, ran, run⟩ := perform_runs run
      cases ran
      cases run
      have held : (s.live.jobs.get jobId).isSome = true := by rw [found]; rfl
      refine ⟨rfl, rfl, fun _ => ?_, fun unsettled => absurd ⟨terminal, _, status, legal⟩ unsettled,
        fun j other => ?_⟩
      · exact (moveJob_status s.live jobId _ _ io.now jobId held).trans (if_pos rfl)
      · exact (moveJob_status s.live jobId _ _ io.now j held).trans (if_neg other)
    · rw [refused] at ran
      cases ran
      simp only [if_false, Bool.false_eq_true] at run
      cases run
      refine ⟨rfl, stays ?_ rfl rfl⟩
      rintro ⟨_, status', same, legal⟩
      cases status.symm.trans same
      cases legal.symm.trans (illegal row found)
  · rename_i open_
    cases run
    exact ⟨rfl, stays (fun settles => open_ (tasksOf_terminal.mpr settles.1)) rfl rfl⟩

theorem Db.Finalized.after {db mid db' : Db} {final : JobStatus} (finalized : mid.Finalized db' jobId final)
    (tasks : mid.tasks = db.tasks) (statuses : ∀ j, mid.jobStatus j = db.jobStatus j) :
    db.Finalized db' jobId final := by
  have same : mid.Settles jobId final ↔ db.Settles jobId final := by
    rw [Db.Settles, Db.Settles, statuses, Db.AllTerminal, Db.AllTerminal, tasks]
  exact ⟨finalized.tasks.trans tasks, fun settles => finalized.settled (same.mpr settles),
    fun unsettled => (finalized.unsettled (mt same.mp unsettled)).trans (statuses jobId),
    fun j other => (finalized.others j other).trans (statuses j)⟩

/-- A finalization that runs alone does nothing to an unknown job, fails on a job whose
aggregate cannot be built or stored, and otherwise finalizes it. -/
theorem finalizeJob_runs {out : Except Fault Unit} (run : (finalizeJob P jobId).Runs (machine P) s out t) :
    match s.live.jobs.get jobId with
    | none => out = .ok () ∧ t = s
    | some row =>
      match P.aggregate s.live row with
      | .error error => out = .error ⟨.finalize, error⟩ ∧ t = s
      | .ok agg =>
        (P.dumpsAggregate agg = true ∧ out = .ok () ∧
          s.live.Finalized t.live jobId (finalStatus row.status agg.numSucceeded)) ∨
        P.dumpsAggregate agg = false ∧ t = s ∧ ∃ error, out = .error ⟨.finalize, error⟩ := by
  unfold finalizeJob at run
  obtain ⟨io, _, answer, u, ran, run⟩ := perform_runs run
  cases ran
  cases found : s.live.jobs.get jobId with
  | none =>
    simp only [found] at run
    cases run
    exact ⟨rfl, rfl⟩
  | some row =>
    simp only [found] at run
    obtain ⟨first, u, built, run⟩ := run.of_bind
    obtain rfl := reads_same (buildAggregate_calls _ _) built
    have comes := buildAggregate_runs found built
    have named : row.id = jobId := Table.get_key found
    have aggregate : P.aggregate u.live row =
        P.reloadRequest row.request >>= fun req => P.tally req (u.live.tasksOf jobId) := by
      rw [Platform.aggregate, named]
    dsimp only
    rw [aggregate]
    cases tallied : P.reloadRequest row.request >>= fun req => P.tally req (u.live.tasksOf jobId) with
    | error error =>
      rw [tallied] at comes
      subst comes
      exact run
    | ok agg =>
      rw [tallied] at comes
      obtain ⟨linked, artifact, rfl⟩ := comes
      dsimp only at run
      obtain ⟨io, _, answer, v, ran, run⟩ := perform_runs run
      rw [DbOp.exec] at ran
      have dumps : P.dumpsAggregate { agg with bestModelArtifactId := linked } = P.dumpsAggregate agg := rfl
      obtain ⟨dumped, stored⟩ | ⟨undumped, raised, failed⟩ :=
        setJobResult_cases (P := P) io u jobId { agg with bestModelArtifactId := linked }
      · rw [stored] at ran
        cases ran
        obtain ⟨io', _, answer, v, ran, run⟩ := perform_runs run
        cases ran
        obtain ⟨first, v, linking, run⟩ := run.of_bind
        have linkage : first = .ok () ∧ v.live.tasks = u.live.tasks ∧
            v.live.jobs = (u.live.putResult jobId { agg with bestModelArtifactId := linked } io.now).jobs := by
          unfold linkBestModel at linking
          split at linking
          · have bound := (Program.bind_ret (perform .finalize (.linkJobArtifact jobId agg.bestTaskId
              "best_model" (artifact.getD "")))).symm ▸ linking
            obtain ⟨io, _, answer, w, ran, rest⟩ := perform_runs bound
            cases ran
            cases rest
            exact ⟨rfl, rfl, rfl⟩
          · cases linking
            exact ⟨rfl, rfl, rfl⟩
        obtain ⟨rfl, tasks, jobs⟩ := linkage
        have found' : v.live.jobs.get jobId =
            some { row with result := some { agg with bestModelArtifactId := linked }, updatedAt := io.now } := by
          rw [jobs, putResult_get, if_pos rfl, found]
          rfl
        obtain ⟨ended, finalized⟩ := settleIfTerminal_runs found' run
        refine .inl ⟨dumped, ended, finalized.after tasks fun j => ?_⟩
        rw [Db.jobStatus, jobs]
        exact putResult_status _ _ _ _ j
      · rw [failed] at ran
        cases ran
        obtain ⟨ended, rfl⟩ := run
        exact .inr ⟨undumped, rfl, raised, ended⟩

/-! ## The view of a job -/

/-- A reply reads only, and comes to the job's status or to an exception of the view. -/
theorem replyJob_runs {out : Except Fault Reply} (run : (Route.replyJob P jobId).Runs (machine P) s out t) :
    t = s ∧ match s.live.jobs.get jobId with
      | none => out = .error ⟨.view, .keyError jobId⟩
      | some row =>
        match P.aggregate s.live row with
        | .error error => out = .error ⟨.view, error⟩
        | .ok _ => ∃ view, out = .ok (.job view) ∧ view.status = row.status := by
  have same := reads_same (replyJob_calls jobId) run
  refine ⟨same, ?_⟩
  unfold Route.replyJob at run
  obtain ⟨first, u, viewed, run⟩ := run.of_bind
  unfold jobView at viewed
  obtain ⟨io, _, answer, v, ran, viewed⟩ := perform_runs viewed
  cases ran
  cases found : s.live.jobs.get jobId with
  | none =>
    simp only [found] at viewed
    cases viewed
    exact run.1
  | some row =>
    simp only [found] at viewed
    obtain ⟨middle, v, built, viewed⟩ := viewed.of_bind
    have comes := buildAggregate_runs found built
    have named : row.id = jobId := Table.get_key found
    have aggregate : P.aggregate s.live row =
        P.reloadRequest row.request >>= fun req => P.tally req (s.live.tasksOf jobId) := by
      rw [Platform.aggregate, named]
    dsimp only
    rw [aggregate]
    cases loaded : P.reloadRequest row.request with
    | error error =>
      rw [loaded] at comes
      subst comes
      obtain ⟨rfl, _⟩ := viewed
      exact run.1
    | ok req =>
      rw [loaded] at comes viewed
      simp only [bind, Except.bind] at comes ⊢
      cases tallied : P.tally req (s.live.tasksOf jobId) with
      | error error =>
        rw [tallied] at comes
        subst comes
        obtain ⟨rfl, _⟩ := viewed
        exact run.1
      | ok agg =>
        rw [tallied] at comes
        obtain ⟨linked, artifact, rfl⟩ := comes
        simp only [liftAt, Program.ret_bind] at viewed
        cases viewed
        cases run
        exact ⟨_, rfl, rfl⟩

end N4Cluster
