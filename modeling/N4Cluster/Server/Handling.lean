import N4Cluster.Server.Duties

/-! Every handler and the reaper keep their duty. -/
namespace N4Cluster
open Relational Transactional Relation Interleave

section
variable {P : Platform} {A : Assumptions} {config : ServerConfig} {io : Io} {s t : Session Db}
  {op : DbOp} {r : Prog Reply} {site : Site}

/-- A call that writes tasks of one job only, followed by a program that owes that job. -/
theorem duty_gives_of (jobId : JobId) {out : Except PyErr op.Ret} (ran : op.exec P io s = (out, t))
    (still : op.movesJobs = false) (inserts : op.creates = false) (routed : op.routed = true)
    (writes : ∀ taskId r, s.live.tasks.get taskId = some r → op.writes r → r.jobId = jobId)
    (owes : A.Ends → t.live.Stuck jobId → Owes P A jobId r t) :
    (duty P A).gives s ⟨site, op⟩ r t := by
  refine ⟨.of_plain routed (fun _ _ _ here => by subst here; contradiction)
    (fun _ _ here => by subst here; contradiction), fun ends other stuck => ?_⟩
  by_cases here : other = jobId
  · subst here
    exact .inr (owes ends stuck)
  · have after : op.after P io s = t := congrArg Prod.snd ran
    subst after
    exact .inl (unwritten_idle still inserts
      (fun taskId r found job wrote => here (job.symm.trans (writes taskId r found wrote))) stuck)

/-- A call on the task of a known row. -/
theorem duty_gives_task {row : TaskRow} {out : Except PyErr op.Ret} (knows : Knows s.live row)
    (ran : op.exec P io s = (out, t)) (still : op.movesJobs = false) (inserts : op.creates = false)
    (routed : op.routed = true) (writes : ∀ r, op.writes r → r.id = row.id)
    (owes : A.Ends → Owes P A row.jobId r t) : (duty P A).gives s ⟨site, op⟩ r t := by
  refine duty_gives_of _ ran still inserts routed (fun taskId r found wrote => ?_)
    fun ends _ => owes ends
  obtain ⟨q, known, job⟩ := knows
  obtain rfl : r.id = taskId := Table.get_key found
  rw [writes r wrote, known] at found
  cases found
  exact job

/-- A call that raised has changed nothing. -/
theorem duty_gives_same (routed : op.routed = true)
    (plain : (∀ jobId status error, op ≠ .setJobStatus jobId status error) ∧
      ∀ jobId new, op ≠ .trySetJobStatus jobId new) :
    (duty P A).gives s ⟨site, op⟩ r s :=
  duty_dutiful.gives (.of_plain routed plain.1 plain.2) (.refl _)

theorem stopTask_obeys {row : TaskRow} {workerId : WorkerId} {message : String} {brought : List String}
    {k : Unit → Prog Reply}
    (knows : Knows s.live row) (routed : Calls DbOp.routed (k ()))
    (next : ∀ t, (k ()).Obeys (machine P) (duty P A) (fun _ _ => True) t) :
    (Route.stopTask P row workerId message brought >>= k).Obeys (machine P) (duty P A) (fun _ _ => True) s := by
  unfold Route.stopTask
  simp only [Program.bind_assoc]
  refine obeys_perform fun s' io rely inv _ => ⟨fun value t ran _ => ⟨?_, ?_⟩, fun error t ran _ => ?_⟩
  · exact duty_gives_task (knows.later rely.1) ran rfl rfl rfl (fun r wrote => wrote)
      fun ends => (owing_settling ends row.jobId).stopped rfl routed t
  · exact duty_dutiful.emit (duty_dutiful.finalizeJob next) t
  · rcases cancelRunningTask_cases io s' row.id workerId with
      ⟨_, _, _, _, ran'⟩ | ⟨_, ran'⟩ | ran'
    · exact nomatch ran.symm.trans ran'
    · cases ran.symm.trans ran'
      exact ⟨duty_gives_same rfl ⟨nofun, nofun⟩, trivial⟩
    · exact nomatch ran.symm.trans ran'

/-- A report of success: the task of a known row, then its job. -/
theorem reportCompleted_obeys {row : TaskRow} {result : TaskResult} {workerId : WorkerId}
    {principal : Principal} {k : Unit → Prog Reply} (knows : Knows s.live row)
    (routed : Calls DbOp.routed (k ()))
    (next : ∀ t, (k ()).Obeys (machine P) (duty P A) (fun _ _ => True) t) :
    (Route.reportCompleted P row result workerId principal >>= k).Obeys (machine P) (duty P A)
      (fun _ _ => True) s := by
  unfold Route.reportCompleted
  rw [Program.bind_assoc]
  refine duty_dutiful.step rfl fun s₁ io job t _ _ before after => ?_
  have knows := (knows.later before).later after
  split
  · exact stopTask_obeys knows routed next
  · rw [Program.bind_assoc]
    refine obeys_attempt fun s' io rely inv _ => ⟨fun value t ran _ => ⟨?_, ?_⟩, fun error t ran _ => ?_⟩
    · exact duty_gives_task (knows.later rely.1) ran rfl rfl rfl (fun r wrote => wrote)
        fun ends => (owing_settling ends row.jobId).taskCompleted rfl routed t
    · unfold Route.taskCompleted Route.noteMismatch
      simp only [Program.bind_assoc]
      split
      · exact duty_dutiful.emit (duty_dutiful.emit (duty_dutiful.finalizeJob next)) t
      · exact duty_dutiful.emit (duty_dutiful.finalizeJob next) t
    · rcases completeTask_cases io s' row.id workerId _ with
        ⟨_, _, _, _, ran'⟩ | ⟨_, ran'⟩
      · exact nomatch ran.symm.trans ran'
      · cases ran.symm.trans ran'
        refine ⟨duty_gives_same rfl ⟨nofun, nofun⟩, ?_⟩
        unfold Route.completeFailed
        split <;> trivial

theorem reportFailed_obeys {row : TaskRow} {failure : TaskFailure} {workerId : WorkerId}
    (knows : Knows s.live row) :
    (Route.reportFailed P row failure workerId).Obeys (machine P) (duty P A) (fun _ _ => True) s := by
  unfold Route.reportFailed
  refine duty_dutiful.step rfl fun s₁ io job t _ _ before after => ?_
  have knows := (knows.later before).later after
  split
  · exact stopTask_obeys knows trivial fun _ => trivial
  · intro s' rely inv io valid _
    simp only [machine, DbOp.exec]
    rcases failTask_cases P io s' row.id (some workerId) failure.error failure.retriable with
      ⟨r, found, owned, legal, storable, ran⟩ | ⟨raised, ran⟩
    · rw [ran]
      refine ⟨duty_gives_task (P := P) (knows.later rely.1) ran rfl rfl rfl
        (fun r wrote => wrote) fun ends => (owing_settling ends row.jobId).taskFailed rfl storable _, ?_⟩
      exact duty_dutiful.emit (duty_dutiful.finalizeJob (k := fun _ => .ret _) fun _ => trivial) _
    · rw [ran]
      refine ⟨duty_gives_same rfl ⟨by rintro _ _ _ ⟨⟩, by rintro _ _ ⟨⟩⟩, ?_⟩
      cases raised <;> trivial

/-- What `cancel_job_tasks` leaves: only running tasks are open. -/
theorem cancelJobTasks_terminal {jobId : JobId} (sound : s.live.Sound) (none : s.live.stillRunning jobId = [])
    (ran : cancelJobTasks io jobId s = (out, t)) : t.live.AllTerminal jobId := by
  rw [cancelJobTasks_ok] at ran
  cases ran
  intro taskId r' found' job
  simp only [Session.settled, cancelJobTasks_get] at found'
  obtain ⟨r, found, rfl⟩ := Option.map_eq_some_iff.mp found'
  have job : r.jobId = jobId := by
    split at job
    · assumption
    · exact job
  rw [if_pos job]
  unfold TaskRow.cancelled
  split
  · rfl
  · rename_i open_
    cases status : r.status with
    | running =>
      have member := Db.mem_stillRunning.mpr ⟨r, found, job, status⟩
      rw [none] at member
      contradiction
    | queued | leased => simp [status] at open_
    | lost => exact False.elim ((sound taskId r found).settled status)
    | succeeded | failed | cancelled => rfl

/-- Running tasks stay open. -/
theorem cancelJobTasks_running {jobId : JobId} (ran : cancelJobTasks io jobId s = (.ok running, t))
    (all : t.live.AllTerminal jobId) : running = [] := by
  rw [cancelJobTasks_ok] at ran
  cases ran
  rw [List.eq_nil_iff_forall_not_mem]
  intro taskId member
  obtain ⟨r, found, job, status⟩ := Db.mem_stillRunning.mp member
  have kept : r.cancelled io.now = r := by simp [TaskRow.cancelled, status]
  have now := (cancelJobTasks_get s.live jobId io.now taskId).trans (by rw [found, Option.map_some, if_pos job, kept])
  have terminal := all taskId r now job
  rw [status] at terminal
  contradiction

theorem cancelRequested_obeys {jobId : JobId} :
    (Route.cancelRequested P jobId).Obeys (machine P) (duty P A) (fun _ _ => True) s := by
  unfold Route.cancelRequested
  refine duty_dutiful.emit (duty_dutiful.finalizeJob fun t => ?_) s
  exact duty_dutiful.harmless ((replyJob_calls jobId).mono reads_harmless) t

/-- The status written by a cancellation goes with the tasks it left. -/
theorem markCancelled_obeys {jobId : JobId} {running : List TaskId}
    (held : (s.live.jobs.get jobId).isSome = true)
    (terminal : running = [] → s.live.AllTerminal jobId) :
    (Route.markCancelled P jobId running).Obeys (machine P) (duty P A) (fun _ _ => True) s := by
  unfold Route.markCancelled
  refine obeys_perform fun s' io rely inv _ => ?_
  have fair : Fair A s'.live (.setJobStatus jobId
      (if running.isEmpty then .cancelled else .cancelling) none) := by
    refine ⟨by cases running <;> rfl, fun j error here => ?_, fun j new here => by cases here⟩
    cases running with
    | nil =>
      cases here
      exact rely.1.allTerminal held (terminal rfl)
    | cons => cases here
  refine ⟨fun value t ran _ => ⟨⟨fair, fun ends other stuck => ?_⟩, cancelRequested_obeys⟩,
    fun error t ran _ => ?_⟩
  · rcases setJobStatus_cases io s' jobId (if running.isEmpty then .cancelled else .cancelling) none
      with ⟨row, found, legal, ran'⟩ | ⟨_, ran', _⟩
    · cases ran.symm.trans ran'
      by_cases here : other = jobId
      · subst here
        exact .inr ((owing_settling ends other).cancelRequested _)
      · have same : (s'.live.moveJob jobId (if running.isEmpty then .cancelled else .cancelling) none
            io.now).jobStatus other = s'.live.jobStatus other := by
          rw [Db.jobStatus, moveJob_get, if_neg here]
          rfl
        exact .inl ⟨stuck.back same stuck.2, same⟩
    · cases ran.symm.trans ran'
  · rcases setJobStatus_cases io s' jobId (if running.isEmpty then .cancelled else .cancelling) none
      with ⟨_, _, _, ran'⟩ | ⟨_, ran', _⟩
    · cases ran.symm.trans ran'
    · cases ran.symm.trans ran'
      exact ⟨duty_dutiful.gives fair (.refl _), trivial⟩

theorem cancelJob_obeys {jobId : JobId} :
    (Route.cancelJob P jobId).Obeys (machine P) (duty P A) (fun _ _ => True) s := by
  unfold Route.cancelJob
  refine duty_dutiful.step rfl fun s₁ io found t _ ran _ after => ?_
  cases found with
  | none => trivial
  | some row =>
    have held : (t.live.jobs.get jobId).isSome = true := by
      refine after.exists_job ?_
      rw [getJob_answer ran]
      rfl
    dsimp only
    split
    · exact duty_dutiful.harmless ((replyJob_calls jobId).mono reads_harmless) t
    · refine obeys_perform fun s' io rely inv _ => ⟨fun running t' ran _ => ⟨?_, ?_⟩, fun error t' ran _ => ?_⟩
      · refine duty_gives_of jobId ran rfl rfl rfl (fun taskId r _ wrote => wrote)
          fun ends stuck => ?_
        rw [cancelJobTasks_running ran stuck.2]
        exact (owing_settling ends jobId).markCancelled t'
      · have moved : Evolves s'.live ((DbOp.cancelJobTasks jobId).after P io s').live :=
          And.right (exec_sound rfl trivial inv)
        rw [show DbOp.after P io (.cancelJobTasks jobId) s' = t' from congrArg Prod.snd ran] at moved
        refine markCancelled_obeys (moved.exists_job (rely.1.exists_job held)) fun none => ?_
        refine cancelJobTasks_terminal inv.good.sound ?_ ran
        rw [← none]
        exact (Except.ok.inj (Prod.mk.inj ((cancelJobTasks_ok jobId).symm.trans ran)).1)
      · exact nomatch ran.symm.trans (cancelJobTasks_ok jobId)

/-! ## The reaper -/

/-- After a reaping only the jobs it reports can be newly stuck. -/
theorem reapRows_stuck {rows : List (TaskRow × JobStatus)} {error : String}
    {pairs : List (TaskId × JobId)} (lost : s.live.Lost rows)
    (ran : reapRows io error rows s = (.ok pairs, t)) {jobId : JobId} (stuck : t.live.Stuck jobId) :
    (s.live.Stuck jobId ∧ t.live.jobStatus jobId = s.live.jobStatus jobId) ∨
      jobId ∈ pairs.map Prod.snd := by
  rw [reapRows_ok lost] at ran
  obtain ⟨reported, after⟩ := Prod.mk.inj ran
  have jobs : t.live.jobs = s.live.jobs := by
    rw [← after]
    split
    · rfl
    · exact resolveTurns_jobs rows error io.now s.live
  have status : t.live.jobStatus jobId = s.live.jobStatus jobId := by
    rw [Db.jobStatus, jobs]
    rfl
  by_cases listed : ∃ row ∈ rows, row.1.jobId = jobId
  · obtain ⟨row, member, job⟩ := listed
    rw [← Except.ok.inj reported, List.map_map]
    exact .inr (List.mem_map.mpr ⟨row, member, job⟩)
  · refine .inl ⟨stuck.back status fun taskId r found job => stuck.2 taskId r ?_ job, status⟩
    have apart : ∀ row ∈ rows, row.1.id ≠ taskId := by
      rintro row member rfl
      cases (lost.found row member).symm.trans found
      exact listed ⟨row, member, job⟩
    rw [← after]
    split
    · exact found
    · exact ((reapRows_get lost error io.now).2 taskId apart).trans found

theorem failing_bind {α β : Type} {k : α → Prog β} (r : Prog α) (failing : Failing r) :
    Failing (r >>= k) := by
  cases r with
  | ret value => contradiction
  | raise fault => exact failing
  | call c next => exact failing

/-- What is around the body of the reaper's `try`. -/
def caught (r : Prog Unit) : Prog Reply :=
  r.handle (fun fault => emit .reaperError (reaperErrorEvent fault.error)) >>= fun _ => .ret .ok

/-- The reaper's `except` turns the failure of a finalization into its event. -/
theorem failing_caught (r : Prog Unit) (failing : Failing r) : Failing (caught r) := by
  cases r with
  | ret value => contradiction
  | raise fault => rfl
  | call c next => exact failing

/-- What a piece of the reaper owes, the reaper owes. -/
theorem owes_caught {p : Prog Unit} {jobId : JobId} (ends : A.Ends)
    (piece : Settling P ((owing P A jobId).under caught) (fun _ t => t.live.Settled jobId) jobId →
      p.Obeys (machine P) ((owing P A jobId).under caught) (fun _ t => t.live.Settled jobId) s) :
    Owes P A jobId (caught p) s := by
  have settling := owing_settling (P := P) ends jobId
  exact settling.attempt (fun _ => emit_calls rfl) (fun _ => trivial) failing_bind
    (piece (settling.under caught failing_caught fun _ _ done => done))

/-- One reaping, followed by what finalizes the jobs it reports. -/
theorem reaping_gives {rows : List (TaskRow × JobStatus)} {error : String}
    {pairs : List (TaskId × JobId)} (plain : Fair A s.live op) (lost : s.live.Lost rows)
    (ran : reapRows io error rows s = (.ok pairs, t))
    (owes : A.Ends → ∀ jobId ∈ pairs.map Prod.snd, Owes P A jobId r t) :
    (duty P A).gives s ⟨site, op⟩ r t := by
  refine ⟨plain, fun ends jobId stuck => ?_⟩
  rcases reapRows_stuck lost ran stuck with before | reported
  · exact .inl before
  · exact .inr (owes ends jobId reported)

theorem finalizeReaped_obeys {order : SetOrder} {lost affected : List (TaskId × JobId)} :
    (finalizeReaped P order lost affected).Obeys (machine P) ((duty P A).under caught)
      (fun _ _ => True) s := by
  have dutiful := duty_dutiful (P := P) (A := A)
  refine (dutiful.under caught).emits (fun t => ?_) s
  generalize order.order _ = jobIds
  induction jobIds generalizing t with
  | nil => trivial
  | cons jobId rest ih =>
    simp only [Program.forEach]
    exact (dutiful.under caught).finalizeJob ih t

theorem reapLeases_obeys {order : SetOrder} {lost : List (TaskId × JobId)} :
    (reapLeases P order lost).Obeys (machine P) ((duty P A).under caught) (fun _ _ => True) s := by
  refine (duty_dutiful.under caught).emits (fun t => ?_) s
  refine obeys_perform fun s' io rely inv _ => ⟨fun affected t ran _ => ⟨?_, ?_⟩, fun error t ran _ => ?_⟩
  all_goals obtain ⟨rows, expired, ran'⟩ := reapExpiredLeases_rows io s'
  · refine reaping_gives (.of_plain rfl nofun nofun) expired (ran'.symm.trans ran)
      fun ends jobId reported => owes_caught ends fun settling => ?_
    exact settling.finalizeReaped order
      (by rw [List.map_append]; exact List.mem_append_right _ reported) t
  · exact finalizeReaped_obeys
  · exact nomatch ran.symm.trans (ran'.trans (reapRows_ok expired _))

theorem reap_obeys {order : SetOrder} :
    (reap P config order).Obeys (machine P) ((duty P A).under caught) (fun _ _ => True) s := by
  refine (duty_dutiful.under caught).step rfl fun _ _ dead t _ _ _ _ => ?_
  refine (duty_dutiful.under caught).emits (fun t => ?_) t
  refine obeys_perform fun s' io rely inv _ => ⟨fun lost t ran _ => ⟨?_, ?_⟩, fun error t ran _ => ?_⟩
  all_goals obtain ⟨rows, dying, ran'⟩ := reapTasksForWorkers_rows io s' dead "worker lost"
  · exact reaping_gives (.of_plain rfl nofun nofun) dying (ran'.symm.trans ran)
      fun ends jobId reported => owes_caught ends fun settling => settling.reapLeases order reported t
  · exact reapLeases_obeys
  · exact nomatch ran.symm.trans (ran'.trans (reapRows_ok dying _))

theorem reaperTick_obeys {order : SetOrder} :
    (reaperTick P config order).Obeys (machine P) (duty P A) (fun _ _ => True) s := by
  refine Program.Obeys.bind (Q := fun _ _ => True) ?_ (fun _ _ _ => trivial) fun _ _ _ => trivial
  refine Program.Obeys.handle (Q := fun _ _ => True) reap_obeys (fun _ _ _ => trivial) fun _ t _ => ?_
  exact (duty_dutiful.under _).harmless (emit_calls rfl) t

/-- Every request keeps its duty from any store. -/
theorem handler_obeys (request : Request) (s : Session Db) :
    (handler P config request).Obeys (machine P) (duty P A) (fun _ _ => True) s := by
  cases harmless : request.harmless with
  | true => exact duty_dutiful.harmless (handler_harmless harmless) s
  | false =>
    cases request with
    | cancelJob jobId => exact cancelJob_obeys
    | completeTask _ taskId result workerId principal =>
      exact duty_dutiful.requireTaskReporter fun row t knows =>
        reportCompleted_obeys knows trivial fun _ => trivial
    | failTask _ taskId failure workerId principal =>
      exact duty_dutiful.requireTaskReporter fun row t knows => reportFailed_obeys knows
    | reaperTick order => exact reaperTick_obeys
    | _ => contradiction

end
end N4Cluster
