import N4Cluster.Server.Parts
import N4Cluster.Server.Sides
import N4Cluster.Server.Settlement
import N4Cluster.Server.Serial

/-! How the end of a job is announced. Whoever settles a job emits the event of its status
next, so where nothing is in progress each settled job has that event once; a job that is
cancelled outright has none, and a worker can post any. -/
namespace N4Cluster
open Relational Transactional Relation Interleave

variable {P : Platform} {config : ServerConfig} {io : Io} {op : DbOp} {s : Session Db} {p q : ServerPool}
  {l : Turn} {α β : Type} {jobId : JobId} {status : JobStatus}

/-- The job and the status that an announcement is still due for. -/
abbrev Outstanding := Option (JobId × JobStatus)

/-- A settled job is due its announcement. -/
def Call.due : (c : Call) → Call.Ret c → Outstanding
  | ⟨_, .trySetJobStatus jobId new⟩, .ok true => some (jobId, new)
  | _, _ => none

/-- What is due is announced by the next call; else only a route, for a worker, may say that
a job has ended. -/
def Heralds {α : Type} : Prog α → Outstanding → Prop
  | .ret _, due | .raise _, due => due = none
  | .call c next, none =>
    (∀ event, c.op = .addEvent event → c.site = .route ∨ event.type ∉ endings) ∧
      ∀ answer, Heralds (next answer) (c.due answer)
  | .call c next, some (jobId, final) =>
    c = ⟨.finalize, .addEvent (finalizedEvent jobId final)⟩ ∧ ∀ answer, Heralds (next answer) none

theorem Heralds.bind {p : Prog α} {k : α → Prog β} {due : Outstanding} (first : Heralds p due)
    (second : ∀ value, Heralds (k value) none) : Heralds (p >>= k) due := by
  induction p generalizing due with
  | ret value =>
    cases first
    exact second value
  | raise error => exact first
  | call c next ih =>
    cases due with
    | none => exact ⟨first.1, fun answer => ih answer (first.2 answer)⟩
    | some what => exact ⟨first.1, fun answer => ih answer (first.2 answer)⟩

theorem Heralds.handle {p : Prog α} {k : Fault → Prog α} {due : Outstanding} (first : Heralds p due)
    (second : ∀ fault, Heralds (k fault) none) : Heralds (p.handle k) due := by
  induction p generalizing due with
  | ret value => exact first
  | raise error =>
    cases first
    exact second error
  | call c next ih =>
    cases due with
    | none => exact ⟨first.1, fun answer => ih answer (first.2 answer)⟩
    | some what => exact ⟨first.1, fun answer => ih answer (first.2 answer)⟩

theorem due_none {c : Call} (unsettling : ∀ jobId new, c.op ≠ .trySetJobStatus jobId new)
    (answer : Call.Ret c) : c.due answer = none := by
  obtain ⟨site, op⟩ := c
  cases op with
  | trySetJobStatus jobId new => exact absurd rfl (unsettling jobId new)
  | _ => rfl

/-- The calls that neither settle a job nor say anything. -/
def DbOp.mute : DbOp → Bool
  | .trySetJobStatus _ _ | .addEvent _ => false
  | _ => true

theorem perform_heralds {site : Site} (mute : op.mute = true) : Heralds (perform site op) none := by
  refine ⟨fun event same => ?_, fun answer => ?_⟩
  · cases same
    contradiction
  · rw [due_none]
    · cases answer <;> rfl
    · rintro jobId new rfl
      contradiction

theorem emit_heralds {site : Site} {event : NewEvent} (able : site = .route ∨ event.type ∉ endings) :
    Heralds (emit site event) none := by
  refine ⟨fun event' same => ?_, fun answer => ?_⟩
  · cases same
    exact able
  · cases answer <;> rfl

theorem final_ends (terminal : status.terminal = true) : "job_" ++ status.value ∈ endings := by
  cases status with
  | succeeded | failed | cancelled => decide
  | queued | running | cancelling => contradiction

theorem settleJob_heralds (jobId : JobId) (final : JobStatus) : Heralds (settleJob jobId final) none := by
  refine ⟨fun _ same => (by cases same), fun answer => ?_⟩
  cases answer with
  | error error => rfl
  | ok moved =>
    cases moved with
    | false => rfl
    | true =>
      refine ⟨rfl, fun answer => ?_⟩
      cases answer <;> rfl

theorem finalizeJob_heralds (jobId : JobId) : Heralds (finalizeJob P jobId) none := by
  have lift {α : Type} (value : Except PyErr α) : Heralds (liftAt .finalize value) none := by
    cases value <;> rfl
  refine (perform_heralds rfl).bind fun found => ?_
  cases found with
  | none => rfl
  | some row =>
    refine Heralds.bind ?_ fun (agg, taskId, artifactId) => ?_
    · refine (perform_heralds rfl).bind fun found => ?_
      cases found with
      | none => rfl
      | some row =>
        refine (lift _).bind fun req => (perform_heralds rfl).bind fun tasks => (lift _).bind fun agg => ?_
        dsimp only
        split
        · rfl
        · exact (perform_heralds rfl).bind fun _ => rfl
    · refine (perform_heralds rfl).bind fun _ => (perform_heralds rfl).bind fun _ =>
        Heralds.bind ?_ fun _ => ?_
      · unfold linkBestModel
        split
        · exact perform_heralds rfl
        · rfl
      · refine (perform_heralds rfl).bind fun tasks => ?_
        split
        · exact (perform_heralds rfl).bind fun fresh => settleJob_heralds jobId _
        · rfl

theorem heralds_pieces (P : Platform) : Pieces P fun _ p => Heralds p none where
  ret _ := rfl
  raise _ := rfl
  bind first second := first.bind second
  handle first second := first.handle second
  call {_ c next} _ plain rest := by
    refine ⟨fun event same => ?_, fun answer => ?_⟩
    · rw [same] at plain
      exact .inr (by simpa [DbOp.plain] using plain)
    · rw [due_none]
      · exact rest answer
      · intro jobId new same
        rw [same] at plain
        contradiction
  finalizeJob jobId := finalizeJob_heralds jobId

theorem handler_heralds (request : Request) : Heralds (handler P config request) none := by
  refine (heralds_pieces P).handler request ?_
  cases request with
  | taskEvent taskId event principal =>
    exact Heralds.bind ((heralds_pieces P).requireTaskWorkerPrincipal taskId principal) fun row =>
      Heralds.bind (emit_heralds (.inl rfl)) fun _ => rfl
  | uploadArtifact taskId role upload principal =>
    refine Heralds.bind ((heralds_pieces P).requireTaskWorkerPrincipal taskId principal) fun row => ?_
    cases upload with
    | none => rfl
    | some artifact =>
      exact (perform_heralds rfl).bind fun _ => (perform_heralds rfl).bind fun _ => rfl
  | completeTask attempt taskId result workerId principal =>
    refine Heralds.bind ((heralds_pieces P).requireTaskReporter taskId workerId principal) fun row =>
      Heralds.bind ?_ fun _ => rfl
    refine (perform_heralds rfl).bind fun job => ?_
    split
    · exact (heralds_pieces P).stopTask row workerId _ _
    · refine ((perform_heralds rfl).handle fun fault => ?_).bind fun _ =>
        (heralds_pieces P).taskCompleted row _ workerId
      unfold Route.completeFailed
      split <;> rfl
  | _ => trivial

/-! ## Events of a store -/

/-- How often the event of a status is there for a job. -/
def Db.announcements (db : Db) (jobId : JobId) (status : JobStatus) : Nat :=
  db.events.countP fun e => e.jobId == some jobId && e.type == "job_" ++ status.value

/-- Each settled job has the event of its status once, and no other job says it has ended. -/
def Db.Announced (db : Db) : Prop :=
  ∀ jobId row, db.jobs.get jobId = some row →
    (row.status.terminal = true → db.announcements jobId row.status = 1) ∧
      (row.status.terminal = false → ∀ status, status.terminal = true → db.announcements jobId status = 0)

/-- The job has ended in another status. -/
def Db.EndedElse (db : Db) (jobId : JobId) (status : JobStatus) : Prop :=
  ∃ other ∈ db.jobStatus jobId, other.terminal = true ∧ other ≠ status

/-- The statuses in which jobs end. -/
def ends : List JobStatus := [.succeeded, .failed, .cancelled]

theorem mem_ends : status ∈ ends ↔ status.terminal = true := by
  cases status <;> decide

/-- No job is cancelled outright, and a worker says of no job how it has ended, unless it
has ended otherwise. -/
def Call.Heralded (c : Call) (db : Db) : Prop :=
  match c.op with
  | .setJobStatus jobId new _ =>
    new.terminal = true → ∀ row ∈ db.jobs.get jobId, jobCanTransition row.status new = false
  | .addEvent event => c.site = .route → ∀ jobId ∈ event.jobId, ∀ status ∈ ends,
    event.type = "job_" ++ status.value → db.EndedElse jobId status
  | _ => True

instance (db : Db) : (c : Call) → Decidable (c.Heralded db)
  | ⟨_, .setJobStatus _ _ _⟩ => inferInstanceAs (Decidable (_ → ∀ row ∈ _, _))
  | ⟨_, .addEvent _⟩ => inferInstanceAs (Decidable (_ → ∀ jobId ∈ _, ∀ status ∈ _, _ → ∃ other ∈ _, _))
  | ⟨_, .findJobByIdempotency _⟩ | ⟨_, .getJob _⟩ | ⟨_, .trySetJobStatus _ _⟩ | ⟨_, .setJobResult _ _⟩
  | ⟨_, .getTask _⟩ | ⟨_, .listTasksForJob _⟩ | ⟨_, .leaseNextTask _ _⟩ | ⟨_, .startTask _ _⟩
  | ⟨_, .completeTask _ _ _⟩ | ⟨_, .failTask _ _ _ _⟩ | ⟨_, .reapExpiredLeases⟩
  | ⟨_, .reapTasksForWorkers _ _⟩ | ⟨_, .cancelJobTasks _⟩ | ⟨_, .cancelRunningTask _ _⟩
  | ⟨_, .tasksForWorker _⟩ | ⟨_, .heartbeatWorker _ _⟩ | ⟨_, .getWorker _⟩ | ⟨_, .markDeadWorkers _⟩
  | ⟨_, .linkJobArtifact _ _ _ _⟩ | ⟨_, .clearJobArtifactRole _ _⟩ | ⟨_, .listJobArtifacts _⟩
  | ⟨_, .createJob _ _⟩ | ⟨_, .createTasksForJob _ _⟩ | ⟨_, .createJobWithTasks _ _⟩
  | ⟨_, .registerWorker _ _⟩ | ⟨_, .addArtifact _⟩ => isTrue trivial

theorem value_injective {a b : JobStatus} (same : "job_" ++ a.value = "job_" ++ b.value) : a = b := by
  revert same
  cases a <;> cases b <;> decide

theorem Db.EndedElse.later {db db' : Db} (ended : db.EndedElse jobId status) (evolves : Evolves db db') :
    db'.EndedElse jobId status := by
  obtain ⟨other, now, terminal, apart⟩ := ended
  obtain ⟨row, found, rfl⟩ := Option.map_eq_some_iff.mp now
  obtain ⟨row', found', _, kept⟩ := evolves.job jobId row found
  exact ⟨row'.status, by rw [Db.jobStatus, found']; rfl, by rwa [kept terminal], by rwa [kept terminal]⟩

theorem announcements_quiet (aside : ∀ event, op ≠ .addEvent event) :
    (op.after P io s).live.announcements jobId status = s.live.announcements jobId status := by
  have same : (op.after P io s).live.events = s.live.events := by
    cases sides : op.sides with
    | false =>
      have same : (op.after P io s).live.side = s.live.side := exec_side sides
      exact congrArg (fun side => side.2.2) same
    | true =>
      cases op with
      | addEvent event => exact absurd rfl (aside event)
      | linkJobArtifact | clearJobArtifactRole => rfl
      | addArtifact artifact =>
        simp only [DbOp.after, DbOp.exec, addArtifact, Txn.bind_run, Txn.live_run]
        generalize s.live.artifacts.insert _ = inserted
        cases inserted <;> rfl
      | _ => contradiction
  rw [Db.announcements, same]
  rfl

theorem announcements_event (event : NewEvent) :
    ((DbOp.addEvent event).after P io s).live.announcements jobId status =
      s.live.announcements jobId status +
        if event.unstorable P = none ∧ event.jobId = some jobId ∧ event.type = "job_" ++ status.value
          then 1 else 0 := by
  rw [DbOp.after, DbOp.exec]
  rcases addEvent_cases P io s event with ⟨storable, ran⟩ | ⟨text, refused, ran⟩
  · rw [ran]
    change List.countP _ (s.live.events ++ [_]) = _
    rw [List.countP_append, List.countP_singleton]
    simp only [Bool.and_eq_true, beq_iff_eq, storable, true_and]
    rfl
  · rw [ran, if_neg fun both => by cases refused.symm.trans both.1]
    rfl

/-! ## What a call adds to the tally -/

/-- One, where it holds. -/
def one (p : Prop) [Decidable p] : Nat := if p then 1 else 0

theorem one_congr {a b : Prop} [Decidable a] [Decidable b] (same : a ↔ b) : one a = one b := by
  simp only [one, same]

theorem one_false {a : Prop} [Decidable a] (not : ¬a) : one a = 0 := if_neg not

theorem one_true {a : Prop} [Decidable a] (holds : a) : one a = 1 := if_pos holds

/-- The announcements of a status, with those still due, are as many as the status asks for. -/
def Balanced (db : Db) (due : Nat) (jobId : JobId) (status : JobStatus) : Prop :=
  ¬db.EndedElse jobId status → db.announcements jobId status + due = one (db.jobStatus jobId = some status)

theorem Heralds.next {c : Call} {next : Call.Ret c → Prog α} {due : Outstanding} (heralds : Heralds (.call c next) due)
    (answer : Call.Ret c) : Heralds (next answer) (c.due answer) := by
  cases due with
  | none => exact heralds.2 answer
  | some what =>
    obtain ⟨rfl, rest⟩ := heralds
    exact rest answer

/-- A terminal status stays. -/
theorem Evolves.ended {db db' : Db} (evolves : Evolves db db') (terminal : status.terminal = true)
    (ended : db.jobStatus jobId = some status) : db'.jobStatus jobId = some status := by
  obtain ⟨row, found, rfl⟩ := Option.map_eq_some_iff.mp ended
  obtain ⟨row', found', _, kept⟩ := evolves.job jobId row found
  rw [Db.jobStatus, found', Option.map_some, kept terminal]

/-- Only `try_set_job_status` ends a job that is not cancelled outright. -/
theorem status_kept {c : Call} (jobId : JobId) (heralded : c.Heralded s.live)
    (evolves : Evolves s.live (c.op.after P io s).live) (terminal : status.terminal = true)
    (unsettling : ∀ k new, c.op ≠ .trySetJobStatus k new) :
    (c.op.after P io s).live.jobStatus jobId = some status ↔ s.live.jobStatus jobId = some status := by
  refine ⟨fun now => ?_, evolves.ended terminal⟩
  rcases exec_status_origin now with before | sets
  · exact before
  · obtain ⟨site, op⟩ := c
    cases op with
    | setJobStatus k new error =>
      obtain ⟨rfl, rfl⟩ := sets
      rcases setJobStatus_cases io s k new error with ⟨row, found, legal, _⟩ | ⟨_, ran, _⟩
      · have illegal := heralded terminal row found
        exact nomatch illegal.symm.trans legal
      · simp only [DbOp.after, DbOp.exec, ran] at now
        exact now
    | trySetJobStatus k new => exact absurd rfl (unsettling k new)
    | leaseNextTask | createJob | createTasksForJob | createJobWithTasks =>
      cases sets
      contradiction
    | _ => contradiction

/-- An event that is not due is none of those that are counted. -/
theorem event_balanced {site : Site} {event : NewEvent}
    {next : Call.Ret ⟨site, .addEvent event⟩ → Prog α} {due : Outstanding} {others : Nat}
    (heralds : Heralds (.call ⟨site, .addEvent event⟩ next) due)
    (heralded : Call.Heralded ⟨site, .addEvent event⟩ s.live) (terminal : status.terminal = true)
    (free : ¬s.live.EndedElse jobId status) :
    ((DbOp.addEvent event).after P io s).live.announcements jobId status + others =
      s.live.announcements jobId status + (others + one (due = some (jobId, status))) := by
  rw [announcements_event, Nat.add_assoc, Nat.add_comm _ others]
  congr 2
  refine one_congr ?_
  cases due with
  | none =>
    refine iff_of_false ?_ nofun
    rintro ⟨_, job, type⟩
    obtain route | quiet := heralds.1 event rfl
    · exact free (heralded route jobId job status (mem_ends.mpr terminal) type)
    · exact quiet (type ▸ final_ends terminal)
  | some what =>
    obtain ⟨k, final⟩ := what
    have same : event = finalizedEvent k final := DbOp.addEvent.inj (congrArg Call.op heralds.1)
    subst same
    rw [Option.some_inj, Prod.mk.injEq]
    exact (and_iff_right rfl).trans (and_congr Option.some_inj ⟨value_injective, fun same => same ▸ rfl⟩)

/-- Who settles a job owes the announcement. -/
theorem settle_balanced {site : Site} {k : JobId} {new : JobStatus} {others : Nat}
    (ends : new.terminal = true) (terminal : status.terminal = true)
    (balanced : Balanced s.live others jobId status) (free : ¬s.live.EndedElse jobId status)
    (later : ¬((DbOp.trySetJobStatus k new).after P io s).live.EndedElse jobId status) :
    s.live.announcements jobId status +
        (others + one (Call.due ⟨site, .trySetJobStatus k new⟩
          ((DbOp.trySetJobStatus k new).exec P io s).1 = some (jobId, status))) =
      one (((DbOp.trySetJobStatus k new).after P io s).live.jobStatus jobId = some status) := by
  have before := balanced free
  rcases trySetJobStatus_cases io s k new with ⟨row, found, legal, ran⟩ | ⟨ran, _⟩
  · simp only [DbOp.after, DbOp.exec, ran] at later ⊢
    change ¬(s.live.moveJob k new none io.now).EndedElse jobId status at later
    change _ = one ((s.live.moveJob k new none io.now).jobStatus jobId = some status)
    have moved := moveJob_status s.live k new none io.now jobId (by rw [found]; rfl)
    change _ + (others + one (some (k, new) = some (jobId, status))) = _
    by_cases here : jobId = k
    · subst here
      rw [if_pos rfl] at moved
      have same : new = status := by
        by_contra apart
        exact later ⟨new, moved, ends, apart⟩
      subst same
      rw [one_false] at before
      · rw [moved, one_true rfl, one_true rfl]
        omega
      · rw [jobStatus_some found, Option.some_inj]
        intro same
        rw [same] at legal
        revert legal ends
        cases new <;> decide
    · rw [if_neg here] at moved
      rw [moved, ← before, one_false fun same => here (Prod.mk.inj (Option.some.inj same)).1.symm]
      rfl
  · simp only [DbOp.after, DbOp.exec, ran]
    exact before

/-- A call keeps the balance: it adds as many announcements as were due, and what becomes
due is for the status it gives. -/
theorem call_balanced {c : Call} {next : Call.Ret c → Prog α} {due : Outstanding} {others : Nat}
    (heralds : Heralds (.call c next) due) (heralded : c.Heralded s.live) (routed : c.op.routed = true)
    (evolves : Evolves s.live (c.op.after P io s).live) (terminal : status.terminal = true)
    (balanced : Balanced s.live (others + one (due = some (jobId, status))) jobId status) :
    Balanced (c.op.after P io s).live
      (others + one (c.due (c.op.exec P io s).1 = some (jobId, status))) jobId status := by
  intro later
  have free : ¬s.live.EndedElse jobId status := fun ended => later (ended.later evolves)
  have before := balanced free
  by_cases settles : ∃ k new, c.op = .trySetJobStatus k new
  · obtain ⟨site, op⟩ := c
    obtain ⟨k, new, rfl⟩ := settles
    cases due with
    | some what =>
      have same : DbOp.trySetJobStatus k new = _ := congrArg Call.op heralds.1
      contradiction
    | none =>
      rw [announcements_quiet fun _ same => by cases same]
      exact settle_balanced routed terminal balanced free later
  · have unsettling : ∀ k new, c.op ≠ .trySetJobStatus k new := fun k new same => settles ⟨k, new, same⟩
    rw [due_none unsettling, one_false nofun,
      one_congr (status_kept jobId heralded evolves terminal unsettling), ← before]
    by_cases tells : ∃ event, c.op = .addEvent event
    · obtain ⟨site, op⟩ := c
      obtain ⟨event, rfl⟩ := tells
      exact event_balanced heralds heralded terminal free
    · have aside : ∀ event, c.op ≠ .addEvent event := fun event same => tells ⟨event, same⟩
      cases due with
      | none => rw [announcements_quiet aside, one_false nofun]
      | some what =>
        obtain ⟨rfl, _⟩ := heralds
        exact absurd rfl (aside _)

/-! ## Runs -/

/-- Every turn is a handler's: the server is not restarted. -/
def handled : Turn → Bool
  | .restart => false
  | _ => true

/-- A turn of a handler whose call is heralded. -/
def Heralded (p : ServerPool) : Turn → Prop
  | .spawn _ => True
  | .sched i _ => ∀ c ∈ p.waiting i, c.Heralded p.store.live
  | .restart => False

instance (p : ServerPool) : (l : Turn) → Decidable (Heralded p l)
  | .spawn _ => isTrue trivial
  | .sched i _ => inferInstanceAs (Decidable (∀ c ∈ p.waiting i, _))
  | .restart => isFalse not_false

/-- Every thread heralds what it is tagged with, and the store is balanced by the tags. -/
structure Tagged (P : Platform) (config : ServerConfig) (p : ServerPool)
    (tags : List (Thread Request Call Call.Ret Fault Reply × Outstanding)) : Prop where
  keeping : Keeping P config .none p
  threads : p.threads = tags.map Prod.fst
  heralds : ∀ tag ∈ tags, Heralds tag.1.program tag.2
  balanced : ∀ jobId status, status.terminal = true →
    Balanced p.store.live ((tags.map Prod.snd).count (some (jobId, status))) jobId status

theorem started_tagged : Tagged P config started [] where
  keeping := started_keeping
  threads := rfl
  heralds _ member := nomatch member
  balanced _ _ _ _ := rfl

/-- A tag among others, before and after it is changed. -/
theorem count_set_one {dues : List Outstanding} {i : Nat} {due : Outstanding} (found : dues[i]? = some due) (what : Outstanding) :
    ∃ others, dues.count what = others + one (due = what) ∧
      ∀ new, (dues.set i new).count what = others + one (new = what) := by
  obtain ⟨bound, rfl⟩ := List.getElem?_eq_some_iff.mp found
  have within : one (dues[i] = what) ≤ dues.count what := by
    unfold one
    split
    · rename_i same
      exact List.count_pos_iff.mpr (same ▸ List.getElem_mem bound)
    · exact Nat.zero_le _
  refine ⟨dues.count what - one (dues[i] = what), (Nat.sub_add_cancel within).symm, fun new => ?_⟩
  rw [List.count_set bound]
  simp only [one, beq_iff_eq]

theorem Tagged.step {tags : List (Thread Request Call Call.Ret Fault Reply × Outstanding)}
    (tagged : Tagged P config p tags) (allowed : (server P config).Lawful p l ∧ Heralded p l)
    (stepped : (server P config).take p l = some q) : ∃ tags', Tagged P config q tags' := by
  have allows := lawful_allowed (P := P) allowed.1
  have keeping := tagged.keeping.step allows stepped
  have evolves := tagged.keeping.evolves allows stepped
  cases l with
  | restart => exact False.elim allowed.2
  | spawn request =>
    cases Option.some.inj stepped
    refine ⟨tags ++ [(⟨request, handler P config request⟩, none)], keeping, ?_, fun tag member => ?_,
      fun jobId status terminal => ?_⟩
    · rw [List.map_append, ← tagged.threads]
      rfl
    · rcases List.mem_append.mp member with old | new
      · exact tagged.heralds tag old
      · rw [List.mem_singleton.mp new]
        exact handler_heralds request
    · rw [List.map_append, List.count_append]
      exact tagged.balanced jobId status terminal
  | sched i io =>
    obtain ⟨request, c, next, found, rfl⟩ := System.sched_cases stepped
    have heralded := allowed.2 c (waiting_of found)
    obtain ⟨gives, _⟩ := (pool_rules P config .none).given tagged.keeping.1 tagged.keeping.2 found allows
    rw [tagged.threads, List.getElem?_map] at found
    obtain ⟨⟨_, due⟩, place, rfl⟩ := Option.map_eq_some_iff.mp found
    have heralds := tagged.heralds _ (List.mem_of_getElem? place)
    have spot : (tags.map Prod.snd)[i]? = some due := by rw [List.getElem?_map, place]; rfl
    let answer := (c.op.exec P io p.store).1
    refine ⟨tags.set i (⟨request, next answer⟩, c.due answer), keeping, ?_, fun tag member => ?_,
      fun jobId status terminal => ?_⟩
    · rw [List.map_set, ← tagged.threads]
      rfl
    · rcases List.mem_or_eq_of_mem_set member with old | rfl
      · exact tagged.heralds tag old
      · exact heralds.next answer
    · obtain ⟨others, before, after⟩ := count_set_one spot (some (jobId, status))
      rw [List.map_set, after]
      refine call_balanced heralds heralded gives.1.routed evolves terminal ?_
      rw [← before]
      exact tagged.balanced jobId status terminal

/-- In every run of handlers whose calls are heralded, where none is in progress each settled
job is announced once and no other job is. -/
theorem ends_announced (P : Platform) (config : ServerConfig) (p : ServerPool)
    (run : System.Reaches (server P config) (fun p l => (server P config).Lawful p l ∧ Heralded p l) started p)
    (quiet : p.Quiet) : p.store.live.Announced := by
  obtain ⟨tags, tagged⟩ := run.invariant (I := fun p => ∃ tags, Tagged P config p tags)
    (fun ⟨_, tagged⟩ allowed stepped => tagged.step allowed stepped) ⟨[], started_tagged⟩
  have nothing (jobId : JobId) (status : JobStatus) : (tags.map Prod.snd).count (some (jobId, status)) = 0 := by
    rw [List.count_eq_zero]
    intro member
    obtain ⟨⟨th, due⟩, inside, rfl⟩ := List.mem_map.mp member
    have done := quiet th (tagged.threads ▸ List.mem_map_of_mem inside)
    have heralds := tagged.heralds _ inside
    obtain ⟨request, program⟩ := th
    cases program with
    | ret | raise => exact nomatch heralds
    | call => exact nomatch done
  intro jobId row found
  have held := jobStatus_some found
  constructor
  · intro terminal
    have balanced := tagged.balanced jobId row.status terminal
    rw [nothing, Balanced, one_true held] at balanced
    refine balanced ?_
    rintro ⟨other, now, _, apart⟩
    exact apart (Option.some.inj (now.symm.trans held))
  · intro still status terminal
    have balanced := tagged.balanced jobId status terminal
    have apart : p.store.live.jobStatus jobId ≠ some status := by
      intro now
      rw [Option.some.inj (now.symm.trans held), still] at terminal
      contradiction
    rw [nothing, Balanced, one_false apart] at balanced
    refine balanced ?_
    rintro ⟨other, now, ended, _⟩
    rw [Option.some.inj (now.symm.trans held), still] at ended
    contradiction

theorem ends_announced_reported :
    ∃ p, System.Reaches (server .plain {}) (fun p l => (server .plain {}).Lawful p l ∧ Heralded p l) started p ∧
      p.store.live.jobStatus "job_0" = some .succeeded ∧ p.store.live.Announced := by
  have played : (((server .plain {}).play (fun p l => (server .plain {}).Lawful p l ∧ Heralded p l)
      reportedTurns started).any fun p => decide p.Quiet &&
        p.store.live.jobStatus "job_0" == some .succeeded) = true := by decide +kernel
  obtain ⟨p, run, facts⟩ := System.play_any played
  clear played
  simp only [Bool.and_eq_true, decide_eq_true_eq, beq_iff_eq] at facts
  exact ⟨p, run, facts.2, ends_announced .plain {} p run facts.1⟩

/-- A job is submitted, and cancelled while none of its tasks runs. -/
def outrightTurns : List Turn :=
  [.spawn (.submitJob singleTask {})] ++ turns 0 5 1 ++ [.spawn (.cancelJob "job_0")] ++ turns 1 15 2

/-- The end of a job that is cancelled outright is not announced. -/
theorem outright_unannounced :
    ¬∀ p, System.Reaches (server .plain {}) (fun p l => (server .plain {}).Lawful p l ∧ handled l = true)
      started p → p.Quiet → p.store.live.Announced := by
  intro always
  have played : (((server .plain {}).play (fun p l => (server .plain {}).Lawful p l ∧ handled l = true)
      outrightTurns started).any fun p => decide p.Quiet &&
        (p.store.live.jobs.get "job_0").any (fun row => row.status == .cancelled) &&
        p.store.live.announcements "job_0" .cancelled == 0) = true := by decide +kernel
  obtain ⟨p, run, facts⟩ := System.play_any played
  clear played
  simp only [Bool.and_eq_true, decide_eq_true_eq, Option.any_eq_true, beq_iff_eq] at facts
  obtain ⟨⟨quiet, row, found, cancelled⟩, unannounced⟩ := facts
  have once := (always p run quiet "job_0" row found).1 (by rw [cancelled]; rfl)
  rw [cancelled, unannounced] at once
  contradiction

end N4Cluster
