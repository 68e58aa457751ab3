import N4Cluster.Server.Leases
import N4Cluster.Server.Reports
import N4Cluster.Server.Standings

/-! Stale reports. A report names its task and its worker, and no attempt; so it acts on
the attempt it is about unless its worker has been leased the task again meanwhile. -/
namespace N4Cluster
open Relational Transactional Relation Interleave

variable {P : Platform} {config : ServerConfig} {past : ServerPast} {p q : ServerPool} {l : Turn}
  {w : WorkerId} {taskId : TaskId} {a : Nat} {io : Io} {op : DbOp} {s t : Session Db} {db db' : Db}
  {request : Request}

/-- The worker, the task and the attempt a report is about. -/
def Request.about : Request → Option (WorkerId × TaskId × Nat)
  | .completeTask attempt taskId _ w _ | .failTask attempt taskId _ w _ => some (w, taskId, attempt)
  | _ => none

/-- What the request of thread `i` is about. -/
def ServerPool.about (p : ServerPool) (i : Nat) : Option (WorkerId × TaskId × Nat) :=
  p.threads[i]?.bind fun th => th.request.about

/-- The worker has obtained this attempt of the task. -/
def Obtained (P : Platform) (past : ServerPast) (w : WorkerId) (taskId : TaskId) (a : Nat) : Prop :=
  ∃ m ∈ System.made past, CallMade.leased P m = some (w, taskId, a)

instance : Decidable (Obtained P past w taskId a) := inferInstanceAs (Decidable (∃ m ∈ System.made past, _))

/-- Workers report on what they have obtained, as late as they like. -/
def Entitled (P : Platform) (past : ServerPast) : Turn → Prop
  | .spawn request => ∀ held ∈ request.about, Obtained P past held.1 held.2.1 held.2.2
  | _ => True

instance : Decidable (Entitled P past l) := by
  cases l with
  | spawn request => exact inferInstanceAs (Decidable (∀ held ∈ request.about, _))
  | sched | restart => exact isTrue trivial

/-- The runs of the server in which every report is one on a lease. -/
abbrev ReportsRecorded (P : Platform) (config : ServerConfig) (past : ServerPast) (p : ServerPool) : Prop :=
  System.Records (server P config) (fun past p l => (server P config).Lawful p l ∧ Entitled P past l) started past p

/-- The checks under which a report's write goes through. -/
def DbOp.accepted (P : Platform) (db : Db) : DbOp → Bool
  | .completeTask taskId w _ =>
    (db.tasks.get taskId).any fun r => r.workerId = some w && r.status = .running
  | .failTask taskId o error _ =>
    (db.tasks.get taskId).any fun r =>
      r.workerId = o && (taskCanTransition r.status .failed && (P.textError error).isNone)
  | .cancelRunningTask taskId w =>
    (db.tasks.get taskId).any fun r => r.workerId = some w && taskCanTransition r.status .cancelled
  | _ => false

/-- The turn is the write of a report, its row lets it through, and its worker was leased
the task again after the attempt the report is about. -/
def Superseded (P : Platform) (past : ServerPast) (p : ServerPool) : Turn → Prop
  | .sched i _ => ∃ c ∈ p.waiting i, ∃ held ∈ p.about i, c.op.accepted P p.store.live = true ∧
      ∃ m ∈ System.made past, ∃ lease ∈ CallMade.leased P m,
        lease.1 = held.1 ∧ lease.2.1 = held.2.1 ∧ held.2.2 < lease.2.2
  | _ => False

instance : Decidable (Superseded P past p l) := by
  cases l with
  | sched i io => exact inferInstanceAs (Decidable (∃ c ∈ p.waiting i, ∃ held ∈ p.about i, _ ∧ _))
  | spawn | restart => exact isFalse id

/-- No report's write in the run is superseded. -/
def Current (P : Platform) : ServerPast → Prop
  | [] => True
  | t :: past => ¬Superseded P past t.pool t.label ∧ Current P past

instance : (past : ServerPast) → Decidable (Current P past)
  | [] => isTrue trivial
  | t :: past => by
    have : Decidable (Current P past) := instDecidableCurrent past
    exact inferInstanceAs (Decidable (_ ∧ _))

/-- The turn changes the task of a report only while the report's attempt is current. -/
def Fenced (p : ServerPool) (l : Turn) (q : ServerPool) : Prop :=
  ∀ i io w taskId a, l = .sched i io → p.about i = some (w, taskId, a) →
    q.store.live.tasks.get taskId ≠ p.store.live.tasks.get taskId →
    ∃ r, p.store.live.tasks.get taskId = some r ∧ r.attempt = a

/-- A succeeded task stores a result that names its row's attempt. -/
def Db.Attested (db : Db) : Prop :=
  ∀ taskId r, db.tasks.get taskId = some r → r.status = .succeeded →
    ∃ result, r.result = some result ∧ result.provenance.attempt = some r.attempt

/-! ## What a report writes -/

/-- What the write of a report on the attempt carries: the task, and the count of the row
its handler read. -/
def DbOp.carries (op : DbOp) (db : Db) (taskId : TaskId) (a : Nat) : Prop :=
  match op with
  | .completeTask k _ result =>
    k = taskId ∧ ∃ n, result.provenance.attempt = some n ∧ a ≤ n ∧ n ≤ db.attempts taskId
  | .failTask k _ _ _ | .cancelRunningTask k _ => k = taskId
  | _ => True

/-- The calls that write for no report. -/
def DbOp.unreporting : DbOp → Bool
  | .completeTask _ _ _ | .failTask _ _ _ _ | .cancelRunningTask _ _ => false
  | _ => true

/-- The worker the write of a report speaks for. -/
def DbOp.sender : DbOp → Option WorkerId
  | .completeTask _ w _ | .cancelRunningTask _ w => some w
  | .failTask _ o _ _ => o
  | _ => none

theorem unreporting_carries (unreporting : op.unreporting = true) : op.carries db taskId a := by
  cases op <;> trivial

theorem finalizes_unreporting {jobId : JobId} (op : DbOp) (finalizes : op.finalizes jobId = true) :
    op.unreporting = true := by
  cases op <;> first | rfl | contradiction

/-- While others act, attempts are only counted up; the writes of a report are its own. -/
def fencing (request : Request) : Contract Call Call.Ret Fault Reply (Session Db) where
  inv _ := True
  rely _ s t := ∀ taskId, s.live.attempts taskId ≤ t.live.attempts taskId
  admits _ _ _ := True
  gives s c _ _ := ∀ held ∈ request.about, c.op.carries s.live held.2.1 held.2.2

theorem unreporting_fenced {p : Prog Reply} (calls : Calls DbOp.unreporting p) (s : Session Db) :
    p.Obeys (machine P) (fencing request) (fun _ _ => True) s :=
  Program.AllCalls.obeys calls (fun _ unreporting _ _ _ _ _ _ _ => unreporting_carries unreporting) s

section
variable {principal : Principal} {row : TaskRow} {message : String} {brought : List String}

theorem requireWorkerPrincipal_fenced {k : WorkerRow → Prog Reply}
    (next : ∀ worker t, (∀ taskId, s.live.attempts taskId ≤ t.live.attempts taskId) →
      (k worker).Obeys (machine P) (fencing request) (fun _ _ => True) t) :
    (Route.requireWorkerPrincipal w principal >>= k).Obeys (machine P) (fencing request) (fun _ _ => True) s := by
  unfold Route.requireWorkerPrincipal
  rw [Program.bind_assoc]
  refine obeys_read (fun _ _ => rfl) fun s' rely _ _ => ⟨fun _ _ => trivial, ?_⟩
  cases s'.live.workers.get w with
  | none => trivial
  | some worker =>
    dsimp only
    split
    · exact next worker s' rely
    · split
      · trivial
      · exact next worker s' rely

/-- The row on which the reporter's check passes is the task's, and its count was current
after the report was sent. -/
theorem requireTaskReporter_fenced {k : TaskRow → Prog Reply}
    (next : ∀ row t, row.id = taskId → s.live.attempts taskId ≤ row.attempt →
      row.attempt ≤ t.live.attempts taskId → (k row).Obeys (machine P) (fencing request) (fun _ _ => True) t) :
    (Route.requireTaskReporter taskId w principal >>= k).Obeys (machine P) (fencing request)
      (fun _ _ => True) s := by
  unfold Route.requireTaskReporter Route.requireTaskWorkerPrincipal
  simp only [Program.bind_assoc]
  refine obeys_read (fun _ _ => rfl) fun s' rely _ _ => ⟨fun _ _ => trivial, ?_⟩
  cases found : s'.live.tasks.get taskId with
  | none => trivial
  | some row =>
    have counted : s'.live.attempts taskId = row.attempt := by rw [Db.attempts, found, Option.elim_some]
    dsimp only
    cases row.workerId with
    | none => trivial
    | some owner =>
      dsimp only
      rw [Program.bind_assoc]
      refine requireWorkerPrincipal_fenced fun worker t later => ?_
      simp only [Program.pure_eq, Program.ret_bind]
      split
      · trivial
      · exact next row t (Table.get_key found) (counted ▸ rely taskId) (counted ▸ later taskId)

theorem stopTask_fenced {k : Unit → Prog Reply} (own : ∀ held ∈ request.about, held.2.1 = row.id)
    (rest : ∀ u, Calls DbOp.unreporting (k u)) :
    (Route.stopTask P row w message brought >>= k).Obeys (machine P) (fencing request) (fun _ _ => True) s := by
  unfold Route.stopTask
  simp only [Program.bind_assoc]
  refine obeys_perform fun s' io _ _ _ => ⟨fun value t _ _ => ⟨?_, ?_⟩, fun error t _ _ => ⟨?_, trivial⟩⟩
  · exact fun held member => (own held member).symm
  · refine unreporting_fenced ((emit_calls rfl).bind fun _ => ?_) t
    exact ((finalizeJob_calls row.jobId).mono finalizes_unreporting).bind rest
  · exact fun held member => (own held member).symm

/-- Every handler writes for the report it handles. -/
theorem handler_fenced (request : Request)
    (current : ∀ held ∈ request.about, held.2.2 ≤ s.live.attempts held.2.1) :
    (handler P config request).Obeys (machine P) (fencing request) (fun _ _ => True) s := by
  cases request with
  | completeTask attempt taskId result w principal =>
    have begun := current _ rfl
    refine requireTaskReporter_fenced fun row t key lower upper => ?_
    unfold Route.reportCompleted
    simp only [Program.bind_assoc]
    refine obeys_read (fun _ _ => rfl) fun s' rely _ _ => ⟨fun _ _ => trivial, ?_⟩
    have own : ∀ held ∈ (Request.completeTask attempt taskId result w principal).about, held.2.1 = row.id := by
      rintro _ ⟨⟩
      exact key.symm
    split
    · exact stopTask_fenced own fun _ => trivial
    · simp only [Program.bind_assoc]
      refine obeys_attempt fun s'' io rely' _ _ => ⟨fun value t' _ _ => ⟨?_, ?_⟩, fun error t' _ _ => ⟨?_, ?_⟩⟩
      · rintro _ ⟨⟩
        exact ⟨key, row.attempt, rfl, begun.trans lower, (upper.trans (rely taskId)).trans (rely' taskId)⟩
      · have rest : Calls DbOp.unreporting (Route.taskCompleted P row
            (Route.attestedResult result row w principal) w) :=
          (noteMismatch_calls (fun _ => rfl) _ _ _).bind fun _ => (emit_calls rfl).bind fun _ =>
            (finalizeJob_calls row.jobId).mono finalizes_unreporting
        refine unreporting_fenced (Program.AllCalls.bind rest fun _ => ?_) t'
        trivial
      · rintro _ ⟨⟩
        exact ⟨key, row.attempt, rfl, begun.trans lower, (upper.trans (rely taskId)).trans (rely' taskId)⟩
      · unfold Route.completeFailed
        split <;> trivial
  | failTask attempt taskId failure w principal =>
    refine requireTaskReporter_fenced fun row t key _ _ => ?_
    have own : ∀ held ∈ (Request.failTask attempt taskId failure w principal).about, held.2.1 = row.id := by
      rintro _ ⟨⟩
      exact key.symm
    refine obeys_read (fun _ _ => rfl) fun s' _ _ _ => ⟨fun _ _ => trivial, ?_⟩
    split
    · exact stopTask_fenced own fun _ => trivial
    · intro s'' _ _ io _ _
      refine ⟨fun held member => (own held member).symm, unreporting_fenced ?_ _⟩
      dsimp only
      split
      · refine (emit_calls rfl).bind fun _ => Program.AllCalls.bind ?_ fun _ => trivial
        exact (finalizeJob_calls row.jobId).mono finalizes_unreporting
      · trivial
      · trivial
  | _ =>
    refine Program.AllCalls.obeys (P := fun _ => True) (Program.AllCalls.always (fun _ => trivial) _) ?_ s
    rintro _ _ _ _ _ _ _ _ ⟨⟩

end

/-- Reports are sent after their leases, so not ahead of their tasks' counts. -/
def Timely (config : ServerConfig) (P : Platform) (p : ServerPool) (l : Turn) : Prop :=
  (server P config).Lawful p l ∧ ∀ request, l = .spawn request →
    ∀ held ∈ request.about, held.2.2 ≤ p.store.live.attempts held.2.1

theorem fencing_rules (P : Platform) (config : ServerConfig) :
    System.Cooperates (server P config) (Timely config P) fencing (fun _ _ _ => True) fun _ => True where
  shared _ _ _ := trivial
  trans _ _ _ _ _ first second taskId := (first taskId).trans (second taskId)
  same _ _ _ _ _ := Nat.le_refl _
  spawned _ request timely _ := handler_fenced request (timely.2 request rfl)
  allowed _ _ _ _ c _ found timely _ := ⟨timely.1 c (waiting_of found), trivial⟩
  keeps _ _ _ _ _ _ _ _ _ _ := trivial
  relied p _ io _ c _ _ _ _ _ _ _ _ _ :=
    ⟨fun _ _ _ taskId => exec_attempts_le P io c.op p.store taskId, fun _ _ => trivial⟩
  recovers _ _ _ := trivial

/-- The reports in progress are on leases obtained, and their threads write for them. -/
structure Reporting (P : Platform) (config : ServerConfig) (past : ServerPast) (p : ServerPool) : Prop where
  obtained : ∀ th ∈ p.threads, ∀ held ∈ th.request.about, Obtained P past held.1 held.2.1 held.2.2
  obey : System.AllObey (server P config) fencing (fun _ _ _ => True) p

theorem Obtained.grows (obtained : Obtained P past w taskId a) {t : System.Taken Request Call Call.Ret Fault
    Reply (Session Db) Io} : Obtained P (t :: past) w taskId a := by
  obtain ⟨m, member, leased⟩ := obtained
  exact ⟨m, made_grows _ member, leased⟩

/-- What has been obtained is counted by the task's row. -/
theorem Obtained.row (obtained : Obtained P past w taskId a) (numbered : LeasedOnce P past db) :
    ∃ r, db.tasks.get taskId = some r ∧ a ≤ r.attempt := by
  obtain ⟨m, made, leased⟩ := obtained
  obtain ⟨positive, bound⟩ := numbered.bound m made w taskId a leased
  unfold Db.attempts at bound
  cases found : db.tasks.get taskId with
  | none =>
    rw [found, Option.elim_none] at bound
    omega
  | some r =>
    rw [found, Option.elim_some] at bound
    exact ⟨r, rfl, bound⟩

theorem Reporting.step (reporting : Reporting P config past p) (numbered : LeasedOnce P past p.store.live)
    (lawful : (server P config).Lawful p l) (entitled : Entitled P past l)
    (stepped : (server P config).take p l = some q) : Reporting P config (⟨p, l⟩ :: past) q := by
  have timely : Timely config P p l := by
    refine ⟨lawful, ?_⟩
    rintro request rfl held member
    obtain ⟨m, made, leased⟩ := entitled held member
    exact (numbered.bound m made _ _ _ leased).2
  refine ⟨fun th member held about => ?_, ((fencing_rules P config).step trivial reporting.obey timely stepped).2⟩
  cases l with
  | spawn request =>
    cases Option.some.inj stepped
    rcases List.mem_append.mp member with old | new
    · exact (reporting.obtained th old held about).grows
    · rw [List.mem_singleton.mp new] at about
      exact (entitled held about).grows
  | restart =>
    cases Option.some.inj stepped
    cases member
  | sched i io =>
    obtain ⟨request, c, next, found, rfl⟩ := System.sched_cases stepped
    rcases List.mem_or_eq_of_mem_set member with old | rfl
    · exact (reporting.obtained th old held about).grows
    · exact (reporting.obtained _ (List.mem_of_getElem? found) held about).grows

theorem reports_recorded (run : ReportsRecorded P config past p) : Recorded P config past p :=
  run.mono fun _ _ _ allowed => allowed.1

theorem recorded_reporting (run : ReportsRecorded P config past p) : Reporting P config past p := by
  induction run with
  | start => exact ⟨fun _ member => absurd member List.not_mem_nil, fun _ member => absurd member List.not_mem_nil⟩
  | next before allowed stepped ih =>
    exact ih.step (recorded_accounted (reports_recorded before)).numbered allowed.1 allowed.2 stepped

/-! ## One turn -/

section
variable {i : Nat} {c : Call} {next : Call.Ret c → Prog Reply} {r : TaskRow}

/-- What the handler of a report writes to a task, it writes for the report's worker. -/
theorem report_sender (about : request.about = some (w, taskId, a)) (writes : request.writes config op)
    (reporting : op.unreporting = false) : op.sender = some w := by
  cases request with
  | completeTask a taskId sent v principal =>
    cases about
    cases op with
    | completeTask => exact congrArg some writes.1
    | cancelRunningTask => exact congrArg some writes
    | failTask => contradiction
    | _ => cases reporting
  | failTask a taskId failure v principal =>
    cases about
    cases op with
    | failTask => exact writes.1
    | cancelRunningTask => exact congrArg some writes
    | completeTask => contradiction
    | _ => cases reporting
  | _ => cases about

/-- What writes to a task in flight is the write of a report. -/
theorem report_writing (about : request.about = some (w, taskId, a)) (makes : request.makes config op)
    (writes : op.writes r) : request.writes config op ∧ op.unreporting = false := by
  rcases makes with common | makes | ⟨_, _, final⟩
  · cases op <;> contradiction
  · refine ⟨makes, ?_⟩
    cases request with
    | completeTask | failTask => cases op <;> first | rfl | contradiction
    | _ => cases about
  · cases op <;> contradiction

/-- A handler changes the task of its report by a write whose checks have passed, for the
worker that sent it. -/
theorem changes_accepted (makes : request.makes config op) (about : request.about = some (w, taskId, a))
    (carries : op.carries s.live taskId a) (found : s.live.tasks.get taskId = some r)
    (changed : (op.after P io s).live.tasks.get taskId ≠ some r) :
    op.accepted P s.live = true ∧ r.workerId = some w := by
  obtain ⟨writes, reporting⟩ :=
    report_writing about makes (Classical.not_not.mp fun apart => changed (exec_frame found apart))
  have sends := report_sender about writes reporting
  cases op with
  | completeTask k v result =>
    obtain rfl : v = w := Option.some.inj sends
    obtain ⟨rfl, _⟩ := carries
    rcases completeTask_cases io s k v result with ⟨row, found', owned, running, _⟩ | ⟨error, ran⟩
    · cases found.symm.trans found'
      exact ⟨by simp [DbOp.accepted, found, owned, running], owned⟩
    · refine absurd ?_ changed
      rw [DbOp.after, DbOp.exec, ran]
      exact found
  | failTask k o error retriable =>
    obtain rfl : o = some w := sends
    obtain rfl : k = taskId := carries
    rcases failTask_cases P io s k (some w) error retriable with
      ⟨row, found', owned, legal, storable, _⟩ | ⟨raised, ran⟩
    · cases found.symm.trans found'
      exact ⟨by simp [DbOp.accepted, found, owned rfl, legal, storable], owned rfl⟩
    · refine absurd ?_ changed
      rw [DbOp.after, DbOp.exec, ran]
      exact found
  | cancelRunningTask k v =>
    obtain rfl : v = w := Option.some.inj sends
    obtain rfl : k = taskId := carries
    rcases cancelRunningTask_cases io s k v with ⟨row, found', owned, legal, _⟩ | ⟨error, ran⟩ | ran
    · cases found.symm.trans found'
      exact ⟨by simp [DbOp.accepted, found, owned, legal], owned⟩
    · refine absurd ?_ changed
      rw [DbOp.after, DbOp.exec, ran]
      exact found
    · refine absurd ?_ changed
      rw [DbOp.after, DbOp.exec, ran]
      exact found
  | _ => cases sends

/-- What passes the checks of a report's write is held by a worker. -/
theorem accepted_inFlight (accepted : op.accepted P db = true) (carries : op.carries db taskId a)
    (found : db.tasks.get taskId = some r) (sound : r.Sound db) (owned : r.workerId = some w) :
    r.status.inFlight = true := by
  cases op with
  | completeTask k v result =>
    obtain ⟨rfl, _⟩ := carries
    simp only [DbOp.accepted, found, Option.any_some, Bool.and_eq_true, decide_eq_true_eq] at accepted
    rw [accepted.2]
    rfl
  | failTask k o error retriable =>
    obtain rfl : k = taskId := carries
    simp only [DbOp.accepted, found, Option.any_some, Bool.and_eq_true, decide_eq_true_eq] at accepted
    have settled := sound.settled
    cases status : r.status <;> simp_all [taskCanTransition, taskTransitions, TaskStatus.inFlight]
  | cancelRunningTask k v =>
    obtain rfl : k = taskId := carries
    simp only [DbOp.accepted, found, Option.any_some, Bool.and_eq_true, decide_eq_true_eq] at accepted
    have settled := sound.settled
    have idle := sound.queued
    cases status : r.status <;> simp_all [taskCanTransition, taskTransitions, TaskStatus.inFlight]
  | _ => contradiction

/-- What passes the checks of a report's write is written. -/
theorem accepted_changes (P : Platform) (io : Io) (accepted : op.accepted P s.live = true)
    (carries : op.carries s.live taskId a) : (op.after P io s).live.tasks.get taskId ≠ s.live.tasks.get taskId := by
  have differs {r : TaskRow} (r' : TaskRow) (found : s.live.tasks.get taskId = some r) (other : r'.status ≠ r.status)
      (now : (op.after P io s).live.tasks.get taskId = some r') :
      (op.after P io s).live.tasks.get taskId ≠ s.live.tasks.get taskId := by
    rw [now, found]
    exact fun same => other (congrArg TaskRow.status (Option.some.inj same))
  cases op with
  | completeTask k w result =>
    obtain ⟨rfl, _⟩ := carries
    obtain ⟨r, found, passes⟩ := (Option.any_eq_true _ _).mp accepted
    simp only [Bool.and_eq_true, decide_eq_true_eq] at passes
    refine differs (r.complete result io.now) found (by rw [passes.2]; rintro ⟨⟩) ?_
    simp only [DbOp.after, DbOp.exec, completeTask_ok found passes.1 passes.2]
    exact (setTask_wrote found _ _ _).touched.now
  | failTask k o error retriable =>
    obtain rfl : k = taskId := carries
    obtain ⟨r, found, passes⟩ := (Option.any_eq_true _ _).mp accepted
    simp only [Bool.and_eq_true, decide_eq_true_eq] at passes
    obtain rfl : r.id = k := Table.get_key found
    refine differs (r.fail error retriable io.now) found (fun same => ?_) ?_
    · rw [← same, fail_status] at passes
      split at passes <;> simp [taskCanTransition, taskTransitions] at passes
    · have storable := Option.isNone_iff_eq_none.mp passes.2.2
      simp only [DbOp.after, DbOp.exec, failTask_ok found (fun _ => passes.1) passes.2.1 storable]
      rw [Session.settled, Db.refresh_tasks]
      exact (fail_wrote found _ _ _).touched.now
  | cancelRunningTask k w =>
    obtain rfl : k = taskId := carries
    obtain ⟨r, found, passes⟩ := (Option.any_eq_true _ _).mp accepted
    simp only [Bool.and_eq_true, decide_eq_true_eq] at passes
    refine differs (r.stop io.now) found (fun same => ?_) ?_
    · rw [← same] at passes
      cases passes.2
    · simp only [DbOp.after, DbOp.exec, cancelRunningTask_ok found passes.1 passes.2]
      exact (setTask_wrote found _ _ _).touched.now
  | _ => contradiction

/-- Where no later lease of the worker stands, what a report's write finds is its attempt. -/
theorem accepted_current (run : ReportsRecorded P config past p) (waits : p.threads[i]? = some ⟨request, .call c next⟩)
    (about : request.about = some (w, taskId, a)) (carries : c.op.carries p.store.live taskId a)
    (accepted : c.op.accepted P p.store.live = true) (current : ¬Superseded P past p (.sched i io)) :
    ∃ r, p.store.live.tasks.get taskId = some r ∧ r.attempt = a := by
  have recorded := reports_recorded run
  have accounted := recorded_accounted recorded
  have obtained := (recorded_reporting run).obtained _ (List.mem_of_getElem? waits) _ about
  obtain ⟨r, found, bound⟩ := obtained.row accounted.numbered
  have changed := accepted_changes P io accepted carries
  rw [found] at changed
  obtain ⟨_, owned⟩ := changes_accepted ((recorded_requesting recorded).made waits) about carries found changed
  have sound := (recorded_keeping recorded).1.good.sound taskId r found
  obtain ⟨v, owner, m, made, leased, _⟩ :=
    accounted.known taskId r found (accepted_inFlight accepted carries found sound owned)
  cases owned.symm.trans owner
  refine ⟨r, found, Nat.le_antisymm ?_ bound⟩
  refine Nat.le_of_not_lt fun later => current ⟨c, waiting_of waits, (w, taskId, a), ?_, accepted, m, made,
    (w, taskId, r.attempt), leased, rfl, rfl, later⟩
  rw [ServerPool.about, waits, Option.bind_some]
  exact about

theorem Reporting.carries (reporting : Reporting P config past p) (lawful : (server P config).Lawful p (.sched i io))
    (waits : p.threads[i]? = some ⟨request, .call c next⟩) (about : request.about = some (w, taskId, a)) :
    c.op.carries p.store.live taskId a := by
  have timely : Timely config P p (.sched i io) := ⟨lawful, by rintro _ ⟨⟩⟩
  exact ((fencing_rules P config).given trivial reporting.obey waits timely).1 _ about

/-- A turn that is no superseded report changes no task but at the report's attempt. -/
theorem fenced_of_current (run : ReportsRecorded P config past p) (lawful : (server P config).Lawful p l)
    (current : ¬Superseded P past p l) (stepped : (server P config).take p l = some q) : Fenced p l q := by
  rintro i io w taskId a rfl about changed
  obtain ⟨request, c, next, waits, rfl⟩ := System.sched_cases stepped
  simp only [ServerPool.about, waits, Option.bind_some] at about
  have carries := (recorded_reporting run).carries lawful waits about
  refine accepted_current run waits about carries ?_ current
  have recorded := reports_recorded run
  have obtained := (recorded_reporting run).obtained _ (List.mem_of_getElem? waits) _ about
  obtain ⟨r, found, _⟩ := obtained.row (recorded_accounted recorded).numbered
  rw [found] at changed
  exact (changes_accepted ((recorded_requesting recorded).made waits) about carries found changed).1

/-- A superseded report is not fenced off. -/
theorem Superseded.unfenced (run : ReportsRecorded P config past p) (lawful : (server P config).Lawful p l)
    (superseded : Superseded P past p l) (stepped : (server P config).take p l = some q) : ¬Fenced p l q := by
  intro fenced
  cases l with
  | spawn | restart => contradiction
  | sched i io =>
  obtain ⟨c, waiting, ⟨w, taskId, a⟩, about, accepted, m, made, ⟨v, k, later⟩, leased, holder, key, behind⟩ :=
    superseded
  obtain rfl : v = w := holder
  obtain rfl : k = taskId := key
  obtain ⟨request, c', next, waits, rfl⟩ := System.sched_cases stepped
  cases waiting.symm.trans (waiting_of waits)
  have mine : request.about = some (v, k, a) := by
    rwa [ServerPool.about, waits, Option.bind_some] at about
  have carries := (recorded_reporting run).carries lawful waits mine
  obtain ⟨r, found, rfl⟩ := fenced i io v k a rfl about (accepted_changes P io accepted carries)
  have again : Obtained P past v k later := ⟨m, made, leased⟩
  obtain ⟨r', found', bound⟩ := again.row (recorded_accounted (reports_recorded run)).numbered
  cases found.symm.trans found'
  exact absurd bound (Nat.not_le_of_lt behind)

end

/-! ## Results -/

theorem exec_attested (P : Platform) (io : Io) (attested : s.live.Attested)
    (honest : ∀ k w result r, op = .completeTask k w result → s.live.tasks.get k = some r →
      r.workerId = some w → r.status = .running → result.provenance.attempt = some r.attempt) :
    (op.after P io s).live.Attested := by
  intro taskId r' found' succeeded
  rcases exec_completed found' succeeded with before | ⟨w, result, r, calls, found, owned, running, rfl⟩
  · exact attested taskId r' before succeeded
  · exact ⟨result, rfl, honest taskId w result r calls found owned running⟩

theorem attested_of_current (run : ReportsRecorded P config past p) (lawful : (server P config).Lawful p l)
    (current : ¬Superseded P past p l) (stepped : (server P config).take p l = some q)
    (attested : p.store.live.Attested) : q.store.live.Attested := by
  have recorded := reports_recorded run
  cases l with
  | spawn request =>
    cases Option.some.inj stepped
    exact attested
  | restart =>
    cases Option.some.inj stepped
    have settled := (recorded_keeping recorded).1.settled
    change p.store.disk.Attested
    have same : p.store.disk = p.store.live := by rw [settled]; rfl
    exact same ▸ attested
  | sched i io =>
    obtain ⟨request, c, next, waits, rfl⟩ := System.sched_cases stepped
    refine exec_attested P io attested fun k w result r calls found owned running => ?_
    have makes := (recorded_requesting recorded).made waits
    have accepted : c.op.accepted P p.store.live = true := by
      simp [calls, DbOp.accepted, found, owned, running]
    rw [calls] at makes
    rcases makes with common | writes | ⟨_, _, final⟩
    · contradiction
    · cases request with
      | completeTask a taskId sent v principal =>
        have carries := (recorded_reporting run).carries lawful waits rfl
        obtain ⟨r', found', rfl⟩ := accepted_current run waits rfl carries accepted current
        rw [calls] at carries
        obtain ⟨rfl, n, names, lower, upper⟩ := carries
        cases found.symm.trans found'
        rw [Db.attempts, found, Option.elim_some] at upper
        rw [names, Nat.le_antisymm upper lower]
      | _ => contradiction
    · contradiction

/-! ## Runs -/

/-- Every turn of a run was fenced, and in every state succeeded tasks name their attempt. -/
structure ReportsFenced (P : Platform) (config : ServerConfig) (past : ServerPast) (p : ServerPool) : Prop where
  fenced : ∀ t prior q, t :: prior <:+ past → (server P config).take t.pool t.label = some q →
    Fenced t.pool t.label q
  attested : (∀ t ∈ past, t.pool.store.live.Attested) ∧ p.store.live.Attested

/-- However leases, reapings and reports interleave, a run keeps reports to their attempts
exactly if none of them is written while its worker holds the task under a later lease. -/
theorem reports_fenced (run : ReportsRecorded P config past p) :
    ReportsFenced P config past p ↔ Current P past := by
  induction run with
  | start =>
    refine ⟨fun _ => trivial, fun _ => ⟨fun t prior q turn => ?_, fun t member => ?_, ?_⟩⟩
    · exact absurd (List.suffix_nil.mp turn) (List.cons_ne_nil _ _)
    · exact absurd member List.not_mem_nil
    · intro taskId r found
      simp [started, Session.settled] at found
  | @next past p l q before allowed stepped ih =>
    constructor
    · rintro ⟨fenced, earlier, _⟩
      refine ⟨fun superseded => ?_, ih.mp ⟨fun t prior u turn => ?_, fun t old => ?_, ?_⟩⟩
      · exact superseded.unfenced before allowed.1 stepped (fenced ⟨p, l⟩ past q List.suffix_rfl stepped)
      · exact fenced t prior u (turn.trans (List.suffix_cons _ _))
      · exact earlier t (List.mem_cons_of_mem _ old)
      · exact earlier ⟨p, l⟩ List.mem_cons_self
    · rintro ⟨now, current⟩
      obtain ⟨fenced, earlier, attested⟩ := ih.mpr current
      refine ⟨fun t prior u turn taken => ?_, fun t member => ?_,
        attested_of_current before allowed.1 now stepped attested⟩
      · rcases List.suffix_cons_iff.mp turn with same | old
        · cases same
          exact fenced_of_current before allowed.1 now taken
        · exact fenced t prior u old taken
      · rcases List.mem_cons.mp member with rfl | old
        · exact attested
        · exact earlier t old

/-- The worker's report on its attempt. -/
theorem reports_fenced_reported : ∃ past p r, ReportsRecorded .plain {} past p ∧
    p.store.live.tasks.get "task_1" = some r ∧ r.status = .succeeded ∧ ReportsFenced .plain {} past p := by
  have recorded : ((server .plain {}).record
      (fun past p l => (server .plain {}).Lawful p l ∧ Entitled .plain past l) reportedTurns [] started).any
      (fun out => decide (Current .plain out.1) &&
        (out.2.store.live.tasks.get "task_1").any fun r => decide (r.status = .succeeded)) = true := by
    decide +kernel
  obtain ⟨past, p, run, facts⟩ := System.record_any recorded
  obtain ⟨current, facts⟩ := Bool.and_eq_true_iff.mp facts
  obtain ⟨r, found, succeeded⟩ := (Option.any_eq_true _ _).mp facts
  exact ⟨past, p, r, run, found, of_decide_eq_true succeeded,
    (reports_fenced run).mpr (of_decide_eq_true current)⟩

/-- A worker declared dead returns and is leased its task again; then its report on the
first attempt arrives. There are two attempts, so the report ends the second as failed. -/
def staleTurns : List Turn :=
  runningTurns ++ [.spawn (.reaperTick .insertion)] ++ turns 4 3 100 ++
  [.spawn (.heartbeat "worker_0" {})] ++ turns 5 3 101 ++ [.spawn (.lease "worker_0" {})] ++ turns 6 3 102 ++
  [.spawn (.failTask 1 "task_1" { error := "lost" } "worker_0" {})] ++ turns 7 3 103

theorem stale_report_accepted : ¬∀ past p, ReportsRecorded .plain {} past p → ReportsFenced .plain {} past p := by
  intro fences
  have recorded : ((server .plain {}).record
      (fun past p l => (server .plain {}).Lawful p l ∧ Entitled .plain past l) staleTurns [] started).any
      (fun out => decide (Superseded .plain out.1 out.2 (.sched 7 { now := 104 })) &&
        decide ((server .plain {}).Lawful out.2 (.sched 7 { now := 104 })) &&
        ((server .plain {}).take out.2 (.sched 7 { now := 104 })).isSome) = true := by decide +kernel
  obtain ⟨past, p, run, facts⟩ := System.record_any recorded
  clear recorded
  simp only [Bool.and_eq_true, decide_eq_true_eq] at facts
  obtain ⟨⟨superseded, lawful⟩, steps⟩ := facts
  obtain ⟨q, stepped⟩ := Option.isSome_iff_exists.mp steps
  have fenced := (fences _ q (run.next ⟨lawful, trivial⟩ stepped)).fenced ⟨p, _⟩ past q List.suffix_rfl stepped
  exact superseded.unfenced run lawful stepped fenced

end N4Cluster
