import N4Cluster.Server.Service
import N4Cluster.Server.Settlement

/-! Complete mediation. In every run of a service with principals configured, a request that
came over HTTP reaches the database only behind a token of a principal with the right of the
route, and what is written under a name is written under the name of that principal. What
nobody may do is never done: without an executor no task is ever leased. -/
namespace N4Cluster
open Relational Transactional Relation Interleave

variable {P : Platform} {printable : Char → Bool} {config : ServiceConfig} {headers : Headers} {action : Action}
  {principal : Principal} {right : Right} {op : DbOp}

/-! ## Tokens -/

/-- The token of the request belongs to a principal with the right. -/
def ServiceConfig.Grants (config : ServiceConfig) (headers : Headers) (principal : Principal) (right : Right) : Prop :=
  ∃ t : TokenPrincipal, Authorizer.Owns config.authorizer (bearerToken headers.authorization) t ∧
    t.toPrincipal = principal ∧ principal.has right = true

theorem found_owns {principals : List TokenPrincipal} {token : Option String} {t : TokenPrincipal}
    (configured : principals ≠ []) (found : Authorizer.principalForToken principals token = .ok (some t)) :
    Authorizer.Owns principals token t := by
  have enforced : principals.isEmpty = false := by simpa using configured
  unfold Authorizer.principalForToken at found
  rw [enforced] at found
  split at found
  · contradiction
  · split at found
    · cases found
    · cases found
    · rename_i text other
      have presented : text ≠ "" := fun empty => other (by rw [empty])
      by_cases plain : ascii text = true ∧ ∀ p ∈ principals, ascii p.token = true
      · rw [Authorizer.scan_ok plain.1 plain.2, Option.or_none] at found
        exact (Authorizer.find_last_iff presented).mp (Except.ok.inj found)
      · have beyond : ascii text = false ∨ ∃ p ∈ principals, ascii p.token = false := by
          rw [not_and_or] at plain
          simpa using plain
        obtain ⟨message, raised⟩ := Authorizer.scan_raises configured beyond none
        rw [raised] at found
        cases found

theorem Authorizer.Owns.member {principals : List TokenPrincipal} {token : Option String} {t : TokenPrincipal}
    (owns : Authorizer.Owns principals token t) : t ∈ principals := by
  obtain ⟨_, _, before, after, split, _⟩ := owns
  rw [split]
  simp

/-- What passes the dependency of a route. -/
theorem requires_cases (printable : Char → Bool) (configured : config.enforced = true) (headers : Headers) (right : Right) :
    (∃ principal, config.Grants headers principal right ∧ requires printable config headers right = .ret principal) ∨
    ∃ fault, requires printable config headers right = .raise fault := by
  have some_principal : config.authorizer ≠ [] := by
    intro empty
    rw [ServiceConfig.enforced, empty] at configured
    contradiction
  have failed (failure : AuthFailure)
      (checked : Authorizer.check printable config.authorizer (bearerToken headers.authorization) [right] = .error failure) :
      ∃ fault, requires printable config headers right = .raise fault := by
    unfold requires
    rw [checked]
    cases failure <;> exact ⟨_, rfl⟩
  cases found : Authorizer.principalForToken config.authorizer (bearerToken headers.authorization) with
  | error failure => exact .inr (failed failure (by rw [Authorizer.check, found]; rfl))
  | ok matched =>
    cases matched with
    | none => exact .inr (failed _ (Authorizer.check_unowned found))
    | some t =>
      have checked : Authorizer.check printable config.authorizer (bearerToken headers.authorization) [right] = _ :=
        Authorizer.check_owned found
      by_cases all : ∀ r ∈ [right], t.has r = true
      · rw [if_pos all] at checked
        refine .inl ⟨t.toPrincipal, ⟨t, found_owns some_principal found, rfl, all right List.mem_cons_self⟩, ?_⟩
        unfold requires
        rw [checked]
      · rw [if_neg all] at checked
        exact .inr (failed _ checked)

/-! ## What routes call -/

/-- The rights one of which it takes to write. -/
def DbOp.needs : DbOp → List Right
  | .createJobWithTasks _ _ => [.submit]
  | .addArtifact _ => [.submit, .execute]
  | .setJobStatus _ _ _ | .cancelJobTasks _ => [.cancel]
  | .setJobResult _ _ | .trySetJobStatus _ _ | .clearJobArtifactRole _ _ => [.cancel, .execute]
  | .linkJobArtifact _ _ role _ => if role = "best_model" then [.cancel, .execute] else [.execute]
  | .registerWorker _ _ | .heartbeatWorker _ _ | .leaseNextTask _ _ | .startTask _ _ | .completeTask _ _ _
  | .failTask _ _ _ _ | .cancelRunningTask _ _ => [.execute]
  | _ => []

/-- The names that are written as those of who asked. -/
def DbOp.records : DbOp → List (Option String)
  | .createJobWithTasks req owner => [owner, req.submission.bind JobSubmissionMetadata.principal]
  | .registerWorker _ principal => [principal]
  | .completeTask _ _ result => [result.provenance.reportedByPrincipal]
  | _ => []

/-- A call that the principal may have made for this action. -/
def Serves (principal : Principal) (action : Action) (op : DbOp) : Prop :=
  op.common = true ∨ action.right ∈ op.needs ∧ ∀ name ∈ op.records, name = some principal.name

theorem serves_of_makes {request : Request} (makes : request.makes config.toServerConfig op)
    (written : request.writes config.toServerConfig op →
      action.right ∈ op.needs ∧ ∀ name ∈ op.records, name = some principal.name)
    (finalizes : request.finalizes = true → action.right ∈ [Right.cancel, .execute]) : Serves principal action op := by
  obtain common | writes | ⟨final, jobId, writes⟩ := makes
  · exact .inl common
  · exact .inr (written writes)
  · have asked := finalizes final
    cases op with
    | setJobResult | trySetJobStatus | clearJobArtifactRole => exact .inr ⟨asked, by rintro _ ⟨⟩⟩
    | linkJobArtifact j t role x =>
      refine .inr ⟨?_, by rintro _ ⟨⟩⟩
      rw [DbOp.needs, if_pos writes.2]
      exact asked
    | _ => exact False.elim writes

theorem handler_serves (P : Platform) (config : ServiceConfig) (request : Request)
    (written : ∀ op, request.writes config.toServerConfig op →
      action.right ∈ op.needs ∧ ∀ name ∈ op.records, name = some principal.name)
    (finalizes : request.finalizes = true → action.right ∈ [Right.cancel, .execute]) :
    (handler P config.toServerConfig request).AllCalls fun c => Serves principal action c.op :=
  (handler_makes request).mono fun c makes => serves_of_makes makes (written c.op) finalizes

theorem getJob_reads (jobId : JobId) : Calls DbOp.reads (Route.getJob P jobId) := by
  refine (perform_calls rfl).bind fun found => ?_
  cases found with
  | none => trivial
  | some row => exact replyJob_calls jobId

theorem accepted_submission (req : JobRequest) (principal : Principal) :
    (Route.acceptedRequest req principal).submission.bind JobSubmissionMetadata.principal = some principal.name := by
  unfold Route.acceptedRequest Route.requireNirs4all
  split <;> rfl

theorem run_serves (P : Platform) (config : ServiceConfig) (principal : Principal) (action : Action) :
    (action.run P config principal).AllCalls fun c => Serves principal action c.op := by
  cases action with
  | getJob jobId => exact Program.AllCalls.mono (fun c reads => .inl (reads_common c.op reads)) (getJob_reads jobId)
  | submitJob req =>
    refine handler_serves P config (.submitJob req principal) (fun op writes => ?_) (by rintro ⟨⟩)
    cases op with
    | createJobWithTasks req' owner =>
      obtain ⟨rfl, rfl⟩ := writes
      refine ⟨List.mem_cons_self, fun name member => ?_⟩
      simp only [DbOp.records, List.mem_cons, List.not_mem_nil, or_false] at member
      obtain rfl | rfl := member
      · rfl
      · exact accepted_submission req principal
    | _ => contradiction
  | cancelJob jobId =>
    refine handler_serves P config (.cancelJob jobId) (fun op writes => ?_) fun _ => by simp [Action.right]
    cases op with
    | setJobStatus | cancelJobTasks => exact ⟨List.mem_cons_self, by rintro _ ⟨⟩⟩
    | _ => contradiction
  | uploadInput upload =>
    refine handler_serves P config (.uploadInput upload) (fun op writes => ?_) (by rintro ⟨⟩)
    cases op with
    | addArtifact => exact ⟨List.mem_cons_self, by rintro _ ⟨⟩⟩
    | _ => contradiction
  | registerWorker reg =>
    refine handler_serves P config (.registerWorker reg principal) (fun op writes => ?_) (by rintro ⟨⟩)
    cases op with
    | registerWorker reg' owner =>
      obtain ⟨rfl, rfl⟩ := writes
      exact ⟨List.mem_cons_self, fun name member => List.mem_singleton.mp member⟩
    | _ => contradiction
  | uploadArtifact taskId role upload =>
    refine handler_serves P config (.uploadArtifact taskId role upload principal) (fun op writes => ?_) (by rintro ⟨⟩)
    cases op with
    | addArtifact => exact ⟨List.mem_cons_of_mem _ List.mem_cons_self, by rintro _ ⟨⟩⟩
    | linkJobArtifact j t role' x =>
      refine ⟨?_, by rintro _ ⟨⟩⟩
      by_cases best : role' = "best_model"
      · rw [DbOp.needs, if_pos best]
        exact List.mem_cons_of_mem _ List.mem_cons_self
      · rw [DbOp.needs, if_neg best]
        exact List.mem_cons_self
    | _ => contradiction
  | completeTask attempt taskId result workerId =>
    refine handler_serves P config (.completeTask attempt taskId result workerId principal) (fun op writes => ?_) fun _ => by simp [Action.right]
    cases op with
    | completeTask t w stored =>
      obtain ⟨_, row, _, rfl⟩ := writes
      exact ⟨List.mem_cons_self, fun name member => List.mem_singleton.mp member⟩
    | cancelRunningTask => exact ⟨List.mem_cons_self, by rintro _ ⟨⟩⟩
    | _ => contradiction
  | failTask attempt taskId failure workerId =>
    refine handler_serves P config (.failTask attempt taskId failure workerId principal) (fun op writes => ?_) fun _ => by simp [Action.right]
    cases op with
    | failTask | cancelRunningTask => exact ⟨List.mem_cons_self, by rintro _ ⟨⟩⟩
    | _ => contradiction
  | heartbeat workerId =>
    refine handler_serves P config (.heartbeat workerId principal) (fun op writes => ?_) (by rintro ⟨⟩)
    cases op <;> first | contradiction | exact ⟨List.mem_cons_self, by rintro _ ⟨⟩⟩
  | lease workerId =>
    refine handler_serves P config (.lease workerId principal) (fun op writes => ?_) (by rintro ⟨⟩)
    cases op <;> first | contradiction | exact ⟨List.mem_cons_self, by rintro _ ⟨⟩⟩
  | startTask taskId workerId =>
    refine handler_serves P config (.startTask taskId workerId principal) (fun op writes => ?_) (by rintro ⟨⟩)
    cases op <;> first | contradiction | exact ⟨List.mem_cons_self, by rintro _ ⟨⟩⟩
  | taskEvent taskId event =>
    exact handler_serves P config (.taskEvent taskId event principal) (fun op writes => by cases op <;> contradiction)
      (by rintro ⟨⟩)

/-! ## Runs -/

/-- What a request over HTTP may call: the announcement of its version, and what its route calls
for a principal that holds the right of the route. -/
def Mediated (config : ServiceConfig) : Arrival → Call ⊕ Note → Prop
  | .tick _, _ => True
  | .request headers _, .inr note => note = headers.note
  | .request headers action, .inl c => c.op = .addEvent (divergenceEvent headers.note) ∨
    ∃ principal, config.Grants headers principal action.right ∧ Serves principal action c.op

/-- The guard looks up the versions it was sent, and announces them at most. -/
theorem guard_calls (headers : Headers) (action : Action) :
    (guard P config headers action).AllCalls
      (Sum.elim (fun c => c.op = .addEvent (divergenceEvent headers.note)) fun note => note = headers.note) := by
  unfold guard
  split
  · trivial
  · split
    · trivial
    · split
      · refine ⟨rfl, fun new => ?_⟩
        cases new with
        | false => trivial
        | true => exact ⟨rfl, fun answer => by cases answer <;> trivial⟩
      · trivial

theorem guard_mediated (headers : Headers) (action : Action) :
    (guard P config headers action).AllCalls (Mediated config (.request headers action)) :=
  Program.AllCalls.mono (fun c calls => by cases c with | inl c => exact .inl calls | inr note => exact calls)
    (guard_calls headers action)

theorem authorized_mediated (configured : config.enforced = true) (headers : Headers) (action : Action) :
    ((authorized P printable config headers action).within : Door Reply).AllCalls
      (Mediated config (.request headers action)) := by
  unfold authorized
  obtain ⟨principal, grants, passed⟩ | ⟨fault, raised⟩ :=
    requires_cases printable configured headers action.right
  · rw [passed]
    refine Program.AllCalls.mono (fun c served => ?_) (run_serves P config principal action).within
    cases c with
    | inl c => exact .inr ⟨principal, grants, served⟩
    | inr note => exact False.elim served
  · rw [raised]
    trivial

theorem serve_mediated (configured : config.enforced = true) (arrival : Arrival) :
    (serve P printable config arrival).AllCalls (Mediated config arrival) := by
  cases arrival with
  | tick order => exact .always (fun _ => trivial) _
  | request headers action =>
    exact (guard_mediated headers action).bind fun _ => authorized_mediated configured headers action

abbrev ServicePool := Pool Arrival (Call ⊕ Note) (Sum.elim Call.Ret fun _ => Bool) Fault Reply (Session Db × List Note)

/-- The pool of a service started on an empty store. -/
def opened : ServicePool := ⟨(.settled {}, []), []⟩

variable {p : ServicePool} {i : Nat} {c : Call} {next : Call.Ret c → Door Reply}

/-- Whatever arrives and however the calls of requests interleave: when a request on such a route calls
the database, it announces its version or its token is that of a principal with the right of
the route, the call is a reading, an event or a write that takes this right, and a name that is
written as that of who asked is the name of the principal. -/
theorem calls_mediated (configured : config.enforced = true)
    (run : System.Reaches (service P printable config) (service P printable config).Lawful opened p)
    (found : p.threads[i]? = some ⟨.request headers action, .call (.inl c) next⟩) :
    c.op = .addEvent (divergenceEvent headers.note) ∨
      ∃ principal, config.Grants headers principal action.right ∧ Serves principal action c.op := by
  have calls := run.calls (fun arrival => serve_mediated configured arrival) fun th member => by cases member
  exact (calls _ (List.mem_of_getElem? found)).1

/-- The next call is a write that takes this right alone. -/
def Door.asks (right : Right) : Door Reply → Bool
  | .call (.inl c) _ => c.op.needs = [right]
  | _ => false

theorem Door.asks_cases {program : Door Reply} (asks : Door.asks right program = true) :
    ∃ c next, program = .call (.inl c) next ∧ c.op.needs = [right] := by
  cases program with
  | ret | raise => cases asks
  | call op next =>
    cases op with
    | inl c => exact ⟨c, next, rfl, of_decide_eq_true asks⟩
    | inr note => cases asks

/-- A service that one submitter knows the token of. -/
def submitterOnly : ServiceConfig := { principals := [{ name := "alice", rights := [.submit, .read], token := "s3cret" }] }

/-- She submits a job. -/
def aliceSubmits : Arrival := .request { authorization := some "Bearer s3cret" } (.submitJob singleTask)

theorem calls_mediated_submitting : ∃ (p : ServicePool) (c : Call) (next : Call.Ret c → Door Reply),
    System.Reaches (service .plain (fun _ => true) submitterOnly) (service .plain (fun _ => true) submitterOnly).Lawful
      opened p ∧
    p.threads[0]? = some ⟨aliceSubmits, .call (.inl c) next⟩ ∧
    c.op.needs = [.submit] ∧ ∀ name ∈ c.op.records, name = some "alice" := by
  have served : Door.asks .submit (serve .plain (fun _ => true) submitterOnly aliceSubmits) = true := by decide +kernel
  obtain ⟨c, next, waits, needs⟩ := Door.asks_cases served
  have run : System.Reaches (service .plain (fun _ => true) submitterOnly)
      (service .plain (fun _ => true) submitterOnly).Lawful opened
      ⟨opened.store, [⟨aliceSubmits, serve .plain (fun _ => true) submitterOnly aliceSubmits⟩]⟩ :=
    .next (l := .spawn aliceSubmits) trivial rfl (.refl _)
  rw [waits] at run
  refine ⟨_, c, next, run, rfl, needs, fun name member => ?_⟩
  obtain announces | ⟨principal, ⟨t, owns, rfl, _⟩, common | ⟨_, named⟩⟩ := calls_mediated (i := 0) rfl run rfl
  · rw [announces] at needs
    contradiction
  · generalize c.op = op at needs common
    cases op <;> contradiction
  · have known : t ∈ submitterOnly.authorizer := owns.member
    rw [List.mem_singleton.mp known] at named
    exact named name member

/-! ## Without executors -/

/-- A call that a request may make takes no right that nobody has. -/
theorem Mediated.unheld (unheld : ∀ t ∈ config.authorizer, t.has right = false) {c : Call}
    (mediated : Mediated config (.request headers action) (.inl c)) : c.op.needs ≠ [right] := by
  intro needs
  obtain announces | ⟨principal, ⟨t, owns, rfl, holds⟩, common | ⟨asked, _⟩⟩ := mediated
  · rw [announces] at needs
    cases needs
  · generalize c.op = op at needs common
    cases op <;> contradiction
  · rw [needs, List.mem_singleton] at asked
    rw [asked, unheld t owns.member] at holds
    contradiction

/-- A task that no worker was ever given. -/
structure TaskRow.Untouched (r : TaskRow) : Prop where
  status : r.status = .queued ∨ r.status = .cancelled
  owner : r.workerId = none
  attempt : r.attempt = 0
  result : r.result = none

/-- Nobody is there to work, and nothing was worked on. -/
structure Db.Idle (db : Db) : Prop where
  workers : ∀ w, db.workers.get w = none
  tasks : ∀ taskId r, db.tasks.get taskId = some r → r.Untouched
  jobs : ∀ jobId row, db.jobs.get jobId = some row → row.status ≠ .running ∧ row.status ≠ .succeeded

theorem TaskMove.untouched {db : Db} {now : Time} {r r' : TaskRow} {o : Option WorkerId} (idle : db.Idle)
    (routed : op.routed = true) (untouched : r.Untouched) (how : TaskMove db now r op r' o) :
    r'.Untouched ∧ r'.status ≠ .leased := by
  obtain ⟨status, owner, attempt, result⟩ := untouched
  have unowned {w : WorkerId} (owned : r.workerId = some w) : False := by
    rw [owner] at owned
    cases owned
  cases how with
  | lease leasable =>
    have found := leasable.registered
    rw [idle.workers] at found
    cases found
  | start owned | complete owned | stop owned => exact (unowned owned).elim
  | fail owned legal =>
    obtain ⟨w, named⟩ := Option.isSome_iff_exists.mp routed
    rw [named] at owned
    exact (unowned (owned rfl)).elim
  | resolve reaps inFlight =>
    obtain queued | cancelled := status
    · rw [queued] at inFlight
      contradiction
    · rw [cancelled] at inFlight
      contradiction
  | cancel waiting => exact ⟨⟨.inr rfl, rfl, attempt, result⟩, by rintro ⟨⟩⟩

theorem Move.stays_idle {io : Io} {db db' : Db} (routed : op.routed = true) (unregistered : op.needs ≠ [.execute])
    (idle : db.Idle) (move : Move io op db db') : db'.Idle := by
  cases move with
  | task touched how jobs workers =>
    obtain ⟨untouched, unleased⟩ := how.untouched idle routed (idle.tasks _ _ touched.found)
    rw [if_neg unleased] at jobs
    refine ⟨fun w => ?_, fun taskId r found => ?_, jobs ▸ idle.jobs⟩
    · rw [workers, refresh_get]
      exact congrArg _ (idle.workers w)
    · rcases touched.back found with ⟨rfl, rfl⟩ | ⟨_, before⟩
      · exact untouched
      · exact idle.tasks taskId r before
  | renew how => exact absurd (how ▸ rfl) unregistered
  | job how found legal moved =>
    subst moved
    refine ⟨idle.workers, idle.tasks, fun jobId row held => ?_⟩
    rw [moveJob_get] at held
    split at held
    · rename_i here
      rw [here, found] at held
      cases held
      obtain ⟨still, undone⟩ := idle.jobs _ _ found
      refine ⟨fun runs => ?_, fun succeeds => ?_⟩
      · change _ = JobStatus.running at runs
        rcases how with rfl | ⟨rfl, _⟩ <;> simp [DbOp.routed, JobRow.moved] at routed runs <;>
          simp [runs, JobStatus.terminal] at routed
      · change _ = JobStatus.succeeded at succeeds
        simp only [JobRow.moved] at succeeds
        rw [succeeds] at legal
        generalize JobRow.status _ = status at still undone legal
        cases status <;> contradiction
    · exact idle.jobs jobId row held
  | result how put =>
    subst put
    refine ⟨idle.workers, idle.tasks, fun jobId row held => ?_⟩
    rw [putResult_get] at held
    split at held
    · obtain ⟨row, found, rfl⟩ := Option.map_eq_some_iff.mp held
      exact idle.jobs jobId row found
    · exact idle.jobs jobId row held
  | newJob creates free inserted tasks workers =>
    refine ⟨workers ▸ idle.workers, tasks ▸ idle.tasks, fun jobId row held => ?_⟩
    rw [Table.get_insert inserted] at held
    split at held
    · cases held
      exact ⟨by rintro ⟨⟩, by rintro ⟨⟩⟩
    · exact idle.jobs jobId row held
  | newTask creates job inserted jobs workers =>
    refine ⟨workers ▸ idle.workers, fun taskId r found => ?_, jobs ▸ idle.jobs⟩
    rw [Table.get_insert inserted] at found
    split at found
    · cases found
      exact ⟨.inl rfl, rfl, rfl, rfl⟩
    · exact idle.tasks taskId r found
  | newWorker how => exact absurd (how ▸ rfl) unregistered
  | workers f keeps get tasks jobs =>
    refine ⟨fun w => ?_, tasks ▸ idle.tasks, jobs ▸ idle.jobs⟩
    rw [get, idle.workers]
    rfl
  | other tasks jobs workers => exact ⟨workers ▸ idle.workers, tasks ▸ idle.tasks, jobs ▸ idle.jobs⟩

/-- A call that no executor is needed for. -/
def Call.Open (c : Call) : Prop := c.op.routed = true ∧ c.op.needs ≠ [.execute]

theorem idle_kept {io : Io} {c : Call} {s : Session Db} (inv : Sound s ∧ s.live.Idle) (fresh : (machine P).valid io c s)
    (due : c.Open) : (Sound ((machine P).exec io c s).2 ∧ ((machine P).exec io c s).2.live.Idle) ∧ True :=
  ⟨⟨(exec_sound due.1 fresh inv.1).1,
    (exec_moves P io c.op s).rec inv.2 fun _ move idle => move.stays_idle due.1 due.2 idle⟩, trivial⟩

/-- Such calls keep the store idle. -/
def idling (P : Platform) : Discipline (machine P) where
  inv s := Sound s ∧ s.live.Idle
  moves _ _ := True
  due _ := Call.Open
  refl _ := trivial
  trans _ _ := trivial
  kept := idle_kept

theorem tick_open (order : SetOrder) : (reaperTick P config.toServerConfig order).AllCalls Call.Open := by
  have makes : Makes config.toServerConfig (.reaperTick order) (reaperTick P config.toServerConfig order) :=
    handler_makes (.reaperTick order)
  have routed : Calls DbOp.routed (reaperTick P config.toServerConfig order) := handler_routed (.reaperTick order)
  refine Program.AllCalls.mono (fun c holds => ⟨holds.1, fun needs => ?_⟩) (routed.and makes)
  obtain ⟨_, common | writes | ⟨_, jobId, writes⟩⟩ := holds
  all_goals generalize c.op = op at *
  · cases op <;> contradiction
  · cases op <;> contradiction
  · cases op with
    | linkJobArtifact j t role x =>
      rw [DbOp.needs, if_pos writes.2] at needs
      contradiction
    | setJobResult | trySetJobStatus | clearJobArtifactRole => simp [DbOp.needs] at needs
    | _ => contradiction

theorem run_routed (action : Action) (principal : Principal) : Calls DbOp.routed (action.run P config principal) := by
  have routed (request : Request) : Calls DbOp.routed (handler P config.toServerConfig request) := handler_routed request
  cases action with
  | getJob jobId => exact (getJob_reads jobId).mono fun op reads => by cases op <;> first | rfl | contradiction
  | submitJob req => exact routed (.submitJob req principal)
  | cancelJob jobId => exact routed (.cancelJob jobId)
  | uploadInput upload => exact routed (.uploadInput upload)
  | registerWorker reg => exact routed (.registerWorker reg principal)
  | heartbeat workerId => exact routed (.heartbeat workerId principal)
  | lease workerId => exact routed (.lease workerId principal)
  | startTask taskId workerId => exact routed (.startTask taskId workerId principal)
  | taskEvent taskId event => exact routed (.taskEvent taskId event principal)
  | uploadArtifact taskId role upload => exact routed (.uploadArtifact taskId role upload principal)
  | completeTask attempt taskId result workerId =>
    exact routed (.completeTask attempt taskId result workerId principal)
  | failTask attempt taskId failure workerId =>
    exact routed (.failTask attempt taskId failure workerId principal)

theorem serve_routed (headers : Headers) (action : Action) :
    (serve P printable config (.request headers action)).AllCalls (Sum.elim (fun c => c.op.routed = true) fun _ => True) := by
  refine Program.AllCalls.bind (Program.AllCalls.mono (fun c calls => ?_) (guard_calls headers action)) fun _ => ?_
  · cases c with
    | inl c =>
      change c.op = _ at calls
      change c.op.routed = true
      rw [calls]
      rfl
    | inr note => trivial
  · unfold authorized requires
    generalize Authorizer.check printable config.authorizer (bearerToken headers.authorization) [action.right] = checked
    cases checked with
    | ok principal =>
      refine Program.AllCalls.mono (fun c routed => ?_) (run_routed action principal.toPrincipal).within
      cases c with
      | inl c => exact routed
      | inr note => trivial
    | error failure => cases failure <;> trivial

theorem serve_open (configured : config.enforced = true) (unheld : ∀ t ∈ config.authorizer, t.has .execute = false)
    (arrival : Arrival) : (serve P printable config arrival).AllCalls (Sum.elim Call.Open fun _ => True) := by
  cases arrival with
  | tick order =>
    refine Program.AllCalls.mono (fun c opens => ?_) (tick_open order).within
    cases c with
    | inl c => exact opens
    | inr note => trivial
  | request headers action =>
    refine Program.AllCalls.mono (fun c both => ?_)
      ((serve_routed headers action).and (serve_mediated configured (.request headers action)))
    cases c with
    | inl c => exact ⟨both.1, both.2.unheld unheld⟩
    | inr note => trivial

theorem idling_governs (configured : config.enforced = true)
    (unheld : ∀ t ∈ config.authorizer, t.has .execute = false) :
    Discipline.Governs (S := service P printable config) ((idling P).beside seenVersions) where
  serves p arrival _ _ := .of_calls (serve_open configured unheld arrival) (fun _ _ _ holds => holds) p.store
  recovers s inv := by
    refine ⟨?_, trivial⟩
    have still : Session.settled s.1.disk = s.1 := inv.1.settled ▸ rfl
    change Sound (Session.settled s.1.disk) ∧ (Session.settled s.1.disk).live.Idle
    rw [still]
    exact inv

/-- Where no principal may execute, no worker is ever registered, whatever is submitted waits
untouched until it is cancelled, and no job runs or succeeds, in every reachable state. -/
theorem nothing_runs (configured : config.enforced = true)
    (unheld : ∀ t ∈ config.authorizer, t.has .execute = false)
    (run : System.Reaches (service P printable config) (service P printable config).Lawful opened p) :
    p.store.1.live.Idle := by
  have idle : Db.Idle {} := by
    refine ⟨fun _ => rfl, fun taskId r found => ?_, fun jobId row found => ?_⟩
    all_goals contradiction
  have start : ((idling P).beside seenVersions).Governed (S := service P printable config) opened := by
    refine ⟨⟨⟨rfl, empty_good⟩, idle⟩, fun th member => ?_⟩
    contradiction
  exact ((idling_governs configured unheld).reaches start run).1.1.2

/-- The job of alice is stored, her worker is turned away and asks for nothing. -/
def pendingTurns : List (Label Arrival Io) :=
  [.spawn aliceSubmits] ++ List.replicate 3 (.sched 0 { now := 1 }) ++
  [.spawn (.request { authorization := some "Bearer s3cret" } (.registerWorker equipped))]

theorem nothing_runs_pending : ∃ p : ServicePool,
    System.Reaches (service .plain (fun _ => true) submitterOnly) (service .plain (fun _ => true) submitterOnly).Lawful
      opened p ∧ p.store.1.live.tasks.rows.length = 1 ∧ p.store.1.live.Idle := by
  have played : ((service .plain (fun _ => true) submitterOnly).play
      (service .plain (fun _ => true) submitterOnly).Lawful pendingTurns opened).any
      (fun p => decide (p.store.1.live.tasks.rows.length = 1)) = true := by decide +kernel
  obtain ⟨p, run, stored⟩ := System.play_any played
  exact ⟨p, run, of_decide_eq_true stored, nothing_runs rfl (by decide) run⟩

end N4Cluster
