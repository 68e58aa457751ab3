import N4Cluster.Server.Fencing
import N4Cluster.Server.Links

/-! Uploads of models. An upload names its task and no attempt; the model linked last is that
of the attempt which reports success unless an upload for another attempt is linked over it. -/
namespace N4Cluster
open Relational Transactional Relation Interleave

variable {P : Platform} {config : ServerConfig} {attempts : Nat → Nat} {past : ServerPast} {p q : ServerPool}
  {l : Turn} {taskId : TaskId} {jobId : JobId} {x : ArtifactId} {io : Io} {op : DbOp} {s t : Session Db}
  {request : Request}

/-- `artifacts.model` of a result. -/
def TaskResult.model (result : TaskResult) : Option ArtifactId := (result.artifacts.lookup "model").join

/-- The task for which the request uploads a model. -/
def Request.models : Request → Option TaskId
  | .uploadArtifact taskId role _ _ => if role = "model" then some taskId else none
  | _ => none

/-- The artifact an upload has answered with. -/
def uploaded : Prog Reply → Option ArtifactId
  | .ret (.artifact x) => some x
  | _ => none

def ServerPool.requestAt (p : ServerPool) (j : Nat) : Option Request := p.threads[j]?.map fun th => th.request

/-- The task and the model that thread `j` has uploaded. -/
def ServerPool.upload (p : ServerPool) (j : Nat) : Option (TaskId × ArtifactId) :=
  p.threads[j]?.bind fun th => th.request.models.bind fun taskId =>
    (uploaded th.program).map fun x => (taskId, x)

/-- The attempt of the task has been leased. -/
def Leased (P : Platform) (past : ServerPast) (taskId : TaskId) (a : Nat) : Prop :=
  ∃ m ∈ System.made past, ∃ lease ∈ CallMade.leased P m, lease.2 = (taskId, a)

instance decidableLeased : Decidable (Leased P past taskId a) :=
  inferInstanceAs (Decidable (∃ m ∈ System.made past, _))

/-- Workers report on leases, upload one model for each attempt and report success with it;
thread `j` uploads for `attempts j`. Nothing else is uploaded as a best model. -/
def Diligent (P : Platform) (attempts : Nat → Nat) (past : ServerPast) (p : ServerPool) : Turn → Prop
  | .spawn request =>
    Entitled P past (.spawn request) ∧
    match request with
    | .uploadArtifact taskId role _ _ => role ≠ "best_model" ∧ (role = "model" →
        Leased P past taskId (attempts p.threads.length) ∧
        ∀ j < p.threads.length, ∀ other ∈ p.requestAt j, other.models = some taskId →
          attempts j ≠ attempts p.threads.length)
    | .completeTask attempt taskId result _ _ => ∃ j < p.threads.length, ∃ up ∈ p.upload j,
        up.1 = taskId ∧ attempts j = attempt ∧ result.model = some up.2
    | _ => True
  | .sched _ _ => True
  | .restart => False

instance decidableDiligent : (l : Turn) → Decidable (Diligent P attempts past p l)
  | .spawn (.uploadArtifact _ _ _ _) | .spawn (.completeTask _ _ _ _ _) =>
    inferInstanceAs (Decidable (Entitled P past _ ∧ _))
  | .spawn (.submitJob _ _) | .spawn (.cancelJob _) | .spawn (.registerWorker _ _) | .spawn (.heartbeat _ _)
  | .spawn (.lease _ _) | .spawn (.startTask _ _ _) | .spawn (.taskEvent _ _ _) | .spawn (.uploadInput _)
  | .spawn (.failTask _ _ _ _ _) | .spawn (.reaperTick _) => inferInstanceAs (Decidable (Entitled P past _ ∧ True))
  | .sched _ _ => isTrue trivial
  | .restart => isFalse id

/-- The runs of the server with such workers. -/
abbrev UploadsRecorded (P : Platform) (config : ServerConfig) (attempts : Nat → Nat) (past : ServerPast)
    (p : ServerPool) : Prop :=
  System.Records (server P config)
    (fun past p l => (server P config).Lawful p l ∧ Diligent P attempts past p l) started past p

/-- The task to which a call links a model. -/
def DbOp.linksModel : DbOp → Option TaskId
  | .linkJobArtifact _ taskId role _ => if role = "model" then taskId else none
  | _ => none

/-- The task is in flight, or has succeeded. -/
def TaskRow.Going (r : TaskRow) : Prop := r.status.inFlight = true ∨ r.status = .succeeded

instance decidableGoing (r : TaskRow) : Decidable r.Going := inferInstanceAs (Decidable (_ ∨ _))

/-- The turn links a model to a task that is in flight or has succeeded, over the model of its
current attempt. -/
def Overwriting (attempts : Nat → Nat) (p : ServerPool) : Turn → Prop
  | .sched i _ => ∃ c ∈ p.waiting i, ∃ taskId ∈ c.op.linksModel, ∃ r ∈ p.store.live.tasks.get taskId,
      r.Going ∧ ∃ j < p.threads.length, ∃ up ∈ p.upload j, up.1 = taskId ∧ attempts j = r.attempt
  | _ => False

instance decidableOverwriting : (l : Turn) → Decidable (Overwriting attempts p l)
  | .sched i _ => inferInstanceAs (Decidable (∃ c ∈ p.waiting i, ∃ taskId ∈ c.op.linksModel, _))
  | .spawn _ | .restart => isFalse id

/-! ## The answer of an upload -/

/-- A link is written by a finalization. -/
def Sited (c : Call) : Prop :=
  ∀ jobId taskId role x, c.op = .linkJobArtifact jobId taskId role x → c.site.finalizes = true

def Request.uploads : Request → Bool
  | .uploadArtifact _ _ _ _ => true
  | _ => false

/-- The handler of an upload answers as it links, and only finalizations link elsewhere. -/
def uploading (request : Request) : Contract Call Call.Ret Fault Reply (Session Db) where
  inv _ := True
  rely _ _ _ := True
  admits _ _ _ := True
  gives _ c r _ := (request.uploads = false → Sited c) ∧ ∀ taskId ∈ request.models,
    (∀ jobId k role x, c.op = .linkJobArtifact jobId k role x → k = some taskId ∧ uploaded r = some x) ∧
    ∀ x, uploaded r = some x → ∃ jobId, c.op = .linkJobArtifact jobId (some taskId) "model" x

section
variable {sent : Option NewArtifact} {principal : Principal}

theorem uploading_gives {c : Call} {r : Prog Reply} (waits : uploaded r = none)
    (unlinking : c.op.unlinking = true) : (uploading request).gives s c r t := by
  have none (jobId k role x) : c.op ≠ .linkJobArtifact jobId k role x := by
    intro links
    rw [links] at unlinking
    contradiction
  refine ⟨fun _ _ _ _ _ links => absurd links (none _ _ _ _), fun taskId _ => ⟨?_, fun x answered => ?_⟩⟩
  · exact fun _ _ _ _ links => absurd links (none _ _ _ _)
  · rw [waits] at answered
    cases answered

/-! Links elsewhere. -/

theorem unlinking_sited {c : Call} (unlinking : c.op.unlinking = true) : Sited c := by
  intro _ _ _ _ links
  rw [links] at unlinking
  contradiction

theorem calls_sited {α : Type} {p : Prog α} (calls : Calls DbOp.unlinking p) : p.AllCalls Sited :=
  Program.AllCalls.mono (fun _ => unlinking_sited) calls

theorem finalizeJob_sited (jobId : JobId) : (finalizeJob P jobId).AllCalls Sited := by
  refine (calls_sited (perform_calls rfl)).bind fun found => ?_
  cases found with
  | none => trivial
  | some row =>
    refine (calls_sited ((buildAggregate_calls _ _).mono reads_unlinking)).bind fun (agg, taskId, artifactId) =>
      (calls_sited (perform_calls rfl)).bind fun _ => Program.AllCalls.bind ?_ fun _ =>
        Program.AllCalls.bind ?_ fun _ => calls_sited (settleIfTerminal_unlinking _ _)
    · refine ⟨?_, fun answer => by cases answer <;> trivial⟩
      rintro _ _ _ _ ⟨⟩
    · unfold linkBestModel
      split
      · exact ⟨fun _ _ _ _ _ => rfl, fun answer => by cases answer <;> trivial⟩
      · trivial

theorem sited_pieces (P : Platform) : Pieces P fun _ p => p.AllCalls Sited where
  ret _ := trivial
  raise _ := trivial
  bind := Program.AllCalls.bind
  handle := Program.AllCalls.handle
  call _ plain later := ⟨unlinking_sited (plain_unlinking plain), later⟩
  finalizeJob := finalizeJob_sited

theorem handler_sited (request : Request) (other : request.uploads = false) :
    (handler P config request).AllCalls Sited := by
  have pieces := sited_pieces P
  refine pieces.handler request ?_
  cases request with
  | uploadArtifact => cases other
  | taskEvent taskId event principal =>
    exact pieces.bind (pieces.requireTaskWorkerPrincipal _ _) fun row =>
      pieces.bind (calls_sited (emit_calls rfl)) fun _ => pieces.ret _
  | completeTask a taskId result w principal =>
    refine pieces.bind (pieces.requireTaskReporter _ _ _) fun row => pieces.bind ?_ fun _ => pieces.ret _
    refine pieces.bind (pieces.perform rfl rfl) fun job => ?_
    split
    · exact pieces.stopTask _ _ _ _
    · refine pieces.bind (pieces.handle (calls_sited (perform_calls rfl)) fun fault => ?_) fun _ =>
        pieces.taskCompleted _ _ _
      unfold Route.completeFailed
      split <;> exact pieces.raise _
  | _ => trivial

/-- The part of `upload_artifact` after its check. -/
theorem stored_uploading (taskId : TaskId) (row : TaskRow) (upload : Option NewArtifact) :
    let stores : Prog Reply := match upload with
      | none => httpError 413 "artifact too large"
      | some artifact => do
        let artifactId ← perform .route (.addArtifact artifact)
        perform .route (.linkJobArtifact row.jobId (some taskId) "model" artifactId)
        return .artifact artifactId
    uploaded stores = none ∧ stores.Obeys (machine P)
      (uploading (.uploadArtifact taskId "model" sent principal)) (fun _ _ => True) s := by
  cases upload with
  | none => exact ⟨rfl, trivial⟩
  | some artifact =>
    refine ⟨rfl, obeys_perform fun s₁ io _ _ _ => ⟨fun x t _ _ => ⟨uploading_gives rfl rfl, ?_⟩,
      fun _ _ _ _ => ⟨uploading_gives rfl rfl, trivial⟩⟩⟩
    refine obeys_perform fun s₂ io _ _ _ => ⟨fun _ t _ _ => ⟨?_, trivial⟩, fun _ _ ran _ => by cases ran⟩
    refine ⟨(by rintro ⟨⟩), ?_⟩
    rintro k ⟨⟩
    refine ⟨?_, ?_⟩
    · rintro _ _ _ _ ⟨⟩
      exact ⟨rfl, rfl⟩
    · rintro _ ⟨⟩
      exact ⟨_, rfl⟩

theorem handler_uploading (request : Request) :
    (handler P config request).Obeys (machine P) (uploading request) (fun _ _ => True) s := by
  cases uploads : request.uploads with
  | false =>
    refine Program.AllCalls.obeys (handler_sited request uploads) ?_ s
    refine fun _ sited _ _ _ _ _ => ⟨fun _ => sited, fun taskId member => ?_⟩
    cases request <;> first | cases member | cases uploads
  | true =>
    cases request with
    | uploadArtifact k role upload principal =>
      by_cases model : role = "model"
      case neg =>
        refine Program.AllCalls.obeys (P := fun _ => True) (Program.AllCalls.always (fun _ => trivial) _) ?_ s
        refine fun _ _ _ _ _ _ _ => ⟨(by rintro ⟨⟩), fun taskId member => ?_⟩
        rw [Request.models, if_neg model] at member
        cases member
      subst model
      unfold handler Route.uploadArtifact Route.requireTaskWorkerPrincipal Route.requireWorkerPrincipal
      simp only [Program.bind_assoc]
      refine obeys_read (fun _ _ => rfl) fun s₁ _ _ _ => ?_
      cases s₁.live.tasks.get k with
      | none => exact ⟨uploading_gives rfl rfl, trivial⟩
      | some row =>
        dsimp only
        cases row.workerId with
        | none => exact ⟨uploading_gives rfl rfl, trivial⟩
        | some owner =>
          refine ⟨uploading_gives rfl rfl, ?_⟩
          simp only [Program.bind_assoc]
          refine obeys_read (fun _ _ => rfl) fun s₂ _ _ _ => ?_
          obtain ⟨waits, obeys⟩ := stored_uploading (P := P) (s := s₂) k row upload
          cases s₂.live.workers.get owner with
          | none => exact ⟨uploading_gives rfl rfl, trivial⟩
          | some worker =>
            dsimp only
            split
            · exact ⟨uploading_gives waits rfl, obeys⟩
            · split
              · exact ⟨uploading_gives rfl rfl, trivial⟩
              · exact ⟨uploading_gives waits rfl, obeys⟩
    | _ => cases uploads

end

/-! ## Threads -/

theorem uploading_rules (P : Platform) (config : ServerConfig) :
    System.Cooperates (server P config) (server P config).Lawful uploading (fun _ _ _ => True) fun _ => True where
  shared _ _ _ := trivial
  trans _ _ _ _ _ _ _ := trivial
  same _ _ _ _ := trivial
  spawned _ request _ _ := handler_uploading request
  allowed _ _ _ _ c _ found lawful _ := ⟨lawful c (waiting_of found), trivial⟩
  keeps _ _ _ _ _ _ _ _ _ _ := trivial
  relied _ _ _ _ _ _ _ _ _ _ _ _ _ _ := ⟨fun _ _ _ => trivial, fun _ _ => trivial⟩
  recovers _ _ _ := trivial

section
variable {j : Nat}

theorem upload_iff : p.upload j = some (taskId, x) ↔
    ∃ th, p.threads[j]? = some th ∧ th.request.models = some taskId ∧ uploaded th.program = some x := by
  simp only [ServerPool.upload, Option.bind_eq_some_iff, Option.map_eq_some_iff, Prod.mk.injEq]
  constructor
  · rintro ⟨th, found, k, models, y, answered, rfl, rfl⟩
    exact ⟨th, found, models, answered⟩
  · rintro ⟨th, found, models, answered⟩
    exact ⟨th, found, taskId, models, x, answered, rfl, rfl⟩

/-- A turn of a thread leaves the requests. -/
theorem requestAt_sched {i : Nat} (stepped : (server P config).take p (.sched i io) = some q) :
    q.requestAt j = p.requestAt j := by
  obtain ⟨request, c, next, found, rfl⟩ := System.sched_cases stepped
  simp only [ServerPool.requestAt]
  by_cases here : j = i
  · subst here
    rw [List.getElem?_set_self (List.getElem?_eq_some_iff.mp found).1, found]
    rfl
  · rw [List.getElem?_set_ne (Ne.symm here)]

theorem requestAt_spawn (stepped : (server P config).take p (.spawn request) = some q) :
    q.requestAt j = if j = p.threads.length then some request else p.requestAt j := by
  cases Option.some.inj stepped
  simp only [ServerPool.requestAt]
  split
  · rename_i here
    rw [here, List.getElem?_concat_length]
    rfl
  · rename_i other
    by_cases bound : j < p.threads.length
    · rw [List.getElem?_append_left bound]
    · rw [List.getElem?_eq_none (by simp; omega), List.getElem?_eq_none (by omega)]

/-- A new thread has uploaded nothing. -/
theorem upload_spawn (stepped : (server P config).take p (.spawn request) = some q)
    (done : q.upload j = some (taskId, x)) : p.upload j = some (taskId, x) := by
  obtain ⟨th, place, models, answered⟩ := upload_iff.mp done
  cases Option.some.inj stepped
  by_cases bound : j < p.threads.length
  · rw [List.getElem?_append_left bound] at place
    exact upload_iff.mpr ⟨th, place, models, answered⟩
  · rw [List.getElem?_append_right (Nat.le_of_not_lt bound)] at place
    obtain rfl := List.mem_singleton.mp (List.mem_of_getElem? place)
    cases request with
    | uploadArtifact => cases answered
    | _ => cases models

/-- What has been uploaded stays. -/
theorem upload_kept (ahead : l ≠ .restart) (stepped : (server P config).take p l = some q)
    (done : p.upload j = some (taskId, x)) : q.upload j = some (taskId, x) := by
  obtain ⟨th, found, models, answered⟩ := upload_iff.mp done
  refine upload_iff.mpr ⟨th, ?_, models, answered⟩
  cases l with
  | restart => exact absurd rfl ahead
  | spawn request =>
    cases Option.some.inj stepped
    rwa [List.getElem?_append_left (List.getElem?_eq_some_iff.mp found).1]
  | sched i io =>
    obtain ⟨request, c, next, waits, rfl⟩ := System.sched_cases stepped
    by_cases here : j = i
    · subst here
      cases found.symm.trans waits
      cases answered
    · rwa [List.getElem?_set_ne (Ne.symm here)]

theorem requestAt_bound {r : Request} (found : p.requestAt j = some r) : j < p.threads.length := by
  obtain ⟨th, place, _⟩ := Option.map_eq_some_iff.mp found
  exact (List.getElem?_eq_some_iff.mp place).1

theorem Leased.grows {a : Nat} (leased : Leased P past taskId a) {t : System.Taken Request Call Call.Ret Fault
    Reply (Session Db) Io} : Leased P (t :: past) taskId a := by
  obtain ⟨m, member, lease⟩ := leased
  exact ⟨m, made_grows _ member, lease⟩

/-- Each upload of a model in the pool is for a leased attempt and the only one for it, and
each report of success names one that was answered. -/
structure Attributed (P : Platform) (attempts : Nat → Nat) (past : ServerPast) (p : ServerPool) : Prop where
  leased : ∀ j request taskId, p.requestAt j = some request → request.models = some taskId →
    Leased P past taskId (attempts j)
  once : ∀ i j r r' taskId, p.requestAt i = some r → p.requestAt j = some r' → r.models = some taskId →
    r'.models = some taskId → attempts i = attempts j → i = j
  roles : ∀ j taskId role upload principal,
    p.requestAt j = some (.uploadArtifact taskId role upload principal) → role ≠ "best_model"
  reported : ∀ i a taskId result w principal, p.requestAt i = some (.completeTask a taskId result w principal) →
    ∃ j x, p.upload j = some (taskId, x) ∧ attempts j = a ∧ result.model = some x

theorem Attributed.sched {i : Nat} (attributed : Attributed P attempts past p)
    (stepped : (server P config).take p (.sched i io) = some q) :
    Attributed P attempts (⟨p, .sched i io⟩ :: past) q where
  leased j request taskId at_ models :=
    (attributed.leased j request taskId (requestAt_sched stepped ▸ at_) models).grows
  once i j r r' taskId first second :=
    attributed.once i j r r' taskId (requestAt_sched stepped ▸ first) (requestAt_sched stepped ▸ second)
  roles j taskId role upload principal at_ :=
    attributed.roles j taskId role upload principal (requestAt_sched stepped ▸ at_)
  reported i a taskId result w principal at_ := by
    obtain ⟨j, x, done, same, model⟩ :=
      attributed.reported i a taskId result w principal (requestAt_sched stepped ▸ at_)
    exact ⟨j, x, upload_kept (by rintro ⟨⟩) stepped done, same, model⟩

/-- A new upload of a model is for an attempt no other upload is for. -/
theorem diligent_models (diligent : Diligent P attempts past p (.spawn request)) (models : request.models = some taskId) :
    Leased P past taskId (attempts p.threads.length) ∧ ∀ j r, p.requestAt j = some r →
      r.models = some taskId → attempts j ≠ attempts p.threads.length := by
  cases request with
  | uploadArtifact k role upload principal =>
    simp only [Request.models, Option.ite_none_right_eq_some, Option.some.injEq] at models
    obtain ⟨rfl, rfl⟩ := models
    obtain ⟨leased, others⟩ := diligent.2.2 rfl
    exact ⟨leased, fun j r at_ same => others j (requestAt_bound at_) r at_ same⟩
  | _ => cases models

theorem Attributed.spawn (attributed : Attributed P attempts past p)
    (diligent : Diligent P attempts past p (.spawn request))
    (stepped : (server P config).take p (.spawn request) = some q) :
    Attributed P attempts (⟨p, .spawn request⟩ :: past) q := by
  have cases_at {j r} (at_ : q.requestAt j = some r) :
      j = p.threads.length ∧ r = request ∨ p.requestAt j = some r := by
    rw [requestAt_spawn stepped] at at_
    split at at_
    · rename_i here
      exact .inl ⟨here, (Option.some.inj at_).symm⟩
    · exact .inr at_
  refine ⟨fun j r taskId at_ models => ?_, fun i j r r' taskId first second models models' same => ?_,
    fun j taskId role upload principal at_ => ?_, fun i a taskId result w principal at_ => ?_⟩
  · rcases cases_at at_ with ⟨rfl, rfl⟩ | old
    · exact (diligent_models diligent models).1.grows
    · exact (attributed.leased j r taskId old models).grows
  · rcases cases_at first with ⟨rfl, rfl⟩ | old
    · rcases cases_at second with ⟨rfl, rfl⟩ | old'
      · rfl
      · exact absurd same.symm ((diligent_models diligent models).2 j r' old' models')
    · rcases cases_at second with ⟨rfl, rfl⟩ | old'
      · exact absurd same ((diligent_models diligent models').2 i r old models)
      · exact attributed.once i j r r' taskId old old' models models' same
  · rcases cases_at at_ with ⟨rfl, rfl⟩ | old
    · exact diligent.2.1
    · exact attributed.roles j taskId role upload principal old
  · rcases cases_at at_ with ⟨rfl, rfl⟩ | old
    · obtain ⟨j, _, ⟨k, x⟩, done, rfl, same, model⟩ := diligent.2
      exact ⟨j, x, upload_kept (by rintro ⟨⟩) stepped done, same, model⟩
    · obtain ⟨j, x, done, same, model⟩ := attributed.reported i a taskId result w principal old
      exact ⟨j, x, upload_kept (by rintro ⟨⟩) stepped done, same, model⟩

/-! ## Models of tasks -/

/-- A task that goes on under an attempt leased before went on under it. -/
theorem exec_going {r' : TaskRow} (found' : (op.after P io s).live.tasks.get taskId = some r') (going : r'.Going)
    (bound : r'.attempt ≤ s.live.attempts taskId) :
    ∃ r, s.live.tasks.get taskId = some r ∧ r.attempt = r'.attempt ∧ r.Going := by
  rcases going with inFlight | succeeded
  · cases exec_held found' inFlight with
    | @kept r found inFlight _ attempt => exact ⟨r, found, attempt.symm, .inl inFlight⟩
    | @renewed r _ _ _ _ _ found inFlight _ same => exact ⟨r, found, by rw [same], .inl inFlight⟩
    | @granted w ttl row payload leases registered ran here attempt =>
      obtain ⟨next, _⟩ := leased_attempts (P := P) (m := ⟨0, ⟨.route, op⟩, io, s⟩)
        (CallMade.leased_iff.mpr ⟨ttl, payload, leases, ran, here, attempt⟩)
      dsimp only at next
      omega
  · rcases exec_completed found' succeeded with before | ⟨w, result, r, _, found, _, running, rfl⟩
    · exact ⟨r', before, rfl, .inr succeeded⟩
    · exact ⟨r, found, rfl, .inl (by rw [running]; rfl)⟩

/-- The model uploaded for its current attempt is linked to a task that goes on, and a task
that has succeeded stores that of its attempt. -/
structure Modelled (attempts : Nat → Nat) (p : ServerPool) : Prop where
  current : ∀ j taskId x r, p.upload j = some (taskId, x) → p.store.live.tasks.get taskId = some r →
    r.attempt = attempts j → r.Going → p.store.live.model r.jobId taskId = some x
  succeeded : ∀ taskId r, p.store.live.tasks.get taskId = some r → r.status = .succeeded →
    ∃ result j x, r.result = some result ∧ result.model = some x ∧
      p.upload j = some (taskId, x) ∧ attempts j = r.attempt

section
variable {i : Nat} {c : Call} {next : Call.Ret c → Prog Reply}

theorem makes_link {k : Option TaskId} {role : String} (makes : request.makes config c.op)
    (links : c.op = .linkJobArtifact jobId k role x) :
    (∃ taskId upload principal, request = .uploadArtifact taskId role upload principal ∧ k = some taskId) ∨
      request.uploads = false ∧ role = "best_model" := by
  rw [links] at makes
  rcases makes with common | writes | ⟨finalizes, _, final⟩
  · contradiction
  · cases request with
    | uploadArtifact taskId role' upload principal =>
      obtain ⟨rfl, rfl⟩ := writes
      exact .inl ⟨taskId, upload, principal, rfl, rfl⟩
    | _ => contradiction
  · refine .inr ⟨?_, final.2⟩
    cases request <;> first | rfl | contradiction

theorem makes_model {k : Option TaskId} (makes : request.makes config c.op)
    (links : c.op = .linkJobArtifact jobId k "model" x) : ∃ taskId, k = some taskId ∧ request.models = some taskId := by
  rcases makes_link makes links with ⟨taskId, upload, principal, rfl, rfl⟩ | ⟨_, other⟩
  · exact ⟨taskId, rfl, rfl⟩
  · contradiction

/-- A turn that overwrites nothing is careful. -/
theorem careful_of (attributed : Attributed P attempts past p) (modelled : Modelled attempts p)
    (waits : p.threads[i]? = some ⟨request, .call c next⟩) (makes : request.makes config c.op)
    (sited : request.uploads = false → Sited c) (kept : ¬Overwriting attempts p (.sched i io)) :
    Careful p.store.live c := by
  intro outside jobId taskId role x links
  rcases makes_link makes links with ⟨k, upload, principal, rfl, same⟩ | ⟨other, _⟩
  · cases same
    have at_ : p.requestAt i = some (.uploadArtifact taskId role upload principal) := by
      rw [ServerPool.requestAt, waits, Option.map_some]
    refine ⟨attributed.roles i taskId role upload principal at_, ?_⟩
    rintro rfl r found succeeded
    obtain ⟨result, j, y, _, _, done, same⟩ := modelled.succeeded taskId r found succeeded
    obtain ⟨th, place, _⟩ := upload_iff.mp done
    refine absurd ⟨c, waiting_of waits, taskId, ?_, r, found, .inr succeeded, j,
      (List.getElem?_eq_some_iff.mp place).1, (taskId, y), done, rfl, same⟩ kept
    rw [links]
    rfl
  · rw [sited other jobId (some taskId) role x links] at outside
    cases outside

/-- What is uploaded by a turn is linked by it. -/
theorem upload_origin (answers : System.AllObey (server P config) uploading (fun _ _ _ => True) p)
    (lawful : (server P config).Lawful p (.sched i io))
    (stepped : (server P config).take p (.sched i io) = some q) (done : q.upload j = some (taskId, x)) :
    p.upload j = some (taskId, x) ∨
      j = i ∧ ∃ c jobId, p.waiting i = some c ∧ c.op = .linkJobArtifact jobId (some taskId) "model" x := by
  obtain ⟨request, c, next, found, rfl⟩ := System.sched_cases stepped
  obtain ⟨th, place, models, answered⟩ := upload_iff.mp done
  by_cases here : j = i
  · subst here
    rw [List.getElem?_set_self (List.getElem?_eq_some_iff.mp found).1] at place
    cases Option.some.inj place
    obtain ⟨_, answer⟩ := ((uploading_rules P config).given trivial answers found lawful).1
    obtain ⟨jobId, links⟩ := (answer taskId models).2 x answered
    exact .inr ⟨rfl, c, jobId, waiting_of found, links⟩
  · rw [List.getElem?_set_ne (Ne.symm here)] at place
    exact .inl (upload_iff.mpr ⟨th, place, models, answered⟩)

/-- The part of the invariant about threads and links. -/
structure Modelling (P : Platform) (config : ServerConfig) (attempts : Nat → Nat) (past : ServerPast)
    (p : ServerPool) : Prop where
  attributed : Attributed P attempts past p
  modelled : Modelled attempts p
  linked : Linked p.store
  links : System.AllObey (server P config) (fun _ => linking Reply) (fun _ _ _ => True) p
  answers : System.AllObey (server P config) uploading (fun _ _ _ => True) p

theorem Modelling.filing (modelling : Modelling P config attempts past p) (recorded : Recorded P config past p)
    (lawful : (server P config).Lawful p l) (kept : ¬Overwriting attempts p l) : Filing P config p l := by
  refine ⟨lawful, ?_⟩
  rintro i io c rfl waits
  unfold Pool.waiting at waits
  split at waits
  · rename_i request c' next found
    cases waits
    have sited := ((uploading_rules P config).given trivial modelling.answers found lawful).1.1
    exact careful_of modelling.attributed modelling.modelled found ((recorded_requesting recorded).made found)
      sited kept
  · contradiction

theorem Modelling.current (modelling : Modelling P config attempts past p)
    (recorded : Recorded P config past p) (lawful : (server P config).Lawful p (.sched i io))
    (kept : ¬Overwriting attempts p (.sched i io)) (stepped : (server P config).take p (.sched i io) = some q)
    {r' : TaskRow} (done' : q.upload j = some (taskId, x)) (found' : q.store.live.tasks.get taskId = some r')
    (same : r'.attempt = attempts j) (going' : r'.Going) : q.store.live.model r'.jobId taskId = some x := by
  have filing := modelling.filing recorded lawful kept
  obtain ⟨th, place, models, _⟩ := upload_iff.mp done'
  have at_ : p.requestAt j = some th.request := by
    rw [← requestAt_sched stepped, ServerPool.requestAt, place, Option.map_some]
  obtain ⟨m, made, ⟨w, _⟩, leased, rfl⟩ := modelling.attributed.leased j th.request taskId at_ models
  have bound := ((recorded_accounted recorded).numbered.bound m made w taskId _ leased).2
  have origin := upload_origin modelling.answers lawful stepped done'
  obtain ⟨request, c, next, waits, rfl⟩ := System.sched_cases stepped
  have placed := ((linking_rules P config).given modelling.linked modelling.links waits filing).1
  have filed := exec_filed (P := P) (lawful c (waiting_of waits)) modelling.linked.sound placed
    (filing.2 i io c rfl (waiting_of waits))
  obtain ⟨r, found, attempt, going⟩ := exec_going found' going' (same ▸ bound)
  obtain ⟨r'', found'', job, _⟩ := filed.evolves.task taskId r found
  cases found'.symm.trans found''
  rcases origin with done | ⟨rfl, c', jobId, waits', links⟩
  · have before := modelling.modelled.current j taskId x r done found (attempt.trans same) going
    rw [job]
    rcases exec_model (P := P) io placed.clears r.jobId taskId with unchanged | ⟨k, y, links, at_, _⟩
    · exact unchanged.trans before
    · obtain ⟨k, rfl, _⟩ := makes_model ((recorded_requesting recorded).made waits) links
      obtain rfl : k = taskId := at_
      refine absurd ⟨c, waiting_of waits, k, ?_, r, found, going, j, requestAt_bound at_, (k, x), done, rfl,
        (attempt.trans same).symm⟩ kept
      rw [links]
      rfl
  · cases waits'.symm.trans (waiting_of waits)
    obtain ⟨_, here, ⟨r₀, found₀, owner⟩, _⟩ := placed.joins _ _ _ _ links
    cases here
    cases found.symm.trans found₀
    change (c.op.after P io p.store).live.model r'.jobId taskId = some x
    rw [job, owner, links]
    change ((p.store.live.jobArtifacts.replace ⟨jobId, taskId, "model", x⟩).get (jobId, taskId, "model")).map _ = _
    rw [Table.get_replace]
    split
    · rfl
    · rename_i other
      exact absurd rfl other

theorem Modelling.succeeded (modelling : Modelling P config attempts past p) (run : ReportsRecorded P config past p)
    (lawful : (server P config).Lawful p (.sched i io)) (current : ¬Superseded P past p (.sched i io))
    (stepped : (server P config).take p (.sched i io) = some q) {r' : TaskRow}
    (found' : q.store.live.tasks.get taskId = some r') (succeeded : r'.status = .succeeded) :
    ∃ result j x, r'.result = some result ∧ result.model = some x ∧
      q.upload j = some (taskId, x) ∧ attempts j = r'.attempt := by
  have kept {j y} (done : p.upload j = some (taskId, y)) : q.upload j = some (taskId, y) :=
    upload_kept (by rintro ⟨⟩) stepped done
  obtain ⟨request, c, next, waits, rfl⟩ := System.sched_cases stepped
  rcases exec_completed found' succeeded with before | ⟨w, result, r, calls, found, owned, running, rfl⟩
  · obtain ⟨result, j, x, stored, model, done, same⟩ := modelling.modelled.succeeded taskId r' before succeeded
    exact ⟨result, j, x, stored, model, kept done, same⟩
  · have makes := (recorded_requesting (reports_recorded run)).made waits
    have accepted : c.op.accepted P p.store.live = true := by
      simp [calls, DbOp.accepted, found, owned, running]
    rw [calls] at makes
    rcases makes with common | writes | ⟨_, _, final⟩
    · contradiction
    · cases request with
      | completeTask a k sent v principal =>
        have carries := (recorded_reporting run).carries lawful waits rfl
        obtain ⟨r₀, found₀, rfl⟩ := accepted_current run waits rfl carries accepted current
        rw [calls] at carries
        obtain ⟨rfl, _⟩ := carries
        cases found.symm.trans found₀
        obtain ⟨_, row, _, rfl⟩ := writes
        have at_ : p.requestAt i = some (.completeTask r.attempt taskId sent v principal) := by
          rw [ServerPool.requestAt, waits, Option.map_some]
        obtain ⟨j, x, done, same, model⟩ := modelling.attributed.reported i r.attempt taskId sent v principal at_
        exact ⟨_, j, x, rfl, model, kept done, same⟩
      | _ => contradiction
    · contradiction

theorem Modelling.step (modelling : Modelling P config attempts past p) (run : ReportsRecorded P config past p)
    (lawful : (server P config).Lawful p l) (diligent : Diligent P attempts past p l)
    (current : ¬Superseded P past p l) (kept : ¬Overwriting attempts p l)
    (stepped : (server P config).take p l = some q) : Modelling P config attempts (⟨p, l⟩ :: past) q := by
  have recorded := reports_recorded run
  have filing := modelling.filing recorded lawful kept
  obtain ⟨linked, links⟩ := (linking_rules P config).step modelling.linked modelling.links filing stepped
  have answers := ((uploading_rules P config).step trivial modelling.answers lawful stepped).2
  cases l with
  | restart => exact diligent.elim
  | sched i io =>
    refine ⟨modelling.attributed.sched stepped, ⟨?_, ?_⟩, linked, links, answers⟩
    · exact fun _ _ _ _ done found same going => modelling.current recorded lawful kept stepped done found same going
    · exact fun _ _ found succeeded => modelling.succeeded run lawful current stepped found succeeded
  | spawn request =>
    have same : q.store = p.store := by cases Option.some.inj stepped; rfl
    refine ⟨modelling.attributed.spawn diligent stepped, ⟨fun j taskId x r done found => ?_, fun taskId r found succeeded => ?_⟩,
      linked, links, answers⟩
    · rw [same] at found ⊢
      exact modelling.modelled.current j taskId x r (upload_spawn stepped done) found
    · rw [same] at found
      obtain ⟨result, j, x, stored, model, done, attempt⟩ := modelling.modelled.succeeded taskId r found succeeded
      exact ⟨result, j, x, stored, model, upload_kept (by rintro ⟨⟩) stepped done, attempt⟩

end

end

/-! ## The model of the best task -/

/-- The aggregate of a job names the model that the stored result of its best task names. -/
def ModelsReported (P : Platform) (s : Session Db) : Prop :=
  ∀ site jobId agg best artifact t,
    (buildAggregate P site jobId).Runs (machine P) s (.ok (agg, best, artifact)) t →
    ∀ taskId, agg.bestTaskId = some taskId → ∃ r result, s.live.tasks.get taskId = some r ∧
      r.result = some result ∧ agg.bestModelArtifactId = result.model

theorem uploads_recorded (run : UploadsRecorded P config attempts past p) : ReportsRecorded P config past p := by
  refine run.mono fun past p l allowed => ⟨allowed.1, ?_⟩
  cases l with
  | spawn request => exact allowed.2.1
  | sched | restart => trivial

theorem recorded_modelling (run : UploadsRecorded P config attempts past p) (current : Current P past)
    (kept : ∀ t ∈ past, ¬Overwriting attempts t.pool t.label) : Modelling P config attempts past p := by
  induction run with
  | start =>
    refine ⟨⟨?_, ?_, ?_, ?_⟩, ⟨?_, ?_⟩, started_linked, fun _ member => absurd member List.not_mem_nil,
      fun _ member => absurd member List.not_mem_nil⟩
    · rintro _ _ _ ⟨⟩
    · rintro _ _ _ _ _ ⟨⟩
    · rintro _ _ _ _ _ ⟨⟩
    · rintro _ _ _ _ _ _ ⟨⟩
    · rintro _ _ _ _ ⟨⟩
    · rintro _ _ ⟨⟩
  | next before allowed stepped ih =>
    exact (ih current.2 fun t old => kept t (List.mem_cons_of_mem _ old)).step (uploads_recorded before) allowed.1
      allowed.2 current.1 (kept _ List.mem_cons_self) stepped

/-- However leases, reapings, uploads and reports interleave, the aggregate names the model
that the best task's result names, if no report is superseded and no model of a task's
current attempt is overwritten. -/
theorem models_reported (run : UploadsRecorded P config attempts past p) (current : Current P past)
    (kept : ∀ t ∈ past, ¬Overwriting attempts t.pool t.label) : ModelsReported P p.store := by
  have modelling := recorded_modelling run current kept
  intro site jobId agg best artifact t built taskId picked
  obtain ⟨row, seen, found, aggregated, rfl, same, rfl, model⟩ := buildAggregate_picks modelling.linked built
  have ranked : seen.bestTaskId = some taskId := same.symm.trans picked
  obtain rfl : row.id = jobId := Table.get_key found
  obtain ⟨r, held, job, succeeded⟩ := aggregate_best aggregated ranked
  obtain ⟨result, j, x, stored, reported, done, attempt⟩ := modelling.modelled.succeeded taskId r held succeeded
  have linked := modelling.modelled.current j taskId x r done held attempt.symm (.inr succeeded)
  refine ⟨r, result, held, stored, ?_⟩
  rw [model (by rw [ranked]; rfl), ranked, Option.bind_some, ← job, linked, reported]

def modelFile : NewArtifact := { sha256 := "", kind := "blob", path := "model", sizeBytes := 1 }

/-- A result with a metric and a model. -/
def modelResult (x : ArtifactId) : TaskResult :=
  { metrics := { bestRmse := some (.fin 1) }, artifacts := [("model", some x)] }

/-- The worker uploads its model and reports it. -/
def uploadedTurns : List Turn :=
  runningTurns ++ [.spawn (.uploadArtifact "task_1" "model" (some modelFile) {})] ++ turns 4 4 5 ++
  [.spawn (.completeTask 1 "task_1" (modelResult "art_0") "worker_0" {})] ++ turns 5 4 6

theorem models_reported_uploaded : ∃ past p r, UploadsRecorded .plain {} (fun _ => 1) past p ∧
    p.store.live.tasks.get "task_1" = some r ∧ r.status = .succeeded ∧ ModelsReported .plain p.store := by
  have recorded : ((server .plain {}).record
      (fun past p l => (server .plain {}).Lawful p l ∧ Diligent .plain (fun _ => 1) past p l) uploadedTurns []
      started).any (fun out => decide (Current .plain out.1) &&
        (decide (∀ t ∈ out.1, ¬Overwriting (fun _ => 1) t.pool t.label) &&
        (out.2.store.live.tasks.get "task_1").any fun r => decide (r.status = .succeeded))) = true := by
    decide +kernel
  obtain ⟨past, p, run, facts⟩ := System.record_any recorded
  obtain ⟨current, facts⟩ := Bool.and_eq_true_iff.mp facts
  obtain ⟨kept, facts⟩ := Bool.and_eq_true_iff.mp facts
  obtain ⟨r, found, succeeded⟩ := (Option.any_eq_true _ _).mp facts
  exact ⟨past, p, r, run, found, of_decide_eq_true succeeded,
    models_reported run (of_decide_eq_true current) (of_decide_eq_true kept)⟩

def otherTurn (i : Nat) (now : Time) : Turn := .sched i { now := now, uuid := fun _ => "1" }

/-- A worker's upload is checked and its file is being stored when the worker falls silent; its
task is leased to another worker, which uploads its model and reports it. -/
def lateTurns : List Turn :=
  runningTurns ++ [.spawn (.uploadArtifact "task_1" "model" (some modelFile) {})] ++ turns 4 2 5 ++
  [.spawn (.reaperTick .insertion)] ++ turns 5 3 100 ++
  [.spawn (.registerWorker equipped { name := "other" }), otherTurn 6 101] ++ turns 6 1 101 ++
  [.spawn (.lease "worker_1" { name := "other" })] ++ turns 7 3 102 ++
  [.spawn (.startTask "task_1" "worker_1" { name := "other" })] ++ turns 8 3 103 ++
  [.spawn (.uploadArtifact "task_1" "model" (some modelFile) { name := "other" })] ++ turns 9 2 104 ++
  [otherTurn 9 104] ++ turns 9 1 104 ++
  [.spawn (.completeTask 2 "task_1" (modelResult "art_1") "worker_1" { name := "other" })] ++ turns 10 4 105

instance decidableValid (io : Io) (c : Call) (s : Session Db) : Decidable ((machine P).valid io c s) :=
  inferInstanceAs (Decidable (Fresh io s.live c.op))

/-- The aggregate of the job, and the model that its best task's result names. -/
def bestModels (s : Session Db) : Option (Option ArtifactId × Option ArtifactId) :=
  match (buildAggregate .plain .view "job_0").serve (machine .plain) { now := 0 } s with
  | some (.ok (agg, _, _), _) => agg.bestTaskId.bind fun taskId => (s.live.tasks.get taskId).bind fun r =>
      r.result.map fun result => (agg.bestModelArtifactId, result.model)
  | _ => none

theorem ModelsReported.agree {x y : Option ArtifactId} (reported : ModelsReported .plain s)
    (names : bestModels s = some (x, y)) : x = y := by
  unfold bestModels at names
  split at names
  · rename_i agg best artifact t served
    obtain ⟨taskId, picked, names⟩ := Option.bind_eq_some_iff.mp names
    obtain ⟨r, found, names⟩ := Option.bind_eq_some_iff.mp names
    obtain ⟨result, stored, names⟩ := Option.map_eq_some_iff.mp names
    obtain ⟨r', result', found', stored', same⟩ :=
      reported .view "job_0" agg best artifact t (Program.serve_runs served) taskId picked
    cases found.symm.trans found'
    cases stored.symm.trans stored'
    cases names
    exact same
  · cases names

/-- Then the first file is stored, and is added and linked over the model that was reported. -/
theorem reported_model_overwritten : ¬∀ attempts past p, UploadsRecorded .plain {} attempts past p →
    ModelsReported .plain p.store := by
  intro reports
  have recorded : ((server .plain {}).record (fun past p l => (server .plain {}).Lawful p l ∧
      Diligent .plain (fun j => if j = 9 then 2 else 1) past p l) (lateTurns ++ turns 4 2 106) [] started).any
      (fun out => decide (bestModels out.2.store = some (some "art_0", some "art_1"))) = true := by decide +kernel
  obtain ⟨past, p, run, facts⟩ := System.record_any recorded
  exact absurd ((reports _ past p run).agree (of_decide_eq_true facts)) (by decide)

end N4Cluster
