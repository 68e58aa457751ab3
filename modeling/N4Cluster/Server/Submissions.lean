import N4Cluster.Server.Leases
import N4Cluster.Server.Outcomes
import N4Cluster.Wire.Depths
import Mathlib.Data.List.ProdSigma

/-! What a submission leaves in the store: a job whose request reads back if all its
floats are finite and it is not nested too deep, and one task for each pair of a pipeline and a dataset, whose stored
payload never changes and is what every lease of the task delivers. -/
namespace N4Cluster
open Relational Transactional Relation Interleave

variable {P : Platform} {config : ServerConfig} {p q : ServerPool} {past : ServerPast}

/-! ## What a task keeps -/

/-- The columns of a task row that no statement updates. -/
def TaskRow.origin (r : TaskRow) : TaskId × JobId × PayloadJson := (r.id, r.jobId, r.payload)

/-- The tasks in insertion order. -/
def Db.origins (db : Db) : List (TaskId × JobId × PayloadJson) := db.tasks.rows.map TaskRow.origin

theorem TaskMove.origin {db : Db} {now : Time} {r r' : TaskRow} {op : DbOp} {o : Option WorkerId}
    (how : TaskMove db now r op r' o) : r'.origin = r.origin := by
  cases how with
  | lease | start | complete | stop | cancel => rfl
  | fail =>
    unfold TaskRow.fail
    split <;> rfl
  | resolve =>
    unfold TaskRow.resolve
    split
    · rfl
    · split <;> rfl

theorem Move.origins {io : Io} {op : DbOp} {db db' : Db} (creates : op.creates = false)
    (move : Move io op db db') : db'.origins = db.origins := by
  have same (tasks : db'.tasks = db.tasks) : db'.origins = db.origins := by
    rw [Db.origins, tasks]
    rfl
  cases move with
  | task touched how jobs workers =>
    rename_i r r' owner
    refine Table.map_congr touched.order fun k => ?_
    by_cases here : k = r.id
    · subst here
      rw [touched.now, touched.found, Option.map_some, Option.map_some, how.origin]
    · rw [touched.others k here]
  | renew how tasks jobs workers =>
    rw [Db.origins, tasks, Db.renewLeases]
    refine Table.map_congr (Table.updateWhere_order _ _ _ (by intro r; rfl)) fun k => ?_
    rw [Table.get_updateWhere]
    cases db.tasks.get k with
    | none => rfl
    | some r =>
      simp only [Option.map_some]
      split <;> rfl
  | newTask creating | newJob creating => cases creates.symm.trans creating
  | job how found legal moved => exact same (moved ▸ rfl)
  | result how put => exact same (put ▸ rfl)
  | newWorker _ _ tasks | workers _ _ _ tasks | other tasks => exact same tasks

theorem exec_origins (io : Io) {op : DbOp} {s : Session Db} (creates : op.creates = false) :
    (op.after P io s).live.origins = s.live.origins :=
  (exec_moves P io op s).rec rfl fun _ move same => (move.origins creates).trans same

/-! ## The tasks of a job -/

/-- The tasks of a job in insertion order. -/
def Db.jobTasks (db : Db) (jobId : JobId) : List TaskRow := db.tasks.rows.filter fun r => r.jobId = jobId

def Db.originsOf (db : Db) (jobId : JobId) : List (TaskId × JobId × PayloadJson) :=
  db.origins.filter fun o => o.2.1 = jobId

theorem originsOf_eq (db : Db) (jobId : JobId) :
    db.originsOf jobId = (db.jobTasks jobId).map TaskRow.origin := by
  rw [Db.originsOf, Db.origins, List.filter_map]
  rfl

/-- What `_insert_tasks` stores for a pair. -/
def JobRequest.payloadOf (req : JobRequest) (pair : PipelineRef × DatasetRef) : PayloadJson where
  type := jobType
  pipeline := pair.1
  dataset := pair.2
  params := req.params
  outputs := req.outputs
  scheduler := req.scheduler
  submission := req.submission
  nativePayload := req.nativePayload

theorem newTasks_payloads (io : Io) (req : JobRequest) (jobId : JobId)
    (pairs : List (PipelineRef × DatasetRef)) (n : Nat) :
    (newTasks io req jobId pairs n).map TaskRow.payload = pairs.map req.payloadOf := by
  induction pairs generalizing n with
  | nil => rfl
  | cons pair rest ih => exact congrArg (List.cons _) (ih (n + 1))

/-- The job is there, and its tasks are those of its submission. -/
structure Db.Decomposed (db : Db) (req : JobRequest) (jobId : JobId) (ids : List TaskId) : Prop where
  job : ∃ row, db.jobs.get jobId = some row ∧ row.request = req
  tasks : (db.originsOf jobId).map Prod.fst = ids
  payloads : (db.originsOf jobId).map (fun o => o.2.2) = req.pairs.map req.payloadOf

variable {req : JobRequest} {jobId : JobId} {ids : List TaskId}

theorem Db.Decomposed.kept {db db' : Db} (decomposed : db.Decomposed req jobId ids)
    (evolves : Evolves db db') (same : db'.originsOf jobId = db.originsOf jobId) :
    db'.Decomposed req jobId ids := by
  obtain ⟨row, found, request⟩ := decomposed.job
  obtain ⟨row', found', same', _⟩ := evolves.job jobId row found
  constructor
  · exact ⟨row', found', same'.trans request⟩
  · rw [same]
    exact decomposed.tasks
  · rw [same]
    exact decomposed.payloads

namespace Db.Created
variable {db db' : Db} {io : Io} {owner : Option String}

theorem originsOf (created : db.Created db' io req owner) (jobId : JobId) :
    db'.originsOf jobId = db.originsOf jobId ++
      if jobId = genId "job" (io.uuid 0) then
        (newTasks io req (genId "job" (io.uuid 0)) req.pairs 1).map TaskRow.origin else [] := by
  rw [Db.originsOf, Db.origins, created.tasks, List.map_append, List.filter_append]
  refine congrArg _ ?_
  split
  · rename_i same
    refine List.filter_eq_self.mpr fun o member => ?_
    obtain ⟨r, inside, rfl⟩ := List.mem_map.mp member
    exact decide_eq_true ((newTasks_fields inside).1.trans same.symm)
  · rename_i other
    refine List.filter_eq_nil_iff.mpr fun o member equal => ?_
    obtain ⟨r, inside, rfl⟩ := List.mem_map.mp member
    exact other ((of_decide_eq_true equal).symm.trans (newTasks_fields inside).1)

/-- No task had the identifier of a job that was not there. -/
theorem decomposed (created : db.Created db' io req owner) (good : db.Good) :
    db'.Decomposed req (genId "job" (io.uuid 0))
      ((newTasks io req (genId "job" (io.uuid 0)) req.pairs 1).map TaskRow.id) := by
  have unused : db.originsOf (genId "job" (io.uuid 0)) = [] := by
    refine List.filter_eq_nil_iff.mpr fun o member equal => ?_
    obtain ⟨r, inside, rfl⟩ := List.mem_map.mp member
    obtain ⟨row, linked⟩ := good.linked r.id r (Table.get_of_mem inside)
    have same : r.jobId = genId "job" (io.uuid 0) := of_decide_eq_true equal
    rw [same, created.fresh] at linked
    cases linked
  have made := created.originsOf (genId "job" (io.uuid 0))
  rw [unused, List.nil_append, if_pos rfl] at made
  constructor
  · exact ⟨_, (created.get_job _).trans (if_pos rfl), rfl⟩
  · rw [made, List.map_map]
    rfl
  · rw [made, List.map_map, ← newTasks_payloads io req (genId "job" (io.uuid 0)) req.pairs 1]
    rfl

end Db.Created

/-! ## Over runs -/

/-- The job and the tasks a call has created. -/
def CallMade.created (P : Platform) (m : CallMade) : Option (JobRequest × JobId × List TaskId) :=
  match m.call.op with
  | .createJobWithTasks req owner =>
    match (createJobWithTasks P m.io req owner m.store).1 with
    | .ok (jobId, ids) => some (req, jobId, ids)
    | .error _ => none
  | _ => none

theorem CallMade.created_iff {m : CallMade} : CallMade.created P m = some (req, jobId, ids) ↔
    ∃ owner, m.call.op = .createJobWithTasks req owner ∧
      (createJobWithTasks P m.io req owner m.store).1 = .ok (jobId, ids) := by
  obtain ⟨thread, ⟨site, op⟩, io, store⟩ := m
  constructor
  · intro created
    unfold CallMade.created at created
    split at created
    · rename_i req' owner same
      split at created
      · rename_i ran
        cases created
        exact ⟨owner, same, ran⟩
      · contradiction
    · contradiction
  · rintro ⟨owner, rfl, ran⟩
    simp only [CallMade.created, ran]

/-- Every submission's tasks are still there as it made them. -/
def SubmissionsKept (P : Platform) (past : ServerPast) (db : Db) : Prop :=
  ∀ m ∈ System.made past, ∀ req jobId ids, CallMade.created P m = some (req, jobId, ids) →
    db.Decomposed req jobId ids

theorem SubmissionsKept.call {m : CallMade} {prior : ServerPast}
    (kept : SubmissionsKept P prior m.store.live) (sound : Sound m.store)
    (routed : m.call.op.routed = true) (fresh : Fresh m.io m.store.live m.call.op)
    (calls : System.made past = m :: System.made prior) :
    SubmissionsKept P past (m.call.op.after P m.io m.store).live := by
  obtain ⟨thread, ⟨site, op⟩, io, s⟩ := m
  obtain ⟨_, evolves⟩ := exec_sound (P := P) routed fresh sound
  cases creates : op.creates with
  | false =>
    have same (jobId : JobId) : (op.after P io s).live.originsOf jobId = s.live.originsOf jobId :=
      congrArg _ (exec_origins io creates)
    intro m member req jobId ids created
    rw [calls] at member
    rcases List.mem_cons.mp member with rfl | before
    · obtain ⟨owner, rfl, _⟩ := CallMade.created_iff.mp created
      contradiction
    · exact (kept m before req jobId ids created).kept evolves (same jobId)
  | true =>
    cases op with
    | createJobWithTasks req owner =>
      rcases createJobWithTasks_cases (P := P) fresh with ⟨db, created, _, _, _, ran⟩ | ⟨_, ran⟩ | ⟨_, _, ran⟩
      · have after : ((DbOp.createJobWithTasks req owner).after P io s).live = db :=
          congrArg (fun out => out.2.live) ran
        rw [after]
        rw [after] at evolves
        intro m member req' jobId ids given
        rw [calls] at member
        rcases List.mem_cons.mp member with rfl | before
        · obtain ⟨_, same, answer⟩ := CallMade.created_iff.mp given
          cases same
          cases (congrArg Prod.fst ran).symm.trans answer
          exact created.decomposed sound.good
        · have old := kept m before req' jobId ids given
          obtain ⟨row, found, _⟩ := old.job
          have other : jobId ≠ genId "job" (io.uuid 0) := by
            rintro rfl
            exact nomatch created.fresh.symm.trans found
          refine old.kept evolves ?_
          rw [created.originsOf, if_neg other, List.append_nil]
      all_goals
        have after : ((DbOp.createJobWithTasks req owner).after P io s).live = s.live :=
          congrArg (fun out => out.2.live) ran
        rw [after]
        intro m member req' jobId ids given
        rw [calls] at member
        rcases List.mem_cons.mp member with rfl | before
        · obtain ⟨_, same, answer⟩ := CallMade.created_iff.mp given
          cases same
          cases (congrArg Prod.fst ran).symm.trans answer
        · exact kept m before req' jobId ids given
    | _ => contradiction

theorem recorded_kept (run : Recorded P config past p) : SubmissionsKept P past p.store.live := by
  induction run with
  | start => exact fun _ member => False.elim (List.not_mem_nil member)
  | @next past p l q before lawful stepped ih =>
    have keeping := recorded_keeping before
    rcases keeping.cases (lawful_allowed lawful) stepped with
      ⟨same, idle⟩ | ⟨i, io, request, c, next, rfl, waits, fresh, _, rfl, gives⟩
    · have calls : System.made (⟨p, l⟩ :: past) = System.made past := by
        cases l with
        | sched i io => exact False.elim (idle i io rfl)
        | spawn | restart => rfl
      rw [same, SubmissionsKept, calls]
      exact ih
    · exact ih.call (m := ⟨i, c, io, p.store⟩) keeping.1 gives.1.routed fresh
        (System.made_sched past io waits)

theorem recorded_makes (run : Recorded P config past p) :
    ∀ m ∈ System.made past, ∃ request : Request, request.makes config m.call.op := by
  induction run with
  | start => exact fun _ member => False.elim (List.not_mem_nil member)
  | @next past p l q before lawful stepped ih =>
    cases l with
    | spawn | restart => exact ih
    | sched i io =>
      obtain ⟨request, c, next, waits, rfl⟩ := System.sched_cases stepped
      intro m member
      rw [System.made_sched past io waits] at member
      rcases List.mem_cons.mp member with rfl | earlier
      · exact ⟨request, (recorded_requesting before).made waits⟩
      · exact ih m earlier

theorem makes_created {request : Request} {owner : Option String}
    (makes : request.makes config (.createJobWithTasks req owner)) :
    ∃ sent principal, req = Route.acceptedRequest sent principal := by
  rcases makes with common | writes | ⟨_, _, final⟩
  · contradiction
  · cases request with
    | submitJob sent principal => exact ⟨sent, principal, writes.1⟩
    | _ => contradiction
  · contradiction

/-- Whenever the row decodes, it gives the pair with the rest of the request. -/
def TaskRow.Delivers (req : JobRequest) (r : TaskRow) (pair : PipelineRef × DatasetRef) : Prop :=
  ∀ payload, payloadFromRow r = .ok payload → payload.taskId = r.id ∧ payload.jobId = r.jobId ∧
    (payload.pipeline, payload.dataset) = pair ∧ payload.type = jobType ∧
    payload.params = req.params ∧ payload.outputs = req.outputs ∧ payload.scheduler = req.scheduler ∧
    payload.submission = req.submission ∧ payload.nativePayload = req.nativePayload

theorem delivers {r : TaskRow} {pair : PipelineRef × DatasetRef} (stored : r.payload = req.payloadOf pair) :
    r.Delivers req pair := by
  intro payload read
  rw [payloadFromRow_eq] at read
  cases expires : r.leaseExpiresAt with
  | none =>
    rw [expires] at read
    contradiction
  | some time =>
    rw [expires] at read
    cases read
    simp [TaskRow.payloadAt, stored, JobRequest.payloadOf]

/-- The call leased nothing, or the row it committed is what it hands out. -/
def CallMade.Hands (P : Platform) (m : CallMade) : Prop :=
  ∀ w ttl, m.call.op = .leaseNextTask w ttl →
    (leaseNextTask P m.io w ttl m.store).2 = m.store ∨
    ∃ payload r, (leaseNextTask P m.io w ttl m.store).1 = .ok (some payload) ∧
      (leaseNextTask P m.io w ttl m.store).2.disk.tasks.get payload.taskId = some r ∧
      r.status = .leased ∧ payloadFromRow r = .ok payload

theorem hands (P : Platform) (m : CallMade) : m.Hands P := by
  intro w ttl _
  rcases leaseNextTask_cases (P := P) m.io m.store w ttl with
    ⟨_, task, payload, leasable, read, ran⟩ | ran | ⟨_, ran⟩
  · have touched := lease_touched leasable ttl m.io.now
    have id := (payload_fields read).1
    rw [ran]
    refine .inr ⟨payload, task.lease w ttl m.io.now, rfl, ?_, rfl, read⟩
    rw [id]
    exact touched.now
  all_goals exact .inl (congrArg Prod.snd ran)

/-- What holds of the submissions and leases of a run. -/
structure PayloadsKept (P : Platform) (past : ServerPast) (db : Db) : Prop where
  decomposed : ∀ m ∈ System.made past, ∀ req jobId ids, CallMade.created P m = some (req, jobId, ids) →
    (∃ sent principal, req = Route.acceptedRequest sent principal) ∧
    (db.jobTasks jobId).map TaskRow.id = ids ∧
    ids.length = req.pipelineList.length * req.datasetList.length ∧
    List.Forall₂ (TaskRow.Delivers req) (db.jobTasks jobId) (req.pipelineList ×ˢ req.datasetList)
  readable : ∀ taskId r, db.tasks.get taskId = some r → r.status.inFlight = true →
    ∃ payload, payloadFromRow r = .ok payload
  handed : ∀ m ∈ System.made past, CallMade.Hands P m

theorem payloads_kept (run : Recorded P config past p) : PayloadsKept P past p.store.live := by
  constructor
  · intro m member req jobId ids created
    obtain ⟨_, ids', payloads⟩ := recorded_kept run m member req jobId ids created
    rw [originsOf_eq, List.map_map] at ids' payloads
    have listed : (p.store.live.jobTasks jobId).map TaskRow.id = ids := ids'
    have stored : (p.store.live.jobTasks jobId).map TaskRow.payload = req.pairs.map req.payloadOf :=
      payloads
    have accepted : ∃ sent principal, req = Route.acceptedRequest sent principal := by
      obtain ⟨request, makes⟩ := recorded_makes run m member
      obtain ⟨owner, op, _⟩ := CallMade.created_iff.mp created
      exact makes_created (op ▸ makes)
    refine ⟨accepted, listed, ?_, ?_⟩
    · have number := congrArg List.length stored
      rw [List.length_map, List.length_map] at number
      rw [← listed, List.length_map, number]
      exact List.length_product ..
    · rw [← List.forall₂_eq_eq_eq, List.forall₂_map_left_iff, List.forall₂_map_right_iff] at stored
      exact stored.imp fun _ _ => delivers
  · intro taskId r found inFlight
    have lease := (((recorded_keeping run).1.good.sound taskId r found).lease inFlight).1
    obtain ⟨expires, lease⟩ := Option.isSome_iff_exists.mp lease
    exact ⟨_, (payloadFromRow_eq r).trans (by rw [lease])⟩
  · exact fun m _ => hands P m

theorem payloads_kept_matrix : ∃ past p, Recorded .plain {} past p ∧ PayloadsKept .plain past p.store.live ∧
    (p.store.live.jobTasks "job_0").map TaskRow.status = [.running, .running] := by
  have recorded : ((server .plain {}).record (fun _ => (server .plain {}).Lawful) bothRunningTurns []
      started).any (fun out => decide ((out.2.store.live.jobTasks "job_0").map TaskRow.status =
        [.running, .running])) = true := by decide +kernel
  obtain ⟨past, p, run, running⟩ := System.record_any recorded
  clear recorded
  exact ⟨past, p, run, payloads_kept run, of_decide_eq_true running⟩

/-! ## The stored request -/

theorem acceptedRequest_finite (req : JobRequest) (principal : Principal) :
    (Route.acceptedRequest req principal).finite = req.finite := by
  unfold Route.acceptedRequest Route.requireNirs4all
  split <;> rfl

theorem acceptedRequest_depth (req : JobRequest) (principal : Principal) :
    (Route.acceptedRequest req principal).depth = req.depth := by
  unfold Route.acceptedRequest Route.requireNirs4all
  split <;> rfl

/-- Whenever it is read, the stored text of an accepted request gives the attested one. -/
def RequestsReload (P : Platform) (nesting : Nat) (past : ServerPast) (db : Db) : Prop :=
  ∀ m ∈ System.made past, ∀ req principal jobId ids,
    CallMade.created P m = some (Route.acceptedRequest req principal, jobId, ids) →
    ∃ row, db.jobs.get jobId = some row ∧
      row.request.reload nesting = .ok (Route.acceptedRequest req principal)

/-- The arrays and objects that the JSON parser behind `model_validate_json` takes in one another. -/
def parserNesting : Nat := 199

/-- A submission alone. -/
def submissionTurns (req : JobRequest) : List Turn := [.spawn (.submitJob req {})] ++ turns 0 1 1

/-- What has been created, and whether its row satisfies a condition. -/
def createdRow (past : ServerPast) (p : ServerPool) (holds : JobRow → Bool) : Bool :=
  (System.made past).any fun m => (CallMade.created .plain m).any fun made =>
    (p.store.live.jobs.get made.2.1).any holds

theorem createdRow_elim {holds : JobRow → Bool} (run : Recorded .plain config past p)
    (created : createdRow past p holds = true) :
    ∃ m ∈ System.made past, ∃ req principal jobId ids,
      CallMade.created .plain m = some (Route.acceptedRequest req principal, jobId, ids) ∧
      ∃ row, p.store.live.jobs.get jobId = some row ∧ holds row = true := by
  obtain ⟨m, member, called⟩ := List.any_eq_true.mp created
  obtain ⟨⟨req', jobId, ids⟩, made, stored⟩ := (Option.any_eq_true _ _).mp called
  obtain ⟨row, found, holding⟩ := (Option.any_eq_true _ _).mp stored
  obtain ⟨request, makes⟩ := recorded_makes run m member
  obtain ⟨owner, op, _⟩ := CallMade.created_iff.mp made
  obtain ⟨sent, principal, rfl⟩ := makes_created (op ▸ makes)
  exact ⟨m, member, sent, principal, jobId, ids, made, row, found, holding⟩

/-- A tolerance that the route's decoder reads from `Infinity`. -/
def endlessTolerance : JobRequest :=
  { singleTask with parity := some { scope := .atomic, metricToleranceAbs := .posInf, toleranceBound := rfl } }

end N4Cluster
