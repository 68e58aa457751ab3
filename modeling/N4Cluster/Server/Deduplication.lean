import N4Cluster.Server.Ranking
import N4Cluster.Server.Submissions

/-! Submissions racing for their idempotency keys. A submission looks its key up, inserts
its job and looks the key up again if the insert lost; its own job, once made, is its ghost.
Whatever the order of the calls, jobs and keys go together, provided that no two submissions
carry the empty key, which the index counts and the two lookups skip. -/
namespace N4Cluster
open Relational Transactional Relation Interleave

variable {P : Platform} {config : ServerConfig} {p : ServerPool} {s t : Session Db} {req : JobRequest}
  {jobId : JobId} {mine : Option JobId}

/-! ## Jobs whose tasks all wait -/

theorem tallyTasks_unranked {tasks : List TaskRow}
    (unranked : ∀ row ∈ tasks, row.ranked = false) (tally : Tally) :
    tasks.foldlM (P.tallyTask req) tally =
      .ok { tally with agg := tasks.foldl JobAggregate.countTask tally.agg } := by
  induction tasks generalizing tally with
  | nil => rfl
  | cons row rest ih =>
    obtain ⟨first, others⟩ := List.forall_mem_cons.mp unranked
    rw [List.foldlM_cons, tallyTask_unranked first]
    exact ih others _

theorem tally_unranked (P : Platform) (req : JobRequest) {tasks : List TaskRow}
    (unranked : ∀ row ∈ tasks, row.ranked = false) :
    ∃ agg, P.tally req tasks = .ok agg ∧ agg.bestTaskId = none := by
  have folded := @tallyTasks_unranked P req tasks unranked { agg := { numTasks := tasks.length } }
  have sorted : P.sortRanking req [] = .ok [] := rfl
  exact ⟨_, tally_ok_iff.mpr ⟨_, folded, [], sorted, rfl⟩, rfl⟩

/-- Every task is queued, and every job's request reads back. -/
structure Db.Waiting (P : Platform) (db : Db) : Prop where
  queued : ∀ r ∈ db.tasks.rows, r.status = .queued
  reads : ∀ jobId row, db.jobs.get jobId = some row → ∃ loaded, P.reloadRequest row.request = .ok loaded

theorem Db.Waiting.tally {db : Db} (waiting : db.Waiting P) (req : JobRequest) (jobId : JobId) :
    ∃ agg, P.tally req (db.tasksOf jobId) = .ok agg ∧ agg.bestTaskId = none := by
  refine tally_unranked P req fun row member => ?_
  have queued := waiting.queued row (Table.mem_of_get (mem_tasksOf.mp member).1)
  simp [TaskRow.ranked, queued]

/-- The jobs that were there keep their rows. -/
def Db.Grows (db db' : Db) : Prop :=
  ∀ jobId row, db.jobs.get jobId = some row → db'.jobs.get jobId = some row

theorem Db.Grows.refl (db : Db) : db.Grows db := fun _ _ found => found

theorem Db.Grows.trans {a b c : Db} (first : a.Grows b) (second : b.Grows c) : a.Grows c :=
  fun jobId row found => second jobId row (first jobId row found)

theorem keyTaken_iff {db : Db} {key : String} : db.keyTaken (some key) = true ↔
    ∃ jobId row, db.jobs.get jobId = some row ∧ row.idempotencyKey = some key := by
  simp only [Db.keyTaken, List.any_eq_true, beq_iff_eq]
  constructor
  · rintro ⟨row, member, same⟩
    exact ⟨_, row, Table.get_of_mem member, same⟩
  · rintro ⟨jobId, row, found, same⟩
    exact ⟨row, Table.mem_of_get found, same⟩

theorem Db.Grows.keyTaken {db db' : Db} {key : Option String} (grows : db.Grows db')
    (taken : db.keyTaken key = true) : db'.keyTaken key = true := by
  cases key with
  | none => contradiction
  | some text =>
    obtain ⟨jobId, row, found, same⟩ := keyTaken_iff.mp taken
    exact keyTaken_iff.mpr ⟨jobId, row, grows jobId row found, same⟩

/-! ## What a submission does -/

/-- SQLite can bind the request's columns, and what is stored reads back. -/
structure Platform.Stores (P : Platform) (req : JobRequest) : Prop where
  dumps : P.dumpError req = none
  fits : fitsInteger req.priority = true
  reads : (P.reloadRequest req).isOk = true

instance (P : Platform) (req : JobRequest) : Decidable (P.Stores req) :=
  decidable_of_iff (P.dumpError req = none ∧ fitsInteger req.priority = true ∧ (P.reloadRequest req).isOk = true)
    ⟨fun ⟨dumps, fits, reads⟩ => ⟨dumps, fits, reads⟩, fun stores => ⟨stores.dumps, stores.fits, stores.reads⟩⟩

theorem Platform.Stores.loaded (stores : P.Stores req) : ∃ loaded, P.reloadRequest req = .ok loaded := by
  have reads := stores.reads
  cases loaded : P.reloadRequest req with
  | error error =>
    rw [loaded] at reads
    contradiction
  | ok value => exact ⟨value, rfl⟩

/-- A call of a submission that has made the one job and not the other: it leaves jobs and
tasks as they are, or makes the submission's only job. -/
inductive SubmitStep (req : JobRequest) (io : Io) (db db' : Db) : Option JobId → Option JobId → Prop where
  | idle (held : Option JobId) : db'.jobs = db.jobs → db'.tasks = db.tasks → SubmitStep req io db db' held held
  | makes (owner : Option String) : db.Created db' io req owner → db.keyTaken req.idempotencyKey = false →
      SubmitStep req io db db' none (some (genId "job" (io.uuid 0)))

/-- What a submission returns: the job it has made, or the one that has its key. -/
def Db.Answers (db : Db) (req : JobRequest) (mine : Option JobId) (jobId : JobId) : Prop :=
  ∃ row, db.jobs.get jobId = some row ∧ (mine = some jobId ∨
    mine = none ∧ row.idempotencyKey.isSome = true ∧ row.idempotencyKey = req.idempotencyKey)

/-- The empty key is still free, if it is the key. -/
def Db.Unclaimed (db : Db) (req : JobRequest) : Prop :=
  req.idempotencyKey = some "" → db.keyTaken (some "") = false

/-- The rest of a submission that has made a job or none: it makes the job once, and comes to
an answer while other submissions do likewise. -/
def Submits (P : Platform) (req : JobRequest) : Prog Reply → Option JobId → Session Db → Prop
  | .ret reply, mine, s => ∃ view, reply = .job view ∧ s.live.Answers req mine view.id
  | .raise _, _, _ => False
  | .call c next, mine, s => ∀ s', s.live.Grows s'.live → s'.live.Waiting P →
      (mine = none → s'.live.Unclaimed req) → ∀ io, Fresh io s'.live c.op →
      ∃ mine', SubmitStep req io s'.live (c.op.after P io s').live mine mine' ∧
        Submits P req (next (c.op.exec P io s').1) mine' (c.op.after P io s')

theorem Db.Answers.later {db db' : Db} (answers : db.Answers req mine jobId) (grows : db.Grows db') :
    db'.Answers req mine jobId := by
  obtain ⟨row, found, right⟩ := answers
  exact ⟨row, grows jobId row found, right⟩

theorem Submits.later {program : Prog Reply} (submits : Submits P req program mine s)
    (grows : s.live.Grows t.live) : Submits P req program mine t := by
  cases program with
  | ret reply =>
    obtain ⟨view, rfl, answers⟩ := submits
    exact ⟨view, rfl, answers.later grows⟩
  | raise => exact submits
  | call c next => exact fun s' later => submits s' (grows.trans later)

/-- A call that only reads. -/
theorem submits_reads {site : Site} {op : DbOp} {k : op.Ret → Prog Reply} (read : Db → op.Ret)
    (reads : ∀ io s, op.exec P io s = (.ok (read s.live), s))
    (next : ∀ s', s.live.Grows s'.live → s'.live.Waiting P → Submits P req (k (read s'.live)) mine s') :
    Submits P req (perform site op >>= k) mine s := by
  intro s' grows waiting _ io _
  have after : op.after P io s' = s' := congrArg Prod.snd (reads io s')
  refine ⟨mine, .idle mine ?_ ?_, ?_⟩
  · exact congrArg (fun s => s.live.jobs) after
  · exact congrArg (fun s => s.live.tasks) after
  · rw [after, reads io s']
    exact next s' grows waiting

theorem submits_reply (answers : s.live.Answers req mine jobId) :
    Submits P req (Route.replyJob P jobId) mine s := by
  unfold Route.replyJob jobView buildAggregate
  simp only [Program.bind_assoc]
  refine submits_reads (fun db => db.jobs.get jobId) (fun _ _ => rfl) fun s₁ grows₁ waiting₁ => ?_
  have answers₁ := answers.later grows₁
  obtain ⟨row, found, right⟩ := answers₁
  obtain ⟨loaded, reads⟩ := waiting₁.reads jobId row found
  simp only [found, Program.bind_assoc]
  refine submits_reads (fun db => db.jobs.get jobId) (fun _ _ => rfl) fun s₂ grows₂ waiting₂ => ?_
  have found₂ := grows₂ jobId row found
  simp only [found₂, reads, liftAt, Program.ret_bind, Program.bind_assoc]
  refine submits_reads (fun db => db.tasksOf jobId) (fun _ _ => rfl) fun s₃ grows₃ waiting₃ => ?_
  obtain ⟨agg, tallied, unranked⟩ := waiting₃.tally loaded jobId
  simp only [tallied, unranked, Program.ret_bind]
  have named : row.id = jobId := Table.get_key found
  exact ⟨_, rfl, row, named.symm ▸ grows₃ jobId row found₂, named.symm ▸ right⟩

theorem submits_submitted {numTasks : Nat} (answers : s.live.Answers req mine jobId) :
    Submits P req (Route.submitted P jobId numTasks) mine s := by
  intro s' grows _ _ io _
  refine ⟨mine, .idle mine rfl rfl, submits_reply ?_⟩
  exact answers.later grows

/-- Where a job is known to have the key, the second lookup finds it. -/
theorem submits_submitLost {key : String} (keyed : req.idempotencyKey = some key) (named : key ≠ "")
    (taken : s.live.keyTaken req.idempotencyKey = true) :
    Submits P req (Route.submitLost P req) none s := by
  have looks : truthy req.idempotencyKey = true := keyed ▸ truthy_some.mpr named
  unfold Route.submitLost
  simp only [looks, if_true]
  refine submits_reads (fun db => db.jobs.rows.find? fun r => r.idempotencyKey == some (req.idempotencyKey.getD ""))
    (fun _ _ => rfl) fun s' grows _ => ?_
  rw [keyed, Option.getD_some]
  obtain ⟨_, row, found, same⟩ := keyTaken_iff.mp (keyed ▸ grows.keyTaken taken)
  cases existing : s'.live.jobs.rows.find? fun r => r.idempotencyKey == some key with
  | none =>
    have absent := List.find?_eq_none.mp existing row (Table.mem_of_get found)
    simp [same] at absent
  | some first =>
    have matches_ := List.find?_some existing
    rw [beq_iff_eq] at matches_
    refine submits_reply ⟨first, Table.get_of_mem (List.mem_of_find?_eq_some existing), .inr ⟨rfl, ?_, ?_⟩⟩
    · rw [matches_]
      rfl
    · rw [matches_, keyed]

theorem submits_submitInsert {owner : String} (stores : P.Stores req) :
    Submits P req (Route.submitInsert P req owner) none s := by
  intro s' grows waiting unclaimed io fresh
  rcases createJobWithTasks_cases (P := P) fresh with ⟨db, created, free, _, _, ran⟩ | ⟨taken, ran⟩ | ⟨bad, _⟩
  · have after : (DbOp.createJobWithTasks req (some owner)).after P io s' = .settled db := congrArg Prod.snd ran
    refine ⟨some (genId "job" (io.uuid 0)), ?_, ?_⟩
    · rw [after]
      exact .makes (some owner) created free
    · rw [after, DbOp.exec, ran]
      exact submits_submitted ⟨_, (created.get_job _).trans (if_pos rfl), .inl rfl⟩
  · have after : (DbOp.createJobWithTasks req (some owner)).after P io s' = s' := congrArg Prod.snd ran
    refine ⟨none, ?_, ?_⟩
    · rw [after]
      exact .idle none rfl rfl
    · rw [after, DbOp.exec, ran]
      cases keyed : req.idempotencyKey with
      | none =>
        rw [keyed] at taken
        contradiction
      | some key =>
        refine submits_submitLost keyed ?_ taken
        rintro rfl
        rw [keyed, unclaimed rfl keyed] at taken
        contradiction
  · rcases bad with undumped | wide
    · exact absurd stores.dumps undumped
    · cases wide.symm.trans stores.fits

/-- What a submission stores, unless the route turns it away. -/
def Request.accepted (config : ServerConfig) : Request → Option JobRequest
  | .submitJob req principal =>
    if req.pipelineListHasPython && !config.allowPythonJobs then none
    else some (Route.acceptedRequest req principal)
  | _ => none

theorem submits_handler {request : Request} (accepted : request.accepted config = some req)
    (stores : P.Stores req) : Submits P req (handler P config request) none s := by
  cases request with
  | submitJob sent principal =>
    simp only [Request.accepted] at accepted
    split at accepted
    · contradiction
    · rename_i allowed
      cases accepted
      change Submits P _ (Route.submitJob P config sent principal) none s
      unfold Route.submitJob
      rw [if_neg allowed]
      dsimp only
      split
      · rename_i keyed
        refine submits_reads (fun db => db.jobs.rows.find? fun r =>
          r.idempotencyKey == some ((Route.acceptedRequest sent principal).idempotencyKey.getD ""))
          (fun _ _ => rfl) fun s' _ _ => ?_
        split
        · rename_i existing found
          have same := List.find?_some found
          rw [beq_iff_eq] at same
          refine submits_reply ⟨existing, Table.get_of_mem (List.mem_of_find?_eq_some found), .inr ⟨rfl, ?_, ?_⟩⟩
          · rw [same]
            rfl
          · rw [same]
            cases key : (Route.acceptedRequest sent principal).idempotencyKey with
            | none =>
              rw [key] at keyed
              contradiction
            | some text => rfl
        · exact submits_submitInsert stores
      · exact submits_submitInsert stores
  | _ => contradiction

/-- A request that is not let in ends at once. -/
theorem rejected_handler {sent : JobRequest} {principal : Principal}
    (rejected : (Request.submitJob sent principal).accepted config = none) :
    ∃ fault, handler P config (.submitJob sent principal) = .raise fault := by
  simp only [Request.accepted] at rejected
  split at rejected
  · rename_i python
    exact ⟨_, if_pos python⟩
  · contradiction

/-! ## A run of submissions -/

/-- What the thread stores, if it is let in. -/
def ServerPool.accepted (p : ServerPool) (config : ServerConfig) (i : Nat) : Option JobRequest :=
  p.threads[i]?.bind fun th => th.request.accepted config

/-- The turns of submissions. -/
def submits : Turn → Bool
  | .spawn (.submitJob _ _) | .sched _ _ => true
  | _ => false

/-- The turns of a run of submissions alone. -/
def Submitting (P : Platform) (config : ServerConfig) (p : ServerPool) (l : Turn) : Prop :=
  (server P config).Lawful p l ∧ submits l = true

instance (p : ServerPool) (l : Turn) : Decidable (Submitting P config p l) :=
  inferInstanceAs (Decidable (_ ∧ _))

/-- A submission that is let in can be stored, and only one has the empty key. -/
def Compatible (P : Platform) (config : ServerConfig) (p : ServerPool) : Turn → Prop
  | .spawn request => ∀ req ∈ request.accepted config, P.Stores req ∧ (req.idempotencyKey = some "" →
      ∀ th ∈ p.threads, ∀ other ∈ th.request.accepted config, other.idempotencyKey ≠ some "")
  | _ => True

instance (p : ServerPool) : (l : Turn) → Decidable (Compatible P config p l)
  | .spawn request => inferInstanceAs (Decidable (∀ req ∈ request.accepted config, P.Stores req ∧
      (req.idempotencyKey = some "" → ∀ th ∈ p.threads, ∀ other ∈ th.request.accepted config,
        other.idempotencyKey ≠ some "")))
  | .sched _ _ | .restart => isTrue trivial

/-- The job was made of the request, and its tasks are there. -/
structure Db.MadeOf (db : Db) (req : JobRequest) (jobId : JobId) : Prop where
  job : ∃ row, db.jobs.get jobId = some row ∧ row.request = req ∧ row.idempotencyKey = req.idempotencyKey
  payloads : (db.jobTasks jobId).map TaskRow.payload = req.pairs.map req.payloadOf

theorem Db.MadeOf.kept {db db' : Db} (made : db.MadeOf req jobId) (grows : db.Grows db')
    (same : db'.jobTasks jobId = db.jobTasks jobId) : db'.MadeOf req jobId := by
  obtain ⟨row, found, both⟩ := made.job
  constructor
  · exact ⟨row, grows jobId row found, both⟩
  · rw [same]
    exact made.payloads

namespace Db.Created
variable {db db' : Db} {io : Io} {owner : Option String}

theorem grows (created : db.Created db' io req owner) : db.Grows db' := by
  intro jobId row found
  rw [created.get_job, if_neg]
  · exact found
  · rintro rfl
    exact nomatch created.fresh.symm.trans found

theorem jobTasks_other (created : db.Created db' io req owner) (other : jobId ≠ genId "job" (io.uuid 0)) :
    db'.jobTasks jobId = db.jobTasks jobId := by
  rw [Db.jobTasks, created.tasks, List.filter_append]
  refine (congrArg _ (List.filter_eq_nil_iff.mpr fun r member same => ?_)).trans (List.append_nil _)
  exact other ((of_decide_eq_true same).symm.trans (newTasks_fields member).1)

theorem madeOf (created : db.Created db' io req owner) (good : db.Good) :
    db'.MadeOf req (genId "job" (io.uuid 0)) := by
  have payloads := (created.decomposed good).payloads
  rw [originsOf_eq, List.map_map] at payloads
  constructor
  · exact ⟨_, (created.get_job _).trans (if_pos rfl), rfl, rfl⟩
  · exact payloads

theorem queued (created : db.Created db' io req owner) (queued : ∀ r ∈ db.tasks.rows, r.status = .queued) :
    ∀ r ∈ db'.tasks.rows, r.status = .queued := by
  intro r member
  rw [created.tasks] at member
  rcases List.mem_append.mp member with old | new
  · exact queued r old
  · exact (newTasks_fields new).2.1

end Db.Created

/-- A thread that is let in submits its request; one that is not has ended. -/
def Competes (P : Platform) (config : ServerConfig) (th : Thread Request Call Call.Ret Fault Reply)
    (mine : Option JobId) (s : Session Db) : Prop :=
  match th.request.accepted config with
  | some req => Submits P req th.program mine s
  | none => ∃ fault, th.program = .raise fault

/-- What a run of submissions keeps: which thread has made which job. -/
structure Racing (P : Platform) (config : ServerConfig) (made : Nat → Option JobId) (p : ServerPool) :
    Prop where
  stores : ∀ i req, p.accepted config i = some req → P.Stores req
  empties : ∀ i j req other, p.accepted config i = some req → p.accepted config j = some other →
    req.idempotencyKey = some "" → other.idempotencyKey = some "" → i = j
  queued : ∀ r ∈ p.store.live.tasks.rows, r.status = .queued
  owned : ∀ i jobId, made i = some jobId → ∃ req, p.accepted config i = some req ∧ p.store.live.MadeOf req jobId
  makers : ∀ jobId row, p.store.live.jobs.get jobId = some row → ∃ i, made i = some jobId
  once : ∀ i j jobId, made i = some jobId → made j = some jobId → i = j
  unique : ∀ a b row other key, p.store.live.jobs.get a = some row → p.store.live.jobs.get b = some other →
    row.idempotencyKey = some key → other.idempotencyKey = some key → a = b
  threads : ∀ i th, p.threads[i]? = some th → Competes P config th (made i) p.store

variable {made : Nat → Option JobId}

theorem accepted_of {i : Nat} {th : Thread Request Call Call.Ret Fault Reply}
    (found : p.threads[i]? = some th) : p.accepted config i = th.request.accepted config := by
  rw [ServerPool.accepted, found]
  rfl

/-- A turn of a thread leaves every thread its request. -/
theorem accepted_set {i : Nat} {request : Request} {program program' : Prog Reply}
    (found : p.threads[i]? = some ⟨request, program⟩) (k : Nat) :
    ServerPool.accepted ⟨s, p.threads.set i ⟨request, program'⟩⟩ config k = p.accepted config k := by
  rw [ServerPool.accepted, ServerPool.accepted]
  by_cases same : k = i
  · subst same
    rw [List.getElem?_set_self (List.getElem?_eq_some_iff.mp found).1, found]
    rfl
  · rw [List.getElem?_set_ne (Ne.symm same)]

theorem Racing.waiting (racing : Racing P config made p) : p.store.live.Waiting P := by
  refine ⟨racing.queued, fun jobId row found => ?_⟩
  obtain ⟨i, mine⟩ := racing.makers jobId row found
  obtain ⟨req, accepted, ⟨row', found', same, _⟩, _⟩ := racing.owned i jobId mine
  cases found.symm.trans found'
  exact same.symm ▸ (racing.stores i req accepted).loaded

/-- The one submission with the empty key that has made no job finds the key free. -/
theorem Racing.unclaimed {i : Nat} (racing : Racing P config made p) (accepted : p.accepted config i = some req)
    (none : made i = none) : p.store.live.Unclaimed req := by
  intro keyed
  refine Bool.eq_false_iff.mpr fun taken => ?_
  obtain ⟨jobId, row, found, same⟩ := keyTaken_iff.mp taken
  obtain ⟨k, mine⟩ := racing.makers jobId row found
  obtain ⟨other, accepted', ⟨row', found', _, key⟩, _⟩ := racing.owned k jobId mine
  cases found.symm.trans found'
  cases racing.empties i k req other accepted accepted' keyed (key.symm.trans same)
  exact nomatch none.symm.trans mine

theorem Competes.later {th : Thread Request Call Call.Ret Fault Reply} (competes : Competes P config th mine s)
    (grows : s.live.Grows t.live) : Competes P config th mine t := by
  unfold Competes at competes ⊢
  split
  · rename_i req accepted
    rw [accepted] at competes
    exact competes.later grows
  · rename_i rejected
    rw [rejected] at competes
    exact competes

/-- What a call does to the table of who made which job. -/
def remade (made : Nat → Option JobId) (i : Nat) (mine : Option JobId) (k : Nat) : Option JobId :=
  if k = i then mine else made k

theorem remade_self (made : Nat → Option JobId) (i : Nat) : remade made i (made i) = made := by
  funext k
  unfold remade
  split
  · rename_i same
    rw [same]
  · rfl

/-- A call that leaves jobs and tasks as they are. -/
theorem Racing.idle {threads : List (Thread Request Call Call.Ret Fault Reply)} (racing : Racing P config made p)
    (kept : ∀ k, ServerPool.accepted ⟨t, threads⟩ config k = p.accepted config k)
    (jobs : t.live.jobs = p.store.live.jobs) (tasks : t.live.tasks = p.store.live.tasks)
    (competing : ∀ (k : Nat) th, threads[k]? = some th → Competes P config th (made k) t) :
    Racing P config made ⟨t, threads⟩ := by
  have grows : p.store.live.Grows t.live := fun jobId row here => jobs ▸ here
  have same (jobId : JobId) : t.live.jobTasks jobId = p.store.live.jobTasks jobId := by
    rw [Db.jobTasks, tasks]
    rfl
  constructor
  · simp only [kept]
    exact racing.stores
  · simp only [kept]
    exact racing.empties
  · simp only [tasks]
    exact racing.queued
  · intro k jobId mine
    obtain ⟨req, accepted, madeOf⟩ := racing.owned k jobId mine
    exact ⟨req, (kept k).trans accepted, madeOf.kept grows (same jobId)⟩
  · simp only [jobs]
    exact racing.makers
  · exact racing.once
  · simp only [jobs]
    exact racing.unique
  · exact competing

/-- A call that makes the job of a thread that has made none. -/
theorem Racing.makes {threads : List (Thread Request Call Call.Ret Fault Reply)} {i : Nat} {io : Io}
    {owner : Option String} (racing : Racing P config made p) (good : p.store.live.Good)
    (kept : ∀ k, ServerPool.accepted ⟨t, threads⟩ config k = p.accepted config k)
    (asked : p.accepted config i = some req) (none : made i = none)
    (created : p.store.live.Created t.live io req owner)
    (free : p.store.live.keyTaken req.idempotencyKey = false)
    (competing : ∀ (k : Nat) th, threads[k]? = some th →
      Competes P config th (remade made i (some (genId "job" (io.uuid 0))) k) t) :
    Racing P config (remade made i (some (genId "job" (io.uuid 0)))) ⟨t, threads⟩ := by
  have apart {k : Nat} {jobId : JobId} (mine : made k = some jobId) : jobId ≠ genId "job" (io.uuid 0) := by
    rintro rfl
    obtain ⟨_, _, ⟨row, held, _⟩, _⟩ := racing.owned k _ mine
    cases created.fresh.symm.trans held
  constructor
  · simp only [kept]
    exact racing.stores
  · simp only [kept]
    exact racing.empties
  · exact created.queued racing.queued
  · intro k jobId mine
    unfold remade at mine
    split at mine
    · rename_i here
      cases mine
      exact ⟨req, here ▸ (kept i).trans asked, created.madeOf good⟩
    · obtain ⟨req, accepted, madeOf⟩ := racing.owned k jobId mine
      exact ⟨req, (kept k).trans accepted, madeOf.kept created.grows (created.jobTasks_other (apart mine))⟩
  · intro jobId row held
    rw [created.get_job] at held
    split at held
    · rename_i here
      exact ⟨i, (if_pos rfl).trans (congrArg some here.symm)⟩
    · obtain ⟨k, mine⟩ := racing.makers jobId row held
      refine ⟨k, (if_neg ?_).trans mine⟩
      rintro rfl
      cases none.symm.trans mine
  · intro j k jobId first second
    unfold remade at first second
    split at first <;> split at second
    · rename_i here there
      exact here.trans there.symm
    · cases first
      exact False.elim (apart second rfl)
    · cases second
      exact False.elim (apart first rfl)
    · exact racing.once j k jobId first second
  · intro a b row other key here there keyed keyed'
    have taken {jobId : JobId} {old : JobRow} (held : p.store.live.jobs.get jobId = some old)
        (same : old.idempotencyKey = some key) : req.idempotencyKey ≠ some key := by
      intro mine
      rw [mine, keyTaken_iff.mpr ⟨jobId, old, held, same⟩] at free
      contradiction
    rw [created.get_job] at here there
    split at here <;> split at there
    · rename_i first second
      exact first.trans second.symm
    · cases here
      exact False.elim (taken there keyed' keyed)
    · cases there
      exact False.elim (taken here keyed keyed')
    · exact racing.unique a b row other key here there keyed keyed'
  · exact competing

theorem Racing.call {i : Nat} {io : Io} {request : Request} {c : Call} {next : Call.Ret c → Prog Reply}
    (racing : Racing P config made p) (good : p.store.live.Good)
    (found : p.threads[i]? = some ⟨request, .call c next⟩) (fresh : Fresh io p.store.live c.op) :
    ∃ made', Racing P config made' ⟨c.op.after P io p.store,
      p.threads.set i ⟨request, next (c.op.exec P io p.store).1⟩⟩ := by
  have competes := racing.threads i _ found
  cases accepted : request.accepted config with
  | none =>
    simp only [Competes, accepted] at competes
    obtain ⟨_, ended⟩ := competes
    contradiction
  | some req =>
    simp only [Competes, accepted] at competes
    have asked : p.accepted config i = some req := (accepted_of found).trans accepted
    obtain ⟨mine, step, rest⟩ := competes p.store (.refl _) racing.waiting
      (fun none => racing.unclaimed asked none) io fresh
    have bound := (List.getElem?_eq_some_iff.mp found).1
    have competing (grows : p.store.live.Grows (c.op.after P io p.store).live) (k : Nat) (th)
        (place : (p.threads.set i ⟨request, next (c.op.exec P io p.store).1⟩)[k]? = some th) :
        Competes P config th (remade made i mine k) (c.op.after P io p.store) := by
      by_cases same : k = i
      · subst same
        rw [List.getElem?_set_self bound] at place
        cases place
        simp only [Competes, accepted, remade, if_true]
        exact rest
      · rw [List.getElem?_set_ne (Ne.symm same)] at place
        rw [remade, if_neg same]
        exact (racing.threads k th place).later grows
    generalize c.op.after P io p.store = t at step competing ⊢
    have kept (k : Nat) : ServerPool.accepted ⟨t, p.threads.set i ⟨request, next (c.op.exec P io p.store).1⟩⟩
        config k = p.accepted config k := accepted_set found k
    generalize before : made i = earlier at step
    cases step with
    | idle _ jobs tasks =>
      subst before
      rw [remade_self] at competing
      exact ⟨made, racing.idle kept jobs tasks (competing fun jobId row here => jobs ▸ here)⟩
    | makes owner created free =>
      exact ⟨_, racing.makes good kept asked before created free (competing created.grows)⟩

theorem accepted_spawn {request : Request} {program : Prog Reply} {k : Nat}
    (accepted : ServerPool.accepted ⟨s, p.threads ++ [⟨request, program⟩]⟩ config k = some req) :
    p.accepted config k = some req ∨ k = p.threads.length ∧ request.accepted config = some req := by
  rw [ServerPool.accepted, List.getElem?_append] at accepted
  split at accepted
  · exact .inl accepted
  · obtain ⟨th, place, accepted⟩ := Option.bind_eq_some_iff.mp accepted
    obtain ⟨here, rfl⟩ := List.getElem?_eq_some_iff.mp place
    rw [List.length_singleton] at here
    refine .inr ⟨by omega, ?_⟩
    simpa using accepted

theorem accepted_kept {th : Thread Request Call Call.Ret Fault Reply} {k : Nat}
    (accepted : p.accepted config k = some req) :
    ServerPool.accepted ⟨s, p.threads ++ [th]⟩ config k = some req := by
  obtain ⟨old, place, accepted⟩ := Option.bind_eq_some_iff.mp accepted
  rw [ServerPool.accepted, List.getElem?_append_left (List.getElem?_eq_some_iff.mp place).1, place]
  exact accepted

theorem Racing.spawn {sent : JobRequest} {principal : Principal} (racing : Racing P config made p)
    (compatible : Compatible P config p (.spawn (.submitJob sent principal))) :
    Racing P config made ⟨p.store, p.threads ++ [⟨.submitJob sent principal,
      handler P config (.submitJob sent principal)⟩]⟩ := by
  have beyond {k : Nat} {req : JobRequest} (accepted : p.accepted config k = some req) :
      k ≠ p.threads.length := by
    rintro rfl
    rw [ServerPool.accepted, List.getElem?_eq_none (Nat.le_refl _)] at accepted
    contradiction
  constructor
  · intro k req accepted
    rcases accepted_spawn accepted with old | ⟨_, new⟩
    · exact racing.stores k req old
    · exact (compatible req new).1
  · intro i j req other first second keyed keyed'
    rcases accepted_spawn first with old | ⟨here, new⟩ <;> rcases accepted_spawn second with old' | ⟨here', new'⟩
    · exact racing.empties i j req other old old' keyed keyed'
    · obtain ⟨th, place, old⟩ := Option.bind_eq_some_iff.mp old
      exact absurd keyed ((compatible other new').2 keyed' th (List.mem_of_getElem? place) req old)
    · obtain ⟨th, place, old'⟩ := Option.bind_eq_some_iff.mp old'
      exact absurd keyed' ((compatible req new).2 keyed th (List.mem_of_getElem? place) other old')
    · exact here.trans here'.symm
  · exact racing.queued
  · intro i jobId mine
    obtain ⟨req, accepted, madeOf⟩ := racing.owned i jobId mine
    exact ⟨req, accepted_kept accepted, madeOf⟩
  · exact racing.makers
  · exact racing.once
  · exact racing.unique
  · intro k th place
    rw [List.getElem?_append] at place
    split at place
    · exact racing.threads k th place
    · rename_i past
      obtain ⟨here, rfl⟩ := List.getElem?_eq_some_iff.mp place
      rw [List.length_singleton] at here
      obtain rfl : k = p.threads.length := by omega
      have none : made p.threads.length = none := by
        refine Option.eq_none_iff_forall_ne_some.mpr fun jobId mine => ?_
        obtain ⟨req, accepted, _⟩ := racing.owned _ jobId mine
        exact beyond accepted rfl
      rw [none]
      simp only [Nat.sub_self, List.getElem_cons_zero, Competes]
      split
      · rename_i req accepted
        exact submits_handler accepted (compatible req accepted).1
      · rename_i rejected
        exact rejected_handler rejected

theorem started_racing : Racing P config (fun _ => none) started where
  stores _ _ accepted := nomatch accepted
  empties _ _ _ _ accepted := nomatch accepted
  queued _ member := nomatch member
  owned _ _ mine := nomatch mine
  makers _ _ found := nomatch found
  once _ _ _ mine := nomatch mine
  unique _ _ _ _ _ found := nomatch found
  threads _ _ place := nomatch place

theorem submitting_racing
    (run : System.Reaches (server P config) (fun p l => Submitting P config p l ∧ Compatible P config p l) started p) :
    Keeping P config .none p ∧ ∃ made, Racing P config made p := by
  refine run.invariant (I := fun p => Keeping P config .none p ∧ ∃ made, Racing P config made p) ?_
    ⟨started_keeping, fun _ => none, ?_⟩
  · rintro p l q ⟨keeping, made, racing⟩ ⟨⟨lawful, submits⟩, compatible⟩ stepped
    refine ⟨keeping.step (lawful_allowed lawful) stepped, ?_⟩
    cases l with
    | spawn request =>
      cases Option.some.inj stepped
      cases request with
      | submitJob sent principal => exact ⟨made, racing.spawn compatible⟩
      | _ => contradiction
    | sched i io =>
      obtain ⟨request, c, next, found, rfl⟩ := System.sched_cases stepped
      exact racing.call keeping.1.good found (lawful c (waiting_of found))
    | restart => contradiction
  · exact started_racing

/-! ## Where it leads -/

/-- The job a finished submission returned. -/
def ServerPool.answer (p : ServerPool) (i : Nat) : Option JobId :=
  match p.threads[i]? with
  | some ⟨_, .ret (.job view)⟩ => some view.id
  | _ => none

/-- One job, with all its tasks and no others, per key and per submission without one. -/
structure Stocked (config : ServerConfig) (p : ServerPool) : Prop where
  keyed : ∀ i req key, p.accepted config i = some req → req.idempotencyKey = some key →
    ∃! row, row ∈ p.store.live.jobs.rows ∧ row.idempotencyKey = some key
  keyless : ∀ i req, p.accepted config i = some req → req.idempotencyKey = none →
    ∃ row ∈ p.store.live.jobs.rows, row.idempotencyKey = none ∧ p.answer i = some row.id
  made : ∀ row ∈ p.store.live.jobs.rows, ∃ i req, p.accepted config i = some req ∧
    p.answer i = some row.id ∧ p.store.live.MadeOf req row.id
  linked : ∀ r ∈ p.store.live.tasks.rows, ∃ row ∈ p.store.live.jobs.rows, r.jobId = row.id

/-- What the keys of a run of submissions come to. -/
structure Deduplicated (config : ServerConfig) (p : ServerPool) : Prop where
  returns : ∀ i th req, p.threads[i]? = some th → p.accepted config i = some req →
    th.program.finished = true → ∃ jobId, p.answer i = some jobId
  shared : ∀ i j req other key a b, p.accepted config i = some req → p.accepted config j = some other →
    req.idempotencyKey = some key → other.idempotencyKey = some key →
    p.answer i = some a → p.answer j = some b → a = b
  apart : ∀ i j req other a b, i ≠ j → p.accepted config i = some req → p.accepted config j = some other →
    req.idempotencyKey = none ∨ req.idempotencyKey ≠ other.idempotencyKey →
    p.answer i = some a → p.answer j = some b → a ≠ b
  stocked : p.Quiet → Stocked config p

namespace Racing
variable {i j : Nat} {a : JobId}

theorem ended (racing : Racing P config made p) {th : Thread Request Call Call.Ret Fault Reply}
    (place : p.threads[i]? = some th) (accepted : p.accepted config i = some req)
    (finished : th.program.finished = true) : ∃ jobId, p.answer i = some jobId := by
  have competes := racing.threads i th place
  rw [accepted_of place] at accepted
  simp only [Competes, accepted] at competes
  obtain ⟨request, program⟩ := th
  cases program with
  | ret reply =>
    obtain ⟨view, rfl, _⟩ := competes
    exact ⟨view.id, by simp only [ServerPool.answer, place]⟩
  | raise => exact False.elim competes
  | call => contradiction

theorem answers (racing : Racing P config made p) (accepted : p.accepted config i = some req)
    (answer : p.answer i = some a) : p.store.live.Answers req (made i) a := by
  unfold ServerPool.answer at answer
  split at answer
  · rename_i request view place
    have competes := racing.threads i _ place
    rw [accepted_of place] at accepted
    simp only [Competes, accepted] at competes
    obtain ⟨_, same, answers⟩ := competes
    cases same
    cases answer
    exact answers
  · contradiction

/-- The job returned has the submission's key, and without a key it is the submission's own. -/
theorem keyed (racing : Racing P config made p) (accepted : p.accepted config i = some req)
    (answer : p.answer i = some a) :
    (∃ row, p.store.live.jobs.get a = some row ∧ row.idempotencyKey = req.idempotencyKey) ∧
      (req.idempotencyKey = none → made i = some a) := by
  obtain ⟨row, found, mine | ⟨_, named, same⟩⟩ := racing.answers accepted answer
  · obtain ⟨req', accepted', ⟨row', found', _, key⟩, _⟩ := racing.owned i a mine
    cases accepted.symm.trans accepted'
    exact ⟨⟨row', found', key⟩, fun _ => mine⟩
  · refine ⟨⟨row, found, same⟩, fun keyless => ?_⟩
    rw [same, keyless] at named
    contradiction

theorem stocked (racing : Racing P config made p) (good : p.store.live.Good) (quiet : p.Quiet) :
    Stocked config p := by
  have answered {i : Nat} {req : JobRequest} (accepted : p.accepted config i = some req) :
      ∃ jobId, p.answer i = some jobId := by
    obtain ⟨th, place, _⟩ := Option.bind_eq_some_iff.mp accepted
    exact racing.ended place accepted (quiet th (List.mem_of_getElem? place))
  constructor
  · intro i req key accepted key'
    obtain ⟨a, answer⟩ := answered accepted
    obtain ⟨⟨row, found, same⟩, _⟩ := racing.keyed accepted answer
    refine ⟨row, ⟨Table.mem_of_get found, same.trans key'⟩, ?_⟩
    rintro other ⟨member, key''⟩
    have held := Table.get_of_mem member
    cases racing.unique _ a other row key held found key'' (same.trans key')
    exact Option.some.inj (held.symm.trans found)
  · intro i req accepted keyless
    obtain ⟨a, answer⟩ := answered accepted
    obtain ⟨⟨row, found, same⟩, _⟩ := racing.keyed accepted answer
    obtain rfl : row.id = a := Table.get_key found
    exact ⟨row, Table.mem_of_get found, same.trans keyless, answer⟩
  · intro row member
    obtain ⟨i, mine⟩ := racing.makers row.id row (Table.get_of_mem member)
    obtain ⟨req, accepted, madeOf⟩ := racing.owned i row.id mine
    obtain ⟨a, answer⟩ := answered accepted
    obtain ⟨_, _, same | ⟨none, _⟩⟩ := racing.answers accepted answer
    · cases mine.symm.trans same
      exact ⟨i, req, accepted, answer, madeOf⟩
    · exact nomatch none.symm.trans mine
  · intro r member
    obtain ⟨row, found⟩ := good.linked r.id r (Table.get_of_mem member)
    exact ⟨row, Table.mem_of_get found, (Table.get_key found).symm⟩

end Racing

/-- In every run of submissions that can be stored, at most one of them with the empty key. -/
theorem submissions_deduplicated
    (run : System.Reaches (server P config) (fun p l => Submitting P config p l ∧ Compatible P config p l) started p) :
    Deduplicated config p := by
  obtain ⟨keeping, made, racing⟩ := submitting_racing run
  constructor
  · exact fun i th req place accepted finished => racing.ended place accepted finished
  · intro i j req other key a b first second key' key'' answer answer'
    obtain ⟨⟨row, found, same⟩, _⟩ := racing.keyed first answer
    obtain ⟨⟨row', found', same'⟩, _⟩ := racing.keyed second answer'
    exact racing.unique a b row row' key found found' (same.trans key') (same'.trans key'')
  · rintro i j req other a b different first second keys answer answer' rfl
    obtain ⟨⟨row, found, same⟩, mine⟩ := racing.keyed first answer
    obtain ⟨⟨row', found', same'⟩, mine'⟩ := racing.keyed second answer'
    cases found.symm.trans found'
    have equal := same.symm.trans same'
    rcases keys with keyless | unequal
    · exact different (racing.once i j a (mine keyless) (mine' (equal.symm.trans keyless)))
    · exact unequal equal
  · exact racing.stocked keeping.1.good

def keyedTask (key : String) : JobRequest := { singleTask with idempotencyKey := some key }

/-- Two submissions look one key up before either inserts, and a third has none. -/
def racingTurns : List Turn :=
  [.spawn (.submitJob (keyedTask "k") {}), .spawn (.submitJob (keyedTask "k") {}), .spawn (.submitJob singleTask {})] ++
  turns 0 1 1 ++ turns 1 1 2 ++ turns 0 1 3 ++ [.sched 1 { now := 4, uuid := fun n => toString (n + 2) }] ++
  turns 0 4 5 ++ turns 1 4 6 ++ List.replicate 5 (.sched 2 { now := 7, uuid := fun n => toString (n + 2) })

theorem submissions_deduplicated_racing : ∃ p : ServerPool, System.Reaches (server .plain {})
      (fun p l => Submitting .plain {} p l ∧ Compatible .plain {} p l) started p ∧
    Deduplicated {} p ∧ p.Quiet ∧
    [p.answer 0, p.answer 1, p.answer 2] = [some "job_0", some "job_0", some "job_2"] := by
  have played : ((server .plain {}).play (fun p l => Submitting .plain {} p l ∧ Compatible .plain {} p l)
      racingTurns started).any (fun p : ServerPool => decide (p.Quiet ∧
        [p.answer 0, p.answer 1, p.answer 2] = [some "job_0", some "job_0", some "job_2"])) = true := by
    decide +kernel
  obtain ⟨p, run, facts⟩ := System.play_any played
  clear played
  exact ⟨p, run, submissions_deduplicated run, of_decide_eq_true facts⟩

/-- The second insert under the empty key violates the index, and no lookup follows. -/
theorem empty_key_raises : ¬∀ p : ServerPool, System.Reaches (server .plain {}) (Submitting .plain {}) started p →
    Deduplicated {} p := by
  intro deduplicated
  have played : ((server .plain {}).play (Submitting .plain {})
      ([.spawn (.submitJob (keyedTask "") {}), .spawn (.submitJob (keyedTask "") {})] ++ turns 0 5 1 ++
        [.sched 1 { now := 2, uuid := fun n => toString (n + 2) }]) started).any
      (fun p : ServerPool => decide ((p.accepted {} 1).isSome = true ∧ p.answer 1 = none ∧
        (p.threads[1]?.any fun th => th.program.finished) = true)) = true := by decide +kernel
  obtain ⟨p, run, facts⟩ := System.play_any played
  clear played
  obtain ⟨accepted, unanswered, finished⟩ := of_decide_eq_true facts
  obtain ⟨req, accepted⟩ := Option.isSome_iff_exists.mp accepted
  obtain ⟨th, place, finished⟩ := (Option.any_eq_true _ _).mp finished
  obtain ⟨jobId, answered⟩ := (deduplicated p run).returns 1 th req place accepted finished
  exact nomatch unanswered.symm.trans answered

end N4Cluster
