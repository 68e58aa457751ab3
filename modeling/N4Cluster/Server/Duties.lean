import N4Cluster.Server.Owing

/-! What every handler provides while others act. It writes a job's status only
where the job's tasks allow it, and when one of its calls leaves a job stuck the
rest of it owes that job its status. -/
namespace N4Cluster
open Relational Transactional Relation Interleave

/-- When a call may write the status of a job. -/
structure Fair (A : Assumptions) (db : Db) (op : DbOp) : Prop where
  routed : op.routed = true
  cancels : ∀ jobId error, op = .setJobStatus jobId .cancelled error → db.AllTerminal jobId
  settles : ∀ jobId new, op = .trySetJobStatus jobId new → db.AllTerminal jobId ∧
    (new = .succeeded → db.SomeSucceeded jobId) ∧
    (new = .failed → (A.counted → ¬db.SomeSucceeded jobId) ∧
      (A.guarded → db.jobStatus jobId ≠ some .cancelling))

/-- The calls whose fairness needs no argument. -/
theorem Fair.of_plain {A : Assumptions} {db : Db} {op : DbOp} (routed : op.routed = true)
    (set : ∀ jobId status error, op ≠ .setJobStatus jobId status error)
    (trySet : ∀ jobId new, op ≠ .trySetJobStatus jobId new) : Fair A db op :=
  ⟨routed, fun _ _ here => False.elim (set _ _ _ here), fun _ _ here => False.elim (trySet _ _ here)⟩

theorem Fair.of_harmless {A : Assumptions} {db : Db} {op : DbOp} (harmless : op.harmless = true) :
    Fair A db op :=
  .of_plain (DbOp.harmless_routed harmless) (fun _ _ _ here => by subst here; contradiction)
    fun _ _ here => by subst here; contradiction

theorem finalStatus_succeeded {current : JobStatus} {n : Nat}
    (chosen : finalStatus current n = .succeeded) : 0 < n := by
  unfold finalStatus at chosen
  split at chosen
  · contradiction
  · split at chosen
    · assumption
    · contradiction

theorem finalStatus_failed {current : JobStatus} {n : Nat} (chosen : finalStatus current n = .failed) :
    current ≠ .cancelling ∧ n = 0 := by
  unfold finalStatus at chosen
  split at chosen
  · contradiction
  · rename_i uncancelled
    split at chosen
    · contradiction
    · exact ⟨uncancelled, by omega⟩

/-- What happens while a program waits at a call. -/
def Meanwhile (A : Assumptions) (c : Call) (s t : Session Db) : Prop :=
  Evolves s.live t.live ∧
    (A.guarded → ∀ jobId, c.op = .trySetJobStatus jobId .failed →
      s.live.jobStatus jobId ≠ some .cancelling → t.live.jobStatus jobId ≠ some .cancelling)

/-- The job whose tasks a finalization that counted no succeeded one reads again. -/
def Call.recounts (c : Call) : Option JobId :=
  match c.site, c.op with
  | .terminality 0, .listTasksForJob jobId => some jobId
  | _, _ => none

/-- The second reading contradicts the count. -/
def Miscounts (s : Session Db) (c : Call) : Prop :=
  ∃ jobId, c.recounts = some jobId ∧ s.live.AllTerminal jobId ∧ s.live.SomeSucceeded jobId

def duty (P : Platform) (A : Assumptions) : Contract Call Call.Ret Fault Reply (Session Db) where
  inv := Sound
  rely := Meanwhile A
  admits c s r := (A.completes → ¬Failing r) ∧ (A.readable → s.live.readable P = true) ∧
    (A.counted → ¬Miscounts s c) ∧ (A.heard → ¬Refuses P s c)
  gives s c r t := Fair A s.live c.op ∧ (A.Ends → ∀ jobId, t.live.Stuck jobId →
    (s.live.Stuck jobId ∧ t.live.jobStatus jobId = s.live.jobStatus jobId) ∨ Owes P A jobId r t)

/-- The contracts a piece of a handler can be judged under. -/
structure Dutiful {α : Type} (P : Platform) (A : Assumptions)
    (C : Contract Call Call.Ret Fault α (Session Db)) : Prop where
  inv : ∀ {s}, C.inv s → Sound s
  rely : ∀ {c s t}, C.rely c s t → Meanwhile A c s t
  counts : ∀ {c s r}, C.admits c s r → A.counted → ¬Miscounts s c
  gives : ∀ {s c r t}, Fair A s.live c.op → Idle s.live t.live → C.gives s c r t

theorem duty_dutiful {P : Platform} {A : Assumptions} : Dutiful P A (duty P A) where
  inv inv := inv
  rely moved := moved
  counts admitted := admitted.2.2.1
  gives fair idle := ⟨fair, fun _ jobId stuck => .inl (idle jobId stuck)⟩

theorem getJob_answer {P : Platform} {io : Io} {s t : Session Db} {jobId : JobId} {found : Option JobRow}
    (ran : DbOp.exec P io (.getJob jobId) s = (.ok found, t)) : s.live.jobs.get jobId = found :=
  Except.ok.inj (Prod.mk.inj ran).1

theorem getTask_answer {P : Platform} {io : Io} {s t : Session Db} {taskId : TaskId}
    {found : Option TaskRow} (ran : DbOp.exec P io (.getTask taskId) s = (.ok found, t)) :
    s.live.tasks.get taskId = found :=
  Except.ok.inj (Prod.mk.inj ran).1

/-- The task of a row read earlier is there and belongs to the same job. -/
def Knows (db : Db) (row : TaskRow) : Prop :=
  ∃ r, db.tasks.get row.id = some r ∧ r.jobId = row.jobId

theorem Knows.later {db db' : Db} {row : TaskRow} (knows : Knows db row) (moved : Evolves db db') :
    Knows db' row := by
  obtain ⟨r, found, job⟩ := knows
  obtain ⟨r', found', job', _⟩ := moved.task row.id r found
  exact ⟨r', found', job'.trans job⟩

namespace Dutiful
variable {P : Platform} {A : Assumptions} {α β : Type} {C : Contract Call Call.Ret Fault α (Session Db)}
  {post : Except Fault α → Session Db → Prop} {s : Session Db}

theorem under (D : Dutiful P A C) (around : Prog β → Prog α) : Dutiful P A (C.under around) where
  inv := D.inv
  rely := D.rely
  counts := D.counts
  gives := D.gives

theorem evolving (D : Dutiful P A C) : Evolving C where
  rely moved := (D.rely moved).1
  inv := D.inv

/-- A program whose calls are all harmless. -/
theorem harmless (D : Dutiful P A C) {p : Prog α} (calls : Calls DbOp.harmless p) (s : Session Db) :
    p.Obeys (machine P) C (fun _ _ => True) s :=
  calls.obeys (fun _ harmless _ _ _ _ valid => D.gives (.of_harmless harmless)
    (harmless_idle (P := P) harmless valid)) s

/-- A harmless call. -/
theorem step (D : Dutiful P A C) {site : Site} {op : DbOp} {k : op.Ret → Prog α}
    (harmless : op.harmless = true)
    (next : ∀ s' io value t, C.inv s' → op.exec P io s' = (.ok value, t) → Evolves s.live s'.live →
      Evolves s'.live t.live → (k value).Obeys (machine P) C (fun _ _ => True) t) :
    (perform site op >>= k).Obeys (machine P) C (fun _ _ => True) s := by
  refine obeys_perform fun s' io rely inv fresh => ?_
  have idle := harmless_idle (P := P) harmless fresh
  have moved := (exec_sound (P := P) (DbOp.harmless_routed harmless) fresh (D.inv inv)).2
  refine ⟨fun value t ran _ => ?_, fun error t ran _ => ?_⟩
  · simp only [DbOp.after, ran] at idle moved
    exact ⟨D.gives (.of_harmless harmless) idle, next s' io value t inv ran (D.rely rely).1 moved⟩
  · simp only [DbOp.after, ran] at idle
    exact ⟨D.gives (.of_harmless harmless) idle, trivial⟩

theorem emit (D : Dutiful P A C) {site : Site} {event : NewEvent} {k : Unit → Prog α}
    (next : ∀ t, (k ()).Obeys (machine P) C (fun _ _ => True) t) (s : Session Db) :
    (N4Cluster.emit site event >>= k).Obeys (machine P) C (fun _ _ => True) s := by
  unfold N4Cluster.emit
  rw [Program.bind_assoc]
  exact D.step rfl fun _ _ _ t _ _ _ _ => next t

theorem emits (D : Dutiful P A C) {ι : Type} {items : List ι} {event : ι → NewEvent}
    {k : Unit → Prog α} (next : ∀ t, (k ()).Obeys (machine P) C (fun _ _ => True) t) (s : Session Db) :
    (Program.forEach items (fun item => N4Cluster.emit .route (event item)) >>= k).Obeys (machine P) C
      (fun _ _ => True) s := by
  induction items generalizing s with
  | nil => exact next s
  | cons item rest ih =>
    simp only [Program.forEach, Program.bind_assoc]
    exact D.emit ih s

theorem undecided_harmless {jobId : JobId} (op : DbOp) (undecided : op.undecided jobId = true) :
    op.harmless = true := by
  cases op <;> first | rfl | contradiction

theorem finalizing (D : Dutiful P A C) (jobId : JobId) :
    Finalizing P C (fun _ _ => True) jobId where
  toEvolving := D.evolving
  gives _ _ op _ _ _ undecided _ fresh := D.gives (.of_harmless (undecided_harmless op undecided))
    (harmless_idle (P := P) (undecided_harmless op undecided) fresh)
  failed _ _ _ _ _ _ := trivial

/-- A finalization writes the status its readings justify. -/
theorem finalizeJob (D : Dutiful P A C) {jobId : JobId} {k : Unit → Prog α}
    (next : ∀ t, (k ()).Obeys (machine P) C (fun _ _ => True) t) (s : Session Db) :
    (finalizeJob P jobId >>= k).Obeys (machine P) C (fun _ _ => True) s := by
  refine (D.finalizing jobId).finalizeJob (fun t _ _ => next t) (fun agg row s₁ s₂ r known => ?_) s
  unfold settleJob
  rw [Program.bind_assoc]
  have held : (s₁.live.jobs.get jobId).isSome = true := by
    obtain ⟨_, s₀, _, row₀, _, _, _, moved, found, _⟩ := known.counted
    exact moved.exists_job (by rw [found]; rfl)
  have fair {s₃ : Session Db} (meanwhile : Meanwhile A
      ⟨.finalize, .trySetJobStatus jobId (finalStatus row.status agg.numSucceeded)⟩ s₂ s₃) :
      Fair A s₃.live (.trySetJobStatus jobId (finalStatus row.status agg.numSucceeded)) := by
    have moved := known.moved.trans meanwhile.1
    refine ⟨by simp [DbOp.routed, finalStatus_terminal], fun _ _ here => (by cases here),
      fun j new here => ?_⟩
    cases here
    refine ⟨moved.allTerminal held known.terminal, fun succeeded => ?_, fun failed => ?_⟩
    · exact moved.someSucceeded (known.counted.succeeded (finalStatus_succeeded succeeded))
    · obtain ⟨uncancelled, zero⟩ := finalStatus_failed failed
      refine ⟨fun counted some => D.counts known.admitted counted ?_, fun guarded => ?_⟩
      · exact ⟨jobId, by rw [zero]; rfl, known.terminal, moved.succeeded_before held known.terminal some⟩
      · refine meanwhile.2 guarded jobId (by rw [failed]) ?_
        simpa only [Db.jobStatus, known.found, Option.map_some, ne_eq, Option.some.injEq] using uncancelled
  refine obeys_perform fun s₃ io rely inv _ => ?_
  have fair := fair (D.rely rely)
  rcases trySetJobStatus_cases io s₃ jobId (finalStatus row.status agg.numSucceeded) with
    ⟨row', found', legal, ran'⟩ | ⟨ran', _⟩
  · refine ⟨fun moved t ran _ => ?_, fun error t ran _ => by cases ran.symm.trans ran'⟩
    cases ran.symm.trans ran'
    exact ⟨D.gives fair (moveJob_idle (finalStatus_terminal _ _)), D.emit next _⟩
  · refine ⟨fun moved t ran _ => ?_, fun error t ran _ => by cases ran.symm.trans ran'⟩
    cases ran.symm.trans ran'
    exact ⟨D.gives fair (.refl _), next _⟩

/-! ## Rows read before they are reported on -/

theorem requireWorkerPrincipal (D : Dutiful P A C) {workerId : WorkerId} {principal : Principal}
    {k : WorkerRow → Prog α}
    (next : ∀ worker t, Evolves s.live t.live → (k worker).Obeys (machine P) C (fun _ _ => True) t) :
    (Route.requireWorkerPrincipal workerId principal >>= k).Obeys (machine P) C (fun _ _ => True) s := by
  unfold Route.requireWorkerPrincipal
  rw [Program.bind_assoc]
  refine D.step rfl fun s' io found t _ _ before after => ?_
  have moved := before.trans after
  cases found with
  | none => trivial
  | some worker =>
    dsimp only
    split
    · exact next worker t moved
    · split
      · trivial
      · exact next worker t moved

theorem requireTaskReporter (D : Dutiful P A C) {taskId : TaskId} {workerId : WorkerId}
    {principal : Principal} {k : TaskRow → Prog α}
    (next : ∀ row t, Knows t.live row → (k row).Obeys (machine P) C (fun _ _ => True) t) :
    (Route.requireTaskReporter taskId workerId principal >>= k).Obeys (machine P) C
      (fun _ _ => True) s := by
  unfold Route.requireTaskReporter Route.requireTaskWorkerPrincipal
  simp only [Program.bind_assoc]
  refine D.step rfl fun s' io found t _ ran _ after => ?_
  cases found with
  | none => trivial
  | some row =>
    dsimp only
    cases row.workerId with
    | none => trivial
    | some w =>
      dsimp only
      rw [Program.bind_assoc]
      refine D.requireWorkerPrincipal fun worker t' moved => ?_
      have known : Knows s'.live row := by
        have found := getTask_answer ran
        obtain rfl : row.id = taskId := Table.get_key found
        exact ⟨row, found, rfl⟩
      simp only [Program.pure_eq, Program.ret_bind]
      split
      · trivial
      · exact next row t' ((known.later after).later moved)

end Dutiful

end N4Cluster
