import N4Cluster.Server.Handling

/-! Runs of the server: every thread keeps its duty, so the store stays sound, it
evolves, and a job left stuck is owed by some thread in progress. -/
namespace N4Cluster
open Relational Transactional Relation Interleave

abbrev ServerPool := Pool Request Call Call.Ret Fault Reply (Session Db)

abbrev Turn := Label Request Io

/-- The pool of a server started on an empty store. -/
def started : ServerPool := ⟨.settled {}, []⟩

/-- The rest of a program after the call it waits at is answered. -/
def ServerPool.residual (p : ServerPool) (P : Platform) (i : Nat) (io : Io) : Option (Prog Reply) :=
  match p.threads[i]? with
  | some ⟨_, .call c next⟩ => some (next (c.op.exec P io p.store).1)
  | _ => none

/-- The job a call makes `cancelling`. -/
def Call.cancelling (c : Call) : Option JobId :=
  match c.op with
  | .setJobStatus jobId .cancelling _ => some jobId
  | _ => none

/-- The job to which a thread is about to write `failed`. -/
def ServerPool.failing (p : ServerPool) (k : Nat) : Option JobId :=
  match p.waiting k with
  | some ⟨_, .trySetJobStatus jobId .failed⟩ => some jobId
  | _ => none

/-- A job becomes `cancelling` while another thread is about to write `failed`. -/
def Unguarded (p : ServerPool) (i : Nat) (c : Call) : Prop :=
  ∃ jobId, c.cancelling = some jobId ∧ ∃ k < p.threads.length, k ≠ i ∧ p.failing k = some jobId

/-- The turns the assumptions speak of. -/
structure Assumptions.Allows (A : Assumptions) (P : Platform) (p : ServerPool) (l : Turn) : Prop where
  guarded : A.guarded → ∀ i io c, l = .sched i io → p.waiting i = some c → ¬Unguarded p i c
  counted : A.counted → ∀ i io c, l = .sched i io → p.waiting i = some c → ¬Miscounts p.store c
  completes : A.completes → ∀ i io r, l = .sched i io → p.residual P i io = some r → ¬Failing r
  readable : A.readable → p.store.live.readable P = true
  heard : A.heard → ∀ i io c, l = .sched i io → p.waiting i = some c → ¬Refuses P p.store c
  restarts : A.Ends → l = .restart → ∀ jobId, ¬p.store.live.Stuck jobId

theorem waiting_of {p : ServerPool} {i : Nat} {request : Request} {c : Call}
    {next : Call.Ret c → Prog Reply} (found : p.threads[i]? = some ⟨request, .call c next⟩) :
    p.waiting i = some c := by
  simp only [Pool.waiting, found]

theorem Meanwhile.refl {A : Assumptions} (c : Call) (s : Session Db) : Meanwhile A c s s :=
  ⟨.refl _, fun _ _ _ still => still⟩

theorem Meanwhile.trans {A : Assumptions} {c : Call} {r s t : Session Db} (first : Meanwhile A c r s)
    (second : Meanwhile A c s t) : Meanwhile A c r t :=
  ⟨first.1.trans second.1, fun guarded jobId here still =>
    second.2 guarded jobId here (first.2 guarded jobId here still)⟩

section
variable {P : Platform} {config : ServerConfig} {A : Assumptions} {p q : ServerPool} {l : Turn}

/-- Only `set_job_status` makes a job `cancelling`. -/
theorem exec_not_cancelling {io : Io} {op : DbOp} {s : Session Db} (routed : op.routed = true)
    {jobId : JobId} (other : ∀ error, op ≠ .setJobStatus jobId .cancelling error)
    (still : s.live.jobStatus jobId ≠ some .cancelling) :
    (op.after P io s).live.jobStatus jobId ≠ some .cancelling := by
  intro cancelling
  rcases exec_status_origin cancelling with before | sets
  · exact still before
  · cases op with
    | setJobStatus k status error =>
      obtain ⟨rfl, rfl⟩ := sets
      exact other error rfl
    | trySetJobStatus k new =>
      obtain ⟨rfl, rfl⟩ := sets
      contradiction
    | _ => contradiction

/-- What the rules of a pool need of a label. -/
abbrev Allowed (P : Platform) (config : ServerConfig) (A : Assumptions) (p : ServerPool) (l : Turn) :
    Prop :=
  (server P config).Lawful p l ∧ A.Allows P p l

theorem pool_rules (P : Platform) (config : ServerConfig) (A : Assumptions) :
    System.Cooperates (server P config) (Allowed P config A) (fun _ => duty P A)
      (fun _ _ _ => True) Sound where
  shared _ _ sound := sound
  trans _ _ _ _ _ first second := first.trans second
  same _ c s _ := .refl c s
  spawned _ request _ _ := handler_obeys request _
  allowed p i io request c next found allowed _ := by
    have waits := waiting_of found
    refine ⟨allowed.1 c waits, fun completes => ?_, allowed.2.readable, fun counted => ?_, fun heard => ?_⟩
    · refine allowed.2.completes completes i io _ rfl ?_
      simp only [ServerPool.residual, found]
      rfl
    · exact allowed.2.counted counted i io c rfl waits
    · exact allowed.2.heard heard i io c rfl waits
  keeps p i io request c next found allowed sound gives :=
    (exec_sound (P := P) gives.1.routed (allowed.1 c (waiting_of found)) sound).1
  relied p i io request c next found allowed sound gives k th other place := by
    have routed := gives.1.routed
    refine ⟨fun c' next' waits => ⟨(exec_sound (P := P) routed (allowed.1 c (waiting_of found)) sound).2,
      fun guarded jobId here still => ?_⟩, fun _ _ => trivial⟩
    refine exec_not_cancelling routed (fun error set => ?_) still
    have bound := (List.getElem?_eq_some_iff.mp place).1
    refine allowed.2.guarded guarded i io c rfl (waiting_of found)
      ⟨jobId, by rw [Call.cancelling, set], k, bound, other, ?_⟩
    obtain ⟨r, program⟩ := th
    subst waits
    obtain ⟨site, op⟩ := c'
    cases here
    simp only [ServerPool.failing, waiting_of place]
  recovers p _ sound := by
    rw [sound.settled]
    exact ⟨rfl, sound.good⟩

theorem started_sound : Sound started.store := ⟨rfl, empty_good⟩

/-- Every thread of the pool keeps its duty, and the store is sound. -/
def Keeping (P : Platform) (config : ServerConfig) (A : Assumptions) (p : ServerPool) : Prop :=
  Sound p.store ∧ System.AllObey (server P config) (fun _ => duty P A) (fun _ _ _ => True) p

theorem started_keeping : Keeping P config A started := ⟨started_sound, fun _ member => nomatch member⟩

theorem Keeping.step (keeping : Keeping P config A p) (allowed : Allowed P config A p l)
    (stepped : (server P config).take p l = some q) : Keeping P config A q :=
  (pool_rules P config A).step keeping.1 keeping.2 allowed stepped

/-- What a turn does to the store: nothing, or one call of a thread that gives what it owes. -/
theorem Keeping.cases (keeping : Keeping P config A p) (allowed : Allowed P config A p l)
    (stepped : (server P config).take p l = some q) :
    (q.store = p.store ∧ ∀ i io, l ≠ .sched i io) ∨
    ∃ i io request c next, l = .sched i io ∧ p.threads[i]? = some ⟨request, .call c next⟩ ∧
      Fresh io p.store.live c.op ∧ Fair A p.store.live c.op ∧
      q = ⟨c.op.after P io p.store,
        p.threads.set i ⟨request, next (c.op.exec P io p.store).1⟩⟩ ∧
      (duty P A).gives p.store c (next (c.op.exec P io p.store).1) (c.op.after P io p.store) := by
  cases l with
  | spawn request =>
    cases Option.some.inj stepped
    exact .inl ⟨rfl, nofun⟩
  | restart =>
    cases Option.some.inj stepped
    refine .inl ⟨?_, nofun⟩
    change Session.settled p.store.disk = p.store
    rw [keeping.1.settled]
    rfl
  | sched i io =>
    obtain ⟨request, c, next, found, rfl⟩ := System.sched_cases stepped
    obtain ⟨gives, _⟩ := (pool_rules P config A).given keeping.1 keeping.2 found allowed
    exact .inr ⟨i, io, request, c, next, rfl, found, allowed.1 c (waiting_of found), gives.1, rfl, gives⟩

theorem Keeping.evolves (keeping : Keeping P config A p) (allowed : Allowed P config A p l)
    (stepped : (server P config).take p l = some q) : Evolves p.store.live q.store.live := by
  rcases keeping.cases allowed stepped with ⟨same, _⟩ | ⟨i, io, _, c, _, _, _, fresh, fair, rfl, _⟩
  · rw [same]
    exact .refl _
  · exact (exec_sound (P := P) fair.routed fresh keeping.1).2

/-- Every stuck job is owed by a thread. -/
def Covered (P : Platform) (A : Assumptions) (p : ServerPool) : Prop :=
  ∀ jobId, p.store.live.Stuck jobId → ∃ th ∈ p.threads, Owes P A jobId th.program p.store

theorem started_covered : Covered P A started := by
  intro jobId stuck
  obtain ⟨⟨row, found, _⟩, _⟩ := stuck
  simp [started, Session.settled] at found

/-- A finished thread owes nothing that is not paid. -/
theorem Owes.unfinished {jobId : JobId} {program : Prog Reply} {s : Session Db}
    (owes : Owes P A jobId program s) (stuck : s.live.Stuck jobId) : program.finished = false := by
  cases program with
  | ret value => exact False.elim (stuck.unsettled owes)
  | raise error => exact False.elim (stuck.unsettled owes)
  | call c next => rfl

/-- The debt of a thread while another makes its call. -/
theorem Owes.wait {jobId : JobId} {program : Prog Reply} {s t : Session Db}
    (owes : Owes P A jobId program s) (stuck : s.live.Stuck jobId) (moved : Evolves s.live t.live)
    (same : t.live.jobStatus jobId = s.live.jobStatus jobId) : Owes P A jobId program t := by
  cases program with
  | ret value => exact False.elim (stuck.unsettled owes)
  | raise error => exact False.elim (stuck.unsettled owes)
  | call c next =>
    refine Program.Obeys.wait (fun first second => ⟨first.1.trans second.1, ?_⟩) owes ⟨moved, .inl same⟩
    rcases second.2 with same' | done
    · rcases first.2 with same | done
      · exact .inl (same'.trans same)
      · exact .inr (second.1.settled done)
    · exact .inr done

theorem Covered.step (ends : A.Ends) (keeping : Keeping P config A p) (covered : Covered P A p)
    (allowed : Allowed P config A p l) (stepped : (server P config).take p l = some q) :
    Covered P A q := by
  intro jobId stuck
  cases l with
  | spawn request =>
    cases Option.some.inj stepped
    obtain ⟨th, member, owes⟩ := covered jobId stuck
    exact ⟨th, List.mem_append_left _ member, owes⟩
  | restart =>
    rcases keeping.cases allowed stepped with ⟨same, _⟩ | ⟨_, _, _, _, _, here, _⟩
    · rw [same] at stuck
      exact False.elim (allowed.2.restarts ends rfl jobId stuck)
    · contradiction
  | sched i io =>
    rcases keeping.cases allowed stepped with ⟨_, other⟩ | ⟨_, _, request, c, next, here, found, fresh, fair, rfl, gives⟩
    · exact False.elim (other i io rfl)
    · cases here
      have moved := (exec_sound (P := P) fair.routed fresh keeping.1).2
      have bound := (List.getElem?_eq_some_iff.mp found).1
      rcases gives.2 ends jobId stuck with ⟨before, same⟩ | owes
      · obtain ⟨th, member, owes⟩ := covered jobId before
        obtain ⟨k, place⟩ := List.mem_iff_getElem?.mp member
        by_cases mine : k = i
        · subst mine
          cases found.symm.trans place
          refine ⟨_, List.mem_of_getElem? (List.getElem?_set_self bound), ?_⟩
          refine (owes p.store ⟨.refl _, .inl rfl⟩ ⟨keeping.1, before.2, before.held⟩ io fresh
            ⟨fun completes => ?_, allowed.2.readable, fun heard => ?_⟩).2
          · exact allowed.2.completes completes k io _ rfl (by simp only [ServerPool.residual, found]; rfl)
          · exact allowed.2.heard heard k io c rfl (waiting_of found)
        · refine ⟨th, List.mem_of_getElem? ((List.getElem?_set_ne (Ne.symm mine)).trans place), ?_⟩
          exact owes.wait before moved same
      · exact ⟨_, List.mem_of_getElem? (List.getElem?_set_self bound), owes⟩

/-- A run from the start keeps every thread to its duty. -/
theorem run_keeping (run : System.Reaches (server P config) (Allowed P config A) started p) :
    Keeping P config A p :=
  run.invariant (I := Keeping P config A) (fun keeping allowed stepped => keeping.step allowed stepped)
    started_keeping

/-- Where nothing is in progress, no job is stuck. -/
theorem run_quiet (ends : A.Ends) (run : System.Reaches (server P config) (Allowed P config A) started p)
    (quiet : p.Quiet) (jobId : JobId) : ¬p.store.live.Stuck jobId := by
  intro stuck
  have both := run.invariant (I := fun p => Keeping P config A p ∧ Covered P A p)
    (fun both allowed stepped => ⟨both.1.step allowed stepped,
      both.2.step ends both.1 allowed stepped⟩) ⟨started_keeping, started_covered⟩
  obtain ⟨th, member, owes⟩ := both.2 jobId stuck
  exact nomatch (quiet th member).symm.trans (owes.unfinished stuck)

end
end N4Cluster
