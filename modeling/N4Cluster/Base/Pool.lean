import N4Cluster.Base.Program
import Mathlib.Logic.Relation

/-! Pools of programs over one store. Any number of requests may be spawned at
any time; the scheduler lets one program make one call at a time. A restart
drops every program and keeps what the store has made durable. -/
namespace Interleave

structure Thread (Req ω : Type) (res : ω → Type) (ε α : Type) where
  request : Req
  program : Program ω res ε α

structure Pool (Req ω : Type) (res : ω → Type) (ε α σ : Type) where
  store : σ
  threads : List (Thread Req ω res ε α)

inductive Label (Req ι : Type) where
  | spawn (request : Req)
  | sched (thread : Nat) (io : ι)
  | restart

/-- A machine with the program that answers each request. -/
structure System (Req ω : Type) (res : ω → Type) (ε α σ ι : Type) extends
    Machine ω res σ ι where
  handler : Req → Program ω res ε α
  recover : σ → σ

def Program.finished {ω : Type} {res : ω → Type} {ε α : Type} : Program ω res ε α → Bool
  | .ret _ | .raise _ => true
  | .call _ _ => false

variable {Req ω : Type} {res : ω → Type} {ε α σ ι : Type}

/-- No program of the pool is in progress. -/
def Pool.Quiet (p : Pool Req ω res ε α σ) : Prop :=
  ∀ th ∈ p.threads, th.program.finished = true

instance (p : Pool Req ω res ε α σ) : Decidable p.Quiet :=
  inferInstanceAs (Decidable (∀ th ∈ p.threads, _))

/-- The call a thread waits at. -/
def Pool.waiting (p : Pool Req ω res ε α σ) (i : Nat) : Option ω :=
  match p.threads[i]? with
  | some ⟨_, .call op _⟩ => some op
  | _ => none

def System.take (S : System Req ω res ε α σ ι) (p : Pool Req ω res ε α σ) :
    Label Req ι → Option (Pool Req ω res ε α σ)
  | .spawn request => some ⟨p.store, p.threads ++ [⟨request, S.handler request⟩]⟩
  | .sched i io =>
    match p.threads[i]? with
    | some ⟨request, .call op next⟩ =>
      some ⟨(S.exec io op p.store).2,
        p.threads.set i ⟨request, next (S.exec io op p.store).1⟩⟩
    | _ => none
  | .restart => some ⟨S.recover p.store, []⟩

/-- Some request is served whole: nothing else happens meanwhile. -/
def System.Serves (S : System Req ω res ε α σ ι) (s t : σ) : Prop :=
  ∃ request out, (S.handler request).Runs S.toMachine s out t

/-- Requests are served one after another. -/
abbrev System.Serial (S : System Req ω res ε α σ ι) : σ → σ → Prop :=
  Relation.ReflTransGen S.Serves

/-- Serves a list of requests, each with one choice of the environment. -/
def System.serveAll (S : System Req ω res ε α σ ι) [∀ io op s, Decidable (S.valid io op s)] :
    List (Req × ι) → σ → Option σ
  | [], s => some s
  | (request, io) :: rest, s =>
    match (S.handler request).serve S.toMachine io s with
    | some (_, t) => S.serveAll rest t
    | none => none

namespace System
variable {S : System Req ω res ε α σ ι}

theorem serveAll_serial [∀ io op s, Decidable (S.valid io op s)] {requests : List (Req × ι)} {s t : σ}
    (served : S.serveAll requests s = some t) : S.Serial s t := by
  induction requests generalizing s with
  | nil => exact Option.some.inj served ▸ .refl
  | cons first rest ih =>
    simp only [serveAll] at served
    split at served
    · rename_i out u ran
      exact .head ⟨first.1, out, Program.serve_runs ran⟩ (ih served)
    · contradiction

theorem serveAll_any [∀ io op s, Decidable (S.valid io op s)] {requests : List (Req × ι)} {s : σ}
    {f : σ → Bool} (served : (S.serveAll requests s).any f = true) : ∃ t, S.Serial s t ∧ f t = true := by
  obtain ⟨t, reached, holds⟩ := (Option.any_eq_true _ _).mp served
  exact ⟨t, serveAll_serial reached, holds⟩

/-- Requests served whole one after another, each with the store it found, the latest first;
every store left is as it should be. -/
inductive Logs (S : System Req ω res ε α σ ι) (fine : σ → Prop) (start : σ) : List (Req × σ) → σ → Prop where
  | start : Logs S fine start [] start
  | next {log : List (Req × σ)} {s t : σ} {request : Req} {out : Except ε α} : Logs S fine start log s →
      (S.handler request).Runs S.toMachine s out t → fine t → Logs S fine start ((request, s) :: log) t

/-- Serves a list of requests and keeps what each found. -/
def logAll (S : System Req ω res ε α σ ι) (fine : σ → Prop) [∀ io op s, Decidable (S.valid io op s)]
    [DecidablePred fine] : List (Req × ι) → List (Req × σ) → σ → Option (List (Req × σ) × σ)
  | [], log, s => some (log, s)
  | (request, io) :: rest, log, s =>
    match (S.handler request).serve S.toMachine io s with
    | some (_, t) => if fine t then S.logAll fine rest ((request, s) :: log) t else none
    | none => none

theorem logAll_logs {fine : σ → Prop} [∀ io op s, Decidable (S.valid io op s)] [DecidablePred fine]
    {requests : List (Req × ι)} {log : List (Req × σ)} {start s : σ} {out : List (Req × σ) × σ}
    (before : Logs S fine start log s) (served : S.logAll fine requests log s = some out) :
    Logs S fine start out.1 out.2 := by
  induction requests generalizing log s with
  | nil => exact Option.some.inj served ▸ before
  | cons first rest ih =>
    simp only [logAll] at served
    split at served
    · rename_i ran
      split at served
      · rename_i holds
        exact ih (before.next (Program.serve_runs ran) holds) served
      · contradiction
    · contradiction

theorem logAll_any {fine : σ → Prop} [∀ io op s, Decidable (S.valid io op s)] [DecidablePred fine]
    {requests : List (Req × ι)} {start : σ} {f : List (Req × σ) × σ → Bool}
    (served : (S.logAll fine requests [] start).any f = true) :
    ∃ log s, Logs S fine start log s ∧ f (log, s) = true := by
  obtain ⟨out, reached, holds⟩ := (Option.any_eq_true _ _).mp served
  exact ⟨out.1, out.2, logAll_logs .start reached, holds⟩

/-- The environment's choices are valid for the call they are made for. -/
def Lawful (S : System Req ω res ε α σ ι) (p : Pool Req ω res ε α σ) : Label Req ι → Prop
  | .sched i io => ∀ op, p.waiting i = some op → S.valid io op p.store
  | _ => True

instance (S : System Req ω res ε α σ ι) [∀ io op s, Decidable (S.valid io op s)]
    (p : Pool Req ω res ε α σ) : (l : Label Req ι) → Decidable (S.Lawful p l)
  | .spawn _ | .restart => isTrue trivial
  | .sched i io =>
    match waits : p.waiting i with
    | none => isTrue fun _ found => nomatch waits.symm.trans found
    | some op => decidable_of_iff (S.valid io op p.store)
        ⟨fun valid _ found => Option.some.inj (waits.symm.trans found) ▸ valid,
          fun lawful => lawful op waits⟩

/-- Runs every label of which is allowed where it is taken. -/
inductive Reaches (S : System Req ω res ε α σ ι)
    (ok : Pool Req ω res ε α σ → Label Req ι → Prop) :
    Pool Req ω res ε α σ → Pool Req ω res ε α σ → Prop where
  | refl (p) : Reaches S ok p p
  | next : ok p l → S.take p l = some q → Reaches S ok q r → Reaches S ok p r

namespace Reaches
variable {ok : Pool Req ω res ε α σ → Label Req ι → Prop} {p q r : Pool Req ω res ε α σ}

theorem trans (first : Reaches S ok p q) (second : Reaches S ok q r) : Reaches S ok p r := by
  induction first with
  | refl => exact second
  | next allowed stepped _ ih => exact .next allowed stepped (ih second)

theorem snoc (run : Reaches S ok p q) (allowed : ok q l) (stepped : S.take q l = some r) :
    Reaches S ok p r :=
  run.trans (.next allowed stepped (.refl r))

theorem mono {ok' : Pool Req ω res ε α σ → Label Req ι → Prop}
    (weaker : ∀ p l, ok p l → ok' p l) (run : Reaches S ok p q) : Reaches S ok' p q := by
  induction run with
  | refl => exact .refl _
  | next allowed stepped _ ih => exact .next (weaker _ _ allowed) stepped ih

theorem invariant {I : Pool Req ω res ε α σ → Prop}
    (preserves : ∀ {p l q}, I p → ok p l → S.take p l = some q → I q)
    (run : Reaches S ok p q) (initial : I p) : I q := by
  induction run with
  | refl => exact initial
  | next allowed stepped _ ih => exact ih (preserves initial allowed stepped)

/-- What every step keeps between two stores, a whole run keeps. -/
theorem related {I : Pool Req ω res ε α σ → Prop} {R : σ → σ → Prop}
    (refl : ∀ s, R s s) (trans : ∀ {a b c}, R a b → R b c → R a c)
    (preserves : ∀ {p l q}, I p → ok p l → S.take p l = some q → I q ∧ R p.store q.store)
    (run : Reaches S ok p q) (initial : I p) : R p.store q.store := by
  induction run with
  | refl => exact refl _
  | next allowed stepped _ ih =>
    obtain ⟨holds, moved⟩ := preserves initial allowed stepped
    exact trans moved (ih holds)

end Reaches

/-- Every thread still keeps its contract; finished threads keep their outcome's claim. -/
def AllObey (S : System Req ω res ε α σ ι) (C : Req → Contract ω res ε α σ)
    (post : Req → Except ε α → σ → Prop) (p : Pool Req ω res ε α σ) : Prop :=
  ∀ th ∈ p.threads, th.program.Obeys S.toMachine (C th.request) (post th.request) p.store

/-- A scheduled label finds a thread waiting at a call and performs it. -/
theorem sched_cases {p q : Pool Req ω res ε α σ} {i : Nat} {io : ι}
    (stepped : S.take p (.sched i io) = some q) :
    ∃ request op next, p.threads[i]? = some ⟨request, .call op next⟩ ∧
      q = ⟨(S.exec io op p.store).2,
        p.threads.set i ⟨request, next (S.exec io op p.store).1⟩⟩ := by
  simp only [System.take] at stepped
  split at stepped
  · rename_i request op next found
    exact ⟨request, op, next, found, (Option.some.inj stepped).symm⟩
  · contradiction

/-- The rules for a pool of contracts: calls keep the shared invariant, and
what one thread's call gives is within what every other waiting thread relies on. -/
structure Cooperates (S : System Req ω res ε α σ ι)
    (ok : Pool Req ω res ε α σ → Label Req ι → Prop) (C : Req → Contract ω res ε α σ)
    (post : Req → Except ε α → σ → Prop) (inv : σ → Prop) : Prop where
  shared : ∀ request s, inv s → (C request).inv s
  trans : ∀ request op {a b c}, (C request).rely op a b → (C request).rely op b c →
    (C request).rely op a c
  same : ∀ request op s, inv s → (C request).rely op s s
  spawned : ∀ p request, ok p (.spawn request) → inv p.store →
    (S.handler request).Obeys S.toMachine (C request) (post request) p.store
  allowed : ∀ p i io request op next, p.threads[i]? = some ⟨request, .call op next⟩ →
    ok p (.sched i io) → inv p.store → S.valid io op p.store ∧
      (C request).admits op p.store (next (S.exec io op p.store).1)
  keeps : ∀ p i io request op next, p.threads[i]? = some ⟨request, .call op next⟩ →
    ok p (.sched i io) → inv p.store →
    (C request).gives p.store op (next (S.exec io op p.store).1) (S.exec io op p.store).2 →
    inv (S.exec io op p.store).2
  relied : ∀ p i io request op next, p.threads[i]? = some ⟨request, .call op next⟩ →
    ok p (.sched i io) → inv p.store →
    (C request).gives p.store op (next (S.exec io op p.store).1) (S.exec io op p.store).2 →
    ∀ (k : Nat) (th : Thread Req ω res ε α), k ≠ i → p.threads[k]? = some th →
      (∀ op' next', th.program = .call op' next' →
        (C th.request).rely op' p.store (S.exec io op p.store).2) ∧
      ∀ out, post th.request out p.store → post th.request out (S.exec io op p.store).2
  recovers : ∀ p, ok p .restart → inv p.store → inv (S.recover p.store)

namespace Cooperates
variable {ok : Pool Req ω res ε α σ → Label Req ι → Prop} {C : Req → Contract ω res ε α σ}
  {post : Req → Except ε α → σ → Prop} {inv : σ → Prop} {p q : Pool Req ω res ε α σ}

/-- The guarantee of the call a scheduled thread is about to make. -/
theorem given (rules : Cooperates S ok C post inv) (holds : inv p.store)
    (obey : AllObey S C post p) (found : p.threads[i]? = some ⟨request, .call op next⟩)
    (allowed : ok p (.sched i io)) :
    (C request).gives p.store op (next (S.exec io op p.store).1) (S.exec io op p.store).2 ∧
      (next (S.exec io op p.store).1).Obeys S.toMachine (C request) (post request)
        (S.exec io op p.store).2 := by
  have member := List.mem_of_getElem? found
  obtain ⟨valid, admitted⟩ := rules.allowed p i io request op next found allowed holds
  exact obey _ member p.store (rules.same _ _ _ holds) (rules.shared _ _ holds) io valid admitted

theorem step (rules : Cooperates S ok C post inv) (holds : inv p.store)
    (obey : AllObey S C post p) (allowed : ok p l) (stepped : S.take p l = some q) :
    inv q.store ∧ AllObey S C post q := by
  cases l with
  | spawn request =>
    cases Option.some.inj stepped
    refine ⟨holds, fun th member => ?_⟩
    rcases List.mem_append.mp member with old | new
    · exact obey th old
    · rw [List.mem_singleton.mp new]
      exact rules.spawned p request allowed holds
  | restart =>
    cases Option.some.inj stepped
    exact ⟨rules.recovers p allowed holds, fun th member => nomatch member⟩
  | sched i io =>
    obtain ⟨request, op, next, found, rfl⟩ := sched_cases stepped
    obtain ⟨gives, rest⟩ := rules.given holds obey found allowed
    refine ⟨rules.keeps p i io request op next found allowed holds gives, fun th member => ?_⟩
    obtain ⟨k, place⟩ := List.mem_iff_getElem?.mp member
    by_cases here : k = i
    · subst here
      have bound := (List.getElem?_eq_some_iff.mp found).1
      rw [List.getElem?_set_self bound] at place
      cases Option.some.inj place
      exact rest
    · rw [List.getElem?_set_ne (Ne.symm here)] at place
      obtain ⟨waits, done⟩ :=
        rules.relied p i io request op next found allowed holds gives k th here place
      have kept := obey th (List.mem_of_getElem? place)
      obtain ⟨r, program⟩ := th
      cases program with
      | ret value => exact done _ kept
      | raise error => exact done _ kept
      | call op' next' =>
        exact Program.Obeys.wait (rules.trans r op') kept (waits op' next' rfl)

theorem run (rules : Cooperates S ok C post inv) (run : Reaches S ok p q)
    (holds : inv p.store) (obey : AllObey S C post p) : inv q.store ∧ AllObey S C post q :=
  run.invariant (I := fun p => inv p.store ∧ AllObey S C post p)
    (fun both allowed stepped => rules.step both.1 both.2 allowed stepped) ⟨holds, obey⟩

end Cooperates

/-- Plays a list of labels, checking each where it is taken. -/
def play (S : System Req ω res ε α σ ι) (ok : Pool Req ω res ε α σ → Label Req ι → Prop)
    [∀ p l, Decidable (ok p l)] :
    List (Label Req ι) → Pool Req ω res ε α σ → Option (Pool Req ω res ε α σ)
  | [], p => some p
  | l :: rest, p =>
    if ok p l then
      match S.take p l with
      | some q => S.play ok rest q
      | none => none
    else none

theorem play_reaches {ok : Pool Req ω res ε α σ → Label Req ι → Prop} [∀ p l, Decidable (ok p l)]
    {labels : List (Label Req ι)} {p q : Pool Req ω res ε α σ}
    (played : S.play ok labels p = some q) : Reaches S ok p q := by
  induction labels generalizing p with
  | nil => exact Option.some.inj played ▸ .refl p
  | cons l rest ih =>
    simp only [play] at played
    split at played
    · rename_i allowed
      split at played
      · rename_i stepped
        exact .next allowed stepped (ih played)
      · contradiction
    · contradiction

theorem play_any {ok : Pool Req ω res ε α σ → Label Req ι → Prop} [∀ p l, Decidable (ok p l)]
    {labels : List (Label Req ι)} {p : Pool Req ω res ε α σ} {f : Pool Req ω res ε α σ → Bool}
    (played : (S.play ok labels p).any f = true) : ∃ q, Reaches S ok p q ∧ f q = true := by
  cases reached : S.play ok labels p with
  | none =>
    rw [reached] at played
    contradiction
  | some q =>
    rw [reached] at played
    exact ⟨q, play_reaches reached, played⟩

end System
end Interleave
