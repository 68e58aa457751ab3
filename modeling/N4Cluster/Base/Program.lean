import Mathlib.Tactic.Common

/-! Programs that act on a shared store through atomic calls. A program is the
tree of its calls; between two calls any other program may act. `Obeys` is the
rely/guarantee judgment for one program, `Runs` its uninterrupted execution. -/
namespace Interleave

/-- A program with calls in `ω` answered in `res`, failures in `ε` and results in `α`. -/
inductive Program (ω : Type) (res : ω → Type) (ε α : Type) : Type where
  | ret (value : α)
  | raise (error : ε)
  | call (op : ω) (next : res op → Program ω res ε α)

namespace Program
variable {ω : Type} {res : ω → Type} {ε α β γ : Type}

def bind : Program ω res ε α → (α → Program ω res ε β) → Program ω res ε β
  | ret value, k => k value
  | raise error, _ => raise error
  | call op next, k => call op fun answer => (next answer).bind k

/-- `try ... except`: a failure continues with the handler. -/
def handle : Program ω res ε α → (ε → Program ω res ε α) → Program ω res ε α
  | ret value, _ => ret value
  | raise error, k => k error
  | call op next, k => call op fun answer => (next answer).handle k

/-- `try ... finally`: the last part runs however the body ends. -/
def ensure : Program ω res ε α → Program ω res ε Unit → Program ω res ε α
  | ret value, last => last.bind fun _ => ret value
  | raise error, last => last.bind fun _ => raise error
  | call op next, last => call op fun answer => (next answer).ensure last

instance : Monad (Program ω res ε) where
  pure := ret
  bind := bind

@[simp] theorem pure_eq (value : α) : (pure value : Program ω res ε α) = ret value := rfl

@[simp] theorem ret_bind (value : α) (k : α → Program ω res ε β) :
    (ret value : Program ω res ε α) >>= k = k value := rfl

@[simp] theorem raise_bind (error : ε) (k : α → Program ω res ε β) :
    (raise error : Program ω res ε α) >>= k = raise error := rfl

@[simp] theorem call_bind (op : ω) (next : res op → Program ω res ε α)
    (k : α → Program ω res ε β) :
    call op next >>= k = call op fun answer => next answer >>= k := rfl

@[simp] theorem ret_handle (value : α) (k : ε → Program ω res ε α) :
    (ret value).handle k = ret value := rfl

@[simp] theorem raise_handle (error : ε) (k : ε → Program ω res ε α) :
    (raise error).handle k = k error := rfl

@[simp] theorem call_handle (op : ω) (next : res op → Program ω res ε α)
    (k : ε → Program ω res ε α) :
    (call op next).handle k = call op fun answer => (next answer).handle k := rfl

theorem bind_assoc (p : Program ω res ε α) (k : α → Program ω res ε β)
    (l : β → Program ω res ε γ) : p >>= k >>= l = p >>= fun value => k value >>= l := by
  induction p with
  | ret value => rfl
  | raise error => rfl
  | call op next ih => exact congrArg (call op) (funext ih)

theorem bind_ret (p : Program ω res ε α) : p >>= ret = p := by
  induction p with
  | ret value => rfl
  | raise error => rfl
  | call op next ih => exact congrArg (call op) (funext ih)

/-- Every call the program can still make satisfies `P`. -/
def AllCalls (P : ω → Prop) : Program ω res ε α → Prop
  | ret _ | raise _ => True
  | call op next => P op ∧ ∀ answer, (next answer).AllCalls P

theorem AllCalls.bind {P : ω → Prop} {p : Program ω res ε α} {k : α → Program ω res ε β}
    (first : p.AllCalls P) (second : ∀ value, (k value).AllCalls P) : (p >>= k).AllCalls P := by
  induction p with
  | ret value => exact second value
  | raise error => trivial
  | call op next ih => exact ⟨first.1, fun answer => ih answer (first.2 answer)⟩

theorem AllCalls.handle {P : ω → Prop} {p : Program ω res ε α} {k : ε → Program ω res ε α}
    (first : p.AllCalls P) (second : ∀ error, (k error).AllCalls P) :
    (p.handle k).AllCalls P := by
  induction p with
  | ret value => trivial
  | raise error => exact second error
  | call op next ih => exact ⟨first.1, fun answer => ih answer (first.2 answer)⟩

theorem AllCalls.ensure {P : ω → Prop} {p : Program ω res ε α} {last : Program ω res ε Unit}
    (body : p.AllCalls P) (ending : last.AllCalls P) : (p.ensure last).AllCalls P := by
  induction p with
  | ret value => exact AllCalls.bind ending fun _ => trivial
  | raise error => exact AllCalls.bind ending fun _ => trivial
  | call op next ih => exact ⟨body.1, fun answer => ih answer (body.2 answer)⟩

theorem AllCalls.mono {P Q : ω → Prop} {p : Program ω res ε α} (weaker : ∀ op, P op → Q op)
    (all : p.AllCalls P) : p.AllCalls Q := by
  induction p with
  | ret value => trivial
  | raise error => trivial
  | call op next ih => exact ⟨weaker op all.1, fun answer => ih answer (all.2 answer)⟩

theorem AllCalls.always {P : ω → Prop} (all : ∀ op, P op) (p : Program ω res ε α) : p.AllCalls P := by
  induction p with
  | ret value => trivial
  | raise error => trivial
  | call op next ih => exact ⟨all op, ih⟩

/-- Every value the program can still return satisfies `Q`. -/
def Returns (Q : α → Prop) : Program ω res ε α → Prop
  | ret value => Q value
  | raise _ => True
  | call _ next => ∀ answer, (next answer).Returns Q

theorem Returns.bind {Q : β → Prop} {p : Program ω res ε α} {k : α → Program ω res ε β}
    (later : ∀ value, (k value).Returns Q) : (p >>= k).Returns Q := by
  induction p with
  | ret value => exact later value
  | raise error => trivial
  | call op next ih => exact ih

theorem Returns.mono {P Q : α → Prop} {p : Program ω res ε α} (weaker : ∀ value, P value → Q value)
    (all : p.Returns P) : p.Returns Q := by
  induction p with
  | ret value => exact weaker value all
  | raise error => trivial
  | call op next ih => exact fun answer => ih answer (all answer)

/-- Whatever it is answered within `A`, the program comes to a call in `R`. -/
def Meets (A : (op : ω) → res op → Prop) (R : ω → Prop) : Program ω res ε α → Prop
  | ret _ | raise _ => False
  | call op next => R op ∨ ∀ answer, A op answer → (next answer).Meets A R

/-- Whatever it is answered within `A`, the program does not fail. -/
def Smooth (A : (op : ω) → res op → Prop) : Program ω res ε α → Prop
  | ret _ => True
  | raise _ => False
  | call op next => ∀ answer, A op answer → (next answer).Smooth A

section
variable {A : (op : ω) → res op → Prop} {R : ω → Prop}

theorem Smooth.meets {p : Program ω res ε α} {k : α → Program ω res ε β} (smooth : p.Smooth A)
    (later : ∀ value, (k value).Meets A R) : (p >>= k).Meets A R := by
  induction p with
  | ret value => exact later value
  | raise error => exact False.elim smooth
  | call op next ih => exact .inr fun answer given => ih answer (smooth answer given)

theorem Meets.bind {p : Program ω res ε α} {k : α → Program ω res ε β} (meets : p.Meets A R) :
    (p >>= k).Meets A R := by
  induction p with
  | ret value => exact False.elim meets
  | raise error => exact False.elim meets
  | call op next ih => exact meets.imp_right fun later answer given => ih answer (later answer given)

theorem Meets.handle {p : Program ω res ε α} {k : ε → Program ω res ε α} (meets : p.Meets A R) :
    (p.handle k).Meets A R := by
  induction p with
  | ret value => exact False.elim meets
  | raise error => exact False.elim meets
  | call op next ih => exact meets.imp_right fun later answer given => ih answer (later answer given)

end

/-- The loop `for item in items: body item`. -/
def forEach {ι : Type} (items : List ι) (body : ι → Program ω res ε Unit) :
    Program ω res ε Unit :=
  match items with
  | [] => ret ()
  | item :: rest => do
    body item
    forEach rest body

theorem AllCalls.forEach {ι : Type} {P : ω → Prop} {body : ι → Program ω res ε Unit}
    (items : List ι) (each : ∀ item ∈ items, (body item).AllCalls P) :
    (Program.forEach items body).AllCalls P := by
  induction items with
  | nil => trivial
  | cons item rest ih =>
    exact (each item List.mem_cons_self).bind fun _ =>
      ih fun other member => each other (List.mem_cons_of_mem _ member)

theorem Smooth.forEach {ι : Type} {A : (op : ω) → res op → Prop} {body : ι → Program ω res ε Unit}
    (items : List ι) (each : ∀ item, (body item).Smooth A) : (Program.forEach items body).Smooth A := by
  induction items with
  | nil => trivial
  | cons item rest ih =>
    have first := each item
    change (body item >>= fun _ => Program.forEach rest body).Smooth A
    generalize body item = p at first
    induction p with
    | ret value => exact ih
    | raise error => exact first
    | call op next later => exact fun answer given => later answer (first answer given)

end Program

/-- How a call acts on the store. The input `ι` supplies what the environment
chooses (a clock reading, fresh names); `valid` limits that choice. -/
structure Machine (ω : Type) (res : ω → Type) (σ ι : Type) where
  exec : ι → (op : ω) → σ → res op × σ
  valid : ι → ω → σ → Prop

/-- What one program may assume and must provide while others act: `inv` holds
whenever it acts, `rely` bounds what happens while it waits at a call, `admits`
is assumed and `gives` is owed of its own calls (the rest of the program after
the call is an argument of both). -/
structure Contract (ω : Type) (res : ω → Type) (ε α σ : Type) where
  inv : σ → Prop
  rely : ω → σ → σ → Prop
  admits : ω → σ → Program ω res ε α → Prop
  gives : σ → ω → Program ω res ε α → σ → Prop

/-- The contract of a program that runs inside another: it is judged with what
is around it. -/
def Contract.under {ω : Type} {res : ω → Type} {ε α β σ : Type} (C : Contract ω res ε β σ)
    (around : Program ω res ε α → Program ω res ε β) : Contract ω res ε α σ where
  inv := C.inv
  rely := C.rely
  admits op s r := C.admits op s (around r)
  gives s op r t := C.gives s op (around r) t

namespace Program
variable {ω : Type} {res : ω → Type} {ε α β σ ι : Type} {M : Machine ω res σ ι}

def Obeys (M : Machine ω res σ ι) (C : Contract ω res ε α σ) (post : Except ε α → σ → Prop) :
    Program ω res ε α → σ → Prop
  | ret value, s => post (.ok value) s
  | raise error, s => post (.error error) s
  | call op next, s => ∀ s', C.rely op s s' → C.inv s' → ∀ io, M.valid io op s' →
      C.admits op s' (next (M.exec io op s').1) →
      C.gives s' op (next (M.exec io op s').1) (M.exec io op s').2 ∧
        (next (M.exec io op s').1).Obeys M C post (M.exec io op s').2

/-- A waiting program keeps its judgment while the others keep to its rely. -/
theorem Obeys.wait {C : Contract ω res ε α σ} {post : Except ε α → σ → Prop} {op : ω}
    {next : res op → Program ω res ε α} {s t : σ}
    (trans : ∀ {a b c}, C.rely op a b → C.rely op b c → C.rely op a c)
    (obeys : (call op next).Obeys M C post s) (moved : C.rely op s t) :
    (call op next).Obeys M C post t :=
  fun s' later => obeys s' (trans moved later)

/-- Less may be admitted, less given and less concluded. -/
theorem Obeys.mono {C D : Contract ω res ε α σ} {post post' : Except ε α → σ → Prop}
    {p : Program ω res ε α} {s : σ} (obeys : p.Obeys M C post s)
    (relies : ∀ op s t, D.rely op s t → C.rely op s t) (invs : ∀ s, D.inv s → C.inv s)
    (admits : ∀ op s r, D.admits op s r → C.admits op s r)
    (gives : ∀ s op r t, C.gives s op r t → D.gives s op r t)
    (posts : ∀ out s, post out s → post' out s) : p.Obeys M D post' s := by
  induction p generalizing s with
  | ret value => exact posts _ _ obeys
  | raise error => exact posts _ _ obeys
  | call op next ih =>
    intro s' rely inv io valid admitted
    obtain ⟨given, rest⟩ := obeys s' (relies _ _ _ rely) (invs _ inv) io valid
      (admits _ _ _ admitted)
    exact ⟨gives _ _ _ _ given, ih _ rest⟩

/-- Sequencing: the first part is judged as followed by the second. -/
theorem Obeys.bind {C : Contract ω res ε β σ} {Q : Except ε α → σ → Prop}
    {post : Except ε β → σ → Prop} {p : Program ω res ε α} {k : α → Program ω res ε β} {s : σ}
    (first : p.Obeys M (C.under (· >>= k)) Q s)
    (second : ∀ value s, Q (.ok value) s → (k value).Obeys M C post s)
    (failed : ∀ error s, Q (.error error) s → post (.error error) s) :
    (p >>= k).Obeys M C post s := by
  induction p generalizing s with
  | ret value => exact second value s first
  | raise error => exact failed error s first
  | call op next ih =>
    intro s' rely inv io valid admitted
    obtain ⟨given, rest⟩ := first s' rely inv io valid admitted
    exact ⟨given, ih _ rest⟩

/-- `try ... except`: the body is judged as handled. -/
theorem Obeys.handle {C : Contract ω res ε α σ} {Q post : Except ε α → σ → Prop}
    {p : Program ω res ε α} {k : ε → Program ω res ε α} {s : σ}
    (first : p.Obeys M (C.under fun r => r.handle k) Q s)
    (returned : ∀ value s, Q (.ok value) s → post (.ok value) s)
    (failed : ∀ error s, Q (.error error) s → (k error).Obeys M C post s) :
    (p.handle k).Obeys M C post s := by
  induction p generalizing s with
  | ret value => exact returned value s first
  | raise error => exact failed error s first
  | call op next ih =>
    intro s' rely inv io valid admitted
    obtain ⟨given, rest⟩ := first s' rely inv io valid admitted
    exact ⟨given, ih _ rest⟩

/-- A program whose calls are all harmless obeys every contract that harmless
calls satisfy wherever they are made. -/
theorem AllCalls.obeys {C : Contract ω res ε α σ} {P : ω → Prop} {p : Program ω res ε α}
    (all : p.AllCalls P)
    (harmless : ∀ op, P op → ∀ io s r, C.inv s → M.valid io op s →
      C.gives s op r (M.exec io op s).2) (s : σ) :
    p.Obeys M C (fun _ _ => True) s := by
  induction p generalizing s with
  | ret value => trivial
  | raise error => trivial
  | call op next ih =>
    intro s' _ inv io valid _
    exact ⟨harmless op all.1 io s' _ inv valid, ih _ (all.2 _) _⟩

/-- Uninterrupted execution from a store to an outcome and a store. -/
inductive Runs (M : Machine ω res σ ι) :
    Program ω res ε α → σ → Except ε α → σ → Prop where
  | ret : Runs M (ret value) s (.ok value) s
  | raise : Runs M (raise error) s (.error error) s
  | call : M.valid io op s → Runs M (next (M.exec io op s).1) (M.exec io op s).2 out t →
      Runs M (call op next) s out t

/-- Runs a program with one choice of the environment for all its calls. -/
def serve (M : Machine ω res σ ι) [∀ io op s, Decidable (M.valid io op s)] (io : ι) :
    Program ω res ε α → σ → Option (Except ε α × σ)
  | ret value, s => some (.ok value, s)
  | raise error, s => some (.error error, s)
  | call op next, s =>
    if M.valid io op s then (next (M.exec io op s).1).serve M io (M.exec io op s).2 else none

theorem serve_runs [∀ io op s, Decidable (M.valid io op s)] {io : ι} {p : Program ω res ε α} {s t : σ}
    {out : Except ε α} (served : p.serve M io s = some (out, t)) : p.Runs M s out t := by
  induction p generalizing s with
  | ret value =>
    cases served
    exact .ret
  | raise error =>
    cases served
    exact .raise
  | call op next ih =>
    simp only [serve] at served
    split at served
    · rename_i valid
      exact .call valid (ih _ served)
    · contradiction

/-- The run of a sequence is a run of its first part, and of its second if that returned. -/
theorem Runs.of_bind {p : Program ω res ε α} {k : α → Program ω res ε β} {s t : σ}
    {out : Except ε β} (run : (p >>= k).Runs M s out t) :
    ∃ first u, p.Runs M s first u ∧ match first with
      | .ok value => (k value).Runs M u out t
      | .error error => out = .error error ∧ t = u := by
  induction p generalizing s with
  | ret value => exact ⟨.ok value, s, .ret, run⟩
  | raise error =>
    cases run
    exact ⟨.error error, _, .raise, rfl, rfl⟩
  | call op next ih =>
    cases run with
    | call valid rest =>
      obtain ⟨first, u, ran, later⟩ := ih _ rest
      exact ⟨first, u, .call valid ran, later⟩

/-- The run of a handled program is its body's, and its handler's if the body failed. -/
theorem Runs.of_handle {p : Program ω res ε α} {k : ε → Program ω res ε α} {s t : σ}
    {out : Except ε α} (run : (p.handle k).Runs M s out t) :
    ∃ first u, p.Runs M s first u ∧ match first with
      | .ok value => out = .ok value ∧ t = u
      | .error error => (k error).Runs M u out t := by
  induction p generalizing s with
  | ret value =>
    cases run
    exact ⟨.ok value, _, .ret, rfl, rfl⟩
  | raise error => exact ⟨.error error, s, .raise, run⟩
  | call op next ih =>
    cases run with
    | call valid rest =>
      obtain ⟨first, u, ran, later⟩ := ih _ rest
      exact ⟨first, u, .call valid ran, later⟩

/-- What every call keeps, a whole run keeps. -/
theorem AllCalls.keeps {P : ω → Prop} {p : Program ω res ε α} {I : σ → Prop} {s t : σ}
    {out : Except ε α} (all : p.AllCalls P)
    (kept : ∀ io op s, P op → M.valid io op s → I s → I (M.exec io op s).2)
    (run : p.Runs M s out t) (holds : I s) : I t := by
  induction run with
  | ret => exact holds
  | raise => exact holds
  | call valid _ ih => exact ih (all.2 _) (kept _ _ _ all.1 valid holds)

/-- A program whose calls can always be answered comes to an end. -/
theorem AllCalls.ends {P : ω → Prop} {p : Program ω res ε α} (all : p.AllCalls P)
    (able : ∀ op s, P op → ∃ io, M.valid io op s) (s : σ) : ∃ out t, p.Runs M s out t := by
  induction p generalizing s with
  | ret value => exact ⟨_, _, .ret⟩
  | raise error => exact ⟨_, _, .raise⟩
  | call op next ih =>
    obtain ⟨io, valid⟩ := able op s all.1
    obtain ⟨out, t, run⟩ := ih (M.exec io op s).1 (all.2 _) (M.exec io op s).2
    exact ⟨out, t, .call valid run⟩

end Program
end Interleave
