import Mathlib.Tactic.Common

/-! Methods of a connection with implicit transactions. Statements act on the
connection's own view (`live`); `commit` makes that view durable (`disk`). A
method that fails keeps whatever it had already written, uncommitted. -/
namespace Transactional

structure Session (σ : Type) where
  live : σ
  disk : σ

/-- A session without pending writes. -/
def Session.settled {σ : Type} (store : σ) : Session σ := ⟨store, store⟩

def Txn (σ ε α : Type) : Type := Session σ → Except ε α × Session σ

namespace Txn
variable {σ ε α β : Type}

instance : Monad (Txn σ ε) where
  pure value := fun s => (.ok value, s)
  bind m k := fun s =>
    match m s with
    | (.ok value, t) => k value t
    | (.error error, t) => (.error error, t)

def raise (error : ε) : Txn σ ε α := fun s => (.error error, s)

def live : Txn σ ε σ := fun s => (.ok s.live, s)

def write (store : σ) : Txn σ ε Unit := fun s => (.ok (), { s with live := store })

def modify (f : σ → σ) : Txn σ ε Unit := fun s => (.ok (), { s with live := f s.live })

def commit : Txn σ ε Unit := fun s => (.ok (), .settled s.live)

def ofExcept (result : Except ε α) : Txn σ ε α := fun s => (result, s)

/-- `for row in rows: results.append(body(row))`. -/
def forRows {ρ : Type} (rows : List ρ) (body : ρ → Txn σ ε β) : Txn σ ε (List β) :=
  match rows with
  | [] => pure []
  | row :: rest => do
    let result ← body row
    let results ← forRows rest body
    return result :: results

@[simp] theorem pure_run (value : α) (s : Session σ) :
    (pure value : Txn σ ε α) s = (.ok value, s) := rfl

@[simp] theorem raise_run (error : ε) (s : Session σ) :
    (raise error : Txn σ ε α) s = (.error error, s) := rfl

@[simp] theorem live_run (s : Session σ) : (live : Txn σ ε σ) s = (.ok s.live, s) := rfl

@[simp] theorem write_run (store : σ) (s : Session σ) :
    (write store : Txn σ ε Unit) s = (.ok (), { s with live := store }) := rfl

@[simp] theorem modify_run (f : σ → σ) (s : Session σ) :
    (modify f : Txn σ ε Unit) s = (.ok (), { s with live := f s.live }) := rfl

@[simp] theorem commit_run (s : Session σ) :
    (commit : Txn σ ε Unit) s = (.ok (), .settled s.live) := rfl

@[simp] theorem ofExcept_run (result : Except ε α) (s : Session σ) :
    (ofExcept result : Txn σ ε α) s = (result, s) := rfl

theorem bind_run (m : Txn σ ε α) (k : α → Txn σ ε β) (s : Session σ) :
    (m >>= k) s = match m s with
      | (.ok value, t) => k value t
      | (.error error, t) => (.error error, t) := rfl

theorem bind_ok {m : Txn σ ε α} {s t : Session σ} {value : α} (ran : m s = (.ok value, t))
    (k : α → Txn σ ε β) : (m >>= k) s = k value t := by
  rw [bind_run, ran]

theorem bind_error {m : Txn σ ε α} {s t : Session σ} {error : ε} (ran : m s = (.error error, t))
    (k : α → Txn σ ε β) : (m >>= k) s = (.error error, t) := by
  rw [bind_run, ran]

/-- What the first part leaves and the second keeps, the sequence leaves. -/
theorem bind_leaves {m : Txn σ ε α} {k : α → Txn σ ε β} {s : Session σ} {R : Session σ → Prop}
    (first : R (m s).2) (second : ∀ value t, m s = (.ok value, t) → R t → R (k value t).2) :
    R ((m >>= k) s).2 := by
  rw [bind_run]
  cases ran : m s with
  | mk out t =>
    rw [ran] at first
    cases out with
    | ok value => exact second value t ran first
    | error error => exact first

/-- A loop whose turns do not disturb one another is the fold of their effects. -/
theorem forRows_fold {ρ : Type} {rows : List ρ} (body : ρ → Txn σ ε β) (f : σ → ρ → σ)
    (g : ρ → β) (pre : ρ → σ → Prop)
    (runs : ∀ row ∈ rows, ∀ s : Session σ, pre row s.live →
      body row s = (.ok (g row), { s with live := f s.live row }))
    (apart : rows.Pairwise fun a b => ∀ store, pre a store → pre b store → pre b (f store a))
    (s : Session σ) (ready : ∀ row ∈ rows, pre row s.live) :
    forRows rows body s = (.ok (rows.map g), { s with live := rows.foldl f s.live }) := by
  induction rows generalizing s with
  | nil => rfl
  | cons row rest ih =>
    obtain ⟨others, apart⟩ := List.pairwise_cons.mp apart
    have first := runs row List.mem_cons_self s (ready row List.mem_cons_self)
    have later := ih (fun r member => runs r (List.mem_cons_of_mem _ member)) apart
      { s with live := f s.live row }
      fun r member => others r member _ (ready row List.mem_cons_self)
        (ready r (List.mem_cons_of_mem _ member))
    simp only [forRows, bind_ok first, bind_ok later, pure_run, List.map_cons, List.foldl_cons]

/-- What every turn keeps, the fold keeps. -/
theorem foldl_keeps {ρ : Type} {rows : List ρ} (f : σ → ρ → σ) (pre : ρ → σ → Prop)
    (P : σ → Prop) (turn : ∀ row ∈ rows, ∀ store, pre row store → P store → P (f store row))
    (apart : rows.Pairwise fun a b => ∀ store, pre a store → pre b store → pre b (f store a))
    (store : σ) (ready : ∀ row ∈ rows, pre row store) (holds : P store) :
    P (rows.foldl f store) := by
  induction rows generalizing store with
  | nil => exact holds
  | cons row rest ih =>
    obtain ⟨others, apart⟩ := List.pairwise_cons.mp apart
    exact ih (fun r member => turn r (List.mem_cons_of_mem _ member)) apart _
      (fun r member => others r member _ (ready row List.mem_cons_self)
        (ready r (List.mem_cons_of_mem _ member)))
      (turn row List.mem_cons_self store (ready row List.mem_cons_self) holds)

end Txn
end Transactional
