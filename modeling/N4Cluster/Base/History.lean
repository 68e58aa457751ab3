import N4Cluster.Base.Pool

/-! Runs with their past. A condition on a turn may look at the turns taken
before it, and so may what is claimed of the state reached. -/
namespace Interleave
namespace System

variable {Req ω : Type} {res : ω → Type} {ε α σ ι : Type} {S : System Req ω res ε α σ ι}

/-- A turn that was taken, with the pool it was taken in. -/
structure Taken (Req ω : Type) (res : ω → Type) (ε α σ ι : Type) where
  pool : Pool Req ω res ε α σ
  label : Label Req ι

/-- A call that was made: by which thread, with which input, on which store. -/
structure Made (ω σ ι : Type) where
  thread : Nat
  call : ω
  io : ι
  store : σ

def Taken.made (t : Taken Req ω res ε α σ ι) : Option (Made ω σ ι) :=
  match t.label with
  | .sched i io => (t.pool.waiting i).map fun op => ⟨i, op, io, t.pool.store⟩
  | _ => none

/-- The turns of a run, the latest first. -/
abbrev Past (Req ω : Type) (res : ω → Type) (ε α σ ι : Type) := List (Taken Req ω res ε α σ ι)

/-- The calls of a run, the latest first. -/
def made (past : Past Req ω res ε α σ ι) : List (Made ω σ ι) := past.filterMap Taken.made

theorem made_sched (past : Past Req ω res ε α σ ι) {p : Pool Req ω res ε α σ} {i : Nat} (io : ι)
    {request : Req} {op : ω} {next : res op → Program ω res ε α}
    (found : p.threads[i]? = some ⟨request, .call op next⟩) :
    made (⟨p, .sched i io⟩ :: past) = ⟨i, op, io, p.store⟩ :: made past := by
  simp only [made, List.filterMap_cons, Taken.made, Pool.waiting, found, Option.map_some]

/-- The runs from a pool, with what was done. -/
inductive Records (S : System Req ω res ε α σ ι)
    (ok : Past Req ω res ε α σ ι → Pool Req ω res ε α σ → Label Req ι → Prop)
    (start : Pool Req ω res ε α σ) : Past Req ω res ε α σ ι → Pool Req ω res ε α σ → Prop where
  | start : Records S ok start [] start
  | next : Records S ok start past p → ok past p l → S.take p l = some q →
      Records S ok start (⟨p, l⟩ :: past) q

namespace Records
variable {ok : Past Req ω res ε α σ ι → Pool Req ω res ε α σ → Label Req ι → Prop}
  {start p q : Pool Req ω res ε α σ} {past : Past Req ω res ε α σ ι}

theorem invariant {I : Past Req ω res ε α σ ι → Pool Req ω res ε α σ → Prop}
    (preserves : ∀ {past p l q}, I past p → ok past p l → S.take p l = some q → I (⟨p, l⟩ :: past) q)
    (run : Records S ok start past p) (initial : I [] start) : I past p := by
  induction run with
  | start => exact initial
  | next _ allowed stepped ih => exact preserves ih allowed stepped

theorem mono {ok' : Past Req ω res ε α σ ι → Pool Req ω res ε α σ → Label Req ι → Prop}
    (weaker : ∀ past p l, ok past p l → ok' past p l) (run : Records S ok start past p) :
    Records S ok' start past p := by
  induction run with
  | start => exact .start
  | next _ allowed stepped ih => exact .next ih (weaker _ _ _ allowed) stepped

/-- A condition that leaves the past alone makes it a run of the pool. -/
theorem reaches {plain : Pool Req ω res ε α σ → Label Req ι → Prop}
    (weaker : ∀ past p l, ok past p l → plain p l) (run : Records S ok start past p) :
    Reaches S plain start p := by
  induction run with
  | start => exact .refl _
  | next _ allowed stepped ih => exact ih.snoc (weaker _ _ _ allowed) stepped

end Records

/-- Plays a list of labels and keeps what was done. -/
def record (S : System Req ω res ε α σ ι)
    (ok : Past Req ω res ε α σ ι → Pool Req ω res ε α σ → Label Req ι → Prop)
    [∀ past p l, Decidable (ok past p l)] :
    List (Label Req ι) → Past Req ω res ε α σ ι → Pool Req ω res ε α σ →
      Option (Past Req ω res ε α σ ι × Pool Req ω res ε α σ)
  | [], past, p => some (past, p)
  | l :: rest, past, p =>
    if ok past p l then
      match S.take p l with
      | some q => S.record ok rest (⟨p, l⟩ :: past) q
      | none => none
    else none

theorem record_records {ok : Past Req ω res ε α σ ι → Pool Req ω res ε α σ → Label Req ι → Prop}
    [∀ past p l, Decidable (ok past p l)] {start p : Pool Req ω res ε α σ}
    {labels : List (Label Req ι)} {past : Past Req ω res ε α σ ι}
    {out : Past Req ω res ε α σ ι × Pool Req ω res ε α σ}
    (before : Records S ok start past p) (recorded : S.record ok labels past p = some out) :
    Records S ok start out.1 out.2 := by
  induction labels generalizing past p with
  | nil =>
    cases Option.some.inj recorded
    exact before
  | cons l rest ih =>
    simp only [record] at recorded
    split at recorded
    · rename_i allowed
      split at recorded
      · rename_i stepped
        exact ih (.next before allowed stepped) recorded
      · contradiction
    · contradiction

theorem record_any {ok : Past Req ω res ε α σ ι → Pool Req ω res ε α σ → Label Req ι → Prop}
    [∀ past p l, Decidable (ok past p l)] {start : Pool Req ω res ε α σ}
    {labels : List (Label Req ι)}
    {f : Past Req ω res ε α σ ι × Pool Req ω res ε α σ → Bool}
    (recorded : (S.record ok labels [] start).any f = true) :
    ∃ past p, Records S ok start past p ∧ f (past, p) = true := by
  obtain ⟨out, ran, holds⟩ := (Option.any_eq_true _ _).mp recorded
  exact ⟨out.1, out.2, record_records .start ran, holds⟩

end System
end Interleave
