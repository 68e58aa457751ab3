import N4Cluster.Base.Pool
import N4Cluster.Base.Related

/-! Programs that hold parts of a shared store. Each thread has a holding, which no program reads;
`W` says what the holdings together account for, `live` with which a program is not done. A call is judged against every list of holdings
that contains the holding of its thread, so a judgment made for one program stands in any pool. -/
namespace Interleave

variable {Req ω : Type} {res : ω → Type} {ε α β σ ι H : Type}

namespace Program
variable {M : Machine ω res σ ι} {live : H → Prop} {W : List H → σ → Prop}

/-- Every call of the program turns its holding into one that keeps the account. -/
def Keeps (M : Machine ω res σ ι) (live : H → Prop) (W : List H → σ → Prop)
    (post : H → Except ε α → Prop) : Program ω res ε α → H → Prop
  | ret value, h => post h (.ok value)
  | raise error, h => post h (.error error)
  | call op next, h => live h ∧ ∀ io s hs i, W hs s → hs[i]? = some h → M.valid io op s →
      ∃ h', W (hs.set i h') (M.exec io op s).2 ∧ (next (M.exec io op s).1).Keeps M live W post h'

theorem Keeps.bind {Q : H → Except ε α → Prop} {post : H → Except ε β → Prop} {p : Program ω res ε α}
    {k : α → Program ω res ε β} {h : H} (first : p.Keeps M live W Q h)
    (second : ∀ h value, Q h (.ok value) → (k value).Keeps M live W post h)
    (failed : ∀ h error, Q h (.error error) → post h (.error error)) :
    (p >>= k).Keeps M live W post h := by
  induction p generalizing h with
  | ret value => exact second h value first
  | raise error => exact failed h error first
  | call op next ih =>
    refine ⟨first.1, ?_⟩
    intro io s hs i account place valid
    obtain ⟨h', kept, rest⟩ := first.2 io s hs i account place valid
    exact ⟨h', kept, ih _ rest⟩

theorem Keeps.handle {Q post : H → Except ε α → Prop} {p : Program ω res ε α}
    {k : ε → Program ω res ε α} {h : H} (first : p.Keeps M live W Q h)
    (returned : ∀ h value, Q h (.ok value) → post h (.ok value))
    (failed : ∀ h error, Q h (.error error) → (k error).Keeps M live W post h) :
    (p.handle k).Keeps M live W post h := by
  induction p generalizing h with
  | ret value => exact returned h value first
  | raise error => exact failed h error first
  | call op next ih =>
    refine ⟨first.1, ?_⟩
    intro io s hs i account place valid
    obtain ⟨h', kept, rest⟩ := first.2 io s hs i account place valid
    exact ⟨h', kept, ih _ rest⟩

/-- Run alone, the program keeps the account of its own holding. -/
theorem Keeps.runs {post : H → Except ε α → Prop} {p : Program ω res ε α} {h : H} {s t : σ}
    {out : Except ε α} (keeps : p.Keeps M live W post h) (account : W [h] s) (run : p.Runs M s out t) :
    ∃ h', W [h'] t ∧ post h' out := by
  induction run generalizing h with
  | ret => exact ⟨h, account, keeps⟩
  | raise => exact ⟨h, account, keeps⟩
  | call valid _ ih =>
    obtain ⟨h', kept, rest⟩ := keeps.2 _ _ [h] 0 account rfl valid
    exact ih rest kept

end Program

namespace System
variable {S : System Req ω res ε α σ ι} {live : H → Prop} {W : List H → σ → Prop}
  {post : Req → H → Except ε α → Prop}
  {ok : Pool Req ω res ε α σ → Label Req ι → Prop} {p q : Pool Req ω res ε α σ}

/-- There are holdings, one for each thread, that account for the store. -/
def Accounted (S : System Req ω res ε α σ ι) (live : H → Prop) (W : List H → σ → Prop)
    (post : Req → H → Except ε α → Prop) (p : Pool Req ω res ε α σ) : Prop :=
  ∃ hs, W hs p.store ∧
    List.Forall₂ (fun th h => th.program.Keeps S.toMachine live W (post th.request) h) p.threads hs

/-- The account is kept in every run without a restart, if a new thread can hold what `vacant` does. -/
theorem accounted_run (vacant : H) (lawful : ∀ p l, ok p l → S.Lawful p l ∧ l ≠ .restart)
    (joins : ∀ hs s, W hs s → W (hs ++ [vacant]) s)
    (starts : ∀ request, (S.handler request).Keeps S.toMachine live W (post request) vacant)
    (run : Reaches S ok p q) (start : Accounted S live W post p) : Accounted S live W post q := by
  apply run.invariant (I := Accounted S live W post) _ start
  clear start run
  intro p l q ⟨hs, account, keeps⟩ allowed stepped
  obtain ⟨law, stays⟩ := lawful p l allowed
  cases l with
  | spawn request =>
    cases Option.some.inj stepped
    exact ⟨hs ++ [vacant], joins hs p.store account, List.rel_append keeps (.cons (starts request) .nil)⟩
  | restart => exact absurd rfl stays
  | sched i io =>
    obtain ⟨request, op, next, found, rfl⟩ := sched_cases stepped
    obtain ⟨h, place, judged⟩ := Related.forall₂_place keeps found
    have valid : S.valid io op p.store := law op (by rw [Pool.waiting, found])
    obtain ⟨h', kept, rest⟩ := judged.2 io p.store hs i account place valid
    exact ⟨hs.set i h', kept, Related.forall₂_set keeps rest⟩

end System
end Interleave
