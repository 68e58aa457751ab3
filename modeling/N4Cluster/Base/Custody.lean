import N4Cluster.Base.History

/-! Items of work in the custody of holders. An item is handed out a limited number of
times, is given back or closed, and once closed stays as it is. Every step raises the
rank of an item, so what is observed of it changes only so often in a run. -/
namespace Custody
open Relation

variable {Item Holder Outcome : Type} [DecidableEq Item]

inductive Phase (Holder Outcome : Type) where
  | waiting
  | handed (holder : Holder)
  | working (holder : Holder)
  | closed (outcome : Outcome)

structure Entry (Holder Outcome : Type) where
  limit : Nat
  handouts : Nat
  phase : Phase Holder Outcome

/-- Somebody has the item. -/
def Phase.held : Phase Holder Outcome → Bool
  | .handed _ | .working _ => true
  | .waiting | .closed _ => false

def Phase.isClosed : Phase Holder Outcome → Bool
  | .closed _ => true
  | _ => false

namespace Entry

inductive Step (e : Entry Holder Outcome) : Entry Holder Outcome → Prop where
  | hand (holder : Holder) (waits : e.phase = .waiting) (left : e.handouts < e.limit) :
      Step e ⟨e.limit, e.handouts + 1, .handed holder⟩
  | begin (holder : Holder) (handed : e.phase = .handed holder) :
      Step e ⟨e.limit, e.handouts, .working holder⟩
  | giveBack (held : e.phase.held = true) (left : e.handouts < e.limit) :
      Step e ⟨e.limit, e.handouts, .waiting⟩
  | close (outcome : Outcome) (opened : e.phase.isClosed = false) :
      Step e ⟨e.limit, e.handouts, .closed outcome⟩

/-- How far an item has come. -/
def rank (e : Entry Holder Outcome) : Nat :=
  3 * e.handouts + match e.phase with
    | .handed _ => 0
    | .working _ => 1
    | .waiting => 2
    | .closed _ => 3

variable {e e' : Entry Holder Outcome}

theorem Step.rank_lt (step : e.Step e') : e.rank < e'.rank := by
  obtain ⟨limit, handouts, phase⟩ := e
  cases step with
  | hand holder waits left =>
    cases waits
    simp only [rank]
    omega
  | begin holder handed =>
    cases handed
    simp only [rank]
    omega
  | giveBack held left =>
    cases phase <;> first | contradiction | (simp only [rank]; omega)
  | close outcome opened =>
    cases phase <;> first | contradiction | (simp only [rank]; omega)

/-- No item is handed out more often than its limit allows. -/
theorem Step.within (step : e.Step e') (within : e.handouts ≤ e.limit) : e'.handouts ≤ e'.limit := by
  cases step with
  | hand holder waits left => exact left
  | begin | giveBack | close => exact within

theorem rank_le (within : e.handouts ≤ e.limit) : e.rank ≤ 3 * e.limit + 3 := by
  obtain ⟨limit, handouts, phase⟩ := e
  have within : handouts ≤ limit := within
  cases phase <;> simp only [rank] <;> omega

end Entry

/-- What is known of each item. -/
abbrev Board (Item Holder Outcome : Type) := Item → Option (Entry Holder Outcome)

namespace Board

def empty : Board Item Holder Outcome := fun _ => none

inductive Step (b : Board Item Holder Outcome) : Board Item Holder Outcome → Prop where
  | post (item : Item) (limit : Nat) (fresh : b item = none) :
      Step b (Function.update b item (some ⟨limit, 0, .waiting⟩))
  | move (item : Item) (found : b item = some e) (step : e.Step e') :
      Step b (Function.update b item (some e'))

abbrev Steps : Board Item Holder Outcome → Board Item Holder Outcome → Prop := ReflTransGen Step

/-- The rank of an item, posted or not. -/
def rank (b : Board Item Holder Outcome) (item : Item) : Nat := (b item).elim 1 Entry.rank

variable {b b' : Board Item Holder Outcome} {item : Item} {e : Entry Holder Outcome}

theorem Step.advances (step : b.Step b') (item : Item) :
    b' item = b item ∨ b.rank item < b'.rank item := by
  cases step with
  | post posted limit fresh =>
    by_cases here : item = posted
    · subst here
      refine .inr ?_
      simp [rank, fresh, Entry.rank]
    · exact .inl (Function.update_of_ne here _ b)
  | move moved found step =>
    by_cases here : item = moved
    · subst here
      refine .inr ?_
      simpa [rank, found] using step.rank_lt
    · exact .inl (Function.update_of_ne here _ b)

theorem Steps.advances (steps : b.Steps b') (item : Item) :
    b' item = b item ∨ b.rank item < b'.rank item := by
  induction steps with
  | refl => exact .inl rfl
  | @tail c d _ step ih =>
    have known {c d : Board Item Holder Outcome} (same : d item = c item) : d.rank item = c.rank item := by
      rw [rank, rank, same]
    rcases step.advances item with same | more
    · rcases ih with still | before
      · exact .inl (same.trans still)
      · exact .inr (known same ▸ before)
    · rcases ih with still | before
      · exact .inr (known still ▸ more)
      · exact .inr (Nat.lt_trans before more)

theorem reached_within (steps : (empty : Board Item Holder Outcome).Steps b) (found : b item = some e) :
    e.handouts ≤ e.limit := by
  induction steps generalizing e with
  | refl => cases found
  | @tail c d _ step ih =>
    cases step with
    | post posted bound fresh =>
      by_cases here : item = posted
      · subst here
        rw [Function.update_self] at found
        cases found
        exact Nat.zero_le _
      · rw [Function.update_of_ne here] at found
        exact ih found
    | move moved there step =>
      by_cases here : item = moved
      · subst here
        rw [Function.update_self] at found
        cases found
        exact step.within (ih there)
      · rw [Function.update_of_ne here] at found
        exact ih found

end Board
end Custody

namespace Interleave
namespace System
variable {Req ω : Type} {res : ω → Type} {ε α σ ι β : Type} [DecidableEq β]

/-- How often what is observed of the pool has changed from one turn to the next. -/
def changes (observe : Pool Req ω res ε α σ → β) :
    Past Req ω res ε α σ ι → Pool Req ω res ε α σ → Nat
  | [], _ => 0
  | t :: earlier, p => changes observe earlier t.pool + if observe p = observe t.pool then 0 else 1

variable {S : System Req ω res ε α σ ι}
  {ok : Past Req ω res ε α σ ι → Pool Req ω res ε α σ → Label Req ι → Prop}
  {start p : Pool Req ω res ε α σ} {past : Past Req ω res ε α σ ι}

/-- What changes only as a rank goes up changes no more often than the rank has gone up. -/
theorem Records.changes_le (observe : Pool Req ω res ε α σ → β) (rank : Pool Req ω res ε α σ → Nat)
    (advances : ∀ {past p l q}, Records S ok start past p → ok past p l → S.take p l = some q →
      (observe q = observe p ∧ rank p ≤ rank q) ∨ rank p < rank q)
    (run : Records S ok start past p) : changes observe past p + rank start ≤ rank p := by
  induction run with
  | start => simp [changes]
  | next before allowed stepped ih =>
    simp only [changes]
    rcases advances before allowed stepped with ⟨same, more⟩ | more
    · rw [if_pos same]
      omega
    · split <;> omega

end System
end Interleave
