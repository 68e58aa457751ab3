import N4Cluster.Server.Rows

/-! Worker slots: the cached `slots_used` is the number of tasks in flight, and
that number stays within `slots_total`. -/
namespace N4Cluster
open Relational Transactional Relation

/-- Whether a task counts against a worker's slots. -/
def TaskRow.holds (w : WorkerId) (r : TaskRow) : Bool := r.workerId == some w && r.status.inFlight

theorem inFlightCount_eq (db : Db) (w : WorkerId) : db.inFlightCount w = db.tasks.count (TaskRow.holds w) :=
  rfl

theorem TaskRow.holds_owner {r : TaskRow} {w : WorkerId} (holds : r.holds w = true) :
    r.workerId = some w ∧ r.status.inFlight = true := by
  simpa [TaskRow.holds] using holds

structure Db.SlotsKept (db : Db) : Prop where
  named : db.workers.get "" = none
  cached : ∀ w row, db.workers.get w = some row → row.slotsUsed = db.inFlightCount w
  within : ∀ w row, db.workers.get w = some row → db.inFlightCount w ≤ row.slotsTotal

theorem empty_slots : Db.SlotsKept {} :=
  ⟨rfl, fun w row found => by simp at found, fun w row found => by simp at found⟩

/-- A task that comes to count for a worker was leased to it, with a slot free. -/
theorem TaskMove.occupies {db : Db} {now : Time} {r r' : TaskRow} {op : DbOp} {o : Option WorkerId}
    (how : TaskMove db now r op r' o) (holds : r'.holds w = true) :
    r.holds w = true ∨ o = some w ∧ ∃ row, db.workers.get w = some row ∧ db.inFlightCount w < row.slotsTotal := by
  obtain ⟨owner, inFlight⟩ := TaskRow.holds_owner holds
  cases how with
  | lease leasable =>
    cases owner
    exact .inr ⟨rfl, _, leasable.registered, leasable.free⟩
  | start owned leased =>
    refine .inl ?_
    rw [TaskRow.holds, leased, show r.workerId = some w from owner]
    simp [TaskStatus.inFlight]
  | complete | stop | cancel => contradiction
  | fail =>
    rw [fail_status] at inFlight
    split at inFlight <;> contradiction
  | resolve =>
    rw [resolve_status] at inFlight
    split at inFlight
    · contradiction
    · split at inFlight <;> contradiction

/-- A task that stops counting for a worker has that worker's slots refreshed. -/
theorem TaskMove.releases {db : Db} {now : Time} {r r' : TaskRow} {op : DbOp} {o : Option WorkerId}
    (how : TaskMove db now r op r' o) (owned : op.owned = true) (named : w ≠ "")
    (held : r.holds w = true) (gone : r'.holds w = false) : o = some w := by
  obtain ⟨owner, inFlight⟩ := TaskRow.holds_owner held
  cases how with
  | lease leasable => simp [leasable.queued, TaskStatus.inFlight] at inFlight
  | start =>
    have still : (r.start now).holds w = true := by
      simp [TaskRow.holds, TaskRow.start, TaskFields.set, owner, TaskStatus.inFlight]
    rw [still] at gone
    contradiction
  | complete mine | stop mine => exact mine.symm.trans owner
  | fail mine legal =>
    cases o with
    | none => contradiction
    | some k => exact (mine rfl).symm.trans owner
  | resolve | cancel => simp [refreshed, owner, named, Option.filter]

theorem genId_ne_empty (pfx suffix : String) : genId pfx suffix ≠ "" := by
  intro empty
  have letters := congrArg String.toList empty
  simp [genId] at letters

theorem idle_unregistered {db : Db} (sound : db.Sound) {w : WorkerId}
    (absent : db.workers.get w = none) : db.inFlightCount w = 0 := by
  rcases Nat.eq_zero_or_pos (db.inFlightCount w) with zero | some
  · exact zero
  · obtain ⟨r, member, holds⟩ := Table.exists_of_count_pos some
    obtain ⟨owner, inFlight⟩ := TaskRow.holds_owner holds
    obtain ⟨k, row, mine, registered⟩ := (sound r.id r (Table.get_of_mem member)).owner inFlight
    cases owner.symm.trans mine
    exact nomatch absent.symm.trans registered

theorem Move.slots {io : Io} {op : DbOp} {db db' : Db} (move : Move io op db db')
    (owned : op.owned = true) (sound : db.Sound) (kept : db.SlotsKept) : db'.SlotsKept := by
  have unchanged (counts : ∀ w, db'.inFlightCount w = db.inFlightCount w)
      (workers : db'.workers = db.workers) : db'.SlotsKept :=
    ⟨workers ▸ kept.named, fun w row found => (counts w) ▸ kept.cached w row (workers ▸ found),
      fun w row found => (counts w) ▸ kept.within w row (workers ▸ found)⟩
  cases move with
  | task touched how jobs workers =>
    rename_i r r' owner
    have found {w : WorkerId} {row : WorkerRow} (h : db'.workers.get w = some row) :
        ∃ old, db.workers.get w = some old ∧ row =
          if owner = some w then { old with slotsUsed := db'.inFlightCount w } else old := by
      rw [workers, refresh_get] at h
      obtain ⟨old, held, rfl⟩ := Option.map_eq_some_iff.mp h
      exact ⟨old, held, rfl⟩
    have counts (w : WorkerId) := touched.counts (TaskRow.holds w)
    refine ⟨?_, fun w row h => ?_, fun w row h => ?_⟩
    · rw [workers, refresh_get]
      exact congrArg (Option.map _) kept.named
    · obtain ⟨old, held, rfl⟩ := found h
      split
      · rfl
      · rename_i other
        have named : w ≠ "" := fun empty => by simp [empty, kept.named] at held
        have same : r'.holds w = r.holds w := by
          cases before : r.holds w with
          | true =>
            cases after : r'.holds w with
            | true => rfl
            | false => exact False.elim (other (how.releases owned named before after))
          | false =>
            cases after : r'.holds w with
            | false => rfl
            | true =>
              rcases how.occupies after with held | ⟨mine, _⟩
              · rw [before] at held
                contradiction
              · exact False.elim (other mine)
        have count := counts w
        rw [same] at count
        rw [kept.cached w old held, inFlightCount_eq, inFlightCount_eq]
        omega
    · obtain ⟨old, held, rfl⟩ := found h
      have total : (if owner = some w then { old with slotsUsed := db'.inFlightCount w }
          else old).slotsTotal = old.slotsTotal := by split <;> rfl
      rw [total]
      have count := counts w
      have within := kept.within w old held
      rw [inFlightCount_eq] at within ⊢
      cases after : r'.holds w with
      | false =>
        rw [after] at count
        simp only [Bool.toNat_false] at count
        omega
      | true =>
        rcases how.occupies after with before | ⟨_, row, present, free⟩
        · rw [after, before] at count
          omega
        · cases present.symm.trans held
          rw [inFlightCount_eq] at free
          rw [after] at count
          simp only [Bool.toNat_true] at count
          omega
  | renew how tasks jobs workers =>
    refine unchanged (fun w => ?_) workers
    rw [inFlightCount_eq, tasks, Db.renewLeases]
    exact Table.count_updateWhere db.tasks _ (fun r => { r with leaseExpiresAt := some _ })
      (fun _ => rfl) fun _ => rfl
  | newTask creates job inserted jobs workers =>
    refine unchanged (fun w => ?_) workers
    rw [inFlightCount_eq, Table.count_insert inserted]
    rfl
  | newWorker how inserted tasks jobs =>
    have idle := idle_unregistered sound (Table.insert_fresh inserted)
    have counts (w : WorkerId) : db'.inFlightCount w = db.inFlightCount w := by
      rw [inFlightCount_eq, tasks, inFlightCount_eq]
    refine ⟨?_, fun w row h => ?_, fun w row h => ?_⟩
    · rw [Table.get_insert inserted, if_neg fun empty => genId_ne_empty _ _ empty.symm]
      exact kept.named
    · rw [Table.get_insert inserted] at h
      rw [counts]
      split at h
      · rename_i same
        cases h
        rw [same]
        exact idle.symm
      · exact kept.cached w row h
    · rw [Table.get_insert inserted] at h
      rw [counts]
      split at h
      · rename_i same
        cases h
        rw [same]
        exact idle ▸ Nat.zero_le _
      · exact kept.within w row h
  | workers f keeps get tasks jobs =>
    have counts (w : WorkerId) : db'.inFlightCount w = db.inFlightCount w := by
      rw [inFlightCount_eq, tasks, inFlightCount_eq]
    refine ⟨by rw [get, kept.named]; rfl, fun w row h => ?_, fun w row h => ?_⟩
    · rw [get] at h
      obtain ⟨old, held, rfl⟩ := Option.map_eq_some_iff.mp h
      rw [(keeps old).2, counts]
      exact kept.cached w old held
    · rw [get] at h
      obtain ⟨old, held, rfl⟩ := Option.map_eq_some_iff.mp h
      rw [(keeps old).1, counts]
      exact kept.within w old held
  | job how present legal moved =>
    subst moved
    exact unchanged (fun _ => rfl) rfl
  | result how put =>
    subst put
    exact unchanged (fun _ => rfl) rfl
  | newJob _ _ _ tasks workers | other tasks _ workers =>
    exact unchanged (fun w => by rw [inFlightCount_eq, tasks, inFlightCount_eq]) workers

/-- In every run from an empty store, with failures reported under a worker id,
every worker's cached slots are its tasks in flight, and these fit its slots. -/
theorem slots_used_exact (P : Platform) {payloads : List TaskPayload} {t : Session Db}
    (run : OpRun P (fun op => op.owned = true) (.settled {}) payloads t)
    (w : WorkerId) (row : WorkerRow) (registered : t.live.workers.get w = some row) :
    row.slotsUsed = t.live.tasks.count (fun r =>
        r.workerId == some w && (r.status == .leased || r.status == .running)) ∧
      row.slotsUsed ≤ row.slotsTotal := by
  have both := run.invariant (I := fun db => db.Sound ∧ db.SlotsKept)
    (fun owned move ⟨sound, kept⟩ => ⟨move.sound sound, move.slots owned sound kept⟩)
    ⟨empty_sound, empty_slots⟩
  have cached := both.2.cached w row registered
  refine ⟨?_, cached ▸ both.2.within w row registered⟩
  rw [cached]
  exact Table.count_congr fun r _ => by cases r.status <;> simp [TaskStatus.inFlight]

theorem slots_used_leased :
    ∃ row, (DbOp.perform .plain leaseCalls (.settled {})).2.live.workers.get "worker_0" = some row ∧
      row.slotsUsed = (DbOp.perform .plain leaseCalls (.settled {})).2.live.tasks.count (fun r =>
          r.workerId == some "worker_0" && (r.status == .leased || r.status == .running)) ∧
        row.slotsUsed ≤ row.slotsTotal := by
  have registered : ((DbOp.perform .plain leaseCalls (.settled {})).2.live.workers.get
      "worker_0").isSome = true := by decide +kernel
  obtain ⟨row, found⟩ := Option.isSome_iff_exists.mp registered
  exact ⟨row, found, slots_used_exact .plain (OpRun.refl.perform leaseCalls (by decide)) _ row found⟩

end N4Cluster
