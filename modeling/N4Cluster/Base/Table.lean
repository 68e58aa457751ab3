import Mathlib.Data.List.Nodup
import Mathlib.Data.List.Count
import Mathlib.Tactic.Common

/-! Tables of rows under a primary key, kept in insertion order. Uniqueness of
the key is a field of the table, so no operation can produce two rows with one
key; updates name the rows they touch by a predicate, as SQL does. -/
namespace Relational

class Keyed (ρ : Type) (κ : outParam Type) where
  key : ρ → κ

structure Table (ρ : Type) {κ : Type} [Keyed ρ κ] where
  rows : List ρ
  unique : (rows.map Keyed.key).Nodup

namespace Table
variable {ρ κ : Type} [Keyed ρ κ]

def empty : Table ρ := ⟨[], List.nodup_nil⟩

/-- `UPDATE ... SET f WHERE p`; the assignment may not touch the key. -/
def updateWhere (t : Table ρ) (p : ρ → Bool) (f : ρ → ρ)
    (keeps : ∀ r, Keyed.key (f r) = Keyed.key r := by intro; rfl) : Table ρ where
  rows := t.rows.map fun r => if p r then f r else r
  unique := by
    have same : (t.rows.map fun r => if p r then f r else r).map Keyed.key =
        t.rows.map Keyed.key := by
      rw [List.map_map]
      apply List.map_congr_left
      intro r _
      simp only [Function.comp]
      split
      · exact keeps r
      · rfl
    exact same ▸ t.unique

def deleteWhere (t : Table ρ) (p : ρ → Bool) : Table ρ where
  rows := t.rows.filter fun r => !p r
  unique := t.unique.sublist (List.filter_sublist.map _)

variable [DecidableEq κ]

/-- `SELECT * ... WHERE key = k`. -/
def get (t : Table ρ) (k : κ) : Option ρ := t.rows.find? fun r => Keyed.key r = k

/-- `INSERT`; `none` is the violated primary key. -/
def insert (t : Table ρ) (r : ρ) : Option (Table ρ) :=
  if taken : Keyed.key r ∈ t.rows.map Keyed.key then none
  else some ⟨t.rows ++ [r], by
    rw [List.map_append, List.map_singleton]
    exact List.nodup_append.mpr ⟨t.unique, List.nodup_singleton _, fun a ha b hb same =>
      taken (by rwa [← List.mem_singleton.mp hb, ← same])⟩⟩

/-- `INSERT OR REPLACE`: an old row under the key goes, the new one comes last. -/
def replace (t : Table ρ) (r : ρ) : Table ρ where
  rows := (t.rows.filter fun q => !decide (Keyed.key q = Keyed.key r)) ++ [r]
  unique := by
    rw [List.map_append, List.map_singleton]
    refine List.nodup_append.mpr ⟨t.unique.sublist (List.filter_sublist.map _),
      List.nodup_singleton _, ?_⟩
    rintro a ha b hb rfl
    obtain ⟨q, hq, rfl⟩ := List.mem_map.mp ha
    have other := (List.mem_filter.mp hq).2
    rw [List.mem_singleton] at hb
    simp [hb] at other

def update (t : Table ρ) (k : κ) (f : ρ → ρ)
    (keeps : ∀ r, Keyed.key (f r) = Keyed.key r := by intro; rfl) : Table ρ :=
  t.updateWhere (fun r => Keyed.key r = k) f keeps

theorem get_eq_some {t : Table ρ} {k : κ} {r : ρ} :
    t.get k = some r ↔ r ∈ t.rows ∧ Keyed.key r = k := by
  constructor
  · intro found
    exact ⟨List.mem_of_find?_eq_some found, by simpa using List.find?_some found⟩
  · rintro ⟨member, rfl⟩
    cases found : t.get (Keyed.key r) with
    | none => simpa using List.find?_eq_none.mp found r member
    | some q =>
      have hq := List.mem_of_find?_eq_some found
      have same : Keyed.key q = Keyed.key r := by simpa using List.find?_some found
      rw [List.inj_on_of_nodup_map t.unique hq member same]

theorem get_key {t : Table ρ} {k : κ} {r : ρ} (found : t.get k = some r) : Keyed.key r = k :=
  (get_eq_some.mp found).2

theorem mem_of_get {t : Table ρ} {k : κ} {r : ρ} (found : t.get k = some r) : r ∈ t.rows :=
  (get_eq_some.mp found).1

theorem get_of_mem {t : Table ρ} {r : ρ} (member : r ∈ t.rows) : t.get (Keyed.key r) = some r :=
  get_eq_some.mpr ⟨member, rfl⟩

theorem get_eq_none {t : Table ρ} {k : κ} : t.get k = none ↔ ∀ r ∈ t.rows, Keyed.key r ≠ k := by
  simp [get, List.find?_eq_none]

@[simp] theorem get_empty (k : κ) : (empty : Table ρ).get k = none := rfl

@[simp] theorem get_updateWhere (t : Table ρ) (p : ρ → Bool) (f : ρ → ρ)
    (keeps : ∀ r, Keyed.key (f r) = Keyed.key r) (k : κ) :
    (t.updateWhere p f keeps).get k = (t.get k).map fun r => if p r then f r else r := by
  have keys : ∀ r, Keyed.key (if p r then f r else r) = Keyed.key r := by
    intro r
    split
    · exact keeps r
    · rfl
  simp only [get, updateWhere, List.find?_map, Function.comp_def, keys]

theorem get_update (t : Table ρ) (j k : κ) (f : ρ → ρ)
    (keeps : ∀ r, Keyed.key (f r) = Keyed.key r) :
    (t.update j f keeps).get k = if k = j then (t.get k).map f else t.get k := by
  rw [update, get_updateWhere]
  cases found : t.get k with
  | none => simp
  | some r =>
    have same := get_key found
    by_cases h : k = j <;> simp [same, h]

theorem get_insert {t u : Table ρ} {r : ρ} (inserted : t.insert r = some u) (k : κ) :
    u.get k = if k = Keyed.key r then some r else t.get k := by
  unfold insert at inserted
  split at inserted
  · contradiction
  · rename_i fresh
    cases Option.some.inj inserted
    simp only [get, List.find?_append]
    by_cases same : k = Keyed.key r
    · subst same
      have absent : t.rows.find? (fun q => decide (Keyed.key q = Keyed.key r)) = none := by
        apply List.find?_eq_none.mpr
        intro q member equal
        exact fresh (List.mem_map.mpr ⟨q, member, by simpa using equal⟩)
      simp [absent]
    · simp [same, Ne.symm same]

theorem rows_insert {t u : Table ρ} {r : ρ} (inserted : t.insert r = some u) :
    u.rows = t.rows ++ [r] := by
  unfold insert at inserted
  split at inserted
  · contradiction
  · cases Option.some.inj inserted
    rfl

theorem insert_fresh {t u : Table ρ} {r : ρ} (inserted : t.insert r = some u) :
    t.get (Keyed.key r) = none := by
  unfold insert at inserted
  split at inserted
  · contradiction
  · rename_i fresh
    exact get_eq_none.mpr fun q member same => fresh (List.mem_map.mpr ⟨q, member, same⟩)

theorem insert_of_fresh {t : Table ρ} {r : ρ} (fresh : t.get (Keyed.key r) = none) :
    ∃ u, t.insert r = some u := by
  unfold insert
  have absent : Keyed.key r ∉ t.rows.map Keyed.key := by
    rintro member
    obtain ⟨q, hq, same⟩ := List.mem_map.mp member
    exact get_eq_none.mp fresh q hq same
  rw [dif_neg absent]
  exact ⟨_, rfl⟩

theorem mem_replace {t : Table ρ} {r q : ρ} :
    q ∈ (t.replace r).rows ↔ q = r ∨ q ∈ t.rows ∧ Keyed.key q ≠ Keyed.key r := by
  simp only [replace, List.mem_append, List.mem_filter, List.mem_singleton, Bool.not_eq_true',
    decide_eq_false_iff_not]
  exact or_comm

theorem get_replace (t : Table ρ) (r : ρ) (k : κ) :
    (t.replace r).get k = if k = Keyed.key r then some r else t.get k := by
  split
  · rename_i same
    exact get_eq_some.mpr ⟨mem_replace.mpr (.inl rfl), same.symm⟩
  · rename_i other
    cases found : t.get k with
    | none =>
      refine get_eq_none.mpr fun q member => ?_
      rcases mem_replace.mp member with rfl | ⟨old, _⟩
      · exact Ne.symm other
      · exact get_eq_none.mp found q old
    | some q =>
      obtain ⟨member, rfl⟩ := get_eq_some.mp found
      exact get_of_mem (mem_replace.mpr (.inr ⟨member, other⟩))

omit [DecidableEq κ] in
theorem mem_deleteWhere {t : Table ρ} {p : ρ → Bool} {q : ρ} :
    q ∈ (t.deleteWhere p).rows ↔ q ∈ t.rows ∧ p q = false := by
  simp only [deleteWhere, List.mem_filter, Bool.not_eq_true']

theorem get_deleteWhere (t : Table ρ) (p : ρ → Bool) (k : κ) :
    (t.deleteWhere p).get k = (t.get k).filter fun r => !p r := by
  cases found : t.get k with
  | none => exact get_eq_none.mpr fun q member => get_eq_none.mp found q (mem_deleteWhere.mp member).1
  | some q =>
    obtain ⟨member, rfl⟩ := get_eq_some.mp found
    cases gone : p q with
    | false =>
      have kept := get_of_mem (mem_deleteWhere.mpr ⟨member, gone⟩)
      simp only [kept, Option.filter, gone, Bool.not_false, ↓reduceIte]
    | true =>
      simp only [Option.filter, gone, Bool.not_true, Bool.false_eq_true, ↓reduceIte]
      refine get_eq_none.mpr fun r kept same => ?_
      obtain ⟨old, stays⟩ := mem_deleteWhere.mp kept
      rw [List.inj_on_of_nodup_map t.unique old member same] at stays
      exact nomatch stays.symm.trans gone

/-- Rows satisfying a condition, as `SELECT COUNT(*)` counts them. -/
def count (t : Table ρ) (p : ρ → Bool) : Nat := t.rows.countP p

omit [DecidableEq κ] in
theorem count_congr {t : Table ρ} {p q : ρ → Bool} (same : ∀ r ∈ t.rows, p r = q r) :
    t.count p = t.count q :=
  List.countP_congr fun r member => by rw [same r member]

omit [DecidableEq κ] in
/-- Where every row counted has a row counted under its key, there are no fewer of those. -/
theorem count_le_count {t u : Table ρ} {p q : ρ → Bool}
    (later : ∀ r ∈ t.rows, p r = true → ∃ r' ∈ u.rows, Keyed.key r' = Keyed.key r ∧ q r' = true) :
    t.count p ≤ u.count q := by
  have distinct : ((t.rows.filter p).map Keyed.key).Nodup :=
    t.unique.sublist (List.filter_sublist.map _)
  have inside : (t.rows.filter p).map Keyed.key ⊆ (u.rows.filter q).map Keyed.key := by
    intro k listed
    obtain ⟨r, member, rfl⟩ := List.mem_map.mp listed
    obtain ⟨present, counted⟩ := List.mem_filter.mp member
    obtain ⟨r', present', same, counted'⟩ := later r present counted
    exact List.mem_map.mpr ⟨r', List.mem_filter.mpr ⟨present', counted'⟩, same⟩
  have shorter := (List.subperm_of_subset distinct inside).length_le
  rwa [List.length_map, List.length_map, ← List.countP_eq_length_filter, ← List.countP_eq_length_filter] at shorter

/-- One updated row moves a count by its own old and new contribution. -/
theorem count_update {t : Table ρ} {k : κ} {r : ρ} (found : t.get k = some r) (f : ρ → ρ)
    (keeps : ∀ r, Keyed.key (f r) = Keyed.key r) (p : ρ → Bool) :
    (t.update k f keeps).count p + (p r).toNat = t.count p + (p (f r)).toNat := by
  obtain ⟨member, rfl⟩ := get_eq_some.mp found
  obtain ⟨before, after, split⟩ := List.mem_iff_append.mp member
  have unique := t.unique
  rw [split, List.map_append, List.map_cons, List.nodup_append] at unique
  obtain ⟨_, tail, apart⟩ := unique
  have same (l : List ρ) (h : ∀ q ∈ l, Keyed.key q ≠ Keyed.key r) :
      l.map (fun q => if decide (Keyed.key q = Keyed.key r) = true then f q else q) = l := by
    conv_rhs => rw [← List.map_id l]
    exact List.map_congr_left fun q hq => by simp [h q hq]
  have left := same before fun q hq equal =>
    apart _ (List.mem_map_of_mem hq) _ List.mem_cons_self equal
  have right := same after fun q hq equal =>
    (List.nodup_cons.mp tail).1 (equal ▸ List.mem_map_of_mem hq)
  have value (b : Bool) : (if b = true then 1 else 0) = b.toNat := by cases b <;> rfl
  simp only [count, update, updateWhere, split, List.map_append, List.map_cons, left, right,
    List.countP_append, List.countP_cons, decide_true, if_true, value]
  omega

theorem count_insert {t u : Table ρ} {r : ρ} (inserted : t.insert r = some u) (p : ρ → Bool) :
    u.count p = t.count p + (p r).toNat := by
  have value : (if p r = true then 1 else 0) = (p r).toNat := by cases p r <;> rfl
  simp only [count, rows_insert inserted, List.countP_append, List.countP_singleton, value]

omit [DecidableEq κ] in
theorem count_updateWhere (t : Table ρ) (q : ρ → Bool) (f : ρ → ρ)
    (keeps : ∀ r, Keyed.key (f r) = Keyed.key r) {p : ρ → Bool} (same : ∀ r, p (f r) = p r) :
    (t.updateWhere q f keeps).count p = t.count p := by
  have each : (p ∘ fun r => if q r = true then f r else r) = p := by
    funext r
    simp only [Function.comp]
    split
    · exact same r
    · rfl
  rw [count, updateWhere, List.countP_map, each, count]

/-- Exactly the row under `k` changed, from `r` to `r'`. -/
structure Touched (before after : Table ρ) (k : κ) (r r' : ρ) : Prop where
  found : before.get k = some r
  now : after.get k = some r'
  others : ∀ j, j ≠ k → after.get j = before.get j
  counts : ∀ p : ρ → Bool, after.count p + (p r).toNat = before.count p + (p r').toNat
  order : after.rows.map Keyed.key = before.rows.map Keyed.key

omit [DecidableEq κ] in
theorem updateWhere_order (t : Table ρ) (p : ρ → Bool) (f : ρ → ρ)
    (keeps : ∀ r, Keyed.key (f r) = Keyed.key r) :
    (t.updateWhere p f keeps).rows.map Keyed.key = t.rows.map Keyed.key := by
  rw [updateWhere, List.map_map]
  refine List.map_congr_left fun r _ => ?_
  simp only [Function.comp]
  split
  · exact keeps r
  · rfl

theorem update_touched {t : Table ρ} {k : κ} {r : ρ} (found : t.get k = some r) (f : ρ → ρ)
    (keeps : ∀ r, Keyed.key (f r) = Keyed.key r) : Touched t (t.update k f keeps) k r (f r) where
  order := updateWhere_order t _ f keeps
  found := found
  now := by rw [get_update, if_pos rfl, found, Option.map_some]
  others j other := by rw [get_update, if_neg other]
  counts := count_update found f keeps

theorem Touched.trans {t u v : Table ρ} {k : κ} {a b c : ρ} (first : Touched t u k a b)
    (second : Touched u v k b c) : Touched t v k a c where
  found := first.found
  now := second.now
  others j other := (second.others j other).trans (first.others j other)
  counts p := by
    have one := first.counts p
    have two := second.counts p
    omega
  order := second.order.trans first.order

theorem Touched.get {t u : Table ρ} {k j : κ} {a b r : ρ} (touched : Touched t u k a b)
    (found : t.get j = some r) : j = k ∧ r = a ∧ u.get j = some b ∨ j ≠ k ∧ u.get j = some r := by
  by_cases same : j = k
  · subst same
    exact .inl ⟨rfl, Option.some.inj (found.symm.trans touched.found), touched.now⟩
  · exact .inr ⟨same, (touched.others j same).trans found⟩

theorem Touched.refl {t : Table ρ} {k : κ} {r : ρ} (found : t.get k = some r) :
    Touched t t k r r where
  found := found
  now := found
  others _ _ := rfl
  counts _ := rfl
  order := rfl

omit [DecidableEq κ] in
theorem distinct (t : Table ρ) : t.rows.Pairwise fun a b => Keyed.key a ≠ Keyed.key b :=
  List.pairwise_map.mp t.unique

theorem Touched.back {t u : Table ρ} {k j : κ} {a b r : ρ} (touched : Touched t u k a b)
    (found : u.get j = some r) : j = k ∧ r = b ∨ j ≠ k ∧ t.get j = some r := by
  by_cases same : j = k
  · subst same
    exact .inl ⟨rfl, Option.some.inj (found.symm.trans touched.now)⟩
  · exact .inr ⟨same, (touched.others j same).symm.trans found⟩

/-- Rows under the same keys in the same order are listed alike by what they agree on. -/
theorem map_congr {t u : Table ρ} {α : Type} {f : ρ → α}
    (order : u.rows.map Keyed.key = t.rows.map Keyed.key)
    (same : ∀ k, (u.get k).map f = (t.get k).map f) : u.rows.map f = t.rows.map f := by
  have listed (v : Table ρ) : v.rows.map (fun r => some (f r)) =
      (v.rows.map Keyed.key).map fun k => (v.get k).map f := by
    rw [List.map_map]
    refine List.map_congr_left fun r member => ?_
    simp only [Function.comp, get_of_mem member, Option.map_some]
  have both : u.rows.map (fun r => some (f r)) = t.rows.map (fun r => some (f r)) := by
    rw [listed u, listed t, order]
    exact List.map_congr_left fun k _ => same k
  have inner : (u.rows.map f).map some = (t.rows.map f).map some := by
    rw [List.map_map, List.map_map]
    exact both
  exact List.map_injective_iff.mpr (fun _ _ same => Option.some.inj same) inner

/-- A loop over distinct rows, each turn touching its own: every row of the list
ends as its turn leaves it and every other row is as before. -/
theorem foldl_touched {σ α : Type} (view : σ → Table ρ) (f : σ → α → σ) (old new : α → ρ)
    (rows : List α) (s : σ)
    (turn : ∀ row ∈ rows, ∀ s, (view s).get (Keyed.key (old row)) = some (old row) →
      Touched (view s) (view (f s row)) (Keyed.key (old row)) (old row) (new row))
    (apart : rows.Pairwise fun a b => Keyed.key (old a) ≠ Keyed.key (old b))
    (ready : ∀ row ∈ rows, (view s).get (Keyed.key (old row)) = some (old row)) :
    (∀ row ∈ rows, (view (rows.foldl f s)).get (Keyed.key (old row)) = some (new row)) ∧
    ∀ k, (∀ row ∈ rows, Keyed.key (old row) ≠ k) →
      (view (rows.foldl f s)).get k = (view s).get k := by
  induction rows generalizing s with
  | nil => exact ⟨fun row member => (nomatch member), fun k _ => rfl⟩
  | cons row rest ih =>
    obtain ⟨others, apart⟩ := List.pairwise_cons.mp apart
    have first := turn row List.mem_cons_self s (ready row List.mem_cons_self)
    obtain ⟨inside, outside⟩ := ih (f s row)
      (fun r member => turn r (List.mem_cons_of_mem _ member)) apart fun r member => by
        rw [first.others _ (Ne.symm (others r member))]
        exact ready r (List.mem_cons_of_mem _ member)
    refine ⟨fun r member => ?_, fun k absent => ?_⟩
    · rcases List.mem_cons.mp member with rfl | later
      · rw [List.foldl_cons, outside _ fun q hq => Ne.symm (others q hq)]
        exact first.now
      · exact inside r later
    · rw [List.foldl_cons, outside k fun q hq => absent q (List.mem_cons_of_mem _ hq)]
      exact first.others k (Ne.symm (absent row List.mem_cons_self))

omit [DecidableEq κ] in
theorem exists_of_count_pos {t : Table ρ} {p : ρ → Bool} (some : 0 < t.count p) :
    ∃ r ∈ t.rows, p r = true :=
  List.countP_pos_iff.mp some

end Table
end Relational
