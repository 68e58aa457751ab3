import Mathlib.Data.List.Nodup
import Mathlib.Tactic.Common

/-! Dictionaries as lists of entries in the order in which their keys came. -/
namespace Dictionary

variable {κ β : Type} [DecidableEq κ] {entries : List (κ × β)} {key k : κ} {value v : β}

def has (entries : List (κ × β)) (key : κ) : Bool := entries.any fun entry => entry.1 = key

def pop (entries : List (κ × β)) (key : κ) : List (κ × β) := entries.filter fun entry => entry.1 ≠ key

/-- `entries[key] = value`, in the place the key has. -/
def put (entries : List (κ × β)) (key : κ) (value : β) : List (κ × β) :=
  if has entries key then entries.map fun entry => if entry.1 = key then (key, value) else entry
  else entries ++ [(key, value)]

def setDefault (entries : List (κ × β)) (key : κ) (value : β) : List (κ × β) :=
  if has entries key then entries else entries ++ [(key, value)]

def keys (entries : List (κ × β)) : List κ := entries.map Prod.fst

/-- The entries of a dictionary that is filled in this order. -/
def gathered (items : List (κ × β)) : List (κ × β) :=
  items.foldl (fun entries item => put entries item.1 item.2) []

theorem has_iff : has entries key = true ↔ key ∈ keys entries := by
  simp [has, keys]

theorem has_lookup : has entries key = false ↔ entries.lookup key = none := by
  rw [← Bool.not_eq_true, has_iff, List.lookup_eq_none_iff, keys]
  constructor
  · intro absent entry member
    rw [bne_iff_ne]
    rintro rfl
    exact absent (List.mem_map_of_mem member)
  · intro absent member
    obtain ⟨entry, inside, rfl⟩ := List.mem_map.mp member
    simpa using absent entry inside

theorem lookup_snoc : (entries ++ [(key, value)]).lookup k =
    (entries.lookup k).or (if k = key then some value else none) := by
  rw [List.lookup_append]
  by_cases same : k = key
  · simp [same]
  · have other : (k == key) = false := beq_eq_false_iff_ne.mpr same
    simp [same, List.lookup_cons, other]

theorem lookup_pop : (pop entries key).lookup k = if k = key then none else entries.lookup k := by
  induction entries with
  | nil => simp [pop]
  | cons entry entries ih =>
    obtain ⟨name, v⟩ := entry
    rw [pop] at ih ⊢
    by_cases dropped : name = key
    · subst dropped
      rw [List.filter_cons_of_neg (by simp), ih]
      by_cases same : k = name
      · simp [same]
      · have other : (k == name) = false := beq_eq_false_iff_ne.mpr same
        simp [same, List.lookup_cons, other]
    · rw [List.filter_cons_of_pos (by simpa using dropped), List.lookup_cons, List.lookup_cons, ih]
      by_cases same : k = name
      · subst same
        simp [dropped]
      · have other : (k == name) = false := beq_eq_false_iff_ne.mpr same
        simp [other]

theorem lookup_setDefault : (setDefault entries key value).lookup k =
    (entries.lookup k).or (if k = key then some value else none) := by
  rw [setDefault]
  split
  · rename_i present
    by_cases same : k = key
    · subst same
      cases found : entries.lookup k with
      | none =>
        rw [has_lookup.mpr found] at present
        cases present
      | some _ => rfl
    · simp [same]
  · exact lookup_snoc

theorem lookup_put_fresh (fresh : has entries key = false) :
    (put entries key value).lookup k = if k = key then some value else entries.lookup k := by
  rw [put, if_neg (by simp [fresh]), lookup_snoc]
  by_cases same : k = key
  · subst same
    rw [has_lookup.mp fresh]
    rfl
  · simp [same]

theorem has_pop (entries : List (κ × β)) (key : κ) : has (pop entries key) key = false := by
  rw [has_lookup, lookup_pop, if_pos rfl]

/-! ## Keys stay apart -/

theorem keys_pop (apart : (keys entries).Nodup) : (keys (pop entries key)).Nodup :=
  apart.sublist (List.filter_sublist.map _)

theorem keys_snoc (apart : (keys entries).Nodup) (fresh : has entries key = false) :
    (keys (entries ++ [(key, value)])).Nodup := by
  rw [keys, List.map_append]
  refine List.nodup_append.mpr ⟨apart, List.nodup_singleton _, ?_⟩
  intro k member other last
  rw [List.mem_singleton.mp last]
  rintro rfl
  rw [has_iff.mpr member] at fresh
  cases fresh

theorem keys_setDefault (apart : (keys entries).Nodup) : (keys (setDefault entries key value)).Nodup := by
  rw [setDefault]
  split
  · exact apart
  · rename_i absent
    exact keys_snoc apart (Bool.eq_false_iff.mpr absent)

theorem keys_put_fresh (apart : (keys entries).Nodup) (fresh : has entries key = false) :
    (keys (put entries key value)).Nodup := by
  rw [put, if_neg (by simp [fresh])]
  exact keys_snoc apart fresh

theorem keys_put (apart : (keys entries).Nodup) : (keys (put entries key value)).Nodup := by
  cases known : has entries key with
  | false => exact keys_put_fresh apart known
  | true =>
    have same : keys (put entries key value) = keys entries := by
      rw [put, if_pos known, keys, keys, List.map_map]
      refine List.map_congr_left fun entry _ => ?_
      rw [Function.comp_apply]
      split
      · rename_i here
        exact here.symm
      · rfl
    rw [same]
    exact apart

theorem keys_gathered (items : List (κ × β)) : (keys (gathered items)).Nodup := by
  suffices general : ∀ start : List (κ × β), (keys start).Nodup →
      (keys (items.foldl (fun entries item => put entries item.1 item.2) start)).Nodup by
    exact general [] List.nodup_nil
  induction items with
  | nil => exact fun _ apart => apart
  | cons item rest ih => exact fun _ apart => ih _ (keys_put apart)

/-! ## What is filled in -/

theorem put_mem {entry : κ × β} (member : entry ∈ put entries key value) :
    entry ∈ entries ∨ entry = (key, value) := by
  unfold put at member
  split at member
  · obtain ⟨old, inside, rfl⟩ := List.mem_map.mp member
    split
    · exact .inr rfl
    · exact .inl inside
  · exact (List.mem_append.mp member).imp_right List.mem_singleton.mp

theorem gathered_mem {items : List (κ × β)} {entry : κ × β} (member : entry ∈ gathered items) : entry ∈ items := by
  suffices general : ∀ start : List (κ × β),
      entry ∈ items.foldl (fun entries item => put entries item.1 item.2) start → entry ∈ start ∨ entry ∈ items by
    exact (general [] member).resolve_left List.not_mem_nil
  clear member
  induction items with
  | nil => exact fun start member => .inl member
  | cons item rest ih =>
    intro start member
    rcases ih _ member with early | late
    · exact (put_mem early).imp_right fun same => List.mem_cons.mpr (.inl same)
    · exact .inr (List.mem_cons_of_mem _ late)

/-- Keys that differ are filled in as they come. -/
theorem gathered_apart {items : List (κ × β)} (apart : (keys items).Nodup) : gathered items = items := by
  suffices general : ∀ start : List (κ × β), (keys (start ++ items)).Nodup →
      items.foldl (fun entries item => put entries item.1 item.2) start = start ++ items by
    exact general [] apart
  clear apart
  induction items with
  | nil => exact fun start _ => (List.append_nil start).symm
  | cons item rest ih =>
    intro start apart
    have fresh : has start item.1 = false := by
      rw [Bool.eq_false_iff, Ne, has_iff]
      intro member
      rw [keys, List.map_append, List.map_cons] at apart
      exact (List.nodup_append.mp apart).2.2 _ member _ List.mem_cons_self rfl
    have placed : put start item.1 item.2 = start ++ [item] := by
      rw [put, if_neg (by simp [fresh])]
    rw [List.foldl_cons, placed]
    have joined : start ++ item :: rest = start ++ [item] ++ rest := List.append_cons start item rest
    rw [joined]
    exact ih _ (joined ▸ apart)

end Dictionary
