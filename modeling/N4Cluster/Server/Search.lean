import N4Cluster.Server.Listing
import Mathlib.Data.List.Infix

/-! Searching jobs by name: the pattern `list_jobs` makes of a text, and when it finds the jobs
whose names contain the text. -/
namespace N4Cluster
open Relational Transactional

/-- The texts a pattern stands for. -/
inductive Reads : List Char → List Char → Prop where
  | nil : Reads [] []
  | run (between : List Char) (rest : Reads pattern text) : Reads ('%' :: pattern) (between ++ text)
  | any (d : Char) (rest : Reads pattern text) : Reads ('_' :: pattern) (d :: text)
  | letter {c d : Char} (fixed : c ≠ '%' ∧ c ≠ '_') (same : c.toLower = d.toLower)
      (rest : Reads pattern text) : Reads (c :: pattern) (d :: text)

def lower (text : List Char) : List Char := text.map Char.toLower

/-- A substring, with ASCII letters in either case. -/
def Contains (part text : String) : Prop := lower part.toList <:+: lower text.toList

instance (part text : String) : Decidable (Contains part text) :=
  inferInstanceAs (Decidable (lower part.toList <:+: lower text.toList))

def JobRow.named (part : String) (row : JobRow) : Bool := row.name.any fun text => Contains part text

/-- The name holds a text that the pattern stands for, but not the text searched for. -/
def JobRow.Misread (part : String) (row : JobRow) : Prop :=
  ∃ text, row.name = some text ∧ (∃ piece, piece <:+: text.toList ∧ Reads part.toList piece) ∧
    ¬Contains part text

/-- A limit that cuts nothing off. -/
def Unlimited (s : Session Db) (limit : Int) (part : String) : Prop :=
  fitsInteger limit = true ∧ (limit < 0 ∨ (s.live.listed none (some part)).length ≤ limit)

/-- The search returns the jobs whose names contain the text, each once. -/
def Finds (s : Session Db) (limit : Int) (part : String) : Prop :=
  ∃ rows, listJobs limit none (some part) none s = (.ok rows, s) ∧
    rows.Perm (s.live.jobs.rows.filter (JobRow.named part))

variable {pattern text : List Char}

/-! ## What a pattern stands for -/

theorem reads_run_iff {pattern text : List Char} :
    Reads ('%' :: pattern) text ↔ ∃ rest, rest <:+ text ∧ Reads pattern rest := by
  constructor
  · intro reads
    generalize whole : '%' :: pattern = full at reads
    cases reads with
    | nil => cases whole
    | run between reads =>
      obtain rfl := (List.cons.inj whole).2
      exact ⟨_, List.suffix_append between _, reads⟩
    | any => cases whole
    | letter fixed => exact absurd (List.cons.inj whole).1.symm fixed.1
  · rintro ⟨rest, ⟨between, rfl⟩, reads⟩
    exact .run between reads

theorem reads_any_iff {pattern text : List Char} :
    Reads ('_' :: pattern) text ↔ ∃ d rest, text = d :: rest ∧ Reads pattern rest := by
  constructor
  · intro reads
    cases reads with
    | any d reads => exact ⟨d, _, rfl, reads⟩
    | letter fixed => exact absurd rfl fixed.2
  · rintro ⟨d, rest, rfl, reads⟩
    exact .any d reads

theorem reads_letter_iff {c : Char} {pattern text : List Char} (star : c ≠ '%') (blank : c ≠ '_') :
    Reads (c :: pattern) text ↔ ∃ d rest, text = d :: rest ∧ c.toLower = d.toLower ∧ Reads pattern rest := by
  constructor
  · intro reads
    generalize whole : c :: pattern = full at reads
    cases reads with
    | nil => cases whole
    | run => exact absurd (List.cons.inj whole).1 star
    | any => exact absurd (List.cons.inj whole).1 blank
    | letter _ same reads =>
      obtain ⟨rfl, rfl⟩ := List.cons.inj whole
      exact ⟨_, _, rfl, same, reads⟩
  · rintro ⟨d, rest, rfl, same, reads⟩
    exact .letter ⟨star, blank⟩ same reads

theorem likes_reads (pattern text : List Char) : likes pattern text = true ↔ Reads pattern text := by
  induction pattern generalizing text with
  | nil =>
    rw [likes, List.isEmpty_iff]
    constructor
    · rintro rfl
      exact .nil
    · rintro ⟨⟩
      rfl
  | cons c pattern ih =>
    by_cases star : c = '%'
    · subst star
      rw [reads_run_iff, likes, List.any_eq_true]
      simp only [List.mem_tails, ih]
    by_cases blank : c = '_'
    · subst blank
      rw [reads_any_iff]
      cases text with
      | nil => simp [likes]
      | cons d text => simp [likes, ih]
    · rw [reads_letter_iff star blank]
      cases text with
      | nil => simp [likes]
      | cons d text => simp [likes, ih]

theorem Reads.append {front back text rest : List Char} (first : Reads front text)
    (second : Reads back rest) : Reads (front ++ back) (text ++ rest) := by
  induction first with
  | nil => exact second
  | run between _ ih =>
    rw [List.append_assoc]
    exact .run between ih
  | any d _ ih => exact .any d ih
  | letter fixed same _ ih => exact .letter fixed same ih

theorem reads_open {pattern text : List Char} (reads : Reads (pattern ++ ['%']) text) :
    ∃ piece, piece <+: text ∧ Reads pattern piece := by
  induction pattern generalizing text with
  | nil => exact ⟨[], List.nil_prefix, .nil⟩
  | cons c pattern ih =>
    rw [List.cons_append] at reads
    by_cases star : c = '%'
    · subst star
      obtain ⟨rest, ⟨between, rfl⟩, inner⟩ := reads_run_iff.mp reads
      obtain ⟨piece, leads, shorter⟩ := ih inner
      exact ⟨between ++ piece, (List.prefix_append_right_inj between).mpr leads, .run between shorter⟩
    by_cases blank : c = '_'
    · subst blank
      obtain ⟨d, rest, rfl, inner⟩ := reads_any_iff.mp reads
      obtain ⟨piece, leads, shorter⟩ := ih inner
      exact ⟨d :: piece, List.cons_prefix_cons.mpr ⟨rfl, leads⟩, .any d shorter⟩
    · obtain ⟨d, rest, rfl, same, inner⟩ := (reads_letter_iff star blank).mp reads
      obtain ⟨piece, leads, shorter⟩ := ih inner
      exact ⟨d :: piece, List.cons_prefix_cons.mpr ⟨rfl, leads⟩, .letter ⟨star, blank⟩ same shorter⟩

/-- Between two percent signs a pattern is sought anywhere in the text. -/
theorem likes_around (pattern text : List Char) :
    likes ('%' :: pattern ++ ['%']) text = true ↔ ∃ piece, piece <:+: text ∧ Reads pattern piece := by
  rw [likes_reads, List.cons_append, reads_run_iff]
  constructor
  · rintro ⟨rest, ends, reads⟩
    obtain ⟨piece, leads, reads⟩ := reads_open reads
    exact ⟨piece, leads.isInfix.trans ends.isInfix, reads⟩
  · rintro ⟨piece, ⟨before, after, rfl⟩, reads⟩
    refine ⟨piece ++ after, ⟨before, by rw [List.append_assoc]⟩, reads.append ?_⟩
    have last := Reads.run after Reads.nil
    rwa [List.append_nil] at last

/-- Every text is read as itself, in either case. -/
theorem reads_itself {pattern piece : List Char} (same : lower pattern = lower piece) : Reads pattern piece := by
  induction pattern generalizing piece with
  | nil =>
    obtain rfl : piece = [] := List.map_eq_nil_iff.mp same.symm
    exact .nil
  | cons c pattern ih =>
    cases piece with
    | nil => cases same
    | cons d piece =>
      obtain ⟨letter, rest⟩ := List.cons.inj same
      by_cases star : c = '%'
      · subst star
        exact .run [d] (ih rest)
      by_cases blank : c = '_'
      · subst blank
        exact .any d (ih rest)
      · exact .letter ⟨star, blank⟩ letter (ih rest)

/-- A pattern without wildcards is read only as itself. -/
theorem reads_fixed {pattern piece : List Char} (star : '%' ∉ pattern) (blank : '_' ∉ pattern)
    (reads : Reads pattern piece) : lower pattern = lower piece := by
  induction reads with
  | nil => rfl
  | run => exact absurd List.mem_cons_self star
  | any => exact absurd List.mem_cons_self blank
  | letter _ same _ ih =>
    have rest := ih (fun inside => star (List.mem_cons_of_mem _ inside))
      (fun inside => blank (List.mem_cons_of_mem _ inside))
    rw [lower, lower] at rest ⊢
    rw [List.map_cons, List.map_cons, same, rest]

theorem lower_infix {part text : List Char} (inside : lower part <:+: lower text) :
    ∃ piece, piece <:+: text ∧ lower part = lower piece := by
  obtain ⟨before, after, whole⟩ := inside
  obtain ⟨front, back, rfl, fronts, -⟩ := List.map_eq_append_iff.mp whole.symm
  obtain ⟨first, piece, rfl, -, same⟩ := List.map_eq_append_iff.mp fronts
  exact ⟨piece, ⟨first, back, rfl⟩, same.symm⟩

theorem infix_lower {piece text : List Char} (inside : piece <:+: text) : lower piece <:+: lower text := by
  obtain ⟨before, after, rfl⟩ := inside
  exact ⟨lower before, lower after, by simp [lower]⟩

/-! ## What is found -/

section
variable {s : Session Db} {limit : Int} {part : String} {row : JobRow}

theorem passes_iff (some_text : part ≠ "") :
    row.passes none (some part) = true ↔
      ∃ text, row.name = some text ∧ ∃ piece, piece <:+: text.toList ∧ Reads part.toList piece := by
  have pattern : ("%" ++ part ++ "%").toList = '%' :: part.toList ++ ['%'] := by simp
  have given : truthy (some part) = true := truthy_some.mpr some_text
  have absent : truthy none = false := rfl
  rw [JobRow.passes, given, absent, Option.getD_some, pattern]
  simp only [Bool.not_false, Bool.not_true, Bool.true_or, Bool.false_or, Bool.true_and, Option.any_eq_true,
    likes_around]

theorem named_iff : row.named part = true ↔ ∃ text, row.name = some text ∧ Contains part text := by
  simp only [JobRow.named, Option.any_eq_true, decide_eq_true_eq]

theorem named_passes (some_text : part ≠ "") (named : row.named part = true) :
    row.passes none (some part) = true := by
  obtain ⟨text, name, inside⟩ := named_iff.mp named
  obtain ⟨piece, within, same⟩ := lower_infix inside
  exact (passes_iff some_text).mpr ⟨text, name, piece, within, reads_itself same⟩

theorem misread_iff (some_text : part ≠ "") :
    row.Misread part ↔ row.passes none (some part) = true ∧ row.named part = false := by
  rw [passes_iff some_text, ← Bool.not_eq_true, named_iff]
  constructor
  · rintro ⟨text, name, found, missing⟩
    refine ⟨⟨text, name, found⟩, ?_⟩
    rintro ⟨other, again, inside⟩
    rw [name] at again
    obtain rfl := Option.some.inj again
    exact missing inside
  · rintro ⟨⟨text, name, found⟩, missing⟩
    exact ⟨text, name, found, fun inside => missing ⟨text, name, inside⟩⟩

theorem listJobs_unlimited (unlimited : Unlimited s limit part) :
    listJobs limit none (some part) none s = (.ok (s.live.listed none (some part)), s) := by
  obtain ⟨fits, most⟩ := unlimited
  rw [listJobs_run none fits, before_none, limited]
  split
  · rfl
  · rename_i positive
    rw [List.take_of_length_le]
    omega

/-- The search is right in a store exactly if no name there is found through a wildcard alone. -/
theorem finds_store_iff (some_text : part ≠ "") (unlimited : Unlimited s limit part) :
    Finds s limit part ↔ ∀ row ∈ s.live.jobs.rows, ¬row.Misread part := by
  have listed := listed_perm s.live none (some part)
  rw [Finds, listJobs_unlimited unlimited]
  constructor
  · rintro ⟨rows, same, perm⟩ row member misread
    obtain rfl := Except.ok.inj (congrArg Prod.fst same)
    obtain ⟨passes, unnamed⟩ := (misread_iff some_text).mp misread
    have inside := (listed.symm.trans perm).mem_iff.mp (List.mem_filter.mpr ⟨member, passes⟩)
    rw [(List.mem_filter.mp inside).2] at unnamed
    cases unnamed
  · intro none_misread
    refine ⟨_, rfl, listed.trans (.of_eq (List.filter_congr ?_))⟩
    intro row member
    cases named : row.named part with
    | true => exact named_passes some_text named
    | false =>
      by_contra passes
      rw [Bool.not_eq_false] at passes
      exact none_misread row member ((misread_iff some_text).mpr ⟨passes, named⟩)

end

/-! ## Which searches can go wrong -/

/-- A text the pattern stands for that has no wildcard in it. -/
def filled (pattern : List Char) : List Char :=
  pattern.flatMap fun c => if c = '%' then [] else if c = '_' then ['a'] else [c]

theorem reads_filled (pattern : List Char) : Reads pattern (filled pattern) := by
  induction pattern with
  | nil => exact .nil
  | cons c pattern ih =>
    rw [filled, List.flatMap_cons]
    by_cases star : c = '%'
    · subst star
      exact .run [] ih
    by_cases blank : c = '_'
    · subst blank
      exact .any 'a' ih
    · rw [if_neg star, if_neg blank]
      exact .letter ⟨star, blank⟩ rfl ih

theorem filled_free {c : Char} (inside : c ∈ filled pattern) : c ≠ '%' ∧ c ≠ '_' := by
  obtain ⟨d, -, inside⟩ := List.mem_flatMap.mp inside
  split at inside
  · cases inside
  · rename_i star
    split at inside
    · obtain rfl := List.mem_singleton.mp inside
      decide
    · rename_i blank
      obtain rfl := List.mem_singleton.mp inside
      exact ⟨star, blank⟩

theorem toLower_wildcard {c : Char} (wild : c.toLower = '%' ∨ c.toLower = '_') : c = '%' ∨ c = '_' := by
  by_cases upper : c.val ≥ 'A'.val ∧ c.val ≤ 'Z'.val
  · have same : c.toLower.val = c.val + ('a'.val - 'A'.val) := congrArg Char.val (dif_pos upper)
    have low : 65 ≤ c.val.toNat := UInt32.le_iff_toNat_le.mp upper.1
    have high : c.val.toNat ≤ 90 := UInt32.le_iff_toNat_le.mp upper.2
    have shifted : (c.val + ('a'.val - 'A'.val)).toNat = c.val.toNat + 32 := by
      have apart : ('a'.val - 'A'.val).toNat = 32 := by decide
      rw [UInt32.toNat_add, apart]
      exact Nat.mod_eq_of_lt (by omega)
    rw [← same] at shifted
    rcases wild with named | named
    · rw [named] at shifted
      have code : c.val.toNat + 32 = 37 := shifted.symm
      omega
    · rw [named] at shifted
      have code : c.val.toNat + 32 = 95 := shifted.symm
      omega
  · have same : c.toLower = c := dif_neg upper
    rwa [same] at wild

/-- A store of one job with this name. -/
def oneJob (name : String) : Session Db :=
  let row : JobRow :=
    { id := "job_1", type := "train", name := some name, status := .queued, priority := 0,
      createdAt := 1, updatedAt := 1, owner := none, request := singleTask, idempotencyKey := none }
  .settled { jobs := ⟨[row], List.nodup_singleton _⟩ }

theorem search_misled {part : String} (some_text : part ≠ "") (wild : '%' ∈ part.toList ∨ '_' ∈ part.toList) :
    ¬Finds (oneJob (String.ofList (filled part.toList))) (-1) part := by
  have free {c : Char} (inside : c ∈ lower (filled part.toList)) : c ≠ '%' ∧ c ≠ '_' := by
    obtain ⟨d, within, rfl⟩ := List.mem_map.mp inside
    rw [← not_or]
    intro wild
    obtain ⟨star, blank⟩ := filled_free within
    rcases toLower_wildcard wild with same | same
    · exact star same
    · exact blank same
  have unlimited : Unlimited (oneJob (String.ofList (filled part.toList))) (-1) part :=
    ⟨by decide, .inl (by decide)⟩
  rw [finds_store_iff some_text unlimited]
  intro none_misread
  refine none_misread _ (List.mem_singleton.mpr rfl) ?_
  refine ⟨_, rfl, ⟨filled part.toList, by rw [String.toList_ofList], reads_filled _⟩, ?_⟩
  intro inside
  rw [Contains, String.toList_ofList] at inside
  rcases wild with star | blank
  · exact (free (inside.subset (List.mem_map_of_mem star))).1 rfl
  · exact (free (inside.subset (List.mem_map_of_mem blank))).2 rfl

/-- A search by name finds the jobs whose names contain the text exactly if no stored name is found
through a wildcard in the text alone, which is so in every store exactly if there is none in it.
A NUL in a name, and a pattern beyond the length SQLite takes, are left out. -/
theorem search_finds_iff (part : String) (some_text : part ≠ "") :
    (∀ s limit, Unlimited s limit part →
      (Finds s limit part ↔ ∀ row ∈ s.live.jobs.rows, ¬row.Misread part)) ∧
    ((∀ s limit, Unlimited s limit part → Finds s limit part) ↔
      '%' ∉ part.toList ∧ '_' ∉ part.toList) := by
  refine ⟨fun s limit unlimited => finds_store_iff some_text unlimited, ?_, ?_⟩
  · intro always
    by_contra wild
    rw [not_and_or, not_not, not_not] at wild
    exact search_misled some_text wild (always _ (-1) ⟨by decide, .inl (by decide)⟩)
  · rintro ⟨star, blank⟩ s limit unlimited
    rw [finds_store_iff some_text unlimited]
    rintro row - ⟨text, -, ⟨piece, within, reads⟩, missing⟩
    apply missing
    rw [Contains, reads_fixed star blank reads]
    exact infix_lower within

theorem search_finds_alpha : Finds (oneJob "Alpha") (-1) "alp" :=
  (search_finds_iff "alp" (by decide)).2.mpr ⟨by decide, by decide⟩ (oneJob "Alpha") (-1)
    ⟨by decide, .inl (by decide)⟩

/-- An underscore finds every job that has a name at all. -/
theorem underscore_finds_all :
    listJobs (-1) none (some "_") none (oneJob "a") = (.ok (oneJob "a").live.jobs.rows, oneJob "a") ∧
      ¬Finds (oneJob "a") (-1) "_" :=
  ⟨rfl, search_misled (by decide) (.inr (by decide))⟩

end N4Cluster
