import N4Cluster.Python
import Mathlib.Logic.Function.Basic
import Mathlib.Data.List.Chain
import Mathlib.Data.List.Dedup
import Mathlib.Data.Option.Basic

/-! `_select_prediction_X`: the rows of a dataset matrix that a prediction belongs to,
told by row indices and by identity columns the prediction and the dataset share. -/
namespace N4Cluster

/-- What is asked of the values of a column: whether two compare equal, without raising,
and their text; `None` has none. -/
structure Scalars (V : Type) where
  equal : V → V → Bool
  text : V → Option String

/-- A value of a metadata mapping; a sequence is a list, a tuple, or an array with at least
one dimension, flattened. -/
inductive Payload (V : Type) where
  | sequence (values : List V)
  | mapping (fields : List (String × Payload V))
  | other

abbrev SampleFields (V : Type) := List (String × Payload V)

/-- `_sequence_or_none`. -/
def Payload.sequenceOrNone {V : Type} : Payload V → Option (List V)
  | .sequence values => some values
  | .mapping _ | .other => none

/-- `_mapping_or_empty`. -/
def Payload.mappingOrEmpty {V : Type} : Payload V → SampleFields V
  | .mapping fields => fields
  | .sequence _ | .other => []

/-- An array of predictions: absent, without a length, or with one. -/
inductive Sized where
  | absent
  | unsized
  | sized (length : Nat)

/-- `sample_indices`, with the entries it has as a one-dimensional array of integers. -/
inductive SampleIndices where
  | absent
  | unsized
  | sized (length : Nat) (entries : Option (List Int))

def SampleIndices.size : SampleIndices → Sized
  | .absent => .absent
  | .unsized => .unsized
  | .sized length _ => .sized length

structure PredictionArrays (V : Type) where
  yTrue : Sized := .absent
  yPred : Sized := .absent
  yProba : Sized := .absent
  sampleIndices : SampleIndices := .absent
  sampleMetadata : Payload V := .other
  resultMetadata : Payload V := .other

/-- `_ROBUSTNESS_REPLAY_IDENTITY_KEYS`, by canonical name. -/
inductive IdentityKey where
  | sampleId | physicalSampleId | originSampleId | rowId | unitId | observationId | internalSampleId
deriving DecidableEq

def IdentityKey.all : List IdentityKey :=
  [.sampleId, .physicalSampleId, .originSampleId, .rowId, .unitId, .observationId, .internalSampleId]

def IdentityKey.aliases : IdentityKey → List String
  | .sampleId => ["sample_id", "sample_ids"]
  | .physicalSampleId => ["physical_sample_id", "physical_sample_ids"]
  | .originSampleId => ["origin_sample_id", "origin_sample_ids"]
  | .rowId => ["row_id", "row_ids"]
  | .unitId => ["unit_id", "unit_ids"]
  | .observationId => ["observation_id", "observation_ids"]
  | .internalSampleId => ["internal_sample_id", "internal_sample_ids"]

def nestedKeys : List String :=
  ["row_identity", "sample_identity", "prediction_identity", "materialization_manifest",
    "relation_replay_manifest", "relation_materialization_manifest"]

/-- The dictionary of identity columns, whose keys are canonical names. -/
abbrev Identities (V : Type) := IdentityKey → Option (List V)

abbrev DatasetMetadata (V : Type) := List (String × List V)

section
variable {V : Type} (S : Scalars V)

/-- `first == second` of two lists. -/
def Scalars.same (first second : List V) : Bool := first.isEqv second S.equal

def Sized.length : Sized → Option (Option Nat)
  | .absent => some none
  | .unsized => none
  | .sized length => some (some length)

/-- The lengths of the arrays present; none if one of them has no length. -/
def arrayLengths (arrays : PredictionArrays V) : Option (List Nat) := do
  let lengths ← [arrays.yTrue, arrays.yPred, arrays.yProba, arrays.sampleIndices.size].mapM Sized.length
  return lengths.filterMap id

def columnLengths (arrays : PredictionArrays V) : List Nat :=
  arrays.sampleMetadata.mappingOrEmpty.filterMap fun field =>
    field.2.sequenceOrNone.map List.length

/-- `_prediction_row_count`. -/
def predictionRowCount (arrays : PredictionArrays V) : Option Nat := do
  let lengths ← arrayLengths arrays
  match lengths ++ columnLengths arrays with
  | [] => none
  | first :: rest => if 0 < first ∧ ∀ length ∈ rest, length = first then some first else none

/-- The loop of `_unique_identity_index`. -/
def indexFrom (position : Nat) (index : List (String × Nat)) : List V → Option (List (String × Nat))
  | [] => some index
  | value :: rest =>
    match S.text value with
    | none => none
    | some key =>
      if (index.lookup key).isSome then none
      else indexFrom (position + 1) (index ++ [(key, position)]) rest

/-- `_unique_identity_index`. -/
def uniqueIdentityIndex (values : List V) (expectedLen : Nat) : Option (List (String × Nat)) :=
  if values.length = expectedLen then indexFrom S 0 [] values else none

/-- One alias found in a mapping; none stands for the `ValueError`. -/
def absorb (expectedLen : Nat) (result : Identities V) (found : IdentityKey × Payload V) :
    Option (Identities V) :=
  match found.2.sequenceOrNone with
  | none => none
  | some values =>
    if values.length = expectedLen ∧ (result found.1).all (fun before => S.same before values) then
      some (Function.update result found.1 (some values))
    else none

/-- `_collect_prediction_identity_columns_from_mapping`, for as many levels as are left. -/
def collectColumns (expectedLen : Nat) : Nat → SampleFields V → Identities V → Option (Identities V)
  | 0, _, result => some result
  | levels + 1, payload, result => do
    let result ← IdentityKey.all.foldlM (fun result key =>
      key.aliases.foldlM (fun result name =>
        match payload.lookup name with
        | none => some result
        | some value => absorb S expectedLen result (key, value)) result) result
    nestedKeys.foldlM (fun result nestedKey =>
      match payload.lookup nestedKey with
      | some (.mapping nested) => collectColumns expectedLen levels nested result
      | _ => some result) result

/-- `_prediction_identity_columns`. -/
def predictionIdentityColumns (arrays : PredictionArrays V) (rowCount : Nat) : Option (Identities V) :=
  [arrays.sampleMetadata.mappingOrEmpty, arrays.resultMetadata.mappingOrEmpty].foldlM
    (fun result payload => collectColumns S rowCount 3 payload result) fun _ => none

/-- The columns of the dataset under the aliases of an identity. -/
def datasetColumns (dataset : DatasetMetadata V) (key : IdentityKey) : List (List V) :=
  key.aliases.filterMap fun name => dataset.lookup name

/-- One turn of the loop of `_prediction_identity_positions`. -/
def locate (rows rowCount : Nat) (identities : Identities V) (dataset : DatasetMetadata V)
    (selected : Option (List Nat)) (key : IdentityKey) : Option (Option (List Nat)) :=
  match identities key, datasetColumns dataset key with
  | some values, first :: rest => do
    guard (rest.all fun column => S.same column first)
    let index ← uniqueIdentityIndex S first rows
    let _ ← uniqueIdentityIndex S values rowCount
    let positions ← values.mapM fun value => (S.text value).bind fun key => index.lookup key
    guard (selected.all fun before => before = positions)
    return some positions
  | _, _ => return selected

/-- `_prediction_identity_positions`. -/
def predictionIdentityPositions (rows : Nat) (arrays : PredictionArrays V)
    (dataset : DatasetMetadata V) : Option (List Nat) := do
  let rowCount ← predictionRowCount arrays
  guard (!dataset.isEmpty)
  let identities ← predictionIdentityColumns S arrays rowCount
  let selected ← IdentityKey.all.foldlM (locate S rows rowCount identities dataset) none
  selected

/-- `X[positions]`; a position past the rows raises. -/
def takeRows {R : Type} (X : List R) (positions : List Nat) : Option (List R) :=
  positions.mapM fun position => X[position]?

/-- The branch of `_select_prediction_X` on `sample_indices`. -/
def selectByIndices {R : Type} (X : List R) (rowCount : Nat) (entries : Option (List Int))
    (identityPositions : Option (List Nat)) : Option (List R) := do
  let indices ← entries
  guard (indices.length = rowCount)
  guard (indices.dedup.length = rowCount)
  guard (indices.all fun i => 0 ≤ i)
  guard (indices.all fun i => i < X.length)
  let selected ← takeRows X (indices.map Int.toNat)
  guard (identityPositions.all fun positions => indices = positions.map Int.ofNat)
  return selected

/-- Some identity of the predictions is also in the dataset. -/
def comparableIdentity (identities : Identities V) (dataset : DatasetMetadata V) : Bool :=
  IdentityKey.all.any fun key => (identities key).isSome && !(datasetColumns dataset key).isEmpty

/-- The positions that shared identities give, if there are any; none refuses. -/
def comparedPositions (rows : Nat) (arrays : PredictionArrays V) (identities : Identities V)
    (dataset : DatasetMetadata V) : Option (Option (List Nat)) :=
  if comparableIdentity identities dataset then
    (predictionIdentityPositions S rows arrays dataset).map some
  else some none

/-- `_select_prediction_X` once the identities are compared. -/
def selectCompared {R : Type} (X : List R) (sampleIndices : SampleIndices) (rowCount : Nat)
    (identities : Identities V) (identityPositions : Option (List Nat)) : Option (List R) :=
  match sampleIndices with
  | .sized _ entries => selectByIndices X rowCount entries identityPositions
  | .unsized => none
  | .absent =>
    match identityPositions with
    | some positions => takeRows X positions
    | none =>
      if IdentityKey.all.all (fun key => (identities key).isNone) ∧ rowCount = X.length then some X
      else none

/-- `_select_prediction_X`. -/
def selectPredictionX {R : Type} (X : List R) (arrays : PredictionArrays V)
    (dataset : DatasetMetadata V) : Option (List R) := do
  let rowCount ← predictionRowCount arrays
  let identities ← predictionIdentityColumns S arrays rowCount
  guard (IdentityKey.all.all fun key =>
    (identities key).all fun values => (uniqueIdentityIndex S values rowCount).isSome)
  let identityPositions ← comparedPositions S X.length arrays identities dataset
  selectCompared X arrays.sampleIndices rowCount identities identityPositions

/-! ## What a selection is -/

/-- The values found under the aliases of an identity, in order, for as many levels. -/
def found (key : IdentityKey) : Nat → SampleFields V → List (Payload V)
  | 0, _ => []
  | levels + 1, payload =>
    key.aliases.filterMap (fun name => payload.lookup name) ++
      nestedKeys.flatMap fun nestedKey =>
        match payload.lookup nestedKey with
        | some (.mapping nested) => found key levels nested
        | _ => []

/-- What the sample metadata and the result metadata hold of an identity. -/
def sources (arrays : PredictionArrays V) (key : IdentityKey) : List (Payload V) :=
  found key 3 arrays.sampleMetadata.mappingOrEmpty ++
    found key 3 arrays.resultMetadata.mappingOrEmpty

def PredictionArrays.sized (arrays : PredictionArrays V) : List Sized :=
  [arrays.yTrue, arrays.yPred, arrays.yProba, arrays.sampleIndices.size]

/-- Every array present and every list-valued column of the sample metadata has this
length, and there is one of them. -/
structure RowCount (arrays : PredictionArrays V) (n : Nat) : Prop where
  lengths : ∀ array ∈ arrays.sized, array = .absent ∨ array = .sized n
  columns : ∀ field ∈ arrays.sampleMetadata.mappingOrEmpty, ∀ values,
    field.2.sequenceOrNone = some values → values.length = n
  present : (∃ array ∈ arrays.sized, array ≠ .absent) ∨
    ∃ field ∈ arrays.sampleMetadata.mappingOrEmpty, field.2.sequenceOrNone.isSome = true

/-- The values are no nulls, and distinct as text. -/
def Distinct (values : List V) : Prop :=
  ∃ keys : List String, values.map S.text = keys.map some ∧ keys.Nodup

/-- The sources of an identity are columns of one length, each equal to the one before it,
and the last of them stands for the identity. -/
def Agree (n : Nat) (sources : List (Payload V)) (column : Option (List V)) : Prop :=
  ∃ columns : List (List V), sources.map Payload.sequenceOrNone = columns.map some ∧
    (∀ values ∈ columns, values.length = n) ∧
    columns.IsChain (fun before values => S.same before values = true) ∧
    column = columns.getLast?

/-- The dataset's columns of an identity agree, tell its rows apart, and have the text of
each value at its position. -/
def Located (rows : Nat) (columns : List (List V)) (values : List V) (positions : List Nat) : Prop :=
  ∃ first rest, columns = first :: rest ∧ (∀ column ∈ rest, S.same column first = true) ∧
    first.length = rows ∧ Distinct S first ∧
    values.map S.text = positions.map fun position => first[position]?.bind S.text

/-- The evidence agrees on `n` rows and, where an identity is shared with the dataset, on
their positions. -/
structure Evidence (rows : Nat) (arrays : PredictionArrays V) (dataset : DatasetMetadata V)
    (n : Nat) (positions : Option (List Nat)) : Prop where
  count : RowCount arrays n
  positive : 0 < n
  identity : ∀ key, ∃ column, Agree S n (sources arrays key) column ∧
    ∀ values, column = some values → Distinct S values ∧
      (datasetColumns dataset key ≠ [] → ∃ p, positions = some p ∧
        Located S rows (datasetColumns dataset key) values p)
  shared : positions.isSome = true → ∃ key, sources arrays key ≠ [] ∧ datasetColumns dataset key ≠ []

/-- Row `i` of the result is row `positions[i]` of the matrix. -/
def RowsAt {R : Type} (X : List R) (positions : List Nat) (result : List R) : Prop :=
  positions.map (fun position => X[position]?) = result.map some

/-- The rows told by the evidence. -/
def Selects {R : Type} (X : List R) (arrays : PredictionArrays V) (dataset : DatasetMetadata V)
    (result : List R) : Prop :=
  ∃ n positions, Evidence S X.length arrays dataset n positions ∧
    match arrays.sampleIndices with
    | .sized _ entries => ∃ indices : List Nat, entries = some (indices.map Int.ofNat) ∧
        indices.length = n ∧ indices.Nodup ∧ (∀ p, positions = some p → indices = p) ∧
        RowsAt X indices result
    | _ =>
      match positions with
      | some p => RowsAt X p result
      | none => (∀ key, sources arrays key = []) ∧ n = X.length ∧ result = X

end

section
variable {α β σ : Type}

theorem mapM_iff {f : α → Option β} {xs : List α} {ys : List β} :
    xs.mapM f = some ys ↔ xs.map f = ys.map some := by
  induction xs generalizing ys with
  | nil => cases ys <;> simp
  | cons x rest ih =>
    rw [List.mapM_cons]
    cases ys with
    | nil => cases f x <;> cases rest.mapM f <;> simp
    | cons y more =>
      rw [List.map_cons, List.map_cons, List.cons.injEq, ← ih]
      cases f x <;> cases rest.mapM f <;> simp

theorem guard_iff {p : Prop} [Decidable p] {u : Unit} : (guard p : Option Unit) = some u ↔ p := by
  by_cases holds : p
  · rw [guard, if_pos holds]
    exact ⟨fun _ => holds, fun _ => rfl⟩
  · rw [guard, if_neg holds]
    exact ⟨nofun, fun held => absurd held holds⟩

theorem foldlM_flatMap (f : α → List β) (g : σ → β → Option σ) (xs : List α) (start : σ) :
    (xs.flatMap f).foldlM g start = xs.foldlM (fun result x => (f x).foldlM g result) start := by
  induction xs generalizing start with
  | nil => rfl
  | cons x rest ih =>
    rw [List.flatMap_cons, List.foldlM_append, List.foldlM_cons]
    congr 1
    funext result
    exact ih result

theorem foldlM_filterMap (f : α → Option β) (g : σ → β → Option σ) (xs : List α) (start : σ) :
    (xs.filterMap f).foldlM g start =
      xs.foldlM (fun result x => match f x with
        | none => some result
        | some y => g result y) start := by
  induction xs generalizing start with
  | nil => rfl
  | cons x rest ih =>
    rw [List.foldlM_cons, List.filterMap_cons]
    cases f x with
    | none => exact ih start
    | some y =>
      rw [List.foldlM_cons]
      congr 1
      funext result
      exact ih result

end

section
variable {V : Type} {S : Scalars V} {arrays : PredictionArrays V} {n : Nat}

theorem length_sized {array : Sized} {l : Nat} : array.length = some (some l) ↔ array = .sized l := by
  cases array <;> simp [Sized.length]

theorem mem_arrayLengths {lengths : List Nat} (measured : arrayLengths arrays = some lengths) (l : Nat) :
    l ∈ lengths ↔ .sized l ∈ arrays.sized := by
  obtain ⟨sizes, mapped, same⟩ := Option.bind_eq_some_iff.mp measured
  obtain rfl := Option.some.inj same
  have sizes_eq : arrays.sized.map Sized.length = sizes.map some := mapM_iff.mp mapped
  have member : some (some l) ∈ sizes.map some ↔ .sized l ∈ arrays.sized := by
    rw [← sizes_eq, List.mem_map]
    constructor
    · intro ⟨array, inside, length⟩
      rwa [← length_sized.mp length]
    · intro inside
      exact ⟨_, inside, rfl⟩
  rw [← member]
  simp

theorem arrayLengths_some :
    (∃ lengths, arrayLengths arrays = some lengths) ↔ .unsized ∉ arrays.sized := by
  constructor
  · intro ⟨lengths, measured⟩ inside
    obtain ⟨sizes, mapped, _⟩ := Option.bind_eq_some_iff.mp measured
    have sizes_eq : arrays.sized.map Sized.length = sizes.map some := mapM_iff.mp mapped
    have member : none ∈ sizes.map some := by
      rw [← sizes_eq]
      exact List.mem_map.mpr ⟨_, inside, rfl⟩
    simp at member
  · intro outside
    have all : ∀ array ∈ arrays.sized, ∃ size, array.length = some size := by
      intro array member
      cases array with
      | absent => exact ⟨_, rfl⟩
      | unsized => exact absurd member outside
      | sized length => exact ⟨_, rfl⟩
    choose! size sizes using all
    have mapped : arrays.sized.mapM Sized.length = some (arrays.sized.map size) := by
      apply mapM_iff.mpr
      rw [List.map_map]
      exact List.map_congr_left sizes
    exact ⟨_, Option.bind_eq_some_iff.mpr ⟨_, mapped, rfl⟩⟩

theorem mem_columnLengths {l : Nat} : l ∈ columnLengths arrays ↔
    ∃ field ∈ arrays.sampleMetadata.mappingOrEmpty, ∃ values,
      field.2.sequenceOrNone = some values ∧ values.length = l := by
  simp only [columnLengths, List.mem_filterMap, Option.map_eq_some_iff]

theorem rowCount_iff {lengths : List Nat} (measured : arrayLengths arrays = some lengths) :
    RowCount arrays n ↔ lengths ++ columnLengths arrays ≠ [] ∧
      ∀ l ∈ lengths ++ columnLengths arrays, l = n := by
  have sized := mem_arrayLengths measured
  have known := arrayLengths_some.mp ⟨lengths, measured⟩
  constructor
  · intro ⟨arrayLength, columnLength, present⟩
    constructor
    · rcases present with ⟨array, member, there⟩ | ⟨field, member, there⟩
      · rcases arrayLength array member with absent | rfl
        · exact absurd absent there
        · exact List.ne_nil_of_mem (List.mem_append_left _ ((sized n).mpr member))
      · obtain ⟨values, sequence⟩ := Option.isSome_iff_exists.mp there
        have inside := mem_columnLengths.mpr ⟨field, member, values, sequence, rfl⟩
        exact List.ne_nil_of_mem (List.mem_append_right _ inside)
    · intro l member
      rcases List.mem_append.mp member with array | column
      · rcases arrayLength _ ((sized l).mp array) with absent | same
        · cases absent
        · cases same
          rfl
      · obtain ⟨field, inside, values, sequence, rfl⟩ := mem_columnLengths.mp column
        exact columnLength field inside values sequence
  · intro ⟨held, all⟩
    constructor
    · intro array member
      cases array with
      | absent => exact .inl rfl
      | unsized => exact absurd member known
      | sized l =>
        rw [all l (List.mem_append_left _ ((sized l).mpr member))]
        exact .inr rfl
    · intro field member values sequence
      exact all _ (List.mem_append_right _ (mem_columnLengths.mpr ⟨field, member, values, sequence, rfl⟩))
    · obtain ⟨l, member⟩ := List.exists_mem_of_ne_nil _ held
      rcases List.mem_append.mp member with array | column
      · exact .inl ⟨_, (sized l).mp array, by simp⟩
      · obtain ⟨field, inside, values, sequence, _⟩ := mem_columnLengths.mp column
        exact .inr ⟨field, inside, by rw [sequence]; rfl⟩

theorem predictionRowCount_iff : predictionRowCount arrays = some n ↔ RowCount arrays n ∧ 0 < n := by
  constructor
  · intro counted
    obtain ⟨lengths, measured, counted⟩ := Option.bind_eq_some_iff.mp counted
    rw [rowCount_iff measured]
    cases total : lengths ++ columnLengths arrays with
    | nil =>
      rw [total] at counted
      cases counted
    | cons first rest =>
      rw [total] at counted
      simp only [Option.ite_none_right_eq_some, Option.some.injEq] at counted
      obtain ⟨⟨positive, equal⟩, rfl⟩ := counted
      exact ⟨⟨List.cons_ne_nil _ _, List.forall_mem_cons.mpr ⟨rfl, equal⟩⟩, positive⟩
  · intro ⟨count, positive⟩
    have known : .unsized ∉ arrays.sized := by
      intro member
      rcases count.lengths _ member with absent | sized
      · cases absent
      · cases sized
    obtain ⟨lengths, measured⟩ := arrayLengths_some.mpr known
    apply Option.bind_eq_some_iff.mpr
    refine ⟨lengths, measured, ?_⟩
    obtain ⟨held, all⟩ := (rowCount_iff measured).mp count
    cases total : lengths ++ columnLengths arrays with
    | nil => exact absurd total held
    | cons first rest =>
      rw [total] at all
      obtain ⟨rfl, equal⟩ := List.forall_mem_cons.mp all
      exact if_pos ⟨positive, equal⟩

/-- What the levels of a mapping hold, in the order in which it is collected. -/
def events (levels : Nat) (payload : SampleFields V) : List (IdentityKey × Payload V) :=
  match levels with
  | 0 => []
  | levels + 1 =>
    IdentityKey.all.flatMap (fun key =>
      (key.aliases.filterMap fun name => payload.lookup name).map fun value => (key, value)) ++
      nestedKeys.flatMap fun nestedKey =>
        match payload.lookup nestedKey with
        | some (.mapping nested) => events levels nested
        | _ => []

theorem collectColumns_events (levels : Nat) (payload : SampleFields V) (result : Identities V) :
    collectColumns S n levels payload result = (events levels payload).foldlM (absorb S n) result := by
  induction levels generalizing payload result with
  | zero => rfl
  | succ levels ih =>
    unfold collectColumns events
    rw [List.foldlM_append, foldlM_flatMap]
    congr 1
    · congr 1
      funext result key
      rw [List.foldlM_map, foldlM_filterMap]
      congr 1
      funext result name
      cases payload.lookup name <;> rfl
    · funext result
      rw [foldlM_flatMap]
      congr 1
      funext result nestedKey
      split
      · exact ih _ _
      · rfl

/-- The values of one identity among those collected. -/
def valuesOf (key : IdentityKey) (all : List (IdentityKey × Payload V)) : List (Payload V) :=
  (all.filter fun found => found.1 = key).map Prod.snd

theorem valuesOf_append (key : IdentityKey) (front back : List (IdentityKey × Payload V)) :
    valuesOf key (front ++ back) = valuesOf key front ++ valuesOf key back := by
  simp only [valuesOf, List.filter_append, List.map_append]

theorem valuesOf_flatMap {α : Type} (key : IdentityKey) (xs : List α)
    (f : α → List (IdentityKey × Payload V)) :
    valuesOf key (xs.flatMap f) = xs.flatMap fun x => valuesOf key (f x) := by
  induction xs with
  | nil => rfl
  | cons x rest ih => rw [List.flatMap_cons, List.flatMap_cons, valuesOf_append, ih]

theorem valuesOf_map (key key' : IdentityKey) (values : List (Payload V)) :
    valuesOf key (values.map fun value => (key', value)) = if key' = key then values else [] := by
  by_cases same : key' = key
  · simp [valuesOf, same, List.filter_map, Function.comp_def]
  · simp [valuesOf, same, List.filter_map, Function.comp_def]

theorem valuesOf_keys (key : IdentityKey) (f : IdentityKey → List (Payload V)) :
    valuesOf key (IdentityKey.all.flatMap fun key' => (f key').map fun value => (key', value)) = f key := by
  simp only [valuesOf_flatMap, valuesOf_map]
  cases key <;> simp [IdentityKey.all]

theorem valuesOf_events (key : IdentityKey) (levels : Nat) (payload : SampleFields V) :
    valuesOf key (events levels payload) = found key levels payload := by
  induction levels generalizing payload with
  | zero => rfl
  | succ levels ih =>
    unfold events found
    rw [valuesOf_append, valuesOf_keys, valuesOf_flatMap]
    congr 2
    funext nestedKey
    split
    · exact ih _
    · rfl

/-- The values of an identity are taken up one after another after what is held of it. -/
def Chained (S : Scalars V) (n : Nat) (held : Option (List V)) :
    List (Payload V) → Option (List V) → Prop
  | [], final => final = held
  | value :: rest, final => ∃ values, value.sequenceOrNone = some values ∧ values.length = n ∧
      (∀ before, held = some before → S.same before values = true) ∧
      Chained S n (some values) rest final

theorem absorb_iff {result final : Identities V} {key : IdentityKey} {value : Payload V} :
    absorb S n result (key, value) = some final ↔ ∃ values, value.sequenceOrNone = some values ∧
      values.length = n ∧ (∀ before, result key = some before → S.same before values = true) ∧
      final = Function.update result key (some values) := by
  unfold absorb
  cases value.sequenceOrNone with
  | none => simp
  | some values =>
    simp only [Option.ite_none_right_eq_some, Option.all_eq_true, Option.some.injEq, and_assoc,
      exists_eq_left', eq_comm (a := final)]

theorem absorbs_iff {all : List (IdentityKey × Payload V)} {result final : Identities V} :
    all.foldlM (absorb S n) result = some final ↔
      ∀ key, Chained S n (result key) (valuesOf key all) (final key) := by
  induction all generalizing result with
  | nil =>
    rw [List.foldlM_nil]
    constructor
    · intro same key
      cases same
      rfl
    · intro same
      exact congrArg some (funext fun key => (same key).symm)
  | cons first rest ih =>
    obtain ⟨key, value⟩ := first
    have here : ∀ k, valuesOf k ((key, value) :: rest) =
        if key = k then value :: valuesOf k rest else valuesOf k rest := by
      intro k
      by_cases same : key = k <;> simp [valuesOf, same]
    rw [List.foldlM_cons]
    constructor
    · intro ran k
      obtain ⟨next, absorbed, later⟩ := Option.bind_eq_some_iff.mp ran
      obtain ⟨values, sequence, length, equal, rfl⟩ := absorb_iff.mp absorbed
      have chained := ih.mp later k
      rw [here]
      by_cases same : key = k
      · subst same
        rw [Function.update_self] at chained
        rw [if_pos rfl]
        exact ⟨values, sequence, length, equal, chained⟩
      · rw [Function.update_of_ne (Ne.symm same)] at chained
        rwa [if_neg same]
    · intro chained
      have mine := chained key
      rw [here, if_pos rfl] at mine
      obtain ⟨values, sequence, length, equal, later⟩ := mine
      have next := absorb_iff.mpr ⟨values, sequence, length, equal, rfl⟩
      apply Option.bind_eq_some_iff.mpr
      refine ⟨_, next, ih.mpr ?_⟩
      intro k
      by_cases same : key = k
      · subst same
        rwa [Function.update_self]
      · have other := chained k
        rw [here, if_neg same] at other
        rwa [Function.update_of_ne (Ne.symm same)]

theorem chained_iff {held final : Option (List V)} {sources : List (Payload V)} :
    Chained S n held sources final ↔ ∃ columns : List (List V),
      sources.map Payload.sequenceOrNone = columns.map some ∧
      (∀ values ∈ columns, values.length = n) ∧
      (held.toList ++ columns).IsChain (fun before values => S.same before values = true) ∧
      final = (held.toList ++ columns).getLast? := by
  have joined : ∀ (values : List V) (columns : List (List V)),
      (held.toList ++ values :: columns).IsChain (fun a b => S.same a b = true) ↔
        (∀ before, held = some before → S.same before values = true) ∧
          (values :: columns).IsChain fun a b => S.same a b = true := by
    intro values columns
    cases held with
    | none => simp
    | some before => simp
  have ended : ∀ (values : List V) (columns : List (List V)),
      (held.toList ++ values :: columns).getLast? = (values :: columns).getLast? := by
    intro values columns
    cases held with
    | none => rfl
    | some before => exact List.getLast?_cons_cons
  induction sources generalizing held with
  | nil =>
    constructor
    · intro same
      refine ⟨[], rfl, by simp, ?_, ?_⟩
      · cases held <;> simp
      · rw [same]
        cases held <;> rfl
    · intro ⟨columns, mapped, _, _, final_eq⟩
      obtain rfl := List.map_eq_nil_iff.mp mapped.symm
      rw [final_eq]
      cases held <;> rfl
  | cons value rest ih =>
    constructor
    · intro ⟨values, sequence, length, equal, later⟩
      obtain ⟨columns, mapped, lengths, chain, final_eq⟩ := (ih (by simp) (by simp)).mp later
      refine ⟨values :: columns, ?_, List.forall_mem_cons.mpr ⟨length, lengths⟩, ?_, ?_⟩
      · rw [List.map_cons, List.map_cons, sequence, mapped]
      · exact (joined values columns).mpr ⟨equal, chain⟩
      · rw [ended]
        exact final_eq
    · intro ⟨columns, mapped, lengths, chain, final_eq⟩
      cases columns with
      | nil => cases mapped
      | cons values columns =>
        rw [List.map_cons, List.map_cons, List.cons.injEq] at mapped
        obtain ⟨length, lengths⟩ := List.forall_mem_cons.mp lengths
        obtain ⟨equal, chain⟩ := (joined values columns).mp chain
        rw [ended] at final_eq
        refine ⟨values, mapped.1, length, equal, ?_⟩
        exact (ih (by simp) (by simp)).mpr ⟨columns, mapped.2, lengths, chain, final_eq⟩

theorem predictionIdentityColumns_iff {identities : Identities V} :
    predictionIdentityColumns S arrays n = some identities ↔
      ∀ key, Agree S n (sources arrays key) (identities key) := by
  have whole : predictionIdentityColumns S arrays n =
      (events 3 arrays.sampleMetadata.mappingOrEmpty ++
        events 3 arrays.resultMetadata.mappingOrEmpty).foldlM (absorb S n) fun _ => none := by
    rw [List.foldlM_append]
    simp only [predictionIdentityColumns, List.foldlM_cons, List.foldlM_nil, collectColumns_events]
    congr 1
    funext result
    exact bind_pure _
  rw [whole, absorbs_iff]
  apply forall_congr'
  intro key
  rw [valuesOf_append, valuesOf_events, valuesOf_events, chained_iff]
  rfl

theorem indexFrom_iff {position : Nat} {index final : List (String × Nat)} {values : List V} :
    indexFrom S position index values = some final ↔
      ∃ keys : List String, values.map S.text = keys.map some ∧ keys.Nodup ∧
        (∀ key ∈ keys, index.lookup key = none) ∧ final = index ++ keys.zipIdx position := by
  induction values generalizing position index with
  | nil =>
    constructor
    · intro same
      cases same
      exact ⟨[], rfl, List.nodup_nil, by simp, by simp⟩
    · intro ⟨keys, mapped, _, _, final_eq⟩
      obtain rfl := List.map_eq_nil_iff.mp mapped.symm
      rw [final_eq]
      simp [indexFrom]
  | cons value rest ih =>
    unfold indexFrom
    cases text : S.text value with
    | none =>
      constructor
      · intro same
        cases same
      · intro ⟨keys, mapped, _⟩
        rw [List.map_cons, text] at mapped
        cases keys <;> simp at mapped
    | some key =>
      have extended : ∀ k, (index ++ [(key, position)]).lookup k = none ↔
          index.lookup k = none ∧ k ≠ key := by
        intro k
        rw [List.lookup_append, Option.or_eq_none_iff]
        by_cases same : k = key
        · simp [same]
        · simp [List.lookup_cons, beq_false_of_ne same, same]
      dsimp only
      constructor
      · intro ran
        split at ran
        · cases ran
        · rename_i fresh
          obtain ⟨keys, mapped, nodup, absent, final_eq⟩ := ih.mp ran
          have apart : key ∉ keys := fun member => ((extended key).mp (absent key member)).2 rfl
          refine ⟨key :: keys, ?_, List.nodup_cons.mpr ⟨apart, nodup⟩, ?_, ?_⟩
          · rw [List.map_cons, List.map_cons, text, mapped]
          · intro k member
            rcases List.mem_cons.mp member with rfl | later
            · exact Option.not_isSome_iff_eq_none.mp fresh
            · exact ((extended k).mp (absent k later)).1
          · rw [final_eq, List.zipIdx_cons, List.append_assoc]
            rfl
      · intro ⟨keys, mapped, nodup, absent, final_eq⟩
        cases keys with
        | nil => cases mapped
        | cons first keys =>
          rw [List.map_cons, List.map_cons, text, List.cons.injEq] at mapped
          obtain ⟨same, mapped⟩ := mapped
          obtain rfl := Option.some.inj same
          obtain ⟨apart, nodup⟩ := List.nodup_cons.mp nodup
          rw [if_neg (by rw [absent key List.mem_cons_self]; simp)]
          refine ih.mpr ⟨keys, mapped, nodup, ?_, ?_⟩
          · intro k member
            exact (extended k).mpr ⟨absent k (List.mem_cons_of_mem _ member),
              fun same => apart (same ▸ member)⟩
          · rw [final_eq, List.zipIdx_cons, List.append_assoc]
            rfl

theorem uniqueIdentityIndex_iff {values : List V} {index : List (String × Nat)} :
    uniqueIdentityIndex S values n = some index ↔ values.length = n ∧
      ∃ keys : List String, values.map S.text = keys.map some ∧ keys.Nodup ∧ index = keys.zipIdx := by
  unfold uniqueIdentityIndex
  rw [Option.ite_none_right_eq_some, indexFrom_iff]
  simp

theorem unique_iff {values : List V} :
    (uniqueIdentityIndex S values n).isSome = true ↔ values.length = n ∧ Distinct S values := by
  rw [Option.isSome_iff_exists]
  simp only [uniqueIdentityIndex_iff]
  constructor
  · intro ⟨_, length, keys, mapped, nodup, _⟩
    exact ⟨length, keys, mapped, nodup⟩
  · intro ⟨length, keys, mapped, nodup⟩
    exact ⟨_, length, keys, mapped, nodup, rfl⟩

theorem lookup_zipIdx {keys : List String} (nodup : keys.Nodup) (position : Nat) (key : String) (j : Nat) :
    (keys.zipIdx position).lookup key = some j ↔ position ≤ j ∧ keys[j - position]? = some key := by
  induction keys generalizing position with
  | nil => simp
  | cons first rest ih =>
    obtain ⟨apart, nodup⟩ := List.nodup_cons.mp nodup
    rw [List.zipIdx_cons, List.lookup_cons]
    by_cases same : key = first
    · subst same
      rw [beq_self_eq_true]
      constructor
      · intro here
        cases here
        simp
      · intro ⟨le, there⟩
        cases ahead : j - position with
        | zero => exact congrArg some (by omega)
        | succ m =>
          rw [ahead, List.getElem?_cons_succ] at there
          exact absurd (List.mem_of_getElem? there) apart
    · rw [beq_false_of_ne same]
      dsimp only
      rw [ih nodup]
      constructor
      · intro ⟨le, there⟩
        have ahead : j - position = (j - (position + 1)) + 1 := by omega
        rw [ahead, List.getElem?_cons_succ]
        exact ⟨by omega, there⟩
      · intro ⟨le, there⟩
        cases ahead : j - position with
        | zero =>
          rw [ahead] at there
          exact absurd (Option.some.inj there).symm same
        | succ m =>
          rw [ahead, List.getElem?_cons_succ] at there
          have less : j - (position + 1) = m := by omega
          rw [less]
          exact ⟨by omega, there⟩

/-- Looking the texts of values up in the index of a column finds the rows with those texts. -/
theorem positions_iff {column values : List V} {keys : List String} {positions : List Nat}
    (mapped : column.map S.text = keys.map some) (nodup : keys.Nodup) (distinct : Distinct S values) :
    values.mapM (fun value => (S.text value).bind fun key => keys.zipIdx.lookup key) = some positions ↔
      values.map S.text = positions.map fun position => column[position]?.bind S.text := by
  have row : ∀ j : Nat, column[j]?.bind S.text = keys[j]? := by
    intro j
    have both := congrArg (·[j]?) mapped
    simp only [List.getElem?_map] at both
    cases at_column : column[j]? with
    | none =>
      rw [at_column] at both
      cases at_keys : keys[j]? with
      | none => rfl
      | some key =>
        rw [at_keys] at both
        cases both
    | some value =>
      rw [at_column] at both
      cases at_keys : keys[j]? with
      | none =>
        rw [at_keys] at both
        cases both
      | some key =>
        rw [at_keys] at both
        exact Option.some.inj both
  obtain ⟨names, texts, -⟩ := distinct
  have each : ∀ (name : String) (j : Nat), keys.zipIdx.lookup name = some j ↔ keys[j]? = some name := by
    intro name j
    rw [lookup_zipIdx nodup]
    simp
  rw [mapM_iff]
  simp only [row]
  clear row mapped nodup
  induction values generalizing names positions with
  | nil => cases positions <;> simp
  | cons value rest ih =>
    cases names with
    | nil => cases texts
    | cons name names =>
      rw [List.map_cons, List.map_cons, List.cons.injEq] at texts
      cases positions with
      | nil => simp
      | cons position positions =>
        have later : rest.map (fun value => (S.text value).bind fun key => keys.zipIdx.lookup key) =
            positions.map some ↔ rest.map S.text = positions.map fun position => keys[position]? :=
          ih names texts.2
        simp only [List.map_cons, List.cons.injEq]
        rw [later, texts.1, Option.bind_some, each, eq_comm]

section
variable {rows : Nat} {identities : Identities V} {dataset : DatasetMetadata V}
  {selected next : Option (List Nat)} {key : IdentityKey}

theorem locate_skipped (either : identities key = none ∨ datasetColumns dataset key = []) :
    locate S rows n identities dataset selected key = some selected := by
  unfold locate
  rcases either with absent | absent
  · rw [absent]
    rfl
  · rw [absent]
    cases identities key <;> rfl

theorem locate_shared {values : List V} (held : identities key = some values)
    (length : values.length = n) (distinct : Distinct S values)
    (shared : datasetColumns dataset key ≠ []) :
    locate S rows n identities dataset selected key = some next ↔ ∃ p, next = some p ∧
      Located S rows (datasetColumns dataset key) values p ∧
        ∀ before, selected = some before → before = p := by
  obtain ⟨first, rest, columns⟩ := List.exists_cons_of_ne_nil shared
  have indexed := unique_iff.mpr ⟨length, distinct⟩
  obtain ⟨told, indexed⟩ := Option.isSome_iff_exists.mp indexed
  unfold locate
  rw [held, columns]
  dsimp only
  constructor
  · intro ran
    obtain ⟨_, agree, indexing⟩ := Option.bind_eq_some_iff.mp ran
    obtain ⟨index, unique, checking⟩ := Option.bind_eq_some_iff.mp indexing
    obtain ⟨_, _, looking⟩ := Option.bind_eq_some_iff.mp checking
    obtain ⟨p, mapped, comparing⟩ := Option.bind_eq_some_iff.mp looking
    obtain ⟨_, before, returned⟩ := Option.bind_eq_some_iff.mp comparing
    obtain ⟨rows_eq, keys, texts, nodup, rfl⟩ := uniqueIdentityIndex_iff.mp unique
    have agree := List.all_eq_true.mp (guard_iff.mp agree)
    have before := Option.all_eq_true _ _ |>.mp (guard_iff.mp before)
    refine ⟨p, (Option.some.inj returned).symm, ⟨first, rest, rfl, agree, rows_eq, ⟨keys, texts, nodup⟩, ?_⟩, ?_⟩
    · exact (positions_iff texts nodup distinct).mp mapped
    · intro q same
      exact of_decide_eq_true (before q same)
  · intro ⟨p, same, ⟨first', rest', split, agree, rows_eq, ⟨keys, texts, nodup⟩, mapped⟩, before⟩
    cases split
    have unique := uniqueIdentityIndex_iff.mpr ⟨rows_eq, keys, texts, nodup, rfl⟩
    apply Option.bind_eq_some_iff.mpr
    refine ⟨(), guard_iff.mpr (List.all_eq_true.mpr agree), ?_⟩
    apply Option.bind_eq_some_iff.mpr
    refine ⟨_, unique, ?_⟩
    apply Option.bind_eq_some_iff.mpr
    refine ⟨_, indexed, ?_⟩
    apply Option.bind_eq_some_iff.mpr
    refine ⟨p, (positions_iff texts nodup distinct).mpr mapped, ?_⟩
    apply Option.bind_eq_some_iff.mpr
    refine ⟨(), guard_iff.mpr ((Option.all_eq_true _ _).mpr ?_), congrArg some same.symm⟩
    intro q there
    exact decide_eq_true (before q there)

/-- The loop ends with the one list of positions that every shared identity gives. -/
theorem locates_iff {keys : List IdentityKey}
    (told : ∀ key values, identities key = some values → values.length = n ∧ Distinct S values) :
    keys.foldlM (locate S rows n identities dataset) selected = some next ↔
      (∀ key ∈ keys, ∀ values, identities key = some values → datasetColumns dataset key ≠ [] →
        ∃ p, next = some p ∧ Located S rows (datasetColumns dataset key) values p) ∧
      (∀ before, selected = some before → next = some before) ∧
      (next.isSome = true → selected.isSome = true ∨
        ∃ key ∈ keys, (identities key).isSome = true ∧ datasetColumns dataset key ≠ []) := by
  induction keys generalizing selected with
  | nil =>
    rw [List.foldlM_nil]
    constructor
    · intro same
      cases same
      exact ⟨by simp, fun _ there => there, .inl⟩
    · intro ⟨_, kept, shared⟩
      cases selected with
      | some before => rw [kept before rfl]; rfl
      | none =>
        cases next with
        | none => rfl
        | some p => simpa using shared rfl
  | cons key rest ih =>
    rw [List.foldlM_cons]
    by_cases shared : (identities key).isSome = true ∧ datasetColumns dataset key ≠ []
    · obtain ⟨some_values, columns⟩ := shared
      obtain ⟨values, held⟩ := Option.isSome_iff_exists.mp some_values
      obtain ⟨length, distinct⟩ := told key values held
      have turn : ∀ next, locate S rows n identities dataset selected key = some next ↔ ∃ p,
          next = some p ∧ Located S rows (datasetColumns dataset key) values p ∧
            ∀ before, selected = some before → before = p :=
        fun _ => locate_shared held length distinct columns
      constructor
      · intro ran
        obtain ⟨mid, here, later⟩ := Option.bind_eq_some_iff.mp ran
        obtain ⟨p, rfl, located, before⟩ := (turn mid).mp here
        obtain ⟨others, kept, _⟩ := ih.mp later
        have final := kept p rfl
        refine ⟨?_, ?_, fun _ => .inr ⟨key, List.mem_cons_self, some_values, columns⟩⟩
        · intro k member
          rcases List.mem_cons.mp member with rfl | member
          · intro values' held' _
            cases held.symm.trans held'
            exact ⟨p, final, located⟩
          · exact others k member
        · intro q there
          rw [final, before q there]
      · intro ⟨all, kept, _⟩
        obtain ⟨p, final, located⟩ := all key List.mem_cons_self values held columns
        have same : ∀ before, selected = some before → before = p := by
          intro before there
          exact Option.some.inj ((kept before there).symm.trans final)
        apply Option.bind_eq_some_iff.mpr
        refine ⟨some p, (turn _).mpr ⟨p, rfl, located, same⟩, ih.mpr ⟨?_, ?_, ?_⟩⟩
        · exact fun k member => all k (List.mem_cons_of_mem _ member)
        · intro before there
          rw [final, there]
        · exact fun _ => .inl rfl
    · have either : identities key = none ∨ datasetColumns dataset key = [] := by
        by_cases columns : datasetColumns dataset key = []
        · exact .inr columns
        · exact .inl (Option.not_isSome_iff_eq_none.mp fun held => shared ⟨held, columns⟩)
      rw [locate_skipped either]
      change rest.foldlM _ selected = some next ↔ _
      rw [ih]
      constructor
      · intro ⟨all, kept, origin⟩
        refine ⟨?_, kept, ?_⟩
        · intro k member values held columns
          rcases List.mem_cons.mp member with rfl | member
          · exact absurd ⟨by rw [held]; rfl, columns⟩ shared
          · exact all k member values held columns
        · intro some_next
          rcases origin some_next with before | ⟨k, member, held⟩
          · exact .inl before
          · exact .inr ⟨k, List.mem_cons_of_mem _ member, held⟩
      · intro ⟨all, kept, origin⟩
        refine ⟨fun k member => all k (List.mem_cons_of_mem _ member), kept, ?_⟩
        intro some_next
        rcases origin some_next with before | ⟨k, member, held⟩
        · exact .inl before
        · rcases List.mem_cons.mp member with rfl | member
          · exact absurd held shared
          · exact .inr ⟨k, member, held⟩

end

theorem all_keys (key : IdentityKey) : key ∈ IdentityKey.all := by
  cases key <;> decide

/-! ## The selection -/

section
variable {R : Type} {X : List R} {dataset : DatasetMetadata V} {result : List R}

theorem takeRows_iff {positions : List Nat} :
    takeRows X positions = some result ↔ RowsAt X positions result := mapM_iff

theorem selectByIndices_iff {entries : Option (List Int)} {positions : Option (List Nat)} :
    selectByIndices X n entries positions = some result ↔ ∃ indices : List Nat,
      entries = some (indices.map Int.ofNat) ∧ indices.length = n ∧ indices.Nodup ∧
        (∀ p, positions = some p → indices = p) ∧ RowsAt X indices result := by
  have injective : Function.Injective Int.ofNat := fun _ _ => Int.ofNat.inj
  have back : ∀ indices : List Nat, (indices.map Int.ofNat).map Int.toNat = indices := by
    intro indices
    rw [List.map_map]
    exact List.map_id indices
  constructor
  · intro ran
    obtain ⟨raw, rfl, counting⟩ := Option.bind_eq_some_iff.mp ran
    obtain ⟨_, length, telling⟩ := Option.bind_eq_some_iff.mp counting
    obtain ⟨_, distinct, lower⟩ := Option.bind_eq_some_iff.mp telling
    obtain ⟨_, above, upper⟩ := Option.bind_eq_some_iff.mp lower
    obtain ⟨_, _, taking⟩ := Option.bind_eq_some_iff.mp upper
    obtain ⟨rows, taken, comparing⟩ := Option.bind_eq_some_iff.mp taking
    obtain ⟨_, equal, returned⟩ := Option.bind_eq_some_iff.mp comparing
    obtain rfl := Option.some.inj returned
    have above := List.all_eq_true.mp (guard_iff.mp above)
    have natural : (raw.map Int.toNat).map Int.ofNat = raw := by
      rw [List.map_map]
      conv_rhs => rw [← List.map_id raw]
      apply List.map_congr_left
      intro i member
      exact Int.toNat_of_nonneg (of_decide_eq_true (above i member))
    have nodup : raw.Nodup := by
      have all := (guard_iff.mp distinct).trans (guard_iff.mp length).symm
      rw [← (List.dedup_sublist raw).eq_of_length all]
      exact List.nodup_dedup raw
    refine ⟨raw.map Int.toNat, congrArg some natural.symm, ?_, ?_, ?_, takeRows_iff.mp taken⟩
    · rw [List.length_map]
      exact guard_iff.mp length
    · rw [← natural] at nodup
      exact nodup.of_map
    · intro p there
      have same := (Option.all_eq_true _ _).mp (guard_iff.mp equal) p there
      rw [of_decide_eq_true same, back]
  · rintro ⟨indices, rfl, length, nodup, equal, rows⟩
    have inside : ∀ i ∈ indices, i < X.length := by
      intro i member
      have there : X[i]? ∈ result.map some := rows ▸ List.mem_map.mpr ⟨i, member, rfl⟩
      obtain ⟨row, _, found⟩ := List.mem_map.mp there
      exact (List.getElem?_eq_some_iff.mp found.symm).1
    apply Option.bind_eq_some_iff.mpr
    refine ⟨(), guard_iff.mpr (by rw [List.length_map, length]), ?_⟩
    apply Option.bind_eq_some_iff.mpr
    refine ⟨(), guard_iff.mpr ?_, ?_⟩
    · rw [(nodup.map injective).dedup, List.length_map, length]
    apply Option.bind_eq_some_iff.mpr
    refine ⟨(), guard_iff.mpr ?_, ?_⟩
    · simp
    apply Option.bind_eq_some_iff.mpr
    refine ⟨(), guard_iff.mpr ?_, ?_⟩
    · simpa using inside
    apply Option.bind_eq_some_iff.mpr
    refine ⟨result, ?_, ?_⟩
    · rw [back]
      exact takeRows_iff.mpr rows
    apply Option.bind_eq_some_iff.mpr
    refine ⟨(), guard_iff.mpr ((Option.all_eq_true _ _).mpr ?_), rfl⟩
    intro p there
    rw [equal p there]
    exact decide_eq_true rfl

theorem Agree.isSome {sources : List (Payload V)} {column : Option (List V)}
    (agree : Agree S n sources column) : column.isSome = true ↔ sources ≠ [] := by
  obtain ⟨columns, mapped, _, _, rfl⟩ := agree
  have both : columns = [] ↔ sources = [] := by
    have lengths := congrArg List.length mapped
    rw [List.length_map, List.length_map] at lengths
    rw [← List.length_eq_zero_iff, ← List.length_eq_zero_iff, lengths]
  rw [Option.isSome_iff_ne_none, ne_eq, List.getLast?_eq_none_iff, both]

theorem Agree.length {sources : List (Payload V)} {column : Option (List V)} {values : List V}
    (agree : Agree S n sources column) (held : column = some values) : values.length = n := by
  obtain ⟨columns, _, lengths, _, rfl⟩ := agree
  exact lengths values (List.mem_of_getLast? held)

/-- What the identities of the predictions give with those of the dataset. -/
def Shared (S : Scalars V) (rows : Nat) (identities : Identities V) (dataset : DatasetMetadata V)
    (positions : Option (List Nat)) : Prop :=
  (∀ key values, identities key = some values → datasetColumns dataset key ≠ [] → ∃ p,
    positions = some p ∧ Located S rows (datasetColumns dataset key) values p) ∧
  (positions.isSome = true → ∃ key, (identities key).isSome = true ∧ datasetColumns dataset key ≠ [])

theorem evidence_iff {rows : Nat} {positions : Option (List Nat)} :
    Evidence S rows arrays dataset n positions ↔ RowCount arrays n ∧ 0 < n ∧
      ∃ identities : Identities V, (∀ key, Agree S n (sources arrays key) (identities key)) ∧
        (∀ key values, identities key = some values → Distinct S values) ∧
        Shared S rows identities dataset positions := by
  constructor
  · intro ⟨count, positive, identity, shared⟩
    choose identities agree told using identity
    refine ⟨count, positive, identities, agree, fun key values held => (told key values held).1,
      fun key values held => (told key values held).2, ?_⟩
    intro some_positions
    obtain ⟨key, held, columns⟩ := shared some_positions
    exact ⟨key, (agree key).isSome.mpr held, columns⟩
  · intro ⟨count, positive, identities, agree, distinct, located, shared⟩
    refine ⟨count, positive, fun key => ⟨identities key, agree key, fun values held => ?_⟩, ?_⟩
    · exact ⟨distinct key values held, located key values held⟩
    · intro some_positions
      obtain ⟨key, held, columns⟩ := shared some_positions
      exact ⟨key, (agree key).isSome.mp held, columns⟩

theorem comparableIdentity_iff {identities : Identities V} : comparableIdentity identities dataset = true ↔
    ∃ key, (identities key).isSome = true ∧ datasetColumns dataset key ≠ [] := by
  rw [comparableIdentity, List.any_eq_true]
  constructor
  · intro ⟨key, _, both⟩
    exact ⟨key, by simpa using both⟩
  · intro ⟨key, both⟩
    exact ⟨key, all_keys key, by simpa using both⟩

theorem shared_iff {rows : Nat} {identities : Identities V} {positions : Option (List Nat)}
    (counted : predictionRowCount arrays = some n)
    (collected : predictionIdentityColumns S arrays n = some identities)
    (told : ∀ key values, identities key = some values → values.length = n ∧ Distinct S values) :
    comparedPositions S rows arrays identities dataset = some positions ↔
      Shared S rows identities dataset positions := by
  have looped : ∀ p, predictionIdentityPositions S rows arrays dataset = some p ↔
      dataset.isEmpty = false ∧
        IdentityKey.all.foldlM (locate S rows n identities dataset) none = some (some p) := by
    intro p
    simp only [predictionIdentityPositions, counted, collected, Option.bind_eq_bind,
      Option.bind_some, Option.bind_eq_some_iff, guard_iff]
    simp
  unfold comparedPositions
  split
  · rename_i comparable
    obtain ⟨key, held, columns⟩ := comparableIdentity_iff.mp comparable
    have nonempty : dataset.isEmpty = false := by
      cases dataset with
      | nil => exact absurd (by cases key <;> rfl) columns
      | cons => rfl
    rw [Option.map_eq_some_iff]
    constructor
    · rintro ⟨p, ran, same⟩
      subst same
      obtain ⟨located, _, shared⟩ := (locates_iff told).mp ((looped p).mp ran).2
      refine ⟨fun key values => located key (all_keys key) values, fun some_positions => ?_⟩
      exact ⟨key, held, columns⟩
    · rintro ⟨located, shared⟩
      obtain ⟨values, held⟩ := Option.isSome_iff_exists.mp held
      obtain ⟨p, same, _⟩ := located key values held columns
      subst same
      refine ⟨p, (looped p).mpr ⟨nonempty, (locates_iff told).mpr ⟨?_, ?_, ?_⟩⟩, rfl⟩
      · exact fun key _ values => located key values
      · intro before none
        cases none
      · intro some_positions
        obtain ⟨key, shared⟩ := shared some_positions
        exact .inr ⟨key, all_keys key, shared⟩
  · rename_i apart
    have none_shared : ∀ key, (identities key).isSome = true → datasetColumns dataset key ≠ [] → False :=
      fun key held columns => apart (comparableIdentity_iff.mpr ⟨key, held, columns⟩)
    constructor
    · intro same
      cases same
      refine ⟨fun key values held columns => ?_, fun some_positions => by cases some_positions⟩
      exact (none_shared key (by rw [held]; rfl) columns).elim
    · rintro ⟨_, shared⟩
      cases positions with
      | none => rfl
      | some p =>
        obtain ⟨key, held, columns⟩ := shared rfl
        exact (none_shared key held columns).elim

theorem told_iff {identities : Identities V}
    (agree : ∀ key, Agree S n (sources arrays key) (identities key)) :
    (IdentityKey.all.all fun key => (identities key).all fun values =>
      (uniqueIdentityIndex S values n).isSome) = true ↔
        ∀ key values, identities key = some values → Distinct S values := by
  rw [List.all_eq_true]
  constructor
  · intro all key values held
    have unique := (Option.all_eq_true _ _).mp (all key (all_keys key)) values held
    exact (unique_iff.mp unique).2
  · intro distinct key _
    apply (Option.all_eq_true _ _).mpr
    intro values held
    exact unique_iff.mpr ⟨(agree key).length held, distinct key values held⟩

theorem selectCompared_iff {identities : Identities V} {positions : Option (List Nat)}
    (sized : arrays.sampleIndices ≠ .unsized)
    (agree : ∀ key, Agree S n (sources arrays key) (identities key)) :
    selectCompared X arrays.sampleIndices n identities positions = some result ↔
      match arrays.sampleIndices with
      | .sized _ entries => ∃ indices : List Nat, entries = some (indices.map Int.ofNat) ∧
          indices.length = n ∧ indices.Nodup ∧ (∀ p, positions = some p → indices = p) ∧
          RowsAt X indices result
      | _ =>
        match positions with
        | some p => RowsAt X p result
        | none => (∀ key, sources arrays key = []) ∧ n = X.length ∧ result = X := by
  cases held : arrays.sampleIndices with
  | unsized => exact absurd held sized
  | sized length entries => exact selectByIndices_iff
  | absent =>
    cases positions with
    | some p => exact takeRows_iff
    | none =>
      have empty : IdentityKey.all.all (fun key => (identities key).isNone) = true ↔
          ∀ key, sources arrays key = [] := by
        rw [List.all_eq_true]
        have each : ∀ key, (identities key).isNone = true ↔ sources arrays key = [] := by
          intro key
          rw [← not_iff_not, Option.isNone_iff_eq_none, ← ne_eq, ← Option.isSome_iff_ne_none]
          exact (agree key).isSome
        exact ⟨fun all key => (each key).mp (all key (all_keys key)), fun all key _ => (each key).mpr (all key)⟩
      simp only [selectCompared, Option.ite_none_right_eq_some, Option.some.injEq, empty, and_assoc,
        eq_comm (a := X)]

/-- The rows returned are those the evidence tells, and none are returned where it does not
tell them. -/
theorem rows_aligned {V R : Type} (S : Scalars V) (X : List R) (arrays : PredictionArrays V)
    (dataset : DatasetMetadata V) (result : List R) :
    selectPredictionX S X arrays dataset = some result ↔ Selects S X arrays dataset result := by
  have sized : ∀ {n}, RowCount arrays n → arrays.sampleIndices ≠ .unsized := by
    intro n count same
    have member : arrays.sampleIndices.size ∈ arrays.sized := by simp [PredictionArrays.sized]
    rcases count.lengths _ member with absent | other
    · rw [same] at absent
      cases absent
    · rw [same] at other
      cases other
  constructor
  · intro ran
    obtain ⟨n, counted, collecting⟩ := Option.bind_eq_some_iff.mp ran
    obtain ⟨identities, collected, checking⟩ := Option.bind_eq_some_iff.mp collecting
    obtain ⟨_, unique, comparing⟩ := Option.bind_eq_some_iff.mp checking
    obtain ⟨positions, located, selecting⟩ := Option.bind_eq_some_iff.mp comparing
    obtain ⟨count, positive⟩ := predictionRowCount_iff.mp counted
    have agree := predictionIdentityColumns_iff.mp collected
    have distinct := (told_iff agree).mp (guard_iff.mp unique)
    have told := fun key values held => And.intro ((agree key).length held) (distinct key values held)
    have shared := (shared_iff counted collected told).mp located
    exact ⟨n, positions, evidence_iff.mpr ⟨count, positive, identities, agree, distinct, shared⟩,
      (selectCompared_iff (sized count) agree).mp selecting⟩
  · intro ⟨n, positions, evidence, rows⟩
    obtain ⟨count, positive, identities, agree, distinct, shared⟩ := evidence_iff.mp evidence
    have counted := predictionRowCount_iff.mpr ⟨count, positive⟩
    have collected := predictionIdentityColumns_iff.mpr agree
    have told := fun key values held => And.intro ((agree key).length held) (distinct key values held)
    apply Option.bind_eq_some_iff.mpr
    refine ⟨n, counted, ?_⟩
    apply Option.bind_eq_some_iff.mpr
    refine ⟨identities, collected, ?_⟩
    apply Option.bind_eq_some_iff.mpr
    refine ⟨(), guard_iff.mpr ((told_iff agree).mpr distinct), ?_⟩
    apply Option.bind_eq_some_iff.mpr
    refine ⟨positions, (shared_iff counted collected told).mpr shared, ?_⟩
    exact (selectCompared_iff (sized count) agree).mpr rows

end

end

/-- A whole number as `int` or as `float`. -/
inductive Number where
  | int (value : Int)
  | float (value : Int)

def Number.value : Number → Int
  | .int value | .float value => value

def numbers : Scalars Number where
  equal a b := a.value = b.value
  text
    | .int value => some (toString value)
    | .float value => some (toString value ++ ".0")

/-- Two sources of one identity, equal but not distinct as text in the first. -/
def mixedArrays : PredictionArrays Number where
  yPred := .sized 2
  sampleIndices := .sized 2 (some [0, 1])
  sampleMetadata := .mapping [("sample_id", .sequence [.int 1, .int 1])]
  resultMetadata := .mapping [("sample_id", .sequence [.int 1, .float 1])]

theorem earlier_source_indistinct : ¬∀ (X : List String) (arrays : PredictionArrays Number)
    (dataset : DatasetMetadata Number) (result : List String),
      selectPredictionX numbers X arrays dataset = some result →
      ∀ key values, Payload.sequence values ∈ sources arrays key → Distinct numbers values := by
  intro all
  have selected : selectPredictionX numbers ["a", "b"] mixedArrays [] = some ["a", "b"] := by
    decide +kernel
  have source : Payload.sequence [.int 1, .int 1] ∈ sources mixedArrays .sampleId := List.mem_cons_self
  obtain ⟨keys, mapped, nodup⟩ := all _ _ _ _ selected .sampleId _ source
  match keys, mapped, nodup with
  | [a, b], mapped, nodup =>
    simp only [List.map_cons, List.map_nil, List.cons.injEq, and_true] at mapped
    have same : a = b := Option.some.inj (mapped.1.symm.trans mapped.2)
    simp [same] at nodup

end N4Cluster
