import N4Cluster.Runner.Publication
import N4Cluster.Base.Scanning
import N4Cluster.Base.Sorting
import Mathlib.Data.List.Dedup
import N4Cluster.Base.Related

/-! `_select_legacy_bundle_fold`: the fold closure kept in an exported bundle.
Joblib, scikit-learn and the JSON text of a value are taken as they come. -/
namespace N4Cluster
open Scanning Fallible

/-- An entry of an archive. -/
structure ArchiveItem where
  filename : String
  data : Bytes
deriving DecidableEq

/-- How a file reads as an archive. -/
abbrev Archive := Except Exn (List ArchiveItem)

/-- The bundle and its sibling of suffix `.n4a.tmp`. -/
structure BundleFiles where
  path : Archive
  temporary : Option Archive

/-- The libraries a bundle is rewritten with. -/
structure BundleLibraries where
  loads : Bytes → Except Exn Json
  dumps : Json → Bytes
  /-- The operator of an entry behind the cast to the input dtype, stored again. -/
  wrapped : String → Bytes → Except Exn Bytes

/-- Answers while the bundle is rewritten. -/
structure RewriteAnswers where
  imported : Except Exn Unit
  written : Except Exn Unit
  replaced : Except Exn Unit

/-- `np.asarray(weights)`: an item is its float, or what it raises when it is used as one. -/
structure WeightArray where
  ndim : Nat
  values : List (Except Exn PyFloat)

/-- The zeros of the runs of ten decimal digits. -/
def decimalZeros : List Nat := [
  0x30, 0x660, 0x6f0, 0x7c0, 0x966, 0x9e6, 0xa66, 0xae6, 0xb66, 0xbe6, 0xc66, 0xce6, 0xd66, 0xde6,
  0xe50, 0xed0, 0xf20, 0x1040, 0x1090, 0x17e0, 0x1810, 0x1946, 0x19d0, 0x1a80, 0x1a90, 0x1b50, 0x1bb0,
  0x1c40, 0x1c50, 0xa620, 0xa8d0, 0xa900, 0xa9d0, 0xa9f0, 0xaa50, 0xabf0, 0xff10, 0x104a0, 0x10d30,
  0x11066, 0x110f0, 0x11136, 0x111d0, 0x112f0, 0x11450, 0x114d0, 0x11650, 0x116c0, 0x11730, 0x118e0,
  0x11950, 0x11c50, 0x11d50, 0x11da0, 0x16a60, 0x16ac0, 0x16b50, 0x1d7ce, 0x1d7d8, 0x1d7e2, 0x1d7ec,
  0x1d7f6, 0x1e140, 0x1e2f0, 0x1e950, 0x1fbf0]

def decimalValue (c : Char) : Option Nat :=
  (decimalZeros.find? fun first => first ≤ c.toNat && c.toNat < first + 10).map fun first => c.toNat - first

def isDecimalChar (c : Char) : Bool := (decimalValue c).isSome

/-- `text.isdecimal()`. -/
def isDecimal (text : String) : Bool := text != "" && text.toList.all isDecimalChar

def decimalNumber (text : String) : Nat :=
  text.toList.foldl (fun number c => number * 10 + (decimalValue c).getD 0) 0

/-- `int(text)` of decimal digits; a longer text passes the limit of the interpreter. -/
def intOf (text : String) : Except Exn Nat :=
  if 4300 < text.toList.length then .error (valueError "Exceeds the limit for integer string conversion")
  else .ok (decimalNumber text)

def artifactItem (filename : String) : Bool := "artifacts/".toList.isPrefixOf filename.toList

def foldChar (c : Char) : Bool := c != '_' && c != '/'

/-- `re.search(r"_fold([^_/]+)_", …)` of an artifact. -/
def foldOf (filename : String) : Option String :=
  if artifactItem filename then
    (search "_fold".toList foldChar '_' filename.toList).map String.ofList
  else none

/-- `re.search(r"/step_(\d+)_", …)` of an artifact. -/
def stepOf (filename : String) : Option String :=
  if artifactItem filename then
    (search "/step_".toList isDecimalChar '_' filename.toList).map String.ofList
  else none

def ensemble (foldId : String) : Bool := foldId == "avg" || foldId == "w_avg"

/-- The set of captured folds. -/
def capturedFolds (entries : List ArchiveItem) : List String :=
  (entries.filterMap fun item => foldOf item.filename).dedup

def selectedFold (foldId : String) (captured : List String) : String :=
  if foldId = "final" ∧ captured = ["0"] then "0" else foldId

def weightTable (values : List PyFloat) : Dict :=
  values.zipIdx.map fun (value, index) => (toString index, .float value)

def weightsMismatch : Exn := valueError "Captured ensemble weights do not identify the exported folds"

/-- `fold_weights`, of the weights if there are any. -/
def foldWeights (foldId : String) (captured : List String) (weights : Option (Except Exn WeightArray)) :
    Except Exn (Option Dict) :=
  match weights with
  | none => .ok none
  | some weights =>
    if foldId ≠ "w_avg" then .ok none
    else do
      let array ← weights
      let numericFolds ← (captured.filter isDecimal).mapM intOf
      if array.ndim ≠ 1 ∨ Sorting.sorted id numericFolds ≠ List.range array.values.length then
        .error weightsMismatch
      else
        let values ← array.values.mapM id
        if values.all PyFloat.isFinite then return some (weightTable values)
        else .error weightsMismatch

def keepsFold (foldId selected captured : String) : Bool :=
  captured == "all" || if ensemble foldId then isDecimal captured else captured == selected

def findsFold (foldId selected captured : String) : Bool :=
  captured == selected || ensemble foldId && isDecimal captured

def foldStrategy (foldId : String) : String :=
  if foldId = "avg" then "average" else if foldId = "w_avg" then "weighted_average" else "single"

section
variable (libraries : BundleLibraries)

/-- `manifest["fold_strategy"] = …` on the text of the manifest. -/
def restrategised (foldId : String) (data : Bytes) : Except Exn Bytes := do
  match ← libraries.loads data with
  | .obj fields => return libraries.dumps (.obj (setField fields "fold_strategy" (.str (foldStrategy foldId))))
  | _ => .error ⟨"TypeError", "object does not support item assignment"⟩

def reweighted (foldId : String) (table : Option Dict) (data : Bytes) : Bytes :=
  match table with
  | some table => libraries.dumps (.obj table)
  | none => if foldId = "w_avg" then data else "{}".toUTF8.toList

/-- The data an entry that is kept is stored with. -/
def rewriteItem (foldId : String) (table : Option Dict) (item : ArchiveItem) : Except Exn ArchiveItem :=
  if item.filename = "manifest.json" then
    (restrategised libraries foldId item.data).map fun data => { item with data := data }
  else if item.filename = "fold_weights.json" then
    .ok { item with data := reweighted libraries foldId table item.data }
  else .ok item

/-- One turn of the loop over the entries: those selected so far, and whether the fold is found. -/
def selectItem (foldId selected : String) (table : Option Dict) (progress : List ArchiveItem × Bool)
    (item : ArchiveItem) : Except Exn (List ArchiveItem × Bool) :=
  match foldOf item.filename with
  | some captured =>
    if !keepsFold foldId selected captured then .ok progress
    else do
      let kept ← rewriteItem libraries foldId table item
      return (progress.1 ++ [kept], progress.2 || findsFold foldId selected captured)
  | none => do
    let kept ← rewriteItem libraries foldId table item
    return (progress.1 ++ [kept], progress.2)

/-- The entry made for the weights if the bundle has none. -/
def addedWeights (table : Option Dict) (entries : List ArchiveItem) : List ArchiveItem :=
  match table with
  | some table =>
    if entries.any fun item => item.filename == "fold_weights.json" then []
    else [⟨"fold_weights.json", libraries.dumps (.obj table)⟩]
  | none => []

def operators (selected : List ArchiveItem) : Except Exn (List (Nat × Nat)) :=
  (selected.zipIdx.filterMap fun (item, index) => (stepOf item.filename).map fun step => (index, step)).mapM
    fun (index, step) => do return (index, ← intOf step)

def ambiguousOperator : Exn := valueError "Raw input dtype needs an unambiguous captured entry operator"

/-- The index of the single operator of the first step. -/
def entryOperator (operators : List (Nat × Nat)) : Except Exn Nat :=
  match (operators.map Prod.snd).min? with
  | none => .error (valueError "Exported bundle has no captured entry operator")
  | some firstStep =>
    match (operators.filter fun operator => operator.2 = firstStep).map Prod.fst with
    | [index] => .ok index
    | _ => .error ambiguousOperator

/-- The entry operator is bound to the dtype of the raw input. -/
def bindOperator (inputDtype : String) (selected : List ArchiveItem) : Except Exn (List ArchiveItem) := do
  let index ← entryOperator (← operators selected)
  match selected[index]? with
  | some item =>
    let data ← libraries.wrapped inputDtype item.data
    return selected.set index { item with data := data }
  | none => .error ⟨"IndexError", "list index out of range"⟩

def supportedFold (foldId : String) : Bool :=
  foldId == "final" || ensemble foldId || isDecimal foldId

/-- All that is done before the temporary file is opened. -/
def rewriteEntries (answers : RewriteAnswers) (foldId inputDtype : String)
    (weights : Option (Except Exn WeightArray)) (path : Archive) : Except Exn (List ArchiveItem) :=
  if !supportedFold foldId then .error (valueError "Unsupported prediction fold identity")
  else do
    let entries ← path
    let captured := capturedFolds entries
    let table ← foldWeights foldId captured weights
    let (selected, found) ←
      entries.foldlM (selectItem libraries foldId (selectedFold foldId captured) table) ([], false)
    if !found then .error (valueError "Selected fold artifact is absent from the exported bundle")
    else
      answers.imported
      bindOperator libraries inputDtype (selected ++ addedWeights libraries table selected)

/-- `temporary.unlink(missing_ok=True)`, taken to remove what is there. -/
def BundleFiles.unlink (files : BundleFiles) : BundleFiles := { files with temporary := none }

/-- `temporary.replace(path)`. -/
def BundleFiles.replace (files : BundleFiles) : BundleFiles :=
  match files.temporary with
  | some archive => ⟨archive, none⟩
  | none => files

/-- The `try` around the temporary file and its `finally`. -/
def storeBundle (answers : RewriteAnswers) (selected : List ArchiveItem) (files : BundleFiles) :
    Except Exn Unit × BundleFiles :=
  match answers.written with
  -- What was written of it does not read as an archive.
  | .error exn => (.error exn, BundleFiles.unlink { files with temporary := some (.error exn) })
  | .ok _ =>
    let written : BundleFiles := { files with temporary := some (.ok selected) }
    match answers.replaced with
    | .error exn => (.error exn, written.unlink)
    | .ok _ => (.ok (), written.replace.unlink)

def selectLegacyBundleFold (answers : RewriteAnswers) (foldId inputDtype : String)
    (weights : Option (Except Exn WeightArray)) (files : BundleFiles) : Except Exn Unit × BundleFiles :=
  match rewriteEntries libraries answers foldId inputDtype weights files.path with
  | .error exn => (.error exn, files)
  | .ok selected => storeBundle answers selected files

end

/-! ## What a selection keeps -/

/-- The name is that of an artifact, and the leftmost `lead(body+)_` in it captures the text. -/
structure ArtifactOf (lead : String) (body : Char → Bool) (filename captured : String) : Prop where
  artifact : artifactItem filename
  leftmost : ∃ skipped rest, filename.toList = skipped ++ rest ∧
    Captures lead.toList body '_' rest captured.toList ∧
    ∀ back, back <:+ skipped → back ≠ [] → ∀ other, ¬Captures lead.toList body '_' (back ++ rest) other

/-- An artifact of the fold. -/
def OfFold : String → String → Prop := ArtifactOf "_fold" foldChar

/-- An operator of the step. -/
def OfStep : String → String → Prop := ArtifactOf "/step_" isDecimalChar

/-- The archive has an artifact of the fold. -/
def Holds (entries : List ArchiveItem) (captured : String) : Prop :=
  ∃ item ∈ entries, OfFold item.filename captured

/-- A final model may be numbered, as the sole fold there is. -/
def NumberedFinal (foldId : String) (entries : List ArchiveItem) : Prop :=
  foldId = "final" ∧ ∀ captured, Holds entries captured ↔ captured = "0"

/-- The folds a request names. -/
inductive Requested (foldId : String) (entries : List ArchiveItem) (captured : String) : Prop where
  | ensemble (several : ensemble foldId) (numeric : isDecimal captured)
  | numbered (final : NumberedFinal foldId entries) (zero : captured = "0")
  | single (one : ensemble foldId = false) (named : ¬NumberedFinal foldId entries)
      (same : captured = foldId)

/-- An entry that stays: no artifact of a fold, or one of fold `all` or of a requested fold. -/
def Kept (foldId : String) (entries : List ArchiveItem) (item : ArchiveItem) : Prop :=
  ∀ captured, OfFold item.filename captured → captured = "all" ∨ Requested foldId entries captured

/-- The weights stored are those of the captured folds, which number them. -/
def Weighed (foldId : String) (entries : List ArchiveItem) (weights : Option (Except Exn WeightArray)) :
    Option Dict → Prop
  | none => foldId ≠ "w_avg" ∨ weights = none
  | some table => foldId = "w_avg" ∧ ∃ values : List PyFloat,
      weights = some (.ok ⟨1, values.map .ok⟩) ∧ (∀ value ∈ values, value.isFinite) ∧
      table = weightTable values ∧ ∀ number, number < values.length ↔
        ∃ captured, Holds entries captured ∧ isDecimal captured ∧ decimalNumber captured = number

section
variable (libraries : BundleLibraries) (foldId inputDtype : String) (table : Option Dict)

/-- The manifest read from the first text is that of the second with its strategy set. -/
def Restrategised (data stored : Bytes) : Prop :=
  ∃ fields fields', libraries.loads data = .ok (.obj fields) ∧ stored = libraries.dumps (.obj fields') ∧
    fields'.lookup "fold_strategy" = some (.str (foldStrategy foldId)) ∧
    fields'.filter (·.1 ≠ "fold_strategy") = fields.filter (·.1 ≠ "fold_strategy")

/-- An entry and what is stored of it, the entry operator apart. -/
structure Patched (item stored : ArchiveItem) : Prop where
  name : stored.filename = item.filename
  manifest : item.filename = "manifest.json" → Restrategised libraries foldId item.data stored.data
  weights : item.filename = "fold_weights.json" →
    stored.data = reweighted libraries foldId table item.data
  same : item.filename ≠ "manifest.json" → item.filename ≠ "fold_weights.json" → stored.data = item.data

/-- The entries of a bundle and those stored: the operator of the first step is bound to the dtype. -/
inductive Rewritten : List ArchiveItem → List ArchiveItem → Prop where
  | intro {front behind front' behind' : List ArchiveItem} {operator : ArchiveItem} {step : String}
      {data : Bytes} (operates : OfStep operator.filename step)
      (first : ∀ item ∈ front ++ behind, ∀ other, OfStep item.filename other →
        decimalNumber step < decimalNumber other)
      (bound : libraries.wrapped inputDtype operator.data = .ok data)
      (before : List.Forall₂ (Patched libraries foldId table) front front')
      (after : List.Forall₂ (Patched libraries foldId table) behind behind') :
      Rewritten (front ++ operator :: behind) (front' ++ { operator with data := data } :: behind')

/-- The bundle stored is the closure of the requested fold in the exported one. -/
structure FoldClosure (weights : Option (Except Exn WeightArray)) (entries stored : List ArchiveItem) :
    Prop where
  present : ∃ item ∈ stored, ∃ captured, OfFold item.filename captured ∧ Requested foldId entries captured
  rewritten : ∃ table, Weighed foldId entries weights table ∧
    ∃ keeps : ArchiveItem → Bool, (∀ item, keeps item ↔ Kept foldId entries item) ∧
      Rewritten libraries foldId inputDtype table
        (entries.filter keeps ++ addedWeights libraries table entries) stored

end

theorem artifactOf_iff {lead : String} {body : Char → Bool} (ends : body '_' = false) {filename captured : String} :
    (if artifactItem filename then (search lead.toList body '_' filename.toList).map String.ofList
      else none) = some captured ↔ ArtifactOf lead body filename captured := by
  split
  · rename_i artifact
    rw [Option.map_eq_some_iff]
    constructor
    · rintro ⟨group, found, rfl⟩
      exact ⟨artifact, (search_iff ends).mp (by rwa [String.toList_ofList (l := group)])⟩
    · intro named
      exact ⟨captured.toList, (search_iff ends).mpr named.leftmost, String.ofList_toList⟩
  · rename_i outside
    constructor
    · intro found
      cases found
    · intro named
      exact absurd named.artifact outside

theorem foldOf_iff {filename captured : String} : foldOf filename = some captured ↔ OfFold filename captured :=
  artifactOf_iff (by decide)

theorem stepOf_iff {filename step : String} : stepOf filename = some step ↔ OfStep filename step :=
  artifactOf_iff (by decide)

example : foldOf "artifacts/step_3_fold_foldavg_x.joblib" = some "avg" := by decide +kernel

theorem holds_iff {entries : List ArchiveItem} {captured : String} :
    captured ∈ capturedFolds entries ↔ Holds entries captured := by
  rw [capturedFolds, List.mem_dedup, List.mem_filterMap]
  simp only [foldOf_iff]
  rfl

theorem captured_zero {entries : List ArchiveItem} : capturedFolds entries = ["0"] ↔
    ∀ captured, Holds entries captured ↔ captured = "0" := by
  constructor
  · intro only captured
    rw [← holds_iff, only, List.mem_singleton]
  · intro only
    apply List.perm_singleton.mp
    apply (List.perm_ext_iff_of_nodup (List.nodup_dedup _) (List.nodup_singleton _)).mpr
    intro captured
    rw [List.mem_singleton, ← only captured]
    exact holds_iff

section
variable {foldId captured : String} {entries : List ArchiveItem}

theorem selectedFold_numbered (final : NumberedFinal foldId entries) :
    selectedFold foldId (capturedFolds entries) = "0" :=
  if_pos ⟨final.1, captured_zero.mpr final.2⟩

theorem selectedFold_named (named : ¬NumberedFinal foldId entries) :
    selectedFold foldId (capturedFolds entries) = foldId :=
  if_neg fun numbered => named ⟨numbered.1, captured_zero.mp numbered.2⟩

theorem NumberedFinal.single (final : NumberedFinal foldId entries) : ensemble foldId = false := by
  rw [final.1]
  decide

theorem requested_iff : Requested foldId entries captured ↔
    if ensemble foldId then isDecimal captured = true
    else captured = selectedFold foldId (capturedFolds entries) := by
  constructor
  · intro requested
    cases requested with
    | ensemble several numeric => rwa [if_pos several]
    | numbered final zero => rwa [final.single, if_neg Bool.false_ne_true, selectedFold_numbered final]
    | single one named same => rwa [one, if_neg Bool.false_ne_true, selectedFold_named named]
  · intro kept
    cases several : ensemble foldId with
    | true => exact .ensemble several (by rwa [if_pos several] at kept)
    | false =>
      rw [several, if_neg Bool.false_ne_true] at kept
      by_cases final : NumberedFinal foldId entries
      · exact .numbered final (kept.trans (selectedFold_numbered final))
      · exact .single several final (kept.trans (selectedFold_named final))

theorem keepsFold_iff : keepsFold foldId (selectedFold foldId (capturedFolds entries)) captured ↔
    captured = "all" ∨ Requested foldId entries captured := by
  rw [requested_iff, keepsFold, Bool.or_eq_true, beq_iff_eq]
  cases ensemble foldId with
  | true => exact Iff.rfl
  | false => simp only [Bool.false_eq_true, if_false, beq_iff_eq]

theorem ensemble_selected (several : ensemble foldId) :
    selectedFold foldId (capturedFolds entries) ≠ "all" := by
  rw [selectedFold_named fun final => absurd several (by simp [final.single])]
  rw [ensemble, Bool.or_eq_true, beq_iff_eq, beq_iff_eq] at several
  rcases several with rfl | rfl
  · decide
  · decide

/-- A fold that is kept and counts as found is requested. -/
theorem findsFold_requested
    (kept : keepsFold foldId (selectedFold foldId (capturedFolds entries)) captured)
    (found : findsFold foldId (selectedFold foldId (capturedFolds entries)) captured) :
    Requested foldId entries captured := by
  rcases keepsFold_iff.mp kept with rfl | requested
  · rw [findsFold, Bool.or_eq_true, beq_iff_eq, Bool.and_eq_true] at found
    rw [requested_iff]
    rcases found with same | ⟨several, numeric⟩
    · cases several : ensemble foldId with
      | true => exact absurd same.symm (ensemble_selected several)
      | false => rwa [if_neg Bool.false_ne_true]
    · rwa [if_pos several]
  · exact requested

end

/-! ## The loop over the entries -/

section
variable {libraries : BundleLibraries} {foldId : String} {table : Option Dict}

theorem lookup_replaced (fields : Dict) {key : String} (value : Json)
    (there : ∃ field ∈ fields, field.1 = key) :
    (fields.map fun field => if field.1 = key then (key, value) else field).lookup key = some value := by
  induction fields with
  | nil => simp at there
  | cons field fields ih =>
    rw [List.map_cons]
    by_cases same : field.1 = key
    · rw [if_pos same, List.lookup_cons_self]
    · rw [if_neg same, List.lookup_cons, beq_false_of_ne (Ne.symm same)]
      apply ih
      obtain ⟨other, member, named⟩ := there
      rcases List.mem_cons.mp member with rfl | later
      · exact absurd named same
      · exact ⟨other, later, named⟩

theorem setField_lookup (fields : Dict) (key : String) (value : Json) :
    (setField fields key value).lookup key = some value := by
  rw [setField]
  split
  · rename_i there
    apply lookup_replaced
    simpa only [List.any_eq_true, decide_eq_true_eq] using there
  · rename_i absent
    simp only [List.any_eq_true, decide_eq_true_eq, not_exists, not_and] at absent
    rw [List.lookup_append, List.lookup_eq_none_iff.mpr fun field member =>
      bne_iff_ne.mpr (Ne.symm (absent field member))]
    exact List.lookup_cons_self

theorem setField_others (fields : Dict) (key : String) (value : Json) :
    (setField fields key value).filter (·.1 ≠ key) = fields.filter (·.1 ≠ key) := by
  rw [setField]
  split
  · clear * -
    induction fields with
    | nil => rfl
    | cons field fields ih =>
      by_cases same : field.1 = key
      · simpa [same] using ih
      · simpa [same] using ih
  · rw [List.filter_append]
    simp

theorem restrategised_ok {data stored : Bytes} (ok : restrategised libraries foldId data = .ok stored) :
    Restrategised libraries foldId data stored := by
  obtain ⟨manifest, loaded, ok⟩ := bind_ok_iff.mp ok
  cases manifest with
  | obj fields =>
    cases ok
    exact ⟨fields, _, loaded, rfl, setField_lookup _ _ _, setField_others _ _ _⟩
  | _ => cases ok

theorem rewriteItem_patched {item stored : ArchiveItem}
    (ok : rewriteItem libraries foldId table item = .ok stored) :
    Patched libraries foldId table item stored := by
  rw [rewriteItem] at ok
  split at ok
  · rename_i manifest
    cases written : restrategised libraries foldId item.data with
    | error exn =>
      rw [written] at ok
      cases ok
    | ok data =>
      rw [written] at ok
      cases ok
      refine ⟨rfl, fun _ => restrategised_ok written, ?_, fun other => absurd manifest other⟩
      intro weights
      rw [manifest] at weights
      exact absurd weights (by decide)
  · rename_i other
    split at ok
    · rename_i weights
      cases ok
      exact ⟨rfl, fun manifest => absurd manifest other, fun _ => rfl, fun _ unlike => absurd weights unlike⟩
    · rename_i unlike
      cases ok
      exact ⟨rfl, fun manifest => absurd manifest other, fun weights => absurd weights unlike, fun _ _ => rfl⟩

def keepsItem (foldId selected : String) (item : ArchiveItem) : Bool :=
  (foldOf item.filename).all (keepsFold foldId selected)

/-- What the loop has done when it has seen some entries. -/
structure Selecting (libraries : BundleLibraries) (foldId selected : String) (table : Option Dict)
    (seen : List ArchiveItem) (progress : List ArchiveItem × Bool) : Prop where
  patched : List.Forall₂ (Patched libraries foldId table) (seen.filter (keepsItem foldId selected)) progress.1
  found : progress.2 → ∃ item ∈ seen.filter (keepsItem foldId selected), ∃ captured,
    foldOf item.filename = some captured ∧ keepsFold foldId selected captured ∧
      findsFold foldId selected captured

theorem selectItem_step {selected : String} {seen : List ArchiveItem} {progress next : List ArchiveItem × Bool}
    {item : ArchiveItem} (selecting : Selecting libraries foldId selected table seen progress)
    (ok : selectItem libraries foldId selected table progress item = .ok next) :
    Selecting libraries foldId selected table (seen ++ [item]) next := by
  obtain ⟨patched, found⟩ := selecting
  have dropped (out : keepsItem foldId selected item = false) :
      (seen ++ [item]).filter (keepsItem foldId selected) = seen.filter (keepsItem foldId selected) := by
    rw [List.filter_append, List.filter_singleton, out]
    exact List.append_nil _
  have stays (kept : keepsItem foldId selected item = true) :
      (seen ++ [item]).filter (keepsItem foldId selected) =
        seen.filter (keepsItem foldId selected) ++ [item] := by
    rw [List.filter_append, List.filter_singleton, kept]
    rfl
  rw [selectItem] at ok
  cases fold : foldOf item.filename with
  | none =>
    have kept : keepsItem foldId selected item = true := by rw [keepsItem, fold]; rfl
    rw [fold] at ok
    obtain ⟨stored, written, ok⟩ := bind_ok_iff.mp ok
    cases ok
    constructor
    · rw [stays kept]
      exact List.rel_append patched (.cons (rewriteItem_patched written) .nil)
    · intro earlier
      obtain ⟨other, member, requested⟩ := found earlier
      exact ⟨other, by rw [stays kept]; exact List.mem_append_left _ member, requested⟩
  | some captured =>
    have keeps : keepsItem foldId selected item = keepsFold foldId selected captured := by
      rw [keepsItem, fold]
      rfl
    rw [fold] at ok
    cases kept : keepsFold foldId selected captured with
    | false =>
      simp only [kept, Bool.not_false, if_true] at ok
      cases ok
      exact ⟨by rwa [dropped (keeps.trans kept)], by rwa [dropped (keeps.trans kept)]⟩
    | true =>
      simp only [kept, Bool.not_true, Bool.false_eq_true, if_false] at ok
      obtain ⟨stored, written, ok⟩ := bind_ok_iff.mp ok
      cases ok
      constructor
      · rw [stays (keeps.trans kept)]
        exact List.rel_append patched (.cons (rewriteItem_patched written) .nil)
      · intro either
        rw [stays (keeps.trans kept)]
        rcases Bool.or_eq_true_iff.mp either with earlier | finds
        · obtain ⟨other, member, requested⟩ := found earlier
          exact ⟨other, List.mem_append_left _ member, requested⟩
        · exact ⟨item, List.mem_append_right _ (List.mem_singleton_self item), captured, fold, kept, finds⟩

theorem selecting_run {selected : String} {entries : List ArchiveItem} {progress : List ArchiveItem × Bool}
    (ran : entries.foldlM (selectItem libraries foldId selected table) ([], false) = .ok progress) :
    Selecting libraries foldId selected table entries progress := by
  apply foldlM_ok (Selecting libraries foldId selected table) _ _ ran
  · intro seen progress item next selecting ok
    exact selectItem_step selecting ok
  · exact ⟨.nil, fun found => absurd found Bool.false_ne_true⟩

/-- An artifact is neither the manifest nor the table of weights. -/
theorem Patched.artifact {item stored : ArchiveItem} (patched : Patched libraries foldId table item stored)
    (artifact : artifactItem item.filename) : stored = item := by
  have named {text : String} (same : item.filename = text) : artifactItem text := same ▸ artifact
  have data := patched.same (fun manifest => absurd (named manifest) (by decide +kernel))
    (fun weights => absurd (named weights) (by decide +kernel))
  cases item
  cases stored
  cases patched.name
  cases data
  rfl

end

theorem intOf_ok {text : String} {number : Nat} (ok : intOf text = .ok number) : number = decimalNumber text := by
  obtain ⟨_, same⟩ := check_ok_iff.mp ok
  exact (Except.ok.inj same).symm

theorem operators_iff {selected : List ArchiveItem} {found : List (Nat × Nat)}
    (ok : operators selected = .ok found) {index number : Nat} : (index, number) ∈ found ↔
      ∃ item step, selected[index]? = some item ∧ stepOf item.filename = some step ∧
        decimalNumber step = number := by
  have parsed := mapM_ok ok
  constructor
  · intro member
    obtain ⟨⟨place, step⟩, among, read⟩ := Related.forall₂_right parsed member
    obtain ⟨value, converted, read⟩ := bind_ok_iff.mp read
    cases read
    obtain ⟨⟨item, there⟩, zipped, operates⟩ := List.mem_filterMap.mp among
    obtain ⟨_, operates, same⟩ := Option.map_eq_some_iff.mp operates
    cases same
    exact ⟨item, step, List.mem_zipIdx_iff_getElem?.mp zipped, operates, (intOf_ok converted).symm⟩
  · rintro ⟨item, step, there, operates, rfl⟩
    have among : (index, step) ∈ selected.zipIdx.filterMap fun (item, index) =>
        (stepOf item.filename).map fun step => (index, step) :=
      List.mem_filterMap.mpr
        ⟨(item, index), List.mem_zipIdx_iff_getElem?.mpr there, by simp only [operates, Option.map_some]⟩
    obtain ⟨⟨place, number⟩, member, read⟩ := Related.forall₂_left parsed among
    obtain ⟨value, converted, read⟩ := bind_ok_iff.mp read
    cases read
    rwa [intOf_ok converted] at member

theorem entryOperator_first {found : List (Nat × Nat)} {index : Nat} (ok : entryOperator found = .ok index) :
    ∃ first, (index, first) ∈ found ∧ ∀ other ∈ found, other.1 ≠ index → first < other.2 := by
  rw [entryOperator] at ok
  split at ok
  · cases ok
  · rename_i first least
    obtain ⟨_, smallest⟩ := List.min?_eq_some_iff.mp least
    split at ok
    · rename_i sole only
      cases ok
      have firsts (other : Nat × Nat) (member : other ∈ found) (same : other.2 = first) : other.1 = index := by
        have among : other.1 ∈ (found.filter fun operator => operator.2 = first).map Prod.fst :=
          List.mem_map_of_mem (List.mem_filter.mpr ⟨member, decide_eq_true same⟩)
        rw [only] at among
        exact List.mem_singleton.mp among
      refine ⟨first, ?_, ?_⟩
      · have among : index ∈ (found.filter fun operator => operator.2 = first).map Prod.fst := by
          rw [only]
          exact List.mem_singleton_self index
        obtain ⟨⟨place, number⟩, kept, rfl⟩ := List.mem_map.mp among
        obtain ⟨member, same⟩ := List.mem_filter.mp kept
        have same : number = first := of_decide_eq_true same
        rwa [same] at member
      · intro other member unlike
        have least : first ≤ other.2 := smallest other.2 (List.mem_map_of_mem member)
        have different : other.2 ≠ first := fun same => unlike (firsts other member same)
        omega
    · cases ok

/-- The list is rewritten at one place, whose step is before that of every other. -/
theorem bindOperator_first {libraries : BundleLibraries} {inputDtype : String}
    {selected stored : List ArchiveItem} (ok : bindOperator libraries inputDtype selected = .ok stored) :
    ∃ front operator behind step data, selected = front ++ operator :: behind ∧
      stored = front ++ { operator with data := data } :: behind ∧
      stepOf operator.filename = some step ∧ libraries.wrapped inputDtype operator.data = .ok data ∧
      ∀ item ∈ front ++ behind, ∀ other, stepOf item.filename = some other →
        decimalNumber step < decimalNumber other := by
  obtain ⟨found, read, ok⟩ := bind_ok_iff.mp ok
  obtain ⟨index, entry, ok⟩ := bind_ok_iff.mp ok
  obtain ⟨first, member, before⟩ := entryOperator_first entry
  obtain ⟨operator, step, there, operates, rfl⟩ := (operators_iff read).mp member
  rw [there] at ok
  obtain ⟨data, wrapped, ok⟩ := bind_ok_iff.mp ok
  cases ok
  obtain ⟨inside, rfl⟩ := List.getElem?_eq_some_iff.mp there
  refine ⟨selected.take index, selected[index], selected.drop (index + 1), step, data, ?_, ?_, operates,
    wrapped, ?_⟩
  · rw [List.getElem_cons_drop, List.take_append_drop]
  · exact List.set_eq_take_append_cons_drop.trans (if_pos inside)
  · intro item elsewhere other steps
    have place : ∃ place, place ≠ index ∧ selected[place]? = some item := by
      rcases List.mem_append.mp elsewhere with earlier | later
      · obtain ⟨place, bound, rfl⟩ := List.mem_take_iff_getElem.mp earlier
        exact ⟨place, by omega, List.getElem?_eq_getElem _⟩
      · obtain ⟨place, bound, rfl⟩ := List.mem_drop_iff_getElem.mp later
        exact ⟨index + 1 + place, by omega, List.getElem?_eq_getElem _⟩
    obtain ⟨place, unlike, there⟩ := place
    exact before _ ((operators_iff read).mpr ⟨item, other, there, steps, rfl⟩) unlike

theorem mapM_values {ε α : Type} {items : List (Except ε α)} {values : List α}
    (ok : items.mapM id = .ok values) : items = values.map .ok := by
  have each := mapM_ok ok
  clear ok
  induction each with
  | nil => rfl
  | cons head _ ih =>
    rw [List.map_cons, ← ih, ← head]
    rfl

theorem numbers_iff {entries : List ArchiveItem} {numbers : List Nat}
    (ok : ((capturedFolds entries).filter isDecimal).mapM intOf = .ok numbers) {number : Nat} :
    number ∈ numbers ↔
      ∃ captured, Holds entries captured ∧ isDecimal captured ∧ decimalNumber captured = number := by
  have parsed := mapM_ok ok
  constructor
  · intro member
    obtain ⟨captured, among, read⟩ := Related.forall₂_right parsed member
    obtain ⟨there, numeric⟩ := List.mem_filter.mp among
    exact ⟨captured, holds_iff.mp there, numeric, (intOf_ok read).symm⟩
  · rintro ⟨captured, there, numeric, rfl⟩
    have among := List.mem_filter.mpr ⟨holds_iff.mpr there, numeric⟩
    obtain ⟨number, member, read⟩ := Related.forall₂_left parsed among
    rwa [intOf_ok read] at member

theorem foldWeights_ok {foldId : String} {entries : List ArchiveItem}
    {weights : Option (Except Exn WeightArray)} {table : Option Dict}
    (ok : foldWeights foldId (capturedFolds entries) weights = .ok table) :
    Weighed foldId entries weights table := by
  cases weights with
  | none =>
    cases ok
    exact .inr rfl
  | some weights =>
    simp only [foldWeights] at ok
    split at ok
    · rename_i other
      cases ok
      exact .inl other
    · rename_i weighted
      obtain ⟨⟨ndim, items⟩, rfl, parsed⟩ := bind_ok_iff.mp ok
      obtain ⟨numbers, numeric, checked⟩ := bind_ok_iff.mp parsed
      obtain ⟨shaped, converted⟩ := check_ok_iff.mp checked
      obtain ⟨values, floats, returned⟩ := bind_ok_iff.mp converted
      split at returned
      · rename_i finite
        cases returned
        obtain rfl := mapM_values floats
        simp only [not_or, not_not, List.length_map] at shaped weighted
        obtain ⟨rfl, folds⟩ := shaped
        refine ⟨weighted, values, rfl, List.all_eq_true.mp finite, rfl, ?_⟩
        intro number
        rw [← numbers_iff numeric, ← (Sorting.sorted_perm id numbers).mem_iff, folds, List.mem_range]
      · cases returned

section
variable {libraries : BundleLibraries} {foldId : String} {table : Option Dict}

theorem patched_names {items stored : List ArchiveItem}
    (patched : List.Forall₂ (Patched libraries foldId table) items stored) (text : String) :
    (∃ item ∈ stored, item.filename = text) ↔ ∃ item ∈ items, item.filename = text := by
  constructor
  · rintro ⟨item, member, named⟩
    obtain ⟨original, there, changed⟩ := Related.forall₂_right patched member
    exact ⟨original, there, changed.name.symm.trans named⟩
  · rintro ⟨item, member, named⟩
    obtain ⟨changed, there, patch⟩ := Related.forall₂_left patched member
    exact ⟨changed, there, patch.name.trans named⟩

/-- The table of weights is not filtered out. -/
theorem addedWeights_selected {selected : String} {entries stored : List ArchiveItem}
    (patched : List.Forall₂ (Patched libraries foldId table)
      (entries.filter (keepsItem foldId selected)) stored) :
    addedWeights libraries table stored = addedWeights libraries table entries := by
  have kept (item : ArchiveItem) (named : item.filename = "fold_weights.json") :
      keepsItem foldId selected item := by
    have outside : foldOf "fold_weights.json" = none := by decide +kernel
    rw [keepsItem, named, outside]
    rfl
  have same : (stored.any fun item => item.filename == "fold_weights.json") =
      entries.any fun item => item.filename == "fold_weights.json" := by
    rw [Bool.eq_iff_iff]
    simp only [List.any_eq_true, beq_iff_eq]
    rw [patched_names patched]
    constructor
    · rintro ⟨item, member, named⟩
      exact ⟨item, (List.mem_filter.mp member).1, named⟩
    · rintro ⟨item, member, named⟩
      exact ⟨item, List.mem_filter.mpr ⟨member, kept item named⟩, named⟩
  cases table with
  | none => rfl
  | some table => rw [addedWeights, addedWeights, same]

theorem addedWeights_patched (entries : List ArchiveItem) :
    List.Forall₂ (Patched libraries foldId table) (addedWeights libraries table entries)
      (addedWeights libraries table entries) := by
  cases table with
  | none => exact .nil
  | some table =>
    rw [addedWeights]
    split
    · exact .nil
    · have other : "fold_weights.json" ≠ "manifest.json" := by decide
      exact .cons ⟨rfl, fun manifest => absurd manifest other, fun _ => rfl, fun _ _ => rfl⟩ .nil

theorem rewritten_of_bound {inputDtype : String} {items selected stored : List ArchiveItem}
    (patched : List.Forall₂ (Patched libraries foldId table) items selected)
    (ok : bindOperator libraries inputDtype selected = .ok stored) :
    Rewritten libraries foldId inputDtype table items stored ∧
      ∀ item ∈ selected, ∃ kept ∈ stored, kept.filename = item.filename := by
  obtain ⟨front, operator, behind, step, data, rfl, rfl, operates, wrapped, before⟩ := bindOperator_first ok
  obtain ⟨front', original, behind', rfl, earlier, here, later⟩ := Related.forall₂_split patched
  have named : artifactItem original.filename := by
    rw [← here.name]
    exact (stepOf_iff.mp operates).artifact
  obtain rfl := here.artifact named
  constructor
  · refine .intro (stepOf_iff.mp operates) ?_ wrapped earlier later
    intro item member other named
    have steps := stepOf_iff.mpr named
    rcases List.mem_append.mp member with inFront | inBehind
    · obtain ⟨changed, there, patch⟩ := Related.forall₂_left earlier inFront
      exact before changed (List.mem_append_left _ there) other (by rwa [patch.name])
    · obtain ⟨changed, there, patch⟩ := Related.forall₂_left later inBehind
      exact before changed (List.mem_append_right _ there) other (by rwa [patch.name])
  · intro item member
    simp only [List.mem_append, List.mem_cons] at member
    rcases member with inFront | rfl | inBehind
    · exact ⟨item, List.mem_append_left _ inFront, rfl⟩
    · exact ⟨{ item with data := data }, by simp, rfl⟩
    · exact ⟨item, by simp [inBehind], rfl⟩

theorem rewriteEntries_closure {answers : RewriteAnswers} {inputDtype : String}
    {weights : Option (Except Exn WeightArray)} {path : Archive} {stored : List ArchiveItem}
    (ok : rewriteEntries libraries answers foldId inputDtype weights path = .ok stored) :
    ∃ entries, path = .ok entries ∧ FoldClosure libraries foldId inputDtype weights entries stored := by
  obtain ⟨_, checked⟩ := check_ok_iff.mp ok
  obtain ⟨entries, read, weighing⟩ := bind_ok_iff.mp checked
  obtain ⟨table, weighed, selecting⟩ := bind_ok_iff.mp weighing
  obtain ⟨⟨selected, found⟩, ran, searched⟩ := bind_ok_iff.mp selecting
  obtain ⟨present, importing⟩ := check_ok_iff.mp searched
  obtain ⟨_, _, bound⟩ := bind_ok_iff.mp importing
  obtain ⟨patched, finds⟩ := selecting_run ran
  have added := addedWeights_selected patched
  have whole := List.rel_append patched (addedWeights_patched entries)
  rw [added] at bound
  obtain ⟨rewritten, names⟩ := rewritten_of_bound whole bound
  refine ⟨entries, read, ?_, table, foldWeights_ok weighed, _, ?_, rewritten⟩
  · obtain ⟨item, member, captured, fold, kept, matched⟩ := finds (by simpa using present)
    obtain ⟨changed, there, patch⟩ := Related.forall₂_left patched member
    obtain ⟨last, inside, same⟩ := names changed (List.mem_append_left _ there)
    have named : OfFold last.filename captured := by
      rw [same, patch.name]
      exact foldOf_iff.mp fold
    exact ⟨last, inside, captured, named, findsFold_requested kept matched⟩
  · intro item
    simp only [keepsItem, Option.all_eq_true, keepsFold_iff, foldOf_iff]
    rfl

end

/-- If the selection returns, the bundle is the closure of the requested fold: the entries of no
fold, of fold `all` and of the requested folds, in order, with the manifest, the weights and the
first operator as they are rewritten. If it raises, the bundle is as it was. No file is left over. -/
theorem selected_fold_stored (libraries : BundleLibraries) (answers : RewriteAnswers)
    (foldId inputDtype : String) (weights : Option (Except Exn WeightArray)) (files : BundleFiles) :
    match selectLegacyBundleFold libraries answers foldId inputDtype weights files with
    | (.ok _, after) => ∃ entries stored, files.path = .ok entries ∧ after = ⟨.ok stored, none⟩ ∧
        FoldClosure libraries foldId inputDtype weights entries stored
    | (.error _, after) => after.path = files.path ∧ (after = files ∨ after.temporary = none) := by
  rw [selectLegacyBundleFold]
  cases rewrite : rewriteEntries libraries answers foldId inputDtype weights files.path with
  | error exn => exact ⟨rfl, .inl rfl⟩
  | ok stored =>
    obtain ⟨entries, read, closure⟩ := rewriteEntries_closure rewrite
    simp only [storeBundle]
    cases answers.written with
    | error exn => exact ⟨rfl, .inr rfl⟩
    | ok _ =>
      cases answers.replaced with
      | error exn => exact ⟨rfl, .inr rfl⟩
      | ok _ => exact ⟨entries, stored, read, rfl, closure⟩

/-- Fold 1 is asked of a bundle that holds two folds and the model of fold `all`. -/
theorem selection_returns :
    selectLegacyBundleFold ⟨fun _ => .ok (.obj []), fun _ => [1], fun _ data => .ok (0 :: data)⟩
        ⟨.ok (), .ok (), .ok ()⟩ "1" "float32" none
        ⟨.ok [⟨"manifest.json", []⟩, ⟨"artifacts/step_1_foldall_pca.joblib", [2]⟩,
          ⟨"artifacts/step_2_fold0_pls.joblib", [3]⟩, ⟨"artifacts/step_2_fold1_pls.joblib", [4]⟩], none⟩ =
      (.ok (), ⟨.ok [⟨"manifest.json", [1]⟩, ⟨"artifacts/step_1_foldall_pca.joblib", [0, 2]⟩,
        ⟨"artifacts/step_2_fold1_pls.joblib", [4]⟩], none⟩) := by
  rfl

end N4Cluster
