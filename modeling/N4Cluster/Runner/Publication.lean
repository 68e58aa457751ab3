import N4Cluster.Schemas
import N4Cluster.Base.Fallible
import N4Cluster.Base.Related

/-! `_publish_robustness_evidence_to_workspace` and the trace built from its summary.
The store, the SDK and the file system answer each call as they please, with an exception
if they will. -/
namespace N4Cluster
open Fallible

/-- A row of the predictions table, with the columns that are read. -/
structure PredictionRow where
  predictionId : Option String
  datasetName : Option String
  foldId : Option String := none
  pipelineId : Option String := none
  modelName : Option String := none
  branchId : Option String := none
  sourceIndex : Option String := none

/-- A dictionary of arrays loaded for a row. -/
structure LoadedArrays where
  yPred : List PyFloat
  resultMetadata : Option Dict := none

abbrev Matrix := List (List PyFloat)

/-- Answers while the bundle of one row is made. -/
structure BundleAnswers where
  imported : Except Exn Unit
  folder : Except Exn Unit
  dagml : Except Exn Bool
  final : Except Exn Bool
  copied : Except Exn Unit
  source : Except Exn Bool
  /-- The export and the selection of its fold. -/
  exported : Except Exn Unit
  /-- The predictions of the replay. -/
  replayed : Except Exn (List PyFloat)
  unlinked : Except Exn Unit

/-- Answers while one row is handled. -/
structure RowAnswers where
  loaded : Except Exn (Option LoadedArrays)
  aligned : Except Exn (Option Matrix)
  bundle : BundleAnswers
  /-- Whatever else is done to make the record. -/
  recorded : Except Exn Unit

/-- Answers once the store is open. -/
structure StoreAnswers where
  rows : Except Exn (List (PredictionRow × RowAnswers))
  finalId : Except Exn (Option String)
  savedBatch : Except Exn Unit
  closed : Except Exn Unit

/-- How far the publication comes before it opens the store. -/
inductive Preparation where
  | datasetUnavailable
  | matrixUnavailable
  | storeUnavailable (exn : Exn)
  | unopened (exn : Exn)
  | opened (answers : StoreAnswers)

structure RowOutcome where
  predictionId : Option String
  datasetName : Option String
  status : String := "unavailable"
  missing : List String := ["X", "predictor_bundle"]
  relativePath : Option String := none
  reason : Option String := none

structure EvidenceRecord where
  row : PredictionRow
  arrays : LoadedArrays
  X : Matrix
  evidence : Dict

structure PublicationSummary where
  status : String
  reason : Option String
  error : Option String := none
  publishedPredictionCount : Nat
  predictionOutcomes : List RowOutcome := []
  workspaceRequired : Bool := false

section
variable (digest : String → String) (workspace : String)

/-- `np.array_equal` of two flattened arrays of one size. -/
def samePredictions (baseline actual : List PyFloat) : Bool :=
  baseline.isEqv actual fun a b => a == b && a != .nan

def bundlePath (predictionId : String) : String :=
  "robustness_models/" ++ digest predictionId ++ ".n4a"

/-- The final model of a native run is that of this row. -/
def sameModel (row finalRow : PredictionRow) : Bool :=
  row.pipelineId == finalRow.pipelineId && row.modelName == finalRow.modelName &&
    row.branchId == finalRow.branchId && row.datasetName == finalRow.datasetName &&
    row.sourceIndex == finalRow.sourceIndex

/-- The export of `_prediction_bundle`, with its reason if it is refused. -/
def exportBundle (answers : BundleAnswers) (row : PredictionRow) (finalRow : Option PredictionRow)
    (modelPath : Option String) : Except Exn (Option String) := do
  answers.folder
  if ← answers.dagml then
    if !(← answers.final) || row.foldId != some "final" then
      return some "native_fold_predictor_not_exportable"
    else if !(finalRow.any (sameModel row)) then return some "native_final_model_identity_mismatch"
    else if !truthy modelPath then return some "predictor_bundle_unavailable"
    else
      answers.copied
      return none
  else if ← answers.source then
    answers.exported
    return none
  else return some "prediction_model_identity_unavailable"

/-- The replay of `_prediction_bundle`: the bundle, or the reason against it. -/
def verifyBundle (answers : BundleAnswers) (baseline : List PyFloat) (path : String) :
    Except Exn (Option String × Option String) := do
  let actual ← answers.replayed
  if samePredictions baseline actual then return (some path, none)
  else
    answers.unlinked
    return (none, some "predictor_baseline_replay_mismatch")

/-- The `try` of `_prediction_bundle` once the destination is named. -/
def makeBundle (answers : BundleAnswers) (row : PredictionRow) (finalRow : Option PredictionRow)
    (modelPath : Option String) (baseline : List PyFloat) (path : String) :
    Except Exn (Option String × Option String) := do
  match ← exportBundle answers row finalRow modelPath with
  | some reason => return (none, some reason)
  | none => verifyBundle answers baseline path

def exportUnavailable (exn : Exn) : Option String × Option String :=
  (none, some ("predictor_export_unavailable:" ++ exn.type))

/-- `_prediction_bundle`; the handler itself may fail to remove the file. -/
def predictionBundle (hasRun : Bool) (answers : BundleAnswers) (row : PredictionRow)
    (finalRow : Option PredictionRow) (modelPath : Option String) (baseline : List PyFloat) :
    Except Exn (Option String × Option String) :=
  if !hasRun then .ok (none, some "prediction_model_identity_unavailable")
  else
    match answers.imported with
    | .error exn => .ok (exportUnavailable exn)
    | .ok _ =>
      match makeBundle answers row finalRow modelPath baseline
          (bundlePath digest (row.predictionId.getD "")) with
      | .ok made => .ok made
      | .error exn => answers.unlinked.map fun _ => exportUnavailable exn

/-- `fields[key] = value`. -/
def setField (fields : Dict) (key : String) (value : Json) : Dict :=
  if fields.any fun field => field.1 = key then
    fields.map fun field => if field.1 = key then (key, value) else field
  else fields ++ [(key, value)]

def optionalText : Option String → Json
  | some text => .str text
  | none => .null

/-- The outcome as it is copied into the evidence. -/
def RowOutcome.json (outcome : RowOutcome) : Json :=
  .obj ([("prediction_id", optionalText outcome.predictionId),
      ("dataset_name", optionalText outcome.datasetName), ("status", .str outcome.status),
      ("missing", .arr (outcome.missing.map .str))] ++
    (outcome.relativePath.map fun path => ("predictor_bundle_relative_path", .str path)).toList ++
    (outcome.reason.map fun reason => ("reason", .str reason)).toList)

/-- `metadata["robustness_evidence"]` as a mapping. -/
def LoadedArrays.evidence (arrays : LoadedArrays) : Dict :=
  match (arrays.resultMetadata.getD []).lookup "robustness_evidence" with
  | some (.obj fields) => fields
  | _ => []

/-- The evidence of a record: claims of earlier attempts are dropped. -/
def evidenceOf (arrays : LoadedArrays) (outcome : RowOutcome) : Dict :=
  let fresh := arrays.evidence.filter fun field =>
    field.1 ≠ "predictor_bundle" ∧ field.1 ≠ "predictor_bundle_relative_path"
  let marked := setField (setField fresh "X" (.str "prediction_arrays.X")) "publisher"
    (.str "nirs4all-cluster.runner")
  let claimed := match outcome.relativePath with
    | some path =>
      setField (setField marked "predictor_bundle" (.str (workspace ++ "/" ++ path)))
        "predictor_bundle_relative_path" (.str path)
    | none => marked
  setField claimed "publication" outcome.json

def RowOutcome.begin (row : PredictionRow) : RowOutcome where
  predictionId := row.predictionId
  datasetName := row.datasetName

/-- The outcome of a row whose X is saved. -/
def bundledOutcome (row : PredictionRow) (made : Option String × Option String) : RowOutcome :=
  match made.1 with
  | some path => { RowOutcome.begin row with
      status := "published", missing := [], relativePath := some path }
  | none => { RowOutcome.begin row with
      status := "partial", missing := ["predictor_bundle"], reason := made.2 }

/-- One turn of the loop: the outcome of the row, and its record if it has one. -/
def publishRow (hasRun : Bool) (finalRow : Option PredictionRow) (modelPath : Option String)
    (row : PredictionRow) (answers : RowAnswers) : Except Exn (RowOutcome × Option EvidenceRecord) := do
  if !truthy row.predictionId || !truthy row.datasetName then
    return ({ RowOutcome.begin row with reason := some "prediction_identity_unavailable" }, none)
  else
    match ← answers.loaded with
    | none => return ({ RowOutcome.begin row with reason := some "prediction_arrays_unavailable" }, none)
    | some arrays =>
      match ← answers.aligned with
      | none => return ({ RowOutcome.begin row with reason := some "row_alignment_unavailable" }, none)
      | some X =>
        let made ← predictionBundle digest hasRun answers.bundle row finalRow modelPath arrays.yPred
        answers.recorded
        let outcome := bundledOutcome row made
        return (outcome, some { row := row, arrays := arrays, X := X,
                                evidence := evidenceOf workspace arrays outcome })

/-- The two lists the loop appends to, and the exception it ends with, if any. -/
structure Progress where
  outcomes : List RowOutcome := []
  records : List EvidenceRecord := []
  raised : Option Exn := none

/-- The loop over the rows; a row that raises has its outcome appended already. -/
def publishRows (hasRun : Bool) (finalRow : Option PredictionRow) (modelPath : Option String) :
    List (PredictionRow × RowAnswers) → Progress → Progress
  | [], progress => progress
  | (row, answers) :: rest, progress =>
    match publishRow digest workspace hasRun finalRow modelPath row answers with
    | .error exn =>
      { progress with outcomes := progress.outcomes ++ [.begin row], raised := some exn }
    | .ok (outcome, record) =>
      publishRows hasRun finalRow modelPath rest
        { progress with
          outcomes := progress.outcomes ++ [outcome], records := progress.records ++ record.toList }

/-- `next((row for row in rows if row.get("prediction_id") == final_id), None)`. -/
def findFinal (rows : List (PredictionRow × RowAnswers)) (finalId : Option String) :
    Option PredictionRow :=
  (rows.map Prod.fst).find? fun row => row.predictionId == finalId

/-- The id of the final model of the run, if there is a run. -/
def finalIdOf (hasRun : Bool) (answers : StoreAnswers) : Except Exn (Option String) :=
  if hasRun then answers.finalId else .ok none

/-- The `try` up to the end of the loop. -/
def gather (hasRun : Bool) (modelPath : Option String) (answers : StoreAnswers) : Progress :=
  match answers.rows, finalIdOf hasRun answers with
  | .error exn, _ | _, .error exn => { raised := some exn }
  | .ok rows, .ok finalId =>
    publishRows digest workspace hasRun (findFinal rows finalId) modelPath rows {}

def RowOutcome.failed (outcome : RowOutcome) : RowOutcome :=
  { outcome with
    status := "unavailable", missing := ["X", "predictor_bundle"], reason := some "publication_error" }

/-- The `except` of the publication. -/
def publicationError (exn : Exn) (outcomes : List RowOutcome) : PublicationSummary where
  status := "skipped"
  reason := some "publication_error"
  error := some (exn.type ++ ": " ++ exn.text)
  publishedPredictionCount := 0
  predictionOutcomes := outcomes.map RowOutcome.failed

/-- The summary of a `try` that ran to its end. -/
def summarize (outcomes : List RowOutcome) (records : List EvidenceRecord) : PublicationSummary :=
  let complete := !outcomes.isEmpty && outcomes.all fun outcome => outcome.status = "published"
  { status := if complete then "published" else if records.isEmpty then "skipped" else "partial"
    reason := if complete then none else some "incomplete_prediction_evidence"
    publishedPredictionCount := records.length
    predictionOutcomes := outcomes
    workspaceRequired := !records.isEmpty }

/-- The rest of the `try`, and its handler: the summary, and the records a batch saved. -/
def conclude (savedBatch : Except Exn Unit) (progress : Progress) :
    PublicationSummary × Option (List EvidenceRecord) :=
  match progress.raised with
  | some exn => (publicationError exn progress.outcomes, none)
  | none =>
    if progress.records.isEmpty then (summarize progress.outcomes [], none)
    else
      match savedBatch with
      | .error exn => (publicationError exn progress.outcomes, none)
      | .ok _ => (summarize progress.outcomes progress.records, some progress.records)

def publishOpened (hasRun : Bool) (modelPath : Option String) (answers : StoreAnswers) :
    PublicationSummary × Option (List EvidenceRecord) :=
  conclude answers.savedBatch (gather digest workspace hasRun modelPath answers)

def skippedSummary (reason : String) (error : Option String := none) : PublicationSummary where
  status := "skipped"
  reason := some reason
  error := error
  publishedPredictionCount := 0

/-- `_publish_robustness_evidence_to_workspace`, with the records a batch saved; closing the
store may raise whatever came before. -/
def publishEvidence (hasRun : Bool) (modelPath : Option String) (preparation : Preparation) :
    Except Exn PublicationSummary × Option (List EvidenceRecord) :=
  match preparation with
  | .datasetUnavailable => (.ok (skippedSummary "dataset_unavailable"), none)
  | .matrixUnavailable => (.ok (skippedSummary "dataset_X_unavailable"), none)
  | .storeUnavailable exn =>
    (.ok (skippedSummary "workspace_store_unavailable" (some (exn.type ++ ": " ++ exn.text))), none)
  | .unopened exn => (.error exn, none)
  | .opened answers =>
    let (summary, saved) := publishOpened digest workspace hasRun modelPath answers
    (answers.closed.map fun _ => summary, saved)

end

structure HandoffTrace where
  status : String
  requested : Bool
  destination : String
  failClosed : Bool
  alignmentStrategies : List AlignmentStrategy
  publishedFields : List String
  published : List (String × String)
  missing : List String
  summary : PublicationSummary

def notAttempted : PublicationSummary := skippedSummary "not_attempted"

def matrixFields : List String :=
  ["prediction_arrays.X", "result_metadata.robustness_evidence.X"]

def bundleField : String := "result_metadata.robustness_evidence.predictor_bundle"

/-- The fields a summary's outcomes bear out, with where they are. -/
def publishedOf (outcomes : List RowOutcome) : List (String × String) :=
  (if !outcomes.isEmpty && outcomes.all fun outcome => !outcome.missing.contains "X" then
    matrixFields.map fun field => (field, "task_workspace_prediction_arrays")
  else []) ++
  (if !outcomes.isEmpty && outcomes.all fun outcome => !outcome.missing.contains "predictor_bundle" then
    [(bundleField, "task_workspace_prediction_bundles")]
  else [])

/-- `_robustness_handoff_trace`. -/
def robustnessHandoffTrace (handoff : NativeRobustnessEvidencePublicationHandoff)
    (publicationSummary : Option PublicationSummary) : HandoffTrace :=
  let summary := publicationSummary.getD notAttempted
  let published := publishedOf summary.predictionOutcomes
  let missing := handoff.publishedFields.filter fun field => field ∉ published.map Prod.fst
  { status := if missing.isEmpty then "published" else "received_needs_array_publication"
    requested := handoff.requested
    destination := if handoff.destination = "" then "result_metadata.robustness_evidence"
      else handoff.destination
    failClosed := handoff.failClosed
    alignmentStrategies := handoff.alignmentStrategies
    publishedFields := handoff.publishedFields
    published := published
    missing := missing
    summary := summary }

/-! ## What a publication may say -/

/-- The bundle of a row is exported from its own model and replays to its predictions. -/
structure Verified (hasRun : Bool) (answers : BundleAnswers) (row : PredictionRow)
    (finalRow : Option PredictionRow) (modelPath : Option String) (baseline : List PyFloat) : Prop where
  hasRun : hasRun = true
  imported : answers.imported = .ok ()
  folder : answers.folder = .ok ()
  exported : (answers.dagml = .ok true ∧ answers.final = .ok true ∧ row.foldId = some "final" ∧
      (∃ final, finalRow = some final ∧ sameModel row final = true) ∧ truthy modelPath = true ∧
      answers.copied = .ok ()) ∨
    (answers.dagml = .ok false ∧ answers.source = .ok true ∧ answers.exported = .ok ())
  replayed : ∃ actual, answers.replayed = .ok actual ∧ samePredictions baseline actual = true

/-- A row is identified, aligned and has a verified bundle. -/
structure RowPublished (hasRun : Bool) (modelPath : Option String) (finalRow : Option PredictionRow)
    (row : PredictionRow) (answers : RowAnswers) : Prop where
  identified : truthy row.predictionId = true ∧ truthy row.datasetName = true
  verified : ∃ arrays X, answers.loaded = .ok (some arrays) ∧ answers.aligned = .ok (some X) ∧
    Verified hasRun answers.bundle row finalRow modelPath arrays.yPred

/-- The X that a row was aligned to is in a saved record of the row. -/
def MatrixSaved (saved : Option (List EvidenceRecord)) (row : PredictionRow) (answers : RowAnswers) : Prop :=
  ∃ records record, saved = some records ∧ record ∈ records ∧ record.row = row ∧
    answers.aligned = .ok (some record.X)

/-- The store was opened, it has rows, and each of them is as stated. -/
def EveryRow (hasRun : Bool) (preparation : Preparation)
    (P : Option PredictionRow → PredictionRow → RowAnswers → Prop) : Prop :=
  ∃ answers rows finalId, preparation = .opened answers ∧ answers.rows = .ok rows ∧
    finalIdOf hasRun answers = .ok finalId ∧ rows ≠ [] ∧
    ∀ row ∈ rows, P (findFinal rows finalId) row.1 row.2

/-- A summary, what was saved, and the trace agree, and none of them claims more than was
done. -/
structure FailsClosed (hasRun : Bool) (modelPath : Option String) (preparation : Preparation)
    (handoff : NativeRobustnessEvidencePublicationHandoff) (summary : PublicationSummary)
    (saved : Option (List EvidenceRecord)) (trace : HandoffTrace) : Prop where
  published : summary.status = "published" ↔
    EveryRow hasRun preparation (RowPublished hasRun modelPath) ∧ saved.isSome = true
  count : summary.publishedPredictionCount = (saved.getD []).length
  raised : summary.error.isSome = true → summary.publishedPredictionCount = 0
  matrices : ∀ field ∈ matrixFields, field ∈ trace.published.map Prod.fst →
    EveryRow hasRun preparation fun _ => MatrixSaved saved
  bundles : bundleField ∈ trace.published.map Prod.fst →
    EveryRow hasRun preparation (RowPublished hasRun modelPath) ∧ saved.isSome = true
  missing : ∀ field ∈ handoff.publishedFields, field ∉ trace.published.map Prod.fst →
    field ∈ trace.missing

section
variable {digest : String → String} {workspace : String} {hasRun : Bool} {modelPath : Option String}

section
variable {answers : BundleAnswers} {row : PredictionRow} {finalRow : Option PredictionRow}
  {baseline : List PyFloat} {path path' : String} {reason : Option String}

theorem exportBundle_ok : exportBundle answers row finalRow modelPath = .ok none ↔
    answers.folder = .ok () ∧
      ((answers.dagml = .ok true ∧ answers.final = .ok true ∧ row.foldId = some "final" ∧
          (∃ final, finalRow = some final ∧ sameModel row final = true) ∧ truthy modelPath = true ∧
          answers.copied = .ok ()) ∨
        (answers.dagml = .ok false ∧ answers.source = .ok true ∧ answers.exported = .ok ())) := by
  unfold exportBundle
  rw [bind_ok_iff]
  constructor
  · intro ⟨_, folder, asked⟩
    obtain ⟨dagml, engine, asked⟩ := bind_ok_iff.mp asked
    refine ⟨folder, ?_⟩
    cases dagml with
    | true =>
      obtain ⟨final, there, asked⟩ := bind_ok_iff.mp asked
      split at asked
      · cases asked
      · rename_i exportable
        split at asked
        · cases asked
        · rename_i same
          split at asked
          · cases asked
          · rename_i named
            obtain ⟨_, copied, _⟩ := bind_ok_iff.mp asked
            simp only [Bool.or_eq_true, Bool.not_eq_true', bne_iff_ne, ne_eq, not_or, not_not,
              Bool.not_eq_false] at exportable same named
            rw [exportable.1] at there
            exact .inl ⟨engine, there, exportable.2, (Option.any_eq_true _ _).mp same, named, copied⟩
    | false =>
      obtain ⟨source, there, asked⟩ := bind_ok_iff.mp asked
      cases source with
      | true =>
        obtain ⟨_, exported, _⟩ := bind_ok_iff.mp asked
        exact .inr ⟨engine, there, exported⟩
      | false => cases asked
  · intro ⟨folder, branches⟩
    refine ⟨(), folder, ?_⟩
    rcases branches with ⟨engine, there, fold, same, named, copied⟩ | ⟨engine, there, exported⟩
    · have model := (Option.any_eq_true (sameModel row) finalRow).mpr same
      simp only [engine, there, fold, model, named, copied]
      rfl
    · simp only [engine, there, exported]
      rfl

theorem verifyBundle_ok : verifyBundle answers baseline path = .ok (some path', reason) ↔
    (∃ actual, answers.replayed = .ok actual ∧ samePredictions baseline actual = true) ∧
      path' = path ∧ reason = none := by
  unfold verifyBundle
  rw [bind_ok_iff]
  constructor
  · intro ⟨actual, replayed, compared⟩
    split at compared
    · rename_i same
      cases compared
      exact ⟨⟨actual, replayed, same⟩, rfl, rfl⟩
    · obtain ⟨_, _, returned⟩ := bind_ok_iff.mp compared
      cases returned
  · rintro ⟨⟨actual, replayed, same⟩, rfl, rfl⟩
    exact ⟨actual, replayed, if_pos same⟩

theorem makeBundle_ok : makeBundle answers row finalRow modelPath baseline path = .ok (some path', reason) ↔
    exportBundle answers row finalRow modelPath = .ok none ∧
      (∃ actual, answers.replayed = .ok actual ∧ samePredictions baseline actual = true) ∧
      path' = path ∧ reason = none := by
  unfold makeBundle
  cases exportBundle answers row finalRow modelPath with
  | error exn => simp [bind, Except.bind]
  | ok refused =>
    cases refused with
    | some text => simp [bind, Except.bind, pure, Except.pure]
    | none =>
      rw [← verifyBundle_ok]
      simp [bind, Except.bind]

/-- A bundle is returned exactly when it is verified. -/
theorem predictionBundle_ok :
    predictionBundle digest hasRun answers row finalRow modelPath baseline = .ok (some path', reason) ↔
      Verified hasRun answers row finalRow modelPath baseline ∧
        path' = bundlePath digest (row.predictionId.getD "") ∧ reason = none := by
  unfold predictionBundle
  constructor
  · intro returned
    cases run : hasRun with
    | false => simp [run] at returned
    | true =>
      cases imported : answers.imported with
      | error exn => simp [run, imported, exportUnavailable] at returned
      | ok _ =>
        simp only [run, imported, Bool.not_true, Bool.false_eq_true, if_false] at returned
        cases made : makeBundle answers row finalRow modelPath baseline
            (bundlePath digest (row.predictionId.getD "")) with
        | error exn =>
          rw [made] at returned
          cases unlinked : answers.unlinked <;> simp [unlinked, Except.map, exportUnavailable] at returned
        | ok pair =>
          rw [made] at returned
          cases returned
          obtain ⟨exported, replayed, same⟩ := makeBundle_ok.mp made
          obtain ⟨folder, branches⟩ := exportBundle_ok.mp exported
          exact ⟨⟨rfl, imported, folder, branches, replayed⟩, same⟩
  · intro ⟨⟨run, imported, folder, branches, replayed⟩, same⟩
    have made := makeBundle_ok.mpr ⟨exportBundle_ok.mpr ⟨folder, branches⟩, replayed, same⟩
    simp only [run, imported, Bool.not_true, Bool.false_eq_true, if_false]
    rw [made]

end

section
variable {row : PredictionRow} {answers : RowAnswers} {finalRow : Option PredictionRow}

/-- How a row that does not raise ends. -/
inductive RowEnd (hasRun : Bool) (modelPath : Option String) (finalRow : Option PredictionRow)
    (row : PredictionRow) (answers : RowAnswers) : RowOutcome × Option EvidenceRecord → Prop where
  | unavailable (status : outcome.status = "unavailable")
      (missing : outcome.missing = ["X", "predictor_bundle"])
      (refused : ¬RowPublished hasRun modelPath finalRow row answers) :
      RowEnd hasRun modelPath finalRow row answers (outcome, none)
  | partly (status : outcome.status = "partial") (missing : outcome.missing = ["predictor_bundle"])
      (refused : ¬RowPublished hasRun modelPath finalRow row answers)
      (kept : record.row = row) (aligned : answers.aligned = .ok (some record.X)) :
      RowEnd hasRun modelPath finalRow row answers (outcome, some record)
  | published (status : outcome.status = "published") (missing : outcome.missing = [])
      (verified : RowPublished hasRun modelPath finalRow row answers)
      (kept : record.row = row) (aligned : answers.aligned = .ok (some record.X)) :
      RowEnd hasRun modelPath finalRow row answers (outcome, some record)

theorem publishRow_ends {done : RowOutcome × Option EvidenceRecord}
    (ran : publishRow digest workspace hasRun finalRow modelPath row answers = .ok done) :
    RowEnd hasRun modelPath finalRow row answers done := by
  unfold publishRow at ran
  split at ran
  · rename_i anonymous
    cases ran
    apply RowEnd.unavailable rfl rfl
    intro published
    simp [published.identified] at anonymous
  · rename_i named
    obtain ⟨loaded, load, ran⟩ := bind_ok_iff.mp ran
    cases loaded with
    | none =>
      cases ran
      apply RowEnd.unavailable rfl rfl
      intro published
      obtain ⟨_, _, there, _⟩ := published.verified
      cases load.symm.trans there
    | some arrays =>
      obtain ⟨aligned, align, ran⟩ := bind_ok_iff.mp ran
      cases aligned with
      | none =>
        cases ran
        apply RowEnd.unavailable rfl rfl
        intro published
        obtain ⟨_, _, _, there, _⟩ := published.verified
        cases align.symm.trans there
      | some X =>
        obtain ⟨⟨bundle, reason⟩, made, ran⟩ := bind_ok_iff.mp ran
        obtain ⟨_, _, ran⟩ := bind_ok_iff.mp ran
        cases ran
        cases bundle with
        | none =>
          refine .partly rfl rfl ?_ rfl align
          intro published
          obtain ⟨_, _, there, _, verified⟩ := published.verified
          cases load.symm.trans there
          have other : predictionBundle digest hasRun answers.bundle row finalRow modelPath
              arrays.yPred = .ok (some _, none) := predictionBundle_ok.mpr ⟨verified, rfl, rfl⟩
          cases made.symm.trans other
        | some path =>
          have verified := (predictionBundle_ok.mp made).1
          refine .published rfl rfl ⟨?_, arrays, X, load, align, verified⟩ rfl align
          simpa using named

namespace RowEnd
variable {done : RowOutcome × Option EvidenceRecord}

theorem published_iff (ended : RowEnd hasRun modelPath finalRow row answers done) :
    done.1.status = "published" ↔ RowPublished hasRun modelPath finalRow row answers := by
  cases ended with
  | unavailable status _ refused =>
    simp only [status, refused, iff_false]
    decide
  | partly status _ refused =>
    simp only [status, refused, iff_false]
    decide
  | published status _ verified => exact iff_of_true status verified

/-- A row that does not miss both items has a record. -/
theorem saved {item : String} (ended : RowEnd hasRun modelPath finalRow row answers done)
    (known : item = "X" ∨ item = "predictor_bundle") (has : item ∉ done.1.missing) :
    ∃ record, done.2 = some record ∧ record.row = row ∧ answers.aligned = .ok (some record.X) := by
  cases ended with
  | unavailable _ missing =>
    rw [missing] at has
    rcases known with rfl | rfl
    · exact absurd List.mem_cons_self has
    · exact absurd (List.mem_cons_of_mem _ List.mem_cons_self) has
  | partly _ _ _ kept aligned => exact ⟨_, rfl, kept, aligned⟩
  | published _ _ _ kept aligned => exact ⟨_, rfl, kept, aligned⟩

theorem complete (ended : RowEnd hasRun modelPath finalRow row answers done)
    (status : done.1.status = "published") : done.1.missing = [] := by
  cases ended with
  | unavailable other =>
    rw [other] at status
    exact absurd status (by decide)
  | partly other =>
    rw [other] at status
    exact absurd status (by decide)
  | published _ missing => exact missing

theorem bundled (ended : RowEnd hasRun modelPath finalRow row answers done)
    (has : "predictor_bundle" ∉ done.1.missing) : RowPublished hasRun modelPath finalRow row answers := by
  cases ended with
  | unavailable _ missing =>
    rw [missing] at has
    exact absurd (by simp) has
  | partly _ missing =>
    rw [missing] at has
    exact absurd List.mem_cons_self has
  | published _ _ verified => exact verified

end RowEnd

end

section
variable {finalRow : Option PredictionRow} {rows : List (PredictionRow × RowAnswers)}
  {ends : List (RowOutcome × Option EvidenceRecord)}

/-- A loop that does not raise ends each row in turn. -/
theorem publishRows_quiet {progress : Progress}
    (quiet : (publishRows digest workspace hasRun finalRow modelPath rows progress).raised = none) :
    ∃ ends, List.Forall₂ (fun r done => RowEnd hasRun modelPath finalRow r.1 r.2 done) rows ends ∧
      (publishRows digest workspace hasRun finalRow modelPath rows progress).outcomes =
        progress.outcomes ++ ends.map Prod.fst ∧
      (publishRows digest workspace hasRun finalRow modelPath rows progress).records =
        progress.records ++ ends.filterMap Prod.snd := by
  induction rows generalizing progress with
  | nil => exact ⟨[], .nil, (List.append_nil _).symm, (List.append_nil _).symm⟩
  | cons first rest ih =>
    obtain ⟨row, answers⟩ := first
    unfold publishRows at quiet ⊢
    cases ran : publishRow digest workspace hasRun finalRow modelPath row answers with
    | error exn =>
      rw [ran] at quiet
      cases quiet
    | ok done =>
      obtain ⟨outcome, record⟩ := done
      rw [ran] at quiet
      obtain ⟨ends, related, outcomes, records⟩ := ih quiet
      refine ⟨(outcome, record) :: ends, .cons (publishRow_ends ran) related, ?_, ?_⟩
      · rw [outcomes, List.append_assoc]
        rfl
      · rw [records, List.append_assoc]
        cases record <;> rfl

variable (related : List.Forall₂ (fun r done => RowEnd hasRun modelPath finalRow r.1 r.2 done) rows ends)
include related

theorem rows_nil_iff : rows = [] ↔ ends.map Prod.fst = [] := by
  rw [List.map_eq_nil_iff]
  cases related with
  | nil => simp
  | cons => simp

/-- Every outcome says published exactly when every row is. -/
theorem all_published_iff : (ends.map Prod.fst).all (fun outcome => outcome.status = "published") = true ↔
    ∀ row ∈ rows, RowPublished hasRun modelPath finalRow row.1 row.2 := by
  simp only [List.all_eq_true, List.forall_mem_map, decide_eq_true_eq]
  constructor
  · intro all row member
    obtain ⟨done, inside, ended⟩ := Related.forall₂_left related member
    exact ended.published_iff.mp (all done inside)
  · intro all done member
    obtain ⟨row, inside, ended⟩ := Related.forall₂_right related member
    exact ended.published_iff.mpr (all row inside)

theorem all_saved {item : String} (known : item = "X" ∨ item = "predictor_bundle")
    (all : (ends.map Prod.fst).all (fun outcome => !outcome.missing.contains item) = true) :
    ∀ row ∈ rows, MatrixSaved (some (ends.filterMap Prod.snd)) row.1 row.2 := by
  intro row member
  obtain ⟨done, inside, ended⟩ := Related.forall₂_left related member
  have lacks := List.all_eq_true.mp all done.1 (List.mem_map_of_mem inside)
  obtain ⟨record, made, kept, aligned⟩ := ended.saved known (by simpa using lacks)
  exact ⟨_, record, rfl, List.mem_filterMap.mpr ⟨done, inside, made⟩, kept, aligned⟩

theorem all_complete
    (all : (ends.map Prod.fst).all (fun outcome => outcome.status = "published") = true) :
    (ends.map Prod.fst).all (fun outcome => !outcome.missing.contains "X") = true := by
  rw [List.all_eq_true] at all ⊢
  intro outcome member
  obtain ⟨done, inside, rfl⟩ := List.mem_map.mp member
  obtain ⟨row, _, ended⟩ := Related.forall₂_right related inside
  rw [ended.complete (of_decide_eq_true (all _ member))]
  rfl

theorem all_bundled
    (all : (ends.map Prod.fst).all (fun outcome => !outcome.missing.contains "predictor_bundle") = true) :
    ∀ row ∈ rows, RowPublished hasRun modelPath finalRow row.1 row.2 := by
  intro row member
  obtain ⟨done, inside, ended⟩ := Related.forall₂_left related member
  have lacks := List.all_eq_true.mp all done.1 (List.mem_map_of_mem inside)
  exact ended.bundled (by simpa using lacks)

end

theorem gather_quiet (digest : String → String) (workspace : String) (hasRun : Bool)
    (modelPath : Option String) (answers : StoreAnswers)
    (quiet : (gather digest workspace hasRun modelPath answers).raised = none) :
    ∃ rows finalId ends, answers.rows = .ok rows ∧ finalIdOf hasRun answers = .ok finalId ∧
      List.Forall₂ (fun r done => RowEnd hasRun modelPath (findFinal rows finalId) r.1 r.2 done) rows ends ∧
      (gather digest workspace hasRun modelPath answers).outcomes = ends.map Prod.fst ∧
      (gather digest workspace hasRun modelPath answers).records = ends.filterMap Prod.snd := by
  unfold gather at quiet ⊢
  cases queried : answers.rows with
  | error exn =>
    rw [queried] at quiet
    cases quiet
  | ok rows =>
    cases final : finalIdOf hasRun answers with
    | error exn =>
      rw [queried, final] at quiet
      cases quiet
    | ok finalId =>
      rw [queried, final] at quiet
      obtain ⟨ends, related, outcomes, records⟩ := publishRows_quiet quiet
      exact ⟨rows, finalId, ends, rfl, rfl, related, outcomes, records⟩

/-- What is said of every one of the outcomes, if there is one. -/
def AllLack (item : String) (outcomes : List RowOutcome) : Prop :=
  outcomes ≠ [] ∧ outcomes.all (fun outcome => !outcome.missing.contains item) = true

theorem mem_publishedOf {outcomes : List RowOutcome} {field : String} :
    field ∈ (publishedOf outcomes).map Prod.fst ↔
      (field ∈ matrixFields ∧ AllLack "X" outcomes) ∨
        (field = bundleField ∧ AllLack "predictor_bundle" outcomes) := by
  unfold publishedOf AllLack
  rw [List.map_append, List.mem_append]
  apply or_congr
  · split
    · rename_i all
      simp only [Bool.and_eq_true, Bool.not_eq_true', List.isEmpty_eq_false_iff] at all
      rw [List.map_map]
      exact ⟨fun member => ⟨by simpa using member, all⟩, fun both => by simpa using both.1⟩
    · rename_i all
      simp only [Bool.and_eq_true, Bool.not_eq_true', List.isEmpty_eq_false_iff] at all
      simp only [List.map_nil, List.not_mem_nil, all, and_false]
  · split
    · rename_i all
      simp only [Bool.and_eq_true, Bool.not_eq_true', List.isEmpty_eq_false_iff] at all
      exact ⟨fun member => ⟨List.mem_singleton.mp member, all⟩,
        fun both => List.mem_singleton.mpr both.1⟩
    · rename_i all
      simp only [Bool.and_eq_true, Bool.not_eq_true', List.isEmpty_eq_false_iff] at all
      simp only [List.map_nil, List.not_mem_nil, all, and_false]

theorem matrix_published {outcomes : List RowOutcome} {field : String} (known : field ∈ matrixFields)
    (listed : field ∈ (publishedOf outcomes).map Prod.fst) : AllLack "X" outcomes := by
  rcases mem_publishedOf.mp listed with ⟨_, all⟩ | ⟨rfl, _⟩
  · exact all
  · exact absurd known (by decide)

theorem bundle_published {outcomes : List RowOutcome}
    (listed : bundleField ∈ (publishedOf outcomes).map Prod.fst) : AllLack "predictor_bundle" outcomes := by
  rcases mem_publishedOf.mp listed with ⟨known, _⟩ | ⟨_, all⟩
  · exact absurd known (by decide)
  · exact all

theorem missing_listed {handoff : NativeRobustnessEvidencePublicationHandoff}
    {summary : PublicationSummary} {field : String} (requested : field ∈ handoff.publishedFields)
    (absent : field ∉ (robustnessHandoffTrace handoff (some summary)).published.map Prod.fst) :
    field ∈ (robustnessHandoffTrace handoff (some summary)).missing :=
  List.mem_filter.mpr ⟨requested, decide_eq_true absent⟩

/-! ## The publication -/

section
variable {preparation : Preparation} {handoff : NativeRobustnessEvidencePublicationHandoff}
  {summary : PublicationSummary}

/-- A summary that says nothing is published, with nothing saved. -/
theorem nothing_published (status : summary.status ≠ "published")
    (count : summary.publishedPredictionCount = 0)
    (outcomes : ∀ item, item = "X" ∨ item = "predictor_bundle" → ¬AllLack item summary.predictionOutcomes) :
    FailsClosed hasRun modelPath preparation handoff summary none
      (robustnessHandoffTrace handoff (some summary)) where
  published := by
    apply iff_of_false status
    intro ⟨_, saved⟩
    cases saved
  count := count
  raised _ := count
  matrices field known listed := (outcomes "X" (.inl rfl) (matrix_published known listed)).elim
  bundles listed := (outcomes "predictor_bundle" (.inr rfl) (bundle_published listed)).elim
  missing _ := missing_listed

/-- After an exception every outcome misses everything. -/
theorem publicationError_lacks (exn : Exn) (outcomes : List RowOutcome) {item : String}
    (known : item = "X" ∨ item = "predictor_bundle") :
    ¬AllLack item (publicationError exn outcomes).predictionOutcomes := by
  intro ⟨some_outcome, all⟩
  obtain ⟨outcome, member⟩ := List.exists_mem_of_ne_nil _ some_outcome
  have lacks := List.all_eq_true.mp all outcome member
  obtain ⟨before, _, rfl⟩ := List.mem_map.mp member
  rcases known with rfl | rfl <;> simp [RowOutcome.failed] at lacks

theorem publicationError_status (exn : Exn) (outcomes : List RowOutcome) :
    (publicationError exn outcomes).status ≠ "published" := by
  simp [publicationError]

theorem summarize_status {outcomes : List RowOutcome} {records : List EvidenceRecord} :
    (summarize outcomes records).status = "published" ↔
      outcomes ≠ [] ∧ outcomes.all (fun outcome => outcome.status = "published") = true := by
  unfold summarize
  dsimp only
  split
  · rename_i complete
    simpa using complete
  · rename_i partly
    simp only [Bool.and_eq_true, Bool.not_eq_true', List.isEmpty_eq_false_iff] at partly
    apply iff_of_false _ partly
    split <;> simp

/-- Once the loop has ended each row in turn, the batch decides. -/
theorem concluded {answers : StoreAnswers} {rows : List (PredictionRow × RowAnswers)}
    {finalId : Option String} {ends : List (RowOutcome × Option EvidenceRecord)}
    (savedBatch : Except Exn Unit) (queried : answers.rows = .ok rows)
    (final : finalIdOf hasRun answers = .ok finalId)
    (related : List.Forall₂ (fun r done => RowEnd hasRun modelPath (findFinal rows finalId) r.1 r.2 done)
      rows ends)
    (handoff : NativeRobustnessEvidencePublicationHandoff) :
    FailsClosed hasRun modelPath (.opened answers) handoff
      (conclude savedBatch ⟨ends.map Prod.fst, ends.filterMap Prod.snd, none⟩).1
      (conclude savedBatch ⟨ends.map Prod.fst, ends.filterMap Prod.snd, none⟩).2
      (robustnessHandoffTrace handoff
        (some (conclude savedBatch ⟨ends.map Prod.fst, ends.filterMap Prod.snd, none⟩).1)) := by
  have every {P} (held : ends.map Prod.fst ≠ [])
      (all : ∀ row ∈ rows, P (findFinal rows finalId) row.1 row.2) : EveryRow hasRun (.opened answers) P :=
    ⟨answers, rows, finalId, rfl, queried, final, fun none => held ((rows_nil_iff related).mp none), all⟩
  have lacking {item} (known : item = "X" ∨ item = "predictor_bundle")
      (all : AllLack item (ends.map Prod.fst)) := all_saved related known all.2
  cases kept : ends.filterMap Prod.snd with
  | nil =>
    rw [kept] at lacking
    have nowhere {item} (known : item = "X" ∨ item = "predictor_bundle") :
        ¬AllLack item (ends.map Prod.fst) := by
      intro all
      obtain ⟨row, member⟩ := List.exists_mem_of_ne_nil rows
        fun none => all.1 ((rows_nil_iff related).mp none)
      obtain ⟨_, _, same, inside, _⟩ := lacking known all row member
      cases same
      cases inside
    apply nothing_published
    · intro status
      obtain ⟨held, all⟩ := summarize_status.mp status
      exact nowhere (.inl rfl) ⟨held, all_complete related all⟩
    · rfl
    · exact fun item known => nowhere known
  | cons first more =>
    cases savedBatch with
    | error exn =>
      exact nothing_published (publicationError_status exn _) rfl
        fun item known => publicationError_lacks exn _ known
    | ok _ =>
      rw [kept] at lacking
      exact {
        published := by
          change (summarize (ends.map Prod.fst) (first :: more)).status = "published" ↔ _
          rw [summarize_status, all_published_iff related]
          constructor
          · intro ⟨held, all⟩
            exact ⟨every held all, rfl⟩
          · intro ⟨⟨answers', rows', finalId', opened, queried', final', some_row, all⟩, _⟩
            cases opened
            cases queried.symm.trans queried'
            cases final.symm.trans final'
            exact ⟨fun none => some_row ((rows_nil_iff related).mpr none), all⟩
        count := rfl
        raised := fun some_error => by cases some_error
        matrices := fun field known listed => by
          have all := matrix_published known listed
          exact every all.1 (lacking (.inl rfl) all)
        bundles := fun listed => by
          have all := bundle_published listed
          exact ⟨every all.1 (all_bundled related all.2), rfl⟩
        missing := fun _ => missing_listed }

/-- A publication into an opened store fails closed, and so does the trace of its summary. -/
theorem opened_fails_closed (digest : String → String) (workspace : String) (hasRun : Bool)
    (modelPath : Option String) (answers : StoreAnswers)
    (handoff : NativeRobustnessEvidencePublicationHandoff) :
    FailsClosed hasRun modelPath (.opened answers) handoff
      (publishOpened digest workspace hasRun modelPath answers).1
      (publishOpened digest workspace hasRun modelPath answers).2
      (robustnessHandoffTrace handoff
        (some (publishOpened digest workspace hasRun modelPath answers).1)) := by
  unfold publishOpened
  have quiet := gather_quiet digest workspace hasRun modelPath answers
  generalize gather digest workspace hasRun modelPath answers = progress at quiet ⊢
  obtain ⟨outcomes, records, raised⟩ := progress
  cases raised with
  | some exn =>
    exact nothing_published (publicationError_status exn _) rfl
      fun item known => publicationError_lacks exn _ known
  | none =>
    obtain ⟨rows, finalId, ends, queried, final, related, rfl, rfl⟩ := quiet rfl
    exact concluded answers.savedBatch queried final related handoff

theorem skipped_fails_closed (preparation : Preparation) (reason : String) (error : Option String)
    (handoff : NativeRobustnessEvidencePublicationHandoff) :
    FailsClosed hasRun modelPath preparation handoff (skippedSummary reason error) none
      (robustnessHandoffTrace handoff (some (skippedSummary reason error))) := by
  apply nothing_published
  · simp [skippedSummary]
  · rfl
  · intro item _ all
    exact all.1 rfl

end

end

/-- Every summary that is returned fails closed, and so does the trace built from it. -/
theorem publication_fails_closed (digest : String → String) (workspace : String) (hasRun : Bool)
    (modelPath : Option String) (preparation : Preparation)
    (handoff : NativeRobustnessEvidencePublicationHandoff) {summary : PublicationSummary}
    (returned : (publishEvidence digest workspace hasRun modelPath preparation).1 = .ok summary) :
    FailsClosed hasRun modelPath preparation handoff summary
      (publishEvidence digest workspace hasRun modelPath preparation).2
      (robustnessHandoffTrace handoff (some summary)) := by
  cases preparation with
  | datasetUnavailable =>
    cases returned
    exact skipped_fails_closed _ _ _ handoff
  | matrixUnavailable =>
    cases returned
    exact skipped_fails_closed _ _ _ handoff
  | storeUnavailable exn =>
    cases returned
    exact skipped_fails_closed _ _ _ handoff
  | unopened exn => cases returned
  | opened answers =>
    have fails := opened_fails_closed digest workspace hasRun modelPath answers handoff
    cases closed : answers.closed with
    | error exn =>
      simp only [publishEvidence, closed, Except.map, reduceCtorEq] at returned
    | ok _ =>
      simp only [publishEvidence, closed, Except.map, Except.ok.injEq] at returned
      subst returned
      exact fails

def servedBundle : BundleAnswers where
  imported := .ok ()
  folder := .ok ()
  dagml := .ok false
  final := .ok false
  copied := .ok ()
  source := .ok true
  exported := .ok ()
  replayed := .ok [.fin 1]
  unlinked := .ok ()

def servedRow : PredictionRow × RowAnswers :=
  ({ predictionId := some "p", datasetName := some "d" },
    { loaded := .ok (some { yPred := [.fin 1] }), aligned := .ok (some [[.fin 2]]),
      bundle := servedBundle, recorded := .ok () })

def servedStore : Preparation :=
  .opened { rows := .ok [servedRow], finalId := .ok none, savedBatch := .ok (), closed := .ok () }

def bundleHandoff : NativeRobustnessEvidencePublicationHandoff where
  requested := true
  destination := ""
  failClosed := true
  alignmentStrategies := []
  publishedFields := [bundleField, "other"]

theorem publication_fails_closed_served : ∃ summary,
    (publishEvidence id "w" true none servedStore).1 = .ok summary ∧ summary.status = "published" ∧
      FailsClosed true none servedStore bundleHandoff summary
        (publishEvidence id "w" true none servedStore).2
        (robustnessHandoffTrace bundleHandoff (some summary)) := by
  have returned : ∃ summary, (publishEvidence id "w" true none servedStore).1 = .ok summary ∧
      summary.status = "published" := ⟨_, rfl, by decide +kernel⟩
  obtain ⟨summary, returned, status⟩ := returned
  exact ⟨summary, returned, status, publication_fails_closed id "w" true none servedStore _ returned⟩

end N4Cluster
