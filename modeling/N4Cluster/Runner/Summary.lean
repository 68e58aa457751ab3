import N4Cluster.Base.Dictionary
import N4Cluster.Base.Fallible
import N4Cluster.Wire.Values

/-! The summary that the runner writes of a run. What nirs4all gives is any Python object, which
`json.dumps` may refuse; what went through `_jsonable` it refuses only for its depth or the length
of an int, and no float of it is infinite or not a number. -/
namespace N4Cluster
open Dictionary Fallible

/-! ## Python objects -/

/-- A key of a dictionary: a text, or an object with its class, its `str` and what `json.dumps`
writes for it, if it takes it for a key. -/
inductive ObjectKey where
  | text (value : String)
  | other (type str : String) (written : Option String)

inductive PyObject where
  | null
  | bool (value : Bool)
  | int (value : Int)
  | float (value : PyFloat)
  | str (value : String)
  | list (items : List PyObject)
  | tuple (items : List PyObject)
  | dict (fields : List (ObjectKey × PyObject))
  | other (type repr : String)

/-- `str(key)`. -/
def ObjectKey.str : ObjectKey → String
  | .text value => value
  | .other _ str _ => str

/-- `_sanitize`. -/
def sanitize : PyObject → PyObject
  | .float value => if value.isFinite then .float value else .null
  | value => value

def byText {β : Type} (entries : List (String × β)) : List (ObjectKey × β) :=
  entries.map fun entry => (.text entry.1, entry.2)

mutual

/-- `_jsonable`. -/
def jsonable : PyObject → PyObject
  | .float value => if value.isFinite then .float value else .null
  | .dict fields => .dict (byText (gathered (fieldsJsonable fields)))
  | .list items => .list (allJsonable items)
  | .tuple items => .list (allJsonable items)
  | .other _ repr => .str repr
  | value => value

def allJsonable : List PyObject → List PyObject
  | [] => []
  | value :: rest => jsonable value :: allJsonable rest

def fieldsJsonable : List (ObjectKey × PyObject) → List (String × PyObject)
  | [] => []
  | (key, value) :: rest => (key.str, jsonable value) :: fieldsJsonable rest

end

/-! ## What the interpreter bounds -/

/-- `sys.int_info.default_max_str_digits`. -/
def maxStrDigits : Nat := 4300

/-- `str` writes the int. -/
def writable (value : Int) : Bool := (Nat.toDigits 10 value.natAbs).length ≤ maxStrDigits

def tooLong : Exn := ⟨"ValueError", "Exceeds the limit (4300 digits) for integer string conversion; " ++
  "use sys.set_int_max_str_digits() to increase the limit"⟩

def recursionError : Exn := ⟨"RecursionError", "maximum recursion depth exceeded"⟩

mutual

/-- How many lists and dictionaries lie in one another. -/
def PyObject.depth : PyObject → Nat
  | .list items | .tuple items => PyObject.allDepth items + 1
  | .dict fields => PyObject.fieldsDepth fields + 1
  | _ => 0

def PyObject.allDepth : List PyObject → Nat
  | [] => 0
  | value :: rest => max value.depth (PyObject.allDepth rest)

def PyObject.fieldsDepth : List (ObjectKey × PyObject) → Nat
  | [] => 0
  | (_, value) :: rest => max value.depth (PyObject.fieldsDepth rest)

end

mutual

/-- Every int of it is writable. -/
def PyObject.short : PyObject → Bool
  | .int value => writable value
  | .list items | .tuple items => PyObject.allShort items
  | .dict fields => PyObject.fieldsShort fields
  | _ => true

def PyObject.allShort : List PyObject → Bool
  | [] => true
  | value :: rest => value.short && PyObject.allShort rest

def PyObject.fieldsShort : List (ObjectKey × PyObject) → Bool
  | [] => true
  | (_, value) :: rest => value.short && PyObject.fieldsShort rest

end

/-- A call of `_jsonable`, which may descend so many levels. -/
def PyObject.cleaned (levels : Nat) (value : PyObject) : Except Exn PyObject :=
  if value.depth ≤ levels then .ok (jsonable value) else .error recursionError

/-- A key as `json.dumps` writes it. -/
def ObjectKey.dumped : ObjectKey → Except Exn String
  | .text value => .ok value
  | .other _ _ (some written) => .ok written
  | .other type _ none => .error ⟨"TypeError", "keys must be str, int, float, bool or None, not " ++ type⟩

mutual

/-- What is read back of what `json.dumps` writes, which may descend so many levels. -/
def PyObject.dumped : PyObject → Nat → Except Exn Json
  | .null, _ => .ok .null
  | .bool value, _ => .ok (.bool value)
  | .int value, _ => if writable value then .ok (.int value) else .error tooLong
  | .float value, _ => .ok (.float value)
  | .str value, _ => .ok (.str value)
  | .list _, 0 | .tuple _, 0 | .dict _, 0 => .error recursionError
  | .list items, levels + 1 => do return .arr (← PyObject.allDumped items levels)
  | .tuple items, levels + 1 => do return .arr (← PyObject.allDumped items levels)
  | .dict fields, levels + 1 => do return .obj (gathered (← PyObject.fieldsDumped fields levels))
  | .other type _, _ => .error ⟨"TypeError", "Object of type " ++ type ++ " is not JSON serializable"⟩

def PyObject.allDumped : List PyObject → Nat → Except Exn (List Json)
  | [], _ => .ok []
  | value :: rest, levels => do return (← value.dumped levels) :: (← PyObject.allDumped rest levels)

def PyObject.fieldsDumped : List (ObjectKey × PyObject) → Nat → Except Exn (List (String × Json))
  | [], _ => .ok []
  | (key, value) :: rest, levels => do
    let key ← key.dumped
    return (key, ← value.dumped levels) :: (← PyObject.fieldsDumped rest levels)

end

mutual

/-- What is read of a JSON text. -/
def Json.object : Json → PyObject
  | .null => .null
  | .bool value => .bool value
  | .int value => .int value
  | .float value => .float value
  | .str value => .str value
  | .arr items => .list (Json.allObjects items)
  | .obj fields => .dict (Json.fieldsObjects fields)

def Json.allObjects : List Json → List PyObject
  | [] => []
  | doc :: rest => doc.object :: Json.allObjects rest

def Json.fieldsObjects : List (String × Json) → List (ObjectKey × PyObject)
  | [] => []
  | (name, doc) :: rest => (.text name, doc.object) :: Json.fieldsObjects rest

end

/-! ## What `_jsonable` leaves -/

/-- Entries under texts are written one by one. -/
theorem fieldsDumped_iff {entries : List (String × PyObject)} {docs : List (String × Json)} {levels : Nat} :
    PyObject.fieldsDumped (byText entries) levels = .ok docs ↔
      List.Forall₂ (fun entry doc => entry.1 = doc.1 ∧ entry.2.dumped levels = .ok doc.2) entries docs := by
  induction entries generalizing docs with
  | nil =>
    constructor
    · intro same
      cases same
      exact .nil
    · intro none
      cases none
      rfl
  | cons entry rest ih =>
    obtain ⟨name, value⟩ := entry
    change (do return (name, ← value.dumped levels) :: (← PyObject.fieldsDumped (byText rest) levels) :
      Except Exn _) = _ ↔ _
    simp only [bind_ok_iff]
    constructor
    · rintro ⟨doc, first, later, others, same⟩
      cases same
      exact .cons ⟨rfl, first⟩ (ih.mp others)
    · intro pairs
      cases pairs with
      | cons first others =>
        obtain ⟨same, written⟩ := first
        cases same
        exact ⟨_, written, _, ih.mpr others, rfl⟩

/-- What is read of the entries of a document. -/
def objects (docs : List (String × Json)) : List (String × PyObject) :=
  docs.map fun entry => (entry.1, entry.2.object)

theorem keys_objects (docs : List (String × Json)) : keys (objects docs) = keys docs := by
  rw [keys, keys, objects, List.map_map]
  rfl

theorem fieldsObjects_eq (docs : List (String × Json)) : Json.fieldsObjects docs = byText (objects docs) := by
  induction docs with
  | nil => rfl
  | cons entry rest ih => exact congrArg (List.cons _) ih

theorem fieldsJsonable_byText (entries : List (String × PyObject)) :
    fieldsJsonable (byText entries) = entries.map fun entry => (entry.1, jsonable entry.2) := by
  induction entries with
  | nil => rfl
  | cons entry rest ih => exact congrArg (List.cons _) ih

/-- The document has no float that JSON has not; what is read of it `_jsonable` leaves as it is, and
it is written as it was. -/
structure Settled (levels : Nat) (doc : Json) : Prop where
  finite : doc.finite = true
  fixed : jsonable doc.object = doc.object
  rewritten : doc.object.dumped levels = .ok doc

structure AllSettled (levels : Nat) (docs : List Json) : Prop where
  finite : Json.allFinite docs = true
  fixed : allJsonable (Json.allObjects docs) = Json.allObjects docs
  rewritten : PyObject.allDumped (Json.allObjects docs) levels = .ok docs

section
variable {levels : Nat}

theorem AllSettled.cons {doc : Json} {docs : List Json} (first : Settled levels doc) (others : AllSettled levels docs) :
    AllSettled levels (doc :: docs) where
  finite := by
    rw [Json.allFinite, first.finite, others.finite]
    rfl
  fixed := by rw [Json.allObjects, allJsonable, first.fixed, others.fixed]
  rewritten := by
    rw [Json.allObjects, PyObject.allDumped, first.rewritten, others.rewritten]
    rfl

theorem AllSettled.arr {docs : List Json} (each : AllSettled levels docs) : Settled (levels + 1) (.arr docs) where
  finite := each.finite
  fixed := by rw [Json.object, jsonable, each.fixed]
  rewritten := by
    rw [Json.object, PyObject.dumped, each.rewritten]
    rfl

/-- With keys that differ, a document of settled entries is settled. -/
theorem settled_obj {docs : List (String × Json)} (apart : (keys docs).Nodup)
    (each : ∀ entry ∈ docs, Settled levels entry.2) : Settled (levels + 1) (.obj docs) where
  finite := Json.fieldsFinite_iff.mpr fun entry member => (each entry member).finite
  fixed := by
    have same : (objects docs).map (fun entry => (entry.1, jsonable entry.2)) = objects docs := by
      rw [objects, List.map_map]
      refine List.map_congr_left fun entry member => ?_
      rw [Function.comp_apply, (each entry member).fixed]
    rw [Json.object, fieldsObjects_eq, jsonable, fieldsJsonable_byText, same, gathered_apart]
    rw [keys_objects]
    exact apart
  rewritten := by
    have written : PyObject.fieldsDumped (byText (objects docs)) levels = .ok docs := by
      refine fieldsDumped_iff.mpr (List.forall₂_map_left_iff.mpr ?_)
      exact List.forall₂_same.mpr fun entry member => ⟨rfl, (each entry member).rewritten⟩
    rw [Json.object, fieldsObjects_eq, PyObject.dumped, written]
    change Except.ok (Json.obj (gathered docs)) = _
    rw [gathered_apart apart]

/-- The object is what is read of such a document. -/
def PyObject.Clean (levels : Nat) (value : PyObject) : Prop := ∃ doc, value = doc.object ∧ Settled levels doc

theorem dict_clean {entries : List (String × PyObject)} (apart : (keys entries).Nodup)
    (clean : ∀ entry ∈ entries, entry.2.Clean levels) : PyObject.Clean (levels + 1) (.dict (byText entries)) := by
  have read : ∃ docs, entries = objects docs ∧ ∀ entry ∈ docs, Settled levels entry.2 := by
    clear apart
    induction entries with
    | nil => exact ⟨[], rfl, fun _ member => False.elim (List.not_mem_nil member)⟩
    | cons entry rest ih =>
      obtain ⟨name, value⟩ := entry
      obtain ⟨doc, first, settled⟩ := clean (name, value) List.mem_cons_self
      obtain ⟨docs, others, each⟩ := ih fun other member => clean other (List.mem_cons_of_mem _ member)
      change value = doc.object at first
      refine ⟨(name, doc) :: docs, ?_, List.forall_mem_cons.mpr ⟨settled, each⟩⟩
      rw [first, others]
      rfl
  obtain ⟨docs, rfl, each⟩ := read
  rw [keys_objects] at apart
  refine ⟨.obj docs, ?_, settled_obj apart each⟩
  rw [Json.object, fieldsObjects_eq]

/-- A list or a dictionary that is not too deep leaves a level for what is in it. -/
theorem level_left {depth : Nat} (shallow : depth + 1 ≤ levels) : ∃ rest, levels = rest + 1 ∧ depth ≤ rest :=
  ⟨levels - 1, (Nat.sub_add_cancel (Nat.le_trans (Nat.le_add_left 1 depth) shallow)).symm, Nat.le_sub_one_of_lt shallow⟩

mutual

theorem jsonable_clean : (value : PyObject) → (levels : Nat) → value.depth ≤ levels → value.short = true →
    (jsonable value).Clean levels
  | .null, _, _, _ => ⟨.null, rfl, rfl, rfl, rfl⟩
  | .bool value, _, _, _ => ⟨.bool value, rfl, rfl, rfl, rfl⟩
  | .int value, _, _, short => ⟨.int value, rfl, rfl, rfl, if_pos short⟩
  | .float value, _, _, _ => by
    unfold jsonable
    split
    · rename_i finite
      exact ⟨.float value, rfl, finite, if_pos finite, rfl⟩
    · exact ⟨.null, rfl, rfl, rfl, rfl⟩
  | .str value, _, _, _ => ⟨.str value, rfl, rfl, rfl, rfl⟩
  | .list items, _, shallow, short => by
    obtain ⟨levels, rfl, within⟩ := level_left shallow
    obtain ⟨docs, same, each⟩ := allJsonable_clean items levels within short
    exact ⟨.arr docs, congrArg PyObject.list same, each.arr⟩
  | .tuple items, _, shallow, short => by
    obtain ⟨levels, rfl, within⟩ := level_left shallow
    obtain ⟨docs, same, each⟩ := allJsonable_clean items levels within short
    exact ⟨.arr docs, congrArg PyObject.list same, each.arr⟩
  | .dict fields, _, shallow, short => by
    obtain ⟨levels, rfl, within⟩ := level_left shallow
    exact dict_clean (keys_gathered _) fun entry member =>
      fieldsJsonable_clean fields levels within short entry (gathered_mem member)
  | .other _ repr, _, _, _ => ⟨.str repr, rfl, rfl, rfl, rfl⟩

theorem allJsonable_clean : (items : List PyObject) → (levels : Nat) → PyObject.allDepth items ≤ levels →
    PyObject.allShort items = true → ∃ docs, allJsonable items = Json.allObjects docs ∧ AllSettled levels docs
  | [], _, _, _ => ⟨[], rfl, rfl, rfl, rfl⟩
  | value :: rest, levels, shallow, short => by
    obtain ⟨here, later⟩ := Nat.max_le.mp shallow
    obtain ⟨brief, others⟩ := Bool.and_eq_true_iff.mp short
    obtain ⟨doc, first, settled⟩ := jsonable_clean value levels here brief
    obtain ⟨docs, others, each⟩ := allJsonable_clean rest levels later others
    refine ⟨doc :: docs, ?_, .cons settled each⟩
    rw [allJsonable, first, others]
    rfl

theorem fieldsJsonable_clean : (fields : List (ObjectKey × PyObject)) → (levels : Nat) →
    PyObject.fieldsDepth fields ≤ levels → PyObject.fieldsShort fields = true →
    ∀ entry ∈ fieldsJsonable fields, entry.2.Clean levels
  | [], _, _, _ => fun _ member => False.elim (List.not_mem_nil member)
  | (_, value) :: rest, levels, shallow, short => by
    obtain ⟨here, later⟩ := Nat.max_le.mp shallow
    obtain ⟨brief, others⟩ := Bool.and_eq_true_iff.mp short
    exact List.forall_mem_cons.mpr
      ⟨jsonable_clean value levels here brief, fieldsJsonable_clean rest levels later others⟩

end

theorem fieldsDepth_le {entries : List (String × PyObject)} (each : ∀ entry ∈ entries, entry.2.depth ≤ levels) :
    PyObject.fieldsDepth (byText entries) ≤ levels := by
  induction entries with
  | nil => exact Nat.zero_le _
  | cons entry rest ih =>
    exact Nat.max_le.mpr ⟨each entry List.mem_cons_self, ih fun other member => each other (List.mem_cons_of_mem _ member)⟩

mutual

/-- `_jsonable` makes nothing deeper. -/
theorem jsonable_depth : (value : PyObject) → (jsonable value).depth ≤ value.depth
  | .null | .bool _ | .int _ | .str _ | .other _ _ => Nat.le_refl 0
  | .float value => by
    unfold jsonable
    split <;> exact Nat.le_refl 0
  | .list items | .tuple items => Nat.succ_le_succ (allJsonable_depth items)
  | .dict fields =>
    Nat.succ_le_succ (fieldsDepth_le fun entry member => fieldsJsonable_depth fields entry (gathered_mem member))

theorem allJsonable_depth : (items : List PyObject) → PyObject.allDepth (allJsonable items) ≤ PyObject.allDepth items
  | [] => Nat.le_refl 0
  | value :: rest => Nat.max_le.mpr
      ⟨Nat.le_trans (jsonable_depth value) (Nat.le_max_left ..),
        Nat.le_trans (allJsonable_depth rest) (Nat.le_max_right ..)⟩

theorem fieldsJsonable_depth : (fields : List (ObjectKey × PyObject)) →
    ∀ entry ∈ fieldsJsonable fields, entry.2.depth ≤ PyObject.fieldsDepth fields
  | [] => fun _ member => False.elim (List.not_mem_nil member)
  | (_, value) :: rest => List.forall_mem_cons.mpr
      ⟨Nat.le_trans (jsonable_depth value) (Nat.le_max_left ..), fun entry member =>
        Nat.le_trans (fieldsJsonable_depth rest entry member) (Nat.le_max_right ..)⟩

end

end

/-- Whatever object `_jsonable` is given, if it is not nested too deep and no int of it is too long,
`json.dumps` takes what it returns and writes no float that JSON has not; what is read back is what
was written, and a second `_jsonable` changes nothing. -/
theorem jsonable_read_back {value : PyObject} {levels room : Nat} (shallow : value.depth ≤ levels)
    (narrow : value.depth ≤ room) (short : value.short = true) :
    ∃ cleaned doc, value.cleaned levels = .ok cleaned ∧ cleaned.dumped room = .ok doc ∧ doc.finite = true ∧
      doc.object = cleaned ∧ cleaned.cleaned levels = .ok cleaned := by
  obtain ⟨doc, same, settled⟩ := jsonable_clean value room narrow short
  have again : (jsonable value).cleaned levels = .ok (jsonable (jsonable value)) :=
    if_pos (Nat.le_trans (jsonable_depth value) shallow)
  refine ⟨jsonable value, doc, if_pos shallow, ?_, settled.finite, same.symm, ?_⟩
  · rw [same]
    exact settled.rewritten
  · rw [again, same, settled.fixed]

/-- A dictionary with a number for a key, an infinite float and an object of some class. -/
def mixedObject : PyObject :=
  .dict [(.other "int" "1" (some "1"), .tuple [.float .posInf, .int 2]), (.text "model", .other "PLS" "PLS(n=3)")]

theorem jsonable_read_back_mixed : ∃ cleaned doc, mixedObject.cleaned 2 = .ok cleaned ∧
    cleaned.dumped 2 = .ok doc ∧ doc.finite = true ∧ doc.object = cleaned ∧ cleaned.cleaned 2 = .ok cleaned :=
  jsonable_read_back (by decide) (by decide) (by decide +kernel)

/-! ## `_summarize` -/

/-- How a call ends that does not return: with an exception that `except Exception` catches, or
with one that makes the process exit. -/
inductive Raised where
  | exception (exn : Exn)
  | exit (code : Int)

/-- What `nirs4all.run` returned, as the runner asks it. -/
structure RunResult where
  isNone : Bool := false
  attr : String → Except Raised PyObject
  /-- `(result.best or {}).get(key)`, or `None` without `best`. -/
  best : String → Except Raised PyObject
  numPredictions : Except Raised Int
  exportTo : Except Raised Unit
  exported : Bool
  closed : Except Raised Unit

/-- `attr` of `_summarize`. -/
def RunResult.read (result : RunResult) (name : String) : Except Raised PyObject :=
  match result.attr name with
  | .ok value => .ok (sanitize value)
  | .error (.exception _) => .ok .null
  | .error (.exit code) => .error (.exit code)

structure Summary where
  version : String
  duration : Rat
  metrics : List (String × PyObject)
  numPredictions : Int
  extra : List (String × PyObject)
  /-- `produced["model"]`. -/
  model : Option String := none

def summaryMetrics : List String := ["best_score", "best_rmse", "best_r2", "best_mae", "best_accuracy"]

/-- The `extra` of a summary: what the result has under that name, and three facts of its best model. -/
def RunResult.extra (levels : Nat) (result : RunResult) : Except Raised (List (String × PyObject)) := do
  let own ←
    match ← result.read "extra" with
    | .dict fields =>
      if PyObject.depth (.dict fields) ≤ levels then .ok (gathered (fieldsJsonable fields))
      else .error (.exception recursionError)
    | _ => .ok []
  let extra := put own "best_model" (← result.best "model_name")
  let extra := put extra "task_type" (← result.best "task_type")
  return put extra "metric" (← result.best "metric")

def RunResult.metrics (result : RunResult) : Except Raised (List (String × PyObject)) :=
  summaryMetrics.mapM fun name => do return (name, ← result.read name)

/-- `_summarize`. -/
def summarizeRun (levels : Nat) (result : RunResult) (version : String) (duration : Rat) : Except Raised Summary := do
  let extra ← result.extra levels
  let metrics ← result.metrics
  return { version, duration, metrics, numPredictions := ← result.numPredictions, extra }

def modelPath : Option String → PyObject
  | some path => .str path
  | none => .null

/-- The summary as it is dumped. -/
def Summary.object (summary : Summary) : PyObject :=
  .dict (byText [("status", .str "succeeded"), ("nirs4all_version", .str summary.version),
    ("duration_seconds", .float (.fin summary.duration)), ("metrics", .dict (byText summary.metrics)),
    ("counts", .dict (byText [("num_predictions", .int summary.numPredictions)])),
    ("extra", .dict (byText summary.extra)), ("produced", .dict (byText [("model", modelPath summary.model)]))])

/-- A metric of a result as a document gives it: what JSON makes of it, where a float that is not
finite counts as none. -/
def RunResult.Measured (result : RunResult) (name : String) (doc : Json) : Prop :=
  ∃ value levels, result.read name = .ok value ∧ value.dumped levels = .ok doc

/-- What a document written by the runner says of a run. -/
structure Summarized (result : RunResult) (version : String) (doc : Dict) : Prop where
  status : doc.lookup "status" = some (.str "succeeded")
  version : doc.lookup "nirs4all_version" = some (.str version)
  metrics : ∃ metrics, doc.lookup "metrics" = some (.obj metrics) ∧
    ∀ name ∈ summaryMetrics, ∃ metric, metrics.lookup name = some metric ∧ result.Measured name metric

/-- A dictionary is written entry by entry. -/
theorem dict_dumped {entries : List (String × PyObject)} {doc : Json} {levels : Nat} (apart : (keys entries).Nodup)
    (written : PyObject.dumped (.dict (byText entries)) levels = .ok doc) :
    ∃ fields rest, doc = .obj fields ∧ ∀ name value, entries.lookup name = some value →
      ∃ field, fields.lookup name = some field ∧ value.dumped rest = .ok field := by
  cases levels with
  | zero => cases written
  | succ levels =>
  obtain ⟨docs, each, same⟩ := bind_ok_iff.mp written
  cases same
  have pairs := fieldsDumped_iff.mp each
  have named : keys docs = keys entries := by
    clear each written apart
    induction pairs with
    | nil => rfl
    | cons first _ ih => exact congrArg₂ List.cons first.1.symm ih
  refine ⟨docs, levels, congrArg Json.obj (gathered_apart (named ▸ apart)), fun name value found => ?_⟩
  clear each written apart named
  induction pairs with
  | nil => cases found
  | @cons entry doc rest docs first _ ih =>
    obtain ⟨key, held⟩ := entry
    obtain ⟨key', json⟩ := doc
    obtain ⟨same, dumped⟩ := first
    change key = key' at same
    subst same
    rw [List.lookup_cons] at found ⊢
    split at found
    · cases found
      exact ⟨json, rfl, dumped⟩
    · exact ih found

theorem metrics_read {result : RunResult} {names : List String} {metrics : List (String × PyObject)}
    (read : names.mapM (fun name => do return (name, ← result.read name) : String → Except Raised _) = .ok metrics) :
    keys metrics = names ∧
      ∀ name ∈ names, ∃ value, metrics.lookup name = some value ∧ result.read name = .ok value := by
  have pairs := mapM_ok read
  clear read
  induction pairs with
  | nil => exact ⟨rfl, fun _ member => False.elim (List.not_mem_nil member)⟩
  | @cons name entry names entries first _ ih =>
    obtain ⟨value, found, same⟩ := bind_ok_iff.mp first
    cases same
    refine ⟨congrArg (List.cons name) ih.1, fun other member => ?_⟩
    rw [List.lookup_cons]
    by_cases here : other = name
    · subst here
      rw [beq_self_eq_true]
      exact ⟨value, rfl, found⟩
    · rw [beq_eq_false_iff_ne.mpr here]
      exact ih.2 other ((List.mem_cons.mp member).resolve_left here)

/-- The document that is written of a summary says what the result says. -/
theorem object_summarized {result : RunResult} {summary : Summary} {doc : Json}
    {levels : Nat} (read : result.metrics = .ok summary.metrics) (written : summary.object.dumped levels = .ok doc) :
    ∃ fields, doc = .obj fields ∧ Summarized result summary.version fields := by
  obtain ⟨fields, rest, rfl, each⟩ := dict_dumped (by simp [keys]) written
  obtain ⟨status, found, same⟩ := each "status" _ rfl
  cases same
  obtain ⟨version, found', same⟩ := each "nirs4all_version" _ rfl
  cases same
  obtain ⟨metrics, found'', written⟩ := each "metrics" _ rfl
  obtain ⟨named, measured⟩ := metrics_read read
  obtain ⟨metrics, inner, rfl, metric⟩ := dict_dumped (by rw [named]; decide) written
  refine ⟨fields, rfl, found, found', metrics, found'', fun name member => ?_⟩
  obtain ⟨value, held, read⟩ := measured name member
  obtain ⟨doc, lookup, dumped⟩ := metric name value held
  exact ⟨doc, lookup, value, inner, read, dumped⟩

end N4Cluster
