import N4Cluster.Schemas

/-! `execute_task`: one run of a child process in a task's work directory, which may
hold what earlier attempts left there. The child is what the parent sees of it: what
each poll finds, and what it leaves in the result file. -/
namespace N4Cluster

/-- A path of the work directory. -/
inductive Entry (α : Type) where
  | absent
  | file (content : α)
  | directory

/-- What reading a file as JSON gives: a value, a `JSONDecodeError`, or another exception. -/
inductive JsonFile where
  | value (json : Json)
  | malformed
  | unreadable

structure TaskDir where
  spec : Entry Dict := .absent
  log : Entry (List Char) := .absent
  result : Entry JsonFile := .absent

/-- What one turn of the loop reads: the exit code, the clock, the cancel check. -/
structure Poll where
  code : Option Int := none
  now : Time := 0
  cancel : Bool := false

/-- What a child has done to the result file by its end. -/
inductive Left where
  | untouched
  | removed
  | wrote (content : JsonFile)

/-- The child of one run; `starts` fails if the spec, the log or the process cannot be made. -/
structure Child where
  starts : Bool := true
  begun : Time := 0
  polls : List Poll
  killed : Int := -15
  left : Left
  output : List Char := []

structure ExecOptions where
  timeout : Option Time := none
  tickEvery : Time := 15

inductive ExecError where
  | osError
  | unreadableResult
deriving DecidableEq

structure Execution where
  returncode : Int
  cancelled : Bool
  result : Json
  ticks : List Time

/-- Why the loop ends. -/
inductive Stop where
  | exited (code : Int)
  | cancelled
  | timedOut
deriving DecidableEq

section
variable (o : ExecOptions)

def ExecOptions.late (start now : Time) : Bool := o.timeout.any fun limit => limit < now - start

/-- The loop of `execute_task`, with the elapsed times of its ticks; it goes on while the
child runs and nothing stops it. -/
def watch (start lastTick : Time) : List Poll → Option (Stop × List Time)
  | [] => none
  | poll :: rest =>
    match poll.code with
    | some code => some (.exited code, [])
    | none =>
      if poll.cancel then some (.cancelled, [])
      else if o.late start poll.now then some (.timedOut, [])
      else if o.tickEvery ≤ poll.now - lastTick then
        (watch start poll.now rest).map fun stop => (stop.1, (poll.now - start) :: stop.2)
      else watch start lastTick rest

/-- The result file after a run. -/
def Left.over (left : Left) (prior : Entry JsonFile) : Entry JsonFile :=
  match left with
  | .untouched => prior
  | .removed => .absent
  | .wrote content => .file content

/-- Reads the result file if it exists; text that is no JSON counts as none. -/
def readResult : Entry JsonFile → Except ExecError Json
  | .absent | .file .malformed => .ok (.obj [])
  | .file (.value json) => .ok json
  | .file .unreadable => .error .unreadableResult
  | .directory => .error .osError

/-- `_log_tail`. -/
def logTail (log : Entry (List Char)) (maxChars : Nat := 4000) : String :=
  match log with
  | .file text => String.ofList (text.drop (text.length - maxChars))
  | .absent | .directory => ""

def cancelledResult : Json :=
  .obj [("status", .str "cancelled"), ("error", .str "task cancelled by server")]

def noResult (returncode : Int) (tail : String) : Json :=
  .obj [("status", .str "failed"),
    ("error", .str ("runner exited with code " ++ toString returncode ++ " and produced no result")),
    ("traceback", .str tail)]

/-- The result a run returns, from what the result file holds. -/
def settled (stop : Stop) (returncode : Int) (log : Entry (List Char)) (result : Json) : Json :=
  if stop = .cancelled then cancelledResult
  else if result.truthy then result
  else noResult returncode (logTail log)

def Stop.returncode (child : Child) : Stop → Int
  | .exited code => code
  | .cancelled | .timedOut => child.killed

/-- What a run makes of the work directory. -/
def TaskDir.after (dir : TaskDir) (spec : Dict) (child : Child) : TaskDir :=
  { spec := .file spec, log := .file child.output, result := child.left.over dir.result }

/-- `execute_task`, once the loop has ended. -/
def collect (dir : TaskDir) (child : Child) (stop : Stop) (ticks : List Time) :
    Except ExecError Execution := do
  let result ← readResult dir.result
  let returncode := stop.returncode child
  return { returncode := returncode, cancelled := stop = .cancelled,
           result := settled stop returncode dir.log result, ticks := ticks }

/-- The outcome of a run and the directory it leaves; none while it goes on. -/
def executeTask (spec : Dict) (dir : TaskDir) (child : Child) :
    Option (Except ExecError Execution × TaskDir) :=
  if child.starts then
    (watch o child.begun child.begun child.polls).map fun stop =>
      (collect (dir.after spec child) child stop.1 stop.2, dir.after spec child)
  else some (.error .osError, dir)

end

/-- `result.get("status") == status`. -/
def Json.hasStatus (status : String) : Json → Bool
  | .obj fields =>
    match fields.lookup "status" with
    | some (.str text) => text = status
    | _ => false
  | _ => false

/-! ## What the caller relies on -/

section
variable (o : ExecOptions)

/-- The turn neither sees the child end nor ends it. -/
def ExecOptions.Idle (start : Time) (poll : Poll) : Prop :=
  poll.code = none ∧ poll.cancel = false ∧ o.late start poll.now = false

/-- The first turn that is not idle is one of the given kind. -/
def FirstBusy (child : Child) (kind : Poll → Prop) : Prop :=
  ∃ before poll after, child.polls = before ++ poll :: after ∧
    (∀ p ∈ before, o.Idle child.begun p) ∧ kind poll

/-- The cancel check stops the child. -/
def Cancels (child : Child) : Prop :=
  child.starts = true ∧ FirstBusy o child fun poll => poll.code = none ∧ poll.cancel = true

/-- The child exits by itself or runs into the time limit. -/
def Finishes (child : Child) : Prop :=
  child.starts = true ∧ FirstBusy o child fun poll =>
    poll.code.isSome = true ∨
      poll.code = none ∧ poll.cancel = false ∧ o.late child.begun poll.now = true

/-- A result says succeeded only if this run's child wrote one that does, and says cancelled
whenever the cancel check stopped the child. -/
structure Accountable (spec : Dict) (dir : TaskDir) (child : Child) : Prop where
  succeeded : ∀ run dir', executeTask o spec dir child = some (.ok run, dir') →
    run.result.hasStatus "succeeded" = true →
    ∃ json, child.left = .wrote (.value json) ∧ json.hasStatus "succeeded" = true
  cancelled : Cancels o child → ∃ run dir', executeTask o spec dir child = some (.ok run, dir') ∧
    run.cancelled = true ∧ run.result.hasStatus "cancelled" = true

/-- The result file of an earlier attempt says succeeded. -/
def Stale (prior : Entry JsonFile) : Prop :=
  ∃ json, prior = .file (.value json) ∧ json.hasStatus "succeeded" = true

/-- The result file can be read, as JSON or not. -/
def Readable : Entry JsonFile → Prop
  | .absent | .file (.value _) | .file .malformed => True
  | .file .unreadable | .directory => False

/-- A child that is not cancelled writes or removes a stale result, and one that is leaves
no unreadable file. -/
def Clean (dir : TaskDir) (child : Child) : Prop :=
  (Finishes o child → ¬(child.left = .untouched ∧ Stale dir.result)) ∧
    (Cancels o child → Readable (child.left.over dir.result))

end

/-! ## The loop -/

section
variable {o : ExecOptions} {start : Time} {polls : List Poll}

/-- The kind of turn that ends the loop with each reason. -/
def Ends (o : ExecOptions) (start : Time) (stop : Stop) (poll : Poll) : Prop :=
  match stop with
  | .exited code => poll.code = some code
  | .cancelled => poll.code = none ∧ poll.cancel = true
  | .timedOut => poll.code = none ∧ poll.cancel = false ∧ o.late start poll.now = true

theorem Ends.busy {stop : Stop} {poll : Poll} (ends : Ends o start stop poll) :
    ¬o.Idle start poll := by
  intro ⟨running, going, early⟩
  cases stop with
  | exited code =>
    cases running.symm.trans ends
  | cancelled => simp [going, Ends] at ends
  | timedOut => simp [early, Ends] at ends

theorem watch_idle (lastTick : Time) {poll : Poll} (rest : List Poll) (idle : o.Idle start poll) :
    ∃ tick front, watch o start lastTick (poll :: rest) =
      (watch o start tick rest).map fun stop => (stop.1, front ++ stop.2) := by
  obtain ⟨running, going, early⟩ := idle
  simp only [watch, running, going, early, Bool.false_eq_true, if_false]
  split
  · exact ⟨poll.now, [poll.now - start], rfl⟩
  · exact ⟨lastTick, [], by simp⟩

theorem watch_ends (lastTick : Time) {poll : Poll} (rest : List Poll) {stop : Stop} (ends : Ends o start stop poll) :
    watch o start lastTick (poll :: rest) = some (stop, []) := by
  cases stop with
  | exited code =>
    change poll.code = some code at ends
    simp only [watch, ends]
  | cancelled =>
    obtain ⟨running, stopped⟩ := ends
    simp only [watch, running, stopped, if_true]
  | timedOut =>
    obtain ⟨running, going, late⟩ := ends
    simp only [watch, running, going, late, Bool.false_eq_true, if_false, if_true]

theorem busy_ends {poll : Poll} (busy : ¬o.Idle start poll) : ∃ stop, Ends o start stop poll := by
  cases code : poll.code with
  | some exit => exact ⟨.exited exit, code⟩
  | none =>
    cases cancel : poll.cancel with
    | true => exact ⟨.cancelled, code, cancel⟩
    | false =>
      cases late : o.late start poll.now with
      | false => exact absurd ⟨code, cancel, late⟩ busy
      | true => exact ⟨.timedOut, code, cancel, late⟩

/-- The loop ends for the reason of its first turn that is not idle. -/
theorem watch_iff (lastTick : Time) (stop : Stop) :
    (∃ ticks, watch o start lastTick polls = some (stop, ticks)) ↔
      ∃ before poll after, polls = before ++ poll :: after ∧
        (∀ p ∈ before, o.Idle start p) ∧ Ends o start stop poll := by
  induction polls generalizing lastTick with
  | nil => simp [watch]
  | cons poll rest ih =>
    by_cases idle : o.Idle start poll
    · obtain ⟨tick, front, same⟩ := watch_idle lastTick rest idle
      rw [same]
      constructor
      · intro ⟨ticks, ended⟩
        obtain ⟨⟨stop', ticks'⟩, ended', pair⟩ := Option.map_eq_some_iff.mp ended
        cases pair
        obtain ⟨before, last, after, split, quiet, ends⟩ := (ih tick).mp ⟨ticks', ended'⟩
        refine ⟨poll :: before, last, after, by rw [split]; rfl, ?_, ends⟩
        intro p member
        rcases List.mem_cons.mp member with rfl | later
        · exact idle
        · exact quiet p later
      · intro ⟨before, last, after, split, quiet, ends⟩
        cases before with
        | nil =>
          cases split
          exact absurd idle ends.busy
        | cons first before =>
          cases split
          obtain ⟨ticks, ended⟩ := (ih tick).mpr
            ⟨before, last, after, rfl, fun p member => quiet p (List.mem_cons_of_mem _ member), ends⟩
          exact ⟨front ++ ticks, by rw [ended]; rfl⟩
    · obtain ⟨reason, ends⟩ := busy_ends idle
      rw [watch_ends lastTick rest ends]
      constructor
      · intro ⟨ticks, same⟩
        cases same
        exact ⟨[], poll, rest, rfl, by simp, ends⟩
      · intro ⟨before, last, after, split, quiet, ends'⟩
        cases before with
        | nil =>
          cases split
          have twice := (watch_ends lastTick rest ends).symm.trans (watch_ends lastTick _ ends')
          exact ⟨[], twice⟩
        | cons first before =>
          cases split
          exact absurd (quiet _ List.mem_cons_self) idle

end

section
variable {o : ExecOptions} {spec : Dict} {dir : TaskDir} {child : Child}

theorem cancels_iff : Cancels o child ↔ child.starts = true ∧
    ∃ ticks, watch o child.begun child.begun child.polls = some (.cancelled, ticks) := by
  rw [watch_iff]
  rfl

theorem finishes_iff : Finishes o child ↔ child.starts = true ∧
    ∃ stop ticks, stop ≠ .cancelled ∧
      watch o child.begun child.begun child.polls = some (stop, ticks) := by
  constructor
  · intro ⟨starts, before, poll, after, split, quiet, kind⟩
    refine ⟨starts, ?_⟩
    rcases kind with exited | late
    · obtain ⟨code, found⟩ := Option.isSome_iff_exists.mp exited
      obtain ⟨ticks, ended⟩ := (watch_iff child.begun (.exited code)).mpr
        ⟨before, poll, after, split, quiet, found⟩
      exact ⟨.exited code, ticks, by simp, ended⟩
    · obtain ⟨ticks, ended⟩ := (watch_iff child.begun .timedOut).mpr
        ⟨before, poll, after, split, quiet, late⟩
      exact ⟨.timedOut, ticks, by simp, ended⟩
  · intro ⟨starts, stop, ticks, other, ended⟩
    obtain ⟨before, poll, after, split, quiet, ends⟩ := (watch_iff child.begun stop).mp ⟨ticks, ended⟩
    refine ⟨starts, before, poll, after, split, quiet, ?_⟩
    cases stop with
    | exited code => exact .inl (Option.isSome_iff_exists.mpr ⟨code, ends⟩)
    | cancelled => exact absurd rfl other
    | timedOut => exact .inr ends

/-! ## The outcome -/

theorem executeTask_ended (spec : Dict) (dir : TaskDir) {stop : Stop} {ticks : List Time}
    (starts : child.starts = true)
    (ended : watch o child.begun child.begun child.polls = some (stop, ticks)) :
    executeTask o spec dir child =
      some (collect (dir.after spec child) child stop ticks, dir.after spec child) := by
  rw [executeTask, if_pos starts, ended]
  rfl

theorem collect_ok {stop : Stop} {ticks : List Time} {json : Json}
    (read : readResult (child.left.over dir.result) = .ok json) :
    collect (dir.after spec child) child stop ticks = .ok
      { returncode := stop.returncode child, cancelled := stop = .cancelled,
        result := settled stop (stop.returncode child) (.file child.output) json,
        ticks := ticks } := by
  unfold collect
  rw [show readResult (dir.after spec child).result = .ok json from read]
  rfl

/-- A run that returns has started its child, seen the loop end and read the result file. -/
theorem executeTask_ok {run : Execution} {dir' : TaskDir}
    (ran : executeTask o spec dir child = some (.ok run, dir')) :
    child.starts = true ∧ ∃ stop ticks json,
      watch o child.begun child.begun child.polls = some (stop, ticks) ∧
      readResult (child.left.over dir.result) = .ok json ∧
      run.result = settled stop (stop.returncode child) (.file child.output) json := by
  unfold executeTask at ran
  split at ran
  · rename_i starts
    obtain ⟨⟨stop, ticks⟩, ended, pair⟩ := Option.map_eq_some_iff.mp ran
    refine ⟨starts, stop, ticks, ?_⟩
    cases read : readResult (child.left.over dir.result) with
    | error error =>
      have raised : collect (dir.after spec child) child stop ticks = .error error := by
        unfold collect
        rw [show readResult (dir.after spec child).result = .error error from read]
        rfl
      rw [raised] at pair
      cases pair
    | ok json =>
      rw [collect_ok read] at pair
      cases pair
      exact ⟨json, ended, rfl, rfl⟩
  · cases ran

theorem truthy_of_status {status : String} {json : Json} (has : json.hasStatus status = true) :
    json.truthy = true := by
  cases json with
  | obj fields =>
    cases fields with
    | nil => cases has
    | cons => rfl
  | _ => cases has

theorem readable_iff {entry : Entry JsonFile} : Readable entry ↔ ∃ json, readResult entry = .ok json := by
  match entry with
  | .absent | .file .malformed => exact iff_of_true trivial ⟨_, rfl⟩
  | .file (.value json) => exact iff_of_true trivial ⟨json, rfl⟩
  | .file .unreadable | .directory =>
    apply iff_of_false id
    intro ⟨json, read⟩
    cases read

theorem readResult_status {entry : Entry JsonFile} {json : Json} {status : String}
    (read : readResult entry = .ok json) (has : json.hasStatus status = true) :
    entry = .file (.value json) := by
  match entry with
  | .absent | .file .malformed =>
    cases read
    cases has
  | .file (.value json') =>
    cases read
    rfl
  | .file .unreadable | .directory => cases read

/-- What a run returns as succeeded it has read. -/
theorem settled_succeeded {stop : Stop} {code : Int} {log : Entry (List Char)} {json : Json}
    (has : (settled stop code log json).hasStatus "succeeded" = true) :
    stop ≠ .cancelled ∧ json.hasStatus "succeeded" = true := by
  unfold settled at has
  split at has
  · cases has
  · rename_i other
    refine ⟨other, ?_⟩
    split at has
    · exact has
    · cases has

theorem clean_of_accountable (accountable : Accountable o spec dir child) : Clean o dir child := by
  constructor
  · rintro finishes ⟨untouched, json, held, succeeded⟩
    obtain ⟨starts, stop, ticks, other, ended⟩ := finishes_iff.mp finishes
    have read : readResult (child.left.over dir.result) = .ok json := by
      rw [untouched, Left.over, held]
      rfl
    have ran := executeTask_ended spec dir starts ended
    rw [collect_ok read] at ran
    have kept : settled stop (stop.returncode child) (.file child.output) json = json := by
      rw [settled, if_neg other, if_pos (truthy_of_status succeeded)]
    obtain ⟨_, wrote, _⟩ := accountable.succeeded _ _ ran (by rw [kept, succeeded])
    rw [untouched] at wrote
    cases wrote
  · intro cancels
    obtain ⟨run, dir', ran, _⟩ := accountable.cancelled cancels
    obtain ⟨_, _, _, json, _, read, _⟩ := executeTask_ok ran
    exact readable_iff.mpr ⟨json, read⟩

theorem accountable_of_clean (clean : Clean o dir child) : Accountable o spec dir child := by
  constructor
  · intro run dir' ran succeeded
    obtain ⟨starts, stop, ticks, json, ended, read, result⟩ := executeTask_ok ran
    rw [result] at succeeded
    obtain ⟨other, has⟩ := settled_succeeded succeeded
    have held := readResult_status read has
    cases left : child.left with
    | untouched =>
      rw [left] at held
      have finishes := finishes_iff.mpr ⟨starts, stop, ticks, other, ended⟩
      exact absurd ⟨left, json, held, has⟩ (clean.1 finishes)
    | removed =>
      rw [left] at held
      cases held
    | wrote content =>
      rw [left] at held
      cases held
      exact ⟨json, rfl, has⟩
  · intro cancels
    obtain ⟨starts, ticks, ended⟩ := cancels_iff.mp cancels
    obtain ⟨json, read⟩ := readable_iff.mp (clean.2 cancels)
    have ran := executeTask_ended spec dir starts ended
    rw [collect_ok read] at ran
    exact ⟨_, _, ran, rfl, rfl⟩

end

/-- A run accounts for its own child exactly when no stale result outlives it and a
cancelled child leaves no unreadable file. -/
theorem results_accountable (o : ExecOptions) (spec : Dict) (dir : TaskDir) (child : Child) :
    Accountable o spec dir child ↔ Clean o dir child :=
  ⟨clean_of_accountable, accountable_of_clean⟩

/-! ## A kept work directory -/

/-- A child that writes its result and exits. -/
def succeededChild : Child where
  polls := [{}, { code := some 0, now := 1 }]
  left := .wrote (.value (.obj [("status", .str "succeeded")]))

/-- A child that dies before it writes anything. -/
def crashedChild : Child where
  begun := 9
  polls := [{ code := some (-9), now := 9 }]
  left := .untouched

/-- The child of a second attempt dies, and the result of the first is returned. -/
theorem stale_result_returned :
    ∃ dir run, executeTask {} [] {} succeededChild = some (.ok run, dir) ∧
      ¬Accountable {} [] dir crashedChild := by
  refine ⟨_, _, rfl, ?_⟩
  intro accountable
  obtain ⟨_, wrote, _⟩ := accountable.succeeded _ _ rfl (by rfl)
  cases wrote

end N4Cluster
