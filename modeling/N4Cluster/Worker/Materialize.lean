import N4Cluster.Base.Acting
import N4Cluster.Base.PurePaths
import N4Cluster.Worker.Documents
import N4Cluster.Worker.Extraction
import N4Cluster.Worker.Handoff

/-! The inputs of a task. The worker turns every reference of a payload into files below the
task's `inputs` directory and writes a spec that names them. Nothing outside is written, what the
spec names holds what was referenced, and its fingerprint is that of the pipeline the runner
reads. The file system has no symbolic links: opening and writing a file would follow them. -/
namespace N4Cluster
open Paths Acting Fallible

/-- What a download is answered: an exception before the file is opened, or bytes, and the
exception they may break off with. -/
structure Served where
  refused : Option Exn := none
  data : Bytes := []
  broken : Option Exn := none

/-- What a worker has of its host, of the server and of its libraries. -/
structure WorkerHost where
  cwd : Place
  serves : ArtifactId → Served
  unzip : Bytes → Except Exn (List ZipMember)
  safeDump : Json → Except Exn Bytes
  iterdir : Tree → Place → List Name
  entries : ∀ tree place, ∀ name ∈ iterdir tree place, Plain name ∧ name ≠ parent
  emptyRefused : Bool
  floats : FloatText
  sha256 : Bytes → String

abbrev FileAct := Act Tree Exn

def Tree.isDir (tree : Tree) (place : Place) : Bool := place = [] || tree place = some .directory

/-- The entry that a path leads to, over entries that are directories. -/
def located (tree : Tree) : Place → List Name → Option Place
  | place, [] => if place = [] ∨ (tree place).isSome then some place else none
  | place, name :: names => if tree.isDir place then located tree (descend place name) names else none

def Tree.find (tree : Tree) (cwd : Place) (path : PurePath) : Option Place :=
  located tree (if path.rooted then [] else cwd) path.names

def noSuchFile : Exn := ⟨"FileNotFoundError", "No such file or directory"⟩

section
variable (host : WorkerHost)

def readBytes (path : PurePath) : FileAct Bytes := .ask fun tree =>
  match tree.find host.cwd path with
  | none => .error noSuchFile
  | some place =>
    match tree place with
    | some (.file data) => .ok data
    | _ => .error ⟨"IsADirectoryError", "Is a directory"⟩

/-- A file of a folder is opened for writing, and written. -/
def writeBytes (folder : PurePath) (name : String) (data : Bytes) : FileAct Unit := fun tree =>
  match tree.find host.cwd folder with
  | none => (.error noSuchFile, tree)
  | some upper =>
    if tree.isDir upper = false then (.error ⟨"NotADirectoryError", "Not a directory"⟩, tree)
    else if tree (upper ++ [name.toList]) = some Node.directory then
      (.error ⟨"IsADirectoryError", "Is a directory"⟩, tree)
    else (.ok (), tree.put (upper ++ [name.toList]) (.file data))

/-- `path.mkdir(parents=True, exist_ok=True)`. -/
def mkdir (path : PurePath) : FileAct Unit := fun tree => makeDestination tree (path.leads host.cwd)

/-- `_download_artifact`, to a file of a folder. -/
def download (folder : PurePath) (name : String) (artifactId : ArtifactId) : FileAct Unit := do
  mkdir host folder
  match (host.serves artifactId).refused with
  | some exn => .raise exn
  | none =>
    writeBytes host folder name (host.serves artifactId).data
    match (host.serves artifactId).broken with
    | some exn => .raise exn
    | none => return ()

/-- `_safe_extract` of an archive that is a file. -/
def extractArchive (archive dest : PurePath) : FileAct Unit := fun tree =>
  let place := dest.leads host.cwd
  let opened := do host.unzip (← (readBytes host archive (makeDestination tree place).2).1)
  safeExtract .ok host.emptyRefused opened place tree

/-- `_dataset_root`. -/
def datasetRoot (extracted : PurePath) : FileAct PurePath := .ask fun tree =>
  let place := extracted.leads host.cwd
  match (host.iterdir tree place).filter fun name => !"__MACOSX".toList.isPrefixOf name with
  | [name] =>
    if tree (place ++ [name]) = some Node.directory then .ok (extracted.slash (.parse name)) else .ok extracted
  | _ => .ok extracted

/-! ## References -/

def pathSpec (path : PurePath) : Dict := [("mode", .str "path"), ("path", .str path.str)]

def entrypointSpec (ref : PipelineRef) (sysPath : List PurePath) : Dict :=
  [("mode", .str "entrypoint"), ("entrypoint", (ref.entrypoint.map Json.str).getD .null),
    ("sys_path", .arr (sysPath.map fun path => .str path.str))]

/-- A path given by the payload, which must exist. -/
def givenPath (kind : String) (path : Option String) : FileAct Dict := do
  let path := PurePath.parse (path.getD "").toList
  if ← Act.ask fun tree => .ok (tree.find host.cwd path).isSome then return pathSpec path
  else .raise ⟨"FileNotFoundError", kind ++ " path not accessible on worker: " ++ path.str⟩

/-- `_materialize_pipeline`. -/
def materializePipeline (inputs : PurePath) (ref : PipelineRef) : FileAct Dict :=
  match ref.kind with
  | .path => givenPath host "pipeline" ref.path
  | .inlineJson => do
    let text ← .ofExcept (host.safeDump (ref.inline.getD .null))
    writeBytes host inputs "pipeline.yaml" text
    return pathSpec (inputs.child "pipeline.yaml")
  | .artifact => do
    download host inputs "pipeline.yaml" (ref.artifactId.getD "")
    return pathSpec (inputs.child "pipeline.yaml")
  | .pythonEntrypoint =>
    if truthy ref.bundleArtifactId then do
      download host inputs "bundle.zip" (ref.bundleArtifactId.getD "")
      extractArchive host (inputs.child "bundle.zip") (inputs.child "bundle")
      return entrypointSpec ref [inputs.child "bundle"]
    else return entrypointSpec ref []

/-- `_materialize_dataset`. -/
def materializeDataset (inputs : PurePath) (ref : DatasetRef) : FileAct Dict :=
  match ref.kind with
  | .sharedPath | .workerLocal => givenPath host "dataset" ref.path
  | .artifact => do
    download host inputs "dataset.zip" (ref.artifactId.getD "")
    extractArchive host (inputs.child "dataset.zip") (inputs.child "dataset")
    return pathSpec (← datasetRoot host (inputs.child "dataset"))
  | .catalog => .raise ⟨"NotImplementedError", "dataset kind 'catalog' is not implemented in the prototype worker; " ++
      "use 'shared_path' or 'artifact'"⟩

/-- An exception of the encoder. -/
def PyErr.exn : PyErr → Exn
  | .typeError message => ⟨"TypeError", message⟩
  | error => N4Cluster.valueError error.str

/-- `fingerprint_file`. -/
def fingerprintFile (path : String) : FileAct String := do
  return "sha256:" ++ host.sha256 (← readBytes host (.parse path.toList))

/-- The file that is hashed, if one is. -/
def pathFingerprint (ref : PipelineRef) (spec : Dict) : FileAct String :=
  match spec.lookup "path" with
  | some (.str path) => if ref.kind = .inlineJson then pure "" else fingerprintFile host path
  | _ => pure ""

/-- `_pipeline_fingerprint`; a file is read first. -/
def specFingerprint (ref : PipelineRef) (spec : Dict) : FileAct String := do
  let file ← pathFingerprint host ref spec
  .ofExcept ((pipelineFingerprint host.floats (fun text => host.sha256 (String.ofList text).toUTF8.toList)
    (fun _ => .ok file) ref spec).mapError PyErr.exn)

/-- `build_runner_spec`. -/
def materialize (task : TaskPayload) (workdir : PurePath) : FileAct Dict := do
  let inputs := workdir.child "inputs"
  mkdir host inputs
  let pipeline ← materializePipeline host inputs task.pipeline
  let dataset ← materializeDataset host inputs task.dataset
  let fingerprint ← specFingerprint host task.pipeline pipeline
  return buildRunnerSpec task (.obj pipeline) (.obj dataset) fingerprint

end

/-- Outside the inputs nothing changes, but for directories made on the way to them. -/
def Beneath (inputs : Place) (before after : Tree) : Prop :=
  ∀ place, ¬Inside inputs place →
    after place = before place ∨ before place = none ∧ after place = some .directory ∧ place <+: inputs

/-- A file stays as it is. -/
def Spares (place : Place) (before after : Tree) : Prop :=
  ∀ data, before place = some (.file data) → after place = some (.file data)

section
variable {inputs dest place other : Place} {tree first second third : Tree}

theorem Beneath.refl (tree : Tree) : Beneath inputs tree tree := fun _ _ => .inl rfl

theorem Beneath.trans (one : Beneath inputs first second) (two : Beneath inputs second third) :
    Beneath inputs first third := by
  intro place outside
  rcases one place outside with same | ⟨missing, made, below⟩
  · rcases two place outside with later | ⟨missing, made, below⟩
    · exact .inl (later.trans same)
    · exact .inr ⟨same.symm.trans missing, made, below⟩
  · rcases two place outside with later | ⟨still, _⟩
    · exact .inr ⟨missing, later.trans made, below⟩
    · rw [made] at still
      cases still

theorem Within.beneath (within : Within dest first second) (below : inputs <+: dest) : Beneath inputs first second := by
  intro place outside
  refine .inl (within place fun inside => outside ?_)
  obtain ⟨rest, held, rfl⟩ := inside
  obtain ⟨more, rfl⟩ := below
  exact ⟨more ++ rest, fun empty => held (List.append_eq_nil_iff.mp empty).2, List.append_assoc _ _ _⟩

theorem Spares.refl (tree : Tree) : Spares place tree tree := fun _ => id

theorem Spares.trans (one : Spares place first second) (two : Spares place second third) : Spares place first third :=
  fun data held => two data (one data held)

theorem Within.spares (within : Within dest first second) (outside : ¬Inside dest place) : Spares place first second :=
  fun _ held => (within place outside).trans held

/-- Directories are made where nothing is, on the way down. -/
theorem makeDirectories_adds (names : List Name) (tree : Tree) (place other : Place) :
    (makeDirectories .ok tree place names).2 other = tree other ∨
      tree other = none ∧ (makeDirectories .ok tree place names).2 other = some .directory ∧ other <+: place ++ names := by
  induction names generalizing tree place with
  | nil => exact .inl rfl
  | cons name names ih =>
    have whole : place ++ [name] ++ names = place ++ name :: names := by simp
    rw [makeDirectories]
    dsimp only
    cases here : tree (place ++ [name]) with
    | none =>
      by_cases same : other = place ++ [name]
      · have put : tree.put (place ++ [name]) .directory other = some .directory := if_pos same
        refine .inr ⟨same ▸ here, ?_, ⟨names, by rw [same, whole]⟩⟩
        rcases ih (tree.put (place ++ [name]) .directory) (place ++ [name]) with kept | ⟨missing, _⟩
        · exact kept.trans put
        · rw [put] at missing
          cases missing
      · have kept : tree.put (place ++ [name]) .directory other = tree other := if_neg same
        have rest := ih (tree.put (place ++ [name]) .directory) (place ++ [name])
        rwa [kept, whole] at rest
    | some node =>
      cases node with
      | directory => exact whole ▸ ih tree (place ++ [name])
      | file data =>
        dsimp only
        split
        · exact .inl rfl
        · exact .inl rfl

theorem makeDestination_adds (tree : Tree) (dest : Place) :
    (makeDestination tree dest).2 other = tree other ∨
      tree other = none ∧ (makeDestination tree dest).2 other = some .directory ∧ other <+: dest := by
  have made := makeDirectories_adds dest tree [] other
  rw [List.nil_append] at made
  have same : (makeDestination tree dest).2 = (makeDirectories .ok tree [] dest).2 := by
    rw [makeDestination]
    split
    · rename_i ran
      rw [ran]
    · rename_i ran
      rw [ran]
      split <;> rfl
  rwa [same]

theorem makeDestination_beneath (below : inputs <+: dest) (tree : Tree) :
    Beneath inputs tree (makeDestination tree dest).2 := by
  intro place outside
  rcases makeDestination_adds tree dest with same | ⟨missing, made, onWay⟩
  · exact .inl same
  · refine .inr ⟨missing, made, ?_⟩
    rcases List.prefix_or_prefix_of_prefix onWay below with inside | ⟨rest, rfl⟩
    · exact inside
    · by_cases empty : rest = []
      · simp only [empty, List.append_nil, List.prefix_refl]
      · exact absurd ⟨rest, empty, rfl⟩ outside

theorem makeDestination_spares (tree : Tree) (dest : Place) : Spares place tree (makeDestination tree dest).2 := by
  intro data held
  rcases makeDestination_adds tree dest with same | ⟨missing, _⟩
  · exact same.trans held
  · rw [held] at missing
    cases missing

theorem located_walk {names : List Name} {target : Place} (found : located tree place names = some target) :
    target = walk place names := by
  induction names generalizing place with
  | nil =>
    rw [located] at found
    split at found
    · exact (Option.some.inj found).symm
    · cases found
  | cons name names ih =>
    rw [located] at found
    split at found
    · exact ih found
    · cases found

theorem find_leads {path : PurePath} {cwd target : Place} (found : tree.find cwd path = some target) :
    target = path.leads cwd := located_walk found

theorem safeExtract_within {follow : Place → Except Exn Place} (linkFree : LinkFree follow dest) (emptyRefused : Bool)
    (archive : Except Exn (List ZipMember)) (tree : Tree) :
    Within dest (makeDestination tree dest).2 (safeExtract follow emptyRefused archive dest tree).2 := by
  rw [safeExtract]
  cases made : makeDestination tree dest with
  | mk ended ready =>
    cases ended with
    | error exn => exact .refl _
    | ok _ =>
      dsimp only
      cases checkArchive follow dest archive with
      | error exn => exact .refl _
      | ok members => exact (extractAll_within linkFree emptyRefused members members ready).1

theorem safeExtract_accepts {follow : Place → Except Exn Place} {emptyRefused : Bool}
    {archive : Except Exn (List ZipMember)} (ran : (safeExtract follow emptyRefused archive dest tree).1 = .ok ()) :
    ∃ members, archive = .ok members ∧ ∀ member ∈ members, Accepted follow dest member := by
  rw [safeExtract] at ran
  split at ran
  · cases ran
  · split at ran
    · cases ran
    · rename_i members checked
      exact ⟨members, checkArchive_ok checked⟩

end

section
variable {host : WorkerHost} {inputs : PurePath} {other : Place}

theorem mkdir_beneath : (mkdir host inputs).Leaves (Beneath (inputs.leads host.cwd)) :=
  makeDestination_beneath (List.prefix_refl _)

theorem mkdir_spares {path : PurePath} : (mkdir host path).Leaves (Spares other) :=
  fun tree => makeDestination_spares tree _

/-- A file is written where its folder leads, if anything is. -/
theorem writeBytes_cases (host : WorkerHost) (folder : PurePath) (name : String) (data : Bytes) (tree : Tree) :
    (∃ exn, writeBytes host folder name data tree = (.error exn, tree)) ∨
      writeBytes host folder name data tree =
        (.ok (), tree.put (folder.leads host.cwd ++ [name.toList]) (.file data)) := by
  unfold writeBytes
  split
  · exact .inl ⟨_, rfl⟩
  · rename_i upper found
    obtain rfl := find_leads found
    split
    · exact .inl ⟨_, rfl⟩
    · split
      · exact .inl ⟨_, rfl⟩
      · exact .inr rfl

theorem writeBytes_beneath {name : String} {data : Bytes} :
    (writeBytes host inputs name data).Leaves (Beneath (inputs.leads host.cwd)) := by
  intro tree
  rcases writeBytes_cases host inputs name data tree with ⟨exn, ran⟩ | ran
  · rw [ran]
    exact .refl tree
  · rw [ran]
    exact (Within.put (inside_snoc.mpr (List.prefix_refl _)) tree _).beneath (List.prefix_refl _)

theorem writeBytes_spares {name : String} {data : Bytes} (apart : other ≠ inputs.leads host.cwd ++ [name.toList]) :
    (writeBytes host inputs name data).Leaves (Spares other) := by
  intro tree content held
  rcases writeBytes_cases host inputs name data tree with ⟨exn, ran⟩ | ran
  · rw [ran]
    exact held
  · rw [ran]
    exact (if_neg apart).trans held

theorem writeBytes_returns {name : String} {data : Bytes} {tree after : Tree} {done : Unit}
    (ran : writeBytes host inputs name data tree = (.ok done, after)) :
    after (inputs.leads host.cwd ++ [name.toList]) = some (.file data) := by
  rcases writeBytes_cases host inputs name data tree with ⟨exn, ran'⟩ | ran'
  · cases ran.symm.trans ran'
  · cases ran.symm.trans ran'
    exact if_pos rfl

theorem download_beneath {name : String} {artifactId : ArtifactId} :
    (download host inputs name artifactId).Leaves (Beneath (inputs.leads host.cwd)) := by
  refine .bind .trans mkdir_beneath fun _ => ?_
  split
  · exact .raise .refl _
  · refine .bind .trans writeBytes_beneath fun _ => ?_
    split
    · exact .raise .refl _
    · exact .pure .refl _

theorem download_spares {name : String} {artifactId : ArtifactId}
    (apart : other ≠ inputs.leads host.cwd ++ [name.toList]) :
    (download host inputs name artifactId).Leaves (Spares other) := by
  refine .bind .trans mkdir_spares fun _ => ?_
  split
  · exact .raise .refl _
  · refine .bind .trans (writeBytes_spares apart) fun _ => ?_
    split
    · exact .raise .refl _
    · exact .pure .refl _

/-- A download that returns has written all that was served. -/
theorem download_returns {name : String} {artifactId : ArtifactId} {tree after : Tree} {done : Unit}
    (ran : download host inputs name artifactId tree = (.ok done, after)) :
    (host.serves artifactId).refused = none ∧ (host.serves artifactId).broken = none ∧
      after (inputs.leads host.cwd ++ [name.toList]) = some (.file (host.serves artifactId).data) := by
  obtain ⟨_, made, _, ran⟩ := Act.bind_returns ran
  cases opened : (host.serves artifactId).refused with
  | some exn =>
    rw [opened] at ran
    cases ran
  | none =>
    rw [opened] at ran
    obtain ⟨_, written, wrote, ran⟩ := Act.bind_returns ran
    cases whole : (host.serves artifactId).broken with
    | some exn =>
      rw [whole] at ran
      cases ran
    | none =>
      rw [whole] at ran
      obtain ⟨_, rfl⟩ := Act.pure_returns ran
      exact ⟨rfl, rfl, writeBytes_returns wrote⟩

theorem extractArchive_within {archive dest : PurePath} (tree : Tree) :
    Within (dest.leads host.cwd) (makeDestination tree (dest.leads host.cwd)).2 (extractArchive host archive dest tree).2 :=
  safeExtract_within (fun _ _ => rfl) _ _ _

theorem extractArchive_beneath {archive dest : PurePath} (below : inputs.leads host.cwd <+: dest.leads host.cwd) :
    (extractArchive host archive dest).Leaves (Beneath (inputs.leads host.cwd)) := by
  intro tree
  exact (makeDestination_beneath below tree).trans ((extractArchive_within tree).beneath below)

theorem extractArchive_spares {archive dest : PurePath} (outside : ¬Inside (dest.leads host.cwd) other) :
    (extractArchive host archive dest).Leaves (Spares other) := by
  intro tree
  exact (makeDestination_spares tree _).trans ((extractArchive_within tree).spares outside)

theorem readBytes_returns {path : PurePath} {tree after : Tree} {data : Bytes}
    (ran : readBytes host path tree = (.ok data, after)) :
    tree = after ∧ tree (path.leads host.cwd) = some (.file data) := by
  obtain ⟨read, rfl⟩ := Act.ask_returns ran
  refine ⟨rfl, ?_⟩
  split at read
  · cases read
  · rename_i place found
    obtain rfl := find_leads found
    split at read
    · rename_i content held
      cases read
      exact held
    · cases read

/-- The members of an archive that was extracted are those of the file, and all acceptable. -/
theorem extractArchive_returns {archive dest : PurePath} {tree after : Tree} {done : Unit} {data : Bytes}
    (stored : tree (archive.leads host.cwd) = some (.file data))
    (ran : extractArchive host archive dest tree = (.ok done, after)) :
    ∃ members, host.unzip data = .ok members ∧ ∀ member ∈ members, Accepted .ok (dest.leads host.cwd) member := by
  obtain ⟨members, opened, accepted⟩ := safeExtract_accepts (congrArg Prod.fst ran)
  obtain ⟨read, held, unzipped⟩ := bind_ok_iff.mp opened
  have found := (readBytes_returns (Prod.ext held rfl)).2
  have kept := makeDestination_spares tree (dest.leads host.cwd) _ stored
  cases found.symm.trans kept
  exact ⟨members, unzipped, accepted⟩

theorem datasetRoot_returns {extracted root : PurePath} {tree after : Tree}
    (ran : datasetRoot host extracted tree = (.ok root, after)) :
    tree = after ∧ (root = extracted ∨ ∃ name, Plain name ∧ name ≠ parent ∧
      root = extracted.slash (.parse name) ∧ tree (extracted.leads host.cwd ++ [name]) = some .directory) := by
  obtain ⟨chosen, rfl⟩ := Act.ask_returns ran
  refine ⟨rfl, ?_⟩
  dsimp only at chosen
  split at chosen
  · rename_i name single
    split at chosen
    · rename_i folder
      cases chosen
      have listed : name ∈ host.iterdir tree (extracted.leads host.cwd) := by
        refine List.mem_of_mem_filter (p := fun name => !"__MACOSX".toList.isPrefixOf name) ?_
        rw [single]
        exact List.mem_cons_self
      obtain ⟨plain, down⟩ := host.entries _ _ name listed
      exact .inr ⟨name, plain, down, rfl, folder⟩
    · cases chosen
      exact .inl rfl
  · cases chosen
    exact .inl rfl

end

/-! ## Prepared inputs -/

section
variable (host : WorkerHost) (inputs : PurePath) (tree : Tree)

/-- A download of the artifact gives these bytes, all of them. -/
def WorkerHost.Delivers (artifactId : ArtifactId) (data : Bytes) : Prop :=
  (host.serves artifactId).refused = none ∧ (host.serves artifactId).broken = none ∧
    (host.serves artifactId).data = data

/-- The artifact is an archive all of whose members stay inside. -/
def WorkerHost.Unpacks (artifactId : ArtifactId) (dest : PurePath) : Prop :=
  ∃ data members, host.Delivers artifactId data ∧ host.unzip data = .ok members ∧
    ∀ member ∈ members, Accepted .ok (dest.leads host.cwd) member

/-- The file of the path, where the worker stands. -/
def HoldsFile (path : PurePath) (data : Bytes) : Prop := tree (path.leads host.cwd) = some (.file data)

/-- What a spec says of the pipeline, and what is there. -/
inductive PipelinePlaced (ref : PipelineRef) : Dict → Prop
  | given (kind : ref.kind = .path) : PipelinePlaced ref (pathSpec (.parse (ref.path.getD "").toList))
  | dumped (kind : ref.kind = .inlineJson) {data : Bytes} (dumped : host.safeDump (ref.inline.getD .null) = .ok data)
      (holds : HoldsFile host tree (inputs.child "pipeline.yaml") data) :
      PipelinePlaced ref (pathSpec (inputs.child "pipeline.yaml"))
  | downloaded (kind : ref.kind = .artifact) {data : Bytes} (delivers : host.Delivers (ref.artifactId.getD "") data)
      (holds : HoldsFile host tree (inputs.child "pipeline.yaml") data) :
      PipelinePlaced ref (pathSpec (inputs.child "pipeline.yaml"))
  | bundled (kind : ref.kind = .pythonEntrypoint)
      (unpacks : host.Unpacks (ref.bundleArtifactId.getD "") (inputs.child "bundle")) :
      PipelinePlaced ref (entrypointSpec ref [inputs.child "bundle"])
  | bare (kind : ref.kind = .pythonEntrypoint) (without : truthy ref.bundleArtifactId = false) :
      PipelinePlaced ref (entrypointSpec ref [])

/-- What a spec says of the dataset, and what is there; never a catalog. -/
inductive DatasetPlaced (ref : DatasetRef) : Dict → Prop
  | given (kind : ref.kind = .sharedPath ∨ ref.kind = .workerLocal) {path : PurePath}
      (named : path = .parse (ref.path.getD "").toList) (found : (tree.find host.cwd path).isSome = true) :
      DatasetPlaced ref (pathSpec path)
  | unpacked (kind : ref.kind = .artifact)
      (unpacks : host.Unpacks (ref.artifactId.getD "") (inputs.child "dataset")) {root : PurePath}
      (chosen : root = inputs.child "dataset" ∨ ∃ name, Plain name ∧ name ≠ parent ∧
        root = (inputs.child "dataset").slash (.parse name) ∧
        tree ((inputs.child "dataset").leads host.cwd ++ [name]) = some .directory) :
      DatasetPlaced ref (pathSpec root)

/-- The digest is that of the file the spec names, of an inline document, or of the entry point. -/
structure Fingerprinted (ref : PipelineRef) (spec : Dict) (fingerprint : String) : Prop where
  file : ref.kind ≠ .inlineJson → ∀ path, spec = pathSpec path →
    ∃ data, HoldsFile host tree path data ∧ fingerprint = "sha256:" ++ host.sha256 data
  document : ref.kind = .inlineJson → ∃ text,
    ((ref.inline.map Json.python).getD .null).canonical host.floats = .ok text ∧
      fingerprint = "sha256:" ++ host.sha256 (String.ofList text).toUTF8.toList
  entrypoint : ∀ sysPath, ref.kind = .pythonEntrypoint → spec = entrypointSpec ref sysPath → ∃ text,
    (PyDoc.obj [(.str "entrypoint", (ref.entrypoint.map PyDoc.str).getD .null)]).canonical host.floats = .ok text ∧
      fingerprint = "sha256:" ++ host.sha256 (String.ofList text).toUTF8.toList

end

section
variable {host : WorkerHost} {inputs : PurePath} {tree after : Tree} {spec : Dict}

theorem leads_input {name : String} (plain : Plain name.toList) (down : name.toList ≠ parent) :
    (inputs.child name).leads host.cwd = inputs.leads host.cwd ++ [name.toList] := PurePath.leads_child plain down

theorem PipelinePlaced.later {ref : PipelineRef} (placed : PipelinePlaced host inputs tree ref spec)
    (spares : Spares ((inputs.child "pipeline.yaml").leads host.cwd) tree after) :
    PipelinePlaced host inputs after ref spec := by
  cases placed with
  | given kind => exact .given kind
  | dumped kind dumped holds => exact .dumped kind dumped (spares _ holds)
  | downloaded kind delivers holds => exact .downloaded kind delivers (spares _ holds)
  | bundled kind unpacks => exact .bundled kind unpacks
  | bare kind without => exact .bare kind without

/-- An archive that was downloaded and extracted. -/
theorem unpacked {name dest : String} {artifactId : ArtifactId} {between : Tree} {done extracted : Unit}
    (plain : Plain name.toList) (down : name.toList ≠ parent)
    (fetched : download host inputs name artifactId tree = (.ok done, between))
    (ran : extractArchive host (inputs.child name) (inputs.child dest) between = (.ok extracted, after)) :
    host.Unpacks artifactId (inputs.child dest) := by
  obtain ⟨opened, whole, held⟩ := download_returns fetched
  rw [← leads_input plain down] at held
  obtain ⟨members, unzipped, accepted⟩ := extractArchive_returns held ran
  exact ⟨_, members, ⟨opened, whole, rfl⟩, unzipped, accepted⟩

theorem givenPath_returns {kind : String} {path : Option String} (ran : givenPath host kind path tree = (.ok spec, after)) :
    tree = after ∧ spec = pathSpec (.parse (path.getD "").toList) ∧
      (tree.find host.cwd (.parse (path.getD "").toList)).isSome = true := by
  obtain ⟨found, _, asked, ran⟩ := Act.bind_returns ran
  obtain ⟨here, rfl⟩ := Act.ask_returns asked
  cases here
  split at ran
  · rename_i found
    obtain ⟨rfl, rfl⟩ := Act.pure_returns ran
    exact ⟨rfl, rfl, found⟩
  · cases ran

theorem materializePipeline_returns {ref : PipelineRef} (ran : materializePipeline host inputs ref tree = (.ok spec, after)) :
    PipelinePlaced host inputs after ref spec := by
  cases kind : ref.kind with
  | path =>
    rw [materializePipeline, kind] at ran
    obtain ⟨_, rfl, _⟩ := givenPath_returns ran
    exact .given kind
  | inlineJson =>
    rw [materializePipeline, kind] at ran
    obtain ⟨data, _, encoded, ran⟩ := Act.bind_returns ran
    obtain ⟨dumped, rfl⟩ := Act.ofExcept_returns encoded
    obtain ⟨_, _, written, ran⟩ := Act.bind_returns ran
    obtain ⟨rfl, rfl⟩ := Act.pure_returns ran
    refine .dumped kind dumped ?_
    rw [HoldsFile, leads_input (by decide) (by decide)]
    exact writeBytes_returns written
  | artifact =>
    rw [materializePipeline, kind] at ran
    obtain ⟨_, _, fetched, ran⟩ := Act.bind_returns ran
    obtain ⟨rfl, rfl⟩ := Act.pure_returns ran
    obtain ⟨opened, whole, held⟩ := download_returns fetched
    refine .downloaded kind ⟨opened, whole, rfl⟩ ?_
    rwa [HoldsFile, leads_input (by decide) (by decide)]
  | pythonEntrypoint =>
    rw [materializePipeline, kind] at ran
    dsimp only at ran
    split at ran
    · obtain ⟨_, _, fetched, ran⟩ := Act.bind_returns ran
      obtain ⟨_, _, extracted, ran⟩ := Act.bind_returns ran
      obtain ⟨rfl, rfl⟩ := Act.pure_returns ran
      exact .bundled kind (unpacked (by decide) (by decide) fetched extracted)
    · rename_i without
      obtain ⟨rfl, rfl⟩ := Act.pure_returns ran
      exact .bare kind (Bool.eq_false_iff.mpr without)

theorem materializeDataset_returns {ref : DatasetRef} (ran : materializeDataset host inputs ref tree = (.ok spec, after)) :
    DatasetPlaced host inputs after ref spec := by
  cases kind : ref.kind with
  | sharedPath =>
    rw [materializeDataset, kind] at ran
    obtain ⟨rfl, rfl, found⟩ := givenPath_returns ran
    exact .given (.inl kind) rfl found
  | workerLocal =>
    rw [materializeDataset, kind] at ran
    obtain ⟨rfl, rfl, found⟩ := givenPath_returns ran
    exact .given (.inr kind) rfl found
  | artifact =>
    rw [materializeDataset, kind] at ran
    obtain ⟨_, _, fetched, ran⟩ := Act.bind_returns ran
    obtain ⟨_, _, extracted, ran⟩ := Act.bind_returns ran
    obtain ⟨root, _, asked, ran⟩ := Act.bind_returns ran
    obtain ⟨rfl, rfl⟩ := Act.pure_returns ran
    obtain ⟨rfl, chosen⟩ := datasetRoot_returns asked
    exact .unpacked kind (unpacked (by decide) (by decide) fetched extracted) chosen
  | catalog =>
    rw [materializeDataset, kind] at ran
    cases ran

theorem pathSpec_reads (path : PurePath) :
    (pathSpec path).lookup "path" = some (.str path.str) ∧ PurePath.parse path.str.toList = path :=
  ⟨rfl, path.parse_str⟩

theorem mapError_ok {fingerprint : Except PyErr String} {value : String}
    (mapped : fingerprint.mapError PyErr.exn = .ok value) : fingerprint = .ok value := by
  cases fingerprint with
  | error error => cases mapped
  | ok held =>
    have same : held = value := Except.ok.inj mapped
    rw [same]

/-- A file is only read. -/
theorem pathFingerprint_same {ref : PipelineRef} :
    (pathFingerprint host ref spec).Leaves fun before after => before = after := by
  unfold pathFingerprint
  split
  · split
    · exact .pure (fun _ => rfl) _
    · exact .bind (fun one two => one.trans two) (.ask (fun _ => rfl) _) fun _ => .pure (fun _ => rfl) _
  · exact .pure (fun _ => rfl) _

theorem specFingerprint_returns {ref : PipelineRef} {fingerprint : String}
    (ran : specFingerprint host ref spec tree = (.ok fingerprint, after)) :
    tree = after ∧ ∃ file, pipelineFingerprint host.floats (fun text => host.sha256 (String.ofList text).toUTF8.toList)
      (fun _ => .ok file) ref spec = .ok fingerprint ∧
      ∀ path, ref.kind ≠ .inlineJson → spec = pathSpec path →
        ∃ data, HoldsFile host tree path data ∧ file = "sha256:" ++ host.sha256 data := by
  obtain ⟨file, between, read, ran⟩ := Act.bind_returns ran
  obtain ⟨hashed, rfl⟩ := Act.ofExcept_returns ran
  have same : tree = between := pathFingerprint_same.ran read
  refine ⟨same, file, mapError_ok hashed, fun path kind named => ?_⟩
  obtain ⟨stated, parsed⟩ := pathSpec_reads path
  rw [pathFingerprint, named, stated] at read
  dsimp only at read
  rw [if_neg kind] at read
  obtain ⟨data, _, held, wrapped⟩ := Act.bind_returns read
  obtain ⟨_, found⟩ := readBytes_returns held
  rw [parsed] at found
  exact ⟨data, found, (Act.pure_returns wrapped).1.symm⟩

theorem fingerprinted {ref : PipelineRef} {fingerprint : String}
    (ran : specFingerprint host ref spec tree = (.ok fingerprint, after)) :
    tree = after ∧ Fingerprinted host after ref spec fingerprint := by
  obtain ⟨rfl, file, hashed, read⟩ := specFingerprint_returns ran
  refine ⟨rfl, fun kind path named => ?_, fun kind => ?_, fun sysPath kind named => ?_⟩
  · obtain ⟨data, held, rfl⟩ := read path kind named
    refine ⟨data, held, ?_⟩
    rw [pipelineFingerprint, if_neg kind, named] at hashed
    exact (Except.ok.inj hashed).symm
  · rw [pipelineFingerprint, if_pos kind] at hashed
    obtain ⟨text, canonical, same⟩ := (fingerprint_ok _).mp hashed
    exact ⟨text, canonical, same.symm⟩
  · have other : ref.kind ≠ .inlineJson := by
      rw [kind]
      decide
    rw [pipelineFingerprint, if_neg other, named] at hashed
    have hashed := (if_pos kind).symm.trans hashed
    obtain ⟨text, canonical, same⟩ := (fingerprint_ok _).mp hashed
    exact ⟨text, canonical, same.symm⟩

theorem givenPath_leaves {R : Tree → Tree → Prop} (refl : ∀ tree, R tree tree)
    (trans : ∀ {first second third}, R first second → R second third → R first third) {kind : String}
    {path : Option String} : (givenPath host kind path).Leaves R := by
  refine .bind trans (.ask refl _) fun found => ?_
  split
  · exact .pure refl _
  · exact .raise refl _

theorem below_input {name : String} (plain : Plain name.toList) (down : name.toList ≠ parent) :
    inputs.leads host.cwd <+: (inputs.child name).leads host.cwd := by
  rw [leads_input plain down]
  exact List.prefix_append _ _

theorem materializePipeline_beneath {ref : PipelineRef} :
    (materializePipeline host inputs ref).Leaves (Beneath (inputs.leads host.cwd)) := by
  unfold materializePipeline
  split
  · exact givenPath_leaves .refl .trans
  · exact .bind .trans (.ofExcept .refl _) fun _ => .bind .trans writeBytes_beneath fun _ => .pure .refl _
  · exact .bind .trans download_beneath fun _ => .pure .refl _
  · split
    · refine .bind .trans download_beneath fun _ => .bind .trans ?_ fun _ => .pure .refl _
      exact extractArchive_beneath (below_input (by decide) (by decide))
    · exact .pure .refl _

theorem materializeDataset_beneath {ref : DatasetRef} :
    (materializeDataset host inputs ref).Leaves (Beneath (inputs.leads host.cwd)) := by
  unfold materializeDataset
  split
  · exact givenPath_leaves .refl .trans
  · exact givenPath_leaves .refl .trans
  · refine .bind .trans download_beneath fun _ => .bind .trans ?_ fun _ => .bind .trans (.ask .refl _) fun _ => .pure .refl _
    exact extractArchive_beneath (below_input (by decide) (by decide))
  · exact .raise .refl _

/-- The dataset is placed beside the pipeline. -/
theorem materializeDataset_spares {ref : DatasetRef} :
    (materializeDataset host inputs ref).Leaves (Spares ((inputs.child "pipeline.yaml").leads host.cwd)) := by
  have file : (inputs.child "pipeline.yaml").leads host.cwd = inputs.leads host.cwd ++ ["pipeline.yaml".toList] :=
    leads_input (by decide) (by decide)
  have apart : (inputs.child "pipeline.yaml").leads host.cwd ≠ inputs.leads host.cwd ++ ["dataset.zip".toList] := by
    rw [file]
    exact fun same => absurd (List.append_cancel_left same) (by decide)
  have outside : ¬Inside ((inputs.child "dataset").leads host.cwd) ((inputs.child "pipeline.yaml").leads host.cwd) := by
    rw [file, leads_input (by decide) (by decide)]
    rintro ⟨rest, held, same⟩
    rw [List.append_assoc] at same
    exact absurd (List.append_cancel_left same) (by simp [held])
  unfold materializeDataset
  split
  · exact givenPath_leaves .refl .trans
  · exact givenPath_leaves .refl .trans
  · refine .bind .trans (download_spares apart) fun _ => .bind .trans (extractArchive_spares outside) fun _ => ?_
    exact .bind .trans (.ask .refl _) fun _ => .pure .refl _
  · exact .raise .refl _

theorem specFingerprint_same {ref : PipelineRef} : (specFingerprint host ref spec).Leaves fun before after => before = after :=
  .bind (fun one two => one.trans two) pathFingerprint_same fun _ => .ofExcept (fun _ => rfl) _

end

/-- What the worker has when its inputs are prepared. -/
def InputsReady (host : WorkerHost) (task : TaskPayload) (inputs : PurePath) (tree : Tree) (spec : Dict) : Prop :=
  ∃ pipeline dataset fingerprint, spec = buildRunnerSpec task (.obj pipeline) (.obj dataset) fingerprint ∧
    PipelinePlaced host inputs tree task.pipeline pipeline ∧ DatasetPlaced host inputs tree task.dataset dataset ∧
    Fingerprinted host tree task.pipeline pipeline fingerprint

theorem materialize_ready {task : TaskPayload} {workdir : PurePath}
    (ran : materialize host task workdir tree = (.ok spec, after)) :
    InputsReady host task (workdir.child "inputs") after spec := by
  obtain ⟨_, _, _, ran⟩ := Act.bind_returns ran
  obtain ⟨pipeline, first, placed, ran⟩ := Act.bind_returns ran
  obtain ⟨dataset, second, beside, ran⟩ := Act.bind_returns ran
  obtain ⟨fingerprint, third, hashed, ran⟩ := Act.bind_returns ran
  obtain ⟨rfl, rfl⟩ := Act.pure_returns ran
  obtain ⟨rfl, digest⟩ := fingerprinted hashed
  refine ⟨pipeline, dataset, fingerprint, rfl, ?_, materializeDataset_returns beside, digest⟩
  exact (materializePipeline_returns placed).later (materializeDataset_spares.ran beside)

/-- Whatever is referenced, served and found on a file system without symbolic links, and whichever
step fails: no file outside the inputs is touched; and if the spec is built, it names the pipeline
and the dataset that were referenced, as they were served, with the fingerprint of that very
pipeline. -/
theorem inputs_prepared (host : WorkerHost) (task : TaskPayload) (workdir : PurePath) (tree : Tree) :
    Beneath ((workdir.child "inputs").leads host.cwd) tree (materialize host task workdir tree).2 ∧
      ∀ spec, (materialize host task workdir tree).1 = .ok spec →
        InputsReady host task (workdir.child "inputs") (materialize host task workdir tree).2 spec := by
  constructor
  · have still {ref : PipelineRef} {spec : Dict} :
        (specFingerprint host ref spec).Leaves (Beneath ((workdir.child "inputs").leads host.cwd)) :=
      specFingerprint_same.mono fun before after same => same ▸ .refl before
    have leaves : (materialize host task workdir).Leaves (Beneath ((workdir.child "inputs").leads host.cwd)) :=
      .bind .trans mkdir_beneath fun _ => .bind .trans materializePipeline_beneath fun _ =>
        .bind .trans materializeDataset_beneath fun _ => .bind .trans still fun _ => .pure .refl _
    exact leaves tree
  · intro spec returned
    exact materialize_ready (Prod.ext returned rfl)

/-- A task whose pipeline and dataset are artifacts. -/
def uploadedTask : TaskPayload where
  taskId := "task_1"
  jobId := "job_1"
  type := "nirs4all.run"
  attempt := 1
  pipeline := { kind := .artifact, artifactId := some "art_1" }
  dataset := { kind := .artifact, artifactId := some "art_2" }
  params := []
  outputs := {}
  scheduler := none
  submission := none
  assignment := none
  nativePayload := none
  leaseExpiresAt := 9

/-- Every finite float is written as a zero. -/
def zeroText : FloatText := ⟨fun _ => ['0'], fun _ => rfl⟩

/-- A worker that is served both; the dataset's archive holds one folder. -/
def servedWorker : WorkerHost where
  cwd := ["home".toList]
  serves artifactId := { data := if artifactId = "art_1" then [1] else [2] }
  unzip _ := .ok [{ filename := "nir/X.csv", data := [3] }]
  safeDump _ := .ok []
  iterdir tree place := ["nir".toList].filter fun name => (tree (place ++ [name])).isSome
  entries := by
    intro tree place name member
    rw [List.mem_singleton.mp (List.mem_filter.mp member).1]
    decide
  emptyRefused := false
  floats := zeroText
  sha256 _ := "digest"

def homeTree : Tree := fun place => if place = ["home".toList] then some .directory else none

/-- The work directory of a task. -/
def taskDir (stateDir : String) (taskId : TaskId) : PurePath :=
  ((PurePath.parse stateDir.toList).child "tasks").child taskId

theorem inputs_prepared_served : ∃ spec after,
    materialize servedWorker uploadedTask (taskDir "./worker-state" "task_1") homeTree = (.ok spec, after) ∧
      InputsReady servedWorker uploadedTask ((taskDir "./worker-state" "task_1").child "inputs") after spec := by
  have prepared : (materialize servedWorker uploadedTask (taskDir "./worker-state" "task_1") homeTree).1.isOk = true := by
    decide +kernel
  cases ran : materialize servedWorker uploadedTask (taskDir "./worker-state" "task_1") homeTree with
  | mk ended after =>
    rw [ran] at prepared
    cases ended with
    | error exn => cases prepared
    | ok spec =>
      have ready := (inputs_prepared servedWorker uploadedTask (taskDir "./worker-state" "task_1") homeTree).2 spec
      rw [ran] at ready
      exact ⟨spec, after, rfl, ready rfl⟩

/-! ## Where the runner stands -/

/-- The paths in the command of `execute_task`. -/
def commandPaths (workdir : PurePath) : List PurePath :=
  ["task.json", "workspace", "outputs", "result.json"].map workdir.child

def Json.texts : Json → List String
  | .str text => [text]
  | .arr items => items.filterMap fun
    | .str text => some text
    | _ => none
  | _ => []

/-- The paths that a part of a spec names. -/
def partPaths (spec : Dict) (part : String) : List String :=
  match spec.lookup part with
  | some (.obj fields) => (fields.lookup "path").elim [] Json.texts ++ (fields.lookup "sys_path").elim [] Json.texts
  | _ => []

/-- The paths the runner is given, by its command and by its spec; one that the task itself names is
repeated as it is and none of them. -/
def runnerPaths (task : TaskPayload) (workdir : PurePath) (spec : Dict) : List String :=
  (commandPaths workdir).map PurePath.str ++
    ((if task.pipeline.kind = .path then [] else partPaths spec "pipeline") ++
      if task.dataset.kind = .artifact then partPaths spec "dataset" else [])

section
variable {host : WorkerHost} {inputs workdir : PurePath} {tree after : Tree} {spec : Dict} {text : String}

/-- The text is a path below the directory. -/
def Inward (dir : PurePath) (text : String) : Prop := dir.Below (.parse text.toList)

theorem inward_str {dir path : PurePath} (below : dir.Below path) : Inward dir path.str := by
  unfold Inward
  rw [path.parse_str]
  exact below

theorem PipelinePlaced.inward {ref : PipelineRef} (placed : PipelinePlaced host (workdir.child "inputs") tree ref spec)
    (stored : ref.kind ≠ .path) (doc : Dict) (here : doc.lookup "pipeline" = some (.obj spec))
    (member : text ∈ partPaths doc "pipeline") : Inward workdir text := by
  have below {name : String} (plain : Plain name.toList) (down : name.toList ≠ parent) :
      workdir.Below ((workdir.child "inputs").child name) :=
    ((PurePath.Below.refl workdir).child (by decide) (by decide)).child plain down
  unfold partPaths at member
  rw [here] at member
  cases placed with
  | given kind => exact absurd kind stored
  | dumped | downloaded =>
    rw [List.mem_singleton.mp member]
    exact inward_str (below (by decide) (by decide))
  | bundled =>
    rw [List.mem_singleton.mp member]
    exact inward_str (below (by decide) (by decide))
  | bare => exact absurd member List.not_mem_nil

theorem DatasetPlaced.inward {ref : DatasetRef} (placed : DatasetPlaced host (workdir.child "inputs") tree ref spec)
    (stored : ref.kind = .artifact) (doc : Dict) (here : doc.lookup "dataset" = some (.obj spec))
    (member : text ∈ partPaths doc "dataset") : Inward workdir text := by
  have below : workdir.Below ((workdir.child "inputs").child "dataset") :=
    ((PurePath.Below.refl workdir).child (by decide) (by decide)).child (by decide) (by decide)
  unfold partPaths at member
  rw [here] at member
  cases placed with
  | given kind =>
    rw [stored] at kind
    rcases kind with kind | kind <;> cases kind
  | unpacked kind unpacks chosen =>
    rw [List.mem_singleton.mp member]
    refine inward_str ?_
    rcases chosen with rfl | ⟨name, plain, down, rfl, _⟩
    · exact below
    · have same : ((workdir.child "inputs").child "dataset").child (String.ofList name) =
          ((workdir.child "inputs").child "dataset").slash (.parse name) := by
        rw [PurePath.child, String.toList_ofList]
      rw [← String.toList_ofList (l := name)] at plain down
      exact same ▸ below.child plain down

/-- All that the worker has placed for the runner is below the work directory. -/
theorem runnerPaths_inward {task : TaskPayload} (built : materialize host task workdir tree = (.ok spec, after))
    (member : text ∈ runnerPaths task workdir spec) : Inward workdir text := by
  obtain ⟨pipeline, dataset, fingerprint, rfl, placed, beside, _⟩ := materialize_ready built
  rcases List.mem_append.mp member with command | named
  · obtain ⟨path, listed, rfl⟩ := List.mem_map.mp command
    obtain ⟨name, known, rfl⟩ := List.mem_map.mp listed
    have plain : ∀ name ∈ ["task.json", "workspace", "outputs", "result.json"],
        Plain name.toList ∧ name.toList ≠ parent := by decide
    exact inward_str ((PurePath.Below.refl workdir).child (plain name known).1 (plain name known).2)
  · rcases List.mem_append.mp named with named | named
    · split at named
      · cases named
      · rename_i stored
        exact placed.inward stored _ rfl named
    · split at named
      · rename_i stored
        exact beside.inward stored _ rfl named
      · cases named

end

/-- The runner is started in the work directory and reads its paths from there: each is the one the
worker prepared exactly if the state directory was given by an absolute path. -/
theorem runner_paths_found (host : WorkerHost) (task : TaskPayload) (tree : Tree) {stateDir : String}
    (descends : parent ∉ components stateDir.toList) (plain : Plain task.taskId.toList)
    (down : task.taskId.toList ≠ parent) {spec : Dict} {after : Tree}
    (built : materialize host task (taskDir stateDir task.taskId) tree = (.ok spec, after)) :
    ∀ text ∈ runnerPaths task (taskDir stateDir task.taskId) spec,
      (PurePath.parse text.toList).leads ((taskDir stateDir task.taskId).leads host.cwd) =
        (PurePath.parse text.toList).leads host.cwd ↔ absolute stateDir.toList = true := by
  intro text member
  obtain ⟨rooted, names⟩ := PurePath.child_eq (p := (PurePath.parse stateDir.toList).child "tasks") plain
  obtain ⟨rooted', names'⟩ := PurePath.child_eq (p := PurePath.parse stateDir.toList) (by decide : Plain "tasks".toList)
  have written : (taskDir stateDir task.taskId).names =
      components stateDir.toList ++ ["tasks".toList] ++ [task.taskId.toList] :=
    names.trans (congrArg (· ++ [task.taskId.toList]) names')
  have climbs : parent ∉ (taskDir stateDir task.taskId).names := by
    rw [written]
    simp only [List.mem_append, List.mem_singleton, not_or]
    exact ⟨⟨descends, by decide⟩, Ne.symm down⟩
  rw [(runnerPaths_inward built member).leads_iff, PurePath.leads_again climbs (by simp [written])]
  exact Bool.eq_iff_iff.mp (rooted.trans rooted')

/-- With the default state directory the runner looks for none of them where it is. -/
theorem runner_paths_found_default : ∃ spec after,
    materialize servedWorker uploadedTask (taskDir "./worker-state" "task_1") homeTree = (.ok spec, after) ∧
      "worker-state/tasks/task_1/inputs/dataset/nir" ∈
        runnerPaths uploadedTask (taskDir "./worker-state" "task_1") spec ∧
      ∀ text ∈ runnerPaths uploadedTask (taskDir "./worker-state" "task_1") spec,
        (PurePath.parse text.toList).leads ((taskDir "./worker-state" "task_1").leads ["home".toList]) ≠
          (PurePath.parse text.toList).leads ["home".toList] := by
  have prepared : (materialize servedWorker uploadedTask (taskDir "./worker-state" "task_1") homeTree).1.toOption.any
      (fun spec => decide ("worker-state/tasks/task_1/inputs/dataset/nir" ∈
        runnerPaths uploadedTask (taskDir "./worker-state" "task_1") spec)) = true := by decide +kernel
  cases ran : materialize servedWorker uploadedTask (taskDir "./worker-state" "task_1") homeTree with
  | mk ended after =>
    rw [ran] at prepared
    cases ended with
    | error exn => cases prepared
    | ok spec =>
      refine ⟨spec, after, rfl, of_decide_eq_true prepared, fun text member found => ?_⟩
      have absolute := (runner_paths_found servedWorker uploadedTask homeTree (by decide) (by decide) (by decide)
        ran text member).mp found
      exact absurd absolute (by decide)

end N4Cluster
