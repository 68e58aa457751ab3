import N4Cluster.Base.Paths
import N4Cluster.Server.Settlement

/-! `download_all_artifacts`: where the files of a job's listing are written, for
whatever roles and file names workers chose. -/
namespace N4Cluster
open Relational Transactional Interleave Paths

/-- One entry of `GET /v1/jobs/{job_id}/artifacts`, with the fields the client reads. -/
structure ListedArtifact where
  id : ArtifactId
  role : String
  taskId : Option TaskId
  filename : Option String

/-- `get_job_artifacts`. -/
def jobListing (rows : List LinkedArtifact) : List ListedArtifact :=
  rows.map fun row =>
    { id := row.artifact.id, role := row.role,
      taskId := if row.taskId = "" then none else some row.taskId,
      filename := row.artifact.filename }

namespace ListedArtifact

/-- The last name of what the server calls the file, or one made from the id. -/
def fileName (art : ListedArtifact) : List Char :=
  let fallback := (art.id ++ ".bin").toList
  let raw := if truthy art.filename then (art.filename.getD "").toList else fallback
  if name raw = [] then fallback else name raw

def task (art : ListedArtifact) : String :=
  if truthy art.taskId then art.taskId.getD "" else "job"

/-- What follows the role in the name of the file. -/
def suffix (art : ListedArtifact) : List Char :=
  '_' :: art.task.toList ++ '_' :: art.fileName

/-- `f"{art['role']}_{art.get('task_id') or 'job'}_{name}"`. -/
def target (art : ListedArtifact) : List Char := art.role.toList ++ art.suffix

/-- The ids a server issues are a prefix and hexadecimal digits. -/
structure Issued (art : ListedArtifact) : Prop where
  id : '/' ∉ art.id.toList
  task : ∀ taskId, art.taskId = some taskId → '/' ∉ taskId.toList

end ListedArtifact

/-- What becomes of one download: it ends before the file is opened, or while it is written,
or it succeeds. -/
inductive Fetched where
  | refused | broken | done
deriving DecidableEq

/-- Answers of the server and of the file system to a download. -/
abbrev Fetch := ArtifactId → Place → Fetched

/-- `download_artifact`; no path with a null character can be opened. -/
def downloadArtifact (fetch : Fetch) (outDir : Place) (art : ListedArtifact) : Fetched :=
  if '\x00' ∈ art.target then .refused else fetch art.id (join outDir art.target)

/-- The loop of `download_all_artifacts`: the files it opens for writing, each with the id
of its artifact, until a download raises. -/
def downloadFrom (fetch : Fetch) (outDir : Place) (seen : List ArtifactId) :
    List ListedArtifact → List (ArtifactId × Place)
  | [] => []
  | art :: rest =>
    if art.id ∈ seen then downloadFrom fetch outDir seen rest
    else
      match downloadArtifact fetch outDir art with
      | .refused => []
      | .broken => [(art.id, join outDir art.target)]
      | .done =>
        (art.id, join outDir art.target) :: downloadFrom fetch outDir (art.id :: seen) rest

def downloadAllArtifacts (fetch : Fetch) (outDir : Place) (listing : List ListedArtifact) :
    List (ArtifactId × Place) :=
  downloadFrom fetch outDir [] listing

/-- Whatever happens to the downloads, every file written lies inside the output directory,
and artifacts with different ids are written to different paths. -/
def SafeDownloads (outDir : Place) (listing : List ListedArtifact) : Prop :=
  ∀ fetch, (∀ file ∈ downloadAllArtifacts fetch outDir listing, Inside outDir file.2) ∧
    (downloadAllArtifacts fetch outDir listing).Pairwise fun a b => a.1 ≠ b.1 → a.2 ≠ b.2

/-! ## The condition -/

/-- The first entry of each id, up to one whose name holds a null character. -/
def attempted (seen : List ArtifactId) : List ListedArtifact → List ListedArtifact
  | [] => []
  | art :: rest =>
    if art.id ∈ seen then attempted seen rest
    else if '\x00' ∈ art.target then []
    else art :: attempted (art.id :: seen) rest

/-- The role of one ends in text that the suffix of the other begins with, and the rest of
the two names agrees. -/
def ListedArtifact.Overlaps (a b : ListedArtifact) : Prop :=
  ∃ shared, tail b.role.toList = tail a.role.toList ++ shared ∧ a.suffix = shared ++ b.suffix

/-- The roles of both name one folder, and their names run together to one text. -/
def ListedArtifact.Coincides (outDir : Place) (a b : ListedArtifact) : Prop :=
  walk (start outDir a.role.toList) (folder a.role.toList) =
      walk (start outDir b.role.toList) (folder b.role.toList) ∧
    (a.Overlaps b ∨ b.Overlaps a)

/-- Every role returns to the output directory, and no two names run together. -/
def Separate (outDir : Place) (listing : List ListedArtifact) : Prop :=
  (∀ art ∈ attempted [] listing, Returns outDir art.role.toList) ∧
    (attempted [] listing).Pairwise fun a b => ¬a.Coincides outDir b

/-! ## Where one artifact goes -/

namespace ListedArtifact
variable {art a b : ListedArtifact} {outDir : Place}

theorem fileName_plain (issued : art.Issued) : '/' ∉ art.fileName := by
  have fallback : '/' ∉ (art.id ++ ".bin").toList := by
    rw [String.toList_append, List.mem_append]
    rintro (inside | inside)
    · exact issued.id inside
    · revert inside
      decide
  unfold fileName
  dsimp only
  generalize (if truthy art.filename then _ else _) = raw
  split
  · exact fallback
  · exact name_plain raw

theorem task_plain (issued : art.Issued) : '/' ∉ art.task.toList := by
  unfold task
  split
  · cases given : art.taskId with
    | none => decide
    | some taskId => exact issued.task taskId given
  · decide

theorem suffix_plain (issued : art.Issued) : '/' ∉ art.suffix := by
  simp [suffix, task_plain issued, fileName_plain issued]

/-- The last component of a target has an underscore in it. -/
theorem tail_ordinary {special : Name} (without : '_' ∉ special) :
    tail art.role.toList ++ art.suffix ≠ special := by
  rintro rfl
  exact without (List.mem_append_right _ List.mem_cons_self)

theorem join_target (issued : art.Issued) (outDir : Place) :
    join outDir art.target =
      walk (start outDir art.role.toList) (folder art.role.toList) ++
        [tail art.role.toList ++ art.suffix] :=
  join_append outDir art.role.toList (suffix_plain issued) (List.cons_ne_nil _ _)
    (tail_ordinary (by decide)) (tail_ordinary (by decide))

theorem inside_iff (issued : art.Issued) :
    Inside outDir (join outDir art.target) ↔ Returns outDir art.role.toList := by
  rw [join_target issued, inside_snoc, prefix_folder_iff]

theorem same_iff (one : a.Issued) (two : b.Issued) :
    join outDir a.target = join outDir b.target ↔ a.Coincides outDir b := by
  rw [join_target one, join_target two]
  unfold Coincides Overlaps
  constructor
  · intro same
    obtain ⟨folders, names⟩ := List.append_inj' same rfl
    exact ⟨folders, List.append_eq_append_iff.mp (List.cons.inj names).1⟩
  · intro ⟨folders, overlap⟩
    rw [folders, List.append_eq_append_iff.mpr overlap]

end ListedArtifact

/-! ## What a run writes -/

/-- The file of an artifact. -/
def written (outDir : Place) (art : ListedArtifact) : ArtifactId × Place :=
  (art.id, join outDir art.target)

theorem downloadFrom_prefix (fetch : Fetch) (outDir : Place) (seen : List ArtifactId)
    (listing : List ListedArtifact) :
    downloadFrom fetch outDir seen listing <+: (attempted seen listing).map (written outDir) := by
  induction listing generalizing seen with
  | nil => exact List.prefix_rfl
  | cons art rest ih =>
    unfold downloadFrom attempted downloadArtifact
    by_cases again : art.id ∈ seen
    · rw [if_pos again, if_pos again]
      exact ih seen
    · rw [if_neg again, if_neg again]
      by_cases null : '\x00' ∈ art.target
      · rw [if_pos null, if_pos null]
        exact List.nil_prefix
      · rw [if_neg null, if_neg null, List.map_cons]
        cases fetch art.id (join outDir art.target) with
        | refused => exact List.nil_prefix
        | broken => exact List.cons_prefix_cons.mpr ⟨rfl, List.nil_prefix⟩
        | done => exact List.cons_prefix_cons.mpr ⟨rfl, ih _⟩

theorem downloadFrom_done (outDir : Place) (seen : List ArtifactId) (listing : List ListedArtifact) :
    downloadFrom (fun _ _ => .done) outDir seen listing =
      (attempted seen listing).map (written outDir) := by
  induction listing generalizing seen with
  | nil => rfl
  | cons art rest ih =>
    unfold downloadFrom attempted downloadArtifact
    by_cases again : art.id ∈ seen
    · rw [if_pos again, if_pos again]
      exact ih seen
    · rw [if_neg again, if_neg again]
      by_cases null : '\x00' ∈ art.target
      · rw [if_pos null, if_pos null]
        rfl
      · rw [if_neg null, if_neg null, List.map_cons, ih]
        rfl

theorem mem_attempted {seen : List ArtifactId} {listing : List ListedArtifact} {art : ListedArtifact}
    (member : art ∈ attempted seen listing) : art ∈ listing ∧ art.id ∉ seen := by
  induction listing generalizing seen with
  | nil => cases member
  | cons first rest ih =>
    unfold attempted at member
    split at member
    · obtain ⟨inside, fresh⟩ := ih member
      exact ⟨List.mem_cons_of_mem _ inside, fresh⟩
    · split at member
      · cases member
      · rename_i fresh _
        rcases List.mem_cons.mp member with rfl | later
        · exact ⟨List.mem_cons_self, fresh⟩
        · obtain ⟨inside, fresh⟩ := ih later
          exact ⟨List.mem_cons_of_mem _ inside, fun known => fresh (List.mem_cons_of_mem _ known)⟩

/-- Each id is attempted once. -/
theorem attempted_apart (seen : List ArtifactId) (listing : List ListedArtifact) :
    (attempted seen listing).Pairwise fun a b => a.id ≠ b.id := by
  induction listing generalizing seen with
  | nil => exact .nil
  | cons first rest ih =>
    unfold attempted
    split
    · exact ih seen
    · split
      · exact .nil
      · apply List.pairwise_cons.mpr
        refine ⟨?_, ih _⟩
        intro b member same
        exact (mem_attempted member).2 (same ▸ List.mem_cons_self)

/-- The downloads are safe exactly when every role returns to the output directory and no
two names run together. -/
theorem downloads_safe (outDir : Place) (listing : List ListedArtifact)
    (issued : ∀ art ∈ listing, art.Issued) :
    SafeDownloads outDir listing ↔ Separate outDir listing := by
  have known : ∀ art ∈ attempted [] listing, art.Issued :=
    fun art member => issued art (mem_attempted member).1
  have inside : (∀ file ∈ (attempted [] listing).map (written outDir), Inside outDir file.2) ↔
      ∀ art ∈ attempted [] listing, Returns outDir art.role.toList := by
    rw [List.forall_mem_map]
    exact forall₂_congr fun art member => ListedArtifact.inside_iff (known art member)
  have apart : ((attempted [] listing).map (written outDir)).Pairwise
      (fun a b => a.1 ≠ b.1 → a.2 ≠ b.2) ↔
        (attempted [] listing).Pairwise fun a b => ¬a.Coincides outDir b := by
    rw [List.pairwise_map]
    constructor
    · intro pairwise
      apply ((attempted_apart [] listing).and pairwise).imp_of_mem
      intro a b here there ⟨ids, paths⟩ same
      exact paths ids ((ListedArtifact.same_iff (known a here) (known b there)).mpr same)
    · intro pairwise
      apply pairwise.imp_of_mem
      intro a b here there separate _ same
      exact separate ((ListedArtifact.same_iff (known a here) (known b there)).mp same)
  unfold Separate
  rw [← inside, ← apart, ← downloadFrom_done]
  constructor
  · intro safe
    exact safe fun _ _ => .done
  · intro ⟨all, pairwise⟩ fetch
    rw [downloadFrom_done] at all pairwise
    have front := downloadFrom_prefix fetch outDir [] listing
    exact ⟨fun file member => all file (front.subset member), pairwise.sublist front.sublist⟩

/-- Two roles of one task, neither the beginning of the other. -/
def plainListing : List ListedArtifact :=
  [{ id := "art_1", role := "best_model", taskId := some "task_1", filename := some "m.n4a" },
    { id := "art_2", role := "logs", taskId := some "task_1", filename := none }]

def outDir : Place := ["home".toList, "results".toList]

theorem downloads_safe_plain : SafeDownloads outDir plainListing := by
  have issued : ∀ art ∈ plainListing, art.Issued := by
    intro art member
    rcases List.mem_pair.mp member with rfl | rfl
    · exact ⟨by decide, fun _ given => Option.some.inj given ▸ by decide⟩
    · exact ⟨by decide, fun _ given => Option.some.inj given ▸ by decide⟩
  apply (downloads_safe outDir plainListing issued).mpr
  have all : attempted [] plainListing = plainListing := by rfl
  rw [Separate, all]
  constructor
  · decide +kernel
  · apply List.pairwise_pair.mpr
    rintro ⟨_, ⟨shared, names, _⟩ | ⟨shared, names, _⟩⟩
    · have front : tail "best_model".toList <+: tail "logs".toList := ⟨shared, names.symm⟩
      revert front
      decide +kernel
    · have front : tail "logs".toList <+: tail "best_model".toList := ⟨shared, names.symm⟩
      revert front
      decide +kernel

/-! ## Listings of a server -/

/-- What the server lists for a job. -/
def servedListing (io : Io) (jobId : JobId) (s : Session Db) : List ListedArtifact :=
  match (listJobArtifacts io jobId s).1 with
  | .ok rows => jobListing rows
  | .error _ => []

/-- A worker uploads a model for its task under a role of its choice. -/
def uploadTurns (role : String) : List Turn :=
  runningTurns ++
    [.spawn (.uploadArtifact "task_1" role (some ⟨"ab", "blob", "ab/ab", 2, some "m.n4a"⟩) {})] ++
    turns 4 4 5

/-- The upload route takes `../../x` for a role, and the client follows it out of the
output directory. -/
theorem role_escapes :
    ∃ p, System.Reaches (server .plain {}) (server .plain {}).Lawful started p ∧
      ¬SafeDownloads outDir (servedListing { now := 6 } "job_0" p.store) := by
  have played : (((server .plain {}).play (server .plain {}).Lawful
      (uploadTurns "../../x") started).any fun p =>
        (downloadAllArtifacts (fun _ _ => .done) outDir
          (servedListing { now := 6 } "job_0" p.store)).any fun file =>
            !outDir.isPrefixOf file.2) = true := by decide +kernel
  obtain ⟨p, run, facts⟩ := System.play_any played
  obtain ⟨file, member, outside⟩ := List.any_eq_true.mp facts
  refine ⟨p, run, ?_⟩
  intro safe
  have front := ((safe fun _ _ => .done).1 file member).front
  rw [List.isPrefixOf_iff_prefix.mpr front] at outside
  exact Bool.false_ne_true outside

end N4Cluster
