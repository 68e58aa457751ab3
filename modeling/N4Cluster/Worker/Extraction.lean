import N4Cluster.Python
import N4Cluster.Base.Paths
import N4Cluster.Base.Fallible

/-! `_safe_extract`: the members of an archive are checked, then all are extracted.
The check walks over `..`, the extractor drops it. Entries outside the destination may be
links; where an entry leads is `follow`. -/
namespace N4Cluster
open Paths Fallible

inductive Node where
  | directory
  | file (data : Bytes)
deriving DecidableEq

/-- The entries of a file system, links apart. -/
abbrev Tree := Place → Option Node

/-- A member of an archive. Opening it may fail; reading it may fail after the bytes in `data`. -/
structure ZipMember where
  filename : String
  externalAttr : Nat := 0
  opened : Except Exn Unit := .ok ()
  data : Bytes := []
  broken : Option Exn := none

/-- Instances of `ValueError`. -/
def Exn.isValueError (exn : Exn) : Bool :=
  ["ValueError", "UnicodeError", "UnicodeDecodeError", "UnicodeEncodeError",
    "UnicodeTranslateError"].contains exn.type

namespace ZipMember

def text (member : ZipMember) : List Char := member.filename.toList

def isDir (member : ZipMember) : Bool := member.text.getLast? = some '/'

/-- The mode in the high bits is that of a link. -/
def symlink (member : ZipMember) : Bool := member.externalAttr >>> 16 &&& 0o170000 = 0o120000

/-- The components `extractall` keeps of the name. -/
def extractedNames (member : ZipMember) : List Name :=
  (components member.text).filter (· ≠ parent)

end ZipMember

def Tree.put (tree : Tree) (place : Place) (node : Node) : Tree :=
  fun other => if other = place then some node else tree other

section
variable (follow : Place → Except Exn Place)

/-! ## The checks -/

def enter (place : Place) (name : Name) : Except Exn Place :=
  if name = parent then .ok place.dropLast else follow (place ++ [name])

/-- `(dest / member).resolve()`, component by component. -/
def resolve (place : Place) (names : List Name) : Except Exn Place := names.foldlM (enter follow) place

/-- The checks of one member. -/
def checkMember (dest : Place) (member : ZipMember) : Except Exn Unit :=
  if absolute member.text then .error (valueError ("absolute path in archive: " ++ member.filename))
  else if member.symlink then .error (valueError ("symlink in archive: " ++ member.filename))
  else do
    let target ← resolve follow dest (components member.text)
    if ¬dest <+: target then .error (valueError ("unsafe path in archive: " ++ member.filename))
    else return ()

/-- The members of the archive, if all pass. -/
def checkArchive (dest : Place) (archive : Except Exn (List ZipMember)) : Except Exn (List ZipMember) := do
  let members ← archive
  members.forM (checkMember follow dest)
  return members

/-! ## The extraction -/

/-- Directories are made where there is nothing. The last entry may be a file, none before it. -/
def makeDirectories (tree : Tree) (place : Place) : List Name → Except Exn Place × Tree
  | [] => (.ok place, tree)
  | name :: names =>
    match follow (place ++ [name]) with
    | .error exn => (.error exn, tree)
    | .ok next =>
      match tree next with
      | none => makeDirectories (tree.put next .directory) next names
      | some .directory => makeDirectories tree next names
      | some (.file _) =>
        if names.isEmpty then (.ok next, tree)
        else (.error ⟨"NotADirectoryError", "Not a directory"⟩, tree)

/-- The directory a member stands for. -/
def extractDirectory (tree : Tree) (upper target : Place) : Except Exn Unit × Tree :=
  match tree upper, tree target with
  | some (.file _), _ => (.error ⟨"NotADirectoryError", "Not a directory"⟩, tree)
  | _, none => (.ok (), tree.put target .directory)
  | _, some .directory => (.ok (), tree)
  | _, some (.file _) => (.error ⟨"FileExistsError", "File exists"⟩, tree)

/-- The bytes of a member are copied to the target. -/
def extractFile (tree : Tree) (upper target : Place) (member : ZipMember) : Except Exn Unit × Tree :=
  match member.opened with
  | .error exn => (.error exn, tree)
  | .ok _ =>
    match tree upper, tree target with
    | some (.file _), _ => (.error ⟨"NotADirectoryError", "Not a directory"⟩, tree)
    | _, some .directory => (.error ⟨"IsADirectoryError", "Is a directory"⟩, tree)
    | _, _ =>
      let written := tree.put target (.file member.data)
      match member.broken with
      | some exn => (.error exn, written)
      | none => (.ok (), written)

/-- The destination itself, under a name without a component. -/
def extractDestination (tree : Tree) (member : ZipMember) : Except Exn Unit × Tree :=
  if member.isDir then (.ok (), tree)
  else
    match member.opened with
    | .error exn => (.error exn, tree)
    | .ok _ => (.error ⟨"IsADirectoryError", "Is a directory"⟩, tree)

variable (emptyRefused : Bool)

/-- `ZipFile._extract_member`; from 3.12 on, a file whose name is empty by then is refused. -/
def extractMember (dest : Place) (tree : Tree) (member : ZipMember) : Except Exn Unit × Tree :=
  match member.extractedNames.getLast? with
  | none =>
    if !member.isDir && emptyRefused then (.error (valueError "Empty filename."), tree)
    else extractDestination tree member
  | some last =>
    match makeDirectories follow tree dest member.extractedNames.dropLast with
    | (.error exn, tree) => (.error exn, tree)
    | (.ok upper, tree) =>
      match follow (upper ++ [last]) with
      | .error exn => (.error exn, tree)
      | .ok target =>
        if member.isDir then extractDirectory tree upper target else extractFile tree upper target member

/-- A member is looked up by its name, and the last one of a name is found. -/
def getInfo (members : List ZipMember) (member : ZipMember) : ZipMember :=
  (members.reverse.find? fun other => other.filename = member.filename).getD member

/-- `ZipFile.extractall`; it ends with the first member that raises. -/
def extractAll (members : List ZipMember) (dest : Place) : List ZipMember → Tree → Except Exn Unit × Tree
  | [], tree => (.ok (), tree)
  | member :: rest, tree =>
    match extractMember follow emptyRefused dest tree (getInfo members member) with
    | (.error exn, tree) => (.error exn, tree)
    | (.ok _, tree) => extractAll members dest rest tree

/-- `dest.mkdir(parents=True, exist_ok=True)`. -/
def makeDestination (tree : Tree) (dest : Place) : Except Exn Unit × Tree :=
  match makeDirectories .ok tree [] dest with
  | (.error exn, tree) => (.error exn, tree)
  | (.ok _, tree) =>
    match tree dest with
    | some (.file _) => (.error ⟨"FileExistsError", "File exists"⟩, tree)
    | _ => (.ok (), tree)

def safeExtract (archive : Except Exn (List ZipMember)) (dest : Place) (tree : Tree) :
    Except Exn Unit × Tree :=
  match makeDestination tree dest with
  | (.error exn, tree) => (.error exn, tree)
  | (.ok _, tree) =>
    match checkArchive follow dest archive with
    | .error exn => (.error exn, tree)
    | .ok members => extractAll follow emptyRefused members dest members tree

end
/-! ## What stays as it is -/

/-- Nothing changes but inside the destination. -/
def Within (dest : Place) (before after : Tree) : Prop :=
  ∀ place, ¬Inside dest place → after place = before place

/-- No entry of the destination is a link. -/
def LinkFree (follow : Place → Except Exn Place) (dest : Place) : Prop :=
  ∀ place, dest <+: place → follow place = .ok place

section
variable {dest : Place}

theorem Within.refl (tree : Tree) : Within dest tree tree := fun _ _ => rfl

theorem Within.trans {first second third : Tree} (one : Within dest first second)
    (two : Within dest second third) : Within dest first third :=
  fun place outside => (two place outside).trans (one place outside)

theorem Within.put {place : Place} (inside : Inside dest place) (tree : Tree) (node : Node) :
    Within dest tree (tree.put place node) := by
  intro other outside
  apply if_neg
  rintro rfl
  exact outside inside

theorem inside_below {place : Place} (below : dest <+: place) (name : Name) : Inside dest (place ++ [name]) :=
  inside_snoc.mpr below

section
variable {follow : Place → Except Exn Place} (linkFree : LinkFree follow dest)
include linkFree

theorem follow_below {place : Place} (below : dest <+: place) (name : Name) :
    follow (place ++ [name]) = .ok (place ++ [name]) :=
  linkFree _ (below.trans (List.prefix_append place [name]))

theorem makeDirectories_within (names : List Name) (tree : Tree) {place : Place} (below : dest <+: place) :
    Within dest tree (makeDirectories follow tree place names).2 ∧
      (∀ last, (makeDirectories follow tree place names).1 = .ok last → last = place ++ names) ∧
      ∀ exn, (makeDirectories follow tree place names).1 = .error exn → exn.isValueError = false := by
  induction names generalizing tree place with
  | nil =>
    refine ⟨.refl tree, ?_, ?_⟩
    · intro last ok
      cases ok
      exact (List.append_nil place).symm
    · intro exn raised
      cases raised
  | cons name names ih =>
    have next := below.trans (List.prefix_append place [name])
    have whole : place ++ [name] ++ names = place ++ name :: names := by simp
    rw [makeDirectories, follow_below linkFree below name]
    dsimp only
    cases tree (place ++ [name]) with
    | none =>
      obtain ⟨within, reached, raises⟩ := ih (tree.put (place ++ [name]) .directory) next
      exact ⟨.trans (.put (inside_below below name) tree .directory) within, whole ▸ reached, raises⟩
    | some node =>
      cases node with
      | directory => exact whole ▸ ih tree next
      | file data =>
        dsimp only
        split
        · rename_i last
          obtain rfl := List.isEmpty_iff.mp last
          refine ⟨.refl tree, ?_, ?_⟩
          · intro last ok
            cases ok
            rfl
          · intro exn raised
            cases raised
        · refine ⟨.refl tree, ?_, ?_⟩
          · intro last ok
            cases ok
          · intro exn raised
            cases raised
            decide

end

theorem extractDirectory_within {upper target : Place} (inside : Inside dest target) (tree : Tree) :
    Within dest tree (extractDirectory tree upper target).2 ∧
      ∀ exn, (extractDirectory tree upper target).1 = .error exn → exn.isValueError = false := by
  rw [extractDirectory]
  split
  · exact ⟨.refl tree, fun exn raised => by cases raised; decide⟩
  · exact ⟨.put inside tree .directory, fun exn raised => by cases raised⟩
  · exact ⟨.refl tree, fun exn raised => by cases raised⟩
  · exact ⟨.refl tree, fun exn raised => by cases raised; decide⟩

/-- The member could not be opened, or not read to its end. -/
def ReadFails (member : ZipMember) (exn : Exn) : Prop :=
  member.opened = .error exn ∨ member.broken = some exn

theorem extractFile_within {upper target : Place} (inside : Inside dest target) (tree : Tree)
    (member : ZipMember) : Within dest tree (extractFile tree upper target member).2 ∧
      ∀ exn, (extractFile tree upper target member).1 = .error exn → exn.isValueError →
        ReadFails member exn := by
  rw [extractFile]
  cases opened : member.opened with
  | error exn =>
    refine ⟨.refl tree, ?_⟩
    intro other raised _
    cases raised
    exact .inl opened
  | ok _ =>
    dsimp only
    split
    · exact ⟨.refl tree, fun exn raised value => by cases raised; exact absurd value (by decide)⟩
    · exact ⟨.refl tree, fun exn raised value => by cases raised; exact absurd value (by decide)⟩
    · cases broken : member.broken with
      | none => exact ⟨.put inside tree _, fun exn raised => by cases raised⟩
      | some exn =>
        refine ⟨.put inside tree _, ?_⟩
        intro other raised _
        cases raised
        exact .inr broken

theorem extractDestination_within (tree : Tree) (member : ZipMember) :
    (extractDestination tree member).2 = tree ∧
      ∀ exn, (extractDestination tree member).1 = .error exn → exn.isValueError →
        member.isDir = false ∧ ReadFails member exn := by
  rw [extractDestination]
  split
  · exact ⟨rfl, fun exn raised => by cases raised⟩
  · rename_i file
    cases opened : member.opened with
    | error exn =>
      refine ⟨rfl, ?_⟩
      intro other raised _
      cases raised
      exact ⟨Bool.eq_false_iff.mpr file, .inl opened⟩
    | ok _ => exact ⟨rfl, fun exn raised value => by cases raised; exact absurd value (by decide)⟩

/-- A file whose name is empty to the extractor, or one that is not read to its end. -/
def Faulty (emptyRefused : Bool) (member : ZipMember) (exn : Exn) : Prop :=
  member.isDir = false ∧
    ((emptyRefused ∧ member.extractedNames = [] ∧ exn = valueError "Empty filename.") ∨
      ReadFails member exn)

section
variable {follow : Place → Except Exn Place} (linkFree : LinkFree follow dest) (emptyRefused : Bool)
include linkFree

theorem extractMember_within (tree : Tree) (member : ZipMember) :
    Within dest tree (extractMember follow emptyRefused dest tree member).2 ∧
      ∀ exn, (extractMember follow emptyRefused dest tree member).1 = .error exn → exn.isValueError →
        Faulty emptyRefused member exn := by
  rw [extractMember]
  cases named : member.extractedNames.getLast? with
  | none =>
    dsimp only
    split
    · rename_i refused
      simp only [Bool.and_eq_true, Bool.not_eq_true'] at refused
      refine ⟨.refl tree, ?_⟩
      intro exn raised _
      cases raised
      exact ⟨refused.1, .inl ⟨refused.2, List.getLast?_eq_none_iff.mp named, rfl⟩⟩
    · obtain ⟨same, faults⟩ := extractDestination_within tree member
      refine ⟨by rw [same]; exact .refl tree, ?_⟩
      intro exn raised value
      obtain ⟨file, unreadable⟩ := faults exn raised value
      exact ⟨file, .inr unreadable⟩
  | some last =>
    obtain ⟨within, reached, raises⟩ :=
      makeDirectories_within linkFree member.extractedNames.dropLast tree (List.prefix_refl dest)
    cases made : makeDirectories follow tree dest member.extractedNames.dropLast with
    | mk outcome upper =>
      rw [made] at within reached raises
      cases outcome with
      | error exn =>
        refine ⟨within, ?_⟩
        intro other raised value
        cases raised
        exact absurd value (by simp [raises exn rfl])
      | ok place =>
        obtain rfl := reached place rfl
        have below := List.prefix_append dest member.extractedNames.dropLast
        dsimp only
        rw [follow_below linkFree below last]
        dsimp only
        split
        · obtain ⟨extracted, harmless⟩ := extractDirectory_within (inside_below below last) upper
          refine ⟨within.trans extracted, ?_⟩
          intro exn raised value
          exact absurd value (by simp [harmless exn raised])
        · rename_i file
          obtain ⟨extracted, faults⟩ := extractFile_within (inside_below below last) upper member
          refine ⟨within.trans extracted, ?_⟩
          intro exn raised value
          exact ⟨Bool.eq_false_iff.mpr file, .inr (faults exn raised value)⟩

/-- The extraction stays inside; a `ValueError` is that of a faulty member, after those before it. -/
theorem extractAll_within (members todo : List ZipMember) (tree : Tree) :
    Within dest tree (extractAll follow emptyRefused members dest todo tree).2 ∧
      ∀ exn, (extractAll follow emptyRefused members dest todo tree).1 = .error exn → exn.isValueError →
        ∃ front member behind, todo = front ++ member :: behind ∧
          (extractAll follow emptyRefused members dest front tree).1 = .ok () ∧
          Faulty emptyRefused (getInfo members member) exn := by
  induction todo generalizing tree with
  | nil => exact ⟨.refl tree, fun exn raised => by cases raised⟩
  | cons member todo ih =>
    obtain ⟨within, faults⟩ := extractMember_within linkFree emptyRefused tree (getInfo members member)
    rw [extractAll]
    cases extracted : extractMember follow emptyRefused dest tree (getInfo members member) with
    | mk outcome after =>
      rw [extracted] at within faults
      cases outcome with
      | error exn =>
        refine ⟨within, ?_⟩
        intro other raised value
        cases raised
        exact ⟨[], member, todo, rfl, rfl, faults exn rfl value⟩
      | ok _ =>
        obtain ⟨later, rest⟩ := ih after
        refine ⟨within.trans later, ?_⟩
        intro exn raised value
        obtain ⟨front, last, behind, rfl, done, faulty⟩ := rest exn raised value
        exact ⟨member :: front, last, behind, rfl, by rw [extractAll, extracted]; exact done, faulty⟩

end

/-- The member is no link, its name is relative, and resolved it stays in the destination. -/
structure Accepted (follow : Place → Except Exn Place) (dest : Place) (member : ZipMember) : Prop where
  relative : absolute member.text = false
  plain : member.symlink = false
  inside : ∃ target, resolve follow dest (components member.text) = .ok target ∧ dest <+: target

variable {follow : Place → Except Exn Place}

theorem checkMember_ok {member : ZipMember} (ok : checkMember follow dest member = .ok ()) :
    Accepted follow dest member := by
  obtain ⟨relative, checked⟩ := check_ok_iff.mp ok
  obtain ⟨plain, resolving⟩ := check_ok_iff.mp checked
  obtain ⟨target, resolved, compared⟩ := bind_ok_iff.mp resolving
  obtain ⟨inside, _⟩ := check_ok_iff.mp compared
  exact ⟨Bool.eq_false_iff.mpr relative, Bool.eq_false_iff.mpr plain, target, resolved,
    not_not.mp inside⟩

theorem checkArchive_ok {archive : Except Exn (List ZipMember)} {members : List ZipMember}
    (ok : checkArchive follow dest archive = .ok members) :
    archive = .ok members ∧ ∀ member ∈ members, Accepted follow dest member := by
  obtain ⟨read, opened, checking⟩ := bind_ok_iff.mp ok
  obtain ⟨_, checked, returned⟩ := bind_ok_iff.mp checking
  cases returned
  exact ⟨opened, fun member inside => checkMember_ok (forM_ok_iff.mp checked member inside)⟩

end

/-- No file is made where directories are. -/
theorem makeDirectories_files (follow : Place → Except Exn Place) (names : List Name) (tree : Tree)
    (place : Place) {other : Place} {data : Bytes}
    (file : (makeDirectories follow tree place names).2 other = some (.file data)) :
    tree other = some (.file data) := by
  induction names generalizing tree place with
  | nil => exact file
  | cons name names ih =>
    rw [makeDirectories] at file
    split at file
    · exact file
    · split at file
      · rename_i next _ _ _
        have before := ih _ _ file
        by_cases same : other = next
        · rw [Tree.put, if_pos same] at before
          cases before
        · rwa [Tree.put, if_neg same] at before
      · exact ih _ _ file
      · split at file
        · exact file
        · exact file

theorem makeDestination_files {tree : Tree} {dest place : Place} {data : Bytes}
    (file : (makeDestination tree dest).2 place = some (.file data)) : tree place = some (.file data) := by
  apply makeDirectories_files .ok dest tree []
  rw [makeDestination] at file
  split at file
  · rename_i made
    rwa [made]
  · rename_i made
    rw [made]
    split at file
    · exact file
    · exact file

/-- Whenever the extraction raises `ValueError`, nothing has been extracted. -/
def AllOrNothing (emptyRefused : Bool) (archive : Except Exn (List ZipMember)) : Prop :=
  ∀ follow dest tree exn, LinkFree follow dest →
    (safeExtract follow emptyRefused archive dest tree).1 = .error exn → exn.isValueError →
    (safeExtract follow emptyRefused archive dest tree).2 = (makeDestination tree dest).2

/-- The member `.` is accepted, as its path is the destination, and refused once those before it
are extracted. A name in a local header that does not decode is only met when its member is opened. -/
theorem extraction_interrupted :
    (¬∀ names : List String, AllOrNothing true (.ok (names.map fun name => { filename := name }))) ∧
      ¬∀ archive, AllOrNothing false archive := by
  constructor
  · intro atomic
    have same := atomic ["ok.txt", "."] .ok ["d".toList] (fun _ => none) (valueError "Empty filename.")
      (fun _ _ => rfl) (by decide +kernel) (by decide)
    have extracted := congrFun same ["d".toList, "ok.txt".toList]
    revert extracted
    decide +kernel
  · intro atomic
    have same := atomic (.ok [{ filename := "ok.txt" },
        { filename := "é.txt", opened := .error ⟨"UnicodeDecodeError", "invalid start byte"⟩ }])
      .ok ["d".toList] (fun _ => none) ⟨"UnicodeDecodeError", "invalid start byte"⟩
      (fun _ _ => rfl) (by decide +kernel) (by decide)
    have extracted := congrFun same ["d".toList, "ok.txt".toList]
    revert extracted
    decide +kernel

/-- A run of `_safe_extract`, with the destination made first. -/
structure SafelyExtracted (follow : Place → Except Exn Place) (emptyRefused : Bool)
    (archive : Except Exn (List ZipMember)) (dest : Place) (tree : Tree)
    (run : Except Exn Unit × Tree) : Prop where
  accepted : run.1 = .ok () → ∃ members, archive = .ok members ∧
    ∀ member ∈ members, Accepted follow dest member
  contained : Within dest (makeDestination tree dest).2 run.2
  files : ∀ place data, run.2 place = some (.file data) →
    Inside dest place ∨ tree place = some (.file data)
  refused : ∀ exn, run.1 = .error exn → exn.isValueError →
    run.2 = (makeDestination tree dest).2 ∨
      ∃ front member behind, archive = .ok (front ++ member :: behind) ∧
        (∀ other ∈ front ++ member :: behind, Accepted follow dest other) ∧
        (extractAll follow emptyRefused (front ++ member :: behind) dest front
          (makeDestination tree dest).2).1 = .ok () ∧
        Faulty emptyRefused (getInfo (front ++ member :: behind) member) exn

/-- An archive is extracted only if every member is accepted, all files lie in the destination, and
a refused member leaves it as it was. A `ValueError` can still come from the extraction itself, of a
faulty member among accepted ones. -/
theorem archive_safely_extracted (follow : Place → Except Exn Place) (emptyRefused : Bool)
    (archive : Except Exn (List ZipMember)) (dest : Place) (tree : Tree) (linkFree : LinkFree follow dest) :
    SafelyExtracted follow emptyRefused archive dest tree
      (safeExtract follow emptyRefused archive dest tree) := by
  have unchanged {outcome : Except Exn Unit} (fails : outcome ≠ .ok ()) :
      SafelyExtracted follow emptyRefused archive dest tree (outcome, (makeDestination tree dest).2) :=
    ⟨fun ok => absurd ok fails, .refl _, fun _ _ file => .inr (makeDestination_files file), fun _ _ _ => .inl rfl⟩
  rw [safeExtract]
  cases made : makeDestination tree dest with
  | mk outcome ready =>
    rw [made] at unchanged
    cases outcome with
    | error exn => exact unchanged (by simp)
    | ok _ =>
      dsimp only
      cases checked : checkArchive follow dest archive with
      | error exn => exact unchanged (by simp)
      | ok members =>
        obtain ⟨rfl, accepted⟩ := checkArchive_ok checked
        obtain ⟨within, faults⟩ := extractAll_within linkFree emptyRefused members members ready
        refine ⟨fun _ => ⟨members, rfl, accepted⟩, by rwa [made], ?_, ?_⟩
        · intro place data file
          by_cases inside : Inside dest place
          · exact .inl inside
          · have before := within place inside
            exact .inr (makeDestination_files (by rw [made]; exact before.symm.trans file))
        · intro exn raised value
          obtain ⟨front, member, behind, rfl, done, faulty⟩ := faults exn raised value
          exact .inr ⟨front, member, behind, rfl, accepted, by rwa [made], faulty⟩

/-- What is checked is not what is written: `../d/x` is `d/x` to the check, `d/d/x` to the extractor. -/
theorem archive_safely_extracted_climbing :
    SafelyExtracted .ok true (.ok [{ filename := "../d/x", data := [1] }]) ["d".toList] (fun _ => none)
      (safeExtract .ok true (.ok [{ filename := "../d/x", data := [1] }]) ["d".toList] fun _ => none) ∧
    (safeExtract .ok true (.ok [{ filename := "../d/x", data := [1] }]) ["d".toList] fun _ => none).2
      ["d".toList, "d".toList, "x".toList] = some (.file [1]) :=
  ⟨archive_safely_extracted .ok true _ ["d".toList] _ fun _ _ => rfl, by decide +kernel⟩

end N4Cluster
