import N4Cluster.Python
import N4Cluster.Base.Holdings
import N4Cluster.Base.Sha256
import Mathlib.Logic.Function.Basic

/-! `ArtifactStore.put_stream`: the store of artifacts by hash, and uploads to it that run at once,
one file operation at a time. An object file is known by its name, as its folders are made of it. -/
namespace N4Cluster
open Interleave

/-- A stream of bytes: chunks as they are read, and the exception of a read if one raises. -/
structure Upload where
  chunks : List Bytes
  nonempty : ∀ chunk ∈ chunks, chunk ≠ []
  failure : Option Exn := none
  maxBytes : Option Nat := none

/-- The files under the root: objects in their folders, and temporary files. -/
structure Blobs where
  objects : String → Option Bytes
  folders : String × String → Bool
  temporaries : Nat → Option Bytes
  finite : ∃ bound, ∀ name, bound ≤ name → temporaries name = none

namespace Blobs

def put (s : Blobs) (name : Nat) (content : Option Bytes) : Blobs where
  objects := s.objects
  folders := s.folders
  temporaries := Function.update s.temporaries name content
  finite := by
    obtain ⟨bound, above⟩ := s.finite
    refine ⟨max bound (name + 1), ?_⟩
    intro other larger
    rw [Function.update_of_ne (by omega)]
    exact above other (by omega)

@[simp] theorem put_objects (s : Blobs) (name : Nat) (content : Option Bytes) :
    (s.put name content).objects = s.objects := rfl

@[simp] theorem put_folders (s : Blobs) (name : Nat) (content : Option Bytes) :
    (s.put name content).folders = s.folders := rfl

theorem put_same (s : Blobs) (name : Nat) (content : Option Bytes) :
    (s.put name content).temporaries name = content := Function.update_self _ _ _

theorem put_other (s : Blobs) {name other : Nat} (content : Option Bytes) (unlike : other ≠ name) :
    (s.put name content).temporaries other = s.temporaries other := Function.update_of_ne unlike _ _

/-- Each object file holds the bytes its name hashes. -/
def Sound (hash : Bytes → String) (s : Blobs) : Prop :=
  ∀ sha content, s.objects sha = some content → hash content = sha

end Blobs

/-- `sha256[:2]` and `sha256[2:4]`. -/
def folderFor (sha : String) : String × String :=
  (String.ofList (sha.toList.take 2), String.ofList ((sha.toList.drop 2).take 2))

/-- `_path_for`. -/
def pathFor (root sha : String) : String :=
  root ++ "/" ++ (folderFor sha).1 ++ "/" ++ (folderFor sha).2 ++ "/" ++ sha

inductive FileOp where
  | mkstemp
  | write (name : Nat) (chunk : Bytes)
  | destExists (sha : String)
  | mkdir (sha : String)
  | replace (name : Nat) (sha : String)
  | unlink (name : Nat)
  | tmpExists (name : Nat)

abbrev FileOp.Answer : FileOp → Type
  | mkstemp => Nat
  | write _ _ | mkdir _ => Unit
  | destExists _ | tmpExists _ => Bool
  | replace _ _ | unlink _ => Except Exn Unit

def fileNotFound : Exn := ⟨"FileNotFoundError", "No such file or directory"⟩

/-- The environment chooses the name of a new temporary file, one that is free. -/
def fileSystem : Machine FileOp FileOp.Answer Blobs Nat where
  exec
    | name, .mkstemp, s => (name, s.put name (some []))
    | _, .write name chunk, s =>
      match s.temporaries name with
      | some content => ((), s.put name (some (content ++ chunk)))
      | none => ((), s)
    | _, .destExists sha, s => ((s.objects sha).isSome, s)
    | _, .mkdir sha, s => ((), { s with folders := Function.update s.folders (folderFor sha) true })
    | _, .replace name sha, s =>
      match s.temporaries name with
      | some content =>
        if s.folders (folderFor sha) then
          (.ok (), { s.put name none with objects := Function.update s.objects sha (some content) })
        else (.error fileNotFound, s)
      | none => (.error fileNotFound, s)
    | _, .unlink name, s =>
      match s.temporaries name with
      | some _ => (.ok (), s.put name none)
      | none => (.error fileNotFound, s)
    | _, .tmpExists name, s => ((s.temporaries name).isSome, s)
  valid
    | name, .mkstemp, s => s.temporaries name = none
    | _, _, _ => True

/-! ## The upload -/

abbrev Uploading := Program FileOp FileOp.Answer Exn

def fileCall (op : FileOp) : Uploading op.Answer := .call op .ret

def ofAnswer : Except Exn Unit → Uploading Unit
  | .ok _ => .ret ()
  | .error exn => .raise exn

def unlink (name : Nat) : Uploading Unit := fileCall (.unlink name) >>= ofAnswer

def replace (name : Nat) (sha : String) : Uploading Unit := fileCall (.replace name sha) >>= ofAnswer

def tooLarge (maxBytes : Nat) : Exn := ⟨"ArtifactTooLarge", "artifact exceeds " ++ toString maxBytes ++ " bytes"⟩

/-- The loop over the chunks: what the hasher has seen, and the size. -/
def copyStream (upload : Upload) (name : Nat) : List Bytes → Bytes → Nat → Uploading (Bytes × Nat)
  | [], hashed, size =>
    match upload.failure with
    | some exn => .raise exn
    | none => .ret (hashed, size)
  | chunk :: rest, hashed, size =>
    if chunk.isEmpty then .ret (hashed, size)
    else
      match upload.maxBytes.filter (· < size + chunk.length) with
      | some maxBytes => .raise (tooLarge maxBytes)
      | none => do
        let hashed := hashed ++ chunk
        fileCall (.write name chunk)
        copyStream upload name rest hashed (size + chunk.length)

section
variable (hash : Bytes → String) (root : String)

/-- The temporary file is moved to its place, or dropped if the place is taken. -/
def placeFile (name : Nat) (hashed : Bytes) (size : Nat) : Uploading (String × String × Nat) := do
  let sha := hash hashed
  if ← fileCall (.destExists sha) then unlink name
  else
    fileCall (.mkdir sha)
    replace name sha
  return (sha, pathFor root sha, size)

/-- `except BaseException`. -/
def dropFile (name : Nat) (exn : Exn) : Uploading (String × String × Nat) := do
  if ← fileCall (.tmpExists name) then unlink name
  .raise exn

def putStream (upload : Upload) : Uploading (String × String × Nat) := do
  let name ← fileCall .mkstemp
  (do
    let (hashed, size) ← copyStream upload name upload.chunks [] 0
    placeFile hash root name hashed size).handle (dropFile name)

/-- Uploads to one store. -/
def uploads : System Upload FileOp FileOp.Answer Exn (String × String × Nat) Blobs Nat where
  toMachine := fileSystem
  handler := putStream hash root
  recover := id

end
/-! ## What uploads hold -/

/-- How far an upload has come, with its temporary file and what it knows of the store. -/
inductive Holding where
  | idle
  | writing (name : Nat) (content : Bytes)
  | present (name : Nat) (content : Bytes)
  | placed (name : Nat) (content : Bytes)
  | stored (content : Bytes)

namespace Holding

def file : Holding → Option (Nat × Bytes)
  | writing name content | present name content | placed name content => some (name, content)
  | idle | stored _ => none

/-- The upload is not done. -/
def live : Holding → Prop
  | idle | writing _ _ | present _ _ | placed _ _ => True
  | stored _ => False

/-- The bytes an upload knows to be in the store. -/
def known : Holding → Option Bytes
  | present _ content | stored content => some content
  | idle | writing _ _ | placed _ _ => none

end Holding

/-- The uploads hold the temporary files made since the start, each its own, and all objects made
since then are those of uploads that have stored them. -/
structure Account (hash : Bytes → String) (start : Blobs) (hs : List Holding) (s : Blobs) : Prop where
  sound : s.Sound hash
  kept : ∀ sha content, start.objects sha = some content → s.objects sha = some content
  fresh : ∀ sha content, s.objects sha = some content →
    start.objects sha = some content ∨ ∃ i : Nat, hs[i]? = some (.stored content)
  before : ∀ name content, start.temporaries name = some content → s.temporaries name = some content
  held : ∀ (i : Nat) h name content, hs[i]? = some h → h.file = some (name, content) →
    s.temporaries name = some content ∧ start.temporaries name = none
  owned : ∀ name content, s.temporaries name = some content → start.temporaries name = some content ∨
    ∃ (i : Nat) (h : Holding), hs[i]? = some h ∧ h.file = some (name, content)
  apart : ∀ (i j : Nat) h k name c d, hs[i]? = some h → hs[j]? = some k → h.file = some (name, c) →
    k.file = some (name, d) → i = j
  known : ∀ (i : Nat) h content, hs[i]? = some h → h.known = some content →
    s.objects (hash content) = some content
  folder : ∀ (i : Nat) name content, hs[i]? = some (.placed name content) →
    s.folders (folderFor (hash content)) = true

namespace Account
variable {hash : Bytes → String} {start : Blobs} {hs : List Holding} {s : Blobs}

theorem begin (sound : start.Sound hash) : Account hash start [] start where
  sound := sound
  kept _ _ there := there
  fresh _ _ there := .inl there
  before _ _ there := there
  held _ _ _ _ place := by cases place
  owned _ _ there := .inl there
  apart _ _ _ _ _ _ _ place := by cases place
  known _ _ _ place := by cases place
  folder _ _ _ place := by cases place

/-- A place of a list with one more item is one of the list, or the item's. -/
theorem place_append {α : Type} {items : List α} {last item : α} {i : Nat}
    (place : (items ++ [last])[i]? = some item) :
    items[i]? = some item ∨ i = items.length ∧ item = last := by
  rcases Nat.lt_or_ge i items.length with inside | beyond
  · rw [List.getElem?_append_left inside] at place
    exact .inl place
  · rw [List.getElem?_append_right beyond] at place
    obtain ⟨bound, same⟩ := List.getElem?_eq_some_iff.mp place
    rw [List.length_singleton] at bound
    have first : i - items.length = 0 := by omega
    simp only [first, List.getElem_cons_zero] at same
    exact .inr ⟨by omega, same.symm⟩

theorem place_kept {α : Type} {items : List α} {item : α} (last : α) {i : Nat}
    (place : items[i]? = some item) : (items ++ [last])[i]? = some item := by
  rw [List.getElem?_append_left (List.getElem?_eq_some_iff.mp place).1]
  exact place

/-- An upload that begins holds nothing. -/
theorem join (account : Account hash start hs s) : Account hash start (hs ++ [.idle]) s where
  sound := account.sound
  kept := account.kept
  fresh sha content there := by
    rcases account.fresh sha content there with old | ⟨i, place⟩
    · exact .inl old
    · exact .inr ⟨i, place_kept .idle place⟩
  before := account.before
  held i h name content place file := by
    rcases place_append place with earlier | ⟨_, rfl⟩
    · exact account.held i h name content earlier file
    · cases file
  owned name content there := by
    rcases account.owned name content there with old | ⟨i, h, place, file⟩
    · exact .inl old
    · exact .inr ⟨i, h, place_kept .idle place, file⟩
  apart i j h k name c d first second file other := by
    rcases place_append first with earlier | ⟨_, rfl⟩
    · rcases place_append second with also | ⟨_, rfl⟩
      · exact account.apart i j h k name c d earlier also file other
      · cases other
    · cases file
  known i h content place known := by
    rcases place_append place with earlier | ⟨_, rfl⟩
    · exact account.known i h content earlier known
    · cases known
  folder i name content place := by
    rcases place_append place with earlier | ⟨_, same⟩
    · exact account.folder i name content earlier
    · cases same

end Account

/-- What one call does for the upload that makes it, and leaves to the others. -/
structure FileMoves (hash : Bytes → String) (h h' : Holding) (s t : Blobs) : Prop where
  unfinished : ∀ content, h ≠ .stored content
  others : ∀ name, (∀ c, h.file ≠ some (name, c)) → (∀ c, h'.file ≠ some (name, c)) →
    t.temporaries name = s.temporaries name
  mine : ∀ name content, h'.file = some (name, content) → t.temporaries name = some content ∧
    ((∃ c, h.file = some (name, c)) ∨ s.temporaries name = none)
  gone : ∀ name c, h.file = some (name, c) → (∀ d, h'.file ≠ some (name, d)) → t.temporaries name = none
  kept : ∀ sha content, s.objects sha = some content → t.objects sha = some content
  fresh : ∀ sha content, t.objects sha = some content →
    s.objects sha = some content ∨ h' = .stored content ∧ hash content = sha
  known : ∀ content, h'.known = some content → t.objects (hash content) = some content
  folders : ∀ folder, s.folders folder = true → t.folders folder = true
  placed : ∀ name content, h' = .placed name content → t.folders (folderFor (hash content)) = true

theorem place_set {α : Type} {items : List α} {new item : α} {i j : Nat}
    (place : (items.set i new)[j]? = some item) :
    j = i ∧ item = new ∨ j ≠ i ∧ items[j]? = some item := by
  by_cases same : j = i
  · subst same
    obtain ⟨bound, value⟩ := List.getElem?_eq_some_iff.mp place
    rw [List.getElem_set_self] at value
    exact .inl ⟨rfl, value.symm⟩
  · rw [List.getElem?_set_ne (Ne.symm same)] at place
    exact .inr ⟨same, place⟩

section
variable {hash : Bytes → String} {start : Blobs} {hs : List Holding} {s t : Blobs} {i : Nat}
  {h h' : Holding}

/-- The file of another upload is neither that of the one that moves, nor made by the move. -/
theorem FileMoves.foreign (moves : FileMoves hash h h' s t) (account : Account hash start hs s)
    (place : hs[i]? = some h) {j : Nat} {k : Holding} {name : Nat} {d : Bytes} (apart : j ≠ i)
    (other : hs[j]? = some k) (file : k.file = some (name, d)) :
    (∀ c, h.file ≠ some (name, c)) ∧ ∀ c, h'.file ≠ some (name, c) := by
  have unowned (c : Bytes) : h.file ≠ some (name, c) :=
    fun mine => apart (account.apart j i k h name d c other place file mine)
  refine ⟨unowned, ?_⟩
  intro c made
  rcases (moves.mine name c made).2 with ⟨c', mine⟩ | free
  · exact unowned c' mine
  · rw [(account.held j k name d other file).1] at free
    cases free

theorem Account.step (account : Account hash start hs s) (place : hs[i]? = some h)
    (moves : FileMoves hash h h' s t) : Account hash start (hs.set i h') t where
  sound sha content there := by
    rcases moves.fresh sha content there with old | ⟨_, named⟩
    · exact account.sound sha content old
    · exact named
  kept sha content there := moves.kept sha content (account.kept sha content there)
  fresh sha content there := by
    have bound := (List.getElem?_eq_some_iff.mp place).1
    rcases moves.fresh sha content there with old | ⟨rfl, _⟩
    · rcases account.fresh sha content old with initial | ⟨j, stored⟩
      · exact .inl initial
      · have unlike : i ≠ j := by
          rintro rfl
          exact moves.unfinished content (Option.some.inj (place.symm.trans stored))
        exact .inr ⟨j, by rwa [List.getElem?_set_ne unlike]⟩
    · exact .inr ⟨i, List.getElem?_set_self bound⟩
  before name content there := by
    have initial := account.before name content there
    have foreign (c : Bytes) : h.file ≠ some (name, c) := by
      intro mine
      have free := (account.held i h name c place mine).2
      rw [free] at there
      cases there
    rw [moves.others name foreign, initial]
    intro c made
    rcases (moves.mine name c made).2 with ⟨c', mine⟩ | free
    · exact foreign c' mine
    · rw [free] at initial
      cases initial
  held j k name content there file := by
    rcases place_set there with ⟨rfl, rfl⟩ | ⟨apart, other⟩
    · obtain ⟨written, origin⟩ := moves.mine name content file
      refine ⟨written, ?_⟩
      rcases origin with ⟨c, mine⟩ | free
      · exact (account.held j h name c place mine).2
      · cases initial : start.temporaries name with
        | none => rfl
        | some c =>
          rw [account.before name c initial] at free
          cases free
    · obtain ⟨unowned, unmade⟩ := moves.foreign account place apart other file
      rw [moves.others name unowned unmade]
      exact account.held j k name content other file
  owned name content there := by
    have bound := (List.getElem?_eq_some_iff.mp place).1
    by_cases made : ∃ c, h'.file = some (name, c)
    · obtain ⟨c, made⟩ := made
      rw [(moves.mine name c made).1] at there
      cases there
      exact .inr ⟨i, h', List.getElem?_set_self bound, made⟩
    · have unmade : ∀ c, h'.file ≠ some (name, c) := fun c same => made ⟨c, same⟩
      have unowned : ∀ c, h.file ≠ some (name, c) := by
        intro c mine
        rw [moves.gone name c mine unmade] at there
        cases there
      rw [moves.others name unowned unmade] at there
      rcases account.owned name content there with initial | ⟨j, k, other, file⟩
      · exact .inl initial
      · have unlike : i ≠ j := by
          rintro rfl
          cases Option.some.inj (place.symm.trans other)
          exact unowned content file
        exact .inr ⟨j, k, by rwa [List.getElem?_set_ne unlike], file⟩
  apart j l k m name c d first second file other := by
    rcases place_set first with ⟨rfl, rfl⟩ | ⟨one, earlier⟩
    · rcases place_set second with ⟨rfl, rfl⟩ | ⟨two, also⟩
      · rfl
      · exact absurd file ((moves.foreign account place two also other).2 c)
    · rcases place_set second with ⟨rfl, rfl⟩ | ⟨two, also⟩
      · exact absurd other ((moves.foreign account place one earlier file).2 d)
      · exact account.apart j l k m name c d earlier also file other
  known j k content there known := by
    rcases place_set there with ⟨rfl, rfl⟩ | ⟨_, other⟩
    · exact moves.known content known
    · exact moves.kept _ content (account.known j k content other known)
  folder j name content there := by
    rcases place_set there with ⟨rfl, same⟩ | ⟨_, other⟩
    · exact moves.placed name content same.symm
    · exact moves.folders _ (account.folder j name content other)

/-- A call that changes nothing. -/
theorem Account.stay (account : Account hash start hs s) (place : hs[i]? = some h) :
    Account hash start (hs.set i h) s := by
  obtain ⟨bound, rfl⟩ := List.getElem?_eq_some_iff.mp place
  rwa [List.set_getElem_self]

variable {name : Nat} {content chunk : Bytes}

theorem moves_mkstemp (free : s.temporaries name = none) :
    FileMoves hash .idle (.writing name []) s (s.put name (some [])) where
  unfinished _ same := by cases same
  others other _ unmade := s.put_other _ fun same => unmade [] (by rw [same]; rfl)
  mine other c made := by
    cases made
    exact ⟨s.put_same name _, .inr free⟩
  gone _ _ file := by cases file
  kept _ _ there := there
  fresh _ _ there := .inl there
  known _ known := by cases known
  folders _ there := there
  placed _ _ same := by cases same

theorem moves_write :
    FileMoves hash (.writing name content) (.writing name (content ++ chunk)) s
      (s.put name (some (content ++ chunk))) where
  unfinished _ same := by cases same
  others other _ unmade := s.put_other _ fun same => unmade (content ++ chunk) (by rw [same]; rfl)
  mine other c made := by
    cases made
    exact ⟨s.put_same name _, .inl ⟨content, rfl⟩⟩
  gone other c file unmade := by
    cases file
    exact absurd rfl (unmade (content ++ chunk))
  kept _ _ there := there
  fresh _ _ there := .inl there
  known _ known := by cases known
  folders _ there := there
  placed _ _ same := by cases same

theorem moves_exists (held : s.temporaries name = some content)
    (there : s.objects (hash content) = some content) :
    FileMoves hash (.writing name content) (.present name content) s s where
  unfinished _ same := by cases same
  others _ _ _ := rfl
  mine other c made := by
    cases made
    exact ⟨held, .inl ⟨content, rfl⟩⟩
  gone other c file unmade := by
    cases file
    exact absurd rfl (unmade content)
  kept _ _ there := there
  fresh _ _ there := .inl there
  known c known := by
    cases known
    exact there
  folders _ there := there
  placed _ _ same := by cases same

theorem moves_mkdir (held : s.temporaries name = some content) :
    FileMoves hash (.writing name content) (.placed name content) s
      { s with folders := Function.update s.folders (folderFor (hash content)) true } where
  unfinished _ same := by cases same
  others _ _ _ := rfl
  mine other c made := by
    cases made
    exact ⟨held, .inl ⟨content, rfl⟩⟩
  gone other c file unmade := by
    cases file
    exact absurd rfl (unmade content)
  kept _ _ there := there
  fresh _ _ there := .inl there
  known _ known := by cases known
  folders folder there := by
    by_cases same : folder = folderFor (hash content)
    · rw [same]
      exact Function.update_self _ _ _
    · exact (Function.update_of_ne same _ _).trans there
  placed other c same := by
    cases same
    exact Function.update_self _ _ _

/-- An object that is there already has the same bytes, as the hash is injective. -/
theorem moves_replace (injective : Function.Injective hash) (sound : s.Sound hash) :
    FileMoves hash (.placed name content) (.stored content) s
      { s.put name none with objects := Function.update s.objects (hash content) (some content) } where
  unfinished _ same := by cases same
  others other unowned _ := s.put_other _ fun same => unowned content (by rw [same]; rfl)
  mine _ _ made := by cases made
  gone other c file _ := by
    cases file
    exact s.put_same name _
  kept sha c there := by
    by_cases same : sha = hash content
    · subst same
      rw [injective (sound _ c there)]
      exact Function.update_self _ _ _
    · exact (Function.update_of_ne same _ _).trans there
  fresh sha c there := by
    by_cases same : sha = hash content
    · subst same
      dsimp only at there
      rw [Function.update_self] at there
      cases there
      exact .inr ⟨rfl, rfl⟩
    · exact .inl ((Function.update_of_ne same _ _).symm.trans there)
  known c known := by
    cases known
    exact Function.update_self _ _ _
  folders _ there := there
  placed _ _ same := by cases same

/-- The file of an upload is removed. -/
theorem moves_unlink (owns : h.file = some (name, content)) (free : h'.file = none)
    (known : ∀ c, h'.known = some c → s.objects (hash c) = some c) :
    FileMoves hash h h' s (s.put name none) where
  unfinished c same := by
    rw [same] at owns
    cases owns
  others other unowned _ := s.put_other _ fun same => unowned content (by rw [same]; exact owns)
  mine other c made := by
    rw [free] at made
    cases made
  gone other c file _ := by
    rw [owns] at file
    cases file
    exact s.put_same name _
  kept _ _ there := there
  fresh _ _ there := .inl there
  known := known
  folders _ there := there
  placed other c same := by
    rw [same] at free
    cases free

end

namespace Upload

def bytes (upload : Upload) : Bytes := upload.chunks.flatten

/-- Every read succeeds and the bytes are within the limit. -/
structure Accepted (upload : Upload) : Prop where
  read : upload.failure = none
  fits : ∀ maxBytes, upload.maxBytes = some maxBytes → upload.bytes.length ≤ maxBytes

end Upload

/-- How an upload ends, with what it holds then. -/
def UploadEnds (hash : Bytes → String) (root : String) (upload : Upload) (h : Holding) :
    Except Exn (String × String × Nat) → Prop
  | .ok stored => upload.Accepted ∧ h = .stored upload.bytes ∧
      stored = (hash upload.bytes, pathFor root (hash upload.bytes), upload.bytes.length)
  | .error _ => ¬upload.Accepted ∧ h = .idle

/-- How the `try` around an upload ends. -/
def Tried (hash : Bytes → String) (root : String) (upload : Upload) (name : Nat) (h : Holding) :
    Except Exn (String × String × Nat) → Prop
  | .ok stored => UploadEnds hash root upload h (.ok stored)
  | .error _ => ¬upload.Accepted ∧ ∃ content, h = .writing name content

/-- How the loop over the chunks ends. -/
def Copied (upload : Upload) (name : Nat) (h : Holding) : Except Exn (Bytes × Nat) → Prop
  | .ok copied => upload.Accepted ∧ h = .writing name upload.bytes ∧
      copied = (upload.bytes, upload.bytes.length)
  | .error _ => ¬upload.Accepted ∧ ∃ content, h = .writing name content

section
variable {hash : Bytes → String} {root : String} {start : Blobs} {upload : Upload} {name : Nat}

theorem exec_write {s : Blobs} {content : Bytes} (held : s.temporaries name = some content) (io : Nat)
    (chunk : Bytes) : (fileSystem.exec io (.write name chunk) s).2 = s.put name (some (content ++ chunk)) := by
  simp only [fileSystem, held]

theorem exec_unlink {s : Blobs} {content : Bytes} (held : s.temporaries name = some content) (io : Nat) :
    fileSystem.exec io (.unlink name) s = (.ok (), s.put name none) := by
  simp only [fileSystem, held]

theorem exec_replace {s : Blobs} {content : Bytes} {sha : String} (held : s.temporaries name = some content)
    (folder : s.folders (folderFor sha) = true) (io : Nat) : fileSystem.exec io (.replace name sha) s =
      (.ok (), { s.put name none with objects := Function.update s.objects sha (some content) }) := by
  simp only [fileSystem, held, folder, if_true]

/-- The bytes hashed, counted and written are those read so far. -/
theorem copyStream_keeps (rest : List Bytes) (hashed : Bytes) (whole : hashed ++ rest.flatten = upload.bytes)
    (nonempty : ∀ chunk ∈ rest, chunk ≠ [])
    (fits : ∀ maxBytes, upload.maxBytes = some maxBytes → hashed.length ≤ maxBytes) :
    (copyStream upload name rest hashed hashed.length).Keeps fileSystem Holding.live (Account hash start)
      (Copied upload name) (.writing name hashed) := by
  induction rest generalizing hashed with
  | nil =>
    rw [List.flatten_nil, List.append_nil] at whole
    subst whole
    rw [copyStream]
    cases read : upload.failure with
    | some exn => exact ⟨fun accepted => by simp [accepted.read] at read, _, rfl⟩
    | none => exact ⟨⟨read, fits⟩, rfl, rfl⟩
  | cons chunk rest ih =>
    have filled : chunk.isEmpty = false := by simpa using nonempty chunk List.mem_cons_self
    rw [List.flatten_cons, ← List.append_assoc] at whole
    rw [copyStream, filled]
    simp only [Bool.false_eq_true, if_false]
    cases limit : upload.maxBytes.filter fun maxBytes => decide (maxBytes < hashed.length + chunk.length) with
    | some maxBytes =>
      obtain ⟨limited, exceeded⟩ := Option.filter_eq_some_iff.mp limit
      refine ⟨?_, hashed, rfl⟩
      intro accepted
      have within := accepted.fits maxBytes limited
      have beyond := of_decide_eq_true exceeded
      rw [← whole, List.length_append, List.length_append] at within
      omega
    | none =>
      refine ⟨trivial, ?_⟩
      intro io s hs i account place _
      obtain ⟨held, _⟩ := account.held i _ name hashed place rfl
      refine ⟨.writing name (hashed ++ chunk), ?_, ?_⟩
      · rw [exec_write held]
        exact account.step place moves_write
      · have later := ih (hashed ++ chunk) whole
          (fun other member => nonempty other (List.mem_cons_of_mem _ member)) ?_
        · rwa [List.length_append] at later
        · intro maxBytes limited
          have unexceeded := Option.filter_eq_none_iff.mp limit maxBytes limited
          rw [decide_eq_true_eq, Nat.not_lt] at unexceeded
          rwa [List.length_append]

theorem placeFile_keeps (injective : Function.Injective hash) (accepted : upload.Accepted) :
    (placeFile hash root name upload.bytes upload.bytes.length).Keeps fileSystem Holding.live
      (Account hash start) (Tried hash root upload name) (.writing name upload.bytes) := by
  refine ⟨trivial, ?_⟩
  intro io s hs i account place _
  obtain ⟨held, _⟩ := account.held i _ name upload.bytes place rfl
  cases there : s.objects (hash upload.bytes) with
  | some content =>
    have same : content = upload.bytes := injective (account.sound _ content there)
    rw [same] at there
    refine ⟨.present name upload.bytes, account.step place (moves_exists held there), ?_⟩
    have answer : (fileSystem.exec io (.destExists (hash upload.bytes)) s).1 = true := by
      simp only [fileSystem, there, Option.isSome_some]
    rw [answer]
    refine ⟨trivial, ?_⟩
    intro io s hs i account place _
    obtain ⟨held, _⟩ := account.held i _ name upload.bytes place rfl
    have known := account.known i _ upload.bytes place rfl
    rw [exec_unlink held]
    refine ⟨.stored upload.bytes, account.step place (moves_unlink rfl rfl ?_), accepted, rfl, rfl⟩
    intro c same
    cases same
    exact known
  | none =>
    refine ⟨.writing name upload.bytes, account.stay place, ?_⟩
    have answer : (fileSystem.exec io (.destExists (hash upload.bytes)) s).1 = false := by
      simp only [fileSystem, there, Option.isSome_none]
    rw [answer]
    refine ⟨trivial, ?_⟩
    intro io s hs i account place _
    obtain ⟨held, _⟩ := account.held i _ name upload.bytes place rfl
    refine ⟨.placed name upload.bytes, account.step place (moves_mkdir held), ?_⟩
    refine ⟨trivial, ?_⟩
    intro io s hs i account place _
    obtain ⟨held, _⟩ := account.held i _ name upload.bytes place rfl
    rw [exec_replace held (account.folder i name upload.bytes place)]
    exact ⟨.stored upload.bytes, account.step place (moves_replace injective account.sound), accepted, rfl, rfl⟩

theorem dropFile_keeps (exn : Exn) (refused : ¬upload.Accepted) (content : Bytes) :
    (dropFile name exn).Keeps fileSystem Holding.live (Account hash start) (UploadEnds hash root upload)
      (.writing name content) := by
  refine ⟨trivial, ?_⟩
  intro io s hs i account place _
  obtain ⟨held, _⟩ := account.held i _ name content place rfl
  refine ⟨_, account.stay place, ?_⟩
  have answer : (fileSystem.exec io (.tmpExists name) s).1 = true := by
    simp only [fileSystem, held, Option.isSome_some]
  rw [answer]
  refine ⟨trivial, ?_⟩
  intro io s hs i account place _
  obtain ⟨held, _⟩ := account.held i _ name content place rfl
  rw [exec_unlink held]
  refine ⟨.idle, account.step place (moves_unlink rfl rfl ?_), refused, rfl⟩
  intro c same
  cases same

theorem putStream_keeps (injective : Function.Injective hash) (upload : Upload) :
    (putStream hash root upload).Keeps fileSystem Holding.live (Account hash start)
      (UploadEnds hash root upload) .idle := by
  refine ⟨trivial, ?_⟩
  intro name s hs i account place free
  refine ⟨.writing name [], account.step place (moves_mkstemp free), ?_⟩
  have copies : (copyStream upload name upload.chunks [] 0).Keeps fileSystem Holding.live (Account hash start)
      (Copied upload name) (.writing name []) :=
    copyStream_keeps upload.chunks [] rfl upload.nonempty fun _ _ => Nat.zero_le _
  apply Program.Keeps.handle (Q := Tried hash root upload name)
  · apply copies.bind
    · rintro h ⟨hashed, size⟩ ⟨accepted, rfl, same⟩
      cases same
      exact placeFile_keeps injective accepted
    · intro h exn failed
      exact failed
  · intro h stored ended
    exact ended
  · rintro h exn ⟨refused, content, rfl⟩
    exact dropFile_keeps exn refused content

end

/-! ## Runs of uploads -/

section
variable {hash : Bytes → String} {root : String} {start : Blobs}

/-- Temporary files other than those there were are held. -/
theorem Account.temporaries {hs : List Holding} {s : Blobs} (account : Account hash start hs s) {name : Nat}
    (changed : s.temporaries name ≠ start.temporaries name) :
    ∃ (i : Nat) (h : Holding) (content : Bytes), hs[i]? = some h ∧ h.file = some (name, content) := by
  cases initial : start.temporaries name with
  | some content => exact absurd ((account.before name content initial).trans initial.symm) changed
  | none =>
    cases there : s.temporaries name with
    | none => exact absurd (there.trans initial.symm) changed
    | some content =>
      rcases account.owned name content there with old | ⟨i, h, place, file⟩
      · rw [initial] at old
        cases old
      · exact ⟨i, h, content, place, file⟩

/-- An object that no upload has stored is as it was. -/
theorem Account.objects {hs : List Holding} {s : Blobs} (account : Account hash start hs s) {sha : String}
    (unstored : ∀ content, .stored content ∈ hs → hash content ≠ sha) :
    s.objects sha = start.objects sha := by
  cases there : s.objects sha with
  | some content =>
    rcases account.fresh sha content there with old | ⟨i, place⟩
    · exact old.symm
    · exact absurd (account.sound sha content there) (unstored content (List.mem_of_getElem? place))
  | none =>
    cases initial : start.objects sha with
    | none => rfl
    | some content =>
      rw [account.kept sha content initial] at there
      cases there

theorem UploadEnds.file {upload : Upload} {h : Holding} {out : Except Exn (String × String × Nat)}
    (ends : UploadEnds hash root upload h out) : h.file = none := by
  cases out with
  | ok stored =>
    rw [ends.2.1]
    rfl
  | error exn =>
    rw [ends.2]
    rfl

/-- A call on its own: what it answers, and the store it leaves. -/
structure ServedAlone (hash : Bytes → String) (root : String) (upload : Upload) (s : Blobs)
    (out : Except Exn (String × String × Nat)) (t : Blobs) : Prop where
  returned : upload.Accepted →
    out = .ok (hash upload.bytes, pathFor root (hash upload.bytes), upload.bytes.length) ∧
      t.objects = Function.update s.objects (hash upload.bytes) (some upload.bytes)
  raised : ¬upload.Accepted → (∃ exn, out = .error exn) ∧ t.objects = s.objects
  temporaries : t.temporaries = s.temporaries
  sound : t.Sound hash

theorem served_alone (injective : Function.Injective hash) {upload : Upload} {s t : Blobs}
    {out : Except Exn (String × String × Nat)} (sound : s.Sound hash)
    (run : (putStream hash root upload).Runs fileSystem s out t) : ServedAlone hash root upload s out t := by
  obtain ⟨h, account, ends⟩ := (putStream_keeps injective upload).runs (Account.begin sound).join run
  have temporaries : t.temporaries = s.temporaries := by
    funext name
    by_contra changed
    obtain ⟨i, k, content, place, file⟩ := account.temporaries changed
    cases List.mem_singleton.mp (List.mem_of_getElem? place)
    rw [ends.file] at file
    cases file
  cases out with
  | ok stored =>
    obtain ⟨accepted, rfl, rfl⟩ := ends
    refine ⟨fun _ => ⟨rfl, ?_⟩, fun refused => absurd accepted refused, temporaries, account.sound⟩
    funext sha
    by_cases same : sha = hash upload.bytes
    · rw [same, Function.update_self]
      exact account.known 0 _ upload.bytes rfl rfl
    · rw [Function.update_of_ne same]
      apply account.objects
      intro content member
      cases List.mem_singleton.mp member
      exact Ne.symm same
  | error exn =>
    obtain ⟨refused, rfl⟩ := ends
    refine ⟨fun accepted => absurd accepted refused, fun _ => ⟨⟨exn, rfl⟩, ?_⟩, temporaries, account.sound⟩
    funext sha
    apply account.objects
    intro content member
    cases List.mem_singleton.mp member

/-- The name of a new temporary file can always be chosen. -/
theorem putStream_ends (upload : Upload) (s : Blobs) :
    ∃ out t, (putStream hash root upload).Runs fileSystem s out t := by
  apply Program.AllCalls.ends (P := fun _ => True)
  · exact .always (fun _ => trivial) _
  · intro op s _
    obtain ⟨bound, above⟩ := s.finite
    cases op with
    | mkstemp => exact ⟨bound, above bound (Nat.le_refl bound)⟩
    | _ => exact ⟨0, trivial⟩

/-- Uploads that run at once, seen from the store they began with. -/
structure Uploaded (hash : Bytes → String) (root : String) (start : Blobs)
    (q : Pool Upload FileOp FileOp.Answer Exn (String × String × Nat) Blobs) : Prop where
  sound : q.store.Sound hash
  kept : ∀ sha content, start.objects sha = some content → q.store.objects sha = some content
  /-- Objects are those there were, and those of calls that have returned. -/
  fresh : ∀ sha content, q.store.objects sha = some content → start.objects sha = some content ∨
    ∃ th ∈ q.threads, th.program = .ret (sha, pathFor root sha, content.length) ∧ th.request.bytes = content
  returned : ∀ th ∈ q.threads, ∀ stored, th.program = .ret stored → th.request.Accepted ∧
    stored = (hash th.request.bytes, pathFor root (hash th.request.bytes), th.request.bytes.length) ∧
    q.store.objects (hash th.request.bytes) = some th.request.bytes
  raised : ∀ th ∈ q.threads, ∀ exn, th.program = .raise exn → ¬th.request.Accepted
  /-- Each temporary file made since belongs to a call in progress, and to no other. -/
  temporaries : ∃ owner : Nat → Nat, ∀ name, q.store.temporaries name ≠ start.temporaries name →
    (∃ th, q.threads[owner name]? = some th ∧ th.program.finished = false) ∧
    ∀ other, q.store.temporaries other ≠ start.temporaries other → owner other = owner name → other = name
  quiet : q.Quiet → q.store.temporaries = start.temporaries

/-- A call that holds a temporary file is in progress. -/
theorem holder_unfinished {th : Thread Upload FileOp FileOp.Answer Exn (String × String × Nat)} {h : Holding}
    (keeps : th.program.Keeps fileSystem Holding.live (Account hash start) (UploadEnds hash root th.request) h)
    {name : Nat} {content : Bytes} (file : h.file = some (name, content)) : th.program.finished = false := by
  obtain ⟨request, program⟩ := th
  cases program with
  | ret stored =>
    rw [UploadEnds.file keeps] at file
    cases file
  | raise exn =>
    rw [UploadEnds.file keeps] at file
    cases file
  | call op next => rfl

/-- A call that has stored its bytes has returned. -/
theorem storer_returned {th : Thread Upload FileOp FileOp.Answer Exn (String × String × Nat)} {content : Bytes}
    (keeps : th.program.Keeps fileSystem Holding.live (Account hash start) (UploadEnds hash root th.request)
      (.stored content)) : th.request.bytes = content ∧
      th.program = .ret (hash content, pathFor root (hash content), content.length) := by
  obtain ⟨request, program⟩ := th
  cases program with
  | ret stored =>
    obtain ⟨_, same, result⟩ := keeps
    cases same
    exact ⟨rfl, congrArg Program.ret result⟩
  | raise exn =>
    obtain ⟨_, same⟩ := keeps
    cases same
  | call op next => exact False.elim keeps.1

theorem uploaded_of_accounted {q : Pool Upload FileOp FileOp.Answer Exn (String × String × Nat) Blobs}
    (accounted : (uploads hash root).Accounted Holding.live (Account hash start) (UploadEnds hash root) q) :
    Uploaded hash root start q := by
  obtain ⟨hs, account, keeps⟩ := accounted
  have holder {name : Nat} (changed : q.store.temporaries name ≠ start.temporaries name) :
      ∃ (i : Nat) (h : Holding) (content : Bytes), hs[i]? = some h ∧ h.file = some (name, content) ∧
        ∃ th, q.threads[i]? = some th ∧ th.program.finished = false := by
    obtain ⟨i, h, content, place, file⟩ := account.temporaries changed
    obtain ⟨th, thread, judged⟩ := Related.forall₂_place keeps.flip place
    exact ⟨i, h, content, place, file, th, thread, holder_unfinished judged file⟩
  have ended {th : Thread Upload FileOp FileOp.Answer Exn (String × String × Nat)} (member : th ∈ q.threads) :
      ∃ h ∈ hs, th.program.Keeps fileSystem Holding.live (Account hash start) (UploadEnds hash root th.request) h := by
    obtain ⟨i, place⟩ := List.mem_iff_getElem?.mp member
    obtain ⟨h, thread, judged⟩ := Related.forall₂_place keeps place
    exact ⟨h, List.mem_of_getElem? thread, judged⟩
  refine ⟨account.sound, account.kept, ?_, ?_, ?_, ?_, ?_⟩
  · intro sha content there
    rcases account.fresh sha content there with old | ⟨i, place⟩
    · exact .inl old
    · obtain ⟨th, thread, judged⟩ := Related.forall₂_place keeps.flip place
      obtain ⟨bytes, returned⟩ := storer_returned judged
      rw [account.sound sha content there] at returned
      exact .inr ⟨th, List.mem_of_getElem? thread, returned, bytes⟩
  · rintro ⟨request, program⟩ member stored rfl
    obtain ⟨h, inside, accepted, rfl, same⟩ := ended member
    obtain ⟨i, place⟩ := List.mem_iff_getElem?.mp inside
    exact ⟨accepted, same, account.known i _ request.bytes place rfl⟩
  · rintro ⟨request, program⟩ member exn rfl
    obtain ⟨h, _, refused, _⟩ := ended member
    exact refused
  · classical
    refine ⟨fun name => if changed : q.store.temporaries name ≠ start.temporaries name then
      (holder changed).choose else 0, ?_⟩
    intro name changed
    have held := (holder changed).choose_spec
    simp only [dif_pos changed]
    obtain ⟨h, content, place, file, th, thread, running⟩ := held
    refine ⟨⟨th, thread, running⟩, ?_⟩
    intro other also same
    simp only [dif_pos also] at same
    obtain ⟨k, content', place', file', _⟩ := (holder also).choose_spec
    rw [same, place] at place'
    cases place'
    rw [file] at file'
    cases file'
    rfl
  · intro quiet
    funext name
    by_contra changed
    obtain ⟨i, h, content, _, _, th, thread, running⟩ := holder changed
    have finished := quiet th (List.mem_of_getElem? thread)
    rw [running] at finished
    cases finished

/-- The store is not restarted. -/
def Unrestarted (hash : Bytes → String) (root : String)
    (p : Pool Upload FileOp FileOp.Answer Exn (String × String × Nat) Blobs) (l : Label Upload Nat) : Prop :=
  (uploads hash root).Lawful p l ∧ l ≠ .restart

end

/-- An injective function that is the digest on the bytes of `abc`. -/
def digestOfAbc (content : Bytes) : String :=
  if content = [97, 98, 99] then Sha256.hexdigest ['a', 'b', 'c']
  else String.ofList ('-' :: content.map Char.ofUInt8)

theorem char_injective {a b : UInt8} (same : Char.ofUInt8 a = Char.ofUInt8 b) : a = b := by
  have codes : a.toUInt32 = b.toUInt32 := congrArg Char.val same
  have numbers := congrArg UInt32.toNat codes
  rw [UInt8.toNat_toUInt32, UInt8.toNat_toUInt32] at numbers
  exact UInt8.toNat_inj.mp numbers

theorem digestOfAbc_injective : Function.Injective digestOfAbc := by
  have head : ∃ first rest, Sha256.hexdigest ['a', 'b', 'c'] = String.ofList (first :: rest) ∧ first ≠ '-' :=
    ⟨'b', "a7816bf8f01cfea414140de5dae2223b00361a396177a9cb410ff61f20015ad".toList, by decide +kernel, by decide⟩
  obtain ⟨first, rest, digest, unlike⟩ := head
  intro one two same
  simp only [digestOfAbc, digest] at same
  split at same
  · split at same
    · simp_all
    · rw [String.ofList_inj] at same
      exact absurd (List.cons.inj same).1 unlike
  · split at same
    · rw [String.ofList_inj] at same
      exact absurd (List.cons.inj same).1.symm unlike
    · rw [String.ofList_inj] at same
      exact List.map_injective_iff.mpr (fun _ _ => char_injective) (List.cons.inj same).2

def emptyStore : Blobs where
  objects _ := none
  folders _ := false
  temporaries _ := none
  finite := ⟨0, fun _ _ => rfl⟩

def abcUpload : Upload where
  chunks := [[97], [98, 99]]
  nonempty := by decide
  maxBytes := some 3

end N4Cluster
