import N4Cluster.Base.JsonText
import N4Cluster.Base.Sha256
import N4Cluster.Base.Sorting
import N4Cluster.Server.Handlers
import Mathlib.Data.String.Basic
import N4Cluster.Base.Related

/-! Fingerprints of inline pipelines. The client hashes the document its author holds, the
worker the one that came to it as JSON, where every key is a text: the hashes are of one
text exactly if each mapping has the same order by its keys as by their texts. -/
namespace N4Cluster
open JsonText

/-! ## Documents as their author holds them -/

/-- A key of a dictionary: a number, or a text. -/
inductive PyKey where
  | int (value : Int)
  | str (value : String)
deriving DecidableEq

namespace PyKey

/-- The key as `json.dumps` writes it. -/
def text : PyKey → String
  | .int value => toString value
  | .str value => value

def isText : PyKey → Bool
  | .int _ => false
  | .str _ => true

def number : PyKey → Int
  | .int value => value
  | .str _ => 0

end PyKey

inductive PyDoc where
  | null
  | bool (value : Bool)
  | int (value : Int)
  | float (value : PyFloat)
  | str (value : String)
  | arr (items : List PyDoc)
  | obj (fields : List (PyKey × PyDoc))

def PyDoc.isNull : PyDoc → Bool
  | .null => true
  | _ => false

mutual

/-- The document as JSON: its keys are texts. -/
def PyDoc.encoded : PyDoc → Json
  | .null => .null
  | .bool value => .bool value
  | .int value => .int value
  | .float value => .float value
  | .str value => .str value
  | .arr items => .arr (PyDoc.allEncoded items)
  | .obj fields => .obj (PyDoc.fieldsEncoded fields)

def PyDoc.allEncoded : List PyDoc → List Json
  | [] => []
  | doc :: rest => doc.encoded :: PyDoc.allEncoded rest

def PyDoc.fieldsEncoded : List (PyKey × PyDoc) → Dict
  | [] => []
  | (key, doc) :: rest => (key.text, doc.encoded) :: PyDoc.fieldsEncoded rest

end

mutual

/-- A JSON document as Python reads it. -/
def Json.python : Json → PyDoc
  | .null => .null
  | .bool value => .bool value
  | .int value => .int value
  | .float value => .float value
  | .str value => .str value
  | .arr items => .arr (Json.allPython items)
  | .obj fields => .obj (Json.fieldsPython fields)

def Json.allPython : List Json → List PyDoc
  | [] => []
  | doc :: rest => doc.python :: Json.allPython rest

def Json.fieldsPython : List (String × Json) → List (PyKey × PyDoc)
  | [] => []
  | (name, doc) :: rest => (.str name, doc.python) :: Json.fieldsPython rest

end

/-- How Python writes a finite float: in the characters of a number. -/
structure FloatText where
  write : Rat → List Char
  plain : ∀ value, (write value).all ordinary = true

def FloatText.float (floats : FloatText) : PyFloat → List Char
  | .fin value => floats.write value
  | .nan => "NaN".toList
  | .posInf => "Infinity".toList
  | .negInf => "-Infinity".toList

/-- `sorted(dict.items())`: numbers and texts have no order between them. -/
def sortItems {β : Type} (items : List (PyKey × β)) : Except PyErr (List (PyKey × β)) :=
  if items.all fun item => item.1.isText then .ok (Sorting.sorted (fun item => item.1.text) items)
  else if items.all fun item => !item.1.isText then .ok (Sorting.sorted (fun item => item.1.number) items)
  else .error (.typeError "'<' not supported between instances of 'str' and 'int'")

def memberText (item : PyKey × List Char) : List Char := quote item.1.text ++ ':' :: item.2

mutual

/-- `_canonical`: `json.dumps` with sorted keys and no blanks. -/
def PyDoc.canonical (floats : FloatText) : PyDoc → Except PyErr (List Char)
  | .null => .ok "null".toList
  | .bool value => .ok (if value then "true" else "false").toList
  | .int value => .ok (toString value).toList
  | .float value => .ok (floats.float value)
  | .str value => .ok (quote value)
  | .arr items => do
    let texts ← PyDoc.allCanonical floats items
    return '[' :: commas texts ++ [']']
  | .obj fields => do
    let items ← sortItems (← PyDoc.fieldsCanonical floats fields)
    return '{' :: commas (items.map memberText) ++ ['}']

def PyDoc.allCanonical (floats : FloatText) : List PyDoc → Except PyErr (List (List Char))
  | [] => .ok []
  | doc :: rest => do
    let text ← doc.canonical floats
    return text :: (← PyDoc.allCanonical floats rest)

def PyDoc.fieldsCanonical (floats : FloatText) : List (PyKey × PyDoc) → Except PyErr (List (PyKey × List Char))
  | [] => .ok []
  | (key, doc) :: rest => do
    let text ← doc.canonical floats
    return (key, text) :: (← PyDoc.fieldsCanonical floats rest)

end

section
variable (floats : FloatText) (hexdigest : List Char → String)

def fingerprintObj (doc : PyDoc) : Except PyErr String := do
  return "sha256:" ++ hexdigest (← doc.canonical floats)

/-- A `PipelineRef` as the client holds it. -/
structure ClientPipelineRef where
  kind : PipelineKind
  path : Option String := none
  artifactId : Option String := none
  inline : Option PyDoc := none
  bundleArtifactId : Option String := none
  entrypoint : Option String := none
  expectedFingerprint : Option String := none
  kindFields : (match kind with
    | .path => path.isSome
    | .artifact => artifactId.isSome
    | .inlineJson => inline.isSome
    | .pythonEntrypoint => entrypoint.isSome) = true := by rfl
  inlineGiven : inline.all (fun doc => !doc.isNull) = true := by rfl

inductive PipelineInput where
  | ref (ref : ClientPipelineRef)
  | path (path : String)

/-- `_as_pipeline`. -/
def asPipeline (input : PipelineInput) : Except PyErr ClientPipelineRef := do
  let ref := match input with
    | .ref ref => ref
    | .path path => { kind := .path, path := some path }
  match ref.inline with
  | some doc =>
    if ref.kind = .inlineJson ∧ ref.expectedFingerprint.isNone then
      return { ref with expectedFingerprint := some (← fingerprintObj floats hexdigest doc) }
    else return ref
  | none => return ref

/-- `_pipeline_fingerprint`; `file` hashes the file at a path. -/
def pipelineFingerprint (file : Json → Except PyErr String) (ref : PipelineRef) (spec : Dict) :
    Except PyErr String :=
  if ref.kind = .inlineJson then
    fingerprintObj floats hexdigest ((ref.inline.map Json.python).getD .null)
  else
    match spec.lookup "mode", spec.lookup "path" with
    | some (.str "path"), some path => file path
    | some (.str "path"), none => .error (.keyError "path")
    | _, _ =>
      if ref.kind = .pythonEntrypoint then
        fingerprintObj floats hexdigest (.obj [(.str "entrypoint", (ref.entrypoint.map PyDoc.str).getD .null)])
      else fingerprintObj floats hexdigest (Json.python (.obj spec))

end

/-! ## The way to the worker -/

theorem encoded_null (doc : PyDoc) : doc.encoded.isNull = doc.isNull := by
  cases doc <;> rfl

/-- The reference as JSON. -/
def ClientPipelineRef.encoded (ref : ClientPipelineRef) : PipelineRef where
  kind := ref.kind
  path := ref.path
  artifactId := ref.artifactId
  inline := ref.inline.map PyDoc.encoded
  bundleArtifactId := ref.bundleArtifactId
  entrypoint := ref.entrypoint
  expectedFingerprint := ref.expectedFingerprint
  kindFields := by
    have fields := ref.kindFields
    split at fields <;> simp_all
  inlineGiven := by
    have given := ref.inlineGiven
    cases inline : ref.inline with
    | none => rfl
    | some doc => simpa [inline, encoded_null] using given

/-- Written to a body, which takes no `nan` and nothing infinite, and validated. -/
def sent (ref : PipelineRef) : Except PyErr PipelineRef :=
  if (pipelineRef.dump ref).finite then pipelineRef.validate (pipelineRef.dump ref)
  else .error (.valueError "Out of range float values are not JSON compliant")

/-- Written to a column and validated. -/
def kept (ref : PipelineRef) : Except PyErr PipelineRef := pipelineRef.validate (pipelineRef.dump ref)

/-- Through the submission, the stored payload of a task and the lease. -/
def leased (ref : ClientPipelineRef) : Except PyErr PipelineRef :=
  sent ref.encoded >>= kept >>= sent

/-- The client's reference to an inline document. -/
def inlineRef (doc : PyDoc) (given : doc.isNull = false) : ClientPipelineRef where
  kind := .inlineJson
  inline := some doc
  inlineGiven := by rw [Option.all_some, given]; rfl

section
variable {Q : PyDoc → Prop}

mutual

/-- Induction over a document, with what holds of all items or of all values of a mapping. -/
theorem PyDoc.nested (plain : ∀ doc : PyDoc, (∀ items, doc ≠ .arr items) → (∀ fields, doc ≠ .obj fields) → Q doc)
    (arr : ∀ items : List PyDoc, (∀ doc ∈ items, Q doc) → Q (.arr items))
    (obj : ∀ fields : List (PyKey × PyDoc), (∀ field ∈ fields, Q field.2) → Q (.obj fields)) : (doc : PyDoc) → Q doc
  | .null => plain _ nofun nofun
  | .bool _ => plain _ nofun nofun
  | .int _ => plain _ nofun nofun
  | .float _ => plain _ nofun nofun
  | .str _ => plain _ nofun nofun
  | .arr items => arr items (PyDoc.allNested plain arr obj items)
  | .obj fields => obj fields (PyDoc.fieldsNested plain arr obj fields)

theorem PyDoc.allNested (plain : ∀ doc : PyDoc, (∀ items, doc ≠ .arr items) → (∀ fields, doc ≠ .obj fields) → Q doc)
    (arr : ∀ items : List PyDoc, (∀ doc ∈ items, Q doc) → Q (.arr items))
    (obj : ∀ fields : List (PyKey × PyDoc), (∀ field ∈ fields, Q field.2) → Q (.obj fields)) :
    (items : List PyDoc) → ∀ doc ∈ items, Q doc
  | [] => fun _ member => nomatch member
  | first :: rest => List.forall_mem_cons.mpr
      ⟨PyDoc.nested plain arr obj first, PyDoc.allNested plain arr obj rest⟩

theorem PyDoc.fieldsNested (plain : ∀ doc : PyDoc, (∀ items, doc ≠ .arr items) → (∀ fields, doc ≠ .obj fields) → Q doc)
    (arr : ∀ items : List PyDoc, (∀ doc ∈ items, Q doc) → Q (.arr items))
    (obj : ∀ fields : List (PyKey × PyDoc), (∀ field ∈ fields, Q field.2) → Q (.obj fields)) :
    (fields : List (PyKey × PyDoc)) → ∀ field ∈ fields, Q field.2
  | [] => fun _ member => nomatch member
  | (_, doc) :: rest => List.forall_mem_cons.mpr
      ⟨PyDoc.nested plain arr obj doc, PyDoc.fieldsNested plain arr obj rest⟩

end
end

mutual

/-- What holds of the keys of every mapping in the document. -/
def PyDoc.Every (R : List PyKey → Prop) : PyDoc → Prop
  | .arr items => PyDoc.AllEvery R items
  | .obj fields => R (fields.map Prod.fst) ∧ PyDoc.FieldsEvery R fields
  | _ => True

def PyDoc.AllEvery (R : List PyKey → Prop) : List PyDoc → Prop
  | [] => True
  | doc :: rest => doc.Every R ∧ PyDoc.AllEvery R rest

def PyDoc.FieldsEvery (R : List PyKey → Prop) : List (PyKey × PyDoc) → Prop
  | [] => True
  | (_, doc) :: rest => doc.Every R ∧ PyDoc.FieldsEvery R rest

end

section
variable {R : List PyKey → Prop} {floats : FloatText}

theorem every_arr {items : List PyDoc} : (PyDoc.arr items).Every R ↔ ∀ doc ∈ items, doc.Every R := by
  change PyDoc.AllEvery R items ↔ _
  induction items with
  | nil => simp [PyDoc.AllEvery]
  | cons doc rest ih => simp [PyDoc.AllEvery, ih]

theorem every_obj {fields : List (PyKey × PyDoc)} :
    (PyDoc.obj fields).Every R ↔ R (fields.map Prod.fst) ∧ ∀ field ∈ fields, field.2.Every R := by
  change _ ∧ PyDoc.FieldsEvery R fields ↔ _
  refine and_congr Iff.rfl ?_
  induction fields with
  | nil => simp [PyDoc.FieldsEvery]
  | cons field rest ih => simp [PyDoc.FieldsEvery, ih]

theorem arr_python (items : List PyDoc) :
    (PyDoc.arr items).encoded.python = .arr (items.map fun doc => doc.encoded.python) := by
  refine congrArg PyDoc.arr ?_
  induction items with
  | nil => rfl
  | cons doc rest ih => rw [PyDoc.allEncoded, Json.allPython, ih, List.map_cons]

theorem obj_python (fields : List (PyKey × PyDoc)) : (PyDoc.obj fields).encoded.python =
    .obj (fields.map fun field => (.str field.1.text, field.2.encoded.python)) := by
  refine congrArg PyDoc.obj ?_
  induction fields with
  | nil => rfl
  | cons field rest ih => rw [PyDoc.fieldsEncoded, Json.fieldsPython, ih, List.map_cons]

theorem bind_ok {α β : Type} {first : Except PyErr α} {next : α → Except PyErr β} {result : β} :
    (first >>= next) = .ok result ↔ ∃ value, first = .ok value ∧ next value = .ok result := by
  cases first with
  | error error => simp [bind, Except.bind]
  | ok value => simp [bind, Except.bind]

theorem allCanonical_ok {items : List PyDoc} {texts : List (List Char)} :
    PyDoc.allCanonical floats items = .ok texts ↔
      List.Forall₂ (fun doc text => doc.canonical floats = .ok text) items texts := by
  induction items generalizing texts with
  | nil => simp [PyDoc.allCanonical, eq_comm]
  | cons doc rest ih =>
    rw [PyDoc.allCanonical, bind_ok, List.forall₂_cons_left_iff]
    simp only [bind_ok, ih, pure, Except.pure, Except.ok.injEq]
    tauto

theorem fieldsCanonical_ok {fields : List (PyKey × PyDoc)} {items : List (PyKey × List Char)} :
    PyDoc.fieldsCanonical floats fields = .ok items ↔ List.Forall₂ (fun field item =>
      item.1 = field.1 ∧ field.2.canonical floats = .ok item.2) fields items := by
  induction fields generalizing items with
  | nil => simp [PyDoc.fieldsCanonical, eq_comm]
  | cons field rest ih =>
    obtain ⟨key, doc⟩ := field
    rw [PyDoc.fieldsCanonical, bind_ok, List.forall₂_cons_left_iff]
    simp only [bind_ok, ih, pure, Except.pure, Except.ok.injEq]
    constructor
    · rintro ⟨text, first, others, later, rfl⟩
      exact ⟨(key, text), others, ⟨rfl, first⟩, later, rfl⟩
    · rintro ⟨⟨_, text⟩, others, ⟨rfl, first⟩, later, rfl⟩
      exact ⟨text, first, others, later, rfl⟩

theorem sortItems_perm {β : Type} {items sorted : List (PyKey × β)} (ran : sortItems items = .ok sorted) :
    sorted.Perm items := by
  unfold sortItems at ran
  split at ran
  · cases ran
    exact Sorting.sorted_perm _ items
  · split at ran
    · cases ran
      exact Sorting.sorted_perm _ items
    · contradiction

theorem digit_ordinary {c : Char} (digit : c.isDigit = true) : ordinary c = true := by
  have bounds := Char.isDigit_iff_toNat.mp digit
  simp only [ordinary, List.mem_cons, List.not_mem_nil, or_false, decide_eq_true_eq]
  rintro (rfl | rfl | rfl | rfl | rfl | rfl) <;> revert bounds <;> decide

theorem nat_ordinary (n : Nat) : n.repr.toList.all ordinary = true := by
  rw [Nat.toList_repr]
  exact List.all_eq_true.mpr fun c member =>
    digit_ordinary (Nat.isDigit_of_mem_toDigits (by decide) (by decide) member)

theorem int_ordinary (n : Int) : (toString n).toList.all ordinary = true := by
  rw [Int.toString_eq_repr, Int.repr_eq_if]
  split
  · exact nat_ordinary _
  · rw [String.toList_append, List.all_append, nat_ordinary]
    rfl

theorem float_ordinary (value : PyFloat) : (floats.float value).all ordinary = true := by
  cases value with
  | fin value => exact floats.plain value
  | nan | posInf | negInf => rfl

theorem memberText_whole {item : PyKey × List Char} (value : Whole item.2) : Whole (memberText item) :=
  (whole_quote _).append (Whole.append (x := [':']) (whole_ordinary rfl) value)

/-- Every canonical text is passed over as a whole. -/
theorem canonical_whole (doc : PyDoc) {text : List Char} (written : doc.canonical floats = .ok text) : Whole text := by
  induction doc using PyDoc.nested generalizing text with
  | plain doc noArr noObj =>
    cases doc with
    | null =>
      cases written
      exact whole_ordinary rfl
    | bool value =>
      cases written
      cases value <;> exact whole_ordinary rfl
    | int value =>
      cases written
      exact whole_ordinary (int_ordinary value)
    | float value =>
      cases written
      exact whole_ordinary (float_ordinary value)
    | str value =>
      cases written
      exact whole_quote value
    | arr items => exact absurd rfl (noArr items)
    | obj fields => exact absurd rfl (noObj fields)
  | arr items ih =>
    obtain ⟨texts, each, same⟩ := bind_ok.mp written
    cases same
    refine whole_bracketed (fun t member => ?_) (.inl rfl) (.inl rfl)
    obtain ⟨doc, inside, written⟩ := Related.forall₂_right (allCanonical_ok.mp each) member
    exact ih doc inside written
  | obj fields ih =>
    obtain ⟨items, each, rest⟩ := bind_ok.mp written
    obtain ⟨sorted, ran, same⟩ := bind_ok.mp rest
    cases same
    refine whole_bracketed (fun t member => ?_) (.inr rfl) (.inr rfl)
    obtain ⟨item, inside, rfl⟩ := List.mem_map.mp member
    have listed := (sortItems_perm ran).mem_iff.mp inside
    obtain ⟨field, held, _, written⟩ := Related.forall₂_right (fieldsCanonical_ok.mp each) listed
    exact memberText_whole (ih field held written)

/-! ## When the texts agree -/

/-- The keys are texts, or numbers in the order of their texts. -/
def KeysAgree (keys : List PyKey) : Prop :=
  (∀ key ∈ keys, key.isText = true) ∨ (∀ key ∈ keys, key.isText = false) ∧
    ∀ a ∈ keys, ∀ b ∈ keys, a.number < b.number → a.text < b.text

/-- No two keys are one text. -/
def Apart (keys : List PyKey) : Prop := (keys.map PyKey.text).Nodup

/-- An item as it is written: by the text of its key. -/
def spelled (item : PyKey × List Char) : String × List Char := (item.1.text, item.2)

/-- An item with the text of its key for the key. -/
def texted (item : PyKey × List Char) : PyKey × List Char := (.str item.1.text, item.2)

theorem memberText_injective {first second : List (PyKey × List Char)}
    (same : first.map memberText = second.map memberText) : first.map spelled = second.map spelled := by
  have pairs : Function.Injective fun entry : String × List Char => quote entry.1 ++ ':' :: entry.2 := by
    rintro ⟨a, t⟩ ⟨b, u⟩ same
    obtain ⟨rfl, rest⟩ := quote_split same
    obtain rfl : t = u := (List.cons.inj rest).2
    rfl
  refine List.map_injective_iff.mpr pairs ?_
  rw [List.map_map, List.map_map]
  exact same

theorem sortItems_texted (items : List (PyKey × List Char)) : sortItems (items.map texted) =
    .ok (Sorting.sorted (fun item => item.1.text) (items.map texted)) :=
  if_pos (by rw [List.all_map]; exact List.all_eq_true.mpr fun _ _ => rfl)

theorem numbers_texts {a b : PyKey} (first : a.isText = false) (second : b.isText = false)
    (below : a.number < b.number → a.text < b.text) (above : b.number < a.number → b.text < a.text) :
    a.number ≤ b.number ↔ a.text ≤ b.text := by
  constructor
  · intro least
    rcases least.lt_or_eq with less | same
    · exact (below less).le
    · cases a with
      | str => contradiction
      | int m =>
        cases b with
        | str => contradiction
        | int n =>
          obtain rfl : m = n := same
          exact le_refl _
  · intro least
    by_contra greater
    exact absurd (above (not_le.mp greater)) (not_lt.mpr least)

/-- Where the keys agree, sorting commutes with turning them to texts. -/
theorem sortItems_agree {items : List (PyKey × List Char)} (agree : KeysAgree (items.map Prod.fst)) :
    ∃ sorted, sortItems items = .ok sorted ∧
      sorted.map texted = Sorting.sorted (fun item => item.1.text) (items.map texted) := by
  have texts : (∀ key ∈ items.map Prod.fst, key.isText = true) → ∃ sorted, sortItems items = .ok sorted ∧
      sorted.map texted = Sorting.sorted (fun item => item.1.text) (items.map texted) := by
    intro all
    refine ⟨_, if_pos (List.all_eq_true.mpr fun item member => all _ (List.mem_map_of_mem member)), ?_⟩
    exact List.map_insertionSort _ _ texted items fun _ _ _ _ => Iff.rfl
  rcases agree with all | ⟨none, agree⟩
  · exact texts all
  · cases items with
    | nil => exact texts fun _ member => nomatch member
    | cons first rest =>
      have plain : ((first :: rest).all fun item => item.1.isText) = false := by
        rw [List.all_cons, none _ (List.mem_map_of_mem List.mem_cons_self), Bool.false_and]
      have numbers : ((first :: rest).all fun item => !item.1.isText) = true :=
        List.all_eq_true.mpr fun item member => by rw [none _ (List.mem_map_of_mem member)]; rfl
      refine ⟨_, (if_neg (by rw [plain]; decide)).trans (if_pos numbers), ?_⟩
      refine List.map_insertionSort _ _ texted _ fun a here b there => ?_
      exact numbers_texts (none _ (List.mem_map_of_mem here)) (none _ (List.mem_map_of_mem there))
        (agree _ (List.mem_map_of_mem here) _ (List.mem_map_of_mem there))
        (agree _ (List.mem_map_of_mem there) _ (List.mem_map_of_mem here))

/-- Where the sorted items are written alike, the keys agree. -/
theorem sorted_agree {items items' sorted sorted' : List (PyKey × List Char)} (ran : sortItems items = .ok sorted)
    (ran' : sortItems items' = .ok sorted') (all : ∀ item ∈ items', item.1.isText = true)
    (apart : Apart (items.map Prod.fst)) (same : sorted.map spelled = sorted'.map spelled) :
    KeysAgree (items.map Prod.fst) := by
  have order : sorted.Pairwise fun a b => a.1.text ≤ b.1.text := by
    cases (if_pos (List.all_eq_true.mpr all)).symm.trans ran'
    have later := Sorting.sorted_pairwise (fun item : PyKey × List Char => item.1.text) items'
    have texts : (sorted.map spelled).Pairwise fun a b => a.1 ≤ b.1 := by
      rw [same]
      exact (List.pairwise_map (f := spelled)).mpr later
    exact (List.pairwise_map (f := spelled)).mp texts
  unfold sortItems at ran
  split at ran
  · rename_i texts
    refine .inl fun key member => ?_
    obtain ⟨item, inside, rfl⟩ := List.mem_map.mp member
    exact List.all_eq_true.mp texts item inside
  · split at ran
    · rename_i numbers
      cases ran
      refine .inr ⟨fun key member => ?_, fun a here b there less => ?_⟩
      · obtain ⟨item, inside, rfl⟩ := List.mem_map.mp member
        simpa using List.all_eq_true.mp numbers item inside
      · obtain ⟨first, inside, rfl⟩ := List.mem_map.mp here
        obtain ⟨second, beside, rfl⟩ := List.mem_map.mp there
        have perm := Sorting.sorted_perm (fun item : PyKey × List Char => item.1.number) items
        have ordered := Sorting.sorted_pairwise (fun item : PyKey × List Char => item.1.number) items
        have least : first.1.text ≤ second.1.text := by
          refine List.Pairwise.forall_of_forall_of_flip
            (R := fun a b : PyKey × List Char => a.1.number < b.1.number → a.1.text ≤ b.1.text)
            (fun a _ less => absurd less (lt_irrefl _)) (order.imp ?_) (ordered.imp ?_)
            (perm.mem_iff.mpr inside) (perm.mem_iff.mpr beside) less
          · exact fun texts _ => texts
          · exact fun numbers less => absurd less (not_lt.mpr numbers)
        refine lt_of_le_of_ne least fun equal => ?_
        have one := List.inj_on_of_nodup_map apart (List.mem_map_of_mem inside) (List.mem_map_of_mem beside) equal
        rw [one] at less
        exact lt_irrefl _ less
    · contradiction

/-- Where the sorted items are written alike, so are the values of one key. -/
theorem sorted_values {items items' sorted sorted' : List (PyKey × List Char)} (perm : sorted.Perm items)
    (perm' : sorted'.Perm items') (apart : Apart (items'.map Prod.fst))
    (same : sorted.map spelled = sorted'.map spelled) {a a' : PyKey × List Char} (here : a ∈ items)
    (there : a' ∈ items') (key : a'.1.text = a.1.text) : a'.2 = a.2 := by
  have listed : spelled a ∈ sorted'.map spelled := same ▸ List.mem_map_of_mem (perm.mem_iff.mpr here)
  obtain ⟨b, inside, alike⟩ := List.mem_map.mp listed
  obtain ⟨text, value⟩ := Prod.mk.inj alike
  rw [Apart, List.map_map] at apart
  have equal := List.inj_on_of_nodup_map apart (perm'.mem_iff.mp inside) there (text.trans key.symm)
  rw [← equal, value]

theorem forall₂_keys {fields : List (PyKey × PyDoc)} {items : List (PyKey × List Char)} {f : PyKey → PyKey}
    (related : List.Forall₂ (fun field item => item.1 = f field.1) fields items) :
    items.map Prod.fst = fields.map fun field => f field.1 := by
  induction related with
  | nil => rfl
  | cons head _ ih => rw [List.map_cons, List.map_cons, head, ih]

theorem same_text (floats : FloatText) (doc : PyDoc) (apart : doc.Every Apart) :
    (∃ text, doc.canonical floats = .ok text ∧ doc.encoded.python.canonical floats = .ok text) ↔
      doc.Every KeysAgree := by
  induction doc using PyDoc.nested with
  | plain doc noArr noObj =>
    cases doc with
    | arr items => exact absurd rfl (noArr items)
    | obj fields => exact absurd rfl (noObj fields)
    | _ => exact iff_of_true ⟨_, rfl, rfl⟩ trivial
  | arr items ih =>
    rw [every_arr] at apart
    rw [every_arr, arr_python]
    constructor
    · rintro ⟨text, first, second⟩ doc member
      obtain ⟨texts, each, same⟩ := bind_ok.mp first
      obtain ⟨texts', each', same'⟩ := bind_ok.mp second
      have first := allCanonical_ok.mp each
      have second := List.forall₂_map_left_iff.mp (allCanonical_ok.mp each')
      have joined : commas texts' ++ [']'] = commas texts ++ [']'] := by
        rw [← same] at same'
        exact (List.cons.inj (Except.ok.inj same')).2
      have whole (t : List Char) (inside : t ∈ texts) : Whole t := by
        obtain ⟨doc, _, written⟩ := Related.forall₂_right first inside
        exact canonical_whole doc written
      have whole' (t : List Char) (inside : t ∈ texts') : Whole t := by
        obtain ⟨doc, _, written⟩ := Related.forall₂_right second inside
        exact canonical_whole _ written
      obtain rfl := commas_injective (.inl rfl) whole' whole
        (second.length_eq.symm.trans first.length_eq) joined
      obtain ⟨t, _, both⟩ := Related.forall₂_left (Related.forall₂_both first second) member
      exact (ih doc member (apart doc member)).mp ⟨t, both⟩
    · intro agree
      obtain ⟨texts, each⟩ := Related.forall₂_exists fun doc member => (ih doc member (apart doc member)).mpr (agree doc member)
      refine ⟨'[' :: commas texts ++ [']'], bind_ok.mpr ⟨texts, ?_, rfl⟩, bind_ok.mpr ⟨texts, ?_, rfl⟩⟩
      · exact allCanonical_ok.mpr (each.imp fun _ _ both => both.1)
      · exact allCanonical_ok.mpr (List.forall₂_map_left_iff.mpr (each.imp fun _ _ both => both.2))
  | obj fields ih =>
    rw [every_obj] at apart
    rw [every_obj, obj_python]
    constructor
    · rintro ⟨text, first, second⟩
      obtain ⟨items, each, rest⟩ := bind_ok.mp first
      obtain ⟨sorted, ran, same⟩ := bind_ok.mp rest
      obtain ⟨items', each', rest'⟩ := bind_ok.mp second
      obtain ⟨sorted', ran', same'⟩ := bind_ok.mp rest'
      have written := fieldsCanonical_ok.mp each
      have written' := List.forall₂_map_left_iff.mp (fieldsCanonical_ok.mp each')
      have keys := forall₂_keys (f := id) (written.imp fun _ _ both => both.1)
      have keys' := forall₂_keys (f := fun key => .str key.text) (written'.imp fun _ _ both => both.1)
      have perm := sortItems_perm ran
      have perm' := sortItems_perm ran'
      have joined : commas (sorted'.map memberText) ++ ['}'] = commas (sorted.map memberText) ++ ['}'] := by
        rw [← same] at same'
        exact (List.cons.inj (Except.ok.inj same')).2
      have alike : sorted'.map memberText = sorted.map memberText := by
        have whole (t : List Char) (inside : t ∈ sorted.map memberText) : Whole t := by
          obtain ⟨item, listed, rfl⟩ := List.mem_map.mp inside
          obtain ⟨field, _, _, value⟩ := Related.forall₂_right written (perm.mem_iff.mp listed)
          exact memberText_whole (canonical_whole _ value)
        have whole' (t : List Char) (inside : t ∈ sorted'.map memberText) : Whole t := by
          obtain ⟨item, listed, rfl⟩ := List.mem_map.mp inside
          obtain ⟨field, _, _, value⟩ := Related.forall₂_right written' (perm'.mem_iff.mp listed)
          exact memberText_whole (canonical_whole _ value)
        refine commas_injective (.inr rfl) whole' whole ?_ joined
        rw [List.length_map, List.length_map, perm.length_eq, perm'.length_eq, ← written.length_eq,
          written'.length_eq]
      have spells := memberText_injective alike.symm
      have apart' : Apart (items'.map Prod.fst) := by
        rw [Apart, keys', List.map_map]
        have texts := apart.1
        rwa [Apart, List.map_map] at texts
      have all (item : PyKey × List Char) (inside : item ∈ items') : item.1.isText = true := by
        obtain ⟨field, _, key, _⟩ := Related.forall₂_right written' inside
        rw [key]
        rfl
      refine ⟨?_, fun field member => ?_⟩
      · have agree := sorted_agree ran ran' all (by rw [keys]; exact apart.1) spells
        rwa [keys] at agree
      · obtain ⟨item, inside, key, value⟩ := Related.forall₂_left written member
        obtain ⟨item', inside', key', value'⟩ := Related.forall₂_left written' member
        have equal := sorted_values perm perm' apart' spells inside inside' (by rw [key, key']; rfl)
        exact (ih field member (apart.2 field member)).mp ⟨item.2, value, equal ▸ value'⟩
    · rintro ⟨agree, each⟩
      obtain ⟨items, written⟩ : ∃ items, List.Forall₂ (fun (field : PyKey × PyDoc) (item : PyKey × List Char) => item.1 = field.1 ∧
          field.2.canonical floats = .ok item.2 ∧ field.2.encoded.python.canonical floats = .ok item.2)
          fields items := by
        refine Related.forall₂_exists fun field member => ?_
        obtain ⟨text, both⟩ := (ih field member (apart.2 field member)).mpr (each field member)
        exact ⟨(field.1, text), rfl, both⟩
      have keys := forall₂_keys (f := id) (written.imp fun _ _ all => all.1)
      obtain ⟨sorted, ran, commute⟩ := sortItems_agree (show KeysAgree (items.map Prod.fst) by rw [keys]; exact agree)
      refine ⟨'{' :: commas (sorted.map memberText) ++ ['}'], bind_ok.mpr ⟨items, ?_, bind_ok.mpr ⟨sorted, ran, rfl⟩⟩,
        bind_ok.mpr ⟨items.map texted, ?_, bind_ok.mpr ⟨_, sortItems_texted items, ?_⟩⟩⟩
      · exact fieldsCanonical_ok.mpr (written.imp fun _ _ all => ⟨all.1, all.2.1⟩)
      · refine fieldsCanonical_ok.mpr (List.forall₂_map_left_iff.mpr (List.forall₂_map_right_iff.mpr ?_))
        exact written.imp fun _ _ all => ⟨by rw [texted, all.1], all.2.2⟩
      · rw [← commute, List.map_map]
        rfl

end

/-- What an author writes: something, with finite numbers, no two keys one text. -/
structure PyDoc.Authored (doc : PyDoc) : Prop where
  given : doc.isNull = false
  finite : doc.encoded.finite = true
  apart : doc.Every Apart

/-- The fingerprint the client pins is the one the worker reports, and no mismatch is noted. -/
def Traced (floats : FloatText) (hexdigest : List Char → String) (doc : PyDoc) (given : doc.isNull = false) : Prop :=
  ∀ file spec, ∃ ref atWorker fingerprint,
    asPipeline floats hexdigest (.ref (inlineRef doc given)) = .ok ref ∧ leased ref = .ok atWorker ∧
    pipelineFingerprint floats hexdigest file atWorker spec = .ok fingerprint ∧
    ref.expectedFingerprint = some fingerprint ∧
    ∀ (row : TaskRow) (result : TaskResult), row.payload.pipeline.expectedFingerprint = ref.expectedFingerprint →
      result.pipelineFingerprint = some fingerprint → Route.fingerprintMismatch row result = false

section
variable {floats : FloatText} {hexdigest : List Char → String} {doc : PyDoc}

theorem leased_exact (ref : ClientPipelineRef) (finite : ref.encoded.finite = true) : leased ref = .ok ref.encoded := by
  have calm : (pipelineRef.dump ref.encoded).finite = true := by rw [pipelineRef_finite, finite]
  have once : sent ref.encoded = .ok ref.encoded := by
    rw [sent, if_pos calm]
    exact pipelineRef.exact _
  rw [leased, once]
  change kept ref.encoded >>= sent = _
  rw [kept, pipelineRef.exact]
  exact once

theorem fingerprint_ok (hexdigest : List Char → String) {fingerprint : String} : fingerprintObj floats hexdigest doc = .ok fingerprint ↔
    ∃ text, doc.canonical floats = .ok text ∧ "sha256:" ++ hexdigest text = fingerprint := by
  rw [fingerprintObj, bind_ok]
  simp only [pure, Except.pure, Except.ok.injEq]

/-- The client's reference with its fingerprint. -/
def pinnedRef (doc : PyDoc) (given : doc.isNull = false) (fingerprint : String) : ClientPipelineRef :=
  { inlineRef doc given with expectedFingerprint := some fingerprint }

theorem asPipeline_ok {given : doc.isNull = false} {ref : ClientPipelineRef} :
    asPipeline floats hexdigest (.ref (inlineRef doc given)) = .ok ref ↔
      ∃ fingerprint, fingerprintObj floats hexdigest doc = .ok fingerprint ∧ pinnedRef doc given fingerprint = ref := by
  change (fingerprintObj floats hexdigest doc >>= fun fingerprint => pure (pinnedRef doc given fingerprint)) = _ ↔ _
  rw [bind_ok]
  simp only [pure, Except.pure, Except.ok.injEq]

theorem pinned_finite {given : doc.isNull = false} {fingerprint : String} (finite : doc.encoded.finite = true) :
    (pinnedRef doc given fingerprint).encoded.finite = true := finite

theorem pinned_fingerprint {given : doc.isNull = false} {fingerprint : String} (file : Json → Except PyErr String)
    (spec : Dict) : pipelineFingerprint floats hexdigest file (pinnedRef doc given fingerprint).encoded spec =
      fingerprintObj floats hexdigest doc.encoded.python := rfl

/-- The fingerprints are one exactly if the digests of the two texts are. -/
theorem traced_texts (given : doc.isNull = false) (finite : doc.encoded.finite = true) :
    Traced floats hexdigest doc given ↔ ∃ text text', doc.canonical floats = .ok text ∧
      doc.encoded.python.canonical floats = .ok text' ∧ hexdigest text = hexdigest text' := by
  constructor
  · intro traced
    obtain ⟨ref, atWorker, fingerprint, pinned, arrived, reported, expected, _⟩ :=
      traced (fun _ => .error (.keyError "path")) []
    obtain ⟨own, written, rfl⟩ := asPipeline_ok.mp pinned
    cases (leased_exact _ (pinned_finite finite)).symm.trans arrived
    obtain ⟨text', second, other⟩ := (fingerprint_ok hexdigest).mp ((pinned_fingerprint _ _).symm.trans reported)
    obtain ⟨text, first, same⟩ := (fingerprint_ok hexdigest).mp written
    refine ⟨text, text', first, second, ?_⟩
    have equal : "sha256:" ++ hexdigest text = "sha256:" ++ hexdigest text' := by
      rw [same, other]
      exact Option.some.inj expected
    exact String.append_right_inj _ |>.mp equal
  · rintro ⟨text, text', first, second, same⟩ file spec
    have written := (fingerprint_ok hexdigest).mpr ⟨text, first, rfl⟩
    have reported := (fingerprint_ok hexdigest).mpr ⟨text', second, rfl⟩
    rw [← same] at reported
    refine ⟨_, _, _, asPipeline_ok.mpr ⟨_, written, rfl⟩, leased_exact _ (pinned_finite finite),
      (pinned_fingerprint file spec).trans reported, rfl, fun row result expected found => ?_⟩
    rw [Route.fingerprintMismatch, expected, found]
    simp [pinnedRef]

end

/-- Writes the whole floats as Python does. -/
def wholeFloats : FloatText where
  write value := (toString value.num).toList ++ ['.', '0']
  plain value := by
    rw [List.all_append, int_ordinary]
    rfl

/-- Two steps under numbered keys. -/
def stepsDoc (first second : Int) : PyDoc :=
  .obj [(.str "steps", .obj [(.int first, .str "snv"), (.int second, .float (.fin 3))])]

theorem stepsDoc_authored (first second : Int) (apart : toString first ≠ toString second) :
    (stepsDoc first second).Authored where
  given := rfl
  finite := rfl
  apart := by
    simp only [stepsDoc, PyDoc.Every, PyDoc.FieldsEvery, Apart, List.map_cons, List.map_nil, PyKey.text,
      List.nodup_cons, List.mem_singleton, List.not_mem_nil, not_false_eq_true, List.nodup_nil, and_true, true_and]
    exact apart

end N4Cluster
