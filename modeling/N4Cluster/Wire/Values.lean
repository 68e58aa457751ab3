import N4Cluster.Base.Codec
import N4Cluster.Schemas

/-! How the models are written to JSON and read back. `model_dump` writes by field name;
validation reads by alias or name. The text of a document is left out, but for what
`model_dump_json` makes of floats: a non-finite one is written as `null`. -/
namespace N4Cluster
open Wire

/-! ## Documents -/

mutual

/-- No float in the document is `nan` or infinite. -/
def Json.finite : Json → Bool
  | .float value => value.isFinite
  | .arr items => Json.allFinite items
  | .obj fields => Json.fieldsFinite fields
  | _ => true

def Json.allFinite : List Json → Bool
  | [] => true
  | doc :: rest => doc.finite && Json.allFinite rest

def Json.fieldsFinite : List (String × Json) → Bool
  | [] => true
  | (_, doc) :: rest => doc.finite && Json.fieldsFinite rest

end

mutual

/-- What `model_dump_json` writes, read back. -/
def Json.stored : Json → Json
  | .float value => if value.isFinite then .float value else .null
  | .arr items => .arr (Json.allStored items)
  | .obj fields => .obj (Json.fieldsStored fields)
  | doc => doc

def Json.allStored : List Json → List Json
  | [] => []
  | doc :: rest => doc.stored :: Json.allStored rest

def Json.fieldsStored : List (String × Json) → List (String × Json)
  | [] => []
  | (name, doc) :: rest => (name, doc.stored) :: Json.fieldsStored rest

end

mutual

/-- How many arrays and objects lie in one another. -/
def Json.depth : Json → Nat
  | .arr items => Json.allDepth items + 1
  | .obj fields => Json.fieldsDepth fields + 1
  | _ => 0

def Json.allDepth : List Json → Nat
  | [] => 0
  | doc :: rest => max doc.depth (Json.allDepth rest)

def Json.fieldsDepth : List (String × Json) → Nat
  | [] => 0
  | (_, doc) :: rest => max doc.depth (Json.fieldsDepth rest)

end

namespace Json

theorem allFinite_iff {items : List Json} :
    allFinite items = true ↔ ∀ doc ∈ items, doc.finite = true := by
  induction items with
  | nil => simp [allFinite]
  | cons doc rest ih => simp [allFinite, ih]

theorem fieldsFinite_iff {fields : List (String × Json)} :
    fieldsFinite fields = true ↔ ∀ entry ∈ fields, entry.2.finite = true := by
  induction fields with
  | nil => simp [fieldsFinite]
  | cons entry rest ih => simp [fieldsFinite, ih]

mutual

theorem stored_finite : (doc : Json) → doc.stored.finite = true
  | .float value => by
    unfold stored
    split
    · assumption
    · rfl
  | .arr items => allStored_finite items
  | .obj fields => fieldsStored_finite fields
  | .null | .bool _ | .int _ | .str _ => rfl

theorem allStored_finite : (items : List Json) → allFinite (allStored items) = true
  | [] => rfl
  | doc :: rest => by
    rw [allStored, allFinite, stored_finite doc, allStored_finite rest]
    rfl

theorem fieldsStored_finite : (fields : List (String × Json)) →
    fieldsFinite (fieldsStored fields) = true
  | [] => rfl
  | (_, doc) :: rest => by
    rw [fieldsStored, fieldsFinite, stored_finite doc, fieldsStored_finite rest]
    rfl

end

mutual

theorem finite_stored : (doc : Json) → doc.finite = true → doc.stored = doc
  | .float _, calm => if_pos calm
  | .arr items, calm => congrArg Json.arr (allFinite_stored items calm)
  | .obj fields, calm => congrArg Json.obj (fieldsFinite_stored fields calm)
  | .null, _ | .bool _, _ | .int _, _ | .str _, _ => rfl

theorem allFinite_stored : (items : List Json) → allFinite items = true → allStored items = items
  | [], _ => rfl
  | doc :: rest, calm => by
    obtain ⟨first, others⟩ := Bool.and_eq_true_iff.mp calm
    rw [allStored, finite_stored doc first, allFinite_stored rest others]

theorem fieldsFinite_stored : (fields : List (String × Json)) → fieldsFinite fields = true →
    fieldsStored fields = fields
  | [], _ => rfl
  | (_, doc) :: rest, calm => by
    obtain ⟨first, others⟩ := Bool.and_eq_true_iff.mp calm
    rw [fieldsStored, finite_stored doc first, fieldsFinite_stored rest others]

end

mutual

theorem stored_depth : (doc : Json) → doc.stored.depth = doc.depth
  | .float value => by
    unfold stored
    split <;> rfl
  | .arr items => congrArg (· + 1) (allStored_depth items)
  | .obj fields => congrArg (· + 1) (fieldsStored_depth fields)
  | .null | .bool _ | .int _ | .str _ => rfl

theorem allStored_depth : (items : List Json) → allDepth (allStored items) = allDepth items
  | [] => rfl
  | doc :: rest => by
    rw [allStored, allDepth, stored_depth doc, allStored_depth rest]
    rfl

theorem fieldsStored_depth : (fields : List (String × Json)) →
    fieldsDepth (fieldsStored fields) = fieldsDepth fields
  | [] => rfl
  | (_, doc) :: rest => by
    rw [fieldsStored, fieldsDepth, stored_depth doc, fieldsStored_depth rest]
    rfl

end

def dict : Json → Option Dict
  | .obj fields => some fields
  | _ => none

instance : Document Json where
  obj := .obj
  dict := dict
  tame doc := doc.finite = true
  write := stored
  dict_obj _ := rfl
  obj_dict doc fields found := by cases doc <;> simp_all [dict]
  tame_obj _ := fieldsFinite_iff
  tame_write := stored_finite
  write_tame := finite_stored

end Json

/-! ## Values -/

abbrev JsonCodec (α : Type) := Codec Json PyErr α

abbrev Model (α : Type) := Fields Json PyErr α

def invalid {α : Type} (type : String) : Except PyErr α := .error (.validationError type)

namespace JsonCodec
variable {α : Type}

def string : JsonCodec String where
  dump := .str
  validate
    | .str text => .ok text
    | _ => invalid "string_type"
  exact _ := rfl
  keeps _ _ _ _ := rfl

/-- The texts that pass for a truth value. -/
def boolTexts : List (String × Bool) :=
  ["0", "f", "n", "no", "off", "false"].map (·, false) ++ ["1", "t", "y", "on", "yes", "true"].map (·, true)

/-- A `bool` is taken from a number or a text that passes for one. -/
def bool : JsonCodec Bool where
  dump := .bool
  validate
    | .bool value => .ok value
    | .int value | .float (.fin value) =>
      if value = 0 then .ok false else if value = 1 then .ok true else invalid "bool_parsing"
    | .str text => match boolTexts.lookup text.toLower with
      | some value => .ok value
      | none => invalid "bool_parsing"
    | _ => invalid "bool_type"
  exact _ := rfl
  keeps _ _ _ _ := rfl

def int : JsonCodec Int where
  dump := .int
  validate
    | .int value => .ok value
    | _ => invalid "int_type"
  exact _ := rfl
  keeps _ _ _ _ := rfl

def float : JsonCodec PyFloat where
  dump := .float
  validate
    | .float value => .ok value
    | .int value => .ok (.fin value)
    | _ => invalid "float_type"
  exact _ := rfl
  keeps doc value calm read := by
    cases doc <;> cases read
    · rfl
    · exact calm

/-- `dict[str, Any]`. -/
def dict : JsonCodec Dict where
  dump := .obj
  validate
    | .obj fields => .ok fields
    | _ => invalid "dict_type"
  exact _ := rfl
  keeps doc value calm read := by
    cases doc <;> cases read
    exact calm

/-- `T | None`, for a `T` that is never written as `null`. -/
def nullable (c : JsonCodec α)
    (solid : ∀ value, (c.dump value).isNull = false := by intro value; exact id rfl) : JsonCodec (Option α) where
  dump
    | none => .null
    | some value => c.dump value
  validate doc := if doc.isNull then .ok none else some <$> c.validate doc
  exact value := by
    cases value with
    | none => rfl
    | some value => simp [solid, c.exact]
  keeps doc value calm read := by
    split at read
    · cases read
      rfl
    · cases got : c.validate doc with
      | error error => simp [got] at read
      | ok inner =>
        rw [got] at read
        cases read
        exact c.keeps doc inner calm got

theorem mapM_exact {ε β γ : Type} (f : β → Except ε γ) (g : γ → β) (inverse : ∀ value, f (g value) = .ok value)
    (values : List γ) : (values.map g).mapM f = .ok values := by
  induction values with
  | nil => rfl
  | cons value rest ih => simp [List.mapM_cons, inverse, ih, pure, Except.pure, bind, Except.bind]

theorem mapM_mem {ε β γ : Type} {f : β → Except ε γ} {docs : List β} {values : List γ}
    (read : docs.mapM f = .ok values) : ∀ value ∈ values, ∃ doc ∈ docs, f doc = .ok value := by
  induction docs generalizing values with
  | nil =>
    cases read
    exact fun _ member => False.elim (List.not_mem_nil member)
  | cons doc rest ih =>
    rw [List.mapM_cons] at read
    cases first : f doc with
    | error error =>
      rw [first] at read
      contradiction
    | ok value =>
      cases others : rest.mapM f with
      | error error =>
        rw [first, others] at read
        contradiction
      | ok later =>
        rw [first, others] at read
        cases read
        intro other member
        rcases List.mem_cons.mp member with rfl | inside
        · exact ⟨doc, List.mem_cons_self, first⟩
        · obtain ⟨source, held, same⟩ := ih others other inside
          exact ⟨source, List.mem_cons_of_mem _ held, same⟩

/-- `list[T]`. -/
def list (c : JsonCodec α) : JsonCodec (List α) where
  dump values := .arr (values.map c.dump)
  validate
    | .arr items => items.mapM c.validate
    | _ => invalid "list_type"
  exact := mapM_exact c.validate c.dump c.exact
  keeps doc values calm read := by
    cases doc with
    | arr items =>
      refine Json.allFinite_iff.mpr fun doc member => ?_
      obtain ⟨value, inside, rfl⟩ := List.mem_map.mp member
      obtain ⟨source, held, validated⟩ := mapM_mem read value inside
      exact c.keeps source value (Json.allFinite_iff.mp calm source held) validated
    | _ => contradiction

/-- `dict[str, T]`. -/
def dictOf (c : JsonCodec α) : JsonCodec (List (String × α)) where
  dump values := .obj (values.map fun entry => (entry.1, c.dump entry.2))
  validate
    | .obj fields => fields.mapM fun entry => (c.validate entry.2).map fun value => (entry.1, value)
    | _ => invalid "dict_type"
  exact := mapM_exact _ (fun entry : String × α => (entry.1, c.dump entry.2)) fun entry => by
    rw [c.exact]
    rfl
  keeps doc values calm read := by
    cases doc with
    | obj fields =>
      refine Json.fieldsFinite_iff.mpr fun entry member => ?_
      obtain ⟨value, inside, rfl⟩ := List.mem_map.mp member
      obtain ⟨source, held, validated⟩ := mapM_mem read value inside
      cases got : c.validate source.2 with
      | error error =>
        rw [got] at validated
        contradiction
      | ok inner =>
        rw [got] at validated
        cases validated
        exact c.keeps source.2 inner (Json.fieldsFinite_iff.mp calm source held) got
    | _ => contradiction

/-- `Literal[...]`: one text a value. -/
def literal (all : List α) (text : α → String)
    (listed : ∀ value, all.find? (fun other => text other = text value) = some value) : JsonCodec α where
  dump value := .str (text value)
  validate
    | .str given => match all.find? fun value => text value = given with
      | some value => .ok value
      | none => invalid "literal_error"
    | _ => invalid "literal_error"
  exact value := by
    dsimp only
    rw [listed value]
  keeps _ _ _ _ := rfl

/-- A literal of a single text. -/
def only (text : String) : JsonCodec Unit := literal [()] (fun _ => text) fun _ => by simp

/-- `Any | None`: the values of an `inline`, none of which is `None`. -/
abbrev Given : Type := { inline : Option Json // inline.all (fun doc => !doc.isNull) = true }

def given : JsonCodec Given where
  dump value := value.val.getD .null
  validate doc := .ok ⟨if doc.isNull then none else some doc, by split <;> simp [*]⟩
  exact value := by
    obtain ⟨_ | doc, solid⟩ := value
    · rfl
    · refine congrArg Except.ok (Subtype.ext ?_)
      exact if_neg (by simpa using solid)
  keeps doc value calm read := by
    cases read
    dsimp only
    split
    · rfl
    · exact calm

end JsonCodec

end N4Cluster
