import Mathlib.Data.List.Basic
import Mathlib.Tactic.Common

/-! Codecs between values and documents. A model is a list of named fields, read
from an object by name or alias and written by name; what is written reads back as it
was, and reading makes nothing wild that was not. -/
namespace Wire

variable {D ε α β : Type}

theorem lookup_absent {fields : List (String × D)} {name : String}
    (absent : ∀ entry ∈ fields, entry.1 ≠ name) : fields.lookup name = none := by
  induction fields with
  | nil => rfl
  | cons entry rest ih =>
    have other : (name == entry.1) = false :=
      beq_eq_false_iff_ne.mpr fun same => absent entry List.mem_cons_self same.symm
    rw [List.lookup_cons, other]
    exact ih fun later member => absent later (List.mem_cons_of_mem _ member)

theorem lookup_past {before after : List (String × D)} {name : String}
    (absent : ∀ entry ∈ before, entry.1 ≠ name) :
    (before ++ after).lookup name = after.lookup name := by
  induction before with
  | nil => rfl
  | cons entry rest ih =>
    have other : (name == entry.1) = false :=
      beq_eq_false_iff_ne.mpr fun same => absent entry List.mem_cons_self same.symm
    rw [List.cons_append, List.lookup_cons, other]
    exact ih fun later member => absent later (List.mem_cons_of_mem _ member)

theorem lookup_mem {fields : List (String × D)} {name : String} {doc : D}
    (found : fields.lookup name = some doc) : ∃ entry ∈ fields, entry.2 = doc := by
  induction fields with
  | nil => contradiction
  | cons entry rest ih =>
    rw [List.lookup_cons] at found
    split at found
    · exact ⟨entry, List.mem_cons_self, Option.some.inj found⟩
    · obtain ⟨later, member, same⟩ := ih found
      exact ⟨later, List.mem_cons_of_mem _ member, same⟩

/-- Documents with objects. A writer turns every document into a tame one and leaves
tame ones alone. -/
class Document (D : Type) where
  obj : List (String × D) → D
  dict : D → Option (List (String × D))
  tame : D → Prop
  write : D → D
  dict_obj : ∀ fields, dict (obj fields) = some fields
  obj_dict : ∀ doc fields, dict doc = some fields → obj fields = doc
  tame_obj : ∀ fields, tame (obj fields) ↔ ∀ entry ∈ fields, tame entry.2
  tame_write : ∀ doc, tame (write doc)
  write_tame : ∀ doc, tame doc → write doc = doc

open Document

structure Codec (D ε α : Type) [Document D] where
  dump : α → D
  validate : D → Except ε α
  exact : ∀ value, validate (dump value) = .ok value
  keeps : ∀ doc value, tame doc → validate doc = .ok value → tame (dump value)

variable [Document D]

/-- A value comes back from its written document exactly if nothing in it is wild. -/
theorem Codec.reload_iff (c : Codec D ε α) (value : α) :
    c.validate (write (c.dump value)) = .ok value ↔ tame (c.dump value) := by
  constructor
  · intro read
    exact c.keeps _ value (tame_write _) read
  · intro calm
    rw [write_tame _ calm]
    exact c.exact value

namespace Codec

/-- Another shape of the same values, perhaps not of all. -/
def refine (c : Codec D ε α) (pack : α → Except ε β) (unpack : β → α)
    (packs : ∀ value, pack (unpack value) = .ok value)
    (unpacks : ∀ raw value, pack raw = .ok value → unpack value = raw) : Codec D ε β where
  dump value := c.dump (unpack value)
  validate doc := c.validate doc >>= pack
  exact value := by
    rw [c.exact]
    exact packs value
  keeps doc value calm read := by
    cases validated : c.validate doc with
    | error error =>
      rw [validated] at read
      contradiction
    | ok raw =>
      rw [validated] at read
      rw [unpacks raw value read]
      exact c.keeps doc raw calm validated

end Codec

/-- The fields of a model: the names it writes, and each alias with its name. -/
structure Fields (D ε α : Type) [Document D] where
  names : List String
  aliases : List (String × String)
  dump : α → List (String × D)
  read : List (String × D) → Except ε α
  named : ∀ value, ∀ entry ∈ dump value, entry.1 ∈ names
  apart : ∀ pair ∈ aliases, pair.1 ∉ names
  exact : ∀ value before after, (∀ entry ∈ before, entry.1 ∉ names ++ aliases.map Prod.fst) →
    (∀ entry ∈ after, entry.1 ∉ names ++ aliases.map Prod.fst) →
    read (before ++ dump value ++ after) = .ok value
  keeps : ∀ fields value, (∀ entry ∈ fields, tame entry.2) → read fields = .ok value →
    ∀ entry ∈ dump value, tame entry.2

namespace Fields

/-- The keys a model knows: no extension field has one of them. -/
def known (f : Fields D ε α) : List String := f.names ++ f.aliases.map Prod.fst

/-- A field read by its alias or else by its name; `missing` is what an absent one gives. -/
def field (name : String) (also : Option String) (c : Codec D ε α) (missing : Except ε α)
    (other : ∀ text ∈ also, text ≠ name) (plain : ∀ value, missing = .ok value → tame (c.dump value)) :
    Fields D ε α where
  names := [name]
  aliases := also.toList.map fun text => (text, name)
  dump value := [(name, c.dump value)]
  read fields :=
    match (also.bind fun text => fields.lookup text).or (fields.lookup name) with
    | some doc => c.validate doc
    | none => missing
  named value entry member := by
    rw [List.mem_singleton.mp member]
    exact List.mem_singleton_self _
  apart pair member := by
    obtain ⟨text, given, rfl⟩ := List.mem_map.mp member
    rw [List.mem_singleton]
    exact other text (Option.mem_toList.mp given)
  exact value before after clear rest := by
    have unnamed (fields : List (String × D))
        (absent : ∀ entry ∈ fields, entry.1 ∉ [name] ++ (also.toList.map fun text => (text, name)).map Prod.fst) :
        ∀ entry ∈ fields, entry.1 ≠ name := by
      intro entry member same
      exact absent entry member (List.mem_append_left _ (List.mem_singleton.mpr same))
    have aliased : (also.bind fun text => (before ++ [(name, c.dump value)] ++ after).lookup text) = none := by
      cases also with
      | none => rfl
      | some text =>
        refine lookup_absent fun entry member same => ?_
        rcases List.mem_append.mp member with front | back
        · rcases List.mem_append.mp front with early | here
          · exact clear entry early (by simp [same])
          · rw [List.mem_singleton.mp here] at same
            exact other text rfl same.symm
        · exact rest entry back (by simp [same])
    rw [aliased, Option.none_or, List.append_assoc, lookup_past (unnamed before clear)]
    simp [c.exact]
  keeps fields value calm read entry member := by
    rw [List.mem_singleton.mp member]
    split at read
    · rename_i doc found
      have held : ∃ entry ∈ fields, entry.2 = doc := by
        rcases Option.or_eq_some_iff.mp found with early | ⟨_, late⟩
        · obtain ⟨text, _, here⟩ := Option.bind_eq_some_iff.mp early
          exact lookup_mem here
        · exact lookup_mem late
      obtain ⟨entry, inside, rfl⟩ := held
      exact c.keeps entry.2 value (calm entry inside) read
    · exact plain value read

/-- Two groups of fields with different names. -/
def pair (f : Fields D ε α) (g : Fields D ε β) (distinct : ∀ name ∈ f.known, name ∉ g.known := by decide) :
    Fields D ε (α × β) where
  names := f.names ++ g.names
  aliases := f.aliases ++ g.aliases
  dump value := f.dump value.1 ++ g.dump value.2
  read fields := do
    let first ← f.read fields
    let second ← g.read fields
    return (first, second)
  named value entry member := by
    rcases List.mem_append.mp member with left | right
    · exact List.mem_append_left _ (f.named _ entry left)
    · exact List.mem_append_right _ (g.named _ entry right)
  apart pair member := by
    rcases List.mem_append.mp member with left | right
    · intro listed
      rcases List.mem_append.mp listed with here | there
      · exact f.apart pair left here
      · exact distinct pair.1 (List.mem_append_right _ (List.mem_map_of_mem left))
          (List.mem_append_left _ there)
    · intro listed
      rcases List.mem_append.mp listed with there | here
      · exact distinct pair.1 (List.mem_append_left _ there)
          (List.mem_append_right _ (List.mem_map_of_mem right))
      · exact g.apart pair right here
  exact value before after clear rest := by
    have left : ∀ key ∈ f.known, key ∈ (f.names ++ g.names) ++ (f.aliases ++ g.aliases).map Prod.fst := by
      intro key
      simp only [known, List.mem_append, List.map_append]
      tauto
    have right : ∀ key ∈ g.known, key ∈ (f.names ++ g.names) ++ (f.aliases ++ g.aliases).map Prod.fst := by
      intro key
      simp only [known, List.mem_append, List.map_append]
      tauto
    have first : f.read (before ++ (f.dump value.1 ++ g.dump value.2) ++ after) = .ok value.1 := by
      have read := f.exact value.1 before (g.dump value.2 ++ after)
        (fun entry member listed => clear entry member (left _ listed)) fun entry member listed => ?_
      · simpa only [List.append_assoc] using read
      · rcases List.mem_append.mp member with written | late
        · exact distinct entry.1 listed (List.mem_append_left _ (g.named _ entry written))
        · exact rest entry late (left _ listed)
    have second : g.read (before ++ (f.dump value.1 ++ g.dump value.2) ++ after) = .ok value.2 := by
      have read := g.exact value.2 (before ++ f.dump value.1) after (fun entry member listed => ?_)
        fun entry member listed => rest entry member (right _ listed)
      · simpa only [List.append_assoc] using read
      · rcases List.mem_append.mp member with early | written
        · exact clear entry early (right _ listed)
        · exact distinct entry.1 (List.mem_append_left _ (f.named _ entry written)) listed
    rw [first, second]
    rfl
  keeps fields value calm read entry member := by
    cases first : f.read fields with
    | error error =>
      rw [first] at read
      contradiction
    | ok left =>
      cases second : g.read fields with
      | error error =>
        rw [first, second] at read
        contradiction
      | ok right =>
        rw [first, second] at read
        cases read
        rcases List.mem_append.mp member with here | there
        · exact f.keeps fields left calm first entry here
        · exact g.keeps fields right calm second entry there

/-- A model without extension fields: unknown keys are ignored. -/
def object (f : Fields D ε α) (other : ε) : Codec D ε α where
  dump value := obj (f.dump value)
  validate doc :=
    match dict doc with
    | some fields => f.read fields
    | none => .error other
  exact value := by
    rw [dict_obj]
    have read := f.exact value [] [] (fun _ member => nomatch member) fun _ member => nomatch member
    rwa [List.append_nil] at read
  keeps doc value calm read := by
    split at read
    · rename_i fields found
      rw [← obj_dict doc fields found, tame_obj] at calm
      exact (tame_obj _).mpr (f.keeps fields value calm read)
    · contradiction

/-- Fields beyond the known ones. -/
abbrev Extra (f : Fields D ε α) : Type :=
  { extra : List (String × D) // ∀ entry ∈ extra, entry.1 ∉ f.known }

/-- Some field is given both by its alias and by its name. -/
def shadowed (f : Fields D ε α) (fields : List (String × D)) : Bool :=
  f.aliases.any fun pair => fields.any (fun entry => entry.1 = pair.1) &&
    fields.any fun entry => entry.1 = pair.2

/-- A model that keeps extension fields and refuses a field given twice. -/
def openObject (f : Fields D ε α) (other twice : ε) : Codec D ε (α × f.Extra) where
  dump value := obj (f.dump value.1 ++ value.2.val)
  validate doc :=
    match dict doc with
    | some fields =>
      if f.shadowed fields then .error twice
      else do
        let value ← f.read fields
        return (value, ⟨fields.filter fun entry => decide (entry.1 ∉ f.known),
          fun entry member => of_decide_eq_true (List.mem_filter.mp member).2⟩)
    | none => .error other
  exact value := by
    obtain ⟨value, extra, outside⟩ := value
    have clear : f.shadowed (f.dump value ++ extra) = false := by
      rw [shadowed, List.any_eq_false]
      intro pair member both
      obtain ⟨given, _⟩ := Bool.and_eq_true_iff.mp both
      obtain ⟨entry, inside, same⟩ := List.any_eq_true.mp given
      have same : entry.1 = pair.1 := of_decide_eq_true same
      rcases List.mem_append.mp inside with written | added
      · exact f.apart pair member (same ▸ f.named value entry written)
      · exact outside entry added (same ▸ List.mem_append_right _ (List.mem_map_of_mem member))
    have read : f.read (f.dump value ++ extra) = .ok value :=
      f.exact value [] extra (fun _ member => nomatch member) outside
    have kept : ((f.dump value ++ extra).filter fun entry => decide (entry.1 ∉ f.known)) = extra := by
      rw [List.filter_append, List.filter_eq_nil_iff.mpr fun entry written => ?_, List.nil_append]
      · exact List.filter_eq_self.mpr fun entry added => decide_eq_true (outside entry added)
      · exact fun outside => of_decide_eq_true outside
          (List.mem_append_left _ (f.named value entry written))
    rw [dict_obj]
    simp only [clear, read]
    exact congrArg Except.ok (Prod.ext rfl (Subtype.ext kept))
  keeps doc value calm read := by
    split at read
    · rename_i fields found
      rw [← obj_dict doc fields found, tame_obj] at calm
      split at read
      · contradiction
      · cases got : f.read fields with
        | error error =>
          rw [got] at read
          contradiction
        | ok inner =>
          rw [got] at read
          cases read
          refine (tame_obj _).mpr fun entry member => ?_
          rcases List.mem_append.mp member with written | added
          · exact f.keeps fields inner calm got entry written
          · exact calm entry (List.mem_filter.mp added).1
    · contradiction

end Fields
end Wire
