import N4Cluster.Base.Codec

/-! Other spellings of what a codec writes. A field may be written under its name or its
alias, and the parts of a model each in their own way: what is written so is read back as
it was, provided no field is written twice. -/
namespace Wire
open Document

variable {D ε α β : Type}

theorem lookup_spot {before after : List (String × D)} {key : String} {doc : D}
    (absent : ∀ entry ∈ before, entry.1 ≠ key) :
    (before ++ [(key, doc)] ++ after).lookup key = some doc := by
  rw [List.append_assoc, lookup_past absent]
  simp

variable [Document D]

/-- A way to write the values of a codec. -/
structure Codec.Spelling (c : Codec D ε α) where
  write : α → D
  exact : ∀ value, c.validate (write value) = .ok value
  calm : ∀ value, tame (c.dump value) → tame (write value)

namespace Codec

/-- The codec's own spelling. -/
def spelled (c : Codec D ε α) : c.Spelling := ⟨c.dump, c.exact, fun _ calm => calm⟩

def Spelling.refine {c : Codec D ε α} (w : c.Spelling) {pack : α → Except ε β} {unpack : β → α}
    {packs : ∀ value, pack (unpack value) = .ok value}
    {unpacks : ∀ raw value, pack raw = .ok value → unpack value = raw} :
    (c.refine pack unpack packs unpacks).Spelling where
  write value := w.write (unpack value)
  exact value := by
    change c.validate _ >>= pack = _
    rw [w.exact]
    exact packs value
  calm value := w.calm (unpack value)

/-- A spelled value survives being written down if nothing in it is wild. -/
theorem Spelling.reload {c : Codec D ε α} (w : c.Spelling) {value : α} (calm : tame (c.dump value)) :
    c.validate (Document.write (w.write value)) = .ok value := by
  rw [write_tame _ (w.calm value calm)]
  exact w.exact value

end Codec

/-- A way to write the fields of a model: under which keys, of which no field has two. -/
structure Fields.Spelling (f : Fields D ε α) where
  keys : List String
  write : α → List (String × D)
  known : ∀ key ∈ keys, key ∈ f.known
  owned : ∀ pair ∈ f.aliases, pair.2 ∈ f.names
  once : ∀ pair ∈ f.aliases, pair.1 ∈ keys → pair.2 ∉ keys
  keyed : ∀ value, ∀ entry ∈ write value, entry.1 ∈ keys
  exact : ∀ value before after, (∀ entry ∈ before, entry.1 ∉ f.known) →
    (∀ entry ∈ after, entry.1 ∉ f.known) → f.read (before ++ write value ++ after) = .ok value
  calm : ∀ value, (∀ entry ∈ f.dump value, tame entry.2) → ∀ entry ∈ write value, tame entry.2

namespace Fields

theorem known_field {name : String} {also : Option String} {c : Codec D ε α} {missing : Except ε α}
    {other : ∀ text ∈ also, text ≠ name} {plain : ∀ value, missing = .ok value → tame (c.dump value)}
    {key : String} : key ∈ (field name also c missing other plain).known ↔ key = name ∨ also = some key := by
  change key ∈ [name] ++ (also.toList.map fun text => (text, name)).map Prod.fst ↔ _
  cases also <;> simp [eq_comm]

theorem known_pair {f : Fields D ε α} {g : Fields D ε β} {distinct : ∀ name ∈ f.known, name ∉ g.known}
    {key : String} : key ∈ (f.pair g distinct).known ↔ key ∈ f.known ∨ key ∈ g.known := by
  change key ∈ (f.names ++ g.names) ++ (f.aliases ++ g.aliases).map Prod.fst ↔ _
  simp only [known, List.mem_append, List.map_append]
  tauto

theorem alias_known {f : Fields D ε α} {pair : String × String} (member : pair ∈ f.aliases) :
    pair.1 ∈ f.known :=
  List.mem_append_right _ (List.mem_map_of_mem member)

namespace Spelling

/-- One field, under its name or its alias. -/
def field {name : String} {also : Option String} {c : Codec D ε α} {missing : Except ε α}
    {other : ∀ text ∈ also, text ≠ name} {plain : ∀ value, missing = .ok value → tame (c.dump value)}
    (key : String) (mine : key = name ∨ also = some key) (w : c.Spelling) :
    (Fields.field name also c missing other plain).Spelling where
  keys := [key]
  write value := [(key, w.write value)]
  known text member := by
    rw [List.mem_singleton.mp member]
    exact known_field.mpr mine
  owned pair member := by
    obtain ⟨text, _, rfl⟩ := List.mem_map.mp member
    exact List.mem_cons_self
  once pair member first second := by
    obtain ⟨text, given, rfl⟩ := List.mem_map.mp member
    have same : text = key := List.mem_singleton.mp first
    have named : name = key := List.mem_singleton.mp second
    exact other text (Option.mem_toList.mp given) (same.trans named.symm)
  keyed value entry member := by
    rw [List.mem_singleton.mp member]
    exact List.mem_cons_self
  exact value before after clear rest := by
    have spot : (before ++ [(key, w.write value)] ++ after).lookup key = some (w.write value) :=
      lookup_spot fun entry member same => clear entry member (same ▸ known_field.mpr mine)
    have found : (also.bind fun text => (before ++ [(key, w.write value)] ++ after).lookup text).or
        ((before ++ [(key, w.write value)] ++ after).lookup name) = some (w.write value) := by
      rcases mine with rfl | rfl
      · cases also with
        | none => exact spot
        | some text =>
          have aliased : (before ++ [(key, w.write value)] ++ after).lookup text = none := by
            refine lookup_absent fun entry member same => ?_
            have given : entry.1 ∈ (Fields.field key (some text) c missing other plain).known :=
              known_field.mpr (.inr (congrArg some same.symm))
            rcases List.mem_append.mp member with front | back
            · rcases List.mem_append.mp front with early | late
              · exact clear entry early given
              · rw [List.mem_singleton.mp late] at same
                exact other text rfl same.symm
            · exact rest entry back given
          rw [Option.bind_some, aliased, Option.none_or]
          exact spot
      · rw [Option.bind_some, spot, Option.some_or]
    change (match (also.bind fun text => (before ++ [(key, w.write value)] ++ after).lookup text).or
      ((before ++ [(key, w.write value)] ++ after).lookup name) with
      | some doc => c.validate doc
      | none => missing) = _
    rw [found]
    exact w.exact value
  calm value calm entry member := by
    rw [List.mem_singleton.mp member]
    exact w.calm value (calm (name, c.dump value) List.mem_cons_self)

variable {f : Fields D ε α} {g : Fields D ε β} {distinct : ∀ name ∈ f.known, name ∉ g.known}

def pair (w : f.Spelling) (v : g.Spelling) : (f.pair g distinct).Spelling where
  keys := w.keys ++ v.keys
  write value := w.write value.1 ++ v.write value.2
  known key member := known_pair.mpr ((List.mem_append.mp member).imp (w.known key) (v.known key))
  owned pair member := by
    rcases List.mem_append.mp member with left | right
    · exact List.mem_append_left _ (w.owned pair left)
    · exact List.mem_append_right _ (v.owned pair right)
  once pair member first second := by
    rcases List.mem_append.mp member with left | right
    · have named : pair.2 ∈ f.known := List.mem_append_left _ (w.owned pair left)
      rcases List.mem_append.mp first with here | there
      · rcases List.mem_append.mp second with again | other
        · exact w.once pair left here again
        · exact distinct pair.2 named (v.known pair.2 other)
      · exact distinct pair.1 (alias_known left) (v.known pair.1 there)
    · have named : pair.2 ∈ g.known := List.mem_append_left _ (v.owned pair right)
      rcases List.mem_append.mp first with there | here
      · exact distinct pair.1 (w.known pair.1 there) (alias_known right)
      · rcases List.mem_append.mp second with other | again
        · exact distinct pair.2 (w.known pair.2 other) named
        · exact v.once pair right here again
  keyed value entry member := by
    rcases List.mem_append.mp member with left | right
    · exact List.mem_append_left _ (w.keyed value.1 entry left)
    · exact List.mem_append_right _ (v.keyed value.2 entry right)
  exact value before after clear rest := by
    have first := w.exact value.1 before (v.write value.2 ++ after)
      (fun entry member listed => clear entry member (known_pair.mpr (.inl listed))) fun entry member listed => by
        rcases List.mem_append.mp member with written | late
        · exact distinct entry.1 listed (v.known _ (v.keyed _ entry written))
        · exact rest entry late (known_pair.mpr (.inl listed))
    have second := v.exact value.2 (before ++ w.write value.1) after (fun entry member listed => by
        rcases List.mem_append.mp member with early | written
        · exact clear entry early (known_pair.mpr (.inr listed))
        · exact distinct entry.1 (w.known _ (w.keyed _ entry written)) listed)
      fun entry member listed => rest entry member (known_pair.mpr (.inr listed))
    simp only [List.append_assoc] at first second
    change (f.read _ >>= fun left => g.read _ >>= fun right => pure (left, right)) = _
    simp only [List.append_assoc]
    rw [first, second]
    rfl
  calm value calm entry member := by
    rcases List.mem_append.mp member with left | right
    · exact w.calm value.1 (fun entry inside => calm entry (List.mem_append_left _ inside)) entry left
    · exact v.calm value.2 (fun entry inside => calm entry (List.mem_append_right _ inside)) entry right

/-- A model with extension fields, its known ones spelled so. -/
def openObject (w : f.Spelling) {other twice : ε} : (f.openObject other twice).Spelling where
  write value := obj (w.write value.1 ++ value.2.val)
  exact value := by
    obtain ⟨value, extra, outside⟩ := value
    have clear : f.shadowed (w.write value ++ extra) = false := by
      have inside (key : String) (mine : key ∈ f.known)
          (given : ((w.write value ++ extra).any fun entry => entry.1 = key) = true) : key ∈ w.keys := by
        obtain ⟨entry, member, same⟩ := List.any_eq_true.mp given
        obtain rfl : entry.1 = key := of_decide_eq_true same
        rcases List.mem_append.mp member with written | added
        · exact w.keyed value entry written
        · exact absurd mine (outside entry added)
      rw [shadowed, List.any_eq_false]
      intro pair member both
      obtain ⟨first, second⟩ := Bool.and_eq_true_iff.mp both
      exact w.once pair member (inside pair.1 (alias_known member) first)
        (inside pair.2 (List.mem_append_left _ (w.owned pair member)) second)
    have read : f.read (w.write value ++ extra) = .ok value :=
      w.exact value [] extra (fun _ member => nomatch member) outside
    have kept : ((w.write value ++ extra).filter fun entry => decide (entry.1 ∉ f.known)) = extra := by
      rw [List.filter_append, List.filter_eq_nil_iff.mpr fun entry written => ?_, List.nil_append]
      · exact List.filter_eq_self.mpr fun entry added => decide_eq_true (outside entry added)
      · exact fun outside => of_decide_eq_true outside (w.known _ (w.keyed value entry written))
    change (match dict (obj (w.write value ++ extra)) with | some fields => _ | none => _) = _
    rw [dict_obj]
    simp only [clear, read]
    exact congrArg Except.ok (Prod.ext rfl (Subtype.ext kept))
  calm value calm := by
    refine (tame_obj _).mpr fun entry member => ?_
    have each := (tame_obj _).mp calm
    rcases List.mem_append.mp member with written | added
    · exact w.calm value.1 (fun entry inside => each entry (List.mem_append_left _ inside)) entry written
    · exact each entry (List.mem_append_right _ added)

end Spelling

/-! ## What was read -/

theorem pair_ok {f : Fields D ε α} {g : Fields D ε β} {distinct : ∀ name ∈ f.known, name ∉ g.known}
    {fields : List (String × D)} {value : α × β} : (f.pair g distinct).read fields = .ok value ↔
      f.read fields = .ok value.1 ∧ g.read fields = .ok value.2 := by
  change (f.read fields >>= fun left => g.read fields >>= fun right => pure (left, right)) = _ ↔ _
  cases f.read fields with
  | error error => exact ⟨nofun, fun both => nomatch both.1⟩
  | ok left =>
    cases g.read fields with
    | error error => exact ⟨nofun, fun both => nomatch both.2⟩
    | ok right =>
      obtain ⟨first, second⟩ := value
      constructor
      · rintro ⟨⟩
        exact ⟨rfl, rfl⟩
      · rintro ⟨⟨⟩, ⟨⟩⟩
        rfl

theorem field_given {name : String} {also : Option String} {c : Codec D ε α} {missing : Except ε α}
    {other : ∀ text ∈ also, text ≠ name} {plain : ∀ value, missing = .ok value → tame (c.dump value)}
    {fields : List (String × D)} {doc : D}
    (given : (also.bind fun text => fields.lookup text).or (fields.lookup name) = some doc) :
    (field name also c missing other plain).read fields = c.validate doc := by
  change (match (also.bind fun text => fields.lookup text).or (fields.lookup name) with
    | some doc => c.validate doc
    | none => missing) = _
  rw [given]

/-- An object is accepted if no field is given twice and the known ones can be read; the
rest is kept. -/
theorem openObject_ok {f : Fields D ε α} {other twice : ε} {doc : D} {value : α × f.Extra} :
    (f.openObject other twice).validate doc = .ok value ↔ ∃ fields, dict doc = some fields ∧
      f.shadowed fields = false ∧ f.read fields = .ok value.1 ∧
      value.2.val = fields.filter fun entry => decide (entry.1 ∉ f.known) := by
  constructor
  · intro accepted
    dsimp only [openObject] at accepted
    split at accepted
    · rename_i fields found
      cases clear : f.shadowed fields with
      | true =>
        rw [clear] at accepted
        contradiction
      | false =>
        cases got : f.read fields with
        | error error =>
          rw [clear, got] at accepted
          contradiction
        | ok inner =>
          rw [clear, got] at accepted
          cases accepted
          exact ⟨fields, found, clear, got, rfl⟩
    · contradiction
  · rintro ⟨fields, found, clear, got, extra⟩
    dsimp only [openObject]
    simp only [found, clear, got]
    exact congrArg Except.ok (Prod.ext rfl (Subtype.ext extra.symm))

end Fields

theorem Codec.refine_ok {c : Codec D ε α} {pack : α → Except ε β} {unpack : β → α}
    {packs : ∀ value, pack (unpack value) = .ok value}
    {unpacks : ∀ raw value, pack raw = .ok value → unpack value = raw} {doc : D} {value : β} :
    (c.refine pack unpack packs unpacks).validate doc = .ok value ↔
      c.validate doc = .ok (unpack value) := by
  change c.validate doc >>= pack = _ ↔ _
  cases c.validate doc with
  | error error => exact ⟨nofun, nofun⟩
  | ok raw =>
    constructor
    · intro packed
      rw [unpacks raw value packed]
    · rintro ⟨⟩
      exact packs value

end Wire
