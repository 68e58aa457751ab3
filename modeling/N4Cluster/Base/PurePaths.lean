import N4Cluster.Base.Paths

/-! Paths as programs hold them: parsed, joined and written out again. Where a path leads
depends on where its reader stands, unless it starts at the root. -/
namespace Paths

/-- A component that parsing keeps. -/
def Plain (name : Name) : Prop := name ≠ [] ∧ name ≠ ['.'] ∧ '/' ∉ name

instance decidablePlain (name : Name) : Decidable (Plain name) := inferInstanceAs (Decidable (_ ∧ _ ∧ _))

structure PurePath where
  rooted : Bool
  names : List Name
  plain : ∀ name ∈ names, Plain name

theorem components_plain {text : List Char} {name : Name} (member : name ∈ components text) : Plain name := by
  obtain ⟨inside, kept⟩ := List.mem_filter.mp member
  obtain ⟨nonempty, undotted⟩ := of_decide_eq_true kept
  exact ⟨nonempty, undotted, mem_splitOn inside⟩

/-- Plain components, joined, are found again. -/
theorem components_intercalate {names : List Name} (plain : ∀ name ∈ names, Plain name) :
    components (['/'].intercalate names) = names := by
  by_cases empty : names = []
  · rw [empty]
    rfl
  · have split : (['/'].intercalate names).splitOn '/' = names :=
      List.splitOn_intercalate '/' (fun name member => (plain name member).2.2) empty
    rw [components, split, kept, List.filter_eq_self]
    exact fun name member => decide_eq_true ⟨(plain name member).1, (plain name member).2.1⟩

theorem components_rooted (text : List Char) : components ('/' :: text) = components text := by
  rw [components, splitOn_cons]
  rfl

theorem intercalate_relative {names : List Name} (plain : ∀ name ∈ names, Plain name) :
    absolute (['/'].intercalate names) = false := by
  cases names with
  | nil => rfl
  | cons name rest =>
    obtain ⟨nonempty, _, unslashed⟩ := plain name List.mem_cons_self
    obtain ⟨c, more, rfl⟩ := List.exists_cons_of_ne_nil nonempty
    have other : c ≠ '/' := fun same => unslashed (same ▸ List.mem_cons_self)
    have starts : (['/'].intercalate ((c :: more) :: rest)).head? = some c := by
      cases rest <;> rfl
    rw [absolute, starts]
    simpa using other

/-- A walk over names none of which is the parent only descends. -/
theorem walk_descends {names : List Name} (down : parent ∉ names) (place : Place) : walk place names = place ++ names := by
  induction names generalizing place with
  | nil => exact (List.append_nil place).symm
  | cons name rest ih =>
    have here : name ≠ parent := fun same => down (same ▸ List.mem_cons_self)
    have below : descend place name = place ++ [name] := if_neg here
    rw [walk, List.foldl_cons, below]
    refine (ih (fun member => down (List.mem_cons_of_mem _ member)) _).trans ?_
    rw [List.append_assoc, List.singleton_append]

namespace PurePath

@[ext] theorem ext {p q : PurePath} (rooted : p.rooted = q.rooted) (names : p.names = q.names) : p = q := by
  cases p
  cases q
  cases rooted
  cases names
  rfl

def parse (text : List Char) : PurePath where
  rooted := absolute text
  names := components text
  plain _ member := components_plain member

/-- `p / q`; a second path that is absolute stays what it is. -/
def slash (p q : PurePath) : PurePath :=
  if q.rooted then q
  else
    { rooted := p.rooted
      names := p.names ++ q.names
      plain := fun name member => (List.mem_append.mp member).elim (p.plain name) (q.plain name) }

/-- `str(p)`. -/
def render (p : PurePath) : List Char :=
  if p.rooted then '/' :: ['/'].intercalate p.names
  else if p.names = [] then ['.'] else ['/'].intercalate p.names

def str (p : PurePath) : String := String.ofList p.render

/-- `p / name`. -/
def child (p : PurePath) (name : String) : PurePath := p.slash (parse name.toList)

/-- Where the path leads from a place, without links. -/
def leads (place : Place) (p : PurePath) : Place := walk (if p.rooted then [] else place) p.names

/-- What is written of a path is read as that path. -/
theorem parse_render (p : PurePath) : parse p.render = p := by
  unfold render
  split
  · rename_i rooted
    exact ext rooted.symm ((components_rooted _).trans (components_intercalate p.plain))
  · rename_i relative
    have relative := Bool.eq_false_iff.mpr relative
    split
    · rename_i empty
      exact ext relative.symm empty.symm
    · exact ext ((intercalate_relative p.plain).trans relative.symm) (components_intercalate p.plain)

theorem parse_str (p : PurePath) : parse p.str.toList = p := by
  rw [str, String.toList_ofList]
  exact p.parse_render

variable {p q : PurePath} {place other : Place}

/-- A path with a plain name added to it. -/
theorem child_eq {name : String} (plain : Plain name.toList) :
    (p.child name).rooted = p.rooted ∧ (p.child name).names = p.names ++ [name.toList] := by
  have single : ∀ other ∈ [name.toList], Plain other := fun other member => List.mem_singleton.mp member ▸ plain
  have text : ['/'].intercalate [name.toList] = name.toList := List.intercalate_singleton
  have names : (parse name.toList).names = [name.toList] :=
    (congrArg components text).symm.trans (components_intercalate single)
  have relative : (parse name.toList).rooted = false := (congrArg absolute text).symm.trans (intercalate_relative single)
  have joined : p.child name = { rooted := p.rooted, names := p.names ++ (parse name.toList).names, plain := _ } :=
    if_neg (Bool.eq_false_iff.mp relative)
  rw [joined]
  exact ⟨rfl, congrArg (p.names ++ ·) names⟩

/-- A plain name leads one entry down. -/
theorem leads_child {name : String} (plain : Plain name.toList) (down : name.toList ≠ parent) :
    (p.child name).leads place = p.leads place ++ [name.toList] := by
  obtain ⟨rooted, names⟩ := child_eq (p := p) plain
  rw [leads, rooted, names]
  exact walk_snoc _ _ down

theorem leads_rooted (rooted : p.rooted = true) (place other : Place) : p.leads place = p.leads other := by
  rw [leads, leads, rooted]
  rfl

/-- Whoever reads them, the one path leads down from where the other leads. -/
def Below (p q : PurePath) : Prop := ∃ names, ∀ place, q.leads place = p.leads place ++ names

theorem Below.refl (p : PurePath) : Below p p := ⟨[], fun _ => (List.append_nil _).symm⟩

theorem Below.child {name : String} (below : Below p q) (plain : Plain name.toList) (down : name.toList ≠ parent) :
    Below p (q.child name) := by
  obtain ⟨names, leads⟩ := below
  exact ⟨names ++ [name.toList], fun place => by rw [leads_child plain down, leads, List.append_assoc]⟩

/-- A path below another is one for two readers exactly if the other is. -/
theorem Below.leads_iff (below : Below p q) : q.leads place = q.leads other ↔ p.leads place = p.leads other := by
  obtain ⟨names, leads⟩ := below
  rw [leads, leads]
  exact List.append_left_inj _

/-- A relative path that never climbs does not lead from where it leads to the same place. -/
theorem leads_again (down : parent ∉ p.names) (some_name : p.names ≠ []) :
    p.leads (p.leads place) = p.leads place ↔ p.rooted = true := by
  cases rooted : p.rooted with
  | true => simp only [leads_rooted rooted (p.leads place) place]
  | false =>
    have here (from' : Place) : p.leads from' = from' ++ p.names := by
      rw [leads, rooted]
      exact walk_descends down from'
    rw [here, here]
    simp [some_name]

end PurePath

end Paths
