import N4Cluster.Base.Backtracking
import N4Cluster.Server.Auth
import Mathlib.Data.Finset.Dedup
import Mathlib.Data.Finset.Insert
import Mathlib.Data.List.DropRight

/-! What a client reads from the text of a 403: the principal and the rights it lacks. -/
namespace N4Cluster
open Backtracking

/-- A character that `strip` removes, which is what `\s` matches. -/
def isSpace (c : Char) : Bool :=
  c ∈ ['\t', '\n', '\x0b', '\x0c', '\r', '\x1c', '\x1d', '\x1e', '\x1f', ' ', '\x85', '\xa0', '\u1680',
    '\u2028', '\u2029', '\u202f', '\u205f', '\u3000'] || 0x2000 ≤ c.toNat && c.toNat ≤ 0x200a

def strip (text : List Char) : List Char := (text.dropWhile isSpace).rdropWhile isSpace

/-- `.` matches anything but a newline. -/
def dot (c : Char) : Bool := c != '\n'

/-- `$`, which also matches before a newline at the end. -/
def atEnd (text : List Char) : Bool := text.isEmpty || text == ['\n']

def isQuote (c : Char) : Bool := c == '\''

/-- `principal '([^']*)'`. -/
def principalRe : List Char → Option (List Char) :=
  literal "principal '".toList <|
    greedy (fun c => !isQuote c) (fun group => one isQuote fun _ _ => some group) []

/-- `\s*$`, after a group. -/
def closing (group : List Char) : List Char → Option (List Char) :=
  greedy isSpace (fun _ text => if atEnd text then some group else none) []

def missingWord : List Char := "lacks required right(s):".toList

/-- `lacks required right\(s\):\s*(.+?)\s*$`. -/
def missingRightsRe : List Char → Option (List Char) :=
  literal missingWord <| greedy isSpace (fun _ => one dot fun c => reluctant dot closing [c]) []

def parseMissingRights (detail : Option String) : Option String × Finset String :=
  match detail with
  | none | some "" => (none, ∅)
  | some detail =>
    ((search principalRe detail.toList).map String.ofList,
      match search missingRightsRe detail.toList with
      | some group =>
        ((((group.splitOn ',').map strip).filter fun name => name ≠ []).map String.ofList).toFinset
      | none => ∅)

/-! ## The two patterns -/

theorem principal_sound {text group : List Char} (found : principalRe text = some group) : '\'' ∉ group := by
  obtain ⟨rest, -, found⟩ := literal_iff.mp found
  obtain ⟨body, after, -, all, found⟩ := greedy_sound found
  obtain ⟨c, last, -, -, same⟩ := one_iff.mp found
  obtain rfl := Option.some.inj same
  intro member
  have inside := all '\'' member
  simp [isQuote] at inside

theorem principal_quoted {body : List Char} (bare : '\'' ∉ body) (rest : List Char) :
    principalRe ("principal '".toList ++ (body ++ '\'' :: rest)) = some body := by
  refine literal_iff.mpr ⟨_, rfl, greedy_longest ?_ ?_ ?_⟩
  · intro c member
    have other : c ≠ '\'' := fun same => bare (same ▸ member)
    simp [isQuote, other]
  · intro c first
    obtain rfl := Option.some.inj first
    rfl
  · exact one_iff.mpr ⟨'\'', rest, rfl, rfl, rfl⟩

theorem closing_iff {group text w : List Char} (found : closing group text = some w) :
    w = group ∧ ∃ gap last, text = gap ++ last ∧ (∀ c ∈ gap, isSpace c = true) ∧ atEnd last = true := by
  obtain ⟨gap, last, split, spaces, found⟩ := greedy_sound found
  split at found
  · rename_i ends
    exact ⟨(Option.some.inj found).symm, gap, last, split, spaces, ends⟩
  · cases found

theorem atEnd_space {text : List Char} (ends : atEnd text = true) : ∀ c ∈ text, isSpace c = true := by
  simp only [atEnd, Bool.or_eq_true, List.isEmpty_iff, beq_iff_eq] at ends
  rcases ends with rfl | rfl
  · exact List.forall_mem_nil _
  · intro c member
    obtain rfl := List.mem_singleton.mp member
    decide

/-- Around the group there is nothing but spaces. -/
theorem missing_sound {text group : List Char} (found : missingRightsRe text = some group) :
    ∃ gap after, text = missingWord ++ (gap ++ group ++ after) ∧ (∀ c ∈ gap, isSpace c = true) ∧
      ∀ c ∈ after, isSpace c = true := by
  obtain ⟨rest, rfl, found⟩ := literal_iff.mp found
  obtain ⟨gap, rest, rfl, spaces, found⟩ := greedy_sound found
  obtain ⟨c, rest, rfl, -, found⟩ := one_iff.mp found
  obtain ⟨body, rest, rfl, -, found⟩ := reluctant_sound found
  obtain ⟨rfl, trailing, last, rfl, more, ends⟩ := closing_iff found
  refine ⟨gap, trailing ++ last, by simp, spaces, ?_⟩
  intro d member
  rcases List.mem_append.mp member with early | late
  · exact more d early
  · exact atEnd_space ends d late

theorem missing_reaches {c : Char} {text : List Char} (lines : ∀ d ∈ c :: text, dot d = true) :
    ∃ group, missingRightsRe (missingWord ++ c :: text) = some group := by
  obtain ⟨here, later⟩ := List.forall_mem_cons.mp lines
  have stops : closing ([c] ++ text) [] = some (c :: text) := rfl
  obtain ⟨w, run⟩ := reluctant_reaches later stops
  rw [List.append_nil] at run
  have first : one dot (fun c => reluctant dot closing [c]) (c :: text) = some w :=
    one_iff.mpr ⟨c, text, rfl, here, run⟩
  have spaced : ∃ group, greedy isSpace (fun _ => one dot fun c => reluctant dot closing [c]) []
      ([] ++ c :: text) = some group := greedy_reaches (List.forall_mem_nil _) first
  obtain ⟨group, found⟩ := spaced
  exact ⟨group, literal_iff.mpr ⟨_, rfl, found⟩⟩

/-- One space, then a group that ends in something else. -/
theorem missing_found {c : Char} {text : List Char} (lines : ∀ d ∈ c :: text, dot d = true)
    (front : isSpace c = false) (back : ∀ d ∈ (c :: text).getLast?, isSpace d = false) :
    missingRightsRe (missingWord ++ ' ' :: c :: text) = some (c :: text) := by
  obtain ⟨here, later⟩ := List.forall_mem_cons.mp lines
  refine literal_iff.mpr ⟨_, rfl, ?_⟩
  have run : reluctant dot closing [c] (text ++ []) = some ([c] ++ text) := by
    apply reluctant_first later
    · intro early rest split longer
      rw [List.append_nil]
      cases stops : closing ([c] ++ early) rest with
      | none => rfl
      | some w =>
        obtain ⟨-, gap, last, rfl, spaces, ends⟩ := closing_iff stops
        have final : (gap ++ last).getLast longer ∈ (c :: text).getLast? := by
          rw [split, ← List.cons_append, List.getLast?_append_of_ne_nil _ longer]
          exact List.getLast?_eq_some_getLast longer
        have space : isSpace ((gap ++ last).getLast longer) = true := by
          rcases List.mem_append.mp (List.getLast_mem longer) with inside | inside
          · exact spaces _ inside
          · exact atEnd_space ends _ inside
        rw [back _ final] at space
        cases space
    · rfl
  have first : one dot (fun c => reluctant dot closing [c]) (c :: text) = some (c :: text) :=
    one_iff.mpr ⟨c, text, rfl, here, by rwa [List.append_nil] at run⟩
  have gap : greedy isSpace (fun _ => one dot fun c => reluctant dot closing [c]) [] ([' '] ++ c :: text) =
      some (c :: text) := by
    apply greedy_longest
    · intro d member
      obtain rfl := List.mem_singleton.mp member
      decide
    · intro d next
      obtain rfl := Option.some.inj next
      exact front
    · exact first
  exact gap

/-! ## The list of rights -/

/-- The rights as the server writes them, one after the other. -/
def joined (rights : List Right) : List Char := ", ".toList.intercalate (rights.map fun right => right.value.toList)

theorem joined_cons (right other : Right) (rest : List Right) :
    joined (right :: other :: rest) = right.value.toList ++ ", ".toList ++ joined (other :: rest) :=
  List.intercalate_cons_cons

theorem joined_all {holds : Char → Prop} (comma : holds ',') (space : holds ' ')
    (letters : ∀ right : Right, ∀ c ∈ right.value.toList, holds c) (rights : List Right) :
    ∀ c ∈ joined rights, holds c := by
  induction rights with
  | nil => exact List.forall_mem_nil _
  | cons right rest ih =>
    cases rest with
    | nil =>
      intro c member
      rw [joined, List.map_cons, List.map_nil, List.intercalate_singleton] at member
      exact letters right c member
    | cons other rest =>
      rw [joined_cons, List.forall_mem_append, List.forall_mem_append]
      refine ⟨⟨letters right, ?_⟩, ih⟩
      intro c member
      have either : c = ',' ∨ c = ' ' := by simpa using member
      rcases either with rfl | rfl
      · exact comma
      · exact space

theorem value_first (right : Right) : ∃ c text, right.value.toList = c :: text ∧ isSpace c = false := by
  cases right <;> exact ⟨_, _, rfl, by decide⟩

theorem joined_first (right : Right) (rest : List Right) :
    ∃ c text, joined (right :: rest) = c :: text ∧ isSpace c = false := by
  obtain ⟨c, text, value, letter⟩ := value_first right
  cases rest with
  | nil =>
    refine ⟨c, text, ?_, letter⟩
    rw [joined, List.map_cons, List.map_nil, List.intercalate_singleton, value]
  | cons other rest =>
    refine ⟨c, text ++ ", ".toList ++ joined (other :: rest), ?_, letter⟩
    rw [joined_cons, value]
    rfl

theorem value_last (right : Right) : ∀ d ∈ right.value.toList.getLast?, isSpace d = false := by
  have last : ∃ c, right.value.toList.getLast? = some c ∧ isSpace c = false := by
    cases right <;> exact ⟨_, rfl, by decide⟩
  obtain ⟨c, final, letter⟩ := last
  intro d member
  rw [final] at member
  obtain rfl := Option.some.inj member
  exact letter

theorem joined_last (right : Right) (rest : List Right) :
    ∀ d ∈ (joined (right :: rest)).getLast?, isSpace d = false := by
  induction rest generalizing right with
  | nil =>
    rw [joined, List.map_cons, List.map_nil, List.intercalate_singleton]
    exact value_last right
  | cons other rest ih =>
    obtain ⟨c, text, whole, -⟩ := joined_first other rest
    rw [joined_cons, List.getLast?_append_of_ne_nil _ (by rw [whole]; exact List.cons_ne_nil c text)]
    exact ih other

theorem joined_commas (right : Right) (rest : List Right) :
    joined (right :: rest) =
      [','].intercalate (right.value.toList :: rest.map fun right => ' ' :: right.value.toList) := by
  induction rest generalizing right with
  | nil => rfl
  | cons other rest ih =>
    have spaced (left : List Char) (words : List (List Char)) :
        [','].intercalate ((' ' :: left) :: words) = ' ' :: [','].intercalate (left :: words) := by
      cases words with
      | nil => rw [List.intercalate_singleton, List.intercalate_singleton]
      | cons word words => rw [List.intercalate_cons_cons, List.intercalate_cons_cons]; rfl
    rw [joined_cons, ih, List.map_cons, List.intercalate_cons_cons, spaced, List.append_assoc, List.append_assoc]
    rfl

theorem strip_value (right : Right) :
    strip right.value.toList = right.value.toList ∧ strip (' ' :: right.value.toList) = right.value.toList := by
  cases right <;> decide

theorem joined_pieces (right : Right) (rest : List Right) :
    (((joined (right :: rest)).splitOn ',').map strip).filter (fun name => name ≠ []) =
      (right :: rest).map fun right => right.value.toList := by
  have comma (right : Right) : ',' ∉ right.value.toList := by cases right <;> decide
  have pieces : (joined (right :: rest)).splitOn ',' =
      right.value.toList :: rest.map fun right => ' ' :: right.value.toList := by
    rw [joined_commas, List.splitOn_intercalate]
    · intro word member
      rcases List.mem_cons.mp member with rfl | member
      · exact comma right
      · obtain ⟨other, -, rfl⟩ := List.mem_map.mp member
        simpa using comma other
    · exact List.cons_ne_nil _ _
  have stripped : ((joined (right :: rest)).splitOn ',').map strip =
      (right :: rest).map fun right => right.value.toList := by
    rw [pieces, List.map_cons, (strip_value right).1, List.map_map, List.map_cons]
    congr 1
    apply List.map_congr_left
    intro other _
    exact (strip_value other).2
  rw [stripped, List.filter_eq_self]
  intro word member
  obtain ⟨other, -, rfl⟩ := List.mem_map.mp member
  obtain ⟨c, text, value, -⟩ := value_first other
  rw [value]
  rfl

theorem mem_dropWhile {c : Char} {text : List Char} (member : c ∈ text) (kept : isSpace c = false) :
    c ∈ text.dropWhile isSpace := by
  rw [← List.takeWhile_append_dropWhile (p := isSpace) (l := text)] at member
  rcases List.mem_append.mp member with dropped | inside
  · rw [List.mem_takeWhile_imp dropped] at kept
    cases kept
  · exact inside

theorem mem_strip {c : Char} {text : List Char} (member : c ∈ text) (kept : isSpace c = false) :
    c ∈ strip text :=
  List.mem_reverse.mpr (mem_dropWhile (List.mem_reverse.mpr (mem_dropWhile member kept)) kept)

/-- A character that is neither a comma nor a space stays in some piece. -/
theorem mem_pieces {c : Char} {text : List Char} (member : c ∈ text) (other : c ≠ ',')
    (kept : isSpace c = false) :
    ∃ piece ∈ ((text.splitOn ',').map strip).filter (fun name => name ≠ []), c ∈ piece := by
  have inside (pieces : List (List Char)) (member : c ∈ [','].intercalate pieces) : ∃ piece ∈ pieces, c ∈ piece := by
    induction pieces with
    | nil => cases member
    | cons piece rest ih =>
      cases rest with
      | nil =>
        rw [List.intercalate_singleton] at member
        exact ⟨piece, List.mem_cons_self, member⟩
      | cons next rest =>
        rw [List.intercalate_cons_cons, List.mem_append, List.mem_append, List.mem_singleton] at member
        rcases member with (here | comma) | later
        · exact ⟨piece, List.mem_cons_self, here⟩
        · exact absurd comma other
        · obtain ⟨found, among, within⟩ := ih later
          exact ⟨found, List.mem_cons_of_mem _ among, within⟩
  rw [← (List.intercalate_splitOn ',' : [','].intercalate (text.splitOn ',') = text)] at member
  obtain ⟨piece, among, within⟩ := inside _ member
  have stripped := mem_strip within kept
  refine ⟨strip piece, List.mem_filter.mpr ⟨List.mem_map_of_mem among, ?_⟩, stripped⟩
  simpa using List.ne_nil_of_mem stripped

/-! ## The round trip -/

section
variable {printable : Char → Bool} {name : String} {missing : List Right}

theorem detail_read {detail : String} (some_text : detail ≠ "") :
    parseMissingRights (some detail) =
      ((search principalRe detail.toList).map String.ofList,
        match search missingRightsRe detail.toList with
        | some group =>
          ((((group.splitOn ',').map strip).filter fun name => name ≠ []).map String.ofList).toFinset
        | none => ∅) := by
  rw [parseMissingRights]
  exact some_text

theorem detail_toList (printable : Char → Bool) (name : String) (missing : List Right) :
    (forbiddenDetail printable name missing).toList =
      "principal ".toList ++ Quoting.repr printable name.toList ++ " lacks required right(s): ".toList ++
        joined missing :=
  String.toList_ofList

theorem opening_quote : "principal '".toList = "principal ".toList ++ ['\''] := by decide +kernel

theorem lacks_words : " lacks required right(s): ".toList = ' ' :: (missingWord ++ [' ']) := by
  decide +kernel

/-- A name without single quotes stands between two of them. -/
theorem detail_quoted (bare : '\'' ∉ name.toList) (missing : List Right) :
    (forbiddenDetail printable name missing).toList =
      "principal '".toList ++ (name.toList.flatMap (Quoting.escape printable '\'') ++
        '\'' :: ' ' :: (missingWord ++ ' ' :: joined missing)) := by
  rw [detail_toList, Quoting.repr, Quoting.quoteOf_bare bare, opening_quote, lacks_words]
  simp only [List.append_assoc, List.cons_append, List.nil_append]

theorem detail_text (printable : Char → Bool) (name : String) (missing : List Right) :
    forbiddenDetail printable name missing ≠ "" := by
  intro empty
  have nothing := congrArg String.toList empty
  rw [detail_toList] at nothing
  simp [Quoting.repr] at nothing

theorem principal_read (bare : '\'' ∉ name.toList) (missing : List Right) :
    search principalRe (forbiddenDetail printable name missing).toList =
      some (name.toList.flatMap (Quoting.escape printable '\'')) := by
  rw [detail_quoted bare]
  exact search_here (principal_quoted (Quoting.body_unquoted bare) _)

theorem joined_lines (missing : List Right) : ∀ d ∈ joined missing, dot d = true := by
  apply joined_all
  · rfl
  · rfl
  · intro right
    apply List.all_eq_true.mp
    cases right <;> decide

theorem rights_read (bare : '\'' ∉ name.toList)
    (asis : name.toList.flatMap (Quoting.escape printable '\'') = name.toList)
    (apart : ¬missingWord <:+: name.toList) (right : Right) (rest : List Right) :
    search missingRightsRe (forbiddenDetail printable name (right :: rest)).toList =
      some (joined (right :: rest)) := by
  obtain ⟨c, text, whole, front⟩ := joined_first right rest
  have found : missingRightsRe (missingWord ++ ' ' :: joined (right :: rest)) = some (joined (right :: rest)) := by
    have lines := joined_lines (right :: rest)
    have back := joined_last right rest
    rw [whole] at lines back ⊢
    exact missing_found lines front back
  obtain ⟨after, same, found⟩ := literal_iff.mp found
  obtain rfl := List.append_cancel_left same
  have free : '\'' ∉ missingWord := by decide
  have alone : ¬missingWord <:+: "principal ".toList ++ '\'' :: (name.toList ++ '\'' :: [' ']) ++ missingWord.dropLast := by
    rw [List.append_assoc, List.cons_append, List.append_assoc, List.cons_append]
    intro inside
    rcases infix_around free inside with early | inside
    · exact absurd early.length_le (by decide)
    · rcases infix_around free inside with within | late
      · exact apart within
      · exact absurd (late.eq_of_length (by decide)) (by decide)
  have read : search missingRightsRe _ = _ := search_literal alone found
  rw [detail_quoted bare, asis, opening_quote]
  simpa only [List.append_assoc, List.cons_append, List.nil_append] using read

/-- Where the words come up in the name already, a quote is read as part of a right. -/
theorem rights_misread (missing : List Right) (bare : '\'' ∉ name.toList)
    (asis : name.toList.flatMap (Quoting.escape printable '\'') = name.toList)
    (lines : ∀ d ∈ name.toList, dot d = true) (inside : missingWord <:+: name.toList) :
    ∃ group, search missingRightsRe (forbiddenDetail printable name missing).toList = some group ∧
      '\'' ∈ group := by
  obtain ⟨before, after, split⟩ := inside
  rw [← split, List.forall_mem_append] at lines
  rw [detail_quoted bare, asis, ← split]
  have rest_lines : ∀ d ∈ after ++ '\'' :: ' ' :: (missingWord ++ ' ' :: joined missing), dot d = true := by
    rw [List.forall_mem_append]
    refine ⟨lines.2, ?_⟩
    have words : ∀ d ∈ missingWord, dot d = true := List.all_eq_true.mp (by decide)
    simp only [List.forall_mem_cons, List.forall_mem_append]
    exact ⟨rfl, rfl, words, rfl, joined_lines missing⟩
  obtain ⟨c, text, whole⟩ : ∃ c text, after ++ '\'' :: ' ' :: (missingWord ++ ' ' :: joined missing) = c :: text := by
    cases after with
    | nil => exact ⟨_, _, rfl⟩
    | cons c after => exact ⟨_, _, rfl⟩
  rw [whole] at rest_lines
  obtain ⟨first, reached⟩ := missing_reaches rest_lines
  have again : ∃ back w, back <:+ "principal '".toList ++ before ++ (missingWord ++ c :: text) ∧
      missingWord ++ c :: text <:+ back ∧ missingRightsRe back = some w ∧
        search missingRightsRe ("principal '".toList ++ before ++ (missingWord ++ c :: text)) = some w :=
    search_reaches reached
  obtain ⟨back, group, -, ⟨front, rfl⟩, found, searched⟩ := again
  refine ⟨group, ?_, ?_⟩
  · rw [← whole] at searched
    simpa only [List.append_assoc] using searched
  · obtain ⟨gap, rest, split, spaces, ends⟩ := missing_sound found
    -- the match starts no later than in the name, so the closing quote comes after its words
    have one : c :: text <:+ front ++ (missingWord ++ c :: text) :=
      (List.suffix_append missingWord _).trans (List.suffix_append front _)
    have other : gap ++ group ++ rest <:+ front ++ (missingWord ++ c :: text) := by
      rw [split]
      exact List.suffix_append _ _
    have tail : c :: text <:+ gap ++ group ++ rest := by
      apply List.suffix_of_suffix_length_le one other
      have lengths := congrArg List.length split
      simp only [List.length_append] at lengths ⊢
      omega
    have quoted : '\'' ∈ gap ++ group ++ rest := by
      apply tail.subset
      rw [← whole]
      simp
    have kept : isSpace '\'' = false := by decide
    rcases List.mem_append.mp quoted with early | late
    · rcases List.mem_append.mp early with space | inside
      · rw [spaces _ space] at kept
        cases kept
      · exact inside
    · rw [ends _ late] at kept
      cases kept

/-- A name with a single quote is never read back. -/
theorem name_lost (quoted : '\'' ∈ name.toList) (missing : List Right) :
    (parseMissingRights (some (forbiddenDetail printable name missing))).1 ≠ some name := by
  rw [detail_read (detail_text printable name missing)]
  intro principal
  obtain ⟨group, found, same⟩ := Option.map_eq_some_iff.mp principal
  obtain ⟨_, _, -, matched⟩ := search_sound found
  have bare := principal_sound matched
  rw [← same, String.toList_ofList] at quoted
  exact bare quoted

/-- The client reads back what the server wrote exactly if the name is written as it is, and does
not itself contain the words that come before the rights. -/
theorem parse_recovers_iff (printable : Char → Bool) (name : String) (missing : List Right)
    (some_missing : missing ≠ []) :
    parseMissingRights (some (forbiddenDetail printable name missing)) =
        (some name, (missing.map Right.value).toFinset) ↔
      (∀ c ∈ name.toList, Quoting.plain printable '\'' c = true) ∧
        ¬"lacks required right(s):".toList <:+: name.toList := by
  obtain ⟨right, rest, rfl⟩ := List.exists_cons_of_ne_nil some_missing
  have lost (quoted : '\'' ∈ name.toList) :
      (parseMissingRights (some (forbiddenDetail printable name (right :: rest)))).1 ≠ some name :=
    name_lost quoted (right :: rest)
  rw [detail_read (detail_text printable name _)] at lost ⊢
  rw [Prod.mk.injEq]
  constructor
  · rintro ⟨principal, rights⟩
    have bare : '\'' ∉ name.toList := fun quoted => lost quoted principal
    obtain ⟨group, found, same⟩ := Option.map_eq_some_iff.mp principal
    obtain rfl : group = name.toList := by rw [← same, String.toList_ofList]
    rw [principal_read bare] at found
    have asis := Option.some.inj found
    have plain := Quoting.body_iff.mp asis
    refine ⟨plain, fun inside => ?_⟩
    have lines : ∀ d ∈ name.toList, dot d = true := by
      intro d member
      have itself := plain d member
      rw [dot, bne_iff_ne]
      rintro rfl
      simp [Quoting.plain, Quoting.shown] at itself
    obtain ⟨group, misread, quote⟩ := rights_misread (right :: rest) bare asis lines inside
    rw [misread] at rights
    obtain ⟨piece, among, within⟩ := mem_pieces quote (by decide) (by decide)
    have member : String.ofList piece ∈ ((right :: rest).map Right.value).toFinset := by
      rw [← rights]
      exact List.mem_toFinset.mpr (List.mem_map_of_mem among)
    obtain ⟨other, -, value⟩ := List.mem_map.mp (List.mem_toFinset.mp member)
    have free : '\'' ∉ other.value.toList := by cases other <;> decide
    rw [value, String.toList_ofList] at free
    exact free within
  · rintro ⟨plain, apart⟩
    have bare : '\'' ∉ name.toList := by
      intro quoted
      have itself := plain _ quoted
      simp [Quoting.plain] at itself
    have asis := Quoting.body_iff.mpr plain
    rw [principal_read bare, asis, rights_read bare asis apart]
    refine ⟨congrArg some String.ofList_toList, ?_⟩
    simp only
    rw [joined_pieces, List.map_map]
    congr 1
    apply List.map_congr_left
    intro other _
    exact String.ofList_toList

theorem parse_recovers_alice :
    parseMissingRights (some (forbiddenDetail (fun _ => true) "alice" [.submit, .cancel])) =
      (some "alice", ([.submit, .cancel].map Right.value).toFinset) :=
  (parse_recovers_iff (fun _ => true) "alice" [.submit, .cancel] (List.cons_ne_nil _ _)).mpr
    ⟨List.all_eq_true.mp (by decide +kernel), fun inside => absurd inside.length_le (by decide +kernel)⟩

/-- An apostrophe in the name, and it is lost. -/
theorem apostrophe_lost :
    parseMissingRights (some (forbiddenDetail (fun _ => true) "o'brien" [.submit])) ≠
      (some "o'brien", ([.submit].map Right.value).toFinset) := by
  intro same
  exact name_lost (by decide) [.submit] (congrArg Prod.fst same)

end
end N4Cluster
