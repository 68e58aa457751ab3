import Mathlib.Data.List.Basic
import Mathlib.Tactic.Common

/-! The text of JSON, as ASCII. A string is told from its text, and where a value ends is
told by the text itself, so lists of values are told from their texts. -/
namespace JsonText

/-! ## Strings -/

/-- Four hexadecimal digits. -/
def hex (n : Nat) : List Char :=
  [n / 4096 % 16, n / 256 % 16, n / 16 % 16, n % 16].map Nat.digitChar

/-- One unit of an escape. -/
def codeUnit (n : Nat) : List Char := '\\' :: 'u' :: hex n

/-- What follows the backslash of a short escape, and what it stands for. -/
def shorts : List (Char × Char) :=
  [('"', '"'), ('\\', '\\'), ('n', '\n'), ('r', '\r'), ('t', '\t'), ('b', '\x08'), ('f', '\x0c')]

/-- A character inside a string: beyond printable ASCII as one unit or as two surrogates. -/
def escape (c : Char) : List Char :=
  match shorts.find? fun short => short.2 = c with
  | some short => ['\\', short.1]
  | none =>
    if 32 ≤ c.toNat ∧ c.toNat ≤ 126 then [c]
    else if c.toNat < 65536 then codeUnit c.toNat
    else codeUnit (55296 + (c.toNat - 65536) / 1024) ++ codeUnit (56320 + (c.toNat - 65536) % 1024)

def quote (s : String) : List Char := '"' :: s.toList.flatMap escape ++ ['"']

def hexValue (c : Char) : Nat := if c.toNat < 58 then c.toNat - 48 else c.toNat - 87

/-- Reads one character of a string back. -/
def decode : List Char → Option (Char × List Char)
  | '\\' :: 'u' :: a :: b :: c :: d :: rest =>
    let high := hexValue a * 4096 + hexValue b * 256 + hexValue c * 16 + hexValue d
    if 55296 ≤ high ∧ high < 56320 then
      match rest with
      | '\\' :: 'u' :: a :: b :: c :: d :: rest =>
        let low := hexValue a * 4096 + hexValue b * 256 + hexValue c * 16 + hexValue d
        some (.ofNat (65536 + (high - 55296) * 1024 + (low - 56320)), rest)
      | _ => none
    else some (.ofNat high, rest)
  | '\\' :: c :: rest => (shorts.lookup c).map fun short => (short, rest)
  | c :: rest => some (c, rest)
  | [] => none

theorem hexValue_digit : ∀ d < 16, hexValue (Nat.digitChar d) = d := by decide

theorem hex_value {n : Nat} (small : n < 65536) :
    hexValue (n / 4096 % 16).digitChar * 4096 + hexValue (n / 256 % 16).digitChar * 256 +
      hexValue (n / 16 % 16).digitChar * 16 + hexValue (n % 16).digitChar = n := by
  rw [hexValue_digit _ (by omega), hexValue_digit _ (by omega), hexValue_digit _ (by omega),
    hexValue_digit _ (by omega)]
  omega

/-- No character is a surrogate. -/
theorem unpaired (c : Char) : c.toNat < 55296 ∨ 57344 ≤ c.toNat ∧ c.toNat < 1114112 := by
  obtain low | ⟨high, bound⟩ := c.valid
  · exact .inl low
  · exact .inr ⟨high, bound⟩

theorem decode_short : ∀ short ∈ shorts, ∀ rest, decode ('\\' :: short.1 :: rest) = some (short.2, rest) := by
  intro short member rest
  simp only [shorts, List.mem_cons, List.not_mem_nil, or_false] at member
  rcases member with rfl | rfl | rfl | rfl | rfl | rfl | rfl <;> rfl

theorem decode_unit {n : Nat} (small : n < 65536) (alone : n < 55296 ∨ 56320 ≤ n) (rest : List Char) :
    decode (codeUnit n ++ rest) = some (.ofNat n, rest) := by
  change (let high := _; if 55296 ≤ high ∧ high < 56320 then _ else _) = _
  dsimp only
  rw [hex_value small, if_neg (by omega)]
  rfl

theorem decode_pair {high low : Nat} (first : high < 1024) (second : low < 1024) (rest : List Char) :
    decode (codeUnit (55296 + high) ++ (codeUnit (56320 + low) ++ rest)) =
      some (.ofNat (65536 + high * 1024 + low), rest) := by
  change (let high := _; if 55296 ≤ high ∧ high < 56320 then _ else _) = _
  dsimp only
  rw [hex_value (by omega), if_pos (by omega)]
  change some (Char.ofNat (_ + (let low := _; low - 56320)), rest) = _
  dsimp only
  rw [hex_value (by omega), Nat.add_sub_cancel_left, Nat.add_sub_cancel_left]

theorem decode_escape (c : Char) (rest : List Char) : decode (escape c ++ rest) = some (c, rest) := by
  unfold escape
  split
  · rename_i short found
    obtain rfl : short.2 = c := by simpa using List.find?_some found
    exact decode_short short (List.mem_of_find?_eq_some found) rest
  · rename_i absent
    have bound := unpaired c
    split
    · have plain : c ≠ '\\' := by
        rintro rfl
        contradiction
      change decode (c :: rest) = _
      unfold decode
      split <;> simp_all
    · split
      · rw [decode_unit (by omega) (by omega), Char.ofNat_toNat]
      · rw [List.append_assoc, decode_pair (by omega) (by omega)]
        have same : 65536 + (c.toNat - 65536) / 1024 * 1024 + (c.toNat - 65536) % 1024 = c.toNat := by omega
        rw [same, Char.ofNat_toNat]

theorem escape_head (c : Char) : ∃ first rest, escape c = first :: rest ∧ first ≠ '"' := by
  unfold escape
  split
  · exact ⟨_, _, rfl, by decide⟩
  · rename_i absent
    split
    · refine ⟨c, [], rfl, ?_⟩
      rintro rfl
      contradiction
    · split <;> exact ⟨_, _, rfl, by decide⟩

/-- Where two strings stand before the end of their text they are told apart. -/
theorem escapes_split {s t r r' : List Char} (same : s.flatMap escape ++ '"' :: r = t.flatMap escape ++ '"' :: r') :
    s = t ∧ r = r' := by
  induction s generalizing t with
  | nil =>
    cases t with
    | nil => exact ⟨rfl, (List.cons.inj same).2⟩
    | cons c t =>
      obtain ⟨first, rest, written, apart⟩ := escape_head c
      rw [List.flatMap_cons, written] at same
      exact absurd (List.cons.inj same).1.symm apart
  | cons c s ih =>
    cases t with
    | nil =>
      obtain ⟨first, rest, written, apart⟩ := escape_head c
      rw [List.flatMap_cons, written] at same
      exact absurd (List.cons.inj same).1 apart
    | cons c' t =>
      rw [List.flatMap_cons, List.flatMap_cons, List.append_assoc, List.append_assoc] at same
      have read := congrArg decode same
      rw [decode_escape, decode_escape, Option.some_inj, Prod.mk.injEq] at read
      obtain ⟨rfl, later⟩ := read
      obtain ⟨rfl, rest⟩ := ih later
      exact ⟨rfl, rest⟩

theorem quote_split {s t : String} {r r' : List Char} (same : quote s ++ r = quote t ++ r') : s = t ∧ r = r' := by
  simp only [quote, List.cons_append, List.append_assoc, List.nil_append, List.cons.injEq, true_and] at same
  obtain ⟨chars, rest⟩ := escapes_split same
  exact ⟨String.toList_inj.mp chars, rest⟩

/-! ## Where a value ends -/

inductive Mode where
  | plain (depth : Nat)
  | text (depth : Nat)
  | escaped (depth : Nat)

/-- Leaves what follows a value: from a comma or a closing bracket that is not its own. -/
def skip : Mode → List Char → List Char
  | _, [] => []
  | .escaped depth, _ :: rest => skip (.text depth) rest
  | .text depth, c :: rest =>
    if c = '\\' then skip (.escaped depth) rest
    else if c = '"' then skip (.plain depth) rest
    else skip (.text depth) rest
  | .plain depth, c :: rest =>
    if c = '"' then skip (.text depth) rest
    else if c = '[' ∨ c = '{' then skip (.plain (depth + 1)) rest
    else if c = ']' ∨ c = '}' then
      if depth = 0 then c :: rest else skip (.plain (depth - 1)) rest
    else if c = ',' ∧ depth = 0 then c :: rest
    else skip (.plain depth) rest

/-- A text that is passed over as a whole. -/
def Whole (t : List Char) : Prop := ∀ depth rest, skip (.plain depth) (t ++ rest) = skip (.plain depth) rest

/-- What may follow a value. -/
def Stops : List Char → Prop
  | [] => True
  | c :: _ => c = ',' ∨ c = ']' ∨ c = '}'

theorem Stops.skip {r : List Char} (stops : Stops r) : skip (.plain 0) r = r := by
  cases r with
  | nil => rfl
  | cons c rest =>
    obtain rfl | rfl | rfl := stops <;> rfl

/-- Values are told apart by what follows them. -/
theorem Whole.split {x y r r' : List Char} (first : Whole x) (second : Whole y) (stops : Stops r)
    (stops' : Stops r') (same : x ++ r = y ++ r') : x = y ∧ r = r' := by
  have rest : r = r' := by
    rw [← stops.skip, ← first 0 r, same, second 0 r', stops'.skip]
  subst rest
  exact ⟨List.append_cancel_right same, rfl⟩

theorem Whole.append {x y : List Char} (first : Whole x) (second : Whole y) : Whole (x ++ y) := by
  intro depth rest
  rw [List.append_assoc, first, second]

/-- The characters of numbers, names and the marks between a key and its value. -/
def ordinary (c : Char) : Bool := c ∉ ['"', '[', '{', ']', '}', ',']

theorem whole_ordinary {t : List Char} (all : t.all ordinary = true) : Whole t := by
  intro depth rest
  induction t with
  | nil => rfl
  | cons c t ih =>
    obtain ⟨here, later⟩ := Bool.and_eq_true_iff.mp all
    rw [List.cons_append]
    simp only [ordinary, List.mem_cons, List.not_mem_nil, or_false, not_or, decide_eq_true_eq] at here
    obtain ⟨quote, square, curly, square', curly', comma⟩ := here
    rw [skip, if_neg quote, if_neg (by simp [square, curly]), if_neg (by simp [square', curly']),
      if_neg (by simp [comma])]
    exact ih later

theorem skip_hex (depth n : Nat) (rest : List Char) :
    skip (.text depth) (hex n ++ rest) = skip (.text depth) rest := by
  have digit : ∀ d < 16, ¬Nat.digitChar d = '\\' ∧ ¬Nat.digitChar d = '"' := by decide
  have pass (d : Nat) (small : d < 16) (rest : List Char) :
      skip (.text depth) (d.digitChar :: rest) = skip (.text depth) rest := by
    rw [skip, if_neg (digit d small).1, if_neg (digit d small).2]
  change skip _ (_ :: _ :: _ :: _ :: rest) = _
  rw [pass _ (by omega), pass _ (by omega), pass _ (by omega), pass _ (by omega)]

theorem skip_unit (depth n : Nat) (rest : List Char) :
    skip (.text depth) (codeUnit n ++ rest) = skip (.text depth) rest :=
  skip_hex depth n rest

theorem skip_escape (depth : Nat) (c : Char) (rest : List Char) :
    skip (.text depth) (escape c ++ rest) = skip (.text depth) rest := by
  unfold escape
  split
  · rfl
  · rename_i absent
    split
    · have plain : c ≠ '\\' ∧ c ≠ '"' := by
        constructor <;>
        · rintro rfl
          contradiction
      rw [List.singleton_append, skip, if_neg plain.1, if_neg plain.2]
    · split
      · exact skip_unit ..
      · rw [List.append_assoc, skip_unit, skip_unit]

theorem whole_quote (s : String) : Whole (quote s) := by
  intro depth rest
  have body (chars : List Char) : skip (.text depth) (chars.flatMap escape ++ '"' :: rest) =
      skip (.plain depth) rest := by
    induction chars with
    | nil => rfl
    | cons c chars ih => rw [List.flatMap_cons, List.append_assoc, skip_escape, ih]
  simp only [quote, List.cons_append, List.append_assoc, List.nil_append]
  exact body s.toList

/-! ## Lists of values -/

/-- Texts with commas between them. -/
def commas : List (List Char) → List Char
  | [] => []
  | [t] => t
  | t :: rest => t ++ ',' :: commas rest

theorem commas_cons (t u : List Char) (rest : List (List Char)) :
    commas (t :: u :: rest) = t ++ ',' :: commas (u :: rest) := rfl

theorem commas_skip {texts : List (List Char)} (whole : ∀ t ∈ texts, Whole t) (depth : Nat) (rest : List Char) :
    skip (.plain (depth + 1)) (commas texts ++ rest) = skip (.plain (depth + 1)) rest := by
  induction texts with
  | nil => rfl
  | cons t texts ih =>
    have first := whole t List.mem_cons_self
    cases texts with
    | nil => exact first (depth + 1) rest
    | cons u texts =>
      rw [commas_cons, List.append_assoc, first, List.cons_append]
      exact ih fun t member => whole t (List.mem_cons_of_mem _ member)

theorem whole_bracketed {texts : List (List Char)} (whole : ∀ t ∈ texts, Whole t) {left right : Char}
    (opens : left = '[' ∨ left = '{') (closes : right = ']' ∨ right = '}') :
    Whole (left :: commas texts ++ [right]) := by
  intro depth rest
  have inside := commas_skip whole depth (right :: rest)
  have after : skip (.plain (depth + 1)) (right :: rest) = skip (.plain depth) rest := by
    obtain rfl | rfl := closes <;> rfl
  rw [List.append_assoc, List.singleton_append, ← after, ← inside]
  obtain rfl | rfl := opens <;> rfl

/-- Lists of one length are told apart by their texts. -/
theorem commas_injective {xs ys : List (List Char)} {right : Char} (closes : right = ']' ∨ right = '}')
    (whole : ∀ t ∈ xs, Whole t) (whole' : ∀ t ∈ ys, Whole t) (length : xs.length = ys.length)
    (same : commas xs ++ [right] = commas ys ++ [right]) : xs = ys := by
  have stops : Stops [right] := .inr closes
  induction xs generalizing ys with
  | nil => exact (List.eq_nil_of_length_eq_zero length.symm).symm
  | cons x xs ih =>
    cases ys with
    | nil => contradiction
    | cons y ys =>
      have first := whole x List.mem_cons_self
      have second := whole' y List.mem_cons_self
      cases xs with
      | nil =>
        obtain rfl := List.eq_nil_of_length_eq_zero (Nat.succ.inj length.symm)
        rw [(first.split second stops stops same).1]
      | cons u xs =>
        cases ys with
        | nil => exact nomatch Nat.succ.inj length
        | cons v ys =>
          rw [commas_cons, commas_cons, List.append_assoc, List.append_assoc, List.cons_append, List.cons_append] at same
          have comma (rest : List Char) : Stops (',' :: rest) := .inl rfl
          obtain ⟨rfl, rest⟩ := first.split second (comma _) (comma _) same
          rw [ih (fun t member => whole t (List.mem_cons_of_mem _ member))
            (fun t member => whole' t (List.mem_cons_of_mem _ member)) (Nat.succ.inj length)
            (List.cons.inj rest).2]

end JsonText
