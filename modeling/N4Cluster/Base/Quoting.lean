import Mathlib.Data.List.Basic
import Mathlib.Tactic.Common

/-! The printed form of a string, in quotes of one of two kinds, with what cannot be shown
written as an escape. Which characters beyond ASCII can be shown is a parameter. -/
namespace Quoting

/-- The last `width` hexadecimal digits of a number. -/
def hex : Nat → Nat → List Char
  | 0, _ => []
  | width + 1, n => hex width (n / 16) ++ [Nat.digitChar (n % 16)]

section
variable (printable : Char → Bool)

def shown (c : Char) : Bool := if c.toNat ≤ 127 then 32 ≤ c.toNat && c.toNat < 127 else printable c

def escape (quote c : Char) : List Char :=
  if c = quote ∨ c = '\\' then ['\\', c]
  else if c = '\t' then ['\\', 't']
  else if c = '\n' then ['\\', 'n']
  else if c = '\r' then ['\\', 'r']
  else if shown printable c then [c]
  else if c.toNat ≤ 255 then '\\' :: 'x' :: hex 2 c.toNat
  else if c.toNat ≤ 65535 then '\\' :: 'u' :: hex 4 c.toNat
  else '\\' :: 'U' :: hex 8 c.toNat

/-- Double quotes only around a text with single quotes and no double ones. -/
def quoteOf (text : List Char) : Char := if '\'' ∈ text ∧ '"' ∉ text then '"' else '\''

def repr (text : List Char) : List Char :=
  quoteOf text :: text.flatMap (escape printable (quoteOf text)) ++ [quoteOf text]

/-- A character that stands for itself between these quotes. -/
def plain (quote c : Char) : Bool := c != quote && c != '\\' && shown printable c

end

variable {printable : Char → Bool} {quote c : Char} {text : List Char}

theorem hex_length (width n : Nat) : (hex width n).length = width := by
  induction width generalizing n with
  | zero => rfl
  | succ width ih => rw [hex, List.length_append, ih, List.length_singleton]

theorem digit_unquoted (n : Nat) : Nat.digitChar (n % 16) ≠ '\'' := by
  have digits : ∀ d < 16, Nat.digitChar d ≠ '\'' := by decide
  exact digits _ (Nat.mod_lt n (by decide))

theorem hex_unquoted (width n : Nat) : '\'' ∉ hex width n := by
  induction width generalizing n with
  | zero => exact List.not_mem_nil
  | succ width ih =>
    rw [hex, List.mem_append, List.mem_singleton]
    rintro (inside | last)
    · exact ih _ inside
    · exact digit_unquoted n last.symm

theorem escape_plain (itself : plain printable quote c = true) : escape printable quote c = [c] := by
  simp only [plain, Bool.and_eq_true, bne_iff_ne] at itself
  obtain ⟨⟨other, straight⟩, seen⟩ := itself
  have control (d : Char) (low : d.toNat < 32) : c ≠ d := by
    rintro rfl
    have beyond : ¬ 32 ≤ c.toNat := by omega
    have ascii : c.toNat ≤ 127 := by omega
    simp [shown, ascii, beyond] at seen
  rw [escape, if_neg (by simp [other, straight]), if_neg (control '\t' (by decide)),
    if_neg (control '\n' (by decide)), if_neg (control '\r' (by decide)), if_pos seen]

theorem escape_long (changed : plain printable quote c = false) :
    2 ≤ (escape printable quote c).length := by
  rw [escape]
  split
  · exact Nat.le_refl 2
  · rename_i other
    have hidden : ¬ shown printable c = true := by
      rw [not_or] at other
      simpa [plain, other.1, other.2] using changed
    rw [if_neg hidden]
    repeat' split
    · exact Nat.le_refl 2
    · exact Nat.le_refl 2
    · exact Nat.le_refl 2
    all_goals simp only [List.length_cons, hex_length, Nat.reduceAdd, Nat.reduceLeDiff]

theorem escape_unquoted (other : c ≠ '\'') : '\'' ∉ escape printable '\'' c := by
  rw [escape]
  repeat' split
  all_goals simp [hex_unquoted, Ne.symm other]

theorem escape_nonempty : 1 ≤ (escape printable quote c).length := by
  cases kind : plain printable quote c with
  | true => rw [escape_plain kind]; exact Nat.le_refl 1
  | false => exact Nat.le_of_succ_le (escape_long kind)

theorem body_length : text.length ≤ (text.flatMap (escape printable quote)).length := by
  induction text with
  | nil => exact Nat.le_refl 0
  | cons c text ih =>
    have first : 1 ≤ (escape printable quote c).length := escape_nonempty
    rw [List.flatMap_cons, List.length_append, List.length_cons]
    omega

theorem body_unquoted (bare : '\'' ∉ text) : '\'' ∉ text.flatMap (escape printable '\'') := by
  intro member
  obtain ⟨c, inside, within⟩ := List.mem_flatMap.mp member
  apply escape_unquoted _ within
  rintro rfl
  exact bare inside

/-- A text is printed as it is exactly if each of its characters is. -/
theorem body_iff :
    text.flatMap (escape printable quote) = text ↔ ∀ c ∈ text, plain printable quote c = true := by
  induction text with
  | nil => simp
  | cons c text ih =>
    rw [List.flatMap_cons, List.forall_mem_cons]
    cases kind : plain printable quote c with
    | true =>
      rw [escape_plain kind, List.singleton_append, List.cons_inj_right, ih]
      simp
    | false =>
      have longer := escape_long kind
      have rest : text.length ≤ (text.flatMap (escape printable quote)).length := body_length
      constructor
      · intro same
        have lengths := congrArg List.length same
        rw [List.length_append, List.length_cons] at lengths
        omega
      · rintro ⟨itself, -⟩
        cases itself

theorem quoteOf_bare (bare : '\'' ∉ text) : quoteOf text = '\'' := by
  rw [quoteOf, if_neg]
  rintro ⟨quoted, -⟩
  exact bare quoted

end Quoting
