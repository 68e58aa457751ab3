import Mathlib.Algebra.Group.Nat.Defs
import Mathlib.Data.List.Basic

/-! Python values that reach the server: floats with their non-finite members,
JSON documents, truth values, and the exceptions the modelled code can meet.
Finite floats are the rationals they denote; metrics are only ever compared. -/
namespace N4Cluster

inductive PyFloat where
  | nan | negInf | posInf
  | fin (value : Rat)
deriving DecidableEq

namespace PyFloat

def isFinite : PyFloat → Bool
  | .fin _ => true
  | _ => false

/-- `a < b`; every comparison with `nan` is false. -/
def lt : PyFloat → PyFloat → Bool
  | .fin a, .fin b => a < b
  | .negInf, .fin _ | .negInf, .posInf | .fin _, .posInf => true
  | _, _ => false

def le (a b : PyFloat) : Bool := a.lt b || (a == b && a != .nan)

end PyFloat

/-- The double nearest to an integer, the even one of two that are. -/
def nearestDouble (n : Int) : Int :=
  let unit := 2 ^ (n.natAbs.log2 - 52)
  let low := n.natAbs / unit
  let rest := n.natAbs % unit
  let up := unit < 2 * rest || (unit = 2 * rest && low % 2 = 1)
  n.sign * (unit * (if up then low + 1 else low) : Nat)

inductive Json where
  | null
  | bool (value : Bool)
  | int (value : Int)
  | float (value : PyFloat)
  | str (value : String)
  | arr (items : List Json)
  | obj (fields : List (String × Json))

abbrev Dict := List (String × Json)

namespace Json

/-- `bool(value)`. -/
def truthy : Json → Bool
  | .null => false
  | .bool value => value
  | .int value => value != 0
  | .float value => value != .fin 0
  | .str value => value != ""
  | .arr items => !items.isEmpty
  | .obj fields => !fields.isEmpty

def isObj : Json → Bool
  | .obj _ => true
  | _ => false

def isNull : Json → Bool
  | .null => true
  | _ => false

end Json

/-- `bool(value)` of a `str | None`: absent and empty are both false. -/
def truthy (value : Option String) : Bool :=
  match value with
  | some text => text != ""
  | none => false

theorem truthy_some {text : String} : truthy (some text) = true ↔ text ≠ "" := by
  simp [truthy]

inductive PyErr where
  | keyError (key : String)
  | permissionError (message : String)
  | illegalTransition (message : String)
  | integrityError
  | overflowError
  | valueError (message : String)
  | typeError (message : String)
  | validationError (message : String)
  | serializationError (message : String)
  | http (status : Nat) (detail : String)
deriving DecidableEq

/-- An exception known by its class and text only. -/
structure Exn where
  type : String
  text : String
deriving DecidableEq

def valueError (text : String) : Exn := ⟨"ValueError", text⟩

abbrev Bytes := List UInt8

end N4Cluster
