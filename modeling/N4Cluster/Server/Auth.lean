import N4Cluster.Base.Fallible
import N4Cluster.Base.Quoting
import N4Cluster.Server.Handlers

/-! Who a token belongs to, and whether that principal holds the rights a route asks for. -/
namespace N4Cluster

/-- `admin` grants everything. -/
def Principal.has (p : Principal) (right : Right) : Bool :=
  p.rights.contains .admin || p.rights.contains right

/-- A principal as configured, with the token that the handlers never see. -/
structure TokenPrincipal extends Principal where
  token : String

inductive AuthFailure where
  | authError (status : Nat) (detail : String)
  | typeError (message : String)
deriving DecidableEq

def ascii (text : String) : Bool := text.toList.all fun c => c.toNat < 128

/-- `hmac.compare_digest` of two strings. -/
def compareDigest (a b : String) : Except AuthFailure Bool :=
  if ascii a && ascii b then .ok (a == b)
  else .error (.typeError "comparing strings with non-ASCII characters is not supported")

/-- The text of a 403, with the name as `repr` writes it. -/
def forbiddenDetail (printable : Char → Bool) (name : String) (missing : List Right) : String :=
  String.ofList ("principal ".toList ++ Quoting.repr printable name.toList ++
    " lacks required right(s): ".toList ++
    ", ".toList.intercalate (missing.map fun right => right.value.toList))

namespace Authorizer

def dev : TokenPrincipal := { token := "" }

/-- The loop over the principals, which goes on after a match. -/
def scan (token : String) (principals : List TokenPrincipal) (matched : Option TokenPrincipal) :
    Except AuthFailure (Option TokenPrincipal) :=
  principals.foldlM (fun matched principal => do
    if ← compareDigest principal.token token then return some principal
    return matched) matched

def principalForToken (principals : List TokenPrincipal) (token : Option String) :
    Except AuthFailure (Option TokenPrincipal) :=
  if principals.isEmpty then .ok (some dev)
  else match token with
    | none | some "" => .ok none
    | some token => scan token principals none

def check (printable : Char → Bool) (principals : List TokenPrincipal) (token : Option String)
    (rights : List Right) : Except AuthFailure TokenPrincipal := do
  match ← principalForToken principals token with
  | none => throw (.authError 401 "invalid or missing token")
  | some principal =>
    let missing := rights.filter fun right => !principal.has right
    if missing.isEmpty then return principal
    else throw (.authError 403 (forbiddenDetail printable principal.name missing))

/-- The principal is the last one configured with this token, which is not empty. -/
def Owns (principals : List TokenPrincipal) (token : Option String) (p : TokenPrincipal) : Prop :=
  token = some p.token ∧ p.token ≠ "" ∧
    ∃ before after, principals = before ++ p :: after ∧ ∀ q ∈ after, q.token ≠ p.token

/-- What a check decides: the owner of the token with every right asked for, 401 for a token
nobody has, 403 for a right that is missing, and nothing else. -/
structure Decided (principals : List TokenPrincipal) (token : Option String) (rights : List Right)
    (outcome : Except AuthFailure TokenPrincipal) : Prop where
  granted : ∀ p, outcome = .ok p ↔ Owns principals token p ∧ ∀ right ∈ rights, p.has right = true
  unknown : (∃ detail, outcome = .error (.authError 401 detail)) ↔
    ¬∃ p ∈ principals, token = some p.token ∧ p.token ≠ ""
  forbidden : (∃ detail, outcome = .error (.authError 403 detail)) ↔
    ∃ p, Owns principals token p ∧ ∃ right ∈ rights, p.has right = false
  only : ∀ failure, outcome = .error failure →
    ∃ detail, failure = .authError 401 detail ∨ failure = .authError 403 detail

variable {printable : Char → Bool} {principals : List TokenPrincipal} {token : String}
  {rights : List Right}

/-! ## The scan -/

theorem scan_cons (p : TokenPrincipal) (matched : Option TokenPrincipal) :
    scan token (p :: principals) matched =
      compareDigest p.token token >>= fun same => scan token principals (if same then some p else matched) := by
  rw [scan, List.foldlM_cons]
  cases compareDigest p.token token with
  | error failure => rfl
  | ok same => cases same <;> rfl

theorem scan_ok (plain : ascii token = true) (all : ∀ p ∈ principals, ascii p.token = true)
    (matched : Option TokenPrincipal) :
    scan token principals matched =
      .ok ((principals.reverse.find? fun p => p.token == token).or matched) := by
  induction principals generalizing matched with
  | nil => rfl
  | cons p rest ih =>
    obtain ⟨here, later⟩ := List.forall_mem_cons.mp all
    have compared : compareDigest p.token token = .ok (p.token == token) := by
      rw [compareDigest, here, plain]
      rfl
    have next : scan token (p :: rest) matched =
        scan token rest (if p.token == token then some p else matched) := by
      rw [scan_cons, compared]
      rfl
    rw [next, ih later, List.reverse_cons, List.find?_append, Option.or_assoc]
    cases same : p.token == token with
    | true => simp [same]
    | false => simp [same]

theorem compareDigest_raises {other : String} (beyond : ascii other = false ∨ ascii token = false) :
    compareDigest other token =
      .error (.typeError "comparing strings with non-ASCII characters is not supported") := by
  rw [compareDigest, if_neg]
  rw [Bool.and_eq_true]
  rintro ⟨first, second⟩
  rcases beyond with odd | odd
  · rw [odd] at first
    cases first
  · rw [odd] at second
    cases second

/-- One token beyond ASCII on either side and the comparison raises. -/
theorem scan_raises (some_principal : principals ≠ [])
    (beyond : ascii token = false ∨ ∃ p ∈ principals, ascii p.token = false)
    (matched : Option TokenPrincipal) :
    ∃ message, scan token principals matched = .error (.typeError message) := by
  induction principals generalizing matched with
  | nil => exact absurd rfl some_principal
  | cons p rest ih =>
    rw [scan_cons]
    cases compared : compareDigest p.token token with
    | error failure =>
      rw [compareDigest] at compared
      split at compared
      · cases compared
      · cases compared
        exact ⟨_, rfl⟩
    | ok same =>
      have plain : ascii p.token = true ∧ ascii token = true := by
        by_contra odd
        rw [not_and_or, Bool.not_eq_true, Bool.not_eq_true] at odd
        rw [compareDigest_raises odd] at compared
        cases compared
      rcases beyond with odd | ⟨q, member, odd⟩
      · rw [plain.2] at odd
        cases odd
      · have later : q ∈ rest := by
          rcases List.mem_cons.mp member with rfl | later
          · rw [plain.1] at odd
            cases odd
          · exact later
        exact ih (List.ne_nil_of_mem later) (.inr ⟨q, later, odd⟩) _

theorem find_last_iff {p : TokenPrincipal} (presented : token ≠ "") :
    principals.reverse.find? (fun q => q.token == token) = some p ↔ Owns principals (some token) p := by
  rw [List.find?_eq_some_iff_append, Owns]
  constructor
  · rintro ⟨same, after, before, split, others⟩
    obtain rfl := eq_of_beq same
    refine ⟨rfl, presented, before.reverse, after.reverse, ?_, ?_⟩
    · have whole := congrArg List.reverse split
      simpa using whole
    · intro q member
      have other := others q (List.mem_reverse.mp member)
      simpa using other
  · rintro ⟨same, -, before, after, rfl, others⟩
    obtain rfl := Option.some.inj same
    refine ⟨beq_self_eq_true _, after.reverse, before.reverse, by simp, ?_⟩
    intro q member
    simpa using others q (List.mem_reverse.mp member)

theorem find_none_iff :
    principals.reverse.find? (fun q => q.token == token) = none ↔ ∀ q ∈ principals, q.token ≠ token := by
  simp

/-! ## The decision -/

/-- What a found principal comes to. -/
theorem check_owned {token : Option String} {p : TokenPrincipal}
    (found : principalForToken principals token = .ok (some p)) :
    check printable principals token rights =
      if ∀ right ∈ rights, p.has right = true then .ok p
      else .error (.authError 403
        (forbiddenDetail printable p.name (rights.filter fun right => !p.has right))) := by
  have missing : (rights.filter fun right => !p.has right).isEmpty = true ↔ ∀ right ∈ rights, p.has right = true := by
    simp
  rw [check, found]
  by_cases all : ∀ right ∈ rights, p.has right = true
  · rw [if_pos all]
    exact if_pos (missing.mpr all)
  · rw [if_neg all]
    exact if_neg fun none_missing => all (missing.mp none_missing)

theorem check_unowned {token : Option String} (found : principalForToken principals token = .ok none) :
    check printable principals token rights = .error (.authError 401 "invalid or missing token") := by
  rw [check, found]
  rfl

theorem owns_unique {token : Option String} {p q : TokenPrincipal} (first : Owns principals token p)
    (second : Owns principals token q) : p = q := by
  have ⟨same, presented, _⟩ := first
  subst same
  have one := (find_last_iff presented).mpr first
  have other := (find_last_iff presented).mpr second
  rw [one] at other
  exact Option.some.inj other

theorem decided_owned {token : Option String} {p : TokenPrincipal}
    (found : principalForToken principals token = .ok (some p)) (owner : Owns principals token p) :
    Decided principals token rights (check printable principals token rights) := by
  have ⟨same, presented, before, after, split, _⟩ := owner
  have known : ∃ p ∈ principals, token = some p.token ∧ p.token ≠ "" :=
    ⟨p, by rw [split]; simp, same, presented⟩
  rw [check_owned found]
  by_cases all : ∀ right ∈ rights, p.has right = true
  · rw [if_pos all]
    refine ⟨?_, by simp [known], ?_, by simp⟩
    · intro q
      constructor
      · intro returned
        cases returned
        exact ⟨owner, all⟩
      · rintro ⟨other, -⟩
        rw [owns_unique owner other]
    · constructor
      · rintro ⟨_, raised⟩
        cases raised
      · rintro ⟨q, other, right, asked, lacks⟩
        rw [← owns_unique owner other, all right asked] at lacks
        cases lacks
  · rw [if_neg all]
    refine ⟨?_, by simp [known], ?_, by simp⟩
    · intro q
      constructor
      · intro returned
        cases returned
      · rintro ⟨other, holds⟩
        rw [← owns_unique owner other] at holds
        exact absurd holds all
    · refine ⟨fun _ => ⟨p, owner, ?_⟩, fun _ => ⟨_, rfl⟩⟩
      simpa using all

theorem decided_unowned {token : Option String} (found : principalForToken principals token = .ok none)
    (nobody : ¬∃ p ∈ principals, token = some p.token ∧ p.token ≠ "") :
    Decided principals token rights (check printable principals token rights) := by
  have unowned (p : TokenPrincipal) : ¬Owns principals token p := by
    rintro ⟨same, presented, before, after, split, -⟩
    exact nobody ⟨p, by rw [split]; simp, same, presented⟩
  rw [check_unowned found]
  refine ⟨?_, by simp [nobody], ?_, by simp⟩
  · intro p
    simp [unowned p]
  · simp [unowned]

/-- With principals configured the check decides as it should exactly if no token beyond ASCII
comes up in a comparison. -/
theorem check_decides_iff (printable : Char → Bool) (principals : List TokenPrincipal)
    (token : Option String) (rights : List Right) (configured : principals ≠ []) :
    Decided principals token rights (check printable principals token rights) ↔
      ∀ text, token = some text → text ≠ "" →
        ascii text = true ∧ ∀ p ∈ principals, ascii p.token = true := by
  have enforced : principals.isEmpty = false := by simpa using configured
  cases token with
  | none =>
    have found : principalForToken principals none = .ok none := by
      rw [principalForToken, enforced]
      rfl
    simp [decided_unowned found]
  | some text =>
    by_cases empty : text = ""
    · subst empty
      have found : principalForToken principals (some "") = .ok none := by
        rw [principalForToken, enforced]
        rfl
      have decided : Decided principals (some "") rights (check printable principals (some "") rights) := by
        apply decided_unowned found
        rintro ⟨p, -, same, presented⟩
        exact presented (Option.some.inj same).symm
      simp [decided]
    · have scanned : principalForToken principals (some text) = scan text principals none := by
        rw [principalForToken, enforced]
        · rfl
        · exact empty
      constructor
      · intro decided _ same _
        obtain rfl := Option.some.inj same
        by_contra odd
        have beyond : ascii text = false ∨ ∃ p ∈ principals, ascii p.token = false := by
          rw [not_and_or] at odd
          simpa using odd
        obtain ⟨message, raised⟩ := scan_raises configured beyond none
        have fails : check printable principals (some text) rights = .error (.typeError message) := by
          rw [check, scanned, raised]
          rfl
        obtain ⟨detail, known⟩ := decided.only _ fails
        simp at known
      · intro plain
        obtain ⟨here, all⟩ := plain text rfl empty
        have found := scan_ok here all none
        rw [← scanned, Option.or_none] at found
        cases last : principals.reverse.find? fun p => p.token == text with
        | none =>
          rw [last] at found
          apply decided_unowned found
          rintro ⟨p, member, same, -⟩
          exact find_none_iff.mp last p member (Option.some.inj same).symm
        | some p =>
          rw [last] at found
          exact decided_owned found ((find_last_iff empty).mp last)

/-- A token nobody has is refused with 401, whoever else is configured. -/
theorem check_decides_unknown :
    let alice : TokenPrincipal := { name := "alice", rights := [.read], token := "secret" }
    Decided [alice] (some "other") [.read] (check (fun _ => true) [alice] (some "other") [.read]) :=
  (check_decides_iff (fun _ => true) _ (some "other") [.read] (List.cons_ne_nil _ _)).mpr
    (fun text same _ => by
      obtain rfl := Option.some.inj same
      decide +kernel)

/-- One accented letter in what is presented, and no decision is made. -/
theorem accented_token_undecided :
    ¬Decided [{ name := "alice", rights := [.read], token := "secret" }] (some "é") [.read]
      (check (fun _ => true) [{ name := "alice", rights := [.read], token := "secret" }] (some "é") [.read]) := by
  intro decided
  obtain ⟨detail, known⟩ := decided.only
    (.typeError "comparing strings with non-ASCII characters is not supported") rfl
  simp at known

end Authorizer
end N4Cluster
