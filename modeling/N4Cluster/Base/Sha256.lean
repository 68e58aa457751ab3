import Mathlib.Algebra.Group.Nat.Defs

/-! The SHA-256 digest of a list of bytes, in hexadecimal. Words are numbers below `2 ^ 32`. -/
namespace Sha256

def constants : List Nat :=
  [0x428a2f98, 0x71374491, 0xb5c0fbcf, 0xe9b5dba5, 0x3956c25b, 0x59f111f1, 0x923f82a4, 0xab1c5ed5,
    0xd807aa98, 0x12835b01, 0x243185be, 0x550c7dc3, 0x72be5d74, 0x80deb1fe, 0x9bdc06a7, 0xc19bf174,
    0xe49b69c1, 0xefbe4786, 0x0fc19dc6, 0x240ca1cc, 0x2de92c6f, 0x4a7484aa, 0x5cb0a9dc, 0x76f988da,
    0x983e5152, 0xa831c66d, 0xb00327c8, 0xbf597fc7, 0xc6e00bf3, 0xd5a79147, 0x06ca6351, 0x14292967,
    0x27b70a85, 0x2e1b2138, 0x4d2c6dfc, 0x53380d13, 0x650a7354, 0x766a0abb, 0x81c2c92e, 0x92722c85,
    0xa2bfe8a1, 0xa81a664b, 0xc24b8b70, 0xc76c51a3, 0xd192e819, 0xd6990624, 0xf40e3585, 0x106aa070,
    0x19a4c116, 0x1e376c08, 0x2748774c, 0x34b0bcb5, 0x391c0cb3, 0x4ed8aa4a, 0x5b9cca4f, 0x682e6ff3,
    0x748f82ee, 0x78a5636f, 0x84c87814, 0x8cc70208, 0x90befffa, 0xa4506ceb, 0xbef9a3f7, 0xc67178f2]

/-- The eight words a digest is computed in. -/
structure State where
  a : Nat
  b : Nat
  c : Nat
  d : Nat
  e : Nat
  f : Nat
  g : Nat
  h : Nat

def initial : State where
  a := 0x6a09e667
  b := 0xbb67ae85
  c := 0x3c6ef372
  d := 0xa54ff53a
  e := 0x510e527f
  f := 0x9b05688c
  g := 0x1f83d9ab
  h := 0x5be0cd19

def rotr (x k : Nat) : Nat := (x >>> k ||| x <<< (32 - k)) % 2 ^ 32

def spread (x first second third : Nat) : Nat := rotr x first ^^^ rotr x second ^^^ rotr x third

/-- The next word of a schedule, from the words before it, the last one first. -/
def nextWord (before : List Nat) : Nat :=
  let x := before.getD 14 0
  let y := before.getD 1 0
  ((rotr y 17 ^^^ rotr y 19 ^^^ y >>> 10) + before.getD 6 0 +
    (rotr x 7 ^^^ rotr x 18 ^^^ x >>> 3) + before.getD 15 0) % 2 ^ 32

/-- The words of a block and as many more, the last one first. -/
def schedule : Nat → List Nat → List Nat
  | 0, words => words
  | more + 1, words => schedule more (nextWord words :: words)

def round (s : State) (constant word : Nat) : State :=
  let choice := (s.e &&& s.f) ^^^ ((2 ^ 32 - 1 - s.e) &&& s.g)
  let majority := (s.a &&& s.b) ^^^ (s.a &&& s.c) ^^^ (s.b &&& s.c)
  let first := s.h + spread s.e 6 11 25 + choice + constant + word
  { a := (first + spread s.a 2 13 22 + majority) % 2 ^ 32
    b := s.a
    c := s.b
    d := s.c
    e := (s.d + first) % 2 ^ 32
    f := s.e
    g := s.f
    h := s.g }

def State.add (s t : State) : State where
  a := (s.a + t.a) % 2 ^ 32
  b := (s.b + t.b) % 2 ^ 32
  c := (s.c + t.c) % 2 ^ 32
  d := (s.d + t.d) % 2 ^ 32
  e := (s.e + t.e) % 2 ^ 32
  f := (s.f + t.f) % 2 ^ 32
  g := (s.g + t.g) % 2 ^ 32
  h := (s.h + t.h) % 2 ^ 32

def compress (s : State) (block : List Nat) : State :=
  s.add <| (constants.zip (schedule 48 block.reverse).reverse).foldl
    (fun s round => Sha256.round s round.1 round.2) s

def wordsOf : List Nat → List Nat
  | a :: b :: c :: d :: rest => (a * 2 ^ 24 + b * 2 ^ 16 + c * 2 ^ 8 + d) :: wordsOf rest
  | _ => []

/-- The last `width` bytes of a number, the first one first. -/
def bytesOf (width n : Nat) : List Nat := (List.range width).map fun i => n / 2 ^ (8 * (width - 1 - i)) % 256

def pad (bytes : List Nat) : List Nat :=
  bytes ++ 128 :: List.replicate ((119 - bytes.length % 64) % 64) 0 ++ bytesOf 8 (8 * bytes.length)

def blocks (s : State) : Nat → List Nat → State
  | 0, _ => s
  | more + 1, words => blocks (compress s (words.take 16)) more (words.drop 16)

def digest (bytes : List Nat) : List Nat :=
  let padded := pad bytes
  let s := blocks initial (padded.length / 64) (wordsOf padded)
  [s.a, s.b, s.c, s.d, s.e, s.f, s.g, s.h]

/-- `hashlib.sha256(...).hexdigest()` of an ASCII text. -/
def hexdigest (text : List Char) : String :=
  let bytes := (digest (text.map Char.toNat)).flatMap (bytesOf 4)
  String.ofList (bytes.flatMap fun byte => [(byte / 16).digitChar, (byte % 16).digitChar])

example : hexdigest ['a', 'b', 'c'] =
    "ba7816bf8f01cfea414140de5dae2223b00361a396177a9cb410ff61f20015ad" := by decide +kernel

end Sha256
