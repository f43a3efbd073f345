/-
# SHA-256

The digest the programs call for, as a function on texts: the UTF-8 bytes,
padded to blocks of sixteen words, are compressed one block after the other, and
the eight words of the state are written in lowercase hexadecimal. The other
modules take any function with digests of this shape (`Sha256`), and a concrete
run is one of `Sha256.standard`.

Key definitions: `Sha256.standard`.
Key theorems: `isHash_hexWords`.
-/
import ZenonX402.Lib.Text

namespace Js
namespace Sha2

/-! ### Words -/

/-- A sum of words. -/
def add32 (a b : Nat) : Nat := (a + b) % 2 ^ 32

def rotr (n x : Nat) : Nat := (x >>> n) ||| (x <<< (32 - n)) % 2 ^ 32

def smallSigma0 (x : Nat) : Nat := rotr 7 x ^^^ rotr 18 x ^^^ (x >>> 3)

def smallSigma1 (x : Nat) : Nat := rotr 17 x ^^^ rotr 19 x ^^^ (x >>> 10)

def bigSigma0 (x : Nat) : Nat := rotr 2 x ^^^ rotr 13 x ^^^ rotr 22 x

def bigSigma1 (x : Nat) : Nat := rotr 6 x ^^^ rotr 11 x ^^^ rotr 25 x

/-- The bits of `y` where `x` has ones, and of `z` where it has zeros. -/
def choose (x y z : Nat) : Nat := (x &&& y) ^^^ ((x ^^^ (2 ^ 32 - 1)) &&& z)

def majority (x y z : Nat) : Nat := (x &&& y) ^^^ (x &&& z) ^^^ (y &&& z)

/-! ### One block -/

/-- The constants of the rounds. -/
def constants : List Nat := [
  0x428a2f98, 0x71374491, 0xb5c0fbcf, 0xe9b5dba5, 0x3956c25b, 0x59f111f1, 0x923f82a4, 0xab1c5ed5,
  0xd807aa98, 0x12835b01, 0x243185be, 0x550c7dc3, 0x72be5d74, 0x80deb1fe, 0x9bdc06a7, 0xc19bf174,
  0xe49b69c1, 0xefbe4786, 0x0fc19dc6, 0x240ca1cc, 0x2de92c6f, 0x4a7484aa, 0x5cb0a9dc, 0x76f988da,
  0x983e5152, 0xa831c66d, 0xb00327c8, 0xbf597fc7, 0xc6e00bf3, 0xd5a79147, 0x06ca6351, 0x14292967,
  0x27b70a85, 0x2e1b2138, 0x4d2c6dfc, 0x53380d13, 0x650a7354, 0x766a0abb, 0x81c2c92e, 0x92722c85,
  0xa2bfe8a1, 0xa81a664b, 0xc24b8b70, 0xc76c51a3, 0xd192e819, 0xd6990624, 0xf40e3585, 0x106aa070,
  0x19a4c116, 0x1e376c08, 0x2748774c, 0x34b0bcb5, 0x391c0cb3, 0x4ed8aa4a, 0x5b9cca4f, 0x682e6ff3,
  0x748f82ee, 0x78a5636f, 0x84c87814, 0x8cc70208, 0x90befffa, 0xa4506ceb, 0xbef9a3f7, 0xc67178f2]

structure State where
  a : Nat
  b : Nat
  c : Nat
  d : Nat
  e : Nat
  f : Nat
  g : Nat
  h : Nat

def State.initial : State :=
  ⟨0x6a09e667, 0xbb67ae85, 0x3c6ef372, 0xa54ff53a, 0x510e527f, 0x9b05688c, 0x1f83d9ab, 0x5be0cd19⟩

def State.words (s : State) : List Nat := [s.a, s.b, s.c, s.d, s.e, s.f, s.g, s.h]

/-- One round, with its constant and its word of the schedule. -/
def State.round (s : State) (k w : Nat) : State :=
  let t1 := add32 (add32 (add32 s.h (bigSigma1 s.e)) (add32 (choose s.e s.f s.g) k)) w
  let t2 := add32 (bigSigma0 s.a) (majority s.a s.b s.c)
  ⟨add32 t1 t2, s.a, s.b, s.c, add32 s.d t1, s.e, s.f, s.g⟩

/-- The next word of the schedule after the sixteen last ones. -/
def nextWord (window : List Nat) : Nat :=
  add32 (add32 (smallSigma1 (window.getD 14 0)) (window.getD 9 0))
    (add32 (smallSigma0 (window.getD 1 0)) (window.getD 0 0))

/-- The rounds of a block; `window` holds the next sixteen words. -/
def rounds : List Nat → List Nat → State → State
  | [], _, s => s
  | k :: ks, window, s => rounds ks (window.tail ++ [nextWord window]) (s.round k (window.headD 0))

def compress (s : State) (block : List Nat) : State :=
  let t := rounds constants block s
  ⟨add32 s.a t.a, add32 s.b t.b, add32 s.c t.c, add32 s.d t.d, add32 s.e t.e, add32 s.f t.f,
    add32 s.g t.g, add32 s.h t.h⟩

/-! ### A message -/

/-- The bytes with a one bit, zeros and the length in bits. -/
def padded (bytes : List Nat) : List Nat :=
  let zeros := (119 - bytes.length % 64) % 64
  bytes ++ 128 :: List.replicate zeros 0
    ++ (List.range 8).map fun i => 8 * bytes.length / 256 ^ (7 - i) % 256

/-- Four bytes to a word. -/
def wordsOf : List Nat → List Nat
  | a :: b :: c :: d :: rest => (((a * 256 + b) * 256 + c) * 256 + d) :: wordsOf rest
  | _ => []

/-- The next `n` blocks of sixteen words. -/
def blocks : Nat → List Nat → State → State
  | 0, _, s => s
  | n + 1, words, s => blocks n (words.drop 16) (compress s (words.take 16))

def digest (bytes : List Nat) : State :=
  let words := wordsOf (padded bytes)
  blocks (words.length / 16) words .initial

/-! ### Hexadecimal -/

def hexDigit (n : Nat) : Char :=
  if n % 16 < 10 then Char.ofNat ('0'.toNat + n % 16) else Char.ofNat ('a'.toNat + (n % 16 - 10))

/-- The eight digits of a word. -/
def hexWord (w : Nat) : List Char := (List.range 8).map fun i => hexDigit (w / 16 ^ (7 - i))

theorem isHexLower_hexDigit (n : Nat) : Text.isHexLower (hexDigit n) = true := by
  have hcases : ∀ m : Fin 16, Text.isHexLower (if m.1 < 10 then Char.ofNat ('0'.toNat + m.1)
      else Char.ofNat ('a'.toNat + (m.1 - 10))) = true := by decide
  exact hcases ⟨n % 16, Nat.mod_lt _ (by omega)⟩

theorem isHash_hexWords {ws : List Nat} (h : ws.length = 8) :
    Text.isHash (String.ofList (ws.flatMap hexWord)) = true := by
  rw [Text.isHash_iff, String.toList_ofList]
  refine ⟨fun c hc => ?_, ?_⟩
  · obtain ⟨w, -, hw⟩ := List.mem_flatMap.mp hc
    obtain ⟨i, -, rfl⟩ := List.mem_map.mp hw
    exact isHexLower_hexDigit _
  · have hword (w : Nat) : (hexWord w).length = 8 := by simp [hexWord]
    rw [List.length_flatMap]
    simp only [hword, List.map_const', h]
    rfl

end Sha2

/-- SHA-256. -/
def Sha256.standard : Sha256 where
  hex text := String.ofList
    ((Sha2.digest (text.toUTF8.toList.map UInt8.toNat)).words.flatMap Sha2.hexWord)
  isHash_hex _ := Sha2.isHash_hexWords rfl

example : Sha256.standard.hex "abc"
    = "ba7816bf8f01cfea414140de5dae2223b00361a396177a9cb410ff61f20015ad" := by
  decide +kernel

end Js
