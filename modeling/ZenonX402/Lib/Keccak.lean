/-
# SHA3-256

The sponge over the permutation of 25 lanes of 64 bits, for a digest of 32 bytes: blocks of
136 bytes are added to the first 17 lanes, and the digest is the first four.

Key definitions: `permute`, `absorb`, `sha3`.
Key theorems: `length_sha3`.
-/
import ZenonX402.Lib.Octets

namespace Keccak

open Octets

abbrev Lane := BitVec 64

/-- Lane `x + 5 * y` is in column `x` of row `y`. -/
abbrev State := List Lane

def lane (s : State) (i : Nat) : Lane := s.getD i 0

/-- What is added to the first lane in each round. -/
def roundConstants : List Lane := [
  0x0000000000000001, 0x0000000000008082, 0x800000000000808a, 0x8000000080008000,
  0x000000000000808b, 0x0000000080000001,
  0x8000000080008081, 0x8000000000008009, 0x000000000000008a, 0x0000000000000088,
  0x0000000080008009, 0x000000008000000a,
  0x000000008000808b, 0x800000000000008b, 0x8000000000008089, 0x8000000000008003,
  0x8000000000008002, 0x8000000000000080,
  0x000000000000800a, 0x800000008000000a, 0x8000000080008081, 0x8000000000008080,
  0x0000000080000001, 0x8000000080008008]

/-- By how much each lane is rotated. -/
def offsets : List Nat := [
  0, 1, 62, 28, 27, 36, 44, 6, 55, 20, 3, 10, 43, 25, 39, 41, 45, 15, 21, 8, 18, 2, 61, 56, 14]

def rotate (l : Lane) (n : Nat) : Lane := l <<< n ||| l >>> (64 - n)

/-- Each lane is mixed with two columns. -/
def theta (s : State) : State :=
  let column x := lane s x ^^^ lane s (x + 5) ^^^ lane s (x + 10) ^^^ lane s (x + 15) ^^^ lane s (x + 20)
  let columns := (List.range 5).map column
  (List.range 25).map fun i => lane s i ^^^ lane columns ((i + 4) % 5) ^^^ rotate (lane columns ((i + 1) % 5)) 1

/-- Lanes are rotated, and moved. -/
def rhoPi (s : State) : State := (List.range 25).map fun i =>
  let source := (i % 5 + 3 * (i / 5)) % 5 + 5 * (i % 5)
  rotate (lane s source) (offsets.getD source 0)

/-- Each lane is mixed with the next two of its row. -/
def chi (s : State) : State := (List.range 25).map fun i =>
  lane s i ^^^ (~~~ lane s ((i + 1) % 5 + 5 * (i / 5)) &&& lane s ((i + 2) % 5 + 5 * (i / 5)))

def iota (constant : Lane) : State → State
  | [] => []
  | first :: rest => (first ^^^ constant) :: rest

def permute (s : State) : State :=
  roundConstants.foldl (fun s constant => iota constant (chi (rhoPi (theta s)))) s

/-- The lanes of a block, the lowest byte of each first. -/
def lanes : Octets → List Lane
  | b0 :: b1 :: b2 :: b3 :: b4 :: b5 :: b6 :: b7 :: rest =>
    BitVec.ofNat 64 (ofLittle [b0, b1, b2, b3, b4, b5, b6, b7]) :: lanes rest
  | _ => []

/-- The message up to whole blocks of 136 bytes: the bits `01`, a one, zeros and a one. -/
def padded (message : Octets) : Octets :=
  let missing := 136 - message.length % 136
  if missing = 1 then message ++ [0x86] else message
    ++ 0x06 :: (List.replicate (missing - 2) 0 ++ [0x80])

/-- Add blocks of 17 lanes one after the other. -/
def absorb : Nat → List Lane → State → State
  | 0, _, s => s
  | blocks + 1, ls, s =>
      absorb blocks (ls.drop 17)
      (permute ((List.range 25).map fun i => lane s i ^^^ lane (ls.take 17) i))

def sha3 (message : Octets) : Octets :=
  let ls := lanes (padded message)
  let s := absorb (ls.length / 17) ls (List.replicate 25 0)
  [0, 1, 2, 3].flatMap fun i => toLittle 8 (lane s i).toNat

theorem length_sha3 (message : Octets) : (sha3 message).length = 32 := by
  simp [sha3]

/-- The digest of `abc`. -/
example : sha3 [0x61, 0x62, 0x63] = [
    0x3a, 0x98, 0x5d, 0xa7, 0x4f, 0xe2, 0x25, 0xb2, 0x04, 0x5c, 0x17, 0x2d, 0x6b, 0xd3, 0x90, 0xbd,
    0x85, 0x5f, 0x08, 0x6e, 0x3e, 0x9d, 0x52, 0x5b, 0x46, 0xbf, 0xe2, 0x45, 0x11, 0x43,
    0x15, 0x32] := by
  decide +kernel

end Keccak
