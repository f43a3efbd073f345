/-
# Bytes

A buffer is a sequence of bytes. As hexadecimal text it has two lower-case digits for each
(`hex`), and such a text is read back (`hex_unhex`). A number that fits is written in some
bytes, from the lowest (`toLittle`) or from the highest (`toBig`), and read back
(`ofLittle_toLittle`).

Key definitions: `Octets`, `hex`, `unhex`, `toLittle`, `toBig`, `ofLittle`.
Key theorems: `unhex_hex`, `hex_unhex`, `ofLittle_toLittle`, `toBig_inj`.
-/
import ZenonX402.Lib.Text
import Mathlib.Data.List.Basic
import Mathlib.Tactic.Ring

abbrev Octets := List (BitVec 8)

namespace Octets

open Js

/-! ### Hexadecimal text -/

def digit (v : BitVec 4) : Char := Nat.digitChar v.toNat

def digit? (c : Char) : Option (BitVec 4) :=
  if '0' ≤ c ∧ c ≤ '9' then some (BitVec.ofNat 4 (c.toNat - '0'.toNat))
  else if 'a' ≤ c ∧ c ≤ 'f' then some (BitVec.ofNat 4 (c.toNat - 'a'.toNat + 10))
  else if 'A' ≤ c ∧ c ≤ 'F' then some (BitVec.ofNat 4 (c.toNat - 'A'.toNat + 10))
  else none

/-- `bytes.toString('hex')`. -/
def hex (bytes : Octets) : String :=
  String.ofList (bytes.flatMap fun b : BitVec 8 => [digit ((b >>> 4).setWidth 4),
    digit (b.setWidth 4)])

/-- Octets are read up to what is not two digits. -/
def unhexChars : List Char → Octets
  | a :: b :: cs => match digit? a, digit? b with
    | some high, some low => (high ++ low : BitVec 8) :: unhexChars cs
    | _, _ => []
  | _ => []

/-- `Buffer.from(text, 'hex')`. -/
def unhex (text : String) : Octets := unhexChars text.toList

theorem digit?_digit : ∀ v : BitVec 4, digit? (digit v) = some v := by
  decide

theorem isHexLower_digit : ∀ v : BitVec 4, Text.isHexLower (digit v) = true := by
  decide

theorem exists_digit {c : Char} (h : Text.isHexLower c = true) : ∃ v, c = digit v := by
  have hcode : ∀ n < 128, Text.isHexLower (Char.ofNat n) = true → ∃ v, Char.ofNat n = digit v := by
    decide
  have hlt : c.toNat < 128 := by
    simp only [Text.isHexLower, Text.isDigit, Bool.or_eq_true, Bool.and_eq_true,
      decide_eq_true_eq] at h
    rcases h with ⟨-, h⟩ | ⟨-, h⟩
    · exact (show c.toNat ≤ '9'.toNat from h).trans_lt (by decide)
    · exact (show c.toNat ≤ 'f'.toNat from h).trans_lt (by decide)
  have hc := hcode c.toNat hlt
  rw [Char.ofNat_toNat] at hc
  exact hc h

theorem split_byte (b : BitVec 8) : ((b >>> 4).setWidth 4 ++ b.setWidth 4 : BitVec 8) = b := by
  revert b
  decide

theorem join_nibbles : ∀ high low : BitVec 4, ((high ++ low : BitVec 8) >>> 4).setWidth 4 = high
    ∧ (high ++ low : BitVec 8).setWidth 4 = low := by
  decide

theorem unhex_hex (bytes : Octets) : unhex (hex bytes) = bytes := by
  rw [unhex, hex, String.toList_ofList]
  induction bytes with
  | nil => rfl
  | cons b bytes ih =>
    rw [List.flatMap_cons, List.cons_append, List.cons_append, List.nil_append, unhexChars,
      digit?_digit, digit?_digit, ih]
    exact congrArg (· :: bytes) (split_byte b)

theorem hexChars_unhexChars : ∀ {cs : List Char} {n : Nat}, (∀ c ∈ cs, Text.isHexLower c = true) →
    cs.length = 2 * n →
    (unhexChars cs).flatMap
    (fun b : BitVec 8 => [digit ((b >>> 4).setWidth 4), digit (b.setWidth 4)]) = cs
      ∧ (unhexChars cs).length = n
  | [], n, _, hlength => by
    rw [List.length_nil] at hlength
    exact ⟨rfl, by simp only [unhexChars, List.length_nil]; omega⟩
  | [c], n, _, hlength => by
    rw [List.length_singleton] at hlength
    omega
  | a :: b :: cs, n, h, hlength => by
    obtain ⟨high, rfl⟩ := exists_digit (h a (by simp))
    obtain ⟨low, rfl⟩ := exists_digit (h b (by simp))
    rw [List.length_cons, List.length_cons] at hlength
    obtain ⟨hrest, hcount⟩ :=
  @hexChars_unhexChars cs (n - 1) (fun c hc => h c (by simp [hc])) (by omega)
    obtain ⟨hhigh, hlow⟩ := join_nibbles high low
    rw [unhexChars, digit?_digit, digit?_digit]
    refine ⟨?_, ?_⟩
    · rw [List.flatMap_cons, hrest, hhigh, hlow]
      rfl
    · rw [List.length_cons, hcount]
      omega

/-- A text of pairs of digits is that of its bytes. -/
theorem hex_unhex {text : String} {n : Nat}
    (h : Text.allOf Text.isHexLower (2 * n) (2 * n) text = true) :
    hex (unhex text) = text ∧ (unhex text).length = n := by
  rw [Text.allOf, Bool.and_eq_true, List.all_eq_true, decide_eq_true_eq] at h
  obtain ⟨hchars, hlength⟩ := hexChars_unhexChars h.1 (show text.toList.length = 2 * n by omega)
  rw [hex, unhex, hchars, String.ofList_toList]
  exact ⟨rfl, hlength⟩

theorem allOf_hex (bytes : Octets) : Text.allOf Text.isHexLower (2 * bytes.length)
    (2 * bytes.length) (hex bytes) = true := by
  rw [Text.allOf, hex, String.toList_ofList, Bool.and_eq_true, List.all_eq_true, decide_eq_true_eq]
  constructor
  · intro c hc
    obtain ⟨b, -, hb⟩ := List.mem_flatMap.mp hc
    simp only [List.mem_cons, List.not_mem_nil, or_false] at hb
    rcases hb with rfl | rfl <;> exact isHexLower_digit _
  · have hlength : ∀ bs : Octets,
        (bs.flatMap fun b : BitVec 8 => [digit ((b >>> 4).setWidth 4), digit (b.setWidth 4)]).length
          = 2 * bs.length := by
      intro bs
      induction bs with
      | nil => rfl
      | cons b bs ih =>
        rw [List.flatMap_cons, List.length_append, ih, List.length_cons]
        simp only [List.length_cons, List.length_nil]
        omega
    rw [hlength]
    omega

/-- Texts of digits are known by their bytes. -/
theorem unhex_inj {s t : String} {n : Nat}
    (hs : Text.allOf Text.isHexLower (2 * n) (2 * n) s = true)
    (ht : Text.allOf Text.isHexLower (2 * n) (2 * n) t = true) (h : unhex s = unhex t) : s = t := by
  rw [← (hex_unhex hs).1, h, (hex_unhex ht).1]

/-! ### Numbers -/

/-- The lowest bytes of a number, the lowest first. -/
def toLittle : Nat → Nat → Octets
  | 0, _ => []
  | width + 1, n => BitVec.ofNat 8 n :: toLittle width (n / 256)

/-- The lowest bytes of a number, the lowest last. -/
def toBig (width n : Nat) : Octets := (toLittle width n).reverse

/-- The number that bytes are, the lowest first. -/
def ofLittle : Octets → Nat
  | [] => 0
  | b :: bytes => b.toNat + 256 * ofLittle bytes

@[simp] theorem length_toLittle : ∀ width n, (toLittle width n).length = width
  | 0, _ => rfl
  | width + 1, n => by rw [toLittle, List.length_cons, length_toLittle width]

@[simp] theorem length_toBig (width n : Nat) : (toBig width n).length = width := by
  rw [toBig, List.length_reverse, length_toLittle]

/-- A number that fits is read back. -/
theorem ofLittle_toLittle : ∀ {width n : Nat}, n < 256 ^ width → ofLittle (toLittle width n) = n
  | 0, n, h => by
    rw [Nat.pow_zero] at h
    rw [toLittle, ofLittle]
    omega
  | width + 1, n, h => by
    have hrest : n / 256 < 256 ^ width := Nat.div_lt_of_lt_mul (by rwa [← Nat.pow_succ'])
    rw [toLittle, ofLittle, ofLittle_toLittle hrest, BitVec.toNat_ofNat]
    omega

theorem ofLittle_lt : ∀ bytes : Octets, ofLittle bytes < 256 ^ bytes.length
  | [] => by decide
  | b :: bytes => by
    have hb := b.isLt
    have hrest := ofLittle_lt bytes
    rw [ofLittle, List.length_cons, Nat.pow_succ]
    omega

theorem toLittle_ofLittle : ∀ bytes : Octets, toLittle bytes.length (ofLittle bytes) = bytes
  | [] => rfl
  | b :: bytes => by
    have hb := b.isLt
    have hbyte : BitVec.ofNat 8 (b.toNat + 256 * ofLittle bytes) = b :=
      BitVec.eq_of_toNat_eq (by rw [BitVec.toNat_ofNat]; omega)
    have hrest : (b.toNat + 256 * ofLittle bytes) / 256 = ofLittle bytes := by omega
    rw [List.length_cons, ofLittle, toLittle, hbyte, hrest, toLittle_ofLittle bytes]

theorem toLittle_inj {width n m : Nat} (hn : n < 256 ^ width) (hm : m < 256 ^ width)
    (h : toLittle width n = toLittle width m) :
    n = m := by
  rw [← ofLittle_toLittle hn, h, ofLittle_toLittle hm]

theorem toBig_inj {width n m : Nat} (hn : n < 256 ^ width) (hm : m < 256 ^ width)
    (h : toBig width n = toBig width m) : n = m :=
  toLittle_inj hn hm (List.reverse_injective h)

end Octets
