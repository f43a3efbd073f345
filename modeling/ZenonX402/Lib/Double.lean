/-
# Integers as IEEE doubles

JavaScript adds and subtracts its numbers as doubles, so a program that keeps
integer counters is exact only as long as they stay within 2^53. `add` and
`sub` are the operations on integers with their rounding: to the nearest
integer with 53 significant bits, halves to the even one. Up to 2^53 nothing is
rounded (`round_of_le`), and a sum beyond it stays beyond it
(`le_roundNat_of_le`), so a sum that compares equal to a safe integer is that
integer (`add_add_eq_of_safe`).

`nearestInteger?` is the double nearest to a fraction when it is an integer,
which is how a decimal numeral is read.

Key definitions: `round`, `add`, `sub`, `nearestInteger?`.
Key theorems: `round_of_le`, `add_add_eq_of_safe`, `nearestInteger?_one`.
-/
import ZenonX402.Lib.Value
import Mathlib.Tactic.Ring
import Mathlib.Tactic.Linarith

namespace Js

/-- `p / q` rounded to an integer, a half to the even one. -/
def roundHalfEven (p q : Nat) : Nat :=
  if q < 2 * (p % q) ∨ 2 * (p % q) = q ∧ p / q % 2 = 1 then p / q + 1 else p / q

/-- The double nearest to `n`. -/
def roundNat (n : Nat) : Nat :=
  roundHalfEven n (2 ^ (n.log2 - 52)) * 2 ^ (n.log2 - 52)

/-- The double nearest to `n`. -/
def round (n : Int) : Int := if 0 ≤ n then roundNat n.natAbs else -(roundNat n.natAbs : Int)

/-- `a + b` on numbers. -/
def add (a b : Int) : Int := round (a + b)

/-- `a - b` on numbers. -/
def sub (a b : Int) : Int := round (a - b)

theorem roundHalfEven_one (n : Nat) : roundHalfEven n 1 = n := by
  unfold roundHalfEven
  rw [Nat.mod_one, if_neg (by omega), Nat.div_one]

theorem le_roundHalfEven (p q : Nat) : p / q ≤ roundHalfEven p q := by
  unfold roundHalfEven
  split <;> omega

theorem roundNat_of_lt {n : Nat} (h : n < 2 ^ 53) : roundNat n = n := by
  have hlog : n.log2 - 52 = 0 := by
    by_cases h0 : n = 0
    · subst h0; decide
    · have := (Nat.log2_lt h0).mpr h
      omega
  unfold roundNat
  rw [hlog, pow_zero, roundHalfEven_one, mul_one]

theorem le_roundNat_of_le {n : Nat} (h : 2 ^ 53 ≤ n) : 2 ^ 53 ≤ roundNat n := by
  have h0 : n ≠ 0 := by
    have := Nat.two_pow_pos 53
    omega
  have hlog : 53 ≤ n.log2 := (Nat.le_log2 h0).mpr h
  obtain ⟨e, he⟩ : ∃ e, n.log2 = e + 53 := ⟨n.log2 - 53, by omega⟩
  have hn : 2 ^ (e + 53) ≤ n := he ▸ Nat.log2_self_le h0
  have hq : 2 ^ 52 ≤ n / 2 ^ (e + 1) := by
    rw [Nat.le_div_iff_mul_le (Nat.two_pow_pos _), ← Nat.pow_add]
    rwa [show 52 + (e + 1) = e + 53 by omega]
  have hr : 2 ^ 52 ≤ roundHalfEven n (2 ^ (e + 1)) := hq.trans (le_roundHalfEven ..)
  unfold roundNat
  rw [he, show e + 53 - 52 = e + 1 by omega]
  calc 2 ^ 53 = 2 ^ 52 * 2 ^ 1 := by rw [← Nat.pow_add]
    _ ≤ roundHalfEven n (2 ^ (e + 1)) * 2 ^ (e + 1) :=
      Nat.mul_le_mul hr (Nat.pow_le_pow_right (by omega) (by omega))

/-- Integers below 2^53 are doubles. -/
theorem round_of_le {n : Int} (h : n.natAbs ≤ 9007199254740991) : round n = n := by
  have hr := roundNat_of_lt (n := n.natAbs) (by omega)
  unfold round
  rw [hr]
  split <;> omega

theorem safe_round_iff {n : Int} :
    (round n).natAbs ≤ 9007199254740991 ↔ n.natAbs ≤ 9007199254740991 := by
  constructor
  · intro h
    by_contra hn
    have hbig := le_roundNat_of_le (n := n.natAbs) (by omega)
    unfold round at h
    split at h <;> omega
  · intro h
    rwa [round_of_le h]

theorem add_of_le {a b : Int} (h : (a + b).natAbs ≤ 9007199254740991) :
    add a b = a + b := round_of_le h

theorem sub_of_le {a b : Int} (h : (a - b).natAbs ≤ 9007199254740991) :
    sub a b = a - b := round_of_le h

/-- A sum of three counters that compares equal to a safe integer is exact. -/
theorem add_add_eq_of_safe {a b c t : Int} (ha : 0 ≤ a) (hb : 0 ≤ b) (hc : 0 ≤ c)
    (ht : t.natAbs ≤ 9007199254740991) : add (add a b) c = t ↔ a + b + c = t := by
  have hsum {x y : Int} (hx : 0 ≤ x) (hy : 0 ≤ y) : (add x y).natAbs ≤ 9007199254740991 ↔
      (x + y).natAbs ≤ 9007199254740991 := safe_round_iff
  have hnonneg : 0 ≤ add a b := by
    unfold add round
    rw [if_pos (by omega)]
    omega
  constructor
  · intro h
    have h1 : (add a b + c).natAbs ≤ 9007199254740991 := (hsum hnonneg hc).mp (h ▸ ht)
    have h2 : add a b = a + b := add_of_le ((hsum ha hb).mp (by omega))
    rw [add_of_le h1, h2] at h
    exact h
  · intro h
    rw [add_of_le (a := a) (b := b) (by omega), add_of_le (by omega), h]

/-! ### Decimal numerals -/

/-- The exponent of the last significant bit of the double nearest to `p / q`. -/
def lastBit (p q : Nat) : Int :=
  max (-1074) (if p * 2 ^ q.log2 < q * 2 ^ p.log2 then (p.log2 : Int) - q.log2 - 53
    else (p.log2 : Int) - q.log2 - 52)

/-- The double nearest to `p / q`, when that is an integer; an overflow to
infinity is none. -/
def nearestInteger? (p q : Nat) : Option Nat :=
  if 0 ≤ lastBit p q then
    let n := roundHalfEven p (q * 2 ^ (lastBit p q).toNat) * 2 ^ (lastBit p q).toNat
    if n.log2 < 1024 then some n else none
  else
    let m := roundHalfEven (p * 2 ^ (-lastBit p q).toNat) q
    if m % 2 ^ (-lastBit p q).toNat = 0 then some (m / 2 ^ (-lastBit p q).toNat) else none

/-- A numeral of an integer below 2^53 is read as that integer. -/
theorem nearestInteger?_one {n : Nat} (h : n < 2 ^ 53) : nearestInteger? n 1 = some n := by
  have hlog : n.log2 ≤ 52 := by
    by_cases h0 : n = 0
    · subst h0; decide
    · have := (Nat.log2_lt h0).mpr h
      omega
  have hbit : lastBit n 1 ≤ 0 := by
    unfold lastBit
    rw [show Nat.log2 1 = 0 by decide]
    split <;> omega
  unfold nearestInteger?
  by_cases h0 : 0 ≤ lastBit n 1
  · have he : (lastBit n 1).toNat = 0 := by omega
    rw [if_pos h0, he, pow_zero, Nat.mul_one, Nat.mul_one, roundHalfEven_one]
    exact if_pos (by omega)
  · rw [if_neg h0, roundHalfEven_one]
    simp only [Nat.mul_mod_left, if_true, Nat.mul_div_cancel _ (Nat.two_pow_pos _)]

end Js
