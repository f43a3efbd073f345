/-
# Decimals

A number has one decimal text without a zero in front: two such texts of one number are
equal (`Text.positiveDecimal_inj`), because their digits are those of the number.

Key theorems: `ofDigitChars_eq_ofDigits`, `Text.positiveDecimal_inj`.
-/
import Mathlib.Data.Nat.Digits.Lemmas
import ZenonX402.Lib.Text

namespace Js
namespace Text

/-- What a digit counts. -/
def digitValue (c : Char) : Nat := c.toNat - 48

theorem digitValue_lt {c : Char} (h : isDigit c = true) :
    digitValue c < 10 ∧ c.toNat = digitValue c + 48 := by
  rw [isDigit, Bool.and_eq_true, decide_eq_true_eq, decide_eq_true_eq] at h
  have hlow : 48 ≤ c.toNat := UInt32.le_iff_toNat_le.mp h.1
  have hhigh : c.toNat ≤ 57 := UInt32.le_iff_toNat_le.mp h.2
  rw [digitValue]
  omega

theorem digitValue_inj {c d : Char} (hc : isDigit c = true) (hd : isDigit d = true)
    (h : digitValue c = digitValue d) : c = d := by
  have hc' := (digitValue_lt hc).2
  have hd' := (digitValue_lt hd).2
  exact Char.toNat_inj.mp (by omega)

/-- The number of a text is that of its digits, the last one first. -/
theorem ofDigitChars_eq_ofDigits : ∀ (cs : List Char) (init : Nat), Nat.ofDigitChars 10 cs init
    = 10 ^ cs.length * init + Nat.ofDigits 10 (cs.reverse.map digitValue)
  | [], init => by simp [Nat.ofDigitChars_nil]
  | c :: cs, init => by
    have hvalue : c.toNat - '0'.toNat = digitValue c := rfl
    rw [Nat.ofDigitChars_cons, hvalue, ofDigitChars_eq_ofDigits cs, List.reverse_cons,
      List.map_append, Nat.ofDigits_append, List.length_map, List.length_reverse, List.length_cons,
      List.map_singleton, Nat.ofDigits_singleton]
    ring

theorem positiveDecimal_digits {s : String} (h : isPositiveDecimal s = true) :
    (∀ c ∈ s.toList, isDigit c = true) ∧ Nat.digits 10 (Nat.ofDigitChars 10 s.toList 0)
      = s.toList.reverse.map digitValue := by
  unfold isPositiveDecimal at h
  cases hs : s.toList with
  | nil =>
    rw [hs] at h
    cases h
  | cons c cs =>
    rw [hs] at h
    simp only [Bool.and_eq_true, List.all_eq_true, bne_iff_ne, ne_eq] at h
    obtain ⟨⟨hc, hzero⟩, hcs⟩ := h
    have hall : ∀ d ∈ c :: cs, isDigit d = true := List.forall_mem_cons.mpr ⟨hc, hcs⟩
    refine ⟨hall, ?_⟩
    rw [ofDigitChars_eq_ofDigits, Nat.mul_zero, Nat.zero_add]
    refine Nat.digits_ofDigits 10 (by decide) _ (fun l hl => ?_) fun hne => ?_
    · obtain ⟨d, hd, rfl⟩ := List.mem_map.mp hl
      exact (digitValue_lt (hall d (List.mem_reverse.mp hd))).1
    · have hlast : ((c :: cs).reverse.map digitValue).getLast hne = digitValue c := by
        simp [List.reverse_cons, List.map_append]
      rw [hlast]
      intro hvalue
      exact hzero (digitValue_inj hc (by decide) hvalue)

/-- Two decimals of one number. -/
theorem positiveDecimal_inj {s t : String} (hs : isPositiveDecimal s = true)
    (ht : isPositiveDecimal t = true)
    (h : Nat.ofDigitChars 10 s.toList 0 = Nat.ofDigitChars 10 t.toList 0) : s = t := by
  obtain ⟨hdigits, hvalue⟩ := positiveDecimal_digits hs
  obtain ⟨hdigits', hvalue'⟩ := positiveDecimal_digits ht
  rw [h, hvalue', List.map_reverse, List.map_reverse] at hvalue
  have hmap : s.toList.map digitValue = t.toList.map digitValue :=
    (List.reverse_injective hvalue).symm
  have hlist : ∀ cs ds : List Char, (∀ c ∈ cs, isDigit c = true) → (∀ d ∈ ds, isDigit d = true) →
      cs.map digitValue = ds.map digitValue → cs = ds := by
    intro cs
    induction cs with
    | nil =>
      intro ds _ _ hmap
      exact (List.map_eq_nil_iff.mp hmap.symm).symm
    | cons c cs ih =>
      intro ds hc hd hmap
      cases ds with
      | nil => cases hmap
      | cons d ds =>
        obtain ⟨hfirst, hrest⟩ := List.cons.inj hmap
        rw [List.forall_mem_cons] at hc hd
        rw [digitValue_inj hc.1 hd.1 hfirst, ih ds hc.2 hd.2 hrest]
  exact String.toList_inj.mp (hlist _ _ hdigits hdigits' hmap)

end Text
end Js
