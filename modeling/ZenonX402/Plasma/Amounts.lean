/-
# Amounts of plasma

What `calculateDynamicPlasmaPriceAmounts` selects covers the base plasma, and none of it
is more than it has to be: the fusion that is selected is the least that covers the base
plasma alone, and the difficulty is the least that covers what the fusion at hand leaves
of it. The difficulty grows with the base plasma and with both prices, and with less
plasma at hand, also where work becomes necessary.

Rounding is dealt with in one place: a quantity that is rounded up at a price is the
least one that is worth as much when its worth is rounded down (`ceilDivide_least`).

Key definitions: `worth`, `remainingBase`, `Exact`.
Key theorems: `ceilDivide_least`, `difficulty_mono`, `amounts_exact`.
-/
import ZenonX402.Plasma.Sufficiency
import Mathlib.Order.Bounds.Basic

namespace ZenonX402
namespace Plasma

/-! ### Worth -/

/-- The base plasma that some plasma is worth at a price. -/
def worth (plasma price : Nat) : Nat := plasma * SCALE / price

theorem le_worth {plasma price base : Nat} (hprice : 1 ≤ price) :
    base ≤ worth plasma price ↔ base * price ≤ SCALE * plasma := by
  rw [worth, Nat.le_div_iff_mul_le hprice, Nat.mul_comm plasma]

/-- What is rounded up at a price is the least that is worth as much. -/
theorem ceilDivide_least {base price : Nat} (hprice : 1 ≤ price) :
    IsLeast {plasma | base ≤ worth plasma price} (ceilDivide (base * price) SCALE) := by
  have hscale : 0 < SCALE := by decide
  constructor
  · simp only [Set.mem_ofPred_eq, le_worth hprice]
    exact le_mul_ceilDivide _ hscale
  · intro plasma hplasma
    simp only [Set.mem_ofPred_eq, le_worth hprice] at hplasma
    exact (ceilDivide_le hscale).mpr hplasma

theorem worth_mono {plasma plasma' price price' : Nat} (hpos : 1 ≤ price)
    (hplasma : plasma ≤ plasma') (hprice : price ≤ price') :
    worth plasma price' ≤ worth plasma' price := by
  calc worth plasma price' ≤ worth plasma price := Nat.div_le_div_left hprice hpos
    _ ≤ worth plasma' price := Nat.div_le_div_right (Nat.mul_le_mul_right _ hplasma)

/-! ### Amounts -/

variable {base available fusionPrice workPrice : Nat} {a : Amounts}

/-- What the plasma at hand leaves of the base plasma. -/
def remainingBase (base available fusionPrice : Nat) : Nat := base - worth available fusionPrice

/-- The amounts cover the base plasma, and no less would. -/
structure Exact (base available fusionPrice workPrice : Nat) (a : Amounts) : Prop where
  selected : a.selectedFusedPlasma.1 ≤ available
  covered : base ≤ worth a.selectedFusedPlasma.1 fusionPrice
    + worth (a.expectedDifficulty.1 / DIFFICULTY) workPrice
  fused : a.pricingMode = .FUSION_ONLY → a.expectedDifficulty.1 = 0
    ∧ IsLeast {plasma | base ≤ worth plasma fusionPrice} a.selectedFusedPlasma.1
  worked : a.pricingMode = .FUSION_AND_POW → a.selectedFusedPlasma.1 = available
    ∧ 1 ≤ remainingBase base available fusionPrice
    ∧ IsLeast {difficulty | DIFFICULTY ∣ difficulty
        ∧ remainingBase base available fusionPrice ≤ worth (difficulty / DIFFICULTY) workPrice}
        a.expectedDifficulty.1

/-- The least multiple of the difficulty of a unit, where the least number of units is known. -/
theorem difficulty_least {units : Nat} {P : Nat → Prop} (h : IsLeast {n | P n} units) :
    IsLeast {difficulty | DIFFICULTY ∣ difficulty ∧ P (difficulty / DIFFICULTY)}
    (units * DIFFICULTY) := by
  have hpos : 0 < DIFFICULTY := by decide
  constructor
  · refine ⟨Nat.dvd_mul_left _ _, ?_⟩
    rw [Nat.mul_div_cancel _ hpos]
    exact h.1
  · rintro difficulty ⟨hdvd, hP⟩
    have hunits : units ≤ difficulty / DIFFICULTY := h.2 hP
    calc units * DIFFICULTY ≤ difficulty / DIFFICULTY * DIFFICULTY := Nat.mul_le_mul_right _ hunits
      _ = difficulty := Nat.div_mul_cancel hdvd

theorem exact_of_ok (hfusion : 1 ≤ fusionPrice) (hwork : 1 ≤ workPrice)
    (h : calculateDynamicPlasmaPriceAmounts base available fusionPrice workPrice SCALE DIFFICULTY
      = .ok a) :
    Exact base available fusionPrice workPrice a := by
  have hscale : 0 < SCALE := by decide
  have hper : 0 < DIFFICULTY := by decide
  have hcovered := amounts_cover hscale hper h hfusion hwork le_rfl le_rfl
  refine ⟨selected_le h, hcovered, fun hmode => ?_, fun hmode => ?_⟩
  · rcases (amounts_ok h).2 with ⟨-, hselected, hdifficulty, -⟩ | ⟨-, -, -, hpow⟩
    · refine ⟨hdifficulty, ?_⟩
      rw [hselected, (amounts_ok h).1]
      exact ceilDivide_least hfusion
    · rw [hmode] at hpow
      cases hpow
  · rcases (amounts_ok h).2 with ⟨-, -, -, honly⟩ | ⟨hlt, hselected, hdifficulty, -⟩
    · rw [hmode] at honly
      cases honly
    · rw [(amounts_ok h).1] at hlt
      have hleft : worth available fusionPrice < base := effective_lt hscale hfusion hlt
      refine ⟨hselected, by unfold remainingBase; omega, ?_⟩
      rw [hdifficulty]
      have hleast := @ceilDivide_least (remainingBase base available fusionPrice) workPrice hwork
      exact difficulty_least (P := fun n => remainingBase base available fusionPrice
        ≤ worth n workPrice) hleast

/-- The difficulty grows with the base plasma and with the prices, and falls with the plasma at
hand, whatever the modes. -/
theorem difficulty_mono {base' available' fusionPrice' workPrice' : Nat} {a' : Amounts}
    (hfusion : 1 ≤ fusionPrice)
    (h : calculateDynamicPlasmaPriceAmounts base available fusionPrice workPrice SCALE DIFFICULTY
      = .ok a)
    (h' : calculateDynamicPlasmaPriceAmounts base' available' fusionPrice' workPrice' SCALE
      DIFFICULTY = .ok a')
    (hbase : base ≤ base') (havailable : available' ≤ available) (hf : fusionPrice ≤ fusionPrice')
    (hw : workPrice ≤ workPrice') : a.expectedDifficulty.1 ≤ a'.expectedDifficulty.1 := by
  obtain ⟨hrequired, hmode⟩ := amounts_ok h
  obtain ⟨hrequired', hmode'⟩ := amounts_ok h'
  have hle : a.requiredFusedPlasma.1 ≤ a'.requiredFusedPlasma.1 := by
    rw [hrequired, hrequired']
    exact ceilDivide_mono (Nat.mul_le_mul hbase hf) _
  rcases hmode with ⟨-, -, hzero, -⟩ | ⟨hlt, -, hdifficulty, -⟩
  · omega
  · rcases hmode' with ⟨hle', -, -, -⟩ | ⟨-, -, hdifficulty', -⟩
    · omega
    · have hworth : worth available' fusionPrice' ≤ worth available fusionPrice :=
        worth_mono hfusion havailable hf
      have hremaining : remainingBase base available fusionPrice
          ≤ remainingBase base' available' fusionPrice' :=
        by
        unfold remainingBase
        omega
      rw [hdifficulty, hdifficulty']
      exact Nat.mul_le_mul_right _ (ceilDivide_mono (Nat.mul_le_mul hremaining hw) _)

/-- **The amounts are exact and monotone.** They cover the base plasma with the least fusion, or
with all the plasma at hand and the least work; and the difficulty is no less for more base plasma,
higher prices or less plasma at hand. -/
theorem amounts_exact (hfusion : 1 ≤ fusionPrice) (hwork : 1 ≤ workPrice)
    (h : calculateDynamicPlasmaPriceAmounts base available fusionPrice workPrice SCALE DIFFICULTY
      = .ok a) :
    Exact base available fusionPrice workPrice a
      ∧ ∀ (base' available' fusionPrice' workPrice' : Nat) (a' : Amounts),
        calculateDynamicPlasmaPriceAmounts base' available' fusionPrice' workPrice' SCALE DIFFICULTY
          = .ok a' →
          base ≤ base' → available' ≤ available → fusionPrice ≤ fusionPrice' →
          workPrice ≤ workPrice' →
            a.expectedDifficulty.1 ≤ a'.expectedDifficulty.1 :=
  ⟨exact_of_ok hfusion hwork h,
    fun _ _ _ _ _ h' hb ha hf hw => difficulty_mono hfusion h h' hb ha hf hw⟩

/-- Plasma for seven of ten units is at hand; the other three cost work for six. -/
theorem amounts_exact_sample :
    ∃ a, calculateDynamicPlasmaPriceAmounts 10 7 1000 2000 SCALE DIFFICULTY = .ok a
    ∧ a.expectedDifficulty.1 = 9000 ∧ Exact 10 7 1000 2000 a := by
  have h : calculateDynamicPlasmaPriceAmounts 10 7 1000 2000 SCALE DIFFICULTY
      = .ok ⟨⟨10, by decide⟩, ⟨7, by decide⟩, ⟨9000, by decide⟩, .FUSION_AND_POW⟩ := by rfl
  exact ⟨_, h, rfl, (amounts_exact (by decide) (by decide) h).1⟩

end Plasma
end ZenonX402
