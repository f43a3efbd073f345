/-
# A quote suffices as long as its policy holds

Prices that move within a policy stay between the iterates of its two bounds
(`trajectory_le`, `le_trajectory`), and the amounts at lower prices need no more than
those at the bounds: what is fused covers more of the base plasma, and what is left
of it costs less work (`amounts_of_le`, `amounts_cover`). So whatever of these
prices is observed, the selection of the quote is taken.

A receipt is built again from its source, its policy and its digests, so nothing in
it but the source can be changed (`rebuild_replaced`); another source that is
observed with the same prices and leads to the same amounts is as good
(`source_replaced`).

Key definitions: `Moves`, `AtStep`, `replace`.
Key theorems: `bounded_ok`, `trajectory_le`, `amounts_of_le`, `amounts_cover`, `buildQuote_ok`,
`quote_sufficient`.
-/
import ZenonX402.Plasma.PricePolicy
import Mathlib.Algebra.Order.Floor.Div
import Mathlib.Order.Iterate

namespace ZenonX402
namespace Plasma

open Js

/-! ### Rounding -/

theorem ceilDivide_eq (a b : Nat) : ceilDivide a b = a ⌈/⌉ b :=
  (Nat.ceilDiv_eq_add_pred_div a b).symm

theorem ceilDivide_le {a b c : Nat} (hb : 0 < b) : ceilDivide a b ≤ c ↔ a ≤ b * c := by
  rw [ceilDivide_eq, ceilDiv_le_iff_le_mul hb]

theorem le_mul_ceilDivide (a : Nat) {b : Nat} (hb : 0 < b) : a ≤ b * ceilDivide a b :=
  (ceilDivide_le hb).mp le_rfl

theorem ceilDivide_mono {a c : Nat} (h : a ≤ c) (b : Nat) : ceilDivide a b ≤ ceilDivide c b :=
  Nat.div_le_div_right (by omega)

theorem safeResult_ok {value : Nat} {s : Safe} : safeResult value = .ok s ↔ s.1 = value := by
  unfold safeResult
  constructor
  · intro h
    split at h
    · rw [← Except.ok.inj h]
    · cases h
  · rintro rfl
    rw [dif_pos s.2.2]

theorem safeResult_of_le {value : Nat} (h : value ≤ MAX_SAFE) :
    safeResult value = .ok ⟨value, Nat.zero_le _, h⟩ := dif_pos h

/-! ### Prices -/

theorem stepped_mono (multiplier : Nat) : Monotone (stepped multiplier) := fun _ _ h =>
  max_le_max_right _ (Nat.div_le_div_right (Nat.mul_le_mul_right _ h))

/-- A price with a growing multiplier does not fall. -/
theorem le_stepped {multiplier : Nat} (h : 100 ≤ multiplier) (price : Nat) :
    price ≤ stepped multiplier price := by
  refine le_trans ?_ (le_max_left _ _)
  rw [Nat.le_div_iff_mul_le (by norm_num)]
  exact Nat.mul_le_mul_left _ h

/-- A price with a shrinking multiplier does not rise. -/
theorem stepped_le {multiplier price : Nat} (h : multiplier ≤ 100)
    (hprice : MINIMUM_PRICE ≤ price) :
    stepped multiplier price ≤ price := by
  refine max_le ?_ hprice
  calc price * multiplier / 100 ≤ price * 100 / 100 := Nat.div_le_div_right (Nat.mul_le_mul_left _
          h)
    _ = price := Nat.mul_div_cancel _ (by norm_num)

/-- What the loop returns is the iterate. -/
theorem bounded_ok {multiplier : Nat} : ∀ {steps : Nat} {price result : Safe},
    bounded multiplier steps price = .ok result → result.1 = (stepped multiplier)^[steps] price.1
  | 0, price, result, h => by rw [← Except.ok.inj h]; rfl
  | steps + 1, price, result, h => by
    simp only [bounded, bind_ok, safeResult_ok] at h
    obtain ⟨next, hnext, h⟩ := h
    rw [bounded_ok h, hnext, Function.iterate_succ_apply]

/-- The loop gets as far as any longer one does. -/
theorem bounded_of_le {multiplier : Nat} :
    ∀ {steps more : Nat} {price result : Safe}, steps ≤ more →
    bounded multiplier more price = .ok result → ∃ early, bounded multiplier steps price = .ok early
  | 0, _, price, _, _, _ => ⟨price, rfl⟩
  | steps + 1, 0, _, _, hle, _ => absurd hle (by omega)
  | steps + 1, more + 1, price, result, hle, h => by
    simp only [bounded, bind_ok] at h
    obtain ⟨next, hnext, h⟩ := h
    obtain ⟨early, hearly⟩ := bounded_of_le (Nat.le_of_succ_le_succ hle) h
    exact ⟨early, by rw [bounded, hnext]; exact hearly⟩

/-- A shrinking price is never too large. -/
theorem bounded_shrinks {multiplier : Nat} (h : multiplier ≤ 100) : ∀ (steps : Nat) (price : Safe),
    MINIMUM_PRICE ≤ price.1 → ∃ result, bounded multiplier steps price = .ok result
  | 0, price, _ => ⟨price, rfl⟩
  | steps + 1, price, hprice => by
    have hsafe : stepped multiplier price.1 ≤ MAX_SAFE := (stepped_le h hprice).trans price.2.2
    obtain ⟨result, hresult⟩ := bounded_shrinks h steps ⟨_, Nat.zero_le _, hsafe⟩ (le_max_right _ _)
    exact ⟨result, by rw [bounded, safeResult_of_le hsafe]; exact hresult⟩

theorem price_pos (p : Price) : 0 < p.1 := lt_of_lt_of_le (show 0 < MINIMUM_PRICE by decide) p.2.1

/-- A step of a price that a policy allows. -/
def Moves (policy : Policy) (a b : Nat) : Prop :=
  stepped (100 - policy.maxPriceChangePercent.1) a ≤ b
    ∧ b ≤ stepped (100 + policy.maxPriceChangePercent.1) a

variable {policy : Policy} {n : Nat} {x : Nat → Nat}

theorem trajectory_le (h : ∀ k < n, Moves policy (x k) (x (k + 1))) :
    x n ≤ (stepped (100 + policy.maxPriceChangePercent.1))^[n] (x 0) :=
  (stepped_mono _).seq_le_seq n
    (y := fun k => (stepped (100 + policy.maxPriceChangePercent.1))^[k] (x 0)) le_rfl
    (fun k hk => (h k hk).2) fun k _ => (Function.iterate_succ_apply' _ k (x 0)).ge

theorem le_trajectory (h : ∀ k < n, Moves policy (x k) (x (k + 1))) :
    (stepped (100 - policy.maxPriceChangePercent.1))^[n] (x 0) ≤ x n :=
  (stepped_mono _).seq_le_seq n
    (x := fun k => (stepped (100 - policy.maxPriceChangePercent.1))^[k] (x 0)) le_rfl
    (fun k _ => (Function.iterate_succ_apply' _ k (x 0)).le) fun k hk => (h k hk).1

/-- Both checks of a price pass for one that moved within the policy. -/
theorem checkPrice_ok {origin now : Price} {horizon : Nat} {bound : Safe} (hn : n ≤ horizon)
    (hbound : boundedPrice origin.safe policy horizon = .ok bound) (horigin : x 0 = origin.1)
    (hnow : x n = now.1) (h : ∀ k < n, Moves policy (x k) (x (k + 1))) :
    checkPrice origin now policy n = .ok () ∧ now.1 ≤ bound.1 := by
  obtain ⟨upper, hupper⟩ := bounded_of_le hn hbound
  obtain ⟨lower, hlower⟩ :=
    bounded_shrinks (Nat.sub_le 100 policy.maxPriceChangePercent.1) n origin.safe origin.2.1
  have hle : now.1 ≤ upper.1 := by
    rw [bounded_ok hupper, ← hnow, show origin.safe.1 = x 0 from horigin.symm]
    exact trajectory_le h
  have hge : lower.1 ≤ now.1 := by
    rw [bounded_ok hlower, ← hnow, show origin.safe.1 = x 0 from horigin.symm]
    exact le_trajectory h
  refine ⟨?_, hle.trans ?_⟩
  · unfold checkPrice boundedPrice boundedLowerPrice
    simp only [bind_ok, rejectIf_ok, not_lt]
    exact ⟨upper, hupper, (), hle, lower, hlower, hge⟩
  · rw [bounded_ok hupper, bounded_ok hbound]
    exact Function.monotone_iterate_of_id_le (fun y => le_stepped (Nat.le_add_right 100 _) y) hn _

/-! ### Amounts -/

variable {base available fusionPrice workPrice f w : Nat} {a : Amounts}

/-- What an allocation leaves of the base plasma is not nothing where work has to be priced. -/
theorem effective_lt {scale : Nat} (hscale : 0 < scale) (hprice : 0 < fusionPrice)
    (h : available < ceilDivide (base * fusionPrice) scale) :
    available * scale / fusionPrice < base := by
  rw [Nat.div_lt_iff_lt_mul hprice]
  by_contra hle
  have hceil := (ceilDivide_le hscale).mpr (show base * fusionPrice ≤ scale * available by
    rw [Nat.mul_comm scale]; exact not_lt.mp hle)
  omega

/-- The amounts, where the work that is left has to be priced and where not. -/
theorem amounts_ok {scale perPlasma : Nat}
    (h : calculateDynamicPlasmaPriceAmounts base available fusionPrice workPrice scale perPlasma
      = .ok a) :
    a.requiredFusedPlasma.1 = ceilDivide (base * fusionPrice) scale
      ∧ (a.requiredFusedPlasma.1 ≤ available ∧ a.selectedFusedPlasma = a.requiredFusedPlasma
          ∧ a.expectedDifficulty.1 = 0 ∧ a.pricingMode = .FUSION_ONLY
        ∨ available < a.requiredFusedPlasma.1 ∧ a.selectedFusedPlasma.1 = available
          ∧ a.expectedDifficulty.1
            = ceilDivide ((base - available * scale / fusionPrice) * workPrice) scale * perPlasma
          ∧ a.pricingMode = .FUSION_AND_POW) := by
  unfold calculateDynamicPlasmaPriceAmounts at h
  simp only [bind_ok, safeResult_ok] at h
  obtain ⟨required, hrequired, h⟩ := h
  split at h
  · rename_i hle
    simp only [bind_ok, safeResult_ok] at h
    obtain ⟨difficulty, hdifficulty, h⟩ := h
    obtain rfl := Except.ok.inj h
    exact ⟨hrequired, .inl ⟨hle, rfl, hdifficulty, rfl⟩⟩
  · rename_i hlt
    simp only [bind_ok, safeResult_ok] at h
    obtain ⟨difficulty, hdifficulty, selected, hselected, h⟩ := h
    obtain rfl := Except.ok.inj h
    exact ⟨hrequired, .inr ⟨not_le.mp hlt, hselected, hdifficulty, rfl⟩⟩

theorem selected_le {scale perPlasma : Nat}
    (h : calculateDynamicPlasmaPriceAmounts base available fusionPrice workPrice scale perPlasma
      = .ok a) :
    a.selectedFusedPlasma.1 ≤ available := by
  rcases (amounts_ok h).2 with ⟨hle, hselected, -⟩ | ⟨-, hselected, -⟩
  · rw [hselected]
    exact hle
  · exact hselected.le

/-- At lower prices the allocation that was selected leaves no more work than was expected. -/
theorem amounts_of_le {scale perPlasma : Nat}
    (h : calculateDynamicPlasmaPriceAmounts base available fusionPrice workPrice scale perPlasma
      = .ok a)
    (hpos : 0 < f) (hf : f ≤ fusionPrice) (hw : w ≤ workPrice) :
    ∃ b, calculateDynamicPlasmaPriceAmounts base a.selectedFusedPlasma.1 f w scale perPlasma = .ok b
      ∧ b.expectedDifficulty.1 ≤ a.expectedDifficulty.1 := by
  obtain ⟨hrequired, hmode⟩ := amounts_ok h
  have hceil : ceilDivide (base * f) scale ≤ a.requiredFusedPlasma.1 := by
    rw [hrequired]
    exact ceilDivide_mono (Nat.mul_le_mul_left _ hf) _
  obtain ⟨required, hrequired'⟩ : ∃ required : Safe, required.1 = ceilDivide (base * f) scale :=
    ⟨⟨_, Nat.zero_le _, hceil.trans a.requiredFusedPlasma.2.2⟩, rfl⟩
  unfold calculateDynamicPlasmaPriceAmounts
  by_cases hle : required.1 ≤ a.selectedFusedPlasma.1
  · refine ⟨⟨required, required, ⟨0, le_rfl, Nat.zero_le _⟩, .FUSION_ONLY⟩, ?_, Nat.zero_le _⟩
    simp only [bind_ok, safeResult_ok]
    refine ⟨required, hrequired', ?_⟩
    rw [if_pos hle]
    rfl
  · rcases hmode with ⟨-, hselected, -⟩ | ⟨-, hselected, hdifficulty, -⟩
    · rw [hselected, hrequired'] at hle
      exact absurd hceil hle
    · have hwork : ceilDivide ((base - a.selectedFusedPlasma.1 * scale / f) * w) scale * perPlasma
          ≤ a.expectedDifficulty.1 := by
        rw [hdifficulty, hselected]
        refine Nat.mul_le_mul_right _ (ceilDivide_mono (Nat.mul_le_mul ?_ hw) _)
        exact Nat.sub_le_sub_left (Nat.div_le_div_left hf hpos) _
      refine ⟨⟨required, a.selectedFusedPlasma,
        ⟨_, Nat.zero_le _, hwork.trans a.expectedDifficulty.2.2⟩, .FUSION_AND_POW⟩, ?_, hwork⟩
      simp only [bind_ok, safeResult_ok]
      refine ⟨required, hrequired', ?_⟩
      rw [if_neg hle]
      simp only [bind_ok, safeResult_ok, Except.ok.injEq]
      exact ⟨_, rfl, a.selectedFusedPlasma, rfl, rfl⟩

/-- What was selected pays for the base plasma at lower prices. -/
theorem amounts_cover {scale perPlasma : Nat} (hscale : 0 < scale) (hper : 0 < perPlasma)
    (h : calculateDynamicPlasmaPriceAmounts base available fusionPrice workPrice scale perPlasma
      = .ok a)
    (hpos : 0 < f) (hwpos : 0 < w) (hf : f ≤ fusionPrice) (hw : w ≤ workPrice) :
    base ≤ a.selectedFusedPlasma.1 * scale / f + a.expectedDifficulty.1 / perPlasma
    * scale / w := by
  obtain ⟨hrequired, hmode⟩ := amounts_ok h
  rcases hmode with ⟨-, hselected, -⟩ | ⟨-, hselected, hdifficulty, -⟩
  · refine le_add_right ?_
    rw [hselected, hrequired, Nat.le_div_iff_mul_le hpos]
    calc base * f ≤ base * fusionPrice := Nat.mul_le_mul_left _ hf
      _ ≤ scale * ceilDivide (base * fusionPrice) scale := le_mul_ceilDivide _ hscale
      _ = ceilDivide (base * fusionPrice) scale * scale := Nat.mul_comm ..
  · have hfused : available * scale / fusionPrice ≤ available * scale / f :=
      Nat.div_le_div_left hf hpos
    have hwork : base - available * scale / fusionPrice ≤ a.expectedDifficulty.1 / perPlasma
        * scale / w := by
      rw [hdifficulty, Nat.mul_div_cancel _ hper, Nat.le_div_iff_mul_le hwpos]
      calc (base - available * scale / fusionPrice) * w
          ≤ (base - available * scale / fusionPrice) * workPrice := Nat.mul_le_mul_left _ hw
        _ ≤ scale * ceilDivide ((base - available * scale / fusionPrice) * workPrice) scale :=
            le_mul_ceilDivide _ hscale
        _ = ceilDivide ((base - available * scale / fusionPrice) * workPrice) scale * scale :=
          Nat.mul_comm ..
    rw [hselected]
    omega

/-! ### Quotes -/

variable {source : Compatibility} {subject runtime : Digest} {quote : Receipt}

/-- What a quote consists of. -/
theorem buildQuote_ok (h : buildQuote source policy subject runtime = .ok quote) :
    quote.sourceCompatibility = source ∧ quote.policy = policy ∧ quote.subjectDigest = subject
      ∧ quote.runtimeContextDigest = runtime
      ∧ boundedPrice source.1.frontier.nextFusionPrice.safe policy policy.maxMomentumAdvances.1
          = .ok quote.boundPrices.fusionPrice
      ∧ boundedPrice source.1.frontier.nextWorkPrice.safe policy policy.maxMomentumAdvances.1
          = .ok quote.boundPrices.workPrice
      ∧ ∃ a : Amounts, calculateDynamicPlasmaPriceAmounts source.1.rpcObservation.basePlasma.1
          (min source.1.rpcObservation.availablePlasma.1 policy.maxFusedPlasma.1)
          quote.boundPrices.fusionPrice.1
          quote.boundPrices.workPrice.1 SCALE DIFFICULTY = .ok a
        ∧ a.expectedDifficulty.1 ≤ policy.maxDifficulty.1
        ∧ quote.selected = ⟨a.selectedFusedPlasma, a.expectedDifficulty⟩ := by
  unfold buildQuote at h
  simp only [bind_ok, rejectIf_ok, not_lt] at h
  obtain ⟨fusionPrice, hfusion, workPrice, hwork, a, ha, _, hdifficulty, h⟩ := h
  obtain rfl := Except.ok.inj h
  exact ⟨rfl, rfl, rfl, rfl, hfusion, hwork, a, ha, hdifficulty, rfl⟩

/-- A quote is built again as it is. -/
theorem rebuild_ok (h : buildQuote source policy subject runtime = .ok quote) :
    rebuildReceipt (receiptCodec.encode quote) = .ok quote := by
  obtain ⟨hsource, hpolicy, hsubject, hruntime, -⟩ := buildQuote_ok h
  unfold rebuildReceipt
  simp only [bind_ok, rejectIf_ok, Codec.decode_encode_self, Except.ok.injEq]
  refine ⟨quote, rfl, quote, ?_, (), ?_, rfl⟩
  · rw [hsource, hpolicy, hsubject, hruntime]
    exact h
  · simp

/-- What is observed `n` momentums after a quote, at these prices. -/
structure AtStep (quote : Receipt) (now : Instant) (n fusionPrice workPrice : Nat) : Prop where
  height : now.frontier.height.1 = quote.sourceCompatibility.1.frontier.height.1 + n
  hash : now.frontier.hash = quote.sourceCompatibility.1.frontier.hash ↔ n = 0
  basePlasma : now.rpcObservation.basePlasma = quote.sourceCompatibility.1.rpcObservation.basePlasma
  availablePlasma : quote.selected.fusedPlasma.1 ≤ now.rpcObservation.availablePlasma.1
  fusionPrice : now.frontier.nextFusionPrice.1 = fusionPrice
  workPrice : now.frontier.nextWorkPrice.1 = workPrice

/-- What a selection is asked with: a quote under a policy and digests that are its own, and an
observation. -/
structure Asks (top : String → Value) (quote : Receipt) (current : Compatibility) : Prop where
  receipt : rebuildReceipt (top "quote") = .ok quote
  policy : snapshotPolicy.decode (top "policy") = .ok quote.policy
  subjectDigest : digest.decode (top "subjectDigest") = .ok quote.subjectDigest
  runtimeContextDigest : digest.decode (top "runtimeContextDigest") = .ok quote.runtimeContextDigest
  compatibility : snapshotCompatibility.decode (top "compatibility") = .ok current

variable {top : String → Value} {current : Compatibility} {fusion work : Nat → Nat}

/-- The selection of a quote is taken where the prices have moved within its policy. -/
theorem checkSelection_ok (h : buildQuote source policy subject runtime = .ok quote)
    (hn : n ≤ policy.maxMomentumAdvances.1)
    (hfusion : fusion 0 = source.1.frontier.nextFusionPrice.1)
    (hwork : work 0 = source.1.frontier.nextWorkPrice.1)
    (hmoves : ∀ k < n, Moves policy (fusion k) (fusion (k + 1))
      ∧ Moves policy (work k) (work (k + 1)))
    (hasks : Asks top quote current) (hnow : AtStep quote current.1 n (fusion n) (work n)) :
    checkSelection top none = .ok quote.selected := by
  obtain ⟨hsource, hpolicy, -, -, hboundFusion, hboundWork, a, ha, -, hselected⟩ := buildQuote_ok h
  obtain ⟨hcheckFusion, hleFusion⟩ :=
    checkPrice_ok hn hboundFusion hfusion hnow.fusionPrice.symm fun k hk => (hmoves k hk).1
  obtain ⟨hcheckWork, hleWork⟩ :=
    checkPrice_ok hn hboundWork hwork hnow.workPrice.symm fun k hk => (hmoves k hk).2
  have hage : current.1.frontier.height.1 - quote.sourceCompatibility.1.frontier.height.1 = n := by
    rw [hnow.height, Nat.add_sub_cancel_left]
  have hfits : ¬ unfitting quote policy current.1 := by
    simp only [unfitting, hage]
    rintro (hbase | havailable | hheight | hlong | ⟨rfl, hsame⟩ | ⟨hlate,
      hhash⟩ | hfusionPrice | hworkPrice)
    · exact hbase hnow.basePlasma
    · exact absurd hnow.availablePlasma (not_le.mpr havailable)
    · have := hnow.height
      omega
    · omega
    · rcases hsame with hhash | hprice | hprice
      · exact hhash (hnow.hash.mpr rfl)
      · refine hprice (Subtype.ext ?_)
        rw [hnow.fusionPrice, hfusion, hsource]
      · refine hprice (Subtype.ext ?_)
        rw [hnow.workPrice, hwork, hsource]
    · exact absurd (hnow.hash.mp hhash) (Nat.pos_iff_ne_zero.mp hlate)
    · exact absurd hleFusion (not_le.mpr hfusionPrice)
    · exact absurd hleWork (not_le.mpr hworkPrice)
  obtain ⟨b, hb, hle⟩ := amounts_of_le ha (price_pos _) hleFusion hleWork
  unfold checkSelection
  simp only [bind_ok, rejectIf_ok, hasks.receipt, hasks.policy, hasks.subjectDigest,
    hasks.runtimeContextDigest, hasks.compatibility, Except.ok.injEq]
  refine ⟨quote, rfl, quote.policy, rfl, _, rfl, _, rfl,
    (), by simp, current, rfl, (), ?_, (), ?_, (), ?_, b, ?_, (), ?_, rfl⟩
  · rw [hpolicy]
    exact hfits
  · rw [hage, hpolicy, hsource]
    exact hcheckFusion
  · rw [hage, hpolicy, hsource]
    exact hcheckWork
  · rw [hnow.basePlasma, hsource, hselected]
    exact hb
  · rw [hselected]
    exact not_lt.mpr hle

/-- What a quote selects is within its policy. -/
theorem selected_within (h : buildQuote source policy subject runtime = .ok quote) :
    quote.selected.fusedPlasma.1 ≤ policy.maxFusedPlasma.1 ∧ quote.selected.difficulty.1
      ≤ policy.maxDifficulty.1 := by
  obtain ⟨-, -, -, -, -, -, a, ha, hdifficulty, hselected⟩ := buildQuote_ok h
  rw [hselected]
  exact ⟨(selected_le ha).trans (min_le_right _ _), hdifficulty⟩

/-- What a quote selects covers the base plasma at the prices that it bounds. -/
theorem selected_covers (h : buildQuote source policy subject runtime = .ok quote)
    (hn : n ≤ policy.maxMomentumAdvances.1)
    (hfusion : fusion 0 = source.1.frontier.nextFusionPrice.1)
    (hwork : work 0 = source.1.frontier.nextWorkPrice.1)
    (hmoves : ∀ k < n, Moves policy (fusion k) (fusion (k + 1))
      ∧ Moves policy (work k) (work (k + 1)))
    (hnow : AtStep quote current.1 n (fusion n) (work n)) :
    source.1.rpcObservation.basePlasma.1 ≤ quote.selected.fusedPlasma.1 * SCALE / fusion n
      + quote.selected.difficulty.1 / DIFFICULTY * SCALE / work n := by
  obtain ⟨-, -, -, -, hboundFusion, hboundWork, a, ha, -, hselected⟩ := buildQuote_ok h
  have hleFusion := (checkPrice_ok hn hboundFusion hfusion hnow.fusionPrice.symm fun k hk =>
    (hmoves k hk).1).2
  have hleWork := (checkPrice_ok hn hboundWork hwork hnow.workPrice.symm fun k hk =>
    (hmoves k hk).2).2
  rw [hselected, ← hnow.fusionPrice, ← hnow.workPrice]
  exact amounts_cover (by decide) (by decide) ha (price_pos _) (price_pos _) hleFusion hleWork

/-! ### Copies and changes -/

/-- The fields of an object with another value under a key that it has. -/
def replace (fs : List (String × Value)) (key : String) (v : Value) : List (String × Value) :=
  fs.map fun f => if f.1 = key then (key, v) else f

variable {fs gs : List (String × Value)} {key : String} {v old : Value}

theorem keys_replace : (replace fs key v).map Prod.fst = fs.map Prod.fst := by
  rw [replace, List.map_map]
  refine List.map_congr_left fun f _ => ?_
  by_cases hf : f.1 = key
  · simp [hf]
  · simp [hf]

theorem lookup_replace (k : String) : (replace fs key v).lookup k
    = if k = key then (fs.lookup k).map fun _ => v else fs.lookup k := by
  induction fs with
  | nil => simp [replace]
  | cons f fs ih =>
    have hcons : replace (f :: fs) key v = (if f.1 = key then (key, v) else f)
        :: replace fs key v := rfl
    obtain ⟨k', old⟩ := f
    rw [hcons]
    by_cases hk' : k' = key
    · rw [if_pos hk', List.lookup_cons, List.lookup_cons, ih, hk']
      by_cases hk : k = key
      · simp [hk]
      · simp [hk, beq_false_of_ne hk]
    · rw [if_neg hk', List.lookup_cons, List.lookup_cons, ih]
      by_cases hk : k = k'
      · simp [hk, hk']
      · simp [beq_false_of_ne hk]

/-- `record` of an object. -/
theorem record_obj (names : List String) : record (.obj fs) names
    = if (fs.map Prod.fst).Perm names then .ok fun k => (fs.lookup k).getD .undefined
    else .error rejected := by
  unfold record
  by_cases h : (fs.map Prod.fst).Perm names
  · rw [if_pos h, show fields names (.obj fs) = some (⟨fs.map Prod.fst, h⟩, _) from dif_pos h]
    rfl
  · rw [if_neg h, show fields names (.obj fs) = none from dif_neg h]
    rfl

/-- A check reads a quote only to build it again. -/
theorem checkSelection_congr {other : String → Value} {supplied : Option Value}
    (hquote : rebuildReceipt (other "quote") = rebuildReceipt (top "quote"))
    (hrest : ∀ k ≠ "quote", other k = top k) :
    checkSelection other supplied = checkSelection top supplied := by
  unfold checkSelection
  rw [hquote, hrest "policy" (by decide), hrest "subjectDigest" (by decide),
    hrest "runtimeContextDigest" (by decide), hrest "compatibility" (by decide)]

theorem checkSelection_asks {supplied : Option Value} {selection : Selection}
    (h : checkSelection top supplied = .ok selection) :
    ∃ quote current, Asks top quote current := by
  unfold checkSelection at h
  simp only [bind_ok, rejectIf_ok, not_or, not_not] at h
  obtain ⟨quote, hquote, policy, hpolicy, subject, hsubject, runtime, hruntime, _, ⟨rfl, rfl, rfl⟩,
    current, hcurrent, -⟩ := h
  exact ⟨quote, current, hquote, hpolicy, hsubject, hruntime, hcurrent⟩

/-- The two ways to use a quote. -/
inductive Use (call : List Value → Except Failure Selection) : Prop
  | select (h : call = selectDynamicPlasmaPricePolicyFields)
  | validate (h : call = validateDynamicPlasmaPricePolicySelection)

/-- What is under the key of the quote after it was replaced. -/
theorem top_replace (hquote : fs.lookup "quote" = some old) (k : String) :
    ((replace fs "quote" v).lookup k).getD .undefined = if k = "quote" then v
    else (fs.lookup k).getD .undefined := by
  rw [lookup_replace]
  by_cases hk : k = "quote"
  · rw [if_pos hk, if_pos hk, hk, hquote]
    rfl
  · rw [if_neg hk, if_neg hk]

/-- A use of a quote is a check of what an object holds. -/
theorem Use.checks {call : List Value → Except Failure Selection} (h : Use call) :
    ∃ (names : List String)
    (supplied : (String → Value) → Option Value),
    (∀ fs, call [.obj fs] = if (fs.map Prod.fst).Perm names then
        checkSelection (fun k => (fs.lookup k).getD .undefined)
          (supplied fun k => (fs.lookup k).getD .undefined)
      else .error rejected)
      ∧ ∀ top other : String → Value, (∀ k ≠ "quote", other k = top k) → supplied other
        = supplied top := by
  rcases h with rfl | rfl
  · refine ⟨SELECT_FIELDS, fun _ => none, fun fs => ?_, fun _ _ _ => rfl⟩
    simp only [selectDynamicPlasmaPricePolicyFields, record_obj]
    split <;> rfl
  · refine ⟨VALIDATE_FIELDS, fun top => some (top "selection"), fun fs => ?_, fun top other h => ?_⟩
    · simp only [validateDynamicPlasmaPricePolicySelection, record_obj]
      split <;> rfl
    · simp only [h "selection" (by decide)]

/-- A value that is built again as the quote is as good as it, wherever it is used. -/
theorem Use.copied {call : List Value → Except Failure Selection} (h : Use call)
    (hquote : fs.lookup "quote" = some old) (hcopy : rebuildReceipt v = rebuildReceipt old) :
    call [.obj (replace fs "quote" v)] = call [.obj fs] := by
  obtain ⟨names, supplied, hcall, hsupplied⟩ := h.checks
  have hrest : ∀ k ≠ "quote", ((replace fs "quote" v).lookup k).getD .undefined
      = (fs.lookup k).getD .undefined :=
    fun k hk => by rw [top_replace hquote, if_neg hk]
  rw [hcall, hcall, keys_replace, hsupplied _ _ hrest]
  split
  · refine checkSelection_congr ?_ hrest
    rw [top_replace hquote, if_pos rfl, hquote, Option.getD_some, hcopy]
  · rfl

/-- The fields of a receipt. -/
theorem receipt_members (quote : Receipt) :
    receiptCodec.encode quote
      = .obj [("quoteVersion", .num 1), ("scope", .str "DECLARED_UNSIGNED_PRICE_BOUND"),
        ("chainAuthentication", .str "NOT_ESTABLISHED"),
    ("frontierContinuity", .str "HEIGHT_WINDOW_ONLY_NO_ANCESTRY_PROOF"),
    ("afterSigningAction", .str "NONE"),
    ("policy", snapshotPolicy.encode quote.policy),
    ("sourceCompatibility", snapshotCompatibility.encode quote.sourceCompatibility),
    ("boundPrices", boundPricesCodec.encode quote.boundPrices),
    ("selected", snapshotSelection.encode quote.selected),
    ("pricingMode", Plasma.pricingMode.encode quote.pricingMode),
    ("subjectDigest", digest.encode quote.subjectDigest),
    ("runtimeContextDigest", digest.encode quote.runtimeContextDigest)] := rfl

theorem receipt_source (h : receiptCodec.encode quote = .obj gs) :
    gs.lookup "sourceCompatibility"
      = some (snapshotCompatibility.encode quote.sourceCompatibility) := by
  rw [receipt_members] at h
  obtain rfl := Value.obj.inj h
  simp [List.lookup_cons]

/-- A receipt with another source is one with another value under that key. -/
theorem receipt_replaced (h : receiptCodec.encode quote = .obj gs) (other : Compatibility) :
    receiptCodec.encode { quote with sourceCompatibility := other }
      = .obj (replace gs "sourceCompatibility" (snapshotCompatibility.encode other)) := by
  rw [receipt_members] at h ⊢
  obtain rfl := Value.obj.inj h
  simp [replace]

/-- A receipt with something else in the place of one of its fields, other than its source, is not
built again under the same policy and digests. -/
theorem rebuild_replaced (h : buildQuote source policy subject runtime = .ok quote)
    (hgs : receiptCodec.encode quote = .obj gs) (hkey : key ≠ "sourceCompatibility")
    (hold : gs.lookup key = some old) {r : Receipt}
    (hr : rebuildReceipt (.obj (replace gs key v)) = .ok r) (hpolicy : r.policy = quote.policy)
    (hsubject : r.subjectDigest = quote.subjectDigest)
    (hruntime : r.runtimeContextDigest = quote.runtimeContextDigest) :
    Value.Same v old := by
  obtain ⟨hquoteSource, hquotePolicy, hquoteSubject, hquoteRuntime, -⟩ := buildQuote_ok h
  unfold rebuildReceipt at hr
  simp only [bind_ok, rejectIf_ok, not_or, not_not] at hr
  obtain ⟨read, hread, built, hbuilt, _, ⟨hbounds, hselected, hmode⟩, hr⟩ := hr
  obtain rfl := Except.ok.inj hr
  obtain ⟨hsource', hpolicy', hsubject', hruntime', -⟩ := buildQuote_ok hbuilt
  have hsame := receiptCodec.same_of_decode _ _ hread
  have hentries : ∀ k, ∃ hs, receiptCodec.encode read = .obj hs
      ∧ (hs.lookup k).map Value.canonical = ((replace gs key v).lookup k).map Value.canonical :=
        fun k => by
    have hjson := receiptCodec.json_encode read
    cases hencoded : receiptCodec.encode read with
    | obj hs =>
      rw [hencoded] at hjson hsame
      cases hjson with
      | obj hnodup _ => exact ⟨hs, rfl, lookup_of_same hnodup hsame k⟩
    | _ => cases hencoded
  have hsource : read.sourceCompatibility = quote.sourceCompatibility := by
    obtain ⟨hs, hencoded, hlookup⟩ := hentries "sourceCompatibility"
    rw [receipt_source hencoded, lookup_replace, if_neg (Ne.symm hkey),
      receipt_source hgs] at hlookup
    exact snapshotCompatibility.encode_injective (Option.some.inj hlookup)
  have hbuiltQuote : built = quote := by
    have hagain := hbuilt
    rw [hsource, ← hpolicy', ← hsubject', ← hruntime', hpolicy, hsubject, hruntime,
      hquoteSource, hquotePolicy, hquoteSubject, hquoteRuntime, h] at hagain
    exact (Except.ok.inj hagain).symm
  have hreadQuote : read = quote := by
    subst hbuiltQuote
    obtain ⟨p, c, b, sel, m, sd, rd⟩ := read
    obtain ⟨p', c', b', sel', m', sd', rd'⟩ := built
    simp only at hbounds hselected hmode hsource' hpolicy' hsubject' hruntime'
    rw [hbounds, hselected, hmode, hsource', hpolicy', hsubject', hruntime']
  obtain ⟨hs, hencoded, hlookup⟩ := hentries key
  rw [hreadQuote, hgs] at hencoded
  obtain rfl := Value.obj.inj hencoded
  rw [lookup_replace, if_pos rfl, hold] at hlookup
  exact (Option.some.inj hlookup).symm

/-- Where a quote is taken, one with something else in a field other than its source is not. -/
theorem Use.changed {call : List Value → Except Failure Selection}
    {selection selection' : Selection} (huse : Use call)
    (h : buildQuote source policy subject runtime = .ok quote)
    (hgs : receiptCodec.encode quote = .obj gs) (hquote : fs.lookup "quote" = some (.obj gs))
    (htaken : call [.obj fs] = .ok selection) (hold : gs.lookup key = some old)
    (hkey : key ≠ "sourceCompatibility")
    (hchanged : call [.obj (replace fs "quote" (.obj (replace gs key v)))] = .ok selection') :
    Value.Same v old := by
  obtain ⟨names, supplied, hcall, -⟩ := huse.checks
  rw [hcall] at htaken hchanged
  split at htaken
  · split at hchanged
    · obtain ⟨genuine, _, hasks⟩ := checkSelection_asks htaken
      obtain ⟨changed, _, hasks'⟩ := checkSelection_asks hchanged
      have hgenuine : genuine = quote := by
        have hreceipt := hasks.receipt
        rw [hquote, Option.getD_some, ← hgs, rebuild_ok h] at hreceipt
        exact (Except.ok.inj hreceipt).symm
      subst hgenuine
      have hrest : ∀ k ≠ "quote",
          ((replace fs "quote" (.obj (replace gs key v))).lookup k).getD .undefined
          = (fs.lookup k).getD .undefined := fun k hk => by rw [top_replace hquote, if_neg hk]
      have hpolicy := hasks'.policy
      have hsubject := hasks'.subjectDigest
      have hruntime := hasks'.runtimeContextDigest
      have hreceipt := hasks'.receipt
      rw [hrest "policy" (by decide), hasks.policy] at hpolicy
      rw [hrest "subjectDigest" (by decide), hasks.subjectDigest] at hsubject
      rw [hrest "runtimeContextDigest" (by decide), hasks.runtimeContextDigest] at hruntime
      rw [top_replace hquote, if_pos rfl] at hreceipt
      exact rebuild_replaced h hgs hkey hold hreceipt (Except.ok.inj hpolicy).symm
        (Except.ok.inj hsubject).symm
        (Except.ok.inj hruntime).symm
    · cases hchanged
  · cases htaken

/-- A quote as it was returned, or as it was written as JSON and read again, also with its keys in
order. -/
def IsCopy (quote : Receipt) (copy : Value) : Prop :=
  copy = receiptCodec.encode quote ∨ parse (stringify (receiptCodec.encode quote)) = some copy
    ∨ parse (canonicalJson (receiptCodec.encode quote)) = some copy

theorem rebuild_copy (h : buildQuote source policy subject runtime = .ok quote)
    (hcopy : IsCopy quote v) :
    rebuildReceipt v = .ok quote := by
  have hjson := receiptCodec.json_encode quote
  have hviews : ∀ w, receiptCodec.decode w = .ok quote → rebuildReceipt w = .ok quote :=
    fun w hw => by
    rw [← rebuild_ok h]
    unfold rebuildReceipt
    rw [hw, Codec.decode_encode_self]
  refine hviews v ?_
  rcases hcopy with rfl | hparse | hparse
  · exact Codec.decode_encode_self ..
  · rw [parse_stringify hjson] at hparse
    rw [← Option.some.inj hparse]
    exact Codec.decode_encode_self ..
  · rw [parse_canonicalJson hjson] at hparse
    rw [← Option.some.inj hparse]
    exact Codec.decode_canonical ..

theorem create_ok {arguments : List Value}
    (h : createDynamicPlasmaPricePolicyQuote arguments = .ok quote) :
    ∃ source policy subject runtime, buildQuote source policy subject runtime = .ok quote := by
  unfold createDynamicPlasmaPricePolicyQuote at h
  split at h
  · simp only [bind_ok] at h
    obtain ⟨_, -, source, -, policy, -, subject, -, runtime, -, h⟩ := h
    exact ⟨source, policy, subject, runtime, h⟩
  · cases h

/-- What a selection with nothing but a fitting observation asks for is what the quote selected. -/
theorem select_ok (hkeys : (fs.map Prod.fst).Perm SELECT_FIELDS)
    (h : checkSelection (fun k => (fs.lookup k).getD .undefined) none = .ok quote.selected) :
    selectDynamicPlasmaPricePolicyFields [.obj fs] = .ok quote.selected := by
  simp only [selectDynamicPlasmaPricePolicyFields, record_obj, if_pos hkeys]
  exact h

namespace Sample

def digestOf : Digest := ⟨"sha256:" ++ String.ofList (List.replicate 64 'a'), by decide⟩

/-- An observation with this much plasma available. -/
def observed (available : Safe) : Instant where
  frontier := ⟨⟨7, by decide⟩, ⟨String.ofList (List.replicate 64 'a'), by decide⟩,
    ⟨1000, by decide⟩, ⟨1000, by decide⟩⟩
  rpcObservation := ⟨available, ⟨21000, by decide⟩, ⟨0, by decide⟩⟩
  selectedFusedPlasma := ⟨21000, by decide⟩
  requiredDifficulty := ⟨0, by decide⟩
  powRequired := false
  pricingMode := .FUSION_ONLY
  sdk105BasePlasmaUnderpricingDetected := false

def plain : Compatibility := ⟨observed ⟨30000, by decide⟩, by decide⟩

/-- The same observation with more plasma available. -/
def richer : Compatibility := ⟨observed ⟨30001, by decide⟩, by decide⟩

def rules : Policy := ⟨⟨10, by decide⟩, ⟨1, by decide⟩, ⟨100000, by decide⟩, ⟨100000, by decide⟩⟩

/-- The quote from an observation. -/
def quoteOf (origin : Compatibility) : Receipt :=
  ⟨rules, origin, ⟨⟨1100, by decide⟩, ⟨1100, by decide⟩⟩, ⟨⟨23100, by decide⟩, ⟨0, by decide⟩⟩,
    .FUSION_ONLY, digestOf, digestOf⟩

theorem bounded_once : bounded 110 1 ⟨1000, by decide⟩ = .ok ⟨1100, by decide⟩ := by
  simp only [bounded, bind_ok, safeResult_ok]
  exact ⟨⟨1100, by decide⟩, by decide, rfl⟩

/-- With this much plasma the quote is to fuse what the base plasma costs at most. -/
theorem built_of {origin : Compatibility} {available : Safe}
    (horigin : origin.1 = observed available) (h : 23100 ≤ min available.1 100000) :
    buildQuote origin rules digestOf digestOf = .ok (quoteOf origin) := by
  unfold buildQuote
  simp only [bind_ok, rejectIf_ok, not_lt, Except.ok.injEq, horigin]
  refine ⟨⟨1100, by decide⟩, bounded_once, ⟨1100, by decide⟩, bounded_once,
    ⟨⟨23100, by decide⟩, ⟨23100, by decide⟩, ⟨0, by decide⟩, .FUSION_ONLY⟩, ?_, (), by decide, rfl⟩
  unfold calculateDynamicPlasmaPriceAmounts
  simp only [bind_ok, safeResult_ok]
  have hrequired : 23100 = ceilDivide (21000 * 1100) SCALE := by decide
  have henough : 23100 ≤ min (observed available).rpcObservation.availablePlasma.1
      rules.maxFusedPlasma.1 := h
  refine ⟨⟨23100, by decide⟩, hrequired, ?_⟩
  rw [if_pos henough]
  simp only [bind_ok, safeResult_ok, Except.ok.injEq]
  exact ⟨⟨0, by decide⟩, rfl, rfl⟩

theorem built : buildQuote plain rules digestOf digestOf = .ok (quoteOf plain) :=
  built_of rfl (by decide)

theorem built_richer : buildQuote richer rules digestOf digestOf = .ok (quoteOf richer) :=
  built_of rfl (by decide)

def input : List (String × Value) :=
  [("compatibility", snapshotCompatibility.encode plain), ("policy", snapshotPolicy.encode rules),
    ("subjectDigest", digest.encode digestOf), ("runtimeContextDigest", digest.encode digestOf)]

theorem created : createDynamicPlasmaPricePolicyQuote [.obj input] = .ok (quoteOf plain) := by
  have hkeys : (input.map Prod.fst).Perm CREATE_FIELDS := .refl _
  simp only [createDynamicPlasmaPricePolicyQuote, record_obj, if_pos hkeys, bind_ok,
    Except.ok.injEq]
  exact ⟨_, rfl, plain, Codec.decode_encode_self .., rules, Codec.decode_encode_self .., digestOf,
    Codec.decode_encode_self .., digestOf, Codec.decode_encode_self .., built⟩

/-- What is observed one momentum after `plain`, at higher prices. -/
def later : Compatibility where
  val :=
    { observed ⟨23100, by decide⟩ with
      frontier := ⟨⟨8, by decide⟩, ⟨String.ofList (List.replicate 64 'b'), by decide⟩,
        ⟨1075, by decide⟩, ⟨1100, by decide⟩⟩
      selectedFusedPlasma := ⟨22575, by decide⟩
      sdk105BasePlasmaUnderpricingDetected := true }
  property := by decide

/-- A selection with the quote of one observation where another is current. -/
def asked (origin current : Compatibility) : List (String × Value) :=
  [("quote", receiptCodec.encode (quoteOf origin)),
    ("compatibility", snapshotCompatibility.encode current),
    ("policy", snapshotPolicy.encode rules), ("subjectDigest", digest.encode digestOf),
    ("runtimeContextDigest", digest.encode digestOf)]

theorem asks {origin : Compatibility}
    (h : buildQuote origin rules digestOf digestOf = .ok (quoteOf origin))
    (current : Compatibility) : Asks (fun k => ((asked origin current).lookup k).getD .undefined)
    (quoteOf origin) current :=
  ⟨rebuild_ok h, Codec.decode_encode_self .., Codec.decode_encode_self ..,
    Codec.decode_encode_self .., Codec.decode_encode_self ..⟩

theorem atStep : AtStep (quoteOf plain) plain.1 0 1000 1000 :=
  ⟨rfl, ⟨fun _ => rfl, fun _ => rfl⟩, rfl, by decide, rfl, rfl⟩

theorem atStep_richer : AtStep (quoteOf richer) plain.1 0 1000 1000 :=
  ⟨rfl, ⟨fun _ => rfl, fun _ => rfl⟩, rfl, by decide, rfl, rfl⟩

theorem atStep_later : AtStep (quoteOf plain) later.1 1 1075 1100 :=
  ⟨rfl, by decide, rfl, by decide, rfl, rfl⟩

/-- Either quote is taken as long as nothing has happened. -/
theorem selected_of {origin : Compatibility}
    (h : buildQuote origin rules digestOf digestOf = .ok (quoteOf origin))
    (hfusion : 1000 = origin.1.frontier.nextFusionPrice.1)
    (hwork : 1000 = origin.1.frontier.nextWorkPrice.1)
    (hnow : AtStep (quoteOf origin) plain.1 0 1000 1000) :
    selectDynamicPlasmaPricePolicyFields [.obj (asked origin plain)]
      = .ok (quoteOf origin).selected := by
  let constant : Nat → Nat := fun _ => 1000
  have hmoves : ∀ k < 0, Moves rules (constant k) (constant (k + 1))
      ∧ Moves rules (constant k) (constant (k + 1)) :=
    fun k hk => absurd hk (Nat.not_lt_zero k)
  exact select_ok (.refl _)
    (checkSelection_ok h (Nat.zero_le _) hfusion hwork hmoves (asks h plain) hnow)

end Sample

/-- A receipt may be given another source that leads to the same bounds and the same selection. -/
theorem source_replaced : ¬ ∀ (input : Value) (quote : Receipt) (fs gs : List (String × Value))
    (selection : Selection) (key : String) (v old : Value),
    createDynamicPlasmaPricePolicyQuote [input] = .ok quote →
      receiptCodec.encode quote = .obj gs → fs.lookup "quote" = some (.obj gs) →
      selectDynamicPlasmaPricePolicyFields [.obj fs] = .ok selection → gs.lookup key = some old →
      ¬ Value.Same v old →
      ∀ selection', selectDynamicPlasmaPricePolicyFields
      [.obj (replace fs "quote" (.obj (replace gs key v)))]
        ≠ .ok selection' := by
  intro h
  obtain ⟨gs, hgs⟩ : ∃ gs, receiptCodec.encode (Sample.quoteOf Sample.plain) = .obj gs :=
    ⟨_, receipt_members _⟩
  have hdiffers : ¬ Value.Same (snapshotCompatibility.encode Sample.richer)
      (snapshotCompatibility.encode Sample.plain) :=
    fun hsame => by
      have heq := congrArg (fun c : Compatibility => c.1.rpcObservation.availablePlasma.1)
        (snapshotCompatibility.encode_injective hsame)
      exact absurd heq (by decide)
  have hquote : (Sample.asked Sample.plain Sample.plain).lookup "quote" = some (.obj gs) := by
    rw [← hgs]
    simp [Sample.asked]
  have hasked : Sample.asked Sample.richer Sample.plain
      = replace (Sample.asked Sample.plain Sample.plain) "quote"
      (.obj (replace gs "sourceCompatibility" (snapshotCompatibility.encode Sample.richer))) := by
    rw [← receipt_replaced hgs Sample.richer]
    simp [Sample.asked, replace]
    rfl
  have htaken := Sample.selected_of Sample.built rfl rfl Sample.atStep
  have htaken' := Sample.selected_of Sample.built_richer rfl rfl Sample.atStep_richer
  rw [hasked] at htaken'
  exact absurd htaken' (h _ _ _ gs _ "sourceCompatibility" _ _ Sample.created hgs hquote htaken
    (receipt_source hgs) hdiffers _)

/-- A quote suffices for every observation to which its policy leads: whatever is asked with it,
there it selects what was quoted, which is within the limits of the policy and covers the base
plasma. It is used like any copy of it, and nothing in it but its source can be changed. -/
theorem quote_sufficient {input : Value} {quote : Receipt}
    (hquote : createDynamicPlasmaPricePolicyQuote [input] = .ok quote) :
    (∀ (n : Nat) (fusion work : Nat → Nat) (fs : List (String × Value)) (current : Compatibility),
        n ≤ quote.policy.maxMomentumAdvances.1
        → fusion 0 = quote.sourceCompatibility.1.frontier.nextFusionPrice.1
        → work 0 = quote.sourceCompatibility.1.frontier.nextWorkPrice.1
        → (∀ k < n, Moves quote.policy (fusion k) (fusion (k + 1))
          ∧ Moves quote.policy (work k) (work (k + 1)))
        → (fs.map Prod.fst).Perm SELECT_FIELDS →
        Asks (fun k => (fs.lookup k).getD .undefined) quote current
        → AtStep quote current.1 n (fusion n) (work n)
        → selectDynamicPlasmaPricePolicyFields [.obj fs] = .ok quote.selected
          ∧ quote.sourceCompatibility.1.rpcObservation.basePlasma.1
            ≤ quote.selected.fusedPlasma.1 * SCALE / fusion n
            + quote.selected.difficulty.1 / DIFFICULTY * SCALE / work n)
      ∧ quote.selected.fusedPlasma.1 ≤ quote.policy.maxFusedPlasma.1
      ∧ quote.selected.difficulty.1 ≤ quote.policy.maxDifficulty.1
      ∧ (∀ copy, IsCopy quote copy → rebuildReceipt copy = .ok quote
        ∧ ∀ call fs, Use call → fs.lookup "quote" = some (receiptCodec.encode quote) →
          call [.obj (replace fs "quote" copy)] = call [.obj fs])
      ∧ ∀ call fs gs selection key v old, Use call → receiptCodec.encode quote = .obj gs →
          fs.lookup "quote" = some (.obj gs) → call [.obj fs] = .ok selection →
          gs.lookup key = some old →
          key ≠ "sourceCompatibility" → ¬ Value.Same v old → ∀ selection',
          call [.obj (replace fs "quote" (.obj (replace gs key v)))] ≠ .ok selection' := by
  obtain ⟨source, policy, subject, runtime, h⟩ := create_ok hquote
  obtain ⟨rfl, rfl, rfl, rfl, -⟩ := buildQuote_ok h
  obtain ⟨hfused, hdifficulty⟩ := selected_within h
  refine ⟨fun n fusion work fs current hn hfusion hwork hmoves hkeys hasks hnow => ⟨?_, ?_⟩,
    hfused, hdifficulty, fun copy hcopy => ⟨rebuild_copy h hcopy, fun call fs huse hfs => ?_⟩,
    fun call fs gs selection key v old huse hgs hfs hselection hold hkey hdiffers selection' hchanged => ?_⟩
  · exact select_ok hkeys (checkSelection_ok h hn hfusion hwork hmoves hasks hnow)
  · exact selected_covers h hn hfusion hwork hmoves hnow
  · exact huse.copied hfs ((rebuild_copy h hcopy).trans (rebuild_ok h).symm)
  · exact hdiffers (huse.changed h hgs hfs hselection hold hkey hchanged)

/-- A quote at a price of 1000 suffices one momentum later, when the prices have gone up by three
quarters of what its policy allows and by all of it; and so does any copy of it. -/
theorem quote_sufficient_sample :
    selectDynamicPlasmaPricePolicyFields [.obj (Sample.asked Sample.plain Sample.later)]
        = .ok (Sample.quoteOf Sample.plain).selected
      ∧ Sample.plain.1.rpcObservation.basePlasma.1
        ≤ (Sample.quoteOf Sample.plain).selected.fusedPlasma.1 * SCALE / 1075
          + (Sample.quoteOf Sample.plain).selected.difficulty.1 / DIFFICULTY * SCALE / 1100
      ∧ (Sample.quoteOf Sample.plain).selected.fusedPlasma.1 ≤ Sample.rules.maxFusedPlasma.1
      ∧ ∀ copy, IsCopy (Sample.quoteOf Sample.plain) copy →
        selectDynamicPlasmaPricePolicyFields
        [.obj (replace (Sample.asked Sample.plain Sample.later) "quote" copy)]
          = .ok (Sample.quoteOf Sample.plain).selected := by
  obtain ⟨hsuffices, hfused, -, hcopies, -⟩ := quote_sufficient Sample.created
  have hmoves : ∀ k < 1, Moves Sample.rules (1000 + 75 * k) (1000 + 75 * (k + 1))
      ∧ Moves Sample.rules (1000 + 100 * k) (1000 + 100 * (k + 1)) := by
    intro k hk
    obtain rfl : k = 0 := by omega
    exact ⟨⟨by decide, by decide⟩, by decide, by decide⟩
  obtain ⟨hselected, hcovers⟩ := hsuffices 1 (fun k => 1000 + 75 * k) (fun k => 1000 + 100 * k)
    (Sample.asked Sample.plain Sample.later) Sample.later (by decide) rfl rfl hmoves (.refl _)
    (Sample.asks Sample.built Sample.later) Sample.atStep_later
  refine ⟨hselected, hcovers, hfused, fun copy hcopy => ?_⟩
  rw [(hcopies copy hcopy).2 _ _ (.select rfl) rfl, hselected]

end Plasma
end ZenonX402
