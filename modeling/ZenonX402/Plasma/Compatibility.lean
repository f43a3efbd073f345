/-
# What an observed frontier is compatible with

`dynamic-plasma-compatibility.js` classifies one observation, and
`dynamic-plasma-required-fused-quote.js` validates the quote of an observation with four
fields. Both check what is declared against the amounts of `calculateDynamicPlasmaPriceAmounts`,
each under a guard of its own, and so does `snapshotCompatibility`, which reads what the
classifier answers. They agree: an observation is active exactly where its quote is the
one of the amounts (`classifyObserved_active`, `classifyObserved_of`), the validation adds to
that no more than the total (`validate_ok`), and what is active is read back (`active_read`).

Key definitions: `classifyDynamicPlasmaCompatibility`, `validateDynamicPlasmaRequiredFusedQuote`,
`Quoted`.
Key theorems: `classifyObserved_active`, `classifyObserved_of`, `validate_ok`, `active_read`.
-/
import ZenonX402.Plasma.Sufficiency

namespace ZenonX402
namespace Plasma

open Js

/-! ### Classifications -/

inductive Classification
  | DP_ACTIVE
  | PRE_DP
  | UNAVAILABLE
  | MISBOUND_OR_INCOHERENT
  deriving DecidableEq, Repr

def Classification.name : Classification → String
  | DP_ACTIVE => "DP_ACTIVE"
  | PRE_DP => "PRE_DP"
  | UNAVAILABLE => "UNAVAILABLE"
  | MISBOUND_OR_INCOHERENT => "MISBOUND_OR_INCOHERENT"

inductive Reason
  | NONE
  | PRE_DYNAMIC_PLASMA
  | CHAIN_PROFILE_MISMATCH
  | DATA_UNAVAILABLE
  | FRONTIER_MISMATCH
  | FRONTIER_PRICE_INCOHERENT
  | UNSUPPORTED_FRONTIER
  | RPC_QUOTE_INCOHERENT
  deriving DecidableEq, Repr

def Reason.name : Reason → String
  | NONE => "NONE"
  | PRE_DYNAMIC_PLASMA => "PRE_DYNAMIC_PLASMA"
  | CHAIN_PROFILE_MISMATCH => "CHAIN_PROFILE_MISMATCH"
  | DATA_UNAVAILABLE => "DATA_UNAVAILABLE"
  | FRONTIER_MISMATCH => "FRONTIER_MISMATCH"
  | FRONTIER_PRICE_INCOHERENT => "FRONTIER_PRICE_INCOHERENT"
  | UNSUPPORTED_FRONTIER => "UNSUPPORTED_FRONTIER"
  | RPC_QUOTE_INCOHERENT => "RPC_QUOTE_INCOHERENT"

inductive ProfileMatch
  | MATCH
  | MISMATCH
  | UNAVAILABLE
  deriving DecidableEq, Repr

def ProfileMatch.name : ProfileMatch → String
  | MATCH => "MATCH"
  | MISMATCH => "MISMATCH"
  | UNAVAILABLE => "UNAVAILABLE"

/-! ### The input of the classifier -/

/-- The code of its one error. -/
inductive Incompatible
  | dynamic_plasma_compatibility_input_rejected
  deriving DecidableEq, Repr

/-- `reject`. -/
abbrev incompatible : Incompatible := .dynamic_plasma_compatibility_input_rejected

/-- A frontier of any version and with any prices. -/
structure ObservedFrontier where
  height : Positive
  hash : Hash
  version : Safe
  nextFusionPrice : Safe
  nextWorkPrice : Safe
  deriving DecidableEq

def observedFrontierCodec : Codec Failure ObservedFrontier :=
  (object (.cons "height" positiveNumber
    (.cons "hash" Plasma.hash
    (.cons "version" safeNumber
    (.cons "nextFusionPrice" safeNumber
    (.cons "nextWorkPrice" safeNumber .nil))))) rejected).equiv
    { toFun := fun (a, b, c, d, e, _) => ⟨a, b, c, d, e⟩
      invFun := fun f => (f.height, f.hash, f.version, f.nextFusionPrice, f.nextWorkPrice, ())
      left_inv := fun _ => rfl
      right_inv := fun _ => rfl }

def snapshotNullableFrontier : Codec Failure (Option ObservedFrontier) :=
  observedFrontierCodec.nullable fun _ h => by cases h

def snapshotNullableRpcObservation : Codec Failure (Option RpcObservation) :=
  snapshotRpc.nullable fun _ h => by cases h

def profileMatchCodec : Codec Failure ProfileMatch :=
  .enum [.MATCH, .MISMATCH, .UNAVAILABLE] ProfileMatch.name rejected
  (fun m => by cases m <;> decide)
    (fun a b => by cases a <;> cases b <;> decide)

def snapshotProfileMatch : Codec Failure (ProfileMatch × Unit) :=
  object (.cons "classification" profileMatchCodec .nil) rejected

structure CompatibilityInput where
  chainProfileMatch : ProfileMatch
  beforeFrontier : Option ObservedFrontier
  rpcObservation : Option RpcObservation
  afterFrontier : Option ObservedFrontier

/-- Its checks and those of the fields all end in `reject`. -/
def compatibilityInput : Codec Incompatible CompatibilityInput :=
  ((object (.cons "chainProfileMatch" snapshotProfileMatch
    (.cons "beforeFrontier" snapshotNullableFrontier
    (.cons "rpcObservation" snapshotNullableRpcObservation
    (.cons "afterFrontier" snapshotNullableFrontier .nil)))) rejected).equiv
    { toFun := fun ((a, _), b, c, d, _) => ⟨a, b, c, d⟩
      invFun := fun i => ((i.chainProfileMatch, ()), i.beforeFrontier, i.rpcObservation,
        i.afterFrontier, ())
      left_inv := fun _ => rfl
      right_inv := fun _ => rfl }).withError incompatible

/-! ### The classifier -/

structure CheckedQuote where
  frontier : ObservedFrontier
  rpcObservation : RpcObservation
  selectedFusedPlasma : Safe
  requiredDifficulty : Safe
  powRequired : Bool
  pricingMode : PricingMode
  sdk105BasePlasmaUnderpricingDetected : Bool

def CheckedQuote.value (q : CheckedQuote) : Value :=
  .obj [("frontier", observedFrontierCodec.encode q.frontier),
    ("rpcObservation", snapshotRpc.encode q.rpcObservation),
    ("selectedFusedPlasma", .num q.selectedFusedPlasma.1),
    ("requiredDifficulty", .num q.requiredDifficulty.1),
    ("powRequired", .bool q.powRequired), ("pricingMode", .str q.pricingMode.name),
    ("sdk105BasePlasmaUnderpricingDetected", .bool q.sdk105BasePlasmaUnderpricingDetected)]

/-- What the classifier answers. -/
structure Classified where
  classification : Classification
  reason : Reason
  chainProfileGuard : ProfileMatch
  quote : Option CheckedQuote

def Classified.value (c : Classified) : Value :=
  .obj [("classification", .str c.classification.name), ("reason", .str c.reason.name),
    ("scope", .str "OBSERVED_FRONTIER_ONLY"), ("chainProfileGuard", .str c.chainProfileGuard.name),
    ("chainAuthentication", .str "NOT_ESTABLISHED"),
    ("afterSigningAction", .str "NONE"), ("quote", (c.quote.map CheckedQuote.value).getD .null)]

def sameFrontier (left right : ObservedFrontier) : Bool :=
  decide (left.height = right.height) && decide (left.hash = right.hash)
    && decide (left.version = right.version)
    && decide (left.nextFusionPrice = right.nextFusionPrice)
    && decide (left.nextWorkPrice = right.nextWorkPrice)

/-- The amounts at the prices of a frontier. -/
def ObservedFrontier.amounts (frontier : ObservedFrontier) (basePlasma availablePlasma : Nat) :
    Except Failure Amounts :=
  calculateDynamicPlasmaPriceAmounts basePlasma availablePlasma frontier.nextFusionPrice.1
  frontier.nextWorkPrice.1 SCALE
    DIFFICULTY

def checkedQuote (frontier : ObservedFrontier) (rpcObservation : RpcObservation) :
    Except Incompatible (Option CheckedQuote) := do
  let amounts ← failWith
      (frontier.amounts rpcObservation.basePlasma.1 rpcObservation.availablePlasma.1) incompatible
  let requiredDifficulty := amounts.expectedDifficulty
  let selected := amounts.selectedFusedPlasma
  if requiredDifficulty ≠ rpcObservation.requiredDifficulty then .ok none
  else .ok (some ⟨frontier, rpcObservation, selected, requiredDifficulty,
    decide (requiredDifficulty.1 ≠ 0), amounts.pricingMode,
    decide (requiredDifficulty.1 = 0 ∧ rpcObservation.basePlasma.1 < selected.1)⟩)

/-- The classification of an observation that is there, under a profile that matches. -/
def classifyObserved (before : ObservedFrontier) (rpcObservation : RpcObservation)
    (after : ObservedFrontier) :
    Except Incompatible Classified :=
  if sameFrontier before after = false
    then .ok ⟨.MISBOUND_OR_INCOHERENT, .FRONTIER_MISMATCH, .MATCH, none⟩
  else if before.version.1 = 1 then
    if before.nextFusionPrice.1 ≠ 0 ∨ before.nextWorkPrice.1 ≠ 0 then
      .ok ⟨.MISBOUND_OR_INCOHERENT, .FRONTIER_PRICE_INCOHERENT, .MATCH, none⟩
    else .ok ⟨.PRE_DP, .PRE_DYNAMIC_PLASMA, .MATCH, none⟩
  else if before.version.1 ≠ 2
    then .ok ⟨.MISBOUND_OR_INCOHERENT, .UNSUPPORTED_FRONTIER, .MATCH, none⟩
  else if before.nextFusionPrice.1 < MINIMUM_PRICE ∨ before.nextWorkPrice.1 < MINIMUM_PRICE then
    .ok ⟨.MISBOUND_OR_INCOHERENT, .FRONTIER_PRICE_INCOHERENT, .MATCH, none⟩
  else do
    match ← checkedQuote before rpcObservation with
    | none => .ok ⟨.MISBOUND_OR_INCOHERENT, .RPC_QUOTE_INCOHERENT, .MATCH, none⟩
    | some quote => .ok ⟨.DP_ACTIVE, .NONE, .MATCH, some quote⟩

def classifyDynamicPlasmaCompatibility (input : Value) : Except Incompatible Classified := do
  let top ← compatibilityInput.decode input
  match top.chainProfileMatch, top.beforeFrontier, top.rpcObservation, top.afterFrontier with
  | .MISMATCH, _, _, _ => .ok ⟨.MISBOUND_OR_INCOHERENT, .CHAIN_PROFILE_MISMATCH, .MISMATCH, none⟩
  | .MATCH, some before, some rpcObservation, some after =>
      classifyObserved before rpcObservation after
  | chainProfileMatch, _, _, _ => .ok ⟨.UNAVAILABLE, .DATA_UNAVAILABLE, chainProfileMatch, none⟩

/-! ### The quote with a total -/

/-- What follows `dynamic_plasma_required_fused_quote_` in the code of an error, which is its
message as well. -/
inductive QuoteFailure
  | invalid_data
  | unsupported_contract_version
  | unsupported_frontier_version
  | invalid_frontier
  | unsafe_integer
  | arithmetic_bound
  | inconsistent_total
  | inconsistent_difficulty
  deriving DecidableEq, Repr

structure RequiredFusedQuote where
  height : Safe
  hash : Hash
  nextFusionPrice : Safe
  nextWorkPrice : Safe
  availablePlasma : Safe
  basePlasma : Safe
  requiredDifficulty : Safe
  requiredFusedPlasma : Safe
  /-- `declaredRecommendation`. -/
  amounts : Amounts

/-- `record`, of this file. -/
def quoteRecord (names : List String) (value : Value) : Except QuoteFailure (String → Value) :=
  failWith (record value names) .invalid_data

def safe (value : Value) : Except QuoteFailure Safe :=
  failWith (safeNumber.decode value) .unsafe_integer

def INPUT : List String := ["requiredFusedQuoteVersion", "frontier", "rpcObservation"]

def FRONTIER : List String := ["height", "hash", "version", "nextFusionPrice", "nextWorkPrice"]

def RPC : List String :=
  ["availablePlasma", "basePlasma", "requiredDifficulty", "requiredFusedPlasma"]

def validateDynamicPlasmaRequiredFusedQuote (arguments : List Value) :
    Except QuoteFailure RequiredFusedQuote :=
  match arguments with
  | [input] => do
    let top ← quoteRecord INPUT input
    rejectIf ((top "requiredFusedQuoteVersion").strictEq (.num 1) = false)
      .unsupported_contract_version
    let f ← quoteRecord FRONTIER (top "frontier")
    let r ← quoteRecord RPC (top "rpcObservation")
    let height ← safe (f "height")
    let version ← safe (f "version")
    let nextFusionPrice ← safe (f "nextFusionPrice")
    let nextWorkPrice ← safe (f "nextWorkPrice")
    rejectIf (version.1 ≠ 2) .unsupported_frontier_version
    let hash ← failWith (Plasma.hash.decode (f "hash")) .invalid_frontier
    rejectIf (nextFusionPrice.1 < 1000 ∨ nextWorkPrice.1 < 1000) .invalid_frontier
    let availablePlasma ← safe (r "availablePlasma")
    let basePlasma ← safe (r "basePlasma")
    let requiredDifficulty ← safe (r "requiredDifficulty")
    let requiredFusedPlasma ← safe (r "requiredFusedPlasma")
    let amounts ← failWith
        (calculateDynamicPlasmaPriceAmounts basePlasma.1 availablePlasma.1 nextFusionPrice.1
          nextWorkPrice.1
      1000 1500) .arithmetic_bound
    rejectIf (requiredFusedPlasma ≠ amounts.requiredFusedPlasma) .inconsistent_total
    rejectIf (requiredDifficulty ≠ amounts.expectedDifficulty) .inconsistent_difficulty
    .ok ⟨height, hash, nextFusionPrice, nextWorkPrice, availablePlasma, basePlasma,
      requiredDifficulty, requiredFusedPlasma, amounts⟩
  | _ => .error .invalid_data

/-! ### What is active -/

variable {before after : ObservedFrontier} {rpcObservation : RpcObservation} {c : Classified}
    {input : Value}

theorem sameFrontier_iff {left right : ObservedFrontier} :
    sameFrontier left right = true ↔ left = right := by
  unfold sameFrontier
  simp only [Bool.and_eq_true, decide_eq_true_eq]
  constructor
  · rintro ⟨⟨⟨⟨hheight, hhash⟩, hversion⟩, hfusion⟩, hwork⟩
    cases left
    cases right
    simp only at hheight hhash hversion hfusion hwork
    rw [hheight, hhash, hversion, hfusion, hwork]
  · rintro rfl
    exact ⟨⟨⟨⟨rfl, rfl⟩, rfl⟩, rfl⟩, rfl⟩

/-- The declared difficulty of an observation is that of the amounts at the prices of an active
frontier. -/
structure Quoted (frontier : ObservedFrontier) (rpcObservation : RpcObservation) (a : Amounts) :
    Prop where
  version : frontier.version.1 = 2
  fusion : MINIMUM_PRICE ≤ frontier.nextFusionPrice.1
  work : MINIMUM_PRICE ≤ frontier.nextWorkPrice.1
  amounts : frontier.amounts rpcObservation.basePlasma.1 rpcObservation.availablePlasma.1 = .ok a
  difficulty : a.expectedDifficulty = rpcObservation.requiredDifficulty

theorem classifyObserved_active (h : classifyObserved before rpcObservation after = .ok c)
    (hactive : c.classification = .DP_ACTIVE) :
    before = after ∧ ∃ a quote, Quoted before rpcObservation a
      ∧ c = ⟨.DP_ACTIVE, .NONE, .MATCH, some quote⟩
      ∧ checkedQuote before rpcObservation = .ok (some quote) := by
  unfold classifyObserved at h
  split_ifs at h with hsame hone hzero htwo hprices
  · obtain rfl := Except.ok.inj h
    cases hactive
  · obtain rfl := Except.ok.inj h
    cases hactive
  · obtain rfl := Except.ok.inj h
    cases hactive
  · obtain rfl := Except.ok.inj h
    cases hactive
  · obtain rfl := Except.ok.inj h
    cases hactive
  · obtain ⟨quote, hquote, h⟩ := bind_ok.mp h
    cases quote with
    | none =>
      obtain rfl := Except.ok.inj h
      cases hactive
    | some quote =>
      obtain rfl := Except.ok.inj h
      have hchecked := hquote
      unfold checkedQuote at hquote
      obtain ⟨a, ha, hquote⟩ := bind_ok.mp hquote
      dsimp only at hquote
      split_ifs at hquote with hdifficulty
      · cases hquote
      · rw [not_or, not_lt, not_lt] at hprices
        exact ⟨sameFrontier_iff.mp (by simpa using hsame), a, quote,
          ⟨not_not.mp htwo, hprices.1, hprices.2, failWith_ok.mp ha, not_not.mp hdifficulty⟩,
          rfl, hchecked⟩

/-- The quote of the classifier where the difficulty is that of the amounts. -/
def quoteOf (frontier : ObservedFrontier) (rpcObservation : RpcObservation) (a : Amounts) :
    CheckedQuote :=
  ⟨frontier, rpcObservation, a.selectedFusedPlasma, a.expectedDifficulty,
    decide (a.expectedDifficulty.1 ≠ 0), a.pricingMode,
    decide (a.expectedDifficulty.1 = 0 ∧ rpcObservation.basePlasma.1 < a.selectedFusedPlasma.1)⟩

theorem checkedQuote_of {a : Amounts} (h : Quoted before rpcObservation a) :
    checkedQuote before rpcObservation = .ok (some (quoteOf before rpcObservation a)) := by
  unfold checkedQuote
  refine bind_ok.mpr ⟨a, failWith_ok.mpr h.amounts, ?_⟩
  dsimp only
  rw [if_neg (not_not.mpr h.difficulty)]
  rfl

theorem classifyObserved_of {a : Amounts} (h : Quoted before rpcObservation a) :
    classifyObserved before rpcObservation before
      = .ok ⟨.DP_ACTIVE, .NONE, .MATCH, some (quoteOf before rpcObservation a)⟩ := by
  have hsame : sameFrontier before before = true := sameFrontier_iff.mpr rfl
  have hprices : ¬ (before.nextFusionPrice.1 < MINIMUM_PRICE ∨ before.nextWorkPrice.1
      < MINIMUM_PRICE) := by
    rw [not_or, not_lt, not_lt]
    exact ⟨h.fusion, h.work⟩
  unfold classifyObserved
  rw [if_neg (by rw [hsame]; decide), if_neg (by rw [h.version]; decide),
    if_neg (not_not.mpr h.version), if_neg hprices]
  exact bind_ok.mpr ⟨_, checkedQuote_of h, rfl⟩

/-- The classifier reads what it is handed as it was written. -/
theorem classify_encode : classifyDynamicPlasmaCompatibility (compatibilityInput.encode
    ⟨.MATCH, some before, some rpcObservation, some after⟩)
      = classifyObserved before rpcObservation after := by
  unfold classifyDynamicPlasmaCompatibility
  rw [Codec.decode_encode_self]
  rfl

/-! ### What is active is read back -/

/-- What is quoted at an active frontier, as the price policy has it. -/
def instantOf (h : ∃ a, Quoted before rpcObservation a) (a : Amounts) : Instant :=
  have hpriced : MINIMUM_PRICE ≤ before.nextFusionPrice.1 ∧ MINIMUM_PRICE
    ≤ before.nextWorkPrice.1 :=
    h.elim fun _ hq => ⟨hq.fusion, hq.work⟩
  ⟨⟨before.height, before.hash, ⟨before.nextFusionPrice.1, hpriced.1, before.nextFusionPrice.2.2⟩,
      ⟨before.nextWorkPrice.1, hpriced.2, before.nextWorkPrice.2.2⟩⟩, rpcObservation,
      a.selectedFusedPlasma, a.expectedDifficulty,
    decide (a.expectedDifficulty.1 ≠ 0), a.pricingMode,
    decide (a.expectedDifficulty.1 = 0 ∧ rpcObservation.basePlasma.1 < a.selectedFusedPlasma.1)⟩

theorem priced_of {a : Amounts} (h : Quoted before rpcObservation a) :
    (instantOf ⟨a, h⟩ a).priced = true := by
  have hamounts := h.amounts
  unfold ObservedFrontier.amounts at hamounts
  unfold Instant.priced instantOf
  simp only [hamounts, h.difficulty, decide_true, Bool.and_true, beq_self_eq_true]

/-- What the classifier answers of an active observation is what `snapshotCompatibility` writes. -/
theorem value_of {a : Amounts} (h : Quoted before rpcObservation a) :
    (Classified.mk .DP_ACTIVE .NONE .MATCH (some (quoteOf before rpcObservation a))).value
      = snapshotCompatibility.encode ⟨instantOf ⟨a, h⟩ a, priced_of h⟩ := by
  have hversion : before.version = ⟨2, by decide⟩ := Subtype.ext h.version
  obtain ⟨height, hash, version, fusion, work⟩ := before
  simp only at hversion
  subst hversion
  rfl

/-- **Whatever the classifier calls active is read by the price policy.** -/
theorem active_read (h : classifyDynamicPlasmaCompatibility input = .ok c)
    (hactive : c.classification = .DP_ACTIVE) :
    ∃ compatibility, snapshotCompatibility.decode c.value = .ok compatibility := by
  unfold classifyDynamicPlasmaCompatibility at h
  obtain ⟨top, -, h⟩ := bind_ok.mp h
  split at h
  · obtain rfl := Except.ok.inj h
    cases hactive
  · rename_i before rpcObservation after
    obtain ⟨-, a, quote, hquoted, rfl, hchecked⟩ := classifyObserved_active h hactive
    rw [checkedQuote_of hquoted] at hchecked
    obtain rfl := Option.some.inj (Except.ok.inj hchecked)
    exact ⟨_, by rw [value_of hquoted]; exact Codec.decode_encode_self ..⟩
  · obtain rfl := Except.ok.inj h
    cases hactive

/-! ### What is validated -/

/-- The input of the validation, as it is written. -/
def quoteInput (frontier : ObservedFrontier) (rpcObservation : Value) : Value :=
  .obj [("requiredFusedQuoteVersion", .num 1), ("frontier", observedFrontierCodec.encode frontier),
    ("rpcObservation", rpcObservation)]

/-- An observation with four fields, as it is written. -/
def fourFields (rpcObservation : RpcObservation) (requiredFusedPlasma : Safe) : Value :=
  .obj [("availablePlasma", .num rpcObservation.availablePlasma.1),
    ("basePlasma", .num rpcObservation.basePlasma.1),
    ("requiredDifficulty", .num rpcObservation.requiredDifficulty.1),
    ("requiredFusedPlasma", .num requiredFusedPlasma.1)]

theorem safe_num (n : Safe) : safe (.num n.1) = .ok n := by
  unfold safe
  rw [failWith_ok]
  exact safeNumber.decode_encode_self n

theorem quoteRecord_obj {names : List String} {fs : List (String × Value)}
    (h : (fs.map Prod.fst).Perm names) :
    quoteRecord names (.obj fs) = .ok fun k => (fs.lookup k).getD .undefined := by
  unfold quoteRecord
  rw [failWith_ok, record_obj, if_pos h]

/-- An observation is validated exactly if it is quoted and its total is that of the amounts. -/
theorem validate_ok {frontier : ObservedFrontier} {total : Safe} :
    (∃ q, validateDynamicPlasmaRequiredFusedQuote
      [quoteInput frontier (fourFields rpcObservation total)] = .ok q)
      ↔ ∃ a, Quoted frontier rpcObservation a ∧ total = a.requiredFusedPlasma := by
  obtain ⟨top, htop, hone, hfrontier, hrpc⟩ : ∃ top,
      quoteRecord INPUT (quoteInput frontier (fourFields rpcObservation total)) = .ok top
      ∧ top "requiredFusedQuoteVersion" = .num 1 ∧ top "frontier"
      = observedFrontierCodec.encode frontier
      ∧ top "rpcObservation" = fourFields rpcObservation total :=
    ⟨_, quoteRecord_obj (.refl _), rfl, rfl, rfl⟩
  obtain ⟨f, hf, hheight, hhash, hversion, hfusion, hwork⟩ : ∃ f,
      quoteRecord FRONTIER (observedFrontierCodec.encode frontier) = .ok f
      ∧ f "height" = .num (frontier.height.1 : Nat) ∧ f "hash" = .str frontier.hash.1 ∧ f "version"
      = .num frontier.version.1
      ∧ f "nextFusionPrice" = .num frontier.nextFusionPrice.1 ∧ f "nextWorkPrice"
      = .num frontier.nextWorkPrice.1 :=
    ⟨_, quoteRecord_obj (.refl _), rfl, rfl, rfl, rfl, rfl⟩
  obtain ⟨r, hr, havailable, hbase, hdifficulty, htotal⟩ : ∃ r,
      quoteRecord RPC (fourFields rpcObservation total) = .ok r
      ∧ r "availablePlasma" = .num rpcObservation.availablePlasma.1 ∧ r "basePlasma"
      = .num (rpcObservation.basePlasma.1 : Nat)
      ∧ r "requiredDifficulty" = .num rpcObservation.requiredDifficulty.1 ∧ r "requiredFusedPlasma"
      = .num total.1 :=
    ⟨_, quoteRecord_obj (.refl _), rfl, rfl, rfl, rfl⟩
  have hsafeHeight := safe_num ⟨frontier.height.1, Nat.zero_le _, frontier.height.2.2⟩
  have hsafeBase := safe_num ⟨rpcObservation.basePlasma.1, Nat.zero_le _,
    rpcObservation.basePlasma.2.2⟩
  have hreadHash : ∀ hash, Plasma.hash.decode (.str frontier.hash.1) = .ok hash ↔ frontier.hash
      = hash := fun hash => by
    rw [show Plasma.hash.decode (.str frontier.hash.1)
      = .ok frontier.hash from Plasma.hash.decode_encode_self frontier.hash, Except.ok.injEq]
  have hversionOne : ¬ (Value.strictEq (.num 1) (.num 1) = false) := by decide
  simp only [validateDynamicPlasmaRequiredFusedQuote, bind_ok, htop, hone, hfrontier, hrpc, hf, hr,
    hheight, hhash, hversion, hfusion, hwork, havailable, hbase, hdifficulty, htotal, hsafeHeight,
    hsafeBase, hreadHash, safe_num, rejectIf_ok, failWith_ok,
    Except.ok.injEq, exists_eq_left', exists_and_left, not_or, not_lt, not_not, ne_eq]
  constructor
  · rintro ⟨-, htwo, ⟨hleFusion, hleWork⟩, -, -, -, -, a, ha, htotal, hdifficulty, -⟩
    exact ⟨a, ⟨htwo, hleFusion, hleWork, ha, hdifficulty.symm⟩, htotal⟩
  · rintro ⟨a, hquoted, htotal⟩
    exact ⟨by decide, hquoted.version, ⟨hquoted.fusion,
      hquoted.work⟩, _, (), (), (), a, hquoted.amounts, htotal,
      hquoted.difficulty.symm, (), (), rfl⟩

end Plasma
end ZenonX402
