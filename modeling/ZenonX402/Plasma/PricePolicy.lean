/-
# Quotes under a price policy

`dynamic-plasma-price-policy.js`: a quote plans what a block will need for its base
plasma however the two prices change within a policy, and a selection takes what was
planned when a later observation is within the policy. A quote is checked by being
built again from what it says it was built from.

The input is rejected with one error, so the order of the checks shows nowhere. The
sizes are natural numbers: what the source checks to be no less than 0 is
(`effective_lt` for the one difference it takes of them).

Key definitions: `calculateDynamicPlasmaPriceAmounts`, `Instant.priced`, `Receipt`, `boundedPrice`,
`buildQuote`, `rebuildReceipt`, `checkSelection`.
-/
import ZenonX402.Lib.Formats
import ZenonX402.Lib.Loop
import ZenonX402.Lib.Record

namespace ZenonX402
namespace Plasma

open Js

/-- The code of the one error. -/
inductive Failure
  | dynamic_plasma_price_policy_input_rejected
  deriving DecidableEq, Repr

/-- `reject`. -/
abbrev rejected : Failure := .dynamic_plasma_price_policy_input_rejected

def MAX_SAFE : Nat := 9007199254740991

def SCALE : Nat := 1000

def DIFFICULTY : Nat := 1500

def MINIMUM_PRICE : Nat := 1000

/-! ### Primitive values -/

/-- A number from `least` to `most`. -/
abbrev Within (least most : Nat) := {n : Nat // least ≤ n ∧ n ≤ most}

theorem within_of {n : Int} {least most : Nat} (h : 0 ≤ n ∧ least ≤ n.toNat ∧ n.toNat ≤ most) :
    least ≤ n.toNat ∧ n.toNat ≤ most := h.2

theorem json_within {least most : Nat} (h : most ≤ MAX_SAFE) (n : Within least most) :
    (Value.num n.1).Json :=
  .num (by have := n.2.2; unfold MAX_SAFE at h; omega)

/-- `safeNumber`, with the bounds that are checked next: −0 is no such number. -/
def within (least most : Nat) (h : most ≤ MAX_SAFE := by decide) :
    Codec Failure (Within least most) where
  decode
    | .num n => if hn : 0 ≤ n ∧ least ≤ n.toNat ∧ n.toNat ≤ most then .ok ⟨n.toNat, within_of hn⟩
        else .error rejected
    | _ => .error rejected
  encode n := .num n.1
  decode_encode sorted n := by
    have hn : (0 : Int) ≤ n.1 ∧ least ≤ (n.1 : Int).toNat ∧ (n.1 : Int).toNat ≤ most :=
      ⟨Int.natCast_nonneg _, n.2⟩
    cases sorted <;> exact dif_pos hn
  same_of_decode v n hv := by
    cases v <;> simp only [reduceCtorEq] at hv
    split at hv
    · rename_i hn
      obtain rfl := Except.ok.inj hv
      rw [Int.toNat_of_nonneg hn.1]
      exact Value.Same.refl _
    · cases hv
  json_encode n := json_within h n

abbrev Safe := Within 0 MAX_SAFE

abbrev Positive := Within 1 MAX_SAFE

abbrev Price := Within MINIMUM_PRICE MAX_SAFE

def safeNumber : Codec Failure Safe := within 0 MAX_SAFE

def positiveNumber : Codec Failure Positive := within 1 MAX_SAFE

def price : Codec Failure Price := within MINIMUM_PRICE MAX_SAFE

def boolean : Codec Failure Bool where
  decode
    | .bool b => .ok b
    | _ => .error rejected
  encode b := .bool b
  decode_encode sorted b := by cases sorted <;> rfl
  same_of_decode v b h := by
    cases v <;> simp only [reduceCtorEq] at h
    obtain rfl := Except.ok.inj h
    exact Value.Same.refl _
  json_encode b := .bool b

def isDigest (s : String) : Bool := Text.prefixed "sha256:" Text.isHexLower 64 s

abbrev Hash := {s : String // Text.isHash s = true}

abbrev Digest := {s : String // isDigest s = true}

def hash : Codec Failure Hash := .text Text.isHash rejected

def digest : Codec Failure Digest := .text isDigest rejected

inductive PricingMode
  | FUSION_ONLY
  | FUSION_AND_POW
  deriving DecidableEq, Repr

def PricingMode.name : PricingMode → String
  | FUSION_ONLY => "FUSION_ONLY"
  | FUSION_AND_POW => "FUSION_AND_POW"

def pricingMode : Codec Failure PricingMode :=
  .enum [.FUSION_ONLY, .FUSION_AND_POW] PricingMode.name rejected (fun m => by cases m <;> decide)
    (fun a b => by cases a <;> cases b <;> decide)

/-! ### Amounts -/

def safeResult (value : Nat) : Except Failure Safe :=
  if h : value ≤ MAX_SAFE then .ok ⟨value, Nat.zero_le _, h⟩ else .error rejected

def ceilDivide (value divisor : Nat) : Nat := (value + divisor - 1) / divisor

structure Amounts where
  requiredFusedPlasma : Safe
  selectedFusedPlasma : Safe
  expectedDifficulty : Safe
  pricingMode : PricingMode

def calculateDynamicPlasmaPriceAmounts
    (basePlasma availablePlasma fusionPrice workPrice scale difficultyPerPlasma : Nat) :
    Except Failure Amounts := do
  let required ← safeResult (ceilDivide (basePlasma * fusionPrice) scale)
  if required.1 ≤ availablePlasma then
    let difficulty ← safeResult 0
    .ok ⟨required, required, difficulty, .FUSION_ONLY⟩
  else
    let effectiveFusedBase := availablePlasma * scale / fusionPrice
    let remainingBase := basePlasma - effectiveFusedBase
    let pricedWork := ceilDivide (remainingBase * workPrice) scale
    let difficulty ← safeResult (pricedWork * difficultyPerPlasma)
    let selected ← safeResult availablePlasma
    .ok ⟨required, selected, difficulty, .FUSION_AND_POW⟩

/-! ### Observations -/

structure Frontier where
  height : Positive
  hash : Hash
  nextFusionPrice : Price
  nextWorkPrice : Price
  deriving DecidableEq

def snapshotFrontier : Codec Failure Frontier :=
  (object (.cons "height" positiveNumber
    (.cons "hash" Plasma.hash
    (.const "version" (.constNum 2 rejected)
    (.cons "nextFusionPrice" price
    (.cons "nextWorkPrice" price .nil))))) rejected).equiv
    { toFun := fun (a, b, c, d, _) => ⟨a, b, c, d⟩
      invFun := fun f => (f.height, f.hash, f.nextFusionPrice, f.nextWorkPrice, ())
      left_inv := fun _ => rfl
      right_inv := fun _ => rfl }

structure RpcObservation where
  availablePlasma : Safe
  basePlasma : Positive
  requiredDifficulty : Safe
  deriving DecidableEq

def snapshotRpc : Codec Failure RpcObservation :=
  (object (.cons "availablePlasma" safeNumber
    (.cons "basePlasma" positiveNumber
    (.cons "requiredDifficulty" safeNumber .nil))) rejected).equiv
    { toFun := fun (a, b, c, _) => ⟨a, b, c⟩
      invFun := fun r => (r.availablePlasma, r.basePlasma, r.requiredDifficulty, ())
      left_inv := fun _ => rfl
      right_inv := fun _ => rfl }

/-- The quote inside an observation. -/
structure Instant where
  frontier : Frontier
  rpcObservation : RpcObservation
  selectedFusedPlasma : Safe
  requiredDifficulty : Safe
  powRequired : Bool
  pricingMode : PricingMode
  sdk105BasePlasmaUnderpricingDetected : Bool
  deriving DecidableEq

def instantCodec : Codec Failure Instant :=
  (object (.cons "frontier" snapshotFrontier
    (.cons "rpcObservation" snapshotRpc
    (.cons "selectedFusedPlasma" safeNumber
    (.cons "requiredDifficulty" safeNumber
    (.cons "powRequired" boolean
    (.cons "pricingMode" Plasma.pricingMode
    (.cons "sdk105BasePlasmaUnderpricingDetected" boolean .nil))))))) rejected).equiv
    { toFun := fun (a, b, c, d, e, f, g, _) => ⟨a, b, c, d, e, f, g⟩
      invFun := fun q => (q.frontier, q.rpcObservation, q.selectedFusedPlasma, q.requiredDifficulty,
        q.powRequired, q.pricingMode, q.sdk105BasePlasmaUnderpricingDetected, ())
      left_inv := fun _ => rfl
      right_inv := fun _ => rfl }

/-- The amounts of an observation are those of its prices. -/
def Instant.priced (q : Instant) : Bool :=
  match calculateDynamicPlasmaPriceAmounts q.rpcObservation.basePlasma.1 q.rpcObservation.availablePlasma.1
    q.frontier.nextFusionPrice.1 q.frontier.nextWorkPrice.1 SCALE DIFFICULTY with
  | .ok amounts =>
    let difficulty := amounts.expectedDifficulty
    let selected := amounts.selectedFusedPlasma
    let underpricing := difficulty.1 = 0 ∧ q.rpcObservation.basePlasma.1 < selected.1
    decide (q.rpcObservation.requiredDifficulty = difficulty)
      && decide (q.requiredDifficulty = difficulty)
      && decide (q.selectedFusedPlasma = selected) && q.powRequired == decide (difficulty.1 ≠ 0)
      && decide (q.pricingMode = amounts.pricingMode)
      && q.sdk105BasePlasmaUnderpricingDetected == decide underpricing
  | .error _ => false

abbrev Compatibility := {q : Instant // q.priced = true}

def snapshotCompatibility : Codec Failure Compatibility :=
  (object (.const "classification" (.constStr "DP_ACTIVE" rejected)
    (.const "reason" (.constStr "NONE" rejected)
    (.const "scope" (.constStr "OBSERVED_FRONTIER_ONLY" rejected)
    (.const "chainProfileGuard" (.constStr "MATCH" rejected)
    (.const "chainAuthentication" (.constStr "NOT_ESTABLISHED" rejected)
    (.const "afterSigningAction" (.constStr "NONE" rejected)
    (.cons "quote" (instantCodec.refine Instant.priced rejected) .nil))))))) rejected).equiv
    { toFun := fun (q, _) => q
      invFun := fun q => (q, ())
      left_inv := fun _ => rfl
      right_inv := fun _ => rfl }

/-! ### Policies and receipts -/

structure Policy where
  maxPriceChangePercent : Within 1 100
  maxMomentumAdvances : Within 0 128
  maxFusedPlasma : Safe
  maxDifficulty : Safe
  deriving DecidableEq

def snapshotPolicy : Codec Failure Policy :=
  (object (.const "policyVersion" (.constNum 1 rejected)
    (.cons "maxPriceChangePercent" (within 1 100)
    (.cons "maxMomentumAdvances" (within 0 128)
    (.cons "maxFusedPlasma" safeNumber
    (.cons "maxDifficulty" safeNumber .nil))))) rejected).equiv
    { toFun := fun (a, b, c, d, _) => ⟨a, b, c, d⟩
      invFun := fun p => (p.maxPriceChangePercent, p.maxMomentumAdvances, p.maxFusedPlasma,
        p.maxDifficulty, ())
      left_inv := fun _ => rfl
      right_inv := fun _ => rfl }

structure BoundPrices where
  fusionPrice : Safe
  workPrice : Safe
  deriving DecidableEq

def boundPricesCodec : Codec Failure BoundPrices :=
  (object (.cons "fusionPrice" safeNumber (.cons "workPrice" safeNumber .nil)) rejected).equiv
    { toFun := fun (a, b, _) => ⟨a, b⟩
      invFun := fun p => (p.fusionPrice, p.workPrice, ())
      left_inv := fun _ => rfl
      right_inv := fun _ => rfl }

structure Selection where
  fusedPlasma : Safe
  difficulty : Safe
  deriving DecidableEq

def snapshotSelection : Codec Failure Selection :=
  (object (.cons "fusedPlasma" safeNumber (.cons "difficulty" safeNumber .nil)) rejected).equiv
    { toFun := fun (a, b, _) => ⟨a, b⟩
      invFun := fun s => (s.fusedPlasma, s.difficulty, ())
      left_inv := fun _ => rfl
      right_inv := fun _ => rfl }

structure Receipt where
  policy : Policy
  sourceCompatibility : Compatibility
  boundPrices : BoundPrices
  selected : Selection
  pricingMode : PricingMode
  subjectDigest : Digest
  runtimeContextDigest : Digest
  deriving DecidableEq

def receiptCodec : Codec Failure Receipt :=
  (object (.const "quoteVersion" (.constNum 1 rejected)
    (.const "scope" (.constStr "DECLARED_UNSIGNED_PRICE_BOUND" rejected)
    (.const "chainAuthentication" (.constStr "NOT_ESTABLISHED" rejected)
    (.const "frontierContinuity" (.constStr "HEIGHT_WINDOW_ONLY_NO_ANCESTRY_PROOF" rejected)
    (.const "afterSigningAction" (.constStr "NONE" rejected)
    (.cons "policy" snapshotPolicy
    (.cons "sourceCompatibility" snapshotCompatibility
    (.cons "boundPrices" boundPricesCodec
    (.cons "selected" snapshotSelection
    (.cons "pricingMode" Plasma.pricingMode
    (.cons "subjectDigest" digest
    (.cons "runtimeContextDigest" digest .nil)))))))))))) rejected).equiv
    { toFun := fun (a, b, c, d, e, f, g, _) => ⟨a, b, c, d, e, f, g⟩
      invFun := fun r => (r.policy, r.sourceCompatibility, r.boundPrices, r.selected, r.pricingMode,
        r.subjectDigest, r.runtimeContextDigest, ())
      left_inv := fun _ => rfl
      right_inv := fun _ => rfl }

/-! ### Bounds -/

/-- A price after one step with a multiplier, rounded down and raised to the least price. -/
def stepped (multiplier price : Nat) : Nat := max (price * multiplier / 100) MINIMUM_PRICE

/-- The price after some steps, each of which is guarded. -/
def bounded (multiplier : Nat) : Nat → Safe → Except Failure Safe
  | 0, price => .ok price
  | step + 1, price => do
    let price ← safeResult (stepped multiplier price.1)
    bounded multiplier step price

def boundedPrice (initial : Safe) (policy : Policy) (advances : Nat) : Except Failure Safe :=
  bounded (100 + policy.maxPriceChangePercent.1) advances initial

def boundedLowerPrice (initial : Safe) (policy : Policy) (advances : Nat) : Except Failure Safe :=
  bounded (100 - policy.maxPriceChangePercent.1) advances initial

/-- A price as a number like any other. -/
def Price.safe (p : Price) : Safe := ⟨p.1, Nat.zero_le _, p.2.2⟩

/-! ### Quotes -/

def buildQuote (sourceCompatibility : Compatibility) (policy : Policy)
    (subjectDigest runtimeContextDigest : Digest) :
    Except Failure Receipt := do
  let instant := sourceCompatibility.1
  let fusionPrice ← boundedPrice instant.frontier.nextFusionPrice.safe policy
      policy.maxMomentumAdvances.1
  let workPrice ← boundedPrice instant.frontier.nextWorkPrice.safe policy
      policy.maxMomentumAdvances.1
  let available := min instant.rpcObservation.availablePlasma.1 policy.maxFusedPlasma.1
  let amounts ← calculateDynamicPlasmaPriceAmounts instant.rpcObservation.basePlasma.1 available
      fusionPrice.1 workPrice.1
    SCALE DIFFICULTY
  rejectIf (policy.maxDifficulty.1 < amounts.expectedDifficulty.1) rejected
  .ok ⟨policy, sourceCompatibility, ⟨fusionPrice, workPrice⟩,
    ⟨amounts.selectedFusedPlasma, amounts.expectedDifficulty⟩, amounts.pricingMode, subjectDigest,
    runtimeContextDigest⟩

def rebuildReceipt (value : Value) : Except Failure Receipt := do
  let r ← receiptCodec.decode value
  let expected ← buildQuote r.sourceCompatibility r.policy r.subjectDigest r.runtimeContextDigest
  rejectIf (r.boundPrices ≠ expected.boundPrices ∨ r.selected ≠ expected.selected
    ∨ r.pricingMode ≠ expected.pricingMode) rejected
  .ok expected

/-- `record`: what is under each of the fields. -/
def record (value : Value) (names : List String) : Except Failure (String → Value) :=
  (orReject (fields names value) rejected).map Prod.snd

def CREATE_FIELDS : List String :=
  ["compatibility", "policy", "subjectDigest", "runtimeContextDigest"]

def SELECT_FIELDS : List String :=
  ["quote", "compatibility", "policy", "subjectDigest", "runtimeContextDigest"]

def VALIDATE_FIELDS : List String := SELECT_FIELDS ++ ["selection"]

def createDynamicPlasmaPricePolicyQuote (arguments : List Value) : Except Failure Receipt :=
  match arguments with
  | [input] => do
    let top ← record input CREATE_FIELDS
    let compatibility ← snapshotCompatibility.decode (top "compatibility")
    let policy ← snapshotPolicy.decode (top "policy")
    let subject ← digest.decode (top "subjectDigest")
    let runtime ← digest.decode (top "runtimeContextDigest")
    buildQuote compatibility policy subject runtime
  | _ => .error rejected

/-- An observation does not follow from that of a quote. -/
def unfitting (quote : Receipt) (policy : Policy) (now : Instant) : Prop :=
  let origin := quote.sourceCompatibility.1
  let age := now.frontier.height.1 - origin.frontier.height.1
  now.rpcObservation.basePlasma ≠ origin.rpcObservation.basePlasma
    ∨ now.rpcObservation.availablePlasma.1 < quote.selected.fusedPlasma.1
    ∨ now.frontier.height.1 < origin.frontier.height.1 ∨ policy.maxMomentumAdvances.1 < age
    ∨ (age = 0 ∧ (now.frontier.hash ≠ origin.frontier.hash
      ∨ now.frontier.nextFusionPrice ≠ origin.frontier.nextFusionPrice
      ∨ now.frontier.nextWorkPrice ≠ origin.frontier.nextWorkPrice))
    ∨ (0 < age ∧ now.frontier.hash = origin.frontier.hash)
    ∨ quote.boundPrices.fusionPrice.1 < now.frontier.nextFusionPrice.1
    ∨ quote.boundPrices.workPrice.1 < now.frontier.nextWorkPrice.1

instance (quote : Receipt) (policy : Policy) (now : Instant) :
    Decidable (unfitting quote policy now) :=
  inferInstanceAs (Decidable (_ ∨ _))

/-- A current price fits the growth and the shrinkage of the advances that there were. -/
def checkPrice (origin now : Price) (policy : Policy) (advances : Nat) : Except Failure Unit := do
  let upper ← boundedPrice origin.safe policy advances
  rejectIf (upper.1 < now.1) rejected
  let lower ← boundedLowerPrice origin.safe policy advances
  rejectIf (now.1 < lower.1) rejected

/-- `checkSelection`; the selection that is supplied, if one is to be validated. -/
def checkSelection (top : String → Value) (supplied : Option Value) : Except Failure Selection := do
  let quote ← rebuildReceipt (top "quote")
  let policy ← snapshotPolicy.decode (top "policy")
  let subject ← digest.decode (top "subjectDigest")
  let runtime ← digest.decode (top "runtimeContextDigest")
  rejectIf (policy ≠ quote.policy ∨ subject ≠ quote.subjectDigest
    ∨ runtime ≠ quote.runtimeContextDigest) rejected
  let current ← snapshotCompatibility.decode (top "compatibility")
  let origin := quote.sourceCompatibility.1
  let now := current.1
  rejectIf (unfitting quote policy now) rejected
  let observedAdvances := now.frontier.height.1 - origin.frontier.height.1
  checkPrice origin.frontier.nextFusionPrice now.frontier.nextFusionPrice policy observedAdvances
  checkPrice origin.frontier.nextWorkPrice now.frontier.nextWorkPrice policy observedAdvances
  let required ← calculateDynamicPlasmaPriceAmounts now.rpcObservation.basePlasma.1
      quote.selected.fusedPlasma.1
    now.frontier.nextFusionPrice.1 now.frontier.nextWorkPrice.1 SCALE DIFFICULTY
  rejectIf (quote.selected.difficulty.1 < required.expectedDifficulty.1) rejected
  match supplied with
  | none => .ok quote.selected
  | some value => do
    let selection ← snapshotSelection.decode value
    rejectIf (selection ≠ quote.selected) rejected
    .ok quote.selected

def selectDynamicPlasmaPricePolicyFields (arguments : List Value) : Except Failure Selection :=
  match arguments with
  | [input] => do
    let top ← record input SELECT_FIELDS
    checkSelection top none
  | _ => .error rejected

def validateDynamicPlasmaPricePolicySelection (arguments : List Value) : Except Failure Selection :=
  match arguments with
  | [input] => do
    let top ← record input VALIDATE_FIELDS
    checkSelection top (some (top "selection"))
  | _ => .error rejected

end Plasma
end ZenonX402
