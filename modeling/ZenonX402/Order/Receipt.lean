/-
# The funding receipts of an order

`service-purchase-order-funding-cas-contract.js`: what a receipt of an order's
funding is, and which receipt may follow which. A receipt is retained, then
verified one candidate at a time, and every attempt is counted before it is
made. The owner of the receipts reads the same frame by rules of its own
(`state`); what it reads is a receipt to the contract too (`receipt_of_state`),
although the contract knows no pins but those of the checkpoint it finds inside.

Key definitions: `Receipt`, `receipt`, `receiptTransition`, `fundingContract`, `state`.
Key theorems: `state_ok`, `receipt_of_state`, `receiptTransition_of_accepted`.
-/
import ZenonX402.Lib.Guard
import ZenonX402.Order.Purchase

namespace ZenonX402
namespace Order

open Js

/-! ### Frames -/

inductive Phase
  | RETAINED
  | VERIFYING
  | REJECTED
  | VERIFIED
  deriving DecidableEq, Repr

namespace Phase

def all : List Phase := [RETAINED, VERIFYING, REJECTED, VERIFIED]

def name : Phase → String
  | RETAINED => "RETAINED"
  | VERIFYING => "VERIFYING"
  | REJECTED => "REJECTED"
  | VERIFIED => "VERIFIED"

end Phase

def phaseCodec : Codec Failure Phase :=
  .enum Phase.all Phase.name .INVALID_INPUT (fun p => by cases p <;> decide)
  (fun a b => by cases a <;> cases b <;> decide)

/-- The attempts to verify a funding, at most. -/
def isAttemptLimit (n : Int) : Bool := decide (1 ≤ n ∧ n ≤ 32)

abbrev AttemptLimit := {n : Int // n.natAbs ≤ 9007199254740991 ∧ isAttemptLimit n = true}

def countCodec : Codec Failure Count := .integer isCount .INVALID_INPUT

/-- Whose receipt it is, and of which payment. -/
structure ReceiptBinding where
  orderId : Id
  paymentScope : Hash
  paymentRecordJson : String
  paymentRecordDigest : Hash
  maximumVerificationAttempts : AttemptLimit
  deriving DecidableEq

structure Receipt where
  binding : ReceiptBinding
  attempts : Count
  phase : Phase
  candidateJson : Option String
  candidateDigest : Option String
  verifiedRecordJson : Option String
  sourceSettlementId : Option String
  verificationObservedAtMs : Option Count
  deriving DecidableEq

def receiptCodec : Codec Failure Receipt :=
  (object (.const "version" (.constNum 1 .INVALID_INPUT)
    (.const "profile" (.constStr "zenon-x402.order-funding.v1" .INVALID_INPUT)
    (.cons "orderId" (idCodec .INVALID_INPUT)
    (.cons "paymentScope" (hashCodec .INVALID_INPUT)
    (.cons "paymentRecordJson" (.string .INVALID_INPUT)
    (.cons "paymentRecordDigest" (hashCodec .INVALID_INPUT)
    (.cons "maximumVerificationAttempts" (.integer isAttemptLimit .INVALID_INPUT)
    (.cons "attempts" countCodec
    (.cons "phase" phaseCodec
    (.cons "candidateJson" (optionalText .INVALID_INPUT)
    (.cons "candidateDigest" (optionalText .INVALID_INPUT)
    (.cons "verifiedRecordJson" (optionalText .INVALID_INPUT)
    (.cons "sourceSettlementId" (optionalText .INVALID_INPUT)
    (.cons "verificationObservedAtMs" (countCodec.nullable fun _ => nofun)
      .nil)))))))))))))) Failure.INVALID_INPUT).equiv
    { toFun := fun (a, b, c, d, e, f, g, h, i, j, k, l, _) => ⟨⟨a, b, c, d, e⟩, f, g, h, i, j, k, l⟩
      invFun := fun r => (r.binding.orderId, r.binding.paymentScope, r.binding.paymentRecordJson,
        r.binding.paymentRecordDigest, r.binding.maximumVerificationAttempts, r.attempts, r.phase,
        r.candidateJson,
        r.candidateDigest, r.verifiedRecordJson, r.sourceSettlementId,
        r.verificationObservedAtMs, ())
      left_inv := fun _ => rfl
      right_inv := fun _ => rfl }

/-- The text of a receipt. -/
def Receipt.text (r : Receipt) : String := stringify (receiptCodec.encode r)

theorem Receipt.text_inj {a b : Receipt} (h : a.text = b.text) : a = b := by
  refine receiptCodec.encode_injective ?_
  rw [stringify_inj (receiptCodec.json_encode a) (receiptCodec.json_encode b) h]
  exact Value.Same.refl _

variable (w : Wire)

/-- `candidate`. -/
def isCandidate (raw : String) : Bool := isText 16384 raw && w.isExact raw && match parse raw with
  | some v => match fields ["evidenceVersion", "artifact"] v with
    | some (order, get) => decide (order = Js.Order.given ["evidenceVersion", "artifact"])
        && (get "evidenceVersion").strictEq (.num 1) && match get "artifact" with
          | .obj _ => true
          | _ => false
    | none => false
  | none => false

def digestOfCandidate (raw : String) : String :=
  (digest w "zenon-x402.order-funding.v1:candidate" raw).1

/-- A receipt that is retained has no attempts and no candidate; any other has both. -/
def Receipt.Attempted (r : Receipt) : Prop :=
  if r.phase = .RETAINED then r.attempts.1 = 0 ∧ r.candidateJson = none ∧ r.candidateDigest = none
  else 1 ≤ r.attempts.1 ∧ ∃ raw ∈ r.candidateJson, isCandidate w raw = true ∧ r.candidateDigest
    = some (digestOfCandidate w raw)

instance (r : Receipt) : Decidable (r.Attempted w) := by
  unfold Receipt.Attempted
  exact inferInstanceAs (Decidable (ite _ _ _))

variable {w}

/-- What a payment is verified against. -/
def OrderPayment.verifierContext (p : OrderPayment w) : VerifierContext :=
  ⟨p.fundingContextJson, p.checkpoint.pins.binding.1.paymentHash, p.terms.holder.1,
    p.issue.resourceUrl⟩

def OrderPayment.binding (p : OrderPayment w) (maximumVerificationAttempts : AttemptLimit) :
    ReceiptBinding :=
  ⟨p.terms.orderId, p.issue.paymentScope, p.paymentRecordJson, p.paymentRecordDigest,
    maximumVerificationAttempts⟩

variable (w)

/-- `verifiedRecordJson` is the text of a record that goes with the payment, of which the settlement
follows. -/
def isVerifiedRecord (context : VerifierContext) (raw : String) (settlement : Option String) :
    Bool := match parse raw with
  | some v => match w.verified context v with
    | some (record, settlementId) =>
        decide (stringify record = raw ∧ settlement = some settlementId)
    | none => false
  | none => false

/-- A receipt that is verified has the verified record, in a text that passes `accepts`; any other
has none. -/
def Receipt.Settled (context : VerifierContext) (accepts : String → Bool) (r : Receipt) : Prop :=
  if r.phase = .VERIFIED then
    (∃ raw ∈ r.verifiedRecordJson, accepts raw = true
      ∧ isVerifiedRecord w context raw r.sourceSettlementId = true)
      ∧ r.verificationObservedAtMs ≠ none
  else r.verifiedRecordJson = none ∧ r.sourceSettlementId = none ∧ r.verificationObservedAtMs = none

instance (context : VerifierContext) (accepts : String → Bool) (r : Receipt) :
    Decidable (r.Settled w context accepts) := by
  unfold Receipt.Settled
  exact inferInstanceAs (Decidable (ite _ _ _))

/-! ### The contract -/

/-- `receipt`: the pins are those of the checkpoint inside. -/
def receipt (raw : Value) : Except Failure Receipt := do
  let s ← receiptCodec.ofText 524288 .INVALID_INPUT raw
  rejectIf (s.binding.maximumVerificationAttempts.1 < s.attempts.1) .INVALID_INPUT
  let original ← paymentRecordCodec.ofText 131072 .INVALID_INPUT (.str s.binding.paymentRecordJson)
  let pinsJson ← orReject (derivedPins original.paymentCheckpointJson) .INVALID_INPUT
  let termsDigest ← purchasedTermsStorageDigest w original.termsJson
  let p ← capturePurchasedOrderPayment w original.termsJson termsDigest
      original.paymentCheckpointJson pinsJson
    original.fundingContextJson
  rejectIf (p.binding s.binding.maximumVerificationAttempts ≠ s.binding) .RECEIPT_BINDING_CHANGED
  rejectIf (¬ s.Attempted w) .INVALID_INPUT
  rejectIf (¬ s.Settled w p.verifierContext fun _ => true) .INVALID_INPUT
  .ok s

/-- `receiptTransition`, of a receipt in the place of another. -/
def receiptChange (before after : String) (b : Receipt) : Except Failure Unit := do
  let a ← receipt w (.str before)
  rejectIf (a.binding ≠ b.binding) .RECEIPT_BINDING_CHANGED
  rejectIf (before = after) .RECEIPT_CHANGE_REQUIRED
  rejectIf (a.phase = .VERIFIED) .VERIFIED_RECEIPT_CHANGED
  if b.phase = .VERIFYING then do
    rejectIf (a.binding.maximumVerificationAttempts.1 ≤ a.attempts.1 ∨ b.attempts.1
      ≠ a.attempts.1 + 1) .ATTEMPT_REQUIRED
    rejectIf (a.phase = .VERIFYING ∧ a.candidateJson ≠ b.candidateJson) .PENDING_CANDIDATE_CHANGED
  else rejectIf (a.phase ≠ .VERIFYING ∨ ¬ (b.phase = .REJECTED ∨ b.phase = .VERIFIED)
    ∨ a.attempts ≠ b.attempts
    ∨ a.candidateJson ≠ b.candidateJson ∨ a.candidateDigest ≠ b.candidateDigest) .ATTEMPT_REQUIRED

def receiptTransition (before after : Option String) : Except Failure Unit := do
  let after ← orReject after .RECEIPT_REMOVAL
  let b ← receipt w (.str after)
  match before with
  | none => rejectIf (b.phase ≠ .RETAINED) .ORIGINAL_REQUIRED
  | some before => receiptChange w before after b

/-- The record that `compareAndSwap` makes an envelope of. -/
def admitReceipt (raw : Value) (orderId : Id) (paymentScope : Hash) : Except Failure String := do
  let s ← receipt w raw
  rejectIf (s.binding.orderId ≠ orderId ∨ s.binding.paymentScope ≠ paymentScope) .BINDING_CONFLICT
  .ok s.text

/-- The contract of the funding receipts. -/
def fundingContract : Contract where
  kind := .funding
  digest raw := (digest w "zenon-x402:order-funding-cas-receipt:v1" raw).1
  record raw orderId paymentScope := match receipt w (.str raw) with
    | .ok s => decide (s.binding.orderId = orderId ∧ s.binding.paymentScope = paymentScope)
    | .error _ => false
  transition before after _ _ := receiptTransition w before after
  admits := admitReceipt w

/-! ### The owner's reading -/

/-- `json(raw, 16384)`: an object that is written exactly. -/
def isExactRecord (raw : String) : Bool := isText 16384 raw && w.isExact raw && match parse raw with
  | some (.obj _) => true
  | _ => false

variable {w}

/-- `state`, of the owner of a payment. -/
def state (p : OrderPayment w) (maximumVerificationAttempts : AttemptLimit) (raw : Value) :
    Except Failure Receipt := do
  let s ← receiptCodec.ofText 524288 .INVALID_INPUT raw
  rejectIf (s.binding ≠ p.binding maximumVerificationAttempts) .BINDING_CONFLICT
  rejectIf (maximumVerificationAttempts.1 < s.attempts.1) .INVALID_INPUT
  rejectIf (¬ s.Attempted w) .INVALID_INPUT
  rejectIf (¬ s.Settled w p.verifierContext (isExactRecord w)) .INVALID_INPUT
  .ok s

/-! ### What is accepted -/

theorem state_ok {p : OrderPayment w} {maximum : AttemptLimit} {v : Value} {s : Receipt} :
    state p maximum v = .ok s ↔ v = .str s.text ∧ s.text.utf8ByteSize ≤ 524288 ∧ s.binding
      = p.binding maximum
      ∧ s.attempts.1 ≤ maximum.1 ∧ s.Attempted w
      ∧ s.Settled w p.verifierContext (isExactRecord w) := by
  unfold state
  simp only [bind_ok, rejectIf_ok, Codec.ofText_ok, Except.ok.injEq, not_lt, ne_eq, not_not]
  constructor
  · rintro ⟨s', ⟨hv, hsize⟩, _, hbinding, _, hattempts, _, hattempted, _, hsettled, rfl⟩
    exact ⟨hv, hsize, hbinding, hattempts, hattempted, hsettled⟩
  · rintro ⟨hv, hsize, hbinding, hattempts, hattempted, hsettled⟩
    exact ⟨s, ⟨hv, hsize⟩, (), hbinding, (), hattempts, (), hattempted, (), hsettled, rfl⟩

/-- A payment that was captured, under whatever pins. -/
def OrderPayment.Captured (p : OrderPayment w) : Prop :=
  ∃ paymentPinsJson, capturePurchasedOrderPayment w p.termsJson
  p.termsDigest p.paymentCheckpointJson paymentPinsJson p.fundingContextJson = .ok p

theorem OrderPayment.record_text {p : OrderPayment w} (h : p.Captured) :
    paymentRecordCodec.ofText 131072 Failure.INVALID_INPUT (.str p.paymentRecordJson)
      = .ok p.record := by
  obtain ⟨pins, h⟩ := h
  obtain ⟨-, -, -, -, -, -, -, -, -, htext⟩ := captureOrder_ok.mp h
  exact Codec.ofText_ok.mpr ⟨rfl, (isText_iff.mp htext).2⟩

/-- A captured payment is captured again from its record alone. -/
theorem OrderPayment.recapture {p : OrderPayment w} (h : p.Captured) :
    purchasedTermsStorageDigest w p.termsJson = .ok p.termsDigest
      ∧ ∃ pinsJson, derivedPins p.paymentCheckpointJson = some pinsJson
      ∧ capturePurchasedOrderPayment w p.termsJson
        p.termsDigest p.paymentCheckpointJson pinsJson p.fundingContextJson = .ok p := by
  obtain ⟨pins, h⟩ := h
  obtain ⟨-, -, -, -, hterms, -⟩ := captureOrder_ok.mp h
  exact ⟨(captureTerms_ok.mp hterms).2, captureOrder_derived h⟩

theorem Receipt.Settled.mono {context : VerifierContext}
    {accepts accepts' : String → Bool} {r : Receipt} (h : r.Settled w context accepts)
    (himp : ∀ raw, accepts raw = true → accepts' raw = true) :
    r.Settled w context accepts' := by
  unfold Receipt.Settled at h ⊢
  by_cases hphase : r.phase = .VERIFIED
  · rw [if_pos hphase] at h ⊢
    obtain ⟨⟨raw, hraw, haccepts, hrecord⟩, hobserved⟩ := h
    exact ⟨⟨raw, hraw, himp raw haccepts, hrecord⟩, hobserved⟩
  · rw [if_neg hphase] at h ⊢
    exact h

/-- What the owner of a captured payment reads is a receipt to the contract. -/
theorem receipt_of_state {p : OrderPayment w} {maximum : AttemptLimit} {v : Value} {s : Receipt}
    (hp : p.Captured) (h : state p maximum v = .ok s) : receipt w v = .ok s := by
  obtain ⟨rfl, hsize, hbinding, hattempts, hattempted, hsettled⟩ := state_ok.mp h
  obtain ⟨hdigest, pins, hpins, hcapture⟩ := OrderPayment.recapture hp
  have hmaximum : s.binding.maximumVerificationAttempts = maximum := by
    rw [hbinding]
    rfl
  have hrecord : s.binding.paymentRecordJson = p.paymentRecordJson := by
    rw [hbinding]
    rfl
  unfold receipt
  simp only [bind_ok, rejectIf_ok, orReject_ok]
  refine ⟨s, Codec.ofText_ok.mpr ⟨rfl, hsize⟩, (), ?_, p.record, ?_, pins, hpins, _, hdigest, p,
    hcapture, (), ?_, (), not_not.mpr hattempted, (),
    not_not.mpr (hsettled.mono fun _ _ => rfl), rfl⟩
  · rw [hmaximum]
    exact not_lt.mpr hattempts
  · rw [hrecord]
    exact OrderPayment.record_text hp
  · rw [hmaximum, ne_eq, not_not]
    exact hbinding.symm

/-- What follows a receipt. -/
inductive Receipt.Follows (a b : Receipt) : Prop
  | attempt (hphase : b.phase = .VERIFYING)
      (hlimit : a.attempts.1 < a.binding.maximumVerificationAttempts.1)
      (hattempts : b.attempts.1 = a.attempts.1 + 1)
      (hpinned : a.phase = .VERIFYING → a.candidateJson = b.candidateJson)
  | outcome (hphase : b.phase = .REJECTED ∨ b.phase = .VERIFIED) (hverifying : a.phase = .VERIFYING)
      (hattempts : a.attempts = b.attempts) (hcandidate : a.candidateJson = b.candidateJson)
      (hdigest : a.candidateDigest = b.candidateDigest)

/-- What the contract accepts: a first receipt that is only retained, or one that follows the
receipt before it. -/
inductive Receipt.Accepted (w : Wire) : Option Receipt → Receipt → Prop
  | first {b : Receipt} (hb : receipt w (.str b.text) = .ok b) (hphase : b.phase = .RETAINED) :
      Accepted w none b
  | next {a b : Receipt} (ha : receipt w (.str a.text) = .ok a)
      (hb : receipt w (.str b.text) = .ok b) (hbinding : a.binding = b.binding)
      (hunverified : a.phase ≠ .VERIFIED) (h : a.Follows b) : Accepted w (some a) b

theorem Receipt.Follows.ne {a b : Receipt} (h : a.Follows b) : a ≠ b := by
  rintro rfl
  cases h with
  | attempt _ _ hattempts _ => omega
  | outcome hphase hverifying _ _ _ => simp [hverifying] at hphase

theorem receiptTransition_of_accepted {before : Option Receipt} {b : Receipt}
    (h : Receipt.Accepted w before b) :
    receiptTransition w (before.map Receipt.text) (some b.text) = .ok () := by
  unfold receiptTransition
  simp only [bind_ok, orReject_ok, Option.some.injEq]
  cases h with
  | first hb hphase =>
    refine ⟨_, rfl, b, hb, ?_⟩
    exact rejectIf_ok.mpr (not_not.mpr hphase)
  | @next a b ha hb hbinding hunverified h =>
    refine ⟨_, rfl, b, hb, ?_⟩
    change receiptChange w a.text b.text b = .ok ()
    unfold receiptChange
    simp only [bind_ok, rejectIf_ok]
    refine ⟨a, ha, (), not_not.mpr hbinding, (), fun htext => h.ne (Receipt.text_inj htext), (),
      hunverified, ?_⟩
    cases h with
    | attempt hphase hlimit hattempts hpinned =>
      rw [if_pos hphase]
      simp only [bind_ok, rejectIf_ok]
      refine ⟨(), ?_, ?_⟩
      · rw [not_or, not_le, not_not]
        exact ⟨hlimit, hattempts⟩
      · rintro ⟨hverifying, hne⟩
        exact hne (hpinned hverifying)
    | outcome hphase hverifying hattempts hcandidate hdigest =>
      have hne : b.phase ≠ .VERIFYING := by
        rcases hphase with hphase | hphase
        · rw [hphase]
          decide
        · rw [hphase]
          decide
      rw [if_neg hne, rejectIf_ok]
      simp [hverifying, hphase, hattempts, hcandidate, hdigest]

end Order
end ZenonX402
