/-
# What is owed for an order

The record that the fulfillment of a purchased order keeps: the funding receipt,
once there is a verified one, the deliveries, and at most one compensation for what
is not delivered. A delivery is pending or unknown until it is delivered or was not
performed; what was not performed may be delivered again under another original.

`validate` is the owner's reading of a record, for the payment that it captured.
Of several faults of a record the one that is reported may be another one here, as
the whole frame is read first.

Key definitions: `Delivery`, `Compensation`, `FulfillmentRecord`, `counts`, `proRata`,
`eachDelivery`, `compensationTerms`, `validate`.
Key theorems: `eachDelivery_ok`, `compensationTerms_ok`, `validate_ok`.
-/
import ZenonX402.Order.Receipt

namespace ZenonX402
namespace Order

open Js

/-! ### Frames -/

inductive DeliveryStatus
  | PENDING
  | UNKNOWN
  | DELIVERED
  | NOT_PERFORMED
  deriving DecidableEq, Repr

namespace DeliveryStatus

def all : List DeliveryStatus := [PENDING, UNKNOWN, DELIVERED, NOT_PERFORMED]

def name : DeliveryStatus → String
  | PENDING => "PENDING"
  | UNKNOWN => "UNKNOWN"
  | DELIVERED => "DELIVERED"
  | NOT_PERFORMED => "NOT_PERFORMED"

/-- What is delivered or was not performed stays so. -/
def terminal : DeliveryStatus → Bool
  | DELIVERED | NOT_PERFORMED => true
  | _ => false

end DeliveryStatus

inductive CompensationStatus
  | RETAINED
  | UNKNOWN
  | CONFIRMED
  deriving DecidableEq, Repr

namespace CompensationStatus

def all : List CompensationStatus := [RETAINED, UNKNOWN, CONFIRMED]

def name : CompensationStatus → String
  | RETAINED => "RETAINED"
  | UNKNOWN => "UNKNOWN"
  | CONFIRMED => "CONFIRMED"

end CompensationStatus

def deliveryStatusCodec : Codec Failure DeliveryStatus :=
  .enum DeliveryStatus.all DeliveryStatus.name .INVALID_INPUT (fun s => by cases s <;> decide)
    (fun a b => by cases a <;> cases b <;> decide)

def compensationStatusCodec : Codec Failure CompensationStatus :=
  .enum CompensationStatus.all CompensationStatus.name .INVALID_INPUT
  (fun s => by cases s <;> decide)
    (fun a b => by cases a <;> cases b <;> decide)

structure Delivery where
  deliveryId : Id
  originalJson : String
  originalDigest : Hash
  requestScope : Hash
  requestId : String
  grantId : String
  serviceResourceUrl : String
  quantity : Positive
  status : DeliveryStatus
  proofJson : Option String
  deriving DecidableEq

def deliveryCodec : Codec Failure Delivery :=
  (object (.cons "deliveryId" (idCodec .INVALID_INPUT)
    (.cons "originalJson" (.string .INVALID_INPUT)
    (.cons "originalDigest" (hashCodec .INVALID_INPUT)
    (.cons "requestScope" (hashCodec .INVALID_INPUT)
    (.cons "requestId" (.string .INVALID_INPUT)
    (.cons "grantId" (.string .INVALID_INPUT)
    (.cons "serviceResourceUrl" (.string .INVALID_INPUT)
    (.cons "quantity" (positiveCodec .INVALID_INPUT)
    (.cons "status" deliveryStatusCodec
    (.cons "proofJson" (optionalText .INVALID_INPUT)
      .nil)))))))))) Failure.INVALID_INPUT).equiv
    { toFun := fun (a, b, c, d, e, f, g, h, i, j, _) => ⟨a, b, c, d, e, f, g, h, i, j⟩
      invFun := fun d => (d.deliveryId, d.originalJson, d.originalDigest, d.requestScope,
        d.requestId, d.grantId, d.serviceResourceUrl, d.quantity, d.status, d.proofJson, ())
      left_inv := fun _ => rfl
      right_inv := fun _ => rfl }

structure Compensation where
  originalJson : String
  originalDigest : Hash
  status : CompensationStatus
  proofJson : Option String
  deriving DecidableEq

def compensationCodec : Codec Failure Compensation :=
  (object (.cons "originalJson" (.string .INVALID_INPUT)
    (.cons "originalDigest" (hashCodec .INVALID_INPUT)
    (.cons "status" compensationStatusCodec
    (.cons "proofJson" (optionalText .INVALID_INPUT)
      .nil)))) Failure.INVALID_INPUT).equiv
    { toFun := fun (a, b, c, d, _) => ⟨a, b, c, d⟩
      invFun := fun c => (c.originalJson, c.originalDigest, c.status, c.proofJson, ())
      left_inv := fun _ => rfl
      right_inv := fun _ => rfl }

/-- Whose fulfillment it is, and of which payment. -/
structure FulfillmentBinding where
  orderId : Id
  termsDigest : Hash
  paymentScope : Hash
  paymentRecordDigest : Hash
  fundingStoreId : Id
  deriving DecidableEq

structure FulfillmentRecord where
  binding : FulfillmentBinding
  fundingReceiptJson : Option String
  deliveries : List Delivery
  compensation : Option Compensation
  deriving DecidableEq

def fulfillmentRecordCodec : Codec Failure FulfillmentRecord :=
  (object (.const "version" (.constNum 1 .INVALID_INPUT)
    (.const "profile" (.constStr "zenon-x402.purchase-order-fulfillment.v1" .INVALID_INPUT)
    (.cons "orderId" (idCodec .INVALID_INPUT)
    (.cons "termsDigest" (hashCodec .INVALID_INPUT)
    (.cons "paymentScope" (hashCodec .INVALID_INPUT)
    (.cons "paymentRecordDigest" (hashCodec .INVALID_INPUT)
    (.cons "fundingStoreId" (idCodec .INVALID_INPUT)
    (.cons "fundingReceiptJson" (optionalText .INVALID_INPUT)
    (.cons "deliveries" (.list deliveryCodec .INVALID_INPUT)
    (.cons "compensation" (compensationCodec.nullable fun _ => nofun)
      .nil)))))))))) Failure.INVALID_INPUT).equiv
    { toFun := fun (a, b, c, d, e, f, g, h, _) => ⟨⟨a, b, c, d, e⟩, f, g, h⟩
      invFun := fun s => (s.binding.orderId, s.binding.termsDigest, s.binding.paymentScope,
        s.binding.paymentRecordDigest, s.binding.fundingStoreId, s.fundingReceiptJson, s.deliveries,
        s.compensation, ())
      left_inv := fun _ => rfl
      right_inv := fun _ => rfl }

/-- The text of a record. -/
def FulfillmentRecord.text (s : FulfillmentRecord) : String :=
  stringify (fulfillmentRecordCodec.encode s)

theorem FulfillmentRecord.text_inj {a b : FulfillmentRecord} (h : a.text = b.text) : a = b := by
  refine fulfillmentRecordCodec.encode_injective ?_
  rw [stringify_inj (fulfillmentRecordCodec.json_encode a) (fulfillmentRecordCodec.json_encode b) h]
  exact Value.Same.refl _

/-- The bytes of a record at most. -/
def recordCap : Nat := 1048576

/-! ### Quantities -/

/-- The quantity of the deliveries with some of the statuses. -/
def quantityOf (counted : DeliveryStatus → Bool) (ds : List Delivery) : Nat :=
  (ds.map fun d => if counted d.status = true then d.quantity.value else 0).sum

structure Counts where
  delivered : Nat
  reserved : Nat
  uncertain : Nat

def counts (s : FulfillmentRecord) : Counts where
  delivered := quantityOf (fun status => status == .DELIVERED) s.deliveries
  reserved := quantityOf (fun status => status != .NOT_PERFORMED) s.deliveries
  uncertain := quantityOf (fun status => status == .PENDING || status == .UNKNOWN) s.deliveries

/-- What is to be paid back for a quantity that is not delivered. -/
def proRata (price quantity remaining : Nat) : Nat := (price * remaining + quantity - 1) / quantity

/-! ### Deliveries -/

/-- The grant and the resource, as one text. -/
def Delivery.selection (d : Delivery) : String := d.grantId ++ "\x00" ++ d.serviceResourceUrl

/-- Two deliveries of one record. -/
def Delivery.Beside (a b : Delivery) : Prop :=
  a.deliveryId ≠ b.deliveryId ∧ a.requestScope ≠ b.requestScope ∧ a.selection = b.selection

instance (a b : Delivery) : Decidable (a.Beside b) := inferInstanceAs (Decidable (_ ∧ _ ∧ _))

/-- The deliveries one after the other, each beside those before it. -/
def eachDelivery {ε : Type} (check : Delivery → Except ε Unit) (e : ε) :
    List Delivery → List Delivery → Except ε Unit
  | _, [] => .ok ()
  | seen, d :: rest => do
    check d
    rejectIf (¬ ∀ a ∈ seen, a.Beside d) e
    eachDelivery check e (seen ++ [d]) rest

theorem eachDelivery_ok {ε : Type} {check : Delivery → Except ε Unit} {e : ε} {u : Unit} :
    ∀ {seen ds : List Delivery}, eachDelivery check e seen ds = .ok u ↔
      (∀ d ∈ ds, check d = .ok ()) ∧ (∀ a ∈ seen, ∀ d ∈ ds, a.Beside d)
        ∧ ds.Pairwise Delivery.Beside
  | seen, [] => by simp [eachDelivery]
  | seen, d :: rest => by
    unfold eachDelivery
    simp only [bind_ok, rejectIf_ok, not_not, eachDelivery_ok, List.mem_cons, List.mem_append,
      List.pairwise_cons, List.not_mem_nil, or_false]
    constructor
    · rintro ⟨_, hd, _, hseen, hrest, hbeside, hpairs⟩
      refine ⟨fun d' hd' => ?_, fun a ha d' hd' => ?_,
        fun d' hd' => hbeside d (.inr rfl) d' hd', hpairs⟩
      · rcases hd' with rfl | hd'
        · exact hd
        · exact hrest d' hd'
      · rcases hd' with rfl | hd'
        · exact hseen a ha
        · exact hbeside a (.inl ha) d' hd'
    · rintro ⟨hcheck, hseen, hd, hpairs⟩
      refine ⟨(), hcheck d (.inl rfl), (), fun a ha => hseen a ha d (.inl rfl),
        fun d' hd' => hcheck d' (.inr hd'), fun a ha d' hd' => ?_, hpairs⟩
      rcases ha with ha | rfl
      · exact hseen a ha d' (.inr hd')
      · exact hd d' hd'

/-! ### Proofs -/

structure DeliveryProof where
  deliveryId : Id
  requestScope : Hash
  originalDigest : Hash
  quantity : Positive
  status : DeliveryStatus
  resultDigest : Option Hash
  evidenceId : Id
  deriving DecidableEq

def deliveryProofCodec : Codec Failure DeliveryProof :=
  (object (.const "version" (.constNum 1 .INVALID_INPUT)
    (.const "kind" (.constStr "EXACT_SERVICE_DELIVERY_V1" .INVALID_INPUT)
    (.cons "deliveryId" (idCodec .INVALID_INPUT)
    (.cons "requestScope" (hashCodec .INVALID_INPUT)
    (.cons "originalDigest" (hashCodec .INVALID_INPUT)
    (.cons "quantity" (positiveCodec .INVALID_INPUT)
    (.cons "status" deliveryStatusCodec
    (.cons "resultDigest" ((hashCodec .INVALID_INPUT).nullable fun _ => nofun)
    (.cons "evidenceId" (idCodec .INVALID_INPUT)
      .nil))))))))) Failure.INVALID_INPUT).equiv
    { toFun := fun (a, b, c, d, e, f, g, _) => ⟨a, b, c, d, e, f, g⟩
      invFun := fun p => (p.deliveryId, p.requestScope, p.originalDigest, p.quantity, p.status,
        p.resultDigest, p.evidenceId, ())
      left_inv := fun _ => rfl
      right_inv := fun _ => rfl }

structure CompensationProof where
  compensationId : Id
  originalDigest : Hash
  transactionHash : String
  paymentScope : Hash
  status : CompensationStatus
  evidenceId : Id
  deriving DecidableEq

def compensationProofCodec : Codec Failure CompensationProof :=
  (object (.const "version" (.constNum 1 .INVALID_INPUT)
    (.const "kind" (.constStr "ZENON_EXACT_COMPENSATION_V1" .INVALID_INPUT)
    (.cons "compensationId" (idCodec .INVALID_INPUT)
    (.cons "originalDigest" (hashCodec .INVALID_INPUT)
    (.cons "transactionHash" (.string .INVALID_INPUT)
    (.cons "paymentScope" (hashCodec .INVALID_INPUT)
    (.cons "status" compensationStatusCodec
    (.cons "evidenceId" (idCodec .INVALID_INPUT)
      .nil)))))))) Failure.INVALID_INPUT).equiv
    { toFun := fun (a, b, c, d, e, f, _) => ⟨a, b, c, d, e, f⟩
      invFun := fun p => (p.compensationId, p.originalDigest, p.transactionHash, p.paymentScope,
        p.status, p.evidenceId, ())
      left_inv := fun _ => rfl
      right_inv := fun _ => rfl }

/-- What a proof says of a delivery: only what is delivered has a result. -/
def DeliveryProof.Proves (f : DeliveryProof) (d : Delivery) : Prop :=
  f.deliveryId = d.deliveryId ∧ f.requestScope = d.requestScope ∧ f.originalDigest
    = d.originalDigest
    ∧ f.quantity = d.quantity ∧ (f.status = .DELIVERED ↔ f.resultDigest ≠ none)

instance (f : DeliveryProof) (d : Delivery) : Decidable (f.Proves d) :=
  inferInstanceAs (Decidable (_ ∧ _ ∧ _ ∧ _ ∧ _))

/-- What a proof says of a compensation. -/
def CompensationProof.Proves (f : CompensationProof) (o : CompensationOriginal)
    (originalDigest paymentScope : Hash) : Prop :=
  f.compensationId = o.compensationId ∧ f.originalDigest = originalDigest ∧ f.transactionHash
    = o.transactionHash.1
    ∧ f.paymentScope = paymentScope

instance (f : CompensationProof) (o : CompensationOriginal) (originalDigest paymentScope : Hash) :
    Decidable (f.Proves o originalDigest paymentScope) :=
  inferInstanceAs (Decidable (_ ∧ _ ∧ _ ∧ _))

/-- `purchasedCompensationOriginalDigest`, with the original. -/
def purchasedCompensationOriginalDigest (w : Wire) (raw : String) :
    Except Failure (CompensationOriginal × Hash) := do
  let o ← compensationOriginal raw
  .ok (o, digest w "zenon-x402.purchase-fulfillment.v1:compensation" raw)

/-! ### The owner's reading -/

namespace Fulfillment

/-- The suffix of an `ORDER_FULFILLMENT_` code. -/
inductive Failure
  | INVALID_INPUT
  | CLOSED
  | HELD
  | CLOCK_UNKNOWN
  | RECOVERY_REQUIRED
  | FUNDING_CONFLICT
  | FUNDING_READ_UNKNOWN
  | ORIGINAL_CONFLICT
  | ORIGINAL_READ_UNKNOWN
  | ORIGINAL_NOT_RETAINED
  | COMPENSATION_CONFLICT
  | COMMIT_UNKNOWN
  | PROOF_REJECTED
  | ALREADY_RECOVERED
  | READ_UNKNOWN
  | CORRUPT
  | FUNDING_SOURCE_CONFLICT
  | ORIGINAL_RECOVERY_UNKNOWN
  | FUNDING_NOT_VERIFIED
  | FUNDING_REQUIRED
  | DELIVERY_CONFLICT
  | COMPENSATION_ALREADY_RETAINED
  | SERVICE_SELECTION_CONFLICT
  | DELIVERY_LIMIT
  | QUANTITY_LIMIT
  | DELIVERY_NOT_RETAINED
  | COMPENSATION_NOT_RETAINED
  deriving DecidableEq, Repr

variable {w : Wire} {p : OrderPayment w}

/-- What an owner of the fulfillment of a payment is created with: the pins under which it captured
the payment, and the store of its funding. -/
structure Setup (p : OrderPayment w) where
  paymentPinsJson : String
  captured : capturePurchasedOrderPayment w p.termsJson p.termsDigest p.paymentCheckpointJson
    paymentPinsJson
    p.fundingContextJson = .ok p
  fundingStoreId : Id

def Setup.binding (setup : Setup p) : FulfillmentBinding :=
  ⟨p.terms.orderId, p.termsDigest, p.issue.paymentScope, p.paymentRecordDigest,
    setup.fundingStoreId⟩

def fundingReceipt (p : OrderPayment w) (raw : Value) : Except Failure Receipt := do
  let f ← failWith (receipt w raw) .INVALID_INPUT
  rejectIf (f.phase ≠ .VERIFIED ∨ f.binding.orderId ≠ p.terms.orderId ∨ f.binding.paymentScope
    ≠ p.issue.paymentScope
    ∨ f.binding.paymentRecordJson ≠ p.paymentRecordJson ∨ f.binding.paymentRecordDigest
    ≠ p.paymentRecordDigest)
    .FUNDING_CONFLICT
  .ok f

def original (setup : Setup p) (raw : String) (digest : Hash) : Except Failure StoredOriginal := do
  let o ← failWith (capturePurchaseStorageOriginal w raw digest setup.paymentPinsJson p.termsDigest)
      .INVALID_INPUT
  rejectIf (o.orderId ≠ p.terms.orderId ∨ o.termsJson ≠ p.termsJson ∨ o.request.paymentScope
    ≠ p.issue.paymentScope
    ∨ o.paymentCheckpointJson ≠ p.paymentCheckpointJson) .ORIGINAL_CONFLICT
  .ok o

def deliveryProof (raw : String) (entry : Delivery) : Except Failure DeliveryProof := do
  let f ← failWith (deliveryProofCodec.ofText 4096 .INVALID_INPUT (.str raw)) .INVALID_INPUT
  rejectIf (¬ f.Proves entry ∨ f.status = .PENDING) .INVALID_INPUT
  .ok f

/-- `compensationTerms`: the original of a compensation for all that is not delivered. -/
def compensationTerms (p : OrderPayment w) (s : FulfillmentRecord) (raw : String) (digest : Hash) :
    Except Failure CompensationOriginal := do
  let (c, originalDigest) ← failWith (purchasedCompensationOriginalDigest w raw) .INVALID_INPUT
  rejectIf (originalDigest ≠ digest) .COMPENSATION_CONFLICT
  let n := counts s
  let remaining := p.terms.quantity.value - n.delivered
  let amount := proRata p.terms.amount.value p.terms.quantity.value remaining
  rejectIf (remaining = 0 ∨ n.uncertain ≠ 0 ∨ c.quantity.value ≠ remaining ∨ c.amountAtomic.1
    ≠ toString amount
    ∨ c.termsDigest ≠ p.termsDigest ∨ c.paymentScope ≠ p.issue.paymentScope ∨ c.network.1
    ≠ p.terms.network.1
    ∨ c.asset ≠ p.terms.asset ∨ c.payee ≠ p.terms.holder
    ∨ c.transactionHash.1 = p.checkpoint.pins.binding.1.paymentHash) .COMPENSATION_CONFLICT
  .ok c

def compensationProof (p : OrderPayment w) (raw : String) (o : CompensationOriginal)
    (digest : Hash) :
    Except Failure CompensationProof := do
  let f ← failWith (compensationProofCodec.ofText 4096 .INVALID_INPUT (.str raw)) .INVALID_INPUT
  rejectIf (¬ f.Proves o digest p.issue.paymentScope ∨ f.status = .RETAINED) .INVALID_INPUT
  .ok f

/-- What a delivery of a record must be. -/
def checkDelivery (setup : Setup p) (d : Delivery) : Except Failure Unit := do
  let o ← original setup d.originalJson d.originalDigest
  rejectIf (p.terms.quantity.value < d.quantity.value) .INVALID_INPUT
  rejectIf (d.requestScope ≠ o.request.requestScope ∨ d.requestId ≠ o.request.requestId ∨ d.grantId
    ≠ o.request.grantId
    ∨ d.serviceResourceUrl ≠ o.request.serviceResourceUrl) .INVALID_INPUT
  if d.status = .PENDING then rejectIf (d.proofJson ≠ none) .INVALID_INPUT
  else do
    let raw ← orReject d.proofJson .INVALID_INPUT
    let f ← deliveryProof raw d
    rejectIf (f.status ≠ d.status) .INVALID_INPUT

/-- What the compensation of a record must be. -/
def checkCompensation (p : OrderPayment w) (s : FulfillmentRecord) (c : Compensation) :
    Except Failure Unit := do
  let o ← compensationTerms p s c.originalJson c.originalDigest
  if c.status = .RETAINED then rejectIf (c.proofJson ≠ none) .INVALID_INPUT
  else do
    let raw ← orReject c.proofJson .INVALID_INPUT
    let f ← compensationProof p raw o c.originalDigest
    rejectIf (f.status ≠ c.status) .INVALID_INPUT

/-- A check of what may be absent. -/
def ifPresent {α ε : Type} (o : Option α) (check : α → Except ε Unit) :
    Except ε Unit := match o with
  | none => .ok ()
  | some a => check a

def validate (setup : Setup p) (raw : Value) : Except Failure FulfillmentRecord := do
  let s ← failWith (fulfillmentRecordCodec.ofText recordCap .INVALID_INPUT raw) .INVALID_INPUT
  rejectIf (s.binding ≠ setup.binding) .INVALID_INPUT
  ifPresent s.fundingReceiptJson fun funding => do
    let _ ← fundingReceipt p (.str funding)
    .ok ()
  rejectIf (p.rules.maximumDeliveries.1 < s.deliveries.length) .INVALID_INPUT
  eachDelivery (checkDelivery setup) .INVALID_INPUT [] s.deliveries
  rejectIf (p.terms.quantity.value < (counts s).reserved) .INVALID_INPUT
  ifPresent s.compensation (checkCompensation p s)
  rejectIf (s.fundingReceiptJson = none ∧ (s.deliveries ≠ [] ∨ s.compensation ≠ none))
    .INVALID_INPUT
  .ok s

/-! ### What is accepted -/

theorem ifPresent_ok {α ε : Type} {o : Option α} {check : α → Except ε Unit} {u : Unit} :
    ifPresent o check = .ok u ↔ ∀ a, o = some a → check a = .ok () := by
  cases o with
  | none => simp [ifPresent]
  | some a => simp [ifPresent]

theorem fundingReceipt_ok {v : Value} {f : Receipt} :
    fundingReceipt p v = .ok f ↔ receipt w v = .ok f
    ∧ f.phase = .VERIFIED ∧ f.binding.orderId = p.terms.orderId ∧ f.binding.paymentScope
    = p.issue.paymentScope
    ∧ f.binding.paymentRecordJson = p.paymentRecordJson ∧ f.binding.paymentRecordDigest
    = p.paymentRecordDigest := by
  unfold fundingReceipt
  simp only [bind_ok, failWith_ok, rejectIf_ok, not_or, ne_eq, not_not, Except.ok.injEq]
  constructor
  · rintro ⟨f', hf, _, h, rfl⟩
    exact ⟨hf, h⟩
  · rintro ⟨hf, h⟩
    exact ⟨f, hf, (), h, rfl⟩

theorem original_ok {setup : Setup p} {raw : String} {digest : Hash} {o : StoredOriginal} :
    original setup raw digest = .ok o ↔
      capturePurchaseStorageOriginal w raw digest setup.paymentPinsJson p.termsDigest = .ok o
        ∧ o.orderId = p.terms.orderId ∧ o.termsJson = p.termsJson ∧ o.request.paymentScope
        = p.issue.paymentScope
        ∧ o.paymentCheckpointJson = p.paymentCheckpointJson := by
  unfold original
  simp only [bind_ok, failWith_ok, rejectIf_ok, not_or, ne_eq, not_not, Except.ok.injEq]
  constructor
  · rintro ⟨o', ho, _, h, rfl⟩
    exact ⟨ho, h⟩
  · rintro ⟨ho, h⟩
    exact ⟨o, ho, (), h, rfl⟩

theorem deliveryProof_ok {raw : String} {d : Delivery} {f : DeliveryProof} :
    deliveryProof raw d = .ok f ↔
    deliveryProofCodec.ofText 4096 Order.Failure.INVALID_INPUT (.str raw) = .ok f ∧ f.Proves d
      ∧ f.status ≠ .PENDING := by
  unfold deliveryProof
  simp only [bind_ok, failWith_ok, rejectIf_ok, not_or, not_not, Except.ok.injEq]
  constructor
  · rintro ⟨f', hf, _, h, rfl⟩
    exact ⟨hf, h⟩
  · rintro ⟨hf, h⟩
    exact ⟨f, hf, (), h, rfl⟩

theorem compensationProof_ok {raw : String} {o : CompensationOriginal} {digest : Hash}
    {f : CompensationProof} :
    compensationProof p raw o digest = .ok f ↔
      compensationProofCodec.ofText 4096 Order.Failure.INVALID_INPUT (.str raw) = .ok f
        ∧ f.Proves o digest p.issue.paymentScope ∧ f.status ≠ .RETAINED := by
  unfold compensationProof
  simp only [bind_ok, failWith_ok, rejectIf_ok, not_or, not_not, Except.ok.injEq]
  constructor
  · rintro ⟨f', hf, _, h, rfl⟩
    exact ⟨hf, h⟩
  · rintro ⟨hf, h⟩
    exact ⟨f, hf, (), h, rfl⟩

/-- The original of a compensation goes with an order of which some is not delivered, and nothing is
uncertain. -/
structure Compensates (p : OrderPayment w) (s : FulfillmentRecord) (c : CompensationOriginal) :
    Prop where
  certain : (counts s).uncertain = 0
  quantity : c.quantity.value + (counts s).delivered = p.terms.quantity.value
  amount : c.amountAtomic.1
    = toString (proRata p.terms.amount.value p.terms.quantity.value c.quantity.value)
  termsDigest : c.termsDigest = p.termsDigest
  paymentScope : c.paymentScope = p.issue.paymentScope
  network : c.network.1 = p.terms.network.1
  asset : c.asset = p.terms.asset
  payee : c.payee = p.terms.holder
  transactionHash : c.transactionHash.1 ≠ p.checkpoint.pins.binding.1.paymentHash

theorem compensationTerms_ok {s : FulfillmentRecord} {raw : String} {digest : Hash}
    {c : CompensationOriginal} :
    compensationTerms p s raw digest = .ok c ↔ compensationOriginal raw = .ok c
      ∧ Order.digest w "zenon-x402.purchase-fulfillment.v1:compensation" raw = digest
      ∧ Compensates p s c := by
  unfold compensationTerms purchasedCompensationOriginalDigest
  simp only [bind_ok, failWith_ok, rejectIf_ok, not_or, ne_eq, not_not, Except.ok.injEq]
  constructor
  · rintro ⟨⟨c', digest'⟩, ⟨o, ho, hpair⟩, _, rfl, _, h, rfl⟩
    obtain ⟨rfl, rfl⟩ := Prod.mk.inj hpair
    obtain ⟨hremaining, hcertain, hquantity, hamount, hrest⟩ := h
    refine ⟨ho, rfl, ⟨hcertain, ?_, ?_, hrest.1, hrest.2.1, hrest.2.2.1, hrest.2.2.2.1,
      hrest.2.2.2.2.1, hrest.2.2.2.2.2⟩⟩
    · dsimp only at hquantity ⊢
      omega
    · dsimp only at hquantity ⊢
      rw [hquantity]
      exact hamount
  · rintro ⟨hraw, rfl, h⟩
    have hpositive := c.quantity.value_eq.2.1
    have hquantity := h.quantity
    have hremaining : c.quantity.value = p.terms.quantity.value - (counts s).delivered := by omega
    refine ⟨(c, _), ⟨c, hraw, rfl⟩, (), rfl, (),
      ⟨by omega, h.certain, hremaining, ?_, h.termsDigest, h.paymentScope, h.network, h.asset,
        h.payee, h.transactionHash⟩, rfl⟩
    rw [← hremaining]
    exact h.amount

/-- A delivery as it must be. -/
structure Sound (setup : Setup p) (d : Delivery) : Prop where
  original : ∃ o, original setup d.originalJson d.originalDigest = .ok o ∧ d.requestScope
    = o.request.requestScope
    ∧ d.requestId = o.request.requestId ∧ d.grantId = o.request.grantId
    ∧ d.serviceResourceUrl = o.request.serviceResourceUrl
  quantity : d.quantity.value ≤ p.terms.quantity.value
  proof : if d.status = .PENDING then d.proofJson = none
    else ∃ raw f, d.proofJson = some raw ∧ deliveryProof raw d = .ok f ∧ f.status = d.status

theorem checkDelivery_ok {setup : Setup p} {d : Delivery} {u : Unit} :
    checkDelivery setup d = .ok u ↔ Sound setup d := by
  unfold checkDelivery
  simp only [bind_ok, rejectIf_ok, not_or, ne_eq, not_not, not_lt]
  constructor
  · rintro ⟨o, ho, _, hquantity, _, hsame, hproof⟩
    refine ⟨⟨o, ho, hsame⟩, hquantity, ?_⟩
    by_cases hpending : d.status = .PENDING
    · rw [if_pos hpending] at hproof ⊢
      simpa [rejectIf_ok] using hproof
    · rw [if_neg hpending] at hproof ⊢
      simp only [bind_ok, orReject_ok, rejectIf_ok, not_not] at hproof
      obtain ⟨raw, hraw, f, hf, hstatus⟩ := hproof
      exact ⟨raw, f, hraw, hf, hstatus⟩
  · rintro ⟨⟨o, ho, hsame⟩, hquantity, hproof⟩
    refine ⟨o, ho, (), hquantity, (), hsame, ?_⟩
    by_cases hpending : d.status = .PENDING
    · rw [if_pos hpending] at hproof ⊢
      simpa [rejectIf_ok] using hproof
    · rw [if_neg hpending] at hproof ⊢
      obtain ⟨raw, f, hraw, hf, hstatus⟩ := hproof
      simp only [bind_ok, orReject_ok, rejectIf_ok, not_not]
      exact ⟨raw, hraw, f, hf, hstatus⟩

/-- A compensation as it must be. -/
structure Compensated (p : OrderPayment w) (s : FulfillmentRecord) (c : Compensation) : Prop where
  intro ::
  proof : ∃ o, compensationTerms p s c.originalJson c.originalDigest = .ok o ∧
    if c.status = .RETAINED then c.proofJson = none
    else ∃ raw f, c.proofJson = some raw ∧ compensationProof p raw o c.originalDigest = .ok f
      ∧ f.status = c.status

theorem checkCompensation_ok {s : FulfillmentRecord} {c : Compensation} {u : Unit} :
    checkCompensation p s c = .ok u ↔ Compensated p s c := by
  unfold checkCompensation
  simp only [bind_ok]
  constructor
  · rintro ⟨o, ho, hproof⟩
    refine ⟨o, ho, ?_⟩
    by_cases hretained : c.status = .RETAINED
    · rw [if_pos hretained] at hproof ⊢
      simpa [rejectIf_ok] using hproof
    · rw [if_neg hretained] at hproof ⊢
      simp only [bind_ok, orReject_ok, rejectIf_ok, ne_eq, not_not] at hproof
      obtain ⟨raw, hraw, f, hf, hstatus⟩ := hproof
      exact ⟨raw, f, hraw, hf, hstatus⟩
  · rintro ⟨o, ho, hproof⟩
    refine ⟨o, ho, ?_⟩
    by_cases hretained : c.status = .RETAINED
    · rw [if_pos hretained] at hproof ⊢
      simpa [rejectIf_ok] using hproof
    · rw [if_neg hretained] at hproof ⊢
      obtain ⟨raw, f, hraw, hf, hstatus⟩ := hproof
      simp only [bind_ok, orReject_ok, rejectIf_ok, ne_eq, not_not]
      exact ⟨raw, hraw, f, hf, hstatus⟩

/-- A record as the owner takes it. -/
structure Valid (setup : Setup p) (s : FulfillmentRecord) : Prop where
  size : s.text.utf8ByteSize ≤ recordCap
  binding : s.binding = setup.binding
  funding : ∀ raw, s.fundingReceiptJson = some raw → ∃ f, fundingReceipt p (.str raw) = .ok f
  count : (s.deliveries.length : Int) ≤ p.rules.maximumDeliveries.1
  sound : ∀ d ∈ s.deliveries, Sound setup d
  beside : s.deliveries.Pairwise Delivery.Beside
  reserved : (counts s).reserved ≤ p.terms.quantity.value
  compensated : ∀ c, s.compensation = some c → Compensated p s c
  funded : s.fundingReceiptJson = none → s.deliveries = [] ∧ s.compensation = none

theorem validate_ok {setup : Setup p} {v : Value} {s : FulfillmentRecord} :
    validate setup v = .ok s ↔ v = .str s.text ∧ Valid setup s := by
  unfold validate
  simp only [bind_ok, failWith_ok, rejectIf_ok, ifPresent_ok, eachDelivery_ok, Codec.ofText_ok,
    checkDelivery_ok, checkCompensation_ok, Except.ok.injEq, ne_eq, not_not, not_lt,
    List.not_mem_nil, false_implies, implies_true,
    true_and]
  constructor
  · rintro ⟨s', ⟨hv, hsize⟩, _, hbinding, _, hfunding, _, hcount, _, ⟨hsound, hbeside⟩, _,
      hreserved, _, hcompensated, _, hfunded, rfl⟩
    refine ⟨hv, hsize, hbinding, fun raw hraw => ?_, hcount, hsound, hbeside, hreserved,
      hcompensated, fun hnone => ?_⟩
    · obtain ⟨f, hf, -⟩ := hfunding raw hraw
      exact ⟨f, hf⟩
    · by_contra hne
      exact hfunded ⟨hnone, not_and_or.mp hne⟩
  · rintro ⟨hv, h⟩
    refine ⟨s, ⟨hv, h.size⟩, (), h.binding, (), fun raw hraw => ?_, (), h.count, (),
      ⟨h.sound, h.beside⟩, (), h.reserved, (), h.compensated, (), fun hunfunded => ?_, rfl⟩
    · obtain ⟨f, hf⟩ := h.funding raw hraw
      exact ⟨f, hf, trivial⟩
    · obtain ⟨hdeliveries, hcompensation⟩ := h.funded hunfunded.1
      rcases hunfunded.2 with hne | hne
      · exact hne hdeliveries
      · exact hne hcompensation

end Fulfillment
end Order
end ZenonX402
