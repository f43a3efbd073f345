/-
# What was purchased, and the original of its payment

The texts that an order keeps from its purchase: the accepted terms, the policy
of the fulfillment, the checkpoint of the original payment with the pins it is
restored under, the original of a request for the service, and the original of
a compensation. Each is read from its one text and no other (`Codec.ofText`).

`capturePurchaseStorageOriginal` takes pins that were selected independently;
`inspectStoredPurchaseOriginal` derives them from the stored text. Whatever is
captured under pins of one text is also found under the derived ones
(`inspect_of_capture`, `captureOrder_derived`): they are the same pins, with
their keys in another order at most.

What the wire payloads and the request's custody say is read by other modules
(`Wire`). A text of a purchase that is refused fails in one way here.

Key definitions: `snapshotPurchasedServiceTerms`, `restoreOriginalPaymentCheckpoint`,
`capturePurchaseStorageOriginal`, `inspectStoredPurchaseOriginal`, `capturePurchasedOrderPayment`,
`compensationOriginal`.
Key theorems: `restore_derived`, `inspect_of_capture`, `captureOrder_derived`.
-/
import ZenonX402.Lib.Extent
import ZenonX402.Lib.Formats
import ZenonX402.Order.Envelope

namespace ZenonX402
namespace Order

open Js

/-! ### Terms, policies, compensations -/

/-- `/^[1-9][0-9]{0,77}$/`. -/
def isAmount (s : String) : Bool :=
  Text.headTail (fun c => Text.isDigit c && c != '0') Text.isDigit 77 s

abbrev Amount := {s : String // isAmount s = true}

/-- `/^[A-Za-z0-9][A-Za-z0-9._:-]{0,255}$/`. -/
def isNetwork (s : String) : Bool :=
  Text.headTail Text.isAlnum (fun c => Text.isAlnum c || Text.oneOf "._:-" c) 255 s

/-- `text`: not empty, and at most `cap` bytes. -/
def isText (cap : Nat) (s : String) : Bool := !s.isEmpty && decide (s.utf8ByteSize ≤ cap)

/-- `BigInt(amount)`. -/
def Amount.value (a : Amount) : Nat :=
  a.1.toList.foldl (fun n c => n * 10 + (c.toNat - '0'.toNat)) 0

structure Terms where
  orderId : Id
  productId : Id
  beneficiary : Id
  holder : Id
  asset : Id
  unit : Id
  amount : Amount
  quantity : Positive
  network : {s : String // isNetwork s = true}
  conditionsDigest : Hash
  deriving DecidableEq

def priceCodec : Codec Failure (Id × Id × Amount × Unit) :=
  object (.cons "asset" (idCodec .INVALID_INPUT)
    (.cons "unit" (idCodec .INVALID_INPUT)
    (.cons "amount" (.text isAmount .INVALID_INPUT)
      .nil))) Failure.INVALID_INPUT

def termsCodec : Codec Failure Terms :=
  (object (.const "termsVersion" (.constNum 1 .INVALID_INPUT)
    (.cons "orderId" (idCodec .INVALID_INPUT)
    (.cons "productId" (idCodec .INVALID_INPUT)
    (.cons "beneficiary" (idCodec .INVALID_INPUT)
    (.cons "holder" (idCodec .INVALID_INPUT)
    (.cons "price" priceCodec
    (.cons "quantity" (positiveCodec .INVALID_INPUT)
    (.cons "network" (.text isNetwork .INVALID_INPUT)
    (.cons "conditionsDigest" (hashCodec .INVALID_INPUT)
      .nil))))))))) Failure.INVALID_INPUT).equiv
    { toFun := fun (a, b, c, d, (e, f, g, _), h, i, j, _) => ⟨a, b, c, d, e, f, g, h, i, j⟩
      invFun := fun t => (t.orderId, t.productId, t.beneficiary, t.holder,
        (t.asset, t.unit, t.amount, ()), t.quantity, t.network, t.conditionsDigest, ())
      left_inv := fun _ => rfl
      right_inv := fun _ => rfl }

/-- `snapshotPurchasedServiceTerms`. What it accepts is plain, so its limit on the length is one on
the bytes. -/
def snapshotPurchasedServiceTerms (termsJson : String) : Except Failure Terms :=
  termsCodec.ofText 4096 .INVALID_INPUT (.str termsJson)

/-- The deliveries of an order at most. -/
def isMaximum (n : Int) : Bool := decide (1 ≤ n ∧ n ≤ 64)

structure Policy where
  quantityUnit : Id
  offerExpiresAtMs : Positive
  reservationExpiresAtMs : Positive
  maximumDeliveries : {n : Int // n.natAbs ≤ 9007199254740991 ∧ isMaximum n = true}
  deriving DecidableEq

def policyCodec : Codec Failure Policy :=
  (object (.const "version" (.constNum 1 .INVALID_INPUT)
    (.cons "quantityUnit" (idCodec .INVALID_INPUT)
    (.cons "offerExpiresAtMs" (positiveCodec .INVALID_INPUT)
    (.cons "reservationExpiresAtMs" (positiveCodec .INVALID_INPUT)
    (.cons "maximumDeliveries" (.integer isMaximum .INVALID_INPUT)
    (.const "compensationRule" (.constStr "PRO_RATA_CEILING_ATOMIC_V1" .INVALID_INPUT)
      .nil)))))) Failure.INVALID_INPUT).equiv
    { toFun := fun (a, b, c, d, _) => ⟨a, b, c, d⟩
      invFun := fun p => (p.quantityUnit, p.offerExpiresAtMs, p.reservationExpiresAtMs,
        p.maximumDeliveries, ())
      left_inv := fun _ => rfl
      right_inv := fun _ => rfl }

def policy (policyJson : String) : Except Failure Policy :=
  policyCodec.ofText 4096 .INVALID_INPUT (.str policyJson)

/-- Canonical base64 of 1 to 4096 bytes. -/
def isOriginalBytes (s : String) : Bool := isText 5464 s && match base64Bytes? s with
  | some bytes => !bytes.isEmpty && decide (bytes.length ≤ 4096) && base64Text bytes == s
  | none => false

structure CompensationOriginal where
  compensationId : Id
  termsDigest : Hash
  paymentScope : Hash
  network : {s : String // isText 256 s = true}
  asset : Id
  payee : Id
  quantity : Positive
  amountAtomic : Amount
  transactionHash : {s : String // Text.isHash s = true}
  originalBytesBase64 : {s : String // isOriginalBytes s = true}
  deriving DecidableEq

def compensationOriginalCodec : Codec Failure CompensationOriginal :=
  (object (.const "version" (.constNum 1 .INVALID_INPUT)
    (.const "kind" (.constStr "ZENON_COMPENSATION_ORIGINAL_V1" .INVALID_INPUT)
    (.cons "compensationId" (idCodec .INVALID_INPUT)
    (.cons "termsDigest" (hashCodec .INVALID_INPUT)
    (.cons "paymentScope" (hashCodec .INVALID_INPUT)
    (.cons "network" (.text (isText 256) .INVALID_INPUT)
    (.cons "asset" (idCodec .INVALID_INPUT)
    (.cons "payee" (idCodec .INVALID_INPUT)
    (.cons "quantity" (positiveCodec .INVALID_INPUT)
    (.cons "amountAtomic" (.text isAmount .INVALID_INPUT)
    (.cons "transactionHash" (.text Text.isHash .INVALID_INPUT)
    (.cons "originalBytesBase64" (.text isOriginalBytes .INVALID_INPUT)
      .nil)))))))))))) Failure.INVALID_INPUT).equiv
    { toFun := fun (a, b, c, d, e, f, g, h, i, j, _) => ⟨a, b, c, d, e, f, g, h, i, j⟩
      invFun := fun o => (o.compensationId, o.termsDigest, o.paymentScope, o.network, o.asset,
        o.payee, o.quantity, o.amountAtomic, o.transactionHash, o.originalBytesBase64, ())
      left_inv := fun _ => rfl
      right_inv := fun _ => rfl }

def compensationOriginal (raw : String) : Except Failure CompensationOriginal :=
  compensationOriginalCodec.ofText 16384 .INVALID_INPUT (.str raw)

/-! ### Checkpoints of the original payment -/

/-- One of a kind for each of the four originals of a payment. -/
structure Originals (α : Type) where
  requestBody : α
  paymentPayload : α
  paymentRequirements : α
  context : α
  deriving DecidableEq

def originalsCodec {α : Type} (c : Codec Failure α) : Codec Failure (Originals α) :=
  (object (.cons "requestBody" c
    (.cons "paymentPayload" c
    (.cons "paymentRequirements" c
    (.cons "context" c
      .nil)))) Failure.INVALID_INPUT
    (show ["requestBody", "paymentPayload", "paymentRequirements",
      "context"].Nodup by decide)).equiv
    { toFun := fun (a, b, c, d, _) => ⟨a, b, c, d⟩
      invFun := fun o => (o.requestBody, o.paymentPayload, o.paymentRequirements, o.context, ())
      left_inv := fun _ => rfl
      right_inv := fun _ => rfl }

structure PaymentBinding where
  requestId : String
  paymentHash : String
  origin : String
  contextId : String
  deriving DecidableEq

structure CheckpointFields where
  binding : PaymentBinding
  originalBytes : Originals String
  digests : Originals {s : String // Text.isHash s = true}
  deriving DecidableEq

/-- What the original of a request says, with the scopes that are derived of it. -/
structure Request where
  paymentScope : Hash
  requestScope : Hash
  requestId : String
  grantId : String
  serviceResourceUrl : String
  deriving DecidableEq

/-- What the original of a payment says of the issued offer. -/
structure Issue where
  paymentScope : Hash
  expiresAt : Int
  totalUnits : Nat
  resourceUrl : String
  deriving DecidableEq

/-- What the verifier of a funding compares a payment with: the issuance in the context's text, and
the payment. -/
structure VerifierContext where
  fundingContextJson : String
  transactionHash : String
  payer : String
  resourceUrl : String
  deriving DecidableEq

/-- What is read elsewhere: the hash functions, whether a text is the origin of an https URL,
whether a text is what `JSON.stringify` gives for the value it holds, whatever that is, and how the
wire payloads of a checkpoint go with the terms and with the custody of a request (`checkedJoin`) or
with the context of the funding (`capturePurchasedOrderPayment`, after its texts); the record and
the settlement that follow of a verifier's answer (`captureVerifiedZenonIssuedFunding`), and whether
a candidate gets as far as the verifier. -/
structure Wire where
  sha : Sha256
  fingerprint : List Nat → String
  isOrigin : String → Bool
  isExact : String → Bool
  request : Terms → String → CheckpointFields → Option Request
  issue : Terms → String → CheckpointFields → Option Issue
  verified : VerifierContext → Value → Option (Value × String)
  isEvidence : VerifierContext → String → Bool

/-- `'sha256:' + SHA-256(domain, NUL, text)`. -/
def digest (w : Wire) (domain text : String) : Hash :=
  ⟨"sha256:" ++ w.sha.hex (domain ++ "\x00" ++ text), Text.prefixed_append _ (w.sha.isHash_hex _)⟩

variable (w : Wire)

/-- A character that is no control. -/
def isVisible (c : Char) : Bool :=
  !(decide (c ≤ '\x1f') || (decide ('\x7f' ≤ c) && decide (c ≤ '\u009f')))

/-- The request or the context of a payment. -/
def isReference (s : String) : Bool := isText 256 s && s.toList.all isVisible

/-- 64 hexadecimal digits of either case. -/
def isPaymentHash (s : String) : Bool :=
  Text.allOf (fun c => Text.isHexLower c || (decide ('A' ≤ c) && decide (c ≤ 'F'))) 64 64 s

/-- `binding`. -/
def PaymentBinding.checked (b : PaymentBinding) : Bool :=
  isReference b.requestId && isReference b.contextId && isPaymentHash b.paymentHash
    && (decide (b.origin.utf8ByteSize ≤ 2048) && w.isOrigin b.origin)

def bindingCodec : Codec Failure {b : PaymentBinding // b.checked w = true} :=
  ((object (.cons "requestId" (.string .INVALID_INPUT)
    (.cons "paymentHash" (.string .INVALID_INPUT)
    (.cons "origin" (.string .INVALID_INPUT)
    (.cons "contextId" (.string .INVALID_INPUT)
      .nil)))) Failure.INVALID_INPUT).equiv
    { toFun := fun (a, b, c, d, _) => (⟨a, b, c, d⟩ : PaymentBinding)
      invFun := fun b => (b.requestId, b.paymentHash, b.origin, b.contextId, ())
      left_inv := fun _ => rfl
      right_inv := fun _ => rfl }).refine (PaymentBinding.checked w) .INVALID_INPUT

/-- `fingerprint`: the SHA-256 of the bytes, where the text is their base64; only a request body may
be empty. -/
def fingerprint (s : String) (mayBeEmpty : Bool) : Option String :=
  (base64Bytes? s).bind fun bytes =>
    if base64Text bytes = s ∧ bytes.length ≤ 4096 ∧ (bytes = [] → mayBeEmpty = true)
      then some (w.fingerprint bytes)
    else none

/-- The digests are those of the bytes. -/
def CheckpointFields.checked (c : CheckpointFields) : Bool :=
  fingerprint w c.originalBytes.requestBody true == some c.digests.requestBody.1
    && fingerprint w c.originalBytes.paymentPayload false == some c.digests.paymentPayload.1
    && fingerprint w c.originalBytes.paymentRequirements false ==
    some c.digests.paymentRequirements.1
    && fingerprint w c.originalBytes.context false == some c.digests.context.1

def digestsCodec : Codec Failure (Originals {s : String // Text.isHash s = true}) :=
  originalsCodec (.text Text.isHash .INVALID_INPUT)

/-- The pins of a checkpoint: its binding and its digests. -/
structure Pins where
  binding : {b : PaymentBinding // b.checked w = true}
  digests : Originals {s : String // Text.isHash s = true}
  deriving DecidableEq

def pinsCodec : Codec Failure (Pins w) :=
  (object (.cons "binding" (bindingCodec w)
    (.cons "digests" digestsCodec
      .nil)) Failure.INVALID_INPUT (show ["binding", "digests"].Nodup by decide)).equiv
    { toFun := fun (a, b, _) => ⟨a, b⟩
      invFun := fun p => (p.binding, p.digests, ())
      left_inv := fun _ => rfl
      right_inv := fun _ => rfl }

structure Checkpoint where
  pins : Pins w
  originalBytes : Originals String
  deriving DecidableEq

def Checkpoint.fields {w : Wire} (c : Checkpoint w) : CheckpointFields :=
  ⟨c.pins.binding.1, c.originalBytes, c.pins.digests⟩

def checkpointCodec : Codec Failure {c : Checkpoint w // c.fields.checked w = true} :=
  ((object (.const "version" (.constNum 1 .INVALID_INPUT)
    (.const "authorization" (.constStr "NONE" .INVALID_INPUT)
    (.cons "binding" (bindingCodec w)
    (.cons "originalBytes" (originalsCodec (.string .INVALID_INPUT))
    (.cons "digests" digestsCodec
      .nil))))) Failure.INVALID_INPUT
    (show ["version", "authorization", "binding", "originalBytes",
      "digests"].Nodup by decide)).equiv
    { toFun := fun (a, b, c, _) => (⟨⟨a, c⟩, b⟩ : Checkpoint w)
      invFun := fun c => (c.pins.binding, c.originalBytes, c.pins.digests, ())
      left_inv := fun _ => rfl
      right_inv := fun _ => rfl }).refine (fun c => c.fields.checked w) .INVALID_INPUT

/-- `restoreOriginalPaymentCheckpoint`: the checkpoint of a text, if it has the pins that are
expected. -/
def restoreOriginalPaymentCheckpoint (serialized : String) (expectedPins : Value) :
    Except Failure (Checkpoint w) := do
  let pins ← (pinsCodec w).decode expectedPins
  let c ← (checkpointCodec w).ofText 32768 .INVALID_INPUT (.str serialized)
  rejectIf (c.1.pins ≠ pins) .INVALID_INPUT
  .ok c.1

/-- `JSON.stringify({ binding: checkpoint.binding, digests: checkpoint.digests })`, of a
checkpoint's text; what has no binding or no digests has no pins. -/
def derivedPins (paymentCheckpointJson : String) : Option String :=
  match parse paymentCheckpointJson with
  | some (.obj members) => match members.lookup "binding", members.lookup "digests" with
    | some binding, some digests =>
        some (stringify (.obj [("binding", binding), ("digests", digests)]))
    | _, _ => none
  | _ => none

/-! ### Originals of requests -/

structure PurchasedOriginal where
  termsJson : String
  serviceRequestCustodyJson : String
  paymentCheckpointJson : String
  deriving DecidableEq

def purchasedOriginalCodec : Codec Failure PurchasedOriginal :=
  (object (.const "purchaseVersion" (.constNum 1 .INVALID_INPUT)
    (.const "profile" (.constStr "zenon-x402.purchased-original.v1" .INVALID_INPUT)
    (.cons "termsJson" (.string .INVALID_INPUT)
    (.cons "serviceRequestCustodyJson" (.string .INVALID_INPUT)
    (.cons "paymentCheckpointJson" (.string .INVALID_INPUT)
      .nil))))) Failure.INVALID_INPUT).equiv
    { toFun := fun (a, b, c, _) => ⟨a, b, c⟩
      invFun := fun o => (o.termsJson, o.serviceRequestCustodyJson, o.paymentCheckpointJson, ())
      left_inv := fun _ => rfl
      right_inv := fun _ => rfl }

def purchasedTermsStorageDigest (termsJson : String) : Except Failure Hash := do
  let _ ← snapshotPurchasedServiceTerms termsJson
  .ok (digest w "zenon-x402:purchased-terms-storage:v1" termsJson)

/-- `capturePurchaseStorageTerms`: the terms, if they have the digest that was selected. -/
def capturePurchaseStorageTerms (termsJson : String) (independentlySelectedDigest : Hash) :
    Except Failure Terms := do
  let termsDigest ← purchasedTermsStorageDigest w termsJson
  rejectIf (termsDigest ≠ independentlySelectedDigest) .INVALID_INPUT
  snapshotPurchasedServiceTerms termsJson

/-- A stored original, with what it was captured from. -/
structure StoredOriginal where
  orderId : Id
  termsJson : String
  termsDigest : Hash
  request : Request
  paymentCheckpointJson : String
  recordJson : String
  recordDigest : Hash
  deriving DecidableEq

/-- `restorePurchasedServiceOriginal`: the original's texts, and what they say together. -/
def restorePurchasedServiceOriginal (recordJson : String) (expectedDigest : Hash)
    (paymentPinsJson : String) :
    Except Failure (PurchasedOriginal × Request) := do
  let record ← purchasedOriginalCodec.ofText 65536 .INVALID_INPUT (.str recordJson)
  rejectIf (digest w "zenon-x402.purchased-original.v1" recordJson ≠ expectedDigest) .INVALID_INPUT
  let terms ← snapshotPurchasedServiceTerms record.termsJson
  let pins ← orReject (parse paymentPinsJson) .INVALID_INPUT
  let checkpoint ← restoreOriginalPaymentCheckpoint w record.paymentCheckpointJson pins
  let request ← orReject (w.request terms record.serviceRequestCustodyJson checkpoint.fields)
      .INVALID_INPUT
  .ok (record, request)

def capturePurchaseStorageOriginal (recordJson : String) (recordDigest : Hash)
    (paymentPinsJson : String) (termsDigest : Hash) : Except Failure StoredOriginal := do
  rejectIf (isText 4096 paymentPinsJson = false) .INVALID_INPUT
  let (record, request) ← restorePurchasedServiceOriginal w recordJson recordDigest paymentPinsJson
  let terms ← capturePurchaseStorageTerms w record.termsJson termsDigest
  .ok ⟨terms.orderId, record.termsJson, termsDigest, request, record.paymentCheckpointJson,
    recordJson, recordDigest⟩

/-- The string under a key. -/
def textMember (v : Value) (key : String) : Option String := match v with
  | .obj members => match members.lookup key with
    | some (.str s) => some s
    | _ => none
  | _ => none

def inspectStoredPurchaseOriginal (recordJson : String) (recordDigest : Hash) :
    Except Failure StoredOriginal := do
  let record ← orReject (parse recordJson) .INVALID_INPUT
  let checkpointJson ← orReject (textMember record "paymentCheckpointJson") .INVALID_INPUT
  let pinsJson ← orReject (derivedPins checkpointJson) .INVALID_INPUT
  let termsJson ← orReject (textMember record "termsJson") .INVALID_INPUT
  let termsDigest ← purchasedTermsStorageDigest w termsJson
  capturePurchaseStorageOriginal w recordJson recordDigest pinsJson termsDigest

/-! ### The payment of an order -/

/-- A payment as it was captured with its order. -/
structure OrderPayment where
  termsJson : String
  termsDigest : Hash
  paymentCheckpointJson : String
  fundingContextJson : String
  terms : Terms
  rules : Policy
  checkpoint : Checkpoint w
  issue : Issue

structure PaymentRecord where
  termsJson : String
  paymentCheckpointJson : String
  fundingContextJson : String
  deriving DecidableEq

def paymentRecordCodec : Codec Failure PaymentRecord :=
  (object (.const "version" (.constNum 1 .INVALID_INPUT)
    (.const "profile" (.constStr "zenon-x402.order-funding.v1" .INVALID_INPUT)
    (.cons "termsJson" (.string .INVALID_INPUT)
    (.cons "paymentCheckpointJson" (.string .INVALID_INPUT)
    (.cons "fundingContextJson" (.string .INVALID_INPUT)
      .nil))))) Failure.INVALID_INPUT).equiv
    { toFun := fun (a, b, c, _) => ⟨a, b, c⟩
      invFun := fun r => (r.termsJson, r.paymentCheckpointJson, r.fundingContextJson, ())
      left_inv := fun _ => rfl
      right_inv := fun _ => rfl }

namespace OrderPayment

variable {w : Wire}

def record (p : OrderPayment w) : PaymentRecord :=
  ⟨p.termsJson, p.paymentCheckpointJson, p.fundingContextJson⟩

def paymentRecordJson (p : OrderPayment w) : String :=
  stringify (paymentRecordCodec.encode p.record)

def paymentRecordDigest (p : OrderPayment w) : Hash :=
  digest w "zenon-x402.order-funding.v1:original" p.paymentRecordJson

end OrderPayment

def contextNames : List String :=
  ["version", "orderId", "acceptedTermsDigest", "policyJson", "offer", "challenge",
    "authorityProfile"]

/-- The policy in the context of an order's funding, for accepted terms. -/
def fundingContext (terms : Terms) (termsDigest : Hash) (raw : String) : Except Failure Policy := do
  rejectIf (isText 65536 raw = false ∨ w.isExact raw = false) .INVALID_INPUT
  let v ← orReject (parse raw) .INVALID_INPUT
  let (order, get) ← orReject (fields contextNames v) .INVALID_INPUT
  rejectIf (order ≠ Js.Order.given contextNames) .INVALID_INPUT
  rejectIf ((get "version").strictEq (.num 1) = false
    ∨ (get "orderId").strictEq (.str terms.orderId.1) = false
    ∨ (get "acceptedTermsDigest").strictEq (.str termsDigest.1) = false
    ∨ textMember (get "offer") "serviceId" ≠ some terms.productId.1) .INVALID_INPUT
  let policyJson ← orReject (textMember v "policyJson") .INVALID_INPUT
  let rules ← policy policyJson
  rejectIf (digest w "zenon-x402.purchase-fulfillment.v1:policy" policyJson
    ≠ terms.conditionsDigest) .INVALID_INPUT
  .ok rules

/-- `json(paymentPinsJson, 4096)`: pins that are written exactly as `JSON.stringify` writes them. -/
def exactPins (paymentPinsJson : String) : Except Failure Value := do
  rejectIf (isText 4096 paymentPinsJson = false) .INVALID_INPUT
  let pins ← orReject (parse paymentPinsJson) .INVALID_INPUT
  rejectIf (stringify pins ≠ paymentPinsJson) .INVALID_INPUT
  .ok pins

def capturePurchasedOrderPayment (termsJson : String) (termsDigest : Hash)
    (paymentCheckpointJson paymentPinsJson fundingContextJson : String) :
    Except Failure (OrderPayment w) := do
  let terms ← capturePurchaseStorageTerms w termsJson termsDigest
  let rules ← fundingContext w terms termsDigest fundingContextJson
  let pins ← exactPins paymentPinsJson
  let checkpoint ← restoreOriginalPaymentCheckpoint w paymentCheckpointJson pins
  let issue ← orReject (w.issue terms fundingContextJson checkpoint.fields) .INVALID_INPUT
  rejectIf (rules.offerExpiresAtMs.1 ≠ issue.expiresAt) .INVALID_INPUT
  let p : OrderPayment w :=
    ⟨termsJson, termsDigest, paymentCheckpointJson, fundingContextJson, terms, rules,
      checkpoint, issue⟩
  rejectIf (isText 131072 p.paymentRecordJson = false) .INVALID_INPUT
  .ok p

/-! ### Derived pins -/

variable {w}

theorem restore_ok {serialized : String} {v : Value} {c : Checkpoint w} :
    restoreOriginalPaymentCheckpoint w serialized v = .ok c ↔
    ∃ h : c.fields.checked w = true, (pinsCodec w).decode v = .ok c.pins
      ∧ serialized = stringify ((checkpointCodec w).encode ⟨c, h⟩)
      ∧ serialized.utf8ByteSize ≤ 32768 := by
  unfold restoreOriginalPaymentCheckpoint
  simp only [bind_ok, rejectIf_ok, Codec.ofText_ok, Except.ok.injEq, Value.str.injEq]
  constructor
  · rintro ⟨pins, hpins, ⟨c', h⟩, ⟨htext, hsize⟩, _, heq, rfl⟩
    rw [ne_eq, not_not] at heq
    subst heq
    exact ⟨h, hpins, htext, htext ▸ hsize⟩
  · rintro ⟨h, hpins, htext, hsize⟩
    exact ⟨c.pins, hpins, ⟨c, h⟩, ⟨htext, htext ▸ hsize⟩, (), by simp, rfl⟩

theorem decode_pins (p : Pins w) : (pinsCodec w).decode ((pinsCodec w).encode p) = .ok p :=
  Codec.decode_encode_self _ _

/-- The pins of a checkpoint's text are those of the checkpoint. -/
theorem derivedPins_text (c : {c : Checkpoint w // c.fields.checked w = true}) :
    derivedPins (stringify ((checkpointCodec w).encode c))
      = some (stringify ((pinsCodec w).encode c.1.pins)) := by
  unfold derivedPins
  rw [parse_stringify ((checkpointCodec w).json_encode c)]
  rfl

theorem isText_iff {cap : Nat} {s : String} :
    isText cap s = true ↔ s ≠ "" ∧ s.utf8ByteSize ≤ cap := by
  unfold isText
  simp

theorem isText_stringify {v : Value} {cap : Nat} (h : v.textSize ≤ cap) :
    isText cap (stringify v) = true := by
  have hpos := Value.one_le_textSize v
  have hsize := Value.size_stringify v
  refine isText_iff.mpr ⟨fun hempty => ?_, by omega⟩
  rw [hempty] at hsize
  have hzero : ("" : String).utf8ByteSize = 0 := rfl
  omega

theorem isText_of_size {s : String} {n cap : Nat} (h : s.utf8ByteSize ≤ n) (hn : n ≤ cap)
    (hne : s ≠ "") :
    isText cap s = true := isText_iff.mpr ⟨hne, h.trans hn⟩

theorem stringify_ne_empty (v : Value) : stringify v ≠ "" :=
  (isText_iff.mp (isText_stringify (le_refl v.textSize))).1

theorem size_hash (h : Hash) : h.1.utf8ByteSize = 71 :=
  Text.size_prefixed h.2 (by decide) fun _ hc => Text.isAscii_isHexLower hc

theorem size_id (s : Id) : s.1.utf8ByteSize ≤ 128 := by
  refine Text.size_headTail s.2 (fun _ hc => Text.isAscii_isAlnum hc) fun c hc => ?_
  rcases Bool.or_eq_true_iff.mp hc with hc | hc
  · exact Text.isAscii_isAlnum hc
  · exact Text.isAscii_oneOf (by decide) hc

theorem exactPins_ok {pinsJson : String} {pins : Value} : exactPins pinsJson = .ok pins ↔
    isText 4096 pinsJson = true ∧ parse pinsJson = some pins ∧ stringify pins = pinsJson := by
  unfold exactPins
  simp only [bind_ok, rejectIf_ok, orReject_ok, Except.ok.injEq, Bool.not_eq_false, ne_eq, not_not]
  constructor
  · rintro ⟨_, htext, pins', hparse, _, hexact, rfl⟩
    exact ⟨htext, hparse, hexact⟩
  · rintro ⟨htext, hparse, hexact⟩
    exact ⟨(), htext, pins, hparse, (), hexact, rfl⟩

/-- A checkpoint that is restored under pins that are written exactly is restored under the derived
ones: their text is as long. -/
theorem restore_derived {serialized pinsJson : String} {pins : Value} {c : Checkpoint w}
    (hpins : exactPins pinsJson = .ok pins)
    (h : restoreOriginalPaymentCheckpoint w serialized pins = .ok c) :
    ∃ derived, derivedPins serialized = some derived ∧ exactPins derived
      = .ok ((pinsCodec w).encode c.pins)
      ∧ restoreOriginalPaymentCheckpoint w serialized ((pinsCodec w).encode c.pins) = .ok c := by
  obtain ⟨htext, -, hexact⟩ := exactPins_ok.mp hpins
  obtain ⟨hc, hdecode, rfl, hsize⟩ := restore_ok.mp h
  refine ⟨_, derivedPins_text ⟨c, hc⟩, exactPins_ok.mpr ⟨isText_stringify ?_, ?_, rfl⟩, ?_⟩
  · rw [((pinsCodec w).same_of_decode pins c.pins hdecode).textSize, ← Value.size_stringify, hexact]
    exact (isText_iff.mp htext).2
  · exact parse_stringify ((pinsCodec w).json_encode _)
  · exact restore_ok.mpr ⟨hc, decode_pins c.pins, rfl, hsize⟩

theorem restoreOriginal_ok {recordJson pinsJson : String} {recordDigest : Hash}
    {record : PurchasedOriginal} {request : Request} :
    restorePurchasedServiceOriginal w recordJson recordDigest pinsJson = .ok (record, request) ↔
    purchasedOriginalCodec.ofText 65536 .INVALID_INPUT (.str recordJson) = .ok record
      ∧ digest w "zenon-x402.purchased-original.v1" recordJson = recordDigest
      ∧ ∃ terms pins checkpoint, snapshotPurchasedServiceTerms record.termsJson = .ok terms
      ∧ parse pinsJson = some pins
        ∧ restoreOriginalPaymentCheckpoint w record.paymentCheckpointJson pins = .ok checkpoint
        ∧ w.request terms record.serviceRequestCustodyJson checkpoint.fields = some request := by
  unfold restorePurchasedServiceOriginal
  simp only [bind_ok, rejectIf_ok, orReject_ok, Except.ok.injEq, Prod.mk.injEq, ne_eq, not_not]
  constructor
  · rintro ⟨record', hrecord, _, hdigest, terms, hterms, pins, hpins, c, hc, request',
      hrequest, rfl, rfl⟩
    exact ⟨hrecord, hdigest, terms, pins, c, hterms, hpins, hc, hrequest⟩
  · rintro ⟨hrecord, hdigest, terms, pins, c, hterms, hpins, hc, hrequest⟩
    exact ⟨record, hrecord, (), hdigest, terms, hterms, pins, hpins, c, hc, request,
      hrequest, rfl, rfl⟩

theorem captureTerms_ok {termsJson : String} {termsDigest : Hash} {terms : Terms} :
    capturePurchaseStorageTerms w termsJson termsDigest = .ok terms ↔
      snapshotPurchasedServiceTerms termsJson = .ok terms ∧ purchasedTermsStorageDigest w termsJson
        = .ok termsDigest := by
  unfold capturePurchaseStorageTerms
  simp only [bind_ok, rejectIf_ok, ne_eq, not_not]
  constructor
  · rintro ⟨digest, hdigest, _, rfl, hterms⟩
    exact ⟨hterms, hdigest⟩
  · rintro ⟨hterms, hdigest⟩
    exact ⟨termsDigest, hdigest, (), rfl, hterms⟩

theorem captureOriginal_ok {recordJson pinsJson : String} {recordDigest termsDigest : Hash}
    {o : StoredOriginal} :
    capturePurchaseStorageOriginal w recordJson recordDigest pinsJson termsDigest = .ok o ↔
      isText 4096 pinsJson = true ∧ ∃ record request terms,
        restorePurchasedServiceOriginal w recordJson recordDigest pinsJson = .ok (record, request)
          ∧ capturePurchaseStorageTerms w record.termsJson termsDigest = .ok terms
          ∧ o = ⟨terms.orderId, record.termsJson, termsDigest, request,
            record.paymentCheckpointJson, recordJson, recordDigest⟩ := by
  unfold capturePurchaseStorageOriginal
  simp only [bind_ok, rejectIf_ok, Except.ok.injEq, Bool.not_eq_false]
  constructor
  · rintro ⟨_, htext, ⟨record, request⟩, hrestore, terms, hterms, rfl⟩
    exact ⟨htext, record, request, terms, hrestore, hterms, rfl⟩
  · rintro ⟨htext, record, request, terms, hrestore, hterms, rfl⟩
    exact ⟨(), htext, (record, request), hrestore, terms, hterms, rfl⟩

/-- What is captured under pins that are written exactly is found under the derived pins. -/
theorem inspect_of_capture {recordJson pinsJson : String} {recordDigest termsDigest : Hash}
    {o : StoredOriginal} {pins : Value}
    (h : capturePurchaseStorageOriginal w recordJson recordDigest pinsJson termsDigest = .ok o)
    (hpins : exactPins pinsJson = .ok pins) :
    inspectStoredPurchaseOriginal w recordJson recordDigest = .ok o := by
  obtain ⟨-, record, request, terms, hrestore, hterms, ho⟩ := captureOriginal_ok.mp h
  obtain ⟨hrecord, hdigest, terms', pins', checkpoint, hsnapshot, hpins', hcheckpoint, hrequest⟩ :=
    restoreOriginal_ok.mp hrestore
  obtain rfl := Option.some.inj ((exactPins_ok.mp hpins).2.1.symm.trans hpins')
  obtain ⟨derived, hderived, hexact, hdrestore⟩ := restore_derived hpins hcheckpoint
  obtain ⟨hdtext, hdparse, -⟩ := exactPins_ok.mp hexact
  obtain ⟨hraw, -⟩ := Codec.ofText_ok.mp hrecord
  have hparsed : parse recordJson = some (purchasedOriginalCodec.encode record) := by
    rw [Value.str.inj hraw]
    exact parse_stringify (purchasedOriginalCodec.json_encode record)
  unfold inspectStoredPurchaseOriginal
  simp only [bind_ok, orReject_ok]
  refine ⟨_, hparsed, record.paymentCheckpointJson, rfl, derived, hderived, record.termsJson,
    rfl, termsDigest, (captureTerms_ok.mp hterms).2, ?_⟩
  exact captureOriginal_ok.mpr ⟨hdtext, record, request, terms,
    restoreOriginal_ok.mpr ⟨hrecord, hdigest, terms', _, checkpoint, hsnapshot, hdparse, hdrestore,
      hrequest⟩, hterms, ho⟩

theorem captureOrder_ok
    {termsJson paymentCheckpointJson paymentPinsJson fundingContextJson : String}
    {termsDigest : Hash} {p : OrderPayment w} :
    capturePurchasedOrderPayment w termsJson termsDigest paymentCheckpointJson paymentPinsJson
    fundingContextJson = .ok p ↔
      p.termsJson = termsJson ∧ p.termsDigest = termsDigest ∧ p.paymentCheckpointJson
        = paymentCheckpointJson
        ∧ p.fundingContextJson = fundingContextJson
        ∧ capturePurchaseStorageTerms w termsJson termsDigest = .ok p.terms
        ∧ fundingContext w p.terms termsDigest fundingContextJson = .ok p.rules
        ∧ (∃ pins, exactPins paymentPinsJson = .ok pins
          ∧ restoreOriginalPaymentCheckpoint w paymentCheckpointJson pins = .ok p.checkpoint)
        ∧ w.issue p.terms fundingContextJson p.checkpoint.fields = some p.issue
        ∧ p.rules.offerExpiresAtMs.1 = p.issue.expiresAt
        ∧ isText 131072 p.paymentRecordJson = true := by
  unfold capturePurchasedOrderPayment
  simp only [bind_ok, rejectIf_ok, orReject_ok, Except.ok.injEq, Bool.not_eq_false, ne_eq, not_not]
  constructor
  · rintro ⟨terms, hterms, rules, hrules, pins, hpins, checkpoint, hcheckpoint, issue, hissue, _,
      hexpires, _, htext, rfl⟩
    exact ⟨rfl, rfl, rfl, rfl, hterms, hrules, ⟨pins, hpins, hcheckpoint⟩, hissue, hexpires, htext⟩
  · rintro ⟨rfl, rfl, rfl, rfl, hterms, hrules, ⟨pins, hpins, hcheckpoint⟩, hissue, hexpires, htext⟩
    exact ⟨p.terms, hterms, p.rules, hrules, pins, hpins, p.checkpoint, hcheckpoint, p.issue,
      hissue, (), hexpires, (), htext, rfl⟩

/-- The payment of an order is also captured under the derived pins. -/
theorem captureOrder_derived
    {termsJson paymentCheckpointJson paymentPinsJson fundingContextJson : String}
    {termsDigest : Hash} {p : OrderPayment w}
    (h : capturePurchasedOrderPayment w termsJson termsDigest
      paymentCheckpointJson paymentPinsJson fundingContextJson = .ok p) :
    ∃ derived, derivedPins paymentCheckpointJson = some derived
      ∧ capturePurchasedOrderPayment w termsJson termsDigest paymentCheckpointJson derived
      fundingContextJson = .ok p := by
  obtain ⟨hp, hd, hcheckpoint, hcontext, hterms, hrules, ⟨pins, hpins, hrestore⟩, hissue,
    hexpires, htext⟩ :=
    captureOrder_ok.mp h
  obtain ⟨derived, hderived, hexact, hdrestore⟩ := restore_derived hpins hrestore
  exact ⟨derived, hderived,
    captureOrder_ok.mpr ⟨hp, hd, hcheckpoint, hcontext, hterms, hrules, ⟨_, hexact, hdrestore⟩,
      hissue, hexpires, htext⟩⟩

end Order
end ZenonX402
