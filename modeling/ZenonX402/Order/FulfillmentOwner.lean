/-
# Owners of a fulfillment record

`createPurchasedOrderFulfillmentOwner`: an owner recovers the record of its order
and moves it on, one step at a time: it records the verified funding, begins a
delivery, records what a proof says of one, retains the original of a
compensation, and records what a proof says of that. A record is proposed to the
store only if the owner would take it itself (`commit`).

Every operation is synchronous; what a port does meanwhile is its `Answer`, and an
owner that is called again meanwhile is busy and does nothing. Any number of owners
of one order take turns on one store (`practice`). A view of a record is
logged as it is returned.

Key definitions: `Owner`, `View`, `commit`, `recover`, `recordVerifiedFunding`, `beginDelivery`,
`recordDelivery`, `retainCompensation`, `recordCompensation`, `practice`.
-/
import ZenonX402.Lib.Desk
import ZenonX402.Order.Fulfillment

namespace ZenonX402
namespace Order
namespace Fulfillment

open Js Prog

variable {w : Wire} {p : OrderPayment w}

/-! ### Views -/

inductive Liability
  | PAYMENT_NOT_VERIFIED
  | SATISFIED
  | DELIVERY_OR_COMPENSATION_OWED
  deriving DecidableEq, Repr

structure View where
  orderId : Id
  changed : Bool
  quantityUnit : Id
  purchasedQuantity : Positive
  grantFundingUnits : Nat
  fundingRecorded : Bool
  deliveredQuantity : Nat
  uncertainDeliveryQuantity : Nat
  compensatedQuantity : Nat
  quantityOwed : Int
  liability : Liability
  offerExpired : Bool
  reservationExpired : Bool
  verificationObservedAtMs : Option Count
  verificationObservedAfterOfferExpiry : Option Bool
  grantSelectedForDelivery : Bool
  unresolvedDelivery : Bool
  compensationStatus : Option CompensationStatus
  requiresReconciliation : Bool

/-- The quantity that a compensation pays back, once it is confirmed. -/
def compensatedQuantity (s : FulfillmentRecord) : Nat := match s.compensation with
  | none => 0
  | some c => if c.status = .CONFIRMED then
      match compensationOriginal c.originalJson with
      | .ok o => o.quantity.value
      | .error _ => 0
    else 0

/-- When the funding of a record was observed, as its receipt says. -/
def observedAt (s : FulfillmentRecord) : Option Count := s.fundingReceiptJson.bind fun raw =>
  match receiptCodec.ofText 524288 Order.Failure.INVALID_INPUT (.str raw) with
  | .ok f => f.verificationObservedAtMs
  | .error _ => none

/-- The quantity that is owed. -/
def quantityOwed (p : OrderPayment w) (s : FulfillmentRecord) : Int :=
  if s.fundingReceiptJson = none then 0
  else p.terms.quantity.value - (counts s).delivered - compensatedQuantity s

/-- The view of a record at a time, without what is the same in every view. -/
def viewOf (p : OrderPayment w) (s : FulfillmentRecord) (changed : Bool) (at' : Count) : View where
  orderId := p.terms.orderId
  changed := changed
  quantityUnit := p.rules.quantityUnit
  purchasedQuantity := p.terms.quantity
  grantFundingUnits := p.issue.totalUnits
  fundingRecorded := s.fundingReceiptJson.isSome
  deliveredQuantity := (counts s).delivered
  uncertainDeliveryQuantity := (counts s).uncertain
  compensatedQuantity := compensatedQuantity s
  quantityOwed := quantityOwed p s
  liability := if s.fundingReceiptJson = none then .PAYMENT_NOT_VERIFIED
    else if quantityOwed p s = 0 then .SATISFIED else .DELIVERY_OR_COMPENSATION_OWED
  offerExpired := decide (p.rules.offerExpiresAtMs.1 ≤ at'.1)
  reservationExpired := decide (p.rules.reservationExpiresAtMs.1 ≤ at'.1)
  verificationObservedAtMs := observedAt s
  verificationObservedAfterOfferExpiry :=
    if s.fundingReceiptJson = none then none
    else (observedAt s).map fun observed => decide (p.rules.offerExpiresAtMs.1 ≤ observed.1)
  grantSelectedForDelivery := decide (s.deliveries ≠ [])
  unresolvedDelivery := decide ((counts s).uncertain ≠ 0)
  compensationStatus := s.compensation.map Compensation.status
  requiresReconciliation := decide ((counts s).uncertain ≠ 0) || match s.compensation with
    | none => false
    | some c => decide (c.status ≠ .CONFIRMED)

/-! ### Owners -/

/-- An owner: the record that was last loaded or stored. -/
structure Owner (p : OrderPayment w) where
  setup : Setup p
  closed : Bool
  held : Bool
  recovered : Bool
  current : Option FulfillmentRecord

def Owner.create (setup : Setup p) : Owner p := ⟨setup, false, false, false, none⟩

def Owner.close (o : Owner p) : Owner p := { o with closed := true }

def Owner.recover (o : Owner p) : Owner p := { o with recovered := true }

/-- What the owner with a number does: it hands a swap to the store, which stores it or not; it
returns a view. -/
inductive Deed
  | proposed (owner : Nat) (expected : Option FulfillmentRecord) (next : FulfillmentRecord)
      (stored : Bool)
  | viewed (owner : Nat) (v : View)

instance : Guarded (Owner p) where
  closed o := o.closed
  closing closes o := { o with closed := o.closed || closes }
  held o := { o with held := true }

def keeping (p : OrderPayment w) : Keeping (Owner p) FulfillmentRecord Deed where
  text := FulfillmentRecord.text
  current o := o.current
  keep s o := { o with current := some s }
  proposed := .proposed

abbrev Work (p : OrderPayment w) (α : Type) := Prog (Desk (Owner p) Deed) Failure α

/-- `alive`, and whether the owner is recovered where it needs to be. -/
def start (needsRecovery : Bool) : Work p Unit := do
  let x ← get
  failIf (x.owner.closed = true) .CLOSED
  failIf (x.owner.held = true) .HELD
  failIf (needsRecovery = true ∧ x.owner.recovered = false) .RECOVERY_REQUIRED

/-- The record that the owner knows. -/
def cached : Work p FulfillmentRecord := do
  let x ← get
  orFail x.owner.current .INVALID_INPUT

def view (s : FulfillmentRecord) (changed : Bool) (clock : Answer) : Work p View := do
  let at' ← now clock .CLOSED .CLOCK_UNKNOWN
  let x ← get
  modify (Desk.record (.viewed x.index (viewOf p s changed at')))
  pure (viewOf p s changed at')

def commit (next : FulfillmentRecord) (e : Exchange) (clock : Answer) : Work p View := do
  let x ← get
  let checked ← lift (validate x.owner.setup (.str next.text))
  if x.owner.current.map FulfillmentRecord.text = some next.text then view checked false clock
  else do
    let s ← (keeping p).exchange checked e .CLOSED .COMMIT_UNKNOWN .COMMIT_UNKNOWN
    view s true clock

/-! ### What is read -/

/-- The receipt of an envelope of the funding's store, once it is verified. -/
def selectedFunding (setup : Setup p) (raw : Value) : Except Failure (Option String) := do
  let e ← failWith (envelope (fundingContract w) raw) .INVALID_INPUT
  rejectIf (e.1.binding ≠ ⟨setup.fundingStoreId, p.terms.orderId, p.issue.paymentScope⟩)
    .INVALID_INPUT
  match e.1.record with
  | none => .ok none
  | some receiptJson => do
    let f ← failWith (receipt w (.str receiptJson)) .INVALID_INPUT
    rejectIf (f.binding.paymentRecordJson ≠ p.paymentRecordJson ∨ f.binding.paymentRecordDigest
      ≠ p.paymentRecordDigest)
      .INVALID_INPUT
    if f.phase ≠ .VERIFIED then .ok none
    else do
      let _ ← fundingReceipt p (.str receiptJson)
      .ok (some receiptJson)

def sourceFunding (funding : Answer) : Work p (Option String) := do
  let raw ← ask funding .CLOSED .FUNDING_READ_UNKNOWN
  if raw.strictEq .null = true then pure none
  else do
    let x ← get
    match selectedFunding x.owner.setup raw with
    | .error _ => hold .FUNDING_READ_UNKNOWN
    | .ok f => pure f

def member (v : Value) (name : String) : Except Failure Value := match v with
  | .obj members => orReject (members.lookup name) .INVALID_INPUT
  | _ => .error .INVALID_INPUT

/-- The store of originals has this one. -/
def checkRetained (observed : Value) (raw : String) (digest : Hash) : Except Failure Unit := do
  rejectIf (observed.strictEq .null = true) .ORIGINAL_NOT_RETAINED
  let recordJson ← member observed "recordJson"
  rejectIf (recordJson.strictEq (.str raw) = false) .ORIGINAL_NOT_RETAINED
  let recordDigest ← member observed "recordDigest"
  rejectIf (recordDigest.strictEq (.str digest.1) = false) .ORIGINAL_NOT_RETAINED

def retainedOriginal (raw : String) (digest : Hash) (observed : Answer) :
    Work p StoredOriginal := do
  let x ← get
  let o ← lift (original x.owner.setup raw digest)
  let v ← ask observed .CLOSED .ORIGINAL_READ_UNKNOWN
  let _ ← lift (checkRetained v raw digest)
  pure o

/-- The originals of the deliveries, from the read with a number on. -/
def retainedOriginals (reads : Nat → Answer) : Nat → List Delivery → Work p Unit
  | _, [] => pure ()
  | n, d :: rest => do
    let _ ← retainedOriginal d.originalJson d.originalDigest (reads n)
    retainedOriginals reads (n + 1) rest

def text (cap : Nat) : Value → Option String
  | .str s => if isText cap s = true then some s else none
  | _ => none

/-- `verified`: the text that a verifier returns for a candidate. -/
def verified (candidate : Value) (a : Answer) : Work p String := do
  let _ ← orFail (text 16384 candidate) .INVALID_INPUT
  modify (Guarded.closing a.closes)
  let x ← get
  if x.owner.closed = true then hold .CLOSED
  else orFail (a.value.bind (text 4096)) .PROOF_REJECTED

/-! ### Operations -/

/-- The record before the funding is recorded. -/
def Setup.initial (setup : Setup p) : FulfillmentRecord := ⟨setup.binding, none, [], none⟩

/-- The funding of a recovered record is still what its store has. -/
def sameFunding (s : FulfillmentRecord) (funding : Answer) : Work p Unit :=
  match s.fundingReceiptJson with
  | none => pure ()
  | some receiptJson => do
    let raw ← sourceFunding funding
    if raw = some receiptJson then pure () else hold .FUNDING_SOURCE_CONFLICT

/-- What was loaded is taken, if it is a record with the funding and the originals that its stores
have. -/
def adopt (raw : Value) (funding : Answer) (reads : Nat → Answer) (clock : Answer) :
    Work p View := do
  let x ← get
  match validate x.owner.setup raw with
  | .error _ => hold .CORRUPT
  | .ok s => do
    sameFunding s funding
    orHold (retainedOriginals reads 0 s.deliveries) .CLOSED .ORIGINAL_RECOVERY_UNKNOWN
    modify (Desk.alter fun o => ((keeping p).keep s o).recover)
    view s false clock

def recover (loaded funding : Answer) (reads : Nat → Answer) (e : Exchange) (clock : Answer) :
    Work p View := do
  start false
  let x ← get
  failIf (x.owner.recovered = true) .ALREADY_RECOVERED
  let raw ← ask loaded .CLOSED .READ_UNKNOWN
  if raw.strictEq .null = true then do
    let v ← commit x.owner.setup.initial e clock
    modify (Desk.alter Owner.recover)
    pure v
  else adopt raw funding reads clock

/-- The funding of a record that has one already. -/
def confirmFunding (s : FulfillmentRecord) (known raw : String) (clock : Answer) : Work p View :=
  if known ≠ raw then hold .FUNDING_SOURCE_CONFLICT else view s false clock

def recordVerifiedFunding (funding : Answer) (e : Exchange) (clock : Answer) : Work p View := do
  start true
  let source ← sourceFunding funding
  let raw ← orFail source .FUNDING_NOT_VERIFIED
  let s ← cached
  match s.fundingReceiptJson with
  | some known => confirmFunding s known raw clock
  | none => commit { s with fundingReceiptJson := some raw } e clock

/-- A delivery that is begun. -/
def pendingDelivery (raw : String) (digest : Hash) (deliveryId : Id) (quantity : Positive)
    (o : StoredOriginal) : Delivery where
  deliveryId := deliveryId
  originalJson := raw
  originalDigest := digest
  requestScope := o.request.requestScope
  requestId := o.request.requestId
  grantId := o.request.grantId
  serviceResourceUrl := o.request.serviceResourceUrl
  quantity := quantity
  status := .PENDING
  proofJson := none

/-- A delivery that is not yet in the record. -/
def newDelivery (s : FulfillmentRecord) (d : Delivery) (e : Exchange) (clock : Answer) :
    Work p View := do
  failIf (s.compensation ≠ none) .COMPENSATION_ALREADY_RETAINED
  failIf (∃ first ∈ s.deliveries.head?, first.grantId ≠ d.grantId ∨ first.serviceResourceUrl
    ≠ d.serviceResourceUrl)
    .SERVICE_SELECTION_CONFLICT
  failIf (p.rules.maximumDeliveries.1 ≤ s.deliveries.length) .DELIVERY_LIMIT
  failIf (p.terms.quantity.value < (counts s).reserved + d.quantity.value) .QUANTITY_LIMIT
  commit { s with deliveries := s.deliveries ++ [d] } e clock

/-- A delivery that is in the record already. -/
def priorDelivery (s : FulfillmentRecord) (prior d : Delivery) (clock : Answer) : Work p View := do
  failIf (prior.deliveryId ≠ d.deliveryId ∨ prior.originalJson ≠ d.originalJson
    ∨ prior.originalDigest ≠ d.originalDigest
    ∨ prior.quantity ≠ d.quantity) .DELIVERY_CONFLICT
  view s false clock

/-- The quantity of a delivery. -/
def quantityArgument (p : OrderPayment w) (v : Value) : Option Positive :=
  ((positiveCodec ()).decode v).toOption.bind fun q => if q.1 ≤ p.terms.quantity.1 then some q
  else none

def beginDelivery (raw digest deliveryId quantity : Value) (observed : Answer) (e : Exchange)
    (clock : Answer) :
    Work p View := do
  let deliveryId ← orFail ((idCodec ()).decode deliveryId).toOption .INVALID_INPUT
  let quantity ← orFail (quantityArgument p quantity) .INVALID_INPUT
  start true
  let s ← cached
  failIf (s.fundingReceiptJson = none) .FUNDING_REQUIRED
  let raw ← orFail (text 65536 raw) .INVALID_INPUT
  let digest ← orFail ((hashCodec ()).decode digest).toOption .INVALID_INPUT
  let o ← retainedOriginal raw digest observed
  let d := pendingDelivery raw digest deliveryId quantity o
  match s.deliveries.find? fun v => decide (v.deliveryId = d.deliveryId ∨ v.requestScope
    = d.requestScope) with
  | some prior => priorDelivery s prior d clock
  | none => newDelivery s d e clock

/-- What a proof says of a delivery is recorded, unless the delivery is settled. -/
def settleDelivery (s : FulfillmentRecord) (d : Delivery) (raw : String) (status : DeliveryStatus)
    (e : Exchange) (clock : Answer) : Work p View :=
  if d.status.terminal = true then do
    failIf (d.proofJson ≠ some raw) .DELIVERY_CONFLICT
    view s false clock
  else do
    failIf (s.compensation ≠ none) .COMPENSATION_ALREADY_RETAINED
    commit { s with deliveries := s.deliveries.replace d { d with status := status, proofJson := some raw } } e clock

def recordDelivery (deliveryId candidate : Value) (a : Answer) (e : Exchange) (clock : Answer) :
    Work p View := do
  let deliveryId ← orFail ((idCodec ()).decode deliveryId).toOption .INVALID_INPUT
  start true
  let s ← cached
  let d ← orFail (s.deliveries.find? fun v => decide (v.deliveryId = deliveryId))
      .DELIVERY_NOT_RETAINED
  let raw ← verified candidate a
  let proof ← lift (failWith (deliveryProof raw d) .PROOF_REJECTED)
  settleDelivery s d raw proof.status e clock

/-- The compensation that is retained already, or the one to retain. -/
def keepCompensation (s : FulfillmentRecord) (raw : String) (digest : Hash) (e : Exchange)
    (clock : Answer) : Work p View :=
  match s.compensation with
  | some c => do
    failIf (c.originalJson ≠ raw ∨ c.originalDigest ≠ digest) .COMPENSATION_CONFLICT
    view s false clock
  | none => commit { s with compensation := some ⟨raw, digest, .RETAINED, none⟩ } e clock

def retainCompensation (raw digest : Value) (e : Exchange) (clock : Answer) : Work p View := do
  start true
  let s ← cached
  failIf (s.fundingReceiptJson = none) .FUNDING_REQUIRED
  let raw ← orFail (text 16384 raw) .INVALID_INPUT
  let digest ← orFail ((hashCodec ()).decode digest).toOption .INVALID_INPUT
  let _ ← lift (compensationTerms p s raw digest)
  keepCompensation s raw digest e clock

/-- What a proof says of the compensation is recorded, unless it is confirmed. -/
def settleCompensation (s : FulfillmentRecord) (c : Compensation) (raw : String)
    (status : CompensationStatus) (e : Exchange) (clock : Answer) : Work p View :=
  if c.status = .CONFIRMED then do
    failIf (c.proofJson ≠ some raw) .COMPENSATION_CONFLICT
    view s false clock
  else commit { s with compensation := some { c with status := status, proofJson := some raw } } e
    clock

def recordCompensation (candidate : Value) (a : Answer) (e : Exchange) (clock : Answer) :
    Work p View := do
  start true
  let s ← cached
  let c ← orFail s.compensation .COMPENSATION_NOT_RETAINED
  let o ← lift (compensationTerms p s c.originalJson c.originalDigest)
  let raw ← verified candidate a
  let proof ← lift (failWith (compensationProof p raw o c.originalDigest) .PROOF_REJECTED)
  settleCompensation s c raw proof.status e clock

def read (clock : Answer) : Work p View := do
  start true
  let s ← cached
  view s false clock

/-! ### Turns of any owner -/

inductive Turn
  | recover (loaded funding : Answer) (reads : Nat → Answer) (e : Exchange) (clock : Answer)
  | recordVerifiedFunding (funding : Answer) (e : Exchange) (clock : Answer)
  | beginDelivery (raw digest deliveryId quantity : Value) (observed : Answer) (e : Exchange)
      (clock : Answer)
  | recordDelivery (deliveryId candidate : Value) (a : Answer) (e : Exchange) (clock : Answer)
  | retainCompensation (raw digest : Value) (e : Exchange) (clock : Answer)
  | recordCompensation (candidate : Value) (a : Answer) (e : Exchange) (clock : Answer)
  | read (clock : Answer)
  | close

/-- The operation of a turn; `close` is none. -/
def Turn.work : Turn → Option (Work p View)
  | .recover loaded funding reads e clock => some (Fulfillment.recover loaded funding reads e clock)
  | .recordVerifiedFunding funding e clock =>
      some (Fulfillment.recordVerifiedFunding funding e clock)
  | .beginDelivery raw digest deliveryId quantity observed e clock =>
    some (Fulfillment.beginDelivery raw digest deliveryId quantity observed e clock)
  | .recordDelivery deliveryId candidate a e clock =>
      some (Fulfillment.recordDelivery deliveryId candidate a e clock)
  | .retainCompensation raw digest e clock =>
      some (Fulfillment.retainCompensation raw digest e clock)
  | .recordCompensation candidate a e clock =>
      some (Fulfillment.recordCompensation candidate a e clock)
  | .read clock => some (Fulfillment.read clock)
  | .close => none

def Turn.run (t : Turn) (x : Desk (Owner p) Deed) : Desk (Owner p) Deed :=
  match (t.work : Option (Work p View)) with
  | some work => (work.exec x).2
  | none => x.alter Owner.close

/-- Owners of one order that take turns. -/
def practice (p : OrderPayment w) : Practice (Setup p) Turn (Owner p) Deed :=
  ⟨Owner.create, Turn.run⟩

end Fulfillment
end Order
end ZenonX402
