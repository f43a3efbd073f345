/-
# The storage contract of a fulfillment

`service-purchase-order-fulfillment-cas-contract.js` reads the record of a
fulfillment without the payment that its owner captured: the payment, its terms, its
policy and the pins of its checkpoint are those that it finds inside the funding
receipt of the record. What an owner takes is a record to the contract too
(`record_of_valid`), and what an owner proposes is a transition of it
(`recordTransition_of_accepted`). What the contract lets follow a record keeps what is
settled in it (`keeps_of_transition`).

Key definitions: `record`, `recordTransition`, `fulfillmentContract`.
Key theorems: `record_of_valid`, `recordTransition_of_accepted`, `keeps_of_transition`.
-/
import ZenonX402.Order.FulfillmentRuns
import ZenonX402.Order.Ports

namespace ZenonX402
namespace Order

open Js

variable (w : Wire)

/-! ### Records -/

/-- The purchase that a funding receipt is of, as far as the contract reads it. -/
structure StoredPurchase where
  record : PaymentRecord
  terms : Terms
  maximumDeliveries : Int
  paymentHash : String
  deriving DecidableEq

/-- `JSON.parse(fundingContextJson).policyJson`, read. -/
def policyOf (fundingContextJson : String) : Except Failure Policy := do
  let context ← orReject (parse fundingContextJson) .INVALID_INPUT
  let policyJson ← orReject (textMember context "policyJson") .INVALID_INPUT
  policy policyJson

/-- `JSON.parse(paymentCheckpointJson).binding.paymentHash`. -/
def paymentHashOf (paymentCheckpointJson : String) : Option String :=
  match parse paymentCheckpointJson with
  | some (.obj members) => (members.lookup "binding").bind fun binding =>
      textMember binding "paymentHash"
  | _ => none

/-- The purchase of a verified receipt that goes with the record. -/
def storedPurchase (binding : FulfillmentBinding) (fundingReceiptJson : String) :
    Except Failure StoredPurchase := do
  let funded ← receipt w (.str fundingReceiptJson)
  rejectIf (funded.phase ≠ .VERIFIED ∨ funded.binding.orderId ≠ binding.orderId
    ∨ funded.binding.paymentScope ≠ binding.paymentScope
    ∨ funded.binding.paymentRecordDigest ≠ binding.paymentRecordDigest) .INVALID_INPUT
  let purchase ← paymentRecordCodec.ofText 131072 .INVALID_INPUT
      (.str funded.binding.paymentRecordJson)
  let terms ← snapshotPurchasedServiceTerms purchase.termsJson
  let termsDigest ← purchasedTermsStorageDigest w purchase.termsJson
  rejectIf (terms.orderId ≠ binding.orderId ∨ termsDigest ≠ binding.termsDigest) .INVALID_INPUT
  let rules ← policyOf purchase.fundingContextJson
  let paymentHash ← orReject (paymentHashOf purchase.paymentCheckpointJson) .INVALID_INPUT
  .ok ⟨purchase, terms, rules.maximumDeliveries.1, paymentHash⟩

/-- What a proof is to a delivery that is not pending. -/
def checkStoredProof (d : Delivery) : Except Failure Unit :=
  if d.status = .PENDING then rejectIf (d.proofJson ≠ none) .INVALID_INPUT
  else do
    let raw ← orReject d.proofJson .INVALID_INPUT
    let f ← deliveryProofCodec.ofText 4096 .INVALID_INPUT (.str raw)
    rejectIf (¬ f.Proves d ∨ f.status ≠ d.status) .INVALID_INPUT

/-- What a delivery of a record must be, under the pins that its own original has. -/
def checkStoredDelivery (binding : FulfillmentBinding) (purchase : StoredPurchase) (d : Delivery) :
    Except Failure Unit := do
  let o ← inspectStoredPurchaseOriginal w d.originalJson d.originalDigest
  rejectIf (o.orderId ≠ binding.orderId ∨ o.request.paymentScope ≠ binding.paymentScope
    ∨ o.termsDigest ≠ binding.termsDigest ∨ o.termsJson ≠ purchase.record.termsJson
    ∨ o.paymentCheckpointJson ≠ purchase.record.paymentCheckpointJson
    ∨ purchase.terms.quantity.value < d.quantity.value) .INVALID_INPUT
  rejectIf (d.requestScope ≠ o.request.requestScope ∨ d.requestId ≠ o.request.requestId ∨ d.grantId
    ≠ o.request.grantId
    ∨ d.serviceResourceUrl ≠ o.request.serviceResourceUrl) .INVALID_INPUT
  checkStoredProof d

/-- A delivery of a record that is not funded is none. -/
def checkFundedDelivery (binding : FulfillmentBinding) (purchase : Option StoredPurchase)
    (d : Delivery) :
    Except Failure Unit := do
  let purchase ← orReject purchase .INVALID_INPUT
  checkStoredDelivery w binding purchase d

/-- What a proof is to a compensation that is not only retained. -/
def checkCompensationProof (binding : FulfillmentBinding) (c : Compensation)
    (o : CompensationOriginal) :
    Except Failure Unit :=
  if c.status = .RETAINED then rejectIf (c.proofJson ≠ none) .INVALID_INPUT
  else do
    let raw ← orReject c.proofJson .INVALID_INPUT
    let f ← compensationProofCodec.ofText 4096 .INVALID_INPUT (.str raw)
    rejectIf (¬ f.Proves o c.originalDigest binding.paymentScope ∨ f.status ≠ c.status)
      .INVALID_INPUT

/-- What the compensation of a record must be. -/
def checkStoredCompensation (r : FulfillmentRecord) (purchase : StoredPurchase) (c : Compensation) :
    Except Failure Unit := do
  let n := counts r
  let (o, originalDigest) ← purchasedCompensationOriginalDigest w c.originalJson
  rejectIf (n.uncertain ≠ 0 ∨ originalDigest ≠ c.originalDigest) .INVALID_INPUT
  let remaining := purchase.terms.quantity.value - n.delivered
  let amount := proRata purchase.terms.amount.value purchase.terms.quantity.value remaining
  rejectIf (remaining = 0 ∨ o.quantity.value ≠ remaining ∨ o.amountAtomic.1 ≠ toString amount
    ∨ o.termsDigest ≠ r.binding.termsDigest ∨ o.paymentScope ≠ r.binding.paymentScope
    ∨ o.network.1 ≠ purchase.terms.network.1 ∨ o.asset ≠ purchase.terms.asset ∨ o.payee
    ≠ purchase.terms.holder
    ∨ o.transactionHash.1 = purchase.paymentHash) .INVALID_INPUT
  checkCompensationProof r.binding c o

/-- The purchase of a record, if it is funded. -/
def purchaseOf (r : FulfillmentRecord) : Except Failure (Option StoredPurchase) :=
  match r.fundingReceiptJson with
  | none => .ok none
  | some raw => (storedPurchase w r.binding raw).map some

/-- What else a record must be: of one that is not funded, nothing more. -/
def checkLiability (r : FulfillmentRecord) (purchase : Option StoredPurchase) :
    Except Failure Unit := match purchase with
  | none => rejectIf (r.deliveries ≠ [] ∨ r.compensation ≠ none) .INVALID_INPUT
  | some purchase => do
    rejectIf (purchase.terms.quantity.value < (counts r).reserved) .INVALID_INPUT
    Fulfillment.ifPresent r.compensation (checkStoredCompensation w r purchase)

def record (raw : String) (orderId : Id) (paymentScope : Hash) :
    Except Failure FulfillmentRecord := do
  let r ← fulfillmentRecordCodec.ofText recordCap .INVALID_INPUT (.str raw)
  rejectIf (r.binding.orderId ≠ orderId ∨ r.binding.paymentScope ≠ paymentScope) .INVALID_INPUT
  let purchase ← purchaseOf w r
  rejectIf ((purchase.elim 64 StoredPurchase.maximumDeliveries) < r.deliveries.length)
    .INVALID_INPUT
  eachDelivery (checkFundedDelivery w r.binding purchase) .INVALID_INPUT [] r.deliveries
  checkLiability w r purchase
  .ok r

/-! ### Transitions -/

/-- A compensation in the place of another, where the deliveries are the same. -/
def compensationChange (before after : Option Compensation) : Except Failure Unit :=
  if before = after then .error .RECORD_CHANGE_REQUIRED
  else match before, after with
    | none, some item => rejectIf (item.status ≠ .RETAINED) .COMPENSATION_ORIGINAL_REQUIRED
    | none, none => .error .COMPENSATION_ORIGINAL_REQUIRED
    | some _, none => .error .COMPENSATION_REPLACEMENT
    | some old, some item => do
      rejectIf (old.originalJson ≠ item.originalJson ∨ old.originalDigest ≠ item.originalDigest)
        .COMPENSATION_REPLACEMENT
      rejectIf (old.status = .CONFIRMED ∨ item.status = .RETAINED) .COMPENSATION_DOWNGRADE

/-- Whether a delivery changes, if it may. -/
def deliveryChange (old item : Delivery) : Except Failure Nat :=
  if old = item then .ok 0
  else do
    rejectIf (old.identity ≠ item.identity) .DELIVERY_REPLACEMENT
    rejectIf (old.status.terminal = true) .TERMINAL_DELIVERY_CHANGED
    rejectIf (item.status = .PENDING) .DELIVERY_DOWNGRADE
    .ok 1

/-- The number of deliveries that change. -/
def changedDeliveries : List Delivery → List Delivery → Except Failure Nat
  | old :: olds, item :: items => do
    let here ← deliveryChange old item
    let rest ← changedDeliveries olds items
    .ok (here + rest)
  | _, _ => .ok 0

/-- Deliveries in the place of others. -/
def deliveriesChange (a b : FulfillmentRecord) : Except Failure Unit := do
  rejectIf (a.compensation ≠ none ∨ b.compensation ≠ none) .COMPENSATION_ALREADY_RETAINED
  if b.deliveries.length = a.deliveries.length + 1 then
    rejectIf (¬ a.deliveries <+: b.deliveries ∨ b.deliveries.getLast?.map Delivery.status
      ≠ some .PENDING)
      .DELIVERY_INTENT_REQUIRED
  else do
    rejectIf (b.deliveries.length ≠ a.deliveries.length) .DELIVERY_REMOVAL_OR_BATCH
    let changed ← changedDeliveries a.deliveries b.deliveries
    rejectIf (changed ≠ 1) .ONE_DELIVERY_TRANSITION_REQUIRED

/-- A record in the place of another. -/
def recordChange (a b : FulfillmentRecord) : Except Failure Unit := do
  rejectIf (a.binding ≠ b.binding) .RECORD_BINDING_CHANGED
  if a.fundingReceiptJson ≠ b.fundingReceiptJson then
    rejectIf (a.fundingReceiptJson ≠ none ∨ b.fundingReceiptJson = none ∨ a.deliveries
      ≠ b.deliveries
      ∨ a.compensation ≠ b.compensation) .FUNDING_REPLACEMENT
  else do
    rejectIf (a.fundingReceiptJson = none) .FUNDED_TRANSITION_REQUIRED
    if a.deliveries = b.deliveries then compensationChange a.compensation b.compensation
      else deliveriesChange a b

def recordTransition (before after : Option String) (orderId : Id) (paymentScope : Hash) :
    Except Failure Unit := do
  let after ← orReject after .RECORD_REMOVAL
  let b ← record w after orderId paymentScope
  match before with
  | none =>
    rejectIf (b.fundingReceiptJson ≠ none ∨ b.deliveries ≠ [] ∨ b.compensation ≠ none)
      .INITIAL_RECORD_NOT_EMPTY
  | some before => do
    let a ← record w before orderId paymentScope
    recordChange a b

/-- The contract of the fulfillment records. -/
def fulfillmentContract : Contract where
  kind := .fulfillment
  digest raw := (digest w "zenon-x402:order-fulfillment-cas-record:v1" raw).1
  record raw orderId paymentScope := (record w raw orderId paymentScope).toBool
  transition := recordTransition w
  admits raw _ _ := match raw with
    | .str s => .ok s
    | _ => .error .INVALID_RECORD

variable {w}

/-! ### What is accepted -/

theorem record_text {raw : String} {orderId : Id} {paymentScope : Hash} {r : FulfillmentRecord}
    (h : record w raw orderId paymentScope = .ok r) : raw = r.text := by
  unfold record at h
  obtain ⟨r', hr', h⟩ := bind_ok.mp h
  simp only [bind_ok, Except.ok.injEq] at h
  obtain ⟨_, _, _, _, _, _, _, _, _, _, rfl⟩ := h
  exact Value.str.inj (Codec.ofText_ok.mp hr').1

/-! ### What an owner takes -/

namespace Fulfillment

variable {p : OrderPayment w}

/-- The purchase that the contract finds in a receipt of the payment. -/
def stored (p : OrderPayment w) : StoredPurchase :=
  ⟨p.record, p.terms, p.rules.maximumDeliveries.1, p.checkpoint.pins.binding.1.paymentHash⟩

theorem Setup.isCaptured (setup : Setup p) : p.Captured := ⟨setup.paymentPinsJson, setup.captured⟩

theorem policyOf_captured (h : p.Captured) : policyOf p.fundingContextJson = .ok p.rules := by
  obtain ⟨pins, h⟩ := h
  obtain ⟨-, -, -, -, -, hrules, -⟩ := captureOrder_ok.mp h
  unfold fundingContext at hrules
  simp only [bind_ok, orReject_ok] at hrules
  obtain ⟨_, -, context, hparse, _, -, _, -, _, -, policyJson, hmember, rules, hpolicy, _, -,
    heq⟩ := hrules
  obtain rfl := Except.ok.inj heq
  unfold policyOf
  simp only [bind_ok, orReject_ok]
  exact ⟨context, hparse, policyJson, hmember, hpolicy⟩

theorem paymentHashOf_captured (h : p.Captured) :
    paymentHashOf p.paymentCheckpointJson = some p.checkpoint.pins.binding.1.paymentHash := by
  obtain ⟨pins, h⟩ := h
  obtain ⟨-, -, -, -, -, -, ⟨v, -, hrestore⟩, -⟩ := captureOrder_ok.mp h
  obtain ⟨hchecked, -, htext, -⟩ := restore_ok.mp hrestore
  unfold paymentHashOf
  rw [htext, parse_stringify ((checkpointCodec w).json_encode _)]
  rfl

theorem terms_captured (h : p.Captured) :
    snapshotPurchasedServiceTerms p.termsJson = .ok p.terms := by
  obtain ⟨pins, h⟩ := h
  obtain ⟨-, -, -, -, hterms, -⟩ := captureOrder_ok.mp h
  exact (captureTerms_ok.mp hterms).1

theorem storedPurchase_of_funding {setup : Setup p} {raw : String} {f : Receipt}
    (h : fundingReceipt p (.str raw) = .ok f) :
    storedPurchase w setup.binding raw = .ok (stored p) := by
  obtain ⟨hreceipt, hphase, horder, hscope, hrecord, hdigest⟩ := fundingReceipt_ok.mp h
  have hcaptured := setup.isCaptured
  have hpurchase : paymentRecordCodec.ofText 131072 Order.Failure.INVALID_INPUT
      (.str f.binding.paymentRecordJson)
      = .ok p.record := by
    rw [hrecord]
    exact OrderPayment.record_text hcaptured
  unfold storedPurchase
  simp only [bind_ok, rejectIf_ok, orReject_ok, not_or, ne_eq, not_not]
  exact ⟨f, hreceipt, (), ⟨hphase, horder, hscope, hdigest⟩, p.record, hpurchase, p.terms,
    terms_captured hcaptured, p.termsDigest, (OrderPayment.recapture hcaptured).1, (), ⟨rfl, rfl⟩,
    p.rules, policyOf_captured hcaptured, _,
    paymentHashOf_captured hcaptured, rfl⟩

theorem checkStoredProof_of_sound {setup : Setup p} {d : Delivery} (h : Sound setup d) :
    checkStoredProof d = .ok () := by
  have hproof := h.proof
  unfold checkStoredProof
  by_cases hpending : d.status = .PENDING
  · rw [if_pos hpending] at hproof ⊢
    exact rejectIf_ok.mpr (not_not.mpr hproof)
  · rw [if_neg hpending] at hproof ⊢
    obtain ⟨raw, f, hraw, hf, hstatus⟩ := hproof
    obtain ⟨htext, hproves, -⟩ := deliveryProof_ok.mp hf
    simp only [bind_ok, orReject_ok, rejectIf_ok, not_or, ne_eq, not_not]
    exact ⟨raw, hraw, f, htext, hproves, hstatus⟩

theorem checkStoredDelivery_of_sound {setup : Setup p} {d : Delivery} (h : Sound setup d) :
    checkFundedDelivery w setup.binding (some (stored p)) d = .ok () := by
  obtain ⟨o, ho, hrequest⟩ := h.original
  obtain ⟨hcapture, horder, hterms, hscope, hcheckpoint⟩ := original_ok.mp ho
  obtain ⟨-, -, -, -, -, -, ⟨pins, hpins, -⟩, -⟩ := captureOrder_ok.mp setup.captured
  have hdigest : o.termsDigest = p.termsDigest := by
    obtain ⟨-, record, request, terms, -, -, rfl⟩ := captureOriginal_ok.mp hcapture
    rfl
  unfold checkFundedDelivery checkStoredDelivery
  simp only [bind_ok, rejectIf_ok, orReject_ok, not_or, ne_eq, not_not, not_lt]
  exact ⟨stored p, rfl, o, inspect_of_capture hcapture hpins, (),
    ⟨horder, hscope, hdigest, hterms, hcheckpoint, h.quantity⟩, (), hrequest,
    checkStoredProof_of_sound h⟩

theorem checkStoredCompensation_of_compensated {setup : Setup p} {s : FulfillmentRecord}
    {c : Compensation} (hbinding : s.binding = setup.binding) (h : Compensated p s c) :
    checkStoredCompensation w s (stored p) c = .ok () := by
  obtain ⟨o, ho, hproof⟩ := h.proof
  obtain ⟨hraw, hdigest, hcompensates⟩ := compensationTerms_ok.mp ho
  have hpositive := o.quantity.value_eq.2.1
  have hquantity := hcompensates.quantity
  have hremaining : o.quantity.value = p.terms.quantity.value - (counts s).delivered := by omega
  have hamount := hcompensates.amount
  have htermsDigest : o.termsDigest = s.binding.termsDigest := by
    rw [hbinding]
    exact hcompensates.termsDigest
  have hscope : s.binding.paymentScope = p.issue.paymentScope := by
    rw [hbinding]
    rfl
  unfold checkStoredCompensation purchasedCompensationOriginalDigest
  simp only [bind_ok, rejectIf_ok, not_or, ne_eq, not_not, Except.ok.injEq]
  refine ⟨(o, _), ⟨o, hraw, rfl⟩, (), ⟨hcompensates.certain, hdigest⟩, (),
    ⟨?_, hremaining, ?_, htermsDigest, hcompensates.paymentScope.trans hscope.symm,
      hcompensates.network, hcompensates.asset, hcompensates.payee,
    hcompensates.transactionHash⟩, ?_⟩
  · change ¬ p.terms.quantity.value - (counts s).delivered = 0
    omega
  · change o.amountAtomic.1 = toString (proRata p.terms.amount.value p.terms.quantity.value
      (p.terms.quantity.value - (counts s).delivered))
    rw [← hremaining]
    exact hamount
  · unfold checkCompensationProof
    by_cases hretained : c.status = .RETAINED
    · rw [if_pos hretained] at hproof ⊢
      exact rejectIf_ok.mpr (not_not.mpr hproof)
    · rw [if_neg hretained] at hproof ⊢
      obtain ⟨raw, f, hraw, hf, hstatus⟩ := hproof
      obtain ⟨htext, hproves, -⟩ := compensationProof_ok.mp hf
      rw [hscope]
      simp only [bind_ok, orReject_ok, rejectIf_ok, not_or, ne_eq, not_not]
      exact ⟨raw, hraw, f, htext, hproves, hstatus⟩

/-- What an owner takes is a record to the contract. -/
theorem record_of_valid {setup : Setup p} {s : FulfillmentRecord} (h : Valid setup s) :
    record w s.text p.terms.orderId p.issue.paymentScope = .ok s := by
  have htext : fulfillmentRecordCodec.ofText recordCap Order.Failure.INVALID_INPUT (.str s.text)
      = .ok s :=
    Codec.ofText_ok.mpr ⟨rfl, h.size⟩
  have hbinding : s.binding.orderId = p.terms.orderId ∧ s.binding.paymentScope
      = p.issue.paymentScope := by
    rw [h.binding]
    exact ⟨rfl, rfl⟩
  unfold record
  simp only [bind_ok, rejectIf_ok, not_or, ne_eq, not_not, not_lt, eachDelivery_ok]
  cases hfunding : s.fundingReceiptJson with
  | none =>
    obtain ⟨hdeliveries, hcompensation⟩ := h.funded hfunding
    refine ⟨s, htext, (), hbinding, none, ?_, (), ?_, (),
      ⟨fun d hd => ?_, List.forall_mem_nil _, h.beside⟩, (), ?_, rfl⟩
    · unfold purchaseOf
      rw [hfunding]
    · rw [hdeliveries]
      decide
    · rw [hdeliveries] at hd
      cases hd
    · exact rejectIf_ok.mpr (by simp [hdeliveries, hcompensation])
  | some raw =>
    obtain ⟨f, hf⟩ := h.funding raw hfunding
    refine ⟨s, htext, (), hbinding, some (stored p), ?_, (), h.count, (),
      ⟨fun d hd => ?_, List.forall_mem_nil _, h.beside⟩, (), ?_, rfl⟩
    · unfold purchaseOf
      rw [hfunding, h.binding]
      exact map_ok.mpr ⟨_, storedPurchase_of_funding hf, rfl⟩
    · rw [h.binding]
      exact checkStoredDelivery_of_sound (h.sound d hd)
    · unfold checkLiability
      simp only [bind_ok, rejectIf_ok, ifPresent_ok, not_lt]
      exact ⟨(), h.reserved, fun c hc => checkStoredCompensation_of_compensated h.binding
        (h.compensated c hc)⟩

end Fulfillment
/-! ### What follows -/

theorem deliveryChange_self (d : Delivery) : deliveryChange d d = .ok 0 := if_pos rfl

theorem changedDeliveries_self : ∀ ds : List Delivery, changedDeliveries ds ds = .ok 0
  | [] => rfl
  | d :: ds => by
    simp only [changedDeliveries, bind_ok]
    exact ⟨0, deliveryChange_self d, 0, changedDeliveries_self ds, rfl⟩

theorem changedDeliveries_one {d d' : Delivery} (h : deliveryChange d d' = .ok 1)
    (late : List Delivery) :
    ∀ early : List Delivery, changedDeliveries (early ++ d :: late) (early ++ d' :: late) = .ok 1
  | [] => by
    simp only [List.nil_append, changedDeliveries, bind_ok]
    exact ⟨1, h, 0, changedDeliveries_self late, rfl⟩
  | e :: early => by
    simp only [List.cons_append, changedDeliveries, bind_ok]
    exact ⟨0, deliveryChange_self e, 1, changedDeliveries_one h late early, rfl⟩

theorem recordChange_of_follows {a b : FulfillmentRecord} (h : a.Follows b) (hne : a ≠ b)
    (hfunded : a.fundingReceiptJson = none → a.deliveries = [] ∧ a.compensation = none) :
    recordChange a b = .ok () := by
  unfold recordChange
  simp only [bind_ok, rejectIf_ok]
  cases h with
  | funded raw hunfunded hb =>
    subst hb
    refine ⟨(), not_not.mpr rfl, ?_⟩
    rw [if_pos (by rw [hunfunded]; simp)]
    simp [rejectIf_ok, hunfunded]
  | begun d hfunded' hopen hpending hb =>
    subst hb
    have hlength : a.deliveries ≠ a.deliveries ++ [d] := fun heq => by
      simpa using congrArg List.length heq
    refine ⟨(), not_not.mpr rfl, ?_⟩
    rw [if_neg (not_not.mpr rfl)]
    simp only [bind_ok, rejectIf_ok]
    refine ⟨(), hfunded', ?_⟩
    rw [if_neg hlength]
    unfold deliveriesChange
    simp only [bind_ok, rejectIf_ok]
    refine ⟨(), by simp [hopen], ?_⟩
    rw [if_pos (by simp)]
    simp [rejectIf_ok, hpending]
  | proved early late d status raw hopen ha hunsettled hstatus hb =>
    subst hb
    have hfunded' : a.fundingReceiptJson ≠ none := fun hnone => by
      rw [(hfunded hnone).1] at ha
      simp at ha
    have hd : d ≠ d.proved status raw := fun heq => hne (by
      rw [← heq, ← ha])
    refine ⟨(), not_not.mpr rfl, ?_⟩
    rw [if_neg (not_not.mpr rfl)]
    simp only [bind_ok, rejectIf_ok]
    refine ⟨(), hfunded', ?_⟩
    have hdeliveries : a.deliveries ≠ early ++ d.proved status raw :: late := fun heq => by
      rw [ha] at heq
      exact hd (List.cons.inj (List.append_cancel_left heq)).1
    rw [if_neg hdeliveries]
    have hchange : deliveryChange d (d.proved status raw) = .ok 1 := by
      unfold deliveryChange
      rw [if_neg hd]
      simp only [bind_ok, rejectIf_ok]
      exact ⟨(), not_not.mpr rfl, (), by simp [hunsettled], (), hstatus, trivial⟩
    unfold deliveriesChange
    simp only [bind_ok, rejectIf_ok]
    refine ⟨(), by simp [hopen], ?_⟩
    rw [if_neg (by simp [ha])]
    simp only [bind_ok, rejectIf_ok, ha]
    exact ⟨(), by simp, 1, changedDeliveries_one hchange late early, not_not.mpr rfl⟩
  | retained c hfunded' hopen hretained hb =>
    subst hb
    refine ⟨(), not_not.mpr rfl, ?_⟩
    rw [if_neg (not_not.mpr rfl)]
    simp only [bind_ok, rejectIf_ok]
    refine ⟨(), hfunded', ?_⟩
    rw [if_pos trivial, hopen]
    unfold compensationChange
    rw [if_neg (by simp)]
    exact rejectIf_ok.mpr (not_not.mpr hretained)
  | compensated c status raw ha hunconfirmed hstatus hb =>
    subst hb
    have hfunded' : a.fundingReceiptJson ≠ none := fun hnone => by
      rw [(hfunded hnone).2] at ha
      cases ha
    have hc : a.compensation ≠ some { c with status := status, proofJson := some raw } :=
      fun heq => hne (by rw [← heq])
    refine ⟨(), not_not.mpr rfl, ?_⟩
    rw [if_neg (not_not.mpr rfl)]
    simp only [bind_ok, rejectIf_ok]
    refine ⟨(), hfunded', ?_⟩
    rw [if_pos trivial]
    unfold compensationChange
    rw [if_neg hc, ha]
    simp only [bind_ok, rejectIf_ok]
    exact ⟨(), by simp, by simp [hunconfirmed, hstatus]⟩

namespace Fulfillment

variable {p : OrderPayment w}

/-- What an owner proposes is a transition of the contract. -/
theorem recordTransition_of_accepted {a : Option FulfillmentRecord} {b : FulfillmentRecord}
    (h : Accepted p a b) :
    recordTransition w (a.map FulfillmentRecord.text)
    (some b.text) p.terms.orderId p.issue.paymentScope = .ok () := by
  unfold recordTransition
  simp only [bind_ok, orReject_ok, Option.some.injEq]
  cases h with
  | first setup hb =>
    refine ⟨_, rfl, _, record_of_valid hb, ?_⟩
    exact rejectIf_ok.mpr (by simp [Setup.initial])
  | @next setup a b ha hb hfollows hne =>
    refine ⟨_, rfl, _, record_of_valid hb, ?_⟩
    simp only [Option.map_some, bind_ok]
    exact ⟨a, record_of_valid ha, recordChange_of_follows hfollows hne ha.funded⟩

end Fulfillment

/-! ### What is kept -/

/-- At most one delivery is added or changed. -/
def FulfillmentRecord.OneDelivery (a b : FulfillmentRecord) : Prop :=
  ∃ (early late : List Delivery) (old item : Option Delivery), a.deliveries = early ++ old.toList
    ++ late ∧ b.deliveries = early ++ item.toList ++ late

theorem FulfillmentRecord.oneDelivery_of_eq {a b : FulfillmentRecord}
    (h : a.deliveries = b.deliveries) : a.OneDelivery b :=
  ⟨a.deliveries, [], none, none, by simp, by simp [h]⟩

theorem deliveryChange_ok {old item : Delivery} {n : Nat} (h : deliveryChange old item = .ok n) :
    (n = 0 ∧ old = item) ∨ (n = 1 ∧ old.identity = item.identity ∧ old.status.terminal
      = false) := by
  unfold deliveryChange at h
  split at h
  · rename_i heq
    exact .inl ⟨(Except.ok.inj h).symm, heq⟩
  · simp only [bind_ok, rejectIf_ok, ne_eq, not_not, Bool.not_eq_true, Except.ok.injEq] at h
    obtain ⟨_, hidentity, _, hterminal, _, -, rfl⟩ := h
    exact .inr ⟨rfl, hidentity, hterminal⟩

/-- Deliveries of which some change: they stay who they are, what is settled stays, and only one
changes where one does. -/
theorem changedDeliveries_ok :
    ∀ {olds items : List Delivery} {n : Nat}, changedDeliveries olds items = .ok n →
    olds.length = items.length → olds.map Delivery.identity = items.map Delivery.identity
      ∧ (∀ d ∈ olds, d.status.terminal = true → d ∈ items) ∧ (n = 0 → olds = items)
      ∧ (n = 1 → ∃ early old item late, olds = early ++ old :: late ∧ items = early ++ item :: late)
  | [], [], n, h, _ => by
    obtain rfl := Except.ok.inj h
    exact ⟨rfl, fun _ hd _ => hd, fun _ => rfl, nofun⟩
  | old :: olds, item :: items, n, h, hlength => by
    simp only [changedDeliveries, bind_ok, Except.ok.injEq] at h
    obtain ⟨here, hhere, rest, hrest, rfl⟩ := h
    obtain ⟨hidentity, hsettled, hnone, hone⟩ := changedDeliveries_ok hrest (Nat.succ.inj hlength)
    rcases deliveryChange_ok hhere with ⟨rfl, rfl⟩ | ⟨rfl, hsame, hopen⟩
    · refine ⟨congrArg (old.identity :: ·) hidentity, fun d hd hterminal => ?_,
        fun h => ?_, fun h => ?_⟩
      · rcases List.mem_cons.mp hd with rfl | hd
        · exact List.mem_cons_self
        · exact List.mem_cons_of_mem _ (hsettled d hd hterminal)
      · rw [hnone (by omega)]
      · obtain ⟨early, old', item', late, holds, hitems⟩ := hone (by omega)
        exact ⟨old :: early, old', item', late, by rw [holds]; rfl, by rw [hitems]; rfl⟩
    · refine ⟨?_, fun d hd hterminal => ?_, fun h => by omega, fun h => ?_⟩
      · rw [List.map_cons, List.map_cons, hidentity, hsame]
      · rcases List.mem_cons.mp hd with rfl | hd
        · rw [hopen] at hterminal
          cases hterminal
        · exact List.mem_cons_of_mem _ (hsettled d hd hterminal)
      · exact ⟨[], old, item, olds, rfl, by rw [hnone (by omega)]; rfl⟩
  | [], item :: items, _, _, hlength => by cases hlength
  | old :: olds, [], _, _, hlength => by cases hlength

theorem deliveriesChange_ok {a b : FulfillmentRecord} (h : deliveriesChange a b = .ok ()) :
    a.compensation = none
    ∧ b.compensation = none
    ∧ a.deliveries.map Delivery.identity <+: b.deliveries.map Delivery.identity
    ∧ (∀ d ∈ a.deliveries, d.status.terminal = true → d ∈ b.deliveries) ∧ a.OneDelivery b := by
  unfold deliveriesChange at h
  obtain ⟨_, hopen, h⟩ := bind_ok.mp h
  rw [rejectIf_ok, not_or, not_not, not_not] at hopen
  refine ⟨hopen.1, hopen.2, ?_⟩
  split at h
  · rename_i hlength
    rw [rejectIf_ok, not_or, not_not, not_not] at h
    obtain ⟨⟨added, hadded⟩, -⟩ := h
    rw [← hadded, List.length_append] at hlength
    obtain ⟨d, rfl⟩ := List.length_eq_one_iff.mp (by omega : added.length = 1)
    refine ⟨?_, fun d' hd' _ => ?_, a.deliveries, [], none, some d, by simp, by simp [hadded]⟩
    · rw [← hadded, List.map_append]
      exact List.prefix_append _ _
    · rw [← hadded]
      exact List.mem_append_left _ hd'
  · simp only [bind_ok, rejectIf_ok, ne_eq, not_not] at h
    obtain ⟨_, hlength, changed, hchanged, rfl⟩ := h
    obtain ⟨hidentity, hsettled, -, hone⟩ := changedDeliveries_ok hchanged hlength.symm
    obtain ⟨early, old, item, late, ha, hb⟩ := hone rfl
    refine ⟨hidentity ▸ List.prefix_rfl, hsettled, early, late, some old, some item, ?_, ?_⟩
    · rw [ha]
      simp
    · rw [hb]
      simp

theorem compensationChange_ok {a b : Option Compensation} (h : compensationChange a b = .ok ()) :
    ∀ c, a = some c →
    ∃ c', b = some c' ∧ c'.originalJson = c.originalJson ∧ c'.originalDigest = c.originalDigest
      ∧ c.status ≠ .CONFIRMED := by
  rintro c rfl
  unfold compensationChange at h
  split at h
  · cases h
  · cases b with
    | none => cases h
    | some c' =>
      simp only [bind_ok, rejectIf_ok, not_or, ne_eq, not_not] at h
      obtain ⟨_, horiginal, hunconfirmed, -⟩ := h
      exact ⟨c', rfl, horiginal.1.symm, horiginal.2.symm, hunconfirmed⟩

/-- A record that the contract lets follow another keeps what is settled in it. -/
theorem keeps_of_change {a b : FulfillmentRecord} (h : recordChange a b = .ok ()) :
    a.Keeps b ∧ a.OneDelivery b := by
  unfold recordChange at h
  obtain ⟨_, hbinding, h⟩ := bind_ok.mp h
  rw [rejectIf_ok, not_not] at hbinding
  split at h
  · rw [rejectIf_ok] at h
    simp only [not_or, ne_eq, not_not] at h
    obtain ⟨hunfunded, -, hdeliveries, hcompensation⟩ := h
    refine ⟨⟨hbinding.symm, fun hfunded => absurd hunfunded hfunded, hdeliveries ▸ List.prefix_rfl,
      fun d hd _ => hdeliveries ▸ hd,
      fun c hc => ⟨hdeliveries.symm, c, hcompensation ▸ hc, rfl, rfl, fun _ => rfl⟩⟩,
      FulfillmentRecord.oneDelivery_of_eq hdeliveries⟩
  · rename_i hsame
    rw [not_not] at hsame
    obtain ⟨_, -, h⟩ := bind_ok.mp h
    split at h
    · rename_i hdeliveries
      refine ⟨⟨hbinding.symm, fun _ => hsame.symm, hdeliveries ▸ List.prefix_rfl,
        fun d hd _ => hdeliveries ▸ hd, fun c hc => ?_⟩,
        FulfillmentRecord.oneDelivery_of_eq hdeliveries⟩
      obtain ⟨c', hc', hjson, hdigest, hunconfirmed⟩ := compensationChange_ok h c hc
      exact ⟨hdeliveries.symm, c', hc', hjson, hdigest,
        fun hconfirmed => absurd hconfirmed hunconfirmed⟩
    · obtain ⟨hopen, -, hidentity, hsettled, hone⟩ := deliveriesChange_ok h
      exact ⟨FulfillmentRecord.keeps_of_open hopen hbinding.symm (fun _ => hsame.symm) hidentity
        hsettled, hone⟩

theorem keeps_of_transition {before after : String} {orderId : Id} {paymentScope : Hash}
    (h : recordTransition w (some before) (some after) orderId paymentScope = .ok ()) : ∃ a b,
      record w before orderId paymentScope = .ok a ∧ record w after orderId paymentScope = .ok b
        ∧ a.Keeps b ∧ a.OneDelivery b := by
  unfold recordTransition at h
  simp only [bind_ok, orReject_ok, Option.some.injEq] at h
  obtain ⟨_, rfl, b, hb, a, ha, h⟩ := h
  exact ⟨a, b, ha, hb, keeps_of_change h⟩

end Order
end ZenonX402
