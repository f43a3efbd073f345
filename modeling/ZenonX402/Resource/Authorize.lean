/-
# Authorizing and delivering

`authorizeAndDeliver` asks the facilitator to settle the payment that was submitted,
to claim its delivery and, when the handler has given the response, to record it. It is
cut at these calls: the operation is in a `Phase`, which says what it waits for, and
`advance` is what it does with what comes back.

A step does one of the things that `Moved` lists (`advance_moved`): the claim is made only
of a settlement that is included and not yet delivered, the handler is asked only when the
claim was granted, and a response is delivered only as the facilitator has it. What is not
delivered is given up with an outcome that names the payment (`GivesUp`).

Key definitions: `Phase`, `Reply`, `advance`, `Moved`, `GivesUp`.
Key theorems: `advance_moved`, `Moved.sound`.
-/
import ZenonX402.Lib.Loop
import ZenonX402.Resource.Evidence

namespace ZenonX402
namespace Resource

open Js
open Journal (get)

/-- What an operation waits for. -/
inductive Phase where
  | settling
  | claiming (settlement : Value)
  | handling (settlement : Value)
  | delivering (settlement cached : Value)
  /-- The outcome, unless the operation has thrown. -/
  | finished (outcome : Option Outcome)

/-- What a call comes to: `none` if it throws or rejects. -/
inductive Reply where
  /-- `capable` tells whether the facilitator has the two methods of a delivery when they are looked
  for. -/
  | settled (answer : Option Answer) (capable : Bool)
  /-- `now` is the time at which a response without a handler is made. -/
  | claimed (answer : Option Answer) (now : String)
  | handled (body : Option Value)
  | delivered (answer : Option Answer)

def jsonResponse (body : Value) : Value :=
  .obj [("status", .num 200),
    ("headers", .obj [("content-type", .str "application/json; charset=utf-8")]), ("body", body)]

/-- The body of a server without a handler. -/
def defaultBody (settlement : Value) (now : String) : Value :=
  .obj [("ok", .bool true), ("message", .str "paid resource unlocked"),
    ("network", get settlement "network"), ("payer", get settlement "payer"),
    ("transaction", get settlement "transaction"), ("generatedAt", .str now)]

def deliveredSettlement (settlement : Value) : Value :=
  withFields settlement [("deliveryState", .str "DELIVERED")]

section

variable (submitted : Submitted)

/-- The response that an answer says was delivered. -/
def deliverCached (answer : Answer) (settlement : Value) : Phase :=
  match (answer .cachedResponse).dataOf? "cachedResponse" with
  | none => .finished (some (submittedDeliveryRecovery submitted))
  | some value => match normalizeCachedResponse value with
    | .ok cached => .finished (some (.delivered settlement cached))
    | .error _ => .finished (some (submittedDeliveryRecovery submitted))

/-- What becomes of a settlement that is included. -/
def afterPositive (answer : Answer) (settlement : Value) (capable : Bool) : Phase :=
  if capable = false then .finished (some (submittedDeliveryRecovery submitted))
  else if (get settlement "deliveryState").strictEq (.str "DELIVERED")
  then deliverCached submitted answer settlement
  else if (get settlement "deliveryState").strictEq (.str "DELIVERY_PENDING") then
    .finished (some (deliveryRecovery settlement "delivery_outcome_unknown" "DELIVERY_PENDING"))
  else .claiming settlement

variable (platform : Platform)

/-- What becomes of an answer that is no success. -/
def afterFailure (answer : Answer) : Outcome :=
  match definiteRejectionEvidence platform answer submitted with
  | .malformed => submittedPaymentRecovery submitted "SUBMISSION_OUTCOME_UNKNOWN"
  | .found settlement => .definiteRejection settlement
  | .absent => nonPositiveSettlementOutcome answer submitted ((answer .success).hides "success")

def afterSettle (requirement : Value) (answer : Answer) (capable : Bool) : Phase :=
  match terminalReconciliationEvidence platform answer submitted with
  | .malformed => .finished (some .internalError)
  | .found settlement => .finished (some (.terminalReconciliation settlement))
  | .absent => match thresholdPendingEvidence platform answer submitted requirement with
    | .malformed => .finished (some .internalError)
    | .found outcome => .finished (some outcome)
    | .absent =>
      if ((answer .success).dataOf? "success").any (·.strictEq (.bool true)) = false then
        .finished (some (afterFailure submitted platform answer))
      else match positiveSettlementEvidence platform answer submitted with
        | none => .finished (some (submittedPaymentRecovery submitted "SUBMISSION_OUTCOME_UNKNOWN"))
        | some settlement => afterPositive submitted answer settlement capable

/-- What was made is recorded, if it is a response. -/
def afterBody (settlement body : Value) : Phase :=
  match normalizeCachedResponse (jsonResponse body) with
  | .ok cached => .delivering settlement cached
  | .error _ => .finished
      (some (deliveryRecovery settlement "delivery_outcome_unknown" "DELIVERY_PENDING"))

/-- `handled`: the server has a handler. -/
def afterClaim (handled : Bool) (settlement : Value) (answer : Answer) (now : String) : Phase :=
  match positiveTransitionEvidence answer submitted ["deliveryState", "deliveryClaimed"] with
  | none => .finished (some (submittedDeliveryRecovery submitted))
  | some claim =>
    if isOneOf POSITIVE_DELIVERY_STATES (get claim "deliveryState") = false then
      .finished (some (submittedDeliveryRecovery submitted))
    else if (get claim "deliveryState").strictEq (.str "DELIVERED") then
      if (get claim "deliveryClaimed").strictEq (.bool false) = false then
        .finished (some (submittedDeliveryRecovery submitted))
      else deliverCached submitted answer (deliveredSettlement settlement)
    else if (get claim "deliveryClaimed").strictEq (.bool true) = false
        ∨ (get claim "deliveryState").strictEq (.str "DELIVERY_PENDING") = false then
      .finished (some (submittedDeliveryRecovery submitted))
    else if handled then .handling settlement else afterBody settlement (defaultBody settlement now)

/-- The facilitator has recorded the response, if what it gives back has the same text. -/
def afterDelivered (settlement cached : Value) (answer : Answer) : Phase :=
  match positiveTransitionEvidence answer submitted ["deliveryState", "cachedResponse"] with
  | none => .finished (some (submittedDeliveryRecovery submitted))
  | some delivered =>
    if (get delivered "deliveryState").strictEq (.str "DELIVERED") = false then
      .finished (some (submittedDeliveryRecovery submitted))
    else match normalizeCachedResponse (get delivered "cachedResponse") with
      | .error _ => .finished (some (submittedDeliveryRecovery submitted))
      | .ok persisted =>
        if stringify persisted = stringify cached then .finished
          (some (.delivered (deliveredSettlement settlement) cached))
        else .finished (some (submittedDeliveryRecovery submitted))

variable (requirement : Value) (handled : Bool)

/-- What the operation does with what it waited for. -/
def advance : Phase → Reply → Option Phase
  | .settling, .settled none _ => some (.finished none)
  | .settling, .settled (some answer) capable =>
      some (afterSettle submitted platform requirement answer capable)
  | .claiming _, .claimed none _ => some (.finished (some (submittedDeliveryRecovery submitted)))
  | .claiming settlement, .claimed (some answer) now =>
      some (afterClaim submitted handled settlement answer now)
  | .handling settlement, .handled none =>
    some (.finished (some (deliveryRecovery settlement "delivery_outcome_unknown"
      "DELIVERY_PENDING")))
  | .handling settlement, .handled (some body) => some (afterBody settlement body)
  | .delivering _ _, .delivered none =>
      some (.finished (some (submittedDeliveryRecovery submitted)))
  | .delivering settlement cached, .delivered (some answer) =>
      some (afterDelivered submitted settlement cached answer)
  | _, _ => none

end

/-! ### What answers show -/

/-- The answer shows success of the payment with the identity, included in a momentum, in a state of
delivery. -/
structure Answer.Settles (answer : Answer) (identity : Identity) (deliveryState : String) :
    Prop where
  success : (answer .positive).dataOf? "success" = some (.bool true)
  state : (answer .positive).dataOf? "state" = some (.str "MOMENTUM_INCLUDED")
  deliveryState : (answer .positive).dataOf? "deliveryState" = some (.str deliveryState)
  network : (answer .positive).dataOf? "network" = some identity.network
  transaction : (answer .positive).dataOf? "transaction" = some identity.transaction
  payer : (answer .positive).dataOf? "payer" = some identity.payer
  authorizationKey : (answer .positive).dataOf? "authorizationKey" = some identity.authorizationKey

/-- The answer shows a state of delivery of the payment with the identity. -/
structure Answer.Shows (answer : Answer) (identity : Identity) (deliveryState : String) : Prop where
  deliveryState : (answer .transition).dataOf? "deliveryState" = some (.str deliveryState)
  authorizationKey : (answer .transition).dataOf? "authorizationKey"
    = some identity.authorizationKey
  payer : (answer .transition).dataOf? "payer" = some identity.payer
  transaction : normalizedTransaction (answer .transitionHash) = some identity.transaction

/-- The answer to a claim says whether the delivery is claimed by it. -/
def Answer.Claims (answer : Answer) (claimed : Bool) : Prop :=
  (answer .transition).dataOf? "deliveryClaimed" = some (.bool claimed)

/-- The answer has the response, as it was delivered. -/
def Answer.Caches (answer : Answer) (cached : Value) : Prop :=
  ∃ value, (answer .cachedResponse).dataOf? "cachedResponse" = some value
    ∧ normalizeCachedResponse value = .ok cached

section

variable {submitted : Submitted} {platform : Platform}
    {requirement settlement cached evidence : Value} {handled : Bool}
  {answer : Answer}

theorem settles_of_evidence {state : String}
    (h : positiveSettlementEvidence platform answer submitted = some evidence)
    (hstate : get evidence "deliveryState" = .str state) :
    answer.Settles submitted.identity state := by
  obtain ⟨_, hidentity, hsuccess, hincluded, hdelivery, _, hsnapshot⟩ :=
    positiveSettlementEvidence_some h
  obtain ⟨_, hdata⟩ := ownDataSnapshot_some hsnapshot
  refine ⟨hsuccess, hincluded, by rw [hdelivery, hstate], ?_, ?_, ?_, ?_⟩
  · rw [hdata "network" (by decide), ← hidentity]
    rfl
  · rw [hdata "transaction" (by decide), ← hidentity]
    rfl
  · rw [hdata "payer" (by decide), ← hidentity]
    rfl
  · rw [hdata "authorizationKey" (by decide), ← hidentity]
    rfl

/-- A transition that names a payment which a settlement has named before. -/
theorem shows_of_evidence {state : String} {requiredFields : List String}
    (hnames : Names settlement submitted)
    (h : positiveTransitionEvidence answer submitted requiredFields = some evidence)
    (hfield : "deliveryState" ∈ requiredFields)
    (hstate : get evidence "deliveryState" = .str state) :
    answer.Shows submitted.identity state := by
  obtain ⟨⟨hkey, ⟨payer, hpayer, hsamePayer⟩, transaction, htransaction, hsame⟩, hdata⟩ :=
    positiveTransitionEvidence_some h
  obtain ⟨payerText, hpayerText, _⟩ := hnames.text
  refine ⟨by rw [hdata _ hfield (by decide), hstate], hkey, ?_, ?_⟩
  · rw [hpayerText] at hsamePayer
    rw [hpayer, Value.strictEq_str.mp hsamePayer, Submitted.identity, hpayerText]
  · obtain ⟨hash, hhash, _⟩ := hnames.hash
    rw [hhash] at hsame
    rw [htransaction, Value.strictEq_str.mp hsame, Submitted.identity, hhash]

/-! ### What a step does -/

theorem isObject_obj {v : Value} (h : isObject v = true) : ∃ fs, v = .obj fs := by
  cases v with
  | obj fs => exact ⟨fs, rfl⟩
  | _ => cases h

/-- Evidence of a payment that is included, as the operation keeps it. -/
structure Positive (settlement : Value) (submitted : Submitted) : Prop where
  object : isObject settlement = true
  names : Names settlement submitted
  success : get settlement "success" = .bool true
  state : get settlement "state" = .str "MOMENTUM_INCLUDED"
  authorizationKey : get settlement "authorizationKey" = .str submitted.authorizationKey
  noReason : get settlement "errorReason" = .undefined
  noRetry : get settlement "retrySamePayment" = .undefined

theorem Positive.identity (h : Positive settlement submitted) :
    identityOf settlement = submitted.identity := by
  rw [identityOf, h.names.network, h.names.transaction, h.names.payer, h.authorizationKey,
    Submitted.identity]

theorem positive_of_evidence (h : positiveSettlementEvidence platform answer submitted
      = some evidence) :
    Positive evidence submitted := by
  obtain ⟨hnames, hidentity, hsuccess, hstate, _, _, hsnapshot⟩ := positiveSettlementEvidence_some h
  obtain ⟨⟨fs, hfs, _⟩, hdata⟩ := ownDataSnapshot_some hsnapshot
  refine ⟨by rw [hfs]; rfl, hnames, ?_, ?_,
    congrArg Identity.authorizationKey hidentity, get_snapshot_other hsnapshot (by decide),
    get_snapshot_other hsnapshot (by decide)⟩
  · exact Option.some.inj ((hdata "success" (by decide)).symm.trans hsuccess)
  · exact Option.some.inj ((hdata "state" (by decide)).symm.trans hstate)

theorem get_withFields {fields : List (String × Value)} {key : String} (v : Value)
    (h : key ∉ fields.map Prod.fst) :
    get (withFields v fields) key = get v key := by
  cases v with
  | obj fs =>
    have hfold : ∀ (fields fs : List (String × Value)), key ∉ fields.map Prod.fst →
        (fields.foldl (fun fs f => JsMap.setEntry f.1 f.2 fs) fs).lookup key = fs.lookup key := by
      intro fields
      induction fields with
      | nil => exact fun _ _ => rfl
      | cons f fields ih =>
        intro fs hkey
        rw [List.map_cons, List.mem_cons, not_or] at hkey
        rw [List.foldl_cons, ih _ hkey.2, JsMap.lookup_setEntry, if_neg hkey.1]
    rw [withFields, get_obj, get_obj, hfold fields fs h]
  | _ => rfl

theorem Positive.delivered (h : Positive settlement submitted) :
    Positive (deliveredSettlement settlement) submitted := by
  have hget (key : String) (hkey : key ≠ "deliveryState") : get (deliveredSettlement settlement) key
      = get settlement key :=
    get_withFields settlement (by simpa using hkey)
  refine ⟨?_, ⟨?_, ?_, ?_, h.names.known, h.names.hash, h.names.text⟩, ?_, ?_, ?_, ?_, ?_⟩
  · obtain ⟨fs, rfl⟩ := isObject_obj h.object
    rfl
  · rw [hget _ (by decide), h.names.network]
  · rw [hget _ (by decide), h.names.transaction]
  · rw [hget _ (by decide), h.names.payer]
  · rw [hget _ (by decide), h.success]
  · rw [hget _ (by decide), h.state]
  · rw [hget _ (by decide), h.authorizationKey]
  · rw [hget _ (by decide), h.noReason]
  · rw [hget _ (by decide), h.noRetry]

def RECOVERABLE_STATES : List String :=
  ["VALIDATED", "SUBMISSION_ACKNOWLEDGED", "SUBMISSION_OUTCOME_UNKNOWN", "MOMENTUM_INCLUDED",
    "DELIVERY_PENDING"]

/-- A settlement to be reconciled with the payment that was submitted. -/
structure Recoverable (settlement : Value) (submitted : Submitted) : Prop where
  network : get settlement "network" = submitted.network
  transaction : get settlement "transaction" = submitted.transaction
  payer : get settlement "payer" = submitted.payer
  state : ∃ state ∈ RECOVERABLE_STATES, get settlement "state" = .str state
  reason : ∃ reason, get settlement "errorReason" = .str reason
  retry : get settlement "retrySamePayment" = .bool true

/-- Outcomes that deliver nothing. -/
inductive GivesUp (submitted : Submitted) : Outcome → Prop
  | internalError : GivesUp submitted .internalError
  | paymentRequired : GivesUp submitted .paymentRequired
  | terminal {state : String} {settlement : Value} (hstate : state ∈ TERMINAL_RECONCILIATION_STATES)
      (hnames : Names settlement submitted)
      (heq : settlement = finalSettlement submitted (.str state) TERMINAL_RECONCILIATION_FAILURE) :
      GivesUp submitted (.terminalReconciliation settlement)
  | rejected {settlement : Value} (hnames : Names settlement submitted)
      (heq : settlement = finalSettlement submitted
        (.str "VALIDATED") DEFINITIVE_SETTLEMENT_FAILURE) :
      GivesUp submitted (.definiteRejection settlement)
  | recovery {settlement : Value} (h : Recoverable settlement submitted) :
      GivesUp submitted (.recovery settlement)

theorem givesUp_payment {state : String} (h : state ∈ RECOVERABLE_STATES) :
    GivesUp submitted (submittedPaymentRecovery submitted state) :=
  .recovery ⟨rfl, rfl, rfl, ⟨state, h, rfl⟩, ⟨_, rfl⟩, rfl⟩

theorem givesUp_delivery : GivesUp submitted (submittedDeliveryRecovery submitted) :=
  .recovery ⟨rfl, rfl, rfl, ⟨"DELIVERY_PENDING", by decide, rfl⟩, ⟨_, rfl⟩, rfl⟩

theorem givesUp_unconfirmed (h : Positive settlement submitted)
    {errorReason deliveryState : String} :
    GivesUp submitted (deliveryRecovery settlement errorReason deliveryState) := by
  have hget (key : String)
      (hkey : key ∉ ["success", "deliveryState", "errorReason", "retrySamePayment"]) :=
    @get_withFields [("success", .bool false), ("deliveryState", .str deliveryState),
      ("errorReason", .str errorReason), ("retrySamePayment", .bool true)] key settlement hkey
  refine .recovery ⟨?_, ?_, ?_, ⟨"MOMENTUM_INCLUDED", by decide, ?_⟩, ⟨errorReason, ?_⟩, ?_⟩
  · rw [hget _ (by decide), h.names.network]
  · rw [hget _ (by decide), h.names.transaction]
  · rw [hget _ (by decide), h.names.payer]
  · rw [hget _ (by decide), h.state]
  · obtain ⟨fs, rfl⟩ := isObject_obj h.object
    simp [withFields, get_obj, JsMap.lookup_setEntry]
  · obtain ⟨fs, rfl⟩ := isObject_obj h.object
    simp [withFields, get_obj, JsMap.lookup_setEntry]

theorem nonPositive_givesUp {successHidden : Bool} :
    GivesUp submitted (nonPositiveSettlementOutcome answer submitted successHidden) := by
  unfold nonPositiveSettlementOutcome
  dsimp only
  split_ifs
  · exact givesUp_payment (by decide)
  · exact givesUp_delivery
  · exact givesUp_payment (by decide)
  · exact givesUp_delivery
  · exact givesUp_payment (by decide)
  · exact givesUp_payment (by decide)
  · exact givesUp_payment (by decide)
  · exact .paymentRequired

theorem afterFailure_givesUp : GivesUp submitted (afterFailure submitted platform answer) := by
  unfold afterFailure
  split
  · exact givesUp_payment (by decide)
  · next h =>
    obtain ⟨hnames, rfl⟩ := definiteRejectionEvidence_found h
    exact .rejected hnames rfl
  · exact nonPositive_givesUp

/-- What the operation can do with a reply. -/
inductive Moved (submitted : Submitted) (handled : Bool) : Phase → Reply → Phase → Prop
  | thrown {capable : Bool} : Moved submitted handled .settling (.settled none capable)
      (.finished none)
  | gaveUp {old : Phase} {reply : Reply} {outcome : Outcome} (h : GivesUp submitted outcome) :
      Moved submitted handled old reply (.finished (some outcome))
  | cached {answer : Answer} {capable : Bool} {settlement cached : Value}
      (hsettles : answer.Settles submitted.identity "DELIVERED")
      (hpositive : Positive settlement submitted) (hcaches : answer.Caches cached) :
      Moved submitted handled .settling (.settled (some answer) capable)
      (.finished (some (.delivered settlement cached)))
  | claim {answer : Answer} {capable : Bool} {settlement : Value}
      (hsettles : answer.Settles submitted.identity "NONE")
      (hpositive : Positive settlement submitted) :
      Moved submitted handled .settling (.settled (some answer) capable) (.claiming settlement)
  | claimedCached {answer : Answer} {now : String} {settlement cached : Value}
      (hshows : answer.Shows submitted.identity "DELIVERED") (hclaims : answer.Claims false)
      (hpositive : Positive settlement submitted) (hcaches : answer.Caches cached) :
      Moved submitted handled (.claiming settlement) (.claimed (some answer) now)
        (.finished (some (.delivered (deliveredSettlement settlement) cached)))
  | granted {answer : Answer} {now : String} {settlement : Value} (hhandled : handled = true)
      (hshows : answer.Shows submitted.identity "DELIVERY_PENDING") (hclaims : answer.Claims true)
      (hpositive : Positive settlement submitted) :
      Moved submitted handled (.claiming settlement) (.claimed (some answer) now)
      (.handling settlement)
  | made {answer : Answer} {now : String} {settlement cached : Value} (hhandled : handled = false)
      (hshows : answer.Shows submitted.identity "DELIVERY_PENDING") (hclaims : answer.Claims true)
      (hpositive : Positive settlement submitted)
      (hbody : normalizeCachedResponse (jsonResponse (defaultBody settlement now)) = .ok cached) :
      Moved submitted handled (.claiming settlement) (.claimed (some answer) now)
      (.delivering settlement cached)
  | body {settlement body cached : Value} (hpositive : Positive settlement submitted)
      (hbody : normalizeCachedResponse (jsonResponse body) = .ok cached) :
      Moved submitted handled (.handling settlement) (.handled (some body))
      (.delivering settlement cached)
  | recorded {answer : Answer} {settlement cached value persisted : Value}
      (hshows : answer.Shows submitted.identity "DELIVERED")
      (hpositive : Positive settlement submitted)
      (hvalue : (answer .transition).dataOf? "cachedResponse" = some value)
      (hpersisted : normalizeCachedResponse value = .ok persisted)
      (hsame : stringify persisted = stringify cached) :
      Moved submitted handled (.delivering settlement cached) (.delivered (some answer))
        (.finished (some (.delivered (deliveredSettlement settlement) cached)))

/-- The settlement that an operation has is evidence of the payment. -/
def Phase.Sound (submitted : Submitted) : Phase → Prop
  | .settling => True
  | .claiming settlement | .handling settlement | .delivering settlement _ =>
      Positive settlement submitted
  | .finished none => True
  | .finished (some (.delivered settlement _)) => Positive settlement submitted
  | .finished (some outcome) => GivesUp submitted outcome

theorem deliverCached_eq : deliverCached submitted answer settlement
    = .finished (some (submittedDeliveryRecovery submitted))
    ∨ ∃ cached, answer.Caches cached ∧ deliverCached submitted answer settlement
    = .finished (some (.delivered settlement cached)) := by
  unfold deliverCached
  split
  · exact .inl rfl
  · next value hvalue =>
    split
    · next cached hcached => exact .inr ⟨cached, ⟨value, hvalue, hcached⟩, rfl⟩
    · exact .inl rfl

theorem afterSettle_moved {capable : Bool} :
    Moved submitted handled .settling (.settled (some answer) capable)
    (afterSettle submitted platform requirement answer capable) := by
  unfold afterSettle
  split
  · exact .gaveUp .internalError
  · next h =>
    obtain ⟨state, hstate, hnames, rfl⟩ := terminalReconciliationEvidence_found h
    exact .gaveUp (.terminal hstate hnames rfl)
  split
  · exact .gaveUp .internalError
  · next h =>
    rw [thresholdPendingEvidence_found h]
    exact .gaveUp (givesUp_payment (by decide))
  split
  · exact .gaveUp afterFailure_givesUp
  split
  · exact .gaveUp (givesUp_payment (by decide))
  · next settlement h =>
    have hpositive := positive_of_evidence h
    obtain ⟨state, hmem, hstate⟩ := isOneOf_mem (positiveSettlementEvidence_some h).2.2.2.2.2.1
    have hsettles := settles_of_evidence h hstate
    unfold afterPositive
    rw [hstate]
    split
    · exact .gaveUp givesUp_delivery
    split
    · next hdelivered =>
      obtain rfl : state = "DELIVERED" := by simpa [Value.strictEq] using hdelivered
      rcases @deliverCached_eq submitted settlement answer with hgave | ⟨cached, hcaches, hcached⟩
      · rw [hgave]
        exact .gaveUp givesUp_delivery
      · rw [hcached]
        exact .cached hsettles hpositive hcaches
    split
    · exact .gaveUp (givesUp_unconfirmed hpositive)
    · next hdelivered hpending =>
      have hnone : state = "NONE" := by
        simp only [Value.strictEq, beq_iff_eq] at hdelivered hpending
        simp only [POSITIVE_DELIVERY_STATES, List.mem_cons, List.not_mem_nil, or_false] at hmem
        tauto
      subst hnone
      exact .claim hsettles hpositive

theorem afterBody_eq (hpositive : Positive settlement submitted) (body : Value) :
    (∃ outcome, GivesUp submitted outcome ∧ afterBody settlement body = .finished (some outcome))
      ∨ ∃ cached, normalizeCachedResponse (jsonResponse body) = .ok cached
      ∧ afterBody settlement body = .delivering settlement cached := by
  unfold afterBody
  split
  · next cached h => exact .inr ⟨cached, h, rfl⟩
  · exact .inl ⟨_, givesUp_unconfirmed hpositive, rfl⟩

theorem afterClaim_moved {now : String} (hpositive : Positive settlement submitted) :
    Moved submitted handled (.claiming settlement) (.claimed (some answer) now)
      (afterClaim submitted handled settlement answer now) := by
  unfold afterClaim
  split
  · exact .gaveUp givesUp_delivery
  · next claim h =>
    obtain ⟨_, hdata⟩ := positiveTransitionEvidence_some h
    have hclaimed := hdata "deliveryClaimed" (by decide) (by decide)
    split
    · exact .gaveUp givesUp_delivery
    split
    · next hdelivered =>
      have hshows := shows_of_evidence hpositive.names h (by decide)
        (Value.strictEq_str.mp hdelivered)
      split
      · exact .gaveUp givesUp_delivery
      · next hfalse =>
        rw [Bool.not_eq_false, Value.strictEq_bool] at hfalse
        rw [hfalse] at hclaimed
        rcases @deliverCached_eq submitted (deliveredSettlement settlement)
          answer with hgave | ⟨cached, hcaches, hcached⟩
        · rw [hgave]
          exact .gaveUp givesUp_delivery
        · rw [hcached]
          exact .claimedCached hshows hclaimed hpositive hcaches
    split
    · exact .gaveUp givesUp_delivery
    · next hboth =>
      rw [not_or, Bool.not_eq_false, Bool.not_eq_false, Value.strictEq_bool,
        Value.strictEq_str] at hboth
      rw [hboth.1] at hclaimed
      have hshows := shows_of_evidence hpositive.names h (by decide) hboth.2
      split
      · next hhandled => exact .granted hhandled hshows hclaimed hpositive
      · next hnot =>
        rcases afterBody_eq hpositive (defaultBody settlement now) with ⟨outcome, hgives,
          heq⟩ | ⟨cached, hbody, heq⟩
        · rw [heq]
          exact .gaveUp hgives
        · rw [heq]
          exact .made (Bool.eq_false_of_not_eq_true hnot) hshows hclaimed hpositive hbody

theorem afterDelivered_moved (hpositive : Positive settlement submitted) :
    Moved submitted handled (.delivering settlement cached) (.delivered (some answer))
      (afterDelivered submitted settlement cached answer) := by
  unfold afterDelivered
  split
  · exact .gaveUp givesUp_delivery
  · next delivered h =>
    obtain ⟨_, hdata⟩ := positiveTransitionEvidence_some h
    have hvalue := hdata "cachedResponse" (by decide) (by decide)
    split
    · exact .gaveUp givesUp_delivery
    · next hstate =>
      rw [Bool.not_eq_false, Value.strictEq_str] at hstate
      have hshows := shows_of_evidence hpositive.names h (by decide) hstate
      split
      · exact .gaveUp givesUp_delivery
      · next persisted hpersisted =>
        split
        · next hsame => exact .recorded hshows hpositive hvalue hpersisted hsame
        · exact .gaveUp givesUp_delivery

/-- A step does one of the things of `Moved`. -/
theorem advance_moved {old new : Phase} {reply : Reply} (hold : old.Sound submitted)
    (h : advance submitted platform requirement handled old reply = some new) :
    Moved submitted handled old reply new := by
  unfold advance at h
  split at h
  · cases h
    exact .thrown
  · cases h
    exact afterSettle_moved
  · cases h
    exact .gaveUp givesUp_delivery
  · cases h
    exact afterClaim_moved hold
  · cases h
    exact .gaveUp (givesUp_unconfirmed hold)
  · next settlement body =>
    rcases afterBody_eq hold body with ⟨outcome, hgives, heq⟩ | ⟨cached, hbody, heq⟩
    · rw [heq] at h
      cases h
      exact .gaveUp hgives
    · rw [heq] at h
      cases h
      exact .body hold hbody
  · cases h
    exact .gaveUp givesUp_delivery
  · cases h
    exact afterDelivered_moved hold
  · cases h

theorem GivesUp.sound {outcome : Outcome} (h : GivesUp submitted outcome) :
    (Phase.finished (some outcome)).Sound submitted := by
  cases h with
  | internalError => exact .internalError
  | paymentRequired => exact .paymentRequired
  | terminal hstate hnames heq => exact .terminal hstate hnames heq
  | rejected hnames heq => exact .rejected hnames heq
  | recovery h => exact .recovery h

/-- An operation keeps to evidence of the payment. -/
theorem Moved.sound {old new : Phase} {reply : Reply} (h : Moved submitted handled old reply new) :
    new.Sound submitted := by
  cases h with
  | thrown => trivial
  | gaveUp h => exact h.sound
  | cached _ hpositive _ => exact hpositive
  | claim _ hpositive => exact hpositive
  | claimedCached _ _ hpositive _ => exact hpositive.delivered
  | granted _ _ _ hpositive => exact hpositive
  | made _ _ _ hpositive _ => exact hpositive
  | body hpositive _ => exact hpositive
  | recorded _ hpositive _ _ _ => exact hpositive.delivered

end

end Resource
end ZenonX402
