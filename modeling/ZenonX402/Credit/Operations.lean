/-
# The public operations of the credit model

Each public method of `InMemoryServiceCreditModel` as a program over the model,
statement by statement: what it captures of its argument, the checks in their
order, the writes, and what it returns. A throw leaves the state as far as the
method got, so an expiry that was written stays written. `Call` is a call of
any of them with its argument, and `Call.run` runs it with the callbacks of
that call.

Key definitions: `registerOffer` to `reconcileRequest`, `exportState`,
`Call`, `Result`, `Call.run`.
-/
import ZenonX402.Credit.Ledger

namespace ZenonX402
namespace Credit

open Js Prog

/-! ### Offers -/

def registerOffer (input : Value) : Prog Model Code Offer := do
  let normalized ← lift (normalizeOffer input)
  let key := offerKey normalized.offerId normalized.offerVersion
  let m ← get
  match m.ledger.offers.get? key with
  | some existing =>
    failIf (sameJson (offerCodec.encode existing) (offerCodec.encode normalized) = false)
      .OFFER_VERSION_CONFLICT
    return existing
  | none =>
    modify fun m => { m with ledger := { m.ledger with offers := m.ledger.offers.set key normalized } }
    return normalized

def offerReference : Codec Rejection (Identifier × PositiveInt × Unit) :=
  object (.cons "offerId" assertIdentifier (.cons "offerVersion" assertPositiveSafeInteger .nil))
  .INVALID_INPUT

def getOffer (input : Value) : Prog Model Code (Option Offer) := do
  let (offerId, offerVersion, _) ← lift (captured (offerReference.decode input))
  let m ← get
  return m.ledger.offers.get? (offerKey offerId offerVersion)

/-- What an offer must share with the activation record of its grant. -/
def offerScopeMatches (offer : Offer) (activation : Activation) : Bool :=
  decide (offer.providerId = activation.1.providerId)
    && decide (offer.serviceId = activation.1.serviceId)
    && decide (offer.resourceId = activation.1.resourceId)
    && decide (offer.resourceBinding = activation.1.resourceBinding)
    && decide (offer.fundingPolicyId = activation.1.fundingPolicyId)
    && decide (offer.fundingPolicyVersion = activation.1.fundingPolicyVersion)

/-! ### Grants -/

section Grants

variable (sha : Sha256)

/-- The record a grant starts as. -/
def mintedGrant (normalized : Activation) : Grant where
  toGrantIdentity := .ofActivation sha normalized
  lifecycle := .ACTIVE
  availableUnits := normalized.1.totalUnits.1
  heldUnits := 0
  consumedUnits := 0

def activateGrantFromTrustedRecord (env : Env) (input : Value) : Prog Model Code GrantSnapshot := do
  let normalized ← lift (normalizeActivation input)
  let record := mintedGrant sha normalized
  let m ← get
  let existingActivation := m.ledger.activations.get? record.activationId.1
  let byAuthoritySettlement :=
    m.ledger.activationByAuthoritySettlement.get? (authoritySettlementKey normalized)
  let byTransaction := m.ledger.activationByTransaction? normalized
  let byCapability := m.ledger.grantByCapability.get? normalized.1.capabilityCommitment.1
  let existingGrant := m.ledger.grants.get? record.grantId.1
  if existingActivation.isSome || byAuthoritySettlement.isSome || byTransaction.isSome
      || byCapability.isSome || existingGrant.isSome then
    match existingActivation, existingGrant with
    | some existing, some grant =>
      failIf (¬ (sameJson (storedActivationCodec.encode existing)
        (storedActivationCodec.encode record.stored)
          ∧ byAuthoritySettlement = some record.activationId ∧ byTransaction
          = some record.activationId
          ∧ byCapability = some record.grantId ∧ grant.description = record.description
          ∧ grant.activationId = record.activationId)) .GRANT_IDENTITY_CONFLICT
      return grantSnapshot grant
    | _, _ => throw .GRANT_IDENTITY_CONFLICT
  else
    let offer ← orFail (m.ledger.offers.get? record.offerKey) .OFFER_NOT_FOUND
    failIf (offerScopeMatches offer normalized = false) .OFFER_SCOPE_MISMATCH
    let now ← readNow env 0
    failIf (normalized.1.expiresAt.1 ≤ now) .INVALID_INPUT
    assertCounters record
    modify fun m => { m with ledger := m.ledger.addGrant record }
    return grantSnapshot record

def getActivation (input : Value) : Prog Model Code (Option StoredActivation) := do
  let activationId ← lift (captured (assertIdentifier.decode input))
  let m ← get
  return m.ledger.activations.get? activationId.1

def getGrant (env : Env) (input : Value) : Prog Model Code (Option GrantSnapshot) := do
  let grantId ← lift (captured (assertIdentifier.decode input))
  let m ← get
  match m.ledger.grants.get? grantId.1 with
  | none => return none
  | some record =>
    let record ← refreshGrant env 0 record
    return some (grantSnapshot record)

def grantReference : Codec Rejection (Identifier × Unit) :=
  object (.cons "grantId" assertIdentifier .nil) .INVALID_INPUT

def revokeGrant (env : Env) (input : Value) : Prog Model Code GrantSnapshot := do
  let (grantId, _) ← lift (captured (grantReference.decode input))
  let record ← requireGrant grantId
  let record ← refreshGrant env 0 record
  if record.lifecycle = .REVOKED then
    return grantSnapshot record
  else
    failIf (record.lifecycle ≠ .ACTIVE) .INVALID_GRANT_TRANSITION
    let revoked := { record with lifecycle := .REVOKED }
    modify fun m => { m with ledger := m.ledger.setGrant revoked }
    return grantSnapshot revoked

/-! ### The original funding of a grant -/

def captureServiceCreditOriginalFundingIdentity := object
  (.cons "transactionId" (.text isZenonTransactionReference Rejection.INVALID_INPUT)
  (.cons "network" (.text (fun s => "zenon:".toList.isPrefixOf s.toList
      && Text.allOf isIdentifierChar 7 116 s) .INVALID_INPUT)
  (.cons "chainProfile" (object
    (.const "version" (.constNum 1 .INVALID_INPUT)
    (.cons "chainIdentifier" (.text isSdkSafeChainIdentifier .INVALID_INPUT)
    (.cons "genesisMomentumHash" (.text Text.isHash .INVALID_INPUT) .nil))) .INVALID_INPUT)
  (.cons "asset" assertIdentifier
  (.cons "amount" (.text (fun s => Text.isPositiveDecimal s && decide (s.length ≤ 77))
    .INVALID_INPUT)
  (.cons "payee" assertIdentifier
  (.cons "offerId" assertIdentifier
  (.cons "offerVersion" assertPositiveSafeInteger
  (.cons "holderId" assertIdentifier
  (.cons "capabilityCommitment" assertCommitment
  (.cons "paymentResourceDigest" assertCommitment
  (.cons "paymentRequirementDigest" assertCommitment
  (.cons "paymentIntentDigest" assertCommitment
  (.cons "grantFundingCommitment" assertCommitment .nil)))))))))))))) Rejection.INVALID_INPUT

/-- `matchesServiceCreditOriginalFundingGrant`: every field of the identity is
the activation record's, as a string or a number. -/
def matchesServiceCreditOriginalFundingGrant (query : Value) (a : ActivationFields) : Bool :=
  a.transactionId.depth == 0 && a.chainProfile.genesisMomentumHash.depth == 0
    && sameJson query (.obj [
      ("transactionId", .str a.transactionId.text),
      ("network", .str a.network.1),
      ("chainProfile", chainProfileCodec.encode a.chainProfile),
      ("asset", .str a.asset.1),
      ("amount", .str a.amount.1),
      ("payee", .str a.payee.1),
      ("offerId", .str a.offerId.1),
      ("offerVersion", .num a.offerVersion.1),
      ("holderId", .str a.holderId.1),
      ("capabilityCommitment", .str a.capabilityCommitment.1),
      ("paymentResourceDigest", .str a.paymentResourceDigest.1),
      ("paymentRequirementDigest", .str a.paymentRequirementDigest.1),
      ("paymentIntentDigest", .str a.paymentIntentDigest.1),
      ("grantFundingCommitment", .str a.grantFundingCommitment.1)])

/-- The recorded grant, or none for NOT_RECORDED. A grant that is recorded
with counters that do not add up fails. -/
def readOriginalFundingGrant (input : Value) : Prog Model Code (Option Grant) := do
  let query ← lift (captured (captureServiceCreditOriginalFundingIdentity.decode input))
  let m ← get
  let activationId := m.ledger.activationByTransaction.get? query.1.1
  let grantId := m.ledger.grantByCapability.get? query.2.2.2.2.2.2.2.2.2.1.1
  match activationId, grantId with
  | some activationId, some grantId =>
    let record ← orFail (m.ledger.grants.get? grantId.1) .INVALID_STATE
    if record.activationId = activationId
        ∧ matchesServiceCreditOriginalFundingGrant
        (captureServiceCreditOriginalFundingIdentity.encode query) record.activation.1 = true then
      failIf (record.countersHold = false
        ∨ Text.prefixed "grant_" Text.isHexLower 64 record.grantId.1 = false
        ∨ Text.prefixed "activation_" Text.isHexLower 64 record.activationId.1 = false)
        .SERVICE_CREDIT_ORIGINAL_FUNDING_GRANT
      return some record
    else return none
  | _, _ => return none

end Grants

/-! ### Requests -/

structure Reservation where
  replayed : Bool
  executionAuthorized : Bool
  request : Request

structure ExecutionStart where
  executionAuthorized : Bool
  request : Request

structure Transition where
  transitioned : Bool
  request : Request

def reserveRequest (sha : Sha256) (env : Env) (input : Value) : Prog Model Code Reservation := do
  let normalized ← lift (normalizeRequest input)
  let grant ← requireGrant normalized.grantId
  let m ← get
  let requests ← orFail (m.ledger.requests.get? grant.grantId.1) .typeError
  match requests.get? normalized.requestId.1 with
  | some existing =>
    failIf (existing.toRequestInput ≠ normalized) .REQUEST_ID_CONFLICT
    return ⟨true, false, existing⟩
  | none =>
    let admission ← requestAdmissionState
    failIf (admission.2 = true) .UNRESOLVED_EXECUTION
    failIf (MAX_HYDRATED_REQUESTS ≤ admission.1) .REQUEST_CAPACITY_EXCEEDED
    let grant ← refreshGrant env 0 grant
    failIf (grant.lifecycle ≠ .ACTIVE) .GRANT_NOT_ACTIVE
    let m ← get
    let offer ← orFail (m.ledger.offers.get? grant.offerKey) .INVARIANT_VIOLATION
    let costUnits ← serverCost env offer grant normalized
    failIf (normalized.maxCostUnits.1 < costUnits.1) .COST_NOT_AUTHORIZED
    failIf (grant.availableUnits < costUnits.1) .INSUFFICIENT_UNITS
    let record : Request :=
      { normalized with
        requestDigest := requestDigestFor sha normalized grant.offerId grant.offerVersion costUnits
        offerId := grant.offerId
        offerVersion := grant.offerVersion
        costUnits := costUnits
        state := .RESERVED
        cachedResult := none }
    let grant ← refreshGrant env 1 grant
    failIf (grant.lifecycle ≠ .ACTIVE) .GRANT_NOT_ACTIVE
    let grant := { grant with
      availableUnits := Js.sub grant.availableUnits costUnits.1
      heldUnits := Js.add grant.heldUnits costUnits.1 }
    modify fun m => { m with ledger := m.ledger.setGrant grant }
    assertCounters grant
    modify fun m => { m with ledger := m.ledger.setRequest record }
    return ⟨false, false, record⟩

def getRequest (input : Value) : Prog Model Code (Option Request) := do
  let reference ← lift (normalizeReference input)
  let m ← get
  match m.ledger.grants.get? reference.grantId.1 with
  | none => return none
  | some _ => return m.ledger.request? reference.grantId.1 reference.requestId.1

def beginExecution (env : Env) (input : Value) : Prog Model Code ExecutionStart := do
  let reference ← lift (normalizeReference input)
  let (grant, request) ← requireRequest reference
  if request.state ≠ .RESERVED then
    return ⟨false, request⟩
  else
    let admission ← requestAdmissionState
    failIf (admission.2 = true) .UNRESOLVED_EXECUTION
    let grant ← refreshGrant env 0 grant
    failIf (grant.lifecycle ≠ .ACTIVE) .GRANT_NOT_ACTIVE
    let request := { request with state := .EXECUTING }
    modify fun m => { m with ledger := m.ledger.setRequest request }
    return ⟨true, request⟩

def releaseBeforeExecution (input : Value) : Prog Model Code Transition := do
  let reference ← lift (normalizeReference input)
  let (grant, request) ← requireRequest reference
  if request.state = .FAILED_RELEASED then
    return ⟨false, request⟩
  else
    failIf (request.state ≠ .RESERVED) .INVALID_REQUEST_TRANSITION
    let grant := { grant with
      heldUnits := Js.sub grant.heldUnits request.costUnits.1
      availableUnits := Js.add grant.availableUnits request.costUnits.1 }
    let request := { request with state := .FAILED_RELEASED }
    modify fun m => { m with ledger := (m.ledger.setGrant grant).setRequest request }
    assertCounters grant
    return ⟨true, request⟩

def completionInput : Codec Rejection (Identifier × Identifier × CachedResult × Unit) :=
  object (.cons "grantId" assertIdentifier
    (.cons "requestId" assertIdentifier
    (.cons "cachedResult" cachedResultCodec .nil))) .INVALID_INPUT

/-- `sameJson(request.cachedResult, cachedResult)`. -/
def sameCachedResult (stored : Option CachedResult) (given : CachedResult) : Bool :=
  sameJson (Codec.encodeNullable cachedResultCodec stored) (cachedResultCodec.encode given)

def completeExecution (input : Value) : Prog Model Code Transition := do
  let (grantId, requestId, cachedResult, _) ← lift (captured (completionInput.decode input))
  let (grant, request) ← requireRequest ⟨grantId, requestId⟩
  failIf (cachedResult.contentType ≠ request.selectedContentType) .INVALID_INPUT
  if request.state = .SUCCEEDED then
    failIf (sameCachedResult request.cachedResult cachedResult = false) .RESULT_CONFLICT
    return ⟨false, request⟩
  else
    failIf (request.state ≠ .EXECUTING) .INVALID_REQUEST_TRANSITION
    let grant := { grant with
      heldUnits := Js.sub grant.heldUnits request.costUnits.1
      consumedUnits := Js.add grant.consumedUnits request.costUnits.1 }
    let request := { request with state := .SUCCEEDED, cachedResult := some cachedResult }
    modify fun m => { m with ledger := (m.ledger.setGrant grant).setRequest request }
    assertCounters grant
    return ⟨true, request⟩

def markOutcomeUnknown (input : Value) : Prog Model Code Transition := do
  let reference ← lift (normalizeReference input)
  let (_, request) ← requireRequest reference
  if request.state = .OUTCOME_UNKNOWN then
    return ⟨false, request⟩
  else
    failIf (request.state ≠ .EXECUTING) .INVALID_REQUEST_TRANSITION
    let request := { request with state := .OUTCOME_UNKNOWN }
    modify fun m => { m with ledger := m.ledger.setRequest request }
    return ⟨true, request⟩

/-- The outcome an ambiguous execution is reconciled to: SUCCEEDED with a
result, or FAILED_RELEASED. -/
inductive ReconciledOutcome
  | SUCCEEDED (cachedResult : CachedResult)
  | FAILED_RELEASED

def ReconciledOutcome.state : ReconciledOutcome → RequestState
  | .SUCCEEDED _ => .SUCCEEDED
  | .FAILED_RELEASED => .FAILED_RELEASED

def reconciliationInput :=
  object (.cons "grantId" assertIdentifier
    (.cons "requestId" assertIdentifier
    (.cons "outcome" (.text (fun s => s == "SUCCEEDED" || s == "FAILED_RELEASED") .INVALID_INPUT)
    (.optional "cachedResult" cachedResultCodec .nil)))) Rejection.INVALID_INPUT

/-- The reference and the outcome that `reconcileRequest` captures. -/
def captureReconciliation (input : Value) : Except Code (Reference × ReconciledOutcome) := do
  let (grantId, requestId, outcome, cachedResult, _) ← captured (reconciliationInput.decode input)
  match cachedResult with
  | some result =>
    if outcome.1 = "SUCCEEDED" then .ok (⟨grantId, requestId⟩, .SUCCEEDED result)
      else .error .INVALID_INPUT
  | none =>
    if outcome.1 = "SUCCEEDED" then .error .INVALID_INPUT
      else .ok (⟨grantId, requestId⟩, .FAILED_RELEASED)

/-- The request and its grant after the outcome. -/
def reconcileTo (grant : Grant) (request : Request) : ReconciledOutcome → Grant × Request
  | .SUCCEEDED cachedResult =>
    ({ grant with
        heldUnits := Js.sub grant.heldUnits request.costUnits.1
        consumedUnits := Js.add grant.consumedUnits request.costUnits.1 },
      { request with state := .SUCCEEDED, cachedResult := some cachedResult })
  | .FAILED_RELEASED =>
    ({ grant with
        heldUnits := Js.sub grant.heldUnits request.costUnits.1
        availableUnits := Js.add grant.availableUnits request.costUnits.1 },
      { request with state := .FAILED_RELEASED })

/-- `cachedResult && assertCachedResultRepresentation(cachedResult, ...)`. -/
def ReconciledOutcome.represents (selected : ContentType) : ReconciledOutcome → Bool
  | .SUCCEEDED cachedResult => decide (cachedResult.contentType = selected)
  | .FAILED_RELEASED => true

/-- A replay with the result that is stored. -/
def ReconciledOutcome.agrees (stored : Option CachedResult) : ReconciledOutcome → Bool
  | .SUCCEEDED cachedResult => sameCachedResult stored cachedResult
  | .FAILED_RELEASED => true

def reconcileRequest (input : Value) : Prog Model Code Transition := do
  let (reference, outcome) ← lift (captureReconciliation input)
  let (grant, request) ← requireRequest reference
  failIf (outcome.represents request.selectedContentType = false) .INVALID_INPUT
  if request.state = outcome.state then
    failIf (outcome.agrees request.cachedResult = false) .RECONCILIATION_CONFLICT
    return ⟨false, request⟩
  else
    failIf (request.state ≠ .OUTCOME_UNKNOWN) .RECONCILIATION_CONFLICT
    let (grant, request) := reconcileTo grant request outcome
    modify fun m => { m with ledger := (m.ledger.setGrant grant).setRequest request }
    assertCounters grant
    return ⟨true, request⟩

/-! ### The exported state -/

def GrantLifecycle.all : List GrantLifecycle := [.ACTIVE, .EXPIRED, .REVOKED]

def GrantLifecycle.name : GrantLifecycle → String
  | .ACTIVE => "ACTIVE"
  | .EXPIRED => "EXPIRED"
  | .REVOKED => "REVOKED"

def RequestState.all : List RequestState :=
  [.RESERVED, .EXECUTING, .SUCCEEDED, .FAILED_RELEASED, .OUTCOME_UNKNOWN]

def RequestState.name : RequestState → String
  | .RESERVED => "RESERVED"
  | .EXECUTING => "EXECUTING"
  | .SUCCEEDED => "SUCCEEDED"
  | .FAILED_RELEASED => "FAILED_RELEASED"
  | .OUTCOME_UNKNOWN => "OUTCOME_UNKNOWN"

def exportedGrant (g : Grant) : Value := .obj [
  ("grantId", .str g.grantId.1),
  ("modelVersion", .num 1),
  ("activationId", .str g.activationId.1),
  ("activation", storedActivationCodec.encode g.stored),
  ("sourceSettlementId", .str g.activation.1.sourceSettlementId.1),
  ("transactionId", Codec.wrap g.transactionId.depth (.str g.transactionId.text)),
  ("providerId", .str g.activation.1.providerId.1),
  ("serviceId", .str g.activation.1.serviceId.1),
  ("resourceId", .str g.activation.1.resourceId.1),
  ("offerId", .str g.offerId.1),
  ("offerVersion", .num g.offerVersion.1),
  ("holderId", .str g.activation.1.holderId.1),
  ("capabilityCommitment", .str g.capabilityCommitment.1),
  ("totalUnits", .num g.totalUnits.1),
  ("expiresAt", .num g.expiresAt.1),
  ("paymentIntent", .obj [
    ("intentId", .str g.activation.1.paymentIntentDigest.1),
    ("requirementId", .str g.activation.1.paymentRequirementDigest.1)]),
  ("lifecycle", .str g.lifecycle.name),
  ("availableUnits", .num g.availableUnits),
  ("heldUnits", .num g.heldUnits),
  ("consumedUnits", .num g.consumedUnits)]

def exportedRequest (q : Request) : Value := .obj [
  ("modelVersion", .num 1),
  ("grantId", .str q.grantId.1),
  ("requestId", .str q.requestId.1),
  ("requestDigest", .str q.requestDigest.1),
  ("offerId", .str q.offerId.1),
  ("offerVersion", .num q.offerVersion.1),
  ("method", .str q.method.1),
  ("routeId", .str q.routeId.1),
  ("canonicalBodyDigest", .str q.canonicalBodyDigest.1),
  ("selectedContentType", .str q.selectedContentType.1),
  ("maxCostUnits", .num q.maxCostUnits.1),
  ("costUnits", .num q.costUnits.1),
  ("state", .str q.state.name),
  ("cachedResult", Codec.encodeNullable cachedResultCodec q.cachedResult)]

/-- `compareText(left.offerId, right.offerId) || left.offerVersion - right.offerVersion`. -/
def offerLe (a b : Offer) : Prop :=
  a.offerId.1 < b.offerId.1 ∨ a.offerId = b.offerId ∧ a.offerVersion.1 ≤ b.offerVersion.1

def grantLe (a b : Grant) : Prop := a.grantId.1 ≤ b.grantId.1

def requestLe (a b : Request) : Prop :=
  a.grantId.1 < b.grantId.1 ∨ a.grantId = b.grantId ∧ a.requestId.1 ≤ b.requestId.1

instance : DecidableRel offerLe := fun _ _ => inferInstanceAs (Decidable (_ ∨ _))

instance : DecidableRel grantLe := fun _ _ => inferInstanceAs (Decidable (_ ≤ _))

instance : DecidableRel requestLe := fun _ _ => inferInstanceAs (Decidable (_ ∨ _))

/-- The records of a ledger in the order of an export. -/
structure Snapshot where
  offers : List Offer
  grants : List Grant
  requests : List Request

def Ledger.snapshot (L : Ledger) : Snapshot where
  offers := L.offers.values.insertionSort offerLe
  grants := L.grants.values.insertionSort grantLe
  requests := (L.requests.values.flatMap JsMap.values).insertionSort requestLe

def Snapshot.encode (s : Snapshot) : Value := .obj [
  ("schemaVersion", .num 2),
  ("modelVersion", .num 1),
  ("offers", .arr (s.offers.map offerCodec.encode)),
  ("grants", .arr (s.grants.map exportedGrant)),
  ("requests", .arr (s.requests.map exportedRequest))]

def exportState : Prog Model Code Value := do
  let m ← get
  return m.ledger.snapshot.encode

/-! ### Calls -/

/-- A call of a public method. -/
inductive Call
  | registerOffer (input : Value)
  | getOffer (input : Value)
  | activateGrantFromTrustedRecord (input : Value)
  | getActivation (activationId : Value)
  | getGrant (grantId : Value)
  | readOriginalFundingGrant (input : Value)
  | revokeGrant (input : Value)
  | reserveRequest (input : Value)
  | getRequest (input : Value)
  | beginExecution (input : Value)
  | releaseBeforeExecution (input : Value)
  | completeExecution (input : Value)
  | markOutcomeUnknown (input : Value)
  | reconcileRequest (input : Value)
  | exportState

/-- What a public method returns. -/
inductive Result
  | offer (offer : Option Offer)
  | activation (activation : Option StoredActivation)
  | grant (grant : Option GrantSnapshot)
  | funding (record : Option Grant)
  | reservation (reservation : Reservation)
  | request (request : Option Request)
  | execution (start : ExecutionStart)
  | transition (transition : Transition)
  | state (state : Value)

/-- The body of a public method. -/
def Call.body (sha : Sha256) (env : Env) : Call → Prog Model Code Result
  | .registerOffer input => return .offer (some (← Credit.registerOffer input))
  | .getOffer input => return .offer (← Credit.getOffer input)
  | .activateGrantFromTrustedRecord input =>
    return .grant (some (← Credit.activateGrantFromTrustedRecord sha env input))
  | .getActivation activationId => return .activation (← Credit.getActivation activationId)
  | .getGrant grantId => return .grant (← Credit.getGrant env grantId)
  | .readOriginalFundingGrant input => return .funding (← Credit.readOriginalFundingGrant input)
  | .revokeGrant input => return .grant (some (← Credit.revokeGrant env input))
  | .reserveRequest input => return .reservation (← Credit.reserveRequest sha env input)
  | .getRequest input => return .request (← Credit.getRequest input)
  | .beginExecution input => return .execution (← Credit.beginExecution env input)
  | .releaseBeforeExecution input => return .transition (← Credit.releaseBeforeExecution input)
  | .completeExecution input => return .transition (← Credit.completeExecution input)
  | .markOutcomeUnknown input => return .transition (← Credit.markOutcomeUnknown input)
  | .reconcileRequest input => return .transition (← Credit.reconcileRequest input)
  | .exportState => return .state (← Credit.exportState)

/-- Call a public method: what it returns or throws, and the model after it. -/
def Call.run (sha : Sha256) (env : Env) (call : Call) (m : Model) : Except Code Result × Model :=
  (runPublicOperation (call.body sha env)).exec m

end Credit
end ZenonX402
