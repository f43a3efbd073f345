/-
# Hydrating a ledger from a snapshot

`InMemoryServiceCreditModel.fromState`: the exported state is read record by
record, and the maps are rebuilt in three loops that check order, identity,
scope and uniqueness; the counters are compared with the sums over the requests
at the end. Every failure, of whatever kind, is INVALID_STATE, so the records
are read here before the loops that check them.

Key definitions: `stateCodec`, `normalizeExportedGrant`, `hydrateOffer`,
`hydrateGrant`, `hydrateRequest`, `fromState`.
-/
import ZenonX402.Credit.Steps

namespace ZenonX402
namespace Credit

open Js

/-! ### The exported records -/

/-- The fields of an exported grant, each checked by itself. -/
structure ExportedGrant where
  grantId : Identifier
  activationId : Identifier
  activation : StoredActivation
  sourceSettlementId : Identifier
  transactionId : Codec.Coerced fun s => isMockTransactionReference s
    || isZenonTransactionReference s
  providerId : Identifier
  serviceId : Identifier
  resourceId : Identifier
  offerId : Identifier
  offerVersion : PositiveInt
  holderId : Identifier
  capabilityCommitment : Commitment
  totalUnits : PositiveInt
  expiresAt : PositiveInt
  intentId : Commitment
  requirementId : Commitment
  lifecycle : GrantLifecycle
  availableUnits : {n : Int // n.natAbs ≤ 9007199254740991 ∧ decide (0 ≤ n) = true}
  heldUnits : {n : Int // n.natAbs ≤ 9007199254740991 ∧ decide (0 ≤ n) = true}
  consumedUnits : {n : Int // n.natAbs ≤ 9007199254740991 ∧ decide (0 ≤ n) = true}

def lifecycleCodec : Codec Rejection GrantLifecycle :=
  .enum GrantLifecycle.all GrantLifecycle.name .INVALID_INPUT
    (fun a => by cases a <;> decide) (fun a b => by cases a <;> cases b <;> decide)

def requestStateCodec : Codec Rejection RequestState :=
  .enum RequestState.all RequestState.name .INVALID_INPUT
    (fun a => by cases a <;> decide) (fun a b => by cases a <;> cases b <;> decide)

/-- A counter of an exported grant. -/
def counter : Codec Rejection {n : Int // n.natAbs ≤ 9007199254740991 ∧ decide (0 ≤ n) = true} :=
  .integer (fun n => decide (0 ≤ n)) .INVALID_INPUT

def exportedGrantCodec : Codec Rejection ExportedGrant :=
  (object (.cons "grantId" assertIdentifier
    (.const "modelVersion" modelVersion
    (.cons "activationId" assertIdentifier
    (.cons "activation" storedActivationCodec
    (.cons "sourceSettlementId" assertIdentifier
    (.cons "transactionId" (Codec.coerced _ .INVALID_INPUT)
    (.cons "providerId" assertIdentifier
    (.cons "serviceId" assertIdentifier
    (.cons "resourceId" assertIdentifier
    (.cons "offerId" assertIdentifier
    (.cons "offerVersion" assertPositiveSafeInteger
    (.cons "holderId" assertIdentifier
    (.cons "capabilityCommitment" assertCommitment
    (.cons "totalUnits" assertPositiveSafeInteger
    (.cons "expiresAt" assertPositiveSafeInteger
    (.cons "paymentIntent"
      (object (.cons "intentId" assertCommitment (.cons "requirementId" assertCommitment .nil))
      Rejection.INVALID_INPUT)
    (.cons "lifecycle" lifecycleCodec
    (.cons "availableUnits" counter
    (.cons "heldUnits" counter
    (.cons "consumedUnits" counter .nil)))))))))))))))))))) Rejection.INVALID_INPUT).equiv
    { toFun := fun (a, b, c, d, e, f, g, h, i, j, k, l, m, n, (o, p, _), q, r, s, t, _) =>
        ⟨a, b, c, d, e, f, g, h, i, j, k, l, m, n, o, p, q, r, s, t⟩
      invFun := fun v => (v.grantId, v.activationId, v.activation, v.sourceSettlementId,
        v.transactionId, v.providerId, v.serviceId, v.resourceId, v.offerId,
        v.offerVersion, v.holderId,
        v.capabilityCommitment, v.totalUnits, v.expiresAt,
        (v.intentId, v.requirementId, ()), v.lifecycle,
        v.availableUnits, v.heldUnits, v.consumedUnits, ())
      left_inv := fun _ => rfl
      right_inv := fun _ => rfl }

def exportedRequestCodec : Codec Rejection Request :=
  (object (.const "modelVersion" modelVersion
    (.cons "grantId" assertIdentifier
    (.cons "requestId" assertIdentifier
    (.cons "requestDigest" assertCommitment
    (.cons "offerId" assertIdentifier
    (.cons "offerVersion" assertPositiveSafeInteger
    (.cons "method" assertMethod
    (.cons "routeId" assertIdentifier
    (.cons "canonicalBodyDigest" assertCommitment
    (.cons "selectedContentType" assertContentType
    (.cons "maxCostUnits" assertPositiveSafeInteger
    (.cons "costUnits" assertPositiveSafeInteger
    (.cons "state" requestStateCodec
    (.cons "cachedResult" (cachedResultCodec.nullable fun a h => by cases h) .nil))))))))))))))
      Rejection.INVALID_INPUT).equiv
    { toFun := fun (a, b, c, d, e, f, g, h, i, j, k, l, m, _) => ⟨⟨a, b, f, g, h, i, j⟩, c,
      d, e, k, l, m⟩
      invFun := fun q => (q.grantId, q.requestId, q.requestDigest, q.offerId,
        q.offerVersion, q.method, q.routeId, q.canonicalBodyDigest, q.selectedContentType,
        q.maxCostUnits, q.costUnits, q.state,
        q.cachedResult, ())
      left_inv := fun _ => rfl
      right_inv := fun _ => rfl }

/-- The records of a snapshot, each checked by itself. -/
structure ExportedState where
  offers : List Offer
  grants : List ExportedGrant
  requests : List Request

def stateCodec : Codec Rejection ExportedState :=
  (object (.const "schemaVersion" (.constNum 2 .INVALID_INPUT)
    (.const "modelVersion" modelVersion
    (.cons "offers" (offerCodec.list .INVALID_INPUT)
    (.cons "grants" (exportedGrantCodec.list .INVALID_INPUT)
    (.cons "requests" (exportedRequestCodec.list .INVALID_INPUT) .nil)))))
    Rejection.INVALID_INPUT).equiv
    { toFun := fun (a, b, c, _) => ⟨a, b, c⟩
      invFun := fun s => (s.offers, s.grants, s.requests, ())
      left_inv := fun _ => rfl
      right_inv := fun _ => rfl }

/-! ### The loops -/

/-- `if (c) failState()`. -/
def failStateIf (c : Prop) [Decidable c] : Except Code Unit :=
  if c then .error .INVALID_STATE else .ok ()

/-- One round of the loop over the offers; `prior` is the offer before. -/
def hydrateOffer (acc : Option Offer × JsMap String Offer) (normalized : Offer) :
    Except Code (Option Offer × JsMap String Offer) := do
  let (prior, offers) := acc
  let key := offerKey normalized.offerId normalized.offerVersion
  failStateIf (∃ p ∈ prior, normalized.offerId.1 < p.offerId.1
    ∨ p.offerId = normalized.offerId ∧ normalized.offerVersion.1 ≤ p.offerVersion.1)
  failStateIf ((offers.get? key).isSome = true)
  return (some normalized, offers.set key normalized)

/-- `normalizeExportedGrant`, of a record whose fields are checked. -/
def normalizeExportedGrant (sha : Sha256) (value : ExportedGrant) : Except Code Grant := do
  let activation := value.activation.record
  let expected := GrantIdentity.ofActivation sha activation
  failStateIf (value.activation.activationId ≠ expected.activationId
    ∨ value.activationId ≠ expected.activationId)
  failStateIf (value.grantId ≠ expected.grantId)
  failStateIf (value.sourceSettlementId ≠ activation.1.sourceSettlementId
    ∨ value.transactionId.strictEq activation.1.transactionId = false
    ∨ value.providerId ≠ activation.1.providerId
    ∨ value.serviceId ≠ activation.1.serviceId
    ∨ value.resourceId ≠ activation.1.resourceId
    ∨ value.offerId ≠ activation.1.offerId
    ∨ value.offerVersion ≠ activation.1.offerVersion
    ∨ value.holderId ≠ activation.1.holderId
    ∨ value.capabilityCommitment ≠ activation.1.capabilityCommitment
    ∨ value.totalUnits ≠ activation.1.totalUnits
    ∨ value.expiresAt ≠ activation.1.expiresAt
    ∨ value.intentId ≠ activation.1.paymentIntentDigest
    ∨ value.requirementId ≠ activation.1.paymentRequirementDigest)
  failStateIf (activation.1.totalUnits.1 ≠
    Js.add (Js.add value.availableUnits.1 value.heldUnits.1) value.consumedUnits.1)
  return ⟨expected, value.lifecycle, value.availableUnits.1, value.heldUnits.1,
    value.consumedUnits.1⟩

instance (L : Ledger) (i : GrantIdentity) : Decidable (L.Fresh i) :=
  decidable_of_iff (L.grants.get? i.grantId.1 = none ∧ L.activations.get? i.activationId.1 = none
      ∧ L.activationByAuthoritySettlement.get? (authoritySettlementKey i.activation) = none
      ∧ L.activationByTransaction? i.activation = none
      ∧ L.grantByCapability.get? i.capabilityCommitment.1 = none)
    ⟨fun ⟨a, b, c, d, e⟩ => ⟨a, b, c, d, e⟩, fun ⟨a, b, c, d, e⟩ => ⟨a, b, c, d, e⟩⟩

/-- The checks of a grant against those before it. The sets of identities the
source keeps beside the maps hold the keys of the maps. -/
def admitGrant (acc : Option Grant × Ledger) (record : Grant) :
    Except Code (Option Grant × Ledger) := do
  let (prior, L) := acc
  failStateIf (∃ p ∈ prior, record.grantId.1 ≤ p.grantId.1)
  failStateIf (∀ offer ∈ L.offers.get? record.offerKey,
    offerScopeMatches offer record.activation = false)
  failStateIf (¬ L.Fresh record.toGrantIdentity)
  return (some record, L.addGrant record)

/-- One round of the loop over the grants. -/
def hydrateGrant (sha : Sha256) (acc : Option Grant × Ledger) (value : ExportedGrant) :
    Except Code (Option Grant × Ledger) := do
  let record ← normalizeExportedGrant sha value
  admitGrant acc record

/-- The requests so far and their sums by grant. -/
structure RequestsSoFar where
  prior : Option Request
  ledger : Ledger
  heldByGrant : JsMap String Int
  consumedByGrant : JsMap String Int

/-- `(sums.get(grantId) ?? 0) + costUnits`, kept when it is safe. -/
def addCost (sums : JsMap String Int) (record : Request) : Except Code (JsMap String Int) := do
  let next := Js.add ((sums.get? record.grantId.1).getD 0) record.costUnits.1
  failStateIf (9007199254740991 < next.natAbs)
  return sums.set record.grantId.1 next

/-- The sums after a request that counts when `c` holds. -/
def addCostIf (c : Prop) [Decidable c] (sums : JsMap String Int) (record : Request) :
    Except Code (JsMap String Int) :=
  if c then addCost sums record else .ok sums

/-- One round of the loop over the requests. -/
def hydrateRequest (sha : Sha256) (acc : RequestsSoFar) (record : Request) :
    Except Code RequestsSoFar := do
  failStateIf (record.resultConsistent = false)
  failStateIf (∃ p ∈ acc.prior, record.grantId.1 < p.grantId.1
    ∨ p.grantId = record.grantId ∧ record.requestId.1 ≤ p.requestId.1)
  match acc.ledger.grants.get? record.grantId.1, acc.ledger.requests.get? record.grantId.1 with
  | some grant, some grantRequests =>
    failStateIf (record.offerId ≠ grant.offerId ∨ record.offerVersion ≠ grant.offerVersion
      ∨ record.maxCostUnits.1 < record.costUnits.1 ∨ grant.totalUnits.1 < record.costUnits.1)
    failStateIf (record.requestDigest ≠
      requestDigestFor sha record.toRequestInput grant.offerId grant.offerVersion record.costUnits)
    failStateIf ((grantRequests.get? record.requestId.1).isSome = true)
    let held ← addCostIf (record.state.holds = true) acc.heldByGrant record
    let consumed ← addCostIf (record.state = .SUCCEEDED) acc.consumedByGrant record
    return ⟨some record, acc.ledger.setRequest record, held, consumed⟩
  | _, _ => .error .INVALID_STATE

/-- The comparison of a grant's counters with the sums over its requests. -/
def countersMatch (acc : RequestsSoFar) (grant : Grant) : Bool :=
  let heldUnits := (acc.heldByGrant.get? grant.grantId.1).getD 0
  let consumedUnits := (acc.consumedByGrant.get? grant.grantId.1).getD 0
  let availableUnits := Js.sub (Js.sub grant.totalUnits.1 heldUnits) consumedUnits
  isCounter availableUnits && grant.heldUnits == heldUnits && grant.consumedUnits == consumedUnits
    && grant.availableUnits == availableUnits

/-- The maps rebuilt from the records. -/
def hydrate (sha : Sha256) (s : ExportedState) : Except Code Ledger := do
  failStateIf (MAX_HYDRATED_OFFERS < s.offers.length ∨ MAX_HYDRATED_GRANTS < s.grants.length
    ∨ MAX_HYDRATED_REQUESTS < s.requests.length)
  let (_, offers) ← s.offers.foldlM hydrateOffer (none, .empty)
  let (_, L) ← s.grants.foldlM (hydrateGrant sha) (none, { Ledger.empty with offers := offers })
  let acc ← s.requests.foldlM (hydrateRequest sha) ⟨none, L, .empty, .empty⟩
  failStateIf (¬ ∀ grant ∈ acc.ledger.grants.values, countersMatch acc grant = true)
  return acc.ledger

/-- `fromState`: the ledger of the model that is returned. -/
def fromState (sha : Sha256) (state : Value) : Except Code Ledger :=
  match stateCodec.decode state with
  | .ok s => hydrate sha s
  | .error _ => .error .INVALID_STATE

theorem failStateIf_ok {c : Prop} [Decidable c] {u : Unit} : failStateIf c = .ok u ↔ ¬ c := by
  unfold failStateIf
  by_cases h : c
  · rw [if_pos h]
    simp [h]
  · rw [if_neg h]
    simp [h]

end Credit
end ZenonX402
