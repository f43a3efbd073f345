/-
# The records of the service credit ledger

What the credit model keeps of what it is given: offers, activation records,
requests and cached results, each with the codec that is its normalizer in
`service-credit-model.js`. A field's type carries its check (an `Identifier` is
a string the identifier pattern accepts), so a record that exists is one the
normalizer would accept.

An argument is a tree of plain values. The sign of a zero is dropped, since
only positive numbers and the three counters are kept.

Key definitions: `Offer`, `Activation`, `RequestInput`, `CachedResult` and
their codecs; `normalizeOffer`, `normalizeActivation`, `normalizeRequest`,
`normalizeReference`.
-/
import ZenonX402.Lib.Codec
import ZenonX402.Lib.Text

namespace ZenonX402
namespace Credit

open Js

/-- The codes of `ServiceCreditModelError`; `typeError` is the error of the
language for a property of undefined. -/
inductive Code
  | INVALID_INPUT
  | INVALID_STATE
  | INVALID_CLOCK
  | INVALID_COST
  | INVARIANT_VIOLATION
  | REENTRANT_OPERATION
  | OFFER_VERSION_CONFLICT
  | OFFER_NOT_FOUND
  | OFFER_SCOPE_MISMATCH
  | GRANT_IDENTITY_CONFLICT
  | GRANT_NOT_FOUND
  | GRANT_NOT_ACTIVE
  | INVALID_GRANT_TRANSITION
  | REQUEST_ID_CONFLICT
  | REQUEST_NOT_FOUND
  | REQUEST_CAPACITY_EXCEEDED
  | INVALID_REQUEST_TRANSITION
  | UNRESOLVED_EXECUTION
  | COST_NOT_AUTHORIZED
  | INSUFFICIENT_UNITS
  | RESULT_CONFLICT
  | RECONCILIATION_CONFLICT
  | SERVICE_CREDIT_ORIGINAL_FUNDING_GRANT
  | typeError
  deriving DecidableEq, Repr

/-- The one error of the normalizers. -/
inductive Rejection
  | INVALID_INPUT
  deriving DecidableEq, Repr

/-- What a normalizer rejects fails with INVALID_INPUT. -/
def captured {α : Type} (x : Except Rejection α) : Except Code α :=
  x.mapError fun _ => .INVALID_INPUT

theorem captured_ok {α : Type} {x : Except Rejection α} {a : α} :
    captured x = .ok a ↔ x = .ok a := by
  cases x <;> simp [captured, Except.mapError]

theorem captured_error {α : Type} {x : Except Rejection α} {c : Code} (h : captured x = .error c) :
    c = .INVALID_INPUT := by
  cases x with
  | ok a => cases h
  | error e => exact (Except.error.inj h).symm

inductive GrantLifecycle
  | ACTIVE
  | EXPIRED
  | REVOKED
  deriving DecidableEq, Repr

inductive RequestState
  | RESERVED
  | EXECUTING
  | SUCCEEDED
  | FAILED_RELEASED
  | OUTCOME_UNKNOWN
  deriving DecidableEq, Repr

/-! ### Patterns -/

def isIdentifierChar (c : Char) : Bool := Text.isAlnum c || Text.oneOf "._:-" c

/-- `IDENTIFIER`, and no `://`. -/
def isIdentifier (s : String) : Bool :=
  Text.headTail Text.isAlnum isIdentifierChar 127 s && !Text.includes "://" s

/-- `METHOD`. -/
def isMethod (s : String) : Bool :=
  Text.headTail Text.isUpper (fun c => Text.isUpper c || Text.isDigit c || Text.oneOf "_-" c) 15 s

def isContentTypeChar (c : Char) : Bool :=
  Text.isLower c || Text.isDigit c || Text.oneOf "!#$&^_.+-" c

/-- One half of a content type. -/
def isContentTypePart (cs : List Char) : Bool :=
  Text.headTail (fun c => Text.isLower c || Text.isDigit c) isContentTypeChar 63 (String.ofList cs)

/-- `CONTENT_TYPE`; neither half has a slash. -/
def isContentType (s : String) : Bool :=
  let (kind, rest) := s.toList.span (· != '/')
  match rest with
  | [] => false
  | _ :: subtype => isContentTypePart kind && isContentTypePart subtype

/-- `SHA256_COMMITMENT`. -/
def isCommitment (s : String) : Bool := Text.prefixed "sha256:" Text.isHexLower 64 s

/-- `MOCK_TRANSACTION_REFERENCE`. -/
def isMockTransactionReference (s : String) : Bool := Text.prefixed "mocktx:" Text.isHexLower 64 s

/-- `ZENON_TRANSACTION_REFERENCE`. -/
def isZenonTransactionReference (s : String) : Bool := Text.prefixed "zenontx:" Text.isHexLower 64 s

def MOCK_CHAIN_IDENTIFIER : String := "9007199254740991"

def MOCK_GENESIS_MOMENTUM_HASH : String := String.ofList (List.replicate 64 '0')

def isSdkSafeChainIdentifier (s : String) : Bool :=
  Text.isPositiveDecimal s && (decide (s.length < MOCK_CHAIN_IDENTIFIER.length)
    || s.length == MOCK_CHAIN_IDENTIFIER.length && decide (s ≤ MOCK_CHAIN_IDENTIFIER))

/-! ### Fields -/

abbrev Identifier := {s : String // isIdentifier s = true}

abbrev Commitment := {s : String // isCommitment s = true}

abbrev Method := {s : String // isMethod s = true}

abbrev ContentType := {s : String // isContentType s = true}

/-- A safe integer above zero. -/
abbrev PositiveInt := {n : Int // n.natAbs ≤ 9007199254740991 ∧ decide (0 < n) = true}

theorem PositiveInt.pos (n : PositiveInt) : 0 < n.1 := by simpa using n.2.2

theorem PositiveInt.le (n : PositiveInt) : n.1 ≤ 9007199254740991 := by
  have := n.2.1
  omega

def assertIdentifier : Codec Rejection Identifier := .text isIdentifier .INVALID_INPUT

def assertCommitment : Codec Rejection Commitment := .text isCommitment .INVALID_INPUT

def assertMethod : Codec Rejection Method := .text isMethod .INVALID_INPUT

def assertContentType : Codec Rejection ContentType := .text isContentType .INVALID_INPUT

def assertPositiveSafeInteger : Codec Rejection PositiveInt :=
  .integer (fun n => decide (0 < n)) .INVALID_INPUT

/-- `value.modelVersion !== SERVICE_CREDIT_MODEL_VERSION`. -/
def modelVersion : Codec Rejection Unit := .constNum 1 .INVALID_INPUT

/-! ### Offers -/

structure Offer where
  providerId : Identifier
  serviceId : Identifier
  resourceId : Identifier
  resourceBinding : Commitment
  offerId : Identifier
  offerVersion : PositiveInt
  costPolicyId : Identifier
  fundingPolicyId : Identifier
  fundingPolicyVersion : PositiveInt
  deriving DecidableEq

def offerCodec : Codec Rejection Offer :=
  (object (.const "modelVersion" modelVersion
    (.cons "providerId" assertIdentifier
    (.cons "serviceId" assertIdentifier
    (.cons "resourceId" assertIdentifier
    (.cons "resourceBinding" assertCommitment
    (.cons "offerId" assertIdentifier
    (.cons "offerVersion" assertPositiveSafeInteger
    (.cons "costPolicyId" assertIdentifier
    (.cons "fundingPolicyId" assertIdentifier
    (.cons "fundingPolicyVersion" assertPositiveSafeInteger .nil))))))))))
    Rejection.INVALID_INPUT).equiv
    { toFun := fun (a, b, c, d, e, f, g, h, i, _) => ⟨a, b, c, d, e, f, g, h, i⟩
      invFun := fun o => (o.providerId, o.serviceId, o.resourceId, o.resourceBinding, o.offerId,
        o.offerVersion, o.costPolicyId, o.fundingPolicyId, o.fundingPolicyVersion, ())
      left_inv := fun _ => rfl
      right_inv := fun _ => rfl }

def normalizeOffer (input : Value) : Except Code Offer :=
  captured (offerCodec.decode input)

def offerKey (offerId : Identifier) (offerVersion : PositiveInt) : String :=
  canonicalJson (.arr [.str offerId.1, .num offerVersion.1])

/-! ### Activation records -/

structure ChainProfile where
  chainIdentifier : {s : String // isSdkSafeChainIdentifier s = true}
  genesisMomentumHash : Codec.Coerced Text.isHash
  deriving DecidableEq

structure ConfirmationPolicy where
  policyId : {s : String // (s == "mock.momentum-included"
    || s == "zenon.authenticated-momentum-inclusion") = true}
  minimumConfirmations : {n : Int // n.natAbs ≤ 9007199254740991 ∧ decide (1 ≤ n ∧ n ≤ 30) = true}
  deriving DecidableEq

/-- The fields of an activation record, each checked by itself. -/
structure ActivationFields where
  activationVersion : PositiveInt
  authorityProfileId : Identifier
  authorityProfileVersion : PositiveInt
  verifierVersion : PositiveInt
  authorityRecordDigest : Commitment
  fundingPolicyId : Identifier
  fundingPolicyVersion : PositiveInt
  sourceSettlementId : Identifier
  transactionId : Codec.Coerced fun s => isMockTransactionReference s
    || isZenonTransactionReference s
  providerId : Identifier
  serviceId : Identifier
  resourceId : Identifier
  resourceBinding : Commitment
  offerId : Identifier
  offerVersion : PositiveInt
  holderId : Identifier
  capabilityCommitment : Commitment
  totalUnits : PositiveInt
  expiresAt : PositiveInt
  network : {s : String // (s == "zenon:mock" || s == "zenon:testnet") = true}
  chainProfile : ChainProfile
  asset : Identifier
  amount : {s : String // (Text.isPositiveDecimal s && decide (s.length ≤ 77)) = true}
  payee : Identifier
  payer : Identifier
  paymentResourceDigest : Commitment
  paymentRequirementDigest : Commitment
  paymentIntentDigest : Commitment
  grantFundingCommitment : Commitment
  evidenceVersion : Option Unit
  inclusionAuthorizationDigest : Option Commitment
  confirmationPolicy : ConfirmationPolicy
  deriving DecidableEq

namespace ActivationFields

def mockActivation (a : ActivationFields) : Bool :=
  a.activationVersion.1 == 1 && a.network.1 == "zenon:mock"

def authenticatedZenonActivation (a : ActivationFields) : Bool :=
  a.activationVersion.1 == 2 && a.network.1 == "zenon:testnet"

/-- `chainProfile.genesisMomentumHash === MOCK_GENESIS_MOMENTUM_HASH`. -/
def mockGenesis (a : ActivationFields) : Bool :=
  a.chainProfile.genesisMomentumHash.depth == 0
    && a.chainProfile.genesisMomentumHash.text == MOCK_GENESIS_MOMENTUM_HASH

/-- The checks between the fields of an activation record. -/
def admissible (a : ActivationFields) : Bool :=
  decide (a.holderId = a.payer)
    && (a.mockActivation && isMockTransactionReference a.transactionId.text
        && a.chainProfile.chainIdentifier.1 == MOCK_CHAIN_IDENTIFIER && a.mockGenesis
        && a.confirmationPolicy.policyId.1 == "mock.momentum-included"
        && a.confirmationPolicy.minimumConfirmations.1 == 1
        && a.evidenceVersion.isNone && a.inclusionAuthorizationDigest.isNone
      || a.authenticatedZenonActivation && isZenonTransactionReference a.transactionId.text
        && !a.mockGenesis
        && a.evidenceVersion.isSome
        && a.confirmationPolicy.policyId.1 == "zenon.authenticated-momentum-inclusion"
        && decide (2 ≤ a.confirmationPolicy.minimumConfirmations.1)
        && a.inclusionAuthorizationDigest.isSome)

end ActivationFields

/-- A normalized activation record. -/
abbrev Activation := {a : ActivationFields // a.admissible = true}

def chainProfileCodec : Codec Rejection ChainProfile :=
  (object (.const "version" (.constNum 1 .INVALID_INPUT)
    (.cons "chainIdentifier" (.text isSdkSafeChainIdentifier .INVALID_INPUT)
    (.cons "genesisMomentumHash" (.coerced Text.isHash .INVALID_INPUT) .nil)))
    Rejection.INVALID_INPUT).equiv
    { toFun := fun (a, b, _) => ⟨a, b⟩
      invFun := fun c => (c.chainIdentifier, c.genesisMomentumHash, ())
      left_inv := fun _ => rfl
      right_inv := fun _ => rfl }

def confirmationPolicyCodec : Codec Rejection ConfirmationPolicy :=
  (object (.cons "policyId" (.text _ .INVALID_INPUT)
    (.const "policyVersion" (.constNum 1 .INVALID_INPUT)
    (.cons "minimumConfirmations" (.integer _ .INVALID_INPUT) .nil))) Rejection.INVALID_INPUT).equiv
    { toFun := fun (a, b, _) => ⟨a, b⟩
      invFun := fun c => (c.policyId, c.minimumConfirmations, ())
      left_inv := fun _ => rfl
      right_inv := fun _ => rfl }

/-- The keys of an activation record, in the order it is written in. -/
def activationKeys :=
  Fields.cons "activationVersion" assertPositiveSafeInteger
  (.cons "authorityProfileId" assertIdentifier
  (.cons "authorityProfileVersion" assertPositiveSafeInteger
  (.cons "verifierVersion" assertPositiveSafeInteger
  (.cons "authorityRecordDigest" assertCommitment
  (.cons "fundingPolicyId" assertIdentifier
  (.cons "fundingPolicyVersion" assertPositiveSafeInteger
  (.cons "sourceSettlementId" assertIdentifier
  (.cons "transactionId" (Codec.coerced (fun s => isMockTransactionReference s
      || isZenonTransactionReference s) .INVALID_INPUT)
  (.cons "providerId" assertIdentifier
  (.cons "serviceId" assertIdentifier
  (.cons "resourceId" assertIdentifier
  (.cons "resourceBinding" assertCommitment
  (.cons "offerId" assertIdentifier
  (.cons "offerVersion" assertPositiveSafeInteger
  (.cons "holderId" assertIdentifier
  (.cons "capabilityCommitment" assertCommitment
  (.cons "totalUnits" assertPositiveSafeInteger
  (.cons "expiresAt" assertPositiveSafeInteger
  (.const "scheme" (.constStr "exact" .INVALID_INPUT)
  (.const "paymentFlow" (.constStr "upfront" .INVALID_INPUT)
  (.cons "network" (Codec.text (fun s => s == "zenon:mock" || s == "zenon:testnet") .INVALID_INPUT)
  (.cons "chainProfile" chainProfileCodec
  (.cons "asset" assertIdentifier
  (.cons "amount" (Codec.text (fun s => Text.isPositiveDecimal s && decide (s.length ≤ 77))
      .INVALID_INPUT)
  (.cons "payee" assertIdentifier
  (.cons "payer" assertIdentifier
  (.cons "paymentResourceDigest" assertCommitment
  (.cons "paymentRequirementDigest" assertCommitment
  (.cons "paymentIntentDigest" assertCommitment
  (.cons "grantFundingCommitment" assertCommitment
  (.optional "evidenceVersion" (.constNum 1 .INVALID_INPUT)
  (.optional "inclusionAuthorizationDigest" assertCommitment
  (.const "evidenceState" (.constStr "MOMENTUM_INCLUDED" .INVALID_INPUT)
  (.cons "confirmationPolicy" confirmationPolicyCodec .nil))))))))))))))))))))))))))))))))))

theorem activationKeys_nodup : activationKeys.names.Nodup := by decide

/-- The nested pairs of `activationKeys` as a record. -/
def activationFieldsEquiv : activationKeys.Carrier ≃ ActivationFields where
  toFun := fun (a, b, c, d, e, f, g, h, i, j, k, l, m, n, o, p, q, r, s, t, u, v, w,
    x, y, z, aa, bb, cc, dd, ee, ff, _) => ⟨a, b, c, d, e, f, g, h, i, j, k, l, m, n, o, p, q, r, s,
    t, u, v, w, x, y, z,
    aa, bb, cc, dd, ee, ff⟩
  invFun := fun a => (a.activationVersion, a.authorityProfileId, a.authorityProfileVersion,
    a.verifierVersion, a.authorityRecordDigest, a.fundingPolicyId, a.fundingPolicyVersion,
    a.sourceSettlementId, a.transactionId, a.providerId, a.serviceId, a.resourceId,
    a.resourceBinding, a.offerId, a.offerVersion, a.holderId, a.capabilityCommitment, a.totalUnits,
    a.expiresAt, a.network, a.chainProfile, a.asset, a.amount, a.payee, a.payer,
    a.paymentResourceDigest, a.paymentRequirementDigest, a.paymentIntentDigest,
    a.grantFundingCommitment, a.evidenceVersion, a.inclusionAuthorizationDigest,
    a.confirmationPolicy, ())
  left_inv := fun _ => rfl
  right_inv := fun _ => rfl

def activationCodec : Codec Rejection Activation :=
  ((object activationKeys .INVALID_INPUT activationKeys_nodup).equiv activationFieldsEquiv).refine
    ActivationFields.admissible .INVALID_INPUT

def normalizeActivation (input : Value) : Except Code Activation :=
  captured (activationCodec.decode input)

/-- An activation record as a grant keeps it, under its identifier. -/
structure StoredActivation where
  activationId : Identifier
  record : Activation
  deriving DecidableEq

/-- `{ activationId, ...activation }`. -/
def storedActivationCodec : Codec Rejection StoredActivation :=
  (((object (.cons "activationId" assertIdentifier activationKeys) Rejection.INVALID_INPUT).equiv
      ((Equiv.refl Identifier).prodCongr activationFieldsEquiv)).refine
      (fun a => a.2.admissible) .INVALID_INPUT).equiv
    { toFun := fun a => ⟨a.1.1, a.1.2, a.2⟩
      invFun := fun a => ⟨(a.activationId, a.record.1), a.record.2⟩
      left_inv := fun _ => rfl
      right_inv := fun _ => rfl }

/-! ### Requests -/

/-- A normalized request. -/
structure RequestInput where
  grantId : Identifier
  requestId : Identifier
  method : Method
  routeId : Identifier
  canonicalBodyDigest : Commitment
  selectedContentType : ContentType
  maxCostUnits : PositiveInt
  deriving DecidableEq

def requestInputCodec : Codec Rejection RequestInput :=
  (object (.const "modelVersion" modelVersion
    (.cons "grantId" assertIdentifier
    (.cons "requestId" assertIdentifier
    (.cons "method" assertMethod
    (.cons "routeId" assertIdentifier
    (.cons "canonicalBodyDigest" assertCommitment
    (.cons "selectedContentType" assertContentType
    (.cons "maxCostUnits" assertPositiveSafeInteger .nil)))))))) Rejection.INVALID_INPUT).equiv
    { toFun := fun (a, b, c, d, e, f, g, _) => ⟨a, b, c, d, e, f, g⟩
      invFun := fun r => (r.grantId, r.requestId, r.method, r.routeId, r.canonicalBodyDigest,
        r.selectedContentType, r.maxCostUnits, ())
      left_inv := fun _ => rfl
      right_inv := fun _ => rfl }

def normalizeRequest (input : Value) : Except Code RequestInput :=
  captured (requestInputCodec.decode input)

/-- A request named by its grant and its identifier. -/
structure Reference where
  grantId : Identifier
  requestId : Identifier
  deriving DecidableEq

def referenceCodec : Codec Rejection Reference :=
  (object (.cons "grantId" assertIdentifier (.cons "requestId" assertIdentifier .nil))
    Rejection.INVALID_INPUT).equiv
    { toFun := fun (a, b, _) => ⟨a, b⟩
      invFun := fun r => (r.grantId, r.requestId, ())
      left_inv := fun _ => rfl
      right_inv := fun _ => rfl }

def normalizeReference (input : Value) : Except Code Reference :=
  captured (referenceCodec.decode input)

structure CachedResult where
  statusCode : {n : Int // n.natAbs ≤ 9007199254740991 ∧ decide (100 ≤ n ∧ n ≤ 599) = true}
  contentType : ContentType
  resultCode : Identifier
  deriving DecidableEq

/-- `normalizeCachedResult`. -/
def cachedResultCodec : Codec Rejection CachedResult :=
  (object (.cons "statusCode" (.integer _ .INVALID_INPUT)
    (.cons "contentType" assertContentType
    (.cons "resultCode" assertIdentifier .nil))) Rejection.INVALID_INPUT).equiv
    { toFun := fun (a, b, c, _) => ⟨a, b, c⟩
      invFun := fun r => (r.statusCode, r.contentType, r.resultCode, ())
      left_inv := fun _ => rfl
      right_inv := fun _ => rfl }

end Credit
end ZenonX402
