/-
# The records of the funding observer

What `service-credit-zenon-funding-observer-state.js` keeps of one funding
transaction it watches for: the policies it watches under, the target, the
checkpoint it has reached, the receipt of the page that led there, where the
target was included and when it was first deep enough. Each record has the codec
that is its normalizer; what relates the parts of a state to each other is in
`Observer.State`.

Two normalized records have one canonical text exactly when they are equal
(`Codec.same_iff`), so `sameJson` between them is written as equality. Heights
are safe integers: a sum that leaves that range is no height, whether it rounds
or not.

Key definitions: `Target`, `Checkpoint`, `Receipt`, `CatchUpState`, `Inclusion`, `FirstThreshold`,
their codecs, `commitment`, `planId`, `pageReceiptDigest`.
-/
import ZenonX402.Credit.Records
import ZenonX402.Lib.Loop
import ZenonX402.Lib.Record

namespace ZenonX402
namespace Observer

open Js
open Credit (Identifier Commitment PositiveInt Rejection assertIdentifier assertPositiveSafeInteger)

/-- The suffix of a `ZENON_FUNDING_OBSERVER_` code. -/
inductive Code
  | INVALID_INPUT
  | INVALID_STATE
  | STALE_REVISION
  deriving DecidableEq, Repr

def MAX_ZENON_AMOUNT_DIGITS : Nat := 77

def MAX_PAGE_ENTRIES : Nat := 64

def MAX_BACKFILL_SPAN : Nat := 4096

def MAX_MEMBERS_PER_MOMENTUM : Nat := 256

def ZERO_HASH : String := String.ofList (List.replicate 64 '0')

/-! ### Single fields -/

/-- `LOWERCASE_HASH`, and not zero. -/
def isNonzeroHash (s : String) : Bool := Text.isHash s && s != ZERO_HASH

abbrev Hash := {s : String // isNonzeroHash s = true}

abbrev TransactionId := {s : String // Credit.isZenonTransactionReference s = true}

abbrev ChainIdentifier := {s : String // Credit.isSdkSafeChainIdentifier s = true}

/-- `POSITIVE_DECIMAL`, of a bounded number of digits. -/
def isAmount (s : String) : Bool :=
  Text.isPositiveDecimal s && decide (s.length ≤ MAX_ZENON_AMOUNT_DIGITS)

abbrev Amount := {s : String // isAmount s = true}

/-- A safe integer from zero on. -/
abbrev NonnegativeInt := {n : Int // n.natAbs ≤ 9007199254740991 ∧ decide (0 ≤ n) = true}

theorem NonnegativeInt.nonneg (n : NonnegativeInt) : 0 ≤ n.1 := by simpa using n.2.2

theorem NonnegativeInt.le (n : NonnegativeInt) : n.1 ≤ 9007199254740991 := by
  have := n.2.1
  omega

def assertHash : Codec Rejection Hash := .text isNonzeroHash .INVALID_INPUT

def assertTransactionId : Codec Rejection TransactionId :=
  .text Credit.isZenonTransactionReference .INVALID_INPUT

def chainIdentifier : Codec Rejection ChainIdentifier :=
  .text Credit.isSdkSafeChainIdentifier .INVALID_INPUT

def amount : Codec Rejection Amount := .text isAmount .INVALID_INPUT

def assertNonnegativeInteger : Codec Rejection NonnegativeInt :=
  .integer (fun n => decide (0 ≤ n)) .INVALID_INPUT

def normalizeMomentumVersionHeight : Codec Rejection (Option PositiveInt) :=
  .nullable assertPositiveSafeInteger fun _ => nofun

/-! ### Policies -/

structure ObserverPolicy where
  policyId : Identifier
  policyVersion : PositiveInt
  verifierVersion : PositiveInt
  deriving DecidableEq

def observerPolicyCodec : Codec Rejection ObserverPolicy :=
  (object (.cons "policyId" assertIdentifier
    (.cons "policyVersion" assertPositiveSafeInteger
    (.cons "verifierVersion" assertPositiveSafeInteger .nil))) Rejection.INVALID_INPUT).equiv
    { toFun := fun (a, b, c, _) => ⟨a, b, c⟩
      invFun := fun p => (p.policyId, p.policyVersion, p.verifierVersion, ())
      left_inv := fun _ => rfl
      right_inv := fun _ => rfl }

structure AuthorityGeneration where
  generationId : Identifier
  generationVersion : PositiveInt
  generationCommitment : Commitment
  deriving DecidableEq

def authorityGenerationCodec : Codec Rejection AuthorityGeneration :=
  (object (.cons "generationId" assertIdentifier
    (.cons "generationVersion" assertPositiveSafeInteger
    (.cons "generationCommitment" Credit.assertCommitment .nil))) Rejection.INVALID_INPUT).equiv
    { toFun := fun (a, b, c, _) => ⟨a, b, c⟩
      invFun := fun g => (g.generationId, g.generationVersion, g.generationCommitment, ())
      left_inv := fun _ => rfl
      right_inv := fun _ => rfl }

structure ChainProfile where
  chainIdentifier : ChainIdentifier
  genesisMomentumHash : Hash
  deriving DecidableEq

def chainProfileCodec : Codec Rejection ChainProfile :=
  (object (.const "version" (.constNum 1 .INVALID_INPUT)
    (.cons "chainIdentifier" chainIdentifier
    (.cons "genesisMomentumHash" assertHash .nil))) Rejection.INVALID_INPUT).equiv
    { toFun := fun (a, b, _) => ⟨a, b⟩
      invFun := fun p => (p.chainIdentifier, p.genesisMomentumHash, ())
      left_inv := fun _ => rfl
      right_inv := fun _ => rfl }

structure ConfirmationPolicy where
  policyId : Identifier
  policyVersion : PositiveInt
  minimumConfirmations : PositiveInt
  deriving DecidableEq

def confirmationPolicyCodec : Codec Rejection ConfirmationPolicy :=
  (object (.cons "policyId" assertIdentifier
    (.cons "policyVersion" assertPositiveSafeInteger
    (.cons "minimumConfirmations" assertPositiveSafeInteger .nil))) Rejection.INVALID_INPUT).equiv
    { toFun := fun (a, b, c, _) => ⟨a, b, c⟩
      invFun := fun p => (p.policyId, p.policyVersion, p.minimumConfirmations, ())
      left_inv := fun _ => rfl
      right_inv := fun _ => rfl }

structure Checkpoint where
  height : NonnegativeInt
  hash : Hash
  deriving DecidableEq

def checkpointCodec : Codec Rejection Checkpoint :=
  (object (.cons "height" assertNonnegativeInteger
    (.cons "hash" assertHash .nil)) Rejection.INVALID_INPUT).equiv
    { toFun := fun (a, b, _) => ⟨a, b⟩
      invFun := fun c => (c.height, c.hash, ())
      left_inv := fun _ => rfl
      right_inv := fun _ => rfl }

/-! ### The target -/

structure Target where
  transactionId : TransactionId
  payer : Identifier
  payee : Identifier
  asset : Identifier
  amount : Amount
  providerId : Identifier
  serviceId : Identifier
  resourceId : Identifier
  resourceBinding : Commitment
  paymentResourceDigest : Commitment
  paymentRequirementDigest : Commitment
  paymentIntentDigest : Commitment
  offerId : Identifier
  offerVersion : PositiveInt
  fundingPolicyId : Identifier
  fundingPolicyVersion : PositiveInt
  capabilityCommitment : Commitment
  totalUnits : PositiveInt
  expiresAt : PositiveInt
  grantFundingCommitment : Commitment
  deriving DecidableEq

def targetCodec : Codec Rejection Target :=
  (object (.cons "transactionId" assertTransactionId
    (.cons "payer" assertIdentifier
    (.cons "payee" assertIdentifier
    (.cons "asset" assertIdentifier
    (.cons "amount" Observer.amount
    (.const "scheme" (.constStr "exact" .INVALID_INPUT)
    (.const "paymentFlow" (.constStr "upfront" .INVALID_INPUT)
    (.const "settlement" (.constStr "account-block" .INVALID_INPUT)
    (.const "network" (.constStr "zenon:testnet" .INVALID_INPUT)
    (.cons "providerId" assertIdentifier
    (.cons "serviceId" assertIdentifier
    (.cons "resourceId" assertIdentifier
    (.cons "resourceBinding" Credit.assertCommitment
    (.cons "paymentResourceDigest" Credit.assertCommitment
    (.cons "paymentRequirementDigest" Credit.assertCommitment
    (.cons "paymentIntentDigest" Credit.assertCommitment
    (.cons "offerId" assertIdentifier
    (.cons "offerVersion" assertPositiveSafeInteger
    (.cons "fundingPolicyId" assertIdentifier
    (.cons "fundingPolicyVersion" assertPositiveSafeInteger
    (.cons "capabilityCommitment" Credit.assertCommitment
    (.cons "totalUnits" assertPositiveSafeInteger
    (.cons "expiresAt" assertPositiveSafeInteger
    (.cons "grantFundingCommitment" Credit.assertCommitment .nil))))))))))))))))))))))))
    Rejection.INVALID_INPUT).equiv
    { toFun := fun (a, b, c, d, e, f, g, h, i, j, k, l, m, n, o, p, q, r, s, t, _) =>
        ⟨a, b, c, d, e, f, g, h, i, j, k, l, m, n, o, p, q, r, s, t⟩
      invFun := fun t => (t.transactionId, t.payer, t.payee, t.asset, t.amount,
        t.providerId, t.serviceId, t.resourceId, t.resourceBinding, t.paymentResourceDigest,
        t.paymentRequirementDigest,
        t.paymentIntentDigest, t.offerId, t.offerVersion, t.fundingPolicyId, t.fundingPolicyVersion,
        t.capabilityCommitment, t.totalUnits, t.expiresAt, t.grantFundingCommitment, ())
      left_inv := fun _ => rfl
      right_inv := fun _ => rfl }

/-! ### Catching up -/

/-- `normalizeCatchUpConfiguration`, before its bounds. -/
structure CatchUpFields where
  maximumPageEntries : PositiveInt
  maximumBackfillSpan : PositiveInt
  maximumMembersPerMomentum : PositiveInt
  deriving DecidableEq

def CatchUpFields.bounded (c : CatchUpFields) : Bool :=
  decide (c.maximumPageEntries.1 ≤ MAX_PAGE_ENTRIES ∧ c.maximumBackfillSpan.1 ≤ MAX_BACKFILL_SPAN
    ∧ c.maximumMembersPerMomentum.1 ≤ MAX_MEMBERS_PER_MOMENTUM)

abbrev CatchUpConfiguration := {c : CatchUpFields // c.bounded = true}

def catchUpConfigurationCodec : Codec Rejection CatchUpConfiguration :=
  ((object (.cons "maximumPageEntries" assertPositiveSafeInteger
    (.cons "maximumBackfillSpan" assertPositiveSafeInteger
    (.cons "maximumMembersPerMomentum" assertPositiveSafeInteger .nil)))
    Rejection.INVALID_INPUT).equiv
    { toFun := fun (a, b, c, _) => (⟨a, b, c⟩ : CatchUpFields)
      invFun := fun c => (c.maximumPageEntries, c.maximumBackfillSpan,
        c.maximumMembersPerMomentum, ())
      left_inv := fun _ => rfl
      right_inv := fun _ => rfl }).refine CatchUpFields.bounded .INVALID_INPUT

/-- Where the target was found. -/
structure Membership where
  transactionId : TransactionId
  targetBindingDigest : Commitment
  momentumHeight : PositiveInt
  momentumHash : Hash
  deriving DecidableEq

def membershipCodec : Codec Rejection Membership :=
  (object (.cons "transactionId" assertTransactionId
    (.cons "targetBindingDigest" Credit.assertCommitment
    (.cons "momentumHeight" assertPositiveSafeInteger
    (.cons "momentumHash" assertHash .nil)))) Rejection.INVALID_INPUT).equiv
    { toFun := fun (a, b, c, d, _) => ⟨a, b, c, d⟩
      invFun := fun m => (m.transactionId, m.targetBindingDigest, m.momentumHeight,
        m.momentumHash, ())
      left_inv := fun _ => rfl
      right_inv := fun _ => rfl }

structure LineageEntry where
  height : PositiveInt
  hash : Hash
  previousHash : Hash
  deriving DecidableEq

def lineageEntryCodec : Codec Rejection LineageEntry :=
  (object (.cons "height" assertPositiveSafeInteger
    (.cons "hash" assertHash
    (.cons "previousHash" assertHash .nil))) Rejection.INVALID_INPUT).equiv
    { toFun := fun (a, b, c, _) => ⟨a, b, c⟩
      invFun := fun e => (e.height, e.hash, e.previousHash, ())
      left_inv := fun _ => rfl
      right_inv := fun _ => rfl }

/-- `receiptWithoutDerivedThreshold`. -/
structure ReceiptBase where
  planId : Commitment
  startCheckpoint : Checkpoint
  endCheckpoint : Checkpoint
  frontier : Checkpoint
  entryCount : PositiveInt
  lineage : List LineageEntry
  targetMembership : Option Membership
  deriving DecidableEq

/-- The receipt of an applied page, each field by itself. -/
structure ReceiptFields extends ReceiptBase where
  pageDigest : Commitment
  thresholdCheckpoint : Option Checkpoint
  deriving DecidableEq

/-- The counts and the heights of a receipt agree. -/
def ReceiptFields.counted (r : ReceiptFields) : Bool :=
  decide (r.startCheckpoint.height.1 < r.endCheckpoint.height.1
    ∧ r.endCheckpoint.height.1 - r.startCheckpoint.height.1 = r.entryCount.1
    ∧ r.endCheckpoint.height.1 ≤ r.frontier.height.1
    ∧ (r.lineage.length : Int) = r.entryCount.1
    ∧ r.lineage.length ≤ MAX_PAGE_ENTRIES)

/-- What `normalizeLastAppliedPage` gives back, unless null. -/
abbrev Receipt := {r : ReceiptFields // r.counted = true}

def receiptFieldsCodec : Codec Rejection ReceiptFields :=
  (object (.cons "planId" Credit.assertCommitment
    (.cons "pageDigest" Credit.assertCommitment
    (.cons "startCheckpoint" checkpointCodec
    (.cons "endCheckpoint" checkpointCodec
    (.cons "frontier" checkpointCodec
    (.cons "entryCount" assertPositiveSafeInteger
    (.cons "lineage" (.list lineageEntryCodec .INVALID_INPUT)
    (.cons "targetMembership" (.nullable membershipCodec fun _ => nofun)
    (.cons "thresholdCheckpoint" (.nullable checkpointCodec fun _ => nofun)
      .nil))))))))) Rejection.INVALID_INPUT).equiv
    { toFun := fun (a, b, c, d, e, f, g, h, i, _) => ⟨⟨a, c, d, e, f, g, h⟩, b, i⟩
      invFun := fun r => (r.planId, r.pageDigest, r.startCheckpoint, r.endCheckpoint,
        r.frontier, r.entryCount, r.lineage, r.targetMembership, r.thresholdCheckpoint, ())
      left_inv := fun _ => rfl
      right_inv := fun _ => rfl }

def receiptCodec : Codec Rejection Receipt :=
  receiptFieldsCodec.refine ReceiptFields.counted .INVALID_INPUT

structure CatchUpStateFields extends CatchUpFields where
  lastAppliedPage : Option Receipt
  deriving DecidableEq

abbrev CatchUpState := {c : CatchUpStateFields // c.bounded = true}

def normalizeCatchUpState : Codec Rejection CatchUpState :=
  ((object (.cons "maximumPageEntries" assertPositiveSafeInteger
    (.cons "maximumBackfillSpan" assertPositiveSafeInteger
    (.cons "maximumMembersPerMomentum" assertPositiveSafeInteger
    (.cons "lastAppliedPage" (.nullable receiptCodec fun _ => nofun) .nil))))
    Rejection.INVALID_INPUT).equiv
    { toFun := fun (a, b, c, d, _) => (⟨⟨a, b, c⟩, d⟩ : CatchUpStateFields)
      invFun := fun c => (c.maximumPageEntries, c.maximumBackfillSpan, c.maximumMembersPerMomentum,
        c.lastAppliedPage, ())
      left_inv := fun _ => rfl
      right_inv := fun _ => rfl }).refine (fun c => c.bounded) .INVALID_INPUT

/-! ### Inclusion and threshold -/

structure Inclusion extends Membership where
  inclusionAuthorizationId : Commitment
  currentConfirmations : PositiveInt
  deriving DecidableEq

/-- `normalizeInclusion`, before the identifier is recomputed. -/
def inclusionCodec : Codec Rejection Inclusion :=
  (object (.cons "transactionId" assertTransactionId
    (.cons "targetBindingDigest" Credit.assertCommitment
    (.cons "momentumHeight" assertPositiveSafeInteger
    (.cons "momentumHash" assertHash
    (.cons "inclusionAuthorizationId" Credit.assertCommitment
    (.cons "currentConfirmations" assertPositiveSafeInteger .nil))))))
    Rejection.INVALID_INPUT).equiv
    { toFun := fun (a, b, c, d, e, f, _) => ⟨⟨a, b, c, d⟩, e, f⟩
      invFun := fun i => (i.transactionId, i.targetBindingDigest, i.momentumHeight, i.momentumHash,
        i.inclusionAuthorizationId, i.currentConfirmations, ())
      left_inv := fun _ => rfl
      right_inv := fun _ => rfl }

structure FirstThreshold where
  checkpoint : Checkpoint
  confirmations : PositiveInt
  lineageReceipt : Receipt
  deriving DecidableEq

def firstThresholdCodec : Codec Rejection FirstThreshold :=
  (object (.cons "checkpoint" checkpointCodec
    (.cons "confirmations" assertPositiveSafeInteger
    (.cons "lineageReceipt" receiptCodec .nil))) Rejection.INVALID_INPUT).equiv
    { toFun := fun (a, b, c, _) => ⟨a, b, c⟩
      invFun := fun t => (t.checkpoint, t.confirmations, t.lineageReceipt, ())
      left_inv := fun _ => rfl
      right_inv := fun _ => rfl }

/-! ### Status and quarantine -/

/-- `ZENON_FUNDING_OBSERVER_STATUS`. -/
inductive Status
  | AWAITING_INCLUSION
  | INCLUDED_BELOW_THRESHOLD
  | THRESHOLD_OBSERVED
  | QUARANTINED
  deriving DecidableEq, Repr

def Status.name : Status → String
  | AWAITING_INCLUSION => "AWAITING_INCLUSION"
  | INCLUDED_BELOW_THRESHOLD => "INCLUDED_BELOW_THRESHOLD"
  | THRESHOLD_OBSERVED => "THRESHOLD_OBSERVED"
  | QUARANTINED => "QUARANTINED"

def statusCodec : Codec Rejection Status :=
  .enum [.AWAITING_INCLUSION, .INCLUDED_BELOW_THRESHOLD, .THRESHOLD_OBSERVED, .QUARANTINED]
  Status.name .INVALID_INPUT
    (fun a => by cases a <;> decide) (fun a b => by cases a <;> cases b <;> decide)

/-- `QUARANTINE_REASONS`. -/
inductive Reason
  | CHECKPOINT_HASH_MISMATCH
  | CONTEXT_DRIFT
  | FRONTIER_REPLACEMENT
  | INCLUSION_DISAPPEARED
  | INCLUSION_TUPLE_DRIFT
  | MEMBERSHIP_NOT_LINKED
  | MOMENTUM_VERSION_CONFLICT
  | PAGE_GAP
  | PAGE_HEIGHT_CONFLICT
  | PAGE_MEMBER_CONFLICT
  | PAGE_PARENT_MISMATCH
  | PLAN_CONTEXT_DRIFT
  | TARGET_BINDING_DRIFT
  deriving DecidableEq, Repr

def Reason.name : Reason → String
  | CHECKPOINT_HASH_MISMATCH => "CHECKPOINT_HASH_MISMATCH"
  | CONTEXT_DRIFT => "CONTEXT_DRIFT"
  | FRONTIER_REPLACEMENT => "FRONTIER_REPLACEMENT"
  | INCLUSION_DISAPPEARED => "INCLUSION_DISAPPEARED"
  | INCLUSION_TUPLE_DRIFT => "INCLUSION_TUPLE_DRIFT"
  | MEMBERSHIP_NOT_LINKED => "MEMBERSHIP_NOT_LINKED"
  | MOMENTUM_VERSION_CONFLICT => "MOMENTUM_VERSION_CONFLICT"
  | PAGE_GAP => "PAGE_GAP"
  | PAGE_HEIGHT_CONFLICT => "PAGE_HEIGHT_CONFLICT"
  | PAGE_MEMBER_CONFLICT => "PAGE_MEMBER_CONFLICT"
  | PAGE_PARENT_MISMATCH => "PAGE_PARENT_MISMATCH"
  | PLAN_CONTEXT_DRIFT => "PLAN_CONTEXT_DRIFT"
  | TARGET_BINDING_DRIFT => "TARGET_BINDING_DRIFT"

def QUARANTINE_REASONS : List Reason :=
  [.CHECKPOINT_HASH_MISMATCH, .CONTEXT_DRIFT, .FRONTIER_REPLACEMENT, .INCLUSION_DISAPPEARED,
    .INCLUSION_TUPLE_DRIFT, .MEMBERSHIP_NOT_LINKED, .MOMENTUM_VERSION_CONFLICT, .PAGE_GAP,
    .PAGE_HEIGHT_CONFLICT, .PAGE_MEMBER_CONFLICT,
    .PAGE_PARENT_MISMATCH, .PLAN_CONTEXT_DRIFT, .TARGET_BINDING_DRIFT]

def reasonCodec : Codec Rejection Reason :=
  .enum QUARANTINE_REASONS Reason.name .INVALID_INPUT (fun a => by cases a <;> decide)
    (fun a b => by cases a <;> cases b <;> decide)

/-- `normalizeQuarantine`, unless null. -/
def normalizeQuarantine : Codec Rejection Reason :=
  (object (.cons "reason" reasonCodec .nil) Rejection.INVALID_INPUT).equiv
    { toFun := fun (a, _) => a
      invFun := fun a => (a, ())
      left_inv := fun _ => rfl
      right_inv := fun _ => rfl }

/-! ### Commitments -/

def OBSERVER_RECORD_DOMAIN : String := "zenon-x402-funding-observer-record-v2"

def TARGET_BINDING_DOMAIN : String := "zenon-x402-funding-observer-target-v1"

def PLAN_DOMAIN : String := "zenon-x402-funding-observer-backfill-plan-v1"

def PAGE_DOMAIN : String := "zenon-x402-funding-observer-page-v1"

def INCLUSION_AUTHORIZATION_DOMAIN : String := "zenon-x402-funding-observer-inclusion-v1"

def commitment (sha : Sha256) (domain : String) (value : Value) : Commitment :=
  ⟨"sha256:" ++ sha.hex (domain ++ "\x00" ++ canonicalJson value),
    Text.prefixed_append "sha256:" (sha.isHash_hex _)⟩

def observerRecordId (sha : Sha256) (observerPolicy : ObserverPolicy)
    (authorityGeneration : AuthorityGeneration) (chainProfile : ChainProfile)
    (confirmationPolicy : ConfirmationPolicy) (transactionId : TransactionId) :
    Commitment :=
  commitment sha OBSERVER_RECORD_DOMAIN (.obj [
    ("schemaVersion", .num 2),
    ("observerPolicy", observerPolicyCodec.encode observerPolicy),
    ("authorityGeneration", authorityGenerationCodec.encode authorityGeneration),
    ("chainProfile", chainProfileCodec.encode chainProfile),
    ("confirmationPolicy", confirmationPolicyCodec.encode confirmationPolicy),
    ("transactionId", .str transactionId.1)])

def inclusionAuthorizationId (sha : Sha256) (observerRecordId : Commitment)
    (transactionId : TransactionId) (momentumHeight : PositiveInt) (momentumHash : Hash)
    (threshold : PositiveInt) : Commitment :=
  commitment sha INCLUSION_AUTHORIZATION_DOMAIN (.obj [
    ("observerRecordId", .str observerRecordId.1),
    ("transactionId", .str transactionId.1),
    ("momentumHeight", .num momentumHeight.1),
    ("momentumHash", .str momentumHash.1),
    ("threshold", .num threshold.1)])

/-- What plans, pages and observations name the observer by. -/
structure Context where
  observerRecordId : Commitment
  targetBindingDigest : Commitment
  authorityGeneration : AuthorityGeneration
  chainProfile : ChainProfile
  deriving DecidableEq

def Context.fields (c : Context) : List (String × Value) := [
  ("observerRecordId", .str c.observerRecordId.1),
  ("targetBindingDigest", .str c.targetBindingDigest.1),
  ("authorityGeneration", authorityGenerationCodec.encode c.authorityGeneration),
  ("chainProfile", chainProfileCodec.encode c.chainProfile)]

/-- A plan before it has an identifier. -/
structure PlanData where
  context : Context
  startCheckpoint : Checkpoint
  frontier : Checkpoint
  fromHeight : Int
  throughHeight : Int
  entryCount : Int
  deriving DecidableEq

def PlanData.fields (p : PlanData) : List (String × Value) :=
  ("planVersion", .num 1) :: p.context.fields ++ [
    ("startCheckpoint", checkpointCodec.encode p.startCheckpoint),
    ("frontier", checkpointCodec.encode p.frontier),
    ("fromHeight", .num p.fromHeight),
    ("throughHeight", .num p.throughHeight),
    ("entryCount", .num p.entryCount)]

/-- `commitment(PLAN_DOMAIN, planData)`. -/
def PlanData.planId (sha : Sha256) (p : PlanData) : Commitment :=
  commitment sha PLAN_DOMAIN (.obj p.fields)

def pageReceiptDigest (sha : Sha256) (receipt : ReceiptBase) (context : Context) : Commitment :=
  commitment sha PAGE_DOMAIN (.obj (("pageVersion", .num 1) :: context.fields ++ [
    ("planId", .str receipt.planId.1),
    ("startCheckpoint", checkpointCodec.encode receipt.startCheckpoint),
    ("endCheckpoint", checkpointCodec.encode receipt.endCheckpoint),
    ("frontier", checkpointCodec.encode receipt.frontier),
    ("entryCount", .num receipt.entryCount.1),
    ("lineage", (Codec.list lineageEntryCodec Rejection.INVALID_INPUT).encode receipt.lineage),
    ("targetMembership", Codec.encodeNullable membershipCodec receipt.targetMembership)]))

end Observer
end ZenonX402
