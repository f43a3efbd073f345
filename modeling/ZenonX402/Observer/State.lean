/-
# The state of the funding observer

A state relates its parts in more than thirty ways, and `normalizeStateSnapshot`
checks them all on every state that comes in and on every state that goes out.
`State.Valid` is these checks, the ones on a page receipt apart
(`Receipt.Valid`), which see of the state only its context: who observes what,
how far a page may reach, and where the target was included.

Key definitions: `State`, `Receipt.Valid`, `State.Valid`, `Accepted`,
`normalizeStateSnapshot`, `cloneState`, `quarantineState`.
Key theorems: `normalizeStateSnapshot_encode`, `cloneState_of_valid`.
-/
import ZenonX402.Observer.Records

namespace ZenonX402
namespace Observer

open Js
open Credit (Commitment PositiveInt Rejection)

structure State where
  revision : NonnegativeInt
  observerPolicy : ObserverPolicy
  authorityGeneration : AuthorityGeneration
  observerRecordId : Commitment
  chainProfile : ChainProfile
  confirmationPolicy : ConfirmationPolicy
  target : Target
  targetBindingDigest : Commitment
  checkpoint : Checkpoint
  catchUp : CatchUpState
  maxV1Height : Option PositiveInt
  minV2Height : Option PositiveInt
  status : Status
  inclusion : Option Inclusion
  firstThreshold : Option FirstThreshold
  quarantine : Option Reason
  deriving DecidableEq

def trustClassification : Codec Rejection Unit :=
  .constStr "injected-observation-only" .INVALID_INPUT

def stateCodec : Codec Rejection State :=
  (object (.const "schemaVersion" (.constNum 2 .INVALID_INPUT)
    (.cons "revision" assertNonnegativeInteger
    (.cons "observerPolicy" observerPolicyCodec
    (.cons "authorityGeneration" authorityGenerationCodec
    (.cons "observerRecordId" Credit.assertCommitment
    (.cons "chainProfile" chainProfileCodec
    (.cons "confirmationPolicy" confirmationPolicyCodec
    (.cons "target" targetCodec
    (.cons "targetBindingDigest" Credit.assertCommitment
    (.cons "checkpoint" checkpointCodec
    (.cons "catchUp" normalizeCatchUpState
    (.cons "maxV1Height" normalizeMomentumVersionHeight
    (.cons "minV2Height" normalizeMomentumVersionHeight
    (.cons "status" statusCodec
    (.cons "inclusion" (.nullable inclusionCodec fun _ => nofun)
    (.cons "firstThreshold" (.nullable firstThresholdCodec fun _ => nofun)
    (.const "trustClassification" trustClassification
    (.cons "quarantine" (.nullable normalizeQuarantine fun _ => nofun)
      .nil)))))))))))))))))) Rejection.INVALID_INPUT).equiv
    { toFun := fun (a, b, c, d, e, f, g, h, i, j, k, l, m, n, o, p, _) =>
        ⟨a, b, c, d, e, f, g, h, i, j, k, l, m, n, o, p⟩
      invFun := fun s => (s.revision, s.observerPolicy, s.authorityGeneration, s.observerRecordId,
        s.chainProfile, s.confirmationPolicy, s.target, s.targetBindingDigest, s.checkpoint,
        s.catchUp, s.maxV1Height,
        s.minV2Height, s.status, s.inclusion, s.firstThreshold, s.quarantine, ())
      left_inv := fun _ => rfl
      right_inv := fun _ => rfl }

namespace State

def lastAppliedPage (s : State) : Option Receipt := s.catchUp.1.lastAppliedPage

def context (s : State) : Context :=
  ⟨s.observerRecordId, s.targetBindingDigest, s.authorityGeneration, s.chainProfile⟩

end State

/-! ### Page receipts -/

/-- What a receipt is checked against; of the inclusion it is only where the target is. -/
structure ReceiptContext where
  context : Context
  confirmationPolicy : ConfirmationPolicy
  target : Target
  catchUp : CatchUpFields
  inclusion : Option Membership
  deriving DecidableEq

def State.receiptContext (s : State) : ReceiptContext :=
  ⟨s.context, s.confirmationPolicy, s.target, s.catchUp.1.toCatchUpFields,
    s.inclusion.map (·.toMembership)⟩

/-- How far a page from this checkpoint may reach. -/
def CatchUpFields.through (catchUp : CatchUpFields) (start frontier : Checkpoint) : Int :=
  min frontier.height.1 (min (start.height.1 + catchUp.maximumPageEntries.1)
    (start.height.1 + catchUp.maximumBackfillSpan.1))

/-- The plan that a receipt names. -/
def ReceiptBase.planData (r : ReceiptBase) (context : Context) : PlanData :=
  ⟨context, r.startCheckpoint, r.frontier, r.startCheckpoint.height.1 + 1, r.endCheckpoint.height.1,
    r.entryCount.1⟩

/-- The loop over the lineage: each entry is one higher than the one before and names its hash. -/
def linked (height : Int) (previousHash : Hash) : List LineageEntry → Bool
  | [] => true
  | entry :: rest => decide (entry.height.1 = height + 1 ∧ entry.previousHash = previousHash)
      && linked entry.height.1 entry.hash rest

/-- The entry of a height; the loop keeps the last one it finds. -/
def linkedEntry (lineage : List LineageEntry) (height : PositiveInt) : Option LineageEntry :=
  lineage.foldl (fun found entry => if entry.height = height then some entry else found) none

/-- `receipt.targetMembership ?? inclusion`. -/
def ReceiptBase.membership (r : ReceiptBase) (inclusion : Option Membership) : Option Membership :=
  r.targetMembership.or inclusion

/-- The receipt's own membership is the target's, inside the page, on the entry of its height. -/
structure ReceiptBase.Contains (r : ReceiptBase) (c : ReceiptContext) (m : Membership) : Prop where
  transaction : m.transactionId = c.target.transactionId
  binding : m.targetBindingDigest = c.context.targetBindingDigest
  after : r.startCheckpoint.height.1 < m.momentumHeight.1
  upTo : m.momentumHeight.1 ≤ r.endCheckpoint.height.1
  entry : (linkedEntry r.lineage m.momentumHeight).map (·.hash) = some m.momentumHash

instance (r : ReceiptBase) (c : ReceiptContext) (m : Membership) : Decidable (r.Contains c m) :=
  decidable_of_iff (m.transactionId = c.target.transactionId ∧ m.targetBindingDigest
    = c.context.targetBindingDigest
      ∧ r.startCheckpoint.height.1 < m.momentumHeight.1 ∧ m.momentumHeight.1
      ≤ r.endCheckpoint.height.1
      ∧ (linkedEntry r.lineage m.momentumHeight).map (·.hash) = some m.momentumHash)
    ⟨fun ⟨h1, h2, h3, h4, h5⟩ => ⟨h1, h2, h3, h4, h5⟩, fun h => ⟨h.1, h.2, h.3, h.4, h.5⟩⟩

/-- Enough confirmations of this momentum at this height. -/
def ConfirmationPolicy.reached (p : ConfirmationPolicy) (height : Int) (m : Membership) : Prop :=
  p.minimumConfirmations.1 ≤ height - m.momentumHeight.1 + 1

instance (p : ConfirmationPolicy) (height : Int) (m : Membership) :
    Decidable (p.reached height m) :=
  inferInstanceAs (Decidable (_ ≤ _))

/-- `validatePageReceipt`. -/
structure ReceiptFields.Valid (sha : Sha256) (c : ReceiptContext) (r : ReceiptFields) : Prop where
  planId : r.planId = (r.planData c.context).planId sha
  pageDigest : r.pageDigest = pageReceiptDigest sha r.toReceiptBase c.context
  through : r.endCheckpoint.height.1 = c.catchUp.through r.startCheckpoint r.frontier
  size : (r.lineage.length : Int) ≤ c.catchUp.maximumPageEntries.1
  frontier : r.endCheckpoint.height.1 = r.frontier.height.1 → r.endCheckpoint.hash = r.frontier.hash
  linked : linked r.startCheckpoint.height.1 r.startCheckpoint.hash r.lineage = true
  last : r.lineage.getLast?.map (fun e => (e.height.1, e.hash))
    = some (r.endCheckpoint.height.1, r.endCheckpoint.hash)
  membership : ∀ m ∈ r.targetMembership, r.Contains c m
  threshold : ∀ t ∈ r.thresholdCheckpoint,
    (∃ m ∈ r.membership c.inclusion, c.confirmationPolicy.reached r.endCheckpoint.height.1 m)
      ∧ r.startCheckpoint.height.1 < t.height.1 ∧ t = r.endCheckpoint

instance (sha : Sha256) (c : ReceiptContext) (r : ReceiptFields) : Decidable (r.Valid sha c) :=
  decidable_of_iff (r.planId = (r.planData c.context).planId sha
      ∧ r.pageDigest = pageReceiptDigest sha r.toReceiptBase c.context
      ∧ r.endCheckpoint.height.1 = c.catchUp.through r.startCheckpoint r.frontier
      ∧ (r.lineage.length : Int) ≤ c.catchUp.maximumPageEntries.1
      ∧ (r.endCheckpoint.height.1 = r.frontier.height.1 → r.endCheckpoint.hash = r.frontier.hash)
      ∧ Observer.linked r.startCheckpoint.height.1 r.startCheckpoint.hash r.lineage = true
      ∧ r.lineage.getLast?.map (fun e => (e.height.1, e.hash))
      = some (r.endCheckpoint.height.1, r.endCheckpoint.hash)
      ∧ (∀ m ∈ r.targetMembership, r.Contains c m)
      ∧ ∀ t ∈ r.thresholdCheckpoint,
        (∃ m ∈ r.membership c.inclusion, c.confirmationPolicy.reached r.endCheckpoint.height.1 m)
          ∧ r.startCheckpoint.height.1 < t.height.1 ∧ t = r.endCheckpoint)
    ⟨fun ⟨h1, h2, h3, h4, h5, h6, h7, h8, h9⟩ => ⟨h1, h2, h3, h4, h5, h6, h7, h8, h9⟩,
      fun h => ⟨h.1, h.2, h.3, h.4, h.5, h.6, h.7, h.8, h.9⟩⟩

/-! ### States -/

namespace State

/-- The inclusion is the target's, at or below the checkpoint, and counts its confirmations. -/
structure Includes (s : State) (i : Inclusion) : Prop where
  transaction : i.transactionId = s.target.transactionId
  binding : i.targetBindingDigest = s.targetBindingDigest
  height : i.momentumHeight.1 ≤ s.checkpoint.height.1
  confirmations : i.currentConfirmations.1 = s.checkpoint.height.1 - i.momentumHeight.1 + 1

instance (s : State) (i : Inclusion) : Decidable (s.Includes i) :=
  decidable_of_iff (i.transactionId = s.target.transactionId ∧ i.targetBindingDigest
    = s.targetBindingDigest
      ∧ i.momentumHeight.1 ≤ s.checkpoint.height.1
      ∧ i.currentConfirmations.1 = s.checkpoint.height.1 - i.momentumHeight.1 + 1)
    ⟨fun ⟨h1, h2, h3, h4⟩ => ⟨h1, h2, h3, h4⟩, fun h => ⟨h.1, h.2, h.3, h.4⟩⟩

/-- The threshold of an inclusion, by the receipt of the page that reached it. -/
structure Reaches (sha : Sha256) (s : State) (i : Inclusion) (t : FirstThreshold) : Prop where
  confirmations : t.confirmations.1 = t.checkpoint.height.1 - i.momentumHeight.1 + 1
  enough : s.confirmationPolicy.minimumConfirmations.1 ≤ t.confirmations.1
  upTo : t.checkpoint.height.1 ≤ s.checkpoint.height.1
  threshold : t.lineageReceipt.1.thresholdCheckpoint = some t.checkpoint
  ends : t.lineageReceipt.1.endCheckpoint = t.checkpoint
  receipt : t.lineageReceipt.1.Valid sha s.receiptContext
  membership : t.lineageReceipt.1.membership (some i.toMembership) = some i.toMembership

instance (sha : Sha256) (s : State) (i : Inclusion) (t : FirstThreshold) :
    Decidable (s.Reaches sha i t) :=
  decidable_of_iff (t.confirmations.1 = t.checkpoint.height.1 - i.momentumHeight.1 + 1
      ∧ s.confirmationPolicy.minimumConfirmations.1 ≤ t.confirmations.1
      ∧ t.checkpoint.height.1 ≤ s.checkpoint.height.1
      ∧ t.lineageReceipt.1.thresholdCheckpoint = some t.checkpoint
      ∧ t.lineageReceipt.1.endCheckpoint = t.checkpoint
      ∧ t.lineageReceipt.1.Valid sha s.receiptContext
      ∧ t.lineageReceipt.1.membership (some i.toMembership) = some i.toMembership)
    ⟨fun ⟨h1, h2, h3, h4, h5, h6, h7⟩ => ⟨h1, h2, h3, h4, h5, h6, h7⟩,
      fun h => ⟨h.1, h.2, h.3, h.4, h.5, h.6, h.7⟩⟩

def thresholdReceiptExpected (s : State) (r : Receipt) : Prop := match s.firstThreshold with
  | none => ∃ m ∈ r.1.membership s.receiptContext.inclusion,
      s.confirmationPolicy.reached r.1.endCheckpoint.height.1 m
  | some t => r = t.lineageReceipt

instance (s : State) (r : Receipt) : Decidable (s.thresholdReceiptExpected r) := by
  unfold thresholdReceiptExpected
  split <;> infer_instance

/-- The last page, against the rest of the state. -/
structure Follows (sha : Sha256) (s : State) (r : Receipt) : Prop where
  ends : r.1.endCheckpoint = s.checkpoint
  receipt : r.1.Valid sha s.receiptContext
  expected : r.1.thresholdCheckpoint.isSome = decide (s.thresholdReceiptExpected r)
  agrees : ∀ m ∈ r.1.targetMembership, ∀ i ∈ s.inclusion,
    m.momentumHeight = i.momentumHeight ∧ m.momentumHash = i.momentumHash
  same : ∀ c ∈ r.1.thresholdCheckpoint, ∀ t ∈ s.firstThreshold, c = t.checkpoint

instance (sha : Sha256) (s : State) (r : Receipt) : Decidable (s.Follows sha r) :=
  decidable_of_iff (r.1.endCheckpoint = s.checkpoint ∧ r.1.Valid sha s.receiptContext
      ∧ r.1.thresholdCheckpoint.isSome = decide (s.thresholdReceiptExpected r)
      ∧ (∀ m ∈ r.1.targetMembership, ∀ i ∈ s.inclusion,
        m.momentumHeight = i.momentumHeight ∧ m.momentumHash = i.momentumHash)
      ∧ ∀ c ∈ r.1.thresholdCheckpoint, ∀ t ∈ s.firstThreshold, c = t.checkpoint)
    ⟨fun ⟨h1, h2, h3, h4, h5⟩ => ⟨h1, h2, h3, h4, h5⟩, fun h => ⟨h.1, h.2, h.3, h.4, h.5⟩⟩

/-- The last checks: what each status says of the inclusion, the threshold and the quarantine. -/
def settled (s : State) : Prop := match s.status with
  | .AWAITING_INCLUSION => s.inclusion = none ∧ s.firstThreshold = none ∧ s.quarantine = none
  | .INCLUDED_BELOW_THRESHOLD =>
    (∃ i ∈ s.inclusion, i.currentConfirmations.1 < s.confirmationPolicy.minimumConfirmations.1)
      ∧ s.firstThreshold = none ∧ s.quarantine = none
  | .THRESHOLD_OBSERVED =>
    (∃ i ∈ s.inclusion, s.confirmationPolicy.minimumConfirmations.1 ≤ i.currentConfirmations.1)
      ∧ s.firstThreshold ≠ none ∧ s.quarantine = none
  | .QUARANTINED => s.quarantine ≠ none
      ∧ ¬ (s.inclusion = none ∧ s.firstThreshold ≠ none)
      ∧ ¬ ((∃ i ∈ s.inclusion, i.currentConfirmations.1
        < s.confirmationPolicy.minimumConfirmations.1)
        ∧ s.firstThreshold ≠ none)

instance (s : State) : Decidable s.settled := by
  unfold settled
  split <;> infer_instance

/-- `normalizeStateSnapshot`, after the shapes of the fields. -/
structure Valid (sha : Sha256) (s : State) : Prop where
  recordId : s.observerRecordId
    = Observer.observerRecordId sha s.observerPolicy s.authorityGeneration s.chainProfile
    s.confirmationPolicy s.target.transactionId
  binding : s.targetBindingDigest
    = commitment sha TARGET_BINDING_DOMAIN (targetCodec.encode s.target)
  bounds : ∀ v1 ∈ s.maxV1Height, ∀ v2 ∈ s.minV2Height, v1.1 < v2.1
  authorization : ∀ i ∈ s.inclusion, i.inclusionAuthorizationId
    = Observer.inclusionAuthorizationId sha
    s.observerRecordId i.transactionId i.momentumHeight i.momentumHash
    s.confirmationPolicy.minimumConfirmations
  page : ∀ r ∈ s.lastAppliedPage, s.Follows sha r
  inclusion : ∀ i ∈ s.inclusion, s.Includes i
  threshold : ∀ t ∈ s.firstThreshold, ∃ i ∈ s.inclusion, s.Reaches sha i t
  below : s.firstThreshold = none → ∀ i ∈ s.inclusion,
    i.currentConfirmations.1 < s.confirmationPolicy.minimumConfirmations.1
  settled : s.settled

instance (sha : Sha256) (s : State) : Decidable (s.Valid sha) :=
  decidable_of_iff (s.observerRecordId
    = Observer.observerRecordId sha s.observerPolicy s.authorityGeneration
        s.chainProfile s.confirmationPolicy s.target.transactionId
      ∧ s.targetBindingDigest = commitment sha TARGET_BINDING_DOMAIN (targetCodec.encode s.target)
      ∧ (∀ v1 ∈ s.maxV1Height, ∀ v2 ∈ s.minV2Height, v1.1 < v2.1)
      ∧ (∀ i ∈ s.inclusion, i.inclusionAuthorizationId
        = Observer.inclusionAuthorizationId sha s.observerRecordId
        i.transactionId i.momentumHeight i.momentumHash s.confirmationPolicy.minimumConfirmations)
      ∧ (∀ r ∈ s.lastAppliedPage, s.Follows sha r)
      ∧ (∀ i ∈ s.inclusion, s.Includes i)
      ∧ (∀ t ∈ s.firstThreshold, ∃ i ∈ s.inclusion, s.Reaches sha i t)
      ∧ (s.firstThreshold = none → ∀ i ∈ s.inclusion,
        i.currentConfirmations.1 < s.confirmationPolicy.minimumConfirmations.1)
      ∧ s.settled)
    ⟨fun ⟨h1, h2, h3, h4, h5, h6, h7, h8, h9⟩ => ⟨h1, h2, h3, h4, h5, h6, h7, h8, h9⟩,
      fun h => ⟨h.1, h.2, h.3, h.4, h.5, h.6, h.7, h.8, h.9⟩⟩

end State

/-- A state that `normalizeStateSnapshot` accepts. -/
abbrev Accepted (sha : Sha256) := {s : State // decide (s.Valid sha) = true}

def acceptedCodec (sha : Sha256) : Codec Rejection (Accepted sha) :=
  stateCodec.refine (fun s => decide (s.Valid sha)) .INVALID_INPUT

def normalizeStateSnapshot (sha : Sha256) (input : Value) : Except Code (Accepted sha) :=
  failWith ((acceptedCodec sha).decode input) .INVALID_STATE

variable {sha : Sha256}

theorem Accepted.valid (c : Accepted sha) : c.1.Valid sha := of_decide_eq_true c.2

/-- The state as it is handed out. -/
def Accepted.encode (c : Accepted sha) : Value := (acceptedCodec sha).encode c

/-- `{ ...value, ...changes }`, for changes of keys that are there. -/
def spread (changes : List (String × Value)) : Value → Value
  | .obj fs => .obj (fs.map fun f => (f.1, (changes.lookup f.1).getD f.2))
  | v => v

def cloneState (state : Accepted sha) (changes : List (String × Value)) :
    Except Code (Accepted sha) :=
  normalizeStateSnapshot sha (spread changes state.encode)

/-- `{ reason }`. -/
def quarantineValue (reason : Reason) : Value := normalizeQuarantine.encode reason

def quarantineState (state : Accepted sha) (reason : Reason) : Except Code (Accepted sha) :=
  if state.1.status = .QUARANTINED then .ok state
  else cloneState state [
    ("revision", .num (state.1.revision.1 + 1)),
    ("status", .str Status.QUARANTINED.name),
    ("quarantine", quarantineValue reason)]

/-! ### States that are handed in and handed out -/

theorem normalizeStateSnapshot_encode (c : Accepted sha) :
    normalizeStateSnapshot sha c.encode = .ok c := by
  rw [normalizeStateSnapshot, failWith_ok]
  exact (acceptedCodec sha).decode_encode_self c

theorem normalizeStateSnapshot_of_valid {s : State} (h : s.Valid sha) :
    normalizeStateSnapshot sha (stateCodec.encode s) = .ok ⟨s, decide_eq_true h⟩ :=
  normalizeStateSnapshot_encode ⟨s, decide_eq_true h⟩

/-- The changed state, when the changes are those of a valid state. -/
theorem cloneState_of_valid {c : Accepted sha} {changes : List (String × Value)} {s' : State}
    (h : spread changes c.encode = stateCodec.encode s') (hs : s'.Valid sha) :
    cloneState c changes = .ok ⟨s', decide_eq_true hs⟩ := by
  rw [cloneState, h]
  exact normalizeStateSnapshot_of_valid hs

end Observer
end ZenonX402
