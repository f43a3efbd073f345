/-
# The transitions of the funding observer

Creation and the four transitions, each a function of the object it is called
with, in which the state is a value like the others and is checked first: a plan
for the momentums that are missing, a page of momentums against a plan, an
observation of where the target is included, and the heights at which momentum
versions were seen. What contradicts the state quarantines it; what is merely
malformed throws.

Key definitions: `createZenonFundingObserverState`, `planZenonFundingObserverBackfill`,
`applyZenonFundingObserverPage`, `applyZenonFundingInclusionObservation`,
`applyZenonFundingMomentumVersionLineage`, `projectZenonFundingObservationCandidate`,
`serializeZenonFundingObserverState`, `parseZenonFundingObserverState`.
-/
import ZenonX402.Observer.Snapshot
import ZenonX402.Observer.State

namespace ZenonX402
namespace Observer

open Js
open Credit (Commitment PositiveInt Rejection assertPositiveSafeInteger)

inductive Disposition
  | APPLIED
  | UNCHANGED
  | REPLAY
  | QUARANTINED
  | SOURCE_UNAVAILABLE
  | SOURCE_BEHIND
  | AT_FRONTIER
  | BACKFILL_REQUIRED
  | INCLUSION_OBSERVATION_REQUIRED
  deriving DecidableEq, Repr

/-- `result`. -/
structure Outcome (sha : Sha256) where
  state : Accepted sha
  disposition : Disposition

variable {sha : Sha256}

/-- The argument of an entry point: a bounded copy, with exactly these keys. -/
def captured (keys : List String) (input : Value) : Except Code (String → Value) := do
  let copy ← orReject (snapshotJson input) .INVALID_INPUT
  orReject (exactObject keys copy) .INVALID_INPUT

def assertExpectedRevision (state : Accepted sha) (expectedRevision : Value) :
    Except Code Unit := do
  let expectedRevision ← failWith (assertNonnegativeInteger.decode expectedRevision) .INVALID_INPUT
  rejectIf (expectedRevision ≠ state.1.revision) .STALE_REVISION

def normalizeContext (value : String → Value) : Except Code Context := do
  let observerRecordId ← failWith (Credit.assertCommitment.decode (value "observerRecordId"))
      .INVALID_INPUT
  let targetBindingDigest ← failWith (Credit.assertCommitment.decode (value "targetBindingDigest"))
      .INVALID_INPUT
  let authorityGeneration ← failWith (authorityGenerationCodec.decode (value "authorityGeneration"))
      .INVALID_INPUT
  let chainProfile ← failWith (chainProfileCodec.decode (value "chainProfile")) .INVALID_INPUT
  .ok ⟨observerRecordId, targetBindingDigest, authorityGeneration, chainProfile⟩

def State.contextMatches (s : State) (context : Context) : Prop := context = s.context

instance (s : State) (context : Context) : Decidable (s.contextMatches context) :=
  inferInstanceAs (Decidable (_ = _))

/-- `result(quarantineState(state, reason), 'QUARANTINED')`. -/
def quarantined (state : Accepted sha) (reason : Reason) : Except Code (Outcome sha) := do
  let next ← quarantineState state reason
  .ok ⟨next, .QUARANTINED⟩

/-- `input?.status`. -/
def statusOf : Value → Value
  | .obj fs => (fs.lookup "status").getD .undefined
  | _ => .undefined

/-- The `reason` of a source or an observation that is not available. -/
def unavailable (input : Value) : Except Code Unit := do
  let value ← orReject (exactObject ["status", "reason"] input) .INVALID_INPUT
  rejectIf ((value "reason").strictEq (.str "TIMEOUT") = false
    ∧ (value "reason").strictEq (.str "UNAVAILABLE") = false)
    .INVALID_INPUT

/-! ### Creation -/

def CREATE_KEYS : List String :=
  ["observerPolicy", "authorityGeneration", "chainProfile", "confirmationPolicy", "target",
    "checkpoint", "catchUp"]

theorem zero_counter : (0 : Int).natAbs ≤ 9007199254740991 ∧ decide (0 ≤ (0 : Int)) = true := by
  decide

/-- The state that an observer starts with. -/
def initial (sha : Sha256) (observerPolicy : ObserverPolicy)
    (authorityGeneration : AuthorityGeneration) (chainProfile : ChainProfile)
    (confirmationPolicy : ConfirmationPolicy) (target : Target) (checkpoint : Checkpoint)
    (catchUp : CatchUpConfiguration) : State where
  revision := ⟨0, zero_counter⟩
  observerPolicy := observerPolicy
  authorityGeneration := authorityGeneration
  observerRecordId := observerRecordId sha observerPolicy authorityGeneration chainProfile
    confirmationPolicy
    target.transactionId
  chainProfile := chainProfile
  confirmationPolicy := confirmationPolicy
  target := target
  targetBindingDigest := commitment sha TARGET_BINDING_DOMAIN (targetCodec.encode target)
  checkpoint := checkpoint
  catchUp := ⟨⟨catchUp.1, none⟩, catchUp.2⟩
  maxV1Height := none
  minV2Height := none
  status := .AWAITING_INCLUSION
  inclusion := none
  firstThreshold := none
  quarantine := none

def createZenonFundingObserverState (sha : Sha256) (input : Value) :
    Except Code (Accepted sha) := do
  let value ← captured CREATE_KEYS input
  let observerPolicy ← failWith (observerPolicyCodec.decode (value "observerPolicy")) .INVALID_INPUT
  let authorityGeneration ← failWith (authorityGenerationCodec.decode (value "authorityGeneration"))
      .INVALID_INPUT
  let chainProfile ← failWith (chainProfileCodec.decode (value "chainProfile")) .INVALID_INPUT
  let confirmationPolicy ← failWith (confirmationPolicyCodec.decode (value "confirmationPolicy"))
      .INVALID_INPUT
  let target ← failWith (targetCodec.decode (value "target")) .INVALID_INPUT
  let checkpoint ← failWith (checkpointCodec.decode (value "checkpoint")) .INVALID_INPUT
  let catchUp ← failWith (catchUpConfigurationCodec.decode (value "catchUp")) .INVALID_INPUT
  normalizeStateSnapshot sha
    (stateCodec.encode (initial sha observerPolicy authorityGeneration chainProfile
    confirmationPolicy target checkpoint catchUp))

/-! ### Momentum versions -/

def LINEAGE_KEYS : List String := ["state", "expectedRevision", "maxV1Height", "minV2Height"]

/-- The larger of two heights, of which either may be missing. -/
def laterOf (known observed : Option PositiveInt) : Option PositiveInt := match known, observed with
  | none, _ => observed
  | some _, none => known
  | some a, some b => if a.1 < b.1 then some b else some a

/-- The smaller of two heights, of which either may be missing. -/
def earlierOf (known observed : Option PositiveInt) : Option PositiveInt :=
  match known, observed with
  | none, _ => observed
  | some _, none => known
  | some a, some b => if b.1 < a.1 then some b else some a

/-- Version 1 was seen at or above a height at which version 2 was. -/
def versionsConflict (maxV1Height minV2Height : Option PositiveInt) : Prop :=
  ∃ v1 ∈ maxV1Height, ∃ v2 ∈ minV2Height, v2.1 ≤ v1.1

instance (maxV1Height minV2Height : Option PositiveInt) :
    Decidable (versionsConflict maxV1Height minV2Height) := by
  unfold versionsConflict
  infer_instance

def applyZenonFundingMomentumVersionLineage (sha : Sha256) (input : Value) :
    Except Code (Outcome sha) := do
  let value ← captured LINEAGE_KEYS input
  let state ← normalizeStateSnapshot sha (value "state")
  assertExpectedRevision state (value "expectedRevision")
  if state.1.status = .QUARANTINED then .ok ⟨state, .QUARANTINED⟩
  else do
    let observedMaxV1Height ← failWith (normalizeMomentumVersionHeight.decode (value "maxV1Height"))
        .INVALID_INPUT
    let observedMinV2Height ← failWith (normalizeMomentumVersionHeight.decode (value "minV2Height"))
        .INVALID_INPUT
    rejectIf (versionsConflict observedMaxV1Height observedMinV2Height) .INVALID_INPUT
    rejectIf (observedMaxV1Height = none ∧ observedMinV2Height = none) .INVALID_INPUT
    let maxV1Height := laterOf state.1.maxV1Height observedMaxV1Height
    let minV2Height := earlierOf state.1.minV2Height observedMinV2Height
    if versionsConflict maxV1Height minV2Height then quarantined state .MOMENTUM_VERSION_CONFLICT
    else if maxV1Height = state.1.maxV1Height ∧ minV2Height = state.1.minV2Height
      then .ok ⟨state, .UNCHANGED⟩
    else do
      let next ← cloneState state [
        ("revision", .num (state.1.revision.1 + 1)),
        ("maxV1Height", normalizeMomentumVersionHeight.encode maxV1Height),
        ("minV2Height", normalizeMomentumVersionHeight.encode minV2Height)]
      .ok ⟨next, .APPLIED⟩

/-! ### Plans -/

/-- What `normalizePlan` reads. -/
structure Plan where
  observerRecordId : Commitment
  targetBindingDigest : Commitment
  authorityGeneration : AuthorityGeneration
  chainProfile : ChainProfile
  startCheckpoint : Checkpoint
  frontier : Checkpoint
  fromHeight : PositiveInt
  throughHeight : PositiveInt
  entryCount : PositiveInt
  planId : Commitment
  deriving DecidableEq

def planCodec : Codec Rejection Plan :=
  (object (.const "planVersion" (.constNum 1 .INVALID_INPUT)
    (.cons "observerRecordId" Credit.assertCommitment
    (.cons "targetBindingDigest" Credit.assertCommitment
    (.cons "authorityGeneration" authorityGenerationCodec
    (.cons "chainProfile" chainProfileCodec
    (.cons "startCheckpoint" checkpointCodec
    (.cons "frontier" checkpointCodec
    (.cons "fromHeight" assertPositiveSafeInteger
    (.cons "throughHeight" assertPositiveSafeInteger
    (.cons "entryCount" assertPositiveSafeInteger
    (.cons "planId" Credit.assertCommitment .nil))))))))))) Rejection.INVALID_INPUT).equiv
    { toFun := fun (a, b, c, d, e, f, g, h, i, j, _) => ⟨a, b, c, d, e, f, g, h, i, j⟩
      invFun := fun p => (p.observerRecordId, p.targetBindingDigest, p.authorityGeneration,
        p.chainProfile, p.startCheckpoint, p.frontier, p.fromHeight, p.throughHeight,
        p.entryCount, p.planId, ())
      left_inv := fun _ => rfl
      right_inv := fun _ => rfl }

namespace Plan

def context (p : Plan) : Context :=
  ⟨p.observerRecordId, p.targetBindingDigest, p.authorityGeneration, p.chainProfile⟩

/-- The plan without its identifier. -/
def data (p : Plan) : PlanData :=
  ⟨p.context, p.startCheckpoint, p.frontier, p.fromHeight.1, p.throughHeight.1, p.entryCount.1⟩

end Plan

def normalizePlan (sha : Sha256) (input : Value) : Except Code Plan := do
  let plan ← failWith (planCodec.decode input) .INVALID_INPUT
  rejectIf (plan.planId ≠ plan.data.planId sha) .INVALID_INPUT
  .ok plan

/-- `makePlan`, whose identifier is the one of its data. -/
def makePlan (s : State) (frontier : Checkpoint) : PlanData :=
  let fromHeight := s.checkpoint.height.1 + 1
  let throughHeight := s.catchUp.1.through s.checkpoint frontier
  ⟨s.context, s.checkpoint, frontier, fromHeight, throughHeight, throughHeight - fromHeight + 1⟩

/-- `{ ...planData, planId }`. -/
def PlanData.value (sha : Sha256) (p : PlanData) : Value :=
  .obj (p.fields ++ [("planId", .str (p.planId sha).1)])

def makeDetachedPlan (sha : Sha256) (s : State) (frontier : Checkpoint) : Except Code Plan := do
  let copy ← orReject (snapshotJson ((makePlan s frontier).value sha)) .INVALID_INPUT
  normalizePlan sha copy

inductive Source
  | unavailable
  | available (frontier : Checkpoint) (checkpointHash : Option Hash)

def normalizeSource (input : Value) : Except Code Source :=
  if (statusOf input).strictEq (.str "UNAVAILABLE") then do
    unavailable input
    .ok .unavailable
  else do
    let value ← orReject (exactObject ["status", "frontier", "checkpointHash"] input) .INVALID_INPUT
    rejectIf ((value "status").strictEq (.str "AVAILABLE") = false) .INVALID_INPUT
    let frontier ← failWith (checkpointCodec.decode (value "frontier")) .INVALID_INPUT
    let checkpointHash ← failWith
      ((Codec.nullable assertHash fun _ => nofun).decode (value "checkpointHash")) .INVALID_INPUT
    .ok (.available frontier checkpointHash)

/-- What a backfill is planned to be. -/
structure Planned (sha : Sha256) extends Outcome sha where
  plan : Option Plan

/-- A page has shown the target, and it is not confirmed where. -/
def State.awaitsObservation (s : State) : Prop :=
  s.inclusion = none ∧ ∃ r ∈ s.lastAppliedPage, r.1.targetMembership ≠ none

instance (s : State) : Decidable s.awaitsObservation := by
  unfold State.awaitsObservation
  infer_instance

def PLAN_KEYS : List String :=
  ["state", "expectedRevision", "observerRecordId", "targetBindingDigest", "authorityGeneration",
    "chainProfile", "source"]

/-- A plan against a source that is available. -/
def planAgainst (state : Accepted sha) (frontier : Checkpoint) (checkpointHash : Option Hash) :
    Except Code (Planned sha) :=
  if frontier.height.1 < state.1.checkpoint.height.1 then do
    rejectIf (checkpointHash ≠ none) .INVALID_INPUT
    .ok ⟨⟨state, .SOURCE_BEHIND⟩, none⟩
  else if checkpointHash ≠ some state.1.checkpoint.hash then do
    let outcome ← quarantined state .CHECKPOINT_HASH_MISMATCH
    .ok ⟨outcome, none⟩
  else if frontier.height = state.1.checkpoint.height then
    if frontier.hash ≠ state.1.checkpoint.hash then do
      let outcome ← quarantined state .CHECKPOINT_HASH_MISMATCH
      .ok ⟨outcome, none⟩
    else if state.1.awaitsObservation then .ok ⟨⟨state, .INCLUSION_OBSERVATION_REQUIRED⟩, none⟩
    else .ok ⟨⟨state, .AT_FRONTIER⟩, none⟩
  else if state.1.awaitsObservation then .ok ⟨⟨state, .INCLUSION_OBSERVATION_REQUIRED⟩, none⟩
  else do
    let plan ← makeDetachedPlan sha state.1 frontier
    .ok ⟨⟨state, .BACKFILL_REQUIRED⟩, some plan⟩

def planZenonFundingObserverBackfill (sha : Sha256) (input : Value) :
    Except Code (Planned sha) := do
  let value ← captured PLAN_KEYS input
  let state ← normalizeStateSnapshot sha (value "state")
  assertExpectedRevision state (value "expectedRevision")
  let suppliedContext ← normalizeContext value
  if state.1.status = .QUARANTINED then .ok ⟨⟨state, .QUARANTINED⟩, none⟩
  else if ¬ state.1.contextMatches suppliedContext then do
    let outcome ← quarantined state .CONTEXT_DRIFT
    .ok ⟨outcome, none⟩
  else do
    let source ← normalizeSource (value "source")
    match source with
    | .unavailable => .ok ⟨⟨state, .SOURCE_UNAVAILABLE⟩, none⟩
    | .available frontier checkpointHash => planAgainst state frontier checkpointHash

/-! ### Pages -/

structure Member where
  transactionId : TransactionId
  targetBindingDigest : Commitment
  deriving DecidableEq

def normalizeMember : Codec Rejection Member :=
  (object (.cons "transactionId" assertTransactionId
    (.cons "targetBindingDigest" Credit.assertCommitment .nil)) Rejection.INVALID_INPUT).equiv
    { toFun := fun (a, b, _) => ⟨a, b⟩
      invFun := fun m => (m.transactionId, m.targetBindingDigest, ())
      left_inv := fun _ => rfl
      right_inv := fun _ => rfl }

structure Entry extends LineageEntry where
  members : List Member
  deriving DecidableEq

def entryCodec : Codec Rejection Entry :=
  (object (.cons "height" assertPositiveSafeInteger
    (.cons "hash" assertHash
    (.cons "previousHash" assertHash
    (.cons "members" (.list normalizeMember .INVALID_INPUT) .nil)))) Rejection.INVALID_INPUT).equiv
    { toFun := fun (a, b, c, d, _) => ⟨⟨a, b, c⟩, d⟩
      invFun := fun e => (e.height, e.hash, e.previousHash, e.members, ())
      left_inv := fun _ => rfl
      right_inv := fun _ => rfl }

structure PageFields where
  observerRecordId : Commitment
  targetBindingDigest : Commitment
  authorityGeneration : AuthorityGeneration
  chainProfile : ChainProfile
  planId : Commitment
  startCheckpoint : Checkpoint
  frontier : Checkpoint
  entries : List Entry
  deriving DecidableEq

def pageFieldsCodec : Codec Rejection PageFields :=
  (object (.const "pageVersion" (.constNum 1 .INVALID_INPUT)
    (.cons "observerRecordId" Credit.assertCommitment
    (.cons "targetBindingDigest" Credit.assertCommitment
    (.cons "authorityGeneration" authorityGenerationCodec
    (.cons "chainProfile" chainProfileCodec
    (.cons "planId" Credit.assertCommitment
    (.cons "startCheckpoint" checkpointCodec
    (.cons "frontier" checkpointCodec
    (.cons "entries" (.list entryCodec .INVALID_INPUT) .nil))))))))) Rejection.INVALID_INPUT).equiv
    { toFun := fun (a, b, c, d, e, f, g, h, _) => ⟨a, b, c, d, e, f, g, h⟩
      invFun := fun p => (p.observerRecordId, p.targetBindingDigest, p.authorityGeneration,
        p.chainProfile, p.planId, p.startCheckpoint, p.frontier, p.entries, ())
      left_inv := fun _ => rfl
      right_inv := fun _ => rfl }

def PageFields.context (p : PageFields) : Context :=
  ⟨p.observerRecordId, p.targetBindingDigest, p.authorityGeneration, p.chainProfile⟩

/-- The number of entries and of members; the running total of the members only grows. -/
def PageFields.sized (catchUp : CatchUpFields) (p : PageFields) : Bool :=
  decide (p.entries ≠ [] ∧ (p.entries.length : Int) ≤ catchUp.maximumPageEntries.1
    ∧ (∀ e ∈ p.entries, (e.members.length : Int) ≤ catchUp.maximumMembersPerMomentum.1)
    ∧ (p.entries.map (·.members.length)).sum ≤ MAX_INPUT_MEMBERS)

/-- What `normalizePage` gives back. -/
abbrev Page (catchUp : CatchUpFields) := {p : PageFields // p.sized catchUp = true}

def pageCodec (catchUp : CatchUpFields) : Codec Rejection (Page catchUp) :=
  pageFieldsCodec.refine (PageFields.sized catchUp) .INVALID_INPUT

def normalizePage (input : Value) (s : State) : Except Code (Page s.catchUp.1.toCatchUpFields) :=
  failWith ((pageCodec s.catchUp.1.toCatchUpFields).decode input) .INVALID_INPUT

namespace Page

variable {catchUp : CatchUpFields}

theorem sized (p : Page catchUp) :
    p.1.entries ≠ [] ∧ (p.1.entries.length : Int) ≤ catchUp.maximumPageEntries.1 := by
  have h := p.2
  simp only [PageFields.sized, decide_eq_true_eq] at h
  exact ⟨h.1, h.2.1⟩

/-- `page.entries[page.entries.length - 1]`. -/
def endEntry (p : Page catchUp) : Entry := p.1.entries.getLast p.sized.1

/-- `page.entries.length`. -/
def entryCount (p : Page catchUp) : PositiveInt :=
  ⟨p.1.entries.length, by
    have hmax := catchUp.maximumPageEntries.le
    have hle := p.sized.2
    omega, by
    have hpos := List.length_pos_iff.mpr p.sized.1
    simpa using hpos⟩

end Page

/-- An entry of a page as the checkpoint it leads to. -/
def LineageEntry.checkpoint (e : LineageEntry) : Checkpoint :=
  ⟨⟨e.height.1, e.height.2.1, decide_eq_true e.height.pos.le⟩, e.hash⟩

/-- What the loop over the entries has found. -/
structure Walk where
  previousHash : Hash
  targetMembership : Option Membership
  lineage : List LineageEntry

/-- One round over the members of an entry, with the identifiers seen so far. -/
def walkMember (s : State) (entry : Entry) (found : List TransactionId × Option Membership)
    (member : Member) :
    Except Reason (List TransactionId × Option Membership) := do
  rejectIf (member.transactionId ∈ found.1) .PAGE_MEMBER_CONFLICT
  let memberIds := member.transactionId :: found.1
  if member.transactionId = s.target.transactionId then do
    rejectIf (member.targetBindingDigest ≠ s.targetBindingDigest) .TARGET_BINDING_DRIFT
    let discovered : Membership :=
  ⟨member.transactionId, member.targetBindingDigest, entry.height, entry.hash⟩
    rejectIf (found.2 ≠ none ∧ found.2 ≠ some discovered) .INCLUSION_TUPLE_DRIFT
    .ok (memberIds, some discovered)
  else .ok (memberIds, found.2)

/-- One round over the entries, at the height that is due. -/
def walkEntry (s : State) (expectedHeight : Int) (walk : Walk) (entry : Entry) :
    Except Reason Walk := do
  rejectIf (entry.height.1 ≠ expectedHeight) .PAGE_HEIGHT_CONFLICT
  rejectIf (entry.previousHash ≠ walk.previousHash) .PAGE_PARENT_MISMATCH
  let (_, targetMembership) ← entry.members.foldlM (walkMember s entry) ([], walk.targetMembership)
  .ok ⟨entry.hash, targetMembership, walk.lineage ++ [entry.toLineageEntry]⟩

/-- The loop over the entries, the next of which is due at this height. -/
def walkPage (s : State) (expectedHeight : Int) (walk : Walk) : List Entry → Except Reason Walk
  | [] => .ok walk
  | entry :: rest => do
    let walk ← walkEntry s expectedHeight walk entry
    walkPage s (expectedHeight + 1) walk rest

/-- The catch-up record with another last page. -/
def catchUpValue (catchUp : CatchUpFields) (lastAppliedPage : ReceiptFields) : Value := .obj [
  ("maximumPageEntries", .num catchUp.maximumPageEntries.1),
  ("maximumBackfillSpan", .num catchUp.maximumBackfillSpan.1),
  ("maximumMembersPerMomentum", .num catchUp.maximumMembersPerMomentum.1),
  ("lastAppliedPage", receiptFieldsCodec.encode lastAppliedPage)]

/-- An inclusion record. -/
def inclusionValue (membership : Membership) (inclusionAuthorizationId : Commitment)
    (currentConfirmations : Int) :
    Value := .obj [
  ("transactionId", .str membership.transactionId.1),
  ("targetBindingDigest", .str membership.targetBindingDigest.1),
  ("momentumHeight", .num membership.momentumHeight.1),
  ("momentumHash", .str membership.momentumHash.1),
  ("inclusionAuthorizationId", .str inclusionAuthorizationId.1),
  ("currentConfirmations", .num currentConfirmations)]

/-- A threshold record. -/
def firstThresholdValue (checkpoint : Checkpoint) (confirmations : Int)
    (lineageReceipt : ReceiptFields) : Value := .obj [
  ("checkpoint", checkpointCodec.encode checkpoint),
  ("confirmations", .num confirmations),
  ("lineageReceipt", receiptFieldsCodec.encode lineageReceipt)]

/-- The status of a state that includes the target, by whether the threshold is reached. -/
def includedStatus (thresholdReached : Bool) : Status :=
  if thresholdReached then .THRESHOLD_OBSERVED else .INCLUDED_BELOW_THRESHOLD

def updateIncludedState (state : Accepted sha) (checkpoint : Checkpoint)
    (lastAppliedPage : ReceiptFields) :
    Except Code (Accepted sha) :=
  let catchUp := catchUpValue state.1.catchUp.1.toCatchUpFields lastAppliedPage
  match state.1.inclusion with
  | none => cloneState state [
    ("revision", .num (state.1.revision.1 + 1)),
    ("checkpoint", checkpointCodec.encode checkpoint),
    ("catchUp", catchUp)]
  | some inclusion =>
    let currentConfirmations := checkpoint.height.1 - inclusion.momentumHeight.1 + 1
    let included (thresholdReached : Bool) (firstThreshold : Value) := cloneState state [
      ("revision", .num (state.1.revision.1 + 1)),
      ("checkpoint", checkpointCodec.encode checkpoint),
      ("catchUp", catchUp),
      ("status", .str (includedStatus thresholdReached).name),
      ("inclusion", inclusionValue inclusion.toMembership inclusion.inclusionAuthorizationId
        currentConfirmations),
      ("firstThreshold", firstThreshold)]
    if currentConfirmations < inclusion.currentConfirmations.1 then quarantineState state
      .INCLUSION_TUPLE_DRIFT
    else match state.1.firstThreshold with
      | some firstThreshold => included true (firstThresholdCodec.encode firstThreshold)
      | none =>
        if state.1.confirmationPolicy.minimumConfirmations.1 ≤ currentConfirmations then
          if lastAppliedPage.thresholdCheckpoint ≠ some checkpoint
            then quarantineState state .PAGE_GAP
          else included true (firstThresholdValue checkpoint currentConfirmations lastAppliedPage)
        else included false .null

def State.inclusionHeight (s : State) (targetMembership : Option Membership) : Option PositiveInt :=
  (s.inclusion.map (·.momentumHeight)).or (targetMembership.map (·.momentumHeight))

def State.reachesThreshold (s : State) (targetMembership : Option Membership)
    (endHeight : Int) : Prop :=
  s.firstThreshold = none ∧ ∃ h ∈ s.inclusionHeight targetMembership,
    s.confirmationPolicy.minimumConfirmations.1 ≤ endHeight - h.1 + 1

instance (s : State) (targetMembership : Option Membership) (endHeight : Int) :
    Decidable (s.reachesThreshold targetMembership endHeight) := by
  unfold State.reachesThreshold
  infer_instance

/-- A page whose entries hold together, with its receipt. -/
def applyReceipt (state : Accepted sha) (plan : Plan) (receipt : ReceiptBase) :
    Except Code (Outcome sha) :=
  let pageDigest := pageReceiptDigest sha receipt state.1.context
  if ∃ r ∈ state.1.lastAppliedPage, r.1.planId = plan.planId ∧ r.1.pageDigest = pageDigest
  then .ok ⟨state, .REPLAY⟩
  else if state.1.awaitsObservation then .ok ⟨state, .INCLUSION_OBSERVATION_REQUIRED⟩
  else if plan.data ≠ makePlan state.1 plan.frontier then quarantined state .PLAN_CONTEXT_DRIFT
  else if ∃ i ∈ state.1.inclusion, ∃ m ∈ receipt.targetMembership,
      ¬ (m.momentumHeight = i.momentumHeight ∧ m.momentumHash = i.momentumHash) then
    quarantined state .INCLUSION_TUPLE_DRIFT
  else do
    let thresholdCheckpoint :=
      if state.1.reachesThreshold receipt.targetMembership receipt.endCheckpoint.height.1
      then some receipt.endCheckpoint else none
    let next ← updateIncludedState state receipt.endCheckpoint
        ⟨receipt, pageDigest, thresholdCheckpoint⟩
    .ok ⟨next, .APPLIED⟩

/-- A page for a plan, both of the observer. -/
def applyPage (state : Accepted sha) (plan : Plan) (page : Page state.1.catchUp.1.toCatchUpFields) :
    Except Code (Outcome sha) :=
  if page.1.planId ≠ plan.planId ∨ page.1.startCheckpoint ≠ plan.startCheckpoint
      ∨ page.1.frontier ≠ plan.frontier then
    quarantined state .PLAN_CONTEXT_DRIFT
  else if page.entryCount ≠ plan.entryCount then quarantined state .PAGE_GAP
  else match walkPage state.1 plan.fromHeight.1 ⟨page.1.startCheckpoint.hash, none,
    []⟩ page.1.entries with
    | .error reason => quarantined state reason
    | .ok walk =>
      if page.endEntry.height ≠ plan.throughHeight then quarantined state .PAGE_GAP
      else if page.endEntry.height.1 = page.1.frontier.height.1 ∧ page.endEntry.hash ≠ page.1.frontier.hash then
        quarantined state .FRONTIER_REPLACEMENT
      else applyReceipt state plan {
        planId := plan.planId
        startCheckpoint := page.1.startCheckpoint
        endCheckpoint := page.endEntry.checkpoint
        frontier := page.1.frontier
        entryCount := page.entryCount
        lineage := walk.lineage
        targetMembership := walk.targetMembership }

def PAGE_KEYS : List String := ["state", "expectedRevision", "plan", "page"]

def applyZenonFundingObserverPage (sha : Sha256) (input : Value) : Except Code (Outcome sha) := do
  let value ← captured PAGE_KEYS input
  let state ← normalizeStateSnapshot sha (value "state")
  assertExpectedRevision state (value "expectedRevision")
  if state.1.status = .QUARANTINED then .ok ⟨state, .QUARANTINED⟩
  else do
    let plan ← normalizePlan sha (value "plan")
    let page ← normalizePage (value "page") state.1
    if ¬ state.1.contextMatches plan.context ∨ ¬ state.1.contextMatches page.1.context
      then quarantined state .CONTEXT_DRIFT
    else applyPage state plan page

/-! ### Observations -/

inductive Observation
  | unavailable
  | notFound (transactionId : TransactionId)
  | found (membership : Membership) (pageDigest : Commitment)

def normalizeObservation (input : Value) : Except Code Observation :=
  if (statusOf input).strictEq (.str "UNAVAILABLE") then do
    unavailable input
    .ok .unavailable
  else if (statusOf input).strictEq (.str "NOT_FOUND") then do
    let value ← orReject (exactObject ["status", "transactionId"] input) .INVALID_INPUT
    let transactionId ← failWith (assertTransactionId.decode (value "transactionId")) .INVALID_INPUT
    .ok (.notFound transactionId)
  else do
    let value ← orReject (exactObject ["status", "transactionId", "targetBindingDigest",
        "momentumHeight", "momentumHash", "pageDigest"] input) .INVALID_INPUT
    rejectIf ((value "status").strictEq (.str "FOUND") = false) .INVALID_INPUT
    let transactionId ← failWith (assertTransactionId.decode (value "transactionId")) .INVALID_INPUT
    let targetBindingDigest ← failWith
        (Credit.assertCommitment.decode (value "targetBindingDigest")) .INVALID_INPUT
    let momentumHeight ← failWith (assertPositiveSafeInteger.decode (value "momentumHeight"))
        .INVALID_INPUT
    let momentumHash ← failWith (assertHash.decode (value "momentumHash")) .INVALID_INPUT
    let pageDigest ← failWith (Credit.assertCommitment.decode (value "pageDigest")) .INVALID_INPUT
    .ok (.found ⟨transactionId, targetBindingDigest, momentumHeight, momentumHash⟩ pageDigest)

/-- A state with the target included where it was observed; the threshold comes with its receipt. -/
def includeTarget (state : Accepted sha) (observed : Membership) (firstThreshold : Option Value) :
    Except Code (Outcome sha) := do
  let currentConfirmations := state.1.checkpoint.height.1 - observed.momentumHeight.1 + 1
  let authorizationId :=
    inclusionAuthorizationId sha state.1.observerRecordId observed.transactionId
    observed.momentumHeight observed.momentumHash state.1.confirmationPolicy.minimumConfirmations
  let next ← cloneState state [
    ("revision", .num (state.1.revision.1 + 1)),
    ("status", .str (includedStatus firstThreshold.isSome).name),
    ("inclusion", inclusionValue observed authorizationId currentConfirmations),
    ("firstThreshold", firstThreshold.getD .null)]
  .ok ⟨next, .APPLIED⟩

/-- The target was found here, according to the page with this digest. -/
def applyFound (state : Accepted sha) (observed : Membership) (pageDigest : Commitment) :
    Except Code (Outcome sha) :=
  if observed.transactionId ≠ state.1.target.transactionId then quarantined state
  .INCLUSION_TUPLE_DRIFT
  else if observed.targetBindingDigest ≠ state.1.targetBindingDigest then quarantined state
  .TARGET_BINDING_DRIFT
  else match state.1.inclusion with
    | some inclusion =>
      if observed.momentumHeight ≠ inclusion.momentumHeight ∨ observed.momentumHash ≠ inclusion.momentumHash then
        quarantined state .INCLUSION_TUPLE_DRIFT
      else .ok ⟨state, .UNCHANGED⟩
    | none => match state.1.lastAppliedPage with
      | none => quarantined state .MEMBERSHIP_NOT_LINKED
      | some receipt =>
        if receipt.1.targetMembership ≠ some observed ∨ receipt.1.pageDigest ≠ pageDigest then
          quarantined state .MEMBERSHIP_NOT_LINKED
        else if state.1.checkpoint.height.1 - observed.momentumHeight.1 + 1 ≤ 0 then
          quarantined state .MEMBERSHIP_NOT_LINKED
        else if state.1.confirmationPolicy.reached state.1.checkpoint.height.1 observed then
          match receipt.1.thresholdCheckpoint with
          | none => quarantined state .PAGE_GAP
          | some thresholdCheckpoint =>
              includeTarget state observed (some (firstThresholdValue thresholdCheckpoint
            (state.1.checkpoint.height.1 - observed.momentumHeight.1 + 1) receipt.1))
        else includeTarget state observed none

def OBSERVATION_KEYS : List String :=
  ["state", "expectedRevision", "observerRecordId", "targetBindingDigest", "authorityGeneration",
    "chainProfile", "observation"]

def applyZenonFundingInclusionObservation (sha : Sha256) (input : Value) :
    Except Code (Outcome sha) := do
  let value ← captured OBSERVATION_KEYS input
  let state ← normalizeStateSnapshot sha (value "state")
  assertExpectedRevision state (value "expectedRevision")
  let suppliedContext ← normalizeContext value
  if state.1.status = .QUARANTINED then .ok ⟨state, .QUARANTINED⟩
  else if ¬ state.1.contextMatches suppliedContext then quarantined state .CONTEXT_DRIFT
  else do
    let observation ← normalizeObservation (value "observation")
    match observation with
    | .unavailable => .ok ⟨state, .SOURCE_UNAVAILABLE⟩
    | .notFound transactionId =>
      if transactionId ≠ state.1.target.transactionId then quarantined state .INCLUSION_TUPLE_DRIFT
      else if state.1.inclusion = none ∧ ¬ ∃ r ∈ state.1.lastAppliedPage, r.1.targetMembership ≠ none then
        .ok ⟨state, .UNCHANGED⟩
      else quarantined state .INCLUSION_DISAPPEARED
    | .found observed pageDigest => applyFound state observed pageDigest

/-! ### What a state says outside -/

/-- A normalized copy of a state that is handed in. -/
def normalizeState (sha : Sha256) (input : Value) : Except Code (Accepted sha) := do
  let copy ← orReject (snapshotJson input) .INVALID_STATE
  normalizeStateSnapshot sha copy

/-- The candidate of a state at its threshold. -/
def candidate (s : State) (inclusion : Inclusion) (firstThreshold : FirstThreshold) :
    Value := .obj [
  ("candidateVersion", .num 1),
  ("candidateType", .str "zenon-funding-observation-candidate"),
  ("trustClassification", .str "injected-observation-only"),
  ("authorization", .str "NONE"),
  ("observerRecordId", .str s.observerRecordId.1),
  ("targetBindingDigest", .str s.targetBindingDigest.1),
  ("transactionId", .str s.target.transactionId.1),
  ("chainProfile", chainProfileCodec.encode s.chainProfile),
  ("confirmationPolicy", confirmationPolicyCodec.encode s.confirmationPolicy),
  ("inclusionAuthorizationId", .str inclusion.inclusionAuthorizationId.1),
  ("inclusion", membershipCodec.encode inclusion.toMembership),
  ("firstThreshold", firstThresholdCodec.encode firstThreshold)]

/-- `projectZenonFundingObservationCandidate`; null is `none`. A state at its threshold has both
parts. -/
def projectZenonFundingObservationCandidate (sha : Sha256) (input : Value) :
    Except Code (Option Value) := do
  let state ← normalizeState sha input
  if state.1.status ≠ .THRESHOLD_OBSERVED then .ok none
  else match state.1.inclusion, state.1.firstThreshold with
    | some inclusion, some firstThreshold => .ok (some (candidate state.1 inclusion firstThreshold))
    | _, _ => .ok none

def serializeZenonFundingObserverState (sha : Sha256) (input : Value) : Except Code String := do
  let state ← normalizeState sha input
  .ok (canonicalJson state.encode)

def parseZenonFundingObserverState (sha : Sha256) (input : Value) : Except Code (Accepted sha) := do
  match input with
  | .str text =>
    rejectIf (text = "" ∨ MAX_INPUT_BYTES < text.utf8ByteSize) .INVALID_INPUT
    let parsed ← orReject (parse text) .INVALID_INPUT
    let state ← normalizeState sha parsed
    rejectIf (canonicalJson state.encode ≠ text) .INVALID_INPUT
    .ok state
  | _ => .error .INVALID_INPUT

end Observer
end ZenonX402
