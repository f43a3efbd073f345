/-
# The states a transition makes

A transition that changes a state copies it with a few fields replaced and has
the copy checked again. Here is each such copy as a state (`State.quarantinedFor`,
`State.versioned`, `State.atPage`, `State.including`) and the proof that the checks
hold of it where they held before. What a receipt is checked against is the same
after a page as before it, and after an inclusion it matters only to a receipt
that has no membership of its own.

Key definitions: `State.quarantinedFor`, `State.versioned`, `State.atPage`, `State.including`.
Key theorems: `cloneState_gives`, `Valid.quarantinedFor`, `Valid.versioned`, `Valid.atPage`,
`Valid.including`.
-/
import ZenonX402.Observer.Chain

namespace ZenonX402
namespace Observer

open Js
open Credit (Commitment PositiveInt Rejection)

variable {sha : Sha256} {s : State} {c : Accepted sha}

namespace State

/-- The state in quarantine. -/
def quarantinedFor (s : State) (reason : Reason) (revision : NonnegativeInt) : State :=
  { s with revision := revision, status := .QUARANTINED, quarantine := some reason }

/-- The state with other version heights. -/
def versioned (s : State) (maxV1Height minV2Height : Option PositiveInt)
    (revision : NonnegativeInt) : State :=
  { s with revision := revision, maxV1Height := maxV1Height, minV2Height := minV2Height }

/-- The state after a page, but for the inclusion. -/
def atPage (s : State) (receipt : Receipt) (revision : NonnegativeInt) : State :=
  { s with
    revision := revision
    checkpoint := receipt.1.endCheckpoint
    catchUp := ⟨{ s.catchUp.1 with lastAppliedPage := some receipt }, s.catchUp.2⟩ }

/-- The state with the target included. -/
def including (s : State) (inclusion : Inclusion) (firstThreshold : Option FirstThreshold)
    (revision : NonnegativeInt) : State :=
  { s with
    revision := revision
    status := includedStatus firstThreshold.isSome
    inclusion := some inclusion
    firstThreshold := firstThreshold }

/-- The threshold after a page, which is the first one ever reached. -/
def thresholdAt (s : State) (receipt : Receipt) (confirmations : PositiveInt) :
    Option FirstThreshold :=
  s.firstThreshold.or (if s.confirmationPolicy.minimumConfirmations.1 ≤ confirmations.1
    then some ⟨receipt.1.endCheckpoint, confirmations, receipt⟩ else none)

/-- The state after a page, with the target included. -/
def includedAtPage (s : State) (receipt : Receipt) (inclusion : Inclusion)
    (confirmations : PositiveInt) (revision : NonnegativeInt) : State :=
  (s.atPage receipt revision).including { inclusion with currentConfirmations := confirmations }
    (s.thresholdAt receipt confirmations) revision

end State

/-! ### Copies -/

theorem encode_members (s : State) : stateCodec.encode s = .obj [("schemaVersion", .num 2),
    ("revision", .num s.revision.1),
    ("observerPolicy", observerPolicyCodec.encode s.observerPolicy),
    ("authorityGeneration", authorityGenerationCodec.encode s.authorityGeneration),
    ("observerRecordId", Credit.assertCommitment.encode s.observerRecordId),
    ("chainProfile", chainProfileCodec.encode s.chainProfile),
    ("confirmationPolicy", confirmationPolicyCodec.encode s.confirmationPolicy),
    ("target", targetCodec.encode s.target),
    ("targetBindingDigest", Credit.assertCommitment.encode s.targetBindingDigest),
    ("checkpoint", checkpointCodec.encode s.checkpoint),
    ("catchUp", normalizeCatchUpState.encode s.catchUp),
    ("maxV1Height", normalizeMomentumVersionHeight.encode s.maxV1Height),
    ("minV2Height", normalizeMomentumVersionHeight.encode s.minV2Height),
    ("status", .str s.status.name),
    ("inclusion", Codec.encodeNullable inclusionCodec s.inclusion),
    ("firstThreshold", Codec.encodeNullable firstThresholdCodec s.firstThreshold),
    ("trustClassification", .str "injected-observation-only"),
    ("quarantine", Codec.encodeNullable normalizeQuarantine s.quarantine)] := rfl

theorem encode_revision (s : State) :
    ∃ fs, stateCodec.encode s = .obj fs ∧ fs.lookup "revision" = some (.num s.revision.1) :=
  ⟨_, encode_members s, rfl⟩

theorem Accepted.encode_members (c : Accepted sha) : c.encode = stateCodec.encode c.1 := rfl

theorem lookup_spread (changes : List (String × Value)) (k : String) (fs : List (String × Value)) :
    (fs.map fun f => (f.1, (changes.lookup f.1).getD f.2)).lookup k
      = (fs.lookup k).map fun v => (changes.lookup k).getD v := by
  induction fs with
  | nil => rfl
  | cons f fs ih =>
    obtain ⟨k', v⟩ := f
    rw [List.map_cons, List.lookup_cons, List.lookup_cons, ih]
    by_cases hk : k = k'
    · simp [hk]
    · have hne : (k == k') = false := by simpa using hk
      simp [hne]

/-- A copy that is accepted has the revision it was given. -/
theorem cloneState_revision {changes : List (String × Value)} {n : Int} {c' : Accepted sha}
    (hrevision : changes.lookup "revision" = some (.num n)) (h : cloneState c changes = .ok c') :
    c'.1.revision.1 = n := by
  obtain ⟨fs, hfs, hlookup⟩ := encode_revision c.1
  obtain ⟨gs, hgs, hlookup'⟩ := encode_revision c'.1
  have hdecode : (acceptedCodec sha).decode (spread changes c.encode) = .ok c' := failWith_ok.mp h
  have hsame : Value.Same c'.encode (spread changes c.encode) :=
    (acceptedCodec sha).same_of_decode _ _ hdecode
  rw [show c'.encode = .obj gs from hgs, show c.encode = .obj fs from hfs, spread] at hsame
  have hkeys : (gs.map Prod.fst).Nodup := by
    have hjson := stateCodec.json_encode c'.1
    rw [hgs] at hjson
    cases hjson with
    | obj hn _ => exact hn
  have hsame' := lookup_of_same hkeys hsame "revision"
  rw [hlookup', lookup_spread, hlookup, hrevision] at hsame'
  simpa [Value.canonical] using hsame'

/-- A copy with the next revision is refused only when there is no next revision. -/
theorem cloneState_gives (changes : List (String × Value)) (next : NonnegativeInt → State)
    (hrevision : changes.lookup "revision" = some (.num (c.1.revision.1 + 1)))
    (hnext : ∀ r : NonnegativeInt, r.1 = c.1.revision.1 + 1 →
      spread changes c.encode = stateCodec.encode (next r) ∧ (next r).Valid sha) :
    Gives (cloneState c changes) (fun e => e = .INVALID_STATE → c.1.revision.1 = 9007199254740991)
      fun c' => ∃ r : NonnegativeInt, r.1 = c.1.revision.1 + 1 ∧ c'.1 = next r := by
  have hnonneg := c.1.revision.nonneg
  by_cases hmax : c.1.revision.1 = 9007199254740991
  · cases hclone : cloneState c changes with
    | error e => exact fun _ => hmax
    | ok c' =>
      have hrev := cloneState_revision hrevision hclone
      have hle := c'.1.revision.le
      omega
  · have hle := c.1.revision.le
    have hr : (c.1.revision.1 + 1).natAbs ≤ 9007199254740991
        ∧ decide (0 ≤ c.1.revision.1 + 1) = true :=
      ⟨by omega, by simpa using (by omega : 0 ≤ c.1.revision.1 + 1)⟩
    obtain ⟨hencode, hvalid⟩ := hnext ⟨c.1.revision.1 + 1, hr⟩ rfl
    rw [cloneState_of_valid hencode hvalid]
    exact ⟨_, rfl, rfl⟩

/-- A state that is refused is refused as a state. -/
theorem normalizeStateSnapshot_error {v : Value} {e : Code}
    (h : normalizeStateSnapshot sha v = .error e) :
    e = .INVALID_STATE := by
  unfold normalizeStateSnapshot failWith at h
  cases hdecode : (acceptedCodec sha).decode v with
  | ok c =>
    rw [hdecode] at h
    cases h
  | error e' =>
    rw [hdecode] at h
    exact (Except.error.inj h).symm

/-- A copy with the next revision fails only when there is no next revision. -/
theorem cloneState_exhausted (changes : List (String × Value)) (next : NonnegativeInt → State)
    (hrevision : changes.lookup "revision" = some (.num (c.1.revision.1 + 1)))
    (hnext : ∀ r : NonnegativeInt, r.1 = c.1.revision.1 + 1 →
      spread changes c.encode = stateCodec.encode (next r) ∧ (next r).Valid sha) :
    Gives (cloneState c changes) (fun _ => c.1.revision.1 = 9007199254740991)
      fun c' => ∃ r : NonnegativeInt, r.1 = c.1.revision.1 + 1 ∧ c'.1 = next r := by
  have hgives := cloneState_gives changes next hrevision hnext
  cases hclone : cloneState c changes with
  | ok c' =>
    rw [hclone] at hgives
    exact hgives
  | error e =>
    rw [hclone] at hgives
    exact hgives (normalizeStateSnapshot_error hclone)

theorem State.thresholdReceiptExpected_of_none (h : s.firstThreshold = none) (r : Receipt) :
    s.thresholdReceiptExpected r
    ↔ ∃ m ∈ r.1.membership s.receiptContext.inclusion,
    s.confirmationPolicy.reached r.1.endCheckpoint.height.1 m := by
  unfold State.thresholdReceiptExpected
  rw [h]

theorem State.thresholdReceiptExpected_of_some {t : FirstThreshold} (h : s.firstThreshold = some t)
    (r : Receipt) :
    s.thresholdReceiptExpected r ↔ r = t.lineageReceipt := by
  unfold State.thresholdReceiptExpected
  rw [h]

/-! ### Quarantine and versions -/

namespace State.Valid

variable {revision : NonnegativeInt}

/-- A state that awaits its target has none and no threshold. -/
theorem awaiting (h : s.Valid sha) (hstatus : s.status ≠ .QUARANTINED)
    (hnone : s.inclusion = none) :
    s.status = .AWAITING_INCLUSION ∧ s.firstThreshold = none ∧ s.quarantine = none := by
  have hsettled := h.settled
  unfold State.settled at hsettled
  cases hs : s.status with
  | AWAITING_INCLUSION =>
    rw [hs] at hsettled
    exact ⟨rfl, hsettled.2⟩
  | INCLUDED_BELOW_THRESHOLD | THRESHOLD_OBSERVED =>
    rw [hs] at hsettled
    obtain ⟨⟨i, hi, _⟩, _⟩ := hsettled
    rw [hnone] at hi
    cases hi
  | QUARANTINED => exact absurd hs hstatus

/-- A state that is not in quarantine has no reason for one. -/
theorem not_quarantined (h : s.Valid sha) (hstatus : s.status ≠ .QUARANTINED) :
    s.quarantine = none := by
  have hsettled := h.settled
  unfold State.settled at hsettled
  cases hs : s.status with
  | AWAITING_INCLUSION | INCLUDED_BELOW_THRESHOLD | THRESHOLD_OBSERVED =>
    rw [hs] at hsettled
    exact hsettled.2.2
  | QUARANTINED => exact absurd hs hstatus

/-- At a threshold there are enough confirmations. -/
theorem enough (h : s.Valid sha) {t : FirstThreshold} (ht : t ∈ s.firstThreshold) :
    ∃ i ∈ s.inclusion, s.confirmationPolicy.minimumConfirmations.1 ≤ i.currentConfirmations.1 := by
  obtain ⟨i, hi, hreaches⟩ := h.threshold t ht
  have hcount := (h.inclusion i hi).confirmations
  have hle := hreaches.upTo
  have hconfirmations := hreaches.confirmations
  have henough := hreaches.enough
  exact ⟨i, hi, by omega⟩

/-- What the state says of its pages and its inclusion does not depend on the other fields. -/
theorem relabelled (h : s.Valid sha) {maxV1Height minV2Height : Option PositiveInt}
    {status : Status} {quarantine : Option Reason}
    (hbounds : ∀ v1 ∈ maxV1Height, ∀ v2 ∈ minV2Height, v1.1 < v2.1) (hsettled : ({ s with
      revision := revision, maxV1Height := maxV1Height, minV2Height := minV2Height, status := status
      quarantine := quarantine } : State).settled) :
    ({ s with
      revision := revision, maxV1Height := maxV1Height, minV2Height := minV2Height, status := status
      quarantine := quarantine } : State).Valid sha where
  recordId := h.recordId
  binding := h.binding
  bounds := hbounds
  authorization := h.authorization
  page := by
    intro r hr
    have hfollows := h.page r hr
    exact ⟨hfollows.ends, hfollows.receipt, hfollows.expected, hfollows.agrees, hfollows.same⟩
  inclusion := by
    intro i hi
    have hincludes := h.inclusion i hi
    exact ⟨hincludes.transaction, hincludes.binding, hincludes.height, hincludes.confirmations⟩
  threshold := by
    intro t ht
    obtain ⟨i, hi, hreaches⟩ := h.threshold t ht
    exact ⟨i, hi, ⟨hreaches.confirmations, hreaches.enough, hreaches.upTo, hreaches.threshold,
      hreaches.ends, hreaches.receipt, hreaches.membership⟩⟩
  below := h.below
  settled := hsettled

theorem quarantinedFor (h : s.Valid sha) (reason : Reason) :
    (s.quarantinedFor reason revision).Valid sha := by
  refine h.relabelled h.bounds ⟨nofun, fun ⟨hnone, hsome⟩ => ?_, fun ⟨⟨i, hi, hlt⟩, hsome⟩ => ?_⟩
  · obtain ⟨t, ht⟩ := Option.ne_none_iff_exists'.mp hsome
    obtain ⟨i, hi, _⟩ := h.threshold t ht
    rw [show s.inclusion = none from hnone] at hi
    cases hi
  · obtain ⟨t, ht⟩ := Option.ne_none_iff_exists'.mp hsome
    obtain ⟨i', hi', hle⟩ := h.enough ht
    obtain rfl := Option.some.inj ((show s.inclusion = some i from hi).symm.trans hi')
    exact absurd hlt (not_lt.mpr hle)

theorem versioned (h : s.Valid sha) {maxV1Height minV2Height : Option PositiveInt}
    (hbounds : ¬ versionsConflict maxV1Height minV2Height) :
    (s.versioned maxV1Height minV2Height revision).Valid sha := by
  refine h.relabelled (fun v1 hv1 v2 hv2 => ?_) h.settled
  by_contra hle
  exact hbounds ⟨v1, hv1, v2, hv2, not_lt.mp hle⟩

/-! ### Pages before the target is included -/

theorem atPage (h : s.Valid sha) (hstatus : s.status ≠ .QUARANTINED)
    (hnone : s.inclusion = none) {r : Receipt} (hr : r.1.Valid sha s.receiptContext)
    (hexpected : r.1.thresholdCheckpoint.isSome = decide (∃ m ∈ r.1.targetMembership,
      s.confirmationPolicy.reached r.1.endCheckpoint.height.1 m)) :
    (s.atPage r revision).Valid sha := by
  obtain ⟨hawaiting, hthreshold, hquarantine⟩ := h.awaiting hstatus hnone
  have hinclusion : (s.atPage r revision).inclusion = none := hnone
  have hfirst : (s.atPage r revision).firstThreshold = none := hthreshold
  refine ⟨h.recordId, h.binding, h.bounds, ?_, ?_, ?_, ?_, ?_, ?_⟩
  · intro i hi
    rw [hinclusion] at hi
    cases hi
  · intro r' hr'
    obtain rfl : r = r' := Option.some.inj hr'
    refine ⟨rfl, hr, ?_, ?_, ?_⟩
    · have hown : r.1.membership (s.atPage r revision).receiptContext.inclusion
          = r.1.targetMembership := by
        rw [State.receiptContext, hinclusion]
        exact Option.or_none
      rw [hexpected, decide_eq_decide, State.thresholdReceiptExpected_of_none hfirst, hown]
      rfl
    · intro m _ i hi
      rw [hinclusion] at hi
      cases hi
    · intro t _ t' ht'
      rw [hfirst] at ht'
      cases ht'
  · intro i hi
    rw [hinclusion] at hi
    cases hi
  · intro t ht
    rw [hfirst] at ht
    cases ht
  · intro _ i hi
    rw [hinclusion] at hi
    cases hi
  · unfold State.settled
    rw [show (s.atPage r revision).status = .AWAITING_INCLUSION from hawaiting]
    exact ⟨hnone, hthreshold, hquarantine⟩

/-! ### Inclusions -/

/-- A state with the target included, on a state whose fields apart from the inclusion hold
together. -/
theorem including {b : State}
    (hb : b.observerRecordId = Observer.observerRecordId sha b.observerPolicy
      b.authorityGeneration b.chainProfile b.confirmationPolicy b.target.transactionId)
    (hbinding : b.targetBindingDigest
      = commitment sha TARGET_BINDING_DOMAIN (targetCodec.encode b.target))
    (hbounds : ∀ v1 ∈ b.maxV1Height, ∀ v2 ∈ b.minV2Height, v1.1 < v2.1)
      (hquarantine : b.quarantine = none) {i : Inclusion} {t : Option FirstThreshold}
    (hauthorization : i.inclusionAuthorizationId
      = Observer.inclusionAuthorizationId sha b.observerRecordId
      i.transactionId i.momentumHeight i.momentumHash b.confirmationPolicy.minimumConfirmations)
    (hincludes : b.Includes i)
      (hpage : ∀ r ∈ b.lastAppliedPage, (b.including i t revision).Follows sha r)
      (hreaches : ∀ t' ∈ t, (b.including i t revision).Reaches sha i t')
      (hbelow : t = none → i.currentConfirmations.1 < b.confirmationPolicy.minimumConfirmations.1) :
    (b.including i t revision).Valid sha := by
  have hi {i' : Inclusion} (hi' : i' ∈ (b.including i t revision).inclusion) : i = i' :=
    Option.some.inj hi'
  refine ⟨hb, hbinding, hbounds, ?_, hpage, ?_, ?_, ?_, ?_⟩
  · intro i' hi'
    rw [← hi hi']
    exact hauthorization
  · intro i' hi'
    rw [← hi hi']
    exact ⟨hincludes.transaction, hincludes.binding, hincludes.height, hincludes.confirmations⟩
  · exact fun t' ht' => ⟨i, rfl, hreaches t' ht'⟩
  · intro hnone i' hi'
    rw [← hi hi']
    exact hbelow hnone
  · unfold State.settled
    cases ht : t with
    | none => exact ⟨⟨i, rfl, hbelow ht⟩, rfl, hquarantine⟩
    | some t' =>
      have hreached := hreaches t' ht
      have hconfirmations := hreached.confirmations
      have henough : b.confirmationPolicy.minimumConfirmations.1 ≤ t'.confirmations.1 :=
        hreached.enough
      have hupTo : t'.checkpoint.height.1 ≤ b.checkpoint.height.1 := hreached.upTo
      have hcount := hincludes.confirmations
      exact ⟨⟨i, rfl, show b.confirmationPolicy.minimumConfirmations.1 ≤ _ by omega⟩,
        nofun, hquarantine⟩

end State.Valid

/-- The membership that a receipt counts from is the one of the inclusion. -/
theorem membership_eq {r : ReceiptFields} {i : Inclusion} (hr : r.Valid sha s.receiptContext)
    (hi : s.Includes i) (hagrees : ∀ m ∈ r.targetMembership, m.momentumHeight = i.momentumHeight
      ∧ m.momentumHash = i.momentumHash) :
    r.membership (some i.toMembership) = some i.toMembership := by
  unfold ReceiptBase.membership
  cases hm : r.targetMembership with
  | none => rfl
  | some m =>
    have hcontains := hr.membership m hm
    obtain ⟨hheight, hhash⟩ := hagrees m hm
    have htransaction : m.transactionId = i.transactionId :=
      hcontains.transaction.trans hi.transaction.symm
    have hbinding : m.targetBindingDigest = i.targetBindingDigest :=
      hcontains.binding.trans hi.binding.symm
    obtain ⟨m1, m2, m3, m4⟩ := m
    obtain ⟨⟨i1, i2, i3, i4⟩, _, _⟩ := i
    simp only at hheight hhash htransaction hbinding
    rw [Option.some_or, htransaction, hbinding, hheight, hhash]

theorem includedAtPage_context {i : Inclusion} (hi : s.inclusion = some i) {r : Receipt}
    {confirmations : PositiveInt} {revision : NonnegativeInt} :
    (s.includedAtPage r i confirmations revision).receiptContext = s.receiptContext := by
  unfold State.receiptContext
  rw [hi]
  rfl

/-- A receipt with a membership of its own is checked without the inclusion. -/
theorem ReceiptFields.Valid.own {r : ReceiptFields} {k : ReceiptContext} {m : Membership}
    (h : r.Valid sha k) (hm : r.targetMembership = some m) (inclusion : Option Membership) :
    r.Valid sha { k with inclusion := inclusion } where
  planId := h.planId
  pageDigest := h.pageDigest
  through := h.through
  size := h.size
  frontier := h.frontier
  linked := h.linked
  last := h.last
  membership := by
    intro m' hm'
    have hcontains := h.membership m' hm'
    exact ⟨hcontains.transaction, hcontains.binding, hcontains.after, hcontains.upTo,
      hcontains.entry⟩
  threshold := by
    intro t ht
    obtain ⟨⟨m', hm', hreached⟩, hlt, heq⟩ := h.threshold t ht
    refine ⟨⟨m', ?_, hreached⟩, hlt, heq⟩
    unfold ReceiptBase.membership at hm' ⊢
    rw [hm] at hm' ⊢
    exact hm'

namespace State.Valid

variable {revision : NonnegativeInt}

/-- The checkpoint of the threshold is in the receipt of the page that reaches it only. -/
theorem includedAtPage_expected (h : s.Valid sha) {i : Inclusion} (hi : s.inclusion = some i)
    {r : Receipt} (hmembership : r.1.membership (some i.toMembership) = some i.toMembership)
    {confirmations : PositiveInt}
    (hcount : confirmations.1 = r.1.endCheckpoint.height.1 - i.momentumHeight.1 + 1)
    (hexpected : r.1.thresholdCheckpoint
      = if s.firstThreshold = none ∧ s.confirmationPolicy.minimumConfirmations.1 ≤ confirmations.1
        then some r.1.endCheckpoint else none) :
    r.1.thresholdCheckpoint.isSome
      = decide ((s.includedAtPage r i confirmations revision).thresholdReceiptExpected r) := by
  rw [Bool.eq_iff_iff, decide_eq_true_iff, hexpected]
  cases ht : s.firstThreshold with
  | none =>
    by_cases henough : s.confirmationPolicy.minimumConfirmations.1 ≤ confirmations.1
    · have hafter : (s.includedAtPage r i confirmations revision).firstThreshold
          = some ⟨r.1.endCheckpoint, confirmations, r⟩ := by
        show s.thresholdAt r confirmations = _
        rw [State.thresholdAt, ht, Option.none_or, if_pos henough]
      rw [if_pos ⟨rfl, henough⟩, State.thresholdReceiptExpected_of_some hafter]
      exact iff_of_true rfl rfl
    · have hafter : (s.includedAtPage r i confirmations revision).firstThreshold = none := by
        show s.thresholdAt r confirmations = _
        rw [State.thresholdAt, ht, Option.none_or, if_neg henough]
      rw [if_neg fun hboth => henough hboth.2, State.thresholdReceiptExpected_of_none hafter,
        includedAtPage_context hi]
      refine iff_of_false nofun ?_
      intro ⟨m, hm, hreached⟩
      rw [State.receiptContext, hi, Option.map_some, hmembership] at hm
      obtain rfl := Option.some.inj hm
      exact henough (hcount ▸ hreached)
  | some t =>
    have hafter : (s.includedAtPage r i confirmations revision).firstThreshold = some t := by
      show s.thresholdAt r confirmations = _
      rw [State.thresholdAt, ht, Option.some_or]
    rw [if_neg (by simp), State.thresholdReceiptExpected_of_some hafter]
    refine iff_of_false nofun fun heq => ?_
    -- the receipt of the first threshold has one, and this receipt has none
    obtain ⟨i', _, hreaches⟩ := h.threshold t ht
    have hthreshold := hreaches.threshold
    rw [← heq, hexpected, if_neg (by simp [ht])] at hthreshold
    cases hthreshold

theorem includedAtPage (h : s.Valid sha) (hstatus : s.status ≠ .QUARANTINED) {i : Inclusion}
    (hi : s.inclusion = some i) {r : Receipt} (hr : r.1.Valid sha s.receiptContext)
    (hgrows : s.checkpoint.height.1 ≤ r.1.endCheckpoint.height.1)
    (hagrees : ∀ m ∈ r.1.targetMembership, m.momentumHeight = i.momentumHeight ∧ m.momentumHash
      = i.momentumHash)
    {confirmations : PositiveInt}
    (hcount : confirmations.1 = r.1.endCheckpoint.height.1 - i.momentumHeight.1 + 1)
    (hexpected : r.1.thresholdCheckpoint
      = if s.firstThreshold = none ∧ s.confirmationPolicy.minimumConfirmations.1 ≤ confirmations.1
        then some r.1.endCheckpoint else none) :
    (s.includedAtPage r i confirmations revision).Valid sha := by
  have hincludes := h.inclusion i hi
  have hmembership := membership_eq hr hincludes hagrees
  have hcontext := @includedAtPage_context s i hi r confirmations revision
  have hheight := hincludes.height
  have hincluded : (s.atPage r revision).Includes
      { i with currentConfirmations := confirmations } :=
    ⟨hincludes.transaction, hincludes.binding, hheight.trans hgrows, hcount⟩
  refine including (b := s.atPage r revision) h.recordId h.binding h.bounds
    (h.not_quarantined hstatus)
    (h.authorization i hi) hincluded ?_ ?_ ?_
  · intro r' hr'
    obtain rfl : r = r' := Option.some.inj hr'
    refine ⟨rfl, hcontext ▸ hr, ?_, ?_, ?_⟩
    · exact h.includedAtPage_expected hi hmembership hcount hexpected
    · intro m hm i' hi'
      obtain rfl := Option.some.inj hi'
      exact hagrees m hm
    · intro c hc t ht
      rw [hexpected] at hc
      by_cases hnew : s.firstThreshold = none ∧ s.confirmationPolicy.minimumConfirmations.1
        ≤ confirmations.1
      · rw [if_pos hnew] at hc
        have ht' : t ∈ s.thresholdAt r confirmations := ht
        rw [State.thresholdAt, hnew.1, Option.none_or, if_pos hnew.2] at ht'
        obtain rfl := Option.some.inj ht'
        exact (Option.some.inj hc).symm
      · rw [if_neg hnew] at hc
        cases hc
  · intro t ht
    show (s.includedAtPage r i confirmations revision).Reaches sha _ t
    unfold State.thresholdAt at ht
    cases hfirst : s.firstThreshold with
    | some t' =>
      rw [hfirst, Option.some_or] at ht
      obtain rfl := Option.some.inj ht
      obtain ⟨i', hi', hreaches⟩ := h.threshold t' hfirst
      obtain rfl := Option.some.inj (hi.symm.trans hi')
      exact ⟨hreaches.confirmations, hreaches.enough, hreaches.upTo.trans hgrows,
        hreaches.threshold, hreaches.ends, hcontext ▸ hreaches.receipt, hreaches.membership⟩
    | none =>
      rw [hfirst, Option.none_or] at ht
      by_cases henough : s.confirmationPolicy.minimumConfirmations.1 ≤ confirmations.1
      · rw [if_pos henough] at ht
        obtain rfl := Option.some.inj ht
        rw [if_pos ⟨hfirst, henough⟩] at hexpected
        exact ⟨hcount, henough, le_rfl, hexpected, rfl, hcontext ▸ hr, hmembership⟩
      · rw [if_neg henough] at ht
        cases ht
  · intro hnone
    show confirmations.1 < s.confirmationPolicy.minimumConfirmations.1
    unfold State.thresholdAt at hnone
    rw [Option.or_eq_none_iff] at hnone
    by_contra hle
    rw [if_pos (not_lt.mp hle)] at hnone
    exact absurd hnone.2 nofun

/-- The target is included where the last page has it. -/
theorem observed (h : s.Valid sha) (hstatus : s.status ≠ .QUARANTINED)
    (hnone : s.inclusion = none) {r : Receipt} (hr : s.lastAppliedPage = some r) {i : Inclusion}
    (hmember : r.1.targetMembership = some i.toMembership)
    (hauthorization : i.inclusionAuthorizationId
      = Observer.inclusionAuthorizationId sha s.observerRecordId
      i.transactionId i.momentumHeight i.momentumHash s.confirmationPolicy.minimumConfirmations)
    (hcount : i.currentConfirmations.1 = s.checkpoint.height.1 - i.momentumHeight.1 + 1)
      {t : Option FirstThreshold}
      (ht : t = if s.confirmationPolicy.minimumConfirmations.1 ≤ i.currentConfirmations.1
      then some ⟨s.checkpoint, i.currentConfirmations, r⟩ else none) :
    (s.including i t revision).Valid sha := by
  obtain ⟨_, hfirst, hquarantine⟩ := h.awaiting hstatus hnone
  have hfollows := h.page r hr
  have hcontains := hfollows.receipt.membership _ hmember
  have hends := hfollows.ends
  have hupTo : i.momentumHeight.1 ≤ s.checkpoint.height.1 := hends ▸ hcontains.upTo
  have hvalid : r.1.Valid sha (s.including i t revision).receiptContext :=
    hfollows.receipt.own hmember _
  have hown (o : Option Membership) : r.1.membership o = some i.toMembership := by
    rw [ReceiptBase.membership, hmember]
    rfl
  -- the receipt has a threshold exactly when the target has enough confirmations at its end
  have hreached : r.1.thresholdCheckpoint.isSome
      = decide (s.confirmationPolicy.minimumConfirmations.1 ≤ i.currentConfirmations.1) := by
    rw [hfollows.expected, decide_eq_decide, State.thresholdReceiptExpected_of_none hfirst, hown,
      hends, hcount]
    simp [ConfirmationPolicy.reached]
  refine including h.recordId h.binding h.bounds hquarantine hauthorization
    ⟨hcontains.transaction, hcontains.binding, hupTo, hcount⟩ ?_ ?_ ?_
  · intro r' hr'
    obtain rfl : r = r' := Option.some.inj (hr.symm.trans hr')
    refine ⟨hends, hvalid, ?_, ?_, ?_⟩
    · rw [hreached, decide_eq_decide]
      by_cases henough : s.confirmationPolicy.minimumConfirmations.1 ≤ i.currentConfirmations.1
      · rw [if_pos henough] at ht
        have hafter : (s.including i t revision).firstThreshold
            = some ⟨s.checkpoint, i.currentConfirmations, r⟩ := ht
        rw [State.thresholdReceiptExpected_of_some hafter]
        exact iff_of_true henough rfl
      · rw [if_neg henough] at ht
        have hafter : (s.including i t revision).firstThreshold = none := ht
        rw [State.thresholdReceiptExpected_of_none hafter, hown, hends]
        refine iff_of_false henough ?_
        intro ⟨m, hm, hle⟩
        obtain rfl := Option.some.inj hm
        exact henough (hcount ▸ hle)
    · intro m hm i' hi'
      obtain rfl := Option.some.inj (hmember.symm.trans hm)
      obtain rfl : i = i' := Option.some.inj hi'
      exact ⟨rfl, rfl⟩
    · intro c hc t' ht'
      obtain ⟨_, _, heq⟩ := hfollows.receipt.threshold c hc
      have ht'' : t = some t' := ht'
      by_cases henough : s.confirmationPolicy.minimumConfirmations.1 ≤ i.currentConfirmations.1
      · rw [if_pos henough, ht''] at ht
        obtain rfl := Option.some.inj ht
        exact heq.trans hends
      · rw [if_neg henough, ht''] at ht
        cases ht
  · intro t' ht'
    by_cases henough : s.confirmationPolicy.minimumConfirmations.1 ≤ i.currentConfirmations.1
    · rw [if_pos henough, show t = some t' from ht'] at ht
      obtain rfl := Option.some.inj ht
      rw [decide_eq_true henough] at hreached
      obtain ⟨c, hc⟩ := Option.isSome_iff_exists.mp hreached
      obtain ⟨_, _, heq⟩ := hfollows.receipt.threshold c hc
      rw [heq.trans hends] at hc
      exact ⟨hcount, henough, le_rfl, hc, hends, hvalid, hown _⟩
    · rw [if_neg henough, show t = some t' from ht'] at ht
      cases ht
  · intro htnone
    show i.currentConfirmations.1 < s.confirmationPolicy.minimumConfirmations.1
    by_contra hle
    rw [if_pos (not_lt.mp hle), htnone] at ht
    cases ht

end State.Valid

end Observer
end ZenonX402
