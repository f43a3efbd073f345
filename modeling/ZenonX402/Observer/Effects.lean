/-
# What the transitions do

A transition that gives back a state either leaves it alone, puts it in
quarantine, records version heights, goes on by one page, or includes the target
where the last page has it (`Effect`). No transition finds its own result invalid
as long as the state has a next revision. Pages are in `Observer.Pages`.

Key definitions: `Operation.apply`, `Applied`, `Applied.Of`, `Effect`.
Key theorems: `quarantined_gives`, `versions_gives`, `plan_gives`, `observation_gives`.
-/
import ZenonX402.Observer.Moves

namespace ZenonX402
namespace Observer

open Js
open Credit (Commitment PositiveInt Rejection)

variable {sha : Sha256} {c : Accepted sha}

/-! ### Operations -/

inductive Operation
  | plan
  | page
  | observation
  | versions
  deriving DecidableEq, Repr

namespace Operation

def keys : Operation → List String
  | plan => PLAN_KEYS
  | page => PAGE_KEYS
  | observation => OBSERVATION_KEYS
  | versions => LINEAGE_KEYS

/-- The state that an operation gives back, and its disposition. -/
def apply (sha : Sha256) (operation : Operation) (options : Value) : Except Code (Outcome sha) :=
  match operation with
  | plan => (planZenonFundingObserverBackfill sha options).map (·.toOutcome)
  | page => applyZenonFundingObserverPage sha options
  | observation => applyZenonFundingInclusionObservation sha options
  | versions => applyZenonFundingMomentumVersionLineage sha options

end Operation

/-- A page that was applied: its entries, and the receipt that the state keeps of it. -/
structure Applied where
  entries : List Entry
  receipt : Receipt

/-- The page behind an outcome, if it was applied. -/
def Outcome.applied (outcome : Outcome sha) (entries : List Entry) : Option Applied :=
  if outcome.disposition = .APPLIED then outcome.state.1.lastAppliedPage.map fun receipt =>
  ⟨entries, receipt⟩
  else none

/-- The page that an operation has applied, if it is one for pages. -/
def Operation.applied (sha : Sha256) (operation : Operation) (options : Value) : Option Applied :=
  match operation with
  | page => do
    let outcome ← (applyZenonFundingObserverPage sha options).toOption
    let value ← (captured PAGE_KEYS options).toOption
    let page ← (pageFieldsCodec.decode (value "page")).toOption
    outcome.applied page.entries
  | plan | observation | versions => none

/-- The page goes on from a checkpoint, and its receipt says what it has. -/
structure Applied.Of (target : Member) (start : Checkpoint) (a : Applied) : Prop where
  leads : Leads start a.entries a.receipt.1.endCheckpoint
  start : a.receipt.1.startCheckpoint = start
  lineage : a.receipt.1.lineage = a.entries.map (·.toLineageEntry)
  membership : ∀ m ∈ a.receipt.1.targetMembership, ∃ e ∈ a.entries, e.Holds target
    ∧ m = e.membership target

/-- The dispositions of a state that is given back as it was. -/
def Disposition.Idle : Disposition → Prop
  | UNCHANGED | REPLAY | SOURCE_UNAVAILABLE | SOURCE_BEHIND | AT_FRONTIER | BACKFILL_REQUIRED
  | INCLUSION_OBSERVATION_REQUIRED => True
  | APPLIED | QUARANTINED => False

/-- What becomes of a state, with the disposition and the page that was applied. -/
inductive Effect (sha : Sha256) (s : State) : Disposition → Option Applied → State → Prop
  | kept (d : Disposition) (hidle : d.Idle) : Effect sha s d none s
  | stays (hstatus : s.status = .QUARANTINED) : Effect sha s .QUARANTINED none s
  | quarantined (reason : Reason) (r : NonnegativeInt) (hr : r.1 = s.revision.1 + 1)
      (hstatus : s.status ≠ .QUARANTINED) :
      Effect sha s .QUARANTINED none (s.quarantinedFor reason r)
  | versioned (maxV1Height minV2Height : Option PositiveInt) (r : NonnegativeInt)
      (hr : r.1 = s.revision.1 + 1) (hstatus : s.status ≠ .QUARANTINED) :
      Effect sha s .APPLIED none (s.versioned maxV1Height minV2Height r)
  | paged (a : Applied) (r : NonnegativeInt) (hr : r.1 = s.revision.1 + 1)
      (hstatus : s.status ≠ .QUARANTINED) (hpage : a.Of s.targetMember s.checkpoint)
      (hnone : s.inclusion = none) : Effect sha s .APPLIED (some a) (s.atPage a.receipt r)
  | included (a : Applied) (i : Inclusion) (confirmations : PositiveInt) (r : NonnegativeInt)
      (hr : r.1 = s.revision.1 + 1) (hstatus : s.status ≠ .QUARANTINED)
      (hpage : a.Of s.targetMember s.checkpoint) (hi : s.inclusion = some i)
      (hcount : confirmations.1 = a.receipt.1.endCheckpoint.height.1 - i.momentumHeight.1 + 1) :
      Effect sha s .APPLIED (some a) (s.includedAtPage a.receipt i confirmations r)
  | observed (receipt : Receipt) (i : Inclusion) (r : NonnegativeInt) (hr : r.1 = s.revision.1 + 1)
      (hstatus : s.status ≠ .QUARANTINED) (hnone : s.inclusion = none)
      (hreceipt : s.lastAppliedPage = some receipt)
      (hmember : receipt.1.targetMembership = some i.toMembership)
      (hcount : i.currentConfirmations.1 = s.checkpoint.height.1 - i.momentumHeight.1 + 1) :
      Effect sha s .APPLIED none
      (s.including i (if s.confirmationPolicy.minimumConfirmations.1 ≤ i.currentConfirmations.1
        then some ⟨s.checkpoint, i.currentConfirmations, receipt⟩ else none) r)

/-- What a transition on this state may throw: its own result is invalid only when there is no next
revision. -/
def Closed (s : State) (e : Code) : Prop := e = .INVALID_STATE → s.revision.1 = 9007199254740991

theorem closed_of_ne {s : State} {e : Code} (h : e ≠ .INVALID_STATE) : Closed s e :=
  fun heq => absurd heq h

theorem failWith_error {α β : Type} {x : Except β α} {code e : Code}
    (h : failWith x code = .error e) : e = code := by
  cases x with
  | error e' => exact (Except.error.inj h).symm
  | ok a => cases h

theorem orReject_error {α : Type} {o : Option α} {code e : Code} (h : orReject o code = .error e) :
    e = code := by
  cases o with
  | none => exact (Except.error.inj h).symm
  | some a => cases h

theorem rejectIf_error {p : Prop} [Decidable p] {code e : Code} (h : rejectIf p code = .error e) :
    e = code := by
  unfold rejectIf at h
  by_cases hp : p
  · rw [if_pos hp] at h
    exact (Except.error.inj h).symm
  · rw [if_neg hp] at h
    cases h

/-- What only refuses its input throws nothing else. -/
def Refuses {α : Type} (x : Except Code α) : Prop := ∀ e, x = .error e → e ≠ .INVALID_STATE

namespace Refuses

variable {α β : Type}

theorem ok (a : α) : Refuses (.ok a : Except Code α) := nofun

theorem bind {x : Except Code β} {f : β → Except Code α} (hx : Refuses x)
    (hf : ∀ b, Refuses (f b)) :
    Refuses (x >>= f) := by
  intro e he
  cases h : x with
  | error e' =>
    rw [h] at he
    obtain rfl : e' = e := Except.error.inj he
    exact hx e' h
  | ok b =>
    rw [h] at he
    exact hf b e he

theorem failWith {x : Except Rejection α} {code : Code} (h : code ≠ .INVALID_STATE) :
    Refuses (failWith x code) :=
  fun _ he => failWith_error he ▸ h

theorem orReject {o : Option α} {code : Code} (h : code ≠ .INVALID_STATE) :
    Refuses (orReject o code) :=
  fun _ he => orReject_error he ▸ h

theorem rejectIf {p : Prop} [Decidable p] {code : Code} (h : code ≠ .INVALID_STATE) :
    Refuses (rejectIf p code) :=
  fun _ he => rejectIf_error he ▸ h

theorem ite {p : Prop} [Decidable p] {x y : Except Code α} (hx : Refuses x) (hy : Refuses y) :
    Refuses (if p then x else y) := by
  by_cases h : p
  · rwa [if_pos h]
  · rwa [if_neg h]

end Refuses

/-- A step that refuses its input throws nothing that a valid state does not. -/
theorem gives_input {α β : Type} {s : State} {x : Except Code β} {f : β → Except Code α}
    {P : α → Prop} (hx : Refuses x) (hf : ∀ b, x = .ok b → Gives (f b) (Closed s) P) :
    Gives (x >>= f) (Closed s) P := by
  rw [gives_bind]
  exact ⟨fun e he => closed_of_ne (hx e he), hf⟩

/-! ### What is read of the arguments -/

/-- Arguments that are written under the expected keys are read as they were. -/
theorem captured_written {keys : List String} {field : String → Value}
    (h : snapshotJson (written (Order.given keys) field)
      = some (written (Order.given keys) field)) :
    ∃ get, captured keys (written (Order.given keys) field) = .ok get ∧ ∀ k ∈ keys,
    get k = field k := by
  obtain ⟨get, hget, hfield⟩ := fields_written (Order.given keys) field
  refine ⟨get, ?_, hfield⟩
  simp only [captured, bind_ok, orReject_ok]
  refine ⟨_, h, ?_⟩
  rw [exactObject, hget]
  rfl

theorem refuses_assertExpectedRevision (c : Accepted sha) (v : Value) :
    Refuses (assertExpectedRevision c v) :=
  .bind (.failWith nofun) fun _ => .rejectIf nofun

theorem refuses_normalizeContext (value : String → Value) : Refuses (normalizeContext value) :=
  .bind (.failWith nofun) fun _ => .bind (.failWith nofun) fun _ => .bind (.failWith nofun) fun _ =>
    .bind (.failWith nofun) fun _ => .ok _

theorem refuses_unavailable (input : Value) : Refuses (unavailable input) :=
  .bind (.orReject nofun) fun _ => .rejectIf nofun

theorem refuses_normalizeSource (input : Value) : Refuses (normalizeSource input) :=
  .ite (.bind (refuses_unavailable input) fun _ => .ok _)
    (.bind (.orReject nofun) fun _ => .bind (.rejectIf nofun)
      fun _ => .bind (.failWith nofun) fun _ =>
      .bind (.failWith nofun) fun _ => .ok _)

theorem refuses_normalizePlan (input : Value) : Refuses (normalizePlan sha input) :=
  .bind (.failWith nofun) fun _ => .bind (.rejectIf nofun) fun _ => .ok _

theorem refuses_makeDetachedPlan (s : State) (frontier : Checkpoint) :
    Refuses (makeDetachedPlan sha s frontier) :=
  .bind (.orReject nofun) fun _ => refuses_normalizePlan _

theorem refuses_normalizeObservation (input : Value) : Refuses (normalizeObservation input) :=
  .ite (.bind (refuses_unavailable input) fun _ => .ok _)
    (.ite (.bind (.orReject nofun) fun _ => .bind (.failWith nofun) fun _ => .ok _)
      (.bind (.orReject nofun) fun _ => .bind (.rejectIf nofun)
        fun _ => .bind (.failWith nofun) fun _ =>
        .bind (.failWith nofun) fun _ => .bind (.failWith nofun) fun _ =>
          .bind (.failWith nofun) fun _ =>
          .bind (.failWith nofun) fun _ => .ok _))

/-! ### States that are kept or quarantined -/

/-- No page is applied, and the state is as it was or in quarantine. -/
def Outcome.Unapplied (s : State) (o : Outcome sha) : Prop :=
  o.disposition ≠ .APPLIED ∧ Effect sha s o.disposition none o.state.1

theorem quarantined_gives (hstatus : c.1.status ≠ .QUARANTINED) (reason : Reason) :
    Gives (quarantined c reason) (Closed c.1) (·.Unapplied c.1) := by
  have hclone : Gives (quarantineState c reason) (Closed c.1) fun c' =>
      ∃ r : NonnegativeInt, r.1 = c.1.revision.1 + 1 ∧ c'.1 = c.1.quarantinedFor reason r := by
    unfold quarantineState
    rw [if_neg hstatus]
    refine cloneState_gives _ (c.1.quarantinedFor reason) rfl fun r hr =>
      ⟨?_, c.valid.quarantinedFor reason⟩
    rw [← hr, Accepted.encode_members, encode_members, encode_members]
    rfl
  unfold quarantined
  rw [gives_bind]
  refine ⟨fun e he => ?_, fun c' hc' => ?_⟩
  · rw [he] at hclone
    exact hclone
  · rw [hc'] at hclone
    obtain ⟨r, hr, heq⟩ := hclone
    refine ⟨nofun, ?_⟩
    show Effect sha c.1 .QUARANTINED none c'.1
    rw [heq]
    exact .quarantined reason r hr hstatus

theorem kept_unapplied {d : Disposition} (hd : d.Idle) : Outcome.Unapplied c.1 ⟨c, d⟩ := by
  refine ⟨?_, .kept d hd⟩
  intro heq
  rw [show d = .APPLIED from heq] at hd
  exact hd

theorem stays_unapplied (hstatus : c.1.status = .QUARANTINED) :
    Outcome.Unapplied c.1 ⟨c, .QUARANTINED⟩ :=
  ⟨nofun, .stays hstatus⟩

/-! ### Momentum versions -/

variable {options : Value} {value : String → Value}

/-- The arguments of a call, and the state among them. -/
structure Reads (keys : List String) (options : Value) (value : String → Value) (c : Accepted sha) :
    Prop where
  arguments : captured keys options = .ok value
  state : normalizeStateSnapshot sha (value "state") = .ok c

theorem versions_gives (h : Reads LINEAGE_KEYS options value c) :
    Gives (applyZenonFundingMomentumVersionLineage sha options) (Closed c.1)
      fun o => Effect sha c.1 o.disposition none o.state.1 := by
  unfold applyZenonFundingMomentumVersionLineage
  rw [gives_of_ok h.arguments, gives_of_ok h.state]
  refine gives_input (refuses_assertExpectedRevision c _) fun _ _ => ?_
  rw [gives_ite]
  refine ⟨fun hstatus => (stays_unapplied hstatus).2, fun hstatus => ?_⟩
  refine gives_input (.failWith nofun) fun observedMaxV1Height _ => ?_
  refine gives_input (.failWith nofun) fun observedMinV2Height _ => ?_
  refine gives_input (.rejectIf nofun) fun _ _ => gives_input (.rejectIf nofun) fun _ _ => ?_
  rw [gives_ite]
  refine ⟨fun _ => ?_, fun hbounds => ?_⟩
  · exact (quarantined_gives hstatus _).mono (fun _ => id) fun _ => And.right
  · rw [gives_ite]
    refine ⟨fun _ => (kept_unapplied (d := .UNCHANGED) trivial).2, fun _ => ?_⟩
    rw [gives_bind]
    have hclone := cloneState_gives [
        ("revision", .num (c.1.revision.1 + 1)),
        ("maxV1Height", normalizeMomentumVersionHeight.encode
          (laterOf c.1.maxV1Height observedMaxV1Height)),
        ("minV2Height", normalizeMomentumVersionHeight.encode
          (earlierOf c.1.minV2Height observedMinV2Height))]
      (c.1.versioned (laterOf c.1.maxV1Height observedMaxV1Height)
        (earlierOf c.1.minV2Height observedMinV2Height))
      rfl fun r hr => ⟨by rw [← hr, Accepted.encode_members, encode_members, encode_members]; rfl,
        c.valid.versioned hbounds⟩
    refine ⟨fun e he => ?_, fun c' hc' => ?_⟩
    · rw [he] at hclone
      exact hclone
    · rw [hc'] at hclone
      obtain ⟨r, hr, heq⟩ := hclone
      show Effect sha c.1 .APPLIED none c'.1
      rw [heq]
      exact .versioned _ _ r hr hstatus

/-! ### Plans -/

theorem plan_gives (h : Reads PLAN_KEYS options value c) :
    Gives (planZenonFundingObserverBackfill sha options)
    (Closed c.1) fun o => o.toOutcome.Unapplied c.1 := by
  have hquarantined (hstatus : c.1.status ≠ .QUARANTINED) (reason : Reason) :
      Gives (do let outcome ← quarantined c reason; .ok ⟨outcome, none⟩ : Except Code (Planned sha))
      (Closed c.1)
        fun o => o.toOutcome.Unapplied c.1 := by
    have hgives := quarantined_gives hstatus reason
    rw [gives_bind]
    refine ⟨fun e he => ?_, fun o ho => ?_⟩
    · rw [he] at hgives
      exact hgives
    · rw [ho] at hgives
      exact hgives
  unfold planZenonFundingObserverBackfill
  rw [gives_of_ok h.arguments, gives_of_ok h.state]
  refine gives_input (refuses_assertExpectedRevision c _) fun _ _ => ?_
  refine gives_input (refuses_normalizeContext value) fun _ _ => ?_
  rw [gives_ite]
  refine ⟨fun hstatus => stays_unapplied hstatus, fun hstatus => ?_⟩
  rw [gives_ite]
  refine ⟨fun _ => hquarantined hstatus _, fun _ => ?_⟩
  refine gives_input (refuses_normalizeSource _) fun source _ => ?_
  cases source with
  | unavailable => exact kept_unapplied (d := .SOURCE_UNAVAILABLE) trivial
  | available frontier checkpointHash =>
    unfold planAgainst
    simp only [gives_ite]
    refine ⟨fun _ => ?_, fun _ => ⟨fun _ => hquarantined hstatus _,
      fun _ => ⟨fun _ => ⟨fun _ => hquarantined hstatus _, fun _ => ⟨fun _ => ?_, fun _ => ?_⟩⟩,
        fun _ => ⟨fun _ => ?_, fun _ => ?_⟩⟩⟩⟩
    · exact gives_input (.rejectIf nofun) fun _ _ => kept_unapplied (d := .SOURCE_BEHIND) trivial
    · exact kept_unapplied (d := .INCLUSION_OBSERVATION_REQUIRED) trivial
    · exact kept_unapplied (d := .AT_FRONTIER) trivial
    · exact kept_unapplied (d := .INCLUSION_OBSERVATION_REQUIRED) trivial
    · exact gives_input (refuses_makeDetachedPlan _ _) fun _ _ =>
        kept_unapplied (d := .BACKFILL_REQUIRED) trivial

/-! ### Observations -/

theorem includeTarget_gives (hstatus : c.1.status ≠ .QUARANTINED) (hnone : c.1.inclusion = none)
    {receipt : Receipt} (hreceipt : c.1.lastAppliedPage = some receipt) {observed : Membership}
    (hmember : receipt.1.targetMembership = some observed) (confirmations : PositiveInt)
    (hcount : confirmations.1 = c.1.checkpoint.height.1 - observed.momentumHeight.1 + 1) :
    Gives (includeTarget c observed (if c.1.confirmationPolicy.minimumConfirmations.1
      ≤ confirmations.1
        then some (firstThresholdValue c.1.checkpoint confirmations.1 receipt.1) else none))
        (Closed c.1)
      fun o => Effect sha c.1 o.disposition none o.state.1 := by
  let i : Inclusion := ⟨observed,
    inclusionAuthorizationId sha c.1.observerRecordId observed.transactionId
    observed.momentumHeight observed.momentumHash c.1.confirmationPolicy.minimumConfirmations,
    confirmations⟩
  let t : Option FirstThreshold :=
    if c.1.confirmationPolicy.minimumConfirmations.1 ≤ confirmations.1
    then some ⟨c.1.checkpoint, confirmations, receipt⟩ else none
  have hvalid (r : NonnegativeInt) : (c.1.including i t r).Valid sha :=
    c.valid.observed hstatus hnone hreceipt (i := i) hmember rfl hcount rfl
  have hclone := cloneState_gives [
      ("revision", .num (c.1.revision.1 + 1)),
      ("status", .str (includedStatus t.isSome).name),
      ("inclusion", inclusionValue observed i.inclusionAuthorizationId
        (c.1.checkpoint.height.1 - observed.momentumHeight.1 + 1)),
      ("firstThreshold", Codec.encodeNullable firstThresholdCodec t)]
    (c.1.including i t) rfl fun r hr =>
      ⟨by rw [← hr, ← hcount, Accepted.encode_members, encode_members,
        encode_members]; rfl, hvalid r⟩
  have hvalue : (if c.1.confirmationPolicy.minimumConfirmations.1 ≤ confirmations.1
      then some (firstThresholdValue c.1.checkpoint confirmations.1 receipt.1) else none)
      = t.map firstThresholdCodec.encode := by
    simp only [t]
    split <;> rfl
  have hencode : (t.map firstThresholdCodec.encode).getD .null
      = Codec.encodeNullable firstThresholdCodec t := by
    cases t <;> rfl
  rw [hvalue]
  unfold includeTarget
  simp only [Option.isSome_map, hencode]
  rw [gives_bind]
  refine ⟨fun e he => ?_, fun c' hc' => ?_⟩
  · rw [he] at hclone
    exact hclone
  · rw [hc'] at hclone
    obtain ⟨r, hr, heq⟩ := hclone
    show Effect sha c.1 .APPLIED none c'.1
    rw [heq]
    exact .observed receipt i r hr hstatus hnone hreceipt hmember hcount

theorem applyFound_gives (hstatus : c.1.status ≠ .QUARANTINED) (observed : Membership)
    (pageDigest : Commitment) :
    Gives (applyFound c observed pageDigest)
    (Closed c.1) fun o => Effect sha c.1 o.disposition none o.state.1 := by
  have hquarantined (reason : Reason) : Gives (quarantined c reason) (Closed c.1)
      fun o => Effect sha c.1 o.disposition none o.state.1 :=
    (quarantined_gives hstatus reason).mono (fun _ => id) fun _ => And.right
  unfold applyFound
  simp only [gives_ite]
  refine ⟨fun _ => hquarantined _,
    fun htransaction => ⟨fun _ => hquarantined _, fun hbinding => ?_⟩⟩
  cases hi : c.1.inclusion with
  | some i =>
    simp only [gives_ite]
    exact ⟨fun _ => hquarantined _, fun _ => (kept_unapplied (d := .UNCHANGED) trivial).2⟩
  | none =>
    cases hreceipt : c.1.lastAppliedPage with
    | none => exact hquarantined _
    | some receipt =>
      simp only [gives_ite]
      refine ⟨fun _ => hquarantined _,
        fun hlinked => ⟨fun _ => hquarantined _, fun hpositive => ?_⟩⟩
      rw [not_or, not_not, not_not] at hlinked
      have hheight := c.1.checkpoint.height.le
      have hpos := observed.momentumHeight.pos
      let confirmations : PositiveInt :=
        ⟨c.1.checkpoint.height.1 - observed.momentumHeight.1 + 1, by omega, by
        simpa using not_le.mp hpositive⟩
      have hgives := includeTarget_gives hstatus hi hreceipt hlinked.1 confirmations rfl
      have hfollows := c.valid.page receipt hreceipt
      refine ⟨fun hreached => ?_, fun hbelow => ?_⟩
      · cases hthreshold : receipt.1.thresholdCheckpoint with
        | none => exact hquarantined _
        | some t =>
          obtain ⟨_, _, heq⟩ := hfollows.receipt.threshold t hthreshold
          rw [if_pos (show c.1.confirmationPolicy.minimumConfirmations.1
            ≤ confirmations.1 from hreached)] at hgives
          rw [show t = c.1.checkpoint from heq.trans hfollows.ends]
          exact hgives
      · rw [if_neg (show ¬ c.1.confirmationPolicy.minimumConfirmations.1
          ≤ confirmations.1 from hbelow)] at hgives
        exact hgives

theorem observation_gives (h : Reads OBSERVATION_KEYS options value c) :
    Gives (applyZenonFundingInclusionObservation sha options) (Closed c.1)
      fun o => Effect sha c.1 o.disposition none o.state.1 := by
  unfold applyZenonFundingInclusionObservation
  rw [gives_of_ok h.arguments, gives_of_ok h.state]
  refine gives_input (refuses_assertExpectedRevision c _) fun _ _ => ?_
  refine gives_input (refuses_normalizeContext value) fun _ _ => ?_
  rw [gives_ite]
  refine ⟨fun hstatus => (stays_unapplied hstatus).2, fun hstatus => ?_⟩
  have hquarantined (reason : Reason) : Gives (quarantined c reason) (Closed c.1)
      fun o => Effect sha c.1 o.disposition none o.state.1 :=
    (quarantined_gives hstatus reason).mono (fun _ => id) fun _ => And.right
  rw [gives_ite]
  refine ⟨fun _ => hquarantined _, fun _ => ?_⟩
  refine gives_input (refuses_normalizeObservation _) fun observation _ => ?_
  cases observation with
  | unavailable => exact (kept_unapplied (d := .SOURCE_UNAVAILABLE) trivial).2
  | notFound transactionId =>
    simp only [gives_ite]
    exact ⟨fun _ => hquarantined _, fun _ => ⟨fun _ => (kept_unapplied (d := .UNCHANGED) trivial).2,
      fun _ => hquarantined _⟩⟩
  | found observed pageDigest => exact applyFound_gives hstatus observed pageDigest

end Observer
end ZenonX402
