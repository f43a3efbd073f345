/-
# What a page does

A page that goes through fits the plan that the state has now, and what the loop
over its entries has checked is what its receipt is checked for (`Fits`). So the
state after it is accepted, and the two quarantines that `updateIncludedState`
keeps for a page that contradicts its own receipt are never reached. With this
every operation is closed (`Reads.apply_gives`).

Key definitions: `pageReceipt`, `Fits`.
Key theorems: `Fits.receipt_valid`, `updateIncludedState_gives`, `page_gives`, `Reads.apply_gives`.
-/
import ZenonX402.Observer.Effects

namespace ZenonX402
namespace Observer

open Js
open Credit (Commitment PositiveInt Rejection)

variable {sha : Sha256} {c : Accepted sha}

/-! ### A page that fits -/

/-- The receipt of a page, before its digest and its threshold. -/
def pageReceipt {catchUp : CatchUpFields} (plan : Plan) (page : Page catchUp) (walk : Walk) :
    ReceiptBase where
  planId := plan.planId
  startCheckpoint := page.1.startCheckpoint
  endCheckpoint := page.endEntry.checkpoint
  frontier := page.1.frontier
  entryCount := page.entryCount
  lineage := walk.lineage
  targetMembership := walk.targetMembership

/-- A page that goes through, on the plan that the state has now. -/
structure Fits (sha : Sha256) (s : State) (plan : Plan) (page : Page s.catchUp.1.toCatchUpFields)
    (walk : Walk) :
    Prop where
  planId : plan.planId = plan.data.planId sha
  data : plan.data = makePlan s plan.frontier
  start : page.1.startCheckpoint = plan.startCheckpoint
  frontier : page.1.frontier = plan.frontier
  count : page.entryCount = plan.entryCount
  walk : walkPage s plan.fromHeight.1 ⟨page.1.startCheckpoint.hash, none, []⟩ page.1.entries
    = .ok walk
  through : page.endEntry.height = plan.throughHeight
  replaced : page.endEntry.height.1 = page.1.frontier.height.1 → page.endEntry.hash
    = page.1.frontier.hash

namespace Fits

variable {s : State} {plan : Plan} {page : Page s.catchUp.1.toCatchUpFields} {walk : Walk}

theorem start_eq (h : Fits sha s plan page walk) : page.1.startCheckpoint = s.checkpoint :=
  h.start.trans (congrArg PlanData.startCheckpoint h.data)

theorem fromHeight_eq (h : Fits sha s plan page walk) :
    plan.fromHeight.1 = s.checkpoint.height.1 + 1 :=
  congrArg PlanData.fromHeight h.data

theorem throughHeight_eq (h : Fits sha s plan page walk) :
    page.endEntry.height.1 = s.catchUp.1.through s.checkpoint page.1.frontier := by
  rw [h.through, h.frontier]
  exact congrArg PlanData.throughHeight h.data

/-- The entries lead on from the checkpoint of the state, and the target is where the loop found it.
-/
theorem leads (h : Fits sha s plan page walk) :
    Leads s.checkpoint page.1.entries page.endEntry.checkpoint
    ∧ walk.lineage = page.1.entries.map (·.toLineageEntry)
    ∧ ∀ m ∈ walk.targetMembership, ∃ e ∈ page.1.entries, e.Holds s.targetMember
    ∧ m = e.membership s.targetMember := by
  have hwalk := h.walk
  rw [h.fromHeight_eq, h.start_eq] at hwalk
  obtain ⟨d, hleads, hlineage, hfound⟩ := walkPage_ok rfl hwalk
  have hend : d = page.endEntry.checkpoint := by
    rw [hleads.getLast?, List.getLast?_eq_some_getLast page.sized.1]
    rfl
  refine ⟨hend ▸ hleads, hlineage, fun m hm => ?_⟩
  rcases hfound with hnone | ⟨e, he, hholds, hsome⟩
  · rw [hnone] at hm
    cases hm
  · rw [hsome] at hm
    exact ⟨e, he, hholds, (Option.some.inj hm).symm⟩

theorem height (h : Fits sha s plan page walk) :
    page.endEntry.height.1 = s.checkpoint.height.1 + page.1.entries.length :=
  h.leads.1.height

/-- The counts of its receipt agree. -/
theorem counted (h : Fits sha s plan page walk) (digest : Commitment)
    (threshold : Option Checkpoint) :
    (⟨pageReceipt plan page walk, digest, threshold⟩ : ReceiptFields).counted = true := by
  obtain ⟨_, hlineage, _⟩ := h.leads
  have hpos := List.length_pos_iff.mpr page.sized.1
  have hheight := h.height
  have hbounded := s.catchUp.2
  simp only [CatchUpFields.bounded, decide_eq_true_eq] at hbounded
  have hle := page.sized.2
  have hmax : (MAX_PAGE_ENTRIES : Int) = 64 := rfl
  have hthrough := h.throughHeight_eq
  have hfrontier : s.catchUp.1.through s.checkpoint page.1.frontier ≤ page.1.frontier.height.1 :=
    min_le_left _ _
  have hlength : walk.lineage.length = page.1.entries.length := by rw [hlineage, List.length_map]
  simp only [ReceiptFields.counted, decide_eq_true_eq, pageReceipt, hlength, h.start_eq]
  refine ⟨?_, ?_, ?_, rfl, by omega⟩
  · show s.checkpoint.height.1 < page.endEntry.height.1
    omega
  · show page.endEntry.height.1 - s.checkpoint.height.1 = page.1.entries.length
    omega
  · show page.endEntry.height.1 ≤ page.1.frontier.height.1
    omega

/-- The receipt of the page is valid for the state, with the threshold that the page reaches. -/
theorem receipt_valid (h : Fits sha s plan page walk)
    (hagrees : ∀ i ∈ s.inclusion, ∀ m ∈ walk.targetMembership,
      m.momentumHeight = i.momentumHeight ∧ m.momentumHash = i.momentumHash) :
    (⟨pageReceipt plan page walk, pageReceiptDigest sha (pageReceipt plan page walk) s.context,
      if s.reachesThreshold walk.targetMembership page.endEntry.checkpoint.height.1
      then some page.endEntry.checkpoint
      else none⟩ : ReceiptFields).Valid sha s.receiptContext := by
  obtain ⟨hleads, hlineage, hfound⟩ := h.leads
  have hheight := h.height
  have hpos := List.length_pos_iff.mpr page.sized.1
  refine ⟨?_, rfl, ?_, ?_, h.replaced, ?_, ?_, ?_, ?_⟩
  · refine h.planId.trans (congrArg (PlanData.planId sha) ?_)
    have hcontext : plan.context = s.context := congrArg PlanData.context h.data
    simp only [Plan.data, ReceiptBase.planData, pageReceipt, PlanData.mk.injEq]
    exact ⟨hcontext, h.start.symm, h.frontier.symm, by rw [h.fromHeight_eq, h.start_eq],
      (congrArg Subtype.val h.through).symm, (congrArg Subtype.val h.count).symm⟩
  · simp only [pageReceipt, h.start_eq]
    exact h.throughHeight_eq
  · simp only [pageReceipt, hlineage, List.length_map]
    exact page.sized.2
  · simp only [pageReceipt, hlineage, h.start_eq]
    exact hleads.linked
  · simp only [pageReceipt, hlineage, List.getLast?_map, List.getLast?_eq_some_getLast page.sized.1]
    rfl
  · intro m hm
    obtain ⟨e, he, _, rfl⟩ := hfound m hm
    obtain ⟨hafter, hupTo⟩ := hleads.within e he
    refine ⟨rfl, rfl, ?_, hupTo, ?_⟩
    · simp only [pageReceipt, h.start_eq]
      exact hafter
    · simp only [pageReceipt, hlineage]
      rw [show (e.membership s.targetMember).momentumHeight = e.height from rfl,
        linkedEntry_of_leads hleads he]
      rfl
  · intro t ht
    by_cases hreaches : s.reachesThreshold walk.targetMembership page.endEntry.checkpoint.height.1
    · rw [if_pos hreaches] at ht
      obtain rfl := Option.some.inj ht
      obtain ⟨_, height, hat, hcount⟩ := hreaches
      refine ⟨?_, ?_, rfl⟩
      · -- the height that was counted from is the one of the membership that the receipt is checked with
        show ∃ m ∈ walk.targetMembership.or (s.inclusion.map (·.toMembership)),
          s.confirmationPolicy.reached page.endEntry.height.1 m
        unfold State.inclusionHeight at hat
        cases hm : walk.targetMembership with
        | some m =>
          refine ⟨m, rfl, ?_⟩
          cases hi : s.inclusion with
          | none =>
            rw [hi, hm] at hat
            obtain rfl := Option.some.inj hat
            exact hcount
          | some i =>
            rw [hi] at hat
            obtain rfl := Option.some.inj hat
            unfold ConfirmationPolicy.reached
            rw [(hagrees i hi m hm).1]
            exact hcount
        | none =>
          cases hi : s.inclusion with
          | none =>
            rw [hi, hm] at hat
            cases hat
          | some i =>
            rw [hi] at hat
            obtain rfl := Option.some.inj hat
            exact ⟨i.toMembership, rfl, hcount⟩
      · simp only [pageReceipt, h.start_eq]
        show s.checkpoint.height.1 < page.endEntry.height.1
        omega
    · rw [if_neg hreaches] at ht
      cases ht

end Fits

/-! ### The state after a page -/

/-- Whether a page reaches the threshold before the target is included. -/
theorem reachesThreshold_of_none {s : State} (hfirst : s.firstThreshold = none)
    (hnone : s.inclusion = none) (targetMembership : Option Membership) (height : Int) :
    s.reachesThreshold targetMembership height
      ↔ ∃ m ∈ targetMembership, s.confirmationPolicy.reached height m := by
  unfold State.reachesThreshold State.inclusionHeight
  rw [hnone, Option.map_none, Option.none_or]
  constructor
  · intro ⟨_, h, hh, hle⟩
    obtain ⟨m, hm, rfl⟩ := Option.map_eq_some_iff.mp hh
    exact ⟨m, hm, hle⟩
  · intro ⟨m, hm, hle⟩
    exact ⟨hfirst, m.momentumHeight, Option.map_eq_some_iff.mpr ⟨m, hm, rfl⟩, hle⟩

/-- Whether it does afterwards. -/
theorem reachesThreshold_of_some {s : State} {i : Inclusion} (hi : s.inclusion = some i)
    (targetMembership : Option Membership) (height : Int) :
    s.reachesThreshold targetMembership height
      ↔ s.firstThreshold = none
        ∧ s.confirmationPolicy.minimumConfirmations.1 ≤ height - i.momentumHeight.1 + 1 := by
  unfold State.reachesThreshold State.inclusionHeight
  rw [hi, Option.map_some, Option.some_or]
  constructor
  · intro ⟨hfirst, h, hh, hle⟩
    obtain rfl := Option.some.inj hh
    exact ⟨hfirst, hle⟩
  · intro ⟨hfirst, hle⟩
    exact ⟨hfirst, i.momentumHeight, rfl, hle⟩

/-- What a page with this receipt makes of a state. -/
inductive AfterPage (s : State) (receipt : Receipt) (r : NonnegativeInt) : State → Prop
  | awaiting (hnone : s.inclusion = none) : AfterPage s receipt r (s.atPage receipt r)
  | included (i : Inclusion) (confirmations : PositiveInt) (hi : s.inclusion = some i)
      (hcount : confirmations.1 = receipt.1.endCheckpoint.height.1 - i.momentumHeight.1 + 1) :
      AfterPage s receipt r (s.includedAtPage receipt i confirmations r)

theorem updateIncludedState_gives (hstatus : c.1.status ≠ .QUARANTINED) (receipt : Receipt)
    (hreceipt : receipt.1.Valid sha c.1.receiptContext)
    (hgrows : c.1.checkpoint.height.1 ≤ receipt.1.endCheckpoint.height.1)
    (hagrees : ∀ i ∈ c.1.inclusion, ∀ m ∈ receipt.1.targetMembership,
      m.momentumHeight = i.momentumHeight ∧ m.momentumHash = i.momentumHash)
    (hthreshold : receipt.1.thresholdCheckpoint
      = if c.1.reachesThreshold receipt.1.targetMembership receipt.1.endCheckpoint.height.1
        then some receipt.1.endCheckpoint else none) :
    Gives (updateIncludedState c receipt.1.endCheckpoint receipt.1) (Closed c.1) fun c' =>
      ∃ r : NonnegativeInt, r.1 = c.1.revision.1 + 1 ∧ AfterPage c.1 receipt r c'.1 := by
  unfold updateIncludedState
  cases hi : c.1.inclusion with
  | none =>
    obtain ⟨_, hfirst, _⟩ := c.valid.awaiting hstatus hi
    have hexpected : receipt.1.thresholdCheckpoint.isSome
        = decide (∃ m ∈ receipt.1.targetMembership,
          c.1.confirmationPolicy.reached receipt.1.endCheckpoint.height.1 m) := by
      rw [hthreshold, Bool.eq_iff_iff, decide_eq_true_iff, ← reachesThreshold_of_none hfirst hi]
      split <;> simp_all
    refine (cloneState_gives _ (c.1.atPage receipt) rfl fun r hr => ⟨?_, ?_⟩).mono (fun _ => id) ?_
    · rw [← hr]
      rfl
    · exact c.valid.atPage hstatus hi hreceipt hexpected
    · intro c' ⟨r, hr, heq⟩
      exact ⟨r, hr, heq ▸ .awaiting hi⟩
  | some i =>
    have hincludes := c.valid.inclusion i hi
    have hheight := hincludes.height
    have hmax := receipt.1.endCheckpoint.height.le
    have hpos := i.momentumHeight.pos
    let confirmations : PositiveInt :=
      ⟨receipt.1.endCheckpoint.height.1 - i.momentumHeight.1 + 1, by omega, by
      simpa using (by omega : 0 < receipt.1.endCheckpoint.height.1 - i.momentumHeight.1 + 1)⟩
    have hexpected : receipt.1.thresholdCheckpoint
        = if c.1.firstThreshold = none ∧ c.1.confirmationPolicy.minimumConfirmations.1
        ≤ confirmations.1
          then some receipt.1.endCheckpoint else none := by
      rw [hthreshold]
      simp only [reachesThreshold_of_some hi, confirmations]
    have hvalid (r : NonnegativeInt) : (c.1.includedAtPage receipt i confirmations r).Valid sha :=
      c.valid.includedAtPage hstatus hi hreceipt hgrows (hagrees i hi) rfl hexpected
    have hclone := cloneState_gives [
        ("revision", .num (c.1.revision.1 + 1)),
        ("checkpoint", checkpointCodec.encode receipt.1.endCheckpoint),
        ("catchUp", catchUpValue c.1.catchUp.1.toCatchUpFields receipt.1),
        ("status", .str (includedStatus (c.1.thresholdAt receipt confirmations).isSome).name),
        ("inclusion", inclusionValue i.toMembership i.inclusionAuthorizationId
          (receipt.1.endCheckpoint.height.1 - i.momentumHeight.1 + 1)),
        ("firstThreshold", Codec.encodeNullable firstThresholdCodec
          (c.1.thresholdAt receipt confirmations))]
      (c.1.includedAtPage receipt i confirmations) rfl fun r hr => ⟨by rw [← hr]; rfl, hvalid r⟩
    have hafter := hclone.mono (fun _ => id) fun c' ⟨r, hr, heq⟩ =>
      (⟨r, hr, heq ▸ .included i confirmations hi rfl⟩ : ∃ r : NonnegativeInt,
        r.1 = c.1.revision.1 + 1
        ∧ AfterPage c.1 receipt r c'.1)
    simp only
    have hcount := hincludes.confirmations
    rw [if_neg (by omega)]
    cases hfirst : c.1.firstThreshold with
    | some t =>
      rw [State.thresholdAt, hfirst, Option.some_or] at hafter
      exact hafter
    | none =>
      rw [State.thresholdAt, hfirst, Option.none_or] at hafter
      rw [hfirst] at hexpected
      by_cases henough : c.1.confirmationPolicy.minimumConfirmations.1 ≤ confirmations.1
      · rw [if_pos henough] at hafter
        rw [if_pos ⟨rfl, henough⟩] at hexpected
        have hsame : ¬ (receipt.1.thresholdCheckpoint ≠ some receipt.1.endCheckpoint) :=
          not_not.mpr hexpected
        simp only [if_neg hsame,
          if_pos (show _ ≤ receipt.1.endCheckpoint.height.1 - i.momentumHeight.1 + 1 from henough)]
        exact hafter
      · rw [if_neg henough] at hafter
        simp only [if_neg (show ¬ _ ≤ receipt.1.endCheckpoint.height.1 - i.momentumHeight.1
          + 1 from henough)]
        exact hafter

/-! ### The operation -/

theorem Outcome.Unapplied.effect {s : State} {o : Outcome sha} (h : o.Unapplied s)
    (entries : List Entry) :
    Effect sha s o.disposition (o.applied entries) o.state.1 := by
  unfold Outcome.applied
  rw [if_neg h.1]
  exact h.2

/-- A page that fits is applied, unless it was before or the target awaits its observation. -/
theorem applied_gives (hstatus : c.1.status ≠ .QUARANTINED) {plan : Plan}
    {page : Page c.1.catchUp.1.toCatchUpFields} {walk : Walk} (hfits : Fits sha c.1 plan page walk)
    (hagrees : ∀ i ∈ c.1.inclusion, ∀ m ∈ walk.targetMembership,
      m.momentumHeight = i.momentumHeight ∧ m.momentumHash = i.momentumHash) :
    Gives (do
        let next ← updateIncludedState c page.endEntry.checkpoint ⟨pageReceipt plan page walk,
          pageReceiptDigest sha (pageReceipt plan page walk) c.1.context,
          if c.1.reachesThreshold walk.targetMembership page.endEntry.checkpoint.height.1
          then some page.endEntry.checkpoint else none⟩
        .ok ⟨next, .APPLIED⟩ : Except Code (Outcome sha)) (Closed c.1)
      fun o => Effect sha c.1 o.disposition (o.applied page.1.entries) o.state.1 := by
  obtain ⟨hleads, hlineage, hfound⟩ := hfits.leads
  let receipt : Receipt :=
    ⟨_, hfits.counted (pageReceiptDigest sha (pageReceipt plan page walk) c.1.context)
    (if c.1.reachesThreshold walk.targetMembership page.endEntry.checkpoint.height.1
      then some page.endEntry.checkpoint else none)⟩
  have hheight := hleads.height
  have hgrows : c.1.checkpoint.height.1 ≤ receipt.1.endCheckpoint.height.1 := by
    show c.1.checkpoint.height.1 ≤ page.endEntry.checkpoint.height.1
    omega
  have hpage : Applied.Of c.1.targetMember c.1.checkpoint ⟨page.1.entries, receipt⟩ :=
    ⟨hleads, hfits.start_eq, hlineage, hfound⟩
  have hgives := updateIncludedState_gives hstatus receipt (hfits.receipt_valid hagrees)
    hgrows hagrees rfl
  rw [gives_bind]
  refine ⟨fun e he => ?_, fun next hnext => ?_⟩
  · rw [show updateIncludedState c receipt.1.endCheckpoint receipt.1 = .error e from he] at hgives
    exact hgives
  · rw [show updateIncludedState c receipt.1.endCheckpoint receipt.1
      = .ok next from hnext] at hgives
    obtain ⟨r, hr, hafter⟩ := hgives
    have happlied (hlast : next.1.lastAppliedPage = some receipt) :
        Outcome.applied ⟨next, .APPLIED⟩ page.1.entries = some ⟨page.1.entries, receipt⟩ := by
      unfold Outcome.applied
      rw [if_pos rfl, hlast]
      rfl
    show Effect sha c.1 .APPLIED (Outcome.applied ⟨next, .APPLIED⟩ page.1.entries) next.1
    generalize hs : next.1 = s' at hafter
    cases hafter with
    | awaiting hnone =>
      rw [happlied (by rw [hs]; rfl)]
      exact .paged ⟨page.1.entries, receipt⟩ r hr hstatus hpage hnone
    | included i confirmations hi hcount =>
      rw [happlied (by rw [hs]; rfl)]
      exact .included ⟨page.1.entries, receipt⟩ i confirmations r hr hstatus hpage hi hcount

theorem applyPage_gives (hstatus : c.1.status ≠ .QUARANTINED) {plan : Plan}
    (hplan : plan.planId = plan.data.planId sha) (page : Page c.1.catchUp.1.toCatchUpFields) :
    Gives (applyPage c plan page) (Closed c.1)
      fun o => Effect sha c.1 o.disposition (o.applied page.1.entries) o.state.1 := by
  have hquarantined (reason : Reason) : Gives (quarantined c reason) (Closed c.1)
      fun o => Effect sha c.1 o.disposition (o.applied page.1.entries) o.state.1 :=
    (quarantined_gives hstatus reason).mono (fun _ => id) fun _ h => h.effect _
  unfold applyPage
  simp only [gives_ite]
  refine ⟨fun _ => hquarantined _, fun hnames => ⟨fun _ => hquarantined _, fun hcount => ?_⟩⟩
  cases hwalk : walkPage c.1 plan.fromHeight.1 ⟨page.1.startCheckpoint.hash, none, []⟩
    page.1.entries with
  | error reason => exact hquarantined reason
  | ok walk =>
    simp only [gives_ite]
    refine ⟨fun _ => hquarantined _, fun hthrough => ⟨fun _ => hquarantined _, fun hreplaced => ?_⟩⟩
    unfold applyReceipt
    simp only [gives_ite]
    refine ⟨fun _ => (kept_unapplied (d := .REPLAY) trivial).effect _, fun _ => ⟨fun _ =>
      (kept_unapplied (d := .INCLUSION_OBSERVATION_REQUIRED) trivial).effect _,
        fun _ => ⟨fun _ => hquarantined _,
      fun hdata => ⟨fun _ => hquarantined _, fun hagrees => ?_⟩⟩⟩⟩
    simp only [not_or, not_not] at hnames hcount hthrough hdata
    obtain ⟨_, hstart, hfrontier⟩ := hnames
    refine applied_gives hstatus ⟨hplan, hdata, hstart, hfrontier, hcount, hwalk, hthrough, ?_⟩ ?_
    · intro hheight
      by_contra hne
      exact hreplaced ⟨hheight, hne⟩
    · intro i hi m hm
      by_contra hne
      exact hagrees ⟨i, hi, m, hm, hne⟩

variable {options : Value} {value : String → Value}

theorem normalizePlan_ok {v : Value} {plan : Plan} (h : normalizePlan sha v = .ok plan) :
    plan.planId = plan.data.planId sha := by
  simp only [normalizePlan, bind_ok, rejectIf_ok, not_not] at h
  obtain ⟨plan', _, _, hplan, h⟩ := h
  obtain rfl := Except.ok.inj h
  exact hplan

/-- What is read as a page is read as its fields. -/
theorem normalizePage_ok {v : Value} {s : State} {page : Page s.catchUp.1.toCatchUpFields}
    (h : normalizePage v s = .ok page) : pageFieldsCodec.decode v = .ok page.1 := by
  have hdecode : (pageCodec s.catchUp.1.toCatchUpFields).decode v = .ok page := failWith_ok.mp h
  obtain ⟨fields, hfields, heq⟩ := bind_ok.mp hdecode
  rw [hfields]
  split at heq
  · rw [← Except.ok.inj heq]
  · cases heq

theorem page_gives (h : Reads PAGE_KEYS options value c) :
    Gives (applyZenonFundingObserverPage sha options) (Closed c.1) fun o =>
      ∃ applied, Effect sha c.1 o.disposition applied o.state.1
        ∧ (applied = none ∧ o.disposition ≠ .APPLIED ∨ ∃ page,
          pageFieldsCodec.decode (value "page") = .ok page
          ∧ applied = o.applied page.entries) := by
  have hunapplied {o : Outcome sha} (ho : o.Unapplied c.1) : ∃ applied,
      Effect sha c.1 o.disposition applied o.state.1
      ∧ (applied = none ∧ o.disposition ≠ .APPLIED ∨ ∃ page,
        pageFieldsCodec.decode (value "page") = .ok page
        ∧ applied = o.applied page.entries) := ⟨none, ho.2, .inl ⟨rfl, ho.1⟩⟩
  unfold applyZenonFundingObserverPage
  rw [gives_of_ok h.arguments, gives_of_ok h.state]
  refine gives_input (refuses_assertExpectedRevision c _) fun _ _ => ?_
  rw [gives_ite]
  refine ⟨fun hstatus => hunapplied (stays_unapplied hstatus), fun hstatus => ?_⟩
  refine gives_input (refuses_normalizePlan _) fun plan hplan => ?_
  refine gives_input (.failWith nofun) fun page hpage => ?_
  rw [gives_ite]
  refine ⟨fun _ => (quarantined_gives hstatus _).mono (fun _ => id) fun _ ho => hunapplied ho,
    fun _ => ?_⟩
  refine (applyPage_gives hstatus (normalizePlan_ok hplan) page).mono (fun _ => id) fun o ho => ?_
  exact ⟨_, ho, .inr ⟨page.1, normalizePage_ok hpage, rfl⟩⟩

/-! ### All operations -/

/-- No operation finds its own result invalid, unless the state has no next revision. -/
theorem Reads.apply_gives {operation : Operation} (h : Reads operation.keys options value c) :
    Gives (operation.apply sha options) (Closed c.1)
      fun o => Effect sha c.1 o.disposition (operation.applied sha options) o.state.1 := by
  cases operation with
  | plan =>
    unfold Operation.apply
    rw [gives_map]
    exact (plan_gives h).mono (fun _ => id) fun _ ho => ho.2
  | page =>
    have hgives := page_gives h
    unfold Operation.apply
    cases happly : applyZenonFundingObserverPage sha options with
    | error e =>
      rw [happly] at hgives
      exact hgives
    | ok o =>
      rw [happly] at hgives
      obtain ⟨applied, heffect, happlied⟩ := hgives
      rw [gives_ok]
      have heq : Operation.page.applied sha options = applied := by
        have harguments : captured PAGE_KEYS options = .ok value := h.arguments
        simp only [Operation.applied, happly, harguments, Except.toOption, Option.bind_eq_bind,
          Option.bind_some]
        rcases happlied with ⟨rfl, hne⟩ | ⟨page, hpage, rfl⟩
        · cases hdecode : pageFieldsCodec.decode (value "page") with
          | error e => rfl
          | ok page => exact if_neg hne
        · rw [hpage]
          rfl
      rw [heq]
      exact heffect
  | observation => exact observation_gives h
  | versions => exact versions_gives h

end Observer
end ZenonX402
