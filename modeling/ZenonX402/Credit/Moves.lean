/-
# Every call takes at most one step

The public operations, one by one, from a valid ledger: a call that throws has
changed nothing or has expired the grant it names, and never fails an
assertion; a call that returns has changed nothing or taken one step of the
ledger, which for an authorized execution is that request's `began`
(`Moves`). `Call.run_moves` puts them together.

Key definitions: `Moves`, `Call.target`.
Key theorems: `Call.run_moves`, `Moves.valid`.
-/
import ZenonX402.Credit.Steps

namespace ZenonX402
namespace Credit

open Js Prog

/-- The grant of the request that the argument refers to. -/
def referenceTarget (input : Value) : Option Identifier :=
  (normalizeReference input).toOption.map Reference.grantId

/-- The grant a call names, when its argument is well formed. -/
def Call.target : Call → Option Identifier
  | .getGrant input => (captured (assertIdentifier.decode input)).toOption
  | .revokeGrant input => (captured (grantReference.decode input)).toOption.map Prod.fst
  | .reserveRequest input => (normalizeRequest input).toOption.map RequestInput.grantId
  | .beginExecution input | .releaseBeforeExecution input | .markOutcomeUnknown input =>
    referenceTarget input
  | .completeExecution input => (captured (completionInput.decode input)).toOption.map Prod.fst
  | .reconcileRequest input => (captureReconciliation input).toOption.map fun r => r.1.grantId
  | _ => none

/-- An error that is no broken assertion. -/
def Code.ordinary (c : Code) : Bool := c != .INVARIANT_VIOLATION && c != .typeError

/-- The request a result authorizes the execution of. -/
def Result.authorized? : Result → Option Reference
  | .execution ⟨true, q⟩ => some q.reference
  | _ => none

/-- What a call about the grant `target` can do to the ledger `L`. -/
inductive Moves (sha : Sha256) (env : Env) (L : Ledger) (target : Option Identifier) :
    Except Code Result → Ledger → Prop
  | failed (c : Code) (hc : c.ordinary = true) : Moves sha env L target (.error c) L
  | failedExpired (c : Code) (hc : c.ordinary = true) (grantId : Identifier) (L' : Ledger)
      (hstep : Step sha env L (.grantExpired grantId) L') (htarget : target = some grantId) :
      Moves sha env L target (.error c) L'
  | observed (r : Result) (hr : r.authorized? = none) : Moves sha env L target (.ok r) L
  | returned (r : Result) (e : Event) (L' : Ledger) (hstep : Step sha env L e L')
      (hr : r.authorized? = e.authorized?) (htarget : ∀ k, e.grantId? = some k → target = some k) :
      Moves sha env L target (.ok r) L'

variable {sha : Sha256} {env : Env} {L : Ledger} {target : Option Identifier}

/-- The ledger takes a step or none. -/
theorem Moves.step {r : Except Code Result} {L' : Ledger} (h : Moves sha env L target r L') :
    L' = L ∨ ∃ e, Step sha env L e L' := by
  cases h with
  | failed => exact .inl rfl
  | failedExpired c hc grantId _ hstep => exact .inr ⟨_, hstep⟩
  | observed => exact .inl rfl
  | returned r e _ hstep => exact .inr ⟨e, hstep⟩

theorem Moves.valid {r : Except Code Result} {L' : Ledger} (h : Moves sha env L target r L')
    (hL : L.Valid sha) : L'.Valid sha := by
  rcases h.step with rfl | ⟨e, hstep⟩
  · exact hL
  · exact hstep.valid hL

/-- A program that ends as a call about `target` may, its value wrapped by `wrap`. -/
def Settles (sha : Sha256) (env : Env) (L : Ledger) (target : Option Identifier) {α : Type}
    (wrap : α → Result) (r : Except Code α) (m : Model) : Prop :=
  ∃ L', m = .busy L' ∧ Moves sha env L target (r.map wrap) L'

section Rules

variable {α β : Type} {wrap : α → Result} {Q : Except Code β → Model → Prop}

theorem settles_failed {c : Code} (hc : c.ordinary = true) :
    Settles sha env L target wrap (.error c) (.busy L) := ⟨L, rfl, .failed c hc⟩

theorem settles_observed {a : α} (h : (wrap a).authorized? = none) :
    Settles sha env L target wrap (.ok a) (.busy L) := ⟨L, rfl, .observed _ h⟩

theorem settles_returned {a : α} {e : Event} {L' : Ledger} (hstep : Step sha env L e L')
    (hr : (wrap a).authorized? = e.authorized?)
    (htarget : ∀ k, e.grantId? = some k → target = some k) :
    Settles sha env L target wrap (.ok a) (.busy L') := ⟨L', rfl, .returned _ e L' hstep hr htarget⟩

/-- A normalizer that rejects the argument. -/
theorem settles_captured {γ : Type} {x : Except Rejection γ} {c : Code}
    (h : captured x = .error c) :
    Settles sha env L target wrap (.error c) (.busy L) :=
  settles_failed (captured_error h ▸ rfl)

theorem ends_requireGrant {grantId : Identifier} {f : Grant → Prog Model Code β} :
    Ends (requireGrant grantId >>= f) (.busy L) Q ↔
      (L.grants.get? grantId.1 = none → Q (.error .GRANT_NOT_FOUND) (.busy L)) ∧
        ∀ g, L.grants.get? grantId.1 = some g → Ends (f g) (.busy L) Q := by
  have hexec : (requireGrant grantId).exec (.busy L) =
      (match L.grants.get? grantId.1 with
        | some g => .ok g
        | none => .error .GRANT_NOT_FOUND, Model.busy L) := by
    unfold requireGrant
    rw [exec_bind]
    change (orFail (L.grants.get? grantId.1) Code.GRANT_NOT_FOUND).exec (Model.busy L) = _
    cases L.grants.get? grantId.1 <;> rfl
  rw [ends_of_exec hexec]
  cases L.grants.get? grantId.1 <;> simp

/-- A request that is required is there, with its grant, or the call fails. -/
theorem ends_requireRequest (hL : L.Valid sha) {ref : Reference}
    {f : Grant × Request → Prog Model Code β}
    (hfail : ∀ c : Code, c.ordinary = true → Q (.error c) (.busy L))
    (hok : ∀ g rs q, L.Has g rs q → g.grantId = ref.grantId → q.requestId = ref.requestId →
      Ends (f (g, q)) (.busy L) Q) : Ends (requireRequest ref >>= f) (.busy L) Q := by
  rw [ends_bind]
  unfold requireRequest
  refine ends_requireGrant.mpr ⟨fun _ => hfail _ rfl, fun g hg => ?_⟩
  refine ends_get.mpr (ends_orFail.mpr ⟨fun _ => hfail _ rfl, fun q hq => ?_⟩)
  have hkey := hL.grantKey hg
  obtain ⟨rs, hrs⟩ := hL.requests hg
  change L.request? ref.grantId.1 ref.requestId.1 = some q at hq
  unfold Ledger.request? at hq
  rw [hrs, Option.bind_some] at hq
  have hgid : g.grantId = ref.grantId := Subtype.ext hkey.symm
  rw [hkey] at hg hrs
  have hr : q.requestId.1 = ref.requestId.1 := (hL.requestsScoped g rs _ q hg hrs hq).requestId
  refine hok g rs q ⟨hg, hrs, ?_⟩ hgid (Subtype.ext hr)
  rw [hr]
  exact hq

/-- The clock is read of an ACTIVE grant only. Either the reading fails, or the
grant expires, or it goes on as it was, and when it is ACTIVE the reading is
before its expiry. -/
theorem ends_refreshGrant {i : Nat} {g : Grant} {f : Grant → Prog Model Code β}
    (hfail : Q (.error .INVALID_CLOCK) (.busy L))
    (hlive : (g.lifecycle = .ACTIVE → ∃ now, env.reading i = .ok now ∧ now < g.expiresAt.1) →
      Ends (f g) (.busy L) Q)
    (hexpired : ∀ now, g.lifecycle = .ACTIVE → env.reading i = .ok now → g.expiresAt.1 ≤ now →
      Ends (f { g with lifecycle := .EXPIRED })
        (.busy (L.setGrant { g with lifecycle := .EXPIRED })) Q) :
    Ends (refreshGrant env i g >>= f) (.busy L) Q := by
  rw [ends_bind]
  unfold refreshGrant
  refine ends_ite.mpr ⟨fun hactive => ?_, fun hnot => hlive fun h => absurd h hnot⟩
  refine (ends_of_exec (readNow_exec env i L)).mpr ⟨fun c hc => ?_, fun now hnow => ?_⟩
  · rw [reading_error hc]
    exact hfail
  · refine ends_ite.mpr ⟨fun hexp => ends_modify.mpr (hexpired now hactive hnow hexp),
      fun hexp => ?_⟩
    exact hlive fun _ => ⟨now, hnow, by omega⟩

/-- A valid ledger has no more requests than can be counted. -/
theorem ends_requestAdmissionState (hL : L.Valid sha) {f : Nat × Bool → Prog Model Code β} :
    Ends (requestAdmissionState >>= f) (.busy L) Q ↔
      Ends (f (L.requestCount, L.hasUnresolvedExecution)) (.busy L) Q := by
  apply ends_of_returns
  have hcap := hL.capacity
  unfold requestAdmissionState
  apply exec_eq_of_ends
  refine ends_get.mpr (ends_failIf.mpr ⟨fun h => ?_, fun _ => ⟨rfl, rfl⟩⟩)
  exact absurd h (Nat.not_lt.mpr hcap)

theorem ends_assertCounters {g : Grant} (h : g.countersHold = true) {m : Model}
    {f : Unit → Prog Model Code β} :
    Ends (assertCounters g >>= f) m Q ↔ Ends (f ()) m Q := by
  unfold assertCounters
  rw [ends_failIf, h]
  simp

end Rules

/-! ### The operations -/

theorem registerOffer_ends (input : Value) : Ends (registerOffer input) (.busy L)
    (Settles sha env L none fun o => .offer (some o)) := by
  unfold registerOffer
  refine ends_lift.mpr ⟨fun c hc => settles_captured hc, fun o ho => ends_get.mpr ?_⟩
  split
  · exact ends_failIf.mpr ⟨fun _ => settles_failed rfl, fun _ => settles_observed rfl⟩
  · rename_i hnew
    exact ends_modify.mpr
      (settles_returned (.offerRegistered o hnew) rfl fun k hk => by cases hk)

theorem getOffer_ends (input : Value) : Ends (getOffer input) (.busy L)
    (Settles sha env L none .offer) := by
  unfold getOffer
  exact ends_lift.mpr ⟨fun c hc => settles_captured hc,
    fun _ _ => ends_get.mpr (settles_observed rfl)⟩

theorem activateGrantFromTrustedRecord_ends (input : Value) :
    Ends (activateGrantFromTrustedRecord sha env input) (.busy L)
      (Settles sha env L none fun g => .grant (some g)) := by
  unfold activateGrantFromTrustedRecord
  refine ends_lift.mpr ⟨fun c hc => settles_captured hc, fun a ha => ends_get.mpr ?_⟩
  refine ends_ite.mpr ⟨fun _ => ?_, fun hfree => ?_⟩
  · split
    · exact ends_failIf.mpr ⟨fun _ => settles_failed rfl, fun _ => settles_observed rfl⟩
    · exact settles_failed rfl
  · refine ends_orFail.mpr ⟨fun _ => settles_failed rfl, fun o ho => ?_⟩
    refine ends_failIf.mpr ⟨fun _ => settles_failed rfl, fun hscope => ?_⟩
    refine (ends_of_exec (readNow_exec env 0 L)).mpr ⟨fun c hc => ?_, fun now hnow => ?_⟩
    · rw [reading_error hc]
      exact settles_failed rfl
    refine ends_failIf.mpr ⟨fun _ => settles_failed rfl, fun hlive => ?_⟩
    have hbal := Ledger.balanced_minted sha a
    refine (ends_assertCounters hbal.countersHold).mpr (ends_modify.mpr ?_)
    -- none of the five lookups found anything
    have hnone : L.Fresh (.ofActivation sha a) := by
      simp only [Bool.or_eq_true, not_or, Bool.not_eq_true, Option.isSome_eq_false_iff,
        Option.isNone_iff_eq_none] at hfree
      obtain ⟨⟨⟨⟨h1, h2⟩, h3⟩, h4⟩, h5⟩ := hfree
      exact ⟨h5, h1, h2, h3, h4⟩
    refine settles_returned (.grantMinted a o now hnone ho ?_ hnow ?_) rfl fun k hk => by cases hk
    · simpa using hscope
    · omega

theorem getActivation_ends (input : Value) : Ends (getActivation input) (.busy L)
    (Settles sha env L none .activation) := by
  unfold getActivation
  exact ends_lift.mpr ⟨fun c hc => settles_captured hc,
    fun _ _ => ends_get.mpr (settles_observed rfl)⟩

/-- The grant named by the argument of a call that takes one grant. -/
theorem getGrant_ends (hL : L.Valid sha) (input : Value) : Ends (getGrant env input) (.busy L)
    (Settles sha env L (captured (assertIdentifier.decode input)).toOption .grant) := by
  unfold getGrant
  refine ends_lift.mpr ⟨fun c hc => settles_captured hc, fun grantId hid => ends_get.mpr ?_⟩
  rw [hid]
  split
  · exact settles_observed rfl
  · rename_i g hg
    have hkey : grantId = g.grantId := Subtype.ext (hL.grantKey hg)
    rw [hkey] at hg ⊢
    refine ends_refreshGrant (settles_failed rfl) (fun _ => settles_observed rfl) ?_
    intro now hactive hnow hexp
    exact settles_returned (.grantExpired g 0 now hg hactive hnow hexp) rfl fun k hk => hk

theorem readOriginalFundingGrant_ends (input : Value) :
    Ends (readOriginalFundingGrant input) (.busy L)
    (Settles sha env L none .funding) := by
  unfold readOriginalFundingGrant
  refine ends_lift.mpr ⟨fun c hc => settles_captured hc, fun query _ => ends_get.mpr ?_⟩
  dsimp only
  split
  · refine ends_orFail.mpr ⟨fun _ => settles_failed rfl,
      fun g _ => ends_ite.mpr ⟨fun _ => ?_, fun _ => ?_⟩⟩
    · exact ends_failIf.mpr ⟨fun _ => settles_failed rfl, fun _ => settles_observed rfl⟩
    · exact settles_observed rfl
  · exact settles_observed rfl

theorem revokeGrant_ends (hL : L.Valid sha) (input : Value) : Ends (revokeGrant env input) (.busy L)
    (Settles sha env L ((captured (grantReference.decode input)).toOption.map Prod.fst)
      fun g => .grant (some g)) := by
  unfold revokeGrant
  refine ends_lift.mpr ⟨fun c hc => settles_captured hc, fun ref href => ?_⟩
  obtain ⟨grantId, _⟩ := ref
  rw [href]
  refine ends_requireGrant.mpr ⟨fun _ => settles_failed rfl, fun g hg => ?_⟩
  have hkey : grantId = g.grantId := Subtype.ext (hL.grantKey hg)
  rw [hkey] at hg ⊢
  refine ends_refreshGrant (settles_failed rfl) (fun _ => ?_) fun now hactive hnow hexp => ?_
  · refine ends_ite.mpr ⟨fun _ => settles_observed rfl, fun _ => ?_⟩
    refine ends_failIf.mpr ⟨fun _ => settles_failed rfl, fun hactive => ends_modify.mpr ?_⟩
    exact settles_returned (.grantRevoked g hg (not_not.mp hactive)) rfl fun k hk => hk
  · -- an expired grant cannot be revoked
    refine ends_ite.mpr ⟨fun h => (by cases h), fun _ => ends_failIf.mpr ⟨fun _ => ?_, fun h => ?_⟩⟩
    · exact ⟨_, rfl, .failedExpired _ rfl g.grantId _
        (.grantExpired g 0 now hg hactive hnow hexp) rfl⟩
    · exact absurd (fun e => by cases e) h

theorem reserveRequest_ends (hL : L.Valid sha) (input : Value) :
    Ends (reserveRequest sha env input) (.busy L)
    (Settles sha env L ((normalizeRequest input).toOption.map RequestInput.grantId)
      .reservation) := by
  unfold reserveRequest
  refine ends_lift.mpr ⟨fun c hc => settles_captured hc, fun n hn => ?_⟩
  rw [hn]
  refine ends_requireGrant.mpr ⟨fun _ => settles_failed rfl, fun g hg => ends_get.mpr ?_⟩
  have hkey : n.grantId = g.grantId := Subtype.ext (hL.grantKey hg)
  rw [hkey] at hg
  refine ends_orFail.mpr ⟨fun hnone => ?_, fun rs hrs => ?_⟩
  · -- every grant has its map of requests
    obtain ⟨rs, hrs⟩ := hL.requests hg
    exact absurd (hrs.symm.trans hnone) (by simp)
  change L.requests.get? g.grantId.1 = some rs at hrs
  split
  · exact ends_failIf.mpr ⟨fun _ => settles_failed rfl, fun _ => settles_observed rfl⟩
  · rename_i hnew
    refine (ends_requestAdmissionState hL).mpr
      (ends_failIf.mpr ⟨fun _ => settles_failed rfl, fun hunres => ?_⟩)
    refine ends_failIf.mpr ⟨fun _ => settles_failed rfl, fun hcap => ?_⟩
    have hexpire (i : Nat) (now : Int) (hactive : g.lifecycle = .ACTIVE)
        (hnow : env.reading i = .ok now)
        (hexp : g.expiresAt.1 ≤ now) :
        Settles sha env L (some n.grantId) Result.reservation (.error .GRANT_NOT_ACTIVE)
          (.busy (L.setGrant { g with lifecycle := .EXPIRED })) :=
      ⟨_, rfl, .failedExpired _ rfl g.grantId _ (.grantExpired g i now hg hactive hnow hexp)
        (congrArg some hkey)⟩
    refine ends_refreshGrant (settles_failed rfl) (fun _ => ?_) fun now hactive hnow hexp => ?_
    · refine ends_failIf.mpr ⟨fun _ => settles_failed rfl, fun hactive => ends_get.mpr ?_⟩
      have hactive := not_not.mp hactive
      refine ends_orFail.mpr ⟨fun hnone => ?_, fun o _ => ?_⟩
      · obtain ⟨o, ho, -⟩ := hL.indexed.offered _ _ (Ledger.identity?_of_get? hg)
        exact absurd (ho.symm.trans hnone) (by simp)
      refine (ends_of_exec (serverCost_exec env o g n L)).mpr
        ⟨fun c hc => ?_, fun costUnits _ => ?_⟩
      · rw [price_error hc]
        exact settles_failed rfl
      refine ends_failIf.mpr ⟨fun _ => settles_failed rfl, fun hauth => ?_⟩
      refine ends_failIf.mpr ⟨fun _ => settles_failed rfl, fun hfund => ?_⟩
      refine ends_refreshGrant (settles_failed rfl) (fun hlive => ?_)
        fun now hactive hnow hexp => ?_
      · refine ends_failIf.mpr ⟨fun h => absurd hactive h, fun _ => ends_modify.mpr ?_⟩
        have hbal := (hL.balanced g rs hg hrs).hold (q := newRequest sha g n costUnits) hnew rfl
          (not_lt.mp hfund)
        refine (ends_assertCounters hbal.countersHold).mpr (ends_modify.mpr ?_)
        obtain ⟨now, hnow, hlive⟩ := hlive hactive
        refine settles_returned
          (.reserved g rs n costUnits now hg hrs hkey hnew ?_ (not_le.mp hcap) hactive
          hnow hlive (not_lt.mp hauth) (not_lt.mp hfund)) rfl fun k hk => ?_
        · simpa using hunres
        · cases hk
          exact congrArg some hkey
      · refine ends_failIf.mpr ⟨fun _ => hexpire 1 now hactive hnow hexp, fun h => ?_⟩
        exact absurd (fun e => by cases e) h
    · refine ends_failIf.mpr ⟨fun _ => hexpire 0 now hactive hnow hexp, fun h => ?_⟩
      exact absurd (fun e => by cases e) h

theorem getRequest_ends (input : Value) : Ends (getRequest input) (.busy L)
    (Settles sha env L none .request) := by
  unfold getRequest
  refine ends_lift.mpr ⟨fun c hc => settles_captured hc, fun _ _ => ends_get.mpr ?_⟩
  split <;> exact settles_observed rfl

theorem beginExecution_ends (hL : L.Valid sha) (input : Value) :
    Ends (beginExecution env input) (.busy L)
    (Settles sha env L (referenceTarget input) .execution) := by
  unfold beginExecution
  refine ends_lift.mpr ⟨fun c hc => settles_captured hc, fun ref href => ?_⟩
  unfold referenceTarget
  rw [href]
  refine ends_requireRequest hL (fun c hc => settles_failed hc) fun g rs q hq hg hr => ?_
  refine ends_ite.mpr ⟨fun _ => settles_observed rfl, fun hstate => ?_⟩
  refine (ends_requestAdmissionState hL).mpr
    (ends_failIf.mpr ⟨fun _ => settles_failed rfl, fun hunres => ?_⟩)
  refine ends_refreshGrant (settles_failed rfl) (fun hlive => ?_) fun now hactive hnow hexp => ?_
  · refine ends_failIf.mpr ⟨fun _ => settles_failed rfl, fun hactive => ends_modify.mpr ?_⟩
    have hactive := not_not.mp hactive
    obtain ⟨now, hnow, hlive⟩ := hlive hactive
    have hgid := (hq.scoped hL).grantId
    refine settles_returned (.began g rs q now hq (not_not.mp hstate) ?_ hactive hnow hlive) ?_
      fun k hk => ?_
    · simpa using hunres
    · exact congrArg (fun k => some (Reference.mk k q.requestId)) hgid
    · cases hk
      exact congrArg some hg.symm
  · refine ends_failIf.mpr ⟨fun _ => ?_, fun h => absurd (fun e => by cases e) h⟩
    exact ⟨_, rfl, .failedExpired _ rfl g.grantId _
      (.grantExpired g 0 now hq.grant hactive hnow hexp)
      (congrArg some hg.symm)⟩

theorem releaseBeforeExecution_ends (hL : L.Valid sha) (input : Value) :
    Ends (releaseBeforeExecution input) (.busy L)
      (Settles sha env L (referenceTarget input) .transition) := by
  unfold releaseBeforeExecution
  refine ends_lift.mpr ⟨fun c hc => settles_captured hc, fun ref href => ?_⟩
  unfold referenceTarget
  rw [href]
  refine ends_requireRequest hL (fun c hc => settles_failed hc) fun g rs q hq hg hr => ?_
  refine ends_ite.mpr ⟨fun _ => settles_observed rfl, fun _ => ?_⟩
  refine ends_failIf.mpr ⟨fun _ => settles_failed rfl, fun hstate => ends_modify.mpr ?_⟩
  have hstate := not_not.mp hstate
  have hbal := (hL.balanced g rs hq.grant hq.requests).release
    (p := { q with state := .FAILED_RELEASED })
    hq.request (by rw [hstate]; rfl) rfl rfl
  refine (ends_assertCounters hbal.countersHold).mpr ?_
  exact settles_returned (.released g rs q hq hstate) rfl fun k hk => by
    cases hk
    exact congrArg some hg.symm

theorem completeExecution_ends (hL : L.Valid sha) (input : Value) :
    Ends (completeExecution input) (.busy L)
      (Settles sha env L ((captured (completionInput.decode input)).toOption.map Prod.fst)
        .transition) := by
  unfold completeExecution
  refine ends_lift.mpr ⟨fun c hc => settles_captured hc, fun given hgiven => ?_⟩
  obtain ⟨grantId, requestId, cachedResult, _⟩ := given
  rw [hgiven]
  refine ends_requireRequest hL (fun c hc => settles_failed hc) fun g rs q hq hg hr => ?_
  refine ends_failIf.mpr ⟨fun _ => settles_failed rfl, fun hcontent => ?_⟩
  refine ends_ite.mpr ⟨fun _ => ?_, fun _ => ?_⟩
  · exact ends_failIf.mpr ⟨fun _ => settles_failed rfl, fun _ => settles_observed rfl⟩
  refine ends_failIf.mpr ⟨fun _ => settles_failed rfl, fun hstate => ends_modify.mpr ?_⟩
  have hstate := not_not.mp hstate
  have hbal := (hL.balanced g rs hq.grant hq.requests).consume
    (p := { q with state := .SUCCEEDED, cachedResult := some cachedResult })
    hq.request (by rw [hstate]; rfl) rfl rfl rfl
  refine (ends_assertCounters hbal.countersHold).mpr ?_
  exact settles_returned (.completed g rs q cachedResult hq hstate (not_not.mp hcontent)) rfl
    fun k hk => by
    cases hk
    exact congrArg some hg.symm

theorem markOutcomeUnknown_ends (hL : L.Valid sha) (input : Value) :
    Ends (markOutcomeUnknown input) (.busy L)
      (Settles sha env L (referenceTarget input) .transition) := by
  unfold markOutcomeUnknown
  refine ends_lift.mpr ⟨fun c hc => settles_captured hc, fun ref href => ?_⟩
  unfold referenceTarget
  rw [href]
  refine ends_requireRequest hL (fun c hc => settles_failed hc) fun g rs q hq hg hr => ?_
  refine ends_ite.mpr ⟨fun _ => settles_observed rfl, fun _ => ?_⟩
  refine ends_failIf.mpr ⟨fun _ => settles_failed rfl, fun hstate => ends_modify.mpr ?_⟩
  exact settles_returned (.markedUnknown g rs q hq (not_not.mp hstate)) rfl fun k hk => by
    cases hk
    exact congrArg some hg.symm

theorem captureReconciliation_error {input : Value} {c : Code}
    (h : captureReconciliation input = .error c) :
    c = .INVALID_INPUT := by
  unfold captureReconciliation at h
  cases hd : captured (reconciliationInput.decode input) with
  | error e =>
    rw [hd] at h
    exact (Except.error.inj h).symm.trans (captured_error hd)
  | ok given =>
    obtain ⟨grantId, requestId, outcome, cachedResult, _⟩ := given
    rw [hd] at h
    simp only [bind, Except.bind] at h
    split at h <;> split at h <;> first | exact (Except.error.inj h).symm | cases h

theorem reconcileRequest_ends (hL : L.Valid sha) (input : Value) :
    Ends (reconcileRequest input) (.busy L)
      (Settles sha env L ((captureReconciliation input).toOption.map fun r => r.1.grantId)
        .transition) := by
  unfold reconcileRequest
  refine ends_lift.mpr ⟨fun c hc => ?_, fun given hgiven => ?_⟩
  · rw [captureReconciliation_error hc]
    exact settles_failed rfl
  obtain ⟨ref, outcome⟩ := given
  rw [hgiven]
  refine ends_requireRequest hL (fun c hc => settles_failed hc) fun g rs q hq hg hr => ?_
  refine ends_failIf.mpr ⟨fun _ => settles_failed rfl, fun hcontent => ?_⟩
  refine ends_ite.mpr ⟨fun _ => ?_, fun _ => ?_⟩
  · exact ends_failIf.mpr ⟨fun _ => settles_failed rfl, fun _ => settles_observed rfl⟩
  refine ends_failIf.mpr ⟨fun _ => settles_failed rfl, fun hstate => ends_modify.mpr ?_⟩
  have hstate := not_not.mp hstate
  have hholds : q.state.holds = true := by rw [hstate]; rfl
  have hbal := hL.balanced g rs hq.grant hq.requests
  have hcounters : (reconcileTo g q outcome).1.countersHold = true := by
    cases outcome with
    | SUCCEEDED cachedResult =>
      exact (hbal.consume (p := { q with state := .SUCCEEDED, cachedResult := some cachedResult })
        hq.request hholds rfl rfl rfl).countersHold
    | FAILED_RELEASED =>
      exact (hbal.release (p := { q with state := .FAILED_RELEASED }) hq.request hholds rfl
        rfl).countersHold
  refine (ends_assertCounters hcounters).mpr ?_
  refine settles_returned (.reconciled g rs q outcome hq hstate (by simpa using hcontent)) rfl
    fun k hk => ?_
  cases hk
  exact congrArg some hg.symm

/-! ### Calls -/

theorem Call.body_ends (hL : L.Valid sha) (call : Call) : Ends (call.body sha env) (.busy L)
    (Settles sha env L call.target id) := by
  have hwrap {α : Type} {wrap : α → Result} {p : Prog Model Code α}
      (h : Ends p (.busy L) (Settles sha env L call.target wrap)) :
      Ends (p >>= fun a => pure (wrap a)) (.busy L) (Settles sha env L call.target id) := by
    refine ends_map.mpr (h.mono fun r m ⟨L', hm, hmoves⟩ => ⟨L', hm, ?_⟩)
    cases r <;> exact hmoves
  cases call with
  | registerOffer input => exact hwrap (registerOffer_ends input)
  | getOffer input => exact hwrap (getOffer_ends input)
  | activateGrantFromTrustedRecord input => exact hwrap (activateGrantFromTrustedRecord_ends input)
  | getActivation input => exact hwrap (getActivation_ends input)
  | getGrant input => exact hwrap (getGrant_ends hL input)
  | readOriginalFundingGrant input => exact hwrap (readOriginalFundingGrant_ends input)
  | revokeGrant input => exact hwrap (revokeGrant_ends hL input)
  | reserveRequest input => exact hwrap (reserveRequest_ends hL input)
  | getRequest input => exact hwrap (getRequest_ends input)
  | beginExecution input => exact hwrap (beginExecution_ends hL input)
  | releaseBeforeExecution input => exact hwrap (releaseBeforeExecution_ends hL input)
  | completeExecution input => exact hwrap (completeExecution_ends hL input)
  | markOutcomeUnknown input => exact hwrap (markOutcomeUnknown_ends hL input)
  | reconcileRequest input => exact hwrap (reconcileRequest_ends hL input)
  | exportState => exact hwrap (ends_get.mpr (settles_observed rfl))

/-- A call between operations leaves the model between operations, and its
ledger at most one step further. -/
theorem Call.run_moves (hL : L.Valid sha) (env : Env) (call : Call) : ∃ L',
    (call.run sha env (.idle L)).2 = .idle L' ∧
      Moves sha env L call.target (call.run sha env (.idle L)).1 L' := by
  have hrun : Ends (runPublicOperation (call.body sha env)) (.idle L) fun r m =>
      ∃ L', m = .idle L' ∧ Moves sha env L call.target r L' := by
    unfold runPublicOperation
    refine ends_get.mpr (ends_ite.mpr ⟨fun h => (by cases h), fun _ => ends_modify.mpr ?_⟩)
    refine ends_finallyDo.mpr ((call.body_ends hL).mono fun r m ⟨L', hm, hmoves⟩ => ⟨L', ?_, ?_⟩)
    · rw [hm]
      rfl
    · cases r <;> exact hmoves
  exact hrun

end Credit
end ZenonX402
