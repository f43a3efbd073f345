/-
# What a call of the credit model can do

Every public operation changes the ledger in at most one step, and there are
few kinds of step (`Step`): an offer is registered, a grant minted, expired or
revoked, a request reserved, begun, released, completed, marked unknown or
reconciled. Each comes with what the operation checked before it, and each
leads from a valid ledger to a valid one (`Step.valid`).

A callback that calls back into the model is refused, so it can only fail the
call that invoked it (`invokeCallback_exec`).

Key definitions: `Event`, `Step`, `Env.reading`.
Key theorems: `invokeCallback_exec`, `Step.valid`.
-/
import ZenonX402.Credit.Invariant

namespace ZenonX402
namespace Credit

open Js Prog

/-! ### Callbacks -/

/-- What a callback is worth to the model: nothing, once it calls back. -/
def Callback.answer (callback : Callback) : Option Value :=
  if callback.calls.isEmpty then callback.result else none

/-- A valid reading of the clock. -/
def Env.reading (env : Env) (i : Nat) : Except Code Int := match (env.now i).answer with
  | some value => ((Codec.integer (fun n => decide (0 ≤ n)) Code.INVALID_CLOCK).decode value).map
      (·.1)
  | none => .error .INVALID_CLOCK

/-- A public operation called from inside another is refused, and noted when
it is a callback that calls it. -/
theorem runPublicOperation_active {α : Type} {m : Model} (h : m.operationActive = true)
    (operation : Prog Model Code α) : (runPublicOperation operation).exec m =
      (.error .REENTRANT_OPERATION,
        { m with callbackReentryAttempted := m.callbackReentryAttempted || m.callbackActive }) := by
  apply exec_eq_of_ends
  unfold runPublicOperation
  refine ends_get.mpr (ends_ite.mpr ⟨fun _ => ?_, fun hn => absurd h hn⟩)
  exact ends_modify.mpr ⟨rfl, rfl⟩

/-- The calls of a callback leave the ledger alone. -/
theorem callBack_exec (calls : List (Prog Model Code Unit)) (L : Ledger) (attempted : Bool) :
    (callBack calls).exec ⟨L, true, true, attempted⟩ =
      (.ok (), ⟨L, true, true, attempted || !calls.isEmpty⟩) := by
  induction calls generalizing attempted with
  | nil => simp only [List.isEmpty_nil, Bool.not_true, Bool.or_false]; rfl
  | cons call calls ih =>
    apply exec_eq_of_ends
    unfold callBack
    refine ends_attempt.mpr ?_
    unfold Ends
    rw [runPublicOperation_active rfl]
    have hrest := ih (attempted || true)
    simp only [Bool.or_true, Bool.true_or, List.isEmpty_cons, Bool.not_false] at hrest ⊢
    rw [hrest]
    exact ⟨rfl, rfl⟩

/-- A callback answers or fails, and leaves the model as it was. -/
theorem invokeCallback_exec (callback : Callback) (invalidCode : Code) (L : Ledger) :
    (invokeCallback callback invalidCode).exec (.busy L) =
      (match callback.answer with
        | some value => .ok value
        | none => .error invalidCode, .busy L) := by
  apply exec_eq_of_ends
  unfold invokeCallback
  refine ends_get.mpr (ends_failIf.mpr ⟨fun h => (by cases h), fun _ => ends_modify.mpr ?_⟩)
  refine (ends_of_returns (callBack_exec callback.calls L false)).mpr ?_
  refine ends_get.mpr (ends_modify.mpr (ends_failIf.mpr ⟨fun h => ?_, fun h => ?_⟩))
  · have hcalls : callback.calls.isEmpty = false := by simpa using h
    simp only [Callback.answer, hcalls]
    exact ⟨rfl, rfl⟩
  · have hcalls : callback.calls.isEmpty = true := by simpa using h
    simp only [Callback.answer, hcalls, if_true]
    cases callback.result <;> exact ⟨rfl, rfl⟩

theorem readNow_exec (env : Env) (i : Nat) (L : Ledger) :
    (readNow env i).exec (.busy L) = (env.reading i, .busy L) := by
  apply exec_eq_of_ends
  unfold readNow Env.reading
  refine (ends_of_exec (invokeCallback_exec ..)).mpr ⟨fun e he => ?_, fun value hv => ?_⟩
  · cases ha : (env.now i).answer with
    | none => rw [ha] at he; cases he; exact ⟨rfl, rfl⟩
    | some v => rw [ha] at he; cases he
  · cases ha : (env.now i).answer with
    | none => rw [ha] at hv; cases hv
    | some v =>
      rw [ha] at hv
      cases hv
      refine ends_lift.mpr ⟨fun e he => ?_, fun n hn => ?_⟩
      · exact ⟨by simp only [he]; rfl, rfl⟩
      · exact ⟨by simp only [hn]; rfl, rfl⟩

/-- The price that the callback gives, when it is one. -/
def Env.price (env : Env) (context : Value) : Except Code PositiveInt :=
  match (env.deriveCost context).answer with
  | some value => (Codec.integer (fun n => decide (0 < n)) Code.INVALID_COST).decode value
  | none => .error .INVALID_COST

theorem serverCost_exec (env : Env) (offer : Offer) (grant : Grant) (request : RequestInput)
    (L : Ledger) :
    (serverCost env offer grant request).exec (.busy L) =
      (env.price (costContext offer grant request), .busy L) := by
  apply exec_eq_of_ends
  unfold serverCost Env.price
  refine (ends_of_exec (invokeCallback_exec ..)).mpr ⟨fun e he => ?_, fun value hv => ?_⟩
  · cases ha : (env.deriveCost (costContext offer grant request)).answer with
    | none => rw [ha] at he; cases he; exact ⟨rfl, rfl⟩
    | some v => rw [ha] at he; cases he
  · cases ha : (env.deriveCost (costContext offer grant request)).answer with
    | none => rw [ha] at hv; cases hv
    | some v =>
      rw [ha] at hv
      cases hv
      unfold Ends
      simp only
      cases (Codec.integer (fun n => decide (0 < n)) Code.INVALID_COST).decode value <;>
        exact ⟨rfl, rfl⟩

theorem reading_error {env : Env} {i : Nat} {c : Code} (h : env.reading i = .error c) :
    c = .INVALID_CLOCK := by
  unfold Env.reading at h
  split at h
  · rename_i value _
    cases hd : (Codec.integer (fun n => decide (0 ≤ n)) Code.INVALID_CLOCK).decode value with
    | ok n => simp only [hd] at h; cases h
    | error e =>
      simp only [hd] at h
      rw [← Except.error.inj h]
      exact Codec.integer_error hd
  · exact (Except.error.inj h).symm

theorem price_error {env : Env} {context : Value} {c : Code} (h : env.price context = .error c) :
    c = .INVALID_COST := by
  unfold Env.price at h
  split at h
  · exact Codec.integer_error h
  · exact (Except.error.inj h).symm

/-! ### Steps -/

/-- A grant, its map of requests and one of them. -/
structure Ledger.Has (L : Ledger) (g : Grant) (rs : JsMap String Request) (q : Request) : Prop where
  grant : L.grants.get? g.grantId.1 = some g
  requests : L.requests.get? g.grantId.1 = some rs
  request : rs.get? q.requestId.1 = some q

inductive Event
  | offerRegistered (offer : Offer)
  | grantMinted (activation : Activation)
  | grantExpired (grantId : Identifier)
  | grantRevoked (grantId : Identifier)
  | reserved (request : Reference)
  | began (request : Reference)
  | released (request : Reference)
  | completed (request : Reference)
  | markedUnknown (request : Reference)
  | reconciled (request : Reference)

/-- The grant an event is about, when it is there already. -/
def Event.grantId? : Event → Option Identifier
  | .offerRegistered _ | .grantMinted _ => none
  | .grantExpired grantId | .grantRevoked grantId => some grantId
  | .reserved q | .began q | .released q | .completed q | .markedUnknown q | .reconciled q =>
    some q.grantId

/-- The request whose execution an event authorizes. -/
def Event.authorized? : Event → Option Reference
  | .began q => some q
  | _ => none

def Request.reference (q : Request) : Reference := ⟨q.grantId, q.requestId⟩

/-- The units of a request go back from held to available. -/
def Grant.release (g : Grant) (costUnits : PositiveInt) : Grant := { g with
  heldUnits := Js.sub g.heldUnits costUnits.1
  availableUnits := Js.add g.availableUnits costUnits.1 }

/-- The units of a request go from held to consumed. -/
def Grant.consume (g : Grant) (costUnits : PositiveInt) : Grant := { g with
  heldUnits := Js.sub g.heldUnits costUnits.1
  consumedUnits := Js.add g.consumedUnits costUnits.1 }

/-- The units of a request go from available to held. -/
def Grant.hold (g : Grant) (costUnits : PositiveInt) : Grant := { g with
  availableUnits := Js.sub g.availableUnits costUnits.1
  heldUnits := Js.add g.heldUnits costUnits.1 }

/-- The record a request starts as. -/
def newRequest (sha : Sha256) (g : Grant) (normalized : RequestInput) (costUnits : PositiveInt) :
    Request :=
  { normalized with
    requestDigest := requestDigestFor sha normalized g.offerId g.offerVersion costUnits
    offerId := g.offerId
    offerVersion := g.offerVersion
    costUnits := costUnits
    state := .RESERVED
    cachedResult := none }

/-- One step of the ledger in a call with the callbacks `env`. -/
inductive Step (sha : Sha256) (env : Env) (L : Ledger) : Event → Ledger → Prop
  | offerRegistered (o : Offer) (hnew : L.offers.get? (offerKey o.offerId o.offerVersion) = none) :
      Step sha env L (.offerRegistered o)
        { L with offers := L.offers.set (offerKey o.offerId o.offerVersion) o }
  | grantMinted (a : Activation) (o : Offer) (now : Int) (hfresh : L.Fresh (.ofActivation sha a))
      (ho : L.offers.get? (offerKey a.1.offerId a.1.offerVersion) = some o)
      (hscope : offerScopeMatches o a = true) (hnow : env.reading 0 = .ok now)
      (hlive : now < a.1.expiresAt.1) :
      Step sha env L (.grantMinted a) (L.addGrant (mintedGrant sha a))
  | grantExpired (g : Grant) (i : Nat) (now : Int) (hg : L.grants.get? g.grantId.1 = some g)
      (hactive : g.lifecycle = .ACTIVE) (hnow : env.reading i = .ok now)
      (hexp : g.expiresAt.1 ≤ now) :
      Step sha env L (.grantExpired g.grantId) (L.setGrant { g with lifecycle := .EXPIRED })
  | grantRevoked (g : Grant) (hg : L.grants.get? g.grantId.1 = some g)
      (hactive : g.lifecycle = .ACTIVE) :
      Step sha env L (.grantRevoked g.grantId) (L.setGrant { g with lifecycle := .REVOKED })
  | reserved (g : Grant) (rs : JsMap String Request) (normalized : RequestInput)
      (costUnits : PositiveInt) (now : Int) (hg : L.grants.get? g.grantId.1 = some g)
      (hrs : L.requests.get? g.grantId.1 = some rs) (hgrant : normalized.grantId = g.grantId)
      (hnew : rs.get? normalized.requestId.1 = none)
      (hunresolved : L.hasUnresolvedExecution = false)
      (hcap : L.requestCount < MAX_HYDRATED_REQUESTS) (hactive : g.lifecycle = .ACTIVE)
      (hnow : env.reading 1 = .ok now) (hlive : now < g.expiresAt.1)
      (hauth : costUnits.1 ≤ normalized.maxCostUnits.1) (hfund : costUnits.1 ≤ g.availableUnits) :
      Step sha env L (.reserved ⟨g.grantId, normalized.requestId⟩)
        ((L.setGrant (g.hold costUnits)).setRequest (newRequest sha g normalized costUnits))
  | began (g : Grant) (rs : JsMap String Request) (q : Request) (now : Int) (hq : L.Has g rs q)
      (hstate : q.state = .RESERVED) (hunresolved : L.hasUnresolvedExecution = false)
      (hactive : g.lifecycle = .ACTIVE) (hnow : env.reading 0 = .ok now)
      (hlive : now < g.expiresAt.1) :
      Step sha env L (.began ⟨g.grantId, q.requestId⟩) (L.setRequest { q with state := .EXECUTING })
  | released (g : Grant) (rs : JsMap String Request) (q : Request) (hq : L.Has g rs q)
      (hstate : q.state = .RESERVED) :
      Step sha env L (.released ⟨g.grantId, q.requestId⟩)
        ((L.setGrant (g.release q.costUnits)).setRequest { q with state := .FAILED_RELEASED })
  | completed (g : Grant) (rs : JsMap String Request) (q : Request) (cachedResult : CachedResult)
      (hq : L.Has g rs q) (hstate : q.state = .EXECUTING)
      (hcontent : cachedResult.contentType = q.selectedContentType) :
      Step sha env L (.completed ⟨g.grantId, q.requestId⟩)
        ((L.setGrant (g.consume q.costUnits)).setRequest
          { q with state := .SUCCEEDED, cachedResult := some cachedResult })
  | markedUnknown (g : Grant) (rs : JsMap String Request) (q : Request) (hq : L.Has g rs q)
      (hstate : q.state = .EXECUTING) :
      Step sha env L (.markedUnknown ⟨g.grantId, q.requestId⟩)
        (L.setRequest { q with state := .OUTCOME_UNKNOWN })
  | reconciled (g : Grant) (rs : JsMap String Request) (q : Request) (outcome : ReconciledOutcome)
      (hq : L.Has g rs q) (hstate : q.state = .OUTCOME_UNKNOWN)
      (hcontent : outcome.represents q.selectedContentType = true) :
      Step sha env L (.reconciled ⟨g.grantId, q.requestId⟩)
        ((L.setGrant (reconcileTo g q outcome).1).setRequest (reconcileTo g q outcome).2)

/-! ### Steps keep the ledger valid -/

namespace Grant.Balanced

variable {g : Grant} {rs : JsMap String Request}

/-- A counter of the grant does not leave the safe integers. -/
theorem exact (h : g.Balanced rs) {n : Int} (h0 : 0 ≤ n)
    (h1 : n ≤ g.availableUnits + g.heldUnits + g.consumedUnits) : n.natAbs ≤ 9007199254740991 := by
  have := h.total
  have := g.totalUnits.le
  omega

theorem hold (h : g.Balanced rs) {q : Request} (hnew : rs.get? q.requestId.1 = none)
    (hstate : q.state = .RESERVED) (hfund : q.costUnits.1 ≤ g.availableUnits) :
    (g.hold q.costUnits).Balanced (rs.set q.requestId.1 q) := by
  have hpos := q.costUnits.pos
  have hheld := h.held_nonneg
  have hcons := h.consumed_nonneg
  have ha : Js.sub g.availableUnits q.costUnits.1 = g.availableUnits - q.costUnits.1 :=
    sub_of_le (h.exact (by omega) (by omega))
  have hh : Js.add g.heldUnits q.costUnits.1 = g.heldUnits + q.costUnits.1 :=
    add_of_le (h.exact (by omega) (by omega))
  refine h.set rfl ?_ ?_ ?_ ?_
  · simp only [Grant.hold, ha]
    omega
  · simp [Grant.hold, hh, hnew, Request.heldCost, hstate, RequestState.holds]
  · simp [Grant.hold, hnew, Request.consumedCost, hstate]
  · simp only [Grant.hold, ha, hh]
    omega

/-- A request that held units holds them no more. -/
theorem release (h : g.Balanced rs) {q p : Request} (hq : rs.get? q.requestId.1 = some q)
    (hstate : q.state.holds = true) (hid : p.requestId = q.requestId)
    (hstate' : p.state = .FAILED_RELEASED) :
    (g.release q.costUnits).Balanced (rs.set p.requestId.1 p) := by
  have hpos := q.costUnits.pos
  have hle := h.le_held hq hstate
  have hcons := h.consumed_nonneg
  have havail := h.available
  have hne : q.state ≠ .SUCCEEDED := fun e => by rw [e] at hstate; cases hstate
  have hh : Js.sub g.heldUnits q.costUnits.1 = g.heldUnits - q.costUnits.1 :=
    sub_of_le (h.exact (by omega) (by omega))
  have ha : Js.add g.availableUnits q.costUnits.1 = g.availableUnits + q.costUnits.1 :=
    add_of_le (h.exact (by omega) (by omega))
  rw [hid]
  refine h.set rfl ?_ ?_ ?_ ?_
  · simp only [Grant.release, ha]
    omega
  · have hdone : p.state.holds = false := by rw [hstate']; rfl
    simp [Grant.release, hh, hq, Request.heldCost, hstate, hdone]
  · simp [Grant.release, hq, Request.consumedCost, hne, hstate']
  · simp only [Grant.release, ha, hh]
    omega

/-- A request that held units has consumed them. -/
theorem consume (h : g.Balanced rs) {q p : Request} (hq : rs.get? q.requestId.1 = some q)
    (hstate : q.state.holds = true) (hid : p.requestId = q.requestId)
    (hcost : p.costUnits = q.costUnits) (hstate' : p.state = .SUCCEEDED) :
    (g.consume q.costUnits).Balanced (rs.set p.requestId.1 p) := by
  have hpos := q.costUnits.pos
  have hle := h.le_held hq hstate
  have hcons := h.consumed_nonneg
  have havail := h.available
  have hne : q.state ≠ .SUCCEEDED := fun e => by rw [e] at hstate; cases hstate
  have hh : Js.sub g.heldUnits q.costUnits.1 = g.heldUnits - q.costUnits.1 :=
    sub_of_le (h.exact (by omega) (by omega))
  have hc : Js.add g.consumedUnits q.costUnits.1 = g.consumedUnits + q.costUnits.1 :=
    add_of_le (h.exact (by omega) (by omega))
  rw [hid]
  refine h.set rfl havail ?_ ?_ ?_
  · have hdone : p.state.holds = false := by rw [hstate']; rfl
    simp [Grant.consume, hh, hq, Request.heldCost, hstate, hdone]
  · simp [Grant.consume, hc, hq, Request.consumedCost, hne, hstate', hcost]
  · simp only [Grant.consume, hc, hh]
    omega

/-- A request that goes on holding its units. -/
theorem keep (h : g.Balanced rs) {q q' : Request} (hq : rs.get? q.requestId.1 = some q)
    (hstate : q.state.holds = true) (hid : q'.requestId = q.requestId)
    (hcost : q'.costUnits = q.costUnits) (hstate' : q'.state.holds = true) :
    g.Balanced (rs.set q'.requestId.1 q') := by
  have hne (s : RequestState) (hs : s.holds = true) : s ≠ .SUCCEEDED := fun e => by
    rw [e] at hs
    cases hs
  rw [hid]
  refine h.set rfl h.available ?_ ?_ rfl
  · simp [hq, Request.heldCost, hstate, hstate', hcost]
  · simp [hq, Request.consumedCost, hne _ hstate, hne _ hstate']

end Grant.Balanced

section Valid

variable {sha : Sha256} {env : Env} {L L' : Ledger} {g : Grant}
    {rs : JsMap String Request} {q : Request}

theorem Ledger.Has.scoped (hq : L.Has g rs q) (hL : L.Valid sha) :
    q.Scoped sha g.toGrantIdentity q.requestId.1 :=
  hL.requestsScoped g rs _ q hq.grant hq.requests hq.request

/-- A request that moves to another state keeps all that is fixed of it. -/
theorem Request.Scoped.move {q' : Request} (h : q.Scoped sha g.toGrantIdentity q.requestId.1)
    (hinput : q'.toRequestInput = q.toRequestInput) (hdigest : q'.requestDigest = q.requestDigest)
    (hoffer : q'.offerId = q.offerId) (hversion : q'.offerVersion = q.offerVersion)
    (hcost : q'.costUnits = q.costUnits) (hresult : q'.resultConsistent = true) :
    q'.Scoped sha g.toGrantIdentity q'.requestId.1 where
  grantId := by rw [hinput, h.grantId]
  requestId := rfl
  offerId := hoffer.trans h.offerId
  offerVersion := hversion.trans h.offerVersion
  digest := by rw [hdigest, hinput, hcost, h.digest]
  authorized := by rw [hcost, hinput]; exact h.authorized
  funded := by rw [hcost]; exact h.funded
  result := hresult

/-- A request that is not SUCCEEDED has no result. -/
theorem Request.Scoped.no_result {i : GrantIdentity} {r : String} (h : q.Scoped sha i r)
    (hstate : q.state ≠ .SUCCEEDED) : q.cachedResult = none := by
  have hr := h.result
  unfold Request.resultConsistent at hr
  cases hc : q.cachedResult with
  | none => rfl
  | some cachedResult => simp [hc, hstate] at hr

/-- A write to a request that is there. -/
theorem Ledger.Has.write (hq : L.Has g rs q) (hL : L.Valid sha) {g' : Grant} {q' : Request}
    (hid : g'.toGrantIdentity = g.toGrantIdentity) (hr : q'.requestId = q.requestId)
    (hscoped : q'.Scoped sha g.toGrantIdentity q'.requestId.1)
    (hbal : g'.Balanced (rs.set q'.requestId.1 q')) :
    ((L.setGrant g').setRequest q').Valid sha := by
  refine hL.write hq.grant hq.requests hid hscoped hbal ?_
  rw [hr, hq.request]
  exact hL.capacity

theorem Ledger.Has.setRequest (hq : L.Has g rs q) (hL : L.Valid sha) {q' : Request}
    (hr : q'.requestId = q.requestId) (hscoped : q'.Scoped sha g.toGrantIdentity q'.requestId.1)
    (hbal : g.Balanced (rs.set q'.requestId.1 q')) : (L.setRequest q').Valid sha := by
  have := hq.write hL (show g.toGrantIdentity = g.toGrantIdentity from rfl) hr hscoped hbal
  rwa [Ledger.setGrant_self hq.grant] at this

/-- A request that is reserved takes its units from those available. -/
theorem Ledger.Valid.reserve (hL : L.Valid sha) {normalized : RequestInput}
    {costUnits : PositiveInt} (hg : L.grants.get? g.grantId.1 = some g)
    (hrs : L.requests.get? g.grantId.1 = some rs) (hgrant : normalized.grantId = g.grantId)
    (hnew : rs.get? normalized.requestId.1 = none) (hcap : L.requestCount < MAX_HYDRATED_REQUESTS)
    (hauth : costUnits.1 ≤ normalized.maxCostUnits.1) (hfund : costUnits.1 ≤ g.availableUnits) :
    ((L.setGrant (g.hold costUnits)).setRequest (newRequest sha g normalized costUnits)).Valid
    sha := by
  have hbal := hL.balanced g rs hg hrs
  have hheld := hbal.held_nonneg
  have hcons := hbal.consumed_nonneg
  have htotal := hbal.total
  have hfunded : costUnits.1 ≤ g.totalUnits.1 := by omega
  refine hL.write hg hrs rfl ⟨hgrant, rfl, rfl, rfl, rfl, hauth, hfunded, rfl⟩
    (hbal.hold (q := newRequest sha g normalized costUnits) hnew rfl hfund) ?_
  split <;> omega

/-- A request that begins keeps its units. -/
theorem Ledger.Has.execute (hq : L.Has g rs q) (hL : L.Valid sha) (hstate : q.state = .RESERVED) :
    (L.setRequest { q with state := .EXECUTING }).Valid sha := by
  have hs := hq.scoped hL
  have hres := hs.no_result (by simp [hstate])
  exact hq.setRequest hL rfl
    (hs.move rfl rfl rfl rfl rfl (by simp [Request.resultConsistent, hres]))
    ((hL.balanced g rs hq.grant hq.requests).keep hq.request (by rw [hstate]; rfl) rfl rfl rfl)

/-- Every step leads from a valid ledger to a valid one. -/
theorem Step.valid {e : Event} (h : Step sha env L e L') (hL : L.Valid sha) : L'.Valid sha := by
  cases h with
  | offerRegistered o hnew => exact hL.registerOffer hnew
  | grantMinted a o now hfresh ho hscope hnow hlive =>
    exact hL.addGrant (g := mintedGrant sha a) hfresh rfl (Ledger.balanced_minted sha a) ho hscope
  | grantExpired g i now hg hactive hnow hexp =>
    exact hL.setGrant hg rfl fun rs hb => ⟨hb.available, hb.held, hb.consumed, hb.total⟩
  | grantRevoked g hg hactive =>
    exact hL.setGrant hg rfl fun rs hb => ⟨hb.available, hb.held, hb.consumed, hb.total⟩
  | reserved g rs normalized costUnits now hg hrs hgrant hnew hunres hcap hactive hnow hlive
      hauth hfund =>
    exact hL.reserve hg hrs hgrant hnew hcap hauth hfund
  | began g rs q now hq hstate hunres hactive hnow hlive => exact hq.execute hL hstate
  | released g rs q hq hstate =>
    have hs := hq.scoped hL
    have hres := hs.no_result (by simp [hstate])
    exact hq.write hL rfl rfl
      (hs.move rfl rfl rfl rfl rfl (by simp [Request.resultConsistent, hres]))
      ((hL.balanced g rs hq.grant hq.requests).release hq.request (by rw [hstate]; rfl) rfl rfl)
  | completed g rs q cachedResult hq hstate hcontent =>
    have hs := hq.scoped hL
    exact hq.write hL rfl rfl
      (hs.move rfl rfl rfl rfl rfl (by simp [Request.resultConsistent, hcontent]))
      ((hL.balanced g rs hq.grant hq.requests).consume hq.request (by rw [hstate]; rfl) rfl rfl rfl)
  | markedUnknown g rs q hq hstate =>
    have hs := hq.scoped hL
    have hres := hs.no_result (by simp [hstate])
    exact hq.setRequest hL rfl
      (hs.move rfl rfl rfl rfl rfl (by simp [Request.resultConsistent, hres]))
      ((hL.balanced g rs hq.grant hq.requests).keep hq.request (by rw [hstate]; rfl) rfl rfl rfl)
  | reconciled g rs q outcome hq hstate hcontent =>
    have hs := hq.scoped hL
    have hbal := hL.balanced g rs hq.grant hq.requests
    have hres := hs.no_result (by simp [hstate])
    have hholds : q.state.holds = true := by rw [hstate]; rfl
    cases outcome with
    | SUCCEEDED cachedResult =>
      have hc : cachedResult.contentType = q.selectedContentType := of_decide_eq_true hcontent
      exact hq.write hL rfl rfl
        (hs.move rfl rfl rfl rfl rfl (by simp [reconcileTo, Request.resultConsistent, hc]))
        (hbal.consume hq.request hholds rfl rfl rfl)
    | FAILED_RELEASED =>
      exact hq.write hL rfl rfl
        (hs.move rfl rfl rfl rfl rfl (by simp [reconcileTo, Request.resultConsistent, hres]))
        (hbal.release hq.request hholds rfl rfl)

end Valid

end Credit
end ZenonX402
