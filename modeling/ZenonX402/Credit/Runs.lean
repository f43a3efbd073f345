/-
# Runs of the credit model

A run is any sequence of calls of public methods, each with its own callbacks,
from an instance that is new or that `fromState` returned (`Started`). Every
state of a run is a valid ledger between operations (`run_valid`), so the units
of every grant are conserved after every call, whatever it returned or threw
(`units_conserved`).

Key definitions: `Called`, `CallStep`, `Started`, `Grant.Conserved`.
Key theorems: `run_valid`, `units_conserved`.
-/
import ZenonX402.Credit.Moves
import ZenonX402.Credit.RoundTrip
import ZenonX402.Lib.Sha2
import ZenonX402.Lib.Trace

namespace ZenonX402
namespace Credit

open Js

/-- A call of a public method, its callbacks, and what it returned or threw. -/
structure Called where
  call : Call
  env : Env
  result : Except Code Result

def CallStep (sha : Sha256) (m : Model) (c : Called) (m' : Model) : Prop :=
  c.call.run sha c.env m = (c.result, m')

/-- The ledger of an instance that is new, or that `fromState` returned. -/
inductive Started (sha : Sha256) : Ledger → Prop
  | new : Started sha .empty
  | hydrated (state : Value) (L : Ledger) (h : fromState sha state = .ok L) : Started sha L

variable {sha : Sha256} {L L' : Ledger} {m m' : Model} {c : Called} {cs : List Called}

theorem Started.valid (h : Started sha L) : L.Valid sha := by
  cases h with
  | new => exact Ledger.valid_empty sha
  | hydrated state _ h => exact (fromState_sound h).1.toValid

/-- An instance between operations, with a valid ledger. -/
def Model.Idle (sha : Sha256) (m : Model) : Prop := ∃ L : Ledger, L.Valid sha ∧ m = .idle L

/-- What a call does between operations. -/
theorem CallStep.moves (hL : L.Valid sha) (h : CallStep sha (.idle L) c m') :
    ∃ L', m' = .idle L' ∧ Moves sha c.env L c.call.target c.result L' := by
  obtain ⟨L', hm, hmoves⟩ := c.call.run_moves hL c.env
  rw [show c.call.run sha c.env (.idle L) = (c.result, m') from h] at hm hmoves
  exact ⟨L', hm, hmoves⟩

theorem CallStep.idle (m : Model) (c : Called) (m' : Model) (hm : m.Idle sha)
    (h : CallStep sha m c m') :
    m'.Idle sha := by
  obtain ⟨L, hL, rfl⟩ := hm
  obtain ⟨L', rfl, hmoves⟩ := h.moves hL
  exact ⟨L', hmoves.valid hL, rfl⟩

theorem run_idle (h : Run (CallStep sha) m cs m') (hm : m.Idle sha) : m'.Idle sha :=
  h.invariant CallStep.idle hm

/-- The ledger of an instance at the end of a run from a valid ledger. -/
theorem run_valid (h : Run (CallStep sha) (.idle L) cs (.idle L')) (hL : L.Valid sha) :
    L'.Valid sha := by
  obtain ⟨M, hM, he⟩ := run_idle h ⟨L, hL, rfl⟩
  cases he
  exact hM

/-- A relation between ledgers that every step respects holds between the
ends of a run. -/
theorem run_relates {R : Ledger → Ledger → Prop} (refl : ∀ L, R L L)
    (trans : ∀ {L₁ L₂ L₃}, R L₁ L₂ → R L₂ L₃ → R L₁ L₃)
    (hstep : ∀ env L e L', L.Valid sha → Step sha env L e L' → R L L')
    (h : Run (CallStep sha) (.idle L) cs (.idle L')) (hL : L.Valid sha) : R L L' := by
  have hmoves : ∀ m c m', m.Idle sha → CallStep sha m c m' → R m.ledger m'.ledger := by
    rintro m c m' ⟨L, hL, rfl⟩ hcall
    obtain ⟨L', rfl, hmoves⟩ := CallStep.moves hL hcall
    rcases hmoves.step with rfl | ⟨e, hs⟩
    · exact refl _
    · exact hstep _ _ _ _ hL hs
  exact h.relates (R := fun m m' => R m.ledger m'.ledger)
    (fun m => refl _) trans CallStep.idle hmoves
    ⟨L, hL, rfl⟩

/-! ### Conservation -/

/-- The units of a grant are what its requests make of them: the counters are
safe and not negative, they add up to the total, and each is the sum over the
requests in its states; and every request costs something, and no more than it
allows. -/
structure Grant.Conserved (L : Ledger) (g : Grant) : Prop where
  requests : (L.requests.get? g.grantId.1).isSome = true
  counters : isCounter g.availableUnits = true ∧ isCounter g.heldUnits = true
    ∧ isCounter g.consumedUnits = true
  total : g.availableUnits + g.heldUnits + g.consumedUnits = g.totalUnits.1
  held : ∀ rs, L.requests.get? g.grantId.1 = some rs →
    g.heldUnits = ((rs.values.filter fun q => q.state = .RESERVED ∨ q.state = .EXECUTING
      ∨ q.state = .OUTCOME_UNKNOWN).map fun q => q.costUnits.1).sum
  consumed : ∀ rs, L.requests.get? g.grantId.1 = some rs →
    g.consumedUnits = ((rs.values.filter fun q => q.state = .SUCCEEDED).map
      fun q => q.costUnits.1).sum
  costs : ∀ rs q, L.requests.get? g.grantId.1 = some rs → q ∈ rs.values →
    0 < q.costUnits.1 ∧ q.costUnits.1 ≤ q.maxCostUnits.1

/-- A sum of what some elements are worth, the others being worth nothing. -/
theorem sum_map_filter {α : Type} (p : α → Bool) (f : α → Int) : ∀ as : List α,
    ((as.filter p).map f).sum = (as.map fun a => if p a = true then f a else 0).sum
  | [] => rfl
  | a :: as => by
    have ih := sum_map_filter p f as
    by_cases hp : p a = true
    · rw [List.filter_cons_of_pos hp, List.map_cons, List.map_cons, List.sum_cons,
        List.sum_cons, ih, if_pos hp]
    · rw [List.filter_cons_of_neg hp, List.map_cons, List.sum_cons, ih, if_neg hp, Int.zero_add]

theorem Ledger.Valid.conserved (hL : L.Valid sha) {k : String} {g : Grant}
    (hg : L.grants.get? k = some g) : g.Conserved L := by
  have hkey := hL.grantKey hg
  subst hkey
  obtain ⟨rs, hrs⟩ := hL.requests hg
  have hbal := hL.balanced g rs hg hrs
  obtain ⟨ha, hh, hc, -⟩ := Grant.counters_of_countersHold hbal.countersHold
  have hunique : ∀ rs', L.requests.get? g.grantId.1 = some rs' → rs' = rs := fun rs' h =>
    Option.some.inj (h.symm.trans hrs)
  refine ⟨by rw [hrs]; rfl, ⟨ha, hh,
    hc⟩, hbal.total, fun rs' h => ?_, fun rs' h => ?_, fun rs' q h hq => ?_⟩
  · obtain rfl := hunique rs' h
    rw [sum_map_filter, hbal.held]
    unfold JsMap.sum
    refine congrArg List.sum (List.map_congr_left fun q _ => ?_)
    unfold Request.heldCost
    cases q.state <;> simp [RequestState.holds]
  · obtain rfl := hunique rs' h
    rw [sum_map_filter, hbal.consumed]
    unfold JsMap.sum
    refine congrArg List.sum (List.map_congr_left fun q _ => ?_)
    simp only [Request.consumedCost, decide_eq_true_eq]
  · obtain rfl := hunique rs' h
    obtain ⟨r, hr⟩ := JsMap.mem_values_iff.mp hq
    exact ⟨q.costUnits.pos, (hL.requestsScoped g rs' r q hg hrs hr).authorized⟩

/-- After every call of a run the units of every grant are conserved, and no
call of it has failed an assertion. -/
theorem units_conserved {sha : Sha256} {L : Ledger} {cs : List Called} {m : Model}
    (hstart : Started sha L) (hrun : Run (CallStep sha) (.idle L) cs m) :
    (∀ k g, m.ledger.grants.get? k = some g → g.Conserved m.ledger)
      ∧ ∀ c ∈ cs, c.result ≠ .error .INVARIANT_VIOLATION := by
  have hL := hstart.valid
  obtain ⟨L', hL', rfl⟩ := run_idle hrun ⟨L, hL, rfl⟩
  refine ⟨fun k g hg => hL'.conserved hg, fun c hc => ?_⟩
  obtain ⟨before, after, rfl⟩ := List.append_of_mem hc
  obtain ⟨m₁, h₁, h₂⟩ := hrun.split
  obtain ⟨L₁, hL₁, rfl⟩ := run_idle h₁ ⟨L, hL, rfl⟩
  cases h₂ with
  | cons hcall _ =>
    obtain ⟨L₂, -, hmoves⟩ := CallStep.moves hL₁ hcall
    generalize c.result = result at hmoves
    rintro rfl
    cases hmoves with
    | failed _ he => cases he
    | failedExpired _ he => cases he


/-! ### A run that is carried out -/

/-- Call the methods `calls` one after the other. -/
def runCalls (sha : Sha256) : List (Call × Env) → Model → List Called × Model
  | [], m => ([], m)
  | (call, env) :: calls, m =>
    let (result, m') := call.run sha env m
    let (cs, last) := runCalls sha calls m'
    (⟨call, env, result⟩ :: cs, last)

theorem run_runCalls (sha : Sha256) : ∀ (calls : List (Call × Env)) (m : Model),
    Run (CallStep sha) m (runCalls sha calls m).1 (runCalls sha calls m).2
  | [], m => .nil m
  | _ :: calls, _ => .cons rfl (run_runCalls sha calls _)

namespace Sample

def identifier (s : String) (h : isIdentifier s = true := by exact Eq.refl true) :
    Identifier := ⟨s, h⟩

def number (n : Int) (h : decide (n.natAbs ≤ 9007199254740991 ∧ decide (0 < n) = true)
      = true := by exact Eq.refl true) :
    PositiveInt := ⟨n, of_decide_eq_true h⟩

def digest (c : Char) : String := String.ofList (List.replicate 64 c)

/-- The commitment whose digits are all `c`. -/
def commitment (c : Char) (h : isCommitment ("sha256:" ++ digest c) = true := by decide) :
    Commitment :=
  ⟨"sha256:" ++ digest c, h⟩

def offer (version : PositiveInt) : Offer where
  providerId := identifier "provider-1"
  serviceId := identifier "service-1"
  resourceId := identifier "resource-1"
  resourceBinding := commitment '1'
  offerId := identifier "offer-1"
  offerVersion := version
  costPolicyId := identifier "cost-1"
  fundingPolicyId := identifier "funding-1"
  fundingPolicyVersion := number 1

def activation : Activation where
  val :=
    { activationVersion := number 1
      authorityProfileId := identifier "authority-1"
      authorityProfileVersion := number 1
      verifierVersion := number 1
      authorityRecordDigest := commitment '2'
      fundingPolicyId := identifier "funding-1"
      fundingPolicyVersion := number 1
      sourceSettlementId := identifier "settlement-1"
      transactionId := ⟨0, "mocktx:" ++ digest '9', by decide⟩
      providerId := identifier "provider-1"
      serviceId := identifier "service-1"
      resourceId := identifier "resource-1"
      resourceBinding := commitment '1'
      offerId := identifier "offer-1"
      offerVersion := number 1
      holderId := identifier "holder-1"
      capabilityCommitment := commitment '3'
      totalUnits := number 10
      expiresAt := number 1000
      network := ⟨"zenon:mock", by decide⟩
      chainProfile := ⟨⟨MOCK_CHAIN_IDENTIFIER, by decide⟩,
        ⟨0, MOCK_GENESIS_MOMENTUM_HASH, by decide⟩⟩
      asset := identifier "asset-1"
      amount := ⟨"100", by decide⟩
      payee := identifier "payee-1"
      payer := identifier "holder-1"
      paymentResourceDigest := commitment '4'
      paymentRequirementDigest := commitment '5'
      paymentIntentDigest := commitment '6'
      grantFundingCommitment := commitment '7'
      evidenceVersion := none
      inclusionAuthorizationDigest := none
      confirmationPolicy := ⟨⟨"mock.momentum-included", by decide⟩, ⟨1, by decide⟩⟩ }
  property := by decide

variable (sha : Sha256)

def grantId : Identifier := (GrantIdentity.ofActivation sha activation).grantId

def request (requestId : Identifier) : RequestInput where
  grantId := grantId sha
  requestId := requestId
  method := ⟨"GET", by decide⟩
  routeId := identifier "route-1"
  canonicalBodyDigest := commitment '8'
  selectedContentType := evaluated "application/json"
  maxCostUnits := number 5

def reference (requestId : Identifier) : Value := referenceCodec.encode ⟨grantId sha, requestId⟩

/-- Callbacks that answer with the time 0 and the price 3. -/
def env : Env := ⟨fun _ => ⟨[], some (.num 0)⟩, fun _ => ⟨[], some (.num 3)⟩⟩

/-- A grant is funded, a request of it reserved and begun. -/
def calls : List (Call × Env) := [
  (.registerOffer (offerCodec.encode (offer (number 1))), env),
  (.activateGrantFromTrustedRecord (activationCodec.encode activation), env),
  (.reserveRequest (requestInputCodec.encode (request sha (identifier "request-1"))), env),
  (.beginExecution (reference sha (identifier "request-1")), env)]

end Sample

/-- The units of a grant whose request is executing. -/
theorem units_conserved_sample :
    let ran := runCalls .standard (Sample.calls .standard) .new
    (∀ k g, ran.2.ledger.grants.get? k = some g → g.Conserved ran.2.ledger)
      ∧ ∀ c ∈ ran.1, c.result ≠ .error .INVARIANT_VIOLATION :=
  units_conserved .new (run_runCalls .standard (Sample.calls .standard) .new)

end Credit
end ZenonX402
