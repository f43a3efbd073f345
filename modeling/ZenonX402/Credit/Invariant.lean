/-
# What every ledger of the credit model satisfies

`Ledger.Valid`: the grants and the indexes over them say the same
(`Indexed`), every request belongs to its grant and is priced within what both
sides allow (`Request.Scoped`), each grant's counters are what its requests
make of its total (`Grant.Balanced`), and there are no more requests than can be
hydrated. A write replaces one grant's counters and one of its requests
(`Valid.write`), so all an operation has to show is that the new record is
scoped and the new counters balance.

Key definitions: `Ledger.Valid`, `Ledger.IndexedBy`, `Request.Scoped`,
`Grant.Balanced`.
Key theorems: `Valid.write`, `Valid.addGrant`, `Valid.registerOffer`,
`Grant.Balanced.countersHold`.
-/
import ZenonX402.Credit.Operations
import Mathlib.Algebra.BigOperators.Ring.Finset

namespace ZenonX402
namespace Credit

open Js

/-! ### The counters of a grant -/

/-- The units a request holds of its grant. -/
def Request.heldCost (q : Request) : Int := if q.state.holds then q.costUnits.1 else 0

/-- The units a request has consumed of its grant. -/
def Request.consumedCost (q : Request) : Int := if q.state = .SUCCEEDED then q.costUnits.1 else 0

theorem Request.heldCost_nonneg (q : Request) : 0 ≤ q.heldCost := by
  have := q.costUnits.pos
  unfold heldCost
  split <;> omega

theorem Request.consumedCost_nonneg (q : Request) : 0 ≤ q.consumedCost := by
  have := q.costUnits.pos
  unfold consumedCost
  split <;> omega

/-- The counters of a grant are its total, split by its requests. -/
structure Grant.Balanced (g : Grant) (rs : JsMap String Request) : Prop where
  available : 0 ≤ g.availableUnits
  held : g.heldUnits = rs.sum Request.heldCost
  consumed : g.consumedUnits = rs.sum Request.consumedCost
  total : g.availableUnits + g.heldUnits + g.consumedUnits = g.totalUnits.1

namespace Grant.Balanced

variable {g : Grant} {rs : JsMap String Request}

theorem held_nonneg (h : g.Balanced rs) : 0 ≤ g.heldUnits :=
  h.held ▸ JsMap.sum_nonneg fun q => q.heldCost_nonneg

theorem consumed_nonneg (h : g.Balanced rs) : 0 ≤ g.consumedUnits :=
  h.consumed ▸ JsMap.sum_nonneg fun q => q.consumedCost_nonneg

/-- Counters that balance pass `#assertCounters`. -/
theorem countersHold (h : g.Balanced rs) : g.countersHold = true := by
  have ha := h.available
  have hh := h.held_nonneg
  have hc := h.consumed_nonneg
  have ht := h.total
  have hle := g.totalUnits.le
  have hcounter {n : Int} (h0 : 0 ≤ n) (h1 : n ≤ 9007199254740991) : isCounter n = true := by
    unfold isCounter
    exact decide_eq_true ⟨by omega, h0⟩
  have hsum := (add_add_eq_of_safe ha hh hc g.totalUnits.2.1).mpr ht
  unfold Grant.countersHold
  rw [hcounter ha (by omega), hcounter hh (by omega), hcounter hc (by omega), hsum]
  simp

/-- A request that holds units holds no more than the grant does. -/
theorem le_held (h : g.Balanced rs) {r : String} {q : Request} (hq : rs.get? r = some q)
    (hs : q.state.holds = true) : q.costUnits.1 ≤ g.heldUnits := by
  have hle := JsMap.le_sum (f := Request.heldCost) (fun _ q _ => q.heldCost_nonneg) hq
  rw [h.held]
  simpa [Request.heldCost, hs] using hle

/-- Replacing a request moves its units; the counters still balance when they
were moved the same way. -/
theorem set (h : g.Balanced rs) {g' : Grant} {r : String} {q' : Request}
    (hid : g'.toGrantIdentity = g.toGrantIdentity) (havail : 0 ≤ g'.availableUnits)
    (hheld : g'.heldUnits =
      g.heldUnits - ((rs.get? r).map Request.heldCost).getD 0 + q'.heldCost)
    (hcons : g'.consumedUnits =
      g.consumedUnits - ((rs.get? r).map Request.consumedCost).getD 0 + q'.consumedCost)
    (htotal : g'.availableUnits + g'.heldUnits + g'.consumedUnits =
      g.availableUnits + g.heldUnits + g.consumedUnits) : g'.Balanced (rs.set r q') where
  available := havail
  held := by rw [hheld, h.held, JsMap.sum_set]
  consumed := by rw [hcons, h.consumed, JsMap.sum_set]
  total := by rw [htotal, h.total, hid]

end Grant.Balanced

/-! ### A request of a grant -/

/-- A result exactly when SUCCEEDED, of the content type that was asked for. -/
def Request.resultConsistent (q : Request) : Bool := match q.cachedResult with
  | some cachedResult =>
      q.state == .SUCCEEDED && decide (cachedResult.contentType = q.selectedContentType)
  | none => q.state != .SUCCEEDED

/-- The request with identifier `r` of the grant `i`. -/
structure Request.Scoped (sha : Sha256) (i : GrantIdentity) (r : String) (q : Request) : Prop where
  grantId : q.grantId = i.grantId
  requestId : q.requestId.1 = r
  offerId : q.offerId = i.offerId
  offerVersion : q.offerVersion = i.offerVersion
  digest : q.requestDigest
    = requestDigestFor sha q.toRequestInput i.offerId i.offerVersion q.costUnits
  authorized : q.costUnits.1 ≤ q.maxCostUnits.1
  funded : q.costUnits.1 ≤ i.totalUnits.1
  result : q.resultConsistent = true

namespace Ledger

/-! ### The indexes over the grants -/

/-- `m` finds `value` of each grant under its `key`, and nothing else. -/
def IndexedBy {β : Type} (L : Ledger) (key : GrantIdentity → Option String)
    (value : GrantIdentity → β) (m : JsMap String β) : Prop :=
  ∀ k b, m.get? k = some b ↔ ∃ l i, L.identity? l = some i ∧ key i = some k ∧ value i = b

/-- The transaction a grant is found by: a reference that is an array finds none. -/
def transactionKey (i : GrantIdentity) : Option String :=
  if i.transactionId.depth = 0 then some i.transactionId.text else none

structure Indexed (sha : Sha256) (L : Ledger) : Prop where
  offerKeys : ∀ k o, L.offers.get? k = some o → k = offerKey o.offerId o.offerVersion
  grantKeys : ∀ k i, L.identity? k = some i → k = i.grantId.1
  derived : ∀ k i, L.identity? k = some i → i = .ofActivation sha i.activation
  offered : ∀ k i, L.identity? k = some i →
    ∃ o, L.offers.get? i.offerKey = some o ∧ offerScopeMatches o i.activation = true
  activations : L.IndexedBy (fun i => some i.activationId.1) GrantIdentity.stored L.activations
  byAuthoritySettlement : L.IndexedBy (fun i => some (authoritySettlementKey i.activation))
    GrantIdentity.activationId L.activationByAuthoritySettlement
  byTransaction : L.IndexedBy transactionKey GrantIdentity.activationId L.activationByTransaction
  byCapability : L.IndexedBy (fun i => some i.capabilityCommitment.1) GrantIdentity.grantId
    L.grantByCapability

/-- The maps agree with each other: what hydration builds before it looks at
the counters. -/
structure Structured (sha : Sha256) (L : Ledger) : Prop where
  indexed : L.Indexed sha
  requestsOf : ∀ k, (L.requests.get? k).isSome = (L.grants.get? k).isSome
  requestsScoped : ∀ g rs r q, L.grants.get? g.grantId.1 = some g →
    L.requests.get? g.grantId.1 = some rs →
    rs.get? r = some q → q.Scoped sha g.toGrantIdentity r

structure Valid (sha : Sha256) (L : Ledger) : Prop extends Structured sha L where
  balanced : ∀ g rs, L.grants.get? g.grantId.1 = some g → L.requests.get? g.grantId.1 = some rs →
    g.Balanced rs
  capacity : L.requestCount ≤ MAX_HYDRATED_REQUESTS

variable {sha : Sha256} {L : Ledger}

theorem identity?_of_get? {k : String} {g : Grant} (h : L.grants.get? k = some g) :
    L.identity? k = some g.toGrantIdentity := by
  unfold identity?
  rw [h, Option.map_some]

theorem Structured.grantKey (hL : L.Structured sha) {k : String} {g : Grant}
    (h : L.grants.get? k = some g) :
    k = g.grantId.1 :=
  hL.indexed.grantKeys k _ (identity?_of_get? h)

/-- A grant has its map of requests. -/
theorem Structured.requests (hL : L.Structured sha) {k : String} {g : Grant}
    (h : L.grants.get? k = some g) :
    ∃ rs, L.requests.get? k = some rs := by
  have := hL.requestsOf k
  rw [h] at this
  exact Option.isSome_iff_exists.mp this

/-- One entry of an index comes from one grant. -/
theorem IndexedBy.unique {β : Type} {key : GrantIdentity → Option String}
    {value : GrantIdentity → β} {m : JsMap String β} (h : L.IndexedBy key value m) {k l l' : String}
    {i j : GrantIdentity} (hi : L.identity? l = some i) (hj : L.identity? l' = some j)
    (hki : key i = some k) (hkj : key j = some k) : value i = value j := by
  have h1 := (h k (value i)).mpr ⟨l, i, hi, hki, rfl⟩
  have h2 := (h k (value j)).mpr ⟨l', j, hj, hkj, rfl⟩
  rw [h1] at h2
  exact Option.some.inj h2

theorem IndexedBy.congr {β : Type} {key : GrantIdentity → Option String} {value : GrantIdentity → β}
    {m : JsMap String β} {L' : Ledger} (h : L.IndexedBy key value m)
    (hid : ∀ k, L'.identity? k = L.identity? k) : L'.IndexedBy key value m := by
  intro k b
  rw [h k b]
  simp only [hid]

/-- An index that does not know the key of a new grant gains its entry. -/
theorem IndexedBy.add {β : Type} {key : GrantIdentity → Option String} {value : GrantIdentity → β}
    {m : JsMap String β} {L' : Ledger} (h : L.IndexedBy key value m) {i : GrantIdentity}
    (hnew : L.identity? i.grantId.1 = none)
    (hid : ∀ k, L'.identity? k = if k = i.grantId.1 then some i else L.identity? k)
    {k₀ : String} (hk : key i = some k₀) (hfree : m.get? k₀ = none) :
    L'.IndexedBy key value (m.set k₀ (value i)) := by
  intro k b
  rw [JsMap.get?_set]
  constructor
  · intro hb
    by_cases hkk : k = k₀
    · rw [if_pos hkk] at hb
      exact ⟨i.grantId.1, i, by rw [hid, if_pos rfl], hkk ▸ hk, Option.some.inj hb⟩
    · rw [if_neg hkk] at hb
      obtain ⟨l, j, hj, hkj, hv⟩ := (h k b).mp hb
      refine ⟨l, j, ?_, hkj, hv⟩
      rw [hid, if_neg, hj]
      intro e
      rw [e, hnew] at hj
      cases hj
  · rintro ⟨l, j, hj, hkj, rfl⟩
    rw [hid] at hj
    by_cases hl : l = i.grantId.1
    · rw [if_pos hl] at hj
      cases Option.some.inj hj
      rw [hk] at hkj
      rw [if_pos (Option.some.inj hkj).symm]
    · rw [if_neg hl] at hj
      have hkm := (h k (value j)).mpr ⟨l, j, hj, hkj, rfl⟩
      rw [if_neg, hkm]
      intro e
      rw [e, hfree] at hkm
      cases hkm

/-- An index that has no key for a new grant stays as it is. -/
theorem IndexedBy.skip {β : Type} {key : GrantIdentity → Option String} {value : GrantIdentity → β}
    {m : JsMap String β} {L' : Ledger} (h : L.IndexedBy key value m) {i : GrantIdentity}
    (hnew : L.identity? i.grantId.1 = none)
    (hid : ∀ k, L'.identity? k = if k = i.grantId.1 then some i else L.identity? k)
    (hk : key i = none) : L'.IndexedBy key value m := by
  intro k b
  rw [h k b]
  constructor
  · rintro ⟨l, j, hj, hkj, hv⟩
    refine ⟨l, j, ?_, hkj, hv⟩
    rw [hid, if_neg, hj]
    intro e
    rw [e, hnew] at hj
    cases hj
  · rintro ⟨l, j, hj, hkj, hv⟩
    rw [hid] at hj
    by_cases hl : l = i.grantId.1
    · rw [if_pos hl] at hj
      cases Option.some.inj hj
      rw [hk] at hkj
      cases hkj
    · rw [if_neg hl] at hj
      exact ⟨l, j, hj, hkj, hv⟩

/-- Two grants found by one key of some index. -/
def SharesKey (i j : GrantIdentity) : Prop :=
  i.grantId = j.grantId ∨ i.activationId = j.activationId
    ∨ authoritySettlementKey i.activation = authoritySettlementKey j.activation
    ∨ (∃ k, transactionKey i = some k ∧ transactionKey j = some k)
    ∨ i.capabilityCommitment = j.capabilityCommitment

/-- No two grants of a ledger share a key. -/
theorem Structured.unique (hL : L.Structured sha) {l l' : String} {i j : GrantIdentity}
    (hi : L.identity? l = some i) (hj : L.identity? l' = some j) (h : SharesKey i j) : i = j := by
  have hgrant (e : i.grantId = j.grantId) : i = j := by
    have hl := hL.indexed.grantKeys l i hi
    have hl' := hL.indexed.grantKeys l' j hj
    rw [hl, e, ← hl', hj] at hi
    exact (Option.some.inj hi).symm
  have hactivation (e : i.activationId = j.activationId) : i = j := by
    have hstored := hL.indexed.activations.unique hi hj rfl (congrArg (fun k => some k.1) e.symm)
    have hrecord : i.activation = j.activation := congrArg StoredActivation.record hstored
    rw [hL.indexed.derived l i hi, hL.indexed.derived l' j hj, hrecord]
  rcases h with h | h | h | ⟨k, hk, hk'⟩ | h
  · exact hgrant h
  · exact hactivation h
  · exact hactivation (hL.indexed.byAuthoritySettlement.unique hi hj rfl (congrArg some h.symm))
  · exact hactivation (hL.indexed.byTransaction.unique hi hj hk hk')
  · exact hgrant (hL.indexed.byCapability.unique hi hj rfl (congrArg (fun k => some k.1) h.symm))

/-! ### Writes -/

@[simp] theorem setGrant_requests (g : Grant) : (L.setGrant g).requests = L.requests := rfl

@[simp] theorem setRequest_grants (q : Request) : (L.setRequest q).grants = L.grants := rfl

theorem get?_setGrant (g : Grant) (k : String) :
    (L.setGrant g).grants.get? k = if k = g.grantId.1 then some g else L.grants.get? k :=
  JsMap.get?_set ..

/-- A grant written over itself in its place changes no identity. -/
theorem identity?_setGrant {g g' : Grant} (hg : L.grants.get? g.grantId.1 = some g)
    (hid : g'.toGrantIdentity = g.toGrantIdentity) (k : String) :
    (L.setGrant g').identity? k = L.identity? k := by
  unfold identity?
  rw [get?_setGrant, hid]
  by_cases hk : k = g.grantId.1
  · rw [if_pos hk, hk, hg, Option.map_some, Option.map_some, hid]
  · rw [if_neg hk]

theorem setGrant_self {g : Grant} (hg : L.grants.get? g.grantId.1 = some g) : L.setGrant g = L := by
  unfold setGrant
  rw [JsMap.set_of_get? hg]

theorem get?_setRequest {rs : JsMap String Request} {q : Request}
    (hrs : L.requests.get? q.grantId.1 = some rs) (k : String) :
    (L.setRequest q).requests.get? k =
      if k = q.grantId.1 then some (rs.set q.requestId.1 q) else L.requests.get? k := by
  unfold setRequest
  simp only [JsMap.get?_set, hrs, Option.getD_some]

theorem requestCount_eq (L : Ledger) :
    (L.requestCount : Int) = L.requests.sum fun rs => rs.size := by
  unfold requestCount JsMap.sum
  rw [Nat.cast_list_sum, List.map_map]
  rfl

/-- Writing a request counts one more only when it is new. -/
theorem requestCount_setRequest {rs : JsMap String Request} {q : Request}
    (hrs : L.requests.get? q.grantId.1 = some rs) :
    (L.setRequest q).requestCount =
      L.requestCount + if (rs.get? q.requestId.1).isSome then 0 else 1 := by
  have h := requestCount_eq (L.setRequest q)
  have h0 := requestCount_eq L
  have hset : (L.setRequest q).requests = L.requests.set q.grantId.1 (rs.set q.requestId.1 q) := by
    unfold setRequest
    rw [hrs, Option.getD_some]
  rw [hset, JsMap.sum_set, hrs, Option.map_some, Option.getD_some, JsMap.size_set, ← h0] at h
  omega

theorem Indexed.congr {L' : Ledger} (h : L.Indexed sha) (hoffers : L'.offers = L.offers)
    (hid : ∀ k, L'.identity? k = L.identity? k) (ha : L'.activations = L.activations)
    (hs : L'.activationByAuthoritySettlement = L.activationByAuthoritySettlement)
    (ht : L'.activationByTransaction = L.activationByTransaction)
    (hc : L'.grantByCapability = L.grantByCapability) : L'.Indexed sha where
  offerKeys := hoffers ▸ h.offerKeys
  grantKeys k i hi := h.grantKeys k i (hid k ▸ hi)
  derived k i hi := h.derived k i (hid k ▸ hi)
  offered k i hi := hoffers ▸ h.offered k i (hid k ▸ hi)
  activations := ha ▸ h.activations.congr hid
  byAuthoritySettlement := hs ▸ h.byAuthoritySettlement.congr hid
  byTransaction := ht ▸ h.byTransaction.congr hid
  byCapability := hc ▸ h.byCapability.congr hid

/-- A grant written over itself in its place. -/
theorem Structured.setGrant (hL : L.Structured sha) {g g' : Grant}
    (hg : L.grants.get? g.grantId.1 = some g) (hid : g'.toGrantIdentity = g.toGrantIdentity) :
    (L.setGrant g').Structured sha where
  indexed := hL.indexed.congr rfl (identity?_setGrant hg hid) rfl rfl rfl rfl
  requestsOf k := by
    have h := hL.requestsOf k
    rw [setGrant_requests, get?_setGrant, hid]
    by_cases hk : k = g.grantId.1
    · subst hk
      rw [if_pos rfl, h, hg]
      rfl
    · rw [if_neg hk, h]
  requestsScoped g₁ rs r q h1 hrs hq := by
    rw [get?_setGrant, hid] at h1
    by_cases hk : g₁.grantId.1 = g.grantId.1
    · rw [if_pos hk] at h1
      cases Option.some.inj h1
      rw [setGrant_requests, hid] at hrs
      rw [hid]
      exact hL.requestsScoped g rs r q hg hrs hq
    · rw [if_neg hk] at h1
      exact hL.requestsScoped g₁ rs r q h1 hrs hq

/-- A request of a grant written in its place. -/
theorem Structured.setRequest (hL : L.Structured sha) {g : Grant}
    {rs : JsMap String Request} {q : Request} (hg : L.grants.get? g.grantId.1 = some g)
    (hrs : L.requests.get? g.grantId.1 = some rs)
    (hq : q.Scoped sha g.toGrantIdentity q.requestId.1) : (L.setRequest q).Structured sha := by
  have hrs' : L.requests.get? q.grantId.1 = some rs := by rw [hq.grantId]; exact hrs
  refine ⟨hL.indexed.congr rfl (fun _ => rfl) rfl rfl rfl rfl, fun k => ?_,
    fun g₁ rs₁ r q₁ h1 hrs1 hq1 => ?_⟩
  · have h := hL.requestsOf k
    rw [get?_setRequest hrs', setRequest_grants, hq.grantId]
    by_cases hk : k = g.grantId.1
    · rw [if_pos hk, hk, hg]
      rfl
    · rw [if_neg hk]
      exact h
  · rw [get?_setRequest hrs', hq.grantId] at hrs1
    by_cases hk : g₁.grantId.1 = g.grantId.1
    · rw [if_pos hk] at hrs1
      rw [setRequest_grants, hk, hg] at h1
      cases Option.some.inj h1
      cases Option.some.inj hrs1
      rw [JsMap.get?_set] at hq1
      by_cases hr : r = q.requestId.1
      · rw [if_pos hr] at hq1
        cases Option.some.inj hq1
        exact hr ▸ hq
      · rw [if_neg hr] at hq1
        exact hL.requestsScoped g rs r q₁ hg hrs hq1
    · rw [if_neg hk] at hrs1
      exact hL.requestsScoped g₁ rs₁ r q₁ h1 hrs1 hq1

/-- New counters or a new lifecycle of a grant, with the requests as they are. -/
theorem Valid.setGrant (hL : L.Valid sha) {g g' : Grant} (hg : L.grants.get? g.grantId.1 = some g)
    (hid : g'.toGrantIdentity = g.toGrantIdentity)
    (hbal : ∀ rs, g.Balanced rs → g'.Balanced rs) : (L.setGrant g').Valid sha where
  toStructured := hL.toStructured.setGrant hg hid
  balanced g₁ rs h1 hrs := by
    rw [get?_setGrant, hid] at h1
    by_cases hk : g₁.grantId.1 = g.grantId.1
    · rw [if_pos hk] at h1
      cases Option.some.inj h1
      rw [setGrant_requests, hid] at hrs
      exact hbal rs (hL.balanced g rs hg hrs)
    · rw [if_neg hk] at h1
      exact hL.balanced g₁ rs h1 hrs
  capacity := hL.capacity

/-- One grant's counters and one of its requests are written: what is new must
be scoped and balance. -/
theorem Valid.write (hL : L.Valid sha) {g g' : Grant} {rs : JsMap String Request} {q : Request}
    (hg : L.grants.get? g.grantId.1 = some g) (hrs : L.requests.get? g.grantId.1 = some rs)
    (hid : g'.toGrantIdentity = g.toGrantIdentity)
    (hq : q.Scoped sha g.toGrantIdentity q.requestId.1)
    (hbal : g'.Balanced (rs.set q.requestId.1 q))
    (hcap : L.requestCount + (if (rs.get? q.requestId.1).isSome then 0 else 1)
      ≤ MAX_HYDRATED_REQUESTS) :
    ((L.setGrant g').setRequest q).Valid sha := by
  have hrs' : (L.setGrant g').requests.get? q.grantId.1 = some rs := by
    rw [hq.grantId]
    exact hrs
  have hg' : (L.setGrant g').grants.get? g'.grantId.1 = some g' := by
    rw [get?_setGrant, if_pos rfl]
  refine { toStructured := ?_, balanced := fun g₁ rs₁ h1 hrs1 => ?_, capacity := ?_ }
  · exact (hL.toStructured.setGrant hg hid).setRequest hg' (by rw [hid]; exact hrs)
      (by rw [hid]; exact hq)
  · rw [setRequest_grants, get?_setGrant, hid] at h1
    rw [get?_setRequest hrs', hq.grantId] at hrs1
    by_cases hk : g₁.grantId.1 = g.grantId.1
    · rw [if_pos hk] at h1 hrs1
      cases Option.some.inj h1
      cases Option.some.inj hrs1
      exact hbal
    · rw [if_neg hk] at h1 hrs1
      exact hL.balanced g₁ rs₁ h1 hrs1
  · rw [requestCount_setRequest hrs']
    exact hcap

/-! ### All requests -/

/-- Every request of the ledger, grant by grant. -/
def allRequests (L : Ledger) : List Request := L.requests.values.flatMap JsMap.values

/-- What a sum over requests owes to the grant `k`. -/
def costOf (f : Request → Int) (k : String) (ps : List Request) : Int :=
  (ps.map fun q => if q.grantId.1 = k then f q else 0).sum

theorem costOf_append (f : Request → Int) (k : String) (ps qs : List Request) :
    costOf f k (ps ++ qs) = costOf f k ps + costOf f k qs := by
  unfold costOf
  rw [List.map_append, List.sum_append]

theorem costOf_perm (f : Request → Int) (k : String) {ps qs : List Request} (h : ps.Perm qs) :
    costOf f k ps = costOf f k qs := (h.map _).sum_eq

/-- A request that is in the ledger is under its keys. -/
theorem Structured.mem_allRequests (hL : L.Structured sha) {q : Request} : q ∈ L.allRequests ↔
    ∃ g rs, L.grants.get? g.grantId.1 = some g ∧ L.requests.get? g.grantId.1 = some rs
      ∧ rs.get? q.requestId.1 = some q ∧ q.grantId = g.grantId := by
  unfold allRequests
  rw [List.mem_flatMap]
  constructor
  · rintro ⟨rs, hrs, hq⟩
    obtain ⟨k, hk⟩ := JsMap.mem_values_iff.mp hrs
    obtain ⟨r, hr⟩ := JsMap.mem_values_iff.mp hq
    have hsome := hL.requestsOf k
    rw [hk] at hsome
    obtain ⟨g, hg⟩ := Option.isSome_iff_exists.mp hsome.symm
    have hkey := hL.grantKey hg
    rw [hkey] at hg hk
    have hs := hL.requestsScoped g rs r q hg hk hr
    exact ⟨g, rs, hg, hk, by rw [hs.requestId]; exact hr, hs.grantId⟩
  · rintro ⟨g, rs, -, hrs, hq, -⟩
    exact ⟨rs, JsMap.mem_values_iff.mpr ⟨_, hrs⟩, JsMap.mem_values_iff.mpr ⟨_, hq⟩⟩

/-- What all requests owe to a grant is what its own requests do. -/
theorem Structured.costOf_allRequests (hL : L.Structured sha) (f : Request → Int) (k : String) :
    costOf f k L.allRequests = ((L.requests.get? k).map fun rs => rs.sum f).getD 0 := by
  rw [← JsMap.sum_entries_ite]
  have hentry : ∀ e ∈ L.requests.entries, costOf f k e.2.values
      = if e.1 = k then e.2.sum f else 0 := by
    rintro ⟨l, rs⟩ he
    have hrs := JsMap.mem_entries_iff.mp he
    have hgrant : ∀ q ∈ rs.values, q.grantId.1 = l := by
      intro q hq
      obtain ⟨r, hr⟩ := JsMap.mem_values_iff.mp hq
      have hsome := hL.requestsOf l
      rw [hrs] at hsome
      obtain ⟨g, hg⟩ := Option.isSome_iff_exists.mp hsome.symm
      have hkey := hL.grantKey hg
      rw [hkey] at hg hrs ⊢
      rw [(hL.requestsScoped g rs r q hg hrs hr).grantId]
    unfold costOf JsMap.sum
    rw [List.map_congr_left fun q hq => by rw [hgrant q hq]]
    by_cases hl : l = k
    · simp [hl]
    · simp [hl]
  have hall : ∀ es : List (String × JsMap String Request),
      (∀ e ∈ es, costOf f k e.2.values = if e.1 = k then e.2.sum f else 0) →
      costOf f k ((es.map Prod.snd).flatMap JsMap.values) =
        (es.map fun e => if e.1 = k then e.2.sum f else 0).sum := by
    intro es
    induction es with
    | nil => intro _; rfl
    | cons e es ih =>
      intro h
      rw [List.map_cons, List.flatMap_cons, costOf_append, h e (List.mem_cons_self ..),
        ih fun e' he' => h e' (List.mem_cons_of_mem _ he'), List.map_cons, List.sum_cons]
  exact hall _ hentry

/-- A new request is added to the others. -/
theorem allRequests_setRequest {rs : JsMap String Request} {q : Request}
    (hrs : L.requests.get? q.grantId.1 = some rs) (hnew : rs.get? q.requestId.1 = none) :
    (L.setRequest q).allRequests.Perm (L.allRequests ++ [q]) := by
  have hvalues : (rs.set q.requestId.1 q).values = rs.values ++ [q] := by
    unfold JsMap.values
    rw [JsMap.entries_set_new q hnew, List.map_append, List.map_singleton]
  unfold allRequests setRequest
  rw [hrs, Option.getD_some]
  refine JsMap.flatMap_set hrs ?_
  rw [hvalues]

/-! ### New offers and new grants -/

theorem valid_empty (sha : Sha256) : Ledger.empty.Valid sha where
  indexed :=
    { offerKeys := fun k o h => by cases h
      grantKeys := fun k i h => by cases h
      derived := fun k i h => by cases h
      offered := fun k i h => by cases h
      activations := fun k b => ⟨fun h => (by cases h), fun ⟨_, _, h, _⟩ => (by cases h)⟩
      byAuthoritySettlement := fun k b => ⟨fun h => (by cases h), fun ⟨_, _, h, _⟩ => (by cases h)⟩
      byTransaction := fun k b => ⟨fun h => (by cases h), fun ⟨_, _, h, _⟩ => (by cases h)⟩
      byCapability := fun k b => ⟨fun h => (by cases h), fun ⟨_, _, h, _⟩ => (by cases h)⟩ }
  requestsOf _ := rfl
  requestsScoped g rs r q h := by cases h
  balanced g rs h := by cases h
  capacity := Nat.zero_le _

/-- A new offer changes no grant. -/
theorem Valid.registerOffer (hL : L.Valid sha) {o : Offer}
    (hnew : L.offers.get? (offerKey o.offerId o.offerVersion) = none) :
    { L with offers := L.offers.set (offerKey o.offerId o.offerVersion) o }.Valid sha where
  indexed :=
    { hL.indexed with
      offerKeys := fun k p hp => by
        rw [JsMap.get?_set] at hp
        by_cases hk : k = offerKey o.offerId o.offerVersion
        · rw [if_pos hk] at hp
          cases Option.some.inj hp
          exact hk
        · rw [if_neg hk] at hp
          exact hL.indexed.offerKeys k p hp
      offered := fun k i hi => by
        obtain ⟨p, hp, hscope⟩ := hL.indexed.offered k i hi
        refine ⟨p, ?_, hscope⟩
        rw [JsMap.get?_set, if_neg, hp]
        intro e
        rw [e, hnew] at hp
        cases hp }
  requestsOf := hL.requestsOf
  requestsScoped := hL.requestsScoped
  balanced := hL.balanced
  capacity := hL.capacity

/-- What must be free for a grant to be added: its own key and the key of
every index. -/
structure Fresh (L : Ledger) (i : GrantIdentity) : Prop where
  grant : L.grants.get? i.grantId.1 = none
  activation : L.activations.get? i.activationId.1 = none
  authoritySettlement :
    L.activationByAuthoritySettlement.get? (authoritySettlementKey i.activation) = none
  transaction : L.activationByTransaction? i.activation = none
  capability : L.grantByCapability.get? i.capabilityCommitment.1 = none

/-- A grant that shares no key with those that are there is fresh. -/
theorem Structured.fresh (hL : L.Structured sha) {i : GrantIdentity}
    (h : ∀ l j, L.identity? l = some j → ¬ SharesKey j i) : L.Fresh i := by
  have hnone {β : Type} {key : GrantIdentity → Option String} {value : GrantIdentity → β}
      {m : JsMap String β} (hm : L.IndexedBy key value m) {k : String}
      (hshare : ∀ j, key j = some k → SharesKey j i) : m.get? k = none := by
    cases hget : m.get? k with
    | none => rfl
    | some b =>
      obtain ⟨l, j, hj, hkj, -⟩ := (hm k b).mp hget
      exact absurd (hshare j hkj) (h l j hj)
  refine ⟨?_, ?_, ?_, ?_, ?_⟩
  · cases hget : L.grants.get? i.grantId.1 with
    | none => rfl
    | some g =>
      have hid := identity?_of_get? hget
      have hkey := hL.grantKey hget
      exact absurd (.inl (Subtype.ext hkey.symm)) (h _ _ hid)
  · exact hnone hL.indexed.activations fun j hj => .inr (.inl (Subtype.ext (Option.some.inj hj)))
  · exact hnone hL.indexed.byAuthoritySettlement fun j hj => .inr (.inr (.inl (Option.some.inj hj)))
  · unfold activationByTransaction?
    split
    · rename_i hdepth
      refine hnone hL.indexed.byTransaction fun j hj => .inr (.inr (.inr (.inl ⟨_, hj, ?_⟩)))
      exact if_pos hdepth
    · rfl
  · exact hnone hL.indexed.byCapability fun j hj =>
      .inr (.inr (.inr (.inr (Subtype.ext (Option.some.inj hj)))))

theorem identity?_addGrant (g : Grant) (k : String) : (L.addGrant g).identity? k =
    if k = g.grantId.1 then some g.toGrantIdentity else L.identity? k := by
  unfold identity? addGrant
  rw [JsMap.get?_set]
  split <;> rfl

theorem Indexed.addGrant (h : L.Indexed sha) {g : Grant} (hfresh : L.Fresh g.toGrantIdentity)
    (hderived : g.toGrantIdentity = .ofActivation sha g.activation) {o : Offer}
    (ho : L.offers.get? g.offerKey = some o) (hscope : offerScopeMatches o g.activation = true) :
    (L.addGrant g).Indexed sha := by
  have hnew : L.identity? g.grantId.1 = none := by
    unfold identity?
    rw [hfresh.grant, Option.map_none]
  have hid := identity?_addGrant (L := L) g
  refine
    { offerKeys := h.offerKeys
      grantKeys := fun k i hi => ?_
      derived := fun k i hi => ?_
      offered := fun k i hi => ?_
      activations := h.activations.add hnew hid rfl hfresh.activation
      byAuthoritySettlement := h.byAuthoritySettlement.add hnew hid rfl hfresh.authoritySettlement
      byTransaction := ?_
      byCapability := h.byCapability.add hnew hid rfl hfresh.capability }
  · rw [hid] at hi
    split at hi
    · cases Option.some.inj hi
      assumption
    · exact h.grantKeys k i hi
  · rw [hid] at hi
    split at hi
    · cases Option.some.inj hi
      exact hderived
    · exact h.derived k i hi
  · rw [hid] at hi
    split at hi
    · cases Option.some.inj hi
      exact ⟨o, ho, hscope⟩
    · exact h.offered k i hi
  · have htx := hfresh.transaction
    unfold activationByTransaction? at htx
    unfold Ledger.addGrant
    by_cases hdepth : g.transactionId.depth = 0
    · have hdepth' : g.activation.1.transactionId.depth = 0 := hdepth
      rw [if_pos hdepth'] at htx
      simp only [if_pos hdepth]
      exact h.byTransaction.add hnew hid (if_pos hdepth) htx
    · simp only [if_neg hdepth]
      exact h.byTransaction.skip hnew hid (if_neg hdepth)

/-- A new grant balances: nothing of its total is held or consumed. -/
theorem balanced_minted (sha : Sha256) (a : Activation) : (mintedGrant sha a).Balanced .empty where
  available := a.1.totalUnits.pos.le
  held := rfl
  consumed := rfl
  total := by
    change a.1.totalUnits.1 + 0 + 0 = a.1.totalUnits.1
    omega

theorem get?_addGrant (g : Grant) (k : String) : (L.addGrant g).grants.get? k =
    if k = g.grantId.1 then some g else L.grants.get? k := JsMap.get?_set ..

theorem requests_addGrant (g : Grant) (k : String) : (L.addGrant g).requests.get? k =
    if k = g.grantId.1 then some .empty else L.requests.get? k := JsMap.get?_set ..

theorem Structured.addGrant (hL : L.Structured sha) {g : Grant} (hfresh : L.Fresh g.toGrantIdentity)
    (hderived : g.toGrantIdentity = .ofActivation sha g.activation) {o : Offer}
    (ho : L.offers.get? g.offerKey = some o) (hscope : offerScopeMatches o g.activation = true) :
    (L.addGrant g).Structured sha := by
  refine ⟨hL.indexed.addGrant hfresh hderived ho hscope, fun k => ?_, fun g₁ rs r q h1 hrs hq => ?_⟩
  · rw [get?_addGrant, requests_addGrant]
    split
    · rfl
    · exact hL.requestsOf k
  · rw [get?_addGrant] at h1
    rw [requests_addGrant] at hrs
    split at h1
    · rename_i hk
      rw [if_pos hk] at hrs
      cases Option.some.inj hrs
      cases hq
    · rename_i hk
      rw [if_neg hk] at hrs
      exact hL.requestsScoped g₁ rs r q h1 hrs hq

theorem requestCount_addGrant (hL : L.Structured sha) {g : Grant}
    (hnew : L.grants.get? g.grantId.1 = none) :
    (L.addGrant g).requestCount = L.requestCount := by
  have hnone : L.requests.get? g.grantId.1 = none := by
    have := hL.requestsOf g.grantId.1
    rw [hnew] at this
    simpa using this
  have hcount := requestCount_eq (L.addGrant g)
  rw [show (L.addGrant g).requests = L.requests.set g.grantId.1 .empty from rfl,
    JsMap.sum_set, hnone, ← requestCount_eq] at hcount
  simp only [Option.map_none, Option.getD_none, JsMap.size_empty, Nat.cast_zero] at hcount
  omega

theorem Valid.addGrant (hL : L.Valid sha) {g : Grant} (hfresh : L.Fresh g.toGrantIdentity)
    (hderived : g.toGrantIdentity = .ofActivation sha g.activation)
    (hbal : g.Balanced .empty) {o : Offer} (ho : L.offers.get? g.offerKey = some o)
    (hscope : offerScopeMatches o g.activation = true) :
    (L.addGrant g).Valid sha where
  toStructured := hL.toStructured.addGrant hfresh hderived ho hscope
  balanced g₁ rs h1 hrs := by
    rw [get?_addGrant] at h1
    rw [requests_addGrant] at hrs
    split at h1
    · rename_i hk
      rw [if_pos hk] at hrs
      cases Option.some.inj h1
      cases Option.some.inj hrs
      exact hbal
    · rename_i hk
      rw [if_neg hk] at hrs
      exact hL.balanced g₁ rs h1 hrs
  capacity := by
    rw [requestCount_addGrant hL.toStructured hfresh.grant]
    exact hL.capacity

end Ledger
end Credit
end ZenonX402
