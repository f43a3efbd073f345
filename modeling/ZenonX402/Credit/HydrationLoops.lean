/-
# What the loops of hydration check

For each loop of `fromState`: exactly when a round succeeds and what it then
adds (`hydrateOffer_ok`, `normalizeExportedGrant_ok`, `admitGrant_ok`,
`hydrateRequest_ok`), and what holds of the maps after the records `ps` have
been processed (`OffersLoaded`, `GrantsLoaded`, `RequestsLoaded`). A snapshot
that is accepted thus gives a valid ledger with the same records, and the
records of a valid ledger pass every check.

Key definitions: `offerLt`, `grantLt`, `requestLt`, `Grant.exported`,
`OffersLoaded`, `GrantsLoaded`, `RequestsLoaded`.
Key theorems: `hydrateRequest_ok`, `RequestsLoaded.round`.
-/
import ZenonX402.Credit.Hydration
import ZenonX402.Lib.Loop

namespace ZenonX402
namespace Credit

open Js

/-! ### The orders of an export -/

def offerLt (a b : Offer) : Prop :=
  a.offerId.1 < b.offerId.1 ∨ a.offerId = b.offerId ∧ a.offerVersion.1 < b.offerVersion.1

def grantLt (a b : Grant) : Prop := a.grantId.1 < b.grantId.1

def requestLt (a b : Request) : Prop :=
  a.grantId.1 < b.grantId.1 ∨ a.grantId = b.grantId ∧ a.requestId.1 < b.requestId.1

instance : IsTrans Offer offerLt where
  trans a b c hab hbc := by
    rcases hab with h1 | ⟨e1, h1⟩ <;> rcases hbc with h2 | ⟨e2, h2⟩
    · exact .inl (lt_trans h1 h2)
    · exact .inl (e2 ▸ h1)
    · exact .inl (e1 ▸ h2)
    · exact .inr ⟨e1.trans e2, lt_trans h1 h2⟩

instance : IsTrans Grant grantLt where
  trans _ _ _ := lt_trans

instance : IsTrans Request requestLt where
  trans a b c hab hbc := by
    rcases hab with h1 | ⟨e1, h1⟩ <;> rcases hbc with h2 | ⟨e2, h2⟩
    · exact .inl (lt_trans h1 h2)
    · exact .inl (e2 ▸ h1)
    · exact .inl (e1 ▸ h2)
    · exact .inr ⟨e1.trans e2, lt_trans h1 h2⟩

/-- A request before another has another key. -/
theorem requestLt_ne {a b : Request} (h : requestLt a b) (hg : a.grantId = b.grantId) :
    a.requestId ≠ b.requestId := by
  rcases h with h | ⟨-, h⟩
  · rw [hg] at h
    exact absurd h (lt_irrefl _)
  · exact fun e => absurd (e ▸ h) (lt_irrefl _)

theorem offerKey_inj {i j : Identifier} {n m : PositiveInt} (h : offerKey i n = offerKey j m) :
    i = j ∧ n = m := by
  have hjson (i : Identifier) (n : PositiveInt) : Value.Json (.arr [.str i.1, .num n.1]) := by
    refine .arr fun x hx => ?_
    rcases List.mem_cons.mp hx with rfl | hx
    · exact .str _
    · rw [List.mem_singleton.mp hx]
      exact .num n.2.1
  have hsame := (canonicalJson_inj (hjson i n) (hjson j m)).mp h
  simp only [Value.Same, Value.canonical, Value.canonicalList, Value.arr.injEq, List.cons.injEq,
    Value.str.injEq, Value.num.injEq, and_true] at hsame
  exact ⟨Subtype.ext hsame.1, Subtype.ext hsame.2⟩

/-! ### Offers -/

theorem hydrateOffer_ok {acc acc' : Option Offer × JsMap String Offer} {o : Offer} :
    hydrateOffer acc o = .ok acc' ↔ (∀ p ∈ acc.1, offerLt p o)
      ∧ acc.2.get? (offerKey o.offerId o.offerVersion) = none
      ∧ acc' = (some o, acc.2.set (offerKey o.offerId o.offerVersion) o) := by
  obtain ⟨prior, offers⟩ := acc
  have horder (p : Offer) : ¬ (o.offerId.1 < p.offerId.1
      ∨ p.offerId = o.offerId ∧ o.offerVersion.1 ≤ p.offerVersion.1) ↔ offerLt p o := by
    rw [not_or, not_lt, not_and, not_le]
    constructor
    · rintro ⟨hle, hv⟩
      rcases lt_or_eq_of_le hle with h | h
      · exact .inl h
      · exact .inr ⟨Subtype.ext h, hv (Subtype.ext h)⟩
    · rintro (h | ⟨e, h⟩)
      · exact ⟨h.le, fun e => absurd (e ▸ h) (lt_irrefl _)⟩
      · exact ⟨e ▸ le_refl _, fun _ => h⟩
  unfold hydrateOffer
  simp only [bind_ok, failStateIf_ok, not_exists, not_and]
  constructor
  · rintro ⟨_, h1, _, h2, h3⟩
    refine ⟨fun p hp => (horder p).mp (h1 p hp), ?_, (Except.ok.inj h3).symm⟩
    simpa using h2
  · rintro ⟨h1, h2, rfl⟩
    exact ⟨(), fun p hp => (horder p).mpr (h1 p hp), (), by simp [h2], rfl⟩

/-- The map after the offers `ps`. -/
structure OffersLoaded (ps : List Offer) (acc : Option Offer × JsMap String Offer) : Prop where
  prior : acc.1 = ps.getLast?
  sorted : ps.Pairwise offerLt
  entries : acc.2.entries = ps.map fun o => (offerKey o.offerId o.offerVersion, o)

theorem OffersLoaded.nil : OffersLoaded [] (none, .empty) := ⟨rfl, .nil, rfl⟩

theorem OffersLoaded.round {ps : List Offer} {o : Offer}
    {acc acc' : Option Offer × JsMap String Offer} (h : OffersLoaded ps acc)
    (hok : hydrateOffer acc o = .ok acc') : OffersLoaded (ps ++ [o]) acc' := by
  obtain ⟨hlt, hnew, rfl⟩ := hydrateOffer_ok.mp hok
  refine ⟨by simp, pairwise_concat h.sorted (h.prior ▸ hlt), ?_⟩
  rw [JsMap.entries_set_new o hnew, h.entries, List.map_append, List.map_singleton]

theorem OffersLoaded.get? {ps : List Offer} {acc : Option Offer × JsMap String Offer}
    (h : OffersLoaded ps acc) {k : String} {o : Offer} :
    acc.2.get? k = some o ↔ o ∈ ps ∧ k = offerKey o.offerId o.offerVersion := by
  rw [← JsMap.mem_entries_iff, h.entries, List.mem_map]
  constructor
  · rintro ⟨p, hp, he⟩
    cases he
    exact ⟨hp, rfl⟩
  · rintro ⟨ho, rfl⟩
    exact ⟨o, ho, rfl⟩

/-- The next offer of a sorted list is accepted. -/
theorem OffersLoaded.next {ps rest : List Offer} {o : Offer}
    {acc : Option Offer × JsMap String Offer} (h : OffersLoaded ps acc)
    (hsorted : (ps ++ o :: rest).Pairwise offerLt) :
    ∃ acc', hydrateOffer acc o = .ok acc' := by
  have hlt : ∀ p ∈ ps, offerLt p o := fun p hp =>
    (List.pairwise_append.mp hsorted).2.2 p hp o (List.mem_cons_self ..)
  refine ⟨_, hydrateOffer_ok.mpr ⟨fun p hp => hlt p ?_, ?_, rfl⟩⟩
  · rw [h.prior] at hp
    exact List.mem_of_getLast? hp
  · cases hget : acc.2.get? (offerKey o.offerId o.offerVersion) with
    | none => rfl
    | some p =>
      obtain ⟨hp, hkey⟩ := h.get?.mp hget
      obtain ⟨hid, hv⟩ := offerKey_inj hkey
      rcases hlt p hp with hl | ⟨-, hl⟩
      · rw [hid] at hl
        exact absurd hl (lt_irrefl _)
      · rw [hv] at hl
        exact absurd hl (lt_irrefl _)

/-! ### Grants -/

/-- A counter as an exported grant has it; zero for one that is out of range. -/
def toCounter (n : Int) : {n : Int // n.natAbs ≤ 9007199254740991 ∧ decide (0 ≤ n) = true} :=
  if h : n.natAbs ≤ 9007199254740991 ∧ decide (0 ≤ n) = true then ⟨n, h⟩ else ⟨0, by decide⟩

theorem toCounter_val {n : Int} (h : isCounter n = true) : (toCounter n).1 = n := by
  unfold isCounter at h
  have h' : n.natAbs ≤ 9007199254740991 ∧ decide (0 ≤ n) = true := by simpa using h
  unfold toCounter
  rw [dif_pos h']

theorem toCounter_self (n : {n : Int // n.natAbs ≤ 9007199254740991 ∧ decide (0 ≤ n) = true}) :
    toCounter n.1 = n := by
  unfold toCounter
  rw [dif_pos n.2]

/-- The fields of a grant as it is exported. -/
def Grant.exported (g : Grant) : ExportedGrant where
  grantId := g.grantId
  activationId := g.activationId
  activation := g.stored
  sourceSettlementId := g.activation.1.sourceSettlementId
  transactionId := g.transactionId
  providerId := g.activation.1.providerId
  serviceId := g.activation.1.serviceId
  resourceId := g.activation.1.resourceId
  offerId := g.offerId
  offerVersion := g.offerVersion
  holderId := g.activation.1.holderId
  capabilityCommitment := g.capabilityCommitment
  totalUnits := g.totalUnits
  expiresAt := g.expiresAt
  intentId := g.activation.1.paymentIntentDigest
  requirementId := g.activation.1.paymentRequirementDigest
  lifecycle := g.lifecycle
  availableUnits := toCounter g.availableUnits
  heldUnits := toCounter g.heldUnits
  consumedUnits := toCounter g.consumedUnits

theorem Grant.counters_of_countersHold {g : Grant} (h : g.countersHold = true) :
    isCounter g.availableUnits = true ∧ isCounter g.heldUnits = true
      ∧ isCounter g.consumedUnits = true
      ∧ g.totalUnits.1 = Js.add (Js.add g.availableUnits g.heldUnits) g.consumedUnits := by
  unfold countersHold at h
  simpa [and_assoc] using h

/-- What is exported of a grant is what its record says. -/
theorem exportedGrantCodec_encode {g : Grant} (h : g.countersHold = true) :
    exportedGrantCodec.encode g.exported = exportedGrant g := by
  obtain ⟨ha, hh, hc, -⟩ := Grant.counters_of_countersHold h
  unfold exportedGrant
  rw [← toCounter_val ha, ← toCounter_val hh, ← toCounter_val hc]
  rfl

/-- A grant whose identity is the one its activation record gives it, with
counters that add up, funded by a transaction that is named by a string. -/
structure Grant.Exportable (sha : Sha256) (g : Grant) : Prop where
  derived : g.toGrantIdentity = .ofActivation sha g.activation
  counters : g.countersHold = true
  plain : g.transactionId.depth = 0

theorem normalizeExportedGrant_ok {sha : Sha256} {value : ExportedGrant} {g : Grant} :
    normalizeExportedGrant sha value = .ok g ↔ g.Exportable sha ∧ value = g.exported := by
  unfold normalizeExportedGrant
  simp only [bind_ok, failStateIf_ok, not_or, not_not]
  constructor
  · rintro ⟨_, ⟨ha1, ha2⟩, _, hgid, _, ⟨h1, h2, h3, h4, h5, h6, h7, h8, h9, h10, h11, h12, h13⟩,
      _, htotal, hg⟩
    have hg := (Except.ok.inj hg).symm
    have hstrict : value.transactionId.depth = 0 ∧ value.activation.record.1.transactionId.depth = 0
        ∧ value.transactionId.text = value.activation.record.1.transactionId.text := by
      have : value.transactionId.strictEq value.activation.record.1.transactionId = true := by
        simpa using h2
      simpa [Codec.Coerced.strictEq, and_assoc] using this
    have htx : value.transactionId = value.activation.record.1.transactionId := by
      obtain ⟨hd, hd', ht⟩ := hstrict
      generalize value.transactionId = t at *
      generalize value.activation.record.1.transactionId = u at *
      obtain ⟨d, s, _⟩ := t
      obtain ⟨d', s', _⟩ := u
      simp only at hd hd' ht
      subst hd hd' ht
      rfl
    have hcounter (n : {n : Int // n.natAbs ≤ 9007199254740991 ∧ decide (0 ≤ n) = true}) :
        isCounter n.1 = true := by
      have := n.2
      simpa [isCounter] using this
    refine ⟨⟨?_, ?_, ?_⟩, ?_⟩
    · rw [hg]
      rfl
    · rw [hg]
      unfold Grant.countersHold
      simp only [hcounter, Bool.true_and, beq_iff_eq]
      exact htotal
    · rw [hg]
      exact hstrict.2.1
    · rw [hg]
      obtain ⟨v1, v2, ⟨v3, v4⟩, v5, v6, v7, v8, v9, v10, v11, v12, v13, v14, v15, v16, v17,
        v18, v19, v20, v21⟩ := value
      simp only at *
      subst hgid ha2 h1 htx h3 h4 h5 h6 h7 h8 h9 h10 h11 h12 h13
      rw [ha1]
      unfold Grant.exported
      simp only [toCounter_self]
      rfl
  · rintro ⟨⟨hderived, hcounters, hplain⟩, rfl⟩
    obtain ⟨ha, hh, hc, htotal⟩ := Grant.counters_of_countersHold hcounters
    have hid : g.activationId = (GrantIdentity.ofActivation sha g.activation).activationId :=
      congrArg GrantIdentity.activationId hderived
    have hgid : g.grantId = (GrantIdentity.ofActivation sha g.activation).grantId :=
      congrArg GrantIdentity.grantId hderived
    refine ⟨(), ⟨hid, hid⟩, (), hgid, (),
      ⟨rfl, ?_, rfl, rfl, rfl, rfl, rfl, rfl, rfl, rfl, rfl, rfl, rfl⟩, (), ?_, ?_⟩
    · have hp : g.activation.1.transactionId.depth = 0 := hplain
      simp [Grant.exported, Codec.Coerced.strictEq, GrantIdentity.transactionId,
        GrantIdentity.stored, hp]
    · simp only [Grant.exported, toCounter_val ha, toCounter_val hh, toCounter_val hc]
      exact htotal
    · simp only [Grant.exported, toCounter_val ha, toCounter_val hh, toCounter_val hc]
      refine congrArg Except.ok ?_
      change Grant.mk (GrantIdentity.ofActivation sha g.activation) _ _ _ _ = g
      rw [← hderived]

theorem admitGrant_ok {acc acc' : Option Grant × Ledger} {g : Grant} :
    admitGrant acc g = .ok acc' ↔ (∀ p ∈ acc.1, grantLt p g)
      ∧ (∃ o, acc.2.offers.get? g.offerKey = some o ∧ offerScopeMatches o g.activation = true)
      ∧ acc.2.Fresh g.toGrantIdentity ∧ acc' = (some g, acc.2.addGrant g) := by
  obtain ⟨prior, L⟩ := acc
  unfold admitGrant
  simp only [bind_ok, failStateIf_ok, not_exists, not_and, not_le, not_forall, not_not,
    Bool.not_eq_false, Option.mem_def, exists_prop]
  constructor
  · rintro ⟨_, h1, _, h2, _, h3, h4⟩
    exact ⟨h1, h2, h3, (Except.ok.inj h4).symm⟩
  · rintro ⟨h1, h2, h3, rfl⟩
    exact ⟨(), h1, (), h2, (), h3, rfl⟩

/-- The ledger after the grants `gs`. -/
structure GrantsLoaded (sha : Sha256) (offers : JsMap String Offer) (gs : List Grant)
    (acc : Option Grant × Ledger) : Prop where
  prior : acc.1 = gs.getLast?
  sorted : gs.Pairwise grantLt
  entries : acc.2.grants.entries = gs.map fun g => (g.grantId.1, g)
  offers : acc.2.offers = offers
  structured : acc.2.Structured sha
  noRequests : ∀ k rs, acc.2.requests.get? k = some rs → rs = .empty

section GrantsLoaded

variable {sha : Sha256} {offers : JsMap String Offer} {gs : List Grant}
    {acc acc' : Option Grant × Ledger}

theorem GrantsLoaded.nil (h : ∀ k o, offers.get? k = some o →
      k = offerKey o.offerId o.offerVersion) :
    GrantsLoaded sha offers [] (none, { Ledger.empty with offers := offers }) where
  prior := rfl
  sorted := .nil
  entries := rfl
  offers := rfl
  structured :=
    { indexed := { (Ledger.valid_empty sha).indexed with
        offerKeys := h
        offered := fun k i hi => by cases hi }
      requestsOf := fun _ => rfl
      requestsScoped := fun g rs r q hg => by cases hg }
  noRequests k rs h := by cases h

theorem GrantsLoaded.round (h : GrantsLoaded sha offers gs acc) {g : Grant} (hg : g.Exportable sha)
    (hok : admitGrant acc g = .ok acc') : GrantsLoaded sha offers (gs ++ [g]) acc' := by
  obtain ⟨hlt, ⟨o, ho, hscope⟩, hfresh, rfl⟩ := admitGrant_ok.mp hok
  refine ⟨by simp, pairwise_concat h.sorted (h.prior ▸ hlt), ?_, h.offers, ?_, fun k rs hrs => ?_⟩
  · change (acc.2.grants.set g.grantId.1 g).entries = _
    rw [JsMap.entries_set_new g hfresh.grant, h.entries, List.map_append, List.map_singleton]
  · exact h.structured.addGrant hfresh hg.derived ho hscope
  · rw [Ledger.requests_addGrant] at hrs
    split at hrs
    · exact (Option.some.inj hrs).symm
    · exact h.noRequests k rs hrs

theorem GrantsLoaded.get? (h : GrantsLoaded sha offers gs acc) {k : String} {g : Grant} :
    acc.2.grants.get? k = some g ↔ g ∈ gs ∧ k = g.grantId.1 := by
  rw [← JsMap.mem_entries_iff, h.entries, List.mem_map]
  constructor
  · rintro ⟨p, hp, he⟩
    cases he
    exact ⟨hp, rfl⟩
  · rintro ⟨hg, rfl⟩
    exact ⟨g, hg, rfl⟩

/-- The next grant of a ledger is accepted, when the grants come in order. -/
theorem GrantsLoaded.next {M : Ledger} (hM : M.Structured sha)
    (hoffers : ∀ k, offers.get? k = M.offers.get? k)
    (h : GrantsLoaded sha offers gs acc) {g : Grant} {rest : List Grant}
    (hsorted : (gs ++ g :: rest).Pairwise grantLt)
    (hmem : ∀ x ∈ gs ++ g :: rest, M.grants.get? x.grantId.1 = some x) :
    ∃ acc', admitGrant acc g = .ok acc' := by
  have hlt : ∀ p ∈ gs, grantLt p g := fun p hp =>
    (List.pairwise_append.mp hsorted).2.2 p hp g (List.mem_cons_self ..)
  have hg : M.identity? g.grantId.1 = some g.toGrantIdentity :=
    Ledger.identity?_of_get? (hmem g (List.mem_append_right _ (List.mem_cons_self ..)))
  refine ⟨_, admitGrant_ok.mpr ⟨fun p hp => hlt p ?_, ?_, ?_, rfl⟩⟩
  · rw [h.prior] at hp
    exact List.mem_of_getLast? hp
  · obtain ⟨o, ho, hscope⟩ := hM.indexed.offered _ _ hg
    exact ⟨o, by rw [h.offers, hoffers]; exact ho, hscope⟩
  · -- two grants with a key in common would be one grant, but this one is later in the order
    refine h.structured.fresh fun l j hj hshare => ?_
    unfold Ledger.identity? at hj
    rw [Option.map_eq_some_iff] at hj
    obtain ⟨p, hp, rfl⟩ := hj
    obtain ⟨hpm, -⟩ := h.get?.mp hp
    have hpM := Ledger.identity?_of_get? (hmem p (List.mem_append_left _ hpm))
    have heq := hM.unique hpM hg hshare
    have hl : p.grantId.1 < g.grantId.1 := hlt p hpm
    rw [heq] at hl
    exact absurd hl (lt_irrefl _)

end GrantsLoaded

/-! ### Requests -/

theorem addCostIf_ok {c : Prop} [Decidable c] {sums sums' : JsMap String Int} {q : Request} :
    addCostIf c sums q = .ok sums' ↔
      (c → ((sums.get? q.grantId.1).getD 0 + q.costUnits.1).natAbs ≤ 9007199254740991)
        ∧ sums' = if c then sums.set q.grantId.1 ((sums.get? q.grantId.1).getD 0 + q.costUnits.1)
          else sums := by
  unfold addCostIf
  by_cases hc : c
  · rw [if_pos hc, if_pos hc]
    unfold addCost
    simp only [bind_ok, failStateIf_ok, not_lt]
    constructor
    · rintro ⟨_, h, h'⟩
      have hsafe := safe_round_iff.mp h
      refine ⟨fun _ => hsafe, ?_⟩
      rw [← Except.ok.inj h', add_of_le hsafe]
    · rintro ⟨h, rfl⟩
      have hsafe := h hc
      exact ⟨(), safe_round_iff.mpr hsafe, by rw [add_of_le hsafe]; rfl⟩
  · rw [if_neg hc, if_neg hc]
    constructor
    · intro h
      exact ⟨fun h' => absurd h' hc, (Except.ok.inj h).symm⟩
    · rintro ⟨-, rfl⟩
      rfl

/-- The grant of a request that is hydrated, its requests so far, and what is
checked of the request against them. -/
structure Admits (sha : Sha256) (L : Ledger) (q : Request) (g : Grant) (rs : JsMap String Request) :
    Prop where
  grant : L.grants.get? q.grantId.1 = some g
  requests : L.requests.get? q.grantId.1 = some rs
  offerId : q.offerId = g.offerId
  offerVersion : q.offerVersion = g.offerVersion
  authorized : q.costUnits.1 ≤ q.maxCostUnits.1
  funded : q.costUnits.1 ≤ g.totalUnits.1
  digest : q.requestDigest
    = requestDigestFor sha q.toRequestInput g.offerId g.offerVersion q.costUnits
  new : rs.get? q.requestId.1 = none

theorem hydrateRequest_ok {sha : Sha256} {acc acc' : RequestsSoFar} {q : Request} :
    hydrateRequest sha acc q = .ok acc' ↔ q.resultConsistent = true
      ∧ (∀ p ∈ acc.prior, requestLt p q)
      ∧ (∃ g rs, Admits sha acc.ledger q g rs)
      ∧ ∃ held consumed,
        addCostIf (q.state.holds = true) acc.heldByGrant q = .ok held
        ∧ addCostIf (q.state = .SUCCEEDED) acc.consumedByGrant q = .ok consumed
        ∧ acc' = ⟨some q, acc.ledger.setRequest q, held, consumed⟩ := by
  have horder (p : Request) : ¬ (q.grantId.1 < p.grantId.1
      ∨ p.grantId = q.grantId ∧ q.requestId.1 ≤ p.requestId.1) ↔ requestLt p q := by
    rw [not_or, not_lt, not_and, not_le]
    constructor
    · rintro ⟨hle, hv⟩
      rcases lt_or_eq_of_le hle with h | h
      · exact .inl h
      · exact .inr ⟨Subtype.ext h, hv (Subtype.ext h)⟩
    · rintro (h | ⟨e, h⟩)
      · exact ⟨h.le, fun e => absurd (e ▸ h) (lt_irrefl _)⟩
      · exact ⟨e ▸ le_refl _, fun _ => h⟩
  unfold hydrateRequest
  simp only [bind_ok, failStateIf_ok, not_exists, not_and, Bool.not_eq_false]
  constructor
  · rintro ⟨_, hres, _, hprior, h⟩
    refine ⟨hres, fun p hp => (horder p).mp (hprior p hp), ?_⟩
    split at h
    · rename_i g rs hg hrs
      simp only [bind_ok, failStateIf_ok, not_or, not_not, not_lt] at h
      obtain ⟨_, ⟨h1, h2, h3, h4⟩, _, hdigest, _, hnew, held, hheld, consumed, hcons, hacc⟩ := h
      exact ⟨⟨g, rs, hg, hrs, h1, h2, h3, h4, hdigest, by simpa using hnew⟩, held,
        consumed, hheld, hcons, (Except.ok.inj hacc).symm⟩
    · cases h
  · rintro ⟨hres, hprior, ⟨g, rs, ha⟩, held, consumed, hheld, hcons, rfl⟩
    refine ⟨(), hres, (), fun p hp => (horder p).mpr (hprior p hp), ?_⟩
    rw [ha.grant, ha.requests]
    simp only [bind_ok, failStateIf_ok, not_or, not_not, not_lt]
    exact ⟨(), ⟨ha.offerId, ha.offerVersion, ha.authorized, ha.funded⟩, (), ha.digest, (),
      by simp [ha.new], held, hheld, consumed, hcons, rfl⟩

/-- The ledger and the sums after the requests `ps`. -/
structure RequestsLoaded (sha : Sha256) (L : Ledger) (ps : List Request) (acc : RequestsSoFar) :
    Prop where
  prior : acc.prior = ps.getLast?
  sorted : ps.Pairwise requestLt
  offers : acc.ledger.offers = L.offers
  grants : acc.ledger.grants = L.grants
  structured : acc.ledger.Structured sha
  perm : acc.ledger.allRequests.Perm ps
  held : ∀ k, (acc.heldByGrant.get? k).getD 0 = Ledger.costOf Request.heldCost k ps
  consumed : ∀ k, (acc.consumedByGrant.get? k).getD 0 = Ledger.costOf Request.consumedCost k ps

section RequestsLoaded

variable {sha : Sha256} {L : Ledger} {ps : List Request} {acc acc' : RequestsSoFar} {q : Request}

theorem RequestsLoaded.nil (hL : L.Structured sha)
    (hnone : ∀ k rs, L.requests.get? k = some rs → rs = .empty) :
    RequestsLoaded sha L [] ⟨none, L, .empty, .empty⟩ where
  prior := rfl
  sorted := .nil
  offers := rfl
  grants := rfl
  structured := hL
  perm := by
    have hnil : L.allRequests = [] := List.eq_nil_iff_forall_not_mem.mpr fun q hq => by
      obtain ⟨g, rs, -, hrs, hget, -⟩ := hL.mem_allRequests.mp hq
      rw [hnone _ rs hrs] at hget
      cases hget
    change L.allRequests.Perm []
    rw [hnil]
  held _ := rfl
  consumed _ := rfl

/-- A request that is checked against its grant is scoped to it. -/
theorem Admits.scoped {g : Grant} {rs : JsMap String Request} (h : Admits sha L q g rs)
    (hL : L.Structured sha) (hres : q.resultConsistent = true) :
    q.Scoped sha g.toGrantIdentity q.requestId.1 where
  grantId := Subtype.ext (hL.grantKey h.grant)
  requestId := rfl
  offerId := h.offerId
  offerVersion := h.offerVersion
  digest := h.digest
  authorized := h.authorized
  funded := h.funded
  result := hres

/-- The sums by grant after one more request. -/
theorem sums_round {c : Prop} [Decidable c] {f : Request → Int} {sums sums' : JsMap String Int}
    (hf : f q = if c then q.costUnits.1 else 0)
    (hsums : ∀ k, (sums.get? k).getD 0 = Ledger.costOf f k ps)
    (hok : addCostIf c sums q = .ok sums') (k : String) :
    (sums'.get? k).getD 0 = Ledger.costOf f k (ps ++ [q]) := by
  obtain ⟨-, rfl⟩ := addCostIf_ok.mp hok
  have hone : Ledger.costOf f k [q] = if q.grantId.1 = k then f q else 0 := by
    simp [Ledger.costOf]
  rw [Ledger.costOf_append, hone, ← hsums k, hf]
  by_cases hc : c
  · simp only [if_pos hc, JsMap.get?_set]
    by_cases hk : q.grantId.1 = k
    · subst hk
      simp
    · rw [if_neg (Ne.symm hk), if_neg hk, Int.add_zero]
  · simp only [if_neg hc, ite_self, Int.add_zero]

theorem RequestsLoaded.round (h : RequestsLoaded sha L ps acc)
    (hok : hydrateRequest sha acc q = .ok acc') :
    RequestsLoaded sha L (ps ++ [q]) acc' := by
  obtain ⟨hres, hlt, ⟨g, rs, ha⟩, held, consumed, hheld, hcons, rfl⟩ := hydrateRequest_ok.mp hok
  have hkey := h.structured.grantKey ha.grant
  refine ⟨by simp, pairwise_concat h.sorted (h.prior ▸ hlt), h.offers, h.grants, ?_, ?_, ?_, ?_⟩
  · exact h.structured.setRequest (hkey ▸ ha.grant) (hkey ▸ ha.requests)
      (ha.scoped h.structured hres)
  · exact (Ledger.allRequests_setRequest ha.requests ha.new).trans (h.perm.append_right _)
  · exact sums_round rfl h.held hheld
  · exact sums_round rfl h.consumed hcons

end RequestsLoaded

end Credit
end ZenonX402
