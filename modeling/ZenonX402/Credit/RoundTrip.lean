/-
# Export and hydration

A snapshot that `fromState` accepts gives a valid ledger whose export is that
snapshot (`fromState_sound`). The other way, the export of a valid ledger is
accepted, and gives back a ledger with the same export, exactly when the ledger
keeps within the caps of hydration and every grant was funded by a transaction
named by a string (`fromState_export_iff`): the caps are checked by `fromState`
alone.

Key definitions: `Ledger.Exportable`.
Key theorems: `fromState_sound`, `fromState_export_iff`.
-/
import ZenonX402.Credit.HydrationLoops

namespace ZenonX402
namespace Credit

open Js

instance : Std.Total offerLe where
  total a b := by
    unfold offerLe
    rcases lt_trichotomy a.offerId.1 b.offerId.1 with h | h | h
    · exact .inl (.inl h)
    · rcases le_total a.offerVersion.1 b.offerVersion.1 with hv | hv
      · exact .inl (.inr ⟨Subtype.ext h, hv⟩)
      · exact .inr (.inr ⟨(Subtype.ext h).symm, hv⟩)
    · exact .inr (.inl h)

instance : IsTrans Offer offerLe where
  trans a b c hab hbc := by
    rcases hab with h1 | ⟨e1, h1⟩ <;> rcases hbc with h2 | ⟨e2, h2⟩
    · exact .inl (lt_trans h1 h2)
    · exact .inl (e2 ▸ h1)
    · exact .inl (e1 ▸ h2)
    · exact .inr ⟨e1.trans e2, le_trans h1 h2⟩

instance : Std.Total grantLe where
  total a b := le_total a.grantId.1 b.grantId.1

instance : IsTrans Grant grantLe where
  trans _ _ _ := le_trans

instance : Std.Total requestLe where
  total a b := by
    unfold requestLe
    rcases lt_trichotomy a.grantId.1 b.grantId.1 with h | h | h
    · exact .inl (.inl h)
    · rcases le_total a.requestId.1 b.requestId.1 with hv | hv
      · exact .inl (.inr ⟨Subtype.ext h, hv⟩)
      · exact .inr (.inr ⟨(Subtype.ext h).symm, hv⟩)
    · exact .inr (.inl h)

instance : IsTrans Request requestLe where
  trans a b c hab hbc := by
    rcases hab with h1 | ⟨e1, h1⟩ <;> rcases hbc with h2 | ⟨e2, h2⟩
    · exact .inl (lt_trans h1 h2)
    · exact .inl (e2 ▸ h1)
    · exact .inl (e1 ▸ h2)
    · exact .inr ⟨e1.trans e2, le_trans h1 h2⟩

theorem offerLt_irrefl (o : Offer) : ¬ offerLt o o := by
  rintro (h | ⟨-, h⟩) <;> exact lt_irrefl _ h

theorem grantLt_irrefl (g : Grant) : ¬ grantLt g g := lt_irrefl g.grantId.1

theorem requestLt_irrefl (q : Request) : ¬ requestLt q q := fun h => requestLt_ne h rfl rfl

namespace Ledger

variable {sha : Sha256} {L : Ledger}

/-! ### The records of an export are in strict order -/

theorem Structured.snapshot_offers (hL : L.Structured sha) :
    L.snapshot.offers.Pairwise offerLt := by
  have hkeys : L.offers.values.map (fun o => offerKey o.offerId o.offerVersion)
      = L.offers.keys := by
    unfold JsMap.values JsMap.keys
    rw [List.map_map]
    refine List.map_congr_left fun e he => ?_
    exact (hL.indexed.offerKeys e.1 e.2 (JsMap.mem_entries_iff.mp he)).symm
  refine pairwise_insertionSort_strict (by rw [hkeys]; exact L.offers.nodup) fun a b hab hne => ?_
  rcases hab with h | ⟨e, h⟩
  · exact .inl h
  · refine .inr ⟨e, lt_of_le_of_ne h fun hv => hne ?_⟩
    simp only [e, show a.offerVersion = b.offerVersion from Subtype.ext hv]

theorem Structured.snapshot_grants (hL : L.Structured sha) :
    L.snapshot.grants.Pairwise grantLt := by
  have hkeys : L.grants.values.map (fun g => g.grantId.1) = L.grants.keys := by
    unfold JsMap.values JsMap.keys
    rw [List.map_map]
    refine List.map_congr_left fun e he => ?_
    exact (hL.grantKey (JsMap.mem_entries_iff.mp he)).symm
  exact pairwise_insertionSort_strict (by rw [hkeys]; exact L.grants.nodup)
    fun a b hab hne => lt_of_le_of_ne hab hne

/-- No two requests have the same grant and identifier. -/
theorem Structured.requestKeys_nodup (hL : L.Structured sha) :
    (L.allRequests.map fun q => (q.grantId.1, q.requestId.1)).Nodup := by
  have hkeys : ∀ e ∈ L.requests.entries,
      e.2.values.map (fun q => (q.grantId.1, q.requestId.1)) = e.2.keys.map fun r => (e.1, r) := by
    rintro ⟨k, rs⟩ he
    have hrs := JsMap.mem_entries_iff.mp he
    have hsome := hL.requestsOf k
    rw [hrs] at hsome
    obtain ⟨g, hg⟩ := Option.isSome_iff_exists.mp hsome.symm
    have hkey := hL.grantKey hg
    subst hkey
    unfold JsMap.values JsMap.keys
    rw [List.map_map, List.map_map]
    refine List.map_congr_left fun e he => ?_
    have hs := hL.requestsScoped g rs e.1 e.2 hg hrs (JsMap.mem_entries_iff.mp he)
    simp only [Function.comp_apply, hs.grantId, hs.requestId]
  have hall : L.allRequests.map (fun q => (q.grantId.1, q.requestId.1)) =
      L.requests.entries.flatMap fun e => e.2.keys.map fun r => (e.1, r) := by
    unfold allRequests JsMap.values
    rw [List.map_flatMap, List.flatMap_map]
    exact List.flatMap_congr fun e he => hkeys e he
  rw [hall, List.nodup_flatMap]
  refine ⟨fun e _ => e.2.nodup.map fun _ _ h => (Prod.ext_iff.mp h).2, ?_⟩
  refine (List.pairwise_map.mp L.requests.nodup).imp fun {a b} hab => ?_
  intro x hx hx'
  obtain ⟨_, -, rfl⟩ := List.mem_map.mp hx
  obtain ⟨_, -, h⟩ := List.mem_map.mp hx'
  exact hab (Prod.ext_iff.mp h).1.symm

theorem Structured.snapshot_requests (hL : L.Structured sha) :
    L.snapshot.requests.Pairwise requestLt := by
  refine pairwise_insertionSort_strict hL.requestKeys_nodup fun a b hab hne => ?_
  rcases hab with h | ⟨e, h⟩
  · exact .inl h
  · refine .inr ⟨e, lt_of_le_of_ne h fun hr => hne ?_⟩
    simp only [e, hr]

/-- The request under two keys is the request that has them. -/
theorem Structured.request?_iff (hL : L.Structured sha) {k r : String} {q : Request} :
    L.request? k r = some q ↔ q ∈ L.allRequests ∧ q.grantId.1 = k ∧ q.requestId.1 = r := by
  rw [hL.mem_allRequests]
  unfold request?
  rw [Option.bind_eq_some_iff]
  constructor
  · rintro ⟨rs, hrs, hget⟩
    have hsome := hL.requestsOf k
    rw [hrs] at hsome
    obtain ⟨g, hg⟩ := Option.isSome_iff_exists.mp hsome.symm
    have hkey := hL.grantKey hg
    subst hkey
    have hs := hL.requestsScoped g rs r q hg hrs hget
    refine ⟨⟨g, rs, hg, hrs, ?_, hs.grantId⟩, congrArg Subtype.val hs.grantId, hs.requestId⟩
    rw [hs.requestId, hget]
  · rintro ⟨⟨g, rs, -, hrs, hget, hgid⟩, rfl, rfl⟩
    exact ⟨rs, by rw [hgid, hrs], hget⟩

theorem requestCount_eq_length (L : Ledger) : L.requestCount = L.allRequests.length := by
  unfold requestCount allRequests
  rw [List.length_flatMap]
  simp only [JsMap.length_values]

theorem snapshot_offers_perm (L : Ledger) : L.snapshot.offers.Perm L.offers.values :=
  List.perm_insertionSort offerLe _

theorem snapshot_grants_perm (L : Ledger) : L.snapshot.grants.Perm L.grants.values :=
  List.perm_insertionSort grantLe _

theorem snapshot_requests_perm (L : Ledger) : L.snapshot.requests.Perm L.allRequests :=
  List.perm_insertionSort requestLe _

theorem length_snapshot_offers (L : Ledger) : L.snapshot.offers.length = L.offers.size := by
  rw [L.snapshot_offers_perm.length_eq, JsMap.length_values]

theorem length_snapshot_grants (L : Ledger) : L.snapshot.grants.length = L.grants.size := by
  rw [L.snapshot_grants_perm.length_eq, JsMap.length_values]

theorem length_snapshot_requests (L : Ledger) : L.snapshot.requests.length = L.requestCount := by
  rw [L.snapshot_requests_perm.length_eq, requestCount_eq_length]

theorem Structured.mem_snapshot_grants (hL : L.Structured sha) {g : Grant} :
    g ∈ L.snapshot.grants ↔ L.grants.get? g.grantId.1 = some g := by
  rw [L.snapshot_grants_perm.mem_iff, JsMap.mem_values_iff]
  constructor
  · rintro ⟨k, hk⟩
    have hkey := hL.grantKey hk
    exact hkey ▸ hk
  · exact fun h => ⟨_, h⟩

end Ledger

/-! ### What an export says -/

/-- The records of a snapshot as hydration reads them. -/
def Snapshot.exported (s : Snapshot) : ExportedState :=
  ⟨s.offers, s.grants.map Grant.exported, s.requests⟩

/-- A ledger within the caps of hydration, whose grants were each funded by a
transaction that is named by a string. -/
structure Ledger.Exportable (sha : Sha256) (L : Ledger) : Prop extends L.Valid sha where
  offerCap : L.offers.size ≤ MAX_HYDRATED_OFFERS
  grantCap : L.grants.size ≤ MAX_HYDRATED_GRANTS
  plain : ∀ k g, L.grants.get? k = some g → g.transactionId.depth = 0

variable {sha : Sha256} {L : Ledger}

theorem Ledger.Valid.countersHold (hL : L.Valid sha) {k : String} {g : Grant}
    (hg : L.grants.get? k = some g) : g.countersHold = true := by
  obtain ⟨rs, hrs⟩ := hL.requests hg
  have hkey := hL.grantKey hg
  rw [hkey] at hg hrs
  exact (hL.balanced g rs hg hrs).countersHold

/-- The export of a ledger is what hydration reads its records from. -/
theorem encode_snapshot (hL : L.Valid sha) :
    stateCodec.encode L.snapshot.exported = L.snapshot.encode := by
  have hgrants : (L.snapshot.grants.map Grant.exported).map exportedGrantCodec.encode =
      L.snapshot.grants.map exportedGrant := by
    rw [List.map_map]
    refine List.map_congr_left fun g hg => ?_
    exact exportedGrantCodec_encode (hL.countersHold (hL.mem_snapshot_grants.mp hg))
  unfold Snapshot.encode
  rw [← hgrants]
  rfl

theorem Ledger.Exportable.grant (hL : L.Exportable sha) {k : String} {g : Grant}
    (hg : L.grants.get? k = some g) : g.Exportable sha where
  derived := hL.indexed.derived k _ (Ledger.identity?_of_get? hg)
  counters := hL.toValid.countersHold hg
  plain := hL.plain k g hg

/-! ### A snapshot that is accepted -/

theorem hydrateGrants_ok {s : List ExportedGrant} {acc acc' : Option Grant × Ledger} :
    s.foldlM (hydrateGrant sha) acc = .ok acc' ↔
      ∃ gs : List Grant, (∀ g ∈ gs, g.Exportable sha) ∧ s = gs.map Grant.exported
        ∧ gs.foldlM admitGrant acc = .ok acc' := by
  have hread : ∀ {s : List ExportedGrant} {gs : List Grant},
      List.Forall₂ (fun v g => normalizeExportedGrant sha v = .ok g) s gs ↔
        (∀ g ∈ gs, g.Exportable sha) ∧ s = gs.map Grant.exported := by
    intro s gs
    constructor
    · intro h
      induction h with
      | nil => exact ⟨fun g hg => absurd hg List.not_mem_nil, rfl⟩
      | cons hv _ ih =>
        obtain ⟨hg, rfl⟩ := normalizeExportedGrant_ok.mp hv
        obtain ⟨hgs, rfl⟩ := ih
        exact ⟨List.forall_mem_cons.mpr ⟨hg, hgs⟩, rfl⟩
    · rintro ⟨hgs, rfl⟩
      induction gs with
      | nil => exact .nil
      | cons g gs ih =>
        obtain ⟨hg, hgs⟩ := List.forall_mem_cons.mp hgs
        exact .cons (normalizeExportedGrant_ok.mpr ⟨hg, rfl⟩) (ih hgs)
  have hloop := @foldlM_read _ _ _ _ (normalizeExportedGrant sha) admitGrant s acc acc'
  simp only [hread, and_assoc] at hloop
  exact hloop

/-- Counters that match the sums over the requests balance. -/
theorem countersMatch_balanced {L : Ledger} {ps : List Request} {acc : RequestsSoFar}
    (h : RequestsLoaded sha L ps acc) {g : Grant} {rs : JsMap String Request}
    (hrs : acc.ledger.requests.get? g.grantId.1 = some rs) (hg : g.countersHold = true)
    (hm : countersMatch acc g = true) : g.Balanced rs := by
  obtain ⟨ha, hh, hc, htotal⟩ := Grant.counters_of_countersHold hg
  unfold isCounter at ha hh hc
  have ha := (of_decide_eq_true ha).2
  have hh := (of_decide_eq_true hh).2
  have hc := (of_decide_eq_true hc).2
  unfold countersMatch at hm
  simp only [Bool.and_eq_true, beq_iff_eq] at hm
  obtain ⟨⟨⟨-, hheld⟩, hconsumed⟩, -⟩ := hm
  have hsum (f : Request → Int) : Ledger.costOf f g.grantId.1 ps = rs.sum f := by
    rw [← Ledger.costOf_perm f _ h.perm, h.structured.costOf_allRequests f, hrs]
    rfl
  refine ⟨ha, ?_, ?_, (add_add_eq_of_safe ha hh hc g.totalUnits.2.1).mp htotal.symm⟩
  · rw [hheld, h.held, hsum]
  · rw [hconsumed, h.consumed, hsum]

/-- A snapshot that is accepted gives a ledger that exports it. -/
theorem hydrate_sound {s : ExportedState} (h : hydrate sha s = .ok L) :
    L.Exportable sha ∧ L.snapshot.exported = s := by
  unfold hydrate at h
  simp only [bind_ok, failStateIf_ok, not_or, not_lt] at h
  obtain ⟨_, ⟨hcapO, hcapG, hcapR⟩, ⟨priorO, offers⟩, hoffers, ⟨priorG, L₀⟩, hgrants, acc,
    hrequests, _, hmatch, hL⟩ := h
  obtain rfl := Except.ok.inj hL
  obtain ⟨gs, hexp, hs, hadmit⟩ := hydrateGrants_ok.mp hgrants
  have hO : OffersLoaded s.offers (priorO, offers) :=
    foldlM_invariant (fun _ _ _ _ hI hok => hI.round hok) _ [] _ _ OffersLoaded.nil hoffers
  have hG : GrantsLoaded sha offers gs (priorG, L₀) := by
    let I := fun (ps : List Grant) acc => (∀ g ∈ ps, g.Exportable sha) →
      GrantsLoaded sha offers ps acc
    have hround : ∀ ps g acc acc', I ps acc → admitGrant acc g = .ok acc' → I (ps ++ [g]) acc' := by
      intro ps g acc acc' hI hok hps
      obtain ⟨hps, hg⟩ := List.forall_mem_append.mp hps
      exact (hI hps).round (hg g (List.mem_singleton_self g)) hok
    have hnil : I [] (none, { Ledger.empty with offers := offers }) := fun _ =>
      .nil fun k o ho => (hO.get?.mp ho).2
    exact foldlM_invariant hround gs [] _ _ hnil hadmit hexp
  have hR : RequestsLoaded sha L₀ s.requests acc :=
    foldlM_invariant (fun _ _ _ _ hI hok => hI.round hok) _ [] _ _
      (RequestsLoaded.nil hG.structured hG.noRequests) hrequests
  have hoffersEq : acc.ledger.offers = offers := hR.offers.trans hG.offers
  have hgrantsEq : acc.ledger.grants = L₀.grants := hR.grants
  have hmem {k : String} {g : Grant} (hg : acc.ledger.grants.get? k = some g) : g ∈ gs := by
    rw [hgrantsEq] at hg
    exact (hG.get?.mp hg).1
  have hofferValues : acc.ledger.offers.values = s.offers := by
    unfold JsMap.values
    rw [hoffersEq, hO.entries, List.map_map]
    exact List.map_id _
  have hgrantValues : acc.ledger.grants.values = gs := by
    unfold JsMap.values
    rw [hgrantsEq, hG.entries, List.map_map]
    exact List.map_id _
  have hvalid : acc.ledger.Valid sha :=
    { toStructured := hR.structured
      balanced := fun g rs hg hrs =>
        countersMatch_balanced hR hrs (hexp g (hmem hg)).counters
          (not_not.mp hmatch g (JsMap.mem_values_iff.mpr ⟨_, hg⟩))
      capacity := by
        rw [Ledger.requestCount_eq_length, hR.perm.length_eq]
        exact hcapR }
  refine ⟨{ toValid := hvalid, offerCap := ?_, grantCap := ?_, plain := fun k g hg => (hexp g
    (hmem hg)).plain }, ?_⟩
  · rw [← JsMap.length_values, hofferValues]
    exact hcapO
  · rw [hs, List.length_map] at hcapG
    rw [← JsMap.length_values, hgrantValues]
    exact hcapG
  · have h1 : acc.ledger.snapshot.offers = s.offers :=
      eq_of_perm_sorted offerLt_irrefl hvalid.snapshot_offers hO.sorted
        (hofferValues ▸ acc.ledger.snapshot_offers_perm)
    have h2 : acc.ledger.snapshot.grants = gs :=
      eq_of_perm_sorted grantLt_irrefl hvalid.snapshot_grants hG.sorted
        (hgrantValues ▸ acc.ledger.snapshot_grants_perm)
    have h3 : acc.ledger.snapshot.requests = s.requests :=
      eq_of_perm_sorted requestLt_irrefl hvalid.snapshot_requests hR.sorted
        (acc.ledger.snapshot_requests_perm.trans hR.perm)
    unfold Snapshot.exported
    rw [h1, h2, h3, ← hs]

/-! ### A ledger that is exported -/

theorem costOf_nonneg {f : Request → Int} (hf : ∀ q, 0 ≤ f q) (k : String) (ps : List Request) :
    0 ≤ Ledger.costOf f k ps := by
  unfold Ledger.costOf
  refine List.sum_nonneg fun x hx => ?_
  obtain ⟨q, -, rfl⟩ := List.mem_map.mp hx
  split
  · exact hf q
  · exact le_refl _

/-- What the requests of a ledger owe to a grant is in its counters. -/
theorem Ledger.Valid.costOf_le (hL : L.Valid sha) {g : Grant}
    (hg : L.grants.get? g.grantId.1 = some g) {f : Request → Int}
    (hf : f = Request.heldCost ∨ f = Request.consumedCost) :
    Ledger.costOf f g.grantId.1 L.allRequests ≤ g.totalUnits.1 := by
  obtain ⟨rs, hrs⟩ := hL.requests hg
  have hbal := hL.balanced g rs hg hrs
  have htotal := hbal.total
  have havail := hbal.available
  have hheld := hbal.held_nonneg
  have hcons := hbal.consumed_nonneg
  rw [hL.costOf_allRequests, hrs, Option.map_some, Option.getD_some]
  rcases hf with rfl | rfl
  · rw [← hbal.held]
    omega
  · rw [← hbal.consumed]
    omega

/-- One more request of the ledger leaves a sum safe. -/
theorem addCostIf_next {c : Prop} [Decidable c] {f : Request → Int} {sums : JsMap String Int}
    {ps rest : List Request} {q : Request} {n : Int} (hf : ∀ q, 0 ≤ f q)
    (hq : c → f q = q.costUnits.1) (hsums : ∀ k, (sums.get? k).getD 0 = Ledger.costOf f k ps)
    (hle : Ledger.costOf f q.grantId.1 (ps ++ q :: rest) ≤ n) (hn : n ≤ 9007199254740991) :
    ∃ sums', addCostIf c sums q = .ok sums' := by
  refine ⟨_, addCostIf_ok.mpr ⟨fun hc => ?_, rfl⟩⟩
  have hps := costOf_nonneg hf q.grantId.1 ps
  have hrest := costOf_nonneg hf q.grantId.1 rest
  have hone : Ledger.costOf f q.grantId.1 [q] = q.costUnits.1 := by
    simp [Ledger.costOf, hq hc]
  have hpos := q.costUnits.pos
  rw [← List.singleton_append, Ledger.costOf_append, Ledger.costOf_append, hone] at hle
  rw [hsums]
  omega

/-- The next request of a ledger is accepted, when the requests come in order. -/
theorem RequestsLoaded.next {M : Ledger} (hM : M.Valid sha)
    (hgrants : ∀ k, L.grants.get? k = M.grants.get? k) {ps rest : List Request} {q : Request}
    {acc : RequestsSoFar} (h : RequestsLoaded sha L ps acc)
    (hsorted : (ps ++ q :: rest).Pairwise requestLt)
    (hperm : (ps ++ q :: rest).Perm M.allRequests) :
    ∃ acc', hydrateRequest sha acc q = .ok acc' := by
  have hlt : ∀ p ∈ ps, requestLt p q := fun p hp =>
    (List.pairwise_append.mp hsorted).2.2 p hp q (List.mem_cons_self ..)
  have hq : q ∈ M.allRequests := hperm.mem_iff.mp (List.mem_append_right _ (List.mem_cons_self ..))
  obtain ⟨g, rs, hg, hrs, hget, hgid⟩ := hM.mem_allRequests.mp hq
  have hscoped := hM.requestsScoped g rs _ q hg hrs hget
  have hg' : acc.ledger.grants.get? q.grantId.1 = some g := by
    rw [h.grants, hgrants, hgid]
    exact hg
  obtain ⟨rs', hrs'⟩ := h.structured.requests hg'
  have hnew : rs'.get? q.requestId.1 = none := by
    cases hp : rs'.get? q.requestId.1 with
    | none => rfl
    | some p =>
      rw [hgid] at hg' hrs'
      have hs := h.structured.requestsScoped g rs' _ p hg' hrs' hp
      have hmem : p ∈ ps := by
        rw [← h.perm.mem_iff, h.structured.mem_allRequests]
        exact ⟨g, rs', hg', hrs', by rw [hs.requestId]; exact hp, hs.grantId⟩
      exact absurd (Subtype.ext hs.requestId)
        (requestLt_ne (hlt p hmem) (hs.grantId.trans hgid.symm))
  have hle {f : Request → Int} (hf : f = Request.heldCost ∨ f = Request.consumedCost) :
      Ledger.costOf f q.grantId.1 (ps ++ q :: rest) ≤ g.totalUnits.1 := by
    rw [Ledger.costOf_perm f _ hperm, hgid]
    exact hM.costOf_le hg hf
  obtain ⟨held, hheld⟩ := addCostIf_next (c := q.state.holds = true) Request.heldCost_nonneg
    (fun hc => if_pos hc) h.held (hle (.inl rfl)) g.totalUnits.le
  obtain ⟨consumed, hcons⟩ := addCostIf_next (c := q.state = .SUCCEEDED) Request.consumedCost_nonneg
    (fun hc => if_pos hc) h.consumed (hle (.inr rfl)) g.totalUnits.le
  refine ⟨_, hydrateRequest_ok.mpr ⟨hscoped.result, fun p hp => hlt p ?_, ⟨g, rs', ?_⟩,
    held, consumed, hheld, hcons, rfl⟩⟩
  · rw [h.prior] at hp
    exact List.mem_of_getLast? hp
  · exact ⟨hg', hrs', hscoped.offerId, hscoped.offerVersion, hscoped.authorized, hscoped.funded,
      hscoped.digest, hnew⟩

/-- The counters of a ledger match the sums over its requests. -/
theorem Ledger.Valid.countersMatch (hL : L.Valid sha) {ps : List Request} {acc : RequestsSoFar}
    (hheld : ∀ k, (acc.heldByGrant.get? k).getD 0 = Ledger.costOf Request.heldCost k ps)
    (hconsumed : ∀ k, (acc.consumedByGrant.get? k).getD 0 = Ledger.costOf Request.consumedCost k ps)
    (hperm : ps.Perm L.allRequests) {g : Grant} (hg : L.grants.get? g.grantId.1 = some g) :
    countersMatch acc g = true := by
  obtain ⟨rs, hrs⟩ := hL.requests hg
  have hbal := hL.balanced g rs hg hrs
  have hsum (f : Request → Int) : Ledger.costOf f g.grantId.1 ps = rs.sum f := by
    rw [Ledger.costOf_perm f _ hperm, hL.costOf_allRequests f, hrs]
    rfl
  have hh : (acc.heldByGrant.get? g.grantId.1).getD 0 = g.heldUnits := by
    rw [hheld, hsum, hbal.held]
  have hc : (acc.consumedByGrant.get? g.grantId.1).getD 0 = g.consumedUnits := by
    rw [hconsumed, hsum, hbal.consumed]
  have htotal := hbal.total
  have havail := hbal.available
  have hheld0 := hbal.held_nonneg
  have hcons0 := hbal.consumed_nonneg
  have h1 : Js.sub g.totalUnits.1 g.heldUnits = g.totalUnits.1 - g.heldUnits :=
    sub_of_le (hbal.exact (by omega) (by omega))
  have h2 : Js.sub (g.totalUnits.1 - g.heldUnits) g.consumedUnits = g.availableUnits := by
    rw [sub_of_le (hbal.exact (by omega) (by omega))]
    omega
  obtain ⟨ha, -⟩ := Grant.counters_of_countersHold hbal.countersHold
  unfold Credit.countersMatch
  simp only [hh, hc, h1, h2, ha, beq_self_eq_true, Bool.and_self]

/-- The export of an exportable ledger is accepted. -/
theorem hydrate_complete (hL : L.Exportable sha) :
    ∃ L', hydrate sha L.snapshot.exported = .ok L' := by
  have hcapO : L.snapshot.offers.length ≤ MAX_HYDRATED_OFFERS :=
    L.length_snapshot_offers ▸ hL.offerCap
  have hcapG : (L.snapshot.grants.map Grant.exported).length ≤ MAX_HYDRATED_GRANTS := by
    rw [List.length_map, L.length_snapshot_grants]
    exact hL.grantCap
  have hcapR : L.snapshot.requests.length ≤ MAX_HYDRATED_REQUESTS :=
    L.length_snapshot_requests ▸ hL.capacity
  obtain ⟨⟨priorO, offers⟩, hoffers, hO⟩ : ∃ acc,
      L.snapshot.offers.foldlM hydrateOffer (none, .empty) = .ok acc
      ∧ OffersLoaded L.snapshot.offers acc := by
    refine foldlM_progress L.snapshot.offers (fun ps o rest acc hw hI => ?_) _
      [] _ rfl OffersLoaded.nil
    obtain ⟨acc', hok⟩ := hI.next (hw ▸ hL.snapshot_offers)
    exact ⟨acc', hok, hI.round hok⟩
  have hofferGet (k : String) : offers.get? k = L.offers.get? k := by
    refine Option.ext fun o => ?_
    have hget := hO.get? (k := k) (o := o)
    rw [hget, L.snapshot_offers_perm.mem_iff, JsMap.mem_values_iff]
    constructor
    · rintro ⟨⟨k', ho⟩, rfl⟩
      rwa [← hL.indexed.offerKeys _ _ ho]
    · exact fun ho => ⟨⟨k, ho⟩, hL.indexed.offerKeys _ _ ho⟩
  obtain ⟨⟨priorG, L₀⟩, hgrants, hG⟩ : ∃ acc, L.snapshot.grants.foldlM admitGrant
      (none, { Ledger.empty with offers := offers }) = .ok acc
        ∧ GrantsLoaded sha offers L.snapshot.grants acc := by
    refine foldlM_progress L.snapshot.grants (fun gs g rest acc hw hI => ?_) _ [] _ rfl
      (GrantsLoaded.nil fun k o ho => (hO.get?.mp ho).2)
    have hmem : ∀ x ∈ gs ++ g :: rest, L.grants.get? x.grantId.1 = some x := fun x hx =>
      hL.mem_snapshot_grants.mp (hw ▸ hx)
    obtain ⟨acc', hok⟩ := hI.next hL.toStructured hofferGet (hw ▸ hL.snapshot_grants) hmem
    exact ⟨acc', hok, hI.round
      (hL.grant (hmem g (List.mem_append_right _ (List.mem_cons_self ..)))) hok⟩
  have hgrantGet (k : String) : L₀.grants.get? k = L.grants.get? k := by
    refine Option.ext fun g => ?_
    have hget := hG.get? (k := k) (g := g)
    rw [hget, hL.mem_snapshot_grants]
    constructor
    · rintro ⟨hg, rfl⟩
      exact hg
    · intro hg
      have hkey := hL.grantKey hg
      exact ⟨hkey ▸ hg, hkey⟩
  have hperm := L.snapshot_requests_perm
  obtain ⟨acc, hrequests, hR⟩ : ∃ acc,
      L.snapshot.requests.foldlM (hydrateRequest sha) ⟨none, L₀, .empty, .empty⟩
      = .ok acc ∧ RequestsLoaded sha L₀ L.snapshot.requests acc := by
    refine foldlM_progress L.snapshot.requests (fun ps q rest acc hw hI => ?_) _ [] _ rfl
      (RequestsLoaded.nil hG.structured hG.noRequests)
    obtain ⟨acc', hok⟩ := hI.next hL.toValid hgrantGet (hw ▸ hL.snapshot_requests) (hw ▸ hperm)
    exact ⟨acc', hok, hI.round hok⟩
  have hmatch : ∀ g ∈ acc.ledger.grants.values, countersMatch acc g = true := by
    intro g hg
    obtain ⟨k, hk⟩ := JsMap.mem_values_iff.mp hg
    have hkey := hR.structured.grantKey hk
    rw [hR.grants, hgrantGet, hkey] at hk
    exact hL.toValid.countersMatch hR.held hR.consumed hperm hk
  refine ⟨acc.ledger, ?_⟩
  unfold hydrate
  simp only [bind_ok, failStateIf_ok, not_or, not_lt]
  exact ⟨(), ⟨hcapO, hcapG, hcapR⟩, _, hoffers, _,
    hydrateGrants_ok.mpr ⟨_, fun g hg => hL.grant (hL.mem_snapshot_grants.mp hg), rfl, hgrants⟩,
    acc, hrequests, (), not_not.mpr hmatch, rfl⟩

/-! ### `fromState` -/

/-- A snapshot that `fromState` accepts is the export of the ledger it gives. -/
theorem fromState_sound {state : Value} (h : fromState sha state = .ok L) :
    L.Exportable sha ∧ Value.Same L.snapshot.encode state := by
  unfold fromState at h
  cases hd : stateCodec.decode state with
  | error e =>
    rw [hd] at h
    cases h
  | ok s =>
    rw [hd] at h
    obtain ⟨hL, hs⟩ := hydrate_sound h
    refine ⟨hL, ?_⟩
    rw [← encode_snapshot hL.toValid, hs]
    exact stateCodec.same_of_decode state s hd

/-- The export of a valid ledger is accepted exactly when the ledger is
exportable, and then gives back the same export. -/
theorem fromState_export_iff (hL : L.Valid sha) :
    (∃ L', fromState sha L.snapshot.encode = .ok L' ∧ L'.snapshot.encode = L.snapshot.encode) ↔
      L.Exportable sha := by
  have hd : fromState sha L.snapshot.encode = hydrate sha L.snapshot.exported := by
    unfold fromState
    rw [← encode_snapshot hL, Codec.decode_encode_self]
  constructor
  · rintro ⟨L', h, -⟩
    obtain ⟨hL', hs⟩ := hydrate_sound (hd ▸ h)
    have hgrants : L'.snapshot.grants.map Grant.exported = L.snapshot.grants.map Grant.exported :=
      congrArg ExportedState.grants hs
    have hoffers : L'.snapshot.offers = L.snapshot.offers := congrArg ExportedState.offers hs
    refine { toValid := hL, offerCap := ?_, grantCap := ?_, plain := fun k g hg => ?_ }
    · have hcap := hL'.offerCap
      rwa [← L'.length_snapshot_offers, hoffers, L.length_snapshot_offers] at hcap
    · have hcap := hL'.grantCap
      have hlength := congrArg List.length hgrants
      rw [List.length_map, List.length_map, L'.length_snapshot_grants,
        L.length_snapshot_grants] at hlength
      rwa [hlength] at hcap
    · have hmem : g.exported ∈ L'.snapshot.grants.map Grant.exported :=
        hgrants ▸ List.mem_map_of_mem (hL.mem_snapshot_grants.mpr (hL.grantKey hg ▸ hg))
      obtain ⟨g', hg', he⟩ := List.mem_map.mp hmem
      have hplain := (hL'.grant (hL'.mem_snapshot_grants.mp hg')).plain
      have htx : g'.transactionId = g.transactionId := congrArg ExportedGrant.transactionId he
      exact htx ▸ hplain
  · intro hexp
    obtain ⟨L', h⟩ := hydrate_complete hexp
    obtain ⟨hL', hs⟩ := hydrate_sound h
    refine ⟨L', hd.trans h, ?_⟩
    rw [← encode_snapshot hL'.toValid, hs, encode_snapshot hL]

end Credit
end ZenonX402
