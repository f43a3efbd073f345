/-
# What hydration accepts

A ledger that `fromState` returns satisfies all that a ledger of a run does, but
that at most one of its requests is unresolved, which hydration does not ask
(`hydration_sound`); no run from it adds to them while one is left. A ledger of
a run is not always accepted: hydration has caps on the offers and the grants
that the operations have not, and a grant funded by a transaction that is named
by an array does not pass the comparison with its own activation record
(`recovers_iff`).

Key definitions: `Recovers`, `Ledger.Sound`, `RunSound`.
Key theorems: `recovers_iff`, `run_sound`, `hydration_sound`.
-/
import ZenonX402.Credit.Authorization

namespace ZenonX402
namespace Credit

open Js Prog

/-! ### Recovery -/

/-- What `m` exports is accepted by `fromState`, and the instance it gives
exports the same. -/
def Recovers (sha : Sha256) (m : Model) : Prop := ∃ state L, (exportState.exec m).1 = .ok state
  ∧ fromState sha state = .ok L ∧ (exportState.exec (.idle L)).1 = .ok state

theorem exportState_exec (m : Model) : exportState.exec m = (.ok m.ledger.snapshot.encode, m) := rfl

/-- An instance of a run recovers exactly when it is within the caps of
hydration and none of its grants names its transaction by an array. -/
theorem recovers_iff {sha : Sha256} {cs : List Called} {m : Model}
    (hrun : Run (CallStep sha) .new cs m) :
    Recovers sha m ↔ m.ledger.offers.size ≤ MAX_HYDRATED_OFFERS ∧ m.ledger.grants.size
      ≤ MAX_HYDRATED_GRANTS
      ∧ ∀ k g, m.ledger.grants.get? k = some g → g.transactionId.depth = 0 := by
  obtain ⟨L, hL, rfl⟩ := run_idle hrun ⟨.empty, Ledger.valid_empty sha, rfl⟩
  have hrecovers : Recovers sha (.idle L) ↔
      ∃ L', fromState sha L.snapshot.encode = .ok L' ∧ L'.snapshot.encode = L.snapshot.encode := by
    unfold Recovers
    simp only [exportState_exec, Except.ok.injEq]
    constructor
    · rintro ⟨state, L', rfl, h, he⟩
      exact ⟨L', h, he⟩
    · rintro ⟨L', h, he⟩
      exact ⟨_, L', rfl, h, he⟩
  rw [hrecovers, fromState_export_iff hL]
  constructor
  · exact fun h => ⟨h.offerCap, h.grantCap, h.plain⟩
  · exact fun ⟨hoffers, hgrants, hplain⟩ =>
      { toValid := hL, offerCap := hoffers, grantCap := hgrants, plain := hplain }

/-- The sample is within the caps. -/
theorem recovers_iff_sample :
    let m := (runCalls .standard (Sample.calls .standard) .new).2
    Recovers .standard m ↔ m.ledger.offers.size ≤ MAX_HYDRATED_OFFERS
      ∧ m.ledger.grants.size ≤ MAX_HYDRATED_GRANTS
      ∧ ∀ k g, m.ledger.grants.get? k = some g → g.transactionId.depth = 0 :=
  recovers_iff (run_runCalls ..)

/-! ### Too many offers -/

/-- A new offer that is registered is there afterwards. -/
theorem registerOffer_run (sha : Sha256) (env : Env) {L : Ledger} {o : Offer}
    (hnew : L.offers.get? (offerKey o.offerId o.offerVersion) = none) :
    ((Call.registerOffer (offerCodec.encode o)).run sha env (.idle L)).2 =
      .idle { L with offers := L.offers.set (offerKey o.offerId o.offerVersion) o } := by
  have hends : Ends (runPublicOperation (Call.body sha env (.registerOffer (offerCodec.encode o)))) (.idle L)
      fun _ m => m = .idle { L with offers := L.offers.set (offerKey o.offerId o.offerVersion) o } := by
    unfold runPublicOperation
    refine ends_get.mpr (ends_ite.mpr ⟨fun h => (by cases h), fun _ => ends_modify.mpr ?_⟩)
    refine ends_finallyDo.mpr (ends_map.mpr ?_)
    unfold registerOffer normalizeOffer
    refine ends_lift.mpr ⟨fun c hc => ?_, fun o' ho' => ?_⟩
    · rw [Codec.decode_encode_self] at hc
      cases hc
    · rw [Codec.decode_encode_self] at ho'
      cases ho'
      refine ends_get.mpr ?_
      simp only [Model.idle, hnew]
      exact ends_modify.mpr rfl
  exact hends

namespace Sample

/-- The version number `n + 1`. -/
def version (n : Nat) : PositiveInt :=
  if h : n < 9007199254740991 then ⟨n + 1, by omega, by simp⟩ else number 1

/-- The registrations of the first `n` versions of an offer. -/
def registrations (n : Nat) : List (Call × Env) :=
  (List.range n).map fun i => (.registerOffer (offerCodec.encode (offer (version i))), env)

theorem version_inj {i j : Nat} (hi : i < 9007199254740991) (hj : j < 9007199254740991)
    (h : version i = version j) : i = j := by
  unfold version at h
  rw [dif_pos hi, dif_pos hj] at h
  have := congrArg Subtype.val h
  simp only at this
  omega

/-- Versions that are not there yet are all added. -/
theorem size_registrations (vs : List PositiveInt) (hn : vs.Nodup) (L : Ledger)
    (hnew : ∀ v ∈ vs, L.offers.get? (offerKey (offer v).offerId v) = none) :
    (runCalls .standard (vs.map fun v => (.registerOffer (offerCodec.encode (offer v)), env))
      (.idle L)).2.ledger.offers.size
      = L.offers.size + vs.length := by
  induction vs generalizing L with
  | nil => rfl
  | cons v vs ih =>
    obtain ⟨hv, hn⟩ := List.nodup_cons.mp hn
    have hfirst := hnew v (List.mem_cons_self ..)
    have hrun := registerOffer_run .standard env (o := offer v) hfirst
    have hrest : ∀ w ∈ vs, (L.offers.set (offerKey (offer v).offerId v) (offer v)).get?
        (offerKey (offer w).offerId w) = none := by
      intro w hw
      rw [JsMap.get?_set_ne]
      · exact hnew w (List.mem_cons_of_mem _ hw)
      · intro he
        obtain ⟨-, rfl⟩ := offerKey_inj he
        exact hv hw
    have hsize := ih hn { L with offers := L.offers.set (offerKey (offer v).offerId v) (offer v) }
      hrest
    rw [List.map_cons]
    unfold runCalls
    simp only [hrun]
    refine hsize.trans ?_
    simp only [JsMap.size_set, hfirst, List.length_cons]
    rw [if_neg (by simp)]
    omega

theorem size_registrations_new {n : Nat} (hn : n < 9007199254740991) :
    (runCalls .standard (registrations n) .new).2.ledger.offers.size = n := by
  have hnodup : ((List.range n).map version).Nodup := by
    refine List.Nodup.map_on (fun i hi j hj h => ?_) List.nodup_range
    have hi := List.mem_range.mp hi
    have hj := List.mem_range.mp hj
    exact version_inj (by omega) (by omega) h
  have h := size_registrations _ hnodup .empty fun _ _ => rfl
  rw [List.map_map, List.length_map, List.length_range] at h
  exact h.trans (Nat.zero_add n)

end Sample

/-- One offer more than the cap and the export is rejected. -/
theorem not_recovers_registrations :
    ¬ Recovers .standard (runCalls .standard (Sample.registrations 10001) .new).2 := by
  intro h
  have hcap := ((recovers_iff (run_runCalls .standard (Sample.registrations 10001) .new)).mp h).1
  rw [Sample.size_registrations_new (by omega)] at hcap
  exact absurd hcap (by decide)

/-! ### A snapshot with two unresolved requests -/

/-- The instance that a valid ledger hydrates to has the same requests. -/
theorem unresolvedAt_hydrated {sha : Sha256} {L L' : Ledger} (hL : L.Valid sha)
    (h : fromState sha L.snapshot.encode = .ok L') {k r : String} (hu : L.UnresolvedAt k r) :
    L'.UnresolvedAt k r := by
  obtain ⟨hL', hsame⟩ := fromState_sound h
  have hexported : L'.snapshot.exported = L.snapshot.exported := by
    rw [← encode_snapshot hL'.toValid, ← encode_snapshot hL] at hsame
    exact stateCodec.encode_injective hsame
  have hrequests : L'.snapshot.requests = L.snapshot.requests :=
    congrArg ExportedState.requests hexported
  obtain ⟨q, hq, hs⟩ := hu
  obtain ⟨hmem, hk, hr⟩ := hL.request?_iff.mp hq
  refine ⟨q, hL'.request?_iff.mpr ⟨?_, hk, hr⟩, hs⟩
  rw [← L'.snapshot_requests_perm.mem_iff, hrequests, L.snapshot_requests_perm.mem_iff]
  exact hmem

/-- A request that is found under its keys. -/
theorem Ledger.Valid.has {sha : Sha256} {L : Ledger} (hL : L.Valid sha) {g : Grant}
    {r : String} {q : Request} (hg : L.grants.get? g.grantId.1 = some g)
    (hq : L.request? g.grantId.1 r = some q) : ∃ rs, L.Has g rs q := by
  unfold Ledger.request? at hq
  obtain ⟨rs, hrs, hget⟩ := Option.bind_eq_some_iff.mp hq
  have hr := (hL.requestsScoped g rs r q hg hrs hget).requestId
  exact ⟨rs, hg, hrs, hr ▸ hget⟩

namespace Sample

def registered : Ledger :=
  let o := offer (number 1)
  { Ledger.empty with offers := Ledger.empty.offers.set (offerKey o.offerId o.offerVersion) o }

def first : Identifier := identifier "request-1"

def second : Identifier := identifier "request-2"

theorem second_ne_first : second.1 ≠ first.1 := by decide

section

variable (sha : Sha256)

def grant : Grant := mintedGrant sha activation

def grantHeld : Grant := ((grant sha).hold (number 3)).hold (number 3)

def reserved (r : Identifier) : Request := newRequest sha (grant sha) (request sha r) (number 3)

def executing (r : Identifier) : Request := { reserved sha r with state := .EXECUTING }

/-- A grant with two requests, both RESERVED. -/
def twoReserved : Ledger :=
  let L := ((registered.addGrant (grant sha)).setGrant
    ((grant sha).hold (number 3))).setRequest (reserved sha first)
  (L.setGrant (grantHeld sha)).setRequest (reserved sha second)

/-- A grant with two requests, both EXECUTING. -/
def twoExecuting : Ledger :=
  ((twoReserved sha).setRequest (executing sha first)).setRequest (executing sha second)

end

variable {sha : Sha256}

theorem registered_valid : registered.Valid sha := (Ledger.valid_empty _).registerOffer rfl

theorem funded_valid : (registered.addGrant (grant sha)).Valid sha := by
  have hfresh : registered.Fresh (grant sha).toGrantIdentity := by
    refine ⟨rfl, rfl, rfl, ?_, rfl⟩
    unfold Ledger.activationByTransaction?
    exact if_pos rfl
  have hoffer : registered.offers.get? (grant sha).offerKey = some (offer (number 1)) :=
    JsMap.get?_set_self ..
  have hscope : offerScopeMatches (offer (number 1)) (grant sha).activation = true := by
    unfold offerScopeMatches
    simp only [Bool.and_eq_true, decide_eq_true_eq]
    exact ⟨⟨⟨⟨⟨rfl, rfl⟩, rfl⟩, rfl⟩, rfl⟩, rfl⟩
  exact registered_valid.addGrant hfresh rfl (Ledger.balanced_minted _ _) hoffer hscope

/-- One more request of the grant is reserved. -/
theorem reserve_spec {L : Ledger} (hL : L.Valid sha) {g : Grant} {rs : JsMap String Request}
    (hid : g.toGrantIdentity = (grant sha).toGrantIdentity)
    (hg : L.grants.get? (grant sha).grantId.1 = some g)
    (hrs : L.requests.get? (grant sha).grantId.1 = some rs) {r : Identifier}
    (hnew : rs.get? r.1 = none) (hcap : L.requestCount < 10) (hfund : 3 ≤ g.availableUnits) :
    ((L.setGrant (g.hold (number 3))).setRequest (reserved sha r)).Valid sha
      ∧ ((L.setGrant (g.hold (number 3))).setRequest (reserved sha r)).grants.get?
      (grant sha).grantId.1
        = some (g.hold (number 3))
      ∧ ((L.setGrant (g.hold (number 3))).setRequest (reserved sha r)).requests.get?
        (grant sha).grantId.1
        = some (rs.set r.1 (reserved sha r))
      ∧ ((L.setGrant (g.hold (number 3))).setRequest (reserved sha r)).requestCount
        ≤ L.requestCount + 1 := by
  have hreserved : reserved sha r = newRequest sha g (request sha r) (number 3) := by
    unfold reserved newRequest
    rw [hid]
  have hrs' : (L.setGrant (g.hold (number 3))).requests.get? (reserved sha r).grantId.1
      = some rs := hrs
  have hkey : (g.hold (number 3)).grantId.1 = (grant sha).grantId.1 :=
    congrArg (fun i : GrantIdentity => i.grantId.1) hid
  refine ⟨?_, ?_, ?_, ?_⟩
  · have hgid : g.grantId.1 = (grant sha).grantId.1 := hkey
    rw [hreserved]
    refine hL.reserve (hgid ▸ hg) (hgid ▸ hrs) ?_ hnew ?_ (show (3 : Int) ≤ 5 by omega) hfund
    · exact (congrArg GrantIdentity.grantId hid).symm
    · unfold MAX_HYDRATED_REQUESTS
      omega
  · rw [Ledger.setRequest_grants, Ledger.get?_setGrant, hkey, if_pos rfl]
  · rw [Ledger.get?_setRequest hrs']
    exact if_pos rfl
  · rw [Ledger.requestCount_setRequest hrs']
    change L.requestCount + _ ≤ _
    split <;> omega

theorem twoReserved_spec : (twoReserved sha).Valid sha
    ∧ (twoReserved sha).grants.get? (grantHeld sha).grantId.1 = some (grantHeld sha)
    ∧ (twoReserved sha).requests.get? (grantHeld sha).grantId.1 =
      some ((JsMap.empty.set first.1 (reserved sha first)).set second.1 (reserved sha second)) := by
  have hcount : (registered.addGrant (grant sha)).requestCount = 0 :=
    Ledger.requestCount_addGrant (@registered_valid sha).toStructured rfl
  have hg : (registered.addGrant (grant sha)).grants.get? (grant sha).grantId.1
      = some (grant sha) := by
    rw [Ledger.get?_addGrant, if_pos rfl]
  have hrs : (registered.addGrant (grant sha)).requests.get? (grant sha).grantId.1
      = some .empty := by
    rw [Ledger.requests_addGrant, if_pos rfl]
  obtain ⟨hL₁, hg₁, hrs₁, hcount₁⟩ := reserve_spec (r := first) funded_valid rfl hg hrs rfl
    (by omega) (show (3 : Int) ≤ 10 by omega)
  have hnew : (JsMap.empty.set first.1 (reserved sha first)).get? second.1 = none := by
    rw [JsMap.get?_set_ne _ _ second_ne_first]
    rfl
  have hleft : ((grant sha).hold (number 3)).availableUnits = 7 := by
    change Js.sub 10 3 = 7
    exact sub_of_le (by decide)
  obtain ⟨hL₂, hg₂, hrs₂, -⟩ :=
    reserve_spec (g := (grant sha).hold (number 3)) (r := second) hL₁ rfl hg₁ hrs₁ hnew
    (by omega) (by omega)
  exact ⟨hL₂, hg₂, hrs₂⟩

theorem twoExecuting_grants (k : String) : (twoExecuting sha).grants.get? k =
    if k = (grant sha).grantId.1 then some (grantHeld sha) else none := by
  change (((JsMap.empty.set (grant sha).grantId.1 (grant sha)).set (grant sha).grantId.1
    ((grant sha).hold (number 3))).set (grant sha).grantId.1 (grantHeld sha)).get? k = _
  by_cases hk : k = (grant sha).grantId.1
  · rw [hk, JsMap.get?_set_self, if_pos rfl]
  · rw [if_neg hk, JsMap.get?_set_ne _ _ hk, JsMap.get?_set_ne _ _ hk, JsMap.get?_set_ne _ _ hk]
    rfl

theorem first_executing : ((twoReserved sha).setRequest (executing sha first)).Valid sha
    ∧ ∀ k r, ((twoReserved sha).setRequest (executing sha first)).request? k r =
      if k = (executing sha first).grantId.1 ∧ r = (executing sha first).requestId.1
        then some (executing sha first) else (twoReserved sha).request? k r := by
  obtain ⟨hL, hg, hrs⟩ := @twoReserved_spec sha
  have hfirst : (twoReserved sha).Has (grantHeld sha) _ (reserved sha first) := ⟨hg, hrs,
    (JsMap.get?_set_ne _ _ second_ne_first.symm).trans (JsMap.get?_set_self ..)⟩
  exact ⟨hfirst.execute hL rfl, request?_setRequest (q := executing sha first) hrs⟩

theorem second_executing : (twoExecuting sha).Valid sha
    ∧ ∀ k r, (twoExecuting sha).request? k r =
      if k = (executing sha second).grantId.1 ∧ r = (executing sha second).requestId.1
        then some (executing sha second)
        else ((twoReserved sha).setRequest (executing sha first)).request? k r := by
  obtain ⟨-, hg, hrs⟩ := @twoReserved_spec sha
  obtain ⟨hL₁, hq₁⟩ := @first_executing sha
  have hrequest : ((twoReserved sha).setRequest (executing sha first)).request?
      (grantHeld sha).grantId.1
      second.1 = some (reserved sha second) := by
    rw [hq₁, if_neg fun h => second_ne_first h.2]
    unfold Ledger.request?
    rw [hrs, Option.bind_some]
    exact JsMap.get?_set_self ..
  rw [← Ledger.setRequest_grants (executing sha first)] at hg
  obtain ⟨rs, hsecond⟩ := hL₁.has hg hrequest
  exact ⟨hsecond.execute hL₁ rfl, request?_setRequest (q := executing sha second) hsecond.requests⟩

theorem twoExecuting_exportable : (twoExecuting sha).Exportable sha where
  toValid := second_executing.1
  offerCap := by
    have hsize : (twoExecuting sha).offers.size ≤ 1 := JsMap.size_set_le ..
    exact hsize.trans (by decide)
  grantCap := by
    have hsize : (twoExecuting sha).grants.size ≤ 3 :=
      (JsMap.size_set_le ..).trans (Nat.succ_le_succ ((JsMap.size_set_le ..).trans
        (Nat.succ_le_succ (JsMap.size_set_le ..))))
    exact hsize.trans (by decide)
  plain k g hg := by
    rw [twoExecuting_grants] at hg
    split at hg
    · cases Option.some.inj hg
      rfl
    · cases hg

theorem twoExecuting_unresolved : (twoExecuting sha).UnresolvedAt (grant sha).grantId.1 first.1
    ∧ (twoExecuting sha).UnresolvedAt (grant sha).grantId.1 second.1 := by
  obtain ⟨-, hq₁⟩ := @first_executing sha
  obtain ⟨-, hq₂⟩ := @second_executing sha
  refine ⟨⟨executing sha first, ?_, .inl rfl⟩, ⟨executing sha second, ?_, .inl rfl⟩⟩
  · rw [hq₂, if_neg fun h => second_ne_first h.2.symm, hq₁]
    exact if_pos ⟨rfl, rfl⟩
  · rw [hq₂]
    exact if_pos ⟨rfl, rfl⟩

end Sample

/-! ### Soundness of hydration -/

/-- What every ledger of a run satisfies, in terms of its export: the records
are in strict order, every grant and every index entry is what the terms of the
grant give, no two grants share a key, every request belongs to its grant, and
the units are conserved. -/
structure Ledger.Sound (sha : Sha256) (L : Ledger) : Prop where
  offers : L.snapshot.offers.Pairwise offerLt
  grants : L.snapshot.grants.Pairwise grantLt
  requests : L.snapshot.requests.Pairwise requestLt
  indexed : L.Indexed sha
  unique : ∀ g ∈ L.snapshot.grants, ∀ g' ∈ L.snapshot.grants,
    Ledger.SharesKey g.toGrantIdentity g'.toGrantIdentity → g = g'
  owned : ∀ q ∈ L.snapshot.requests, ∃ g ∈ L.snapshot.grants,
    q.Scoped sha g.toGrantIdentity q.requestId.1
  conserved : ∀ g ∈ L.snapshot.grants, g.Conserved L

theorem Ledger.Valid.sound {sha : Sha256} {L : Ledger} (hL : L.Valid sha) : L.Sound sha where
  offers := hL.snapshot_offers
  grants := hL.snapshot_grants
  requests := hL.snapshot_requests
  indexed := hL.indexed
  unique g hg g' hg' hshare := by
    have h := hL.mem_snapshot_grants.mp hg
    have h' := hL.mem_snapshot_grants.mp hg'
    have hid := hL.unique (identity?_of_get? h) (identity?_of_get? h') hshare
    rw [hid, h'] at h
    exact (Option.some.inj h).symm
  owned q hq := by
    obtain ⟨g, rs, hg, hrs, hget, -⟩ :=
      hL.mem_allRequests.mp (L.snapshot_requests_perm.mem_iff.mp hq)
    exact ⟨g, hL.mem_snapshot_grants.mpr hg, hL.requestsScoped g rs _ q hg hrs hget⟩
  conserved g hg := hL.conserved (hL.mem_snapshot_grants.mp hg)

/-- Some request is unresolved when the ledger says so. -/
theorem hasUnresolvedExecution_of_unresolvedAt {L : Ledger} {k r : String}
    (h : L.UnresolvedAt k r) :
    L.hasUnresolvedExecution = true := by
  by_contra hn
  exact not_unresolvedAt (by simpa using hn) k r h

/-- What holds after a run with the calls `cs` from the ledger `L`: the ledger is
sound; no request was authorized twice; the next call authorizes one only as it
leaves RESERVED while none is unresolved, and adds none while one is; none
returns to RESERVED; and the unresolved requests were so in `L`, or there is at
most one. -/
structure RunSound (sha : Sha256) (L : Ledger) (cs : List Called) (m : Model) : Prop where
  sound : m.ledger.Sound sha
  once : ∀ ref, (cs.filter fun c => c.authorizes ref).length ≤ 1
  authorized : ∀ c m' ref, CallStep sha m c m' → c.authorizes ref = true →
    Authorized m.ledger c.env ref
  blocked : ∀ c m' k r k' r', CallStep sha m c m' → m.ledger.UnresolvedAt k r →
    m.ledger.request? k' r' = none → m'.ledger.request? k' r' = none
  left : ∀ after m' ref, Run (CallStep sha) m after m' → Left ref m.ledger → Left ref m'.ledger
  resolves : L.Resolves m.ledger

theorem run_sound {sha : Sha256} {L : Ledger} {cs : List Called} {m : Model} (hL : L.Valid sha)
    (hrun : Run (CallStep sha) (.idle L) cs m) : RunSound sha L cs m := by
  have honce := run_authorizes_once hrun ⟨L, hL, rfl⟩
  obtain ⟨M, hM, rfl⟩ := run_idle hrun ⟨L, hL, rfl⟩
  refine ⟨hM.sound, honce, fun c m' ref hcall hauth => ?_,
    fun c m' k r k' r' hcall hunres hnone => ?_, fun after m' ref hafter => ?_,
    run_resolves hrun hL⟩
  · obtain ⟨L', -, hs⟩ := CallStep.began hM hcall hauth
    exact hs.authorized
  · obtain ⟨L', rfl, hmoves⟩ := CallStep.moves hM hcall
    rcases hmoves.step with rfl | ⟨e, hs⟩
    · exact hnone
    · exact hs.adds_none hM (hasUnresolvedExecution_of_unresolvedAt hunres) hnone
  · obtain ⟨L', -, rfl⟩ := run_idle hafter ⟨M, hM, rfl⟩
    exact (run_advances hafter hM).left

/-- A snapshot that `fromState` accepts is what its ledger exports, the ledger
is sound, and so is every run from it. -/
theorem hydration_sound {sha : Sha256} {state : Value} {L : Ledger}
    (h : fromState sha state = .ok L) :
    (∃ exported, (exportState.exec (.idle L)).1 = .ok exported ∧ exported.Same state) ∧ L.Sound sha
      ∧ ∀ cs m, Run (CallStep sha) (.idle L) cs m → RunSound sha L cs m := by
  obtain ⟨hexp, hsame⟩ := fromState_sound h
  exact ⟨⟨_, rfl, hsame⟩, hexp.toValid.sound, fun cs m hrun => run_sound hexp.toValid hrun⟩

/-- The snapshot with two executing requests is accepted, and sound. -/
theorem hydration_sound_sample :
    let state := (Sample.twoExecuting .standard).snapshot.encode
    ∃ L, fromState .standard state = .ok L
      ∧ (∃ exported, (exportState.exec (.idle L)).1 = .ok exported ∧ exported.Same state)
      ∧ L.Sound .standard
      ∧ ∀ cs m, Run (CallStep .standard) (.idle L) cs m → RunSound .standard L cs m := by
  have hexp := @Sample.twoExecuting_exportable .standard
  obtain ⟨L, h, -⟩ := (fromState_export_iff hexp.toValid).mpr hexp
  exact ⟨L, h, hydration_sound h⟩

/-- Hydration accepts a snapshot with two requests that are EXECUTING. -/
theorem two_unresolved_accepted :
    ∃ L, fromState .standard (Sample.twoExecuting .standard).snapshot.encode = .ok L
    ∧ ¬ L.AtMostOneUnresolved := by
  have hexp := @Sample.twoExecuting_exportable .standard
  obtain ⟨hfirst, hsecond⟩ := @Sample.twoExecuting_unresolved .standard
  obtain ⟨L, h, -⟩ := (fromState_export_iff hexp.toValid).mpr hexp
  refine ⟨L, h, fun hone => ?_⟩
  have heq := hone _ _ _ _ (unresolvedAt_hydrated hexp.toValid h hfirst)
    (unresolvedAt_hydrated hexp.toValid h hsecond)
  exact Sample.second_ne_first heq.2.symm

end Credit
end ZenonX402
