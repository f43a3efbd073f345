/-
# Calls that throw and grants that are over

A call that throws leaves the exported state as it was, except that the grant it
names may have expired; a call that returns has changed that grant and its
requests at most, registered its offer or minted its grant (`Atomic`). A grant
that is expired or revoked stays so and gains no request, whatever the clock
reads later (`Retired`).

Key definitions: `Snapshot.withGrant`, `Atomic`, `Retired`.
Key theorems: `snapshot_setGrant`, `Effect.atomic`, `Step.retired`, `calls_are_atomic`.
-/
import ZenonX402.Credit.Identity

namespace ZenonX402
namespace Credit

open Js Prog

/-! ### The export of an expiry -/

/-- The snapshot with a grant in place of the one of the same identifier. -/
def Snapshot.withGrant (s : Snapshot) (g : Grant) : Snapshot :=
  { s with grants := s.grants.map fun h => if h.grantId = g.grantId then g else h }

variable {sha : Sha256} {env : Env} {L L' : Ledger}

/-- Entries that are kept under the identifiers of their grants. -/
theorem setEntry_grants {g : Grant} :
    ∀ {es : List (String × Grant)}, (∀ e ∈ es, e.1 = e.2.grantId.1) →
    (es.map Prod.fst).Nodup → g.grantId.1 ∈ es.map Prod.fst →
    (JsMap.setEntry g.grantId.1 g es).map Prod.snd =
      (es.map Prod.snd).map fun h => if h.grantId = g.grantId then g else h
  | [], _, _, hmem => absurd hmem List.not_mem_nil
  | (k, h) :: es, hkeys, hnodup, hmem => by
    have hk : k = h.grantId.1 := hkeys (k, h) List.mem_cons_self
    have hkeys' : ∀ e ∈ es, e.1 = e.2.grantId.1 := fun e he => hkeys e (List.mem_cons_of_mem _ he)
    obtain ⟨hnot, hnodup'⟩ := List.nodup_cons.mp hnodup
    subst hk
    rw [JsMap.setEntry]
    by_cases hid : h.grantId = g.grantId
    · rw [if_pos (congrArg Subtype.val hid), List.map_cons, List.map_cons,
        List.map_cons, if_pos hid]
      refine congrArg (g :: ·) ?_
      rw [List.map_map]
      refine List.map_congr_left fun e he => (if_neg fun heq => hnot ?_).symm
      exact List.mem_map.mpr ⟨e, he, by rw [hkeys' e he, heq, hid]⟩
    · have hne : ¬ h.grantId.1 = g.grantId.1 := fun heq => hid (Subtype.ext heq)
      rw [if_neg hne, List.map_cons, List.map_cons, List.map_cons, if_neg hid]
      have hrest := (List.mem_cons.mp hmem).resolve_left fun heq => hne heq.symm
      rw [setEntry_grants hkeys' hnodup' hrest]

/-- A grant that is written in its place is exported in its place. -/
theorem snapshot_setGrant (hL : L.Structured sha) {g g' : Grant} (hg : L.HasGrant g)
    (hid : g'.grantId = g.grantId) :
    (L.setGrant g').snapshot = L.snapshot.withGrant g' := by
  have hkeys : ∀ e ∈ L.grants.entries, e.1 = e.2.grantId.1 := fun e he =>
    hL.grantKey (JsMap.mem_entries_iff.mp he)
  have hmem : g'.grantId.1 ∈ L.grants.entries.map Prod.fst := by
    rw [hid]
    exact List.mem_map_of_mem (JsMap.mem_entries_iff.mpr hg)
  have hvalues : (L.grants.set g'.grantId.1 g').values =
      L.grants.values.map fun h => if h.grantId = g'.grantId then g' else h :=
    setEntry_grants hkeys L.grants.nodup hmem
  have hkey (h : Grant) : (if h.grantId = g'.grantId then g' else h).grantId = h.grantId := by
    split
    · rename_i heq
      exact heq.symm
    · rfl
  have hsort : (L.grants.set g'.grantId.1 g').values.insertionSort grantLe =
      (L.grants.values.insertionSort grantLe).map fun h => if h.grantId = g'.grantId then g'
      else h := by
    rw [hvalues]
    refine (List.map_insertionSort grantLe grantLe _ _ fun a _ b _ => ?_).symm
    unfold grantLe
    rw [hkey a, hkey b]
  exact congrArg (fun grants => (⟨L.snapshot.offers, grants, L.snapshot.requests⟩ : Snapshot)) hsort

/-- What a call has done to the ledger `L`. -/
structure Atomic (sha : Sha256) (L : Ledger) (c : Called) (L' : Ledger) : Prop where
  threw : ∀ code, c.result = .error code → L'.snapshot.encode = L.snapshot.encode
    ∨ ∃ g, c.call.target = some g.grantId ∧ L.HasGrant g ∧ g.lifecycle = .ACTIVE
      ∧ L'.snapshot.encode = (L.snapshot.withGrant { g with lifecycle := .EXPIRED }).encode
  returned : ∀ result, c.result = .ok result → L' = L
    ∨ (∃ input o, c.call = .registerOffer input ∧ normalizeOffer input = .ok o
      ∧ L.offers.get? (offerKey o.offerId o.offerVersion) = none
      ∧ L' = { L with offers := L.offers.set (offerKey o.offerId o.offerVersion) o })
    ∨ (∃ input a, c.call = .activateGrantFromTrustedRecord input ∧ normalizeActivation input = .ok a
      ∧ L.Fresh (.ofActivation sha a) ∧ L' = L.addGrant (mintedGrant sha a))
    ∨ ∃ k, c.call.target = some k ∧ L.Only k.1 L'

theorem Effect.atomic {c : Called} (h : Effect sha L c.call c.result L') (hL : L.Structured sha) :
    Atomic sha L c L' := by
  generalize hr : c.result = r at h
  cases h with
  | unchanged => exact ⟨fun _ _ => .inl rfl, fun _ _ => .inl rfl⟩
  | expired code g htarget hg hactive =>
    have hexport := @snapshot_setGrant sha L hL g { g with lifecycle := .EXPIRED } hg rfl
    refine ⟨fun _ _ => .inr ⟨g, htarget, hg, hactive, congrArg Snapshot.encode hexport⟩,
      fun r hok => ?_⟩
    rw [hr] at hok
    cases hok
  | registered r input o hcall ho hnew =>
    refine ⟨fun code hc => ?_, fun _ _ => .inr (.inl ⟨input, o, hcall, ho, hnew, rfl⟩)⟩
    rw [hr] at hc
    cases hc
  | minted r input a hcall ha hfresh =>
    refine ⟨fun code hc => ?_, fun _ _ => .inr (.inr (.inl ⟨input, a, hcall, ha, hfresh, rfl⟩))⟩
    rw [hr] at hc
    cases hc
  | touched r k _ htarget honly =>
    refine ⟨fun code hc => ?_, fun _ _ => .inr (.inr (.inr ⟨k, htarget, honly⟩))⟩
    rw [hr] at hc
    cases hc

/-! ### Grants that are over -/

/-- A grant that is not active is as it was, but for its counters, and its
requests are among those it had. -/
def Retired (L L' : Ledger) : Prop := ∀ k g, L.grants.get? k = some g → g.lifecycle ≠ .ACTIVE →
  ∃ g', L'.grants.get? k = some g' ∧ g'.toGrantIdentity = g.toGrantIdentity
    ∧ g'.lifecycle = g.lifecycle
    ∧ ∀ r, L.request? k r = none → L'.request? k r = none

theorem Retired.refl (L : Ledger) : Retired L L := fun _ g hg _ => ⟨g, hg, rfl, rfl, fun _ h => h⟩

theorem Retired.trans {L₁ L₂ L₃ : Ledger} (h : Retired L₁ L₂) (h' : Retired L₂ L₃) :
    Retired L₁ L₃ := by
  intro k g hg hover
  obtain ⟨g₂, hg₂, hid₂, hlife₂, hnone₂⟩ := h k g hg hover
  obtain ⟨g₃, hg₃, hid₃, hlife₃, hnone₃⟩ := h' k g₂ hg₂ (hlife₂ ▸ hover)
  exact ⟨g₃, hg₃, hid₃.trans hid₂, hlife₃.trans hlife₂, fun r hr => hnone₃ r (hnone₂ r hr)⟩

/-- A write to a grant that keeps what is fixed of it and its lifecycle. -/
theorem retired_setGrant {g g' : Grant} (hg : L.HasGrant g)
    (hid : g'.toGrantIdentity = g.toGrantIdentity)
    (hlife : g.lifecycle ≠ .ACTIVE → g'.lifecycle = g.lifecycle) : Retired L (L.setGrant g') := by
  intro k h hh hover
  rw [Ledger.get?_setGrant, hid]
  by_cases hk : k = g.grantId.1
  · subst hk
    obtain rfl := Option.some.inj (hh.symm.trans hg)
    exact ⟨g', if_pos rfl, hid, hlife hover, fun _ hr => hr⟩
  · exact ⟨h, by rw [if_neg hk, hh], rfl, rfl, fun _ hr => hr⟩

/-- A write to a request that is there. -/
theorem retired_setRequest {rs : JsMap String Request} {q q' : Request}
    (hrs : L.requests.get? q'.grantId.1 = some rs) (hq : rs.get? q'.requestId.1 = some q) :
    Retired L (L.setRequest q') := by
  intro k g hg _
  refine ⟨g, hg, rfl, rfl, fun r hr => ?_⟩
  rw [request?_setRequest hrs]
  by_cases hkey : k = q'.grantId.1 ∧ r = q'.requestId.1
  · obtain ⟨rfl, rfl⟩ := hkey
    unfold Ledger.request? at hr
    rw [hrs, Option.bind_some, hq] at hr
    cases hr
  · rw [if_neg hkey, hr]

/-- A grant and a request of it that is there are written. -/
theorem Ledger.Has.retired {g g' : Grant} {rs : JsMap String Request} {q q' : Request}
    (hq : L.Has g rs q) (hL : L.Valid sha) (hid : g'.toGrantIdentity = g.toGrantIdentity)
    (hlife : g'.lifecycle = g.lifecycle) (hgrant : q'.grantId = q.grantId)
    (hrequest : q'.requestId = q.requestId) :
    Retired L ((L.setGrant g').setRequest q') := by
  have hgid : q'.grantId.1 = g.grantId.1 := by rw [hgrant, (hq.scoped hL).grantId]
  refine (retired_setGrant hq.grant hid fun _ => hlife).trans ?_
  exact retired_setRequest (hgid ▸ hq.requests) (hrequest ▸ hq.request)

theorem Step.retired {e : Event} (h : Step sha env L e L') (hL : L.Valid sha) : Retired L L' := by
  have hkeep {g : Grant} (hg : L.HasGrant g) (q : Request) : L.setRequest q = (L.setGrant g).setRequest q := by
    rw [Ledger.setGrant_self hg]
  cases h with
  | offerRegistered o hnew => exact .refl L
  | grantMinted a o now hfresh =>
    intro k g hg _
    refine ⟨g, ?_, rfl, rfl, fun r hr => ?_⟩
    · rw [Ledger.get?_addGrant, if_neg, hg]
      rintro rfl
      exact absurd (hg.symm.trans hfresh.grant) (by simp)
    · rw [request?_addGrant hL.toStructured hfresh.grant, hr]
  | grantExpired g i now hg hactive => exact retired_setGrant hg rfl fun hover => absurd hactive hover
  | grantRevoked g hg hactive => exact retired_setGrant hg rfl fun hover => absurd hactive hover
  | reserved g rs normalized cost now hg hrs hgrant hnew hunres hcap hactive =>
    -- the grant that gains a request is active
    intro k h hh hover
    have hk : k ≠ g.grantId.1 := by
      rintro rfl
      obtain rfl := Option.some.inj (hh.symm.trans hg)
      exact hover hactive
    have hrs' : (L.setGrant (g.hold cost)).requests.get?
        (newRequest sha g normalized cost).grantId.1 = some rs := by
      rw [show (newRequest sha g normalized cost).grantId = g.grantId from hgrant]
      exact hrs
    refine ⟨h, ?_, rfl, rfl, fun r hr => ?_⟩
    · rw [Ledger.setRequest_grants, Ledger.get?_setGrant, if_neg (show ¬ k = (g.hold cost).grantId.1 from hk), hh]
    · rw [request?_setRequest hrs', if_neg fun hkey => hk (hkey.1.trans (congrArg Subtype.val hgrant))]
      exact hr
  | began g rs q now hq =>
    rw [hkeep hq.grant]
    exact hq.retired hL rfl rfl rfl rfl
  | released g rs q hq => exact hq.retired hL rfl rfl rfl rfl
  | completed g rs q cachedResult hq => exact hq.retired hL rfl rfl rfl rfl
  | markedUnknown g rs q hq =>
    rw [hkeep hq.grant]
    exact hq.retired hL rfl rfl rfl rfl
  | reconciled g rs q outcome hq => cases outcome <;> exact hq.retired hL rfl rfl rfl rfl

/-- Every call of a run is atomic, and a grant that is over stays so. -/
theorem calls_are_atomic {sha : Sha256} {L : Ledger} {cs : List Called} {m : Model}
    (hstart : Started sha L) (hrun : Run (CallStep sha) (.idle L) cs m) :
    (∀ c m', CallStep sha m c m' → Atomic sha m.ledger c m'.ledger)
      ∧ ∀ later m', Run (CallStep sha) m later m' → Retired m.ledger m'.ledger := by
  obtain ⟨L', hL', rfl⟩ := run_idle hrun ⟨L, hstart.valid, rfl⟩
  refine ⟨fun c m' hcall => ?_, fun later m' hlater => ?_⟩
  · obtain ⟨L'', rfl, heffect⟩ := hcall.effect hL'
    exact heffect.atomic hL'.toStructured
  · obtain ⟨L'', hL'', rfl⟩ := run_idle hlater ⟨L', hL', rfl⟩
    exact run_relates .refl .trans (fun _ _ _ _ hL hs => hs.retired hL) hlater hL'

/-- A grant is funded, a request of it reserved and begun. -/
theorem calls_are_atomic_sample :
    let m := (runCalls .standard (Sample.calls .standard) .new).2
    (∀ c m', CallStep .standard m c m' → Atomic .standard m.ledger c m'.ledger)
      ∧ ∀ later m', Run (CallStep .standard) m later m' → Retired m.ledger m'.ledger :=
  calls_are_atomic .new (run_runCalls .standard (Sample.calls .standard) .new)

end Credit
end ZenonX402
