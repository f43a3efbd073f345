/-
# What a call leaves as it is

A part of the ledger that a program never writes is the same after it, however
it ends (`Keeps`). Only `registerOffer` writes the offers and only
`activateGrantFromTrustedRecord` the identity indexes, so a call about a grant
touches that grant and its requests and nothing else (`Call.run_effect`).

Key definitions: `Keeps`, `Effect`.
Key theorems: `Call.body_keeps`, `activate_effect`, `Step.only`, `Call.run_effect`.
-/
import ZenonX402.Credit.Moves

namespace ZenonX402
namespace Credit

open Js Prog

/-! ### Parts that are kept -/

/-- However `p` ends, inside a public operation it leaves the part `f` of the ledger as it is. -/
def Keeps {α β : Type} (f : Ledger → β) (p : Prog Model Code α) : Prop :=
  ∀ L, Ends p (.busy L) fun _ m => ∃ L', m = .busy L' ∧ f L' = f L

section Rules

variable {α β γ : Type} {f : Ledger → γ}

theorem keeps_pure (a : α) : Keeps f (pure a) := fun L => ⟨L, rfl, rfl⟩

theorem keeps_throw (c : Code) : Keeps f (throw c : Prog Model Code α) := fun L => ⟨L, rfl, rfl⟩

theorem keeps_get {q : Model → Prog Model Code β} (hq : ∀ L, Keeps f (q (.busy L))) :
    Keeps f (get >>= q) :=
  fun L => ends_get.mpr (hq L L)

theorem keeps_bind {p : Prog Model Code α} {q : α → Prog Model Code β} (hp : Keeps f p)
    (hq : ∀ a, Keeps f (q a)) :
    Keeps f (p >>= q) := by
  intro L
  refine ends_bind.mpr ((hp L).mono fun r m ⟨L', hm, hf⟩ => ?_)
  subst hm
  cases r with
  | error e => exact ⟨L', rfl, hf⟩
  | ok a => exact (hq a L').mono fun _ m' ⟨L'', hm', hf'⟩ => ⟨L'', hm', hf'.trans hf⟩

theorem keeps_write {g : Model → Model} (hg : ∀ L, ∃ L', g (.busy L) = .busy L' ∧ f L' = f L) :
    Keeps f (modify g) := hg

theorem keeps_failIf {c : Prop} [Decidable c] {e : Code} : Keeps f (failIf c e) := by
  unfold failIf
  split
  · exact keeps_throw e
  · exact keeps_pure ()

theorem keeps_orFail {o : Option α} {e : Code} : Keeps f (orFail o e) := by
  cases o with
  | none => exact keeps_throw e
  | some a => exact keeps_pure a

theorem keeps_lift {x : Except Code α} : Keeps f (lift x) := by
  cases x with
  | error e => exact keeps_throw e
  | ok a => exact keeps_pure a

theorem keeps_ite {c : Prop} [Decidable c] {p q : Prog Model Code α} (hp : Keeps f p)
    (hq : Keeps f q) :
    Keeps f (if c then p else q) := by
  split
  · exact hp
  · exact hq

theorem keeps_exec {p : Prog Model Code α} {r : Ledger → Except Code α}
    (h : ∀ L, p.exec (.busy L) = (r L, .busy L)) :
    Keeps f p := by
  intro L
  unfold Ends
  rw [h L]
  exact ⟨L, rfl, rfl⟩

theorem keeps_readNow (env : Env) (i : Nat) : Keeps f (readNow env i) :=
  keeps_exec (readNow_exec env i)

theorem keeps_serverCost {env : Env} {o : Offer} {g : Grant} {n : RequestInput} :
    Keeps f (serverCost env o g n) :=
  keeps_exec (serverCost_exec env o g n)

theorem keeps_requireGrant {k : Identifier} : Keeps f (requireGrant k) :=
  keeps_get fun _ => keeps_orFail

theorem keeps_requireRequest {ref : Reference} : Keeps f (requireRequest ref) :=
  keeps_bind keeps_requireGrant fun _ => keeps_get fun _ => keeps_bind keeps_orFail
  fun _ => keeps_pure _

theorem keeps_refreshGrant (hf : ∀ L g, f (L.setGrant g) = f L) (env : Env) (i : Nat) (g : Grant) :
    Keeps f (refreshGrant env i g) := by
  unfold refreshGrant
  refine keeps_ite (keeps_bind (keeps_readNow env i) fun now => keeps_ite ?_ (keeps_pure _))
    (keeps_pure _)
  exact keeps_bind (keeps_write fun L => ⟨_, rfl, hf L _⟩) fun _ => keeps_pure _

theorem keeps_requestAdmissionState : Keeps f requestAdmissionState :=
  keeps_get fun _ => keeps_bind keeps_failIf fun _ => keeps_pure _

end Rules

/-! ### What the operations keep -/

/-- The offers and the activations: what only offers and minted grants change. -/
def Ledger.fixed (L : Ledger) : JsMap String Offer × JsMap String StoredActivation :=
  (L.offers, L.activations)

theorem fixed_setGrant (L : Ledger) (g : Grant) : (L.setGrant g).fixed = L.fixed := rfl

section Operations

variable (sha : Sha256) (env : Env)

theorem getGrant_keeps (input : Value) : Keeps Ledger.fixed (getGrant env input) := by
  refine keeps_bind keeps_lift fun k => keeps_get fun L => ?_
  split
  · exact keeps_pure _
  · exact keeps_bind (keeps_refreshGrant fixed_setGrant env 0 _) fun _ => keeps_pure _

theorem readOriginalFundingGrant_keeps (input : Value) :
    Keeps Ledger.fixed (readOriginalFundingGrant input) := by
  refine keeps_bind keeps_lift fun query => keeps_get fun L => ?_
  dsimp only
  split
  · refine keeps_bind keeps_orFail fun g => keeps_ite ?_ (keeps_pure _)
    exact keeps_bind keeps_failIf fun _ => keeps_pure _
  · exact keeps_pure _

theorem revokeGrant_keeps (input : Value) : Keeps Ledger.fixed (revokeGrant env input) := by
  refine keeps_bind keeps_lift fun k => keeps_bind keeps_requireGrant fun g => ?_
  refine keeps_bind (keeps_refreshGrant fixed_setGrant env 0 _) fun g => keeps_ite (keeps_pure _) ?_
  exact keeps_bind keeps_failIf fun _ => keeps_bind (keeps_write fun _ => ⟨_, rfl, rfl⟩)
    fun _ => keeps_pure _

theorem reserveRequest_keeps (input : Value) :
    Keeps Ledger.fixed (reserveRequest sha env input) := by
  refine keeps_bind keeps_lift fun n => keeps_bind keeps_requireGrant fun g => keeps_get fun L => ?_
  refine keeps_bind keeps_orFail fun rs => ?_
  split
  · exact keeps_bind keeps_failIf fun _ => keeps_pure _
  · refine keeps_bind keeps_requestAdmissionState fun _ => keeps_bind keeps_failIf fun _ => ?_
    refine keeps_bind keeps_failIf fun _ =>
      keeps_bind (keeps_refreshGrant fixed_setGrant env 0 _) fun g => ?_
    refine keeps_bind keeps_failIf fun _ => keeps_get fun L => keeps_bind keeps_orFail fun o => ?_
    refine keeps_bind keeps_serverCost fun cost => keeps_bind keeps_failIf fun _ => ?_
    refine keeps_bind keeps_failIf fun _ =>
      keeps_bind (keeps_refreshGrant fixed_setGrant env 1 _) fun g => ?_
    refine keeps_bind keeps_failIf fun _ =>
      keeps_bind (keeps_write fun _ => ⟨_, rfl, rfl⟩) fun _ => ?_
    exact keeps_bind keeps_failIf fun _ => keeps_bind (keeps_write fun _ => ⟨_, rfl, rfl⟩)
      fun _ => keeps_pure _

theorem getRequest_keeps (input : Value) : Keeps Ledger.fixed (getRequest input) := by
  refine keeps_bind keeps_lift fun ref => keeps_get fun L => ?_
  split <;> exact keeps_pure _

theorem beginExecution_keeps (input : Value) : Keeps Ledger.fixed (beginExecution env input) := by
  refine keeps_bind keeps_lift fun ref => keeps_bind keeps_requireRequest fun _ =>
    keeps_ite (keeps_pure _) ?_
  refine keeps_bind keeps_requestAdmissionState fun _ => keeps_bind keeps_failIf fun _ => ?_
  refine keeps_bind (keeps_refreshGrant fixed_setGrant env 0 _) fun g =>
    keeps_bind keeps_failIf fun _ => ?_
  exact keeps_bind (keeps_write fun _ => ⟨_, rfl, rfl⟩) fun _ => keeps_pure _

theorem releaseBeforeExecution_keeps (input : Value) :
    Keeps Ledger.fixed (releaseBeforeExecution input) := by
  refine keeps_bind keeps_lift fun ref => keeps_bind keeps_requireRequest fun _ =>
    keeps_ite (keeps_pure _) ?_
  refine keeps_bind keeps_failIf fun _ =>
    keeps_bind (keeps_write fun _ => ⟨_, rfl, rfl⟩) fun _ => ?_
  exact keeps_bind keeps_failIf fun _ => keeps_pure _

theorem completeExecution_keeps (input : Value) : Keeps Ledger.fixed (completeExecution input) := by
  refine keeps_bind keeps_lift fun given => keeps_bind keeps_requireRequest fun _ => ?_
  refine keeps_bind keeps_failIf fun _ => keeps_ite ?_ ?_
  · exact keeps_bind keeps_failIf fun _ => keeps_pure _
  · refine keeps_bind keeps_failIf fun _ =>
      keeps_bind (keeps_write fun _ => ⟨_, rfl, rfl⟩) fun _ => ?_
    exact keeps_bind keeps_failIf fun _ => keeps_pure _

theorem markOutcomeUnknown_keeps (input : Value) :
    Keeps Ledger.fixed (markOutcomeUnknown input) := by
  refine keeps_bind keeps_lift fun ref => keeps_bind keeps_requireRequest fun _ =>
    keeps_ite (keeps_pure _) ?_
  exact keeps_bind keeps_failIf fun _ => keeps_bind (keeps_write fun _ => ⟨_, rfl, rfl⟩)
    fun _ => keeps_pure _

theorem reconcileRequest_keeps (input : Value) : Keeps Ledger.fixed (reconcileRequest input) := by
  refine keeps_bind keeps_lift fun given => keeps_bind keeps_requireRequest fun _ => ?_
  refine keeps_bind keeps_failIf fun _ => keeps_ite ?_ ?_
  · exact keeps_bind keeps_failIf fun _ => keeps_pure _
  · refine keeps_bind keeps_failIf fun _ =>
      keeps_bind (keeps_write fun _ => ⟨_, rfl, rfl⟩) fun _ => ?_
    exact keeps_bind keeps_failIf fun _ => keeps_pure _

end Operations

/-! ### Activation -/

variable {sha : Sha256} {env : Env} {L L' : Ledger} {input : Value} {a : Activation}

/-- None of the five lookups of the activation finds anything. -/
theorem fresh_iff : L.Fresh (.ofActivation sha a) ↔
    ¬ ((L.activations.get? (mintedGrant sha a).activationId.1).isSome
      || (L.activationByAuthoritySettlement.get? (authoritySettlementKey a)).isSome
      || (L.activationByTransaction? a).isSome
      || (L.grantByCapability.get? a.1.capabilityCommitment.1).isSome
      || (L.grants.get? (mintedGrant sha a).grantId.1).isSome) = true := by
  simp only [Bool.or_eq_true, not_or, Bool.not_eq_true, Option.isSome_eq_false_iff,
    Option.isNone_iff_eq_none]
  constructor
  · intro h
    exact ⟨⟨⟨⟨h.activation, h.authoritySettlement⟩, h.transaction⟩, h.capability⟩, h.grant⟩
  · rintro ⟨⟨⟨⟨h1, h2⟩, h3⟩, h4⟩, h5⟩
    exact ⟨h5, h1, h2, h3, h4⟩

/-- An activation changes nothing, or mints the grant of its record. -/
theorem activate_effect (input : Value) : Ends (activateGrantFromTrustedRecord sha env input)
    (.busy L) fun r m =>
    m = .busy L ∨ ∃ a, normalizeActivation input = .ok a ∧ L.Fresh (.ofActivation sha a)
      ∧ r = .ok (grantSnapshot (mintedGrant sha a))
      ∧ m = .busy (L.addGrant (mintedGrant sha a)) := by
  unfold activateGrantFromTrustedRecord
  refine ends_lift.mpr ⟨fun c hc => .inl rfl, fun a ha => ends_get.mpr ?_⟩
  refine ends_ite.mpr ⟨fun _ => ?_, fun hfree => ?_⟩
  · split
    · exact ends_failIf.mpr ⟨fun _ => .inl rfl, fun _ => .inl rfl⟩
    · exact .inl rfl
  · refine ends_orFail.mpr
      ⟨fun _ => .inl rfl, fun o ho => ends_failIf.mpr ⟨fun _ => .inl rfl, fun _ => ?_⟩⟩
    refine (ends_of_exec (readNow_exec env 0 L)).mpr ⟨fun _ _ => .inl rfl, fun now _ => ?_⟩
    refine ends_failIf.mpr
      ⟨fun _ => .inl rfl, fun _ => ends_failIf.mpr ⟨fun _ => .inl rfl, fun _ => ?_⟩⟩
    exact ends_modify.mpr (.inr ⟨a, ha, fresh_iff.mpr hfree, rfl, rfl⟩)

/-- A record of a grant that is there gives that grant, if its transaction is
found. -/
theorem activate_replay (hL : L.Structured sha) (hn : normalizeActivation input = .ok a) {g : Grant}
    (hg : L.grants.get? g.grantId.1 = some g) (hid : g.toGrantIdentity = .ofActivation sha a)
    (hplain : a.1.transactionId.depth = 0) :
    (activateGrantFromTrustedRecord sha env input).exec (.busy L)
      = (.ok (grantSnapshot g), .busy L) := by
  have hidentity := Ledger.identity?_of_get? hg
  have hmem {β : Type} {key : GrantIdentity → Option String} {value : GrantIdentity → β}
      {m : JsMap String β}
      (h : L.IndexedBy key value m) {k : String} (hk : key (.ofActivation sha a) = some k) :
      m.get? k = some (value (.ofActivation sha a)) :=
        (h k _).mpr ⟨_, _, hidentity, hid ▸ hk, by rw [hid]⟩
  have h1 := hmem hL.indexed.activations rfl
  have h2 := hmem hL.indexed.byAuthoritySettlement rfl
  have h3 : L.activationByTransaction? a
      = some (GrantIdentity.ofActivation sha a).activationId := by
    unfold Ledger.activationByTransaction?
    rw [if_pos hplain]
    exact hmem hL.indexed.byTransaction (if_pos hplain)
  have h4 := hmem hL.indexed.byCapability rfl
  have h5 : L.grants.get? (mintedGrant sha a).grantId.1 = some g := by
    rw [show (mintedGrant sha a).grantId = g.grantId from (congrArg GrantIdentity.grantId hid).symm]
    exact hg
  have hcond : sameJson (storedActivationCodec.encode (GrantIdentity.stored (.ofActivation sha a)))
      (storedActivationCodec.encode (mintedGrant sha a).stored) = true := by
    unfold sameJson
    exact beq_self_eq_true _
  apply exec_eq_of_ends
  unfold activateGrantFromTrustedRecord
  refine ends_lift.mpr ⟨fun c hc => (by rw [hn] at hc; cases hc), fun a' ha => ends_get.mpr ?_⟩
  obtain rfl : a = a' := Except.ok.inj (hn.symm.trans ha)
  refine ends_ite.mpr ⟨fun _ => ?_, fun hfree => ?_⟩
  · rw [show (Model.busy L).ledger = L from rfl, h5]
    rw [show L.activations.get? (mintedGrant sha a).activationId.1 = _ from h1]
    refine ends_failIf.mpr ⟨fun hn => absurd ⟨hcond, h2, h3, h4, ?_, ?_⟩ hn, fun _ => ⟨rfl, rfl⟩⟩
    · exact congrArg GrantIdentity.description hid
    · exact congrArg GrantIdentity.activationId hid
  · have hfresh := (fresh_iff.mpr hfree).grant
    exact absurd (h5.symm.trans hfresh) (by simp)

/-- A record that some lookup knows, and no grant with all of it, is refused. -/
theorem activate_conflict (hL : L.Structured sha) (hn : normalizeActivation input = .ok a)
    (hknown : ¬ L.Fresh (.ofActivation sha a))
    (hno : ∀ g, L.grants.get? g.grantId.1 = some g → g.toGrantIdentity = .ofActivation sha a →
      a.1.transactionId.depth ≠ 0) :
    (activateGrantFromTrustedRecord sha env input).exec (.busy L) =
      (.error .GRANT_IDENTITY_CONFLICT, .busy L) := by
  apply exec_eq_of_ends
  unfold activateGrantFromTrustedRecord
  refine ends_lift.mpr ⟨fun c hc => (by rw [hn] at hc; cases hc), fun a' ha => ends_get.mpr ?_⟩
  obtain rfl : a = a' := Except.ok.inj (hn.symm.trans ha)
  refine ends_ite.mpr ⟨fun _ => ?_, fun hfree => absurd (fresh_iff.mpr hfree) hknown⟩
  split
  · rename_i existing g hexisting hgrant
    refine ends_failIf.mpr ⟨fun _ => ⟨rfl, rfl⟩, fun hcond => ?_⟩
    -- the stored record is the record itself, so it is that of a grant
    obtain ⟨hsame, -, htransaction, -⟩ := not_not.mp hcond
    have hstored : existing = (mintedGrant sha a).stored :=
      Codec.encode_injective storedActivationCodec
      ((sameJson_iff (storedActivationCodec.json_encode _)
        (storedActivationCodec.json_encode _)).mp hsame)
    obtain ⟨l, i, hi, -, hvalue⟩ := (hL.indexed.activations _ _).mp hexisting
    have hactivation : i.activation = a := congrArg StoredActivation.record (hvalue.trans hstored)
    have hderived := hL.indexed.derived l i hi
    rw [hactivation] at hderived
    unfold Ledger.identity? at hi
    obtain ⟨g', hg', rfl⟩ := Option.map_eq_some_iff.mp hi
    have hdepth := hno g' (hL.grantKey hg' ▸ hg') hderived
    unfold Ledger.activationByTransaction? at htransaction
    rw [if_neg hdepth] at htransaction
    cases htransaction
  · exact ⟨rfl, rfl⟩

/-! ### Effects -/

/-- `L'` differs from `L` in the grant under `k` and its requests alone. -/
structure Ledger.Only (k : String) (L L' : Ledger) : Prop where
  fixed : L'.fixed = L.fixed
  grants : ∀ k', k' ≠ k → L'.grants.get? k' = L.grants.get? k'
  requests : ∀ k', k' ≠ k → L'.requests.get? k' = L.requests.get? k'

/-- What a call can do: nothing; expire the grant it names and fail; or return
and have registered the offer it was given, minted the grant of its record, or
changed the grant it names and that grant's requests. -/
inductive Effect (sha : Sha256) (L : Ledger) (call : Call) : Except Code Result → Ledger → Prop
  | unchanged (r : Except Code Result) : Effect sha L call r L
  | expired (c : Code) (g : Grant) (htarget : call.target = some g.grantId)
      (hg : L.grants.get? g.grantId.1 = some g) (hactive : g.lifecycle = .ACTIVE) :
      Effect sha L call (.error c) (L.setGrant { g with lifecycle := .EXPIRED })
  | registered (r : Result) (input : Value) (o : Offer) (hcall : call = .registerOffer input)
      (ho : normalizeOffer input = .ok o)
      (hnew : L.offers.get? (offerKey o.offerId o.offerVersion) = none) :
      Effect sha L call (.ok r)
      { L with offers := L.offers.set (offerKey o.offerId o.offerVersion) o }
  | minted (r : Result) (input : Value) (a : Activation)
      (hcall : call = .activateGrantFromTrustedRecord input)
      (ha : normalizeActivation input = .ok a) (hfresh : L.Fresh (.ofActivation sha a)) :
      Effect sha L call (.ok r) (L.addGrant (mintedGrant sha a))
  | touched (r : Result) (k : Identifier) (L' : Ledger) (htarget : call.target = some k)
      (honly : L.Only k.1 L') :
      Effect sha L call (.ok r) L'

theorem only_setGrant (L : Ledger) {g : Grant} {k : Identifier} (hk : g.grantId = k) :
    L.Only k.1 (L.setGrant g) := by
  subst hk
  exact ⟨rfl, fun _ hk' => by rw [Ledger.get?_setGrant, if_neg hk'], fun _ _ => rfl⟩

theorem only_setRequest (L : Ledger) {q : Request} {k : Identifier} (hk : q.grantId = k) :
    L.Only k.1 (L.setRequest q) := by
  subst hk
  exact ⟨rfl, fun _ _ => rfl, fun _ hk' => JsMap.get?_set_ne _ _ hk'⟩

theorem Ledger.Only.trans {k : String} {L₁ L₂ L₃ : Ledger} (h : L₁.Only k L₂) (h' : L₂.Only k L₃) :
    L₁.Only k L₃ :=
  ⟨h'.fixed.trans h.fixed, fun k' hk => (h'.grants k' hk).trans (h.grants k' hk),
    fun k' hk => (h'.requests k' hk).trans (h.requests k' hk)⟩

/-- A grant and one of its requests are written. -/
theorem only_write (L : Ledger) {g : Grant} {q : Request} {k : Identifier} (hg : g.grantId = k)
    (hq : q.grantId = k) :
    L.Only k.1 ((L.setGrant g).setRequest q) :=
  (only_setGrant L hg).trans (only_setRequest (L.setGrant g) hq)

theorem Step.only {e : Event} (h : Step sha env L e L') (hL : L.Valid sha) {k : Identifier}
    (hk : e.grantId? = some k) : L.Only k.1 L' := by
  cases h with
  | offerRegistered => cases hk
  | grantMinted => cases hk
  | grantExpired g => exact only_setGrant L (Option.some.inj hk)
  | grantRevoked g => exact only_setGrant L (Option.some.inj hk)
  | reserved g rs normalized cost now hg hrs hgrant =>
    obtain rfl := Option.some.inj hk
    exact only_write L rfl hgrant
  | began g rs q now hq =>
    obtain rfl := Option.some.inj hk
    exact only_setRequest L (hq.scoped hL).grantId
  | released g rs q hq =>
    obtain rfl := Option.some.inj hk
    exact only_write L rfl (hq.scoped hL).grantId
  | completed g rs q cachedResult hq =>
    obtain rfl := Option.some.inj hk
    exact only_write L rfl (hq.scoped hL).grantId
  | markedUnknown g rs q hq =>
    obtain rfl := Option.some.inj hk
    exact only_setRequest L (hq.scoped hL).grantId
  | reconciled g rs q outcome hq =>
    obtain rfl := Option.some.inj hk
    refine only_write L ?_ ?_
    · cases outcome <;> rfl
    · cases outcome <;> exact (hq.scoped hL).grantId

/-- A map with a new entry is another map. -/
theorem set_ne {α : Type} {m : JsMap String α} {k : String} {a : α} (h : m.get? k = none) :
    m.set k a ≠ m := by
  intro he
  have hset := JsMap.get?_set_self m k a
  rw [he, h] at hset
  cases hset

/-- A call that keeps offers and activations has touched its grant at most. -/
theorem Moves.effect {call : Call} {r : Except Code Result} (h : Moves sha env L call.target r L')
    (hL : L.Valid sha) (hfixed : L'.fixed = L.fixed) : Effect sha L call r L' := by
  cases h with
  | failed c hc => exact .unchanged _
  | failedExpired c hc grantId _ hstep htarget =>
    cases hstep with
    | grantExpired g i now hg hactive => exact .expired c g htarget hg hactive
  | observed r hr => exact .unchanged _
  | returned r e _ hstep hr htarget =>
    cases hk : e.grantId? with
    | some k => exact .touched r k L' (htarget k hk) (hstep.only hL hk)
    | none =>
      cases hstep with
      | offerRegistered o hnew => exact absurd (congrArg Prod.fst hfixed) (set_ne hnew)
      | grantMinted a o now hfresh =>
          exact absurd (congrArg Prod.snd hfixed) (set_ne hfresh.activation)
      | _ => cases hk

theorem registerOffer_effect (input : Value) : Ends (registerOffer input) (.busy L) fun r m =>
    m = .busy L ∨ ∃ o, normalizeOffer input = .ok o
      ∧ L.offers.get? (offerKey o.offerId o.offerVersion) = none
      ∧ r = .ok o ∧ m = .busy
      { L with offers := L.offers.set (offerKey o.offerId o.offerVersion) o } := by
  unfold registerOffer
  refine ends_lift.mpr ⟨fun c hc => .inl rfl, fun o ho => ends_get.mpr ?_⟩
  split
  · exact ends_failIf.mpr ⟨fun _ => .inl rfl, fun _ => .inl rfl⟩
  · rename_i hnew
    exact ends_modify.mpr (.inr ⟨o, ho, hnew, rfl, rfl⟩)

/-- The calls that neither register nor mint keep the offers and the activations. -/
theorem Call.body_keeps (call : Call) (hregister : ∀ input, call ≠ .registerOffer input)
    (hactivate : ∀ input, call ≠ .activateGrantFromTrustedRecord input) :
    Keeps Ledger.fixed (call.body sha env) := by
  have hwrap {α : Type} {wrap : α → Result} {p : Prog Model Code α} (h : Keeps Ledger.fixed p) :
      Keeps Ledger.fixed (p >>= fun a => pure (wrap a)) := keeps_bind h fun _ => keeps_pure _
  cases call with
  | registerOffer input => exact absurd rfl (hregister input)
  | activateGrantFromTrustedRecord input => exact absurd rfl (hactivate input)
  | getOffer input => exact hwrap (keeps_bind keeps_lift fun _ => keeps_get fun _ => keeps_pure _)
  | getActivation input =>
      exact hwrap (keeps_bind keeps_lift fun _ => keeps_get fun _ => keeps_pure _)
  | getGrant input => exact hwrap (getGrant_keeps env input)
  | readOriginalFundingGrant input => exact hwrap (readOriginalFundingGrant_keeps input)
  | revokeGrant input => exact hwrap (revokeGrant_keeps env input)
  | reserveRequest input => exact hwrap (reserveRequest_keeps sha env input)
  | getRequest input => exact hwrap (getRequest_keeps input)
  | beginExecution input => exact hwrap (beginExecution_keeps env input)
  | releaseBeforeExecution input => exact hwrap (releaseBeforeExecution_keeps input)
  | completeExecution input => exact hwrap (completeExecution_keeps input)
  | markOutcomeUnknown input => exact hwrap (markOutcomeUnknown_keeps input)
  | reconcileRequest input => exact hwrap (reconcileRequest_keeps input)
  | exportState => exact hwrap (keeps_get fun _ => keeps_pure _)

/-- What holds of the body of a call holds of the call between operations. -/
theorem Call.run_of_body {call : Call} {P : Except Code Result → Ledger → Prop}
    (h : Ends (call.body sha env) (.busy L) fun r m => ∃ L', m = .busy L' ∧ P r L') :
    ∃ L', (call.run sha env (.idle L)).2 = .idle L' ∧ P (call.run sha env (.idle L)).1 L' := by
  have hrun : Ends (runPublicOperation (call.body sha env)) (.idle L) fun r m => ∃ L', m = .idle L'
      ∧ P r L' := by
    unfold runPublicOperation
    refine ends_get.mpr (ends_ite.mpr ⟨fun h => (by cases h), fun _ => ends_modify.mpr ?_⟩)
    refine ends_finallyDo.mpr (h.mono fun r m ⟨L', hm, hP⟩ => ⟨L', ?_, hP⟩)
    rw [hm]
    rfl
  exact hrun

/-- Every call has one of the effects. -/
theorem Call.run_effect (hL : L.Valid sha) (env : Env) (call : Call) : ∃ L',
    (call.run sha env (.idle L)).2 = .idle L'
      ∧ Effect sha L call (call.run sha env (.idle L)).1 L' := by
  apply Call.run_of_body
  by_cases hregister : ∃ input, call = .registerOffer input
  · obtain ⟨input, rfl⟩ := hregister
    refine ends_map.mpr ((registerOffer_effect input).mono fun r m h => ?_)
    rcases h with rfl | ⟨o, ho, hnew, rfl, rfl⟩
    · exact ⟨L, rfl, .unchanged _⟩
    · exact ⟨_, rfl, .registered _ input o rfl ho hnew⟩
  · by_cases hactivate : ∃ input, call = .activateGrantFromTrustedRecord input
    · obtain ⟨input, rfl⟩ := hactivate
      refine ends_map.mpr ((activate_effect input).mono fun r m h => ?_)
      rcases h with rfl | ⟨a, ha, hfresh, rfl, rfl⟩
      · exact ⟨L, rfl, .unchanged _⟩
      · exact ⟨_, rfl, .minted _ input a rfl ha hfresh⟩
    · have hkeeps : Keeps Ledger.fixed (call.body sha env) :=
        call.body_keeps (fun input h => hregister ⟨input, h⟩) fun input h => hactivate ⟨input, h⟩
      have hends : Ends (call.body sha env) (.busy L) (Settles sha env L call.target id) :=
        call.body_ends hL
      obtain ⟨L₁, hm₁, hmoves⟩ := hends
      obtain ⟨L₂, hm₂, hfixed⟩ := hkeeps L
      have he : L₁ = L₂ := congrArg Model.ledger (hm₁.symm.trans hm₂)
      rw [Except.map_id] at hmoves
      exact ⟨L₁, hm₁, hmoves.effect hL (he ▸ hfixed)⟩

end Credit
end ZenonX402
