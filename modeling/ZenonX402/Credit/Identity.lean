/-
# One grant for one settlement

A grant is known by five identities: its own, its activation's, the settlement
and the transaction of its authority, and its capability. The indexes over them
say the same in every state of a run, and no two grants share one
(`Ledger.Consistent`). A record with all identities of a grant gives that grant
back, one with some of them is refused (`OneGrant`).

A transaction reference that is an array, which the patterns accept, is a key
that no lookup finds: the same record handed in twice is refused
(`array_replay_refused`). Where every reference is a string this does not
happen (`one_grant_per_settlement`).

Key definitions: `GrantIdentity.Matches`, `GrantIdentity.Overlaps`, `Ledger.Consistent`, `OneGrant`.
Key theorems: `run_plain`, `Ledger.Structured.oneGrant`, `one_grant_per_settlement`.
-/
import ZenonX402.Credit.Frame
import ZenonX402.Credit.Recovery

namespace ZenonX402
namespace Credit

open Js Prog

/-! ### Identities -/

/-- The text whose digest identifies an activation. -/
def activationText (a : Activation) : String := canonicalJson (.obj [
  ("domain", .str "zenon-x402-service-credit-activation-v1"),
  ("record", activationCodec.encode a)])

/-- All five identities are the same. -/
structure GrantIdentity.Matches (i j : GrantIdentity) : Prop where
  grantId : i.grantId = j.grantId
  activationId : i.activationId = j.activationId
  authoritySettlement : authoritySettlementKey i.activation = authoritySettlementKey j.activation
  transaction : i.transactionId = j.transactionId
  capability : i.capabilityCommitment = j.capabilityCommitment

/-- Some of the five identities are the same. -/
def GrantIdentity.Overlaps (i j : GrantIdentity) : Prop :=
  i.grantId = j.grantId ∨ i.activationId = j.activationId
    ∨ authoritySettlementKey i.activation = authoritySettlementKey j.activation
    ∨ i.transactionId = j.transactionId ∨ i.capabilityCommitment = j.capabilityCommitment

def Ledger.HasGrant (L : Ledger) (g : Grant) : Prop := L.grants.get? g.grantId.1 = some g

/-- Every grant is in each index under the key that its own terms give, nothing
else is there, and no key leads to two grants. -/
structure Ledger.Consistent (sha : Sha256) (L : Ledger) : Prop where
  grants : ∀ k g, L.grants.get? k = some g → k = g.grantId.1 ∧ g.toGrantIdentity
    = .ofActivation sha g.activation
  activations : ∀ k a, L.activations.get? k = some a ↔ ∃ g, L.HasGrant g ∧ k = g.activationId.1
    ∧ a = g.stored
  byAuthoritySettlement : ∀ k id, L.activationByAuthoritySettlement.get? k = some id ↔
    ∃ g, L.HasGrant g ∧ k = authoritySettlementKey g.activation ∧ id = g.activationId
  byTransaction : ∀ k id, L.activationByTransaction.get? k = some id ↔
    ∃ g, L.HasGrant g ∧ k = g.transactionId.text ∧ id = g.activationId
  byCapability : ∀ k id, L.grantByCapability.get? k = some id ↔
    ∃ g, L.HasGrant g ∧ k = g.capabilityCommitment.1 ∧ id = g.grantId
  injective : ∀ g g', L.HasGrant g → L.HasGrant g' →
    g.toGrantIdentity.Overlaps g'.toGrantIdentity → g = g'

/-- What an activation does with a record that is known, for the records of
which `P` holds: it gives back the grant of which all identities match (where
SHA-256 has no collision between the two records), and refuses one that shares
some of them with a grant, or shares some with two. Both leave the model alone. -/
structure OneGrant (sha : Sha256) (P : Activation → Prop) (L : Ledger) : Prop where
  consistent : L.Consistent sha
  replay : ∀ input a env g, normalizeActivation input = .ok a → P a → L.HasGrant g →
    (GrantIdentity.ofActivation sha a).Matches g.toGrantIdentity →
    (sha.hex (activationText a) = sha.hex (activationText g.activation) →
      activationText a = activationText g.activation) →
    (Call.activateGrantFromTrustedRecord input).run sha env (.idle L) =
      (.ok (.grant (some (grantSnapshot g))), .idle L)
  conflict : ∀ input a env g, normalizeActivation input = .ok a → P a → L.HasGrant g →
    (GrantIdentity.ofActivation sha a).Overlaps g.toGrantIdentity →
    ¬ (GrantIdentity.ofActivation sha a).Matches g.toGrantIdentity →
    (Call.activateGrantFromTrustedRecord input).run sha env (.idle L) =
      (.error .GRANT_IDENTITY_CONFLICT, .idle L)
  conflicts : ∀ input a env g g', normalizeActivation input = .ok a → P a → L.HasGrant g →
    L.HasGrant g' → g ≠ g' →
    (GrantIdentity.ofActivation sha a).Overlaps g.toGrantIdentity →
    (GrantIdentity.ofActivation sha a).Overlaps g'.toGrantIdentity →
    (Call.activateGrantFromTrustedRecord input).run sha env (.idle L) =
      (.error .GRANT_IDENTITY_CONFLICT, .idle L)

/-- The transaction reference is a string. -/
def Activation.Plain (a : Activation) : Prop := a.1.transactionId.depth = 0

/-- The record that the call hands in, if it is one, has a string for its transaction. -/
def Call.Plain (call : Call) : Prop :=
  ∀ input a, call = .activateGrantFromTrustedRecord input → normalizeActivation input
    = .ok a → a.Plain

variable {sha : Sha256} {env : Env} {L : Ledger}

theorem activationText_inj {a b : Activation} (h : activationText a = activationText b) :
    a = b := by
  let record : Codec Rejection _ := object
    (.cons "domain" (.text (fun _ => true) .INVALID_INPUT) (.cons "record" activationCodec .nil))
    .INVALID_INPUT
  let domain : {s : String // (fun _ => true) s = true} :=
    ⟨"zenon-x402-service-credit-activation-v1", rfl⟩
  have hjson (a : Activation) := record.json_encode (domain, a, ())
  have hsame := (canonicalJson_inj (hjson a) (hjson b)).mp h
  have heq := record.encode_injective hsame
  exact (Prod.mk.inj (Prod.mk.inj heq).2).1

/-- Without a collision the activation identity stands for the record. -/
theorem activation_of_id {a b : Activation} (h : activationIdFor sha a = activationIdFor sha b)
    (hsha : sha.hex (activationText a) = sha.hex (activationText b) → activationText a
      = activationText b) : a = b := by
  have hid := congrArg (fun i : Identifier => i.1.toList) h
  have hhex : sha.hex (activationText a) = sha.hex (activationText b) := by
    simp only [activationIdFor, String.toList_append] at hid
    exact String.toList_inj.mp (List.append_cancel_left hid)
  exact activationText_inj (hsha hhex)

theorem Ledger.Structured.hasGrant (hL : L.Structured sha) {k : String} {i : GrantIdentity}
    (h : L.identity? k = some i) : ∃ g, L.HasGrant g ∧ g.toGrantIdentity = i := by
  unfold Ledger.identity? at h
  obtain ⟨g, hg, rfl⟩ := Option.map_eq_some_iff.mp h
  obtain rfl := hL.grantKey hg
  exact ⟨g, hg, rfl⟩

/-- Identities that overlap, one of them with a string for its transaction, share a key. -/
theorem GrantIdentity.Overlaps.sharesKey {i j : GrantIdentity} (h : i.Overlaps j)
    (hi : i.activation.Plain) :
    Ledger.SharesKey i j := by
  rcases h with h | h | h | h | h
  · exact .inl h
  · exact .inr (.inl h)
  · exact .inr (.inr (.inl h))
  · refine .inr (.inr (.inr (.inl ⟨i.transactionId.text, if_pos hi, ?_⟩)))
    unfold Ledger.transactionKey
    rw [← h]
    exact if_pos hi
  · exact .inr (.inr (.inr (.inr h)))

theorem Ledger.Structured.consistent (hL : L.Structured sha)
    (hplain : ∀ g, L.HasGrant g → g.activation.Plain) :
    L.Consistent sha := by
  have hindex {β : Type} {key : GrantIdentity → Option String} {value : GrantIdentity → β}
      {m : JsMap String β}
      (h : L.IndexedBy key value m) (k : String) (b : β) : m.get? k = some b ↔
        ∃ g, L.HasGrant g ∧ key g.toGrantIdentity = some k ∧ b = value g.toGrantIdentity := by
    rw [h k b]
    refine ⟨fun ⟨l, i, hi, hk, hb⟩ => ?_, fun ⟨g, hg, hk, hb⟩ => ?_⟩
    · obtain ⟨g, hg, rfl⟩ := hL.hasGrant hi
      exact ⟨g, hg, hk, hb.symm⟩
    · exact ⟨_, _, Ledger.identity?_of_get? hg, hk, hb.symm⟩
  refine ⟨fun k g hg => ⟨hL.grantKey hg, hL.indexed.derived k _ (Ledger.identity?_of_get? hg)⟩, ?_,
    ?_, ?_, ?_, ?_⟩
  · intro k a
    rw [hindex hL.indexed.activations]
    simp only [Option.some.injEq, eq_comm (a := k)]
  · intro k id
    rw [hindex hL.indexed.byAuthoritySettlement]
    simp only [Option.some.injEq, eq_comm (a := k)]
  · intro k id
    rw [hindex hL.indexed.byTransaction]
    refine exists_congr fun g => and_congr_right fun hg => and_congr_left fun _ => ?_
    unfold Ledger.transactionKey
    rw [if_pos (show g.transactionId.depth = 0 from hplain g hg), Option.some.injEq, eq_comm]
  · intro k id
    rw [hindex hL.indexed.byCapability]
    simp only [Option.some.injEq, eq_comm (a := k)]
  · intro g g' hg hg' hover
    have hid := hL.unique (Ledger.identity?_of_get? hg) (Ledger.identity?_of_get? hg')
      (hover.sharesKey (hplain g hg))
    have hsame : L.grants.get? g.grantId.1 = some g' := by
      rw [congrArg (fun i : GrantIdentity => i.grantId.1) hid]
      exact hg'
    exact Option.some.inj (hg.symm.trans hsame)

/-- A grant that shares a key with a record is found by one of its lookups. -/
theorem Ledger.Structured.not_fresh (hL : L.Structured sha) {l : String} {i j : GrantIdentity}
    (hj : L.identity? l = some j) (h : Ledger.SharesKey i j) : ¬ L.Fresh i := by
  intro hfresh
  have hfound {β : Type} {key : GrantIdentity → Option String} {value : GrantIdentity → β}
      {m : JsMap String β}
      (hm : L.IndexedBy key value m) {k : String} (hk : key j = some k)
      (hnone : m.get? k = none) : False := by
    have hsome := (hm k (value j)).mpr ⟨l, j, hj, hk, rfl⟩
    rw [hnone] at hsome
    cases hsome
  rcases h with h | h | h | ⟨k, hk, hk'⟩ | h
  · have hkey := hL.indexed.grantKeys l j hj
    unfold Ledger.identity? at hj
    rw [hkey, ← h, hfresh.grant] at hj
    cases hj
  · exact hfound hL.indexed.activations (congrArg (fun k => some k.1) h.symm) hfresh.activation
  · exact hfound hL.indexed.byAuthoritySettlement (congrArg some h.symm) hfresh.authoritySettlement
  · have hdepth : i.transactionId.depth = 0 := by
      unfold Ledger.transactionKey at hk
      split at hk
      · assumption
      · cases hk
    have htext : i.transactionId.text = k := by
      unfold Ledger.transactionKey at hk
      rw [if_pos hdepth] at hk
      exact Option.some.inj hk
    have hnone := hfresh.transaction
    unfold Ledger.activationByTransaction? at hnone
    rw [if_pos (show i.activation.1.transactionId.depth = 0 from hdepth)] at hnone
    exact hfound hL.indexed.byTransaction hk' (htext ▸ hnone)
  · exact hfound hL.indexed.byCapability (congrArg (fun k => some k.1) h.symm) hfresh.capability

/-! ### Activations that are known -/

/-- What the body of an activation does, it does between operations. -/
theorem run_activate {L' : Ledger} {input : Value} {r : Except Code GrantSnapshot}
    (h : (activateGrantFromTrustedRecord sha env input).exec (.busy L) = (r, .busy L')) :
    (Call.activateGrantFromTrustedRecord input).run sha env (.idle L) =
      (r.map fun g => .grant (some g), .idle L') := by
  have hbody : Ends (Call.body sha env (.activateGrantFromTrustedRecord input))
      (.busy L) fun r' m =>
      ∃ L'', m = .busy L'' ∧ (r' = r.map fun g => .grant (some g)) ∧ L'' = L' := by
    refine ends_map.mpr ?_
    unfold Ends
    rw [h]
    exact ⟨L', rfl, rfl, rfl⟩
  obtain ⟨L'', hm, hr, rfl⟩ := Call.run_of_body hbody
  exact Prod.ext hr hm

theorem Ledger.Structured.oneGrant (hL : L.Structured sha)
    (hplain : ∀ g, L.HasGrant g → g.activation.Plain) :
    OneGrant sha Activation.Plain L := by
  have hcon := hL.consistent hplain
  have hrefused {input : Value} {a : Activation} {g : Grant} (env : Env)
      (hn : normalizeActivation input = .ok a)
      (ha : a.Plain) (hg : L.HasGrant g)
      (hover : (GrantIdentity.ofActivation sha a).Overlaps g.toGrantIdentity)
      (hno : ¬ (GrantIdentity.ofActivation sha a).Matches g.toGrantIdentity) :
      (Call.activateGrantFromTrustedRecord input).run sha env (.idle L) =
        (.error .GRANT_IDENTITY_CONFLICT, .idle L) := by
    have hshare : Ledger.SharesKey (GrantIdentity.ofActivation sha a) g.toGrantIdentity :=
      hover.sharesKey ha
    have hknown := hL.not_fresh (Ledger.identity?_of_get? hg) hshare
    refine run_activate (r := .error .GRANT_IDENTITY_CONFLICT)
      (activate_conflict hL hn hknown fun g' hg' hid => ?_)
    -- a grant with all of the record shares a key with `g`, so it is `g`
    have hover' : g'.toGrantIdentity.Overlaps g.toGrantIdentity := by
      rw [hid]
      exact hover
    obtain rfl := hcon.injective g' g hg' hg hover'
    exact absurd (hid ▸ ⟨rfl, rfl, rfl, rfl, rfl⟩) hno
  refine ⟨hcon, ?_, ?_, ?_⟩
  · intro input a env g hn ha hg hmatch hsha
    have hactivation : a = g.activation := by
      have hderived := (hcon.grants _ g hg).2
      refine @activation_of_id sha a g.activation ?_ hsha
      exact hmatch.activationId.trans (congrArg GrantIdentity.activationId hderived)
    have hid : g.toGrantIdentity = .ofActivation sha a := by
      rw [hactivation]
      exact (hcon.grants _ g hg).2
    exact run_activate (activate_replay hL hn hg hid ha)
  · intro input a env g hn ha hg hover hno
    exact hrefused env hn ha hg hover hno
  · intro input a env g g' hn ha hg hg' hne hover hover'
    by_cases hmatch : (GrantIdentity.ofActivation sha a).Matches g.toGrantIdentity
    · refine hrefused env hn ha hg' hover' fun hmatch' => hne ?_
      exact hcon.injective g g' hg hg' (.inl (hmatch.grantId.symm.trans hmatch'.grantId))
    · exact hrefused env hn ha hg hover hmatch

/-! ### Runs -/

theorem CallStep.effect {c : Called} {m' : Model} (hL : L.Valid sha)
    (h : CallStep sha (.idle L) c m') :
    ∃ L', m' = .idle L' ∧ Effect sha L c.call c.result L' := by
  obtain ⟨L', hm, heffect⟩ := c.call.run_effect hL c.env
  rw [show c.call.run sha c.env (.idle L) = (c.result, m') from h] at hm heffect
  exact ⟨L', hm, heffect⟩

/-- The transaction of every stored activation is a string. -/
def Ledger.PlainRecords (L : Ledger) : Prop := ∀ k s, L.activations.get? k = some s → s.record.Plain

theorem Effect.plainRecords {call : Call} {r : Except Code Result} {L' : Ledger}
    (h : Effect sha L call r L') (hcall : call.Plain) (hL : L.PlainRecords) : L'.PlainRecords := by
  cases h with
  | unchanged => exact hL
  | expired => exact hL
  | registered => exact hL
  | minted r input a hc ha hfresh =>
    intro k s hs
    change (L.activations.set _ _).get? k = some s at hs
    rw [JsMap.get?_set] at hs
    split at hs
    · obtain rfl := Option.some.inj hs
      exact hcall input a hc ha
    · exact hL k s hs
  | touched r k L' htarget honly =>
    have hsame : L'.activations = L.activations := congrArg Prod.snd honly.fixed
    unfold Ledger.PlainRecords
    rw [hsame]
    exact hL

theorem Ledger.PlainRecords.grants (h : L.PlainRecords) (hL : L.Structured sha) {g : Grant}
    (hg : L.HasGrant g) :
    g.activation.Plain :=
  h _ _ ((hL.indexed.activations _ _).mpr ⟨_, _, Ledger.identity?_of_get? hg, rfl, rfl⟩)

theorem Started.plainRecords (h : Started sha L) : L.PlainRecords := by
  cases h with
  | new => exact fun k s hs => by cases hs
  | hydrated state _ h =>
    intro k s hs
    have hexp := (fromState_sound h).1
    obtain ⟨l, i, hi, -, rfl⟩ := (hexp.indexed.activations k s).mp hs
    obtain ⟨g, hg, rfl⟩ := hexp.toStructured.hasGrant hi
    exact hexp.plain _ g hg

/-- A run in which every record has a string for its transaction keeps it so. -/
theorem run_plain {cs : List Called} {L' : Ledger}
    (hrun : Run (CallStep sha) (.idle L) cs (.idle L')) (hL : L.Valid sha) (hplain : L.PlainRecords)
    (hcalls : ∀ c ∈ cs, c.call.Plain) : L'.PlainRecords := by
  induction cs generalizing L with
  | nil =>
    cases hrun
    exact hplain
  | cons c cs ih =>
    cases hrun with
    | cons hcall rest =>
      obtain ⟨L₁, rfl, heffect⟩ := hcall.effect hL
      obtain ⟨M, hM, he⟩ := CallStep.idle _ c _ ⟨L, hL, rfl⟩ hcall
      cases he
      exact ih rest hM (heffect.plainRecords (hcalls c (List.mem_cons_self ..)) hplain)
        fun c' hc' => hcalls c' (List.mem_cons_of_mem _ hc')

/-- In every state of a run whose records have strings for their transactions,
one settlement has one grant, and such records are given back or refused. -/
theorem one_grant_per_settlement {sha : Sha256} {L : Ledger} {cs : List Called} {m : Model}
    (hstart : Started sha L) (hrun : Run (CallStep sha) (.idle L) cs m)
    (hcalls : ∀ c ∈ cs, c.call.Plain) :
    OneGrant sha Activation.Plain m.ledger := by
  obtain ⟨L', hL', rfl⟩ := run_idle hrun ⟨L, hstart.valid, rfl⟩
  have hplain := run_plain hrun hstart.valid hstart.plainRecords hcalls
  exact hL'.toStructured.oneGrant fun g hg => hplain.grants hL'.toStructured hg

/-- The calls of a run that is carried out are those it was given. -/
theorem runCalls_call {calls : List (Call × Env)} : ∀ {m : Model}, ∀ c ∈ (runCalls sha calls m).1,
    ∃ env, (c.call, env) ∈ calls := by
  induction calls with
  | nil => exact fun c hc => absurd hc List.not_mem_nil
  | cons call calls ih =>
    intro m c hc
    rcases List.mem_cons.mp hc with rfl | hc
    · exact ⟨call.2, List.mem_cons_self ..⟩
    · obtain ⟨env, hmem⟩ := ih c hc
      exact ⟨env, List.mem_cons_of_mem _ hmem⟩

/-! ### A transaction that is an array -/

theorem mintedGrant_matches (a : Activation) :
    (GrantIdentity.ofActivation sha a).Matches (mintedGrant sha a).toGrantIdentity :=
  ⟨rfl, rfl, rfl, rfl, rfl⟩

theorem mintedGrant_activation (a : Activation) : (mintedGrant sha a).activation = a := rfl

theorem normalizeActivation_encode (a : Activation) :
    normalizeActivation (activationCodec.encode a) = .ok a :=
  captured_ok.mpr (Codec.decode_encode_self activationCodec a)

/-- A record that no lookup knows, for an offer that is there. -/
theorem activate_mints {a : Activation} {o : Offer} {now : Int}
    (hfresh : L.Fresh (.ofActivation sha a))
    (ho : L.offers.get? (offerKey a.1.offerId a.1.offerVersion) = some o)
    (hscope : offerScopeMatches o a = true) (hnow : env.reading 0 = .ok now)
    (hlive : now < a.1.expiresAt.1) :
    (activateGrantFromTrustedRecord sha env (activationCodec.encode a)).exec (.busy L) =
      (.ok (grantSnapshot (mintedGrant sha a)), .busy (L.addGrant (mintedGrant sha a))) := by
  apply exec_eq_of_ends
  unfold activateGrantFromTrustedRecord
  have hn := normalizeActivation_encode a
  refine ends_lift.mpr ⟨fun c hc => (by rw [hn] at hc; cases hc), fun a' ha => ends_get.mpr ?_⟩
  obtain rfl : a = a' := Except.ok.inj (hn.symm.trans ha)
  refine ends_ite.mpr ⟨fun hknown => absurd hknown (fresh_iff.mp hfresh), fun _ => ?_⟩
  refine ends_orFail.mpr ⟨fun hnone => absurd (ho.symm.trans hnone) (by simp), fun o' ho' => ?_⟩
  obtain rfl : o = o' := Option.some.inj (ho.symm.trans ho')
  refine ends_failIf.mpr ⟨fun hf => (by rw [hscope] at hf; cases hf), fun _ => ?_⟩
  refine (ends_of_returns ((readNow_exec env 0 L).trans (by rw [hnow]))).mpr ?_
  refine ends_failIf.mpr ⟨fun hle => absurd hle (by omega), fun _ => ?_⟩
  exact (ends_assertCounters (Ledger.balanced_minted sha a).countersHold).mpr
    (ends_modify.mpr ⟨rfl, rfl⟩)

namespace Sample

/-- The record of `activation`, its transaction an array of the reference. -/
def arrayActivation : Activation where
  val := { activation.1 with transactionId := { activation.1.transactionId with depth := 1 } }
  property := by decide

theorem array_depth : arrayActivation.1.transactionId.depth = 1 := rfl

def arrayCalls : List (Call × Env) := [
  (.registerOffer (offerCodec.encode (offer (number 1))), Sample.env),
  (.activateGrantFromTrustedRecord (activationCodec.encode arrayActivation), Sample.env)]

theorem array_fresh : registered.Fresh (.ofActivation sha arrayActivation) := by
  refine ⟨rfl, rfl, rfl, ?_, rfl⟩
  unfold Ledger.activationByTransaction?
  exact if_neg one_ne_zero

theorem array_offer : registered.offers.get?
    (offerKey arrayActivation.1.offerId arrayActivation.1.offerVersion) =
    some (offer (number 1)) := JsMap.get?_set_self ..

theorem array_scope : offerScopeMatches (offer (number 1)) arrayActivation = true := by
  unfold offerScopeMatches
  simp only [Bool.and_eq_true, decide_eq_true_eq]
  exact ⟨⟨⟨⟨⟨rfl, rfl⟩, rfl⟩, rfl⟩, rfl⟩, rfl⟩

/-- The grant of the record whose transaction is an array. -/
def arrayLedger (sha : Sha256) : Ledger := registered.addGrant (mintedGrant sha arrayActivation)

theorem array_valid : (arrayLedger sha).Valid sha :=
  registered_valid.addGrant array_fresh rfl (Ledger.balanced_minted _ _) array_offer array_scope

theorem array_run (sha : Sha256) : (runCalls sha arrayCalls .new).2 = .idle (arrayLedger sha) := by
  have hregister : ((Call.registerOffer (offerCodec.encode (offer (number 1)))).run sha
      Sample.env .new).2 =
      .idle registered := registerOffer_run sha Sample.env rfl
  have hactivate := run_activate (activate_mints (@array_fresh sha) array_offer array_scope
    (show Sample.env.reading 0 = .ok 0 from rfl) (show (0 : Int) < 1000 by decide))
  have hsecond := congrArg Prod.snd hactivate
  unfold runCalls arrayCalls
  dsimp only
  rw [hregister]
  exact hsecond

end Sample

/-- A record whose transaction is an array is refused when it is handed in again. -/
theorem array_replay_refused : ¬ ∀ (sha : Sha256) (L : Ledger) (cs : List Called) (m : Model),
    Started sha L →
    Run (CallStep sha) (.idle L) cs m → OneGrant sha (fun _ => True) m.ledger := by
  intro h
  have hone := h .standard .empty _ _ .new (run_runCalls .standard Sample.arrayCalls .new)
  rw [Sample.array_run] at hone
  have hL := (@Sample.array_valid .standard).toStructured
  have hg : (Sample.arrayLedger .standard).HasGrant
      (mintedGrant .standard Sample.arrayActivation) := by
    unfold Ledger.HasGrant Sample.arrayLedger
    rw [Ledger.get?_addGrant, if_pos rfl]
  have hn := normalizeActivation_encode Sample.arrayActivation
  have hback := hone.replay _ _ Sample.env _ hn trivial hg (mintedGrant_matches _) fun _ => by
    rw [mintedGrant_activation]
  have hknown := hL.not_fresh (Ledger.identity?_of_get? hg) (.inl rfl)
  have hrefused := run_activate
    (@activate_conflict .standard Sample.env _ _ _ hL hn hknown fun _ _ _ => by
    rw [Sample.array_depth]
    exact one_ne_zero)
  exact absurd (congrArg Prod.fst (hrefused.symm.trans hback)) (by simp [Except.map])

theorem one_grant_per_settlement_sample :
    OneGrant .standard Activation.Plain
    (runCalls .standard (Sample.calls .standard) .new).2.ledger := by
  refine one_grant_per_settlement .new (run_runCalls .standard (Sample.calls .standard) .new)
    fun c hc => ?_
  obtain ⟨env, hmem⟩ := runCalls_call c hc
  intro input a hcall ha
  simp only [Sample.calls, List.mem_cons, Prod.mk.injEq, List.not_mem_nil, or_false, hcall,
    reduceCtorEq, false_and, false_or, Call.activateGrantFromTrustedRecord.injEq] at hmem
  rw [hmem.1, normalizeActivation_encode] at ha
  exact Except.ok.inj ha ▸ rfl

end Credit
end ZenonX402
