/-
# The texts of custody records

Both kinds of record have one text each: an original in the order of its fields, an intent in
the order of its keys. Each is a kind of sealed record (`originals`, `intents`), so a text is
accepted exactly if it is that of a record, and what is written of a record does not depend
on whether its text was kept.

An intent is read from any value with its fields, if they are those of a valid intent
(`validateIntent_iff`); one that was captured names the text of its original by its digest
(`captureIntent_digest`).

Key definitions: `captureOriginalServiceRequestCustody`, `captureOriginalServiceDispatchIntent`,
`Intent.Valid`, `originals`, `intents`, `Copies`.
Key theorems: `validateIntent_iff`, `captureIntent_digest`, `custodyCodec_exact`.
-/
import ZenonX402.Custody.Contract
import ZenonX402.Lib.Bounds
import ZenonX402.Lib.Extent
import ZenonX402.Lib.Sealed

namespace ZenonX402
namespace Custody

open Js

def Original.INPUT_FIELDS : List String :=
  ["originalRequestJson", "originalBodyBase64", "serviceResourceUrl"]

def Original.BINDING_FIELDS : List String := ["fundingResourceUrl", "paymentHash", "network"]

def INTENT_BINDING_FIELDS : List String :=
  ["fundingRevision", "challengeDigest", "paymentDigest", "custodyPolicy"]

section

variable (node : Node)

def captureOriginalServiceRequestCustody (input binding : Value) : Option Original := do
  let v ← record input Original.INPUT_FIELDS
  let b ← record binding Original.BINDING_FIELDS
  capture node ⟨v "originalRequestJson", v "originalBodyBase64", v "serviceResourceUrl",
    b "fundingResourceUrl", b "paymentHash", b "network"⟩

def captureOriginalServiceDispatchIntent (original binding : Value) : Option Intent := do
  let b ← record binding INTENT_BINDING_FIELDS
  captureIntent node original (b "fundingRevision") (b "challengeDigest") (b "paymentDigest")
    (b "custodyPolicy")

end

variable {node : Node}

/-! ### Reading by key -/

theorem record_of_fields {names : List String} {v : Value} {order : Order names}
    {c : String → Value} (h : fields names v = some (order, c)) : record v names = some c := by
  rw [record, h, Option.map_some]

theorem record_obj {names : List String} {fs : List (String × Value)}
    (h : (fs.map Prod.fst).Perm names) :
    record (.obj fs) names = some fun k => (fs.lookup k).getD .undefined := by
  rw [record, fields, dif_pos h, Option.map_some]

/-- A value with the same fields. -/
def Copies (names : List String) (copy v : Value) : Prop :=
  ∃ c d, record copy names = some c ∧ record v names = some d ∧ ∀ k ∈ names, c k = d k

/-! ### Originals -/

/-- Reading an original looks at its fields only. -/
theorem validateRecord_congr {v w : Value} (h : Copies RECORD_FIELDS v w) :
    validateRecord node v = validateRecord node w := by
  obtain ⟨c, d, hv, hw, hfield⟩ := h
  simp only [validateRecord, hv, hw, Option.bind_eq_bind, Option.bind_some]
  rw [hfield "custodyVersion" (by decide), hfield "profile" (by decide),
    hfield "originalRequestJson" (by decide), hfield "originalBodyBase64" (by decide),
    hfield "serviceResourceUrl" (by decide), hfield "fundingResourceUrl" (by decide),
    hfield "paymentHash" (by decide), hfield "network" (by decide), hfield "grantId" (by decide),
    hfield "requestId" (by decide),
    hfield "checksum" (by decide)]

theorem capture_of_validateRecord {v : Value} {o : Original} (h : validateRecord node v = some o) :
    ∃ parts, capture node parts = some o := by
  simp only [validateRecord, Option.bind_eq_bind, Option.bind_eq_some_iff, guard_some,
    Option.pure_def, Option.some.injEq] at h
  obtain ⟨c, -, _, -, _, -, expected, hcapture, _, -, _, -, _, -, rfl⟩ := h
  exact ⟨_, hcapture⟩

/-- Originals are records with one text. -/
def originals (node : Node) : Sealed Original where
  validate := validateRecord node
  value := Original.value
  text := Original.text
  fits := isBounded 16384
  validate_value h := by
    obtain ⟨parts, hcapture⟩ := capture_of_validateRecord h
    exact validateRecord_value hcapture
  fits_text h := by
    obtain ⟨parts, hcapture⟩ := capture_of_validateRecord h
    exact (capture_some hcapture).2
  parse_text {v a} h := by
    obtain ⟨parts, hcapture⟩ := capture_of_validateRecord h
    rw [Original.text, parse_stringify a.json, Option.bind_some, validateRecord_value hcapture]

theorem parseCustody_iff {t : String} {o : Original} :
    parseOriginalServiceRequestCustody node t = some o ↔ (originals node).read t = some o := by
  have hread : (originals node).read t = some o ↔ ∃ _ : Unit, isBounded 16384 t = true ∧ ∃ decoded,
      parse t = some decoded
      ∧ ∃ result, validateRecord node decoded = some result ∧ result.text = t ∧ result = o := by
    simp only [Sealed.read, Option.bind_eq_bind, Option.bind_eq_some_iff, guard_some,
      Option.ite_none_right_eq_some, Option.some.injEq]
    exact Iff.rfl
  rw [hread]
  simp only [parseOriginalServiceRequestCustody, Option.bind_eq_bind, Option.bind_eq_some_iff,
    guard_some, Option.pure_def, Option.some.injEq]
  constructor
  · rintro ⟨u, hfits, decoded, hparse, result, hvalid, -, htext, hresult⟩
    exact ⟨u, hfits, decoded, hparse, result, hvalid, htext, hresult⟩
  · rintro ⟨u, hfits, decoded, hparse, result, hvalid, htext, hresult⟩
    exact ⟨u, hfits, decoded, hparse, result, hvalid, u, htext, hresult⟩

/-- The input and the binding that a capture is made of. -/
def Parts.input (parts : Parts) : Value :=
  .obj [("originalRequestJson", parts.originalRequestJson),
    ("originalBodyBase64", parts.originalBodyBase64),
    ("serviceResourceUrl", parts.serviceResourceUrl)]

def Parts.binding (parts : Parts) : Value :=
  .obj [("fundingResourceUrl", parts.fundingResourceUrl), ("paymentHash", parts.paymentHash),
    ("network", parts.network)]

theorem capture_parts (parts : Parts) :
    captureOriginalServiceRequestCustody node parts.input parts.binding = capture node parts := by
  have hinput : record parts.input Original.INPUT_FIELDS = some _ :=
    record_obj (List.Perm.refl Original.INPUT_FIELDS)
  have hbinding : record parts.binding Original.BINDING_FIELDS = some _ :=
    record_obj (List.Perm.refl Original.BINDING_FIELDS)
  rw [captureOriginalServiceRequestCustody, hinput, hbinding]
  rfl

/-- An original is made exactly if it is captured from some input and binding. -/
theorem made_iff {o : Original} : (originals node).Made o ↔
    ∃ input binding, captureOriginalServiceRequestCustody node input binding = some o := by
  constructor
  · rintro ⟨v, hvalid⟩
    obtain ⟨parts, hcapture⟩ := capture_of_validateRecord hvalid
    exact ⟨parts.input, parts.binding, by rw [capture_parts, hcapture]⟩
  · rintro ⟨input, binding, h⟩
    obtain ⟨v, -, h⟩ := Option.bind_eq_some_iff.mp h
    obtain ⟨b, -, h⟩ := Option.bind_eq_some_iff.mp h
    exact ⟨o.value, validateRecord_value h⟩

/-! ### Intents -/

/-- What an intent is checked for. -/
structure Intent.Valid (node : Node) (i : Intent) : Prop where
  grantId : identifier (.str i.grantId) = some i.grantId
  requestId : identifier (.str i.requestId) = some i.requestId
  funding : ∃ url, canonicalUrl node (.str i.fundingResourceUrl) false = some url
  paymentHash : paymentHashOf (.str i.paymentHash) = some i.paymentHash
  network : bounded 256 (.str i.network) = some i.network
  fundingRevision : positive (.num i.fundingRevision) = some i.fundingRevision
  originalChecksum : requireIntentDigest (.str i.originalChecksum) = some i.originalChecksum
  originalEnvelopeDigest : requireIntentDigest (.str i.originalEnvelopeDigest)
    = some i.originalEnvelopeDigest
  challengeDigest : requireIntentDigest (.str i.challengeDigest) = some i.challengeDigest
  paymentDigest : requireIntentDigest (.str i.paymentDigest) = some i.paymentDigest
  custodyPolicyDigest : requireIntentDigest (.str i.custodyPolicyDigest)
    = some i.custodyPolicyDigest
  checksum : requireIntentDigest (.str i.checksum) = some i.checksum
  sealed : i.checksum = intentDigest node INTENT_DOMAIN (.obj i.core)
  size : isBounded 16384 i.text = true

theorem filter_bounded {limit : Nat} {p : String → Bool} {v : Value} {s : String}
    (h : (bounded limit v).filter p = some s) :
    v = .str s := (bounded_some (Option.filter_eq_some_iff.mp h).1).1

theorem positive_some {v : Value} {n : Nat} (h : positive v = some n) : v = .num n := by
  cases v with
  | num m =>
    simp only [positive, Option.ite_none_right_eq_some, Option.some.injEq] at h
    obtain ⟨⟨hpositive, -⟩, rfl⟩ := h
    rw [Int.toNat_of_nonneg hpositive.le]
  | _ => cases h

/-- The fields of an intent, by key. -/
def Intent.field (i : Intent) (key : String) : Value :=
  ((i.core ++ [("checksum", Value.str i.checksum)]).lookup key).getD .undefined

theorem record_intent (i : Intent) : record i.value INTENT_FIELDS = some i.field := by
  have hperm : ((i.core ++ [("checksum", Value.str i.checksum)]).map Prod.fst).Perm INTENT_FIELDS :=
    List.Perm.refl _
  exact record_obj hperm

/-- **Intents.** A value is read as an intent exactly if it has the fields of one that is valid. -/
theorem validateIntent_iff {v : Value} {i : Intent} : validateIntent node v = some i ↔
    (∃ c, record v INTENT_FIELDS = some c ∧ ∀ k ∈ INTENT_FIELDS, c k = i.field k)
      ∧ i.Valid node := by
  constructor
  · intro h
    unfold validateIntent at h
    obtain ⟨c, hc, h⟩ := Option.bind_eq_some_iff.mp h
    obtain ⟨_, hversion, h⟩ := Option.bind_eq_some_iff.mp h
    obtain ⟨_, hprofile, h⟩ := Option.bind_eq_some_iff.mp h
    obtain ⟨_, hstate, h⟩ := Option.bind_eq_some_iff.mp h
    obtain ⟨grantId, hgrant, h⟩ := Option.bind_eq_some_iff.mp h
    obtain ⟨requestId, hrequest, h⟩ := Option.bind_eq_some_iff.mp h
    obtain ⟨funding, hfunding, h⟩ := Option.bind_eq_some_iff.mp h
    obtain ⟨hash, hhash, h⟩ := Option.bind_eq_some_iff.mp h
    obtain ⟨network, hnetwork, h⟩ := Option.bind_eq_some_iff.mp h
    obtain ⟨revision, hrevision, h⟩ := Option.bind_eq_some_iff.mp h
    obtain ⟨original, horiginal, h⟩ := Option.bind_eq_some_iff.mp h
    obtain ⟨envelope, henvelope, h⟩ := Option.bind_eq_some_iff.mp h
    obtain ⟨challenge, hchallenge, h⟩ := Option.bind_eq_some_iff.mp h
    obtain ⟨payment, hpayment, h⟩ := Option.bind_eq_some_iff.mp h
    obtain ⟨policy, hpolicy, h⟩ := Option.bind_eq_some_iff.mp h
    obtain ⟨checksum, hchecksum, h⟩ := Option.bind_eq_some_iff.mp h
    obtain ⟨_, hsealed, h⟩ := Option.bind_eq_some_iff.mp h
    obtain ⟨_, hsize, h⟩ := Option.bind_eq_some_iff.mp h
    obtain rfl := Option.some.inj h
    have hversion := (Value.strictEq_num one_ne_zero).mp (guard_some.mp hversion)
    have hprofile := Value.strictEq_str.mp (guard_some.mp hprofile)
    have hstate := Value.strictEq_str.mp (guard_some.mp hstate)
    have hgrant' := filter_bounded hgrant
    have hrequest' := filter_bounded hrequest
    have hfunding' := canonicalUrl_some hfunding
    have hhash' := filter_bounded hhash
    have hnetwork' := (bounded_some hnetwork).1
    have hrevision' := positive_some hrevision
    have horiginal' := filter_bounded horiginal
    have henvelope' := filter_bounded henvelope
    have hchallenge' := filter_bounded hchallenge
    have hpayment' := filter_bounded hpayment
    have hpolicy' := filter_bounded hpolicy
    have hchecksum' := filter_bounded hchecksum
    refine ⟨⟨c, hc, fun k hk => ?_⟩, ?_⟩
    · simp only [INTENT_FIELDS, List.mem_cons, List.not_mem_nil, or_false] at hk
      rcases hk with rfl | rfl | rfl | rfl | rfl | rfl | rfl | rfl | rfl | rfl | rfl | rfl | rfl | rfl | rfl
      · exact hversion
      · exact hprofile
      · exact hstate
      · exact hgrant'
      · exact hrequest'
      · exact horiginal'
      · exact henvelope'
      · exact hfunding'
      · exact hhash'
      · exact hnetwork'
      · exact hrevision'
      · exact hchallenge'
      · exact hpayment'
      · exact hpolicy'
      · exact hchecksum'
    · rw [hgrant'] at hgrant
      rw [hrequest'] at hrequest
      rw [hfunding'] at hfunding
      rw [hhash'] at hhash
      rw [hnetwork'] at hnetwork
      rw [hrevision'] at hrevision
      rw [horiginal'] at horiginal
      rw [henvelope'] at henvelope
      rw [hchallenge'] at hchallenge
      rw [hpayment'] at hpayment
      rw [hpolicy'] at hpolicy
      rw [hchecksum'] at hchecksum
      exact ⟨hgrant, hrequest, ⟨funding, hfunding⟩, hhash, hnetwork, hrevision, horiginal,
        henvelope, hchallenge, hpayment, hpolicy, hchecksum, guard_some.mp hsealed,
        guard_some.mp hsize⟩
  · rintro ⟨⟨c, hc, hfield⟩, hvalid⟩
    obtain ⟨url, hurl⟩ := hvalid.funding
    have hhref : url.href = i.fundingResourceUrl := (Value.str.inj (canonicalUrl_some hurl)).symm
    unfold validateIntent
    refine Option.bind_eq_some_iff.mpr ⟨c, hc, ?_⟩
    rw [hfield "intentVersion" (by decide), hfield "profile" (by decide),
      hfield "state" (by decide), hfield "grantId" (by decide), hfield "requestId" (by decide),
      hfield "originalChecksum" (by decide), hfield "originalEnvelopeDigest" (by decide),
      hfield "fundingResourceUrl" (by decide), hfield "paymentHash" (by decide),
      hfield "network" (by decide),
      hfield "fundingRevision" (by decide), hfield "challengeDigest" (by decide),
      hfield "paymentDigest" (by decide),
      hfield "custodyPolicyDigest" (by decide), hfield "checksum" (by decide)]
    refine Option.bind_eq_some_iff.mpr
      ⟨(), guard_some.mpr ((Value.strictEq_num one_ne_zero).mpr rfl), ?_⟩
    refine Option.bind_eq_some_iff.mpr ⟨(), guard_some.mpr (Value.strictEq_str.mpr rfl), ?_⟩
    refine Option.bind_eq_some_iff.mpr ⟨(), guard_some.mpr (Value.strictEq_str.mpr rfl), ?_⟩
    refine Option.bind_eq_some_iff.mpr ⟨_, hvalid.grantId, ?_⟩
    refine Option.bind_eq_some_iff.mpr ⟨_, hvalid.requestId, ?_⟩
    refine Option.bind_eq_some_iff.mpr ⟨_, hurl, ?_⟩
    refine Option.bind_eq_some_iff.mpr ⟨_, hvalid.paymentHash, ?_⟩
    refine Option.bind_eq_some_iff.mpr ⟨_, hvalid.network, ?_⟩
    refine Option.bind_eq_some_iff.mpr ⟨_, hvalid.fundingRevision, ?_⟩
    refine Option.bind_eq_some_iff.mpr ⟨_, hvalid.originalChecksum, ?_⟩
    refine Option.bind_eq_some_iff.mpr ⟨_, hvalid.originalEnvelopeDigest, ?_⟩
    refine Option.bind_eq_some_iff.mpr ⟨_, hvalid.challengeDigest, ?_⟩
    refine Option.bind_eq_some_iff.mpr ⟨_, hvalid.paymentDigest, ?_⟩
    refine Option.bind_eq_some_iff.mpr ⟨_, hvalid.custodyPolicyDigest, ?_⟩
    refine Option.bind_eq_some_iff.mpr ⟨_, hvalid.checksum, ?_⟩
    rw [hhref]
    exact Option.bind_eq_some_iff.mpr ⟨(), guard_some.mpr hvalid.sealed,
      Option.bind_eq_some_iff.mpr ⟨(), guard_some.mpr hvalid.size, rfl⟩⟩

theorem value_intent (i : Intent) : written (.given INTENT_FIELDS) i.field = i.value := by
  simp [written, Order.given, INTENT_FIELDS, Intent.field, Intent.value, Intent.core,
    List.lookup_cons, List.lookup_nil]

theorem Intent.Valid.json {i : Intent} (h : i.Valid node) : i.value.Json := by
  have hrevision : (i.fundingRevision : Int).natAbs ≤ 9007199254740991 := by
    have hpositive := h.fundingRevision
    by_contra hlarge
    have hnone : positive (.num i.fundingRevision) = none := if_neg fun hrange => hlarge (by
      have hle : (i.fundingRevision : Int) ≤ 9007199254740991 := hrange.2
      omega)
    rw [hnone] at hpositive
    cases hpositive
  refine .obj (show INTENT_FIELDS.Nodup by decide) ?_
  simp only [Intent.core, List.cons_append, List.nil_append, List.forall_mem_cons]
  exact ⟨.num (by decide), .str _, .str _, .str _, .str _, .str _, .str _, .str _, .str _, .str _,
    .num hrevision, .str _, .str _, .str _, .str _, List.forall_mem_nil _⟩

/-- The fields of an intent are as they are in its text. -/
theorem canonical_field {i : Intent} : ∀ k ∈ INTENT_FIELDS, (i.field k).canonical = i.field k := by
  intro k hk
  simp only [INTENT_FIELDS, List.mem_cons, List.not_mem_nil, or_false] at hk
  rcases hk with rfl | rfl | rfl | rfl | rfl | rfl | rfl | rfl | rfl | rfl | rfl | rfl | rfl | rfl
    | rfl <;> rfl

/-- Reading an intent looks at its fields only. -/
theorem validateIntent_congr {v w : Value} (h : Copies INTENT_FIELDS v w) :
    validateIntent node v = validateIntent node w := by
  obtain ⟨c, d, hv, hw, hfield⟩ := h
  refine Option.ext fun i => ?_
  rw [validateIntent_iff, validateIntent_iff, hv, hw]
  simp only [Option.some.injEq, exists_eq_left']
  exact and_congr_left fun _ => forall₂_congr fun k hk => by rw [hfield k hk]

/-- Intents are records with one text. -/
def intents (node : Node) : Sealed Intent where
  validate := validateIntent node
  value := Intent.value
  text := Intent.text
  fits := isBounded 16384
  validate_value {v a} h := by
    exact validateIntent_iff.mpr ⟨⟨a.field, record_intent a, fun _ _ => rfl⟩,
      (validateIntent_iff.mp h).2⟩
  fits_text h := (validateIntent_iff.mp h).2.size
  parse_text {v a} h := by
    have hvalid := (validateIntent_iff.mp h).2
    obtain ⟨order, c, hfields, hvalue⟩ := @fields_canonical INTENT_FIELDS (by decide) a.field
    rw [value_intent] at hfields
    rw [Intent.text, parse_canonicalJson hvalid.json, Option.bind_some]
    exact validateIntent_iff.mpr
      ⟨⟨c, record_of_fields hfields, fun k hk => (hvalue k hk).trans (canonical_field k hk)⟩,
        hvalid⟩

theorem parseIntent_iff {t : String} {i : Intent} :
    parseOriginalServiceDispatchIntent node t = some i ↔ (intents node).read t = some i := by
  have hread : (intents node).read t = some i ↔ ∃ _ : Unit, isBounded 16384 t = true ∧ ∃ decoded,
      parse t = some decoded
      ∧ ∃ result, validateIntent node decoded = some result ∧ result.text = t ∧ result = i := by
    simp only [Sealed.read, Option.bind_eq_bind, Option.bind_eq_some_iff, guard_some,
      Option.ite_none_right_eq_some, Option.some.injEq]
    exact Iff.rfl
  rw [hread]
  simp only [parseOriginalServiceDispatchIntent, Option.bind_eq_bind, Option.bind_eq_some_iff,
    guard_some, Option.pure_def, Option.some.injEq]
  constructor
  · rintro ⟨u, hfits, decoded, hparse, result, hvalid, -, htext, hresult⟩
    exact ⟨u, hfits, decoded, hparse, result, hvalid, htext, hresult⟩
  · rintro ⟨u, hfits, decoded, hparse, result, hvalid, htext, hresult⟩
    exact ⟨u, hfits, decoded, hparse, result, hvalid, u, htext, hresult⟩

/-- A captured intent is valid, and names the text of the original it was captured from. -/
theorem captureIntent_digest {original binding : Value} {i : Intent}
    (h : captureOriginalServiceDispatchIntent node original binding = some i) :
    (intents node).Made i
      ∧ ∃ o, validateRecord node original = some o ∧ i.originalEnvelopeDigest = "sha256:"
      ++ node.sha.hex o.text := by
  obtain ⟨b, -, h⟩ := Option.bind_eq_some_iff.mp h
  unfold captureIntent at h
  obtain ⟨o, ho, h⟩ := Option.bind_eq_some_iff.mp h
  obtain ⟨revision, -, h⟩ := Option.bind_eq_some_iff.mp h
  obtain ⟨challenge, -, h⟩ := Option.bind_eq_some_iff.mp h
  obtain ⟨payment, -, h⟩ := Option.bind_eq_some_iff.mp h
  obtain ⟨policy, -, h⟩ := Option.bind_eq_some_iff.mp h
  obtain ⟨_, -, h⟩ := Option.bind_eq_some_iff.mp h
  refine ⟨⟨_, h⟩, o, ho, ?_⟩
  obtain ⟨⟨c, hc, hfield⟩, -⟩ := validateIntent_iff.mp h
  rw [record_intent, Option.some.injEq] at hc
  have hdigest := hfield "originalEnvelopeDigest" (by decide)
  rw [← hc] at hdigest
  exact (Value.str.inj hdigest).symm

/-! ### The two codecs -/

/-- **Codecs.** A record that is captured is read back from its text, a text is accepted exactly if
it is that of a captured record, and what is accepted is written as it was; a text that was kept is
the one that any copy of the record is written as. The same holds of intents, and an intent that is
captured has the digest of the text of its original. -/
theorem custodyCodec_exact (node : Node) :
    (∀ input binding o, captureOriginalServiceRequestCustody node input binding = some o →
      ∃ t, serializeOriginalServiceRequestCustody node o.value = some t
        ∧ parseOriginalServiceRequestCustody node t = some o)
    ∧ (∀ t, (∃ o, parseOriginalServiceRequestCustody node t = some o) ↔ ∃ input binding o,
      captureOriginalServiceRequestCustody node input binding = some o
        ∧ serializeOriginalServiceRequestCustody node o.value = some t)
    ∧ (∀ t o, parseOriginalServiceRequestCustody node t = some o →
      serializeOriginalServiceRequestCustody node o.value = some t)
    ∧ (∀ registry, (originals node).Reachable registry → ∀ (place : Nat) o t, registry[place]?
      = some (o, t) →
      (originals node).serialize registry (.made place) = some t
        ∧ serializeOriginalServiceRequestCustody node o.value = some t
        ∧ ∀ copy, Copies RECORD_FIELDS copy o.value →
        serializeOriginalServiceRequestCustody node copy = some t)
    ∧ (∀ original binding i, captureOriginalServiceDispatchIntent node original binding = some i →
      (∃ t, serializeOriginalServiceDispatchIntent node i.value = some t
        ∧ parseOriginalServiceDispatchIntent node t = some i)
        ∧ ∃ t, serializeOriginalServiceRequestCustody node original = some t
        ∧ i.originalEnvelopeDigest = "sha256:" ++ node.sha.hex t)
    ∧ (∀ t i, parseOriginalServiceDispatchIntent node t = some i →
      serializeOriginalServiceDispatchIntent node i.value = some t)
    ∧ ∀ registry, (intents node).Reachable registry → ∀ (place : Nat) i t, registry[place]?
      = some (i, t) →
      (intents node).serialize registry (.made place) = some t
        ∧ serializeOriginalServiceDispatchIntent node i.value = some t
        ∧ ∀ copy, Copies INTENT_FIELDS copy i.value →
        serializeOriginalServiceDispatchIntent node copy = some t := by
  have hwritten {o : Original} (h : (originals node).Made o) :
      serializeOriginalServiceRequestCustody node o.value = some o.text := by
    obtain ⟨v, hv⟩ := h
    have hvalue : validateRecord node o.value = some o := (originals node).validate_value hv
    rw [serializeOriginalServiceRequestCustody, hvalue, Option.map_some]
  have hwritten' {i : Intent} (h : (intents node).Made i) : serializeOriginalServiceDispatchIntent
      node i.value = some i.text := by
    obtain ⟨v, hv⟩ := h
    have hvalue : validateIntent node i.value = some i := (intents node).validate_value hv
    rw [serializeOriginalServiceDispatchIntent, hvalue, Option.map_some]
  refine ⟨fun input binding o h => ?_, fun t => ⟨?_, ?_⟩, fun t o h => ?_,
    fun registry h place o t hplace => ?_, fun original binding i h => ⟨?_, ?_⟩, fun t i h => ?_,
    fun registry h place i t hplace => ?_⟩
  · have hmade := made_iff.mpr ⟨input, binding, h⟩
    exact ⟨o.text, hwritten hmade, parseCustody_iff.mpr (Sealed.read_iff.mpr ⟨hmade, rfl⟩)⟩
  · rintro ⟨o, h⟩
    obtain ⟨hmade, rfl⟩ := Sealed.read_iff.mp (parseCustody_iff.mp h)
    obtain ⟨input, binding, hcapture⟩ := made_iff.mp hmade
    exact ⟨input, binding, o, hcapture, hwritten hmade⟩
  · rintro ⟨input, binding, o, hcapture, ht⟩
    have hmade := made_iff.mpr ⟨input, binding, hcapture⟩
    rw [hwritten hmade, Option.some.injEq] at ht
    exact ⟨o, parseCustody_iff.mpr (Sealed.read_iff.mpr ⟨hmade, ht.symm⟩)⟩
  · obtain ⟨hmade, rfl⟩ := Sealed.read_iff.mp (parseCustody_iff.mp h)
    exact hwritten hmade
  · obtain ⟨hfast, hvalue, hcopy⟩ := Sealed.fast_path h hplace
    exact ⟨hfast, hvalue, fun copy hcopies => hcopy copy (validateRecord_congr hcopies)⟩
  · obtain ⟨hmade, -⟩ := captureIntent_digest h
    exact ⟨i.text, hwritten' hmade, parseIntent_iff.mpr (Sealed.read_iff.mpr ⟨hmade, rfl⟩)⟩
  · obtain ⟨-, o, ho, hdigest⟩ := captureIntent_digest h
    exact ⟨o.text, by rw [serializeOriginalServiceRequestCustody, ho, Option.map_some], hdigest⟩
  · obtain ⟨hmade, rfl⟩ := Sealed.read_iff.mp (parseIntent_iff.mp h)
    exact hwritten' hmade
  · obtain ⟨hfast, hvalue, hcopy⟩ := Sealed.fast_path h hplace
    exact ⟨hfast, hvalue, fun copy hcopies => hcopy copy (validateIntent_congr hcopies)⟩

/-! ### A request and its original -/

theorem bounded_str {limit : Nat} {s : String} (h : isBounded limit s = true) :
    bounded limit (.str s) = some s := by
  rw [bounded, if_pos h]

theorem isBounded_of_size {limit : Nat} {s : String} (hne : s ≠ "") (h : s.utf8ByteSize ≤ limit) :
    isBounded limit s = true := by
  have hlength := utf16Length_le s
  simp only [isBounded, Bool.and_eq_true, decide_eq_true_eq]
  exact ⟨⟨hne, hlength.trans h⟩, h⟩

theorem isBounded_stringify {limit : Nat} {v : Value} (h : v.textSize ≤ limit) :
    isBounded limit (stringify v) = true := by
  have hsize := Value.size_stringify v
  refine isBounded_of_size (fun hempty => ?_) (hsize.trans_le h)
  have hpos := Value.one_le_textSize v
  rw [← hsize, hempty] at hpos
  exact absurd hpos (by decide)

/-- A member that is a text of a value. -/
theorem memberSize_nested {key : String} {v : Value} {k n : Nat}
    (hkey : (Value.str key).textSize ≤ k) (hv : v.textSize ≤ n) :
    Value.memberSize key (.str (stringify v)) ≤ k + (2 * n + 2) + 2 := by
  have hnested := Value.textSize_nested v
  rw [Value.size_stringify] at hnested
  unfold Value.memberSize
  omega

/-- The size of an object by the members before one, the one and the members after it. -/
theorem textSize_around (fs gs : List (String × Value)) (key : String) (v : Value) :
    (Value.obj (fs ++ (key, v) :: gs)).textSize
    ≤ (fs.map fun f => Value.memberSize f.1 f.2).sum
    + (Value.memberSize key v + (gs.map fun f => Value.memberSize f.1 f.2).sum) + 2 := by
  refine (Value.textSize_obj_le _).trans_eq ?_
  rw [List.map_append, List.sum_append, List.map_cons, List.sum_cons]

namespace Sample

def funding : Url := ⟨"https://example.com/funding", "https://example.com", "https:", "", "",
      "example.com", "", "", "/funding"⟩

def service : Url := { funding with
  href := "https://example.com/service-credit/v1/execute", pathname :=
    "/service-credit/v1/execute" }

/-- A platform on which two texts are addresses, and every text has one digest. -/
def platform : Node where
  sha := ⟨fun _ => String.ofList (List.replicate 64 'a'), fun _ => by decide⟩
  url s := if s = funding.href then some funding else if s = service.href then some service
    else none

def request : Request := ⟨"grant-1", "request-1", 1⟩

def requestJson : String := stringify request.value

def hash : String := String.ofList (List.replicate 64 'a')

def parts : Parts :=
  ⟨.str requestJson, .str "", .str service.href, .str funding.href, .str hash, .str "zenon:testnet"⟩

theorem url_funding : platform.url funding.href = some funding := by
  rw [show platform.url funding.href = if funding.href = funding.href then some funding
    else if funding.href = service.href then some service else none from rfl, if_pos rfl]

theorem url_service : platform.url service.href = some service := by
  have hother : ¬service.href = funding.href := by decide
  rw [show platform.url service.href = if service.href = funding.href then some funding
    else if service.href = service.href then some service else none from rfl,
    if_neg hother, if_pos rfl]

theorem canonicalUrl_funding : canonicalUrl platform (.str funding.href) false = some funding := by
  unfold canonicalUrl
  have hbounded : bounded 4096 (.str funding.href) = some funding.href := bounded_str (by decide)
  refine Option.bind_eq_some_iff.mpr ⟨funding.href, hbounded, ?_⟩
  refine Option.bind_eq_some_iff.mpr ⟨(), guard_some.mpr (by decide), ?_⟩
  exact Option.filter_eq_some_iff.mpr ⟨url_funding, by decide⟩

theorem canonicalUrl_service : canonicalUrl platform (.str service.href) true = some service := by
  unfold canonicalUrl
  have hbounded : bounded 4096 (.str service.href) = some service.href := bounded_str (by decide)
  refine Option.bind_eq_some_iff.mpr ⟨service.href, hbounded, ?_⟩
  refine Option.bind_eq_some_iff.mpr ⟨(), guard_some.mpr (by decide), ?_⟩
  exact Option.filter_eq_some_iff.mpr ⟨url_service, by decide⟩

theorem size_request : request.value.textSize ≤ 360 := by
  decide +kernel

theorem requestJson_bounded : bounded 4096 (.str requestJson) = some requestJson :=
  bounded_str (isBounded_stringify (size_request.trans (by decide)))

theorem request_read : requestFromJson (.str requestJson) = some request := by
  have hjson : request.value.Json := by
    refine .obj (show REQUEST_FIELDS.Nodup by decide) ?_
    simp only [List.forall_mem_cons]
    exact ⟨.num (by decide), .str _, .str _, .str _, .str _, .str _, .str _, .num (by decide),
      List.forall_mem_nil _⟩
  have hrecord : record request.value REQUEST_FIELDS = some _ :=
    record_obj (List.Perm.refl REQUEST_FIELDS)
  unfold requestFromJson
  refine Option.bind_eq_some_iff.mpr ⟨requestJson, requestJson_bounded, ?_⟩
  refine Option.bind_eq_some_iff.mpr ⟨request.value, parse_stringify hjson, ?_⟩
  refine Option.bind_eq_some_iff.mpr ⟨_, hrecord, ?_⟩
  refine Option.bind_eq_some_iff.mpr ⟨"grant-1", by decide, ?_⟩
  refine Option.bind_eq_some_iff.mpr ⟨"request-1", by decide, ?_⟩
  refine Option.bind_eq_some_iff.mpr ⟨1, by decide, ?_⟩
  refine Option.bind_eq_some_iff.mpr
    ⟨(), guard_some.mpr ((Value.strictEq_num one_ne_zero).mpr rfl), ?_⟩
  refine Option.bind_eq_some_iff.mpr ⟨(), guard_some.mpr (Value.strictEq_str.mpr rfl), ?_⟩
  refine Option.bind_eq_some_iff.mpr ⟨(), guard_some.mpr (Value.strictEq_str.mpr rfl), ?_⟩
  refine Option.bind_eq_some_iff.mpr ⟨(), guard_some.mpr (Value.strictEq_str.mpr rfl), ?_⟩
  refine Option.bind_eq_some_iff.mpr ⟨(), guard_some.mpr (Value.strictEq_str.mpr rfl), ?_⟩
  exact Option.bind_eq_some_iff.mpr ⟨(), guard_some.mpr rfl, rfl⟩

/-- The original that the request is kept as. -/
def original : Original :=
  ⟨requestJson, service.href, funding.href, hash, "zenon:testnet", "grant-1", "request-1",
    "sha256:" ++ hash⟩

/-- The members of the original before the request. -/
def before : List (String × Value) := [("custodyVersion", .num 1), ("profile", .str PROFILE)]

/-- The members of the original after the request. -/
def after : List (String × Value) :=
  [("originalBodyBase64", .str ""), ("serviceResourceUrl", .str service.href),
    ("fundingResourceUrl", .str funding.href), ("paymentHash", .str hash),
    ("network", .str "zenon:testnet"), ("grantId", .str "grant-1"), ("requestId", .str "request-1"),
    ("checksum", .str ("sha256:" ++ hash))]

theorem size_before : (before.map fun f => Value.memberSize f.1 f.2).sum ≤ 100 := by
  decide

theorem size_after : (after.map fun f => Value.memberSize f.1 f.2).sum ≤ 600 := by
  decide

theorem size_original : original.value.textSize ≤ 16384 := by
  have hkey : (Value.str "originalRequestJson").textSize ≤ 26 := by decide
  have hmember : Value.memberSize "originalRequestJson" (.str requestJson) ≤ 26 + (2 * 360 + 2)
      + 2 := memberSize_nested hkey size_request
  have hbefore := size_before
  have hafter := size_after
  have hfields : original.value
      = .obj (before ++ ("originalRequestJson", .str requestJson) :: after) := rfl
  rw [hfields]
  calc _ ≤ _ := textSize_around before after "originalRequestJson" (.str requestJson)
    _ ≤ 100 + (26 + (2 * 360 + 2) + 2 + 600) + 2 := by omega
    _ ≤ 16384 := by decide

theorem captured : capture platform parts = some original := by
  unfold capture
  refine Option.bind_eq_some_iff.mpr ⟨funding, canonicalUrl_funding, ?_⟩
  have hhash : paymentHashOf (.str hash) = some hash := by decide
  have hnetwork : bounded 256 (.str "zenon:testnet") = some "zenon:testnet" := by decide
  refine Option.bind_eq_some_iff.mpr ⟨hash, hhash, ?_⟩
  refine Option.bind_eq_some_iff.mpr ⟨"zenon:testnet", hnetwork, ?_⟩
  refine Option.bind_eq_some_iff.mpr ⟨(), guard_some.mpr (Value.strictEq_str.mpr rfl), ?_⟩
  refine Option.bind_eq_some_iff.mpr ⟨requestJson, requestJson_bounded, ?_⟩
  refine Option.bind_eq_some_iff.mpr ⟨request, request_read, ?_⟩
  refine Option.bind_eq_some_iff.mpr ⟨service, canonicalUrl_service, ?_⟩
  refine Option.bind_eq_some_iff.mpr ⟨(), guard_some.mpr rfl, ?_⟩
  exact Option.bind_eq_some_iff.mpr ⟨(), guard_some.mpr (isBounded_stringify size_original), rfl⟩

def digest : String := "sha256:" ++ hash

def policy : Policy := ⟨8, service.href⟩

/-- What the intent to dispatch the request is bound to. -/
def intentBinding : Value :=
  .obj [("fundingRevision", .num 1), ("challengeDigest", .str digest),
    ("paymentDigest", .str digest), ("custodyPolicy", policy.value)]

def intent : Intent :=
  ⟨"grant-1", "request-1", digest, digest, funding.href, hash, "zenon:testnet", 1, digest, digest,
    digest, digest⟩

theorem size_intent : intent.value.textSize ≤ 16384 := by
  decide +kernel

theorem intent_valid : intent.Valid platform where
  grantId := by decide
  requestId := by decide
  funding := ⟨funding, canonicalUrl_funding⟩
  paymentHash := by decide
  network := by decide
  fundingRevision := by decide
  originalChecksum := by decide
  originalEnvelopeDigest := by decide
  challengeDigest := by decide
  paymentDigest := by decide
  custodyPolicyDigest := by decide
  checksum := by decide
  sealed := rfl
  size := isBounded_of_size (canonicalJson_ne_empty _) ((size_canonicalJson _).trans_le size_intent)

theorem policy_read : snapshotOriginalServiceRequestCustodyPolicy platform policy.value
    (.str funding.href) = some policy := by
  have hrecord : record policy.value POLICY_FIELDS = some _ :=
    record_obj (List.Perm.refl POLICY_FIELDS)
  unfold snapshotOriginalServiceRequestCustodyPolicy
  refine Option.bind_eq_some_iff.mpr ⟨_, hrecord, ?_⟩
  refine Option.bind_eq_some_iff.mpr
    ⟨(), guard_some.mpr ((Value.strictEq_num one_ne_zero).mpr rfl), ?_⟩
  refine Option.bind_eq_some_iff.mpr ⟨8, by decide, ?_⟩
  refine Option.bind_eq_some_iff.mpr ⟨(), guard_some.mpr (by decide), ?_⟩
  refine Option.bind_eq_some_iff.mpr ⟨service, canonicalUrl_service, ?_⟩
  refine Option.bind_eq_some_iff.mpr ⟨funding, canonicalUrl_funding, ?_⟩
  exact Option.bind_eq_some_iff.mpr ⟨(), guard_some.mpr rfl, rfl⟩

theorem captured_intent : captureOriginalServiceDispatchIntent platform original.value intentBinding
    = some intent := by
  have hrecord : record intentBinding INTENT_BINDING_FIELDS = some _ :=
    record_obj (List.Perm.refl INTENT_BINDING_FIELDS)
  have hdigest : requireIntentDigest (.str digest) = some digest := by decide
  have hread : validateIntent platform intent.value = some intent :=
    validateIntent_iff.mpr ⟨⟨intent.field, record_intent intent, fun _ _ => rfl⟩, intent_valid⟩
  unfold captureOriginalServiceDispatchIntent captureIntent
  refine Option.bind_eq_some_iff.mpr ⟨_, hrecord, ?_⟩
  refine Option.bind_eq_some_iff.mpr ⟨original, validateRecord_value captured, ?_⟩
  refine Option.bind_eq_some_iff.mpr ⟨1, by decide, ?_⟩
  refine Option.bind_eq_some_iff.mpr ⟨digest, hdigest, ?_⟩
  refine Option.bind_eq_some_iff.mpr ⟨digest, hdigest, ?_⟩
  refine Option.bind_eq_some_iff.mpr ⟨policy, policy_read, ?_⟩
  exact Option.bind_eq_some_iff.mpr ⟨(), guard_some.mpr rfl, hread⟩

end Sample

/-- An original and the intent to dispatch it, each of which is read back from its text, also when
it is written from what was kept of it. -/
theorem custodyCodec_exact_sample :
    (∃ t, serializeOriginalServiceRequestCustody Sample.platform Sample.original.value = some t
      ∧ parseOriginalServiceRequestCustody Sample.platform t = some Sample.original
      ∧ Sample.intent.originalEnvelopeDigest = "sha256:" ++ Sample.platform.sha.hex t
      ∧ (originals Sample.platform).serialize [(Sample.original, t)] (.made 0) = some t
      ∧ ∀ copy, Copies RECORD_FIELDS copy Sample.original.value →
      serializeOriginalServiceRequestCustody Sample.platform copy = some t)
    ∧ ∃ t, serializeOriginalServiceDispatchIntent Sample.platform Sample.intent.value = some t
      ∧ parseOriginalServiceDispatchIntent Sample.platform t = some Sample.intent
      ∧ (intents Sample.platform).serialize [(Sample.intent, t)] (.made 0) = some t
      ∧ ∀ copy, Copies INTENT_FIELDS copy Sample.intent.value →
      serializeOriginalServiceDispatchIntent Sample.platform copy = some t := by
  obtain ⟨horiginal, -, -, hkept, hintent, -, hkept'⟩ := custodyCodec_exact Sample.platform
  have hcaptured := (capture_parts Sample.parts).trans Sample.captured
  obtain ⟨t, ht, hparse⟩ :=
    horiginal Sample.parts.input Sample.parts.binding Sample.original hcaptured
  obtain ⟨⟨t', ht', hparse'⟩, s, hs, hdigest⟩ := hintent _ _ _ Sample.captured_intent
  obtain rfl : t = s := Option.some.inj (ht.symm.trans hs)
  obtain ⟨hmade, rfl⟩ := Sealed.read_iff.mp (parseCustody_iff.mp hparse)
  obtain ⟨hmade', rfl⟩ := Sealed.read_iff.mp (parseIntent_iff.mp hparse')
  obtain ⟨hfast, -, hcopy⟩ := hkept [_] (.single (.keep hmade)) 0 _ _ rfl
  obtain ⟨hfast', -, hcopy'⟩ := hkept' [_] (.single (.keep hmade')) 0 _ _ rfl
  exact ⟨⟨_, ht, hparse, hdigest, hfast, hcopy⟩, _, ht', hparse', hfast', hcopy'⟩

end Custody
end ZenonX402
