/-
# The size of a state

Every text in a state has a bounded length and the lineages have a bounded number
of entries, so what an accepted state is written as is far below the limits of
`snapshotJson`: a state that was given back can always be handed in again
(`snapshotJson_encode`). The measures here are those of the longest texts and of
all fields present, with room in the receipts for `MAX_PAGE_ENTRIES` entries each.

Key theorems: `bounded_receipt`, `bounded_state`, `snapshotJson_encode`.
-/
import ZenonX402.Lib.Extent
import ZenonX402.Observer.Effects

namespace ZenonX402
namespace Observer

open Js
open Js.Codec (bounded_text bounded_integer bounded_constStr bounded_constNum bounded_enum
  bounded_nullable bounded_refine bounded_equiv bounded_object within_list)
open Js.Fields (bounded_nil bounded_cons bounded_const)
open Js.Value (Within leaf stringLeaf)

variable {sha : Sha256}

/-! ### Texts -/

theorem isAscii_isIdentifierChar {c : Char} (h : Credit.isIdentifierChar c = true) :
    Text.isAscii c = true := by
  unfold Credit.isIdentifierChar at h
  rcases (Bool.or_eq_true _ _).mp h with h | h
  · exact Text.isAscii_isAlnum h
  · exact Text.isAscii_oneOf (by decide) h

theorem bounded_identifier : Credit.assertIdentifier.Bounded refusedKey (stringLeaf 128) := by
  refine bounded_text fun s hs => ?_
  unfold Credit.isIdentifier at hs
  exact Text.size_headTail (Bool.and_eq_true .. ▸ hs).1 (fun _ => Text.isAscii_isAlnum) fun _ =>
    isAscii_isIdentifierChar

theorem bounded_commitment : Credit.assertCommitment.Bounded refusedKey (stringLeaf 71) :=
  bounded_text fun _ hs => (Text.size_prefixed hs (by decide) fun _ => Text.isAscii_isHexLower).le

theorem bounded_transactionId : assertTransactionId.Bounded refusedKey (stringLeaf 72) :=
  bounded_text fun _ hs => (Text.size_prefixed hs (by decide) fun _ => Text.isAscii_isHexLower).le

theorem bounded_hash : assertHash.Bounded refusedKey (stringLeaf 64) := by
  refine bounded_text fun s hs => ?_
  unfold isNonzeroHash at hs
  exact (Text.size_isHash (Bool.and_eq_true .. ▸ hs).1).le

theorem bounded_amount : amount.Bounded refusedKey (stringLeaf 77) := by
  refine bounded_text fun s hs => ?_
  simp only [isAmount, Bool.and_eq_true, decide_eq_true_eq] at hs
  exact (Text.size_isPositiveDecimal hs.1).le.trans hs.2

theorem bounded_chainIdentifier : chainIdentifier.Bounded refusedKey (stringLeaf 16) := by
  refine bounded_text fun s hs => ?_
  have hmax : Credit.MOCK_CHAIN_IDENTIFIER.length = 16 := by decide
  simp only [Credit.isSdkSafeChainIdentifier, Bool.and_eq_true, Bool.or_eq_true, decide_eq_true_eq,
    beq_iff_eq, hmax]
    at hs
  have hsize := Text.size_isPositiveDecimal hs.1
  omega

/-! ### Records -/

theorem bounded_observerPolicy :
    observerPolicyCodec.Bounded refusedKey ⟨4, 3, 36, 0, 128, 0, 1, 3⟩ :=
  (bounded_equiv (bounded_object
    (bounded_cons bounded_identifier (bounded_cons (bounded_integer _ _)
    (bounded_cons (bounded_integer _ _) bounded_nil))) _ _) _).mono (by decide)

theorem bounded_authorityGeneration :
    authorityGenerationCodec.Bounded refusedKey ⟨4, 3, 49, 0, 199, 0, 1, 3⟩ :=
  (bounded_equiv (bounded_object
    (bounded_cons bounded_identifier (bounded_cons (bounded_integer _ _)
    (bounded_cons bounded_commitment bounded_nil))) _ _) _).mono (by decide)

theorem bounded_chainProfile : chainProfileCodec.Bounded refusedKey ⟨4, 3, 41, 0, 80, 0, 1, 3⟩ :=
  (bounded_equiv (bounded_object
    (bounded_const (bounded_constNum _ _ _) (bounded_cons bounded_chainIdentifier
    (bounded_cons bounded_hash bounded_nil))) _ _) _).mono (by decide)

theorem bounded_confirmationPolicy :
    confirmationPolicyCodec.Bounded refusedKey ⟨4, 3, 41, 0, 128, 0, 1, 3⟩ :=
  (bounded_equiv (bounded_object
    (bounded_cons bounded_identifier (bounded_cons (bounded_integer _ _)
    (bounded_cons (bounded_integer _ _) bounded_nil))) _ _) _).mono (by decide)

theorem bounded_checkpoint : checkpointCodec.Bounded refusedKey ⟨3, 2, 10, 0, 64, 0, 1, 2⟩ :=
  (bounded_equiv (bounded_object
    (bounded_cons (bounded_integer _ _) (bounded_cons bounded_hash bounded_nil)) _ _)
    _).mono (by decide)

theorem bounded_lineageEntry : lineageEntryCodec.Bounded refusedKey ⟨4, 3, 22, 0, 128, 0, 1, 3⟩ :=
  (bounded_equiv (bounded_object (bounded_cons (bounded_integer _ _) (bounded_cons bounded_hash
    (bounded_cons bounded_hash bounded_nil))) _ _) _).mono (by decide)

theorem bounded_membership : membershipCodec.Bounded refusedKey ⟨5, 4, 58, 0, 207, 0, 1, 4⟩ :=
  (bounded_equiv (bounded_object
    (bounded_cons bounded_transactionId (bounded_cons bounded_commitment
    (bounded_cons (bounded_integer _ _) (bounded_cons bounded_hash bounded_nil)))) _ _) _).mono
    (by decide)

theorem bounded_inclusion : inclusionCodec.Bounded refusedKey ⟨7, 6, 102, 0, 278, 0, 1, 6⟩ :=
  (bounded_equiv (bounded_object
    (bounded_cons bounded_transactionId (bounded_cons bounded_commitment
    (bounded_cons (bounded_integer _ _) (bounded_cons bounded_hash (bounded_cons bounded_commitment
      (bounded_cons (bounded_integer _ _) bounded_nil)))))) _ _) _).mono (by decide)

theorem bounded_target : targetCodec.Bounded refusedKey ⟨25, 24, 400, 0, 2048, 0, 1, 24⟩ :=
  (bounded_equiv (bounded_object
    (bounded_cons bounded_transactionId (bounded_cons bounded_identifier
    (bounded_cons bounded_identifier (bounded_cons bounded_identifier (bounded_cons bounded_amount
    (bounded_const (bounded_constStr _ _)
      (bounded_const (bounded_constStr _ _) (bounded_const (bounded_constStr _ _)
    (bounded_const (bounded_constStr _ _)
      (bounded_cons bounded_identifier (bounded_cons bounded_identifier
    (bounded_cons bounded_identifier
      (bounded_cons bounded_commitment (bounded_cons bounded_commitment
    (bounded_cons bounded_commitment
      (bounded_cons bounded_commitment (bounded_cons bounded_identifier
    (bounded_cons (bounded_integer _ _)
      (bounded_cons bounded_identifier (bounded_cons (bounded_integer _ _)
    (bounded_cons bounded_commitment
      (bounded_cons (bounded_integer _ _) (bounded_cons (bounded_integer _ _)
    (bounded_cons bounded_commitment bounded_nil)))))))))))))))))))))))) _ _) _).mono (by decide)

theorem bounded_status : statusCodec.Bounded refusedKey (stringLeaf 24) := bounded_enum (by decide)

theorem bounded_quarantine : normalizeQuarantine.Bounded refusedKey ⟨2, 1, 6, 0, 25, 0, 1, 1⟩ :=
  (bounded_equiv (bounded_object (bounded_cons (bounded_enum (n := 25) (by decide)) bounded_nil) _
    _) _).mono
    (by decide)

/-! ### Receipts -/

/-- A receipt, whose lineage has at most `MAX_PAGE_ENTRIES` entries. -/
theorem bounded_receipt :
    receiptCodec.Bounded refusedKey ⟨300, 300, 1800, 256, 9000, 0, 3, 64⟩ := by
  intro r
  have hcounted := r.2
  simp only [ReceiptFields.counted, decide_eq_true_eq] at hcounted
  have hlineage := @within_list _ _ refusedKey _ _ bounded_lineageEntry
    Credit.Rejection.INVALID_INPUT r.1.lineage 64
    hcounted.2.2.2.2 (by decide)
  refine Within.mono (Measure.Le.inside (Value.fields_cons (bounded_commitment r.1.planId)
    (Value.fields_cons (bounded_commitment r.1.pageDigest)
    (Value.fields_cons (bounded_checkpoint r.1.startCheckpoint)
    (Value.fields_cons (bounded_checkpoint r.1.endCheckpoint)
    (Value.fields_cons (bounded_checkpoint r.1.frontier)
    (Value.fields_cons (Value.within_num r.1.entryCount.1)
    (Value.fields_cons hlineage
    (Value.fields_cons (bounded_nullable bounded_membership (by decide) r.1.targetMembership)
    (Value.fields_cons (bounded_nullable bounded_checkpoint (by decide) r.1.thresholdCheckpoint)
      Value.fields_nil))))))))) (Nat.le_refl 9)) ?_
  decide

theorem bounded_firstThreshold :
    firstThresholdCodec.Bounded refusedKey ⟨310, 310, 1900, 256, 9100, 0, 4, 64⟩ :=
  (bounded_equiv (bounded_object
    (bounded_cons bounded_checkpoint (bounded_cons (bounded_integer _ _)
    (bounded_cons bounded_receipt bounded_nil))) _ _) _).mono (by decide)

theorem bounded_catchUpState :
    normalizeCatchUpState.Bounded refusedKey ⟨310, 310, 1900, 256, 9000, 0, 4, 64⟩ :=
  (bounded_refine (bounded_equiv
    (bounded_object (bounded_cons (bounded_integer _ _) (bounded_cons (bounded_integer _ _)
    (bounded_cons (bounded_integer _ _)
      (bounded_cons (bounded_nullable bounded_receipt (by decide)) bounded_nil))))
      _ _) _) _ _).mono (by decide)

/-! ### States -/

theorem bounded_versionHeight : normalizeMomentumVersionHeight.Bounded refusedKey leaf :=
  bounded_nullable (bounded_integer _ _) (Measure.Le.refl _)

theorem bounded_state : stateCodec.Bounded refusedKey ⟨800, 800, 6000, 600, 24000, 0, 6, 64⟩ :=
  (bounded_equiv (bounded_object
    (bounded_const (bounded_constNum _ _ _) (bounded_cons (bounded_integer _ _)
    (bounded_cons bounded_observerPolicy
      (bounded_cons bounded_authorityGeneration (bounded_cons bounded_commitment
    (bounded_cons bounded_chainProfile
      (bounded_cons bounded_confirmationPolicy (bounded_cons bounded_target
    (bounded_cons bounded_commitment
      (bounded_cons bounded_checkpoint (bounded_cons bounded_catchUpState
    (bounded_cons bounded_versionHeight
      (bounded_cons bounded_versionHeight (bounded_cons bounded_status
    (bounded_cons (bounded_nullable bounded_inclusion (by decide))
    (bounded_cons (bounded_nullable bounded_firstThreshold (by decide))
    (bounded_const (bounded_constStr _ _)
      (bounded_cons (bounded_nullable bounded_quarantine (by decide))
      bounded_nil)))))))))))))))))) _ _) _).mono (by decide)

theorem json_encode (c : Accepted sha) : c.encode.Json := (acceptedCodec sha).json_encode c

/-- A state that is handed in is copied as it is. -/
theorem snapshotJson_encode (c : Accepted sha) : snapshotJson c.encode = some c.encode := by
  refine snapshotJson_within (json_encode c) (bounded_state c.1) ?_ (by decide)
  exact ⟨by decide, by decide, by decide, by decide, by decide, by decide, rfl⟩

theorem normalizeState_encode (c : Accepted sha) : normalizeState sha c.encode = .ok c := by
  have hsnapshot := snapshotJson_encode c
  unfold normalizeState
  simp only [bind_ok, orReject_ok]
  exact ⟨c.encode, hsnapshot, normalizeStateSnapshot_encode c⟩

/-- The canonical text of a state. -/
theorem text_size (c : Accepted sha) : (canonicalJson c.encode).utf8ByteSize ≤ MAX_INPUT_BYTES :=
  (Value.text_le (json_encode c) (bounded_state c.1)).trans (by decide)

end Observer
end ZenonX402
