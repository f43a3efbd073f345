/-
# Chains of signer records

A transition writes an intent where there was no record, and completes it: a record has two
versions at most, of one payment, one original and one block, and the signed block is the
unsigned one with a signature (`chain_iff`). What is created and what is completed is
accepted by the transition it is meant for (`create_iff`, `complete_iff`, `transition_iff`).

Key definitions: `Binds`, `Chain`, `Shape`, `Advances`.
Key theorems: `transition_iff`, `chain_iff`, `signer_custody_exact`.
-/
import ZenonX402.Zenon.SignerCustody
import ZenonX402.Zenon.Work

namespace ZenonX402
namespace Zenon

open CodeUnits Js Octets Value

variable {sha : Sha256} {sha3 : Sha3}

/-! ### Reservations -/

/-- A reservation of a record's payment. -/
def Binds (reservation : Value) (record : SignerRecord sha3) (status : ReservationStatus) : Prop :=
  ∃ order c, fields ROW reservation = some (order, c) ∧ c "status" = .str status.text
    ∧ c "paymentId" = .str record.paymentId.1 ∧ c "originalDigest" = .str record.originalDigest.1
    ∧ c "asset" = .str record.block.subject.tokenStandard.1 ∧ c "recipient"
    = .str record.block.subject.toAddress.1
    ∧ c "amount" = .str record.block.subject.amount.1

theorem status_iff {v : Value} {status : ReservationStatus} :
    reservationStatus? v = some status ↔ v = .str status.text := by
  unfold reservationStatus?
  constructor
  · intro h
    split at h
    next hv =>
      obtain rfl := Option.some.inj h
      exact Value.strictEq_str.mp hv
    · split at h
      next hv =>
        obtain rfl := Option.some.inj h
        exact Value.strictEq_str.mp hv
      · split at h
        next hv =>
          obtain rfl := Option.some.inj h
          exact Value.strictEq_str.mp hv
        · cases h
  · rintro rfl
    cases status <;> decide

theorem get_fields {names : List String} {v : Value} {order : Order names} {c : String → Value}
    (h : fields names v = some (order, c)) (k : String) : Journal.get v k = c k := by
  cases v with
  | obj gs =>
    simp only [fields, Option.dite_none_right_eq_some, Option.some.injEq, Prod.mk.injEq] at h
    rw [← h.2.2]
    rfl
  | _ => cases h

theorem get_status {reservation : Value} {record : SignerRecord sha3} {status : ReservationStatus}
    (h : Binds reservation record status) :
    Journal.get reservation "status" = .str status.text := by
  obtain ⟨order, c, hfields, hstatus, -⟩ := h
  rw [get_fields hfields, hstatus]

theorem reservationBinding_iff {reservation : Value} {record : SignerRecord sha3}
    {status : ReservationStatus} :
    reservationBinding sha sha3 reservation record.decoded = some status ↔
    Binds reservation record status := by
  have hblock : parseBlock sha sha3 (.str record.decoded.unsignedBlockJson) = some record.block :=
    parseBlock_iff.mpr ⟨rfl, record.consistent, record.keyed⟩
  simp only [reservationBinding, hblock, Option.bind_eq_bind, Option.bind_eq_some_iff, guard_some,
    status_iff, strictEq_str, Option.pure_def, Option.some.injEq, Binds]
  constructor
  · rintro ⟨⟨order, c⟩, hfields, status', hstatus, -, ⟨hpayment, horiginal⟩, block, rfl, -,
      ⟨hasset, hrecipient, hamount⟩, rfl⟩
    exact ⟨order, c, hfields, hstatus, hpayment, horiginal, hasset, hrecipient, hamount⟩
  · rintro ⟨order, c, hfields, hstatus, hpayment, horiginal, hasset, hrecipient, hamount⟩
    exact ⟨(order, c), hfields, status, hstatus, (), ⟨hpayment, horiginal⟩, _, rfl, (),
      ⟨hasset, hrecipient, hamount⟩, rfl⟩

theorem phase_eq {record : SignerRecord sha3} :
    record.phase = .INTENT ↔ record.signature = none := by
  rw [SignerRecord.phase]
  cases record.signature <;> simp

/-- What is inspected is a record under a reservation of its payment, which is not spent before the
signature. -/
theorem inspect_iff {raw reservation : Value} {r : DecodedRecord} :
    inspectOriginalFundingSignerRecord sha sha3 raw reservation = some r ↔
      ∃ (record : SignerRecord sha3) (status : ReservationStatus), raw = .str record.text
        ∧ r = record.decoded
        ∧ Binds reservation record status ∧ ¬ (record.signature = none ∧ status = .SPENT) := by
  simp only [inspectOriginalFundingSignerRecord, Option.bind_eq_bind,
    Option.bind_eq_some_iff, decode_iff]
  constructor
  · rintro ⟨_, ⟨record, rfl, rfl⟩, status, hbound, h⟩
    split at h
    · cases h
    next hspent =>
      obtain rfl := Option.some.inj h
      exact ⟨record, status, rfl, rfl, reservationBinding_iff.mp hbound,
        fun hopen => hspent ⟨phase_eq.mpr hopen.1, hopen.2⟩⟩
  · rintro ⟨record, status, rfl, rfl, hbound, hopen⟩
    refine ⟨_, ⟨record, rfl, rfl⟩, status, reservationBinding_iff.mpr hbound, ?_⟩
    rw [if_neg]
    exact fun hspent => hopen ⟨phase_eq.mp hspent.1, hspent.2⟩

/-! ### Transitions -/

/-- The record with a signature. -/
def SignerRecord.sign (record : SignerRecord sha3)
    (signature : {s : String // isSignature s = true}) : SignerRecord sha3 :=
  { record with signature := some signature }

/-- A text that is accepted where there is no record is of an intent, one that is accepted where
there is an intent is of the same record with a signature, and where there is a signature none is
accepted. -/
theorem transition_iff {expected proposed reservation : Value} {r : DecodedRecord} :
    requireOriginalFundingSignerRecordTransition sha sha3 expected proposed reservation = some r ↔
      ∃ record : SignerRecord sha3, record.signature = none ∧
        (expected = .null ∧ proposed = .str record.text ∧ r = record.decoded
          ∧ Binds reservation record .RESERVED
          ∨ ∃ signature status, expected = .str record.text ∧ proposed
          = .str (record.sign signature).text
            ∧ r = (record.sign signature).decoded ∧ Binds reservation record status
            ∧ status ≠ .SPENT) := by
  simp only [requireOriginalFundingSignerRecordTransition, Option.bind_eq_bind,
    Option.bind_eq_some_iff, inspect_iff]
  constructor
  · rintro ⟨_, ⟨next, status, rfl, rfl, hbound, hopen⟩, h⟩
    split at h
    next hnull =>
      rw [strictEq_null] at hnull
      split at h
      next hfirst =>
        obtain rfl := Option.some.inj h
        rw [get_status hbound, strictEq_str, Value.str.injEq] at hfirst
        have hreserved : status = .RESERVED := by
          cases status
          · rfl
          · exact absurd hfirst.2 (by decide)
          · exact absurd hfirst.2 (by decide)
        rw [hreserved] at hbound
        exact ⟨next, phase_eq.mp hfirst.1, .inl ⟨hnull, rfl, rfl, hbound⟩⟩
      · cases h
    · obtain ⟨_, hprior, hnext⟩ := Option.bind_eq_some_iff.mp h
      obtain ⟨prior, status', rfl, rfl, hbound', hopen'⟩ := inspect_iff.mp hprior
      split at hnext
      next hsame =>
        obtain rfl := Option.some.inj hnext
        obtain ⟨hintent, hsigned, hpayment, horiginal, hblock⟩ := hsame
        have hunsigned := phase_eq.mp hintent
        obtain ⟨signature, hsignature⟩ : ∃ signature, next.signature = some signature := by
          cases hsignature : next.signature with
          | none => exact absurd (hsigned.symm.trans (phase_eq.mpr hsignature)) (by decide)
          | some signature => exact ⟨signature, rfl⟩
        have hnext : next = prior.sign signature := by
          obtain ⟨paymentId, originalDigest, block, consistent, keyed, written⟩ := next
          obtain rfl : paymentId = prior.paymentId := Subtype.ext hpayment.symm
          obtain rfl : originalDigest = prior.originalDigest := Subtype.ext horiginal.symm
          obtain rfl : block = prior.block := (blockText_inj hblock).symm
          rw [SignerRecord.sign, ← hsignature]
        refine ⟨prior, hunsigned,
          .inr ⟨signature, status', rfl, by rw [hnext], by rw [hnext], hbound', ?_⟩⟩
        exact fun hspent => hopen' ⟨hunsigned, hspent⟩
      · cases hnext
  · rintro ⟨record, hunsigned,
      ⟨rfl, rfl, rfl, hbound⟩ | ⟨signature, status, rfl, rfl, rfl, hbound, hopen⟩⟩
    · refine ⟨_, ⟨record, .RESERVED, rfl, rfl, hbound, fun h => by cases h.2⟩, ?_⟩
      rw [if_pos (by decide), if_pos]
      rw [get_status hbound]
      exact ⟨phase_eq.mpr hunsigned, by decide⟩
    · have hbound' : Binds reservation (record.sign signature) status := hbound
      refine ⟨_, ⟨record.sign signature, status, rfl, rfl, hbound', fun h => by cases h.1⟩, ?_⟩
      rw [if_neg (by exact fun h => by cases strictEq_null.mp h), Option.bind_eq_some_iff]
      refine ⟨_, inspect_iff.mpr ⟨record, status, rfl, rfl, hbound, fun h => hopen h.2⟩, ?_⟩
      rw [if_pos]
      exact ⟨phase_eq.mpr hunsigned, rfl, rfl, rfl, rfl⟩

theorem decoded_unsignedBlockJson (record : SignerRecord sha3) :
    record.decoded.unsignedBlockJson = blockText record.block := rfl

theorem block_of_decoded {record record' : SignerRecord sha3}
    (h : record.decoded = record'.decoded) :
    record.block = record'.block := by
  have htext := congrArg DecodedRecord.unsignedBlockJson h
  rw [decoded_unsignedBlockJson, decoded_unsignedBlockJson] at htext
  exact blockText_inj htext

/-- The value that an intent is written from. -/
theorem intent_value {record : SignerRecord sha3} {c : String → Value}
    (hunsigned : record.signature = none) (hpayment : c "paymentId" = .str record.paymentId.1)
    (horiginal : c "originalDigest" = .str record.originalDigest.1) :
    record.value = .obj [("signerCustodyVersion", .num 1), ("paymentId", c "paymentId"),
      ("originalDigest", c "originalDigest"), ("phase", .str "INTENT"),
      ("unsignedBlockJson", .str (canonicalJson (accountBlockCodec.encode record.block))),
      ("signedBlockJson", .null)] := by
  rw [SignerRecord.value, SignerRecord.signedBlockJson, phase_eq.mpr hunsigned, hunsigned,
    hpayment, horiginal]
  rfl

/-- What is created is the text of an intent, under a reservation of its payment. -/
theorem create_iff {reservation unsignedBlock : Value} {text : String} :
    createOriginalFundingSignerIntent sha sha3 reservation unsignedBlock = some text ↔
      ∃ record : SignerRecord sha3, record.signature = none ∧ text = record.text
        ∧ Binds reservation record .RESERVED
        ∧ accountBlockCodec.decode unsignedBlock = .ok record.block := by
  simp only [createOriginalFundingSignerIntent, Option.bind_eq_bind, Option.bind_eq_some_iff,
    original_iff, guard_some, inspect_iff, Option.pure_def, Option.some.injEq]
  constructor
  · rintro ⟨⟨order, c⟩, hfields, block, ⟨hdecode, hconsistent⟩, _, ⟨hreserved, hkey⟩, _,
      ⟨record, status, htext, -, ⟨order', c', hfields', hstatus, hbound⟩, -⟩, rfl⟩
    obtain ⟨get, hget, hvalue⟩ := fields_written (Order.given ROW) c
    obtain ⟨-, rfl⟩ := Prod.mk.inj (Option.some.inj (hfields'.symm.trans hget))
    have hfield {k : String} (hk : k ∈ ROW) {w : Value} (h : c' k = w) : c k = w :=
      (hvalue k hk).symm.trans h
    obtain ⟨hpayment, horiginal, hasset, hrecipient, hamount⟩ := hbound
    have hpayment := hfield (by decide) hpayment
    have horiginal := hfield (by decide) horiginal
    have hreserved := strictEq_str.mp hreserved
    -- the text is that of the intent, and of what was read of it
    let intent : SignerRecord sha3 :=
      ⟨record.paymentId, record.originalDigest, block, hconsistent, hkey, none⟩
    have hvalue := @intent_value _ intent _ rfl hpayment horiginal
    dsimp only at htext
    rw [← hvalue] at htext
    have hdecoded : intent.decoded = record.decoded := by
      have hread := @decode_text sha _ intent
      rw [SignerRecord.text, htext, decode_text] at hread
      exact (Option.some.inj hread).symm
    have hblock : block = record.block := block_of_decoded hdecoded
    rw [← hblock] at hasset hrecipient hamount
    refine ⟨intent, rfl, ?_,
      ⟨order, c, hfields, hreserved, hpayment, horiginal, hfield (by decide) hasset,
        hfield (by decide) hrecipient, hfield (by decide) hamount⟩, hdecode⟩
    dsimp only
    rw [← hvalue]
    rfl
  · rintro ⟨record, hunsigned, rfl,
      ⟨order, c, hfields, hstatus, hpayment, horiginal, hasset, hrecipient, hamount⟩, hdecode⟩
    obtain ⟨get, hget, hvalue⟩ := fields_written (Order.given ROW) c
    have hfield {k : String} (hk : k ∈ ROW) {w : Value} (h : c k = w) : get k = w :=
      (hvalue k hk).trans h
    have hbound : Binds (written (.given ROW) c) record .RESERVED :=
      ⟨_, get, hget, hfield (by decide) hstatus, hfield (by decide) hpayment,
        hfield (by decide) horiginal, hfield (by decide) hasset, hfield (by decide) hrecipient,
        hfield (by decide) hamount⟩
    have htext := intent_value hunsigned hpayment horiginal
    refine ⟨(order, c), hfields, record.block, ⟨hdecode, record.consistent⟩, (),
      ⟨strictEq_str.mpr hstatus, record.keyed⟩, record.decoded,
      ⟨record, .RESERVED, ?_, rfl, hbound, fun h => by cases h.2⟩, ?_⟩
    · rw [SignerRecord.text, htext]
    · rw [SignerRecord.text, htext]

/-- What an intent is completed to is its record with a signature of its block. -/
theorem complete_iff {raw signed reservation : Value} {text : String} :
    completeOriginalFundingSignerRecord sha sha3 raw signed reservation = some text ↔
      ∃ (record : SignerRecord sha3) (signature : {s : String // isSignature s = true})
        (status : ReservationStatus),
        record.signature = none ∧ raw = .str record.text ∧ Binds reservation record status
          ∧ status ≠ .SPENT
          ∧ SignedAs record.block signature.1 signed ∧ text = (record.sign signature).text := by
  simp only [completeOriginalFundingSignerRecord, Option.bind_eq_bind, Option.bind_eq_some_iff,
    inspect_iff, guard_some, Option.pure_def, Option.some.injEq]
  have hvalue (record : SignerRecord sha3) (signature : {s : String // isSignature s = true}) :
      (record.sign signature).value
        = .obj [("signerCustodyVersion", .num 1), ("paymentId", .str record.decoded.paymentId),
          ("originalDigest", .str record.decoded.originalDigest), ("phase", .str "SIGNED"),
        ("unsignedBlockJson", .str record.decoded.unsignedBlockJson),
        ("signedBlockJson", .str (canonicalJson (signedBlock record.block signature.1)))] := rfl
  constructor
  · rintro ⟨_, ⟨record, status, rfl, rfl, hbound, -⟩, _, ⟨hintent, hspent⟩, block, hblock,
      signedJson, hsigned, rfl⟩
    have hunsigned := phase_eq.mp hintent
    obtain ⟨hjson, hconsistent, -⟩ := parseBlock_iff.mp hblock
    obtain rfl : record.block = block := blockText_inj (Value.str.inj hjson)
    obtain ⟨signature, hsignature, rfl⟩ := (signedText_iff hconsistent).mp hsigned
    refine ⟨record, ⟨signature, hsignature.1⟩, status, hunsigned, rfl, hbound, ?_, hsignature, ?_⟩
    · rintro rfl
      rw [get_status hbound] at hspent
      exact absurd hspent (by decide)
    · rw [SignerRecord.text, hvalue]
  · rintro ⟨record, signature, status, hunsigned, rfl, hbound, hopen, hsignature, rfl⟩
    refine ⟨record.decoded, ⟨record, status, rfl, rfl, hbound, fun h => hopen h.2⟩, (),
      ⟨phase_eq.mpr hunsigned, ?_⟩, record.block,
      parseBlock_iff.mpr ⟨rfl, record.consistent, record.keyed⟩, _,
      (signedText_iff record.consistent).mpr ⟨signature.1, hsignature, rfl⟩, ?_⟩
    · rw [get_status hbound]
      cases status
      · decide
      · decide
      · exact absurd rfl hopen
    · rw [SignerRecord.text, hvalue]

/-! ### Chains -/

/-- The text of the last record there is, with `null` where there is none. -/
def latest (steps : List (Value × Value)) : Value := (steps.head?.map Prod.fst).getD .null

/-- Texts that were accepted one after the other, each with the reservation it was accepted under,
the last one first. -/
inductive Chain (sha : Sha256) (sha3 : Sha3) : List (Value × Value) → Prop
  | start : Chain sha sha3 []
  | step {steps : List (Value × Value)} {proposed reservation : Value} {r : DecodedRecord}
      (chain : Chain sha sha3 steps)
      (accepted : requireOriginalFundingSignerRecordTransition sha sha3 (latest steps) proposed
        reservation = some r) :
      Chain sha sha3 ((proposed, reservation) :: steps)

/-- Nothing, an intent, or an intent and its record with a signature. -/
inductive Shape (sha3 : Sha3) : List (Value × Value) → Prop
  | nothing : Shape sha3 []
  | intent {record : SignerRecord sha3} {reservation : Value} (unsigned : record.signature = none)
      (bound : Binds reservation record .RESERVED) : Shape sha3 [(.str record.text, reservation)]
  | signed {record : SignerRecord sha3} {signature : {s : String // isSignature s = true}}
      {reservation reservation' : Value} {status : ReservationStatus}
      (unsigned : record.signature = none) (bound : Binds reservation record .RESERVED)
      (bound' : Binds reservation' record status) (unspent : status ≠ .SPENT) :
      Shape sha3 [(.str (record.sign signature).text, reservation'),
        (.str record.text, reservation)]

theorem signature_of_text {record record' : SignerRecord sha3} (h : record.text = record'.text)
    (hnone : record.signature = none) :
    record'.signature = none := by
  have hread := @decode_text Sha256.standard _ record
  rw [h, decode_text, Option.some.injEq] at hread
  have hphase : record'.phase = record.phase := congrArg DecodedRecord.phase hread
  rw [← phase_eq, hphase, phase_eq, hnone]

/-- An intent is the record of its text. -/
theorem intent_inj {record record' : SignerRecord sha3} (h : record.text = record'.text)
    (hnone : record.signature = none) :
    record = record' := by
  have hread := @decode_text Sha256.standard _ record
  rw [h, decode_text, Option.some.injEq] at hread
  have hblock := block_of_decoded hread
  have hpayment : record'.paymentId.1 = record.paymentId.1 := congrArg DecodedRecord.paymentId hread
  have horiginal : record'.originalDigest.1 = record.originalDigest.1 :=
    congrArg DecodedRecord.originalDigest hread
  have hsignature := signature_of_text h hnone
  obtain ⟨paymentId, originalDigest, block, consistent, keyed, signature⟩ := record
  obtain ⟨paymentId', originalDigest', block', consistent', keyed', signature'⟩ := record'
  obtain rfl : paymentId' = paymentId := Subtype.ext hpayment
  obtain rfl : originalDigest' = originalDigest := Subtype.ext horiginal
  obtain rfl : block' = block := hblock
  obtain rfl : signature = none := hnone
  obtain rfl : signature' = none := hsignature
  rfl

/-- **Chain.** An intent can be followed by its signed record, and that by nothing. -/
theorem chain_iff {steps : List (Value × Value)} : Chain sha sha3 steps ↔ Shape sha3 steps := by
  constructor
  · intro h
    induction h with
    | start => exact .nothing
    | @step steps proposed reservation r _ haccepted ih =>
      obtain ⟨record, hunsigned, hcase⟩ := transition_iff.mp haccepted
      cases ih with
      | nothing =>
        rcases hcase with ⟨-, rfl, -, hbound⟩ | ⟨_, _, hnull, -⟩
        · exact .intent hunsigned hbound
        · cases hnull
      | @intent first reservation₁ hfirst hbound₁ =>
        rcases hcase with ⟨hnull, -⟩ | ⟨signature, status, hprior, rfl, -, hbound, hopen⟩
        · cases hnull
        · obtain rfl : first = record := intent_inj (Value.str.inj hprior) hfirst
          exact .signed hfirst hbound₁ hbound hopen
      | @signed first signature =>
        rcases hcase with ⟨hnull, -⟩ | ⟨_, _, hprior, -⟩
        · cases hnull
        · have htext : record.text = (first.sign signature).text := (Value.str.inj hprior).symm
          cases signature_of_text htext hunsigned
  · intro h
    cases h with
    | nothing => exact .start
    | intent hunsigned hbound =>
        exact .step .start (transition_iff.mpr ⟨_, hunsigned, .inl ⟨rfl, rfl, rfl, hbound⟩⟩)
    | signed hunsigned hbound hbound' hopen =>
      have hfirst := @Chain.step sha _ _ _ _ _ .start
        (transition_iff.mpr ⟨_, hunsigned, .inl ⟨rfl, rfl, rfl, hbound⟩⟩)
      exact .step hfirst (transition_iff.mpr
        ⟨_, hunsigned, .inr ⟨_, _, rfl, rfl, rfl, hbound', hopen⟩⟩)


/-! ### The custody of a signer -/

/-- The same row later on, before it is spent: its status and its day may be others. -/
def Advances (reservation reservation' : Value) : Prop :=
  ∃ order order' c c', fields ROW reservation = some (order, c) ∧ fields ROW reservation'
    = some (order', c')
    ∧ (∀ k ∈ ROW, k ≠ "status" → k ≠ "spentDay" → c' k = c k)
    ∧ ( c' "status" = .str "RESERVED" ∨ c' "status" = .str "UNKNOWN")

theorem bound_of_advances {reservation reservation' : Value} {record : SignerRecord sha3}
    (hadvances : Advances reservation reservation') (hbound : Binds reservation record .RESERVED) :
    ∃ status, Binds reservation' record status ∧ status ≠ .SPENT := by
  obtain ⟨order, order', c, c', hfields, hfields', hsame, hstatus⟩ := hadvances
  obtain ⟨_, _, hfields'', -, hpayment, horiginal, hasset, hrecipient, hamount⟩ := hbound
  obtain ⟨-, rfl⟩ := Prod.mk.inj (Option.some.inj (hfields.symm.trans hfields''))
  have hrow {k : String} {w : Value} (hk : k ∈ ROW ∧ k ≠ "status" ∧ k ≠ "spentDay")
      (h : c k = w) : c' k = w :=
    (hsame k hk.1 hk.2.1 hk.2.2).trans h
  have hbinds (status : ReservationStatus) (h : c' "status" = .str status.text) :
      Binds reservation' record status :=
    ⟨order', c', hfields', h, hrow (by decide) hpayment, hrow (by decide) horiginal,
      hrow (by decide) hasset, hrow (by decide) hrecipient, hrow (by decide) hamount⟩
  rcases hstatus with hstatus | hstatus
  · exact ⟨.RESERVED, hbinds .RESERVED hstatus, by decide⟩
  · exact ⟨.UNKNOWN, hbinds .UNKNOWN hstatus, by decide⟩

/-- **Signer custody.** A chain is an intent and its signed record at most, of one payment, original
and block: the block has the hash that is computed of it, the signed block differs in its signature
only, and each reservation has its token, recipient and amount. What is created starts a chain;
while the reservation is not spent, each signed form of the block completes it, of any length of
fields, and what completes it continues the chain. A text is accepted exactly if it is that of a
record. -/
theorem signer_custody_exact (sha : Sha256) (sha3 : Sha3) :
    (∀ steps, Chain sha sha3 steps → steps.length ≤ 2 ∧ Shape sha3 steps)
    ∧ (∀ record : SignerRecord sha3, computeUnsignedHashFromSnapshot sha3 record.block
      = some record.block.hash.1
      ∧ ∀ signature, isSignature signature = true →
      SignedAs record.block signature (signedBlock record.block signature))
    ∧ (∀ reservation unsignedBlock text,
      createOriginalFundingSignerIntent sha sha3 reservation unsignedBlock = some text →
      ∃ r, requireOriginalFundingSignerRecordTransition sha sha3 .null (.str text) reservation
        = some r ∧ r.phase = .INTENT
        ∧ ∀ reservation', Advances reservation reservation' → ∀ block signature signed,
          accountBlockCodec.decode unsignedBlock = .ok block → SignedAs block signature signed →
          ∃ text', completeOriginalFundingSignerRecord sha sha3 (.str text) signed reservation'
            = some text')
    ∧ (∀ raw signed reservation text',
      completeOriginalFundingSignerRecord sha sha3 raw signed reservation = some text' →
      ∃ r, requireOriginalFundingSignerRecordTransition sha sha3 raw (.str text') reservation
        = some r ∧ r.phase = .SIGNED)
    ∧ ∀ raw r, decodeOriginalFundingSignerRecord sha sha3 raw = some r ↔
      ∃ record : SignerRecord sha3, raw = .str record.text ∧ r = record.decoded := by
  refine ⟨?_, ?_, ?_, ?_, fun raw r => decode_iff⟩
  · intro steps h
    have hshape := chain_iff.mp h
    refine ⟨?_, hshape⟩
    cases hshape <;> simp
  · exact fun record => ⟨record.consistent, fun signature h => signedAs_signedBlock record.block h⟩
  · intro reservation unsignedBlock text h
    obtain ⟨record, hunsigned, rfl, hbound, hdecode⟩ := create_iff.mp h
    refine ⟨record.decoded, transition_iff.mpr ⟨record, hunsigned, .inl ⟨rfl, rfl, rfl, hbound⟩⟩,
      phase_eq.mpr hunsigned, ?_⟩
    intro reservation' hadvances block signature signed hblock hsigned
    obtain rfl : record.block = block := Except.ok.inj (hdecode.symm.trans hblock)
    obtain ⟨status, hbound', hopen⟩ := bound_of_advances hadvances hbound
    exact ⟨_, complete_iff.mpr ⟨record, ⟨signature, hsigned.1⟩, status, hunsigned, rfl, hbound',
      hopen, hsigned, rfl⟩⟩
  · intro raw signed reservation text' h
    obtain ⟨record, signature, status, hunsigned, rfl, hbound, hopen, -, rfl⟩ := complete_iff.mp h
    exact ⟨_, transition_iff.mpr
      ⟨record, hunsigned, .inr ⟨signature, status, rfl, rfl, rfl, hbound, hopen⟩⟩, rfl⟩

namespace Sample

/-- A block with the hash that is computed of it, and a key. -/
def finish (sha3 : Sha3) (block : AccountBlock) (cores : Cores)
    (publicKey : {s : String // isPublicKey s = true}) : AccountBlock :=
  { block with
    hash := ⟨hex (sha3.digest (layout sha3 block cores)), isHash_hex (sha3.length_digest _)⟩
    publicKey := publicKey }

theorem consistent_finish (sha3 : Sha3) {block : AccountBlock} {cores : Cores}
    (publicKey : {s : String // isPublicKey s = true}) (h : hashCores block = some cores) :
    Consistent sha3 (finish sha3 block cores publicKey) :=
  @computeUnsignedHash_some sha3 (finish sha3 block cores publicKey) _ h

def publicKey : {s : String // isPublicKey s = true} :=
  ⟨"AAAAAAAAAAAAAAAAAAAAAAAAAAAAAAAAAAAAAAAAAAA=", by decide⟩

def intent : SignerRecord Sha3.standard where
  paymentId := ⟨"payment-1", by decide⟩
  originalDigest := ⟨"sha256:aaaaaaaaaaaaaaaaaaaaaaaaaaaaaaaaaaaaaaaaaaaaaaaaaaaaaaaaaaaaaaaa", by decide⟩
  block := finish Sha3.standard draft draftCores publicKey
  consistent := consistent_finish Sha3.standard publicKey hashCores_draft
  keyed := by decide
  signature := none

def signature : String := String.ofList (List.replicate 86 'A' ++ ['=', '='])

def cell (status : String) : String → Value
  | "paymentId" => .str "payment-1"
  | "originalDigest" => .str
      "sha256:aaaaaaaaaaaaaaaaaaaaaaaaaaaaaaaaaaaaaaaaaaaaaaaaaaaaaaaaaaaaaaaa"
  | "network" => .str "zenon:3"
  | "asset" => .str "zts1znnxxxxxxxxxxxxx9z4ulx"
  | "recipient" => .str "z1qp6kjgxzjpwhjf90akspf2srzkghr7ljjqrd87"
  | "amount" => .str "100"
  | "reservedDay" => .num 20000
  | "status" => .str status
  | _ => .null

def row (status : String) : Value := written (.given ROW) (cell status)

end Sample

theorem signer_custody_exact_sample : ∃ text text' r r',
    createOriginalFundingSignerIntent Sha256.standard Sha3.standard (Sample.row "RESERVED")
        (accountBlockCodec.encode Sample.intent.block) = some text
      ∧ requireOriginalFundingSignerRecordTransition Sha256.standard Sha3.standard .null (.str text)
        (Sample.row "RESERVED") = some r
      ∧ completeOriginalFundingSignerRecord Sha256.standard Sha3.standard (.str text)
        (signedBlock Sample.intent.block Sample.signature) (Sample.row "UNKNOWN") = some text'
      ∧ requireOriginalFundingSignerRecordTransition Sha256.standard Sha3.standard (.str text)
        (.str text') (Sample.row "UNKNOWN")
        = some r' := by
  obtain ⟨-, -, hcreated, hcompleted, -⟩ := signer_custody_exact Sha256.standard Sha3.standard
  have hsignature : isSignature Sample.signature = true := by decide
  obtain ⟨c, hrow, hcell⟩ := fields_written (Order.given ROW) (Sample.cell "RESERVED")
  obtain ⟨c', hrow', hcell'⟩ := fields_written (Order.given ROW) (Sample.cell "UNKNOWN")
  have hbound : Binds (Sample.row "RESERVED") Sample.intent .RESERVED :=
    ⟨_, c, hrow, hcell "status" (by decide), hcell "paymentId" (by decide),
      hcell "originalDigest" (by decide), hcell "asset" (by decide), hcell "recipient" (by decide),
      hcell "amount" (by decide)⟩
  have hcreate := (@create_iff Sha256.standard _ _ _ _).mpr ⟨Sample.intent, rfl, rfl, hbound,
    accountBlockCodec.decode_encode_self _⟩
  obtain ⟨r, hfirst, -, hcomplete⟩ := hcreated _ _ _ hcreate
  have hadvances : Advances (Sample.row "RESERVED") (Sample.row "UNKNOWN") := by
    refine ⟨_, _, c, c', hrow, hrow', fun k hk hstatus _ => ?_, .inr ( hcell' "status" (by decide))⟩
    rw [hcell k hk, hcell' k hk]
    simp only [ROW, List.mem_cons, List.not_mem_nil, or_false] at hk
    rcases hk with rfl | rfl | rfl | rfl | rfl | rfl | rfl | rfl | rfl <;>
      first | rfl | exact absurd rfl hstatus
  obtain ⟨text', htext'⟩ := hcomplete _ hadvances _ _ _ (accountBlockCodec.decode_encode_self _)
    (signedAs_signedBlock Sample.intent.block hsignature)
  obtain ⟨r', hsecond, -⟩ := hcompleted _ _ _ _ htext'
  exact ⟨_, _, _, _, hcreate, hfirst, htext', hsecond⟩

end Zenon
end ZenonX402
