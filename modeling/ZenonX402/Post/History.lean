/-
# Histories of custody

What may come after what. A text stands for a record and, in the second version, for the
receipt that is kept with it (`Denotes`, `holds_iff`); a transition that is allowed is one
more observation in flight, an outcome of what was in flight, or a receipt for what was
settled (`Next`, `transition_some`). Every run of texts that starts with none follows from
that: what is fixed stays, observations are counted, and what is settled stays settled
(`conforms_of_accepted`). What a function creates is accepted (`taken_entered`,
`taken_observation`, `taken_outcome`, `taken_expired`), and a text is known by what both
inspectors find in it (`text_eq_of_inspected`).

Key definitions: `Denotes`, `Next`, `Accepted`, `Conforms`.
Key theorems: `transition_some`, `conforms_of_accepted`, `custody`.
-/
import ZenonX402.Post.Texts
import ZenonX402.Resource.Runs
import Mathlib.Data.List.Chain

namespace ZenonX402
namespace Post

open Js
open Value (strictEq textSize Copied nodeCount memberSize)
open Journal (get exactKeys)

/-! ### What a text stands for -/

/-- A record, and the receipt that is kept with it. -/
structure Entry (P : Platform) where
  record : Record P
  receipt : Option Receipt

variable {P : Platform}

namespace Entry

def phase (e : Entry P) : Phase := e.record.1.phase

def observations (e : Entry P) : Nat := e.record.1.observations.1

def maximum (e : Entry P) : Nat := e.record.1.maximum

def text (e : Entry P) : String := match e.receipt with
  | none => e.record.1.text
  | some q => canonicalJson (envelopeValue e.record.1 q)

end Entry

/-- What the two inspectors find in a text. -/
def Denotes (P : Platform) (raw : String) (e : Entry P) : Prop :=
  inspectOfficialFundingPostCustodyRecord P raw = some e.record
    ∧ (expiredEnvelope P raw).map Prod.snd = e.receipt

/-- The text of an entry whose receipt is about its record. -/
structure Holds (raw : String) (e : Entry P) : Prop where
  text : raw = e.text
  size : e.text.utf8ByteSize ≤ 65536
  fits : ∀ q, e.receipt = some q → Fits P e.record.1 q

theorem parse_record {r : RecordFields} (h : r.text.utf8ByteSize ≤ 65536) :
    parseText r.text 65536 = some (recordFieldsCodec.encode r).canonical := by
  have hnodes : Value.nodeCount (recordFieldsCodec.encode r) ≤ 4096 := by
    rw [nodeCount_record]
    decide
  exact ofCanonical_canonicalJson (copied_record 0 (by decide) r) hnodes
    ((size_text r).symm.trans_le h)

theorem version_record (r : RecordFields) :
    get (recordFieldsCodec.encode r).canonical "version" = .num 1 := by
  rw [get_canonical (.inl (recordFieldsCodec.json_encode r)), encode_record]
  rfl

theorem parse_envelope {r : RecordFields} {q : Receipt} (h : textSize (envelopeValue r q) ≤ 65536) :
    parseText (canonicalJson (envelopeValue r q)) 65536 = some (envelopeValue r q).canonical :=
  ofCanonical_canonicalJson (copied_envelope r q) (nodeCount_envelope r q) h

theorem version_envelope (r : RecordFields) (q : Receipt) :
    get (envelopeValue r q).canonical "version" = .num 2 := by
  rw [get_canonical (.inl (json_envelope r q))]
  rfl

theorem official_envelope (r : RecordFields) (q : Receipt) :
    canonicalJson (get (envelopeValue r q).canonical "officialRecord") = r.text := by
  rw [get_canonical (.inl (json_envelope r q)), canonicalJson, Value.canonical_canonical]
  rfl

theorem funding_envelope (r : RecordFields) (q : Receipt) :
    canonicalJson (get (envelopeValue r q).canonical "expiredFunding")
      = receiptCodec.canonicalText q := by
  rw [get_canonical (.inl (json_envelope r q)), canonicalJson, Value.canonical_canonical]
  rfl

theorem envelope_inj {r r' : RecordFields} {q q' : Receipt}
    (h : canonicalJson (envelopeValue r q) = canonicalJson (envelopeValue r' q')) :
    r = r' ∧ q = q' := by
  have hsame : (envelopeValue r q).canonical = (envelopeValue r' q').canonical :=
    (canonicalJson_inj (json_envelope r q) (json_envelope r' q')).mp h
  have hofficial := official_envelope r q
  have hfunding := funding_envelope r q
  rw [hsame, official_envelope] at hofficial
  rw [hsame, funding_envelope] at hfunding
  exact ⟨text_inj hofficial.symm, Codec.canonicalText_inj hfunding.symm⟩

/-- A text of the first version has no receipt. -/
theorem expiredEnvelope_record {r : RecordFields} (h : r.text.utf8ByteSize ≤ 65536) :
    expiredEnvelope P r.text = none := by
  have hversion : ¬ strictEq (.num 1) (.num 2) = true := by decide
  simp [expiredEnvelope, parse_record h, version_record, guard, hversion]

theorem inspectRecord_record {r : Record P} (h : r.1.text.utf8ByteSize ≤ 65536) :
    inspectOfficialFundingPostCustodyRecord P r.1.text = some r := by
  have hversion : ¬ strictEq (.num 1) (.num 2) = true := by decide
  simp only [inspectOfficialFundingPostCustodyRecord, parse_record h, version_record,
    Option.bind_eq_bind, Option.bind_some, if_neg hversion]
  exact inspectVersionOne_iff.mpr ⟨rfl, h⟩

theorem inspectRecord_envelope {r : Record P} {q : Receipt}
    (h : textSize (envelopeValue r.1 q) ≤ 65536) (hfits : Fits P r.1 q) :
    inspectOfficialFundingPostCustodyRecord P (canonicalJson (envelopeValue r.1 q)) = some r := by
  have hversion : strictEq (.num 2) (.num 2) = true := by decide
  have henvelope := expiredEnvelope_iff.mpr ⟨rfl, h, hfits⟩
  simp only [inspectOfficialFundingPostCustodyRecord, parse_envelope h, version_envelope,
    Option.bind_eq_bind, Option.bind_some, if_pos hversion, henvelope, Option.map_some]

/-- An accepted text is the one text of what it stands for. -/
theorem holds_iff {raw : String} {e : Entry P} : Denotes P raw e ↔ Holds raw e := by
  obtain ⟨r, receipt⟩ := e
  constructor
  · rintro ⟨hrecord, hreceipt⟩
    simp only at hrecord hreceipt
    have hinspect := hrecord
    simp only [inspectOfficialFundingPostCustodyRecord, Option.bind_eq_bind,
      Option.bind_eq_some_iff] at hrecord
    obtain ⟨v, -, hrecord⟩ := hrecord
    split_ifs at hrecord
    · obtain ⟨⟨r', q⟩, henvelope, rfl⟩ := Option.map_eq_some_iff.mp hrecord
      obtain ⟨htext, hsize, hfits⟩ := expiredEnvelope_iff.mp henvelope
      rw [henvelope] at hreceipt
      subst hreceipt
      refine ⟨htext, (size_canonicalJson _).trans_le hsize, fun q' hq' => ?_⟩
      obtain rfl := Option.some.inj hq'
      exact hfits
    · obtain ⟨rfl, hsize⟩ := inspectVersionOne_iff.mp hrecord
      rw [expiredEnvelope_record hsize] at hreceipt
      subst hreceipt
      exact ⟨rfl, hsize, by rintro _ ⟨⟩⟩
  · rintro ⟨rfl, hsize, hfits⟩
    cases receipt with
    | none => exact ⟨inspectRecord_record
        hsize, by rw [show (Entry.mk r none).text = r.1.text from rfl,
          expiredEnvelope_record hsize]; rfl⟩
    | some q =>
      have hlength := (size_canonicalJson (envelopeValue r.1 q)).symm.trans_le hsize
      have henvelope := expiredEnvelope_iff.mpr ⟨rfl, hlength, hfits q rfl⟩
      refine ⟨inspectRecord_envelope hlength (hfits q rfl), ?_⟩
      rw [show (Entry.mk r (some q)).text = canonicalJson (envelopeValue r.1 q) from rfl, henvelope]
      rfl

theorem inspectRecord_some {raw : String} {r : Record P}
    (h : inspectOfficialFundingPostCustodyRecord P raw = some r) :
    ∃ receipt, Holds raw ⟨r, receipt⟩ := ⟨_, holds_iff.mp ⟨h, rfl⟩⟩

theorem denotes_unique {raw : String} {e e' : Entry P} (h : Denotes P raw e)
    (h' : Denotes P raw e') : e = e' := by
  obtain ⟨r, q⟩ := e
  obtain ⟨r', q'⟩ := e'
  obtain rfl := Option.some.inj (h.1.symm.trans h'.1)
  obtain rfl := h.2.symm.trans h'.2
  rfl

/-- The second inspector, for pins of the record. -/
theorem inspectExpiredReceipt_of_holds {raw : String} {e : Entry P} {selected : Value} {pins : Pins}
    (h : Holds raw e) (hpins : selectedPins P selected e.record = some pins) :
    inspectOfficialFundingPostExpiredReceipt P raw selected = match e.receipt with
      | none => some none
      | some q => if pins.admits q then some (some q) else none := by
  obtain ⟨hinspect, hreceipt⟩ := holds_iff.mpr h
  obtain ⟨r, receipt⟩ := e
  obtain ⟨rfl, hsize, hfits⟩ := h
  cases receipt with
  | none =>
    have hone : strictEq (.num 1) (.num 1) = true := by decide
    have hparse : parseText (Entry.mk r none).text 65536
        = some (recordFieldsCodec.encode r.1).canonical := parse_record hsize
    simp only [inspectOfficialFundingPostExpiredReceipt, hinspect, hpins, hparse, version_record,
      Option.bind_eq_bind, Option.bind_some, if_pos hone]
  | some q =>
    have htwo : ¬ strictEq (.num 2) (.num 1) = true := by decide
    have hlength := (size_canonicalJson (envelopeValue r.1 q)).symm.trans_le hsize
    have hparse : parseText (Entry.mk r (some q)).text 65536
        = some (envelopeValue r.1 q).canonical := parse_envelope hlength
    have henvelope : expiredEnvelope P (Entry.mk r (some q)).text = some (r, q) :=
      expiredEnvelope_iff.mpr ⟨rfl, hlength, hfits q rfl⟩
    simp only [inspectOfficialFundingPostExpiredReceipt, hinspect, hpins, hparse, version_envelope,
      henvelope, Option.bind_eq_bind, Option.bind_some, if_neg htwo]
    split_ifs with hadmits
    · rw [capture_iff.mpr ⟨receiptCodec.decode_encode_self q, hadmits⟩]
      rfl
    · cases hcapture : captureIssuedExpiredFundingResult (receiptCodec.encode q) pins with
      | none => rfl
      | some q' =>
        obtain ⟨hdecode, hadmits'⟩ := capture_iff.mp hcapture
        rw [receiptCodec.decode_encode_self] at hdecode
        obtain rfl := Except.ok.inj hdecode
        exact absurd hadmits' hadmits

/-! ### Transitions -/

/-- What may follow an entry. -/
inductive Next : Entry P → Entry P → Prop
  | observe {r r' : Record P} (hphase : r.1.phase = .PENDING)
      (hlt : r.1.observations.1 < r.1.maximum) (heq : r'.1 = r.1.observed hlt) :
      Next ⟨r, none⟩ ⟨r', none⟩
  | answer {r r' : Record P} {out : String} (h : Answered r.1 r'.1 out) : Next ⟨r, none⟩ ⟨r', none⟩
  | extend {r : Record P} (hphase : r.1.phase = .SETTLED) (q : Receipt) : Next ⟨r, none⟩ ⟨r, some q⟩

theorem isText_unique {raw : String} {r r' : Record P} (h : IsText raw r) (h' : IsText raw r') :
    r = r' :=
  Subtype.ext (text_inj (h.1.symm.trans h'.1))

/-- Where something may follow in the first version, it is not after a receipt. -/
theorem receipt_none {raw raw' : String} {e : Entry P} {next : Record P} (h : Holds raw e)
    (hlegal : legal P raw e.record next = some raw') : e.receipt = none := by
  cases hreceipt : e.receipt with
  | none => rfl
  | some q =>
    have hsettled := (h.fits q hreceipt).settled
    rw [legal, hsettled] at hlegal
    cases hlegal

theorem legal_some {raw raw' : String} {r r' next : Record P}
    (hinspect : inspectOfficialFundingPostCustodyRecord P raw = some r) (hnext : IsText raw' r')
    (hlegal : legal P raw r next = some raw') : Next ⟨r, none⟩ ⟨r', none⟩ := by
  unfold legal at hlegal
  cases hphase : r.1.phase with
  | PENDING =>
    rw [hphase] at hlegal
    obtain ⟨r₁, r₂, hr₁, -, htext, hlt, heq⟩ := createObservation_some hlegal
    obtain rfl := Option.some.inj (hinspect.symm.trans hr₁)
    obtain rfl := isText_unique hnext htext
    exact .observe hphase hlt heq
  | FIRST_IN_FLIGHT | OBSERVATION_IN_FLIGHT =>
    rw [hphase] at hlegal
    simp only [Option.bind_eq_bind, Option.bind_eq_some_iff] at hlegal
    obtain ⟨json, -, outcome, -, hcreate⟩ := hlegal
    obtain ⟨r₁, r₂, out, hr₁, htext, hanswered, -⟩ := createOutcome_some hcreate
    obtain rfl := Option.some.inj (hinspect.symm.trans hr₁)
    obtain rfl := isText_unique hnext htext
    exact .answer hanswered
  | SETTLED | EXHAUSTED =>
    rw [hphase] at hlegal
    cases hlegal

theorem requireTransition_eq {expected : Option String} {raw : String} {e : Entry P}
    (h : Holds raw e) :
    requireOfficialFundingPostCustodyTransition P expected raw = match e.receipt with
      | some _ => requireOfficialFundingPostRetainedExtension P expected raw
      | none => match expected with
        | none => if e.phase = .FIRST_IN_FLIGHT then some e.record else none
        | some expected => do
          let before ← inspectOfficialFundingPostCustodyRecord P expected
          guard (before.1.immutable = e.record.1.immutable)
          guard (legal P expected before e.record = some raw)
          return e.record := by
  obtain ⟨hinspect, -⟩ := holds_iff.mpr h
  obtain ⟨r, receipt⟩ := e
  obtain ⟨rfl, hsize, hfits⟩ := h
  cases receipt with
  | none =>
    have htwo : ¬ strictEq (.num 1) (.num 2) = true := by decide
    have hparse : parseText (Entry.mk r none).text 65536
        = some (recordFieldsCodec.encode r.1).canonical := parse_record hsize
    simp only [requireOfficialFundingPostCustodyTransition, hinspect, hparse, version_record,
      Option.bind_eq_bind, Option.bind_some, if_neg htwo]
    rfl
  | some q =>
    have htwo : strictEq (.num 2) (.num 2) = true := by decide
    have hlength := (size_canonicalJson (envelopeValue r.1 q)).symm.trans_le hsize
    have hparse : parseText (Entry.mk r (some q)).text 65536
        = some (envelopeValue r.1 q).canonical := parse_envelope hlength
    simp only [requireOfficialFundingPostCustodyTransition, hinspect, hparse, version_envelope,
      Option.bind_eq_bind, Option.bind_some, if_pos htwo]

/-- A receipt may follow exactly the text of its record. -/
theorem extension_iff {expected : Option String} {raw : String} {r next : Record P} {q : Receipt}
    (h : Holds raw (⟨r, some q⟩ : Entry P)) :
    requireOfficialFundingPostRetainedExtension P expected raw = some next ↔
    expected = some r.1.text ∧ next = r := by
  obtain ⟨rfl, hsize, hfits⟩ := h
  have hfits := hfits q rfl
  have hlength := (size_canonicalJson (envelopeValue r.1 q)).symm.trans_le hsize
  have hparse : parseText (Entry.mk r (some q)).text 65536 = some (envelopeValue r.1 q).canonical :=
    parse_envelope hlength
  have henvelope : expiredEnvelope P (Entry.mk r (some q)).text = some (r, q) :=
    expiredEnvelope_iff.mpr ⟨rfl, hlength, hfits⟩
  simp only [requireOfficialFundingPostRetainedExtension, henvelope, hparse, official_envelope,
    Option.bind_eq_bind, Option.bind_eq_some_iff, Option.bind_some, guard_some, Option.pure_def,
    Option.some.injEq]
  constructor
  · rintro ⟨expected, rfl, before, hbefore, -, ⟨-, htext⟩, rfl⟩
    exact ⟨congrArg some htext.symm, rfl⟩
  · rintro ⟨rfl, hnext⟩
    have hshort : r.1.text.utf8ByteSize ≤ 65536 := by
      have hle := textSize_envelope r.1 q
      rw [size_text]
      omega
    exact ⟨_, rfl, r, inspectVersionOne_iff.mpr ⟨rfl, hshort⟩, (), ⟨hfits.settled, rfl⟩, hnext.symm⟩

/-- What a transition that is allowed does. -/
theorem transition_some {expected : Option String} {raw : String}
    (h : (requireOfficialFundingPostCustodyTransition P expected raw).isSome = true) :
    ∃ e : Entry P, Holds raw e ∧ match expected with
      | none => e.receipt = none ∧ e.phase = .FIRST_IN_FLIGHT
      | some s => ∃ before : Entry P, Holds s before ∧ Next before e := by
  obtain ⟨next, h⟩ := Option.isSome_iff_exists.mp h
  have hinspect : ∃ r, inspectOfficialFundingPostCustodyRecord P raw = some r := by
    simp only [requireOfficialFundingPostCustodyTransition, Option.bind_eq_bind,
      Option.bind_eq_some_iff] at h
    obtain ⟨r, hr, -⟩ := h
    exact ⟨r, hr⟩
  obtain ⟨r, hr⟩ := hinspect
  obtain ⟨receipt, hholds⟩ := inspectRecord_some hr
  refine ⟨⟨r, receipt⟩, hholds, ?_⟩
  rw [requireTransition_eq hholds] at h
  cases receipt with
  | some q =>
    obtain ⟨rfl, rfl⟩ := (extension_iff hholds).mp h
    have hlength := (size_canonicalJson (envelopeValue next.1 q)).symm.trans_le hholds.size
    have hle := textSize_envelope next.1 q
    have hshort : next.1.text.utf8ByteSize ≤ 65536 := by
      rw [size_text]
      omega
    exact ⟨⟨next, none⟩, ⟨rfl, hshort, by rintro _ ⟨⟩⟩, .extend (hholds.fits q rfl).settled q⟩
  | none =>
    cases expected with
    | none =>
      simp only at h
      split_ifs at h with hphase
      exact ⟨rfl, hphase⟩
    | some s =>
      simp only [Option.bind_eq_bind, Option.bind_eq_some_iff, guard_some, Option.pure_def,
        Option.some.injEq] at h
      obtain ⟨before, hbefore, -, -, -, hlegal, -⟩ := h
      obtain ⟨earlier, hearlier⟩ := inspectRecord_some hbefore
      obtain rfl : earlier = none := receipt_none hearlier hlegal
      exact ⟨⟨before, none⟩, hearlier, legal_some hbefore ⟨hholds.text, hholds.size⟩ hlegal⟩

/-! ### What is created is accepted -/

/-- A text that may follow another, that has a record for the one inspector and no receipt for the
other, whatever pins of the record it is given. -/
structure Taken (P : Platform) (expected : Option String) (raw : String) : Prop where
  transition : (requireOfficialFundingPostCustodyTransition P expected raw).isSome = true
  inspected : ∃ r, inspectOfficialFundingPostCustodyRecord P raw = some r
    ∧ ∀ selected, (selectedPins P selected r).isSome = true →
    inspectOfficialFundingPostExpiredReceipt P raw selected = some none

theorem taken_of_text {expected : Option String} {raw : String} {r : Record P} (h : IsText raw r)
    (htransition : (requireOfficialFundingPostCustodyTransition P expected raw).isSome = true) :
    Taken P expected raw := by
  have hholds : Holds raw (⟨r, none⟩ : Entry P) := ⟨h.1, h.2, by rintro _ ⟨⟩⟩
  refine ⟨htransition, r, (holds_iff.mpr hholds).1, fun selected hselected => ?_⟩
  obtain ⟨pins, hpins⟩ := Option.isSome_iff_exists.mp hselected
  exact inspectExpiredReceipt_of_holds hholds hpins

theorem taken_entered {selected originalHeader intakeBound : Value} {raw : String}
    (h : createOfficialFundingPostEnteredRecord P selected originalHeader intakeBound = some raw) :
    Taken P none raw := by
  obtain ⟨r, htext, hphase⟩ := createEntered_some h
  refine taken_of_text htext ?_
  have hholds : Holds raw (⟨r, none⟩ : Entry P) := ⟨htext.1, htext.2, by rintro _ ⟨⟩⟩
  have hfirst : (⟨r, none⟩ : Entry P).phase = .FIRST_IN_FLIGHT := hphase
  rw [requireTransition_eq hholds]
  simp only [if_pos hfirst, Option.isSome_some]

/-- The text that `legal` gives may follow. -/
theorem transition_of_legal {raw raw' : String} {r r' : Record P}
    (hinspect : inspectOfficialFundingPostCustodyRecord P raw = some r) (htext : IsText raw' r')
    (himmutable : r.1.immutable = r'.1.immutable) (hlegal : legal P raw r r' = some raw') :
    (requireOfficialFundingPostCustodyTransition P (some raw) raw').isSome = true := by
  have hholds : Holds raw' (⟨r', none⟩ : Entry P) := ⟨htext.1, htext.2, by rintro _ ⟨⟩⟩
  have htransition : requireOfficialFundingPostCustodyTransition P (some raw) raw' = some r' := by
    rw [requireTransition_eq hholds]
    simp only [hinspect, Option.bind_eq_bind, Option.bind_some, Option.bind_eq_some_iff, guard_some,
      Option.pure_def]
    exact ⟨(), himmutable, (), hlegal, trivial⟩
  rw [htransition]
  rfl

theorem taken_observation {raw raw' : String}
    (h : createOfficialFundingPostObservationRecord P raw = some raw') :
    Taken P (some raw) raw' := by
  obtain ⟨r, r', hinspect, hphase, htext, hlt, heq⟩ := createObservation_some h
  refine taken_of_text htext (transition_of_legal hinspect htext ?_ ?_)
  · rw [heq]
    rfl
  · rw [legal, hphase]
    exact h

theorem taken_outcome {raw raw' : String} {outcome : Value}
    (h : createOfficialFundingPostOutcomeRecord P raw outcome = some raw') :
    Taken P (some raw) raw' := by
  obtain ⟨r, r', out, hinspect, htext, hanswered, again, hagain, hcreate⟩ := createOutcome_some h
  refine taken_of_text htext (transition_of_legal hinspect htext ?_ ?_)
  · rw [hanswered.eq]
    rfl
  · have hout : r'.1.outcomeJson = some out := by rw [hanswered.eq]
    rcases hanswered.flight with hphase | hphase
    · simp only [legal, hphase, hout, hagain, Option.bind_eq_bind, Option.bind_some, hcreate]
    · simp only [legal, hphase, hout, hagain, Option.bind_eq_bind, Option.bind_some, hcreate]

/-- What is created with a receipt may follow, and has the receipt for the pins it was created with.
-/
theorem taken_expired {raw raw' : String} {receipt selected : Value}
    (h : createOfficialFundingPostExpiredRecord P raw receipt selected = some raw') :
    (requireOfficialFundingPostCustodyTransition P (some raw) raw').isSome = true
      ∧ (inspectOfficialFundingPostCustodyRecord P raw').isSome = true
      ∧ ∃ q, receiptCodec.decode receipt = .ok q
      ∧ inspectOfficialFundingPostExpiredReceipt P raw' selected = some (some q) := by
  simp only [createOfficialFundingPostExpiredRecord, Option.bind_eq_bind, Option.bind_eq_some_iff,
    guard_some, Option.pure_def, Option.some.injEq] at h
  obtain ⟨r, hr, -, -, pins, hpins, q, hcapture, -, hsize, e, henvelope, rfl⟩ := h
  obtain ⟨hdecode, hadmits⟩ := capture_iff.mp hcapture
  obtain ⟨r', q'⟩ := e
  obtain ⟨htext, hlength, hfits⟩ := expiredEnvelope_iff.mp henvelope
  obtain ⟨hrecord, rfl⟩ := envelope_inj htext
  obtain rfl : r = r' := Subtype.ext hrecord
  have hholds : Holds (canonicalJson (envelopeValue r.1 q)) (⟨r, some q⟩ : Entry P) := by
    refine ⟨rfl, (size_canonicalJson _).trans_le hlength, fun q' hq' => ?_⟩
    obtain rfl := Option.some.inj hq'
    exact hfits
  have hinspect := inspectExpiredReceipt_of_holds hholds hpins
  have hextension : requireOfficialFundingPostRetainedExtension P (some raw)
      (canonicalJson (envelopeValue r.1 q)) = some r :=
    (extension_iff hholds).mpr ⟨congrArg some (inspectVersionOne_iff.mp hr).1, rfl⟩
  refine ⟨?_, ?_, q, hdecode, ?_⟩
  · rw [requireTransition_eq hholds]
    exact (congrArg Option.isSome hextension).trans rfl
  · rw [(holds_iff.mpr hholds).1]
    rfl
  · rw [hinspect]
    exact if_pos hadmits

/-! ### Runs -/

/-- Every text may follow the one before it. -/
def Accepted (P : Platform) : Option String → List String → Prop
  | _, [] => True
  | expected, t :: ts => (requireOfficialFundingPostCustodyTransition P expected t).isSome = true
      ∧ Accepted P (some t) ts

/-- The texts that are accepted after a text stand for entries that may follow its entry. -/
theorem accepted_chain : ∀ {ts : List String} {s : String} {e : Entry P},
    Accepted P (some s) ts → Holds s e →
    ∃ es : List (Entry P), List.Forall₂ (Denotes P) ts es ∧ (e :: es).IsChain Next
  | [], _, e, _, _ => ⟨[], .nil, .singleton e⟩
  | t :: ts, s, e, h, hs => by
    obtain ⟨e', ht, before, hbefore, hnext⟩ := transition_some h.1
    obtain rfl := denotes_unique (holds_iff.mpr hs) (holds_iff.mpr hbefore)
    obtain ⟨es, hes, hchain⟩ := accepted_chain h.2 ht
    exact ⟨e' :: es, .cons (holds_iff.mpr ht) hes, .cons_cons hnext hchain⟩

theorem accepted_entries {ts : List String} (h : Accepted P none ts) :
    ∃ es : List (Entry P), List.Forall₂ (Denotes P) ts es ∧ es.IsChain Next
      ∧ ∀ e ∈ es.head?, e.receipt = none ∧ e.phase = .FIRST_IN_FLIGHT := by
  cases ts with
  | nil => exact ⟨[], .nil, .nil, by rintro _ ⟨⟩⟩
  | cons t ts =>
    obtain ⟨e, ht, hfirst⟩ := transition_some h.1
    obtain ⟨es, hes, hchain⟩ := accepted_chain h.2 ht
    refine ⟨e :: es, .cons (holds_iff.mpr ht) hes, hchain, fun e' he' => ?_⟩
    obtain rfl := Option.some.inj he'
    exact hfirst

/-- The phases that may follow a phase. -/
inductive Phase.Follows : Phase → Phase → Prop
  | pending : Follows .FIRST_IN_FLIGHT .PENDING
  | settled : Follows .FIRST_IN_FLIGHT .SETTLED
  | observed : Follows .PENDING .OBSERVATION_IN_FLIGHT
  | pendingAgain : Follows .OBSERVATION_IN_FLIGHT .PENDING
  | settledLater : Follows .OBSERVATION_IN_FLIGHT .SETTLED
  | exhausted : Follows .OBSERVATION_IN_FLIGHT .EXHAUSTED

theorem Phase.Follows.outcome {p q : Phase} (h : p.Follows q)
    (hp : p = .FIRST_IN_FLIGHT ∨ p = .OBSERVATION_IN_FLIGHT) :
    ¬ (q = .FIRST_IN_FLIGHT ∨ q = .OBSERVATION_IN_FLIGHT) := by
  cases h with
  | observed => simp at hp
  | _ => simp

theorem Phase.Follows.observation {p q : Phase} (h : p.Follows q)
    (hp : ¬ (p = .FIRST_IN_FLIGHT ∨ p = .OBSERVATION_IN_FLIGHT)) :
    q = .OBSERVATION_IN_FLIGHT := by
  cases h with
  | observed => rfl
  | _ => simp at hp

/-- An observation is in flight. -/
def Entry.observing (e : Entry P) : Bool := decide (e.phase = .OBSERVATION_IN_FLIGHT)

/-- An attempt, the first or an observation, is in flight. -/
def Entry.inFlight (e : Entry P) : Prop :=
  e.phase = .FIRST_IN_FLIGHT ∨ e.phase = .OBSERVATION_IN_FLIGHT

theorem Next.immutable {e e' : Entry P} (h : Next e e') :
    e'.record.1.immutable = e.record.1.immutable := by
  cases h with
  | observe _ _ heq => rw [heq]; rfl
  | answer h => rw [h.eq]; rfl
  | extend _ _ => rfl

theorem Next.phases {e e' : Entry P} (h : Next e e') :
    (e'.receipt = none ∧ e.phase.Follows e'.phase)
      ∨ (e'.receipt.isSome = true ∧ e.phase = .SETTLED ∧ e'.record = e.record) := by
  cases h with
  | @observe r r' hphase _ heq =>
    have hnext : r'.1.phase = .OBSERVATION_IN_FLIGHT := by rw [heq]; rfl
    refine .inl ⟨rfl, ?_⟩
    rw [show (Entry.mk r none).phase = .PENDING from hphase, show (Entry.mk r' none).phase
      = .OBSERVATION_IN_FLIGHT from hnext]
    exact .observed
  | @answer r r' out h =>
    refine .inl ⟨rfl, ?_⟩
    change r.1.phase.Follows r'.1.phase
    rcases h.flight with hflight | hflight
    · rcases h.phase with hp | hp | hp
      · rw [hflight, hp]; exact .pending
      · rw [hflight, hp]; exact .settled
      · exact absurd ⟨hflight, hp⟩ h.first
    · rcases h.phase with hp | hp | hp
      · rw [hflight, hp]; exact .pendingAgain
      · rw [hflight, hp]; exact .settledLater
      · rw [hflight, hp]; exact .exhausted
  | extend hphase _ => exact .inr ⟨rfl, hphase, rfl⟩

/-- An entry that something follows has no receipt, is not exhausted, and if it is pending has an
observation left. -/
theorem Next.followed {e e' : Entry P} (h : Next e e') :
    e.receipt = none ∧ e.phase ≠ .EXHAUSTED
      ∧ (e.phase = .PENDING → e.observations < e.maximum) := by
  cases h with
  | @observe r r' hphase hlt _ =>
    refine ⟨rfl, fun hp => ?_, fun _ => hlt⟩
    rw [show (Entry.mk r none).phase = .PENDING from hphase] at hp
    cases hp
  | @answer r r' out h =>
    have hp : (Entry.mk r none).phase = .FIRST_IN_FLIGHT ∨ (Entry.mk r none).phase
        = .OBSERVATION_IN_FLIGHT := h.flight
    refine ⟨rfl, fun he => ?_, fun he => ?_⟩
    · rw [he] at hp
      rcases hp with hp | hp <;> cases hp
    · rw [he] at hp
      rcases hp with hp | hp <;> cases hp
  | @extend r hphase _ =>
    have hp : (Entry.mk r none).phase = .SETTLED := hphase
    refine ⟨rfl, fun he => ?_, fun he => ?_⟩
    · rw [he] at hp
      cases hp
    · rw [he] at hp
      cases hp

theorem Next.observations {e e' : Entry P} (h : Next e e') :
    e'.observations = e.observations + [e'].countP Entry.observing := by
  have hobserving (x : Entry P) : [x].countP Entry.observing = if x.phase = .OBSERVATION_IN_FLIGHT
      then 1 else 0 := by
    by_cases hx : x.phase = .OBSERVATION_IN_FLIGHT
    · simp [Entry.observing, hx]
    · simp [Entry.observing, hx]
  rw [hobserving]
  cases h with
  | @observe r r' _ _ heq =>
    have hp : (Entry.mk r' none).phase = .OBSERVATION_IN_FLIGHT := by
      change r'.1.phase = _
      rw [heq]
      rfl
    rw [if_pos hp]
    change r'.1.observations.1 = _
    rw [heq]
    rfl
  | @answer r r' out h =>
    have hp : (Entry.mk r' none).phase ≠ .OBSERVATION_IN_FLIGHT := by
      change r'.1.phase ≠ _
      rcases h.phase with hp | hp | hp <;> rw [hp] <;> decide
    rw [if_neg hp]
    change r'.1.observations.1 = _
    rw [h.eq]
    rfl
  | @extend r hphase q =>
    have hp : (Entry.mk r (some q)).phase ≠ .OBSERVATION_IN_FLIGHT := by
      change r.1.phase ≠ _
      rw [hphase]
      decide
    rw [if_neg hp]
    rfl

/-- What is settled stays settled, with its outcome. -/
theorem Next.settled {e e' : Entry P} (h : Next e e') (he : e.phase = .SETTLED) :
    e'.phase = .SETTLED ∧ e'.record.1.outcomeJson = e.record.1.outcomeJson := by
  rcases h.phases with ⟨-, hfollows⟩ | ⟨-, -, hrecord⟩
  · rw [he] at hfollows
    cases hfollows
  · refine ⟨?_, by rw [hrecord]⟩
    rw [← he]
    exact congrArg (fun r : Record P => r.1.phase) hrecord

theorem Entry.observations_le (e : Entry P) : e.observations ≤ e.maximum := by
  obtain ⟨b, -, hselected, -⟩ := checked_iff.mp e.record.2
  exact (selected_iff.mp hselected).2.1

theorem Entry.observations_first {e : Entry P} (h : e.phase = .FIRST_IN_FLIGHT) :
    e.observations = 0 := by
  obtain ⟨b, -, -, hphased⟩ := checked_iff.mp e.record.2
  exact ((phased_first h).mp hphased).1

/-- The observations of an entry are those that were in flight up to it. -/
theorem observations_eq {pre : List (Entry P)} :
    ∀ {e : Entry P} {post : List (Entry P)}, (pre ++ e :: post).IsChain Next →
    (∀ x ∈ (pre ++ e :: post).head?, x.phase = .FIRST_IN_FLIGHT) → e.observations
      = (pre ++ [e]).countP Entry.observing := by
  induction pre using List.reverseRecOn with
  | nil =>
    intro e post _ hfirst
    have hphase := hfirst e rfl
    rw [Entry.observations_first hphase, List.nil_append]
    simp [Entry.observing, hphase]
  | append_singleton pre x ih =>
    intro e post hchain hfirst
    rw [List.append_assoc, List.singleton_append] at hchain hfirst
    have hx := ih hchain hfirst
    have hnext := (List.isChain_append_cons_cons.mp hchain).2.1
    rw [hnext.observations, hx, List.countP_append, List.countP_append, List.countP_append]

/-- What holds of a history, in the entries that its texts stand for. -/
structure Conforms (P : Platform) (ts : List String) (es : List (Entry P)) : Prop where
  denotes : List.Forall₂ (Denotes P) ts es
  first : ∀ e ∈ es.head?, e.receipt = none ∧ e.phase = .FIRST_IN_FLIGHT
  /-- The context, the header, the transaction and what it is bound to are the same in all. -/
  immutable : es.Pairwise fun e e' => e'.record.1.immutable = e.record.1.immutable
  /-- A phase is followed by one that may follow it, or what is settled by its extension. -/
  phases : es.IsChain fun e e' => (e'.receipt = none ∧ e.phase.Follows e'.phase)
    ∨ (e'.receipt.isSome = true ∧ e.phase = .SETTLED ∧ e'.record = e.record)
  /-- Observations are counted, and there are at most as many as the context allows. -/
  observations : ∀ pre e post, es = pre ++ e :: post →
    e.observations = (pre ++ [e]).countP Entry.observing ∧ e.observations ≤ e.maximum
  /-- What was in flight has an outcome next; the entry after the outcome is no second one. -/
  outcomes : ∀ pre e o e' post, es = pre ++ e :: o :: e' :: post → e.inFlight →
    ¬ o.inFlight ∧ (e'.inFlight ∨ e'.receipt.isSome = true)
  settled : es.Pairwise fun e e' => e.phase = .SETTLED → e'.phase = .SETTLED
    ∧ e'.record.1.outcomeJson = e.record.1.outcomeJson
  /-- A text that follows a settled one keeps exactly its bytes, and nothing follows it. -/
  extension : ∀ pre s t post, ts = pre ++ s :: t :: post → ∀ e, Denotes P s e → e.phase = .SETTLED →
    post = [] ∧ ∃ v, parseText t 65536 = some v ∧ (get v "version") = .num 2
      ∧ canonicalJson (get v "officialRecord") = s
  /-- Nothing follows an extension, what is exhausted, or what is pending with no observation left.
  -/
  terminal : ∀ pre e e' post, es = pre ++ e :: e' :: post →
    e.receipt = none ∧ e.phase ≠ .EXHAUSTED ∧ ¬ (e.phase = .PENDING ∧ e.maximum ≤ e.observations)

/-- The entries of two texts that follow each other do so too. -/
theorem forall₂_split {α β : Type} {R : α → β → Prop} {s t : α} {post : List α} :
    ∀ {pre : List α} {es : List β}, List.Forall₂ R (pre ++ s :: t :: post) es →
      ∃ pre' e e' post', es = pre' ++ e :: e' :: post' ∧ R s e ∧ R t e' ∧ List.Forall₂ R post post'
  | [], _, .cons hs (.cons ht hpost) => ⟨[], _, _, _, rfl, hs, ht, hpost⟩
  | _ :: _, _, .cons (b := b) _ hrest => by
    obtain ⟨pre', e, e', post', rfl, hs, ht, hpost⟩ := forall₂_split hrest
    exact ⟨b :: pre', e, e', post', rfl, hs, ht, hpost⟩

/-- What follows what is settled is its extension, and is the last. -/
theorem extension_of_chain {s t : String} {ts : List String} {e e' : Entry P} {es : List (Entry P)}
    (hs : Denotes P s e) (ht : Denotes P t e') (hes : List.Forall₂ (Denotes P) ts es)
    (hchain : (e :: e' :: es).IsChain Next) (he : e.phase = .SETTLED) :
    ts = [] ∧ ∃ v, parseText t 65536 = some v ∧ (get v "version") = .num 2
      ∧ canonicalJson (get v "officialRecord") = s := by
  obtain ⟨hnext, hrest⟩ := List.isChain_cons_cons.mp hchain
  obtain ⟨rfl, -, -⟩ := holds_iff.mp hs
  obtain ⟨rfl, hsize, -⟩ := holds_iff.mp ht
  cases hnext with
  | @observe r r' hphase _ _ =>
    rw [show (Entry.mk r none).phase = .PENDING from hphase] at he
    cases he
  | @answer r r' out h =>
    have hp : (Entry.mk r none).phase = .FIRST_IN_FLIGHT ∨ (Entry.mk r none).phase
        = .OBSERVATION_IN_FLIGHT := h.flight
    rw [he] at hp
    rcases hp with hp | hp <;> cases hp
  | @extend r hphase q =>
    have hlength := (size_canonicalJson (envelopeValue r.1 q)).symm.trans_le hsize
    refine ⟨?_, _, parse_envelope hlength, version_envelope r.1 q, official_envelope r.1 q⟩
    cases hes with
    | nil => rfl
    | cons _ _ =>
      have hnone := (List.isChain_cons_cons.mp hrest).1.followed.1
      cases hnone

theorem conforms_of_accepted {ts : List String} (h : Accepted P none ts) :
    ∃ es : List (Entry P), Conforms P ts es := by
  obtain ⟨es, hes, hchain, hfirst⟩ := accepted_entries h
  have hnext : ∀ ⦃e e' : Entry P⦄ ⦃pre post⦄, es = pre ++ e :: e' :: post → Next e e' :=
    List.isChain_iff_forall_rel_of_append_cons_cons.mp hchain
  refine ⟨es, hes, hfirst, ?_, hchain.imp fun _ _ h => h.phases, ?_, ?_, ?_, ?_, ?_⟩
  · have : IsTrans (Entry P) fun e e' => e'.record.1.immutable = e.record.1.immutable :=
      ⟨fun _ _ _ h h' => h'.trans h⟩
    exact List.isChain_iff_pairwise.mp (hchain.imp fun _ _ h => h.immutable)
  · rintro pre e post rfl
    exact ⟨observations_eq hchain fun x hx => (hfirst x hx).2, e.observations_le⟩
  · rintro pre e o e' post heq hflight
    have ho := (hnext heq).phases
    have he' := (@hnext o e' (pre ++ [e]) post
      (by rw [heq, List.append_assoc, List.singleton_append])).phases
    have hout : ¬ o.inFlight := by
      rcases ho with ⟨-, hfollows⟩ | ⟨-, hsettled, -⟩
      · exact hfollows.outcome hflight
      · rcases hflight with he | he <;> rw [he] at hsettled <;> cases hsettled
    refine ⟨hout, ?_⟩
    rcases he' with ⟨-, hfollows⟩ | ⟨hreceipt, -, -⟩
    · exact .inl (.inr (hfollows.observation hout))
    · exact .inr hreceipt
  · have : IsTrans (Entry P) fun e e' => e.phase = .SETTLED →
        e'.phase = .SETTLED ∧ e'.record.1.outcomeJson = e.record.1.outcomeJson :=
      ⟨fun _ _ _ h h' he => ⟨(h' (h he).1).1, (h' (h he).1).2.trans (h he).2⟩⟩
    exact List.isChain_iff_pairwise.mp (hchain.imp fun _ _ h => h.settled)
  · rintro pre s t post rfl e he hsettled
    obtain ⟨pre', e₁, e', post', rfl, hs, ht, hpost⟩ := forall₂_split hes
    obtain rfl := denotes_unique he hs
    exact extension_of_chain hs ht hpost (List.isChain_split.mp hchain).2 hsettled
  · rintro pre e e' post heq
    obtain ⟨hreceipt, hexhausted, hpending⟩ := (hnext heq).followed
    exact ⟨hreceipt, hexhausted, fun hp => absurd (hpending hp.1) (by omega)⟩

/-- Two texts in which both inspectors find the same are one text. -/
theorem text_eq_of_inspected {s t : String} {r : Record P} {selected : Value}
    {receipt : Option Receipt} (hs : inspectOfficialFundingPostCustodyRecord P s = some r)
    (ht : inspectOfficialFundingPostCustodyRecord P t = some r)
    (hs' : inspectOfficialFundingPostExpiredReceipt P s selected = some receipt)
    (ht' : inspectOfficialFundingPostExpiredReceipt P t selected = some receipt) : s = t := by
  have hfound {raw : String} (hr : inspectOfficialFundingPostCustodyRecord P raw = some r)
      (hq : inspectOfficialFundingPostExpiredReceipt P raw selected = some receipt) :
      Holds raw (⟨r, receipt⟩ : Entry P) := by
    obtain ⟨found, hholds⟩ := inspectRecord_some hr
    have hpins : ∃ pins, selectedPins P selected r = some pins := by
      simp only [inspectOfficialFundingPostExpiredReceipt, hr, Option.bind_eq_bind,
        Option.bind_some, Option.bind_eq_some_iff] at hq
      obtain ⟨pins, hpins, -⟩ := hq
      exact ⟨pins, hpins⟩
    obtain ⟨pins, hpins⟩ := hpins
    rw [inspectExpiredReceipt_of_holds hholds hpins] at hq
    cases found with
    | none =>
      obtain rfl := Option.some.inj hq
      exact hholds
    | some q =>
      simp only at hq
      split_ifs at hq
      obtain rfl := Option.some.inj hq
      exact hholds
  exact (hfound hs hs').text.trans (hfound ht ht').text.symm

/-- **The custody of an official funding POST.** Every run of texts that starts with none conforms;
every text that a function creates is accepted by the transition and by both inspectors; and no two
accepted texts are of one record. -/
theorem custody (P : Platform) :
    (∀ ts, Accepted P none ts → ∃ es : List (Entry P), Conforms P ts es)
      ∧ (∀ selected originalHeader intakeBound raw,
        createOfficialFundingPostEnteredRecord P selected originalHeader intakeBound = some raw →
        Taken P none raw)
      ∧ (∀ s raw, createOfficialFundingPostObservationRecord P s = some raw → Taken P (some s) raw)
      ∧ (∀ s outcome raw, createOfficialFundingPostOutcomeRecord P s outcome = some raw →
        Taken P (some s) raw)
      ∧ (∀ s receipt selected raw, createOfficialFundingPostExpiredRecord P s receipt selected
        = some raw →
        (requireOfficialFundingPostCustodyTransition P (some s) raw).isSome = true
          ∧ (inspectOfficialFundingPostCustodyRecord P raw).isSome = true
          ∧ ∃ q, receiptCodec.decode receipt = .ok q
          ∧ inspectOfficialFundingPostExpiredReceipt P raw selected = some (some q))
      ∧ ∀ s t r selected receipt, inspectOfficialFundingPostCustodyRecord P s = some r →
        inspectOfficialFundingPostCustodyRecord P t = some r →
        inspectOfficialFundingPostExpiredReceipt P s selected = some receipt →
        inspectOfficialFundingPostExpiredReceipt P t selected = some receipt → s = t :=
  ⟨fun _ h => conforms_of_accepted h, fun _ _ _ _ h => taken_entered h,
    fun _ _ h => taken_observation h, fun _ _ _ h => taken_outcome h,
    fun _ _ _ _ h => taken_expired h,
    fun _ _ _ _ _ hs ht hs' ht' => text_eq_of_inspected hs ht hs' ht'⟩

/-! ### A history -/

namespace Sample

open Resource (encodeB64Json encodeB64Text_some decodeB64Json decodeB64Json_of_object isObject)
open Resource.Visit (requirement)

def url : String := "https://example.com/funding"

def platform : Platform where
  node := ⟨.standard, fun _ => some ⟨"https:", "example.com", "", ""⟩⟩
  url _ := some ⟨"https:", url, "https://example.com", "example.com", "", "", "", "", ""⟩

def zeros (n : Nat) : String := String.ofList (List.replicate n '0')

def hash : Hash := ⟨zeros 64, by decide⟩

def commitment : Commitment := ⟨"sha256:" ++ zeros 64, by decide⟩

/-! The headers. -/

/-- An object as a header. -/
def encoded (v : Value) : String := base64Text (utf8Bytes (stringify v))

theorem size_encoded {v : Value} {n : Nat} (h : textSize v ≤ n) :
    (encoded v).utf8ByteSize ≤ (n + 2) / 3 * 4 ∧ textSize (.str (encoded v))
      ≤ (n + 2) / 3 * 4 + 2 := by
  have hsize := (size_base64Text (utf8Bytes_lt (stringify v))).1
  have hplain : ∀ c ∈ (encoded v).toList, Text.isPlain c = true := by
    have hletters : ∀ n : Fin 64, Text.isPlain (Base64.letter n) = true := by decide
    intro c hc
    rw [encoded, base64Text, String.toList_ofList] at hc
    rcases Base64.mem_text (utf8Bytes_lt (stringify v)) c hc with rfl | ⟨n, hn, rfl⟩
    · decide
    · exact hletters ⟨n, hn⟩
  rw [length_utf8Bytes, Value.size_stringify] at hsize
  have hle : (encoded v).utf8ByteSize ≤ (n + 2) / 3 * 4 := by
    rw [encoded, hsize]
    omega
  exact ⟨hle, by rw [Value.textSize_plain hplain]; omega⟩

theorem decoded {v : Value} (hv : v.Json) (hobject : isObject v = true)
    (hsize : textSize v ≤ 4000) :
    decodeB64Json (encoded v) 4096 5464 = some v := by
  refine decodeB64Json_of_object hv hobject (by omega) (encodeB64Text_some.mpr ⟨?_, rfl⟩)
  rw [Value.size_stringify]
  omega

/-! The challenge. -/

def resource : Value :=
  .obj [("tags", .arr [.str "x402-service-credit-funding-v1", .str (zeros 32), .str (zeros 32)]),
    ("url", .str url)]

def required : Value :=
  .obj [("accepts", .arr [requirement.canonical]), ("resource", resource), ("x402Version", .num 2)]

theorem required_canonical : required.canonical = required := by
  rfl

theorem plain_required : required.Plain := Value.plain_of_isPlain _ (by decide)

theorem short_required : textSize required ≤ 4000 :=
  Value.textSize_le_tally plain_required (by decide)

/-- The challenge under a header. -/
def challenge (header : String) : Issued :=
  ⟨header, resource, requirement.canonical, (zeros 32, zeros 32)⟩

section

variable (header : String)

theorem encode_frame :
    (challenge header).frame = .obj [("status", .num 402), ("paymentRequiredHeader", .str header),
      ("body", .str "Payment Required")] := rfl

theorem json_frame : (challenge header).frame.Json := by
  refine .obj (show ["status", "paymentRequiredHeader", "body"].Nodup by decide) ?_
  simp only [List.forall_mem_cons]
  exact ⟨.num (by decide), .str _, .str _, List.forall_mem_nil _⟩

theorem copied_frame : Copied LIMITS 0 (challenge header).frame := by
  have hone : 0 + 1 ≤ LIMITS.depth := by decide
  refine Value.copied_fields ["status", "paymentRequiredHeader", "body"] (Nat.zero_le _) rfl
    (by decide) ?_
  simp only [List.forall_mem_cons]
  exact ⟨.num hone (by decide), .str hone _, .str hone _, List.forall_mem_nil _⟩

theorem nodeCount_frame : nodeCount (challenge header).frame = 4 := by
  refine Value.nodeCount_leaves ?_
  simp only [List.forall_mem_cons]
  exact ⟨rfl, rfl, rfl, List.forall_mem_nil _⟩

theorem short_frame {header : String} (h : textSize (.str header) ≤ 5400) :
    textSize (challenge header).frame ≤ 5500 := by
  have hsize := Value.textSize_obj_le [("status", Value.num 402),
    ("paymentRequiredHeader", .str header), ("body", .str "Payment Required")]
  have hkeys : textSize (.str "status") = 8 ∧ textSize (.str "paymentRequiredHeader") = 23
      ∧ textSize (.str "body") = 6
      ∧ textSize (.num 402) = 3 ∧ textSize (.str "Payment Required") = 18 := by decide
  simp only [List.map_cons, List.map_nil, List.sum_cons, List.sum_nil, memberSize] at hsize
  rw [encode_frame]
  omega

theorem selection_frame {header : String} (hdecode : decodeB64Json header 4096 5464 = some required)
    (hcanonical : base64Text (utf8Bytes (canonicalJson required)) = header) :
    selection platform (challenge header).frame.canonical url = some (challenge header) := by
  have hread := get_canonical (.inl (json_frame header))
  have hroute : captureFundingPostCheckpointRoute platform url = true := by decide +kernel
  have hkeys : exactKeys (challenge header).frame.canonical ["status", "paymentRequiredHeader",
      "body"] = true := by
    rw [exactKeys_canonical]
    exact decide_eq_true (List.Perm.refl ["status", "paymentRequiredHeader", "body"])
  have hheader : get (challenge header).frame.canonical "paymentRequiredHeader" = .str header := by
    rw [hread]
    rfl
  have hframe : (get (challenge header).frame.canonical "status").strictEq (.num 402) = true
      ∧ (get (challenge header).frame.canonical "body").strictEq (.str "Payment Required")
      = true := by
    rw [hread, hread]
    exact ⟨rfl, rfl⟩
  have hvalid : Resource.validatePaymentRequired platform.node required = true := by decide
  have hactive : Resource.validateActiveUpfrontRequirement requirement.canonical = true := by decide
  have hresource : exactKeys resource ["url", "tags"] = true := by decide
  have htags : tags (get resource "tags") = some (zeros 32, zeros 32) := by decide
  have hcharge : (Value.charge SDK_LIMITS 0 ⟨4096, 131072⟩ required).isSome = true := by
    decide +kernel
  exact selection_of_checks hroute hkeys hframe hheader hdecode hvalid rfl rfl rfl hactive hresource
    (by decide) htags
    hcanonical hcharge

end

/-! The context. -/

def service : ServiceSelection :=
  ⟨⟨"offer-1", by decide⟩, ⟨1, by decide⟩, ⟨"holder-1", by decide⟩, commitment⟩

theorem encode_service :
    serviceCodec.encode service
      = .obj [("offerId", .str "offer-1"), ("offerVersion", .num 1), ("holderId", .str "holder-1"),
        ("capabilityCommitment", .str commitment.1)] := rfl

theorem copied_service : Copied LIMITS 0 (serviceCodec.encode service) := by
  have hone : 0 + 1 ≤ LIMITS.depth := by decide
  rw [encode_service]
  refine Value.copied_fields ["offerId", "offerVersion", "holderId", "capabilityCommitment"]
    (Nat.zero_le _) rfl (by decide) ?_
  simp only [List.forall_mem_cons]
  exact ⟨.str hone _, .num hone (by decide), .str hone _, .str hone _, List.forall_mem_nil _⟩

theorem nodeCount_service : nodeCount (serviceCodec.encode service) = 5 := by
  rw [encode_service]
  refine Value.nodeCount_leaves ?_
  simp only [List.forall_mem_cons]
  exact ⟨rfl, rfl, rfl, rfl, List.forall_mem_nil _⟩

theorem short_service : textSize (serviceCodec.encode service) ≤ 2000 :=
  Value.textSize_le_tally (serviceCodec.json_encode service).plain (by decide)

def contextOf (header : String) : Context :=
  ⟨url, canonicalJson (challenge header).frame, serviceCodec.canonicalText service, ⟨1, by decide⟩⟩

theorem context_of {header : String} (hsize : textSize (.str header) ≤ 5400)
    (hdecode : decodeB64Json header 4096 5464 = some required)
    (hcanonical : base64Text (utf8Bytes (canonicalJson required)) = header) :
    (contextOf header).issued platform = some (challenge header) ∧ (contextOf header).service
      = some service
      ∧ captureOfficialFundingPostCustodyContext platform (contextOf header)
      = some (contextOf header) := by
  have hframe : textSize (challenge header).frame ≤ 8192 := (short_frame hsize).trans (by decide)
  have hissued : (contextOf header).issued platform = some (challenge header) :=
    issued_of (ofCanonical_canonicalJson (copied_frame header)
      ((nodeCount_frame header).trans_le (by decide)) hframe)
      (selection_frame hdecode hcanonical)
  have hlength : textSize (serviceCodec.encode service) ≤ 4096 := short_service.trans (by decide)
  have hservice : (contextOf header).service = some service := by
    refine service_of (ofCanonical_canonicalJson copied_service
      (nodeCount_service.trans_le (by decide)) hlength) ?_
    rw [captureIssuedFundingPostServiceSelection, serviceCodec.decode_canonical]
    rfl
  refine ⟨hissued, hservice, ?_⟩
  simp only [captureOfficialFundingPostCustodyContext, hissued, hservice, Option.bind_eq_bind,
    Option.bind_some, Option.pure_def]
  rfl

/-! The payment. -/

def payload : Value :=
  .obj [("x402Version", .num 2), ("resource", resource), ("accepted", requirement),
    ("payload", .obj [("transaction", .obj [("hash", .str hash.1), ("address", .str "holder-1")]),
      ("intentDigest", .str hash.1)])]

theorem plain_payload : payload.Plain := Value.plain_of_isPlain _ (by decide)

theorem short_payload : textSize payload ≤ 4000 := by decide +kernel

def observer : Bound := ⟨⟨hash, commitment, "funding-observer-" ++ hash.1 ++ ".sqlite"⟩, by decide⟩

/-- Headers of the challenge and of the payment. -/
structure Headers (header sent : String) : Prop where
  short : textSize (.str header) ≤ 5400
  decoded : decodeB64Json header 4096 5464 = some required
  canonical : base64Text (utf8Bytes (canonicalJson required)) = header
  nonempty : sent ≠ ""
  sentSize : sent.utf8ByteSize ≤ 5464
  sentShort : textSize (.str sent) ≤ 5400
  sentDecoded : decodeB64Json sent 4096 5464 = some payload

theorem headers : Headers (encoded required) (encoded payload) := by
  have hheader := size_encoded short_required
  have hsent := size_encoded short_payload
  have hcanonical : base64Text (utf8Bytes (canonicalJson required)) = encoded required := by
    rw [canonicalJson, required_canonical, encoded]
  have hdecoded : decodeB64Json (encoded payload) 4096 5464 = some payload :=
    decoded plain_payload.json rfl short_payload
  refine ⟨by omega, decoded plain_required.json rfl short_required, hcanonical, ?_, by omega, by omega, hdecoded⟩
  intro hempty
  rw [hempty] at hdecoded
  exact absurd hdecoded (by simp [decodeB64Json, guard])

variable {header sent : String}

/-- The first record. -/
def entered (header sent : String) : RecordFields :=
  ⟨contextOf header, sent, hash, boundCodec.canonicalText observer, evaluated 0,
    .FIRST_IN_FLIGHT, none⟩

/-- A record of the challenge and the payment. -/
structure Keeps (header sent : String) (r : RecordFields) : Prop where
  context : r.context = contextOf header
  header : r.originalHeader = sent
  hash : r.transactionHash = Sample.hash
  bound : r.boundJson = boundCodec.canonicalText observer

/-- Such records with a short outcome are short. -/
theorem short_record (h : Headers header sent) {r : RecordFields} (hr : Keeps header sent r)
    (hout : ∀ json, r.outcomeJson = some json → textSize (.str json) ≤ 10000) :
    r.text.utf8ByteSize ≤ 60000 := by
  have hurl : textSize (.str url) ≤ 40 := by decide
  have hframe : textSize (.str (canonicalJson (challenge header).frame)) ≤ 11002 := by
    have hnested := Value.textSize_nested (challenge header).frame.canonical
    have hshort := short_frame h.short
    rw [Value.size_stringify, Value.textSize_canonical] at hnested
    exact hnested.trans (by omega)
  have hservice : textSize (.str (serviceCodec.canonicalText service)) ≤ 4002 := by
    have hnested := Value.textSize_nested (serviceCodec.encode service).canonical
    have hshort := short_service
    rw [Value.size_stringify, Value.textSize_canonical] at hnested
    exact hnested.trans (by omega)
  have hbounded : textSize (.str (boundCodec.canonicalText observer)) ≤ 2050 := by
    have hnested := Value.textSize_nested (boundCodec.encode observer).canonical
    have hshort := textSize_bound observer
    rw [Value.size_stringify, Value.textSize_canonical] at hnested
    exact hnested.trans (by omega)
  have htransaction : textSize (.str hash.1) ≤ 70 := by decide
  have hcount (n : {n : Nat // n ≤ 16}) : textSize (.num n.1) ≤ 17 :=
    Value.textSize_num_le (by have := n.2; omega)
  have hmaximum := hcount r.context.maximumPendingReconciliations
  have hobservations := hcount r.observations
  have hphase : textSize (phaseCodec.encode r.phase) ≤ 30 := by cases r.phase <;> decide
  have houtcome : textSize (Codec.encodeNullable (Codec.string ()) r.outcomeJson) ≤ 10000 := by
    cases hjson : r.outcomeJson with
    | none => decide
    | some json => exact hout json hjson
  have hkeys : (["version", "resourceUrl", "issuedFrameJson", "serviceSelectionJson",
      "originalHeader", "transactionHash", "boundJson", "maximumPendingReconciliations",
      "observations", "phase", "outcomeJson"].map
        fun k => textSize (.str k) + 2).sum ≤ 300 := by decide
  have hone : textSize (.num 1) = 1 := by decide
  have hsize := Value.textSize_obj_le [("version", .num 1),
    ("resourceUrl", .str r.context.resourceUrl),
    ("issuedFrameJson", .str r.context.issuedFrameJson),
    ("serviceSelectionJson", .str r.context.serviceSelectionJson),
    ("originalHeader", .str r.originalHeader),
    ("transactionHash", .str r.transactionHash.1), ("boundJson", .str r.boundJson),
    ("maximumPendingReconciliations", .num r.context.maximumPendingReconciliations.1),
    ("observations", .num r.observations.1),
    ("phase", phaseCodec.encode r.phase),
    ("outcomeJson", Codec.encodeNullable (Codec.string ()) r.outcomeJson)]
  have hsent := h.sentShort
  have hfields : textSize (.str r.context.resourceUrl) ≤ 40
      ∧ textSize (.str r.context.issuedFrameJson) ≤ 11002
      ∧ textSize (.str r.context.serviceSelectionJson) ≤ 4002
      ∧ textSize (.str r.originalHeader) ≤ 5400
      ∧ textSize (.str r.transactionHash.1) ≤ 70 ∧ textSize (.str r.boundJson) ≤ 2050 := by
    rw [hr.context, hr.header, hr.hash, hr.bound]
    exact ⟨hurl, hframe, hservice, hsent, htransaction, hbounded⟩
  rw [size_text, encode_record]
  simp only [List.map_cons, List.map_nil, List.sum_cons, List.sum_nil, memberSize] at hsize hkeys
  omega

/-! The outcomes. -/

/-- An outcome of the bound transaction. -/
def outcome (phase : String) (official : Value) : Value :=
  .obj [("phase", .str phase), ("intake", (boundCodec.encode observer).canonical),
    ("official", official), ("transactionHash", .str hash.1),
    ("acknowledgementDomainsIndependent", .bool true),
  ("authority", .str "NONE"), ("grantActivation", .str "NOT_ESTABLISHED"),
  ("serviceDelivery", .str "NOT_ESTABLISHED")]

/-- An outcome that passes, and is short. -/
structure Passes (phase : String) (official : Value) : Prop where
  copied : snapshot (outcome phase official) = true
  outcome : (captureBoundOutcome (captured (outcome phase official) observer)).isSome = true
  size : textSize (Sample.outcome phase official) ≤ 2000

/-- Its text. -/
def outText (phase : String) (official : Value) : String :=
  canonicalJson (captured (outcome phase official) observer)

theorem exactKeys_outcome (phase : String) (official : Value) :
    exactKeys (outcome phase official) OUTCOME = true :=
  decide_eq_true (List.Perm.refl OUTCOME)

variable {phase : String} {official : Value}

theorem output_outcome (h : Headers header sent) (hp : Passes phase official) :
    output platform (outcome phase official) (contextOf header) observer
      = some (outText phase official) := by
  obtain ⟨hissued, hservice, -⟩ := context_of h.short h.decoded h.canonical
  have hsize := hp.size
  refine output_iff.mpr ⟨⟨hp.copied, exactKeys_outcome phase official, bound_canonical observer, ?_,
    ?_, ?_, hp.outcome, ?_⟩, rfl⟩
  · exact Value.strictEq_str.mpr rfl
  · rw [hissued]
    rfl
  · rw [hservice]
    rfl
  · rw [size_canonicalJson,
      (captured_same (exactKeys_outcome phase official) (bound_canonical observer)).textSize]
    omega

/-- The text of an outcome is short where it is kept. -/
theorem short_outcome (hp : Passes phase official) :
    textSize (.str (outText phase official)) ≤ 10000 := by
  have hnested := Value.textSize_nested (captured (outcome phase official) observer).canonical
  have hsize := hp.size
  rw [Value.size_stringify, Value.textSize_canonical,
    (captured_same (exactKeys_outcome phase official)
      (bound_canonical observer)).textSize] at hnested
  exact hnested.trans (by omega)

theorem phaseOf_outcome (h : Headers header sent) (hp : Passes phase official) :
    phaseOf (outText phase official) = if phase = "INTAKE_BOUND_OFFICIAL_PENDING" then some .PENDING
      else if phase = "INTAKE_BOUND_OFFICIAL_SETTLED" then some .SETTLED
      else if phase = "INTAKE_BOUND_OFFICIAL_EXHAUSTED" then some .EXHAUSTED else none := by
  have hphase : get (outcome phase official).canonical "phase" = .str phase := by
    rw [get_canonical (readable_of_snapshot hp.copied)]
    rfl
  simp only [phaseOf, parse_output (output_outcome h hp), hphase, Option.bind_eq_bind,
    Option.bind_some, Value.strictEq_str, Value.str.injEq]

/-! The texts. -/

theorem entered_created (h : Headers header sent) :
    createOfficialFundingPostEnteredRecord platform (contextCodec.encode (contextOf header))
    (.str sent) (boundCodec.encode observer).canonical
      = some (entered header sent).text := by
  obtain ⟨hissued, hservice, hcapture⟩ := context_of h.short h.decoded h.canonical
  have hcontext : Post.context platform (contextCodec.encode (contextOf header))
      = some (contextOf header) :=
    context_iff.mpr ⟨contextCodec.decode_encode_self _, hcapture⟩
  have hchecks : (Resource.validatePaymentPayloadEnvelope platform.node payload
      && Resource.sameResource platform.node (get payload "resource") resource
      && Resource.sameRequirements (get payload "accepted") requirement.canonical
      && (get (get (get payload "payload") "transaction") "hash").strictEq
      (.str observer.1.transactionHash.1)
      && (get (get (get payload "payload") "transaction") "address").strictEq
      (.str service.holderId.1)) = true := by
    decide
  have horiginal : original platform sent (contextOf header) observer = true :=
    original_of_checks h.nonempty h.sentSize h.sentDecoded hissued hservice hchecks
  have hshort : (entered header sent).text.utf8ByteSize ≤ 60000 :=
    short_record h ⟨rfl, rfl, rfl, rfl⟩ (by rintro _ ⟨⟩)
  have hencode : encode (entered header sent) = some (entered header sent).text :=
    encode_some.mpr ⟨by omega, rfl⟩
  simp only [createOfficialFundingPostEnteredRecord, hcontext, bound_canonical, Option.bind_eq_bind,
    Option.bind_some, Option.bind_eq_some_iff, guard_some]
  exact ⟨(), horiginal, hencode⟩

/-- An outcome of the payment is created after its text is in flight. -/
theorem answered_created (h : Headers header sent) (hp : Passes phase official)
    {r : Record platform} {next : Phase}
    (hinspect : inspectOfficialFundingPostCustodyRecord platform r.1.text = some r)
    (hr : Keeps header sent r.1) (hphase : phaseOf (outText phase official) = some next)
    (hanswered : Answered r.1
      { r.1 with phase := next, outcomeJson := some (outText phase official) }
      (outText phase official)) :
    createOfficialFundingPostOutcomeRecord platform r.1.text (outcome phase official)
      = some (RecordFields.text
        { r.1 with phase := next, outcomeJson := some (outText phase official) }) := by
  have hout := output_outcome h hp
  rw [← hr.context] at hout
  have hshort : (RecordFields.text
      { r.1 with phase := next, outcomeJson := some (outText phase official) }).utf8ByteSize
        ≤ 60000 := by
    refine short_record h ⟨hr.context, hr.header, hr.hash, hr.bound⟩ fun json hjson => ?_
    obtain rfl := Option.some.inj hjson
    exact short_outcome hp
  exact createOutcome_of hinspect (bound_text hr.bound) hout hphase hanswered (by omega)

theorem pending_passes :
    Passes "INTAKE_BOUND_OFFICIAL_PENDING"
    (.obj [("type", .str "payment-error"), ("response", .obj [])]) :=
  ⟨by decide +kernel, by decide +kernel, by decide +kernel⟩

theorem settled_passes :
    Passes "INTAKE_BOUND_OFFICIAL_SETTLED"
    (.obj [("type", .str "settled"), ("settlement", .obj [("success", .bool true)])]) :=
  ⟨by decide +kernel, by decide +kernel, by decide +kernel⟩

theorem record_of_text {fields : RecordFields} {r : Record platform} (h : IsText fields.text r) :
    r.1 = fields ∧ inspectOfficialFundingPostCustodyRecord platform r.1.text = some r :=
  ⟨(text_inj h.1).symm, inspectRecord_record h.2⟩

theorem observed_created (h : Headers header sent) {r : Record platform}
    (hinspect : inspectOfficialFundingPostCustodyRecord platform r.1.text = some r)
    (hr : Keeps header sent r.1) (hphase : r.1.phase = .PENDING)
    (hlt : r.1.observations.1 < r.1.maximum)
    (hout : ∀ json, r.1.outcomeJson = some json → textSize (.str json) ≤ 10000) :
    createOfficialFundingPostObservationRecord platform r.1.text
      = some (r.1.observed hlt).text := by
  have hshort : (r.1.observed hlt).text.utf8ByteSize ≤ 60000 :=
    short_record h ⟨hr.context, hr.header, hr.hash, hr.bound⟩ hout
  simp only [createOfficialFundingPostObservationRecord, hinspect, Option.bind_eq_bind,
    Option.bind_some, dif_pos (And.intro hphase hlt)]
  exact encode_some.mpr ⟨by omega, rfl⟩

theorem taken_first (h : Headers header sent) : ∃ r : Record platform, r.1 = entered header sent
    ∧ inspectOfficialFundingPostCustodyRecord platform r.1.text = some r
    ∧ Taken platform none r.1.text := by
  have hentered := entered_created h
  obtain ⟨r, htext, -⟩ := createEntered_some hentered
  obtain ⟨hr, hinspect⟩ := record_of_text htext
  exact ⟨r, hr, hinspect, (congrArg (Taken platform _) htext.1).mp (taken_entered hentered)⟩

/-- A record that has an observation left. -/
structure Waits (header sent : String) (r : Record platform) : Prop where
  keeps : Keeps header sent r.1
  phase : r.1.phase = .PENDING
  left : r.1.observations.1 < r.1.maximum
  short : ∀ json, r.1.outcomeJson = some json → textSize (.str json) ≤ 10000

theorem taken_pending (h : Headers header sent) {r : Record platform}
    (hinspect : inspectOfficialFundingPostCustodyRecord platform r.1.text = some r)
    (hr : r.1 = entered header sent) : ∃ r' : Record platform, Waits header sent r'
      ∧ inspectOfficialFundingPostCustodyRecord platform r'.1.text = some r'
      ∧ Taken platform (some r.1.text) r'.1.text := by
  have hkeeps : Keeps header sent r.1 := hr ▸ ⟨rfl, rfl, rfl, rfl⟩
  have hfirst : r.1.phase = .FIRST_IN_FLIGHT := by rw [hr]; rfl
  have hnone : r.1.observations.1 = 0 := by rw [hr]; rfl
  have hone : r.1.maximum = 1 := by rw [hr]; rfl
  have hpending := answered_created h pending_passes hinspect hkeeps
    (phaseOf_outcome h pending_passes)
    ⟨.inl hfirst, by simp, by simp, by simp [hnone], .inl rfl, rfl⟩
  obtain ⟨-, r', -, -, htext, -⟩ := createOutcome_some hpending
  obtain ⟨hr', hinspect'⟩ := record_of_text htext
  refine ⟨r', ⟨?_, by rw [hr'], ?_, fun json hjson => ?_⟩, hinspect',
    (congrArg (Taken platform _) htext.1).mp (taken_outcome hpending)⟩
  · rw [hr']
    exact ⟨hkeeps.context, hkeeps.header, hkeeps.hash, hkeeps.bound⟩
  · rw [hr']
    change r.1.observations.1 < r.1.maximum
    omega
  · rw [hr'] at hjson
    obtain rfl := Option.some.inj hjson
    exact short_outcome pending_passes

theorem taken_observed (h : Headers header sent) {r : Record platform}
    (hinspect : inspectOfficialFundingPostCustodyRecord platform r.1.text = some r)
    (hr : Waits header sent r) : ∃ r' : Record platform, Keeps header sent r'.1 ∧ r'.1.phase
      = .OBSERVATION_IN_FLIGHT
      ∧ inspectOfficialFundingPostCustodyRecord platform r'.1.text = some r'
      ∧ Taken platform (some r.1.text) r'.1.text := by
  have hobserved := observed_created h hinspect hr.keeps hr.phase hr.left hr.short
  obtain ⟨-, r', -, -, htext, -⟩ := createObservation_some hobserved
  obtain ⟨hr', hinspect'⟩ := record_of_text htext
  refine ⟨r', ?_, by rw [hr']; rfl, hinspect', (congrArg
    (Taken platform _) htext.1).mp (taken_observation hobserved)⟩
  rw [hr']
  exact ⟨hr.keeps.context, hr.keeps.header, hr.keeps.hash, hr.keeps.bound⟩

theorem taken_settled (h : Headers header sent) {r : Record platform}
    (hinspect : inspectOfficialFundingPostCustodyRecord platform r.1.text = some r)
    (hr : Keeps header sent r.1) (hphase : r.1.phase = .OBSERVATION_IN_FLIGHT) :
    ∃ raw, Taken platform (some r.1.text) raw :=
  ⟨_, taken_outcome (answered_created h settled_passes hinspect hr
    (phaseOf_outcome h settled_passes)
    ⟨.inr hphase, by simp, by simp, by simp, .inr (.inl rfl), rfl⟩)⟩

/-- A payment that is pending first, and is settled when it is observed once. -/
theorem history (h : Headers header sent) : ∃ ts, ts.length = 4 ∧ Accepted platform none ts := by
  obtain ⟨r, hr, hinspect, hfirst⟩ := taken_first h
  obtain ⟨r₁, hwaits, hinspect₁, hpending⟩ := taken_pending h hinspect hr
  obtain ⟨r₂, hkeeps, hphase, hinspect₂, hobserved⟩ := taken_observed h hinspect₁ hwaits
  obtain ⟨raw, hsettled⟩ := taken_settled h hinspect₂ hkeeps hphase
  exact ⟨[r.1.text, r₁.1.text, r₂.1.text, raw], rfl, hfirst.transition, hpending.transition,
    hobserved.transition, hsettled.transition, trivial⟩

end Sample

/-- A history of four texts conforms. -/
theorem custody_sample : ∃ ts, ts.length = 4 ∧ ∃ es, Conforms Sample.platform ts es := by
  obtain ⟨ts, hlength, haccepted⟩ := Sample.history Sample.headers
  exact ⟨ts, hlength, (custody Sample.platform).1 ts haccepted⟩

end Post
end ZenonX402
