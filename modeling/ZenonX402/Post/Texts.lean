/-
# The texts of the records

A text is accepted exactly if it is the one text of a record, or of a settled record and a
receipt that is about it, and not too long (`inspectVersionOne_iff`, `expiredEnvelope_iff`).
What a function creates is the text of a record again
(`createEntered_some`, `createObservation_some`, `createOutcome_some`), since the outcome
that is written is read as it was written (`output_again`).

Key definitions: `Official`, `Fits`, `Answered`.
Key theorems: `inspectVersionOne_iff`, `expiredEnvelope_iff`, `output_again`, `createOutcome_some`.
-/
import ZenonX402.Post.Record

namespace ZenonX402
namespace Post

open Js
open Value (Same strictEq Copied charge nodeCount byteCount memberBytes nodeCounts textSize
  charge_isSome memberSize)
open Journal (get exactKeys)
open Codec (toOption_some)

/-! ### Records -/

theorem encode_record (r : RecordFields) : recordFieldsCodec.encode r = .obj [("version", .num 1),
    ("resourceUrl", .str r.context.resourceUrl),
    ("issuedFrameJson", .str r.context.issuedFrameJson),
    ("serviceSelectionJson", .str r.context.serviceSelectionJson),
    ("originalHeader", .str r.originalHeader),
    ("transactionHash", .str r.transactionHash.1), ("boundJson", .str r.boundJson),
    ("maximumPendingReconciliations", .num r.context.maximumPendingReconciliations.1),
    ("observations", .num r.observations.1),
    ("phase", phaseCodec.encode r.phase),
    ("outcomeJson", Codec.encodeNullable (Codec.string ()) r.outcomeJson)] := rfl

/-- A record is flat data. -/
theorem copied_record (d : Nat) (hd : d + 1 ≤ 16) (r : RecordFields) :
    Copied LIMITS d (recordFieldsCodec.encode r) := by
  have hcount (n : {n : Nat // n ≤ 16}) : Copied LIMITS (d + 1) (.num n.1) :=
    .num hd (by have := n.2; omega)
  have houtcome : Copied LIMITS (d + 1) (Codec.encodeNullable (Codec.string ()) r.outcomeJson) := by
    cases r.outcomeJson with
    | none => exact .null hd
    | some json => exact .str hd json
  have hphase : Copied LIMITS (d + 1) (phaseCodec.encode r.phase) := .str hd _
  rw [encode_record]
  refine Value.copied_fields ["version", "resourceUrl", "issuedFrameJson", "serviceSelectionJson",
    "originalHeader", "transactionHash", "boundJson", "maximumPendingReconciliations",
    "observations", "phase", "outcomeJson"]
    (Nat.le_of_succ_le hd) rfl (by decide) ?_
  simp only [List.forall_mem_cons]
  exact ⟨.num hd (by decide), .str hd _, .str hd _, .str hd _, .str hd _, .str hd _, .str hd _,
    hcount _, hcount _, hphase, houtcome, List.forall_mem_nil _⟩

theorem nodeCount_record (r : RecordFields) : nodeCount (recordFieldsCodec.encode r) = 12 := by
  cases houtcome : r.outcomeJson <;> (rw [encode_record, houtcome]; rfl)

theorem size_text (r : RecordFields) :
    r.text.utf8ByteSize = textSize (recordFieldsCodec.encode r) :=
  size_canonicalJson _

section

variable {P : Platform}

/-- One text for each record. -/
theorem inspectVersionOne_iff {raw : String} {r : Record P} :
    inspectVersionOne P raw = some r ↔ raw = r.1.text ∧ r.1.text.utf8ByteSize ≤ 65536 := by
  have hcopied : Copied LIMITS 0 ((recordCodec P).encode r).canonical :=
    (copied_record 0 (by decide) r.1).canonical
  have hnodes : nodeCount ((recordCodec P).encode r) ≤ 4096 := by
    refine le_of_eq_of_le (nodeCount_record r.1) ?_
    decide
  rw [inspectVersionOne, Codec.read_iff, size_text]
  exact and_congr_right fun _ => ⟨fun h => h.1, fun h => ⟨h, hcopied, hnodes⟩⟩

theorem text_inj {r r' : RecordFields} (h : r.text = r'.text) : r = r' := Codec.canonicalText_inj h

/-! ### Bound transactions -/

theorem encode_bound (b : Bound) : boundCodec.encode b = .obj [("status", .str "BOUND"),
    ("transactionHash", .str b.1.transactionHash.1),
    ("observerRecordKey", .str b.1.observerRecordKey.1),
    ("observerFileName", .str b.1.observerFileName)] := rfl

theorem copied_bound (b : Bound) : Copied LIMITS 0 (boundCodec.encode b) := by
  have hone : 0 + 1 ≤ LIMITS.depth := by decide
  rw [encode_bound]
  refine Value.copied_fields ["status", "transactionHash", "observerRecordKey", "observerFileName"]
    (Nat.zero_le _) rfl
    (by decide) ?_
  simp only [List.forall_mem_cons]
  exact ⟨.str hone _, .str hone _, .str hone _, .str hone _, List.forall_mem_nil _⟩

/-- The text of a bound transaction is short. -/
theorem textSize_bound (b : Bound) : textSize (boundCodec.encode b) ≤ 1024 := by
  have hhash : ∀ c ∈ b.1.transactionHash.1.toList, Text.isPlain c = true := fun c hc =>
    Text.isPlain_isHexLower ((Text.isHash_iff.mp b.1.transactionHash.2).1 c hc)
  have hsize := Text.size_isHash b.1.transactionHash.2
  have hfile : b.1.observerFileName = "funding-observer-" ++ b.1.transactionHash.1 ++ ".sqlite" :=
    eq_of_beq b.2
  have hplain : ∀ c ∈ b.1.observerFileName.toList, Text.isPlain c = true := by
    have hpre : ∀ c ∈ ("funding-observer-" : String).toList, Text.isPlain c = true :=
      List.all_eq_true.mp (by decide)
    have hpost : ∀ c ∈ (".sqlite" : String).toList, Text.isPlain c = true :=
      List.all_eq_true.mp (by decide)
    intro c hc
    rw [hfile, String.toList_append, String.toList_append, List.mem_append, List.mem_append] at hc
    rcases hc with (hc | hc) | hc
    · exact hpre c hc
    · exact hhash c hc
    · exact hpost c hc
  have hlength : b.1.observerFileName.utf8ByteSize = 88 := by
    rw [hfile, String.utf8ByteSize_append, String.utf8ByteSize_append, hsize]
    rfl
  have hkey : textSize (.str b.1.observerRecordKey.1) = 73 :=
    Value.textSize_prefixed b.1.observerRecordKey.2 (by decide) fun c hc =>
    Text.isPlain_isHexLower hc
  have htx := Value.textSize_plain hhash
  have hname := Value.textSize_plain hplain
  have hstatus : textSize (.str "BOUND") = 7 := by decide
  have hkeys : textSize (.str "status") = 8 ∧ textSize (.str "transactionHash") = 17
      ∧ textSize (.str "observerRecordKey") = 19 ∧ textSize (.str "observerFileName")
      = 18 := by decide
  have hall := Value.textSize_obj_le [("status", Value.str "BOUND"),
    ("transactionHash", .str b.1.transactionHash.1),
    ("observerRecordKey", .str b.1.observerRecordKey.1),
    ("observerFileName", .str b.1.observerFileName)]
  rw [encode_bound]
  simp only [List.map_cons, List.map_nil, List.sum_cons, List.sum_nil, memberSize] at hall
  omega

theorem snapshot_iff {v : Value} :
    snapshot v = true ↔ Copied LIMITS 0 v ∧ nodeCount v ≤ 4096 ∧ byteCount v ≤ 32768 :=
  charge_isSome

theorem snapshot_canonical (v : Value) (h : snapshot v = true) : snapshot v.canonical = true := by
  obtain ⟨hcopied, hnodes, hbytes⟩ := snapshot_iff.mp h
  refine snapshot_iff.mpr ⟨hcopied.canonical, ?_, ?_⟩
  · rwa [Value.nodeCount_canonical]
  · rwa [Value.byteCount_canonical]

theorem bound_iff {v : Value} {b : Bound} :
    bound v = some b ↔ snapshot v = true ∧ boundCodec.decode v = .ok b := by
  simp only [bound, Option.bind_eq_bind, Option.bind_eq_some_iff, guard_some, toOption_some]
  constructor
  · rintro ⟨_, hsnapshot, hdecode⟩
    exact ⟨hsnapshot, hdecode⟩
  · rintro ⟨hsnapshot, hdecode⟩
    exact ⟨(), hsnapshot, hdecode⟩

/-- A bound transaction is read as it is written, also from its text. -/
theorem bound_canonical (b : Bound) : bound (boundCodec.encode b).canonical = some b := by
  have hbytes := Value.byteCount_le_textSize (boundCodec.encode b)
  have hsize := textSize_bound b
  have hnodes : nodeCount (boundCodec.encode b) = 5 := rfl
  refine bound_iff.mpr ⟨snapshot_canonical _ (snapshot_iff.mpr ⟨copied_bound b, ?_, ?_⟩),
    boundCodec.decode_canonical b⟩
  · omega
  · omega

theorem bound_text {r : RecordFields} {b : Bound} (h : r.boundJson = boundCodec.canonicalText b) :
    r.bound = some b := by
  have hnodes : nodeCount (boundCodec.encode b) ≤ 4096 := (by decide : 5 ≤ 4096)
  have hparse := ofCanonical_canonicalJson (copied_bound b) hnodes (textSize_bound b)
  have hread := bound_canonical b
  simp only [RecordFields.bound, parseText, h, Codec.canonicalText, Option.bind_eq_bind,
    Option.bind_eq_some_iff]
  exact ⟨_, hparse, hread⟩

/-! ### Contexts -/

theorem context_iff {v : Value} {c : Context} :
    context P v = some c ↔ contextCodec.decode v = .ok c
      ∧ captureOfficialFundingPostCustodyContext P c = some c := by
  simp only [context, Option.bind_eq_bind, Option.bind_eq_some_iff, toOption_some, guard_some,
    Option.pure_def, Option.some.injEq]
  constructor
  · rintro ⟨c', hdecode, selected, hcapture, -, htext, rfl⟩
    obtain rfl := Codec.canonicalText_inj htext
    exact ⟨hdecode, hcapture⟩
  · rintro ⟨hdecode, hcapture⟩
    exact ⟨c, hdecode, c, hcapture, (), rfl, rfl⟩

/-- A context that is accepted is accepted again. -/
theorem context_again {v : Value} {c : Context} (h : context P v = some c) :
    context P (contextCodec.encode c) = some c :=
  context_iff.mpr ⟨contextCodec.decode_encode_self c, (context_iff.mp h).2⟩

/-! ### Outcomes -/

theorem exactKeys_obj {v : Value} {names : List String} (h : exactKeys v names = true) :
    ∃ fs, v = .obj fs ∧ (fs.map Prod.fst).Perm names := by
  cases v with
  | obj fs => exact ⟨fs, rfl, of_decide_eq_true h⟩
  | _ => cases h

/-- What `output` asks of an outcome whose intake is the bound transaction. -/
structure Official (P : Platform) (v : Value) (c : Context) (b : Bound) : Prop where
  copied : snapshot v = true
  keys : exactKeys v OUTCOME = true
  intake : bound (get v "intake") = some b
  transaction : (get v "transactionHash").strictEq (.str b.1.transactionHash.1) = true
  issued : (c.issued P).isSome = true
  service : c.service.isSome = true
  outcome : (captureBoundOutcome (captured v b)).isSome = true
  size : (canonicalJson (captured v b)).utf8ByteSize ≤ 32768

theorem output_iff {v : Value} {c : Context} {b : Bound} {raw : String} :
    output P v c b = some raw ↔ Official P v c b ∧ raw = canonicalJson (captured v b) := by
  simp only [output, Option.bind_eq_bind, Option.bind_eq_some_iff, guard_some, Option.pure_def,
    Option.some.injEq]
  constructor
  · rintro ⟨-, hcopied, -, hkeys, intake, hintake, -, htext, -, htransaction, issued, hissued,
      service, hservice, phase, hphase, -, hsize, rfl⟩
    obtain rfl := Codec.canonicalText_inj htext
    exact ⟨⟨hcopied, hkeys, hintake, htransaction, hissued ▸ rfl, hservice ▸ rfl,
      hphase ▸ rfl, hsize⟩, rfl⟩
  · rintro ⟨⟨hcopied, hkeys, hintake, htransaction, hissued, hservice, hphase, hsize⟩, rfl⟩
    obtain ⟨issued, hissued⟩ := Option.isSome_iff_exists.mp hissued
    obtain ⟨service, hservice⟩ := Option.isSome_iff_exists.mp hservice
    obtain ⟨phase, hphase⟩ := Option.isSome_iff_exists.mp hphase
    exact ⟨(), hcopied, (), hkeys, b, hintake, (), rfl, (), htransaction, issued, hissued, service,
      hservice, phase, hphase, (), hsize, rfl⟩

theorem readable_of_snapshot {v : Value} (h : snapshot v = true) : Readable v :=
  .inl (snapshot_iff.mp h).1.json

/-- What is captured of an outcome is the outcome. -/
theorem captured_same {v : Value} {b : Bound} (hkeys : exactKeys v OUTCOME = true)
    (hintake : bound (get v "intake") = some b) :
    Same (captured v b) v := by
  obtain ⟨fs, rfl, hperm⟩ := exactKeys_obj hkeys
  refine same_written (by decide) hperm fun k _ => ?_
  by_cases hk : k = "intake"
  · subst hk
    exact boundCodec.same_of_decode _ b (bound_iff.mp hintake).2
  · rw [if_neg hk]
    exact Same.refl _

theorem get_captured {v : Value} {b : Bound} {k : String} (hk : k ∈ OUTCOME) (hne : k ≠ "intake") :
    get (captured v b) k = get v k := by
  change (List.lookup k (OUTCOME.map fun k => (k, if k = "intake" then boundCodec.encode b
    else get v k))).getD
    Value.undefined = _
  rw [lookup_written hk, Option.getD_some, if_neg hne]

/-- The check of an outcome reads what it reads in any order of keys. -/
theorem captureBoundOutcome_canonical {v : Value} {b : Bound} (hv : Readable v) :
    captureBoundOutcome (captured v.canonical b) = captureBoundOutcome (captured v b) := by
  have hkeys (w : Value) : exactKeys (captured w b) OUTCOME = true := by
    have hperm : ((OUTCOME.map fun k => (k, if k = "intake" then boundCodec.encode b
        else get w k)).map Prod.fst).Perm OUTCOME := by
      rw [keys_written]
    exact decide_eq_true hperm
  have hget {k : String} (hk : k ∈ OUTCOME) (hne : k ≠ "intake") :
      get (captured v.canonical b) k = (get (captured v b) k).canonical := by
    rw [get_captured hk hne, get_captured hk hne, get_canonical hv]
  have hintake : get (captured v.canonical b) "intake" = get (captured v b) "intake" := rfl
  have hofficial : Readable (get (captured v b) "official") := by
    rw [get_captured (by decide) (by decide)]
    exact readable_get hv _
  have hdomains := @hget "acknowledgementDomainsIndependent" (by decide) (by decide)
  have hauthority := @hget "authority" (by decide) (by decide)
  have hgrant := @hget "grantActivation" (by decide) (by decide)
  have hservice := @hget "serviceDelivery" (by decide) (by decide)
  have htransaction := @hget "transactionHash" (by decide) (by decide)
  have hout := @hget "official" (by decide) (by decide)
  have hphase := @hget "phase" (by decide) (by decide)
  simp only [captureBoundOutcome, hkeys, hintake, hdomains, hauthority, hgrant, hservice,
    htransaction, hout, hphase, strictEq_canonical_bool, strictEq_canonical_str, isRecord_canonical,
    hasOwn_canonical hofficial,
    officialPhase_canonical hofficial]

/-- The text of an outcome is of the outcome with its keys in order. -/
theorem parse_output {v : Value} {c : Context} {b : Bound} {raw : String}
    (h : output P v c b = some raw) :
    parseText raw 32768 = some v.canonical := by
  obtain ⟨hofficial, hraw⟩ := output_iff.mp h
  have hcanonical : canonicalJson (captured v b) = canonicalJson v :=
    congrArg stringify (captured_same hofficial.keys hofficial.intake)
  obtain ⟨hcopied, hnodes, -⟩ := snapshot_iff.mp hofficial.copied
  have hsize : textSize v ≤ 32768 := by
    rw [← size_canonicalJson, ← hcanonical]
    exact hofficial.size
  rw [hraw, hcanonical]
  exact ofCanonical_canonicalJson hcopied hnodes hsize

/-- The text of an outcome reads back as an outcome with the same text. -/
theorem output_again {v : Value} {c : Context} {b : Bound} {raw : String}
    (h : output P v c b = some raw) :
    (parseText raw 32768).bind (output P · c b) = some raw := by
  obtain ⟨hofficial, hraw⟩ := output_iff.mp h
  have hreadable := readable_of_snapshot hofficial.copied
  have hcanonical : canonicalJson (captured v b) = canonicalJson v :=
    congrArg stringify (captured_same hofficial.keys hofficial.intake)
  have hintake : bound (get v.canonical "intake") = some b := by
    have hencoded : (boundCodec.encode b).canonical = (get v "intake").canonical :=
      boundCodec.same_of_decode _ b (bound_iff.mp hofficial.intake).2
    rw [get_canonical hreadable, ← hencoded]
    exact bound_canonical b
  have hkeys : exactKeys v.canonical OUTCOME = true :=
    (exactKeys_canonical v OUTCOME).trans hofficial.keys
  have htext : canonicalJson (captured v.canonical b) = canonicalJson (captured v b) := by
    have hagain := congrArg stringify (captured_same hkeys hintake)
    rw [hcanonical, canonicalJson, canonicalJson, hagain, Value.canonical_canonical]
  rw [parse_output h, Option.bind_some]
  refine output_iff.mpr ⟨⟨snapshot_canonical v hofficial.copied, hkeys, hintake, ?_,
    hofficial.issued, hofficial.service, ?_, ?_⟩, ?_⟩
  · rw [get_canonical hreadable, strictEq_canonical_str]
    exact hofficial.transaction
  · rw [captureBoundOutcome_canonical hreadable]
    exact hofficial.outcome
  · rw [htext]
    exact hofficial.size
  · rw [hraw, htext]

/-- An outcome is of one of three phases. -/
theorem phaseOf_some {raw : String} {phase : Phase} (h : phaseOf raw = some phase) :
    phase = .PENDING ∨ phase = .SETTLED ∨ phase = .EXHAUSTED := by
  simp only [phaseOf, Option.bind_eq_bind, Option.bind_eq_some_iff] at h
  obtain ⟨outcome, -, h⟩ := h
  split_ifs at h
  · exact .inl (Option.some.inj h).symm
  · exact .inr (.inl (Option.some.inj h).symm)
  · exact .inr (.inr (Option.some.inj h).symm)

/-! ### What a record says -/

theorem checked_iff {r : RecordFields} :
    r.checked P = true ↔ ∃ b, r.bound = some b ∧ r.selected P b = true ∧ r.phased P b = true := by
  unfold RecordFields.checked
  cases r.bound with
  | none => simp
  | some b =>
    simp only [Bool.and_eq_true, Option.some.injEq, exists_eq_left']

theorem selected_iff {r : RecordFields} {b : Bound} : r.selected P b = true ↔
    (context P (contextCodec.encode r.context)).isSome = true ∧ r.observations.1 ≤ r.maximum
      ∧ b.1.transactionHash = r.transactionHash ∧ boundCodec.canonicalText b = r.boundJson
      ∧ original P r.originalHeader r.context b = true := by
  simp only [RecordFields.selected, Bool.and_eq_true, decide_eq_true_eq, and_assoc]

theorem phased_first {r : RecordFields} {b : Bound} (hphase : r.phase = .FIRST_IN_FLIGHT) :
    r.phased P b = true ↔ r.observations.1 = 0 ∧ r.outcomeJson = none := by
  unfold RecordFields.phased
  rw [hphase]
  cases r.outcomeJson <;> simp

theorem phased_later {r : RecordFields} {b : Bound} (hphase : r.phase ≠ .FIRST_IN_FLIGHT) :
    r.phased P b = true ↔ ∃ json, r.outcomeJson = some json
      ∧ ¬ (r.phase = .OBSERVATION_IN_FLIGHT ∧ r.observations.1 < 1)
      ∧ (parseText json 32768).bind (output P · r.context b) = some json
      ∧ phaseOf json = some (if r.phase = .OBSERVATION_IN_FLIGHT then .PENDING else r.phase)
      ∧ ¬ (r.phase = .EXHAUSTED ∧ (r.observations.1 = 0 ∨ r.observations.1 ≠ r.maximum))
      ∧ ¬ (r.phase = .PENDING ∧ 0 < r.observations.1 ∧ r.maximum ≤ r.observations.1) := by
  unfold RecordFields.phased
  cases houtcome : r.outcomeJson with
  | none =>
    cases hp : r.phase <;> simp [hp] at hphase ⊢
  | some json =>
    cases hp : r.phase with
    | FIRST_IN_FLIGHT => exact absurd hp hphase
    | _ => simp only [Bool.and_eq_true, Bool.not_eq_true', Bool.and_eq_false_iff, decide_eq_true_eq,
        decide_eq_false_iff_not, Option.some.injEq, exists_eq_left', not_and_or, and_assoc]

/-! ### New records -/

theorem encode_some {r : RecordFields} {raw : String} :
    encode r = some raw ↔ r.text.utf8ByteSize ≤ 65536 ∧ raw = r.text := by
  unfold encode
  split
  · next h => simp only [Option.some.injEq, h, true_and, eq_comm]
  · next h => simpa using fun hsize => absurd hsize h

/-- The text is of this record. -/
def IsText (raw : String) (r : Record P) : Prop := raw = r.1.text ∧ r.1.text.utf8ByteSize ≤ 65536

theorem createEntered_some {selected originalHeader intakeBound : Value} {raw : String}
    (h : createOfficialFundingPostEnteredRecord P selected originalHeader intakeBound = some raw) :
    ∃ r : Record P, IsText raw r ∧ r.1.phase = .FIRST_IN_FLIGHT := by
  simp only [createOfficialFundingPostEnteredRecord, Option.bind_eq_bind,
    Option.bind_eq_some_iff] at h
  obtain ⟨c, hcontext, b, -, h⟩ := h
  cases originalHeader with
  | str header =>
    simp only [Option.bind_eq_some_iff, guard_some, encode_some] at h
    obtain ⟨-, horiginal, hsize, rfl⟩ := h
    have hcontext : (context P (contextCodec.encode c)).isSome = true := by
      rw [context_again hcontext]
      rfl
    have hchecked : (RecordFields.mk c header b.1.transactionHash (boundCodec.canonicalText b)
        ⟨0, by decide⟩
        .FIRST_IN_FLIGHT none).checked P = true :=
      checked_iff.mpr ⟨b, bound_text (Eq.refl (boundCodec.canonicalText b)),
        selected_iff.mpr ⟨hcontext, Nat.zero_le _, rfl, rfl, horiginal⟩,
        (phased_first rfl).mpr ⟨rfl, rfl⟩⟩
    exact ⟨⟨_, hchecked⟩, ⟨rfl, hsize⟩, rfl⟩
  | _ => cases h

@[simp] theorem observed_phase (r : RecordFields) (h : r.observations.1 < r.maximum) :
    (r.observed h).phase = .OBSERVATION_IN_FLIGHT := rfl

@[simp] theorem observed_observations (r : RecordFields) (h : r.observations.1 < r.maximum) :
    (r.observed h).observations.1 = r.observations.1 + 1 := rfl

theorem observed_checked {r : RecordFields} (hr : r.checked P = true) (hphase : r.phase = .PENDING)
    (h : r.observations.1 < r.maximum) : (r.observed h).checked P = true := by
  obtain ⟨b, hbound, hselected, hphased⟩ := checked_iff.mp hr
  obtain ⟨hcontext, -, hhash, htext, horiginal⟩ := selected_iff.mp hselected
  obtain ⟨json, houtcome, -, hread, hpending, -⟩ :=
    (phased_later (by rw [hphase]; decide)).mp hphased
  rw [hphase] at hpending
  refine checked_iff.mpr ⟨b, hbound, selected_iff.mpr ⟨hcontext, h, hhash, htext, horiginal⟩, ?_⟩
  refine (phased_later (by simp)).mpr ⟨json, houtcome, ?_, hread, hpending, ?_, ?_⟩
  · simp
  · simp
  · simp

theorem createObservation_some {raw raw' : String}
    (h : createOfficialFundingPostObservationRecord P raw = some raw') :
    ∃ r r' : Record P, inspectOfficialFundingPostCustodyRecord P raw = some r ∧ r.1.phase = .PENDING
      ∧ IsText raw' r'
      ∧ ∃ hlt : r.1.observations.1 < r.1.maximum, r'.1 = r.1.observed hlt := by
  simp only [createOfficialFundingPostObservationRecord, Option.bind_eq_bind,
    Option.bind_eq_some_iff, Option.dite_none_right_eq_some, encode_some] at h
  obtain ⟨r, hr, hphase, hsize, rfl⟩ := h
  exact ⟨r, ⟨_, observed_checked r.2 hphase.1 hphase.2⟩, hr, hphase.1, ⟨rfl, hsize⟩, hphase.2, rfl⟩

/-- An outcome that is written into the record of what was in flight. -/
structure Answered (r r' : RecordFields) (out : String) : Prop where
  flight : r.phase = .FIRST_IN_FLIGHT ∨ r.phase = .OBSERVATION_IN_FLIGHT
  first : ¬ (r.phase = .FIRST_IN_FLIGHT ∧ r'.phase = .EXHAUSTED)
  exhausted : ¬ (r'.phase = .EXHAUSTED ∧ r.observations.1 ≠ r.maximum)
  pending : ¬ (r'.phase = .PENDING ∧ 0 < r.observations.1 ∧ r.maximum ≤ r.observations.1)
  phase : r'.phase = .PENDING ∨ r'.phase = .SETTLED ∨ r'.phase = .EXHAUSTED
  eq : r' = { r with phase := r'.phase, outcomeJson := some out }

theorem answered_checked {r r' : RecordFields} {out : String} {b : Bound} (hr : r.checked P = true)
    (hb : r.bound = some b) (h : Answered r r' out)
    (hread : (parseText out 32768).bind (output P · r.context b) = some out)
    (hphase : phaseOf out = some r'.phase) : r'.checked P = true := by
  obtain ⟨b', hbound, hselected, hphased⟩ := checked_iff.mp hr
  obtain rfl := Option.some.inj (hb.symm.trans hbound)
  have hne : r'.phase ≠ .FIRST_IN_FLIGHT ∧ r'.phase ≠ .OBSERVATION_IN_FLIGHT := by
    rcases h.phase with hp | hp | hp <;> rw [hp] <;> decide
  have hcontext : r'.context = r.context := by rw [h.eq]
  have hobservations : r'.observations = r.observations := by rw [h.eq]
  have hmaximum : r'.maximum = r.maximum := by rw [h.eq]; rfl
  refine checked_iff.mpr
    ⟨b, ?_, ?_, (phased_later hne.1).mpr ⟨out, ?_, fun hp => hne.2 hp.1, ?_, ?_, ?_, ?_⟩⟩
  · rw [h.eq]
    exact hb
  · rw [h.eq]
    exact hselected
  · rw [h.eq]
  · rw [hcontext]
    exact hread
  · rw [if_neg hne.2]
    exact hphase
  · rintro ⟨hexhausted, hcount⟩
    rw [hobservations, hmaximum] at hcount
    have hmax := fun hneq => h.exhausted ⟨hexhausted, hneq⟩
    rcases h.flight with hflight | hflight
    · exact h.first ⟨hflight, hexhausted⟩
    · obtain ⟨json, -, hpos, -⟩ := (phased_later (by rw [hflight]; decide)).mp hphased
      rcases hcount with hzero | hcount
      · exact hpos ⟨hflight, by omega⟩
      · exact hmax hcount
  · rw [hobservations, hmaximum]
    exact h.pending

theorem createOutcome_some {raw raw' : String} {outcome : Value}
    (h : createOfficialFundingPostOutcomeRecord P raw outcome = some raw') :
    ∃ (r r' : Record P) (out : String), inspectOfficialFundingPostCustodyRecord P raw = some r
      ∧ IsText raw' r' ∧ Answered r.1 r'.1 out
      ∧ ∃ again, parseText out 32768 = some again
      ∧ createOfficialFundingPostOutcomeRecord P raw again = some raw' := by
  have hcreate := h
  simp only [createOfficialFundingPostOutcomeRecord, Option.bind_eq_bind, Option.bind_eq_some_iff,
    guard_some, encode_some] at h
  obtain ⟨r, hr, -, hflight, b, hb, out, hout, phase, hphase, -, hfirst, -, hexhausted, -, hpending,
    hsize, rfl⟩ := h
  have hread := output_again hout
  have hanswered : Answered r.1 { r.1 with phase := phase, outcomeJson := some out } out :=
    ⟨hflight, hfirst, hexhausted, hpending, phaseOf_some hphase, rfl⟩
  obtain ⟨again, hagain, hagainOut⟩ := Option.bind_eq_some_iff.mp hread
  refine ⟨r, ⟨_, answered_checked r.2 hb hanswered hread hphase⟩, out, hr, ⟨rfl, hsize⟩, hanswered,
    again, hagain, ?_⟩
  simp only [createOfficialFundingPostOutcomeRecord, Option.bind_eq_bind, hr, hb,
    Option.bind_some] at hcreate ⊢
  rw [hagainOut]
  rwa [hout] at hcreate

theorem createOutcome_of {raw out : String} {outcome : Value} {r : Record P} {b : Bound}
    {phase : Phase} (hinspect : inspectOfficialFundingPostCustodyRecord P raw = some r)
    (hbound : r.1.bound = some b) (hout : output P outcome r.1.context b = some out)
    (hphase : phaseOf out = some phase)
    (hanswered : Answered r.1 { r.1 with phase := phase, outcomeJson := some out } out)
    (hsize : (RecordFields.text { r.1 with phase := phase, outcomeJson := some out }).utf8ByteSize
      ≤ 65536) :
    createOfficialFundingPostOutcomeRecord P raw outcome
      = some (RecordFields.text { r.1 with phase := phase, outcomeJson := some out }) := by
  have hflight := hanswered.flight
  have hfirst := hanswered.first
  have hexhausted := hanswered.exhausted
  have hpending := hanswered.pending
  simp only [createOfficialFundingPostOutcomeRecord, hinspect, hbound, hout, hphase,
    Option.bind_eq_bind, Option.bind_some, Option.bind_eq_some_iff, guard_some, encode_some]
  exact ⟨(), hflight, (), hfirst, (), hexhausted, (), hpending, hsize, trivial⟩

/-! ### Receipts -/

theorem encode_receipt (q : Receipt) :
    receiptCodec.encode q = .obj [("expiredFundingVersion", .num 1),
      ("status", .str "FUNDED_NO_NEW_GRANT"), ("transactionHash", .str q.1.transactionHash.1),
    ("sourceSettlementId", .str q.1.sourceSettlementId.1),
    ("fundingCommitment", .str q.1.fundingCommitment.1),
    ("expiresAt", .num q.1.expiresAt.1),
    ("eligibilityObservedAt", .num q.1.eligibilityObservedAt.1), ("paymentAt", .null),
    ("grantActivation", .str "NOT_ENTERED_THIS_OPERATION"), ("grantExistence", .str "NOT_QUERIED"),
    ("deliveryLiability", .str "RECONCILIATION_REQUIRED"),
    ("serviceDelivery", .str "NOT_ESTABLISHED"),
    ("compensation", .str "NOT_ESTABLISHED"), ("verification", .str "SELECTED_ORIGINAL_VERIFIER"),
    ("mayStartPayment", .bool false), ("maySignPayment", .bool false),
    ("mayDispatchService", .bool false),
    ("mayActivateGrant", .bool false), ("mayStartCompensation", .bool false),
    ("authority", .str "NONE")] := rfl

theorem copied_receipt (d : Nat) (hd : d + 1 ≤ 16) (q : Receipt) :
    Copied LIMITS d (receiptCodec.encode q) := by
  rw [encode_receipt]
  refine Value.copied_fields ["expiredFundingVersion", "status", "transactionHash",
    "sourceSettlementId", "fundingCommitment", "expiresAt", "eligibilityObservedAt", "paymentAt",
    "grantActivation", "grantExistence", "deliveryLiability",
    "serviceDelivery", "compensation", "verification", "mayStartPayment", "maySignPayment",
    "mayDispatchService",
    "mayActivateGrant", "mayStartCompensation", "authority"] (Nat.le_of_succ_le hd) rfl
    (by decide) ?_
  simp only [List.forall_mem_cons]
  exact ⟨.num hd (by decide), .str hd _, .str hd _, .str hd _, .str hd _, .num hd q.1.expiresAt.2.1,
    .num hd q.1.eligibilityObservedAt.2.1, .null hd, .str hd _, .str hd _, .str hd _, .str hd _,
    .str hd _, .str hd _,
    .bool hd _, .bool hd _, .bool hd _, .bool hd _, .bool hd _, .str hd _, List.forall_mem_nil _⟩

theorem nodeCount_receipt (q : Receipt) : nodeCount (receiptCodec.encode q) = 21 := by
  rw [encode_receipt]
  rfl

theorem expiryPins_iff {hash commitment expiresAt : Value} {r : Record P} {pins : Pins} :
    expiryPins P hash commitment expiresAt r = some pins ↔ (Codec.text Text.isHash ()).decode hash
      = .ok pins.transactionHash
      ∧ (Codec.text isCommitment ()).decode commitment = .ok pins.fundingCommitment
      ∧ (Codec.integer (fun n => decide (1 ≤ n)) ()).decode expiresAt = .ok pins.expiresAt
      ∧ ∃ issued, r.1.context.issued P = some issued ∧ pins.transactionHash = r.1.transactionHash
        ∧ pins.fundingCommitment.1 = issued.fundingCommitment := by
  simp only [expiryPins, Option.bind_eq_bind, Option.bind_eq_some_iff, toOption_some, guard_some,
    Option.pure_def, Option.some.injEq]
  constructor
  · rintro ⟨h, hh, c, hc, e, he, issued, hissued, -, ⟨htransaction, hcommitment⟩, rfl⟩
    exact ⟨hh, hc, he, issued, hissued, htransaction, hcommitment⟩
  · rintro ⟨hh, hc, he, issued, hissued, htransaction, hcommitment⟩
    exact ⟨_, hh, _, hc, _, he, issued, hissued, (), ⟨htransaction, hcommitment⟩, rfl⟩

theorem capture_iff {v : Value} {pins : Pins} {q : Receipt} :
    captureIssuedExpiredFundingResult v pins = some q ↔ receiptCodec.decode v = .ok q
      ∧ pins.admits q := by
  simp only [captureIssuedExpiredFundingResult, Option.bind_eq_bind, Option.bind_eq_some_iff,
    toOption_some, guard_some, Option.pure_def, Option.some.injEq]
  constructor
  · rintro ⟨q', hdecode, -, hadmits, rfl⟩
    exact ⟨hdecode, hadmits⟩
  · rintro ⟨hdecode, hadmits⟩
    exact ⟨q, hdecode, (), hadmits, rfl⟩

/-- The receipt is about the payment of the record, and short. -/
structure Fits (P : Platform) (r : RecordFields) (q : Receipt) : Prop where
  settled : r.phase = .SETTLED
  transaction : q.1.transactionHash = r.transactionHash
  commitment : ∃ issued, r.context.issued P = some issued ∧ q.1.fundingCommitment.1
    = issued.fundingCommitment
  size : textSize (receiptCodec.encode q) ≤ 4096

def ENVELOPE : List String := ["version", "officialRecord", "expiredFunding"]

theorem json_envelope (r : RecordFields) (q : Receipt) : (envelopeValue r q).Json := by
  refine .obj (show ENVELOPE.Nodup by decide) ?_
  simp only [List.forall_mem_cons]
  exact ⟨.num (by decide), recordFieldsCodec.json_encode r, receiptCodec.json_encode q,
    List.forall_mem_nil _⟩

theorem copied_envelope (r : RecordFields) (q : Receipt) : Copied LIMITS 0 (envelopeValue r q) := by
  refine Value.copied_fields ENVELOPE (Nat.zero_le _) rfl (by decide) ?_
  simp only [List.forall_mem_cons]
  exact ⟨.num (by decide) (by decide), copied_record 1 (by decide) r,
    copied_receipt 1 (by decide) q, List.forall_mem_nil _⟩

theorem nodeCount_envelope (r : RecordFields) (q : Receipt) :
    nodeCount (envelopeValue r q) ≤ 4096 := by
  have hrecord := nodeCount_record r
  have hreceipt := nodeCount_receipt q
  have hversion : nodeCount (.num 2) = 1 := rfl
  rw [envelopeValue, Value.nodeCount_obj]
  simp only [nodeCounts, List.map_cons, List.map_nil, List.sum_cons, List.sum_nil]
  omega

/-- The record is no longer than the text it is kept in. -/
theorem textSize_envelope (r : RecordFields) (q : Receipt) :
    textSize (recordFieldsCodec.encode r) ≤ textSize (envelopeValue r q) := by
  have hsize := Value.textSize_obj_eq [("version", Value.num 2),
    ("officialRecord", recordFieldsCodec.encode r), ("expiredFunding", receiptCodec.encode q)]
  rw [envelopeValue]
  simp only [List.map_cons, List.map_nil, List.sum_cons, List.sum_nil, memberSize, List.length_cons,
    List.length_nil] at hsize
  omega

theorem json_get {v : Value} {names : List String} {k : String} (hv : v.Json)
    (hkeys : exactKeys v names = true) (hk : k ∈ names) : (get v k).Json := by
  obtain ⟨fs, rfl, hperm⟩ := exactKeys_obj hkeys
  cases hv with
  | obj hn hfs =>
    obtain ⟨f, hf, rfl⟩ := List.mem_map.mp (hperm.mem_iff.mpr hk)
    have hget : get (.obj fs) f.1 = f.2 := by
      rw [Journal.get, (Value.mem_iff_lookup f.1 f.2 hn).mp hf]
      rfl
    rw [hget]
    exact hfs f hf

/-- A text of the second version is the one text of its record and its receipt. -/
theorem expiredEnvelope_iff {raw : String} {r : Record P} {q : Receipt} :
    expiredEnvelope P raw = some (r, q) ↔
    raw = canonicalJson (envelopeValue r.1 q) ∧ textSize (envelopeValue r.1 q) ≤ 65536
      ∧ Fits P r.1 q := by
  simp only [expiredEnvelope, Option.bind_eq_bind, Option.bind_eq_some_iff, guard_some,
    Option.pure_def, Option.some.injEq, Prod.mk.injEq]
  constructor
  · rintro ⟨v, hparse, -, hkeys, -, hversion, r, hrecord, -, hsettled, w, hvalue, issued, hissued,
      pins, hpins, q, hcapture, -, htext, rfl, rfl⟩
    obtain ⟨rfl, hcanonical, hsize, hcopied, -⟩ := ofCanonical_iff.mp hparse
    obtain ⟨hw, -, hwsize, -, -⟩ := ofCanonical_iff.mp hvalue
    have hjson := hcopied.json
    obtain ⟨htransaction, hcommitment, -, -⟩ := expiryPins_iff.mp hpins
    obtain ⟨hdecode, hadmits⟩ := capture_iff.mp hcapture
    have hofficial : Same (recordFieldsCodec.encode r.1) (get v "officialRecord") :=
      (canonicalJson_inj (recordFieldsCodec.json_encode r.1) (json_get hjson hkeys (by decide))).mp
        (inspectVersionOne_iff.mp hrecord).1.symm
    have hfunding : Same (receiptCodec.encode q) (get v "expiredFunding") :=
      (canonicalJson_inj (receiptCodec.json_encode q) (json_get hjson hkeys (by decide))).mp htext
    have hnumber : get v "version" = .num 2 := (Value.strictEq_num (by decide)).mp hversion
    have hsame : Same (envelopeValue r.1 q) v := by
      obtain ⟨fs, rfl, hperm⟩ := exactKeys_obj hkeys
      have hwritten : envelopeValue r.1 q = written (Order.given ENVELOPE) fun k =>
          if k = "version" then .num 2
          else if k = "officialRecord" then recordFieldsCodec.encode r.1
          else receiptCodec.encode q := rfl
      rw [hwritten]
      refine same_written (by decide) hperm fun k hk => ?_
      simp only [ENVELOPE, List.mem_cons, List.not_mem_nil, or_false] at hk
      rcases hk with rfl | rfl | rfl
      · exact congrArg Value.canonical hnumber.symm
      · exact hofficial
      · exact hfunding
    have hwsame : textSize (receiptCodec.encode q) = textSize w := by
      rw [← size_canonicalJson, ← size_canonicalJson, ← hw]
      exact congrArg String.utf8ByteSize htext
    have hexpected : pins.fundingCommitment.1 = issued.fundingCommitment := by
      obtain ⟨-, -, -, issued', hissued', -, hfunding'⟩ := expiryPins_iff.mp hpins
      obtain rfl := Option.some.inj (hissued.symm.trans hissued')
      exact hfunding'
    obtain ⟨-, -, -, -, -, hhash, -⟩ := expiryPins_iff.mp hpins
    refine ⟨congrArg stringify hsame.symm, ?_, hsettled, hadmits.1.trans hhash,
      ⟨issued, hissued, ?_⟩, ?_⟩
    · rwa [hsame.textSize]
    · rw [hadmits.2.1, hexpected]
    · omega
  · rintro ⟨rfl, hsize, hfits⟩
    obtain ⟨issued, hissued, hcommitment⟩ := hfits.commitment
    have hreadable : Readable (envelopeValue r.1 q) := .inl (json_envelope r.1 q)
    have hparse : parseText (canonicalJson (envelopeValue r.1 q)) 65536
        = some (envelopeValue r.1 q).canonical :=
      ofCanonical_canonicalJson (copied_envelope r.1 q) (nodeCount_envelope r.1 q) hsize
    have hrecordJson : canonicalJson (get (envelopeValue r.1 q).canonical "officialRecord")
        = r.1.text := by
      rw [get_canonical hreadable, canonicalJson, Value.canonical_canonical]
      rfl
    have hfundingJson : canonicalJson (get (envelopeValue r.1 q).canonical "expiredFunding")
        = receiptCodec.canonicalText q := by
      rw [get_canonical hreadable, canonicalJson, Value.canonical_canonical]
      rfl
    have hnodes : nodeCount (receiptCodec.encode q) ≤ 4096 := by rw [nodeCount_receipt]; decide
    have hvalue : parseText (receiptCodec.canonicalText q) 4096
        = some (receiptCodec.encode q).canonical :=
      ofCanonical_canonicalJson (copied_receipt 0 (by decide) q) hnodes hfits.size
    have hexpires : get (receiptCodec.encode q).canonical "expiresAt" = .num q.1.expiresAt.1 := by
      rw [get_canonical (.inl (receiptCodec.json_encode q))]
      rfl
    have hpins : expiryPins P (.str r.1.transactionHash.1) (.str issued.fundingCommitment)
        (.num q.1.expiresAt.1) r
        = some ⟨r.1.transactionHash, q.1.fundingCommitment, q.1.expiresAt⟩ := by
      rw [← hcommitment]
      exact expiryPins_iff.mpr ⟨Codec.decode_encode_self _ _, Codec.decode_encode_self _ _,
        Codec.decode_encode_self (Codec.integer _ ()) q.1.expiresAt, issued, hissued,
        rfl, hcommitment⟩
    refine ⟨_, hparse, (), ?_, (), ?_, r, ?_, (), hfits.settled,
      (receiptCodec.encode q).canonical, ?_, issued, hissued,
      ⟨r.1.transactionHash, q.1.fundingCommitment, q.1.expiresAt⟩,
      ?_, q, ?_, (), ?_, rfl, rfl⟩
    · rw [exactKeys_canonical]
      exact decide_eq_true (List.Perm.refl ENVELOPE)
    · rw [get_canonical hreadable]
      rfl
    · rw [hrecordJson]
      have hle := textSize_envelope r.1 q
      exact inspectVersionOne_iff.mpr ⟨rfl, by rw [size_text]; omega⟩
    · rw [hfundingJson]
      exact hvalue
    · rw [hexpires]
      exact hpins
    · exact capture_iff.mpr ⟨receiptCodec.decode_canonical q, hfits.transaction, rfl, rfl⟩
    · exact hfundingJson.symm

end

end Post
end ZenonX402
