/-
# The record of the signer of a funding payment

The record keeps the unsigned block of a payment, and later the signed one, as texts
inside its own text. Each text is the canonical one of what it holds, so a text is
accepted exactly if it is that of a record (`decode_iff`), whose block has the hash that is
computed of it; and none is refused for its size (`size_record`).

Key definitions: `SignerRecord`, `decodeOriginalFundingSignerRecord`,
`completeOriginalFundingSignerRecord`, `requireOriginalFundingSignerRecordTransition`.
Key theorems: `parseBlock_iff`, `signedText_iff`, `size_record`, `decode_iff`.
-/
import ZenonX402.Zenon.Texts
import ZenonX402.Lib.Sha2

namespace ZenonX402
namespace Zenon

open CodeUnits Js Octets Value

def SIGNER_NAMES : List String :=
  ["signerCustodyVersion", "paymentId", "originalDigest", "phase", "unsignedBlockJson",
    "signedBlockJson"]

def ROW : List String :=
  ["paymentId", "originalDigest", "network", "asset", "recipient", "amount", "reservedDay",
    "status", "spentDay"]

def UNSIGNED_FIELDS : List String :=
  ["version", "chainIdentifier", "blockType", "hash", "previousHash", "height",
    "momentumAcknowledged", "address", "toAddress", "amount", "tokenStandard", "fromBlockHash",
    "data", "fusedPlasma", "difficulty", "nonce", "publicKey", "signature"]

/-- `/^[A-Za-z0-9][A-Za-z0-9:._-]{0,127}$/`. -/
def isPaymentId (s : String) : Bool :=
  Text.headTail Text.isAlnum (fun c => Text.isAlnum c || Text.oneOf ":._-" c) 127 s

/-- `/^sha256:[0-9a-f]{64}$/`. -/
def isDigest (s : String) : Bool := Text.prefixed "sha256:" Text.isHexLower 64 s

def bounded (value : Value) (maximum : Nat) : Option String := match value with
  | .str text => if text = "" ∨ maximum < text.utf8ByteSize then none else some text
  | _ => none

/-- 64 bytes in canonical base64. -/
def isSignature (s : String) : Bool := Journal.validateCanonicalBase64 (.str s) 64

section

variable (sha : Sha256) (sha3 : Sha3)

/-- `original`: a block whose hash is the one that is computed of it. -/
def original (input : Value) : Option AccountBlock :=
  match validateZenonUnsignedUserSendHash sha sha3 input with
  | .ok validation => some validation.accountBlock
  | .error _ => none

def parseBlock (value : Value) : Option AccountBlock := do
  let text ← bounded value 4096
  let block ← parse text
  let captured ← original sha sha3 block
  if canonicalJson (accountBlockCodec.encode captured) ≠ text ∨ captured.publicKey.1 = "" then none
    else some captured

/-- The block with a signature. -/
def signedBlock (block : AccountBlock) (signature : String) : Value :=
  written (.given UNSIGNED_FIELDS) fun key =>
    if key = "signature" then .str signature else Journal.get (accountBlockCodec.encode block) key

def signedText (block : AccountBlock) (input : Value) : Option String := do
  let (_, c) ← fields UNSIGNED_FIELDS input
  let signature ← bounded (c "signature") 88
  if isSignature signature then
    let detached ← original sha sha3
        (written (.given UNSIGNED_FIELDS) fun key => if key = "signature" then .str "" else c key)
    if canonicalJson (accountBlockCodec.encode detached) ≠ canonicalJson (accountBlockCodec.encode block) then none
    else some (canonicalJson (signedBlock detached signature))
  else none

inductive Phase where
  | INTENT
  | SIGNED
  deriving DecidableEq

/-- What a text of a record is read as, without the version and the two fields that say what it is
not. -/
structure DecodedRecord where
  paymentId : String
  originalDigest : String
  phase : Phase
  unsignedBlockJson : String
  signedBlockJson : Option String
  transactionHash : String
  publicKey : String
  accountAddress : String
  deriving DecidableEq

def Phase.text : Phase → String
  | .INTENT => "INTENT"
  | .SIGNED => "SIGNED"

def phase? (value : Value) : Option Phase :=
  if value.strictEq (.str "INTENT") then some .INTENT
  else if value.strictEq (.str "SIGNED") then some .SIGNED
  else none

def asText (p : String → Bool) : Value → Option String
  | .str s => if p s then some s else none
  | _ => none

def decodeOriginalFundingSignerRecord (raw : Value) : Option DecodedRecord := do
  let text ← bounded raw 16384
  let decoded ← parse text
  let (_, r) ← fields SIGNER_NAMES decoded
  guard ((r "signerCustodyVersion").strictEq (.num 1) = true
    ∧ canonicalJson (written (.given SIGNER_NAMES) r) = text)
  let phase ← phase? (r "phase")
  let paymentId ← asText isPaymentId (r "paymentId")
  let originalDigest ← asText isDigest (r "originalDigest")
  let block ← parseBlock sha sha3 (r "unsignedBlockJson")
  let unsignedBlockJson ← asText (fun _ => true) (r "unsignedBlockJson")
  match phase with
  | .INTENT =>
    guard ((r "signedBlockJson").strictEq .null = true)
    return ⟨paymentId, originalDigest, .INTENT, unsignedBlockJson, none, block.hash.1,
      block.publicKey.1, block.subject.address.1⟩
  | .SIGNED =>
    let signedBlockJson ← bounded (r "signedBlockJson") 8192
    let signed ← parse signedBlockJson
    guard (signedText sha sha3 block signed = some signedBlockJson)
    return ⟨paymentId, originalDigest, .SIGNED, unsignedBlockJson, some signedBlockJson,
      block.hash.1, block.publicKey.1, block.subject.address.1⟩

inductive ReservationStatus where
  | RESERVED
  | UNKNOWN
  | SPENT
  deriving DecidableEq

def ReservationStatus.text : ReservationStatus → String
  | .RESERVED => "RESERVED"
  | .UNKNOWN => "UNKNOWN"
  | .SPENT => "SPENT"

def reservationStatus? (value : Value) : Option ReservationStatus :=
  if value.strictEq (.str "RESERVED") then some .RESERVED
  else if value.strictEq (.str "UNKNOWN") then some .UNKNOWN
  else if value.strictEq (.str "SPENT") then some .SPENT
  else none

/-- The reservation is of the record's payment, original, token, recipient and amount. -/
def reservationBinding (reservation : Value) (record : DecodedRecord) :
    Option ReservationStatus := do
  let (_, r) ← fields ROW reservation
  let status ← reservationStatus? (r "status")
  guard ((r "paymentId").strictEq (.str record.paymentId) = true
    ∧ (r "originalDigest").strictEq (.str record.originalDigest) = true)
  let block ← parseBlock sha sha3 (.str record.unsignedBlockJson)
  guard ((r "asset").strictEq (.str block.subject.tokenStandard.1) = true
    ∧ (r "recipient").strictEq (.str block.subject.toAddress.1) = true
    ∧ (r "amount").strictEq (.str block.subject.amount.1) = true)
  return status

def inspectOriginalFundingSignerRecord (raw reservation : Value) : Option DecodedRecord := do
  let r ← decodeOriginalFundingSignerRecord sha sha3 raw
  let status ← reservationBinding sha sha3 reservation r
  if r.phase = .INTENT ∧ status = .SPENT then none else some r

def createOriginalFundingSignerIntent (reservation unsignedBlock : Value) : Option String := do
  let (_, selected) ← fields ROW reservation
  let block ← original sha sha3 unsignedBlock
  let record : Value := .obj [("signerCustodyVersion", .num 1), ("paymentId", selected "paymentId"),
    ("originalDigest", selected "originalDigest"), ("phase", .str "INTENT"),
    ("unsignedBlockJson", .str (canonicalJson (accountBlockCodec.encode block))),
    ("signedBlockJson", .null)]
  guard ((selected "status").strictEq (.str "RESERVED") = true ∧ block.publicKey.1 ≠ "")
  let text := canonicalJson record
  let _ ← inspectOriginalFundingSignerRecord sha sha3 (.str text) (written (.given ROW) selected)
  return text

def completeOriginalFundingSignerRecord (raw signedBlock reservation : Value) : Option String := do
  let r ← inspectOriginalFundingSignerRecord sha sha3 raw reservation
  guard (r.phase = .INTENT ∧ (Journal.get reservation "status").strictEq (.str "SPENT") = false)
  let block ← parseBlock sha sha3 (.str r.unsignedBlockJson)
  let signedBlockJson ← signedText sha sha3 block signedBlock
  return canonicalJson (.obj [("signerCustodyVersion", .num 1), ("paymentId", .str r.paymentId),
    ("originalDigest", .str r.originalDigest), ("phase", .str "SIGNED"),
    ("unsignedBlockJson", .str r.unsignedBlockJson),
    ("signedBlockJson", .str signedBlockJson)])

/-- What may replace the record there is, or be the first one. -/
def requireOriginalFundingSignerRecordTransition (expected proposed reservation : Value) :
    Option DecodedRecord := do
  let next ← inspectOriginalFundingSignerRecord sha sha3 proposed reservation
  if expected.strictEq .null then
    if next.phase = .INTENT ∧ (Journal.get reservation "status").strictEq (.str "RESERVED") = true
      then some next else none
  else
    let prior ← inspectOriginalFundingSignerRecord sha sha3 expected reservation
    if prior.phase = .INTENT ∧ next.phase = .SIGNED ∧ prior.paymentId = next.paymentId
      ∧ prior.originalDigest = next.originalDigest
        ∧ prior.unsignedBlockJson = next.unsignedBlockJson then some next else none

end

variable {sha : Sha256} {sha3 : Sha3}

/-! ### Blocks in texts -/

/-- A block with the hash that is computed of it, and a key. -/
def Consistent (sha3 : Sha3) (block : AccountBlock) : Prop :=
  computeUnsignedHashFromSnapshot sha3 block = some block.hash.1

theorem original_iff {input : Value} {block : AccountBlock} : original sha sha3 input = some block ↔
    accountBlockCodec.decode input = .ok block ∧ Consistent sha3 block := by
  unfold original validateZenonUnsignedUserSendHash snapshotZenonUnsignedUserSendFields Consistent
  cases hdecode : accountBlockCodec.decode input with
  | error e => simp [bind, Except.bind]
  | ok captured =>
    simp only [bind, Except.bind, pure, Except.pure]
    cases hcomputed : computeUnsignedHashFromSnapshot sha3 captured with
    | none =>
      simp only [reduceCtorEq, Except.ok.injEq, false_iff, not_and]
      rintro rfl
      simp [hcomputed]
    | some computed =>
      by_cases hsame : captured.hash.1 = computed
      · simp only [hsame, ne_eq, not_true_eq_false, if_false, Option.some.injEq, Except.ok.injEq]
        constructor
        · rintro rfl
          exact ⟨rfl, by rw [hcomputed, hsame]⟩
        · exact fun h => h.1
      · simp only [hsame, ne_eq, not_false_eq_true, if_true, reduceCtorEq, Except.ok.injEq,
          false_iff, not_and]
        rintro rfl
        rw [hcomputed]
        exact fun heq => hsame (Option.some.inj heq).symm

/-- The text of a block. -/
def blockText (block : AccountBlock) : String := canonicalJson (accountBlockCodec.encode block)

theorem blockText_inj {block block' : AccountBlock} (h : blockText block = blockText block') :
    block = block' :=
  accountBlockCodec.encode_injective
  ((canonicalJson_inj (accountBlockCodec.json_encode _) (accountBlockCodec.json_encode _)).mp h)

theorem size_blockText (block : AccountBlock) : (blockText block).utf8ByteSize ≤ 1400 :=
  (size_canonicalJson _).trans_le (textSize_block block)

theorem bounded_iff {v : Value} {maximum : Nat} {text : String} :
    bounded v maximum = some text ↔ v = .str text ∧ text ≠ "" ∧ text.utf8ByteSize ≤ maximum := by
  cases v with
  | str s =>
    rw [bounded, Value.str.injEq]
    by_cases h : s = "" ∨ maximum < s.utf8ByteSize
    · rw [if_pos h]
      refine ⟨fun hnone => (by cases hnone), ?_⟩
      rintro ⟨rfl, hne, hle⟩
      rcases h with h | h
      · exact absurd h hne
      · omega
    · rw [if_neg h, Option.some.injEq]
      rw [not_or, not_lt] at h
      exact ⟨fun heq => ⟨heq, heq ▸ h.1, heq ▸ h.2⟩, fun heq => heq.1⟩
  | _ => simp [bounded]

theorem bounded_canonicalJson {v : Value} {maximum : Nat} (h : textSize v ≤ maximum) :
    bounded (.str (canonicalJson v)) maximum = some (canonicalJson v) :=
  bounded_iff.mpr ⟨rfl, canonicalJson_ne_empty v, (size_canonicalJson v).trans_le h⟩

/-- **Unsigned text.** A text is read as a block exactly if it is the text of a consistent block
with a key. -/
theorem parseBlock_iff {value : Value} {block : AccountBlock} :
    parseBlock sha sha3 value = some block ↔
    value = .str (blockText block) ∧ Consistent sha3 block ∧ block.publicKey.1 ≠ "" := by
  simp only [parseBlock, Option.bind_eq_bind, Option.bind_eq_some_iff, original_iff]
  constructor
  · rintro ⟨text, htext, parsed, -, captured, ⟨-, hconsistent⟩, h⟩
    split at h
    · cases h
    next haccepted =>
      simp only [not_or, Decidable.not_not] at haccepted
      cases h
      rw [(bounded_iff.mp htext).1, ← haccepted.1]
      exact ⟨rfl, hconsistent, haccepted.2⟩
  · rintro ⟨rfl, hconsistent, hkey⟩
    refine ⟨_, bounded_canonicalJson ((textSize_block block).trans (by decide)), _,
      parse_canonicalJson (accountBlockCodec.json_encode block), block,
      ⟨accountBlockCodec.decode_canonical block, hconsistent⟩, ?_⟩
    rw [if_neg]
    exact not_or.mpr ⟨not_not.mpr rfl, hkey⟩

/-! ### Signed blocks in texts -/

/-- The field of a block under a key. -/
theorem written_block (block : AccountBlock) :
    written (.given UNSIGNED_FIELDS) (Journal.get (accountBlockCodec.encode block))
    = accountBlockCodec.encode block := by
  rw [accountBlock_encode]
  simp [written, Order.given, UNSIGNED_FIELDS, Journal.get, List.lookup_cons, List.lookup_nil]

/-- A block is admitted under the keys of an object, which also has a signature. -/
def SignedAs (block : AccountBlock) (signature : String) (input : Value) : Prop :=
  isSignature signature = true ∧ ∃ order c, fields UNSIGNED_FIELDS input = some (order, c)
    ∧ c "signature" = .str signature
    ∧ accountBlockCodec.decode (written (.given UNSIGNED_FIELDS) fun key => if key = "signature"
      then .str "" else c key) = .ok block

theorem size_signature {signature : String} (h : isSignature signature = true) :
    textSize (.str signature) = 90
    ∧ signature.utf8ByteSize = 88 := by
  obtain ⟨bytes, hbytes, hlength, rfl⟩ := canonicalBase64_some h
  rw [textSize_base64 hbytes, (size_base64Text hbytes).1, hlength]
  exact ⟨rfl, rfl⟩

/-- **Signed text.** What is written of a signed block is the unsigned block with the signature. -/
theorem signedText_iff {block : AccountBlock} {input : Value} {text : String}
    (hconsistent : Consistent sha3 block) :
    signedText sha sha3 block input = some text ↔
      ∃ signature, SignedAs block signature input
        ∧ text = canonicalJson (signedBlock block signature) := by
  simp only [signedText, Option.bind_eq_bind, Option.bind_eq_some_iff]
  constructor
  · rintro ⟨⟨order, c⟩, hfields, signature, hsignature, h⟩
    split at h
    next hcanonical =>
      obtain ⟨detached, hdetached, hwritten⟩ := Option.bind_eq_some_iff.mp h
      split at hwritten
      · cases hwritten
      next hsame =>
        rw [Decidable.not_not] at hsame
        obtain rfl : detached = block := blockText_inj hsame
        obtain rfl := Option.some.inj hwritten
        exact ⟨signature, ⟨hcanonical, order, c, hfields, (bounded_iff.mp hsignature).1,
          (original_iff.mp hdetached).1⟩, rfl⟩
    · cases h
  · rintro ⟨signature, ⟨hcanonical, order, c, hfields, hsignature, hdecode⟩, rfl⟩
    refine ⟨(order, c), hfields, signature, ?_, ?_⟩
    · have hsize := (size_signature hcanonical).2
      show bounded (c "signature") 88 = _
      rw [hsignature, bounded, if_neg]
      rw [not_or, not_lt]
      refine ⟨fun hempty => ?_, hsize.le⟩
      rw [hempty] at hsize
      cases hsize
    · rw [if_pos hcanonical, original_iff.mpr ⟨hdecode, hconsistent⟩, Option.bind_some,
        if_neg (not_not.mpr rfl)]

/-- The fields of a block as they are in a text. -/
theorem canonical_block {block : AccountBlock} : ∀ k ∈ UNSIGNED_FIELDS,
    (Journal.get (accountBlockCodec.encode block) k).canonical
      = Journal.get (accountBlockCodec.encode block) k := by
  have hacknowledged : (acknowledged.encode block.subject.momentumAcknowledged).canonical
      = acknowledged.encode block.subject.momentumAcknowledged := by
    have hordered : CodeUnits.units "hash" ≤ CodeUnits.units "height" := by decide
    have hencode (m : Acknowledged) : acknowledged.encode m
        = .obj [("hash", .str m.hash.1), ("height", .num m.height.1.1)] := rfl
    simp [hencode, canonical, canonicalFields, sortFields, List.insertionSort, hordered]
  intro k hk
  rw [accountBlock_encode]
  simp only [UNSIGNED_FIELDS, List.mem_cons, List.not_mem_nil, or_false] at hk
  rcases hk with rfl | rfl | rfl | rfl | rfl | rfl | rfl | rfl | rfl | rfl | rfl | rfl | rfl | rfl
    | rfl | rfl | rfl | rfl <;>
    simp [Journal.get, List.lookup_cons, canonical, hacknowledged]

theorem signedBlock_fields (block : AccountBlock) (signature : String) :
    signedBlock block signature = .obj
    [("version", .num 1), ("chainIdentifier", .num block.subject.chainIdentifier.1.1),
      ("blockType", .num 2), ("hash", .str block.hash.1),
      ("previousHash", .str block.subject.previousHash.1),
      ("height", .num block.subject.height.1.1),
      ("momentumAcknowledged", acknowledged.encode block.subject.momentumAcknowledged),
      ("address", .str block.subject.address.1), ("toAddress", .str block.subject.toAddress.1),
      ("amount", .str block.subject.amount.1),
      ("tokenStandard", .str block.subject.tokenStandard.1),
      ("fromBlockHash", .str ZERO_HASH), ("data", .str block.subject.data.1),
      ("fusedPlasma", .num block.fusedPlasma.1),
      ("difficulty", .num block.difficulty.1), ("nonce", .str block.nonce.1),
      ("publicKey", .str block.publicKey.1),
      ("signature", .str signature)] := by
  rw [signedBlock, accountBlock_encode]
  simp [written, Order.given, UNSIGNED_FIELDS, Journal.get, List.lookup_cons, List.lookup_nil]

theorem json_signedBlock (block : AccountBlock) (signature : String) :
    (signedBlock block signature).Json := by
  refine json_written (by decide) fun k hk => ?_
  by_cases hkey : k = "signature"
  · rw [if_pos hkey]
    exact .str _
  · rw [if_neg hkey]
    have hjson := accountBlockCodec.json_encode block
    rw [← written_block] at hjson
    cases hjson with
    | obj _ hall => exact hall _ (List.mem_map_of_mem hk)

theorem size_signedBlock (block : AccountBlock) {signature : String}
    (h : isSignature signature = true) :
    (canonicalJson (signedBlock block signature)).utf8ByteSize ≤ 1488 := by
  have hsize := textSize_signed block signature
  rw [← signedBlock_fields, (size_signature h).1] at hsize
  rwa [size_canonicalJson]

/-- An object with the fields of a block and a signature. -/
theorem signedAs_of_fields {block : AccountBlock} {signature : String} {v : Value}
    {order : Order UNSIGNED_FIELDS} {c : String → Value} (h : isSignature signature = true)
    (hfields : fields UNSIGNED_FIELDS v = some (order, c))
    (hsignature : c "signature" = .str signature)
    (hblock : ∀ k ∈ UNSIGNED_FIELDS, k ≠ "signature" →
      c k = Journal.get (accountBlockCodec.encode block) k) :
    SignedAs block signature v := by
  refine ⟨h, order, c, hfields, hsignature, ?_⟩
  have hwritten : written (.given UNSIGNED_FIELDS)
      (fun key => if key = "signature" then .str "" else c key)
      = accountBlockCodec.encode block := by
    rw [← written_block block]
    refine written_congr fun k hk => ?_
    by_cases hkey : k = "signature"
    · rw [if_pos hkey, hkey, accountBlock_encode]
      rfl
    · rw [if_neg hkey, hblock k hk hkey]
  rw [hwritten, accountBlockCodec.decode_encode_self]

theorem signedAs_signedBlock (block : AccountBlock) {signature : String}
    (h : isSignature signature = true) :
    SignedAs block signature (signedBlock block signature) := by
  obtain ⟨c, hfields, hvalue⟩ := fields_written (Order.given UNSIGNED_FIELDS) fun key =>
    if key = "signature" then .str signature else Journal.get (accountBlockCodec.encode block) key
  refine signedAs_of_fields h hfields (hvalue "signature" (by decide)) fun k hk hkey => ?_
  rw [hvalue k hk, if_neg hkey]

/-- The text of a signed block is read as it. -/
theorem signedAs_text (block : AccountBlock) {signature : String}
    (h : isSignature signature = true) :
    SignedAs block signature (signedBlock block signature).canonical := by
  obtain ⟨order, c, hfields, hvalue⟩ := @fields_canonical UNSIGNED_FIELDS (by decide) fun key =>
    if key = "signature" then .str signature else Journal.get (accountBlockCodec.encode block) key
  refine signedAs_of_fields h hfields (hvalue "signature" (by decide)) fun k hk hkey => ?_
  rw [hvalue k hk, if_neg hkey, canonical_block k hk]

/-! ### Records -/

/-- A record of a signer: a block of a payment with its hash, and a signature once it is signed. -/
structure SignerRecord (sha3 : Sha3) where
  paymentId : {s : String // isPaymentId s = true}
  originalDigest : {s : String // isDigest s = true}
  block : AccountBlock
  consistent : Consistent sha3 block
  keyed : block.publicKey.1 ≠ ""
  signature : Option {s : String // isSignature s = true}

namespace SignerRecord

def phase (record : SignerRecord sha3) : Phase :=
  if record.signature.isSome then .SIGNED else .INTENT

def signedBlockJson (record : SignerRecord sha3) : Option String :=
  record.signature.map fun signature => canonicalJson (signedBlock record.block signature.1)

def decoded (record : SignerRecord sha3) : DecodedRecord :=
  ⟨record.paymentId.1, record.originalDigest.1, record.phase, blockText record.block,
    record.signedBlockJson, record.block.hash.1, record.block.publicKey.1,
    record.block.subject.address.1⟩

def value (record : SignerRecord sha3) : Value :=
  .obj [("signerCustodyVersion", .num 1), ("paymentId", .str record.paymentId.1),
    ("originalDigest", .str record.originalDigest.1), ("phase", .str record.phase.text),
    ("unsignedBlockJson", .str (blockText record.block)),
    ("signedBlockJson", match record.signedBlockJson with | some text => .str text | none => .null)]

/-- The text a record is kept as. -/
def text (record : SignerRecord sha3) : String := canonicalJson record.value

end SignerRecord

theorem value_written (record : SignerRecord sha3) :
    written (.given SIGNER_NAMES) (Journal.get record.value) = record.value := by
  simp [written, Order.given, SIGNER_NAMES, Journal.get, List.lookup_cons, List.lookup_nil,
    SignerRecord.value]

theorem json_value (record : SignerRecord sha3) : record.value.Json := by
  refine .obj (by simp) fun f hf => ?_
  simp only [List.mem_cons, List.not_mem_nil, or_false] at hf
  rcases hf with rfl | rfl | rfl | rfl | rfl | rfl
  · exact .num (by decide)
  · exact .str _
  · exact .str _
  · exact .str _
  · exact .str _
  · dsimp only
    split <;> constructor

/-- No record is too long to be read again. -/
theorem size_record (record : SignerRecord sha3) : record.text.utf8ByteSize ≤ 16384 := by
  have hkeys : textSize (.str "signerCustodyVersion") = 22 ∧ textSize (.str "paymentId") = 11
      ∧ textSize (.str "originalDigest") = 16
      ∧ textSize (.str "phase") = 7 ∧ textSize (.str "unsignedBlockJson") = 19
      ∧ textSize (.str "signedBlockJson") = 17
      ∧ textSize (.num 1) = 1 ∧ textSize (.str "INTENT") = 8 ∧ textSize (.str "SIGNED") = 8
      ∧ textSize .null = 4 := by
    decide
  have hpayment : textSize (.str record.paymentId.1) ≤ 130 := textSize_headTail record.paymentId.2
    (fun _ => Text.isPlain_isAlnum) fun c hc => by
      rw [Bool.or_eq_true] at hc
      rcases hc with hc | hc
      · exact Text.isPlain_isAlnum hc
      · exact Text.isPlain_oneOf (by decide) hc
  have horiginal := textSize_prefixed record.originalDigest.2 (by decide) fun _ =>
    Text.isPlain_isHexLower
  have hunsigned : textSize (.str (blockText record.block)) ≤ 2802 := by
    refine (textSize_nested _).trans ?_
    have hblock := size_blockText record.block
    rw [blockText, canonicalJson] at hblock
    omega
  have hsigned : textSize
      (match record.signedBlockJson with | some text => .str text | none => .null) ≤ 2978 := by
    rw [SignerRecord.signedBlockJson]
    cases hsignature : record.signature with
    | none =>
      show textSize .null ≤ 2978
      omega
    | some signature =>
      refine (textSize_nested _).trans ?_
      have hblock := size_signedBlock record.block signature.2
      rw [canonicalJson] at hblock
      omega
  have hphase : textSize (.str record.phase.text) = 8 := by
    cases record.phase
    · exact hkeys.2.2.2.2.2.2.2.1
    · exact hkeys.2.2.2.2.2.2.2.2.1
  have hprefix : ("sha256:".toList.length) = 7 := by decide
  have hsize := textSize_obj_le [("signerCustodyVersion", .num 1),
    ("paymentId", .str record.paymentId.1), ("originalDigest", .str record.originalDigest.1),
    ("phase", .str record.phase.text),
    ("unsignedBlockJson", .str (blockText record.block)),
    ("signedBlockJson", match record.signedBlockJson with | some text => .str text | none => .null)]
  simp only [List.map_cons, List.map_nil, List.sum_cons, List.sum_nil, memberSize, hkeys,
    hphase] at hsize
  rw [SignerRecord.text, size_canonicalJson, SignerRecord.value]
  omega

theorem asText_iff {p : String → Bool} {v : Value} {s : String} :
    asText p v = some s ↔ v = .str s ∧ p s = true := by
  cases v with
  | str t =>
    by_cases hp : p t = true
    · rw [asText, if_pos hp, Option.some.injEq, Value.str.injEq]
      exact ⟨fun h => ⟨h, h ▸ hp⟩, fun h => h.1⟩
    · rw [asText, if_neg hp, Value.str.injEq]
      exact ⟨fun h => (by cases h), fun h => absurd (h.1 ▸ h.2) hp⟩
  | _ => simp [asText]

theorem phase_iff {v : Value} {phase : Phase} : phase? v = some phase ↔ v = .str phase.text := by
  unfold phase?
  constructor
  · intro h
    split at h
    next hv =>
      obtain rfl := Option.some.inj h
      exact Value.strictEq_str.mp hv
    · split at h
      next hv =>
        obtain rfl := Option.some.inj h
        exact Value.strictEq_str.mp hv
      · cases h
  · rintro rfl
    cases phase <;> decide

/-- The value under each key of a record. -/
theorem value_iff {record : SignerRecord sha3} {field : String → Value} :
    written (.given SIGNER_NAMES) field = record.value ↔
    field "signerCustodyVersion" = .num 1 ∧ field "paymentId" = .str record.paymentId.1
      ∧ field "originalDigest" = .str record.originalDigest.1 ∧ field "phase"
      = .str record.phase.text
      ∧ field "unsignedBlockJson" = .str (blockText record.block)
      ∧ field "signedBlockJson"
      = (match record.signedBlockJson with | some text => .str text | none => .null) := by
  simp [written, Order.given, SIGNER_NAMES, SignerRecord.value]

/-- The text of a record is read as the record. -/
theorem decode_text (record : SignerRecord sha3) :
    decodeOriginalFundingSignerRecord sha sha3 (.str record.text) = some record.decoded := by
  obtain ⟨order, c, hfields, hvalue⟩ :=
    @fields_canonical SIGNER_NAMES (by decide) (Journal.get record.value)
  rw [value_written] at hfields
  have hcanonical : ∀ k ∈ SIGNER_NAMES, (Journal.get record.value k).canonical
      = Journal.get record.value k := by
    intro k hk
    simp only [SIGNER_NAMES, List.mem_cons, List.not_mem_nil, or_false] at hk
    rcases hk with rfl | rfl | rfl | rfl | rfl | rfl
    · rfl
    · rfl
    · rfl
    · rfl
    · rfl
    · show canonical (match record.signedBlockJson with | some text => .str text | none => .null)
        = (match record.signedBlockJson with | some text => .str text | none => .null)
      cases record.signedBlockJson <;> rfl
  have hwritten : written (.given SIGNER_NAMES) c = record.value := by
    rw [← value_written]
    exact written_congr fun k hk => (hvalue k hk).trans (hcanonical k hk)
  obtain ⟨hversion, hpayment, horiginal, hphase, hunsigned, hsigned⟩ := value_iff.mp hwritten
  have hblock : parseBlock sha sha3 (c "unsignedBlockJson") = some record.block :=
    parseBlock_iff.mpr ⟨hunsigned, record.consistent, record.keyed⟩
  have hjson : asText (fun _ => true) (c "unsignedBlockJson") = some (blockText record.block) :=
    asText_iff.mpr ⟨hunsigned, rfl⟩
  have hguard : (c "signerCustodyVersion").strictEq (.num 1) = true
      ∧ canonicalJson (written (.given SIGNER_NAMES) c) = record.text :=
    ⟨(strictEq_num (by decide)).mpr hversion, congrArg canonicalJson hwritten⟩
  have htext : bounded (.str record.text) 16384 = some record.text :=
    bounded_iff.mpr ⟨rfl, canonicalJson_ne_empty _, size_record record⟩
  simp only [decodeOriginalFundingSignerRecord, Option.bind_eq_bind, Option.bind_eq_some_iff]
  refine ⟨_, htext, _, parse_canonicalJson (json_value record), (order, c), hfields, (),
    guard_some.mpr hguard, _, phase_iff.mpr hphase, _,
    asText_iff.mpr ⟨hpayment, record.paymentId.2⟩, _,
    asText_iff.mpr ⟨horiginal, record.originalDigest.2⟩, _, hblock, _, hjson, ?_⟩
  cases hsignature : record.signature with
  | none =>
    have hnone : record.phase = .INTENT := by rw [SignerRecord.phase, hsignature]; rfl
    have hjsonNone : record.signedBlockJson = none := by
      rw [SignerRecord.signedBlockJson, hsignature]; rfl
    rw [hjsonNone] at hsigned
    simp only [hnone, Option.bind_eq_some_iff, guard_some, Option.pure_def, Option.some.injEq]
    refine ⟨(), strictEq_null.mpr hsigned, ?_⟩
    rw [SignerRecord.decoded, hnone, hjsonNone]
  | some signature =>
    have hsome : record.phase = .SIGNED := by rw [SignerRecord.phase, hsignature]; rfl
    have hjsonSome : record.signedBlockJson
        = some (canonicalJson (signedBlock record.block signature.1)) := by
      rw [SignerRecord.signedBlockJson, hsignature]
      rfl
    rw [hjsonSome] at hsigned
    have hsize := size_signedBlock record.block signature.2
    simp only [hsome, Option.bind_eq_some_iff, guard_some, Option.pure_def, Option.some.injEq]
    refine ⟨_, bounded_iff.mpr ⟨hsigned, canonicalJson_ne_empty _, hsize.trans (by decide)⟩, _,
      parse_canonicalJson (json_signedBlock record.block signature.1), (), ?_, ?_⟩
    · exact (signedText_iff record.consistent).mpr ⟨_, signedAs_text record.block signature.2, rfl⟩
    · rw [SignerRecord.decoded, hsome, hjsonSome]

/-- What is read is a record's text. -/
theorem decode_some {raw : Value} {r : DecodedRecord}
    (h : decodeOriginalFundingSignerRecord sha sha3 raw = some r) :
    ∃ record : SignerRecord sha3, raw = .str record.text ∧ r = record.decoded := by
  simp only [decodeOriginalFundingSignerRecord, Option.bind_eq_bind, Option.bind_eq_some_iff] at h
  obtain ⟨text, htext, parsed, -, ⟨order, c⟩, -, _, hguard, phase, hphase, paymentId, hpayment,
    originalDigest, horiginal, block, hblock, unsigned, hunsigned, hrest⟩ := h
  obtain ⟨hversion, hcanonical⟩ := guard_some.mp hguard
  dsimp only at hversion hcanonical hphase hpayment horiginal hblock hunsigned hrest
  obtain ⟨hpayment, hpaymentId⟩ := asText_iff.mp hpayment
  obtain ⟨horiginal, hdigest⟩ := asText_iff.mp horiginal
  obtain ⟨hunsigned, -⟩ := asText_iff.mp hunsigned
  obtain ⟨hblock, hconsistent, hkey⟩ := parseBlock_iff.mp hblock
  rw [phase_iff] at hphase
  rw [strictEq_num (by decide)] at hversion
  obtain rfl : unsigned = blockText block := Value.str.inj (hunsigned.symm.trans hblock)
  rw [(bounded_iff.mp htext).1, ← hcanonical]
  cases phase with
  | INTENT =>
    simp only [Option.bind_eq_some_iff, guard_some, Option.pure_def, Option.some.injEq,
      strictEq_null] at hrest
    obtain ⟨-, hsigned, rfl⟩ := hrest
    let record : SignerRecord sha3 :=
      ⟨⟨paymentId, hpaymentId⟩, ⟨originalDigest, hdigest⟩, block, hconsistent, hkey, none⟩
    have hwritten : written (.given SIGNER_NAMES) c = record.value :=
      value_iff.mpr ⟨hversion, hpayment, horiginal, hphase, hunsigned, hsigned⟩
    exact ⟨record, congrArg (fun v => Value.str (canonicalJson v)) hwritten, rfl⟩
  | SIGNED =>
    simp only [Option.bind_eq_some_iff, guard_some, Option.pure_def, Option.some.injEq] at hrest
    obtain ⟨signedJson, hbounded, signed, -, -, hsignedText, rfl⟩ := hrest
    obtain ⟨signature, hsigned, rfl⟩ := (signedText_iff hconsistent).mp hsignedText
    let record : SignerRecord sha3 :=
      ⟨⟨paymentId, hpaymentId⟩, ⟨originalDigest, hdigest⟩, block, hconsistent, hkey,
        some ⟨signature, hsigned.1⟩⟩
    have hwritten : written (.given SIGNER_NAMES) c = record.value :=
      value_iff.mpr ⟨hversion, hpayment, horiginal, hphase, hunsigned, (bounded_iff.mp hbounded).1⟩
    exact ⟨record, congrArg (fun v => Value.str (canonicalJson v)) hwritten, rfl⟩

/-- **Texts.** A text is accepted exactly if it is the text of a record, which is what is read. -/
theorem decode_iff {raw : Value} {r : DecodedRecord} :
    decodeOriginalFundingSignerRecord sha sha3 raw = some r ↔
    ∃ record : SignerRecord sha3, raw = .str record.text ∧ r = record.decoded := by
  constructor
  · exact decode_some
  · rintro ⟨record, rfl, rfl⟩
    exact decode_text record

end Zenon
end ZenonX402
