/-
# Records of an official funding POST

`official-funding-post-custody-record.js`: what is kept of one payment that was sent to the
official server, as one canonical text. A text of the first version is a record: the
challenge and the service it is for, the header that was sent, the bound transaction, how
often the server was asked again, and the last outcome. A text of the second version keeps
a settled record as it is and adds the receipt of funding that came after its time.

A text is inspected by parsing it, checking every field and writing it again; a transition
is allowed if the one text that may follow is the text proposed.

Key definitions: `Context`, `Record`, `inspectVersionOne`, `expiredEnvelope`, `output`,
`requireOfficialFundingPostCustodyTransition`.
-/
import ZenonX402.Post.Issued

namespace ZenonX402
namespace Post

open Js
open Value (Same strictEq Copied charge nodeCount textSize charge_isSome)
open Journal (get exactKeys)
open Resource (decodeB64Json)

/-! ### Texts -/

/-- What `snapshot` bounds a copy by. -/
def LIMITS : Limits :=
  ⟨16, 256, 128, fun k => ["toJSON", "__proto__", "constructor", "prototype"].contains k⟩

/-- `snapshot`. The copy is what it is a copy of. -/
def snapshot (value : Value) : Bool := (charge LIMITS 0 ⟨4096, 32768⟩ value).isSome

/-- `parse`. (A text of the model is well-formed Unicode.) -/
def parseText (raw : String) (max : Nat) : Option Value := ofCanonical LIMITS 4096 max raw

def bound (value : Value) : Option Bound := do
  guard (snapshot value = true)
  (boundCodec.decode value).toOption

/-! ### The context -/

structure Context where
  resourceUrl : String
  issuedFrameJson : String
  serviceSelectionJson : String
  maximumPendingReconciliations : {n : Nat // n ≤ 16}
  deriving DecidableEq

def contextCodec : Codec Unit Context :=
  (object (.cons "resourceUrl" (.string ())
    (.cons "issuedFrameJson" (.string ())
    (.cons "serviceSelectionJson" (.string ())
    (.cons "maximumPendingReconciliations" (.count 16 ())
      .nil)))) ()).equiv
    { toFun := fun (a, b, c, d, _) => ⟨a, b, c, d⟩
      invFun := fun c =>
        (c.resourceUrl, c.issuedFrameJson, c.serviceSelectionJson,
          c.maximumPendingReconciliations, ())
      left_inv := fun _ => rfl
      right_inv := fun _ => rfl }

section

variable (P : Platform)

/-- The challenge that a context was issued with. -/
def Context.issued (c : Context) : Option Issued := do
  let frame ← parseText c.issuedFrameJson 8192
  selection P frame c.resourceUrl

def Context.service (c : Context) : Option ServiceSelection := do
  let service ← parseText c.serviceSelectionJson 4096
  captureIssuedFundingPostServiceSelection service

theorem issued_of {P : Platform} {c : Context} {frame : Value} {issued : Issued}
    (hparse : parseText c.issuedFrameJson 8192 = some frame)
    (hselection : selection P frame c.resourceUrl = some issued) : c.issued P = some issued := by
  rw [Context.issued, hparse]
  exact hselection

theorem service_of {c : Context} {v : Value} {service : ServiceSelection}
    (hparse : parseText c.serviceSelectionJson 4096 = some v)
    (hservice : captureIssuedFundingPostServiceSelection v = some service) :
    c.service = some service := by
  rw [Context.service, hparse]
  exact hservice

/-- `captureOfficialFundingPostCustodyContext`, of what a context holds. -/
def captureOfficialFundingPostCustodyContext (c : Context) : Option Context := do
  let issued ← c.issued P
  let service ← c.service
  return ⟨c.resourceUrl, canonicalJson issued.frame, serviceCodec.canonicalText service,
    c.maximumPendingReconciliations⟩

def context (value : Value) : Option Context := do
  let c ← (contextCodec.decode value).toOption
  let selected ← captureOfficialFundingPostCustodyContext P c
  guard (contextCodec.canonicalText selected = contextCodec.canonicalText c)
  return selected

/-- `original`: the header that was sent is a payment of the challenge by the bound transaction. -/
def original (header : String) (c : Context) (b : Bound) : Bool :=
  header != "" && decide (header.utf8ByteSize ≤ 5464)
    && match decodeB64Json header 4096 5464, c.issued P, c.service with
      | some payload, some selected, some service =>
        Resource.validatePaymentPayloadEnvelope P.node payload
          && Resource.sameResource P.node (get payload "resource") selected.resource
          && Resource.sameRequirements (get payload "accepted") selected.requirement
          && (get (get (get payload "payload") "transaction") "hash").strictEq
          (.str b.1.transactionHash.1)
          && (get (get (get payload "payload") "transaction") "address").strictEq
          (.str service.holderId.1)
      | _, _, _ => false

theorem original_of_checks {P : Platform} {header : String} {c : Context} {b : Bound}
    {payload : Value} {selected : Issued} {service : ServiceSelection} (hne : header ≠ "")
    (hsize : header.utf8ByteSize ≤ 5464) (hdecode : decodeB64Json header 4096 5464 = some payload)
    (hissued : c.issued P = some selected) (hservice : c.service = some service)
    (h : (Resource.validatePaymentPayloadEnvelope P.node payload
      && Resource.sameResource P.node (get payload "resource") selected.resource
      && Resource.sameRequirements (get payload "accepted") selected.requirement
      && (get (get (get payload "payload") "transaction") "hash").strictEq
      (.str b.1.transactionHash.1)
      && (get (get (get payload "payload") "transaction") "address").strictEq
      (.str service.holderId.1)) = true) :
    original P header c b = true := by
  have hsent : (header != "") = true := bne_iff_ne.mpr hne
  rw [original, hdecode, hissued, hservice, hsent, decide_eq_true hsize]
  exact h

/-! ### Outcomes -/

/-- The outcome with the intake in the order that `bound` keeps. -/
def captured (value : Value) (intake : Bound) : Value :=
  written (Order.given OUTCOME) fun k => if k = "intake" then boundCodec.encode intake
  else get value k

def output (value : Value) (c : Context) (b : Bound) : Option String := do
  guard (snapshot value = true)
  guard (exactKeys value OUTCOME = true)
  let intake ← bound (get value "intake")
  guard (boundCodec.canonicalText intake = boundCodec.canonicalText b)
  guard ((get value "transactionHash").strictEq (.str b.1.transactionHash.1) = true)
  let _ ← c.issued P
  let _ ← c.service
  let _ ← captureBoundOutcome (captured value intake)
  guard ((canonicalJson (captured value intake)).utf8ByteSize ≤ 32768)
  return canonicalJson (captured value intake)

/-- `phaseOf`, of an outcome that has passed. -/
def phaseOf (raw : String) : Option Phase := do
  let outcome ← parseText raw 32768
  if (get outcome "phase").strictEq (.str "INTAKE_BOUND_OFFICIAL_PENDING") then some .PENDING
  else if (get outcome "phase").strictEq (.str "INTAKE_BOUND_OFFICIAL_SETTLED") then some .SETTLED
  else if (get outcome "phase").strictEq (.str "INTAKE_BOUND_OFFICIAL_EXHAUSTED")
    then some .EXHAUSTED
  else none

/-! ### Records -/

structure RecordFields where
  context : Context
  originalHeader : String
  transactionHash : Hash
  boundJson : String
  observations : {n : Nat // n ≤ 16}
  phase : Phase
  outcomeJson : Option String
  deriving DecidableEq

def RecordFields.maximum (r : RecordFields) : Nat := r.context.maximumPendingReconciliations.1

/-- The bound transaction of a record. -/
def RecordFields.bound (r : RecordFields) : Option Bound := do
  let v ← parseText r.boundJson 1024
  Post.bound v

/-- What is asked of a record before the phase. -/
def RecordFields.selected (r : RecordFields) (b : Bound) : Bool :=
  (Post.context P (contextCodec.encode r.context)).isSome && decide (r.observations.1 ≤ r.maximum)
    && decide (b.1.transactionHash = r.transactionHash)
    && decide (boundCodec.canonicalText b = r.boundJson)
    && original P r.originalHeader r.context b

/-- What is asked of the phase, the count and the outcome. -/
def RecordFields.phased (r : RecordFields) (b : Bound) : Bool := match r.phase, r.outcomeJson with
  | .FIRST_IN_FLIGHT, outcome => decide (r.observations.1 = 0) && outcome.isNone
  | _, none => false
  | phase, some json =>
    !(decide (phase = .OBSERVATION_IN_FLIGHT) && decide (r.observations.1 < 1))
      && decide ((parseText json 32768).bind (output P · r.context b) = some json)
      && decide (phaseOf json = some (if phase = .OBSERVATION_IN_FLIGHT then .PENDING else phase))
      && !(decide (phase = .EXHAUSTED)
        && decide (r.observations.1 = 0 ∨ r.observations.1 ≠ r.maximum))
      && !(decide (phase = .PENDING)
        && decide (0 < r.observations.1 ∧ r.maximum ≤ r.observations.1))

def RecordFields.checked (r : RecordFields) : Bool := match r.bound with
  | some b => r.selected P b && r.phased P b
  | none => false

abbrev Record := {r : RecordFields // r.checked P = true}

end

def phaseCodec : Codec Unit Phase :=
  .enum [.FIRST_IN_FLIGHT, .OBSERVATION_IN_FLIGHT, .PENDING, .SETTLED, .EXHAUSTED]
    (fun
      | .FIRST_IN_FLIGHT => "FIRST_IN_FLIGHT"
      | .OBSERVATION_IN_FLIGHT => "OBSERVATION_IN_FLIGHT"
      | .PENDING => "PENDING"
      | .SETTLED => "SETTLED"
      | .EXHAUSTED => "EXHAUSTED") ()
    (fun a => by cases a <;> decide) (fun a b => by cases a <;> cases b <;> decide)

def recordFieldsCodec : Codec Unit RecordFields :=
  (object (.const "version" (.constNum 1 ())
    (.cons "resourceUrl" (.string ())
    (.cons "issuedFrameJson" (.string ())
    (.cons "serviceSelectionJson" (.string ())
    (.cons "originalHeader" (.string ())
    (.cons "transactionHash" (.text Text.isHash ())
    (.cons "boundJson" (.string ())
    (.cons "maximumPendingReconciliations" (.count 16 ())
    (.cons "observations" (.count 16 ())
    (.cons "phase" phaseCodec
    (.cons "outcomeJson" ((Codec.string ()).nullable fun _ => nofun)
      .nil))))))))))) ()).equiv
    { toFun := fun (a, b, c, d, e, f, g, h, i, j, _) => ⟨⟨a, b, c, g⟩, d, e, f, h, i, j⟩
      invFun := fun r =>
        (r.context.resourceUrl, r.context.issuedFrameJson, r.context.serviceSelectionJson,
          r.originalHeader, r.transactionHash, r.boundJson, r.context.maximumPendingReconciliations,
          r.observations, r.phase, r.outcomeJson, ())
      left_inv := fun _ => rfl
      right_inv := fun _ => rfl }

def recordCodec (P : Platform) : Codec Unit (Record P) :=
  recordFieldsCodec.refine (RecordFields.checked P) ()

/-- The text of a record. -/
def RecordFields.text (r : RecordFields) : String := recordFieldsCodec.canonicalText r

def encode (r : RecordFields) : Option String :=
  if r.text.utf8ByteSize ≤ 65536 then some r.text else none

section

variable (P : Platform)

def inspectVersionOne (raw : String) : Option (Record P) :=
  (recordCodec P).read LIMITS 4096 65536 raw

/-! ### Receipts -/

def expiryPins (transactionHash fundingCommitment expiresAt : Value) (r : Record P) :
    Option Pins := do
  let hash ← ((Codec.text Text.isHash ()).decode transactionHash).toOption
  let commitment ← ((Codec.text isCommitment ()).decode fundingCommitment).toOption
  let expiry ← ((Codec.integer (fun n => decide (1 ≤ n)) ()).decode expiresAt).toOption
  let issued ← r.1.context.issued P
  guard (hash = r.1.transactionHash ∧ commitment.1 = issued.fundingCommitment)
  return ⟨hash, commitment, expiry⟩

/-- `expiryPins` of an object. -/
def selectedPins (selected : Value) (r : Record P) : Option Pins := do
  guard (exactKeys selected ["transactionHash", "fundingCommitment", "expiresAt"] = true)
  expiryPins P (get selected "transactionHash") (get selected "fundingCommitment")
    (get selected "expiresAt") r

/-- The object of a text of the second version. -/
def envelopeValue (r : RecordFields) (receipt : Receipt) : Value :=
  .obj [("version", .num 2), ("officialRecord", recordFieldsCodec.encode r),
    ("expiredFunding", receiptCodec.encode receipt)]

/-- `expiredEnvelope`: the record and the receipt. -/
def expiredEnvelope (raw : String) : Option (Record P × Receipt) := do
  let envelope ← parseText raw 65536
  guard (exactKeys envelope ["version", "officialRecord", "expiredFunding"] = true)
  guard ((get envelope "version").strictEq (.num 2) = true)
  let record ← inspectVersionOne P (canonicalJson (get envelope "officialRecord"))
  guard (record.1.phase = .SETTLED)
  let value ← parseText (canonicalJson (get envelope "expiredFunding")) 4096
  let issued ← record.1.context.issued P
  let pins ← expiryPins P (.str record.1.transactionHash.1) (.str issued.fundingCommitment)
      (get value "expiresAt") record
  let receipt ← captureIssuedExpiredFundingResult value pins
  guard (receiptCodec.canonicalText receipt = canonicalJson (get envelope "expiredFunding"))
  return (record, receipt)

def inspectOfficialFundingPostCustodyRecord (raw : String) : Option (Record P) := do
  let parsed ← parseText raw 65536
  if (get parsed "version").strictEq (.num 2) then (expiredEnvelope P raw).map Prod.fst
    else inspectVersionOne P raw

/-- `inspectOfficialFundingPostExpiredReceipt`: a text of the first version has no receipt. -/
def inspectOfficialFundingPostExpiredReceipt (raw : String) (selected : Value) :
    Option (Option Receipt) := do
  let record ← inspectOfficialFundingPostCustodyRecord P raw
  let pins ← selectedPins P selected record
  let parsed ← parseText raw 65536
  if (get parsed "version").strictEq (.num 1) then some none
  else do
    let envelope ← expiredEnvelope P raw
    let receipt ← captureIssuedExpiredFundingResult (receiptCodec.encode envelope.2) pins
    return some receipt

/-! ### New texts -/

def createOfficialFundingPostEnteredRecord (selected originalHeader intakeBound : Value) :
    Option String := do
  let c ← context P selected
  let b ← bound intakeBound
  let .str header := originalHeader | none
  guard (original P header c b = true)
  encode ⟨c, header, b.1.transactionHash, boundCodec.canonicalText b, ⟨0, by decide⟩,
    .FIRST_IN_FLIGHT, none⟩

/-- A record of which the next observation is in flight. -/
def RecordFields.observed (r : RecordFields) (h : r.observations.1 < r.maximum) : RecordFields :=
  { r with
    observations := ⟨r.observations.1 + 1,
      (Nat.succ_le_of_lt h).trans r.context.maximumPendingReconciliations.2⟩
    phase := .OBSERVATION_IN_FLIGHT }

def createOfficialFundingPostObservationRecord (raw : String) : Option String := do
  let r ← inspectOfficialFundingPostCustodyRecord P raw
  if h : r.1.phase = .PENDING ∧ r.1.observations.1 < r.1.maximum then encode (r.1.observed h.2)
    else none

def createOfficialFundingPostOutcomeRecord (raw : String) (outcome : Value) : Option String := do
  let r ← inspectOfficialFundingPostCustodyRecord P raw
  guard (r.1.phase = .FIRST_IN_FLIGHT ∨ r.1.phase = .OBSERVATION_IN_FLIGHT)
  let b ← r.1.bound
  let out ← output P outcome r.1.context b
  let phase ← phaseOf out
  guard (¬ (r.1.phase = .FIRST_IN_FLIGHT ∧ phase = .EXHAUSTED))
  guard (¬ (phase = .EXHAUSTED ∧ r.1.observations.1 ≠ r.1.maximum))
  guard (¬ (phase = .PENDING ∧ 0 < r.1.observations.1 ∧ r.1.maximum ≤ r.1.observations.1))
  encode { r.1 with phase := phase, outcomeJson := some out }

def createOfficialFundingPostExpiredRecord (raw : String) (receipt selected : Value) :
    Option String := do
  let record ← inspectVersionOne P raw
  guard (record.1.phase = .SETTLED)
  let pins ← selectedPins P selected record
  let captured ← captureIssuedExpiredFundingResult receipt pins
  let next := canonicalJson (envelopeValue record.1 captured)
  guard (next.utf8ByteSize ≤ 65536)
  let _ ← expiredEnvelope P next
  return next

/-! ### Transitions -/

/-- `requireOfficialFundingPostRetainedExtension`. (`null` is no record.) -/
def requireOfficialFundingPostRetainedExtension (expected : Option String) (proposed : String) :
    Option (Record P) := do
  let expected ← expected
  let before ← inspectVersionOne P expected
  let next ← expiredEnvelope P proposed
  let envelope ← parseText proposed 65536
  guard (before.1.phase = .SETTLED ∧ canonicalJson (get envelope "officialRecord") = expected)
  return next.1

/-- The fields that no transition changes. -/
def RecordFields.immutable (r : RecordFields) : Context × String × Hash × String :=
  (r.context, r.originalHeader, r.transactionHash, r.boundJson)

/-- The text that may follow one of the first version. -/
def legal (expected : String) (before next : Record P) : Option String := match before.1.phase with
  | .PENDING => createOfficialFundingPostObservationRecord P expected
  | .FIRST_IN_FLIGHT | .OBSERVATION_IN_FLIGHT => do
    let json ← next.1.outcomeJson
    let outcome ← parseText json 32768
    createOfficialFundingPostOutcomeRecord P expected outcome
  | .SETTLED | .EXHAUSTED => none

def requireOfficialFundingPostCustodyTransition (expected : Option String) (proposed : String) :
    Option (Record P) := do
  let next ← inspectOfficialFundingPostCustodyRecord P proposed
  let parsed ← parseText proposed 65536
  if (get parsed "version").strictEq (.num 2) then requireOfficialFundingPostRetainedExtension P expected proposed
  else match expected with
    | none => if next.1.phase = .FIRST_IN_FLIGHT then some next else none
    | some expected => do
      let before ← inspectOfficialFundingPostCustodyRecord P expected
      guard (before.1.immutable = next.1.immutable)
      guard (legal P expected before next = some proposed)
      return next

end
end Post
end ZenonX402
