/-
# Original requests and dispatch intents

The records that are kept of a request before it is sent: the original request itself,
with the payment that it belongs to (`Original`), and the intent to send it (`Intent`).
Each has one text, which its checksum seals. What comes back from a store is taken
only as far as the record can be made again from its parts.

An original that was captured is valid as it is (`validateRecord_value`).

Key definitions: `Policy`, `Original`, `Intent`, `capture`, `validateRecord`, `captureIntent`,
`validateIntent`.
Key theorems: `capture_some`, `validateRecord_value`.
-/
import ZenonX402.Lib.Formats
import ZenonX402.Lib.Record
import ZenonX402.Lib.Text

namespace ZenonX402
namespace Custody

open Js

/-- A text that `new URL` has parsed. -/
structure Url where
  href : String
  origin : String
  protocol : String
  username : String
  password : String
  hostname : String
  search : String
  hash : String
  pathname : String

/-- What is taken from the platform: SHA-256, and `new URL`, which throws on some texts. -/
structure Node where
  sha : Sha256
  url : String → Option Url

def PROFILE : String := "service-credit.execute.v1.empty-body"

def EMPTY_DIGEST : String :=
  "sha256:e3b0c44298fc1c149afbf4c8996fb92427ae41e4649b934ca495991b7852b855"

def DOMAIN : String := "zenon-x402:original-service-request-custody-v1"

def POLICY_FIELDS : List String := ["policyVersion", "maxRequests", "serviceResourceUrl"]

def REQUEST_FIELDS : List String :=
  ["modelVersion", "grantId", "requestId", "method", "routeId", "canonicalBodyDigest",
    "selectedContentType", "maxCostUnits"]

def RECORD_FIELDS : List String :=
  ["custodyVersion", "profile", "originalRequestJson", "originalBodyBase64", "serviceResourceUrl",
    "fundingResourceUrl", "paymentHash", "network", "grantId", "requestId", "checksum"]

/-! ### Fields -/

/-- The values of an object that has exactly these fields. -/
def record (value : Value) (names : List String) : Option (String → Value) :=
  (fields names value).map Prod.snd

def isBounded (limit : Nat) (s : String) : Bool :=
  s ≠ "" && decide (utf16Length s ≤ limit) && decide (s.utf8ByteSize ≤ limit)

/-- `bounded`, with the text. -/
def bounded (limit : Nat) : Value → Option String
  | .str s => if isBounded limit s then some s else none
  | _ => none

/-- `positive`, with the integer. -/
def positive : Value → Option Nat
  | .num n => if 0 < n ∧ n ≤ Value.maxSafeInteger then some n.toNat else none
  | _ => none

def isIdentifierChar (c : Char) : Bool := Text.isAlnum c || Text.oneOf "._:-" c

/-- `IDENTIFIER`, and no `://`. -/
def isIdentifier (s : String) : Bool := Text.headTail Text.isAlnum isIdentifierChar 127 s
    && !Text.includes "://" s

/-- `identifier`, with the text. -/
def identifier (value : Value) : Option String := (bounded 128 value).filter isIdentifier

/-- `HASH`. -/
def paymentHashOf (value : Value) : Option String := (bounded 64 value).filter Text.isHash

def isTargetChar (c : Char) : Bool := Text.isAlnum c || Text.oneOf "-._~!$&'()*+,;=:@" c

/-- `REQUEST_TARGET`. -/
def isRequestTarget (s : String) : Bool := match s.toList with
  | '/' :: cs => (cs.splitOn '/').all fun segment => !segment.isEmpty && segment.all isTargetChar
  | _ => false

/-- `DOT_SEGMENT`. -/
def hasDotSegment (s : String) : Bool := (s.toList.splitOn '/').any fun segment => segment = ['.']
    || segment = ['.', '.']

section

variable (node : Node)

def isCanonicalUrl (service : Bool) (s : String) (url : Url) : Bool :=
  url.protocol = "https:" && url.username = "" && url.password = "" && url.hostname ≠ ""
    && url.search = "" && url.hash = ""
    && url.href = s && url.pathname ≠ "/" && decide (utf16Length url.pathname ≤ 4096)
    && decide (url.pathname.utf8ByteSize ≤ 4096)
    && isRequestTarget url.pathname && !hasDotSegment url.pathname
    && (!service || url.pathname = "/service-credit/v1/execute")

def canonicalUrl (value : Value) (service : Bool) : Option Url := do
  let s ← bounded 4096 value
  guard ((s.toList.any fun c => Text.oneOf "\r\n#?" c) = false)
  (node.url s).filter (isCanonicalUrl service s)

/-! ### Policies and keys -/

structure Policy where
  maxRequests : Nat
  serviceResourceUrl : String
  deriving DecidableEq

def Policy.value (policy : Policy) : Value :=
  .obj [("policyVersion", .num 1), ("maxRequests", .num policy.maxRequests),
    ("serviceResourceUrl", .str policy.serviceResourceUrl)]

def snapshotOriginalServiceRequestCustodyPolicy (input fundingResourceUrl : Value) :
    Option Policy := do
  let p ← record input POLICY_FIELDS
  guard ((p "policyVersion").strictEq (.num 1) = true)
  let maxRequests ← positive (p "maxRequests")
  guard (maxRequests ≤ 1024)
  let service ← canonicalUrl node (p "serviceResourceUrl") true
  let funding ← canonicalUrl node fundingResourceUrl false
  guard (service.origin = funding.origin)
  return ⟨maxRequests, service.href⟩

/-! ### Originals -/

structure Request where
  grantId : String
  requestId : String
  maxCostUnits : Nat

def Request.value (request : Request) : Value :=
  .obj [("modelVersion", .num 1), ("grantId", .str request.grantId),
    ("requestId", .str request.requestId), ("method", .str "POST"),
    ("routeId", .str "service-credit.execute.v1"), ("canonicalBodyDigest", .str EMPTY_DIGEST),
    ("selectedContentType", .str "application/json"), ("maxCostUnits", .num request.maxCostUnits)]

def requestFromJson (value : Value) : Option Request := do
  let text ← bounded 4096 value
  let decoded ← parse text
  let r ← record decoded REQUEST_FIELDS
  let grantId ← identifier (r "grantId")
  let requestId ← identifier (r "requestId")
  let maxCostUnits ← positive (r "maxCostUnits")
  guard ((r "modelVersion").strictEq (.num 1) = true)
  guard ((r "method").strictEq (.str "POST") = true)
  guard ((r "routeId").strictEq (.str "service-credit.execute.v1") = true)
  guard ((r "canonicalBodyDigest").strictEq (.str EMPTY_DIGEST) = true)
  guard ((r "selectedContentType").strictEq (.str "application/json") = true)
  let canonical : Request := ⟨grantId, requestId, maxCostUnits⟩
  guard (stringify canonical.value = text)
  return canonical

/-- A request as it was asked for, with the payment that it belongs to. -/
structure Original where
  originalRequestJson : String
  serviceResourceUrl : String
  fundingResourceUrl : String
  paymentHash : String
  network : String
  grantId : String
  requestId : String
  checksum : String
  deriving DecidableEq

def coreFields (originalRequestJson serviceResourceUrl fundingResourceUrl paymentHash network
      grantId requestId : String) :
    List (String × Value) :=
  [("custodyVersion", .num 1), ("profile", .str PROFILE),
    ("originalRequestJson", .str originalRequestJson), ("originalBodyBase64", .str ""),
    ("serviceResourceUrl", .str serviceResourceUrl),
    ("fundingResourceUrl", .str fundingResourceUrl), ("paymentHash", .str paymentHash),
    ("network", .str network),
    ("grantId", .str grantId), ("requestId", .str requestId)]

def checksum (core : List (String × Value)) : String :=
  "sha256:" ++ node.sha.hex (DOMAIN ++ "\x00" ++ stringify (.obj core))

namespace Original

variable (o : Original)

def value : Value :=
  .obj (coreFields o.originalRequestJson o.serviceResourceUrl o.fundingResourceUrl o.paymentHash
    o.network o.grantId o.requestId
    ++ [("checksum", .str o.checksum)])

def text : String := stringify o.value

end Original

/-- What a capture is made of: the input, and the payment that it is bound to. -/
structure Parts where
  originalRequestJson : Value
  originalBodyBase64 : Value
  serviceResourceUrl : Value
  fundingResourceUrl : Value
  paymentHash : Value
  network : Value

/-- `capture`, of the fields that were read. -/
def capture (parts : Parts) : Option Original := do
  let funding ← canonicalUrl node parts.fundingResourceUrl false
  let paymentHash ← paymentHashOf parts.paymentHash
  let network ← bounded 256 parts.network
  guard (parts.originalBodyBase64.strictEq (.str "") = true)
  let originalRequestJson ← bounded 4096 parts.originalRequestJson
  let request ← requestFromJson parts.originalRequestJson
  let service ← canonicalUrl node parts.serviceResourceUrl true
  guard (service.origin = funding.origin)
  let core := coreFields originalRequestJson service.href funding.href paymentHash network
    request.grantId request.requestId
  let result : Original :=
    ⟨originalRequestJson, service.href, funding.href, paymentHash, network, request.grantId,
      request.requestId, checksum node core⟩
  guard (isBounded 16384 result.text = true)
  return result

def validateRecord (input : Value) : Option Original := do
  let r ← record input RECORD_FIELDS
  guard ((r "custodyVersion").strictEq (.num 1) = true)
  guard ((r "profile").strictEq (.str PROFILE) = true)
  let expected ← capture node ⟨r "originalRequestJson", r "originalBodyBase64",
      r "serviceResourceUrl", r "fundingResourceUrl", r "paymentHash", r "network"⟩
  guard ((r "grantId").strictEq (.str expected.grantId) = true)
  guard ((r "requestId").strictEq (.str expected.requestId) = true)
  guard ((r "checksum").strictEq (.str expected.checksum) = true)
  return expected

def serializeOriginalServiceRequestCustody (input : Value) : Option String :=
  (validateRecord node input).map Original.text

def parseOriginalServiceRequestCustody (text : String) : Option Original := do
  guard (isBounded 16384 text = true)
  let decoded ← parse text
  let result ← validateRecord node decoded
  guard (result.text = text)
  return result

/-! ### Intents -/

def INTENT_FIELDS : List String :=
  ["intentVersion", "profile", "state", "grantId", "requestId", "originalChecksum",
    "originalEnvelopeDigest", "fundingResourceUrl", "paymentHash", "network", "fundingRevision",
    "challengeDigest", "paymentDigest",
    "custodyPolicyDigest", "checksum"]

def INTENT_DOMAIN : String := "zenon-x402:original-dispatch-intent-v1"

def intentDigest (domain : String) (value : Value) : String :=
  "sha256:" ++ node.sha.hex (domain ++ "\x00" ++ canonicalJson value)

/-- `requireIntentDigest`, with the text. -/
def requireIntentDigest (value : Value) : Option String :=
  (bounded 71 value).filter (Text.prefixed "sha256:" Text.isHexLower 64)

/-- That a request may have been sent. -/
structure Intent where
  grantId : String
  requestId : String
  originalChecksum : String
  originalEnvelopeDigest : String
  fundingResourceUrl : String
  paymentHash : String
  network : String
  fundingRevision : Nat
  challengeDigest : String
  paymentDigest : String
  custodyPolicyDigest : String
  checksum : String
  deriving DecidableEq

namespace Intent

variable (i : Intent)

def core : List (String × Value) :=
  [("intentVersion", .num 1), ("profile", .str PROFILE), ("state", .str "INTENT_RECORDED"),
    ("grantId", .str i.grantId), ("requestId", .str i.requestId),
    ("originalChecksum", .str i.originalChecksum),
    ("originalEnvelopeDigest", .str i.originalEnvelopeDigest),
    ("fundingResourceUrl", .str i.fundingResourceUrl),
    ("paymentHash", .str i.paymentHash), ("network", .str i.network),
    ("fundingRevision", .num i.fundingRevision),
    ("challengeDigest", .str i.challengeDigest), ("paymentDigest", .str i.paymentDigest),
    ("custodyPolicyDigest", .str i.custodyPolicyDigest)]

def value : Value := .obj (i.core ++ [("checksum", .str i.checksum)])

def text : String := canonicalJson i.value

end Intent

def validateIntent (input : Value) : Option Intent := do
  let r ← record input INTENT_FIELDS
  guard ((r "intentVersion").strictEq (.num 1) = true)
  guard ((r "profile").strictEq (.str PROFILE) = true)
  guard ((r "state").strictEq (.str "INTENT_RECORDED") = true)
  let grantId ← identifier (r "grantId")
  let requestId ← identifier (r "requestId")
  let funding ← canonicalUrl node (r "fundingResourceUrl") false
  let paymentHash ← paymentHashOf (r "paymentHash")
  let network ← bounded 256 (r "network")
  let fundingRevision ← positive (r "fundingRevision")
  let originalChecksum ← requireIntentDigest (r "originalChecksum")
  let originalEnvelopeDigest ← requireIntentDigest (r "originalEnvelopeDigest")
  let challengeDigest ← requireIntentDigest (r "challengeDigest")
  let paymentDigest ← requireIntentDigest (r "paymentDigest")
  let custodyPolicyDigest ← requireIntentDigest (r "custodyPolicyDigest")
  let checksum ← requireIntentDigest (r "checksum")
  let result : Intent :=
    ⟨grantId, requestId, originalChecksum, originalEnvelopeDigest, funding.href,
      paymentHash, network, fundingRevision, challengeDigest, paymentDigest,
      custodyPolicyDigest, checksum⟩
  guard (checksum = intentDigest node INTENT_DOMAIN (.obj result.core))
  guard (isBounded 16384 result.text = true)
  return result

/-- `captureOriginalServiceDispatchIntent`, of the fields of its binding. -/
def captureIntent (original fundingRevision challengeDigest paymentDigest custodyPolicy : Value) :
    Option Intent := do
  let o ← validateRecord node original
  let revision ← positive fundingRevision
  let challenge ← requireIntentDigest challengeDigest
  let payment ← requireIntentDigest paymentDigest
  let policy ← snapshotOriginalServiceRequestCustodyPolicy node custodyPolicy
      (.str o.fundingResourceUrl)
  guard (policy.serviceResourceUrl = o.serviceResourceUrl)
  let unsealed : Intent :=
    ⟨o.grantId, o.requestId, o.checksum, "sha256:" ++ node.sha.hex o.text, o.fundingResourceUrl,
      o.paymentHash, o.network, revision, challenge, payment,
    intentDigest node "zenon-x402:dispatch-intent-policy-v1" policy.value, ""⟩
  validateIntent node { unsealed with checksum := intentDigest node INTENT_DOMAIN (.obj
    unsealed.core) }.value

def serializeOriginalServiceDispatchIntent (input : Value) : Option String :=
  (validateIntent node input).map Intent.text

def parseOriginalServiceDispatchIntent (text : String) : Option Intent := do
  guard (isBounded 16384 text = true)
  let decoded ← parse text
  let result ← validateIntent node decoded
  guard (result.text = text)
  return result

/-! ### A record from its own text -/

theorem bounded_some {limit : Nat} {value : Value} {s : String} (h : bounded limit value = some s) :
    value = .str s ∧ isBounded limit s = true := by
  cases value with
  | str t =>
    simp only [bounded, Option.ite_none_right_eq_some, Option.some.injEq] at h
    obtain ⟨hbounded, rfl⟩ := h
    exact ⟨rfl, hbounded⟩
  | _ => cases h

theorem paymentHashOf_some {value : Value} {s : String} (h : paymentHashOf value = some s) :
    value = .str s :=
  (bounded_some (Option.filter_eq_some_iff.mp h).1).1

theorem canonicalUrl_some {node : Node} {value : Value} {service : Bool} {url : Url}
    (h : canonicalUrl node value service = some url) :
    value = .str url.href := by
  simp only [canonicalUrl, Option.bind_eq_bind, Option.bind_eq_some_iff,
    Option.filter_eq_some_iff] at h
  obtain ⟨s, hs, _, _, _, hurl⟩ := h
  simp only [isCanonicalUrl, Bool.and_eq_true, decide_eq_true_eq] at hurl
  rw [(bounded_some hs).1, hurl.1.1.1.1.1.1.2]

/-- The parts that a record is made of. -/
def Original.parts (o : Original) : Parts :=
  ⟨.str o.originalRequestJson, .str "", .str o.serviceResourceUrl, .str o.fundingResourceUrl,
    .str o.paymentHash, .str o.network⟩

theorem capture_some {node : Node} {parts : Parts} {o : Original}
    (h : capture node parts = some o) :
    parts = o.parts ∧ isBounded 16384 o.text = true := by
  obtain ⟨request, body, serviceUrl, fundingUrl, hash, network⟩ := parts
  simp only [capture, Option.bind_eq_bind, Option.bind_eq_some_iff, guard_some, Option.pure_def,
    Option.some.injEq] at h
  obtain ⟨funding, hfunding, _, hhash, _, hnetwork, _, hbody, _, hjson, _, _, service, hservice, _,
    _, _, hbounded, rfl⟩ := h
  refine ⟨?_, hbounded⟩
  rw [canonicalUrl_some hfunding, canonicalUrl_some hservice, paymentHashOf_some hhash,
    (bounded_some hnetwork).1, (bounded_some hjson).1, Value.strictEq_str.mp hbody]
  rfl

/-- A record that was captured is valid. -/
theorem validateRecord_value {node : Node} {parts : Parts} {o : Original}
    (h : capture node parts = some o) :
    validateRecord node o.value = some o := by
  obtain ⟨hparts, _⟩ := capture_some h
  have hcapture : capture node o.parts = some o := hparts ▸ h
  let fs := coreFields o.originalRequestJson o.serviceResourceUrl o.fundingResourceUrl o.paymentHash
    o.network o.grantId
    o.requestId ++ [("checksum", Value.str o.checksum)]
  have hperm : (fs.map Prod.fst).Perm RECORD_FIELDS := .refl _
  have hget : record o.value RECORD_FIELDS = some fun k => (fs.lookup k).getD .undefined := by
    change (fields RECORD_FIELDS (.obj fs)).map Prod.snd = _
    rw [fields, dif_pos hperm]
    rfl
  simp only [validateRecord, hget, Option.bind_eq_bind, Option.bind_eq_some_iff, guard_some,
    Option.pure_def, Option.some.injEq]
  refine ⟨_, rfl, (), rfl, (), rfl, o, hcapture, (), ?_, (), ?_, (), ?_, rfl⟩
  · exact Value.strictEq_str.mpr rfl
  · exact Value.strictEq_str.mpr rfl
  · exact Value.strictEq_str.mpr rfl

theorem Original.json (o : Original) : o.value.Json := by
  refine .obj ?_ ?_
  · exact (show RECORD_FIELDS.Nodup by decide)
  · simp only [coreFields, List.cons_append, List.nil_append, List.forall_mem_cons]
    exact ⟨.num (by decide), .str _, .str _, .str _, .str _, .str _, .str _, .str _, .str _, .str _,
      .str _, List.forall_mem_nil _⟩

end

end Custody
end ZenonX402
