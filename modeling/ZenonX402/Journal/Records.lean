/-
# Records and tombstones of the settlement journal

`validateRecord` and `validateTombstone` as the source has them, field by field
over a plain value, with the checks of the resource, the signed account block
and the momentum evidence inside. Several texts are checked by a regular
expression without a check that they are strings, so what decides is the text
that the value is converted to (`toText`): a nonce may be a number, a hash an
array that holds it. That text does not show the sign of a zero (`toText_unsigned`).

The digest and `new URL` are taken from the platform (`Node`).

Key definitions: `validateRecord`, `validateTombstone`, `recordKey`.
Key theorems: `get_unsigned`, `toText_unsigned`.
-/
import ZenonX402.Journal.Snapshot
import ZenonX402.Lib.Formats

namespace ZenonX402
namespace Journal

open Js
open Value (unsigned unsignedElements unsignedMembers safeInteger?)

/-- What `new URL` tells of a text. -/
structure Url where
  protocol : String
  hostname : String
  username : String
  password : String

/-- What the journal takes from the platform: SHA-256, and `new URL`, which throws on some texts. -/
structure Node where
  sha : Sha256
  url : String → Option Url

def MAX_CACHED_RESPONSE_BYTES : Nat := 64 * 1024

def MAX_EVIDENCE_BYTES : Nat := 16 * 1024

def ACCOUNT_BLOCK_FIELDS : List String :=
  ["version", "chainIdentifier", "blockType", "hash", "previousHash", "height",
    "momentumAcknowledged", "address", "toAddress", "amount", "tokenStandard", "fromBlockHash",
    "data", "fusedPlasma", "difficulty", "nonce", "publicKey",
    "signature"]

def RECORD_FIELDS : List String :=
  ["authorizationKey", "transactionHash", "chainProfile", "intentDigest", "resourceIdentity",
    "resourceDigest", "payer", "signedAccountBlock", "evidenceState", "momentumEvidence",
    "deliveryState", "cachedResponse", "createdAt",
    "updatedAt"]

def TOMBSTONE_FIELDS : List String :=
  ["authorizationKey", "transactionHash", "chainProfile", "intentDigest", "resourceDigest", "payer",
    "signedAccountBlockDigest", "priorEvidenceState", "createdAt", "terminalizedAt",
    "lateMomentumEvidence"]

def EVIDENCE_STATES : List String :=
  ["VALIDATED", "SUBMISSION_ACKNOWLEDGED", "SUBMISSION_OUTCOME_UNKNOWN", "MOMENTUM_INCLUDED"]

def DELIVERY_STATES : List String := ["NONE", "DELIVERY_PENDING", "DELIVERED"]

def TOMBSTONE_PRIOR_EVIDENCE_STATES : List String :=
  ["VALIDATED", "SUBMISSION_ACKNOWLEDGED", "SUBMISSION_OUTCOME_UNKNOWN"]

def MAX_ZENON_AMOUNT : Nat := 2 ^ 255 - 1

/-! ### Reading a value -/

/-- `value[key]` of plain data. -/
def get (value : Value) (key : String) : Value := match value with
  | .obj fs => (fs.lookup key).getD .undefined
  | _ => .undefined

def exactKeys (value : Value) (expected : List String) : Bool := match value with
  | .obj fs => decide ((fs.map Prod.fst).Perm expected)
  | _ => false

mutual

/-- The text that a pattern reads of a value: `null` and `undefined` leave none, by `?? ''` at the
top and by the rule of `join` inside an array. An object, a fraction and an integer past the safe
ones have texts too, but the patterns of this module accept none of the former, and no record that
holds one of the latter passes its copy. -/
def toText : Value → Option String
  | .null | .undefined => some ""
  | .str s => some s
  | .num n => if n.natAbs ≤ 9007199254740991 then some (String.ofList (Json.writeInt n)) else none
  | .negZero => some "0"
  | .bool true => some "true"
  | .bool false => some "false"
  | .arr [] => some ""
  | .arr (x :: xs) => do
    let first ← toText x
    let rest ← joinedText xs
    return first ++ rest
  | .obj _ | .fractional | .host => none

/-- The elements after the first, each after a comma. -/
def joinedText : List Value → Option String
  | [] => some ""
  | x :: xs => do
    let first ← toText x
    let rest ← joinedText xs
    return "," ++ first ++ rest

end

/-- `pattern.test(value ?? '')`. -/
def testText (pattern : String → Bool) (value : Value) : Bool := match toText value with
  | some text => pattern text
  | none => false

/-- A string of which `p` holds. -/
def isText (p : String → Bool) : Value → Bool
  | .str s => p s
  | _ => false

/-- A safe integer of which `p` holds. -/
def isInteger (p : Int → Bool) (value : Value) : Bool := match safeInteger? value with
  | some n => p n
  | none => false

/-- `HASH_HEX.test(value ?? '')`. -/
def isHashHex (value : Value) : Bool := testText Text.isHash value

/-- `NONCE_HEX.test(value ?? '')`. -/
def isNonceHex (value : Value) : Bool := testText (Text.allOf Text.isHexLower 16 16) value

def textLength (min max : Nat) (s : String) : Bool :=
  decide (min ≤ utf16Length s ∧ utf16Length s ≤ max)

/-- Whether `cloneJson` succeeds. -/
def clones (value : Value) (maximumBytes : Nat) : Bool := match cloneJson value maximumBytes with
  | .ok _ => true
  | .error _ => false

/-- `left < right` of two texts, turned around. -/
def notBefore (left right : Value) : Bool := match left, right with
  | .str s, .str t => decide (¬ s < t)
  | _, _ => false

def validateTimestamp (value : Value) : Bool := isText (fun s => (isoInstant? s).isSome) value

/-- The bytes of a canonical base64 text. -/
def canonicalBase64? (value : Value) : Option (List Nat) := match value with
  | .str s => match base64Bytes? s with
    | some bytes => if base64Text bytes = s then some bytes else none
    | none => none
  | _ => none

def validateCanonicalBase64 (value : Value) (expectedBytes : Nat) : Bool :=
  match canonicalBase64? value with
  | some bytes => decide (bytes.length = expectedBytes)
  | none => false

section

variable (node : Node)

/-- `sha256Hex(value) === expected`. -/
def digestIs (value expected : Value) : Bool := match sha256Hex node.sha value MAX_RECORD_BYTES with
  | .ok digest => (Value.str digest).strictEq expected
  | .error _ => false

/-! ### The resource -/

def RESOURCE_FIELDS : List String :=
  ["url", "description", "mimeType", "serviceName", "tags", "iconUrl"]

/-- A field that may be absent. -/
def optionally (p : Value → Bool) : Option Value → Bool
  | none => true
  | some value => p value

def printableAscii (s : String) : Bool := s.toList.all (fun c => ' ' ≤ c && c ≤ '~') && s ≠ ""

/-- A service name, and a tag. -/
def serviceField (s : String) : Bool := decide (utf16Length s ≤ 32) && printableAscii s

def readResourceTags : Value → Bool
  | .arr tags => decide (tags.length ≤ 5) && tags.all (isText serviceField)
  | _ => false

def isHttpUrl (url : Url) : Bool :=
  (url.protocol == "http:" || url.protocol == "https:") && url.username == "" && url.password == ""

def validateResourceUrl (s : String) : Bool :=
  s ≠ "" && utf16Length s ≤ 4096 && match node.url s with
  | some url => isHttpUrl url
  | none => false

def validateResourceIconUrl (s : String) : Bool :=
  s ≠ "" && utf16Length s ≤ 2048 && match node.url s with
  | some url => isHttpUrl url && url.hostname != ""
  | none => false

def validateResourceMimeType (s : String) : Bool :=
  decide (utf16Length s ≤ 256) && s.toList.all fun c => c != '\r' && c != '\n'

def validateResourceIdentity : Value → Bool
  | .obj fs =>
    decide (fs.map Prod.fst).Nodup
      && (fs.map Prod.fst).all (fun key => RESOURCE_FIELDS.contains key)
      && isText (validateResourceUrl node) ((fs.lookup "url").getD .undefined)
      && optionally (isText fun s => decide (utf16Length s ≤ 4096)) (fs.lookup "description")
      && optionally (isText validateResourceMimeType) (fs.lookup "mimeType")
      && optionally (isText serviceField) (fs.lookup "serviceName")
      && optionally readResourceTags (fs.lookup "tags")
      && optionally (isText (validateResourceIconUrl node)) (fs.lookup "iconUrl")
  | _ => false

/-! ### The parts of a record -/

def validateChainProfile (profile : Value) : Bool :=
  exactKeys profile ["version", "chainIdentifier", "genesisMomentumHash"]
    && (get profile "version").strictEq (.num 1)
    && isText (fun s => decide (utf16Length s ≤ 20) && Text.isPositiveDecimal s
        && decide (Nat.ofDigitChars 10 s.toList 0 ≤ 9007199254740991))
        (get profile "chainIdentifier")
    && isHashHex (get profile "genesisMomentumHash")

/-- `String(block.chainIdentifier) !== record.chainProfile.chainIdentifier`, turned around. -/
def sameChain (block record : Value) : Bool := match safeInteger? (get block "chainIdentifier") with
  | some n => (Value.str (String.ofList (Json.writeInt n))).strictEq
      (get (get record "chainProfile") "chainIdentifier")
  | none => false

/-- `Buffer.from(block.data, 'base64').toString('hex') === record.intentDigest`, the text canonical
and of 32 bytes. -/
def carriesIntent (block record : Value) : Bool := match canonicalBase64? (get block "data") with
  | some bytes => decide (bytes.length = 32) && (Value.str (hexText bytes)).strictEq
      (get record "intentDigest")
  | none => false

def validateMomentumAcknowledged (momentum : Value) : Bool :=
  exactKeys momentum ["hash", "height"] && isHashHex (get momentum "hash")
    && isInteger (fun n => decide (0 ≤ n)) (get momentum "height")

def validateAmount (s : String) : Bool :=
  decide (utf16Length s ≤ 77) && Text.isPositiveDecimal s
    && decide (Nat.ofDigitChars 10 s.toList 0 ≤ MAX_ZENON_AMOUNT)

def validateSignedAccountBlock (block record : Value) : Bool :=
  exactKeys block ACCOUNT_BLOCK_FIELDS
    && (get block "version").strictEq (.num 1) && (get block "blockType").strictEq (.num 2)
    && isInteger (fun n => decide (0 < n)) (get block "chainIdentifier") && sameChain block record
    && isHashHex (get block "hash") && (get block "hash").strictEq (get record "transactionHash")
    && isHashHex (get block "previousHash") && isHashHex (get block "fromBlockHash")
    && isInteger (fun n => decide (0 < n)) (get block "height")
    && validateMomentumAcknowledged (get block "momentumAcknowledged")
    && isText (textLength 10 128) (get block "address")
    && (get block "address").strictEq (get record "payer")
    && isText (textLength 10 128) (get block "toAddress")
    && isText validateAmount (get block "amount")
    && isText (textLength 10 128) (get block "tokenStandard")
    && carriesIntent block record
    && isInteger (fun n => decide (0 ≤ n)) (get block "fusedPlasma")
    && isInteger (fun n => decide (0 ≤ n)) (get block "difficulty")
    && isNonceHex (get block "nonce") && validateCanonicalBase64 (get block "publicKey") 32
    && validateCanonicalBase64 (get block "signature") 64

def validateConfirmationDetail (detail : Value) : Bool :=
  exactKeys detail ["numConfirmations", "momentumHeight", "momentumHash", "momentumTimestamp"]
    && isInteger (fun n => decide (1 ≤ n)) (get detail "numConfirmations")
    && isInteger (fun n => decide (1 ≤ n)) (get detail "momentumHeight")
    && isText Text.isHash (get detail "momentumHash")
    && isInteger (fun n => decide (0 ≤ n)) (get detail "momentumTimestamp")
    && clones detail MAX_EVIDENCE_BYTES

def validateMomentumEvidence (evidence : Value) : Bool :=
  exactKeys evidence ["observedAt", "confirmationDetail"]
    && validateTimestamp (get evidence "observedAt")
    && validateConfirmationDetail (get evidence "confirmationDetail")
    && clones evidence MAX_EVIDENCE_BYTES

/-- What the authorization key digests. -/
def authorizationContent (record : Value) : Value :=
  .obj [("domain", .str "zenon-x402-authorization-v1"), ("chainProfile", get record "chainProfile"),
    ("intentDigest", get record "intentDigest"), ("resourceDigest", get record "resourceDigest"),
    ("transactionHash", get record "transactionHash")]

/-- The evidence of a record fits its state. -/
def validateRecordEvidence (record : Value) : Bool :=
  if (get record "evidenceState").strictEq (.str "MOMENTUM_INCLUDED")
  then validateMomentumEvidence (get record "momentumEvidence")
  else (get record "momentumEvidence").strictEq .null

/-- Delivery follows inclusion, and a response is kept with it. -/
def validateRecordDelivery (record : Value) : Bool :=
  ((get record "deliveryState").strictEq (.str "NONE") || (get record "evidenceState").strictEq
    (.str "MOMENTUM_INCLUDED"))
    && if (get record "deliveryState").strictEq (.str "DELIVERED")
      then clones (get record "cachedResponse") MAX_CACHED_RESPONSE_BYTES
      else (get record "cachedResponse").strictEq .null

def validateRecord (record : Value) : Bool :=
  exactKeys record RECORD_FIELDS
    && isHashHex (get record "authorizationKey") && isHashHex (get record "transactionHash")
    && isHashHex (get record "intentDigest") && isHashHex (get record "resourceDigest")
    && validateChainProfile (get record "chainProfile")
    && validateResourceIdentity node (get record "resourceIdentity")
    && digestIs node (get record "resourceIdentity") (get record "resourceDigest")
    && digestIs node (authorizationContent record) (get record "authorizationKey")
    && isText (textLength 10 128) (get record "payer")
    && validateSignedAccountBlock (get record "signedAccountBlock") record
    && isText (fun s => EVIDENCE_STATES.contains s) (get record "evidenceState")
    && isText (fun s => DELIVERY_STATES.contains s) (get record "deliveryState")
    && validateTimestamp (get record "createdAt") && validateTimestamp (get record "updatedAt")
    && notBefore (get record "updatedAt") (get record "createdAt")
    && validateRecordEvidence record && validateRecordDelivery record
    && clones record MAX_RECORD_BYTES

/-- The late evidence of a tombstone, if it has any. -/
def validateLateMomentumEvidence (tombstone : Value) : Bool :=
  (get tombstone "lateMomentumEvidence").strictEq .null
    || validateMomentumEvidence (get tombstone "lateMomentumEvidence")
      && notBefore (get (get tombstone "lateMomentumEvidence") "observedAt")
      (get tombstone "terminalizedAt")

def validateTombstone (tombstone : Value) : Bool :=
  exactKeys tombstone TOMBSTONE_FIELDS
    && isHashHex (get tombstone "authorizationKey") && isHashHex (get tombstone "transactionHash")
    && isHashHex (get tombstone "intentDigest") && isHashHex (get tombstone "resourceDigest")
    && isHashHex (get tombstone "signedAccountBlockDigest")
    && validateChainProfile (get tombstone "chainProfile")
    && digestIs node (authorizationContent tombstone) (get tombstone "authorizationKey")
    && isText (textLength 10 128) (get tombstone "payer")
    && isText (fun s => TOMBSTONE_PRIOR_EVIDENCE_STATES.contains s)
    (get tombstone "priorEvidenceState")
    && validateTimestamp (get tombstone "createdAt")
    && validateTimestamp (get tombstone "terminalizedAt")
    && notBefore (get tombstone "terminalizedAt") (get tombstone "createdAt")
    && validateLateMomentumEvidence tombstone
    && clones tombstone MAX_RECORD_BYTES

end

def recordKey (authorizationKey transactionHash : Value) : Except JournalError String := do
  rejectIf (isHashHex authorizationKey = false ∨ isHashHex transactionHash = false)
    .journalRecordInvalid
  return (toText authorizationKey).getD "" ++ ":" ++ (toText transactionHash).getD ""

/-! ### The sign of zero -/

theorem get_unsigned (v : Value) (key : String) : get v.unsigned key = (get v key).unsigned := by
  cases v <;> try rfl
  rename_i fs
  rw [unsigned, get, get, Value.unsignedMembers_lookup]
  cases fs.lookup key <;> rfl

theorem exactKeys_unsigned (v : Value) (expected : List String) :
    exactKeys v.unsigned expected = exactKeys v expected := by
  cases v <;> try rfl
  rw [unsigned, exactKeys, exactKeys, Value.unsignedMembers_keys]

mutual

theorem toText_unsigned : ∀ v : Value, toText v.unsigned = toText v
  | .arr [] => rfl
  | .arr (x :: xs) => by
    rw [unsigned, unsignedElements, toText, toText, toText_unsigned x, joinedText_unsigned xs]
  | .negZero => by
    have hzero : String.ofList (Json.writeInt 0) = "0" := by decide
    rw [unsigned, toText, toText, hzero]
    rfl
  | .null | .undefined | .str _ | .num _ | .bool _ | .obj _ | .fractional | .host => by
    simp only [unsigned, toText]

theorem joinedText_unsigned : ∀ xs : List Value, joinedText (unsignedElements xs) = joinedText xs
  | [] => rfl
  | x :: xs => by rw [unsignedElements, joinedText, joinedText, toText_unsigned x,
      joinedText_unsigned xs]

end

/-- Comparing with a value that has no zero in it. -/
theorem strictEq_unsigned_left (v : Value) {w : Value} (hw : w.unsigned = w) :
    v.unsigned.strictEq w = v.strictEq w := by
  have h := Value.strictEq_unsigned v w
  rwa [hw] at h

end Journal
end ZenonX402
