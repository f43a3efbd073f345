/-
# Payments on the wire

The objects that a resource server and a buyer exchange, as JSON in base64 headers, and
the checks that both make of them: of a requirement (`snapshotRequirement`), of a
resource, of a challenge and of a payment. What is checked has come out of JSON, so no
object has an accessor or a prototype of its own and none changes while it is read; the
checks of descriptors have nothing to find and are left out.

A value that was encoded is decoded again (`decodeB64Json_encodeB64Json`). Two
requirements that are the same, and two resources, are the same data
(`same_of_sameRequirements`, `same_of_sameResource`).

Key definitions: `encodeB64Json`, `decodeB64Json`, `sameRequirements`, `sameResource`,
`validatePaymentPayloadEnvelope`, `validatePaymentPayloadStructure`, `makePaymentRequired`.
Key theorems: `decodeB64Json_encodeB64Json`, `same_of_sameRequirements`, `same_of_sameResource`.
-/
import ZenonX402.Lib.Parsed
import ZenonX402.Resource.CachedResponse

namespace ZenonX402
namespace Resource

open Js
open Journal (get isText Node optionally readResourceTags serviceField validateResourceUrl
  validateResourceIconUrl validateResourceMimeType validateResourceIdentity isPrototypeKey)
open Value (Same safeInteger? strictEq)

def X402_VERSION : Int := 2

def MAX_SETTLEMENT_TIMEOUT_SECONDS : Int := 300

def MAX_X402_HEADER_ENCODED_BYTES : Nat := 8 * 1024

def EXPERIMENTAL_LIVE_NETWORK : String := "zenon:testnet"

def MOCK_NETWORK : String := "zenon:mock"

def REQUIREMENT_FIELDS : List String :=
  ["scheme", "network", "asset", "amount", "payTo", "maxTimeoutSeconds", "extra"]

def REQUIREMENT_EXTRA_FIELDS : List String := ["poc", "settlement", "zenonChain"]

def REQUIREMENT_EXTRA_OPTIONAL_FIELDS : List String :=
  ["paymentFlow", "minimumMomentumConfirmations"]

def CHAIN_PROFILE_FIELDS : List String := ["version", "chainIdentifier", "genesisMomentumHash"]

def PAYMENT_REQUIRED_FIELDS : List String := ["x402Version", "resource", "accepts"]

def PAYMENT_PAYLOAD_FIELDS : List String := ["x402Version", "resource", "accepted", "payload"]

def INNER_PAYMENT_PAYLOAD_FIELDS : List String := ["transaction", "intentDigest"]

def BASE_REQUIREMENT_FIELDS : List String :=
  ["scheme", "network", "asset", "amount", "payTo", "maxTimeoutSeconds"]

/-! ### Headers -/

/-- A JSON text in base64, if it is not too long. -/
def encodeB64Text (json : String) (maxEncodedBytes : Nat) : Option String :=
  let encoded := base64Text (utf8Bytes json)
  if utf16Length encoded ≤ maxEncodedBytes then some encoded else none

def encodeB64Json (value : Value) (maxEncodedBytes : Nat) : Option String :=
  encodeB64Text (stringify value) maxEncodedBytes

def isObject : Value → Bool
  | .obj _ => true
  | _ => false

/-- What `TextDecoder` leaves of a text: a byte order mark at its start is dropped. -/
def withoutMark (s : String) : String := match s.toList with
  | '\ufeff' :: cs => String.ofList cs
  | _ => s

def decodeB64Json (value : String) (maxDecodedBytes maxEncodedBytes : Nat) : Option Value := do
  guard (value ≠ "")
  guard (utf16Length value ≤ maxEncodedBytes ∧ value.utf8ByteSize ≤ maxEncodedBytes)
  let decoded ← base64Bytes? value
  guard (base64Text decoded = value)
  guard (decoded.length ≤ maxDecodedBytes)
  let json ← utf8Text? decoded
  let parsed ← parse (withoutMark json)
  guard (isObject parsed = true)
  return parsed

def encodeX402Header (value : Value) : Option String :=
  encodeB64Json value MAX_X402_HEADER_ENCODED_BYTES

def decodeX402Header (value : String) : Option Value :=
  decodeB64Json value MAX_X402_HEADER_ENCODED_BYTES MAX_X402_HEADER_ENCODED_BYTES

/-! ### Reading objects -/

def hasOwn (value : Value) (key : String) : Bool := match value with
  | .obj fs => (fs.lookup key).isSome
  | _ => false

/-- An object with all of the required fields, and no field that is neither required nor optional.
-/
def assertExactKeys (value : Value) (required optional : List String) : Bool := match value with
  | .obj fs => (fs.map Prod.fst).all (fun key => (required ++ optional).contains key)
      && required.all fun key => (fs.lookup key).isSome
  | _ => false

/-- A string with something in it. -/
def isNonEmptyText (value : Value) : Bool := isText (fun s => s ≠ "") value

def isNamespaced (s : String) : Bool := decide (3 ≤ utf16Length s) && s.toList.contains ':'

def isUnsignedDecimal (s : String) : Bool := s == "0" || Text.isPositiveDecimal s

/-- What the checks ask about numbers that are not integers: whether they are all finite, and
whether the timeout is finite and positive. -/
structure Fractions where
  finite : Bool
  positive : Bool

def isFinite (finite : Bool) : Value → Bool
  | .num _ | .negZero => true
  | .fractional => finite
  | _ => false

def isFinitePositive (positive : Bool) : Value → Bool
  | .num n => decide (0 < n)
  | .fractional => positive
  | _ => false

mutual

/-- `validateJsonValue`, with `finite` for numbers that may be other than safe integers. -/
def validateJsonValue (finite : Bool) (requireSafeIntegers : Bool) (depth : Nat) : Value → Bool
  | .null | .str _ | .bool _ | .negZero => decide (depth ≤ MAX_JSON_DEPTH)
  | .num n => decide (depth ≤ MAX_JSON_DEPTH)
      && (!requireSafeIntegers || decide (n.natAbs ≤ 9007199254740991))
  | .fractional => decide (depth ≤ MAX_JSON_DEPTH) && finite && !requireSafeIntegers
  | .arr xs => decide (depth ≤ MAX_JSON_DEPTH)
      && validateJsonElements finite requireSafeIntegers depth xs
  | .obj fs => decide (depth ≤ MAX_JSON_DEPTH)
      && validateJsonMembers finite requireSafeIntegers depth fs
  | .undefined | .host => false

def validateJsonElements (finite : Bool) (requireSafeIntegers : Bool) (depth : Nat) :
    List Value → Bool
  | [] => true
  | x :: xs => validateJsonValue finite requireSafeIntegers (depth + 1) x
      && validateJsonElements finite requireSafeIntegers depth xs

def validateJsonMembers (finite : Bool) (requireSafeIntegers : Bool) (depth : Nat) :
    List (String × Value) → Bool
  | [] => true
  | (key, x) :: fs => !isPrototypeKey key
      && validateJsonValue finite requireSafeIntegers (depth + 1) x
      && validateJsonMembers finite requireSafeIntegers depth fs

end

/-! ### Requirements -/

def validateCanonicalZenonAmount (value : Value) : Bool :=
  isText (fun s => Text.isPositiveDecimal s
    && decide (Nat.ofDigitChars 10 s.toList 0 ≤ Journal.MAX_ZENON_AMOUNT)) value

def validateZenonChainProfileSnapshot (profile : Value) : Bool :=
  (get profile "version").strictEq (.num 1)
    && isText (fun s => decide (utf16Length s ≤ 20) && Text.isPositiveDecimal s
        && decide (Nat.ofDigitChars 10 s.toList 0 ≤ 9007199254740991))
        (get profile "chainIdentifier")
    && isText Text.isHash (get profile "genesisMomentumHash")

def MOCK_ZENON_CHAIN_PROFILE : Value :=
  .obj [("version", .num 1), ("chainIdentifier", .str "9007199254740991"),
    ("genesisMomentumHash", .str (String.ofList (List.replicate 64 '0')))]

def sameChainProfile (a b : Value) : Bool :=
  CHAIN_PROFILE_FIELDS.all fun key => (get a key).strictEq (get b key)

/-- The fields of a requirement, as read. -/
def validateRequirementSnapshot (req : Value) (requireActive : Bool) : Bool :=
  let extra := get req "extra"
  let chain := get extra "zenonChain"
  let isMock := (get req "network").strictEq (.str MOCK_NETWORK)
  let isSyntheticMock := sameChainProfile chain MOCK_ZENON_CHAIN_PROFILE
  let minimum := get extra "minimumMomentumConfirmations"
  ["scheme", "network", "asset", "amount", "payTo"].all (fun key => isNonEmptyText (get req key))
    && isText (fun s => decide (utf16Length s ≤ 128)) (get req "asset")
    && isText (fun s => decide (utf16Length s ≤ 128)) (get req "payTo")
    && isText (fun s => decide (utf16Length s ≤ 77)) (get req "amount")
    && (get req "scheme").strictEq (.str "exact")
    && (isMock || (get req "network").strictEq (.str EXPERIMENTAL_LIVE_NETWORK))
    && validateCanonicalZenonAmount (get req "amount")
    && Journal.isInteger (fun n => decide (0 < n ∧ n ≤ MAX_SETTLEMENT_TIMEOUT_SECONDS))
    (get req "maxTimeoutSeconds")
    && (get extra "poc").strictEq (.bool true)
    && (get extra "settlement").strictEq (.str "account-block")
    && (!hasOwn extra "paymentFlow" || (get extra "paymentFlow").strictEq (.str "upfront"))
    && (!requireActive || hasOwn extra "paymentFlow")
    && validateZenonChainProfileSnapshot chain
    && (!isMock || isSyntheticMock)
    && (isMock || !isSyntheticMock
      && !(get chain "genesisMomentumHash").strictEq
      (get MOCK_ZENON_CHAIN_PROFILE "genesisMomentumHash"))
    && (!(isMock && hasOwn extra "minimumMomentumConfirmations"))
    && (isMock || !hasOwn extra "minimumMomentumConfirmations"
      || Journal.isInteger (fun n => decide (2 ≤ n ∧ n ≤ 30)) minimum)

/-- The field of an object, as a list of it, if the object has it. -/
def ownField (value : Value) (key : String) : List (String × Value) :=
  if hasOwn value key then [(key, get value key)] else []

def chainSnapshot (chain : Value) : Value :=
  .obj [("version", get chain "version"), ("chainIdentifier", get chain "chainIdentifier"),
    ("genesisMomentumHash", get chain "genesisMomentumHash")]

def extraSnapshot (extra : Value) : Value :=
  .obj (ownField extra "paymentFlow"
    ++ [("poc", get extra "poc"), ("settlement", get extra "settlement"),
      ("zenonChain", chainSnapshot (get extra "zenonChain"))]
        ++ ownField extra "minimumMomentumConfirmations")

def snapshotRequirement (requirement : Value) (requireActive : Bool) : Option Value := do
  guard (assertExactKeys requirement REQUIREMENT_FIELDS [] = true)
  guard (assertExactKeys (get requirement "extra") REQUIREMENT_EXTRA_FIELDS
    REQUIREMENT_EXTRA_OPTIONAL_FIELDS = true)
  guard (assertExactKeys (get (get requirement "extra") "zenonChain") CHAIN_PROFILE_FIELDS
    [] = true)
  let snapshot := Value.obj [("scheme", get requirement "scheme"),
    ("network", get requirement "network"), ("asset", get requirement "asset"),
    ("amount", get requirement "amount"), ("payTo", get requirement "payTo"),
    ("maxTimeoutSeconds", get requirement "maxTimeoutSeconds"),
    ("extra", extraSnapshot (get requirement "extra"))]
  guard (validateRequirementSnapshot snapshot requireActive = true)
  return snapshot

def validateRequirement (requirement : Value) : Bool :=
  (snapshotRequirement requirement false).isSome

def snapshotActiveUpfrontRequirement (requirement : Value) : Option Value :=
  snapshotRequirement requirement true

def validateActiveUpfrontRequirement (requirement : Value) : Bool :=
  (snapshotActiveUpfrontRequirement requirement).isSome

/-- A field that both objects have, with one value, or neither has. -/
def sameOptional (key : String) (left right : Value) : Bool :=
  hasOwn left key == hasOwn right key
    && (!hasOwn left key || (get left key).strictEq (get right key))

def sameRequirements (a b : Value) : Bool :=
  match snapshotRequirement a false, snapshotRequirement b false with
  | some left, some right =>
    let leftExtra := get left "extra"
    let rightExtra := get right "extra"
    BASE_REQUIREMENT_FIELDS.all (fun key => (get left key).strictEq (get right key))
      && (get leftExtra "poc").strictEq (get rightExtra "poc")
      && (get leftExtra "settlement").strictEq (get rightExtra "settlement")
      && sameOptional "paymentFlow" leftExtra rightExtra
      && sameOptional "minimumMomentumConfirmations" leftExtra rightExtra
      && sameChainProfile (get leftExtra "zenonChain") (get rightExtra "zenonChain")
  | _, _ => false

/-! ### Resources -/

/-- The tags of two valid resources. -/
def sameTags (left right : Value) : Bool := match get left "tags", get right "tags" with
  | .arr xs, .arr ys => decide (xs.length = ys.length) && (xs.zip ys).all fun p => p.1.strictEq p.2
  | _, _ => false

section

variable (node : Node)

def sameResource (left right : Value) : Bool :=
  validateResourceIdentity node left && validateResourceIdentity node right
    && (get left "url").strictEq (get right "url")
    && sameOptional "description" left right && sameOptional "mimeType" left right
    && sameOptional "serviceName" left right && sameOptional "iconUrl" left right
    && hasOwn left "tags" == hasOwn right "tags" && (!hasOwn left "tags" || sameTags left right)

/-! ### Challenges -/

/-- Extensions are absent, or an object with nothing in it. -/
def validateEmptyExtensionsProperty (value : Value) : Bool :=
  !hasOwn value "extensions" || match get value "extensions" with
    | .obj fs => fs.isEmpty
    | _ => false

def validatePaymentRequiredOuter (paymentRequired : Value) : Bool :=
  assertExactKeys paymentRequired PAYMENT_REQUIRED_FIELDS ["error", "extensions"]
    && validateEmptyExtensionsProperty paymentRequired
    && (get paymentRequired "x402Version").strictEq (.num X402_VERSION)
    && validateResourceIdentity node (get paymentRequired "resource")
    && (match get paymentRequired "accepts" with
      | .arr accepts => !accepts.isEmpty
      | _ => false)
    && (!hasOwn paymentRequired "error" || isText (fun _ => true) (get paymentRequired "error"))

/-- The offers of a challenge. -/
def offers (paymentRequired : Value) : List Value := match get paymentRequired "accepts" with
  | .arr accepts => accepts
  | _ => []

def validatePaymentRequired (paymentRequired : Value) : Bool :=
  validatePaymentRequiredOuter node paymentRequired
    && (offers paymentRequired).all validateRequirement

def validateBasePaymentRequirement (positive : Bool) (req : Value) : Bool :=
  assertExactKeys req BASE_REQUIREMENT_FIELDS ["extra"]
    && ["scheme", "network", "asset", "amount", "payTo"].all
    (fun key => isNonEmptyText (get req key))
    && isText isNamespaced (get req "network")
    && isFinitePositive positive (get req "maxTimeoutSeconds")
    && (!hasOwn req "extra" || (get req "extra").strictEq .null || isObject (get req "extra"))

/-- `positive` tells of every offer whether its timeout is positive, if that is not an integer. -/
def validatePaymentRequiredForOfferSelection (positive : Nat → Bool)
    (paymentRequired : Value) : Bool :=
  validatePaymentRequiredOuter node paymentRequired
    && (offers paymentRequired).zipIdx.all fun p => validateBasePaymentRequirement
    (positive p.2) p.1

/-- The challenge of a server, if it is one that the server itself accepts. -/
def makePaymentRequired (resourceUrl description mimeType : String) (requirement : Value) :
    Option Value :=
  let result := Value.obj [("x402Version", .num X402_VERSION),
    ("resource", .obj [("url", .str resourceUrl), ("description", .str description),
      ("mimeType", .str mimeType)]),
    ("accepts", .arr [requirement])]
  if validatePaymentRequired node result = true then some result else none

/-! ### Payments -/

def validatePaymentPayloadEnvelope (paymentPayload : Value) : Bool :=
  let payload := get paymentPayload "payload"
  assertExactKeys paymentPayload PAYMENT_PAYLOAD_FIELDS ["extensions"]
    && validateEmptyExtensionsProperty paymentPayload
    && (get paymentPayload "x402Version").strictEq (.num X402_VERSION)
    && validateResourceIdentity node (get paymentPayload "resource")
    && validateRequirement (get paymentPayload "accepted")
    && assertExactKeys payload INNER_PAYMENT_PAYLOAD_FIELDS []
    && isObject (get payload "transaction")
    && isText Text.isHash (get payload "intentDigest")

end

/-- A field that may be absent or `null`. -/
def nullable (p : Value → Bool) (value : Value) (key : String) : Bool :=
  !hasOwn value key || (get value key).strictEq .null || p (get value key)

def validateStableResourceStructure (resource : Value) : Bool :=
  isObject resource && hasOwn resource "url" && isNonEmptyText (get resource "url")
    && nullable (isText fun _ => true) resource "description"
    && nullable (isText fun _ => true) resource "mimeType"
    && nullable (isText serviceField) resource "serviceName"
    && nullable readResourceTags resource "tags"
    && nullable (isText fun s => decide (utf16Length s ≤ 2048)) resource "iconUrl"

def validateStableRequirementStructure (positive : Bool) (requirement : Value) : Bool :=
  isObject requirement && BASE_REQUIREMENT_FIELDS.all (hasOwn requirement)
    && ["scheme", "network", "asset", "amount", "payTo"].all
    (fun key => isNonEmptyText (get requirement key))
    && isText isNamespaced (get requirement "network")
    && isFinitePositive positive (get requirement "maxTimeoutSeconds")
    && nullable isObject requirement "extra"

def validateLocalZenonRequirementStructure (requirement : Value) : Bool :=
  let extra := get requirement "extra"
  let profile := get extra "zenonChain"
  isText isUnsignedDecimal (get requirement "amount") && isObject extra
    && hasOwn extra "poc" && hasOwn extra "settlement" && hasOwn extra "zenonChain"
    && (match get extra "poc" with
      | .bool _ => true
      | _ => false)
    && isText (fun _ => true) (get extra "settlement") && isObject profile
    && (safeInteger? (get profile "version")).isSome
    && isText isUnsignedDecimal (get profile "chainIdentifier")
    && isText Text.isHash (get profile "genesisMomentumHash")

def validatePaymentPayloadStructure (fractions : Fractions) (paymentPayload : Value) : Bool :=
  let accepted := get paymentPayload "accepted"
  let payload := get paymentPayload "payload"
  let declaredLocalRoute := (get accepted "scheme").strictEq (.str "exact")
    && ((get accepted "network").strictEq (.str MOCK_NETWORK)
      || (get accepted "network").strictEq (.str EXPERIMENTAL_LIVE_NETWORK))
  isObject paymentPayload && isFinite fractions.finite (get paymentPayload "x402Version")
    && (!(get paymentPayload "x402Version").strictEq (.num X402_VERSION)
      || hasOwn paymentPayload "accepted" && hasOwn paymentPayload "payload"
        && validateStableRequirementStructure fractions.positive accepted && isObject payload
        && nullable validateStableResourceStructure paymentPayload "resource"
        && nullable isObject paymentPayload "extensions"
        && (!declaredLocalRoute || validateLocalZenonRequirementStructure accepted
          && hasOwn payload "transaction" && hasOwn payload "intentDigest"
          && isObject (get payload "transaction")
          && isText Text.isHash (get payload "intentDigest")))

/-! ### What is encoded is decoded -/

theorem encodeB64Text_some {json text : String} {maxEncodedBytes : Nat} :
    encodeB64Text json maxEncodedBytes = some text ↔
      (json.utf8ByteSize + 2) / 3 * 4 ≤ maxEncodedBytes ∧ base64Text (utf8Bytes json) = text := by
  have hsize := (size_base64Text (utf8Bytes_lt json)).2
  rw [length_utf8Bytes] at hsize
  unfold encodeB64Text
  dsimp only
  rw [hsize]
  split
  · next h => simp [h]
  · next h => simp [h]

/-- What is decoded of an encoded text is what it says, if that is an object and not too long. -/
theorem decodeB64Json_of_encoded {json text : String} {maxDecodedBytes maxEncodedBytes : Nat}
    (hjson : json ≠ "") (hdecoded : json.utf8ByteSize ≤ maxDecodedBytes)
    (h : encodeB64Text json maxEncodedBytes = some text) :
    decodeB64Json text maxDecodedBytes maxEncodedBytes
      = (parse (withoutMark json)).filter isObject := by
  obtain ⟨hle, rfl⟩ := encodeB64Text_some.mp h
  obtain ⟨h8, h16⟩ := size_base64Text (utf8Bytes_lt json)
  rw [length_utf8Bytes] at h8 h16
  have hpos : json.utf8ByteSize ≠ 0 := fun h => hjson (String.utf8ByteSize_eq_zero_iff.mp h)
  have hne : base64Text (utf8Bytes json) ≠ "" := by
    intro h
    rw [h] at h8
    have hzero : ("" : String).utf8ByteSize = 0 := rfl
    omega
  have hbytes : (utf8Bytes json).length ≤ maxDecodedBytes := by
    rw [length_utf8Bytes]
    exact hdecoded
  have hboth : utf16Length (base64Text (utf8Bytes json)) ≤ maxEncodedBytes
      ∧ (base64Text (utf8Bytes json)).utf8ByteSize ≤ maxEncodedBytes := by omega
  simp only [decodeB64Json, guard, hne, ne_eq, not_false_eq_true, if_true, hboth, and_self,
    Option.pure_def, Option.bind_eq_bind, Option.bind_some,
    base64Bytes?_base64Text (utf8Bytes_lt json), hbytes, utf8Text?_utf8Bytes]
  cases parse (withoutMark json) with
  | none => rfl
  | some v =>
    simp only [Option.bind_some, Option.filter_some]
    split <;> simp_all

theorem decodeB64Json_encodeB64Text {json text : String} {maxEncodedBytes : Nat} (hjson : json ≠ "")
    (h : encodeB64Text json maxEncodedBytes = some text) :
    decodeB64Json text maxEncodedBytes maxEncodedBytes
      = (parse (withoutMark json)).filter isObject :=
  decodeB64Json_of_encoded hjson (by have := (encodeB64Text_some.mp h).1; omega) h

theorem withoutMark_object {fs : List (String × Value)} :
    withoutMark (stringify (.obj fs)) = stringify (.obj fs) := by
  have hhead : ∃ cs, (stringify (.obj fs)).toList = '\x7b' :: cs := by
    rw [stringify, String.toList_ofList]
    rcases fs with _ | ⟨⟨k, v⟩, fs⟩
    · exact ⟨_, rfl⟩
    · exact ⟨_, rfl⟩
  obtain ⟨cs, hcs⟩ := hhead
  unfold withoutMark
  rw [hcs]
  rfl

theorem decodeB64Json_of_object {v : Value} {text : String} {maxDecodedBytes maxEncodedBytes : Nat}
    (hv : v.Json) (hobject : isObject v = true) (hdecoded : Value.textSize v ≤ maxDecodedBytes)
    (h : encodeB64Json v maxEncodedBytes = some text) :
    decodeB64Json text maxDecodedBytes maxEncodedBytes = some v := by
  cases v with
  | obj fs =>
    have hsize := Value.size_stringify (.obj fs)
    have hne : stringify (.obj fs) ≠ "" := by
      intro hempty
      have hone := Value.one_le_textSize (.obj fs)
      rw [hempty] at hsize
      have hzero : ("" : String).utf8ByteSize = 0 := rfl
      omega
    rw [decodeB64Json_of_encoded hne (hsize.trans_le hdecoded) h, withoutMark_object,
      parse_stringify hv]
    rfl
  | _ => cases hobject

theorem decodeB64Json_encodeB64Json {v : Value} {text : String} {maxEncodedBytes : Nat}
    (hv : v.Json) (hobject : isObject v = true) (h : encodeB64Json v maxEncodedBytes = some text) :
    decodeB64Json text maxEncodedBytes maxEncodedBytes = some v := by
  have hsize := (encodeB64Text_some.mp h).1
  rw [Value.size_stringify] at hsize
  exact decodeB64Json_of_object hv hobject (by omega) h

theorem encodeB64Json_isSome (v : Value) (maxEncodedBytes : Nat) :
    (∃ text, encodeB64Json v maxEncodedBytes = some text) ↔ (Value.textSize v + 2) / 3 * 4
      ≤ maxEncodedBytes := by
  simp only [encodeB64Json, encodeB64Text_some, Value.size_stringify]
  exact ⟨fun ⟨_, h, _⟩ => h, fun h => ⟨_, h, rfl⟩⟩

/-! ### What is the same -/

theorem hasOwn_obj (fs : List (String × Value)) (key : String) :
    hasOwn (.obj fs) key = (fs.lookup key).isSome := rfl

theorem get_obj (fs : List (String × Value)) (key : String) :
    get (.obj fs) key = (fs.lookup key).getD .undefined := rfl

theorem lookup_eq {fs : List (String × Value)} (key : String) :
    fs.lookup key = if hasOwn (.obj fs) key = true then some (get (.obj fs) key) else none := by
  cases h : fs.lookup key with
  | none => simp [hasOwn, h]
  | some v => simp [hasOwn, Journal.get, h]

theorem same_of_strictEq {v w : Value} (h : v.strictEq w = true) : Same v w := by
  cases v with
  | num a =>
    cases w with
    | num b =>
      have heq : a = b := by simpa [strictEq] using h
      rw [heq]
      exact .refl _
    | negZero =>
      have heq : a = 0 := by simpa [strictEq] using h
      rw [heq]
      rfl
    | _ => cases h
  | negZero =>
    cases w with
    | num b =>
      have heq : b = 0 := by simpa [strictEq] using h
      rw [heq]
      rfl
    | negZero => exact .refl _
    | _ => cases h
  | _ =>
    cases w <;> simp_all [strictEq, Same]

/-- Two objects of the same fields, which hold the same data. -/
theorem same_of_fields {a b : Value} {required optional : List String} (ha : a.Parsed)
    (hb : b.Parsed) (hkeysA : assertExactKeys a required optional = true)
    (hkeysB : assertExactKeys b required optional = true)
    (hrequired : ∀ key ∈ required, Same (get a key) (get b key))
    (hoptional : ∀ key ∈ optional, hasOwn a key = hasOwn b key
      ∧ (hasOwn a key = true → Same (get a key) (get b key))) :
    Same a b := by
  cases a with
  | obj fs =>
    cases b with
    | obj gs =>
      cases ha with
      | obj hf _ =>
        cases hb with
        | obj hg _ =>
          simp only [assertExactKeys, Bool.and_eq_true, List.all_eq_true,
            List.contains_iff_mem] at hkeysA hkeysB
          refine Value.same_obj_of_lookup hf hg fun key => ?_
          by_cases hreq : key ∈ required
          · obtain ⟨v, hv⟩ := Option.isSome_iff_exists.mp (hkeysA.2 key hreq)
            obtain ⟨w, hw⟩ := Option.isSome_iff_exists.mp (hkeysB.2 key hreq)
            have hsame := hrequired key hreq
            simp only [Journal.get, hv, hw, Option.getD_some] at hsame
            rw [hv, hw, Option.map_some, Option.map_some, hsame]
          by_cases hopt : key ∈ optional
          · obtain ⟨hown, hsame⟩ := hoptional key hopt
            rw [lookup_eq, lookup_eq, ← hown]
            split
            · next h => rw [Option.map_some, Option.map_some, hsame h]
            · rfl
          · have hnone {hs : List (String × Value)} (hkeys : ∀ k ∈ hs.map Prod.fst, k ∈ required
                ++ optional) :
                hs.lookup key = none := by
              refine Value.lookup_of_notMem fun hmem => ?_
              rcases List.mem_append.mp (hkeys key hmem) with h | h
              · exact hreq h
              · exact hopt h
            rw [hnone hkeysA.1, hnone hkeysB.1]
    | _ => cases hkeysB
  | _ => cases hkeysA

theorem parsed_get {v : Value} (h : v.Parsed) {key : String} (hown : hasOwn v key = true) :
    (get v key).Parsed := by
  cases h with
  | @obj fs hn hfs =>
    obtain ⟨w, hw⟩ := Option.isSome_iff_exists.mp (show (fs.lookup key).isSome = true from hown)
    simp only [Journal.get, hw, Option.getD_some]
    exact hfs (key, w) ((Value.mem_iff_lookup key w hn).mpr hw)
  | _ => cases hown

theorem hasOwn_of_required {v : Value} {required optional : List String} {key : String}
    (h : assertExactKeys v required optional = true) (hkey : key ∈ required) :
    hasOwn v key = true := by
  cases v with
  | obj fs =>
    simp only [assertExactKeys, Bool.and_eq_true, List.all_eq_true] at h
    exact h.2 key hkey
  | _ => cases h

/-- What a requirement that was read has in its fields. -/
theorem snapshotRequirement_some {requirement snapshot : Value} {requireActive : Bool}
    (h : snapshotRequirement requirement requireActive = some snapshot) :
    assertExactKeys requirement REQUIREMENT_FIELDS [] = true
      ∧ assertExactKeys (get requirement "extra") REQUIREMENT_EXTRA_FIELDS
      REQUIREMENT_EXTRA_OPTIONAL_FIELDS = true
      ∧ assertExactKeys (get (get requirement "extra") "zenonChain") CHAIN_PROFILE_FIELDS [] = true
      ∧ validateRequirementSnapshot snapshot requireActive = true
      ∧ (∀ key ∈ BASE_REQUIREMENT_FIELDS, get snapshot key = get requirement key)
      ∧ get snapshot "extra" = extraSnapshot (get requirement "extra") := by
  simp only [snapshotRequirement, Option.bind_eq_bind, Option.bind_eq_some_iff, guard_some,
    Option.pure_def, Option.some.injEq] at h
  obtain ⟨_, h1, _, h2, _, h3, _, h4, rfl⟩ := h
  refine ⟨h1, h2, h3, h4, ?_, rfl⟩
  intro key hkey
  simp only [BASE_REQUIREMENT_FIELDS, List.mem_cons, List.not_mem_nil, or_false] at hkey
  rcases hkey with rfl | rfl | rfl | rfl | rfl | rfl <;> rfl

theorem get_extraSnapshot (extra : Value) : get (extraSnapshot extra) "poc" = get extra "poc"
    ∧ get (extraSnapshot extra) "settlement" = get extra "settlement"
    ∧ get (extraSnapshot extra) "zenonChain" = chainSnapshot (get extra "zenonChain") := by
  unfold extraSnapshot ownField
  split <;> split <;> exact ⟨rfl, rfl, rfl⟩

theorem own_extraSnapshot (extra : Value) {key : String}
    (hkey : key ∈ REQUIREMENT_EXTRA_OPTIONAL_FIELDS) :
    hasOwn (extraSnapshot extra) key = hasOwn extra key
      ∧ (hasOwn extra key = true → get (extraSnapshot extra) key = get extra key) := by
  simp only [REQUIREMENT_EXTRA_OPTIONAL_FIELDS, List.mem_cons, List.not_mem_nil, or_false] at hkey
  cases hflow : hasOwn extra "paymentFlow" with
  | false =>
    cases hminimum : hasOwn extra "minimumMomentumConfirmations" with
    | false => rcases hkey with rfl | rfl <;>
        simp [extraSnapshot, ownField, hflow, hminimum, hasOwn_obj, List.lookup_cons]
    | true =>
      rcases hkey with rfl | rfl <;>
        simp [extraSnapshot, ownField, hflow, hminimum, hasOwn_obj, get_obj, List.lookup_cons]
  | true =>
    cases hminimum : hasOwn extra "minimumMomentumConfirmations" with
    | false =>
      rcases hkey with rfl | rfl <;>
        simp [extraSnapshot, ownField, hflow, hminimum, hasOwn_obj, get_obj, List.lookup_cons]
    | true =>
      rcases hkey with rfl | rfl <;>
        simp [extraSnapshot, ownField, hflow, hminimum, hasOwn_obj, get_obj, List.lookup_cons]

theorem get_chainSnapshot (chain : Value) {key : String} (hkey : key ∈ CHAIN_PROFILE_FIELDS) :
    get (chainSnapshot chain) key = get chain key := by
  simp only [CHAIN_PROFILE_FIELDS, List.mem_cons, List.not_mem_nil, or_false] at hkey
  rcases hkey with rfl | rfl | rfl <;> rfl

/-- Requirements that are the same hold the same data. -/
theorem same_of_sameRequirements {a b : Value} (ha : a.Parsed) (hb : b.Parsed)
    (h : sameRequirements a b = true) : Same a b := by
  unfold sameRequirements at h
  split at h
  · next left right hleft hright =>
    obtain ⟨hkeysA, hextraA, hchainA, _, hgetA, hgetExtraA⟩ := snapshotRequirement_some hleft
    obtain ⟨hkeysB, hextraB, hchainB, _, hgetB, hgetExtraB⟩ := snapshotRequirement_some hright
    dsimp only at h
    rw [hgetExtraA, hgetExtraB] at h
    obtain ⟨hpocA, hsettlementA, hzenonA⟩ := get_extraSnapshot (get a "extra")
    obtain ⟨hpocB, hsettlementB, hzenonB⟩ := get_extraSnapshot (get b "extra")
    rw [hpocA, hpocB, hsettlementA, hsettlementB, hzenonA, hzenonB] at h
    simp only [Bool.and_eq_true, List.all_eq_true] at h
    obtain ⟨⟨⟨⟨⟨hbase, hpoc⟩, hsettlement⟩, hflow⟩, hminimum⟩, hchain⟩ := h
    have hownA : hasOwn a "extra" = true := hasOwn_of_required hkeysA (by decide)
    have hownB : hasOwn b "extra" = true := hasOwn_of_required hkeysB (by decide)
    have hea := parsed_get ha hownA
    have heb := parsed_get hb hownB
    have hca := parsed_get hea
      (hasOwn_of_required hextraA (show "zenonChain" ∈ REQUIREMENT_EXTRA_FIELDS by decide))
    have hcb := parsed_get heb
      (hasOwn_of_required hextraB (show "zenonChain" ∈ REQUIREMENT_EXTRA_FIELDS by decide))
    have hsameChain : Same (get (get a "extra") "zenonChain")
        (get (get b "extra") "zenonChain") := by
      refine same_of_fields hca hcb hchainA hchainB (fun key hkey => ?_) (List.forall_mem_nil _)
      have hfield := List.all_eq_true.mp hchain key hkey
      rw [get_chainSnapshot _ hkey, get_chainSnapshot _ hkey] at hfield
      exact same_of_strictEq hfield
    have hoptional (key : String) (hkey : key ∈ REQUIREMENT_EXTRA_OPTIONAL_FIELDS)
        (hsame : sameOptional key (extraSnapshot (get a "extra")) (extraSnapshot (get b "extra"))
          = true) :
        hasOwn (get a "extra") key = hasOwn (get b "extra") key
          ∧ (hasOwn (get a "extra") key = true →
          Same (get (get a "extra") key) (get (get b "extra") key)) := by
      obtain ⟨hown, hget⟩ := own_extraSnapshot (get a "extra") hkey
      obtain ⟨hown', hget'⟩ := own_extraSnapshot (get b "extra") hkey
      simp only [sameOptional, hown, hown', Bool.and_eq_true, beq_iff_eq, Bool.or_eq_true,
        Bool.not_eq_true'] at hsame
      refine ⟨hsame.1, fun htrue => ?_⟩
      rcases hsame.2 with hfalse | heq
      · rw [htrue] at hfalse
        cases hfalse
      · rw [hget htrue, hget' (hsame.1 ▸ htrue)] at heq
        exact same_of_strictEq heq
    have hsameExtra : Same (get a "extra") (get b "extra") := by
      refine same_of_fields hea heb hextraA hextraB (fun key hkey => ?_) (fun key hkey => ?_)
      · simp only [REQUIREMENT_EXTRA_FIELDS, List.mem_cons, List.not_mem_nil, or_false] at hkey
        rcases hkey with rfl | rfl | rfl
        · exact same_of_strictEq hpoc
        · exact same_of_strictEq hsettlement
        · exact hsameChain
      · have hmem := hkey
        simp only [REQUIREMENT_EXTRA_OPTIONAL_FIELDS, List.mem_cons, List.not_mem_nil,
          or_false] at hkey
        rcases hkey with rfl | rfl
        · exact hoptional _ hmem hflow
        · exact hoptional _ hmem hminimum
    refine same_of_fields ha hb hkeysA hkeysB (fun key hkey => ?_) (List.forall_mem_nil _)
    by_cases hextra : key = "extra"
    · rw [hextra]
      exact hsameExtra
    · have hmem : key ∈ BASE_REQUIREMENT_FIELDS := by
        simp only [REQUIREMENT_FIELDS, List.mem_cons, List.not_mem_nil, or_false] at hkey
        simp only [BASE_REQUIREMENT_FIELDS, List.mem_cons, List.not_mem_nil, or_false]
        tauto
      have hfield := hbase key hmem
      rw [hgetA key hmem, hgetB key hmem] at hfield
      exact same_of_strictEq hfield
  · cases h

def RESOURCE_OPTIONAL_FIELDS : List String :=
  ["description", "mimeType", "serviceName", "tags", "iconUrl"]

theorem exactKeys_of_resource {node : Node} {resource : Value}
    (h : validateResourceIdentity node resource = true) :
    assertExactKeys resource ["url"] RESOURCE_OPTIONAL_FIELDS = true := by
  cases resource with
  | obj fs =>
    simp only [validateResourceIdentity, Bool.and_eq_true] at h
    obtain ⟨⟨⟨⟨⟨⟨⟨_, hkeys⟩, hurl⟩, _⟩, _⟩, _⟩, _⟩, _⟩ := h
    have hown : (fs.lookup "url").isSome = true := by
      cases hlookup : fs.lookup "url" with
      | none =>
        rw [hlookup] at hurl
        cases hurl
      | some v => rfl
    simp only [assertExactKeys, Bool.and_eq_true, List.all_eq_true, List.mem_singleton]
    refine ⟨List.all_eq_true.mp hkeys, fun key hkey => ?_⟩
    rw [hkey]
    exact hown
  | _ => cases h

/-- Elements that are equal one by one. -/
theorem forall₂_strictEq : ∀ {xs ys : List Value}, xs.length = ys.length →
    (∀ p ∈ xs.zip ys, p.1.strictEq p.2 = true) →
    List.Forall₂ Same xs ys
  | [], [], _, _ => .nil
  | x :: xs, y :: ys, hlength, h => by
    rw [List.zip_cons_cons] at h
    obtain ⟨hfirst, hrest⟩ := List.forall_mem_cons.mp h
    exact .cons (same_of_strictEq hfirst) (forall₂_strictEq (Nat.succ.inj hlength) hrest)
  | [], _ :: _, hlength, _ => by cases hlength
  | _ :: _, [], hlength, _ => by cases hlength

theorem same_of_sameTags {left right : Value} (h : sameTags left right = true) :
    Same (get left "tags") (get right "tags") := by
  unfold sameTags at h
  split at h
  · next xs ys hxs hys =>
    rw [hxs, hys]
    simp only [Bool.and_eq_true, decide_eq_true_eq, List.all_eq_true] at h
    exact Value.same_arr (forall₂_strictEq h.1 h.2)
  · cases h

/-- Resources that are the same hold the same data. -/
theorem same_of_sameResource {node : Node} {left right : Value} (hleft : left.Parsed)
    (hright : right.Parsed) (h : sameResource node left right = true) : Same left right := by
  simp only [sameResource, Bool.and_eq_true, beq_iff_eq] at h
  obtain ⟨⟨⟨⟨⟨⟨⟨⟨hvalidL, hvalidR⟩, hurl⟩, hdescription⟩, hmime⟩, hservice⟩, hicon⟩, hown⟩,
    htags⟩ := h
  have hoptional {key : String} (hsame : sameOptional key left right = true) :
      hasOwn left key = hasOwn right key
        ∧ (hasOwn left key = true → Same (get left key) (get right key)) := by
    simp only [sameOptional, Bool.and_eq_true, beq_iff_eq, Bool.or_eq_true,
      Bool.not_eq_true'] at hsame
    refine ⟨hsame.1, fun htrue => ?_⟩
    rcases hsame.2 with hfalse | heq
    · rw [htrue] at hfalse
      cases hfalse
    · exact same_of_strictEq heq
  refine same_of_fields hleft hright (exactKeys_of_resource hvalidL) (exactKeys_of_resource hvalidR)
    (fun key hkey => ?_)
    (fun key hkey => ?_)
  · rw [List.mem_singleton.mp hkey]
    exact same_of_strictEq hurl
  · simp only [RESOURCE_OPTIONAL_FIELDS, List.mem_cons, List.not_mem_nil, or_false] at hkey
    rcases hkey with rfl | rfl | rfl | rfl | rfl
    · exact hoptional hdescription
    · exact hoptional hmime
    · exact hoptional hservice
    · refine ⟨hown, fun htrue => ?_⟩
      rw [htrue, Bool.not_true, Bool.false_or] at htags
      exact same_of_sameTags htags
    · exact hoptional hicon

/-! ### What a requirement is -/

theorem isText_parsed {p : String → Bool} {v : Value} (h : isText p v = true) : v.Parsed := by
  cases v with
  | str s => exact .str s
  | _ => cases h

theorem isInteger_parsed {p : Int → Bool} {v : Value} (h : Journal.isInteger p v = true) :
    v.Parsed := by
  cases v with
  | num n => exact .num n
  | negZero => exact .negZero
  | _ => cases h

theorem parsed_of_strictEq {v w : Value} (hw : w.Parsed) (h : v.strictEq w = true) : v.Parsed := by
  cases v with
  | num n => exact .num n
  | negZero => exact .negZero
  | bool b => exact .bool b
  | null => exact .null
  | str s => exact .str s
  | undefined => cases hw <;> cases h
  | _ => cases h

/-- A field that is there if the object has it. -/
theorem ownField_parsed {v : Value} {key : String} (h : hasOwn v key = true → (get v key).Parsed) :
    ∀ f ∈ ownField v key, f.2.Parsed := by
  unfold ownField
  split
  · next hown => exact List.forall_mem_singleton.mpr (h hown)
  · exact List.forall_mem_nil _

theorem extraSnapshot_keys (extra : Value) :
    ∀ fs, extraSnapshot extra = .obj fs → (fs.map Prod.fst).Nodup := by
  intro fs hfs
  unfold extraSnapshot ownField at hfs
  rw [← Value.obj.inj hfs]
  split <;> split
  · exact (show ["paymentFlow", "poc", "settlement", "zenonChain",
      "minimumMomentumConfirmations"].Nodup by decide)
  · exact (show ["paymentFlow", "poc", "settlement", "zenonChain"].Nodup by decide)
  · exact (show ["poc", "settlement", "zenonChain", "minimumMomentumConfirmations"].Nodup by decide)
  · exact (show ["poc", "settlement", "zenonChain"].Nodup by decide)

/-- What is known of the fields of a requirement that was read. -/
theorem validateRequirementSnapshot_parts {req : Value} {requireActive : Bool}
    (h : validateRequirementSnapshot req requireActive = true) :
    (∀ key ∈ ["scheme", "network", "asset", "amount", "payTo", "maxTimeoutSeconds"],
      (get req key).Parsed)
      ∧ ((get req "network").strictEq (.str MOCK_NETWORK) = true
        ∨ (get req "network").strictEq (.str EXPERIMENTAL_LIVE_NETWORK) = true)
      ∧ (get (get req "extra") "poc").Parsed ∧ (get (get req "extra") "settlement").Parsed
      ∧ (hasOwn (get req "extra") "paymentFlow" = true →
        (get (get req "extra") "paymentFlow").Parsed)
      ∧ (∀ key ∈ CHAIN_PROFILE_FIELDS, (get (get (get req "extra") "zenonChain") key).Parsed)
      ∧ (hasOwn (get req "extra") "minimumMomentumConfirmations" = true →
        (get (get req "extra") "minimumMomentumConfirmations").Parsed) := by
  simp only [validateRequirementSnapshot, Bool.and_eq_true] at h
  obtain ⟨⟨⟨⟨⟨⟨⟨⟨⟨⟨⟨⟨⟨⟨⟨⟨htexts, _⟩, _⟩, _⟩, _⟩, hnetwork⟩, _⟩, htimeout⟩, hpoc⟩, hsettlement⟩,
    hflow⟩, _⟩, hchain⟩, _⟩, _⟩, hmock⟩, hminimum⟩ := h
  simp only [validateZenonChainProfileSnapshot, Bool.and_eq_true] at hchain
  rw [List.all_eq_true] at htexts
  refine ⟨fun key hkey => ?_, Bool.or_eq_true_iff.mp hnetwork, parsed_of_strictEq (.bool true) hpoc,
    parsed_of_strictEq (.str _) hsettlement, fun hown => ?_, fun key hkey => ?_, fun hown => ?_⟩
  · by_cases htime : key = "maxTimeoutSeconds"
    · rw [htime]
      exact isInteger_parsed htimeout
    · exact isText_parsed (htexts key
        (by simp only [List.mem_cons, List.not_mem_nil, or_false] at hkey ⊢; tauto))
  · rw [hown, Bool.not_true, Bool.false_or] at hflow
    exact parsed_of_strictEq (.str _) hflow
  · simp only [CHAIN_PROFILE_FIELDS, List.mem_cons, List.not_mem_nil, or_false] at hkey
    rcases hkey with rfl | rfl | rfl
    · exact parsed_of_strictEq (.num 1) hchain.1.1
    · exact isText_parsed hchain.1.2
    · exact isText_parsed hchain.2
  · rw [hown] at hmock hminimum
    simp only [Bool.and_true, Bool.not_eq_true'] at hmock
    rw [hmock] at hminimum
    exact isInteger_parsed hminimum

/-- A requirement as it was read is data. -/
theorem snapshotRequirement_parsed {requirement snapshot : Value} {requireActive : Bool}
    (h : snapshotRequirement requirement requireActive = some snapshot) : snapshot.Parsed := by
  obtain ⟨_, _, _, hvalid, hget, hextra⟩ := snapshotRequirement_some h
  obtain ⟨hfields, _, hpoc, hsettlement, hflow, hchain, hminimum⟩ :=
    validateRequirementSnapshot_parts hvalid
  rw [hextra] at hpoc hsettlement hflow hchain hminimum
  obtain ⟨hgetPoc, hgetSettlement, hgetChain⟩ := get_extraSnapshot (get requirement "extra")
  rw [hgetPoc] at hpoc
  rw [hgetSettlement] at hsettlement
  rw [hgetChain] at hchain
  have hown {key : String} (hkey : key ∈ REQUIREMENT_EXTRA_OPTIONAL_FIELDS)
      (hparsed : hasOwn (extraSnapshot (get requirement "extra")) key = true →
        (get (extraSnapshot (get requirement "extra")) key).Parsed)
      (hhas : hasOwn (get requirement "extra") key = true) :
      (get (get requirement "extra") key).Parsed := by
    obtain ⟨hsame, hvalue⟩ := own_extraSnapshot (get requirement "extra") hkey
    rw [← hvalue hhas]
    exact hparsed (hsame.trans hhas)
  have hchainParsed : (chainSnapshot (get (get requirement "extra") "zenonChain")).Parsed := by
    refine .obj (show CHAIN_PROFILE_FIELDS.Nodup by decide) fun f hf => ?_
    simp only [List.mem_cons, List.not_mem_nil, or_false] at hf
    rcases hf with rfl | rfl | rfl
    · exact hchain "version" (by decide)
    · exact hchain "chainIdentifier" (by decide)
    · exact hchain "genesisMomentumHash" (by decide)
  have hextraParsed : (extraSnapshot (get requirement "extra")).Parsed := by
    refine .obj (extraSnapshot_keys _ _ rfl) fun f hf => ?_
    rcases List.mem_append.mp hf with hf | hf
    · rcases List.mem_append.mp hf with hf | hf
      · exact ownField_parsed (hown (by decide) hflow) f hf
      · simp only [List.mem_cons, List.not_mem_nil, or_false] at hf
        rcases hf with rfl | rfl | rfl
        · exact hpoc
        · exact hsettlement
        · exact hchainParsed
    · exact ownField_parsed (hown (by decide) hminimum) f hf
  have hsnapshot : snapshot
      = .obj (BASE_REQUIREMENT_FIELDS.map (fun key => (key, get requirement key))
      ++ [("extra", extraSnapshot (get requirement "extra"))]) := by
    simp only [snapshotRequirement, Option.bind_eq_bind, Option.bind_eq_some_iff, guard_some,
      Option.pure_def, Option.some.injEq] at h
    obtain ⟨_, _, _, _, _, _, _, _, rfl⟩ := h
    rfl
  rw [hsnapshot]
  refine .obj (show REQUIREMENT_FIELDS.Nodup by decide) fun f hf => ?_
  rcases List.mem_append.mp hf with hf | hf
  · obtain ⟨key, hkey, rfl⟩ := List.mem_map.mp hf
    rw [← hget key hkey]
    exact hfields key hkey
  · rw [List.mem_singleton.mp hf]
    exact hextraParsed

/-- Requirements that are the same are for one network, which is one of two. -/
theorem network_of_sameRequirements {a b : Value} (h : sameRequirements a b = true) :
    ∃ network, (network = MOCK_NETWORK ∨ network = EXPERIMENTAL_LIVE_NETWORK) ∧ get a "network"
      = .str network
      ∧ get b "network" = .str network := by
  unfold sameRequirements at h
  split at h
  · next left right hleft hright =>
    obtain ⟨_, _, _, hvalid, hgetA, _⟩ := snapshotRequirement_some hleft
    obtain ⟨_, _, _, _, hgetB, _⟩ := snapshotRequirement_some hright
    simp only [Bool.and_eq_true, List.all_eq_true] at h
    have hsame := h.1.1.1.1.1 "network" (by decide)
    rw [hgetA _ (by decide), hgetB _ (by decide)] at hsame
    have hnetwork := (validateRequirementSnapshot_parts hvalid).2.1
    rw [hgetA _ (by decide)] at hnetwork
    rcases hnetwork with hmock | hlive
    · rw [Value.strictEq_str.mp hmock, Value.strictEq_comm] at hsame
      exact ⟨_, .inl rfl, Value.strictEq_str.mp hmock, Value.strictEq_str.mp hsame⟩
    · rw [Value.strictEq_str.mp hlive, Value.strictEq_comm] at hsame
      exact ⟨_, .inr rfl, Value.strictEq_str.mp hlive, Value.strictEq_str.mp hsame⟩
  · cases h

/-! ### Sizes -/

/-- An object is at least as long as its required fields. -/
theorem textSize_required_le {v : Value} {required optional : List String} (hv : v.Parsed)
    (hn : required.Nodup) (h : assertExactKeys v required optional = true) :
    Value.textSize (.obj (required.map fun key => (key, get v key))) ≤ Value.textSize v := by
  cases hv with
  | @obj fs hnodup _ =>
    have hsub : (required.map fun key => (key, get (.obj fs) key)).Subperm fs := by
      refine List.subperm_of_subset (List.Nodup.map (fun _ _ h => (Prod.mk.inj h).1) hn)
        fun f hf => ?_
      obtain ⟨key, hkey, rfl⟩ := List.mem_map.mp hf
      have hown := hasOwn_of_required h hkey
      rw [Value.mem_iff_lookup _ _ hnodup, lookup_eq, if_pos hown]
    obtain ⟨gs, hperm, hsublist⟩ := hsub
    obtain ⟨rest, hrest⟩ := hsublist.exists_perm_append
    rw [Value.textSize_obj_perm hrest, Value.textSize_obj_perm hperm.symm]
    exact Value.textSize_obj_append gs rest
  | _ => cases h

/-- A challenge is no longer than a payment for it. -/
theorem textSize_challenge_le {node : Node} {payload requirement resource : Value}
    (hplain : payload.Parsed) (henvelope : validatePaymentPayloadEnvelope node payload = true)
    (haccepted : Same (get payload "accepted") requirement)
    (hresource : Same (get payload "resource") resource) :
    Value.textSize (.obj [("x402Version", .num X402_VERSION), ("resource", resource),
      ("accepts", .arr [requirement])])
      ≤ Value.textSize payload := by
  simp only [validatePaymentPayloadEnvelope, Bool.and_eq_true] at henvelope
  obtain ⟨⟨⟨⟨⟨⟨⟨hkeys, _⟩, hversion⟩, _⟩, _⟩, _⟩, _⟩, _⟩ := henvelope
  have hsize := textSize_required_le hplain (by decide) hkeys
  have hv : get payload "x402Version" = .num X402_VERSION :=
    (Value.strictEq_num (by decide)).mp hversion
  have hrequired := Value.textSize_obj_eq
    (PAYMENT_PAYLOAD_FIELDS.map fun key => (key, get payload key))
  have hchallenge := Value.textSize_obj_eq
    [("x402Version", .num X402_VERSION), ("resource", resource), ("accepts", .arr [requirement])]
  have harr := Value.textSize_arr_eq [requirement]
  have hpayload := Value.one_le_textSize (get payload "payload")
  have hkey1 : Value.textSize (.str "accepts") = 9 := by decide
  have hkey2 : Value.textSize (.str "accepted") = 10 := by decide
  have hkey3 : Value.textSize (.str "payload") = 9 := by decide
  simp only [PAYMENT_PAYLOAD_FIELDS, List.map_cons, List.map_nil, List.sum_cons, List.sum_nil,
    List.length_cons, List.length_nil, Value.memberSize, hv] at hrequired hchallenge harr hsize
  rw [haccepted.textSize, hresource.textSize] at hrequired
  omega

end Resource
end ZenonX402
