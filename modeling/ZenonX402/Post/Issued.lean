/-
# An issued challenge and its outcomes

What the custody of an official funding POST is about: the challenge that was issued at a
funding URL (`selection`), the service it is for, the transaction that pays it and its
observer (`Bound`), what the official server made of the payment (`captureBoundOutcome`)
and the receipt of a payment that came too late (`captureIssuedExpiredFundingResult`).

`new URL` is taken from the platform. The commitments of a challenge are digests that
nothing here reads, and are left out. Objects have come out of a copy of plain data, so no
descriptor is unusual and nothing is a proxy; what is passed in frozen stays so. A failure
has no more to it than that it is one.

No check of an outcome reads the order of keys (`officialPhase_canonical`).

Key definitions: `Platform`, `selection`, `ServiceSelection`, `Bound`, `captureBoundOutcome`,
`Receipt`.
Key theorems: `get_canonical`, `officialPhase_canonical`.
-/
import ZenonX402.Custody.Contract
import ZenonX402.Lib.Bounds
import ZenonX402.Resource.Wire

namespace ZenonX402
namespace Post

open Js
open Value (Same strictEq)
open Journal (get exactKeys)
open Resource (hasOwn isObject decodeB64Json offers)

/-! ### Reading in any order -/

/-- JSON data, or what is read where there is none. -/
def Readable (v : Value) : Prop := v.Json ∨ v = .undefined

theorem readable_get {v : Value} (hv : Readable v) (k : String) : Readable (get v k) := by
  rcases hv with hv | rfl
  · cases hv with
    | @obj fs hn hfs =>
      cases hk : fs.lookup k with
      | none => exact .inr (by rw [Journal.get, hk]; rfl)
      | some x =>
        have hget : get (.obj fs) k = x := by rw [Journal.get, hk]; rfl
        rw [hget]
        exact .inl (hfs (k, x) ((Value.mem_iff_lookup k x hn).mpr hk))
    | _ => exact .inr rfl
  · exact .inr rfl

theorem lookup_canonical {fs : List (String × Value)} (hn : (fs.map Prod.fst).Nodup) (k : String) :
    (Value.sortFields (Value.canonicalFields fs)).lookup k = (fs.lookup k).map Value.canonical := by
  have hp := Value.perm_sortFields (Value.canonicalFields fs)
  rw [← Value.lookup_canonicalFields]
  refine (Value.lookup_perm ?_ hp.symm k).symm
  rwa [Value.canonicalFields_keys]

theorem get_canonical {v : Value} (hv : Readable v) (k : String) :
    get v.canonical k = (get v k).canonical := by
  rcases hv with hv | rfl
  · cases hv with
    | @obj fs hn _ =>
      rw [Value.canonical, Journal.get, Journal.get, lookup_canonical hn]
      cases fs.lookup k <;> rfl
    | _ => rfl
  · rfl

theorem hasOwn_canonical {v : Value} (hv : Readable v) (k : String) :
    hasOwn v.canonical k = hasOwn v k := by
  rcases hv with hv | rfl
  · cases hv with
    | @obj fs hn _ =>
      rw [Value.canonical, hasOwn, hasOwn, lookup_canonical hn, Option.isSome_map]
    | _ => rfl
  · rfl

theorem exactKeys_canonical (v : Value) (names : List String) :
    exactKeys v.canonical names = exactKeys v names := by
  cases v with
  | obj fs =>
    have hp := (Value.perm_sortFields (Value.canonicalFields fs)).map Prod.fst
    rw [Value.canonicalFields_keys] at hp
    rw [Value.canonical, exactKeys, exactKeys]
    exact decide_eq_decide.mpr ⟨hp.symm.trans, hp.trans⟩
  | _ => rfl

theorem strictEq_canonical_str (v : Value) (s : String) :
    v.canonical.strictEq (.str s) = v.strictEq (.str s) := by
  cases v <;> rfl

theorem strictEq_canonical_bool (v : Value) (b : Bool) :
    v.canonical.strictEq (.bool b) = v.strictEq (.bool b) := by
  cases v <;> rfl

/-! ### The platform -/

/-- What `new URL` tells of a text. -/
structure Url where
  protocol : String
  href : String
  origin : String
  host : String
  username : String
  password : String
  search : String
  hash : String
  port : String

/-- What is taken from the platform: what a payment asks of it, and `new URL`, which throws on some
texts. -/
structure Platform where
  node : Journal.Node
  url : String → Option Url

/-- `captureFundingPostCheckpointRoute`, which gives nothing else away. -/
def captureFundingPostCheckpointRoute (P : Platform) (resourceUrl : String) : Bool :=
  decide (1 ≤ utf16Length resourceUrl ∧ utf16Length resourceUrl ≤ 2048)
    && resourceUrl.toList.all (fun c => decide ('\x21' ≤ c ∧ c ≤ '\x7e'))
    && match P.url resourceUrl with
      | some u => u.protocol == "https:" && u.href == resourceUrl && u.href == u.origin
          ++ "/funding" && u.host != ""
        && u.username == "" && u.password == "" && u.search == "" && u.hash == "" && u.port != "0"
      | none => false

/-! ### The challenge -/

/-- What the copy of a challenge is bounded by. -/
def SDK_LIMITS : Limits := ⟨16, 128, 128, fun k => k == "toJSON"⟩

def isNonce (s : String) : Bool := Text.allOf Text.isHexLower 32 32 s

def tags : Value → Option (String × String)
  | .arr [.str name, .str first, .str second] =>
    if name = "x402-service-credit-funding-v1" ∧ isNonce first = true ∧ isNonce second = true
    then some (first, second) else none
  | _ => none

/-- `Reflect.ownKeys(value).length`. -/
def keyCount : Value → Nat
  | .obj fs => fs.length
  | _ => 0

/-- The challenge of a frame, with what is read of it. -/
structure Issued where
  paymentRequiredHeader : String
  resource : Value
  requirement : Value
  tags : String × String

/-- `createIssuedFundingPostSdkResourceBinding(frame, resourceUrl).selection()`. -/
def selection (P : Platform) (frame : Value) (resourceUrl : String) : Option Issued := do
  guard (captureFundingPostCheckpointRoute P resourceUrl = true)
  guard (exactKeys frame ["status", "paymentRequiredHeader", "body"] = true)
  guard ((get frame "status").strictEq (.num 402) = true
    ∧ (get frame "body").strictEq (.str "Payment Required") = true)
  let .str header := get frame "paymentRequiredHeader" | none
  let required ← decodeB64Json header 4096 5464
  guard (Resource.validatePaymentRequired P.node required = true)
  guard ((get required "x402Version").strictEq (.num 2) = true)
  guard (keyCount required = 3)
  let [requirement] := offers required | none
  guard (Resource.validateActiveUpfrontRequirement requirement = true)
  let resource := get required "resource"
  guard (exactKeys resource ["url", "tags"] = true)
  guard ((get resource "url").strictEq (.str resourceUrl) = true)
  let tags ← tags (get resource "tags")
  guard (base64Text (utf8Bytes (canonicalJson required)) = header)
  guard ((Value.charge SDK_LIMITS 0 ⟨4096, 131072⟩ required).isSome = true)
  return ⟨header, resource, requirement, tags⟩

/-- A challenge that passes every check. -/
theorem selection_of_checks {P : Platform} {header resourceUrl : String}
    {frame required requirement : Value} {t : String × String}
    (hroute : captureFundingPostCheckpointRoute P resourceUrl = true)
    (hkeys : exactKeys frame ["status", "paymentRequiredHeader", "body"] = true)
    (hframe : (get frame "status").strictEq (.num 402) = true
      ∧ (get frame "body").strictEq (.str "Payment Required") = true)
    (hheader : get frame "paymentRequiredHeader" = .str header)
    (hdecode : decodeB64Json header 4096 5464 = some required)
    (hvalid : Resource.validatePaymentRequired P.node required = true)
    (hversion : (get required "x402Version").strictEq (.num 2) = true)
    (hcount : keyCount required = 3) (hoffers : offers required = [requirement])
    (hactive : Resource.validateActiveUpfrontRequirement requirement = true)
    (hresource : exactKeys (get required "resource") ["url", "tags"] = true)
    (hurl : (get (get required "resource") "url").strictEq (.str resourceUrl) = true)
    (htags : tags (get (get required "resource") "tags") = some t)
    (hcanonical : base64Text (utf8Bytes (canonicalJson required)) = header)
    (hcharge : (Value.charge SDK_LIMITS 0 ⟨4096, 131072⟩ required).isSome = true) :
    selection P frame resourceUrl = some ⟨header, get required "resource", requirement, t⟩ := by
  simp only [selection, guard, hroute, hkeys, hframe, hheader, hdecode, hvalid, hversion, hcount,
    hoffers, hactive, hresource, hurl, htags, hcanonical, hcharge, and_self, if_true,
    Option.pure_def, Option.bind_eq_bind, Option.bind_some]

/-- The frame of a challenge. -/
def Issued.frame (i : Issued) : Value :=
  .obj [("status", .num 402), ("paymentRequiredHeader", .str i.paymentRequiredHeader),
    ("body", .str "Payment Required")]

/-- The funding commitment that the tags spell. -/
def Issued.fundingCommitment (i : Issued) : String := "sha256:" ++ i.tags.1 ++ i.tags.2

/-! ### The service -/

def isCommitment (s : String) : Bool := Text.prefixed "sha256:" Text.isHexLower 64 s

abbrev Commitment := {s : String // isCommitment s = true}

abbrev Identifier := {s : String // Custody.isIdentifier s = true}

abbrev Hash := {s : String // Text.isHash s = true}

/-- A safe integer from one on. -/
abbrev Positive := {n : Int // n.natAbs ≤ 9007199254740991 ∧ decide (1 ≤ n) = true}

structure ServiceSelection where
  offerId : Identifier
  offerVersion : Positive
  holderId : Identifier
  capabilityCommitment : Commitment

def serviceCodec : Codec Unit ServiceSelection :=
  (object (.cons "offerId" (.text Custody.isIdentifier ())
    (.cons "offerVersion" (.integer (fun n => decide (1 ≤ n)) ())
    (.cons "holderId" (.text Custody.isIdentifier ())
    (.cons "capabilityCommitment" (.text isCommitment ())
      .nil)))) ()).equiv
    { toFun := fun (a, b, c, d, _) => ⟨a, b, c, d⟩
      invFun := fun s => (s.offerId, s.offerVersion, s.holderId, s.capabilityCommitment, ())
      left_inv := fun _ => rfl
      right_inv := fun _ => rfl }

def captureIssuedFundingPostServiceSelection (value : Value) : Option ServiceSelection :=
  (serviceCodec.decode value).toOption

/-! ### The bound transaction -/

structure BoundFields where
  transactionHash : Hash
  observerRecordKey : Commitment
  observerFileName : String
  deriving DecidableEq

def BoundFields.checked (b : BoundFields) : Bool :=
  b.observerFileName == "funding-observer-" ++ b.transactionHash.1 ++ ".sqlite"

abbrev Bound := {b : BoundFields // b.checked = true}

def boundCodec : Codec Unit Bound :=
  ((object (.const "status" (.constStr "BOUND" ())
    (.cons "transactionHash" (.text Text.isHash ())
    (.cons "observerRecordKey" (.text isCommitment ())
    (.cons "observerFileName" (.string ())
      .nil)))) ()).equiv
    { toFun := fun (a, b, c, _) => ⟨a, b, c⟩
      invFun := fun b => (b.transactionHash, b.observerRecordKey, b.observerFileName, ())
      left_inv := fun _ => rfl
      right_inv := fun _ => rfl }).refine BoundFields.checked ()

/-! ### Outcomes -/

def OUTCOME : List String :=
  ["phase", "intake", "official", "transactionHash", "acknowledgementDomainsIndependent",
    "authority", "grantActivation", "serviceDelivery"]

inductive Phase
  | FIRST_IN_FLIGHT
  | OBSERVATION_IN_FLIGHT
  | PENDING
  | SETTLED
  | EXHAUSTED
  deriving DecidableEq, Repr

/-- `record`: an object with few keys. -/
def isRecord : Value → Bool
  | .obj fs => decide (fs.length ≤ 128)
  | _ => false

/-- The settlement of an outcome, if it is an object that says how it went. -/
def settlementIs (success : Bool) (official : Value) : Bool :=
  hasOwn official "settlement" && isRecord (get official "settlement")
    && hasOwn (get official "settlement") "success"
    && (get (get official "settlement") "success").strictEq (.bool success)

/-- What `captureBoundOutcome` asks of the official outcome in each phase. -/
def officialPhase (phase official : Value) : Option Phase :=
  let type := get official "type"
  if phase.strictEq (.str "INTAKE_BOUND_OFFICIAL_PENDING") then
    if type.strictEq (.str "payment-error") then
      if hasOwn official "response" && isRecord (get official "response") then some .PENDING
        else none
    else if type.strictEq (.str "observed-settlement") && settlementIs false official
      then some .PENDING else none
  else if phase.strictEq (.str "INTAKE_BOUND_OFFICIAL_SETTLED") then
    if (type.strictEq (.str "settled") || type.strictEq (.str "observed-settlement"))
      && settlementIs true official
    then some .SETTLED else none
  else if phase.strictEq (.str "INTAKE_BOUND_OFFICIAL_EXHAUSTED") then
    if type.strictEq (.str "observed-settlement") && settlementIs false official
      then some .EXHAUSTED else none
  else none

theorem isRecord_canonical (v : Value) : isRecord v.canonical = isRecord v := by
  cases v with
  | obj fs =>
    have hp := Value.perm_sortFields (Value.canonicalFields fs)
    rw [Value.canonical, isRecord, isRecord, hp.length_eq, Value.canonicalFields_eq_map,
      List.length_map]
  | _ => rfl

theorem settlementIs_canonical {success : Bool} {official : Value} (h : Readable official) :
    settlementIs success official.canonical = settlementIs success official := by
  have hsettlement := readable_get h "settlement"
  unfold settlementIs
  rw [get_canonical h, get_canonical hsettlement, hasOwn_canonical h, hasOwn_canonical hsettlement,
    isRecord_canonical, strictEq_canonical_bool]

theorem officialPhase_canonical {phase official : Value} (h : Readable official) :
    officialPhase phase.canonical official.canonical = officialPhase phase official := by
  simp only [officialPhase, get_canonical h, hasOwn_canonical h, isRecord_canonical,
    settlementIs_canonical h, strictEq_canonical_str]

/-- `captureBoundOutcome` of a new binding, and the phase that it comes to. The binding compares the
outcome with the one before, of which a new one has none. -/
def captureBoundOutcome (input : Value) : Option Phase := do
  guard (exactKeys input OUTCOME = true)
  guard ((get input "acknowledgementDomainsIndependent").strictEq (.bool true) = true)
  guard ((get input "authority").strictEq (.str "NONE") = true)
  guard ((get input "grantActivation").strictEq (.str "NOT_ESTABLISHED") = true)
  guard ((get input "serviceDelivery").strictEq (.str "NOT_ESTABLISHED") = true)
  let b ← (boundCodec.decode (get input "intake")).toOption
  guard ((get input "transactionHash").strictEq (.str b.1.transactionHash.1) = true)
  guard (isRecord (get input "official") = true ∧ hasOwn (get input "official") "type" = true)
  officialPhase (get input "phase") (get input "official")

/-! ### Receipts -/

structure ReceiptFields where
  transactionHash : Hash
  sourceSettlementId : {s : String // Text.prefixed "settlement_" Text.isHexLower 64 s = true}
  fundingCommitment : Commitment
  expiresAt : Positive
  eligibilityObservedAt : Positive
  deriving DecidableEq

def ReceiptFields.checked (r : ReceiptFields) : Bool :=
  decide (r.expiresAt.1 ≤ r.eligibilityObservedAt.1)

/-- The data of a receipt of funding that came after its time. -/
abbrev Receipt := {r : ReceiptFields // r.checked = true}

/-- What is observed is no earlier than what is positive, so that it is positive. -/
def receiptCodec : Codec Unit Receipt :=
  ((object (.const "expiredFundingVersion" (.constNum 1 ())
    (.const "status" (.constStr "FUNDED_NO_NEW_GRANT" ())
    (.cons "transactionHash" (.text Text.isHash ())
    (.cons "sourceSettlementId" (.text (Text.prefixed "settlement_" Text.isHexLower 64) ())
    (.cons "fundingCommitment" (.text isCommitment ())
    (.cons "expiresAt" (.integer (fun n => decide (1 ≤ n)) ())
    (.cons "eligibilityObservedAt" (.integer (fun n => decide (1 ≤ n)) ())
    (.const "paymentAt" (.constNull ())
    (.const "grantActivation" (.constStr "NOT_ENTERED_THIS_OPERATION" ())
    (.const "grantExistence" (.constStr "NOT_QUERIED" ())
    (.const "deliveryLiability" (.constStr "RECONCILIATION_REQUIRED" ())
    (.const "serviceDelivery" (.constStr "NOT_ESTABLISHED" ())
    (.const "compensation" (.constStr "NOT_ESTABLISHED" ())
    (.const "verification" (.constStr "SELECTED_ORIGINAL_VERIFIER" ())
    (.const "mayStartPayment" (.constBool false ())
    (.const "maySignPayment" (.constBool false ())
    (.const "mayDispatchService" (.constBool false ())
    (.const "mayActivateGrant" (.constBool false ())
    (.const "mayStartCompensation" (.constBool false ())
    (.const "authority" (.constStr "NONE" ())
      .nil)))))))))))))))))))) ()).equiv
    { toFun := fun (a, b, c, d, e, _) => ⟨a, b, c, d, e⟩
      invFun := fun r =>
        (r.transactionHash, r.sourceSettlementId, r.fundingCommitment, r.expiresAt,
          r.eligibilityObservedAt, ())
      left_inv := fun _ => rfl
      right_inv := fun _ => rfl }).refine ReceiptFields.checked ()

/-- What a receipt is expected to be about. -/
structure Pins where
  transactionHash : Hash
  fundingCommitment : Commitment
  expiresAt : Positive

/-- A receipt about what is expected. -/
def Pins.admits (e : Pins) (r : Receipt) : Prop :=
  r.1.transactionHash = e.transactionHash ∧ r.1.fundingCommitment = e.fundingCommitment
    ∧ r.1.expiresAt = e.expiresAt

instance (e : Pins) (r : Receipt) : Decidable (e.admits r) :=
  inferInstanceAs (Decidable (_ ∧ _ ∧ _))

def captureIssuedExpiredFundingResult (input : Value) (expected : Pins) : Option Receipt := do
  let r ← (receiptCodec.decode input).toOption
  guard (expected.admits r)
  return r

end Post
end ZenonX402
