/-
# The state of the credit model

The seven maps of `InMemoryServiceCreditModel` (`Ledger`), the three flags
beside them (`Model`), and what every public operation is built from: the guard
against re-entry (`runPublicOperation`), the two callbacks it may call
(`invokeCallback`), and the small private methods. A grant's fixed fields are
those of its activation record, from which they are copied when the grant is
minted or hydrated and never written again.

A callback is seen from the model as what it calls back (`calls`: bodies of
public operations on the same model) and what it then returns or throws
(`result`).

Key definitions: `Grant`, `Request`, `Ledger`, `Model`, `Env`,
`runPublicOperation`, `invokeCallback`, `refreshGrant`, `assertCounters`.
-/
import ZenonX402.Credit.Records
import ZenonX402.Lib.Double
import ZenonX402.Lib.JsMap
import ZenonX402.Lib.Prog

namespace ZenonX402
namespace Credit

open Js Prog

def MAX_HYDRATED_OFFERS : Nat := 10000

def MAX_HYDRATED_GRANTS : Nat := 10000

def MAX_HYDRATED_REQUESTS : Nat := 100000

/-! ### Derived identifiers -/

section Identifiers

variable (sha : Sha256)

theorem isIdentifier_append {pre s : String} {m : Nat}
    (hpre : Text.headTail Text.isAlnum isIdentifierChar m pre = true) (hcolon : ':' ∉ pre.toList)
    (hm : m + 64 ≤ 127) (hs : Text.isHash s = true) : isIdentifier (pre ++ s) = true := by
  have hrest : ∀ c, Text.isHexLower c = true → isIdentifierChar c = true := by
    intro c hc
    simp only [Text.isHexLower, Bool.or_eq_true, Bool.and_eq_true, decide_eq_true_eq] at hc
    rcases hc with hd | ⟨h1, h2⟩
    · simp [isIdentifierChar, Text.isAlnum, hd]
    · have hz : c ≤ 'z' := le_trans h2 (by decide)
      simp [isIdentifierChar, Text.isAlnum, Text.isLower, h1, hz]
  have hnot : ':' ∉ (pre ++ s).toList := by
    rw [String.toList_append, List.mem_append]
    rintro (h | h)
    · exact hcolon h
    · exact absurd ((Text.isHash_iff.mp hs).1 _ h) (by decide)
  unfold isIdentifier
  rw [Text.headTail_append hpre hs hrest hm,
    Text.not_includes (show "://".toList = ':' :: ['/', '/'] from rfl) hnot]
  rfl

def activationIdFor (normalized : Activation) : Identifier :=
  ⟨"activation_" ++ sha.hex (canonicalJson (.obj [
      ("domain", .str "zenon-x402-service-credit-activation-v1"),
      ("record", activationCodec.encode normalized)])),
    isIdentifier_append (m := 10) (by decide) (by decide) (by omega) (sha.isHash_hex _)⟩

def grantDescriptionFor (activationId : Identifier) (activation : Activation) : Value := .obj [
  ("modelVersion", .num 1),
  ("activationId", .str activationId.1),
  ("providerId", .str activation.1.providerId.1),
  ("serviceId", .str activation.1.serviceId.1),
  ("resourceId", .str activation.1.resourceId.1),
  ("offerId", .str activation.1.offerId.1),
  ("offerVersion", .num activation.1.offerVersion.1),
  ("holderId", .str activation.1.holderId.1),
  ("capabilityCommitment", .str activation.1.capabilityCommitment.1),
  ("totalUnits", .num activation.1.totalUnits.1),
  ("expiresAt", .num activation.1.expiresAt.1)]

def grantIdFor (description : Value) : Identifier :=
  ⟨"grant_" ++ sha.hex (canonicalJson (.obj [
      ("domain", .str "zenon-x402-service-credit-grant-v1"),
      ("grant", description)])),
    isIdentifier_append (m := 5) (by decide) (by decide) (by omega) (sha.isHash_hex _)⟩

def sha256Commitment (v : Value) : Commitment :=
  ⟨sha.commitment v, Text.prefixed_append "sha256:" (sha.isHash_hex _)⟩

end Identifiers

/-- The key of `#activationByAuthoritySettlement`. -/
def authoritySettlementKey (activation : Activation) : String := canonicalJson (.arr [
  .str activation.1.authorityProfileId.1,
  .num activation.1.authorityProfileVersion.1,
  .str activation.1.sourceSettlementId.1])

/-! ### Grants and requests -/

/-- What never changes of a grant. -/
structure GrantIdentity where
  grantId : Identifier
  description : String
  activationId : Identifier
  activation : Activation
  deriving DecidableEq

namespace GrantIdentity

def totalUnits (g : GrantIdentity) : PositiveInt := g.activation.1.totalUnits

def expiresAt (g : GrantIdentity) : PositiveInt := g.activation.1.expiresAt

def offerId (g : GrantIdentity) : Identifier := g.activation.1.offerId

def offerVersion (g : GrantIdentity) : PositiveInt := g.activation.1.offerVersion

def transactionId (g : GrantIdentity) := g.activation.1.transactionId

def capabilityCommitment (g : GrantIdentity) : Commitment := g.activation.1.capabilityCommitment

def offerKey (g : GrantIdentity) : String := Credit.offerKey g.offerId g.offerVersion

/-- `{ activationId, ...activation }`. -/
def stored (g : GrantIdentity) : StoredActivation := ⟨g.activationId, g.activation⟩

/-- The identity that an activation record gives its grant. -/
def ofActivation (sha : Sha256) (activation : Activation) : GrantIdentity :=
  let activationId := activationIdFor sha activation
  let grantDescription := grantDescriptionFor activationId activation
  ⟨grantIdFor sha grantDescription, canonicalJson grantDescription, activationId, activation⟩

end GrantIdentity

structure Grant extends GrantIdentity where
  lifecycle : GrantLifecycle
  availableUnits : Int
  heldUnits : Int
  consumedUnits : Int
  deriving DecidableEq

/-- `#grantSnapshot`. -/
structure GrantSnapshot where
  record : Grant
  exhausted : Bool

def grantSnapshot (g : Grant) : GrantSnapshot := ⟨g, g.availableUnits == 0⟩

structure Request extends RequestInput where
  requestDigest : Commitment
  offerId : Identifier
  offerVersion : PositiveInt
  costUnits : PositiveInt
  state : RequestState
  cachedResult : Option CachedResult
  deriving DecidableEq

/-- The commitment to a request at its cost. -/
def requestDigestFor (sha : Sha256) (request : RequestInput) (offerId : Identifier)
    (offerVersion costUnits : PositiveInt) : Commitment := sha256Commitment sha (.obj [
  ("modelVersion", .num 1),
  ("grantId", .str request.grantId.1),
  ("offerId", .str offerId.1),
  ("offerVersion", .num offerVersion.1),
  ("method", .str request.method.1),
  ("routeId", .str request.routeId.1),
  ("canonicalBodyDigest", .str request.canonicalBodyDigest.1),
  ("selectedContentType", .str request.selectedContentType.1),
  ("maxCostUnits", .num request.maxCostUnits.1),
  ("costUnits", .num costUnits.1)])

/-- RESERVED, EXECUTING or OUTCOME_UNKNOWN: the states that hold units. -/
def RequestState.holds : RequestState → Bool
  | .RESERVED | .EXECUTING | .OUTCOME_UNKNOWN => true
  | .SUCCEEDED | .FAILED_RELEASED => false

/-- EXECUTING or OUTCOME_UNKNOWN. -/
def RequestState.unresolved : RequestState → Bool
  | .EXECUTING | .OUTCOME_UNKNOWN => true
  | .RESERVED | .SUCCEEDED | .FAILED_RELEASED => false

/-! ### The maps -/

structure Ledger where
  offers : JsMap String Offer
  activations : JsMap String StoredActivation
  grants : JsMap String Grant
  activationByAuthoritySettlement : JsMap String Identifier
  activationByTransaction : JsMap String Identifier
  grantByCapability : JsMap String Identifier
  requests : JsMap String (JsMap String Request)

namespace Ledger

def empty : Ledger := ⟨.empty, .empty, .empty, .empty, .empty, .empty, .empty⟩

/-- Write a grant record in its place. -/
def setGrant (L : Ledger) (g : Grant) : Ledger := { L with grants := L.grants.set g.grantId.1 g }

/-- `this.#requests.get(grantId)?.get(requestId)`. -/
def request? (L : Ledger) (grantId requestId : String) : Option Request :=
  (L.requests.get? grantId).bind fun rs => rs.get? requestId

/-- What never changes of the grant under a key. -/
def identity? (L : Ledger) (k : String) : Option GrantIdentity :=
  (L.grants.get? k).map Grant.toGrantIdentity

/-- Write a request record in its place. -/
def setRequest (L : Ledger) (q : Request) : Ledger :=
  let records := ((L.requests.get? q.grantId.1).getD .empty).set q.requestId.1 q
  { L with requests := L.requests.set q.grantId.1 records }

/-- `#activationByTransaction.get`: a transaction reference that is an array is
a key of its own, which no later call finds again. -/
def activationByTransaction? (L : Ledger) (activation : Activation) : Option Identifier :=
  if activation.1.transactionId.depth = 0 then L.activationByTransaction.get?
  activation.1.transactionId.text
  else none

/-- Add a grant that is in none of the maps, with no requests. -/
def addGrant (L : Ledger) (g : Grant) : Ledger where
  offers := L.offers
  activations := L.activations.set g.activationId.1 g.stored
  grants := L.grants.set g.grantId.1 g
  activationByAuthoritySettlement :=
    L.activationByAuthoritySettlement.set (authoritySettlementKey g.activation) g.activationId
  activationByTransaction :=
    if g.transactionId.depth = 0 then L.activationByTransaction.set g.transactionId.text
    g.activationId
    else L.activationByTransaction
  grantByCapability := L.grantByCapability.set g.capabilityCommitment.1 g.grantId
  requests := L.requests.set g.grantId.1 .empty

def requestCount (L : Ledger) : Nat := (L.requests.values.map JsMap.size).sum

def hasUnresolvedExecution (L : Ledger) : Bool :=
  L.requests.values.any fun rs => rs.values.any fun q => q.state.unresolved

end Ledger

/-- One instance of `InMemoryServiceCreditModel`. -/
structure Model where
  ledger : Ledger
  operationActive : Bool
  callbackActive : Bool
  callbackReentryAttempted : Bool

namespace Model

/-- Between public operations. -/
def idle (L : Ledger) : Model := ⟨L, false, false, false⟩

/-- Inside a public operation, and in none of its callbacks. -/
def busy (L : Ledger) : Model := ⟨L, true, false, false⟩

/-- `new InMemoryServiceCreditModel(options)`. -/
def new : Model := idle .empty

end Model

/-! ### Re-entry and callbacks -/

/-- `#runPublicOperation`. -/
def runPublicOperation {α : Type} (operation : Prog Model Code α) : Prog Model Code α := do
  let m ← get
  if m.operationActive then
    modify fun m => { m with callbackReentryAttempted := m.callbackReentryAttempted || m.callbackActive }
    throw .REENTRANT_OPERATION
  else
    modify fun m => { m with operationActive := true }
    operation.finallyDo fun m => { m with operationActive := false }

/-- A callback: the public operations of the same model it calls, whose
failures it may catch, and then its value, or none when it throws. -/
structure Callback where
  calls : List (Prog Model Code Unit)
  result : Option Value

/-- The callbacks of one call: the readings of the clock in their order, and
the price of a request. -/
structure Env where
  now : Nat → Callback
  deriveCost : Value → Callback

/-- The calls a callback makes back into the model. -/
def callBack : List (Prog Model Code Unit) → Prog Model Code Unit
  | [] => pure ()
  | call :: calls => do
    attempt (runPublicOperation call)
    callBack calls

/-- `#invokeCallback`. -/
def invokeCallback (callback : Callback) (invalidCode : Code) : Prog Model Code Value := do
  let m ← get
  failIf (m.callbackActive = true) .INVARIANT_VIOLATION
  modify fun m => { m with callbackActive := true, callbackReentryAttempted := false }
  callBack callback.calls
  let m ← get
  modify fun m => { m with callbackActive := false, callbackReentryAttempted := false }
  failIf (m.callbackReentryAttempted = true) invalidCode
  orFail callback.result invalidCode

/-- `#readNow`; `reading` counts the readings of one call. -/
def readNow (env : Env) (reading : Nat) : Prog Model Code Int := do
  let value ← invokeCallback (env.now reading) .INVALID_CLOCK
  let now ← lift ((Codec.integer (fun n => decide (0 ≤ n)) Code.INVALID_CLOCK).decode value)
  return now.1

/-- `#refreshGrant`: the record as it is afterwards. -/
def refreshGrant (env : Env) (reading : Nat) (record : Grant) : Prog Model Code Grant := do
  if record.lifecycle = .ACTIVE then
    let now ← readNow env reading
    if record.expiresAt.1 ≤ now then
      let expired := { record with lifecycle := .EXPIRED }
      modify fun m => { m with ledger := m.ledger.setGrant expired }
      return expired
    else return record
  else return record

/-! ### Lookups and counters -/

/-- `#requireGrant`. -/
def requireGrant (grantId : Identifier) : Prog Model Code Grant := do
  let m ← get
  orFail (m.ledger.grants.get? grantId.1) .GRANT_NOT_FOUND

/-- `#requireRequest` of a captured reference. -/
def requireRequest (reference : Reference) : Prog Model Code (Grant × Request) := do
  let grant ← requireGrant reference.grantId
  let m ← get
  let request ← orFail (m.ledger.request? reference.grantId.1 reference.requestId.1)
      .REQUEST_NOT_FOUND
  return (grant, request)

/-- `#requestAdmissionState`. -/
def requestAdmissionState : Prog Model Code (Nat × Bool) := do
  let m ← get
  failIf (MAX_HYDRATED_REQUESTS < m.ledger.requestCount) .INVARIANT_VIOLATION
  return (m.ledger.requestCount, m.ledger.hasUnresolvedExecution)

/-- A counter `#assertCounters` accepts. -/
def isCounter (n : Int) : Bool := decide (n.natAbs ≤ 9007199254740991 ∧ 0 ≤ n)

/-- What `#assertCounters` asks of a grant. -/
def Grant.countersHold (g : Grant) : Bool :=
  isCounter g.availableUnits && isCounter g.heldUnits && isCounter g.consumedUnits
    && g.totalUnits.1 == Js.add (Js.add g.availableUnits g.heldUnits) g.consumedUnits

/-- `#assertCounters`. -/
def assertCounters (g : Grant) : Prog Model Code Unit :=
  failIf (g.countersHold = false) .INVARIANT_VIOLATION

/-- What `#serverCost` shows the pricing callback. -/
def costContext (offer : Offer) (grant : Grant) (request : RequestInput) : Value := .obj [
  ("modelVersion", .num 1),
  ("offer", .obj [
    ("providerId", .str offer.providerId.1),
    ("serviceId", .str offer.serviceId.1),
    ("offerId", .str offer.offerId.1),
    ("offerVersion", .num offer.offerVersion.1),
    ("costPolicyId", .str offer.costPolicyId.1)]),
  ("grant", .obj [
    ("grantId", .str grant.grantId.1),
    ("offerId", .str grant.offerId.1),
    ("offerVersion", .num grant.offerVersion.1)]),
  ("request", .obj [
    ("modelVersion", .num 1),
    ("grantId", .str request.grantId.1),
    ("requestId", .str request.requestId.1),
    ("method", .str request.method.1),
    ("routeId", .str request.routeId.1),
    ("canonicalBodyDigest", .str request.canonicalBodyDigest.1),
    ("selectedContentType", .str request.selectedContentType.1)])]

/-- `#serverCost`. -/
def serverCost (env : Env) (offer : Offer) (grant : Grant) (request : RequestInput) :
    Prog Model Code PositiveInt := do
  let costUnits ← invokeCallback (env.deriveCost (costContext offer grant request)) .INVALID_COST
  lift ((Codec.integer (fun n => decide (0 < n)) Code.INVALID_COST).decode costUnits)

end Credit
end ZenonX402
