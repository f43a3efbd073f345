/-
# What the facilitator answers

The resource server takes nothing from an answer of the facilitator but what it finds in
the own data properties of an object, and looks at them one by one: an answer may show
itself differently each time that it is looked at (`Answer`), be no object at all, or
have accessors. From what it finds the server makes evidence that names the payment that
was submitted, or gives the payment up for reconciliation (`Outcome`).

Positive evidence names the payment (`positiveSettlementEvidence_some`,
`positiveTransitionEvidence_some`).

Key definitions: `View`, `Answer`, `Submitted`, `Outcome`, `positiveSettlementEvidence`,
`positiveTransitionEvidence`, `nonPositiveSettlementOutcome`, `thresholdPendingEvidence`,
`terminalReconciliationEvidence`, `definiteRejectionEvidence`, `publicSettlement`.
-/
import ZenonX402.Lib.JsMap
import ZenonX402.Resource.Wire

namespace ZenonX402
namespace Resource

open Js
open Journal (get isHashHex Node)
open String (utf8Len)

/-- What the server takes from the platform. `canonicalAddress` holds of the texts that
`Address.parse` reads as the address of a user and writes again as they are. -/
structure Platform extends Node where
  canonicalAddress : String → Bool

/-! ### Looking at an answer -/

/-- What `getOwnPropertyDescriptor` finds under a name, if the value is an object. -/
inductive Property where
  | invalid
  | missing
  | accessor
  | error
  | data (value : Value) (enumerable writable configurable : Bool)

/-- A value as it shows itself while it is looked at: `none` for keys that cannot be listed, and for
a symbol. -/
structure View where
  isObject : Bool
  isProxy : Bool
  isPlainObject : Bool
  ownKeys : Option (List (Option String))
  property : String → Property

/-- Where the server looks at an answer. -/
inductive Site where
  | terminal
  | terminalEvidence
  | pending
  | pendingEvidence
  | success
  | rejection
  | rejectionHash
  | nonPositive
  | positive
  | positiveHash
  | transition
  | transitionHash
  | cachedResponse
  deriving DecidableEq

abbrev Answer := Site → View

namespace View

variable (value : View)

def inspectOwnProperty (field : String) : Property :=
  if value.isObject then value.property field else .invalid

/-- The value of an own data property. -/
def dataOf? (field : String) : Option Value := match value.inspectOwnProperty field with
  | .data v _ _ _ => some v
  | _ => none

/-- The property is an own data property that holds the text. -/
def holdsText (field text : String) : Bool := (value.dataOf? field).any (·.strictEq (.str text))

/-- The property is there, and is not one that can be read without running code. -/
def hides (field : String) : Bool := match value.inspectOwnProperty field with
  | .accessor | .error => true
  | _ => false

/-- The property is an own data property or it is not there. -/
def isPlainProperty (field : String) : Bool := match value.inspectOwnProperty field with
  | .missing | .data .. => true
  | _ => false

def ownDataFields : List String → Option (List (String × Value))
  | [] => some []
  | field :: fields => do
    let v ← value.dataOf? field
    let rest ← ownDataFields fields
    return (field, v) :: rest

def ownDataSnapshot (fields : List String) : Option Value :=
  if value.isPlainObject then (value.ownDataFields fields).map Value.obj else none

/-- The property `then` is the shield of an outcome: a data property that is `undefined` and cannot
be changed. -/
def isShield : Bool := match value.property "then" with
  | .data v enumerable writable configurable => v.strictEq .undefined && !enumerable && !writable
      && !configurable
  | _ => false

def exactFacilitatorResultKeys (fields : List String) : Bool := match value.ownKeys with
  | none => false
  | some keys =>
    let names := keys.filterMap id
    let allowed := if names.contains "then" then fields ++ ["then"] else fields
    keys.all Option.isSome && (!names.contains "then" || value.isShield)
      && decide (keys.length = allowed.length)
      && names.all fun key => allowed.contains key

/-- `exactThresholdPendingDataSnapshot`, whose fields are in the order of the keys. -/
def pendingFields (fields : List String) : List (Option String) → Option (List (String × Value))
  | [] => some []
  | none :: _ => none
  | some key :: keys =>
    if key = "then" then if value.isShield then pendingFields fields keys else none
    else if fields.contains key then match value.property key with
      | .data v true _ _ => do
        let rest ← pendingFields fields keys
        return (key, v) :: rest
      | _ => none
    else none

def exactThresholdPendingDataSnapshot (fields : List String) : Option Value := do
  guard (value.isProxy = false ∧ value.isPlainObject = true)
  let keys ← value.ownKeys
  guard (keys.length = fields.length + 1 ∧ (keys.filter (· = some "then")).length = 1)
  let snapshot ← value.pendingFields fields keys
  guard ((fields.all fun field => (snapshot.lookup field).isSome) = true)
  return .obj snapshot

end View

/-! ### The payment that was submitted -/

structure Submitted where
  network : Value
  acceptedNetwork : Value
  transaction : Value
  payer : Value
  authorizationKey : String

def paymentIntentDigest (sha : Sha256) (paymentRequired accepted : Value) : String :=
  sha.hex (canonicalJson (.obj [("x402Version", get paymentRequired "x402Version"),
    ("resource", get paymentRequired "resource"), ("accepted", accepted)]))

def submittedSettlementIdentity (sha : Sha256) (paymentPayload requirement paymentRequired : Value) : Submitted :=
  let transaction := get (get (get paymentPayload "payload") "transaction") "hash"
  let intentDigest := paymentIntentDigest sha paymentRequired requirement
  let resourceDigest := sha.hex (canonicalJson (get paymentRequired "resource"))
  { network := get requirement "network"
    acceptedNetwork := get (get paymentPayload "accepted") "network"
    transaction := transaction
    payer := get (get (get paymentPayload "payload") "transaction") "address"
    authorizationKey := sha.hex (canonicalJson (.obj [("domain", .str "zenon-x402-authorization-v1"),
      ("chainProfile", get (get requirement "extra") "zenonChain"), ("intentDigest", .str intentDigest),
      ("resourceDigest", .str resourceDigest), ("transactionHash", transaction)])) }

section

variable (platform : Platform)

def isCanonicalPayer (value network : Value) : Bool := match value with
  | .str s => s ≠ "" && decide (utf16Length s ≤ 128)
    && if network.strictEq (.str MOCK_NETWORK) then Text.prefixed "mock-" Text.isHexLower 32 s
      else network.strictEq (.str EXPERIMENTAL_LIVE_NETWORK) && platform.canonicalAddress s
  | _ => false

/-- The fields that every settlement has name the payment. -/
def namesPayment (evidence : Value) (submitted : Submitted) : Bool :=
  (get evidence "network").strictEq submitted.network
    && submitted.acceptedNetwork.strictEq submitted.network
    && (get evidence "transaction").strictEq submitted.transaction
    && isHashHex (get evidence "transaction")
    && (get evidence "payer").strictEq submitted.payer
    && isCanonicalPayer platform (get evidence "payer") submitted.network

/-- The authorization key is that of the payment. -/
def namesAuthorization (evidence : Value) (submitted : Submitted) : Bool :=
  (get evidence "authorizationKey").strictEq (.str submitted.authorizationKey)
    && isHashHex (get evidence "authorizationKey")

/-! ### Outcomes -/

inductive Outcome where
  | internalError
  | terminalReconciliation (settlement : Value)
  | definiteRejection (settlement : Value)
  | paymentRequired
  | recovery (settlement : Value)
  | delivered (settlement cached : Value)

def DEFINITIVE_SETTLEMENT_FAILURE : String := "payment_settlement_failed"

def TERMINAL_RECONCILIATION_FAILURE : String := "payment_reconciliation_terminal"

def TERMINAL_RECONCILIATION_STATES : List String :=
  ["VALIDATED", "SUBMISSION_ACKNOWLEDGED", "SUBMISSION_OUTCOME_UNKNOWN"]

def RECOVERY_STATES : List String :=
  ["SUBMISSION_ACKNOWLEDGED", "SUBMISSION_OUTCOME_UNKNOWN", "DELIVERY_PENDING"]

def POSITIVE_DELIVERY_STATES : List String := ["NONE", "DELIVERY_PENDING", "DELIVERED"]

/-- A text of the list. -/
def isOneOf (texts : List String) : Value → Bool
  | .str s => texts.contains s
  | _ => false

def submittedPaymentRecovery (submitted : Submitted) (state : String) : Outcome :=
  .recovery (.obj [("success", .bool false), ("network", submitted.network),
    ("transaction", submitted.transaction), ("payer", submitted.payer), ("state", .str state),
    ("errorReason", .str (if state = "SUBMISSION_OUTCOME_UNKNOWN" then "payment_outcome_unknown"
      else "payment_reconciliation_required")),
    ("retrySamePayment", .bool true)])

def submittedDeliveryRecovery (submitted : Submitted) : Outcome :=
  .recovery (.obj [("success", .bool false), ("network", submitted.network),
    ("transaction", submitted.transaction), ("payer", submitted.payer),
    ("state", .str "DELIVERY_PENDING"), ("deliveryState", .str "DELIVERY_PENDING"),
    ("errorReason", .str "resource_delivery_outcome_unknown"), ("retrySamePayment", .bool true)])

/-- `{ ...settlement, ...fields }`. -/
def withFields (settlement : Value) (fields : List (String × Value)) : Value :=
  match settlement with
  | .obj fs => .obj (fields.foldl (fun fs f => JsMap.setEntry f.1 f.2 fs) fs)
  | settlement => settlement

def deliveryRecovery (settlement : Value) (errorReason deliveryState : String) : Outcome :=
  .recovery (withFields settlement [("success", .bool false), ("deliveryState", .str deliveryState),
    ("errorReason", .str errorReason), ("retrySamePayment", .bool true)])

/-- `typeof value === 'string' ? value : otherwise`. -/
def textOr (otherwise : String) : Value → Value
  | .str s => .str s
  | _ => .str otherwise

/-- The field of a settlement, if it is a text. -/
def textField (settlement : Value) (key : String) : List (String × Value) :=
  match get settlement key with
  | .str s => [(key, .str s)]
  | _ => []

def publicSettlement (settlement : Value) : Value :=
  .obj ([("success", .bool ((get settlement "success").strictEq (.bool true))),
    ("network", textOr "" (get settlement "network")),
    ("transaction", textOr "" (get settlement "transaction")),
    ("payer", textOr "" (get settlement "payer")),
    ("state", textOr "UNKNOWN" (get settlement "state"))]
    ++ textField settlement "errorReason"
    ++ if (get settlement "retrySamePayment").strictEq (.bool true)
    then [("retrySamePayment", .bool true)] else [])

/-! ### Evidence -/

def positiveSettlementEvidence (value : Answer) (submitted : Submitted) : Option Value := do
  let evidence ← (value .positive).ownDataSnapshot
    ["success", "network", "transaction", "payer", "state", "authorizationKey", "deliveryState"]
  guard ((get evidence "success").strictEq (.bool true) = true
    ∧ (get evidence "state").strictEq (.str "MOMENTUM_INCLUDED") = true
    ∧ isOneOf POSITIVE_DELIVERY_STATES (get evidence "deliveryState") = true
    ∧ namesPayment platform evidence submitted = true
    ∧ namesAuthorization evidence submitted = true)
  guard ((value .positiveHash).isPlainProperty "transactionHash" = true)
  guard (((value .positiveHash).dataOf? "transactionHash").all
    (·.strictEq (get evidence "transaction")) = true)
  return evidence

end

/-- Which of two properties names the transaction, if they do not disagree. -/
def normalizedTransaction (view : View) : Option Value :=
  if view.isPlainProperty "transaction" && view.isPlainProperty "transactionHash" then
    match view.dataOf? "transaction", view.dataOf? "transactionHash" with
    | some transaction, some transactionHash =>
        if transaction.strictEq transactionHash then some transaction else none
    | some transaction, none => some transaction
    | none, some transactionHash => some transactionHash
    | none, none => none
  else none

def positiveTransitionEvidence (value : Answer) (submitted : Submitted)
    (requiredFields : List String) : Option Value := do
  let evidence ← (value .transition).ownDataSnapshot
      (["authorizationKey", "payer"] ++ requiredFields)
  let transaction ← normalizedTransaction (value .transitionHash)
  guard ((get evidence "authorizationKey").strictEq (.str submitted.authorizationKey) = true
    ∧ (get evidence "payer").strictEq submitted.payer = true
    ∧ transaction.strictEq submitted.transaction = true)
  return withFields evidence [("transaction", transaction)]

/-- `successHidden`: the property `success` could not be read without running code. -/
def nonPositiveSettlementOutcome (value : Answer) (submitted : Submitted) (successHidden : Bool) :
    Outcome :=
  let view := value .nonPositive
  let retry := (view.dataOf? "retrySamePayment").any (·.strictEq (.bool true))
  if successHidden then submittedPaymentRecovery submitted "SUBMISSION_OUTCOME_UNKNOWN"
  else if view.holdsText "state" "MOMENTUM_INCLUDED" then submittedDeliveryRecovery submitted
  else if view.hides "retrySamePayment" || view.hides "state" then
    submittedPaymentRecovery submitted "SUBMISSION_OUTCOME_UNKNOWN"
  else if view.holdsText "state" "DELIVERY_PENDING" then submittedDeliveryRecovery submitted
  else if view.holdsText "state" "SUBMISSION_ACKNOWLEDGED" then submittedPaymentRecovery submitted
    "SUBMISSION_ACKNOWLEDGED"
  else if view.holdsText "state" "VALIDATED" && retry
    then submittedPaymentRecovery submitted "VALIDATED"
  else if retry || RECOVERY_STATES.any (view.holdsText "state") then
    submittedPaymentRecovery submitted "SUBMISSION_OUTCOME_UNKNOWN"
  else .paymentRequired

/-- What a check finds: it is not meant, it is malformed, or it has a result. -/
inductive Finding (α : Type) where
  | absent
  | malformed
  | found (a : α)

section

variable (platform : Platform)

/-- The requirement waits for more than one confirmation. -/
def hasThreshold (requirement : Value) : Bool :=
  (get requirement "network").strictEq (.str EXPERIMENTAL_LIVE_NETWORK)
    && Journal.isInteger (fun n => decide (1 < n))
    (get (get requirement "extra") "minimumMomentumConfirmations")

def THRESHOLD_PENDING_FIELDS : List String :=
  ["success", "network", "transaction", "payer", "errorReason", "state", "authorizationKey",
    "retrySamePayment", "deliveryState"]

def thresholdPendingEvidence (value : Answer) (submitted : Submitted)
    (acceptedRequirement : Value) : Finding Outcome :=
  let view := value .pending
  let failed := (view.dataOf? "success").any (·.strictEq (.bool false))
  if hasThreshold acceptedRequirement = false then .absent
  else if view.isObject && view.isProxy then .malformed
  else if (view.holdsText "errorReason" "momentum_confirmation_threshold_pending"
    || failed && view.holdsText "state" "MOMENTUM_INCLUDED") = false then .absent
  else match (value .pendingEvidence).exactThresholdPendingDataSnapshot THRESHOLD_PENDING_FIELDS with
    | none => .malformed
    | some evidence =>
      if (get evidence "success").strictEq (.bool false) && namesPayment platform evidence submitted
        && (get evidence "errorReason").strictEq (.str "momentum_confirmation_threshold_pending")
        && (get evidence "state").strictEq (.str "MOMENTUM_INCLUDED")
        && namesAuthorization evidence submitted
        && (get evidence "retrySamePayment").strictEq (.bool true)
        && (get evidence "deliveryState").strictEq (.str "NONE")
      then .found (submittedPaymentRecovery submitted "MOMENTUM_INCLUDED") else .malformed

def TERMINAL_FIELDS : List String :=
  ["success", "network", "transaction", "payer", "state", "authorizationKey", "deliveryState",
    "retrySamePayment", "errorReason"]

/-- What the server tells of a payment that it has given up. -/
def finalSettlement (submitted : Submitted) (state : Value) (errorReason : String) : Value :=
  .obj [("success", .bool false), ("network", submitted.network),
    ("transaction", submitted.transaction), ("payer", submitted.payer), ("state", state),
    ("errorReason", .str errorReason)]

def terminalReconciliationEvidence (settlement : Answer) (submitted : Submitted) : Finding Value :=
  if (settlement .terminal).hides "errorReason" then .malformed
  else if (settlement .terminal).holdsText "errorReason" TERMINAL_RECONCILIATION_FAILURE = false
  then .absent
  else match (settlement .terminalEvidence).ownDataSnapshot TERMINAL_FIELDS with
    | none => .malformed
    | some evidence =>
      if (settlement .terminalEvidence).exactFacilitatorResultKeys TERMINAL_FIELDS
        && (get evidence "success").strictEq (.bool false)
        && isOneOf TERMINAL_RECONCILIATION_STATES (get evidence "state")
        && (get evidence "deliveryState").strictEq (.str "NONE")
        && (get evidence "retrySamePayment").strictEq (.bool false)
        && (get evidence "errorReason").strictEq (.str TERMINAL_RECONCILIATION_FAILURE)
        && namesPayment platform evidence submitted && namesAuthorization evidence submitted
      then .found (finalSettlement submitted (get evidence "state") TERMINAL_RECONCILIATION_FAILURE)
        else .malformed

def definiteRejectionEvidence (settlement : Answer) (submitted : Submitted) : Finding Value :=
  match (settlement .rejection).ownDataSnapshot
    ["success", "network", "transaction", "payer", "state", "retrySamePayment",
      "deliveryState"] with
  | none => .absent
  | some evidence =>
    if ((get evidence "success").strictEq (.bool false)
      && (get evidence "state").strictEq (.str "VALIDATED")
      && (get evidence "retrySamePayment").strictEq (.bool false)
      && (get evidence "deliveryState").strictEq (.str "NONE")
      && isHashHex submitted.transaction
      && isCanonicalPayer platform submitted.payer submitted.network
      && namesPayment platform evidence submitted) = false then .absent
    else if (settlement .rejectionHash).isPlainProperty "transactionHash" = false
      ∨ ((settlement .rejectionHash).dataOf? "transactionHash").all
      (·.strictEq (get evidence "transaction")) = false
    then .malformed
    else .found (finalSettlement submitted (.str "VALIDATED") DEFINITIVE_SETTLEMENT_FAILURE)

end

/-! ### What evidence says -/

/-- The identity under which a payment is delivered. -/
structure Identity where
  network : Value
  transaction : Value
  payer : Value
  authorizationKey : Value

def Submitted.identity (submitted : Submitted) : Identity where
  network := submitted.network
  transaction := submitted.transaction
  payer := submitted.payer
  authorizationKey := .str submitted.authorizationKey

/-- The identity that a settlement has in its fields. -/
def identityOf (settlement : Value) : Identity where
  network := get settlement "network"
  transaction := get settlement "transaction"
  payer := get settlement "payer"
  authorizationKey := get settlement "authorizationKey"

theorem ownDataFields_some {view : View} : ∀ {fields : List String} {fs : List (String × Value)},
    view.ownDataFields fields = some fs →
      fs.map Prod.fst = fields ∧ ∀ field ∈ fields, view.dataOf? field = some (get (.obj fs) field)
  | [], _, h => by
    cases h
    exact ⟨rfl, List.forall_mem_nil _⟩
  | field :: fields, _, h => by
    simp only [View.ownDataFields, Option.bind_eq_bind, Option.bind_eq_some_iff, Option.pure_def,
      Option.some.injEq] at h
    obtain ⟨v, hv, rest, hrest, rfl⟩ := h
    obtain ⟨hkeys, hdata⟩ := ownDataFields_some hrest
    refine ⟨by rw [List.map_cons, hkeys], fun key hkey => ?_⟩
    by_cases hsame : key = field
    · rw [hsame, hv, get_obj, List.lookup_cons_self]
      rfl
    · rw [hdata key ((List.mem_cons.mp hkey).resolve_left hsame), get_obj, get_obj,
        List.lookup_cons, beq_eq_false_iff_ne.mpr hsame]

/-- A snapshot has the fields that were asked for, with what their properties held. -/
theorem ownDataSnapshot_some {view : View} {fields : List String} {evidence : Value}
    (h : view.ownDataSnapshot fields = some evidence) :
    (∃ fs, evidence = .obj fs ∧ fs.map Prod.fst = fields)
      ∧ ∀ field ∈ fields, view.dataOf? field = some (get evidence field) := by
  unfold View.ownDataSnapshot at h
  split at h
  · obtain ⟨fs, hfs, rfl⟩ := Option.map_eq_some_iff.mp h
    obtain ⟨hkeys, hdata⟩ := ownDataFields_some hfs
    exact ⟨⟨fs, rfl, hkeys⟩, hdata⟩
  · cases h

/-- A snapshot has no other fields. -/
theorem get_snapshot_other {view : View} {fields : List String} {evidence : Value}
    (h : view.ownDataSnapshot fields = some evidence) {key : String} (hkey : key ∉ fields) :
    get evidence key = .undefined := by
  obtain ⟨⟨fs, rfl, hkeys⟩, _⟩ := ownDataSnapshot_some h
  rw [get_obj, Value.lookup_of_notMem (by rwa [hkeys])]
  rfl

theorem length_le_utf8Len : ∀ cs : List Char, cs.length ≤ utf8Len cs
  | [] => le_rfl
  | c :: cs => by
    have hpos := c.utf8Size_pos
    have hcs := length_le_utf8Len cs
    rw [List.length_cons, String.utf8Len_cons]
    omega

/-- Of what a value can be and be equal to another, only a text has the form of a hash. -/
theorem isHashHex_str {v w : Value} (h : isHashHex v = true) (heq : v.strictEq w = true) :
    ∃ s, v = .str s ∧ Text.isHash s = true := by
  cases v with
  | str s => exact ⟨s, rfl, h⟩
  | num n =>
    simp only [isHashHex, Journal.testText, Journal.toText] at h
    split at h
    · next text htext =>
      split at htext
      · next hsafe =>
        have hlength := (Text.isHash_iff.mp h).2
        rw [← Option.some.inj htext, String.toList_ofList] at hlength
        have hsize := Value.textSize_num_le hsafe
        have hle := length_le_utf8Len (Json.writeInt n)
        simp only [Value.textSize, Json.write] at hsize
        omega
      · cases htext
    · cases h
  | bool b => cases b <;> exact absurd h (by decide)
  | arr _ | obj _ | host | fractional => cases heq
  | null | undefined | negZero => exact absurd h (by decide)

theorem isOneOf_mem {texts : List String} {v : Value} (h : isOneOf texts v = true) :
    ∃ s ∈ texts, v = .str s := by
  cases v with
  | str s => exact ⟨s, List.contains_iff_mem.mp h, rfl⟩
  | _ => cases h

theorem isCanonicalPayer_str {platform : Platform} {v network : Value}
    (h : isCanonicalPayer platform v network = true) :
    (∃ s, v = .str s ∧ s ≠ "" ∧ utf16Length s ≤ 128)
      ∧ (network = .str MOCK_NETWORK ∨ network = .str EXPERIMENTAL_LIVE_NETWORK) := by
  cases v with
  | str s =>
    simp only [isCanonicalPayer, Bool.and_eq_true, decide_eq_true_eq] at h
    obtain ⟨⟨hne, hlength⟩, hnetwork⟩ := h
    refine ⟨⟨s, rfl, hne, hlength⟩, ?_⟩
    split at hnetwork
    · next hmock => exact .inl (Value.strictEq_str.mp hmock)
    · exact .inr (Value.strictEq_str.mp (Bool.and_eq_true _ _ ▸ hnetwork).1)
  | _ => cases h

/-- The evidence names the payment. -/
structure Names (evidence : Value) (submitted : Submitted) : Prop where
  network : get evidence "network" = submitted.network
  transaction : get evidence "transaction" = submitted.transaction
  payer : get evidence "payer" = submitted.payer
  /-- What it names has the form of a payment. -/
  known : submitted.network = .str MOCK_NETWORK ∨ submitted.network = .str EXPERIMENTAL_LIVE_NETWORK
  hash : ∃ s, submitted.transaction = .str s ∧ Text.isHash s = true
  text : ∃ s, submitted.payer = .str s ∧ s ≠ "" ∧ utf16Length s ≤ 128

theorem names_of {platform : Platform} {evidence : Value} {submitted : Submitted}
    (h : namesPayment platform evidence submitted = true) : Names evidence submitted := by
  simp only [namesPayment, Bool.and_eq_true] at h
  obtain ⟨⟨⟨⟨⟨hnetwork, _⟩, htransaction⟩, hhash⟩, hpayer⟩, hcanonical⟩ := h
  obtain ⟨⟨payer, hpayerText, hne, hlength⟩, hknown⟩ := isCanonicalPayer_str hcanonical
  obtain ⟨transaction, htransactionText, hhex⟩ := isHashHex_str hhash htransaction
  have hpayerEq : submitted.payer = .str payer := by
    rw [hpayerText] at hpayer
    exact Value.strictEq_str.mp (by rwa [Value.strictEq_comm])
  have htransactionEq : submitted.transaction = .str transaction := by
    rw [htransactionText] at htransaction
    exact Value.strictEq_str.mp (by rwa [Value.strictEq_comm])
  have hnetworkEq : get evidence "network" = submitted.network := by
    rcases hknown with hmock | hlive
    · rw [hmock] at hnetwork ⊢
      exact Value.strictEq_str.mp hnetwork
    · rw [hlive] at hnetwork ⊢
      exact Value.strictEq_str.mp hnetwork
  exact ⟨hnetworkEq, htransactionText.trans htransactionEq.symm,
    hpayerText.trans hpayerEq.symm, hknown, ⟨transaction, htransactionEq, hhex⟩,
    ⟨payer, hpayerEq, hne, hlength⟩⟩

section

variable {platform : Platform} {value : Answer} {submitted : Submitted} {evidence : Value}

/-- Positive evidence is of the payment that was submitted, included in a momentum. -/
theorem positiveSettlementEvidence_some (h : positiveSettlementEvidence platform value submitted
      = some evidence) :
    Names evidence submitted ∧ identityOf evidence = submitted.identity
      ∧ (value .positive).dataOf? "success" = some (.bool true)
      ∧ (value .positive).dataOf? "state" = some (.str "MOMENTUM_INCLUDED")
      ∧ (value .positive).dataOf? "deliveryState" = some (get evidence "deliveryState")
      ∧ isOneOf POSITIVE_DELIVERY_STATES (get evidence "deliveryState") = true
      ∧ (value .positive).ownDataSnapshot
        ["success", "network", "transaction", "payer", "state", "authorizationKey", "deliveryState"]
          = some evidence := by
  simp only [positiveSettlementEvidence, Option.bind_eq_bind, Option.bind_eq_some_iff, guard_some,
    Option.pure_def, Option.some.injEq] at h
  obtain ⟨snapshot, hsnapshot, _, ⟨hsuccess, hstate, hdelivery, hnames, hauthorization⟩, _, _,
    _, _, rfl⟩ := h
  obtain ⟨_, hdata⟩ := ownDataSnapshot_some hsnapshot
  have hpayment := names_of hnames
  rw [namesAuthorization, Bool.and_eq_true] at hauthorization
  refine ⟨hpayment, ?_, ?_, ?_, hdata _ (by decide), hdelivery, hsnapshot⟩
  · rw [identityOf, hpayment.network, hpayment.transaction, hpayment.payer,
      Value.strictEq_str.mp hauthorization.1]
    rfl
  · rw [hdata "success" (by decide), Value.strictEq_bool.mp hsuccess]
  · rw [hdata "state" (by decide), Value.strictEq_str.mp hstate]

/-- Evidence of a transition names the payment by its key, its payer and its transaction. -/
theorem positiveTransitionEvidence_some {requiredFields : List String}
    (h : positiveTransitionEvidence value submitted requiredFields = some evidence) :
    ((value .transition).dataOf? "authorizationKey" = some (.str submitted.authorizationKey)
      ∧ (∃ payer, (value .transition).dataOf? "payer" = some payer
        ∧ payer.strictEq submitted.payer = true)
      ∧ ∃ transaction, normalizedTransaction (value .transitionHash) = some transaction
        ∧ transaction.strictEq submitted.transaction = true)
      ∧ ∀ field ∈ requiredFields, field ≠ "transaction" → (value .transition).dataOf? field
        = some (get evidence field) := by
  simp only [positiveTransitionEvidence, Option.bind_eq_bind, Option.bind_eq_some_iff, guard_some,
    Option.pure_def, Option.some.injEq] at h
  obtain ⟨snapshot, hsnapshot, transaction, htransaction, _, ⟨hkey, hpayer, hsame⟩, rfl⟩ := h
  obtain ⟨⟨fs, rfl, hkeys⟩, hdata⟩ := ownDataSnapshot_some hsnapshot
  refine ⟨⟨?_, ⟨_, hdata "payer" (by simp), hpayer⟩, transaction, htransaction, hsame⟩,
    fun field hfield hne => ?_⟩
  · rw [hdata "authorizationKey" (by simp), Value.strictEq_str.mp hkey]
  · rw [hdata field (List.mem_append_right _ hfield)]
    simp only [withFields, List.foldl_cons, List.foldl_nil, get_obj,
      JsMap.lookup_setEntry, if_neg hne]

theorem terminalReconciliationEvidence_found
    (h : terminalReconciliationEvidence platform value submitted = .found evidence) :
    ∃ state ∈ TERMINAL_RECONCILIATION_STATES,
    Names (finalSettlement submitted (.str state) TERMINAL_RECONCILIATION_FAILURE) submitted
      ∧ evidence = finalSettlement submitted (.str state) TERMINAL_RECONCILIATION_FAILURE := by
  unfold terminalReconciliationEvidence at h
  split at h
  · cases h
  split at h
  · cases h
  split at h
  · cases h
  · next snapshot _ =>
    split at h
    · next hall =>
      simp only [Bool.and_eq_true] at hall
      obtain ⟨⟨⟨⟨⟨⟨⟨_, _⟩, hstate⟩, _⟩, _⟩, _⟩, hnames⟩, _⟩ := hall
      have hpayment := names_of hnames
      unfold isOneOf at hstate
      split at hstate
      · next state heq =>
        rw [heq] at h
        exact ⟨state, List.contains_iff_mem.mp hstate,
          ⟨rfl, rfl, rfl, hpayment.known, hpayment.hash, hpayment.text⟩, (Finding.found.inj h).symm⟩
      · cases hstate
    · cases h

theorem definiteRejectionEvidence_found (h : definiteRejectionEvidence platform value submitted
      = .found evidence) :
    Names (finalSettlement submitted (.str "VALIDATED") DEFINITIVE_SETTLEMENT_FAILURE) submitted
      ∧ evidence = finalSettlement submitted (.str "VALIDATED") DEFINITIVE_SETTLEMENT_FAILURE := by
  unfold definiteRejectionEvidence at h
  split at h
  · cases h
  · split at h
    · cases h
    · next hall =>
      split at h
      · cases h
      · simp only [Bool.not_eq_false, Bool.and_eq_true] at hall
        have hpayment := names_of hall.2
        exact ⟨⟨rfl, rfl, rfl, hpayment.known, hpayment.hash, hpayment.text⟩,
          (Finding.found.inj h).symm⟩

theorem thresholdPendingEvidence_found {requirement : Value} {outcome : Outcome}
    (h : thresholdPendingEvidence platform value submitted requirement = .found outcome) :
    outcome = submittedPaymentRecovery submitted "MOMENTUM_INCLUDED" := by
  simp only [thresholdPendingEvidence] at h
  split at h
  · cases h
  split at h
  · cases h
  split at h
  · cases h
  split at h
  · cases h
  split at h
  · exact (Finding.found.inj h).symm
  · cases h

end

end Resource
end ZenonX402
