/-
# Submitting a payment

The buyer submits a signed payment by its text in a header, and believes of the response
only a settlement that names this payment and has a status, a state and fields that go
together (`validateSettlementResponse`): the payment is settled, rejected, given up for
reconciliation, or to be reconciled with the same payment (`valid_cases`). Whatever else
comes, or does not come, the outcome is unknown.

A response may show itself in any way while it is looked at (`Fetched`); its body is not
read.

Key definitions: `observePostSubmissionResponse`, `validateBuyerPaymentPayload`,
`validateSettlementResponse`, `submitBoundPayment`.
Key theorems: `valid_cases`, `submitBoundPayment_settled`.
-/
import ZenonX402.Resource.Evidence

namespace ZenonX402
namespace Buyer

open Js
open Journal (get isText Node)
open Resource (hasOwn sameRequirements sameResource validatePaymentPayloadEnvelope decodeX402Header)

def PAYMENT_RESPONSE : String := "payment-response"

def PAYMENT_REQUIRED : String := "payment-required"

/-! ### Looking at a response -/

/-- The headers of a response: whether they are an object, whether they have a method `get` that is
found without running code, and what this gives. -/
structure Headers where
  isObject : Bool
  hasGet : Bool
  get : String → Option Value

/-- A response as it shows itself: `none` where looking throws. -/
structure Fetched where
  isObject : Bool
  status : Option Value
  headers : Option Headers

inductive Observation where
  | invalid (httpStatus : Option Int)
  | redirect (httpStatus : Int)
  | observed (httpStatus : Int) (settlementHeader paymentRequiredHeader : Option String)

/-- `isUsableFinalHttpStatus`, with the status. -/
def usableFinalHttpStatus : Value → Option Int
  | .num n => if 200 ≤ n ∧ n ≤ 599 then some n else none
  | _ => none

/-- What `headers.get` gave, if it is a text or `null`. -/
def headerText : Option Value → Option (Option String)
  | some (.str s) => some (some s)
  | some .null => some none
  | _ => none

def observeHeaders (httpStatus : Int) (headers : Headers) : Observation :=
  if headers.isObject = false ∨ headers.hasGet = false then .invalid (some httpStatus)
  else match headerText (headers.get PAYMENT_RESPONSE) with
    | none => .invalid (some httpStatus)
    | some none => .observed httpStatus none none
    | some (some settlementHeader) => match headerText (headers.get PAYMENT_REQUIRED) with
      | none => .invalid (some httpStatus)
      | some paymentRequiredHeader =>
          .observed httpStatus (some settlementHeader) paymentRequiredHeader

def observePostSubmissionResponse (response : Fetched) : Observation :=
  if response.isObject = false then .invalid none
  else match response.status.bind usableFinalHttpStatus with
    | none => .invalid none
    | some httpStatus =>
      if 300 ≤ httpStatus ∧ httpStatus < 400 then .redirect httpStatus
      else match response.headers with
        | none => .invalid (some httpStatus)
        | some headers => observeHeaders httpStatus headers

/-! ### Payments -/

def transactionOf (paymentPayload : Value) : Value :=
  get (get paymentPayload "payload") "transaction"

def validateBuyerPaymentPayload (node : Node)
    (paymentPayload paymentRequired accepted : Value) : Bool :=
  validatePaymentPayloadEnvelope node paymentPayload
    && (get paymentPayload "x402Version").strictEq (get paymentRequired "x402Version")
    && sameRequirements (get paymentPayload "accepted") accepted
    && sameResource node (get paymentPayload "resource") (get paymentRequired "resource")
    && isText Text.isHash (get (transactionOf paymentPayload) "hash")
    && isText (fun s => s ≠ "" && decide (utf16Length s ≤ 128))
    (get (transactionOf paymentPayload) "address")

/-! ### Settlements -/

def SETTLEMENT_FIELDS : List String := ["success", "network", "transaction", "payer", "state"]

def OPTIONAL_SETTLEMENT_FIELDS : List String := ["errorReason", "retrySamePayment"]

def RECOVERY_STATES : List String :=
  ["VALIDATED", "SUBMISSION_ACKNOWLEDGED", "SUBMISSION_OUTCOME_UNKNOWN", "MOMENTUM_INCLUDED",
    "DELIVERY_PENDING"]

/-- A text with something in it, of so many units. -/
def isShortText (max : Nat) (value : Value) : Bool :=
  isText (fun s => s ≠ "" && decide (utf16Length s ≤ max)) value

def isBool : Value → Bool
  | .bool _ => true
  | _ => false

/-- The fields of a settlement, and what they are. -/
def isSettlement (settlement : Value) : Bool :=
  Resource.assertExactKeys settlement SETTLEMENT_FIELDS OPTIONAL_SETTLEMENT_FIELDS
    && isBool (get settlement "success") && isText (fun _ => true) (get settlement "network")
    && isText Text.isHash (get settlement "transaction") && isShortText 128 (get settlement "payer")
    && isShortText 64 (get settlement "state")
    && (!hasOwn settlement "errorReason" || isShortText 128 (get settlement "errorReason"))

def namesSubmitted (settlement paymentPayload : Value) : Bool :=
  (get settlement "network").strictEq (get (get paymentPayload "accepted") "network")
    && (get settlement "transaction").strictEq (get (transactionOf paymentPayload) "hash")
    && (get settlement "payer").strictEq (get (transactionOf paymentPayload) "address")

def isSuccess (settlement : Value) (httpStatus : Int) : Bool :=
  (get settlement "state").strictEq (.str "MOMENTUM_INCLUDED")
    && decide (200 ≤ httpStatus ∧ httpStatus < 300)
    && !hasOwn settlement "errorReason" && !hasOwn settlement "retrySamePayment"

def isTerminal (settlement : Value) (httpStatus : Int)
    (paymentRequiredHeader : Option String) : Bool :=
  decide (httpStatus = 402) && paymentRequiredHeader.isNone
    && Resource.assertExactKeys settlement (SETTLEMENT_FIELDS ++ ["errorReason"]) []
    && Resource.isOneOf Resource.TERMINAL_RECONCILIATION_STATES (get settlement "state")
    && !hasOwn settlement "retrySamePayment"

def isDefinitive (settlement : Value) : Bool :=
  (get settlement "state").strictEq (.str "VALIDATED") && hasOwn settlement "errorReason"
    && (get settlement "errorReason").strictEq (.str Resource.DEFINITIVE_SETTLEMENT_FAILURE)
    && !hasOwn settlement "retrySamePayment"

def isRecovery (settlement : Value) (httpStatus : Int) : Bool :=
  decide (httpStatus = 409) && hasOwn settlement "retrySamePayment"
    && (get settlement "retrySamePayment").strictEq (.bool true) && hasOwn settlement "errorReason"
    && isText (fun _ => true) (get settlement "errorReason")
    && Resource.isOneOf RECOVERY_STATES (get settlement "state")

def validateSettlementResponse (settlement paymentPayload : Value) (httpStatus : Int)
    (paymentRequiredHeader : Option String) :
    Bool :=
  decide (200 ≤ httpStatus ∧ httpStatus ≤ 599) && isSettlement settlement
    && namesSubmitted settlement paymentPayload
    && if (get settlement "success").strictEq (.bool true) then isSuccess settlement httpStatus
      else if (get settlement "errorReason").strictEq (.str Resource.TERMINAL_RECONCILIATION_FAILURE) then
        isTerminal settlement httpStatus paymentRequiredHeader
      else if hasOwn settlement "retrySamePayment"
          && !(get settlement "retrySamePayment").strictEq (.bool true) then false
      else if httpStatus = 402 then isDefinitive settlement
      else isRecovery settlement httpStatus

/-! ### Outcomes -/

/-- What the buyer is left with. A handle for the same payment goes with an error, and with a
settlement if `handle`. -/
inductive Submission where
  | unknown (httpStatus : Option Int)
  | settled (settlement : Value) (handle : Bool)

/-- `none`: the fetch has thrown. -/
def submitBoundPayment (paymentPayload : Value) (response : Option Fetched) : Submission :=
  match response with
  | none => .unknown none
  | some response => match observePostSubmissionResponse response with
    | .invalid httpStatus => .unknown httpStatus
    | .redirect httpStatus => .unknown (some httpStatus)
    | .observed httpStatus none _ => .unknown (some httpStatus)
    | .observed httpStatus (some settlementHeader) paymentRequiredHeader =>
      if settlementHeader = "" then .unknown (some httpStatus)
      else match decodeX402Header settlementHeader with
        | none => .unknown (some httpStatus)
        | some settlement =>
          if validateSettlementResponse settlement paymentPayload httpStatus paymentRequiredHeader
            then
            .settled settlement (hasOwn settlement "retrySamePayment"
              && (get settlement "retrySamePayment").strictEq (.bool true))
          else .unknown (some httpStatus)

/-! ### What a settlement can be -/

/-- The settlement names the payment. -/
structure Names (settlement paymentPayload : Value) : Prop where
  network : (get settlement "network").strictEq
    (get (get paymentPayload "accepted") "network") = true
  transaction : (get settlement "transaction").strictEq
    (get (transactionOf paymentPayload) "hash") = true
  payer : (get settlement "payer").strictEq (get (transactionOf paymentPayload) "address") = true

/-- The payment is settled. -/
structure Success (settlement : Value) : Prop where
  success : get settlement "success" = .bool true
  state : get settlement "state" = .str "MOMENTUM_INCLUDED"
  noRetry : hasOwn settlement "retrySamePayment" = false

/-- The payment has been given up, before it was published or for someone to look at. -/
structure Final (settlement : Value) (errorReason : String) (states : List String) : Prop where
  success : get settlement "success" = .bool false
  reason : get settlement "errorReason" = .str errorReason
  state : ∃ state ∈ states, get settlement "state" = .str state
  noRetry : hasOwn settlement "retrySamePayment" = false

def Terminal (settlement : Value) : Prop :=
  Final settlement Resource.TERMINAL_RECONCILIATION_FAILURE Resource.TERMINAL_RECONCILIATION_STATES

def Definitive (settlement : Value) : Prop :=
  Final settlement Resource.DEFINITIVE_SETTLEMENT_FAILURE ["VALIDATED"]

/-- The payment is to be reconciled. -/
structure Recovery (settlement : Value) : Prop where
  success : get settlement "success" = .bool false
  state : ∃ state ∈ RECOVERY_STATES, get settlement "state" = .str state
  ownRetry : hasOwn settlement "retrySamePayment" = true
  retry : get settlement "retrySamePayment" = .bool true

/-- A settlement that the buyer believes is one of four. -/
theorem valid_cases {settlement paymentPayload : Value} {httpStatus : Int}
    {paymentRequiredHeader : Option String}
    (h : validateSettlementResponse settlement paymentPayload httpStatus paymentRequiredHeader
      = true) :
    Names settlement paymentPayload
      ∧ (Success settlement ∨ Terminal settlement ∨ Definitive settlement
        ∨ Recovery settlement) := by
  simp only [validateSettlementResponse, Bool.and_eq_true] at h
  obtain ⟨⟨⟨_, hsettlement⟩, hnames⟩, hkind⟩ := h
  simp only [namesSubmitted, Bool.and_eq_true] at hnames
  refine ⟨⟨hnames.1.1, hnames.1.2, hnames.2⟩, ?_⟩
  have hbool : isBool (get settlement "success") = true := by
    simp only [isSettlement, Bool.and_eq_true] at hsettlement
    exact hsettlement.1.1.1.1.1.2
  split_ifs at hkind with hsuccess hterminal hretry hstatus
  · simp only [isSuccess, Bool.and_eq_true, Bool.not_eq_true'] at hkind
    exact .inl ⟨Value.strictEq_bool.mp hsuccess, Value.strictEq_str.mp hkind.1.1.1, hkind.2⟩
  all_goals
    have hfalse : get settlement "success" = .bool false := by
      cases hv : get settlement "success" with
      | bool b =>
        rw [hv, Value.strictEq_bool] at hsuccess
        cases b with
        | true => exact absurd rfl hsuccess
        | false => rfl
      | _ =>
        rw [hv] at hbool
        cases hbool
  · simp only [isTerminal, Bool.and_eq_true, Bool.not_eq_true'] at hkind
    exact .inr (.inl ⟨hfalse, Value.strictEq_str.mp hterminal,
      Resource.isOneOf_mem hkind.1.2, hkind.2⟩)
  · simp only [isDefinitive, Bool.and_eq_true, Bool.not_eq_true'] at hkind
    exact .inr (.inr (.inl ⟨hfalse, Value.strictEq_str.mp hkind.1.2,
      ⟨_, List.mem_singleton_self _, Value.strictEq_str.mp hkind.1.1.1⟩, hkind.2⟩))
  · simp only [isRecovery, Bool.and_eq_true] at hkind
    exact .inr (.inr (.inr ⟨hfalse, Resource.isOneOf_mem hkind.2, hkind.1.1.1.1.2,
      Value.strictEq_bool.mp hkind.1.1.1.2⟩))

/-- The buyer has a settlement only if it believes it, and a handle with it only if the payment is
to be reconciled. -/
theorem submitBoundPayment_settled {paymentPayload settlement : Value} {response : Option Fetched}
    {handle : Bool} (h : submitBoundPayment paymentPayload response = .settled settlement handle) :
    Names settlement paymentPayload
      ∧ (handle = false ∧ (Success settlement ∨ Terminal settlement ∨ Definitive settlement)
        ∨ handle = true ∧ Recovery settlement) := by
  unfold submitBoundPayment at h
  split at h
  · cases h
  split at h
  · cases h
  · cases h
  · cases h
  split_ifs at h with hempty
  split at h
  · cases h
  split_ifs at h with hvalid
  obtain ⟨rfl, rfl⟩ := Submission.settled.inj h
  obtain ⟨hnames, hkind⟩ := valid_cases hvalid
  refine ⟨hnames, ?_⟩
  rcases hkind with hkind | hkind | hkind | hkind
  · exact .inl ⟨by rw [hkind.noRetry, Bool.false_and], .inl hkind⟩
  · exact .inl ⟨by rw [hkind.noRetry, Bool.false_and], .inr (.inl hkind)⟩
  · exact .inl ⟨by rw [hkind.noRetry, Bool.false_and], .inr (.inr hkind)⟩
  · exact .inr ⟨by rw [hkind.ownRetry, hkind.retry]; rfl, hkind⟩

end Buyer
end ZenonX402
