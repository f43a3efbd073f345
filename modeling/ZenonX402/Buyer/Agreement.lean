/-
# What the server tells and the buyer believes

A payment that a buyer submits, a server that it is submitted to, and a response whose
bytes arrive as they were sent. The buyer has a settlement of success exactly when the
server has delivered the resource, a definitive rejection or a terminal reconciliation
exactly when this is the outcome, the same payment to reconcile when the outcome is a
recovery, and an unknown outcome otherwise (`outcomes_agree`). No settlement that the
server tells of is refused.

Key definitions: `Stringified`, `Submits`, `arrived`, `Heard`.
Key theorems: `heard`, `outcomes_agree`.
-/
import ZenonX402.Buyer.Submission
import ZenonX402.Resource.Runs

namespace ZenonX402
namespace Buyer

open Js
open Journal (get isText Node)
open Resource (hasOwn sameRequirements sameResource decodeX402Header encodeX402Header Platform
  Config Response Received Outcome Phase Reply Submitted Accepts Fractions Recoverable Positive
  finalSettlement publicSettlement recoverySettlement withHeader)
open Value (Plain Parsed Same textSize)

/-! ### What is sent -/

/-- What `JSON.stringify` writes: no text of the same data is shorter. -/
def Stringified (json : String) : Prop :=
  ∀ v, parse (Resource.withoutMark json) = some v → v.Plain → textSize v ≤ json.utf8ByteSize

/-- A payment that the buyer submits, and its text in the header. -/
structure Submits (node : Node) (paymentRequired accepted : Value) (text : String)
    (paymentPayload : Value) : Prop where
  encoded : ∃ json, Stringified json
    ∧ Resource.encodeB64Text json Resource.MAX_X402_HEADER_ENCODED_BYTES = some text
  decoded : decodeX402Header text = some paymentPayload
  valid : validateBuyerPaymentPayload node paymentPayload paymentRequired accepted = true

/-- A header, or `null`. -/
def headerValue : Option String → Value
  | some s => .str s
  | none => .null

/-- A response whose bytes arrive as they were sent. -/
def arrived (response : Response) : Fetched where
  isObject := true
  status := some (.num response.status)
  headers := some {
    isObject := true
    hasGet := true
    get := fun name => some (if name = PAYMENT_RESPONSE then headerValue response.paymentResponse
      else if name = PAYMENT_REQUIRED then headerValue response.paymentRequired else .null) }

/-! ### Settlements as they are told -/

/-- A settlement, with the fields that the buyer knows. -/
def settlementOf (success : Bool) (network transaction payer state : String)
    (rest : List (String × Value)) : Value :=
  .obj ([("success", .bool success), ("network", .str network), ("transaction", .str transaction),
    ("payer", .str payer), ("state", .str state)] ++ rest)

/-- What the buyer knows of the payment. -/
structure Knows (paymentPayload : Value) (network transaction payer : String) : Prop where
  isNetwork : get (get paymentPayload "accepted") "network" = .str network
  isTransaction : get (transactionOf paymentPayload) "hash" = .str transaction
  isPayer : get (transactionOf paymentPayload) "address" = .str payer
  known : network = Resource.MOCK_NETWORK ∨ network = Resource.EXPERIMENTAL_LIVE_NETWORK
  hash : Text.isHash transaction = true
  payerNe : payer ≠ ""
  payerLength : utf16Length payer ≤ 128

theorem textSize_str_le (s : String) : textSize (.str s) ≤ 6 * s.utf8ByteSize + 2 :=
  Value.utf8Len_writeString s

/-- A settlement of the payment fits into a header. -/
theorem settlement_fits {paymentPayload : Value} {network transaction payer state : String}
    {success : Bool} {rest : List (String × Value)}
    (h : Knows paymentPayload network transaction payer) (hstate : state.utf8ByteSize ≤ 40)
    (hrest : (rest.map fun f => Value.memberSize f.1 f.2).sum ≤ 600) :
    ∃ header, encodeX402Header (settlementOf success network transaction payer state rest)
      = some header := by
  have hnetwork : network.utf8ByteSize ≤ 13 := by
    rcases h.known with rfl | rfl <;> decide
  have hhash : transaction.utf8ByteSize = 64 := Text.size_isHash h.hash
  have hpayer := utf8ByteSize_le payer
  have hlength := h.payerLength
  have h1 := textSize_str_le network
  have h2 := textSize_str_le transaction
  have h3 := textSize_str_le payer
  have h4 := textSize_str_le state
  have h5 : textSize (.bool success) ≤ 5 := by cases success <;> decide
  have hsize := Value.textSize_obj_le
    ([("success", .bool success), ("network", .str network), ("transaction", .str transaction),
      ("payer", .str payer), ("state", .str state)] ++ rest)
  have hkeys : textSize (.str "success") = 9 ∧ textSize (.str "network") = 9
      ∧ textSize (.str "transaction") = 13
      ∧ textSize (.str "payer") = 7 ∧ textSize (.str "state") = 7 := by decide
  rw [List.map_append, List.sum_append] at hsize
  simp only [List.map_cons, List.map_nil, List.sum_cons, List.sum_nil,
    Value.memberSize] at hsize hrest
  refine (Resource.encodeB64Json_isSome _ _).mpr ?_
  unfold Resource.MAX_X402_HEADER_ENCODED_BYTES settlementOf
  omega

/-- The fields after the first five. -/
inductive Told : List (String × Value) → Prop
  | success : Told []
  | final {reason : String} (hne : reason ≠ "") (hlength : utf16Length reason ≤ 128)
      (hsize : reason.utf8ByteSize ≤ 40) :
      Told [("errorReason", .str reason)]
  | recovery {reason : String} (hne : reason ≠ "") (hlength : utf16Length reason ≤ 128)
      (hsize : reason.utf8ByteSize ≤ 40) :
      Told [("errorReason", .str reason), ("retrySamePayment", .bool true)]

section

variable {paymentPayload : Value} {network transaction payer state reason : String} {success : Bool}
    {rest : List (String × Value)}

theorem Told.size (h : Told rest) : (rest.map fun f => Value.memberSize f.1 f.2).sum ≤ 600 := by
  have hkeys : textSize (.str "errorReason") = 13 ∧ textSize (.str "retrySamePayment") = 18
      ∧ textSize (.bool true) = 4 := by decide
  cases h with
  | success => exact Nat.zero_le _
  | @final reason _ _ hsize =>
    have hreason := textSize_str_le reason
    simp only [List.map_cons, List.map_nil, List.sum_cons, List.sum_nil, Value.memberSize]
    omega
  | @recovery reason _ _ hsize =>
    have hreason := textSize_str_le reason
    simp only [List.map_cons, List.map_nil, List.sum_cons, List.sum_nil, Value.memberSize]
    omega

theorem Told.json (h : Told rest) :
    (settlementOf success network transaction payer state rest).Json := by
  have hfirst : ∀ f ∈ [("success", Value.bool success), ("network", .str network),
      ("transaction", .str transaction),
      ("payer", .str payer), ("state", .str state)], f.2.Json := by
    simp only [List.forall_mem_cons]
    exact ⟨.bool _, .str _, .str _, .str _, .str _, List.forall_mem_nil _⟩
  have hall (hnodup : (["success", "network", "transaction", "payer", "state"] ++ rest.map Prod.fst).Nodup)
      (hrest : ∀ f ∈ rest, f.2.Json) :
      (settlementOf success network transaction payer state rest).Json := by
    refine .obj (by rw [List.map_append]; exact hnodup) fun f hf => ?_
    rcases List.mem_append.mp hf with hf | hf
    · exact hfirst f hf
    · exact hrest f hf
  cases h with
  | success => exact hall (by decide) (List.forall_mem_nil _)
  | final =>
    exact hall (by simp)
      (by simp only [List.forall_mem_cons]; exact ⟨.str _, List.forall_mem_nil _⟩)
  | recovery =>
    exact hall (by simp)
      (by simp only [List.forall_mem_cons]; exact ⟨.str _, .bool _, List.forall_mem_nil _⟩)

/-- The settlement names the payment. -/
theorem namesSubmitted_told (h : Knows paymentPayload network transaction payer) :
    namesSubmitted (settlementOf success network transaction payer state rest) paymentPayload
      = true := by
  have hself (s : String) : (Value.str s).strictEq (.str s) = true := Value.strictEq_str.mpr rfl
  rw [namesSubmitted, h.isNetwork, h.isTransaction, h.isPayer, Bool.and_eq_true, Bool.and_eq_true]
  exact ⟨⟨hself network, hself transaction⟩, hself payer⟩

theorem isSettlement_told (h : Knows paymentPayload network transaction payer)
    (hstate : isShortText 64 (.str state) = true) (hrest : Told rest) :
    isSettlement (settlementOf success network transaction payer state rest) = true := by
  have hpayer : isShortText 128 (.str payer) = true := by
    simp [isShortText, isText, h.payerNe, h.payerLength]
  have hreason {reason : String} (hne : reason ≠ "") (hlength : utf16Length reason ≤ 128) :
      isShortText 128 (.str reason) = true := by simp [isShortText, isText, hne, hlength]
  simp only [isSettlement, Bool.and_eq_true]
  refine ⟨⟨⟨⟨⟨⟨?_, rfl⟩, rfl⟩, h.hash⟩, hpayer⟩, hstate⟩, ?_⟩
  · cases hrest with
    | success => rfl
    | final => rfl
    | recovery => rfl
  · cases hrest with
    | success => rfl
    | final hne hlength => exact hreason hne hlength
    | recovery hne hlength => exact hreason hne hlength

/-- A settlement of a delivered payment is believed. -/
theorem success_valid (h : Knows paymentPayload network transaction payer)
    (required : Option String) :
    validateSettlementResponse (settlementOf true network transaction payer "MOMENTUM_INCLUDED" [])
    paymentPayload 200 required
      = true := by
  rw [validateSettlementResponse, isSettlement_told h (by decide) .success, namesSubmitted_told h]
  rfl

/-- So is one of a rejection. -/
theorem definitive_valid (h : Knows paymentPayload network transaction payer)
    (required : Option String) :
    validateSettlementResponse (settlementOf false network transaction payer "VALIDATED"
      [("errorReason", .str Resource.DEFINITIVE_SETTLEMENT_FAILURE)]) paymentPayload 402 required
        = true := by
  rw [validateSettlementResponse,
    isSettlement_told h (by decide) (.final (by decide) (by decide) (by decide)),
    namesSubmitted_told h]
  rfl

/-- So is one of a payment that was given up. -/
theorem terminal_valid (h : Knows paymentPayload network transaction payer)
    (hstate : state ∈ Resource.TERMINAL_RECONCILIATION_STATES) :
    validateSettlementResponse (settlementOf false network transaction payer state
      [("errorReason", .str Resource.TERMINAL_RECONCILIATION_FAILURE)]) paymentPayload 402 none
        = true := by
  have hshort : isShortText 64 (.str state) = true := by
    simp only [Resource.TERMINAL_RECONCILIATION_STATES, List.mem_cons, List.not_mem_nil,
      or_false] at hstate
    rcases hstate with rfl | rfl | rfl <;> decide
  rw [validateSettlementResponse,
    isSettlement_told h hshort (.final (by decide) (by decide) (by decide)), namesSubmitted_told h]
  simp only [Resource.TERMINAL_RECONCILIATION_STATES, List.mem_cons, List.not_mem_nil,
    or_false] at hstate
  rcases hstate with rfl | rfl | rfl <;> rfl

/-- So is one of a payment to be reconciled. -/
theorem recovery_valid (h : Knows paymentPayload network transaction payer)
    (hstate : state ∈ Resource.RECOVERABLE_STATES)
    (hreason : reason ∈ ["resource_delivery_outcome_unknown", "payment_outcome_unknown",
      "payment_reconciliation_required"])
    (required : Option String) :
    validateSettlementResponse (settlementOf false network transaction payer state
      [("errorReason", .str reason), ("retrySamePayment", .bool true)]) paymentPayload 409 required
        = true := by
  have hshort : isShortText 64 (.str state) = true := by
    simp only [Resource.RECOVERABLE_STATES, List.mem_cons, List.not_mem_nil, or_false] at hstate
    rcases hstate with rfl | rfl | rfl | rfl | rfl <;> decide
  have htold : Told [("errorReason", .str reason), ("retrySamePayment", .bool true)] := by
    simp only [List.mem_cons, List.not_mem_nil, or_false] at hreason
    rcases hreason with rfl | rfl | rfl <;> exact .recovery (by decide) (by decide) (by decide)
  rw [validateSettlementResponse, isSettlement_told h hshort htold, namesSubmitted_told h]
  simp only [Resource.RECOVERABLE_STATES, List.mem_cons, List.not_mem_nil,
    or_false] at hstate hreason
  rcases hreason with rfl | rfl | rfl <;> rcases hstate with rfl | rfl | rfl | rfl | rfl <;> rfl

end

/-! ### What is heard -/

theorem decode_ne_empty {text : String} {v : Value} (h : decodeX402Header text = some v) :
    text ≠ "" := by
  rintro rfl
  cases h

section

variable {paymentPayload settlement : Value} {status : Nat} {required : Option String}
    {header body : String}

/-- A settlement that is valid arrives. -/
theorem submit_told (hstatus : status = 200 ∨ status = 402 ∨ status = 409) (hjson : settlement.Json)
    (hobject : Resource.isObject settlement = true)
    (hencode : encodeX402Header settlement = some header)
    (hvalid : validateSettlementResponse settlement paymentPayload status required = true) :
    submitBoundPayment paymentPayload (some (arrived ⟨status, required, some header, body⟩))
      = .settled settlement (hasOwn settlement "retrySamePayment"
        && (get settlement "retrySamePayment").strictEq (.bool true)) := by
  have hdecode : decodeX402Header header = some settlement :=
    Resource.decodeB64Json_encodeB64Json hjson hobject hencode
  have hobserved : observePostSubmissionResponse (arrived ⟨status, required, some header, body⟩)
      = .observed status (some header) required := by
    have hnames : PAYMENT_REQUIRED ≠ PAYMENT_RESPONSE := by decide
    rcases hstatus with rfl | rfl | rfl <;> cases required <;>
      simp [observePostSubmissionResponse, arrived, usableFinalHttpStatus, observeHeaders,
        headerText, headerValue, hnames]
  simp only [submitBoundPayment, hobserved, if_neg (decode_ne_empty hdecode), hdecode,
    hvalid, if_true]

/-- Without a settlement the outcome stays unknown. -/
theorem submit_untold (hstatus : status = 400 ∨ status = 402 ∨ status = 500) :
    submitBoundPayment paymentPayload (some (arrived ⟨status, required, none, body⟩))
      = .unknown (some status) := by
  have hobserved : observePostSubmissionResponse (arrived ⟨status, required, none, body⟩)
      = .observed status none none := by
    rcases hstatus with rfl | rfl | rfl <;>
      simp [observePostSubmissionResponse, arrived, usableFinalHttpStatus, observeHeaders,
        headerText, headerValue]
  simp only [submitBoundPayment, hobserved]

end

/-- What the buyer is left with, by what became of the payment. -/
inductive Heard : Option Outcome → Submission → Prop
  | delivered {settlement told cached : Value} (h : Success told) :
      Heard (some (.delivered settlement cached)) (.settled told false)
  | rejected {settlement told : Value} (h : Definitive told) :
      Heard (some (.definiteRejection settlement)) (.settled told false)
  | terminal {settlement told : Value} (h : Terminal told) :
      Heard (some (.terminalReconciliation settlement)) (.settled told false)
  | recovery {settlement told : Value} (h : Recovery told) :
      Heard (some (.recovery settlement)) (.settled told true)
  | unknown {outcome : Option Outcome} {httpStatus : Option Int}
      (h : outcome = none ∨ outcome = some .internalError ∨ outcome = some .paymentRequired) :
      Heard outcome (.unknown httpStatus)

/-- The settlement that a response tells of, if there is one, is believed. -/
def Believed (paymentPayload : Value) (response : Response) : Prop :=
  ∀ header, response.paymentResponse = some header →
  ∃ settlement, decodeX402Header header = some settlement
    ∧ validateSettlementResponse settlement paymentPayload response.status
    response.paymentRequired = true

theorem believed_of_none {paymentPayload : Value} {response : Response}
    (h : response.paymentResponse = none) :
    Believed paymentPayload response := fun header hheader => absurd (h.symm.trans hheader)
    (Option.some_ne_none header).symm

section

variable {paymentPayload : Value} {network transaction payer state reason : String}
    {submitted : Submitted} {paymentRequired : Value}

/-- A settlement header, with what the buyer makes of it. -/
theorem told_heard {settlement : Value} {status : Nat} {required : Option String}
    {header body : String} {outcome : Option Outcome} {handle : Bool}
    (hstatus : status = 200 ∨ status = 402 ∨ status = 409) (hjson : settlement.Json)
    (hobject : Resource.isObject settlement = true)
    (hencode : encodeX402Header settlement = some header)
    (hvalid : validateSettlementResponse settlement paymentPayload status required = true)
    (hhandle : (hasOwn settlement "retrySamePayment" && (get settlement "retrySamePayment").strictEq
      (.bool true)) = handle) (h : Heard outcome (.settled settlement handle)) :
    Heard outcome (submitBoundPayment paymentPayload
      (some (arrived ⟨status, required, some header, body⟩)))
      ∧ Believed paymentPayload ⟨status, required, some header, body⟩ := by
  refine ⟨?_, fun other hother => ?_⟩
  · rw [submit_told hstatus hjson hobject hencode hvalid, hhandle]
    exact h
  · obtain rfl := Option.some.inj hother
    exact ⟨settlement, Resource.decodeB64Json_encodeB64Json hjson hobject hencode, hvalid⟩

theorem finalSettlement_eq (hnetwork : submitted.network = .str network)
    (htransaction : submitted.transaction = .str transaction)
    (hpayer : submitted.payer = .str payer) : finalSettlement submitted (.str state) reason
      = settlementOf false network transaction payer state [("errorReason", .str reason)] := by
  rw [finalSettlement, hnetwork, htransaction, hpayer]
  rfl

theorem publicSettlement_delivered {settlement : Value} (h : Positive settlement submitted)
    (hnetwork : submitted.network = .str network)
    (htransaction : submitted.transaction = .str transaction)
    (hpayer : submitted.payer = .str payer) :
    publicSettlement settlement
      = settlementOf true network transaction payer "MOMENTUM_INCLUDED" [] := by
  simp [publicSettlement, settlementOf, Resource.textOr, Resource.textField, h.success, h.state,
    h.noReason, h.noRetry, h.names.network, h.names.transaction, h.names.payer, hnetwork,
    htransaction, hpayer, Value.strictEq]

theorem recoverySettlement_eq {settlement : Value} (h : Recoverable settlement submitted)
    (hnetwork : submitted.network = .str network)
    (htransaction : submitted.transaction = .str transaction)
    (hpayer : submitted.payer = .str payer) (hstate : get settlement "state" = .str state) :
    recoverySettlement settlement reason = settlementOf false network transaction payer state
      [("errorReason", .str reason), ("retrySamePayment", .bool true)] := by
  obtain ⟨old, hold⟩ := h.reason
  simp [recoverySettlement, publicSettlement, settlementOf, Resource.withFields, Resource.textOr,
    Resource.textField, hstate, hold, h.retry, h.network, h.transaction, h.payer, hnetwork,
    htransaction, hpayer, Value.strictEq, JsMap.setEntry]

theorem recoveryError_mem (settlement : Value) : Resource.recoveryError settlement
    ∈ ["resource_delivery_outcome_unknown", "payment_outcome_unknown",
      "payment_reconciliation_required"] := by
  unfold Resource.recoveryError
  dsimp only
  split_ifs <;> decide

theorem withHeader_some {value : Value} {response : String → Response} {header : String}
    (h : encodeX402Header value = some header) : withHeader value response = response header := by
  rw [withHeader, h, Option.elim_some]

/-- Whatever becomes of the payment, the buyer hears it. -/
theorem heard {outcome : Option Outcome} (hknows : Knows paymentPayload network transaction payer)
    (hnetwork : submitted.network = .str network)
    (htransaction : submitted.transaction = .str transaction)
    (hpayer : submitted.payer = .str payer)
    (hchallenge : ∃ header, encodeX402Header paymentRequired = some header)
    (hsound : (Phase.finished outcome).Sound submitted) :
    Heard outcome (submitBoundPayment paymentPayload
      (some (arrived (Resource.respond paymentRequired outcome))))
      ∧ Believed paymentPayload (Resource.respond paymentRequired outcome) := by
  have huntold {outcome : Option Outcome} {status : Nat} {required : Option String} {body : String}
      (houtcome : outcome = none ∨ outcome = some .internalError ∨ outcome = some .paymentRequired)
      (hstatus : status = 400 ∨ status = 402 ∨ status = 500) :
      Heard outcome (submitBoundPayment paymentPayload
        (some (arrived ⟨status, required, none, body⟩)))
        ∧ Believed paymentPayload ⟨status, required, none, body⟩ := by
    rw [submit_untold hstatus]
    exact ⟨.unknown houtcome, believed_of_none rfl⟩
  cases outcome with
  | none => exact huntold (.inl rfl) (.inr (.inr rfl))
  | some outcome =>
    cases outcome with
    | internalError => exact huntold (.inr (.inl rfl)) (.inr (.inr rfl))
    | paymentRequired =>
      rcases Resource.withHeader_eq
        (Resource.withFields paymentRequired
          [("error", .str Resource.DEFINITIVE_SETTLEMENT_FAILURE)])
        _ with heq | ⟨header, _, heq⟩
      · rw [Resource.respond, Resource.requirePayment, heq]
        exact huntold (.inr (.inr rfl)) (.inr (.inr rfl))
      · rw [Resource.respond, Resource.requirePayment, heq]
        exact huntold (.inr (.inr rfl)) (.inr (.inl rfl))
    | terminalReconciliation settlement =>
      cases hsound with
      | @terminal state _ hstate _ heq =>
        rw [finalSettlement_eq hnetwork htransaction hpayer] at heq
        have htold : Told [("errorReason", .str Resource.TERMINAL_RECONCILIATION_FAILURE)] :=
          .final (by decide) (by decide) (by decide)
        have hsize : state.utf8ByteSize ≤ 40 := by
          have hmem := hstate
          simp only [Resource.TERMINAL_RECONCILIATION_STATES, List.mem_cons, List.not_mem_nil,
            or_false] at hmem
          rcases hmem with rfl | rfl | rfl <;> decide
        obtain ⟨header, hencode⟩ := @settlement_fits _ _ _ _ _ false _ hknows hsize htold.size
        rw [Resource.respond, Resource.terminalReconciliationResponse, heq, withHeader_some hencode]
        exact told_heard (.inr (.inl rfl)) htold.json rfl hencode (terminal_valid hknows hstate) rfl
          (.terminal ⟨rfl, rfl, ⟨state, hstate, rfl⟩, rfl⟩)
    | definiteRejection settlement =>
      cases hsound with
      | rejected _ heq =>
        rw [finalSettlement_eq hnetwork htransaction hpayer] at heq
        have htold : Told [("errorReason", .str Resource.DEFINITIVE_SETTLEMENT_FAILURE)] :=
          .final (by decide) (by decide) (by decide)
        obtain ⟨header, hencode⟩ :=
          @settlement_fits _ _ _ _ "VALIDATED" false _ hknows (by decide) htold.size
        obtain ⟨required, hrequired⟩ := hchallenge
        rw [Resource.respond, Resource.definiteRejectionResponse, heq, withHeader_some hrequired,
          withHeader_some hencode]
        exact told_heard (.inr (.inl rfl)) htold.json rfl hencode (definitive_valid hknows _) rfl
          (.rejected ⟨rfl, rfl, ⟨_, List.mem_singleton_self _, rfl⟩, rfl⟩)
    | recovery settlement =>
      cases hsound with
      | recovery hrecoverable =>
        obtain ⟨state, hstate, hget⟩ := hrecoverable.state
        have hreason := recoveryError_mem settlement
        have htold : Told [("errorReason", .str (Resource.recoveryError settlement)),
            ("retrySamePayment", .bool true)] := by
          simp only [List.mem_cons, List.not_mem_nil, or_false] at hreason
          rcases hreason with h | h | h <;> rw [h] <;>
            exact .recovery (by decide) (by decide) (by decide)
        have hsize : state.utf8ByteSize ≤ 40 := by
          have hmem := hstate
          simp only [Resource.RECOVERABLE_STATES, List.mem_cons, List.not_mem_nil, or_false] at hmem
          rcases hmem with rfl | rfl | rfl | rfl | rfl <;> decide
        obtain ⟨header, hencode⟩ := @settlement_fits _ _ _ _ _ false _ hknows hsize htold.size
        rw [Resource.respond, Resource.recoveryResponse,
          recoverySettlement_eq hrecoverable hnetwork htransaction hpayer hget,
          withHeader_some hencode]
        exact told_heard (.inr (.inr rfl)) htold.json rfl hencode
          (recovery_valid hknows hstate hreason _) rfl
          (.recovery ⟨rfl, ⟨state, hstate, rfl⟩, rfl, rfl⟩)
    | delivered settlement cached =>
      obtain ⟨header, hencode⟩ :=
        @settlement_fits _ _ _ _ "MOMENTUM_INCLUDED" true _ hknows (by decide) Told.success.size
      rw [Resource.respond, Resource.deliveredResponse,
        publicSettlement_delivered hsound hnetwork htransaction hpayer, withHeader_some hencode]
      exact told_heard (.inl rfl) Told.success.json rfl hencode (success_valid hknows _) rfl
        (.delivered ⟨rfl, rfl, rfl⟩)

/-- Before the facilitator is asked there is no settlement to tell of. -/
theorem refused_heard {platform : Platform} {config : Config} {fractions : Fractions}
    {text : String} {response : Response}
    (h : Resource.receive platform config fractions (.text text) = .respond response) :
    (∃ httpStatus, submitBoundPayment paymentPayload (some (arrived response))
      = .unknown httpStatus)
      ∧ response.paymentResponse = none := by
  have huntold {status : Nat} {required : Option String} {body : String}
      (hstatus : status = 400 ∨ status = 402 ∨ status = 500) :
      (∃ httpStatus, submitBoundPayment paymentPayload
        (some (arrived ⟨status, required, none, body⟩)) = .unknown httpStatus)
        ∧ (⟨status, required, none, body⟩ : Response).paymentResponse = none :=
          ⟨⟨_, submit_untold hstatus⟩, rfl⟩
  have hrequire (value : Value) :
      (∃ httpStatus, submitBoundPayment paymentPayload
        (some (arrived (Resource.requirePayment value)))
      = .unknown httpStatus) ∧ (Resource.requirePayment value).paymentResponse = none := by
    rcases Resource.withHeader_eq value _ with heq | ⟨header, _, heq⟩
    · rw [Resource.requirePayment, heq]
      exact huntold (.inr (.inr rfl))
    · rw [Resource.requirePayment, heq]
      exact huntold (.inr (.inl rfl))
  unfold Resource.receive at h
  cases hchallenge : config.challenge platform with
  | none =>
    rw [hchallenge] at h
    exact Received.respond.inj h ▸ huntold (.inr (.inr rfl))
  | some required =>
    rw [hchallenge, Option.elim_some, Resource.receiveHeader] at h
    cases hdecode : decodeX402Header text with
    | none =>
      rw [hdecode] at h
      exact Received.respond.inj h ▸ huntold (.inl rfl)
    | some payload =>
      rw [hdecode, Option.elim_some, Resource.receivePayment] at h
      split_ifs at h
      · exact Received.respond.inj h ▸ huntold (.inl rfl)
      · exact Received.respond.inj h ▸ hrequire _
      · exact Received.respond.inj h ▸ huntold (.inl rfl)

end

/-! ### Agreement -/

/-- An operation of the server has a reply of the facilitator or of its handler. -/
def Advances (platform : Platform) (config : Config) (handled : Bool) (submitted : Submitted)
    (old : Phase) (reply : Reply) (new : Phase) : Prop :=
  Resource.advance submitted platform config.requirement handled old reply = some new

theorem Advances.sound {platform : Platform} {config : Config} {handled : Bool}
    {submitted : Submitted} {replies : List Reply} {phase : Phase}
    (h : Run (Advances platform config handled submitted) .settling replies phase) :
    phase.Sound submitted := by
  have hstep : ∀ old reply new, Phase.Sound submitted old →
      Advances platform config handled submitted old reply new →
      Phase.Sound submitted new := fun _ _ _ hold hnew => (Resource.advance_moved hold hnew).sound
  exact h.invariant hstep trivial

/-- What became of the payment and what the buyer is left with. -/
structure Agrees (outcome : Option Outcome) (submission : Submission) : Prop where
  success : (∃ told handle, submission = .settled told handle ∧ Success told)
    ↔ ∃ settlement cached, outcome = some (.delivered settlement cached)
  definitive : (∃ told handle, submission = .settled told handle ∧ Definitive told)
    ↔ ∃ settlement, outcome = some (.definiteRejection settlement)
  terminal : (∃ told handle, submission = .settled told handle ∧ Terminal told)
    ↔ ∃ settlement, outcome = some (.terminalReconciliation settlement)
  recovery : ∀ settlement, outcome = some (.recovery settlement) → ∃ told, submission
    = .settled told true ∧ Recovery told
  unknown : outcome = none ∨ outcome = some .internalError ∨ outcome = some .paymentRequired →
    ∃ httpStatus, submission = .unknown httpStatus

theorem Success.ne {told : Value} (h : Success told) : get told "success" ≠ .bool false := by
  rw [h.success]
  exact fun heq => Bool.noConfusion (Value.bool.inj heq)

theorem Definitive.not_terminal {told : Value} (h : Definitive told) : ¬ Terminal told := by
  intro hterminal
  have hreason := h.reason.symm.trans hterminal.reason
  exact absurd (Value.str.inj hreason) (by decide)

theorem Recovery.not_final {told : Value} {errorReason : String} {states : List String}
    (h : Recovery told) :
    ¬ Final told errorReason states :=
  fun hfinal => Bool.noConfusion (h.ownRetry.symm.trans hfinal.noRetry)

theorem Heard.agrees {outcome : Option Outcome} {submission : Submission}
    (h : Heard outcome submission) :
    Agrees outcome submission := by
  cases h with
  | @delivered settlement told cached hsuccess =>
    refine ⟨⟨fun _ => ⟨_, _, rfl⟩, fun _ => ⟨told, false, rfl, hsuccess⟩⟩, ⟨?_, by simp⟩,
      ⟨?_, by simp⟩, by simp, by simp⟩
    · rintro ⟨_, _, heq, hfinal⟩
      exact absurd hfinal.success ((Submission.settled.inj heq).1 ▸ hsuccess.ne)
    · rintro ⟨_, _, heq, hfinal⟩
      exact absurd hfinal.success ((Submission.settled.inj heq).1 ▸ hsuccess.ne)
  | @rejected settlement told hdefinitive =>
    refine ⟨⟨?_, by simp⟩, ⟨fun _ => ⟨_, rfl⟩, fun _ => ⟨told, false, rfl, hdefinitive⟩⟩,
      ⟨?_, by simp⟩, by simp, by simp⟩
    · rintro ⟨_, _, heq, hsuccess⟩
      exact absurd hdefinitive.success ((Submission.settled.inj heq).1 ▸ hsuccess.ne)
    · rintro ⟨_, _, heq, hterminal⟩
      exact absurd hterminal ((Submission.settled.inj heq).1 ▸ hdefinitive.not_terminal)
  | @terminal settlement told hterminal =>
    refine ⟨⟨?_, by simp⟩, ⟨?_, by simp⟩,
      ⟨fun _ => ⟨_, rfl⟩, fun _ => ⟨told, false, rfl, hterminal⟩⟩, by simp, by simp⟩
    · rintro ⟨_, _, heq, hsuccess⟩
      exact absurd hterminal.success ((Submission.settled.inj heq).1 ▸ hsuccess.ne)
    · rintro ⟨_, _, heq, hdefinitive⟩
      exact absurd hterminal ((Submission.settled.inj heq).1 ▸ hdefinitive.not_terminal)
  | @recovery settlement told hrecovery =>
    refine ⟨⟨?_, by simp⟩, ⟨?_, by simp⟩, ⟨?_, by simp⟩, fun _ _ => ⟨told, rfl, hrecovery⟩, by simp⟩
    · rintro ⟨_, _, heq, hsuccess⟩
      exact absurd hrecovery.success ((Submission.settled.inj heq).1 ▸ hsuccess.ne)
    · rintro ⟨_, _, heq, hdefinitive⟩
      exact absurd hdefinitive ((Submission.settled.inj heq).1 ▸ hrecovery.not_final)
    · rintro ⟨_, _, heq, hterminal⟩
      exact absurd hterminal ((Submission.settled.inj heq).1 ▸ hrecovery.not_final)
  | unknown houtcome => rcases houtcome with rfl | rfl | rfl <;>
      exact ⟨by simp, by simp, by simp, by simp, fun _ => ⟨_, rfl⟩⟩

/-- The challenge of the server is no longer than a payment for it. -/
theorem challenge_fits {platform : Platform} {config : Config}
    {paymentRequired accepted required paymentPayload : Value} {text : String}
    (hsubmits : Submits platform.toNode paymentRequired accepted text paymentPayload)
    (haccepts : Accepts platform config required paymentPayload) :
    ∃ header, encodeX402Header required = some header := by
  obtain ⟨json, hstringified, hencode⟩ := hsubmits.encoded
  have hdecode := hsubmits.decoded
  have hne : json ≠ "" := by
    rintro rfl
    obtain ⟨_, rfl⟩ := Resource.encodeB64Text_some.mp hencode
    exact absurd hdecode (by rintro ⟨⟩)
  rw [decodeX402Header, Resource.decodeB64Json_encodeB64Text hne hencode,
    Option.filter_eq_some_iff] at hdecode
  have hsize := hstringified paymentPayload hdecode.1 haccepts.plain
  have hparsed := haccepts.plain.parsed
  have henvelope := haccepts.envelope
  simp only [Resource.validatePaymentPayloadEnvelope, Bool.and_eq_true] at henvelope
  have hkeys := henvelope.1.1.1.1.1.1.1
  have hfield {key : String} (hkey : key ∈ Resource.PAYMENT_PAYLOAD_FIELDS) :
      (get paymentPayload key).Parsed :=
    Resource.parsed_get hparsed (Resource.hasOwn_of_required hkeys hkey)
  have hrequirement := Resource.same_of_sameRequirements (hfield (by decide))
    (Resource.snapshotRequirement_parsed config.configured)
    haccepts.requirement
  have hchallenge := haccepts.challenge
  unfold Config.challenge Resource.makePaymentRequired at hchallenge
  dsimp only at hchallenge
  split_ifs at hchallenge
  obtain rfl := Option.some.inj hchallenge
  have hresourceParsed : (Value.obj [("url", .str (config.base ++ "/paid")),
      ("description", .str "Zenon x402 PoC protected resource"),
      ("mimeType", .str "application/json")]).Parsed := by
    refine .obj (show ["url", "description", "mimeType"].Nodup by decide) ?_
    simp only [List.forall_mem_cons]
    exact ⟨.str _, .str _, .str _, List.forall_mem_nil _⟩
  have hresource := Resource.same_of_sameResource (hfield (by decide)) hresourceParsed
    haccepts.resource
  have hle := Resource.textSize_challenge_le hparsed haccepts.envelope hrequirement hresource
  have hfits := (Resource.encodeB64Text_some.mp hencode).1
  refine (Resource.encodeB64Json_isSome _ _).mpr ?_
  refine le_trans (Nat.mul_le_mul_right 4 (Nat.div_le_div_right ?_)) hfits
  omega

/-- The buyer knows what the server takes from a payment with the same data. -/
theorem knows_of_submits {platform : Platform} {config : Config}
    {paymentRequired accepted required paymentPayload other : Value} {text : String}
    (hsubmits : Submits platform.toNode paymentRequired accepted text paymentPayload)
    (haccepts : Accepts platform config required paymentPayload)
    (hsame : Same paymentPayload other) :
    ∃ network transaction payer, Knows paymentPayload network transaction payer
      ∧ (config.submitted platform required other).network = .str network
      ∧ (config.submitted platform required other).transaction = .str transaction
      ∧ (config.submitted platform required other).payer = .str payer := by
  obtain ⟨network, hknown, haccepted, hconfigured⟩ :=
    Resource.network_of_sameRequirements haccepts.requirement
  have hvalid := hsubmits.valid
  simp only [validateBuyerPaymentPayload, Bool.and_eq_true] at hvalid
  have htext {p : String → Bool} {v : Value} (h : isText p v = true) : ∃ s, v = .str s
      ∧ p s = true := by
    cases v with
    | str s => exact ⟨s, rfl, h⟩
    | _ => cases h
  obtain ⟨transaction, htransaction, hhash⟩ := htext hvalid.1.2
  obtain ⟨payer, hpayer, hshort⟩ := htext hvalid.2
  simp only [Bool.and_eq_true, decide_eq_true_eq] at hshort
  have hparsed : paymentPayload.Parsed ∨ paymentPayload = .undefined := .inl haccepts.plain.parsed
  have hpayload := Resource.parsed_get_or hparsed "payload"
  have hget (key : String) : Same (get (transactionOf paymentPayload) key)
      (get (get (get other "payload") "transaction") key) :=
    Resource.same_get (Resource.parsed_get_or hpayload "transaction")
      (Resource.same_get hpayload (Resource.same_get hparsed hsame "payload") "transaction") key
  refine ⟨network, transaction, payer,
    ⟨haccepted, htransaction, hpayer, hknown, hhash, hshort.1, hshort.2⟩, hconfigured, ?_, ?_⟩
  · have hother := hget "hash"
    rw [htransaction] at hother
    exact Resource.str_of_same hother.symm
  · have hother := hget "address"
    rw [hpayer] at hother
    exact Resource.str_of_same hother.symm

/-- The server and the buyer agree about every payment that is submitted: what the server decides
itself leaves the outcome unknown, and of what the facilitator replied, in an operation for this
payment or for one with the same data, the buyer hears what became of it. -/
theorem outcomes_agree {platform : Platform} {config : Config} {fractions : Fractions}
    {paymentRequired accepted paymentPayload : Value} {text : String}
    (hsubmits : Submits platform.toNode paymentRequired accepted text paymentPayload) :
    (∀ response, Resource.receive platform config fractions (.text text) = .respond response →
      (∃ httpStatus, submitBoundPayment paymentPayload (some (arrived response))
        = .unknown httpStatus)
        ∧ Believed paymentPayload response)
    ∧ ∀ required payload, Resource.receive platform config fractions (.text text)
      = .authorize required payload →
      payload = paymentPayload ∧ ∀ other handled replies outcome,
      Accepts platform config required other → Same payload other →
        Run (Advances platform config handled (config.submitted platform required other))
        .settling replies (.finished outcome) →
        Agrees outcome (submitBoundPayment paymentPayload
          (some (arrived (Resource.respond required outcome))))
          ∧ Believed paymentPayload (Resource.respond required outcome) := by
  constructor
  · intro response h
    obtain ⟨hunknown, hnone⟩ := @refused_heard paymentPayload _ _ _ _ _ h
    exact ⟨hunknown, believed_of_none hnone⟩
  · intro required payload h
    obtain ⟨_, htext, hdecode, haccepts⟩ := Resource.receive_run h
    obtain rfl := Resource.Header.text.inj htext
    obtain rfl : payload = paymentPayload := Option.some.inj (hdecode.symm.trans hsubmits.decoded)
    refine ⟨rfl, fun other handled replies outcome _ hsame hrun => ?_⟩
    obtain ⟨network, transaction, payer, hknows, hnetwork, htransaction, hpayer⟩ :=
      knows_of_submits hsubmits haccepts hsame
    obtain ⟨hheard, hbelieved⟩ := heard hknows hnetwork htransaction hpayer
      (challenge_fits hsubmits haccepts) (Advances.sound hrun)
    exact ⟨hheard.agrees, hbelieved⟩

/-! ### A visit -/

/-- What is written of data is what `JSON.stringify` writes. -/
theorem stringified_stringify {fs : List (String × Value)} (h : (Value.obj fs).Json) :
    Stringified (stringify (.obj fs)) := by
  intro v hparse _
  rw [Resource.withoutMark_object, parse_stringify h] at hparse
  rw [← Option.some.inj hparse, Value.size_stringify]

namespace Visit

open Resource.Visit (platform config requirement challenge payload plain_payload received submitted
  finished key settlement answer transition greeting cached settled claimed handled
  recorded isHash_key)

theorem submits {text : String} (h : encodeX402Header payload = some text) :
    Submits platform.toNode challenge requirement text payload where
  encoded := ⟨_, stringified_stringify plain_payload.json, h⟩
  decoded := Resource.decodeB64Json_encodeB64Json plain_payload.json rfl h
  valid := by decide

theorem delivers : Run (Advances platform config true (config.submitted platform challenge payload))
    .settling
    [.settled (some (answer (settlement key))) true,
      .claimed (some (answer (transition key "DELIVERY_PENDING" [("deliveryClaimed", .bool true)])))
      "",
      .handled (some greeting),
      .delivered (some (answer (transition key "DELIVERED" [("cachedResponse", cached)])))]
    (.finished (some (finished key))) :=
  .cons (settled isHash_key) (.cons (claimed "") (.cons handled (.cons recorded (.nil _))))

/-- The buyer hears that the greeting was delivered. -/
theorem greeting_heard : ∃ text, Submits platform.toNode challenge requirement text payload
    ∧ Agrees (some (finished key))
    (submitBoundPayment payload
      (some (arrived (Resource.respond challenge (some (finished key)))))) := by
  obtain ⟨text, hencode, hreceive⟩ := received
  obtain ⟨_, _, _, haccepts⟩ := Resource.receive_run hreceive
  have hagree := (outcomes_agree (submits hencode)).2 challenge payload hreceive
  exact ⟨text, submits hencode, (hagree.2 payload true _ _ haccepts (.refl _) delivers).1⟩

end Visit

end Buyer
end ZenonX402
