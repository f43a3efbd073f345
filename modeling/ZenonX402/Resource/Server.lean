/-
# The resource server

What the server makes of one request for the paid resource before it asks anyone
(`receive`): the challenge again, a refusal, or a payment to authorize, under a key that
payments with the same data share. And how it tells the outcome (`respond`): every
outcome has a status, and a settlement header if there is a settlement to tell of.

A payment that is authorized is data, for the requirement and the resource of the server
(`receive_run`). The server tells with status 200 of nothing but a delivered response
(`respond_ok`).

Key definitions: `Config`, `receive`, `respond`.
Key theorems: `receive_run`, `respond_ok`.
-/
import ZenonX402.Lib.Record
import ZenonX402.Resource.Authorize

namespace ZenonX402
namespace Resource

open Js
open Journal (get Node)
open Value (Parsed Plain Same)

/-- A server: the address that it advertises, and the requirement of its resource. -/
structure Config where
  base : String
  requirement : Value
  configured : snapshotActiveUpfrontRequirement requirement = some requirement

/-- `req.headers['payment-signature']`. -/
inductive Header where
  | absent
  | list
  | text (value : String)

/-- Of the headers, the two that carry x402 data. -/
structure Response where
  status : Nat
  paymentRequired : Option String
  paymentResponse : Option String
  body : String
  deriving DecidableEq

/-- `JSON.stringify(value, null, 2)`. -/
def indentedText (value : Value) : String := String.ofList ((Json.Layout.indented 2).write 0 value)

def internalError : Response :=
  ⟨500, none, none, indentedText (.obj [("error", .str "internal_error")])⟩

def invalidPayment : Response :=
  ⟨400, none, none, indentedText (.obj [("error", .str "invalid_payment")])⟩

/-- A response that carries a value in a header, unless the header gets too long. -/
def withHeader (value : Value) (response : String → Response) : Response :=
  (encodeX402Header value).elim internalError response

def requirePayment (paymentRequired : Value) : Response := withHeader paymentRequired fun header =>
  ⟨402, some header, none,
    indentedText (.obj [("error", if hasOwn paymentRequired "error" then get paymentRequired "error"
    else .str "payment_required")])⟩

/-! ### A request -/

section

variable (platform : Platform) (config : Config)

def Config.challenge : Option Value :=
  makePaymentRequired platform.toNode (config.base ++ "/paid") "Zenon x402 PoC protected resource"
  "application/json"
    config.requirement

/-- What a payment is for. -/
def Config.submitted (paymentRequired paymentPayload : Value) : Submitted :=
  submittedSettlementIdentity platform.sha paymentPayload config.requirement paymentRequired

end

def requestContent (paymentPayload : Value) : Value :=
  .obj [("domain", .str "zenon-x402-resource-request-v1"), ("paymentPayload", paymentPayload)]

def requestKey (sha : Sha256) (paymentPayload : Value) : String :=
  sha.hex (canonicalJson (requestContent paymentPayload))

inductive Received where
  | respond (response : Response)
  | authorize (paymentRequired paymentPayload : Value)

section

variable (platform : Platform) (config : Config) (fractions : Fractions)

def receivePayment (paymentRequired paymentPayload : Value) : Received :=
  if (validateJsonValue fractions.finite false 0 paymentPayload
    && validatePaymentPayloadStructure fractions paymentPayload)
    = false then .respond invalidPayment
  else if (validatePaymentPayloadEnvelope platform.toNode paymentPayload
    && validateActiveUpfrontRequirement (get paymentPayload "accepted")
    && sameRequirements (get paymentPayload "accepted") config.requirement
    && sameResource platform.toNode (get paymentPayload "resource")
    (get paymentRequired "resource")) = false then
    .respond (requirePayment
      (withFields paymentRequired [("error", .str "invalid_payment_header")]))
  else if validateJsonValue fractions.finite true 0 paymentPayload = false
    then .respond invalidPayment
  else .authorize paymentRequired paymentPayload

def receiveHeader (paymentRequired : Value) : Header → Received
  | .absent => .respond (requirePayment paymentRequired)
  | .list => .respond invalidPayment
  | .text value => (decodeX402Header value).elim (.respond invalidPayment)
      (receivePayment platform config fractions paymentRequired)

/-- A request for the paid resource, as far as the server decides itself. -/
def receive (header : Header) : Received :=
  (config.challenge platform).elim (.respond internalError)
  fun paymentRequired => receiveHeader platform config fractions paymentRequired header

end

/-! ### A response -/

/-- `{ ...publicSettlement(settlement), success: false, errorReason, retrySamePayment: true }`. -/
def recoverySettlement (settlement : Value) (error : String) : Value :=
  withFields (publicSettlement settlement) [("success", .bool false), ("errorReason", .str error),
    ("retrySamePayment", .bool true)]

def recoveryError (settlement : Value) : String :=
  let unknown := (get settlement "state").strictEq (.str "SUBMISSION_OUTCOME_UNKNOWN")
    || (get settlement "errorReason").strictEq (.str "submission_outcome_unknown")
  let deliveryUnknown := (get settlement "deliveryState").strictEq (.str "DELIVERY_PENDING")
    || (get settlement "errorReason").strictEq (.str "delivery_outcome_unknown")
  if deliveryUnknown then "resource_delivery_outcome_unknown"
  else if unknown then "payment_outcome_unknown" else "payment_reconciliation_required"

def recoveryResponse (settlement : Value) : Response :=
  withHeader (recoverySettlement settlement (recoveryError settlement)) fun header =>
    ⟨409, none, some header, indentedText (.obj [("error", .str (recoveryError settlement)),
      ("action", .str "reuse_and_reconcile_same_payment"),
      ("transaction", textOr "" (get settlement "transaction"))])⟩

def definiteRejectionResponse (paymentRequired settlement : Value) : Response :=
  withHeader paymentRequired fun required => withHeader settlement fun header =>
    ⟨402, some required, some header,
      indentedText (.obj [("error", .str DEFINITIVE_SETTLEMENT_FAILURE)])⟩

def terminalReconciliationResponse (settlement : Value) : Response :=
  withHeader settlement fun header =>
  ⟨402, none, some header, stringify (.obj [("error", .str TERMINAL_RECONCILIATION_FAILURE)])⟩

def deliveredResponse (settlement cached : Value) : Response :=
  withHeader (publicSettlement settlement) fun header =>
  ⟨200, none, some header, indentedText (get cached "body")⟩

/-- How the server tells what became of the payment: `none` if the operation has thrown. -/
def respond (paymentRequired : Value) : Option Outcome → Response
  | none | some .internalError => internalError
  | some (.terminalReconciliation settlement) => terminalReconciliationResponse settlement
  | some (.definiteRejection settlement) => definiteRejectionResponse paymentRequired settlement
  | some .paymentRequired =>
      requirePayment (withFields paymentRequired [("error", .str DEFINITIVE_SETTLEMENT_FAILURE)])
  | some (.recovery settlement) => recoveryResponse settlement
  | some (.delivered settlement cached) => deliveredResponse settlement cached

theorem withHeader_eq (value : Value) (response : String → Response) :
    withHeader value response = internalError
    ∨ ∃ header, encodeX402Header value = some header ∧ withHeader value response
    = response header := by
  unfold withHeader
  cases encodeX402Header value with
  | none => exact .inl rfl
  | some header => exact .inr ⟨header, rfl, rfl⟩

/-- A header decides nothing about the status, but where it gets too long. -/
theorem withHeader_status {value : Value} {response : String → Response}
    (h : ∀ header, (response header).status ≠ 200) :
    (withHeader value response).status ≠ 200 := by
  rcases withHeader_eq value response with heq | ⟨header, _, heq⟩
  · rw [heq]
    exact (by decide : (500 : Nat) ≠ 200)
  · rw [heq]
    exact h header

theorem requirePayment_status (paymentRequired : Value) :
    (requirePayment paymentRequired).status ≠ 200 :=
  withHeader_status fun _ => (by decide : (402 : Nat) ≠ 200)

/-- Status 200 tells of a delivered response, which is the body. -/
theorem respond_ok {paymentRequired : Value} {outcome : Option Outcome}
    (h : (respond paymentRequired outcome).status = 200) :
    ∃ settlement cached, outcome = some (.delivered settlement cached)
      ∧ (respond paymentRequired outcome).body = indentedText (get cached "body") := by
  unfold respond at h ⊢
  split at h
  · exact absurd h (by decide : (500 : Nat) ≠ 200)
  · exact absurd h (by decide : (500 : Nat) ≠ 200)
  · exact absurd h (withHeader_status fun _ => (by decide : (402 : Nat) ≠ 200))
  · exact absurd h (withHeader_status fun _ => withHeader_status
      fun _ => (by decide : (402 : Nat) ≠ 200))
  · exact absurd h (requirePayment_status _)
  · exact absurd h (withHeader_status fun _ => (by decide : (409 : Nat) ≠ 200))
  · next settlement cached =>
    refine ⟨settlement, cached, rfl, ?_⟩
    unfold deliveredResponse at h ⊢
    rcases withHeader_eq (publicSettlement settlement) fun header =>
      ⟨200, none, some header, indentedText (get cached "body")⟩
      with heq | ⟨header, _, heq⟩
    · rw [heq] at h
      exact absurd h (by decide : (500 : Nat) ≠ 200)
    · rw [heq]

/-! ### What is authorized -/

mutual

theorem plain_of_validate {finite : Bool} :
    ∀ {depth : Nat} {v : Value}, v.Parsed → validateJsonValue finite true depth v = true →
    v.Plain
  | _, .null, _, _ => .null
  | _, .bool b, _, _ => .bool b
  | _, .negZero, _, _ => .negZero
  | _, .str s, _, _ => .str s
  | _, .num n, _, h => by
    simp only [validateJsonValue, Bool.not_true, Bool.false_or, Bool.and_eq_true,
      decide_eq_true_eq] at h
    exact .num h.2
  | _, .fractional, _, h => by simp [validateJsonValue] at h
  | _, .undefined, hv, _ => by cases hv
  | _, .host, hv, _ => by cases hv
  | depth, .arr xs, hv, h => by
    cases hv with
    | arr hxs =>
      rw [validateJsonValue, Bool.and_eq_true] at h
      exact .arr (plainElements_of_validate hxs h.2)
  | depth, .obj fs, hv, h => by
    cases hv with
    | obj hn hfs =>
      rw [validateJsonValue, Bool.and_eq_true] at h
      exact .obj hn (plainMembers_of_validate hfs h.2)

theorem plainElements_of_validate {finite : Bool} :
    ∀ {depth : Nat} {xs : List Value}, (∀ x ∈ xs, x.Parsed) →
    validateJsonElements finite true depth xs = true → ∀ x ∈ xs, x.Plain
  | _, [], _, _ => List.forall_mem_nil _
  | depth, x :: xs, hxs, h => by
    rw [validateJsonElements, Bool.and_eq_true] at h
    obtain ⟨hx, hrest⟩ := List.forall_mem_cons.mp hxs
    exact List.forall_mem_cons.mpr ⟨plain_of_validate hx h.1, plainElements_of_validate hrest h.2⟩

theorem plainMembers_of_validate {finite : Bool} : ∀ {depth : Nat} {fs : List (String × Value)},
    (∀ f ∈ fs, f.2.Parsed) →
    validateJsonMembers finite true depth fs = true → ∀ f ∈ fs, f.2.Plain
  | _, [], _, _ => List.forall_mem_nil _
  | depth, (key, x) :: fs, hfs, h => by
    rw [validateJsonMembers, Bool.and_eq_true, Bool.and_eq_true] at h
    obtain ⟨hx, hrest⟩ := List.forall_mem_cons.mp hfs
    exact List.forall_mem_cons.mpr ⟨plain_of_validate hx h.1.2, plainMembers_of_validate hrest h.2⟩

end

theorem decodeB64Json_parsed {text : String} {v : Value} {maxDecodedBytes maxEncodedBytes : Nat}
    (h : decodeB64Json text maxDecodedBytes maxEncodedBytes = some v) : v.Parsed := by
  simp only [decodeB64Json, Option.bind_eq_bind, Option.bind_eq_some_iff, guard_some,
    Option.pure_def, Option.some.injEq] at h
  obtain ⟨_, _, _, _, decoded, _, _, _, _, _, json, _, parsed, hparse, _, _, rfl⟩ := h
  exact parse_parsed hparse

/-- A payment that the server authorizes. -/
structure Accepts (platform : Platform) (config : Config) (paymentRequired paymentPayload : Value) :
    Prop where
  challenge : config.challenge platform = some paymentRequired
  plain : paymentPayload.Plain
  envelope : validatePaymentPayloadEnvelope platform.toNode paymentPayload = true
  requirement : sameRequirements (get paymentPayload "accepted") config.requirement = true
  resource : sameResource platform.toNode (get paymentPayload "resource")
    (get paymentRequired "resource") = true

section

variable {platform : Platform} {config : Config} {fractions : Fractions} {header : Header}
    {paymentRequired paymentPayload : Value}

theorem receive_run (h : receive platform config fractions header
      = .authorize paymentRequired paymentPayload) :
    ∃ text, header = .text text ∧ decodeX402Header text = some paymentPayload
      ∧ Accepts platform config paymentRequired paymentPayload := by
  unfold receive at h
  cases hchallenge : config.challenge platform with
  | none =>
    rw [hchallenge] at h
    exact Received.noConfusion h
  | some required =>
    rw [hchallenge, Option.elim_some] at h
    cases header with
    | absent => exact Received.noConfusion h
    | list => exact Received.noConfusion h
    | text text =>
      rw [receiveHeader] at h
      cases hdecode : decodeX402Header text with
      | none =>
        rw [hdecode] at h
        exact Received.noConfusion h
      | some payload =>
        rw [hdecode, Option.elim_some, receivePayment] at h
        split_ifs at h with _ hsame hstrict
        obtain ⟨rfl, rfl⟩ := Received.authorize.inj h
        simp only [Bool.not_eq_false, Bool.and_eq_true] at hsame hstrict
        exact ⟨text, rfl, hdecode, hchallenge,
          plain_of_validate (decodeB64Json_parsed hdecode) hstrict, hsame.1.1.1, hsame.1.2, hsame.2⟩

/-- A payment that passes the checks is authorized. -/
theorem receive_of_checks {text : String}
    (hchallenge : config.challenge platform = some paymentRequired)
    (hdecode : decodeX402Header text = some paymentPayload)
    (hstructure : (validateJsonValue fractions.finite false 0 paymentPayload
      && validatePaymentPayloadStructure fractions paymentPayload) = true)
    (hmatch : (validatePaymentPayloadEnvelope platform.toNode paymentPayload
      && validateActiveUpfrontRequirement (get paymentPayload "accepted")
      && sameRequirements (get paymentPayload "accepted") config.requirement
      && sameResource platform.toNode (get paymentPayload "resource")
      (get paymentRequired "resource")) = true)
      (hstrict : validateJsonValue fractions.finite true 0 paymentPayload = true) :
    receive platform config fractions (.text text) = .authorize paymentRequired paymentPayload := by
  rw [receive, hchallenge, Option.elim_some, receiveHeader, hdecode, Option.elim_some,
    receivePayment, hstructure, hmatch, hstrict]
  simp only [Bool.true_eq_false, if_false]

/-- A response without the facilitator is no delivery. -/
theorem receive_respond {response : Response}
    (h : receive platform config fractions header = .respond response) :
    response.status ≠ 200 := by
  have hinvalid : invalidPayment.status ≠ 200 := (by decide : (400 : Nat) ≠ 200)
  unfold receive at h
  cases hchallenge : config.challenge platform with
  | none =>
    rw [hchallenge] at h
    exact Received.respond.inj h ▸ (by decide : (500 : Nat) ≠ 200)
  | some required =>
    rw [hchallenge, Option.elim_some] at h
    cases header with
    | absent => exact Received.respond.inj h ▸ requirePayment_status _
    | list => exact Received.respond.inj h ▸ hinvalid
    | text text =>
      rw [receiveHeader] at h
      cases hdecode : decodeX402Header text with
      | none =>
        rw [hdecode] at h
        exact Received.respond.inj h ▸ hinvalid
      | some payload =>
        rw [hdecode, Option.elim_some, receivePayment] at h
        split_ifs at h
        · exact Received.respond.inj h ▸ hinvalid
        · exact Received.respond.inj h ▸ requirePayment_status _
        · exact Received.respond.inj h ▸ hinvalid

end

end Resource
end ZenonX402
