/-
# The records of the execution contract

What `service-credit-execution-contract.js` keeps of an execution: the policy it
runs under, the request it serves, its times, how far it got and how it ended,
and the generation with its seal. Each record has the codec that is its
normalizer. A record of a valid shape may still contradict itself or the
contract it is part of; `Execution.consistent` and `Execution.admissible` are
those checks.

An argument is a tree of plain values, and the sign of a zero is dropped: a time
of −0 is compared, added and hashed as 0.

Key definitions: `Policy`, `Request`, `Execution`, `Generation`, their codecs,
`executionIdentity`, `generationIdentity`.
Key theorems: `executionText_inj`.
-/
import ZenonX402.Credit.Records
import ZenonX402.Lib.Double
import ZenonX402.Lib.Loop
import ZenonX402.Lib.Record

namespace ZenonX402
namespace Contract

open Js
open Credit (Identifier Commitment Method ContentType PositiveInt Rejection)

/-- The suffix of a `SERVICE_CREDIT_EXECUTION_CONTRACT_` code. -/
inductive Code
  | INVALID_INPUT
  | INVALID_STATE
  | CONFLICT
  | GENERATION_SEALED
  | CAPACITY_EXCEEDED
  | INVALID_TRANSITION
  deriving DecidableEq, Repr

/-- What a normalizer rejects fails with the code it was handed. -/
def orFail {α : Type} (x : Except Rejection α) (code : Code) : Except Code α :=
  x.mapError fun _ => code

theorem orFail_ok {α : Type} {x : Except Rejection α} {code : Code} {a : α} :
    orFail x code = .ok a ↔ x = .ok a := by
  cases x <;> simp [orFail, Except.mapError]

/-- `exactDataObject`: what a plain object holds under exactly these keys. -/
def exactDataObject (names : List String) (value : Value) (code : Code) :
    Except Code (String → Value) := do
  let (_, get) ← orReject (fields names value) code
  .ok get

theorem exactDataObject_written {names : List String} (order : Order names) (field : String → Value)
    (code : Code) :
    ∃ get, exactDataObject names (written order field) code = .ok get ∧ ∀ k ∈ names,
    get k = field k := by
  obtain ⟨get, hget, hfield⟩ := fields_written order field
  refine ⟨get, ?_, hfield⟩
  rw [exactDataObject, hget]
  rfl

theorem gives_orFail {α β : Type} {x : Except Rejection α} {code : Code} {f : α → Except Code β}
    {E : Code → Prop} {P : β → Prop} (hcode : E code) (h : ∀ a, x = .ok a → Gives (f a) E P) :
    Gives (orFail x code >>= f) E P := by
  cases x with
  | error e => exact hcode
  | ok a => exact h a rfl

theorem gives_exactDataObject {β : Type} {names : List String} {value : Value} {code : Code}
    {f : (String → Value) → Except Code β} {E : Code → Prop} {P : β → Prop} (hcode : E code)
    (h : ∀ get, exactDataObject names value code = .ok get → Gives (f get) E P) :
    Gives (exactDataObject names value code >>= f) E P := by
  refine gives_bind.mpr ⟨fun e he => ?_, h⟩
  unfold exactDataObject orReject at he
  cases hfields : fields names value with
  | none =>
    rw [hfields] at he
    exact Except.error.inj he ▸ hcode
  | some f =>
    rw [hfields] at he
    cases he

/-! ### Enumerations -/

inductive FencePhase
  | PREPARED
  | MAY_HAVE_STARTED
  deriving DecidableEq, Repr

inductive TerminalClassification
  | NONE
  | NOT_INVOKED
  | SUCCEEDED
  | OUTCOME_UNKNOWN
  deriving DecidableEq, Repr

/-- `NO_INVOCATION_REASONS`. -/
inductive NoInvocationReason
  | CLOCK_REGRESSION
  | DEADLINE_REACHED
  | RECOVERY_PREPARED
  deriving DecidableEq, Repr

/-- `ALL_UNCERTAINTY_REASONS`. -/
inductive UncertaintyReason
  | ABORT_REQUESTED
  | DEADLINE_EXPIRED
  | DISCONNECTED
  | LOST_CONTROL
  | SHUTDOWN_UNCERTAIN
  | CLOCK_REGRESSION
  | RESTART_LOST_CONTROL
  deriving DecidableEq, Repr

/-- `EXTERNAL_UNCERTAINTY_REASONS`. -/
def UncertaintyReason.external : UncertaintyReason → Bool
  | CLOCK_REGRESSION | RESTART_LOST_CONTROL => false
  | _ => true

inductive GenerationState
  | OPEN
  | SEALED
  deriving DecidableEq, Repr

def FencePhase.name : FencePhase → String
  | PREPARED => "PREPARED"
  | MAY_HAVE_STARTED => "MAY_HAVE_STARTED"

def TerminalClassification.name : TerminalClassification → String
  | NONE => "NONE"
  | NOT_INVOKED => "NOT_INVOKED"
  | SUCCEEDED => "SUCCEEDED"
  | OUTCOME_UNKNOWN => "OUTCOME_UNKNOWN"

def NoInvocationReason.name : NoInvocationReason → String
  | CLOCK_REGRESSION => "CLOCK_REGRESSION"
  | DEADLINE_REACHED => "DEADLINE_REACHED"
  | RECOVERY_PREPARED => "RECOVERY_PREPARED"

def UncertaintyReason.name : UncertaintyReason → String
  | ABORT_REQUESTED => "ABORT_REQUESTED"
  | DEADLINE_EXPIRED => "DEADLINE_EXPIRED"
  | DISCONNECTED => "DISCONNECTED"
  | LOST_CONTROL => "LOST_CONTROL"
  | SHUTDOWN_UNCERTAIN => "SHUTDOWN_UNCERTAIN"
  | CLOCK_REGRESSION => "CLOCK_REGRESSION"
  | RESTART_LOST_CONTROL => "RESTART_LOST_CONTROL"

def GenerationState.name : GenerationState → String
  | OPEN => "OPEN"
  | SEALED => "SEALED"

def fencePhase : Codec Rejection FencePhase :=
  .enum [.PREPARED, .MAY_HAVE_STARTED] FencePhase.name .INVALID_INPUT
  (fun a => by cases a <;> decide)
    (fun a b => by cases a <;> cases b <;> decide)

def terminalClassification : Codec Rejection TerminalClassification :=
  .enum [.NONE, .NOT_INVOKED, .SUCCEEDED, .OUTCOME_UNKNOWN] TerminalClassification.name
  .INVALID_INPUT
    (fun a => by cases a <;> decide) (fun a b => by cases a <;> cases b <;> decide)

def noInvocationReason : Codec Rejection NoInvocationReason :=
  .enum [.CLOCK_REGRESSION, .DEADLINE_REACHED, .RECOVERY_PREPARED] NoInvocationReason.name
  .INVALID_INPUT
    (fun a => by cases a <;> decide) (fun a b => by cases a <;> cases b <;> decide)

def uncertaintyReason : Codec Rejection UncertaintyReason :=
  .enum [.ABORT_REQUESTED, .DEADLINE_EXPIRED, .DISCONNECTED, .LOST_CONTROL, .SHUTDOWN_UNCERTAIN,
      .CLOCK_REGRESSION, .RESTART_LOST_CONTROL] UncertaintyReason.name .INVALID_INPUT
    (fun a => by cases a <;> decide) (fun a b => by cases a <;> cases b <;> decide)

def generationState : Codec Rejection GenerationState :=
  .enum [.OPEN, .SEALED] GenerationState.name .INVALID_INPUT (fun a => by cases a <;> decide)
    (fun a b => by cases a <;> cases b <;> decide)

/-! ### Policies and requests -/

/-- A safe integer from zero on. -/
abbrev NonnegativeInt := {n : Int // n.natAbs ≤ 9007199254740991 ∧ decide (0 ≤ n) = true}

def nonnegativeSafeInteger : Codec Rejection NonnegativeInt :=
  .integer (fun n => decide (0 ≤ n)) .INVALID_INPUT

structure Policy where
  policyId : Identifier
  policyVersion : PositiveInt
  maxDurationMs : PositiveInt
  deriving DecidableEq

def policyCodec : Codec Rejection Policy :=
  (object (.cons "policyId" Credit.assertIdentifier
    (.cons "policyVersion" Credit.assertPositiveSafeInteger
    (.cons "maxDurationMs" Credit.assertPositiveSafeInteger .nil))) Rejection.INVALID_INPUT).equiv
    { toFun := fun (a, b, c, _) => ⟨a, b, c⟩
      invFun := fun p => (p.policyId, p.policyVersion, p.maxDurationMs, ())
      left_inv := fun _ => rfl
      right_inv := fun _ => rfl }

def normalizePolicy (value : Value) (code : Code) : Except Code Policy :=
  orFail (policyCodec.decode value) code

/-- The fields of a request, each checked by itself. -/
structure RequestFields where
  modelVersion : PositiveInt
  grantId : Identifier
  requestId : Identifier
  requestDigest : Commitment
  method : Method
  routeId : Identifier
  canonicalBodyDigest : Commitment
  selectedContentType : ContentType
  maxCostUnits : PositiveInt
  costUnits : PositiveInt
  deriving DecidableEq

/-- A request that costs at most what it allows. -/
abbrev Request := {r : RequestFields // decide (r.costUnits.1 ≤ r.maxCostUnits.1) = true}

def requestFieldsCodec : Codec Rejection RequestFields :=
  (object (.cons "modelVersion" Credit.assertPositiveSafeInteger
    (.cons "grantId" Credit.assertIdentifier
    (.cons "requestId" Credit.assertIdentifier
    (.cons "requestDigest" Credit.assertCommitment
    (.cons "method" Credit.assertMethod
    (.cons "routeId" Credit.assertIdentifier
    (.cons "canonicalBodyDigest" Credit.assertCommitment
    (.cons "selectedContentType" Credit.assertContentType
    (.cons "maxCostUnits" Credit.assertPositiveSafeInteger
    (.cons "costUnits" Credit.assertPositiveSafeInteger .nil))))))))))
    Rejection.INVALID_INPUT).equiv
    { toFun := fun (a, b, c, d, e, f, g, h, i, j, _) => ⟨a, b, c, d, e, f, g, h, i, j⟩
      invFun := fun r => (r.modelVersion, r.grantId, r.requestId, r.requestDigest,
        r.method, r.routeId, r.canonicalBodyDigest, r.selectedContentType, r.maxCostUnits,
        r.costUnits, ())
      left_inv := fun _ => rfl
      right_inv := fun _ => rfl }

def requestCodec : Codec Rejection Request :=
  requestFieldsCodec.refine (fun r => decide (r.costUnits.1 ≤ r.maxCostUnits.1)) .INVALID_INPUT

def normalizeRequest (value : Value) (code : Code) : Except Code Request :=
  orFail (requestCodec.decode value) code

def requestKey (request : Request) : String :=
  request.1.grantId.1 ++ "\x00" ++ request.1.requestId.1

/-! ### Executions -/

/-- What is fixed of an execution from the start. -/
structure ExecutionIdentity where
  executionId : Commitment
  generationId : Commitment
  request : Request
  policy : Policy
  selectedDurationMs : PositiveInt
  wallClockStartMs : NonnegativeInt
  wallClockDeadlineMs : NonnegativeInt
  deriving DecidableEq

structure Execution extends ExecutionIdentity where
  fencePhase : FencePhase
  terminalClassification : TerminalClassification
  terminalReason : Option NoInvocationReason
  resultCommitment : Option Commitment
  uncertaintyReason : Option UncertaintyReason
  deriving DecidableEq

def executionCodec : Codec Rejection Execution :=
  (object (.const "executionVersion" (.constNum 1 .INVALID_INPUT)
    (.cons "executionId" Credit.assertCommitment
    (.cons "generationId" Credit.assertCommitment
    (.cons "request" requestCodec
    (.cons "policy" policyCodec
    (.cons "selectedDurationMs" Credit.assertPositiveSafeInteger
    (.cons "wallClockStartMs" nonnegativeSafeInteger
    (.cons "wallClockDeadlineMs" nonnegativeSafeInteger
    (.cons "fencePhase" fencePhase
    (.cons "terminalClassification" terminalClassification
    (.cons "terminalReason" (.nullable noInvocationReason fun a => by cases a <;> exact nofun)
    (.cons "resultCommitment" (.nullable Credit.assertCommitment fun _ => nofun)
    (.cons "uncertaintyReason" (.nullable uncertaintyReason fun a => by cases a <;> exact nofun)
      .nil))))))))))))) Rejection.INVALID_INPUT).equiv
    { toFun := fun (a, b, c, d, e, f, g, h, i, j, k, l, _) => ⟨⟨a, b, c, d, e, f, g⟩, h, i, j, k, l⟩
      invFun := fun e => (e.executionId, e.generationId, e.request, e.policy, e.selectedDurationMs,
        e.wallClockStartMs, e.wallClockDeadlineMs, e.fencePhase, e.terminalClassification,
        e.terminalReason,
        e.resultCommitment, e.uncertaintyReason, ())
      left_inv := fun _ => rfl
      right_inv := fun _ => rfl }

/-- What an execution records of its end agrees with how it is classified. -/
def Execution.consistent (e : Execution) : Bool := match e.terminalClassification with
  | .NONE => e.terminalReason.isNone && e.resultCommitment.isNone && e.uncertaintyReason.isNone
  | .NOT_INVOKED => decide (e.fencePhase = .PREPARED) && e.terminalReason.isSome
      && e.resultCommitment.isNone
      && e.uncertaintyReason.isNone
  | .SUCCEEDED => decide (e.fencePhase = .MAY_HAVE_STARTED) && e.terminalReason.isNone
      && e.resultCommitment.isSome && e.uncertaintyReason.isNone
  | .OUTCOME_UNKNOWN => decide (e.fencePhase = .MAY_HAVE_STARTED) && e.terminalReason.isNone
      && e.resultCommitment.isNone && e.uncertaintyReason.isSome

/-- `JSON.stringify` of a record with its keys in order, after a domain, in SHA-256. -/
def digest (sha : Sha256) (text : String) : Commitment :=
  ⟨"sha256:" ++ sha.hex text, Text.prefixed_append "sha256:" (sha.isHash_hex _)⟩

def generationIdentity (sha : Sha256) (ledgerId : Identifier) (policy : Policy) (capacity : Int) :
    Commitment :=
  digest sha ("zenon-x402-service-credit-execution-generation-v1\x00" ++ canonicalJson (.obj [
    ("contractVersion", .num 1),
    ("ledgerId", .str ledgerId.1),
    ("policy", policyCodec.encode policy),
    ("capacity", .num capacity),
    ("sequence", .num 1)]))

/-- The record that `executionIdentity` hashes. -/
def executionTerms (ledgerId : Identifier) (generationId : Commitment) (request : Request)
    (policy : Policy) (selectedDurationMs : PositiveInt)
    (wallClockStartMs wallClockDeadlineMs : NonnegativeInt) : Value :=
  .obj [
    ("contractVersion", .num 1),
    ("ledgerId", .str ledgerId.1),
    ("generationId", .str generationId.1),
    ("request", requestCodec.encode request),
    ("policy", policyCodec.encode policy),
    ("selectedDurationMs", .num selectedDurationMs.1),
    ("wallClockStartMs", .num wallClockStartMs.1),
    ("wallClockDeadlineMs", .num wallClockDeadlineMs.1)]

/-- The text that `executionIdentity` hashes. -/
def executionText (ledgerId : Identifier) (generationId : Commitment) (request : Request)
    (policy : Policy) (selectedDurationMs : PositiveInt)
    (wallClockStartMs wallClockDeadlineMs : NonnegativeInt) : String :=
  "zenon-x402-service-credit-execution-contract-v1\x00"
    ++ canonicalJson (executionTerms ledgerId generationId
    request policy selectedDurationMs wallClockStartMs wallClockDeadlineMs)

def executionIdentity (sha : Sha256) (ledgerId : Identifier) (generationId : Commitment)
    (request : Request) (policy : Policy) (selectedDurationMs : PositiveInt)
    (wallClockStartMs wallClockDeadlineMs : NonnegativeInt) :
    Commitment :=
  digest sha (executionText ledgerId generationId request policy selectedDurationMs wallClockStartMs
    wallClockDeadlineMs)

/-- `normalizeExecution`, after the shapes of the fields. -/
def Execution.admissible (sha : Sha256) (ledgerId : Identifier) (generationId : Commitment)
    (rootPolicy : Policy) (e : Execution) : Bool :=
  decide (e.generationId = generationId)
    && sameJson (policyCodec.encode e.policy) (policyCodec.encode rootPolicy)
    && decide (e.selectedDurationMs.1 ≤ e.policy.maxDurationMs.1)
    && decide (add e.wallClockStartMs.1 e.selectedDurationMs.1 = e.wallClockDeadlineMs.1)
    && decide (e.executionId = executionIdentity sha ledgerId generationId e.request e.policy
      e.selectedDurationMs
        e.wallClockStartMs e.wallClockDeadlineMs)
    && e.consistent

/-! ### The generation -/

structure Seal where
  executionId : Commitment
  reason : UncertaintyReason
  deriving DecidableEq

def sealCodec : Codec Rejection Seal :=
  (object (.cons "executionId" Credit.assertCommitment
    (.cons "reason" uncertaintyReason .nil)) Rejection.INVALID_INPUT).equiv
    { toFun := fun (a, b, _) => ⟨a, b⟩
      invFun := fun s => (s.executionId, s.reason, ())
      left_inv := fun _ => rfl
      right_inv := fun _ => rfl }

structure Generation where
  generationId : Commitment
  state : GenerationState
  sealed : Option Seal
  deriving DecidableEq

def generationCodec : Codec Rejection Generation :=
  (object (.const "generationVersion" (.constNum 1 .INVALID_INPUT)
    (.cons "generationId" Credit.assertCommitment
    (.const "sequence" (.constNum 1 .INVALID_INPUT)
    (.cons "state" generationState
    (.cons "seal" (.nullable sealCodec fun _ => nofun) .nil))))) Rejection.INVALID_INPUT).equiv
    { toFun := fun (a, b, c, _) => ⟨a, b, c⟩
      invFun := fun g => (g.generationId, g.state, g.sealed, ())
      left_inv := fun _ => rfl
      right_inv := fun _ => rfl }

/-! ### Identities -/

/-- Two executions of one contract with one text have the same terms. -/
theorem executionText_inj {ledgerId : Identifier} {generationId : Commitment} {r r' : Request}
    {p p' : Policy} {d d' : PositiveInt} {s s' t t' : NonnegativeInt}
    (h : executionText ledgerId generationId r p d s t
      = executionText ledgerId generationId r' p' d' s' t') :
    r = r' ∧ p = p' ∧ d = d' ∧ s = s' ∧ t = t' := by
  let terms : Codec Rejection _ := object
    (.const "contractVersion" (.constNum 1 .INVALID_INPUT) (.cons "ledgerId" Credit.assertIdentifier
    (.cons "generationId" Credit.assertCommitment
      (.cons "request" requestCodec (.cons "policy" policyCodec
    (.cons "selectedDurationMs" Credit.assertPositiveSafeInteger
      (.cons "wallClockStartMs" nonnegativeSafeInteger
    (.cons "wallClockDeadlineMs" nonnegativeSafeInteger .nil)))))))) .INVALID_INPUT
  have hcanonical := (String.append_right_inj _).mp h
  have hsame := (canonicalJson_inj (terms.json_encode (ledgerId, generationId, r, p, d, s, t, ()))
    (terms.json_encode (ledgerId, generationId, r', p', d', s', t', ()))).mp hcanonical
  have heq := terms.encode_injective hsame
  simp only [Prod.mk.injEq] at heq
  exact ⟨heq.2.2.1, heq.2.2.2.1, heq.2.2.2.2.1, heq.2.2.2.2.2.1, heq.2.2.2.2.2.2.1⟩

end Contract
end ZenonX402
