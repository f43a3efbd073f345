/-
# The operations of the execution contract

`createServiceCreditExecutionContract` and the five operations on a state, each
a function of the options object it is called with, in which the state is a
value like the others and is checked first. An operation that does not throw
gives back a state, and beside it the execution it settled or what it counted.

Key definitions: `prepareServiceCreditExecution`, `fenceServiceCreditExecution`,
`completeServiceCreditExecution`, `markServiceCreditExecutionUnknown`,
`recoverServiceCreditExecutions`, `Call`.
-/
import ZenonX402.Contract.State

namespace ZenonX402
namespace Contract

open Js
open Credit (Commitment PositiveInt Rejection)

def CREATE_KEYS : List String := ["ledgerId", "policy", "capacity"]

def PREPARE_KEYS : List String :=
  ["state", "request", "policy", "selectedDurationMs", "wallClockStartMs"]

def FENCE_KEYS : List String := ["state", "executionId", "wallClockNowMs"]

def COMPLETE_KEYS : List String := ["state", "executionId", "resultCommitment", "wallClockNowMs"]

def UNKNOWN_KEYS : List String := ["state", "executionId", "reason"]

def RECOVER_KEYS : List String := ["state", "wallClockNowMs"]

variable {sha : Sha256}

def createServiceCreditExecutionContract (sha : Sha256) (options : Value) :
    Except Code (Accepted sha) := do
  let input ← exactDataObject CREATE_KEYS options .INVALID_INPUT
  let policy ← normalizePolicy (input "policy") .INVALID_INPUT
  let ledgerId ← orFail (Credit.assertIdentifier.decode (input "ledgerId")) .INVALID_INPUT
  let capacity ← orFail (capacity.decode (input "capacity")) .INVALID_INPUT
  let generationId := generationIdentity sha ledgerId policy capacity.1
  normalizeState sha (stateCodec.encode ⟨ledgerId, policy, capacity,
    ⟨generationId, .OPEN, none⟩, []⟩)

def hydrateServiceCreditExecutionContract (sha : Sha256) (state : Value) :
    Except Code (Accepted sha) :=
  normalizeState sha state

/-! ### Executions of a state -/

/-- The execution with this identifier. -/
def executionWith (executions : List Execution) (executionId : Commitment) : Option Execution :=
  executions.find? fun e => decide (e.executionId = executionId)

def findExecution (state : Accepted sha) (executionId : Value) : Except Code Execution := do
  let executionId ← orFail (Credit.assertCommitment.decode executionId) .INVALID_INPUT
  orReject (executionWith state.1.executions executionId) .INVALID_TRANSITION

def executionOutcome (state : Accepted sha) (executionId : Commitment) : Except Code Execution :=
  orReject (executionWith state.1.executions executionId) .INVALID_STATE

/-- The executions with one in place of that of the same identifier. -/
def replaced (executions : List Execution) (replacement : Execution) : List Execution :=
  executions.map fun value => if value.executionId = replacement.executionId then replacement
  else value

def replaceExecution (state : Accepted sha) (replacement : Execution) (generation : Generation) :
    Except Code (Accepted sha) :=
  makeState state (replaced state.1.executions replacement) generation

def sealFor (execution : Execution) (reason : Option UncertaintyReason) : Generation :=
  ⟨execution.generationId, .SEALED, reason.map fun r => ⟨execution.executionId, r⟩⟩

/-- The seal of an unknown execution, unless the generation has one. -/
def Generation.sealedBy (generation : Generation) (replacement : Execution) : Generation :=
  match generation.state with
  | .OPEN => sealFor replacement replacement.uncertaintyReason
  | .SEALED => generation

namespace Execution

def started (e : Execution) : Execution := { e with fencePhase := .MAY_HAVE_STARTED }

def notInvoked (e : Execution) (reason : NoInvocationReason) : Execution :=
  { e with terminalClassification := .NOT_INVOKED, terminalReason := some reason }

def succeeded (e : Execution) (resultCommitment : Commitment) : Execution :=
  { e with terminalClassification := .SUCCEEDED, resultCommitment := some resultCommitment }

def unknown (e : Execution) (reason : UncertaintyReason) : Execution :=
  { e with terminalClassification := .OUTCOME_UNKNOWN, uncertaintyReason := some reason }

end Execution

/-! ### Prepare -/

/-- What an execution is prepared from. -/
structure Preparation where
  request : Request
  policy : Policy
  selectedDurationMs : PositiveInt
  wallClockStartMs : NonnegativeInt
  wallClockDeadlineMs : NonnegativeInt

/-- The arguments of `prepareServiceCreditExecution` beside the state. -/
def preparation (input : String → Value) : Except Code Preparation := do
  let request ← normalizeRequest (input "request") .INVALID_INPUT
  let policy ← normalizePolicy (input "policy") .INVALID_INPUT
  let selectedDurationMs ← orFail
      (Credit.assertPositiveSafeInteger.decode (input "selectedDurationMs")) .INVALID_INPUT
  rejectIf (policy.maxDurationMs.1 < selectedDurationMs.1) .INVALID_INPUT
  let wallClockStartMs ← orFail (nonnegativeSafeInteger.decode (input "wallClockStartMs"))
      .INVALID_INPUT
  let wallClockDeadlineMs ← orFail (nonnegativeSafeInteger.decode
    (.num (add wallClockStartMs.1 selectedDurationMs.1))) .INVALID_INPUT
  .ok ⟨request, policy, selectedDurationMs, wallClockStartMs, wallClockDeadlineMs⟩

/-- The new execution. -/
def Preparation.execution (sha : Sha256) (s : State) (p : Preparation) : Execution where
  executionId := executionIdentity sha s.ledgerId s.generation.generationId p.request p.policy
    p.selectedDurationMs
    p.wallClockStartMs p.wallClockDeadlineMs
  generationId := s.generation.generationId
  request := p.request
  policy := p.policy
  selectedDurationMs := p.selectedDurationMs
  wallClockStartMs := p.wallClockStartMs
  wallClockDeadlineMs := p.wallClockDeadlineMs
  fencePhase := .PREPARED
  terminalClassification := .NONE
  terminalReason := none
  resultCommitment := none
  uncertaintyReason := none

structure Prepared (sha : Sha256) where
  state : Accepted sha
  execution : Execution
  replayed : Bool

def prepareServiceCreditExecution (sha : Sha256) (options : Value) :
    Except Code (Prepared sha) := do
  let input ← exactDataObject PREPARE_KEYS options .INVALID_INPUT
  let state ← normalizeState sha (input "state")
  let p ← preparation input
  match state.1.executions.find? fun e => decide (requestKey e.request = requestKey p.request) with
  | some existing =>
    rejectIf (sameJson (requestCodec.encode existing.request)
      (requestCodec.encode p.request) = false
      ∨ sameJson (policyCodec.encode existing.policy) (policyCodec.encode p.policy) = false
      ∨ existing.selectedDurationMs ≠ p.selectedDurationMs
      ∨ existing.wallClockStartMs ≠ p.wallClockStartMs
      ∨ existing.wallClockDeadlineMs ≠ p.wallClockDeadlineMs) .CONFLICT
    .ok ⟨state, existing, true⟩
  | none =>
    rejectIf (sameJson (policyCodec.encode p.policy) (policyCodec.encode state.1.policy)
      = false) .CONFLICT
    rejectIf (state.1.generation.state = .SEALED) .GENERATION_SEALED
    rejectIf (state.1.capacity.1 ≤ state.1.executions.length) .CAPACITY_EXCEEDED
    let execution := p.execution sha state.1
    let next ← makeState state (state.1.executions ++ [execution]) state.1.generation
    let outcome ← executionOutcome next execution.executionId
    .ok ⟨next, outcome, false⟩

/-! ### Fence -/

/-- What a fence at this time makes of a prepared execution. -/
def Execution.fenced (e : Execution) (wallClockNowMs : NonnegativeInt) : Execution :=
  if wallClockNowMs.1 < e.wallClockStartMs.1 then e.notInvoked .CLOCK_REGRESSION
  else if e.wallClockDeadlineMs.1 ≤ wallClockNowMs.1 then e.notInvoked .DEADLINE_REACHED
  else e.started

/-- `fenceTransitionCandidate`. -/
structure Fenced (sha : Sha256) where
  state : Accepted sha
  execution : Execution

def fenceServiceCreditExecution (sha : Sha256) (options : Value) : Except Code (Fenced sha) := do
  let input ← exactDataObject FENCE_KEYS options .INVALID_INPUT
  let state ← normalizeState sha (input "state")
  let wallClockNowMs ← orFail (nonnegativeSafeInteger.decode (input "wallClockNowMs"))
      .INVALID_INPUT
  let execution ← findExecution state (input "executionId")
  if execution.terminalClassification ≠ .NONE then .ok ⟨state, execution⟩
  else if execution.fencePhase = .MAY_HAVE_STARTED then .ok ⟨state, execution⟩
  else do
    rejectIf (state.1.generation.state = .SEALED) .GENERATION_SEALED
    let next ← replaceExecution state (execution.fenced wallClockNowMs) state.1.generation
    let outcome ← executionOutcome next execution.executionId
    .ok ⟨next, outcome⟩

/-! ### Complete -/

/-- What a result at this time makes of a started execution. -/
def Execution.completed (e : Execution) (resultCommitment : Commitment)
    (wallClockNowMs : NonnegativeInt) :
    Execution :=
  if wallClockNowMs.1 < e.wallClockStartMs.1 then e.unknown .CLOCK_REGRESSION
  else if e.wallClockDeadlineMs.1 ≤ wallClockNowMs.1 then e.unknown .DEADLINE_EXPIRED
  else e.succeeded resultCommitment

structure Settled (sha : Sha256) where
  state : Accepted sha
  execution : Execution
  transitioned : Bool
  winner : TerminalClassification

/-- `wallClockNowMs`, which may be null. -/
def wallClockOrNull : Codec Rejection (Option NonnegativeInt) :=
  .nullable nonnegativeSafeInteger fun _ => nofun

def completeServiceCreditExecution (sha : Sha256) (options : Value) :
    Except Code (Settled sha) := do
  let input ← exactDataObject COMPLETE_KEYS options .INVALID_INPUT
  let state ← normalizeState sha (input "state")
  let resultCommitment ← orFail (Credit.assertCommitment.decode (input "resultCommitment"))
      .INVALID_INPUT
  let wallClockNowMs ← orFail (wallClockOrNull.decode (input "wallClockNowMs")) .INVALID_INPUT
  let execution ← findExecution state (input "executionId")
  if execution.terminalClassification = .SUCCEEDED then do
    rejectIf (execution.resultCommitment ≠ some resultCommitment) .CONFLICT
    .ok ⟨state, execution, false, .SUCCEEDED⟩
  else if execution.terminalClassification = .OUTCOME_UNKNOWN
    then .ok ⟨state, execution, false, .OUTCOME_UNKNOWN⟩
  else do
    rejectIf (execution.terminalClassification ≠ .NONE ∨ execution.fencePhase ≠ .MAY_HAVE_STARTED)
      .INVALID_TRANSITION
    let wallClockNowMs ← orReject wallClockNowMs .INVALID_INPUT
    let replacement := execution.completed resultCommitment wallClockNowMs
    let generation := if replacement.terminalClassification = .OUTCOME_UNKNOWN
      then state.1.generation.sealedBy replacement else state.1.generation
    let next ← replaceExecution state replacement generation
    let outcome ← executionOutcome next execution.executionId
    .ok ⟨next, outcome, true, replacement.terminalClassification⟩

/-! ### Mark unknown -/

/-- A reason from outside. -/
def externalReason : Codec Rejection {r : UncertaintyReason // r.external = true} :=
  uncertaintyReason.refine UncertaintyReason.external .INVALID_INPUT

def markServiceCreditExecutionUnknown (sha : Sha256) (options : Value) :
    Except Code (Settled sha) := do
  let input ← exactDataObject UNKNOWN_KEYS options .INVALID_INPUT
  let state ← normalizeState sha (input "state")
  let reason ← orFail (externalReason.decode (input "reason")) .INVALID_INPUT
  let execution ← findExecution state (input "executionId")
  if execution.terminalClassification = .SUCCEEDED then .ok ⟨state, execution, false, .SUCCEEDED⟩
  else if execution.terminalClassification = .OUTCOME_UNKNOWN then do
    rejectIf (execution.uncertaintyReason ≠ some reason.1) .CONFLICT
    .ok ⟨state, execution, false, .OUTCOME_UNKNOWN⟩
  else do
    rejectIf (execution.terminalClassification ≠ .NONE ∨ execution.fencePhase ≠ .MAY_HAVE_STARTED)
      .INVALID_TRANSITION
    let replacement := execution.unknown reason.1
    let next ← replaceExecution state replacement (state.1.generation.sealedBy replacement)
    let outcome ← executionOutcome next execution.executionId
    .ok ⟨next, outcome, true, .OUTCOME_UNKNOWN⟩

/-! ### Recover -/

/-- Why an execution that had started is unknown after a restart at this time. -/
def recoveryReason (e : Execution) (wallClockNowMs : NonnegativeInt) : UncertaintyReason :=
  if wallClockNowMs.1 < e.wallClockStartMs.1 then .CLOCK_REGRESSION
  else if e.wallClockDeadlineMs.1 ≤ wallClockNowMs.1 then .DEADLINE_EXPIRED
  else .RESTART_LOST_CONTROL

/-- What the recovery loop has found so far. -/
structure Recovery where
  noInvocationCount : Nat
  outcomeUnknownCount : Nat
  trigger : Option Execution
  executions : List Execution

/-- One round of the recovery loop. -/
def Recovery.next (wallClockNowMs : NonnegativeInt) (r : Recovery) (execution : Execution) :
    Recovery :=
  if execution.terminalClassification ≠ .NONE
  then { r with executions := r.executions ++ [execution] }
  else match execution.fencePhase with
    | .PREPARED => { r with
      noInvocationCount := r.noInvocationCount + 1
      executions := r.executions ++ [execution.notInvoked .RECOVERY_PREPARED] }
    | .MAY_HAVE_STARTED =>
      let replacement := execution.unknown (recoveryReason execution wallClockNowMs)
      { r with
        outcomeUnknownCount := r.outcomeUnknownCount + 1
        trigger := r.trigger.or (some replacement)
        executions := r.executions ++ [replacement] }

structure Recovered (sha : Sha256) where
  state : Accepted sha
  transitioned : Bool
  noInvocationCount : Nat
  outcomeUnknownCount : Nat

def recoverServiceCreditExecutions (sha : Sha256) (options : Value) :
    Except Code (Recovered sha) := do
  let input ← exactDataObject RECOVER_KEYS options .INVALID_INPUT
  let state ← normalizeState sha (input "state")
  let wallClockNowMs ← orFail (nonnegativeSafeInteger.decode (input "wallClockNowMs"))
      .INVALID_INPUT
  let r := state.1.executions.foldl (Recovery.next wallClockNowMs) ⟨0, 0, none, []⟩
  if r.noInvocationCount = 0 ∧ r.outcomeUnknownCount = 0 then .ok ⟨state, false, 0, 0⟩
  else do
    let generation := match r.trigger with
      | some trigger => state.1.generation.sealedBy trigger
      | none => state.1.generation
    let next ← makeState state r.executions generation
    .ok ⟨next, true, r.noInvocationCount, r.outcomeUnknownCount⟩

/-! ### Calls -/

inductive Operation
  | prepare
  | fence
  | complete
  | markUnknown
  | recover
  deriving DecidableEq, Repr

/-- A call of an operation; what `options` has for a state is replaced by the state at hand. -/
structure Call where
  operation : Operation
  options : Value

/-- The options with this state for theirs, if they have one. -/
def withState (state : Value) : Value → Value
  | .obj fs => .obj (fs.map fun f => if f.1 = "state" then ("state", state) else f)
  | v => v

/-- The state that the operation gives back. -/
def Call.run (sha : Sha256) (call : Call) (state : Value) : Except Code (Accepted sha) :=
  let options := withState state call.options
  match call.operation with
  | .prepare => (prepareServiceCreditExecution sha options).map (·.state)
  | .fence => (fenceServiceCreditExecution sha options).map (·.state)
  | .complete => (completeServiceCreditExecution sha options).map (·.state)
  | .markUnknown => (markServiceCreditExecutionUnknown sha options).map (·.state)
  | .recover => (recoverServiceCreditExecutions sha options).map (·.state)

/-- The state to go on with: a call that throws gives back none. -/
def Call.next (call : Call) (state : Accepted sha) : Accepted sha :=
  match call.run sha state.encode with
  | .ok next => next
  | .error _ => state

/-- One call, on the state that the call before it gave back. -/
def CallStep (sha : Sha256) (s : Accepted sha) (call : Call) (s' : Accepted sha) : Prop :=
  call.next s = s'

end Contract
end ZenonX402
