/-
# Ownership of the live SDK

`LiveSdkRuntime` of `live-runtime.js`. What happens to a runtime comes in events:
a call of `withOwner`, or of a method of the scope that an owner was given (it may be
called as long as somebody holds the scope); and what the promises do, each at some
later time: the work starts, ends and gives its ownership up, the callback of an RPC
starts and settles, its deadline fires, its race is concluded, its teardown ends. A
caller is the place of its call among those that were made, which is also its token;
an RPC is its place among those that were accepted.

`grants` is not in the source: the callers that became the active one, in that order.

Key definitions: `Failure`, `Caller`, `Rpc`, `Live`, `acquire`, `poison`, `release`,
`runRpcWithDeadline`, `conclude`, `Event.act`, `LiveStep`.
-/
import ZenonX402.Lib.Formats
import ZenonX402.Lib.Loop

namespace ZenonX402
namespace Runtime

open Js

/-! ### Errors -/

inductive Category
  | read
  | publication
  deriving DecidableEq, Repr

/-- What `poison` is told was the cause; `ε` are the errors of the callers. -/
inductive Cause (ε : Type)
  | timeout (category : Category) (operation : String)
  | given (error : ε)
  | unspecified
  deriving DecidableEq

/-- What a call throws or a promise rejects with. -/
inductive Failure (ε : Type)
  | typeError (message : String)
  | poisoned (cause : Cause ε)
  | timeout (category : Category) (operation : String)
  | inactive (message : String)
  | mismatch
  | thrown (error : ε)
  deriving DecidableEq

namespace Failure

variable {ε : Type}

/-- The `code` of a `LiveRuntimeError`. -/
def code : Failure ε → Option String
  | poisoned _ => some "live_runtime_poisoned_restart_required"
  | timeout .read _ => some "live_rpc_read_timeout"
  | timeout .publication _ => some "live_rpc_publication_timeout"
  | inactive _ => some "live_runtime_owner_inactive"
  | mismatch => some "live_runtime_owner_mismatch"
  | typeError _ | thrown _ => none

/-- The `outcome` of a `LiveRuntimeError`. -/
def outcome : Failure ε → Option String
  | timeout .read _ => some "OPERATION_UNAVAILABLE"
  | timeout .publication _ => some "SUBMISSION_OUTCOME_UNKNOWN"
  | _ => none

end Failure

/-! ### Arguments -/

/-- An argument that should be a function. -/
inductive Callback
  | undefined
  | function
  | other
  deriving DecidableEq

/-- The options of an RPC. (Where they are `undefined` or `null` nothing can be read of them, and
the call throws a `TypeError` as it does for wrong ones.) -/
structure Options where
  category : Value
  operation : Value
  timeoutMs : Value
  execute : Callback
  teardown : Callback

def MAX_TIMER_MS : Int := 2147483647

variable {ε α : Type}

/-- A name of an owner or of an operation. -/
def name (value : Value) (message : String) : Except (Failure ε) String := match value with
  | .str s => if 1 ≤ utf16Length s ∧ utf16Length s ≤ 128 then .ok s else .error (.typeError message)
  | _ => .error (.typeError message)

def assertOwnerName (owner : Value) : Except (Failure ε) String :=
  name owner "live SDK owner must be a non-empty string of at most 128 characters"

def categoryOf : Value → Except (Failure ε) Category
  | .str "read" => .ok .read
  | .str "publication" => .ok .publication
  | _ => .error (.typeError "RPC deadline category must be read or publication")

/-- `assertTimeoutOptions`, with what it has found. -/
def assertTimeoutOptions (options : Options) : Except (Failure ε) (Category × String × Bool) := do
  let category ← categoryOf options.category
  let operation ← name options.operation "RPC operation must be a non-empty string of at most 128 characters"
  match options.timeoutMs with
  | .num n =>
    rejectIf (n ≤ 0 ∨ MAX_TIMER_MS < n)
      (.typeError "RPC timeoutMs must be a positive timer-safe integer")
  | _ => .error (.typeError "RPC timeoutMs must be a positive timer-safe integer")
  rejectIf (options.execute ≠ .function) (.typeError "RPC execute must be a function")
  rejectIf (options.teardown = .other) (.typeError "RPC teardown must be a function when provided")
  .ok (category, operation, options.teardown = .function)

/-! ### The runtime -/

/-- How far a caller of `withOwner` has got: it waits for ownership, was granted it, its work runs,
has ended, and the ownership was given up; or it was rejected without it. -/
inductive Stage (ε α : Type)
  | waiting
  | granted
  | working
  | leaving (result : Except (Failure ε) α)
  | left (result : Except (Failure ε) α)
  | rejected (cause : Cause ε)

structure Caller (ε α : Type) where
  owner : String
  stage : Stage ε α

/-- How far an RPC has got: its race goes on, or was won by the operation or by the deadline, then
perhaps the teardown is awaited, and last its promise is settled. -/
inductive Race (ε α : Type)
  | racing
  | operation (result : Except ε α)
  | deadline
  | teardown
  | reported (report : Except (Failure ε) α)

structure Rpc (ε α : Type) where
  caller : Nat
  category : Category
  operation : String
  teardown : Bool
  started : Bool
  operationResult : Option (Except ε α)
  race : Race ε α
  teardownError : Option ε
  lateTeardownError : Option ε

structure Live (ε α : Type) where
  activeToken : Option Nat
  queue : List Nat
  poisonCause : Option (Cause ε)
  callers : List (Caller ε α)
  grants : List Nat
  rpcs : List (Rpc ε α)

def initial : Live ε α := ⟨none, [], none, [], [], []⟩

namespace Live

variable (s : Live ε α)

/-- One more caller. -/
def enroll (owner : String) (stage : Stage ε α) : Live ε α :=
  { s with callers := s.callers ++ [⟨owner, stage⟩] }

/-- A caller gets further. -/
def enter (i : Nat) (stage : Stage ε α) : Live ε α :=
  { s with callers := s.callers.modify i fun caller => { caller with stage := stage } }

/-- A caller becomes the active one. -/
def grant (i : Nat) : Live ε α := { s with activeToken := some i, grants := s.grants ++ [i] }

/-- `#acquire`. -/
def acquire (owner : String) : Live ε α := match s.poisonCause with
  | some cause => s.enroll owner (.rejected cause)
  | none => match s.activeToken with
    | none => (s.enroll owner .granted).grant s.callers.length
    | some _ => { s.enroll owner .waiting with queue := s.queue ++ [s.callers.length] }

/-- The callers that a list of places names are rejected. -/
def rejectOwners (cause : Cause ε) (waiters : List Nat) : Live ε α :=
  { s with queue := []
           callers := s.callers.mapIdx fun i caller =>
           if i ∈ waiters then { caller with stage := .rejected cause } else caller }

/-- `#rejectQueuedOwners`. -/
def rejectQueuedOwners : Live ε α := match s.poisonCause with
  | none => s
  | some cause => s.rejectOwners cause s.queue

/-- `#poison`. -/
def poison (cause : Cause ε) : Live ε α :=
  { s with poisonCause := some (s.poisonCause.getD cause) }.rejectQueuedOwners

/-- `#poisonFromOwner`; the cause is an error or it is none. -/
def poisonFromOwner (token : Nat) (cause : Option ε) : Except (Failure ε) (Live ε α) :=
  if s.activeToken ≠ some token then .error
  (.inactive "live SDK poison used outside its ownership scope")
  else .ok (s.poison (match cause with
    | some error => .given error
    | none => .unspecified))

/-- `#release`. -/
def release (token : Nat) : Except (Failure ε) (Live ε α) :=
  if s.activeToken ≠ some token then .error .mismatch
  else
    let s := { s with activeToken := none }
    match s.poisonCause, s.queue with
    | some _, _ => .ok s.rejectQueuedOwners
    | none, [] => .ok s
    | none, next :: queue => .ok (({ s with queue := queue }.grant next).enter next .granted)

/-- What `#runRpcWithDeadline` does before it waits for anything. -/
def runRpcWithDeadline (token : Nat) (options : Options) : Except (Failure ε) (Live ε α) := do
  rejectIf (s.activeToken ≠ some token)
    (.inactive "RPC deadline used outside its live SDK ownership scope")
  match s.poisonCause with
  | some cause => .error (.poisoned cause)
  | none =>
    let (category, operation, teardown) ← assertTimeoutOptions options
    .ok { s with rpcs := s.rpcs ++ [⟨token, category, operation, teardown, false, none, .racing,
      none, none⟩] }

/-- One RPC gets further. -/
def withRpc (r : Nat) (rpc : Rpc ε α) : Live ε α := { s with rpcs := s.rpcs.set r rpc }

end Live

namespace Rpc

variable (rpc : Rpc ε α)

/-- The callback of an RPC settles. (The race is then over at once if it was open, and so is the
timer: what a settled promise leads to runs before any later timer.) -/
def settle (result : Except ε α) : Rpc ε α := match rpc.race with
  | .racing => { rpc with operationResult := some result, race := .operation result }
  | _ => { rpc with operationResult := some result }

/-- What an RPC whose deadline fired rejects with. -/
def timeoutError : Failure ε := .timeout rpc.category rpc.operation

end Rpc

/-! ### Events -/

inductive Event (ε α : Type)
  | withOwner (owner : Value) (work : Callback)
  | start (caller : Nat)
  | finish (caller : Nat) (result : Except (Failure ε) α)
  | release (caller : Nat)
  | poison (caller : Nat) (cause : Option ε)
  | runRpcWithDeadline (caller : Nat) (options : Options)
  | execute (rpc : Nat)
  | settle (rpc : Nat) (result : Except ε α)
  | deadline (rpc : Nat)
  | conclude (rpc : Nat)
  | tornDown (rpc : Nat) (error : Option ε)
  | tornDownLate (rpc : Nat) (error : Option ε)

namespace Live

/-- Whether somebody can hold the scope of a caller: its work was started. -/
def hasScope (s : Live ε α) (i : Nat) : Bool := match s.callers[i]? with
  | some ⟨_, .working⟩ | some ⟨_, .leaving _⟩ | some ⟨_, .left _⟩ => true
  | _ => false

/-- What comes of the race of an RPC: its report, or, when the deadline has won, the poison and the
teardown. -/
def conclude (s : Live ε α) (r : Nat) (rpc : Rpc ε α) : Option (Live ε α) := match rpc.race with
  | .operation result => some (s.withRpc r { rpc with race := .reported (result.mapError .thrown) })
  | .deadline =>
    let race := if rpc.teardown then .teardown else .reported (.error rpc.timeoutError)
    some ((s.poison (.timeout rpc.category rpc.operation)).withRpc r { rpc with race := race })
  | _ => none

/-- The work of a caller is over and its ownership is given up; what `#release` throws replaces the
result. -/
def leave (s : Live ε α) (i : Nat) (result : Except (Failure ε) α) : Live ε α :=
  match s.release i with
  | .ok s => s.enter i (.left result)
  | .error e => s.enter i (.left (.error e))

end Live

/-- What a call answers when it returns: nothing, or what it throws (or its promise is rejected
with). -/
abbrev Reply (ε : Type) := Except (Failure ε) Unit

/-- The runtime after a call that may throw, which then changes nothing. -/
def called (s : Live ε α) : Except (Failure ε) (Live ε α) → Reply ε × Live ε α
  | .ok t => (.ok (), t)
  | .error e => (.error e, s)

/-- What an event does, where it can happen. -/
def Event.act (s : Live ε α) : Event ε α → Option (Reply ε × Live ε α)
  | withOwner owner work => some (called s (do
      let owner ← assertOwnerName owner
      rejectIf (work ≠ .function) (.typeError "live SDK owner work must be a function")
      .ok (s.acquire owner)))
  | start i => match s.callers[i]? with
    | some ⟨_, .granted⟩ => some (.ok (), s.enter i .working)
    | _ => none
  | finish i result => match s.callers[i]? with
    | some ⟨_, .working⟩ => some (.ok (), s.enter i (.leaving result))
    | _ => none
  | release i => match s.callers[i]? with
    | some ⟨_, .leaving result⟩ => some (.ok (), s.leave i result)
    | _ => none
  | poison i cause => if s.hasScope i then some (called s (s.poisonFromOwner i cause)) else none
  | runRpcWithDeadline i options => if s.hasScope i then some (called s (s.runRpcWithDeadline i options)) else none
  | execute r => s.rpcs[r]?.bind fun rpc =>
      if rpc.started then none else some (.ok (), s.withRpc r { rpc with started := true })
  | settle r result => s.rpcs[r]?.bind fun rpc =>
      if rpc.started ∧ rpc.operationResult.isNone then some (.ok (), s.withRpc r (rpc.settle result)) else none
  | deadline r => s.rpcs[r]?.bind fun rpc => match rpc.race with
    | .racing => if rpc.started then some (.ok (), s.withRpc r { rpc with race := .deadline }) else none
    | _ => none
  | conclude r => s.rpcs[r]?.bind fun rpc => (s.conclude r rpc).map fun t => (.ok (), t)
  | tornDown r error => s.rpcs[r]?.bind fun rpc => match rpc.race with
    | .teardown => some (.ok (), s.withRpc r
        { rpc with race := .reported (.error rpc.timeoutError), teardownError := error })
    | _ => none
  | tornDownLate r error => s.rpcs[r]?.bind fun rpc => match rpc.race, rpc.operationResult with
    | .reported (.error (.timeout _ _)), some _ =>
      if rpc.teardown then some (.ok (), s.withRpc r { rpc with lateTeardownError := error }) else none
    | _, _ => none

/-- An event with what the call it stands for answers. -/
def LiveStep (s : Live ε α) (l : Event ε α × Reply ε) (t : Live ε α) : Prop :=
  l.1.act s = some (l.2, t)

end Runtime
end ZenonX402
