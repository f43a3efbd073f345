/-
# The revision owner

`createServiceCreditExecutionRevisionOwner`: a controller that stands before a
store that several runtimes write to. It claims the first initialized revision
it reads, and from then on hands in writes at the revision it tracks. Whatever
it cannot account for makes it hold, and it calls the store no more.

The store is reached through four ports, whose answers come from outside. A
value from outside is a tree of plain values with what is frozen of it, and
each answer says whether the prototypes that the controller relies on are as
they were (`invariant`).

Key definitions: `Given`, `Owner`, `Query`, `Answer`, `call`, `assertCurrent`.
-/
import ZenonX402.Lib.Record
import ZenonX402.Lib.Talk

namespace ZenonX402
namespace Revision

open Js

/-! ### Values from outside -/

/-- A value, whether it is frozen, and the keys under which it has frozen objects. -/
structure Given where
  value : Value
  frozen : Bool
  inner : List String

namespace Given

/-- `object`: a plain object, and frozen. -/
def isObject (v : Given) : Bool := match v.value with
  | .obj _ => v.frozen
  | _ => false

def own (v : Given) (key : String) : Option Value := match v.value with
  | .obj fs => if v.frozen then fs.lookup key else none
  | _ => none

/-- `fields`: what a frozen object holds under exactly these keys. -/
def fields (v : Given) (names : List String) : Option (String → Value) :=
  if v.frozen then (Js.fields names v.value).map Prod.snd else none

/-- `object(value, true)` of what a field holds. -/
def isInnerObject (v : Given) (key : String) (field : Value) : Bool := match field with
  | .obj _ => decide (key ∈ v.inner)
  | _ => false

end Given

/-- `revision`: a safe integer from zero on, and not −0. -/
def revision : Value → Option Nat
  | .num n => if 0 ≤ n ∧ n ≤ Value.maxSafeInteger then some n.toNat else none
  | _ => none

def WRITERS : List String :=
  ["prepareDurableExecution", "persistDurableExecutionFence", "completeDurableExecution",
    "markDurableExecutionUnknown"]

/-- A snapshot that `read` accepts. -/
structure Snapshot where
  raw : Given
  revision : Nat
  /-- `executionState` is not null. -/
  initialized : Bool

/-- The checks of `read`. -/
def snapshot (raw : Given) : Option Snapshot := do
  let r ← raw.fields ["revision", "executionState"]
  let n ← revision (r "revision")
  if (r "executionState").strictEq .null then some ⟨raw, n, false⟩
  else if raw.isInnerObject "executionState" (r "executionState") then some ⟨raw, n, true⟩
  else none

/-- The checks of a claim's answer: the revision that was claimed. -/
def claimed (raw : Given) : Option Nat := do
  let r ← raw.fields ["disposition", "revision", "executionState"]
  let n ← revision (r "revision")
  if (r "disposition").strictEq (.str "APPLIED")
    ∧ raw.isInnerObject "executionState" (r "executionState")
    then some n else none

/-- The disposition and the revision of a writer's answer. -/
def acknowledged (value : Given) : Option (Value × Nat) := do
  let disposition ← value.own "disposition"
  let next ← value.own "revision" >>= revision
  some (disposition, next)

/-- The keys that no argument may have. -/
def FORBIDDEN : List String := ["then", "toJSON", "__proto__", "constructor", "prototype"]

/-- `argumentsFor`: the argument of the call, if it takes one, with the revision that a writer
names. -/
def argumentsFor (name : String) : Value → Option (Option Value × Option Nat)
  | .arr [] => if name = "getDurableExecutionSnapshot" then some (none, none) else none
  | .arr [.obj fs] =>
    if name ≠ "getDurableExecutionSnapshot" ∧ fs.length ≤ 16 ∧ (fs.map Prod.fst).Nodup
        ∧ ∀ k ∈ fs.map Prod.fst, k ∉ FORBIDDEN then
      if name ∈ WRITERS then do
        let expectedRevision ← fs.lookup "expectedRevision" >>= revision
        some (some (.obj fs), some expectedRevision)
      else some (some (.obj fs), none)
    else none
  | _ => none

/-! ### The controller -/

/-- What the controller keeps; `tracked` is `at`. -/
structure Owner where
  claimed : Bool
  held : Bool
  busy : Bool
  tracked : Option Nat
  reads : Nat
  claims : Nat
  calls : Nat
  writes : Nat
  refusals : Nat
  /-- How many values are retained. -/
  retained : Nat
  deriving DecidableEq

def Owner.new : Owner := ⟨false, false, false, none, 0, 0, 0, 0, 0, 0⟩

/-- A call of a port. -/
inductive Query
  | readSnapshot
  | claim (expectedRevision : Nat)
  | invoke (name : String) (selected : Option Value) (expectedRevision : Option Nat)
  | knownRefusal (error : Given)

/-- What a port returns or throws, and what `invariant()` is then. -/
structure Answer where
  outcome : Except Given Given
  invariant : Bool

/-- What the controller throws: its own error, or one of the store. -/
inductive Thrown
  | owner
  | store (error : Given)

abbrev Port (α : Type) : Type := Caller Query Answer Owner Thrown α

namespace Port

variable {α : Type}

def fail : Port α := Caller.throw .owner

/-- `hold(value)`; there is no value, or it is undefined, when nothing is retained. -/
def hold (value : Option Given) : Port α := do
  Caller.modify fun o => { o with
    held := true
    retained := match value with
      | none => o.retained
      | some v => if v.value.strictEq .undefined then o.retained else o.retained + 1 }
  fail

/-- `if (c) hold(value)`. -/
def holdIf (c : Prop) [Decidable c] (value : Option Given) : Port Unit :=
  if c then hold value else pure ()

/-- `if (held) fail()`. -/
def unlessHeld : Port Unit := do
  let o ← Caller.get
  if o.held = true then fail else pure ()

/-- `if (!invariant()) hold()`. -/
def unchanged (answer : Answer) : Port Unit := holdIf (answer.invariant = false) none

def live (invariant : Bool) : Port Unit := do
  unlessHeld
  let o ← Caller.get
  holdIf (o.busy = true ∨ invariant = false) none

def read : Port Snapshot := do
  Caller.modify fun o => { o with reads := o.reads + 1 }
  let answer ← Caller.ask .readSnapshot
  match answer.outcome with
  | .error error => hold (some error)
  | .ok raw => match snapshot raw with
    | none => hold (some raw)
    | some r => do
      unlessHeld
      unchanged answer
      pure r

def current : Port Snapshot := do
  let r ← read
  let o ← Caller.get
  holdIf (some r.revision ≠ o.tracked ∨ r.initialized = false) (some r.raw)
  pure r

def initial : Port Snapshot := do
  let before ← read
  if before.initialized = false then pure before
  else do
    holdIf (before.revision = 9007199254740991) none
    Caller.modify fun o => { o with claims := o.claims + 1 }
    let answer ← Caller.ask (.claim before.revision)
    match answer.outcome with
    | .error error => hold (some error)
    | .ok raw => match Revision.claimed raw with
      | none => hold (some raw)
      | some next => do
        holdIf (next ≠ before.revision + 1) (some raw)
        unlessHeld
        unchanged answer
        Caller.modify fun o => { o with tracked := some next }
        let after ← current
        Caller.modify fun o => { o with claimed := true }
        pure after

/-- The acknowledgement of a writer. -/
def acknowledge (value : Given) : Port Unit := do
  let o ← Caller.get
  match Revision.acknowledged value with
  | none => hold (some value)
  | some (disposition, next) =>
    if disposition.strictEq (.str "APPLIED") then
      if o.tracked = some 9007199254740991 ∨ some next ≠ o.tracked.map (· + 1)
        then hold (some value)
      else Caller.modify fun o => { o with tracked := some next, writes := o.writes + 1 }
    else if disposition.strictEq (.str "UNCHANGED") = false ∨ some next ≠ o.tracked
      then hold (some value)
    else pure ()

/-- What follows when the store has thrown. -/
def refused (error : Given) : Port Given := do
  unlessHeld
  let known ← Caller.ask (.knownRefusal error)
  match known.outcome with
  | .error other => hold (some other)
  | .ok known =>
    if known.value.strictEq (.bool true) = false then
      hold (some (if known.value.strictEq (.bool false) then error else known))
    else do
      let _ ← current
      Caller.modify fun o => { o with refusals := o.refusals + 1 }
      Caller.throw (.store error)

/-- What follows when the store has returned. -/
def returned (name : String) (answer : Answer) (value : Given) : Port Given := do
  unlessHeld
  unchanged answer
  if name ∈ WRITERS then do
    acknowledge value
    pure value
  else do
    holdIf (value.value.strictEq .null = false ∧ value.isObject = false) (some value)
    let _ ← current
    pure value

/-- A writer names the revision that is tracked; another call reads it first. -/
def before (name : String) (expectedRevision : Option Nat) : Port Unit := do
  let o ← Caller.get
  if name ∈ WRITERS then holdIf (expectedRevision ≠ o.tracked) none
  else do
    let _ ← current
    pure ()

/-- The call of the store. -/
def handOn (name : String) (selected : Option Value) (expectedRevision : Option Nat) :
    Port Given := do
  Caller.modify fun o => { o with calls := o.calls + 1 }
  let answer ← Caller.ask (.invoke name selected expectedRevision)
  match answer.outcome with
  | .error error => refused error
  | .ok value => returned name answer value

/-- A call that the controller hands on to the store. -/
def invoke (name : String) (selected : Option Value) (expectedRevision : Option Nat) :
    Port Given := do
  let o ← Caller.get
  holdIf (o.claimed = false) none
  before name expectedRevision
  handOn name selected expectedRevision

def getDurableExecutionSnapshot : Port Given := do
  let o ← Caller.get
  if o.claimed = true then do
    let r ← current
    pure r.raw
  else do
    let r ← initial
    pure r.raw

end Port

def Owner.idle (o : Owner) : Owner := { o with busy := false }

/-- `call`; `invariant` is what `invariant()` is at its start. -/
def call (name : String) (args : Value) (invariant : Bool) : Port Given :=
  if name ∉ WRITERS ∧ name ≠ "getDurableExecutionSnapshot" ∧ name ≠ "getRequest" then Port.fail
  else match argumentsFor name args with
    | none => Port.fail
    | some (selected, expectedRevision) => do
      Port.live invariant
      Caller.modify fun o => { o with busy := true }
      Caller.ending (if name = "getDurableExecutionSnapshot" then Port.getDurableExecutionSnapshot
        else Port.invoke name selected expectedRevision) Owner.idle

def assertCurrent (invariant : Bool) : Port Unit := do
  Port.live invariant
  let o ← Caller.get
  if o.claimed = false then Port.fail
  else do
    Caller.modify fun o => { o with busy := true }
    Caller.ending (do
      let _ ← Port.current
      pure ()) Owner.idle

end Revision
end ZenonX402
