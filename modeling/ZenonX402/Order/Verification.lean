/-
# Owners of a funding receipt

`createPurchasedOrderFundingOwner`: an owner recovers the receipt of its order,
counts an attempt in it, and only then calls the verifier; what the verifier says
is recorded in the same receipt. The store replaces exactly the text that is
expected. An answer of the store may get lost, a swap may never arrive, and an
owner may be closed or gone at any time; others start from what is stored.

An owner's turn runs from a call to its first `await` or from there to its end
(`recover`, `verifyFunding`, `resume`); any number of owners take turns in any
order (`practice`). `Deed` is what they do to the outside, in the order in which they
do it.

Key definitions: `Owner`, `Deed`, `commit`, `recover`, `verifyFunding`, `resume`, `practice`.
-/
import ZenonX402.Lib.Desk
import ZenonX402.Order.Receipt

namespace ZenonX402
namespace Order
namespace Funding

open Js Prog

/-- The suffix of an `ORDER_FUNDING_` code. -/
inductive Failure
  | INVALID_INPUT
  | CLOSED
  | HELD
  | BUSY
  | CLOCK_UNKNOWN
  | RECOVERY_REQUIRED
  | COMMIT_UNKNOWN
  | CONFLICT
  | ALREADY_RECOVERED
  | READ_UNKNOWN
  | CORRUPT
  | CANDIDATE_CONFLICT
  | ATTEMPTS_EXHAUSTED
  deriving DecidableEq, Repr

variable {w : Wire}

/-! ### Owners -/

structure Setup (w : Wire) where
  payment : OrderPayment w
  captured : payment.Captured
  maximumVerificationAttempts : AttemptLimit

/-- An owner: the receipt that was last loaded or stored, and the one whose verification is under
way. -/
structure Owner (w : Wire) where
  setup : Setup w
  closed : Bool
  held : Bool
  recovered : Bool
  current : Option Receipt
  active : Option Receipt

def Owner.create (setup : Setup w) : Owner w := ⟨setup, false, false, false, none, none⟩

def Owner.close (o : Owner w) : Owner w := { o with closed := true }

def Owner.idle (o : Owner w) : Owner w := { o with active := none }

def Owner.recover (o : Owner w) : Owner w := { o with recovered := true }

def Owner.state (o : Owner w) (raw : Value) : Except Order.Failure Receipt :=
  Order.state o.setup.payment o.setup.maximumVerificationAttempts raw

/-- What the owner with a number does: it hands a swap to the store, which stores it or not; it
calls the verifier, once the pending receipt is stored; it is given a record by the verifier. -/
inductive Deed
  | proposed (owner : Nat) (expected : Option Receipt) (next : Receipt) (stored : Bool)
  | called (owner : Nat) (pending : Receipt)
  | returned (owner : Nat) (record : Value)

instance : Guarded (Owner w) where
  closed o := o.closed
  closing closes o := { o with closed := o.closed || closes }
  held o := { o with held := true }

def keeping (w : Wire) : Keeping (Owner w) Receipt Deed where
  text := Receipt.text
  current o := o.current
  keep s o := { o with current := some s }
  proposed := .proposed

abbrev Work (w : Wire) (α : Type) := Prog (Desk (Owner w) Deed) Failure α

/-- The owner is gone. -/
def crash {α : Type} : Work w α := do
  modify (Desk.alter Owner.close)
  throw .CLOSED

def start (needsRecovery : Bool) : Work w Unit := do
  let x ← get
  failIf (x.owner.closed = true) .CLOSED
  failIf (x.owner.held = true) .HELD
  failIf (x.owner.active.isSome = true) .BUSY
  failIf (needsRecovery = true ∧ x.owner.recovered = false) .RECOVERY_REQUIRED

def commit (next : Receipt) (e : Exchange) : Work w Receipt := do
  let x ← get
  let next ← lift (failWith (x.owner.state (.str next.text)) .INVALID_INPUT)
  (keeping w).exchange next e .CLOSED .COMMIT_UNKNOWN .CONFLICT

structure View where
  orderId : Id
  paymentScope : Hash
  phase : Phase
  verificationAttempts : Count
  maximumVerificationAttempts : AttemptLimit
  quantityUnit : Id
  purchasedQuantity : Positive
  quantityOwed : Nat
  grantFundingUnits : Nat
  offerExpired : Bool
  reservationExpired : Bool
  verificationObservedAtMs : Option Count
  verificationObservedAfterOfferExpiry : Option Bool
  sourceSettlementId : Option String

/-- `view`, without what is the same in every view or follows from the phase. -/
def view (s : Receipt) (clock : Answer) : Work w View := do
  let at' ← now clock .CLOSED .CLOCK_UNKNOWN
  let x ← get
  let p := x.owner.setup.payment
  pure {
    orderId := p.terms.orderId
    paymentScope := p.issue.paymentScope
    phase := s.phase
    verificationAttempts := s.attempts
    maximumVerificationAttempts := x.owner.setup.maximumVerificationAttempts
    quantityUnit := p.rules.quantityUnit
    purchasedQuantity := p.terms.quantity
    quantityOwed := if s.phase = .VERIFIED then p.terms.quantity.value else 0
    grantFundingUnits := p.issue.totalUnits
    offerExpired := decide (p.rules.offerExpiresAtMs.1 ≤ at'.1)
    reservationExpired := decide (p.rules.reservationExpiresAtMs.1 ≤ at'.1)
    verificationObservedAtMs := s.verificationObservedAtMs
    verificationObservedAfterOfferExpiry :=
      s.verificationObservedAtMs.map fun observed =>
      decide (p.rules.offerExpiresAtMs.1 ≤ observed.1)
    sourceSettlementId := s.sourceSettlementId }

/-! ### Turns -/

def Owner.initial (o : Owner w) : Receipt :=
  ⟨o.setup.payment.binding o.setup.maximumVerificationAttempts, Count.zero, .RETAINED, none, none,
    none, none, none⟩

/-- What was loaded, or a first receipt where there is none. -/
def adopt (raw : Value) (e : Exchange) : Work w Receipt := do
  let x ← get
  if raw.strictEq .null = true then commit x.owner.initial e
  else match x.owner.state raw with
    | .error _ => hold .CORRUPT
    | .ok s => do
      modify (Desk.alter ((keeping w).keep s))
      pure s

def recover (loaded : Answer) (e : Exchange) (clock : Answer) : Work w View := do
  start false
  let x ← get
  failIf (x.owner.recovered = true) .ALREADY_RECOVERED
  let raw ← ask loaded .CLOSED .READ_UNKNOWN
  let s ← adopt raw e
  modify (Desk.alter Owner.recover)
  view s clock

/-- The receipt before a call of the verifier. -/
def pending (w : Wire) (before : Receipt) (attempts : Count) (candidateJson : String) : Receipt :=
  { before with
    attempts := attempts
    phase := .VERIFYING
    candidateJson := some candidateJson
    candidateDigest := some (digestOfCandidate w candidateJson) }

/-- The call of the verifier, if the candidate gets that far. -/
def invoke (s : Receipt) (candidateJson : String) : Work w Unit := do
  let x ← get
  if w.isEvidence x.owner.setup.payment.verifierContext candidateJson = true then
    modify (Desk.record (.called x.index s))
  else pure ()

/-- The verifier is called, and the owner waits. -/
def call (s : Receipt) (candidateJson : String) : Work w Unit := do
  invoke s candidateJson
  modify (Desk.alter fun o => { o with active := some s })

/-- An attempt, up to the call of the verifier, before which the owner may be gone. -/
def attemptVerification (before : Receipt) (candidateJson : String) (e : Exchange)
    (crashes : Bool) : Work w Unit := do
  let x ← get
  failIf (before.phase = .VERIFYING ∧ before.candidateJson ≠ some candidateJson) .CANDIDATE_CONFLICT
  failIf (before.attempts.1 = x.owner.setup.maximumVerificationAttempts.1) .ATTEMPTS_EXHAUSTED
  let attempts ← orFail (Count.succ? before.attempts) .INVALID_INPUT
  let s ← commit (pending w before attempts candidateJson) e
  if crashes = true then crash else call s candidateJson

/-- The text of a candidate. -/
def candidate (w : Wire) : Value → Option String
  | .str raw => if isCandidate w raw = true then some raw else none
  | _ => none

/-- `verifyFunding` up to its `await`. What is verified is only viewed. -/
def verifyFunding (candidateJson : Value) (e : Exchange) (clock : Answer) (crashes : Bool) :
    Work w (Option View) := do
  start true
  let candidateJson ← orFail (candidate w candidateJson) .INVALID_INPUT
  let x ← get
  let before ← orFail x.owner.current .INVALID_INPUT
  if before.phase = .VERIFIED then do
    failIf (before.candidateJson ≠ some candidateJson) .CANDIDATE_CONFLICT
    let v ← view before clock
    pure (some v)
  else do
    attemptVerification before candidateJson e crashes
    pure none

/-- The receipt after a call of the verifier. -/
def verified (s : Receipt) (record : Value) (sourceSettlementId : String) (at' : Count) : Receipt :=
  { s with
    phase := .VERIFIED
    verifiedRecordJson := some (stringify record)
    sourceSettlementId := some sourceSettlementId
    verificationObservedAtMs := some at' }

def rejected (s : Receipt) : Receipt := { s with phase := .REJECTED }

/-- What the verifier's record comes to; there is none if the verifier was not called, rejects or
throws. -/
def outcome (s : Receipt) (record : Option Value) : Work w (Option (Value × String)) := do
  let x ← get
  match s.candidateJson, record with
  | some candidateJson, some record =>
    if w.isEvidence x.owner.setup.payment.verifierContext candidateJson = true then do
      modify (Desk.record (.returned x.index record))
      pure (w.verified x.owner.setup.payment.verifierContext record)
    else pure none
  | _, _ => pure none

/-- What is recorded of a verification. -/
def conclude (s : Receipt) (result : Option (Value × String)) (observed : Answer) (e : Exchange) :
    Work w Receipt :=
  match result with
  | none => commit (rejected s) e
  | some (record, sourceSettlementId) => do
    let at' ← now observed .CLOSED .CLOCK_UNKNOWN
    commit (verified s record sourceSettlementId at') e

/-- `verifyFunding` from its `await` on. -/
def resume (record : Option Value) (observed : Answer) (e : Exchange) (clock : Answer) :
    Work w View :=
  finallyDo (do
    let x ← get
    let s ← orFail x.owner.active .INVALID_INPUT
    let result ← outcome s record
    if x.owner.closed = true then hold .CLOSED
    else do
      let s ← conclude s result observed e
      view s clock) (Desk.alter Owner.idle)

def inspect (clock : Answer) : Work w View := do
  start true
  let x ← get
  let s ← orFail x.owner.current .INVALID_INPUT
  view s clock

/-! ### Turns of any owner -/

inductive Turn
  | recover (loaded : Answer) (e : Exchange) (clock : Answer)
  | verifyFunding (candidateJson : Value) (e : Exchange) (clock : Answer) (crashes : Bool)
  | resume (record : Option Value) (observed : Answer) (e : Exchange) (clock : Answer)
  | inspect (clock : Answer)
  | close

def Turn.run : Turn → Desk (Owner w) Deed → Desk (Owner w) Deed
  | .recover loaded e clock, x => ((Funding.recover loaded e clock).exec x).2
  | .verifyFunding candidateJson e clock crashes, x =>
      ((Funding.verifyFunding candidateJson e clock crashes).exec x).2
  | .resume record observed e clock, x => ((Funding.resume record observed e clock).exec x).2
  | .inspect clock, x => ((Funding.inspect clock).exec x).2
  | .close, x => x.alter Owner.close

/-- Owners that take turns. -/
def practice (w : Wire) : Practice (Setup w) Turn (Owner w) Deed := ⟨Owner.create, Turn.run⟩

end Funding
end Order
end ZenonX402
