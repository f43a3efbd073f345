/-
# Admission of payers to workers

`OfflinePayerWorkerAdmission` of `payer-worker-admission.js` gives each payer a
worker of its own, for good, and each of the payer's operations a ticket, one after
the other. A worker is named by its place among the workers that were configured, so
what a map or a record holds is always a worker; a ticket is the place of its record
among those that were issued, and nothing else that is handed in is one (`Handle`).

Key definitions: `Admission`, `create`, `admitRequest`, `transition`, `quarantineWorker`,
`Call.work`.
-/
import ZenonX402.Lib.JsMap
import ZenonX402.Lib.Loop
import ZenonX402.Lib.Prog
import ZenonX402.Lib.Record

namespace ZenonX402
namespace Payer

open Js Prog

/-- `PAYER_WORKER_ADMISSION_ERROR_CODES`. -/
inductive Code
  | INVALID_CONFIGURATION
  | INVALID_REQUEST
  | OPERATION_REPLAY
  | PAYER_BUSY
  | CAPACITY_EXHAUSTED
  | ADMISSION_LIMIT_REACHED
  | INVALID_TICKET
  | INVALID_TRANSITION
  | WORKER_QUARANTINED
  deriving DecidableEq, Repr

inductive Lane
  | buyer
  | facilitator
  deriving DecidableEq, Repr

inductive Kind
  | BUYER_PREPARE
  | FACILITATOR_VERIFY
  | FACILITATOR_SETTLE
  | FACILITATOR_RECONCILE_CANDIDATE
  deriving DecidableEq, Repr

inductive Phase
  | RESERVED
  | DISPATCHED
  | COMPLETED
  | RELEASED
  deriving DecidableEq, Repr

/-! ### What is read -/

def CONFIGURATION_FIELDS : List String := ["lane", "workerIds", "maxAdmissions"]

def REQUEST_FIELDS : List String := ["payer", "operationId", "kind"]

def TICKET_FIELDS : List String :=
  ["version", "lane", "kind", "payer", "operationId", "workerId", "sequence"]

/-- `exactRecord`: what is under each of the fields, of an object that has them and no others. -/
def exactRecord (value : Value) (names : List String) (code : Code) :
    Except Code (String → Value) :=
  (orReject (fields names value) code).map Prod.snd

/-- `exactRecord` where the last field may be left out, which then is `undefined`. -/
def exactRecordOptional (value : Value) (names : List String) (code : Code) :
    Except Code (String → Value) :=
  match exactRecord value names code with
  | .ok get => .ok get
  | .error _ => (exactRecord value names.dropLast code).map fun get k =>
      if k ∈ names.dropLast then get k else .undefined

/-- `/^[\x21-\x7e]+$/`. -/
def isSafeAscii (s : String) : Bool := !s.isEmpty && s.toList.all fun c => '!' ≤ c && c ≤ '~'

/-- `safeAscii`. (A string of these characters has as many units as characters, and any other is
refused anyway.) -/
def safeAscii (value : Value) (maximum : Nat) (code : Code) : Except Code String := match value with
  | .str s => if s.length ≤ maximum ∧ isSafeAscii s = true then .ok s else .error code
  | _ => .error code

def laneOf : Value → Except Code Lane
  | .str "buyer" => .ok .buyer
  | .str "facilitator" => .ok .facilitator
  | _ => .error .INVALID_CONFIGURATION

/-- `validKind`, of the kinds there are. -/
def validKind : Lane → Value → Except Code Kind
  | .buyer, .str "buyer.prepare" => .ok .BUYER_PREPARE
  | .facilitator, .str "facilitator.verify" => .ok .FACILITATOR_VERIFY
  | .facilitator, .str "facilitator.settle" => .ok .FACILITATOR_SETTLE
  | .facilitator, .str "facilitator.reconcile-candidate" => .ok .FACILITATOR_RECONCILE_CANDIDATE
  | _, _ => .error .INVALID_REQUEST

/-- The ids of an array that were not seen before. -/
def workerIdsFrom (seen : List String) : List Value → Except Code (List String)
  | [] => .ok seen
  | value :: values => do
    let workerId ← safeAscii value 64 .INVALID_CONFIGURATION
    rejectIf (workerId ∈ seen) .INVALID_CONFIGURATION
    workerIdsFrom (seen ++ [workerId]) values

def captureWorkerIds : Value → Except Code (List String)
  | .arr values => do
    rejectIf (values.length < 1 ∨ 8 < values.length) .INVALID_CONFIGURATION
    workerIdsFrom [] values
  | _ => .error .INVALID_CONFIGURATION

def maxAdmissionsOf : Value → Except Code Nat
  | .undefined => .ok 64
  | .num n => if 1 ≤ n ∧ n ≤ 256 then .ok n.toNat else .error .INVALID_CONFIGURATION
  | _ => .error .INVALID_CONFIGURATION

structure Request where
  payer : String
  operationId : String
  kind : Kind
  deriving DecidableEq

/-- What `admit` reads of a request. -/
def requestOf (lane : Lane) (value : Value) : Except Code Request := do
  let get ← exactRecord value REQUEST_FIELDS .INVALID_REQUEST
  let payer ← safeAscii (get "payer") 128 .INVALID_REQUEST
  let operationId ← safeAscii (get "operationId") 128 .INVALID_REQUEST
  let kind ← validKind lane (get "kind")
  .ok ⟨payer, operationId, kind⟩

/-! ### The registry -/

structure Ticket where
  lane : Lane
  kind : Kind
  payer : String
  operationId : String
  workerId : String
  sequence : Nat
  deriving DecidableEq

structure Worker where
  id : String
  payer : Option String
  active : Option Nat
  quarantined : Bool
  sequence : Nat
  deriving DecidableEq

variable {n : Nat}

structure Issued (n : Nat) where
  ticket : Ticket
  worker : Fin n
  phase : Phase
  deriving DecidableEq

/-- What the registry keeps for an admission of `n` workers; the tickets by the place of their
records. -/
structure Admission (n : Nat) where
  lane : Lane
  workers : Fin n → Worker
  workersById : JsMap String (Fin n)
  workersByPayer : JsMap String (Fin n)
  tickets : List (Issued n)
  operationIds : List String
  admissions : Nat
  maxAdmissions : Nat

/-- A ticket that this admission issued, or anything else: a value that looks like one, frozen or
not, or a ticket of another admission. -/
inductive Handle
  | ticket (index : Nat)
  | other (value : Value) (frozen : Bool)

/-- The entries of `workersById`, worker after worker. -/
def byId (workers : Fin n → Worker) : List (Fin n) → JsMap String (Fin n) → JsMap String (Fin n)
  | [], m => m
  | i :: is, m => byId workers is (m.set (workers i).id i)

/-- The constructor. -/
def create (arguments : List Value) : Except Code (Σ n, Admission n) := match arguments with
  | [options] => do
    let get ← exactRecordOptional options CONFIGURATION_FIELDS .INVALID_CONFIGURATION
    let lane ← laneOf (get "lane")
    let workerIds ← captureWorkerIds (get "workerIds")
    let maxAdmissions ← maxAdmissionsOf (get "maxAdmissions")
    let workers (i : Fin workerIds.length) : Worker := ⟨workerIds.get i, none, none, false, 0⟩
    .ok ⟨workerIds.length, lane, workers, byId workers (List.finRange _) .empty, .empty, [], [], 0,
      maxAdmissions⟩
  | _ => .error .INVALID_CONFIGURATION

namespace Admission

variable (s : Admission n)

/-- One worker is changed. -/
def at' (i : Fin n) (f : Worker → Worker) : Admission n :=
  { s with workers := Function.update s.workers i (f (s.workers i)) }

/-- The record of a new ticket. -/
def issue (record : Issued n) : Admission n := { s with tickets := s.tickets ++ [record] }

/-- The payer of a worker that has none. -/
def bind (i : Fin n) (payer : String) : Admission n :=
  if (s.workers i).payer = none then
    { s.at' i (fun w => { w with payer := some payer }) with workersByPayer := s.workersByPayer.set payer i }
  else s

/-- A worker takes the ticket with this number of its own. -/
def occupy (i : Fin n) (sequence index : Nat) : Admission n :=
  s.at' i fun w => { w with sequence := sequence, active := some index }

/-- One more admission. -/
def count (operationId : String) : Admission n :=
  { s with operationIds := if operationId ∈ s.operationIds then s.operationIds else s.operationIds ++ [operationId]
           admissions := s.admissions + 1 }

/-- The phase of a ticket. -/
def enter (index : Nat) (phase : Phase) : Admission n :=
  { s with tickets := s.tickets.modify index fun record => { record with phase := phase } }

/-- Nothing is active on a worker. -/
def vacate (i : Fin n) : Admission n := s.at' i fun w => { w with active := none }

def ticketRecord : Handle → Except Code (Nat × Issued n)
  | .ticket index => do
    let record ← orReject s.tickets[index]? .INVALID_TICKET
    .ok (index, record)
  | .other value frozen => do
    let _ ← exactRecord value TICKET_FIELDS .INVALID_TICKET
    rejectIf (frozen = false) .INVALID_TICKET
    .error .INVALID_TICKET

/-- Whether the worker that a payer has is free. -/
def assertFree : Option (Fin n) → Except Code Unit
  | none => .ok ()
  | some i => do
    rejectIf ((s.workers i).quarantined = true) .WORKER_QUARANTINED
    rejectIf ((s.workers i).active ≠ none) .PAYER_BUSY

/-- The worker that a payer has, or else the first one that may be given. -/
def choose : Option (Fin n) → Option (Fin n)
  | none => (List.finRange n).find? fun i =>
      decide ((s.workers i).payer = none) && !(s.workers i).quarantined
  | some i => some i

end Admission

/-! ### The operations -/

abbrev Work (n : Nat) (α : Type) := Prog (Admission n) Code α

/-- The argument of a call with one. -/
def sole {α : Type} : List α → Option α
  | [a] => some a
  | _ => none

/-- `admit`; the ticket it returns is that of the last record. -/
def admitRequest (arguments : List Value) : Work n Nat := do
  let request ← orFail (sole arguments) .INVALID_REQUEST
  let s ← get
  let r ← lift (requestOf s.lane request)
  failIf (r.operationId ∈ s.operationIds) .OPERATION_REPLAY
  lift (s.assertFree (s.workersByPayer.get? r.payer))
  failIf (s.maxAdmissions ≤ s.admissions) .ADMISSION_LIMIT_REACHED
  let i ← orFail (s.choose (s.workersByPayer.get? r.payer)) .CAPACITY_EXHAUSTED
  let sequence := (s.workers i).sequence + 1
  modify (·.issue ⟨⟨s.lane, r.kind, r.payer, r.operationId, (s.workers i).id, sequence⟩,
    i, .RESERVED⟩)
  modify (·.bind i r.payer)
  modify (·.occupy i sequence s.tickets.length)
  modify (·.count r.operationId)
  pure s.tickets.length

def transition (arguments : List Handle) (expected next : Phase) (release : Bool) :
    Work n Unit := do
  let ticket ← orFail (sole arguments) .INVALID_TICKET
  let s ← get
  let (index, record) ← lift (s.ticketRecord ticket)
  failIf ((s.workers record.worker).quarantined = true) .WORKER_QUARANTINED
  failIf (record.phase ≠ expected ∨ (s.workers record.worker).active ≠ some index)
    .INVALID_TRANSITION
  modify (·.enter index next)
  modify fun s => if release then s.vacate record.worker else s

def markDispatched (arguments : List Handle) : Work n Unit :=
  transition arguments .RESERVED .DISPATCHED false

def releaseUndispatched (arguments : List Handle) : Work n Unit :=
  transition arguments .RESERVED .RELEASED true

def complete (arguments : List Handle) : Work n Unit :=
  transition arguments .DISPATCHED .COMPLETED true

def quarantineWorker (arguments : List Value) : Work n Unit := do
  let value ← orFail (sole arguments) .INVALID_REQUEST
  let workerId ← lift (safeAscii value 64 .INVALID_REQUEST)
  let s ← get
  let i ← orFail (s.workersById.get? workerId) .INVALID_REQUEST
  modify (·.at' i fun w => { w with quarantined := true })

inductive Call
  | admitRequest (arguments : List Value)
  | markDispatched (arguments : List Handle)
  | releaseUndispatched (arguments : List Handle)
  | complete (arguments : List Handle)
  | quarantineWorker (arguments : List Value)

/-- A call, and the place of the ticket that it returns if it does. -/
def Call.work : Call → Work n (Option Nat)
  | .admitRequest arguments => some <$> Payer.admitRequest arguments
  | .markDispatched arguments => (fun _ => none) <$> Payer.markDispatched arguments
  | .releaseUndispatched arguments => (fun _ => none) <$> Payer.releaseUndispatched arguments
  | .complete arguments => (fun _ => none) <$> Payer.complete arguments
  | .quarantineWorker arguments => (fun _ => none) <$> Payer.quarantineWorker arguments

/-- A call with what it returns or throws. -/
def CallStep (s : Admission n) (l : Call × Except Code (Option Nat)) (t : Admission n) : Prop :=
  l.1.work.exec s = (l.2, t)

end Payer
end ZenonX402
