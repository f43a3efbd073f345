/-
# Capacity recorders

`createServiceCreditCapacityRecorder` and its packed twin keep, for each of three
phases, how many observations were entered, how they ended and how long they took.
The two differ only in how a lane keeps its durations and in how it summarizes them,
so a recorder is written once over that difference (`Series`); the two files have the
same text elsewhere.

A handle that `begin` returns is the place of its entry. An entry is kept with what it
was finished with, of which the source only keeps that it was finished. What is the
same in every report is left out of it.

Key definitions: `Series`, `Recorder`, `start`, `finish`, `recordLedgerBalanceCheck`, `inspect`,
`finalize`, `unpacked`, `packed`.
-/
import ZenonX402.Lib.Double
import ZenonX402.Lib.Loop
import ZenonX402.Lib.Prog
import ZenonX402.Lib.Ranks

namespace ZenonX402
namespace Capacity

open Js Prog

/-! ### Arguments -/

/-- An argument. `other` is anything that no check accepts: a number that is no integer or is −0, an
array, a proxy, an object with accessors. -/
inductive Input
  | bigint (n : Int)
  | num (n : Int)
  | str (s : String)
  | obj (fields : List (String × Input))
  | other

/-- The rest of an error code, and of what a report gives as issue or as reason to stop. -/
inductive Kind
  | configuration_rejected
  | finalized
  | recording_stopped
  | input_rejected
  | clock_rejected
  | sample_limit
  | in_flight_limit
  | duplicate_finish
  | balance_input_rejected
  | balance_sample_limit
  | outcome_unknown
  | balance_mismatch
  | in_flight_at_finalize
  deriving DecidableEq, Repr

/-- `PHASES`. -/
inductive Phase
  | FUNDING
  | FUNDED_CALL
  | LEDGER_TRANSACTION
  deriving DecidableEq, Repr

def PHASES : List Phase := [.FUNDING, .FUNDED_CALL, .LEDGER_TRANSACTION]

inductive Outcome
  | SUCCEEDED
  | REJECTED
  | UNKNOWN
  deriving DecidableEq, Repr

/-- `MAX_NS` and `MAX_UNITS`. -/
def MAX : Nat := 2 ^ 128 - 1

def phaseOf : Input → Option Phase
  | .str "FUNDING" => some .FUNDING
  | .str "FUNDED_CALL" => some .FUNDED_CALL
  | .str "LEDGER_TRANSACTION" => some .LEDGER_TRANSACTION
  | _ => none

def outcomeOf : Input → Option Outcome
  | .str "SUCCEEDED" => some .SUCCEEDED
  | .str "REJECTED" => some .REJECTED
  | .str "UNKNOWN" => some .UNKNOWN
  | _ => none

/-- `exact`: what is under each of the fields. -/
def exact (names : List String) : Input → Option (String → Input)
  | .obj fs => if (fs.map Prod.fst).Perm names then some fun k =>
      (fs.lookup k).getD .other else none
  | _ => none

def integer (min max : Nat) : Input → Option Nat
  | .num n => if (min : Int) ≤ n ∧ n ≤ max then some n.toNat else none
  | _ => none

structure Limits where
  maxSamplesPerPhase : Nat
  maxInFlightPerPhase : Nat
  deriving DecidableEq

def limitsOf : List Input → Option Limits
  | [options] => do
    let get ← exact ["maxSamplesPerPhase", "maxInFlightPerPhase"] options
    let samples ← integer 1 4096 (get "maxSamplesPerPhase")
    let inFlight ← integer 1 64 (get "maxInFlightPerPhase")
    if samples < inFlight then none else some ⟨samples, inFlight⟩
  | _ => none

/-- A number of units. -/
def units : Input → Option Nat
  | .bigint n => if 0 ≤ n ∧ n ≤ MAX then some n.toNat else none
  | _ => none

structure Balance where
  availableUnits : Nat
  heldUnits : Nat
  consumedUnits : Nat
  deriving DecidableEq

def balance (input : Input) : Option Balance := do
  let get ← exact ["availableUnits", "heldUnits", "consumedUnits"] input
  let available ← units (get "availableUnits")
  let held ← units (get "heldUnits")
  let consumed ← units (get "consumedUnits")
  if MAX < available + held + consumed then none else some ⟨available, held, consumed⟩

/-- The two balances of a check, observed and expected. -/
def balances (input : Input) : Option (Balance × Balance) := do
  let top ← exact ["observed", "expected"] input
  let observed ← balance (top "observed")
  let expected ← balance (top "expected")
  some (observed, expected)

/-! ### Summaries -/

structure Summary where
  samples : Nat
  min : Option String
  p50 : Option String
  p95 : Option String
  p99 : Option String
  max : Option String
  deriving DecidableEq

def Summary.empty : Summary := ⟨0, none, none, none, none, none⟩

/-- How a lane keeps durations: `σ` is what it keeps. The summaries are those of all durations and
of the successful ones, of which there are `successes`. -/
structure Series (σ : Type) where
  empty : σ
  push : σ → Nat → Bool → σ
  references : σ → Nat
  summarize : σ → Nat → Summary × Summary

def summarize (values : List Nat) : Summary :=
  if values = [] then .empty
  else
    let ordered := sort values
    let rank percentage := (ordered[nearestRank ordered.length percentage - 1]?).map toString
    ⟨ordered.length, ordered[0]?.map toString, rank 50, rank 95, rank 99,
      ordered[ordered.length - 1]?.map toString⟩

/-- The series of the object recorder: all durations, and the successful ones. -/
def unpacked : Series (List Nat × List Nat) where
  empty := ([], [])
  push s duration succeeded := (s.1 ++ [duration], if succeeded then s.2 ++ [duration] else s.2)
  references s := s.1.length + s.2.length
  summarize s _ := (summarize s.1, summarize s.2)

/-- `(duration << 1n) | 1n`, or without the last bit. -/
def pack (duration : Nat) (succeeded : Bool) : Nat := 2 * duration + succeeded.toNat

/-- `String(value >> 1n)`. -/
def unpack (value : Nat) : String := toString (value / 2)

/-- What the loop over the sorted series has found of the successful values. -/
structure Scan where
  seen : Nat
  first : Option Nat
  p50 : Option Nat
  p95 : Option Nat
  p99 : Option Nat
  last : Option Nat

def Scan.next (r50 r95 r99 : Nat) (c : Scan) (value : Nat) : Scan :=
  if value % 2 = 0 then c
  else
    let seen := c.seen + 1
    { seen := seen
      first := if c.first = none then some value else c.first
      p50 := if seen = r50 then some value else c.p50
      p95 := if seen = r95 then some value else c.p95
      p99 := if seen = r99 then some value else c.p99
      last := some value }

/-- `summarizePacked`. (There are as many success bits as successes, so none of the values that are
unpacked last is missing.) -/
def summarizePacked (values : List Nat) (successes : Nat) : Summary × Summary :=
  if values = [] then (.empty, .empty)
  else
    let ordered := sort values
    let rank percentage := (ordered[nearestRank ordered.length percentage - 1]?).map unpack
    let terminal : Summary :=
      ⟨ordered.length, ordered[0]?.map unpack, rank 50, rank 95, rank 99,
        ordered[ordered.length - 1]?.map unpack⟩
    if successes = 0 then (terminal, .empty)
    else
      let c := ordered.foldl
        (Scan.next (nearestRank successes 50) (nearestRank successes 95) (nearestRank successes 99))
        ⟨0, none, none, none, none, none⟩
      (terminal, ⟨successes, c.first.map unpack, c.p50.map unpack, c.p95.map unpack,
        c.p99.map unpack, c.last.map unpack⟩)

/-- The series of the packed recorder: one number for each duration. -/
def packed : Series (List Nat) where
  empty := []
  push s duration succeeded := s ++ [pack duration succeeded]
  references s := s.length
  summarize := summarizePacked

/-! ### The recorder -/

structure Lane (σ : Type) where
  entered : Nat
  settled : Nat
  succeeded : Nat
  rejected : Nat
  unknown : Nat
  peak : Nat
  series : σ
  active : List Nat

structure Entry where
  phase : Phase
  start : Nat
  ended : Option (Outcome × Nat)
  deriving DecidableEq

structure PhaseReport where
  entered : Nat
  settled : Nat
  pending : Nat
  succeeded : Nat
  rejected : Nat
  unknown : Nat
  peakInFlight : Nat
  nonSuccessFraction : Option (Nat × Nat)
  terminalLatencyNanoseconds : Summary
  successfulLatencyNanoseconds : Summary
  deriving DecidableEq

inductive RecordingState
  | INCOMPLETE
  | EMPTY
  | COMPLETE
  deriving DecidableEq, Repr

inductive BalanceResult
  | MISMATCH
  | NOT_RECORDED
  | MATCHES_CALLER_DECLARED_EXPECTATIONS
  deriving DecidableEq, Repr

structure Report where
  recordingState : RecordingState
  recordingIssue : Option Kind
  stopReason : Option Kind
  limits : Limits
  refusedStarts : Int
  pendingObservations : Nat
  observedSpanNanoseconds : Option String
  phases : List (Phase × PhaseReport)
  balanceSamples : Nat
  balanceMismatches : Nat
  balanceResult : BalanceResult
  deriving DecidableEq

structure Inspection where
  finalized : Bool
  recordingIssue : Option Kind
  stopReason : Option Kind
  refusedStarts : Int
  pendingObservations : Nat
  retainedDurationReferences : Nat
  deriving DecidableEq

structure Recorder (σ : Type) where
  limits : Limits
  lanes : Phase → Lane σ
  entries : List Entry
  firstTime : Option Nat
  lastTime : Option Nat
  issue : Option Kind
  stopped : Option Kind
  finalized : Option Report
  refusedStarts : Int
  balanceChecks : Nat
  balanceMismatches : Nat

variable {σ : Type}

/-- `createServiceCreditCapacityRecorder`, over a series. -/
def create (series : Series σ) (arguments : List Input) : Except Kind (Recorder σ) := do
  let limits ← orReject (limitsOf arguments) .configuration_rejected
  .ok ⟨limits, fun _ => ⟨0, 0, 0, 0, 0, 0, series.empty, []⟩, [], none, none, none, none,
    none, 0, 0, 0⟩

def createServiceCreditCapacityRecorder := create unpacked

def createServiceCreditCapacityRecorderPacked := create packed

namespace Recorder

variable (s : Recorder σ)

/-- What `taint` does before it throws. -/
def tainted (kind : Kind) : Recorder σ :=
  { s with issue := some (s.issue.getD kind), stopped := some (s.stopped.getD kind) }

def stop (kind : Kind) : Recorder σ := { s with stopped := some (s.stopped.getD kind) }

def refuse : Recorder σ := { s with refusedStarts := add s.refusedStarts 1 }

def tick (time : Nat) : Recorder σ :=
  { s with firstTime := some (s.firstTime.getD time), lastTime := some time }

def withLane (phase : Phase) (lane : Lane σ) : Recorder σ :=
  { s with lanes := Function.update s.lanes phase lane }

/-- A new entry of a lane. -/
def enter (phase : Phase) (time : Nat) : Recorder σ :=
  let lane := s.lanes phase
  let active := lane.active ++ [s.entries.length]
  { s.withLane phase
      { lane with entered := lane.entered + 1, active := active, peak := max lane.peak active.length } with
    entries := s.entries ++ [⟨phase, time, none⟩] }

/-- An entry is finished. -/
def close (handle : Nat) (outcome : Outcome) (time : Nat) : Recorder σ :=
  { s with entries := s.entries.modify handle fun entry => { entry with ended := some (outcome,
    time) } }

/-- One observation more has settled in a lane. -/
def settle (series : Series σ) (handle : Nat) (phase : Phase) (outcome : Outcome) (duration : Nat) :
    Recorder σ :=
  let lane := s.lanes phase
  s.withLane phase { lane with
    settled := lane.settled + 1
    active := lane.active.erase handle
    series := series.push lane.series duration (outcome = .SUCCEEDED)
    succeeded := lane.succeeded + (decide (outcome = .SUCCEEDED)).toNat
    rejected := lane.rejected + (decide (outcome = .REJECTED)).toNat
    unknown := lane.unknown + (decide (outcome = .UNKNOWN)).toNat }

/-- One balance more was checked. -/
def compared (matching : Bool) : Recorder σ :=
  { s with balanceChecks := s.balanceChecks + 1, balanceMismatches := s.balanceMismatches + (!matching).toNat }

/-- `clock`: a time that is not before the last one. -/
def clock : Input → Option Nat
  | .bigint n => if 0 ≤ n ∧ n ≤ MAX ∧ s.lastTime.getD 0 ≤ n.toNat then some n.toNat else none
  | _ => none

/-- The part of a report about one lane. -/
def phaseReport (series : Series σ) (lane : Lane σ) : PhaseReport :=
  let latency := series.summarize lane.series lane.succeeded
  { entered := lane.entered
    settled := lane.settled
    pending := lane.entered - lane.settled
    succeeded := lane.succeeded
    rejected := lane.rejected
    unknown := lane.unknown
    peakInFlight := lane.peak
    nonSuccessFraction := if lane.settled = 0 then none
    else some (lane.rejected + lane.unknown, lane.settled)
    terminalLatencyNanoseconds := latency.1
    successfulLatencyNanoseconds := latency.2 }

def pending : Nat := (PHASES.map fun phase => (s.lanes phase).entered - (s.lanes phase).settled).sum

def totalEntered : Nat := (PHASES.map fun phase => (s.lanes phase).entered).sum

/-- What a finalized recorder still finds: its report and no durations or handles any more. -/
def finish (series : Series σ) (issue : Option Kind) (report : Report) : Recorder σ :=
  { s with issue := issue
           finalized := some report
           lanes := fun phase => { s.lanes phase with series := series.empty, active := [] } }

/-- The issue that a report gives. -/
def finalIssue : Option Kind :=
  if s.pending ≠ 0 ∧ s.issue = none then some .in_flight_at_finalize else s.issue

def report (series : Series σ) : Report where
  recordingState := if s.finalIssue ≠ none then .INCOMPLETE else if s.totalEntered = 0 then .EMPTY
    else .COMPLETE
  recordingIssue := s.finalIssue
  stopReason := s.stopped
  limits := s.limits
  refusedStarts := s.refusedStarts
  pendingObservations := s.pending
  observedSpanNanoseconds := s.firstTime.map fun first => toString (s.lastTime.getD first - first)
  phases := PHASES.map fun phase => (phase, phaseReport series (s.lanes phase))
  balanceSamples := s.balanceChecks
  balanceMismatches := s.balanceMismatches
  balanceResult := if s.balanceMismatches ≠ 0 then .MISMATCH
    else if s.balanceChecks = 0 then .NOT_RECORDED
    else .MATCHES_CALLER_DECLARED_EXPECTATIONS

end Recorder

abbrev Work (σ : Type) (α : Type) := Prog (Recorder σ) Kind α

def taint {α : Type} (kind : Kind) : Work σ α := do
  modify (·.tainted kind)
  throw kind

/-- What is there, or else the recording is tainted. -/
def orTaint {α : Type} (o : Option α) (kind : Kind) : Work σ α := match o with
  | some a => pure a
  | none => taint kind

/-- The recording is tainted in this case. -/
def taintIf (c : Prop) [Decidable c] (kind : Kind) : Work σ Unit :=
  if c then taint kind else pure ()

/-- A start is refused in this case. -/
def refuseIf (c : Prop) [Decidable c] (kind : Kind) : Work σ Unit :=
  if c then (do modify (·.refuse); taint kind) else pure ()

/-- `open`. -/
def assertOpen : Work σ Unit := do
  let s ← get
  failIf (s.finalized ≠ none) .finalized

/-- The two arguments of a call with two, of which the first must be known. -/
def twoArguments {α : Type} (read : Input → Option α) : List Input → Option (α × Input)
  | [first, second] => (read first).map fun a => (a, second)
  | _ => none

/-- `begin`. -/
def start (arguments : List Input) : Work σ Nat := do
  assertOpen
  let s ← get
  refuseIf (s.stopped ≠ none) .recording_stopped
  let (phase, time) ← orTaint (twoArguments phaseOf arguments) .input_rejected
  let now ← orTaint (s.clock time) .clock_rejected
  refuseIf (s.limits.maxSamplesPerPhase ≤ (s.lanes phase).entered) .sample_limit
  refuseIf (s.limits.maxInFlightPerPhase ≤ (s.lanes phase).active.length) .in_flight_limit
  modify (·.tick now)
  modify (·.enter phase now)
  pure s.entries.length

/-- `finish` of a handle. (Nobody can call a handle that was not returned.) -/
def finish (series : Series σ) (handle : Nat) (arguments : List Input) : Work σ Unit := do
  let s ← get
  let entry ← orFail s.entries[handle]? .input_rejected
  assertOpen
  taintIf (entry.ended ≠ none) .duplicate_finish
  let (outcome, time) ← orTaint (twoArguments outcomeOf arguments) .input_rejected
  let ended ← orTaint (s.clock time) .clock_rejected
  modify (·.close handle outcome ended)
  modify (·.tick ended)
  modify (·.settle series handle entry.phase outcome (ended - entry.start))
  modify fun s => if outcome = .UNKNOWN then s.stop .outcome_unknown else s

def sole : List Input → Option Input
  | [a] => some a
  | _ => none

def recordLedgerBalanceCheck (arguments : List Input) : Work σ Bool := do
  assertOpen
  let input ← orTaint (sole arguments) .balance_input_rejected
  let s ← get
  taintIf (s.limits.maxSamplesPerPhase ≤ s.balanceChecks) .balance_sample_limit
  let (observed, expected) ← orTaint (balances input) .balance_input_rejected
  let matching := decide (observed = expected)
  modify (·.compared matching)
  modify fun s => if matching then s else s.stop .balance_mismatch
  pure matching

/-- What `inspect` and `finalize` do with arguments. -/
def noArguments (arguments : List Input) : Work σ Unit := do
  let s ← get
  failIf (arguments ≠ [] ∧ s.finalized ≠ none) .input_rejected
  taintIf (arguments ≠ []) .input_rejected

def inspect (series : Series σ) (arguments : List Input) : Work σ Inspection := do
  noArguments arguments
  let s ← get
  pure { finalized := s.finalized.isSome
         recordingIssue := s.issue
         stopReason := s.stopped
         refusedStarts := s.refusedStarts
         pendingObservations := s.pending
         retainedDurationReferences :=
           (PHASES.map fun phase => series.references (s.lanes phase).series).sum }

def finalize (series : Series σ) (arguments : List Input) : Work σ Report := do
  noArguments arguments
  let s ← get
  match s.finalized with
  | some report => pure report
  | none => do
    modify (·.finish series s.finalIssue (s.report series))
    pure (s.report series)

inductive Call
  | start (arguments : List Input)
  | finish (handle : Nat) (arguments : List Input)
  | recordLedgerBalanceCheck (arguments : List Input)
  | inspect (arguments : List Input)
  | finalize (arguments : List Input)

/-- What a call returns. -/
inductive Result
  | handle (index : Nat)
  | finished
  | matching (matching : Bool)
  | inspection (inspection : Inspection)
  | report (report : Report)
  deriving DecidableEq

def Call.work (series : Series σ) : Call → Work σ Result
  | .start arguments => Result.handle <$> Capacity.start arguments
  | .finish handle arguments => (fun _ => .finished) <$> Capacity.finish series handle arguments
  | .recordLedgerBalanceCheck arguments =>
      Result.matching <$> Capacity.recordLedgerBalanceCheck arguments
  | .inspect arguments => Result.inspection <$> Capacity.inspect series arguments
  | .finalize arguments => Result.report <$> Capacity.finalize series arguments

/-- A call of a recorder with what it returns or throws. -/
def RecorderStep (series : Series σ) (s : Recorder σ) (l : Call × Except Kind Result)
    (t : Recorder σ) : Prop :=
  (l.1.work series).exec s = (l.2, t)

end Capacity
end ZenonX402
