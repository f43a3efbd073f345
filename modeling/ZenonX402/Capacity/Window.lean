/-
# The capacity window recorder

`createServiceCreditCapacityWindowRecorder`: one recorder of each cohort, and over both of them
the boundaries of a measurement window, limits and counters of its own. A handle belongs to the
cohort in which it was begun; how it ended counts in the stage in which it was finished.

A handle is kept with the stage and the outcome that it was finished with, of which the source only
keeps that it was finished. `failures` is what the recorders of the cohorts have thrown, of which
the source keeps nothing. What is the same in every report is left out of it.

Key definitions: `Window.State`, `within`, `start`, `finish`, `recordLedgerBalanceCheck`,
`finalize`, `WindowStep`.
-/
import ZenonX402.Capacity.Recorder

namespace ZenonX402
namespace Capacity
namespace Window

open Js Prog

/-! ### What is reported -/

/-- The rest of an error code of this recorder, or an issue of it. `recorder` are those that both
kinds of recorder have. -/
inductive Code
  | recorder (kind : Kind)
  | warmup_boundary_rejected
  | measurement_boundary_rejected
  | empty_measurement_window
  | begin_rejected
  | finish_rejected
  | balance_boundary_rejected
  | finalization_boundary_rejected
  | finalized_boundary_changed
  | measurement_not_started
  | measurement_not_stopped
  deriving DecidableEq, Repr

/-- What is thrown: an error of this recorder, or one of the recorder of a cohort that was not
caught. -/
inductive Fault
  | window (code : Code)
  | cohort (kind : Kind)
  deriving DecidableEq, Repr

inductive Cohort
  | WARMUP
  | MEASUREMENT
  deriving DecidableEq, Repr

/-- `phase` of the recorder. -/
inductive Stage
  | CREATED
  | WARMUP
  | MEASURING
  | DRAINING
  | FINALIZED
  deriving DecidableEq, Repr

structure Counters where
  settled : Nat
  succeeded : Nat
  rejected : Nat
  unknown : Nat
  deriving DecidableEq

def counters : Counters := ⟨0, 0, 0, 0⟩

def Counters.add (value : Counters) (outcome : Outcome) : Counters where
  settled := value.settled + 1
  succeeded := value.succeeded + (decide (outcome = .SUCCEEDED)).toNat
  rejected := value.rejected + (decide (outcome = .REJECTED)).toNat
  unknown := value.unknown + (decide (outcome = .UNKNOWN)).toNat

structure Lane where
  entered : Nat
  active : Nat
  peak : Nat
  windowPeak : Nat
  cohortActive : Cohort → Nat
  warmupInFlightAtStart : Nat
  warmupInFlightAtStop : Nat
  measurementInFlightAtStop : Nat
  warmupInside : Counters
  measuredInside : Counters
  warmupAfter : Counters
  measuredAfter : Counters

structure Handle where
  lane : Phase
  cohort : Cohort
  base : Nat
  finished : Option (Stage × Outcome)
  deriving DecidableEq

structure Balances where
  samples : Nat
  mismatches : Nat
  deriving DecidableEq

inductive RateStatus
  | WITHHELD_INCOMPLETE_INPUT
  | WITHHELD_STOPPED_RECORDING
  | WITHHELD_NO_CLOSED_WINDOW
  | NO_MEASUREMENT_STARTS
  | OBSERVED_WINDOW_RATIO_ONLY
  deriving DecidableEq, Repr

structure Ratio where
  numerator : String
  denominator : String
  deriving DecidableEq

structure LaneReport where
  enteredAcrossCohorts : Nat
  peakInFlightAcrossCohorts : Nat
  peakInFlightDuringMeasurement : Nat
  warmupInFlightAtStart : Nat
  warmupInFlightAtStop : Nat
  measurementInFlightAtStop : Nat
  warmupTerminalsDuringMeasurement : Counters
  measurementTerminalsDuringMeasurement : Counters
  warmupTerminalsAfterMeasurement : Counters
  measurementTerminalsAfterMeasurement : Counters
  successfulWindowCompletionRatio : Option Ratio
  rateStatus : RateStatus
  deriving DecidableEq

structure WindowReport where
  recordingState : RecordingState
  recordingIssue : Option Code
  stopReason : Option Code
  limits : Limits
  refusedStarts : Int
  pendingObservations : Nat
  warmupNanoseconds : Option String
  measurementNanoseconds : Option String
  drainNanoseconds : Option String
  runNanoseconds : Option String
  phases : List (Phase × LaneReport)
  warmup : Report
  measurement : Report
  balanceSamples : Nat
  balanceMismatches : Nat
  balanceStages : List (Stage × Balances)
  deriving DecidableEq

structure WindowInspection where
  phase : Stage
  recordingIssue : Option Code
  stopReason : Option Code
  refusedStarts : Int
  pendingObservations : Nat
  retainedHandleReferences : Nat
  retainedDurationReferences : Nat
  deriving DecidableEq

/-! ### The state -/

structure State (σ : Type) where
  limits : Limits
  cohorts : Cohort → Recorder σ
  lanes : Phase → Lane
  handles : List Handle
  activeEntries : List Nat
  balances : Stage → Balances
  phase : Stage
  issue : Option Code
  stopped : Option Code
  lastTime : Option Nat
  runStart : Option Nat
  warmupStart : Option Nat
  measurementStart : Option Nat
  measurementEnd : Option Nat
  finalizedAt : Option Nat
  final : Option WindowReport
  refusedStarts : Int
  balanceChecks : Nat
  balanceMismatches : Nat
  failures : List Kind

variable {σ : Type}

/-- The options that a recorder of a cohort is created with. -/
def optionsOf (limits : Limits) : Input :=
  .obj [("maxSamplesPerPhase", .num limits.maxSamplesPerPhase),
    ("maxInFlightPerPhase", .num limits.maxInFlightPerPhase)]

/-- What there is at first. -/
def initial (limits : Limits) (warmup measurement : Recorder σ) : State σ where
  limits := limits
  cohorts
    | .WARMUP => warmup
    | .MEASUREMENT => measurement
  lanes _ := ⟨0, 0, 0, 0, fun _ => 0, 0, 0, 0, counters, counters, counters, counters⟩
  handles := []
  activeEntries := []
  balances _ := ⟨0, 0⟩
  phase := .CREATED
  issue := none
  stopped := none
  lastTime := none
  runStart := none
  warmupStart := none
  measurementStart := none
  measurementEnd := none
  finalizedAt := none
  final := none
  refusedStarts := 0
  balanceChecks := 0
  balanceMismatches := 0
  failures := []

/-- `createServiceCreditCapacityWindowRecorder`, over a series. -/
def create (series : Series σ) (arguments : List Input) : Except Fault (State σ) := do
  let limits ← orReject (limitsOf arguments) (.window (.recorder .configuration_rejected))
  let warmup ← (Capacity.create series [optionsOf limits]).mapError .cohort
  let measurement ← (Capacity.create series [optionsOf limits]).mapError .cohort
  .ok (initial limits warmup measurement)

def createServiceCreditCapacityWindowRecorder := create unpacked

namespace State

variable (s : State σ)

/-- What `taint` does before it throws. -/
def tainted (code : Code) : State σ :=
  { s with issue := some (s.issue.getD code), stopped := some (s.stopped.getD code) }

def stop (code : Code) : State σ := { s with stopped := some (s.stopped.getD code) }

def refuse : State σ := { s with refusedStarts := add s.refusedStarts 1 }

def tick (time : Nat) : State σ :=
  { s with runStart := some (s.runStart.getD time), lastTime := some time }

def withLane (phase : Phase) (lane : Lane) : State σ :=
  { s with lanes := Function.update s.lanes phase lane }

def withCohort (cohort : Cohort) (recorder : Recorder σ) : State σ :=
  { s with cohorts := Function.update s.cohorts cohort recorder }

/-- The recorder of a cohort has thrown. -/
def failing (kind : Kind) : State σ := { s with failures := s.failures ++ [kind] }

/-- `clock`: a time that is not before the last one. -/
def clock : Input → Option Nat
  | .bigint n => if 0 ≤ n ∧ n ≤ MAX ∧ s.lastTime.getD 0 ≤ n.toNat then some n.toNat else none
  | _ => none

def warmUp (now : Nat) : State σ := { s with warmupStart := some now, phase := .WARMUP }

/-- The window opens. -/
def measure (now : Nat) : State σ :=
  { s with
    measurementStart := some now
    phase := .MEASURING
    lanes := fun name => { s.lanes name with
      warmupInFlightAtStart := (s.lanes name).cohortActive .WARMUP
      windowPeak := (s.lanes name).active } }

/-- The window closes. -/
def drain (now : Nat) : State σ :=
  { s with
    measurementEnd := some now
    phase := .DRAINING
    lanes := fun name => { s.lanes name with
      warmupInFlightAtStop := (s.lanes name).cohortActive .WARMUP
      measurementInFlightAtStop := (s.lanes name).cohortActive .MEASUREMENT } }

/-- A new handle. -/
def enter (name : Phase) (cohort : Cohort) (base : Nat) : State σ :=
  let lane := s.lanes name
  let active := lane.active + 1
  { s.withLane name { lane with
      entered := lane.entered + 1
      active := active
      cohortActive := Function.update lane.cohortActive cohort (lane.cohortActive cohort + 1)
      peak := max lane.peak active
      windowPeak := if s.phase = .MEASURING then max lane.windowPeak active
        else lane.windowPeak } with
    handles := s.handles ++ [⟨name, cohort, base, none⟩]
    activeEntries := s.activeEntries ++ [s.handles.length] }

end State

/-- A terminal observation, by the stage it is made in. -/
def Lane.terminal (lane : Lane) (outcome : Outcome) : Stage → Cohort → Lane
  | .MEASURING, .WARMUP => { lane with warmupInside := lane.warmupInside.add outcome }
  | .MEASURING, .MEASUREMENT => { lane with measuredInside := lane.measuredInside.add outcome }
  | .DRAINING, .WARMUP => { lane with warmupAfter := lane.warmupAfter.add outcome }
  | .DRAINING, .MEASUREMENT => { lane with measuredAfter := lane.measuredAfter.add outcome }
  | _, _ => lane

namespace State

variable (s : State σ)

/-- A handle is finished. -/
def close (index : Nat) (entry : Handle) (outcome : Outcome) : State σ :=
  let lane := s.lanes entry.lane
  let left := { lane with
    active := lane.active - 1
    cohortActive := Function.update lane.cohortActive entry.cohort
      (lane.cohortActive entry.cohort - 1) }
  { s.withLane entry.lane (left.terminal outcome s.phase entry.cohort) with
    handles := s.handles.modify index fun entry =>
      { entry with finished := some (s.phase, outcome) }
    activeEntries := s.activeEntries.erase index }

/-- One balance more was checked. -/
def compared (matching : Bool) : State σ :=
  { s with
    balanceChecks := s.balanceChecks + 1
    balanceMismatches := s.balanceMismatches + (!matching).toNat
    balances := Function.update s.balances s.phase
      ⟨(s.balances s.phase).samples + 1, (s.balances s.phase).mismatches + (!matching).toNat⟩ }

/-- The issue that there is before the recorders of the cohorts are finalized. -/
def boundaryIssue : Option Code :=
  s.issue.or <|
    (if s.measurementStart = none ∧ s.phase ≠ .CREATED then some .measurement_not_started
      else none).or <|
    (if s.measurementStart ≠ none ∧ s.measurementEnd = none then some .measurement_not_stopped
      else none).or <|
    if s.activeEntries.length ≠ 0 then some (.recorder .in_flight_at_finalize) else none

/-- The issue that a report gives. -/
def finalIssue (warmup measurement : Report) : Option Code :=
  s.issue.or ((warmup.recordingIssue.or measurement.recordingIssue).map .recorder)

def duration : Option Int := do
  let stop ← s.measurementEnd
  let start ← s.measurementStart
  some (stop - start)

def rateStatus (measurement : Report) (name : Phase) : RateStatus :=
  if s.issue ≠ none then .WITHHELD_INCOMPLETE_INPUT
  else if s.stopped ≠ none then .WITHHELD_STOPPED_RECORDING
  else if s.duration = none then .WITHHELD_NO_CLOSED_WINDOW
  else if (measurement.phases.lookup name).map PhaseReport.entered = some 0
  then .NO_MEASUREMENT_STARTS
  else .OBSERVED_WINDOW_RATIO_ONLY

def ratio (measurement : Report) (name : Phase) : Option Ratio :=
  if s.rateStatus measurement name = .OBSERVED_WINDOW_RATIO_ONLY then
    s.duration.map fun duration =>
      ⟨toString ((s.lanes name).measuredInside.succeeded * 1000000000), toString duration⟩
  else none

def laneReport (measurement : Report) (name : Phase) : LaneReport :=
  let lane := s.lanes name
  { enteredAcrossCohorts := lane.entered
    peakInFlightAcrossCohorts := lane.peak
    peakInFlightDuringMeasurement := lane.windowPeak
    warmupInFlightAtStart := lane.warmupInFlightAtStart
    warmupInFlightAtStop := lane.warmupInFlightAtStop
    measurementInFlightAtStop := lane.measurementInFlightAtStop
    warmupTerminalsDuringMeasurement := lane.warmupInside
    measurementTerminalsDuringMeasurement := lane.measuredInside
    warmupTerminalsAfterMeasurement := lane.warmupAfter
    measurementTerminalsAfterMeasurement := lane.measuredAfter
    successfulWindowCompletionRatio := s.ratio measurement name
    rateStatus := s.rateStatus measurement name }

/-- The nanoseconds between two times, as a text. -/
def elapsed (start stop : Option Nat) : Option String := do
  let start ← start
  let stop ← stop
  some (toString ((stop : Int) - start))

/-- The report at a time. The issue is the last one. -/
def report (now : Nat) (warmup measurement : Report) : WindowReport where
  recordingState := if s.issue ≠ none then .INCOMPLETE
    else if (PHASES.map fun name => (s.lanes name).entered).sum = 0 then .EMPTY else .COMPLETE
  recordingIssue := s.issue
  stopReason := s.stopped
  limits := s.limits
  refusedStarts := s.refusedStarts
  pendingObservations := s.activeEntries.length
  warmupNanoseconds := elapsed s.warmupStart s.measurementStart
  measurementNanoseconds := s.duration.map toString
  drainNanoseconds := elapsed s.measurementEnd (some now)
  runNanoseconds := elapsed s.runStart (some now)
  phases := PHASES.map fun name => (name, s.laneReport measurement name)
  warmup := warmup
  measurement := measurement
  balanceSamples := s.balanceChecks
  balanceMismatches := s.balanceMismatches
  balanceStages := [.WARMUP, .MEASURING, .DRAINING].map fun stage => (stage, s.balances stage)

/-- A recorder with its report. -/
def finish (now : Nat) (report : WindowReport) : State σ :=
  { s with finalizedAt := some now, final := some report, phase := .FINALIZED, activeEntries := [] }

/-- A call of `finalize` gives the time of the first one again. -/
def sameBoundary : List Input → Bool
  | [.bigint n] => s.finalizedAt.map Int.ofNat == some n
  | _ => false

end State

/-! ### Programs -/

abbrev Work (σ : Type) (α : Type) := Prog (State σ) Fault α

def taint {α : Type} (code : Code) : Work σ α := do
  modify (·.tainted code)
  throw (.window code)

/-- What is there, or else the recording is tainted. -/
def orTaint {α : Type} (o : Option α) (code : Code) : Work σ α := match o with
  | some a => pure a
  | none => taint code

/-- The recording is tainted in this case. -/
def taintIf (c : Prop) [Decidable c] (code : Code) : Work σ Unit :=
  if c then taint code else pure ()

/-- `refuse` of a start. -/
def refuse {α : Type} (code : Code) : Work σ α := do
  modify (·.refuse)
  taint code

def orRefuse {α : Type} (o : Option α) (code : Code) : Work σ α := match o with
  | some a => pure a
  | none => refuse code

def refuseIf (c : Prop) [Decidable c] (code : Code) : Work σ Unit :=
  if c then refuse code else pure ()

/-- `open`. -/
def assertOpen : Work σ Unit := do
  let s ← get
  failIf (s.final ≠ none) (.window (.recorder .finalized))

/-- A call of the recorder of a cohort. -/
def within {α : Type} (cohort : Cohort) (work : Capacity.Work σ α) : Work σ α := ExceptT.mk fun s =>
  match work.exec (s.cohorts cohort) with
  | (.ok a, recorder) => (.ok a, s.withCohort cohort recorder)
  | (.error kind, recorder) => (.error (.cohort kind), (s.withCohort cohort recorder).failing kind)

def startWarmup (arguments : List Input) : Work σ Unit := do
  assertOpen
  let time ← orTaint (sole arguments) .warmup_boundary_rejected
  let s ← get
  taintIf (s.phase ≠ .CREATED) .warmup_boundary_rejected
  taintIf (s.stopped ≠ none) (.recorder .recording_stopped)
  let now ← orTaint (s.clock time) (.recorder .clock_rejected)
  modify (·.tick now)
  modify (·.warmUp now)

def startMeasurement (arguments : List Input) : Work σ Unit := do
  assertOpen
  let time ← orTaint (sole arguments) .measurement_boundary_rejected
  let s ← get
  taintIf (s.phase ≠ .CREATED ∧ s.phase ≠ .WARMUP) .measurement_boundary_rejected
  taintIf (s.stopped ≠ none) (.recorder .recording_stopped)
  let now ← orTaint (s.clock time) (.recorder .clock_rejected)
  modify (·.tick now)
  modify (·.measure now)

def stopMeasurement (arguments : List Input) : Work σ Unit := do
  assertOpen
  let time ← orTaint (sole arguments) .measurement_boundary_rejected
  let s ← get
  taintIf (s.phase ≠ .MEASURING) .measurement_boundary_rejected
  let now ← orTaint (s.clock time) (.recorder .clock_rejected)
  taintIf (∃ start ∈ s.measurementStart, now ≤ start) .empty_measurement_window
  modify (·.tick now)
  modify (·.drain now)

/-- `begin`. (A clock that is refused taints before it counts the refused start.) -/
def start (arguments : List Input) : Work σ Nat := do
  assertOpen
  let s ← get
  refuseIf (s.stopped ≠ none) (.recorder .recording_stopped)
  let (name, time) ← orRefuse (twoArguments phaseOf arguments) .begin_rejected
  refuseIf (s.phase ≠ .WARMUP ∧ s.phase ≠ .MEASURING) .begin_rejected
  let now ← orRefuse (s.clock time) (.recorder .clock_rejected)
  let cohort := if s.phase = .WARMUP then Cohort.WARMUP else .MEASUREMENT
  refuseIf (s.limits.maxSamplesPerPhase ≤ (s.lanes name).entered) (.recorder .sample_limit)
  refuseIf (s.limits.maxInFlightPerPhase ≤ (s.lanes name).active) (.recorder .in_flight_limit)
  let base ← within cohort (Capacity.start arguments)
  modify (·.enter name cohort base)
  modify (·.tick now)
  pure s.handles.length

/-- `finish` of a handle. (Nobody can call a handle that was not returned.) -/
def finish (series : Series σ) (handle : Nat) (arguments : List Input) : Work σ Unit := do
  let s ← get
  let entry ← orFail s.handles[handle]? (.window (.recorder .input_rejected))
  assertOpen
  taintIf (entry.finished ≠ none) (.recorder .duplicate_finish)
  let (outcome, time) ← orTaint (twoArguments outcomeOf arguments) .finish_rejected
  let ended ← orTaint (s.clock time) (.recorder .clock_rejected)
  within entry.cohort (Capacity.finish series entry.base arguments)
  modify (·.close handle entry outcome)
  modify (·.tick ended)
  modify fun s => if outcome = .UNKNOWN then s.stop (.recorder .outcome_unknown) else s

def recordLedgerBalanceCheck (arguments : List Input) : Work σ Bool := do
  assertOpen
  let (input, time) ← orTaint (twoArguments some arguments) .balance_boundary_rejected
  let s ← get
  taintIf (s.phase ≠ .WARMUP ∧ s.phase ≠ .MEASURING ∧ s.phase ≠ .DRAINING)
    .balance_boundary_rejected
  let now ← orTaint (s.clock time) (.recorder .clock_rejected)
  taintIf (s.limits.maxSamplesPerPhase ≤ s.balanceChecks) (.recorder .balance_sample_limit)
  let cohort := if s.phase = .WARMUP then Cohort.WARMUP else .MEASUREMENT
  let matching ← tryCatch (within cohort (Capacity.recordLedgerBalanceCheck [input]))
    fun _ => taint (.recorder .balance_input_rejected)
  modify (·.compared matching)
  modify (·.tick now)
  modify fun s => if matching then s else s.stop (.recorder .balance_mismatch)
  pure matching

def inspect (series : Series σ) (arguments : List Input) : Work σ WindowInspection := do
  let s ← get
  failIf (arguments ≠ [] ∧ s.final ≠ none) (.window (.recorder .input_rejected))
  taintIf (arguments ≠ []) (.recorder .input_rejected)
  let warmup ← within .WARMUP (Capacity.inspect series [])
  let measurement ← within .MEASUREMENT (Capacity.inspect series [])
  pure { phase := s.phase
         recordingIssue := s.issue
         stopReason := s.stopped
         refusedStarts := s.refusedStarts
         pendingObservations :=
           (s.final.map WindowReport.pendingObservations).getD s.activeEntries.length
         retainedHandleReferences := s.activeEntries.length
         retainedDurationReferences :=
           warmup.retainedDurationReferences + measurement.retainedDurationReferences }

def finalize (series : Series σ) (arguments : List Input) : Work σ WindowReport := do
  let s ← get
  match s.final with
  | some report => do
    failIf (s.sameBoundary arguments = false) (.window .finalized_boundary_changed)
    pure report
  | none => do
    let time ← orTaint (sole arguments) .finalization_boundary_rejected
    let now ← orTaint (s.clock time) (.recorder .clock_rejected)
    modify fun s => { s with issue := s.boundaryIssue }
    let warmup ← within .WARMUP (Capacity.finalize series [])
    let measurement ← within .MEASUREMENT (Capacity.finalize series [])
    modify fun s => { s with issue := s.finalIssue warmup measurement }
    let s ← get
    modify (·.finish now (s.report now warmup measurement))
    pure (s.report now warmup measurement)

inductive Call
  | startWarmup (arguments : List Input)
  | startMeasurement (arguments : List Input)
  | stopMeasurement (arguments : List Input)
  | start (arguments : List Input)
  | finish (handle : Nat) (arguments : List Input)
  | recordLedgerBalanceCheck (arguments : List Input)
  | inspect (arguments : List Input)
  | finalize (arguments : List Input)

/-- What a call returns. -/
inductive Result
  | boundary
  | handle (index : Nat)
  | finished
  | matching (matching : Bool)
  | inspection (inspection : WindowInspection)
  | report (report : WindowReport)
  deriving DecidableEq

def Call.work (series : Series σ) : Call → Work σ Result
  | .startWarmup arguments => (fun _ => .boundary) <$> Window.startWarmup arguments
  | .startMeasurement arguments => (fun _ => .boundary) <$> Window.startMeasurement arguments
  | .stopMeasurement arguments => (fun _ => .boundary) <$> Window.stopMeasurement arguments
  | .start arguments => Result.handle <$> Window.start arguments
  | .finish handle arguments => (fun _ => .finished) <$> Window.finish series handle arguments
  | .recordLedgerBalanceCheck arguments =>
      Result.matching <$> Window.recordLedgerBalanceCheck arguments
  | .inspect arguments => Result.inspection <$> Window.inspect series arguments
  | .finalize arguments => Result.report <$> Window.finalize series arguments

/-- A call of a window recorder with what it returns or throws. -/
def WindowStep (series : Series σ) (s : State σ) (l : Call × Except Fault Result)
    (t : State σ) : Prop :=
  (l.1.work series).exec s = (l.2, t)

end Window
end Capacity
end ZenonX402
