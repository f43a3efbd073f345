/-
# What a capacity window keeps

What is true of a window recorder after every call (`Inv`): while it records, its lanes and the
recorders of its cohorts count its handles, and what was finished was finished in a stage that had
come; once it is finalized, its report accounts for every handle (`Accounted`).

Key definitions: `Linked`, `Staged`, `Recording`, `Accounted`, `Inv`.
Key theorems: `Inv.like`, `Recording.enter`, `Recording.close`, `Recording.accounted`.
-/
import ZenonX402.Capacity.WindowAccounts

namespace ZenonX402
namespace Capacity
namespace Window

open Js Prog

variable {σ : Type} {s t : State σ}

/-! ### The invariant -/

/-- The recorder of a cohort lets through what the window recorder does. -/
structure Linked (s : State σ) (cohort : Cohort) : Prop where
  limits : (s.cohorts cohort).limits = s.limits
  opened : (s.cohorts cohort).finalized = none
  time : (s.cohorts cohort).lastTime.getD 0 ≤ s.lastTime.getD 0
  stopped : s.stopped = none → (s.cohorts cohort).stopped = none
  issue : s.issue = none → (s.cohorts cohort).issue = none
  checks : (s.cohorts cohort).balanceChecks ≤ s.balanceChecks
  covers : Covers (s.cohorts cohort) cohort s.handles

/-- What was begun and finished in which stage. -/
structure Staged (s : State σ) : Prop where
  early : s.phase = .CREATED ∨ s.phase = .WARMUP → ∀ h ∈ s.handles, h.cohort = .WARMUP
  stages : ∀ h ∈ s.handles, h.cohort = .MEASUREMENT → ∀ stage outcome, h.finished
    = some (stage, outcome) →
    stage = .MEASURING ∨ (stage = .DRAINING ∧ s.phase = .DRAINING)
  started : s.phase = .MEASURING → ∃ start, s.measurementStart = some start
  closed : ∀ stop, s.measurementEnd = some stop → s.phase = .DRAINING ∧ ∃ start, s.measurementStart
    = some start ∧ start < stop
  atStop : s.phase = .DRAINING → ∀ name, (s.lanes name).measurementInFlightAtStop
    = s.handles.countP (Handle.settledIn name .MEASUREMENT .DRAINING)
    + s.handles.countP (Handle.pendingIn name .MEASUREMENT)

/-- What is true while nothing is reported. -/
structure Recording (s : State σ) : Prop where
  linked : ∀ cohort, Linked s cohort
  lanes : ∀ name, (s.lanes name).Tallies s.handles name
  staged : Staged s
  opened : s.phase ≠ .FINALIZED
  pending : ∀ (i : Nat) (h : Handle), s.handles[i]? = some h → h.finished = none →
    i ∈ s.activeEntries
  capacity : ∀ name, (s.lanes name).entered ≤ s.limits.maxSamplesPerPhase

/-- A ratio that is reported, by the handles it counts and the window it is about. -/
structure Observed (s : State σ) (report : WindowReport) (name : Phase) (ratio : Ratio) : Prop where
  issue : report.recordingIssue = none
  stopped : report.stopReason = none
  pending : report.pendingObservations = 0 ∧ ∀ h ∈ s.handles, h.finished ≠ none
  window : ∃ start stop, s.measurementStart = some start ∧ s.measurementEnd = some stop
    ∧ start < stop
    ∧ ratio.denominator = toString (stop - start)
  numerator : ratio.numerator
    = toString (s.handles.countP (Handle.endedIn name .MEASUREMENT .MEASURING .SUCCEEDED)
      * 1000000000)

/-- What a report says of a lane, and the reports of the two cohorts with it. -/
structure LaneAccounted (s : State σ) (report : WindowReport) (name : Phase) (r : LaneReport)
    (warmup measurement : PhaseReport) :
    Prop where
  counted : warmup.entered = s.handles.countP (Handle.entersIn name .WARMUP)
    ∧ measurement.entered = s.handles.countP (Handle.entersIn name .MEASUREMENT)
  entered : r.enteredAcrossCohorts = warmup.entered + measurement.entered
  capacity : r.enteredAcrossCohorts ≤ s.limits.maxSamplesPerPhase
  measured : measurement.entered = r.measurementTerminalsDuringMeasurement.settled
    + r.measurementTerminalsAfterMeasurement.settled
    + s.handles.countP (Handle.pendingIn name .MEASUREMENT)
  atStop : s.measurementEnd ≠ none → r.measurementInFlightAtStop
    = r.measurementTerminalsAfterMeasurement.settled
    + s.handles.countP (Handle.pendingIn name .MEASUREMENT)
  ratio : ∀ ratio, r.successfulWindowCompletionRatio = some ratio → Observed s report name ratio

/-- A report that accounts for every handle. -/
structure Accounted (s : State σ) (report : WindowReport) : Prop where
  phases : report.phases.map Prod.fst = PHASES
  lane : ∀ name r, (name, r) ∈ report.phases → ∃ warmup measurement,
    (name, warmup) ∈ report.warmup.phases
    ∧ (name, measurement) ∈ report.measurement.phases
    ∧ LaneAccounted s report name r warmup measurement

structure Inv (s : State σ) : Prop where
  failures : s.failures ≠ [] → s.issue ≠ none
  inFlight : ∀ name, inFlight s.handles name ≤ s.limits.maxInFlightPerPhase
  recording : s.final = none → Recording s
  accounted : ∀ report, s.final = some report → Accounted s report

/-! ### What is not counted -/

/-- A state that differs in what no counter is about. -/
structure Like (s t : State σ) : Prop where
  limits : t.limits = s.limits
  cohorts : t.cohorts = s.cohorts
  lanes : t.lanes = s.lanes
  handles : t.handles = s.handles
  activeEntries : t.activeEntries = s.activeEntries
  phase : t.phase = s.phase
  measurementStart : t.measurementStart = s.measurementStart
  measurementEnd : t.measurementEnd = s.measurementEnd
  final : t.final = s.final
  checks : s.balanceChecks ≤ t.balanceChecks
  time : s.lastTime.getD 0 ≤ t.lastTime.getD 0
  issue : t.issue = none → s.issue = none
  stopped : t.stopped = none → s.stopped = none

/-- A recorder that stays as it is. -/
theorem Linked.kept {cohort : Cohort} (h : Linked s cohort)
    (hkept : t.cohorts cohort = s.cohorts cohort) (hlimits : t.limits = s.limits)
    (htime : s.lastTime.getD 0 ≤ t.lastTime.getD 0) (hissue : t.issue = none → s.issue = none)
    (hstopped : t.stopped = none → s.stopped = none) (hchecks : s.balanceChecks ≤ t.balanceChecks)
    (hcovers : Covers (s.cohorts cohort) cohort t.handles) : Linked t cohort where
  limits := by rw [hkept, hlimits, h.limits]
  opened := by rw [hkept, h.opened]
  time := by rw [hkept]; exact h.time.trans htime
  stopped hs := by rw [hkept]; exact h.stopped (hstopped hs)
  issue hs := by rw [hkept]; exact h.issue (hissue hs)
  checks := by rw [hkept]; exact h.checks.trans hchecks
  covers := by rw [hkept]; exact hcovers

theorem Linked.like {cohort : Cohort} (h : Linked s cohort) (hl : Like s t) : Linked t cohort :=
  h.kept (congrFun hl.cohorts cohort) hl.limits hl.time hl.issue hl.stopped hl.checks
  (hl.handles ▸ h.covers)

theorem Staged.like (h : Staged s) (hl : Like s t) : Staged t where
  early := by rw [hl.phase, hl.handles]; exact h.early
  stages := by rw [hl.phase, hl.handles]; exact h.stages
  started := by rw [hl.phase, hl.measurementStart]; exact h.started
  closed := by rw [hl.phase, hl.measurementStart, hl.measurementEnd]; exact h.closed
  atStop := by rw [hl.phase, hl.lanes, hl.handles]; exact h.atStop

theorem Recording.like (h : Recording s) (hl : Like s t) : Recording t where
  linked cohort := (h.linked cohort).like hl
  lanes := by rw [hl.lanes, hl.handles]; exact h.lanes
  staged := h.staged.like hl
  opened := by rw [hl.phase]; exact h.opened
  pending := by rw [hl.handles, hl.activeEntries]; exact h.pending
  capacity := by rw [hl.lanes, hl.limits]; exact h.capacity

/-- A report is about handles and times only. -/
theorem Accounted.same {report : WindowReport} (h : Accounted s report)
    (hhandles : t.handles = s.handles) (hlimits : t.limits = s.limits)
    (hstart : t.measurementStart = s.measurementStart)
    (hend : t.measurementEnd = s.measurementEnd) : Accounted t report := by
  refine ⟨h.phases, fun name r hr => ?_⟩
  obtain ⟨warmup, measurement, hw, hm, hl⟩ := h.lane name r hr
  refine ⟨warmup, measurement, hw, hm, ?_, hl.entered, ?_, ?_, ?_, fun ratio hratio => ?_⟩
  · rw [hhandles]
    exact hl.counted
  · rw [hlimits]
    exact hl.capacity
  · rw [hhandles]
    exact hl.measured
  · rw [hhandles, hend]
    exact hl.atStop
  · obtain ⟨h1, h2, h3, h4, h5⟩ := hl.ratio ratio hratio
    exact ⟨h1, h2, by rwa [hhandles], by rwa [hstart, hend], by rwa [hhandles]⟩

theorem Inv.like (h : Inv s) (hl : Like s t) (hfailures : t.failures = s.failures) : Inv t where
  failures hne hissue := h.failures (hfailures ▸ hne) (hl.issue hissue)
  inFlight := by rw [hl.handles, hl.limits]; exact h.inFlight
  recording hopen := (h.recording (hl.final ▸ hopen)).like hl
  accounted report hreport :=
    (h.accounted report (hl.final ▸ hreport)).same hl.handles hl.limits hl.measurementStart
    hl.measurementEnd

theorem like_refl (s : State σ) : Like s s :=
  ⟨rfl, rfl, rfl, rfl, rfl, rfl, rfl, rfl, rfl, le_rfl, le_rfl, id, id⟩

theorem Like.trans {u : State σ} (h : Like s t) (h' : Like t u) : Like s u :=
  ⟨h'.limits.trans h.limits, h'.cohorts.trans h.cohorts, h'.lanes.trans h.lanes,
    h'.handles.trans h.handles, h'.activeEntries.trans h.activeEntries, h'.phase.trans h.phase,
    h'.measurementStart.trans h.measurementStart,
    h'.measurementEnd.trans h.measurementEnd, h'.final.trans h.final, h.checks.trans h'.checks,
    h.time.trans h'.time, fun hs => h.issue (h'.issue hs), fun hs => h.stopped (h'.stopped hs)⟩

theorem like_tainted (code : Code) : Like s (s.tainted code) :=
  ⟨rfl, rfl, rfl, rfl, rfl, rfl, rfl, rfl, rfl, le_rfl, le_rfl, nofun, nofun⟩

theorem like_refused (code : Code) : Like s (s.refuse.tainted code) :=
  ⟨rfl, rfl, rfl, rfl, rfl, rfl, rfl, rfl, rfl, le_rfl, le_rfl, nofun, nofun⟩

theorem like_stop (code : Code) : Like s (s.stop code) :=
  ⟨rfl, rfl, rfl, rfl, rfl, rfl, rfl, rfl, rfl, le_rfl, le_rfl, fun h => h, nofun⟩

theorem like_tick {now : Nat} (h : s.lastTime.getD 0 ≤ now) : Like s (s.tick now) :=
  ⟨rfl, rfl, rfl, rfl, rfl, rfl, rfl, rfl, rfl, le_rfl, h, fun h => h, fun h => h⟩

/-! ### Boundaries -/

theorem Recording.warmUp (h : Recording s) (hphase : s.phase = .CREATED) (now : Nat) :
    Recording (s.warmUp now) where
  linked cohort := ⟨(h.linked cohort).limits, (h.linked cohort).opened, (h.linked cohort).time,
    (h.linked cohort).stopped, (h.linked cohort).issue, (h.linked cohort).checks,
    (h.linked cohort).covers⟩
  lanes := h.lanes
  opened := Stage.noConfusion
  pending := h.pending
  capacity := h.capacity
  staged := by
    refine ⟨fun _ => h.staged.early (.inl hphase), fun e he hc stage outcome hf => ?_, nofun,
      fun stop hstop => ?_, nofun⟩
    · exact absurd (h.staged.early (.inl hphase) e he) (by rw [hc]; decide)
    · have hdrain := (h.staged.closed stop hstop).1
      rw [hphase] at hdrain
      cases hdrain

theorem Recording.measure (h : Recording s) (hphase : s.phase = .CREATED ∨ s.phase = .WARMUP)
    (now : Nat) :
    Recording (s.measure now) where
  linked cohort := ⟨(h.linked cohort).limits, (h.linked cohort).opened, (h.linked cohort).time,
    (h.linked cohort).stopped, (h.linked cohort).issue, (h.linked cohort).checks,
    (h.linked cohort).covers⟩
  lanes name := (h.lanes name).same rfl rfl rfl fun stage cohort => by
    cases stage <;> cases cohort <;> rfl
  opened := Stage.noConfusion
  pending := h.pending
  capacity := h.capacity
  staged := by
    refine ⟨fun hearly => ?_, fun e he hc => ?_, fun _ => ⟨now, rfl⟩, fun stop hstop => ?_, nofun⟩
    · rcases hearly with hearly | hearly <;> cases hearly
    · exact absurd (h.staged.early hphase e he) (by rw [hc]; decide)
    · have hdrain := (h.staged.closed stop hstop).1
      rw [hdrain] at hphase
      rcases hphase with hphase | hphase <;> cases hphase

/-- Nothing has been finished after the window before it closes. -/
theorem Staged.none_after (h : Staged s) (hphase : s.phase ≠ .DRAINING) (name : Phase) :
    s.handles.countP (Handle.settledIn name .MEASUREMENT .DRAINING) = 0 := by
  refine List.countP_eq_zero.mpr fun e he hsettled => ?_
  simp only [Handle.settledIn, decide_eq_true_eq, Option.map_eq_some_iff] at hsettled
  obtain ⟨-, hcohort, ⟨stage, outcome⟩, hfinished, rfl⟩ := hsettled
  rcases h.stages e he hcohort _ outcome hfinished with hstage | ⟨-, hdrain⟩
  · cases hstage
  · exact hphase hdrain

theorem Recording.drain (h : Recording s) (hphase : s.phase = .MEASURING) {now : Nat}
    (hnow : ∀ start, s.measurementStart = some start → start < now) : Recording (s.drain now) where
  linked cohort := ⟨(h.linked cohort).limits, (h.linked cohort).opened, (h.linked cohort).time,
    (h.linked cohort).stopped, (h.linked cohort).issue, (h.linked cohort).checks,
    (h.linked cohort).covers⟩
  lanes name := (h.lanes name).same rfl rfl rfl fun stage cohort => by
    cases stage <;> cases cohort <;> rfl
  opened := Stage.noConfusion
  pending := h.pending
  capacity := h.capacity
  staged := by
    refine ⟨fun hearly => ?_, fun e he hc stage outcome hf => ?_, nofun,
      fun stop hstop => ⟨rfl, ?_⟩, fun _ name => ?_⟩
    · rcases hearly with hearly | hearly <;> cases hearly
    · rcases h.staged.stages e he hc stage outcome hf with hstage | ⟨-, hdrain⟩
      · exact .inl hstage
      · rw [hphase] at hdrain
        cases hdrain
    · obtain ⟨start, hstart⟩ := h.staged.started hphase
      obtain rfl : now = stop := Option.some.inj hstop
      exact ⟨start, hstart, hnow start hstart⟩
    · have hnone := h.staged.none_after (by rw [hphase]; decide) name
      show (s.lanes name).cohortActive .MEASUREMENT = s.handles.countP _ + s.handles.countP _
      rw [hnone, Nat.zero_add]
      exact (h.lanes name).cohortActive .MEASUREMENT

/-! ### Handles -/

/-- The state after a handle was begun. -/
def State.begun (s : State σ) (name : Phase) (cohort : Cohort) (now : Nat) : State σ :=
  ((s.withCohort cohort (((s.cohorts cohort).tick now).enter name now)).enter name cohort
    (s.cohorts cohort).entries.length).tick now

/-- A recorder after a call at a time that the window recorder has seen too. -/
theorem Linked.advanced {cohort : Cohort} (h : Linked s cohort) {r : Recorder σ}
    (hr : t.cohorts cohort = r)
    (hlimits : t.limits = s.limits ∧ r.limits = (s.cohorts cohort).limits)
    (hopened : r.finalized = (s.cohorts cohort).finalized)
    (htime : r.lastTime.getD 0 ≤ t.lastTime.getD 0)
    (hstopped : t.stopped = none → s.stopped = none ∧ r.stopped = (s.cohorts cohort).stopped)
    (hissue : t.issue = none → s.issue = none ∧ r.issue = (s.cohorts cohort).issue)
    (hchecks : r.balanceChecks ≤ t.balanceChecks) (hcovers : Covers r cohort t.handles) :
    Linked t cohort := by
  subst hr
  refine ⟨hlimits.2.trans (h.limits.trans hlimits.1.symm), hopened.trans h.opened, htime,
    fun hs => ?_, fun hs => ?_, hchecks, hcovers⟩
  · exact (hstopped hs).2.trans (h.stopped (hstopped hs).1)
  · exact (hissue hs).2.trans (h.issue (hissue hs).1)

theorem Linked.begun {cohort other : Cohort} (h : Linked s other) (name : Phase) {now : Nat}
    (hnow : s.lastTime.getD 0 ≤ now) :
    Linked (s.begun name cohort now) other := by
  by_cases hsame : other = cohort
  · subst hsame
    have hself : (s.begun name other now).cohorts other
        = ((s.cohorts other).tick now).enter name now := Function.update_self ..
    exact h.advanced hself ⟨rfl, rfl⟩ rfl le_rfl (⟨·, rfl⟩) (⟨·, rfl⟩) h.checks
      (h.covers.enter name now)
  · have hkept : (s.begun name cohort now).cohorts other = s.cohorts other :=
      Function.update_of_ne hsame ..
    exact h.kept hkept rfl hnow id id le_rfl (h.covers.enter_other (Ne.symm hsame) name _)

/-- The cohort that handles are begun for. -/
def State.begins (s : State σ) : Cohort := if s.phase = .WARMUP then .WARMUP else .MEASUREMENT

theorem Staged.begun (h : Staged s) (hphase : s.phase = .WARMUP ∨ s.phase = .MEASURING)
    (name : Phase) (now : Nat) :
    Staged (s.begun name s.begins now) := by
  have hhandles : (s.begun name s.begins now).handles = s.handles
      ++ [⟨name, s.begins, (s.cohorts s.begins).entries.length, none⟩] := rfl
  refine ⟨fun hearly e he => ?_, fun e he hc stage outcome hf => ?_, h.started, h.closed,
    fun hdrain => ?_⟩
  · rw [hhandles] at he
    rcases List.mem_append.mp he with he | he
    · exact h.early hearly e he
    · rw [List.mem_singleton.mp he]
      have hwarm : s.phase = .WARMUP := by
        rcases hphase with hw | hm
        · exact hw
        · have hearly : s.phase = .CREATED ∨ s.phase = .WARMUP := hearly
          rw [hm] at hearly
          rcases hearly with hearly | hearly <;> cases hearly
      exact if_pos hwarm
  · rw [hhandles] at he
    rcases List.mem_append.mp he with he | he
    · exact h.stages e he hc stage outcome hf
    · rw [List.mem_singleton.mp he] at hf
      cases hf
  · have hdrain : s.phase = .DRAINING := hdrain
    rw [hdrain] at hphase
    rcases hphase with hphase | hphase <;> cases hphase

theorem Recording.begun (h : Recording s) (hphase : s.phase = .WARMUP ∨ s.phase = .MEASURING)
    {name : Phase} {now : Nat} (hnow : s.lastTime.getD 0 ≤ now)
    (hentered : (s.lanes name).entered < s.limits.maxSamplesPerPhase) :
    Recording (s.begun name s.begins now) := by
  have hself : (s.begun name s.begins now).lanes name = _ := Function.update_self ..
  have hlane (other : Phase) (hother : other ≠ name) : (s.begun name s.begins now).lanes other
      = s.lanes other :=
    Function.update_of_ne hother ..
  refine ⟨fun c => (h.linked c).begun name hnow, fun other => ?_, h.staged.begun hphase name now,
    h.opened, fun i e hget hpending => ?_, fun other => ?_⟩
  · by_cases hother : other = name
    · subst hother
      rw [hself]
      exact (h.lanes other).enter s.begins _ _ _
    · rw [hlane other hother]
      exact (h.lanes other).enter_other (Ne.symm hother) s.begins _
  · show i ∈ s.activeEntries ++ [s.handles.length]
    rcases getElem?_enter hget with ⟨-, hold⟩ | ⟨rfl, -⟩
    · exact List.mem_append_left _ (h.pending i e hold hpending)
    · exact List.mem_append_right _ (List.mem_singleton.mpr rfl)
  · by_cases hother : other = name
    · subst hother
      rw [hself]
      exact hentered
    · rw [hlane other hother]
      exact h.capacity other

theorem inFlight_begun (h : Recording s) {name : Phase} (now : Nat) (cohort : Cohort)
    (hactive : (s.lanes name).active < s.limits.maxInFlightPerPhase)
    (hcap : ∀ name, inFlight s.handles name ≤ s.limits.maxInFlightPerPhase) (other : Phase) :
    inFlight (s.begun name cohort now).handles other ≤ s.limits.maxInFlightPerPhase := by
  have hhandles : (s.begun name cohort now).handles = s.handles
      ++ [⟨name, cohort, (s.cohorts cohort).entries.length, none⟩] := rfl
  have hcount := (h.lanes name).active
  have hold := hcap other
  rw [hhandles]
  unfold inFlight at hcount hold ⊢
  rw [countP_enter, countP_enter]
  by_cases hother : name = other
  · subst hother
    cases cohort <;> simp [Handle.pendingIn] at * <;> omega
  · simpa [Handle.pendingIn, hother] using hold

/-- The state after a handle was finished. -/
def State.ended (s : State σ) (series : Series σ) (index : Nat) (entry : Handle) (e : Entry)
    (outcome : Outcome) (now : Nat) : State σ :=
  ((s.withCohort entry.cohort
    (finished series (s.cohorts entry.cohort) entry.base e outcome now)).close index entry
    outcome).tick now

variable {index : Nat} {entry : Handle} {e : Entry} {series : Series σ}

theorem Linked.ended {other : Cohort} (h : Linked s other) (hentry : s.handles[index]? = some entry)
    (hpending : entry.finished = none) (he : e.phase = entry.lane) (outcome : Outcome) {now : Nat}
    (hnow : s.lastTime.getD 0 ≤ now) :
    Linked (s.ended series index entry e outcome now) other := by
  by_cases hsame : other = entry.cohort
  · subst hsame
    have hself : (s.ended series index entry e outcome now).cohorts entry.cohort
        = finished series (s.cohorts entry.cohort) entry.base e outcome now :=
          Function.update_self ..
    exact h.advanced hself ⟨rfl, rfl⟩ rfl le_rfl (⟨·, rfl⟩) (⟨·, rfl⟩) h.checks
      (h.covers.close hentry hpending he series s.phase outcome now)
  · have hkept : (s.ended series index entry e outcome now).cohorts other = s.cohorts other :=
      Function.update_of_ne hsame ..
    exact h.kept hkept rfl hnow id id le_rfl
      (h.covers.close_other (Ne.symm hsame) hentry hpending s.phase outcome)

theorem Staged.ended (h : Staged s) (hopen : s.phase ≠ .FINALIZED)
    (hentry : s.handles[index]? = some entry) (hpending : entry.finished = none) (outcome : Outcome)
    (now : Nat) : Staged (s.ended series index entry e outcome now) := by
  have hhandles : (s.ended series index entry e outcome now).handles
      = s.handles.modify index (Handle.ending s.phase outcome) := rfl
  have hmem {x : Handle} (hx : x ∈ s.handles.modify index (Handle.ending s.phase outcome)) :
      x = entry.ending s.phase outcome ∨ x ∈ s.handles := by
    obtain ⟨i, hi⟩ := List.mem_iff_getElem?.mp hx
    rcases getElem?_close hentry hi with ⟨-, hsame⟩ | ⟨-, hold⟩
    · exact .inl hsame
    · exact .inr (List.mem_of_getElem? hold)
  have hentryMem := List.mem_of_getElem? hentry
  refine ⟨fun hearly x hx => ?_, fun x hx hc stage o hf => ?_, h.started, h.closed,
    fun hdrain name => ?_⟩
  · rcases hmem hx with rfl | hold
    · exact h.early hearly entry hentryMem
    · exact h.early hearly x hold
  · rcases hmem hx with rfl | hold
    · obtain ⟨rfl, -⟩ := Prod.mk.inj (Option.some.inj hf)
      have hlate : ¬ (s.phase = .CREATED ∨ s.phase = .WARMUP) := fun hearly => by
        have hwarm := h.early hearly entry hentryMem
        rw [show entry.cohort = .MEASUREMENT from hc] at hwarm
        cases hwarm
      show s.phase = .MEASURING ∨ (s.phase = .DRAINING ∧ s.phase = .DRAINING)
      cases hphase : s.phase with
      | CREATED => exact absurd (.inl hphase) hlate
      | WARMUP => exact absurd (.inr hphase) hlate
      | MEASURING => exact .inl rfl
      | DRAINING => exact .inr ⟨rfl, rfl⟩
      | FINALIZED => exact absurd hphase hopen
    · exact h.stages x hold hc stage o hf
  · have hdrain : s.phase = .DRAINING := hdrain
    have hsettled := settled_close hentry hpending s.phase outcome name .MEASUREMENT .DRAINING
    have hclose := pending_close hentry hpending s.phase outcome name .MEASUREMENT
    have hold := h.atStop hdrain name
    have hstop : ((s.ended series index entry e outcome now).lanes name).measurementInFlightAtStop
        = (s.lanes name).measurementInFlightAtStop := by
      by_cases hname : name = entry.lane
      · subst hname
        have hself : (s.ended series index entry e outcome now).lanes entry.lane = _ :=
          Function.update_self ..
        rw [hself, (terminal_other _ _ _ _).2.2.2]
        rfl
      · have hkept : (s.ended series index entry e outcome now).lanes name = s.lanes name :=
          Function.update_of_ne hname ..
        rw [hkept]
    rw [hstop, hhandles]
    rw [hdrain, decide_eq_true rfl, Bool.and_true] at hsettled
    rw [hdrain] at hclose ⊢
    omega

theorem Recording.ended (h : Recording s) (hentry : s.handles[index]? = some entry)
    (hpending : entry.finished = none) (he : e.phase = entry.lane) (outcome : Outcome) {now : Nat}
    (hnow : s.lastTime.getD 0 ≤ now) :
    Recording (s.ended series index entry e outcome now) := by
  have hself : (s.ended series index entry e outcome now).lanes entry.lane = _ :=
    Function.update_self ..
  have hlane (other : Phase) (hother : other ≠ entry.lane) :
      (s.ended series index entry e outcome now).lanes other = s.lanes other :=
        Function.update_of_ne hother ..
  refine ⟨fun c => (h.linked c).ended hentry hpending he outcome hnow, fun other => ?_,
    h.staged.ended h.opened hentry hpending outcome now, h.opened, fun i x hget hx => ?_,
    fun other => ?_⟩
  · by_cases hother : other = entry.lane
    · subst hother
      rw [hself]
      exact (h.lanes entry.lane).close hentry hpending s.phase outcome
    · rw [hlane other hother]
      exact (h.lanes other).close_other (Ne.symm hother) hentry hpending s.phase outcome
  · show i ∈ s.activeEntries.erase index
    rcases getElem?_close hentry hget with ⟨-, rfl⟩ | ⟨hne, hold⟩
    · exact absurd hx (Option.some_ne_none _)
    · exact (List.mem_erase_of_ne hne).mpr (h.pending i x hold hx)
  · by_cases hother : other = entry.lane
    · subst hother
      rw [hself, (terminal_other _ _ _ _).1]
      exact h.capacity entry.lane
    · rw [hlane other hother]
      exact h.capacity other

theorem inFlight_ended (hentry : s.handles[index]? = some entry) (hpending : entry.finished = none)
    (outcome : Outcome) (now : Nat) (name : Phase) :
    inFlight (s.ended series index entry e outcome now).handles name ≤ inFlight s.handles name := by
  have hw := pending_close hentry hpending s.phase outcome name .WARMUP
  have hm := pending_close hentry hpending s.phase outcome name .MEASUREMENT
  have hhandles : (s.ended series index entry e outcome now).handles
      = s.handles.modify index (Handle.ending s.phase outcome) := rfl
  rw [hhandles]
  unfold inFlight
  omega

/-- A recorder of a cohort that keeps its entries. -/
theorem Recording.replaced (h : Recording s) {cohort : Cohort} {r : Recorder σ}
    (hlimits : r.limits = (s.cohorts cohort).limits) (hlanes : r.lanes = (s.cohorts cohort).lanes)
    (hentries : r.entries = (s.cohorts cohort).entries)
    (hopened : r.finalized = (s.cohorts cohort).finalized)
    (htime : r.lastTime = (s.cohorts cohort).lastTime)
    (hstopped : s.stopped = none → r.stopped = none) (hissue : s.issue = none → r.issue = none)
    (hchecks : r.balanceChecks ≤ s.balanceChecks) : Recording (s.withCohort cohort r) := by
  refine ⟨fun other => ?_, h.lanes,
    ⟨h.staged.early, h.staged.stages, h.staged.started, h.staged.closed, h.staged.atStop⟩, h.opened,
    h.pending, h.capacity⟩
  have hlinked := h.linked other
  by_cases hsame : other = cohort
  · subst hsame
    have hself : (s.withCohort other r).cohorts other = r := Function.update_self ..
    obtain ⟨hentered, hactive, hbacks, hapart⟩ := hlinked.covers
    have hcovers : Covers r other s.handles := by
      refine ⟨hlanes ▸ hentered, hlanes ▸ hactive, fun i x hget hc => ?_, hapart⟩
      obtain ⟨hentry, hmem⟩ := hbacks i x hget hc
      exact ⟨hentries ▸ hentry, hlanes ▸ hmem⟩
    refine ⟨?_, ?_, ?_, fun hs => ?_, fun hs => ?_, ?_, ?_⟩
    · rw [hself, hlimits]
      exact hlinked.limits
    · rw [hself, hopened]
      exact hlinked.opened
    · rw [hself, htime]
      exact hlinked.time
    · rw [hself]
      exact hstopped hs
    · rw [hself]
      exact hissue hs
    · rw [hself]
      exact hchecks
    · rw [hself]
      exact hcovers
  · have hkept : (s.withCohort cohort r).cohorts other = s.cohorts other :=
      Function.update_of_ne hsame ..
    exact hlinked.kept hkept rfl le_rfl id id le_rfl hlinked.covers

/-! ### The report -/

/-- A handle of the measurement is pending, or was finished in the window or after it. -/
theorem measurement_handles {handles : List Handle}
    (h : ∀ x ∈ handles, x.cohort = .MEASUREMENT → ∀ stage outcome, x.finished
      = some (stage, outcome) → stage = .MEASURING ∨ stage = .DRAINING) (name : Phase) :
    handles.countP (Handle.entersIn name .MEASUREMENT)
      = handles.countP (Handle.settledIn name .MEASUREMENT .MEASURING)
      + handles.countP (Handle.settledIn name .MEASUREMENT .DRAINING)
      + handles.countP (Handle.pendingIn name .MEASUREMENT) := by
  induction handles with
  | nil => rfl
  | cons x handles ih =>
    rw [List.forall_mem_cons] at h
    have hone : (x.entersIn name .MEASUREMENT).toNat
        = (x.settledIn name .MEASUREMENT .MEASURING).toNat
        + (x.settledIn name .MEASUREMENT .DRAINING).toNat
        + (x.pendingIn name .MEASUREMENT).toNat := by
      have hx := h.1
      obtain ⟨lane, cohort, base, finished⟩ := x
      simp only [Handle.entersIn, Handle.settledIn, Handle.pendingIn]
      by_cases hlane : lane = name
      · by_cases hcohort : cohort = .MEASUREMENT
        · cases finished with
          | none => simp [hlane, hcohort]
          | some f =>
            obtain ⟨stage, outcome⟩ := f
            rcases hx hcohort stage outcome rfl with rfl | rfl <;> simp [hlane, hcohort]
        · simp [hcohort]
      · simp [hlane]
    have hrest := ih h.2
    have hcount (q : Handle → Bool) : (x :: handles).countP q = handles.countP q + (q x).toNat := by
      rw [List.countP_cons]
      cases q x <;> rfl
    rw [hcount, hcount, hcount, hcount]
    omega

/-- The issue of a report that has none. -/
theorem finalIssue_none {warmup measurement : Report}
    (h : ({ s with issue := s.boundaryIssue } : State σ).finalIssue warmup measurement = none) :
    s.issue = none ∧ s.activeEntries = [] := by
  simp only [State.finalIssue, State.boundaryIssue, Option.or_eq_none_iff] at h
  obtain ⟨⟨hissue, -, -, hpending⟩, -⟩ := h
  refine ⟨hissue, List.length_eq_zero_iff.mp ?_⟩
  by_contra hne
  rw [if_pos hne] at hpending
  cases hpending

theorem mem_phases {α : Type} {f : Phase → α} {name : Phase} {r : α}
    (h : (name, r) ∈ PHASES.map fun name => (name, f name)) :
    r = f name := by
  obtain ⟨other, -, hpair⟩ := List.mem_map.mp h
  obtain ⟨rfl, rfl⟩ := Prod.mk.inj hpair
  rfl

theorem phase_mem (name : Phase) : name ∈ PHASES := by
  cases name <;> decide

/-- The issue that the report of a state gives. -/
def State.issued (s : State σ) (warmup measurement : Report) : State σ :=
  { s with issue := ({ s with issue := s.boundaryIssue } : State σ).finalIssue warmup measurement }

theorem Recording.accounted (h : Recording s) (series : Series σ) (now : Nat)
    {warmup measurement : Report} (hwarmup : warmup = (s.cohorts .WARMUP).report series)
    (hmeasurement : measurement = (s.cohorts .MEASUREMENT).report series) :
    Accounted s ((s.issued warmup measurement).report now warmup measurement) := by
  refine ⟨rfl, fun name r hr => ?_⟩
  have hphases (c : Cohort) : (name, Recorder.phaseReport series ((s.cohorts c).lanes name))
      ∈ ((s.cohorts c).report series).phases :=
    List.mem_map_of_mem (f :=
      fun phase => (phase, Recorder.phaseReport series ((s.cohorts c).lanes phase)))
      (phase_mem name)
  obtain rfl := mem_phases hr
  refine ⟨_, _, hwarmup ▸ hphases .WARMUP, hmeasurement ▸ hphases .MEASUREMENT, ?_⟩
  have hw := (h.linked .WARMUP).covers.entered name
  have hm := (h.linked .MEASUREMENT).covers.entered name
  have hlane := h.lanes name
  have hinside : (s.lanes name).measuredInside.settled = _ := (hlane.inside .MEASUREMENT).settled
  have hsucceeded : (s.lanes name).measuredInside.succeeded = _ :=
    (hlane.inside .MEASUREMENT).succeeded
  have hafter : (s.lanes name).measuredAfter.settled = _ := (hlane.after .MEASUREMENT).settled
  refine ⟨⟨hw, hm⟩, ?_, h.capacity name, ?_, fun hend => ?_, fun ratio hratio => ?_⟩
  · show (s.lanes name).entered = ((s.cohorts .WARMUP).lanes name).entered
      + ((s.cohorts .MEASUREMENT).lanes name).entered
    rw [hw, hm, hlane.entered]
  · show ((s.cohorts .MEASUREMENT).lanes name).entered = (s.lanes name).measuredInside.settled
      + (s.lanes name).measuredAfter.settled + _
    rw [hm, hinside, hafter]
    exact measurement_handles
      (fun x hx hc stage outcome hf => (h.staged.stages x hx hc stage outcome hf).imp_right
        And.left) name
  · obtain ⟨stop, hstop⟩ := Option.ne_none_iff_exists'.mp hend
    show (s.lanes name).measurementInFlightAtStop = (s.lanes name).measuredAfter.settled + _
    rw [hafter]
    exact h.staged.atStop (h.staged.closed stop hstop).1 name
  · have hratio : (s.issued warmup measurement).ratio measurement name = some ratio := hratio
    unfold State.ratio at hratio
    split at hratio
    · rename_i hrate
      unfold State.rateStatus at hrate
      by_cases hissue : (s.issued warmup measurement).issue = none
      · rw [if_neg (not_not.mpr hissue)] at hrate
        by_cases hstopped : (s.issued warmup measurement).stopped = none
        · obtain ⟨-, hnone⟩ := finalIssue_none hissue
          obtain ⟨duration, hduration, rfl⟩ := Option.map_eq_some_iff.mp hratio
          simp only [State.duration, Option.bind_eq_bind, Option.bind_eq_some_iff] at hduration
          obtain ⟨stop, hstop, start, hstart, hdifference⟩ := hduration
          obtain ⟨-, other, hother, hlt⟩ := h.staged.closed stop hstop
          obtain rfl := Option.some.inj (hother.symm.trans hstart)
          refine ⟨hissue, hstopped, ⟨congrArg List.length hnone, fun x hx hpending => ?_⟩,
            ⟨other, stop, hother, hstop, hlt, ?_⟩, ?_⟩
          · obtain ⟨i, hi⟩ := List.mem_iff_getElem?.mp hx
            have hmem := h.pending i x hi hpending
            rw [hnone] at hmem
            cases hmem
          · have hcast : duration = ((stop - other : Nat) : Int) := by
              have := Option.some.inj hdifference
              omega
            rw [hcast]
            rfl
          · show toString ((s.lanes name).measuredInside.succeeded * 1000000000) = _
            rw [hsucceeded]
        · rw [if_pos hstopped] at hrate
          cases hrate
      · rw [if_pos hissue] at hrate
        cases hrate
    · cases hratio

end Window
end Capacity
end ZenonX402
