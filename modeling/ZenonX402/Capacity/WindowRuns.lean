/-
# Runs of the capacity window recorder

Every call keeps the invariant of the window, and no call of a cohort's recorder fails but a check
of a balance, which is then refused (`Sound`, `call_sound`). So every report of a run accounts for
all handles (`window_accounts`).

Key definitions: `Sound`.
Key theorems: `start_returns`, `finish_returns`, `call_sound`, `window_accounts`.
-/
import ZenonX402.Capacity.WindowInvariant

namespace ZenonX402
namespace Capacity

open Js Prog

variable {σ : Type} {r : Recorder σ}

/-! ### Calls of a recorder that are let through -/

theorem start_returns {arguments : List Input} {phase : Phase} {time : Input} {now : Nat}
    (hopen : r.finalized = none) (hstopped : r.stopped = none)
    (harguments : twoArguments phaseOf arguments = some (phase, time))
    (hclock : r.clock time = some now)
    (hentered : (r.lanes phase).entered < r.limits.maxSamplesPerPhase)
    (hactive : (r.lanes phase).active.length < r.limits.maxInFlightPerPhase) :
    Ends (start arguments) r fun x t => x = .ok r.entries.length
      ∧ t = (r.tick now).enter phase now := by
  unfold start
  refine ends_assertOpen.mpr ⟨fun hfinal => absurd hopen hfinal, fun _ => ends_get.mpr ?_⟩
  refine ends_refuseIf.mpr ⟨fun hstop => absurd hstopped hstop, fun _ => ?_⟩
  refine ends_orTaint.mpr
    ⟨fun hnone => absurd (harguments.symm.trans hnone) (Option.some_ne_none _), fun a ha => ?_⟩
  obtain rfl := Option.some.inj (harguments.symm.trans ha)
  refine ends_orTaint.mpr ⟨fun hnone => absurd (hclock.symm.trans hnone) (Option.some_ne_none _),
    fun a ha => ?_⟩
  obtain rfl := Option.some.inj (hclock.symm.trans ha)
  refine ends_refuseIf.mpr ⟨fun hle => absurd hentered (not_lt.mpr hle), fun _ => ?_⟩
  refine ends_refuseIf.mpr ⟨fun hle => absurd hactive (not_lt.mpr hle), fun _ => ?_⟩
  exact ends_modify.mpr (ends_modify.mpr ⟨rfl, rfl⟩)

theorem finish_returns {series : Series σ} {handle : Nat} {arguments : List Input} {e : Entry}
    {outcome : Outcome} {time : Input} {now : Nat} (hentry : r.entries[handle]? = some e)
    (hopen : r.finalized = none) (hpending : e.ended = none)
    (harguments : twoArguments outcomeOf arguments = some (outcome, time))
    (hclock : r.clock time = some now) :
    Ends (finish series handle arguments) r fun x t => x = .ok () ∧ t = if outcome = .UNKNOWN then
      (Window.finished series r handle e outcome now).stop .outcome_unknown
        else Window.finished series r handle e outcome now := by
  unfold finish
  refine ends_get.mpr (ends_orFail.mpr
    ⟨fun hnone => absurd (hentry.symm.trans hnone) (Option.some_ne_none _), fun a ha => ?_⟩)
  obtain rfl := Option.some.inj (hentry.symm.trans ha)
  refine ends_assertOpen.mpr ⟨fun hfinal => absurd hopen hfinal, fun _ => ?_⟩
  refine ends_taintIf.mpr ⟨fun hended => absurd hpending hended, fun _ => ?_⟩
  refine ends_orTaint.mpr
    ⟨fun hnone => absurd (harguments.symm.trans hnone) (Option.some_ne_none _), fun a ha => ?_⟩
  obtain rfl := Option.some.inj (harguments.symm.trans ha)
  refine ends_orTaint.mpr ⟨fun hnone => absurd (hclock.symm.trans hnone) (Option.some_ne_none _),
    fun a ha => ?_⟩
  obtain rfl := Option.some.inj (hclock.symm.trans ha)
  exact ends_modify.mpr (ends_modify.mpr (ends_modify.mpr ⟨rfl, rfl⟩))

/-- A check of a balance is made, or what is checked is no balance. -/
theorem check_returns {input : Input} (hopen : r.finalized = none)
    (hchecks : r.balanceChecks < r.limits.maxSamplesPerPhase) :
    Ends (recordLedgerBalanceCheck [input]) r fun x t =>
      (x = .error .balance_input_rejected ∧ t = r.tainted .balance_input_rejected)
        ∨ ∃ matching, x = .ok matching ∧ t = if matching = true then r.compared matching
          else (r.compared matching).stop .balance_mismatch := by
  unfold recordLedgerBalanceCheck
  refine ends_assertOpen.mpr ⟨fun hfinal => absurd hopen hfinal, fun _ => ?_⟩
  refine ends_orTaint.mpr ⟨nofun, fun a ha => ends_get.mpr ?_⟩
  refine ends_taintIf.mpr ⟨fun hle => absurd hchecks (not_lt.mpr hle), fun _ => ?_⟩
  refine ends_orTaint.mpr ⟨fun _ => .inl ⟨rfl, rfl⟩, fun (observed, expected) _ => ?_⟩
  exact ends_modify.mpr (ends_modify.mpr (.inr ⟨_, rfl, rfl⟩))

theorem ends_noArguments_nil {β : Type} {Q : Except Kind β → Recorder σ → Prop}
    {f : Unit → Work σ β} :
    Ends (noArguments [] >>= f) r Q ↔ Ends (f ()) r Q := by
  refine ends_of_returns (a := ()) ?_
  unfold noArguments
  refine exec_eq_of_ends (ends_get.mpr (ends_failIf.mpr ⟨fun hne => absurd rfl hne.1, fun _ => ?_⟩))
  unfold taintIf
  rw [if_neg (not_not.mpr rfl)]
  exact ⟨rfl, rfl⟩

theorem inspect_returns {series : Series σ} :
    Ends (inspect series []) r fun x t => (∃ i, x = .ok i) ∧ t = r := by
  unfold inspect
  exact ends_noArguments_nil.mpr (ends_get.mpr ⟨⟨_, rfl⟩, rfl⟩)

theorem finalize_returns {series : Series σ} (hopen : r.finalized = none) :
    Ends (finalize series []) r
    fun x t => x = .ok (r.report series) ∧ t = r.finish series r.finalIssue (r.report series) := by
  unfold finalize
  refine ends_noArguments_nil.mpr (ends_get.mpr ?_)
  rw [hopen]
  exact ends_modify.mpr ⟨rfl, rfl⟩

namespace Window

/-! ### Rules -/

section Rules

variable {α β : Type} {s : State σ} {Q : Except Fault β → State σ → Prop} {code : Code}

theorem ends_taint {Q : Except Fault α → State σ → Prop} :
    Ends (taint code : Work σ α) s Q ↔ Q (.error (.window code)) (s.tainted code) := Iff.rfl

theorem ends_orTaint {o : Option α} {f : α → Work σ β} : Ends (orTaint o code >>= f) s Q ↔
    (o = none → Q (.error (.window code)) (s.tainted code)) ∧ ∀ a, o = some a → Ends (f a) s Q := by
  rw [ends_bind]
  cases o with
  | none => simp [orTaint, ends_taint]
  | some a => simp [orTaint, ends_pure]

theorem ends_taintIf {c : Prop} [Decidable c] {f : Unit → Work σ β} :
    Ends (taintIf c code >>= f) s Q ↔
    (c → Q (.error (.window code)) (s.tainted code)) ∧ (¬ c → Ends (f ()) s Q) := by
  rw [ends_bind]
  unfold taintIf
  by_cases h : c
  · simp [h, ends_taint]
  · simp [h, ends_pure]

theorem ends_refuse {Q : Except Fault α → State σ → Prop} :
    Ends (refuse code : Work σ α) s Q ↔ Q (.error (.window code)) (s.refuse.tainted code) := Iff.rfl

theorem ends_orRefuse {o : Option α} {f : α → Work σ β} : Ends (orRefuse o code >>= f) s Q ↔
    (o = none → Q (.error (.window code)) (s.refuse.tainted code)) ∧ ∀ a, o = some a →
    Ends (f a) s Q := by
  rw [ends_bind]
  cases o with
  | none => simp [orRefuse, ends_refuse]
  | some a => simp [orRefuse, ends_pure]

theorem ends_refuseIf {c : Prop} [Decidable c] {f : Unit → Work σ β} :
    Ends (refuseIf c code >>= f) s Q ↔
    (c → Q (.error (.window code)) (s.refuse.tainted code)) ∧ (¬ c → Ends (f ()) s Q) := by
  rw [ends_bind]
  unfold refuseIf
  by_cases h : c
  · simp [h, ends_refuse]
  · simp [h, ends_pure]

theorem ends_assertOpen {f : Unit → Work σ β} : Ends (assertOpen >>= f) s Q ↔
    (s.final ≠ none → Q (.error (.window (.recorder .finalized))) s)
      ∧ (s.final = none → Ends (f ()) s Q) := by
  rw [ends_bind]
  unfold assertOpen
  rw [ends_get]
  unfold failIf
  by_cases h : s.final = none
  · simp [h, ends_pure]
  · simp [h, ends_throw]

/-- A call of the recorder of a cohort, by what that recorder does. -/
theorem ends_within {cohort : Cohort} {work : Capacity.Work σ α}
    {Q : Except Fault α → State σ → Prop} :
    Ends (within cohort work) s Q ↔ Ends work (s.cohorts cohort) fun x r => match x with
      | .ok a => Q (.ok a) (s.withCohort cohort r)
      | .error kind => Q (.error (.cohort kind)) ((s.withCohort cohort r).failing kind) := by
  unfold Ends
  rcases h : work.exec (s.cohorts cohort) with ⟨_ | _, r⟩ <;>
    simp only [Prog.exec, within, ExceptT.run, ExceptT.mk, StateT.run] at h ⊢ <;> simp only [h]

/-- A call that returns. -/
theorem ends_within_returns {cohort : Cohort} {work : Capacity.Work σ α} {f : α → Work σ β}
    {P : α → Recorder σ → Prop} (h : Ends work (s.cohorts cohort) fun x r => ∃ a, x = .ok a ∧ P a r)
    (hrest : ∀ a r, P a r → Ends (f a) (s.withCohort cohort r) Q) :
    Ends (within cohort work >>= f) s Q := by
  refine ends_bind.mpr (ends_within.mpr (h.mono fun x r hx => ?_))
  obtain ⟨a, rfl, hp⟩ := hx
  exact hrest a r hp

end Rules

/-! ### What every call comes to -/

variable {s t : State σ} {series : Series σ}

/-- What a call may come to: the invariant holds after it, and a recorder of a cohort fails only
where the call is refused for it. -/
structure Sound {α : Type} (s : State σ) (x : Except Fault α) (t : State σ) : Prop where
  inv : Inv t
  caught : ∀ kind, x ≠ .error (.cohort kind)
  failures : t.failures = s.failures ∨ x = .error (.window (.recorder .balance_input_rejected))
  limits : t.limits = s.limits

theorem sound_refused {α : Type} (hs : Inv s) (hl : Like s t) (hfailures : t.failures = s.failures)
    (code : Code) :
    @Sound σ α s (.error (.window code)) t :=
  ⟨hs.like hl hfailures, nofun, .inl hfailures, hl.limits⟩

theorem clock_some {time : Input} {n : Nat} (h : s.clock time = some n) :
    time = .bigint n ∧ s.lastTime.getD 0 ≤ n ∧ n ≤ MAX := by
  unfold State.clock at h
  split at h
  · rename_i m
    split at h
    · rename_i hm
      obtain rfl := Option.some.inj h
      exact ⟨by rw [Int.toNat_of_nonneg hm.1], hm.2.2, by omega⟩
    · cases h
  · cases h

/-- A recorder of a cohort accepts the times that the window recorder does. -/
theorem Linked.clock {cohort : Cohort} (h : Linked s cohort) {time : Input} {now : Nat}
    (hclock : s.clock time = some now) :
    (s.cohorts cohort).clock time = some now := by
  obtain ⟨rfl, hle, hmax⟩ := clock_some hclock
  have htime := h.time.trans hle
  have hbounds : (0 : Int) ≤ now ∧ (now : Int) ≤ MAX ∧ (s.cohorts cohort).lastTime.getD 0
      ≤ (now : Int).toNat :=
    ⟨Int.natCast_nonneg now, by omega, by simpa using htime⟩
  exact (if_pos hbounds).trans (congrArg some (Int.toNat_natCast now))

/-- An open state after a call that has counted something. -/
theorem inv_recorded (hs : Inv s) (hopen : s.final = none) (hr : Recording t)
    (hlimits : t.limits = s.limits)
    (hflight : ∀ name, inFlight t.handles name ≤ inFlight s.handles name)
    (hfinal : t.final = s.final) (hfailures : t.failures ≠ [] → t.issue ≠ none) : Inv t where
  failures := hfailures
  inFlight name := by
    rw [hlimits]
    exact (hflight name).trans (hs.inFlight name)
  recording _ := hr
  accounted report hreport :=
    absurd ((hfinal.trans hopen).symm.trans hreport) (Option.some_ne_none report).symm

theorem startWarmup_sound (hs : Inv s) (arguments : List Input) :
    Ends (startWarmup arguments) s (Sound s) := by
  unfold startWarmup
  refine ends_assertOpen.mpr ⟨fun _ => sound_refused hs (like_refl s) rfl _, fun hopen => ?_⟩
  refine ends_orTaint.mpr ⟨fun _ => sound_refused hs (like_tainted _) rfl _,
    fun time _ => ends_get.mpr ?_⟩
  refine ends_taintIf.mpr ⟨fun _ => sound_refused hs (like_tainted _) rfl _, fun hphase => ?_⟩
  refine ends_taintIf.mpr ⟨fun _ => sound_refused hs (like_tainted _) rfl _, fun _ => ?_⟩
  refine ends_orTaint.mpr ⟨fun _ => sound_refused hs (like_tainted _) rfl _,
    fun now hclock => ends_modify.mpr ?_⟩
  have hrecording := ((hs.recording hopen).like (like_tick (clock_some hclock).2.1)).warmUp
    (not_not.mp hphase) now
  exact ⟨inv_recorded hs hopen hrecording rfl (fun _ => le_rfl) rfl hs.failures, nofun,
    .inl rfl, rfl⟩

theorem startMeasurement_sound (hs : Inv s) (arguments : List Input) :
    Ends (startMeasurement arguments) s (Sound s) := by
  unfold startMeasurement
  refine ends_assertOpen.mpr ⟨fun _ => sound_refused hs (like_refl s) rfl _, fun hopen => ?_⟩
  refine ends_orTaint.mpr ⟨fun _ => sound_refused hs (like_tainted _) rfl _,
    fun time _ => ends_get.mpr ?_⟩
  refine ends_taintIf.mpr ⟨fun _ => sound_refused hs (like_tainted _) rfl _, fun hphase => ?_⟩
  refine ends_taintIf.mpr ⟨fun _ => sound_refused hs (like_tainted _) rfl _, fun _ => ?_⟩
  refine ends_orTaint.mpr ⟨fun _ => sound_refused hs (like_tainted _) rfl _,
    fun now hclock => ends_modify.mpr ?_⟩
  have hearly : s.phase = .CREATED ∨ s.phase = .WARMUP := by
    rcases not_and_or.mp hphase with hcreated | hwarm
    · exact .inl (not_not.mp hcreated)
    · exact .inr (not_not.mp hwarm)
  have hrecording := ((hs.recording hopen).like (like_tick (clock_some hclock).2.1)).measure
    hearly now
  exact ⟨inv_recorded hs hopen hrecording rfl (fun _ => le_rfl) rfl hs.failures, nofun,
    .inl rfl, rfl⟩

theorem stopMeasurement_sound (hs : Inv s) (arguments : List Input) :
    Ends (stopMeasurement arguments) s (Sound s) := by
  unfold stopMeasurement
  refine ends_assertOpen.mpr ⟨fun _ => sound_refused hs (like_refl s) rfl _, fun hopen => ?_⟩
  refine ends_orTaint.mpr ⟨fun _ => sound_refused hs (like_tainted _) rfl _,
    fun time _ => ends_get.mpr ?_⟩
  refine ends_taintIf.mpr ⟨fun _ => sound_refused hs (like_tainted _) rfl _, fun hphase => ?_⟩
  refine ends_orTaint.mpr ⟨fun _ => sound_refused hs (like_tainted _) rfl _, fun now hclock => ?_⟩
  refine ends_taintIf.mpr ⟨fun _ => sound_refused hs (like_tainted _) rfl _,
    fun hwindow => ends_modify.mpr ?_⟩
  have hlater (start : Nat) (hstart : s.measurementStart = some start) : start < now :=
    not_le.mp fun hle => hwindow ⟨start, hstart, hle⟩
  have hrecording := ((hs.recording hopen).like (like_tick (clock_some hclock).2.1)).drain
    (not_not.mp hphase) hlater
  exact ⟨inv_recorded hs hopen hrecording rfl (fun _ => le_rfl) rfl hs.failures, nofun,
    .inl rfl, rfl⟩

theorem start_sound (hs : Inv s) (arguments : List Input) : Ends (start arguments) s (Sound s) := by
  unfold start
  refine ends_assertOpen.mpr ⟨fun _ => sound_refused hs (like_refl s) rfl _,
    fun hopen => ends_get.mpr ?_⟩
  refine ends_refuseIf.mpr ⟨fun _ => sound_refused hs (like_refused _) rfl _, fun hstopped => ?_⟩
  refine ends_orRefuse.mpr ⟨fun _ => sound_refused hs (like_refused _) rfl _,
    fun (name, time) harguments => ?_⟩
  refine ends_refuseIf.mpr ⟨fun _ => sound_refused hs (like_refused _) rfl _, fun hphase => ?_⟩
  refine ends_orRefuse.mpr ⟨fun _ => sound_refused hs (like_refused _) rfl _, fun now hclock => ?_⟩
  refine ends_refuseIf.mpr ⟨fun _ => sound_refused hs (like_refused _) rfl _, fun hentered => ?_⟩
  refine ends_refuseIf.mpr ⟨fun _ => sound_refused hs (like_refused _) rfl _, fun hactive => ?_⟩
  have hr := hs.recording hopen
  have hlinked := hr.linked s.begins
  have hopenPhase : s.phase = .WARMUP ∨ s.phase = .MEASURING := by
    rcases not_and_or.mp hphase with hwarm | hmeasuring
    · exact .inl (not_not.mp hwarm)
    · exact .inr (not_not.mp hmeasuring)
  -- The window recorder counts what both cohorts have, so its limits are reached first.
  have hcount : (s.cohorts s.begins).limits.maxSamplesPerPhase = s.limits.maxSamplesPerPhase := by
    rw [hlinked.limits]
  have hcount' : (s.cohorts s.begins).limits.maxInFlightPerPhase
      = s.limits.maxInFlightPerPhase := by rw [hlinked.limits]
  have hless : ((s.cohorts s.begins).lanes name).entered ≤ (s.lanes name).entered := by
    rw [hlinked.covers.entered, (hr.lanes name).entered]
    cases s.begins <;> omega
  have hless' : ((s.cohorts s.begins).lanes name).active.length ≤ (s.lanes name).active := by
    rw [hlinked.covers.active, (hr.lanes name).active]
    unfold inFlight
    cases s.begins <;> omega
  have hreturns := @start_returns σ (s.cohorts s.begins) arguments name time now hlinked.opened
    (hlinked.stopped (not_not.mp hstopped))
    harguments (hlinked.clock hclock) (by omega) (by omega)
  refine ends_within_returns (P := fun base r => base = (s.cohorts s.begins).entries.length ∧
    r = ((s.cohorts s.begins).tick now).enter name now)
    (hreturns.mono fun x r hx => ⟨_, hx.1, rfl, hx.2⟩) fun base r hp => ?_
  obtain ⟨rfl, rfl⟩ := hp
  refine ends_modify.mpr (ends_modify.mpr ?_)
  have hle := (clock_some hclock).2.1
  have hrecording := hr.begun hopenPhase hle (not_le.mp hentered)
  have hflight := inFlight_begun hr now s.begins (not_le.mp hactive) hs.inFlight
  have hinv : Inv (s.begun name s.begins now) :=
    ⟨hs.failures, hflight, fun _ => hrecording,
      fun report hreport => absurd (hopen.symm.trans hreport) (Option.some_ne_none report).symm⟩
  exact ⟨hinv, nofun, .inl rfl, rfl⟩

theorem withCohort_idem (s : State σ) (cohort : Cohort) (r r' : Recorder σ) :
    (s.withCohort cohort r).withCohort cohort r' = s.withCohort cohort r' := by
  simp [State.withCohort]

theorem finish_sound (hs : Inv s) (handle : Nat) (arguments : List Input) :
    Ends (finish series handle arguments) s (Sound s) := by
  unfold finish
  refine ends_get.mpr (ends_orFail.mpr ⟨fun _ => sound_refused hs (like_refl s) rfl _,
    fun entry hentry => ?_⟩)
  refine ends_assertOpen.mpr ⟨fun _ => sound_refused hs (like_refl s) rfl _, fun hopen => ?_⟩
  refine ends_taintIf.mpr ⟨fun _ => sound_refused hs (like_tainted _) rfl _, fun hpending => ?_⟩
  refine ends_orTaint.mpr ⟨fun _ => sound_refused hs (like_tainted _) rfl _,
    fun (outcome, time) harguments => ?_⟩
  refine ends_orTaint.mpr ⟨fun _ => sound_refused hs (like_tainted _) rfl _, fun now hclock => ?_⟩
  have hr := hs.recording hopen
  have hlinked := hr.linked entry.cohort
  have hpending := not_not.mp hpending
  have hle := (clock_some hclock).2.1
  obtain ⟨e, he, hlane, hended⟩ := (hlinked.covers.backs handle entry hentry rfl).entry
  have hreturns := @finish_returns σ (s.cohorts entry.cohort) series entry.base arguments e outcome
    time now he hlinked.opened
    (hended hpending) harguments (hlinked.clock hclock)
  refine ends_within_returns (P := fun _ r => r = if outcome = .UNKNOWN then
    (finished series (s.cohorts entry.cohort) entry.base e outcome now).stop .outcome_unknown
      else finished series (s.cohorts entry.cohort) entry.base e outcome now)
    (hreturns.mono fun x r hx => ⟨(), hx⟩) fun _ r hp => ?_
  subst hp
  have hrecording : Recording (s.ended series handle entry e outcome now) :=
    hr.ended hentry hpending hlane outcome hle
  have hflight (name : Phase) :=
    @inFlight_ended σ s handle entry e series hentry hpending outcome now name
  refine ends_modify.mpr (ends_modify.mpr ?_)
  by_cases hunknown : outcome = .UNKNOWN
  · rw [if_pos hunknown,
      ← withCohort_idem s entry.cohort
      (finished series (s.cohorts entry.cohort) entry.base e outcome now)]
    -- Both recorders stop, so the cohort's one is stopped only if the window recorder is.
    have hstop := @Recording.replaced σ _
      (hrecording.like (like_stop (.recorder .outcome_unknown))) entry.cohort
      ((finished series (s.cohorts entry.cohort) entry.base e outcome now).stop .outcome_unknown)
    have hself : ((s.ended series handle entry e outcome now).stop
        (.recorder .outcome_unknown)).cohorts entry.cohort
        = finished series (s.cohorts entry.cohort) entry.base e outcome now :=
          Function.update_self ..
    have hkept := (hrecording.like (like_stop (.recorder .outcome_unknown))).linked entry.cohort
    rw [hself] at hstop
    have hissue := hkept.issue
    have hchecks := hkept.checks
    rw [hself] at hissue hchecks
    have hboth := hstop rfl rfl rfl rfl rfl nofun hissue hchecks
    show Sound s (.ok ()) ((fun s : State σ => if outcome = .UNKNOWN then s.stop
      (.recorder .outcome_unknown) else s) _)
    simp only [if_pos hunknown]
    exact ⟨inv_recorded hs hopen hboth rfl hflight rfl hs.failures, nofun, .inl rfl, rfl⟩
  · rw [if_neg hunknown]
    show Sound s (.ok ()) ((fun s : State σ => if outcome = .UNKNOWN then s.stop
      (.recorder .outcome_unknown) else s) _)
    simp only [if_neg hunknown]
    exact ⟨inv_recorded hs hopen hrecording rfl hflight rfl hs.failures, nofun, .inl rfl, rfl⟩

/-- A balance that was checked, by the recorder of a cohort too. -/
theorem checked_recording (hr : Recording s) (cohort : Cohort) (matching : Bool) {now : Nat}
    (hnow : s.lastTime.getD 0 ≤ now) (hl : Like ((s.compared matching).tick now) t)
    (hstopped : matching = false → t.stopped ≠ none)
    (hchecks : t.balanceChecks = s.balanceChecks + 1) :
    Recording (t.withCohort cohort (if matching = true
      then (s.cohorts cohort).compared matching
      else ((s.cohorts cohort).compared matching).stop .balance_mismatch)) := by
  have hfirst : Like s ((s.compared matching).tick now) :=
    ⟨rfl, rfl, rfl, rfl, rfl, rfl, rfl, rfl, rfl, Nat.le_succ _, hnow, id, id⟩
  have hlike := hfirst.trans hl
  have hlinked := hr.linked cohort
  have hsame : t.cohorts cohort = s.cohorts cohort := congrFun hlike.cohorts cohort
  have hcounted : (s.cohorts cohort).balanceChecks + 1 ≤ t.balanceChecks := by
    rw [hchecks]
    exact Nat.succ_le_succ hlinked.checks
  have hrecording := hr.like hlike
  cases matching with
  | true =>
    exact hrecording.replaced (by rw [hsame]; rfl) (by rw [hsame]; rfl) (by rw [hsame]; rfl)
      (by rw [hsame]; rfl) (by rw [hsame]; rfl)
      (fun hs => hlinked.stopped (hlike.stopped hs))
      (fun hs => hlinked.issue (hlike.issue hs)) hcounted
  | false =>
    exact hrecording.replaced (by rw [hsame]; rfl) (by rw [hsame]; rfl) (by rw [hsame]; rfl)
      (by rw [hsame]; rfl) (by rw [hsame]; rfl)
      (fun hs => absurd hs (hstopped rfl)) (fun hs => hlinked.issue (hlike.issue hs)) hcounted

theorem recordLedgerBalanceCheck_sound (hs : Inv s) (arguments : List Input) :
    Ends (recordLedgerBalanceCheck arguments) s (Sound s) := by
  unfold recordLedgerBalanceCheck
  refine ends_assertOpen.mpr ⟨fun _ => sound_refused hs (like_refl s) rfl _, fun hopen => ?_⟩
  refine ends_orTaint.mpr ⟨fun _ => sound_refused hs (like_tainted _) rfl _,
    fun (input, time) _ => ends_get.mpr ?_⟩
  refine ends_taintIf.mpr ⟨fun _ => sound_refused hs (like_tainted _) rfl _, fun _ => ?_⟩
  refine ends_orTaint.mpr ⟨fun _ => sound_refused hs (like_tainted _) rfl _, fun now hclock => ?_⟩
  refine ends_taintIf.mpr ⟨fun _ => sound_refused hs (like_tainted _) rfl _, fun hsamples => ?_⟩
  have hr := hs.recording hopen
  have hlinked := hr.linked s.begins
  have hle := (clock_some hclock).2.1
  have hfew : (s.cohorts s.begins).balanceChecks
      < (s.cohorts s.begins).limits.maxSamplesPerPhase := by
    have hchecks := hlinked.checks
    rw [hlinked.limits]
    omega
  refine ends_tryCatch.mpr
    (ends_within.mpr ((@check_returns σ _ input hlinked.opened hfew).mono fun x r hx => ?_))
  rcases hx with ⟨rfl, rfl⟩ | ⟨matching, rfl, rfl⟩
  · -- The recorder of the cohort has an issue now, and so has this one.
    refine ends_bind.mpr (ends_taint.mpr ?_)
    have hlike : Like s ((s.failing .balance_input_rejected).tainted
        (.recorder .balance_input_rejected)) :=
      ⟨rfl, rfl, rfl, rfl, rfl, rfl, rfl, rfl, rfl, le_rfl, le_rfl, nofun, nofun⟩
    have hrecording := @Recording.replaced σ _ (hr.like hlike) s.begins
      ((s.cohorts s.begins).tainted .balance_input_rejected)
      rfl rfl rfl rfl rfl nofun nofun hlinked.checks
    exact ⟨inv_recorded hs hopen hrecording rfl (fun _ => le_rfl) rfl fun _ => nofun, nofun,
      .inr rfl, rfl⟩
  · refine ends_modify.mpr (ends_modify.mpr (ends_modify.mpr ?_))
    cases matching with
    | true =>
      have hrecording := checked_recording hr s.begins true hle (like_refl _) nofun rfl
      exact ⟨inv_recorded hs hopen hrecording rfl (fun _ => le_rfl) rfl hs.failures, nofun,
        .inl rfl, rfl⟩
    | false =>
      have hrecording := checked_recording hr s.begins false hle
        (like_stop (.recorder .balance_mismatch)) (fun _ => nofun) rfl
      exact ⟨inv_recorded hs hopen hrecording rfl (fun _ => le_rfl) rfl hs.failures, nofun,
        .inl rfl, rfl⟩

theorem withCohort_self (s : State σ) (cohort : Cohort) :
    s.withCohort cohort (s.cohorts cohort) = s := by
  simp [State.withCohort]

theorem withCohort_other (s : State σ) {cohort other : Cohort} (r : Recorder σ)
    (h : other ≠ cohort) :
    (s.withCohort cohort r).cohorts other = s.cohorts other := Function.update_of_ne h ..

theorem inspect_sound (hs : Inv s) (arguments : List Input) :
    Ends (inspect series arguments) s (Sound s) := by
  unfold inspect
  refine ends_get.mpr (ends_failIf.mpr ⟨fun _ => sound_refused hs (like_refl s) rfl _, fun _ => ?_⟩)
  refine ends_taintIf.mpr ⟨fun _ => sound_refused hs (like_tainted _) rfl _, fun _ => ?_⟩
  have hreads (cohort : Cohort) : Ends (Capacity.inspect series []) (s.cohorts cohort)
      fun x r => ∃ i, x = .ok i ∧ r = s.cohorts cohort :=
        inspect_returns.mono fun x r ⟨⟨i, hi⟩, hr⟩ => ⟨i, hi, hr⟩
  refine ends_within_returns (hreads .WARMUP) fun warmup r hr => ?_
  rw [hr, withCohort_self]
  refine ends_within_returns (hreads .MEASUREMENT) fun measurement r hr => ?_
  rw [hr, withCohort_self]
  exact ⟨hs, nofun, .inl rfl, rfl⟩

theorem finalize_sound (hs : Inv s) (arguments : List Input) :
    Ends (finalize series arguments) s (Sound s) := by
  unfold finalize
  refine ends_get.mpr ?_
  cases hfinal : s.final with
  | some report =>
    refine ends_failIf.mpr ⟨fun _ => sound_refused hs (like_refl s) rfl _, fun _ => ?_⟩
    exact ⟨hs, nofun, .inl rfl, rfl⟩
  | none =>
    refine ends_orTaint.mpr ⟨fun _ => sound_refused hs (like_tainted _) rfl _, fun time _ => ?_⟩
    refine ends_orTaint.mpr ⟨fun _ => sound_refused hs (like_tainted _) rfl _,
      fun now _ => ends_modify.mpr ?_⟩
    have hr := hs.recording hfinal
    have hreports (cohort : Cohort) : Ends (Capacity.finalize series []) (s.cohorts cohort)
        fun x r => ∃ a, x = .ok a ∧ a = (s.cohorts cohort).report series :=
      (finalize_returns (hr.linked cohort).opened).mono fun x r hx => ⟨_, hx.1, rfl⟩
    refine ends_within_returns (P := fun a _ => a = (s.cohorts .WARMUP).report series)
      (hreports .WARMUP) fun warmup r hwarmup => ?_
    refine ends_within_returns (P := fun a _ => a = (s.cohorts .MEASUREMENT).report series) ?_
      fun measurement r' hmeasurement => ?_
    · rw [withCohort_other _ _ (by decide)]
      exact hreports .MEASUREMENT
    refine ends_modify.mpr (ends_get.mpr (ends_modify.mpr ?_))
    have haccounted := hr.accounted series now hwarmup hmeasurement
    refine ⟨⟨fun hne hissue => ?_, hs.inFlight, nofun, fun report hreport => ?_⟩, nofun,
      .inl rfl, rfl⟩
    · have hnone : (s.issued warmup measurement).issue = none := hissue
      exact hs.failures hne (finalIssue_none hnone).1
    · obtain rfl := Option.some.inj hreport
      exact haccounted.same rfl rfl rfl rfl

/-- What every call comes to. -/
theorem call_sound (hs : Inv s) {l : Call × Except Fault Result} (h : WindowStep series s l t) :
    Sound s l.2 t := by
  obtain ⟨call, x⟩ := l
  have hmap {α : Type} {p : Work σ α} {f : α → Result} (hp : Ends p s (Sound s)) : Ends (f <$> p) s
      (Sound s) := by
    rw [map_eq_pure_bind, ends_map]
    refine hp.mono fun y u hy =>
      ⟨hy.inv, fun kind hkind => ?_, hy.failures.imp_right fun herror => ?_, hy.limits⟩
    · cases y with
      | ok a => cases hkind
      | error e => exact hy.caught kind (congrArg Except.error (Except.error.inj hkind))
    · rw [herror]
      rfl
  have hends : Ends (call.work series) s (Sound s) := by
    cases call with
    | startWarmup arguments => exact hmap (startWarmup_sound hs arguments)
    | startMeasurement arguments => exact hmap (startMeasurement_sound hs arguments)
    | stopMeasurement arguments => exact hmap (stopMeasurement_sound hs arguments)
    | start arguments => exact hmap (start_sound hs arguments)
    | finish handle arguments => exact hmap (finish_sound hs handle arguments)
    | recordLedgerBalanceCheck arguments => exact hmap (recordLedgerBalanceCheck_sound hs arguments)
    | inspect arguments => exact hmap (inspect_sound hs arguments)
    | finalize arguments => exact hmap (finalize_sound hs arguments)
  unfold Ends at hends
  rw [show (call.work series).exec s = (x, t) from h] at hends
  exact hends

/-! ### Runs -/

theorem run_inv {ls : List (Call × Except Fault Result)} (h : Run (WindowStep series) s ls t)
    (hs : Inv s) :
    Inv t ∧ t.limits = s.limits := by
  refine h.invariant (I := fun t => Inv t ∧ t.limits = s.limits) (fun u v l hu hl => ?_) ⟨hs, rfl⟩
  have hsound := call_sound hu.1 hl
  exact ⟨hsound.inv, hsound.limits.trans hu.2⟩

theorem integer_num {min max n m : Nat} (h : integer min max (.num n) = some m) : m = n := by
  simp only [integer] at h
  split at h
  · exact (Option.some.inj h).symm
  · cases h

/-- The limits that the recorders of the cohorts are created with. -/
theorem limitsOf_options {limits limits' : Limits}
    (h : limitsOf [optionsOf limits] = some limits') : limits' = limits := by
  have hexact : Capacity.exact ["maxSamplesPerPhase", "maxInFlightPerPhase"] (optionsOf limits)
      = some fun k => (([("maxSamplesPerPhase", Input.num limits.maxSamplesPerPhase),
        ("maxInFlightPerPhase", Input.num limits.maxInFlightPerPhase)] :
        List (String × Input)).lookup k).getD .other := by
    simp only [Capacity.exact, optionsOf]
    exact if_pos (List.Perm.refl _)
  have hfirst : List.lookup "maxSamplesPerPhase"
      [("maxSamplesPerPhase", Input.num limits.maxSamplesPerPhase),
        ("maxInFlightPerPhase", Input.num limits.maxInFlightPerPhase)]
          = some (.num limits.maxSamplesPerPhase) := rfl
  have hsecond : List.lookup "maxInFlightPerPhase"
      [("maxSamplesPerPhase", Input.num limits.maxSamplesPerPhase),
        ("maxInFlightPerPhase", Input.num limits.maxInFlightPerPhase)]
          = some (.num limits.maxInFlightPerPhase) := rfl
  simp only [limitsOf, hexact, Option.bind_eq_bind, Option.bind_some, hfirst, hsecond,
    Option.getD_some, Option.bind_eq_some_iff] at h
  obtain ⟨samples, hsamples, inFlight, hinFlight, h⟩ := h
  obtain rfl := integer_num hsamples
  obtain rfl := integer_num hinFlight
  split at h
  · cases h
  · exact (Option.some.inj h).symm

/-- A recorder of a cohort when it is created. -/
theorem create_limits {limits : Limits} (h : Capacity.create series [optionsOf limits] = .ok r) :
    r = ⟨limits, fun _ => ⟨0, 0, 0, 0, 0, 0, series.empty, []⟩, [], none, none, none, none, none,
      0, 0, 0⟩ := by
  simp only [Capacity.create, bind_ok, orReject_ok] at h
  obtain ⟨limits', hlimits, h⟩ := h
  rw [← Except.ok.inj h, limitsOf_options hlimits]

/-- The limits are those that the arguments say. -/
theorem create_limitsOf {arguments : List Input} (h : create series arguments = .ok s) :
    limitsOf arguments = some s.limits := by
  simp only [create, bind_ok, orReject_ok] at h
  obtain ⟨limits, hlimits, _, -, _, -, h⟩ := h
  rw [hlimits, ← Except.ok.inj h]
  rfl

/-- What is created. -/
theorem create_inv {arguments : List Input} (h : create series arguments = .ok s) : Inv s := by
  simp only [create, bind_ok, orReject_ok, mapError_ok] at h
  obtain ⟨limits, -, warmup, hwarmup, measurement, hmeasurement, h⟩ := h
  obtain rfl := create_limits hwarmup
  obtain rfl := create_limits hmeasurement
  obtain rfl := Except.ok.inj h
  have hcovers (cohort : Cohort) :
      Covers (⟨limits, fun _ => ⟨0, 0, 0, 0, 0, 0, series.empty, []⟩, [], none, none, none,
        none, none, 0, 0, 0⟩ : Recorder σ) cohort [] :=
    ⟨fun _ => rfl, fun _ => rfl,
      fun i x hget => by simp at hget, fun i j x y hget => by simp at hget⟩
  refine ⟨fun hne => absurd rfl hne, fun name => Nat.zero_le _,
    fun _ => ⟨fun cohort => ?_, fun name => ?_, ?_, ?_, fun i x hget => ?_,
      fun name => Nat.zero_le _⟩, fun report hreport => ?_⟩
  · cases cohort <;> exact ⟨rfl, rfl, le_rfl, fun _ => rfl, fun _ => rfl, le_rfl, hcovers _⟩
  · exact ⟨rfl, rfl, fun _ => rfl,
      fun c => by cases c <;> exact ⟨rfl, rfl⟩, fun c => by cases c <;> exact ⟨rfl, rfl⟩⟩
  · refine ⟨fun _ x hx => absurd hx List.not_mem_nil, fun x hx => absurd hx List.not_mem_nil,
      fun h => ?_, fun stop h => ?_, fun h => ?_⟩
    · cases h
    · cases h
    · cases h
  · exact fun h => by cases h
  · simp [initial] at hget
  · cases hreport

/-- In every run of a window recorder: its limits are those of its arguments, and no more handles
are in flight than they allow; a report accounts for every handle; a cohort's recorder has failed
only where there is an issue, and fails in a call only if that call is refused for it. -/
theorem window_accounts {arguments : List Input} {s w : State (List Nat × List Nat)}
    {ls : List (Call × Except Fault Result)}
    (hcreate : createServiceCreditCapacityWindowRecorder arguments = .ok s)
    (hrun : Run (WindowStep unpacked) s ls w) :
    limitsOf arguments = some w.limits
      ∧ (∀ name, inFlight w.handles name ≤ w.limits.maxInFlightPerPhase)
      ∧ (∀ report, w.final = some report → Accounted w report)
      ∧ (w.failures ≠ [] → w.issue ≠ none)
      ∧ ∀ l t, WindowStep unpacked w l t → (∀ kind, l.2 ≠ .error (.cohort kind))
        ∧ (t.failures ≠ w.failures →
          l.2 = .error (.window (.recorder .balance_input_rejected))) := by
  obtain ⟨hinv, hlimits⟩ := run_inv hrun (create_inv hcreate)
  refine ⟨hlimits ▸ create_limitsOf hcreate, hinv.inFlight, hinv.accounted, hinv.failures,
    fun l t hstep => ?_⟩
  have hsound := call_sound hinv hstep
  exact ⟨hsound.caught, fun hne => hsound.failures.resolve_left hne⟩

/-- The state after calls. -/
def after (s : State (List Nat × List Nat)) : List Call → State (List Nat × List Nat)
  | [] => s
  | call :: calls => after ((call.work unpacked).exec s).2 calls

theorem run_after (calls : List Call) :
    ∀ s, Run (WindowStep unpacked) s (calls.zip (answers (Call.work unpacked) s calls))
    (after s calls) := by
  induction calls with
  | nil => exact fun s => .nil s
  | cons call calls ih => exact fun s => .cons rfl (ih _)

namespace Sample

def options : List Input := [.obj [("maxSamplesPerPhase", .num 2), ("maxInFlightPerPhase", .num 1)]]

def recorder : Recorder (List Nat × List Nat) :=
  ⟨⟨2, 1⟩, fun _ => ⟨0, 0, 0, 0, 0, 0, unpacked.empty, []⟩, [], none, none, none, none,
    none, 0, 0, 0⟩

def window : State (List Nat × List Nat) := initial ⟨2, 1⟩ recorder recorder

/-- One success in a window of ten nanoseconds, after a warm-up handle that ends after it. -/
def calls : List Call :=
  [.startWarmup [.bigint 0], .start [.str "FUNDING", .bigint 1], .startMeasurement [.bigint 2],
    .start [.str "FUNDED_CALL", .bigint 3], .finish 1 [.str "SUCCEEDED", .bigint 5],
    .stopMeasurement [.bigint 12],
  .finish 0 [.str "SUCCEEDED", .bigint 13], .finalize [.bigint 14]]

end Sample

theorem window_accounts_sample :
    ((after Sample.window Sample.calls).final.map fun report => report.phases.map
      fun p => p.2.successfulWindowCompletionRatio)
        = some [none, some ⟨"1000000000", "10"⟩, none]
      ∧ ∀ report, (after Sample.window Sample.calls).final = some report →
        Accounted (after Sample.window Sample.calls) report := by
  have hcreate : createServiceCreditCapacityWindowRecorder Sample.options = .ok Sample.window := rfl
  exact ⟨by decide, (window_accounts hcreate (run_after Sample.calls Sample.window)).2.2.1⟩

end Window
end Capacity
end ZenonX402
