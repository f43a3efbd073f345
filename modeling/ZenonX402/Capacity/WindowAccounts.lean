/-
# The accounts of a capacity window

What the counters of a window recorder and of the recorders of its two cohorts come to, over the
handles that were returned: each of them counts the handles of a kind (`Lane.Tallies`, `Covers`).
Every handle stands for an entry of its cohort's recorder (`Handle.Backs`), no two for the same one,
so what the window recorder lets through, the other one lets through too (`Linked`).

Key definitions: `Handle.entersIn`, `Handle.pendingIn`, `Handle.endedIn`, `Lane.Tallies`, `Covers`,
`Linked`, `Staged`.
Key theorems: `Lane.Tallies.enter`, `Lane.Tallies.close`, `Covers.enter`, `Covers.close`.
-/
import ZenonX402.Capacity.Runs
import ZenonX402.Capacity.Window

namespace ZenonX402
namespace Capacity
namespace Window

open Js Prog

variable {σ : Type}

/-! ### Kinds of handles -/

namespace Handle

def entersIn (name : Phase) (cohort : Cohort) (h : Handle) : Bool :=
  h.lane = name ∧ h.cohort = cohort

def pendingIn (name : Phase) (cohort : Cohort) (h : Handle) : Bool :=
  h.lane = name ∧ h.cohort = cohort ∧ h.finished = none

/-- Finished in a stage. -/
def settledIn (name : Phase) (cohort : Cohort) (stage : Stage) (h : Handle) : Bool :=
  h.lane = name ∧ h.cohort = cohort ∧ h.finished.map Prod.fst = some stage

/-- Finished in a stage with an outcome. -/
def endedIn (name : Phase) (cohort : Cohort) (stage : Stage) (outcome : Outcome)
    (h : Handle) : Bool :=
  h.lane = name ∧ h.cohort = cohort ∧ h.finished = some (stage, outcome)

/-- The handle after it was finished. -/
def ending (stage : Stage) (outcome : Outcome) (h : Handle) : Handle :=
  { h with finished := some (stage, outcome) }

end Handle

/-- How many handles of a lane are in flight. -/
def inFlight (handles : List Handle) (name : Phase) : Nat :=
  handles.countP (Handle.pendingIn name .WARMUP)
    + handles.countP (Handle.pendingIn name .MEASUREMENT)

variable {handles : List Handle} {index : Nat} {entry : Handle}

theorem countP_enter (q : Handle → Bool) (h : Handle) :
    (handles ++ [h]).countP q = handles.countP q + (q h).toNat := by
  rw [List.countP_append, List.countP_singleton]
  cases q h <;> rfl

/-- A pending handle is not counted as pending any more after it is finished. -/
theorem pending_close (hentry : handles[index]? = some entry) (hpending : entry.finished = none)
    (stage : Stage) (outcome : Outcome) (name : Phase) (cohort : Cohort) :
    (handles.modify index (Handle.ending stage outcome)).countP (Handle.pendingIn name cohort)
      + (entry.entersIn name cohort).toNat = handles.countP (Handle.pendingIn name cohort) := by
  have hcount := @countP_modify _ (Handle.pendingIn name cohort)
    (Handle.ending stage outcome) _ _ _ hentry
  have hbefore : entry.pendingIn name cohort = entry.entersIn name cohort := by
    simp [Handle.pendingIn, Handle.entersIn, hpending]
  have hafter : (entry.ending stage outcome).pendingIn name cohort = false := by
    simp [Handle.pendingIn, Handle.ending]
  rw [hbefore, hafter] at hcount
  exact hcount

theorem enters_close (hentry : handles[index]? = some entry) (stage : Stage) (outcome : Outcome)
    (name : Phase) (cohort : Cohort) :
    (handles.modify index (Handle.ending stage outcome)).countP (Handle.entersIn name cohort)
      = handles.countP (Handle.entersIn name cohort) := by
  have hcount := @countP_modify _ (Handle.entersIn name cohort)
    (Handle.ending stage outcome) _ _ _ hentry
  have hsame : (entry.ending stage outcome).entersIn name cohort = entry.entersIn name cohort := rfl
  rw [hsame] at hcount
  exact Nat.add_right_cancel hcount

theorem settled_close (hentry : handles[index]? = some entry) (hpending : entry.finished = none)
    (stage : Stage) (outcome : Outcome) (name : Phase) (cohort : Cohort) (other : Stage) :
    (handles.modify index (Handle.ending stage outcome)).countP (Handle.settledIn name cohort other)
      = handles.countP (Handle.settledIn name cohort other)
      + (entry.entersIn name cohort && decide (stage = other)).toNat := by
  have hcount := @countP_modify _ (Handle.settledIn name cohort other)
    (Handle.ending stage outcome) _ _ _ hentry
  have hbefore : entry.settledIn name cohort other = false := by simp [Handle.settledIn, hpending]
  have hafter : (entry.ending stage outcome).settledIn name cohort other
      = (entry.entersIn name cohort && decide (stage = other)) := by
    simp [Handle.settledIn, Handle.entersIn, Handle.ending, Bool.and_assoc]
  rw [hbefore, hafter] at hcount
  exact hcount

theorem ended_close (hentry : handles[index]? = some entry) (hpending : entry.finished = none)
    (stage : Stage) (outcome : Outcome) (name : Phase) (cohort : Cohort) (other : Stage)
    (o : Outcome) :
    (handles.modify index (Handle.ending stage outcome)).countP (Handle.endedIn name cohort other o)
      = handles.countP (Handle.endedIn name cohort other o)
        + (entry.entersIn name cohort && decide (stage = other) && decide (outcome = o)).toNat := by
  have hcount := @countP_modify _ (Handle.endedIn name cohort other o)
    (Handle.ending stage outcome) _ _ _ hentry
  have hbefore : entry.endedIn name cohort other o = false := by simp [Handle.endedIn, hpending]
  have hafter : (entry.ending stage outcome).endedIn name cohort other o
      = (entry.entersIn name cohort && decide (stage = other) && decide (outcome = o)) := by
    simp [Handle.endedIn, Handle.entersIn, Handle.ending, Bool.and_assoc]
  rw [hbefore, hafter] at hcount
  exact hcount

/-- What a handle is after one of them was finished. -/
theorem getElem?_close {other : Nat} {h : Handle} {stage : Stage} {outcome : Outcome}
    (hentry : handles[index]? = some entry)
    (hget : (handles.modify index (Handle.ending stage outcome))[other]? = some h) :
    (other = index ∧ h = entry.ending stage outcome)
      ∨ (other ≠ index ∧ handles[other]? = some h) := by
  rw [List.getElem?_modify] at hget
  by_cases hsame : index = other
  · subst hsame
    simp only [if_true, hentry, Option.map_eq_map, Option.map_some, Option.some.injEq] at hget
    exact .inl ⟨rfl, hget.symm⟩
  · obtain ⟨a, ha, hkept⟩ := Option.map_eq_some_iff.mp hget
    rw [if_neg hsame] at hkept
    exact .inr ⟨Ne.symm hsame, hkept ▸ ha⟩

/-! ### The lanes of the window -/

/-- What a lane has counted of a stage. -/
def Lane.counted (lane : Lane) : Stage → Cohort → Counters
  | .DRAINING, .WARMUP => lane.warmupAfter
  | .DRAINING, .MEASUREMENT => lane.measuredAfter
  | _, .WARMUP => lane.warmupInside
  | _, .MEASUREMENT => lane.measuredInside

/-- Counters of the handles that were finished in a stage. -/
structure Counters.Tallies (value : Counters) (handles : List Handle) (name : Phase)
    (cohort : Cohort) (stage : Stage) : Prop where
  settled : value.settled = handles.countP (Handle.settledIn name cohort stage)
  succeeded : value.succeeded = handles.countP (Handle.endedIn name cohort stage .SUCCEEDED)

/-- What a lane counts. -/
structure Lane.Tallies (lane : Lane) (handles : List Handle) (name : Phase) : Prop where
  entered : lane.entered = handles.countP (Handle.entersIn name .WARMUP)
    + handles.countP (Handle.entersIn name .MEASUREMENT)
  active : lane.active = inFlight handles name
  cohortActive : ∀ cohort, lane.cohortActive cohort = handles.countP (Handle.pendingIn name cohort)
  inside : ∀ cohort, (lane.counted .MEASURING cohort).Tallies handles name cohort .MEASURING
  after : ∀ cohort, (lane.counted .DRAINING cohort).Tallies handles name cohort .DRAINING

theorem Lane.Tallies.same {lane other : Lane} {name : Phase} (h : lane.Tallies handles name)
    (hentered : other.entered = lane.entered) (hactive : other.active = lane.active)
    (hcohorts : other.cohortActive = lane.cohortActive)
    (hcounted : ∀ stage cohort, other.counted stage cohort = lane.counted stage cohort) :
    other.Tallies handles name :=
  ⟨hentered.trans h.entered, hactive.trans h.active, fun cohort => hcohorts ▸ h.cohortActive cohort,
    fun cohort => hcounted .MEASURING cohort ▸ h.inside cohort,
    fun cohort => hcounted .DRAINING cohort ▸ h.after cohort⟩

theorem Counters.Tallies.enter {value : Counters} {name : Phase} {cohort : Cohort} {stage : Stage}
    (h : value.Tallies handles name cohort stage) (other : Phase) (cohort' : Cohort) (base : Nat) :
    value.Tallies (handles ++ [⟨other, cohort', base, none⟩]) name cohort stage := by
  refine ⟨?_, ?_⟩
  · rw [countP_enter, h.settled]
    simp [Handle.settledIn]
  · rw [countP_enter, h.succeeded]
    simp [Handle.endedIn]

theorem Lane.Tallies.enter {lane : Lane} {name : Phase} (h : lane.Tallies handles name)
    (cohort : Cohort) (base peak windowPeak : Nat) :
    ({ lane with
        entered := lane.entered + 1
        active := lane.active + 1
        cohortActive := Function.update lane.cohortActive cohort (lane.cohortActive cohort + 1)
        peak := peak
        windowPeak := windowPeak } :
          Lane).Tallies (handles ++ [⟨name, cohort, base, none⟩]) name := by
  refine ⟨?_, ?_, fun other => ?_, fun c => (h.inside c).enter name cohort base,
    fun c => (h.after c).enter name cohort base⟩
  · simp only [countP_enter, h.entered]
    cases cohort <;> simp [Handle.entersIn] <;> omega
  · simp only [inFlight, countP_enter, h.active]
    cases cohort <;> simp [Handle.pendingIn] <;> omega
  · rw [countP_enter]
    by_cases hsame : other = cohort
    · subst hsame
      simp [h.cohortActive, Handle.pendingIn]
    · simp [Function.update_of_ne hsame, h.cohortActive, Handle.pendingIn, Ne.symm hsame]

/-- A handle of another lane is not counted. -/
theorem Lane.Tallies.enter_other {lane : Lane} {name other : Phase} (h : lane.Tallies handles name)
    (hother : other ≠ name) (cohort : Cohort) (base : Nat) :
    lane.Tallies (handles ++ [⟨other, cohort, base, none⟩]) name := by
  refine ⟨?_, ?_, fun c => ?_, fun c => (h.inside c).enter other cohort base,
    fun c => (h.after c).enter other cohort base⟩
  · simp [h.entered, Handle.entersIn, hother]
  · simp [inFlight, h.active, Handle.pendingIn, hother]
  · simp [h.cohortActive, Handle.pendingIn, hother]

/-- Counters after a handle was finished: one more, if it is one that they count. -/
theorem Counters.Tallies.close {value : Counters} {name : Phase} {cohort : Cohort}
    {counting : Stage} (h : value.Tallies handles name cohort counting)
    (hentry : handles[index]? = some entry) (hpending : entry.finished = none) (stage : Stage)
    (outcome : Outcome) :
    (if entry.entersIn name cohort = true ∧ stage = counting then value.add outcome
      else value).Tallies
      (handles.modify index (Handle.ending stage outcome)) name cohort counting := by
  have hsettled := settled_close hentry hpending stage outcome name cohort counting
  have hended := ended_close hentry hpending stage outcome name cohort counting .SUCCEEDED
  rw [← h.settled] at hsettled
  rw [← h.succeeded] at hended
  split
  · rename_i hcounts
    refine ⟨?_, ?_⟩
    · rw [hsettled, hcounts.1, hcounts.2]
      simp [Counters.add]
    · rw [hended, hcounts.1, hcounts.2]
      simp [Counters.add]
  · rename_i hcounts
    have hfalse : (entry.entersIn name cohort && decide (stage = counting)) = false := by
      simpa [Bool.and_eq_false_iff, not_and_or] using hcounts
    refine ⟨?_, ?_⟩
    · rw [hsettled, hfalse]
      rfl
    · rw [hended, hfalse]
      rfl

theorem counted_terminal_inside (lane : Lane) (outcome : Outcome) (stage : Stage)
    (cohort other : Cohort) :
    (lane.terminal outcome stage cohort).counted .MEASURING other
      = if cohort = other ∧ stage = .MEASURING then (lane.counted .MEASURING other).add outcome
      else lane.counted .MEASURING other := by
  cases stage <;> cases cohort <;> cases other <;> rfl

theorem counted_terminal_after (lane : Lane) (outcome : Outcome) (stage : Stage)
    (cohort other : Cohort) :
    (lane.terminal outcome stage cohort).counted .DRAINING other
      = if cohort = other ∧ stage = .DRAINING then (lane.counted .DRAINING other).add outcome
      else lane.counted .DRAINING other := by
  cases stage <;> cases cohort <;> cases other <;> rfl

theorem terminal_other (lane : Lane) (outcome : Outcome) (stage : Stage) (cohort : Cohort) :
    (lane.terminal outcome stage cohort).entered = lane.entered
      ∧ (lane.terminal outcome stage cohort).active = lane.active
      ∧ (lane.terminal outcome stage cohort).cohortActive = lane.cohortActive
      ∧ (lane.terminal outcome stage cohort).measurementInFlightAtStop
      = lane.measurementInFlightAtStop := by
  cases stage <;> cases cohort <;> exact ⟨rfl, rfl, rfl, rfl⟩

theorem entersIn_self (entry : Handle) (cohort : Cohort) :
    entry.entersIn entry.lane cohort = decide (entry.cohort = cohort) := by
  simp [Handle.entersIn]

theorem Lane.Tallies.close {lane : Lane} (h : lane.Tallies handles entry.lane)
    (hentry : handles[index]? = some entry) (hpending : entry.finished = none) (stage : Stage)
    (outcome : Outcome) :
    (({ lane with
        active := lane.active - 1
        cohortActive := Function.update lane.cohortActive entry.cohort
          (lane.cohortActive entry.cohort - 1) } : Lane).terminal
      outcome stage entry.cohort).Tallies (handles.modify index (Handle.ending stage outcome))
        entry.lane := by
  obtain ⟨hsame, hactive, hcohorts, -⟩ := terminal_other ({ lane with
    active := lane.active - 1
    cohortActive := Function.update lane.cohortActive entry.cohort
      (lane.cohortActive entry.cohort - 1) } : Lane)
    outcome stage entry.cohort
  have hclose := pending_close hentry hpending stage outcome entry.lane
  refine ⟨?_, ?_, fun cohort => ?_, fun cohort => ?_, fun cohort => ?_⟩
  · rw [hsame, enters_close hentry, enters_close hentry]
    exact h.entered
  · have hw := hclose .WARMUP
    have hm := hclose .MEASUREMENT
    have hone : (entry.entersIn entry.lane .WARMUP).toNat
        + (entry.entersIn entry.lane .MEASUREMENT).toNat = 1 := by
      rw [entersIn_self, entersIn_self]
      cases entry.cohort <;> rfl
    have hold := h.active
    rw [hactive]
    unfold inFlight at hold ⊢
    show lane.active - 1 = _
    omega
  · have hc := hclose cohort
    have hold := h.cohortActive cohort
    rw [entersIn_self] at hc
    rw [hcohorts]
    show Function.update lane.cohortActive entry.cohort
      (lane.cohortActive entry.cohort - 1) cohort = _
    by_cases hsame : cohort = entry.cohort
    · subst hsame
      rw [decide_eq_true rfl, Bool.toNat_true] at hc
      rw [Function.update_self]
      omega
    · rw [decide_eq_false (Ne.symm hsame), Bool.toNat_false] at hc
      rw [Function.update_of_ne hsame]
      omega
  · have hinside := (h.inside cohort).close hentry hpending stage outcome
    simp only [entersIn_self, decide_eq_true_eq] at hinside
    rw [counted_terminal_inside]
    exact hinside
  · have hafter := (h.after cohort).close hentry hpending stage outcome
    simp only [entersIn_self, decide_eq_true_eq] at hafter
    rw [counted_terminal_after]
    exact hafter

theorem Lane.Tallies.close_other {lane : Lane} {name : Phase} (h : lane.Tallies handles name)
    (hother : entry.lane ≠ name) (hentry : handles[index]? = some entry)
    (hpending : entry.finished = none) (stage : Stage) (outcome : Outcome) :
    lane.Tallies (handles.modify index (Handle.ending stage outcome)) name := by
  have hnot (cohort : Cohort) : entry.entersIn name cohort = false := by
    simp [Handle.entersIn, hother]
  have hclose (cohort : Cohort) := pending_close hentry hpending stage outcome name cohort
  simp only [hnot, Bool.toNat_false, Nat.add_zero] at hclose
  refine ⟨?_, ?_, fun cohort => ?_, fun cohort => ?_, fun cohort => ?_⟩
  · rw [enters_close hentry, enters_close hentry]
    exact h.entered
  · unfold inFlight
    rw [hclose, hclose]
    exact h.active
  · rw [hclose]
    exact h.cohortActive cohort
  · have hinside := (h.inside cohort).close hentry hpending stage outcome
    rw [hnot] at hinside
    simpa using hinside
  · have hafter := (h.after cohort).close hentry hpending stage outcome
    rw [hnot] at hafter
    simpa using hafter

/-! ### The recorders of the cohorts -/

variable {cohort : Cohort} {r : Recorder σ}

/-- A handle stands for an entry of a recorder, which is pending as long as it is. -/
structure Handle.Backs (h : Handle) (r : Recorder σ) : Prop where
  entry : ∃ e, r.entries[h.base]? = some e ∧ e.phase = h.lane ∧ (h.finished = none → e.ended = none)
  active : h.finished = none → h.base ∈ (r.lanes h.lane).active

/-- The recorder of a cohort has the entries of its handles. -/
structure Covers (r : Recorder σ) (cohort : Cohort) (handles : List Handle) : Prop where
  entered : ∀ name, (r.lanes name).entered = handles.countP (Handle.entersIn name cohort)
  active : ∀ name, (r.lanes name).active.length = handles.countP (Handle.pendingIn name cohort)
  backs : ∀ (i : Nat) (h : Handle), handles[i]? = some h → h.cohort = cohort → h.Backs r
  apart : ∀ (i j : Nat) (h h' : Handle), handles[i]? = some h → handles[j]? = some h' →
    h.cohort = cohort → h'.cohort = cohort →
    h.base = h'.base → i = j

theorem Handle.Backs.lt {h : Handle} (hback : h.Backs r) : h.base < r.entries.length := by
  obtain ⟨⟨e, hentry, -⟩, -⟩ := hback
  exact (List.getElem?_eq_some_iff.mp hentry).1

theorem getElem?_enter {new h : Handle} {i : Nat} (hget : (handles ++ [new])[i]? = some h) :
    (i < handles.length ∧ handles[i]? = some h) ∨ (i = handles.length ∧ h = new) := by
  rcases Nat.lt_or_ge i handles.length with hlt | hge
  · rw [List.getElem?_append_left hlt] at hget
    exact .inl ⟨hlt, hget⟩
  · obtain ⟨hi, hnew⟩ := List.getElem?_eq_some_iff.mp hget
    rw [List.length_append, List.length_singleton] at hi
    obtain rfl : i = handles.length := by omega
    rw [List.getElem_append_right hge] at hnew
    exact .inr ⟨rfl, by simpa using hnew.symm⟩

/-- A handle of the other cohort changes nothing. -/
theorem Covers.enter_other (hr : Covers r cohort handles) {other : Cohort} (hother : other ≠ cohort)
    (name : Phase) (base : Nat) :
    Covers r cohort (handles ++ [⟨name, other, base, none⟩]) := by
  have hback (i : Nat) (h : Handle) (hget : (handles ++ [⟨name, other, base, none⟩])[i]? = some h)
      (hcohort : h.cohort = cohort) :
      handles[i]? = some h := by
    rcases getElem?_enter hget with ⟨-, hold⟩ | ⟨-, rfl⟩
    · exact hold
    · exact absurd hcohort hother
  refine ⟨fun p => ?_, fun p => ?_,
    fun i h hget hcohort => hr.backs i h (hback i h hget hcohort) hcohort, ?_⟩
  · simp [hr.entered, Handle.entersIn, hother]
  · simp [hr.active, Handle.pendingIn, hother]
  · intro i j h h' hget hget' hc hc' hbase
    exact hr.apart i j h h' (hback i h hget hc) (hback j h' hget' hc') hc hc' hbase

/-- A handle is returned for a new entry. -/
theorem Covers.enter (hr : Covers r cohort handles) (name : Phase) (now : Nat) :
    Covers ((r.tick now).enter name now) cohort
    (handles ++ [⟨name, cohort, r.entries.length, none⟩]) := by
  have hself : ((r.tick now).enter name now).lanes name = _ := Function.update_self ..
  have hlane (other : Phase) (hother : other ≠ name) : ((r.tick now).enter name now).lanes other
      = r.lanes other :=
    Function.update_of_ne hother ..
  have hentries : ((r.tick now).enter name now).entries = r.entries ++ [⟨name, now, none⟩] := rfl
  refine ⟨fun p => ?_, fun p => ?_, fun i h hget hcohort => ?_, ?_⟩
  · rw [countP_enter]
    by_cases hp : p = name
    · subst hp
      rw [hself]
      simp [Handle.entersIn, ← hr.entered p, Recorder.tick]
    · rw [hlane p hp, hr.entered p]
      simp [Handle.entersIn, Ne.symm hp]
  · rw [countP_enter]
    by_cases hp : p = name
    · subst hp
      rw [hself]
      simp [Handle.pendingIn, ← hr.active p, Recorder.tick]
    · rw [hlane p hp, hr.active p]
      simp [Handle.pendingIn, Ne.symm hp]
  · rcases getElem?_enter hget with ⟨-, hold⟩ | ⟨-, rfl⟩
    · have hback := hr.backs i h hold hcohort
      obtain ⟨e, hentry, hphase, hended⟩ := hback.entry
      refine ⟨⟨e, ?_, hphase, hended⟩, fun hpending => ?_⟩
      · rw [hentries, List.getElem?_append_left hback.lt]
        exact hentry
      · have hmem := hback.active hpending
        by_cases hp : h.lane = name
        · rw [hp, hself]
          rw [hp] at hmem
          exact List.mem_append_left _ hmem
        · rw [hlane _ hp]
          exact hmem
    · refine ⟨⟨⟨name, now, none⟩, ?_, rfl, fun _ => rfl⟩, fun _ => ?_⟩
      · rw [hentries]
        simp
      · show r.entries.length ∈ (((r.tick now).enter name now).lanes name).active
        rw [hself]
        exact List.mem_append_right _ (List.mem_singleton.mpr rfl)
  · intro i j h h' hget hget' hc hc' hbase
    rcases getElem?_enter hget with ⟨-, hold⟩ | ⟨rfl, rfl⟩
    · rcases getElem?_enter hget' with ⟨-, hold'⟩ | ⟨rfl, rfl⟩
      · exact hr.apart i j h h' hold hold' hc hc' hbase
      · have hlt := (hr.backs i h hold hc).lt
        exact absurd hbase (Nat.ne_of_lt hlt)
    · rcases getElem?_enter hget' with ⟨-, hold'⟩ | ⟨rfl, rfl⟩
      · have hlt := (hr.backs j h' hold' hc').lt
        exact absurd hbase.symm (Nat.ne_of_lt hlt)
      · rfl

/-- A handle of the other cohort is finished. -/
theorem Covers.close_other (hr : Covers r cohort handles) (hother : entry.cohort ≠ cohort)
    (hentry : handles[index]? = some entry) (hpending : entry.finished = none) (stage : Stage)
    (outcome : Outcome) :
    Covers r cohort (handles.modify index (Handle.ending stage outcome)) := by
  have hback (i : Nat) (h : Handle)
      (hget : (handles.modify index (Handle.ending stage outcome))[i]? = some h)
      (hcohort : h.cohort = cohort) : handles[i]? = some h := by
    rcases getElem?_close hentry hget with ⟨-, rfl⟩ | ⟨-, hold⟩
    · exact absurd hcohort hother
    · exact hold
  refine ⟨fun p => ?_, fun p => ?_,
    fun i h hget hcohort => hr.backs i h (hback i h hget hcohort) hcohort, ?_⟩
  · rw [enters_close hentry]
    exact hr.entered p
  · have hclose := pending_close hentry hpending stage outcome p cohort
    have hnot : entry.entersIn p cohort = false := by simp [Handle.entersIn, hother]
    rw [hnot] at hclose
    rw [hr.active p, ← hclose]
    rfl
  · intro i j h h' hget hget' hc hc' hbase
    exact hr.apart i j h h' (hback i h hget hc) (hback j h' hget' hc') hc hc' hbase

/-- The recorder of a cohort after an entry was finished. -/
def finished (series : Series σ) (r : Recorder σ) (handle : Nat) (e : Entry) (outcome : Outcome)
    (ended : Nat) : Recorder σ :=
  ((r.close handle outcome ended).tick ended).settle series handle e.phase outcome (ended - e.start)

/-- A handle is finished, and so is its entry. -/
theorem Covers.close (hr : Covers r entry.cohort handles) (hentry : handles[index]? = some entry)
    (hpending : entry.finished = none) {e : Entry} (he : e.phase = entry.lane) (series : Series σ)
    (stage : Stage) (outcome : Outcome) (ended : Nat) :
    Covers (finished series r entry.base e outcome ended) entry.cohort
    (handles.modify index (Handle.ending stage outcome)) := by
  have hself : (finished series r entry.base e outcome ended).lanes e.phase = _ :=
    Function.update_self ..
  have hlane (other : Phase) (hother : other ≠ entry.lane) :
      (finished series r entry.base e outcome ended).lanes other = r.lanes other :=
    Function.update_of_ne (he.symm ▸ hother) ..
  rw [he] at hself
  have hentries : (finished series r entry.base e outcome ended).entries
      = r.entries.modify entry.base fun entry => { entry with ended := some (outcome, ended) } :=
        rfl
  have hsame (i : Nat) (h : Handle)
      (hget : (handles.modify index (Handle.ending stage outcome))[i]? = some h) :
      ∃ old, handles[i]? = some old ∧ old.lane = h.lane ∧ old.cohort = h.cohort ∧ old.base
        = h.base := by
    rcases getElem?_close hentry hget with ⟨rfl, rfl⟩ | ⟨-, hold⟩
    · exact ⟨entry, hentry, rfl, rfl, rfl⟩
    · exact ⟨h, hold, rfl, rfl, rfl⟩
  refine ⟨fun p => ?_, fun p => ?_, fun i h hget hcohort => ?_, ?_⟩
  · rw [enters_close hentry, ← hr.entered p]
    by_cases hp : p = entry.lane
    · rw [hp, hself]
      rfl
    · rw [hlane p hp]
  · have hclose := pending_close hentry hpending stage outcome p entry.cohort
    rw [← hr.active p] at hclose
    by_cases hp : p = entry.lane
    · subst hp
      have hmem := (hr.backs index entry hentry rfl).active hpending
      rw [entersIn_self, decide_eq_true rfl, Bool.toNat_true] at hclose
      rw [hself]
      show ((r.lanes entry.lane).active.erase entry.base).length = _
      rw [List.length_erase_of_mem hmem]
      omega
    · have hnot : entry.entersIn p entry.cohort = false := by simp [Handle.entersIn, Ne.symm hp]
      rw [hnot, Bool.toNat_false] at hclose
      rw [hlane p hp]
      omega
  · rcases getElem?_close hentry hget with ⟨rfl, rfl⟩ | ⟨hne, hold⟩
    · obtain ⟨old, hold, hphase, -⟩ := (hr.backs i entry hentry rfl).entry
      have hfinished : ¬(entry.ending stage outcome).finished = none := Option.some_ne_none _
      refine ⟨⟨{ old with ended := some (outcome, ended) }, ?_, hphase,
        fun h => absurd h hfinished⟩, fun h => absurd h hfinished⟩
      rw [hentries, List.getElem?_modify]
      show (fun a : Entry => if entry.base = entry.base then _ else a) <$>
        r.entries[entry.base]? = _
      rw [hold]
      simp
    · have hback := hr.backs i h hold hcohort
      have hbase : entry.base ≠ h.base :=
        fun heq => hne (hr.apart i index h entry hold hentry hcohort rfl heq.symm)
      obtain ⟨old, holdEntry, hphase, hended⟩ := hback.entry
      refine ⟨⟨old, ?_, hphase, hended⟩, fun hopen => ?_⟩
      · rw [hentries, List.getElem?_modify, holdEntry]
        simp [hbase]
      · have hmem := hback.active hopen
        by_cases hp : h.lane = entry.lane
        · rw [hp, hself]
          rw [hp] at hmem
          exact (List.mem_erase_of_ne (Ne.symm hbase)).mpr hmem
        · rw [hlane _ hp]
          exact hmem
  · intro i j h h' hget hget' hc hc' hbase
    obtain ⟨old, hold, -, hcohort, hold'⟩ := hsame i h hget
    obtain ⟨other, hother, -, hcohort', hother'⟩ := hsame j h' hget'
    exact hr.apart i j old other hold hother (hcohort.trans hc) (hcohort'.trans hc')
      (hold'.trans (hbase.trans hother'.symm))

end Window
end Capacity
end ZenonX402
