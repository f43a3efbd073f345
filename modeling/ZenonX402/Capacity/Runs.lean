/-
# Runs of the capacity recorders

What a call does to the abstract recorder: nothing that counts, one entry more, one
entry finished, or the report (`Change`, `call_changes`). So the counts of a lane are
those of its entries, its series is what the finished ones have recorded
(`Recorder.Accounts`), and the report says so with exact order statistics (`Describes`).

Either recorder answers as the abstract one in every run, so they answer alike and
what is true of its report is true of theirs (`recorders_agree`).

Key definitions: `Keeps`, `Change`, `Recorder.Accounts`, `Summarizes`, `Describes`.
Key theorems: `call_changes`, `summarize_spec`, `Change.accounts`, `recorders_agree`.
-/
import ZenonX402.Capacity.Refinement
import Mathlib.Data.List.Perm.Basic

namespace ZenonX402
namespace Capacity

open Js Prog

variable {u v t : Recorder History}

/-! ### What a call does -/

/-- A recorder with the same entries and lanes, the same report and the same last time. -/
structure Keeps (u t : Recorder History) : Prop where
  entries : t.entries = u.entries
  lanes : t.lanes = u.lanes
  finalized : t.finalized = u.finalized
  lastTime : t.lastTime = u.lastTime

theorem Keeps.refl (u : Recorder History) : Keeps u u := ⟨rfl, rfl, rfl, rfl⟩

/-- The recorder after an entry of it was finished. -/
def Recorder.closed (u : Recorder History) (handle : Nat) (entry : Entry) (outcome : Outcome)
    (ended : Nat) : Recorder History :=
  ((u.close handle outcome ended).tick ended).settle recorded handle entry.phase outcome
  (ended - entry.start)

inductive Change (u : Recorder History) : Call → Except Kind Result → Recorder History → Prop
  | failed (call : Call) (e : Kind) : Change u call (.error e) u
  | checked (arguments : List Input) (matching : Bool) :
      Change u (.recordLedgerBalanceCheck arguments) (.ok (.matching matching)) u
  | inspected (arguments : List Input) (i : Inspection) :
      Change u (.inspect arguments) (.ok (.inspection i)) u
  | reported (arguments : List Input) (r : Report) (hreport : u.finalized = some r) :
      Change u (.finalize arguments) (.ok (.report r)) u
  | entered (arguments : List Input) (phase : Phase) (now : Nat) (hopen : u.finalized = none)
      (harguments : twoArguments phaseOf arguments = some (phase, .bigint now))
      (hnow : u.lastTime.getD 0 ≤ now) :
      Change u (.start arguments) (.ok (.handle u.entries.length)) ((u.tick now).enter phase now)
  | closed (arguments : List Input) (handle : Nat) (entry : Entry) (outcome : Outcome) (ended : Nat)
      (hopen : u.finalized = none) (hentry : u.entries[handle]? = some entry)
      (hpending : entry.ended = none)
      (harguments : twoArguments outcomeOf arguments = some (outcome, .bigint ended))
      (hended : u.lastTime.getD 0 ≤ ended) :
      Change u (.finish handle arguments) (.ok .finished) (u.closed handle entry outcome ended)
  | finished (arguments : List Input) (hopen : u.finalized = none) :
      Change u (.finalize arguments) (.ok (.report (u.report recorded)))
      (u.finish recorded u.finalIssue (u.report recorded))

/-- What a call comes to. -/
def Comes (u : Recorder History) (call : Call) (r : Except Kind Result)
    (t : Recorder History) : Prop :=
  ∃ v, Change u call r v ∧ Keeps v t

theorem comes_failed {call : Call} {e : Kind} (h : Keeps u t) : Comes u call (.error e) t :=
  ⟨u, .failed call e, h⟩

section Rules

variable {σ α β : Type} {u : Recorder σ} {Q : Except Kind β → Recorder σ → Prop} {kind : Kind}

theorem ends_taint {k : Kind} {Q : Except Kind α → Recorder σ → Prop} :
    Ends (taint k : Work σ α) u Q ↔ Q (.error k) (u.tainted k) := Iff.rfl

theorem ends_orTaint {o : Option α} {f : α → Work σ β} : Ends (orTaint o kind >>= f) u Q ↔
    (o = none → Q (.error kind) (u.tainted kind)) ∧ ∀ a, o = some a → Ends (f a) u Q := by
  rw [ends_bind]
  cases o with
  | none => simp [orTaint, ends_taint]
  | some a => simp [orTaint, ends_pure]

theorem ends_taintIf {c : Prop} [Decidable c] {f : Unit → Work σ β} :
    Ends (taintIf c kind >>= f) u Q ↔
    (c → Q (.error kind) (u.tainted kind)) ∧ (¬ c → Ends (f ()) u Q) := by
  rw [ends_bind]
  unfold taintIf
  by_cases h : c
  · simp [h, ends_taint]
  · simp [h, ends_pure]

theorem ends_refuseIf {c : Prop} [Decidable c] {f : Unit → Work σ β} :
    Ends (refuseIf c kind >>= f) u Q ↔
    (c → Q (.error kind) (u.refuse.tainted kind)) ∧ (¬ c → Ends (f ()) u Q) := by
  rw [ends_bind]
  unfold refuseIf
  by_cases h : c
  · simp only [h, if_true, true_implies, not_true, false_implies, and_true]
    exact Iff.rfl
  · simp [h, ends_pure]

theorem ends_assertOpen {f : Unit → Work σ β} : Ends (assertOpen >>= f) u Q ↔
    (u.finalized ≠ none → Q (.error .finalized) u) ∧ (u.finalized = none → Ends (f ()) u Q) := by
  rw [ends_bind]
  unfold assertOpen
  rw [ends_get]
  unfold failIf
  by_cases h : u.finalized = none
  · simp [h, ends_pure]
  · simp [h, ends_throw]

theorem clock_some {time : Input} {n : Nat} (h : u.clock time = some n) :
    time = .bigint n ∧ u.lastTime.getD 0 ≤ n := by
  unfold Recorder.clock at h
  split at h
  · rename_i m
    split at h
    · rename_i hm
      obtain rfl := Option.some.inj h
      exact ⟨by rw [Int.toNat_of_nonneg hm.1], hm.2.2⟩
    · cases h
  · cases h

end Rules

theorem keeps_tainted (kind : Kind) : Keeps u (u.tainted kind) := ⟨rfl, rfl, rfl, rfl⟩

theorem ends_start (arguments : List Input) :
    Ends (Result.handle <$> start arguments) u fun r t => Comes u (.start arguments) r t := by
  rw [map_eq_pure_bind, ends_map]
  unfold start
  refine ends_assertOpen.mpr ⟨fun _ => comes_failed (.refl u), fun hopen => ends_get.mpr ?_⟩
  refine ends_refuseIf.mpr ⟨fun _ => comes_failed ⟨rfl, rfl, rfl, rfl⟩, fun _ => ?_⟩
  refine ends_orTaint.mpr ⟨fun _ => comes_failed (keeps_tainted _),
    fun (phase, time) harguments => ?_⟩
  refine ends_orTaint.mpr ⟨fun _ => comes_failed (keeps_tainted _), fun now hnow => ?_⟩
  obtain ⟨rfl, hle⟩ := clock_some hnow
  refine ends_refuseIf.mpr ⟨fun _ => comes_failed ⟨rfl, rfl, rfl, rfl⟩, fun _ => ?_⟩
  refine ends_refuseIf.mpr ⟨fun _ => comes_failed ⟨rfl, rfl, rfl, rfl⟩, fun _ => ?_⟩
  refine ends_modify.mpr (ends_modify.mpr ?_)
  exact ⟨_, .entered arguments phase now hopen harguments hle, .refl _⟩

theorem ends_finish (handle : Nat) (arguments : List Input) :
    Ends ((fun _ => Result.finished) <$> finish recorded handle arguments) u
      fun r t => Comes u (.finish handle arguments) r t := by
  rw [map_eq_pure_bind, ends_map]
  unfold finish
  refine ends_get.mpr (ends_orFail.mpr ⟨fun _ => comes_failed (.refl u), fun entry hentry => ?_⟩)
  refine ends_assertOpen.mpr ⟨fun _ => comes_failed (.refl u), fun hopen => ?_⟩
  refine ends_taintIf.mpr ⟨fun _ => comes_failed (keeps_tainted _), fun hpending => ?_⟩
  refine ends_orTaint.mpr ⟨fun _ => comes_failed (keeps_tainted _),
    fun (outcome, time) harguments => ?_⟩
  refine ends_orTaint.mpr ⟨fun _ => comes_failed (keeps_tainted _), fun ended hended => ?_⟩
  obtain ⟨rfl, hle⟩ := clock_some hended
  refine ends_modify.mpr (ends_modify.mpr (ends_modify.mpr ?_))
  refine ⟨_, .closed arguments handle entry outcome ended hopen hentry (not_not.mp hpending)
    harguments hle, ?_⟩
  have hkeeps : ∀ x : Recorder History,
      Keeps x (if outcome = .UNKNOWN then x.stop .outcome_unknown else x) := fun x => by
    split
    · exact ⟨rfl, rfl, rfl, rfl⟩
    · exact .refl x
  exact hkeeps _

theorem ends_check (arguments : List Input) :
    Ends (Result.matching <$> recordLedgerBalanceCheck arguments) u
      fun r t => Comes u (.recordLedgerBalanceCheck arguments) r t := by
  rw [map_eq_pure_bind, ends_map]
  unfold recordLedgerBalanceCheck
  refine ends_assertOpen.mpr ⟨fun _ => comes_failed (.refl u), fun hopen => ?_⟩
  refine ends_orTaint.mpr ⟨fun _ => comes_failed (keeps_tainted _), fun input _ => ends_get.mpr ?_⟩
  refine ends_taintIf.mpr ⟨fun _ => comes_failed (keeps_tainted _), fun _ => ?_⟩
  refine ends_orTaint.mpr ⟨fun _ => comes_failed (keeps_tainted _),
    fun (observed, expected) _ => ?_⟩
  refine ends_modify.mpr (ends_modify.mpr ⟨u, .checked arguments _, ?_⟩)
  split
  · exact ⟨rfl, rfl, rfl, rfl⟩
  · exact ⟨rfl, rfl, rfl, rfl⟩

theorem ends_noArguments {β : Type} {Q : Except Kind β → Recorder History → Prop}
    {arguments : List Input} {f : Unit → Work History β}
    (hfails : ∀ e t, Keeps u t → Q (.error e) t) (h : Ends (f ()) u Q) :
    Ends (noArguments arguments >>= f) u Q := by
  rw [ends_bind]
  unfold noArguments
  refine ends_get.mpr (ends_failIf.mpr ⟨fun _ => hfails _ _ (.refl u), fun _ => ?_⟩)
  unfold taintIf
  split
  · exact hfails _ _ (keeps_tainted _)
  · exact h

theorem ends_inspect (arguments : List Input) :
    Ends (Result.inspection <$> inspect recorded arguments) u fun r t =>
    Comes u (.inspect arguments) r t := by
  rw [map_eq_pure_bind, ends_map]
  unfold inspect
  refine ends_noArguments (fun e t h => comes_failed h) (ends_get.mpr ?_)
  exact ⟨u, .inspected arguments _, .refl u⟩

theorem ends_finalize (arguments : List Input) :
    Ends (Result.report <$> finalize recorded arguments) u fun r t =>
    Comes u (.finalize arguments) r t := by
  rw [map_eq_pure_bind, ends_map]
  unfold finalize
  refine ends_noArguments (fun e t h => comes_failed h) (ends_get.mpr ?_)
  split
  · rename_i r hreport
    exact ⟨u, .reported arguments r hreport, .refl u⟩
  · rename_i hopen
    exact ⟨_, .finished arguments hopen, .refl _⟩

/-- What every call comes to. -/
theorem call_changes {call : Call} {r : Except Kind Result}
    (h : RecorderStep recorded u (call, r) t) :
    Comes u call r t := by
  have hends : Ends (call.work recorded) u fun r t => Comes u call r t := by
    cases call with
    | start arguments => exact ends_start arguments
    | finish handle arguments => exact ends_finish handle arguments
    | recordLedgerBalanceCheck arguments => exact ends_check arguments
    | inspect arguments => exact ends_inspect arguments
    | finalize arguments => exact ends_finalize arguments
  unfold Ends at hends
  rw [show (call.work recorded).exec u = (r, t) from h] at hends
  exact hends

/-! ### Summaries -/

/-- A field of a summary is the order statistic of a rank. -/
def At (xs : List Nat) (field : Option String) (k : Nat) : Prop :=
  ∃ v, field = some (toString v) ∧ IsRank xs k v

/-- A summary of durations: exact nearest-rank order statistics, or nothing of no durations. -/
structure Summarizes (xs : List Nat) (s : Summary) : Prop where
  samples : s.samples = xs.length
  empty : xs = [] → s = .empty
  min : xs ≠ [] → At xs s.min 1
  p50 : xs ≠ [] → At xs s.p50 (nearestRank xs.length 50)
  p95 : xs ≠ [] → At xs s.p95 (nearestRank xs.length 95)
  p99 : xs ≠ [] → At xs s.p99 (nearestRank xs.length 99)
  max : xs ≠ [] → At xs s.max xs.length

theorem at_rank {xs : List Nat} {k : Nat} (hk : 0 < k) (hle : k ≤ xs.length) :
    At xs (((sort xs)[k - 1]?).map toString) k := by
  have hlt : k - 1 < (sort xs).length := by rw [length_sort]; omega
  exact ⟨(sort xs)[k - 1], by rw [List.getElem?_eq_getElem hlt]; rfl,
    isRank_sort hk (List.getElem?_eq_getElem hlt)⟩

theorem summarize_spec (xs : List Nat) : Summarizes xs (summarize xs) := by
  by_cases hnil : xs = []
  · subst hnil
    exact ⟨rfl, fun _ => rfl, fun h => absurd rfl h, fun h => absurd rfl h, fun h => absurd rfl h,
      fun h => absurd rfl h, fun h => absurd rfl h⟩
  · have hpos : 0 < xs.length := List.length_pos_iff.mpr hnil
    have hrank (percentage : Nat) (hp : 0 < percentage) (hp' : percentage ≤ 100) :
        At xs (((sort xs)[nearestRank (sort xs).length percentage - 1]?).map toString)
        (nearestRank xs.length percentage) := by
      rw [length_sort]
      exact at_rank (nearestRank_pos hpos hp) (nearestRank_le hp')
    have hmax : At xs (((sort xs)[(sort xs).length - 1]?).map toString) xs.length := by
      rw [length_sort]
      exact at_rank hpos le_rfl
    unfold summarize
    rw [if_neg hnil]
    exact ⟨length_sort xs, fun h => absurd h hnil, fun _ => at_rank Nat.one_pos hpos,
      fun _ => hrank 50 (by decide) (by decide), fun _ => hrank 95 (by decide) (by decide),
      fun _ => hrank 99 (by decide) (by decide), fun _ => hmax⟩

theorem Summarizes.perm {xs ys : List Nat} {s : Summary} (h : Summarizes xs s)
    (hperm : xs.Perm ys) : Summarizes ys s := by
  have hne : ys ≠ [] → xs ≠ [] := fun hys hxs => hys (List.nil_perm.mp (hxs ▸ hperm))
  have hat {field : Option String} {k : Nat} (h : At xs field k) : At ys field k := by
    obtain ⟨v, hv, hrank⟩ := h
    exact ⟨v, hv, hrank.perm hperm⟩
  have hlen := hperm.length_eq
  refine ⟨h.samples.trans hlen, fun hys => h.empty ?_, fun hys => hat (h.min (hne hys)),
    fun hys => ?_, fun hys => ?_, fun hys => ?_, fun hys => ?_⟩
  · rw [hys] at hperm
    exact List.perm_nil.mp hperm
  · rw [← hlen]
    exact hat (h.p50 (hne hys))
  · rw [← hlen]
    exact hat (h.p95 (hne hys))
  · rw [← hlen]
    exact hat (h.p99 (hne hys))
  · rw [← hlen]
    exact hat (h.max (hne hys))

/-! ### Accounts -/

/-- The outcome and the duration of an entry that was finished, if it is one of this phase. -/
def Entry.recordedIn (phase : Phase) (entry : Entry) : Option (Outcome × Nat) :=
  if entry.phase = phase then entry.ended.map fun ended => (ended.1, ended.2 - entry.start)
  else none

/-- What the finished entries of a phase have recorded. -/
def ledger (entries : List Entry) (phase : Phase) : List (Outcome × Nat) :=
  entries.filterMap (Entry.recordedIn phase)

def durations (entries : List Entry) (phase : Phase) : List Nat :=
  (ledger entries phase).map Prod.snd

def successful (entries : List Entry) (phase : Phase) : List Nat :=
  ((ledger entries phase).filter fun r => r.1 = .SUCCEEDED).map Prod.snd

/-- The entries of a phase. -/
def enteredIn (entries : List Entry) (phase : Phase) : Nat := (entries.map Entry.phase).count phase

/-- A record as the abstract series has it. -/
def tag (r : Outcome × Nat) : Nat × Bool := (r.2, r.1 = .SUCCEEDED)

/-- A report that is true of the entries: it counts every one of them once and summarizes their
durations. -/
def Describes (entries : List Entry) (report : Report) : Prop :=
  report.phases.map Prod.fst = PHASES ∧ ∀ phase r, (phase, r) ∈ report.phases →
    r.entered = enteredIn entries phase ∧ r.entered = r.succeeded + r.rejected
      + r.unknown + r.pending
      ∧ r.settled = r.succeeded + r.rejected + r.unknown
      ∧ Summarizes (durations entries phase) r.terminalLatencyNanoseconds
      ∧ Summarizes (successful entries phase) r.successfulLatencyNanoseconds

/-- A lane counts so many entries, and how the recorded ones ended. -/
structure Lane.Tallies (lane : Lane History) (entered : Nat) (records : List (Outcome × Nat)) :
    Prop where
  entered : lane.entered = entered
  settled : lane.settled = records.length
  succeeded : lane.succeeded = records.countP fun r => r.1 = .SUCCEEDED
  rejected : lane.rejected = records.countP fun r => r.1 = .REJECTED
  unknown : lane.unknown = records.countP fun r => r.1 = .UNKNOWN

structure Recorder.Accounts (u : Recorder History) : Prop where
  lanes : ∀ phase, (u.lanes phase).Tallies (enteredIn u.entries phase) (ledger u.entries phase)
  series : u.finalized = none → ∀ phase,
    (u.lanes phase).series.Perm ((ledger u.entries phase).map tag)
  report : ∀ report, u.finalized = some report → Describes u.entries report
  times : ∀ e ∈ u.entries, e.start ≤ u.lastTime.getD 0 ∧ ∀ outcome time,
    e.ended = some (outcome, time) → e.start ≤ time

theorem countP_outcomes (xs : List (Outcome × Nat)) : xs.length
    = xs.countP (fun r => r.1 = .SUCCEEDED) + xs.countP (fun r => r.1 = .REJECTED) + xs.countP
    fun r => r.1 = .UNKNOWN := by
  induction xs with
  | nil => rfl
  | cons x xs ih =>
    obtain ⟨outcome, duration⟩ := x
    rw [List.countP_cons, List.countP_cons, List.countP_cons, List.length_cons, ih]
    cases outcome <;> simp <;> omega

theorem length_ledger_le (entries : List Entry) (phase : Phase) :
    (ledger entries phase).length ≤ enteredIn entries phase := by
  induction entries with
  | nil => exact Nat.zero_le _
  | cons e entries ih =>
    unfold ledger enteredIn at ih ⊢
    rw [List.filterMap_cons, List.map_cons, List.count_cons]
    by_cases he : e.phase = phase
    · rw [he, beq_self_eq_true, if_pos rfl]
      split
      · exact ih.trans (Nat.le_succ _)
      · exact Nat.succ_le_succ ih
    · have hnone : Entry.recordedIn phase e = none := if_neg he
      rw [hnone]
      exact ih.trans (Nat.le_add_right _ _)

/-- The report of a recorder whose accounts are right is true of its entries. -/
theorem report_describes (hu : u.Accounts) (hopen : u.finalized = none) :
    Describes u.entries (u.report recorded) := by
  refine ⟨rfl, fun phase r hr => ?_⟩
  obtain ⟨other, -, hpair⟩ := List.mem_map.mp (show (phase, r) ∈ PHASES.map fun phase =>
    (phase, Recorder.phaseReport recorded (u.lanes phase)) from hr)
  obtain ⟨rfl, rfl⟩ := Prod.mk.inj hpair
  obtain ⟨hentered, hsettled, hsucceeded, hrejected, hunknown⟩ := hu.lanes other
  have hcounts := countP_outcomes (ledger u.entries other)
  rw [← hsucceeded, ← hrejected, ← hunknown, ← hsettled] at hcounts
  have hle := length_ledger_le u.entries other
  rw [← hsettled, ← hentered] at hle
  have hseries := hu.series hopen other
  refine ⟨hentered, ?_, hcounts, (summarize_spec _).perm ?_, (summarize_spec _).perm ?_⟩
  · simp only [Recorder.phaseReport]
    omega
  · refine (hseries.map Prod.fst).trans (List.Perm.of_eq ?_)
    rw [List.map_map]
    rfl
  · refine ((hseries.filter Prod.snd).map Prod.fst).trans (List.Perm.of_eq ?_)
    rw [List.filter_map, List.map_map]
    rfl

/-! ### Entries that are finished -/

/-- An element that was not read before is read where it was changed. -/
theorem filterMap_modify_perm {α β : Type} {g : α → Option β} {m : α → α} {xs : List α}
    {k : Nat} {e : α} (hk : xs[k]? = some e) (hnone : g e = none) :
    ((xs.modify k m).filterMap g).Perm (xs.filterMap g ++ (g (m e)).toList) := by
  induction xs generalizing k with
  | nil => simp at hk
  | cons x xs ih =>
    cases k with
    | zero =>
      obtain rfl : x = e := by simpa using hk
      rw [List.modify_zero_cons, List.filterMap_cons, List.filterMap_cons, hnone]
      cases g (m x) with
      | none => simp
      | some b => exact (List.perm_append_singleton b _).symm
    | succ k =>
      have hperm := ih (by simpa using hk)
      rw [List.modify_succ_cons, List.filterMap_cons, List.filterMap_cons]
      cases g x with
      | none => exact hperm
      | some b => exact hperm.cons b

theorem phases_close (entries : List Entry) (handle : Nat) (outcome : Outcome) (ended : Nat) :
    (entries.modify handle fun entry => { entry with ended := some (outcome, ended) }).map
    Entry.phase
      = entries.map Entry.phase := by
  refine List.ext_getElem? fun i => ?_
  rw [List.getElem?_map, List.getElem?_map, List.getElem?_modify]
  split <;> simp [Function.comp_def]

/-- A finished entry is recorded in its phase and nowhere else. -/
theorem ledger_close {entries : List Entry} {handle : Nat} {entry : Entry}
    (hentry : entries[handle]? = some entry) (hpending : entry.ended = none) (outcome : Outcome)
    (ended : Nat) (phase : Phase) :
    (ledger (entries.modify handle fun entry => { entry with ended := some (outcome, ended) })
      phase).Perm
      (ledger entries phase ++ if entry.phase = phase then [(outcome, ended - entry.start)]
        else []) := by
  have hnone : Entry.recordedIn phase entry = none := by
    unfold Entry.recordedIn
    rw [hpending]
    split <;> rfl
  refine (filterMap_modify_perm hentry hnone).trans (List.Perm.of_eq ?_)
  unfold ledger Entry.recordedIn
  split <;> rfl

theorem ledger_enter (entries : List Entry) (phase : Phase) (start : Nat) (other : Phase) :
    ledger (entries ++ [⟨phase, start, none⟩]) other = ledger entries other := by
  unfold ledger
  rw [List.filterMap_append]
  simp [Entry.recordedIn]

/-! ### Calls keep the accounts -/

theorem enteredIn_enter (entries : List Entry) (phase : Phase) (start : Nat) (other : Phase) :
    enteredIn (entries ++ [⟨phase, start, none⟩]) other = enteredIn entries other + if phase = other
    then 1 else 0 := by
  unfold enteredIn
  rw [List.map_append, List.count_append]
  simp [List.count_singleton]

theorem Lane.Tallies.enter {lane : Lane History} {n : Nat} {records : List (Outcome × Nat)}
    (h : lane.Tallies n records) (active : List Nat) (peak : Nat) :
    ({ lane with entered := lane.entered + 1, active := active, peak := peak } :
      Lane History).Tallies (n + 1) records :=
  ⟨congrArg (· + 1) h.entered, h.settled, h.succeeded, h.rejected, h.unknown⟩

theorem accounts_enter (hu : u.Accounts) (hopen : u.finalized = none) (phase : Phase) {now : Nat}
    (hnow : u.lastTime.getD 0 ≤ now) : ((u.tick now).enter phase now).Accounts := by
  have hself : ((u.tick now).enter phase now).lanes phase = _ := Function.update_self ..
  have hlane (other : Phase) (hother : other ≠ phase) : ((u.tick now).enter phase now).lanes other
      = u.lanes other :=
    Function.update_of_ne hother ..
  have hentries : ((u.tick now).enter phase now).entries = u.entries ++ [⟨phase, now, none⟩] := rfl
  refine ⟨fun other => ?_, fun _ other => ?_, fun report hreport => ?_, fun e he => ?_⟩
  · rw [hentries, ledger_enter, enteredIn_enter]
    by_cases hother : other = phase
    · subst hother
      rw [hself, if_pos rfl]
      exact (hu.lanes other).enter _ _
    · rw [hlane other hother, if_neg (Ne.symm hother)]
      exact hu.lanes other
  · rw [hentries, ledger_enter]
    by_cases hother : other = phase
    · subst hother
      rw [hself]
      exact hu.series hopen other
    · rw [hlane other hother]
      exact hu.series hopen other
  · exact absurd (hopen.symm.trans hreport) nofun
  · have hlast : ((u.tick now).enter phase now).lastTime.getD 0 = now := rfl
    rw [hlast]
    rw [hentries] at he
    rcases List.mem_append.mp he with he | he
    · exact ⟨(hu.times e he).1.trans hnow, (hu.times e he).2⟩
    · rw [List.mem_singleton.mp he]
      exact ⟨le_rfl, nofun⟩

theorem Lane.Tallies.settle {lane : Lane History} {n : Nat}
    {records records' : List (Outcome × Nat)} (h : lane.Tallies n records) {outcome : Outcome}
    {duration : Nat} (hperm : records'.Perm (records ++ [(outcome, duration)])) (active : List Nat)
    (series : History) :
    ({ lane with
        settled := lane.settled + 1
        active := active
        series := series
        succeeded := lane.succeeded + (decide (outcome = .SUCCEEDED)).toNat
        rejected := lane.rejected + (decide (outcome = .REJECTED)).toNat
        unknown := lane.unknown + (decide (outcome = .UNKNOWN)).toNat } :
          Lane History).Tallies n records' := by
  have hcount (o : Outcome) : records'.countP (fun r => r.1 = o)
      = records.countP (fun r => r.1 = o) + (decide (outcome = o)).toNat := by
    rw [hperm.countP_eq, List.countP_append, List.countP_singleton]
    by_cases ho : outcome = o <;> simp [ho]
  refine ⟨h.entered, ?_, ?_, ?_, ?_⟩
  · rw [hperm.length_eq, List.length_append, ← h.settled]
    rfl
  · rw [hcount, ← h.succeeded]
  · rw [hcount, ← h.rejected]
  · rw [hcount, ← h.unknown]

theorem accounts_closed (hu : u.Accounts) (hopen : u.finalized = none) {handle : Nat}
    {entry : Entry} (hentry : u.entries[handle]? = some entry) (hpending : entry.ended = none)
    (outcome : Outcome) {ended : Nat} (hended : u.lastTime.getD 0 ≤ ended) :
    (u.closed handle entry outcome ended).Accounts := by
  have hself : (u.closed handle entry outcome ended).lanes entry.phase = _ :=
    Function.update_self ..
  have hlane (other : Phase) (hother : other ≠ entry.phase) :
      (u.closed handle entry outcome ended).lanes other = u.lanes other :=
        Function.update_of_ne hother ..
  have hledger (other : Phase) := ledger_close hentry hpending outcome ended other
  have hentered (other : Phase) : enteredIn (u.closed handle entry outcome ended).entries other
      = enteredIn u.entries other :=
    congrArg (List.count other) (phases_close u.entries handle outcome ended)
  refine ⟨fun other => ?_, fun _ other => ?_, fun report hreport => ?_, fun e he => ?_⟩
  · rw [hentered]
    by_cases hother : other = entry.phase
    · subst hother
      rw [hself]
      have hperm := hledger entry.phase
      rw [if_pos rfl] at hperm
      exact (hu.lanes entry.phase).settle hperm _ _
    · rw [hlane other hother]
      have hperm := hledger other
      rw [if_neg (Ne.symm hother), List.append_nil] at hperm
      obtain ⟨h1, h2, h3, h4, h5⟩ := hu.lanes other
      exact ⟨h1, h2.trans hperm.length_eq.symm, h3.trans (hperm.countP_eq _).symm,
        h4.trans (hperm.countP_eq _).symm, h5.trans (hperm.countP_eq _).symm⟩
  · have hperm := (hledger other).map tag
    by_cases hother : other = entry.phase
    · subst hother
      rw [hself]
      rw [if_pos rfl, List.map_append] at hperm
      exact ((hu.series hopen entry.phase).append_right _).trans hperm.symm
    · rw [hlane other hother]
      rw [if_neg (Ne.symm hother), List.append_nil] at hperm
      exact (hu.series hopen other).trans hperm.symm
  · exact absurd (hopen.symm.trans hreport) nofun
  · have hlast : (u.closed handle entry outcome ended).lastTime.getD 0 = ended := rfl
    rw [hlast]
    obtain ⟨i, hi⟩ := List.mem_iff_getElem?.mp he
    have hentries : (u.closed handle entry outcome ended).entries
        = u.entries.modify handle fun entry => { entry with ended := some (outcome, ended) } := rfl
    rw [hentries, List.getElem?_modify] at hi
    obtain ⟨old, hold, heq⟩ := Option.map_eq_some_iff.mp hi
    have htimes := hu.times old (List.mem_of_getElem? hold)
    have hle := htimes.1.trans hended
    by_cases hsame : handle = i
    · rw [if_pos hsame] at heq
      subst heq
      refine ⟨hle, fun o time htime => ?_⟩
      have htime : time = ended := (congrArg Prod.snd (Option.some.inj htime)).symm
      rw [htime]
      exact hle
    · rw [if_neg hsame] at heq
      subst heq
      exact ⟨hle, htimes.2⟩

theorem accounts_finished (hu : u.Accounts) (hopen : u.finalized = none) :
    (u.finish recorded u.finalIssue (u.report recorded)).Accounts := by
  refine ⟨fun phase => ?_, nofun, fun report hreport => ?_, hu.times⟩
  · obtain ⟨h1, h2, h3, h4, h5⟩ := hu.lanes phase
    exact ⟨h1, h2, h3, h4, h5⟩
  · obtain rfl : u.report recorded = report := Option.some.inj hreport
    exact report_describes hu hopen

/-- What a call does keeps the accounts right. -/
theorem Change.accounts {call : Call} {r : Except Kind Result} (h : Change u call r v)
    (hu : u.Accounts) : v.Accounts := by
  cases h with
  | failed => exact hu
  | checked => exact hu
  | inspected => exact hu
  | reported => exact hu
  | entered _ phase now hopen _ hnow => exact accounts_enter hu hopen phase hnow
  | closed _ handle entry outcome ended hopen hentry hpending _ hended =>
    exact accounts_closed hu hopen hentry hpending outcome hended
  | finished _ hopen => exact accounts_finished hu hopen

theorem Keeps.accounts (h : Keeps u t) (hu : u.Accounts) : t.Accounts := by
  refine ⟨fun phase => ?_, fun hopen phase => ?_, fun report hreport => ?_, fun e he => ?_⟩
  · rw [h.lanes, h.entries]
    exact hu.lanes phase
  · rw [h.lanes, h.entries]
    exact hu.series (h.finalized ▸ hopen) phase
  · rw [h.entries]
    exact hu.report report (h.finalized ▸ hreport)
  · rw [h.lastTime]
    exact hu.times e (h.entries ▸ he)

theorem Comes.accounts {call : Call} {r : Except Kind Result} (h : Comes u call r t)
    (hu : u.Accounts) : t.Accounts := by
  obtain ⟨v, hchange, hkeeps⟩ := h
  exact hkeeps.accounts (hchange.accounts hu)

/-! ### Runs -/

/-- The entries after a call that returned, by its arguments. -/
def note (entries : List Entry) : Call → List Entry
  | .start arguments => match twoArguments phaseOf arguments with
    | some (phase, .bigint time) => entries ++ [⟨phase, time.toNat, none⟩]
    | _ => entries
  | .finish handle arguments => match twoArguments outcomeOf arguments with
    | some (outcome, .bigint time) => entries.modify handle fun entry =>
        { entry with ended := some (outcome, time.toNat) }
    | _ => entries
  | _ => entries

/-- The calls that returned. -/
def returned (calls : List Call) (answers : List (Except Kind Result)) : List Call :=
  ((calls.zip answers).filter fun l => l.2.isOk).map Prod.fst

/-- A call that finishes a handle. -/
def Call.finishes (handle : Nat) : Call → Bool
  | .finish other _ => other == handle
  | _ => false

theorem Change.entries {call : Call} {r : Except Kind Result} (h : Change u call r v) :
    v.entries = if r.isOk then note u.entries call else u.entries := by
  cases h with
  | failed => rfl
  | checked => rfl
  | inspected => rfl
  | reported => rfl
  | finished => rfl
  | entered arguments phase now _ harguments =>
    have hnote : note u.entries (.start arguments) = u.entries ++ [⟨phase, now, none⟩] := by
      simp only [note, harguments, Int.toNat_natCast]
    exact hnote.symm
  | closed arguments handle entry outcome ended _ _ _ harguments =>
    have hnote : note u.entries (.finish handle arguments)
        = u.entries.modify handle fun entry => { entry with ended := some (outcome, ended) } := by
      simp only [note, harguments, Int.toNat_natCast]
    exact hnote.symm

theorem Comes.entries {call : Call} {r : Except Kind Result} (h : Comes u call r t) :
    t.entries = if r.isOk then note u.entries call else u.entries := by
  obtain ⟨v, hchange, hkeeps⟩ := h
  exact hkeeps.entries.trans hchange.entries

/-- The entries are those of the calls that returned. -/
theorem run_entries {ls : List (Call × Except Kind Result)}
    (h : Run (RecorderStep recorded) u ls t) :
    t.entries = ((ls.filter fun l => l.2.isOk).map Prod.fst).foldl note u.entries := by
  induction h with
  | nil => rfl
  | @cons u v t l ls hstep _ ih =>
    obtain ⟨call, r⟩ := l
    have hentries := (call_changes hstep).entries
    rw [ih, hentries]
    by_cases hok : r.isOk
    · rw [if_pos hok, List.filter_cons_of_pos
        (p := fun l : Call × Except Kind Result => l.2.isOk) hok]
      rfl
    · rw [if_neg hok, List.filter_cons_of_neg
        (p := fun l : Call × Except Kind Result => l.2.isOk) hok]

theorem Comes.finalized {call : Call} {r : Except Kind Result} (h : Comes u call r t)
    {report : Report} (hreport : u.finalized = some report) : t.finalized = some report := by
  obtain ⟨v, hchange, hkeeps⟩ := h
  rw [hkeeps.finalized]
  cases hchange with
  | failed => exact hreport
  | checked => exact hreport
  | inspected => exact hreport
  | reported => exact hreport
  | entered _ _ _ hopen => exact absurd (hopen.symm.trans hreport) nofun
  | closed _ _ _ _ _ hopen => exact absurd (hopen.symm.trans hreport) nofun
  | finished _ hopen => exact absurd (hopen.symm.trans hreport) nofun

theorem Comes.reported {call : Call} {report : Report} (h : Comes u call (.ok (.report report)) t) :
    t.finalized = some report := by
  obtain ⟨v, hchange, hkeeps⟩ := h
  rw [hkeeps.finalized]
  cases hchange with
  | reported _ _ hreport => exact hreport
  | finished => rfl

theorem step_finalized {l : Call × Except Kind Result} (h : RecorderStep recorded u l t)
    {report : Report} (hreport : u.finalized = some report) : t.finalized = some report :=
  (@call_changes _ _ l.1 l.2 h).finalized hreport

theorem run_accounts {ls : List (Call × Except Kind Result)}
    (h : Run (RecorderStep recorded) u ls t) (hu : u.Accounts) :
    t.Accounts :=
  h.invariant (I := Recorder.Accounts)
    (fun s l s' hs hl => (@call_changes s s' l.1 l.2 hl).accounts hs) hu

/-- Every report of a run is the one that the recorder has at its end, and true of its entries. -/
theorem run_reports {ls : List (Call × Except Kind Result)} (h : Run (RecorderStep recorded) u ls t)
    (hu : u.Accounts) {call : Call} {report : Report} (hl : (call, .ok (.report report)) ∈ ls) :
    Describes t.entries report := by
  obtain ⟨before, after, rfl⟩ := List.append_of_mem hl
  obtain ⟨v, hbefore, hafter⟩ := h.split
  cases hafter with
  | cons hstep hrest =>
    have hcomes := call_changes hstep
    have hv : v.Accounts := run_accounts hbefore hu
    have hlast : t.finalized = some report :=
      hrest.invariant (I := fun s => s.finalized = some report)
      (fun _ l _ hs hl => step_finalized hl hs) hcomes.reported
    exact (run_accounts hrest (hcomes.accounts hv)).report report hlast

/-- A handle that was finished. -/
def Recorder.Finished (u : Recorder History) (handle : Nat) : Prop :=
  ∃ entry, u.entries[handle]? = some entry ∧ entry.ended ≠ none

theorem Change.keeps_finished {call : Call} {r : Except Kind Result} (h : Change u call r v)
    {handle : Nat} (hfinished : u.Finished handle) : v.Finished handle := by
  obtain ⟨entry, hentry, hended⟩ := hfinished
  cases h with
  | failed => exact ⟨entry, hentry, hended⟩
  | checked => exact ⟨entry, hentry, hended⟩
  | inspected => exact ⟨entry, hentry, hended⟩
  | reported => exact ⟨entry, hentry, hended⟩
  | finished => exact ⟨entry, hentry, hended⟩
  | entered _ phase now =>
    have hlt : handle < u.entries.length := (List.getElem?_eq_some_iff.mp hentry).1
    exact ⟨entry, (List.getElem?_append_left hlt).trans hentry, hended⟩
  | closed _ other closing outcome ended =>
    have hentries : (u.closed other closing outcome ended).entries[handle]? = _ :=
      List.getElem?_modify ..
    rw [hentry] at hentries
    refine ⟨_, hentries, ?_⟩
    by_cases hsame : other = handle
    · simp [hsame]
    · simpa [hsame] using hended

theorem Comes.keeps_finished {call : Call} {r : Except Kind Result} (h : Comes u call r t)
    {handle : Nat} (hfinished : u.Finished handle) : t.Finished handle := by
  obtain ⟨v, hchange, hkeeps⟩ := h
  obtain ⟨entry, hentry, hended⟩ := hchange.keeps_finished hfinished
  exact ⟨entry, by rw [hkeeps.entries]; exact hentry, hended⟩

theorem Comes.finishes {call : Call} {r : Except Kind Result} (h : Comes u call r t) {handle : Nat}
    (hcall : call.finishes handle) (hok : r.isOk) : ¬ u.Finished handle ∧ t.Finished handle := by
  obtain ⟨v, hchange, hkeeps⟩ := h
  cases hchange with
  | failed => cases hok
  | checked => cases hcall
  | inspected => cases hcall
  | reported => cases hcall
  | entered => cases hcall
  | finished => cases hcall
  | closed _ other entry outcome ended _ hentry hpending =>
    obtain rfl : other = handle := beq_iff_eq.mp hcall
    have hentries : (u.closed other entry outcome ended).entries[other]? = _ :=
      List.getElem?_modify ..
    rw [hentry] at hentries
    refine ⟨fun ⟨entry', hentry', hended⟩ => ?_,
      ⟨_, (congrArg (·[other]?) hkeeps.entries).trans hentries, ?_⟩⟩
    · rw [Option.some.inj (hentry.symm.trans hentry')] at hpending
      exact hended hpending
    · simp

/-- No handle is finished twice. -/
theorem run_finishes {ls : List (Call × Except Kind Result)}
    (h : Run (RecorderStep recorded) u ls t) (handle : Nat) :
    (((ls.filter fun l => l.2.isOk).map Prod.fst).countP (Call.finishes handle)) ≤ 1 := by
  have hatmost := @Run.atMostOnce _ _ (RecorderStep recorded) (fun _ => True)
    (fun s => s.Finished handle)
    (fun l => l.1.finishes handle = true ∧ l.2.isOk = true) _ (fun _ _ _ _ _ => trivial)
    (fun s l s' _ hs hl => (@call_changes s s' l.1 l.2 hl).keeps_finished hs)
    (fun s l s' _ hl hevent => (@call_changes s s' l.1 l.2 hl).finishes hevent.1 hevent.2)
    _ _ _ h trivial
  rw [List.countP_map, List.countP_filter, List.countP_eq_length_filter]
  refine le_trans (le_of_eq (congrArg List.length (List.filter_congr fun l _ => ?_))) hatmost
  simp

/-! ### Both recorders -/

/-- The abstract recorder when it is created. -/
def started (limits : Limits) : Recorder History :=
  ⟨limits, fun _ => ⟨0, 0, 0, 0, 0, 0, recorded.empty, []⟩, [], none, none, none, none,
    none, 0, 0, 0⟩

theorem started_accounts (limits : Limits) : (started limits).Accounts :=
  ⟨fun _ => ⟨rfl, rfl, rfl, rfl, rfl⟩, fun _ _ => List.Perm.refl [],
    fun report h => absurd h (Option.some_ne_none report).symm,
    fun _ he => absurd he List.not_mem_nil⟩

theorem started_counted (limits : Limits) : (started limits).Counted := fun _ _ => rfl

theorem likewise_join {a b c : Result} (h : Likewise a c) (h' : Likewise b c) : Likewise a b := by
  cases h with
  | same =>
    cases h' with
    | same => exact .same _
    | inspection i n m => exact .inspection i m n
  | inspection i n m =>
    generalize hc : Result.inspection { i with retainedDurationReferences := m } = c at h'
    cases h' with
    | same =>
      rw [← hc]
      exact .inspection i n m
    | inspection j n' m' =>
      have hij : { j with retainedDurationReferences := n' }
        = { i with retainedDurationReferences := n' } := by
        have := Result.inspection.inj hc
        cases i
        cases j
        simp_all
      rw [hij]
      exact .inspection i n n'

/-- Every call of either recorder answers as that of the other. -/
theorem calls_relate {s : Recorder (List Nat × List Nat)} {s' : Recorder (List Nat)} (call : Call)
    (h : ∃ u, Belongs unpackedImage s u ∧ Belongs packedImage s' u) :
    Relates (call.work unpacked) (call.work packed) s s' Likewise
      fun s s' => ∃ u, Belongs unpackedImage s u ∧ Belongs packedImage s' u := by
  obtain ⟨u, hs, hs'⟩ := h
  refine ((call_refines refines_unpacked call hs).join (call_refines refines_packed call hs')).imp
    ?_ fun _ _ h => h
  exact fun a b ⟨c, ha, hb⟩ => likewise_join ha hb

theorem returned_alike {xs ys : List (Except Kind Result)} (h : List.Forall₂ (Alike Likewise) xs ys)
    (calls : List Call) :
    returned calls xs = returned calls ys := by
  unfold returned
  induction h generalizing calls with
  | nil => rfl
  | cons halike _ ih =>
    cases calls with
    | nil => rfl
    | cons call calls =>
      rw [List.zip_cons_cons, List.zip_cons_cons, List.filter_cons, List.filter_cons, halike.isOk]
      split
      · exact congrArg (call :: ·) (ih calls)
      · exact ih calls

/-- What is true of every sequence of calls of a recorder that belongs to an abstract one. -/
theorem answers_describe {σ : Type} {f : History → σ} {series : Series σ} {s : Recorder σ}
    (hf : Refines f series) (h : Belongs f s u) (hu : u.Accounts) (hnew : u.entries = [])
    (calls : List Call) :
    (∀ report, .ok (.report report) ∈ answers (Call.work series) s calls →
      Describes ((returned calls (answers (Call.work series) s calls)).foldl note []) report)
    ∧ ∀ handle, (returned calls (answers (Call.work series) s calls)).countP (Call.finishes handle)
      ≤ 1 := by
  have halike := answers_alike (fun call s u h => call_refines hf call h) h calls
  obtain ⟨t, hrun⟩ := @run_answers _ _ _ _ (Call.work recorded) u calls
  have hentries := run_entries hrun
  rw [hnew] at hentries
  rw [returned_alike halike calls]
  refine ⟨fun report hreport => ?_, fun handle => run_finishes hrun handle⟩
  obtain ⟨r, hr, hlike⟩ := alike_mem halike hreport
  obtain rfl : r = .report report := by
    cases hlike
    rfl
  obtain ⟨call, hcall⟩ := mem_answers hr
  have hdescribes := run_reports hrun hu hcall
  rw [hentries] at hdescribes
  exact hdescribes

/-- The object recorder and the packed one are created alike and answer every sequence of calls
alike, but for the references that an inspection counts. A report is true of the entries that the
returning calls have made, each finished at most once. -/
theorem recorders_agree (arguments : List Input) : Alike
    (fun s s' => ∀ calls : List Call,
      List.Forall₂ (Alike Likewise) (answers (Call.work unpacked) s calls)
      (answers (Call.work packed) s' calls)
      ∧ (∀ report, .ok (.report report) ∈ answers (Call.work unpacked) s calls →
        Describes ((returned calls (answers (Call.work unpacked) s calls)).foldl note []) report)
      ∧ ∀ handle, (returned calls (answers (Call.work unpacked) s calls)).countP
        (Call.finishes handle) ≤ 1) (createServiceCreditCapacityRecorder arguments)
        (createServiceCreditCapacityRecorderPacked arguments) := by
  unfold createServiceCreditCapacityRecorder createServiceCreditCapacityRecorderPacked create
  cases limitsOf arguments with
  | none => exact .error _
  | some limits =>
    have hunpacked : Belongs unpackedImage _ (started limits) := ⟨rfl, started_counted limits⟩
    have hpacked : Belongs packedImage _ (started limits) := ⟨rfl, started_counted limits⟩
    exact .ok fun calls =>
      ⟨answers_alike (fun call s s' h => calls_relate call h) ⟨_, hunpacked, hpacked⟩ calls,
        answers_describe refines_unpacked hunpacked (started_accounts limits) rfl calls⟩

end Capacity
end ZenonX402
