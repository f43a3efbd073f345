/-
# Sweeping a load over time

Spans of days with a weight, open or with a last day: the load of a day is the
weight of the spans that cover it. The sweep goes through the days on which
some span starts or ends, in order, adds what starts, compares with a limit and
then takes away what ends. It passes exactly when no day's load exceeds the
limit (`sweep_iff`): between two such days the load only falls.

Key definitions: `Span`, `load`, `events`, `sweep`.
Key theorems: `event_events`, `sweepFrom_iff`, `sweep_iff`, `exists_peak`.
-/
import ZenonX402.Lib.JsMap
import Mathlib.Algebra.BigOperators.Group.List.Basic
import Mathlib.Algebra.GroupWithZero.Nat
import Mathlib.Data.List.Sort
import Mathlib.Data.Finset.Max

namespace Js

/-- A weight from the day `start` on, up to the day `stop` if there is one. -/
structure Span where
  start : Nat
  stop : Option Nat
  weight : Nat

namespace Span

def Covers (s : Span) (d : Nat) : Prop := s.start ≤ d ∧ ∀ e ∈ s.stop, d ≤ e

instance (s : Span) (d : Nat) : Decidable (s.Covers d) := inferInstanceAs (Decidable (_ ∧ _))

/-- It does not end before it starts. -/
def Proper (s : Span) : Prop := ∀ e ∈ s.stop, s.start ≤ e

/-- The weight on the day `d`. -/
def load (s : Span) (d : Nat) : Nat := if s.Covers d then s.weight else 0

/-- The weight on the day `d` of a span that started before it. -/
def before (s : Span) (d : Nat) : Nat := if s.start < d ∧ s.Covers d then s.weight else 0

def starts (s : Span) (d : Nat) : Nat := if s.start = d then s.weight else 0

def ends (s : Span) (d : Nat) : Nat := if s.stop = some d then s.weight else 0

/-- The days on which it starts and ends. -/
def days (s : Span) : List Nat := s.start :: s.stop.toList

/-- What a day begins with and what starts on it. -/
theorem load_eq {s : Span} (h : s.Proper) (d : Nat) : s.load d = s.before d + s.starts d := by
  unfold load before starts
  by_cases hd : s.start = d
  · have hcov : s.Covers d := ⟨hd.le, fun e he => hd ▸ h e he⟩
    rw [if_pos hcov, if_neg (by omega), if_pos hd, Nat.zero_add]
  · have hiff : (s.start < d ∧ s.Covers d) ↔ s.Covers d :=
      ⟨fun hc => hc.2, fun hc => ⟨lt_of_le_of_ne hc.1 hd, hc⟩⟩
    rw [if_neg hd, Nat.add_zero]
    simp only [hiff]

/-- What is left of a day's load after its end is what the next day begins
with, when nothing starts or ends in between. -/
theorem load_eq_next {s : Span} (h : s.Proper) {d d' : Nat} (hlt : d < d')
    (hgap : ∀ x ∈ s.days, x ≤ d ∨ d' ≤ x) : s.load d = s.before d' + s.ends d := by
  have hstart := hgap s.start (List.mem_cons_self ..)
  unfold load before ends
  cases hstop : s.stop with
  | none =>
    simp only [Covers, hstop, Option.mem_def, reduceCtorEq, false_implies, implies_true,
      and_true, if_false, Nat.add_zero]
    by_cases hs : s.start ≤ d
    · rw [if_pos hs, if_pos (by omega)]
    · rw [if_neg hs, if_neg (by omega)]
  | some e =>
    have hproper := h e hstop
    have he := hgap e (by simp [days, hstop])
    simp only [Covers, hstop, Option.mem_def, Option.some.injEq, forall_eq']
    by_cases hed : e = d
    · rw [if_pos ⟨by omega, by omega⟩, if_neg (by omega), if_pos hed, Nat.zero_add]
    · rw [if_neg hed, Nat.add_zero]
      by_cases hs : s.start ≤ d ∧ d ≤ e
      · rw [if_pos hs, if_pos ⟨by omega, by omega, by omega⟩]
      · rw [if_neg hs, if_neg (by omega)]

end Span

/-- The weight of all spans on the day `d`. -/
def load (spans : List Span) (d : Nat) : Nat := (spans.map fun s => s.load d).sum

/-! ### The sweep -/

/-- What starts and what ends on a day; nothing on a day that is not listed. -/
def event (events : JsMap Nat (Nat × Nat)) (d : Nat) : Nat × Nat := (events.get? d).getD (0, 0)

def addStart (events : JsMap Nat (Nat × Nat)) (d weight : Nat) : JsMap Nat (Nat × Nat) :=
  events.set d ((event events d).1 + weight, (event events d).2)

def addEnd (events : JsMap Nat (Nat × Nat)) (d weight : Nat) : JsMap Nat (Nat × Nat) :=
  events.set d ((event events d).1, (event events d).2 + weight)

def addSpan (events : JsMap Nat (Nat × Nat)) (s : Span) : JsMap Nat (Nat × Nat) :=
  match s.stop with
  | none => addStart events s.start s.weight
  | some e => addEnd (addStart events s.start s.weight) e s.weight

def events (spans : List Span) : JsMap Nat (Nat × Nat) := spans.foldl addSpan .empty

/-- The days in their order, with the load carried from one to the next. -/
def sweepFrom (limit : Nat) (events : JsMap Nat (Nat × Nat)) : List Nat → Int → Bool
  | [], _ => true
  | d :: days, carried =>
    if (limit : Int) < carried + (event events d).1 then false
    else sweepFrom limit events days (carried + (event events d).1 - (event events d).2)

def sweep (limit : Nat) (spans : List Span) : Bool :=
  sweepFrom limit (events spans) ((events spans).keys.insertionSort (· ≤ ·)) 0

theorem event_set (m : JsMap Nat (Nat × Nat)) (d d' : Nat) (v : Nat × Nat) :
    event (m.set d v) d' = if d' = d then v else event m d' := by
  unfold event
  rw [JsMap.get?_set]
  split <;> rfl

theorem event_addSpan (m : JsMap Nat (Nat × Nat)) (s : Span) (d : Nat) :
    event (addSpan m s) d = ((event m d).1 + s.starts d, (event m d).2 + s.ends d) := by
  have hstart (d : Nat) : event (addStart m s.start s.weight) d =
      ((event m d).1 + s.starts d, (event m d).2) := by
    unfold addStart Span.starts
    rw [event_set]
    by_cases hd : d = s.start
    · rw [if_pos hd, hd, if_pos rfl]
    · rw [if_neg hd, if_neg (Ne.symm hd), Nat.add_zero]
  unfold addSpan Span.ends
  cases hstop : s.stop with
  | none =>
    simp only [hstart, reduceCtorEq, if_false, Nat.add_zero]
  | some e =>
    simp only [addEnd, event_set, hstart, Option.some.injEq]
    by_cases hd : d = e
    · rw [if_pos hd, hd, if_pos rfl]
    · rw [if_neg hd, if_neg (Ne.symm hd), Nat.add_zero]

theorem mem_keys_addSpan (m : JsMap Nat (Nat × Nat)) (s : Span) (d : Nat) :
    d ∈ (addSpan m s).keys ↔ d ∈ m.keys ∨ d ∈ s.days := by
  have hset (m : JsMap Nat (Nat × Nat)) (k : Nat) (v : Nat × Nat) : d ∈ (m.set k v).keys ↔
      d ∈ m.keys ∨ d = k := by
    simp only [JsMap.mem_keys_iff, JsMap.get?_set]
    by_cases hk : d = k
    · simp [hk]
    · simp [hk]
  unfold addSpan Span.days
  cases s.stop with
  | none => simp [addStart, hset]
  | some e => simp [addEnd, addStart, hset, or_assoc]

/-- The map that is built has the sums over the spans, at the days of the spans. -/
theorem foldl_addSpan : ∀ (spans : List Span) (m : JsMap Nat (Nat × Nat)) (d : Nat),
    event (spans.foldl addSpan m) d = ((event m d).1 + (spans.map fun s => s.starts d).sum,
        (event m d).2 + (spans.map fun s => s.ends d).sum)
      ∧ (d ∈ (spans.foldl addSpan m).keys ↔ d ∈ m.keys ∨ ∃ s ∈ spans, d ∈ s.days)
  | [], m, d => by simp
  | s :: spans, m, d => by
    obtain ⟨hevent, hkeys⟩ := foldl_addSpan spans (addSpan m s) d
    rw [List.foldl_cons, hevent, hkeys, event_addSpan, mem_keys_addSpan]
    simp only [List.map_cons, List.sum_cons, Nat.add_assoc, List.exists_mem_cons_iff,
      or_assoc, and_self]

theorem event_events (spans : List Span) (d : Nat) : event (events spans) d =
    ((spans.map fun s => s.starts d).sum, (spans.map fun s => s.ends d).sum) := by
  have h := (foldl_addSpan spans .empty d).1
  simp only [event, JsMap.get?_empty, Option.getD_none, Nat.zero_add] at h
  exact h

theorem mem_keys_events {spans : List Span} {d : Nat} :
    d ∈ (events spans).keys ↔ ∃ s ∈ spans, d ∈ s.days := by
  refine (foldl_addSpan spans .empty d).2.trans ?_
  simp [JsMap.mem_keys_iff]

/-! ### What the sweep decides -/

/-- What the sweep carries to the day `d`. -/
def carried (spans : List Span) (d : Nat) : Nat := (spans.map fun s => s.before d).sum

theorem load_eq_carried {spans : List Span} (h : ∀ s ∈ spans, s.Proper) (d : Nat) :
    load spans d = carried spans d + (event (events spans) d).1 := by
  rw [event_events]
  unfold load carried
  rw [List.map_congr_left fun s hs => Span.load_eq (h s hs) d]
  exact List.sum_map_add

theorem load_eq_carried_next {spans : List Span} (h : ∀ s ∈ spans, s.Proper) {d d' : Nat}
    (hlt : d < d') (hgap : ∀ s ∈ spans, ∀ x ∈ s.days, x ≤ d ∨ d' ≤ x) :
    load spans d = carried spans d' + (event (events spans) d).2 := by
  rw [event_events]
  unfold load carried
  rw [List.map_congr_left fun s hs => Span.load_eq_next (h s hs) hlt (hgap s hs)]
  exact List.sum_map_add

/-- From a day on, with what is carried to it, the sweep compares the load of
each day of the list. -/
theorem sweepFrom_iff {limit : Nat} {spans : List Span} (h : ∀ s ∈ spans, s.Proper) :
    ∀ (d : Nat) (days : List Nat), (d :: days).Pairwise (· < ·) →
      (∀ s ∈ spans, ∀ x ∈ s.days, d ≤ x → x ∈ d :: days) →
      (sweepFrom limit (events spans) (d :: days) (carried spans d) = true ↔
        ∀ x ∈ d :: days, load spans x ≤ limit)
  | d, days, hsorted, hall => by
    have hload := load_eq_carried h d
    unfold sweepFrom
    by_cases hover : (limit : Int) < (carried spans d : Int) + (event (events spans) d).1
    · rw [if_pos hover]
      refine ⟨fun hf => (by cases hf), fun hle => ?_⟩
      have := hle d (List.mem_cons_self ..)
      omega
    · rw [if_neg hover, List.forall_mem_cons]
      have hd : load spans d ≤ limit := by omega
      cases days with
      | nil => simp [sweepFrom, hd]
      | cons d' days =>
        obtain ⟨hfirst, hrest⟩ := List.pairwise_cons.mp hsorted
        have hlt : d < d' := hfirst d' (List.mem_cons_self ..)
        have hmem : ∀ s ∈ spans, ∀ x ∈ s.days, d < x → x ∈ d' :: days := by
          intro s hs x hx hdx
          rcases List.mem_cons.mp (hall s hs x hx hdx.le) with rfl | hx'
          · exact absurd hdx (lt_irrefl _)
          · exact hx'
        have hgap : ∀ s ∈ spans, ∀ x ∈ s.days, x ≤ d ∨ d' ≤ x := by
          intro s hs x hx
          by_cases hdx : x ≤ d
          · exact .inl hdx
          · rcases List.mem_cons.mp (hmem s hs x hx (by omega)) with rfl | hx'
            · exact .inr le_rfl
            · exact .inr ((List.pairwise_cons.mp hrest).1 x hx').le
        have hnext := load_eq_carried_next h hlt hgap
        have hcarried : (carried spans d : Int) + (event (events spans) d).1
            - (event (events spans) d).2
            = carried spans d' := by omega
        rw [hcarried, sweepFrom_iff h d' days hrest fun s hs x hx hle => hmem s hs x hx (by omega)]
        simp [hd]

/-- No day's load exceeds the limit when none of the days on which a span
starts or ends does. -/
theorem load_le_of_events {limit : Nat} {spans : List Span}
    (hle : ∀ s ∈ spans, ∀ x ∈ s.days, load spans x ≤ limit) (d : Nat) : load spans d ≤ limit := by
  by_cases hstarts : ∃ s ∈ spans, s.start = d
  · obtain ⟨s, hs, rfl⟩ := hstarts
    exact hle s hs s.start (List.mem_cons_self ..)
  · have hne : ∀ s ∈ spans, s.start ≠ d := fun s hs he => hstarts ⟨s, hs, he⟩
    cases d with
    | zero =>
      have hzero : load spans 0 = 0 := by
        unfold load
        refine List.sum_eq_zero fun x hx => ?_
        obtain ⟨s, hs, rfl⟩ := List.mem_map.mp hx
        unfold Span.load
        exact if_neg fun hc => hne s hs (Nat.le_zero.mp hc.1)
      omega
    | succ d =>
      -- nothing starts on this day, so whatever covers it covers the day before
      have hprev : load spans (d + 1) ≤ load spans d := by
        unfold load
        refine List.sum_le_sum fun s hs => ?_
        have hs := hne s hs
        unfold Span.load
        by_cases hc : s.Covers (d + 1)
        · have hc' : s.Covers d := by
            have hstart := hc.1
            exact ⟨by omega, fun e he => by have := hc.2 e he; omega⟩
          rw [if_pos hc, if_pos hc']
        · rw [if_neg hc]
          exact Nat.zero_le _
      exact hprev.trans (load_le_of_events hle d)

/-- The sweep passes exactly when no day's load exceeds the limit. -/
theorem sweep_iff {limit : Nat} {spans : List Span} (h : ∀ s ∈ spans, s.Proper) :
    sweep limit spans = true ↔ ∀ d, load spans d ≤ limit := by
  have hperm := List.perm_insertionSort (· ≤ ·) (events spans).keys
  have hmem {x : Nat} : x ∈ (events spans).keys.insertionSort (· ≤ ·) ↔ ∃ s ∈ spans,
      x ∈ s.days := by
    rw [hperm.mem_iff, mem_keys_events]
  have hsorted : ((events spans).keys.insertionSort (· ≤ ·)).Pairwise (· < ·) := by
    have hle := List.pairwise_insertionSort (· ≤ ·) (events spans).keys
    have hnodup : ((events spans).keys.insertionSort (· ≤ ·)).Nodup :=
      hperm.nodup_iff.mpr (events spans).nodup
    exact hle.imp₂ (fun _ _ hab hne => lt_of_le_of_ne hab hne) hnodup
  have hdays : (∀ x ∈ (events spans).keys.insertionSort (· ≤ ·), load spans x ≤ limit) ↔
      ∀ d, load spans d ≤ limit := by
    refine ⟨fun hle => load_le_of_events fun s hs x hx => hle x (hmem.mpr ⟨s, hs, hx⟩),
      fun hle x _ => hle x⟩
  rw [← hdays]
  unfold sweep
  cases hkeys : (events spans).keys.insertionSort (· ≤ ·) with
  | nil => simp [sweepFrom]
  | cons d days =>
    rw [hkeys] at hmem hsorted
    have hfirst : carried spans d = 0 := by
      unfold carried
      refine List.sum_eq_zero fun x hx => ?_
      obtain ⟨s, hs, rfl⟩ := List.mem_map.mp hx
      unfold Span.before
      refine if_neg fun hc => ?_
      rcases List.mem_cons.mp (hmem.mpr ⟨s, hs, List.mem_cons_self ..⟩) with he | hlater
      · exact absurd hc.1 (by omega)
      · have := (List.pairwise_cons.mp hsorted).1 _ hlater
        exact absurd hc.1 (by omega)
    have hiff := @sweepFrom_iff limit spans h d days hsorted fun s hs x hx _ => hmem.mpr ⟨s, hs, hx⟩
    rw [hfirst] at hiff
    exact hiff

/-- Some day has the greatest load of all. -/
theorem exists_peak : ∀ spans : List Span, ∃ d, ∀ d', load spans d' ≤ load spans d
  | [] => ⟨0, fun _ => le_rfl⟩
  | s :: spans => by
    have hmem {x : Nat} : x ∈ ((s :: spans).flatMap Span.days).toFinset ↔ ∃ t ∈ s :: spans,
        x ∈ t.days := by
      rw [List.mem_toFinset, List.mem_flatMap]
    have hstart : s.start ∈ ((s :: spans).flatMap Span.days).toFinset :=
      hmem.mpr ⟨s, List.mem_cons_self .., List.mem_cons_self ..⟩
    obtain ⟨d, -, hmax⟩ := Finset.exists_max_image _ (load (s :: spans)) ⟨s.start, hstart⟩
    exact ⟨d, load_le_of_events fun t ht x hx => hmax x (hmem.mpr ⟨t, ht, hx⟩)⟩

end Js
