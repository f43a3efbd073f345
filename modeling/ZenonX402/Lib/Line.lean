/-
# A line for one turn

Those who arrive are numbered. One of them has the turn; while somebody has it the
others wait, and who gives the turn up hands it to the first who waits. A line that
was closed lets nobody wait and gives no turn any more.

So the turn goes round in the order of arrival (`Orderly`), and who waits behind `k`
others has stopped waiting once the turn was given up `k + 1` times (`waits`).

Key definitions: `Line`, `Line.Step`, `Line.Orderly`.
Key theorems: `Step.orderly`, `Step.shut`, `Line.waits`.
-/
import ZenonX402.Lib.Trace
import Mathlib.Data.List.Basic
import Mathlib.Tactic.Linarith

namespace Js

structure Line where
  active : Option Nat
  waiting : List Nat
  served : List Nat
  arrived : Nat
  closed : Bool
  deriving DecidableEq

namespace Line

/-- What happens in a line; the flag tells whether the turn is given up. -/
inductive Step : Line → Bool → Line → Prop
  | stay (a : Line) : Step a false a
  | enter (a : Line) (hopen : a.closed = false) (hidle : a.active = none) :
      Step a false { a with active := some a.arrived, served := a.served ++ [a.arrived], arrived := a.arrived + 1 }
  | wait (a : Line) (hopen : a.closed = false) (hbusy : a.active ≠ none) :
      Step a false { a with waiting := a.waiting ++ [a.arrived], arrived := a.arrived + 1 }
  | turnAway (a : Line) (hclosed : a.closed = true) :
      Step a false { a with arrived := a.arrived + 1 }
  | idle (a : Line) (hempty : a.waiting = []) : Step a true { a with active := none }
  | next (a : Line) (n : Nat) (rest : List Nat) (hopen : a.closed = false)
      (hwaiting : a.waiting = n :: rest) :
      Step a true { a with active := some n, waiting := rest, served := a.served ++ [n] }
  | close (a : Line) : Step a false { a with waiting := [], closed := true }

/-- Turns were and will be taken in the order of arrival, and nobody waits for nobody. -/
structure Orderly (a : Line) : Prop where
  served : a.served.Pairwise (· < ·)
  waiting : a.waiting.Pairwise (· < ·)
  before : ∀ i ∈ a.served, ∀ j ∈ a.waiting, i < j
  arrived : ∀ i ∈ a.served ++ a.waiting, i < a.arrived
  busy : a.waiting ≠ [] → a.active ≠ none
  shut : a.closed = true → a.waiting = []

variable {a b c : Line} {turn : Bool}

theorem orderly_empty : Orderly ⟨none, [], [], 0, false⟩ :=
  ⟨.nil, .nil, nofun, nofun, fun h => absurd rfl h, fun h => by cases h⟩

theorem pairwise_concat {xs : List Nat} {n : Nat} (h : xs.Pairwise (· < ·)) (hn : ∀ i ∈ xs, i < n) :
    (xs ++ [n]).Pairwise (· < ·) := by
  refine List.pairwise_append.mpr ⟨h, List.pairwise_singleton .., fun i hi j hj => ?_⟩
  rw [List.mem_singleton.mp hj]
  exact hn i hi

theorem Step.orderly (h : a.Step turn b) (ha : a.Orderly) : b.Orderly := by
  have hserved : ∀ i ∈ a.served, i < a.arrived :=
    fun i hi => ha.arrived i (List.mem_append_left _ hi)
  have hwaiting : ∀ i ∈ a.waiting, i < a.arrived :=
    fun i hi => ha.arrived i (List.mem_append_right _ hi)
  cases h with
  | stay => exact ha
  | enter hopen hidle =>
    have hempty : a.waiting = [] := by
      by_contra hne
      exact ha.busy hne hidle
    refine ⟨pairwise_concat ha.served hserved, ha.waiting, fun i _ j hj => ?_, fun i hi => ?_,
      fun _ => nofun, ha.shut⟩
    · rw [hempty] at hj
      cases hj
    · simp only [hempty, List.append_nil, List.mem_append, List.mem_singleton] at hi
      rcases hi with hi | rfl
      · exact (hserved i hi).trans (Nat.lt_succ_self _)
      · exact Nat.lt_succ_self _
  | wait hopen hbusy =>
    refine ⟨ha.served, pairwise_concat ha.waiting hwaiting, fun i hi j hj => ?_, fun i hi => ?_,
      fun _ => hbusy, fun hclosed => ?_⟩
    · rcases List.mem_append.mp hj with hj | hj
      · exact ha.before i hi j hj
      · rw [List.mem_singleton.mp hj]
        exact hserved i hi
    · simp only [List.mem_append, List.mem_singleton] at hi
      rcases hi with hi | hi | rfl
      · exact (hserved i hi).trans (Nat.lt_succ_self _)
      · exact (hwaiting i hi).trans (Nat.lt_succ_self _)
      · exact Nat.lt_succ_self _
    · rw [hopen] at hclosed
      cases hclosed
  | turnAway hclosed =>
    exact ⟨ha.served, ha.waiting, ha.before,
      fun i hi => (ha.arrived i hi).trans (Nat.lt_succ_self _), ha.busy, ha.shut⟩
  | idle hempty => exact ⟨ha.served, ha.waiting, ha.before, ha.arrived,
      fun hne => absurd hempty hne, ha.shut⟩
  | next n rest hopen heq =>
    have hsorted := heq ▸ ha.waiting
    have hn : n ∈ a.waiting := heq ▸ List.mem_cons_self
    refine ⟨pairwise_concat ha.served fun i hi => ha.before i hi n hn,
      (List.pairwise_cons.mp hsorted).2, fun i hi j hj => ?_, fun i hi => ?_, fun _ => nofun,
      fun hclosed => ?_⟩
    · rcases List.mem_append.mp hi with hi | hi
      · exact ha.before i hi j (heq ▸ List.mem_cons_of_mem _ hj)
      · rw [List.mem_singleton.mp hi]
        exact (List.pairwise_cons.mp hsorted).1 j hj
    · apply ha.arrived i
      rw [heq]
      simpa using hi
    · rw [hopen] at hclosed
      cases hclosed
  | close =>
    exact ⟨ha.served, .nil, fun _ _ _ hj => (nomatch hj), fun i hi => hserved i (by simpa using hi),
      fun hne => absurd rfl hne, fun _ => rfl⟩

/-- A closed line stays closed and serves nobody any more. -/
theorem Step.shut (h : a.Step turn b) (hclosed : a.closed = true) :
    b.closed = true ∧ b.served = a.served := by
  cases h with
  | enter hopen _ | wait hopen _ | next _ _ hopen _ =>
    rw [hopen] at hclosed
    cases hclosed
  | stay | turnAway _ | idle _ | close => exact ⟨by first | exact hclosed | rfl, rfl⟩

/-- What a step does to those who wait: the first is served when the turn is given up, and new ones
go to the end. -/
theorem Step.waits (h : a.Step turn b) :
    b.closed = true ∨ ∃ new, b.waiting = a.waiting.drop turn.toNat ++ new := by
  cases h with
  | stay | enter _ _ | turnAway _ => exact .inr ⟨[], (List.append_nil _).symm⟩
  | wait _ _ => exact .inr ⟨[a.arrived], rfl⟩
  | idle hempty =>
    refine .inr ⟨[], ?_⟩
    simp [hempty]
  | next n rest _ heq =>
    refine .inr ⟨[], ?_⟩
    simp [heq]
  | close => exact .inl rfl

/-- How often the turn is given up. -/
def turns {ℓ : Type} (freed : ℓ → Bool) (ls : List ℓ) : Nat := (ls.map fun l => (freed l).toNat).sum

/-- Whatever runs on a line gives turns to those who wait, one after the other, unless the line is
closed. -/
theorem waits {σ ℓ : Type} {step : σ → ℓ → σ → Prop} {I : σ → Prop} {line : σ → Line}
    {freed : ℓ → Bool} (hI : ∀ s l t, I s → step s l t → I t)
    (hline : ∀ s l t, I s → step s l t → (line s).Step (freed l) (line t)) {s t : σ} {ls : List ℓ}
    (h : Run step s ls t) (hs : I s) :
    (line t).closed = true ∨ ∃ new, (line t).waiting = (line s).waiting.drop (turns freed ls)
      ++ new := by
  induction h with
  | nil s => exact .inr ⟨[], (List.append_nil _).symm⟩
  | @cons s t u l ls hstep rest ih =>
    have hfirst := hline s l t hs hstep
    rcases ih (hI s l t hs hstep) with hclosed | ⟨new, hnew⟩
    · exact .inl hclosed
    rcases hfirst.waits with hclosed | ⟨more, hmore⟩
    · have hshut : (line u).closed = true :=
        rest.invariant (I := fun s => I s ∧ (line s).closed = true)
          (fun s l t hs hstep => ⟨hI s l t hs.1 hstep, ((hline s l t hs.1 hstep).shut hs.2).1⟩)
          ⟨hI s l t hs hstep, hclosed⟩ |>.2
      exact .inl hshut
    · refine .inr ⟨more.drop (turns freed ls - ((line s).waiting.drop (freed l).toNat).length)
        ++ new, ?_⟩
      have hturns : turns freed (l :: ls) = (freed l).toNat + turns freed ls := rfl
      rw [hnew, hmore, List.drop_append, List.drop_drop, hturns, List.append_assoc]

end Line
end Js
