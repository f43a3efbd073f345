/-
# Runs of a labelled transition system

`Run step s ls s'`: the steps with the labels `ls`, one after the other, lead
from `s` to `s'`. An invariant of the steps holds all along a run
(`Run.invariant`), a relation that is reflexive, transitive and holds across
every step holds from any state of the run to any later one (`Run.relates`),
and an event that needs a latch open and shuts it for good happens at most once
(`Run.atMostOnce`).

Key definitions: `Run`.
Key theorems: `Run.invariant`, `Run.relates`, `Run.atMostOnce`.
-/
import Mathlib.Logic.Relation

namespace Js

inductive Run {σ ℓ : Type} (step : σ → ℓ → σ → Prop) : σ → List ℓ → σ → Prop
  | nil (s : σ) : Run step s [] s
  | cons {s t u : σ} {l : ℓ} {ls : List ℓ} (h : step s l t) (rest : Run step t ls u) :
      Run step s (l :: ls) u

namespace Run

variable {σ ℓ : Type} {step : σ → ℓ → σ → Prop}

theorem append {s t u : σ} {ls ms : List ℓ} (h : Run step s ls t) (h' : Run step t ms u) :
    Run step s (ls ++ ms) u := by
  induction h with
  | nil s => exact h'
  | cons hstep _ ih => exact .cons hstep (ih h')

theorem split {s u : σ} {ms : List ℓ} : ∀ {ls : List ℓ}, Run step s (ls ++ ms) u →
    ∃ t, Run step s ls t ∧ Run step t ms u := by
  intro ls
  induction ls generalizing s with
  | nil => exact fun h => ⟨s, .nil s, h⟩
  | cons l ls ih =>
    intro h
    cases h with
    | cons hstep rest =>
      obtain ⟨t, h1, h2⟩ := ih rest
      exact ⟨t, .cons hstep h1, h2⟩

/-- What every step preserves holds at the end of a run. -/
theorem invariant {I : σ → Prop} (hstep : ∀ s l t, I s → step s l t → I t) {s u : σ} {ls : List ℓ}
    (h : Run step s ls u) (hs : I s) : I u := by
  induction h with
  | nil s => exact hs
  | cons hl _ ih => exact ih (hstep _ _ _ hs hl)

/-- What every step preserves of the state and of the labels so far holds at the end of a run. -/
theorem history {I : List ℓ → σ → Prop}
    (hstep : ∀ past s l t, I past s → step s l t → I (past ++ [l]) t) {s u : σ} {ls : List ℓ}
    (h : Run step s ls u) : ∀ {past : List ℓ}, I past s → I (past ++ ls) u := by
  induction h with
  | nil s =>
    intro past hs
    rwa [List.append_nil]
  | @cons s t u l ls hl _ ih =>
    intro past hs
    have hnext := ih (hstep past s l t hs hl)
    rwa [List.append_assoc] at hnext

/-- A preorder that every step from a good state respects holds from the
start of a run to its end. -/
theorem relates {I : σ → Prop} {R : σ → σ → Prop} (refl : ∀ s, R s s)
    (trans : ∀ {a b c}, R a b → R b c → R a c) (hI : ∀ s l t, I s → step s l t → I t)
    (hR : ∀ s l t, I s → step s l t → R s t) {s u : σ} {ls : List ℓ} (h : Run step s ls u)
    (hs : I s) : R s u := by
  induction h with
  | nil s => exact refl s
  | cons hl _ ih => exact trans (hR _ _ _ hs hl) (ih (hI _ _ _ hs hl))

/-- A latch that every step keeps shut, and that no step with the event finds shut. -/
theorem latched {I latch : σ → Prop} {event : ℓ → Prop} (hI : ∀ s l t, I s → step s l t → I t)
    (keep : ∀ s l t, I s → latch s → step s l t → ¬ event l ∧ latch t) {s u : σ} {ls : List ℓ}
    (h : Run step s ls u) (hs : I s) (hl : latch s) : latch u ∧ ∀ l ∈ ls, ¬ event l := by
  induction h with
  | nil s => exact ⟨hl, fun l hmem => by cases hmem⟩
  | @cons s t u l ls hstep _ ih =>
    obtain ⟨hnot, hl'⟩ := keep _ _ _ hs hl hstep
    obtain ⟨hlast, hrest⟩ := ih (hI _ _ _ hs hstep) hl'
    refine ⟨hlast, fun l' hmem => ?_⟩
    rcases List.mem_cons.mp hmem with rfl | hmem
    · exact hnot
    · exact hrest l' hmem

/-- Once the latch is shut no step carries the label. -/
theorem never {I latch : σ → Prop} {event : ℓ → Prop} (hI : ∀ s l t, I s → step s l t → I t)
    (keep : ∀ s l t, I s → latch s → step s l t → latch t)
    (fires : ∀ s l t, I s → step s l t → event l → ¬ latch s ∧ latch t) {s u : σ} {ls : List ℓ}
    (h : Run step s ls u) (hs : I s) (hl : latch s) : ∀ l ∈ ls, ¬ event l :=
  (h.latched hI (fun s l t hs hl hstep => ⟨fun he => (fires s l t hs hstep he).1 hl,
    keep s l t hs hl hstep⟩) hs hl).2

/-- An event that finds the latch open and leaves it shut, where nothing
opens it, happens at most once in a run. -/
theorem atMostOnce {I latch : σ → Prop} {event : ℓ → Prop} [DecidablePred event]
    (hI : ∀ s l t, I s → step s l t → I t) (keep : ∀ s l t, I s → latch s → step s l t → latch t)
    (fires : ∀ s l t, I s → step s l t → event l → ¬ latch s ∧ latch t) {s u : σ} {ls : List ℓ}
    (h : Run step s ls u) (hs : I s) : (ls.filter fun l => event l).length ≤ 1 := by
  induction h with
  | nil s => exact Nat.zero_le 1
  | @cons s t u l ls hstep rest ih =>
    by_cases he : event l
    · have hshut := (fires _ _ _ hs hstep he).2
      have hnone := never hI keep fires rest (hI _ _ _ hs hstep) hshut
      have hnil : (ls.filter fun l => event l) = [] :=
        List.filter_eq_nil_iff.mpr fun l' hl' => by simpa using hnone l' hl'
      rw [List.filter_cons_of_pos (by simpa using he), hnil]
      exact Nat.le_refl 1
    · rw [List.filter_cons_of_neg (by simpa using he)]
      exact ih (hI _ _ _ hs hstep)

end Run
end Js
