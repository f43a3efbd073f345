/-
# Search with a budget

Candidates below a bound are tried one after the other, as many as the budget allows
(`search`). What is found is the first that matches (`search_found`); the range is
exhausted if none does up to the bound (`search_range`), and otherwise the search can be
resumed at the next candidate (`search_budget`), which is the same as one search with both
budgets (`search_add`).

Key definitions: `Outcome`, `search`, `attempts`.
Key theorems: `search_found`, `search_range`, `search_budget`, `search_add`, `attempts_add`.
-/
import Mathlib.Order.Interval.Finset.Nat

namespace Search

/-- How a search ends. -/
inductive Outcome where
  | found (candidate : Nat)
  | range
  | budget (next : Nat)
  deriving DecidableEq

variable (p : Nat → Bool) (bound : Nat)

/-- Try candidates from a cursor on. -/
def search : Nat → Nat → Outcome
  | 0, cursor => .budget cursor
  | m + 1, cursor =>
    if p cursor then .found cursor
    else if cursor + 1 = bound then .range
    else search m (cursor + 1)

/-- How many candidates are tried. -/
def attempts : Nat → Nat → Nat
  | 0, _ => 0
  | m + 1, cursor => if p cursor ∨ cursor + 1 = bound then 1 else attempts m (cursor + 1) + 1

variable {p bound}

/-- None of the candidates from one on and below another matches. -/
def NoneIn (p : Nat → Bool) (first last : Nat) : Prop := ∀ k, first ≤ k → k < last → p k = false

theorem noneIn_cons {first last : Nat} (hp : p first = false) (h : NoneIn p (first + 1) last) :
    NoneIn p first last := by
  intro k hfirst hlast
  rcases Nat.eq_or_lt_of_le hfirst with rfl | hlt
  · exact hp
  · exact h k hlt hlast

/-- What the outcome says of the candidates and of their number. -/
def Describes (p : Nat → Bool) (bound m cursor : Nat) : Outcome → Prop
  | .found n => cursor ≤ n ∧ n < cursor + m ∧ n < bound ∧ p n = true ∧ NoneIn p cursor n
      ∧ attempts p bound m cursor = n - cursor + 1
  | .range => bound ≤ cursor + m ∧ NoneIn p cursor bound ∧ attempts p bound m cursor
      = bound - cursor
  | .budget next => next = cursor + m ∧ next < bound ∧ NoneIn p cursor next
      ∧ attempts p bound m cursor = m

/-- **Outcome.** A search from below the bound is described by its outcome. -/
theorem search_describes :
    ∀ {m cursor : Nat}, cursor < bound → Describes p bound m cursor (search p bound m cursor)
  | 0, cursor, h => ⟨rfl, h, fun k hfirst hlast => by omega, rfl⟩
  | m + 1, cursor, h => by
    unfold search
    by_cases hp : p cursor = true
    · rw [if_pos hp]
      refine ⟨le_rfl, by omega, h, hp, fun k hfirst hlast => by omega, ?_⟩
      rw [attempts, if_pos (.inl hp)]
      omega
    · rw [if_neg hp]
      have hfalse : p cursor = false := Bool.eq_false_iff.mpr hp
      by_cases hlast : cursor + 1 = bound
      · rw [if_pos hlast]
        refine ⟨by omega, noneIn_cons hfalse fun k hfirst hless => by omega, ?_⟩
        rw [attempts, if_pos (.inr hlast)]
        omega
      · rw [if_neg hlast]
        have hattempts : attempts p bound (m + 1) cursor = attempts p bound m (cursor + 1) + 1 :=
          if_neg (not_or.mpr ⟨hp, hlast⟩)
        have ih := search_describes (m := m) (show cursor + 1 < bound by omega)
        generalize search p bound m (cursor + 1) = outcome at ih
        cases outcome with
        | found n =>
          obtain ⟨hle, hless, hbound, hmatch, hnone, hcount⟩ := ih
          exact ⟨by omega, by omega, hbound, hmatch, noneIn_cons hfalse hnone, by omega⟩
        | range =>
          obtain ⟨hreached, hnone, hcount⟩ := ih
          exact ⟨by omega, noneIn_cons hfalse hnone, by omega⟩
        | budget next =>
          obtain ⟨hnext, hless, hnone, hcount⟩ := ih
          exact ⟨by omega, hless, noneIn_cons hfalse hnone, by omega⟩

theorem search_found {m cursor n : Nat} (h : cursor < bound) : search p bound m cursor = .found n ↔
    cursor ≤ n ∧ n < cursor + min m (bound - cursor) ∧ p n = true ∧ NoneIn p cursor n := by
  have hdescribes := search_describes (p := p) (m := m) h
  constructor
  · intro heq
    rw [heq] at hdescribes
    obtain ⟨hle, hless, hbound, hmatch, hnone, -⟩ := hdescribes
    exact ⟨hle, by omega, hmatch, hnone⟩
  · rintro ⟨hle, hless, hmatch, hnone⟩
    generalize search p bound m cursor = outcome at hdescribes
    cases outcome with
    | found n' =>
      obtain ⟨hle', hless', hbound', hmatch', hnone', -⟩ := hdescribes
      rcases Nat.lt_trichotomy n n' with hlt | rfl | hlt
      · rw [hnone' n hle hlt] at hmatch
        cases hmatch
      · rfl
      · rw [hnone n' hle' hlt] at hmatch'
        cases hmatch'
    | range =>
      rw [hdescribes.2.1 n hle (by omega)] at hmatch
      cases hmatch
    | budget next =>
      obtain ⟨rfl, -, hnone', -⟩ := hdescribes
      rw [hnone' n hle (by omega)] at hmatch
      cases hmatch

theorem search_range {m cursor : Nat} (h : cursor < bound) : search p bound m cursor = .range ↔
    NoneIn p cursor (cursor + min m (bound - cursor)) ∧ bound ≤ cursor + m := by
  have hdescribes := search_describes (p := p) (m := m) h
  constructor
  · intro heq
    rw [heq] at hdescribes
    obtain ⟨hreached, hnone, -⟩ := hdescribes
    exact ⟨fun k hfirst hlast => hnone k hfirst (by omega), hreached⟩
  · rintro ⟨hnone, hreached⟩
    generalize search p bound m cursor = outcome at hdescribes
    cases outcome with
    | found n =>
      obtain ⟨hle, hless, hbound, hmatch, -, -⟩ := hdescribes
      rw [hnone n hle (by omega)] at hmatch
      cases hmatch
    | range => rfl
    | budget next =>
      obtain ⟨rfl, hless, -, -⟩ := hdescribes
      omega

theorem search_budget {m cursor next : Nat} (h : cursor < bound) :
    search p bound m cursor = .budget next ↔
    NoneIn p cursor (cursor + min m (bound - cursor)) ∧ cursor + m < bound ∧ next = cursor + m := by
  have hdescribes := search_describes (p := p) (m := m) h
  constructor
  · intro heq
    rw [heq] at hdescribes
    obtain ⟨rfl, hless, hnone, -⟩ := hdescribes
    exact ⟨fun k hfirst hlast => hnone k hfirst (by omega), hless, rfl⟩
  · rintro ⟨hnone, hless, rfl⟩
    generalize search p bound m cursor = outcome at hdescribes
    cases outcome with
    | found n =>
      obtain ⟨hle, hless', hbound, hmatch, -, -⟩ := hdescribes
      rw [hnone n hle (by omega)] at hmatch
      cases hmatch
    | range =>
      obtain ⟨hreached, -, -⟩ := hdescribes
      omega
    | budget next => rw [hdescribes.1]

/-- **Resume.** A search that is resumed where its budget ended is one search with both budgets. -/
theorem search_add (m₂ : Nat) :
    ∀ (m₁ cursor : Nat), search p bound (m₁ + m₂) cursor = match search p bound m₁ cursor with
    | .budget next => search p bound m₂ next
    | outcome => outcome
  | 0, cursor => by rw [Nat.zero_add]; rfl
  | m₁ + 1, cursor => by
    have hstep (m : Nat) : search p bound (m + 1) cursor
        = if p cursor then .found cursor else if cursor + 1 = bound then .range
        else search p bound m (cursor + 1) := rfl
    rw [Nat.add_right_comm, hstep, hstep]
    by_cases hp : p cursor = true
    · rw [if_pos hp, if_pos hp]
    · rw [if_neg hp, if_neg hp]
      by_cases hlast : cursor + 1 = bound
      · rw [if_pos hlast, if_pos hlast]
      · rw [if_neg hlast, if_neg hlast, search_add m₂ m₁]

/-- A search that is resumed tries no candidate again and skips none. -/
theorem attempts_add (m₂ : Nat) :
    ∀ (m₁ cursor : Nat), attempts p bound (m₁ + m₂) cursor = match search p bound m₁ cursor with
    | .budget next => attempts p bound m₁ cursor + attempts p bound m₂ next
    | _ => attempts p bound m₁ cursor
  | 0, cursor => by
    rw [Nat.zero_add]
    exact (Nat.zero_add _).symm
  | m₁ + 1, cursor => by
    have hstep (m : Nat) : attempts p bound (m + 1) cursor
        = if p cursor ∨ cursor + 1 = bound then 1 else attempts p bound m (cursor + 1) + 1 := rfl
    have hsearch : search p bound (m₁ + 1) cursor
        = if p cursor then .found cursor else if cursor + 1 = bound then .range
        else search p bound m₁ (cursor + 1) := rfl
    rw [Nat.add_right_comm, hstep, hstep, hsearch]
    by_cases hp : p cursor = true
    · simp only [hp, true_or, if_true]
    · by_cases hlast : cursor + 1 = bound
      · simp only [hp, hlast, or_true, if_true, if_false, Bool.false_eq_true]
      · simp only [hp, hlast, or_self, if_false, Bool.false_eq_true]
        rw [attempts_add m₂ m₁]
        cases search p bound m₁ (cursor + 1) with
        | budget next => exact Nat.add_right_comm ..
        | _ => rfl

end Search
