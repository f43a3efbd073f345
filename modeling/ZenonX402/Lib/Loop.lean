/-
# Loops that fail

A loop over a list that may fail, with a state it carries: `foldlM` in `Except`.
What a loop has established is stated of the elements it has processed so far,
and each round adds one (`foldlM_invariant`); a loop whose every round succeeds
where the invariant holds succeeds (`foldlM_progress`). A loop that first reads
each element and then works on what it read is two loops (`foldlM_read`).
`Gives` speaks of both ways a computation can end, and its rules take one apart
step by step. Loops that compare each element with the one before it leave a sorted list
(`pairwise_concat`), and a strictly sorted list is known by its elements
(`eq_of_perm_sorted`).

Key definitions: `rejectIf`, `orReject`, `failWith`, `Gives`.
Key theorems: `bind_ok`, `gives_bind`, `foldlM_invariant`, `foldlM_progress`, `foldlM_read`.
-/
import Mathlib.Order.RelClasses
import Mathlib.Data.List.Sort

namespace Js

variable {ε α β σ : Type}

/-- A computation that succeeds has succeeded at each step. -/
theorem bind_ok {x : Except ε α} {f : α → Except ε β} {b : β} :
    (x >>= f) = .ok b ↔ ∃ a, x = .ok a ∧ f a = .ok b := by
  cases x with
  | error e => simp [bind, Except.bind]
  | ok a => simp [bind, Except.bind]

/-- `if (c) fail(e)`. -/
def rejectIf (c : Prop) [Decidable c] (e : ε) : Except ε Unit := if c then .error e else .ok ()

/-- The value of a reading that must succeed. -/
def orReject (o : Option α) (e : ε) : Except ε α := match o with
  | some a => .ok a
  | none => .error e

theorem rejectIf_ok {c : Prop} [Decidable c] {e : ε} {u : Unit} : rejectIf c e = .ok u ↔ ¬ c := by
  unfold rejectIf
  by_cases h : c
  · simp [h]
  · simp [h]

theorem map_ok {x : Except ε α} {f : α → β} {b : β} :
    x.map f = .ok b ↔ ∃ a, x = .ok a ∧ f a = b := by
  cases x <;> simp [Except.map]

/-- An error that is handed on under another name. -/
theorem mapError_ok {ε' : Type} {x : Except ε α} {f : ε → ε'} {a : α} :
    x.mapError f = .ok a ↔ x = .ok a := by
  cases x <;> simp [Except.mapError]

theorem orReject_ok {o : Option α} {e : ε} {a : α} : orReject o e = .ok a ↔ o = some a := by
  cases o <;> simp [orReject]

theorem ite_error_left_ok {c : Prop} [Decidable c] {e : ε} {x : Except ε α} {a : α} :
    (if c then .error e else x) = .ok a ↔ ¬c ∧ x = .ok a := by
  by_cases h : c <;> simp [h]

theorem ite_error_right_ok {c : Prop} [Decidable c] {e : ε} {x : Except ε α} {a : α} :
    (if c then x else .error e) = .ok a ↔ c ∧ x = .ok a := by
  by_cases h : c <;> simp [h]

/-- A failure under another code. -/
def failWith {ε' : Type} (x : Except ε' α) (e : ε) : Except ε α := x.mapError fun _ => e

theorem failWith_ok {ε' : Type} {x : Except ε' α} {e : ε} {a : α} :
    failWith x e = .ok a ↔ x = .ok a := by
  cases x <;> simp [failWith, Except.mapError]

/-! ### Both outcomes -/

/-- The computation fails with an error of which `E` holds or gives a value of which `P` holds. -/
def Gives (x : Except ε α) (E : ε → Prop) (P : α → Prop) : Prop := match x with
  | .ok a => P a
  | .error e => E e

variable {E : ε → Prop} {P : α → Prop}

theorem Gives.mono {x : Except ε α} {E' : ε → Prop} {P' : α → Prop} (h : Gives x E P)
    (hE : ∀ e, E e → E' e) (hP : ∀ a, P a → P' a) : Gives x E' P' := by
  cases x with
  | ok a => exact hP a h
  | error e => exact hE e h

theorem gives_ok {a : α} : Gives (.ok a : Except ε α) E P ↔ P a := Iff.rfl

theorem gives_bind {x : Except ε β} {f : β → Except ε α} :
    Gives (x >>= f) E P ↔ (∀ e, x = .error e → E e) ∧ ∀ b, x = .ok b → Gives (f b) E P := by
  cases x with
  | error e => simp [Gives, bind, Except.bind]
  | ok b => simp [bind, Except.bind]

theorem Gives.bind {x : Except ε β} {f : β → Except ε α} {Q : β → Prop} (h : Gives x E Q)
    (hf : ∀ b, x = .ok b → Gives (f b) E P) : Gives (x >>= f) E P := by
  cases x with
  | error e => exact h
  | ok b => exact hf b rfl

theorem gives_of_ok {x : Except ε β} {b : β} {f : β → Except ε α} (h : x = .ok b) :
    Gives (x >>= f) E P ↔ Gives (f b) E P := by
  rw [h]
  rfl

theorem gives_rejectIf {c : Prop} [Decidable c] {e : ε} {f : Unit → Except ε α} :
    Gives (rejectIf c e >>= f) E P ↔ (c → E e) ∧ (¬ c → Gives (f ()) E P) := by
  unfold rejectIf
  by_cases h : c
  · simp [h, Gives, bind, Except.bind]
  · simp [h, bind, Except.bind]

theorem gives_orReject {o : Option β} {e : ε} {f : β → Except ε α} :
    Gives (orReject o e >>= f) E P ↔ (o = none → E e) ∧ ∀ b, o = some b → Gives (f b) E P := by
  cases o with
  | none => simp [orReject, Gives, bind, Except.bind]
  | some b => simp [orReject, bind, Except.bind]

theorem gives_ite {c : Prop} [Decidable c] {x y : Except ε α} :
    Gives (if c then x else y) E P ↔ (c → Gives x E P) ∧ (¬ c → Gives y E P) := by
  by_cases h : c
  · simp [h]
  · simp [h]

theorem gives_map {x : Except ε β} {g : β → α} :
    Gives (x.map g) E P ↔ Gives x E fun b => P (g b) := by
  cases x with
  | error e => exact Iff.rfl
  | ok b => exact Iff.rfl

/-! ### Loops -/

theorem foldlM_invariant {step : σ → α → Except ε σ} {I : List α → σ → Prop}
    (hstep : ∀ ps a s s', I ps s → step s a = .ok s' → I (ps ++ [a]) s') :
    ∀ (as ps : List α) (s r : σ), I ps s → as.foldlM step s = .ok r → I (ps ++ as) r
  | [], ps, s, r, hs, h => by
    cases h
    rwa [List.append_nil]
  | a :: as, ps, s, r, hs, h => by
    rw [List.foldlM_cons] at h
    obtain ⟨s', hs', hr⟩ := bind_ok.mp h
    have := foldlM_invariant hstep as (ps ++ [a]) s' r (hstep ps a s s' hs hs') hr
    rwa [List.append_assoc] at this

theorem foldlM_progress {step : σ → α → Except ε σ} {I : List α → σ → Prop} (whole : List α)
    (hstep : ∀ ps a as s, ps ++ a :: as = whole → I ps s → ∃ s', step s a = .ok s'
      ∧ I (ps ++ [a]) s') :
    ∀ (as ps : List α) (s : σ), ps ++ as = whole → I ps s → ∃ r, as.foldlM step s
      = .ok r ∧ I whole r
  | [], ps, s, hw, hs => ⟨s, rfl, by rwa [← hw, List.append_nil]⟩
  | a :: as, ps, s, hw, hs => by
    obtain ⟨s', hs', hI⟩ := hstep ps a as s hw hs
    have hw' : (ps ++ [a]) ++ as = whole := by rw [List.append_assoc]; exact hw
    obtain ⟨r, hr, hIr⟩ := foldlM_progress whole hstep as (ps ++ [a]) s' hw' hI
    exact ⟨r, by rw [List.foldlM_cons, hs']; exact hr, hIr⟩

/-- Reading and working in one loop is reading all and then working. -/
theorem foldlM_read {read : α → Except ε β} {step : σ → β → Except ε σ} :
    ∀ (as : List α) (s r : σ),
      as.foldlM (fun s a => read a >>= fun b => step s b) s = .ok r ↔
        ∃ bs, List.Forall₂ (fun a b => read a = .ok b) as bs ∧ bs.foldlM step s = .ok r
  | [], s, r => by
    constructor
    · intro h
      exact ⟨[], .nil, h⟩
    · rintro ⟨bs, hbs, h⟩
      cases hbs
      exact h
  | a :: as, s, r => by
    rw [List.foldlM_cons]
    constructor
    · intro h
      obtain ⟨s', hs', hr⟩ := bind_ok.mp h
      obtain ⟨b, hb, hstep⟩ := bind_ok.mp hs'
      obtain ⟨bs, hbs, hfold⟩ := (foldlM_read as s' r).mp hr
      exact ⟨b :: bs, .cons hb hbs, by rw [List.foldlM_cons, hstep]; exact hfold⟩
    · rintro ⟨bs, hbs, hfold⟩
      cases hbs with
      | cons hb hbs =>
        rw [List.foldlM_cons] at hfold
        obtain ⟨s', hs', hr⟩ := bind_ok.mp hfold
        exact bind_ok.mpr ⟨s', bind_ok.mpr ⟨_, hb, hs'⟩, (foldlM_read as s' r).mpr ⟨_, hbs, hr⟩⟩

/-- A sorted list with an element at its end that its last element precedes. -/
theorem pairwise_concat {R : α → α → Prop} [IsTrans α R] {ps : List α} {a : α} (h : ps.Pairwise R)
    (hlast : ∀ p ∈ ps.getLast?, R p a) : (ps ++ [a]).Pairwise R := by
  rw [List.pairwise_append]
  refine ⟨h, List.pairwise_singleton .., fun x hx y hy => ?_⟩
  rw [List.mem_singleton.mp hy]
  rcases List.eq_nil_or_concat ps with rfl | ⟨init, last, rfl⟩
  · cases hx
  · rw [List.concat_eq_append] at h hlast hx
    rw [List.pairwise_append] at h
    have hla : R last a := hlast last (by simp)
    rcases List.mem_append.mp hx with hx | hx
    · exact IsTrans.trans x last a (h.2.2 x hx last (List.mem_singleton_self last)) hla
    · rw [List.mem_singleton.mp hx]
      exact hla

/-- Sorting elements with different keys gives a strictly sorted list. -/
theorem pairwise_insertionSort_strict {κ : Type} {le lt : α → α → Prop} [DecidableRel le]
    [Std.Total le] [IsTrans α le] {key : α → κ} {l : List α} (hn : (l.map key).Nodup)
    (hlt : ∀ a b, le a b → key a ≠ key b → lt a b) : (l.insertionSort le).Pairwise lt := by
  have hsorted := List.pairwise_insertionSort le l
  have hkeys : (l.insertionSort le).Pairwise fun a b => key a ≠ key b := by
    rw [← List.pairwise_map]
    exact ((List.perm_insertionSort le l).map key).nodup_iff.mpr hn
  exact hsorted.imp₂ hlt hkeys

theorem eq_of_perm_sorted {lt : α → α → Prop} [IsTrans α lt] (irrefl : ∀ a, ¬ lt a a)
    {l l' : List α} (h : l.Pairwise lt) (h' : l'.Pairwise lt) (hp : l.Perm l') : l = l' :=
  List.Perm.eq_of_pairwise
    (fun a b _ _ hab hba => absurd (IsTrans.trans a b a hab hba) (irrefl a)) h h' hp

end Js
