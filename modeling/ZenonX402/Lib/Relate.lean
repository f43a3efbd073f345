/-
# Two programs side by side

`Relates p q s t V R`: run from `s` and from `t`, two programs throw the same or both
return, values that are alike (`V`), and leave states that belong together (`R`). The
rules take both programs apart statement by statement, as those of `Ends` take one.

Two systems whose calls relate in this way answer every sequence of calls alike
(`answers_alike`).

Key definitions: `Alike`, `Relates`, `answers`.
Key theorems: `relates_bind`, `Relates.join`, `answers_alike`.
-/
import ZenonX402.Lib.Prog
import ZenonX402.Lib.Trace
import Mathlib.Data.List.Forall2

namespace Js

/-- The same error, or values that are alike. -/
inductive Alike {ε α β : Type} (V : α → β → Prop) : Except ε α → Except ε β → Prop
  | ok {a : α} {b : β} (h : V a b) : Alike V (.ok a) (.ok b)
  | error (e : ε) : Alike V (.error e) (.error e)

theorem Alike.isOk {ε α β : Type} {V : α → β → Prop} {x : Except ε α} {y : Except ε β}
    (h : Alike V x y) :
    x.isOk = y.isOk := by
  cases h <;> rfl

namespace Prog

variable {σ τ ε α β α' β' : Type} {s : σ} {t : τ} {V : α → β → Prop} {W : α' → β' → Prop}
    {R : σ → τ → Prop}

def Relates (p : Prog σ ε α) (q : Prog τ ε β) (s : σ) (t : τ) (V : α → β → Prop)
    (R : σ → τ → Prop) : Prop :=
  Alike V (p.exec s).1 (q.exec t).1 ∧ R (p.exec s).2 (q.exec t).2

theorem relates_pure {a : α} {b : β} (hV : V a b) (hR : R s t) :
    Relates (pure a : Prog σ ε α) (pure b : Prog τ ε β) s t V R := ⟨.ok hV, hR⟩

theorem relates_throw {e : ε} (hR : R s t) :
    Relates (throw e : Prog σ ε α) (throw e : Prog τ ε β) s t V R :=
  ⟨.error e, hR⟩

theorem relates_bind {p : Prog σ ε α'} {q : Prog τ ε β'} {f : α' → Prog σ ε α} {g : β' → Prog τ ε β}
    (h : Relates p q s t W R)
    (hnext : ∀ a b s' t', W a b → R s' t' → Relates (f a) (g b) s' t' V R) :
    Relates (p >>= f) (q >>= g) s t V R := by
  unfold Relates at h ⊢
  rw [exec_bind, exec_bind]
  generalize p.exec s = x at h ⊢
  generalize q.exec t = y at h ⊢
  obtain ⟨x, s'⟩ := x
  obtain ⟨y, t'⟩ := y
  obtain ⟨halike, hR⟩ := h
  cases halike with
  | ok hW => exact hnext _ _ _ _ hW hR
  | error e => exact ⟨.error e, hR⟩

theorem relates_get {f : σ → Prog σ ε α} {g : τ → Prog τ ε β} (h : Relates (f s) (g t) s t V R) :
    Relates (get >>= f) (get >>= g) s t V R := h

theorem relates_modify {m : σ → σ} {m' : τ → τ} {f : PUnit → Prog σ ε α} {g : PUnit → Prog τ ε β}
    (h : Relates (f ⟨⟩) (g ⟨⟩) (m s) (m' t) V R) :
    Relates (modify m >>= f) (modify m' >>= g) s t V R := h

theorem relates_modify_last {m : σ → σ} {m' : τ → τ} {U : PUnit → PUnit → Prop} (hU : U ⟨⟩ ⟨⟩)
    (h : R (m s) (m' t)) :
    Relates (modify m : Prog σ ε PUnit) (modify m' : Prog τ ε PUnit) s t U R := ⟨.ok hU, h⟩

theorem relates_failIf {c : Prop} [Decidable c] {e : ε} (hR : R s t) :
    Relates (failIf c e : Prog σ ε Unit) (failIf c e : Prog τ ε Unit) s t (fun _ _ => True) R := by
  unfold failIf
  split
  · exact relates_throw hR
  · exact relates_pure trivial hR

theorem relates_orFail {o : Option α} {e : ε} (hR : R s t) :
    Relates (orFail o e : Prog σ ε α) (orFail o e : Prog τ ε α) s t Eq R := by
  cases o with
  | none => exact relates_throw hR
  | some a => exact relates_pure rfl hR

/-- Two programs that both relate to a third one relate to each other. -/
theorem Relates.join {ρ γ : Type} {r : Prog ρ ε γ} {u : ρ} {U : α → γ → Prop} {U' : β → γ → Prop}
    {S : σ → ρ → Prop} {S' : τ → ρ → Prop} {p : Prog σ ε α} {q : Prog τ ε β}
    (h : Relates p r s u U S) (h' : Relates q r t u U' S') :
    Relates p q s t (fun a b => ∃ c, U a c ∧ U' b c) fun s t => ∃ u, S s u ∧ S' t u := by
  obtain ⟨halike, hS⟩ := h
  obtain ⟨halike', hS'⟩ := h'
  refine ⟨?_, _, hS, hS'⟩
  generalize (p.exec s).1 = x at halike ⊢
  generalize (q.exec t).1 = y at halike' ⊢
  generalize (r.exec u).1 = z at halike halike'
  cases halike with
  | error e =>
    cases halike'
    exact .error e
  | ok hU =>
    cases halike' with
    | ok hU' => exact .ok ⟨_, hU, hU'⟩

theorem relates_map {p : Prog σ ε α'} {q : Prog τ ε β'} {f : α' → α} {g : β' → β}
    (h : Relates p q s t W R) (hV : ∀ a b, W a b → V (f a) (g b)) :
    Relates (f <$> p) (g <$> q) s t V R := by
  rw [map_eq_pure_bind, map_eq_pure_bind]
  exact relates_bind h fun a b s' t' hW hR => relates_pure (hV a b hW) hR

theorem Relates.imp {V' : α → β → Prop} {R' : σ → τ → Prop} {p : Prog σ ε α} {q : Prog τ ε β}
    (h : Relates p q s t V R) (hV : ∀ a b, V a b → V' a b) (hR : ∀ s t, R s t → R' s t) :
    Relates p q s t V' R' := by
  obtain ⟨halike, hR'⟩ := h
  refine ⟨?_, hR _ _ hR'⟩
  generalize (p.exec s).1 = x at halike ⊢
  generalize (q.exec t).1 = y at halike ⊢
  cases halike with
  | ok h => exact .ok (hV _ _ h)
  | error e => exact .error e

end Prog

section Answers

variable {σ τ ε κ α β : Type} {work : κ → Prog σ ε α} {work' : κ → Prog τ ε β}

/-- What the calls, one after the other, return or throw. -/
def answers (work : κ → Prog σ ε α) (s : σ) : List κ → List (Except ε α)
  | [] => []
  | call :: calls => ((work call).exec s).1 :: answers work ((work call).exec s).2 calls

theorem run_answers (s : σ) (calls : List κ) : ∃ t,
    Run (fun s (l : κ × Except ε α) t => (work l.1).exec s = (l.2, t)) s
    (calls.zip (answers work s calls)) t := by
  induction calls generalizing s with
  | nil => exact ⟨s, .nil s⟩
  | cons call calls ih =>
    obtain ⟨t, ht⟩ := ih ((work call).exec s).2
    exact ⟨t, .cons rfl ht⟩

/-- An answer is that of a call. -/
theorem mem_answers {s : σ} {calls : List κ} {a : Except ε α} (h : a ∈ answers work s calls) :
    ∃ call, (call, a) ∈ calls.zip (answers work s calls) := by
  induction calls generalizing s with
  | nil => cases h
  | cons call calls ih =>
    rcases List.mem_cons.mp h with rfl | h
    · exact ⟨call, List.mem_cons_self⟩
    · obtain ⟨other, hmem⟩ := ih h
      exact ⟨other, List.mem_cons_of_mem _ hmem⟩

/-- Alike answers are found at the same places. -/
theorem alike_mem {V : α → β → Prop} {xs : List (Except ε α)} {ys : List (Except ε β)}
    (h : List.Forall₂ (Alike V) xs ys) {a : α} (ha : .ok a ∈ xs) : ∃ b, .ok b ∈ ys ∧ V a b := by
  induction h with
  | nil => cases ha
  | cons halike _ ih =>
    rcases List.mem_cons.mp ha with rfl | ha
    · cases halike with
      | ok hV => exact ⟨_, List.mem_cons_self, hV⟩
    · obtain ⟨b, hb, hV⟩ := ih ha
      exact ⟨b, List.mem_cons_of_mem _ hb, hV⟩

/-- Where every call relates two systems, they answer every sequence of calls alike. -/
theorem answers_alike {R : σ → τ → Prop} {V : α → β → Prop}
    (h : ∀ call s t, R s t → Prog.Relates (work call) (work' call) s t V R) {s : σ} {t : τ}
    (hR : R s t) (calls : List κ) :
    List.Forall₂ (Alike V) (answers work s calls) (answers work' t calls) := by
  induction calls generalizing s t with
  | nil => exact .nil
  | cons call calls ih =>
    obtain ⟨halike, hnext⟩ := h call s t hR
    exact .cons halike (ih hnext)

end Answers

end Js
