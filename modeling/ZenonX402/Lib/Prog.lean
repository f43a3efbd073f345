/-
# Programs that throw and keep what they did

A synchronous JavaScript function over some state: it returns or throws, and
either way leaves the state as far as it got, since a throw undoes nothing.
`Ends p s Q` says that from `s` the program `p` ends with an outcome and a
state of which `Q` holds. The rules (`ends_bind` and those after it) take a
program apart statement by statement, so a proof about a function follows its
text.

Key definitions: `Prog`, `exec`, `Ends`, `failIf`, `orFail`, `lift`,
`finallyDo`, `attempt`.
Key theorems: `ends_bind`, `Ends.mono`, `ends_finallyDo`.
-/
import Mathlib.Tactic.TypeStar

namespace Js

abbrev Prog (σ ε α : Type) := ExceptT ε (StateM σ) α

namespace Prog

variable {σ ε α β : Type}

/-- Run a program: what it returns or throws, and the state it leaves. -/
def exec (p : Prog σ ε α) (s : σ) : Except ε α × σ := p.run.run s

/-- `if (c) fail(e)`. -/
def failIf (c : Prop) [Decidable c] (e : ε) : Prog σ ε Unit := if c then throw e else pure ()

/-- The value of a lookup that must succeed. -/
def orFail (o : Option α) (e : ε) : Prog σ ε α := match o with
  | some a => pure a
  | none => throw e

/-- A pure check inside a program. -/
def lift (x : Except ε α) : Prog σ ε α := match x with
  | .ok a => pure a
  | .error e => throw e

/-- `try { p } finally { f }` where `f` only writes. -/
def finallyDo (p : Prog σ ε α) (f : σ → σ) : Prog σ ε α :=
  ExceptT.mk fun s => ((p.exec s).1, f (p.exec s).2)

/-- `try { p } catch {}`. -/
def attempt (p : Prog σ ε α) : Prog σ ε Unit :=
  ExceptT.mk fun s => (.ok (), (p.exec s).2)

/-- From `s` the program ends so that `Q` holds. -/
def Ends (p : Prog σ ε α) (s : σ) (Q : Except ε α → σ → Prop) : Prop := Q (p.exec s).1 (p.exec s).2

theorem Ends.mono {p : Prog σ ε α} {s : σ} {Q R : Except ε α → σ → Prop} (h : Ends p s Q)
    (hqr : ∀ r s', Q r s' → R r s') : Ends p s R := hqr _ _ h

theorem Ends.and {p : Prog σ ε α} {s : σ} {Q R : Except ε α → σ → Prop} (h : Ends p s Q)
    (h' : Ends p s R) :
    Ends p s fun r s' => Q r s' ∧ R r s' := ⟨h, h'⟩

theorem ends_pure {a : α} {s : σ} {Q : Except ε α → σ → Prop} :
    Ends (pure a) s Q ↔ Q (.ok a) s := Iff.rfl

theorem ends_throw {e : ε} {s : σ} {Q : Except ε α → σ → Prop} :
    Ends (throw e) s Q ↔ Q (.error e) s := Iff.rfl

theorem exec_bind (p : Prog σ ε α) (f : α → Prog σ ε β) (s : σ) :
    (p >>= f).exec s = match p.exec s with
      | (.ok a, s') => (f a).exec s'
      | (.error e, s') => (.error e, s') := by
  simp only [exec, ExceptT.run_bind, StateT.run_bind]
  generalize StateT.run p.run s = r
  obtain ⟨x, s'⟩ := r
  cases x <;> rfl

theorem ends_bind {p : Prog σ ε α} {f : α → Prog σ ε β} {s : σ} {Q : Except ε β → σ → Prop} :
    Ends (p >>= f) s Q ↔ Ends p s fun r s' => match r with
      | .ok a => Ends (f a) s' Q
      | .error e => Q (.error e) s' := by
  unfold Ends
  rw [exec_bind]
  generalize p.exec s = r
  obtain ⟨x, s'⟩ := r
  cases x <;> rfl

/-! ### One statement and the rest -/

theorem ends_get {f : σ → Prog σ ε β} {s : σ} {Q : Except ε β → σ → Prop} :
    Ends (get >>= f) s Q ↔ Ends (f s) s Q := ends_bind

theorem ends_modify {g : σ → σ} {f : PUnit → Prog σ ε β} {s : σ} {Q : Except ε β → σ → Prop} :
    Ends (modify g >>= f) s Q ↔ Ends (f ⟨⟩) (g s) Q := ends_bind

theorem ends_failIf {c : Prop} [Decidable c] {e : ε} {f : Unit → Prog σ ε β} {s : σ}
    {Q : Except ε β → σ → Prop} :
    Ends (failIf c e >>= f) s Q ↔ (c → Q (.error e) s) ∧ (¬ c → Ends (f ()) s Q) := by
  rw [ends_bind]
  unfold failIf
  by_cases h : c
  · rw [if_pos h, ends_throw]
    exact ⟨fun hq => ⟨fun _ => hq, fun hn => absurd h hn⟩, fun hq => hq.1 h⟩
  · rw [if_neg h, ends_pure]
    exact ⟨fun hq => ⟨fun hc => absurd hc h, fun _ => hq⟩, fun hq => hq.2 h⟩

theorem ends_orFail {o : Option α} {e : ε} {f : α → Prog σ ε β} {s : σ}
    {Q : Except ε β → σ → Prop} :
    Ends (orFail o e >>= f) s Q ↔
      (o = none → Q (.error e) s) ∧ ∀ a, o = some a → Ends (f a) s Q := by
  rw [ends_bind]
  cases o with
  | none => simp [orFail, ends_throw]
  | some a => simp [orFail, ends_pure]

theorem ends_lift {x : Except ε α} {f : α → Prog σ ε β} {s : σ} {Q : Except ε β → σ → Prop} :
    Ends (lift x >>= f) s Q ↔
      (∀ e, x = .error e → Q (.error e) s) ∧ ∀ a, x = .ok a → Ends (f a) s Q := by
  rw [ends_bind]
  cases x with
  | error e => simp [lift, ends_throw]
  | ok a => simp [lift, ends_pure]

theorem ends_finallyDo {p : Prog σ ε α} {g : σ → σ} {s : σ} {Q : Except ε α → σ → Prop} :
    Ends (finallyDo p g) s Q ↔ Ends p s fun r s' => Q r (g s') := Iff.rfl

theorem ends_attempt {p : Prog σ ε α} {f : Unit → Prog σ ε β} {s : σ} {Q : Except ε β → σ → Prop} :
    Ends (attempt p >>= f) s Q ↔ Ends p s fun _ s' => Ends (f ()) s' Q := ends_bind

/-- `try { p } catch { h }` and the rest. -/
theorem ends_tryCatch {p : Prog σ ε α} {h : ε → Prog σ ε α} {f : α → Prog σ ε β} {s : σ}
    {Q : Except ε β → σ → Prop} :
    Ends (tryCatch p h >>= f) s Q ↔ Ends p s fun r s' => match r with
      | .ok a => Ends (f a) s' Q
      | .error e => Ends (h e >>= f) s' Q := by
  have hexec : (tryCatch p h).exec s = match p.exec s with
      | (.ok a, s') => (.ok a, s')
      | (.error e, s') => (h e).exec s' := by
    have hcases (r : Except ε α × σ) : (StateT.run (match r.1 with
        | .ok a => (pure (.ok a) : StateM σ (Except ε α))
        | .error e => (h e).run) r.2 : Except ε α × σ) = match r with
        | (.ok a, s') => (.ok a, s')
        | (.error e, s') => (h e).exec s' := by
      obtain ⟨x, s'⟩ := r
      cases x <;> rfl
    exact hcases (p.exec s)
  rw [ends_bind]
  unfold Ends
  rw [hexec]
  generalize p.exec s = r
  obtain ⟨x, s'⟩ := r
  cases x with
  | ok a => rfl
  | error e =>
    simp only [exec_bind]
    generalize (h e).exec s' = r
    obtain ⟨y, t⟩ := r
    cases y <;> rfl

theorem ends_ite {c : Prop} [Decidable c] {p q : Prog σ ε α} {s : σ} {Q : Except ε α → σ → Prop} :
    Ends (if c then p else q) s Q ↔ (c → Ends p s Q) ∧ (¬ c → Ends q s Q) := by
  by_cases h : c
  · rw [if_pos h]
    exact ⟨fun hp => ⟨fun _ => hp, fun hn => absurd h hn⟩, fun hp => hp.1 h⟩
  · rw [if_neg h]
    exact ⟨fun hq => ⟨fun hc => absurd hc h, fun _ => hq⟩, fun hq => hq.2 h⟩

/-- A program that leaves the state as it is. -/
theorem ends_of_exec {p : Prog σ ε α} {x : Except ε α} {f : α → Prog σ ε β} {s : σ}
    {Q : Except ε β → σ → Prop} (h : p.exec s = (x, s)) :
    Ends (p >>= f) s Q ↔ (∀ e, x = .error e → Q (.error e) s) ∧ ∀ a, x = .ok a →
    Ends (f a) s Q := by
  rw [ends_bind]
  unfold Ends
  rw [h]
  cases x with
  | error e => simp
  | ok a => simp

/-- A program whose outcome is known. -/
theorem ends_of_returns {p : Prog σ ε α} {a : α} {f : α → Prog σ ε β} {s s' : σ}
    {Q : Except ε β → σ → Prop} (h : p.exec s = (.ok a, s')) :
    Ends (p >>= f) s Q ↔ Ends (f a) s' Q := by
  rw [ends_bind, show Ends p s = fun R => R (p.exec s).1 (p.exec s).2 from rfl, h]

/-- What a program returns, put into another type. -/
theorem ends_map {p : Prog σ ε α} {g : α → β} {s : σ} {Q : Except ε β → σ → Prop} :
    Ends (p >>= fun a => pure (g a)) s Q ↔ Ends p s fun r s' => Q (r.map g) s' := by
  rw [ends_bind]
  unfold Ends
  generalize p.exec s = r
  obtain ⟨x, s'⟩ := r
  cases x <;> rfl

/-- What a program's outcome is, when every way it can end is this one. -/
theorem exec_eq_of_ends {p : Prog σ ε α} {s : σ} {r : Except ε α} {s' : σ}
    (h : Ends p s fun x t => x = r ∧ t = s') : p.exec s = (r, s') := Prod.ext h.1 h.2

end Prog
end Js
