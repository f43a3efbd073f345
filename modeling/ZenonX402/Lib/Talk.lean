/-
# Programs that call out

A program with a state of its own that calls out to what surrounds it, waits
for an answer and goes on: `Talk` is the tree of its questions. While it waits,
the surroundings may change its state, within limits (the `rely`). `Holds` says
that whatever is answered, every question and every outcome is one that it may
come to, given the last answer and the state that answer found; the rules take
a program apart statement by statement.

Key definitions: `Talk`, `Caller`, `Talk.Holds`.
Key theorems: `holds_bind`, `holds_ask`, `holds_ending`.
-/
import Mathlib.Tactic.TypeStar

namespace Js

/-- What is left of a program: it is done, or it asks and waits. -/
inductive Talk (κ ρ σ ε α : Type) : Type
  | done (result : Except ε α) (s : σ)
  | ask (q : κ) (s : σ) (next : σ → ρ → Talk κ ρ σ ε α)

/-- A program, from its state on. -/
def Caller (κ ρ σ ε α : Type) : Type := σ → Talk κ ρ σ ε α

variable {κ ρ σ ε α β : Type}

namespace Talk

/-- The state that the program has left for now. -/
def state : Talk κ ρ σ ε α → σ
  | done _ s => s
  | ask _ s _ => s

def bind (t : Talk κ ρ σ ε α) (f : α → Caller κ ρ σ ε β) : Talk κ ρ σ ε β := match t with
  | done (.ok a) s => f a s
  | done (.error e) s => done (.error e) s
  | ask q s next => ask q s fun s' r => (next s' r).bind f

/-- `try { t } finally { g }` where `g` only writes. -/
def ending (t : Talk κ ρ σ ε α) (g : σ → σ) : Talk κ ρ σ ε α := match t with
  | done r s => done r (g s)
  | ask q s next => ask q s fun s' r => (next s' r).ending g

end Talk

instance : Monad (Caller κ ρ σ ε) where
  pure a := fun s => .done (.ok a) s
  bind p f := fun s => (p s).bind f

namespace Caller

/-- Call out with `q`. -/
def ask (q : κ) : Caller κ ρ σ ε ρ := fun s => .ask q s fun s' r => .done (.ok r) s'

def get : Caller κ ρ σ ε σ := fun s => .done (.ok s) s

def modify (g : σ → σ) : Caller κ ρ σ ε Unit := fun s => .done (.ok ()) (g s)

def throw (e : ε) : Caller κ ρ σ ε α := fun s => .done (.error e) s

/-- `try { p } finally { g }` where `g` only writes. -/
def ending (p : Caller κ ρ σ ε α) (g : σ → σ) : Caller κ ρ σ ε α := fun s => (p s).ending g

end Caller

/-! ### What a program comes to -/

/-- The state that the last answer found, with the question and the answer; or the state at the
start. -/
abbrev Since (κ ρ σ : Type) : Type := σ × Option (κ × ρ)

namespace Talk

variable {rely : σ → σ → Prop} {Asks : Since κ ρ σ → κ → σ → Prop}
    {Ends : Since κ ρ σ → Except ε α → σ → Prop}

/-- Whatever is answered, the program asks as `Asks` allows and ends as `Ends` allows. -/
def Holds (rely : σ → σ → Prop) (Asks : Since κ ρ σ → κ → σ → Prop)
    (Ends : Since κ ρ σ → Except ε α → σ → Prop) : Since κ ρ σ → Talk κ ρ σ ε α → Prop
  | l, done r s => Ends l r s
  | l, ask q s next => Asks l q s ∧ ∀ s' r, rely s s' →
      (next s' r).Holds rely Asks Ends (s', some (q, r))

theorem Holds.mono {Ends' : Since κ ρ σ → Except ε α → σ → Prop} :
    ∀ {t : Talk κ ρ σ ε α} {l : Since κ ρ σ}, t.Holds rely Asks Ends l →
    (∀ l r s, Ends l r s → Ends' l r s) → t.Holds rely Asks Ends' l
  | done _ _, _, h, hends => hends _ _ _ h
  | ask _ _ _, _, h, hends => ⟨h.1, fun s' r hs => (h.2 s' r hs).mono hends⟩

theorem holds_bind {Ends : Since κ ρ σ → Except ε β → σ → Prop} {f : α → Caller κ ρ σ ε β} :
    ∀ {t : Talk κ ρ σ ε α} {l : Since κ ρ σ}, (t.bind f).Holds rely Asks Ends l ↔
      t.Holds rely Asks (fun l r s => match r with
        | .ok a => (f a s).Holds rely Asks Ends l
        | .error e => Ends l (.error e) s) l
  | done (.ok _) _, _ => Iff.rfl
  | done (.error _) _, _ => Iff.rfl
  | ask _ _ _, _ => and_congr_right fun _ => forall_congr' fun _ => forall_congr' fun _ =>
      imp_congr_right fun _ => holds_bind

theorem holds_ending {g : σ → σ} : ∀ {t : Talk κ ρ σ ε α} {l : Since κ ρ σ},
    (t.ending g).Holds rely Asks Ends l ↔ t.Holds rely Asks (fun l r s => Ends l r (g s)) l
  | done _ _, _ => Iff.rfl
  | ask _ _ _, _ => and_congr_right fun _ => forall_congr' fun _ => forall_congr' fun _ =>
      imp_congr_right fun _ => holds_ending

end Talk

namespace Caller

variable {rely : σ → σ → Prop} {Asks : Since κ ρ σ → κ → σ → Prop}
    {Ends : Since κ ρ σ → Except ε α → σ → Prop}
  {l : Since κ ρ σ} {s : σ}

/-- From the state `s` the program holds to its limits. -/
def Holds (rely : σ → σ → Prop) (Asks : Since κ ρ σ → κ → σ → Prop)
    (Ends : Since κ ρ σ → Except ε α → σ → Prop) (l : Since κ ρ σ) (s : σ)
    (p : Caller κ ρ σ ε α) : Prop :=
  (p s).Holds rely Asks Ends l

theorem holds_bind {p : Caller κ ρ σ ε β} {f : β → Caller κ ρ σ ε α} :
    (p >>= f).Holds rely Asks Ends l s ↔ p.Holds rely Asks (fun l r s => match r with
      | .ok b => (f b).Holds rely Asks Ends l s
      | .error e => Ends l (.error e) s) l s := Talk.holds_bind

theorem holds_get {f : σ → Caller κ ρ σ ε α} :
    (get >>= f).Holds rely Asks Ends l s ↔ (f s).Holds rely Asks Ends l s := Iff.rfl

theorem holds_modify {g : σ → σ} {f : Unit → Caller κ ρ σ ε α} :
    (modify g >>= f).Holds rely Asks Ends l s ↔ (f ()).Holds rely Asks Ends l (g s) := Iff.rfl

theorem holds_ask {q : κ} {f : ρ → Caller κ ρ σ ε α} : (ask q >>= f).Holds rely Asks Ends l s ↔
    Asks l q s ∧ ∀ s' r, rely s s' → (f r).Holds rely Asks Ends (s', some (q, r)) s' := Iff.rfl

theorem holds_ending {p : Caller κ ρ σ ε α} {g : σ → σ} :
    (p.ending g).Holds rely Asks Ends l s ↔ p.Holds rely Asks (fun l r s => Ends l r (g s)) l s :=
  Talk.holds_ending

theorem holds_ite {c : Prop} [Decidable c] {p q : Caller κ ρ σ ε α} :
    (if c then p else q).Holds rely Asks Ends l s ↔
      (c → p.Holds rely Asks Ends l s) ∧ (¬ c → q.Holds rely Asks Ends l s) := by
  by_cases h : c
  · simp [h]
  · simp [h]

end Caller
end Js
