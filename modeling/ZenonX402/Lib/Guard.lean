/-
# Calls of ports under guard

An owner that is handed its ports calls them synchronously, and may be closed while
one of them runs. A port that throws, or during which the owner is closed, leaves
it held: it does nothing from then on. `Guarded` is a state with these two flags,
`ask` a call of a port, `now` a reading of the clock. Whatever is answered, they do
nothing but set the flags (`ask_quiet`, `now_quiet`).

Key definitions: `Guarded`, `Answer`, `Exchange`, `hold`, `ask`, `orHold`, `now`, `Quiet`.
Key theorems: `hold_quiet`, `ask_quiet`, `now_quiet`, `now_held`.
-/
import ZenonX402.Lib.Codec
import ZenonX402.Lib.Prog

namespace Js

/-- What a port answers, if it does not throw, and whether the owner is closed meanwhile. -/
structure Answer where
  closes : Bool
  value : Option Value

/-- What becomes of a swap: whether it reaches the store, whether the owner is closed meanwhile, and
whether the answer arrives. -/
structure Exchange where
  reaches : Bool
  closes : Bool
  answers : Bool

/-- A state with an owner that may be closed, and may be held. -/
class Guarded (σ : Type) where
  closed : σ → Bool
  closing : Bool → σ → σ
  held : σ → σ

/-- A safe integer from zero on. -/
def isCount (n : Int) : Bool := decide (0 ≤ n)

abbrev Count := {n : Int // n.natAbs ≤ 9007199254740991 ∧ isCount n = true}

namespace Count

def zero : Count := ⟨0, by decide⟩

theorem nonneg (n : Count) : 0 ≤ n.1 := of_decide_eq_true n.2.2

/-- One more, as long as it is a safe integer. -/
def succ? (n : Count) : Option Count :=
  if h : n.1 + 1 ≤ 9007199254740991 then some ⟨n.1 + 1, by
    have hn := n.nonneg
    exact ⟨by omega, decide_eq_true (by omega)⟩⟩
  else none

theorem succ?_some {n m : Count} (h : succ? n = some m) : m.1 = n.1 + 1 := by
  unfold succ? at h
  split at h
  · exact congrArg (fun m : Count => m.1) (Option.some.inj h).symm
  · cases h

end Count

namespace Prog

variable {σ ε α : Type} [Guarded σ]

/-- `held = true; fail(e)`. -/
def hold (e : ε) : Prog σ ε α := do
  modify Guarded.held
  throw e

/-- A call of a port that holds the owner if it throws or if the owner is closed meanwhile:
`try { v = port(); afterPort(); } catch { held = true; fail(closed ? 'CLOSED' : unknown); }`. -/
def ask (a : Answer) (closed unknown : ε) : Prog σ ε Value := do
  modify (Guarded.closing a.closes)
  let x ← get
  if Guarded.closed x = true then hold closed
  else match a.value with
    | none => hold unknown
    | some v => pure v

/-- `try { p } catch { held = true; fail(closed ? 'CLOSED' : unknown); }`. -/
def orHold (p : Prog σ ε α) (closed unknown : ε) : Prog σ ε α :=
  ExceptT.mk fun s => match p.exec s with
    | (.ok a, s') => (.ok a, s')
    | (.error _, s') => (hold (if Guarded.closed s' = true then closed else unknown) :
        Prog σ ε α).exec s'

/-- The number of a count. -/
def count? (v : Value) : Option Count := ((Codec.integer isCount ()).decode v).toOption

/-- A reading of the clock, which must be a count. -/
def now (clock : Answer) (closed unknown : ε) : Prog σ ε Count := do
  let v ← ask clock closed unknown
  match count? v with
  | none => hold unknown
  | some n => pure n

/-- A relation of what comes before and after that does not see the flags. -/
structure Quiet (R : σ → σ → Prop) : Prop where
  refl : ∀ x, R x x
  trans : ∀ {x y z}, R x y → R y z → R x z
  closing : ∀ closes x, R x (Guarded.closing closes x)
  held : ∀ x, R x (Guarded.held x)

variable {R : σ → σ → Prop}

theorem hold_quiet (hR : Quiet R) (e : ε) (x : σ) :
    Ends (hold e : Prog σ ε α) x fun r y => R x y ∧ r = .error e := by
  unfold hold
  rw [ends_modify, ends_throw]
  exact ⟨hR.held x, rfl⟩

theorem orHold_quiet (hR : Quiet R) {p : Prog σ ε α} (closed unknown : ε) {x : σ}
    (h : Ends p x fun _ y => R x y) :
    Ends (orHold p closed unknown) x fun _ y => R x y := by
  unfold Ends at h ⊢
  unfold orHold
  change R x (match p.exec x with
    | (.ok a, s') => (.ok a, s')
    | (.error _, s') => (hold (if Guarded.closed s' = true then closed else unknown) :
        Prog σ ε α).exec s' :
      Except ε α × σ).2
  split
  · rename_i heq
    rw [heq] at h
    exact h
  · rename_i heq
    rw [heq] at h
    exact hR.trans h (hold_quiet hR _ _).1

/-- What fails in one of these holds the owner. -/
theorem hold_held (e : ε) (x : σ) :
    Ends (hold e : Prog σ ε α) x fun r y => (∃ z, y = Guarded.held z) ∧ r = .error e :=
  ⟨⟨x, rfl⟩, rfl⟩

theorem ask_held (a : Answer) (closed unknown : ε) (x : σ) :
    Ends (ask a closed unknown) x fun r y => ∀ e, r = .error e → ∃ z, y = Guarded.held z := by
  unfold ask
  rw [ends_modify, ends_get, ends_ite]
  refine ⟨fun _ => (hold_held _ _).mono fun _ _ h _ _ => h.1, fun _ => ?_⟩
  cases a.value with
  | none => exact (hold_held _ _).mono fun _ _ h _ _ => h.1
  | some v => exact ends_pure.mpr nofun

theorem now_held (clock : Answer) (closed unknown : ε) (x : σ) :
    Ends (now clock closed unknown) x fun r y => ∀ e, r = .error e → ∃ z, y = Guarded.held z := by
  unfold now
  rw [ends_bind]
  refine (ask_held clock closed unknown x).mono fun r y h => ?_
  cases r with
  | error e => exact fun _ _ => h e rfl
  | ok v =>
    dsimp only
    cases count? v with
    | none => exact (hold_held _ _).mono fun _ _ h _ _ => h.1
    | some n => exact ends_pure.mpr nofun

theorem ask_quiet (hR : Quiet R) (a : Answer) (closed unknown : ε) (x : σ) :
    Ends (ask a closed unknown) x fun _ y => R x y := by
  have hclosing := hR.closing a.closes x
  unfold ask
  rw [ends_modify, ends_get, ends_ite]
  refine ⟨fun _ => (hold_quiet hR _ _).mono fun _ _ h => hR.trans hclosing h.1, fun _ => ?_⟩
  cases a.value with
  | none => exact (hold_quiet hR _ _).mono fun _ _ h => hR.trans hclosing h.1
  | some v => exact ends_pure.mpr hclosing

theorem now_quiet (hR : Quiet R) (clock : Answer) (closed unknown : ε) (x : σ) :
    Ends (now clock closed unknown) x fun _ y => R x y := by
  unfold now
  rw [ends_bind]
  refine (ask_quiet hR clock closed unknown x).mono fun r y h => ?_
  cases r with
  | error e => exact h
  | ok v =>
    dsimp only
    cases count? v with
    | none => exact (hold_quiet hR _ _).mono fun _ _ h' => hR.trans h h'.1
    | some n => exact ends_pure.mpr h

end Prog
end Js
