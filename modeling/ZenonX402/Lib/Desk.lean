/-
# Owners of one stored record

A store that keeps one text and replaces exactly the text that is expected, and any
number of owners, each with its own copy of the record. An owner works at a desk
(`Desk`): it sees its own state and the store's, and what it does to the outside is
logged. It proposes a record in the place of its copy, and takes the proposal for
its copy when the store acknowledges it (`exchange`). The owners take turns, in any
order (`System`).

What every turn keeps, of the store with the log and of an owner at rest, holds
after any turns (`System.run_ok`).

Key definitions: `Desk`, `Keeping`, `Keeping.exchange`, `System`, `System.step`, `Practice`,
`setups`.
Key theorems: `exchange_spec`, `System.run_ok`.
-/
import ZenonX402.Lib.Guard
import ZenonX402.Lib.Json

namespace Js

/-- What an owner with a number works on during a turn, and what has been done so far. -/
structure Desk (ω δ : Type) where
  index : Nat
  owner : ω
  stored : Value
  log : List δ

namespace Desk

variable {ω δ : Type}

/-- The owner changes. -/
def alter (f : ω → ω) (x : Desk ω δ) : Desk ω δ := { x with owner := f x.owner }

/-- The owner does something to the outside. -/
def record (d : δ) (x : Desk ω δ) : Desk ω δ := { x with log := x.log ++ [d] }

instance [Guarded ω] : Guarded (Desk ω δ) where
  closed x := Guarded.closed x.owner
  closing closes := alter (Guarded.closing closes)
  held := alter Guarded.held

/-- Only the owner has changed, and not much. -/
structure Still (R : ω → ω → Prop) (x y : Desk ω δ) : Prop where
  index : y.index = x.index
  stored : y.stored = x.stored
  log : y.log = x.log
  owner : R x.owner y.owner

theorem still_quiet [Guarded ω] {R : ω → ω → Prop} (hR : Prog.Quiet R) :
    Prog.Quiet (@Still ω δ R) where
  refl x := ⟨rfl, rfl, rfl, hR.refl x.owner⟩
  trans h h' := ⟨h'.index.trans h.index, h'.stored.trans h.stored, h'.log.trans h.log,
    hR.trans h.owner h'.owner⟩
  closing closes x := ⟨rfl, rfl, rfl, hR.closing closes x.owner⟩
  held x := ⟨rfl, rfl, rfl, hR.held x.owner⟩

end Desk

/-- How an owner keeps its copy of a record, and how a swap is logged: by whom, in the place of
what, and whether it takes effect. -/
structure Keeping (ω ρ δ : Type) where
  text : ρ → String
  current : ω → Option ρ
  keep : ρ → ω → ω
  proposed : Nat → Option ρ → ρ → Bool → δ

namespace Keeping

open Prog

variable {ω ρ δ ε : Type} (K : Keeping ω ρ δ)

/-- The text of a record; `null` where there is none. -/
def value : Option ρ → Value
  | none => .null
  | some a => .str (K.text a)

/-- The swap reaches the store, which has exactly what the owner expects. -/
def applies (x : Desk ω δ) (e : Exchange) : Bool :=
  e.reaches && x.stored.strictEq (K.value (K.current x.owner))

/-- The store's part of a swap. -/
def swap (e : Exchange) (next : ρ) (x : Desk ω δ) : Desk ω δ :=
  { x with
    stored := if K.applies x e = true then .str (K.text next) else x.stored
    log := x.log ++ [K.proposed x.index (K.current x.owner) next (K.applies x e)] }

variable {K} in
theorem value_inj (htext : ∀ a b, K.text a = K.text b → a = b) {a b : Option ρ}
    (h : K.value a = K.value b) : a = b := by
  cases a with
  | none => cases b with
    | none => rfl
    | some b => cases h
  | some a => cases b with
    | none => cases h
    | some b => exact congrArg some (htext a b (Value.str.inj h))

variable {K} in
theorem strictEq_value {v : Value} {a : Option ρ} :
    v.strictEq (K.value a) = true ↔ v = K.value a := by
  cases a with
  | none => exact Value.strictEq_null
  | some a => exact Value.strictEq_str

variable {K} in
theorem stored_of_applies {x : Desk ω δ} {e : Exchange} (h : K.applies x e = true) :
    x.stored = K.value (K.current x.owner) :=
  strictEq_value.mp (Bool.and_eq_true_iff.mp h).2

variable [Guarded ω]

/-- The owner's part of a swap, which took effect or not: where it did not, the answer is not what
was proposed. -/
def acknowledge (next : ρ) (e : Exchange) (applied : Bool) (closed unknown conflict : ε) :
    Prog (Desk ω δ) ε ρ := do
  modify (Guarded.closing e.closes)
  let x ← get
  if Guarded.closed x = true then hold closed
  else if e.answers = false then hold unknown
  else if applied = false then hold conflict
  else do
    modify (Desk.alter (K.keep next))
    pure next

/-- A swap of the owner's copy for another record. -/
def exchange (next : ρ) (e : Exchange) (closed unknown conflict : ε) : Prog (Desk ω δ) ε ρ := do
  let x ← get
  modify (K.swap e next)
  K.acknowledge next e (K.applies x e) closed unknown conflict

variable {K} {R : ω → ω → Prop}

/-- What becomes of a swap: it is logged, the store takes it if it applies, and the owner takes it
at most then. -/
structure Swapped (K : Keeping ω ρ δ) (R : ω → ω → Prop) (next : ρ) (e : Exchange) (x : Desk ω δ)
    (r : Except ε ρ) (y : Desk ω δ) : Prop where
  index : y.index = x.index
  stored : y.stored = if K.applies x e = true then .str (K.text next) else x.stored
  log : y.log = x.log ++ [K.proposed x.index (K.current x.owner) next (K.applies x e)]
  owner : (∃ f, r = .error f ∧ R x.owner y.owner)
    ∨ r = .ok next ∧ K.applies x e = true ∧ ∃ o, R x.owner o ∧ y.owner = K.keep next o

theorem exchange_spec (hR : Quiet R) (next : ρ) (e : Exchange) (closed unknown conflict : ε)
    (x : Desk ω δ) :
    Ends (K.exchange next e closed unknown conflict) x (Swapped K R next e x) := by
  have hclosing := hR.closing e.closes x.owner
  have hheld (f : ε) : Ends (hold f : Prog (Desk ω δ) ε ρ)
      (Guarded.closing e.closes (K.swap e next x))
      (Swapped K R next e x) := by
    refine (hold_quiet (Desk.still_quiet hR) f _).mono fun r y h => ?_
    exact ⟨h.1.index, h.1.stored, h.1.log, .inl ⟨f, h.2, hR.trans hclosing h.1.owner⟩⟩
  unfold exchange acknowledge
  rw [ends_get, ends_modify, ends_modify, ends_get]
  simp only [ends_ite]
  refine ⟨fun _ => hheld _,
    fun _ => ⟨fun _ => hheld _, fun _ => ⟨fun _ => hheld _, fun happlied => ?_⟩⟩⟩
  rw [ends_modify, ends_pure]
  exact ⟨rfl, rfl, rfl, .inr ⟨rfl, by simpa using happlied, _, hclosing, rfl⟩⟩

end Keeping

/-! ### Any number of owners -/

/-- How owners come about, and what a turn of one comes to. -/
structure Practice (κ τ ω δ : Type) where
  create : κ → ω
  turn : τ → Desk ω δ → Desk ω δ

/-- What is stored, the owners so far, and what they did. -/
structure System (ω δ : Type) where
  stored : Value
  owners : List ω
  log : List δ

inductive Event (κ τ : Type)
  | create (setup : κ)
  | turn (index : Nat) (t : τ)

/-- What the owners were created with, in their order. -/
def setups {κ τ : Type} (events : List (Event κ τ)) : List κ := events.filterMap fun
  | .create setup => some setup
  | .turn _ _ => none

namespace System

variable {κ τ ω δ : Type} (P : Practice κ τ ω δ)

def initial : System ω δ := ⟨.null, [], []⟩

def step (σ : System ω δ) : Event κ τ → System ω δ
  | .create setup => { σ with owners := σ.owners ++ [P.create setup] }
  | .turn index t => match σ.owners[index]? with
    | none => σ
    | some o =>
      let x := P.turn t ⟨index, o, σ.stored, σ.log⟩
      ⟨x.stored, σ.owners.set index x.owner, x.log⟩

/-- After the events. -/
def run (σ : System ω δ) (events : List (Event κ τ)) : System ω δ := events.foldl (step P) σ

/-- After a turn the store and the log are in order, the log is longer at most, and the owner rests.
-/
structure Done (Ledger : Value → List δ → Prop) (Rests : ω → Nat → List δ → Prop) (x y : Desk ω δ) :
    Prop where
  ledger : Ledger y.stored y.log
  index : y.index = x.index
  log : x.log <+: y.log
  rests : Rests y.owner y.index y.log

structure Ok (Ledger : Value → List δ → Prop) (Rests : ω → Nat → List δ → Prop) (σ : System ω δ) :
    Prop where
  ledger : Ledger σ.stored σ.log
  rests : ∀ (index : Nat) (o : ω), σ.owners[index]? = some o → Rests o index σ.log

variable {P} {Ledger : Value → List δ → Prop} {Rests : ω → Nat → List δ → Prop}

theorem step_turn_ok (hgrows : ∀ o index log log', log <+: log' → Rests o index log →
      Rests o index log')
    (hturn : ∀ t x, Ledger x.stored x.log → Rests x.owner x.index x.log →
      Done Ledger Rests x (P.turn t x))
    {σ : System ω δ} (h : σ.Ok Ledger Rests) (index : Nat) (t : τ) :
    (σ.step P (.turn index t)).Ok Ledger Rests := by
  unfold step
  dsimp only
  split
  · exact h
  · rename_i o ho
    have hdone := hturn t ⟨index, o, σ.stored, σ.log⟩ h.ledger (h.rests index o ho)
    refine ⟨hdone.ledger, fun j o' ho' => ?_⟩
    dsimp only at ho'
    rw [List.getElem?_set] at ho'
    split at ho'
    · rename_i hj
      subst hj
      split at ho'
      · have hrests := hdone.rests
        rw [hdone.index, Option.some.inj ho'] at hrests
        exact hrests
      · cases ho'
    · exact hgrows o' j _ _ hdone.log (h.rests j o' ho')

theorem step_create_ok {σ : System ω δ} (h : σ.Ok Ledger Rests) {setup : κ}
    (hcreate : Rests (P.create setup) σ.owners.length σ.log) :
    (σ.step P (.create setup)).Ok Ledger Rests := by
  refine ⟨h.ledger, fun index o ho => ?_⟩
  change (σ.owners ++ [P.create setup])[index]? = some o at ho
  rcases lt_trichotomy index σ.owners.length with hlt | heq | hgt
  · rw [List.getElem?_append_left hlt] at ho
    exact h.rests index o ho
  · rw [heq, List.getElem?_concat_length] at ho
    rw [heq, ← Option.some.inj ho]
    exact hcreate
  · rw [List.getElem?_eq_none (by simpa using Nat.succ_le_of_lt hgt)] at ho
    cases ho

theorem length_turn (σ : System ω δ) (index : Nat) (t : τ) :
    (σ.step P (.turn index t)).owners.length = σ.owners.length := by
  unfold step
  dsimp only
  split
  · rfl
  · exact List.length_set

/-- What is so of an owner that was created with the setup of its number is so of every owner after
any events. -/
theorem run_ok (hgrows : ∀ o index log log', log <+: log' → Rests o index log → Rests o index log')
    (hturn : ∀ t x, Ledger x.stored x.log → Rests x.owner x.index x.log →
      Done Ledger Rests x (P.turn t x)) :
    ∀ (events : List (Event κ τ)) {σ : System ω δ}, σ.Ok Ledger Rests →
      (∀ i setup log, (setups events)[i]? = some setup →
        Rests (P.create setup) (σ.owners.length + i) log) →
      (σ.run P events).Ok Ledger Rests
  | [], _, h, _ => h
  | .create setup :: events, σ, h, hcreate => by
    refine run_ok hgrows hturn events (step_create_ok h (hcreate 0 setup σ.log rfl))
      fun i other log hi => ?_
    have hlength : (σ.step P (.create setup)).owners.length = σ.owners.length + 1 :=
  List.length_append
    rw [hlength, Nat.add_assoc, Nat.add_comm 1]
    exact hcreate (i + 1) other log hi
  | .turn index t :: events, σ, h, hcreate => by
    refine run_ok hgrows hturn events (step_turn_ok hgrows hturn h index t) fun i setup log hi => ?_
    rw [length_turn]
    exact hcreate i setup log hi

theorem initial_ok (h : Ledger .null []) : (initial : System ω δ).Ok Ledger Rests :=
  ⟨h, fun index o ho => by simp [initial] at ho⟩

end System

/-! ### Logs -/

/-- Where everything that was done was lawful when it was done, one more lawful deed may be done. -/
theorem lawful_append {δ : Type} {Lawful : List δ → δ → Prop} {log : List δ} {d : δ}
    (h : ∀ pre d post, log = pre ++ d :: post → Lawful pre d) (hd : Lawful log d) :
    ∀ pre d' post, log ++ [d] = pre ++ d' :: post → Lawful pre d' := by
  intro pre d' post heq
  rcases List.eq_nil_or_concat post with rfl | ⟨post, last, rfl⟩
  · obtain ⟨rfl, hlast⟩ := List.append_inj' heq rfl
    obtain rfl := (List.cons.inj hlast).1
    exact hd
  · rw [List.concat_eq_append, ← List.cons_append, ← List.append_assoc] at heq
    obtain ⟨hlog, -⟩ := List.append_inj' heq rfl
    exact h pre d' post hlog

end Js
