/-
# The owners of spending accounts

An owner (`createOriginalFundingSpendingReservations`) keeps the text it last
saw of its account and the state it decoded from it. `reserve`,
`reserveSingleOriginal` and `observe` work on that state and propose the text of
the next one to the backend, which stores it only where it has the text the owner
expects. `System` is any number of owners over one backend; what the backend does
with a proposal, and what it answers, is up to it (`Swap`).

Every text that an owner gets stored is an accepted transition from the text that
was stored before (`System.step_stored`).

Key definitions: `Owner`, `Swap`, `Owner.change`, `Owner.reserve`, `Owner.observe`, `System.step`.
Key theorems: `change_sound`, `reserveWork_ok`, `observeWork_ok`, `System.step_stored`.
-/
import ZenonX402.Spending.Transition

namespace ZenonX402
namespace Spending

open Js

structure Owner where
  policy : Policy
  current : Value
  state : State
  closed : Bool
  held : Bool

/-- What the backend does with one `compareAndSwap`: whether it stores the
proposal if it has what is expected, whether the owner is closed meanwhile, and
what it answers (nothing when it throws). -/
structure Swap where
  commits : Bool
  closes : Bool
  answer : Option Value

/-- How the work on a state fails; `holds` also holds the owner. -/
inductive Stop
  | fails (e : Failure)
  | holds (e : Failure)

/-- What a call returns or throws, the owner after it, and what is stored. -/
structure Reply (α : Type) where
  result : Except Failure α
  owner : Owner
  stored : Value

/-- `createOriginalFundingSpendingReservations`, where `load` gives `loaded`. -/
def createOriginalFundingSpendingReservations (policyInput loaded : Value) :
    Except Failure Owner := do
  let policy ← capturePolicy policyInput
  match decode policy loaded with
  | .ok state => .ok ⟨policy, loaded, state, false, false⟩
  | .error _ => .error .READ_UNKNOWN

namespace Owner

def usable (o : Owner) : Except Failure Unit := do
  rejectIf (o.closed = true) .CLOSED
  rejectIf (o.held = true) .HELD

/-- What is stored after a swap. -/
def swapped (o : Owner) (raw : String) (swap : Swap) (stored : Value) : Value :=
  if swap.commits && stored.strictEq o.current then .str raw else stored

/-- The end of `change`, once the proposal is given to the backend. -/
def propose {α : Type} (o : Owner) (proposed : State) (raw : String) (result : α) (swap : Swap)
    (stored : Value) :
    Reply α :=
  let o' := { o with closed := o.closed || swap.closes }
  match swap.answer with
  | none =>
    ⟨.error (if o'.closed then .CLOSED else .COMMIT_UNKNOWN), { o' with held := true },
      o.swapped raw swap stored⟩
  | some observed =>
    if o'.closed then ⟨.error .CLOSED, { o' with held := true }, o.swapped raw swap stored⟩
    else if observed.strictEq (.str raw) then
      ⟨.ok result, { o' with current := .str raw, state := proposed }, o.swapped raw swap stored⟩
    else
      ⟨.error (if observed.strictEq .null then .CONFLICT else .COMMIT_UNKNOWN),
        { o' with held := true }, o.swapped raw swap stored⟩

/-- `change`; the work gives the state to propose, if there is one, and what the call returns. -/
def change {α : Type} (o : Owner) (work : State → Except Stop (Option State × α)) (swap : Swap)
    (stored : Value) :
    Reply α :=
  match o.usable with
  | .error e => ⟨.error e, o, stored⟩
  | .ok () => match work o.state with
    | .error (.fails e) => ⟨.error e, o, stored⟩
    | .error (.holds e) => ⟨.error e, { o with held := true }, stored⟩
    | .ok (none, result) => ⟨.ok result, o, stored⟩
    | .ok (some next, result) =>
      if 9007199254740990 ≤ o.state.revision then ⟨.error .REVISION_EXHAUSTED, o, stored⟩
      else
        let proposed := { next with revision := o.state.revision + 1 }
        let raw := stringify (proposed.encode o.policy)
        match decode o.policy (.str raw) with
        | .error e => ⟨.error e, o, stored⟩
        | .ok _ => o.propose proposed raw result swap stored

end Owner

def selectedDay (s : State) (value : Value) : Except Failure Day := do
  let d ← day value
  rejectIf (d < s.lastDay) .CLOCK_ROLLBACK
  .ok d

/-- The work of `reserve`. -/
def reserveWork (policy : Policy) (input nowDay : Value) (singleOriginal : Bool) (s : State) :
    Except Stop (Option State × Row) := do
  let d ← (selectedDay s nowDay).mapError .fails
  let selected ← (reservation input policy d).mapError .fails
  rejectIf (singleOriginal = true ∧ ∃ r ∈ s.reservations, r.Unresolved)
    (.holds .UNRESOLVED_ORIGINAL)
  rejectIf (∃ r ∈ s.reservations, r.paymentId = selected.paymentId ∨ r.originalDigest
    = selected.originalDigest)
    (.fails .ORIGINAL_ALREADY_RESERVED)
  rejectIf (policy.maxRecords ≤ s.reservations.length) (.fails .RECORD_LIMIT)
  let rows := s.reservations ++ [{ selected with order := Order.given ROW }]
  let exposure := totals rows d
  rejectIf (policy.maxTotal.value < exposure.total) (.fails .TOTAL_LIMIT)
  rejectIf (policy.maxDaily.value < exposure.daily) (.fails .DAILY_LIMIT)
  .ok (some { s with lastDay := d, reservations := rows }, selected)

/-- The status that `observe` is given. -/
inductive Observed
  | UNKNOWN
  | SPENT
  deriving DecidableEq

def observed (status : Value) : Except Failure Observed := match status with
  | .str "UNKNOWN" => .ok .UNKNOWN
  | .str "SPENT" => .ok .SPENT
  | _ => .error .STATUS

def Observed.status (d : Day) : Observed → Status
  | UNKNOWN => .UNKNOWN
  | SPENT => .SPENT d

/-- The work of `observe`. -/
def observeWork (paymentId : Text) (originalDigest : Hash) (status : Observed)
    (nowDay : Value) (s : State) :
    Except Stop (Option State × Unit) := do
  let d ← (selectedDay s nowDay).mapError .fails
  match s.reservations.findIdx? (fun r => r.paymentId = paymentId) with
  | none => .error (.fails .ORIGINAL_MISMATCH)
  | some index => match s.reservations[index]? with
    | none => .error (.fails .ORIGINAL_MISMATCH)
    | some old => do
      rejectIf (old.originalDigest ≠ originalDigest) (.fails .ORIGINAL_MISMATCH)
      if old.Unresolved then
        let rows := s.reservations.set index { old with status := status.status d }
        .ok (some { s with lastDay := d, reservations := rows }, ())
      else do
        rejectIf (status ≠ .SPENT) (.fails .DOWNGRADE)
        .ok (none, ())

namespace Owner

/-- `reserve` and `reserveSingleOriginal`. -/
def reserve (o : Owner) (input nowDay : Value) (singleOriginal : Bool) (swap : Swap)
    (stored : Value) : Reply Row :=
  o.change (reserveWork o.policy input nowDay singleOriginal) swap stored

def observe (o : Owner) (paymentId originalDigest status nowDay : Value) (swap : Swap)
    (stored : Value) :
    Reply Unit :=
  match text paymentId, hash originalDigest, observed status with
  | .ok paymentId, .ok originalDigest, .ok status =>
    o.change (observeWork paymentId originalDigest status nowDay) swap stored
  | .error e, _, _ => ⟨.error e, o, stored⟩
  | _, .error e, _ => ⟨.error e, o, stored⟩
  | _, _, .error e => ⟨.error e, o, stored⟩

def close (o : Owner) : Owner := { o with closed := true }

end Owner

/-! ### What a change stores -/

/-- The owner's state is what its text decodes to. -/
def Owner.Valid (o : Owner) : Prop := decode o.policy o.current = .ok o.state

theorem create_valid {policyInput loaded : Value} {o : Owner}
    (h : createOriginalFundingSpendingReservations policyInput loaded = .ok o) : o.Valid := by
  unfold createOriginalFundingSpendingReservations at h
  obtain ⟨p, _, h⟩ := bind_ok.mp h
  split at h
  · rename_i s hs
    obtain rfl := Except.ok.inj h
    exact hs
  · cases h

/-- A text that is accepted for a state of its own revision is the text of that state alone. -/
theorem decode_own {p : Policy} {s t : State} (hs : s.revision ≤ 9007199254740990)
    (h : decode p (.str (stringify (s.encode p))) = .ok t) : t = s := by
  obtain ⟨_, hraw, hgood⟩ := decode_str.mp h
  have ht := hgood.revision
  exact (State.encode_inj (stringify_inj (s.json p (by omega)) (t.json p (by omega)) hraw)).2.symm

/-- The transition from the text `v` to the text `w` is accepted under the policy `p`. -/
def Accepted (p : Policy) (v w : Value) : Prop :=
  ∃ input b, capturePolicy input = .ok p
    ∧ requireOriginalFundingSpendingStateTransition v w input = .ok b

/-- A state that follows the owner's and is accepted by itself makes an accepted transition. -/
theorem Owner.Valid.accepted {o : Owner} (ho : o.Valid) {b : State} {raw : String}
    (hb : decode o.policy (.str raw) = .ok b) (hrevision : b.revision = o.state.revision + 1)
    (hday : o.state.lastDay ≤ b.lastDay) (hfollows : o.state.Follows b) :
    Accepted o.policy o.current (.str raw) := by
  refine ⟨o.policy.encode, b, capturePolicy_encode _, ?_⟩
  refine requireTransition_of (capturePolicy_encode _) ho hb (by simp) hrevision hday
    (fun hnull => ?_) fun _ => hfollows
  unfold Owner.Valid at ho
  rw [hnull] at ho
  have hinitial : State.initial = o.state := Except.ok.inj ho
  rw [← hinitial] at hfollows hrevision
  refine ⟨hrevision, ?_⟩
  rcases hfollows with ⟨r, hadded, hrows⟩ | ⟨hlen, -⟩
  · exact ⟨r, hadded, hrows⟩
  · have hsize := (decode_str.mp hb).2.2.size.1
    rw [← hlen] at hsize
    cases hsize

/-- What holds after a call of an owner on what is stored. -/
structure Reply.Sound {α : Type} (o : Owner) (stored : Value) (reply : Reply α) : Prop where
  valid : reply.owner.Valid
  policy : reply.owner.policy = o.policy
  stored : reply.stored = stored ∨ Accepted o.policy stored reply.stored

theorem swapped_stored {o : Owner} {raw : String} (h : Accepted o.policy o.current (.str raw))
    (swap : Swap) (stored : Value) :
    o.swapped raw swap stored = stored ∨ Accepted o.policy stored (o.swapped raw swap stored) := by
  unfold Owner.swapped
  split
  · rename_i heq
    rw [Bool.and_eq_true] at heq
    have hstored : stored = o.current := by
      obtain ⟨_, b, _, ht⟩ := h
      obtain ⟨_, _, _, _, hdecode, _⟩ := requireTransition_ok ht
      cases hc : o.current with
      | null => exact Value.strictEq_null.mp (hc ▸ heq.2)
      | str t => exact Value.strictEq_str.mp (hc ▸ heq.2)
      | _ => simp [hc, decode] at hdecode
    exact .inr (hstored ▸ h)
  · exact .inl rfl

theorem propose_sound {α : Type} {o : Owner} (ho : o.Valid) {b : State} {raw : String}
    (hb : decode o.policy (.str raw) = .ok b) (h : Accepted o.policy o.current (.str raw))
    (result : α) (swap : Swap) (stored : Value) :
    (o.propose b raw result swap stored).Sound o stored := by
  have hswap := swapped_stored h swap stored
  unfold Owner.propose
  dsimp only
  split
  · exact ⟨ho, rfl, hswap⟩
  · split
    · exact ⟨ho, rfl, hswap⟩
    · split
      · exact ⟨hb, rfl, hswap⟩
      · exact ⟨ho, rfl, hswap⟩

/-- A change whose work only ever proposes what may follow. -/
theorem change_sound {α : Type} {o : Owner} (ho : o.Valid)
    {work : State → Except Stop (Option State × α)}
    (hwork : ∀ s r, work o.state = .ok (some s, r) → o.state.lastDay ≤ s.lastDay
      ∧ o.state.Follows s)
    (swap : Swap) (stored : Value) : (o.change work swap stored).Sound o stored := by
  unfold Owner.change
  split
  · exact ⟨ho, rfl, .inl rfl⟩
  · split
    · exact ⟨ho, rfl, .inl rfl⟩
    · exact ⟨ho, rfl, .inl rfl⟩
    · exact ⟨ho, rfl, .inl rfl⟩
    · rename_i next result hnext
      obtain ⟨hday, hfollows⟩ := hwork next result hnext
      split
      · exact ⟨ho, rfl, .inl rfl⟩
      · rename_i hrevision
        dsimp only
        split
        · exact ⟨ho, rfl, .inl rfl⟩
        · rename_i b hb
          have hle : o.state.revision + 1 ≤ 9007199254740990 := by omega
          have hown := @decode_own o.policy { next with revision := o.state.revision + 1 } b hle hb
          rw [hown] at hb
          exact propose_sound ho hb (ho.accepted hb rfl hday hfollows) result swap stored

theorem selectedDay_ok {s : State} {v : Value} {d : Day} :
    selectedDay s v = .ok d ↔ v = .num d.1 ∧ s.lastDay ≤ d := by
  unfold selectedDay
  simp only [bind_ok, day_ok, rejectIf_ok, not_lt, Except.ok.injEq]
  constructor
  · rintro ⟨_, hv, _, hle, rfl⟩
    exact ⟨hv, hle⟩
  · rintro ⟨hv, hle⟩
    exact ⟨d, hv, (), hle, rfl⟩

/-- What `reserve` proposes: one more row, reserved on the day of the call. -/
theorem reserveWork_ok {p : Policy} {input nowDay : Value} {single : Bool} {s t : State} {row : Row}
    (h : reserveWork p input nowDay single s = .ok (some t, row)) :
    s.lastDay ≤ t.lastDay ∧ row.Added t.lastDay
      ∧ t.reservations = s.reservations ++ [{ row with order := Order.given ROW }]
      ∧ (single = true → ∀ r ∈ s.reservations, ¬ r.Unresolved) := by
  unfold reserveWork at h
  simp only [bind_ok, mapError_ok, rejectIf_ok, selectedDay_ok, reservation_ok, Except.ok.injEq,
    Prod.mk.injEq, Option.some.injEq] at h
  obtain ⟨d, ⟨_, hday⟩, selected, ⟨_, _, hreserved, hstatus⟩, _, hsingle, _, _, _, _, _, _, _, _,
    rfl, rfl⟩ := h
  refine ⟨hday, ⟨hstatus, hreserved⟩, rfl, fun hs r hr hu => hsingle ⟨hs, r, hr, hu⟩⟩

/-- What `observe` proposes: the row of the payment in its place, its status moved on. -/
theorem observeWork_ok {id : Text} {digest : Hash} {status : Observed} {nowDay : Value}
    {s t : State} {u : Unit} (h : observeWork id digest status nowDay s = .ok (some t, u)) :
    s.lastDay ≤ t.lastDay ∧ ∃ index old, s.reservations[index]? = some old ∧ old.paymentId = id
      ∧ old.originalDigest = digest ∧ old.Unresolved
      ∧ t.reservations = s.reservations.set index
      { old with status := status.status t.lastDay } := by
  unfold observeWork at h
  obtain ⟨d, hd, h⟩ := bind_ok.mp h
  rw [mapError_ok, selectedDay_ok] at hd
  split at h
  · cases h
  · rename_i index hindex
    split at h
    · cases h
    · rename_i old hold
      obtain ⟨_, hdigest, h⟩ := bind_ok.mp h
      rw [rejectIf_ok, not_not] at hdigest
      obtain ⟨hlt, hid, _⟩ := List.findIdx?_eq_some_iff_getElem.mp hindex
      have hget : s.reservations[index] = old :=
        Option.some.inj ((List.getElem?_eq_getElem hlt).symm.trans hold)
      rw [hget, decide_eq_true_eq] at hid
      split at h
      · rename_i hunresolved
        simp only [Except.ok.injEq, Prod.mk.injEq, Option.some.injEq] at h
        obtain ⟨rfl, -⟩ := h
        exact ⟨hd.2, index, old, hold, hid, hdigest, hunresolved, rfl⟩
      · simp only [bind_ok, Except.ok.injEq, Prod.mk.injEq, reduceCtorEq, false_and, and_false,
          exists_false] at h

/-- A row that is observed is one that its old row is replaced by. -/
theorem Observed.replaces {d : Day} (status : Observed) {r : Row} (h : r.Unresolved) :
    r.Replaces d { r with status := status.status d } := by
  refine ⟨rfl, h, ?_, ?_⟩
  · cases status <;> simp [Observed.status]
  · cases status <;> simp [Observed.status, Status.spentDay]

/-- Lists that differ in one place. -/
theorem zip_set_changes {rows : List Stored} : ∀ {index : Nat} {new : Stored},
    ((rows.zip (rows.set index new)).filter fun x => x.1 ≠ x.2).length ≤ 1 := by
  have hsame (rows : List Stored) : ((rows.zip rows).filter fun x => x.1 ≠ x.2) = [] := by
    refine List.filter_eq_nil_iff.mpr fun x hx => ?_
    obtain ⟨i, hi, rfl⟩ := List.mem_iff_getElem.mp hx
    simp
  induction rows with
  | nil => intro index new; simp
  | cons r rows ih =>
    intro index new
    cases index with
    | zero =>
      rw [List.set_cons_zero, List.zip_cons_cons, List.filter_cons, hsame]
      split <;> simp
    | succ index =>
      rw [List.set_cons_succ, List.zip_cons_cons, List.filter_cons, if_neg (by simp)]
      exact ih

theorem observe_follows {s t : State} {index : Nat} {old : Stored}
    (hold : s.reservations[index]? = some old) (hunresolved : old.Unresolved) (status : Observed)
    (hrows : t.reservations
      = s.reservations.set index { old with status := status.status t.lastDay }) :
    s.Follows t := by
  refine .inr ⟨by rw [hrows, List.length_set], fun x hx => ?_, by rw [hrows]; exact zip_set_changes⟩
  rw [hrows] at hx
  obtain ⟨i, hi, rfl⟩ := List.mem_iff_getElem.mp hx
  simp only [List.getElem_zip, List.getElem_set]
  split
  · rename_i heq
    subst heq
    obtain ⟨hlt, rfl⟩ := List.getElem?_eq_some_iff.mp hold
    exact .inr (status.replaces hunresolved)
  · exact .inl rfl

theorem reserve_sound {o : Owner} (ho : o.Valid) (input nowDay : Value)
    (single : Bool) (swap : Swap) (stored : Value) :
    (o.reserve input nowDay single swap stored).Sound o stored := by
  refine change_sound ho (fun t row h => ?_) swap stored
  obtain ⟨hday, hadded, hrows, -⟩ := reserveWork_ok h
  exact ⟨hday, .inl ⟨_, hadded, hrows⟩⟩

theorem observe_sound {o : Owner} (ho : o.Valid) (paymentId originalDigest status nowDay : Value)
    (swap : Swap) (stored : Value) :
    (o.observe paymentId originalDigest status nowDay swap stored).Sound o stored := by
  unfold Owner.observe
  split
  · rename_i _ _ status _ _ _
    refine change_sound ho (fun t u h => ?_) swap stored
    obtain ⟨hday, index, old, hold, -, -, hunresolved, hrows⟩ := observeWork_ok h
    exact ⟨hday, observe_follows hold hunresolved status hrows⟩
  all_goals exact ⟨ho, rfl, .inl rfl⟩

/-! ### Owners over one backend -/

/-- What is stored for each account, and the owners so far. -/
structure System where
  stored : Text → Value
  owners : List Owner

/-- A call of some owner, or a new owner; `loaded` is what the backend's `load` gives it. -/
inductive Event
  | create (policyInput loaded : Value)
  | reserve (owner : Nat) (input nowDay : Value) (singleOriginal : Bool) (swap : Swap)
  | observe (owner : Nat) (paymentId originalDigest status nowDay : Value) (swap : Swap)
  | close (owner : Nat)

namespace System

def initial : System := ⟨fun _ => .null, []⟩

/-- The system after a call of the owner at `index`. -/
def call {α : Type} (σ : System) (index : Nat) (f : Owner → Value → Reply α) : System :=
  match σ.owners[index]? with
  | none => σ
  | some o =>
    let reply := f o (σ.stored o.policy.accountId)
    ⟨Function.update σ.stored o.policy.accountId reply.stored, σ.owners.set index reply.owner⟩

def step (σ : System) : Event → System
  | .create policyInput loaded =>
      match createOriginalFundingSpendingReservations policyInput loaded with
    | .ok o => { σ with owners := σ.owners ++ [o] }
    | .error _ => σ
  | .reserve owner input nowDay single swap =>
    σ.call owner fun o stored => o.reserve input nowDay single swap stored
  | .observe owner paymentId originalDigest status nowDay swap =>
    σ.call owner fun o stored => o.observe paymentId originalDigest status nowDay swap stored
  | .close owner => { σ with owners := σ.owners.modify owner Owner.close }

def run (events : List Event) : System := events.foldl step initial

def Valid (σ : System) : Prop := ∀ o ∈ σ.owners, o.Valid

theorem call_sound {α : Type} {σ : System} (hσ : σ.Valid) (index : Nat)
    {f : Owner → Value → Reply α} (hf : ∀ o stored, o.Valid → (f o stored).Sound o stored)
    (account : Text) :
    (σ.call index f).Valid ∧ ((σ.call index f).stored account = σ.stored account
      ∨ ∃ p, Accepted p (σ.stored account) ((σ.call index f).stored account)) := by
  unfold call
  split
  · exact ⟨hσ, .inl rfl⟩
  · rename_i o ho
    have hmem : o ∈ σ.owners := List.mem_of_getElem? ho
    have hsound := hf o (σ.stored o.policy.accountId) (hσ o hmem)
    refine ⟨fun o' ho' => ?_, ?_⟩
    · rcases List.mem_or_eq_of_mem_set ho' with hold | rfl
      · exact hσ o' hold
      · exact hsound.valid
    · by_cases haccount : account = o.policy.accountId
      · subst haccount
        simp only [Function.update_self]
        exact hsound.stored.imp id fun h => ⟨o.policy, h⟩
      · exact .inl (Function.update_of_ne haccount _ _)

/-- What is stored changes only by accepted transitions. -/
theorem step_stored {σ : System} (hσ : σ.Valid) (event : Event) (account : Text) :
    (σ.step event).Valid ∧ ((σ.step event).stored account = σ.stored account
      ∨ ∃ p, Accepted p (σ.stored account) ((σ.step event).stored account)) := by
  cases event with
  | create policyInput loaded =>
    unfold step
    dsimp only
    split
    · rename_i o ho
      refine ⟨fun o' ho' => ?_, .inl rfl⟩
      rcases List.mem_append.mp ho' with hold | hnew
      · exact hσ o' hold
      · rw [List.mem_singleton.mp hnew]
        exact create_valid ho
    · exact ⟨hσ, .inl rfl⟩
  | reserve owner input nowDay single swap =>
    exact call_sound hσ owner
      (fun o stored ho => reserve_sound ho input nowDay single swap stored) account
  | observe owner paymentId originalDigest status nowDay swap =>
    exact call_sound hσ owner
      (fun o stored ho => observe_sound ho paymentId originalDigest status nowDay swap
        stored) account
  | close owner =>
    refine ⟨fun o' ho' => ?_, .inl rfl⟩
    obtain ⟨i, hi⟩ := List.mem_iff_getElem?.mp ho'
    change (σ.owners.modify owner Owner.close)[i]? = some o' at hi
    rw [List.getElem?_modify] at hi
    obtain ⟨o, ho, rfl⟩ := Option.map_eq_some_iff.mp hi
    have hvalid := hσ o (List.mem_of_getElem? ho)
    split <;> exact hvalid

theorem run_valid (events : List Event) : (run events).Valid := by
  suffices h : ∀ (events : List Event) (σ : System), σ.Valid → (events.foldl step σ).Valid from
    h events initial fun o ho => absurd ho (List.not_mem_nil)
  intro events
  induction events with
  | nil => exact fun σ hσ => hσ
  | cons event events ih =>
    intro σ hσ
    exact ih (σ.step event) (step_stored hσ event ⟨"a", by decide⟩).1

theorem run_concat (events : List Event) (event : Event) :
    run (events ++ [event]) = (run events).step event := by
  unfold run
  rw [List.foldl_append]
  rfl

end System
end Spending
end ZenonX402
