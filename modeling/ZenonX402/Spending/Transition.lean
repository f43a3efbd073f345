/-
# Transitions of a spending account

`requireOriginalFundingSpendingStateTransition` compares the text that is kept
with the text that is proposed: one revision on, no earlier day, and one row
added or at most one row moved on. What it accepts is a step of the state
(`requireTransition_ok`), in which no row is removed, reordered or changed but
in its status, and a step of the state that changes one row is accepted
(`requireTransition_of`).

Key definitions: `requireOriginalFundingSpendingStateTransition`, `Row.Step`, `State.Step`.
Key theorems: `compareRow_ok`, `requireHistory_ok`, `requireTransition_ok`, `requireTransition_of`.
-/
import ZenonX402.Spending.State

namespace ZenonX402
namespace Spending

open Js
open Value (Json)

def inspectOriginalFundingSpendingState (raw policyInput : Value) : Except Failure State := do
  let policy ← capturePolicy policyInput
  decode policy raw

def same (x y : Stored) : Bool := stringify x.encode == stringify y.encode

/-- One round of the loop over the rows, with the number of rows `changed` so far. -/
def compareRow (lastDay : Day) (changed : Nat) (rows : Stored × Stored) : Except Failure Nat :=
  let (old, item) := rows
  if same old item then .ok changed
  else do
    rejectIf (¬ ∀ k ∈ ROW.take 7, (old.field k).strictEq (item.field k) = true)
      .ORIGINAL_REPLACEMENT
    rejectIf (¬ old.Unresolved ∨ item.status = .RESERVED) .DOWNGRADE
    rejectIf (¬ item.Unresolved ∧ item.status.spentDay ≠ some lastDay) .SPENT_DAY
    .ok (changed + 1)

/-- What is added is reserved on the last day. -/
def Row.Added (lastDay : Day) (r : Row) : Prop := r.status = .RESERVED ∧ r.reservedDay = lastDay

instance (lastDay : Day) (r : Row) : Decidable (r.Added lastDay) :=
  inferInstanceAs (Decidable (_ ∧ _))

/-- The comparison of the histories; `initial` when nothing is expected. -/
def requireHistory (initial : Bool) (a b : State) : Except Failure Unit :=
  if initial then
    rejectIf (b.revision ≠ 1 ∨ b.reservations.length ≠ 1 ∨ ∃ r ∈ b.reservations.head?,
      ¬ r.Added b.lastDay)
      .INITIAL_RESERVATION
  else if b.reservations.length = a.reservations.length + 1 then do
    rejectIf ((a.reservations.zip b.reservations).all (fun rows => same rows.1 rows.2) = false)
      .HISTORY_REPLACEMENT
    rejectIf (∃ added ∈ b.reservations.getLast?, ¬ added.Added b.lastDay) .INITIAL_RESERVATION
  else do
    rejectIf (a.reservations.length ≠ b.reservations.length) .HISTORY_REMOVAL
    let changed ← (a.reservations.zip b.reservations).foldlM (compareRow b.lastDay) 0
    rejectIf (1 < changed) .BATCH_TRANSITION

def requireOriginalFundingSpendingStateTransition (expected proposed policyInput : Value) :
    Except Failure State := do
  rejectIf (proposed.strictEq .null = true) .INPUT
  let policy ← capturePolicy policyInput
  let a ← decode policy expected
  let b ← decode policy proposed
  if expected.strictEq proposed then inspectOriginalFundingSpendingState proposed policy.encode
  else do
    rejectIf (b.revision ≠ a.revision + 1 ∨ b.lastDay < a.lastDay) .TRANSITION_VERSION
    requireHistory (expected.strictEq .null) a b
    inspectOriginalFundingSpendingState proposed policy.encode

/-! ### Steps -/

/-- The status moves on; what is spent is spent on the last day. -/
inductive Status.Moves (lastDay : Day) : Status → Status → Prop
  | observed : Moves lastDay .RESERVED .UNKNOWN
  | spent : Moves lastDay .RESERVED (.SPENT lastDay)
  | settled : Moves lastDay .UNKNOWN (.SPENT lastDay)

/-- Nothing of the row changes but its status, and that only moves on. -/
def Row.Step (lastDay : Day) (r r' : Row) : Prop :=
  r' = r ∨ ∃ status, r.status.Moves lastDay status ∧ r' = { r with status := status }

/-- A row is added at the end, or rows move on where they are. -/
structure State.Step (s t : State) : Prop where
  lastDay : s.lastDay ≤ t.lastDay
  rows : (∃ r : Stored, r.Added t.lastDay ∧ t.reservations = s.reservations ++ [r])
    ∨ List.Forall₂ (fun r r' => Row.Step t.lastDay r.toRow r'.toRow) s.reservations t.reservations

/-- What `compareRow` accepts in place of a row. -/
structure Row.Replaces (lastDay : Day) (r r' : Row) : Prop where
  same : r' = { r with status := r'.status }
  unresolved : r.Unresolved
  observed : r'.status ≠ .RESERVED
  spent : ∀ e ∈ r'.status.spentDay, e = lastDay

theorem Row.Replaces.step {lastDay : Day} {r r' : Row} (h : r.Replaces lastDay r') :
    r.Step lastDay r' := by
  have hr := h.unresolved
  have hspent := h.spent
  unfold Row.Unresolved at hr
  rw [h.same]
  cases hs : r'.status with
  | RESERVED => exact absurd hs h.observed
  | UNKNOWN =>
    cases hs' : r.status with
    | RESERVED => exact .inr ⟨_, hs' ▸ .observed, rfl⟩
    | UNKNOWN => exact .inl (by rw [← hs'])
    | SPENT d => simp [hs', Status.spentDay] at hr
  | SPENT d =>
    obtain rfl : d = lastDay := hspent d (by rw [hs]; rfl)
    cases hs' : r.status with
    | RESERVED => exact .inr ⟨_, hs' ▸ .spent, rfl⟩
    | UNKNOWN => exact .inr ⟨_, hs' ▸ .settled, rfl⟩
    | SPENT d => simp [hs', Status.spentDay] at hr

theorem same_iff {x y : Stored} : same x y = true ↔ x = y := by
  unfold same
  rw [beq_iff_eq]
  exact ⟨fun h => Stored.encode_inj (stringify_inj x.json y.json h), fun h => h ▸ rfl⟩

/-- The first seven values of a row are all but its status. -/
theorem Row.same_iff {r r' : Row} :
    (∀ k ∈ ROW.take 7, (r.field k).strictEq (r'.field k) = true) ↔
    r' = { r with status := r'.status } := by
  have htake : ROW.take 7
      = ["paymentId", "originalDigest", "network", "asset", "recipient", "amount", "reservedDay"] :=
        rfl
  obtain ⟨id, digest, network, asset, recipient, amount, day, status⟩ := r
  obtain ⟨id', digest', network', asset', recipient', amount', day', status'⟩ := r'
  simp only [htake, List.forall_mem_cons, Row.field, Value.strictEq, beq_iff_eq, Nat.cast_inj,
    Subtype.val_inj, mk.injEq, and_true]
  constructor
  · rintro ⟨rfl, rfl, rfl, rfl, rfl, rfl, rfl, -⟩
    exact ⟨rfl, rfl, rfl, rfl, rfl, rfl, rfl⟩
  · rintro ⟨rfl, rfl, rfl, rfl, rfl, rfl, rfl⟩
    exact ⟨rfl, rfl, rfl, rfl, rfl, rfl, rfl, by simp⟩

theorem compareRow_ok {lastDay : Day} {n m : Nat} {old item : Stored} :
    compareRow lastDay n (old, item) = .ok m ↔
      (old = item ∧ m = n) ∨ (old ≠ item ∧ old.toRow.Replaces lastDay item.toRow ∧ m = n + 1) := by
  unfold compareRow
  simp only
  by_cases h : old = item
  · rw [if_pos (same_iff.mpr h)]
    simp [h, eq_comm]
  · rw [if_neg fun hs => h (same_iff.mp hs)]
    simp only [bind_ok, rejectIf_ok, not_not, Row.same_iff, not_or, not_and,
      Except.ok.injEq, h, false_and, false_or, not_false_eq_true, ne_eq, true_and]
    constructor
    · rintro ⟨_, hsame, _, ⟨hunresolved, hobserved⟩, _, hspent, rfl⟩
      refine ⟨⟨hsame, hunresolved, hobserved, fun e he => ?_⟩, rfl⟩
      have := hspent fun hu => by rw [hu] at he; cases he
      rw [this] at he
      exact (Option.some.inj he).symm
    · rintro ⟨⟨hsame, hunresolved, hobserved, hspent⟩, rfl⟩
      refine ⟨(), hsame, (), ⟨hunresolved, hobserved⟩, (), fun hu => ?_, rfl⟩
      obtain ⟨e, he⟩ := Option.ne_none_iff_exists'.mp hu
      rw [he, hspent e he]

/-- The rows in place, each as it was or in place of one that it replaces. -/
theorem compareRows_ok {lastDay : Day} : ∀ {rows : List (Stored × Stored)} {n m : Nat},
    rows.foldlM (compareRow lastDay) n = .ok m ↔
      (∀ x ∈ rows, x.1 = x.2 ∨ x.1.toRow.Replaces lastDay x.2.toRow)
        ∧ m = n + (rows.filter fun x => x.1 ≠ x.2).length
  | [], n, m => by
    rw [List.foldlM_nil]
    simp [pure, Except.pure, eq_comm]
  | (old, item) :: rows, n, m => by
    rw [List.foldlM_cons]
    simp only [bind_ok, compareRow_ok, compareRows_ok, List.forall_mem_cons, List.filter_cons]
    by_cases h : old = item
    · simp [h]
    · simp only [h, false_and, false_or, ne_eq, not_false_eq_true, true_and, decide_true, if_true,
        List.length_cons]
      constructor
      · rintro ⟨_, ⟨hrow, rfl⟩, hrows, rfl⟩
        exact ⟨⟨hrow, hrows⟩, by omega⟩
      · rintro ⟨⟨hrow, hrows⟩, rfl⟩
        exact ⟨n + 1, ⟨hrow, rfl⟩, hrows, by omega⟩

theorem all_same {as bs : List Stored} (hlen : bs.length = as.length + 1) :
    (as.zip bs).all (fun rows => same rows.1 rows.2) = true ↔ ∃ r, bs = as ++ [r] := by
  induction as generalizing bs with
  | nil =>
    obtain ⟨r, rfl⟩ := List.length_eq_one_iff.mp hlen
    simp
  | cons a as ih =>
    cases bs with
    | nil => cases hlen
    | cons b bs =>
      rw [List.zip_cons_cons, List.all_cons, Bool.and_eq_true, ih (Nat.succ.inj hlen), same_iff]
      simp only [List.cons_append, List.cons.injEq, exists_and_left]
      exact and_congr_left fun _ => eq_comm

/-- The histories that are accepted after some state. -/
def State.Follows (a b : State) : Prop :=
  (∃ r : Stored, r.Added b.lastDay ∧ b.reservations = a.reservations ++ [r])
    ∨ (a.reservations.length = b.reservations.length
      ∧ (∀ x ∈ a.reservations.zip b.reservations, x.1 = x.2
        ∨ x.1.toRow.Replaces b.lastDay x.2.toRow)
      ∧ ((a.reservations.zip b.reservations).filter fun x => x.1 ≠ x.2).length ≤ 1)

theorem requireHistory_ok {a b : State} {u : Unit} :
    requireHistory false a b = .ok u ↔ a.Follows b := by
  unfold requireHistory State.Follows
  rw [if_neg (by simp)]
  by_cases hlen : b.reservations.length = a.reservations.length + 1
  · rw [if_pos hlen]
    simp only [bind_ok, rejectIf_ok, Bool.not_eq_false, all_same hlen]
    constructor
    · rintro ⟨_, ⟨r, hr⟩, hadded⟩
      rw [hr, List.getLast?_concat] at hadded
      exact .inl ⟨r, by simpa using hadded, hr⟩
    · rintro (⟨r, hadded, hr⟩ | ⟨hlen', -⟩)
      · exact ⟨(), ⟨r, hr⟩, by rw [hr, List.getLast?_concat]; simpa using hadded⟩
      · omega
  · rw [if_neg hlen]
    simp only [bind_ok, rejectIf_ok, not_not, compareRows_ok, not_lt, ne_eq]
    constructor
    · rintro ⟨_, hlen', _, ⟨hrows, rfl⟩, hle⟩
      exact .inr ⟨hlen', hrows, by simpa using hle⟩
    · rintro (⟨r, -, hr⟩ | ⟨hlen', hrows, hle⟩)
      · rw [hr] at hlen
        simp at hlen
      · exact ⟨(), hlen', _, ⟨hrows, rfl⟩, by simpa using hle⟩

/-- What a first state must be. -/
def State.First (b : State) : Prop :=
  b.revision = 1 ∧ ∃ r : Stored, r.Added b.lastDay ∧ b.reservations = [r]

theorem requireHistory_initial {a b : State} {u : Unit} :
    requireHistory true a b = .ok u ↔ b.First := by
  unfold requireHistory State.First
  rw [if_pos rfl, rejectIf_ok]
  simp only [not_or, not_not, ne_eq]
  refine and_congr_right fun _ => ?_
  constructor
  · rintro ⟨hlen, hadded⟩
    obtain ⟨r, hr⟩ := List.length_eq_one_iff.mp hlen
    rw [hr] at hadded
    exact ⟨r, by simpa using hadded, hr⟩
  · rintro ⟨r, hadded, hr⟩
    rw [hr]
    exact ⟨rfl, by simpa using hadded⟩

theorem forall₂_of_zip {as bs : List Stored} {lastDay : Day} (hlen : as.length = bs.length)
    (h : ∀ x ∈ as.zip bs, x.1 = x.2 ∨ x.1.toRow.Replaces lastDay x.2.toRow) :
    List.Forall₂ (fun r r' => Row.Step lastDay r.toRow r'.toRow) as bs := by
  refine List.forall₂_iff_zip.mpr ⟨hlen, fun {r r'} hmem => ?_⟩
  rcases h (r, r') hmem with heq | hreplaces
  · exact .inl (congrArg Stored.toRow heq).symm
  · exact hreplaces.step

theorem State.Follows.step {a b : State} (h : a.Follows b) (hday : a.lastDay ≤ b.lastDay) :
    a.Step b := by
  rcases h with hadded | ⟨hlen, hrows, -⟩
  · exact ⟨hday, .inl hadded⟩
  · exact ⟨hday, .inr (forall₂_of_zip hlen hrows)⟩

theorem State.Step.refl (s : State) : s.Step s :=
  ⟨le_rfl, .inr (List.forall₂_same.mpr fun _ _ => .inl rfl)⟩

/-- What is accepted is a step. -/
theorem requireTransition_ok {v w input : Value} {b : State}
    (h : requireOriginalFundingSpendingStateTransition v w input = .ok b) :
    w ≠ .null ∧ ∃ p a, capturePolicy input = .ok p ∧ decode p v = .ok a ∧ decode p w = .ok b
      ∧ a.Step b := by
  unfold requireOriginalFundingSpendingStateTransition at h
  obtain ⟨_, hnull, h⟩ := bind_ok.mp h
  obtain ⟨p, hp, h⟩ := bind_ok.mp h
  obtain ⟨a, ha, h⟩ := bind_ok.mp h
  obtain ⟨b', hb', h⟩ := bind_ok.mp h
  rw [rejectIf_ok, Value.strictEq_null] at hnull
  have hinspect {b : State} (h : inspectOriginalFundingSpendingState w p.encode = .ok b) : b
      = b' := by
    unfold inspectOriginalFundingSpendingState at h
    rw [capturePolicy_encode] at h
    exact Except.ok.inj (h.symm.trans hb')
  refine ⟨hnull, p, a, hp, ha, ?_⟩
  split at h
  · rename_i heq
    obtain rfl := hinspect h
    have hvw : v = w := by
      cases w with
      | str t => exact Value.strictEq_str.mp heq
      | null => exact absurd rfl hnull
      | _ => simp [decode] at hb'
    obtain rfl : a = b := Except.ok.inj (by rw [← ha, ← hb', hvw])
    exact ⟨hb', .refl a⟩
  · obtain ⟨_, hversion, h⟩ := bind_ok.mp h
    obtain ⟨_, hhistory, h⟩ := bind_ok.mp h
    obtain rfl := hinspect h
    rw [rejectIf_ok, not_or, not_lt] at hversion
    refine ⟨hb', ?_⟩
    cases hv : v.strictEq .null with
    | true =>
      obtain rfl := Value.strictEq_null.mp hv
      rw [hv, requireHistory_initial] at hhistory
      obtain rfl : State.initial = a := Except.ok.inj ha
      obtain ⟨-, r, hr, hrows⟩ := hhistory
      exact ⟨hversion.2, .inl ⟨r, hr, by rw [hrows]; rfl⟩⟩
    | false =>
      rw [hv, requireHistory_ok] at hhistory
      exact hhistory.step hversion.2

/-- A state that follows in the next revision is accepted. -/
theorem requireTransition_of {v w input : Value} {p : Policy} {a b : State}
    (hp : capturePolicy input = .ok p) (ha : decode p v = .ok a) (hb : decode p w = .ok b)
    (hw : w ≠ .null) (hrevision : b.revision = a.revision + 1) (hday : a.lastDay ≤ b.lastDay)
    (hfirst : v = .null → b.First) (hnext : v ≠ .null → a.Follows b) :
    requireOriginalFundingSpendingStateTransition v w input = .ok b := by
  have hinspect : inspectOriginalFundingSpendingState w p.encode = .ok b := by
    unfold inspectOriginalFundingSpendingState
    rw [capturePolicy_encode]
    exact hb
  have hhistory : requireHistory (v.strictEq .null) a b = .ok () := by
    by_cases hnull : v = .null
    · rw [Value.strictEq_null.mpr hnull]
      exact requireHistory_initial.mpr (hfirst hnull)
    · have hfalse : v.strictEq .null = false := by
        rw [← Bool.not_eq_true, Value.strictEq_null]
        exact hnull
      rw [hfalse]
      exact requireHistory_ok.mpr (hnext hnull)
  unfold requireOriginalFundingSpendingStateTransition
  simp only [bind_ok, rejectIf_ok, Value.strictEq_null]
  refine ⟨(), hw, p, hp, a, ha, b, hb, ?_⟩
  split
  · exact hinspect
  · simp only [bind_ok, rejectIf_ok, not_or, not_lt, ne_eq, not_not]
    exact ⟨(), ⟨hrevision, hday⟩, (), hhistory, hinspect⟩

end Spending
end ZenonX402
