/-
# The state of a spending account

The text that an account keeps is decoded into its state (`decode`): every row
is checked by itself and against the rows before it, the total and the spending
of the last day against the limits, the text against what the state writes, and
the days of the whole history against the daily limit. A text is accepted
exactly when it is the text of a state that keeps the limits (`decode_str`).

Key definitions: `State`, `totals`, `decode`, `exposure`, `State.Good`.
Key theorems: `totals_eq`, `load_eq_exposure`, `decodeRow_ok`, `decode_str`, `State.encode_inj`.
-/
import ZenonX402.Spending.Records

namespace ZenonX402
namespace Spending

open Js
open Value (Json)

/-- The keys `STATE`. -/
def STATE : List String := ["version", "policy", "revision", "lastDay", "reservations"]

structure State where
  policyOrder : Order POLICY
  revision : Nat
  lastDay : Day
  reservations : List Stored
  deriving DecidableEq

namespace State

/-- What `decode` gives for `null`. -/
def initial : State := ⟨Order.given POLICY, 0, ⟨0, by decide⟩, []⟩

def field (p : Policy) (s : State) : String → Value
  | "version" => .num 1
  | "policy" => written s.policyOrder p.field
  | "revision" => .num s.revision
  | "lastDay" => .num s.lastDay.1
  | "reservations" => .arr (s.reservations.map Stored.encode)
  | _ => .undefined

def encode (p : Policy) (s : State) : Value := written (Order.given STATE) (s.field p)

end State

/-! ### Totals -/

structure Exposure where
  total : Nat
  daily : Nat
  unresolved : Nat

/-- `status !== 'SPENT'`. -/
def Row.Unresolved (r : Row) : Prop := r.status.spentDay = none

instance (r : Row) : Decidable r.Unresolved := inferInstanceAs (Decidable (_ = _))

def totals (rows : List Stored) (selectedDay : Day) : Exposure :=
  rows.foldl (fun e r => {
    total := e.total + r.amount.value
    daily := if r.Unresolved ∨ r.status.spentDay = some selectedDay then e.daily
      + r.amount.value else e.daily
    unresolved := if r.Unresolved then e.unresolved + 1 else e.unresolved }) ⟨0, 0, 0⟩

/-- The amount of all rows. -/
def total (rows : List Stored) : Nat := (rows.map fun r => r.amount.value).sum

@[simp] theorem total_nil : total [] = 0 := rfl

@[simp] theorem total_cons (r : Stored) (rows : List Stored) :
    total (r :: rows) = r.amount.value + total rows := rfl

theorem totals_eq (rows : List Stored) (d : Day) : totals rows d = {
    total := total rows
    daily := total (rows.filter fun r => r.Unresolved ∨ r.status.spentDay = some d)
    unresolved := (rows.filter fun r => r.Unresolved).length } := by
  suffices h : ∀ (rows : List Stored) (e : Exposure),
      rows.foldl (fun e r => {
        total := e.total + r.amount.value
        daily := if r.Unresolved ∨ r.status.spentDay = some d then e.daily
          + r.amount.value else e.daily
        unresolved := if r.Unresolved then e.unresolved + 1 else e.unresolved : Exposure }) e = {
      total := e.total + total rows
      daily := e.daily + total (rows.filter fun r => r.Unresolved ∨ r.status.spentDay = some d)
      unresolved := e.unresolved + (rows.filter fun r => r.Unresolved).length } by
    refine (h rows ⟨0, 0, 0⟩).trans ?_
    simp only [Nat.zero_add]
  intro rows
  induction rows with
  | nil => exact fun e => rfl
  | cons r rows ih =>
    intro e
    rw [List.foldl_cons, ih]
    by_cases hr : r.Unresolved
    · simp [hr, Nat.add_assoc, Nat.add_comm 1]
    · by_cases hd : r.status.spentDay = some d
      · simp [hr, hd, Nat.add_assoc]
      · simp [hr, hd, Nat.add_assoc]

/-! ### The load of a day -/

/-- The row weighs from its reservation on, until the day on which it is spent. -/
def Row.span (r : Row) : Span :=
  ⟨r.reservedDay.1, r.status.spentDay.map Subtype.val, r.amount.value⟩

/-- The amount of the rows that are reserved by the day `d` and then unresolved or not spent before
it. -/
def exposure (rows : List Stored) (d : Nat) : Nat :=
  total (rows.filter fun r => r.reservedDay.1 ≤ d
    ∧ (r.Unresolved ∨ ∃ e ∈ r.status.spentDay, d ≤ e.1))

theorem Row.covers_span (r : Row) (d : Nat) :
    r.span.Covers d ↔ r.reservedDay.1 ≤ d ∧ (r.Unresolved ∨ ∃ e ∈ r.status.spentDay, d ≤ e.1) := by
  unfold Span.Covers Row.span Row.Unresolved
  cases r.status.spentDay with
  | none => simp
  | some e => simp

theorem load_eq_exposure (rows : List Stored) (d : Nat) :
    load (rows.map fun r => r.span) d = exposure rows d := by
  unfold load exposure
  induction rows with
  | nil => rfl
  | cons r rows ih =>
    rw [List.map_cons, List.map_cons, List.sum_cons, ih, List.filter_cons]
    unfold Span.load
    simp only [Row.covers_span, decide_eq_true_eq]
    split
    · rfl
    · exact Nat.zero_add _

/-! ### Decoding -/

def decodeStatus (lastDay reservedDay : Day) (status spentDay : Value) : Except Failure Status :=
  match status with
  | .str "RESERVED" => do
    rejectIf (spentDay.strictEq .null = false) .CORRUPT
    .ok .RESERVED
  | .str "UNKNOWN" => do
    rejectIf (spentDay.strictEq .null = false) .CORRUPT
    .ok .UNKNOWN
  | .str "SPENT" => do
    let spent ← day spentDay
    rejectIf (spent < reservedDay ∨ lastDay < spent) .CORRUPT
    .ok (.SPENT spent)
  | _ => .error .CORRUPT

/-- One round of the loop of `decode` over the rows; `seen` are the rows before it. -/
def decodeRow (policy : Policy) (lastDay : Day) (seen : List Stored) (item : Value) :
    Except Failure (List Stored) := do
  let (order, r) ← orReject (fields ROW item) .INPUT
  let reservedDay ← day (r "reservedDay")
  let row ← reservation (written (Order.given RESERVATION) r) policy reservedDay
  rejectIf (lastDay < reservedDay ∨ row.paymentId ∈ seen.map (fun s => s.paymentId)
    ∨ row.originalDigest ∈ seen.map (fun s => s.originalDigest)) .CORRUPT
  let status ← decodeStatus lastDay reservedDay (r "status") (r "spentDay")
  .ok (seen ++ [{ row with status := status, order := order }])

/-- The elements of an array of `1` to `maximum`. -/
def array (maximum : Nat) : Value → Option (List Value)
  | .arr xs => if 1 ≤ xs.length ∧ xs.length ≤ maximum then some xs else none
  | _ => none

def decode (policy : Policy) : Value → Except Failure State
  | .null => .ok .initial
  | .str raw => do
    rejectIf (1048576 < raw.utf8ByteSize) .CORRUPT
    let parsed ← orReject (parse raw) .CORRUPT
    let (_, s) ← orReject (fields STATE parsed) .INPUT
    rejectIf ((s "version").strictEq (.num 1) = false) .CORRUPT
    let (policyOrder, captured) ← captureOriginalFundingSpendingPolicy (s "policy")
    rejectIf (stringify captured.encode ≠ stringify policy.encode) .CORRUPT
    let revision ← orReject (count 9007199254740990 (s "revision")) .CORRUPT
    let lastDay ← day (s "lastDay")
    let items ← orReject (array policy.maxRecords (s "reservations")) .CORRUPT
    let rows ← items.foldlM (decodeRow policy lastDay) []
    let exposure := totals rows lastDay
    rejectIf (policy.maxTotal.value < exposure.total ∨ policy.maxDaily.value < exposure.daily
      ∨ stringify (written (Order.given STATE) s) ≠ raw) .CORRUPT
    rejectIf (sweep policy.maxDaily.value (rows.map fun r => r.span) = false) .CORRUPT
    .ok ⟨policyOrder, revision, lastDay, rows⟩
  | _ => .error .CORRUPT

/-! ### What is decoded -/

/-- The row is allowed, and its days are in order and not after the last one. -/
structure Row.Good (p : Policy) (lastDay : Day) (r : Row) : Prop where
  allowed : r.Allowed p
  reserved : r.reservedDay ≤ lastDay
  spent : ∀ e ∈ r.status.spentDay, r.reservedDay ≤ e ∧ e ≤ lastDay

structure State.Good (p : Policy) (s : State) : Prop where
  revision : 1 ≤ s.revision ∧ s.revision ≤ 9007199254740990
  size : 1 ≤ s.reservations.length ∧ s.reservations.length ≤ p.maxRecords
  rows : ∀ r ∈ s.reservations, r.Good p s.lastDay
  ids : (s.reservations.map fun r => r.paymentId).Nodup
  digests : (s.reservations.map fun r => r.originalDigest).Nodup
  total : total s.reservations ≤ p.maxTotal.value
  daily : ∀ d, exposure s.reservations d ≤ p.maxDaily.value

theorem decodeStatus_ok {lastDay reservedDay : Day} {v w : Value} {status : Status} :
    decodeStatus lastDay reservedDay v w = .ok status ↔
      v = .str status.name ∧ w = status.dayField ∧ ∀ e ∈ status.spentDay, reservedDay ≤ e
        ∧ e ≤ lastDay := by
  unfold decodeStatus
  split
  · simp only [bind_ok, rejectIf_ok, Bool.not_eq_false, Value.strictEq_null, Except.ok.injEq]
    cases status <;> simp [Status.name, Status.dayField, Status.spentDay]
  · simp only [bind_ok, rejectIf_ok, Bool.not_eq_false, Value.strictEq_null, Except.ok.injEq]
    cases status <;> simp [Status.name, Status.dayField, Status.spentDay]
  · simp only [bind_ok, rejectIf_ok, day_ok, Except.ok.injEq, not_or, not_lt]
    cases status <;> simp [Status.name, Status.dayField, Status.spentDay]
  · cases status <;> simp_all [Status.name]

theorem Row.field_status (row : Row) (status : Status) :
    ∀ k ∈ RESERVATION, ({ row with status := status } : Row).field k = row.field k := by
  simp only [RESERVATION, List.forall_mem_cons, Row.field, true_and]
  simp

theorem decodeRow_ok {p : Policy} {lastDay : Day} {seen rows : List Stored} {item : Value} :
    decodeRow p lastDay seen item = .ok rows ↔ ∃ r : Stored, rows = seen ++ [r] ∧ item = r.encode
      ∧ r.toRow.Good p lastDay ∧ r.paymentId ∉ seen.map (fun s => s.paymentId)
      ∧ r.originalDigest ∉ seen.map (fun s => s.originalDigest) := by
  unfold decodeRow
  simp only [bind_ok, rejectIf_ok, orReject_ok, day_ok, reservation_ok, decodeStatus_ok,
    Prod.exists, not_or, not_lt, Except.ok.injEq]
  constructor
  · rintro ⟨order, get, hget, reservedDay, hday, row, ⟨⟨order', hgiven⟩, hallowed, rfl, hstatus⟩, _,
      ⟨hle, hid, hdigest⟩, status, ⟨hname, hspent, hdays⟩, rfl⟩
    refine ⟨_, rfl, ?_, ⟨⟨hallowed.1, hallowed.2, hallowed.3, hallowed.4⟩, hle, hdays⟩, hid,
      hdigest⟩
    rw [fields_some (by decide) hget]
    refine written_congr ?_
    have hfield := (written_inj hgiven).2
    simp only [RESERVATION, List.forall_mem_cons, Row.field] at hfield
    simp only [ROW, List.forall_mem_cons, Row.field]
    exact ⟨hfield.1, hfield.2.1, hfield.2.2.1, hfield.2.2.2.1, hfield.2.2.2.2.1,
      hfield.2.2.2.2.2.1, hday, hname, hspent, by simp⟩
  · rintro ⟨r, rfl, rfl, hgood, hid, hdigest⟩
    obtain ⟨get, hget, hfield⟩ := fields_written r.order r.toRow.field
    have hrow : ∀ k ∈ RESERVATION,
        get k = ({ r.toRow with status := .RESERVED } : Row).field k := by
      intro k hk
      rw [Row.field_status _ _ k hk]
      exact hfield k (by revert hk; revert k; decide)
    simp only [ROW, List.forall_mem_cons, Row.field] at hfield
    refine ⟨r.order, get, hget, r.reservedDay, hfield.2.2.2.2.2.2.1,
      { r.toRow with status := .RESERVED },
      ⟨⟨_, written_congr hrow⟩,
        ⟨hgood.allowed.1, hgood.allowed.2, hgood.allowed.3, hgood.allowed.4⟩, rfl, rfl⟩,
      (), ⟨hgood.reserved, hid, hdigest⟩, r.status,
      ⟨hfield.2.2.2.2.2.2.2.1, hfield.2.2.2.2.2.2.2.2.1, hgood.spent⟩, rfl⟩

theorem decodeRows_from {p : Policy} {lastDay : Day} :
    ∀ {items : List Value} {seen rows : List Stored}, (seen.map fun r => r.paymentId).Nodup →
    (seen.map fun r => r.originalDigest).Nodup →
    (items.foldlM (decodeRow p lastDay) seen = .ok rows ↔ ∃ rs, rows = seen ++ rs
      ∧ items = rs.map Stored.encode
      ∧ (∀ r ∈ rs, r.toRow.Good p lastDay) ∧ (rows.map fun r => r.paymentId).Nodup
      ∧ (rows.map fun r => r.originalDigest).Nodup)
  | [], seen, rows, hid, hdigest => by
    rw [List.foldlM_nil]
    constructor
    · intro h
      obtain rfl := Except.ok.inj h
      exact ⟨[], (List.append_nil _).symm, rfl, by simp, hid, hdigest⟩
    · rintro ⟨rs, rfl, hitems, -⟩
      rw [List.map_eq_nil_iff.mp hitems.symm, List.append_nil]
      rfl
  | item :: items, seen, rows, hid, hdigest => by
    have hconcat {α : Type} {f : Stored → α} {r : Stored} (h : (seen.map f).Nodup)
        (hr : f r ∉ seen.map f) :
        ((seen ++ [r]).map f).Nodup := by
      rw [List.map_append]
      exact (List.nodup_append_comm.mpr (List.nodup_cons.mpr ⟨hr, h⟩))
    rw [List.foldlM_cons]
    simp only [bind_ok, decodeRow_ok]
    constructor
    · rintro ⟨_, ⟨r, rfl, rfl, hgood, hrid, hrdigest⟩, hrest⟩
      obtain ⟨rs, rfl, rfl, hgoods, hnodup⟩ :=
        (decodeRows_from (hconcat hid hrid) (hconcat hdigest hrdigest)).mp hrest
      exact ⟨r :: rs, by simp, rfl, List.forall_mem_cons.mpr ⟨hgood, hgoods⟩, hnodup⟩
    · rintro ⟨rs, rfl, hitems, hgoods, hids, hdigests⟩
      cases rs with
      | nil => cases hitems
      | cons r rs =>
        obtain ⟨rfl, rfl⟩ := List.cons.inj hitems
        have hfresh {α : Type} {f : Stored → α} (h : ((seen ++ r :: rs).map f).Nodup) : f r
            ∉ seen.map f := by
          rw [List.map_append] at h
          exact fun hmem => List.disjoint_of_nodup_append h hmem (List.mem_cons_self ..)
        refine ⟨seen ++ [r], ⟨r, rfl, rfl, hgoods r (List.mem_cons_self ..), hfresh hids,
          hfresh hdigests⟩, ?_⟩
        refine (decodeRows_from (hconcat hid (hfresh hids))
          (hconcat hdigest (hfresh hdigests))).mpr ?_
        exact ⟨rs, by simp, rfl, fun x hx => hgoods x (List.mem_cons_of_mem _ hx), hids, hdigests⟩

theorem decodeRows_ok {p : Policy} {lastDay : Day} {items : List Value} {rows : List Stored} :
    items.foldlM (decodeRow p lastDay) [] = .ok rows ↔ items = rows.map Stored.encode
      ∧ (∀ r ∈ rows, r.toRow.Good p lastDay) ∧ (rows.map fun r => r.paymentId).Nodup
      ∧ (rows.map fun r => r.originalDigest).Nodup := by
  rw [@decodeRows_from p lastDay items [] rows List.nodup_nil List.nodup_nil]
  exact ⟨fun ⟨rs, hrs, h⟩ => (by obtain rfl : rows = rs := hrs; exact h), fun h => ⟨rows, rfl, h⟩⟩

/-- On a day that is not before any of the rows' days, the daily total is the exposure of that day.
-/
theorem daily_eq_exposure {p : Policy} {d : Day} {rows : List Stored}
    (h : ∀ r ∈ rows, r.toRow.Good p d) :
    (totals rows d).daily = exposure rows d.1 := by
  rw [totals_eq]
  refine congrArg total (List.filter_congr fun r hr => ?_)
  have hreserved : r.reservedDay.1 ≤ d.1 := (h r hr).reserved
  have hspent := (h r hr).spent
  rw [decide_eq_decide]
  unfold Row.Unresolved
  cases hs : r.status.spentDay with
  | none => simp [hreserved]
  | some e =>
    have hle : e.1 ≤ d.1 := (hspent e hs).2
    simp only [reduceCtorEq, false_or, Option.some.injEq, hreserved, true_and, Option.mem_def,
      exists_eq_left']
    rw [← Subtype.val_inj]
    omega

/-- The sweep over the history checks every day. -/
theorem sweep_iff_exposure {rows : List Stored} {limit : Nat}
    (h : ∀ r ∈ rows, ∀ e ∈ r.status.spentDay, r.reservedDay ≤ e) :
    sweep limit (rows.map fun r => r.span) = true ↔ ∀ d, exposure rows d ≤ limit := by
  rw [sweep_iff fun s hs e he => ?_]
  · simp only [load_eq_exposure]
  · obtain ⟨r, hr, rfl⟩ := List.mem_map.mp hs
    obtain ⟨day, hday, rfl⟩ := Option.map_eq_some_iff.mp he
    exact h r hr day hday

theorem sweep_rows {p : Policy} {d : Day} {rows : List Stored} {limit : Nat}
    (h : ∀ r ∈ rows, r.toRow.Good p d) :
    sweep limit (rows.map fun r => r.span) = true ↔ ∀ d, exposure rows d ≤ limit :=
  sweep_iff_exposure fun r hr e he => ((h r hr).spent e he).1

/-- On any rows whose days are in order, the sweep rejects exactly the limits
that some day exceeds: it finds the greatest exposure of all days. -/
theorem sweep_exact {rows : List Stored} {lastDay : Day}
    (h : ∀ r ∈ rows, ∀ e ∈ r.status.spentDay, r.reservedDay ≤ e ∧ e ≤ lastDay) :
    (∀ limit, sweep limit (rows.map fun r => r.span) = false ↔ ∃ d, limit < exposure rows d)
      ∧ ∃ peak, (∀ d, exposure rows d ≤ exposure rows peak)
        ∧ ∀ limit, sweep limit (rows.map fun r => r.span) = true ↔ exposure rows peak ≤ limit := by
  have hsweep : ∀ limit, sweep limit (rows.map fun r => r.span) = true ↔ ∀ d,
      exposure rows d ≤ limit :=
    fun limit => sweep_iff_exposure fun r hr e he => (h r hr e he).1
  constructor
  · intro limit
    rw [← Bool.not_eq_true, hsweep limit]
    simp only [not_forall, not_le]
  · obtain ⟨peak, hpeak⟩ := exists_peak (rows.map fun r => r.span)
    simp only [load_eq_exposure] at hpeak
    refine ⟨peak, hpeak, fun limit => ?_⟩
    rw [hsweep limit]
    exact ⟨fun hle => hle peak, fun hle d => (hpeak d).trans hle⟩

namespace Sample

def spentRow : Stored where
  paymentId := ⟨"payment-1", by decide⟩
  originalDigest := ⟨"sha256:" ++ String.ofList (List.replicate 64 'a'), by decide⟩
  network := ⟨"zenon:1", by decide⟩
  asset := ⟨"znn", by decide⟩
  recipient := ⟨"z1qrecipient", by decide⟩
  amount := ⟨"5", by decide⟩
  reservedDay := ⟨3, by decide⟩
  status := .SPENT ⟨4, by decide⟩
  order := Order.given ROW

/-- A row that is reserved on the day on which the other one is spent. -/
def openRow : Stored :=
  { spentRow with paymentId := ⟨"payment-2", by decide⟩, reservedDay := ⟨4, by decide⟩, status := .RESERVED }

end Sample

theorem sweep_exact_sample :
    sweep 9 ([Sample.spentRow, Sample.openRow].map fun r => r.span) = false :=
  ((@sweep_exact [Sample.spentRow, Sample.openRow] ⟨4, by decide⟩ (by decide)).1 9).mpr
  ⟨4, by decide⟩

namespace State

theorem json (p : Policy) {s : State} (h : s.revision ≤ 9007199254740991) : Json (s.encode p) := by
  refine json_written (by decide) ?_
  have hday := s.lastDay.2
  simp only [STATE, List.forall_mem_cons, field]
  refine ⟨.num (by decide), p.json _, .num (by omega), .num (by omega), .arr ?_, by simp⟩
  intro v hv
  obtain ⟨r, _, rfl⟩ := List.mem_map.mp hv
  exact r.json

/-- What is written determines the policy and the state. -/
theorem encode_inj {p q : Policy} {s t : State} (h : s.encode p = t.encode q) : p = q ∧ s = t := by
  obtain ⟨-, hfield⟩ := written_inj h
  simp only [STATE, List.forall_mem_cons, field, Value.num.injEq, Nat.cast_inj,
    Value.arr.injEq] at hfield
  obtain ⟨-, hpolicy, hrevision, hday, hrows, -⟩ := hfield
  obtain ⟨horder, hfields⟩ := written_inj hpolicy
  have hrows' := List.map_injective_iff.mpr (fun a b => Stored.encode_inj) hrows
  obtain ⟨o, r, d, rs⟩ := s
  obtain ⟨o', r', d', rs'⟩ := t
  have hday' : d = d' := Subtype.ext hday
  simp only at horder hrevision hrows'
  rw [horder, hrevision, hday', hrows']
  exact ⟨Policy.field_inj hfields, rfl⟩

end State

theorem stringify_policy {p q : Policy} : stringify q.encode = stringify p.encode ↔ q = p := by
  refine ⟨fun h => ?_, fun h => h ▸ rfl⟩
  exact Policy.field_inj (written_inj (stringify_inj (q.json _) (p.json _) h)).2

theorem array_some {maximum : Nat} {v : Value} {xs : List Value} :
    array maximum v = some xs ↔ v = .arr xs ∧ 1 ≤ xs.length ∧ xs.length ≤ maximum := by
  cases v with
  | arr ys =>
    simp only [array, Option.ite_none_right_eq_some, Option.some.injEq, Value.arr.injEq]
    exact ⟨fun ⟨h, he⟩ => ⟨he, he ▸ h⟩, fun ⟨he, h⟩ => ⟨he ▸ h, he⟩⟩
  | _ => simp [array]

/-- A text is accepted exactly when it is the text of a state that keeps the limits. -/
theorem decode_str {p : Policy} {raw : String} {s : State} : decode p (.str raw) = .ok s ↔
    raw.utf8ByteSize ≤ 1048576 ∧ raw = stringify (s.encode p) ∧ s.Good p := by
  have hone {v : Value} : ¬ v.strictEq (.num 1) = false ↔ v = .num 1 := by
    rw [Bool.not_eq_false, Value.strictEq_num one_ne_zero]
  unfold decode
  simp only [bind_ok, rejectIf_ok, orReject_ok, capture_ok, count_some, day_ok, array_some,
    hone, Prod.exists, not_or, not_lt, not_not, Bool.not_eq_false, stringify_policy,
    Except.ok.injEq]
  constructor
  · rintro ⟨_, hbytes, parsed, hparsed, order, get, hget, _, hversion, policyOrder, q, hpolicy, _,
      rfl, revision, ⟨hrevision, hlow, hhigh⟩, lastDay, hday, items, ⟨hitems, hsize⟩,
      rows, hrows, _,
      ⟨htotal, hdaily, hraw⟩, _, hsweep, rfl⟩
    obtain ⟨rfl, hgood, hids, hdigests⟩ := decodeRows_ok.mp hrows
    refine ⟨hbytes, ?_, ?_⟩
    · rw [← hraw]
      refine congrArg stringify (written_congr ?_)
      simp only [STATE, List.forall_mem_cons, State.field]
      exact ⟨hversion, hpolicy, hrevision, hday, hitems, by simp⟩
    · rw [List.length_map] at hsize
      rw [totals_eq] at htotal
      exact ⟨⟨hlow, hhigh⟩, hsize, hgood, hids, hdigests, htotal, (sweep_rows hgood).mp hsweep⟩
  · rintro ⟨hbytes, rfl, hgood⟩
    have hparse := parse_stringify (s.json p (by have := hgood.revision; omega))
    obtain ⟨get, hget, hfield⟩ := fields_written (Order.given STATE) (s.field p)
    have hraw : written (Order.given STATE) get = s.encode p := written_congr hfield
    simp only [STATE, List.forall_mem_cons, State.field] at hfield
    obtain ⟨hversion, hpolicy, hrevision, hday, hitems, -⟩ := hfield
    refine ⟨(), hbytes, _, hparse, _, get, hget, (), hversion, s.policyOrder, p, hpolicy, (),
      rfl, s.revision, ⟨hrevision, hgood.revision⟩, s.lastDay, hday, _,
      ⟨hitems, by simpa using hgood.size⟩, s.reservations, ?_, (),
      ⟨?_, ?_, congrArg stringify hraw⟩, (), (sweep_rows hgood.rows).mpr hgood.daily, rfl⟩
    · exact decodeRows_ok.mpr ⟨rfl, hgood.rows, hgood.ids, hgood.digests⟩
    · rw [totals_eq]
      exact hgood.total
    · rw [daily_eq_exposure hgood.rows]
      exact hgood.daily _

end Spending
end ZenonX402
