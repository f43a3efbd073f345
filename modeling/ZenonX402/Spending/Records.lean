/-
# The records of a spending account

What `original-funding-spending-reservations.js` reads and writes: the spending
policy of an account, a reservation for one payment, and the state that holds
them. Each field has a type that carries its check, and a record that is kept
remembers the order of its keys, so that it is written back as it was read.

Key definitions: `Policy`, `capturePolicy`, `Row`, `reservation`, `Stored`.
Key theorems: `capturePolicy_ok`, `reservation_ok`, `Policy.field_inj`, `Stored.encode_inj`.
-/
import ZenonX402.Lib.Loop
import ZenonX402.Lib.Record
import ZenonX402.Lib.Sweep
import ZenonX402.Lib.Text

namespace ZenonX402
namespace Spending

open Js
open Value (Json)

/-- The suffix of an `ORIGINAL_FUNDING_SPENDING_` error. -/
inductive Failure
  | INPUT
  | DAY
  | AMOUNT
  | POLICY
  | ALLOWLIST
  | PER_PAYMENT_LIMIT
  | CORRUPT
  | READ_UNKNOWN
  | CLOSED
  | HELD
  | REVISION_EXHAUSTED
  | COMMIT_UNKNOWN
  | CONFLICT
  | CLOCK_ROLLBACK
  | UNRESOLVED_ORIGINAL
  | ORIGINAL_ALREADY_RESERVED
  | RECORD_LIMIT
  | TOTAL_LIMIT
  | DAILY_LIMIT
  | STATUS
  | ORIGINAL_MISMATCH
  | DOWNGRADE
  | TRANSITION_VERSION
  | INITIAL_RESERVATION
  | HISTORY_REPLACEMENT
  | HISTORY_REMOVAL
  | ORIGINAL_REPLACEMENT
  | SPENT_DAY
  | BATCH_TRANSITION
  deriving DecidableEq, Repr

/-! ### Fields -/

def isText (s : String) : Bool :=
  Text.headTail Text.isAlnum (fun c => Text.isAlnum c || Text.oneOf ":._-" c) 127 s

/-- The number that decimal digits write. -/
def decimal (s : String) : Nat := s.toList.foldl (fun n c => 10 * n + (c.toNat - '0'.toNat)) 0

/-- `(1n << 255n) - 1n`. -/
def MAX : Nat := 2 ^ 255 - 1

def isAmount (s : String) : Bool :=
  Text.headTail (fun c => Text.isDigit c && c != '0') Text.isDigit 76 s && decide (decimal s ≤ MAX)

def isHash (s : String) : Bool := Text.prefixed "sha256:" Text.isHexLower 64 s

abbrev Text := {s : String // isText s = true}

instance lawfulBEqText : LawfulBEq Text := inferInstance

abbrev Amount := {s : String // isAmount s = true}

abbrev Hash := {s : String // isHash s = true}

abbrev Day := {n : Nat // n ≤ 2147483647}

def Amount.value (a : Amount) : Nat := decimal a.1

/-- A string with the shape `p`. -/
def textOf (p : String → Bool) (e : Failure) : Value → Except Failure {s : String // p s = true}
  | .str s => if h : p s = true then .ok ⟨s, h⟩ else .error e
  | _ => .error e

def text (v : Value) : Except Failure Text := textOf isText .INPUT v

/-- `amount`; the text is kept, `Amount.value` is the number. -/
def amount (v : Value) : Except Failure Amount := textOf isAmount .AMOUNT v

def hash (v : Value) : Except Failure Hash := textOf isHash .INPUT v

theorem toNat_day {n : Int} (h : 0 ≤ n ∧ n ≤ 2147483647) : n.toNat ≤ 2147483647 := by omega

/-- `day`: a safe integer, and not a negative zero. -/
def day : Value → Except Failure Day
  | .num n => if h : 0 ≤ n ∧ n ≤ 2147483647 then .ok ⟨n.toNat, toNat_day h⟩ else .error .DAY
  | _ => .error .DAY

theorem textOf_ok {p : String → Bool} {e : Failure} {v : Value} {s : {s : String // p s = true}} :
    textOf p e v = .ok s ↔ v = .str s.1 := by
  cases v with
  | str t =>
    unfold textOf
    by_cases h : p t = true
    · simp only [dif_pos h, Except.ok.injEq, Value.str.injEq, ← Subtype.val_inj]
    · simp only [dif_neg h, reduceCtorEq, Value.str.injEq, false_iff]
      exact fun he => h (he ▸ s.2)
  | _ => simp [textOf]

theorem text_ok {v : Value} {s : Text} : text v = .ok s ↔ v = .str s.1 := textOf_ok

theorem amount_ok {v : Value} {s : Amount} : amount v = .ok s ↔ v = .str s.1 := textOf_ok

theorem hash_ok {v : Value} {s : Hash} : hash v = .ok s ↔ v = .str s.1 := textOf_ok

theorem day_ok {v : Value} {d : Day} : day v = .ok d ↔ v = .num d.1 := by
  cases v with
  | num n =>
    unfold day
    by_cases h : 0 ≤ n ∧ n ≤ 2147483647
    · simp only [dif_pos h, Except.ok.injEq, Value.num.injEq, ← Subtype.val_inj]
      omega
    · have hd := d.2
      simp only [dif_neg h, reduceCtorEq, Value.num.injEq, false_iff]
      omega
  | _ => simp [day]

/-- `list`: a plain array with `1` to `maximum` elements. -/
def list (v : Value) (maximum : Nat) : Except Failure (List Value) := match v with
  | .arr xs => if 1 ≤ xs.length ∧ xs.length ≤ maximum then .ok xs else .error .INPUT
  | _ => .error .INPUT

theorem list_ok {v : Value} {maximum : Nat} {xs : List Value} :
    list v maximum = .ok xs ↔ v = .arr xs ∧ 1 ≤ xs.length ∧ xs.length ≤ maximum := by
  cases v with
  | arr ys =>
    unfold list
    by_cases h : 1 ≤ ys.length ∧ ys.length ≤ maximum
    · simp only [if_pos h, Except.ok.injEq, Value.arr.injEq]
      exact ⟨fun he => ⟨he, he ▸ h⟩, fun he => he.1⟩
    · simp only [if_neg h, reduceCtorEq, Value.arr.injEq, false_iff]
      exact fun ⟨he, hlen⟩ => h (he ▸ hlen)
  | _ => simp [list]

/-! ### The policy -/

/-- The keys `POLICY`. -/
def POLICY : List String :=
  ["version", "policyId", "accountId", "network", "asset", "recipients", "maxPayment", "maxTotal",
    "maxDaily", "maxRecords"]

structure Policy where
  policyId : Text
  accountId : Text
  network : Text
  asset : Text
  recipients : List Text
  maxPayment : Amount
  maxTotal : Amount
  maxDaily : Amount
  maxRecords : Nat
  recipients_size : 1 ≤ recipients.length ∧ recipients.length ≤ 16
  recipients_nodup : recipients.Nodup
  payment_le : maxPayment.value ≤ maxTotal.value ∧ maxPayment.value ≤ maxDaily.value
  records : 1 ≤ maxRecords ∧ maxRecords ≤ 1024

/-- The value under a key of the policy. -/
def Policy.field (p : Policy) : String → Value
  | "version" => .num 1
  | "policyId" => .str p.policyId.1
  | "accountId" => .str p.accountId.1
  | "network" => .str p.network.1
  | "asset" => .str p.asset.1
  | "recipients" => .arr (p.recipients.map fun r => .str r.1)
  | "maxPayment" => .str p.maxPayment.1
  | "maxTotal" => .str p.maxTotal.1
  | "maxDaily" => .str p.maxDaily.1
  | "maxRecords" => .num p.maxRecords
  | _ => .undefined

/-- The policy as it is captured. -/
def Policy.encode (p : Policy) : Value := written (Order.given POLICY) p.field

/-- A safe integer from one to `maximum`. -/
def count (maximum : Nat) : Value → Option Nat
  | .num n => if 1 ≤ n ∧ n ≤ maximum then some n.toNat else none
  | _ => none

theorem count_some {maximum : Nat} {v : Value} {n : Nat} :
    count maximum v = some n ↔ v = .num n ∧ 1 ≤ n ∧ n ≤ maximum := by
  cases v with
  | num m =>
    simp only [count, Option.ite_none_right_eq_some, Option.some.injEq, Value.num.injEq]
    omega
  | _ => simp [count]

/-- `captureOriginalFundingSpendingPolicy`, with the order in which the keys were given. -/
def captureOriginalFundingSpendingPolicy (input : Value) :
    Except Failure (Order POLICY × Policy) := do
  let (order, p) ← orReject (fields POLICY input) .INPUT
  rejectIf ((p "version").strictEq (.num 1) = false) .POLICY
  let policyId ← text (p "policyId")
  let accountId ← text (p "accountId")
  let network ← text (p "network")
  let asset ← text (p "asset")
  let given ← list (p "recipients") 16
  let recipients ← given.mapM text
  rejectIf (¬ recipients.Nodup) .POLICY
  let maxPayment ← amount (p "maxPayment")
  let maxTotal ← amount (p "maxTotal")
  let maxDaily ← amount (p "maxDaily")
  let maxRecords ← orReject (count 1024 (p "maxRecords")) .POLICY
  if h : (1 ≤ recipients.length ∧ recipients.length ≤ 16) ∧ recipients.Nodup
      ∧ (maxPayment.value ≤ maxTotal.value ∧ maxPayment.value ≤ maxDaily.value)
      ∧ 1 ≤ maxRecords ∧ maxRecords ≤ 1024 then
    .ok (order, ⟨policyId, accountId, network, asset, recipients, maxPayment, maxTotal,
      maxDaily, maxRecords, h.1, h.2.1, h.2.2.1, h.2.2.2⟩)
  else .error .POLICY

def capturePolicy (input : Value) : Except Failure Policy := do
  let (_, p) ← captureOriginalFundingSpendingPolicy input
  .ok p

theorem mapM_text {vs : List Value} : ∀ {ts : List Text},
    vs.mapM text = .ok ts ↔ vs = ts.map fun t => .str t.1 := by
  induction vs with
  | nil =>
    intro ts
    rw [List.mapM_nil, eq_comm (a := ([] : List Value)), List.map_eq_nil_iff]
    exact ⟨fun h => (Except.ok.inj h).symm, fun h => h ▸ rfl⟩
  | cons v vs ih =>
    intro ts
    rw [List.mapM_cons]
    simp only [bind_ok, pure, Except.pure, Except.ok.injEq, text_ok, ih]
    constructor
    · rintro ⟨t, rfl, ts', rfl, rfl⟩
      rfl
    · intro h
      cases ts with
      | nil => cases h
      | cons t ts =>
        obtain ⟨rfl, rfl⟩ := List.cons.inj h
        exact ⟨t, rfl, ts, rfl, rfl⟩

theorem Policy.field_inj {p q : Policy} (h : ∀ k ∈ POLICY, p.field k = q.field k) : p = q := by
  obtain ⟨⟨_, _⟩, ⟨_, _⟩, ⟨_, _⟩, ⟨_, _⟩, ps, ⟨_, _⟩, ⟨_, _⟩, ⟨_, _⟩, _, _, _, _, _⟩ := p
  obtain ⟨⟨_, _⟩, ⟨_, _⟩, ⟨_, _⟩, ⟨_, _⟩, qs, ⟨_, _⟩, ⟨_, _⟩, ⟨_, _⟩, _, _, _, _, _⟩ := q
  simp only [POLICY, List.forall_mem_cons, Policy.field, Value.str.injEq, Value.arr.injEq,
    Value.num.injEq, Nat.cast_inj] at h
  have hr : ps = qs := List.map_injective_iff.mpr
    (fun a b hab => Subtype.ext (Value.str.inj hab)) h.2.2.2.2.2.1
  simp only [mk.injEq, Subtype.mk.injEq]
  exact ⟨h.2.1, h.2.2.1, h.2.2.2.1, h.2.2.2.2.1, hr, h.2.2.2.2.2.2.1, h.2.2.2.2.2.2.2.1,
    h.2.2.2.2.2.2.2.2.1, h.2.2.2.2.2.2.2.2.2.1⟩

/-- What is captured is the policy that is written in the order that is given. -/
theorem capture_ok {input : Value} {order : Order POLICY} {p : Policy} :
    captureOriginalFundingSpendingPolicy input = .ok (order, p) ↔
    input = written order p.field := by
  have hone {v : Value} : ¬ v.strictEq (.num 1) = false ↔ v = .num 1 := by
    rw [Bool.not_eq_false, Value.strictEq_num one_ne_zero]
  unfold captureOriginalFundingSpendingPolicy
  simp only [bind_ok, rejectIf_ok, orReject_ok, text_ok, amount_ok, list_ok, count_some,
    mapM_text, hone, Prod.exists]
  constructor
  · rintro ⟨o, get, hget, _, hversion, id, hid, account, haccount, network, hnetwork,
      asset, hasset, _, ⟨hlist, _⟩, recipients, rfl, _, _, mp, hmp, mt, hmt, md, hmd, records,
      ⟨hrecords, _⟩, h⟩
    split at h
    · simp only [Except.ok.injEq, Prod.mk.injEq] at h
      obtain ⟨rfl, rfl⟩ := h
      rw [fields_some (by decide) hget]
      refine written_congr ?_
      simp only [POLICY, List.forall_mem_cons, Policy.field]
      exact ⟨hversion, hid, haccount, hnetwork, hasset, hlist, hmp, hmt, hmd, hrecords, by simp⟩
    · cases h
  · rintro rfl
    obtain ⟨get, hget, hfield⟩ := fields_written order p.field
    simp only [POLICY, List.forall_mem_cons, Policy.field] at hfield
    obtain ⟨hversion, hid, haccount, hnetwork, hasset, hlist, hmp, hmt, hmd, hrecords, -⟩ := hfield
    have hlength := p.recipients_size
    refine ⟨order, get, hget, (), hversion, p.policyId, hid, p.accountId, haccount, p.network,
      hnetwork, p.asset, hasset, _, ⟨hlist, by simpa using hlength⟩, p.recipients, rfl, (),
      not_not.mpr p.recipients_nodup,
      p.maxPayment, hmp, p.maxTotal, hmt, p.maxDaily, hmd, p.maxRecords, ⟨hrecords, p.records⟩, ?_⟩
    rw [dif_pos ⟨hlength, p.recipients_nodup, p.payment_le, p.records⟩]

theorem capturePolicy_ok {input : Value} {p : Policy} :
    capturePolicy input = .ok p ↔ ∃ order : Order POLICY, input = written order p.field := by
  unfold capturePolicy
  simp only [bind_ok, Prod.exists, Except.ok.injEq, capture_ok]
  constructor
  · rintro ⟨order, q, hinput, rfl⟩
    exact ⟨order, hinput⟩
  · rintro ⟨order, hinput⟩
    exact ⟨order, p, hinput, rfl⟩

theorem capturePolicy_encode (p : Policy) : capturePolicy p.encode = .ok p :=
  capturePolicy_ok.mpr ⟨_, rfl⟩

theorem Policy.json (p : Policy) (order : Order POLICY) : Json (written order p.field) := by
  refine json_written (by decide) ?_
  have hrecords := p.records
  simp only [POLICY, List.forall_mem_cons, Policy.field]
  refine ⟨.num (by decide), .str _, .str _, .str _, .str _, .arr ?_, .str _, .str _, .str _,
    .num (by omega), by simp⟩
  intro v hv
  obtain ⟨r, _, rfl⟩ := List.mem_map.mp hv
  exact .str _

/-! ### Reservations -/

/-- The keys `ROW`. -/
def ROW : List String :=
  ["paymentId", "originalDigest", "network", "asset", "recipient", "amount", "reservedDay",
    "status", "spentDay"]

inductive Status
  | RESERVED
  | UNKNOWN
  | SPENT (spentDay : Day)
  deriving DecidableEq

namespace Status

def name : Status → String
  | RESERVED => "RESERVED"
  | UNKNOWN => "UNKNOWN"
  | SPENT _ => "SPENT"

def spentDay : Status → Option Day
  | SPENT d => some d
  | _ => none

def dayField : Status → Value
  | SPENT d => .num d.1
  | _ => .null

end Status

structure Row where
  paymentId : Text
  originalDigest : Hash
  network : Text
  asset : Text
  recipient : Text
  amount : Amount
  reservedDay : Day
  status : Status
  deriving DecidableEq

/-- The value under a key of the row. -/
def Row.field (r : Row) : String → Value
  | "paymentId" => .str r.paymentId.1
  | "originalDigest" => .str r.originalDigest.1
  | "network" => .str r.network.1
  | "asset" => .str r.asset.1
  | "recipient" => .str r.recipient.1
  | "amount" => .str r.amount.1
  | "reservedDay" => .num r.reservedDay.1
  | "status" => .str r.status.name
  | "spentDay" => r.status.dayField
  | _ => .undefined

/-- A row that is kept, with the order of its keys. -/
structure Stored extends Row where
  order : Order ROW
  deriving DecidableEq

def Stored.encode (r : Stored) : Value := written r.order r.toRow.field

/-- Network, asset and recipient are those of the policy, and the amount is one payment's. -/
structure Row.Allowed (p : Policy) (r : Row) : Prop where
  network : r.network = p.network
  asset : r.asset = p.asset
  recipient : r.recipient ∈ p.recipients
  amount : r.amount.value ≤ p.maxPayment.value

/-- The keys that `reservation` reads. -/
def RESERVATION : List String :=
  ["paymentId", "originalDigest", "network", "asset", "recipient", "amount"]

def reservation (input : Value) (policy : Policy) (selectedDay : Day) : Except Failure Row := do
  let (_, r) ← orReject (fields RESERVATION input) .INPUT
  let paymentId ← text (r "paymentId")
  let originalDigest ← hash (r "originalDigest")
  let network ← text (r "network")
  let asset ← text (r "asset")
  let recipient ← text (r "recipient")
  let amount ← amount (r "amount")
  rejectIf (network ≠ policy.network ∨ asset ≠ policy.asset ∨ recipient ∉ policy.recipients)
    .ALLOWLIST
  rejectIf (policy.maxPayment.value < amount.value) .PER_PAYMENT_LIMIT
  .ok ⟨paymentId, originalDigest, network, asset, recipient, amount, selectedDay, .RESERVED⟩

theorem reservation_ok {input : Value} {p : Policy} {d : Day} {r : Row} :
    reservation input p d = .ok r ↔
    (∃ order : Order RESERVATION, input = written order r.field) ∧ r.Allowed p ∧ r.reservedDay = d
      ∧ r.status = .RESERVED := by
  unfold reservation
  simp only [bind_ok, rejectIf_ok, orReject_ok, text_ok, hash_ok, amount_ok, Prod.exists, not_or,
    not_not, not_lt, Except.ok.injEq]
  constructor
  · rintro ⟨order, get, hget, id, hid, digest, hdigest, network, hnetwork, asset, hasset,
      recipient, hrecipient, amount, hamount, _, ⟨hn, ha, hr⟩, _, hle, rfl⟩
    refine ⟨⟨order, ?_⟩, ⟨hn, ha, hr, hle⟩, rfl, rfl⟩
    rw [fields_some (by decide) hget]
    refine written_congr ?_
    simp only [RESERVATION, List.forall_mem_cons, Row.field]
    exact ⟨hid, hdigest, hnetwork, hasset, hrecipient, hamount, by simp⟩
  · rintro ⟨⟨order, rfl⟩, hallowed, rfl, hstatus⟩
    obtain ⟨get, hget, hfield⟩ := fields_written order r.field
    simp only [RESERVATION, List.forall_mem_cons, Row.field] at hfield
    obtain ⟨hid, hdigest, hnetwork, hasset, hrecipient, hamount, -⟩ := hfield
    refine ⟨order, get, hget, _, hid, _, hdigest, _, hnetwork, _, hasset, _, hrecipient,
      _, hamount, (), ⟨hallowed.network, hallowed.asset, hallowed.recipient⟩, (),
      hallowed.amount, ?_⟩
    rw [← hstatus]

theorem Status.inj {s t : Status} (hname : s.name = t.name) (hday : s.dayField = t.dayField) :
    s = t := by
  cases s <;> cases t <;> simp_all [name, dayField, Subtype.ext_iff]

theorem Row.field_inj {r r' : Row} (h : ∀ k ∈ ROW, r.field k = r'.field k) : r = r' := by
  obtain ⟨⟨_, _⟩, ⟨_, _⟩, ⟨_, _⟩, ⟨_, _⟩, ⟨_, _⟩, ⟨_, _⟩, ⟨_, _⟩, s⟩ := r
  obtain ⟨⟨_, _⟩, ⟨_, _⟩, ⟨_, _⟩, ⟨_, _⟩, ⟨_, _⟩, ⟨_, _⟩, ⟨_, _⟩, s'⟩ := r'
  simp only [ROW, List.forall_mem_cons, Row.field, Value.str.injEq, Value.num.injEq,
    Nat.cast_inj] at h
  have hs : s = s' := Status.inj h.2.2.2.2.2.2.2.1 h.2.2.2.2.2.2.2.2.1
  simp only [mk.injEq, Subtype.mk.injEq]
  exact ⟨h.1, h.2.1, h.2.2.1, h.2.2.2.1, h.2.2.2.2.1, h.2.2.2.2.2.1, h.2.2.2.2.2.2.1, hs⟩

theorem Row.json (r : Row) : ∀ k ∈ ROW, Json (r.field k) := by
  have hday := r.reservedDay.2
  have hspent : Json r.status.dayField := by
    cases r.status with
    | SPENT d => exact .num (by have := d.2; omega)
    | _ => exact .null
  simp only [ROW, List.forall_mem_cons, Row.field]
  exact ⟨.str _, .str _, .str _, .str _, .str _, .str _, .num (by omega), .str _, hspent, by simp⟩

theorem Stored.json (r : Stored) : Json r.encode := json_written (by decide) r.toRow.json

theorem Stored.encode_inj {r r' : Stored} (h : r.encode = r'.encode) : r = r' := by
  obtain ⟨horder, hfield⟩ := written_inj h
  obtain ⟨row, order⟩ := r
  obtain ⟨row', order'⟩ := r'
  obtain rfl := Row.field_inj hfield
  obtain rfl := horder
  rfl

end Spending
end ZenonX402
