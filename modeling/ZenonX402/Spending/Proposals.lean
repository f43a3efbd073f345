/-
# The proposals of the owners

An owner checks what it is about to propose against the limits of the day of the
call, and then decodes the text of its proposal like any other text. The limits
hold on every day of the history when they hold on that day (`Kept.reserved`,
`Kept.observed`), and a state that keeps them has a text that is short enough
(`State.size_le`). So a proposal is never refused: not by the owner's own
decoding, not by the comparison with the text it replaces, and not by the native
store (`proposals_accepted`).

Key definitions: `State.Kept`, `Owner.proposal`, `nativeCompareAndSwap`.
Key theorems: `State.size_le`, `Kept.reserved`, `Kept.observed`, `change_proposal`,
`proposals_accepted`.
-/
import ZenonX402.Lib.Extent
import ZenonX402.Spending.Limits

namespace ZenonX402
namespace Spending

open Js
open Value (textSize memberSize)

/-! ### The size of a state's text -/

theorem isPlain_text {c : Char} (h : (Text.isAlnum c || Text.oneOf ":._-" c) = true) :
    Text.isPlain c = true := by
  rcases Bool.or_eq_true_iff.mp h with h | h
  · exact Text.isPlain_isAlnum h
  · exact Text.isPlain_oneOf (by decide) h

theorem Text.size_le (t : Text) : textSize (.str t.1) ≤ 130 :=
  Value.textSize_headTail t.2 (fun _ => Text.isPlain_isAlnum) fun _ => isPlain_text

theorem Hash.size_eq (h : Hash) : textSize (.str h.1) = 73 :=
  Value.textSize_prefixed h.2 (by decide) fun _ => Text.isPlain_isHexLower

theorem Amount.size_le (a : Amount) : textSize (.str a.1) ≤ 79 := by
  have ha := a.2
  unfold isAmount at ha
  rw [Bool.and_eq_true] at ha
  refine Value.textSize_headTail ha.1 (fun c hc => ?_) fun _ => Text.isPlain_isDigit
  rw [Bool.and_eq_true] at hc
  exact Text.isPlain_isDigit hc.1

theorem size_nat {n : Nat} (h : n ≤ 9007199254740991) : textSize (.num n) ≤ 17 :=
  Value.textSize_num_le (by omega)

theorem Day.size_le (d : Day) : textSize (.num d.1) ≤ 17 := size_nat (by have := d.2; omega)

theorem Status.name_size_le (s : Status) : textSize (.str s.name) ≤ 10 := by
  cases s with
  | RESERVED => decide
  | UNKNOWN => decide
  | SPENT d =>
    have hspent : textSize (.str "SPENT") ≤ 10 := by decide
    exact hspent

theorem Status.day_size_le (s : Status) : textSize s.dayField ≤ 17 := by
  cases s with
  | SPENT d => exact d.size_le
  | _ => exact Nat.le_of_ble_eq_true rfl

/-- The sum of the sizes of the keys, two bytes for each of them included. -/
theorem sum_memberSize {names : List String} {field : String → Value} {sizes : List Nat}
    (h : List.Forall₂ (fun k n => textSize (field k) ≤ n) names sizes) :
    (names.map fun k => memberSize k (field k)).sum
      ≤ (names.map fun k => textSize (.str k) + 2).sum + sizes.sum := by
  induction h with
  | nil => exact le_rfl
  | cons hsize _ ih =>
    simp only [List.map_cons, List.sum_cons] at ih ⊢
    have hmember : ∀ k, memberSize k (field k) = textSize (.str k) + textSize (field k) + 2 :=
      fun _ => rfl
    rw [hmember]
    omega

theorem Stored.size_le (r : Stored) : textSize r.encode ≤ 830 := by
  have hsizes : List.Forall₂ (fun k n => textSize (r.toRow.field k) ≤ n) ROW
      [130, 73, 130, 130, 130, 79, 17, 10, 17] := by
    refine .cons (Text.size_le _)
      (.cons (Hash.size_eq _).le (.cons (Text.size_le _) (.cons (Text.size_le _)
      (.cons (Text.size_le _)
        (.cons (Amount.size_le _) (.cons (Day.size_le _) (.cons (Status.name_size_le _)
      (.cons (Status.day_size_le _) .nil))))))))
  have hkeys : (ROW.map fun k => textSize (.str k) + 2).sum = 111 := by decide
  have hsum := sum_memberSize hsizes
  have hwritten := Value.textSize_written_le r.order r.toRow.field
  rw [hkeys] at hsum
  calc textSize r.encode ≤ (ROW.map fun k => memberSize k (r.toRow.field k)).sum + 2 := hwritten
    _ ≤ 830 := by
      simp only [List.sum_cons, List.sum_nil] at hsum
      omega

theorem Policy.size_le (p : Policy) (order : Order POLICY) :
    textSize (written order p.field) ≤ 4000 := by
  have hrecipients : textSize (.arr (p.recipients.map fun r => .str r.1)) ≤ 16 * (130 + 1) + 2 := by
    refine Value.textSize_arr_le (fun v hv => ?_) (by simpa using p.recipients_size.2)
    obtain ⟨r, -, rfl⟩ := List.mem_map.mp hv
    exact Text.size_le r
  have hrecords : p.maxRecords ≤ 9007199254740991 := by have := p.records.2; omega
  have hsizes : List.Forall₂ (fun k n => textSize (p.field k) ≤ n) POLICY
      [17, 130, 130, 130, 130, 16 * (130 + 1) + 2, 79, 79, 79, 17] := by
    refine .cons (size_nat (n := 1) (by decide)) (.cons (Text.size_le _) (.cons (Text.size_le _)
      (.cons (Text.size_le _) (.cons (Text.size_le _) (.cons hrecipients (.cons (Amount.size_le _)
      (.cons (Amount.size_le _) (.cons (Amount.size_le _) (.cons (size_nat hrecords) .nil)))))))))
  have hkeys : (POLICY.map fun k => textSize (.str k) + 2).sum = 122 := by decide
  have hsum := sum_memberSize hsizes
  have hwritten := Value.textSize_written_le order p.field
  rw [hkeys] at hsum
  simp only [List.sum_cons, List.sum_nil] at hsum
  omega

/-- The text of a state of at most 1024 rows. -/
theorem State.size_le (p : Policy) {s : State} (hrevision : s.revision ≤ 9007199254740991)
    (hrows : s.reservations.length ≤ 1024) : (stringify (s.encode p)).utf8ByteSize ≤ 1048576 := by
  have hreservations : textSize (.arr (s.reservations.map Stored.encode))
      ≤ 1024 * (830 + 1) + 2 := by
    refine Value.textSize_arr_le (fun v hv => ?_) (by simpa using hrows)
    obtain ⟨r, -, rfl⟩ := List.mem_map.mp hv
    exact r.size_le
  have hsizes : List.Forall₂ (fun k n => textSize (s.field p k) ≤ n) STATE
      [17, 4000, 17, 17, 1024 * (830 + 1) + 2] := by
    refine .cons (size_nat (n := 1) (by decide)) (.cons (p.size_le _) (.cons (size_nat hrevision)
      (.cons (Day.size_le _) (.cons hreservations .nil))))
  have hkeys : (STATE.map fun k => textSize (.str k) + 2).sum = 60 := by decide
  have hsum := sum_memberSize hsizes
  have hwritten := Value.textSize_written_le (Order.given STATE) (s.field p)
  rw [hkeys] at hsum
  simp only [List.sum_cons, List.sum_nil] at hsum
  rw [Value.size_stringify]
  exact hwritten.trans (by omega)

/-! ### The limits on the proposed history -/

theorem Row.Good.mono {p : Policy} {d d' : Day} (hle : d ≤ d') {r : Row} (h : r.Good p d) :
    r.Good p d' :=
  ⟨h.allowed, h.reserved.trans hle, fun e he => ⟨(h.spent e he).1, (h.spent e he).2.trans hle⟩⟩

/-- A state that an owner can have: of nothing stored, or of a text that is accepted. -/
structure State.Kept (p : Policy) (s : State) : Prop where
  size : s.reservations.length ≤ p.maxRecords
  rows : ∀ r ∈ s.reservations, r.Good p s.lastDay
  within : s.Within p

theorem decode_kept {p : Policy} {v : Value} {s : State} (h : decode p v = .ok s) : s.Kept p := by
  cases v with
  | null =>
    obtain rfl : State.initial = s := Except.ok.inj h
    exact ⟨Nat.zero_le _, fun _ hr => absurd hr List.not_mem_nil, State.initial_within p⟩
  | str raw =>
    obtain ⟨-, -, hgood⟩ := decode_str.mp h
    exact ⟨hgood.size.2, hgood.rows, hgood.within⟩
  | _ => simp [decode] at h

/-- From the last day on, only what is unresolved or spent on that day weighs. -/
theorem exposure_le {p : Policy} {d : Day} {d' : Nat} {rows : List Stored}
    (h : ∀ r ∈ rows, r.Good p d) (hle : d.1 ≤ d') : exposure rows d' ≤ exposure rows d.1 := by
  rw [← load_eq_exposure, ← load_eq_exposure]
  refine List.sum_le_sum fun s hs => ?_
  obtain ⟨r, hr, rfl⟩ := List.mem_map.mp hs
  have hreserved : r.reservedDay.1 ≤ d.1 := (h r hr).reserved
  unfold Span.load
  by_cases hcovers : r.span.Covers d'
  · have hcovers' : r.span.Covers d.1 := ⟨hreserved, fun e he => hle.trans (hcovers.2 e he)⟩
    rw [if_pos hcovers, if_pos hcovers']
  · rw [if_neg hcovers]
    exact Nat.zero_le _

theorem exposure_concat (rows : List Stored) (r : Stored) (d : Nat) :
    exposure (rows ++ [r]) d = exposure rows d + r.span.load d := by
  rw [← load_eq_exposure, ← load_eq_exposure]
  unfold load
  rw [List.map_append, List.map_append, List.sum_append]
  rfl

namespace State.Kept

variable {p : Policy} {s t : State}

/-- The limits of the day of a reservation keep those of every day. -/
theorem reserved (h : s.Kept p) {r : Stored} (hday : s.lastDay ≤ t.lastDay)
    (hadded : r.Added t.lastDay) (hallowed : r.Allowed p)
    (hrows : t.reservations = s.reservations ++ [r])
    (hid : r.paymentId ∉ s.reservations.map fun r => r.paymentId)
    (hdigest : r.originalDigest ∉ s.reservations.map fun r => r.originalDigest)
    (hsize : s.reservations.length < p.maxRecords)
    (htotal : (totals t.reservations t.lastDay).total ≤ p.maxTotal.value)
    (hdaily : (totals t.reservations t.lastDay).daily ≤ p.maxDaily.value)
    (hrevision : 1 ≤ t.revision ∧ t.revision ≤ 9007199254740990) : t.Good p := by
  obtain ⟨hstatus, hreserved⟩ := hadded
  have hnew : r.Good p t.lastDay :=
    ⟨hallowed, hreserved.le, fun e he => by rw [hstatus] at he; cases he⟩
  have hgood : ∀ r ∈ t.reservations, r.Good p t.lastDay := by
    rw [hrows]
    intro x hx
    rcases List.mem_append.mp hx with hold | hx
    · exact (h.rows x hold).mono hday
    · rw [List.mem_singleton.mp hx]
      exact hnew
  have hnodup {α : Type} {f : Stored → α} (hold : (s.reservations.map f).Nodup)
      (hf : f r ∉ s.reservations.map f) : (t.reservations.map f).Nodup := by
    rw [hrows, List.map_append]
    exact List.nodup_append_comm.mpr (List.nodup_cons.mpr ⟨hf, hold⟩)
  refine ⟨hrevision, ?_, hgood, hnodup h.within.ids hid, hnodup h.within.digests hdigest,
    ?_, fun d => ?_⟩
  · rw [hrows, List.length_append, List.length_singleton]
    omega
  · rw [totals_eq] at htotal
    exact htotal
  · rcases Nat.lt_or_ge d t.lastDay.1 with hlt | hge
    · -- nothing that is reserved on the last day weighs before it
      have hzero : r.span.load d = 0 := by
        have hstart : r.span.start = t.lastDay.1 := congrArg Subtype.val hreserved
        exact if_neg fun hc => absurd hc.1 (by omega)
      rw [hrows, exposure_concat, hzero]
      exact h.within.daily d
    · rw [daily_eq_exposure hgood] at hdaily
      exact (exposure_le hgood hge).trans hdaily

end State.Kept

/-- A row that moves on weighs on no day on which it did not. -/
theorem Row.Step.load_le {last : Day} {r r' : Row} (h : Row.Step last r r') (d : Nat) :
    r'.span.load d ≤ r.span.load d := by
  rcases h with rfl | ⟨status, hmoves, rfl⟩
  · exact le_rfl
  · have hnone : r.status.spentDay = none := (hmoves.later (le_rfl : last ≤ last)).1
    unfold Span.load
    by_cases hcovers : Span.Covers (Row.span { r with status := status }) d
    · have hcovers' : r.span.Covers d := by
        refine ⟨hcovers.1, fun e he => ?_⟩
        unfold Row.span at he
        rw [hnone] at he
        cases he
      rw [if_pos hcovers, if_pos hcovers']
      exact le_rfl
    · rw [if_neg hcovers]
      exact Nat.zero_le _

theorem Row.Step.good {p : Policy} {d last : Day} {r r' : Row} (h : Row.Step last r r')
    (hle : d ≤ last) (hr : r.Good p d) : r'.Good p last := by
  rcases h with rfl | ⟨status, hmoves, rfl⟩
  · exact hr.mono hle
  · obtain ⟨-, hstatus⟩ := hmoves.later le_rfl
    refine ⟨⟨hr.allowed.1, hr.allowed.2, hr.allowed.3, hr.allowed.4⟩, hr.reserved.trans hle,
      fun e he => ?_⟩
    rcases hstatus with rfl | ⟨d', rfl, hlow, hhigh⟩
    · cases he
    · obtain rfl : d' = e := Option.some.inj he
      exact ⟨(hr.reserved.trans hle).trans hlow, hhigh⟩

theorem Row.Step.same {last : Day} {r r' : Row} (h : Row.Step last r r') :
    r'.paymentId = r.paymentId ∧ r'.originalDigest = r.originalDigest ∧ r'.amount = r.amount := by
  rcases h with rfl | ⟨status, -, rfl⟩
  · exact ⟨rfl, rfl, rfl⟩
  · exact ⟨rfl, rfl, rfl⟩

/-- Where the values agree row by row, the lists of them are equal. -/
theorem map_eq_of_forall₂ {α β : Type} {R : α → α → Prop} {f : α → β}
    (hf : ∀ a b, R a b → f b = f a) {as bs : List α} (h : List.Forall₂ R as bs) :
    bs.map f = as.map f := by
  induction h with
  | nil => rfl
  | cons hab _ ih => rw [List.map_cons, List.map_cons, hf _ _ hab, ih]

namespace State.Kept

variable {p : Policy} {s t : State}

/-- An observation lowers the exposure of every day. -/
theorem observed (h : s.Kept p) (hday : s.lastDay ≤ t.lastDay)
    (hrows : List.Forall₂ (fun r r' => Row.Step t.lastDay r.toRow r'.toRow) s.reservations
      t.reservations)
    (hnonempty : 1 ≤ s.reservations.length)
    (hrevision : 1 ≤ t.revision ∧ t.revision ≤ 9007199254740990) :
    t.Good p := by
  have hids := map_eq_of_forall₂ (f := fun r : Stored => r.paymentId) (fun _ _ h => h.same.1) hrows
  have hdigests := map_eq_of_forall₂ (f := fun r : Stored => r.originalDigest)
    (fun _ _ h => h.same.2.1) hrows
  have hamounts := map_eq_of_forall₂ (f := fun r : Stored => r.amount.value)
    (fun _ _ h => congrArg Amount.value h.same.2.2) hrows
  have hlength := hrows.length_eq
  refine ⟨hrevision, ⟨by omega, by have := h.size; omega⟩, fun r' hr' => ?_, ?_, ?_,
    ?_, fun d => ?_⟩
  · obtain ⟨i, hi, rfl⟩ := List.mem_iff_getElem.mp hr'
    have hi' : i < s.reservations.length := hlength ▸ hi
    exact (List.Forall₂.get hrows hi' hi).good hday (h.rows _ (List.getElem_mem hi'))
  · rw [hids]
    exact h.within.ids
  · rw [hdigests]
    exact h.within.digests
  · unfold total
    rw [hamounts]
    exact h.within.total
  · have hspans : List.Forall₂ (· ≤ ·) ((t.reservations.map fun r => r.span).map fun s => s.load d)
        ((s.reservations.map fun r => r.span).map fun s => s.load d) := by
      rw [List.map_map, List.map_map, List.forall₂_map_left_iff, List.forall₂_map_right_iff]
      exact List.Forall₂.flip (hrows.imp fun _ _ hstep => hstep.load_le d)
    have hle := hspans.sum_le_sum
    refine le_trans ?_ (h.within.daily d)
    rw [← load_eq_exposure, ← load_eq_exposure]
    exact hle

end State.Kept

/-! ### The native store -/

inductive StoreFailure
  | ACCOUNT
  | TRANSITION (e : Failure)
  | STORE_UNAVAILABLE

/-- The two `CHECK`s on the row of `original_spending_state_v1`. -/
def rowChecks (revision : Nat) (raw : String) : Prop :=
  revision ≤ 9007199254740990 ∧ 1 ≤ raw.utf8ByteSize ∧ raw.utf8ByteSize ≤ 1048576

instance (revision : Nat) (raw : String) : Decidable (rowChecks revision raw) :=
  inferInstanceAs (Decidable (_ ∧ _))

/-- `compareAndSwap` of the native store, by an open handle that owns the account and has last seen
the revision `lastRevision`: what it answers, and what is then stored. -/
def nativeCompareAndSwap (policy : Policy) (lastRevision : Option Nat)
    (stored accountId expected proposed : Value) :
    Except StoreFailure (Value × Value) := do
  rejectIf (accountId.strictEq (.str policy.accountId.1) = false) .ACCOUNT
  let next ← (requireOriginalFundingSpendingStateTransition expected proposed
      policy.encode).mapError .TRANSITION
  let current ← (inspectOriginalFundingSpendingState stored policy.encode).mapError
      fun _ => .STORE_UNAVAILABLE
  rejectIf (∃ n ∈ lastRevision, current.revision < n) .STORE_UNAVAILABLE
  if stored.strictEq expected = false then .ok (.null, stored)
  else if proposed.strictEq expected then .ok (proposed, stored)
  else match proposed with
    | .str raw => do
      rejectIf (¬ rowChecks next.revision raw) .STORE_UNAVAILABLE
      .ok (proposed, proposed)
    | _ => .error .STORE_UNAVAILABLE

/-! ### Proposals -/

/-- The state and the text that `change` gives to `compareAndSwap`, with what the call returns once
it is stored. -/
def Owner.proposal {α : Type} (o : Owner) (work : State → Except Stop (Option State × α)) :
    Option (State × String × α) :=
  match o.usable, work o.state with
  | .ok (), .ok (some next, result) =>
    if 9007199254740990 ≤ o.state.revision then none
    else
      let proposed := { next with revision := o.state.revision + 1 }
      let raw := stringify (proposed.encode o.policy)
      match decode o.policy (.str raw) with
      | .error _ => none
      | .ok _ => some (proposed, raw, result)
  | _, _ => none

section

variable {α : Type} {o : Owner} {work : State → Except Stop (Option State × α)}

/-- A change gives its proposal to the backend, or never reaches it. -/
theorem change_proposal (swap : Swap) (stored : Value) :
    (∃ s raw r, o.proposal work = some (s, raw, r) ∧ o.change work swap stored
      = o.propose s raw r swap stored)
      ∨ (o.proposal work = none ∧ ∃ result o', o.change work swap stored
        = ⟨result, o', stored⟩) := by
  unfold Owner.change Owner.proposal
  cases o.usable with
  | error e => exact .inr ⟨rfl, _, _, rfl⟩
  | ok u =>
    rcases hwork : work o.state with e | ⟨next, r⟩
    · cases e with
      | fails e => exact .inr ⟨rfl, _, _, rfl⟩
      | holds e => exact .inr ⟨rfl, _, _, rfl⟩
    · cases next with
      | none => exact .inr ⟨rfl, _, _, rfl⟩
      | some next =>
        dsimp only
        by_cases hrevision : 9007199254740990 ≤ o.state.revision
        · rw [if_pos hrevision, if_pos hrevision]
          exact .inr ⟨rfl, _, _, rfl⟩
        · rw [if_neg hrevision, if_neg hrevision]
          cases decode o.policy
              (.str (stringify (({ next with revision := o.state.revision + 1 } : State).encode
                o.policy))) with
          | error e => exact .inr ⟨rfl, _, _, rfl⟩
          | ok b => exact .inl ⟨_, _, _, rfl, rfl⟩

theorem proposal_some {s : State} {raw : String} {r : α} (h : o.proposal work = some (s, raw, r)) :
    o.usable = .ok () ∧ ∃ next, work o.state = .ok (some next, r) ∧ o.state.revision
      < 9007199254740990
      ∧ s = { next with revision := o.state.revision + 1 } ∧ raw = stringify (s.encode o.policy)
      ∧ decode o.policy (.str raw) = .ok s := by
  unfold Owner.proposal at h
  split at h
  · rename_i next result husable hwork
    split at h
    · cases h
    · rename_i hrevision
      dsimp only at h
      split at h
      · cases h
      · rename_i b hb
        have hle : o.state.revision + 1 ≤ 9007199254740990 := by omega
        have hown := @decode_own o.policy { next with revision := o.state.revision + 1 } b hle hb
        rw [hown] at hb
        simp only [Option.some.injEq, Prod.mk.injEq] at h
        obtain ⟨rfl, rfl, rfl⟩ := h
        exact ⟨husable, next, hwork, by omega, rfl, rfl, hb⟩
  · cases h

/-- A change whose next state keeps the limits is proposed. -/
theorem proposal_of {next : State} {r : α} (husable : o.usable = .ok ())
    (hwork : work o.state = .ok (some next, r)) (hrevision : o.state.revision < 9007199254740990)
    (hgood : ({ next with revision := o.state.revision + 1 } : State).Good o.policy) :
    o.proposal work = some ({ next with revision := o.state.revision + 1 },
      stringify (({ next with revision := o.state.revision + 1 } : State).encode o.policy), r) := by
  have hrows : next.reservations.length ≤ 1024 := hgood.size.2.trans o.policy.records.2
  have hdecode : decode o.policy
      (.str (stringify (({ next with revision := o.state.revision + 1 } : State).encode o.policy)))
        = .ok { next with revision := o.state.revision + 1 } := by
    refine decode_str.mpr ⟨State.size_le o.policy ?_ hrows, rfl, hgood⟩
    exact hgood.revision.2.trans (by decide)
  unfold Owner.proposal
  rw [husable, hwork]
  dsimp only
  rw [if_neg (by omega), hdecode]

/-- What a call of an owner proposes is accepted everywhere, and it proposes what it has admitted.
-/
structure Owner.Admits (o : Owner) (work : State → Except Stop (Option State × α)) : Prop where
  accepted : ∀ s raw r, o.proposal work = some (s, raw, r) →
    requireOriginalFundingSpendingStateTransition o.current (.str raw) o.policy.encode = .ok s
  stored : ∀ s raw r, o.proposal work = some (s, raw, r) → ∀ lastRevision stored t,
    decode o.policy stored = .ok t → (∀ n ∈ lastRevision, n ≤ t.revision) →
    nativeCompareAndSwap o.policy lastRevision stored (.str o.policy.accountId.1)
    o.current (.str raw)
      = .ok (if stored.strictEq o.current then (.str raw, .str raw) else (.null, stored))
  proposed : ∀ next r, o.usable = .ok () → work o.state = .ok (some next, r) →
    o.state.revision < 9007199254740990 →
    ∃ raw, o.proposal work = some ({ next with revision := o.state.revision + 1 }, raw, r)

/-- Only the policy is read from what is given as one. -/
theorem requireTransition_encode {input : Value} {p : Policy} (hp : capturePolicy input = .ok p)
    (v w : Value) :
    requireOriginalFundingSpendingStateTransition v w input
      = requireOriginalFundingSpendingStateTransition v w p.encode := by
  unfold requireOriginalFundingSpendingStateTransition
  rw [hp, capturePolicy_encode]

/-- A text that follows the owner's is taken by the native store exactly when the owner's is there.
-/
theorem native_accepts {raw : String} {s t : State} {stored : Value} {lastRevision : Option Nat}
    (haccepted : requireOriginalFundingSpendingStateTransition o.current (.str raw) o.policy.encode
      = .ok s)
    (hsize : 1 ≤ raw.utf8ByteSize ∧ raw.utf8ByteSize ≤ 1048576)
    (hrevision : s.revision ≤ 9007199254740990) (hstored : decode o.policy stored = .ok t)
    (hlast : ∀ n ∈ lastRevision, n ≤ t.revision) :
    nativeCompareAndSwap o.policy lastRevision stored (.str o.policy.accountId.1)
    o.current (.str raw)
      = .ok (if stored.strictEq o.current then (.str raw, .str raw) else (.null, stored)) := by
  have haccount : (Value.str o.policy.accountId.1).strictEq (.str o.policy.accountId.1) = true :=
    Value.strictEq_str.mpr rfl
  have hinspect : inspectOriginalFundingSpendingState stored o.policy.encode = .ok t := by
    unfold inspectOriginalFundingSpendingState
    rw [capturePolicy_encode]
    exact hstored
  have hnot : ¬ ∃ n ∈ lastRevision, t.revision < n :=
    fun ⟨n, hn, hlt⟩ => absurd (hlast n hn) (by omega)
  unfold nativeCompareAndSwap
  simp only [bind_ok, mapError_ok, rejectIf_ok, haccount]
  refine ⟨(), by simp, s, haccepted, t, hinspect, (), hnot, ?_⟩
  by_cases heq : stored.strictEq o.current = true
  · rw [heq, if_neg (by simp), if_pos rfl]
    by_cases hsame : (Value.str raw).strictEq o.current = true
    · rw [if_pos hsame]
      have hraw : stored = .str raw := by
        cases hc : o.current with
        | str c =>
          rw [hc, Value.strictEq_str] at hsame heq
          rw [heq, hsame]
        | _ => simp [hc, Value.strictEq] at hsame
      rw [hraw]
    · rw [if_neg hsame]
      simp only [bind_ok, rejectIf_ok, not_not]
      exact ⟨(), ⟨hrevision, hsize⟩, trivial⟩
  · rw [Bool.not_eq_true] at heq
    rw [heq, if_pos rfl, if_neg (by simp)]

/-- A valid owner, whose work gives nothing but what may follow and keeps the limits. -/
theorem Owner.Valid.admits (ho : o.Valid) (hwork : ∀ next r, work o.state = .ok (some next, r) →
      o.state.lastDay ≤ next.lastDay ∧ o.state.Follows next ∧ ∀ revision, 1 ≤ revision →
      revision ≤ 9007199254740990 →
        ({ next with revision := revision } : State).Good o.policy) : o.Admits work := by
  have haccepted : ∀ s raw r, o.proposal work = some (s, raw, r) →
      requireOriginalFundingSpendingStateTransition o.current (.str raw) o.policy.encode
        = .ok s := by
    intro s raw r h
    obtain ⟨-, next, hnext, -, rfl, -, hdecode⟩ := proposal_some h
    obtain ⟨hday, hfollows, -⟩ := hwork next r hnext
    obtain ⟨input, b, hp, hb⟩ := ho.accepted hdecode rfl hday hfollows
    obtain ⟨-, q, _, hq, -, hdecode', -⟩ := requireTransition_ok hb
    obtain rfl : o.policy = q := Except.ok.inj (hp.symm.trans hq)
    rw [← requireTransition_encode hp, hb]
    exact hdecode'.symm.trans hdecode
  refine ⟨haccepted, fun s raw r h lastRevision stored t ht hlast => ?_,
    fun next r husable hnext hrevision => ?_⟩
  · obtain ⟨-, _, -, -, -, hraw, hdecode⟩ := proposal_some h
    obtain ⟨hsize, -, hgood⟩ := decode_str.mp hdecode
    have hpositive : 1 ≤ raw.utf8ByteSize := by
      rw [hraw, Value.size_stringify]
      exact Value.one_le_textSize _
    exact native_accepts (haccepted s raw r h) ⟨hpositive, hsize⟩ hgood.revision.2 ht hlast
  · obtain ⟨-, -, hgood⟩ := hwork next r hnext
    exact ⟨_, proposal_of husable hnext hrevision (hgood _ (by omega) (by omega))⟩

end

/-! ### The calls of an owner -/

variable {o : Owner}

/-- What `reserve` gives to `change`, with its checks. -/
theorem reserveWork_given {p : Policy} {input nowDay : Value} {single : Bool}
    {s t : State} {row : Row} (h : reserveWork p input nowDay single s = .ok (some t, row)) :
    row.Allowed p ∧ (∀ r ∈ s.reservations,
      ¬ (r.paymentId = row.paymentId ∨ r.originalDigest = row.originalDigest))
      ∧ s.reservations.length < p.maxRecords ∧ (totals t.reservations t.lastDay).total
      ≤ p.maxTotal.value
      ∧ (totals t.reservations t.lastDay).daily ≤ p.maxDaily.value := by
  unfold reserveWork at h
  simp only [bind_ok, mapError_ok, rejectIf_ok, reservation_ok, Except.ok.injEq, Prod.mk.injEq,
    Option.some.injEq, not_lt, not_le] at h
  obtain ⟨d, -, selected, ⟨-, hallowed, -⟩, _, -, _, hfresh, _, hsize, _, htotal, _, hdaily,
    rfl, rfl⟩ := h
  exact ⟨hallowed, fun r hr he => hfresh ⟨r, hr, he⟩, hsize, htotal, hdaily⟩

theorem reserve_admits (ho : o.Valid) (input nowDay : Value) (single : Bool) :
    o.Admits (reserveWork o.policy input nowDay single) := by
  refine ho.admits fun next row h => ?_
  obtain ⟨hday, hadded, hrows, -⟩ := reserveWork_ok h
  obtain ⟨hallowed, hfresh, hsize, htotal, hdaily⟩ := reserveWork_given h
  refine ⟨hday, .inl ⟨_, hadded, hrows⟩, fun revision hlow hhigh => ?_⟩
  have hnew {α : Type} {f : Stored → α} {a : α} (hf : ∀ r ∈ o.state.reservations, f r ≠ a) :
      a ∉ o.state.reservations.map f := by
    intro hmem
    obtain ⟨r, hr, he⟩ := List.mem_map.mp hmem
    exact hf r hr he
  exact (decode_kept ho).reserved (t := { next with revision := revision }) hday hadded
    hallowed hrows
    (hnew fun r hr he => hfresh r hr (.inl he)) (hnew fun r hr he => hfresh r hr (.inr he))
    hsize htotal hdaily
    ⟨hlow, hhigh⟩

theorem observe_admits (ho : o.Valid) (paymentId : Text) (originalDigest : Hash) (status : Observed)
    (nowDay : Value) :
    o.Admits (observeWork paymentId originalDigest status nowDay) := by
  refine ho.admits fun next u h => ?_
  obtain ⟨hday, index, old, hold, -, -, hunresolved, hrows⟩ := observeWork_ok h
  have hfollows := observe_follows hold hunresolved status hrows
  refine ⟨hday, hfollows, fun revision hlow hhigh => ?_⟩
  have hlt : index < o.state.reservations.length := (List.getElem?_eq_some_iff.mp hold).1
  have hsteps : List.Forall₂ (fun r r' => Row.Step next.lastDay r.toRow r'.toRow)
      o.state.reservations
      next.reservations := by
    rcases hfollows with ⟨r, -, hadded⟩ | ⟨hlen, hzip, -⟩
    · have hlength := congrArg List.length (hrows.symm.trans hadded)
      rw [List.length_set, List.length_append, List.length_singleton] at hlength
      omega
    · exact forall₂_of_zip hlen hzip
  exact (decode_kept ho).observed (t := { next with revision := revision }) hday hsteps
    (by omega) ⟨hlow, hhigh⟩

/-- No proposal of any owner is refused, in any run of the owners. -/
theorem proposals_accepted (events : List Event) : ∀ o ∈ (System.run events).owners,
    (∀ input nowDay single, o.Admits (reserveWork o.policy input nowDay single))
      ∧ ∀ paymentId originalDigest status nowDay,
      o.Admits (observeWork paymentId originalDigest status nowDay) := by
  intro o ho
  have hvalid := System.run_valid events o ho
  exact ⟨fun input nowDay single => reserve_admits hvalid input nowDay single,
    fun paymentId originalDigest status nowDay =>
    observe_admits hvalid paymentId originalDigest status nowDay⟩

/-! ### The first proposal of an owner -/

namespace Sample

def owner : Owner := ⟨policy, .null, .initial, false, false⟩

theorem create_owner : createOriginalFundingSpendingReservations policy.encode .null
    = .ok owner := by
  unfold createOriginalFundingSpendingReservations
  simp only [bind_ok]
  exact ⟨policy, capturePolicy_encode _, rfl⟩

theorem owner_mem : owner ∈ (System.run [.create policy.encode .null]).owners := by
  unfold System.run
  rw [List.foldl_cons, List.foldl_nil, System.step, create_owner]
  exact List.mem_singleton_self _

/-- What a caller gives to reserve the row. -/
def input : Value := written (Order.given RESERVATION) row.toRow.field

theorem reserveWork_input : reserveWork policy input (.num 3) true .initial
    = .ok (some { State.initial with lastDay := ⟨3, by decide⟩, reservations := [row] },
      row.toRow) := by
  have hrow : reservation input policy ⟨3, by decide⟩ = .ok row.toRow :=
    reservation_ok.mpr ⟨⟨_, rfl⟩, ⟨rfl, rfl, List.mem_singleton_self _, le_rfl⟩, rfl, rfl⟩
  have hday : selectedDay .initial (.num 3) = .ok ⟨3, by decide⟩ :=
    selectedDay_ok.mpr ⟨rfl, Nat.zero_le _⟩
  unfold reserveWork
  simp only [bind_ok, mapError_ok, rejectIf_ok]
  exact ⟨_, hday, _, hrow,
    (), by simp [State.initial], (), by simp [State.initial], (), by decide, (), by decide, (), by decide, rfl⟩

end Sample

theorem proposals_accepted_sample : ∃ s raw r,
    Sample.owner.proposal (reserveWork Sample.policy Sample.input (.num 3) true) = some (s, raw, r)
      ∧ requireOriginalFundingSpendingStateTransition .null (.str raw) Sample.policy.encode
      = .ok s := by
  have hadmits := (proposals_accepted [.create Sample.policy.encode .null] Sample.owner
    Sample.owner_mem).1
    Sample.input (.num 3) true
  obtain ⟨raw, hraw⟩ := hadmits.proposed _ _ rfl Sample.reserveWork_input (by decide)
  exact ⟨_, raw, _, hraw, hadmits.accepted _ _ _ hraw⟩

end Spending
end ZenonX402
