/-
# The limits on every day

From nothing stored, a run of accepted transitions only reaches states that keep
the limits of the policy on every day of the history, keeps each row in its
place, and moves no status back (`spending_limits`). The owners of an account
make such a run whatever the backend does.

Key definitions: `Steps`, `State.Within`, `Row.Later`, `State.Later`.
Key theorems: `State.Good.within`, `steps_decode`, `run_steps`, `spending_limits`.
-/
import ZenonX402.Lib.Shape
import ZenonX402.Spending.Owner

namespace ZenonX402
namespace Spending

open Js

/-- Transitions that are accepted under the policy, one after the other. -/
abbrev Steps (p : Policy) : Value → Value → Prop := Relation.ReflTransGen (Accepted p)

/-- The limits of the policy: on every day, in total, and for each payment. -/
structure State.Within (p : Policy) (s : State) : Prop where
  daily : ∀ d, exposure s.reservations d ≤ p.maxDaily.value
  total : total s.reservations ≤ p.maxTotal.value
  payments : ∀ r ∈ s.reservations, r.amount.value ≤ p.maxPayment.value ∧ r.recipient ∈ p.recipients
  ids : (s.reservations.map fun r => r.paymentId).Nodup
  digests : (s.reservations.map fun r => r.originalDigest).Nodup

theorem State.Good.within {p : Policy} {s : State} (h : s.Good p) : s.Within p :=
  ⟨h.daily, h.total, fun r hr => ⟨(h.rows r hr).allowed.amount, (h.rows r hr).allowed.recipient⟩,
    h.ids, h.digests⟩

theorem State.initial_within (p : Policy) : State.initial.Within p :=
  ⟨fun _ => Nat.zero_le _, Nat.zero_le _, fun _ hr => absurd hr List.not_mem_nil, List.nodup_nil,
    List.nodup_nil⟩

theorem exposure_le_total (rows : List Stored) (d : Nat) : exposure rows d ≤ total rows :=
  List.Sublist.sum_le_sum (List.filter_sublist.map _) fun _ _ => Nat.zero_le _

theorem decode_within {p : Policy} {v : Value} {s : State} (h : decode p v = .ok s) :
    s.Within p := by
  cases v with
  | null =>
    obtain rfl : State.initial = s := Except.ok.inj h
    exact State.initial_within p
  | str raw => exact (decode_str.mp h).2.2.within
  | _ => simp [decode] at h

/-! ### Later states -/

/-- The row some days later: the same, or one that was unresolved and has moved on. -/
def Row.Later (first last : Day) (r r' : Row) : Prop :=
  r' = r ∨ r.Unresolved ∧ ∃ status, r' = { r with status := status }
    ∧ (status = .UNKNOWN ∨ ∃ d, status = .SPENT d ∧ first ≤ d ∧ d ≤ last)

/-- Every row is where it was, and has at most moved on. -/
structure State.Later (s t : State) : Prop where
  lastDay : s.lastDay ≤ t.lastDay
  rows : ∀ (i : Nat) (r : Stored), s.reservations[i]? = some r →
    ∃ r' : Stored, t.reservations[i]? = some r' ∧ Row.Later s.lastDay t.lastDay r.toRow r'.toRow

theorem Status.Moves.later {first last : Day} (hle : first ≤ last) {s s' : Status}
    (h : s.Moves last s') :
    s.spentDay = none ∧ (s' = .UNKNOWN ∨ ∃ d, s' = .SPENT d ∧ first ≤ d ∧ d ≤ last) := by
  cases h with
  | observed => exact ⟨rfl, .inl rfl⟩
  | spent => exact ⟨rfl, .inr ⟨last, rfl, hle, le_rfl⟩⟩
  | settled => exact ⟨rfl, .inr ⟨last, rfl, hle, le_rfl⟩⟩

theorem Row.Step.later {first last : Day} (hle : first ≤ last) {r r' : Row}
    (h : Row.Step last r r') :
    Row.Later first last r r' := by
  rcases h with rfl | ⟨status, hmoves, rfl⟩
  · exact .inl rfl
  · obtain ⟨hunresolved, hstatus⟩ := hmoves.later hle
    exact .inr ⟨hunresolved, status, rfl, hstatus⟩

theorem Row.Later.trans {d₁ d₂ d₃ : Day} (h₁₂ : d₁ ≤ d₂) (h₂₃ : d₂ ≤ d₃) {a b c : Row}
    (hab : Row.Later d₁ d₂ a b) (hbc : Row.Later d₂ d₃ b c) : Row.Later d₁ d₃ a c := by
  rcases hbc with rfl | ⟨hb, status, rfl, hstatus⟩
  · rcases hab with rfl | ⟨ha, status, rfl, hstatus⟩
    · exact .inl rfl
    · refine .inr ⟨ha, status, rfl, hstatus.imp id ?_⟩
      rintro ⟨d, hd, hlow, hhigh⟩
      exact ⟨d, hd, hlow, hhigh.trans h₂₃⟩
  · have hwide : status = .UNKNOWN ∨ ∃ d, status = .SPENT d ∧ d₁ ≤ d ∧ d ≤ d₃ := by
      refine hstatus.imp id ?_
      rintro ⟨d, hd, hlow, hhigh⟩
      exact ⟨d, hd, h₁₂.trans hlow, hhigh⟩
    rcases hab with rfl | ⟨ha, status', rfl, -⟩
    · exact .inr ⟨hb, status, rfl, hwide⟩
    · exact .inr ⟨ha, status, rfl, hwide⟩

theorem State.Later.refl (s : State) : s.Later s := ⟨le_rfl, fun _ r hr => ⟨r, hr, .inl rfl⟩⟩

theorem State.Later.trans {s t u : State} (hst : s.Later t) (htu : t.Later u) : s.Later u := by
  refine ⟨hst.lastDay.trans htu.lastDay, fun i r hr => ?_⟩
  obtain ⟨r', hr', hlater⟩ := hst.rows i r hr
  obtain ⟨r'', hr'', hlater'⟩ := htu.rows i r' hr'
  exact ⟨r'', hr'', hlater.trans hst.lastDay htu.lastDay hlater'⟩

theorem State.Step.later {s t : State} (h : s.Step t) : s.Later t := by
  refine ⟨h.lastDay, fun i r hr => ?_⟩
  obtain ⟨hlt, hget⟩ := List.getElem?_eq_some_iff.mp hr
  rcases h.rows with ⟨new, -, hrows⟩ | hrows
  · refine ⟨r, ?_, .inl rfl⟩
    rw [hrows, List.getElem?_append_left hlt, hr]
  · have hlt' : i < t.reservations.length := hrows.length_eq ▸ hlt
    refine ⟨t.reservations[i], List.getElem?_eq_getElem hlt', ?_⟩
    have hstep := List.Forall₂.get hrows hlt hlt'
    rw [List.get_eq_getElem, List.get_eq_getElem, hget] at hstep
    exact hstep.later h.lastDay

/-! ### Runs -/

/-- A text is of one policy and one state. -/
theorem decode_unique {p q : Policy} {v : Value} {s t : State} (hv : v ≠ .null)
    (hs : decode p v = .ok s) (ht : decode q v = .ok t) : p = q ∧ s = t := by
  cases v with
  | null => exact absurd rfl hv
  | str raw =>
    obtain ⟨_, hraw, hgood⟩ := decode_str.mp hs
    obtain ⟨_, hraw', hgood'⟩ := decode_str.mp ht
    have hrevision := hgood.revision
    have hrevision' := hgood'.revision
    have htext : stringify (s.encode p) = stringify (t.encode q) := hraw.symm.trans hraw'
    exact State.encode_inj (stringify_inj (s.json p (by omega)) (t.json q (by omega)) htext)
  | _ => simp [decode] at hs

theorem Accepted.step {p : Policy} {v w : Value} (h : Accepted p v w) :
    w ≠ .null ∧ ∃ s t, decode p v = .ok s ∧ decode p w = .ok t ∧ s.Step t := by
  obtain ⟨input, b, hp, ht⟩ := h
  obtain ⟨hw, q, a, hq, ha, hb, hstep⟩ := requireTransition_ok ht
  obtain rfl : p = q := Except.ok.inj (hp.symm.trans hq)
  exact ⟨hw, a, b, ha, hb, hstep⟩

theorem steps_decode {p : Policy} {v w : Value} {s : State} (hs : decode p v = .ok s)
    (h : Steps p v w) :
    ∃ t, decode p w = .ok t ∧ s.Later t := by
  induction h with
  | refl => exact ⟨s, hs, .refl s⟩
  | tail _ hstep ih =>
    obtain ⟨t, ht, hlater⟩ := ih
    obtain ⟨-, t', u, ht', hu, hnext⟩ := hstep.step
    obtain rfl : t = t' := Except.ok.inj (ht.symm.trans ht')
    exact ⟨u, hu, hlater.trans hnext.later⟩

/-- The state that is stored after some events of the owners. -/
theorem run_steps (events : List Event) (account : Text) :
    (System.run events).stored account = .null ∨ ∃ p,
    Steps p .null ((System.run events).stored account) := by
  induction events using List.reverseRecOn with
  | nil => exact .inl rfl
  | append_singleton events event ih =>
    rw [System.run_concat]
    rcases (System.step_stored (System.run_valid events) event account).2 with heq | ⟨p, hp⟩
    · rw [heq]
      exact ih
    · refine .inr ⟨p, ?_⟩
      rcases ih with hnull | ⟨q, hq⟩
      · exact .single (hnull ▸ hp)
      · by_cases hnull : (System.run events).stored account = .null
        · exact .single (hnull ▸ hp)
        · obtain ⟨s, hs, -⟩ := @steps_decode q .null _ .initial rfl hq
          obtain ⟨-, t, _, ht, -⟩ := hp.step
          obtain ⟨rfl, -⟩ := decode_unique hnull hs ht
          exact hq.tail hp

theorem spending_limits :
    (∀ p v, Steps p .null v → ∃ s, decode p v = .ok s ∧ s.Within p
      ∧ (∀ w, Accepted p v w → ∃ t, decode p w = .ok t ∧ s.Step t)
      ∧ ∀ w, Steps p v w → ∃ t, decode p w = .ok t ∧ s.Later t)
    ∧ ∀ (events : List Event) (event : Event) (account : Text),
      (System.run (events ++ [event])).stored account = (System.run events).stored account
        ∨ ∃ p, Steps p .null ((System.run events).stored account)
          ∧ Accepted p ((System.run events).stored account)
          ((System.run (events ++ [event])).stored account) := by
  constructor
  · intro p v hv
    obtain ⟨s, hs, -⟩ := @steps_decode p .null v .initial rfl hv
    refine ⟨s, hs, decode_within hs, fun w hw => ?_, fun w hw => steps_decode hs hw⟩
    obtain ⟨-, s', t, hs', ht, hstep⟩ := hw.step
    obtain rfl : s = s' := Except.ok.inj (hs.symm.trans hs')
    exact ⟨t, ht, hstep⟩
  · intro events event account
    rw [System.run_concat]
    rcases (System.step_stored (System.run_valid events) event account).2 with heq | ⟨p, hp⟩
    · exact .inl heq
    · refine .inr ⟨p, ?_, hp⟩
      by_cases hnull : (System.run events).stored account = .null
      · rw [hnull]
      · rcases run_steps events account with hnone | ⟨q, hq⟩
        · exact absurd hnone hnull
        · obtain ⟨s, hs, -⟩ := @steps_decode q .null _ .initial rfl hq
          obtain ⟨-, t, _, ht, -⟩ := hp.step
          obtain ⟨rfl, -⟩ := decode_unique hnull hs ht
          exact hq

/-! ### Payments of three days -/

namespace Sample

def policy : Policy where
  policyId := evaluated "policy-1"
  accountId := evaluated "account-1"
  network := evaluated "zenon:1"
  asset := evaluated "znn"
  recipients := [evaluated "z1qrecipient"]
  maxPayment := evaluated "5"
  maxTotal := evaluated "20"
  maxDaily := evaluated "10"
  maxRecords := 4
  recipients_size := by decide
  recipients_nodup := by decide
  payment_le := by decide
  records := by decide

def row : Stored where
  paymentId := evaluated "payment-1"
  originalDigest := ⟨"sha256:" ++ String.ofList (List.replicate 64 'a'), by exact Eq.refl true⟩
  network := policy.network
  asset := policy.asset
  recipient := evaluated "z1qrecipient"
  amount := policy.maxPayment
  reservedDay := evaluated 3
  status := .RESERVED
  order := Order.given ROW

def state : State := ⟨Order.given POLICY, 1, evaluated 3, [row]⟩

def raw : String := stringify (state.encode policy)

theorem raw_size : raw.utf8ByteSize ≤ 1048576 := by
  have hplain : (state.encode policy).Plain := Value.plain_of_isPlain _ (by decide)
  have hsize : Value.textSize (state.encode policy) ≤ 1048576 :=
    Value.textSize_le_tally hplain (by decide)
  rw [raw, Value.size_stringify]
  exact hsize

theorem state_good : state.Good policy where
  revision := by decide
  size := by decide
  rows r hr := by
    obtain rfl := List.mem_singleton.mp hr
    exact ⟨⟨rfl, rfl, List.mem_singleton_self _, le_rfl⟩, le_rfl, fun e he => by cases he⟩
  ids := List.nodup_singleton _
  digests := List.nodup_singleton _
  total := by decide
  daily d := (exposure_le_total _ d).trans (by decide)

theorem accepted : Accepted policy .null (.str raw) := by
  refine ⟨policy.encode, state, capturePolicy_encode _, ?_⟩
  refine requireTransition_of (capturePolicy_encode _) rfl
    (decode_str.mpr ⟨raw_size, rfl, state_good⟩) (by simp)
    rfl (Nat.zero_le _) (fun _ => ⟨rfl, row, ⟨rfl, rfl⟩, rfl⟩) fun h => absurd rfl h

/-- A row of another payment with the same amount. -/
def nextRow (paymentId : Text) (originalDigest : Hash) (reservedDay : Day) : Stored :=
  { row with paymentId := paymentId, originalDigest := originalDigest, reservedDay := reservedDay }

def second : Stored :=
  nextRow (evaluated "payment-2")
  ⟨"sha256:" ++ String.ofList (List.replicate 64 'b'), by exact Eq.refl true⟩ (evaluated 4)

def third : Stored :=
  nextRow (evaluated "payment-3")
  ⟨"sha256:" ++ String.ofList (List.replicate 64 'c'), by exact Eq.refl true⟩ (evaluated 6)

/-- The first row when its payment was settled. -/
def spent : Stored := { row with status := .SPENT (evaluated 5) }

/-- A second payment on the next day exhausts the day. -/
def both : State := ⟨Order.given POLICY, 2, evaluated 4, [row, second]⟩

/-- The first payment is settled on the day after. -/
def settled : State := ⟨Order.given POLICY, 3, evaluated 5, [spent, second]⟩

/-- A third payment, of more than the first two leave of a day, one day later. -/
def reused : State := ⟨Order.given POLICY, 4, evaluated 6, [spent, second, third]⟩

def text (s : State) : String := stringify (s.encode policy)

theorem text_size {s : State} (hplain : (s.encode policy).isPlain = true)
    (htally : Value.textBytes (Value.tally (fun _ => false) (s.encode policy).unsigned) ≤ 1048576) :
    (text s).utf8ByteSize ≤ 1048576 := by
  rw [text, Value.size_stringify]
  exact Value.textSize_le_tally (Value.plain_of_isPlain _ hplain) htally

theorem allowed (paymentId : Text) (originalDigest : Hash) (reservedDay : Day) :
    (nextRow paymentId originalDigest reservedDay).Allowed policy :=
  ⟨rfl, rfl, List.mem_singleton_self _, le_rfl⟩

theorem both_good : both.Good policy where
  revision := by decide
  size := by decide
  rows := by
    simp only [both, List.forall_mem_cons]
    exact ⟨⟨⟨rfl, rfl, List.mem_singleton_self _, le_rfl⟩, by decide, fun e he => by cases he⟩,
      ⟨allowed _ _ _, le_rfl, fun e he => by cases he⟩, by simp⟩
  ids := by decide
  digests := by decide
  total := by decide
  daily d := (exposure_le_total _ d).trans (by decide)

theorem settled_good : settled.Good policy where
  revision := by decide
  size := by decide
  rows := by
    simp only [settled, List.forall_mem_cons]
    exact ⟨⟨⟨rfl, rfl, List.mem_singleton_self _, le_rfl⟩, by decide, by decide⟩,
      ⟨allowed _ _ _, by decide, fun e he => by cases he⟩, by simp⟩
  ids := by decide
  digests := by decide
  total := by decide
  daily d := (exposure_le_total _ d).trans (by decide)

theorem reused_good : reused.Good policy where
  revision := by decide
  size := by decide
  rows := by
    simp only [reused, List.forall_mem_cons]
    exact ⟨⟨⟨rfl, rfl, List.mem_singleton_self _, le_rfl⟩, by decide, by decide⟩,
      ⟨allowed _ _ _, by decide, fun e he => by cases he⟩,
      ⟨allowed _ _ _, by decide, fun e he => by cases he⟩, by simp⟩
  ids := by decide
  digests := by decide
  total := by decide
  daily := (sweep_iff_exposure (by decide)).mp (by decide)

/-- The text of a state that follows one is accepted in place of that one's. -/
theorem accepted_next {a b : State} (ha : decode policy (.str (text a)) = .ok a)
    (hb : decode policy (.str (text b)) = .ok b) (hrevision : b.revision = a.revision + 1)
    (hday : a.lastDay ≤ b.lastDay) (hfollows : a.Follows b) :
    Accepted policy (.str (text a)) (.str (text b)) := by
  refine ⟨policy.encode, b, capturePolicy_encode _, ?_⟩
  exact requireTransition_of (capturePolicy_encode _) ha hb (by simp) hrevision hday
    (fun h => by cases h) fun _ => hfollows

theorem decode_state : decode policy (.str (text state)) = .ok state :=
  decode_str.mpr ⟨text_size (by decide) (by decide), rfl, state_good⟩

theorem decode_both : decode policy (.str (text both)) = .ok both :=
  decode_str.mpr ⟨text_size (by decide) (by decide), rfl, both_good⟩

theorem decode_settled : decode policy (.str (text settled)) = .ok settled :=
  decode_str.mpr ⟨text_size (by decide) (by decide), rfl, settled_good⟩

theorem decode_reused : decode policy (.str (text reused)) = .ok reused :=
  decode_str.mpr ⟨text_size (by decide) (by decide), rfl, reused_good⟩

theorem settles : both.Follows settled := by
  refine .inr ⟨rfl, ?_, by decide⟩
  simp only [both, settled, List.zip_cons_cons, List.zip_nil_right, List.forall_mem_cons]
  exact ⟨.inr ⟨rfl, rfl, by decide, by decide⟩, .inl trivial, by simp⟩

theorem steps_both : Steps policy .null (.str (text both)) :=
  (Relation.ReflTransGen.single accepted).tail
    (accepted_next decode_state decode_both rfl (by decide) (.inl ⟨second, ⟨rfl, rfl⟩, rfl⟩))

theorem steps_reused : Steps policy (.str (text both)) (.str (text reused)) :=
  (Relation.ReflTransGen.single
    (accepted_next decode_both decode_settled rfl (by decide) settles)).tail
    (accepted_next decode_settled decode_reused rfl (by decide) (.inl ⟨third, ⟨rfl, rfl⟩, rfl⟩))

end Sample

/-- Three payments of five are within a limit of ten for a day, when the first is settled before the
third is reserved. -/
theorem spending_limits_sample :
    Sample.reused.Within Sample.policy ∧ Sample.both.Later Sample.reused
    ∧ total Sample.reused.reservations = 15
    ∧ [3, 4, 5, 6, 7].map (exposure Sample.reused.reservations) = [5, 10, 10, 10, 10] := by
  obtain ⟨s, hs, -, -, hlater⟩ := spending_limits.1 Sample.policy _ Sample.steps_both
  obtain rfl : Sample.both = s := Except.ok.inj (Sample.decode_both.symm.trans hs)
  obtain ⟨t, ht, hgrown⟩ := hlater _ Sample.steps_reused
  obtain rfl : Sample.reused = t := Except.ok.inj (Sample.decode_reused.symm.trans ht)
  obtain ⟨t, ht, hwithin, -⟩ :=
    spending_limits.1 Sample.policy _ (Sample.steps_both.trans Sample.steps_reused)
  obtain rfl : Sample.reused = t := Except.ok.inj (Sample.decode_reused.symm.trans ht)
  exact ⟨hwithin, hgrown, by decide, by decide⟩

end Spending
end ZenonX402
