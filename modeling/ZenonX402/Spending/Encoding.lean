/-
# The text of a spending account's state

An owner writes the keys of the policy and of every row in one order. From
nothing stored, whatever the owners and the backend do, every text that is stored
is the one text of its contents (`System.run_text`). The inspection of a text
compares it with what its own parsed value writes, in which the policy and the
rows keep the order of their keys: what it accepts is the owner's text exactly
when these are in the owner's order, and two accepted texts of one content are
equal exactly when they agree on the order (`accepted_text`).

Key definitions: `Contents`, `Contents.text`, `orders`, `InOrder`.
Key theorems: `State.InOrder.eq`, `orders_encode`, `System.run_text`, `accepted_text`.
-/
import ZenonX402.Spending.Limits

namespace ZenonX402
namespace Spending

open Js
open Value (Json)

/-! ### Contents -/

/-- What a state says, in whatever order its keys are. -/
structure Contents where
  revision : Nat
  lastDay : Day
  rows : List Row
  deriving DecidableEq

def State.contents (s : State) : Contents :=
  ⟨s.revision, s.lastDay, s.reservations.map Stored.toRow⟩

/-- The state in which an owner has it. -/
def Contents.state (c : Contents) : State :=
  ⟨Order.given POLICY, c.revision, c.lastDay,
    c.rows.map fun r => { r with order := Order.given ROW }⟩

/-- The text that an owner writes. -/
def Contents.text (p : Policy) (c : Contents) : String := stringify (c.state.encode p)

/-- The keys of the policy and of the rows are in the owner's order. -/
structure State.InOrder (s : State) : Prop where
  policy : s.policyOrder = Order.given POLICY
  rows : ∀ r ∈ s.reservations, r.order = Order.given ROW

theorem Stored.eq_of {r r' : Stored} (hrow : r.toRow = r'.toRow) (horder : r.order = r'.order) :
    r = r' := by
  obtain ⟨row, order⟩ := r
  obtain ⟨row', order'⟩ := r'
  exact congr (congrArg Stored.mk hrow) horder

theorem Contents.state_inOrder (c : Contents) : c.state.InOrder := by
  refine ⟨rfl, fun r hr => ?_⟩
  obtain ⟨row, -, rfl⟩ := List.mem_map.mp hr
  rfl

/-- A state in order is the one that an owner has for its contents. -/
theorem State.InOrder.eq {s : State} (h : s.InOrder) : s.contents.state = s := by
  have hrows : (s.reservations.map Stored.toRow).map
      (fun r => ({ r with order := Order.given ROW } : Stored))
      = s.reservations := by
    rw [List.map_map]
    refine (List.map_congr_left fun r hr => ?_).trans (List.map_id _)
    exact Stored.eq_of rfl (h.rows r hr).symm
  unfold State.contents Contents.state
  rw [hrows, ← h.policy]

theorem State.inOrder_iff {s : State} : s.InOrder ↔ s.contents.state = s :=
  ⟨State.InOrder.eq, fun h => h ▸ s.contents.state_inOrder⟩

/-! ### The order of the keys in a text -/

/-- The keys of an object, as they stand. -/
def keys : Value → List String
  | .obj fs => fs.map Prod.fst
  | _ => []

/-- The keys of the policy of a text and of each of its rows, as they stand. -/
def orders (raw : String) : Option (List String × List (List String)) := do
  let (_, s) ← fields STATE (← parse raw)
  match s "reservations" with
  | .arr rows => some (keys (s "policy"), rows.map keys)
  | _ => none

/-- The policy and the rows of the text have their keys in the owner's order. -/
def InOrder (raw : String) : Prop := ∃ rows, orders raw = some (POLICY, rows)
    ∧ ∀ row ∈ rows, row = ROW

theorem keys_written {names : List String} (order : Order names) (field : String → Value) :
    keys (written order field) = order.1 := Js.keys_written order.1 field

theorem orders_encode (p : Policy) {s : State} (h : s.revision ≤ 9007199254740991) :
    orders (stringify (s.encode p))
      = some (s.policyOrder.1, s.reservations.map fun r => r.order.1) := by
  obtain ⟨get, hget, hfield⟩ := fields_written (Order.given STATE) (s.field p)
  simp only [STATE, List.forall_mem_cons, State.field] at hfield
  obtain ⟨-, hpolicy, -, -, hrows, -⟩ := hfield
  have hfields : fields STATE (s.encode p) = some (Order.given STATE, get) := hget
  unfold orders
  simp only [parse_stringify (s.json p h), hfields, Option.bind_eq_bind, Option.bind_some,
    hpolicy, hrows, keys_written, List.map_map]
  have hkeys : s.reservations.map (keys ∘ Stored.encode) = s.reservations.map fun r => r.order.1 :=
    List.map_congr_left fun r _ => keys_written r.order r.toRow.field
  rw [hkeys]

theorem inOrder_encode (p : Policy) {s : State} (h : s.revision ≤ 9007199254740991) :
    InOrder (stringify (s.encode p)) ↔ s.InOrder := by
  unfold InOrder
  rw [orders_encode p h]
  constructor
  · rintro ⟨rows, heq, hrows⟩
    obtain ⟨hpolicy, rfl⟩ := Prod.mk.inj (Option.some.inj heq)
    refine ⟨Subtype.ext hpolicy, fun r hr => Subtype.ext ?_⟩
    exact hrows _ (List.mem_map_of_mem hr)
  · intro hs
    refine ⟨s.reservations.map fun r => r.order.1, ?_, fun row hrow => ?_⟩
    · rw [hs.policy]
      rfl
    · obtain ⟨r, hr, rfl⟩ := List.mem_map.mp hrow
      rw [hs.rows r hr]
      rfl

/-- A state is its contents and the order of its keys. -/
theorem State.eq_of {s t : State} (hcontents : s.contents = t.contents)
    (hpolicy : s.policyOrder.1 = t.policyOrder.1)
    (hrows : s.reservations.map (fun r => r.order.1) = t.reservations.map fun r => r.order.1) :
    s = t := by
  obtain ⟨o, n, d, rows⟩ := s
  obtain ⟨o', n', d', rows'⟩ := t
  obtain ⟨rfl, rfl, htoRow⟩ := Contents.mk.inj hcontents
  obtain rfl := Subtype.ext hpolicy
  refine congrArg _ ?_
  have hboth : rows.map (fun r => (r.toRow, r.order.1)) = rows'.map fun r =>
      (r.toRow, r.order.1) := by
    rw [← List.zip_map', ← List.zip_map']
    exact congrArg₂ List.zip htoRow hrows
  refine List.map_injective_iff.mpr (fun r r' hr => ?_) hboth
  exact Stored.eq_of (congrArg Prod.fst hr) (Subtype.ext (congrArg Prod.snd hr))

/-! ### What owners write -/

/-- What a call of an owner stores, if it stores anything: the text of a state
that the work on the owner's state gives, where the owner's own text was stored. -/
theorem change_stored {α : Type} {o : Owner} (ho : o.Valid)
    {work : State → Except Stop (Option State × α)} (swap : Swap) (stored : Value) :
    (o.change work swap stored).stored = stored ∨
      ∃ next r t, work o.state = .ok (some next, r)
        ∧ t = { next with revision := o.state.revision + 1 }
        ∧ stored = o.current ∧ (o.change work swap stored).stored
        = .str (stringify (t.encode o.policy))
        ∧ decode o.policy (.str (stringify (t.encode o.policy))) = .ok t := by
  have hcurrent : stored.strictEq o.current = true → stored = o.current := by
    unfold Owner.Valid at ho
    intro heq
    cases hc : o.current with
    | null => exact Value.strictEq_null.mp (hc ▸ heq)
    | str t => exact Value.strictEq_str.mp (hc ▸ heq)
    | _ => simp [hc, decode] at ho
  unfold Owner.change
  split
  · exact .inl rfl
  · split
    · exact .inl rfl
    · exact .inl rfl
    · exact .inl rfl
    · rename_i next result hnext
      split
      · exact .inl rfl
      · rename_i hrevision
        dsimp only
        split
        · exact .inl rfl
        · rename_i b hb
          have hle : o.state.revision + 1 ≤ 9007199254740990 := by omega
          have hown := @decode_own o.policy { next with revision := o.state.revision + 1 } b hle hb
          rw [hown] at hb
          have hreply : ∀ proposed raw (r : α), (o.propose proposed raw r swap stored).stored =
              o.swapped raw swap stored := by
            intro proposed raw r
            unfold Owner.propose
            split
            · rfl
            · dsimp only
              split
              · rfl
              · split <;> rfl
          rw [hreply]
          unfold Owner.swapped
          split
          · rename_i hswap
            rw [Bool.and_eq_true] at hswap
            exact .inr ⟨next, result, _, hnext, rfl, hcurrent hswap.2, rfl, hb⟩
          · exact .inl rfl

theorem reserveWork_inOrder {p : Policy} {input nowDay : Value} {single : Bool}
    {s t : State} {row : Row} (hs : s.InOrder)
    (h : reserveWork p input nowDay single s = .ok (some t, row)) : t.InOrder := by
  unfold reserveWork at h
  simp only [bind_ok, Except.ok.injEq, Prod.mk.injEq, Option.some.injEq] at h
  obtain ⟨d, -, selected, -, _, -, _, -, _, -, _, -, _, -, rfl, -⟩ := h
  refine ⟨hs.policy, fun r hr => ?_⟩
  rcases List.mem_append.mp hr with hold | hnew
  · exact hs.rows r hold
  · rw [List.mem_singleton.mp hnew]

theorem observeWork_inOrder {id : Text} {digest : Hash} {status : Observed} {nowDay : Value}
    {s t : State} {u : Unit} (hs : s.InOrder)
    (h : observeWork id digest status nowDay s = .ok (some t, u)) : t.InOrder := by
  obtain ⟨-, index, old, hold, -, -, -, hrows⟩ := observeWork_ok h
  have hpolicy : t.policyOrder = s.policyOrder := by
    unfold observeWork at h
    obtain ⟨d, -, h⟩ := bind_ok.mp h
    split at h
    · cases h
    · split at h
      · cases h
      · obtain ⟨_, -, h⟩ := bind_ok.mp h
        split at h
        · simp only [Except.ok.injEq, Prod.mk.injEq, Option.some.injEq] at h
          rw [← h.1]
        · simp only [bind_ok, Except.ok.injEq, Prod.mk.injEq, reduceCtorEq, false_and, and_false,
            exists_false] at h
  refine ⟨hpolicy.trans hs.policy, fun r hr => ?_⟩
  rw [hrows] at hr
  rcases List.mem_or_eq_of_mem_set hr with hmem | rfl
  · exact hs.rows r hmem
  · exact hs.rows old (List.mem_of_getElem? hold)

/-- Nothing, or the text of a state whose keys are in order. -/
def Kept (v : Value) : Prop := v = .null ∨ ∃ p s, decode p v = .ok s ∧ s.InOrder

theorem Kept.inOrder {v : Value} (hv : Kept v) {p : Policy} {s : State} (h : decode p v = .ok s) :
    s.InOrder := by
  rcases hv with rfl | ⟨q, t, ht, horder⟩
  · rw [← Except.ok.inj h]
    exact ⟨rfl, fun r hr => absurd hr List.not_mem_nil⟩
  · by_cases hnull : v = .null
    · rw [hnull] at h
      rw [← Except.ok.inj h]
      exact ⟨rfl, fun r hr => absurd hr List.not_mem_nil⟩
    · obtain ⟨-, rfl⟩ := decode_unique hnull h ht
      exact horder

/-- Work that keeps the order keeps what is stored in order. -/
theorem change_kept {α : Type} {o : Owner} (ho : o.Valid)
    {work : State → Except Stop (Option State × α)}
    (hwork : ∀ s r, o.state.InOrder → work o.state = .ok (some s, r) → s.InOrder) (swap : Swap)
    {stored : Value} (h : Kept stored) : Kept (o.change work swap stored).stored := by
  rcases change_stored ho swap stored with heq | ⟨next, r, t, hnext, rfl, hcurrent, hstored, ht⟩
  · rw [heq]
    exact h
  · have horder : o.state.InOrder := Kept.inOrder (hcurrent ▸ h) ho
    have hnew := hwork next r horder hnext
    rw [hstored]
    exact .inr ⟨_, _, ht, hnew.policy, hnew.rows⟩

namespace System

theorem call_kept {α : Type} {σ : System} (hσ : σ.Valid) (index : Nat) {f : Owner → Value → Reply α}
    (hf : ∀ o stored, o.Valid → Kept stored → Kept (f o stored).stored)
    (h : ∀ account, Kept (σ.stored account)) (account : Text) :
    Kept ((σ.call index f).stored account) := by
  unfold call
  split
  · exact h account
  · rename_i o ho
    by_cases haccount : account = o.policy.accountId
    · subst haccount
      simp only [Function.update_self]
      exact hf o _ (hσ o (List.mem_of_getElem? ho)) (h _)
    · dsimp only
      rw [Function.update_of_ne haccount]
      exact h account

theorem step_kept {σ : System} (hσ : σ.Valid) (h : ∀ account, Kept (σ.stored account))
    (event : Event) (account : Text) : Kept ((σ.step event).stored account) := by
  cases event with
  | create policyInput loaded =>
    unfold step
    dsimp only
    split <;> exact h account
  | reserve owner input nowDay single swap =>
    refine call_kept hσ owner (fun o stored ho hstored => ?_) h account
    exact change_kept ho (fun s row hs hwork => reserveWork_inOrder hs hwork) swap hstored
  | observe owner paymentId originalDigest status nowDay swap =>
    refine call_kept hσ owner (fun o stored ho hstored => ?_) h account
    unfold Owner.observe
    split
    · exact change_kept ho (fun s u hs hwork => observeWork_inOrder hs hwork) swap hstored
    all_goals exact hstored
  | close owner => exact h account

theorem run_kept (events : List Event) : ∀ account, Kept ((run events).stored account) := by
  induction events using List.reverseRecOn with
  | nil => exact fun account => .inl rfl
  | append_singleton events event ih =>
    rw [run_concat]
    exact step_kept (run_valid events) ih event

/-- From nothing stored, every text that is stored is the text of its contents. -/
theorem run_text (events : List Event) (account : Text) : (run events).stored account = .null ∨
    ∃ p s, (run events).stored account = .str (s.contents.text p)
      ∧ decode p ((run events).stored account) = .ok s := by
  rcases run_kept events account with hnull | ⟨p, s, hs, horder⟩
  · exact .inl hnull
  · cases hv : (run events).stored account with
    | null => exact .inl rfl
    | str raw =>
      rw [hv] at hs
      refine .inr ⟨p, s, ?_, hs⟩
      rw [(decode_str.mp hs).2.1, Contents.text, horder.eq]
    | _ => simp [hv, decode] at hs

end System

/-! ### What is accepted -/

theorem inspectState_str {raw : String} {input : Value} {s : State} :
    inspectOriginalFundingSpendingState (.str raw) input = .ok s ↔
    ∃ p, capturePolicy input = .ok p ∧ decode p (.str raw) = .ok s := by
  unfold inspectOriginalFundingSpendingState
  rw [bind_ok]

theorem decode_text {p : Policy} {raw : String} {s : State} (h : decode p (.str raw) = .ok s) :
    raw = stringify (s.encode p) ∧ s.revision ≤ 9007199254740991 := by
  obtain ⟨-, hraw, hgood⟩ := decode_str.mp h
  have hrevision := hgood.revision
  exact ⟨hraw, by omega⟩

theorem orders_text {p : Policy} {raw : String} {s : State} (h : decode p (.str raw) = .ok s) :
    orders raw = some (s.policyOrder.1, s.reservations.map fun r => r.order.1) := by
  obtain ⟨rfl, hrevision⟩ := decode_text h
  exact orders_encode p hrevision

theorem text_inOrder {p : Policy} {raw : String} {s : State} (h : decode p (.str raw) = .ok s) :
    raw = s.contents.text p ↔ InOrder raw := by
  obtain ⟨rfl, hrevision⟩ := decode_text h
  rw [inOrder_encode p hrevision, State.inOrder_iff, Contents.text]
  constructor
  · intro htext
    exact (State.encode_inj
      (stringify_inj (s.json p hrevision) (s.contents.state.json p hrevision) htext)).2.symm
  · intro heq
    rw [heq]

theorem orders_inj {p : Policy} {raw raw' : String} {s s' : State} (h : decode p (.str raw) = .ok s)
    (h' : decode p (.str raw') = .ok s') (hcontents : s.contents = s'.contents) :
    raw = raw' ↔ orders raw = orders raw' := by
  refine ⟨fun heq => heq ▸ rfl, fun heq => ?_⟩
  rw [orders_text h, orders_text h', Option.some.injEq, Prod.mk.injEq] at heq
  obtain rfl := State.eq_of hcontents heq.1 heq.2
  rw [(decode_text h).1, (decode_text h').1]

/-- An accepted text is the owner's text of its contents exactly when its policy
and its rows have their keys in the owner's order. Accepted texts of one content
are equal exactly when they agree on the order of these keys; so, among texts in
the owner's order, texts and rows are compared as their contents are. -/
theorem accepted_text {input : Value} {raw : String} {s : State}
    (h : inspectOriginalFundingSpendingState (.str raw) input = .ok s) :
    ∃ p, capturePolicy input = .ok p ∧ (raw = s.contents.text p ↔ InOrder raw)
      ∧ ∀ raw' s', inspectOriginalFundingSpendingState (.str raw') input = .ok s' →
        (s.contents = s'.contents → (raw = raw' ↔ orders raw = orders raw'))
          ∧ (InOrder raw → InOrder raw' → (raw = raw' ↔ s.contents = s'.contents)
            ∧ ∀ r ∈ s.reservations, ∀ r' ∈ s'.reservations,
            (same r r' = true ↔ r.toRow = r'.toRow)) := by
  obtain ⟨p, hp, hs⟩ := inspectState_str.mp h
  refine ⟨p, hp, text_inOrder hs, fun raw' s' h' => ?_⟩
  obtain ⟨q, hq, hs'⟩ := inspectState_str.mp h'
  obtain rfl : p = q := Except.ok.inj (hp.symm.trans hq)
  refine ⟨orders_inj hs hs', fun horder horder' => ⟨?_, fun r hr r' hr' => ?_⟩⟩
  · constructor
    · rintro rfl
      rw [Except.ok.inj (hs.symm.trans hs')]
    · intro hcontents
      rw [(text_inOrder hs).mpr horder, (text_inOrder hs').mpr horder', hcontents]
  · obtain ⟨hraw, hrevision⟩ := decode_text hs
    obtain ⟨hraw', hrevision'⟩ := decode_text hs'
    rw [hraw, inOrder_encode p hrevision] at horder
    rw [hraw', inOrder_encode p hrevision'] at horder'
    rw [same_iff]
    exact ⟨fun heq => congrArg _ heq, fun heq =>
      Stored.eq_of heq ((horder.rows r hr).trans (horder'.rows r' hr').symm)⟩

/-! ### A row with its first two keys exchanged -/

namespace Sample

def exchanged : Order ROW :=
  ⟨["originalDigest", "paymentId", "network", "asset", "recipient", "amount", "reservedDay",
    "status", "spentDay"], by decide⟩

def other : State := { state with reservations := [{ row with order := exchanged }] }

def otherRaw : String := stringify (other.encode policy)

theorem otherRaw_size : otherRaw.utf8ByteSize ≤ 1048576 := by
  have hplain : (other.encode policy).Plain := Value.plain_of_isPlain _ (by decide)
  have hsize : Value.textSize (other.encode policy) ≤ 1048576 :=
    Value.textSize_le_tally hplain (by decide)
  rw [otherRaw, Value.size_stringify]
  exact hsize

theorem other_good : other.Good policy where
  revision := state_good.revision
  size := state_good.size
  rows r hr := by
    obtain rfl := List.mem_singleton.mp hr
    exact state_good.rows row (List.mem_singleton_self _)
  ids := state_good.ids
  digests := state_good.digests
  total := state_good.total
  daily d := (exposure_le_total _ d).trans (by decide)

theorem inspected : inspectOriginalFundingSpendingState (.str raw) policy.encode = .ok state :=
  inspectState_str.mpr ⟨policy, capturePolicy_encode _, decode_str.mpr ⟨raw_size, rfl, state_good⟩⟩

theorem other_inspected : inspectOriginalFundingSpendingState (.str otherRaw) policy.encode
    = .ok other :=
  inspectState_str.mpr ⟨policy, capturePolicy_encode _,
    decode_str.mpr ⟨otherRaw_size, rfl, other_good⟩⟩

theorem raw_ne : raw ≠ otherRaw := by
  intro h
  have heq := stringify_inj (state.json policy (by decide)) (other.json policy (by decide)) h
  have hrows := congrArg State.reservations (State.encode_inj heq).2
  revert hrows
  decide

end Sample

/-- Two texts are accepted for one content, and their rows are not the same to the transition. -/
theorem two_texts : inspectOriginalFundingSpendingState (.str Sample.raw) Sample.policy.encode
    = .ok Sample.state
    ∧ inspectOriginalFundingSpendingState (.str Sample.otherRaw) Sample.policy.encode
    = .ok Sample.other
    ∧ Sample.state.contents = Sample.other.contents ∧ Sample.raw ≠ Sample.otherRaw
    ∧ Sample.otherRaw ≠ Sample.other.contents.text Sample.policy
    ∧ ∀ r ∈ Sample.state.reservations, ∀ r' ∈ Sample.other.reservations, same r r' = false := by
  refine ⟨Sample.inspected, Sample.other_inspected, rfl, Sample.raw_ne,
    fun h => Sample.raw_ne h.symm, ?_⟩
  intro r hr r' hr'
  obtain rfl := List.mem_singleton.mp hr
  obtain rfl := List.mem_singleton.mp hr'
  rw [← Bool.not_eq_true, same_iff]
  intro h
  have horder := congrArg Stored.order h
  revert horder
  decide

theorem accepted_text_sample : Sample.raw = Sample.state.contents.text Sample.policy ↔
    InOrder Sample.raw := by
  obtain ⟨p, hp, hiff, -⟩ := accepted_text Sample.inspected
  obtain rfl : Sample.policy = p := Except.ok.inj ((capturePolicy_encode _).symm.trans hp)
  exact hiff

end Spending
end ZenonX402
