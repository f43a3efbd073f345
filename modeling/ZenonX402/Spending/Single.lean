/-
# One unresolved original for an account

Any number of owners work over one backend, each with its own copy of what is
stored. `reserveSingleOriginal` looks at the copy alone; that it is the stored
history is known only when the swap takes effect. So where every reservation is
a single one, what is stored never has two unresolved rows
(`SingleStep.unresolved`), a payment is reserved by at most one call
(`returned_once`), and that call's own swap put the row there
(`SingleStep.installed`). An owner whose proposal was not acknowledged is held and
makes no other (`unacknowledged_last`).

Key definitions: `Offer`, `System.offer`, `System.Exact`, `System.returned`, `SingleStep`.
Key theorems: `step_offer_some`, `returned_once`, `unacknowledged_last`, `single_original`.
-/
import ZenonX402.Lib.Trace
import ZenonX402.Spending.Proposals

namespace ZenonX402
namespace Spending

open Js

/-! ### Offers -/

/-- A proposal that reaches the backend, by the owner at `index`. -/
structure Offer where
  index : Nat
  owner : Owner
  swap : Swap
  proposed : State
  raw : String

namespace Offer

def account (f : Offer) : Text := f.owner.policy.accountId

/-- The owner is still open, and the answer is the text it proposed. -/
def acknowledged (f : Offer) : Bool :=
  !(f.owner.closed || f.swap.closes) && f.swap.answer.any fun v => v.strictEq (.str f.raw)

/-- The owner after the answer. -/
def settled (f : Offer) : Owner :=
  let closed := f.owner.closed || f.swap.closes
  if f.acknowledged then { f.owner with closed := closed, current := .str f.raw, state := f.proposed }
  else { f.owner with closed := closed, held := true }

/-- What the call does once the backend has its proposal. -/
theorem propose_eq {α : Type} (f : Offer) (result : α) (stored : Value) :
    ∃ x, f.owner.propose f.proposed f.raw result f.swap stored
        = ⟨x, f.settled, f.owner.swapped f.raw f.swap stored⟩
      ∧ ∀ r, x = .ok r ↔ f.acknowledged = true ∧ r = result := by
  unfold Owner.propose settled acknowledged
  cases hanswer : f.swap.answer with
  | none => exact ⟨.error (if f.owner.closed || f.swap.closes then .CLOSED
      else .COMMIT_UNKNOWN), by simp, by simp⟩
  | some v =>
    by_cases hclosed : (f.owner.closed || f.swap.closes) = true
    · exact ⟨.error .CLOSED, by simp [hclosed], by simp [hclosed]⟩
    · by_cases heq : v.strictEq (.str f.raw) = true
      · exact ⟨.ok result, by simp [hclosed, heq], by simp [hclosed, heq, eq_comm]⟩
      · refine ⟨.error (if v.strictEq .null then .CONFLICT
          else .COMMIT_UNKNOWN), by simp [hclosed, heq], ?_⟩
        simp [heq]

theorem settled_held {f : Offer} (h : f.acknowledged = false) : f.settled.held = true := by
  unfold settled
  rw [h]
  rfl

end Offer

namespace System

/-- What the call of an event hands to `compareAndSwap`. -/
def offer (σ : System) : Event → Option Offer
  | .reserve index input nowDay single swap => (σ.owners[index]?).bind fun o =>
    (o.proposal (reserveWork o.policy input nowDay single)).map fun p =>
      ⟨index, o, swap, p.1, p.2.1⟩
  | .observe index paymentId originalDigest status nowDay swap => (σ.owners[index]?).bind fun o =>
    match text paymentId, hash originalDigest, observed status with
    | .ok paymentId, .ok originalDigest, .ok status =>
      (o.proposal (observeWork paymentId originalDigest status nowDay)).map fun p =>
        ⟨index, o, swap, p.1, p.2.1⟩
    | _, _, _ => none
  | _ => none

/-- The account and the payment that the call of an event returns as `RESERVED`. -/
def returned (σ : System) : Event → Option (Text × Text)
  | .reserve index input nowDay single swap => (σ.owners[index]?).bind fun o =>
    match (o.reserve input nowDay single swap (σ.stored o.policy.accountId)).result with
    | .ok row => some (o.policy.accountId, row.paymentId)
    | .error _ => none
  | _ => none

/-- An exact backend answers with the proposal only when it has put it in place of what was
expected. Any other answer, or none, tells nothing. -/
def Exact (σ : System) (event : Event) : Prop :=
  ∀ f, σ.offer event = some f → ∀ v, f.swap.answer = some v → v.strictEq (.str f.raw) = true →
    f.swap.commits = true ∧ (σ.stored f.account).strictEq f.owner.current = true

end System

theorem change_of_held {α : Type} {o : Owner} (h : o.held = true)
    (work : State → Except Stop (Option State × α)) (swap : Swap) (stored : Value) :
    ∃ e, o.change work swap stored = ⟨.error e, o, stored⟩ := by
  unfold Owner.change Owner.usable rejectIf
  by_cases hclosed : o.closed = true
  · exact ⟨_, by rw [if_pos hclosed]; rfl⟩
  · exact ⟨.HELD, by rw [if_neg hclosed, if_pos h]; rfl⟩

theorem proposal_of_held {α : Type} {o : Owner} (h : o.held = true)
    (work : State → Except Stop (Option State × α)) : o.proposal work = none := by
  unfold Owner.proposal Owner.usable rejectIf
  by_cases hclosed : o.closed = true
  · rw [if_pos hclosed]
    rfl
  · rw [if_neg hclosed, if_pos h]
    rfl

/-! ### What a step does -/

namespace System

variable {σ : System} {event : Event} {f : Offer}

theorem call_eq {α : Type} {index : Nat} {o : Owner} {g : Owner → Value → Reply α}
    (ho : σ.owners[index]? = some o) :
    σ.call index g = ⟨Function.update σ.stored o.policy.accountId
      (g o (σ.stored o.policy.accountId)).stored,
      σ.owners.set index (g o (σ.stored o.policy.accountId)).owner⟩ := by
  unfold call
  rw [ho]

/-- A change whose proposal reaches the backend. -/
theorem change_offer {α : Type} {o : Owner} {work : State → Except Stop (Option State × α)}
    {p : State × String × α} (hp : o.proposal work = some p) (index : Nat) (swap : Swap)
    (stored : Value) :
    let f : Offer := ⟨index, o, swap, p.1, p.2.1⟩
    ∃ x, o.change work swap stored = ⟨x, f.settled, o.swapped f.raw swap stored⟩
      ∧ ∀ r, x = .ok r ↔ f.acknowledged = true ∧ r = p.2.2 := by
  intro f
  rcases @change_proposal _ o work swap stored with ⟨s, raw, r, hp', hchange⟩ | ⟨hnone, -⟩
  · rw [hp] at hp'
    obtain rfl := Option.some.inj hp'
    obtain ⟨x, hx, hok⟩ := f.propose_eq r stored
    exact ⟨x, hchange.trans hx, hok⟩
  · rw [hp] at hnone
    cases hnone

/-- A step whose call has reached the backend. -/
theorem step_offer_some (h : σ.offer event = some f) :
    σ.owners[f.index]? = some f.owner ∧ σ.step event
    = ⟨Function.update σ.stored f.account (f.owner.swapped f.raw f.swap (σ.stored f.account)),
      σ.owners.set f.index f.settled⟩ := by
  cases event with
  | create policyInput loaded => cases h
  | close owner => cases h
  | reserve index input nowDay single swap =>
    obtain ⟨o, ho, h⟩ := Option.bind_eq_some_iff.mp h
    obtain ⟨p, hp, rfl⟩ := Option.map_eq_some_iff.mp h
    obtain ⟨x, hx, -⟩ := change_offer hp index swap (σ.stored o.policy.accountId)
    exact ⟨ho, (call_eq ho).trans (by rw [Owner.reserve, hx]; rfl)⟩
  | observe index paymentId originalDigest status nowDay swap =>
    obtain ⟨o, ho, h⟩ := Option.bind_eq_some_iff.mp h
    cases hid : text paymentId with
    | error e => simp [hid] at h
    | ok id =>
      cases hdigest : hash originalDigest with
      | error e => simp [hid, hdigest] at h
      | ok digest =>
        cases hstatus : observed status with
        | error e => simp [hid, hdigest, hstatus] at h
        | ok s =>
          rw [hid, hdigest, hstatus] at h
          obtain ⟨p, hp, rfl⟩ := Option.map_eq_some_iff.mp h
          obtain ⟨x, hx, -⟩ := change_offer hp index swap (σ.stored o.policy.accountId)
          refine ⟨ho, (call_eq ho).trans ?_⟩
          rw [Owner.observe, hid, hdigest, hstatus]
          dsimp only
          rw [hx]
          rfl

/-- A step whose call has not: nothing is stored, and who is held stays held. -/
theorem step_offer_none (h : σ.offer event = none) : (σ.step event).stored = σ.stored := by
  have hcall {α : Type} {index : Nat} {g : Owner → Value → Reply α}
      (hg : ∀ o, σ.owners[index]? = some o → ∀ stored, (g o stored).stored = stored) :
      (σ.call index g).stored = σ.stored := by
    unfold call
    split
    · rfl
    · rename_i o ho
      dsimp only
      rw [hg o ho]
      exact Function.update_eq_self ..
  have hchange {α : Type} {o : Owner} {work : State → Except Stop (Option State × α)}
      (hnone : o.proposal work = none)
      (swap : Swap) (stored : Value) : (o.change work swap stored).stored = stored := by
    rcases @change_proposal _ o work swap stored with ⟨s, raw, r, hp, -⟩ | ⟨-, x, o', hx⟩
    · rw [hnone] at hp
      cases hp
    · rw [hx]
  cases event with
  | create policyInput loaded =>
    unfold step
    dsimp only
    split <;> rfl
  | close owner => rfl
  | reserve index input nowDay single swap =>
    refine hcall fun o ho stored => ?_
    rw [offer, ho, Option.bind_some, Option.map_eq_none_iff] at h
    exact hchange h swap stored
  | observe index paymentId originalDigest status nowDay swap =>
    refine hcall fun o ho stored => ?_
    rw [offer, ho, Option.bind_some] at h
    unfold Owner.observe
    split
    · rename_i hid hdigest hstatus
      rw [hid, hdigest, hstatus] at h
      exact hchange (Option.map_eq_none_iff.mp h) swap stored
    all_goals rfl

/-- A held owner stays as it is, but for being closed. -/
theorem step_held {i : Nat} {o : Owner} (ho : σ.owners[i]? = some o) (hheld : o.held = true)
    (event : Event) :
    ∃ o', (σ.step event).owners[i]? = some o' ∧ o'.held = true := by
  have hcall {α : Type} {index : Nat} {g : Owner → Value → Reply α}
      (hg : ∀ o, o.held = true → ∀ stored, (g o stored).owner = o) :
      ∃ o', (σ.call index g).owners[i]? = some o' ∧ o'.held = true := by
    unfold call
    split
    · exact ⟨o, ho, hheld⟩
    · rename_i o' ho'
      by_cases hi : index = i
      · obtain rfl : o' = o := Option.some.inj (ho'.symm.trans (hi ▸ ho))
        refine ⟨o', ?_, hheld⟩
        dsimp only
        rw [hg o' hheld, List.getElem?_set, if_pos hi, if_pos]
        exact hi ▸ (List.getElem?_eq_some_iff.mp ho).1
      · exact ⟨o, by rw [List.getElem?_set_ne hi]; exact ho, hheld⟩
  cases event with
  | create policyInput loaded =>
    unfold step
    dsimp only
    split
    · exact ⟨o, by rw [List.getElem?_append_left
        (List.getElem?_eq_some_iff.mp ho).1]; exact ho, hheld⟩
    · exact ⟨o, ho, hheld⟩
  | close owner =>
    unfold step
    by_cases hi : owner = i
    · exact ⟨o.close, by simp [ho, hi], hheld⟩
    · exact ⟨o, by simp [ho, hi], hheld⟩
  | reserve index input nowDay single swap =>
    refine hcall fun o hheld stored => ?_
    obtain ⟨e, he⟩ := change_of_held hheld (reserveWork o.policy input nowDay single) swap stored
    rw [Owner.reserve, he]
  | observe index paymentId originalDigest status nowDay swap =>
    refine hcall fun o hheld stored => ?_
    unfold Owner.observe
    split
    · rename_i id digest status _ _ _
      obtain ⟨e, he⟩ := change_of_held hheld (observeWork id digest status nowDay) swap stored
      rw [he]
    all_goals rfl

/-- A held owner makes no offer. -/
theorem offer_not_held (h : σ.offer event = some f) : f.owner.held = false := by
  rw [← Bool.not_eq_true]
  intro hheld
  cases event with
  | create policyInput loaded => cases h
  | close owner => cases h
  | reserve index input nowDay single swap =>
    obtain ⟨o, ho, h⟩ := Option.bind_eq_some_iff.mp h
    obtain ⟨p, hp, rfl⟩ := Option.map_eq_some_iff.mp h
    rw [proposal_of_held hheld] at hp
    cases hp
  | observe index paymentId originalDigest status nowDay swap =>
    obtain ⟨o, ho, h⟩ := Option.bind_eq_some_iff.mp h
    split at h
    · obtain ⟨p, hp, rfl⟩ := Option.map_eq_some_iff.mp h
      rw [proposal_of_held hheld] at hp
      cases hp
    · cases h

end System

/-! ### What is offered -/

/-- Every reservation is a single one. -/
def Event.Single : Event → Prop
  | .reserve _ _ _ single _ => single = true
  | _ => True

/-- The rows that are not `SPENT`. -/
def State.unresolved (s : State) : Nat := (s.reservations.filter fun r => r.Unresolved).length

theorem Row.Step.unresolved {last : Day} {r r' : Row} (h : Row.Step last r r')
    (hr : r'.Unresolved) :
    r.Unresolved := by
  rcases h with rfl | ⟨status, hmoves, rfl⟩
  · exact hr
  · exact (hmoves.later (le_rfl : last ≤ last)).1

theorem filter_length_le {last : Day} {rows rows' : List Stored}
    (h : List.Forall₂ (fun r r' => Row.Step last r.toRow r'.toRow) rows rows') :
    (rows'.filter fun r => r.Unresolved).length ≤ (rows.filter fun r => r.Unresolved).length := by
  induction h with
  | nil => exact le_rfl
  | @cons r r' rows rows' hstep _ ih =>
    by_cases hr' : r'.Unresolved
    · rw [List.filter_cons_of_pos (by simpa using hr'),
        List.filter_cons_of_pos (by simpa using hstep.unresolved hr')]
      exact Nat.succ_le_succ ih
    · rw [List.filter_cons_of_neg (by simpa using hr')]
      exact ih.trans ((List.sublist_cons_self _ _).filter _).length_le

theorem reserveWork_some {p : Policy} {input nowDay : Value} {single : Bool} {s : State}
    {next : Option State} {row : Row} (h : reserveWork p input nowDay single s = .ok (next, row)) :
    ∃ t, next = some t := by
  unfold reserveWork at h
  simp only [bind_ok, Except.ok.injEq, Prod.mk.injEq] at h
  obtain ⟨_, _, _, _, _, _, _, _, _, _, _, _, _, _, hnext, -⟩ := h
  exact ⟨_, hnext.symm⟩

/-- A change that returns has proposed what its work gave, if it gave anything. -/
theorem change_ok {α : Type} {o : Owner} {work : State → Except Stop (Option State × α)}
    {swap : Swap} {stored : Value} {r : α} (h : (o.change work swap stored).result = .ok r)
    (hnone : o.proposal work = none) :
    work o.state = .ok (none, r) := by
  unfold Owner.change at h
  unfold Owner.proposal at hnone
  cases husable : o.usable with
  | error e =>
    rw [husable] at h
    cases h
  | ok u =>
    rw [husable] at h hnone
    rcases hwork : work o.state with e | ⟨next, r'⟩
    · rw [hwork] at h
      cases e <;> cases h
    · rw [hwork] at h hnone
      cases next with
      | none => rw [Except.ok.inj h]
      | some next =>
        dsimp only at h hnone
        by_cases hrevision : 9007199254740990 ≤ o.state.revision
        · rw [if_pos hrevision] at h
          cases h
        · rw [if_neg hrevision] at h hnone
          cases hdecode : decode o.policy
              (.str (stringify (({ next with revision := o.state.revision + 1 } : State).encode
                o.policy))) with
          | error e =>
            rw [hdecode] at h
            cases h
          | ok b =>
            rw [hdecode] at hnone
            cases hnone

namespace System

variable {σ : System} {event : Event} {f : Offer}

/-- A single reservation follows a history without an unresolved row, an observation moves rows on.
-/
theorem offer_rows (h : σ.offer event = some f) (hsingle : event.Single) :
    ((∀ r ∈ f.owner.state.reservations, ¬ r.Unresolved)
        ∧ ∃ row : Stored, row.status = .RESERVED ∧ f.proposed.reservations
        = f.owner.state.reservations ++ [row])
      ∨ List.Forall₂ (fun r r' => Row.Step f.proposed.lastDay r.toRow r'.toRow)
        f.owner.state.reservations
        f.proposed.reservations := by
  cases event with
  | create policyInput loaded => cases h
  | close owner => cases h
  | reserve index input nowDay single swap =>
    obtain ⟨o, ho, h⟩ := Option.bind_eq_some_iff.mp h
    obtain ⟨⟨s, raw, row⟩, hp, rfl⟩ := Option.map_eq_some_iff.mp h
    obtain ⟨-, next, hwork, -, rfl, -⟩ := proposal_some hp
    obtain ⟨-, hadded, hrows, hresolved⟩ := reserveWork_ok hwork
    exact .inl ⟨hresolved hsingle, _, hadded.1, hrows⟩
  | observe index paymentId originalDigest status nowDay swap =>
    obtain ⟨o, ho, h⟩ := Option.bind_eq_some_iff.mp h
    split at h
    · obtain ⟨⟨s, raw, u⟩, hp, rfl⟩ := Option.map_eq_some_iff.mp h
      obtain ⟨-, next, hwork, -, rfl, -⟩ := proposal_some hp
      obtain ⟨-, i, old, hold, -, -, hunresolved, hrows⟩ := observeWork_ok hwork
      rcases observe_follows hold hunresolved _ hrows with ⟨r, -, hadded⟩ | ⟨hlen, hzip, -⟩
      · have hlength := congrArg List.length (hrows.symm.trans hadded)
        rw [List.length_set, List.length_append, List.length_singleton] at hlength
        omega
      · exact .inr (forall₂_of_zip hlen hzip)
    · cases h

theorem offer_decode (h : σ.offer event = some f) :
    decode f.owner.policy (.str f.raw) = .ok f.proposed := by
  cases event with
  | create policyInput loaded => cases h
  | close owner => cases h
  | reserve index input nowDay single swap =>
    obtain ⟨o, ho, h⟩ := Option.bind_eq_some_iff.mp h
    obtain ⟨p, hp, rfl⟩ := Option.map_eq_some_iff.mp h
    exact (proposal_some hp).2.choose_spec.2.2.2.2
  | observe index paymentId originalDigest status nowDay swap =>
    obtain ⟨o, ho, h⟩ := Option.bind_eq_some_iff.mp h
    split at h
    · obtain ⟨p, hp, rfl⟩ := Option.map_eq_some_iff.mp h
      exact (proposal_some hp).2.choose_spec.2.2.2.2
    · cases h

/-- What a reservation that returns has offered. -/
theorem returned_some {account id : Text} (h : σ.returned event = some (account, id)) :
    ∃ f, σ.offer event = some f ∧ f.acknowledged = true ∧ f.account = account
      ∧ ∃ row : Stored, f.proposed.reservations = f.owner.state.reservations ++ [row]
      ∧ row.paymentId = id
        ∧ row.status = .RESERVED ∧ ∀ r ∈ f.owner.state.reservations, r.paymentId ≠ id := by
  cases event with
  | create policyInput loaded => cases h
  | close owner => cases h
  | observe index paymentId originalDigest status nowDay swap => cases h
  | reserve index input nowDay single swap =>
    obtain ⟨o, ho, h⟩ := Option.bind_eq_some_iff.mp h
    split at h
    · rename_i row hrow
      simp only [Option.some.injEq, Prod.mk.injEq] at h
      obtain ⟨rfl, rfl⟩ := h
      unfold Owner.reserve at hrow
      cases hp : o.proposal (reserveWork o.policy input nowDay single) with
      | none =>
        obtain ⟨t, ht⟩ := reserveWork_some (change_ok hrow hp)
        cases ht
      | some p =>
        obtain ⟨x, hx, hok⟩ := change_offer hp index swap (σ.stored o.policy.accountId)
        rw [hx] at hrow
        obtain ⟨hack, rfl⟩ := (hok row).mp hrow
        obtain ⟨s, raw, row⟩ := p
        obtain ⟨-, next, hwork, -, rfl, -⟩ := proposal_some hp
        obtain ⟨-, hadded, hrows, -⟩ := reserveWork_ok hwork
        obtain ⟨-, hfresh, -⟩ := reserveWork_given hwork
        refine ⟨⟨index, o, swap, _, raw⟩, ?_, hack, rfl, _, hrows, rfl, hadded.1,
          fun r hr he => hfresh r hr (.inl he)⟩
        rw [offer, ho, Option.bind_some, hp]
        rfl
    · cases h

end System

/-! ### Steps over an exact backend -/

/-- One call of a run, with what it offers and what it returns. -/
structure Call where
  event : Event
  offer : Option Offer
  returned : Option (Text × Text)

/-- A step of owners that reserve single originals over an exact backend. -/
structure SingleStep (σ : System) (c : Call) (τ : System) : Prop where
  single : c.event.Single
  exact : σ.Exact c.event
  offer : c.offer = σ.offer c.event
  returned : c.returned = σ.returned c.event
  next : τ = σ.step c.event

theorem SingleStep.of_event {σ : System} {event : Event} (hsingle : event.Single)
    (hexact : σ.Exact event) :
    SingleStep σ ⟨event, σ.offer event, σ.returned event⟩ (σ.step event) :=
  ⟨hsingle, hexact, rfl, rfl, rfl⟩

/-- The owners' states are those of their texts, and nothing that is stored has two unresolved rows.
-/
structure System.Sole (σ : System) : Prop where
  valid : σ.Valid
  unresolved : ∀ account p s, decode p (σ.stored account) = .ok s → s.unresolved ≤ 1

theorem Owner.Valid.eq_current {o : Owner} (ho : o.Valid) {stored : Value}
    (h : stored.strictEq o.current = true) :
    stored = o.current := by
  unfold Owner.Valid at ho
  cases hc : o.current with
  | null => exact Value.strictEq_null.mp (hc ▸ h)
  | str t => exact Value.strictEq_str.mp (hc ▸ h)
  | _ => simp [hc, decode] at ho

namespace SingleStep

variable {σ τ : System} {c : Call} {f : Offer}

theorem valid (h : SingleStep σ c τ) (hσ : σ.Valid) : τ.Valid :=
  h.next ▸ (System.step_stored hσ c.event ⟨"a", by decide⟩).1

theorem owner_valid (h : SingleStep σ c τ) (hσ : σ.Valid) (hf : c.offer = some f) : f.owner.Valid :=
  hσ _ (List.mem_of_getElem? (System.step_offer_some (h.offer ▸ hf)).1)

/-- What is stored is as it was, or it is the proposal in place of the text that its owner had. -/
theorem stored (h : SingleStep σ c τ) (hσ : σ.Valid) (account : Text) :
    τ.stored account = σ.stored account
    ∨ ∃ f, c.offer = some f ∧ f.account = account ∧ σ.stored account = f.owner.current
      ∧ τ.stored account = .str f.raw := by
  cases hf : σ.offer c.event with
  | none =>
    rw [h.next, System.step_offer_none hf]
    exact .inl rfl
  | some f =>
    have hvalid := h.owner_valid hσ (h.offer.trans hf)
    rw [h.next, (System.step_offer_some hf).2]
    dsimp only
    by_cases haccount : account = f.account
    · subst haccount
      rw [Function.update_self, Owner.swapped]
      split
      · rename_i heq
        rw [Bool.and_eq_true] at heq
        exact .inr ⟨f, h.offer.trans hf, rfl, hvalid.eq_current heq.2, rfl⟩
      · exact .inl rfl
    · exact .inl (Function.update_of_ne haccount _ _)

theorem unresolved (h : SingleStep σ c τ) (hσ : σ.Sole) : τ.Sole := by
  refine ⟨h.valid hσ.valid, fun account p s hs => ?_⟩
  rcases h.stored hσ.valid account with heq | ⟨f, hf, rfl, hcurrent, hraw⟩
  · exact hσ.unresolved account p s (heq ▸ hs)
  · have hoffer : σ.offer c.event = some f := h.offer.symm.trans hf
    rw [hraw] at hs
    obtain ⟨-, rfl⟩ := decode_unique (by simp) (System.offer_decode hoffer) hs
    have hvalid := h.owner_valid hσ.valid hf
    rcases System.offer_rows hoffer h.single with ⟨hresolved, row, -, hrows⟩ | hsteps
    · have hnil : (f.owner.state.reservations.filter fun r => r.Unresolved) = [] :=
        List.filter_eq_nil_iff.mpr fun r hr => by simpa using hresolved r hr
      unfold State.unresolved
      rw [hrows, List.filter_append, hnil, List.nil_append]
      exact List.length_filter_le _ _
    · refine (filter_length_le hsteps).trans
        (hσ.unresolved f.account f.owner.policy f.owner.state ?_)
      rw [hcurrent]
      exact hvalid

/-- A reservation that returns has put its row there by its own swap. -/
theorem installed (h : SingleStep σ c τ) (hσ : σ.Valid) {account id : Text}
    (hr : c.returned = some (account, id)) :
    ∃ f, c.offer = some f ∧ f.acknowledged = true ∧ f.account = account ∧ σ.stored account
      = f.owner.current
      ∧ τ.stored account = .str f.raw ∧ decode f.owner.policy f.owner.current = .ok f.owner.state
      ∧ decode f.owner.policy (.str f.raw) = .ok f.proposed
      ∧ ∃ row : Stored, f.proposed.reservations = f.owner.state.reservations ++ [row]
      ∧ row.paymentId = id
        ∧ row.status = .RESERVED ∧ ∀ r ∈ f.owner.state.reservations, r.paymentId ≠ id := by
  obtain ⟨f, hf, hack, rfl, hrow⟩ := System.returned_some (h.returned.symm.trans hr)
  have hvalid := h.owner_valid hσ (h.offer.trans hf)
  have hanswer : ∃ v, f.swap.answer = some v ∧ v.strictEq (.str f.raw) = true := by
    unfold Offer.acknowledged at hack
    rw [Bool.and_eq_true, Option.any_eq_true] at hack
    exact hack.2
  obtain ⟨v, hv, heq⟩ := hanswer
  obtain ⟨hcommits, hcurrent⟩ := h.exact f hf v hv heq
  have hstored : τ.stored f.account = .str f.raw := by
    rw [h.next, (System.step_offer_some hf).2]
    dsimp only
    rw [Function.update_self, Owner.swapped, hcommits, hcurrent]
    rfl
  exact ⟨f, h.offer.trans hf, hack, rfl, hvalid.eq_current hcurrent, hstored, hvalid,
    System.offer_decode hf, hrow⟩

end SingleStep

/-! ### Runs over an exact backend -/

/-- The payment has a row in what is stored for the account. -/
def System.Has (σ : System) (account id : Text) : Prop :=
  ∃ p s, decode p (σ.stored account) = .ok s ∧ ∃ r ∈ s.reservations, r.paymentId = id

/-- The owner at the index is held. -/
def System.Holds (σ : System) (i : Nat) : Prop := ∃ o, σ.owners[i]? = some o ∧ o.held = true

theorem SingleStep.keeps_has {σ τ : System} {c : Call} (h : SingleStep σ c τ) (hσ : σ.Valid)
    {account id : Text} (hhas : σ.Has account id) : τ.Has account id := by
  obtain ⟨p, s, hs, r, hr, hid⟩ := hhas
  rw [System.Has, h.next]
  rcases (System.step_stored hσ c.event account).2 with heq | ⟨q, hq⟩
  · rw [heq]
    exact ⟨p, s, hs, r, hr, hid⟩
  · obtain ⟨-, t, u, ht, hu, hstep⟩ := hq.step
    by_cases hnull : σ.stored account = .null
    · rw [hnull] at hs
      obtain rfl : State.initial = s := Except.ok.inj hs
      exact absurd hr List.not_mem_nil
    · obtain ⟨-, rfl⟩ := decode_unique hnull hs ht
      obtain ⟨i, hi, rfl⟩ := List.mem_iff_getElem.mp hr
      obtain ⟨r', hr', hlater⟩ := hstep.later.rows i _ (List.getElem?_eq_getElem hi)
      refine ⟨q, u, hu, r', List.mem_of_getElem? hr', ?_⟩
      rcases hlater with heq | ⟨-, status, heq, -⟩
      · rw [heq, hid]
      · rw [heq]
        exact hid

theorem SingleStep.has_of_returned {σ τ : System} {c : Call} (h : SingleStep σ c τ) (hσ : σ.Valid)
    {account id : Text} (hr : c.returned = some (account, id)) :
    ¬ σ.Has account id ∧ τ.Has account id := by
  obtain ⟨f, -, -, rfl, hcurrent, hraw, hstate, hproposed, row, hrows, hid, -, hfresh⟩ :=
    h.installed hσ hr
  constructor
  · rintro ⟨p, s, hs, r, hmem, hr⟩
    by_cases hnull : σ.stored f.account = .null
    · rw [hnull] at hs
      obtain rfl : State.initial = s := Except.ok.inj hs
      exact absurd hmem List.not_mem_nil
    · obtain ⟨-, rfl⟩ := decode_unique hnull hs (hcurrent ▸ hstate)
      exact hfresh r hmem hr
  · refine ⟨f.owner.policy, f.proposed, hraw ▸ hproposed, row, ?_, hid⟩
    rw [hrows]
    exact List.mem_append_right _ (List.mem_singleton_self _)

theorem SingleStep.keeps_holds {σ τ : System} {c : Call} (h : SingleStep σ c τ) {i : Nat}
    (hi : σ.Holds i) :
    τ.Holds i := by
  obtain ⟨o, ho, hheld⟩ := hi
  rw [System.Holds, h.next]
  exact System.step_held ho hheld c.event

theorem SingleStep.not_holds {σ τ : System} {c : Call} (h : SingleStep σ c τ) {f : Offer}
    (hf : c.offer = some f) :
    ¬ σ.Holds f.index := by
  rintro ⟨o, ho, hheld⟩
  have hoffer : σ.offer c.event = some f := h.offer.symm.trans hf
  obtain rfl : f.owner = o := Option.some.inj ((System.step_offer_some hoffer).1.symm.trans ho)
  rw [System.offer_not_held hoffer] at hheld
  cases hheld

theorem SingleStep.holds {σ τ : System} {c : Call} (h : SingleStep σ c τ) {f : Offer}
    (hf : c.offer = some f) (hack : f.acknowledged = false) : τ.Holds f.index := by
  have hoffer : σ.offer c.event = some f := h.offer.symm.trans hf
  obtain ⟨hget, hstep⟩ := System.step_offer_some hoffer
  refine ⟨f.settled, ?_, Offer.settled_held hack⟩
  rw [h.next, hstep]
  dsimp only
  rw [List.getElem?_set, if_pos rfl, if_pos (List.getElem?_eq_some_iff.mp hget).1]

theorem System.initial_sole : System.initial.Sole := by
  refine ⟨fun o ho => absurd ho List.not_mem_nil, fun account p s hs => ?_⟩
  obtain rfl : State.initial = s := Except.ok.inj hs
  exact Nat.zero_le _

section

variable {calls : List Call} {σ : System}

theorem run_sole (h : Run SingleStep .initial calls σ) : σ.Sole :=
  h.invariant (fun _ _ _ hs hstep => hstep.unresolved hs) System.initial_sole

/-- A payment of an account is returned by at most one call. -/
theorem returned_once (h : Run SingleStep .initial calls σ) (account id : Text) :
    (calls.filter fun c => c.returned = some (account, id)).length ≤ 1 := by
  have hkeep : ∀ s c t, System.Valid s → s.Has account id → SingleStep s c t → t.Has account id :=
    fun _ _ _ hs hhas hstep => hstep.keeps_has hs hhas
  have hfires : ∀ s c t, System.Valid s → SingleStep s c t → c.returned = some (account, id) →
      ¬ s.Has account id ∧ t.Has account id := fun _ _ _ hs hstep hr => hstep.has_of_returned hs hr
  exact h.atMostOnce (fun _ _ _ hs hstep => hstep.valid hs) hkeep hfires System.initial_sole.valid

/-- The owner of an offer that was not acknowledged makes no other. -/
theorem unacknowledged_last {pre post : List Call} {c : Call}
    (h : Run SingleStep .initial (pre ++ c :: post) σ) {f : Offer} (hf : c.offer = some f)
    (hack : f.acknowledged = false) :
    ∀ c' ∈ post, ∀ f', c'.offer = some f' → f'.index ≠ f.index := by
  have hkeep : ∀ s c t, True → System.Holds s f.index → SingleStep s c t →
      ¬ (∃ f', c.offer = some f' ∧ f'.index = f.index) ∧ System.Holds t f.index := by
    rintro s c' t - hholds hstep
    refine ⟨?_, hstep.keeps_holds hholds⟩
    rintro ⟨f', hf', hindex⟩
    exact hstep.not_holds hf' (hindex ▸ hholds)
  obtain ⟨t, -, hpost⟩ := h.split
  cases hpost with
  | cons hstep rest =>
    have hlatched := rest.latched (fun _ _ _ _ _ => trivial) hkeep trivial (hstep.holds hf hack)
    intro c' hc' f' hf' hindex
    exact hlatched.2 c' hc' ⟨f', hf', hindex⟩

/-- Over an exact backend, owners that reserve single originals leave at most one unresolved. -/
theorem single_original (h : Run SingleStep .initial calls σ) :
    (∀ account p s, decode p (σ.stored account) = .ok s → s.unresolved ≤ 1)
    ∧ (∀ account id, (calls.filter fun c => c.returned = some (account, id)).length ≤ 1)
    ∧ (∀ c τ, SingleStep σ c τ → ∀ account id, c.returned = some (account, id) →
      ∃ f, c.offer = some f ∧ f.acknowledged = true ∧ f.account = account ∧ σ.stored account
        = f.owner.current
        ∧ τ.stored account = .str f.raw ∧ decode f.owner.policy f.owner.current = .ok f.owner.state
        ∧ decode f.owner.policy (.str f.raw) = .ok f.proposed
        ∧ ∃ row : Stored, f.proposed.reservations = f.owner.state.reservations ++ [row]
        ∧ row.paymentId = id
          ∧ row.status = .RESERVED ∧ ∀ r ∈ f.owner.state.reservations, r.paymentId ≠ id)
    ∧ ∀ pre c post, calls = pre ++ c :: post → ∀ f, c.offer = some f → f.acknowledged = false →
      ∀ c' ∈ post, ∀ f', c'.offer = some f' → f'.index ≠ f.index := by
  have hsole := run_sole h
  refine ⟨hsole.unresolved, returned_once h,
    fun c τ hstep account id hr => hstep.installed hsole.valid hr, ?_⟩
  rintro pre c post rfl f hf hack
  exact unacknowledged_last h hf hack

end

/-! ### A reserved original -/

namespace Sample

def reserved : State := ⟨Order.given POLICY, 1, evaluated 3, [row]⟩

/-- The backend stores the proposal and answers with it. -/
def swap : Swap := ⟨true, false, some (.str (stringify (reserved.encode policy)))⟩

def event : Event := .reserve 0 input (.num 3) true swap

theorem event_single : event.Single := Eq.refl true

def opened : System := ⟨fun _ => .null, [owner]⟩

theorem opened_eq : System.initial.step (.create policy.encode .null) = opened := by
  rw [System.step, create_owner]
  rfl

theorem proposal_eq : owner.proposal (reserveWork policy input (.num 3) true)
    = some (reserved, stringify (reserved.encode policy), row.toRow) :=
  proposal_of (o := owner) rfl reserveWork_input (Nat.succ_pos _) state_good

theorem offer_eq : opened.offer event
    = some ⟨0, owner, swap, reserved, stringify (reserved.encode policy)⟩ := by
  have hget : opened.owners[0]? = some owner := rfl
  rw [event, System.offer, hget, Option.bind_some]
  exact Option.map_eq_some_iff.mpr ⟨_, proposal_eq, rfl⟩

theorem returned_eq :
    opened.returned event = some (policy.accountId, row.paymentId) := by
  have hget : opened.owners[0]? = some owner := rfl
  obtain ⟨x, hx, hok⟩ :=
    System.change_offer proposal_eq 0 swap (opened.stored owner.policy.accountId)
  have hack : Offer.acknowledged ⟨0, owner, swap, reserved, stringify (reserved.encode policy)⟩
      = true := by
    simp [Offer.acknowledged, owner, swap, Value.strictEq_str]
  have hreply : (owner.reserve input (.num 3) true swap
      (opened.stored owner.policy.accountId)).result
      = .ok row.toRow := by
    unfold Owner.reserve
    exact (congrArg Reply.result hx).trans ((hok _).mpr ⟨hack, rfl⟩)
  rw [event, System.returned, hget, Option.bind_some, hreply]
  rfl

theorem exact_event : opened.Exact event := by
  intro f hf v _ _
  rw [offer_eq] at hf
  obtain rfl := Option.some.inj hf
  exact ⟨rfl, rfl⟩

end Sample

theorem one_le_returned (c : Call) (event : Event) (offer : Option Offer) (account id : Text) :
    1 ≤ ([c, ⟨event, offer, some (account, id)⟩].filter fun c => c.returned
      = some (account, id)).length :=
  List.length_pos_of_mem
    (List.mem_filter.mpr ⟨List.mem_cons_of_mem _ (List.mem_singleton_self _), by simp⟩)

theorem single_original_sample : ∃ calls σ, Run SingleStep .initial calls σ
    ∧ (calls.filter fun c => c.returned
      = some (Sample.policy.accountId, Sample.row.paymentId)).length = 1
    ∧ ∀ account p s, decode p (σ.stored account) = .ok s → s.unresolved ≤ 1 := by
  have hfirst : SingleStep .initial ⟨.create Sample.policy.encode .null, none, none⟩
      Sample.opened :=
    ⟨trivial, fun f hf => (by cases hf), rfl, rfl, Sample.opened_eq.symm⟩
  have hsecond := SingleStep.of_event Sample.event_single Sample.exact_event
  rw [Sample.returned_eq] at hsecond
  have hrun := Run.cons hfirst (.cons hsecond (.nil _))
  obtain ⟨hunresolved, honce, -⟩ := single_original hrun
  exact ⟨_, _, hrun, le_antisymm (honce _ _) (one_le_returned ..), hunresolved⟩

end Spending
end ZenonX402
