/-
# Ownership of an order's records

`claim` and `release` hand an envelope over, and a port writes records under the
token it was opened with. None of them holds a lock: each proposes the text that
follows the text it knows, and the backend stores it only in place of exactly that
text. `System` is any number of them over one backend, with texts as stale as they
like and answers of any kind. A token is any text, not only what a claim returned.

Whatever the order of the calls, what is stored for an order and a payment is a
lease that goes from step to step (`SystemStep.change`): an epoch that is over
does not come back (`epoch_fences`), and one epoch has one owner
(`epoch_owner`).

Key definitions: `claim`, `release`, `Port`, `Port.prepare`, `Attempt`, `System.step`, `SystemStep`.
Key theorems: `claim_of_follows`, `claim_of_known`, `attempt_sound`, `SystemStep.later`,
`epoch_fences`, `epoch_owner`, `ownership_fencing`.
-/
import ZenonX402.Lib.Trace
import ZenonX402.Order.Envelope
import Mathlib.Logic.Function.Basic

namespace ZenonX402
namespace Order

open Js

/-- What the backend does with one swap: whether it stores the proposal if it has what is expected,
whether the port is closed meanwhile, and what it answers (nothing when it throws). -/
structure Swap where
  commits : Bool
  closes : Bool
  answer : Option Value

variable {c : Contract}

/-! ### Handing over -/

/-- A string with the shape `p`, or `INVALID_INPUT`. -/
def textOf (p : String → Bool) : Value → Except Failure {s : String // p s = true}
  | .str s => if h : p s = true then .ok ⟨s, h⟩ else .error .INVALID_INPUT
  | _ => .error .INVALID_INPUT

/-- The envelope that is expected; none where nothing is. -/
def expectedEnvelope (c : Contract) (expected : Value) : Except Failure (Option (Envelope c)) :=
  if expected.strictEq .null then .ok none else (envelope c expected).map some

/-- The count after an old one, if there is one. -/
def nextOf : Option Positive → Except Failure Positive
  | none => .ok .one
  | some n => next n

/-- What `claimPurchasedOrder…Ownership` proposes. -/
def claim (c : Contract) (storeId orderId paymentScope expected ownerId : Value) :
    Except Failure (Binding × Envelope c) := do
  let storeId ← textOf isId storeId
  let orderId ← textOf isId orderId
  let paymentScope ← textOf isHash paymentScope
  let ownerId ← textOf isId ownerId
  let old ← expectedEnvelope c expected
  let binding : Binding := ⟨storeId, orderId, paymentScope⟩
  rejectIf (∃ e ∈ old, e.1.binding ≠ binding) .ENVELOPE_BINDING_CHANGED
  let epoch ← nextOf (old.map fun e => e.1.epoch)
  let revision ← nextOf (old.map fun e => e.1.revision)
  let proposed ← encode c ⟨binding, some ownerId, epoch, revision, old.bind fun e => e.1.record,
    old.bind fun e => e.1.digest⟩
  let e ← requireTransition c expected (.str proposed)
  .ok (binding, e)

/-- What `releasePurchasedOrder…Ownership` proposes. -/
def release (c : Contract) (ownerTokenJson expected : Value) :
    Except Failure (Binding × Envelope c) := do
  let t ← token ownerTokenJson
  let e ← envelope c expected
  rejectIf (¬ sameOwner e t) .FENCED
  let epoch ← next e.1.epoch
  let revision ← next e.1.revision
  let proposed ← encode c { e.1 with ownerId := none, epoch := epoch, revision := revision }
  let e' ← requireTransition c expected (.str proposed)
  .ok (e.1.binding, e')

/-! ### Ports -/

/-- `createPurchasedOrderFulfillmentStatePort`, `createPurchasedOrderFundingReceiptPort`: the
envelope that was last loaded or stored, if there is one. -/
structure Port (c : Contract) where
  token : Token
  closed : Bool
  held : Bool
  current : Option (Envelope c)

namespace Port

def create (c : Contract) (ownerTokenJson : Value) : Except Failure (Port c) := do
  let t ← Order.token ownerTokenJson
  .ok ⟨t, false, false, none⟩

/-- `binding` and `usable`. -/
def usable (p : Port c) (orderId paymentScope : Value) : Except Failure Unit := do
  rejectIf (orderId.strictEq (.str p.token.binding.orderId.1) = false
    ∨ paymentScope.strictEq (.str p.token.binding.paymentScope.1) = false) .BINDING_CONFLICT
  rejectIf (p.closed = true) .CLOSED
  rejectIf (p.held = true) .HELD

/-- `load`; the backend answers the reading with `answer`, or throws. -/
def load (p : Port c) (orderId paymentScope : Value) (closes : Bool) (answer : Option Value) :
    Except Failure (Option String) × Port c :=
  match p.usable orderId paymentScope with
  | .error e => (.error e, p)
  | .ok () =>
    if p.current.isSome then (.error .ALREADY_LOADED, p)
    else
      let p' := { p with closed := p.closed || closes }
      let unknown : Failure := if p'.closed then .CLOSED else .READ_UNKNOWN
      match answer with
      | none => (.error unknown, { p' with held := true })
      | some raw =>
        if p'.closed then (.error unknown, { p' with held := true })
        else match envelope c raw with
          | .error _ => (.error .CORRUPT, { p' with held := true })
          | .ok e =>
            if sameOwner e p.token then (.ok e.1.record, { p' with current := some e })
            else (.error .FENCED, { p' with held := true })

/-- The text around a record that takes the place of the record in the envelope `e`. -/
def successor (e : Envelope c) (record : String) (same : Bool) : Except Failure String :=
  if same then .ok e.text
  else do
    let revision ← next e.1.revision
    encode c { e.1 with revision := revision, record := some record, digest := some (c.digest
      record) }

/-- `compareAndSwap` up to its swap: the envelope it expects and the one it proposes. -/
def prepare (p : Port c) (orderId paymentScope expectedRecord proposedRecord : Value) :
    Except Failure (Envelope c × Envelope c) := do
  p.usable orderId paymentScope
  let e ← orReject p.current .RECOVERY_REQUIRED
  rejectIf ((recordValue e.1.record).strictEq expectedRecord = false) .EXPECTATION_CONFLICT
  let record ← c.admits proposedRecord p.token.binding.orderId p.token.binding.paymentScope
  let proposed ← successor e record (proposedRecord.strictEq expectedRecord)
  let checked ← requireTransition c (.str e.text) (.str proposed)
  .ok (e, checked)

/-- `compareAndSwap` after its swap. -/
def settle (p : Port c) (proposedRecord : Value) (checked : Envelope c) (swap : Swap) :
    Except Failure Value × Port c :=
  let p' := { p with closed := p.closed || swap.closes }
  match swap.answer with
  | none => (.error (if p'.closed then .CLOSED else .COMMIT_UNKNOWN), { p' with held := true })
  | some observed =>
    if p'.closed then (.error .CLOSED, { p' with held := true })
    else if observed.strictEq .null then (.ok .null, { p' with held := true })
    else if observed.strictEq (.str checked.text)
      then (.ok proposedRecord, { p' with current := some checked })
    else (.error .COMMIT_UNKNOWN, { p' with held := true })

def close (p : Port c) : Port c := { p with closed := true }

end Port

/-! ### Claimants and ports over one backend -/

inductive Event
  | claim (storeId orderId paymentScope expected ownerId : Value) (swap : Swap)
  | release (ownerTokenJson expected : Value) (swap : Swap)
  | create (ownerTokenJson : Value)
  | load (port : Nat) (orderId paymentScope : Value) (closes : Bool) (answer : Option Value)
  | compareAndSwap (port : Nat) (orderId paymentScope expectedRecord proposedRecord : Value)
      (swap : Swap)
  | close (port : Nat)

/-- Who proposes: a claim or a release, or a port with its token. -/
inductive Actor
  | handoff
  | port (t : Token)

/-- A swap that reaches the backend. -/
structure Attempt (c : Contract) where
  orderId : Id
  paymentScope : Hash
  actor : Actor
  expected : Value
  proposed : Envelope c
  swap : Swap

/-- What is stored for an order and a payment scope, and the ports so far. -/
structure System (c : Contract) where
  stored : Id × Hash → Value
  ports : List (Port c)

namespace System

/-- What an event gives to `compareAndSwapEnvelope`. -/
def attempt (σ : System c) : Event → Option (Attempt c)
  | .claim storeId orderId paymentScope expected ownerId swap =>
    (claim c storeId orderId paymentScope expected ownerId).toOption.map fun (b, e) =>
      ⟨b.orderId, b.paymentScope, .handoff, expected, e, swap⟩
  | .release ownerTokenJson expected swap =>
    (release c ownerTokenJson expected).toOption.map fun (b, e) =>
      ⟨b.orderId, b.paymentScope, .handoff, expected, e, swap⟩
  | .compareAndSwap port orderId paymentScope expectedRecord proposedRecord swap =>
    (σ.ports[port]?).bind fun p =>
      (p.prepare orderId paymentScope expectedRecord proposedRecord).toOption.map fun (e, e') =>
        ⟨p.token.binding.orderId, p.token.binding.paymentScope, .port p.token,
          .str e.text, e', swap⟩
  | _ => none

/-- The proposal takes the place of exactly what is expected. -/
def effective (σ : System c) (a : Attempt c) : Bool :=
  a.swap.commits && (σ.stored (a.orderId, a.paymentScope)).strictEq a.expected

def portsAfter (σ : System c) : Event → List (Port c)
  | .create ownerTokenJson => match Port.create c ownerTokenJson with
    | .ok p => σ.ports ++ [p]
    | .error _ => σ.ports
  | .load port orderId paymentScope closes answer =>
    σ.ports.modify port fun p => (p.load orderId paymentScope closes answer).2
  | .compareAndSwap port orderId paymentScope expectedRecord proposedRecord swap =>
    σ.ports.modify port fun p =>
      match p.prepare orderId paymentScope expectedRecord proposedRecord with
      | .ok (_, checked) => (p.settle proposedRecord checked swap).2
      | .error _ => p
  | .close port => σ.ports.modify port Port.close
  | _ => σ.ports

def storedAfter (σ : System c) (event : Event) : Id × Hash → Value := match σ.attempt event with
  | none => σ.stored
  | some a =>
    if σ.effective a then Function.update σ.stored (a.orderId, a.paymentScope)
      (.str a.proposed.text) else σ.stored

def step (σ : System c) (event : Event) : System c := ⟨σ.storedAfter event, σ.portsAfter event⟩

/-- The swap by which the event changes what is stored, if it does. -/
def changes (σ : System c) (event : Event) : Option (Attempt c) :=
  (σ.attempt event).filter fun a => σ.effective a && !a.expected.strictEq (.str a.proposed.text)

end System

/-- A step of the claimants and the ports, and the swap by which it changes what is stored. -/
def SystemStep (σ : System c) (l : Option (Attempt c)) (τ : System c) : Prop :=
  ∃ event, l = σ.changes event ∧ τ = σ.step event

/-! ### What is proposed -/

theorem Envelope.text_inj {a b : Envelope c} (h : a.text = b.text) : a = b := by
  refine (envelopeCodec c).encode_injective ?_
  rw [stringify_inj ((envelopeCodec c).json_encode a) ((envelopeCodec c).json_encode b) h]
  exact Value.Same.refl _

/-- What a handover proposes. -/
structure Envelope.Handover (expected : Value) (b : Envelope c) : Prop where
  accepted : envelope c (.str b.text) = .ok b
  first : expected = .null → b.First
  next : ∀ a, envelope c expected = .ok a → a.lease.HandsOver b.lease ∧ b.1.digest = a.1.digest
  known : expected = .null ∨ ∃ a, envelope c expected = .ok a ∧ a.1.binding = b.1.binding

theorem envelope_null {e : Envelope c} : envelope c .null ≠ .ok e :=
  fun h => nomatch (envelope_ok.mp h).1

theorem expectedEnvelope_ok {expected : Value} {old : Option (Envelope c)} :
    expectedEnvelope c expected = .ok old ↔
    (expected = .null ∧ old = none) ∨ ∃ e, envelope c expected = .ok e ∧ old = some e := by
  unfold expectedEnvelope
  by_cases hnull : expected = .null
  · rw [if_pos (Value.strictEq_null.mpr hnull), hnull]
    constructor
    · exact fun h => .inl ⟨rfl, (Except.ok.inj h).symm⟩
    · rintro (⟨-, rfl⟩ | ⟨e, he, -⟩)
      · rfl
      · exact absurd he envelope_null
  · rw [if_neg fun h => hnull (Value.strictEq_null.mp h), map_ok]
    constructor
    · rintro ⟨e, he, rfl⟩
      exact .inr ⟨e, he, rfl⟩
    · rintro (⟨hv, -⟩ | ⟨e, he, rfl⟩)
      · exact absurd hv hnull
      · exact ⟨e, he, rfl⟩

/-- What is accepted has the text it is accepted from. -/
theorem accepted_raw {expected : Value} {raw : String} {b : Envelope c}
    (hb : requireTransition c expected (.str raw) = .ok b) : envelope c (.str b.text) = .ok b := by
  obtain ⟨-, hsize⟩ := envelope_ok.mp (requireTransition_ok hb).1
  exact envelope_ok.mpr ⟨rfl, hsize⟩

/-- The envelope that was encoded is the one that is accepted in place of the expected one. -/
theorem encoded_eq {f : EnvelopeFields} {raw : String} {expected : Value} {b : Envelope c}
    (hraw : encode c f = .ok raw) (hb : requireTransition c expected (.str raw) = .ok b) :
    b.1 = f := by
  obtain ⟨e, rfl, rfl, -⟩ := encode_ok.mp hraw
  obtain ⟨htext, -⟩ := envelope_ok.mp (requireTransition_ok hb).1
  obtain rfl := Envelope.text_inj (Value.str.inj htext)
  rfl

theorem claim_ok {storeId orderId paymentScope expected ownerId : Value} {binding : Binding}
    {b : Envelope c} (h : claim c storeId orderId paymentScope expected ownerId
      = .ok (binding, b)) :
    b.1.binding = binding ∧ b.Handover expected := by
  unfold claim at h
  simp only [bind_ok, rejectIf_ok, expectedEnvelope_ok, Except.ok.injEq, Prod.mk.injEq] at h
  obtain ⟨store, -, order, -, scope, -, owner, -, old, hold, _, hbinding, epoch, hepoch, revision,
    hrevision, raw, hraw, b', hb', rfl, rfl⟩ := h
  have hf := encoded_eq hraw hb'
  have hb1 : b'.1.binding = ⟨store, order, scope⟩ := by rw [hf]
  refine ⟨hb1, ?_⟩
  rcases hold with ⟨rfl, rfl⟩ | ⟨a, ha, rfl⟩
  · obtain rfl : .one = epoch := Except.ok.inj hepoch
    obtain rfl : .one = revision := Except.ok.inj hrevision
    refine ⟨accepted_raw hb', fun _ => ⟨?_, ?_, ?_, ?_⟩,
      fun a ha => absurd ha envelope_null, .inl rfl⟩
    · rw [hf]
      simp
    · rw [hf]
    · rw [hf]
    · rw [hf]
      rfl
  · have hepoch : next a.1.epoch = .ok epoch := hepoch
    have hrevision : next a.1.revision = .ok revision := hrevision
    rw [next_ok] at hepoch hrevision
    have hsame : a.1.binding = b'.1.binding := by
      rw [hb1]
      exact not_not.mp fun hne => hbinding ⟨a, rfl, hne⟩
    refine ⟨accepted_raw hb', fun hnull => absurd (hnull ▸ ha) envelope_null, fun a' ha' => ?_,
      .inr ⟨a, ha, hsame⟩⟩
    obtain rfl := Except.ok.inj (ha.symm.trans ha')
    refine ⟨⟨?_, ?_, ?_⟩, ?_⟩
    · rw [Envelope.lease, hf]
      exact hepoch
    · rw [Envelope.lease, hf]
      exact hrevision
    · rw [Envelope.lease, hf]
      rfl
    · rw [hf]
      rfl

theorem release_ok {ownerTokenJson expected : Value} {binding : Binding} {b : Envelope c}
    (h : release c ownerTokenJson expected = .ok (binding, b)) :
    b.1.binding = binding ∧ b.Handover expected := by
  unfold release at h
  simp only [bind_ok, rejectIf_ok, next_ok, Except.ok.injEq, Prod.mk.injEq] at h
  obtain ⟨t, -, a, ha, _, -, epoch, hepoch, revision, hrevision, raw, hraw, b', hb', rfl, rfl⟩ := h
  have hf := encoded_eq hraw hb'
  have hb1 : b'.1.binding = a.1.binding := by rw [hf]
  refine ⟨hb1, accepted_raw hb', fun hnull => absurd (hnull ▸ ha) envelope_null, fun a' ha' => ?_,
    .inr ⟨a, ha, hb1.symm⟩⟩
  obtain rfl := Except.ok.inj (ha.symm.trans ha')
  refine ⟨⟨?_, ?_, ?_⟩, ?_⟩
  · rw [Envelope.lease, hf]
    exact hepoch
  · rw [Envelope.lease, hf]
    exact hrevision
  · rw [Envelope.lease, hf]
    rfl
  · rw [hf]

/-- What a port expects is its own, and what it proposes follows it under its token. -/
theorem prepare_ok {p : Port c} {orderId paymentScope expectedRecord proposedRecord : Value}
    {a b : Envelope c} (h : p.prepare orderId paymentScope expectedRecord proposedRecord
      = .ok (a, b)) :
    p.current = some a ∧ envelope c (.str a.text) = .ok a ∧ envelope c (.str b.text) = .ok b
      ∧ a.1.binding = b.1.binding ∧ (a = b ∨ a.lease.Writes b.lease) := by
  unfold Port.prepare at h
  simp only [bind_ok, orReject_ok, Except.ok.injEq, Prod.mk.injEq] at h
  obtain ⟨_, -, a', ha', _, -, record, -, raw, hraw, b', hb', rfl, rfl⟩ := h
  obtain ⟨hb, hfollows⟩ := requireTransition_ok hb'
  obtain ⟨htext, hsize⟩ := envelope_ok.mp hb
  rcases hfollows with ⟨hnull, -⟩ | ⟨a, ha, hbinding, hstep⟩
  · cases hnull
  · obtain ⟨ha1, ha2⟩ := envelope_ok.mp ha
    obtain rfl := Envelope.text_inj (Value.str.inj ha1)
    refine ⟨ha', envelope_ok.mpr ⟨rfl, ha2⟩, accepted_raw hb', hbinding, ?_⟩
    unfold Port.successor at hraw
    split at hraw
    · obtain rfl := Except.ok.inj hraw
      exact .inl (Envelope.text_inj (Value.str.inj htext))
    · simp only [bind_ok, next_ok] at hraw
      obtain ⟨revision, hrevision, hencode⟩ := hraw
      have hf := encoded_eq hencode hb'
      have hepoch : b'.lease.epoch = a'.lease.epoch := by rw [Envelope.lease, hf]; rfl
      rcases hstep with heq | hfollows
      · exact .inl (Envelope.text_inj (Value.str.inj (heq.trans htext)))
      · cases hfollows with
        | writes hwrites _ => exact .inr hwrites
        | handsOver hhands _ =>
          have := hhands.epoch
          omega

/-! ### What is not refused -/

theorem next_exhausted {n : Positive} (h : n.value = 9007199254740991) :
    next n = .error .VERSION_EXHAUSTED := by
  have hn := n.value_eq
  exact dif_neg (by omega)

theorem next_of_lt {n : Positive} (h : n.value < 9007199254740991) : ∃ m, next n = .ok m := by
  have hn := n.value_eq
  unfold next
  rw [dif_pos (by omega)]
  exact ⟨_, rfl⟩

theorem textOf_str {p : String → Bool} (s : {s : String // p s = true}) :
    textOf p (.str s.1) = .ok s := by
  rw [textOf, dif_pos s.2]

/-- A claim proposes the envelope of its owner that follows the one it knows, as long as epochs are
left and the envelope does not get too long. -/
theorem claim_of_follows {old : Option (Envelope c)} {b : Envelope c} {owner : Id}
    (hold : ∀ a ∈ old, a.text.utf8ByteSize ≤ c.kind.cap ∧ a.1.binding = b.1.binding)
    (hepoch : nextOf (old.map fun e => e.1.epoch) = .ok b.1.epoch)
    (hrevision : nextOf (old.map fun e => e.1.revision) = .ok b.1.revision)
    (howner : b.1.ownerId = some owner) (hrecord : b.1.record = old.bind fun e => e.1.record)
    (hdigest : b.1.digest = old.bind fun e => e.1.digest)
    (hfits : b.text.utf8ByteSize ≤ c.kind.cap) :
    claim c (.str b.1.binding.storeId.1) (.str b.1.binding.orderId.1)
    (.str b.1.binding.paymentScope.1) (recordValue (old.map Envelope.text))
    (.str owner.1) = .ok (b.1.binding, b) := by
  have howned : b.1.ownerId ≠ none := by
    rw [howner]
    exact nofun
  have hfields : EnvelopeFields.mk b.1.binding (some owner) b.1.epoch b.1.revision
      (old.bind fun e => e.1.record)
      (old.bind fun e => e.1.digest) = b.1 := by
    rw [← howner, ← hrecord, ← hdigest]
  have hencode : encode c b.1 = .ok b.text := encode_ok.mpr ⟨b, rfl, rfl, hfits⟩
  have hexpected : expectedEnvelope c (recordValue (old.map Envelope.text)) = .ok old
      ∧ requireTransition c (recordValue (old.map Envelope.text)) (.str b.text) = .ok b := by
    cases old with
    | none =>
      exact ⟨rfl, requireTransition_of_first hfits
        ⟨howned, (Except.ok.inj hepoch).symm, (Except.ok.inj hrevision).symm, hrecord⟩⟩
    | some a =>
      obtain ⟨hsize, hbinding⟩ := hold a rfl
      exact ⟨expectedEnvelope_ok.mpr (.inr ⟨a, envelope_ok.mpr ⟨rfl, hsize⟩, rfl⟩),
        requireTransition_of_handsOver hsize hfits hbinding
        ⟨next_ok.mp hepoch, next_ok.mp hrevision, hrecord⟩ hdigest
          howned⟩
  unfold claim
  simp only [bind_ok, rejectIf_ok]
  refine ⟨_, textOf_str _, _, textOf_str _, _, textOf_str _, _, textOf_str _, old, hexpected.1, (),
    ?_, _, hepoch, _, hrevision, b.text, ?_, b, hexpected.2, rfl⟩
  · rintro ⟨a, ha, hne⟩
    exact hne (hold a ha).2
  · rw [hfields]
    exact hencode

/-- Any envelope is claimed by another owner, as long as revisions are left and the next one does
not get too long. -/
theorem claim_of_known {a : Envelope c} (owner : Id) (ha : a.text.utf8ByteSize ≤ c.kind.cap)
    (hrevision : a.lease.revision < 9007199254740991)
    (hfits : ∀ b : Envelope c, b.1.record = a.1.record → b.text.utf8ByteSize ≤ c.kind.cap) :
    ∃ b, claim c (.str a.1.binding.storeId.1) (.str a.1.binding.orderId.1)
    (.str a.1.binding.paymentScope.1) (.str a.text) (.str owner.1) = .ok (a.1.binding, b)
      ∧ a.lease.HandsOver b.lease := by
  have hordered : a.1.epoch.value ≤ a.1.revision.value := a.ordered
  have hbound : a.1.revision.value < 9007199254740991 := hrevision
  obtain ⟨epoch, hepoch⟩ := next_of_lt (hordered.trans_lt hbound)
  obtain ⟨revision, hnext⟩ := next_of_lt hbound
  have hchecked : EnvelopeFields.checked c
      { a.1 with ownerId := some owner, epoch := epoch, revision := revision } = true := by
    have hold := a.2
    simp only [EnvelopeFields.checked, Bool.and_eq_true, decide_eq_true_eq] at hold ⊢
    rw [next_ok.mp hepoch, next_ok.mp hnext]
    exact ⟨⟨Nat.succ_le_succ hold.1.1, hold.1.2⟩, hold.2⟩
  let b : Envelope c := ⟨_, hchecked⟩
  have hold : ∀ e ∈ some a, e.text.utf8ByteSize ≤ c.kind.cap ∧ e.1.binding = b.1.binding :=
    fun e he => by
    obtain rfl := Option.some.inj he
    exact ⟨ha, rfl⟩
  have hclaim := @claim_of_follows c (some a) b owner hold hepoch hnext rfl rfl rfl (hfits b rfl)
  exact ⟨b, hclaim, next_ok.mp hepoch, next_ok.mp hnext, rfl⟩

/-- What a port is asked to write: another record that may take the place of the record in its
envelope `e`. -/
structure Port.Asked (p : Port c) (e : Envelope c) (orderId paymentScope : Value) (raw : String) :
    Prop where
  usable : p.usable orderId paymentScope = .ok ()
  current : p.current = some e
  fits : e.text.utf8ByteSize ≤ c.kind.cap
  owner : sameOwner e p.token
  admitted : c.admits (.str raw) p.token.binding.orderId p.token.binding.paymentScope = .ok raw
  other : e.1.record ≠ some raw
  record : c.record raw e.1.binding.orderId e.1.binding.paymentScope = true
  transition : c.transition e.1.record (some raw) e.1.binding.orderId e.1.binding.paymentScope
    = .ok ()

theorem recordValue_strictEq {record : Option String} {raw : String} (h : record ≠ some raw) :
    (Value.str raw).strictEq (recordValue record) = false := by
  cases record with
  | none => rfl
  | some s =>
    rw [Bool.eq_false_iff]
    intro heq
    have hsame := Value.strictEq_str.mp heq
    exact h (congrArg some (Value.str.inj hsame).symm)

theorem recordValue_self (record : Option String) :
    (recordValue record).strictEq (recordValue record) = true := by
  cases record with
  | none => exact Value.strictEq_null.mpr rfl
  | some s => exact Value.strictEq_str.mpr rfl

/-- A port writes what it is asked to, as long as revisions are left and the envelope does not get
too long. -/
theorem prepare_of_asked {p : Port c} {e : Envelope c} {orderId paymentScope : Value} {raw : String}
    (h : p.Asked e orderId paymentScope raw) (hrevision : e.lease.revision < 9007199254740991)
    (hfits : ∀ e' : Envelope c, e'.1.record = some raw → e'.text.utf8ByteSize ≤ c.kind.cap) :
    ∃ e', p.prepare orderId paymentScope (recordValue e.1.record) (.str raw) = .ok (e, e')
      ∧ e'.1.record = some raw := by
  obtain ⟨revision, hnext⟩ := next_of_lt hrevision
  have hvalue := next_ok.mp hnext
  have hordered := e.ordered
  have hchecked : EnvelopeFields.checked c
      { e.1 with revision := revision, record := some raw, digest := some (c.digest raw) }
        = true := by
    simp only [EnvelopeFields.checked, Bool.and_eq_true, decide_eq_true_eq, Option.map_some,
      Option.all_some]
    refine ⟨⟨?_, trivial⟩, h.record⟩
    change e.1.epoch.value ≤ revision.value
    change e.1.epoch.value ≤ e.1.revision.value at hordered
    omega
  let e' : Envelope c := ⟨_, hchecked⟩
  have howned : e.1.ownerId ≠ none := by
    rw [h.owner.1]
    exact nofun
  refine ⟨e', ?_, rfl⟩
  have hsuccessor : Port.successor e raw false = .ok e'.text := by
    unfold Port.successor
    rw [if_neg Bool.false_ne_true]
    simp only [bind_ok]
    exact ⟨revision, hnext, encode_ok.mpr ⟨e', rfl, rfl, hfits e' rfl⟩⟩
  unfold Port.prepare
  rw [recordValue_strictEq h.other]
  simp only [bind_ok, orReject_ok, rejectIf_ok, Bool.not_eq_false]
  exact ⟨(), h.usable, e, h.current, (), recordValue_self _, raw, h.admitted, _, hsuccessor, e',
    requireTransition_of_writes h.fits (hfits e' rfl) rfl ⟨howned, rfl, rfl, hvalue⟩
    h.transition, rfl⟩

/-- Where no revisions are left, nothing is written. -/
theorem prepare_exhausted {p : Port c} {e : Envelope c} {orderId paymentScope : Value}
    {raw : String} (h : p.Asked e orderId paymentScope raw)
    (hrevision : e.lease.revision = 9007199254740991) :
    p.prepare orderId paymentScope (recordValue e.1.record)
    (.str raw) = .error .VERSION_EXHAUSTED := by
  have hexpected : rejectIf ((recordValue e.1.record).strictEq (recordValue e.1.record) = false)
      Failure.EXPECTATION_CONFLICT = .ok () := rejectIf_ok.mpr (by simp [recordValue_self])
  have hsuccessor : Port.successor e raw false = .error .VERSION_EXHAUSTED := by
    unfold Port.successor
    rw [if_neg Bool.false_ne_true, next_exhausted hrevision]
    rfl
  unfold Port.prepare
  rw [recordValue_strictEq h.other, h.usable, h.current]
  change (do
    rejectIf _ _
    let record ← c.admits _ _ _
    let proposed ← Port.successor e record _
    let checked ← requireTransition c _ (.str proposed)
    .ok (e, checked)) = _
  rw [hexpected, h.admitted]
  change (do
    let proposed ← Port.successor e raw _
    let checked ← requireTransition c _ (.str proposed)
    .ok (e, checked)) = _
  rw [hsuccessor]
  rfl

/-! ### What reaches the backend -/

/-- The same owner, epoch and binding. -/
theorem sameOwner_of {a b : Envelope c} {t : Token} (h : sameOwner a t)
    (hbinding : a.1.binding = b.1.binding) (hstep : a = b ∨ a.lease.Writes b.lease) :
    sameOwner b t := by
  rcases hstep with rfl | hwrites
  · exact h
  · exact ⟨hwrites.owner.trans h.1, hbinding.symm.trans h.2.1,
      (Positive.value_inj hwrites.epoch).trans h.2.2⟩

/-- The swap of a handover, or of a port under its token. -/
structure Attempt.Sound (a : Attempt c) : Prop where
  accepted : envelope c (.str a.proposed.text) = .ok a.proposed
  binding : a.proposed.1.binding.orderId = a.orderId ∧ a.proposed.1.binding.paymentScope
    = a.paymentScope
  handoff : a.actor = .handoff → a.proposed.Handover a.expected
  port : ∀ t, a.actor = .port t → ∃ e : Envelope c, a.expected = .str e.text
    ∧ envelope c a.expected = .ok e
    ∧ sameOwner e t ∧ sameOwner a.proposed t ∧ (e = a.proposed ∨ e.lease.Writes a.proposed.lease)

/-- The envelope of a port is under its token. -/
def Port.Sound (p : Port c) : Prop := ∀ e ∈ p.current, sameOwner e p.token

namespace System

variable {σ τ : System c} {event : Event} {a : Attempt c}

theorem toOption_some {α : Type} {x : Except Failure α} {y : α} :
    x.toOption = some y ↔ x = .ok y := by
  cases x <;> simp [Except.toOption]

theorem attempt_sound (hσ : ∀ p ∈ σ.ports, p.Sound) (h : σ.attempt event = some a) : a.Sound := by
  cases event with
  | claim storeId orderId paymentScope expected ownerId swap =>
    obtain ⟨⟨b, e⟩, he, rfl⟩ := Option.map_eq_some_iff.mp h
    obtain ⟨rfl, hhandover⟩ := claim_ok (toOption_some.mp he)
    exact ⟨hhandover.accepted, ⟨rfl, rfl⟩, fun _ => hhandover, fun t ht => (by cases ht)⟩
  | release ownerTokenJson expected swap =>
    obtain ⟨⟨b, e⟩, he, rfl⟩ := Option.map_eq_some_iff.mp h
    obtain ⟨rfl, hhandover⟩ := release_ok (toOption_some.mp he)
    exact ⟨hhandover.accepted, ⟨rfl, rfl⟩, fun _ => hhandover, fun t ht => (by cases ht)⟩
  | compareAndSwap port orderId paymentScope expectedRecord proposedRecord swap =>
    obtain ⟨p, hp, h⟩ := Option.bind_eq_some_iff.mp h
    obtain ⟨⟨e, b⟩, he, rfl⟩ := Option.map_eq_some_iff.mp h
    obtain ⟨hcurrent, henvelope, haccepted, hbinding, hstep⟩ := prepare_ok (toOption_some.mp he)
    have howner : sameOwner e p.token := hσ p (List.mem_of_getElem? hp) e hcurrent
    have hb : b.1.binding = p.token.binding := hbinding.symm.trans howner.2.1
    refine ⟨haccepted, ⟨congrArg Binding.orderId hb, congrArg Binding.paymentScope hb⟩,
      fun hactor => (by cases hactor), fun t ht => ?_⟩
    obtain rfl := Actor.port.inj ht
    exact ⟨e, rfl, henvelope, howner, sameOwner_of howner hbinding hstep, hstep⟩
  | create ownerTokenJson => cases h
  | load port orderId paymentScope closes answer => cases h
  | close port => cases h

/-- The ports are under their tokens, and what is stored is the envelope of its order and payment.
-/
structure Sound (σ : System c) : Prop where
  ports : ∀ p ∈ σ.ports, p.Sound
  stored : ∀ key, σ.stored key = .null ∨ ∃ e, envelope c (σ.stored key) = .ok e
    ∧ (e.1.binding.orderId, e.1.binding.paymentScope) = key

end System

theorem Port.load_sound {p : Port c} (hp : p.Sound) (orderId paymentScope : Value) (closes : Bool)
    (answer : Option Value) : (p.load orderId paymentScope closes answer).2.Sound := by
  have hheld (closed : Bool) : ({ p with closed := closed, held := true } : Port c).Sound := hp
  unfold Port.load
  split
  · exact hp
  · split
    · exact hp
    · dsimp only
      split
      · exact hheld _
      · split
        · exact hheld _
        · split
          · exact hheld _
          · split
            · rename_i e _ hsame
              intro e' he'
              obtain rfl := Option.some.inj he'
              exact hsame
            · exact hheld _

/-- A port that was not loaded takes the envelope of its owner. -/
theorem Port.load_of_accepted {p : Port c} {orderId paymentScope raw : Value} {e : Envelope c}
    (husable : p.usable orderId paymentScope = .ok ()) (hcurrent : p.current = none)
    (hclosed : p.closed = false) (he : envelope c raw = .ok e) (howner : sameOwner e p.token) :
    p.load orderId paymentScope false (some raw)
      = (.ok e.1.record, { p with current := some e }) := by
  obtain ⟨token, closed, held, current⟩ := p
  obtain rfl : closed = false := hclosed
  obtain rfl : current = none := hcurrent
  unfold Port.load
  simp only [husable, he, Option.isSome_none, Bool.false_eq_true, if_false, Bool.or_false,
    if_pos howner]

/-- The port of a token. -/
theorem Port.create_of_accepted {raw : Value} {t : Token} (h : Order.token raw = .ok t) :
    Port.create c raw = .ok ⟨t, false, false, none⟩ := by
  unfold Port.create
  rw [h]
  rfl

theorem Port.settle_sound {p : Port c} (hp : p.Sound) (proposedRecord : Value)
    {checked : Envelope c} (hchecked : sameOwner checked p.token) (swap : Swap) :
    (p.settle proposedRecord checked swap).2.Sound := by
  have hheld (closed : Bool) : ({ p with closed := closed, held := true } : Port c).Sound := hp
  unfold Port.settle
  dsimp only
  split
  · exact hheld _
  · split
    · exact hheld _
    · split
      · exact hheld _
      · split
        · intro e he
          obtain rfl := Option.some.inj he
          exact hchecked
        · exact hheld _

namespace System

variable {σ τ : System c} {event : Event} {a : Attempt c}

theorem mem_modify {α : Type} {xs : List α} {i : Nat} {f : α → α} {x : α} (h : x ∈ xs.modify i f) :
    x ∈ xs ∨ ∃ y ∈ xs, x = f y := by
  obtain ⟨j, hj⟩ := List.mem_iff_getElem?.mp h
  rw [List.getElem?_modify] at hj
  obtain ⟨y, hy, rfl⟩ := Option.map_eq_some_iff.mp hj
  split
  · exact .inr ⟨y, List.mem_of_getElem? hy, rfl⟩
  · exact .inl (List.mem_of_getElem? hy)

theorem modify_concat {α : Type} (f : α → α) (x : α) :
    ∀ xs : List α, (xs ++ [x]).modify xs.length f = xs ++ [f x]
  | [] => rfl
  | y :: ys => congrArg (y :: ·) (modify_concat f x ys)

theorem ports_sound (hσ : σ.Sound) (event : Event) : ∀ p ∈ σ.portsAfter event, p.Sound := by
  have hmodify {i : Nat} {f : Port c → Port c} (hf : ∀ p, p.Sound → (f p).Sound) :
      ∀ p ∈ σ.ports.modify i f, p.Sound := by
    intro p hp
    rcases mem_modify hp with hold | ⟨q, hq, rfl⟩
    · exact hσ.ports p hold
    · exact hf q (hσ.ports q hq)
  cases event with
  | claim storeId orderId paymentScope expected ownerId swap => exact hσ.ports
  | release ownerTokenJson expected swap => exact hσ.ports
  | create ownerTokenJson =>
    cases hcreate : Port.create c ownerTokenJson with
    | error e =>
      rw [portsAfter, hcreate]
      exact hσ.ports
    | ok p =>
      rw [portsAfter, hcreate]
      unfold Port.create at hcreate
      obtain ⟨t, -, hp⟩ := bind_ok.mp hcreate
      obtain rfl := Except.ok.inj hp
      intro p' hp'
      rcases List.mem_append.mp hp' with hold | hnew
      · exact hσ.ports p' hold
      · rw [List.mem_singleton.mp hnew]
        exact fun e he => (by cases he)
  | load port orderId paymentScope closes answer =>
    exact hmodify fun p hp => Port.load_sound hp orderId paymentScope closes answer
  | compareAndSwap port orderId paymentScope expectedRecord proposedRecord swap =>
    refine hmodify fun p hp => ?_
    split
    · rename_i e checked hprepare
      obtain ⟨hcurrent, -, -, hbinding, hstep⟩ := prepare_ok hprepare
      exact Port.settle_sound hp proposedRecord (sameOwner_of (hp e hcurrent) hbinding hstep) swap
    · exact hp
  | close port => exact hmodify fun p hp => hp

/-- What an effective swap replaces and leaves. -/
theorem stored_of_effective (hσ : σ.Sound) (h : σ.attempt event = some a)
    (heffective : σ.effective a = true) :
    σ.stored (a.orderId, a.paymentScope) = a.expected
      ∧ (σ.step event).stored = Function.update σ.stored (a.orderId, a.paymentScope)
      (.str a.proposed.text) := by
  have heq : (σ.stored (a.orderId, a.paymentScope)).strictEq a.expected = true := by
    unfold effective at heffective
    exact (Bool.and_eq_true_iff.mp heffective).2
  constructor
  · rcases hσ.stored (a.orderId, a.paymentScope) with hnull | ⟨e, he, -⟩
    · rw [hnull] at heq ⊢
      cases hexpected : a.expected with
      | null => rfl
      | _ => simp [hexpected, Value.strictEq] at heq
    · obtain ⟨htext, -⟩ := envelope_ok.mp he
      rw [htext] at heq ⊢
      cases hexpected : a.expected with
      | str t =>
        rw [hexpected] at heq
        exact Value.strictEq_str.mp heq
      | _ => simp [hexpected, Value.strictEq] at heq
  · unfold step storedAfter
    rw [h]
    dsimp only
    rw [if_pos heffective]

theorem stored_cases (event : Event) : (σ.step event).stored = σ.stored
    ∨ ∃ a, σ.attempt event = some a ∧ σ.effective a = true := by
  cases h : σ.attempt event with
  | none => exact .inl (by rw [step, storedAfter, h])
  | some a =>
    by_cases heffective : σ.effective a = true
    · exact .inr ⟨a, rfl, heffective⟩
    · left
      rw [step, storedAfter, h]
      exact if_neg heffective

theorem step_sound (hσ : σ.Sound) (event : Event) : (σ.step event).Sound := by
  refine ⟨ports_sound hσ event, fun key => ?_⟩
  rcases stored_cases event with heq | ⟨a, ha, heffective⟩
  · rw [heq]
    exact hσ.stored key
  · have hsound := attempt_sound hσ.ports ha
    rw [(stored_of_effective hσ ha heffective).2]
    by_cases hkey : key = (a.orderId, a.paymentScope)
    · subst hkey
      rw [Function.update_self]
      exact .inr ⟨a.proposed, hsound.accepted, by rw [hsound.binding.1, hsound.binding.2]⟩
    · rw [Function.update_of_ne hkey]
      exact hσ.stored key

end System

/-! ### What is installed -/

/-- What a swap that changes the stored text is: of the next revision; the first of its order, or a
handover that leaves the record, or a record written under the token of the epoch. -/
structure Attempt.Installs (a : Attempt c) : Prop where
  ordered : a.proposed.lease.epoch ≤ a.proposed.lease.revision
  known : a.expected = .null ∨ ∃ e, envelope c a.expected = .ok e
  first : a.expected = .null → a.actor = .handoff ∧ a.proposed.First
  next : ∀ e, envelope c a.expected = .ok e →
    a.proposed.lease.revision = e.lease.revision + 1 ∧ e.lease.Before a.proposed.lease
  handoff : a.actor = .handoff → ∀ e, envelope c a.expected = .ok e →
    a.proposed.lease.epoch = e.lease.epoch + 1 ∧ a.proposed.1.record = e.1.record
      ∧ a.proposed.1.digest = e.1.digest
  port : ∀ t, a.actor = .port t →
    ∃ e, envelope c a.expected = .ok e ∧ sameOwner e t ∧ sameOwner a.proposed t

theorem Attempt.Sound.installs {a : Attempt c} (h : a.Sound)
    (hchange : a.expected ≠ .str a.proposed.text) :
    a.Installs := by
  cases hactor : a.actor with
  | handoff =>
    have hhandover := h.handoff hactor
    refine ⟨a.proposed.ordered, hhandover.known.imp id fun ⟨e, he, _⟩ => ⟨e, he⟩,
      fun hnull => ⟨hactor, hhandover.first hnull⟩, fun e he => ?_, fun _ e he => ?_,
      fun t ht => ?_⟩
    · have hhands := (hhandover.next e he).1
      exact ⟨hhands.revision, Lease.Step.before (.inr hhands)⟩
    · obtain ⟨hhands, hdigest⟩ := hhandover.next e he
      exact ⟨hhands.epoch, hhands.content, hdigest⟩
    · rw [hactor] at ht
      cases ht
  | port t =>
    obtain ⟨e, htext, he, howner, howner', hstep⟩ := h.port t hactor
    have hwrites : e.lease.Writes a.proposed.lease := by
      rcases hstep with heq | hwrites
      · exact absurd (heq ▸ htext) hchange
      · exact hwrites
    refine ⟨a.proposed.ordered, .inr ⟨e, he⟩, fun hnull => ?_, fun e' he' => ?_, fun hhandoff => ?_,
      fun t' ht' => ?_⟩
    · rw [htext] at hnull
      cases hnull
    · obtain rfl := Except.ok.inj (he.symm.trans he')
      exact ⟨hwrites.revision, Lease.Step.before (.inl hwrites)⟩
    · rw [hactor] at hhandoff
      cases hhandoff
    · obtain rfl : t = t' := Actor.port.inj (hactor.symm.trans ht')
      exact ⟨e, he, howner, howner'⟩

/-- What is stored later is of a later lease. -/
def System.Later (σ τ : System c) : Prop := ∀ key e, envelope c (σ.stored key) = .ok e →
  ∃ e', envelope c (τ.stored key) = .ok e' ∧ e.lease.Before e'.lease

theorem System.Later.refl (σ : System c) : σ.Later σ := fun _ e he => ⟨e, he, .refl _⟩

theorem System.Later.trans {σ τ υ : System c} (h : σ.Later τ) (h' : τ.Later υ) : σ.Later υ := by
  intro key e he
  obtain ⟨e', he', hbefore⟩ := h key e he
  obtain ⟨e'', he'', hbefore'⟩ := h' key e' he'
  exact ⟨e'', he'', hbefore.trans hbefore'⟩

namespace SystemStep

variable {σ τ : System c} {l : Option (Attempt c)} {a : Attempt c} {event : Event}

/-- The text that is expected is the one that is stored, and another one takes its place. -/
theorem of_effective (h : σ.attempt event = some a) (hcommits : a.swap.commits = true)
    (hsame : (σ.stored (a.orderId, a.paymentScope)).strictEq a.expected = true)
    (hother : a.expected.strictEq (.str a.proposed.text) = false) : SystemStep σ (some a)
      ⟨Function.update σ.stored (a.orderId, a.paymentScope) (.str a.proposed.text),
        σ.portsAfter event⟩ := by
  have heffective : σ.effective a = true := by rw [System.effective, hcommits, hsame, Bool.and_self]
  refine ⟨event, ?_, ?_⟩
  · rw [System.changes, h, Option.filter_some, heffective, hother]
    rfl
  · rw [System.step, System.storedAfter, h]
    dsimp only
    rw [if_pos heffective]

/-- Where another text is stored than the one that is expected, nothing is. -/
theorem of_stale (h : σ.attempt event = some a)
    (hother : (σ.stored (a.orderId, a.paymentScope)).strictEq a.expected = false) :
    σ.changes event = none ∧ SystemStep σ none ⟨σ.stored, σ.portsAfter event⟩ := by
  have heffective : σ.effective a = false := by rw [System.effective, hother, Bool.and_false]
  have hchanges : σ.changes event = none := by
    rw [System.changes, h, Option.filter_some, heffective]
    rfl
  refine ⟨hchanges, event, hchanges.symm, ?_⟩
  rw [System.step, System.storedAfter, h]
  dsimp only
  rw [if_neg (Bool.eq_false_iff.mp heffective)]

theorem sound (h : SystemStep σ l τ) (hσ : σ.Sound) : τ.Sound := by
  obtain ⟨event, -, rfl⟩ := h
  exact System.step_sound hσ event

/-- A change puts what is proposed in the place of what is expected, and of nothing else. -/
theorem change (h : SystemStep σ (some a) τ) (hσ : σ.Sound) : a.Installs
    ∧ σ.stored (a.orderId, a.paymentScope) = a.expected
    ∧ envelope c (τ.stored (a.orderId, a.paymentScope)) = .ok a.proposed
    ∧ ∀ key, key ≠ (a.orderId, a.paymentScope) → τ.stored key = σ.stored key := by
  obtain ⟨event, hl, rfl⟩ := h
  obtain ⟨ha, hchange⟩ := Option.filter_eq_some_iff.mp hl.symm
  rw [Bool.and_eq_true] at hchange
  have hsound := System.attempt_sound hσ.ports ha
  obtain ⟨hstored, hnext⟩ := System.stored_of_effective hσ ha hchange.1
  refine ⟨hsound.installs fun heq => ?_, hstored, ?_, fun key hkey => ?_⟩
  · rw [heq, Value.strictEq_str.mpr rfl] at hchange
    cases hchange.2
  · rw [hnext, Function.update_self]
    exact hsound.accepted
  · rw [hnext, Function.update_of_ne hkey]

/-- A step that is no change leaves everything that is stored. -/
theorem unchanged (h : SystemStep σ none τ) (hσ : σ.Sound) : τ.stored = σ.stored := by
  obtain ⟨event, hl, rfl⟩ := h
  rcases System.stored_cases event with heq | ⟨a, ha, heffective⟩
  · exact heq
  · obtain ⟨hstored, hnext⟩ := System.stored_of_effective hσ ha heffective
    have hsame : a.expected.strictEq (.str a.proposed.text) = true := by
      rw [System.changes, ha] at hl
      by_contra hne
      rw [Option.filter_some, heffective, Bool.eq_false_iff.mpr hne] at hl
      cases hl
    rw [hnext, ← Value.strictEq_str.mp hsame, ← hstored]
    exact Function.update_eq_self ..

theorem later (h : SystemStep σ l τ) (hσ : σ.Sound) : σ.Later τ := by
  cases l with
  | none =>
    intro key e he
    rw [h.unchanged hσ]
    exact ⟨e, he, .refl _⟩
  | some a =>
    obtain ⟨hinstalls, hstored, hnew, hother⟩ := h.change hσ
    intro key e he
    by_cases hkey : key = (a.orderId, a.paymentScope)
    · subst hkey
      rw [hstored] at he
      exact ⟨a.proposed, hnew, (hinstalls.next e he).2⟩
    · rw [hother key hkey]
      exact ⟨e, he, .refl _⟩

end SystemStep

/-! ### Runs -/

section

variable {σ₀ σ : System c} {changes : List (Option (Attempt c))}

theorem run_sound (h₀ : σ₀.Sound) (h : Run SystemStep σ₀ changes σ) : σ.Sound :=
  h.invariant (fun _ _ _ hs hstep => hstep.sound hs) h₀

theorem run_later (h₀ : σ₀.Sound) (h : Run SystemStep σ₀ changes σ) : σ₀.Later σ :=
  h.relates System.Later.refl System.Later.trans (fun _ _ _ hs hstep => hstep.sound hs)
    (fun _ _ _ hs hstep => hstep.later hs) h₀

/-- What is expected by a change is of a later lease than what an earlier change of the same order
left. -/
theorem run_between {pre mid post : List (Option (Attempt c))} {a b : Attempt c} (h₀ : σ₀.Sound)
    (h : Run SystemStep σ₀ (pre ++ some a :: (mid ++ some b :: post)) σ)
    (hkey : (b.orderId, b.paymentScope) = (a.orderId, a.paymentScope)) :
    a.Installs ∧ b.Installs ∧ ∃ e, envelope c b.expected = .ok e
      ∧ a.proposed.lease.Before e.lease := by
  obtain ⟨σ₁, hpre, hrest⟩ := h.split
  have h₁ := run_sound h₀ hpre
  cases hrest with
  | cons hstep hrest =>
    have h₂ := hstep.sound h₁
    obtain ⟨σ₃, hmid, hrest⟩ := hrest.split
    have h₃ := run_sound h₂ hmid
    cases hrest with
    | cons hstep' _ =>
      obtain ⟨hinstalls, -, hnew, -⟩ := hstep.change h₁
      obtain ⟨hinstalls', hstored, -, -⟩ := hstep'.change h₃
      obtain ⟨e, he, hbefore⟩ := run_later h₂ hmid _ _ hnew
      rw [← hkey, hstored] at he
      exact ⟨hinstalls, hinstalls', e, he, hbefore⟩

theorem run_installs {pre post : List (Option (Attempt c))} {a : Attempt c} (h₀ : σ₀.Sound)
    (h : Run SystemStep σ₀ (pre ++ some a :: post) σ) :
    a.Installs ∧ ∃ σ₁ σ₂, Run SystemStep σ₀ pre σ₁
      ∧ σ₁.stored (a.orderId, a.paymentScope) = a.expected
      ∧ envelope c (σ₂.stored (a.orderId, a.paymentScope)) = .ok a.proposed
      ∧ Run SystemStep σ₂ post σ := by
  obtain ⟨σ₁, hpre, hrest⟩ := h.split
  cases hrest with
  | cons hstep hpost =>
    obtain ⟨hinstalls, hstored, hnew, -⟩ := hstep.change (run_sound h₀ hpre)
    exact ⟨hinstalls, σ₁, _, hpre, hstored, hnew, hpost⟩

/-- Once an envelope is installed, no port of an earlier epoch installs another. -/
theorem epoch_fences {pre mid post : List (Option (Attempt c))} {a b : Attempt c} (h₀ : σ₀.Sound)
    (h : Run SystemStep σ₀ (pre ++ some a :: (mid ++ some b :: post)) σ)
    (hkey : (b.orderId, b.paymentScope) = (a.orderId, a.paymentScope)) :
    a.proposed.lease.epoch ≤ b.proposed.lease.epoch
      ∧ ∀ t, b.actor = .port t → a.proposed.lease.epoch ≤ t.epoch.value := by
  obtain ⟨-, hinstalls, e, he, hbefore⟩ := run_between h₀ h hkey
  refine ⟨hbefore.epoch.trans (hinstalls.next e he).2.epoch, fun t ht => ?_⟩
  obtain ⟨e', he', howner, -⟩ := hinstalls.port t ht
  obtain rfl := Except.ok.inj (he.symm.trans he')
  have hepoch : e.lease.epoch = t.epoch.value := congrArg Positive.value howner.2.2
  exact hbefore.epoch.trans hepoch.le

/-- Of the tokens of one epoch, only those of one owner install anything. -/
theorem epoch_owner {pre mid post : List (Option (Attempt c))} {a b : Attempt c} {t u : Token}
    (h₀ : σ₀.Sound) (h : Run SystemStep σ₀ (pre ++ some a :: (mid ++ some b :: post)) σ)
    (hkey : (b.orderId, b.paymentScope) = (a.orderId, a.paymentScope)) (ha : a.actor = .port t)
    (hb : b.actor = .port u) (hepoch : t.epoch = u.epoch) : t.ownerId = u.ownerId := by
  obtain ⟨hinstalls, hinstalls', e, he, hbefore⟩ := run_between h₀ h hkey
  obtain ⟨-, -, -, howner⟩ := hinstalls.port t ha
  obtain ⟨e', he', howner', -⟩ := hinstalls'.port u hb
  obtain rfl := Except.ok.inj (he.symm.trans he')
  have hsame : e.lease.epoch = a.proposed.lease.epoch := by
    have hleft : a.proposed.lease.epoch = t.epoch.value := congrArg Positive.value howner.2.2
    have hright : e.lease.epoch = u.epoch.value := congrArg Positive.value howner'.2.2
    rw [hleft, hright, hepoch]
  have hid : some u.ownerId = some t.ownerId := by
    rw [← howner'.1, ← howner.1]
    exact hbefore.owner hsame
  exact (Option.some.inj hid).symm

/-- Claims, releases and ports over one backend, in any order and however stale, are fenced by their
epochs. -/
theorem ownership_fencing (h₀ : σ₀.Sound) (h : Run SystemStep σ₀ changes σ) :
    (∀ pre a post, changes = pre ++ some a :: post → a.Installs ∧ ∃ σ₁ σ₂, Run SystemStep σ₀ pre σ₁
      ∧ σ₁.stored (a.orderId, a.paymentScope) = a.expected
      ∧ envelope c (σ₂.stored (a.orderId, a.paymentScope)) = .ok a.proposed
      ∧ Run SystemStep σ₂ post σ)
    ∧ (∀ pre a mid b post, changes = pre ++ some a :: (mid ++ some b :: post) →
      (b.orderId, b.paymentScope) = (a.orderId, a.paymentScope) →
      a.proposed.lease.epoch ≤ b.proposed.lease.epoch
        ∧ ∀ t, b.actor = .port t → a.proposed.lease.epoch ≤ t.epoch.value)
    ∧ ∀ pre a mid b post, changes = pre ++ some a :: (mid ++ some b :: post) →
      (b.orderId, b.paymentScope) = (a.orderId, a.paymentScope) → ∀ t u, a.actor = .port t →
      b.actor = .port u →
      t.epoch = u.epoch → t.ownerId = u.ownerId := by
  refine ⟨?_, ?_, ?_⟩
  · rintro pre a post rfl
    exact run_installs h₀ h
  · rintro pre a mid b post rfl hkey
    exact epoch_fences h₀ h hkey
  · rintro pre a mid b post rfl hkey t u ha hb hepoch
    exact epoch_owner h₀ h hkey ha hb hepoch

end

end Order
end ZenonX402
