/-
# The envelopes of an order's records

What the two storage contracts of a purchased order keep around a record: whose
it is, in which epoch and at which revision, and the record with its digest.
`service-purchase-order-fulfillment-cas-contract.js` and
`service-purchase-order-funding-cas-contract.js` are one contract but for the
record they hold (`Contract`). An envelope has one text of its own
(`envelope_ok`); the text that follows another one is of a lease that follows the
other's (`requireTransition_ok`).

A text that does not hold a record fails in one way here, whatever its record
fails with.

Key definitions: `Contract`, `Envelope`, `envelope`, `Token`, `requireTransition`.
Key theorems: `envelope_ok`, `requireTransition_ok`, `requireTransition_of_writes`,
`requireTransition_of_handsOver`.
-/
import ZenonX402.Lib.Fence
import ZenonX402.Lib.Loop
import ZenonX402.Lib.Record
import ZenonX402.Lib.Text

namespace ZenonX402
namespace Order

open Js

/-- The suffix of an `ORDER_FULFILLMENT_CAS_` or `ORDER_FUNDING_CAS_` code. -/
inductive Failure
  | INVALID_INPUT
  | VERSION_EXHAUSTED
  | RECORD_REMOVAL
  | INITIAL_RECORD_NOT_EMPTY
  | RECORD_BINDING_CHANGED
  | FUNDING_REPLACEMENT
  | FUNDED_TRANSITION_REQUIRED
  | RECORD_CHANGE_REQUIRED
  | COMPENSATION_ORIGINAL_REQUIRED
  | COMPENSATION_REPLACEMENT
  | COMPENSATION_DOWNGRADE
  | COMPENSATION_ALREADY_RETAINED
  | DELIVERY_INTENT_REQUIRED
  | DELIVERY_REMOVAL_OR_BATCH
  | DELIVERY_REPLACEMENT
  | TERMINAL_DELIVERY_CHANGED
  | DELIVERY_DOWNGRADE
  | ONE_DELIVERY_TRANSITION_REQUIRED
  | RECEIPT_REMOVAL
  | ORIGINAL_REQUIRED
  | RECEIPT_BINDING_CHANGED
  | RECEIPT_CHANGE_REQUIRED
  | VERIFIED_RECEIPT_CHANGED
  | ATTEMPT_REQUIRED
  | PENDING_CANDIDATE_CHANGED
  | INVALID_INITIAL_CLAIM
  | ENVELOPE_BINDING_CHANGED
  | REVISION_REQUIRED
  | OWNER_EPOCH_REQUIRED
  | HANDOFF_CHANGED_RECORD
  | HANDOFF_CHANGED_RECEIPT
  | ALREADY_RELEASED
  | OWNERSHIP_ACK_UNKNOWN
  | OWNERSHIP_CONFLICT
  | FENCED
  | CLOSED
  | HELD
  | BINDING_CONFLICT
  | ALREADY_LOADED
  | READ_UNKNOWN
  | CORRUPT
  | RECOVERY_REQUIRED
  | EXPECTATION_CONFLICT
  | INVALID_RECORD
  | COMMIT_UNKNOWN
  deriving DecidableEq, Repr

/-! ### Fields -/

def isId (s : String) : Bool :=
  Text.headTail Text.isAlnum (fun c => Text.isAlnum c || Text.oneOf "._:-" c) 127 s

def isHash (s : String) : Bool := Text.prefixed "sha256:" Text.isHexLower 64 s

abbrev Id := {s : String // isId s = true}

abbrev Hash := {s : String // isHash s = true}

/-- A safe integer from one on. -/
def isPositive (n : Int) : Bool := decide (1 ≤ n)

abbrev Positive := {n : Int // n.natAbs ≤ 9007199254740991 ∧ isPositive n = true}

def Positive.value (n : Positive) : Nat := n.1.natAbs

section

variable {ε : Type} (e : ε)

def idCodec : Codec ε Id := .text isId e

def hashCodec : Codec ε Hash := .text isHash e

def positiveCodec : Codec ε Positive := .integer isPositive e

def optionalText : Codec ε (Option String) := (Codec.string e).nullable fun _ => nofun

end

theorem Positive.value_eq (n : Positive) :
    (n.value : Int) = n.1 ∧ 1 ≤ n.value ∧ n.value ≤ 9007199254740991 := by
  obtain ⟨n, hn, hpos⟩ := n
  have hle : 1 ≤ n := of_decide_eq_true hpos
  unfold Positive.value
  simp only
  omega

theorem Positive.value_inj {n m : Positive} (h : n.value = m.value) : n = m := by
  have hn := n.value_eq.1
  have hm := m.value_eq.1
  exact Subtype.ext (by omega)

/-- One, where a count begins. -/
def Positive.one : Positive := ⟨1, by decide⟩

def next (n : Positive) : Except Failure Positive :=
  if h : n.1 + 1 ≤ 9007199254740991 then .ok ⟨n.1 + 1, by
    have hn := n.value_eq.2.1
    have hpos : 1 ≤ n.1 := of_decide_eq_true n.2.2
    exact ⟨by omega, decide_eq_true (by omega)⟩⟩
  else .error .VERSION_EXHAUSTED

theorem next_ok {n m : Positive} : next n = .ok m ↔ m.value = n.value + 1 := by
  have hn := n.value_eq
  have hm := m.value_eq
  unfold next
  constructor
  · intro h
    split at h
    · obtain rfl := Except.ok.inj h
      have hsucc : ((n.1 + 1).natAbs : Int) = n.1 + 1 := by omega
      unfold Positive.value at hn ⊢
      simp only
      omega
    · cases h
  · intro h
    have hsucc : n.1 + 1 = m.1 := by omega
    rw [dif_pos (by omega)]
    exact congrArg Except.ok (Subtype.ext hsucc)

/-! ### Contracts -/

/-- A record, or `null`. -/
def recordValue : Option String → Value
  | none => .null
  | some raw => .str raw

inductive Kind
  | fulfillment
  | funding
  deriving DecidableEq

namespace Kind

/-- The key of the record, and the key of its digest. -/
def recordKey : Kind → String
  | fulfillment => "recordJson"
  | funding => "receiptJson"

def digestKey : Kind → String
  | fulfillment => "recordDigest"
  | funding => "receiptDigest"

/-- The bytes of an envelope at most. -/
def cap : Kind → Nat
  | fulfillment => 4194304
  | funding => 1048576

def handoffChanged : Kind → Failure
  | fulfillment => .HANDOFF_CHANGED_RECORD
  | funding => .HANDOFF_CHANGED_RECEIPT

end Kind

/-- What is particular to a contract: the digest of a record's text, whether a text is a record for
an order and a payment scope, which record may take the place of which, and what `compareAndSwap`
asks of a record before it makes an envelope of it. -/
structure Contract where
  kind : Kind
  digest : String → String
  record : String → Id → Hash → Bool
  transition : Option String → Option String → Id → Hash → Except Failure Unit
  admits : Value → Id → Hash → Except Failure String

/-- The order, its payment, and the store it is kept in. -/
structure Binding where
  storeId : Id
  orderId : Id
  paymentScope : Hash
  deriving DecidableEq

structure EnvelopeFields where
  binding : Binding
  ownerId : Option Id
  epoch : Positive
  revision : Positive
  record : Option String
  digest : Option String
  deriving DecidableEq

/-- The checks of `envelope` after the fields. -/
def EnvelopeFields.checked (c : Contract) (e : EnvelopeFields) : Bool :=
  decide (e.epoch.value ≤ e.revision.value) && decide (e.digest = e.record.map c.digest)
    && e.record.all fun raw => c.record raw e.binding.orderId e.binding.paymentScope

abbrev Envelope (c : Contract) := {e : EnvelopeFields // e.checked c = true}

def envelopeFieldsCodec (kind : Kind) : Codec Failure EnvelopeFields :=
  (object (.const "version" (.constNum 1 .INVALID_INPUT)
    (.cons "storeId" (idCodec .INVALID_INPUT)
    (.cons "orderId" (idCodec .INVALID_INPUT)
    (.cons "paymentScope" (hashCodec .INVALID_INPUT)
    (.cons "ownerId" ((idCodec .INVALID_INPUT).nullable fun _ => nofun)
    (.cons "epoch" (positiveCodec .INVALID_INPUT)
    (.cons "revision" (positiveCodec .INVALID_INPUT)
    (.cons kind.recordKey (optionalText .INVALID_INPUT)
    (.cons kind.digestKey (optionalText .INVALID_INPUT)
      .nil))))))))) Failure.INVALID_INPUT (by cases kind <;> decide)).equiv
    { toFun := fun (a, b, c, d, e, f, g, h, _) => ⟨⟨a, b, c⟩, d, e, f, g, h⟩
      invFun := fun e => (e.binding.storeId, e.binding.orderId, e.binding.paymentScope, e.ownerId,
        e.epoch, e.revision, e.record, e.digest, ())
      left_inv := fun _ => rfl
      right_inv := fun _ => rfl }

def envelopeCodec (c : Contract) : Codec Failure (Envelope c) :=
  (envelopeFieldsCodec c.kind).refine (EnvelopeFields.checked c) .INVALID_INPUT

def envelope (c : Contract) (raw : Value) : Except Failure (Envelope c) :=
  (envelopeCodec c).ofText c.kind.cap .INVALID_INPUT raw

/-- The text of an envelope. -/
def Envelope.text {c : Contract} (e : Envelope c) : String := stringify ((envelopeCodec c).encode e)

theorem envelope_ok {c : Contract} {v : Value} {e : Envelope c} :
    envelope c v = .ok e ↔ v = .str e.text ∧ e.text.utf8ByteSize ≤ c.kind.cap := Codec.ofText_ok

/-- `encode`: the fields as a text that `envelope` accepts. -/
def encode (c : Contract) (e : EnvelopeFields) : Except Failure String := do
  let raw := stringify ((envelopeFieldsCodec c.kind).encode e)
  let _ ← envelope c (.str raw)
  .ok raw

theorem encode_ok {c : Contract} {f : EnvelopeFields} {raw : String} :
    encode c f = .ok raw ↔ ∃ e : Envelope c, e.1 = f ∧ raw = e.text ∧ e.text.utf8ByteSize
      ≤ c.kind.cap := by
  unfold encode
  simp only [bind_ok, Except.ok.injEq]
  constructor
  · rintro ⟨e, he, rfl⟩
    obtain ⟨htext, hsize⟩ := envelope_ok.mp he
    have hf : f = e.1 := by
      refine (envelopeFieldsCodec c.kind).encode_injective ?_
      have henc := stringify_inj ((envelopeFieldsCodec c.kind).json_encode f)
        ((envelopeCodec c).json_encode e)
        (Value.str.inj htext)
      rw [henc]
      exact Value.Same.refl _
    exact ⟨e, hf.symm, Value.str.inj htext, hsize⟩
  · rintro ⟨e, rfl, rfl, hsize⟩
    exact ⟨e, envelope_ok.mpr ⟨rfl, hsize⟩, rfl⟩

/-- The lease that an envelope is. -/
def Envelope.lease {c : Contract} (e : Envelope c) : Lease Id (Option String) :=
  ⟨e.1.ownerId, e.1.epoch.value, e.1.revision.value, e.1.record⟩

theorem Envelope.ordered {c : Contract} (e : Envelope c) : e.lease.epoch ≤ e.lease.revision := by
  have h := e.2
  unfold EnvelopeFields.checked at h
  rw [Bool.and_eq_true, Bool.and_eq_true, decide_eq_true_eq] at h
  exact h.1.1

theorem Envelope.digest_eq {c : Contract} (e : Envelope c) :
    e.1.digest = e.1.record.map c.digest := by
  have h := e.2
  unfold EnvelopeFields.checked at h
  rw [Bool.and_eq_true, Bool.and_eq_true, decide_eq_true_eq, decide_eq_true_eq] at h
  exact h.1.2

/-! ### Tokens -/

structure Token where
  binding : Binding
  ownerId : Id
  epoch : Positive
  deriving DecidableEq

def tokenCodec : Codec Failure Token :=
  (object (.const "version" (.constNum 1 .INVALID_INPUT)
    (.cons "storeId" (idCodec .INVALID_INPUT)
    (.cons "orderId" (idCodec .INVALID_INPUT)
    (.cons "paymentScope" (hashCodec .INVALID_INPUT)
    (.cons "ownerId" (idCodec .INVALID_INPUT)
    (.cons "epoch" (positiveCodec .INVALID_INPUT)
      .nil)))))) Failure.INVALID_INPUT).equiv
    { toFun := fun (a, b, c, d, e, _) => ⟨⟨a, b, c⟩, d, e⟩
      invFun := fun t => (t.binding.storeId, t.binding.orderId, t.binding.paymentScope,
        t.ownerId, t.epoch, ())
      left_inv := fun _ => rfl
      right_inv := fun _ => rfl }

def token (raw : Value) : Except Failure Token := tokenCodec.ofText 4096 .INVALID_INPUT raw

def sameOwner {c : Contract} (e : Envelope c) (t : Token) : Prop :=
  e.1.ownerId = some t.ownerId ∧ e.1.binding = t.binding ∧ e.1.epoch = t.epoch

instance {c : Contract} (e : Envelope c) (t : Token) : Decidable (sameOwner e t) :=
  inferInstanceAs (Decidable (_ ∧ _ ∧ _))

/-! ### Transitions -/

/-- `requirePurchasedOrderFulfillmentEnvelopeTransition`,
`requirePurchasedOrderFundingEnvelopeTransition`. -/
def requireTransition (c : Contract) (expected proposed : Value) : Except Failure (Envelope c) := do
  let b ← envelope c proposed
  if expected.strictEq .null then do
    rejectIf (b.1.ownerId = none ∨ b.1.epoch ≠ .one ∨ b.1.revision ≠ .one ∨ b.1.record ≠ none)
      .INVALID_INITIAL_CLAIM
    .ok b
  else do
    let a ← envelope c expected
    rejectIf (a.1.binding ≠ b.1.binding) .ENVELOPE_BINDING_CHANGED
    if expected.strictEq proposed then .ok b
    else do
      let revision ← next a.1.revision
      rejectIf (b.1.revision ≠ revision) .REVISION_REQUIRED
      if b.1.epoch = a.1.epoch then do
        rejectIf (a.1.ownerId = none ∨ b.1.ownerId ≠ a.1.ownerId) .OWNER_EPOCH_REQUIRED
        c.transition a.1.record b.1.record a.1.binding.orderId a.1.binding.paymentScope
        .ok b
      else do
        let epoch ← next a.1.epoch
        rejectIf (b.1.epoch ≠ epoch ∨ b.1.record ≠ a.1.record ∨ b.1.digest ≠ a.1.digest)
          c.kind.handoffChanged
        rejectIf (a.1.ownerId = none ∧ b.1.ownerId = none) .ALREADY_RELEASED
        .ok b

/-- A first envelope: claimed, and empty. -/
structure Envelope.First {c : Contract} (e : Envelope c) : Prop where
  owner : e.1.ownerId ≠ none
  epoch : e.1.epoch = .one
  revision : e.1.revision = .one
  record : e.1.record = none

/-- What may take the place of an envelope. -/
inductive Envelope.Follows {c : Contract} (a b : Envelope c) : Prop
  | writes (h : a.lease.Writes b.lease)
      (htransition : c.transition a.1.record b.1.record a.1.binding.orderId a.1.binding.paymentScope
        = .ok ())
  | handsOver (h : a.lease.HandsOver b.lease) (hdigest : b.1.digest = a.1.digest)

theorem Envelope.Follows.step {c : Contract} {a b : Envelope c} (h : a.Follows b) :
    a.lease.Step b.lease := by
  cases h with
  | writes h _ => exact .inl h
  | handsOver h _ => exact .inr h

theorem requireTransition_ok {c : Contract} {v w : Value} {b : Envelope c}
    (h : requireTransition c v w = .ok b) :
    envelope c w = .ok b ∧ ((v = .null ∧ b.First)
      ∨ ∃ a, envelope c v = .ok a ∧ a.1.binding = b.1.binding ∧ (v = w ∨ a.Follows b)) := by
  unfold requireTransition at h
  obtain ⟨b', hb', h⟩ := bind_ok.mp h
  split at h
  · rename_i hnull
    obtain ⟨_, hfirst, h⟩ := bind_ok.mp h
    obtain rfl := Except.ok.inj h
    rw [rejectIf_ok] at hfirst
    simp only [not_or, not_not, ne_eq] at hfirst
    exact ⟨hb', .inl ⟨Value.strictEq_null.mp hnull, hfirst.1, hfirst.2.1, hfirst.2.2.1,
      hfirst.2.2.2⟩⟩
  · obtain ⟨a, ha, h⟩ := bind_ok.mp h
    obtain ⟨_, hbinding, h⟩ := bind_ok.mp h
    rw [rejectIf_ok, not_not] at hbinding
    split at h
    · rename_i heq
      obtain rfl := Except.ok.inj h
      obtain ⟨htext, -⟩ := envelope_ok.mp hb'
      rw [htext, Value.strictEq_str, ← htext] at heq
      exact ⟨hb', .inr ⟨a, ha, hbinding, .inl heq⟩⟩
    · obtain ⟨revision, hrevision, h⟩ := bind_ok.mp h
      obtain ⟨_, hnext, h⟩ := bind_ok.mp h
      rw [rejectIf_ok, not_not] at hnext
      rw [next_ok, ← hnext] at hrevision
      split at h
      · rename_i hepoch
        obtain ⟨_, howner, h⟩ := bind_ok.mp h
        obtain ⟨_, htransition, h⟩ := bind_ok.mp h
        obtain rfl := Except.ok.inj h
        rw [rejectIf_ok, not_or, not_not] at howner
        refine ⟨hb', .inr ⟨a, ha, hbinding,
          .inr (.writes ⟨howner.1, howner.2, ?_, hrevision⟩ htransition)⟩⟩
        exact congrArg Positive.value hepoch
      · obtain ⟨epoch, hepoch, h⟩ := bind_ok.mp h
        obtain ⟨_, hhandoff, h⟩ := bind_ok.mp h
        obtain ⟨_, _, h⟩ := bind_ok.mp h
        obtain rfl := Except.ok.inj h
        rw [rejectIf_ok] at hhandoff
        simp only [not_or, not_not, ne_eq] at hhandoff
        rw [next_ok, ← hhandoff.1] at hepoch
        exact ⟨hb', .inr ⟨a, ha, hbinding,
          .inr (.handsOver ⟨hepoch, hrevision, hhandoff.2.1⟩ hhandoff.2.2)⟩⟩

/-- A write under the owner and the epoch of an envelope may take its place, where the record may.
-/
theorem requireTransition_of_writes {c : Contract} {a b : Envelope c}
    (ha : a.text.utf8ByteSize ≤ c.kind.cap) (hb : b.text.utf8ByteSize ≤ c.kind.cap)
    (hbinding : a.1.binding = b.1.binding) (h : a.lease.Writes b.lease)
    (htransition : c.transition a.1.record b.1.record a.1.binding.orderId a.1.binding.paymentScope
      = .ok ()) :
    requireTransition c (.str a.text) (.str b.text) = .ok b := by
  have hrevision : next a.1.revision = .ok b.1.revision := next_ok.mpr h.revision
  have hepoch : b.1.epoch = a.1.epoch := Positive.value_inj h.epoch
  unfold requireTransition
  rw [bind_ok]
  refine ⟨b, envelope_ok.mpr ⟨rfl, hb⟩, ?_⟩
  rw [if_neg (by simp [Value.strictEq])]
  simp only [bind_ok, rejectIf_ok, not_not, ne_eq]
  refine ⟨a, envelope_ok.mpr ⟨rfl, ha⟩, (), hbinding, ?_⟩
  rw [if_pos hepoch]
  split
  · rfl
  · simp only [bind_ok, rejectIf_ok, not_not, not_or]
    exact ⟨b.1.revision, hrevision, (), rfl, (), ⟨h.owned, h.owner⟩, (), htransition, trivial⟩

/-- A first envelope may be stored where there is none. -/
theorem requireTransition_of_first {c : Contract} {b : Envelope c}
    (hb : b.text.utf8ByteSize ≤ c.kind.cap) (h : b.First) :
    requireTransition c .null (.str b.text) = .ok b := by
  unfold requireTransition
  rw [bind_ok]
  refine ⟨b, envelope_ok.mpr ⟨rfl, hb⟩, ?_⟩
  rw [if_pos (Value.strictEq_null.mpr rfl)]
  simp only [bind_ok, rejectIf_ok, not_or, not_not, ne_eq]
  exact ⟨(), ⟨h.owner, h.epoch, h.revision, h.record⟩, trivial⟩

/-- An envelope of an owner may be handed over to the next epoch. -/
theorem requireTransition_of_handsOver {c : Contract} {a b : Envelope c}
    (ha : a.text.utf8ByteSize ≤ c.kind.cap) (hb : b.text.utf8ByteSize ≤ c.kind.cap)
    (hbinding : a.1.binding = b.1.binding) (h : a.lease.HandsOver b.lease)
    (hdigest : b.1.digest = a.1.digest) (howned : b.1.ownerId ≠ none) :
    requireTransition c (.str a.text) (.str b.text) = .ok b := by
  have hrevision : next a.1.revision = .ok b.1.revision := next_ok.mpr h.revision
  have hepoch : next a.1.epoch = .ok b.1.epoch := next_ok.mpr h.epoch
  unfold requireTransition
  rw [bind_ok]
  refine ⟨b, envelope_ok.mpr ⟨rfl, hb⟩, ?_⟩
  rw [if_neg (by simp [Value.strictEq])]
  simp only [bind_ok, rejectIf_ok, not_not, ne_eq]
  refine ⟨a, envelope_ok.mpr ⟨rfl, ha⟩, (), hbinding, ?_⟩
  split
  · rfl
  · have hnew : b.1.epoch ≠ a.1.epoch := fun heq => by
      have hvalue : b.1.epoch.value = a.1.epoch.value + 1 := h.epoch
      rw [heq] at hvalue
      omega
    rw [if_neg hnew]
    simp only [bind_ok, rejectIf_ok, not_not, not_or, not_and]
    exact ⟨b.1.revision, hrevision, (), rfl, b.1.epoch, hepoch, (), ⟨rfl, h.content, hdigest⟩, (),
      fun _ => howned, trivial⟩

end Order
end ZenonX402
