/-
# An owner of a fulfillment behind its port

The port of `createPurchasedOrderFulfillmentStatePort` puts the record that an owner
proposes into the next envelope, and asks the storage contract about it. The text of
an envelope is at most twice that of its record and a little more, so it always fits
(`Envelope.fits`), and what an owner proposes is a transition of the contract; so a
port that holds the envelope of the record which the owner knows refuses nothing but
to count further than to the last revision (`owner_within_contract`). Under this contract
a claim, a write, another claim and a late write of the first port are run
(`ownership_fencing_sample`).

Key theorems: `Envelope.fits`, `asked_of_accepted`, `owner_within_contract`.
-/
import ZenonX402.Order.FulfillmentContract

namespace ZenonX402
namespace Order

open Js

variable {w : Wire}

/-! ### The text of an envelope -/

/-- An owner, or `null`. -/
def ownerValue : Option Id → Value
  | none => .null
  | some s => .str s.1

theorem textSize_id (s : Id) : Value.textSize (.str s.1) ≤ 770 :=
  (Value.utf8Len_writeString s.1).trans (by have := size_id s; omega)

theorem textSize_owner (s : Option Id) : Value.textSize (ownerValue s) ≤ 770 := by
  cases s with
  | none => exact (show Value.textSize .null ≤ 770 by decide)
  | some s => exact textSize_id s

theorem textSize_hash (s : Hash) : Value.textSize (.str s.1) ≤ 428 :=
  (Value.utf8Len_writeString s.1).trans (by have := size_hash s; omega)

theorem textSize_positive (n : Positive) : Value.textSize (.num n.1) ≤ 17 :=
  Value.textSize_num_le n.2.1

/-- A record is of at most `recordCap` bytes. -/
theorem size_of_record {raw : String} {orderId : Id} {paymentScope : Hash} {r : FulfillmentRecord}
    (h : record w raw orderId paymentScope = .ok r) : r.text.utf8ByteSize ≤ recordCap := by
  unfold record at h
  obtain ⟨r', hr', h⟩ := bind_ok.mp h
  simp only [bind_ok, Except.ok.injEq] at h
  obtain ⟨_, _, _, _, _, _, _, _, _, _, rfl⟩ := h
  exact (Codec.ofText_ok.mp hr').2

theorem record_toBool {raw : String} {orderId : Id} {paymentScope : Hash} :
    (fulfillmentContract w).record raw orderId paymentScope = true ↔ ∃ r,
    record w raw orderId paymentScope = .ok r := by
  change (record w raw orderId paymentScope).toBool = true ↔ _
  cases record w raw orderId paymentScope <;> simp [Except.toBool]

/-- The text of a record inside that of its envelope. -/
theorem textSize_stored (e : Envelope (fulfillmentContract w)) :
    Value.textSize (recordValue e.1.record) ≤ 2097154 := by
  cases hrecord : e.1.record with
  | none => exact (show Value.textSize .null ≤ 2097154 by decide)
  | some raw =>
    have hchecked := e.2
    unfold EnvelopeFields.checked at hchecked
    rw [Bool.and_eq_true, hrecord] at hchecked
    obtain ⟨r, hr⟩ := record_toBool.mp (Option.all_some.symm.trans hchecked.2)
    have hsize := size_of_record hr
    rw [record_text hr]
    refine (Value.textSize_nested (fulfillmentRecordCodec.encode r)).trans ?_
    change 2 * r.text.utf8ByteSize + 2 ≤ 2097154
    have hcap : recordCap = 1048576 := rfl
    omega

theorem textSize_digest (e : Envelope (fulfillmentContract w)) :
    Value.textSize (recordValue e.1.digest) ≤ 428 := by
  rw [e.digest_eq]
  cases e.1.record with
  | none => exact (show Value.textSize .null ≤ 428 by decide)
  | some raw => exact textSize_hash (digest w "zenon-x402:order-fulfillment-cas-record:v1" raw)

/-- Envelopes of fulfillment records are never too long. -/
theorem Envelope.fits (e : Envelope (fulfillmentContract w)) :
    e.text.utf8ByteSize ≤ Kind.fulfillment.cap := by
  have hrecord := textSize_stored e
  have hdigest := textSize_digest e
  have hstore := textSize_id e.1.binding.storeId
  have horder := textSize_id e.1.binding.orderId
  have hscope := textSize_hash e.1.binding.paymentScope
  have howner := textSize_owner e.1.ownerId
  have hepoch := textSize_positive e.1.epoch
  have hrevision := textSize_positive e.1.revision
  have hkeys : Value.textSize (.str "version") = 9 ∧ Value.textSize (.str "storeId") = 9
      ∧ Value.textSize (.str "orderId") = 9
      ∧ Value.textSize (.str "paymentScope") = 14 ∧ Value.textSize (.str "ownerId") = 9
      ∧ Value.textSize (.str "epoch") = 7
      ∧ Value.textSize (.str "revision") = 10 ∧ Value.textSize (.str "recordJson") = 12
      ∧ Value.textSize (.str "recordDigest") = 14 ∧ Value.textSize (.num 1) = 1 := by decide
  unfold Envelope.text
  rw [Value.size_stringify]
  have hencode : (envelopeCodec (fulfillmentContract w)).encode e = .obj [("version", .num 1),
      ("storeId", .str e.1.binding.storeId.1), ("orderId", .str e.1.binding.orderId.1),
      ("paymentScope", .str e.1.binding.paymentScope.1), ("ownerId", ownerValue e.1.ownerId),
      ("epoch", .num e.1.epoch.1),
      ("revision", .num e.1.revision.1), ("recordJson", recordValue e.1.record),
      ("recordDigest", recordValue e.1.digest)] := by
    rcases e with ⟨⟨binding, ownerId, epoch, revision, record, digest⟩, hchecked⟩
    cases ownerId <;> cases record <;> cases digest <;> rfl
  have hsize := Value.textSize_obj_le [("version", .num 1),
      ("storeId", .str e.1.binding.storeId.1), ("orderId", .str e.1.binding.orderId.1),
      ("paymentScope", .str e.1.binding.paymentScope.1), ("ownerId", ownerValue e.1.ownerId),
      ("epoch", .num e.1.epoch.1),
      ("revision", .num e.1.revision.1), ("recordJson", recordValue e.1.record),
      ("recordDigest", recordValue e.1.digest)]
  rw [hencode]
  refine hsize.trans ?_
  simp only [List.map_cons, List.map_nil, List.sum_cons, List.sum_nil, Value.memberSize]
  have hcap : Kind.fulfillment.cap = 4194304 := rfl
  omega

namespace Fulfillment

variable {p : OrderPayment w}

/-- A port of the order's payment is asked for what an owner proposes, if it holds the envelope of
the record before. -/
theorem asked_of_accepted {a : Option FulfillmentRecord} {b : FulfillmentRecord}
    (h : Accepted p a b) {port : Port (fulfillmentContract w)}
    {e : Envelope (fulfillmentContract w)} (hport : port.Sound) (hcurrent : port.current = some e)
    (hrecord : e.1.record = a.map FulfillmentRecord.text)
    (husable : port.usable (.str p.terms.orderId.1) (.str p.issue.paymentScope.1) = .ok ()) :
    port.Asked e (.str p.terms.orderId.1) (.str p.issue.paymentScope.1) b.text := by
  have howner := hport e hcurrent
  have hbinding : e.1.binding.orderId = p.terms.orderId ∧ e.1.binding.paymentScope
      = p.issue.paymentScope := by
    unfold Port.usable at husable
    obtain ⟨_, hreject, -⟩ := bind_ok.mp husable
    rw [rejectIf_ok, not_or, Bool.not_eq_false, Bool.not_eq_false] at hreject
    have horder := Value.str.inj (Value.strictEq_str.mp hreject.1)
    have hscope := Value.str.inj (Value.strictEq_str.mp hreject.2)
    rw [howner.2.1]
    exact ⟨Subtype.ext horder.symm, Subtype.ext hscope.symm⟩
  obtain ⟨setup, hvalid⟩ := h.valid
  refine ⟨husable, hcurrent, e.fits, howner, rfl, ?_, ?_, ?_⟩
  · rw [hrecord]
    cases h with
    | first setup hb => exact nofun
    | next setup ha hb hfollows hne =>
      intro heq
      exact hne (FulfillmentRecord.text_inj (Option.some.inj heq))
  · rw [hbinding.1, hbinding.2]
    exact record_toBool.mpr ⟨b, record_of_valid hvalid⟩
  · rw [hrecord, hbinding.1, hbinding.2]
    exact recordTransition_of_accepted h

/-- Whatever owners of one order propose, behind any ports over any store: it is a record and a
transition of the contract, and a port that holds the envelope of the record before takes it into
the next envelope, unless that would count further than to the last revision. And what the contract
lets take the place of a record keeps what is settled in the record, and changes or adds at most one
delivery. -/
theorem owner_within_contract (p : OrderPayment w) (events : List (Js.Event (Setup p) Turn))
    {σ₀ σ : Order.System (fulfillmentContract w)}
    {changes : List (Option (Attempt (fulfillmentContract w)))} (h₀ : σ₀.Sound)
    (hrun : Run SystemStep σ₀ changes σ) :
    (∀ (index : Nat) (a : Option FulfillmentRecord) (b : FulfillmentRecord) (stored : Bool),
      .proposed index a b stored ∈ (System.initial.run (practice p) events).log →
      record w b.text p.terms.orderId p.issue.paymentScope = .ok b
        ∧ recordTransition w (a.map FulfillmentRecord.text)
        (some b.text) p.terms.orderId p.issue.paymentScope = .ok ()
        ∧ ∀ port ∈ σ.ports, ∀ e, port.current = some e → e.1.record = a.map FulfillmentRecord.text →
          port.usable (.str p.terms.orderId.1) (.str p.issue.paymentScope.1) = .ok () →
          (e.lease.revision < 9007199254740991 → ∃ e',
            port.prepare (.str p.terms.orderId.1) (.str p.issue.paymentScope.1)
            (recordValue (a.map FulfillmentRecord.text)) (.str b.text) = .ok (e, e') ∧ e'.1.record
              = some b.text)
          ∧ (e.lease.revision = 9007199254740991 →
            port.prepare (.str p.terms.orderId.1) (.str p.issue.paymentScope.1)
            (recordValue (a.map FulfillmentRecord.text)) (.str b.text) = .error .VERSION_EXHAUSTED))
    ∧ ∀ (before after : String) (orderId : Id) (paymentScope : Hash),
      recordTransition w (some before) (some after) orderId paymentScope = .ok () → ∃ a b,
        record w before orderId paymentScope = .ok a ∧ record w after orderId paymentScope = .ok b
          ∧ a.Keeps b ∧ a.OneDelivery b := by
  refine ⟨fun index a b stored hmem => ?_, fun _ _ _ _ h => keeps_of_transition h⟩
  have hok : (System.initial.run (practice p) events).Ok (Ledger p) AtRest := run_ok events
  obtain ⟨pre, post, hlog⟩ := List.append_of_mem hmem
  have haccepted : Accepted p a b := by
    cases hok.ledger.lawful pre _ post hlog with
    | proposed haccepted _ => exact haccepted
  obtain ⟨setup, hvalid⟩ := haccepted.valid
  refine ⟨record_of_valid hvalid, recordTransition_of_accepted haccepted,
    fun port hport e hcurrent hrecord husable => ?_⟩
  have hasked := asked_of_accepted haccepted ((run_sound h₀ hrun).ports port hport) hcurrent
    hrecord husable
  rw [← hrecord]
  exact ⟨fun hrevision => prepare_of_asked hasked hrevision fun e' _ => e'.fits,
    prepare_exhausted hasked⟩

/-! ### A port of a first owner -/

namespace Sample

def ownerId : Id := evaluated "owner-1"

/-- The envelope of an order without a record. -/
def held (p : OrderPayment w) (revision : Positive) : Envelope (fulfillmentContract w) :=
  ⟨⟨⟨evaluated "store-1", p.terms.orderId, p.issue.paymentScope⟩, some ownerId, .one, revision,
    none, none⟩, by
    have hone := revision.value_eq.2.1
    simp only [EnvelopeFields.checked, Bool.and_eq_true, decide_eq_true_eq, Option.map_none,
      Option.all_none, and_true]
    exact hone⟩

def token (p : OrderPayment w) : Token := ⟨(held p .one).1.binding, ownerId, .one⟩

def port (p : OrderPayment w) (revision : Positive) : Port (fulfillmentContract w) :=
  ⟨token p, false, false, some (held p revision)⟩

/-- A store that has the envelope, and a port that has loaded it. -/
def store (p : OrderPayment w) (revision : Positive) (ports : List (Port (fulfillmentContract w))) :
    Order.System (fulfillmentContract w) :=
  ⟨fun key => if key = (p.terms.orderId, p.issue.paymentScope) then .str (held p revision).text
    else .null, ports⟩

theorem held_accepted (revision : Positive) :
    envelope (fulfillmentContract w) (.str (held p revision).text) = .ok (held p revision) :=
  envelope_ok.mpr ⟨rfl, (held p revision).fits⟩

theorem token_accepted (p : OrderPayment w) :
    Order.token (.str (stringify (tokenCodec.encode (token p)))) = .ok (token p) := by
  have horder := textSize_id p.terms.orderId
  have hscope := textSize_hash p.issue.paymentScope
  have hrest : Value.textSize (.str "version") + Value.textSize (.num 1)
      + Value.textSize (.str "storeId")
      + Value.textSize (.str "store-1") + Value.textSize (.str "orderId")
      + Value.textSize (.str "paymentScope")
      + Value.textSize (.str "ownerId") + Value.textSize (.str "owner-1")
      + Value.textSize (.str "epoch") ≤ 100 := by
    decide
  refine Codec.ofText_ok.mpr ⟨rfl, ?_⟩
  rw [Value.size_stringify]
  refine (Value.textSize_obj_le [("version", .num 1), ("storeId", .str "store-1"),
    ("orderId", .str p.terms.orderId.1), ("paymentScope", .str p.issue.paymentScope.1),
    ("ownerId", .str "owner-1"), ("epoch", .num 1)]).trans ?_
  simp only [List.map_cons, List.map_nil, List.sum_cons, List.sum_nil, Value.memberSize]
  omega

theorem store_sound (revision : Positive) : (store p revision []).Sound := by
  refine ⟨fun port hport => (nomatch hport), fun key => ?_⟩
  by_cases hkey : key = (p.terms.orderId, p.issue.paymentScope)
  · subst hkey
    refine .inr ⟨held p revision, ?_, rfl⟩
    rw [show (store p revision []).stored _ = .str (held p revision).text from if_pos rfl]
    exact held_accepted revision
  · exact .inl (if_neg hkey)

/-- One more port is created, and loads the envelope. -/
theorem store_run (revision : Positive) (ports : List (Port (fulfillmentContract w))) :
    Run SystemStep (store p revision ports) [none, none]
    (store p revision (ports ++ [port p revision])) := by
  let fresh : Port (fulfillmentContract w) := ⟨token p, false, false, none⟩
  have husable : fresh.usable (.str p.terms.orderId.1) (.str p.issue.paymentScope.1) = .ok () := by
    unfold Port.usable
    simp only [bind_ok, rejectIf_ok, not_or, Bool.not_eq_false, Bool.not_eq_true]
    exact ⟨(), ⟨Value.strictEq_str.mpr rfl, Value.strictEq_str.mpr rfl⟩, (), rfl, rfl⟩
  have hcreate := @Port.create_of_accepted (fulfillmentContract w) _ _ (token_accepted p)
  have hload := Port.load_of_accepted husable rfl rfl (held_accepted revision) ⟨rfl, rfl, rfl⟩
  refine .cons (t := store p revision (ports ++ [fresh]))
    ⟨.create (.str (stringify (tokenCodec.encode (token p)))), rfl, ?_⟩
    (.cons ⟨.load ports.length (.str p.terms.orderId.1) (.str p.issue.paymentScope.1) false
      (some (.str (held p revision).text)), rfl, ?_⟩ (.nil _))
  · unfold Order.System.step Order.System.portsAfter
    simp only [hcreate]
    rfl
  · unfold Order.System.step Order.System.portsAfter
    simp only [store, System.modify_concat, hload]
    rfl

theorem port_usable (revision : Positive) :
    (port p revision).usable (.str p.terms.orderId.1) (.str p.issue.paymentScope.1) = .ok () := by
  unfold Port.usable
  simp only [bind_ok, rejectIf_ok, not_or, Bool.not_eq_false, Bool.not_eq_true]
  exact ⟨(), ⟨Value.strictEq_str.mpr rfl, Value.strictEq_str.mpr rfl⟩, (), rfl, rfl⟩

/-- The port is asked for the first record. -/
theorem port_asked (setup : Setup p) (revision : Positive) :
    (port p revision).Asked (held p revision) (.str p.terms.orderId.1)
    (.str p.issue.paymentScope.1) setup.initial.text := by
  have hsound : (port p revision).Sound := fun e he => by
    obtain rfl := Option.some.inj he
    exact ⟨rfl, rfl, rfl⟩
  exact asked_of_accepted (.first setup (initial_valid _)) hsound rfl rfl (port_usable revision)

theorem first_proposed (setup : Setup p) :
    .proposed 0 none setup.initial true
      ∈ (System.initial.run (practice p) [.create setup, .turn 0 .first]).log := by
  rw [first_log]
  exact List.mem_cons_self

end Sample

/-- The first record of an order goes into the envelope that its store has. -/
theorem owner_within_contract_sample : ∃ e',
    (Sample.port (Sample.payment .standard) .one).prepare (.str "order-1")
    (.str (Sample.payment .standard).issue.paymentScope.1)
      .null (.str (Sample.setup .standard).initial.text)
        = .ok (Sample.held (Sample.payment .standard) .one, e')
    ∧ e'.1.record = some (Sample.setup .standard).initial.text := by
  obtain ⟨-, -, hports⟩ :=
    (owner_within_contract (Sample.payment .standard) [.create (Sample.setup .standard),
      .turn 0 .first]
    (Sample.store_sound .one) (Sample.store_run .one [])).1 0 none _ true (Sample.first_proposed _)
  exact (hports _ List.mem_cons_self _ rfl rfl (Sample.port_usable .one)).1 (by decide)

/-- At the last revision the port refuses the first record of an order, whose store has the envelope
that is expected. -/
theorem refused_at_last_revision :
    ∃ (σ : Order.System (fulfillmentContract (Sample.wire .standard)))
    (port : Port (fulfillmentContract (Sample.wire .standard)))
    (e : Envelope (fulfillmentContract (Sample.wire .standard))),
    Run SystemStep (Sample.store (Sample.payment .standard) ⟨9007199254740991, by decide⟩ [])
    [none, none] σ
    ∧ port ∈ σ.ports ∧ port.current = some e ∧ e.1.record = none
    ∧ σ.stored ((Sample.payment .standard).terms.orderId,
      (Sample.payment .standard).issue.paymentScope) = .str e.text
    ∧ .proposed 0 none (Sample.setup .standard).initial true
      ∈ (System.initial.run (practice (Sample.payment .standard)) [.create (Sample.setup .standard),
        .turn 0 .first]).log
    ∧ port.prepare (.str "order-1") (.str (Sample.payment .standard).issue.paymentScope.1) .null
      (.str (Sample.setup .standard).initial.text) = .error .VERSION_EXHAUSTED := by
  have hasked := Sample.port_asked (Sample.setup .standard) ⟨9007199254740991, by decide⟩
  exact ⟨_, _, _, Sample.store_run _ [], List.mem_cons_self, rfl, rfl, if_pos rfl,
    Sample.first_proposed _, prepare_exhausted hasked rfl⟩

/-! ### A port of an earlier owner -/

namespace Sample

def nextOwnerId : Id := evaluated "owner-2"

/-- A swap that the backend makes, and answers. -/
def acknowledged (e : Envelope (fulfillmentContract w)) : Swap := ⟨true, false, some (.str e.text)⟩

/-- The order is claimed by its first owner. -/
def claimed (p : OrderPayment w) : Attempt (fulfillmentContract w) :=
  ⟨p.terms.orderId, p.issue.paymentScope, .handoff, .null, held p .one, acknowledged (held p .one)⟩

theorem claimed_step : SystemStep ⟨fun _ => .null, []⟩ (some (claimed p)) (store p .one []) := by
  have hclaim := @claim_of_follows (fulfillmentContract w) none (held p .one) ownerId nofun rfl
    rfl rfl rfl rfl
    (held p .one).fits
  let event : Order.Event :=
    .claim (.str "store-1") (.str p.terms.orderId.1) (.str p.issue.paymentScope.1) .null
    (.str "owner-1") (acknowledged (held p .one))
  have hattempt : System.attempt ⟨fun _ => .null, []⟩ event = some (claimed p) :=
    Option.map_eq_some_iff.mpr ⟨_, System.toOption_some.mpr hclaim, rfl⟩
  have hstep : SystemStep ⟨fun _ => .null, []⟩ (some (claimed p))
      ⟨Function.update (fun _ => .null) (p.terms.orderId, p.issue.paymentScope)
        (.str (held p .one).text), []⟩ :=
    SystemStep.of_effective hattempt rfl rfl rfl
  rwa [show Function.update _ _ _ = (store p .one []).stored from funext
    fun _ => Function.update_apply ..] at hstep

theorem text_strictEq {c : Contract} {a b : Envelope c} (h : a.lease.revision ≠ b.lease.revision) :
    (Value.str a.text).strictEq (.str b.text) = false := by
  rw [Bool.eq_false_iff]
  intro heq
  have hsame : a = b := Envelope.text_inj (Value.str.inj (Value.strictEq_str.mp heq))
  exact h (congrArg (fun e => e.lease.revision) hsame)

/-- Of two ports of the first owner one writes; then there is another owner, and the other port
tries to write too. -/
theorem fenced_run (setup : Setup p) : ∃ (written reclaimed stale : Attempt (fulfillmentContract w))
    (σ : Order.System (fulfillmentContract w)) (event : Order.Event),
    Run SystemStep ⟨fun _ => .null, []⟩ [some (claimed p), none, none, none, none, some written,
      some reclaimed] σ
    ∧ (reclaimed.orderId, reclaimed.paymentScope) = (written.orderId, written.paymentScope)
    ∧ written.actor = .port (token p) ∧ written.proposed.1.record = some setup.initial.text
    ∧ reclaimed.proposed.lease.epoch = 2 ∧ σ.attempt event = some stale ∧ stale.actor
    = .port (token p)
    ∧ stale.swap.commits = true ∧ σ.changes event = none := by
  have hrevision : (held p .one).lease.revision = 1 := rfl
  obtain ⟨written, hprepare, hrecord⟩ :=
    prepare_of_asked (port_asked setup .one) (by rw [hrevision]; decide)
    fun e _ => e.fits
  obtain ⟨-, -, -, hbinding, hstep⟩ := prepare_ok hprepare
  have hwrites : (held p .one).lease.Writes written.lease := by
    refine hstep.resolve_left fun heq => ?_
    rw [← heq] at hrecord
    cases hrecord
  have hwritten : written.lease.revision = 2 := hwrites.revision
  obtain ⟨reclaimed, hclaim, hhands⟩ :=
    claim_of_known nextOwnerId written.fits (by rw [hwritten]; decide)
    fun e _ => e.fits
  rw [← hbinding] at hclaim
  have hreclaimed : reclaimed.lease.revision = 3 := by rw [hhands.revision, hwritten]
  have hepoch : reclaimed.lease.epoch = 2 := by rw [hhands.epoch, hwrites.epoch]; rfl
  have hfirst : (Value.str (held p .one).text).strictEq (.str written.text) = false :=
    text_strictEq (by rw [hrevision, hwritten]; decide)
  have hsecond : (Value.str written.text).strictEq (.str reclaimed.text) = false :=
    text_strictEq (by rw [hwritten, hreclaimed]; decide)
  have hthird : (Value.str reclaimed.text).strictEq (.str (held p .one).text) = false :=
    text_strictEq (by rw [hreclaimed, hrevision]; decide)
  let key := (p.terms.orderId, p.issue.paymentScope)
  let write (index : Nat) : Order.Event :=
    .compareAndSwap index (.str p.terms.orderId.1) (.str p.issue.paymentScope.1) .null
    (.str setup.initial.text) (acknowledged written)
  let claim : Order.Event :=
    .claim (.str "store-1") (.str p.terms.orderId.1) (.str p.issue.paymentScope.1)
    (.str written.text) (.str "owner-2") (acknowledged reclaimed)
  let writing : Attempt (fulfillmentContract w) :=
    ⟨p.terms.orderId, p.issue.paymentScope, .port (token p), .str (held p .one).text, written,
      acknowledged written⟩
  let claiming : Attempt (fulfillmentContract w) :=
    ⟨p.terms.orderId, p.issue.paymentScope, .handoff, .str written.text, reclaimed,
      acknowledged reclaimed⟩
  have hwriting {σ : Order.System (fulfillmentContract w)} {index : Nat}
      (h : σ.ports[index]? = some (port p .one)) :
      σ.attempt (write index) = some writing :=
    Option.bind_eq_some_iff.mpr
      ⟨port p .one, h, Option.map_eq_some_iff.mpr ⟨_, System.toOption_some.mpr hprepare, rfl⟩⟩
  have hclaiming (σ : Order.System (fulfillmentContract w)) : σ.attempt claim = some claiming :=
    Option.map_eq_some_iff.mpr ⟨_, System.toOption_some.mpr hclaim, rfl⟩
  let σ₁ := store p .one [port p .one, port p .one]
  let σ₂ : Order.System (fulfillmentContract w) :=
    ⟨Function.update σ₁.stored key (.str written.text), σ₁.portsAfter (write 0)⟩
  let σ₃ : Order.System (fulfillmentContract w) :=
    ⟨Function.update σ₂.stored key (.str reclaimed.text), σ₂.ports⟩
  have hstored₁ : σ₁.stored key = .str (held p .one).text := if_pos rfl
  have hstored₂ : σ₂.stored key = .str written.text := Function.update_self ..
  have hstored₃ : σ₃.stored key = .str reclaimed.text := Function.update_self ..
  have hwrite : SystemStep σ₁ (some writing) σ₂ :=
    .of_effective (hwriting rfl) rfl (Value.strictEq_str.mpr hstored₁) hfirst
  have hreclaim : SystemStep σ₂ (some claiming) σ₃ :=
    .of_effective (hclaiming σ₂) rfl (Value.strictEq_str.mpr hstored₂) hsecond
  have hstale := SystemStep.of_stale (@hwriting σ₃ 1 rfl) (hstored₃ ▸ hthird)
  have hclaimed := Run.cons claimed_step ((store_run .one []).append (store_run .one [port p .one]))
  exact ⟨writing, claiming, writing, σ₃, write 1,
    hclaimed.append (.cons hwrite (.cons hreclaim (.nil _))), rfl, rfl, hrecord, hepoch,
    hwriting rfl, rfl, rfl, hstale.1⟩

end Sample

end Fulfillment

/-- An owner writes a record and then another owner has the order: what a port of the first one
still writes is nothing. -/
theorem ownership_fencing_sample :
    ∃ (written reclaimed stale : Attempt (fulfillmentContract (Fulfillment.Sample.wire .standard)))
    (σ : System (fulfillmentContract (Fulfillment.Sample.wire .standard))) (event : Event),
    written.Installs ∧ written.proposed.1.record
      = some (Fulfillment.Sample.setup .standard).initial.text
    ∧ written.proposed.lease.epoch ≤ reclaimed.proposed.lease.epoch
    ∧ reclaimed.proposed.lease.epoch = 2
    ∧ σ.attempt event = some stale ∧ stale.actor = written.actor ∧ stale.swap.commits = true
    ∧ σ.changes event = none := by
  obtain ⟨written, reclaimed, stale, σ, event, hrun, hkey, hactor, hrecord, hepoch, hattempt,
    hstale, hcommits, hchanges⟩ :=
    Fulfillment.Sample.fenced_run (Fulfillment.Sample.setup .standard)
  have hsound : System.Sound (c := fulfillmentContract (Fulfillment.Sample.wire .standard))
    ⟨fun _ => .null, []⟩ :=
    ⟨nofun, fun _ => .inl rfl⟩
  obtain ⟨hinstalls, hfenced, -⟩ :=
    ownership_fencing hsound (hrun.append (.cons ⟨event, hchanges.symm, rfl⟩ (.nil _)))
  refine ⟨written, reclaimed, stale, σ, event, ?_, hrecord, ?_, hepoch, hattempt,
    hstale.trans hactor.symm, hcommits, hchanges⟩
  · exact (hinstalls [_, none, none, none, none] written [some reclaimed, none] rfl).1
  · exact (hfenced [_, none, none, none, none] written [] reclaimed [none] rfl hkey).1

end Order
end ZenonX402
