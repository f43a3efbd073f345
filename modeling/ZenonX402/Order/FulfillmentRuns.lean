/-
# Runs of fulfillment owners

Whatever the owners of a fulfillment record do, whatever their ports answer, and
however often they are started again, all that they propose follows what they
know, and what they return is the view of a record that they take (`Ledger`). Each
part of a turn keeps all in order (`Kept`); of a commit it needs to be known that
the record which is proposed follows the one before it (`Proposable`).

Key definitions: `Accepted`, `Deed.Lawful`, `Ledger`, `Kept`, `Done`.
Key theorems: `commit_spec`, `turn_spec`, `run_ok`, `Ledger.keeps`, `liability_conserved`.
-/
import ZenonX402.Lib.Sha2
import ZenonX402.Order.Liability

namespace ZenonX402
namespace Order
namespace Fulfillment

open Js Prog
open Value (Json)

/-! ### What was done -/

/-- The record that is stored after a deed. -/
def Deed.next (stored : Option FulfillmentRecord) : Deed → Option FulfillmentRecord
  | .proposed _ _ next true => some next
  | _ => stored

/-- The record that is stored after what was done. -/
def tip (log : List Deed) : Option FulfillmentRecord := log.foldl Deed.next none

@[simp] theorem tip_append (log : List Deed) (d : Deed) : tip (log ++ [d]) = d.next (tip log) := by
  simp [tip]

variable {w : Wire} {p : OrderPayment w}

/-- What an owner may propose: an empty record where there is none, or one that follows the record
before it. -/
inductive Accepted (p : OrderPayment w) : Option FulfillmentRecord → FulfillmentRecord → Prop
  | first (setup : Setup p) (hb : Valid setup setup.initial) : Accepted p none setup.initial
  | next (setup : Setup p) {a b : FulfillmentRecord} (ha : Valid setup a) (hb : Valid setup b)
      (h : a.Follows b) (hne : a ≠ b) : Accepted p (some a) b

theorem Accepted.valid {a : Option FulfillmentRecord} {b : FulfillmentRecord} (h : Accepted p a b) :
    ∃ setup : Setup p, Valid setup b := by
  cases h with
  | first setup hb => exact ⟨setup, hb⟩
  | next setup _ hb _ _ => exact ⟨setup, hb⟩

/-- What may be done after what was done. -/
inductive Deed.Lawful (p : OrderPayment w) (log : List Deed) : Deed → Prop
  | proposed {index : Nat} {a : Option FulfillmentRecord} {b : FulfillmentRecord} {stored : Bool}
      (haccepted : Accepted p a b) (hstored : stored = true → tip log = a) :
      Lawful p log (.proposed index a b stored)
  | viewed {index : Nat} (setup : Setup p) (s : FulfillmentRecord) (changed : Bool) (at' : Count)
      (hs : Valid setup s) :
      Lawful p log (.viewed index (viewOf p s changed at'))

/-- What is stored is what was proposed last with effect, and all that was done was lawful. -/
structure Ledger (p : OrderPayment w) (stored : Value) (log : List Deed) : Prop where
  stored : stored = (keeping p).value (tip log)
  lawful : ∀ pre d post, log = pre ++ d :: post → d.Lawful p pre

theorem Ledger.initial : Ledger p .null [] := ⟨rfl, fun pre d post h => (by simp at h)⟩

/-- What is stored stays in what is stored later. -/
theorem Ledger.keeps {stored : Value} {log : List Deed} (h : Ledger p stored log)
    (pre mid : List Deed) (post : List Deed) (hlog : log = pre ++ mid ++ post)
    {a : FulfillmentRecord} (ha : tip pre = some a) :
    ∃ b, tip (pre ++ mid) = some b ∧ a.Keeps b := by
  induction mid using List.reverseRecOn generalizing post with
  | nil => exact ⟨a, by simpa using ha, .refl a⟩
  | append_singleton mid d ih =>
    obtain ⟨b, hb, hkeeps⟩ := ih (d :: post) (by simp [hlog])
    have hd := h.lawful (pre ++ mid) d post (by simp [hlog])
    rw [← List.append_assoc, tip_append]
    cases hd with
    | @proposed index a' b' stored' haccepted hstored =>
      cases stored' with
      | false => exact ⟨b, hb, hkeeps⟩
      | true =>
        have htip := hstored rfl
        rw [hb] at htip
        subst htip
        cases haccepted with
        | next _ _ _ hfollows _ => exact ⟨b', rfl, hkeeps.trans hfollows.keeps⟩
    | viewed _ _ _ _ _ => exact ⟨b, hb, hkeeps⟩

/-- What is stored is liable for what was purchased. -/
theorem Ledger.liable {stored : Value} {log : List Deed} (h : Ledger p stored log)
    (pre post : List Deed) (hlog : log = pre ++ post) {a : FulfillmentRecord}
    (ha : tip pre = some a) : Liable p a := by
  induction pre using List.reverseRecOn generalizing post with
  | nil => cases ha
  | append_singleton pre d ih =>
    have hlog' : log = pre ++ d :: post := by simp [hlog]
    have hd := h.lawful pre d post hlog'
    rw [tip_append] at ha
    cases hd with
    | @proposed index a' b' stored' haccepted hstored =>
      cases stored' with
      | false => exact ih (_ :: post) hlog' ha
      | true =>
        obtain rfl := Option.some.inj (show some b' = some a from ha)
        obtain ⟨setup, hvalid⟩ := haccepted.valid
        exact hvalid.liable
    | viewed _ _ _ _ _ => exact ih (_ :: post) hlog' ha

/-- A swap leads from a lawful ledger to a lawful ledger, whether or not it takes effect. -/
theorem Ledger.proposed {stored : Value} {log : List Deed} (h : Ledger p stored log) {index : Nat}
    {a : Option FulfillmentRecord} {b : FulfillmentRecord} {applied : Bool}
    (haccepted : Accepted p a b) (happlied : applied = true → stored = (keeping p).value a) :
    Ledger p (if applied = true then .str b.text else stored)
    (log ++ [.proposed index a b applied]) := by
  have htip : applied = true → tip log = a := fun happly =>
    Keeping.value_inj (fun _ _ => FulfillmentRecord.text_inj)
      (h.stored.symm.trans (happlied happly))
  refine ⟨?_, lawful_append h.lawful (.proposed haccepted htip)⟩
  rw [tip_append]
  cases applied with
  | false => exact h.stored
  | true => rfl

/-! ### Parts of a turn -/

/-- What the owner last knew is a record that it takes. -/
def Owner.Knows (o : Owner p) : Prop := ∀ s, o.current = some s → Valid o.setup s

/-- Nothing changes but that the owner is closed or held. -/
structure Owner.Same (o o' : Owner p) : Prop where
  setup : o'.setup = o.setup
  recovered : o'.recovered = o.recovered
  current : o'.current = o.current

theorem Owner.same_quiet : Quiet (@Owner.Same w p) :=
  ⟨fun _ => ⟨rfl, rfl, rfl⟩, fun h h' => ⟨h'.setup.trans h.setup, h'.recovered.trans h.recovered,
    h'.current.trans h.current⟩, fun _ _ => ⟨rfl, rfl, rfl⟩, fun _ => ⟨rfl, rfl, rfl⟩⟩

theorem Owner.Same.knows {o o' : Owner p} (h : o.Same o') (hknows : o.Knows) : o'.Knows := by
  intro s hs
  rw [h.current] at hs
  rw [h.setup]
  exact hknows s hs

abbrev Still (x y : Desk (Owner p) Deed) : Prop := x.Still Owner.Same y

theorem still_quiet : Quiet (@Still w p) := Desk.still_quiet Owner.same_quiet

structure Ok (x : Desk (Owner p) Deed) : Prop where
  ledger : Ledger p x.stored x.log
  knows : x.owner.Knows

/-- Part of a turn, after which all is in order and the log is longer at most. -/
structure Kept (x y : Desk (Owner p) Deed) : Prop where
  ok : Ok y
  index : y.index = x.index
  setup : y.owner.setup = x.owner.setup
  recovered : y.owner.recovered = x.owner.recovered
  log : x.log <+: y.log

variable {x y z : Desk (Owner p) Deed}

theorem kept_of_still (h : Still x y) (hx : Ok x) : Kept x y := by
  refine ⟨⟨?_, h.owner.knows hx.knows⟩, h.index, h.owner.setup, h.owner.recovered,
    h.log ▸ List.prefix_rfl⟩
  rw [h.stored, h.log]
  exact hx.ledger

theorem Kept.refl (hx : Ok x) : Kept x x := kept_of_still (still_quiet.refl x) hx

theorem Kept.trans (h : Kept x y) (h' : Kept y z) : Kept x z :=
  ⟨h'.ok, h'.index.trans h.index, h'.setup.trans h.setup, h'.recovered.trans h.recovered,
    h.log.trans h'.log⟩

theorem start_spec (needsRecovery : Bool) (x : Desk (Owner p) Deed) :
    Ends (start needsRecovery) x fun r y => y = x ∧
    ∀ u, r = .ok u → x.owner.held = false ∧ (needsRecovery = true → x.owner.recovered = true) := by
  unfold start
  rw [ends_get, ends_failIf]
  refine ⟨fun _ => ⟨rfl, nofun⟩, fun _ => ends_failIf.mpr ⟨fun _ => ⟨rfl, nofun⟩, fun hheld => ?_⟩⟩
  unfold failIf
  rw [ends_ite]
  refine ⟨fun _ => ⟨rfl, nofun⟩,
    fun hrecovered => ⟨rfl, fun _ _ => ⟨Bool.eq_false_iff.mpr hheld, fun hneeds => ?_⟩⟩⟩
  simpa [hneeds] using hrecovered

/-- A view of a record that the owner takes; without one the owner is held. -/
theorem view_spec {s : FulfillmentRecord} (changed : Bool) (clock : Answer) (hx : Ok x)
    (hs : Valid x.owner.setup s) :
    Ends (view s changed clock) x fun r y => Kept x y ∧ y.owner.current = x.owner.current
      ∧ ∀ f, r = .error f → y.owner.held = true := by
  unfold view
  rw [ends_bind]
  refine ((now_quiet still_quiet clock _ _ x).and (now_held clock _ _ x)).mono fun r y h => ?_
  obtain ⟨hstill, hheld⟩ := h
  have hkept := kept_of_still hstill hx
  cases r with
  | error f =>
    obtain ⟨z, rfl⟩ := hheld f rfl
    exact ⟨hkept, hstill.owner.current, fun _ _ => rfl⟩
  | ok at' =>
    rw [← hstill.owner.setup] at hs
    refine ⟨⟨⟨⟨?_, ?_⟩, hkept.ok.knows⟩, hkept.index, hkept.setup, hkept.recovered,
      hkept.log.trans (List.prefix_append _ _)⟩, hstill.owner.current, nofun⟩
    · change y.stored = (keeping p).value
        (tip (y.log ++ [.viewed y.index (viewOf p s changed at')]))
      rw [tip_append]
      exact hkept.ok.ledger.stored
    · exact lawful_append hkept.ok.ledger.lawful (.viewed _ s changed at' hs)

/-- What is proposed, if the owner takes it and it is new. -/
def Proposable (x : Desk (Owner p) Deed) (next : FulfillmentRecord) : Prop :=
  Valid x.owner.setup next → x.owner.current ≠ some next → Accepted p x.owner.current next

/-- A commit keeps all in order; if it fails, the owner is held or has taken nothing. -/
theorem commit_spec {next : FulfillmentRecord} (e : Exchange) (clock : Answer) (hx : Ok x)
    (hnext : Proposable x next) :
    Ends (commit next e clock) x fun r y => Kept x y
      ∧ ∀ f, r = .error f → y.owner.held = true ∨ y.owner.current = x.owner.current := by
  unfold commit
  rw [ends_get, ends_lift]
  refine ⟨fun f _ => ⟨Kept.refl hx, fun _ _ => .inr rfl⟩, fun s hs => ?_⟩
  obtain ⟨htext, hvalid⟩ := validate_ok.mp hs
  obtain rfl := FulfillmentRecord.text_inj (Value.str.inj htext)
  rw [ends_ite]
  refine ⟨fun _ => (view_spec false clock hx hvalid).mono fun r y h => ⟨h.1, fun _ _ => .inr h.2.1⟩,
    fun hnew => ?_⟩
  have haccepted := hnext hvalid fun hcurrent => hnew (by rw [hcurrent]; rfl)
  rw [ends_bind]
  refine (Keeping.exchange_spec Owner.same_quiet next e _ _ _ x).mono fun r y h => ?_
  have hledger : Ledger p y.stored y.log := by
    rw [h.stored, h.log]
    exact hx.ledger.proposed haccepted Keeping.stored_of_applies
  have hlog : x.log <+: y.log := h.log ▸ List.prefix_append _ _
  rcases h.owner with ⟨f, rfl, hsame⟩ | ⟨rfl, -, o, hsame, howner⟩
  · exact ⟨⟨⟨hledger, hsame.knows hx.knows⟩, h.index, hsame.setup, hsame.recovered, hlog⟩,
      fun _ _ => .inr hsame.current⟩
  · have hsetup : y.owner.setup = x.owner.setup := by
      rw [howner]
      exact hsame.setup
    have hcurrent : y.owner.current = some next := by
      rw [howner]
      rfl
    have hkept : Kept x y := by
      refine ⟨⟨hledger, fun s hs => ?_⟩, h.index,
        hsetup, by rw [howner]; exact hsame.recovered, hlog⟩
      obtain rfl := Option.some.inj (hcurrent.symm.trans hs)
      rw [hsetup]
      exact hvalid
    refine (view_spec true clock hkept.ok (hkept.ok.knows _ hcurrent)).mono fun r z hz => ?_
    exact ⟨hkept.trans hz.1, fun f hf => .inl (hz.2.2 f hf)⟩

/-! ### A first owner -/

/-- The first record is one that its owner takes. -/
theorem initial_valid (setup : Setup p) : Valid setup setup.initial := by
  refine ⟨?_, rfl, nofun, ?_, fun d hd => (nomatch hd), .nil, Nat.zero_le _, nofun,
    fun _ => ⟨rfl, rfl⟩⟩
  · have horder := size_id p.terms.orderId
    have hstore := size_id setup.fundingStoreId
    refine Value.size_stringify_le (fulfillmentRecordCodec.json_encode _) ?_
    change Value.textBytes (Value.tally (fun _ => false) (.obj [("version", .num 1),
      ("profile", .str "zenon-x402.purchase-order-fulfillment.v1"),
      ("orderId", .str p.terms.orderId.1),
      ("termsDigest", .str p.termsDigest.1), ("paymentScope", .str p.issue.paymentScope.1),
      ("paymentRecordDigest", .str p.paymentRecordDigest.1),
      ("fundingStoreId", .str setup.fundingStoreId.1),
      ("fundingReceiptJson", .null), ("deliveries", .arr []), ("compensation", .null)])) ≤ _
    have hrest : Value.textBytes (Value.tally (fun _ => false) (.obj [("version", .num 1),
      ("profile", .str "zenon-x402.purchase-order-fulfillment.v1"), ("orderId", .null),
      ("termsDigest", .null),
      ("paymentScope", .null), ("paymentRecordDigest", .null), ("fundingStoreId", .null),
      ("fundingReceiptJson", .null),
      ("deliveries", .arr []), ("compensation", .null)])) ≤ 2000 := by decide
    simp only [Value.tally, Value.tallyMembers, Value.tallyElements, List.length_cons,
      List.length_nil, Value.textBytes, Measure.inside, Measure.combine, Value.keyEntry,
      Value.stringLeaf, Value.leaf, Measure.none, size_hash,
      recordCap] at hrest ⊢
    omega
  · have h := p.rules.maximumDeliveries.2.2
    unfold isMaximum at h
    have hle := of_decide_eq_true h
    change ((0 : Nat) : Int) ≤ _
    omega

/-- A port that answers. -/
def answer (v : Value) : Answer := ⟨false, some v⟩

/-- The first turn of a first owner. -/
def Turn.first : Turn := .recover (answer .null) (answer .null)
    (fun _ => answer .null) ⟨true, false, true⟩ (answer (.num 1000))

theorem run_turn (setup : Setup p) (t : Turn) :
    (System.initial.run (practice p) [.create setup, .turn 0 t]).log =
    (t.run ⟨0, Owner.create setup, .null, []⟩).log := rfl

theorem run_recover (loaded funding : Answer) (reads : Nat → Answer) (e : Exchange) (clock : Answer)
    (x : Desk (Owner p) Deed) (Q : Desk (Owner p) Deed → Prop)
    (h : Ends (recover loaded funding reads e clock) x fun _ y => Q y) :
    Q ((Turn.recover loaded funding reads e clock).run x) := h

/-- A first owner stores an empty record, and returns its view. -/
theorem first_log (setup : Setup p) :
    (System.initial.run (practice p) [.create setup, .turn 0 .first]).log =
    [.proposed 0 none setup.initial true,
      .viewed 0 (viewOf p setup.initial true ⟨1000, by decide⟩)] := by
  let x : Desk (Owner p) Deed := ⟨0, Owner.create setup, .null, []⟩
  let stored : Desk (Owner p) Deed := ⟨0, { Owner.create setup with current := some setup.initial },
    .str setup.initial.text, [.proposed 0 none setup.initial true]⟩
  have hstart : (start false : Work p Unit).exec x = (.ok (), x) := rfl
  have hask : (ask (answer .null) .CLOSED .READ_UNKNOWN : Work p Value).exec x
      = (.ok .null, x) := rfl
  have hexchange : ((keeping p).exchange setup.initial ⟨true, false, true⟩ .CLOSED .COMMIT_UNKNOWN
      .COMMIT_UNKNOWN :
    Work p FulfillmentRecord).exec x = (.ok setup.initial, stored) := rfl
  have hnow : (now (answer (.num 1000)) .CLOSED .CLOCK_UNKNOWN : Work p Count).exec stored
    = (.ok ⟨1000, by decide⟩, stored) := rfl
  have hvalidate : validate setup (.str setup.initial.text) = .ok setup.initial :=
    validate_ok.mpr ⟨rfl, initial_valid setup⟩
  rw [run_turn]
  refine run_recover (answer .null) (answer .null) (fun _ => answer .null) ⟨true, false, true⟩
    (answer (.num 1000)) x
    (fun y => y.log = [.proposed 0 none setup.initial true,
      .viewed 0 (viewOf p setup.initial true ⟨1000, by decide⟩)]) ?_
  unfold recover
  rw [ends_of_returns hstart, ends_get, ends_failIf]
  refine ⟨fun h => (nomatch (show false = true from h)), fun _ => ?_⟩
  rw [ends_of_returns hask, ends_ite]
  refine ⟨fun _ => ?_, fun h => absurd rfl h⟩
  rw [ends_bind]
  unfold commit
  rw [ends_get, ends_lift]
  refine ⟨fun f hf => (nomatch hf.symm.trans hvalidate), fun s hs => ?_⟩
  obtain rfl := Except.ok.inj (hvalidate.symm.trans hs)
  rw [ends_ite]
  refine ⟨fun h => (nomatch (show none = some _ from h)), fun _ => ?_⟩
  rw [ends_of_returns hexchange]
  unfold view
  rw [ends_of_returns hnow, ends_get, ends_modify]
  rfl

-- What these come to is said by their lemmas from here on.
attribute [local irreducible] view start commit

/-! ### Quiet parts -/

theorem sourceFunding_quiet (funding : Answer) (x : Desk (Owner p) Deed) :
    Ends (sourceFunding funding) x fun _ y => Still x y := by
  unfold sourceFunding
  rw [ends_bind]
  refine (ask_quiet still_quiet funding _ _ x).mono fun r y h => ?_
  cases r with
  | error f => exact h
  | ok raw =>
    dsimp only
    rw [ends_ite]
    refine ⟨fun _ => h, fun _ => ?_⟩
    rw [ends_get]
    cases selectedFunding y.owner.setup raw with
    | error f => exact (hold_quiet still_quiet _ _).mono fun _ _ h' => still_quiet.trans h h'.1
    | ok f => exact h

theorem retainedOriginal_quiet (raw : String) (digest : Hash) (observed : Answer)
    (x : Desk (Owner p) Deed) :
    Ends (retainedOriginal raw digest observed) x fun _ y => Still x y := by
  have hx := still_quiet.refl x
  unfold retainedOriginal
  rw [ends_get, ends_lift]
  refine ⟨fun _ _ => hx, fun o _ => ?_⟩
  rw [ends_bind]
  refine (ask_quiet still_quiet observed _ _ x).mono fun r y h => ?_
  cases r with
  | error f => exact h
  | ok v => exact ends_lift.mpr ⟨fun _ _ => h, fun _ _ => h⟩

theorem retainedOriginals_quiet (reads : Nat → Answer) :
    ∀ (ds : List Delivery) (n : Nat) (x : Desk (Owner p) Deed),
    Ends (retainedOriginals reads n ds) x fun _ y => Still x y
  | [], _, x => still_quiet.refl x
  | d :: ds, n, x => by
    unfold retainedOriginals
    rw [ends_bind]
    refine (retainedOriginal_quiet _ _ (reads n) x).mono fun r y h => ?_
    cases r with
    | error f => exact h
    | ok o => exact (retainedOriginals_quiet reads ds (n + 1) y).mono fun _ _ h' =>
        still_quiet.trans h h'

theorem verified_quiet (candidate : Value) (a : Answer) (x : Desk (Owner p) Deed) :
    Ends (verified candidate a) x fun _ y => Still x y := by
  have hclosing := still_quiet.closing a.closes x
  unfold verified
  refine ends_orFail.mpr ⟨fun _ => still_quiet.refl x, fun _ _ => ?_⟩
  rw [ends_modify, ends_get, ends_ite]
  refine ⟨fun _ => (hold_quiet still_quiet _ _).mono fun _ _ h => still_quiet.trans hclosing h.1,
    fun _ => ?_⟩
  cases a.value.bind (text 4096) with
  | none => exact hclosing
  | some raw => exact hclosing

theorem sameFunding_quiet (s : FulfillmentRecord) (funding : Answer) (x : Desk (Owner p) Deed) :
    Ends (sameFunding s funding) x fun _ y => Still x y := by
  unfold sameFunding
  cases s.fundingReceiptJson with
  | none => exact still_quiet.refl x
  | some receiptJson =>
    dsimp only
    rw [ends_bind]
    refine (sourceFunding_quiet funding x).mono fun r y h => ?_
    cases r with
    | error f => exact h
    | ok raw =>
      dsimp only
      rw [ends_ite]
      exact ⟨fun _ => h, fun _ => (hold_quiet still_quiet _ _).mono fun _ _ h' =>
        still_quiet.trans h h'.1⟩

-- These too.
attribute [local irreducible] sourceFunding retainedOriginal retainedOriginals verified sameFunding

/-! ### The turns -/

/-- Before an owner is recovered it knows no record, unless it is held. -/
def Owner.Fresh (o : Owner p) : Prop := o.recovered = false → o.held = false → o.current = none

/-- After a turn all is in order. -/
structure Done (x y : Desk (Owner p) Deed) : Prop where
  ok : Ok y
  index : y.index = x.index
  log : x.log <+: y.log
  fresh : y.owner.Fresh

theorem Done.refl (hx : Ok x) (hfresh : x.owner.Fresh) : Done x x :=
  ⟨hx, rfl, List.prefix_rfl, hfresh⟩

theorem Kept.done (h : Kept x y) (hrecovered : x.owner.recovered = true) : Done x y := by
  refine ⟨h.ok, h.index, h.log, fun hnot => ?_⟩
  rw [h.recovered, hrecovered] at hnot
  cases hnot

/-- A proposal that follows the record that the owner knows. -/
theorem proposable_of_follows {a b : FulfillmentRecord} (hx : Ok x) (ha : x.owner.current = some a)
    (h : a.Follows b) :
    Proposable x b := by
  intro hvalid hne
  rw [ha] at hne ⊢
  exact .next x.owner.setup (hx.knows a ha) hvalid h fun heq => hne (congrArg some heq)

theorem initial_proposable (x : Desk (Owner p) Deed) (h : x.owner.current = none) :
    Proposable x x.owner.setup.initial := by
  intro hvalid _
  rw [h]
  exact .first x.owner.setup hvalid

/-- An operation of a recovered owner that has a record. -/
theorem started_spec {f : FulfillmentRecord → Work p View} (hx : Ok x) (hfresh : x.owner.Fresh)
    (h : ∀ s, x.owner.current = some s → Ends (f s) x fun _ y => Kept x y) :
    Ends (do start true; let s ← cached; f s) x fun _ y => Done x y := by
  rw [ends_bind]
  refine (start_spec true x).mono fun r y hy => ?_
  obtain ⟨rfl, hstart⟩ := hy
  cases r with
  | error f => exact Done.refl hx hfresh
  | ok u =>
    obtain ⟨-, hrecovered⟩ := hstart u rfl
    unfold cached
    dsimp only
    rw [bind_assoc, ends_get]
    refine ends_orFail.mpr ⟨fun _ => Done.refl hx hfresh, fun s hs => ?_⟩
    exact (h s hs).mono fun _ _ hkept => hkept.done (hrecovered rfl)

theorem adopt_spec (raw : Value) (funding : Answer) (reads : Nat → Answer) (clock : Answer)
    (hx : Ok x) (hcurrent : x.owner.current = none) :
    Ends (adopt raw funding reads clock) x fun _ y => Done x y := by
  have hdone {y : Desk (Owner p) Deed} (h : Still x y) : Done x y := by
    have hkept := kept_of_still h hx
    exact ⟨hkept.ok, hkept.index, hkept.log, fun _ _ => h.owner.current.trans hcurrent⟩
  unfold adopt
  rw [ends_get]
  cases hraw : validate x.owner.setup raw with
  | error f => exact (hold_quiet still_quiet _ _).mono fun _ _ h => hdone h.1
  | ok s =>
    have hvalid := (validate_ok.mp hraw).2
    dsimp only
    rw [ends_bind]
    refine (sameFunding_quiet s funding x).mono fun r y hy => ?_
    cases r with
    | error f => exact hdone hy
    | ok u =>
      dsimp only
      rw [ends_bind]
      refine (orHold_quiet still_quiet _ _ (retainedOriginals_quiet reads s.deliveries 0 y)).mono
        fun r z hz => ?_
      have hstill := still_quiet.trans hy hz
      cases r with
      | error f => exact hdone hstill
      | ok u =>
        have hkept := kept_of_still hstill hx
        dsimp only
        rw [ends_modify]
        have hok : Ok (z.alter fun o => ((keeping p).keep s o).recover) := by
          refine ⟨hkept.ok.ledger, fun s' hs' => ?_⟩
          obtain rfl := Option.some.inj hs'
          change Valid z.owner.setup s
          rw [hstill.owner.setup]
          exact hvalid
        refine (view_spec false clock hok (hok.knows s rfl)).mono fun r t ht => ?_
        refine ⟨ht.1.ok, ht.1.index.trans hkept.index, hkept.log.trans ht.1.log, fun hnot => ?_⟩
        rw [ht.1.recovered] at hnot
        cases hnot

theorem recover_spec (loaded funding : Answer) (reads : Nat → Answer) (e : Exchange)
    (clock : Answer) (hx : Ok x) (hfresh : x.owner.Fresh) :
    Ends (recover loaded funding reads e clock) x fun _ y => Done x y := by
  have hsame := Done.refl hx hfresh
  unfold recover
  rw [ends_bind]
  refine (start_spec false x).mono fun r y h => ?_
  obtain ⟨rfl, hstart⟩ := h
  cases r with
  | error f => exact hsame
  | ok u =>
    obtain ⟨hheld, -⟩ := hstart u rfl
    dsimp only
    rw [ends_get, ends_failIf]
    refine ⟨fun _ => hsame, fun hrecovered => ?_⟩
    have hnone := hfresh (Bool.eq_false_iff.mpr hrecovered) hheld
    rw [ends_bind]
    refine (ask_quiet still_quiet loaded _ _ y).mono fun r z hz => ?_
    have hkept := kept_of_still hz hx
    have hcurrent : z.owner.current = none := hz.owner.current.trans hnone
    have hfresh' : z.owner.Fresh := fun _ _ => hcurrent
    cases r with
    | error f => exact ⟨hkept.ok, hkept.index, hkept.log, hfresh'⟩
    | ok raw =>
      dsimp only
      rw [ends_ite]
      refine ⟨fun _ => ?_, fun _ => ?_⟩
      · rw [← hz.owner.setup, ends_bind]
        refine (commit_spec e clock hkept.ok (initial_proposable z hcurrent)).mono fun r t ht => ?_
        have hkept' := hkept.trans ht.1
        cases r with
        | error f =>
          refine ⟨hkept'.ok, hkept'.index, hkept'.log, fun _ hnot => ?_⟩
          rcases ht.2 f rfl with hheld' | hcurrent'
          · rw [hheld'] at hnot
            cases hnot
          · exact hcurrent'.trans hcurrent
        | ok v => exact ⟨⟨hkept'.ok.ledger, hkept'.ok.knows⟩, hkept'.index, hkept'.log, nofun⟩
      · refine (adopt_spec raw funding reads clock hkept.ok hcurrent).mono fun _ _ h => ?_
        exact ⟨h.ok, h.index.trans hkept.index, hkept.log.trans h.log, h.fresh⟩

/-- A view of the record that the owner knows. -/
theorem known_spec {s : FulfillmentRecord} (clock : Answer) (hx : Ok x)
    (hs : x.owner.current = some s) :
    Ends (view s false clock) x fun _ y => Kept x y :=
  (view_spec false clock hx (hx.knows s hs)).mono fun _ _ h => h.1

theorem follows_spec {s next : FulfillmentRecord} (e : Exchange) (clock : Answer) (hx : Ok x)
    (hs : x.owner.current = some s) (h : s.Follows next) :
    Ends (commit next e clock) x fun _ y => Kept x y :=
  (commit_spec e clock hx (proposable_of_follows hx hs h)).mono fun _ _ h => h.1

theorem recordVerifiedFunding_spec (funding : Answer) (e : Exchange) (clock : Answer) (hx : Ok x)
    (hfresh : x.owner.Fresh) :
    Ends (recordVerifiedFunding funding e clock) x fun _ y => Done x y := by
  have hsame := Done.refl hx hfresh
  unfold recordVerifiedFunding
  rw [ends_bind]
  refine (start_spec true x).mono fun r y h => ?_
  obtain ⟨rfl, hstart⟩ := h
  cases r with
  | error f => exact hsame
  | ok u =>
    obtain ⟨-, hrecovered⟩ := hstart u rfl
    dsimp only
    rw [ends_bind]
    refine (sourceFunding_quiet funding y).mono fun r z hz => ?_
    have hkept := kept_of_still hz hx
    have hdone {r : Except Failure View} {t : Desk (Owner p) Deed} (h : Kept z t) : Done y t :=
      (hkept.trans h).done (hrecovered rfl)
    cases r with
    | error f => exact hkept.done (hrecovered rfl)
    | ok source =>
      refine ends_orFail.mpr ⟨fun _ => hkept.done (hrecovered rfl), fun raw _ => ?_⟩
      unfold cached
      rw [bind_assoc, ends_get]
      refine ends_orFail.mpr ⟨fun _ => hkept.done (hrecovered rfl), fun s hs => ?_⟩
      cases hknown : s.fundingReceiptJson with
      | none => exact (follows_spec e clock hkept.ok hs (.funded raw hknown rfl)).mono fun r _ h => @hdone r _ h
      | some known =>
        change Ends (confirmFunding s known raw clock) z _
        unfold confirmFunding
        rw [ends_ite]
        refine ⟨fun _ => (hold_quiet still_quiet _ _).mono
          fun r _ h => @hdone r _ (kept_of_still h.1 hkept.ok), fun _ => ?_⟩
        exact (known_spec clock hkept.ok hs).mono fun r _ h => @hdone r _ h

theorem newDelivery_spec {s : FulfillmentRecord} {d : Delivery} (e : Exchange)
    (clock : Answer) (hx : Ok x) (hs : x.owner.current = some s)
    (hfunded : s.fundingReceiptJson ≠ none) (hpending : d.status = .PENDING) :
    Ends (newDelivery s d e clock) x fun _ y => Kept x y := by
  have hsame := Kept.refl hx
  unfold newDelivery
  rw [ends_failIf]
  refine ⟨fun _ => hsame,
    fun hopen => ends_failIf.mpr ⟨fun _ => hsame, fun _ => ends_failIf.mpr ⟨fun _ => hsame, fun _ =>
    ends_failIf.mpr ⟨fun _ => hsame, fun _ => ?_⟩⟩⟩⟩
  exact follows_spec e clock hx hs (.begun d hfunded (not_not.mp hopen) hpending rfl)

theorem priorDelivery_spec {s : FulfillmentRecord} (prior d : Delivery) (clock : Answer) (hx : Ok x)
    (hs : x.owner.current = some s) :
    Ends (priorDelivery s prior d clock) x fun _ y => Kept x y := by
  unfold priorDelivery
  rw [ends_failIf]
  exact ⟨fun _ => Kept.refl hx, fun _ => known_spec clock hx hs⟩

theorem beginDelivery_spec (raw digest deliveryId quantity : Value) (observed : Answer)
    (e : Exchange) (clock : Answer) (hx : Ok x) (hfresh : x.owner.Fresh) :
    Ends (beginDelivery raw digest deliveryId quantity observed e clock) x fun _ y => Done x y := by
  have hsame := Done.refl hx hfresh
  unfold beginDelivery
  refine ends_orFail.mpr
    ⟨fun _ => hsame, fun deliveryId _ => ends_orFail.mpr ⟨fun _ => hsame, fun quantity _ => ?_⟩⟩
  refine started_spec hx hfresh fun s hs => ?_
  have hsame := Kept.refl hx
  rw [ends_failIf]
  refine ⟨fun _ => hsame,
    fun hfunded => ends_orFail.mpr ⟨fun _ => hsame, fun raw _ => ends_orFail.mpr
    ⟨fun _ => hsame, fun digest _ => ?_⟩⟩⟩
  rw [ends_bind]
  refine (retainedOriginal_quiet raw digest observed x).mono fun r y hy => ?_
  have hkept := kept_of_still hy hx
  have hs' : y.owner.current = some s := hy.owner.current.trans hs
  cases r with
  | error f => exact hkept
  | ok o =>
    dsimp only
    split
    · exact (priorDelivery_spec _ _ clock hkept.ok hs').mono fun _ _ h => hkept.trans h
    · exact (newDelivery_spec e clock hkept.ok hs' hfunded rfl).mono fun _ _ h => hkept.trans h

/-- What a proof makes of the first delivery of an id. -/
theorem settleDelivery_spec {s : FulfillmentRecord} {d : Delivery} {q : Delivery → Bool}
    (raw : String) {status : DeliveryStatus} (e : Exchange) (clock : Answer) (hx : Ok x)
    (hs : x.owner.current = some s) (hfind : s.deliveries.find? q = some d)
    (hstatus : status ≠ .PENDING) :
    Ends (settleDelivery s d raw status e clock) x fun _ y => Kept x y := by
  have hsame := Kept.refl hx
  unfold settleDelivery
  rw [ends_ite]
  refine ⟨fun _ => ends_failIf.mpr ⟨fun _ => hsame, fun _ => known_spec clock hx hs⟩,
    fun hunsettled => ?_⟩
  refine ends_failIf.mpr ⟨fun _ => hsame, fun hopen => ?_⟩
  obtain ⟨hq, early, late, hdeliveries, hearly⟩ := List.find?_eq_some_iff_append.mp hfind
  have hmem : d ∉ early := fun hd => absurd hq (by simpa using hearly d hd)
  have hreplace : s.deliveries.replace d (d.proved status raw) = early
      ++ d.proved status raw :: late := by
    rw [hdeliveries, List.replace_append_right hmem, List.replace_cons_self]
  change Ends (commit { s with deliveries := s.deliveries.replace d (d.proved status raw) } e clock)
    x _
  rw [hreplace]
  exact follows_spec e clock hx hs (.proved early late d status raw (not_not.mp hopen) hdeliveries
    (Bool.eq_false_iff.mpr hunsettled) hstatus rfl)

theorem recordDelivery_spec (deliveryId candidate : Value) (a : Answer) (e : Exchange)
    (clock : Answer) (hx : Ok x) (hfresh : x.owner.Fresh) :
    Ends (recordDelivery deliveryId candidate a e clock) x fun _ y => Done x y := by
  unfold recordDelivery
  refine ends_orFail.mpr ⟨fun _ => Done.refl hx hfresh, fun deliveryId _ => started_spec hx hfresh
    fun s hs => ?_⟩
  refine ends_orFail.mpr ⟨fun _ => Kept.refl hx, fun d hfind => ?_⟩
  rw [ends_bind]
  refine (verified_quiet candidate a x).mono fun r y hy => ?_
  have hkept := kept_of_still hy hx
  cases r with
  | error f => exact hkept
  | ok raw =>
    refine ends_lift.mpr ⟨fun _ _ => hkept, fun proof hproof => ?_⟩
    have hstatus := (deliveryProof_ok.mp (failWith_ok.mp hproof)).2.2
    exact (settleDelivery_spec raw e clock hkept.ok (hy.owner.current.trans hs) hfind hstatus).mono
      fun _ _ h => hkept.trans h

theorem retainCompensation_spec (raw digest : Value) (e : Exchange) (clock : Answer) (hx : Ok x)
    (hfresh : x.owner.Fresh) : Ends (retainCompensation raw digest e clock) x fun _ y => Done x y := by
  unfold retainCompensation
  refine started_spec hx hfresh fun s hs => ?_
  have hsame := Kept.refl hx
  rw [ends_failIf]
  refine ⟨fun _ => hsame, fun hfunded => ends_orFail.mpr ⟨fun _ => hsame, fun raw _ => ends_orFail.mpr
    ⟨fun _ => hsame, fun digest _ => ends_lift.mpr ⟨fun _ _ => hsame, fun o _ => ?_⟩⟩⟩⟩
  unfold keepCompensation
  cases hc : s.compensation with
  | some c => exact ends_failIf.mpr ⟨fun _ => hsame, fun _ => known_spec clock hx hs⟩
  | none => exact follows_spec e clock hx hs (.retained ⟨raw, digest, .RETAINED, none⟩ hfunded hc rfl rfl)

theorem recordCompensation_spec (candidate : Value) (a : Answer) (e : Exchange)
    (clock : Answer) (hx : Ok x) (hfresh : x.owner.Fresh) :
    Ends (recordCompensation candidate a e clock) x fun _ y => Done x y := by
  unfold recordCompensation
  refine started_spec hx hfresh fun s hs => ?_
  refine ends_orFail.mpr
    ⟨fun _ => Kept.refl hx, fun c hc => ends_lift.mpr ⟨fun _ _ => Kept.refl hx, fun o _ => ?_⟩⟩
  rw [ends_bind]
  refine (verified_quiet candidate a x).mono fun r y hy => ?_
  have hkept := kept_of_still hy hx
  have hs' : y.owner.current = some s := hy.owner.current.trans hs
  cases r with
  | error f => exact hkept
  | ok raw =>
    refine ends_lift.mpr ⟨fun _ _ => hkept, fun proof hproof => ?_⟩
    have hstatus := (compensationProof_ok.mp (failWith_ok.mp hproof)).2.2
    unfold settleCompensation
    rw [ends_ite]
    refine ⟨fun _ => ends_failIf.mpr ⟨fun _ => hkept, fun _ => ?_⟩, fun hunconfirmed => ?_⟩
    · exact (known_spec clock hkept.ok hs').mono fun _ _ h => hkept.trans h
    · exact (follows_spec e clock hkept.ok hs'
        (.compensated c proof.status raw hc hunconfirmed hstatus rfl)).mono
        fun _ _ h => hkept.trans h

theorem read_spec (clock : Answer) (hx : Ok x) (hfresh : x.owner.Fresh) :
    Ends (read clock) x fun _ y => Done x y := by
  unfold read
  exact started_spec hx hfresh fun s hs => known_spec clock hx hs

/-- Every turn keeps all in order. -/
theorem turn_spec (t : Turn) (hx : Ok x) (hfresh : x.owner.Fresh) : Done x (t.run x) := by
  cases t with
  | recover loaded funding reads e clock =>
      exact recover_spec loaded funding reads e clock hx hfresh
  | recordVerifiedFunding funding e clock =>
      exact recordVerifiedFunding_spec funding e clock hx hfresh
  | beginDelivery raw digest deliveryId quantity observed e clock =>
    exact beginDelivery_spec raw digest deliveryId quantity observed e clock hx hfresh
  | recordDelivery deliveryId candidate a e clock =>
      exact recordDelivery_spec deliveryId candidate a e clock hx hfresh
  | retainCompensation raw digest e clock =>
      exact retainCompensation_spec raw digest e clock hx hfresh
  | recordCompensation candidate a e clock =>
      exact recordCompensation_spec candidate a e clock hx hfresh
  | read clock => exact read_spec clock hx hfresh
  | close => exact ⟨⟨hx.ledger, hx.knows⟩, rfl, List.prefix_rfl, hfresh⟩

/-! ### Any number of owners -/

def AtRest (o : Owner p) (_ : Nat) (_ : List Deed) : Prop := o.Knows ∧ o.Fresh

theorem create_rests (setup : Setup p) (index : Nat) (log : List Deed) :
    AtRest (Owner.create setup) index log :=
  ⟨fun s hs => (nomatch (show none = some s from hs)), fun _ _ => rfl⟩

theorem run_ok (events : List (Js.Event (Setup p) Turn)) :
    (System.initial.run (practice p) events).Ok (Ledger p) AtRest := by
  refine System.run_ok (fun o index log log' _ h => h) (fun t x hledger hrests => ?_) events
    (System.initial_ok Ledger.initial) fun i setup log _ => create_rests setup _ log
  obtain ⟨hok, hindex, hlog, hfresh⟩ := turn_spec t ⟨hledger, hrests.1⟩ hrests.2
  exact ⟨hok.ledger, hindex, hlog, hok.knows, hfresh⟩

/-- Any number of owners of one order, started at any time, with any originals, proofs and answers
of their ports: what is stored is liable for what was purchased, no more and no less; what is
settled in it stays in all that is stored later; and any view says that what was purchased is
delivered, paid back or owed, once its funding is recorded. -/
theorem liability_conserved (p : OrderPayment w) (events : List (Js.Event (Setup p) Turn)) :
    let σ := System.initial.run (practice p) events
    σ.stored = (keeping p).value (tip σ.log)
      ∧ (∀ (pre mid post : List Deed) (a : FulfillmentRecord), σ.log = pre ++ mid ++ post →
        tip pre = some a →
        Liable p a ∧ ∃ b, tip (pre ++ mid) = some b ∧ a.Keeps b)
      ∧ ∀ (index : Nat) (v : View), .viewed index v ∈ σ.log → v.Conserved p := by
  intro σ
  have hok : σ.Ok (Ledger p) AtRest := run_ok events
  refine ⟨hok.ledger.stored, fun pre mid post a hlog ha => ⟨?_, ?_⟩, fun index v hmem => ?_⟩
  · exact hok.ledger.liable pre (mid ++ post) (by rw [hlog, List.append_assoc]) ha
  · exact hok.ledger.keeps pre mid post hlog ha
  · obtain ⟨pre, post, hlog⟩ := List.append_of_mem hmem
    cases hok.ledger.lawful pre _ post hlog with
    | viewed setup s changed at' hs => exact viewOf_conserved hs changed at'

/-! ### A purchase -/

namespace Sample

def wire (sha : Sha256) : Wire where
  sha := sha
  fingerprint bytes := sha.hex (String.ofList (bytes.map Char.ofNat))
  isOrigin s := s == "https://pay.example"
  isExact s := (parse s).any fun v => stringify v == s
  request _ _ _ := none
  issue _ _ checkpoint := some ⟨⟨"sha256:" ++ sha.hex checkpoint.binding.paymentHash,
    Text.prefixed_append _ (sha.isHash_hex _)⟩, 2000, 5, "https://api.example/render"⟩
  verified _ _ := none
  isEvidence _ _ := false

variable (sha : Sha256)

def rules : Policy := ⟨⟨"minute", by decide⟩, ⟨2000, by decide⟩, ⟨3000, by decide⟩, ⟨2, by decide⟩⟩

def policyJson : String := stringify (policyCodec.encode rules)

def terms : Terms where
  orderId := evaluated "order-1"
  productId := evaluated "render"
  beneficiary := evaluated "buyer"
  holder := evaluated "z1buyer"
  asset := evaluated "zts1znn"
  unit := evaluated "raw"
  amount := evaluated "100"
  quantity := evaluated 5
  network := evaluated "zenon:1"
  conditionsDigest := digest (wire sha) "zenon-x402.purchase-fulfillment.v1:policy" policyJson

def termsJson : String := stringify (termsCodec.encode (terms sha))

def termsDigest : Hash := digest (wire sha) "zenon-x402:purchased-terms-storage:v1" (termsJson sha)

def fingerprintOf (text : String) : {s : String // Text.isHash s = true} :=
  ⟨sha.hex text, sha.isHash_hex text⟩

def binding : PaymentBinding :=
  ⟨"request-1", "00000000000000000000000000000000000000000000000000000000000000aa",
    "https://pay.example", "context-1"⟩

theorem binding_checked : binding.checked (wire sha) = true := by
  unfold PaymentBinding.checked
  change (isReference binding.requestId && isReference binding.contextId
    && isPaymentHash binding.paymentHash
    && (decide (binding.origin.utf8ByteSize ≤ 2048) && binding.origin == "https://pay.example"))
    = true
  decide

def checkpoint : Checkpoint (wire sha) where
  pins := ⟨⟨binding, binding_checked sha⟩,
    ⟨fingerprintOf sha "", fingerprintOf sha "p", fingerprintOf sha "r", fingerprintOf sha "c"⟩⟩
  originalBytes := ⟨"", "cA==", "cg==", "Yw=="⟩

theorem fingerprint_eq {w : Wire} {s : String} {bytes : List Nat} {mayBeEmpty : Bool}
    (h : base64Bytes? s = some bytes)
    (hbytes : base64Text bytes = s ∧ bytes.length ≤ 4096 ∧ (bytes = [] → mayBeEmpty = true)) :
    fingerprint w s mayBeEmpty = some (w.fingerprint bytes) := by
  unfold fingerprint
  rw [h]
  exact if_pos hbytes

theorem checkpoint_checked : (checkpoint sha).fields.checked (wire sha) = true := by
  have hempty : fingerprint (wire sha) "" true = some (sha.hex "") :=
    fingerprint_eq (by decide : base64Bytes? "" = some []) (by decide)
  have hp : fingerprint (wire sha) "cA==" false = some (sha.hex "p") :=
    fingerprint_eq (by decide : base64Bytes? "cA==" = some [112]) (by decide)
  have hr : fingerprint (wire sha) "cg==" false = some (sha.hex "r") :=
    fingerprint_eq (by decide : base64Bytes? "cg==" = some [114]) (by decide)
  have hc : fingerprint (wire sha) "Yw==" false = some (sha.hex "c") :=
    fingerprint_eq (by decide : base64Bytes? "Yw==" = some [99]) (by decide)
  unfold CheckpointFields.checked
  simp only [Bool.and_eq_true, beq_iff_eq]
  exact ⟨⟨⟨hempty, hp⟩, hr⟩, hc⟩

def paymentCheckpointJson : String :=
  stringify ((checkpointCodec (wire sha)).encode ⟨checkpoint sha, checkpoint_checked sha⟩)

def paymentPinsJson : String := stringify ((pinsCodec (wire sha)).encode (checkpoint sha).pins)

def context : Value :=
  .obj [("version", .num 1), ("orderId", .str "order-1"),
    ("acceptedTermsDigest", .str (termsDigest sha).1), ("policyJson", .str policyJson),
    ("offer", .obj [("serviceId", .str "render")]), ("challenge", .null),
  ("authorityProfile", .null)]

def fundingContextJson : String := stringify (context sha)

theorem size_fingerprint (text : String) : (fingerprintOf sha text).1.utf8ByteSize = 64 :=
  Text.size_isHash (fingerprintOf sha text).2

theorem size_terms : (termsJson sha).utf8ByteSize ≤ 3000 := by
  refine Value.size_stringify_le (termsCodec.json_encode _) ?_
  change Value.textBytes
    (Value.tally (fun _ => false)
      (.obj [("termsVersion", .num 1), ("orderId", .str "order-1"), ("productId", .str "render"),
        ("beneficiary", .str "buyer"), ("holder", .str "z1buyer"),
    ("price", .obj [("asset", .str "zts1znn"), ("unit", .str "raw"), ("amount", .str "100")]),
    ("quantity", .num 5),
    ("network", .str "zenon:1"), ("conditionsDigest", .str (terms sha).conditionsDigest.1)])) ≤ 3000
  simp only [Value.tally, Value.tallyMembers, size_hash, List.length_cons, List.length_nil]
  decide

theorem json_context : (context sha).Json := by
  refine .obj (show contextNames.Nodup by decide) fun f hf => ?_
  simp only [List.mem_cons, List.not_mem_nil, or_false] at hf
  rcases hf with rfl | rfl | rfl | rfl | rfl | rfl | rfl
  all_goals first | exact .str _ | exact .null | exact .num (by decide) | skip
  refine .obj (by decide) fun f hf => ?_
  rw [List.mem_singleton.mp hf]
  exact .str _

theorem size_context : (fundingContextJson sha).utf8ByteSize ≤ 4000 := by
  refine Value.size_stringify_le (json_context sha) ?_
  unfold context
  simp only [Value.tally, Value.tallyMembers, size_hash, List.length_cons, List.length_nil]
  decide +kernel

theorem size_checkpoint : (paymentCheckpointJson sha).utf8ByteSize ≤ 8000 := by
  refine Value.size_stringify_le ((checkpointCodec (wire sha)).json_encode _) ?_
  change Value.textBytes
    (Value.tally (fun _ => false)
      (.obj [("version", .num 1), ("authorization", .str "NONE"),
        ("binding", .obj [("requestId", .str "request-1"),
          ("paymentHash", .str binding.paymentHash), ("origin", .str "https://pay.example"),
          ("contextId", .str "context-1")]),
    ("originalBytes", .obj [("requestBody", .str ""), ("paymentPayload", .str "cA=="),
      ("paymentRequirements", .str "cg=="), ("context", .str "Yw==")]),
    ("digests", .obj [("requestBody", .str (fingerprintOf sha "").1),
      ("paymentPayload", .str (fingerprintOf sha "p").1),
      ("paymentRequirements", .str (fingerprintOf sha "r").1),
      ("context", .str (fingerprintOf sha "c").1)])])) ≤ 8000
  simp only [Value.tally, Value.tallyMembers, size_fingerprint, List.length_cons, List.length_nil]
  decide

theorem size_pins : (paymentPinsJson sha).utf8ByteSize ≤ 4096 := by
  refine Value.size_stringify_le ((pinsCodec (wire sha)).json_encode _) ?_
  change Value.textBytes (Value.tally (fun _ => false) (.obj [
    ("binding", .obj [("requestId", .str "request-1"), ("paymentHash", .str binding.paymentHash),
      ("origin", .str "https://pay.example"), ("contextId", .str "context-1")]),
    ("digests", .obj [("requestBody", .str (fingerprintOf sha "").1),
      ("paymentPayload", .str (fingerprintOf sha "p").1),
      ("paymentRequirements", .str (fingerprintOf sha "r").1),
      ("context", .str (fingerprintOf sha "c").1)])])) ≤ 4096
  simp only [Value.tally, Value.tallyMembers, size_fingerprint, List.length_cons, List.length_nil]
  decide

/-- The payment of the sample. -/
def payment : OrderPayment (wire sha) where
  termsJson := termsJson sha
  termsDigest := termsDigest sha
  paymentCheckpointJson := paymentCheckpointJson sha
  fundingContextJson := fundingContextJson sha
  terms := terms sha
  rules := rules
  checkpoint := checkpoint sha
  issue := ⟨⟨"sha256:" ++ sha.hex binding.paymentHash, Text.prefixed_append _ (sha.isHash_hex _)⟩,
    2000, 5, "https://api.example/render"⟩

theorem wire_isExact (s : String) :
    (wire sha).isExact s = (parse s).any fun v => stringify v == s := rfl

theorem context_exact : (wire sha).isExact (fundingContextJson sha) = true := by
  rw [wire_isExact, fundingContextJson, parse_stringify (json_context sha)]
  exact beq_self_eq_true _

theorem policy_read : policy policyJson = .ok rules := Codec.ofText_ok.mpr ⟨rfl, by decide +kernel⟩

theorem context_read : fundingContext (wire sha) (terms sha) (termsDigest sha)
    (fundingContextJson sha) = .ok rules := by
  have hparse : parse (fundingContextJson sha) = some (context sha) :=
    parse_stringify (json_context sha)
  have htext := isText_of_size (size_context sha) (show 4000 ≤ 65536 by decide)
    (stringify_ne_empty _)
  unfold fundingContext
  simp only [bind_ok, rejectIf_ok, orReject_ok]
  refine ⟨(), ?_, context sha, hparse, (⟨contextNames, .refl _⟩, _), rfl, (), not_not.mpr rfl, (),
    ?_, policyJson, rfl, rules, policy_read, (), not_not.mpr rfl, rfl⟩
  · rw [htext, context_exact]
    decide
  · simp only [not_or, Bool.not_eq_false, ne_eq, not_not]
    exact ⟨rfl, Value.strictEq_str.mpr rfl, Value.strictEq_str.mpr rfl, rfl⟩

theorem size_record : (payment sha).paymentRecordJson.utf8ByteSize ≤ 100000 := by
  have hterms := size_terms sha
  have hcheckpoint := size_checkpoint sha
  have hcontext := size_context sha
  have hrest : Value.textBytes (Value.tally (fun _ => false) (.obj [("version", .num 1),
    ("profile", .str "zenon-x402.order-funding.v1"), ("termsJson", .null),
    ("paymentCheckpointJson", .null),
    ("fundingContextJson", .null)])) ≤ 2000 := by decide
  refine Value.size_stringify_le (paymentRecordCodec.json_encode _) ?_
  change Value.textBytes (Value.tally (fun _ => false) (.obj [("version", .num 1),
    ("profile", .str "zenon-x402.order-funding.v1"), ("termsJson", .str (termsJson sha)),
    ("paymentCheckpointJson", .str (paymentCheckpointJson sha)),
    ("fundingContextJson", .str (fundingContextJson sha))])) ≤ _
  simp only [Value.tally, Value.tallyMembers, Value.textBytes_inside, Value.textBytes_combine,
    Value.textBytes_keyEntry, Value.textBytes_stringLeaf, Value.textBytes_leaf] at hrest ⊢
  omega

theorem captured : capturePurchasedOrderPayment (wire sha) (termsJson sha) (termsDigest sha)
    (paymentCheckpointJson sha) (paymentPinsJson sha) (fundingContextJson sha)
      = .ok (payment sha) := by
  have hterms : snapshotPurchasedServiceTerms (termsJson sha) = .ok (terms sha) :=
    Codec.ofText_ok.mpr ⟨rfl, (size_terms sha).trans (by decide)⟩
  have hdigest : purchasedTermsStorageDigest (wire sha) (termsJson sha)
      = .ok (termsDigest sha) := by
    unfold purchasedTermsStorageDigest
    rw [hterms]
    rfl
  have hpins : exactPins (paymentPinsJson sha)
      = .ok ((pinsCodec (wire sha)).encode (checkpoint sha).pins) :=
    exactPins_ok.mpr ⟨isText_of_size (size_pins sha) le_rfl (stringify_ne_empty _),
      parse_stringify (Codec.json_encode _ _), rfl⟩
  have hrestore : restoreOriginalPaymentCheckpoint (wire sha) (paymentCheckpointJson sha)
      ((pinsCodec (wire sha)).encode (checkpoint sha).pins)
      = .ok (checkpoint sha) :=
    restore_ok.mpr ⟨checkpoint_checked sha, decode_pins _, rfl,
      (size_checkpoint sha).trans (by decide)⟩
  exact captureOrder_ok.mpr ⟨rfl, rfl, rfl, rfl, captureTerms_ok.mpr ⟨hterms, hdigest⟩,
    context_read sha, ⟨_, hpins, hrestore⟩, rfl, rfl,
    isText_of_size (size_record sha) (by decide) (stringify_ne_empty _)⟩

def setup : Setup (payment sha) := ⟨paymentPinsJson sha, captured sha, evaluated "store-1"⟩

end Sample

/-- Before the funding is recorded nothing of what was purchased is delivered, paid back or owed. -/
theorem nothing_owed_before_funding :
    ∃ v, .viewed 0 v ∈ (System.initial.run (practice (Sample.payment .standard))
      [.create (Sample.setup .standard), .turn 0 .first]).log ∧ v.purchasedQuantity.value = 5
    ∧ v.deliveredQuantity = 0 ∧ v.compensatedQuantity = 0 ∧ v.quantityOwed = 0 := by
  refine ⟨viewOf (Sample.payment .standard) (Sample.setup .standard).initial true ⟨1000, by decide⟩,
    ?_, rfl, rfl, rfl, rfl⟩
  rw [first_log]
  exact List.mem_cons_of_mem _ List.mem_cons_self

end Fulfillment
end Order
end ZenonX402
