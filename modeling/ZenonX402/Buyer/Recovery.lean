/-
# Keeping a submitted payment

One `paidFetch` of a buyer and any `reconcilePayment` calls after it, in any order and
overlapping. The signed payment is the text of one header (`RecoveryState`); who may
submit it again is in a `WeakMap` from objects to such texts, where an outcome that is
not settled puts the object that it gives to the caller, and where a call takes it out
before it submits. The fetches, the payment client and the capabilities it declares are
the caller's, and may do anything.

In every run the payment client is asked for a payment at most once, every submission
has the same text and the same target, every submission ends with a settlement of the
payment or with one object that may submit it again, and each object is used at most
once (`payment_kept`).

Key definitions: `selectOffer`, `preparePayment`, `resumePayment`, `State`, `Step`.
Key theorems: `Inv.step`, `payment_kept`.
-/
import ZenonX402.Lib.Trace
import ZenonX402.Buyer.Agreement

namespace ZenonX402
namespace Buyer

open Js
open Journal (get isText Node)
open Resource (hasOwn isObject decodeX402Header encodeX402Header offers mem_concat
  sameRequirements sameResource)

/-! ### The offer -/

structure Route where
  scheme : String
  network : String
  paymentFlows : List String

/-- What a payment client says that it can pay. -/
structure Capabilities where
  x402Version : Value
  routes : List Route

/-- What a `paidFetch` is called with; `href` is that of `new URL(text)`, if it parses. -/
structure Setup where
  node : Node
  href : String → Option String
  url : String
  capabilities : Option Capabilities
  allowLegacyMissingPaymentFlow : Bool

/-- The response with status 402: its header, its `url` if it has one, and which timeouts of the
offers are positive, where they are no integers. -/
structure Challenge where
  header : Option String
  url : Option String
  positive : Nat → Bool

/-- The offer that the buyer takes, in its challenge. -/
structure Selected where
  target : String
  paymentRequired : Value
  accepted : Value

def Route.pays (route : Route) (requirement : Value) : Bool :=
  (get requirement "scheme").strictEq (.str route.scheme)
    && (get requirement "network").strictEq (.str route.network)
    && route.paymentFlows.contains "upfront"

def capabilitiesSupportUpfront (capabilities : Capabilities)
    (paymentRequired requirement : Value) : Bool :=
  capabilities.x402Version.strictEq (get paymentRequired "x402Version")
    && capabilities.routes.any (·.pays requirement)

def validateSelectedRequirement (requirement : Value)
    (allowLegacyMissingPaymentFlow : Bool) : Bool :=
  if allowLegacyMissingPaymentFlow && isObject (get requirement "extra")
      && !hasOwn (get requirement "extra") "paymentFlow" then
    Resource.validateRequirement requirement
  else Resource.validateActiveUpfrontRequirement requirement

/-- An offer that the client can pay upfront. -/
def isCandidate (capabilities : Capabilities) (candidate : Value) : Bool :=
  capabilities.routes.any (·.pays candidate) && isObject (get candidate "extra")
    && (get (get candidate "extra") "paymentFlow").strictEq (.str "upfront")

def selectPaymentRequirement (paymentRequired : Value) (paymentCapabilities : Option Capabilities)
    (allowLegacyMissingPaymentFlow : Bool) : Option Value := match offers paymentRequired with
  | [accepted] => do
    guard (validateSelectedRequirement accepted allowLegacyMissingPaymentFlow = true)
    guard ((paymentCapabilities.all fun c => capabilitiesSupportUpfront c paymentRequired accepted)
      = true)
    return accepted
  | accepts => do
    let capabilities ← paymentCapabilities
    guard (capabilities.x402Version.strictEq (get paymentRequired "x402Version") = true)
    let candidate ← accepts.find? (isCandidate capabilities)
    guard (Resource.validateActiveUpfrontRequirement candidate = true)
    return candidate

def textOf : Value → Option String
  | .str s => some s
  | _ => none

/-- What `paidFetch` makes of the challenge; `none` if it throws. -/
def selectOffer (setup : Setup) (challenge : Challenge) : Option Selected := do
  let requiredHeader ← challenge.header
  let paymentRequired ← decodeX402Header requiredHeader
  guard (Resource.validatePaymentRequiredForOfferSelection setup.node challenge.positive
    paymentRequired = true)
  guard ((offers paymentRequired).length = 1 →
    Resource.validatePaymentRequired setup.node paymentRequired = true)
  let responseTarget := challenge.url.getD setup.url
  let resourceUrl ← textOf (get (get paymentRequired "resource") "url")
  let advertisedResource ← setup.node.url resourceUrl
  guard (advertisedResource.username = "" ∧ advertisedResource.password = "")
  let advertisedHref ← setup.href resourceUrl
  let targetHref ← setup.href responseTarget
  guard (advertisedHref = targetHref)
  let accepted ← selectPaymentRequirement paymentRequired setup.capabilities
      setup.allowLegacyMissingPaymentFlow
  guard ((get accepted "network").strictEq (.str Resource.EXPERIMENTAL_LIVE_NETWORK) = true →
    advertisedResource.protocol = "https:")
  return ⟨responseTarget, paymentRequired, accepted⟩

/-! ### The payment -/

structure RecoveryState where
  target : String
  encodedPayment : String
  paymentRequired : Value
  accepted : Value

/-- What the payment client gave: whether the object passes the checks as it shows itself, and its
JSON text. -/
structure Prepared where
  valid : Bool
  json : Option String

/-- The payment as it will be submitted, with its data; `none` if `paidFetch` throws. -/
def preparePayment (node : Node) (selected : Selected) (prepared : Prepared) :
    Option (RecoveryState × Value) := do
  guard (prepared.valid = true)
  let json ← prepared.json
  let encodedPayment ← Resource.encodeB64Text json Resource.MAX_X402_HEADER_ENCODED_BYTES
  let submittedPaymentPayload ← decodeX402Header encodedPayment
  guard (validateBuyerPaymentPayload node submittedPaymentPayload selected.paymentRequired
    selected.accepted = true)
  return (⟨selected.target, encodedPayment, selected.paymentRequired, selected.accepted⟩,
    submittedPaymentPayload)

/-- The payment that `reconcilePayment` submits again; `none` if it throws. -/
def resumePayment (node : Node) (recovery : RecoveryState) : Option Value := do
  let paymentPayload ← decodeX402Header recovery.encodedPayment
  guard (validateBuyerPaymentPayload node paymentPayload recovery.paymentRequired
    recovery.accepted = true)
  return paymentPayload

/-! ### Calls -/

/-- How far `paidFetch` is: `none` for a challenge that it refuses when the body is cancelled. -/
inductive Paying where
  | challenging
  | cancelling (selected : Option Selected)
  | creating (selected : Selected)
  | over

/-- Objects are numbered as they are made: `owners` is `RECOVERY_OWNER_STATES`, `next` the next
number. A call that waits for the response to its submission has the payment. -/
structure State where
  paying : Paying
  owners : Nat → Option RecoveryState
  next : Nat
  calls : List (Option (RecoveryState × Value))

def State.initial : State := ⟨.challenging, fun _ => none, 0, []⟩

inductive Event where
  /-- `paidFetch` ends, with an error or a response, and nothing was submitted. -/
  | stopped
  | challenged
  /-- The payment client is asked for a payment. -/
  | created
  /-- A call submits the payment; `owner` is the object that it was given. -/
  | submitted (owner : Option Nat) (call : Nat) (target paymentSignature : String)
  /-- `reconcilePayment` refuses what it was given. -/
  | refused (owner : Option Nat)
  /-- `reconcilePayment` throws after it has taken the payment. -/
  | lost (owner : Nat)
  /-- A call ends and gives the object, which is an outcome or an error. -/
  | ended (call : Nat) (submission : Submission) (object : Nat)

/-- The submission leaves a handle with its object. -/
def Submission.hasHandle : Submission → Bool
  | .unknown _ => true
  | .settled _ handle => handle

/-- `exposeRecoveryOwner`: `none` if the object is an owner already. -/
def exposeRecoveryOwner (owners : Nat → Option RecoveryState) (object : Nat)
    (recovery : RecoveryState) :
    Option (Nat → Option RecoveryState) :=
  if (owners object).isSome then none else some (Function.update owners object (some recovery))

/-- The owners once a call has ended. -/
def ownersAfter (s : State) (submission : Submission) (recovery : RecoveryState) :
    Option (Nat → Option RecoveryState) :=
  if submission.hasHandle then exposeRecoveryOwner s.owners s.next recovery else some s.owners

inductive Step (setup : Setup) : State → Event → State → Prop
  /-- The first fetch throws, or its response asks for nothing. -/
  | unpaid {s : State} (h : s.paying = .challenging) :
      Step setup s .stopped { s with paying := .over }
  | challenge {s : State} (challenge : Challenge) (h : s.paying = .challenging) :
      Step setup s .challenged { s with paying := .cancelling (selectOffer setup challenge) }
  | uncancelled {s : State} {selected : Option Selected} (h : s.paying = .cancelling selected) :
      Step setup s .stopped { s with paying := .over }
  | cancelled {s : State} {selected : Selected} (h : s.paying = .cancelling (some selected)) :
      Step setup s .created { s with paying := .creating selected }
  /-- The client throws, or what it gave is refused. -/
  | unprepared {s : State} {selected : Selected} (h : s.paying = .creating selected) :
      Step setup s .stopped { s with paying := .over }
  | prepared {s : State} {selected : Selected} {prepared : Prepared} {recovery : RecoveryState}
      {paymentPayload : Value} (h : s.paying = .creating selected)
      (hprepared : preparePayment setup.node selected prepared = some (recovery, paymentPayload)) :
      Step setup s (.submitted none s.calls.length recovery.target recovery.encodedPayment)
        { s with paying := .over, calls := s.calls ++ [some (recovery, paymentPayload)] }
  | foreign {s : State} {owner : Option Nat} (h : owner.bind s.owners = none) :
      Step setup s (.refused owner) s
  | resume {s : State} {owner : Nat} {recovery : RecoveryState} {paymentPayload : Value}
      (h : s.owners owner = some recovery)
      (hresumed : resumePayment setup.node recovery = some paymentPayload) :
      Step setup s (.submitted (some owner) s.calls.length recovery.target recovery.encodedPayment)
        { s with owners := Function.update s.owners owner none, calls := s.calls ++ [some
          (recovery, paymentPayload)] }
  | lose {s : State} {owner : Nat} {recovery : RecoveryState} (h : s.owners owner = some recovery)
      (hresumed : resumePayment setup.node recovery = none) :
      Step setup s (.lost owner) { s with owners := Function.update s.owners owner none }
  | finish {s : State} {call : Nat} {recovery : RecoveryState} {paymentPayload : Value}
      {response : Option Fetched} {owners : Nat → Option RecoveryState}
      (h : s.calls[call]? = some (some (recovery, paymentPayload)))
      (howners : ownersAfter s (submitBoundPayment paymentPayload response) recovery
        = some owners) :
      Step setup s (.ended call (submitBoundPayment paymentPayload response) s.next)
        { s with owners := owners, next := s.next + 1, calls := s.calls.set call none }
  /-- An object that would be an owner twice: the call throws without one. -/
  | expose {s : State} {call : Nat} {recovery : RecoveryState} {paymentPayload : Value}
      {response : Option Fetched} (h : s.calls[call]? = some (some (recovery, paymentPayload)))
      (howners : ownersAfter s (submitBoundPayment paymentPayload response) recovery = none) :
      Step setup s (.lost s.next) { s with next := s.next + 1, calls := s.calls.set call none }

/-! ### What is kept -/

/-- The text carries the payment for the offer, which is one of the challenge. -/
structure Carries (paymentSignature : String) (selected : Selected) (paymentPayload : Value) :
    Prop where
  decoded : decodeX402Header paymentSignature = some paymentPayload
  requirement : Value.Same (get paymentPayload "accepted") selected.accepted
  resource : Value.Same (get paymentPayload "resource") (get selected.paymentRequired "resource")
  offered : selected.accepted ∈ offers selected.paymentRequired

/-- The payment that is kept, and the offer that it is for. -/
structure Bound (setup : Setup) (selected : Selected) (recovery : RecoveryState)
    (paymentPayload : Value) : Prop where
  challenge : ∃ challenge, selectOffer setup challenge = some selected
  target : recovery.target = selected.target
  required : recovery.paymentRequired = selected.paymentRequired
  accepted : recovery.accepted = selected.accepted
  decoded : decodeX402Header recovery.encodedPayment = some paymentPayload
  valid : validateBuyerPaymentPayload setup.node paymentPayload selected.paymentRequired
    selected.accepted = true

/-- The event uses an object to submit the payment again. -/
def Event.Consumes (event : Event) (owner : Nat) : Prop :=
  ∃ call target paymentSignature, event = .submitted (some owner) call target paymentSignature

/-- The event gives an object that may submit the payment again. -/
def Event.Exposes (event : Event) (owner : Nat) : Prop :=
  ∃ call submission, event = .ended call submission owner ∧ submission.hasHandle = true

/-- The event is of `paidFetch` before it submits, or changes nothing. -/
def Event.IsQuiet : Event → Prop
  | .stopped | .challenged | .created | .refused _ => True
  | .submitted .. | .lost _ | .ended .. => False

/-- Nothing was submitted so far. -/
structure Unsubmitted (setup : Setup) (past : List Event) (s : State) : Prop where
  quiet : ∀ e ∈ past, e.IsQuiet
  owners : ∀ o, s.owners o = none
  calls : s.calls = []
  selected : ∀ selected, s.paying = .cancelling (some selected) ∨ s.paying = .creating selected →
    ∃ challenge, selectOffer setup challenge = some selected
  created : .created ∈ past → s.paying = .over ∨ ∃ selected, s.paying = .creating selected
  once : past.Pairwise fun e e' => e = .created → e' ≠ .created

/-- The payment was submitted, and one call or one object has it, or it is settled. -/
structure Kept (past : List Event) (s : State) (recovery : RecoveryState) (paymentPayload : Value) :
    Prop where
  isOver : s.paying = .over
  first : ∃ owner call, .submitted owner call recovery.target recovery.encodedPayment ∈ past
  submitted : ∀ owner call target paymentSignature,
    .submitted owner call target paymentSignature ∈ past →
    target = recovery.target ∧ paymentSignature = recovery.encodedPayment
  owners : ∀ o r, s.owners o = some r → r = recovery ∧ o < s.next ∧ ∃ e ∈ past, e.Exposes o
  calls : ∀ (c : Nat) x, s.calls[c]? = some (some x) → x = (recovery, paymentPayload)
  oneOwner : ∀ o o', s.owners o ≠ none → s.owners o' ≠ none → o = o'
  oneCall : ∀ (c c' : Nat) x x', s.calls[c]? = some (some x) → s.calls[c']?
    = some (some x') → c = c'
  either : ∀ o (c : Nat) x, s.owners o ≠ none → s.calls[c]? ≠ some (some x)
  consumed : ∀ e ∈ past, ∀ o, e.Consumes o → s.owners o = none ∧ o < s.next
  consumedOnce : past.Pairwise fun e e' => ∀ o, e.Consumes o → ¬ e'.Consumes o
  kept : ∀ o, .lost o ∉ past
  once : past.Pairwise fun e e' => e = .created → e' ≠ .created

/-- What holds all along a run. -/
inductive Inv (setup : Setup) (past : List Event) (s : State) : Prop
  | unsubmitted (h : Unsubmitted setup past s)
  | kept {selected : Selected} {recovery : RecoveryState} {paymentPayload : Value}
      (hbound : Bound setup selected recovery paymentPayload)
      (h : Kept past s recovery paymentPayload)

section

variable {setup : Setup} {past : List Event} {s t : State} {e : Event} {selected : Selected}
    {recovery : RecoveryState}
  {paymentPayload : Value}

theorem Inv.initial (setup : Setup) : Inv setup [] State.initial :=
  .unsubmitted ⟨List.forall_mem_nil _, fun _ => rfl, rfl,
    (fun _ h => by rcases h with h | h <;> cases h), fun h => absurd h List.not_mem_nil, .nil⟩

/-- The kept text is submitted again without fail. -/
theorem Bound.resumes (h : Bound setup selected recovery paymentPayload) :
    resumePayment setup.node recovery = some paymentPayload := by
  have hvalid := h.valid
  rw [← h.required, ← h.accepted] at hvalid
  simp [resumePayment, h.decoded, guard, hvalid]

/-- A payment that was prepared is bound to the offer. -/
theorem bound_of_prepared {prepared : Prepared}
    (hchallenge : ∃ challenge, selectOffer setup challenge = some selected)
    (h : preparePayment setup.node selected prepared = some (recovery, paymentPayload)) :
    Bound setup selected recovery paymentPayload := by
  simp only [preparePayment, Option.bind_eq_bind, Option.bind_eq_some_iff, guard_some,
    Option.pure_def, Option.some.injEq] at h
  obtain ⟨_, _, json, _, encoded, _, payload, hdecode, _, hvalid, heq⟩ := h
  obtain ⟨rfl, rfl⟩ := Prod.mk.inj heq
  exact ⟨hchallenge, rfl, rfl, rfl, hdecode, hvalid⟩

/-- A list of events one longer. -/
theorem pairwise_concat_iff {R : Event → Event → Prop} :
    (past ++ [e]).Pairwise R ↔ past.Pairwise R ∧ ∀ e' ∈ past, R e' e := by
  rw [List.pairwise_append]
  simp only [List.pairwise_singleton, true_and, List.mem_singleton, forall_eq]

/-- Nothing was submitted before the payment that is prepared. -/
theorem Unsubmitted.prepared (h : Unsubmitted setup past s) : Kept (past ++
    [.submitted none s.calls.length recovery.target recovery.encodedPayment])
    { s with paying := .over, calls := s.calls ++ [some (recovery, paymentPayload)] }
    recovery paymentPayload := by
  have hnoEvent {e : Event} (hmem : e ∈ past) (he : ¬ e.IsQuiet) : False := he (h.quiet e hmem)
  refine ⟨rfl, ⟨_, _, mem_concat.mpr (.inr rfl)⟩, ?_, ?_, ?_, ?_, ?_, ?_, ?_, ?_, ?_,
    pairwise_concat_iff.mpr ⟨h.once, fun _ _ _ => Event.noConfusion⟩⟩
  · intro owner call target paymentSignature hmem
    rcases mem_concat.mp hmem with hmem | heq
    · exact (hnoEvent hmem id).elim
    · cases heq
      exact ⟨rfl, rfl⟩
  · intro o r hr
    rw [h.owners o] at hr
    cases hr
  · intro c x hx
    rcases Resource.getElem?_concat_some.mp hx with hx | ⟨_, hx⟩
    · rw [h.calls] at hx
      cases hx
    · exact Option.some.inj hx
  · exact fun o _ ho => absurd (h.owners o) ho
  · intro c c' x x' hx hx'
    change (s.calls ++ _)[c]? = _ at hx
    change (s.calls ++ _)[c']? = _ at hx'
    rw [h.calls] at hx hx'
    rcases Resource.getElem?_concat_some.mp hx with hx | ⟨hc, _⟩
    · cases hx
    · rcases Resource.getElem?_concat_some.mp hx' with hx' | ⟨hc', _⟩
      · cases hx'
      · rw [hc, hc']
  · exact fun o _ _ ho => absurd (h.owners o) ho
  · rintro e' hmem o ⟨call, target, paymentSignature, rfl⟩
    rcases mem_concat.mp hmem with hmem | heq
    · exact (hnoEvent hmem id).elim
    · cases heq
  · refine pairwise_concat_iff.mpr ⟨?_, ?_⟩
    · exact List.pairwise_of_forall_mem_list fun e' hmem _ _ o ⟨_, _, _, heq⟩ =>
        absurd (h.quiet e' hmem) (heq ▸ id)
    · rintro e' hmem o ⟨_, _, _, rfl⟩
      exact (hnoEvent hmem id).elim
  · intro o hmem
    rcases mem_concat.mp hmem with hmem | heq
    · exact hnoEvent hmem id
    · cases heq

/-- A call that is neither creating a payload nor over has created none. -/
theorem Unsubmitted.uncreated (h : Unsubmitted setup past s) (hover : s.paying ≠ .over)
    (hcreating : ∀ selected, s.paying ≠ .creating selected) : .created ∉ past := fun hmem => by
  rcases h.created hmem with heq | ⟨selected, heq⟩
  · exact hover heq
  · exact hcreating selected heq

theorem Unsubmitted.step (h : Unsubmitted setup past s) (hstep : Step setup s e t) :
    Inv setup (past ++ [e]) t := by
  have hquiet {e : Event} (he : e.IsQuiet) : ∀ e' ∈ past ++ [e], e'.IsQuiet := by
    intro e' hmem
    rcases mem_concat.mp hmem with hmem | rfl
    · exact h.quiet e' hmem
    · exact he
  have honce {e : Event} (he : e ≠ .created) : (past ++ [e]).Pairwise fun e e' => e = .created →
      e' ≠ .created :=
    pairwise_concat_iff.mpr ⟨h.once, fun _ _ _ => he⟩
  have hstopped : Inv setup (past ++ [.stopped]) { s with paying := .over } :=
    .unsubmitted ⟨hquiet trivial, h.owners, h.calls,
      (fun _ h => by rcases h with h | h <;> cases h), fun _ => .inl rfl, honce Event.noConfusion⟩
  cases hstep with
  | unpaid _ => exact hstopped
  | challenge challenge hpaying =>
    refine .unsubmitted ⟨hquiet trivial, h.owners, h.calls, fun selected hselected => ?_,
      fun hmem => ?_, honce Event.noConfusion⟩
    · rcases hselected with hselected | hselected
      · exact ⟨challenge, Paying.cancelling.inj hselected⟩
      · cases hselected
    · rcases mem_concat.mp hmem with hmem | heq
      · exact (h.uncreated (hpaying ▸ nofun) (hpaying ▸ nofun) hmem).elim
      · cases heq
  | uncancelled _ => exact hstopped
  | @cancelled selected hpaying =>
    refine .unsubmitted ⟨hquiet trivial, h.owners, h.calls, fun other hselected => ?_,
      fun _ => .inr ⟨selected, rfl⟩, ?_⟩
    · rcases hselected with hselected | hselected
      · cases hselected
      · exact h.selected other (.inl (Paying.creating.inj hselected ▸ hpaying))
    · exact pairwise_concat_iff.mpr ⟨h.once, fun e' hmem heq _ =>
        h.uncreated (hpaying ▸ nofun) (hpaying ▸ nofun) (heq ▸ hmem)⟩
  | unprepared _ => exact hstopped
  | @prepared selected prepared recovery paymentPayload hpaying hprepared =>
    exact .kept (bound_of_prepared (h.selected selected (.inr hpaying)) hprepared) h.prepared
  | foreign _ =>
    refine .unsubmitted ⟨hquiet trivial, h.owners, h.calls, h.selected, fun hmem => ?_,
      honce Event.noConfusion⟩
    exact h.created ((mem_concat.mp hmem).resolve_right Event.noConfusion)
  | @resume owner _ _ howner _ =>
    rw [h.owners owner] at howner
    cases howner
  | @lose owner _ howner _ =>
    rw [h.owners owner] at howner
    cases howner
  | @finish call _ _ _ _ hcall _ =>
    rw [h.calls] at hcall
    cases hcall
  | @expose call _ _ _ hcall _ =>
    rw [h.calls] at hcall
    cases hcall

/-- While the call has the payment no object has it. -/
theorem Kept.no_owner (h : Kept past s recovery paymentPayload) {c : Nat}
    {x : RecoveryState × Value} (hc : s.calls[c]? = some (some x)) (o : Nat) :
    s.owners o = none := by
  by_contra ho
  exact h.either o c x ho hc

theorem Kept.no_call (h : Kept past s recovery paymentPayload) {o : Nat} {r : RecoveryState}
    (ho : s.owners o = some r) (c : Nat) (x : RecoveryState × Value) :
    s.calls[c]? ≠ some (some x) :=
  h.either o c x (by rw [ho]; exact Option.some_ne_none r)

/-- The object with the next number is no owner. -/
theorem Kept.fresh (h : Kept past s recovery paymentPayload) : s.owners s.next = none := by
  by_contra ho
  obtain ⟨r, hr⟩ := Option.ne_none_iff_exists'.mp ho
  exact absurd (h.owners _ _ hr).2.1 (Nat.lt_irrefl _)

/-- A call that ends makes its object an owner if it leaves a handle, and no other object. -/
theorem ownersAfter_kept (h : Kept past s recovery paymentPayload) {c : Nat}
    {x : RecoveryState × Value} (hc : s.calls[c]? = some (some x)) (submission : Submission) :
    ∃ owners, ownersAfter s submission recovery = some owners
      ∧ ∀ o r, owners o = some r ↔ submission.hasHandle = true ∧ o = s.next ∧ r = recovery := by
  have hnone := h.no_owner hc
  unfold ownersAfter exposeRecoveryOwner
  cases hhandle : submission.hasHandle with
  | false =>
    refine ⟨s.owners, rfl, fun o r => ?_⟩
    rw [hnone o]
    simp
  | true =>
    refine ⟨Function.update s.owners s.next (some recovery), ?_, fun o r => ?_⟩
    · rw [if_pos rfl, hnone, if_neg (by simp)]
    · rw [Function.update_apply]
      split
      · next heq => simp [heq, eq_comm]
      · next hne => simp [hnone o, hne]

/-- One step of a call that gives an object. -/
theorem Kept.finish (h : Kept past s recovery paymentPayload) {call : Nat} {submission : Submission}
    (hcall : s.calls[call]? = some (some (recovery, paymentPayload)))
    {owners : Nat → Option RecoveryState}
    (howners : ownersAfter s submission recovery = some owners) :
    Kept (past ++ [.ended call submission s.next])
    { s with owners := owners, next := s.next + 1, calls := s.calls.set call none }
      recovery paymentPayload := by
  obtain ⟨owners', heq, hlive⟩ := ownersAfter_kept h hcall submission
  obtain rfl : owners' = owners := Option.some.inj (heq.symm.trans howners)
  have hnoCall (c : Nat) (x : RecoveryState × Value) : (s.calls.set call none)[c]?
      ≠ some (some x) := by
    intro hc
    rw [List.getElem?_set] at hc
    split_ifs at hc with hsame
    · cases hc
    · exact hsame (h.oneCall _ _ _ _ hcall hc)
  have hlast {o : Nat} (ho : owners' o ≠ none) : o = s.next := by
    obtain ⟨r, hr⟩ := Option.ne_none_iff_exists'.mp ho
    exact ((hlive o r).mp hr).2.1
  refine ⟨h.isOver, h.first.imp fun _ => .imp fun _ hmem => mem_concat.mpr (.inl hmem), ?_, ?_,
    fun c x hc => absurd hc (hnoCall c x), fun o o' ho ho' => (hlast ho).trans (hlast ho').symm,
    fun c _ x _ hc => absurd hc (hnoCall c x), fun _ c x _ => hnoCall c x, ?_, ?_, ?_,
    pairwise_concat_iff.mpr ⟨h.once, fun _ _ _ => Event.noConfusion⟩⟩
  · intro owner call' target paymentSignature hmem
    exact h.submitted _ _ _ _ ((mem_concat.mp hmem).resolve_right Event.noConfusion)
  · intro o r hr
    obtain ⟨hhandle, rfl, rfl⟩ := (hlive o r).mp hr
    exact ⟨rfl, Nat.lt_succ_self _, _, mem_concat.mpr (.inr rfl), call, submission, rfl, hhandle⟩
  · rintro e' hmem o ⟨call', target, paymentSignature, rfl⟩
    obtain ⟨_, hlt⟩ := h.consumed _ ((mem_concat.mp hmem).resolve_right Event.noConfusion) o
      ⟨_, _, _, rfl⟩
    refine ⟨?_, Nat.lt_succ_of_lt hlt⟩
    by_contra ho
    exact absurd (hlast ho) hlt.ne
  · refine pairwise_concat_iff.mpr ⟨h.consumedOnce, ?_⟩
    rintro e' _ o _ ⟨_, _, _, heq⟩
    cases heq
  · intro o hmem
    exact h.kept o ((mem_concat.mp hmem).resolve_right Event.noConfusion)

/-- An owner is used, and the call has the payment. -/
theorem Kept.resume (h : Kept past s recovery paymentPayload) {owner : Nat}
    (howner : s.owners owner = some recovery) :
    Kept (past ++ [.submitted (some owner) s.calls.length recovery.target recovery.encodedPayment])
      { s with owners := Function.update s.owners owner none, calls := s.calls ++ [some
        (recovery, paymentPayload)] }
      recovery paymentPayload := by
  have hnoOwner (o : Nat) : Function.update s.owners owner none o = none := by
    rw [Function.update_apply]
    split
    · rfl
    · next hne =>
      by_contra ho
      exact hne (h.oneOwner _ _ ho (by rw [howner]; exact Option.some_ne_none _))
  have hnoCall := h.no_call howner
  have hlast {c : Nat} {x : RecoveryState × Value}
      (hc : (s.calls ++ [some (recovery, paymentPayload)])[c]? = some (some x)) :
      c = s.calls.length ∧ x = (recovery, paymentPayload) := by
    rcases Resource.getElem?_concat_some.mp hc with hc | ⟨hc, hx⟩
    · exact absurd hc (hnoCall c x)
    · exact ⟨hc, Option.some.inj hx⟩
  refine ⟨h.isOver, h.first.imp fun _ => .imp fun _ hmem => mem_concat.mpr (.inl hmem), ?_, ?_,
    fun c x hc => (hlast hc).2, fun o _ ho => absurd (hnoOwner o) ho, fun c c' x x' hc hc' =>
    (hlast hc).1.trans (hlast hc').1.symm, fun o _ _ ho => absurd (hnoOwner o) ho, ?_, ?_, ?_,
    pairwise_concat_iff.mpr ⟨h.once, fun _ _ _ => Event.noConfusion⟩⟩
  · intro owner' call target paymentSignature hmem
    rcases mem_concat.mp hmem with hmem | heq
    · exact h.submitted _ _ _ _ hmem
    · cases heq
      exact ⟨rfl, rfl⟩
  · intro o r hr
    exact absurd ((hnoOwner o).symm.trans hr) (Option.some_ne_none r).symm
  · rintro e' hmem o ⟨call, target, paymentSignature, rfl⟩
    rcases mem_concat.mp hmem with hmem | heq
    · exact ⟨hnoOwner o, (h.consumed _ hmem o ⟨_, _, _, rfl⟩).2⟩
    · cases heq
      exact ⟨hnoOwner _, (h.owners _ _ howner).2.1⟩
  · refine pairwise_concat_iff.mpr ⟨h.consumedOnce, ?_⟩
    rintro e' hmem o hconsumes ⟨_, _, _, heq⟩
    cases heq
    exact absurd ((h.consumed e' hmem owner hconsumes).1.symm.trans howner)
      (Option.some_ne_none _).symm
  · intro o hmem
    exact h.kept o ((mem_concat.mp hmem).resolve_right Event.noConfusion)

/-- An object that is no owner is refused, and nothing changes. -/
theorem Kept.refused (h : Kept past s recovery paymentPayload) (owner : Option Nat) :
    Kept (past ++ [.refused owner]) s recovery paymentPayload where
  isOver := h.isOver
  first := h.first.imp fun _ => .imp fun _ hmem => mem_concat.mpr (.inl hmem)
  submitted _ _ _ _ hmem :=
    h.submitted _ _ _ _ ((mem_concat.mp hmem).resolve_right Event.noConfusion)
  owners o r hr := by
    obtain ⟨hr, hlt, e', hmem, hexposes⟩ := h.owners o r hr
    exact ⟨hr, hlt, e', mem_concat.mpr (.inl hmem), hexposes⟩
  calls := h.calls
  oneOwner := h.oneOwner
  oneCall := h.oneCall
  either := h.either
  consumed := by
    rintro e' hmem o ⟨call, target, paymentSignature, rfl⟩
    exact h.consumed _ ((mem_concat.mp hmem).resolve_right Event.noConfusion) o ⟨_, _, _, rfl⟩
  consumedOnce := by
    refine pairwise_concat_iff.mpr ⟨h.consumedOnce, ?_⟩
    rintro e' _ o _ ⟨_, _, _, heq⟩
    cases heq
  kept o hmem := h.kept o ((mem_concat.mp hmem).resolve_right Event.noConfusion)
  once := pairwise_concat_iff.mpr ⟨h.once, fun _ _ _ => Event.noConfusion⟩

/-- Once the payment is submitted, one call, one object or nobody has it after every step. -/
theorem Kept.step (h : Kept past s recovery paymentPayload)
    (hbound : Bound setup selected recovery paymentPayload) (hstep : Step setup s e t) :
    Kept (past ++ [e]) t recovery paymentPayload := by
  have hover {paying : Paying} (hpaying : s.paying = paying) : Paying.over = paying :=
    h.isOver.symm.trans hpaying
  cases hstep with
  | unpaid hpaying => cases hover hpaying
  | challenge _ hpaying => cases hover hpaying
  | uncancelled hpaying => cases hover hpaying
  | cancelled hpaying => cases hover hpaying
  | unprepared hpaying => cases hover hpaying
  | prepared hpaying _ => cases hover hpaying
  | @foreign owner _ => exact h.refused owner
  | resume howner hresumed =>
    obtain rfl := (h.owners _ _ howner).1
    obtain rfl := Option.some.inj (hbound.resumes.symm.trans hresumed)
    exact h.resume howner
  | lose howner hresumed =>
    obtain rfl := (h.owners _ _ howner).1
    cases hbound.resumes.symm.trans hresumed
  | finish hcall howners =>
    obtain ⟨rfl, rfl⟩ := Prod.mk.inj (h.calls _ _ hcall)
    exact h.finish hcall howners
  | expose hcall howners =>
    obtain ⟨rfl, rfl⟩ := Prod.mk.inj (h.calls _ _ hcall)
    obtain ⟨owners, hsome, _⟩ := ownersAfter_kept h hcall _
    cases hsome.symm.trans howners

theorem Inv.step (h : Inv setup past s) (hstep : Step setup s e t) : Inv setup (past ++ [e]) t := by
  cases h with
  | unsubmitted h => exact h.step hstep
  | kept hbound h => exact .kept hbound (h.step hbound hstep)

theorem inv_of_run (h : Run (Step setup) State.initial past s) : Inv setup past s :=
  Run.history (fun _ _ _ _ h hstep => Inv.step h hstep) h (Inv.initial setup)

/-- The step of a call that ends. -/
theorem Step.ended {call object : Nat} {submission : Submission}
    (h : Step setup s (.ended call submission object) t) :
    ∃ recovery paymentPayload response, s.calls[call]? = some (some (recovery, paymentPayload))
      ∧ submission = submitBoundPayment paymentPayload response ∧ object = s.next
      ∧ ownersAfter s submission recovery = some t.owners := by
  cases h with
  | finish hcall howners => exact ⟨_, _, _, hcall, rfl, rfl, howners⟩

/-- The step of an owner that is used. -/
theorem Step.consumed {call owner : Nat} {target paymentSignature : String}
    (h : Step setup s (.submitted (some owner) call target paymentSignature) t) :
    ∃ recovery, s.owners owner = some recovery := by
  cases h with
  | resume howner _ => exact ⟨_, howner⟩

/-- The offer that is taken is one of the challenge. -/
theorem selectPaymentRequirement_mem {paymentRequired accepted : Value}
    {paymentCapabilities : Option Capabilities} {legacy : Bool}
    (h : selectPaymentRequirement paymentRequired paymentCapabilities legacy = some accepted) :
    accepted ∈ offers paymentRequired := by
  unfold selectPaymentRequirement at h
  split at h
  · next only honly =>
    simp only [Option.bind_eq_bind, Option.bind_eq_some_iff, guard_some, Option.pure_def,
      Option.some.injEq] at h
    obtain ⟨_, _, _, _, rfl⟩ := h
    rw [honly]
    exact List.mem_singleton_self _
  · simp only [Option.bind_eq_bind, Option.bind_eq_some_iff, guard_some, Option.pure_def,
      Option.some.injEq] at h
    obtain ⟨_, _, _, _, candidate, hfind, _, _, rfl⟩ := h
    exact List.mem_of_find?_eq_some hfind

/-- What is selected is data, and the challenge was read. -/
theorem selectOffer_some {challenge : Challenge} (h : selectOffer setup challenge = some selected) :
    (get selected.paymentRequired "resource").Parsed ∧ selected.accepted.Parsed
      ∧ selected.accepted ∈ offers selected.paymentRequired := by
  simp only [selectOffer, Option.bind_eq_bind, Option.bind_eq_some_iff, guard_some, Option.pure_def,
    Option.some.injEq] at h
  obtain ⟨_, _, paymentRequired, hdecode, _, hvalid, _, _, _, _, _, _, _, _, _, _, _, _, _, _,
    accepted, haccepted, _, _, rfl⟩ := h
  have hparsed : paymentRequired.Parsed := Resource.decodeB64Json_parsed hdecode
  simp only [Resource.validatePaymentRequiredForOfferSelection,
    Resource.validatePaymentRequiredOuter, Bool.and_eq_true] at hvalid
  have hkeys := hvalid.1.1.1.1.1.1
  have hmem := selectPaymentRequirement_mem haccepted
  have haccepts : (get paymentRequired "accepts").Parsed :=
    Resource.parsed_get hparsed (Resource.hasOwn_of_required hkeys (by decide))
  refine ⟨Resource.parsed_get hparsed (Resource.hasOwn_of_required hkeys (by decide)), ?_, hmem⟩
  unfold offers at hmem
  split at hmem
  · next accepts heq =>
    rw [heq] at haccepts
    cases haccepts with
    | arr hall => exact hall _ hmem
  · cases hmem

/-- The text that is kept carries the payment. -/
theorem Bound.carries (h : Bound setup selected recovery paymentPayload) :
    Carries recovery.encodedPayment selected paymentPayload := by
  obtain ⟨challenge, hchallenge⟩ := h.challenge
  obtain ⟨hresource, haccepted, hmem⟩ := selectOffer_some hchallenge
  have hparsed : paymentPayload.Parsed := Resource.decodeB64Json_parsed h.decoded
  have hvalid := h.valid
  simp only [validateBuyerPaymentPayload, Resource.validatePaymentPayloadEnvelope,
    Bool.and_eq_true] at hvalid
  have hkeys := hvalid.1.1.1.1.1.1.1.1.1.1.1.1
  have hfield {key : String} (hkey : key ∈ Resource.PAYMENT_PAYLOAD_FIELDS) :
      (get paymentPayload key).Parsed :=
    Resource.parsed_get hparsed (Resource.hasOwn_of_required hkeys hkey)
  exact ⟨h.decoded, Resource.same_of_sameRequirements (hfield (by decide)) haccepted hvalid.1.1.1.2,
    Resource.same_of_sameResource (hfield (by decide)) hresource hvalid.1.1.2, hmem⟩

end

/-! ### Runs -/

/-- The payment is settled and nobody can submit it again, or the object can, with the same text,
and no other object. -/
def Ends (target paymentSignature : String) (paymentPayload : Value) (submission : Submission)
    (object : Nat) (s : State) : Prop :=
  (∃ settlement, submission = .settled settlement false ∧ Names settlement paymentPayload
    ∧ (Success settlement ∨ Terminal settlement ∨ Definitive settlement) ∧ ∀ o, s.owners o = none)
  ∨ submission.hasHandle = true
    ∧ (∃ recovery, s.owners object = some recovery ∧ recovery.target = target
      ∧ recovery.encodedPayment = paymentSignature)
    ∧ ∀ o, s.owners o ≠ none → o = object

section

variable {setup : Setup} {past events : List Event} {s t : State} {recovery : RecoveryState}
    {paymentPayload : Value}

/-- Every call ends with the payment settled, or with an object that has it. -/
theorem Kept.ends (h : Kept past s recovery paymentPayload) {call object : Nat}
    {submission : Submission} (hstep : Step setup s (.ended call submission object) t) :
    Ends recovery.target recovery.encodedPayment paymentPayload submission object t := by
  obtain ⟨r, p, response, hcall, hsubmission, rfl, howners⟩ := hstep.ended
  obtain ⟨hr, hp⟩ := Prod.mk.inj (h.calls _ _ hcall)
  subst r p
  obtain ⟨owners, hsome, hlive⟩ := ownersAfter_kept h hcall submission
  obtain rfl : owners = t.owners := Option.some.inj (hsome.symm.trans howners)
  have hlast {o : Nat} (ho : t.owners o ≠ none) : submission.hasHandle = true ∧ o = s.next := by
    obtain ⟨r, hr⟩ := Option.ne_none_iff_exists'.mp ho
    exact ⟨((hlive o r).mp hr).1, ((hlive o r).mp hr).2.1⟩
  have hwith (hhandle : submission.hasHandle = true) :
      (∃ r, t.owners s.next = some r ∧ r.target = recovery.target ∧ r.encodedPayment
        = recovery.encodedPayment)
        ∧ ∀ o, t.owners o ≠ none → o = s.next :=
    ⟨⟨recovery, (hlive _ _).mpr ⟨hhandle, rfl, rfl⟩, rfl, rfl⟩, fun _ ho => (hlast ho).2⟩
  cases submission with
  | unknown httpStatus => exact .inr ⟨rfl, hwith rfl⟩
  | settled settlement handle =>
    obtain ⟨hnames, ⟨rfl, hkind⟩ | ⟨rfl, _⟩⟩ := submitBoundPayment_settled hsubmission.symm
    · refine .inl ⟨settlement, rfl, hnames, hkind, fun o => ?_⟩
      by_contra ho
      cases (hlast ho).1
    · exact .inr ⟨rfl, hwith rfl⟩

/-- A call that waits can end with any response. -/
theorem Kept.can_end (h : Kept past s recovery paymentPayload) {call : Nat}
    {x : RecoveryState × Value} (hcall : s.calls[call]? = some (some x))
    (response : Option Fetched) :
    ∃ object t, Step setup s
    (.ended call (submitBoundPayment paymentPayload response) object) t := by
  obtain rfl := h.calls _ _ hcall
  obtain ⟨owners, hsome, _⟩ := ownersAfter_kept h hcall (submitBoundPayment paymentPayload response)
  exact ⟨_, _, .finish hcall hsome⟩

/-- In every run of one `paidFetch` and any `reconcilePayment` calls the payment client is asked at
most once, every submission has the same text and the same target, and every call that has submitted
ends with the payment settled or with one object that can submit it again, once. -/
theorem payment_kept (h : Run (Step setup) State.initial events s) :
    (events.Pairwise fun e e' => e = .created → e' ≠ .created)
    ∧ (∀ o, .lost o ∉ events)
    ∧ (events.Pairwise fun e e' => ∀ o, e.Consumes o → ¬ e'.Consumes o)
    ∧ (∀ before e after o, events = before ++ e :: after → e.Consumes o →
      (∃ e' ∈ before, e'.Exposes o) ∧ s.owners o = none)
    ∧ ((∀ e ∈ events, e.IsQuiet) ∨ ∃ selected text paymentPayload,
      (∃ challenge, selectOffer setup challenge = some selected)
        ∧ Carries text selected paymentPayload
      ∧ (∀ owner call target paymentSignature,
        .submitted owner call target paymentSignature ∈ events →
        target = selected.target ∧ paymentSignature = text)
      ∧ (∀ before after call submission object, events = before
        ++ .ended call submission object :: after →
        ∃ t, Run (Step setup) State.initial (before ++ [.ended call submission object]) t
          ∧ Run (Step setup) t after s
          ∧ Ends selected.target text paymentPayload submission object t)
      ∧ ∀ (call : Nat) x response, s.calls[call]? = some (some x) →
        ∃ object t, Step setup s (.ended call (submitBoundPayment paymentPayload response) object)
        t) := by
  have hinv := inv_of_run h
  have hsplit {before after : List Event} {e : Event} (heq : events = before ++ e :: after) :
      ∃ u t, Run (Step setup) State.initial before u ∧ Step setup u e t
        ∧ Run (Step setup) t after s := by
    obtain ⟨u, hbefore, hafter⟩ := Run.split (heq ▸ h)
    cases hafter with
    | cons hstep hrest => exact ⟨u, _, hbefore, hstep, hrest⟩
  -- an owner that is used was live, and so some call gave it
  have hexposed {before after : List Event} {e : Event} {o : Nat}
      (heq : events = before ++ e :: after) (he : e.Consumes o) :
      ∃ e' ∈ before, e'.Exposes o := by
    obtain ⟨u, t, hbefore, hstep, _⟩ := hsplit heq
    obtain ⟨call, target, paymentSignature, rfl⟩ := he
    obtain ⟨r, hr⟩ := hstep.consumed
    cases inv_of_run hbefore with
    | unsubmitted hnone =>
        exact absurd ((hnone.owners o).symm.trans hr) (Option.some_ne_none r).symm
    | kept _ hkept => exact (hkept.owners o r hr).2.2
  cases hinv with
  | unsubmitted hnone =>
    have hquiet {e : Event} {o : Nat} (hmem : e ∈ events) (he : e.Consumes o) : False := by
      obtain ⟨_, _, _, rfl⟩ := he
      exact hnone.quiet _ hmem
    refine ⟨hnone.once, fun o hmem => hnone.quiet _ hmem, ?_, ?_, .inl hnone.quiet⟩
    · exact List.pairwise_of_forall_mem_list fun e hmem _ _ o he => (hquiet hmem he).elim
    · intro before e after o heq he
      exact (hquiet (by rw [heq]; simp) he).elim
  | @kept selected recovery paymentPayload hbound hkept =>
    refine ⟨hkept.once, hkept.kept, hkept.consumedOnce,
      fun before e after o heq he => ⟨hexposed heq he, ?_⟩,
      .inr ⟨selected, recovery.encodedPayment, paymentPayload, hbound.challenge, hbound.carries, ?_,
        ?_, fun call x response hcall =>
        hkept.can_end hcall response⟩⟩
    · exact (hkept.consumed e (by rw [heq]; simp) o he).1
    · intro owner call target paymentSignature hmem
      rw [← hbound.target]
      exact hkept.submitted _ _ _ _ hmem
    · intro before after call submission object heq
      obtain ⟨u, t, hbefore, hstep, hafter⟩ := hsplit heq
      refine ⟨t, hbefore.append (.cons hstep (.nil t)), hafter, ?_⟩
      cases inv_of_run hbefore with
      | unsubmitted hnone =>
        obtain ⟨_, _, _, hcall, _⟩ := hstep.ended
        rw [hnone.calls] at hcall
        cases hcall
      | @kept selected' recovery' paymentPayload' hbound' hkept' =>
        obtain ⟨owner, call', hfirst⟩ := hkept'.first
        have hmem : .submitted owner call' recovery'.target recovery'.encodedPayment ∈ events := by
          rw [heq]
          exact List.mem_append_left _ hfirst
        obtain ⟨htarget, htext⟩ := hkept.submitted _ _ _ _ hmem
        have hdecoded := hbound'.decoded
        rw [htext, hbound.decoded] at hdecoded
        obtain rfl := Option.some.inj hdecoded
        have hends := hkept'.ends hstep
        rwa [htarget, htext, hbound.target] at hends

end

/-! ### A payment that is submitted again -/

namespace Visit

open Resource.Visit (platform requirement challenge challenge_eq payload plain_payload)

def url : String := "http://127.0.0.1:8080/paid"

def setup : Setup := ⟨platform.toNode, some, url, none, false⟩

def selected : Selected := ⟨url, challenge, requirement⟩

theorem selects : ∃ challenge, selectOffer setup challenge = some selected := by
  have hplain : challenge.Plain := Value.plain_of_isPlain _ (by decide)
  have hsize : Value.textSize challenge ≤ 6000 := Value.textSize_le_tally hplain (by decide)
  obtain ⟨text, htext⟩ :=
    (Resource.encodeB64Json_isSome challenge Resource.MAX_X402_HEADER_ENCODED_BYTES).mpr (by
    unfold Resource.MAX_X402_HEADER_ENCODED_BYTES
    omega)
  have hdecode : decodeX402Header text = some challenge :=
    Resource.decodeB64Json_encodeB64Json hplain.json rfl htext
  have hvalid : Resource.validatePaymentRequiredForOfferSelection platform.toNode
      (fun _ => true) challenge = true := by decide
  have hstrict : Resource.validatePaymentRequired platform.toNode challenge = true := by decide
  have hselect : selectPaymentRequirement challenge none false = some requirement := by
    have hactive : Resource.validateActiveUpfrontRequirement requirement = true := by decide
    change (do
      guard (Resource.validateActiveUpfrontRequirement requirement = true)
      guard (true = true)
      return requirement) = some requirement
    rw [hactive]
    rfl
  have hmock : (get requirement "network").strictEq (.str Resource.EXPERIMENTAL_LIVE_NETWORK)
      = false := by decide
  refine ⟨⟨some text, none, fun _ => true⟩, ?_⟩
  simp only [selectOffer, Option.bind_eq_bind, Option.bind_eq_some_iff, guard_some, Option.pure_def]
  exact ⟨text, rfl, challenge, hdecode, (), hvalid, (), fun _ => hstrict, url, rfl,
    ⟨"http:", "127.0.0.1", "", ""⟩, rfl, (), ⟨rfl, rfl⟩, url, rfl, url, rfl, (), rfl, requirement,
    hselect, (), fun h => absurd h (by rw [hmock]; exact Bool.false_ne_true), rfl⟩

theorem prepares {text : String} (h : encodeX402Header payload = some text) :
    preparePayment setup.node selected ⟨true, some (stringify payload)⟩
      = some (⟨url, text, challenge, requirement⟩, payload) := by
  have hsubmits := submits h
  simp only [preparePayment, Option.bind_eq_bind, Option.bind_eq_some_iff, guard_some,
    Option.pure_def]
  exact ⟨(), trivial, _, rfl, text, h, payload, hsubmits.decoded, (), hsubmits.valid, rfl⟩

def events (text : String) : List Event :=
  [.challenged, .created, .submitted none 0 url text, .ended 0 (.unknown none) 0,
    .submitted (some 0) 1 url text]

/-- The first submission throws, and the error that the caller gets is used for the second. -/
theorem resubmits {text : String} (h : encodeX402Header payload = some text) :
    ∃ s, Run (Step setup) State.initial (events text) s := by
  let recovery : RecoveryState := ⟨url, text, challenge, requirement⟩
  obtain ⟨c, hselects⟩ := selects
  have hprepared : preparePayment setup.node selected ⟨true, some (stringify payload)⟩
      = some (recovery, payload) := prepares h
  have hbound := bound_of_prepared ⟨c, hselects⟩ hprepared
  let waiting : State := ⟨.over, fun _ => none, 0, [some (recovery, payload)]⟩
  let failed : State := ⟨.over, Function.update (fun _ => none) 0 (some recovery), 1, [none]⟩
  have hchallenge : Step setup State.initial
      .challenged { State.initial with paying := .cancelling (some selected) } :=
    hselects ▸ .challenge c rfl
  have hfinish : Step setup waiting (.ended 0 (.unknown none) 0) failed :=
    @Step.finish setup waiting 0 recovery payload none _ rfl rfl
  exact ⟨_, .cons hchallenge (.cons (.cancelled rfl) (.cons (.prepared rfl hprepared) (.cons hfinish
    (.cons (@Step.resume setup failed 0 recovery payload rfl hbound.resumes) (.nil _)))))⟩

/-- The error has the payment, with the text that was submitted. -/
theorem submitted_twice : ∃ text s, Run (Step setup) State.initial (events text) s
    ∧ decodeX402Header text = some payload
    ∧ (events text).Pairwise (fun e e' => ∀ o, e.Consumes o → ¬ e'.Consumes o)
    ∧ s.owners 0 = none := by
  obtain ⟨text, htext, _⟩ := Resource.Visit.received
  obtain ⟨s, hrun⟩ := resubmits htext
  obtain ⟨_, _, honce, hused, _⟩ := payment_kept hrun
  exact ⟨text, s, hrun, (submits htext).decoded, honce,
    (hused (events text).dropLast _ [] 0 rfl ⟨1, url, text, rfl⟩).2⟩

end Visit

end Buyer
end ZenonX402
