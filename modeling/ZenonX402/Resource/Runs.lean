/-
# Servers of one resource over one facilitator

Any number of servers of one resource, with and without a handler, and any number of
requests. What a request authorizes runs as one operation for as long as it takes, and
requests to the same server with the same data wait for it (`converge`); what the
facilitator and the handler reply comes in any order. A run is seen from outside as the
`Event`s of the requests, the replies and the responses.

In every run in which the facilitator grants the claim of a payment at most once, the
handler is asked at most once for it, after the settlement and by the grant, and what is
sent with status 200 is a response that the facilitator has (`delivered_once`).

Key definitions: `System`, `Event`, `Step`, `SubmittedTo`, `Event.Grants`, `Event.Invokes`,
`Served`.
Key theorems: `Inv.step`, `delivered_once`.
-/
import ZenonX402.Lib.Sha2
import ZenonX402.Lib.Trace
import ZenonX402.Resource.Server

namespace ZenonX402
namespace Resource

open Js
open Journal (get isHashHex)
open Value (Parsed Plain Same)

/-- An operation that a server has started. -/
structure Running where
  server : Nat
  key : String
  submitted : Submitted
  phase : Phase

/-- A request that waits for an operation, which it has started or joined. -/
structure Request where
  server : Nat
  key : String
  submitted : Submitted
  running : Nat
  starter : Bool
  waiting : Bool

structure System where
  runnings : List Running
  requests : List Request
  inFlight : Nat × String → Option Nat

def System.initial : System := ⟨[], [], fun _ => none⟩

/-- What is seen of a run. -/
inductive Event where
  /-- A request was answered at once. -/
  | refused (response : Response)
  /-- A request waits for an operation. -/
  | authorized (server request running : Nat) (paymentRequired paymentPayload : Value)
  /-- An operation had the reply that it waited for. -/
  | replied (running : Nat) (old : Phase) (reply : Reply) (new : Phase)
  /-- A request was told what became of the payment. -/
  | sent (request : Nat) (response : Response)

/-- The response of the event, if a response was sent. -/
def Event.response? : Event → Option Response
  | .refused response | .sent _ response => some response
  | _ => none

section

variable (platform : Platform) (config : Config) (handlers : Nat → Bool)

/-- The operation ends for the request: whoever started it takes it off the map. -/
def release (s : System) (request : Request) : Nat × String → Option Nat :=
  if request.starter ∧ s.inFlight (request.server, request.key) = some request.running then
    Function.update s.inFlight (request.server, request.key) none
  else s.inFlight

inductive Step : System → Event → System → Prop
  | refuse {s : System} {fractions : Fractions} {header : Header} {response : Response}
      (h : receive platform config fractions header = .respond response) :
      Step s (.refused response) s
  | start {s : System} {server : Nat} {fractions : Fractions} {header : Header}
      {paymentRequired paymentPayload : Value}
      (h : receive platform config fractions header = .authorize paymentRequired paymentPayload)
      (hnew : s.inFlight (server, requestKey platform.sha paymentPayload) = none) :
      Step s (.authorized server s.requests.length s.runnings.length paymentRequired paymentPayload)
        { runnings := s.runnings ++ [⟨server, requestKey platform.sha paymentPayload,
            config.submitted platform paymentRequired paymentPayload, .settling⟩]
          requests := s.requests ++ [⟨server, requestKey platform.sha paymentPayload,
            config.submitted platform paymentRequired paymentPayload,
            s.runnings.length, true, true⟩]
          inFlight := Function.update s.inFlight (server, requestKey platform.sha paymentPayload)
            (some s.runnings.length) }
  | join {s : System} {server running : Nat} {fractions : Fractions} {header : Header}
      {paymentRequired paymentPayload : Value}
      (h : receive platform config fractions header = .authorize paymentRequired paymentPayload)
      (hold : s.inFlight (server, requestKey platform.sha paymentPayload) = some running) :
      Step s (.authorized server s.requests.length running paymentRequired paymentPayload)
        { s with requests := s.requests ++ [⟨server, requestKey platform.sha paymentPayload,
            config.submitted platform paymentRequired paymentPayload, running, false, true⟩] }
  | reply {s : System} {r : Nat} {running : Running} {reply : Reply} {new : Phase}
      (hr : s.runnings[r]? = some running)
      (h : advance running.submitted platform config.requirement (handlers running.server)
        running.phase reply = some new) :
      Step s (.replied r running.phase reply new)
      { s with runnings := s.runnings.set r { running with phase := new } }
  | send {s : System} {q : Nat} {request : Request} {running : Running} {outcome : Option Outcome}
      {paymentRequired : Value} (hchallenge : config.challenge platform = some paymentRequired)
      (hq : s.requests[q]? = some request) (hwaiting : request.waiting = true)
      (hr : s.runnings[request.running]? = some running)
      (hfinished : running.phase = .finished outcome) :
      Step s (.sent q (respond paymentRequired outcome))
        { s with requests := s.requests.set q { request with waiting := false }, inFlight := release s request }

end

/-! ### What is seen -/

section

variable (platform : Platform) (config : Config)

/-- A request submits to an operation the payment that an identity is derived from. -/
def Event.Submits (event : Event) (r : Nat) (identity : Identity) : Prop :=
  ∃ server q paymentRequired paymentPayload,
    event = .authorized server q r paymentRequired paymentPayload
      ∧ (config.submitted platform paymentRequired paymentPayload).identity = identity

/-- The identity is that of a payment which was submitted to an operation. -/
def SubmittedTo (events : List Event) (r : Nat) (identity : Identity) : Prop :=
  ∃ e ∈ events, e.Submits platform config r identity

/-- The facilitator says of a payment that its delivery is claimed by this call. -/
def Event.Grants (events : List Event) (event : Event) (identity : Identity) : Prop :=
  ∃ r settlement answer now new,
    event = .replied r (.claiming settlement) (.claimed (some answer) now) new
      ∧ answer.Claims true ∧ SubmittedTo platform config events r identity

/-- The handler of a server is asked for a resource. -/
def Event.Handles (event : Event) : Prop := ∃ r old reply settlement,
  event = .replied r old reply (.handling settlement)

/-- The handler of a server is asked for the resource that a payment is for. -/
def Event.Invokes (events : List Event) (event : Event) (identity : Identity) : Prop :=
  ∃ r old reply settlement, event = .replied r old reply (.handling settlement)
    ∧ SubmittedTo platform config events r identity

end

/-- The payment was settled, included and not delivered, before its claim was granted. -/
def Claimed (before : List Event) (event : Event) (identity : Identity) : Prop :=
  ∃ r settlement answer now,
  (∃ new, event = .replied r (.claiming settlement) (.claimed (some answer) now) new)
    ∧ answer.Shows identity "DELIVERY_PENDING" ∧ answer.Claims true
    ∧ ∃ settled capable, .replied r .settling (.settled (some settled) capable)
    (.claiming settlement) ∈ before
      ∧ settled.Settles identity "NONE"

/-- Where a response that an operation delivers comes from. -/
inductive Served (before : List Event) (identity : Identity) (cached : Value) : Prop
  /-- The facilitator says that it was delivered when it settles the payment. -/
  | settled {r : Nat} {answer : Answer} {capable : Bool} {new : Phase}
      (h : .replied r .settling (.settled (some answer) capable) new ∈ before)
      (hsettles : answer.Settles identity "DELIVERED") (hcaches : answer.Caches cached)
  /-- The facilitator says so when the delivery is claimed. -/
  | claimed {r : Nat} {answer : Answer} {settlement : Value} {now : String} {new : Phase}
      (h : .replied r (.claiming settlement) (.claimed (some answer) now) new ∈ before)
      (hshows : answer.Shows identity "DELIVERED") (hclaims : answer.Claims false)
      (hcaches : answer.Caches cached)
  /-- The handler made it, the facilitator recorded it and gave it back with the same text. -/
  | recorded {r : Nat} {answer : Answer} {settlement value persisted : Value}
      {reply : Reply} {new : Phase} {old : Phase}
      (hmade : .replied r old reply (.delivering settlement cached) ∈ before)
      (hbody : (∃ body, old = .handling settlement ∧ reply = .handled (some body)
          ∧ normalizeCachedResponse (jsonResponse body) = .ok cached)
        ∨ ∃ claim now, old = .claiming settlement ∧ reply = .claimed (some claim) now
          ∧ normalizeCachedResponse (jsonResponse (defaultBody settlement now)) = .ok cached)
      (h : .replied r (.delivering settlement cached) (.delivered (some answer)) new ∈ before)
      (hshows : answer.Shows identity "DELIVERED")
        (hvalue : (answer .transition).dataOf? "cachedResponse" = some value)
        (hpersisted : normalizeCachedResponse value = .ok persisted)
        (hsame : stringify persisted = stringify cached)

/-- No two payments of the events have one request key, unless they are the same data. -/
def Separates (sha : Sha256) (events : List Event) : Prop :=
  ∀ server q r paymentRequired payload server' q' r' paymentRequired' payload',
    .authorized server q r paymentRequired payload ∈ events →
    .authorized server' q' r' paymentRequired' payload' ∈ events →
    requestKey sha payload = requestKey sha payload' →
      canonicalJson (requestContent payload) = canonicalJson (requestContent payload')

/-! ### The invariant -/

/-- The past of a run explains the state of the servers. -/
structure Inv (platform : Platform) (config : Config) (handlers : Nat → Bool) (past : List Event)
    (s : System) : Prop where
  accepted : ∀ server q r paymentRequired payload,
    .authorized server q r paymentRequired payload ∈ past →
    Accepts platform config paymentRequired payload
  joined : ∀ server q r paymentRequired payload,
    .authorized server q r paymentRequired payload ∈ past →
      ∃ running, s.runnings[r]? = some running ∧ running.key = requestKey platform.sha payload
  reached : ∀ r running, s.runnings[r]? = some running → running.phase.Sound running.submitted
    ∧ (running.phase = .settling ∨ ∃ old reply, .replied r old reply running.phase ∈ past)
  moved : ∀ r old reply new, .replied r old reply new ∈ past → ∃ running, s.runnings[r]?
    = some running
    ∧ Moved running.submitted (handlers running.server) old reply new
    ∧ (old = .settling ∨ ∃ old' reply', .replied r old' reply' old ∈ past)
  started : ∀ r running, s.runnings[r]? = some running → ∃ q paymentRequired payload,
    .authorized running.server q r paymentRequired payload ∈ past ∧ running.key
      = requestKey platform.sha payload
      ∧ running.submitted = config.submitted platform paymentRequired payload
  asked : ∀ q request, s.requests[q]? = some request → (∃ paymentRequired payload,
      .authorized request.server q request.running paymentRequired payload ∈ past ∧ request.key
        = requestKey platform.sha payload
        ∧ request.submitted = config.submitted platform paymentRequired payload)
    ∧ ∃ running, s.runnings[request.running]? = some running ∧ running.key = request.key
  inFlight : ∀ server key r, s.inFlight (server, key) = some r → ∃ running, s.runnings[r]?
    = some running ∧ running.key = key

theorem getElem?_concat_some {α : Type} {xs : List α} {x y : α} {i : Nat} :
    (xs ++ [x])[i]? = some y ↔ xs[i]? = some y ∨ (i = xs.length ∧ y = x) := by
  have hnone : ¬ (none : Option α) = some y := Option.some_ne_none y ∘ Eq.symm
  rcases Nat.lt_trichotomy i xs.length with h | h | h
  · rw [List.getElem?_append_left h]
    exact ⟨.inl, fun hor => hor.resolve_right fun hboth => absurd hboth.1 h.ne⟩
  · rw [h, List.getElem?_concat_length, List.getElem?_eq_none le_rfl, Option.some.injEq]
    exact ⟨fun heq => .inr ⟨rfl, heq.symm⟩, fun hor => (hor.resolve_left hnone).2.symm⟩
  · rw [List.getElem?_eq_none (by simp; omega), List.getElem?_eq_none h.le]
    exact ⟨fun heq => absurd heq hnone, fun hor => absurd (hor.resolve_left hnone).1 h.ne'⟩

theorem mem_concat {α : Type} {xs : List α} {x y : α} : y ∈ xs ++ [x] ↔ y ∈ xs ∨ y = x := by
  rw [List.mem_append, List.mem_singleton]

section

variable {platform : Platform} {config : Config} {handlers : Nat → Bool} {past : List Event}
    {s t : System} {e : Event}

theorem Inv.initial : Inv platform config handlers [] System.initial where
  accepted := fun _ _ _ _ _ h => absurd h List.not_mem_nil
  joined := fun _ _ _ _ _ h => absurd h List.not_mem_nil
  reached := fun _ _ h => by cases h
  moved := fun _ _ _ _ h => absurd h List.not_mem_nil
  started := fun _ _ h => by cases h
  asked := fun _ _ h => by cases h
  inFlight := fun _ _ _ h => by cases h

/-- What was started stays as it is when an operation goes on. -/
theorem set_running {runnings : List Running} {r i : Nat} {running other : Running} {phase : Phase}
    (hr : runnings[r]? = some running) :
    (runnings.set r { running with phase := phase })[i]? = some other ↔
      (i ≠ r ∧ runnings[i]? = some other) ∨ (i = r ∧ other = { running with phase := phase }) := by
  by_cases hi : i = r
  · subst hi
    rw [List.getElem?_set_self (List.getElem?_eq_some_iff.mp hr).1, Option.some.injEq]
    exact ⟨fun h => .inr ⟨rfl, h.symm⟩, fun h => (h.resolve_left fun hne => hne.1 rfl).2.symm⟩
  · rw [List.getElem?_set_ne (Ne.symm hi)]
    exact ⟨fun h => .inl ⟨hi, h⟩, fun h => (h.resolve_right fun heq => hi heq.1).2⟩

/-- Something that only the origin of an operation decides. -/
theorem kept_running {P : Running → Prop} {runnings : List Running} {r i : Nat} {running : Running}
    {phase : Phase} (hP : ∀ a b : Running, a.server = b.server → a.key = b.key → a.submitted
      = b.submitted → P a → P b)
    (hr : runnings[r]? = some running) (h : ∃ other, runnings[i]? = some other ∧ P other) :
    ∃ other, (runnings.set r { running with phase := phase })[i]? = some other ∧ P other := by
  obtain ⟨other, hi, hother⟩ := h
  by_cases heq : i = r
  · subst heq
    obtain rfl : running = other := Option.some.inj (hr.symm.trans hi)
    exact ⟨_, (set_running hr).mpr (.inr ⟨rfl, rfl⟩), hP running _ rfl rfl rfl hother⟩
  · exact ⟨other, (set_running hr).mpr (.inl ⟨heq, hi⟩), hother⟩

/-- An event that is neither of a new request nor of a reply changes nothing. -/
theorem Inv.unrelated (h : Inv platform config handlers past s)
    (hauthorized : ∀ server q r paymentRequired payload,
      e ≠ .authorized server q r paymentRequired payload)
    (hreplied : ∀ r old reply new, e ≠ .replied r old reply new) :
    Inv platform config handlers (past ++ [e]) s where
  accepted server q r paymentRequired payload hmem :=
    h.accepted server q r paymentRequired payload
    ((mem_concat.mp hmem).resolve_right fun heq => hauthorized _ _ _ _ _ heq.symm)
  joined server q r paymentRequired payload hmem :=
    h.joined server q r paymentRequired payload
      ((mem_concat.mp hmem).resolve_right fun heq => hauthorized _ _ _ _ _ heq.symm)
  reached r running hr := by
    obtain ⟨hsound, hreached⟩ := h.reached r running hr
    exact ⟨hsound, hreached.imp_right fun ⟨old, reply, hmem⟩ =>
      ⟨old, reply, mem_concat.mpr (.inl hmem)⟩⟩
  moved r old reply new hmem := by
    obtain ⟨running, hr, hmoved, hold⟩ := h.moved r old reply new
      ((mem_concat.mp hmem).resolve_right fun heq => hreplied _ _ _ _ heq.symm)
    exact ⟨running, hr, hmoved,
      hold.imp_right fun ⟨old, reply, hmem⟩ => ⟨old, reply, mem_concat.mpr (.inl hmem)⟩⟩
  started r running hr := by
    obtain ⟨q, paymentRequired, payload, hmem, hrest⟩ := h.started r running hr
    exact ⟨q, paymentRequired, payload, mem_concat.mpr (.inl hmem), hrest⟩
  asked q request hq := by
    obtain ⟨⟨paymentRequired, payload, hmem, hrest⟩, hrunning⟩ := h.asked q request hq
    exact ⟨⟨paymentRequired, payload, mem_concat.mpr (.inl hmem), hrest⟩, hrunning⟩
  inFlight := h.inFlight

/-- A request that joins an operation which is there. -/
theorem Inv.join (h : Inv platform config handlers past s) {server running : Nat}
    {fractions : Fractions} {header : Header} {paymentRequired paymentPayload : Value}
    (hreceive : receive platform config fractions header
      = .authorize paymentRequired paymentPayload)
    (hold : s.inFlight (server, requestKey platform.sha paymentPayload) = some running) :
    Inv platform config handlers
    (past ++ [.authorized server s.requests.length running paymentRequired paymentPayload])
    { s with requests := s.requests ++ [⟨server, requestKey platform.sha paymentPayload,
      config.submitted platform paymentRequired paymentPayload, running, false, true⟩] } where
  accepted server q r required payload hmem := by
    rcases mem_concat.mp hmem with hmem | heq
    · exact h.accepted server q r required payload hmem
    · obtain ⟨_, _, _, haccepts⟩ := receive_run hreceive
      cases heq
      exact haccepts
  joined server q r required payload hmem := by
    rcases mem_concat.mp hmem with hmem | heq
    · exact h.joined server q r required payload hmem
    · cases heq
      exact h.inFlight _ _ _ hold
  reached r running hr := by
    obtain ⟨hsound, hreached⟩ := h.reached r running hr
    exact ⟨hsound, hreached.imp_right fun ⟨old, reply, hmem⟩ =>
      ⟨old, reply, mem_concat.mpr (.inl hmem)⟩⟩
  moved r old reply new hmem := by
    obtain ⟨running, hr, hmoved, hold⟩ := h.moved r old reply new
      ((mem_concat.mp hmem).resolve_right fun heq => Event.noConfusion heq)
    exact ⟨running, hr, hmoved,
      hold.imp_right fun ⟨old, reply, hmem⟩ => ⟨old, reply, mem_concat.mpr (.inl hmem)⟩⟩
  started r running hr := by
    obtain ⟨q, required, payload, hmem, hrest⟩ := h.started r running hr
    exact ⟨q, required, payload, mem_concat.mpr (.inl hmem), hrest⟩
  asked q request hq := by
    rcases getElem?_concat_some.mp hq with hq | ⟨rfl, rfl⟩
    · obtain ⟨⟨required, payload, hmem, hrest⟩, hrunning⟩ := h.asked q request hq
      exact ⟨⟨required, payload, mem_concat.mpr (.inl hmem), hrest⟩, hrunning⟩
    · exact ⟨⟨paymentRequired, paymentPayload, mem_concat.mpr (.inr rfl), rfl, rfl⟩,
        h.inFlight _ _ _ hold⟩
  inFlight := h.inFlight

/-- A request that starts an operation. -/
theorem Inv.start (h : Inv platform config handlers past s) {server : Nat} {fractions : Fractions}
    {header : Header} {paymentRequired paymentPayload : Value}
    (hreceive : receive platform config fractions header
      = .authorize paymentRequired paymentPayload) :
    Inv platform config handlers
    (past ++ [.authorized server s.requests.length s.runnings.length paymentRequired
      paymentPayload])
      { runnings := s.runnings ++ [⟨server, requestKey platform.sha paymentPayload,
          config.submitted platform paymentRequired paymentPayload, .settling⟩]
        requests := s.requests ++ [⟨server, requestKey platform.sha paymentPayload,
          config.submitted platform paymentRequired paymentPayload, s.runnings.length, true, true⟩]
        inFlight := Function.update s.inFlight (server, requestKey platform.sha paymentPayload)
          (some s.runnings.length) } where
  accepted server q r required payload hmem := by
    rcases mem_concat.mp hmem with hmem | heq
    · exact h.accepted server q r required payload hmem
    · obtain ⟨_, _, _, haccepts⟩ := receive_run hreceive
      cases heq
      exact haccepts
  joined server q r required payload hmem := by
    rcases mem_concat.mp hmem with hmem | heq
    · obtain ⟨running, hr, hkey⟩ := h.joined server q r required payload hmem
      exact ⟨running, getElem?_concat_some.mpr (.inl hr), hkey⟩
    · cases heq
      exact ⟨_, getElem?_concat_some.mpr (.inr ⟨rfl, rfl⟩), rfl⟩
  reached r running hr := by
    rcases getElem?_concat_some.mp hr with hr | ⟨rfl, rfl⟩
    · obtain ⟨hsound, hreached⟩ := h.reached r running hr
      exact ⟨hsound, hreached.imp_right fun ⟨old, reply, hmem⟩ =>
        ⟨old, reply, mem_concat.mpr (.inl hmem)⟩⟩
    · exact ⟨trivial, .inl rfl⟩
  moved r old reply new hmem := by
    obtain ⟨running, hr, hmoved, hold⟩ := h.moved r old reply new
      ((mem_concat.mp hmem).resolve_right fun heq => Event.noConfusion heq)
    exact ⟨running, getElem?_concat_some.mpr (.inl hr), hmoved,
      hold.imp_right fun ⟨old, reply, hmem⟩ => ⟨old, reply, mem_concat.mpr (.inl hmem)⟩⟩
  started r running hr := by
    rcases getElem?_concat_some.mp hr with hr | ⟨rfl, rfl⟩
    · obtain ⟨q, required, payload, hmem, hrest⟩ := h.started r running hr
      exact ⟨q, required, payload, mem_concat.mpr (.inl hmem), hrest⟩
    · exact ⟨_, paymentRequired, paymentPayload, mem_concat.mpr (.inr rfl), rfl, rfl⟩
  asked q request hq := by
    rcases getElem?_concat_some.mp hq with hq | ⟨rfl, rfl⟩
    · obtain ⟨⟨required, payload, hmem, hrest⟩, running, hr, hkey⟩ := h.asked q request hq
      exact ⟨⟨required, payload, mem_concat.mpr (.inl hmem), hrest⟩, running,
        getElem?_concat_some.mpr (.inl hr), hkey⟩
    · exact ⟨⟨paymentRequired, paymentPayload, mem_concat.mpr (.inr rfl), rfl, rfl⟩, _,
        getElem?_concat_some.mpr (.inr ⟨rfl, rfl⟩), rfl⟩
  inFlight other key r hr := by
    change Function.update s.inFlight _ _ (other, key) = some r at hr
    rw [Function.update_apply] at hr
    split at hr
    · next heq =>
      obtain ⟨-, rfl⟩ := Prod.mk.inj heq
      obtain rfl := Option.some.inj hr
      exact ⟨_, getElem?_concat_some.mpr (.inr ⟨rfl, rfl⟩), rfl⟩
    · obtain ⟨running, hrunning, hkey⟩ := h.inFlight other key r hr
      exact ⟨running, getElem?_concat_some.mpr (.inl hrunning), hkey⟩

/-- An operation that has a reply. -/
theorem Inv.reply (h : Inv platform config handlers past s) {r : Nat} {running : Running}
    {reply : Reply} {new : Phase} (hr : s.runnings[r]? = some running)
    (hnew : advance running.submitted platform config.requirement (handlers running.server)
      running.phase reply = some new) :
    Inv platform config handlers (past ++ [.replied r running.phase reply new])
      { s with runnings := s.runnings.set r { running with phase := new } } where
  accepted server q r required payload hmem :=
    h.accepted server q r required payload
    ((mem_concat.mp hmem).resolve_right fun heq => Event.noConfusion heq)
  joined server q i required payload hmem :=
    @kept_running (fun a => a.key = requestKey platform.sha payload) s.runnings r i running new
      (fun a b _ hkey _ ha => hkey ▸ ha) hr
      (h.joined server q i required payload
        ((mem_concat.mp hmem).resolve_right fun heq => Event.noConfusion heq))
  reached i other hi := by
    rcases (set_running hr).mp hi with ⟨_, hi⟩ | ⟨rfl, rfl⟩
    · obtain ⟨hsound, hreached⟩ := h.reached i other hi
      exact ⟨hsound, hreached.imp_right fun ⟨old, reply, hmem⟩ =>
        ⟨old, reply, mem_concat.mpr (.inl hmem)⟩⟩
    · exact ⟨(advance_moved (h.reached _ running hr).1 hnew).sound,
        .inr ⟨_, _, mem_concat.mpr (.inr rfl)⟩⟩
  moved i old reply' new' hmem := by
    rcases mem_concat.mp hmem with hmem | heq
    · obtain ⟨other, hi, hmoved, hold⟩ := h.moved i old reply' new' hmem
      obtain ⟨kept, hkept, hmoved⟩ := @kept_running
        (fun a => Moved a.submitted (handlers a.server) old reply' new') s.runnings r i running new
        (fun a b hserver _ hsubmitted hmoved => by rwa [← hserver, ← hsubmitted]) hr
        ⟨other, hi, hmoved⟩
      exact ⟨kept, hkept, hmoved,
        hold.imp_right fun ⟨old, reply, hmem⟩ => ⟨old, reply, mem_concat.mpr (.inl hmem)⟩⟩
    · cases heq
      obtain ⟨hsound, hreached⟩ := h.reached r running hr
      exact ⟨_, (set_running hr).mpr (.inr ⟨rfl, rfl⟩), advance_moved hsound hnew,
        hreached.imp_right fun ⟨old, reply, hmem⟩ => ⟨old, reply, mem_concat.mpr (.inl hmem)⟩⟩
  started i other hi := by
    rcases (set_running hr).mp hi with ⟨_, hi⟩ | ⟨rfl, rfl⟩
    · obtain ⟨q, required, payload, hmem, hrest⟩ := h.started i other hi
      exact ⟨q, required, payload, mem_concat.mpr (.inl hmem), hrest⟩
    · obtain ⟨q, required, payload, hmem, hrest⟩ := h.started _ running hr
      exact ⟨q, required, payload, mem_concat.mpr (.inl hmem), hrest⟩
  asked q request hq := by
    obtain ⟨⟨required, payload, hmem, hrest⟩, hrunning⟩ := h.asked q request hq
    exact ⟨⟨required, payload, mem_concat.mpr (.inl hmem), hrest⟩,
      @kept_running (fun a => a.key = request.key) s.runnings r request.running running new
        (fun a b _ hkey _ ha => hkey ▸ ha) hr hrunning⟩
  inFlight server key i hi :=
    @kept_running (fun a => a.key = key) s.runnings r i running new
    (fun a b _ hkey _ ha => hkey ▸ ha) hr
      (h.inFlight server key i hi)

/-- A request that has its response. -/
theorem Inv.answer (h : Inv platform config handlers past s) {q : Nat} {request : Request}
    (hq : s.requests[q]? = some request) :
    Inv platform config handlers past
      { s with
        requests := s.requests.set q { request with waiting := false }
        inFlight := release s request } where
  accepted := h.accepted
  joined := h.joined
  reached := h.reached
  moved := h.moved
  started := h.started
  asked i other hi := by
    by_cases heq : i = q
    · subst heq
      have hset : (s.requests.set i { request with waiting := false })[i]?
        = some { request with waiting := false } :=
        List.getElem?_set_self (List.getElem?_eq_some_iff.mp hq).1
      obtain rfl := Option.some.inj (hset.symm.trans hi)
      exact h.asked i request hq
    · have hkept : (s.requests.set q { request with waiting := false })[i]? = s.requests[i]? :=
        List.getElem?_set_ne (Ne.symm heq)
      exact h.asked i other (hkept.symm.trans hi)
  inFlight server key r hr := by
    change release s request (server, key) = some r at hr
    unfold release at hr
    split at hr
    · rw [Function.update_apply] at hr
      split at hr
      · cases hr
      · exact h.inFlight server key r hr
    · exact h.inFlight server key r hr

/-- What every step keeps. -/
theorem Inv.step (h : Inv platform config handlers past s)
    (hstep : Step platform config handlers s e t) :
    Inv platform config handlers (past ++ [e]) t := by
  cases hstep with
  | refuse _ => exact h.unrelated (fun _ _ _ _ _ => Event.noConfusion) fun _ _ _ _ => Event.noConfusion
  | start hreceive _ => exact h.start hreceive
  | join hreceive hold => exact h.join hreceive hold
  | reply hr hnew => exact h.reply hr hnew
  | send _ hq _ _ _ =>
    exact (h.answer hq).unrelated (fun _ _ _ _ _ => Event.noConfusion)
      fun _ _ _ _ => Event.noConfusion

/-- A response that an operation delivers is one of those of `Served`. -/
theorem Inv.served (h : Inv platform config handlers past s) {r : Nat} {running : Running}
    {settlement cached : Value} (hr : s.runnings[r]? = some running)
    (hphase : running.phase = .finished (some (.delivered settlement cached))) :
    Served past running.submitted.identity cached ∧ Positive settlement running.submitted := by
  obtain ⟨hsound, hreached⟩ := h.reached r running hr
  rw [hphase] at hsound hreached
  refine ⟨?_, hsound⟩
  obtain ⟨old, reply, hmem⟩ := hreached.resolve_left Phase.noConfusion
  obtain ⟨other, hother, hmoved, hold⟩ := h.moved _ _ _ _ hmem
  obtain rfl : running = other := Option.some.inj (hr.symm.trans hother)
  cases hmoved with
  | gaveUp hgives => cases hgives
  | cached hsettles _ hcaches => exact .settled hmem hsettles hcaches
  | claimedCached hshows hclaims _ hcaches => exact .claimed hmem hshows hclaims hcaches
  | recorded hshows _ hvalue hpersisted hsame =>
    obtain ⟨old', reply', hmade⟩ := hold.resolve_left Phase.noConfusion
    obtain ⟨other, hother, hmoved, _⟩ := h.moved _ _ _ _ hmade
    refine .recorded hmade ?_ hmem hshows hvalue hpersisted hsame
    cases hmoved with
    | made _ _ _ _ hbody => exact .inr ⟨_, _, rfl, rfl, hbody⟩
    | body _ hbody => exact .inl ⟨_, rfl, rfl, hbody⟩

/-- The handler is asked for a payment whose claim is granted by the reply, after it was settled. -/
theorem Inv.claimed (h : Inv platform config handlers past s) {r : Nat} {running : Running}
    {reply : Reply} {settlement : Value} (hr : s.runnings[r]? = some running)
    (hnew : advance running.submitted platform config.requirement (handlers running.server)
      running.phase reply
      = some (.handling settlement)) :
    Claimed past (.replied r running.phase reply (.handling settlement))
      (identityOf settlement) := by
  obtain ⟨hsound, hreached⟩ := h.reached r running hr
  have hmoved := advance_moved hsound hnew
  generalize hphase : running.phase = phase at hreached hmoved ⊢
  cases hmoved with
  | @granted answer now _ _ hshows hclaims hpositive =>
    obtain ⟨old, reply', hmem⟩ := hreached.resolve_left Phase.noConfusion
    obtain ⟨other, hother, hclaim, _⟩ := h.moved _ _ _ _ hmem
    obtain rfl : running = other := Option.some.inj (hr.symm.trans hother)
    rw [hpositive.identity]
    refine ⟨r, settlement, answer, now, ⟨_, rfl⟩, hshows, hclaims, ?_⟩
    cases hclaim with
    | claim hsettles _ => exact ⟨_, _, hmem, hsettles⟩

theorem same_undefined {w : Value} (h : Same .undefined w) : w = .undefined := by
  cases w <;> simp [Same, Value.canonical] at h ⊢

/-- Fields of the same data are the same data. -/
theorem same_get {v w : Value} (hv : v.Parsed ∨ v = .undefined) (h : Same v w) (key : String) :
    Same (get v key) (get w key) := by
  rcases hv with hv | rfl
  · cases hv with
    | @obj fs hn _ =>
      cases w with
      | obj gs =>
        have hlookup := lookup_of_same hn h key
        rw [get_obj, get_obj]
        cases hf : fs.lookup key with
        | none =>
          rw [hf] at hlookup
          rw [Option.map_eq_none_iff.mp hlookup.symm]
          exact .refl _
        | some a =>
          rw [hf] at hlookup
          obtain ⟨b, hb, hsame⟩ := Option.map_eq_some_iff.mp hlookup.symm
          rw [hb]
          exact hsame.symm
      | _ => simp [Same, Value.canonical] at h
    | _ =>
      cases w with
      | obj gs => simp [Same, Value.canonical] at h
      | _ => exact .refl _
  · rw [same_undefined h]
    exact .refl _

theorem parsed_get_or {v : Value} (hv : v.Parsed ∨ v = .undefined) (key : String) :
    (get v key).Parsed ∨ get v key = .undefined := by
  rcases hv with hv | rfl
  · cases hown : hasOwn v key with
    | true => exact .inl (parsed_get hv hown)
    | false =>
      refine .inr ?_
      cases v with
      | obj fs =>
        rw [hasOwn_obj, Option.isSome_eq_false_iff, Option.isNone_iff_eq_none] at hown
        rw [get_obj, hown]
        rfl
      | _ => rfl
  · exact .inr rfl

theorem str_of_same {v : Value} {text : String} (h : Same v (.str text)) : v = .str text := by
  cases v <;> simp_all [Same, Value.canonical]

/-- Payments that are the same data are for one identity, if that of the one is made of texts. -/
theorem identity_of_same {paymentRequired payload payload' settlement : Value}
    (hplain : payload.Plain) (hsame : Same payload payload')
    (hnames : Names settlement (config.submitted platform paymentRequired payload')) :
    (config.submitted platform paymentRequired payload).identity
      = (config.submitted platform paymentRequired payload').identity := by
  have hparsed : payload.Parsed ∨ payload = .undefined := .inl hplain.parsed
  have hpayload := parsed_get_or hparsed "payload"
  have hget {key : String} : Same (get (get (get payload "payload") "transaction") key)
      (get (get (get payload' "payload") "transaction") key) :=
    same_get (parsed_get_or hpayload "transaction")
      (same_get hpayload (same_get hparsed hsame "payload") "transaction") key
  obtain ⟨hash, hhash, _⟩ := hnames.hash
  obtain ⟨payer, hpayer, _⟩ := hnames.text
  have htransaction : get (get (get payload "payload") "transaction") "hash"
      = get (get (get payload' "payload") "transaction") "hash" := by
    have hother : get (get (get payload' "payload") "transaction") "hash" = .str hash := hhash
    rw [hother]
    exact str_of_same (hother ▸ hget)
  have haddress : get (get (get payload "payload") "transaction") "address"
      = get (get (get payload' "payload") "transaction") "address" := by
    have hother : get (get (get payload' "payload") "transaction") "address" = .str payer := hpayer
    rw [hother]
    exact str_of_same (hother ▸ hget)
  simp only [Config.submitted, submittedSettlementIdentity, Submitted.identity,
    htransaction, haddress]

theorem same_of_content {payload payload' : Value} (hplain : payload.Plain)
    (hplain' : payload'.Plain)
    (h : canonicalJson (requestContent payload) = canonicalJson (requestContent payload')) :
    Same payload payload' := by
  have hcontent {payload : Value} (hplain : payload.Plain) : (requestContent payload).Plain := by
    refine .obj (show ["domain", "paymentPayload"].Nodup by decide) fun f hf => ?_
    rcases List.mem_cons.mp hf with rfl | hf
    · exact .str _
    · rw [List.mem_singleton.mp hf]
      exact hplain
  have hunsigned (v : Value) : canonicalJson v.unsigned = canonicalJson v := by
    rw [canonicalJson, canonicalJson, Value.canonical_unsigned]
  rw [← hunsigned, ← hunsigned (requestContent payload'),
    canonicalJson_inj (hcontent hplain).json (hcontent hplain').json] at h
  have hsame : Same (requestContent payload) (requestContent payload') := by
    rwa [Same, Value.canonical_unsigned, Value.canonical_unsigned] at h
  exact same_get (.inl (hcontent hplain).parsed) hsame "paymentPayload"

theorem Separates.before {sha : Sha256} {before events : List Event} (h : Separates sha events)
    (hsub : before ⊆ events) : Separates sha before :=
  fun _ _ _ _ _ _ _ _ _ _ hmem hmem' => h _ _ _ _ _ _ _ _ _ _ (hsub hmem) (hsub hmem')

/-- However many requests submitted a payment to an operation, it has the one identity of what the
operation was started with, if that is made of texts. -/
theorem Inv.identity (h : Inv platform config handlers past s) (hkeys : Separates platform.sha past)
    {r : Nat} {running : Running} {settlement : Value} (hr : s.runnings[r]? = some running)
    (hpositive : Positive settlement running.submitted) {identity : Identity}
    (hof : SubmittedTo platform config past r identity) :
    identity = running.submitted.identity := by
  obtain ⟨_, hasked, server, q, required, payload, rfl, rfl⟩ := hof
  obtain ⟨other, hother, hkey⟩ := h.joined _ _ _ _ _ hasked
  obtain rfl : running = other := Option.some.inj (hr.symm.trans hother)
  obtain ⟨q', required', payload', hstarted, hkey', hsubmitted⟩ := h.started _ running hr
  have haccepts := h.accepted _ _ _ _ _ hasked
  have haccepts' := h.accepted _ _ _ _ _ hstarted
  obtain rfl : required = required' :=
    Option.some.inj (haccepts.challenge.symm.trans haccepts'.challenge)
  have hcontent : canonicalJson (requestContent payload)
      = canonicalJson (requestContent payload') :=
    hkeys _ _ _ _ _ _ _ _ _ _ hasked hstarted (hkey.symm.trans hkey')
  rw [hsubmitted]
  exact identity_of_same haccepts.plain (same_of_content haccepts.plain haccepts'.plain hcontent)
    (hsubmitted ▸ hpositive.names)

/-- An operation was started with a payment. -/
theorem Inv.submitted (h : Inv platform config handlers past s) {r : Nat} {running : Running}
    (hr : s.runnings[r]? = some running) :
    SubmittedTo platform config past r running.submitted.identity := by
  obtain ⟨q, required, payload, hstarted, -, hsubmitted⟩ := h.started r running hr
  exact ⟨_, hstarted, _, _, _, _, rfl, by rw [hsubmitted]⟩

/-- The handler is asked only by the grant of a claim, with evidence of the payment. -/
theorem Inv.granted (h : Inv platform config handlers past s) {r : Nat} {old : Phase}
    {reply : Reply} {settlement : Value}
    (hmem : .replied r old reply (.handling settlement) ∈ past) :
    ∃ running answer now, s.runnings[r]? = some running ∧ Positive settlement running.submitted
      ∧ old = .claiming settlement ∧ reply = .claimed (some answer) now ∧ answer.Claims true := by
  obtain ⟨running, hr, hmoved, _⟩ := h.moved _ _ _ _ hmem
  cases hmoved with
  | granted _ _ hclaims hpositive => exact ⟨running, _, _, hr, hpositive, rfl, rfl, hclaims⟩

theorem Inv.grants (h : Inv platform config handlers past s) (hmem : e ∈ past) {identity : Identity}
    (hinvokes : e.Invokes platform config past identity) :
    e.Grants platform config past identity := by
  obtain ⟨r, old, reply, settlement, rfl, hof⟩ := hinvokes
  obtain ⟨_, answer, now, _, _, rfl, rfl, hclaims⟩ := h.granted hmem
  exact ⟨r, settlement, answer, now, _, rfl, hclaims, hof⟩

/-- In every run in which the facilitator grants no claim twice, each time the handler is asked it
is for one payment that was submitted, and no payment is handled twice; a payment is handled only
when it was settled and its claim granted; and status 200 tells of a response that the facilitator
has as delivered. -/
theorem delivered_once {events : List Event}
    (hrun : Run (Step platform config handlers) System.initial events s)
    (hgrants : events.Pairwise fun e e' => ∀ identity, e.Grants platform config events identity →
      ¬ e'.Grants platform config events identity)
    (hkeys : Separates platform.sha events) :
    (∀ e ∈ events, e.Handles → ∃! identity, e.Invokes platform config events identity)
    ∧ (events.Pairwise fun e e' => ∀ identity,
      e.Invokes platform config events identity → ¬ e'.Invokes platform config events identity)
    ∧ (∀ before e after identity, events = before ++ e :: after →
      e.Invokes platform config events identity → Claimed before e identity)
    ∧ ∀ before e after response, events = before ++ e :: after → e.response? = some response →
      response.status = 200 →
      ∃ server q r paymentRequired paymentPayload cached, e = .sent q response
        ∧ .authorized server q r paymentRequired paymentPayload ∈ before
        ∧ response.body = indentedText (get cached "body")
        ∧ Served before (config.submitted platform paymentRequired paymentPayload).identity
        cached := by
  have hpast {before : List Event} {u : System}
      (h : Run (Step platform config handlers) System.initial before u) :
      Inv platform config handlers before u := by
    simpa using h.history (fun _ _ _ _ h hstep => Inv.step h hstep) Inv.initial
  have hwhole := hpast hrun
  refine ⟨?_, ?_, ?_, ?_⟩
  · rintro _ hmem ⟨r, old, reply, settlement, rfl⟩
    -- whatever is submitted to an operation has the identity that it was started with
    obtain ⟨running, _, _, hr, hpositive, -⟩ := hwhole.granted hmem
    refine ⟨_, ⟨r, old, reply, settlement, rfl, hwhole.submitted hr⟩, ?_⟩
    rintro identity ⟨_, _, _, _, heq, hof⟩
    cases heq
    exact hwhole.identity hkeys hr hpositive hof
  · refine hgrants.imp_of_mem fun hmem hmem' hnot identity hinvokes hinvokes' => ?_
    exact hnot identity (hwhole.grants hmem hinvokes) (hwhole.grants hmem' hinvokes')
  · rintro before e after identity heq ⟨r, old, reply, settlement, rfl, hof⟩
    have hmem : .replied r old reply (.handling settlement) ∈ events := by simp [heq]
    obtain ⟨running, _, _, hr, hpositive, -⟩ := hwhole.granted hmem
    rw [hwhole.identity hkeys hr hpositive hof, ← hpositive.identity]
    subst heq
    -- the step itself, after what came before it
    obtain ⟨u, hbefore, hrest⟩ := hrun.split
    cases hrest with
    | cons hstep _ =>
      cases hstep with
      | reply hr hnew => exact (hpast hbefore).claimed hr hnew
  · rintro before e after response rfl hresponse hstatus
    obtain ⟨u, hbefore, hrest⟩ := hrun.split
    have hinv := hpast hbefore
    cases hrest with
    | cons hstep _ =>
      cases hstep with
      | refuse hreceive =>
        cases hresponse
        exact absurd hstatus (receive_respond hreceive)
      | start => cases hresponse
      | join => cases hresponse
      | reply => cases hresponse
      | @send q request running outcome paymentRequired hchallenge hq _ hr hfinished =>
        cases hresponse
        -- only an operation that ended with a delivery has a response of status 200
        obtain ⟨settlement, cached, rfl, hbody⟩ := respond_ok hstatus
        obtain ⟨hserved, hpositive⟩ := hinv.served hr hfinished
        obtain ⟨⟨required, payload, hasked, -, -⟩, -⟩ := hinv.asked q request hq
        refine ⟨request.server, q, request.running, required, payload, cached, rfl,
          hasked, hbody, ?_⟩
        rw [hinv.identity (hkeys.before (List.subset_append_left _ _)) hr hpositive
          ⟨_, hasked, _, _, _, _, rfl, rfl⟩]
        exact hserved

end

/-! ### A visit -/

namespace Visit

def hash : String := String.ofList (List.replicate 64 'b')

def payer : String := String.ofList ("mock-".toList ++ List.replicate 32 'c')

def platform : Platform where
  sha := .standard
  url _ := some ⟨"http:", "127.0.0.1", "", ""⟩
  canonicalAddress _ := false

def requirement : Value :=
  .obj [("scheme", .str "exact"), ("network", .str MOCK_NETWORK), ("asset", .str "zts1"),
    ("amount", .str "1"), ("payTo", .str "z1"), ("maxTimeoutSeconds", .num 60),
  ("extra", .obj [("paymentFlow", .str "upfront"), ("poc", .bool true),
    ("settlement", .str "account-block"), ("zenonChain", MOCK_ZENON_CHAIN_PROFILE)])]

theorem configured : snapshotActiveUpfrontRequirement requirement = some requirement := by
  have h1 : assertExactKeys requirement REQUIREMENT_FIELDS [] = true := by decide
  have h2 : assertExactKeys (get requirement "extra") REQUIREMENT_EXTRA_FIELDS
      REQUIREMENT_EXTRA_OPTIONAL_FIELDS = true := by
    decide
  have h3 : assertExactKeys (get (get requirement "extra") "zenonChain") CHAIN_PROFILE_FIELDS []
      = true := by decide
  have h4 : validateRequirementSnapshot requirement true = true := by rfl
  simp only [snapshotActiveUpfrontRequirement, snapshotRequirement, guard, h1, h2, h3, if_true]
  rfl

def config : Config := ⟨"http://127.0.0.1:8080", requirement, configured⟩

def resource : Value := .obj [("url", .str "http://127.0.0.1:8080/paid"),
  ("description", .str "Zenon x402 PoC protected resource"), ("mimeType", .str "application/json")]

def challenge : Value :=
  .obj [("x402Version", .num 2), ("resource", resource), ("accepts", .arr [requirement])]

theorem challenge_eq : config.challenge platform = some challenge := by
  have h : validatePaymentRequired platform.toNode challenge = true := by rfl
  have hurl : config.base ++ "/paid" = "http://127.0.0.1:8080/paid" := by decide
  rw [Config.challenge, hurl]
  change (if validatePaymentRequired platform.toNode challenge = true then some challenge else none)
    = some challenge
  rw [if_pos h]

def payload : Value :=
  .obj [("x402Version", .num 2), ("resource", resource), ("accepted", requirement),
    ("payload", .obj [("transaction", .obj [("hash", .str hash), ("address", .str payer)]),
      ("intentDigest", .str hash)])]

theorem plain_payload : payload.Plain := Value.plain_of_isPlain _ (by rfl)

/-- The header of the payment is authorized. -/
theorem received : ∃ text, encodeX402Header payload = some text
    ∧ receive platform config ⟨true, true⟩ (.text text) = .authorize challenge payload := by
  have hsize : Value.textSize payload ≤ 6000 := Value.textSize_le_tally plain_payload (by decide)
  obtain ⟨text, htext⟩ := (encodeB64Json_isSome payload MAX_X402_HEADER_ENCODED_BYTES).mpr (by
    unfold MAX_X402_HEADER_ENCODED_BYTES
    omega)
  have hdecode : decodeX402Header text = some payload :=
    decodeB64Json_encodeB64Json (plain_payload).json rfl htext
  refine ⟨text, htext, ?_⟩
  have h1 : (validateJsonValue true false 0 payload
      && validatePaymentPayloadStructure ⟨true, true⟩ payload) = true := by
    decide
  have h2 : (validatePaymentPayloadEnvelope platform.toNode payload
      && validateActiveUpfrontRequirement (get payload "accepted")
      && sameRequirements (get payload "accepted") config.requirement
      && sameResource platform.toNode (get payload "resource") (get challenge "resource"))
      = true := by
    decide
  have h3 : validateJsonValue true true 0 payload = true := by rfl
  exact receive_of_checks challenge_eq hdecode h1 h2 h3

def submitted (key : String) : Submitted :=
  ⟨.str MOCK_NETWORK, .str MOCK_NETWORK, .str hash, .str payer, key⟩

/-- An object with data properties alone. -/
def view (fields : List (String × Value)) : View where
  isObject := true
  isProxy := false
  isPlainObject := true
  ownKeys := some (fields.map fun f => some f.1)
  property key := match fields.lookup key with
    | some value => .data value true true true
    | none => .missing

def answer (fields : List (String × Value)) : Answer := fun _ => view fields

def settlement (key : String) : List (String × Value) :=
  [("success", .bool true), ("network", .str MOCK_NETWORK), ("transaction", .str hash),
    ("payer", .str payer), ("state", .str "MOMENTUM_INCLUDED"), ("authorizationKey", .str key),
    ("deliveryState", .str "NONE")]

def transition (key state : String) (fields : List (String × Value)) : List (String × Value) :=
  [("authorizationKey", .str key), ("payer", .str payer), ("transaction", .str hash),
    ("deliveryState", .str state)] ++ fields

def greeting : Value := .obj [("greeting", .str "hello")]

def cached : Value := jsonResponse greeting

theorem settled {key : String} (hkey : Text.isHash key = true) :
    advance (submitted key) platform requirement true .settling
    (.settled (some (answer (settlement key))) true)
      = some (.claiming (.obj (settlement key))) := by
  have hhash : isHashHex (.str hash) = true := by decide
  have hpayer : isCanonicalPayer platform (.str payer) (.str MOCK_NETWORK) = true := by decide
  have hthreshold : hasThreshold requirement = false := by decide
  have hterminal : terminalReconciliationEvidence platform (answer (settlement key)) (submitted key)
      = .absent := by
    simp [terminalReconciliationEvidence, View.hides, View.inspectOwnProperty, View.holdsText,
      View.dataOf?, answer, view, settlement, List.lookup_cons]
  have hpositive : positiveSettlementEvidence platform (answer (settlement key)) (submitted key)
      = some (.obj (settlement key)) := by
    have hkeyHash : isHashHex (.str key) = true := hkey
    simp [positiveSettlementEvidence, View.ownDataSnapshot, View.ownDataFields,
      View.isPlainProperty, View.inspectOwnProperty, View.dataOf?, answer, view, settlement,
      List.lookup_cons, guard, namesPayment, namesAuthorization, Journal.get, submitted,
      hhash, hpayer, hkeyHash, Value.strictEq, isOneOf, POSITIVE_DELIVERY_STATES]
  have hsuccess : ((answer (settlement key) .success).dataOf? "success").any
      (·.strictEq (.bool true)) = true := by
    simp [View.inspectOwnProperty, View.dataOf?, answer, view, settlement, List.lookup_cons,
      Value.strictEq]
  simp only [advance, afterSettle, hterminal, thresholdPendingEvidence, hthreshold, if_true,
    hsuccess, Bool.true_eq_false, if_false, hpositive]
  rfl

theorem claimed {key : String} (now : String) :
    advance (submitted key) platform requirement true (.claiming (.obj (settlement key)))
      (.claimed (some (answer
        (transition key "DELIVERY_PENDING" [("deliveryClaimed", .bool true)]))) now)
      = some (.handling (.obj (settlement key))) := by
  have hevidence : positiveTransitionEvidence
      (answer (transition key "DELIVERY_PENDING" [("deliveryClaimed", .bool true)]))
      (submitted key) ["deliveryState", "deliveryClaimed"]
        = some (.obj [("authorizationKey", .str key), ("payer", .str payer),
          ("deliveryState", .str "DELIVERY_PENDING"), ("deliveryClaimed", .bool true),
          ("transaction", .str hash)]) := by
    simp [positiveTransitionEvidence, View.ownDataSnapshot, View.ownDataFields,
      View.isPlainProperty, View.inspectOwnProperty, View.dataOf?, answer, view, transition,
      List.lookup_cons, guard, Journal.get, submitted, Value.strictEq,
      normalizedTransaction, withFields, JsMap.setEntry]
  simp only [advance, afterClaim, hevidence]
  rfl

theorem normalized_cached : normalizeCachedResponse cached = .ok cached := by
  obtain ⟨w, hw⟩ : ∃ w, normalizeCachedResponse cached = .ok w := by
    have h : (normalizeCachedResponse cached).isOk = true := by decide +kernel
    cases hr : normalizeCachedResponse cached with
    | ok w => exact ⟨w, rfl⟩
    | error _ =>
      rw [hr] at h
      cases h
  rw [hw, (normalizeCachedResponse_ok hw).1]

theorem handled {key : String} :
    advance (submitted key) platform requirement true (.handling (.obj (settlement key)))
    (.handled (some greeting))
      = some (.delivering (.obj (settlement key)) cached) := by
  have hcached : normalizeCachedResponse (jsonResponse greeting) = .ok cached := normalized_cached
  change some (afterBody (.obj (settlement key)) greeting) = _
  rw [afterBody, hcached]

def finished (key : String) : Outcome :=
  .delivered (deliveredSettlement (.obj (settlement key))) cached

theorem recorded {key : String} :
    advance (submitted key) platform requirement true (.delivering (.obj (settlement key)) cached)
      (.delivered (some (answer (transition key "DELIVERED" [("cachedResponse", cached)]))))
      = some (.finished (some (finished key))) := by
  have hevidence : positiveTransitionEvidence
      (answer (transition key "DELIVERED" [("cachedResponse", cached)]))
      (submitted key) ["deliveryState", "cachedResponse"]
        = some (.obj [("authorizationKey", .str key), ("payer", .str payer),
          ("deliveryState", .str "DELIVERED"), ("cachedResponse", cached),
          ("transaction", .str hash)]) := by
    simp [positiveTransitionEvidence, View.ownDataSnapshot, View.ownDataFields,
      View.isPlainProperty, View.inspectOwnProperty, View.dataOf?, answer, view, transition,
      List.lookup_cons, guard, Journal.get, submitted, Value.strictEq,
      normalizedTransaction, withFields, JsMap.setEntry]
  have hpersisted : normalizeCachedResponse
      (get (.obj [("authorizationKey", .str key), ("payer", .str payer),
        ("deliveryState", .str "DELIVERED"), ("cachedResponse", cached),
        ("transaction", .str hash)]) "cachedResponse")
      = .ok cached := normalized_cached
  simp only [advance, afterDelivered, hevidence, hpersisted, if_true]
  rfl

/-- What the facilitator says of a claim when the response is there. -/
def told (key : String) : Answer :=
  answer (transition key "DELIVERED" [("deliveryClaimed", .bool false), ("cachedResponse", cached)])

/-- Whoever claims the delivery after that has the response that was recorded. -/
theorem claimed_again {key : String} (now : String) :
    advance (submitted key) platform requirement true (.claiming (.obj (settlement key)))
    (.claimed (some (told key)) now)
      = some (.finished (some (finished key))) := by
  have hevidence : positiveTransitionEvidence (told key) (submitted key)
      ["deliveryState", "deliveryClaimed"]
      = some (.obj [("authorizationKey", .str key), ("payer", .str payer),
        ("deliveryState", .str "DELIVERED"), ("deliveryClaimed", .bool false),
        ("transaction", .str hash)]) := by
    simp [positiveTransitionEvidence, View.ownDataSnapshot, View.ownDataFields,
      View.isPlainProperty, View.inspectOwnProperty, View.dataOf?, told, answer, view, transition,
      List.lookup_cons, guard, Journal.get, submitted, Value.strictEq,
      normalizedTransaction, withFields, JsMap.setEntry]
  have hcaches : (told key .cachedResponse).dataOf? "cachedResponse" = some cached := by
    simp [View.dataOf?, View.inspectOwnProperty, told, answer, view, transition, List.lookup_cons]
  simp only [advance, afterClaim, hevidence, deliverCached, hcaches, normalized_cached]
  rfl

def key : String := (config.submitted platform challenge payload).authorizationKey

/-- Two servers are asked for one payment. Both have it settled, the first has its delivery claimed,
asks the handler and has the response recorded; the second is told of that response. -/
def events : List Event :=
  [.authorized 0 0 0 challenge payload,
    .authorized 1 1 1 challenge payload,
    .replied 0 .settling (.settled (some (answer (settlement key))) true)
    (.claiming (.obj (settlement key))),
    .replied 1 .settling (.settled (some (answer (settlement key))) true)
    (.claiming (.obj (settlement key))),
    .replied 0 (.claiming (.obj (settlement key)))
      (.claimed (some (answer
        (transition key "DELIVERY_PENDING" [("deliveryClaimed", .bool true)]))) "")
      (.handling (.obj (settlement key))),
    .replied 0 (.handling (.obj (settlement key))) (.handled (some greeting))
      (.delivering (.obj (settlement key)) cached),
    .replied 0 (.delivering (.obj (settlement key)) cached)
      (.delivered (some (answer (transition key "DELIVERED" [("cachedResponse", cached)]))))
      (.finished (some (finished key))),
    .replied 1 (.claiming (.obj (settlement key))) (.claimed (some (told key)) "")
      (.finished (some (finished key))),
    .sent 0 (respond challenge (some (finished key))),
    .sent 1 (respond challenge (some (finished key)))]

theorem isHash_key : Text.isHash key = true := platform.sha.isHash_hex _

def runningOf (server : Nat) (phase : Phase) : Running :=
  ⟨server, requestKey platform.sha payload, submitted key, phase⟩

def requestOf (server : Nat) (waiting : Bool) : Request :=
  ⟨server, requestKey platform.sha payload, submitted key, server, true, waiting⟩

/-- The first server while its operation is in a phase. -/
def alone (phase : Phase) : System where
  runnings := [runningOf 0 phase]
  requests := [requestOf 0 true]
  inFlight := Function.update (fun _ => none) (0, requestKey platform.sha payload) (some 0)

/-- Both servers while their operations are in two phases. -/
def visiting (first second : Phase) : System where
  runnings := [runningOf 0 first, runningOf 1 second]
  requests := [requestOf 0 true, requestOf 1 true]
  inFlight := Function.update (alone first).inFlight (1, requestKey platform.sha payload) (some 1)

theorem first_replies {old new second : Phase} {reply : Reply}
    (h : advance (submitted key) platform requirement true old reply = some new) :
    Step platform config (fun _ => true) (visiting old second) (.replied 0 old reply new)
    (visiting new second) :=
  @Step.reply _ _ _ (visiting old second) 0 (runningOf 0 old) reply new rfl h

theorem second_replies {first old new : Phase} {reply : Reply}
    (h : advance (submitted key) platform requirement true old reply = some new) :
    Step platform config (fun _ => true) (visiting first old) (.replied 1 old reply new)
    (visiting first new) :=
  @Step.reply _ _ _ (visiting first old) 1 (runningOf 1 old) reply new rfl h

theorem both_sent {outcome : Outcome} : ∃ s, Run (Step platform config fun _ => true)
    (visiting (.finished (some outcome)) (.finished (some outcome)))
    [.sent 0 (respond challenge (some outcome)), .sent 1 (respond challenge (some outcome))] s := by
  have hfirst := @Step.send platform config (fun _ => true)
    (visiting (.finished (some outcome)) (.finished (some outcome))) 0 (requestOf 0 true)
    (runningOf 0 (.finished (some outcome))) (some outcome) challenge challenge_eq rfl rfl rfl rfl
  exact ⟨_, .cons hfirst (.cons (@Step.send platform config (fun _ => true) _ 1 (requestOf 1 true)
    (runningOf 1 (.finished (some outcome))) (some outcome) challenge challenge_eq rfl rfl rfl rfl)
    (.nil _))⟩

theorem run : ∃ s, Run (Step platform config fun _ => true) System.initial events s := by
  obtain ⟨_, _, hreceive⟩ := received
  have hstart : Step platform config (fun _ => true) System.initial
      (.authorized 0 0 0 challenge payload)
      (alone .settling) := .start hreceive rfl
  have hother : Step platform config (fun _ => true) (alone .settling)
      (.authorized 1 1 1 challenge payload)
      (visiting .settling .settling) := .start hreceive rfl
  obtain ⟨s, hsent⟩ := @both_sent (finished key)
  exact ⟨s, .cons hstart (.cons hother (.cons (first_replies (settled isHash_key))
    (.cons (second_replies (settled isHash_key)) (.cons (first_replies (claimed ""))
    (.cons (first_replies handled) (.cons (first_replies recorded)
    (.cons (second_replies (claimed_again "")) hsent)))))))⟩

theorem told_not_claims : ¬ (told key).Claims true := by
  intro h
  simp [Answer.Claims, View.dataOf?, View.inspectOwnProperty, told, answer, view, transition,
    List.lookup_cons] at h

/-- Where one event alone is of an identity, no two are. -/
theorem pairwise_of_once {P : Event → Identity → Prop} {before after : List Event} {e : Event}
    (hbefore : ∀ a ∈ before, ∀ identity, ¬ P a identity)
    (hafter : ∀ a ∈ after, ∀ identity, ¬ P a identity) :
    (before ++ e :: after).Pairwise fun a b => ∀ identity, P a identity → ¬ P b identity := by
  rw [List.pairwise_append, List.pairwise_cons]
  refine ⟨List.pairwise_of_forall_mem_list fun a ha _ _ identity h => absurd h
    (hbefore a ha identity), ⟨fun b hb identity _ => hafter b hb identity,
      List.pairwise_of_forall_mem_list fun a ha _ _ identity h => absurd h (hafter a ha identity)⟩,
    fun a ha _ _ identity h => absurd h (hbefore a ha identity)⟩

theorem grants_once : events.Pairwise fun e e' => ∀ identity,
    e.Grants platform config events identity → ¬ e'.Grants platform config events identity := by
  refine @pairwise_of_once (fun e => e.Grants platform config events) (events.take 4)
    (events.drop 5) _
    (fun e he identity hgrants => ?_) (fun e he identity hgrants => ?_)
  · obtain ⟨_, _, _, _, _, rfl, -⟩ := hgrants
    simp [events] at he
  · obtain ⟨_, _, answer, _, _, rfl, hclaims, -⟩ := hgrants
    have htold : answer = told key := by
      simp [events] at he
      exact he.2.2.1.1
    exact told_not_claims (htold ▸ hclaims)

theorem separates : Separates platform.sha events := by
  intro server q r paymentRequired paid server' q' r' paymentRequired' paid' hmem hmem' _
  have hpaid {server q r : Nat} {paymentRequired paid : Value}
      (h : .authorized server q r paymentRequired paid ∈ events) : paid = payload := by
    simp only [events, List.mem_cons, Event.authorized.injEq, List.not_mem_nil, or_false,
      reduceCtorEq] at h
    rcases h with h | h
    · exact h.2.2.2.2
    · exact h.2.2.2.2
  rw [hpaid hmem, hpaid hmem']

/-- What is told of the settlement of the greeting. -/
def shown : Value := .obj [("success", .bool true), ("network", .str MOCK_NETWORK),
      ("transaction", .str hash), ("payer", .str payer), ("state", .str "MOMENTUM_INCLUDED")]

theorem plain_shown : shown.Plain := Value.plain_of_isPlain _ (by rfl)

theorem shown_eq : publicSettlement (deliveredSettlement (.obj (settlement key))) = shown := by
  generalize key = k
  rfl

theorem finished_ok : ∃ header,
    respond challenge (some (finished key))
      = ⟨200, none, some header, indentedText (get cached "body")⟩ := by
  have hsize : Value.textSize shown ≤ 6000 := Value.textSize_le_tally plain_shown (by decide)
  obtain ⟨header, hheader⟩ := (encodeB64Json_isSome shown MAX_X402_HEADER_ENCODED_BYTES).mpr (by
    unfold MAX_X402_HEADER_ENCODED_BYTES
    omega)
  refine ⟨header, ?_⟩
  rw [finished, respond, deliveredResponse, withHeader, shown_eq]
  change (encodeB64Json shown MAX_X402_HEADER_ENCODED_BYTES).elim _ _ = _
  rw [hheader]
  rfl

/-- Two servers deliver one greeting: the handler is asked once, for the payment that both were
sent, and each of them has sent the response that was recorded. -/
theorem greeting_delivered : ∃ s, Run (Step platform config fun _ => true) System.initial events s
    ∧ (∃ e ∈ events, ∃! identity, e.Invokes platform config events identity)
    ∧ (events.Pairwise fun e e' => ∀ identity,
      e.Invokes platform config events identity → ¬ e'.Invokes platform config events identity)
    ∧ ∃ server q r paymentRequired paymentPayload sent,
      .authorized server q r paymentRequired paymentPayload ∈ events
        ∧ (respond challenge (some (finished key))).body = indentedText (get sent "body")
        ∧ Served (events.take 9)
        (config.submitted platform paymentRequired paymentPayload).identity sent := by
  obtain ⟨s, hrun⟩ := run
  obtain ⟨hone, honce, -, hserved⟩ := delivered_once hrun grants_once separates
  have hstatus : (respond challenge (some (finished key))).status = 200 := by
    obtain ⟨header, hheader⟩ := finished_ok
    rw [hheader]
  obtain ⟨server, q, r, paymentRequired, paymentPayload, sent, -, hasked, hbody, hsent⟩ :=
    hserved (events.take 9) (.sent 1 (respond challenge (some (finished key)))) [] _ rfl rfl hstatus
  have hgranted : events[4] ∈ events := List.getElem_mem _
  exact ⟨s, hrun, ⟨_, hgranted, hone _ hgranted ⟨_, _, _, _, rfl⟩⟩, honce,
    server, q, r, paymentRequired, paymentPayload, sent, List.mem_of_mem_take hasked, hbody, hsent⟩

end Visit
end Resource
end ZenonX402
