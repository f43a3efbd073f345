/-
# Executions are authorized at most once

A step writes at most one request: a new one, which is RESERVED, or one that
moves on along `RequestState.Next` (`Step.writes`). No state leads back to
RESERVED, and `beginExecution` authorizes a request only as it leaves RESERVED
while no request is unresolved. So each request is authorized at most once in a
run (`authorized_at_most_once`), and a run from the empty model has at most one
unresolved request at a time.

Key definitions: `RequestState.Next`, `Wrote`, `Ledger.AtMostOneUnresolved`.
Key theorems: `Step.writes`, `run_advances`, `run_resolves`, `authorized_at_most_once`.
-/
import ZenonX402.Credit.Runs

namespace ZenonX402
namespace Credit

open Js Prog

/-! ### What a step writes -/

/-- The states a request moves to from a state. -/
def RequestState.next : RequestState → List RequestState
  | .RESERVED => [.EXECUTING, .FAILED_RELEASED]
  | .EXECUTING => [.SUCCEEDED, .OUTCOME_UNKNOWN]
  | .OUTCOME_UNKNOWN => [.SUCCEEDED, .FAILED_RELEASED]
  | .SUCCEEDED | .FAILED_RELEASED => []

def RequestState.Next (s t : RequestState) : Prop := t ∈ s.next

theorem RequestState.Next.ne_reserved {s t : RequestState} (h : s.Next t) : t ≠ .RESERVED := by
  rintro rfl
  unfold Next at h
  cases s <;> simp [next] at h

/-- A request that has left RESERVED does not return to it. -/
theorem RequestState.left_reserved {s t : RequestState} (h : Relation.ReflTransGen Next s t)
    (hs : s ≠ .RESERVED) : t ≠ .RESERVED := by
  cases h with
  | refl => exact hs
  | tail _ hlast => exact hlast.ne_reserved

/-- `L'` is `L` with the request `q` written: a new one, or one that moves on.
It is new or begins only while no request is unresolved. -/
structure Wrote (L : Ledger) (q : Request) (L' : Ledger) : Prop where
  request? : ∀ k r, L'.request? k r = if k = q.grantId.1 ∧ r = q.requestId.1 then some q
    else L.request? k r
  moved : ∀ p, L.request? q.grantId.1 q.requestId.1 = some p → p.state.Next q.state
  new : L.request? q.grantId.1 q.requestId.1 = none → q.state = .RESERVED
  exclusive : q.state = .RESERVED ∨ q.state = .EXECUTING → L.hasUnresolvedExecution = false

variable {sha : Sha256} {env : Env} {L L' : Ledger} {e : Event}

theorem request?_setGrant (g : Grant) (k r : String) :
    (L.setGrant g).request? k r = L.request? k r := rfl

theorem request?_setRequest {rs : JsMap String Request} {q : Request}
    (hrs : L.requests.get? q.grantId.1 = some rs) (k r : String) : (L.setRequest q).request? k r =
      if k = q.grantId.1 ∧ r = q.requestId.1 then some q else L.request? k r := by
  unfold Ledger.request?
  rw [Ledger.get?_setRequest hrs]
  by_cases hk : k = q.grantId.1
  · rw [if_pos hk, hk, hrs, Option.bind_some, Option.bind_some, JsMap.get?_set]
    by_cases hr : r = q.requestId.1
    · rw [if_pos hr, if_pos ⟨rfl, hr⟩]
    · rw [if_neg hr, if_neg fun h => hr h.2]
  · rw [if_neg hk, if_neg fun h => hk h.1]

theorem request?_addGrant (hL : L.Structured sha) {g : Grant}
    (hnew : L.grants.get? g.grantId.1 = none) (k r : String) :
    (L.addGrant g).request? k r = L.request? k r := by
  unfold Ledger.request?
  rw [Ledger.requests_addGrant]
  by_cases hk : k = g.grantId.1
  · have hnone : L.requests.get? k = none := by
      have := hL.requestsOf k
      rw [hk, hnew] at this
      rw [hk]
      simpa using this
    rw [if_pos hk, hnone]
    rfl
  · rw [if_neg hk]

/-- A request of a grant that is there moves on. -/
theorem Ledger.Has.wrote {g g' : Grant} {rs : JsMap String Request} {q q' : Request}
    (hq : L.Has g rs q) (hL : L.Valid sha) (hgrant : q'.grantId = q.grantId)
    (hrequest : q'.requestId = q.requestId) (hnext : q.state.Next q'.state)
    (hexcl : q'.state = .EXECUTING → L.hasUnresolvedExecution = false) :
    Wrote L q' ((L.setGrant g').setRequest q') := by
  have hgid : q'.grantId.1 = g.grantId.1 := by rw [hgrant, (hq.scoped hL).grantId]
  have hget : L.request? q'.grantId.1 q'.requestId.1 = some q := by
    unfold Ledger.request?
    rw [hgid, hq.requests, Option.bind_some, hrequest, hq.request]
  have hrs : (L.setGrant g').requests.get? q'.grantId.1 = some rs := by
    rw [Ledger.setGrant_requests, hgid]
    exact hq.requests
  refine ⟨request?_setRequest hrs, fun p hp => ?_, fun hnone => ?_, fun h =>
    hexcl (h.resolve_left hnext.ne_reserved)⟩
  · rw [hget] at hp
    cases Option.some.inj hp
    exact hnext
  · rw [hget] at hnone
    cases hnone

/-- A step writes one request or none. -/
theorem Step.writes (h : Step sha env L e L') (hL : L.Valid sha) :
    (∀ k r, L'.request? k r = L.request? k r) ∨ ∃ q, Wrote L q L' := by
  have hkeep {g : Grant} (hg : L.grants.get? g.grantId.1 = some g) (q : Request) :
      L.setRequest q = (L.setGrant g).setRequest q := by rw [Ledger.setGrant_self hg]
  cases h with
  | offerRegistered o hnew => exact .inl fun k r => rfl
  | grantMinted a o now hfresh => exact .inl (request?_addGrant hL.toStructured hfresh.grant)
  | grantExpired g i now hg => exact .inl (request?_setGrant _)
  | grantRevoked g hg => exact .inl (request?_setGrant _)
  | reserved g rs normalized costUnits now hg hrs hgrant hnew hunres =>
    refine .inr ⟨newRequest sha g normalized costUnits, ?_⟩
    have hgid : (newRequest sha g normalized costUnits).grantId.1 = g.grantId.1 :=
      congrArg Subtype.val hgrant
    have hnone : L.request? (newRequest sha g normalized costUnits).grantId.1
        (newRequest sha g normalized costUnits).requestId.1 = none := by
      unfold Ledger.request?
      rw [hgid, hrs, Option.bind_some]
      exact hnew
    have hrs' : (L.setGrant (g.hold costUnits)).requests.get?
        (newRequest sha g normalized costUnits).grantId.1 = some rs := by
      rw [Ledger.setGrant_requests, hgid, hrs]
    refine ⟨request?_setRequest hrs', fun p hp => ?_, fun _ => rfl, fun _ => hunres⟩
    rw [hnone] at hp
    cases hp
  | began g rs q now hq hstate hunres =>
    rw [hkeep hq.grant]
    exact .inr ⟨_, hq.wrote hL rfl rfl (by simp [RequestState.Next, RequestState.next, hstate])
      fun _ => hunres⟩
  | released g rs q hq hstate =>
    exact .inr ⟨_, hq.wrote hL rfl rfl (by simp [RequestState.Next, RequestState.next, hstate])
      fun h => by cases h⟩
  | completed g rs q cachedResult hq hstate =>
    exact .inr ⟨_, hq.wrote hL rfl rfl (by simp [RequestState.Next, RequestState.next, hstate])
      fun h => by cases h⟩
  | markedUnknown g rs q hq hstate =>
    rw [hkeep hq.grant]
    exact .inr ⟨_, hq.wrote hL rfl rfl (by simp [RequestState.Next, RequestState.next, hstate])
      fun h => by cases h⟩
  | reconciled g rs q outcome hq hstate =>
    refine .inr ⟨_, hq.wrote hL ?_ ?_ ?_ ?_⟩
    · cases outcome <;> rfl
    · cases outcome <;> rfl
    · cases outcome <;> simp [RequestState.Next, RequestState.next, hstate, reconcileTo]
    · cases outcome <;> exact fun h => by cases h

/-- No request is added while one is unresolved. -/
theorem Step.adds_none (h : Step sha env L e L') (hL : L.Valid sha)
    (hunres : L.hasUnresolvedExecution = true) {k r : String} (hnone : L.request? k r = none) :
    L'.request? k r = none := by
  rcases h.writes hL with hsame | ⟨q, hw⟩
  · rw [hsame, hnone]
  · rw [hw.request?]
    by_cases hkey : k = q.grantId.1 ∧ r = q.requestId.1
    · obtain ⟨rfl, rfl⟩ := hkey
      rw [hw.exclusive (.inl (hw.new hnone))] at hunres
      cases hunres
    · rw [if_neg hkey, hnone]

/-! ### Requests advance -/

/-- Every request of `L` is in `L'`, in a state its own leads to. -/
def Ledger.Advances (L L' : Ledger) : Prop := ∀ k r q, L.request? k r = some q →
  ∃ q', L'.request? k r = some q' ∧ Relation.ReflTransGen RequestState.Next q.state q'.state

theorem Ledger.Advances.refl (L : Ledger) : L.Advances L := fun _ _ q hq => ⟨q, hq, .refl⟩

theorem Ledger.Advances.trans {L₁ L₂ L₃ : Ledger} (h : L₁.Advances L₂) (h' : L₂.Advances L₃) :
    L₁.Advances L₃ := by
  intro k r q hq
  obtain ⟨p, hp, hs⟩ := h k r q hq
  obtain ⟨o, ho, ht⟩ := h' k r p hp
  exact ⟨o, ho, hs.trans ht⟩

theorem Step.advances (h : Step sha env L e L') (hL : L.Valid sha) : L.Advances L' := by
  rcases h.writes hL with hsame | ⟨q, hw⟩
  · exact fun k r p hp => ⟨p, by rw [hsame, hp], .refl⟩
  · intro k r p hp
    rw [hw.request?]
    by_cases hkey : k = q.grantId.1 ∧ r = q.requestId.1
    · obtain ⟨rfl, rfl⟩ := hkey
      exact ⟨q, if_pos ⟨rfl, rfl⟩, .single (hw.moved p hp)⟩
    · exact ⟨p, by rw [if_neg hkey, hp], .refl⟩

/-- In a run every request advances. -/
theorem run_advances {cs : List Called} (h : Run (CallStep sha) (.idle L) cs (.idle L'))
    (hL : L.Valid sha) :
    L.Advances L' :=
  run_relates .refl .trans (fun _ _ _ _ hL hs => hs.advances hL) h hL

/-! ### Unresolved requests -/

/-- The request with these keys is EXECUTING or OUTCOME_UNKNOWN. -/
def Ledger.UnresolvedAt (L : Ledger) (k r : String) : Prop :=
  ∃ q, L.request? k r = some q ∧ (q.state = .EXECUTING ∨ q.state = .OUTCOME_UNKNOWN)

def Ledger.AtMostOneUnresolved (L : Ledger) : Prop :=
  ∀ k r k' r', L.UnresolvedAt k r → L.UnresolvedAt k' r' → k = k' ∧ r = r'

theorem not_unresolvedAt (h : L.hasUnresolvedExecution = false) (k r : String) :
    ¬ L.UnresolvedAt k r := by
  rintro ⟨q, hq, hs⟩
  unfold Ledger.request? at hq
  obtain ⟨rs, hrs, hget⟩ := Option.bind_eq_some_iff.mp hq
  unfold Ledger.hasUnresolvedExecution at h
  rw [List.any_eq_false] at h
  have hany := h rs (JsMap.mem_values_iff.mpr ⟨k, hrs⟩)
  refine hany (List.any_eq_true.mpr ⟨q, JsMap.mem_values_iff.mpr ⟨r, hget⟩, ?_⟩)
  rcases hs with hs | hs <;> rw [hs] <;> rfl

/-- What was unresolved before a run, or one request that came after. -/
def Ledger.Resolves (L L' : Ledger) : Prop :=
  (∀ k r, L'.UnresolvedAt k r → L.UnresolvedAt k r) ∨ L'.AtMostOneUnresolved

theorem Ledger.Resolves.trans {L₁ L₂ L₃ : Ledger} (h : L₁.Resolves L₂) (h' : L₂.Resolves L₃) :
    L₁.Resolves L₃ := by
  rcases h' with h' | h'
  · rcases h with h | h
    · exact .inl fun k r hu => h k r (h' k r hu)
    · exact .inr fun k r k₁ r₁ hu hu₁ => h k r k₁ r₁ (h' k r hu) (h' k₁ r₁ hu₁)
  · exact .inr h'

theorem Step.resolves (h : Step sha env L e L') (hL : L.Valid sha) : L.Resolves L' := by
  rcases h.writes hL with hsame | ⟨q, hw⟩
  · exact .inl fun k r ⟨p, hp, hs⟩ => ⟨p, by rw [← hsame, hp], hs⟩
  · have hold {k r : String} (hkey : ¬ (k = q.grantId.1 ∧ r = q.requestId.1))
        (hu : L'.UnresolvedAt k r) : L.UnresolvedAt k r := by
      obtain ⟨p, hp, hs⟩ := hu
      rw [hw.request?, if_neg hkey] at hp
      exact ⟨p, hp, hs⟩
    by_cases hexec : q.state = .EXECUTING
    · -- the only unresolved request is the one that begins
      have hone {k r : String} (hu : L'.UnresolvedAt k r) : k = q.grantId.1
          ∧ r = q.requestId.1 := by
        by_contra hkey
        exact not_unresolvedAt (hw.exclusive (.inr hexec)) k r (hold hkey hu)
      exact .inr fun k r k' r' hu hu' =>
        ⟨(hone hu).1.trans (hone hu').1.symm, (hone hu).2.trans (hone hu').2.symm⟩
    · refine .inl fun k r hu => ?_
      by_cases hkey : k = q.grantId.1 ∧ r = q.requestId.1
      · obtain ⟨p, hp, hs⟩ := hu
        rw [hw.request?, if_pos hkey] at hp
        cases Option.some.inj hp
        have hunknown : q.state = .OUTCOME_UNKNOWN := hs.resolve_left hexec
        cases hbefore : L.request? q.grantId.1 q.requestId.1 with
        | none =>
          rw [hw.new hbefore] at hunknown
          cases hunknown
        | some p =>
          have hnext := hw.moved p hbefore
          rw [hunknown] at hnext
          have hpstate : p.state = .EXECUTING := by
            unfold RequestState.Next RequestState.next at hnext
            cases hs : p.state <;> rw [hs] at hnext <;> simp at hnext ⊢
          exact ⟨p, by rw [hkey.1, hkey.2, hbefore], .inl hpstate⟩
      · exact hold hkey hu

/-- In a run no request becomes unresolved beside another. -/
theorem run_resolves {cs : List Called} (h : Run (CallStep sha) (.idle L) cs (.idle L'))
    (hL : L.Valid sha) :
    L.Resolves L' :=
  run_relates (fun _ => .inl fun _ _ hu => hu) .trans (fun _ _ _ _ hL hs => hs.resolves hL) h hL

/-! ### Authorization -/

/-- The call was a `beginExecution` of the request `ref` that returned with
`executionAuthorized` true. -/
def Called.authorizes (c : Called) (ref : Reference) : Bool := match c.call, c.result with
  | .beginExecution input, .ok (.execution start) =>
    start.executionAuthorized && decide ((normalizeReference input).toOption = some ref)
  | _, _ => false

/-- What `beginExecution` returns is about the request of its argument. -/
def Names (input : Value) (r : Except Code ExecutionStart) : Prop := ∀ start, r = .ok start →
  (normalizeReference input).toOption = some start.request.reference

theorem names_error (input : Value) (c : Code) : Names input (.error c) := fun _ h => by cases h

theorem beginExecution_names (hL : L.Valid sha) (input : Value) :
    Ends (beginExecution env input) (.busy L) fun r _ => Names input r := by
  unfold beginExecution
  refine ends_lift.mpr ⟨fun c _ => names_error input c, fun ref href => ?_⟩
  refine ends_requireRequest hL (fun c _ => names_error input c) fun g rs q hq hg hr => ?_
  have hnames {authorized : Bool} {state : RequestState} :
      Names input (.ok ⟨authorized, { q with state := state }⟩) := by
    intro start h
    cases h
    have hgid := (hq.scoped hL).grantId.trans hg
    rw [href]
    unfold Request.reference
    rw [hgid, hr]
    rfl
  refine ends_ite.mpr ⟨fun _ => hnames, fun hstate => ?_⟩
  refine (ends_requestAdmissionState hL).mpr
    (ends_failIf.mpr ⟨fun _ => names_error input _, fun hunres => ?_⟩)
  refine ends_refreshGrant (names_error input _) (fun hlive => ?_) fun now hactive hnow hexp => ?_
  · exact ends_failIf.mpr ⟨fun _ => names_error input _, fun _ => ends_modify.mpr hnames⟩
  · exact ends_failIf.mpr ⟨fun _ => names_error input _, fun _ => ends_modify.mpr hnames⟩

/-- A call that authorizes is the step that begins the request. -/
theorem CallStep.began {c : Called} {m' : Model} {ref : Reference} (hL : L.Valid sha)
    (h : CallStep sha (.idle L) c m') (hauth : c.authorizes ref = true) :
    ∃ L', m' = .idle L' ∧ Step sha c.env L (.began ref) L' := by
  obtain ⟨L', hm, hmoves⟩ := h.moves hL
  refine ⟨L', hm, ?_⟩
  obtain ⟨call, env, result⟩ := c
  unfold Called.authorizes at hauth
  split at hauth
  · rename_i input start hcall hresult
    simp only at hcall hresult
    subst hcall hresult
    simp only [Bool.and_eq_true, decide_eq_true_eq] at hauth
    obtain ⟨htrue, href⟩ := hauth
    have hstart : (Call.run sha env (.beginExecution input) (.idle L)).1 = .ok (.execution start) :=
      congrArg Prod.fst h
    have hrun : (Call.run sha env (.beginExecution input) (.idle L)).1 =
        ((beginExecution env input).exec (.busy L)).1.map Result.execution := by
      have hbody : Ends (runPublicOperation (Call.body sha env (.beginExecution input))) (.idle L)
          fun r _ => r = ((beginExecution env input).exec (.busy L)).1.map Result.execution := by
        unfold runPublicOperation
        refine ends_get.mpr (ends_ite.mpr ⟨fun h => (by cases h), fun _ => ends_modify.mpr ?_⟩)
        exact ends_finallyDo.mpr (ends_map.mpr rfl)
      exact hbody
    have hreturned : ((beginExecution env input).exec (.busy L)).1 = .ok start := by
      rw [hrun] at hstart
      cases hexec : ((beginExecution env input).exec (.busy L)).1 with
      | error e => rw [hexec] at hstart; cases hstart
      | ok s => rw [hexec] at hstart; cases hstart; rfl
    have hq := beginExecution_names hL input start hreturned
    rw [href] at hq
    cases hmoves with
    | observed _ hr =>
      obtain ⟨authorized, q⟩ := start
      simp only at htrue
      subst htrue
      cases hr
    | returned _ e _ hstep hr =>
      obtain ⟨authorized, q⟩ := start
      simp only at htrue
      subst htrue
      have he : e.authorized? = some ref := hr.symm.trans hq.symm
      cases e <;> cases he
      exact hstep
  · cases hauth

/-- What `beginExecution` found when it authorized the request `ref`. -/
structure Authorized (L : Ledger) (env : Env) (ref : Reference) : Prop where
  grant : ∃ g now, L.grants.get? ref.grantId.1 = some g ∧ g.lifecycle = .ACTIVE
    ∧ env.reading 0 = .ok now ∧ now < g.expiresAt.1
  request : ∃ q, L.request? ref.grantId.1 ref.requestId.1 = some q ∧ q.state = .RESERVED
  alone : ∀ k r, ¬ L.UnresolvedAt k r

theorem Step.authorized {ref : Reference} (h : Step sha env L (.began ref) L') :
    Authorized L env ref := by
  cases h with
  | began g rs q now hq hstate hunres hactive hnow hlive =>
    refine ⟨⟨g, now, hq.grant, hactive, hnow, hlive⟩, ⟨q, ?_, hstate⟩, not_unresolvedAt hunres⟩
    unfold Ledger.request?
    rw [hq.requests, Option.bind_some, hq.request]

/-- The request is there and has left RESERVED. -/
def Left (ref : Reference) (L : Ledger) : Prop :=
  ∃ q, L.request? ref.grantId.1 ref.requestId.1 = some q ∧ q.state ≠ .RESERVED

theorem Ledger.Advances.left {ref : Reference} (h : L.Advances L') (hleft : Left ref L) :
    Left ref L' := by
  obtain ⟨q, hq, hs⟩ := hleft
  obtain ⟨q', hq', hs'⟩ := h _ _ q hq
  exact ⟨q', hq', RequestState.left_reserved hs' hs⟩

/-- A step that begins a request takes it out of RESERVED. -/
theorem Step.leaves {ref : Reference} (h : Step sha env L (.began ref) L') (hL : L.Valid sha) :
    Left ref L' := by
  cases h with
  | began g rs q now hq hstate =>
    have hgid := (hq.scoped hL).grantId
    have hrs : L.requests.get? { q with state := .EXECUTING : Request }.grantId.1 = some rs := by
      rw [hgid]
      exact hq.requests
    exact ⟨{ q with state := .EXECUTING }, by
      rw [request?_setRequest hrs, if_pos ⟨(congrArg Subtype.val hgid).symm, rfl⟩], by simp⟩

/-- In a run from a valid ledger each request is authorized at most once. -/
theorem run_authorizes_once {cs : List Called} {m m' : Model} (h : Run (CallStep sha) m cs m')
    (hm : m.Idle sha) (ref : Reference) : (cs.filter fun c => c.authorizes ref).length ≤ 1 := by
  have hkeep : ∀ m c m', m.Idle sha → Left ref m.ledger → CallStep sha m c m' →
      Left ref m'.ledger := by
    rintro m c m' ⟨L, hL, rfl⟩ hleft hcall
    obtain ⟨L', rfl, hmoves⟩ := CallStep.moves hL hcall
    rcases hmoves.step with rfl | ⟨e, hs⟩
    · exact hleft
    · exact (hs.advances hL).left hleft
  have hfires : ∀ m c m', m.Idle sha → CallStep sha m c m' → c.authorizes ref = true →
      ¬ Left ref m.ledger ∧ Left ref m'.ledger := by
    rintro m c m' ⟨L, hL, rfl⟩ hcall hauth
    obtain ⟨L', rfl, hs⟩ := CallStep.began hL hcall hauth
    refine ⟨fun ⟨q, hq, hne⟩ => ?_, hs.leaves hL⟩
    obtain ⟨p, hp, hreserved⟩ := hs.authorized.request
    cases Option.some.inj (hq.symm.trans hp)
    exact hne hreserved
  have honce : (cs.filter fun c => decide (c.authorizes ref = true)).length ≤ 1 :=
    Run.atMostOnce CallStep.idle hkeep hfires h hm
  simpa using honce

/-- From every state of a run of the empty model: each request has been
authorized at most once; the next call authorizes a request only as it leaves
RESERVED, its grant ACTIVE and not over and no request unresolved; at most one
request is unresolved; and none that has left RESERVED returns to it. -/
theorem authorized_at_most_once {sha : Sha256} {cs : List Called} {m : Model}
    (hrun : Run (CallStep sha) .new cs m) :
    (∀ ref, (cs.filter fun c => c.authorizes ref).length ≤ 1)
      ∧ (∀ c m' ref, CallStep sha m c m' → c.authorizes ref = true → Authorized m.ledger c.env ref)
      ∧ m.ledger.AtMostOneUnresolved
      ∧ ∀ after m' ref, Run (CallStep sha) m after m' → Left ref m.ledger → Left ref m'.ledger := by
  have hnew : Model.new.Idle sha := ⟨.empty, Ledger.valid_empty sha, rfl⟩
  obtain ⟨L, hL, rfl⟩ := run_idle hrun hnew
  refine ⟨run_authorizes_once hrun hnew, fun c m' ref hcall hauth => ?_, ?_,
    fun after m' ref hafter => ?_⟩
  · obtain ⟨L', -, hs⟩ := CallStep.began hL hcall hauth
    exact hs.authorized
  · have hnone (k r : String) : ¬ Ledger.empty.UnresolvedAt k r := fun ⟨q, hq, _⟩ => by cases hq
    rcases run_resolves hrun (Ledger.valid_empty sha) with h | h
    · exact fun k r _ _ hu => absurd (h k r hu) (hnone k r)
    · exact h
  · obtain ⟨L', -, rfl⟩ := run_idle hafter ⟨L, hL, rfl⟩
    exact (run_advances hafter hL).left

/-- The second attempt to begin the request of the sample is not authorized. -/
theorem authorized_at_most_once_sample :
    let calls := Sample.calls .standard
      ++ [(.beginExecution (Sample.reference .standard (Sample.identifier "request-1")),
        Sample.env)]
    let ran := runCalls .standard calls .new
    (∀ ref, (ran.1.filter fun c => c.authorizes ref).length ≤ 1)
      ∧ (∀ c m' ref, CallStep .standard ran.2 c m' → c.authorizes ref = true →
        Authorized ran.2.ledger c.env ref)
      ∧ ran.2.ledger.AtMostOneUnresolved
      ∧ ∀ after m' ref, Run (CallStep .standard) ran.2 after m' → Left ref ran.2.ledger →
        Left ref m'.ledger :=
  authorized_at_most_once (run_runCalls ..)

end Credit
end ZenonX402
