/-
# Runs of the live runtime

The callers of a runtime are a line for its ownership (`Live.line`): an event moves
that line by one step and takes a caller from one stage to the next (`Move`,
`step_moves`), and it adds one RPC or takes one further (`RpcMove`). So
in every run ownership goes round in the order of the calls and nobody is lost
(`Owned`), and what has been settled stays (`Live.Later`).

The callback of an RPC is started some time after its call, so it may start when the
runtime is poisoned already (`execute_after_poison`): what the poison stops are the
calls.

Key definitions: `Move`, `RpcMove`, `Live.Valid`, `Live.Later`, `Owned`.
Key theorems: `step_moves`, `Move.valid`, `Move.later`, `ownership_exclusive`.
-/
import ZenonX402.Lib.Line
import ZenonX402.Runtime.Live

namespace ZenonX402
namespace Runtime

open Js

variable {ε α : Type} {s t : Live ε α}

/-! ### Stages -/

namespace Stage

/-- The caller has the ownership. -/
def holds : Stage ε α → Bool
  | granted | working | leaving _ => true
  | waiting | left _ | rejected _ => false

def isWaiting : Stage ε α → Bool
  | waiting => true
  | _ => false

/-- The caller has or had the ownership. -/
def wasGranted : Stage ε α → Bool
  | granted | working | leaving _ | left _ => true
  | waiting | rejected _ => false

/-- From one stage to the next one. -/
inductive Next : Stage ε α → Stage ε α → Prop
  | granted : Next waiting granted
  | rejected (cause : Cause ε) : Next waiting (rejected cause)
  | working : Next granted working
  | leaving (result : Except (Failure ε) α) : Next working (leaving result)
  | left (result : Except (Failure ε) α) : Next (leaving result) (left result)

def Reaches : Stage ε α → Stage ε α → Prop := Relation.ReflTransGen Next

end Stage

namespace Live

def stageAt (s : Live ε α) (i : Nat) : Option (Stage ε α) := s.callers[i]?.map (·.stage)

/-- The line for the ownership. -/
def line (s : Live ε α) : Line :=
  ⟨s.activeToken, s.queue, s.grants, s.callers.length, s.poisonCause.isSome⟩

theorem stageAt_lt {i : Nat} {stage : Stage ε α} (h : s.stageAt i = some stage) :
    i < s.callers.length := by
  obtain ⟨caller, hcaller, -⟩ := Option.map_eq_some_iff.mp h
  exact (List.getElem?_eq_some_iff.mp hcaller).1

theorem stageAt_length : s.stageAt s.callers.length = none := by
  unfold stageAt
  rw [List.getElem?_eq_none (le_refl _)]
  rfl

theorem stageAt_enroll (owner : String) (stage : Stage ε α) (i : Nat) :
    (s.enroll owner stage).stageAt i = if i = s.callers.length then some stage
    else s.stageAt i := by
  unfold stageAt enroll
  by_cases hi : i = s.callers.length
  · subst hi
    simp
  · rw [if_neg hi]
    by_cases hlt : i < s.callers.length
    · simp only [List.getElem?_append_left hlt]
    · have hlen : s.callers.length < i := lt_of_le_of_ne (not_lt.mp hlt) (Ne.symm hi)
      rw [List.getElem?_eq_none (by simp; omega), List.getElem?_eq_none (le_of_lt hlen)]

theorem stageAt_enter (j : Nat) (stage : Stage ε α) (i : Nat) :
    (s.enter j stage).stageAt i = if i = j then (s.stageAt i).map fun _ => stage
    else s.stageAt i := by
  unfold stageAt enter
  simp only [List.getElem?_modify]
  by_cases hi : i = j
  · subst hi
    cases s.callers[i]? <;> simp
  · rw [if_neg hi]
    cases s.callers[i]? <;> simp [Ne.symm hi]

theorem stageAt_rejectOwners (cause : Cause ε) (waiters : List Nat) (i : Nat) :
    (s.rejectOwners cause waiters).stageAt i
      = (s.stageAt i).map fun stage => if i ∈ waiters then .rejected cause else stage := by
  unfold stageAt rejectOwners
  simp only [List.getElem?_mapIdx]
  cases s.callers[i]? with
  | none => rfl
  | some caller =>
    by_cases hi : i ∈ waiters
    · simp [hi]
    · simp [hi]

end Live

/-! ### What an event does to the callers -/

/-- The callers after an event; the flag tells whether an ownership was given up. -/
inductive Move (s : Live ε α) : Bool → Live ε α → Prop
  | kept (rpcs : List (Rpc ε α)) : Move s false { s with rpcs := rpcs }
  | turnedAway (owner : String) (cause : Cause ε) (hcause : s.poisonCause = some cause) :
      Move s false (s.enroll owner (.rejected cause))
  | granted (owner : String) (hcause : s.poisonCause = none) (hidle : s.activeToken = none) :
      Move s false ((s.enroll owner .granted).grant s.callers.length)
  | queued (owner : String) (hcause : s.poisonCause = none) (hbusy : s.activeToken ≠ none) :
      Move s false { s.enroll owner .waiting with queue := s.queue ++ [s.callers.length] }
  | entered (i : Nat) (a b : Stage ε α) (hstage : s.stageAt i = some a) (hnext : a.Next b)
      (ha : a.holds = true) (hb : b.holds = true) : Move s false (s.enter i b)
  | vacated (i : Nat) (result : Except (Failure ε) α)
      (hstage : s.stageAt i = some (.leaving result)) (hempty : s.queue = []) :
      Move s true ({ s with activeToken := none }.enter i (.left result))
  | handed (i : Nat) (result : Except (Failure ε) α) (next : Nat) (queue : List Nat)
      (hstage : s.stageAt i = some (.leaving result)) (hcause : s.poisonCause = none)
      (hqueue : s.queue = next :: queue) :
      Move s true (((({ s with activeToken := none, queue := queue }).grant next).enter next
        .granted).enter i (.left result))
  | poisoned (cause : Cause ε) (rpcs : List (Rpc ε α)) :
      Move s false { s.poison cause with rpcs := rpcs }

/-- The stage of a caller is what the line says. -/
structure Live.Agrees (s : Live ε α) (i : Nat) : Prop where
  holding : s.activeToken = some i ↔ (s.stageAt i).any Stage.holds = true
  waiting : i ∈ s.queue ↔ (s.stageAt i).any Stage.isWaiting = true
  granted : i ∈ s.grants ↔ (s.stageAt i).any Stage.wasGranted = true

structure Live.Valid (s : Live ε α) : Prop where
  line : s.line.Orderly
  callers : ∀ i, s.Agrees i

/-- What the line says of a caller is what it says of its stage. -/
theorem agrees_iff {k : Nat} {stage : Stage ε α} (hstage : s.stageAt k = some stage) : s.Agrees k ↔
    (s.activeToken = some k ↔ stage.holds = true) ∧ (k ∈ s.queue ↔ stage.isWaiting = true)
      ∧ (k ∈ s.grants ↔ stage.wasGranted = true) := by
  constructor
  · rintro ⟨hholding, hwaiting, hgranted⟩
    rw [hstage] at hholding hwaiting hgranted
    exact ⟨hholding, hwaiting, hgranted⟩
  · rintro ⟨hholding, hwaiting, hgranted⟩
    refine ⟨?_, ?_, ?_⟩ <;> rw [hstage]
    · exact hholding
    · exact hwaiting
    · exact hgranted

/-- A caller whose stage and whose place in the line are as they were. -/
theorem Live.Agrees.same {k : Nat} (h : s.Agrees k) (hstage : t.stageAt k = s.stageAt k)
    (hactive : t.activeToken = some k ↔ s.activeToken = some k)
    (hqueue : k ∈ t.queue ↔ k ∈ s.queue) (hgrants : k ∈ t.grants ↔ k ∈ s.grants) : t.Agrees k where
  holding := by rw [hstage, hactive, h.holding]
  waiting := by rw [hstage, hqueue, h.waiting]
  granted := by rw [hstage, hgrants, h.granted]

theorem Live.Valid.holder (hs : s.Valid) {i : Nat} {stage : Stage ε α}
    (hstage : s.stageAt i = some stage) (hholds : stage.holds = true) : s.activeToken = some i :=
  ((agrees_iff hstage).mp (hs.callers i)).1.mpr hholds

/-- The caller of whom the queue tells waits. -/
theorem Live.Valid.stageAt_queue (hs : s.Valid) {k : Nat} (hk : k ∈ s.queue) :
    s.stageAt k = some .waiting := by
  obtain ⟨stage, hstage, hwait⟩ := Option.any_eq_true _ _ |>.mp ((hs.callers k).waiting.mp hk)
  cases stage <;> cases hwait
  exact hstage

theorem Live.Valid.next_ne (hs : s.Valid) {i next : Nat} {queue : List Nat}
    {result : Except (Failure ε) α} (hstage : s.stageAt i = some (.leaving result))
    (hqueue : s.queue = next :: queue) : i ≠ next := fun h => by
  have hwaits := hs.stageAt_queue (hqueue ▸ List.mem_cons_self)
  rw [← h, hstage] at hwaits
  cases hwaits

def Event.frees : Event ε α → Bool
  | release _ => true
  | _ => false

theorem poison_eq (cause : Cause ε) : s.poison cause
    = ({ s with poisonCause := some (s.poisonCause.getD cause) }).rejectOwners
    (s.poisonCause.getD cause) s.queue := rfl

theorem stageAt_poison (cause : Cause ε) (i : Nat) : (s.poison cause).stageAt i
    = (s.stageAt i).map fun stage => if i ∈ s.queue then .rejected (s.poisonCause.getD cause)
    else stage := by
  rw [poison_eq, Live.stageAt_rejectOwners]
  rfl

theorem line_poison (cause : Cause ε) :
    (s.poison cause).line = { s.line with waiting := [], closed := true } := by
  rw [poison_eq]
  simp [Live.line, Live.rejectOwners]

/-- Nobody waits, so nobody is rejected. -/
theorem rejectQueuedOwners_of_empty (hempty : s.queue = []) : s.rejectQueuedOwners = s := by
  obtain ⟨active, queue, poisonCause, callers, grants, rpcs⟩ := s
  obtain rfl : queue = [] := hempty
  cases poisonCause with
  | none => rfl
  | some cause =>
    have hcallers : (callers.mapIdx fun i (caller : Caller ε α) =>
        if i ∈ ([] : List Nat) then { caller with stage := .rejected cause } else caller)
          = callers := by
      apply List.ext_getElem? fun i => ?_
      rw [List.getElem?_mapIdx]
      cases callers[i]? <;> simp
    simp only [Live.rejectQueuedOwners, Live.rejectOwners, hcallers]

theorem leave_move {i : Nat} {result : Except (Failure ε) α} (hs : s.Valid)
    (hstage : s.stageAt i = some (.leaving result)) : Move s true (s.leave i result) := by
  have hactive := hs.holder hstage rfl
  have hshut := hs.line.shut
  unfold Live.leave Live.release
  rw [if_neg (not_not_intro hactive)]
  obtain ⟨active, queue, poisonCause, callers, grants, rpcs⟩ := s
  cases poisonCause with
  | some cause =>
    obtain rfl : queue = [] := hshut rfl
    simp only [rejectQueuedOwners_of_empty]
    exact .vacated i result hstage rfl
  | none =>
    cases queue with
    | nil => exact .vacated i result hstage rfl
    | cons next queue => exact .handed i result next queue hstage rfl rfl

theorem stageAt_of_getElem {i : Nat} {caller : Caller ε α} (h : s.callers[i]? = some caller) :
    s.stageAt i = some caller.stage := by
  rw [Live.stageAt, h]
  rfl

theorem acquire_move (owner : String) : Move s false (s.acquire owner) := by
  unfold Live.acquire
  split
  · rename_i cause hcause
    exact .turnedAway owner cause hcause
  · rename_i hcause
    split
    · rename_i hidle
      exact .granted owner hcause hidle
    · rename_i token hbusy
      exact .queued owner hcause (by rw [hbusy]; exact nofun)

theorem called_cases {x : Except (Failure ε) (Live ε α)} {reply : Reply ε}
    (h : called s x = (reply, t)) :
    x = .ok t ∧ reply = .ok () ∨ (∃ e, x = .error e ∧ reply = .error e) ∧ t = s := by
  unfold called at h
  split at h
  · obtain ⟨rfl, rfl⟩ := Prod.mk.inj h
    exact .inl ⟨rfl, rfl⟩
  · rename_i e
    obtain ⟨rfl, rfl⟩ := Prod.mk.inj h
    exact .inr ⟨⟨e, rfl, rfl⟩, rfl⟩

theorem poisonFromOwner_ok {i : Nat} {cause : Option ε} (h : s.poisonFromOwner i cause = .ok t) :
    s.activeToken = some i ∧ ∃ cause, t = s.poison cause := by
  unfold Live.poisonFromOwner at h
  split at h
  · cases h
  · rename_i hactive
    exact ⟨not_not.mp hactive, _, (Except.ok.inj h).symm⟩

theorem runRpcWithDeadline_ok {i : Nat} {options : Options}
    (h : s.runRpcWithDeadline i options = .ok t) :
    s.activeToken = some i ∧ s.poisonCause = none ∧ ∃ category operation teardown,
      t = { s with rpcs := s.rpcs ++ [⟨i, category, operation, teardown, false, none, .racing, none,
        none⟩] } := by
  unfold Live.runRpcWithDeadline at h
  simp only [bind_ok, rejectIf_ok, not_not] at h
  obtain ⟨-, hactive, h⟩ := h
  split at h
  · cases h
  · rename_i hcause
    simp only [bind_ok, Except.ok.injEq] at h
    obtain ⟨⟨category, operation, teardown⟩, -, h⟩ := h
    exact ⟨hactive, hcause, category, operation, teardown, h.symm⟩

theorem leave_rpcs (i : Nat) (result : Except (Failure ε) α) :
    (s.leave i result).rpcs = s.rpcs := by
  obtain ⟨active, queue, poisonCause, callers, grants, rpcs⟩ := s
  unfold Live.leave Live.release
  by_cases hactive : active ≠ some i
  · rw [if_pos hactive]
    rfl
  · rw [if_neg hactive]
    cases poisonCause with
    | some cause => rfl
    | none => cases queue <;> rfl

theorem acquire_rpcs (owner : String) : (s.acquire owner).rpcs = s.rpcs := by
  unfold Live.acquire
  split
  · rfl
  · split <;> rfl

/-! ### What an event does to the RPCs -/

namespace Rpc

variable (rpc : Rpc ε α)

/-- The deadline has won the race of an RPC, and its report is or will be that. -/
def TimedOut : Prop := rpc.race = .deadline ∨ rpc.race = .teardown ∨ rpc.race
    = .reported (.error rpc.timeoutError)

/-- An RPC at a later time. -/
structure Later (rpc' : Rpc ε α) : Prop where
  caller : rpc'.caller = rpc.caller
  category : rpc'.category = rpc.category
  operation : rpc'.operation = rpc.operation
  started : rpc.started = true → rpc'.started = true
  settled : ∀ result, rpc.operationResult = some result → rpc'.operationResult = some result
  timedOut : rpc.TimedOut → rpc'.TimedOut
  reported : ∀ report, rpc.race = .reported report → rpc'.race = .reported report

variable {rpc} {rpc' rpc'' : Rpc ε α}

theorem Later.refl (rpc : Rpc ε α) : rpc.Later rpc :=
  ⟨rfl, rfl, rfl, id, fun _ => id, id, fun _ => id⟩

theorem Later.trans (h : rpc.Later rpc') (h' : rpc'.Later rpc'') : rpc.Later rpc'' :=
  ⟨h'.caller.trans h.caller, h'.category.trans h.category, h'.operation.trans h.operation,
    fun hs => h'.started (h.started hs), fun x hx => h'.settled x (h.settled x hx),
    fun ht => h'.timedOut (h.timedOut ht),
    fun x hx => h'.reported x (h.reported x hx)⟩

end Rpc

/-- The RPCs after an event: one may be new, which only the active caller of a runtime that is not
poisoned brings about. -/
inductive RpcMove (s : Live ε α) : List (Rpc ε α) → Prop
  | kept : RpcMove s s.rpcs
  | called (rpc : Rpc ε α) (hactive : s.activeToken = some rpc.caller)
      (hcause : s.poisonCause = none) :
      RpcMove s (s.rpcs ++ [rpc])
  | went (r : Nat) (rpc rpc' : Rpc ε α) (hrpc : s.rpcs[r]? = some rpc) (hlater : rpc.Later rpc') :
      RpcMove s (s.rpcs.set r rpc')

/-- The race of an RPC is still open or is about to be concluded, so nothing was reported. -/
theorem Rpc.later_of_race {rpc rpc' : Rpc ε α}
    (hsame : rpc'.caller = rpc.caller ∧ rpc'.category = rpc.category
      ∧ rpc'.operation = rpc.operation ∧ rpc'.started = rpc.started ∧ rpc'.operationResult
      = rpc.operationResult)
    (hopen : ∀ report, rpc.race ≠ .reported report) (htimed : rpc.TimedOut → rpc'.TimedOut) :
      rpc.Later rpc' :=
  ⟨hsame.1, hsame.2.1, hsame.2.2.1, fun h => hsame.2.2.2.1.trans h,
    fun _ h => hsame.2.2.2.2.trans h, htimed, fun report h => absurd h (hopen report)⟩

/-- The parts of a conclusion: what becomes of the RPC, and whether the runtime is poisoned. -/
theorem conclude_some {r : Nat} {rpc : Rpc ε α} (h : s.conclude r rpc = some t)
    (hrpc : s.rpcs[r]? = some rpc) :
    Move s false t ∧ RpcMove s t.rpcs := by
  unfold Live.conclude at h
  split at h
  · rename_i result hrace
    obtain rfl := Option.some.inj h
    refine ⟨.kept _, .went r rpc _ hrpc
      (Rpc.later_of_race ⟨rfl, rfl, rfl, rfl, rfl⟩ (fun _ hr => ?_) fun ht => ?_)⟩
    · rw [hrace] at hr
      cases hr
    · rcases ht with ht | ht | ht <;> rw [hrace] at ht <;> cases ht
  · rename_i hrace
    obtain rfl := Option.some.inj h
    refine ⟨.poisoned _ _,
      .went r rpc _ hrpc (Rpc.later_of_race ⟨rfl, rfl, rfl, rfl, rfl⟩ (fun _ hr => ?_) fun _ => ?_)⟩
    · rw [hrace] at hr
      cases hr
    · cases hteardown : rpc.teardown with
      | true => exact .inr (.inl (by simp))
      | false => exact .inr (.inr (by simp [Rpc.timeoutError]))
  · cases h

theorem settle_later {rpc : Rpc ε α} {result : Except ε α} (hnone : rpc.operationResult = none) :
    rpc.Later (rpc.settle result) := by
  unfold Rpc.settle
  split
  · rename_i hrace
    refine ⟨rfl, rfl, rfl, id, fun x hx => ?_, fun ht => ?_, fun x hx => ?_⟩
    · rw [hnone] at hx
      cases hx
    · rcases ht with ht | ht | ht <;> rw [hrace] at ht <;> cases ht
    · rw [hrace] at hx
      cases hx
  · refine ⟨rfl, rfl, rfl, id, fun x hx => ?_, id, fun x hx => hx⟩
    rw [hnone] at hx
    cases hx

/-- Every event moves the line of the callers and the RPCs. -/
theorem step_moves {e : Event ε α} {reply : Reply ε} (hs : s.Valid) (h : LiveStep s (e, reply) t) :
    Move s e.frees t ∧ RpcMove s t.rpcs := by
  have hkept : Move s false s ∧ RpcMove s s.rpcs := ⟨.kept s.rpcs, .kept⟩
  unfold LiveStep Event.act at h
  cases e with
  | withOwner owner work =>
    rcases called_cases (Option.some.inj h) with ⟨h, -⟩ | ⟨-, rfl⟩
    · simp only [bind_ok, rejectIf_ok, Except.ok.injEq] at h
      obtain ⟨owner, -, -, -, rfl⟩ := h
      refine ⟨acquire_move owner, ?_⟩
      rw [acquire_rpcs]
      exact .kept
    · exact hkept
  | start i =>
    simp only at h
    split at h
    · rename_i owner hcaller
      obtain ⟨-, rfl⟩ := Prod.mk.inj (Option.some.inj h)
      exact ⟨.entered i .granted .working (stageAt_of_getElem hcaller) .working rfl rfl, .kept⟩
    · cases h
  | finish i result =>
    simp only at h
    split at h
    · rename_i owner hcaller
      obtain ⟨-, rfl⟩ := Prod.mk.inj (Option.some.inj h)
      exact ⟨.entered i .working (.leaving result) (stageAt_of_getElem hcaller)
        (.leaving result) rfl rfl, .kept⟩
    · cases h
  | release i =>
    simp only at h
    split at h
    · rename_i owner result hcaller
      obtain ⟨-, rfl⟩ := Prod.mk.inj (Option.some.inj h)
      refine ⟨leave_move hs (stageAt_of_getElem hcaller), ?_⟩
      rw [leave_rpcs]
      exact .kept
    · cases h
  | poison i cause =>
    simp only [Option.ite_none_right_eq_some] at h
    rcases called_cases (Option.some.inj h.2) with ⟨h, -⟩ | ⟨-, rfl⟩
    · obtain ⟨-, cause, rfl⟩ := poisonFromOwner_ok h
      exact ⟨.poisoned cause s.rpcs, .kept⟩
    · exact hkept
  | runRpcWithDeadline i options =>
    simp only [Option.ite_none_right_eq_some] at h
    rcases called_cases (Option.some.inj h.2) with ⟨h, -⟩ | ⟨-, rfl⟩
    · obtain ⟨hactive, hcause, category, operation, teardown, rfl⟩ := runRpcWithDeadline_ok h
      exact ⟨.kept _, .called _ hactive hcause⟩
    · exact hkept
  | execute r =>
    obtain ⟨rpc, hrpc, h⟩ := Option.bind_eq_some_iff.mp h
    split at h
    · cases h
    · obtain ⟨-, rfl⟩ := Prod.mk.inj (Option.some.inj h)
      exact ⟨.kept _, .went r rpc _ hrpc ⟨rfl, rfl, rfl, fun _ => rfl, fun _ h => h, id,
        fun _ h => h⟩⟩
  | settle r result =>
    obtain ⟨rpc, hrpc, h⟩ := Option.bind_eq_some_iff.mp h
    split at h
    · rename_i hcan
      obtain ⟨-, rfl⟩ := Prod.mk.inj (Option.some.inj h)
      exact ⟨.kept _, .went r rpc _ hrpc (settle_later (Option.isNone_iff_eq_none.mp hcan.2))⟩
    · cases h
  | deadline r =>
    obtain ⟨rpc, hrpc, h⟩ := Option.bind_eq_some_iff.mp h
    split at h
    · rename_i hrace
      split at h
      · obtain ⟨-, rfl⟩ := Prod.mk.inj (Option.some.inj h)
        refine ⟨.kept _, .went r rpc _ hrpc
          (Rpc.later_of_race ⟨rfl, rfl, rfl, rfl, rfl⟩ (fun _ hr => ?_) fun _ => .inl rfl)⟩
        rw [hrace] at hr
        cases hr
      · cases h
    · cases h
  | conclude r =>
    obtain ⟨rpc, hrpc, h⟩ := Option.bind_eq_some_iff.mp h
    obtain ⟨u, hu, h⟩ := Option.map_eq_some_iff.mp h
    obtain ⟨-, rfl⟩ := Prod.mk.inj h
    exact conclude_some hu hrpc
  | tornDown r error =>
    obtain ⟨rpc, hrpc, h⟩ := Option.bind_eq_some_iff.mp h
    split at h
    · rename_i hrace
      obtain ⟨-, rfl⟩ := Prod.mk.inj (Option.some.inj h)
      refine ⟨.kept _, .went r rpc _ hrpc
        (Rpc.later_of_race ⟨rfl, rfl, rfl, rfl, rfl⟩ (fun _ hr => ?_)
        fun _ => .inr (.inr rfl))⟩
      rw [hrace] at hr
      cases hr
    · cases h
  | tornDownLate r error =>
    obtain ⟨rpc, hrpc, h⟩ := Option.bind_eq_some_iff.mp h
    split at h
    · split at h
      · obtain ⟨-, rfl⟩ := Prod.mk.inj (Option.some.inj h)
        exact ⟨.kept _, .went r rpc _ hrpc ⟨rfl, rfl, rfl, id, fun _ h => h, id, fun _ h => h⟩⟩
      · cases h
    · cases h

/-! ### What every event keeps -/

variable {turn : Bool}

/-- An event is a step of the line for the ownership. -/
theorem Move.line (h : Move s turn t) : s.line.Step turn t.line := by
  cases h with
  | kept rpcs => exact .stay _
  | turnedAway owner cause hcause =>
    have hline : (s.enroll owner (.rejected cause)).line
        = { s.line with arrived := s.line.arrived + 1 } := by
      simp [Live.line, Live.enroll]
    rw [hline]
    exact .turnAway _ (by simp [Live.line, hcause])
  | granted owner hcause hidle =>
    have hline : ((s.enroll owner .granted).grant s.callers.length).line
        = { s.line with active := some s.line.arrived, served := s.line.served ++ [s.line.arrived],
                        arrived := s.line.arrived + 1 } := by
      simp [Live.line, Live.enroll, Live.grant]
    rw [hline]
    exact .enter _ (by simp [Live.line, hcause]) hidle
  | queued owner hcause hbusy =>
    have hline : ({ s.enroll owner .waiting with queue := s.queue ++ [s.callers.length] } :
      Live ε α).line
        = { s.line with waiting := s.line.waiting ++ [s.line.arrived],
                        arrived := s.line.arrived + 1 } := by
      simp [Live.line, Live.enroll]
    rw [hline]
    exact .wait _ (by simp [Live.line, hcause]) hbusy
  | entered i a b hstage hnext ha hb =>
    have hline : (s.enter i b).line = s.line := by simp [Live.line, Live.enter]
    rw [hline]
    exact .stay _
  | vacated i result hstage hempty =>
    have hline : (({ s with activeToken := none } : Live ε α).enter i (.left result)).line
        = { s.line with active := none } := by
      simp [Live.line, Live.enter]
    rw [hline]
    exact .idle _ hempty
  | handed i result next queue hstage hcause hqueue =>
    have hline : (((({ s with activeToken := none, queue := queue } : Live ε α).grant next).enter
      next .granted).enter i
        (.left result)).line
          = { s.line with active := some next, waiting := queue,
                          served := s.line.served ++ [next] } := by
      simp [Live.line, Live.enter, Live.grant]
    rw [hline]
    exact .next _ next queue (by simp [Live.line, hcause]) hqueue
  | poisoned cause rpcs =>
    have hline : ({ s.poison cause with rpcs := rpcs } : Live ε α).line
      = { s.line with waiting := [], closed := true } :=
      line_poison cause
    rw [hline]
    exact .close _

/-- A caller that has the ownership and keeps it. -/
theorem Stage.same_of_holds {a b : Stage ε α} (ha : a.holds = true) (hb : b.holds = true) :
    a.isWaiting = b.isWaiting ∧ a.wasGranted = b.wasGranted := by
  cases a <;> cases ha <;> cases b <;> cases hb <;> exact ⟨rfl, rfl⟩

/-- A caller of whom nothing is known yet. -/
theorem fresh (hs : s.Valid) : s.activeToken ≠ some s.callers.length ∧ s.callers.length ∉ s.queue
    ∧ s.callers.length ∉ s.grants := by
  obtain ⟨hholding, hwaiting, hgranted⟩ := hs.callers s.callers.length
  rw [Live.stageAt_length] at hholding hwaiting hgranted
  exact ⟨fun h => Bool.false_ne_true (hholding.mp h), fun h => Bool.false_ne_true (hwaiting.mp h),
    fun h => Bool.false_ne_true (hgranted.mp h)⟩

theorem entered_agrees {i : Nat} {a b : Stage ε α} (hs : s.Valid) (hstage : s.stageAt i = some a)
    (ha : a.holds = true) (hb : b.holds = true) (k : Nat) : (s.enter i b).Agrees k := by
  by_cases hk : k = i
  · subst hk
    obtain ⟨hwait, hgrant⟩ := Stage.same_of_holds ha hb
    obtain ⟨hholding, hwaiting, hgranted⟩ := (agrees_iff hstage).mp (hs.callers k)
    have hstage' : (s.enter k b).stageAt k = some b := by
      rw [Live.stageAt_enter, if_pos rfl, hstage]
      rfl
    exact (agrees_iff hstage').mpr
      ⟨hholding.trans (iff_of_true ha hb), hwait ▸ hwaiting, hgrant ▸ hgranted⟩
  · exact (hs.callers k).same (by rw [Live.stageAt_enter, if_neg hk]) .rfl .rfl .rfl

theorem vacated_agrees {i : Nat} {result : Except (Failure ε) α} (hs : s.Valid)
    (hstage : s.stageAt i = some (.leaving result)) (k : Nat) :
    (({ s with activeToken := none } : Live ε α).enter i (.left result)).Agrees k := by
  by_cases hk : k = i
  · subst hk
    obtain ⟨-, hwaiting, hgranted⟩ := (agrees_iff hstage).mp (hs.callers k)
    have hstage' : (({ s with activeToken := none } : Live ε α).enter k (.left result)).stageAt k
        = some (.left result) := by
      rw [Live.stageAt_enter, if_pos rfl]
      exact congrArg (Option.map fun _ => Stage.left result) hstage
    exact (agrees_iff hstage').mpr ⟨iff_of_false nofun nofun, hwaiting, hgranted⟩
  · have hheld : ¬ s.activeToken = some k := fun h =>
      hk (Option.some.inj (h.symm.trans (hs.holder hstage rfl)))
    exact (hs.callers k).same (by rw [Live.stageAt_enter, if_neg hk]; rfl)
      (iff_of_false nofun hheld) .rfl .rfl

theorem stageAt_handed {i next : Nat} {queue : List Nat} {result : Except (Failure ε) α}
    (hne : i ≠ next) (k : Nat) :
    (((({ s with activeToken := none, queue := queue } : Live ε α).grant next).enter next
      .granted).enter i (.left result)).stageAt k
      = if k = i then (s.stageAt k).map fun _ => .left result
        else if k = next then (s.stageAt k).map fun _ => .granted else s.stageAt k := by
  have hbase : (({ s with activeToken := none, queue := queue } : Live ε α).grant next).stageAt k
      = s.stageAt k := rfl
  rw [Live.stageAt_enter, Live.stageAt_enter, hbase]
  by_cases hk : k = i
  · rw [if_pos hk, if_pos hk, if_neg (hk ▸ hne)]
  · rw [if_neg hk, if_neg hk]

/-- The ownership goes from the one caller to the next, and the others stay where they are. -/
theorem handed_agrees {i next : Nat} {queue : List Nat} {result : Except (Failure ε) α}
    (hs : s.Valid) (hstage : s.stageAt i = some (.leaving result))
    (hqueue : s.queue = next :: queue) (k : Nat) :
    (((({ s with activeToken := none, queue := queue } : Live ε α).grant next).enter next
      .granted).enter i (.left result)).Agrees k := by
  have hwaits : s.stageAt next = some .waiting := hs.stageAt_queue (hqueue ▸ List.mem_cons_self)
  have hne := hs.next_ne hstage hqueue
  have hsorted : (next :: queue).Pairwise (· < ·) := hqueue ▸ hs.line.waiting
  have hnot : next ∉ queue := fun h => lt_irrefl next ((List.pairwise_cons.mp hsorted).1 next h)
  have hmem : k ∈ s.grants ++ [next] ↔ k ∈ s.grants ∨ k = next := by simp
  have hstages := @stageAt_handed _ _ s _ _ queue result hne k
  by_cases hk : k = i
  · subst hk
    obtain ⟨-, hwaiting, hgranted⟩ := (agrees_iff hstage).mp (hs.callers k)
    rw [if_pos rfl, hstage] at hstages
    exact (agrees_iff hstages).mpr ⟨iff_of_false (fun h => hne (Option.some.inj h).symm) nofun,
      iff_of_false (fun h => nomatch hwaiting.mp (hqueue ▸ List.mem_cons_of_mem _ h)) nofun,
      iff_of_true (hmem.mpr (.inl (hgranted.mpr rfl))) rfl⟩
  · rw [if_neg hk] at hstages
    by_cases hk' : k = next
    · subst hk'
      rw [if_pos rfl, hwaits] at hstages
      exact (agrees_iff hstages).mpr
        ⟨iff_of_true rfl rfl, iff_of_false hnot nofun, iff_of_true (hmem.mpr (.inr rfl)) rfl⟩
    · rw [if_neg hk'] at hstages
      have hheld : ¬ s.activeToken = some k := fun h =>
        hk (Option.some.inj (h.symm.trans (hs.holder hstage rfl)))
      have hin : k ∈ queue ↔ k ∈ s.queue := by
        rw [hqueue, List.mem_cons]
        exact ⟨.inr, fun h => h.resolve_left hk'⟩
      exact (hs.callers k).same hstages
        (iff_of_false (fun h => hk' (Option.some.inj h).symm) hheld) hin
        (hmem.trans ⟨fun h => h.resolve_right hk', .inl⟩)

/-- A poison rejects whoever waits, and nobody else. -/
theorem poisoned_agrees (hs : s.Valid) (cause : Cause ε) (rpcs : List (Rpc ε α)) (k : Nat) :
    Live.Agrees { s.poison cause with rpcs := rpcs } k := by
  have hstage : ({ s.poison cause with rpcs := rpcs } : Live ε α).stageAt k
      = (s.stageAt k).map fun stage => if k ∈ s.queue then .rejected (s.poisonCause.getD cause)
      else stage :=
    stageAt_poison cause k
  by_cases hk : k ∈ s.queue
  · have hwaits := hs.stageAt_queue hk
    obtain ⟨hholding, -, hgranted⟩ := (agrees_iff hwaits).mp (hs.callers k)
    rw [hwaits, Option.map_some, if_pos hk] at hstage
    exact (agrees_iff hstage).mpr ⟨hholding, iff_of_false nofun nofun, hgranted⟩
  · refine (hs.callers k).same (hstage.trans ?_) .rfl (iff_of_false nofun hk) .rfl
    simp [hk]

/-- A caller that arrives takes the place of its stage, and the others stay where they are. -/
theorem arrived_agrees {owner : String} {stage : Stage ε α} (hs : s.Valid)
    (hcallers : t.callers = (s.enroll owner stage).callers)
    (hactive : ∀ k, k ≠ s.callers.length → (t.activeToken = some k ↔ s.activeToken = some k))
    (hqueue : ∀ k, k ≠ s.callers.length → (k ∈ t.queue ↔ k ∈ s.queue))
    (hgrants : ∀ k, k ≠ s.callers.length → (k ∈ t.grants ↔ k ∈ s.grants))
    (hnew : (t.activeToken = some s.callers.length ↔ stage.holds = true)
      ∧ (s.callers.length ∈ t.queue ↔ stage.isWaiting = true)
      ∧ (s.callers.length ∈ t.grants ↔ stage.wasGranted = true)) (k : Nat) : t.Agrees k := by
  have hstage : t.stageAt k = if k = s.callers.length then some stage else s.stageAt k := by
    rw [Live.stageAt, hcallers]
    exact Live.stageAt_enroll ..
  by_cases hk : k = s.callers.length
  · rw [if_pos hk] at hstage
    exact (agrees_iff hstage).mpr (hk ▸ hnew)
  · rw [if_neg hk] at hstage
    exact (hs.callers k).same hstage (hactive k hk) (hqueue k hk) (hgrants k hk)

theorem Move.valid (h : Move s turn t) (hs : s.Valid) : t.Valid := by
  refine ⟨h.line.orderly hs.line, ?_⟩
  obtain ⟨hactive, hqueue, hgrants⟩ := fresh hs
  cases h with
  | kept rpcs => exact fun k => (hs.callers k).same rfl .rfl .rfl .rfl
  | turnedAway owner cause hcause =>
    exact arrived_agrees hs rfl (fun _ _ => .rfl) (fun _ _ => .rfl) (fun _ _ => .rfl)
      ⟨iff_of_false hactive nofun, iff_of_false hqueue nofun, iff_of_false hgrants nofun⟩
  | granted owner hcause hidle =>
    refine arrived_agrees hs rfl (fun k hk => ?_) (fun _ _ => .rfl) (fun k hk => ?_)
      ⟨iff_of_true rfl rfl, iff_of_false hqueue nofun,
        iff_of_true (List.mem_append_right _ List.mem_cons_self) rfl⟩
    · exact iff_of_false (fun h => hk (Option.some.inj h).symm) (by rw [hidle]; exact nofun)
    · exact List.mem_append.trans (or_iff_left fun h => hk (List.mem_singleton.mp h))
  | queued owner hcause hbusy =>
    refine arrived_agrees hs rfl (fun _ _ => .rfl) (fun k hk => ?_) (fun _ _ => .rfl)
      ⟨iff_of_false hactive nofun, iff_of_true (List.mem_append_right _ List.mem_cons_self) rfl,
        iff_of_false hgrants nofun⟩
    exact List.mem_append.trans (or_iff_left fun h => hk (List.mem_singleton.mp h))
  | entered i a b hstage hnext ha hb => exact entered_agrees hs hstage ha hb
  | vacated i result hstage hempty => exact vacated_agrees hs hstage
  | handed i result next queue hstage hcause hnext => exact handed_agrees hs hstage hnext
  | poisoned cause rpcs => exact poisoned_agrees hs cause rpcs

theorem valid_step {l : Event ε α × Reply ε} (hs : s.Valid) (h : LiveStep s l t) : t.Valid :=
  (step_moves hs h).1.valid hs

/-- What is settled stays: how far callers and RPCs have got, and the poison, after which nobody is
granted the ownership and no RPC is accepted. -/
structure Live.Later (s t : Live ε α) : Prop where
  callers : ∀ (i : Nat) (stage : Stage ε α), s.stageAt i = some stage → ∃ stage', t.stageAt i
    = some stage' ∧ stage.Reaches stage'
  poison : ∀ cause, s.poisonCause = some cause → t.poisonCause = some cause
  grants : s.poisonCause ≠ none → t.grants = s.grants
  rpcs : s.poisonCause ≠ none → t.rpcs.length = s.rpcs.length
  rpc : ∀ (r : Nat) (rpc : Rpc ε α), s.rpcs[r]? = some rpc → ∃ rpc', t.rpcs[r]? = some rpc'
    ∧ rpc.Later rpc'

theorem Live.Later.refl (s : Live ε α) : s.Later s :=
  ⟨fun _ stage h => ⟨stage, h, .refl⟩, fun _ => id, fun _ => rfl, fun _ => rfl,
    fun _ rpc h => ⟨rpc, h, .refl rpc⟩⟩

theorem Live.Later.poisoned (h : s.Later t) (hs : s.poisonCause ≠ none) : t.poisonCause ≠ none := by
  obtain ⟨cause, hcause⟩ := Option.ne_none_iff_exists'.mp hs
  rw [h.poison cause hcause]
  exact nofun

theorem Live.Later.trans {u : Live ε α} (h : s.Later t) (h' : t.Later u) : s.Later u := by
  refine ⟨fun i stage hi => ?_, fun cause hc => h'.poison cause (h.poison cause hc),
    fun hp => (h'.grants (h.poisoned hp)).trans (h.grants hp),
    fun hp => (h'.rpcs (h.poisoned hp)).trans (h.rpcs hp),
    fun r rpc hr => ?_⟩
  · obtain ⟨stage', hi', hreach⟩ := h.callers i stage hi
    obtain ⟨stage'', hi'', hreach'⟩ := h'.callers i stage' hi'
    exact ⟨stage'', hi'', hreach.trans hreach'⟩
  · obtain ⟨rpc', hr', hlater⟩ := h.rpc r rpc hr
    obtain ⟨rpc'', hr'', hlater'⟩ := h'.rpc r rpc' hr'
    exact ⟨rpc'', hr'', hlater.trans hlater'⟩

theorem RpcMove.rpc {rpcs : List (Rpc ε α)} (h : RpcMove s rpcs) (r : Nat) (rpc : Rpc ε α)
    (hr : s.rpcs[r]? = some rpc) :
    ∃ rpc', rpcs[r]? = some rpc' ∧ rpc.Later rpc' := by
  cases h with
  | kept => exact ⟨rpc, hr, .refl rpc⟩
  | called new _ _ =>
    refine ⟨rpc, ?_, .refl rpc⟩
    rw [List.getElem?_append_left (List.getElem?_eq_some_iff.mp hr).1]
    exact hr
  | went r' old new hold hlater =>
    by_cases hsame : r' = r
    · subst hsame
      obtain rfl := Option.some.inj (hold.symm.trans hr)
      exact ⟨new, by rw [List.getElem?_set_self (List.getElem?_eq_some_iff.mp hr).1], hlater⟩
    · refine ⟨rpc, ?_, .refl rpc⟩
      rw [List.getElem?_set_ne hsame]
      exact hr

theorem RpcMove.length {rpcs : List (Rpc ε α)} (h : RpcMove s rpcs) (hp : s.poisonCause ≠ none) :
    rpcs.length = s.rpcs.length := by
  cases h with
  | kept => rfl
  | called _ _ hcause => exact absurd hcause hp
  | went => exact List.length_set ..

theorem Move.poison (h : Move s turn t) (cause : Cause ε) (hcause : s.poisonCause = some cause) :
    t.poisonCause = some cause := by
  cases h with
  | poisoned cause' rpcs =>
    rw [show ({ s.poison cause' with rpcs := rpcs } : Live ε α).poisonCause
      = some (s.poisonCause.getD cause') from rfl, hcause]
    rfl
  | _ => exact hcause

/-- An event takes a caller at most from a stage to the next one. -/
theorem Move.reaches (h : Move s turn t) (hs : s.Valid) {i : Nat} {stage : Stage ε α}
    (hi : s.stageAt i = some stage) :
    ∃ stage', t.stageAt i = some stage' ∧ stage.Reaches stage' := by
  have hlt := Live.stageAt_lt hi
  have hold : ∀ (owner : String) (new : Stage ε α),
      (s.enroll owner new).stageAt i = some stage := fun owner new => by
    rw [Live.stageAt_enroll, if_neg (Nat.ne_of_lt hlt), hi]
  cases h with
  | kept rpcs => exact ⟨stage, hi, .refl⟩
  | turnedAway owner cause _ => exact ⟨stage, hold owner _, .refl⟩
  | granted owner _ _ => exact ⟨stage, hold owner _, .refl⟩
  | queued owner _ _ => exact ⟨stage, hold owner _, .refl⟩
  | entered j a b hstage hnext _ _ =>
    by_cases hij : i = j
    · subst hij
      obtain rfl := Option.some.inj (hstage.symm.trans hi)
      exact ⟨b, by rw [Live.stageAt_enter, if_pos rfl, hi]; rfl, .single hnext⟩
    · exact ⟨stage, by rw [Live.stageAt_enter, if_neg hij, hi], .refl⟩
  | vacated j result hstage _ =>
    have hbase : ({ s with activeToken := none } : Live ε α).stageAt i = some stage := hi
    by_cases hij : i = j
    · subst hij
      obtain rfl := Option.some.inj (hstage.symm.trans hi)
      refine ⟨.left result, ?_, .single (.left result)⟩
      rw [Live.stageAt_enter, if_pos rfl, hbase]
      rfl
    · exact ⟨stage, by rw [Live.stageAt_enter, if_neg hij, hbase], .refl⟩
  | handed j result next queue hstage _ hqueue =>
    have hstages := @stageAt_handed _ _ s _ _ queue result (hs.next_ne hstage hqueue) i
    by_cases hij : i = j
    · subst hij
      obtain rfl := Option.some.inj (hstage.symm.trans hi)
      rw [if_pos rfl, hi] at hstages
      exact ⟨.left result, hstages, .single (.left result)⟩
    · rw [if_neg hij] at hstages
      by_cases hin : i = next
      · have hwaits := hs.stageAt_queue (hin ▸ hqueue ▸ List.mem_cons_self)
        obtain rfl := Option.some.inj (hwaits.symm.trans hi)
        rw [if_pos hin, hi] at hstages
        exact ⟨.granted, hstages, .single .granted⟩
      · rw [if_neg hin] at hstages
        exact ⟨stage, hstages.trans hi, .refl⟩
  | poisoned cause rpcs =>
    have hstage : ({ s.poison cause with rpcs := rpcs } : Live ε α).stageAt i
        = (s.stageAt i).map fun stage => if i ∈ s.queue then .rejected (s.poisonCause.getD cause)
        else stage :=
      stageAt_poison cause i
    rw [hi, Option.map_some] at hstage
    by_cases hin : i ∈ s.queue
    · obtain rfl := Option.some.inj ((hs.stageAt_queue hin).symm.trans hi)
      rw [if_pos hin] at hstage
      exact ⟨_, hstage, .single (.rejected _)⟩
    · rw [if_neg hin] at hstage
      exact ⟨stage, hstage, .refl⟩

theorem later_step {l : Event ε α × Reply ε} (hs : s.Valid) (h : LiveStep s l t) : s.Later t := by
  obtain ⟨hmove, hrpcs⟩ := step_moves hs h
  refine ⟨fun i stage => hmove.reaches hs, hmove.poison, fun hp => ?_, hrpcs.length, hrpcs.rpc⟩
  exact (hmove.line.shut (Option.isSome_iff_ne_none.mpr hp)).2

/-! ### Runs -/

theorem initial_valid : (initial : Live ε α).Valid :=
  ⟨Line.orderly_empty, fun _ => ⟨iff_of_false nofun nofun, iff_of_false nofun nofun,
    iff_of_false nofun nofun⟩⟩

theorem run_valid {ls : List (Event ε α × Reply ε)} (hs : s.Valid) (h : Run LiveStep s ls t) :
    t.Valid :=
  h.invariant (fun _ _ _ hs hstep => valid_step hs hstep) hs

theorem run_later {ls : List (Event ε α × Reply ε)} (hs : s.Valid) (h : Run LiveStep s ls t) :
    s.Later t :=
  h.relates Live.Later.refl Live.Later.trans (fun _ _ _ hs hstep => valid_step hs hstep)
    (fun _ _ _ hs hstep => later_step hs hstep) hs

/-- Whoever waits in a run moves up with every ownership that is given up. -/
theorem run_waits {ls : List (Event ε α × Reply ε)} (hs : s.Valid) (h : Run LiveStep s ls t) :
    t.poisonCause ≠ none ∨ ∃ new, t.queue = s.queue.drop (Line.turns (fun l => l.1.frees) ls)
      ++ new := by
  have hline (s : Live ε α) (l : Event ε α × Reply ε) (t : Live ε α) (hs : s.Valid)
      (hstep : LiveStep s l t) :
      s.line.Step ((fun l : Event ε α × Reply ε => l.1.frees) l) t.line :=
        (step_moves hs hstep).1.line
  rcases Line.waits (fun _ _ _ hs hstep => valid_step hs hstep) hline h hs with hclosed | hwaits
  · exact .inl (Option.isSome_iff_ne_none.mp hclosed)
  · exact .inr hwaits

/-- How ownership goes round: one work at a time, in the order of the calls, and when everybody who
was granted the ownership has left, nobody is left waiting. -/
structure Owned (s : Live ε α) : Prop where
  one : ∀ i j, s.stageAt i = some .working → s.stageAt j = some .working → i = j
  order : s.grants.Pairwise (· < ·)
  granted : ∀ i, i ∈ s.grants ↔ (s.stageAt i).any Stage.wasGranted = true
  overtaken : ∀ i j, i < j → j ∈ s.grants → s.stageAt i ≠ some .waiting
  settled : (∀ i, ¬ (s.stageAt i).any Stage.holds = true) → ∀ i (stage : Stage ε α), s.stageAt i
    = some stage →
    (∃ result, stage = .left result) ∨ ∃ cause, stage = .rejected cause
  poisoned : s.poisonCause ≠ none → ∀ i, s.stageAt i ≠ some .waiting

theorem Live.Valid.owned (hs : s.Valid) : Owned s := by
  have hwaits (i : Nat) (hi : s.stageAt i = some .waiting) : i ∈ s.queue :=
    (hs.callers i).waiting.mpr (by rw [hi]; rfl)
  refine ⟨fun i j hi hj => ?_, hs.line.served, fun i => (hs.callers i).granted,
    fun i j hij hj hi => ?_, fun hidle i stage hi => ?_, fun hp i hi => ?_⟩
  · exact Option.some.inj ((hs.holder hi rfl).symm.trans (hs.holder hj rfl))
  · have hbefore := hs.line.before j hj i (hwaits i hi)
    omega
  · have hnone : s.activeToken = none := by
      by_contra hne
      obtain ⟨j, hj⟩ := Option.ne_none_iff_exists'.mp hne
      exact hidle j ((hs.callers j).holding.mp hj)
    have hheld := hidle i
    rw [hi] at hheld
    cases stage with
    | waiting =>
      have hne : s.queue ≠ [] := List.ne_nil_of_mem (hwaits i hi)
      exact absurd hnone (hs.line.busy hne)
    | granted | working | leaving _ => exact absurd rfl hheld
    | left result => exact .inl ⟨result, rfl⟩
    | rejected cause => exact .inr ⟨cause, rfl⟩
  · have hempty : s.queue = [] := hs.line.shut (Option.isSome_iff_ne_none.mpr hp)
    have hmem := hwaits i hi
    rw [hempty] at hmem
    cases hmem

theorem deadline_timedOut {r : Nat} {reply : Reply ε} (h : LiveStep s (.deadline r, reply) t) :
    ∃ rpc, t.rpcs[r]? = some rpc ∧ rpc.TimedOut := by
  obtain ⟨rpc, hrpc, h⟩ := Option.bind_eq_some_iff.mp (show (s.rpcs[r]?.bind _) = _ from h)
  split at h
  · split at h
    · obtain ⟨-, rfl⟩ := Prod.mk.inj (Option.some.inj h)
      exact ⟨_, List.getElem?_set_self (List.getElem?_eq_some_iff.mp hrpc).1, .inl rfl⟩
    · cases h
  · cases h

/-- The report of a publication whose deadline has won. -/
theorem Rpc.TimedOut.outcome {rpc : Rpc ε α} (h : rpc.TimedOut)
    (hcategory : rpc.category = .publication) {report : Except (Failure ε) α}
    (hreport : rpc.race = .reported report) :
    ∃ error, report = .error error ∧ error.outcome = some "SUBMISSION_OUTCOME_UNKNOWN" := by
  rcases h with h | h | h <;> rw [hreport] at h <;> cases h
  refine ⟨_, rfl, ?_⟩
  unfold Rpc.timeoutError
  rw [hcategory]
  rfl

namespace Sample

def options : Options :=
  ⟨.str "publication", .str "ledger.publishRawTransaction", .num 1000, .function, .undefined⟩

/-- An owner that starts a publication and poisons the runtime right away. -/
def events : List (Event Unit Unit × Reply Unit) :=
  [(.withOwner (.str "buyer.prepare") .function, .ok ()), (.start 0, .ok ()),
    (.runRpcWithDeadline 0 options, .ok ()), (.poison 0 none, .ok ())]

/-- The runtime after these events. -/
def poisoned : Live Unit Unit :=
  ⟨some 0, [], some .unspecified, [⟨"buyer.prepare", .working⟩], [0],
    [⟨0, .publication, "ledger.publishRawTransaction", false, false, none, .racing, none, none⟩]⟩

theorem run : Run LiveStep initial events poisoned := by
  have hcalled : LiveStep (initial : Live Unit Unit)
      (.withOwner (.str "buyer.prepare") .function, .ok ())
    ⟨some 0, [], none, [⟨"buyer.prepare", .granted⟩], [0], []⟩ := rfl
  have hstarted : LiveStep
      (⟨some 0, [], none, [⟨"buyer.prepare", .granted⟩], [0], []⟩ : Live Unit Unit)
    (.start 0, .ok ()) ⟨some 0, [], none, [⟨"buyer.prepare", .working⟩], [0], []⟩ := rfl
  have hasked : LiveStep
      (⟨some 0, [], none, [⟨"buyer.prepare", .working⟩], [0], []⟩ : Live Unit Unit)
    (.runRpcWithDeadline 0 options, .ok ()) { poisoned with poisonCause := none } := rfl
  have hpoisoned : LiveStep { poisoned with poisonCause := none } (.poison 0 none, .ok ())
    poisoned := rfl
  exact .cons hcalled (.cons hstarted (.cons hasked (.cons hpoisoned (.nil _))))

end Sample

/-- The callback of an RPC that was accepted before the poison is started after it. -/
theorem execute_after_poison :
    ¬ ∀ (ls : List (Event Unit Unit × Reply Unit)) (s t : Live Unit Unit) (r : Nat),
    Run LiveStep initial ls s → s.poisonCause ≠ none → ¬ LiveStep s (.execute r, .ok ()) t :=
  fun h => h Sample.events Sample.poisoned _ 0 Sample.run nofun rfl

/-- Whatever is called on a runtime and however its promises settle: ownership goes round as it
should, and nobody who waits is lost; what was settled stays, so after a poison nobody is granted
the ownership and no RPC is accepted; an RPC or a poison is accepted only from the caller that has
the ownership; and once the deadline of a publication fired, its outcome is unknown for good. -/
theorem ownership_exclusive {ls : List (Event ε α × Reply ε)} (hrun : Run LiveStep initial ls s) :
    Owned s ∧ (∀ ls' t, Run LiveStep s ls' t → s.Later t
        ∧ (t.poisonCause ≠ none ∨ ∃ new,
          t.queue = s.queue.drop (Line.turns (fun l => l.1.frees) ls') ++ new))
      ∧ (∀ i options t, LiveStep s (.runRpcWithDeadline i options, .ok ()) t →
        s.activeToken = some i ∧ s.poisonCause = none)
      ∧ (∀ i cause t, LiveStep s (.poison i cause, .ok ()) t → s.activeToken = some i)
      ∧ ∀ r t ls' u, LiveStep s (.deadline r, .ok ()) t → Run LiveStep t ls' u →
        ∃ rpc, u.rpcs[r]? = some rpc ∧ rpc.TimedOut ∧ (rpc.category = .publication → ∀ report,
          rpc.race = .reported report → ∃ error, report = .error error ∧ error.outcome
            = some "SUBMISSION_OUTCOME_UNKNOWN") := by
  have hvalid := run_valid initial_valid hrun
  refine ⟨hvalid.owned, fun ls' t h => ⟨run_later hvalid h, run_waits hvalid h⟩,
    fun i options t h => ?_, fun i cause t h => ?_, fun r t ls' u h hrest => ?_⟩
  · simp only [LiveStep, Event.act, Option.ite_none_right_eq_some] at h
    rcases called_cases (Option.some.inj h.2) with ⟨h, -⟩ | ⟨⟨e, -, he⟩, -⟩
    · obtain ⟨hactive, hcause, -⟩ := runRpcWithDeadline_ok h
      exact ⟨hactive, hcause⟩
    · cases he
  · simp only [LiveStep, Event.act, Option.ite_none_right_eq_some] at h
    rcases called_cases (Option.some.inj h.2) with ⟨h, -⟩ | ⟨⟨e, -, he⟩, -⟩
    · exact (poisonFromOwner_ok h).1
    · cases he
  · obtain ⟨rpc, hrpc, htimed⟩ := deadline_timedOut h
    obtain ⟨rpc', hrpc', hlater⟩ := (run_later (valid_step hvalid h) hrest).rpc r rpc hrpc
    exact ⟨rpc', hrpc', hlater.timedOut htimed, fun hcategory report hreport =>
      (hlater.timedOut htimed).outcome hcategory hreport⟩

/-- What is answered when these events happen to a runtime, but for those that cannot, and the
runtime after them. -/
def answered (s : Live ε α) : List (Event ε α) → List (Event ε α × Reply ε) × Live ε α
  | [] => ([], s)
  | e :: es => match e.act s with
    | none => answered s es
    | some (reply, t) => ((e, reply) :: (answered t es).1, (answered t es).2)

theorem run_answered :
    ∀ (es : List (Event ε α)) (s : Live ε α), Run LiveStep s (answered s es).1 (answered s es).2
  | [], s => .nil s
  | e :: es, s => by
    cases hact : e.act s with
    | none =>
      rw [answered, hact]
      exact run_answered es s
    | some next =>
      rw [answered, hact]
      exact .cons hact (run_answered es next.2)

namespace Sample

/-- An owner that is done leaves its ownership to the next one, which publishes while a third one
waits. -/
def visits : List (Event Unit Unit) :=
  [.withOwner (.str "buyer.prepare") .function, .start 0,
    .withOwner (.str "seller.receive") .function, .finish 0 (.ok ()), .release 0, .start 1,
    .runRpcWithDeadline 1 options, .execute 0,
    .withOwner (.str "buyer.confirm") .function]

def visited : Live Unit Unit := (answered initial visits).2

/-- The deadline of the publication fires. -/
def expired : Live Unit Unit := (answered visited [.deadline 0]).2

/-- Its race is over, and the runtime is poisoned. -/
def timedOut : Live Unit Unit := (answered expired [.conclude 0]).2

end Sample

/-- The caller that waits for an owner whose publication times out is rejected, and the outcome is
unknown. -/
theorem ownership_exclusive_sample : Owned Sample.visited ∧ Sample.visited.Later Sample.timedOut
    ∧ Sample.visited.stageAt 0 = some (.left (.ok ())) ∧ Sample.visited.stageAt 1 = some .working
    ∧ Sample.visited.stageAt 2 = some .waiting
    ∧ Sample.timedOut.stageAt 2
    = some (.rejected (.timeout .publication "ledger.publishRawTransaction"))
    ∧ ∃ rpc error, Sample.timedOut.rpcs[0]? = some rpc ∧ rpc.TimedOut ∧ rpc.race
    = .reported (.error error)
      ∧ error.outcome = some "SUBMISSION_OUTCOME_UNKNOWN" := by
  obtain ⟨howned, hlater, -, -, hdeadline⟩ :=
    ownership_exclusive (run_answered Sample.visits initial)
  have hfired : LiveStep Sample.visited (.deadline 0, .ok ()) Sample.expired := rfl
  have hconcluded := run_answered [.conclude 0] Sample.expired
  obtain ⟨rpc, hrpc, htimed, hreport⟩ := hdeadline 0 _ _ _ hfired hconcluded
  obtain rfl : _ = rpc :=
    Option.some.inj ((show Sample.timedOut.rpcs[0]? = some _ from rfl).symm.trans hrpc)
  obtain ⟨error, herror, houtcome⟩ := hreport rfl _ rfl
  exact ⟨howned, (hlater _ _ (.cons hfired hconcluded)).1, rfl, rfl, rfl, rfl, _, error, rfl,
    htimed, herror ▸ rfl, houtcome⟩

end Runtime
end ZenonX402
