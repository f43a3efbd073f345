/-
# Moving executions

An execution that has not ended moves one step at a time (`Execution.Moves`):
from prepared to started or to not invoked, from started to succeeded or
unknown. A state whose executions have moved, or to which one was added, is
valid again, and the generation fits it when it is sealed by an execution that
became unknown, unless it had a seal before. So `makeState` accepts it.

Key definitions: `Execution.Moves`, `MovesAll`, `put`.
Key theorems: `State.Valid.moved`, `State.Valid.added`, `Generation.Fits.unmarked`,
`Generation.Fits.marked`, `replaceExecution_ok`.
-/
import ZenonX402.Contract.Operations

namespace ZenonX402
namespace Contract

open Js
open Credit (Identifier Commitment)

variable {sha : Sha256}

/-! ### One execution -/

/-- One step of an execution that has not ended. -/
inductive Execution.Moves (e : Execution) : Execution → Prop
  | started (hnone : e.terminalClassification = .NONE) (hphase : e.fencePhase = .PREPARED) :
      Moves e e.started
  | notInvoked (reason : NoInvocationReason) (hnone : e.terminalClassification = .NONE)
      (hphase : e.fencePhase = .PREPARED) : Moves e (e.notInvoked reason)
  | succeeded (resultCommitment : Commitment) (hnone : e.terminalClassification = .NONE)
      (hphase : e.fencePhase = .MAY_HAVE_STARTED) : Moves e (e.succeeded resultCommitment)
  | unknown (reason : UncertaintyReason) (hnone : e.terminalClassification = .NONE)
      (hphase : e.fencePhase = .MAY_HAVE_STARTED) : Moves e (e.unknown reason)

namespace Execution

variable {e e' : Execution}

theorem Moves.identity (h : e.Moves e') : e'.toExecutionIdentity = e.toExecutionIdentity := by
  cases h <;> rfl

theorem Moves.pending (h : e.Moves e') : e.terminalClassification = .NONE := by
  cases h <;> assumption

/-- The classes of an execution that has not ended. -/
theorem consistent_none (h : e.consistent = true) (hnone : e.terminalClassification = .NONE) :
    e.terminalReason = none ∧ e.resultCommitment = none ∧ e.uncertaintyReason = none := by
  simpa [consistent, hnone, and_assoc] using h

theorem Moves.consistent (h : e.Moves e') (he : e.consistent = true) : e'.consistent = true := by
  obtain ⟨hreason, hresult, huncertain⟩ := consistent_none he h.pending
  cases h with
  | started hnone => simp [Execution.consistent, Execution.started, hnone, hreason,
      hresult, huncertain]
  | notInvoked reason _ hphase =>
      simp [Execution.consistent, Execution.notInvoked, hphase, hresult, huncertain]
  | succeeded c _ hphase =>
      simp [Execution.consistent, Execution.succeeded, hphase, hreason, huncertain]
  | unknown reason _ hphase =>
      simp [Execution.consistent, Execution.unknown, hphase, hreason, hresult]

/-- The checks of an execution read its identity and its consistency only. -/
theorem Valid.moved {ledgerId : Identifier} {generationId : Commitment} {p : Policy}
    (he : e.Valid sha ledgerId generationId p) (h : e.Moves e') :
    e'.Valid sha ledgerId generationId p := by
  have hid := h.identity
  have hconsistent := h.consistent he.consistent
  obtain ⟨i, _⟩ := e
  obtain ⟨i', _⟩ := e'
  obtain rfl : i' = i := hid
  exact ⟨he.generation, he.policy, he.duration, he.deadline, he.executionId, hconsistent⟩

end Execution

/-! ### All executions -/

variable {s : State} {f : Execution → Execution} {g : Generation} {es : List Execution}

/-- The map keeps each execution or moves it. -/
def MovesAll (f : Execution → Execution) (es : List Execution) : Prop :=
  ∀ e ∈ es, f e = e ∨ e.Moves (f e)

theorem MovesAll.identity (h : MovesAll f es) {e : Execution} (he : e ∈ es) :
    (f e).toExecutionIdentity = e.toExecutionIdentity := by
  rcases h e he with heq | hmoves
  · rw [heq]
  · exact hmoves.identity

/-- What is read of the identities only is the same before and after. -/
theorem MovesAll.map_eq {β : Type} (h : MovesAll f es) (read : ExecutionIdentity → β) :
    (es.map f).map (fun e => read e.toExecutionIdentity) = es.map fun e =>
    read e.toExecutionIdentity := by
  rw [List.map_map]
  exact List.map_congr_left fun e he => congrArg read (h.identity he)

theorem MovesAll.unknown (h : MovesAll f es) {e : Execution} (he : e ∈ es) (hunknown : e.Unknown) :
    f e = e := by
  rcases h e he with heq | hmoves
  · exact heq
  · rw [Execution.Unknown, hmoves.pending] at hunknown
    cases hunknown

theorem sorted_iff_keys {es : List Execution} :
    (es.Pairwise fun a b => requestKey a.request < requestKey b.request) ↔
      (es.map fun e => requestKey e.request).Pairwise (· < ·) := by
  rw [List.pairwise_map]

theorem State.Valid.requestKeys_nodup (hs : s.Valid sha) :
    (s.executions.map fun e => requestKey e.request).Nodup :=
  (sorted_iff_keys.mp hs.sorted).imp ne_of_lt

/-- A state whose executions have moved, in a generation that fits them. -/
theorem State.Valid.moved (hs : s.Valid sha) (h : MovesAll f s.executions)
    (hid : g.generationId = s.generation.generationId) (hg : g.Fits (s.executions.map f)) :
    State.Valid sha { s with generation := g, executions := s.executions.map f } where
  generationId := hid.trans hs.generationId
  size := by simpa using hs.size
  execution := by
    intro e' he'
    obtain ⟨e, he, rfl⟩ := List.mem_map.mp he'
    show (f e).Valid sha s.ledgerId g.generationId s.policy
    rw [hid]
    rcases h e he with heq | hmoves
    · rw [heq]
      exact hs.execution e he
    · exact (hs.execution e he).moved hmoves
  sorted := by
    rw [sorted_iff_keys, h.map_eq fun i => requestKey i.request, ← sorted_iff_keys]
    exact hs.sorted
  ids := by
    show ((s.executions.map f).map fun e => e.executionId).Nodup
    rw [h.map_eq fun i => i.executionId]
    exact hs.ids
  fits := hg

/-! ### The seal -/

theorem sealedBy_of_open {r : Execution} (h : g.state = .OPEN) :
    g.sealedBy r = sealFor r r.uncertaintyReason := by
  unfold Generation.sealedBy
  rw [h]

theorem sealedBy_of_sealed {r : Execution} (h : g.state = .SEALED) : g.sealedBy r = g := by
  unfold Generation.sealedBy
  rw [h]

/-- The executions that were unknown still are. -/
theorem Seal.Names.moved {mark : Seal} (hnames : mark.Names es) (h : MovesAll f es) :
    mark.Names (es.map f) := by
  obtain ⟨e, he, hid, hunknown, hreason⟩ := hnames
  refine ⟨e, ?_, hid, hunknown, hreason⟩
  rw [← h.unknown he hunknown]
  exact List.mem_map_of_mem he

/-- No execution has become unknown. -/
theorem Generation.Fits.unmarked (hg : g.Fits es) (h : MovesAll f es)
    (hnone : ∀ e ∈ es, (f e).Unknown → e.Unknown) :
    g.Fits (es.map f) where
  sealed_iff := by
    rw [hg.sealed_iff]
    constructor
    · rintro ⟨e, he, hunknown⟩
      refine ⟨f e, List.mem_map_of_mem he, ?_⟩
      rw [h.unknown he hunknown]
      exact hunknown
    · rintro ⟨e', he', hunknown⟩
      obtain ⟨e, he, rfl⟩ := List.mem_map.mp he'
      exact ⟨e, he, hnone e he hunknown⟩
  seal_iff := hg.seal_iff
  names := fun mark hmark => (hg.names mark hmark).moved h

/-- Some execution has become unknown, and the generation is sealed by it unless it had a seal. -/
theorem Generation.Fits.marked (hg : g.Fits es) (h : MovesAll f es) {r : Execution}
    (hr : r ∈ es.map f) (hunknown : r.Unknown) {reason : UncertaintyReason}
    (hreason : r.uncertaintyReason = some reason) :
    (g.sealedBy r).Fits (es.map f) := by
  have hsome : ∃ e ∈ es.map f, e.Unknown := ⟨r, hr, hunknown⟩
  cases hstate : g.state with
  | OPEN =>
    rw [sealedBy_of_open hstate]
    refine ⟨iff_of_true rfl hsome, ?_, fun mark hmark => ?_⟩
    · simp [sealFor, hreason]
    · simp only [sealFor, hreason, Option.map_some, Option.some.injEq] at hmark
      subst hmark
      exact ⟨r, hr, rfl, hunknown, hreason⟩
  | SEALED =>
    rw [sealedBy_of_sealed hstate]
    exact ⟨iff_of_true hstate hsome, hg.seal_iff, fun mark hmark => (hg.names mark hmark).moved h⟩

theorem sealedBy_generationId {r : Execution} (h : r.generationId = g.generationId) :
    (g.sealedBy r).generationId = g.generationId := by
  cases hstate : g.state with
  | OPEN =>
    rw [sealedBy_of_open hstate]
    exact h
  | SEALED => rw [sealedBy_of_sealed hstate]

/-! ### Making the next state -/

/-- The state that is made is valid and the one that was meant. -/
theorem makeState_ok {c : Accepted sha} {es' : List Execution} {s' : State} (hvalid : s'.Valid sha)
    (hs' : s' = { c.1 with
      generation := g, executions := es'.insertionSort fun a b => compareExecution a b ≤ 0 }) :
    makeState c es' g = .ok ⟨s', admissible_iff.mpr hvalid⟩ := by
  subst hs'
  exact normalizeState_of_valid hvalid

theorem State.Valid.sortedCopy (hs : s.Valid sha) :
    (s.executions.insertionSort fun a b => compareExecution a b ≤ 0) = s.executions :=
  sortedCopy_of_sorted hs.sorted

theorem makeState_moved {c : Accepted sha} (h : MovesAll f c.1.executions)
    (hid : g.generationId = c.1.generation.generationId) (hg : g.Fits (c.1.executions.map f)) :
    ∃ next : Accepted sha, makeState c (c.1.executions.map f) g = .ok next
      ∧ next.1 = { c.1 with generation := g, executions := c.1.executions.map f } := by
  have hvalid := c.valid.moved h hid hg
  have hsort : ((c.1.executions.map f).insertionSort fun a b => compareExecution a b ≤ 0)
      = c.1.executions.map f :=
    hvalid.sortedCopy
  exact ⟨_, makeState_ok hvalid (by rw [hsort]), rfl⟩

theorem executionOutcome_of_mem {c : Accepted sha} {e : Execution} (he : e ∈ c.1.executions) :
    executionOutcome c e.executionId = .ok e :=
  orReject_ok.mpr ((find?_executionId c.valid.ids).mpr ⟨he, rfl⟩)

/-- The map that puts an execution in the place of the one with its identifier. -/
def put (r : Execution) (e : Execution) : Execution :=
  if e.executionId = r.executionId then r else e

theorem put_self {e r : Execution} (h : e.executionId = r.executionId) : put r e = r := if_pos h

theorem movesAll_put {c : Accepted sha} {e r : Execution} (he : e ∈ c.1.executions)
    (h : e.Moves r) :
    MovesAll (put r) c.1.executions := by
  intro x hx
  unfold put
  by_cases hid : x.executionId = r.executionId
  · have hxe : x = e := eq_of_executionId c.valid.ids hx he
      (hid.trans (congrArg ExecutionIdentity.executionId h.identity))
    rw [if_pos hid, hxe]
    exact .inr h
  · exact .inl (if_neg hid)

/-- An execution moves, and the generation fits the result: the next state and its execution. -/
theorem replaceExecution_ok {c : Accepted sha} {e r : Execution} (he : e ∈ c.1.executions)
    (h : e.Moves r) (hid : g.generationId = c.1.generation.generationId)
    (hg : g.Fits (c.1.executions.map (put r))) :
    ∃ next : Accepted sha, replaceExecution c r g = .ok next
      ∧ executionOutcome next e.executionId = .ok r
      ∧ next.1 = { c.1 with generation := g, executions := c.1.executions.map (put r) } := by
  obtain ⟨next, hnext, hstate⟩ := makeState_moved (movesAll_put he h) hid hg
  have hsame : r.executionId = e.executionId := congrArg ExecutionIdentity.executionId h.identity
  refine ⟨next, hnext, ?_, hstate⟩
  rw [← hsame]
  apply executionOutcome_of_mem
  rw [hstate]
  exact List.mem_map.mpr ⟨e, he, put_self hsame.symm⟩

/-! ### A new execution -/

theorem Generation.Fits.added {es' : List Execution} {x : Execution} (hg : g.Fits es)
    (hx : ¬ x.Unknown) (hes : es'.Perm (es ++ [x])) : g.Fits es' where
  sealed_iff := by
    rw [hg.sealed_iff]
    constructor
    · rintro ⟨e, he, hunknown⟩
      exact ⟨e, hes.mem_iff.mpr (List.mem_append_left _ he), hunknown⟩
    · rintro ⟨e, he, hunknown⟩
      rcases List.mem_append.mp (hes.mem_iff.mp he) with he | he
      · exact ⟨e, he, hunknown⟩
      · exact absurd (List.mem_singleton.mp he ▸ hunknown) hx
  seal_iff := hg.seal_iff
  names := by
    intro mark hmark
    obtain ⟨e, he, hnamed⟩ := hg.names mark hmark
    exact ⟨e, hes.mem_iff.mpr (List.mem_append_left _ he), hnamed⟩

theorem compareExecution_le {a b : Execution} :
    compareExecution a b ≤ 0 ↔ requestKey a.request ≤ requestKey b.request := by
  unfold compareExecution
  rcases lt_trichotomy (requestKey a.request) (requestKey b.request) with h | h | h
  · simp [h, h.le]
  · simp [h]
  · simp [h, h.not_gt, h.not_ge]

instance : Std.Total fun a b : Execution => compareExecution a b ≤ 0 where
  total a b := by
    rw [compareExecution_le, compareExecution_le]
    exact le_total _ _

instance : IsTrans Execution fun a b => compareExecution a b ≤ 0 where
  trans a b c hab hbc := by
    rw [compareExecution_le] at hab hbc ⊢
    exact hab.trans hbc

/-- A new execution that has a key and an identifier of its own. -/
theorem State.Valid.added {x : Execution} (hs : s.Valid sha)
    (hx : x.Valid sha s.ledgerId s.generation.generationId s.policy) (hknown : ¬ x.Unknown)
    (hroom : (s.executions.length : Int) < s.capacity.1)
    (hkey : ∀ e ∈ s.executions, requestKey e.request ≠ requestKey x.request)
    (hid : ∀ e ∈ s.executions, e.executionId ≠ x.executionId) :
    State.Valid sha { s with
      executions := (s.executions ++ [x]).insertionSort fun a b => compareExecution a b ≤ 0 } := by
  have hperm := List.perm_insertionSort (fun a b => compareExecution a b ≤ 0) (s.executions ++ [x])
  refine ⟨hs.generationId, ?_, ?_, ?_, ?_, hs.fits.added hknown hperm⟩
  · show ((List.insertionSort _ _).length : Int) ≤ s.capacity.1
    rw [hperm.length_eq, List.length_append, List.length_singleton]
    omega
  · intro e he
    rcases List.mem_append.mp (hperm.mem_iff.mp he) with he | he
    · exact hs.execution e he
    · rw [List.mem_singleton.mp he]
      exact hx
  · have hnodup : (s.executions.map fun e => requestKey e.request).Nodup := hs.requestKeys_nodup
    have hall : ((s.executions ++ [x]).map fun e => requestKey e.request).Nodup := by
      rw [List.map_append, List.map_singleton, List.nodup_append]
      refine ⟨hnodup, List.nodup_singleton _, fun k hk k' hk' => ?_⟩
      obtain ⟨e, he, rfl⟩ := List.mem_map.mp hk
      rw [List.mem_singleton.mp hk']
      exact hkey e he
    exact pairwise_insertionSort_strict hall fun a b hab hne =>
      lt_of_le_of_ne (compareExecution_le.mp hab) hne
  · rw [(hperm.map _).nodup_iff, List.map_append, List.map_singleton, List.nodup_append]
    refine ⟨hs.ids, List.nodup_singleton _, fun i hi i' hi' => ?_⟩
    obtain ⟨e, he, rfl⟩ := List.mem_map.mp hi
    rw [List.mem_singleton.mp hi']
    exact hid e he

end Contract
end ZenonX402
