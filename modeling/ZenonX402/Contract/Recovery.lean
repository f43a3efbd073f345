/-
# Recovery after a restart

After a restart nothing that was under way is known to go on. A recovery ends every execution
that has not ended: what was only prepared was not invoked, and of what may have started the
outcome is unknown, for a reason that the clock tells. What it counts are those executions, and
the generation is sealed by the first of unknown outcome if it was open. A second recovery finds
nothing to do (`restart_recovery`).

Key definitions: `Execution.Prepared`, `Execution.Begun`, `Recovers`.
Key theorems: `Recovery.counted`, `recover_ok`, `recover_settled`, `restart_recovery`.
-/
import ZenonX402.Contract.Runs

namespace ZenonX402
namespace Contract

open Js

variable {sha : Sha256} {c : Accepted sha} {e : Execution} {es : List Execution}
    {now : NonnegativeInt}

/-! ### What is under way -/

namespace Execution

/-- Prepared, and not more. -/
def Prepared (e : Execution) : Prop := e.terminalClassification = .NONE ∧ e.fencePhase = .PREPARED

/-- It may have started, and has not ended. -/
def Begun (e : Execution) : Prop :=
  e.terminalClassification = .NONE ∧ e.fencePhase = .MAY_HAVE_STARTED

instance : DecidablePred Prepared := fun _ => inferInstanceAs (Decidable (_ ∧ _))

instance : DecidablePred Begun := fun _ => inferInstanceAs (Decidable (_ ∧ _))

theorem recovered_of_ended (h : e.terminalClassification ≠ .NONE) : e.recovered now = e := if_pos h

theorem recovered_of_prepared (h : e.Prepared) :
    e.recovered now = e.notInvoked .RECOVERY_PREPARED := by
  rw [recovered, if_neg (not_not.mpr h.1), h.2]

theorem recovered_of_begun (h : e.Begun) : e.recovered now = e.unknown (recoveryReason e now) := by
  rw [recovered, if_neg (not_not.mpr h.1), h.2]

/-- An execution has ended, was only prepared, or may have started. -/
theorem ended_or (e : Execution) : e.terminalClassification ≠ .NONE ∨ e.Prepared ∨ e.Begun := by
  by_cases hnone : e.terminalClassification = .NONE
  · cases hphase : e.fencePhase with
    | PREPARED => exact .inr (.inl ⟨hnone, hphase⟩)
    | MAY_HAVE_STARTED => exact .inr (.inr ⟨hnone, hphase⟩)
  · exact .inl hnone

/-- A recovery leaves nothing under way. -/
theorem recovered_ended (now : NonnegativeInt) (e : Execution) :
    (e.recovered now).terminalClassification ≠ .NONE := by
  rcases e.ended_or with hended | hprepared | hbegun
  · rw [recovered_of_ended hended]
    exact hended
  · rw [recovered_of_prepared hprepared]
    exact nofun
  · rw [recovered_of_begun hbegun]
    exact nofun

/-- What a recovery makes an execution of unknown outcome was that, or may have started. -/
theorem unknown_recovered : (e.recovered now).Unknown ↔ e.Unknown ∨ e.Begun := by
  rcases e.ended_or with hended | hprepared | hbegun
  · rw [recovered_of_ended hended]
    exact ⟨.inl, fun h => h.resolve_right fun hb => hended hb.1⟩
  · rw [recovered_of_prepared hprepared]
    refine ⟨nofun, fun h => ?_⟩
    rcases h with h | h
    · exact absurd (hprepared.1.symm.trans h) nofun
    · exact absurd (hprepared.2.symm.trans h.2) nofun
  · rw [recovered_of_begun hbegun]
    exact ⟨fun _ => .inr hbegun, fun _ => rfl⟩

end Execution

/-! ### The loop -/

/-- What the loop has counted after the executions `es`, and the first that it found to have begun.
-/
structure Recovery.Counted (now : NonnegativeInt) (es : List Execution) (r : Recovery) : Prop where
  executions : r.executions = es.map (·.recovered now)
  noInvocationCount : r.noInvocationCount = es.countP fun e => decide e.Prepared
  outcomeUnknownCount : r.outcomeUnknownCount = es.countP fun e => decide e.Begun
  trigger : r.trigger = (es.find? fun e => decide e.Begun).map (·.recovered now)

/-- One round. -/
theorem Recovery.Counted.next {r : Recovery} (h : r.Counted now es) (e : Execution) :
    (r.next now e).Counted now (es ++ [e]) := by
  obtain ⟨h1, h2, h3, h4⟩ := h
  unfold Recovery.next
  rcases e.ended_or with hended | hprepared | hbegun
  · have hp : ¬ e.Prepared := fun h => hended h.1
    have hb : ¬ e.Begun := fun h => hended h.1
    rw [if_pos hended]
    refine ⟨?_, ?_, ?_, ?_⟩
    · simp [h1, Execution.recovered_of_ended hended]
    · simp [h2, hp]
    · simp [h3, hb]
    · simp [h4, List.find?_append, hb]
  · have hb : ¬ e.Begun := fun h => absurd (hprepared.2.symm.trans h.2) nofun
    rw [if_neg (not_not.mpr hprepared.1), hprepared.2]
    refine ⟨?_, ?_, ?_, ?_⟩
    · simp [h1, Execution.recovered_of_prepared hprepared]
    · simp [h2, hprepared]
    · simp [h3, hb]
    · simp [h4, List.find?_append, hb]
  · have hp : ¬ e.Prepared := fun h => absurd (hbegun.2.symm.trans h.2) nofun
    rw [if_neg (not_not.mpr hbegun.1), hbegun.2]
    refine ⟨?_, ?_, ?_, ?_⟩
    · simp [h1, Execution.recovered_of_begun hbegun]
    · simp [h2, hp]
    · simp [h3, hbegun]
    · cases hfind : es.find? fun e => decide e.Begun with
      | none => simp [h4, hfind, List.find?_append, hbegun, Execution.recovered_of_begun hbegun]
      | some t => simp [h4, hfind, List.find?_append]

/-- The loop, over all executions. -/
theorem Recovery.counted (now : NonnegativeInt) (es : List Execution) :
    (es.foldl (Recovery.next now) ⟨0, 0, none, []⟩).Counted now es := by
  induction es using List.reverseRecOn with
  | nil => exact ⟨rfl, rfl, rfl, rfl⟩
  | append_singleton es e ih =>
    rw [List.foldl_append]
    exact ih.next e

/-! ### The call -/

/-- The arguments of a recovery, which carry this state and this time. -/
def Recovers (sha : Sha256) (options : Value) (c : Accepted sha) (now : NonnegativeInt) : Prop :=
  ∃ input, exactDataObject RECOVER_KEYS options .INVALID_INPUT = .ok input
    ∧ normalizeState sha (input "state") = .ok c
    ∧ nonnegativeSafeInteger.decode (input "wallClockNowMs") = .ok now

variable {options : Value}

/-- Where nothing is under way, nothing is done. -/
theorem recover_settled (h : Recovers sha options c now)
    (hended : ∀ e ∈ c.1.executions, e.terminalClassification ≠ .NONE) :
    recoverServiceCreditExecutions sha options = .ok ⟨c, false, 0, 0⟩ := by
  obtain ⟨input, hinput, hstate, hnow⟩ := h
  have hcounted := Recovery.counted now c.1.executions
  have hprepared : (c.1.executions.countP fun e => decide e.Prepared) = 0 :=
    List.countP_eq_zero.mpr fun e he h => hended e he (of_decide_eq_true h).1
  have hbegun : (c.1.executions.countP fun e => decide e.Begun) = 0 :=
    List.countP_eq_zero.mpr fun e he h => hended e he (of_decide_eq_true h).1
  simp only [recoverServiceCreditExecutions, bind_ok, orFail_ok]
  refine ⟨input, hinput, c, hstate, now, hnow, ?_⟩
  rw [if_pos ⟨hcounted.noInvocationCount.trans hprepared,
    hcounted.outcomeUnknownCount.trans hbegun⟩]

/-- The generation after a recovery: the first execution that has begun seals it. -/
def State.recoveredGeneration (s : State) (now : NonnegativeInt) : Generation :=
  match s.executions.find? fun e => decide e.Begun with
  | some t => s.generation.sealedBy (t.recovered now)
  | none => s.generation

/-- The state after a recovery. -/
def State.recovered (s : State) (now : NonnegativeInt) : State :=
  { s with generation := s.recoveredGeneration now, executions := s.executions.map (·.recovered
    now) }

theorem find?_begun {t : Execution} (h : (es.find? fun e => decide e.Begun) = some t) :
    t ∈ es ∧ t.Begun :=
  ⟨List.mem_of_find?_eq_some h, by simpa using List.find?_some h⟩

theorem State.Valid.recovered {s : State} (hs : s.Valid sha) (now : NonnegativeInt) :
    (s.recovered now).Valid sha := by
  have hmoves : MovesAll (·.recovered now) s.executions := fun e _ => e.moves_recovered now
  unfold State.recovered State.recoveredGeneration
  cases hfind : s.executions.find? fun e => decide e.Begun with
  | none =>
    refine hs.moved hmoves rfl (hs.fits.unmarked hmoves fun e he hunknown => ?_)
    have hnot : ¬ e.Begun := by simpa using List.find?_eq_none.mp hfind e he
    exact (Execution.unknown_recovered.mp hunknown).resolve_right hnot
  | some t =>
    obtain ⟨ht, hbegun⟩ := find?_begun hfind
    have hrecovered : t.recovered now = t.unknown (recoveryReason t now) :=
      Execution.recovered_of_begun hbegun
    have hgid : (t.recovered now).generationId = s.generation.generationId :=
      (congrArg ExecutionIdentity.generationId (hmoves.identity ht)).trans
      (hs.execution t ht).generation
    have hunknown : (t.recovered now).Unknown := by
      rw [hrecovered]
      rfl
    have hreason : (t.recovered now).uncertaintyReason = some (recoveryReason t now) := by
      rw [hrecovered]
      rfl
    exact hs.moved hmoves (sealedBy_generationId hgid)
      (hs.fits.marked hmoves (List.mem_map_of_mem ht) hunknown hreason)

/-- The loop hands on the state after the recovery. -/
theorem makeState_recovered (c : Accepted sha) (now : NonnegativeInt) :
    makeState c (c.1.executions.map (·.recovered now)) (c.1.recoveredGeneration now)
      = .ok ⟨c.1.recovered now, admissible_iff.mpr (c.valid.recovered now)⟩ := by
  refine makeState_ok (c.valid.recovered now) ?_
  rw [show ((c.1.executions.map (·.recovered now)).insertionSort fun a b =>
    compareExecution a b ≤ 0)
    = c.1.executions.map (·.recovered now) from (c.valid.recovered now).sortedCopy]
  rfl

/-- Where nothing is under way, the state after a recovery is the one before. -/
theorem State.recovered_settled {s : State}
    (h : ∀ e ∈ s.executions, e.terminalClassification ≠ .NONE) :
    s.recovered now = s := by
  have hfind : (s.executions.find? fun e => decide e.Begun) = none :=
    List.find?_eq_none.mpr fun e he hbegun => h e he (of_decide_eq_true hbegun).1
  have hmap : s.executions.map (·.recovered now) = s.executions :=
    (List.map_congr_left fun e he => Execution.recovered_of_ended (h e he)).trans (List.map_id _)
  unfold State.recovered State.recoveredGeneration
  rw [hfind, hmap]

/-- A recovery always gives back the state after it, with what it counted. -/
theorem recover_ok (h : Recovers sha options c now) :
    ∃ r, recoverServiceCreditExecutions sha options = .ok r
    ∧ r.state.1 = c.1.recovered now
    ∧ r.noInvocationCount = (c.1.executions.countP fun e => decide e.Prepared)
    ∧ r.outcomeUnknownCount = (c.1.executions.countP fun e => decide e.Begun)
    ∧ (r.transitioned = true ↔ 0 < r.noInvocationCount + r.outcomeUnknownCount) := by
  have hsettled := recover_settled h
  obtain ⟨input, hinput, hstate, hnow⟩ := h
  have hcounted := Recovery.counted now c.1.executions
  by_cases hnone : (c.1.executions.countP fun e => decide e.Prepared) = 0
      ∧ (c.1.executions.countP fun e => decide e.Begun) = 0
  · have hended : ∀ e ∈ c.1.executions, e.terminalClassification ≠ .NONE := by
      intro e he
      have hprepared := List.countP_eq_zero.mp hnone.1 e he
      have hbegun := List.countP_eq_zero.mp hnone.2 e he
      rw [decide_eq_true_iff] at hprepared hbegun
      exact e.ended_or.resolve_right (not_or.mpr ⟨hprepared, hbegun⟩)
    exact ⟨_, hsettled hended, (State.recovered_settled hended).symm, hnone.1.symm,
      hnone.2.symm, by simp⟩
  · have hpos : 0 < (c.1.executions.countP fun e => decide e.Prepared) + c.1.executions.countP
        fun e => decide e.Begun := by
      omega
    refine ⟨⟨⟨c.1.recovered now, admissible_iff.mpr (c.valid.recovered now)⟩, true,
      c.1.executions.countP fun e => decide e.Prepared, c.1.executions.countP fun e =>
      decide e.Begun⟩, ?_, rfl, rfl, rfl,
      iff_of_true rfl hpos⟩
    simp only [recoverServiceCreditExecutions, bind_ok, orFail_ok]
    refine ⟨input, hinput, c, hstate, now, hnow, ?_⟩
    rw [if_neg (by rwa [hcounted.noInvocationCount, hcounted.outcomeUnknownCount])]
    simp only [hcounted.executions, hcounted.trigger, hcounted.noInvocationCount,
      hcounted.outcomeUnknownCount]
    have hmake := makeState_recovered c now
    unfold State.recoveredGeneration at hmake
    cases hfind : c.1.executions.find? fun e => decide e.Begun with
    | none =>
      rw [hfind] at hmake
      simp only [Option.map_none]
      rw [hmake]
      rfl
    | some t =>
      rw [hfind] at hmake
      simp only [Option.map_some]
      rw [hmake]
      rfl

/-! ### What a recovery leaves -/

/-- An execution, and what it is after a recovery at this time. -/
structure AfterRestart (now : NonnegativeInt) (e e' : Execution) : Prop where
  ended : e.terminalClassification ≠ .NONE → e' = e
  prepared : e.terminalClassification = .NONE → e.fencePhase = .PREPARED →
    e' = { e with terminalClassification := .NOT_INVOKED, terminalReason := some .RECOVERY_PREPARED }
  begun : e.terminalClassification = .NONE → e.fencePhase = .MAY_HAVE_STARTED → ∃ reason,
    e' = { e with terminalClassification := .OUTCOME_UNKNOWN, uncertaintyReason := some reason }
      ∧ (reason = .CLOCK_REGRESSION ↔ now.1 < e.wallClockStartMs.1)
      ∧ (reason = .DEADLINE_EXPIRED ↔ e.wallClockStartMs.1 ≤ now.1
        ∧ e.wallClockDeadlineMs.1 ≤ now.1)
      ∧ (reason = .RESTART_LOST_CONTROL ↔ e.wallClockStartMs.1 ≤ now.1
        ∧ now.1 < e.wallClockDeadlineMs.1)

theorem afterRestart_recovered (now : NonnegativeInt) (e : Execution) :
    AfterRestart now e (e.recovered now) where
  ended := Execution.recovered_of_ended
  prepared := fun hnone hphase => Execution.recovered_of_prepared ⟨hnone, hphase⟩
  begun := by
    intro hnone hphase
    refine ⟨recoveryReason e now, Execution.recovered_of_begun ⟨hnone, hphase⟩, ?_⟩
    unfold recoveryReason
    by_cases hstart : now.1 < e.wallClockStartMs.1
    · rw [if_pos hstart]
      exact ⟨iff_of_true rfl hstart, iff_of_false nofun fun h => not_lt.mpr h.1 hstart,
        iff_of_false nofun fun h => not_lt.mpr h.1 hstart⟩
    · rw [if_neg hstart]
      by_cases hdeadline : e.wallClockDeadlineMs.1 ≤ now.1
      · rw [if_pos hdeadline]
        exact ⟨iff_of_false nofun hstart, iff_of_true rfl ⟨not_lt.mp hstart, hdeadline⟩,
          iff_of_false nofun fun h => not_lt.mpr hdeadline h.2⟩
      · rw [if_neg hdeadline]
        exact ⟨iff_of_false nofun hstart, iff_of_false nofun fun h => hdeadline h.2,
          iff_of_true rfl ⟨not_lt.mp hstart, not_le.mp hdeadline⟩⟩

/-- A recovery of an accepted state, at any time: every execution is, in its place, what it is
after the restart, and none is under way; the counts are those of the executions that were
prepared and that may have started; the generation is sealed if it was, or if there was one that
may have started, by the first of them; and another recovery, at any time, changes nothing. -/
theorem restart_recovery (h : Recovers sha options c now) :
    ∃ r, recoverServiceCreditExecutions sha options = .ok r
    ∧ List.Forall₂ (AfterRestart now) c.1.executions r.state.1.executions
    ∧ (∀ e ∈ r.state.1.executions, e.terminalClassification ≠ .NONE)
    ∧ r.noInvocationCount
      = (c.1.executions.countP fun e => decide (e.terminalClassification = .NONE
        ∧ e.fencePhase = .PREPARED))
    ∧ r.outcomeUnknownCount
      = (c.1.executions.countP fun e => decide (e.terminalClassification = .NONE ∧ e.fencePhase
        = .MAY_HAVE_STARTED))
    ∧ (r.transitioned = true ↔ 0 < r.noInvocationCount + r.outcomeUnknownCount)
    ∧ (r.state.1.generation.state = .SEALED ↔ c.1.generation.state = .SEALED
      ∨ 0 < r.outcomeUnknownCount)
    ∧ (c.1.generation.state = .SEALED → r.state.1.generation = c.1.generation)
    ∧ ∀ options' now', Recovers sha options' r.state now' →
      recoverServiceCreditExecutions sha options' = .ok ⟨r.state, false, 0, 0⟩ := by
  obtain ⟨r, hr, hstate, hprepared, hbegun, htransitioned⟩ := recover_ok h
  have hexecutions : r.state.1.executions = c.1.executions.map (·.recovered now) := by
    rw [hstate]; rfl
  have hended : ∀ e ∈ r.state.1.executions, e.terminalClassification ≠ .NONE := by
    rw [hexecutions]
    intro e he
    obtain ⟨e', _, rfl⟩ := List.mem_map.mp he
    exact e'.recovered_ended now
  refine ⟨r, hr, ?_, hended, hprepared, hbegun, htransitioned, ?_, ?_,
    fun options' now' h' => recover_settled h' hended⟩
  · rw [hexecutions, List.forall₂_map_right_iff]
    exact List.forall₂_same.mpr fun e _ => afterRestart_recovered now e
  · rw [r.state.valid.fits.sealed_iff, c.valid.fits.sealed_iff, hexecutions, hbegun,
      List.countP_pos_iff]
    constructor
    · rintro ⟨e, he, hunknown⟩
      obtain ⟨e', he', rfl⟩ := List.mem_map.mp he
      exact (Execution.unknown_recovered.mp hunknown).imp (fun h => ⟨e', he', h⟩) fun h =>
        ⟨e', he', decide_eq_true h⟩
    · rintro (⟨e, he, hunknown⟩ | ⟨e, he, hbegun⟩)
      · exact ⟨_, List.mem_map_of_mem he, Execution.unknown_recovered.mpr (.inl hunknown)⟩
      · exact ⟨_, List.mem_map_of_mem he,
          Execution.unknown_recovered.mpr (.inr (of_decide_eq_true hbegun))⟩
  · intro hsealed
    rw [hstate]
    show c.1.recoveredGeneration now = _
    unfold State.recoveredGeneration
    split
    · exact sealedBy_of_sealed hsealed
    · rfl

/-! ### A recovery -/

/-- What a recovery has under each key. -/
def recoverField (c : Accepted sha) (now : NonnegativeInt) : String → Value
  | "state" => c.encode
  | "wallClockNowMs" => .num now.1
  | _ => .undefined

/-- Any accepted state can be recovered, at any time. -/
theorem recovers_written (c : Accepted sha) (now : NonnegativeInt) :
    Recovers sha (written (Order.given RECOVER_KEYS) (recoverField c now)) c now := by
  obtain ⟨get, hget, hfield⟩ :=
    exactDataObject_written (Order.given RECOVER_KEYS) (recoverField c now) .INVALID_INPUT
  refine ⟨get, hget, ?_, ?_⟩
  · rw [hfield "state" (by decide)]
    exact normalizeState_encode c
  · rw [hfield "wallClockNowMs" (by decide)]
    exact nonnegativeSafeInteger.decode_encode_self now

/-- The recovery of the state that the calls of the sample lead to, twice. -/
theorem restart_recovery_sample :
    let c := runCalls Sample.calls (Sample.contract .standard)
    ∃ r, recoverServiceCreditExecutions .standard
    (written (Order.given RECOVER_KEYS) (recoverField c ⟨5, by decide⟩)) = .ok r
      ∧ (∀ e ∈ r.state.1.executions, e.terminalClassification ≠ .NONE)
      ∧ recoverServiceCreditExecutions .standard
        (written (Order.given RECOVER_KEYS) (recoverField r.state ⟨9, by decide⟩))
          = .ok ⟨r.state, false, 0, 0⟩ := by
  obtain ⟨r, hr, _, hended, _, _, _, _, _, hagain⟩ := restart_recovery
    (recovers_written (runCalls Sample.calls (Sample.contract .standard)) ⟨5, by decide⟩)
  exact ⟨r, hr, hended, hagain _ _ (recovers_written r.state ⟨9, by decide⟩)⟩

end Contract
end ZenonX402
