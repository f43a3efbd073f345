/-
# What the operations do

An operation that gives back a state either leaves it alone, or adds one
prepared execution, or moves executions that have not ended. `Effect` says
which, with the arguments it took from the call. On a state that
`normalizeState` accepts no operation finds its own result invalid, unless
SHA-256 gives a new execution the identifier of another (`Call.run_gives`).

Key definitions: `Effect`, `Recovery.Found`, `Call.Distinct`.
Key theorems: `Recovery.found`, `prepare_gives`, `fence_gives`, `complete_gives`, `recover_gives`,
`Call.run_gives`.
-/
import ZenonX402.Contract.Moves

namespace ZenonX402
namespace Contract

open Js
open Credit (Identifier Commitment)

variable {sha : Sha256} {s : State} {g : Generation}

/-! ### What each operation makes of an execution -/

namespace Execution

variable {e : Execution}

theorem moves_fenced (hnone : e.terminalClassification = .NONE) (hphase : e.fencePhase = .PREPARED)
    (now : NonnegativeInt) : e.Moves (e.fenced now) := by
  unfold fenced
  split
  · exact .notInvoked _ hnone hphase
  · split
    · exact .notInvoked _ hnone hphase
    · exact .started hnone hphase

theorem moves_completed (hnone : e.terminalClassification = .NONE)
    (hphase : e.fencePhase = .MAY_HAVE_STARTED) (c : Commitment) (now : NonnegativeInt) :
    e.Moves (e.completed c now) := by
  unfold completed
  split
  · exact .unknown _ hnone hphase
  · split
    · exact .unknown _ hnone hphase
    · exact .succeeded c hnone hphase

theorem fenced_known (hnone : e.terminalClassification = .NONE) (now : NonnegativeInt) :
    ¬ (e.fenced now).Unknown := by
  unfold fenced Unknown
  split
  · exact nofun
  · split
    · exact nofun
    · rw [show e.started.terminalClassification = e.terminalClassification from rfl, hnone]
      exact nofun

/-- What a recovery at this time makes of an execution. -/
def recovered (now : NonnegativeInt) (e : Execution) : Execution :=
  if e.terminalClassification ≠ .NONE then e
  else match e.fencePhase with
    | .PREPARED => e.notInvoked .RECOVERY_PREPARED
    | .MAY_HAVE_STARTED => e.unknown (recoveryReason e now)

theorem moves_recovered (now : NonnegativeInt) (e : Execution) :
    e.recovered now = e ∨ e.Moves (e.recovered now) := by
  unfold recovered
  by_cases hnone : e.terminalClassification = .NONE
  · rw [if_neg (not_not.mpr hnone)]
    cases hphase : e.fencePhase with
    | PREPARED => exact .inr (.notInvoked _ hnone hphase)
    | MAY_HAVE_STARTED => exact .inr (.unknown _ hnone hphase)
  · exact .inl (if_pos hnone)

end Execution

/-- What the recovery loop has found after the executions `es`. -/
structure Recovery.Found (now : NonnegativeInt) (es : List Execution) (r : Recovery) : Prop where
  executions : r.executions = es.map (·.recovered now)
  untriggered : r.trigger = none → ∀ e ∈ es, (e.recovered now).Unknown → e.Unknown
  triggered : ∀ t, r.trigger = some t → t ∈ es.map (·.recovered now) ∧ t.Unknown ∧ ∃ reason,
    t.uncertaintyReason = some reason

theorem Recovery.Found.next {now : NonnegativeInt} {es : List Execution} {r : Recovery}
    (h : r.Found now es) (e : Execution) : (r.next now e).Found now (es ++ [e]) := by
  have hmap : (es ++ [e]).map (·.recovered now) = es.map (·.recovered now)
      ++ [e.recovered now] := by
    rw [List.map_append, List.map_singleton]
  have hkeep {r' : Recovery} (hexecutions : r'.executions = r.executions ++ [e.recovered now])
      (htrigger : r'.trigger = r.trigger) (hknown : (e.recovered now).Unknown → e.Unknown) :
      r'.Found now (es ++ [e]) := by
    refine ⟨?_, fun hnone => ?_, fun t ht => ?_⟩
    · rw [hexecutions, h.executions, hmap]
    · rw [List.forall_mem_append]
      exact ⟨h.untriggered (htrigger ▸ hnone), List.forall_mem_singleton.mpr hknown⟩
    · obtain ⟨hmem, hunknown⟩ := h.triggered t (htrigger ▸ ht)
      rw [hmap]
      exact ⟨List.mem_append_left _ hmem, hunknown⟩
  unfold Recovery.next
  by_cases hnone : e.terminalClassification = .NONE
  · rw [if_neg (not_not.mpr hnone)]
    cases hphase : e.fencePhase with
    | PREPARED =>
      have hrec : e.recovered now = e.notInvoked .RECOVERY_PREPARED := by
        simp [Execution.recovered, hnone, hphase]
      apply hkeep
      · rw [hrec]
      · rfl
      · rw [hrec]
        exact nofun
    | MAY_HAVE_STARTED =>
      have hrec : e.recovered now = e.unknown (recoveryReason e now) := by
        simp [Execution.recovered, hnone, hphase]
      refine ⟨?_, fun hno => ?_, fun t ht => ?_⟩
      · rw [hmap, hrec, h.executions]
      · simp at hno
      · rw [hmap, hrec]
        change r.trigger.or (some (e.unknown (recoveryReason e now))) = some t at ht
        cases htrigger : r.trigger with
        | none =>
          rw [htrigger, Option.none_or, Option.some.injEq] at ht
          subst ht
          exact ⟨List.mem_append_right _ (List.mem_singleton_self _), rfl, _, rfl⟩
        | some t' =>
          rw [htrigger, Option.some_or, Option.some.injEq] at ht
          subst ht
          obtain ⟨hmem, hunknown⟩ := h.triggered t' htrigger
          exact ⟨List.mem_append_left _ hmem, hunknown⟩
  · have hrec : e.recovered now = e := if_pos hnone
    rw [if_pos hnone]
    apply hkeep
    · rw [hrec]
    · rfl
    · rw [hrec]
      exact id

/-- The loop, over all executions. -/
theorem Recovery.found (now : NonnegativeInt) (es : List Execution) :
    (es.foldl (Recovery.next now) ⟨0, 0, none, []⟩).Found now es := by
  have hloop : ∀ (rest done : List Execution) (r : Recovery), r.Found now done →
      (rest.foldl (Recovery.next now) r).Found now (done ++ rest) := by
    intro rest
    induction rest with
    | nil =>
      intro done r h
      rw [List.append_nil]
      exact h
    | cons e rest ih =>
      intro done r h
      have := ih (done ++ [e]) (r.next now e) (h.next e)
      rwa [List.append_assoc] at this
  exact hloop es [] _ ⟨rfl, fun _ => nofun, nofun⟩

/-! ### The effect of a call -/

/-- What an operation with these arguments has made of the state `s`. -/
inductive Effect (sha : Sha256) (s : State) (input : String → Value) : Operation → State → Prop
  | unchanged (operation : Operation) : Effect sha s input operation s
  | prepared (p : Preparation) (es : List Execution) (hp : preparation input = .ok p)
      (hkey : ∀ e ∈ s.executions, requestKey e.request ≠ requestKey p.request)
      (hid : ∀ e ∈ s.executions, e.executionId ≠ (p.execution sha s).executionId)
      (hopen : s.generation.state = .OPEN) (hes : es.Perm (s.executions ++ [p.execution sha s])) :
      Effect sha s input .prepare { s with executions := es }
  | fenced (e : Execution) (now : NonnegativeInt)
      (hnow : nonnegativeSafeInteger.decode (input "wallClockNowMs") = .ok now)
      (he : e ∈ s.executions) (hid : input "executionId" = .str e.executionId.1)
      (hnone : e.terminalClassification = .NONE) (hphase : e.fencePhase = .PREPARED)
      (hopen : s.generation.state = .OPEN) :
      Effect sha s input .fence { s with executions := s.executions.map (put (e.fenced now)) }
  | completed (e : Execution) (c : Commitment) (now : NonnegativeInt) (g : Generation)
      (hc : input "resultCommitment" = .str c.1)
      (hnow : nonnegativeSafeInteger.decode (input "wallClockNowMs") = .ok now)
      (he : e ∈ s.executions) (hid : input "executionId" = .str e.executionId.1)
      (hnone : e.terminalClassification = .NONE) (hphase : e.fencePhase = .MAY_HAVE_STARTED)
      (hg : g = s.generation ∨ ∃ r, g = s.generation.sealedBy r) :
      Effect sha s input .complete
      { s with generation := g, executions := s.executions.map (put (e.completed c now)) }
  | markedUnknown (e : Execution) (reason : UncertaintyReason) (he : e ∈ s.executions)
      (hid : input "executionId" = .str e.executionId.1) (hnone : e.terminalClassification = .NONE)
      (hphase : e.fencePhase = .MAY_HAVE_STARTED) :
      Effect sha s input .markUnknown { s with
        generation := s.generation.sealedBy (e.unknown reason)
        executions := s.executions.map (put (e.unknown reason)) }
  | recovered (now : NonnegativeInt) (g : Generation)
      (hg : g = s.generation ∨ ∃ r, g = s.generation.sealedBy r) :
      Effect sha s input .recover
      { s with generation := g, executions := s.executions.map (·.recovered now) }

theorem commitment_ok {v : Value} {c : Commitment} (h : Credit.assertCommitment.decode v = .ok c) :
    v = .str c.1 := by
  cases v with
  | str s =>
    simp only [Credit.assertCommitment, Codec.text] at h
    split at h
    · cases h
      rfl
    · cases h
  | _ => cases h

theorem gives_findExecution {β : Type} {c : Accepted sha} {v : Value}
    {f : Execution → Except Code β} {E : Code → Prop} {P : β → Prop} (hinput : E .INVALID_INPUT)
    (htransition : E .INVALID_TRANSITION)
    (h : ∀ e ∈ c.1.executions, v = .str e.executionId.1 → Gives (f e) E P) :
    Gives (findExecution c v >>= f) E P := by
  unfold findExecution
  rw [bind_assoc]
  refine gives_orFail hinput fun id hid => ?_
  rw [gives_orReject]
  refine ⟨fun _ => htransition, fun e he => ?_⟩
  obtain ⟨hmem, rfl⟩ := (find?_executionId c.valid.ids).mp he
  exact h e hmem (commitment_ok hid)

/-- The options carry the state `c`. -/
def Carries (names : List String) (options : Value) (c : Accepted sha) : Prop :=
  ∀ input, exactDataObject names options .INVALID_INPUT = .ok input →
  normalizeState sha (input "state") = .ok c

theorem prepared_of_ne {e : Execution} (h : ¬ e.fencePhase = .MAY_HAVE_STARTED) :
    e.fencePhase = .PREPARED := by
  cases hphase : e.fencePhase with
  | PREPARED => rfl
  | MAY_HAVE_STARTED => exact absurd hphase h

theorem open_of_ne {s : State} (h : ¬ s.generation.state = .SEALED) :
    s.generation.state = .OPEN := by
  cases hstate : s.generation.state with
  | OPEN => rfl
  | SEALED => exact absurd hstate h

/-- The reading and the search that an operation on one execution starts with are
behind it; what is left is to put the moved execution in its place. -/
theorem gives_replace {β : Type} {c : Accepted sha} {e r : Execution}
    {f : Accepted sha → Execution → Except Code β} {P : β → Prop} {E : Code → Prop}
    (he : e ∈ c.1.executions) (h : e.Moves r) (hid : g.generationId = c.1.generation.generationId)
    (hg : g.Fits (c.1.executions.map (put r)))
    (hf : ∀ next : Accepted sha,
      next.1 = { c.1 with generation := g, executions := c.1.executions.map (put r) } →
      Gives (f next r) E P) :
    Gives (do
      let next ← replaceExecution c r g
      let outcome ← executionOutcome next e.executionId
      f next outcome) E P := by
  obtain ⟨next, hnext, houtcome, heq⟩ := replaceExecution_ok he h hid hg
  rw [gives_of_ok hnext, gives_of_ok houtcome]
  exact hf next heq

/-- The execution that has moved is unknown now: the generation is sealed by it. -/
theorem fits_put_unknown {c : Accepted sha} {e r : Execution} (he : e ∈ c.1.executions)
    (h : e.Moves r) (hunknown : r.Unknown) {reason : UncertaintyReason}
    (hreason : r.uncertaintyReason = some reason) :
    (c.1.generation.sealedBy r).Fits (c.1.executions.map (put r)) := by
  have hsame := congrArg ExecutionIdentity.executionId h.identity
  refine c.valid.fits.marked (movesAll_put he h) ?_ hunknown hreason
  exact List.mem_map.mpr ⟨e, he, put_self hsame.symm⟩

/-- The execution that has moved is not unknown: the generation fits as it is. -/
theorem fits_put_known {c : Accepted sha} {e r : Execution} (he : e ∈ c.1.executions)
    (h : e.Moves r) (hknown : ¬ r.Unknown) : c.1.generation.Fits (c.1.executions.map (put r)) := by
  refine c.valid.fits.unmarked (movesAll_put he h) fun x hx hunknown => ?_
  unfold put at hunknown
  split at hunknown
  · exact absurd hunknown hknown
  · exact hunknown

theorem fence_gives {options : Value} {c : Accepted sha} (hstate : Carries FENCE_KEYS options c) :
    Gives (fenceServiceCreditExecution sha options) (· ≠ .INVALID_STATE) fun r =>
      ∃ input, exactDataObject FENCE_KEYS options .INVALID_INPUT = .ok input
        ∧ Effect sha c.1 input .fence r.state.1 := by
  refine gives_exactDataObject nofun fun input hinput => ?_
  rw [gives_of_ok (hstate input hinput)]
  refine gives_orFail nofun fun now hnow => ?_
  refine gives_findExecution nofun nofun fun e he hid => ?_
  have hsame : ∃ input, exactDataObject FENCE_KEYS options .INVALID_INPUT = .ok input
      ∧ Effect sha c.1 input .fence c.1 := ⟨input, hinput, .unchanged _⟩
  rw [gives_ite, gives_ite, gives_rejectIf]
  refine ⟨fun _ => hsame, fun hnone => ⟨fun _ => hsame, fun hphase => ⟨nofun, fun hopen => ?_⟩⟩⟩
  have hnone : e.terminalClassification = .NONE := not_not.mp hnone
  have hphase := prepared_of_ne hphase
  have hmoves := Execution.moves_fenced hnone hphase now
  refine gives_replace he hmoves rfl (fits_put_known he hmoves (Execution.fenced_known hnone now))
    fun next heq => ?_
  refine ⟨input, hinput, ?_⟩
  show Effect sha c.1 input .fence next.1
  rw [heq]
  exact .fenced e now hnow he hid hnone hphase (open_of_ne hopen)

theorem wallClockOrNull_ok {v : Value} {now : NonnegativeInt}
    (h : wallClockOrNull.decode v = .ok (some now)) :
    nonnegativeSafeInteger.decode v = .ok now := by
  simp only [wallClockOrNull, Codec.nullable] at h
  split at h
  · cases h
  · cases hv : nonnegativeSafeInteger.decode v with
    | error e =>
      rw [hv] at h
      cases h
    | ok n =>
      rw [hv] at h
      cases h
      rfl

theorem started_of_not {e : Execution}
    (h : ¬ (e.terminalClassification ≠ .NONE ∨ e.fencePhase ≠ .MAY_HAVE_STARTED)) :
    e.terminalClassification = .NONE ∧ e.fencePhase = .MAY_HAVE_STARTED := by
  rw [not_or, not_not, not_not] at h
  exact h

theorem complete_gives {options : Value} {c : Accepted sha}
    (hstate : Carries COMPLETE_KEYS options c) :
    Gives (completeServiceCreditExecution sha options) (· ≠ .INVALID_STATE) fun r =>
      ∃ input, exactDataObject COMPLETE_KEYS options .INVALID_INPUT = .ok input
        ∧ Effect sha c.1 input .complete r.state.1 := by
  refine gives_exactDataObject nofun fun input hinput => ?_
  rw [gives_of_ok (hstate input hinput)]
  refine gives_orFail nofun fun commitment hcommitment => ?_
  refine gives_orFail nofun fun clock hclock => ?_
  refine gives_findExecution nofun nofun fun e he hid => ?_
  have hsame : ∃ input, exactDataObject COMPLETE_KEYS options .INVALID_INPUT = .ok input
      ∧ Effect sha c.1 input .complete c.1 := ⟨input, hinput, .unchanged _⟩
  rw [gives_ite, gives_rejectIf, gives_ite, gives_rejectIf]
  refine ⟨fun _ => ⟨nofun, fun _ => hsame⟩,
    fun _ => ⟨fun _ => hsame, fun _ => ⟨nofun, fun hstarted => ?_⟩⟩⟩
  obtain ⟨hnone, hphase⟩ := started_of_not hstarted
  rw [gives_orReject]
  refine ⟨nofun, fun now hnow => ?_⟩
  have hnow := wallClockOrNull_ok (hnow ▸ hclock)
  have hmoves := Execution.moves_completed hnone hphase commitment now
  have hgid : e.generationId = c.1.generation.generationId := (c.valid.execution e he).generation
  have hreplacement : (e.completed commitment now).generationId = c.1.generation.generationId :=
    (congrArg ExecutionIdentity.generationId hmoves.identity).trans hgid
  by_cases hunknown : (e.completed commitment now).terminalClassification = .OUTCOME_UNKNOWN
  · obtain ⟨reason, hreason⟩ : ∃ reason, (e.completed commitment now).uncertaintyReason
        = some reason := by
      have hconsistent := hmoves.consistent (c.valid.execution e he).consistent
      simp only [Execution.consistent, hunknown, Bool.and_eq_true] at hconsistent
      exact Option.isSome_iff_exists.mp hconsistent.2
    simp only [if_pos hunknown]
    refine gives_replace he hmoves (sealedBy_generationId hreplacement)
      (fits_put_unknown he hmoves hunknown hreason)
      fun next heq => ⟨input, hinput, ?_⟩
    show Effect sha c.1 input .complete next.1
    rw [heq]
    exact .completed e commitment now _ (commitment_ok hcommitment) hnow he hid hnone hphase
      (.inr ⟨_, rfl⟩)
  · simp only [if_neg hunknown]
    refine gives_replace he hmoves rfl (fits_put_known he hmoves hunknown) fun next heq =>
      ⟨input, hinput, ?_⟩
    show Effect sha c.1 input .complete next.1
    rw [heq]
    exact .completed e commitment now _ (commitment_ok hcommitment) hnow he hid hnone
      hphase (.inl rfl)

theorem markUnknown_gives {options : Value} {c : Accepted sha}
    (hstate : Carries UNKNOWN_KEYS options c) :
    Gives (markServiceCreditExecutionUnknown sha options) (· ≠ .INVALID_STATE) fun r =>
      ∃ input, exactDataObject UNKNOWN_KEYS options .INVALID_INPUT = .ok input
        ∧ Effect sha c.1 input .markUnknown r.state.1 := by
  refine gives_exactDataObject nofun fun input hinput => ?_
  rw [gives_of_ok (hstate input hinput)]
  refine gives_orFail nofun fun reason _ => ?_
  refine gives_findExecution nofun nofun fun e he hid => ?_
  have hsame : ∃ input, exactDataObject UNKNOWN_KEYS options .INVALID_INPUT = .ok input
      ∧ Effect sha c.1 input .markUnknown c.1 := ⟨input, hinput, .unchanged _⟩
  rw [gives_ite, gives_ite, gives_rejectIf, gives_rejectIf]
  refine ⟨fun _ => hsame,
    fun _ => ⟨fun _ => ⟨nofun, fun _ => hsame⟩, fun _ => ⟨nofun, fun hstarted => ?_⟩⟩⟩
  obtain ⟨hnone, hphase⟩ := started_of_not hstarted
  have hmoves : e.Moves (e.unknown reason.1) := .unknown _ hnone hphase
  have hgid : e.generationId = c.1.generation.generationId := (c.valid.execution e he).generation
  refine gives_replace he hmoves (sealedBy_generationId hgid) (fits_put_unknown he hmoves rfl rfl)
    fun next heq => ⟨input, hinput, ?_⟩
  show Effect sha c.1 input .markUnknown next.1
  rw [heq]
  exact .markedUnknown e reason.1 he hid hnone hphase

theorem recover_gives {options : Value} {c : Accepted sha}
    (hstate : Carries RECOVER_KEYS options c) :
    Gives (recoverServiceCreditExecutions sha options) (· ≠ .INVALID_STATE) fun r =>
      ∃ input, exactDataObject RECOVER_KEYS options .INVALID_INPUT = .ok input
        ∧ Effect sha c.1 input .recover r.state.1 := by
  refine gives_exactDataObject nofun fun input hinput => ?_
  rw [gives_of_ok (hstate input hinput)]
  refine gives_orFail nofun fun now hnow => ?_
  have hfound := Recovery.found now c.1.executions
  generalize c.1.executions.foldl (Recovery.next now) ⟨0, 0, none, []⟩ = r at hfound
  show Gives (if r.noInvocationCount = 0 ∧ r.outcomeUnknownCount = 0 then _ else _) _ _
  rw [gives_ite]
  refine ⟨fun _ => ⟨input, hinput, .unchanged _⟩, fun _ => ?_⟩
  have hmoves : MovesAll (·.recovered now) c.1.executions := fun e _ => e.moves_recovered now
  rw [hfound.executions]
  cases htrigger : r.trigger with
  | none =>
    obtain ⟨next, hnext, heq⟩ :=
      makeState_moved hmoves rfl (c.valid.fits.unmarked hmoves (hfound.untriggered htrigger))
    rw [gives_of_ok hnext]
    refine ⟨input, hinput, ?_⟩
    show Effect sha c.1 input .recover next.1
    rw [heq]
    exact .recovered now _ (.inl rfl)
  | some t =>
    obtain ⟨hmem, hunknown, reason, hreason⟩ := hfound.triggered t htrigger
    obtain ⟨e, he, rfl⟩ := List.mem_map.mp hmem
    have hgid : (e.recovered now).generationId = c.1.generation.generationId :=
      (congrArg ExecutionIdentity.generationId (hmoves.identity he)).trans
      (c.valid.execution e he).generation
    obtain ⟨next, hnext, heq⟩ := makeState_moved hmoves (sealedBy_generationId hgid)
      (c.valid.fits.marked hmoves hmem hunknown hreason)
    rw [gives_of_ok hnext]
    refine ⟨input, hinput, ?_⟩
    show Effect sha c.1 input .recover next.1
    rw [heq]
    exact .recovered now _ (.inr ⟨_, rfl⟩)

/-! ### Prepare -/

theorem preparation_gives (input : String → Value) :
    Gives (preparation input) (· = .INVALID_INPUT) fun p =>
    p.selectedDurationMs.1 ≤ p.policy.maxDurationMs.1
      ∧ add p.wallClockStartMs.1 p.selectedDurationMs.1 = p.wallClockDeadlineMs.1 := by
  refine gives_orFail rfl fun request _ => gives_orFail rfl fun policy _ => gives_orFail rfl
    fun duration _ => ?_
  rw [gives_rejectIf]
  refine ⟨fun _ => rfl, fun hduration => ?_⟩
  refine gives_orFail rfl fun start _ => gives_orFail rfl fun deadline hdeadline =>
    ⟨not_lt.mp hduration, ?_⟩
  have hsame := nonnegativeSafeInteger.same_of_decode _ _ hdeadline
  exact (Value.num.inj hsame).symm

/-- The text that the identifier of the new execution is the digest of. -/
def Preparation.text (s : State) (p : Preparation) : String :=
  executionText s.ledgerId s.generation.generationId p.request p.policy p.selectedDurationMs
  p.wallClockStartMs
    p.wallClockDeadlineMs

/-- The text that the identifier of an execution is the digest of. -/
def Execution.text (s : State) (e : Execution) : String :=
  executionText s.ledgerId s.generation.generationId e.request e.policy e.selectedDurationMs
  e.wallClockStartMs
    e.wallClockDeadlineMs

/-- SHA-256 has a collision between the new execution and one that is there. -/
def Preparation.Collides (sha : Sha256) (s : State) (p : Preparation) : Prop :=
  ∃ e ∈ s.executions, sha.hex (p.text s) = sha.hex (e.text s) ∧ p.text s ≠ e.text s

theorem digest_inj {text text' : String} (h : digest sha text = digest sha text') :
    sha.hex text = sha.hex text' :=
  (String.append_right_inj _).mp (congrArg Subtype.val h)

/-- Where a new execution gets the identifier of another, SHA-256 has a collision. -/
theorem Preparation.collides {p : Preparation} (hs : s.Valid sha)
    (hkey : ∀ e ∈ s.executions, requestKey e.request ≠ requestKey p.request) {e : Execution}
    (he : e ∈ s.executions) (hid : e.executionId = (p.execution sha s).executionId) :
    p.Collides sha s := by
  have hdigest : digest sha (e.text s) = digest sha (p.text s) :=
    (hs.execution e he).executionId.symm.trans hid
  refine ⟨e, he, (digest_inj hdigest).symm, fun htext => ?_⟩
  exact hkey e he (congrArg requestKey (executionText_inj htext).1.symm)

theorem Preparation.valid {p : Preparation} (hpolicy : p.policy = s.policy)
    (hduration : p.selectedDurationMs.1 ≤ p.policy.maxDurationMs.1)
    (hdeadline : add p.wallClockStartMs.1 p.selectedDurationMs.1 = p.wallClockDeadlineMs.1) :
    (p.execution sha s).Valid sha s.ledgerId s.generation.generationId s.policy where
  generation := rfl
  policy := hpolicy
  duration := hpolicy ▸ hduration
  deadline := hdeadline
  executionId := rfl
  consistent := rfl

theorem prepare_gives {options : Value} {c : Accepted sha}
    (hstate : Carries PREPARE_KEYS options c) :
    Gives (prepareServiceCreditExecution sha options)
      (fun code => code = .INVALID_STATE → ∃ input p,
        exactDataObject PREPARE_KEYS options .INVALID_INPUT = .ok input
        ∧ preparation input = .ok p ∧ p.Collides sha c.1)
      fun r => ∃ input, exactDataObject PREPARE_KEYS options .INVALID_INPUT = .ok input
        ∧ Effect sha c.1 input .prepare r.state.1 := by
  refine gives_exactDataObject nofun fun input hinput => ?_
  rw [gives_of_ok (hstate input hinput), gives_bind]
  have hpreparation := preparation_gives input
  refine ⟨fun code hcode => ?_, fun p hp => ?_⟩
  · rw [hcode] at hpreparation
    rw [show code = .INVALID_INPUT from hpreparation]
    exact nofun
  rw [hp] at hpreparation
  obtain ⟨hduration, hdeadline⟩ := hpreparation
  cases hfind : c.1.executions.find? fun e =>
    decide (requestKey e.request = requestKey p.request) with
  | some existing =>
    simp only
    rw [gives_rejectIf]
    exact ⟨fun _ => nofun, fun _ => ⟨input, hinput, .unchanged _⟩⟩
  | none =>
    have hkey : ∀ e ∈ c.1.executions, requestKey e.request ≠ requestKey p.request := by
      simpa using List.find?_eq_none.mp hfind
    simp only [gives_rejectIf]
    refine ⟨fun _ => nofun,
      fun hpolicy => ⟨fun _ => nofun, fun hopen => ⟨fun _ => nofun, fun hroom => ?_⟩⟩⟩
    rw [Bool.not_eq_false, samePolicy_iff] at hpolicy
    let x := p.execution sha c.1
    have hx := @Preparation.valid sha c.1 p hpolicy hduration hdeadline
    by_cases hid : ∀ e ∈ c.1.executions, e.executionId ≠ x.executionId
    · have hvalid := c.valid.added hx nofun (not_le.mp hroom) hkey hid
      have hperm := List.perm_insertionSort (fun a b => compareExecution a b ≤ 0)
        (c.1.executions ++ [x])
      rw [gives_of_ok (makeState_ok hvalid rfl)]
      have hmem : x ∈ (c.1.executions ++ [x]).insertionSort fun a b => compareExecution a b ≤ 0 :=
        hperm.mem_iff.mpr (List.mem_append_right _ (List.mem_singleton_self _))
      rw [gives_of_ok (@executionOutcome_of_mem sha ⟨_, admissible_iff.mpr hvalid⟩ x hmem)]
      exact ⟨input, hinput, .prepared p _ hp hkey hid (open_of_ne hopen) hperm⟩
    · obtain ⟨e, he, hsame⟩ : ∃ e ∈ c.1.executions, e.executionId = x.executionId := by
        simpa using hid
      have hcollides := Preparation.collides c.valid hkey he hsame
      rw [gives_bind]
      refine ⟨fun code _ _ => ⟨input, p, hinput, hp, hcollides⟩, fun next hnext => ?_⟩
      -- two executions with one identifier are refused
      have hvalid : ¬ State.Valid sha { c.1 with
          executions := (c.1.executions ++ [x]).insertionSort fun a b =>
            compareExecution a b ≤ 0 } := by
        intro h
        have hperm := List.perm_insertionSort (fun a b => compareExecution a b ≤ 0)
          (c.1.executions ++ [x])
        have hids := h.ids
        rw [(hperm.map _).nodup_iff, List.map_append, List.nodup_append] at hids
        exact hids.2.2 _ (List.mem_map_of_mem he) _
          (List.mem_map_of_mem (List.mem_singleton_self x)) hsame
      have hrefused : makeState c (c.1.executions ++ [x]) c.1.generation = .error .INVALID_STATE :=
        normalizeState_invalid hvalid
      rw [hrefused] at hnext
      cases hnext

/-! ### Calls -/

/-- The keys of the options of an operation. -/
def Operation.keys : Operation → List String
  | .prepare => PREPARE_KEYS
  | .fence => FENCE_KEYS
  | .complete => COMPLETE_KEYS
  | .markUnknown => UNKNOWN_KEYS
  | .recover => RECOVER_KEYS

/-- The arguments of a call on a state. -/
def Call.input (call : Call) (state : Value) : Except Code (String → Value) :=
  exactDataObject call.operation.keys (withState state call.options) .INVALID_INPUT

theorem lookup_withState {state : Value} :
    ∀ {fs : List (String × Value)}, "state" ∈ fs.map Prod.fst →
    (fs.map fun f => if f.1 = "state" then ("state", state) else f).lookup "state" = some state
  | [], h => absurd h List.not_mem_nil
  | (k, v) :: fs, h => by
    rw [List.map_cons, List.lookup_cons]
    by_cases hk : k = "state"
    · simp [hk]
    · have hrest : "state" ∈ fs.map Prod.fst :=
  (List.mem_cons.mp h).resolve_left fun he => hk he.symm
      have hne : ("state" == k) = false := by simpa using fun he : "state" = k => hk he.symm
      simp only [hk, if_false, hne]
      exact lookup_withState hrest

/-- The state under `state` is the one at hand. -/
theorem exactDataObject_withState {names : List String} {state v : Value}
    {input : String → Value} {code : Code} (hmem : "state" ∈ names)
    (h : exactDataObject names (withState state v) code = .ok input) :
    input "state" = state := by
  unfold exactDataObject at h
  obtain ⟨⟨order, get⟩, hfields, hget⟩ := bind_ok.mp h
  rw [orReject_ok] at hfields
  obtain rfl := Except.ok.inj hget
  cases v with
  | obj fs =>
    simp only [withState, fields, Option.dite_none_right_eq_some, Option.some.injEq,
      Prod.mk.injEq] at hfields
    obtain ⟨hperm, -, rfl⟩ := hfields
    have hkeys : "state" ∈ fs.map Prod.fst := by
      have hin := hperm.mem_iff.mpr hmem
      obtain ⟨f, hf, hfst⟩ := List.mem_map.mp hin
      obtain ⟨f', hf', rfl⟩ := List.mem_map.mp hf
      split at hfst
      · rename_i heq
        exact List.mem_map.mpr ⟨f', hf', heq⟩
      · exact List.mem_map.mpr ⟨f', hf', hfst⟩
    show (List.lookup "state" _).getD _ = _
    rw [lookup_withState hkeys, Option.getD_some]
  | _ => simp [withState, fields] at hfields

/-- SHA-256 has no collision between the execution that the call prepares, if it does, and one that
is there. -/
def Call.Distinct (sha : Sha256) (call : Call) (state : Value) (s : State) : Prop :=
  call.operation = .prepare → ∀ input p, call.input state = .ok input → preparation input = .ok p →
    ¬ p.Collides sha s

/-- What a call on a state that is accepted ends in. -/
theorem Call.run_gives {v : Value} {c : Accepted sha} (hv : normalizeState sha v = .ok c)
    (call : Call) :
    Gives (call.run sha v)
    (fun code => code = .INVALID_STATE → ¬ call.Distinct sha v c.1) fun next =>
      ∃ input, call.input v = .ok input ∧ Effect sha c.1 input call.operation next.1 := by
  obtain ⟨operation, options⟩ := call
  have hcarries : Carries operation.keys (withState v options) c := by
    intro input hinput
    rw [exactDataObject_withState (by cases operation <;> decide) hinput]
    exact hv
  unfold Call.run Call.input
  cases operation with
  | prepare =>
    rw [gives_map]
    refine (prepare_gives hcarries).mono (fun code hcode hinvalid hdistinct => ?_) fun _ h => h
    obtain ⟨input, p, hinput, hp, hcollides⟩ := hcode hinvalid
    exact hdistinct rfl input p hinput hp hcollides
  | fence =>
    rw [gives_map]
    exact (fence_gives hcarries).mono (fun code hcode hinvalid => absurd hinvalid hcode)
      fun _ h => h
  | complete =>
    rw [gives_map]
    exact (complete_gives hcarries).mono (fun code hcode hinvalid => absurd hinvalid hcode)
      fun _ h => h
  | markUnknown =>
    rw [gives_map]
    exact (markUnknown_gives hcarries).mono (fun code hcode hinvalid => absurd hinvalid hcode)
      fun _ h => h
  | recover =>
    rw [gives_map]
    exact (recover_gives hcarries).mono (fun code hcode hinvalid => absurd hinvalid hcode)
      fun _ h => h

end Contract
end ZenonX402
