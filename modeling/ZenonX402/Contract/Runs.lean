/-
# Runs of the execution contract

Every call is made on the state that the call before it gave back. Along such a
run an execution keeps its identity, starts at most once and is classified at
most once (`Execution.Later`), and each change has a call of the right kind
behind it (`Entered`). A generation that is sealed stays as it is, takes no
execution on and lets none start (`State.SealKept`).

Key definitions: `Execution.Later`, `Entered`, `State.SealKept`.
Key theorems: `Effect.later`, `Effect.entered`, `Effect.sealKept`, `first_classification_wins`,
`contract_closed`.
-/
import ZenonX402.Contract.Effects
import ZenonX402.Lib.Trace
import ZenonX402.Lib.Sha2

namespace ZenonX402
namespace Contract

open Js
open Credit (Identifier Commitment PositiveInt)

variable {sha : Sha256} {s s' : State} {input : String → Value} {operation : Operation}

/-! ### What an execution becomes -/

/-- What an execution is some calls later. -/
structure Execution.Later (e e' : Execution) : Prop where
  identity : e'.toExecutionIdentity = e.toExecutionIdentity
  started : e.fencePhase = .MAY_HAVE_STARTED → e'.fencePhase = .MAY_HAVE_STARTED
  classified : e.terminalClassification ≠ .NONE → e' = e

namespace Execution

variable {e e' e'' : Execution}

theorem Later.refl (e : Execution) : e.Later e := ⟨rfl, id, fun _ => rfl⟩

theorem Later.trans (h : e.Later e') (h' : e'.Later e'') : e.Later e'' where
  identity := h'.identity.trans h.identity
  started := fun hphase => h'.started (h.started hphase)
  classified := by
    intro hclass
    have heq := h.classified hclass
    subst heq
    exact h'.classified hclass

theorem Moves.later (h : e.Moves e') : e.Later e' where
  identity := h.identity
  started := by
    intro hphase
    cases h with
    | started => rfl
    | notInvoked | succeeded | unknown => exact hphase
  classified := fun hclass => absurd h.pending hclass

end Execution

/-- Every execution is there later. -/
def State.Later (s s' : State) : Prop := ∀ e ∈ s.executions, ∃ e' ∈ s'.executions, e.Later e'

theorem State.Later.refl (s : State) : s.Later s := fun e he => ⟨e, he, .refl e⟩

theorem State.Later.trans {s'' : State} (h : s.Later s') (h' : s'.Later s'') : s.Later s'' := by
  intro e he
  obtain ⟨e', he', hlater⟩ := h e he
  obtain ⟨e'', he'', hlater'⟩ := h' e' he'
  exact ⟨e'', he'', hlater.trans hlater'⟩

theorem later_of_moves {f : Execution → Execution} {g : Generation} (h : MovesAll f s.executions) :
    s.Later { s with generation := g, executions := s.executions.map f } := by
  intro e he
  refine ⟨f e, List.mem_map_of_mem he, ?_⟩
  rcases h e he with heq | hmoves
  · rw [heq]
    exact .refl e
  · exact hmoves.later

theorem Effect.later (h : Effect sha s input operation s') (hs : s.Valid sha) : s.Later s' := by
  let c : Accepted sha := ⟨s, admissible_iff.mpr hs⟩
  cases h with
  | unchanged => exact .refl s
  | prepared p es _ _ _ _ hes =>
    intro e he
    exact ⟨e, hes.mem_iff.mpr (List.mem_append_left _ he), .refl e⟩
  | fenced e now _ he _ hnone hphase _ =>
    exact later_of_moves (@movesAll_put sha c e _ he (Execution.moves_fenced hnone hphase now))
  | completed e commitment now g _ _ he _ hnone hphase _ =>
    exact later_of_moves (@movesAll_put sha c e _ he
      (Execution.moves_completed hnone hphase commitment now))
  | markedUnknown e reason he _ hnone hphase =>
    exact later_of_moves (@movesAll_put sha c e _ he (.unknown reason hnone hphase))
  | recovered now g _ => exact later_of_moves fun e _ => e.moves_recovered now

/-! ### What brings an execution about -/

/-- How a call with these arguments has made an execution of the state `s` what it is now. -/
inductive Entered (s : State) (input : String → Value) : Operation → Execution → Prop
  | prepared (e' : Execution) (hphase : e'.fencePhase = .PREPARED)
      (hnone : e'.terminalClassification = .NONE)
      (hnew : ∀ e ∈ s.executions, e.executionId ≠ e'.executionId) : Entered s input .prepare e'
  | started (e : Execution) (he : e ∈ s.executions) (hnone : e.terminalClassification = .NONE)
      (hphase : e.fencePhase = .PREPARED) : Entered s input .fence e.started
  | notInvoked (operation : Operation) (e : Execution) (reason : NoInvocationReason)
      (he : e ∈ s.executions) (hnone : e.terminalClassification = .NONE)
      (hphase : e.fencePhase = .PREPARED) :
      Entered s input operation (e.notInvoked reason)
  | succeeded (e : Execution) (resultCommitment : Commitment) (now : NonnegativeInt)
      (he : e ∈ s.executions) (hid : input "executionId" = .str e.executionId.1)
      (hcommitment : input "resultCommitment" = .str resultCommitment.1)
      (hnow : nonnegativeSafeInteger.decode (input "wallClockNowMs") = .ok now)
      (hwindow : e.wallClockStartMs.1 ≤ now.1 ∧ now.1 < e.wallClockDeadlineMs.1)
      (hnone : e.terminalClassification = .NONE) (hphase : e.fencePhase = .MAY_HAVE_STARTED) :
      Entered s input .complete (e.succeeded resultCommitment)
  | unknown (operation : Operation) (e : Execution) (reason : UncertaintyReason)
      (he : e ∈ s.executions) (hnone : e.terminalClassification = .NONE)
      (hphase : e.fencePhase = .MAY_HAVE_STARTED) :
      Entered s input operation (e.unknown reason)

/-- An execution in the place of another, or one that was there. -/
theorem mem_map_put {es : List Execution} {r e' : Execution} (h : e' ∈ es.map (put r)) :
    e' = r ∨ e' ∈ es := by
  obtain ⟨e, he, rfl⟩ := List.mem_map.mp h
  unfold put
  split
  · exact .inl rfl
  · exact .inr he

theorem Effect.entered (h : Effect sha s input operation s') :
    ∀ e' ∈ s'.executions, e' ∈ s.executions ∨ Entered s input operation e' := by
  intro e' he'
  cases h with
  | unchanged => exact .inl he'
  | prepared p es hp hkey hid hopen hes =>
    rcases List.mem_append.mp (hes.mem_iff.mp he') with he' | he'
    · exact .inl he'
    · rw [List.mem_singleton.mp he']
      exact .inr (.prepared _ rfl rfl hid)
  | fenced e now _ he _ hnone hphase _ =>
    rcases mem_map_put he' with rfl | he'
    · unfold Execution.fenced
      split
      · exact .inr (.notInvoked _ e _ he hnone hphase)
      · split
        · exact .inr (.notInvoked _ e _ he hnone hphase)
        · exact .inr (.started e he hnone hphase)
    · exact .inl he'
  | completed e commitment now g hcommitment hnow he hid hnone hphase _ =>
    rcases mem_map_put he' with rfl | he'
    · unfold Execution.completed
      split
      · exact .inr (.unknown _ e _ he hnone hphase)
      · rename_i hstart
        split
        · exact .inr (.unknown _ e _ he hnone hphase)
        · rename_i hdeadline
          exact .inr (.succeeded e commitment now he hid hcommitment hnow
            ⟨not_lt.mp hstart, not_le.mp hdeadline⟩
            hnone hphase)
    · exact .inl he'
  | markedUnknown e reason he _ hnone hphase =>
    rcases mem_map_put he' with rfl | he'
    · exact .inr (.unknown _ e _ he hnone hphase)
    · exact .inl he'
  | recovered now g _ =>
    obtain ⟨e, he, rfl⟩ := List.mem_map.mp he'
    show e.recovered now ∈ s.executions ∨ _
    unfold Execution.recovered
    by_cases hnone : e.terminalClassification = .NONE
    · rw [if_neg (not_not.mpr hnone)]
      cases hphase : e.fencePhase with
      | PREPARED => exact .inr (.notInvoked _ e _ he hnone hphase)
      | MAY_HAVE_STARTED => exact .inr (.unknown _ e _ he hnone hphase)
    · rw [if_pos hnone]
      exact .inl he

/-! ### What a seal prevents -/

/-- A sealed generation stays as it is: no execution is added and none starts. -/
def State.SealKept (s s' : State) : Prop := s.generation.state = .SEALED →
  s'.generation = s.generation ∧ ∀ e' ∈ s'.executions, ∃ e ∈ s.executions,
    e'.executionId = e.executionId ∧ e'.fencePhase = e.fencePhase

theorem State.SealKept.refl (s : State) : s.SealKept s :=
  fun _ => ⟨rfl, fun e he => ⟨e, he, rfl, rfl⟩⟩

theorem State.SealKept.trans {s'' : State} (h : s.SealKept s') (h' : s'.SealKept s'') :
    s.SealKept s'' := by
  intro hsealed
  obtain ⟨hgeneration, hexecutions⟩ := h hsealed
  obtain ⟨hgeneration', hexecutions'⟩ := h' (hgeneration ▸ hsealed)
  refine ⟨hgeneration'.trans hgeneration, fun e'' he'' => ?_⟩
  obtain ⟨e', he', hid', hphase'⟩ := hexecutions' e'' he''
  obtain ⟨e, he, hid, hphase⟩ := hexecutions e' he'
  exact ⟨e, he, hid'.trans hid, hphase'.trans hphase⟩

theorem Effect.sealKept (h : Effect sha s input operation s') : s.SealKept s' := by
  intro hsealed
  have hgeneration : s'.generation = s.generation := by
    have hsame {g : Generation} (hg : g = s.generation ∨ ∃ r, g = s.generation.sealedBy r) : g
        = s.generation := by
      rcases hg with hg | ⟨r, hg⟩
      · exact hg
      · exact hg.trans (sealedBy_of_sealed hsealed)
    cases h with
    | unchanged | prepared | fenced => rfl
    | completed _ _ _ g _ _ _ _ _ _ hg => exact hsame hg
    | markedUnknown => exact sealedBy_of_sealed hsealed
    | recovered _ g hg => exact hsame hg
  refine ⟨hgeneration, fun e' he' => ?_⟩
  rcases h.entered e' he' with he' | hentered
  · exact ⟨e', he', rfl, rfl⟩
  · cases hentered with
    | prepared =>
      cases h with
      | unchanged => exact ⟨e', he', rfl, rfl⟩
      | prepared _ _ _ _ _ hopen => exact absurd (hopen.symm.trans hsealed) nofun
    | started e he =>
      cases h with
      | unchanged => exact ⟨_, he', rfl, rfl⟩
      | fenced _ _ _ _ _ _ _ hopen => exact absurd (hopen.symm.trans hsealed) nofun
    | notInvoked _ e _ he | succeeded e _ _ he | unknown _ e _ he => exact ⟨e, he, rfl, rfl⟩

/-! ### Runs -/

theorem Call.next_effect (call : Call) (c : Accepted sha) : call.next c = c
    ∨ ∃ input, call.input c.encode = .ok input
    ∧ Effect sha c.1 input call.operation (call.next c).1 := by
  have hgives := call.run_gives (normalizeState_encode c)
  unfold Call.next
  cases hrun : call.run sha c.encode with
  | error code => exact .inl rfl
  | ok next =>
    rw [hrun] at hgives
    exact .inr hgives

/-- What holds of a step holds of a run, for a preorder on the states. -/
theorem run_relates {R : State → State → Prop} (refl : ∀ s, R s s)
    (trans : ∀ {a b c}, R a b → R b c → R a c)
    (hR : ∀ {s s' : State} {input operation}, s.Valid sha →
      Effect sha s input operation s' → R s s')
    {c c' : Accepted sha} {calls : List Call} (hrun : Run (CallStep sha) c calls c') :
    R c.1 c'.1 := by
  refine Run.relates (I := fun _ => True) (R := fun c c' : Accepted sha => R c.1 c'.1)
    (fun c => refl c.1) trans
    (fun _ _ _ _ _ => trivial) (fun c call c' _ hstep => ?_) hrun trivial
  rcases call.next_effect c with heq | ⟨input, _, heffect⟩
  · rw [← show call.next c = c' from hstep, heq]
    exact refl c.1
  · rw [← show call.next c = c' from hstep]
    exact hR c.valid heffect

/-- The state that a contract starts with. -/
def initial (sha : Sha256) (ledgerId : Identifier) (policy : Policy) (capacity : Capacity) :
    State :=
  ⟨ledgerId, policy, capacity, ⟨generationIdentity sha ledgerId policy capacity.1, .OPEN, none⟩, []⟩

theorem initial_valid (ledgerId : Identifier) (policy : Policy) (capacity : Capacity) :
    (initial sha ledgerId policy capacity).Valid sha where
  generationId := rfl
  size := by
    have hcapacity : 0 < capacity.1 ∧ capacity.1 ≤ 100000 := by simpa using capacity.2.2
    exact hcapacity.1.le
  execution := nofun
  sorted := .nil
  ids := .nil
  fits := ⟨iff_of_false nofun nofun, iff_of_false nofun nofun, nofun⟩

theorem create_ok {options : Value} {c : Accepted sha}
    (h : createServiceCreditExecutionContract sha options = .ok c) :
    c.1.executions = [] := by
  unfold createServiceCreditExecutionContract at h
  simp only [bind_ok] at h
  obtain ⟨input, _, policy, _, ledgerId, _, capacity, _, h⟩ := h
  have hinitial := normalizeState_of_valid (@initial_valid sha ledgerId policy capacity)
  obtain rfl := Except.ok.inj (hinitial.symm.trans h)
  rfl

/-- What a call on the state `c` has led to: nothing new, or executions that its operation brings
about. -/
def Call.Explains (sha : Sha256) (call : Call) (c c' : Accepted sha) : Prop :=
  c'.1.executions = c.1.executions ∨ ∃ input, call.input c.encode = .ok input
    ∧ ∀ e' ∈ c'.1.executions, e' ∈ c.1.executions ∨ Entered c.1 input call.operation e'

theorem CallStep.explains {c c' : Accepted sha} {call : Call} (h : CallStep sha c call c') :
    call.Explains sha c c' := by
  rw [← show call.next c = c' from h]
  rcases call.next_effect c with heq | ⟨input, hinput, heffect⟩
  · rw [heq]
    exact .inl rfl
  · exact .inr ⟨input, hinput, heffect.entered⟩

/-- Along every run from a new contract: no two executions have one request key
or one identifier; an execution keeps its identity to the end of the run, stays
started once it is, and does not change once it is classified; and what changes
it in a call is what the operation of the call is for. -/
theorem first_classification_wins {options : Value} {c₀ c : Accepted sha} {calls : List Call}
    (hcreate : createServiceCreditExecutionContract sha options = .ok c₀)
    (hrun : Run (CallStep sha) c₀ calls c) :
    c₀.1.executions = []
      ∧ (c.1.executions.map fun e => requestKey e.request).Nodup
      ∧ (c.1.executions.map fun e => e.executionId).Nodup
      ∧ ∀ before call after, calls = before ++ call :: after → ∃ m m',
      Run (CallStep sha) c₀ before m
        ∧ CallStep sha m call m' ∧ Run (CallStep sha) m' after c ∧ m.1.Later c.1
        ∧ call.Explains sha m m' := by
  refine ⟨create_ok hcreate, c.valid.requestKeys_nodup, c.valid.ids,
    fun before call after hcalls => ?_⟩
  subst hcalls
  obtain ⟨m, hbefore, hlater⟩ := hrun.split
  have hend := run_relates .refl .trans (fun hs heffect => heffect.later hs) hlater
  cases hlater with
  | cons hstep hafter => exact ⟨m, _, hbefore, hstep, hafter, hend, hstep.explains⟩

/-- A state that is accepted: no operation finds its result invalid, unless SHA-256 has a collision;
what an operation gives back is accepted and read back as it is; and the generation is sealed
exactly when some execution is unknown, by one that is, for good. -/
theorem contract_closed {v : Value} {c : Accepted sha}
    (hv : hydrateServiceCreditExecutionContract sha v = .ok c) :
    (∀ call : Call, call.Distinct sha v c.1 → call.run sha v ≠ .error .INVALID_STATE)
      ∧ (∀ (call : Call) c', call.run sha v = .ok c' →
        hydrateServiceCreditExecutionContract sha c'.encode = .ok c'
          ∧ c'.1.generation.Fits c'.1.executions
          ∧ c.1.SealKept c'.1)
      ∧ c.1.generation.Fits c.1.executions
      ∧ ∀ calls c', Run (CallStep sha) c calls c' → c'.1.generation.Fits c'.1.executions
        ∧ c.1.SealKept c'.1 := by
  refine ⟨fun call hdistinct hinvalid => ?_, fun call c' hok => ?_, c.valid.fits,
    fun calls c' hrun => ?_⟩
  · have hgives := call.run_gives hv
    rw [hinvalid] at hgives
    exact hgives rfl hdistinct
  · have hgives := call.run_gives hv
    rw [hok] at hgives
    obtain ⟨input, _, heffect⟩ := hgives
    exact ⟨normalizeState_encode c', c'.valid.fits, heffect.sealKept⟩
  · exact ⟨c'.valid.fits, run_relates .refl .trans (fun _ heffect => heffect.sealKept) hrun⟩

/-! ### A run -/

/-- Calls made one after the other. -/
def runCalls (calls : List Call) (c : Accepted sha) : Accepted sha :=
  calls.foldl (fun c call => call.next c) c

theorem run_runCalls :
    ∀ (calls : List Call) (c : Accepted sha), Run (CallStep sha) c calls (runCalls calls c)
  | [], c => .nil c
  | call :: calls, c => .cons rfl (run_runCalls calls (call.next c))

namespace Sample

def ledgerId : Identifier := ⟨"ledger-1", by decide⟩

def policy : Policy := ⟨⟨"policy-1", by decide⟩, ⟨1, by decide⟩, ⟨60000, by decide⟩⟩

def capacity : Capacity := ⟨4, by decide⟩

def digest : Commitment := ⟨"sha256:" ++ String.ofList (List.replicate 64 'a'), by decide⟩

def request : Request :=
  ⟨⟨⟨1, by decide⟩, ⟨"grant-1", by decide⟩, ⟨"request-1", by decide⟩, digest, ⟨"POST", by decide⟩,
    ⟨"route-1", by decide⟩, digest, ⟨"application/json", by decide⟩, ⟨5, by decide⟩,
    ⟨3, by decide⟩⟩, by decide⟩

def contract (sha : Sha256) : Accepted sha :=
  ⟨initial sha ledgerId policy capacity,
    admissible_iff.mpr (initial_valid ledgerId policy capacity)⟩

def field : String → Value
  | "ledgerId" => Credit.assertIdentifier.encode ledgerId
  | "policy" => policyCodec.encode policy
  | "capacity" => Contract.capacity.encode capacity
  | _ => .undefined

/-- The options of `createServiceCreditExecutionContract`. -/
def options : Value := written (Order.given CREATE_KEYS) field

/-- An execution is prepared, and a recovery finds it not invoked. -/
def calls : List Call := [
  ⟨.prepare, .obj [("state", .null), ("request", requestCodec.encode request),
    ("policy", policyCodec.encode policy), ("selectedDurationMs", .num 30000),
    ("wallClockStartMs", .num 1000)]⟩,
  ⟨.recover, .obj [("state", .null), ("wallClockNowMs", .num 2000)]⟩]

theorem create_options (sha : Sha256) :
    createServiceCreditExecutionContract sha options = .ok (contract sha) := by
  obtain ⟨get, hget, hfield⟩ :=
    exactDataObject_written (Order.given CREATE_KEYS) field .INVALID_INPUT
  simp only [CREATE_KEYS, List.forall_mem_cons] at hfield
  obtain ⟨hledger, hpolicy, hcapacity, -⟩ := hfield
  have hinitial := normalizeState_of_valid (@initial_valid sha ledgerId policy capacity)
  unfold createServiceCreditExecutionContract
  simp only [bind_ok, normalizePolicy, orFail_ok]
  refine ⟨get, hget, policy, ?_, ledgerId, ?_, capacity, ?_, hinitial⟩
  · rw [hpolicy]
    exact policyCodec.decode_encode_self policy
  · rw [hledger]
    exact Credit.assertIdentifier.decode_encode_self ledgerId
  · rw [hcapacity]
    exact Contract.capacity.decode_encode_self capacity

end Sample

/-- The run of the sample. -/
theorem first_classification_wins_sample :
    let c := runCalls Sample.calls (Sample.contract .standard)
    (Sample.contract .standard).1.executions = []
      ∧ (c.1.executions.map fun e => requestKey e.request).Nodup
      ∧ (c.1.executions.map fun e => e.executionId).Nodup
      ∧ ∀ before call after, Sample.calls = before ++ call :: after → ∃ m m',
        Run (CallStep .standard) (Sample.contract .standard) before m ∧ CallStep .standard m call m'
          ∧ Run (CallStep .standard) m' after c ∧ m.1.Later c.1 ∧ call.Explains .standard m m' :=
  first_classification_wins (Sample.create_options .standard)
    (run_runCalls Sample.calls (Sample.contract .standard))

/-- The state of the sample, handed in again. -/
theorem contract_closed_sample :
    let c := runCalls Sample.calls (Sample.contract .standard)
    (∀ call : Call, call.Distinct .standard c.encode c.1 → call.run .standard c.encode
      ≠ .error .INVALID_STATE)
      ∧ (∀ (call : Call) c', call.run .standard c.encode = .ok c' →
        hydrateServiceCreditExecutionContract .standard c'.encode = .ok c'
          ∧ c'.1.generation.Fits c'.1.executions ∧ c.1.SealKept c'.1)
      ∧ c.1.generation.Fits c.1.executions
      ∧ ∀ calls c', Run (CallStep .standard) c calls c' → c'.1.generation.Fits c'.1.executions
        ∧ c.1.SealKept c'.1 :=
  contract_closed (normalizeState_encode (runCalls Sample.calls (Sample.contract .standard)))

end Contract
end ZenonX402
