/-
# The state of an execution contract

A contract's state is its policy and capacity, a generation that is open or
sealed, and its executions in the order of their requests. `normalizeState`
checks a state that is handed in, and every state an operation returns goes
through it again: an `Accepted` state is one that it accepts. `State.Valid` says
the same without the order in which the checks are made.

Key definitions: `State`, `State.admissible`, `Accepted`, `normalizeState`, `makeState`,
`State.Valid`.
Key theorems: `inOrder_iff`, `admissible_iff`, `normalizeState_encode`, `makeState_ok`.
-/
import ZenonX402.Contract.Records

namespace ZenonX402
namespace Contract

open Js
open Credit (Identifier Commitment Rejection)

/-- `capacity`, at most `MAX_EXECUTIONS`. -/
abbrev Capacity := {n : Int // n.natAbs ≤ 9007199254740991 ∧ decide (0 < n ∧ n ≤ 100000) = true}

def capacity : Codec Rejection Capacity :=
  .integer (fun n => decide (0 < n ∧ n ≤ 100000)) .INVALID_INPUT

structure State where
  ledgerId : Identifier
  policy : Policy
  capacity : Capacity
  generation : Generation
  executions : List Execution
  deriving DecidableEq

def stateCodec : Codec Rejection State :=
  (object (.const "contractVersion" (.constNum 1 .INVALID_INPUT)
    (.cons "ledgerId" Credit.assertIdentifier
    (.cons "policy" policyCodec
    (.cons "capacity" capacity
    (.cons "generation" generationCodec
    (.cons "executions" (.list executionCodec .INVALID_INPUT) .nil))))))
    Rejection.INVALID_INPUT).equiv
    { toFun := fun (a, b, c, d, e, _) => ⟨a, b, c, d, e⟩
      invFun := fun s => (s.ledgerId, s.policy, s.capacity, s.generation, s.executions, ())
      left_inv := fun _ => rfl
      right_inv := fun _ => rfl }

/-! ### The checks -/

def compareExecution (left right : Execution) : Int :=
  let leftKey := requestKey left.request
  let rightKey := requestKey right.request
  if leftKey < rightKey then -1 else if rightKey < leftKey then 1 else 0

/-- The loop over the executions, with the keys and identifiers seen so far and the execution
before. -/
def inOrder (requestKeys : List String) (executionIds : List Commitment)
    (prior : Option Execution) :
    List Execution → Bool
  | [] => true
  | execution :: rest =>
    let key := requestKey execution.request
    if key ∈ requestKeys ∨ execution.executionId ∈ executionIds
        ∨ ∃ p ∈ prior, 0 ≤ compareExecution p execution then false
    else inOrder (key :: requestKeys) (execution.executionId :: executionIds) (some execution) rest

/-- The seal is there exactly in a sealed generation. -/
def Generation.consistent (g : Generation) : Bool := match g.state with
  | .OPEN => g.sealed.isNone
  | .SEALED => g.sealed.isSome

def unknownCount (executions : List Execution) : Nat :=
  executions.countP fun e => decide (e.terminalClassification = .OUTCOME_UNKNOWN)

/-- The execution that a seal names is unknown for the reason of the seal. -/
def triggered (executions : List Execution) : Option Seal → Bool
  | none => true
  | some s => match executions.find? fun e => decide (e.executionId = s.executionId) with
    | none => false
    | some trigger => decide (trigger.terminalClassification = .OUTCOME_UNKNOWN
        ∧ trigger.uncertaintyReason = some s.reason)

/-- `normalizeState`, after the shapes of the fields. -/
def State.admissible (sha : Sha256) (s : State) : Bool :=
  let expectedGenerationId := generationIdentity sha s.ledgerId s.policy s.capacity.1
  decide (s.generation.generationId = expectedGenerationId)
    && s.generation.consistent
    && decide ((s.executions.length : Int) ≤ s.capacity.1)
    && s.executions.all (fun e => e.admissible sha s.ledgerId expectedGenerationId s.policy)
    && inOrder [] [] none s.executions
    && (if unknownCount s.executions = 0 then decide (s.generation.state = .OPEN)
        else decide (s.generation.state = .SEALED))
    && triggered s.executions s.generation.sealed

/-- A state that `normalizeState` accepts. -/
abbrev Accepted (sha : Sha256) := {s : State // s.admissible sha = true}

def acceptedCodec (sha : Sha256) : Codec Rejection (Accepted sha) :=
  stateCodec.refine (State.admissible sha) .INVALID_INPUT

def normalizeState (sha : Sha256) (value : Value) : Except Code (Accepted sha) :=
  orFail ((acceptedCodec sha).decode value) .INVALID_STATE

instance : DecidableRel fun a b : Execution => compareExecution a b ≤ 0 := fun _ _ => inferInstance

/-- `makeState`; `sortedCopy` sorts stably. -/
def makeState {sha : Sha256} (state : Accepted sha) (executions : List Execution)
    (generation : Generation) :
    Except Code (Accepted sha) :=
  normalizeState sha (stateCodec.encode { state.1 with
    generation := generation
    executions := executions.insertionSort fun a b => compareExecution a b ≤ 0 })

/-! ### What the checks establish -/

variable {sha : Sha256}

theorem compareExecution_nonneg {a b : Execution} :
    0 ≤ compareExecution a b ↔ ¬ requestKey a.request < requestKey b.request := by
  unfold compareExecution
  by_cases h : requestKey a.request < requestKey b.request
  · simp [h]
  · by_cases h' : requestKey b.request < requestKey a.request
    · simp [h, h']
    · simp [h, h']

/-- The executions that pass the loop come in strict order of their requests,
after the one before them, and with identifiers of their own. -/
theorem inOrder_iff : ∀ {keys : List String} {ids : List Commitment} {prior : Option Execution}
    {es : List Execution}, (∀ k ∈ keys, ∃ p ∈ prior, k ≤ requestKey p.request) →
    (inOrder keys ids prior es = true ↔
      (es.Pairwise fun a b => requestKey a.request < requestKey b.request)
        ∧ (∀ p ∈ prior, ∀ e ∈ es, requestKey p.request < requestKey e.request)
        ∧ (es.map (·.executionId)).Nodup ∧ ∀ e ∈ es, e.executionId ∉ ids)
  | keys, ids, prior, [], _ => by simp [inOrder]
  | keys, ids, prior, e :: es, hkeys => by
    have hnext : ∀ k ∈ requestKey e.request :: keys,
        (∀ p ∈ prior, requestKey p.request < requestKey e.request) →
        ∃ p ∈ some e, k ≤ requestKey p.request := by
      intro k hk hprior
      refine ⟨e, rfl, ?_⟩
      rcases List.mem_cons.mp hk with rfl | hk
      · exact le_rfl
      · obtain ⟨p, hp, hle⟩ := hkeys k hk
        exact hle.trans (hprior p hp).le
    rw [inOrder]
    by_cases hbad : requestKey e.request ∈ keys ∨ e.executionId ∈ ids ∨ ∃ p ∈ prior,
      0 ≤ compareExecution p e
    · rw [if_pos hbad]
      refine ⟨fun h => (by cases h), fun ⟨_, hprior, _, hids⟩ => ?_⟩
      have hlt := fun p hp => hprior p hp e List.mem_cons_self
      rcases hbad with hkey | hid | ⟨p, hp, hle⟩
      · obtain ⟨p, hp, hle⟩ := hkeys _ hkey
        exact absurd (hlt p hp) (not_lt.mpr hle)
      · exact absurd hid (hids e List.mem_cons_self)
      · exact absurd (hlt p hp) (compareExecution_nonneg.mp hle)
    · rw [if_neg hbad]
      obtain ⟨hkey, hid, hle⟩ := not_or.mp hbad |>.imp_right not_or.mp
      have hprior : ∀ p ∈ prior, requestKey p.request < requestKey e.request := fun p hp =>
        not_not.mp fun hlt => hle ⟨p, hp, compareExecution_nonneg.mpr hlt⟩
      rw [inOrder_iff fun k hk => hnext k hk hprior]
      simp only [List.pairwise_cons, List.map_cons, List.nodup_cons, List.mem_cons,
        forall_eq_or_imp, not_or, Option.mem_def, Option.some.injEq, forall_eq', List.mem_map,
        not_exists, not_and]
      constructor
      · rintro ⟨hsorted, hafter, hnodup, hfresh⟩
        refine ⟨⟨hafter, hsorted⟩,
          fun p hp => ⟨hprior p hp, fun e' he' => (hprior p hp).trans (hafter e' he')⟩,
          ⟨fun e' he' => (hfresh e' he').1, hnodup⟩, hid, fun e' he' => (hfresh e' he').2⟩
      · rintro ⟨⟨hafter, hsorted⟩, _, ⟨hnot, hnodup⟩, _, hids⟩
        exact ⟨hsorted, hafter, hnodup, fun e' he' => ⟨hnot e' he', hids e' he'⟩⟩

/-- What the checks of `normalizeExecution` say. -/
structure Execution.Valid (sha : Sha256) (ledgerId : Identifier) (generationId : Commitment)
    (rootPolicy : Policy) (e : Execution) : Prop where
  generation : e.generationId = generationId
  policy : e.policy = rootPolicy
  duration : e.selectedDurationMs.1 ≤ rootPolicy.maxDurationMs.1
  deadline : add e.wallClockStartMs.1 e.selectedDurationMs.1 = e.wallClockDeadlineMs.1
  executionId : e.executionId = executionIdentity sha ledgerId generationId e.request e.policy
    e.selectedDurationMs
    e.wallClockStartMs e.wallClockDeadlineMs
  consistent : e.consistent = true

theorem samePolicy_iff {p q : Policy} : sameJson (policyCodec.encode p) (policyCodec.encode q)
    = true ↔ p = q := by
  rw [sameJson_iff (policyCodec.json_encode p) (policyCodec.json_encode q)]
  exact ⟨policyCodec.encode_injective, fun h => h ▸ Value.Same.refl _⟩

theorem Execution.admissible_iff {ledgerId : Identifier} {generationId : Commitment} {p : Policy}
    {e : Execution} :
    e.admissible sha ledgerId generationId p = true ↔ e.Valid sha ledgerId generationId p := by
  unfold Execution.admissible
  simp only [Bool.and_eq_true, decide_eq_true_eq, samePolicy_iff]
  constructor
  · rintro ⟨⟨⟨⟨⟨hgeneration, hpolicy⟩, hduration⟩, hdeadline⟩, hid⟩, hconsistent⟩
    exact ⟨hgeneration, hpolicy, hpolicy ▸ hduration, hdeadline, hid, hconsistent⟩
  · intro h
    exact ⟨⟨⟨⟨⟨h.generation, h.policy⟩, h.policy ▸ h.duration⟩, h.deadline⟩, h.executionId⟩,
      h.consistent⟩

/-- An execution of which it is not known what it did. -/
def Execution.Unknown (e : Execution) : Prop := e.terminalClassification = .OUTCOME_UNKNOWN

/-- The seal names an unknown execution and its reason. -/
def Seal.Names (s : Seal) (executions : List Execution) : Prop :=
  ∃ e ∈ executions, e.executionId = s.executionId ∧ e.Unknown ∧ e.uncertaintyReason = some s.reason

/-- The generation is sealed exactly when some execution is unknown, by one of them. -/
structure Generation.Fits (g : Generation) (executions : List Execution) : Prop where
  sealed_iff : g.state = .SEALED ↔ ∃ e ∈ executions, e.Unknown
  seal_iff : g.sealed.isSome ↔ g.state = .SEALED
  names : ∀ s, g.sealed = some s → s.Names executions

/-- What the checks of `normalizeState` say. -/
structure State.Valid (sha : Sha256) (s : State) : Prop where
  generationId : s.generation.generationId = generationIdentity sha s.ledgerId s.policy s.capacity.1
  size : (s.executions.length : Int) ≤ s.capacity.1
  execution : ∀ e ∈ s.executions, e.Valid sha s.ledgerId s.generation.generationId s.policy
  sorted : s.executions.Pairwise fun a b => requestKey a.request < requestKey b.request
  ids : (s.executions.map (·.executionId)).Nodup
  fits : s.generation.Fits s.executions

theorem eq_of_executionId {es : List Execution} (h : (es.map (·.executionId)).Nodup)
    {a b : Execution} (ha : a ∈ es) (hb : b ∈ es) (hid : a.executionId = b.executionId) : a = b :=
  List.inj_on_of_nodup_map h ha hb hid

/-- Among executions with identifiers of their own, the search finds the one that has it. -/
theorem find?_executionId {es : List Execution} {e : Execution} {id : Commitment}
    (h : (es.map (·.executionId)).Nodup) :
    es.find? (fun e => decide (e.executionId = id)) = some e ↔ e ∈ es ∧ e.executionId = id := by
  constructor
  · intro hfind
    exact ⟨List.mem_of_find?_eq_some hfind, by simpa using List.find?_some hfind⟩
  · rintro ⟨he, hid⟩
    cases hfind : es.find? fun e => decide (e.executionId = id) with
    | none => exact absurd (List.find?_eq_none.mp hfind e he) (by simpa using hid)
    | some e' =>
      have hid' : e'.executionId = id := by simpa using List.find?_some hfind
      exact congrArg some (eq_of_executionId h (List.mem_of_find?_eq_some hfind) he
        (hid'.trans hid.symm))

theorem triggered_iff {es : List Execution} (h : (es.map (·.executionId)).Nodup)
    {seal? : Option Seal} :
    triggered es seal? = true ↔ ∀ s, seal? = some s → s.Names es := by
  cases seal? with
  | none => simp [triggered]
  | some s =>
    simp only [triggered, Option.some.injEq, forall_eq', Seal.Names, Execution.Unknown]
    cases hfind : es.find? fun e => decide (e.executionId = s.executionId) with
    | none =>
      simp only [Bool.false_eq_true, false_iff]
      rintro ⟨e, he, hid, _⟩
      exact absurd ((find?_executionId h).mpr ⟨he, hid⟩) (by rw [hfind]; exact nofun)
    | some t =>
      have ht := (find?_executionId h).mp hfind
      simp only [decide_eq_true_eq]
      constructor
      · intro hunknown
        exact ⟨t, ht.1, ht.2, hunknown⟩
      · rintro ⟨e, he, hid, hunknown⟩
        obtain rfl := eq_of_executionId h he ht.1 (hid.trans ht.2.symm)
        exact hunknown

theorem admissible_iff {s : State} : s.admissible sha = true ↔ s.Valid sha := by
  have hunknown : unknownCount s.executions = 0 ↔ ¬ ∃ e ∈ s.executions, e.Unknown := by
    unfold unknownCount Execution.Unknown
    simp
  have horder := @inOrder_iff [] [] none s.executions (fun k hk => by cases hk)
  simp only [Option.mem_def, reduceCtorEq, false_implies, implies_true, true_and, List.not_mem_nil,
    not_false_eq_true, and_true] at horder
  unfold State.admissible
  simp only [Bool.and_eq_true, decide_eq_true_eq, List.all_eq_true,
    Execution.admissible_iff, horder]
  have hfits (hids : (s.executions.map (·.executionId)).Nodup) : s.generation.Fits s.executions ↔
      s.generation.consistent = true
        ∧ (if unknownCount s.executions = 0 then decide (s.generation.state = .OPEN)
          else decide (s.generation.state = .SEALED)) = true
        ∧ triggered s.executions s.generation.sealed = true := by
    rw [triggered_iff hids]
    by_cases hnone : ∃ e ∈ s.executions, e.Unknown
    · rw [if_neg (mt hunknown.mp (not_not.mpr hnone)), decide_eq_true_eq]
      constructor
      · intro h
        have hsealed := h.sealed_iff.mpr hnone
        refine ⟨?_, hsealed, h.names⟩
        rw [Generation.consistent, hsealed]
        exact h.seal_iff.mpr hsealed
      · rintro ⟨hconsistent, hsealed, hnames⟩
        rw [Generation.consistent, hsealed] at hconsistent
        exact ⟨iff_of_true hsealed hnone, iff_of_true hconsistent hsealed, hnames⟩
    · rw [if_pos (hunknown.mpr hnone), decide_eq_true_eq]
      constructor
      · intro h
        have hopen : s.generation.state = .OPEN := by
          cases hstate : s.generation.state with
          | OPEN => rfl
          | SEALED => exact absurd (h.sealed_iff.mp hstate) hnone
        refine ⟨?_, hopen, h.names⟩
        rw [Generation.consistent, hopen]
        have hnot := mt h.seal_iff.mp (by rw [hopen]; exact nofun)
        simpa using hnot
      · rintro ⟨hconsistent, hopen, hnames⟩
        rw [Generation.consistent, hopen] at hconsistent
        have hnot : ¬ s.generation.state = .SEALED := by rw [hopen]; exact nofun
        have hseal : ¬ s.generation.sealed.isSome = true := by simpa using hconsistent
        exact ⟨iff_of_false hnot hnone, iff_of_false hseal hnot, hnames⟩
  constructor
  · rintro ⟨⟨⟨⟨⟨⟨hgeneration, hconsistent⟩, hsize⟩, hexecutions⟩, hsorted, hids⟩, hstate⟩, htrigger⟩
    refine ⟨hgeneration, hsize, ?_, hsorted, hids, (hfits hids).mpr ⟨hconsistent, hstate, htrigger⟩⟩
    rw [hgeneration]
    exact hexecutions
  · intro h
    obtain ⟨hconsistent, hstate, htrigger⟩ := (hfits h.ids).mp h.fits
    have hexecutions := h.execution
    rw [h.generationId] at hexecutions
    exact ⟨⟨⟨⟨⟨⟨h.generationId, hconsistent⟩, h.size⟩, hexecutions⟩, h.sorted, h.ids⟩, hstate⟩,
      htrigger⟩

theorem Accepted.valid (c : Accepted sha) : c.1.Valid sha := admissible_iff.mp c.2

/-! ### States that are handed in and handed out -/

/-- The state as it is handed out. -/
def Accepted.encode (c : Accepted sha) : Value := (acceptedCodec sha).encode c

theorem normalizeState_encode (c : Accepted sha) : normalizeState sha c.encode = .ok c := by
  rw [normalizeState, orFail_ok]
  exact (acceptedCodec sha).decode_encode_self c

theorem normalizeState_of_valid {s : State} (h : s.Valid sha) :
    normalizeState sha (stateCodec.encode s) = .ok ⟨s, admissible_iff.mpr h⟩ :=
  normalizeState_encode ⟨s, admissible_iff.mpr h⟩

theorem normalizeState_invalid {s : State} (h : ¬ s.Valid sha) :
    normalizeState sha (stateCodec.encode s) = .error .INVALID_STATE := by
  unfold normalizeState acceptedCodec Codec.refine
  simp only [stateCodec.decode_encode_self, bind, Except.bind, dif_neg (mt admissible_iff.mp h)]
  rfl

/-- Executions in the order of their requests are sorted already. -/
theorem sortedCopy_of_sorted {es : List Execution}
    (h : es.Pairwise fun a b => requestKey a.request < requestKey b.request) :
    (es.insertionSort fun a b => compareExecution a b ≤ 0) = es := by
  refine List.Pairwise.insertionSort_eq (h.imp fun {a b} hab => ?_)
  unfold compareExecution
  simp [hab]

end Contract
end ZenonX402
