/-
# Runs of the funding observer

Every call is made on the state that the call before it gave back. The pages that
were applied along such a run, in their order, make one chain from the checkpoint
of the creation to the checkpoint of the state (`Pages`); where the target is
included is an entry of that chain, and its first threshold is the first page that
reached it (`Traced`). What a state says outside does not change any more once it
says something, up to quarantine, and quarantine is for good (`State.Stable`).

Key definitions: `Call`, `history`, `Pages`, `FirstReached`, `Traced`, `State.Stable`.
Key theorems: `Effect.traced`, `Effect.stable`, `lineage_safe`, `candidate_stable`,
`observer_closed`.
-/
import ZenonX402.Observer.Pages
import ZenonX402.Observer.Sizes
import ZenonX402.Lib.Trace
import ZenonX402.Lib.Sha2

namespace ZenonX402
namespace Observer

open Js
open Credit (Identifier Commitment PositiveInt)

variable {sha : Sha256} {s s' : State} {c c' : Accepted sha} {d : Disposition}

/-! ### Calls -/

/-- A call of an operation; what `options` has for a state is replaced by the state at hand. -/
structure Call where
  operation : Operation
  options : Value

namespace Call

/-- The options with this state for theirs, if they have one. -/
def on (call : Call) (c : Accepted sha) : Value := spread [("state", c.encode)] call.options

def run (call : Call) (c : Accepted sha) : Except Code (Outcome sha) :=
  call.operation.apply sha (call.on c)

/-- The page that the call applies, if it applies one. -/
def applied (call : Call) (c : Accepted sha) : Option Applied :=
  call.operation.applied sha (call.on c)

/-- The state to go on with: a call that throws gives back none. -/
def next (call : Call) (c : Accepted sha) : Accepted sha := match call.run c with
  | .ok outcome => outcome.state
  | .error _ => c

end Call

/-- One call, on the state that the call before it gave back. -/
def CallStep (sha : Sha256) (c : Accepted sha) (call : Call) (c' : Accepted sha) : Prop :=
  call.next c = c'

/-- Calls made one after the other. -/
def runCalls (calls : List Call) (c : Accepted sha) : Accepted sha :=
  calls.foldl (fun c call => call.next c) c

/-- The pages that these calls apply, one after the other. -/
def history : List Call → Accepted sha → List Applied
  | [], _ => []
  | call :: calls, c => (call.applied c).toList ++ history calls (call.next c)

theorem run_runCalls :
    ∀ (calls : List Call) (c : Accepted sha), Run (CallStep sha) c calls (runCalls calls c)
  | [], c => .nil c
  | call :: calls, c => .cons rfl (run_runCalls calls (call.next c))

/-! ### What a call reads and does -/

/-- What is read of the arguments under a key is what they hold there. -/
theorem captured_lookup {keys : List String} {fs : List (String × Value)}
    {value : String → Value} {k : String} {v : Value} (h : captured keys (.obj fs) = .ok value)
    (hk : fs.lookup k = some v) (hv : v.Json) : value k = v := by
  simp only [captured, bind_ok, orReject_ok] at h
  obtain ⟨copy, hcopy, hvalue⟩ := h
  obtain ⟨gs, rfl, _, hlookup⟩ := snapshotJson_obj hcopy
  simp only [exactObject, fields, Option.map_eq_some_iff] at hvalue
  obtain ⟨⟨order, get⟩, hget, rfl⟩ := hvalue
  split at hget
  · obtain ⟨rfl, rfl⟩ := Prod.mk.inj (Option.some.inj hget)
    show (gs.lookup k).getD .undefined = v
    rw [hlookup k v hk hv, Option.getD_some]
  · cases hget

/-- The keys of the arguments are the expected ones. -/
theorem captured_keys {keys : List String} {fs : List (String × Value)} {value : String → Value}
    (h : captured keys (.obj fs) = .ok value) : (fs.map Prod.fst).Perm keys := by
  simp only [captured, bind_ok, orReject_ok] at h
  obtain ⟨copy, hcopy, hvalue⟩ := h
  obtain ⟨gs, rfl, hkeys, _⟩ := snapshotJson_obj hcopy
  simp only [exactObject, fields, Option.map_eq_some_iff] at hvalue
  obtain ⟨_, hget, _⟩ := hvalue
  split at hget
  · rename_i hperm
    rwa [hkeys] at hperm
  · cases hget

theorem captured_obj {keys : List String} {v : Value} {value : String → Value}
    (h : captured keys v = .ok value) :
    ∃ fs, v = .obj fs := by
  cases v with
  | obj fs => exact ⟨fs, rfl⟩
  | _ =>
    simp only [captured, bind_ok, orReject_ok] at h
    obtain ⟨copy, hcopy, hvalue⟩ := h
    rw [snapshotJson_eq hcopy] at hvalue
    simp [Value.unsigned, exactObject, fields] at hvalue

theorem state_mem_keys (operation : Operation) :
    "state" ∈ operation.keys := by cases operation <;> decide

/-- The state that a call reads is the one it is made on. -/
theorem Call.reads {call : Call} {value : String → Value}
    (h : captured call.operation.keys (call.on c) = .ok value) :
    Reads call.operation.keys (call.on c) value c := by
  refine ⟨h, ?_⟩
  have hstate : value "state" = c.encode := by
    unfold Call.on at h
    cases hoptions : call.options with
    | obj fs =>
      rw [hoptions, spread] at h
      have hmem : "state" ∈ fs.map Prod.fst := by
        have hkeys := captured_keys h
        rw [List.map_map] at hkeys
        exact hkeys.mem_iff.mpr (state_mem_keys call.operation)
      obtain ⟨f, hf, hfst⟩ := List.mem_map.mp hmem
      have hsome : (fs.lookup "state").isSome = true := by
        rw [List.lookup_isSome_iff]
        exact ⟨f, hf, by simp [hfst]⟩
      obtain ⟨v, hv⟩ := Option.isSome_iff_exists.mp hsome
      refine captured_lookup h ?_ (json_encode c)
      rw [lookup_spread, hv]
      rfl
    | _ =>
      rw [hoptions] at h
      obtain ⟨fs, hfs⟩ := captured_obj h
      cases hfs
  rw [hstate]
  exact normalizeStateSnapshot_encode c

/-- An operation that gives back a state has read its arguments. -/
theorem Operation.apply_captured {operation : Operation} {options : Value} {o : Outcome sha}
    (h : operation.apply sha options = .ok o) :
    ∃ value, captured operation.keys options = .ok value := by
  cases hvalue : captured operation.keys options with
  | ok value => exact ⟨value, rfl⟩
  | error e =>
    cases operation with
    | plan =>
      have hvalue' : captured PLAN_KEYS options = .error e := hvalue
      simp only [Operation.apply, planZenonFundingObserverBackfill, hvalue'] at h
      cases h
    | page =>
      have hvalue' : captured PAGE_KEYS options = .error e := hvalue
      simp only [Operation.apply, applyZenonFundingObserverPage, hvalue'] at h
      cases h
    | observation =>
      have hvalue' : captured OBSERVATION_KEYS options = .error e := hvalue
      simp only [Operation.apply, applyZenonFundingInclusionObservation, hvalue'] at h
      cases h
    | versions =>
      have hvalue' : captured LINEAGE_KEYS options = .error e := hvalue
      simp only [Operation.apply, applyZenonFundingMomentumVersionLineage, hvalue'] at h
      cases h

theorem Call.run_effect {call : Call} {o : Outcome sha} (h : call.run c = .ok o) :
    Effect sha c.1 o.disposition (call.applied c) o.state.1 := by
  obtain ⟨value, hvalue⟩ := Operation.apply_captured h
  have hgives := (Call.reads hvalue).apply_gives
  rw [show call.operation.apply sha (call.on c) = .ok o from h] at hgives
  exact hgives

/-- A call that throws applies no page. -/
theorem Call.applied_error {call : Call} {e : Code} (h : call.run c = .error e) :
    call.applied c = none := by
  obtain ⟨operation, options⟩ := call
  cases operation with
  | plan | observation | versions => rfl
  | page =>
    have hpage : applyZenonFundingObserverPage sha (Call.on ⟨.page, options⟩ c) = .error e := h
    simp only [Call.applied, Operation.applied, hpage, Except.toOption]
    rfl

/-- What a call makes of a state: an effect, or nothing when it throws. -/
theorem Call.next_effect (call : Call) (c : Accepted sha) :
    (call.next c = c ∧ call.applied c = none)
    ∨ ∃ d, Effect sha c.1 d (call.applied c) (call.next c).1 := by
  unfold Call.next
  cases h : call.run c with
  | error e => exact .inl ⟨rfl, Call.applied_error h⟩
  | ok o => exact .inr ⟨o.disposition, Call.run_effect h⟩

/-! ### The pages of a run -/

/-- Pages that were applied one after the other, for one target, from a checkpoint to another. -/
inductive Pages (target : Member) : Checkpoint → List Applied → Checkpoint → Prop
  | nil (start : Checkpoint) : Pages target start [] start
  | cons {start last : Checkpoint} {a : Applied} {as : List Applied} (hpage : a.Of target start)
      (rest : Pages target a.receipt.1.endCheckpoint as last) : Pages target start (a :: as) last

namespace Pages

variable {target : Member} {start last : Checkpoint} {as bs : List Applied} {a : Applied}

/-- The entries of the pages are one chain. -/
theorem leads (h : Pages target start as last) : Leads start (as.flatMap (·.entries)) last := by
  induction h with
  | nil start => exact .nil start
  | cons hpage _ ih => exact hpage.leads.append ih

theorem concat (h : Pages target start as last) (ha : a.Of target last) :
    Pages target start (as ++ [a]) a.receipt.1.endCheckpoint := by
  induction h with
  | nil start => exact .cons ha (.nil _)
  | cons hpage _ ih => exact .cons hpage (ih ha)

/-- A page in the middle starts where the pages before it end. -/
theorem split (h : Pages target start (as ++ a :: bs) last) : ∃ middle, Pages target start as middle
    ∧ a.Of target middle ∧ Pages target a.receipt.1.endCheckpoint bs last := by
  induction as generalizing start with
  | nil =>
    cases h with
    | cons hpage rest => exact ⟨start, .nil start, hpage, rest⟩
  | cons b as ih =>
    cases h with
    | cons hpage rest =>
      obtain ⟨middle, hbefore, hmiddle, hafter⟩ := ih rest
      exact ⟨middle, .cons hpage hbefore, hmiddle, hafter⟩

/-- No page ends above the last one. -/
theorem end_le (h : Pages target start as last) :
    ∀ a ∈ as, a.receipt.1.endCheckpoint.height.1 ≤ last.height.1 := by
  intro a ha
  obtain ⟨before, after, rfl⟩ := List.append_of_mem ha
  obtain ⟨middle, _, _, hafter⟩ := h.split
  have hheight := hafter.leads.height
  omega

/-- What the receipt of a page has of the target is in the chain. -/
theorem holds (h : Pages target start as last) (ha : a ∈ as) {m : Membership}
    (hm : m ∈ a.receipt.1.targetMembership) :
    ∃ e ∈ as.flatMap (·.entries), e.Holds target ∧ m = e.membership target := by
  obtain ⟨before, after, rfl⟩ := List.append_of_mem ha
  obtain ⟨middle, _, hpage, _⟩ := h.split
  obtain ⟨e, he, hholds, heq⟩ := hpage.membership m hm
  exact ⟨e, List.mem_flatMap.mpr ⟨a, ha, he⟩, hholds, heq⟩

end Pages

/-- The confirmations at the end of a page. -/
def Applied.confirmations (a : Applied) (momentumHeight : PositiveInt) : Int :=
  a.receipt.1.endCheckpoint.height.1 - momentumHeight.1 + 1

/-- The threshold is at the end of the first page with this many confirmations, and has its receipt.
-/
def FirstReached (minimum momentumHeight : PositiveInt) (pages : List Applied)
    (t : FirstThreshold) : Prop :=
  ∃ before a after, pages = before ++ a :: after ∧ t.checkpoint = a.receipt.1.endCheckpoint
    ∧ t.lineageReceipt = a.receipt ∧ minimum.1 ≤ a.confirmations momentumHeight
    ∧ ∀ b ∈ before, b.confirmations momentumHeight < minimum.1

theorem FirstReached.append {minimum momentumHeight : PositiveInt} {pages : List Applied}
    {t : FirstThreshold} (h : FirstReached minimum momentumHeight pages t) (more : List Applied) :
    FirstReached minimum momentumHeight (pages ++ more) t := by
  obtain ⟨before, a, after, rfl, hrest⟩ := h
  exact ⟨before, a, after ++ more, by rw [List.append_assoc]; rfl, hrest⟩

/-- What a state says of the chain is so of the pages that led to it. -/
structure Traced (start : Checkpoint) (pages : List Applied) (s : State) : Prop where
  chain : Pages s.targetMember start pages s.checkpoint
  last : s.lastAppliedPage = pages.getLast?.map (·.receipt)
  inclusion : ∀ i ∈ s.inclusion, ∃ e ∈ pages.flatMap (·.entries), e.Holds s.targetMember
    ∧ i.toMembership = e.membership s.targetMember
  threshold : ∀ t ∈ s.firstThreshold, ∀ i ∈ s.inclusion,
    FirstReached s.confirmationPolicy.minimumConfirmations i.momentumHeight pages t

/-- A state with the same checkpoint, pages, inclusion and threshold says the same of the chain. -/
theorem Traced.same {start : Checkpoint} {pages : List Applied} (h : Traced start pages s)
    (hmember : s'.targetMember = s.targetMember)
    (hpolicy : s'.confirmationPolicy = s.confirmationPolicy)
    (hcheckpoint : s'.checkpoint = s.checkpoint) (hlast : s'.lastAppliedPage = s.lastAppliedPage)
    (hinclusion : s'.inclusion = s.inclusion) (hthreshold : s'.firstThreshold = s.firstThreshold) :
    Traced start pages s' := by
  obtain ⟨h1, h2, h3, h4⟩ := h
  exact ⟨by rw [hmember, hcheckpoint]; exact h1, by rw [hlast]; exact h2,
    by rw [hinclusion, hmember]; exact h3, by rw [hthreshold, hinclusion, hpolicy]; exact h4⟩

/-- One step: what a state says of the chain stays so. -/
theorem Effect.traced {start : Checkpoint} {pages : List Applied} {applied : Option Applied}
    (h : Effect sha s d applied s') (hs : s.Valid sha) (htraced : Traced start pages s) :
    Traced start (pages ++ applied.toList) s' := by
  cases h with
  | kept | stays =>
    rw [Option.toList_none, List.append_nil]
    exact htraced
  | quarantined | versioned =>
    rw [Option.toList_none, List.append_nil]
    exact htraced.same rfl rfl rfl rfl rfl rfl
  | paged a r hr hstatus hpage hnone =>
    obtain ⟨_, hfirst, _⟩ := hs.awaiting hstatus hnone
    refine ⟨htraced.chain.concat hpage, ?_, fun i hi => ?_, fun t ht => ?_⟩
    · rw [Option.toList_some, List.getLast?_concat]
      rfl
    · exact absurd (hnone.symm.trans hi) nofun
    · exact absurd (hfirst.symm.trans ht) nofun
  | included a i confirmations r hr hstatus hpage hi hcount =>
    refine ⟨htraced.chain.concat hpage, ?_, fun i' hi' => ?_, fun t ht i' hi' => ?_⟩
    · rw [Option.toList_some, List.getLast?_concat]
      rfl
    · obtain rfl := Option.some.inj hi'
      obtain ⟨e, he, hholds, heq⟩ := htraced.inclusion i hi
      refine ⟨e, ?_, hholds, heq⟩
      rw [List.flatMap_append]
      exact List.mem_append_left _ he
    · obtain rfl := Option.some.inj hi'
      have ht' : t ∈ s.thresholdAt a.receipt confirmations := ht
      unfold State.thresholdAt at ht'
      cases hfirst : s.firstThreshold with
      | some t' =>
        rw [hfirst, Option.some_or] at ht'
        obtain rfl := Option.some.inj ht'
        exact (htraced.threshold t' hfirst i hi).append _
      | none =>
        rw [hfirst, Option.none_or] at ht'
        by_cases henough : s.confirmationPolicy.minimumConfirmations.1 ≤ confirmations.1
        · rw [if_pos henough] at ht'
          obtain rfl := Option.some.inj ht'
          refine ⟨pages, a, [], rfl, rfl, rfl, ?_, fun b hb => ?_⟩
          · unfold Applied.confirmations
            rw [← hcount]
            exact henough
          · -- before this page the state had too few, and no earlier page ends higher
            have hbelow := hs.below hfirst i hi
            have hconfirmations := (hs.inclusion i hi).confirmations
            have hend := htraced.chain.end_le b hb
            show b.receipt.1.endCheckpoint.height.1 - i.momentumHeight.1 + 1 < _
            have hpolicy : (s.includedAtPage a.receipt i confirmations r).confirmationPolicy
                = s.confirmationPolicy :=
              rfl
            rw [hpolicy]
            omega
        · rw [if_neg henough] at ht'
          cases ht'
  | observed receipt i r hr hstatus hnone hreceipt hmember hcount =>
    rw [Option.toList_none, List.append_nil]
    have hlast : pages.getLast?.map (·.receipt) = some receipt := htraced.last.symm.trans hreceipt
    obtain ⟨a, ha, rfl⟩ := Option.map_eq_some_iff.mp hlast
    have hmem : a ∈ pages := List.mem_of_getLast? ha
    refine ⟨htraced.chain, htraced.last, fun i' hi' => ?_, fun t ht i' hi' => ?_⟩
    · obtain rfl := Option.some.inj hi'
      exact htraced.chain.holds hmem hmember
    · obtain rfl := Option.some.inj hi'
      have ht' : t ∈ if s.confirmationPolicy.minimumConfirmations.1 ≤ i.currentConfirmations.1
        then some (⟨s.checkpoint, i.currentConfirmations, a.receipt⟩ : FirstThreshold)
        else none := ht
      by_cases henough : s.confirmationPolicy.minimumConfirmations.1 ≤ i.currentConfirmations.1
      · rw [if_pos henough] at ht'
        obtain rfl := Option.some.inj ht'
        obtain ⟨before, rfl⟩ : ∃ before, pages = before ++ [a] := List.getLast?_eq_some_iff.mp ha
        have hends := (hs.page a.receipt hreceipt).ends
        obtain ⟨middle, hbefore, hpage, _⟩ := htraced.chain.split
        refine ⟨before, a, [], rfl, hends.symm, rfl, ?_, fun b hb => ?_⟩
        · unfold Applied.confirmations
          rw [hends, ← hcount]
          exact henough
        · -- the target is above the start of the last page
          have hafter := ((hs.page a.receipt hreceipt).receipt.membership _ hmember).after
          rw [hpage.start] at hafter
          have hend := hbefore.end_le b hb
          have hpos := s.confirmationPolicy.minimumConfirmations.pos
          show b.receipt.1.endCheckpoint.height.1 - i.momentumHeight.1 + 1
            < s.confirmationPolicy.minimumConfirmations.1
          omega
      · rw [if_neg henough] at ht'
        cases ht'

/-- What the state at the end of a run says of the chain is so of the pages of the run. -/
theorem run_traced {start : Checkpoint} {calls : List Call} (hrun : Run (CallStep sha) c calls c') :
    ∀ pages, Traced start pages c.1 → Traced start (pages ++ history calls c) c'.1 := by
  induction hrun with
  | nil c =>
    intro pages h
    rwa [history, List.append_nil]
  | @cons c m c' call calls hstep _ ih =>
    intro pages h
    obtain rfl : call.next c = m := hstep
    rw [history, ← List.append_assoc]
    refine ih _ ?_
    rcases call.next_effect c with ⟨hsame, hnone⟩ | ⟨d, heffect⟩
    · rw [hsame, hnone, Option.toList_none, List.append_nil]
      exact h
    · exact heffect.traced c.valid h

/-! ### Creation -/

theorem initial_valid (observerPolicy : ObserverPolicy) (authorityGeneration : AuthorityGeneration)
    (chainProfile : ChainProfile) (confirmationPolicy : ConfirmationPolicy) (target : Target)
    (checkpoint : Checkpoint) (catchUp : CatchUpConfiguration) :
    (initial sha observerPolicy authorityGeneration chainProfile confirmationPolicy
      target checkpoint catchUp).Valid sha where
  recordId := rfl
  binding := rfl
  bounds := nofun
  authorization := nofun
  page := nofun
  inclusion := nofun
  threshold := nofun
  below := fun _ => nofun
  settled := ⟨rfl, rfl, rfl⟩

theorem bounded_catchUpConfiguration :
    catchUpConfigurationCodec.Bounded refusedKey ⟨4, 3, 64, 0, 0, 0, 1, 3⟩ :=
  (Codec.bounded_refine (Codec.bounded_equiv
    (Codec.bounded_object (Fields.bounded_cons (Codec.bounded_integer _ _)
    (Fields.bounded_cons (Codec.bounded_integer _ _)
      (Fields.bounded_cons (Codec.bounded_integer _ _)
      Fields.bounded_nil))) _ _) _) _ _).mono (by decide)

/-- A state is created of whatever its parts are. -/
theorem create_written {observerPolicy : ObserverPolicy} {authorityGeneration : AuthorityGeneration}
    {chainProfile : ChainProfile} {confirmationPolicy : ConfirmationPolicy} {target : Target}
    {checkpoint : Checkpoint} {catchUp : CatchUpConfiguration} {field : String → Value}
    (h1 : field "observerPolicy" = observerPolicyCodec.encode observerPolicy)
    (h2 : field "authorityGeneration" = authorityGenerationCodec.encode authorityGeneration)
    (h3 : field "chainProfile" = chainProfileCodec.encode chainProfile)
    (h4 : field "confirmationPolicy" = confirmationPolicyCodec.encode confirmationPolicy)
    (h5 : field "target" = targetCodec.encode target)
    (h6 : field "checkpoint" = checkpointCodec.encode checkpoint)
    (h7 : field "catchUp" = catchUpConfigurationCodec.encode catchUp) :
    createZenonFundingObserverState sha (written (Order.given CREATE_KEYS) field)
      = .ok ⟨initial sha observerPolicy
      authorityGeneration chainProfile confirmationPolicy target checkpoint catchUp,
      decide_eq_true (initial_valid ..)⟩ := by
  have hjson : (written (Order.given CREATE_KEYS) field).Json := by
    refine json_written (by decide) fun k hk => ?_
    simp only [CREATE_KEYS, List.mem_cons, List.not_mem_nil, or_false] at hk
    rcases hk with rfl | rfl | rfl | rfl | rfl | rfl | rfl
    · exact h1 ▸ observerPolicyCodec.json_encode observerPolicy
    · exact h2 ▸ authorityGenerationCodec.json_encode authorityGeneration
    · exact h3 ▸ chainProfileCodec.json_encode chainProfile
    · exact h4 ▸ confirmationPolicyCodec.json_encode confirmationPolicy
    · exact h5 ▸ targetCodec.json_encode target
    · exact h6 ▸ checkpointCodec.json_encode checkpoint
    · exact h7 ▸ catchUpConfigurationCodec.json_encode catchUp
  have hwithin : Value.Within refusedKey (written (Order.given CREATE_KEYS) field)
      ⟨100, 100, 1000, 0, 3000, 0, 3, 24⟩ :=
    (Measure.Le.inside (Value.fields_cons (h1 ▸ bounded_observerPolicy observerPolicy)
      (Value.fields_cons (h2 ▸ bounded_authorityGeneration authorityGeneration)
      (Value.fields_cons (h3 ▸ bounded_chainProfile chainProfile)
      (Value.fields_cons (h4 ▸ bounded_confirmationPolicy confirmationPolicy)
      (Value.fields_cons (h5 ▸ bounded_target target)
      (Value.fields_cons (h6 ▸ bounded_checkpoint checkpoint)
      (Value.fields_cons (h7 ▸ bounded_catchUpConfiguration catchUp) Value.fields_nil)))))))
      (Nat.le_refl 7)).trans
      (by decide)
  obtain ⟨get, hcaptured, hfield⟩ := captured_written (snapshotJson_within hjson hwithin
    ⟨by decide, by decide, by decide, by decide, by decide, by decide, rfl⟩ (by decide))
  simp only [CREATE_KEYS, List.forall_mem_cons] at hfield
  obtain ⟨g1, g2, g3, g4, g5, g6, g7, -⟩ := hfield
  unfold createZenonFundingObserverState
  simp only [bind_ok, failWith_ok]
  refine ⟨get, hcaptured, observerPolicy, ?_, authorityGeneration, ?_, chainProfile, ?_,
    confirmationPolicy, ?_, target, ?_, checkpoint, ?_, catchUp, ?_,
    normalizeStateSnapshot_of_valid (initial_valid ..)⟩
  · rw [g1, h1]
    exact observerPolicyCodec.decode_encode_self observerPolicy
  · rw [g2, h2]
    exact authorityGenerationCodec.decode_encode_self authorityGeneration
  · rw [g3, h3]
    exact chainProfileCodec.decode_encode_self chainProfile
  · rw [g4, h4]
    exact confirmationPolicyCodec.decode_encode_self confirmationPolicy
  · rw [g5, h5]
    exact targetCodec.decode_encode_self target
  · rw [g6, h6]
    exact checkpointCodec.decode_encode_self checkpoint
  · rw [g7, h7]
    exact catchUpConfigurationCodec.decode_encode_self catchUp

/-- A state that is created has no pages and no target. -/
theorem create_ok {options : Value} (h : createZenonFundingObserverState sha options = .ok c) :
    c.1.lastAppliedPage = none ∧ c.1.inclusion = none ∧ c.1.firstThreshold = none := by
  unfold createZenonFundingObserverState at h
  simp only [bind_ok] at h
  obtain ⟨value, _, observerPolicy, _, authorityGeneration, _, chainProfile, _,
    confirmationPolicy, _, target, _, checkpoint, _, catchUp, _, h⟩ := h
  have hinitial := normalizeStateSnapshot_of_valid
    (@initial_valid sha observerPolicy authorityGeneration chainProfile
    confirmationPolicy target checkpoint catchUp)
  obtain rfl := Except.ok.inj (hinitial.symm.trans h)
  exact ⟨rfl, rfl, rfl⟩

theorem create_traced {options : Value} (h : createZenonFundingObserverState sha options = .ok c) :
    Traced c.1.checkpoint [] c.1 := by
  obtain ⟨hlast, hinclusion, hthreshold⟩ := create_ok h
  refine ⟨.nil _, hlast, fun i hi => ?_, fun t ht => ?_⟩
  · exact absurd (hinclusion.symm.trans hi) nofun
  · exact absurd (hthreshold.symm.trans ht) nofun

/-! ### Lineage -/

/-- Along every run from a created state: the entries of the applied pages are
one chain from the checkpoint of the creation to the checkpoint at hand; where
the target is included is an entry of that chain that has the target, counted to
the checkpoint; and the first threshold is the end of the first of the pages with
enough confirmations, with the receipt of that page. -/
theorem lineage_safe {options : Value} {c₀ : Accepted sha} {calls : List Call}
    (hcreate : createZenonFundingObserverState sha options = .ok c₀)
    (hrun : Run (CallStep sha) c₀ calls c) :
    Leads c₀.1.checkpoint ((history calls c₀).flatMap (·.entries)) c.1.checkpoint
      ∧ c.1.checkpoint = (((history calls c₀).flatMap (·.entries)).getLast?.map
        fun e => e.checkpoint).getD
        c₀.1.checkpoint
      ∧ (∀ a ∈ history calls c₀, a.receipt.1.lineage = a.entries.map (·.toLineageEntry))
      ∧ (∀ i ∈ c.1.inclusion,
        (∃ e ∈ (history calls c₀).flatMap (·.entries), e.height = i.momentumHeight
          ∧ e.hash = i.momentumHash
          ∧ ⟨c.1.target.transactionId, c.1.targetBindingDigest⟩ ∈ e.members)
        ∧ i.currentConfirmations.1 = c.1.checkpoint.height.1 - i.momentumHeight.1 + 1)
      ∧ ∀ t ∈ c.1.firstThreshold, ∃ i ∈ c.1.inclusion,
        FirstReached c.1.confirmationPolicy.minimumConfirmations i.momentumHeight
        (history calls c₀) t := by
  have htraced := run_traced hrun [] (create_traced hcreate)
  rw [List.nil_append] at htraced
  have hleads := htraced.chain.leads
  refine ⟨hleads, hleads.getLast?, fun a ha => ?_, fun i hi => ⟨?_, ?_⟩, fun t ht => ?_⟩
  · obtain ⟨before, after, heq⟩ := List.append_of_mem ha
    have hchain := htraced.chain
    rw [heq] at hchain
    obtain ⟨_, _, hpage, _⟩ := hchain.split
    exact hpage.lineage
  · obtain ⟨e, he, hholds, heq⟩ := htraced.inclusion i hi
    have hheight : i.momentumHeight = e.height := congrArg Membership.momentumHeight heq
    have hhash : i.momentumHash = e.hash := congrArg Membership.momentumHash heq
    exact ⟨e, he, hheight.symm, hhash.symm, hholds⟩
  · exact (c.valid.inclusion i hi).confirmations
  · obtain ⟨i, hi, _⟩ := c.valid.threshold t ht
    exact ⟨i, hi, htraced.threshold t ht i hi⟩

/-! ### What a state says outside -/

/-- The candidate of a state, if it has one. -/
def State.candidate? (s : State) : Option Value :=
  if s.status ≠ .THRESHOLD_OBSERVED then none
  else match s.inclusion, s.firstThreshold with
    | some inclusion, some firstThreshold => some (candidate s inclusion firstThreshold)
    | _, _ => none

theorem project_encode (c : Accepted sha) :
    projectZenonFundingObservationCandidate sha c.encode = .ok c.1.candidate? := by
  have hnormalize := normalizeState_encode c
  unfold projectZenonFundingObservationCandidate State.candidate?
  rw [hnormalize]
  show (if c.1.status ≠ .THRESHOLD_OBSERVED then _ else _) = _
  split
  · rfl
  · cases c.1.inclusion with
    | none => rfl
    | some i => cases c.1.firstThreshold <;> rfl

theorem candidate_eq {v : Value} (h : s.candidate? = some v) : s.status = .THRESHOLD_OBSERVED
    ∧ ∃ i t, s.inclusion = some i ∧ s.firstThreshold = some t ∧ v = candidate s i t := by
  unfold State.candidate? at h
  split at h
  · cases h
  · rename_i hstatus
    split at h
    · rename_i i t hi ht
      exact ⟨not_not.mp hstatus, i, t, hi, ht, (Option.some.inj h).symm⟩
    · cases h

/-- What is so of a state and of any later one. -/
structure State.Stable (s s' : State) : Prop where
  observerRecordId : s'.observerRecordId = s.observerRecordId
  targetBindingDigest : s'.targetBindingDigest = s.targetBindingDigest
  target : s'.target = s.target
  observerPolicy : s'.observerPolicy = s.observerPolicy
  confirmationPolicy : s'.confirmationPolicy = s.confirmationPolicy
  authorityGeneration : s'.authorityGeneration = s.authorityGeneration
  chainProfile : s'.chainProfile = s.chainProfile
  quarantined : s.status = .QUARANTINED → s' = s
  candidate : ∀ v, s.candidate? = some v → s'.candidate? = some v ∨ s'.status = .QUARANTINED

namespace State.Stable

theorem refl (s : State) : s.Stable s :=
  ⟨rfl, rfl, rfl, rfl, rfl, rfl, rfl, fun _ => rfl, fun _ => .inl⟩

theorem trans {s'' : State} (h : s.Stable s') (h' : s'.Stable s'') : s.Stable s'' where
  observerRecordId := h'.observerRecordId.trans h.observerRecordId
  targetBindingDigest := h'.targetBindingDigest.trans h.targetBindingDigest
  target := h'.target.trans h.target
  observerPolicy := h'.observerPolicy.trans h.observerPolicy
  confirmationPolicy := h'.confirmationPolicy.trans h.confirmationPolicy
  authorityGeneration := h'.authorityGeneration.trans h.authorityGeneration
  chainProfile := h'.chainProfile.trans h.chainProfile
  quarantined := by
    intro hstatus
    have heq := h.quarantined hstatus
    subst heq
    exact h'.quarantined hstatus
  candidate := by
    intro v hv
    rcases h.candidate v hv with hv' | hstatus
    · exact h'.candidate v hv'
    · right
      rw [h'.quarantined hstatus]
      exact hstatus

end State.Stable

/-- One step: a candidate stays the same, up to quarantine. -/
theorem Effect.stable {applied : Option Applied} (h : Effect sha s d applied s') : s.Stable s' := by
  cases h with
  | kept | stays => exact .refl s
  | quarantined reason r hr hstatus =>
    exact ⟨rfl, rfl, rfl, rfl, rfl, rfl, rfl, fun hq => absurd hq hstatus, fun _ _ => .inr rfl⟩
  | versioned v1 v2 r hr hstatus =>
    refine ⟨rfl, rfl, rfl, rfl, rfl, rfl, rfl, fun hq => absurd hq hstatus, fun v hv => .inl ?_⟩
    exact hv
  | paged a r hr hstatus hpage hnone =>
    refine ⟨rfl, rfl, rfl, rfl, rfl, rfl, rfl, fun hq => absurd hq hstatus, fun v hv => ?_⟩
    obtain ⟨_, i, _, hi, _⟩ := candidate_eq hv
    exact absurd (hnone.symm.trans hi) nofun
  | included a i confirmations r hr hstatus hpage hi hcount =>
    refine ⟨rfl, rfl, rfl, rfl, rfl, rfl, rfl, fun hq => absurd hq hstatus, fun v hv => .inl ?_⟩
    obtain ⟨_, i', t, hi', ht, rfl⟩ := candidate_eq hv
    obtain rfl := Option.some.inj (hi.symm.trans hi')
    have hthreshold : s.thresholdAt a.receipt confirmations = some t := by
      rw [State.thresholdAt, ht, Option.some_or]
    unfold State.includedAtPage
    rw [hthreshold]
    rfl
  | observed receipt i r hr hstatus hnone =>
    refine ⟨rfl, rfl, rfl, rfl, rfl, rfl, rfl, fun hq => absurd hq hstatus, fun v hv => ?_⟩
    obtain ⟨_, i, _, hi, _⟩ := candidate_eq hv
    exact absurd (hnone.symm.trans hi) nofun

/-- The revision goes up by one with each change, and an idle disposition changes nothing. -/
theorem Effect.revision {applied : Option Applied} (h : Effect sha s d applied s') :
    (d.Idle → s' = s) ∧ (s' ≠ s → s'.revision.1 = s.revision.1 + 1) := by
  cases h with
  | kept => exact ⟨fun _ => rfl, fun hne => absurd rfl hne⟩
  | stays => exact ⟨nofun, fun hne => absurd rfl hne⟩
  | quarantined _ _ hr | versioned _ _ _ hr | paged _ _ hr | included _ _ _ _ hr | observed _ _ _ hr =>
    exact ⟨nofun, fun _ => hr⟩

theorem run_stable {calls : List Call} (hrun : Run (CallStep sha) c calls c') :
    c.1.Stable c'.1 := by
  refine Run.relates (I := fun _ => True) (R := fun c c' : Accepted sha => c.1.Stable c'.1)
    (fun c => .refl c.1)
    State.Stable.trans (fun _ _ _ _ _ => trivial) (fun c call c' _ hstep => ?_) hrun trivial
  rw [← show call.next c = c' from hstep]
  rcases call.next_effect c with ⟨hsame, _⟩ | ⟨d, heffect⟩
  · rw [hsame]
    exact .refl c.1
  · exact heffect.stable

/-- Along every run from a created state, between any state of the run and the
one at its end: what names the observer, its target and its policies is the same;
a state in quarantine stays as it is and has no candidate; and a candidate stays
the same until there is a quarantine. Each call that changes the state raises its
revision by one, and one that reports an idle disposition does not change it. -/
theorem candidate_stable {options : Value} {c₀ : Accepted sha} {calls : List Call}
    (hcreate : createZenonFundingObserverState sha options = .ok c₀)
    (hrun : Run (CallStep sha) c₀ calls c) :
    projectZenonFundingObservationCandidate sha c₀.encode = .ok none
      ∧ (∀ before after, calls = before ++ after → ∃ m, Run (CallStep sha) c₀ before m
        ∧ Run (CallStep sha) m after c
        ∧ m.1.Stable c.1
        ∧ (m.1.status = .QUARANTINED → projectZenonFundingObservationCandidate sha c.encode
          = .ok none)
        ∧ ∀ v, projectZenonFundingObservationCandidate sha m.encode = .ok (some v) →
          projectZenonFundingObservationCandidate sha c.encode = .ok (some v)
            ∨ c.1.status = .QUARANTINED ∧ projectZenonFundingObservationCandidate sha c.encode
            = .ok none)
      ∧ ∀ before call after, calls = before ++ call :: after → ∃ m, Run (CallStep sha) c₀ before m
        ∧ Run (CallStep sha) m (call :: after) c
        ∧ (∀ o, call.run m = .ok o → call.next m = o.state ∧ (o.disposition.Idle → o.state = m)
          ∧ (o.state ≠ m → o.state.1.revision.1 = m.1.revision.1 + 1))
        ∧ ∀ e, call.run m = .error e → call.next m = m := by
  have hquarantined {m : Accepted sha} (hstatus : m.1.status = .QUARANTINED) :
      projectZenonFundingObservationCandidate sha m.encode = .ok none := by
    rw [project_encode, State.candidate?, if_pos (by rw [hstatus]; exact nofun)]
  refine ⟨?_, fun before after hcalls => ?_, fun before call after hcalls => ?_⟩
  · obtain ⟨_, hinclusion, _⟩ := create_ok hcreate
    rw [project_encode]
    cases hcandidate : c₀.1.candidate? with
    | none => rfl
    | some v =>
      obtain ⟨_, i, _, hi, _⟩ := candidate_eq hcandidate
      exact absurd (hinclusion.symm.trans hi) nofun
  · subst hcalls
    obtain ⟨m, hbefore, hafter⟩ := hrun.split
    have hstable := run_stable hafter
    refine ⟨m, hbefore, hafter, hstable, fun hstatus => hquarantined ?_, fun v hv => ?_⟩
    · rw [hstable.quarantined hstatus]
      exact hstatus
    · rw [project_encode] at hv
      rcases hstable.candidate v (Except.ok.inj hv) with hsame | hstatus
      · left
        rw [project_encode, hsame]
      · exact .inr ⟨hstatus, hquarantined hstatus⟩
  · subst hcalls
    obtain ⟨m, hbefore, hafter⟩ := hrun.split
    refine ⟨m, hbefore, hafter, fun o ho => ?_, fun e he => ?_⟩
    · obtain ⟨hidle, hrevision⟩ := (Call.run_effect ho).revision
      refine ⟨?_, fun hd => Subtype.ext (hidle hd),
        fun hne => hrevision fun heq => hne (Subtype.ext heq)⟩
      unfold Call.next
      rw [ho]
    · unfold Call.next
      rw [he]

/-! ### Closure -/

theorem serialize_encode (c : Accepted sha) :
    serializeZenonFundingObserverState sha c.encode = .ok (canonicalJson c.encode) := by
  unfold serializeZenonFundingObserverState
  rw [normalizeState_encode]
  rfl

/-- The keys of a state may be in any order. -/
theorem normalizeState_canonical (c : Accepted sha) :
    normalizeState sha c.encode.canonical = .ok c := by
  have hsnapshot : snapshotJson c.encode.canonical = some c.encode.canonical := by
    refine snapshotJson_within (json_encode c).canonical
      (Value.within_canonical.mpr (bounded_state c.1)) ?_
      (by decide)
    exact ⟨by decide, by decide, by decide, by decide, by decide, by decide, rfl⟩
  unfold normalizeState
  simp only [bind_ok, orReject_ok]
  refine ⟨_, hsnapshot, ?_⟩
  rw [normalizeStateSnapshot, failWith_ok]
  exact (acceptedCodec sha).decode_canonical c

/-- What is serialized is parsed back. -/
theorem parse_serialized (c : Accepted sha) :
    parseZenonFundingObserverState sha (.str (canonicalJson c.encode)) = .ok c := by
  have hparse := Js.parse_canonicalJson (json_encode c)
  have hempty : canonicalJson c.encode ≠ "" := by
    intro h
    rw [h] at hparse
    cases hparse
  simp only [parseZenonFundingObserverState, bind_ok, rejectIf_ok, orReject_ok]
  exact ⟨(), not_or.mpr ⟨hempty, not_lt.mpr (text_size c)⟩, _, hparse, c,
    normalizeState_canonical c, (), not_not.mpr rfl, rfl⟩

theorem parse_ok {v : Value} (h : parseZenonFundingObserverState sha v = .ok c) :
    v = .str (canonicalJson c.encode) := by
  cases v with
  | str text =>
    simp only [parseZenonFundingObserverState, bind_ok, rejectIf_ok, orReject_ok, not_not] at h
    obtain ⟨_, _, _, _, c', _, _, htext, h⟩ := h
    obtain rfl := Except.ok.inj h
    rw [htext]
  | _ => cases h

/-- No transition on an accepted state with a next revision finds its result
invalid, whatever else its arguments are, and what it gives back is accepted; a
state that is serialized is parsed back as it was; and a text that is parsed is
the serialization of the state it gives. -/
theorem observer_closed :
    (∀ (operation : Operation) (options : Value) (value : String → Value) (c : Accepted sha),
      captured operation.keys options = .ok value →
      normalizeStateSnapshot sha (value "state") = .ok c →
      c.1.revision.1 < 9007199254740991 → operation.apply sha options ≠ .error .INVALID_STATE
        ∧ ∀ o, operation.apply sha options = .ok o → normalizeStateSnapshot sha o.state.encode
        = .ok o.state)
      ∧ (∀ c : Accepted sha, ∃ text, serializeZenonFundingObserverState sha c.encode = .ok text
        ∧ parseZenonFundingObserverState sha (.str text) = .ok c)
      ∧ ∀ (v : Value) (c : Accepted sha), parseZenonFundingObserverState sha v = .ok c →
        ∃ text, v = .str text ∧ serializeZenonFundingObserverState sha c.encode = .ok text := by
  refine ⟨fun operation options value c hvalue hstate hrevision =>
    ⟨fun hinvalid => ?_, fun o _ => ?_⟩, fun c => ?_, fun v c hparse => ?_⟩
  · have hgives := (Reads.mk hvalue hstate).apply_gives
    rw [hinvalid] at hgives
    have hmax := hgives rfl
    omega
  · exact normalizeStateSnapshot_encode o.state
  · exact ⟨_, serialize_encode c, parse_serialized c⟩
  · exact ⟨_, parse_ok hparse, serialize_encode c⟩

/-! ### A run -/

namespace Sample

def digest : Commitment :=
  ⟨"sha256:" ++ String.ofList (List.replicate 64 'a'), by exact Eq.refl true⟩

def momentum (digit : Char) (h : isNonzeroHash (String.ofList (List.replicate 64 digit)) = true) :
    Hash := ⟨_, h⟩

def observerPolicy : ObserverPolicy := ⟨evaluated "observer-1", evaluated 1, evaluated 1⟩

def authorityGeneration : AuthorityGeneration := ⟨evaluated "authority-1", evaluated 1, digest⟩

def chainProfile : ChainProfile := ⟨evaluated "3", momentum '1' (by decide)⟩

def confirmationPolicy : ConfirmationPolicy :=
  ⟨evaluated "confirmations-1", evaluated 1, evaluated 1⟩

def target : Target where
  transactionId := ⟨"zenontx:" ++ String.ofList (List.replicate 64 'b'), by decide⟩
  payer := evaluated "payer-1"
  payee := evaluated "payee-1"
  asset := evaluated "znn"
  amount := evaluated "100"
  providerId := evaluated "provider-1"
  serviceId := evaluated "service-1"
  resourceId := evaluated "resource-1"
  resourceBinding := digest
  paymentResourceDigest := digest
  paymentRequirementDigest := digest
  paymentIntentDigest := digest
  offerId := evaluated "offer-1"
  offerVersion := evaluated 1
  fundingPolicyId := evaluated "funding-1"
  fundingPolicyVersion := evaluated 1
  capabilityCommitment := digest
  totalUnits := evaluated 10
  expiresAt := evaluated 1000
  grantFundingCommitment := digest

def checkpoint : Checkpoint := ⟨evaluated 7, momentum '7' (by decide)⟩

def frontier : Checkpoint := ⟨evaluated 8, momentum '8' (by decide)⟩

def catchUp : CatchUpConfiguration := ⟨⟨⟨4, by decide⟩, ⟨8, by decide⟩, ⟨2, by decide⟩⟩, by decide⟩

def created (sha : Sha256) : Accepted sha :=
  ⟨initial sha observerPolicy authorityGeneration chainProfile confirmationPolicy target
    checkpoint catchUp, decide_eq_true (initial_valid ..)⟩

def field : String → Value
  | "observerPolicy" => observerPolicyCodec.encode observerPolicy
  | "authorityGeneration" => authorityGenerationCodec.encode authorityGeneration
  | "chainProfile" => chainProfileCodec.encode chainProfile
  | "confirmationPolicy" => confirmationPolicyCodec.encode confirmationPolicy
  | "target" => targetCodec.encode target
  | "checkpoint" => checkpointCodec.encode checkpoint
  | "catchUp" => catchUpConfigurationCodec.encode catchUp
  | _ => .undefined

/-- The arguments of `createZenonFundingObserverState`. -/
def options : Value := written (Order.given CREATE_KEYS) field

/-- The one momentum that is missing, with the target in it. -/
def entry (s : State) : Entry :=
  ⟨⟨⟨8, by decide⟩, momentum '8' (by decide), momentum '7' (by decide)⟩, [s.targetMember]⟩

/-- The page for the plan of the state. -/
def page (sha : Sha256) (s : State) : PageFields :=
  ⟨s.observerRecordId, s.targetBindingDigest, s.authorityGeneration, s.chainProfile,
    (makePlan s frontier).planId sha, s.checkpoint, frontier, [entry s]⟩

/-- A page is applied, and versions are recorded on what it leads to. -/
def calls (sha : Sha256) : List Call :=
  let s := (created sha).1
  [⟨.page, .obj [("state", .null), ("expectedRevision", .num 0),
    ("plan", (makePlan s frontier).value sha), ("page", pageFieldsCodec.encode (page sha s))]⟩,
    ⟨.versions, .obj [("state", .null), ("expectedRevision", .num 1), ("maxV1Height", .num 5),
      ("minV2Height", .num 8)]⟩]

theorem create_options (sha : Sha256) :
    createZenonFundingObserverState sha options = .ok (created sha) :=
  create_written rfl rfl rfl rfl rfl rfl rfl

/-- What a call on the new state has under each key. -/
def versionField (sha : Sha256) : String → Value
  | "state" => (created sha).encode
  | "expectedRevision" => .num 0
  | "maxV1Height" => .num 5
  | "minV2Height" => .num 8
  | _ => .undefined

theorem snapshot_versions (sha : Sha256) :
    snapshotJson (written (Order.given LINEAGE_KEYS) (versionField sha))
    = some (written (Order.given LINEAGE_KEYS) (versionField sha)) := by
  have hjson : (written (Order.given LINEAGE_KEYS) (versionField sha)).Json := by
    refine json_written (by decide) fun k hk => ?_
    simp only [LINEAGE_KEYS, List.mem_cons, List.not_mem_nil, or_false] at hk
    rcases hk with rfl | rfl | rfl | rfl
    · exact json_encode (created sha)
    · exact .num (by decide)
    · exact .num (by decide)
    · exact .num (by decide)
  have hwithin : Value.Within refusedKey (written (Order.given LINEAGE_KEYS) (versionField sha))
      ⟨900, 900, 7000, 600, 24000, 0, 7, 64⟩ :=
    (Measure.Le.inside (Value.fields_cons (bounded_state (created sha).1)
      (Value.fields_cons (Value.within_num 0)
      (Value.fields_cons (Value.within_num 5)
        (Value.fields_cons (Value.within_num 8) Value.fields_nil))))
      (Nat.le_refl 4)).trans (by decide)
  refine snapshotJson_within hjson hwithin ?_ (by decide)
  exact ⟨by decide, by decide, by decide, by decide, by decide, by decide, rfl⟩

theorem captured_versions (sha : Sha256) : ∃ value,
    captured LINEAGE_KEYS (written (Order.given LINEAGE_KEYS) (versionField sha)) = .ok value
      ∧ normalizeStateSnapshot sha (value "state") = .ok (created sha) := by
  obtain ⟨get, hcaptured, hfield⟩ := captured_written (snapshot_versions sha)
  refine ⟨get, hcaptured, ?_⟩
  rw [hfield "state" (by decide)]
  exact normalizeStateSnapshot_encode (created sha)

end Sample

/-- The run of the sample. -/
theorem lineage_safe_sample :
    let c₀ := Sample.created .standard
    let calls := Sample.calls .standard
    let c := runCalls calls c₀
    Leads c₀.1.checkpoint ((history calls c₀).flatMap (·.entries)) c.1.checkpoint
      ∧ c.1.checkpoint = (((history calls c₀).flatMap (·.entries)).getLast?.map
        fun e => e.checkpoint).getD
        c₀.1.checkpoint
      ∧ (∀ a ∈ history calls c₀, a.receipt.1.lineage = a.entries.map (·.toLineageEntry))
      ∧ (∀ i ∈ c.1.inclusion,
        (∃ e ∈ (history calls c₀).flatMap (·.entries), e.height = i.momentumHeight
          ∧ e.hash = i.momentumHash
          ∧ ⟨c.1.target.transactionId, c.1.targetBindingDigest⟩ ∈ e.members)
        ∧ i.currentConfirmations.1 = c.1.checkpoint.height.1 - i.momentumHeight.1 + 1)
      ∧ ∀ t ∈ c.1.firstThreshold, ∃ i ∈ c.1.inclusion,
        FirstReached c.1.confirmationPolicy.minimumConfirmations i.momentumHeight
        (history calls c₀) t :=
  lineage_safe (Sample.create_options .standard)
    (run_runCalls (Sample.calls .standard) (Sample.created .standard))

/-- The same run, and what its states say outside. -/
theorem candidate_stable_sample :
    let c₀ := Sample.created .standard
    let calls := Sample.calls .standard
    let c := runCalls calls c₀
    projectZenonFundingObservationCandidate .standard c₀.encode = .ok none
      ∧ (∀ before after, calls = before ++ after → ∃ m, Run (CallStep .standard) c₀ before m
        ∧ Run (CallStep .standard) m after c ∧ m.1.Stable c.1
        ∧ (m.1.status = .QUARANTINED → projectZenonFundingObservationCandidate .standard c.encode
          = .ok none)
        ∧ ∀ v, projectZenonFundingObservationCandidate .standard m.encode = .ok (some v) →
          projectZenonFundingObservationCandidate .standard c.encode = .ok (some v)
            ∨ c.1.status = .QUARANTINED ∧ projectZenonFundingObservationCandidate .standard c.encode
            = .ok none)
      ∧ ∀ before call after, calls = before ++ call :: after → ∃ m,
        Run (CallStep .standard) c₀ before m
        ∧ Run (CallStep .standard) m (call :: after) c
        ∧ (∀ o, call.run m = .ok o → call.next m = o.state ∧ (o.disposition.Idle → o.state = m)
          ∧ (o.state ≠ m → o.state.1.revision.1 = m.1.revision.1 + 1))
        ∧ ∀ e, call.run m = .error e → call.next m = m :=
  candidate_stable (Sample.create_options .standard)
    (run_runCalls (Sample.calls .standard) (Sample.created .standard))

/-- Version heights for the state of the sample, and that state as a text. -/
theorem observer_closed_sample :
    Operation.versions.apply .standard
    (written (Order.given LINEAGE_KEYS) (Sample.versionField .standard))
        ≠ .error .INVALID_STATE
      ∧ (∃ text, serializeZenonFundingObserverState .standard (Sample.created .standard).encode
        = .ok text
        ∧ parseZenonFundingObserverState .standard (.str text)
        = .ok (Sample.created .standard)) := by
  obtain ⟨value, hvalue, hstate⟩ := Sample.captured_versions .standard
  exact ⟨(observer_closed.1 .versions _ value _ hvalue hstate (by decide)).1,
    observer_closed.2.1 (Sample.created .standard)⟩

end Observer
end ZenonX402
