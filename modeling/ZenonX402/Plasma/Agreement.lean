/-
# When two endpoints agree

The checks of the normalizer as one statement (`agree_cases`). An observation is active exactly if
the endpoints reported the same, on a chain of the profile, with the two sporks once under their
names, and if the quote is the one of the amounts, its total included where there is one
(`agree_active`); it is before dynamic plasma exactly if there is no price and no quote yet
(`agree_before`). The order in which an endpoint lists the sporks is of no consequence
(`agree_like`), and which endpoint comes first only where each of them fails alone, and not in
the same way (`agree_swap`).

Key definitions: `Once`, `Agreed`, `Earlier`, `Checked`, `Like`.
Key theorems: `boundDynamicSpork_iff`, `agree_cases`, `agree_active`, `agree_before`, `agree_like`,
`agree_swap`.
-/
import ZenonX402.Plasma.Observation
import Mathlib.Data.List.Induction

namespace ZenonX402
namespace Plasma
namespace Observation

open Js

variable {left right e : Endpoint} {expected : ExpectedProfile} {compiled : SporkIds}
    {answer : Answer}

/-! ### Equality -/

theorem equalFrontier_iff {left right : Frontier} :
    equalFrontier left right = true ↔ left = right := by
  cases left
  cases right
  simp only [equalFrontier, Bool.and_eq_true, decide_eq_true_eq, sameFrontier_iff,
    Frontier.mk.injEq, and_comm]

theorem equalProfileEvidence_iff {left right : HeightTwo} :
    equalProfileEvidence left right = true ↔ left = right := by
  cases left
  cases right
  simp only [equalProfileEvidence, Bool.and_eq_true, decide_eq_true_eq,
    HeightTwo.mk.injEq, and_assoc]

theorem equalSpork_iff {left right : Spork} : equalSpork left right = true ↔ left = right := by
  cases left
  cases right
  simp only [equalSpork, Bool.and_eq_true, decide_eq_true_eq, Spork.mk.injEq, and_assoc]

/-- Two lists of one length are compared entry by entry. -/
theorem all_equalSpork {a b : List Spork} :
    a.length = b.length ∧ ((a.zip b).all fun p => equalSpork p.1 p.2) = true ↔ a = b := by
  induction a generalizing b with
  | nil => cases b <;> simp
  | cons x a ih =>
    cases b with
    | nil => simp
    | cons y b =>
      rw [List.cons.injEq, ← ih, List.length_cons, List.length_cons, List.zip_cons_cons,
        List.all_cons, Bool.and_eq_true, equalSpork_iff, Nat.add_left_inj]
      exact and_left_comm

theorem equalSporks_iff {left right : Sporks} {a b : List Spork} (ha : left.list = some a)
    (hb : right.list = some b) :
    equalSporks left right = true ↔ left = right := by
  cases left
  cases right
  simp only at ha hb
  subst ha hb
  simp only [equalSporks, Option.getD_some, Bool.and_eq_true, decide_eq_true_eq, and_assoc,
    all_equalSpork, Sporks.mk.injEq, Option.some.injEq]

theorem equalPlasmaVariables_iff {left right : PlasmaVariables} :
    equalPlasmaVariables left right = true ↔ left = right := by
  cases left
  cases right
  simp only [equalPlasmaVariables, Bool.and_eq_true, decide_eq_true_eq,
    PlasmaVariables.mk.injEq, and_assoc]

theorem equalRpcObservation_iff {left right : Rpc} :
    equalRpcObservation left right = true ↔ left = right := by
  obtain ⟨⟨⟩, _⟩ := left
  obtain ⟨⟨⟩, _⟩ := right
  simp only [equalRpcObservation, Bool.and_eq_true, decide_eq_true_eq, Rpc.mk.injEq,
    RpcObservation.mk.injEq, and_assoc]

theorem equalEndpoint_iff {a b : List Spork} (ha : left.sporks.list = some a)
    (hb : right.sporks.list = some b) :
    equalEndpoint left right = true ↔ left = right := by
  simp only [equalEndpoint, Bool.and_eq_true, equalFrontier_iff, equalProfileEvidence_iff,
    equalSporks_iff ha hb, equalPlasmaVariables_iff, equalRpcObservation_iff]
  cases left
  cases right
  simp only [Endpoint.mk.injEq, and_assoc]

/-! ### An endpoint alone -/

theorem endpointFailure_none : endpointFailure e = none ↔ e.beforeFrontier = e.afterFrontier
    ∧ ∃ list, e.sporks.list = some list ∧ e.sporks.count.1 = list.length := by
  unfold endpointFailure
  by_cases h : e.beforeFrontier = e.afterFrontier
  · rw [if_neg (by rw [equalFrontier_iff.mpr h]; decide)]
    cases e.sporks.list <;> simp [h]
  · rw [if_pos (by rw [← Bool.not_eq_true, equalFrontier_iff]; exact h)]
    simp [h]

/-- An endpoint fails alone in two ways. -/
theorem endpointFailure_some (h : endpointFailure e = some answer) :
    answer = misbound .FRONTIER_BINDING_MISMATCH
      ∨ answer = .failure .UNAVAILABLE .SPORK_SNAPSHOT_INCOMPLETE := by
  unfold endpointFailure at h
  split at h
  · exact .inl (Option.some.inj h).symm
  · split at h
    · exact .inr (Option.some.inj h).symm
    · split at h
      · exact .inr (Option.some.inj h).symm
      · cases h

/-! ### The sporks -/

/-- What is in the variables of the loop after a list whose ids are different. -/
def scanned (compiled : SporkIds) (list : List Spork) : Scan :=
  ⟨list.map fun s => s.id, list.reverse.find? fun s => decide (s.id = compiled.dynamicPlasmaId),
    list.reverse.find? fun s => decide (s.id = compiled.libp2pId),
    list.countP fun s => decide (s.name.1 = DYNAMIC_PLASMA_NAME), list.countP fun s =>
    decide (s.name.1 = LIBP2P_NAME)⟩

theorem scan_eq (list : List Spork) : list.foldlM (scanEntry compiled) ⟨[], none, none, 0, 0⟩
    = if (list.map fun s => s.id).Nodup then some (scanned compiled list) else none := by
  induction list using List.reverseRecOn with
  | nil => rfl
  | append_singleton list entry ih =>
    rw [List.foldlM_append, ih]
    by_cases hnodup : (list.map fun s => s.id).Nodup
    · by_cases hnew : entry.id ∈ list.map fun s => s.id
      · have hdup : ¬ ((list ++ [entry]).map fun s => s.id).Nodup := by
          rw [List.map_append, List.map_singleton, List.nodup_append]
          exact fun h => h.2.2 _ hnew _ (List.mem_singleton_self _) rfl
        rw [if_pos hnodup, if_neg hdup]
        simp only [Option.bind_eq_bind, Option.bind_some, List.foldlM_cons, scanEntry, scanned]
        rw [if_pos hnew]
        rfl
      · have hall : ((list ++ [entry]).map fun s => s.id).Nodup := by
          rw [List.map_append, List.map_singleton]
          exact hnodup.append (List.nodup_singleton _) (by simpa using hnew)
        rw [if_pos hnodup, if_pos hall]
        simp only [Option.bind_eq_bind, Option.bind_some, List.foldlM_cons, List.foldlM_nil,
          scanEntry, scanned]
        rw [if_neg hnew]
        simp only [Option.bind_some, Option.pure_def, List.map_append, List.map_singleton,
          List.reverse_append, List.reverse_singleton, List.singleton_append, List.find?_cons,
          List.countP_append, List.countP_singleton,
          decide_eq_true_eq]
        congr 2 <;> split_ifs <;> simp_all
    · have hdup : ¬ ((list ++ [entry]).map fun s => s.id).Nodup := by
        rw [List.map_append, List.nodup_append]
        exact fun h => hnodup h.1
      rw [if_neg hnodup, if_neg hdup]
      rfl

/-- The entry of an id. -/
theorem last_by_id {list : List Spork} {id : Hash} {s : Spork}
    (h : (list.map fun s => s.id).Nodup) :
    (list.reverse.find? fun s => decide (s.id = id)) = some s ↔ s ∈ list ∧ s.id = id := by
  constructor
  · intro hlast
    exact ⟨List.mem_reverse.mp
      (List.mem_of_find?_eq_some hlast), by simpa using List.find?_some hlast⟩
  · rintro ⟨hs, hid⟩
    rcases hlast : list.reverse.find? fun s => decide (s.id = id) with _ | t
    · have hno := List.find?_eq_none.mp hlast s (List.mem_reverse.mpr hs)
      exact absurd (decide_eq_true hid) hno
    · have ht := List.mem_reverse.mp (List.mem_of_find?_eq_some hlast)
      have htid : t.id = id := by simpa using List.find?_some hlast
      rw [hlast, List.inj_on_of_nodup_map h ht hs (htid.trans hid.symm)]

/-- The one entry with a name is that of an id. -/
structure Once (list : List Spork) (id : Hash) (name : String) (s : Spork) : Prop where
  mem : s ∈ list
  id_eq : s.id = id
  name_eq : s.name.1 = name
  once : list.countP (fun s => decide (s.name.1 = name)) = 1

/-- The sporks are bound exactly if no id is there twice and each compiled id has the one entry with
its name. -/
theorem boundDynamicSpork_iff {list : List Spork} {dynamicSpork : Spork} :
    boundDynamicSpork list compiled = some dynamicSpork
    ↔ (list.map fun s => s.id).Nodup
      ∧ Once list compiled.dynamicPlasmaId DYNAMIC_PLASMA_NAME dynamicSpork
      ∧ ∃ libp2p, Once list compiled.libp2pId LIBP2P_NAME libp2p := by
  unfold boundDynamicSpork
  rw [scan_eq]
  by_cases hnodup : (list.map fun s => s.id).Nodup
  · rw [if_pos hnodup]
    simp only [Option.bind_eq_bind, Option.bind_some, scanned, Option.bind_eq_some_iff,
      last_by_id hnodup]
    constructor
    · rintro ⟨d, ⟨hd, hdid⟩, l, ⟨hl, hlid⟩, h⟩
      split_ifs at h with hnames
      · simp only [not_or, not_not] at hnames
        obtain ⟨hdname, hlname, hdonce, hlonce⟩ := hnames
        obtain rfl := Option.some.inj h
        exact ⟨hnodup, ⟨hd, hdid, hdname, hdonce⟩, l, hl, hlid, hlname, hlonce⟩
    · rintro ⟨-, hd, l, hl⟩
      refine ⟨dynamicSpork, ⟨hd.mem, hd.id_eq⟩, l, ⟨hl.mem, hl.id_eq⟩, if_neg ?_⟩
      simp only [not_or, not_not]
      exact ⟨hd.name_eq, hl.name_eq, hd.once, hl.once⟩
  · rw [if_neg hnodup]
    constructor
    · intro h
      cases h
    · intro h
      exact absurd h.1 hnodup

/-! ### What is active -/

/-- What an active endpoint reported. -/
structure Agreed (expected : ExpectedProfile) (compiled : SporkIds) (e : Endpoint) : Prop where
  frontier : e.beforeFrontier = e.afterFrontier
  chain : e.beforeFrontier.chainIdentifier = expected.chainIdentifier
  heightTwo : e.profileEvidence.chainIdentifier = expected.chainIdentifier
  genesis : e.profileEvidence.previousHash = expected.genesisMomentumHash
  sporks : ∃ list dynamicSpork libp2p, e.sporks.list = some list ∧ e.sporks.count.1 = list.length
    ∧ (list.map fun s => s.id).Nodup
    ∧ Once list compiled.dynamicPlasmaId DYNAMIC_PLASMA_NAME dynamicSpork
    ∧ Once list compiled.libp2pId LIBP2P_NAME libp2p ∧ dynamicSpork.activated = true
    ∧ 3 ≤ e.beforeFrontier.height.1
    ∧ dynamicSpork.enforcementHeight.1 < e.beforeFrontier.height.1
  plasma : coherentPlasmaVariables e.plasmaVariables = true
  quoted : ∃ a, Quoted e.beforeFrontier.toObservedFrontier e.rpcObservation.toRpcObservation a
    ∧ ∀ total ∈ e.rpcObservation.requiredFusedPlasma, total = a.requiredFusedPlasma

theorem activeAfterBoundary_iff {frontier : Frontier} {s : Spork} :
    activeAfterBoundary frontier s = true
    ↔ s.activated = true ∧ 3 ≤ frontier.height.1 ∧ s.enforcementHeight.1 < frontier.height.1 := by
  simp only [activeAfterBoundary, Bool.and_eq_true, decide_eq_true_eq, and_assoc]

theorem profileMatches_iff : profileMatches expected e = true ↔ e.beforeFrontier.chainIdentifier
    = expected.chainIdentifier
    ∧ e.profileEvidence.chainIdentifier = expected.chainIdentifier
    ∧ e.profileEvidence.previousHash = expected.genesisMomentumHash := by
  simp only [profileMatches, Bool.and_eq_true, decide_eq_true_eq, and_assoc]

/-- At a frontier of version 2 a total is refused exactly if it is not that of the amounts. -/
theorem totalRefused_iff (hversion : e.beforeFrontier.version.1 = 2) : totalRefused e = false
    ↔ ∀ total ∈ e.rpcObservation.requiredFusedPlasma, ∃ a,
      Quoted e.beforeFrontier.toObservedFrontier e.rpcObservation.toRpcObservation a
        ∧ total = a.requiredFusedPlasma := by
  unfold totalRefused
  rcases htotal : e.rpcObservation.requiredFusedPlasma with _ | total
  · simp
  · simp only [hversion, if_true, Option.mem_some_iff, forall_eq', ← validate_ok,
      Bool.not_eq_false']
    rcases validateDynamicPlasmaRequiredFusedQuote _ with _ | q <;>
      simp [Except.isOk, Except.toBool]

/-- The amounts of an observation are those of one calculation. -/
theorem quoted_unique {frontier : ObservedFrontier} {rpc : RpcObservation} {a b : Amounts}
    (ha : Quoted frontier rpc a) (hb : Quoted frontier rpc b) : a = b :=
  Except.ok.inj (ha.amounts.symm.trans hb.amounts)

/-- A frontier is before dynamic plasma exactly if its version is 1 and it has no prices. -/
theorem classifyObserved_before {frontier : ObservedFrontier} {rpc : RpcObservation} :
    (∃ c, classifyObserved frontier rpc frontier = .ok c ∧ c.classification = .PRE_DP)
      ↔ frontier.version.1 = 1 ∧ frontier.nextFusionPrice.1 = 0 ∧ frontier.nextWorkPrice.1 = 0 := by
  unfold classifyObserved
  rw [if_neg (by rw [sameFrontier_iff.mpr rfl]; decide)]
  constructor
  · rintro ⟨c, h, hbefore⟩
    split_ifs at h with hone hprices htwo hminimum
    · obtain rfl := Except.ok.inj h
      cases hbefore
    · rw [not_or, not_not, not_not] at hprices
      exact ⟨hone, hprices.1, hprices.2⟩
    · obtain rfl := Except.ok.inj h
      cases hbefore
    · obtain rfl := Except.ok.inj h
      cases hbefore
    · obtain ⟨quote, -, h⟩ := bind_ok.mp h
      cases quote with
      | none =>
        obtain rfl := Except.ok.inj h
        cases hbefore
      | some quote =>
        obtain rfl := Except.ok.inj h
        cases hbefore
  · rintro ⟨hversion, hfusion, hwork⟩
    rw [if_pos hversion, if_neg (by rw [hfusion, hwork]; decide)]
    exact ⟨_, rfl, rfl⟩

/-- What an endpoint reported before dynamic plasma is active. -/
structure Earlier (expected : ExpectedProfile) (compiled : SporkIds) (e : Endpoint) : Prop where
  frontier : e.beforeFrontier = e.afterFrontier
  chain : e.beforeFrontier.chainIdentifier = expected.chainIdentifier
  heightTwo : e.profileEvidence.chainIdentifier = expected.chainIdentifier
  genesis : e.profileEvidence.previousHash = expected.genesisMomentumHash
  sporks : ∃ list dynamicSpork libp2p, e.sporks.list = some list ∧ e.sporks.count.1 = list.length
    ∧ (list.map fun s => s.id).Nodup
    ∧ Once list compiled.dynamicPlasmaId DYNAMIC_PLASMA_NAME dynamicSpork
    ∧ Once list compiled.libp2pId LIBP2P_NAME libp2p
    ∧ ¬ (dynamicSpork.activated = true ∧ 3 ≤ e.beforeFrontier.height.1
      ∧ dynamicSpork.enforcementHeight.1 < e.beforeFrontier.height.1)
  plasma : coherentPlasmaVariables e.plasmaVariables = true
  version : e.beforeFrontier.version.1 = 1
  fusion : e.beforeFrontier.nextFusionPrice.1 = 0
  work : e.beforeFrontier.nextWorkPrice.1 = 0
  total : ∀ total ∈ e.rpcObservation.requiredFusedPlasma, total.1 = e.rpcObservation.basePlasma.1

/-- What is asked of an observation before it is classified. -/
structure Checked (expected : ExpectedProfile) (compiled : SporkIds) (e : Endpoint) : Prop where
  frontier : e.beforeFrontier = e.afterFrontier
  chain : e.beforeFrontier.chainIdentifier = expected.chainIdentifier
  heightTwo : e.profileEvidence.chainIdentifier = expected.chainIdentifier
  genesis : e.profileEvidence.previousHash = expected.genesisMomentumHash
  sporks : ∃ list dynamicSpork libp2p, e.sporks.list = some list ∧ e.sporks.count.1 = list.length
    ∧ (list.map fun s => s.id).Nodup
    ∧ Once list compiled.dynamicPlasmaId DYNAMIC_PLASMA_NAME dynamicSpork
    ∧ Once list compiled.libp2pId LIBP2P_NAME libp2p
    ∧ coherentFrontierState e.beforeFrontier dynamicSpork = true
  plasma : coherentPlasmaVariables e.plasmaVariables = true
  total : totalRefused e = false

section

/-- What two endpoints are answered: what does not belong together, a list that is not complete, or
the class of the one observation that is checked. -/
theorem agree_cases (h : agree expected compiled left right = .ok answer) :
    (∃ reason ≠ .QUOTE_REQUEST_CONTEXT_MISMATCH, answer = misbound reason)
      ∨ answer = .failure .UNAVAILABLE .SPORK_SNAPSHOT_INCOMPLETE
      ∨ ∃ c, answer = .observed left c ∧ left = right ∧ Checked expected compiled left
        ∧ classifyObserved left.beforeFrontier.toObservedFrontier
        left.rpcObservation.toRpcObservation
          left.beforeFrontier.toObservedFrontier = .ok c := by
  have misbound_of : ∀ {reason}, (.ok (misbound reason) : Except Refusal Answer) = .ok answer →
      reason ≠ .QUOTE_REQUEST_CONTEXT_MISMATCH → ∃ reason ≠ .QUOTE_REQUEST_CONTEXT_MISMATCH,
      answer = misbound reason :=
    fun heq hne => ⟨_, hne, (Except.ok.inj heq).symm⟩
  unfold agree at h
  rcases hfind : [left, right].findSome? endpointFailure with _ | failure
  · rw [hfind] at h
    have hnone := List.findSome?_eq_none_iff.mp hfind
    obtain ⟨hfrontier, list, hlist, hcount⟩ := endpointFailure_none.mp (hnone left (by simp))
    obtain ⟨-, other, hother, -⟩ := endpointFailure_none.mp (hnone right (by simp))
    dsimp only at h
    split at h
    · exact .inl (misbound_of h (by decide))
    next hequal =>
    obtain rfl := (equalEndpoint_iff hlist hother).mp (by simpa using hequal)
    split at h
    · exact .inl (misbound_of h (by decide))
    next hprofile =>
    obtain ⟨hchain, htwo, hgenesis⟩ := profileMatches_iff.mp (by simpa using hprofile)
    rw [hlist, Option.getD_some] at h
    rcases hbound : boundDynamicSpork list compiled with _ | dynamicSpork
    · rw [hbound] at h
      exact .inl (misbound_of h (by decide))
    rw [hbound] at h
    dsimp only at h
    obtain ⟨hnodup, hdynamic, libp2p, hlibp2p⟩ := boundDynamicSpork_iff.mp hbound
    split at h
    · exact .inl (misbound_of h (by decide))
    next hvariables =>
    split at h
    · exact .inl (misbound_of h (by decide))
    next hstate =>
    split at h
    · exact .inl (misbound_of h (by decide))
    next htotal =>
    obtain ⟨c, hc, h⟩ := bind_ok.mp h
    rw [failWith_ok, classify_encode, ← hfrontier] at hc
    exact .inr (.inr ⟨c, (Except.ok.inj h).symm, rfl,
      ⟨hfrontier, hchain, htwo, hgenesis,
        ⟨list, dynamicSpork, libp2p, hlist, hcount, hnodup, hdynamic,
          hlibp2p, by simpa using hstate⟩, by simpa using hvariables, by simpa using htotal⟩, hc⟩)
  · rw [hfind] at h
    obtain rfl := Except.ok.inj h
    obtain ⟨e, -, he⟩ := List.exists_of_findSome?_eq_some hfind
    rcases endpointFailure_some he with rfl | rfl
    · exact .inl ⟨.FRONTIER_BINDING_MISMATCH, by decide, rfl⟩
    · exact .inr (.inl rfl)

/-- An observation that is checked is classified, whichever of the two endpoints it is. -/
theorem agree_of_checked (h : Checked expected compiled e) {c : Classified}
    (hclass : classifyObserved
    e.beforeFrontier.toObservedFrontier e.rpcObservation.toRpcObservation
    e.beforeFrontier.toObservedFrontier = .ok c) :
    agree expected compiled e e = .ok (.observed e c) := by
  obtain ⟨list, dynamicSpork, libp2p, hlist, hcount, hnodup, hdynamic, hlibp2p, hstate⟩ := h.sporks
  have hfailure : endpointFailure e = none :=
    endpointFailure_none.mpr ⟨h.frontier, list, hlist, hcount⟩
  have hequal : equalEndpoint e e = true := (equalEndpoint_iff hlist hlist).mpr rfl
  have hprofile : profileMatches expected e = true :=
    profileMatches_iff.mpr ⟨h.chain, h.heightTwo, h.genesis⟩
  have hbound : boundDynamicSpork list compiled = some dynamicSpork :=
    boundDynamicSpork_iff.mpr ⟨hnodup, hdynamic, libp2p, hlibp2p⟩
  unfold agree
  simp only [List.findSome?_cons, hfailure, List.findSome?_nil, hequal, hprofile, hlist,
    Option.getD_some, hbound, h.plasma, hstate, h.total, Bool.true_eq_false, Bool.false_eq_true,
    if_false, classify_encode, ← h.frontier, hclass]
  rfl

theorem agree_of_active (h : agree expected compiled left right = .ok answer)
    (hactive : answer.classification = .DP_ACTIVE) :
    left = right ∧ Agreed expected compiled left ∧ ∃ a quote,
      Quoted left.beforeFrontier.toObservedFrontier left.rpcObservation.toRpcObservation a
        ∧ answer = .observed left ⟨.DP_ACTIVE, .NONE, .MATCH, some quote⟩
        ∧ quote = quoteOf left.beforeFrontier.toObservedFrontier
        left.rpcObservation.toRpcObservation a := by
  rcases agree_cases h with ⟨_, -, rfl⟩ | rfl | ⟨c, rfl, hsame, hchecked, hc⟩
  · cases hactive
  · cases hactive
  · obtain ⟨-, a, quote, hquoted, rfl, hquote⟩ := classifyObserved_active hc hactive
    rw [checkedQuote_of hquoted] at hquote
    obtain rfl := Option.some.inj (Except.ok.inj hquote)
    obtain ⟨list, dynamicSpork, libp2p, hlist, hcount, hnodup, hdynamic, hlibp2p, hstate⟩ :=
      hchecked.sporks
    have hboundary : activeAfterBoundary left.beforeFrontier dynamicSpork = true := by
      by_contra hno
      rw [coherentFrontierState, if_neg hno] at hstate
      have hone : left.beforeFrontier.version.1 = 1 := by
        simp only [Bool.and_eq_true, decide_eq_true_eq] at hstate
        exact hstate.1.1
      have htwo : left.beforeFrontier.version.1 = 2 := hquoted.version
      omega
    obtain ⟨hactivated, hheight, henforced⟩ := activeAfterBoundary_iff.mp hboundary
    refine ⟨hsame, ⟨hchecked.frontier, hchecked.chain, hchecked.heightTwo, hchecked.genesis,
      ⟨list, dynamicSpork, libp2p, hlist, hcount, hnodup, hdynamic, hlibp2p, hactivated, hheight,
        henforced⟩, hchecked.plasma, a, hquoted, fun total htotal => ?_⟩, a, _,
      hquoted, rfl, rfl⟩
    obtain ⟨b, hb, rfl⟩ := (totalRefused_iff hquoted.version).mp hchecked.total total htotal
    rw [quoted_unique hquoted hb]

theorem agree_of_agreed (h : Agreed expected compiled e) :
    ∃ answer, agree expected compiled e e = .ok answer
    ∧ answer.classification = .DP_ACTIVE := by
  obtain ⟨list, dynamicSpork, libp2p, hlist, hcount, hnodup, hdynamic, hlibp2p, hboundary⟩ :=
    h.sporks
  obtain ⟨a, hquoted, htotals⟩ := h.quoted
  have hstate : coherentFrontierState e.beforeFrontier dynamicSpork = true := by
    rw [coherentFrontierState, if_pos (activeAfterBoundary_iff.mpr hboundary)]
    exact decide_eq_true hquoted.version
  have htotal : totalRefused e = false :=
    (totalRefused_iff hquoted.version).mpr fun total ht => ⟨a, hquoted, htotals total ht⟩
  have hchecked : Checked expected compiled e :=
    ⟨h.frontier, h.chain, h.heightTwo, h.genesis,
      ⟨list, dynamicSpork, libp2p, hlist, hcount, hnodup, hdynamic, hlibp2p, hstate⟩,
      h.plasma, htotal⟩
  exact ⟨_, agree_of_checked hchecked (classifyObserved_of hquoted), rfl⟩

/-- At a frontier of version 1 a total is refused exactly if it is not the base plasma. -/
theorem totalRefused_base (hversion : e.beforeFrontier.version.1 = 1) : totalRefused e = false
    ↔ ∀ total ∈ e.rpcObservation.requiredFusedPlasma, total.1 = e.rpcObservation.basePlasma.1 := by
  unfold totalRefused
  rcases htotal : e.rpcObservation.requiredFusedPlasma with _ | total
  · simp
  · simp [hversion]

/-- **What is before dynamic plasma.** Two endpoints are classified so exactly if they reported the
same, at a frontier of version 1 without prices, and dynamic plasma is not active after it. -/
theorem agree_before :
    (∃ answer, agree expected compiled left right = .ok answer ∧ answer.classification = .PRE_DP)
    ↔ left = right ∧ Earlier expected compiled left := by
  constructor
  · rintro ⟨answer, h, hbefore⟩
    rcases agree_cases h with ⟨_, -, rfl⟩ | rfl | ⟨c, rfl, hsame, hchecked, hc⟩
    · cases hbefore
    · cases hbefore
    · obtain ⟨hversion, hfusion, hwork⟩ := classifyObserved_before.mp ⟨c, hc, hbefore⟩
      obtain ⟨list, dynamicSpork, libp2p, hlist, hcount, hnodup, hdynamic, hlibp2p, hstate⟩ :=
        hchecked.sporks
      refine ⟨hsame, hchecked.frontier, hchecked.chain, hchecked.heightTwo, hchecked.genesis,
        ⟨list, dynamicSpork, libp2p, hlist, hcount, hnodup, hdynamic, hlibp2p, fun hboundary => ?_⟩,
        hchecked.plasma, hversion, hfusion, hwork,
        (totalRefused_base hversion).mp hchecked.total⟩
      rw [coherentFrontierState, if_pos (activeAfterBoundary_iff.mpr hboundary),
        decide_eq_true_eq] at hstate
      omega
  · rintro ⟨rfl, h⟩
    obtain ⟨list, dynamicSpork, libp2p, hlist, hcount, hnodup, hdynamic, hlibp2p, hboundary⟩ :=
      h.sporks
    have hstate : coherentFrontierState left.beforeFrontier dynamicSpork = true := by
      rw [coherentFrontierState, if_neg (mt activeAfterBoundary_iff.mp hboundary)]
      simp only [h.version, h.fusion, h.work, decide_true, Bool.and_self]
    have hchecked : Checked expected compiled left :=
      ⟨h.frontier, h.chain, h.heightTwo, h.genesis,
        ⟨list, dynamicSpork, libp2p, hlist, hcount, hnodup, hdynamic, hlibp2p, hstate⟩, h.plasma,
        (totalRefused_base h.version).mpr h.total⟩
    obtain ⟨c, hc, hbefore⟩ := classifyObserved_before.mpr ⟨h.version, h.fusion, h.work⟩
    exact ⟨_, agree_of_checked hchecked hc, hbefore⟩

/-- **What is active.** Two endpoints are active exactly if they reported the same, and it agrees
with all that is expected. -/
theorem agree_active :
    (∃ answer, agree expected compiled left right = .ok answer ∧ answer.classification = .DP_ACTIVE)
    ↔ left = right ∧ Agreed expected compiled left := by
  constructor
  · rintro ⟨answer, h, hactive⟩
    obtain ⟨hsame, hagreed, -⟩ := agree_of_active h hactive
    exact ⟨hsame, hagreed⟩
  · rintro ⟨rfl, hagreed⟩
    exact agree_of_agreed hagreed

end

/-! ### The order of the sporks -/

theorem sortById_perm (list : List Spork) : (sortById list).Perm list := List.mergeSort_perm ..

theorem sorted_sortById (list : List Spork) :
    (sortById list).Pairwise fun left right => left.id.1 ≤ right.id.1 := by
  refine (List.pairwise_mergeSort (fun a b c hab hbc => ?_) (fun a b => ?_) list).imp
    of_decide_eq_true
  · exact decide_eq_true ((of_decide_eq_true hab).trans (of_decide_eq_true hbc))
  · rw [Bool.or_eq_true, decide_eq_true_eq, decide_eq_true_eq]
    exact le_total ..

/-- Entries with different ids are sorted in one way. -/
theorem sortById_eq {list list' : List Spork} (h : list.Perm list')
    (hnodup : (list.map fun s => s.id).Nodup) :
    sortById list = sortById list' := by
  have hperm : (sortById list).Perm (sortById list') :=
    (sortById_perm list).trans (h.trans (sortById_perm list').symm)
  refine List.Perm.eq_of_pairwise (fun a b ha hb hab hba => ?_) (sorted_sortById list)
    (sorted_sortById list') hperm
  have ha := (sortById_perm list).mem_iff.mp ha
  have hb := h.mem_iff.mpr ((sortById_perm list').mem_iff.mp hb)
  exact List.inj_on_of_nodup_map hnodup ha hb (Subtype.ext (le_antisymm hab hba))

/-- The same endpoint, but for the order in which the sporks were listed. -/
structure Like (e e' : Endpoint) : Prop where
  rest : e' = { e with sporks := e'.sporks }
  count : e'.sporks.count = e.sporks.count
  list : e.sporks.list = none ∧ e'.sporks.list = none ∨ ∃ list list', e.sporks.list
    = some (sortById list)
    ∧ e'.sporks.list = some (sortById list') ∧ list.Perm list'

section

variable {left' right' e' : Endpoint}

theorem endpointFailure_like (h : Like e e') : endpointFailure e' = endpointFailure e := by
  have hbefore : e'.beforeFrontier = e.beforeFrontier := by rw [h.rest]
  have hafter : e'.afterFrontier = e.afterFrontier := by rw [h.rest]
  unfold endpointFailure
  rw [hbefore, hafter, h.count]
  rcases h.list with ⟨hnone, hnone'⟩ | ⟨list, list', hlist, hlist', hperm⟩
  · rw [hnone, hnone']
  · have hlength : (sortById list').length = (sortById list).length :=
      ((sortById_perm list').trans (hperm.symm.trans (sortById_perm list).symm)).length_eq
    rw [hlist, hlist']
    dsimp only
    rw [hlength]

theorem like_eq {list : List Spork} (h : Like e e') (hlist : e.sporks.list = some list)
    (hnodup : (list.map fun s => s.id).Nodup) :
    e' = e := by
  rcases h.list with ⟨hnone, -⟩ | ⟨a, a', ha, ha', hperm⟩
  · rw [hlist] at hnone
    cases hnone
  · obtain rfl := Option.some.inj (hlist.symm.trans ha)
    have hsame : sortById a = sortById a' :=
      sortById_eq hperm ((((sortById_perm a).map _).nodup_iff).mp hnodup)
    have hsporks : e'.sporks = e.sporks := by
      have hcount := h.count
      rcases hs : e.sporks with ⟨count, list⟩
      rcases hs' : e'.sporks with ⟨count', list'⟩
      rw [hs] at ha hcount
      rw [hs'] at ha' hcount
      simp only at ha ha' hcount
      rw [hcount, ha, ha', hsame]
    rw [h.rest, hsporks]

theorem like_list {list : List Spork} (h : Like e e') (hlist : e.sporks.list = some list) :
    ∃ list', e'.sporks.list = some list' ∧ list.Perm list' := by
  rcases h.list with ⟨hnone, -⟩ | ⟨a, a', ha, ha', hperm⟩
  · rw [hlist] at hnone
    cases hnone
  · obtain rfl := Option.some.inj (hlist.symm.trans ha)
    exact ⟨_, ha', (sortById_perm a).trans (hperm.trans (sortById_perm a').symm)⟩

/-- An id that an endpoint lists twice keeps the sporks from being bound. -/
theorem agree_doubled {a b : List Spork} (hl : endpointFailure left = none)
    (hr : endpointFailure right = none) (ha : left.sporks.list = some a)
    (hb : right.sporks.list = some b)
    (hdoubled : ¬ ((a.map fun s => s.id).Nodup ∧ (b.map fun s => s.id).Nodup)) :
    ∃ answer, agree expected compiled left right = .ok answer ∧ answer.classification
      = .MISBOUND_OR_INCOHERENT := by
  unfold agree
  simp only [List.findSome?_cons, hl, hr, List.findSome?_nil]
  split
  · exact ⟨_, rfl, rfl⟩
  next hequal =>
  obtain rfl := (equalEndpoint_iff ha hb).mp (by simpa using hequal)
  obtain rfl := Option.some.inj (ha.symm.trans hb)
  have hbound : boundDynamicSpork a compiled = none := by
    rcases hsome : boundDynamicSpork a compiled with _ | s
    · rfl
    · have hnodup := (boundDynamicSpork_iff.mp hsome).1
      exact absurd ⟨hnodup, hnodup⟩ hdoubled
  split
  · exact ⟨_, rfl, rfl⟩
  · rw [ha, Option.getD_some, hbound]
    exact ⟨_, rfl, rfl⟩

theorem agree_failure (h : [left, right].findSome? endpointFailure = some answer) :
    agree expected compiled left right = .ok answer := by
  unfold agree
  rw [h]

/-- **The order of the sporks.** In whatever order each endpoint lists the sporks, the
classification is one. -/
theorem agree_like (hl : Like left left') (hr : Like right right')
    (h : agree expected compiled left right = .ok answer) :
    ∃ answer', agree expected compiled left' right' = .ok answer' ∧ answer'.classification
      = answer.classification := by
  have hfailures : [left', right'].findSome? endpointFailure
      = [left, right].findSome? endpointFailure := by
    simp only [List.findSome?_cons, endpointFailure_like hl, endpointFailure_like hr]
  rcases hfind : [left, right].findSome? endpointFailure with _ | failure
  · have hnone := List.findSome?_eq_none_iff.mp hfind
    have hleft := hnone left (by simp)
    have hright := hnone right (by simp)
    obtain ⟨-, a, ha, -⟩ := endpointFailure_none.mp hleft
    obtain ⟨-, b, hb, -⟩ := endpointFailure_none.mp hright
    by_cases hnodup : (a.map fun s => s.id).Nodup ∧ (b.map fun s => s.id).Nodup
    · rw [like_eq hl ha hnodup.1, like_eq hr hb hnodup.2]
      exact ⟨answer, h, rfl⟩
    · obtain ⟨doubled, hmisbound, hclass⟩ : ∃ m, agree expected compiled left right = .ok m
          ∧ m.classification = .MISBOUND_OR_INCOHERENT := agree_doubled hleft hright ha hb hnodup
      obtain rfl := Except.ok.inj (hmisbound.symm.trans h)
      obtain ⟨a', ha', hpa⟩ := like_list hl ha
      obtain ⟨b', hb', hpb⟩ := like_list hr hb
      rw [hclass]
      refine agree_doubled (by rw [endpointFailure_like hl, hleft])
        (by rw [endpointFailure_like hr, hright]) ha' hb' fun hnodup' => ?_
      exact hnodup ⟨((hpa.map _).nodup_iff).mpr hnodup'.1, ((hpb.map _).nodup_iff).mpr hnodup'.2⟩
  · obtain rfl := Except.ok.inj ((agree_failure hfind).symm.trans h)
    exact ⟨failure, agree_failure (hfailures.trans hfind), rfl⟩

/-- **The order of the endpoints.** It counts exactly where each endpoint fails alone, and not as
the other one does. -/
theorem agree_swap (h : agree expected compiled left right = .ok answer) :
    (∃ answer', agree expected compiled right left = .ok answer' ∧ answer'.classification
      = answer.classification)
      ↔ ∀ f ∈ endpointFailure left, ∀ g ∈ endpointFailure right, f.classification
        = g.classification := by
  rcases hl : endpointFailure left with _ | f
  · rcases hr : endpointFailure right with _ | g
    · obtain ⟨-, a, ha, -⟩ := endpointFailure_none.mp hl
      obtain ⟨-, b, hb, -⟩ := endpointFailure_none.mp hr
      refine ⟨fun _ f hf => absurd hf (Option.not_mem_none f), fun _ => ?_⟩
      by_cases hsame : left = right
      · subst hsame
        exact ⟨answer, h, rfl⟩
      · have hequal : equalEndpoint left right = false := by
          rw [← Bool.not_eq_true, equalEndpoint_iff ha hb]
          exact hsame
        have hequal' : equalEndpoint right left = false := by
          rw [← Bool.not_eq_true, equalEndpoint_iff hb ha]
          exact fun he => hsame he.symm
        simp only [agree, List.findSome?_cons, hl, hr, List.findSome?_nil, hequal, hequal',
          if_true] at h ⊢
        obtain rfl := Except.ok.inj h
        exact ⟨_, rfl, rfl⟩
    · have hg : agree expected compiled left right = .ok g := agree_failure (by simp [hl, hr])
      have hg' : agree expected compiled right left = .ok g := agree_failure (by simp [hr])
      obtain rfl := Except.ok.inj (hg.symm.trans h)
      exact ⟨fun _ f hf => absurd hf (Option.not_mem_none f), fun _ => ⟨g, hg', rfl⟩⟩
  · have hf : agree expected compiled left right = .ok f := agree_failure (by simp [hl])
    obtain rfl := Except.ok.inj (hf.symm.trans h)
    rcases hr : endpointFailure right with _ | g
    · have hf' : agree expected compiled right left = .ok f := agree_failure (by simp [hl, hr])
      exact ⟨fun _ _ _ g hg => absurd hg (Option.not_mem_none g), fun _ => ⟨f, hf', rfl⟩⟩
    · have hg : agree expected compiled right left = .ok g := agree_failure (by simp [hr])
      constructor
      · rintro ⟨answer', hanswer', hclass⟩ f' hf' g' hg'
        obtain rfl := Except.ok.inj (hg.symm.trans hanswer')
        obtain rfl := Option.mem_some_iff.mp hf'
        obtain rfl := Option.mem_some_iff.mp hg'
        exact hclass.symm
      · intro hsame
        exact ⟨g, hg, (hsame f rfl g rfl).symm⟩

end

end Observation
end Plasma
end ZenonX402
