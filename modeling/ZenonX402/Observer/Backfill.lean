/-
# Backfill

Against a frontier above its checkpoint a state plans a page, and an honest page for that
plan is applied: it moves the checkpoint to the last height of the plan, as long as there is
a next revision and the arguments of the call are within the limits of `snapshotJson`
(`backfill_advances`). Those limits are on the whole call. The catch-up configuration has
limits of its own, for a page and for a momentum, and a page within these may be far above
the others: then every call with it is refused, and the state does not move.

Key definitions: `planFor`, `Honest`, `pageOptions`.
Key theorems: `plan_returned`, `walkPage_honest`, `Honest.fits`, `backfill_advances`.
-/
import ZenonX402.Observer.Runs

namespace ZenonX402
namespace Observer

open Js
open Credit (Commitment PositiveInt Rejection)

variable {sha : Sha256} {s : State} {c : Accepted sha} {frontier : Checkpoint}

/-! ### The plan -/

theorem through_bounds (s : State) (h : s.checkpoint.height.1 < frontier.height.1) :
    s.checkpoint.height.1 < s.catchUp.1.through s.checkpoint frontier
      ∧ s.catchUp.1.through s.checkpoint frontier ≤ frontier.height.1 := by
  have hentries := s.catchUp.1.maximumPageEntries.pos
  have hspan := s.catchUp.1.maximumBackfillSpan.pos
  unfold CatchUpFields.through
  omega

/-- The plan that `makePlan` makes. -/
def planFor (sha : Sha256) (s : State) (frontier : Checkpoint)
    (h : s.checkpoint.height.1 < frontier.height.1) : Plan where
  observerRecordId := s.observerRecordId
  targetBindingDigest := s.targetBindingDigest
  authorityGeneration := s.authorityGeneration
  chainProfile := s.chainProfile
  startCheckpoint := s.checkpoint
  frontier := frontier
  fromHeight := ⟨s.checkpoint.height.1 + 1, by
    have := s.checkpoint.height.nonneg
    have := frontier.height.le
    omega, by
    have := s.checkpoint.height.nonneg
    simpa using (by omega : 0 < s.checkpoint.height.1 + 1)⟩
  throughHeight := ⟨(makePlan s frontier).throughHeight, by
    have := s.checkpoint.height.nonneg
    have := frontier.height.le
    have := through_bounds s h
    simp only [makePlan]
    omega, by
    have := s.checkpoint.height.nonneg
    have := through_bounds s h
    exact decide_eq_true (by omega : 0 < s.catchUp.1.through s.checkpoint frontier)⟩
  entryCount := ⟨(makePlan s frontier).entryCount, by
    have := s.checkpoint.height.nonneg
    have := frontier.height.le
    have := through_bounds s h
    simp only [makePlan]
    omega, by
    have := through_bounds s h
    exact decide_eq_true
      (by omega : 0 < s.catchUp.1.through s.checkpoint frontier - (s.checkpoint.height.1 + 1) + 1)⟩
  planId := (makePlan s frontier).planId sha

/-- The plan is the one that the state has for its frontier, above the checkpoint. -/
structure Plans (sha : Sha256) (s : State) (plan : Plan) : Prop where
  planId : plan.planId = plan.data.planId sha
  data : plan.data = makePlan s plan.frontier
  above : s.checkpoint.height.1 < plan.frontier.height.1

theorem plans_planFor (h : s.checkpoint.height.1 < frontier.height.1) :
    Plans sha s (planFor sha s frontier h) :=
  ⟨rfl, rfl, h⟩

theorem Plans.count {plan : Plan} (h : Plans sha s plan) :
    plan.entryCount.1 = s.catchUp.1.through s.checkpoint plan.frontier
    - (s.checkpoint.height.1 + 1) + 1 :=
  congrArg PlanData.entryCount h.data

theorem Plans.through {plan : Plan} (h : Plans sha s plan) :
    plan.throughHeight.1 = s.catchUp.1.through s.checkpoint plan.frontier :=
  congrArg PlanData.throughHeight h.data

theorem Plans.start {plan : Plan} (h : Plans sha s plan) : plan.startCheckpoint = s.checkpoint :=
  congrArg PlanData.startCheckpoint h.data

theorem Plans.fromHeight {plan : Plan} (h : Plans sha s plan) :
    plan.fromHeight.1 = s.checkpoint.height.1 + 1 :=
  congrArg PlanData.fromHeight h.data

/-- A plan that is written is read as it was. -/
theorem normalizePlan_encode {plan : Plan} (h : plan.planId = plan.data.planId sha) :
    normalizePlan sha (planCodec.encode plan) = .ok plan := by
  simp only [normalizePlan, bind_ok, failWith_ok]
  exact ⟨plan, planCodec.decode_encode_self plan, (), rejectIf_ok.mpr (not_not.mpr h), rfl⟩

theorem bounded_plan : planCodec.Bounded refusedKey ⟨30, 30, 400, 0, 1000, 0, 2, 11⟩ :=
  (Codec.bounded_equiv (Codec.bounded_object (Fields.bounded_const (Codec.bounded_constNum _ _ _)
    (Fields.bounded_cons bounded_commitment (Fields.bounded_cons bounded_commitment
    (Fields.bounded_cons bounded_authorityGeneration (Fields.bounded_cons bounded_chainProfile
    (Fields.bounded_cons bounded_checkpoint (Fields.bounded_cons bounded_checkpoint
    (Fields.bounded_cons (Codec.bounded_integer _ _)
      (Fields.bounded_cons (Codec.bounded_integer _ _)
    (Fields.bounded_cons (Codec.bounded_integer _ _) (Fields.bounded_cons bounded_commitment
      Fields.bounded_nil))))))))))) _ _) _).mono (by decide)

theorem makeDetachedPlan_ok (h : s.checkpoint.height.1 < frontier.height.1) :
    makeDetachedPlan sha s frontier = .ok (planFor sha s frontier h) := by
  have hvalue : (makePlan s frontier).value sha = planCodec.encode (planFor sha s frontier h) := rfl
  have hsnapshot : snapshotJson (planCodec.encode (planFor sha s frontier h))
      = some (planCodec.encode (planFor sha s frontier h)) := by
    refine snapshotJson_within (planCodec.json_encode _) (bounded_plan _) ?_ (by decide)
    exact ⟨by decide, by decide, by decide, by decide, by decide, by decide, rfl⟩
  simp only [makeDetachedPlan, bind_ok, orReject_ok, hvalue]
  exact ⟨_, hsnapshot, normalizePlan_encode rfl⟩

/-- What a source has that knows the frontier and the checkpoint of the state. -/
def sourceField (frontier : Checkpoint) (checkpointHash : Hash) : String → Value
  | "status" => .str "AVAILABLE"
  | "frontier" => checkpointCodec.encode frontier
  | "checkpointHash" => .str checkpointHash.1
  | _ => .undefined

def sourceValue (frontier : Checkpoint) (checkpointHash : Hash) : Value :=
  written (Order.given ["status", "frontier", "checkpointHash"])
  (sourceField frontier checkpointHash)

theorem normalizeSource_sourceValue (frontier : Checkpoint) (checkpointHash : Hash) :
    normalizeSource (sourceValue frontier checkpointHash)
      = .ok (.available frontier (some checkpointHash)) := by
  obtain ⟨get, hget, hfield⟩ :=
    fields_written (Order.given ["status", "frontier", "checkpointHash"])
    (sourceField frontier checkpointHash)
  have hobject : exactObject ["status", "frontier", "checkpointHash"]
      (sourceValue frontier checkpointHash) = some get := by
    rw [exactObject, sourceValue, hget]
    rfl
  have hstatus : get "status" = .str "AVAILABLE" := hfield "status" (by decide)
  have hfrontier : checkpointCodec.decode (get "frontier") = .ok frontier := by
    rw [hfield "frontier" (by decide)]
    exact checkpointCodec.decode_encode_self frontier
  have hhash (hnull : ∀ a, assertHash.decode .null ≠ .ok a) :
      (Codec.nullable assertHash hnull).decode (get "checkpointHash")
        = .ok (some checkpointHash) := by
    rw [hfield "checkpointHash" (by decide)]
    exact (Codec.nullable assertHash hnull).decode_encode_self (some checkpointHash)
  unfold normalizeSource
  rw [show statusOf (sourceValue frontier checkpointHash) = .str "AVAILABLE" from rfl,
    if_neg (by decide)]
  simp only [bind_ok, orReject_ok, failWith_ok]
  exact ⟨get, hobject, (), rejectIf_ok.mpr (by rw [hstatus]; decide), frontier, hfrontier,
    some checkpointHash, hhash _, rfl⟩

/-- What a call that plans has under each key. -/
def planField (c : Accepted sha) (frontier : Checkpoint) : String → Value
  | "state" => c.encode
  | "expectedRevision" => .num c.1.revision.1
  | "observerRecordId" => .str c.1.observerRecordId.1
  | "targetBindingDigest" => .str c.1.targetBindingDigest.1
  | "authorityGeneration" => authorityGenerationCodec.encode c.1.authorityGeneration
  | "chainProfile" => chainProfileCodec.encode c.1.chainProfile
  | "source" => sourceValue frontier c.1.checkpoint.hash
  | _ => .undefined

def planOptions (c : Accepted sha) (frontier : Checkpoint) : Value :=
  written (Order.given PLAN_KEYS) (planField c frontier)

theorem json_sourceValue (frontier : Checkpoint) (checkpointHash : Hash) :
    (sourceValue frontier checkpointHash).Json := by
  refine json_written (by decide) fun k hk => ?_
  simp only [List.mem_cons, List.not_mem_nil, or_false] at hk
  rcases hk with rfl | rfl | rfl
  · exact .str _
  · exact checkpointCodec.json_encode frontier
  · exact .str _

theorem bounded_sourceValue (frontier : Checkpoint) (checkpointHash : Hash) :
    Value.Within refusedKey (sourceValue frontier checkpointHash) ⟨10, 10, 100, 0, 200, 0, 2, 3⟩ :=
  (Measure.Le.inside (Value.fields_cons (Value.within_str (n := 9) (by decide))
    (Value.fields_cons (bounded_checkpoint frontier)
    (Value.fields_cons (bounded_hash checkpointHash) Value.fields_nil))) (Nat.le_refl 3)).trans
    (by decide)

/-- The arguments of a call that plans are within the limits. -/
theorem snapshot_planOptions (c : Accepted sha) (frontier : Checkpoint) :
    snapshotJson (planOptions c frontier) = some (planOptions c frontier) := by
  have hjson : (planOptions c frontier).Json := by
    refine json_written (by decide) fun k hk => ?_
    simp only [PLAN_KEYS, List.mem_cons, List.not_mem_nil, or_false] at hk
    rcases hk with rfl | rfl | rfl | rfl | rfl | rfl | rfl
    · exact json_encode c
    · exact assertNonnegativeInteger.json_encode c.1.revision
    · exact .str _
    · exact .str _
    · exact authorityGenerationCodec.json_encode c.1.authorityGeneration
    · exact chainProfileCodec.json_encode c.1.chainProfile
    · exact json_sourceValue _ _
  have hwithin : Value.Within refusedKey (planOptions c frontier)
      ⟨900, 900, 7000, 600, 25000, 0, 7, 64⟩ :=
    (Measure.Le.inside (Value.fields_cons (bounded_state c.1)
      (Value.fields_cons (Value.within_num _)
      (Value.fields_cons (bounded_commitment c.1.observerRecordId)
      (Value.fields_cons (bounded_commitment c.1.targetBindingDigest)
      (Value.fields_cons (bounded_authorityGeneration c.1.authorityGeneration)
      (Value.fields_cons (bounded_chainProfile c.1.chainProfile)
      (Value.fields_cons (bounded_sourceValue frontier c.1.checkpoint.hash) Value.fields_nil)))))))
      (Nat.le_refl 7)).trans
      (by decide)
  refine snapshotJson_within hjson hwithin ?_ (by decide)
  exact ⟨by decide, by decide, by decide, by decide, by decide, by decide, rfl⟩

/-- A call with the revision of its state passes the check on the revision. -/
theorem assertExpectedRevision_self (c : Accepted sha) :
    assertExpectedRevision c (.num c.1.revision.1) = .ok () := by
  simp only [assertExpectedRevision, bind_ok, failWith_ok]
  exact ⟨c.1.revision, assertNonnegativeInteger.decode_encode_self c.1.revision,
    rejectIf_ok.mpr fun h => h rfl⟩

/-- Against a frontier above the checkpoint, the plan is returned. -/
theorem plan_returned (hstatus : c.1.status ≠ .QUARANTINED) (hawaits : ¬ c.1.awaitsObservation)
    (habove : c.1.checkpoint.height.1 < frontier.height.1) :
    planZenonFundingObserverBackfill sha (planOptions c frontier)
      = .ok ⟨⟨c, .BACKFILL_REQUIRED⟩, some (planFor sha c.1 frontier habove)⟩ := by
  obtain ⟨get, hcaptured, hfield⟩ := captured_written (snapshot_planOptions c frontier)
  have hstate : normalizeStateSnapshot sha (get "state") = .ok c := by
    rw [hfield "state" (by decide)]
    exact normalizeStateSnapshot_encode c
  have hrevision : assertExpectedRevision c (get "expectedRevision") = .ok () := by
    rw [hfield "expectedRevision" (by decide)]
    exact assertExpectedRevision_self c
  have hcontext : normalizeContext get = .ok c.1.context := by
    simp only [normalizeContext, bind_ok, failWith_ok]
    rw [hfield "observerRecordId" (by decide), hfield "targetBindingDigest" (by decide),
      hfield "authorityGeneration" (by decide), hfield "chainProfile" (by decide)]
    exact ⟨_, Credit.assertCommitment.decode_encode_self c.1.observerRecordId, _,
      Credit.assertCommitment.decode_encode_self c.1.targetBindingDigest, _,
      authorityGenerationCodec.decode_encode_self c.1.authorityGeneration, _,
      chainProfileCodec.decode_encode_self c.1.chainProfile, rfl⟩
  have hsource : normalizeSource (get "source")
      = .ok (.available frontier (some c.1.checkpoint.hash)) := by
    rw [hfield "source" (by decide)]
    exact normalizeSource_sourceValue frontier c.1.checkpoint.hash
  have hplan : planAgainst c frontier (some c.1.checkpoint.hash)
      = .ok ⟨⟨c, .BACKFILL_REQUIRED⟩, some (planFor sha c.1 frontier habove)⟩ := by
    have hne : ¬ frontier.height = c.1.checkpoint.height := fun heq => by
      rw [heq] at habove
      omega
    unfold planAgainst
    rw [if_neg (by omega), if_neg (not_not.mpr rfl), if_neg hne, if_neg hawaits]
    simp only [bind_ok]
    exact ⟨_, makeDetachedPlan_ok habove, rfl⟩
  simp only [planZenonFundingObserverBackfill, bind_ok]
  refine ⟨get, hcaptured, c, hstate, (), hrevision, c.1.context, hcontext, ?_⟩
  rw [if_neg hstatus, if_neg (not_not.mpr (show c.1.contextMatches c.1.context from rfl))]
  simp only [bind_ok]
  exact ⟨_, hsource, hplan⟩

/-! ### Honest pages -/

/-- The members of some entries that are the target's transaction. -/
def targets (s : State) (es : List Entry) : List Member :=
  (es.flatMap (·.members)).filter (·.transactionId = s.target.transactionId)

/-- A page that answers a plan: its entries lead from the checkpoint of the state to the last
height of the plan, have the hash of the frontier if they reach it, and list no more distinct
members than a momentum may have, the target once at most, with its binding digest, and not
at all once it is included. -/
structure Honest (s : State) (plan : Plan) (page : PageFields) : Prop where
  context : page.context = plan.context
  planId : page.planId = plan.planId
  start : page.startCheckpoint = plan.startCheckpoint
  frontier : page.frontier = plan.frontier
  leads : ∃ d, Leads s.checkpoint page.entries d
  count : (page.entries.length : Int) = plan.entryCount.1
  reached : ∀ e ∈ page.entries, e.height.1 = plan.frontier.height.1 → e.hash = plan.frontier.hash
  size : ∀ e ∈ page.entries, (e.members.length : Int) ≤ s.catchUp.1.maximumMembersPerMomentum.1
  distinct : ∀ e ∈ page.entries, (e.members.map (·.transactionId)).Nodup
  binding : ∀ m ∈ targets s page.entries, m.targetBindingDigest = s.targetBindingDigest
  once : (targets s page.entries).length ≤ 1
  absent : s.inclusion ≠ none → targets s page.entries = []

theorem targets_cons (s : State) (e : Entry) (es : List Entry) : targets s (e :: es)
    = e.members.filter (·.transactionId = s.target.transactionId) ++ targets s es := by
  rw [targets, List.flatMap_cons, List.filter_append]
  rfl

/-- The loop over the members of an honest entry goes through. -/
theorem walkMembers_honest {e : Entry} :
    ∀ (members : List Member) (seen : List TransactionId) (found : Option Membership),
    (members.map (·.transactionId)).Nodup → (∀ m ∈ members, m.transactionId ∉ seen) →
    (∀ m ∈ members, m.transactionId = s.target.transactionId → m.targetBindingDigest
      = s.targetBindingDigest) →
    (found = none ∨ members.filter (·.transactionId = s.target.transactionId) = []) →
    ∃ seen' found', members.foldlM (walkMember s e) (seen, found) = .ok (seen', found')
      ∧ (found' = found ∨ members.filter (·.transactionId = s.target.transactionId) ≠ [])
  | [], seen, found, _, _, _, _ => ⟨seen, found, rfl, .inl rfl⟩
  | m :: ms, seen, found, hdistinct, hfresh, hbinding, hfound => by
    rw [List.map_cons, List.nodup_cons] at hdistinct
    have hfresh' : ∀ m' ∈ ms, m'.transactionId ∉ m.transactionId :: seen := by
      intro m' hm' hmem
      rcases List.mem_cons.mp hmem with heq | hseen
      · exact hdistinct.1 (heq ▸ List.mem_map_of_mem hm')
      · exact hfresh m' (List.mem_cons_of_mem _ hm') hseen
    have hbinding' := fun m' hm' => hbinding m' (List.mem_cons_of_mem _ hm')
    have hnew : ¬ m.transactionId ∈ seen := hfresh m List.mem_cons_self
    by_cases htarget : m.transactionId = s.target.transactionId
    · -- no other member of the entry is the target
      have hrest : ms.filter (·.transactionId = s.target.transactionId) = [] := by
        rw [List.filter_eq_nil_iff]
        intro m' hm' heq
        exact hdistinct.1 (htarget ▸ (of_decide_eq_true heq) ▸ List.mem_map_of_mem hm')
      have hnone : found = none := hfound.resolve_right (by simp [htarget])
      subst hnone
      have hstep : walkMember s e (seen, none) m
          = .ok (m.transactionId :: seen,
            some ⟨m.transactionId, m.targetBindingDigest, e.height, e.hash⟩) := by
        simp only [walkMember, if_pos htarget, bind_ok, rejectIf_ok]
        exact ⟨(), hnew, (), not_not.mpr (hbinding m List.mem_cons_self htarget), (),
          fun h => h.1 rfl, trivial⟩
      obtain ⟨seen', found', hloop, hfound'⟩ := walkMembers_honest ms (m.transactionId :: seen)
        (some ⟨m.transactionId, m.targetBindingDigest, e.height, e.hash⟩) hdistinct.2 hfresh'
        hbinding' (.inr hrest)
      refine ⟨seen', found', ?_, .inr (by simp [htarget])⟩
      rw [List.foldlM_cons, hstep]
      exact hloop
    · have hstep : walkMember s e (seen, found) m = .ok (m.transactionId :: seen, found) := by
        simp only [walkMember, if_neg htarget, bind_ok, rejectIf_ok]
        exact ⟨(), hnew, trivial⟩
      have hfilter : (m :: ms).filter (·.transactionId = s.target.transactionId)
          = ms.filter (·.transactionId = s.target.transactionId) :=
            List.filter_cons_of_neg (by simpa using htarget)
      rw [hfilter] at hfound ⊢
      obtain ⟨seen', found', hloop, hfound'⟩ :=
        walkMembers_honest ms (m.transactionId :: seen) found hdistinct.2 hfresh'
        hbinding' hfound
      refine ⟨seen', found', ?_, hfound'⟩
      rw [List.foldlM_cons, hstep]
      exact hloop

/-- The loop over the entries of an honest page goes through. -/
theorem walkPage_honest : ∀ (es : List Entry) {start d : Checkpoint} {walk : Walk},
    Leads start es d →
    walk.previousHash = start.hash → (∀ e ∈ es, (e.members.map (·.transactionId)).Nodup) →
    (∀ m ∈ targets s es, m.targetBindingDigest = s.targetBindingDigest) →
    (targets s es).length ≤ 1 →
    (walk.targetMembership = none ∨ targets s es = []) →
    ∃ walk', walkPage s (start.height.1 + 1) walk es = .ok walk'
  | [], start, d, walk, _, _, _, _, _, _ => ⟨walk, rfl⟩
  | e :: es, start, d, walk, hleads, hprevious, hdistinct, hbinding, honce, hfound => by
    cases hleads with
    | cons hheight hparent rest =>
      rw [targets_cons] at hbinding honce hfound
      have hmembers : ∀ m ∈ e.members, m.transactionId = s.target.transactionId →
          m.targetBindingDigest = s.targetBindingDigest := fun m hm htarget =>
        hbinding m (List.mem_append_left _ (List.mem_filter.mpr ⟨hm, decide_eq_true htarget⟩))
      have hfound' : walk.targetMembership = none
          ∨ e.members.filter (·.transactionId = s.target.transactionId) = [] :=
        hfound.imp_right fun h => (List.append_eq_nil_iff.mp h).1
      obtain ⟨seen', found, hloop, hwalked⟩ :=
        walkMembers_honest (e := e) e.members [] walk.targetMembership
        (hdistinct e List.mem_cons_self) (fun _ _ => List.not_mem_nil) hmembers hfound'
      have hentry : walkEntry s (start.height.1 + 1) walk e
          = .ok ⟨e.hash, found, walk.lineage ++ [e.toLineageEntry]⟩ := by
        simp only [walkEntry, bind_ok, rejectIf_ok, not_not]
        exact ⟨(), hheight, (), hparent.trans hprevious.symm, _, hloop, rfl⟩
      rw [List.length_append] at honce
      have hlater : found = none ∨ targets s es = [] := by
        rcases hwalked with hkept | hhere
        · rw [hkept]
          exact hfound.imp_right fun h => (List.append_eq_nil_iff.mp h).2
        · have hpos := List.length_pos_iff.mpr hhere
          exact .inr (List.length_eq_zero_iff.mp (by omega))
      obtain ⟨walk', hwalk⟩ :=
        walkPage_honest es rest rfl (fun e' he' => hdistinct e' (List.mem_cons_of_mem _ he'))
        (fun m hm => hbinding m (List.mem_append_right _ hm)) (by omega)
        (show (⟨e.hash, found, walk.lineage ++ [e.toLineageEntry]⟩ : Walk).targetMembership = none
          ∨ _ from hlater)
      refine ⟨walk', ?_⟩
      simp only [walkPage, bind_ok]
      refine ⟨_, hentry, ?_⟩
      rw [← hheight]
      exact hwalk

/-! ### The page before -/

/-- What the identifier of a plan is the digest of. -/
def planText (p : PlanData) : String := PLAN_DOMAIN ++ "\x00" ++ canonicalJson (.obj p.fields)

/-- SHA-256 has no collision between the plan and the one of the page that was applied last. -/
def Apart (sha : Sha256) (s : State) (plan : Plan) : Prop := ∀ r ∈ s.lastAppliedPage,
  sha.hex (planText (r.1.planData s.context)) = sha.hex (planText plan.data) →
    planText (r.1.planData s.context) = planText plan.data

theorem PlanData.json_fields {p : PlanData} (hfrom : p.fromHeight.natAbs ≤ 9007199254740991)
    (hthrough : p.throughHeight.natAbs ≤ 9007199254740991)
    (hcount : p.entryCount.natAbs ≤ 9007199254740991) :
    (Value.obj p.fields).Json := by
  refine .obj (by simp [PlanData.fields, Context.fields]) fun f hf => ?_
  simp only [PlanData.fields, Context.fields, List.cons_append, List.nil_append, List.mem_cons,
    List.not_mem_nil, or_false] at hf
  rcases hf with rfl | rfl | rfl | rfl | rfl | rfl | rfl | rfl | rfl | rfl
  · exact .num (by decide)
  · exact .str _
  · exact .str _
  · exact authorityGenerationCodec.json_encode _
  · exact chainProfileCodec.json_encode _
  · exact checkpointCodec.json_encode _
  · exact checkpointCodec.json_encode _
  · exact .num hfrom
  · exact .num hthrough
  · exact .num hcount

/-- Plans with the same text start from the same checkpoint. -/
theorem start_of_planText {p q : PlanData} (hp : (Value.obj p.fields).Json)
    (hq : (Value.obj q.fields).Json) (h : planText p = planText q) :
    p.startCheckpoint = q.startCheckpoint := by
  have hlist := congrArg String.toList h
  simp only [planText, String.toList_append] at hlist
  have hcanonical : canonicalJson (.obj p.fields) = canonicalJson (.obj q.fields) :=
    String.toList_inj.mp (List.append_cancel_left hlist)
  have hsame := (canonicalJson_inj hp hq).mp hcanonical
  have hkeys : (p.fields.map Prod.fst).Nodup := by simp [PlanData.fields, Context.fields]
  have hlookup := lookup_of_same hkeys hsame "startCheckpoint"
  have hlp : p.fields.lookup "startCheckpoint" = some (checkpointCodec.encode p.startCheckpoint) :=
    rfl
  have hlq : q.fields.lookup "startCheckpoint" = some (checkpointCodec.encode q.startCheckpoint) :=
    rfl
  rw [hlp, hlq] at hlookup
  exact checkpointCodec.encode_injective (Option.some.inj hlookup)

/-- The page that was applied last is not one of the plan. -/
theorem planId_ne {plan : Plan} (hplans : Plans sha c.1 plan) (hapart : Apart sha c.1 plan) :
    ∀ r ∈ c.1.lastAppliedPage, r.1.planId ≠ plan.planId := by
  intro r hr heq
  have hfollows := c.valid.page r hr
  have hid : (r.1.planData c.1.context).planId sha = plan.data.planId sha :=
    hfollows.receipt.planId.symm.trans (heq.trans hplans.planId)
  have hhex : sha.hex (planText (r.1.planData c.1.context)) = sha.hex (planText plan.data) := by
    have hlist := congrArg (fun i : Commitment => i.1.toList) hid
    simp only [PlanData.planId, commitment, String.toList_append] at hlist
    exact String.toList_inj.mp (List.append_cancel_left hlist)
  have hcounted := r.2
  simp only [ReceiptFields.counted, decide_eq_true_eq] at hcounted
  have hend : r.1.endCheckpoint.height.1 = c.1.checkpoint.height.1 := by rw [hfollows.ends]
  have hjson : (Value.obj (r.1.planData c.1.context).fields).Json := by
    have := r.1.startCheckpoint.height.nonneg
    have := r.1.endCheckpoint.height.le
    have := r.1.endCheckpoint.height.nonneg
    refine PlanData.json_fields ?_ r.1.endCheckpoint.height.2.1 r.1.entryCount.2.1
    show (r.1.startCheckpoint.height.1 + 1).natAbs ≤ _
    omega
  have hstart : r.1.startCheckpoint = plan.startCheckpoint := start_of_planText hjson
    (PlanData.json_fields plan.fromHeight.2.1 plan.throughHeight.2.1 plan.entryCount.2.1)
    (hapart r hr hhex)
  have hbefore := hcounted.1
  rw [hstart, hplans.start] at hbefore
  omega

/-! ### The call -/

variable {page : PageFields}

/-- What a call with a page has under each key. -/
def pageField (c : Accepted sha) (plan : Plan) (page : PageFields) : String → Value
  | "state" => c.encode
  | "expectedRevision" => .num c.1.revision.1
  | "plan" => planCodec.encode plan
  | "page" => pageFieldsCodec.encode page
  | _ => .undefined

def pageOptions (c : Accepted sha) (plan : Plan) (page : PageFields) : Value :=
  written (Order.given PAGE_KEYS) (pageField c plan page)

theorem json_pageOptions (c : Accepted sha) (plan : Plan) (page : PageFields) :
    (pageOptions c plan page).Json := by
  refine json_written (by decide) fun k hk => ?_
  simp only [PAGE_KEYS, List.mem_cons, List.not_mem_nil, or_false] at hk
  rcases hk with rfl | rfl | rfl | rfl
  · exact json_encode c
  · exact assertNonnegativeInteger.json_encode c.1.revision
  · exact planCodec.json_encode plan
  · exact pageFieldsCodec.json_encode page

/-- What is in a field is in the object. -/
theorem members_of_field {fs : List (String × Value)} {k : String} {v : Value} (h : (k, v) ∈ fs) :
    (Value.tally refusedKey v).members ≤ (Value.tally refusedKey (.obj fs)).members := by
  have hfields : (Value.tally refusedKey v).members
      ≤ (Value.tallyMembers refusedKey fs).members := by
    induction fs with
    | nil => cases h
    | cons f fs ih =>
      obtain ⟨k', v'⟩ := f
      simp only [Value.tallyMembers, Measure.combine]
      rcases List.mem_cons.mp h with heq | hmem
      · obtain ⟨_, rfl⟩ := Prod.mk.inj heq
        omega
      · have := ih hmem
        omega
  rw [Value.tally]
  exact hfields

/-- What is in the elements is in the array. -/
theorem members_of_elements {α : Type} {encode : α → Value} {size : α → Nat}
    (h : ∀ a, size a ≤ (Value.tally refusedKey (encode a)).members) (as : List α) :
    (as.map size).sum ≤ (Value.tally refusedKey (.arr (as.map encode))).members := by
  have helements : ∀ (as : List α) (index : Nat),
      (as.map size).sum ≤ (Value.tallyElements refusedKey index (as.map encode)).members := by
    intro as
    induction as with
    | nil => exact fun _ => le_rfl
    | cons a as ih =>
      intro index
      have hhead := h a
      have hrest := ih (index + 1)
      simp only [List.map_cons, List.sum_cons, Value.tallyElements, Measure.combine]
      omega
  rw [Value.tally]
  exact helements as 0

/-- An entry has at least a member for each of its transactions. -/
theorem members_entry (e : Entry) :
    e.members.length ≤ (Value.tally refusedKey (entryCodec.encode e)).members := by
  have hlength : e.members.length
      ≤ (Value.tally refusedKey (.arr (e.members.map normalizeMember.encode))).members := by
    rw [Value.tally]
    exact (List.length_map normalizeMember.encode).symm.le.trans (length_le_elements refusedKey 0 _)
  have hfield : ("members", Value.arr (e.members.map normalizeMember.encode))
      ∈ [("height", .num e.height.1), ("hash", .str e.hash.1),
        ("previousHash", .str e.previousHash.1),
      ("members", .arr (e.members.map normalizeMember.encode))] := by simp
  exact hlength.trans (members_of_field hfield)

/-- The members of the page are among those of the call. -/
theorem members_le (c : Accepted sha) (plan : Plan) (page : PageFields) :
    (page.entries.map (·.members.length)).sum
      ≤ (Value.tally refusedKey (pageOptions c plan page)).members := by
  have hentries := members_of_elements members_entry page.entries
  have hpage : (Value.tally refusedKey (.arr (page.entries.map entryCodec.encode))).members
      ≤ (Value.tally refusedKey (pageFieldsCodec.encode page)).members := by
    obtain ⟨fs, hfs, hmem⟩ : ∃ fs, pageFieldsCodec.encode page = .obj fs
        ∧ ("entries", .arr (page.entries.map entryCodec.encode)) ∈ fs :=
      ⟨_, rfl, List.mem_of_getElem? (show _[8]? = some _ from rfl)⟩
    rw [hfs]
    exact members_of_field hmem
  have hoptions : (Value.tally refusedKey (pageFieldsCodec.encode page)).members
      ≤ (Value.tally refusedKey (pageOptions c plan page)).members :=
    members_of_field (k := "page") (List.mem_map.mpr ⟨"page", by decide, rfl⟩)
  exact hentries.trans (hpage.trans hoptions)

/-! ### The state after an honest page -/

namespace Honest

variable {plan : Plan}

/-- An honest page is read as it was written, if it has no more members than a call may have. -/
theorem sized (h : Honest s plan page) (hplans : Plans sha s plan)
    (hmembers : (page.entries.map (·.members.length)).sum ≤ MAX_INPUT_MEMBERS) :
    page.sized s.catchUp.1.toCatchUpFields = true := by
  have hcount := h.count.trans hplans.count
  have hthrough := through_bounds s hplans.above
  have hmax : s.catchUp.1.through s.checkpoint plan.frontier ≤ s.checkpoint.height.1
      + s.catchUp.1.maximumPageEntries.1 := by
    unfold CatchUpFields.through
    omega
  rw [PageFields.sized, decide_eq_true_eq]
  refine ⟨fun hnil => ?_, by omega, h.size, hmembers⟩
  rw [hnil, List.length_nil] at hcount
  omega

/-- An honest page fits its plan. -/
theorem fits (h : Honest s plan page) (hplans : Plans sha s plan)
    (hsized : page.sized s.catchUp.1.toCatchUpFields = true) :
    ∃ walk, Fits sha s plan ⟨page, hsized⟩ walk
      ∧ (s.inclusion ≠ none → walk.targetMembership = none) := by
  obtain ⟨d, hleads⟩ := h.leads
  have hstart : page.startCheckpoint = s.checkpoint := h.start.trans hplans.start
  have hhash : page.startCheckpoint.hash = s.checkpoint.hash := congrArg Checkpoint.hash hstart
  obtain ⟨walk, hwalk⟩ :=
    @walkPage_honest s page.entries s.checkpoint d ⟨page.startCheckpoint.hash, none, []⟩ hleads
    hhash h.distinct h.binding h.once (.inl rfl)
  have hend : d = (Page.endEntry
      (⟨page, hsized⟩ : Page s.catchUp.1.toCatchUpFields)).checkpoint := by
    rw [hleads.getLast?, List.getLast?_eq_some_getLast (Page.sized ⟨page, hsized⟩).1]
    rfl
  have hheight := hleads.height
  have hcount := h.count.trans hplans.count
  have hlast : (Page.endEntry (⟨page, hsized⟩ : Page s.catchUp.1.toCatchUpFields)) ∈ page.entries :=
    List.getLast_mem _
  refine ⟨walk, ⟨hplans.planId, hplans.data, h.start, h.frontier, Subtype.ext h.count, ?_, ?_,
    fun hreached => ?_⟩, fun hincluded => ?_⟩
  · rw [hplans.fromHeight]
    exact hwalk
  · have hthrough : d.height.1 = plan.throughHeight.1 := by
      rw [hplans.through]
      omega
    rw [hend] at hthrough
    exact Subtype.ext hthrough
  · show _ = page.frontier.hash
    rw [h.frontier]
    exact h.reached _ hlast (hreached.trans (by rw [h.frontier]))
  · obtain ⟨_, _, _, hfound⟩ :=
      @walkPage_ok s page.entries s.checkpoint ⟨page.startCheckpoint.hash, none, []⟩ walk
      hhash hwalk
    rcases hfound with hnone | ⟨e, he, hholds, _⟩
    · exact hnone
    · have hmem : s.targetMember ∈ targets s page.entries :=
        List.mem_filter.mpr ⟨List.mem_flatMap.mpr ⟨e, he, hholds⟩, decide_eq_true rfl⟩
      rw [h.absent hincluded] at hmem
      cases hmem

end Honest

/-- What `updateIncludedState` throws is what a state is refused with. -/
theorem updateIncludedState_error {checkpoint : Checkpoint} {receipt : ReceiptFields} {e : Code}
    (h : updateIncludedState c checkpoint receipt = .error e) : e = .INVALID_STATE := by
  have hquarantine {reason : Reason} (h : quarantineState c reason = .error e) : e
      = .INVALID_STATE := by
    unfold quarantineState at h
    split at h
    · cases h
    · exact normalizeStateSnapshot_error h
  unfold updateIncludedState at h
  cases hi : c.1.inclusion with
  | none =>
    rw [hi] at h
    exact normalizeStateSnapshot_error h
  | some i =>
    rw [hi] at h
    simp only at h
    split at h
    · exact hquarantine h
    · split at h
      · exact normalizeStateSnapshot_error h
      · split at h
        · split at h
          · exact hquarantine h
          · exact normalizeStateSnapshot_error h
        · exact normalizeStateSnapshot_error h

/-- A page that fits is applied unless there is no next revision. -/
theorem applied_of_fits (hstatus : c.1.status ≠ .QUARANTINED) {plan : Plan}
    {read : Page c.1.catchUp.1.toCatchUpFields} {walk : Walk} (hfits : Fits sha c.1 plan read walk)
    (hagrees : ∀ i ∈ c.1.inclusion, ∀ m ∈ walk.targetMembership,
      m.momentumHeight = i.momentumHeight ∧ m.momentumHash = i.momentumHash) :
    Gives (do
        let next ← updateIncludedState c read.endEntry.checkpoint ⟨pageReceipt plan read walk,
          pageReceiptDigest sha (pageReceipt plan read walk) c.1.context,
          if c.1.reachesThreshold walk.targetMembership read.endEntry.checkpoint.height.1
          then some read.endEntry.checkpoint else none⟩
        .ok ⟨next, .APPLIED⟩ : Except Code (Outcome sha))
          (fun _ => c.1.revision.1 = 9007199254740991)
      fun o => o.disposition = .APPLIED ∧ o.state.1.checkpoint = read.endEntry.checkpoint
        ∧ o.state.1.revision.1 = c.1.revision.1 + 1 := by
  let receipt : Receipt :=
    ⟨_, hfits.counted (pageReceiptDigest sha (pageReceipt plan read walk) c.1.context)
    (if c.1.reachesThreshold walk.targetMembership read.endEntry.checkpoint.height.1
      then some read.endEntry.checkpoint else none)⟩
  have hheight := hfits.leads.1.height
  have hgrows : c.1.checkpoint.height.1 ≤ receipt.1.endCheckpoint.height.1 := by
    show c.1.checkpoint.height.1 ≤ read.endEntry.checkpoint.height.1
    omega
  have hgives := updateIncludedState_gives hstatus receipt (hfits.receipt_valid hagrees)
    hgrows hagrees rfl
  rw [gives_bind]
  refine ⟨fun e he => ?_, fun next hnext => ?_⟩
  · rw [show updateIncludedState c receipt.1.endCheckpoint receipt.1 = .error e from he] at hgives
    exact hgives (updateIncludedState_error he)
  · rw [show updateIncludedState c receipt.1.endCheckpoint receipt.1
      = .ok next from hnext] at hgives
    obtain ⟨r, hr, hafter⟩ := hgives
    show Disposition.APPLIED = .APPLIED ∧ next.1.checkpoint = _ ∧ next.1.revision.1 = _
    generalize next.1 = s' at hafter
    cases hafter with
    | awaiting => exact ⟨rfl, rfl, hr⟩
    | included => exact ⟨rfl, rfl, hr⟩

/-- A page that fits, names the plan and is not the one that was applied last. -/
theorem applyPage_applied (hstatus : c.1.status ≠ .QUARANTINED)
    (hawaits : ¬ c.1.awaitsObservation) {plan : Plan} {read : Page c.1.catchUp.1.toCatchUpFields}
    {walk : Walk} (hfits : Fits sha c.1 plan read walk) (hnames : read.1.planId = plan.planId)
    (hnew : ∀ r ∈ c.1.lastAppliedPage, r.1.planId ≠ plan.planId)
    (hagrees : ∀ i ∈ c.1.inclusion, ∀ m ∈ walk.targetMembership, m.momentumHeight = i.momentumHeight
      ∧ m.momentumHash = i.momentumHash) :
    Gives (applyPage c plan read) (fun _ => c.1.revision.1 = 9007199254740991)
      fun o => o.disposition = .APPLIED ∧ o.state.1.checkpoint = read.endEntry.checkpoint
        ∧ o.state.1.revision.1 = c.1.revision.1 + 1 := by
  unfold applyPage
  rw [gives_ite]
  refine ⟨fun hdiffer => ?_, fun _ => ?_⟩
  · rcases hdiffer with hdiffer | hdiffer | hdiffer
    · exact absurd hnames hdiffer
    · exact absurd hfits.start hdiffer
    · exact absurd hfits.frontier hdiffer
  · rw [gives_ite]
    refine ⟨fun hcount => absurd hfits.count hcount, fun _ => ?_⟩
    rw [hfits.walk]
    simp only [gives_ite]
    refine ⟨fun hthrough => absurd hfits.through hthrough,
      fun _ => ⟨fun ⟨hreached, hne⟩ => absurd (hfits.replaced hreached) hne, fun _ => ?_⟩⟩
    unfold applyReceipt
    simp only [gives_ite]
    refine ⟨fun ⟨r, hr, hsame, _⟩ => absurd hsame (hnew r hr),
      fun _ => ⟨fun h => absurd h hawaits, fun _ =>
      ⟨fun hdata => absurd hfits.data hdata,
        fun _ => ⟨fun ⟨i, hi, m, hm, hne⟩ => absurd (hagrees i hi m hm) hne, fun _ => ?_⟩⟩⟩⟩
    exact applied_of_fits hstatus hfits hagrees

/-- A call with an honest page, within the limits. -/
theorem page_applied (hstatus : c.1.status ≠ .QUARANTINED)
    (hawaits : ¬ c.1.awaitsObservation) {plan : Plan} (hplans : Plans sha c.1 plan)
    (hapart : Apart sha c.1 plan) (hhonest : Honest c.1 plan page)
    (hsnapshot : snapshotJson (pageOptions c plan page) = some (pageOptions c plan page)) :
    Gives (applyZenonFundingObserverPage sha (pageOptions c plan page))
    (fun _ => c.1.revision.1 = 9007199254740991)
      fun o => o.disposition = .APPLIED ∧ Leads c.1.checkpoint page.entries o.state.1.checkpoint
        ∧ o.state.1.checkpoint.height.1 = plan.throughHeight.1 ∧ o.state.1.revision.1
        = c.1.revision.1 + 1 := by
  generalize hcall : applyZenonFundingObserverPage sha (pageOptions c plan page) = call
  have hmembers := (members_le c plan page).trans (snapshotJson_members hsnapshot)
  have hsized := hhonest.sized hplans hmembers
  obtain ⟨walk, hfits, hincluded⟩ := hhonest.fits hplans hsized
  obtain ⟨get, hcaptured, hfield⟩ : ∃ get, captured PAGE_KEYS (pageOptions c plan page) = .ok get
      ∧ ∀ k ∈ PAGE_KEYS, get k = pageField c plan page k := captured_written hsnapshot
  have hstate : normalizeStateSnapshot sha (get "state") = .ok c := by
    rw [hfield "state" (by decide)]
    exact normalizeStateSnapshot_encode c
  have hrevision : assertExpectedRevision c (get "expectedRevision") = .ok () := by
    rw [hfield "expectedRevision" (by decide)]
    exact assertExpectedRevision_self c
  have hplan : normalizePlan sha (get "plan") = .ok plan := by
    rw [hfield "plan" (by decide)]
    exact normalizePlan_encode hplans.planId
  have hpage : normalizePage (get "page") c.1 = .ok ⟨page, hsized⟩ := by
    rw [hfield "page" (by decide)]
    exact failWith_ok.mpr ((pageCodec c.1.catchUp.1.toCatchUpFields).decode_encode_self
      ⟨page, hsized⟩)
  have hmatches : c.1.contextMatches plan.context := congrArg PlanData.context hplans.data
  have hagrees : ∀ i ∈ c.1.inclusion, ∀ m ∈ walk.targetMembership,
      m.momentumHeight = i.momentumHeight ∧ m.momentumHash = i.momentumHash := by
    intro i hi m hm
    have hnone := hincluded (by rw [hi]; exact Option.some_ne_none i)
    rw [hnone] at hm
    cases hm
  rw [← hcall, applyZenonFundingObserverPage, gives_of_ok hcaptured, gives_of_ok hstate,
    gives_of_ok hrevision, gives_ite]
  refine ⟨fun h => absurd h hstatus, fun _ => ?_⟩
  rw [gives_of_ok hplan, gives_of_ok hpage, gives_ite]
  refine ⟨fun hdiffer => ?_, fun _ => ?_⟩
  · rw [hhonest.context] at hdiffer
    exact hdiffer.elim (absurd hmatches) (absurd hmatches)
  · refine (applyPage_applied hstatus hawaits hfits hhonest.planId (planId_ne hplans hapart)
      hagrees).mono (fun _ => id)
      fun o happlied => ?_
    obtain ⟨hdisposition, hcheckpoint, hrevision⟩ := happlied
    rw [hcheckpoint]
    exact ⟨hdisposition, hfits.leads.1, congrArg Subtype.val hfits.through, hrevision⟩

/-- Arguments that are not within the limits. -/
theorem page_refused {plan : Plan} (h : snapshotJson (pageOptions c plan page) = none) :
    applyZenonFundingObserverPage sha (pageOptions c plan page) = .error .INVALID_INPUT := by
  have hcaptured : captured PAGE_KEYS (pageOptions c plan page) = .error .INVALID_INPUT := by
    unfold captured
    rw [h]
    rfl
  unfold applyZenonFundingObserverPage
  rw [hcaptured]
  rfl

/-- A page is applied exactly within the limits, and while there are revisions. -/
theorem applied_iff (hstatus : c.1.status ≠ .QUARANTINED)
    (hawaits : ¬ c.1.awaitsObservation) {plan : Plan} (hplans : Plans sha c.1 plan)
    (hhonest : Honest c.1 plan page) (hapart : Apart sha c.1 plan) :
    (∃ o, applyZenonFundingObserverPage sha (pageOptions c plan page) = .ok o
      ∧ o.disposition = .APPLIED
        ∧ Leads c.1.checkpoint page.entries o.state.1.checkpoint
        ∧ o.state.1.checkpoint.height.1 = plan.throughHeight.1)
      ↔ snapshotJson (pageOptions c plan page) ≠ none ∧ c.1.revision.1 < 9007199254740991 := by
  have hgives := page_applied hstatus hawaits hplans hapart hhonest
  have hrefused := @page_refused sha c page plan
  have hjson := json_pageOptions c plan page
  generalize applyZenonFundingObserverPage sha (pageOptions c plan page) = call at hgives hrefused ⊢
  generalize pageOptions c plan page = options at hgives hrefused hjson ⊢
  refine ⟨fun ⟨o, hcall, _⟩ => ?_, fun ⟨hsome, hroom⟩ => ?_⟩
  · have hsome : snapshotJson options ≠ none := fun hnone => by
      rw [hrefused hnone] at hcall
      cases hcall
    obtain ⟨w, hw⟩ := Option.ne_none_iff_exists'.mp hsome
    rw [snapshotJson_json hjson hw] at hw
    have hok := hgives hw
    rw [hcall] at hok
    have hnext : o.state.1.revision.1 = c.1.revision.1 + 1 := hok.2.2.2
    have hle := o.state.1.revision.le
    exact ⟨hsome, by omega⟩
  · obtain ⟨w, hw⟩ := Option.ne_none_iff_exists'.mp hsome
    rw [snapshotJson_json hjson hw] at hw
    have hok := hgives hw
    cases call with
    | error e =>
      have hlast : c.1.revision.1 = 9007199254740991 := hok
      omega
    | ok o =>
      obtain ⟨hdisposition, hleads, hheight, _⟩ := hok
      exact ⟨o, rfl, hdisposition, hleads, hheight⟩

/-- A state outside of quarantine that does not wait for an observation, and a frontier above
its checkpoint: the plan is returned, and a call with an honest page for it, and with the
revision of the state, is applied and leads to the last height of the plan if and only if its
arguments are within the limits of `snapshotJson` and there is a next revision. Arguments that
are not within the limits are refused. -/
theorem backfill_advances (hstatus : c.1.status ≠ .QUARANTINED) (hawaits : ¬ c.1.awaitsObservation)
    (habove : c.1.checkpoint.height.1 < frontier.height.1) :
    ∃ plan, planZenonFundingObserverBackfill sha (planOptions c frontier)
      = .ok ⟨⟨c, .BACKFILL_REQUIRED⟩, some plan⟩
      ∧ ∀ page, Honest c.1 plan page → Apart sha c.1 plan →
        ((∃ o, applyZenonFundingObserverPage sha (pageOptions c plan page) = .ok o
          ∧ o.disposition = .APPLIED
            ∧ Leads c.1.checkpoint page.entries o.state.1.checkpoint
            ∧ o.state.1.checkpoint.height.1 = plan.throughHeight.1)
          ↔ snapshotJson (pageOptions c plan page) ≠ none ∧ c.1.revision.1 < 9007199254740991)
        ∧ (snapshotJson (pageOptions c plan page) = none →
          applyZenonFundingObserverPage sha (pageOptions c plan page) = .error .INVALID_INPUT) :=
  ⟨planFor sha c.1 frontier habove, plan_returned hstatus hawaits habove, fun _ hhonest hapart =>
    ⟨applied_iff hstatus hawaits (plans_planFor habove) hhonest hapart, page_refused⟩⟩

/-! ### A page that is applied -/

namespace Sample

theorem honest_page (sha : Sha256)
    (h : (created sha).1.checkpoint.height.1 < Sample.frontier.height.1) :
    Honest (created sha).1 (planFor sha (created sha).1 Sample.frontier h)
    (Sample.page sha (created sha).1) where
  context := rfl
  planId := rfl
  start := rfl
  frontier := rfl
  leads := ⟨_, .cons rfl rfl (.nil _)⟩
  count := rfl
  reached := fun e he _ => (List.mem_singleton.mp he) ▸ rfl
  size := fun e he => (List.mem_singleton.mp he) ▸ (by decide : (1 : Int) ≤ 2)
  distinct := fun e he => (List.mem_singleton.mp he) ▸ List.nodup_singleton _
  binding := by
    intro m hm
    obtain ⟨hmem, _⟩ := List.mem_filter.mp hm
    obtain rfl := List.mem_singleton.mp hmem
    rfl
  once := (List.length_filter_le _ _).trans (le_refl 1)
  absent := fun h => absurd rfl h

theorem bounded_member : normalizeMember.Bounded refusedKey ⟨3, 2, 32, 0, 143, 0, 1, 2⟩ :=
  (Codec.bounded_equiv (Codec.bounded_object (Fields.bounded_cons bounded_transactionId
    (Fields.bounded_cons bounded_commitment Fields.bounded_nil)) _ _) _).mono (by decide)

theorem within_entry (sha : Sha256) :
    Value.Within refusedKey (entryCodec.encode (entry (created sha).1))
    ⟨10, 10, 80, 10, 300, 0, 3, 4⟩ := by
  have hmembers := @Codec.within_list _ _ refusedKey _ _ bounded_member Rejection.INVALID_INPUT
    [(created sha).1.targetMember] 1 le_rfl (by decide)
  exact (Measure.Le.inside
    (Value.fields_cons (Value.within_num _) (Value.fields_cons (bounded_hash _)
    (Value.fields_cons (bounded_hash _) (Value.fields_cons hmembers Value.fields_nil))))
    (Nat.le_refl 4)).trans (by decide)

theorem within_page (sha : Sha256) :
    Value.Within refusedKey (pageFieldsCodec.encode (Sample.page sha (created sha).1))
    ⟨50, 50, 600, 20, 2000, 0, 6, 10⟩ := by
  have hentries : Value.Within refusedKey (.arr [entryCodec.encode (entry (created sha).1)]) _ :=
    Value.within_arr (fun x hx => by rw [List.mem_singleton.mp hx]; exact within_entry sha)
    (le_refl 1) (by decide)
  exact (Measure.Le.inside
    (Value.fields_cons (Value.within_num _) (Value.fields_cons (bounded_commitment _)
    (Value.fields_cons (bounded_commitment _) (Value.fields_cons (bounded_authorityGeneration _)
    (Value.fields_cons (bounded_chainProfile _) (Value.fields_cons (bounded_commitment _)
    (Value.fields_cons (bounded_checkpoint _) (Value.fields_cons (bounded_checkpoint _)
    (Value.fields_cons hentries Value.fields_nil))))))))) (Nat.le_refl 9)).trans (by decide)

theorem snapshot_page (sha : Sha256) {plan : Plan} :
    snapshotJson (pageOptions (created sha) plan (Sample.page sha (created sha).1)) ≠ none := by
  have hwithin : Value.Within refusedKey
      (pageOptions (created sha) plan (Sample.page sha (created sha).1))
      ⟨1000, 1000, 8000, 700, 28000, 0, 8, 64⟩ :=
    (Measure.Le.inside (Value.fields_cons (bounded_state (created sha).1)
      (Value.fields_cons (Value.within_num _)
      (Value.fields_cons (bounded_plan plan)
        (Value.fields_cons (within_page sha) Value.fields_nil)))) (Nat.le_refl 4)).trans
      (by decide)
  rw [snapshotJson_within (json_pageOptions ..) hwithin
    ⟨by decide, by decide, by decide, by decide, by decide, by decide, rfl⟩ (by decide)]
  exact Option.some_ne_none _

end Sample

/-- The page of the sample is applied. -/
theorem backfill_advances_sample : ∃ plan,
    planZenonFundingObserverBackfill .standard
    (planOptions (Sample.created .standard) Sample.frontier)
        = .ok ⟨⟨Sample.created .standard, .BACKFILL_REQUIRED⟩, some plan⟩
      ∧ ∃ o, applyZenonFundingObserverPage .standard
          (pageOptions (Sample.created .standard) plan
            (Sample.page .standard (Sample.created .standard).1)) = .ok o
        ∧ o.disposition = .APPLIED := by
  have habove : (Sample.created .standard).1.checkpoint.height.1 < Sample.frontier.height.1 := by
    decide
  obtain ⟨plan, hplan, hpages⟩ := @backfill_advances _ (Sample.created .standard) Sample.frontier
    (by decide) (fun h => nomatch h.2) habove
  have hreturned := @plan_returned _ (Sample.created .standard) _ (by decide)
    (fun h => nomatch h.2) habove
  have hsame := congrArg Planned.plan (Except.ok.inj (hreturned.symm.trans hplan))
  obtain rfl := Option.some.inj hsame
  obtain ⟨happlied, _⟩ := hpages _ (Sample.honest_page .standard habove) nofun
  obtain ⟨o, hok, hdisposition, _⟩ := happlied.mpr ⟨Sample.snapshot_page .standard, by decide⟩
  exact ⟨_, hplan, o, hok, hdisposition⟩

/-! ### A page that is refused -/

namespace Sample

/-- The last hexadecimal digit of a number. -/
def digit (n : Nat) : Char := Nat.digitChar (n % 16)

/-- 64 characters for a number. -/
def tag (n : Nat) : String :=
  String.ofList (List.replicate 60 'c'
    ++ [digit (n / 4096), digit (n / 256), digit (n / 16), digit n])

theorem isHexLower_digit (n : Nat) : Text.isHexLower (digit n) = true := by
  have hall : ∀ m < 16, Text.isHexLower (Nat.digitChar m) = true := by decide
  exact hall _ (Nat.mod_lt _ (by decide))

theorem isHash_tag (n : Nat) : Text.isHash (tag n) = true := by
  rw [Text.isHash_iff, tag, String.toList_ofList]
  refine ⟨fun c hc => ?_, by simp⟩
  rcases List.mem_append.mp hc with hc | hc
  · rw [List.eq_of_mem_replicate hc]
    decide
  · simp only [List.mem_cons, List.not_mem_nil, or_false] at hc
    rcases hc with rfl | rfl | rfl | rfl <;> exact isHexLower_digit _

theorem digit_inj {m n : Nat} (h : digit m = digit n) : m % 16 = n % 16 := by
  have hall : ∀ i < 16, ∀ j < 16, Nat.digitChar i = Nat.digitChar j → i = j := by decide
  exact hall _ (Nat.mod_lt _ (by decide)) _ (Nat.mod_lt _ (by decide)) h

/-- Different numbers have different characters. -/
theorem tag_inj {m n : Nat} (hm : m < 65536) (hn : n < 65536) (h : tag m = tag n) : m = n := by
  have hlist := congrArg String.toList h
  simp only [tag, String.toList_ofList] at hlist
  have hdigits := List.append_cancel_left hlist
  simp only [List.cons.injEq, and_true] at hdigits
  obtain ⟨h3, h2, h1, h0⟩ := hdigits
  have := digit_inj h3
  have := digit_inj h2
  have := digit_inj h1
  have := digit_inj h0
  omega

def hashAt (n : Nat) : Hash := ⟨tag n, by
  unfold isNonzeroHash
  rw [isHash_tag, Bool.true_and, bne_iff_ne]
  intro heq
  have hlist := congrArg (fun s : String => s.toList.head?) heq
  simp only [tag, String.toList_ofList] at hlist
  change some 'c' = _ at hlist
  revert hlist
  decide⟩

def heightAt (n : Nat) : PositiveInt :=
  ⟨7 + (n % 65536 : Nat), by omega, decide_eq_true (by omega : (0 : Int) < 7 + (n % 65536 : Nat))⟩

/-- The momentum so many above the checkpoint. -/
def pointAt (n : Nat) : Checkpoint :=
  ⟨⟨7 + (n % 65536 : Nat), by omega, decide_eq_true (by omega)⟩, hashAt n⟩

/-- 256 transactions that are in no other momentum. -/
def membersAt (n : Nat) : List Member :=
  (List.range 256).map fun i =>
  ⟨⟨"zenontx:" ++ tag (256 * n + i), Text.prefixed_append "zenontx:" (isHash_tag _)⟩, digest⟩

def entryAt (n : Nat) : Entry := ⟨⟨heightAt (n + 1), hashAt (n + 1), hashAt n⟩, membersAt n⟩

/-- The largest catch-up configuration that there is. -/
def largest : CatchUpConfiguration :=
  ⟨⟨⟨64, by decide⟩, ⟨4096, by decide⟩, ⟨256, by decide⟩⟩, by decide⟩

def wide (sha : Sha256) : Accepted sha :=
  ⟨initial sha observerPolicy authorityGeneration chainProfile confirmationPolicy target
    (pointAt 0) largest, decide_eq_true (initial_valid ..)⟩

def wideField (k : String) : Value :=
  if k = "checkpoint" then checkpointCodec.encode (pointAt 0)
  else if k = "catchUp" then catchUpConfigurationCodec.encode largest
  else field k

/-- 64 momentums, each with all the transactions that it may have. -/
def fullPage (sha : Sha256) : PageFields :=
  ⟨(wide sha).1.observerRecordId, (wide sha).1.targetBindingDigest,
    authorityGeneration, chainProfile, (makePlan (wide sha).1 (pointAt 64)).planId sha, pointAt 0,
    pointAt 64, (List.range 64).map entryAt⟩

theorem create_wide (sha : Sha256) :
    createZenonFundingObserverState sha (written (Order.given CREATE_KEYS) wideField)
      = .ok (wide sha) :=
  create_written rfl rfl rfl rfl rfl rfl rfl

theorem leads_entries : ∀ (n k : Nat), n + k ≤ 64 →
    Leads (pointAt k) ((List.range' k n).map entryAt) (pointAt (k + n))
  | 0, k, _ => .nil _
  | n + 1, k, h => by
    rw [List.range'_succ, List.map_cons]
    have hrest := leads_entries n (k + 1) (by omega)
    rw [show k + 1 + n = k + (n + 1) by omega] at hrest
    refine .cons ?_ rfl hrest
    show (7 : Int) + ((k + 1) % 65536 : Nat) = 7 + (k % 65536 : Nat) + 1
    omega

theorem distinct_members (n : Nat) (h : n < 64) : ((membersAt n).map (·.transactionId)).Nodup := by
  rw [membersAt, List.map_map]
  refine List.Nodup.map_on (fun i hi j hj heq => ?_) List.nodup_range
  have hlist := congrArg (fun t : TransactionId => t.1.toList) heq
  simp only [Function.comp_apply, String.toList_append] at hlist
  have htag := String.toList_inj.mp (List.append_cancel_left hlist)
  have hi' := List.mem_range.mp hi
  have hj' := List.mem_range.mp hj
  have := tag_inj (by omega) (by omega) htag
  omega

/-- None of the transactions is the target. -/
theorem targets_entries (sha : Sha256) (ns : List Nat) :
    targets (wide sha).1 (ns.map entryAt) = [] := by
  rw [targets, List.filter_eq_nil_iff]
  intro m hm heq
  obtain ⟨e, he, hmem⟩ := List.mem_flatMap.mp hm
  obtain ⟨n, _, rfl⟩ := List.mem_map.mp he
  obtain ⟨i, _, rfl⟩ := List.mem_map.mp hmem
  have hid : "zenontx:" ++ tag (256 * n + i) = "zenontx:"
      ++ String.ofList (List.replicate 64 'b') :=
    congrArg Subtype.val (of_decide_eq_true heq)
  have hlist := congrArg String.toList hid
  rw [String.toList_append, String.toList_append] at hlist
  have hhead := congrArg List.head? (List.append_cancel_left hlist)
  simp only [tag, String.toList_ofList] at hhead
  change some 'c' = some 'b' at hhead
  cases hhead

theorem honest_fullPage (sha : Sha256)
    (h : (wide sha).1.checkpoint.height.1 < (pointAt 64).height.1) :
    Honest (wide sha).1 (planFor sha (wide sha).1 (pointAt 64) h) (fullPage sha) where
  context := rfl
  planId := rfl
  start := rfl
  frontier := rfl
  leads := ⟨pointAt 64, by
    rw [fullPage, List.range_eq_range']
    exact leads_entries 64 0 (by decide)⟩
  count := rfl
  reached := by
    intro e he hheight
    obtain ⟨n, hn, rfl⟩ := List.mem_map.mp he
    have hlt := List.mem_range.mp hn
    have heq : (7 : Int) + ((n + 1) % 65536 : Nat) = 71 := hheight
    obtain rfl : n = 63 := by omega
    rfl
  size := by
    intro e he
    obtain ⟨n, _, rfl⟩ := List.mem_map.mp he
    show ((membersAt n).length : Int) ≤ 256
    rw [membersAt, List.length_map, List.length_range]
    decide
  distinct := by
    intro e he
    obtain ⟨n, hn, rfl⟩ := List.mem_map.mp he
    exact distinct_members n (List.mem_range.mp hn)
  binding := by
    intro m hm
    rw [show targets (wide sha).1 (fullPage sha).entries = [] from targets_entries sha _] at hm
    cases hm
  once := by
    rw [show targets (wide sha).1 (fullPage sha).entries = [] from targets_entries sha _]
    exact Nat.zero_le 1
  absent := fun _ => targets_entries sha _

/-- The page has more members than a call may have. -/
theorem members_fullPage (sha : Sha256) :
    MAX_INPUT_MEMBERS < ((fullPage sha).entries.map (·.members.length)).sum := by
  have hlengths : (fullPage sha).entries.map (·.members.length) = List.replicate 64 256 := by
    rw [fullPage, List.map_map, List.eq_replicate_iff]
    refine ⟨by simp, fun k hk => ?_⟩
    obtain ⟨n, _, rfl⟩ := List.mem_map.mp hk
    show (membersAt n).length = 256
    rw [membersAt, List.length_map, List.length_range]
  rw [hlengths]
  decide

end Sample

/-- With the largest configuration that is accepted, an honest page is refused. -/
theorem backfill_refused : ∃ (c : Accepted .standard) (plan : Plan) (page : PageFields),
    createZenonFundingObserverState .standard
    (written (Order.given CREATE_KEYS) Sample.wideField) = .ok c
      ∧ planZenonFundingObserverBackfill .standard (planOptions c (Sample.pointAt 64))
        = .ok ⟨⟨c, .BACKFILL_REQUIRED⟩, some plan⟩
      ∧ Honest c.1 plan page
      ∧ applyZenonFundingObserverPage .standard (pageOptions c plan page)
        = .error .INVALID_INPUT := by
  have habove : (Sample.wide .standard).1.checkpoint.height.1 < (Sample.pointAt 64).height.1 := by
    decide
  refine ⟨Sample.wide .standard,
    planFor .standard (Sample.wide .standard).1 (Sample.pointAt 64) habove,
    Sample.fullPage .standard, Sample.create_wide .standard,
    plan_returned (by decide) (fun ⟨_, _, hr, _⟩ => nomatch hr) habove,
    Sample.honest_fullPage .standard habove, page_refused ?_⟩
  rw [← Option.not_isSome_iff_eq_none]
  intro hsome
  obtain ⟨w, hw⟩ := Option.isSome_iff_exists.mp hsome
  have hmembers := (members_le (Sample.wide .standard) _ (Sample.fullPage .standard)).trans
    (snapshotJson_members hw)
  exact absurd hmembers (not_le.mpr (Sample.members_fullPage .standard))

end Observer
end ZenonX402
