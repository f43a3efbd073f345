/-
# The attempts to verify a funding

Whatever the owners of a funding receipt do, in whatever order, and whatever
becomes of their swaps: what they did was lawful (`Ledger`). An attempt is counted
in the stored receipt before the verifier is called, so the calls have different
counts and are no more than the limit; a candidate stays until it was rejected;
what is verified was said by a verifier that its owner had called for that
candidate, and stays.

Each part of a turn keeps all in order (`Ok`), which needs to be known of `commit`
only (`commit_spec`); between the turns an owner is at rest (`Owner.Rests`).

Key definitions: `tip`, `calls`, `Earned`, `Deed.Lawful`, `Ledger`, `Ok`, `Owner.Rests`, `captured`.
Key theorems: `Ledger.proposed`, `commit_spec`, `turn_spec`, `run_ok`,
`bounded_pinned_verification`.
-/
import ZenonX402.Order.Verification

namespace ZenonX402
namespace Order
namespace Funding

open Js Prog

/-! ### What was done -/

/-- The receipt that is stored after a deed. -/
def Deed.next (stored : Option Receipt) : Deed → Option Receipt
  | .proposed _ _ next true => some next
  | _ => stored

/-- The receipt that is stored after what was done. -/
def tip (log : List Deed) : Option Receipt := log.foldl Deed.next none

/-- The receipt of a call of the verifier. -/
def Deed.pending? : Deed → Option Receipt
  | .called _ s => some s
  | _ => none

def calls (log : List Deed) : List Receipt := log.filterMap Deed.pending?

@[simp] theorem tip_append (log : List Deed) (d : Deed) : tip (log ++ [d]) = d.next (tip log) := by
  simp [tip]

@[simp] theorem calls_append (log : List Deed) (d : Deed) :
    calls (log ++ [d]) = calls log ++ d.pending?.toList := by
  cases d <;> simp [calls, Deed.pending?]

/-- A verified receipt is earned by an owner, where `who` says what payment an owner has captured:
it called the verifier for the candidate, in this attempt, and the record that it was given then
goes with its payment. -/
inductive Earned {w : Wire} (who : Nat → Option (OrderPayment w)) (log : List Deed) (index : Nat)
    (b : Receipt) : Prop
  | intro (p : OrderPayment w) (hcaptured : who index = some p)
      (hbinding : b.binding = p.binding b.binding.maximumVerificationAttempts)
      (early mid late : List Deed) (s : Receipt) (given record : Value) (settlement : String)
      (hlog : log = early ++ .called index s :: (mid ++ .returned index given :: late))
      (hcandidate : s.candidateJson = b.candidateJson) (hattempts : s.attempts = b.attempts)
      (hverified : w.verified p.verifierContext given = some (record, settlement))
      (hrecord : b.verifiedRecordJson = some (stringify record))
      (hsettlement : b.sourceSettlementId = some settlement)

/-- A strictly increasing list of integers is no longer than their range. -/
theorem length_le_of_increasing : ∀ {l : List Int} {lo hi : Int}, lo ≤ hi → l.Pairwise (· < ·) →
    (∀ n ∈ l, lo < n ∧ n ≤ hi) → (l.length : Int) ≤ hi - lo
  | [], lo, hi, hle, _, _ => by
    simp
    omega
  | n :: l, lo, hi, _, h, hbounds => by
    obtain ⟨hn, hl⟩ := List.pairwise_cons.mp h
    obtain ⟨hlo, hhi⟩ := hbounds n List.mem_cons_self
    have hrest := length_le_of_increasing hhi hl fun m hm =>
      ⟨hn m hm, (hbounds m (List.mem_cons_of_mem _ hm)).2⟩
    rw [List.length_cons]
    omega

/-- What may be done after what was done. -/
inductive Deed.Lawful {w : Wire} (who : Nat → Option (OrderPayment w)) (log : List Deed) :
    Deed → Prop
  | proposed {index : Nat} {a : Option Receipt} {b : Receipt} {stored : Bool}
      (haccepted : Receipt.Accepted w a b) (hstored : stored = true → tip log = a)
      (hearned : b.phase = .VERIFIED → Earned who log index b) :
      Lawful who log (.proposed index a b stored)
  | called {index : Nat} {s : Receipt} (hstored : tip log = some s) (hphase : s.phase = .VERIFYING)
      (hfresh : ∀ c ∈ calls log, c.attempts.1 < s.attempts.1) : Lawful who log (.called index s)
  | returned {index : Nat} {record : Value} : Lawful who log (.returned index record)

/-- What is stored is what was proposed last with effect, and all that was done was lawful. -/
structure Ledger {w : Wire} (who : Nat → Option (OrderPayment w)) (stored : Value)
    (log : List Deed) : Prop where
  stored : stored = (keeping w).value (tip log)
  lawful : ∀ pre d post, log = pre ++ d :: post → d.Lawful who pre
  counted : ∀ c ∈ calls log, ∃ t, tip log = some t ∧ c.attempts.1 ≤ t.attempts.1
    ∧ c.binding.maximumVerificationAttempts = t.binding.maximumVerificationAttempts
  limited : ∀ t, tip log = some t → t.attempts.1 ≤ t.binding.maximumVerificationAttempts.1
  positive : ∀ c ∈ calls log, 0 < c.attempts.1
  increasing : (calls log).Pairwise fun c d => c.attempts.1 < d.attempts.1

variable {w : Wire} {who : Nat → Option (OrderPayment w)}

theorem Ledger.initial : Ledger who .null [] :=
  ⟨rfl, fun pre d post h => (by simp at h), fun c hc => (nomatch hc), fun t ht => (nomatch ht),
    fun c hc => (nomatch hc), .nil⟩

theorem accepted_attempts {a b : Receipt} (h : Receipt.Accepted w (some a) b) :
    a.attempts.1 ≤ b.attempts.1 ∧ a.binding = b.binding
      ∧ (a.attempts.1 ≤ a.binding.maximumVerificationAttempts.1 →
        b.attempts.1 ≤ b.binding.maximumVerificationAttempts.1) := by
  cases h with
  | next _ _ hbinding _ hfollows =>
    cases hfollows with
    | attempt _ hlimit hattempts _ =>
      refine ⟨by omega, hbinding, fun _ => ?_⟩
      rw [← hbinding]
      omega
    | outcome _ _ hattempts _ _ =>
      refine ⟨by rw [hattempts], hbinding, fun hle => ?_⟩
      rw [← hbinding, ← hattempts]
      exact hle

namespace Ledger

variable {stored : Value} {log : List Deed}

/-- A swap leads from a lawful ledger to a lawful ledger, whether or not it takes effect. -/
theorem proposed (h : Ledger who stored log) {index : Nat} {a : Option Receipt} {b : Receipt}
    {applied : Bool} (haccepted : Receipt.Accepted w a b)
    (hlimited : b.attempts.1 ≤ b.binding.maximumVerificationAttempts.1)
    (happlied : applied = true → stored = (keeping w).value a)
    (hearned : b.phase = .VERIFIED → Earned who log index b) :
    Ledger who (if applied = true then .str b.text else stored)
    (log ++ [.proposed index a b applied]) := by
  have htip : applied = true → tip log = a := fun happly =>
    Keeping.value_inj (fun _ _ => Receipt.text_inj) (h.stored.symm.trans (happlied happly))
  have hlawful := lawful_append h.lawful (.proposed haccepted htip hearned)
  have hcalls : calls (log ++ [.proposed index a b applied]) = calls log := by
    rw [calls_append]
    exact List.append_nil _
  cases applied with
  | false =>
    refine ⟨?_, hlawful, ?_, ?_, ?_, ?_⟩
    · simpa [Deed.next] using h.stored
    · simpa [hcalls, Deed.next] using h.counted
    · simpa [Deed.next] using h.limited
    · rw [hcalls]
      exact h.positive
    · rw [hcalls]
      exact h.increasing
  | true =>
    have hnext : tip (log ++ [.proposed index a b true]) = some b := tip_append _ _
    refine ⟨?_, hlawful, fun c hc => ?_, fun t ht => ?_, ?_, ?_⟩
    · rw [hnext]
      rfl
    · rw [hcalls] at hc
      obtain ⟨t, ht, hle, hmaximum⟩ := h.counted c hc
      rw [htip rfl] at ht
      subst ht
      obtain ⟨hattempts, hbinding, -⟩ := accepted_attempts haccepted
      exact ⟨b, hnext, hle.trans hattempts, by rw [hmaximum, hbinding]⟩
    · rw [hnext] at ht
      obtain rfl := Option.some.inj ht
      exact hlimited
    · rw [hcalls]
      exact h.positive
    · rw [hcalls]
      exact h.increasing

/-- The verifier is called for the receipt that is stored, which counts more than the calls before.
-/
theorem called (h : Ledger who stored log) {index : Nat} {s : Receipt} (htip : tip log = some s)
    (hphase : s.phase = .VERIFYING) (hpositive : 0 < s.attempts.1)
    (hfresh : ∀ c ∈ calls log, c.attempts.1 < s.attempts.1) :
    Ledger who stored (log ++ [.called index s]) := by
  have hnext : tip (log ++ [.called index s]) = tip log := tip_append _ _
  have hcalls : calls (log ++ [.called index s]) = calls log ++ [s] := calls_append _ _
  refine ⟨?_, lawful_append h.lawful (.called htip hphase hfresh), fun c hc => ?_, ?_,
    fun c hc => ?_, ?_⟩
  · rw [hnext]
    exact h.stored
  · rw [hnext]
    rw [hcalls] at hc
    rcases List.mem_append.mp hc with hc | hc
    · exact h.counted c hc
    · obtain rfl := List.mem_singleton.mp hc
      exact ⟨c, htip, le_rfl, rfl⟩
  · rw [hnext]
    exact h.limited
  · rw [hcalls] at hc
    rcases List.mem_append.mp hc with hc | hc
    · exact h.positive c hc
    · rw [List.mem_singleton.mp hc]
      exact hpositive
  · rw [hcalls, List.pairwise_append]
    refine ⟨h.increasing, List.pairwise_singleton .., fun c hc d hd => ?_⟩
    rw [List.mem_singleton.mp hd]
    exact hfresh c hc

theorem returned (h : Ledger who stored log) {index : Nat} {record : Value} :
    Ledger who stored (log ++ [.returned index record]) := by
  have hnext : tip (log ++ [.returned index record]) = tip log := tip_append _ _
  have hcalls : calls (log ++ [.returned index record]) = calls log := by
    rw [calls_append]
    exact List.append_nil _
  refine ⟨?_, lawful_append h.lawful .returned, ?_, ?_, ?_, ?_⟩
  · rw [hnext]
    exact h.stored
  · rw [hcalls, hnext]
    exact h.counted
  · rw [hnext]
    exact h.limited
  · rw [hcalls]
    exact h.positive
  · rw [hcalls]
    exact h.increasing

/-- There are no more calls than the limit of any of them. -/
theorem calls_le (h : Ledger who stored log) {c : Receipt} (hc : c ∈ calls log) :
    ((calls log).length : Int) ≤ c.binding.maximumVerificationAttempts.1 := by
  obtain ⟨t, ht, -, hmaximum⟩ := h.counted c hc
  have hlimit := h.limited t ht
  rw [← hmaximum] at hlimit
  have hbounds : ∀ n ∈ (calls log).map fun c => c.attempts.1, 0 < n
      ∧ n ≤ c.binding.maximumVerificationAttempts.1 := by
    intro n hn
    obtain ⟨d, hd, rfl⟩ := List.mem_map.mp hn
    obtain ⟨t', ht', hle, -⟩ := h.counted d hd
    obtain rfl := Option.some.inj (ht.symm.trans ht')
    exact ⟨h.positive d hd, hle.trans hlimit⟩
  have hmax : 0 ≤ c.binding.maximumVerificationAttempts.1 := by
    have := of_decide_eq_true c.binding.maximumVerificationAttempts.2.2
    omega
  have hlength := length_le_of_increasing hmax (List.pairwise_map.mpr h.increasing) hbounds
  rw [List.length_map] at hlength
  omega

end Ledger

/-! ### One turn -/

/-- What the owner last knew is a receipt of its payment. -/
def Owner.Knows (o : Owner w) : Prop := ∀ s, o.current = some s → o.state (.str s.text) = .ok s

/-- Nothing changes but that the owner is closed or held. -/
structure Owner.Same (o o' : Owner w) : Prop where
  setup : o'.setup = o.setup
  recovered : o'.recovered = o.recovered
  current : o'.current = o.current
  active : o'.active = o.active

theorem Owner.same_quiet : Quiet (@Owner.Same w) :=
  ⟨fun _ => ⟨rfl, rfl, rfl, rfl⟩,
    fun h h' => ⟨h'.setup.trans h.setup, h'.recovered.trans h.recovered, h'.current.trans h.current,
      h'.active.trans h.active⟩, fun _ _ => ⟨rfl, rfl, rfl, rfl⟩, fun _ => ⟨rfl, rfl, rfl, rfl⟩⟩

theorem Owner.Same.knows {o o' : Owner w} (h : o.Same o') (hknows : o.Knows) : o'.Knows := by
  intro s hs
  rw [h.current] at hs
  have hstate := hknows s hs
  unfold Owner.state at hstate ⊢
  rwa [h.setup]

abbrev Still (x y : Desk (Owner w) Deed) : Prop := x.Still Owner.Same y

theorem still_quiet : Quiet (@Still w) := Desk.still_quiet Owner.same_quiet

structure Ok (who : Nat → Option (OrderPayment w)) (x : Desk (Owner w) Deed) : Prop where
  ledger : Ledger who x.stored x.log
  knows : x.owner.Knows
  captured : who x.index = some x.owner.setup.payment

/-- Part of a turn, after which all is in order and the log is longer at most. -/
structure Kept (who : Nat → Option (OrderPayment w)) (x y : Desk (Owner w) Deed) : Prop where
  ok : Ok who y
  index : y.index = x.index
  setup : y.owner.setup = x.owner.setup
  active : y.owner.active = x.owner.active
  recovered : y.owner.recovered = x.owner.recovered
  log : x.log <+: y.log

variable {x y z : Desk (Owner w) Deed}

/-- Whatever becomes of the desk, it is the desk of the same owner. -/
theorem Ok.same_captured (hx : Ok who x) (hindex : y.index = x.index)
    (hsetup : y.owner.setup = x.owner.setup) :
    who y.index = some y.owner.setup.payment := by
  rw [hindex, hsetup]
  exact hx.captured

theorem kept_of_still (h : Still x y) (hx : Ok who x) : Kept who x y := by
  refine ⟨⟨?_, h.owner.knows hx.knows, hx.same_captured h.index h.owner.setup⟩, h.index,
    h.owner.setup, h.owner.active, h.owner.recovered, h.log ▸ List.prefix_rfl⟩
  rw [h.stored, h.log]
  exact hx.ledger

theorem Kept.refl (hx : Ok who x) : Kept who x x := kept_of_still (still_quiet.refl x) hx

theorem Kept.trans (h : Kept who x y) (h' : Kept who y z) : Kept who x z :=
  ⟨h'.ok, h'.index.trans h.index, h'.setup.trans h.setup, h'.active.trans h.active,
    h'.recovered.trans h.recovered, h.log.trans h'.log⟩

theorem view_spec (s : Receipt) (clock : Answer) (x : Desk (Owner w) Deed) :
    Ends (view s clock) x fun _ y => Still x y := by
  unfold view
  rw [ends_bind]
  refine (now_quiet still_quiet clock _ _ x).mono fun r y h => ?_
  cases r with
  | error e => exact h
  | ok at' => exact h

theorem start_spec (needsRecovery : Bool) (x : Desk (Owner w) Deed) :
    Ends (start needsRecovery) x fun r y => y = x ∧
    ∀ u, r = .ok u → x.owner.active = none ∧ (needsRecovery = true → x.owner.recovered = true) := by
  unfold start
  rw [ends_get, ends_failIf]
  refine ⟨fun _ => ⟨rfl, nofun⟩,
    fun _ => ends_failIf.mpr ⟨fun _ => ⟨rfl, nofun⟩, fun _ => ends_failIf.mpr
    ⟨fun _ => ⟨rfl, nofun⟩, fun hactive => ?_⟩⟩⟩
  unfold failIf
  rw [ends_ite]
  refine ⟨fun _ => ⟨rfl, nofun⟩, fun hrecovered => ⟨rfl, fun _ _ => ⟨?_, fun hneeds => ?_⟩⟩⟩
  · exact Option.not_isSome_iff_eq_none.mp hactive
  · simpa [hneeds] using hrecovered

/-- What is proposed: a receipt that the contract accepts in the place of the one the owner knows,
and that is earned if it is verified. -/
structure Proposable (who : Nat → Option (OrderPayment w)) (x : Desk (Owner w) Deed)
    (next : Receipt) : Prop where
  accepted : x.owner.state (.str next.text) = .ok next → Receipt.Accepted w x.owner.current next
  earned : next.phase = .VERIFIED → Earned who x.log x.index next

theorem state_text {o : Owner w} {s s' : Receipt} (h : o.state (.str s.text) = .ok s') : s' = s :=
  Receipt.text_inj (Value.str.inj (state_ok.mp h).1).symm

/-- A commit keeps all in order; once it is acknowledged, what is stored is what was committed. -/
theorem commit_spec {next : Receipt} (e : Exchange) (hx : Ok who x)
    (hnext : Proposable who x next) :
    Ends (commit next e) x fun r y => Kept who x y
      ∧ (∀ s, r = .ok s → s = next ∧ y.owner.current = some next ∧ tip x.log = x.owner.current
        ∧ tip y.log = some next
        ∧ calls y.log = calls x.log)
      ∧ ∀ f, r = .error f → y.owner.current = x.owner.current := by
  unfold commit
  rw [ends_get, ends_lift]
  refine ⟨fun f _ => ⟨Kept.refl hx, fun s hs => (nomatch hs), fun _ _ => rfl⟩, fun s hs => ?_⟩
  have hstate := failWith_ok.mp hs
  obtain rfl := state_text hstate
  have hlimited : s.attempts.1 ≤ s.binding.maximumVerificationAttempts.1 := by
    obtain ⟨-, -, hbinding, hattempts, -⟩ := state_ok.mp hstate
    rw [hbinding]
    exact hattempts
  have hledger := @Ledger.proposed w who _ _ hx.ledger x.index x.owner.current s
    ((keeping w).applies x e) (hnext.accepted hstate)
    hlimited Keeping.stored_of_applies hnext.earned
  refine (Keeping.exchange_spec Owner.same_quiet s e _ _ _ x).mono fun r y h => ?_
  have hy : Ledger who y.stored y.log := by
    rw [h.stored, h.log]
    exact hledger
  have hlog : x.log <+: y.log := h.log ▸ List.prefix_append _ _
  rcases h.owner with ⟨f, rfl, hsame⟩ | ⟨rfl, happlies, o, hsame, howner⟩
  · exact ⟨⟨⟨hy, hsame.knows hx.knows, hx.same_captured h.index hsame.setup⟩, h.index, hsame.setup,
      hsame.active, hsame.recovered, hlog⟩, nofun, fun _ _ => hsame.current⟩
  · have hknows : y.owner.Knows := by
      intro s' hs'
      rw [howner] at hs'
      obtain rfl := Option.some.inj hs'
      rw [howner]
      change Order.state o.setup.payment o.setup.maximumVerificationAttempts (.str s.text) = .ok s
      rw [hsame.setup]
      exact hstate
    have hsetup : y.owner.setup = x.owner.setup := by
      rw [howner]
      exact hsame.setup
    refine ⟨⟨⟨hy, hknows, hx.same_captured h.index hsetup⟩, h.index,
      hsetup, by rw [howner]; exact hsame.active, by rw [howner]; exact hsame.recovered, hlog⟩,
      fun s' hs' => ?_, nofun⟩
    refine ⟨(Except.ok.inj hs').symm, by rw [howner]; rfl, ?_, ?_, ?_⟩
    · exact Keeping.value_inj (fun _ _ => Receipt.text_inj)
        (hx.ledger.stored.symm.trans (Keeping.stored_of_applies happlies))
    · rw [h.log, happlies]
      exact tip_append _ _
    · rw [h.log, calls_append]
      exact List.append_nil _

-- What these come to is said by their lemmas from here on.
attribute [local irreducible] view start commit

/-! ### The turns -/

/-- Between its turns an owner that is not recovered knows no receipt; one that waits knows the
receipt that is verified, and has called the verifier if the candidate gets that far. -/
structure Owner.Rests (o : Owner w) (index : Nat) (log : List Deed) : Prop where
  fresh : o.recovered = false → o.current = none
  pending : ∀ s, o.active = some s → o.current = some s ∧ s.phase = .VERIFYING
  called : ∀ s candidateJson, o.active = some s → s.candidateJson = some candidateJson →
    w.isEvidence o.setup.payment.verifierContext candidateJson = true → .called index s ∈ log

theorem Owner.Rests.same {o o' : Owner w} {index : Nat} {log log' : List Deed}
    (h : o.Rests index log) (hsame : o.Same o') (hlog : log <+: log') : o'.Rests index log' := by
  refine ⟨fun hfresh => ?_, fun s hs => ?_, fun s candidateJson hs hcandidate hevidence => ?_⟩
  · rw [hsame.current]
    exact h.fresh (hsame.recovered ▸ hfresh)
  · rw [hsame.current]
    exact h.pending s (hsame.active ▸ hs)
  · rw [hsame.setup] at hevidence
    exact hlog.subset (h.called s candidateJson (hsame.active ▸ hs) hcandidate hevidence)

/-- After a turn all is in order, and the owner rests. -/
structure Done (who : Nat → Option (OrderPayment w)) (x y : Desk (Owner w) Deed) : Prop where
  ok : Ok who y
  index : y.index = x.index
  log : x.log <+: y.log
  rests : y.owner.Rests y.index y.log

theorem done_of_still (h : Still x y) (hx : Ok who x) (hrests : x.owner.Rests x.index x.log) :
    Done who x y := by
  obtain ⟨hok, hindex, -, -, -, hlog⟩ := kept_of_still h hx
  refine ⟨hok, hindex, hlog, ?_⟩
  rw [hindex]
  exact hrests.same h.owner hlog

/-- After part of a turn an owner that waits for nothing and is recovered rests. -/
theorem Kept.done (h : Kept who x y) (hactive : x.owner.active = none)
    (hrecovered : y.owner.recovered = true ∨ y.owner.current = none) : Done who x y := by
  refine ⟨h.ok, h.index, h.log, fun hfresh => ?_, fun s hs => ?_, fun s _ hs => ?_⟩
  · rcases hrecovered with hrecovered | hrecovered
    · rw [hrecovered] at hfresh
      cases hfresh
    · exact hrecovered
  · rw [h.active, hactive] at hs
    cases hs
  · rw [h.active, hactive] at hs
    cases hs

theorem Done.still (h : Done who x y) (h' : Still y z) : Done who x z := by
  obtain ⟨hok, hindex, hlog, hrests⟩ := done_of_still h' h.ok h.rests
  exact ⟨hok, hindex.trans h.index, h.log.trans hlog, hrests⟩

theorem initial_proposable (x : Desk (Owner w) Deed) (h : x.owner.current = none) :
    Proposable who x x.owner.initial := by
  refine ⟨fun hstate => ?_, fun hphase => by cases hphase⟩
  rw [h]
  exact .first (receipt_of_state x.owner.setup.captured hstate) rfl

theorem adopt_spec (raw : Value) (e : Exchange) (hx : Ok who x)
    (hcurrent : x.owner.current = none) :
    Ends (adopt raw e) x fun r y => Kept who x y ∧ ∀ f, r = .error f → y.owner.current = none := by
  unfold adopt
  rw [ends_get, ends_ite]
  refine ⟨fun _ => ?_, fun _ => ?_⟩
  · refine (commit_spec e hx (initial_proposable x hcurrent)).mono fun r y h =>
      ⟨h.1, fun f hf => ?_⟩
    rw [h.2.2 f hf]
    exact hcurrent
  · cases hraw : x.owner.state raw with
    | error f =>
      refine (hold_quiet still_quiet _ _).mono fun r y h => ⟨kept_of_still h.1 hx, fun _ _ => ?_⟩
      rw [h.1.owner.current]
      exact hcurrent
    | ok s =>
      refine ⟨⟨⟨hx.ledger, fun s' hs' => ?_, hx.captured⟩, rfl, rfl, rfl, rfl,
        List.prefix_rfl⟩, nofun⟩
      obtain rfl := Option.some.inj hs'
      have hs := (state_ok.mp hraw).1
      change x.owner.state (.str s.text) = .ok s
      rw [← hs]
      exact hraw

theorem recover_spec (loaded : Answer) (e : Exchange) (clock : Answer) (hx : Ok who x)
    (hrests : x.owner.Rests x.index x.log) :
    Ends (recover loaded e clock) x fun _ y => Done who x y := by
  have hsame := done_of_still (still_quiet.refl x) hx hrests
  unfold recover
  rw [ends_bind]
  refine (start_spec false x).mono fun r y h => ?_
  obtain ⟨rfl, hstart⟩ := h
  cases r with
  | error f => exact hsame
  | ok u =>
    obtain ⟨hactive, -⟩ := hstart u rfl
    dsimp only
    rw [ends_get, ends_failIf]
    refine ⟨fun _ => hsame, fun hrecovered => ?_⟩
    have hcurrent := hrests.fresh (Bool.eq_false_iff.mpr hrecovered)
    rw [ends_bind]
    refine (ask_quiet still_quiet loaded _ _ _).mono fun r z hz => ?_
    cases r with
    | error f => exact done_of_still hz hx hrests
    | ok raw =>
      have hkept := kept_of_still hz hx
      dsimp only
      rw [ends_bind]
      refine (adopt_spec raw e hkept.ok (hz.owner.current.trans hcurrent)).mono fun r t ht => ?_
      have hdone := hkept.trans ht.1
      cases r with
      | error f => exact hdone.done hactive (.inr (ht.2 f rfl))
      | ok s =>
        dsimp only
        rw [ends_modify]
        have hnone : t.owner.active = none := hdone.active.trans hactive
        have hrested : Done who y (t.alter Owner.recover) :=
          ⟨⟨hdone.ok.ledger, hdone.ok.knows, hdone.ok.captured⟩, hdone.index, hdone.log,
            ⟨fun hfresh => (nomatch hfresh), fun s hs => (nomatch hnone.symm.trans hs),
              fun s _ hs => (nomatch hnone.symm.trans hs)⟩⟩
        exact (view_spec s clock _).mono fun r z hz => hrested.still hz

/-! ### Attempts -/

/-- An attempt follows a receipt that is not verified and has attempts left. -/
theorem pending_proposable {before : Receipt} {attempts : Count} {candidateJson : String}
    (hx : Ok who x) (hcurrent : x.owner.current = some before) (hphase : before.phase ≠ .VERIFIED)
    (hpinned : ¬ (before.phase = .VERIFYING ∧ before.candidateJson ≠ some candidateJson))
    (hlimit : before.attempts.1 ≠ x.owner.setup.maximumVerificationAttempts.1)
    (hattempts : Count.succ? before.attempts = some attempts) :
    Proposable who x (pending w before attempts candidateJson) := by
  have hbefore := hx.knows before hcurrent
  obtain ⟨-, -, hbinding, hle, -⟩ := state_ok.mp hbefore
  refine ⟨fun hstate => ?_, fun hverified => nomatch hverified⟩
  rw [hcurrent]
  refine .next (receipt_of_state x.owner.setup.captured hbefore)
    (receipt_of_state x.owner.setup.captured hstate) rfl
    hphase (.attempt rfl ?_ (Count.succ?_some hattempts) fun hverifying => ?_)
  · rw [hbinding]
    exact lt_of_le_of_ne hle hlimit
  · by_contra hne
    exact hpinned ⟨hverifying, hne⟩

/-- The receipt whose verification is under way is followed by its outcome. -/
theorem outcome_proposable {s next : Receipt} (hx : Ok who x) (hcurrent : x.owner.current = some s)
    (hphase : s.phase = .VERIFYING) (hnext : next.phase = .REJECTED ∨ next.phase = .VERIFIED)
    (hbinding : s.binding = next.binding) (hattempts : s.attempts = next.attempts)
    (hcandidate : s.candidateJson = next.candidateJson)
    (hdigest : s.candidateDigest = next.candidateDigest)
    (hearned : next.phase = .VERIFIED → Earned who x.log x.index next) : Proposable who x next := by
  have hs := receipt_of_state x.owner.setup.captured (hx.knows s hcurrent)
  refine ⟨fun hstate => ?_, hearned⟩
  rw [hcurrent]
  refine .next hs (receipt_of_state x.owner.setup.captured hstate) hbinding ?_
    (.outcome hnext hphase hattempts hcandidate hdigest)
  rw [hphase]
  decide

/-- The verifier is called for the receipt that was just stored. -/
theorem call_spec {s : Receipt} {candidateJson : String} (hx : Ok who x)
    (hrecovered : x.owner.recovered = true) (hcurrent : x.owner.current = some s)
    (htip : tip x.log = some s) (hphase : s.phase = .VERIFYING)
    (hcandidate : s.candidateJson = some candidateJson) (hpositive : 0 < s.attempts.1)
    (hfresh : ∀ c ∈ calls x.log, c.attempts.1 < s.attempts.1) :
    Ends (call s candidateJson) x fun _ y => Done who x y := by
  have hrests (log : List Deed)
      (hcalled : w.isEvidence x.owner.setup.payment.verifierContext candidateJson = true →
      .called x.index s ∈ log) : ({ x.owner with active := some s } : Owner w).Rests
      x.index log := by
    refine ⟨fun hfresh => (nomatch hrecovered.symm.trans hfresh), fun s' hs' => ?_,
      fun s' raw hs' hraw hevidence => ?_⟩
    · obtain rfl := Option.some.inj hs'
      exact ⟨hcurrent, hphase⟩
    · obtain rfl := Option.some.inj hs'
      obtain rfl := Option.some.inj (hcandidate.symm.trans hraw)
      exact hcalled hevidence
  unfold call invoke
  rw [ends_bind, ends_get]
  by_cases hevidence : w.isEvidence x.owner.setup.payment.verifierContext candidateJson = true
  · rw [if_pos hevidence]
    refine ⟨⟨hx.ledger.called htip hphase hpositive hfresh, hx.knows, hx.captured⟩, rfl,
      List.prefix_append _ _, ?_⟩
    exact hrests _ fun _ => List.mem_append_right _ (List.mem_singleton_self _)
  · rw [if_neg hevidence]
    exact ⟨⟨hx.ledger, hx.knows, hx.captured⟩, rfl, List.prefix_rfl,
      hrests _ fun h => absurd h hevidence⟩

theorem crash_spec {α : Type} (x : Desk (Owner w) Deed) :
    Ends (crash : Work w α) x fun _ y => Still x y :=
  ⟨rfl, rfl, rfl, ⟨rfl, rfl, rfl, rfl⟩⟩

theorem attempt_spec {before : Receipt} (candidateJson : String) (e : Exchange) (crashes : Bool)
    (hx : Ok who x) (hrests : x.owner.Rests x.index x.log) (hactive : x.owner.active = none)
    (hrecovered : x.owner.recovered = true) (hcurrent : x.owner.current = some before)
    (hphase : before.phase ≠ .VERIFIED) :
    Ends (attemptVerification before candidateJson e crashes) x fun _ y => Done who x y := by
  have hsame := done_of_still (still_quiet.refl x) hx hrests
  unfold attemptVerification
  rw [ends_get, ends_failIf]
  refine ⟨fun _ => hsame,
    fun hpinned => ends_failIf.mpr ⟨fun _ => hsame, fun hlimit => ends_orFail.mpr
    ⟨fun _ => hsame, fun attempts hattempts => ?_⟩⟩⟩
  rw [ends_bind]
  refine (commit_spec e hx (pending_proposable hx hcurrent hphase hpinned hlimit hattempts)).mono
    fun r y h => ?_
  obtain ⟨hkept, hstored, -⟩ := h
  have hdone := hkept.done hactive (.inl (hkept.recovered.trans hrecovered))
  cases r with
  | error f => exact hdone
  | ok s =>
    obtain ⟨rfl, hcurrent', hbefore, htip, hcalls⟩ := hstored s rfl
    dsimp only
    rw [ends_ite]
    refine ⟨fun _ => (crash_spec _).mono fun _ _ h => hdone.still h, fun _ => ?_⟩
    have hsucc : (pending w before attempts candidateJson).attempts.1 = before.attempts.1 + 1 :=
      Count.succ?_some hattempts
    refine (call_spec hkept.ok (hkept.recovered.trans hrecovered) hcurrent' htip rfl rfl ?_
      fun c hc => ?_).mono
      fun _ z hz => ⟨hz.ok, hz.index.trans hkept.index, hkept.log.trans hz.log, hz.rests⟩
    · have hzero : 0 ≤ before.attempts.1 := of_decide_eq_true before.attempts.2.2
      omega
    · rw [hcalls] at hc
      obtain ⟨t, ht, hle, -⟩ := hx.ledger.counted c hc
      rw [hbefore, hcurrent] at ht
      obtain rfl := Option.some.inj ht
      omega

theorem verifyFunding_spec (candidateJson : Value) (e : Exchange) (clock : Answer) (crashes : Bool)
    (hx : Ok who x) (hrests : x.owner.Rests x.index x.log) :
    Ends (verifyFunding candidateJson e clock crashes) x fun _ y => Done who x y := by
  have hsame := done_of_still (still_quiet.refl x) hx hrests
  unfold verifyFunding
  rw [ends_bind]
  refine (start_spec true x).mono fun r y h => ?_
  obtain ⟨rfl, hstart⟩ := h
  cases r with
  | error f => exact hsame
  | ok u =>
    obtain ⟨hactive, hrecovered⟩ := hstart u rfl
    refine ends_orFail.mpr ⟨fun _ => hsame, fun raw _ => ?_⟩
    rw [ends_get]
    refine ends_orFail.mpr ⟨fun _ => hsame, fun before hcurrent => ?_⟩
    rw [ends_ite]
    refine ⟨fun _ => ends_failIf.mpr ⟨fun _ => hsame, fun _ => ?_⟩, fun hphase => ?_⟩
    · rw [ends_map]
      exact (view_spec before clock y).mono fun _ _ h => done_of_still h hx hrests
    · rw [ends_map]
      exact attempt_spec raw e crashes hx hrests hactive (hrecovered rfl) hcurrent hphase

/-- What the verifier's answer comes to is recorded before it is used. -/
theorem outcome_spec (s : Receipt) (record : Option Value) (hx : Ok who x)
    (hcalled : ∀ candidateJson, s.candidateJson = some candidateJson →
      w.isEvidence x.owner.setup.payment.verifierContext candidateJson = true →
      .called x.index s ∈ x.log) :
    Ends (outcome s record) x fun r y => Kept who x y ∧ y.owner = x.owner ∧ ∀ v settlement,
      r = .ok (some (v, settlement)) →
      ∃ early mid given, y.log = early ++ .called x.index s :: (mid ++ [.returned x.index given])
        ∧ w.verified x.owner.setup.payment.verifierContext given = some (v, settlement) := by
  have hnone : Kept who x x ∧ x.owner = x.owner ∧ ∀ v settlement,
      (.ok none : Except Failure (Option (Value × String)))
      = .ok (some (v, settlement)) → ∃ early mid given, x.log = early ++ .called x.index s ::
        (mid ++ [.returned x.index given]) ∧ w.verified x.owner.setup.payment.verifierContext given
          = some (v, settlement) :=
    ⟨Kept.refl hx, rfl, nofun⟩
  unfold outcome
  rw [ends_get]
  cases hcandidate : s.candidateJson with
  | none => exact hnone
  | some candidateJson =>
    cases record with
    | none => exact hnone
    | some given =>
      dsimp only
      rw [ends_ite]
      refine ⟨fun hevidence => ?_, fun _ => hnone⟩
      rw [ends_modify, ends_pure]
      refine ⟨⟨⟨hx.ledger.returned, hx.knows, hx.captured⟩, rfl, rfl, rfl, rfl,
        List.prefix_append _ _⟩, rfl, fun v settlement hv => ?_⟩
      obtain ⟨early, mid, hlog⟩ := List.append_of_mem (hcalled candidateJson hcandidate hevidence)
      refine ⟨early, mid, given, ?_, Except.ok.inj hv⟩
      change x.log ++ [.returned x.index given] = _
      rw [hlog, List.append_assoc, List.cons_append]

theorem conclude_spec {s : Receipt} {result : Option (Value × String)} (observed : Answer)
    (e : Exchange) (hx : Ok who x) (hcurrent : x.owner.current = some s)
    (hphase : s.phase = .VERIFYING)
    (hresult : ∀ v settlement, result = some (v, settlement) → ∃ early mid given, x.log = early
      ++ .called x.index s :: (mid ++ [.returned x.index given])
        ∧ w.verified x.owner.setup.payment.verifierContext given = some (v, settlement)) :
    Ends (conclude s result observed e) x fun _ y => Kept who x y := by
  cases result with
  | none =>
    have hnext : Proposable who x (rejected s) :=
      outcome_proposable hx hcurrent hphase (.inl rfl) rfl rfl rfl rfl fun hverified =>
      nomatch hverified
    exact (commit_spec e hx hnext).mono fun _ _ h => h.1
  | some result =>
    obtain ⟨v, settlement⟩ := result
    obtain ⟨early, mid, given, hlog, hverified⟩ := hresult v settlement rfl
    have hbinding := (state_ok.mp (hx.knows s hcurrent)).2.2.1
    unfold conclude
    dsimp only
    rw [ends_bind]
    refine (now_quiet still_quiet observed _ _ x).mono fun r y hy => ?_
    have hkept := kept_of_still hy hx
    cases r with
    | error f => exact hkept
    | ok at' =>
      dsimp only
      have hnext : Proposable who y (verified s v settlement at') := by
        refine outcome_proposable hkept.ok (hy.owner.current.trans hcurrent) hphase
          (.inr rfl) rfl rfl rfl rfl fun _ => ?_
        refine .intro x.owner.setup.payment (hy.index ▸ hx.captured) ?_ early mid
          [] s given v settlement ?_ rfl rfl hverified rfl rfl
        · change s.binding = x.owner.setup.payment.binding s.binding.maximumVerificationAttempts
          rw [hbinding]
          rfl
        · rw [hy.log, hy.index]
          exact hlog
      exact (commit_spec e hkept.ok hnext).mono fun _ _ h => hkept.trans h.1

attribute [local irreducible] outcome conclude

theorem resume_spec (record : Option Value) (observed : Answer) (e : Exchange) (clock : Answer)
    (hx : Ok who x) (hrests : x.owner.Rests x.index x.log) :
    Ends (resume record observed e clock) x fun _ y => Done who x y := by
  unfold resume
  rw [ends_finallyDo, ends_get]
  refine ends_orFail.mpr ⟨fun hnone => ?_, fun s hactive => ?_⟩
  · have hidle : Still x (x.alter Owner.idle) := ⟨rfl, rfl, rfl, ⟨rfl, rfl, rfl, hnone.symm⟩⟩
    exact done_of_still hidle hx hrests
  · obtain ⟨hcurrent, hphase⟩ := hrests.pending s hactive
    have hidle {y : Desk (Owner w) Deed} (h : Kept who x y) : Done who x (y.alter Owner.idle) := by
      refine ⟨⟨h.ok.ledger, h.ok.knows, h.ok.captured⟩, h.index, h.log, ⟨fun hfresh => ?_,
        fun s hs => (nomatch (show none = some s from hs)),
        fun s _ hs => (nomatch (show none = some s from hs))⟩⟩
      have hnone := hrests.fresh (h.recovered.symm.trans hfresh)
      rw [hcurrent] at hnone
      cases hnone
    rw [ends_bind]
    refine (outcome_spec s record hx fun raw hraw => hrests.called s raw hactive hraw).mono
      fun r y h => ?_
    obtain ⟨hkept, howner, hresult⟩ := h
    cases r with
    | error f => exact hidle hkept
    | ok result =>
      dsimp only
      rw [ends_ite]
      refine ⟨fun _ => (hold_quiet still_quiet _ _).mono fun _ z hz => hidle
        (hkept.trans (kept_of_still hz.1 hkept.ok)), fun _ => ?_⟩
      rw [ends_bind]
      have hcurrent' : y.owner.current = some s := by
        rw [howner]
        exact hcurrent
      refine (conclude_spec observed e hkept.ok hcurrent' hphase fun v settlement hv => ?_).mono
        fun r z hz => ?_
      · rw [hkept.index, howner]
        exact hresult v settlement (congrArg Except.ok hv)
      · cases r with
        | error f => exact hidle (hkept.trans hz)
        | ok s' =>
          have hkept' := hkept.trans hz
          exact (view_spec s' clock z).mono fun _ t ht =>
            hidle (hkept'.trans (kept_of_still ht hz.ok))

theorem inspect_spec (clock : Answer) (hx : Ok who x) (hrests : x.owner.Rests x.index x.log) :
    Ends (inspect clock) x fun _ y => Done who x y := by
  have hsame := done_of_still (still_quiet.refl x) hx hrests
  unfold inspect
  rw [ends_bind]
  refine (start_spec true x).mono fun r y h => ?_
  obtain ⟨rfl, -⟩ := h
  cases r with
  | error f => exact hsame
  | ok u =>
    rw [ends_get]
    refine ends_orFail.mpr ⟨fun _ => hsame, fun s _ => ?_⟩
    exact (view_spec s clock y).mono fun _ _ h => done_of_still h hx hrests

/-- Every turn of an owner at rest ends with the owner at rest. -/
theorem turn_spec (t : Turn) (hx : Ok who x) (hrests : x.owner.Rests x.index x.log) :
    Done who x (t.run x) := by
  cases t with
  | recover loaded e clock => exact recover_spec loaded e clock hx hrests
  | verifyFunding candidateJson e clock crashes =>
      exact verifyFunding_spec candidateJson e clock crashes hx hrests
  | resume record observed e clock => exact resume_spec record observed e clock hx hrests
  | inspect clock => exact inspect_spec clock hx hrests
  | close => exact done_of_still ⟨rfl, rfl, rfl, ⟨rfl, rfl, rfl, rfl⟩⟩ hx hrests

/-! ### Any number of owners -/

/-- The payment that an owner has captured when it was created. -/
def captured (events : List (Js.Event (Setup w) Turn)) (index : Nat) : Option (OrderPayment w) :=
  (setups events)[index]?.map Setup.payment

def AtRest (who : Nat → Option (OrderPayment w)) (o : Owner w) (index : Nat)
    (log : List Deed) : Prop :=
  o.Knows ∧ who index = some o.setup.payment ∧ o.Rests index log

theorem create_rests {setup : Setup w} {index : Nat} (log : List Deed)
    (hcaptured : who index = some setup.payment) :
    AtRest who (Owner.create setup) index log :=
  ⟨fun s hs => (nomatch (show none = some s from hs)), hcaptured, fun _ => rfl,
    fun s hs => (nomatch (show none = some s from hs)),
    fun s _ hs => (nomatch (show none = some s from hs))⟩

theorem run_ok (events : List (Js.Event (Setup w) Turn)) :
    (System.initial.run (practice w) events).Ok (Ledger (captured events))
    (AtRest (captured events)) := by
  refine System.run_ok (fun o index log log' hlog h =>
    ⟨h.1, h.2.1, h.2.2.same (Owner.same_quiet.refl o) hlog⟩)
    (fun t x hledger hrests => ?_) events (System.initial_ok Ledger.initial)
    fun i setup log hi => ?_
  · obtain ⟨hok, hindex, hlog, hrests⟩ := turn_spec t ⟨hledger, hrests.1, hrests.2.1⟩ hrests.2.2
    exact ⟨hok.ledger, hindex, hlog, hok.knows, hok.captured, hrests⟩
  · refine create_rests log ?_
    rw [show System.initial.owners.length + i = i from Nat.zero_add i, captured, hi]
    rfl

/-- Any number of owners on one store, in any order and whatever gets lost: the verifier is called
at most as often as the receipt allows, each time for the stored receipt, which counts more attempts
than at every call before; a candidate stays until it is rejected; only an owner to whom the
verifier gave a record for the candidate, with the payment that this owner has captured, stores it
as verified, and then it stays; and the contract accepts whatever an owner proposes. -/
theorem bounded_pinned_verification (events : List (Js.Event (Setup w) Turn)) :
    let σ := System.initial.run (practice w) events
    σ.stored = (keeping w).value (tip σ.log)
      ∧ (∀ (pre : List Deed) (index : Nat) (s : Receipt) (post : List Deed), σ.log = pre
        ++ .called index s :: post →
        ((calls σ.log).length : Int) ≤ s.binding.maximumVerificationAttempts.1 ∧ tip pre = some s
          ∧ s.phase = .VERIFYING
          ∧ ∀ c ∈ calls pre, c.attempts.1 < s.attempts.1)
      ∧ (∀ (pre : List Deed) (index : Nat) (a : Option Receipt) (b : Receipt) (post : List Deed),
        σ.log = pre ++ .proposed index a b true :: post → tip pre = a
        ∧ (∀ s, a = some s → s.phase ≠ .VERIFIED
          ∧ (s.phase = .VERIFYING → b.candidateJson = s.candidateJson))
        ∧ (b.phase = .VERIFIED → Earned (captured events) pre index b))
      ∧ ∀ (index : Nat) (a : Option Receipt) (b : Receipt) (stored : Bool),
        .proposed index a b stored ∈ σ.log →
        receiptTransition w (a.map Receipt.text) (some b.text) = .ok () := by
  intro σ
  have hok : σ.Ok (Ledger (captured events)) (AtRest (captured events)) := run_ok events
  refine ⟨hok.ledger.stored, ?_, ?_, ?_⟩
  · intro pre index s post hlog
    have hcall : s ∈ calls σ.log := by
      rw [hlog]
      simp [calls, Deed.pending?]
    -- the log is lawful at every place, so what held when the call was made is there
    cases hok.ledger.lawful pre _ post hlog with
    | called hstored hphase hfresh => exact ⟨hok.ledger.calls_le hcall, hstored, hphase, hfresh⟩
  · intro pre index a b post hlog
    cases hok.ledger.lawful pre _ post hlog with
    | proposed haccepted hstored hearned =>
      refine ⟨hstored rfl, fun s hs => ?_, hearned⟩
      subst hs
      cases haccepted with
      | next _ _ _ hunverified hfollows =>
        refine ⟨hunverified, fun hverifying => ?_⟩
        -- another attempt is made on the pinned candidate, and an outcome keeps it
        cases hfollows with
        | attempt _ _ _ hpinned => exact (hpinned hverifying).symm
        | outcome _ _ _ hcandidate _ => exact hcandidate.symm
  · intro index a b stored hmem
    obtain ⟨pre, post, hlog⟩ := List.append_of_mem hmem
    cases hok.ledger.lawful pre _ post hlog with
    | proposed haccepted _ _ => exact receiptTransition_of_accepted haccepted

end Funding
end Order
end ZenonX402
