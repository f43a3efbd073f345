/-
# What one call asks and how it ends

From a controller at rest a call asks what `Asks` allows: it reads a snapshot
until there is one to claim, claims once, and hands in a write at the revision
it tracks. It goes on after an answer only if the answer is one it expects
(`Expected`); after any other it holds. The revision it tracks changes with an
acknowledgement only (`Tracks`).

Key definitions: `Query.mutation`, `Answer.applied`, `Acknowledges`, `Expected`, `Resting`,
`Tracks`, `Asks`, `Finishes`.
Key theorems: `holds_read`, `holds_current`, `call_holds`, `assertCurrent_holds`.
-/
import ZenonX402.Revision.Owner

namespace ZenonX402
namespace Revision

open Js Port

/-! ### Questions and answers -/

/-- The revision at which the store is asked to write. -/
def Query.mutation : Query → Option Nat
  | .claim expectedRevision => some expectedRevision
  | .invoke name _ expectedRevision => if name ∈ WRITERS then expectedRevision else none
  | _ => none

/-- The revision that an answer says was written. -/
def Answer.applied (a : Answer) : Option Nat := match a.outcome with
  | .ok value => match acknowledged value with
    | some (disposition, next) => if disposition.strictEq (.str "APPLIED") then some next else none
    | none => none
  | .error _ => none

/-- An exact acknowledgement, APPLIED at the next revision or UNCHANGED at the one that is tracked.
-/
def Acknowledges (q : Query) (o : Owner) (a : Answer) : Prop :=
  a.invariant = true ∧ ∃ value, a.outcome = .ok value
  ∧ match q with
    | .claim e => claimed value = some (e + 1)
    | .invoke name _ _ => name ∈ WRITERS ∧ ∃ disposition t next, acknowledged value
        = some (disposition, next)
      ∧ o.tracked = some t ∧ (disposition.strictEq (.str "APPLIED") = true ∧ next = t + 1
        ∨ disposition.strictEq (.str "APPLIED") = false ∧ disposition.strictEq (.str "UNCHANGED")
        = true ∧ next = t)
    | _ => False

/-- A snapshot that is read at the revision that is tracked. -/
def MatchesCurrent (q : Query) (o : Owner) (a : Answer) : Prop :=
  q = .readSnapshot ∧ a.invariant = true
  ∧ ∃ raw r, a.outcome = .ok raw ∧ snapshot raw = some r ∧ o.tracked = some r.revision
  ∧ r.initialized = true

/-- The store throws, or what it threw is recognized as a refusal. -/
def Refuses (q : Query) (a : Answer) : Prop := match q with
  | .invoke _ _ _ => ∃ error, a.outcome = .error error
  | .knownRefusal _ => ∃ known, a.outcome = .ok known ∧ known.value.strictEq (.bool true) = true
  | _ => False

/-- A snapshot that is read before there is a claim. -/
def Surveys (q : Query) (o : Owner) (a : Answer) : Prop :=
  q = .readSnapshot ∧ o.tracked = none ∧ a.invariant = true
  ∧ ∃ raw r, a.outcome = .ok raw ∧ snapshot raw = some r
    ∧ (r.initialized = true → r.revision ≠ 9007199254740991)

/-- A request that is read. -/
def Delivers (q : Query) (a : Answer) : Prop := match q with
  | .invoke name _ _ => name ∉ WRITERS ∧ a.invariant = true ∧ ∃ value, a.outcome = .ok value
    ∧ (value.value.strictEq .null = true ∨ value.isObject = true)
  | _ => False

/-- The answers that the controller goes on after. -/
def Expected (q : Query) (o : Owner) (a : Answer) : Prop :=
  Acknowledges q o a ∨ MatchesCurrent q o a ∨ Refuses q a ∨ Surveys q o a ∨ Delivers q a

/-! ### The states of a controller -/

/-- The controller, held. -/
def Owner.hold (o : Owner) (n : Nat) : Owner := { o with held := true, retained := n }

/-- While the controller waits, a call that comes back to it makes it hold. -/
def Rely (o o' : Owner) : Prop := o' = o ∨ ∃ n, o' = o.hold n

/-- The controller has made no claim. -/
def Owner.Unclaimed (o : Owner) : Prop := o.claimed = false ∧ o.tracked = none ∧ o.claims = 0

/-- The controller has made its claim. -/
def Owner.Tracking (o : Owner) : Prop := o.tracked.isSome = true ∧ o.claims = 1

/-- Between two calls. -/
structure Owner.Resting (o : Owner) : Prop where
  idle : o.busy = false
  claims : o.claims ≤ 1
  phase : o.held = true ∨ o.Unclaimed ∨ o.claimed = true ∧ o.Tracking

/-- What the controller waits for. -/
def Owner.Waiting (o : Owner) : Query → Prop
  | .readSnapshot => o.Unclaimed ∨ o.Tracking
  | .claim _ => o.claimed = false ∧ o.tracked = none ∧ o.claims = 1
  | .invoke name _ expectedRevision => o.Tracking ∧ (name ∈ WRITERS → expectedRevision = o.tracked)
  | .knownRefusal _ => o.Tracking

abbrev Last : Type := Since Query Answer Owner

/-- The revision that is tracked has changed, if at all, with an acknowledgement of the next one. -/
def Tracks (l : Last) (o : Owner) : Prop := o.tracked = l.1.tracked ∨ ∃ q a e, l.2 = some (q, a)
  ∧ q.mutation = some e ∧ a.applied = some (e + 1) ∧ o.tracked = some (e + 1)
  ∧ (l.1.tracked = none ∨ l.1.tracked = some e)

/-- When the controller asks. -/
structure Asks (l : Last) (q : Query) (o : Owner) : Prop where
  busy : o.busy = true
  waiting : o.Waiting q
  tracks : Tracks l o
  expected : ∀ q a, l.2 = some (q, a) → Expected q l.1 a

/-- When the controller is done. -/
structure Finishes (l : Last) (o : Owner) : Prop where
  resting : o.Resting
  tracks : Tracks l o
  heeds : ∀ q a, l.2 = some (q, a) → ¬ Expected q l.1 a → o.held = true

theorem hold_of_held {o : Owner} (h : o.held = true) : o.hold o.retained = o := by
  obtain ⟨_, _, _, _, _, _, _, _, _, _⟩ := o
  obtain rfl := h
  rfl

theorem Rely.same {o o' : Owner} (h : Rely o o') :
    o'.tracked = o.tracked ∧ o'.claims = o.claims ∧ o'.claimed = o.claimed ∧ o'.busy = o.busy := by
  rcases h with rfl | ⟨n, rfl⟩
  · exact ⟨rfl, rfl, rfl, rfl⟩
  · exact ⟨rfl, rfl, rfl, rfl⟩

theorem Rely.tracking {o o' : Owner} (h : Rely o o') (ho : o.Tracking) : o'.Tracking := by
  obtain ⟨htracked, hclaims, -, -⟩ := h.same
  unfold Owner.Tracking
  rw [htracked, hclaims]
  exact ho

theorem Rely.unclaimed {o o' : Owner} (h : Rely o o') (ho : o.Unclaimed) : o'.Unclaimed := by
  obtain ⟨htracked, hclaims, hclaimed, -⟩ := h.same
  unfold Owner.Unclaimed
  rw [htracked, hclaims, hclaimed]
  exact ho

/-- Whoever holds is done. -/
theorem finishes_hold {l : Last} {o : Owner} {n : Nat} (htracks : Tracks l o)
    (hclaims : o.claims ≤ 1) :
    Finishes l (o.hold n).idle :=
  ⟨⟨rfl, hclaims, .inl rfl⟩, htracks, fun _ _ _ _ => rfl⟩

/-! ### The statements of the program -/

section

variable {α β : Type} {Ends : Last → Except Thrown α → Owner → Prop} {l : Last} {o : Owner}
  {Asks : Last → Query → Owner → Prop}

theorem holds_hold {v : Option Given} (h : ∀ n, Ends l (.error .owner) (o.hold n)) :
    (hold v : Port α).Holds Rely Asks Ends l o := h _

theorem holds_holdIf {c : Prop} [Decidable c] {v : Option Given} {f : Unit → Port α}
    (hhold : c → ∀ n, Ends l (.error .owner) (o.hold n))
    (h : ¬ c → (f ()).Holds Rely Asks Ends l o) :
    (holdIf c v >>= f).Holds Rely Asks Ends l o := by
  by_cases hc : c
  · rw [holdIf, if_pos hc]
    exact hhold hc _
  · rw [holdIf, if_neg hc]
    exact h hc

theorem holds_holdIf_last {c : Prop} [Decidable c] {v : Option Given}
    {Ends : Last → Except Thrown Unit → Owner → Prop}
    (hhold : c → ∀ n, Ends l (.error .owner) (o.hold n)) (h : ¬ c → Ends l (.ok ()) o) :
    (holdIf c v).Holds Rely Asks Ends l o := by
  by_cases hc : c
  · rw [holdIf, if_pos hc]
    exact hhold hc _
  · rw [holdIf, if_neg hc]
    exact h hc

theorem holds_unlessHeld {f : Unit → Port α} (hhold : ∀ n, Ends l (.error .owner) (o.hold n))
    (h : o.held = false → (f ()).Holds Rely Asks Ends l o) :
    (unlessHeld >>= f).Holds Rely Asks Ends l o := by
  show ((if o.held = true then fail else pure () : Port Unit) >>= f).Holds Rely Asks Ends l o
  by_cases hheld : o.held = true
  · rw [if_pos hheld]
    have hsame := hhold o.retained
    rwa [hold_of_held hheld] at hsame
  · rw [if_neg hheld]
    exact h (Bool.not_eq_true _ ▸ hheld)

theorem holds_unchanged {a : Answer} {f : Unit → Port α}
    (hhold : ∀ n, Ends l (.error .owner) (o.hold n))
    (h : a.invariant = true → (f ()).Holds Rely Asks Ends l o) :
    (unchanged a >>= f).Holds Rely Asks Ends l o :=
  holds_holdIf (fun _ => hhold) fun hc => h (Bool.not_eq_false _ ▸ hc)

/-- A read fails and holds, or gives a snapshot. -/
theorem holds_read {f : Snapshot → Port α}
    (hask : Asks l .readSnapshot { o with reads := o.reads + 1 })
    (hfail : ∀ o' a n, Rely { o with reads := o.reads + 1 } o' →
      Ends (o', some (.readSnapshot, a)) (.error .owner) (o'.hold n))
    (h : ∀ o' a raw r, Rely { o with reads := o.reads + 1 } o' → a.outcome = .ok raw →
      snapshot raw = some r →
      a.invariant = true → (f r).Holds Rely Asks Ends (o', some (.readSnapshot, a)) o') :
    (read >>= f).Holds Rely Asks Ends l o := by
  rw [Caller.holds_bind]
  unfold Port.read
  rw [Caller.holds_modify, Caller.holds_ask]
  refine ⟨hask, fun o' a hrely => ?_⟩
  have hfail' := fun n => hfail o' a n hrely
  cases houtcome : a.outcome with
  | error error => exact holds_hold hfail'
  | ok raw =>
    simp only
    cases hsnapshot : snapshot raw with
    | none => exact holds_hold hfail'
    | some r =>
      exact holds_unlessHeld hfail' fun _ =>
        holds_unchanged hfail' (h o' a raw r hrely houtcome hsnapshot)

/-- A current read fails and holds, or gives a snapshot at the revision that is tracked. -/
theorem holds_current {f : Snapshot → Port α}
    (hask : Asks l .readSnapshot { o with reads := o.reads + 1 })
    (hfail : ∀ o' a n, Rely { o with reads := o.reads + 1 } o' →
      Ends (o', some (.readSnapshot, a)) (.error .owner) (o'.hold n))
    (h : ∀ o' a r, Rely { o with reads := o.reads + 1 } o' → MatchesCurrent .readSnapshot o' a →
      (f r).Holds Rely Asks Ends (o', some (.readSnapshot, a)) o') :
    (current >>= f).Holds Rely Asks Ends l o := by
  rw [Caller.holds_bind]
  refine holds_read hask hfail fun o' a raw r hrely houtcome hsnapshot hinvariant => ?_
  rw [Caller.holds_get]
  refine holds_holdIf (fun _ n => hfail o' a n hrely) fun hmatch => ?_
  obtain ⟨hrevision, hinitialized⟩ := not_or.mp hmatch
  exact h o' a r hrely ⟨rfl, hinvariant, raw, r, houtcome, hsnapshot, (not_not.mp hrevision).symm,
    Bool.not_eq_false _ ▸ hinitialized⟩

/-- What a call checks first, of a controller that is held or busy. -/
theorem holds_live {invariant : Bool} {f : Unit → Port α} (hshut : o.held = true ∨ o.busy = true)
    (hheld : o.held = true → Ends l (.error .owner) o)
    (hbusy : o.held = false → ∀ n, Ends l (.error .owner) (o.hold n)) :
    (live invariant >>= f).Holds Rely Asks Ends l o := by
  rw [Caller.holds_bind]
  show ((if o.held = true then fail else pure () : Port Unit) >>= fun _ => _).Holds _ _ _ _ _
  by_cases hc : o.held = true
  · rw [if_pos hc]
    exact hheld hc
  · rw [if_neg hc]
    refine holds_holdIf_last (fun _ => hbusy (Bool.not_eq_true _ ▸ hc)) fun hnot => ?_
    exact absurd (.inl (hshut.resolve_left hc)) hnot

end

/-! ### The procedures -/

/-- The end of a call that has set the controller busy. -/
def Done {α : Type} (l : Last) (_ : Except Thrown α) (o : Owner) : Prop := Finishes l o.idle

section

variable {α : Type} {l : Last} {o : Owner}

theorem Owner.Tracking.le (h : o.Tracking) : o.claims ≤ 1 := h.2.le

theorem Owner.Resting.tracking (h : o.Resting) (hheld : o.held = false)
    (hclaimed : o.claimed = true) :
    o.Tracking := by
  rcases h.phase with h | h | h
  · exact absurd (h.symm.trans hheld) nofun
  · exact absurd (h.1.symm.trans hclaimed) nofun
  · exact h.2

theorem Owner.Resting.unclaimed (h : o.Resting) (hheld : o.held = false)
    (hclaimed : ¬ o.claimed = true) :
    o.Unclaimed := by
  rcases h.phase with h | h | h
  · exact absurd (h.symm.trans hheld) nofun
  · exact h
  · exact absurd h.1 hclaimed

/-- A current read is asked for. -/
theorem asks_current (hbusy : o.busy = true) (htracking : o.Tracking) (htracks : Tracks l o)
    (hexpected : ∀ q a, l.2 = some (q, a) → Expected q l.1 a) :
    Asks l .readSnapshot { o with reads := o.reads + 1 } :=
  ⟨hbusy, .inr htracking, htracks, hexpected⟩

theorem expected_last {q : Query} {a : Answer} (h : Expected q o a) :
    ∀ q' a', (o, some (q, a)).2 = some (q', a') → Expected q' o a' := by
  intro q' a' hlast
  obtain ⟨rfl, rfl⟩ := Prod.mk.inj (Option.some.inj hlast)
  exact h

/-- A controller that has claimed is done after an answer that it expects. -/
theorem finishes_tracking {q : Query} {a : Answer} {o' : Owner} (hexpected : Expected q o a)
    (hclaimed : o'.claimed = true) (htracking : o'.Tracking)
    (htracks : Tracks (o, some (q, a)) o') :
    Finishes (o, some (q, a)) o'.idle :=
  ⟨⟨rfl, htracking.le, .inr (.inr ⟨hclaimed, htracking⟩)⟩, htracks,
    fun q' a' hlast hnot => absurd (expected_last hexpected q' a' hlast) hnot⟩

/-- The last statements of a call, after which there is a current read, and what it gives if that
matches. -/
theorem current_last {f : Snapshot → Port α} {g : Owner → Owner}
    (hbusy : o.busy = true) (hclaimed : o.claimed = true) (htracking : o.Tracking)
    (htracks : Tracks l o) (hexpected : ∀ q a, l.2 = some (q, a) → Expected q l.1 a)
    (hf : ∀ l s o, Finishes l (g o).idle → (f s).Holds Rely Asks Done l o)
    (hg : ∀ o, (g o).claimed = o.claimed ∧ (g o).tracked = o.tracked ∧ (g o).claims = o.claims) :
    (current >>= f).Holds Rely Asks Done l o := by
  refine holds_current (asks_current hbusy htracking htracks hexpected) (fun o' a n hrely => ?_)
    fun o' a s hrely hmatch => ?_
  · exact finishes_hold (.inl rfl) (hrely.tracking htracking).le
  · obtain ⟨hclaimed', htracked', hclaims'⟩ := hg o'
    have htracking' : (g o').Tracking := by
      unfold Owner.Tracking
      rw [htracked', hclaims']
      exact hrely.tracking htracking
    refine hf _ s o' (finishes_tracking (.inr (.inl hmatch)) ?_ htracking' (.inl htracked'))
    rw [hclaimed', hrely.same.2.2.1]
    exact hclaimed

theorem refused_holds {error : Given} (hbusy : o.busy = true) (hclaimed : o.claimed = true)
    (htracking : o.Tracking) (htracks : Tracks l o)
    (hexpected : ∀ q a, l.2 = some (q, a) → Expected q l.1 a) :
    (refused error).Holds Rely Asks Done l o := by
  unfold refused
  refine holds_unlessHeld (fun n => ?_) fun _ => ?_
  · exact finishes_hold htracks htracking.le
  · rw [Caller.holds_ask]
    refine ⟨⟨hbusy, htracking, htracks, hexpected⟩, fun o' a hrely => ?_⟩
    have htracking' := hrely.tracking htracking
    have hfail (n : Nat) : Finishes (o', some (.knownRefusal error, a)) (o'.hold n).idle :=
      finishes_hold (.inl rfl) htracking'.le
    cases houtcome : a.outcome with
    | error other => exact holds_hold hfail
    | ok known =>
      simp only
      rw [Caller.holds_ite]
      refine ⟨fun _ => holds_hold hfail, fun hknown => ?_⟩
      have hrefuses : Expected (.knownRefusal error) o' a :=
        .inr (.inr (.inl ⟨known, houtcome, Bool.not_eq_false _ ▸ hknown⟩))
      exact current_last (hrely.same.2.2.2.trans hbusy) (hrely.same.2.2.1.trans hclaimed)
        htracking' (.inl rfl)
        (expected_last hrefuses) (fun _ _ _ h => h) fun _ => ⟨rfl, rfl, rfl⟩

/-- A writer's answer. -/
theorem acknowledge_holds {name : String} {selected : Option Value} {e : Option Nat} {a : Answer}
    {value : Given} (houtcome : a.outcome = .ok value) (hinvariant : a.invariant = true)
    (hclaimed : o.claimed = true) (htracking : o.Tracking) (hwriter : name ∈ WRITERS)
    (he : e = o.tracked) :
    (acknowledge value).Holds Rely Asks Done (o, some (.invoke name selected e, a)) o := by
  obtain ⟨t, ht⟩ := Option.isSome_iff_exists.mp htracking.1
  have hfail (n : Nat) : Finishes (o, some (.invoke name selected e, a)) (o.hold n).idle :=
    finishes_hold (.inl rfl) htracking.le
  unfold acknowledge
  rw [Caller.holds_get]
  cases hack : acknowledged value with
  | none => exact holds_hold hfail
  | some p =>
    obtain ⟨disposition, next⟩ := p
    simp only
    rw [Caller.holds_ite, Caller.holds_ite, Caller.holds_ite]
    refine ⟨fun happlied => ⟨fun _ => holds_hold hfail, fun hnext => ?_⟩,
      fun happlied => ⟨fun _ => holds_hold hfail, fun hnext => ?_⟩⟩
    · have hsucc : next = t + 1 := by
        have := not_not.mp (not_or.mp hnext).2
        rw [ht] at this
        exact Option.some.inj this
      subst hsucc
      have hexpected : Expected (.invoke name selected e) o a :=
        .inl ⟨hinvariant, value, houtcome, hwriter, disposition, t, t + 1, hack, ht,
          .inl ⟨happlied, rfl⟩⟩
      refine finishes_tracking hexpected hclaimed ⟨rfl, htracking.2⟩
        (.inr ⟨_, _, t, rfl, ?_, ?_, rfl, .inr ht⟩)
      · rw [Query.mutation, if_pos hwriter, he, ht]
      · simp only [Answer.applied, houtcome, hack, happlied, if_true]
    · obtain ⟨hunchanged, hsame⟩ := not_or.mp hnext
      have hsame : next = t := by
        have := not_not.mp hsame
        rw [ht] at this
        exact Option.some.inj this
      have hexpected : Expected (.invoke name selected e) o a :=
        .inl ⟨hinvariant, value, houtcome, hwriter, disposition, t, next, hack, ht,
          .inr ⟨Bool.not_eq_true _ ▸ happlied, Bool.not_eq_false _ ▸ hunchanged, hsame⟩⟩
      exact finishes_tracking hexpected hclaimed htracking (.inl rfl)

theorem returned_holds {name : String} {selected : Option Value} {e : Option Nat} {a : Answer}
    {value : Given} (houtcome : a.outcome = .ok value) (hbusy : o.busy = true)
    (hclaimed : o.claimed = true) (htracking : o.Tracking) (he : name ∈ WRITERS → e = o.tracked) :
    (returned name a value).Holds Rely Asks Done (o, some (.invoke name selected e, a)) o := by
  have hfail (n : Nat) : Finishes (o, some (.invoke name selected e, a)) (o.hold n).idle :=
    finishes_hold (.inl rfl) htracking.le
  unfold returned
  refine holds_unlessHeld hfail fun _ => holds_unchanged hfail fun hinvariant => ?_
  rw [Caller.holds_ite]
  refine ⟨fun hwriter => ?_, fun hreader => ?_⟩
  · rw [Caller.holds_bind]
    refine Talk.Holds.mono
      (acknowledge_holds houtcome hinvariant hclaimed htracking hwriter (he hwriter)) ?_
    intro l r o hdone
    cases r with
    | ok => exact hdone
    | error => exact hdone
  · refine holds_holdIf (fun _ => hfail) fun hobject => ?_
    have hdelivers : Expected (.invoke name selected e) o a := by
      refine .inr (.inr (.inr (.inr ⟨hreader, hinvariant, value, houtcome, ?_⟩)))
      rwa [not_and_or, Bool.not_eq_false, Bool.not_eq_false] at hobject
    exact current_last hbusy hclaimed htracking (.inl rfl) (expected_last hdelivers)
      (fun _ _ _ h => h)
      fun _ => ⟨rfl, rfl, rfl⟩

theorem handOn_holds {name : String} {selected : Option Value} {e : Option Nat}
    (hbusy : o.busy = true) (hclaimed : o.claimed = true) (htracking : o.Tracking)
    (htracks : Tracks l o) (hexpected : ∀ q a, l.2 = some (q, a) → Expected q l.1 a)
    (he : name ∈ WRITERS → e = o.tracked) :
    (handOn name selected e).Holds Rely Asks Done l o := by
  unfold handOn
  rw [Caller.holds_modify, Caller.holds_ask]
  refine ⟨⟨hbusy, ⟨htracking, he⟩, htracks, hexpected⟩, fun o' a hrely => ?_⟩
  obtain ⟨htracked', -, hclaimed', hbusy'⟩ := hrely.same
  have htracking' := hrely.tracking htracking
  cases houtcome : a.outcome with
  | error error =>
    have hrefuses : Expected (.invoke name selected e) o' a := .inr (.inr (.inl ⟨error, houtcome⟩))
    exact refused_holds (hbusy'.trans hbusy) (hclaimed'.trans hclaimed) htracking' (.inl rfl)
      (expected_last hrefuses)
  | ok value =>
    exact returned_holds houtcome (hbusy'.trans hbusy) (hclaimed'.trans hclaimed) htracking'
      fun hwriter =>
      (he hwriter).trans htracked'.symm

theorem invoke_holds {name : String} {selected : Option Value} {e : Option Nat} {o₀ : Owner}
    (hrest : o₀.Resting) (hheld : o₀.held = false) :
    (invoke name selected e).Holds Rely Asks Done (o₀, none) { o₀ with busy := true } := by
  unfold invoke
  rw [Caller.holds_get]
  have hclaims : o₀.claims ≤ 1 := hrest.claims
  refine holds_holdIf (fun _ n => finishes_hold (.inl rfl) hclaims) fun hclaimed => ?_
  have hclaimed : o₀.claimed = true := Bool.not_eq_false _ ▸ hclaimed
  have htracking := hrest.tracking hheld hclaimed
  have hnone : ∀ q a, ((o₀, none) : Last).2 = some (q, a) → Expected q o₀ a := nofun
  unfold before
  rw [Caller.holds_bind, Caller.holds_get, Caller.holds_ite]
  refine ⟨fun _ => ?_, fun hreader => ?_⟩
  · refine holds_holdIf_last (fun _ n => finishes_hold (.inl rfl) hclaims) fun hsame => ?_
    exact handOn_holds rfl hclaimed htracking (.inl rfl) hnone fun _ => not_not.mp hsame
  · refine holds_current (asks_current rfl htracking (.inl rfl) hnone) (fun o' a n hrely => ?_)
      fun o' a s hrely hmatch => ?_
    · exact finishes_hold (.inl rfl) (hrely.tracking htracking).le
    · obtain ⟨-, -, hclaimed', hbusy'⟩ := hrely.same
      exact handOn_holds hbusy' (hclaimed'.trans hclaimed) (hrely.tracking htracking) (.inl rfl)
        (expected_last (.inr (.inl hmatch))) fun hwriter => absurd hwriter hreader

/-- A field that is read with others is read by itself. -/
theorem own_of_fields {raw : Given} {names : List String} {r : String → Value}
    (h : raw.fields names = some r) :
    ∀ k ∈ names, raw.own k = some (r k) := by
  intro k hk
  obtain ⟨hfrozen, h⟩ := Option.ite_none_right_eq_some.mp h
  obtain ⟨⟨order, get⟩, hfields, rfl⟩ := Option.map_eq_some_iff.mp h
  cases hvalue : raw.value with
  | obj gs =>
    rw [hvalue] at hfields
    simp only [Js.fields, Option.dite_none_right_eq_some, Option.some.injEq,
      Prod.mk.injEq] at hfields
    obtain ⟨hperm, -, rfl⟩ := hfields
    have hmem : k ∈ gs.map Prod.fst := hperm.mem_iff.mpr hk
    obtain ⟨v, hv⟩ : ∃ v, gs.lookup k = some v := by
      cases hlookup : gs.lookup k with
      | some v => exact ⟨v, rfl⟩
      | none =>
        obtain ⟨f, hf, rfl⟩ := List.mem_map.mp hmem
        exact absurd (List.lookup_eq_none_iff.mp hlookup f hf) (by simp)
    simp only [Given.own, hvalue, hfrozen, if_true, hv, Option.getD_some]
  | _ =>
    rw [hvalue] at hfields
    simp [Js.fields] at hfields

theorem claimed_applied {a : Answer} {raw : Given} {next : Nat} (houtcome : a.outcome = .ok raw)
    (h : claimed raw = some next) : a.applied = some next := by
  unfold claimed at h
  obtain ⟨r, hr, h⟩ := Option.bind_eq_some_iff.mp h
  obtain ⟨n, hn, h⟩ := Option.bind_eq_some_iff.mp h
  obtain ⟨⟨hdisposition, _⟩, hsame⟩ := Option.ite_none_right_eq_some.mp h
  obtain rfl := Option.some.inj hsame
  have hown := own_of_fields hr
  have hack : acknowledged raw = some (r "disposition", n) := by
    unfold acknowledged
    rw [hown "disposition" (by decide), hown "revision" (by decide)]
    simp [hn]
  simp only [Answer.applied, houtcome, hack, hdisposition, if_true]

/-- What follows when a controller that has claimed nothing asks for the snapshot. -/
theorem initial_holds {f : Snapshot → Port α} {o₀ : Owner} (hunclaimed : o₀.Unclaimed)
    (hf : ∀ l s o, Finishes l o.idle → (f s).Holds Rely Asks Done l o) :
    (initial >>= f).Holds Rely Asks Done (o₀, none) { o₀ with busy := true } := by
  rw [Caller.holds_bind]
  unfold initial
  have hnone : ∀ q a, ((o₀, none) : Last).2 = some (q, a) → Expected q o₀ a := nofun
  refine holds_read ⟨rfl, .inl hunclaimed, .inl rfl, hnone⟩ (fun o a n hrely => ?_)
    fun o a raw before hrely houtcome hsnapshot hinvariant => ?_
  · exact finishes_hold (.inl rfl) ((hrely.same.2.1.trans hunclaimed.2.2).trans_le (Nat.zero_le 1))
  have hunclaimed := hrely.unclaimed hunclaimed
  have hbusy : o.busy = true := hrely.same.2.2.2
  have hclaims : o.claims ≤ 1 := hunclaimed.2.2.trans_le (Nat.zero_le 1)
  have hexpected (h : before.initialized = true → before.revision ≠ 9007199254740991) :
      Expected .readSnapshot o a :=
    .inr (.inr (.inr (.inl ⟨rfl, hunclaimed.2.1, hinvariant, raw, before, houtcome, hsnapshot, h⟩)))
  rw [Caller.holds_ite]
  refine ⟨fun huninitialized => ?_, fun _ => ?_⟩
  · have hexpected := hexpected fun hinitialized =>
      absurd (hinitialized.symm.trans huninitialized) nofun
    exact hf _ before o ⟨⟨rfl, hclaims, .inr (.inl hunclaimed)⟩, .inl rfl,
      fun q' a' hlast hnot => absurd (expected_last hexpected q' a' hlast) hnot⟩
  refine holds_holdIf (fun _ n => finishes_hold (.inl rfl) hclaims) fun hmax => ?_
  have hexpected := hexpected fun _ => hmax
  rw [Caller.holds_modify, Caller.holds_ask]
  have hone : o.claims + 1 = 1 := by rw [hunclaimed.2.2]
  refine ⟨⟨hbusy, ⟨hunclaimed.1, hunclaimed.2.1, hone⟩, .inl rfl, expected_last hexpected⟩,
    fun o' a' hrely' => ?_⟩
  obtain ⟨htracked', hclaims', hclaimed', hbusy'⟩ := hrely'.same
  have hclaims' : o'.claims = 1 := hclaims'.trans hone
  have hfail (n : Nat) : Finishes (o', some (.claim before.revision, a')) (o'.hold n).idle :=
    finishes_hold (.inl rfl) hclaims'.le
  cases houtcome' : a'.outcome with
  | error error => exact holds_hold hfail
  | ok raw' =>
    simp only
    cases hclaim : claimed raw' with
    | none => exact holds_hold hfail
    | some next =>
      refine holds_holdIf (fun _ => hfail) fun hnext => ?_
      have hnext := not_not.mp hnext
      subst hnext
      refine holds_unlessHeld hfail fun _ => holds_unchanged hfail fun hinvariant' => ?_
      rw [Caller.holds_modify]
      have hacknowledges : Expected (.claim before.revision) o' a' :=
        .inl ⟨hinvariant', raw', houtcome', hclaim⟩
      have htracks : Tracks (o', some (.claim before.revision, a'))
          { o' with tracked := some (before.revision + 1) } :=
        .inr ⟨_, _, before.revision, rfl, rfl, claimed_applied houtcome' hclaim, rfl,
          .inl (htracked'.trans hunclaimed.2.1)⟩
      have htracking : Owner.Tracking { o' with tracked := some (before.revision + 1) } :=
        ⟨rfl, hclaims'⟩
      refine holds_current (asks_current (hbusy'.trans hbusy) htracking htracks
        (expected_last hacknowledges))
        (fun o'' a'' n hrely'' => ?_) fun o'' a'' s hrely'' hmatch => ?_
      · exact finishes_hold (.inl rfl) (hrely''.tracking htracking).le
      · exact hf _ s _ (@finishes_tracking o'' _ _ { o'' with claimed := true }
          (.inr (.inl hmatch)) rfl
          (hrely''.tracking htracking) (.inl rfl))

theorem getSnapshot_holds {o₀ : Owner} (hrest : o₀.Resting) (hheld : o₀.held = false) :
    getDurableExecutionSnapshot.Holds Rely Asks Done (o₀, none) { o₀ with busy := true } := by
  unfold getDurableExecutionSnapshot
  rw [Caller.holds_get, Caller.holds_ite]
  refine ⟨fun hclaimed => ?_, fun hclaimed => ?_⟩
  · exact current_last rfl hclaimed (hrest.tracking hheld hclaimed) (.inl rfl) nofun
      (fun _ _ _ h => h) fun _ => ⟨rfl, rfl, rfl⟩
  · exact initial_holds (hrest.unclaimed hheld hclaimed) fun _ _ _ h => h

/-- What a call checks first; a controller at rest is not busy. -/
theorem live_holds {invariant : Bool} {f : Unit → Port α} (hrest : o.Resting)
    (h : o.held = false → (f ()).Holds Rely Asks (fun l _ o => Finishes l o) (o, none) o) :
    (live invariant >>= f).Holds Rely Asks (fun l _ o => Finishes l o) (o, none) o := by
  have hhold (n : Nat) : Finishes (o, none) (o.hold n) := by
    refine ⟨⟨hrest.idle, hrest.claims, .inl rfl⟩, .inl rfl, nofun⟩
  rw [Caller.holds_bind]
  unfold live
  refine holds_unlessHeld hhold fun hheld => ?_
  rw [Caller.holds_get]
  exact holds_holdIf_last (fun _ => hhold) fun _ => h hheld

/-- From a controller at rest. -/
theorem call_holds {name : String} {args : Value} {invariant : Bool} (hrest : o.Resting) :
    (call name args invariant).Holds Rely Asks (fun l _ o => Finishes l o) (o, none) o := by
  have hstay : Finishes (o, none) o := ⟨hrest, .inl rfl, nofun⟩
  unfold call
  rw [Caller.holds_ite]
  refine ⟨fun _ => hstay, fun _ => ?_⟩
  cases argumentsFor name args with
  | none => exact hstay
  | some p =>
    obtain ⟨selected, e⟩ := p
    refine live_holds hrest fun hheld => ?_
    rw [Caller.holds_modify, Caller.holds_ending, Caller.holds_ite]
    exact ⟨fun _ => getSnapshot_holds hrest hheld, fun _ => invoke_holds hrest hheld⟩

theorem assertCurrent_holds {invariant : Bool} (hrest : o.Resting) :
    (assertCurrent invariant).Holds Rely Asks (fun l _ o => Finishes l o) (o, none) o := by
  unfold assertCurrent
  refine live_holds hrest fun hheld => ?_
  rw [Caller.holds_get, Caller.holds_ite]
  refine ⟨fun _ => ⟨hrest, .inl rfl, nofun⟩, fun hclaimed => ?_⟩
  have hclaimed : o.claimed = true := Bool.not_eq_false _ ▸ hclaimed
  rw [Caller.holds_modify, Caller.holds_ending]
  exact current_last rfl hclaimed (hrest.tracking hheld hclaimed) (.inl rfl) nofun
    (fun _ _ _ h => h)
    fun _ => ⟨rfl, rfl, rfl⟩

end

end Revision
end ZenonX402
