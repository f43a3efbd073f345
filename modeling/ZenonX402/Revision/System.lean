/-
# Several owners of one store

Any number of revision owners before one store that writes only at the revision
it has, and is then one revision further. The steps are the calls of an owner
and the answers to the questions it has asked, in any order: between two
questions of one owner others may write. An answer may be stale, garbled or
missing, as long as it does not say that a write at the named revision was
applied when it was not.

An owner claims once and tracks a revision that the store has reached
(`System.Ok`). When someone else has written since, it is outrun for good, and
an answer it did not expect shuts it.

Key definitions: `Party`, `System`, `Event`, `Step`, `Party.Ok`, `System.Ok`, `Outrun`, `Shut`.
Key theorems: `settle_holds`, `Step.ok`, `Step.tracks`, `Outrun.step`, `Shut.step`,
`revision_owned`.
-/
import Mathlib.Logic.Function.Basic
import ZenonX402.Lib.Trace
import ZenonX402.Revision.Protocol

namespace ZenonX402
namespace Revision

open Js Port

/-! ### The system -/

/-- A call from outside; `invariant` is what `invariant()` is then. -/
inductive Visit
  | call (name : String) (args : Value) (invariant : Bool)
  | assertCurrent (invariant : Bool)

def Visit.run : Visit → Port Unit
  | .call name args invariant => do
    let _ ← Revision.call name args invariant
    pure ()
  | .assertCurrent invariant => Revision.assertCurrent invariant

/-- A question, and how the program goes on after the answer. -/
abbrev Pending : Type := Query × (Owner → Answer → Talk Query Answer Owner Thrown Unit)

structure Party where
  owner : Owner
  pending : Option Pending

/-- Where the program has got to. -/
def settle : Talk Query Answer Owner Thrown Unit → Party
  | .done _ o => ⟨o, none⟩
  | .ask q o next => ⟨o, some (q, next)⟩

/-- A call; one that comes while the controller waits does not get to ask. -/
def Party.visit (p : Party) (v : Visit) : Party := match p.pending with
  | none => settle (v.run p.owner)
  | some _ => { p with owner := (v.run p.owner).state }

structure System (ι : Type) where
  revision : Nat
  party : ι → Party

inductive Event (ι : Type)
  | visit (i : ι) (v : Visit)
  | answer (i : ι) (q : Query) (a : Answer) (applied : Bool)
  | foreign

variable {ι : Type} [DecidableEq ι]

/-- The steps of the system. The store writes at the revision it has only, and says so only if it
did. -/
inductive Step : System ι → Event ι → System ι → Prop
  | visit (s : System ι) (i : ι) (v : Visit) :
      Step s (.visit i v) { s with party := Function.update s.party i ((s.party i).visit v) }
  | answer (s : System ι) (i : ι) (q : Query)
      (next : Owner → Answer → Talk Query Answer Owner Thrown Unit) (a : Answer) (applied : Bool)
      (hpending : (s.party i).pending = some (q, next))
      (hcas : applied = true → q.mutation = some s.revision)
      (htrue : ∀ e, q.mutation = some e → a.applied = some (e + 1) → applied = true) :
      Step s (.answer i q a applied) {
        revision := if applied = true then s.revision + 1 else s.revision
        party := Function.update s.party i (settle (next (s.party i).owner a)) }
  | foreign (s : System ι) : Step s .foreign { s with revision := s.revision + 1 }

/-- Every controller is new. -/
def Fresh (s : System ι) : Prop := ∀ i, s.party i = ⟨.new, none⟩

def System.owner (s : System ι) (i : ι) : Owner := (s.party i).owner

/-- The question that a controller waits for. -/
def System.asking (s : System ι) (i : ι) : Option Query := (s.party i).pending.map Prod.fst

/-! ### Calls -/

theorem visit_holds {o : Owner} (v : Visit) (h : o.Resting) :
    v.run.Holds Rely Asks (fun l _ o => Finishes l o) (o, none) o := by
  cases v with
  | call name args invariant =>
    unfold Visit.run
    rw [Caller.holds_bind]
    refine Talk.Holds.mono (call_holds h) fun l r o hfinishes => ?_
    cases r with
    | ok => exact hfinishes
    | error => exact hfinishes
  | assertCurrent invariant => exact assertCurrent_holds h

/-- A controller that is held or busy does not get past the checks of a call, whatever `E` says of
how they end. -/
theorem visit_shut {o : Owner} {E : Owner → Prop} (v : Visit)
    (hshut : o.held = true ∨ o.busy = true) (hsame : E o)
    (hhold : o.held = false → ∀ n, E (o.hold n)) :
    v.run.Holds Rely (fun _ _ _ => False) (fun _ _ o' => E o') (o, none) o := by
  cases v with
  | call name args invariant =>
    unfold Visit.run
    rw [Caller.holds_bind]
    unfold call
    rw [Caller.holds_ite]
    refine ⟨fun _ => hsame, fun _ => ?_⟩
    cases argumentsFor name args with
    | none => exact hsame
    | some p => exact holds_live hshut (fun _ => hsame) hhold
  | assertCurrent invariant => exact holds_live hshut (fun _ => hsame) hhold

/-- A program that never asks is done. -/
theorem done_of_silent {t : Talk Query Answer Owner Thrown Unit} {E : Owner → Prop} {l : Last}
    (h : t.Holds Rely (fun _ _ _ => False) (fun _ _ o => E o) l) :
    (settle t).pending = none ∧ E t.state := by
  cases t with
  | done r o => exact ⟨rfl, h⟩
  | ask q o next => exact absurd h.1 id

theorem settle_owner (t : Talk Query Answer Owner Thrown Unit) : (settle t).owner = t.state := by
  cases t with
  | done => rfl
  | ask => rfl

/-! ### What one controller comes to -/

/-- A controller at rest, or one that waits for an answer and is ready for any. -/
def Party.Ok (p : Party) : Prop := match p.pending with
  | none => p.owner.Resting
  | some (q, next) => ∃ l o, (Talk.ask q o next).Holds Rely Asks (fun l _ o => Finishes l o) l
      ∧ Rely o p.owner

/-- What holds of a program holds of where it has got to. -/
theorem settle_holds {t : Talk Query Answer Owner Thrown Unit} {l : Last}
    (h : t.Holds Rely Asks (fun l _ o => Finishes l o) l) :
    (settle t).Ok ∧ Tracks l (settle t).owner
      ∧ ∀ q a, l.2 = some (q, a) → ¬ Expected q l.1 a → (settle t).pending = none
      ∧ (settle t).owner.held = true := by
  cases t with
  | done r o => exact ⟨h.resting, h.tracks, fun q a hlast hnot => ⟨rfl, h.heeds q a hlast hnot⟩⟩
  | ask q o next =>
    exact ⟨⟨l, o, h, .inl rfl⟩, h.1.tracks,
      fun q' a hlast hnot => absurd (h.1.expected q' a hlast) hnot⟩

theorem Owner.Waiting.claims_le {o : Owner} {q : Query} (h : o.Waiting q) : o.claims ≤ 1 := by
  cases q with
  | readSnapshot =>
    rcases h with h | h
    · exact h.2.2.trans_le (Nat.zero_le 1)
    · exact h.le
  | claim e => exact h.2.2.le
  | invoke name selected e => exact h.1.le
  | knownRefusal error => exact h.le

theorem Party.Ok.claims {p : Party} (h : p.Ok) : p.owner.claims ≤ 1 := by
  unfold Party.Ok at h
  cases hpending : p.pending with
  | none =>
    rw [hpending] at h
    exact Owner.Resting.claims h
  | some w =>
    rw [hpending] at h
    obtain ⟨l, o, hholds, hrely⟩ := h
    rw [hrely.same.2.1]
    exact hholds.1.waiting.claims_le

/-- A write that is asked for after the claim names the revision that is tracked. -/
theorem Party.Ok.mutation {p : Party} (h : p.Ok) {q : Query}
    {next : Owner → Answer → Talk Query Answer Owner Thrown Unit}
    (hpending : p.pending = some (q, next)) {e t : Nat} (hq : q.mutation = some e)
    (ht : p.owner.tracked = some t) :
    e = t := by
  unfold Party.Ok at h
  rw [hpending] at h
  obtain ⟨l, o, hholds, hrely⟩ := h
  rw [hrely.same.1] at ht
  have hwaiting := hholds.1.waiting
  cases q with
  | claim e' =>
    rw [hwaiting.2.1] at ht
    cases ht
  | invoke name selected e' =>
    simp only [Query.mutation, Option.ite_none_right_eq_some] at hq
    rw [hwaiting.2 hq.1, ht] at hq
    exact (Option.some.inj hq.2).symm
  | readSnapshot => cases hq
  | knownRefusal error => cases hq

/-- After an answer the party is as the program says. -/
theorem Party.Ok.answered {p : Party} (h : p.Ok) {q : Query}
    {next : Owner → Answer → Talk Query Answer Owner Thrown Unit}
    (hpending : p.pending = some (q, next)) (a : Answer) :
    (next p.owner a).Holds Rely Asks (fun l _ o => Finishes l o) (p.owner, some (q, a)) := by
  unfold Party.Ok at h
  rw [hpending] at h
  obtain ⟨l, o, hholds, hrely⟩ := h
  exact hholds.2 p.owner a hrely

theorem Rely.trans {o o' o'' : Owner} (h : Rely o o') (h' : Rely o' o'') : Rely o o'' := by
  rcases h with rfl | ⟨n, rfl⟩
  · exact h'
  · rcases h' with rfl | ⟨m, rfl⟩
    · exact .inr ⟨n, rfl⟩
    · exact .inr ⟨m, rfl⟩

/-- A call keeps the party in order and the revision that it tracks. -/
theorem Party.Ok.visit {p : Party} (h : p.Ok) (v : Visit) :
    (p.visit v).Ok ∧ (p.visit v).owner.tracked = p.owner.tracked := by
  unfold Party.visit
  cases hpending : p.pending with
  | none =>
    have hrest : p.owner.Resting := by
      unfold Party.Ok at h
      rwa [hpending] at h
    obtain ⟨hok, htracks, -⟩ := settle_holds (visit_holds v hrest)
    rcases htracks with htracks | ⟨q, a, e, hlast, -⟩
    · exact ⟨hok, htracks⟩
    · cases hlast
  | some w =>
    unfold Party.Ok at h
    rw [hpending] at h
    obtain ⟨l, o, hholds, hrely⟩ := h
    have hbusy : p.owner.busy = true := hrely.same.2.2.2.trans hholds.1.busy
    have hrely' : Rely p.owner (v.run p.owner).state :=
      (done_of_silent (visit_shut v (.inr hbusy) (.inl rfl) fun _ n => .inr ⟨n, rfl⟩)).2
    have hok : Party.Ok ⟨(v.run p.owner).state, some w⟩ := ⟨l, o, hholds, hrely.trans hrely'⟩
    exact ⟨hok, hrely'.same.1⟩

/-! ### What the system comes to -/

/-- Every party is in order, and tracks a revision that the store has reached. -/
def System.Ok (s : System ι) : Prop := ∀ i, (s.party i).Ok ∧ ∀ t, (s.owner i).tracked = some t →
    t ≤ s.revision

omit [DecidableEq ι] in
theorem Fresh.ok {s : System ι} (h : Fresh s) : s.Ok := by
  intro i
  refine ⟨?_, fun t ht => ?_⟩
  · rw [h i]
    exact ⟨rfl, Nat.zero_le 1, .inr (.inl ⟨rfl, rfl, rfl⟩)⟩
  · rw [System.owner, h i] at ht
    cases ht

/-- The acknowledgement of a write at a revision: the revision that is tracked afterwards. -/
def Moves (s : System ι) (i : ι) (e : Event ι) (s' : System ι) : Prop :=
  (s'.owner i).tracked = (s.owner i).tracked ∨ ∃ q a applied n, e = .answer i q a applied
    ∧ q.mutation = some n
    ∧ a.applied = some (n + 1) ∧ (s'.owner i).tracked = some (n + 1)
    ∧ ((s.owner i).tracked = none ∨ (s.owner i).tracked = some n)

/-- What a step does to one party: nothing, or a call of it, or an answer to it. -/
theorem Step.party {s s' : System ι} {e : Event ι} (h : Step s e s') (i : ι) :
    (s'.party i = s.party i ∧ ∀ q a applied, e ≠ .answer i q a applied)
      ∨ (∃ v, e = .visit i v ∧ s'.party i = (s.party i).visit v)
      ∨ ∃ q next a applied, e = .answer i q a applied ∧ (s.party i).pending = some (q, next)
        ∧ s'.party i = settle (next (s.party i).owner a) := by
  cases h with
  | visit j v =>
    by_cases hij : i = j
    · subst hij
      exact .inr (.inl ⟨v, rfl, Function.update_self ..⟩)
    · exact .inl ⟨Function.update_of_ne hij .., nofun⟩
  | answer j q next a applied hpending =>
    by_cases hij : i = j
    · subst hij
      exact .inr (.inr ⟨q, next, a, applied, rfl, hpending, Function.update_self ..⟩)
    · refine .inl ⟨Function.update_of_ne hij .., fun q' a' applied' he => ?_⟩
      cases he
      exact hij rfl
  | foreign => exact .inl ⟨rfl, nofun⟩

theorem Step.moves {s s' : System ι} {e : Event ι} (h : Step s e s') (hs : s.Ok) (i : ι) :
    Moves s i e s' := by
  unfold Moves System.owner
  rcases h.party i with ⟨hparty, -⟩ | ⟨v, -, hparty⟩ | ⟨q, next, a, applied, rfl, hpending, hparty⟩
  · rw [hparty]
    exact .inl rfl
  · rw [hparty]
    exact .inl ((hs i).1.visit v).2
  · rw [hparty]
    rcases (settle_holds ((hs i).1.answered hpending a)).2.1 with htracks | ⟨q', a', n, hlast,
      hq, ha, hmoved⟩
    · exact .inl htracks
    · obtain ⟨rfl, rfl⟩ := Prod.mk.inj (Option.some.inj hlast)
      exact .inr ⟨q, a, applied, n, rfl, hq, ha, hmoved⟩

theorem Step.revision_le {s s' : System ι} {e : Event ι} (h : Step s e s') :
    s.revision ≤ s'.revision := by
  cases h with
  | visit => exact le_rfl
  | answer _ _ _ _ applied =>
    show s.revision ≤ if applied = true then s.revision + 1 else s.revision
    split
    · exact Nat.le_succ _
    · exact le_rfl
  | foreign => exact Nat.le_succ _

/-- An answer that says that a write was applied comes with the write. -/
theorem Step.applied {s s' : System ι} {i : ι} {q : Query} {a : Answer} {applied : Bool} {n : Nat}
    (h : Step s (.answer i q a applied) s') (hq : q.mutation = some n)
    (ha : a.applied = some (n + 1)) :
    applied = true ∧ n = s.revision ∧ s'.revision = s.revision + 1 := by
  cases h with
  | answer _ _ next _ _ hpending hcas htrue =>
    obtain rfl := htrue n hq ha
    have hn := hcas rfl
    rw [hq] at hn
    exact ⟨rfl, Option.some.inj hn, rfl⟩

theorem Step.ok {s s' : System ι} {e : Event ι} (h : Step s e s') (hs : s.Ok) : s'.Ok := by
  intro i
  have hmoves := h.moves hs i
  refine ⟨?_, fun t ht => ?_⟩
  · rcases h.party i with ⟨hparty, -⟩ | ⟨v, -, hparty⟩ | ⟨q, next, a, applied, -, hpending, hparty⟩
    · rw [hparty]
      exact (hs i).1
    · rw [hparty]
      exact ((hs i).1.visit v).1
    · rw [hparty]
      exact (settle_holds ((hs i).1.answered hpending a)).1
  · rcases hmoves with hsame | ⟨q, a, applied, n, rfl, hq, ha, htracked, -⟩
    · exact ((hs i).2 t (hsame ▸ ht)).trans h.revision_le
    · obtain ⟨-, rfl, hrevision⟩ := h.applied hq ha
      rw [htracked] at ht
      rw [hrevision, ← Option.some.inj ht]

/-! ### Who is outrun and who is shut -/

/-- The store is past the revision that the controller tracks. -/
def Outrun (i : ι) (s : System ι) : Prop := ∃ t, (s.owner i).tracked = some t ∧ t < s.revision

/-- The answer says that a write of the controller was applied, or it was. -/
def Event.Applies (i : ι) (e : Event ι) : Prop := ∃ q a applied n, e = .answer i q a applied
    ∧ q.mutation = some n
  ∧ (applied = true ∨ a.applied = some (n + 1))

/-- Someone else's write is applied. -/
def Event.Elsewhere (i : ι) (e : Event ι) : Prop :=
  e = .foreign ∨ ∃ j q a, j ≠ i ∧ e = .answer j q a true

theorem Outrun.step {s s' : System ι} {e : Event ι} {i : ι} (h : Outrun i s) (hs : s.Ok)
    (hstep : Step s e s') :
    ¬ e.Applies i ∧ Outrun i s' := by
  obtain ⟨t, ht, hlt⟩ := h
  have hnot : ¬ e.Applies i := by
    rintro ⟨q, a, applied, n, rfl, hq, happlies⟩
    cases hstep with
    | answer _ _ next _ _ hpending hcas htrue =>
      have hn : n = t := (hs i).1.mutation hpending hq ht
      have happlied : applied = true := happlies.elim id fun ha => htrue n hq ha
      have hrevision := hcas happlied
      rw [hq] at hrevision
      have := Option.some.inj hrevision
      omega
  refine ⟨hnot, ?_⟩
  rcases hstep.moves hs i with hsame | ⟨q, a, applied, n, rfl, hq, ha, -⟩
  · exact ⟨t, hsame.trans ht, hlt.trans_le hstep.revision_le⟩
  · exact absurd ⟨q, a, applied, n, rfl, hq, .inr ha⟩ hnot

/-- A write elsewhere outruns a controller that has claimed. -/
theorem outrun_of_elsewhere {s s' : System ι} {e : Event ι} {i : ι} (hs : s.Ok)
    (hstep : Step s e s') (helsewhere : e.Elsewhere i)
    (hclaimed : (s.owner i).tracked.isSome = true) : Outrun i s' := by
  obtain ⟨t, ht⟩ := Option.isSome_iff_exists.mp hclaimed
  have hle := (hs i).2 t ht
  have hsame : (s'.owner i).tracked = (s.owner i).tracked := by
    rcases hstep.moves hs i with hsame | ⟨q, a, applied, n, rfl, -⟩
    · exact hsame
    · rcases helsewhere with he | ⟨j, q', a', hj, he⟩
      · cases he
      · cases he
        exact absurd rfl hj
  have hrevision : s'.revision = s.revision + 1 := by
    rcases helsewhere with rfl | ⟨j, q, a, hj, rfl⟩
    · cases hstep
      rfl
    · cases hstep
      rfl
  exact ⟨t, hsame.trans ht, by omega⟩

/-- The controller holds and waits for nothing. -/
def Shut (i : ι) (s : System ι) : Prop := (s.owner i).held = true ∧ s.asking i = none

theorem Shut.step {s s' : System ι} {e : Event ι} {i : ι} (h : Shut i s) (hstep : Step s e s') :
    Shut i s' ∧ ∀ q a applied, e ≠ .answer i q a applied := by
  have hpending : (s.party i).pending = none := Option.map_eq_none_iff.mp h.2
  have hheld : (s.party i).owner.held = true := h.1
  rcases hstep.party i with ⟨hparty, hother⟩ | ⟨v, rfl, hparty⟩ | ⟨q, next, a, applied,
    -, hpending', -⟩
  · refine ⟨?_, hother⟩
    unfold Shut System.owner System.asking
    rw [hparty]
    exact h
  · have hsilent := done_of_silent (@visit_shut _ (fun o => o.held = true) v (.inl hheld) hheld
      fun _ _ => rfl)
    refine ⟨?_, nofun⟩
    unfold Shut System.owner System.asking
    rw [hparty, Party.visit, hpending]
    exact ⟨(settle_owner _).symm ▸ hsilent.2, by rw [hsilent.1]; rfl⟩
  · rw [hpending] at hpending'
    cases hpending'

/-- An answer that is not expected shuts the controller. -/
theorem shut_of_unexpected {s s' : System ι} {i : ι} {q : Query} {a : Answer}
    {applied : Bool} (hs : s.Ok) (hstep : Step s (.answer i q a applied) s')
    (hnot : ¬ Expected q (s.owner i) a) : Shut i s' := by
  rcases hstep.party i with ⟨-, hother⟩ | ⟨v, he, -⟩ | ⟨q', next, a', applied', he,
    hpending, hparty⟩
  · exact absurd rfl (hother q a applied)
  · cases he
  · cases he
    have hshut := (settle_holds ((hs i).1.answered hpending a)).2.2 q a rfl hnot
    unfold Shut System.owner System.asking
    rw [hparty]
    exact ⟨hshut.2, by rw [hshut.1]; rfl⟩

/-! ### Runs -/

/-- Along every run: each controller claims at most once; the revision it
tracks changes only with an answer that is APPLIED at the next revision; once
someone else has written after its claim, no write of it is applied; and after
an answer that it does not expect it holds and asks nothing more. -/
theorem revision_owned {s₀ s : System ι} {events : List (Event ι)} (hfresh : Fresh s₀)
    (hrun : Run Step s₀ events s) :
    (∀ i, (s.owner i).claims ≤ 1)
      ∧ (∀ e s', Step s e s' → ∀ i, Moves s i e s')
      ∧ (∀ e s', Step s e s' → ∀ i, e.Elsewhere i → (s.owner i).tracked.isSome = true →
        ∀ later s'', Run Step s' later s'' → ∀ e' ∈ later, ¬ e'.Applies i)
      ∧ ∀ i q a applied s', Step s (.answer i q a applied) s' → ¬ Expected q (s.owner i) a →
        ∀ later s'', Run Step s' later s'' → Shut i s'' ∧ ∀ q a applied,
        .answer i q a applied ∉ later := by
  have hok := hrun.invariant (fun _ _ _ hs hstep => hstep.ok hs) hfresh.ok
  refine ⟨fun i => (hok i).1.claims, fun e s' hstep i => hstep.moves hok i, ?_, ?_⟩
  · intro e s' hstep i helsewhere hclaimed later s'' hlater
    exact (hlater.latched (fun _ _ _ hs hstep => hstep.ok hs)
      (fun _ _ _ hs hout hstep => hout.step hs hstep)
      (hstep.ok hok) (outrun_of_elsewhere hok hstep helsewhere hclaimed)).2
  · intro i q a applied s' hstep hnot later s'' hlater
    obtain ⟨hshut, hsilent⟩ :=
      @Run.latched _ _ _ System.Ok (Shut i) (fun e => ∃ q a applied, e = .answer i q a applied)
      (fun _ _ _ hs hstep => hstep.ok hs)
      (fun _ _ _ _ hshut hstep => ⟨fun ⟨q, a, applied, he⟩ => (hshut.step hstep).2 q a applied he,
        (hshut.step hstep).1⟩) _ _ _ hlater (hstep.ok hok) (shut_of_unexpected hok hstep hnot)
    exact ⟨hshut, fun q a applied hmem => hsilent _ hmem ⟨q, a, applied, rfl⟩⟩

/-! ### A run -/

namespace Sample

/-- One controller, before a store at the revision 7. -/
def start : System Unit := ⟨7, fun _ => ⟨.new, none⟩⟩

def survey : Visit := .call "getDurableExecutionSnapshot" (.arr []) true

def visited (s : System Unit) : System Unit :=
  { s with party := Function.update s.party () ((s.party ()).visit survey) }

/-- The store returns a frozen object with frozen objects in it. -/
def returns (fs : List (String × Value)) : Answer := ⟨.ok ⟨.obj fs, true, ["executionState"]⟩, true⟩

def answered (s : System Unit) (a : Answer) (applied : Bool) : System Unit :=
  match (s.party ()).pending with
  | none => s
  | some (_, next) => {
      revision := if applied = true then s.revision + 1 else s.revision
      party := Function.update s.party () (settle (next (s.party ()).owner a)) }

def snapshotAt (revision : Int) : Answer :=
  returns [("revision", .num revision), ("executionState", .obj [])]

def claimedAt (revision : Int) : Answer :=
  returns [("disposition", .str "APPLIED"), ("revision", .num revision),
    ("executionState", .obj [])]

/-- A snapshot is read, its revision claimed, and read again. -/
def claiming : System Unit :=
  answered (answered (answered (visited start) (snapshotAt 7) false) (claimedAt 8) true)
  (snapshotAt 8) false

def events : List (Event Unit) := [.visit () survey, .answer () .readSnapshot (snapshotAt 7) false,
  .answer () (.claim 7) (claimedAt 8) true, .answer () .readSnapshot (snapshotAt 8) false]

theorem fresh : Fresh start := fun _ => rfl

theorem run_claiming : Run Step start events claiming :=
  .cons (.visit start () survey)
    (.cons (.answer (visited start) () .readSnapshot _ (snapshotAt 7) false rfl nofun nofun)
    (.cons (.answer (answered (visited start) (snapshotAt 7) false) () (.claim 7) _
      (claimedAt 8) true rfl
      (fun _ => rfl) fun _ _ _ => rfl)
    (.cons (.answer (answered (answered (visited start) (snapshotAt 7) false) (claimedAt 8) true)
      () .readSnapshot _
      (snapshotAt 8) false rfl nofun nofun)
    (.nil _))))

/-- The snapshot of a store in which durable execution is not initialized. -/
def uninitialized : Answer := returns [("revision", .num 7), ("executionState", .null)]

end Sample

/-- A controller that has claimed. -/
theorem revision_owned_sample :
    (∀ i, (Sample.claiming.owner i).claims ≤ 1)
      ∧ (∀ e s', Step Sample.claiming e s' → ∀ i, Moves Sample.claiming i e s')
      ∧ (∀ e s', Step Sample.claiming e s' → ∀ i, e.Elsewhere i →
        (Sample.claiming.owner i).tracked.isSome = true →
        ∀ later s'', Run Step s' later s'' → ∀ e' ∈ later, ¬ e'.Applies i)
      ∧ ∀ i q a applied s', Step Sample.claiming (.answer i q a applied) s' →
        ¬ Expected q (Sample.claiming.owner i) a →
        ∀ later s'', Run Step s' later s'' → Shut i s'' ∧ ∀ q a applied,
        .answer i q a applied ∉ later :=
  revision_owned Sample.fresh Sample.run_claiming

/-- A new controller reads a store without durable execution: the answer is
neither an acknowledgement nor a current read nor a refusal, and the controller
does not hold but reads again. -/
theorem survey_not_held :
    ∃ (s s' : System Unit) (a : Answer), Run Step Sample.start [.visit () Sample.survey] s
    ∧ Step s (.answer () .readSnapshot a false) s'
    ∧ ¬ (Acknowledges .readSnapshot (s.owner ()) a ∨ MatchesCurrent .readSnapshot (s.owner ()) a
      ∨ Refuses .readSnapshot a)
    ∧ (s'.owner ()).held = false
    ∧ ∃ s'', Step s' (.visit () Sample.survey) s'' ∧ s''.asking () = some .readSnapshot := by
  let s := Sample.visited Sample.start
  refine ⟨s, Sample.answered s Sample.uninitialized false, Sample.uninitialized,
    .cons (.visit Sample.start () Sample.survey) (.nil _),
    .answer s () .readSnapshot _ Sample.uninitialized false rfl nofun nofun, ?_, rfl, _,
    .visit _ () Sample.survey, rfl⟩
  rintro (⟨-, value, -, h⟩ | ⟨-, -, raw, r, -, -, htracked, -⟩ | h)
  · exact h
  · cases htracked
  · exact h

end Revision
end ZenonX402
