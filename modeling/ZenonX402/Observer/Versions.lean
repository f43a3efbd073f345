/-
# Momentum versions are joined

Observations of the heights at which version 1 and version 2 momentums were seen, handed
to a state one after the other with the revision that it has then. As long as no version 1
was seen at or above a version 2, the state has the largest height of the one and the
smallest of the other of all that were seen, in whatever order they came
(`versions_joined`). The first observation that makes them meet puts the state in
quarantine, where it keeps the heights that it had before.

Key definitions: `IsMaximum`, `IsMinimum`, `Observed`, `observe`, `Observes`, `Bounds`, `Meets`,
`Joined`.
Key theorems: `observe_gives`, `Joined.step`, `run_joined`, `versions_joined`.
-/
import ZenonX402.Observer.Runs

namespace ZenonX402
namespace Observer

open Js
open Credit (PositiveInt)

variable {sha : Sha256} {c : Accepted sha}

/-! ### Largest and smallest heights -/

/-- The largest of some heights, if there are any. -/
def IsMaximum (seen : PositiveInt → Prop) : Option PositiveInt → Prop
  | none => ∀ h, ¬ seen h
  | some m => seen m ∧ ∀ h, seen h → h.1 ≤ m.1

/-- The smallest of some heights, if there are any. -/
def IsMinimum (seen : PositiveInt → Prop) : Option PositiveInt → Prop
  | none => ∀ h, ¬ seen h
  | some m => seen m ∧ ∀ h, seen h → m.1 ≤ h.1

theorem isMaximum_self (a : Option PositiveInt) : IsMaximum (· ∈ a) a := by
  cases a with
  | none => exact fun _ => nofun
  | some m => exact ⟨rfl, fun h hh => by rw [Option.some.inj hh]⟩

theorem isMinimum_self (a : Option PositiveInt) : IsMinimum (· ∈ a) a := by
  cases a with
  | none => exact fun _ => nofun
  | some m => exact ⟨rfl, fun h hh => by rw [Option.some.inj hh]⟩

theorem IsMaximum.laterOf {P Q : PositiveInt → Prop} {a b : Option PositiveInt} (ha : IsMaximum P a)
    (hb : IsMaximum Q b) :
    IsMaximum (fun h => P h ∨ Q h) (laterOf a b) := by
  cases a with
  | none =>
    cases b with
    | none => exact fun h hh => hh.elim (ha h) (hb h)
    | some n => exact ⟨.inr hb.1, fun h hh => hh.elim (fun hP => absurd hP (ha h)) (hb.2 h)⟩
  | some m =>
    cases b with
    | none => exact ⟨.inl ha.1, fun h hh => hh.elim (ha.2 h) fun hQ => absurd hQ (hb h)⟩
    | some n =>
      by_cases hlt : m.1 < n.1
      · rw [Observer.laterOf, if_pos hlt]
        exact ⟨.inr hb.1, fun h hh => hh.elim (fun hP => le_trans (ha.2 h hP) hlt.le) (hb.2 h)⟩
      · rw [Observer.laterOf, if_neg hlt]
        exact ⟨.inl ha.1, fun h hh => hh.elim (ha.2 h) fun hQ => le_trans (hb.2 h hQ)
          (not_lt.mp hlt)⟩

theorem IsMinimum.earlierOf {P Q : PositiveInt → Prop} {a b : Option PositiveInt}
    (ha : IsMinimum P a) (hb : IsMinimum Q b) :
    IsMinimum (fun h => P h ∨ Q h) (earlierOf a b) := by
  cases a with
  | none =>
    cases b with
    | none => exact fun h hh => hh.elim (ha h) (hb h)
    | some n => exact ⟨.inr hb.1, fun h hh => hh.elim (fun hP => absurd hP (ha h)) (hb.2 h)⟩
  | some m =>
    cases b with
    | none => exact ⟨.inl ha.1, fun h hh => hh.elim (ha.2 h) fun hQ => absurd hQ (hb h)⟩
    | some n =>
      by_cases hlt : n.1 < m.1
      · rw [Observer.earlierOf, if_pos hlt]
        exact ⟨.inr hb.1, fun h hh => hh.elim (fun hP => le_trans hlt.le (ha.2 h hP)) (hb.2 h)⟩
      · rw [Observer.earlierOf, if_neg hlt]
        exact ⟨.inl ha.1, fun h hh => hh.elim (ha.2 h) fun hQ => le_trans
          (not_lt.mp hlt) (hb.2 h hQ)⟩

/-- There is one largest height. -/
theorem IsMaximum.unique {P : PositiveInt → Prop} {a b : Option PositiveInt} (ha : IsMaximum P a)
    (hb : IsMaximum P b) : a = b := by
  cases a with
  | none =>
    cases b with
    | none => rfl
    | some n => exact absurd hb.1 (ha n)
  | some m =>
    cases b with
    | none => exact absurd ha.1 (hb m)
    | some n => exact congrArg some (Subtype.ext (le_antisymm (hb.2 m ha.1) (ha.2 n hb.1)))

theorem IsMinimum.unique {P : PositiveInt → Prop} {a b : Option PositiveInt} (ha : IsMinimum P a)
    (hb : IsMinimum P b) : a = b := by
  cases a with
  | none =>
    cases b with
    | none => rfl
    | some n => exact absurd hb.1 (ha n)
  | some m =>
    cases b with
    | none => exact absurd ha.1 (hb m)
    | some n => exact congrArg some (Subtype.ext (le_antisymm (ha.2 n hb.1) (hb.2 m ha.1)))

/-- A height that was taken into account changes nothing. -/
theorem laterOf_eq_left {P : PositiveInt → Prop} {a b : Option PositiveInt} (ha : IsMaximum P a)
    (hb : ∀ h ∈ b, P h) :
    laterOf a b = a := by
  have hjoin := ha.laterOf (isMaximum_self b)
  have hsame : (fun h => P h ∨ h ∈ b) = P :=
    funext fun h => propext ⟨fun hh => hh.elim id (hb h), .inl⟩
  rw [hsame] at hjoin
  exact hjoin.unique ha

theorem earlierOf_eq_left {P : PositiveInt → Prop} {a b : Option PositiveInt} (ha : IsMinimum P a)
    (hb : ∀ h ∈ b, P h) :
    earlierOf a b = a := by
  have hjoin := ha.earlierOf (isMinimum_self b)
  have hsame : (fun h => P h ∨ h ∈ b) = P :=
    funext fun h => propext ⟨fun hh => hh.elim id (hb h), .inl⟩
  rw [hsame] at hjoin
  exact hjoin.unique ha

/-- The largest and the smallest height meet if any two do. -/
theorem versionsConflict_iff {P Q : PositiveInt → Prop} {a b : Option PositiveInt}
    (ha : IsMaximum P a) (hb : IsMinimum Q b) :
    versionsConflict a b ↔ ∃ v1 v2, P v1 ∧ Q v2 ∧ v2.1 ≤ v1.1 := by
  constructor
  · rintro ⟨v1, rfl, v2, rfl, hle⟩
    exact ⟨v1, v2, ha.1, hb.1, hle⟩
  · rintro ⟨v1, v2, hv1, hv2, hle⟩
    cases a with
    | none => exact absurd hv1 (ha v1)
    | some m =>
      cases b with
      | none => exact absurd hv2 (hb v2)
      | some n => exact ⟨m, rfl, n, rfl, le_trans (hb.2 v2 hv2) (le_trans hle (ha.2 v1 hv1))⟩

/-! ### Observations -/

/-- An observation that says something, and does not contradict itself. -/
structure Observed where
  maxV1Height : Option PositiveInt
  minV2Height : Option PositiveInt
  some_seen : ¬ (maxV1Height = none ∧ minV2Height = none)
  consistent : ¬ versionsConflict maxV1Height minV2Height

/-- What a call has under each key. -/
def Observed.field (o : Observed) (c : Accepted sha) : String → Value
  | "state" => c.encode
  | "expectedRevision" => .num c.1.revision.1
  | "maxV1Height" => normalizeMomentumVersionHeight.encode o.maxV1Height
  | "minV2Height" => normalizeMomentumVersionHeight.encode o.minV2Height
  | _ => .undefined

def Observed.options (o : Observed) (c : Accepted sha) : Value :=
  written (Order.given LINEAGE_KEYS) (o.field c)

/-- The observation is handed to the state, with its revision. -/
def observe (c : Accepted sha) (o : Observed) : Except Code (Outcome sha) :=
  applyZenonFundingMomentumVersionLineage sha (o.options c)

/-- The arguments of the call are within the limits. -/
theorem snapshot_observed (o : Observed) (c : Accepted sha) :
    snapshotJson (o.options c) = some (o.options c) := by
  have hjson : (o.options c).Json := by
    refine json_written (by decide) fun k hk => ?_
    simp only [LINEAGE_KEYS, List.mem_cons, List.not_mem_nil, or_false] at hk
    rcases hk with rfl | rfl | rfl | rfl
    · exact json_encode c
    · exact .num (by have := c.1.revision.nonneg; have := c.1.revision.le; omega)
    · exact normalizeMomentumVersionHeight.json_encode o.maxV1Height
    · exact normalizeMomentumVersionHeight.json_encode o.minV2Height
  have hwithin : Value.Within refusedKey (o.options c) ⟨900, 900, 7000, 600, 24000, 0, 7, 64⟩ :=
    (Measure.Le.inside (Value.fields_cons (bounded_state c.1)
      (Value.fields_cons (Value.within_num _)
      (Value.fields_cons (bounded_versionHeight o.maxV1Height)
        (Value.fields_cons (bounded_versionHeight o.minV2Height)
        Value.fields_nil)))) (Nat.le_refl 4)).trans (by decide)
  refine snapshotJson_within hjson hwithin ?_ (by decide)
  exact ⟨by decide, by decide, by decide, by decide, by decide, by decide, rfl⟩

/-- What a call with an observation does to a state. -/
inductive Observes (c : Accepted sha) (o : Observed) : Outcome sha → Prop
  | stays (hstatus : c.1.status = .QUARANTINED) : Observes c o ⟨c, .QUARANTINED⟩
  | meets (r : NonnegativeInt) (c' : Accepted sha) (hr : r.1 = c.1.revision.1 + 1)
      (hstatus : c.1.status ≠ .QUARANTINED)
      (hmeets : versionsConflict (laterOf c.1.maxV1Height o.maxV1Height)
        (earlierOf c.1.minV2Height o.minV2Height))
        (hnext : c'.1 = c.1.quarantinedFor .MOMENTUM_VERSION_CONFLICT r) :
        Observes c o ⟨c', .QUARANTINED⟩
  | absorbed (hstatus : c.1.status ≠ .QUARANTINED)
      (hmeets : ¬ versionsConflict (laterOf c.1.maxV1Height o.maxV1Height)
        (earlierOf c.1.minV2Height o.minV2Height))
        (hsame : laterOf c.1.maxV1Height o.maxV1Height = c.1.maxV1Height
        ∧ earlierOf c.1.minV2Height o.minV2Height = c.1.minV2Height) : Observes c o ⟨c, .UNCHANGED⟩
  | joined (r : NonnegativeInt) (c' : Accepted sha) (hr : r.1 = c.1.revision.1 + 1)
      (hstatus : c.1.status ≠ .QUARANTINED)
      (hmeets : ¬ versionsConflict (laterOf c.1.maxV1Height o.maxV1Height)
        (earlierOf c.1.minV2Height o.minV2Height))
        (hdiffers : ¬ (laterOf c.1.maxV1Height o.maxV1Height = c.1.maxV1Height
        ∧ earlierOf c.1.minV2Height o.minV2Height = c.1.minV2Height))
      (hnext : c'.1 = c.1.versioned (laterOf c.1.maxV1Height o.maxV1Height)
        (earlierOf c.1.minV2Height o.minV2Height) r) :
      Observes c o ⟨c', .APPLIED⟩

/-- There is no next revision, and the observation needs one. -/
def Exhausted (c : Accepted sha) (o : Observed) : Prop :=
  c.1.revision.1 = 9007199254740991 ∧ c.1.status ≠ .QUARANTINED
    ∧ (versionsConflict (laterOf c.1.maxV1Height o.maxV1Height)
      (earlierOf c.1.minV2Height o.minV2Height)
      ∨ ¬ (laterOf c.1.maxV1Height o.maxV1Height = c.1.maxV1Height
        ∧ earlierOf c.1.minV2Height o.minV2Height = c.1.minV2Height))

/-- An observation is refused only when there is no next revision. -/
theorem observe_gives (c : Accepted sha) (o : Observed) :
    Gives (observe c o) (fun _ => Exhausted c o) (Observes c o) := by
  obtain ⟨get, hcaptured, hfield⟩ : ∃ get, captured LINEAGE_KEYS (o.options c) = .ok get
      ∧ ∀ k ∈ LINEAGE_KEYS, get k = o.field c k := captured_written (snapshot_observed o c)
  have hstate : normalizeStateSnapshot sha (get "state") = .ok c := by
    rw [hfield "state" (by decide)]
    exact normalizeStateSnapshot_encode c
  have hrevision : assertExpectedRevision c (get "expectedRevision") = .ok () := by
    rw [hfield "expectedRevision" (by decide)]
    simp only [assertExpectedRevision, bind_ok, failWith_ok]
    exact ⟨c.1.revision, assertNonnegativeInteger.decode_encode_self c.1.revision,
      rejectIf_ok.mpr fun h => h rfl⟩
  have hv1 : failWith (normalizeMomentumVersionHeight.decode (get "maxV1Height")) Code.INVALID_INPUT
      = .ok o.maxV1Height := by
    rw [hfield "maxV1Height" (by decide)]
    exact failWith_ok.mpr (normalizeMomentumVersionHeight.decode_encode_self o.maxV1Height)
  have hv2 : failWith (normalizeMomentumVersionHeight.decode (get "minV2Height")) Code.INVALID_INPUT
      = .ok o.minV2Height := by
    rw [hfield "minV2Height" (by decide)]
    exact failWith_ok.mpr (normalizeMomentumVersionHeight.decode_encode_self o.minV2Height)
  have hconsistent : rejectIf (versionsConflict o.maxV1Height o.minV2Height) Code.INVALID_INPUT
      = .ok () :=
    rejectIf_ok.mpr o.consistent
  have hseen : rejectIf (o.maxV1Height = none ∧ o.minV2Height = none) Code.INVALID_INPUT = .ok () :=
    rejectIf_ok.mpr o.some_seen
  unfold observe applyZenonFundingMomentumVersionLineage
  rw [gives_of_ok hcaptured, gives_of_ok hstate, gives_of_ok hrevision, gives_ite]
  refine ⟨fun hstatus => .stays hstatus, fun hstatus => ?_⟩
  rw [gives_of_ok hv1, gives_of_ok hv2, gives_of_ok hconsistent, gives_of_ok hseen, gives_ite]
  refine ⟨fun hmeets => ?_, fun hmeets => ?_⟩
  · have hclone : Gives (quarantineState c .MOMENTUM_VERSION_CONFLICT)
        (fun _ => c.1.revision.1 = 9007199254740991)
        fun c' => ∃ r : NonnegativeInt, r.1 = c.1.revision.1 + 1
          ∧ c'.1 = c.1.quarantinedFor .MOMENTUM_VERSION_CONFLICT r := by
      unfold quarantineState
      rw [if_neg hstatus]
      refine cloneState_exhausted _ (c.1.quarantinedFor .MOMENTUM_VERSION_CONFLICT) rfl
        fun r hr => ⟨?_, ?_⟩
      · rw [← hr, Accepted.encode_members, encode_members, encode_members]
        rfl
      · exact c.valid.quarantinedFor _
    unfold quarantined
    rw [gives_bind]
    refine ⟨fun e he => ?_, fun c' hc' => ?_⟩
    · rw [he] at hclone
      exact ⟨hclone, hstatus, .inl hmeets⟩
    · rw [hc'] at hclone
      obtain ⟨r, hr, hnext⟩ := hclone
      exact .meets r c' hr hstatus hmeets hnext
  · rw [gives_ite]
    refine ⟨fun hsame => .absorbed hstatus hmeets hsame, fun hdiffers => ?_⟩
    have hclone := cloneState_exhausted [
        ("revision", .num (c.1.revision.1 + 1)),
        ("maxV1Height", normalizeMomentumVersionHeight.encode
          (laterOf c.1.maxV1Height o.maxV1Height)),
        ("minV2Height", normalizeMomentumVersionHeight.encode
          (earlierOf c.1.minV2Height o.minV2Height))]
      (c.1.versioned (laterOf c.1.maxV1Height o.maxV1Height)
        (earlierOf c.1.minV2Height o.minV2Height))
      rfl fun r hr => ⟨by rw [← hr, Accepted.encode_members, encode_members, encode_members]; rfl,
        c.valid.versioned hmeets⟩
    rw [gives_bind]
    refine ⟨fun e he => ?_, fun c' hc' => ?_⟩
    · rw [he] at hclone
      exact ⟨hclone, hstatus, .inr hdiffers⟩
    · rw [hc'] at hclone
      obtain ⟨r, hr, hnext⟩ := hclone
      exact .joined r c' hr hstatus hmeets hdiffers hnext

/-- What comes of an observation that is taken. -/
theorem observe_ok {o : Observed} {outcome : Outcome sha} (h : observe c o = .ok outcome) :
    Observes c o outcome := by
  have hgives := observe_gives c o
  rw [h] at hgives
  exact hgives

/-- An observation is taken unless it is refused for the revision. -/
theorem observe_taken {o : Observed} (h : ¬ Exhausted c o) :
    ∃ outcome, observe c o = .ok outcome := by
  have hgives := observe_gives c o
  cases hobserve : observe c o with
  | ok outcome => exact ⟨outcome, rfl⟩
  | error e =>
    rw [hobserve] at hgives
    exact absurd hgives h

/-! ### What was seen -/

variable {c₀ c' : Accepted sha} {os os' : List Observed} {o : Observed}

/-- A version 1 height that the state had at first, or that was observed. -/
def SeenV1 (c₀ : Accepted sha) (os : List Observed) (h : PositiveInt) : Prop :=
  h ∈ c₀.1.maxV1Height ∨ ∃ o ∈ os, h ∈ o.maxV1Height

def SeenV2 (c₀ : Accepted sha) (os : List Observed) (h : PositiveInt) : Prop :=
  h ∈ c₀.1.minV2Height ∨ ∃ o ∈ os, h ∈ o.minV2Height

/-- The heights of a state are the largest and the smallest of those that were seen. -/
structure Bounds (c₀ : Accepted sha) (os : List Observed) (v1 v2 : Option PositiveInt) : Prop where
  maximum : IsMaximum (SeenV1 c₀ os) v1
  minimum : IsMinimum (SeenV2 c₀ os) v2

/-- The largest version 1 height that was seen is not below the smallest version 2 height. -/
def Meets (c₀ : Accepted sha) (os : List Observed) : Prop :=
  ∃ v1 v2, Bounds c₀ os v1 v2 ∧ versionsConflict v1 v2

namespace Bounds

variable {v1 v2 : Option PositiveInt}

theorem start (c₀ : Accepted sha) : Bounds c₀ [] c₀.1.maxV1Height c₀.1.minV2Height := by
  have hv1 : SeenV1 c₀ [] = (· ∈ c₀.1.maxV1Height) := by
    funext h
    simp [SeenV1]
  have hv2 : SeenV2 c₀ [] = (· ∈ c₀.1.minV2Height) := by
    funext h
    simp [SeenV2]
  exact ⟨by rw [hv1]; exact isMaximum_self _, by rw [hv2]; exact isMinimum_self _⟩

/-- One observation more. -/
theorem concat (h : Bounds c₀ os v1 v2) (o : Observed) :
    Bounds c₀ (os ++ [o]) (laterOf v1 o.maxV1Height) (earlierOf v2 o.minV2Height) := by
  have hv1 : SeenV1 c₀ (os ++ [o]) = fun x => SeenV1 c₀ os x ∨ x ∈ o.maxV1Height := by
    funext x
    simp [SeenV1, or_and_right, exists_or, or_assoc]
  have hv2 : SeenV2 c₀ (os ++ [o]) = fun x => SeenV2 c₀ os x ∨ x ∈ o.minV2Height := by
    funext x
    simp [SeenV2, or_and_right, exists_or, or_assoc]
  exact ⟨by rw [hv1]; exact h.maximum.laterOf (isMaximum_self
    _), by rw [hv2]; exact h.minimum.earlierOf (isMinimum_self _)⟩

/-- Whatever was seen has a largest and a smallest height. -/
theorem exist (c₀ : Accepted sha) (os : List Observed) : ∃ v1 v2, Bounds c₀ os v1 v2 := by
  induction os using List.reverseRecOn with
  | nil => exact ⟨_, _, start c₀⟩
  | append_singleton os o ih =>
    obtain ⟨v1, v2, h⟩ := ih
    exact ⟨_, _, h.concat o⟩

theorem unique {w1 w2 : Option PositiveInt} (h : Bounds c₀ os v1 v2) (h' : Bounds c₀ os w1 w2) :
    v1 = w1 ∧ v2 = w2 :=
  ⟨h.maximum.unique h'.maximum, h.minimum.unique h'.minimum⟩

theorem meets_iff (h : Bounds c₀ os v1 v2) : Meets c₀ os ↔ versionsConflict v1 v2 := by
  constructor
  · rintro ⟨w1, w2, hw, hmeets⟩
    obtain ⟨rfl, rfl⟩ := h.unique hw
    exact hmeets
  · exact fun hmeets => ⟨v1, v2, h, hmeets⟩

/-- The order in which the heights were seen does not matter. -/
theorem perm (h : Bounds c₀ os v1 v2) (hperm : os.Perm os') : Bounds c₀ os' v1 v2 := by
  have hv1 : SeenV1 c₀ os' = SeenV1 c₀ os := by
    funext x
    simp only [SeenV1, hperm.mem_iff]
  have hv2 : SeenV2 c₀ os' = SeenV2 c₀ os := by
    funext x
    simp only [SeenV2, hperm.mem_iff]
  exact ⟨by rw [hv1]; exact h.maximum, by rw [hv2]; exact h.minimum⟩

end Bounds

theorem Meets.perm (h : Meets c₀ os) (hperm : os.Perm os') : Meets c₀ os' := by
  obtain ⟨v1, v2, hbounds, hmeets⟩ := h
  exact ⟨v1, v2, hbounds.perm hperm, hmeets⟩

/-- Heights that met still meet when more is seen. -/
theorem Meets.append (h : Meets c₀ os) (os' : List Observed) : Meets c₀ (os ++ os') := by
  obtain ⟨v1, v2, hbounds, hmeets⟩ := h
  obtain ⟨w1, w2, hall⟩ := Bounds.exist c₀ (os ++ os')
  obtain ⟨h1, h2, hseen1, hseen2, hle⟩ :=
    (versionsConflict_iff hbounds.maximum hbounds.minimum).mp hmeets
  refine ⟨w1, w2, hall, (versionsConflict_iff hall.maximum hall.minimum).mpr ⟨h1, h2, ?_, ?_, hle⟩⟩
  · exact hseen1.imp_right fun ⟨o, ho, hh⟩ => ⟨o, List.mem_append_left _ ho, hh⟩
  · exact hseen2.imp_right fun ⟨o, ho, hh⟩ => ⟨o, List.mem_append_left _ ho, hh⟩

/-! ### Runs -/

/-- One observation, with the revision that the state has. -/
def Joins (c : Accepted sha) (o : Observed) (c' : Accepted sha) : Prop :=
  ∃ d, observe c o = .ok ⟨c', d⟩

/-- The heights have not met, and the state has the bounds of all of them; or it has those of
the observations before the one with which they met, and is in quarantine. -/
inductive Joined (c₀ : Accepted sha) : List Observed → Accepted sha → Prop
  | apart (os : List Observed) (c : Accepted sha) (hstatus : c.1.status ≠ .QUARANTINED)
      (hmeets : ¬ Meets c₀ os) (hbounds : Bounds c₀ os c.1.maxV1Height c.1.minV2Height) :
      Joined c₀ os c
  | met (before : List Observed) (o : Observed) (after : List Observed) (c : Accepted sha)
      (hstatus : c.1.status = .QUARANTINED)
      (hreason : c.1.quarantine = some .MOMENTUM_VERSION_CONFLICT) (hbefore : ¬ Meets c₀ before)
      (hmeets : Meets c₀ (before ++ [o]))
      (hbounds : Bounds c₀ before c.1.maxV1Height c.1.minV2Height) :
      Joined c₀ (before ++ o :: after) c

/-- At first nothing meets. -/
theorem joined_start (h : c₀.1.status ≠ .QUARANTINED) : Joined c₀ [] c₀ := by
  refine .apart [] c₀ h ?_ (.start c₀)
  rw [(Bounds.start c₀).meets_iff]
  rintro ⟨v1, hv1, v2, hv2, hle⟩
  exact absurd (c₀.valid.bounds v1 hv1 v2 hv2) (not_lt.mpr hle)

/-- One observation. -/
theorem Joined.step (h : Joined c₀ os c) (hstep : Joins c o c') : Joined c₀ (os ++ [o]) c' := by
  obtain ⟨d, hobserve⟩ := hstep
  have hobserves := observe_ok hobserve
  cases h with
  | met before o' after c hstatus hreason hbefore hmeets hbounds =>
    rw [List.append_assoc, List.cons_append]
    cases hobserves with
    | stays => exact .met before o' (after ++ [o]) c hstatus hreason hbefore hmeets hbounds
    | meets r c' hr hnot => exact absurd hstatus hnot
    | absorbed hnot => exact absurd hstatus hnot
    | joined r c' hr hnot => exact absurd hstatus hnot
  | apart os c hstatus hmeets hbounds =>
    have hafter := (hbounds.concat o).meets_iff
    cases hobserves with
    | stays hq => exact absurd hq hstatus
    | meets r c' hr _ hconflict hnext =>
      refine .met os o [] c' ?_ ?_ hmeets (hafter.mpr hconflict) ?_
      · rw [hnext]
        rfl
      · rw [hnext]
        rfl
      · rw [hnext]
        exact hbounds
    | absorbed _ hconflict hsame =>
      refine .apart (os ++ [o]) c hstatus (fun hm => hconflict (hafter.mp hm)) ?_
      have hconcat := hbounds.concat o
      rwa [hsame.1, hsame.2] at hconcat
    | joined r c' hr _ hconflict hdiffers hnext =>
      refine .apart (os ++ [o]) c' ?_ (fun hm => hconflict (hafter.mp hm)) ?_
      · rw [hnext]
        exact hstatus
      · rw [hnext]
        exact hbounds.concat o

/-- A whole run. -/
theorem run_joined (hstatus : c₀.1.status ≠ .QUARANTINED) (hrun : Run Joins c₀ os c) :
    Joined c₀ os c :=
  hrun.history (fun _ _ _ _ h hstep => h.step hstep) (joined_start hstatus)

/-- Quarantine is where the heights that were seen meet. -/
theorem Joined.quarantined_iff (h : Joined c₀ os c) : c.1.status = .QUARANTINED ↔ Meets c₀ os := by
  cases h with
  | apart _ _ hstatus hmeets _ => exact ⟨fun hq => absurd hq hstatus, fun hm => absurd hm hmeets⟩
  | met before o after c hstatus _ _ hmeets _ =>
    refine ⟨fun _ => ?_, fun _ => hstatus⟩
    have hall := hmeets.append after
    rwa [List.append_assoc] at hall

/-- Heights that have not met are those of the state. -/
theorem Joined.bounds (h : Joined c₀ os c) (hm : ¬ Meets c₀ os) :
    Bounds c₀ os c.1.maxV1Height c.1.minV2Height := by
  have hq := h.quarantined_iff
  cases h with
  | apart _ _ _ _ hbounds => exact hbounds
  | met _ _ _ _ hstatus => exact absurd (hq.mp hstatus) hm

/-- In quarantine the heights are those of before they met. -/
theorem Joined.kept (h : Joined c₀ os c) (hq : c.1.status = .QUARANTINED) :
    c.1.quarantine = some .MOMENTUM_VERSION_CONFLICT ∧ ∃ before o after, os = before ++ o :: after
      ∧ ¬ Meets c₀ before ∧ Meets c₀ (before ++ [o])
      ∧ Bounds c₀ before c.1.maxV1Height c.1.minV2Height := by
  cases h with
  | apart _ _ hstatus => exact absurd hq hstatus
  | met before o after _ _ hreason hbefore hmeets hbounds =>
    exact ⟨hreason, before, o, after, rfl, hbefore, hmeets, hbounds⟩

/-- An observation uses at most one revision. -/
theorem Joins.revision (h : Joins c o c') : c'.1.revision.1 ≤ c.1.revision.1 + 1 := by
  obtain ⟨d, hobserve⟩ := h
  cases observe_ok hobserve with
  | stays => omega
  | absorbed => omega
  | meets r _ hr _ _ hnext =>
    rw [hnext]
    exact le_of_eq hr
  | joined r _ hr _ _ _ hnext =>
    rw [hnext]
    exact le_of_eq hr

/-- The observations are all taken while there are revisions for them. -/
theorem exists_run (c : Accepted sha) (os : List Observed)
    (h : c.1.revision.1 + os.length ≤ 9007199254740991) : ∃ c', Run Joins c os c' := by
  induction os generalizing c with
  | nil => exact ⟨c, .nil c⟩
  | cons o os ih =>
    rw [List.length_cons] at h
    have hroom : ¬ Exhausted c o := fun hexhausted => by
      have := hexhausted.1
      omega
    obtain ⟨⟨c', d⟩, hobserve⟩ := observe_taken hroom
    have hstep : Joins c o c' := ⟨d, hobserve⟩
    have hrevision := hstep.revision
    obtain ⟨c'', hrun⟩ := ih c' (by omega)
    exact ⟨c'', .cons hstep hrun⟩

/-- What was taken into account is unchanged when it is observed again. -/
theorem observe_absorbed (hstatus : c.1.status ≠ .QUARANTINED)
    (hbounds : Bounds c₀ os c.1.maxV1Height c.1.minV2Height) (hmeets : ¬ Meets c₀ os)
    (hv1 : ∀ h ∈ o.maxV1Height, SeenV1 c₀ os h) (hv2 : ∀ h ∈ o.minV2Height, SeenV2 c₀ os h) :
    observe c o = .ok ⟨c, .UNCHANGED⟩ := by
  have hsame1 := laterOf_eq_left hbounds.maximum hv1
  have hsame2 := earlierOf_eq_left hbounds.minimum hv2
  have hconflict : ¬ versionsConflict (laterOf c.1.maxV1Height o.maxV1Height)
      (earlierOf c.1.minV2Height o.minV2Height) := by
    rw [hsame1, hsame2, ← hbounds.meets_iff]
    exact hmeets
  have hroom : ¬ Exhausted c o := by
    rintro ⟨_, _, hm | hdiffers⟩
    · exact hconflict hm
    · exact hdiffers ⟨hsame1, hsame2⟩
  obtain ⟨outcome, hobserve⟩ := observe_taken hroom
  rw [hobserve]
  cases observe_ok hobserve with
  | stays hq => exact absurd hq hstatus
  | meets r c' _ _ hm => exact absurd hm hconflict
  | absorbed => rfl
  | joined r c' _ _ _ hdiffers => exact absurd ⟨hsame1, hsame2⟩ hdiffers

/-- In quarantine an observation is not looked at. -/
theorem observe_quarantined (hstatus : c.1.status = .QUARANTINED) (o : Observed) :
    observe c o = .ok ⟨c, .QUARANTINED⟩ := by
  obtain ⟨outcome, hobserve⟩ :=
    observe_taken (fun hexhausted : Exhausted c o => hexhausted.2.1 hstatus)
  rw [hobserve]
  cases observe_ok hobserve with
  | stays => rfl
  | meets r c' _ hnot => exact absurd hstatus hnot
  | absorbed hnot => exact absurd hstatus hnot
  | joined r c' _ hnot => exact absurd hstatus hnot

/-- Observations that are handed to a state outside of quarantine, each with the revision of
that moment. They are all taken while there are revisions left. The state ends in quarantine
if and only if the heights meet after some of them, and then for that reason; otherwise it
has the largest and the smallest of the heights that were seen, and seeing them again changes
nothing. In quarantine it has those of the observations before the first with which they
meet. In another order the observations end in quarantine too, or with the same heights. -/
theorem versions_joined (hstatus : c₀.1.status ≠ .QUARANTINED) (os : List Observed) :
    (c₀.1.revision.1 + os.length ≤ 9007199254740991 → ∃ c, Run Joins c₀ os c)
      ∧ ∀ c, Run Joins c₀ os c →
        (c.1.status = .QUARANTINED ↔ ∃ before after, os = before ++ after ∧ Meets c₀ before)
        ∧ (c.1.status ≠ .QUARANTINED → Bounds c₀ os c.1.maxV1Height c.1.minV2Height
          ∧ ∀ o : Observed, (∀ h ∈ o.maxV1Height, SeenV1 c₀ os h) →
          (∀ h ∈ o.minV2Height, SeenV2 c₀ os h) →
            observe c o = .ok ⟨c, .UNCHANGED⟩)
        ∧ (c.1.status = .QUARANTINED → c.1.quarantine = some .MOMENTUM_VERSION_CONFLICT
          ∧ (∃ before o after, os = before ++ o :: after ∧ ¬ Meets c₀ before
            ∧ Meets c₀ (before ++ [o])
            ∧ Bounds c₀ before c.1.maxV1Height c.1.minV2Height)
          ∧ ∀ o, observe c o = .ok ⟨c, .QUARANTINED⟩)
        ∧ ∀ os' c', os.Perm os' → Run Joins c₀ os' c' →
          c.1.status = .QUARANTINED ∧ c'.1.status = .QUARANTINED
            ∨ c.1.status ≠ .QUARANTINED ∧ c'.1.status ≠ .QUARANTINED ∧ c'.1.maxV1Height
            = c.1.maxV1Height
              ∧ c'.1.minV2Height = c.1.minV2Height := by
  refine ⟨exists_run c₀ os, fun c hrun => ?_⟩
  have hjoined := run_joined hstatus hrun
  refine ⟨?_, fun hq => ?_, fun hq => ?_, fun os' c' hperm hrun' => ?_⟩
  · rw [hjoined.quarantined_iff]
    refine ⟨fun hm => ⟨os, [], (List.append_nil os).symm, hm⟩, ?_⟩
    rintro ⟨before, after, rfl, hm⟩
    exact hm.append after
  · have hm : ¬ Meets c₀ os := fun h => hq (hjoined.quarantined_iff.mpr h)
    have hbounds := hjoined.bounds hm
    exact ⟨hbounds, fun o hv1 hv2 => observe_absorbed hq hbounds hm hv1 hv2⟩
  · obtain ⟨hreason, hkept⟩ := hjoined.kept hq
    exact ⟨hreason, hkept, observe_quarantined hq⟩
  · have hjoined' := run_joined hstatus hrun'
    by_cases hm : Meets c₀ os
    · exact .inl ⟨hjoined.quarantined_iff.mpr hm, hjoined'.quarantined_iff.mpr (hm.perm hperm)⟩
    · have hm' : ¬ Meets c₀ os' := fun h => hm (h.perm hperm.symm)
      refine .inr ⟨fun hq => hm (hjoined.quarantined_iff.mp hq),
        fun hq => hm' (hjoined'.quarantined_iff.mp hq), ?_⟩
      obtain ⟨h1, h2⟩ := ((hjoined.bounds hm).perm hperm).unique (hjoined'.bounds hm')
      exact ⟨h1.symm, h2.symm⟩

/-! ### Two heights that meet -/

namespace Sample

/-- Version 1 was seen at height 5. -/
def sawV1 : Observed :=
  ⟨some (evaluated 5), none, by simp, by rintro ⟨v1, _, v2, hv2, _⟩; cases hv2⟩

/-- Version 2 was seen at height 5 too. -/
def sawV2 : Observed := ⟨none, some (evaluated 5), by simp, by rintro ⟨v1, hv1, _⟩; cases hv1⟩

end Sample

/-- The two heights meet. -/
theorem Sample.meets : Meets (Sample.created .standard) [Sample.sawV1, Sample.sawV2] :=
  ⟨_, _, ((Bounds.start _).concat Sample.sawV1).concat Sample.sawV2, ⟨5, by decide⟩, rfl,
    ⟨5, by decide⟩, rfl, le_refl _⟩

/-- The one height, and then the other. -/
theorem versions_joined_sample :
    (∃ c, Run Joins (Sample.created .standard) [Sample.sawV1, Sample.sawV2] c)
      ∧ ∀ c, Run Joins (Sample.created .standard) [Sample.sawV1, Sample.sawV2] c → c.1.status
      = .QUARANTINED
        ∧ c.1.quarantine = some .MOMENTUM_VERSION_CONFLICT := by
  obtain ⟨hexists, hruns⟩ :=
    @versions_joined _ (Sample.created .standard) (by decide) [Sample.sawV1, Sample.sawV2]
  refine ⟨hexists (by decide), fun c hrun => ?_⟩
  obtain ⟨hiff, _, hquarantined, _⟩ := hruns c hrun
  have hstatus := hiff.mpr ⟨_, [], rfl, Sample.meets⟩
  exact ⟨hstatus, (hquarantined hstatus).1⟩

/-- The state in quarantine does not have the smallest version 2 height that was seen, and an
observation that was made before does not leave it as unchanged. -/
theorem quarantine_keeps : ∃ c, Run Joins (Sample.created .standard) [Sample.sawV1, Sample.sawV2] c
    ∧ ¬ IsMinimum (SeenV2 (Sample.created .standard) [Sample.sawV1, Sample.sawV2]) c.1.minV2Height
    ∧ observe c Sample.sawV2 ≠ .ok ⟨c, .UNCHANGED⟩ := by
  have hstart : (Sample.created .standard).1.status ≠ .QUARANTINED := by decide
  obtain ⟨c, hrun⟩ := exists_run (Sample.created .standard) [Sample.sawV1, Sample.sawV2] (by decide)
  have hstatus := (run_joined hstart hrun).quarantined_iff.mpr Sample.meets
  refine ⟨c, hrun, fun hminimum => ?_, ?_⟩
  · have hseen : SeenV2 (Sample.created .standard) [Sample.sawV1, Sample.sawV2] ⟨5, by decide⟩ :=
      .inr ⟨Sample.sawV2, by simp, rfl⟩
    obtain ⟨_, before, o, after, heq, _, _, hbounds⟩ := (run_joined hstart hrun).kept hstatus
    -- no version 2 was seen before the heights met
    have hunseen : ∀ h, ¬ SeenV2 (Sample.created .standard) before h := by
      intro h hh
      rcases before with _ | ⟨b, bs⟩
      · exact hh.elim nofun fun ⟨o, ho, _⟩ => nomatch ho
      · obtain ⟨rfl, hrest⟩ := List.cons.inj heq
        obtain rfl : bs = [] := by
          cases bs with
          | nil => rfl
          | cons x xs =>
            obtain ⟨_, hnil⟩ := List.cons.inj hrest
            simp at hnil
        rcases hh with hh | ⟨o, ho, hh⟩
        · cases hh
        · rw [List.mem_singleton.mp ho] at hh
          cases hh
    cases hv2 : c.1.minV2Height with
    | none =>
      rw [hv2] at hminimum
      exact hminimum _ hseen
    | some m =>
      have hmin := hbounds.minimum
      rw [hv2] at hmin
      exact hunseen m hmin.1
  · rw [observe_quarantined hstatus]
    nofun

end Observer
end ZenonX402
