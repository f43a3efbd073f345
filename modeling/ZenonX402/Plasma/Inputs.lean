/-
# What the endpoints are read as

The readings of the normalizer as statements about the input as it is handed in: a record with
one of its fields changed, a snapshot of the sporks, an endpoint that is there or not. What is
observed of two endpoints that are there is what they are answered (`observe_class`). Endpoints
that list the sporks in another order are observed in the same class (`observe_listed`), and so
are endpoints that are exchanged, exactly if they do not fail alone, each in its own way
(`observe_exchanged`).

Key definitions: `under`, `edit`, `without`, `listed`, `exchanged`.
Key theorems: `snapshotEndpoint_ok`, `observe_ok`, `observe_class`, `observe_listed`,
`observe_exchanged`.
-/
import ZenonX402.Plasma.Agreement

namespace ZenonX402
namespace Plasma
namespace Observation

open Js

/-! ### Inputs that are edited -/

/-- What is under a key. -/
def under (key : String) : Value → Value
  | .obj fs => (fs.lookup key).getD .undefined
  | _ => .undefined

/-- The value with what is under a key changed. -/
def edit (key : String) (f : Value → Value) (v : Value) : Value := match v with
  | .obj fs => .obj (replace fs key (f (under key v)))
  | v => v

/-- The value without a key. -/
def without (key : String) : Value → Value
  | .obj fs => .obj (fs.filter fun f => decide (f.1 ≠ key))
  | v => v

variable {v : Value} {names : List String} {key : String} {get : String → Value}

theorem record_ok : record v names = .ok get ↔ ∃ fs, v = .obj fs ∧ (fs.map Prod.fst).Perm names
    ∧ get = fun k => under k v := by
  cases v with
  | obj fs =>
    rw [record_obj]
    by_cases h : (fs.map Prod.fst).Perm names
    · rw [if_pos h, Except.ok.injEq]
      exact ⟨fun hget => ⟨fs, rfl, h, hget.symm⟩, fun ⟨_, _, _, hget⟩ => hget.symm⟩
    · rw [if_neg h]
      constructor
      · intro hget
        cases hget
      · rintro ⟨gs, hgs, hp, -⟩
        obtain rfl := Value.obj.inj hgs
        exact absurd hp h
  | _ =>
    constructor
    · intro h
      cases h
    · rintro ⟨fs, h, -⟩
      cases h

theorem record_edit {f : Value → Value} (h : record v names = .ok get) (hk : key ∈ names) :
    ∃ got, record (edit key f v) names = .ok got ∧ got key = f (get key) ∧ ∀ k ≠ key,
    got k = get k := by
  obtain ⟨fs, rfl, hp, rfl⟩ := record_ok.mp h
  refine ⟨_, record_ok.mpr ⟨_, rfl, by rw [keys_replace]; exact hp, rfl⟩, ?_, fun k hne => ?_⟩
  · obtain ⟨_, hmem, hkey⟩ := List.mem_map.mp (hp.mem_iff.mpr hk)
    obtain ⟨found, hfound⟩ :=
      Option.isSome_iff_exists.mp (List.lookup_isSome_iff.mpr ⟨_, hmem, beq_iff_eq.mpr hkey.symm⟩)
    change ((replace fs key _).lookup key).getD _ = _
    rw [lookup_replace, if_pos rfl, hfound]
    rfl
  · change ((replace fs key _).lookup k).getD _ = _
    rw [lookup_replace, if_neg hne]
    rfl

theorem lookup_without {fs : List (String × Value)} {k : String} (h : k ≠ key) :
    (fs.filter fun f => decide (f.1 ≠ key)).lookup k = fs.lookup k := by
  induction fs with
  | nil => rfl
  | cons f fs ih =>
    obtain ⟨k', v⟩ := f
    rw [List.filter_cons]
    by_cases hk : k' = key
    · rw [if_neg (by simp [hk]), ih, List.lookup_cons, hk, beq_false_of_ne h]
    · rw [if_pos (by simp [hk]), List.lookup_cons, List.lookup_cons, ih]

theorem record_without (h : record v names = .ok get) :
    ∃ got, record (without key v) (names.filter fun k => decide (k ≠ key)) = .ok got
    ∧ ∀ k ≠ key, got k = get k := by
  obtain ⟨fs, rfl, hp, rfl⟩ := record_ok.mp h
  refine ⟨_, record_ok.mpr ⟨_, rfl, ?_, rfl⟩, fun k hne => ?_⟩
  · have hmap : (fs.filter fun f => decide (f.1 ≠ key)).map Prod.fst = (fs.map Prod.fst).filter
        fun k => decide (k ≠ key) := by
      rw [List.filter_map]
      rfl
    rw [hmap]
    exact hp.filter _
  · change ((fs.filter _).lookup k).getD _ = _
    rw [lookup_without hne]
    rfl

/-! ### What is read of an endpoint -/

variable {fourField : Bool} {e : Endpoint} {l r : Option Endpoint}

theorem snapshotSporks_ok {s : Sporks} :
    snapshotSporks v = .ok s ↔ ∃ get entries, record v ["count", "list"] = .ok get
    ∧ (within 0 4294967295).decode (get "count") = .ok s.count ∧ get "list" = .arr entries
    ∧ if MAXIMUM_SPORK_SNAPSHOT_ENTRIES < s.count.1
        ∨ MAXIMUM_SPORK_SNAPSHOT_ENTRIES < entries.length then s.list = none
      else ∃ list, snapshotSpork.decodeAll entries = .ok list ∧ s.list = some (sortById list) := by
  unfold snapshotSporks
  simp only [bind_ok]
  refine exists_congr fun get => ?_
  constructor
  · rintro ⟨hget, count, hcount, h⟩
    rcases hlist : get "list" with _ | _ | _ | _ | _ | _ | _ | entries | _ <;>
      rw [hlist] at h <;> try cases h
    dsimp only at h
    refine ⟨entries, hget, ?_⟩
    split at h
    next hmany =>
      obtain rfl := Except.ok.inj h
      exact ⟨hcount, rfl, by rw [if_pos hmany]⟩
    next hfew =>
      obtain ⟨list, hread, h⟩ := bind_ok.mp h
      obtain rfl := Except.ok.inj h
      exact ⟨hcount, rfl, by rw [if_neg hfew]; exact ⟨list, hread, rfl⟩⟩
  · rintro ⟨entries, hget, hcount, hlist, h⟩
    refine ⟨hget, s.count, hcount, ?_⟩
    rw [hlist]
    obtain ⟨count, list⟩ := s
    dsimp only at h ⊢
    split_ifs at h ⊢ with hmany
    · rw [h]
    · obtain ⟨read, hread, hsorted⟩ := h
      exact bind_ok.mpr ⟨read, hread, by rw [hsorted]⟩

theorem snapshotEndpoint_ok : snapshotEndpoint fourField v = .ok e ↔ ∃ get,
    record v ENDPOINT_FIELDS = .ok get
    ∧ snapshotFrontier.decode (get "beforeFrontier") = .ok e.beforeFrontier
    ∧ snapshotProfileEvidence.decode (get "profileEvidence") = .ok (e.profileEvidence, ())
    ∧ snapshotSporks (get "sporks") = .ok e.sporks
    ∧ snapshotPlasmaVariables.decode (get "plasmaVariables") = .ok e.plasmaVariables
    ∧ snapshotRpcObservation (get "rpcObservation") fourField = .ok e.rpcObservation
    ∧ snapshotFrontier.decode (get "afterFrontier") = .ok e.afterFrontier := by
  unfold snapshotEndpoint
  simp only [bind_ok]
  refine exists_congr fun get => ?_
  constructor
  · rintro ⟨hget, before, hbefore, ⟨evidence, _⟩, hevidence, sporks, hsporks, plasma, hplasma, rpc,
      hrpc, after, hafter, h⟩
    obtain rfl := Except.ok.inj h
    exact ⟨hget, hbefore, hevidence, hsporks, hplasma, hrpc, hafter⟩
  · rintro ⟨hget, hbefore, hevidence, hsporks, hplasma, hrpc, hafter⟩
    exact ⟨hget, _, hbefore, _, hevidence, _, hsporks, _, hplasma, _, hrpc, _, hafter, rfl⟩

theorem snapshotEndpointArray_ok : snapshotEndpointArray v fourField = .ok (l, r) ↔ ∃ a b,
    v = .arr [a, b]
    ∧ snapshotNullableEndpoint fourField a = .ok l
    ∧ snapshotNullableEndpoint fourField b = .ok r := by
  unfold snapshotEndpointArray
  split
  next a b =>
    simp only [bind_ok, Except.ok.injEq, Prod.mk.injEq]
    constructor
    · rintro ⟨left, hleft, right, hright, rfl, rfl⟩
      exact ⟨a, b, rfl, hleft, hright⟩
    · rintro ⟨a', b', hv, hleft, hright⟩
      simp only [Value.arr.injEq, List.cons.injEq, and_true] at hv
      obtain ⟨rfl, rfl⟩ := hv
      exact ⟨l, hleft, r, hright, rfl, rfl⟩
  next hother =>
    constructor
    · intro h
      cases h
    · rintro ⟨a, b, hv, -⟩
      exact absurd hv (hother a b)

/-- An endpoint that is there, and one that is not. -/
theorem snapshotNullableEndpoint_ok : snapshotNullableEndpoint fourField v = .ok l
    ↔ v = .null ∧ l = none ∨ ∃ e, snapshotEndpoint fourField v = .ok e ∧ l = some e := by
  have hnull : ∀ e, snapshotEndpoint fourField .null ≠ .ok e := fun e h => by
    obtain ⟨get, hget, -⟩ := snapshotEndpoint_ok.mp h
    obtain ⟨fs, hfs, -⟩ := record_ok.mp hget
    cases hfs
  unfold snapshotNullableEndpoint
  split
  · constructor
    · intro h
      exact .inl ⟨rfl, (Except.ok.inj h).symm⟩
    · rintro (⟨-, rfl⟩ | ⟨e, he, -⟩)
      · rfl
      · exact absurd he (hnull e)
  next hne =>
    rw [map_ok]
    constructor
    · rintro ⟨e, he, rfl⟩
      exact .inr ⟨e, he, rfl⟩
    · rintro (⟨h, -⟩ | ⟨e, he, rfl⟩)
      · exact absurd h hne
      · exact ⟨e, he, rfl⟩

/-! ### What is observed -/

variable {profile : ExpectedProfile} {compiled : CompiledSporks} {answer : Answer}

theorem observe_ok : observe profile compiled fourField v = .ok answer ↔
    (∃ left right, snapshotEndpointArray v fourField = .ok (some left, some right)
      ∧ agree profile compiled.1 left right = .ok answer)
      ∨ ∃ l r, snapshotEndpointArray v fourField = .ok (l, r) ∧ (l = none ∨ r = none)
        ∧ answer = .failure .UNAVAILABLE .ENDPOINT_DATA_UNAVAILABLE := by
  unfold observe
  simp only [bind_ok, failWith_ok, Prod.exists]
  constructor
  · rintro ⟨l, r, hread, h⟩
    rcases l with _ | left
    · exact .inr ⟨none, r, hread, .inl rfl, (Except.ok.inj h).symm⟩
    · rcases r with _ | right
      · exact .inr ⟨some left, none, hread, .inr rfl, (Except.ok.inj h).symm⟩
      · exact .inl ⟨left, right, hread, h⟩
  · rintro (⟨left, right, hread, h⟩ | ⟨l, r, hread, hnone, rfl⟩)
    · exact ⟨some left, some right, hread, h⟩
    · refine ⟨l, r, hread, ?_⟩
      rcases hnone with rfl | rfl
      · rfl
      · cases l <;> rfl

/-- What is observed of endpoints that are both there is what they are answered. -/
theorem observe_class {k : Classification} (hk : k ≠ .UNAVAILABLE) :
    (∃ answer, observe profile compiled fourField v = .ok answer ∧ answer.classification = k)
      ↔ ∃ left right, snapshotEndpointArray v fourField = .ok (some left, some right)
        ∧ ∃ answer, agree profile compiled.1 left right = .ok answer
        ∧ answer.classification = k := by
  constructor
  · rintro ⟨answer, h, hclass⟩
    rcases observe_ok.mp h with ⟨left, right, hread, h⟩ | ⟨l, r, -, -, rfl⟩
    · exact ⟨left, right, hread, answer, h, hclass⟩
    · exact absurd hclass.symm hk
  · rintro ⟨left, right, hread, answer, h, hclass⟩
    exact ⟨answer, observe_ok.mpr (.inl ⟨left, right, hread, h⟩), hclass⟩

/-- The entries of an array in another order. -/
def inOrder (order : List Value → List Value) : Value → Value
  | .arr entries => .arr (order entries)
  | v => v

/-- An endpoint with its list of sporks in another order. -/
def listed (order : List Value → List Value) : Value → Value :=
  edit "sporks" (edit "list" (inOrder order))

/-- The endpoints, each changed in its way. -/
def sides (f g : Value → Value) : Value → Value
  | .arr [a, b] => .arr [f a, g b]
  | v => v

/-- The endpoints exchanged. -/
def exchanged : Value → Value
  | .arr [a, b] => .arr [b, a]
  | v => v

section

variable {order order' : List Value → List Value}

theorem snapshotSporks_listed {s : Sporks} (horder : ∀ entries, (order entries).Perm entries)
    (h : snapshotSporks v = .ok s) :
    ∃ s', snapshotSporks (edit "list" (inOrder order) v) = .ok s' ∧ s'.count = s.count
      ∧ (s.list = none ∧ s'.list = none ∨ ∃ list list', s.list = some (sortById list)
        ∧ s'.list = some (sortById list')
        ∧ list.Perm list') := by
  obtain ⟨get, entries, hget, hcount, hlist, h⟩ := snapshotSporks_ok.mp h
  obtain ⟨got, hgot, hlist', hrest⟩ := @record_edit _ _ "list" _ (inOrder order) hget (by decide)
  have hcount' : (within 0 4294967295).decode (got "count") = .ok s.count := by
    rw [hrest "count" (by decide)]
    exact hcount
  have hentries : got "list" = .arr (order entries) := by
    rw [hlist', hlist]
    rfl
  have hlength : (order entries).length = entries.length := (horder entries).length_eq
  split_ifs at h with hmany
  · refine ⟨⟨s.count, none⟩, snapshotSporks_ok.mpr ⟨got, _, hgot, hcount', hentries, ?_⟩, rfl,
      .inl ⟨h, rfl⟩⟩
    rw [hlength, if_pos hmany]
  · obtain ⟨list, hread, hsorted⟩ := h
    obtain ⟨list', hread', hperm⟩ := snapshotSpork.decodeAll_perm (horder entries).symm hread
    refine ⟨⟨s.count, some (sortById list')⟩,
      snapshotSporks_ok.mpr ⟨got, _, hgot, hcount', hentries, ?_⟩, rfl,
      .inr ⟨list, list', hsorted, rfl, hperm⟩⟩
    rw [hlength, if_neg hmany]
    exact ⟨list', hread', rfl⟩

theorem snapshotEndpoint_listed (horder : ∀ entries, (order entries).Perm entries)
    (h : snapshotEndpoint fourField v = .ok e) :
    ∃ e', snapshotEndpoint fourField (listed order v) = .ok e' ∧ Like e e' := by
  obtain ⟨get, hget, hbefore, hevidence, hsporks, hplasma, hrpc, hafter⟩ := snapshotEndpoint_ok.mp h
  obtain ⟨got, hgot, hsporks', hrest⟩ :=
    @record_edit _ _ "sporks" _ (edit "list" (inOrder order)) hget (by decide)
  obtain ⟨s', hs', hcount, hlist⟩ := snapshotSporks_listed horder hsporks
  refine ⟨{ e with sporks := s' }, snapshotEndpoint_ok.mpr ⟨got, hgot, ?_⟩, rfl, hcount, hlist⟩
  rw [hrest "beforeFrontier" (by decide), hrest "profileEvidence" (by decide),
    hrest "plasmaVariables" (by decide), hrest "rpcObservation" (by decide),
    hrest "afterFrontier" (by decide), hsporks']
  exact ⟨hbefore, hevidence, hs', hplasma, hrpc, hafter⟩

/-- An endpoint whose list is in another order is there if it was. -/
theorem nullable_listed (horder : ∀ entries, (order entries).Perm entries)
    (h : snapshotNullableEndpoint fourField v = .ok l) :
    ∃ l', snapshotNullableEndpoint fourField (listed order v) = .ok l' ∧ (l = none ∧ l' = none
      ∨ ∃ e e', l = some e ∧ l' = some e' ∧ Like e e') := by
  rcases snapshotNullableEndpoint_ok.mp h with ⟨rfl, rfl⟩ | ⟨e, he, rfl⟩
  · exact ⟨none, rfl, .inl ⟨rfl, rfl⟩⟩
  · obtain ⟨e', he', hlike⟩ := snapshotEndpoint_listed horder he
    exact ⟨some e', snapshotNullableEndpoint_ok.mpr (.inr ⟨e', he', rfl⟩),
      .inr ⟨e, e', rfl, rfl, hlike⟩⟩

theorem observe_listed (horder : ∀ entries, (order entries).Perm entries)
    (horder' : ∀ entries, (order' entries).Perm entries)
    (h : observe profile compiled fourField v = .ok answer) :
    ∃ answer', observe profile compiled fourField (sides (listed order) (listed order') v)
      = .ok answer'
      ∧ answer'.classification = answer.classification := by
  rcases observe_ok.mp h with ⟨left, right, hread, hagree⟩ | ⟨l, r, hread, hnone, rfl⟩
  · obtain ⟨a, b, rfl, ha, hb⟩ := snapshotEndpointArray_ok.mp hread
    obtain ⟨l', hl', hleft⟩ := nullable_listed horder ha
    obtain ⟨r', hr', hright⟩ := nullable_listed horder' hb
    rcases hleft with ⟨hno, -⟩ | ⟨e, left', he, rfl, hlikeLeft⟩
    · cases hno
    · rcases hright with ⟨hno, -⟩ | ⟨g, right', hg, rfl, hlikeRight⟩
      · cases hno
      · obtain rfl := Option.some.inj he
        obtain rfl := Option.some.inj hg
        obtain ⟨answer', h', hclass⟩ := agree_like hlikeLeft hlikeRight hagree
        exact ⟨answer', observe_ok.mpr
          (.inl ⟨left', right', snapshotEndpointArray_ok.mpr ⟨_, _, rfl, hl', hr'⟩, h'⟩), hclass⟩
  · obtain ⟨a, b, rfl, ha, hb⟩ := snapshotEndpointArray_ok.mp hread
    obtain ⟨l', hl', hleft⟩ := nullable_listed horder ha
    obtain ⟨r', hr', hright⟩ := nullable_listed horder' hb
    refine ⟨_, observe_ok.mpr
      (.inr ⟨l', r', snapshotEndpointArray_ok.mpr ⟨_, _, rfl, hl', hr'⟩, ?_, rfl⟩), rfl⟩
    rcases hnone with rfl | rfl
    · rcases hleft with ⟨-, rfl⟩ | ⟨e, _, he, -⟩
      · exact .inl rfl
      · cases he
    · rcases hright with ⟨-, rfl⟩ | ⟨e, _, he, -⟩
      · exact .inr rfl
      · cases he

end

/-- Endpoints that are exchanged are classified as before exactly if they do not fail alone, each in
its own way. -/
theorem observe_exchanged (h : observe profile compiled fourField v = .ok answer) :
    (∃ answer', observe profile compiled fourField (exchanged v) = .ok answer'
      ∧ answer'.classification = answer.classification)
      ↔ ∀ left right, snapshotEndpointArray v fourField = .ok (some left, some right) →
        ∀ f ∈ endpointFailure left, ∀ g ∈ endpointFailure right, f.classification
          = g.classification := by
  rcases observe_ok.mp h with ⟨left, right, hread, hagree⟩ | ⟨l, r, hread, hnone, rfl⟩
  · obtain ⟨a, b, rfl, ha, hb⟩ := snapshotEndpointArray_ok.mp hread
    have hread' : snapshotEndpointArray (exchanged (.arr [a, b])) fourField
        = .ok (some right, some left) :=
      snapshotEndpointArray_ok.mpr ⟨b, a, rfl, hb, ha⟩
    have hswap := agree_swap hagree
    constructor
    · rintro ⟨answer', h', hclass⟩ left' right' hsame
      obtain ⟨rfl, rfl⟩ : left = left' ∧ right = right' := by
        simpa using hread.symm.trans hsame
      refine hswap.mp ⟨answer', ?_, hclass⟩
      rcases observe_ok.mp h' with ⟨x, y, hxy, h'⟩ | ⟨x, y, hxy, hno, -⟩
      · obtain ⟨rfl, rfl⟩ : right = x ∧ left = y := by simpa using hread'.symm.trans hxy
        exact h'
      · obtain ⟨rfl, rfl⟩ : some right = x ∧ some left = y := by simpa using hread'.symm.trans hxy
        rcases hno with hno | hno <;> cases hno
    · intro hsame
      obtain ⟨answer', h', hclass⟩ := hswap.mpr (hsame left right hread)
      exact ⟨answer', observe_ok.mpr (.inl ⟨right, left, hread', h'⟩), hclass⟩
  · obtain ⟨a, b, rfl, ha, hb⟩ := snapshotEndpointArray_ok.mp hread
    refine ⟨fun _ left right hboth => ?_,
      fun _ => ⟨_, observe_ok.mpr (.inr ⟨r, l, snapshotEndpointArray_ok.mpr
      ⟨b, a, rfl, hb, ha⟩, hnone.symm, rfl⟩), rfl⟩⟩
    obtain ⟨rfl, rfl⟩ : l = some left ∧ r = some right := by simpa using hread.symm.trans hboth
    rcases hnone with hno | hno <;> cases hno

end Observation
end Plasma
end ZenonX402
