/-
# The scanner accepts its grammar

A value is accepted exactly if it is one of the grammar and what it counts is within the
limits. The loop of a container is followed once for any meaning of its members (`Fold`): a
member of a nested container is a value, a member of the envelope is what its key asks for.

Key definitions: `KeysAllowed`, `Allowed`, `Fold`, `EnvelopeRead`.
Key theorems: `containerLoop_sound`, `containerLoop_complete`, `containerLoop_turns`, `value_sound`,
`value_complete`, `value_turns`, `fold_envelope`.
-/
import ZenonX402.Lib.Value
import ZenonX402.Zenon.ScannerTokens

namespace ZenonX402
namespace Zenon
namespace Scanner

open CodeUnits Rfc8259
open Js (bind_ok map_ok orReject orReject_ok ite_error_left_ok ite_error_right_ok Gives
  gives_orReject gives_ite gives_map)

/-! ### What is allowed -/

/-- Keys that are all different, short and not reserved. -/
def KeysAllowed (keys : List CodeUnits) : Prop :=
  keys.Nodup ∧ ∀ key ∈ keys, Fits MAX_KEY_BYTES key ∧ isReserved key = false

/-- What is checked of each tree on its own. -/
def Allowed : Tree → Prop
  | .text s => Fits MAX_STRING_BYTES s
  | .container true ts => KeysAllowed (ts.map Prod.fst)
  | _ => True

namespace Counters

/-- What is counted is within the limits. -/
structure Within (k : Counters) : Prop where
  values : k.values ≤ MAX_VALUES
  containers : k.containers ≤ MAX_CONTAINERS
  members : k.members ≤ MAX_MEMBERS

def add (k : Counters) (values containers members : Nat) : Counters :=
  { k with values := k.values + values, containers := k.containers + containers, members := k.members + members }

/-- The counters after a tree. -/
def after (k : Counters) (t : Tree) : Counters := k.add t.values t.containers t.members

theorem within_initial : initial.Within := ⟨by decide, by decide, by decide⟩

theorem countValue_iff {k k' : Counters} (hk : k.Within) :
    k.countValue = some k' ↔ k' = k.add 1 0 0 ∧ k'.Within := by
  unfold countValue
  rw [Option.ite_none_left_eq_some, Nat.not_lt, Option.some.injEq]
  constructor
  · rintro ⟨hmax, rfl⟩
    exact ⟨rfl, hmax, hk.containers, hk.members⟩
  · rintro ⟨rfl, hwithin⟩
    exact ⟨hwithin.values, rfl⟩

theorem countMember_iff {k k' : Counters} (hk : k.Within) :
    k.countMember = some k' ↔ k' = k.add 0 0 1 ∧ k'.Within := by
  unfold countMember
  rw [Option.ite_none_left_eq_some, Nat.not_lt, Option.some.injEq]
  constructor
  · rintro ⟨hmax, rfl⟩
    exact ⟨rfl, hk.values, hk.containers, hmax⟩
  · rintro ⟨rfl, hwithin⟩
    exact ⟨hwithin.members, rfl⟩

theorem countContainer_iff {k k' : Counters} (hk : k.Within) :
    k.countContainer = some k' ↔ k' = k.add 0 1 0 ∧ k'.Within := by
  unfold countContainer
  rw [Option.ite_none_left_eq_some, Nat.not_lt, Option.some.injEq]
  constructor
  · rintro ⟨hmax, rfl⟩
    exact ⟨rfl, hk.values, hmax, hk.members⟩
  · rintro ⟨rfl, hwithin⟩
    exact ⟨hwithin.containers, rfl⟩

end Counters

/-! ### Keys -/

/-- A key that the loop takes after others. -/
def KeyTaken (admits : CodeUnits → Bool) (seen : List CodeUnits) (key : CodeUnits) : Prop :=
  Fits MAX_KEY_BYTES key ∧ isReserved key = false ∧ key ∉ seen ∧ admits key = true

theorem keyTaken_iff {admits : CodeUnits → Bool} {seen : List CodeUnits} {key : CodeUnits} :
    KeyTaken admits seen key ↔ Fits MAX_KEY_BYTES key
      ∧ ¬(isReserved key || seen.contains key || !admits key) = true := by
  simp [KeyTaken, not_or, and_assoc]

theorem memberKey_sound {n : Nat} {object : Bool} {admits : CodeUnits → Bool}
    {seen : List CodeUnits} {a key r : CodeUnits}
    (h : memberKey n object admits seen a = .ok (key, r)) :
    ∃ q, a = q ++ r ∧ Key object key q ∧ (object = true → KeyTaken admits seen key) := by
  cases object with
  | false =>
    obtain ⟨rfl, rfl⟩ := Prod.mk.inj (Except.ok.inj h)
    exact ⟨[], rfl, ⟨rfl, rfl⟩, fun h => nomatch h⟩
  | true =>
    rw [memberKey, if_pos rfl] at h
    obtain ⟨⟨key', b⟩, hstring, hafter⟩ := bind_ok.mp h
    obtain ⟨q, rfl, hq, hfits⟩ := stringValue_sound hstring
    obtain ⟨w, hspace, hw⟩ := whitespace_split b
    obtain ⟨htaken, hcolon⟩ := ite_error_left_ok.mp hafter
    split at hcolon
    · cases hcolon
    next d c hrest =>
      rw [ite_error_right_ok, Except.ok.injEq] at hcolon
      obtain ⟨rfl, heq⟩ := hcolon
      obtain ⟨rfl, rfl⟩ := Prod.mk.inj heq
      refine ⟨q ++ (w ++ [58]), ?_, ⟨q, w, rfl, hq, hw⟩, fun _ => keyTaken_iff.mpr ⟨hfits, htaken⟩⟩
      rw [hspace, hrest]
      simp

theorem memberKey_complete {n : Nat} {object : Bool} {admits : CodeUnits → Bool}
    {seen : List CodeUnits} {key q : CodeUnits} (hq : Key object key q)
    (hkey : object = true → KeyTaken admits seen key) (r : CodeUnits) (hn : (q ++ r).length ≤ n) :
    memberKey n object admits seen (q ++ r) = .ok (key, r) := by
  cases object with
  | false =>
    obtain ⟨rfl, rfl⟩ := hq
    rfl
  | true =>
    obtain ⟨p, w, rfl, hp, hw⟩ := hq
    obtain ⟨hfits, htaken⟩ := keyTaken_iff.mp (hkey rfl)
    have htext : p ++ (w ++ [58]) ++ r = p ++ (w ++ 58 :: r) := by simp
    rw [htext] at hn ⊢
    rw [memberKey, if_pos rfl, stringValue_complete hp hfits _ hn]
    refine (if_neg htaken).trans ?_
    rw [whitespace_append hw (stops_cons (by decide))]
    exact if_pos rfl

theorem memberKey_turns {n : Nat} {object : Bool} {admits : CodeUnits → Bool}
    {seen : List CodeUnits} {a : CodeUnits} (hn : a.length ≤ n) :
    Gives (memberKey n object admits seen a) (· = .refused) fun _ => True := by
  cases object with
  | false => trivial
  | true =>
    rw [memberKey, if_pos rfl]
    refine (stringValue_turns hn).bind fun r _ => gives_ite.mpr ⟨fun _ => rfl, fun _ => ?_⟩
    split
    · rfl
    · exact gives_ite.mpr ⟨fun _ => trivial, fun _ => rfl⟩

/-! ### The loop of a container -/

/-- What the members of a container do to the counters, one after the other. -/
def Fold (V : CodeUnits → CodeUnits → Counters → Counters → Prop) :
    List (CodeUnits × CodeUnits) → Counters → Counters → Prop
  | [], k, k' => k' = k
  | (key, s) :: ms, k, k' => (k.add 0 0 1).Within ∧ ∃ k₁, V key s (k.add 0 0 1) k₁ ∧ k₁.Within
      ∧ Fold V ms k₁ k'

/-- The keys that a loop takes, one after the other. -/
def KeysTaken (admits : CodeUnits → Bool) : List CodeUnits → List CodeUnits → Prop
  | _, [] => True
  | seen, key :: keys => KeyTaken admits seen key ∧ KeysTaken admits (key :: seen) keys

section

variable {n : Nat} {object : Bool} {admits : CodeUnits → Bool} {entry : Entry}
    {V : CodeUnits → CodeUnits → Counters → Counters → Prop}

/-- A member of a container, with what follows it. -/
theorem containerLoop_succ {m : Nat} {seen : List CodeUnits} {a r : CodeUnits} {k k' : Counters}
    (hk : k.Within) :
    containerLoop n object admits entry (m + 1) seen a k = .ok (r, k') ↔ a ≠ []
      ∧ (k.add 0 0 1).Within ∧ ∃ key b c k₁ d x, memberKey n object admits seen (whitespace a)
      = .ok (key, b) ∧ entry key (whitespace b) (k.add 0 0 1) = .ok (c, k₁)
      ∧ whitespace c = d :: x ∧ ((d = closing object ∧ r = x ∧ k' = k₁)
        ∨ (d = 44 ∧ containerLoop n object admits entry m (key :: seen) x k₁ = .ok (r, k'))) := by
  have htail : ∀ {key x : CodeUnits} {d : UInt16} {k₁ : Counters},
      (if d = closing object then .ok (x, k₁)
      else if d = 44 then containerLoop n object admits entry m (key :: seen) x k₁
      else .error .refused) = .ok (r, k')
      ↔ (d = closing object ∧ r = x ∧ k' = k₁)
        ∨ (d = 44 ∧ containerLoop n object admits entry m (key :: seen) x k₁ = .ok (r, k')) := by
    intro key x d k₁
    constructor
    · intro h
      split at h
      next hd =>
        obtain ⟨rfl, rfl⟩ := Prod.mk.inj (Except.ok.inj h)
        exact .inl ⟨hd, rfl, rfl⟩
      next => exact .inr (ite_error_right_ok.mp h)
    · rintro (⟨hd, rfl, rfl⟩ | ⟨hd, hrest⟩)
      · rw [if_pos hd]
      · rw [if_neg (by rw [hd]; exact (closing_ne_comma object).symm), if_pos hd, hrest]
  rcases a with _ | ⟨c, a⟩
  · simp [containerLoop]
  · simp only [containerLoop, bind_ok, orReject_ok, Counters.countMember_iff hk, Prod.exists,
      ne_eq, reduceCtorEq, not_false_eq_true, true_and]
    constructor
    · rintro ⟨_, ⟨rfl, hwithin⟩, key, b, hkey, c, k₁, hvalue, h⟩
      rcases hend : whitespace c with _ | ⟨d, x⟩
      · rw [hend] at h
        cases h
      · rw [hend] at h
        exact ⟨hwithin, key, b, c, k₁, d, x, hkey, hvalue, hend, htail.mp h⟩
    · rintro ⟨hwithin, key, b, c, k₁, d, x, hkey, hvalue, hend, h⟩
      refine ⟨_, ⟨rfl, hwithin⟩, key, b, hkey, c, k₁, hvalue, ?_⟩
      rw [hend]
      exact htail.mpr h

theorem containerLoop_sound (hentry : ∀ (key a r : CodeUnits) (k k' : Counters), k.Within →
      Stops isWhitespace a →
      entry key a k = .ok (r, k') → ∃ s, a = s ++ r ∧ V key s k k' ∧ k'.Within) :
      ∀ {m : Nat} {seen : List CodeUnits} {a r : CodeUnits} {k k' : Counters}, k.Within →
    containerLoop n object admits entry m seen a k = .ok (r, k') →
    ∃ ms b, a = b ++ r ∧ Members object ms b
      ∧ (object = true → KeysTaken admits seen (ms.map Prod.fst)) ∧ Fold V ms k k' ∧ k'.Within
  | 0, _, a, _, _, _, _, h => by cases a <;> cases h
  | m + 1, seen, a, r, k, k', hk, h => by
    obtain ⟨-, hmember, key, b, c, k₁, d, x, hkey, hvalue, hend, htail⟩ :=
  (containerLoop_succ hk).mp h
    obtain ⟨w, hspace, hw⟩ := whitespace_split a
    obtain ⟨q, htext, hq, htaken⟩ := memberKey_sound hkey
    obtain ⟨w', hspace', hw'⟩ := whitespace_split b
    obtain ⟨s, hslice, hV, hk₁⟩ := hentry _ _ _ _ _ hmember (stops_whitespace b) hvalue
    obtain ⟨w'', hspace'', hw''⟩ := whitespace_split c
    have ha : a = w ++ (q ++ (w' ++ (s ++ (w'' ++ d :: x)))) := by
      calc a = w ++ (q ++ b) := by rw [← htext, ← hspace]
        _ = w ++ (q ++ (w' ++ (s ++ c))) := by rw [← hslice, ← hspace']
        _ = w ++ (q ++ (w' ++ (s ++ (w'' ++ d :: x)))) := by rw [← hend, ← hspace'']
    rcases htail with ⟨rfl, rfl, rfl⟩ | ⟨rfl, hrest⟩
    · refine ⟨[(key, s)], _, ?_, .last hw hq hw' hw'', fun ho => ⟨htaken ho, trivial⟩,
        ⟨hmember, k', hV, hk₁, rfl⟩, hk₁⟩
      rw [ha]
      simp
    · obtain ⟨ms, y, rfl, hms, hkeys, hfold, hk'⟩ := containerLoop_sound hentry hk₁ hrest
      refine ⟨(key, s) :: ms, _, ?_, .cons hw hq hw' hw'' hms, fun ho => ⟨htaken ho, hkeys ho⟩,
        ⟨hmember, k₁, hV, hk₁, hfold⟩, hk'⟩
      rw [ha]
      simp

/-- The key of a member is read, and the whitespace around it. -/
theorem before_member {seen : List CodeUnits} {key w q w' x : CodeUnits} (hw : Ws w)
    (hq : Key object key q) (hw' : Ws w') (hkey : object = true → KeyTaken admits seen key)
    (hx : Stops isWhitespace x) (hn : (q ++ (w' ++ x)).length ≤ n) :
    ∃ b, memberKey n object admits seen (whitespace (w ++ (q ++ (w' ++ x)))) = .ok (key, b)
      ∧ whitespace b = x := by
  cases object with
  | true =>
    have hstops : Stops isWhitespace (q ++ (w' ++ x)) := by
      obtain ⟨p, u, rfl, hp, -⟩ := hq
      rw [List.append_assoc]
      exact stops_quoted hp _
    rw [whitespace_append hw hstops]
    exact ⟨w' ++ x, memberKey_complete hq hkey _ hn, whitespace_append hw' hx⟩
  | false =>
    obtain ⟨rfl, rfl⟩ := hq
    have hspace : whitespace (w ++ ([] ++ (w' ++ x))) = x := by
      rw [List.nil_append, ← List.append_assoc]
      exact whitespace_append (hw.append hw') hx
    exact ⟨x, by rw [hspace]; rfl, dropWhile_of_stops hx⟩

theorem containerLoop_complete (hentry : ∀ (key s r : CodeUnits) (k k' : Counters), k.Within →
      k'.Within → V key s k k' → Delimited r →
      (s ++ r).length ≤ n → entry key (s ++ r) k = .ok (r, k'))
      (hreads : ∀ (key s : CodeUnits) (k k' : Counters), V key s k k' →
      ∃ t, Reads t s) {ms : List (CodeUnits × CodeUnits)} {b : CodeUnits}
      (h : Members object ms b) :
    ∀ {m : Nat} {seen : List CodeUnits} {r : CodeUnits} {k k' : Counters}, k.Within →
      (object = true → KeysTaken admits seen (ms.map Prod.fst)) →
    Fold V ms k k' → (b ++ r).length ≤ m → (b ++ r).length ≤ n →
    containerLoop n object admits entry m seen (b ++ r) k = .ok (r, k') := by
  have hmember {key q s w w' w'' tail r : CodeUnits} {d : UInt16} {m : Nat} {seen : List CodeUnits}
      {k k₁ k' : Counters} (hw : Ws w)
      (hq : Key object key q) (hw' : Ws w') (hw'' : Ws w'') (hd : isPlainUnit d = false)
      (hd' : isWhitespace d = false) (hk : k.Within)
      (hwithin : (k.add 0 0 1).Within) (hV : V key s (k.add 0 0 1) k₁) (hk₁ : k₁.Within)
      (hkey : object = true → KeyTaken admits seen key)
      (hn : (w ++ (q ++ (w' ++ (s ++ (w'' ++ d :: tail))))).length ≤ n)
      (hend : (d = closing object ∧ r = tail ∧ k' = k₁)
        ∨ (d = 44 ∧ containerLoop n object admits entry m (key :: seen) tail k₁ = .ok (r, k'))) :
      containerLoop n object admits entry (m + 1) seen
        (w ++ (q ++ (w' ++ (s ++ (w'' ++ d :: tail))))) k = .ok (r, k') := by
    have hlength : (q ++ (w' ++ (s ++ (w'' ++ d :: tail)))).length ≤ n := by
      rw [List.length_append] at hn
      omega
    have hrest : (s ++ (w'' ++ d :: tail)).length ≤ n := by
      rw [List.length_append, List.length_append] at hlength
      omega
    obtain ⟨t, ht⟩ := hreads _ _ _ _ hV
    obtain ⟨b, hkeyed, hspace⟩ := before_member hw hq hw' hkey (stops_reads ht _) hlength
    refine (containerLoop_succ hk).mpr
      ⟨by simp, hwithin, key, b, w'' ++ d :: tail, k₁, d, tail, hkeyed, ?_, ?_, hend⟩
    · rw [hspace]
      exact hentry _ _ _ _ _ hwithin hk₁ hV (delimited_after hw'' hd tail) hrest
    · exact whitespace_append hw'' (stops_cons hd')
  induction h with
  | @last key q s w w' w'' hw hq hw' hw'' =>
    intro m seen r k k' hk hkeys hfold hm hn
    obtain ⟨hwithin, k₁, hV, hk₁, rfl⟩ := hfold
    have htext : w ++ (q ++ (w' ++ (s ++ (w'' ++ [closing object])))) ++ r = w
        ++ (q ++ (w' ++ (s ++ (w'' ++ closing object :: r)))) := by
      simp
    rw [htext] at hm hn ⊢
    obtain ⟨m, rfl⟩ : ∃ m', m = m' + 1 :=
      ⟨m - 1, by simp only [List.length_append, List.length_cons] at hm; omega⟩
    exact hmember hw hq hw' hw'' (plain_closing object) (stops_closing object [] _ rfl) hk hwithin
      hV hk₁ (fun ho => (hkeys ho).1) hn
      (.inl ⟨rfl, rfl, rfl⟩)
  | @cons key q s w w' w'' b ms hw hq hw' hw'' hms ih =>
    intro m seen r k k' hk hkeys hfold hm hn
    obtain ⟨hwithin, k₁, hV, hk₁, hfold⟩ := hfold
    have htext : w ++ (q ++ (w' ++ (s ++ (w'' ++ 44 :: b)))) ++ r = w
        ++ (q ++ (w' ++ (s ++ (w'' ++ 44 :: (b ++ r))))) := by
      simp
    rw [htext] at hm hn ⊢
    obtain ⟨m, rfl⟩ : ∃ m', m = m' + 1 :=
      ⟨m - 1, by simp only [List.length_append, List.length_cons] at hm; omega⟩
    have hrest : (b ++ r).length ≤ m ∧ (b ++ r).length ≤ n := by
      simp only [List.length_append, List.length_cons] at hm hn ⊢
      omega
    exact hmember hw hq hw' hw'' (by decide) (by decide) hk hwithin hV hk₁
      (fun ho => (hkeys ho).1) hn
      (.inr ⟨rfl, ih hk₁ (fun ho => (hkeys ho).2) hfold hrest.1 hrest.2⟩)

theorem keysTaken_iff : ∀ {seen keys : List CodeUnits}, KeysTaken admits seen keys ↔
    keys.Nodup ∧ ∀ key ∈ keys, Fits MAX_KEY_BYTES key ∧ isReserved key = false ∧ key ∉ seen
      ∧ admits key = true
  | seen, [] => by simp [KeysTaken]
  | seen, key :: keys => by
    rw [KeysTaken, keysTaken_iff, List.nodup_cons, List.forall_mem_cons]
    constructor
    · rintro ⟨htaken, hnodup, hkeys⟩
      refine ⟨⟨fun hmem => (hkeys key hmem).2.2.1 List.mem_cons_self, hnodup⟩, htaken,
        fun other hother => ?_⟩
      obtain ⟨hfits, hreserved, hseen, hadmits⟩ := hkeys other hother
      exact ⟨hfits, hreserved, fun hmem => hseen (List.mem_cons_of_mem _ hmem), hadmits⟩
    · rintro ⟨⟨hnew, hnodup⟩, htaken, hkeys⟩
      refine ⟨htaken, hnodup, fun other hother => ?_⟩
      obtain ⟨hfits, hreserved, hseen, hadmits⟩ := hkeys other hother
      refine ⟨hfits, hreserved, fun hmem => ?_, hadmits⟩
      rcases List.mem_cons.mp hmem with rfl | hmem
      · exact hnew hother
      · exact hseen hmem

theorem fold_matches (hreads : ∀ (key s : CodeUnits) (k k' : Counters), V key s k k' →
      ∃ t, Reads t s) :
    ∀ {ms : List (CodeUnits × CodeUnits)} {k k' : Counters}, Fold V ms k k' → ∃ ts, Matches ts ms
  | [], _, _, _ => ⟨[], by rw [Matches]⟩
  | (key, s) :: ms, k, k', h => by
    obtain ⟨-, k₁, hV, -, hfold⟩ := h
    obtain ⟨t, ht⟩ := hreads _ _ _ _ hV
    obtain ⟨ts, hts⟩ := fold_matches hreads hfold
    refine ⟨(key, t) :: ts, ?_⟩
    rw [Matches]
    exact ⟨s, ms, rfl, ht, hts⟩

/-- The loop may begin after whitespace. -/
theorem containerLoop_whitespace {m : Nat} {seen : List CodeUnits} {a r : CodeUnits}
    {k k' : Counters} (hk : k.Within) (hne : whitespace a ≠ [])
    (h : containerLoop n object admits entry m seen a k = .ok (r, k')) :
    containerLoop n object admits entry m seen (whitespace a) k = .ok (r, k') := by
  rcases m with _ | m
  · cases a <;> cases h
  obtain ⟨-, hwithin, hrest⟩ := (containerLoop_succ hk).mp h
  have hspace : whitespace (whitespace a) = whitespace a := dropWhile_of_stops (stops_whitespace a)
  exact (containerLoop_succ hk).mpr ⟨hne, hwithin, by rw [hspace]; exact hrest⟩

/-- A container is what its members do, after it has been counted. -/
theorem container_sound (hentry : ∀ (key a r : CodeUnits) (k k' : Counters), k.Within →
      Stops isWhitespace a →
      entry key a k = .ok (r, k') → ∃ s, a = s ++ r ∧ V key s k k' ∧ k'.Within) {a r : CodeUnits}
      {k k' : Counters} (hk : k.Within) (h : container n object admits entry a k = .ok (r, k')) :
      ∃ ms b, a = b ++ r ∧ Layout object ms b
      ∧ (object = true → KeysTaken admits [] (ms.map Prod.fst)) ∧ (k.add 0 1 0).Within
      ∧ Fold V ms (k.add 0 1 0) k' ∧ k'.Within := by
  obtain ⟨w, hspace, hw⟩ := whitespace_split a
  obtain ⟨k₁, hcount, hrest⟩ := bind_ok.mp h
  obtain ⟨rfl, hwithin⟩ := (Counters.countContainer_iff hk).mp (orReject_ok.mp hcount)
  split at hrest
  · cases hrest
  next d x hend =>
    split at hrest
    next hd =>
      obtain ⟨rfl, rfl⟩ := Prod.mk.inj (Except.ok.inj hrest)
      refine ⟨[], w ++ [closing object], ?_, .inl ⟨rfl, w, hw, rfl⟩, fun _ => trivial,
        hwithin, rfl, hwithin⟩
      rw [hspace, hend, hd]
      simp
    next hd =>
      obtain ⟨ms, b, htext, hms, hkeys, hfold, hk'⟩ := containerLoop_sound hentry hwithin hrest
      refine ⟨ms, w ++ b, ?_, .inr (hms.space hw), hkeys, hwithin, hfold, hk'⟩
      rw [hspace, hend, htext, List.append_assoc]

theorem container_complete (hentry : ∀ (key s r : CodeUnits) (k k' : Counters), k.Within →
      k'.Within → V key s k k' → Delimited r →
      (s ++ r).length ≤ n → entry key (s ++ r) k = .ok (r, k'))
      (hreads : ∀ (key s : CodeUnits) (k k' : Counters), V key s k k' →
      ∃ t, Reads t s) {ms : List (CodeUnits × CodeUnits)} {b : CodeUnits} (h : Layout object ms b)
      {r : CodeUnits} {k k' : Counters} (hk : k.Within) (hwithin : (k.add 0 1 0).Within)
      (hkeys : object = true → KeysTaken admits [] (ms.map Prod.fst))
      (hfold : Fold V ms (k.add 0 1 0) k') (hn : (b ++ r).length ≤ n) :
      container n object admits entry (b ++ r) k = .ok (r, k') := by
  have hcount : k.countContainer = some (k.add 0 1 0) :=
    (Counters.countContainer_iff hk).mpr ⟨rfl, hwithin⟩
  unfold container
  refine bind_ok.mpr ⟨_, orReject_ok.mpr hcount, ?_⟩
  rcases h with ⟨rfl, w, hw, rfl⟩ | hms
  · have hspace : whitespace (w ++ [closing object] ++ r) = closing object :: r := by
      rw [List.append_assoc]
      exact whitespace_append hw (stops_closing object r)
    obtain rfl : k' = k.add 0 1 0 := hfold
    rw [hspace]
    exact if_pos rfl
  · have hloop := containerLoop_complete hentry hreads hms hwithin hkeys hfold hn hn
    obtain ⟨ts, hts⟩ := fold_matches hreads hfold
    obtain ⟨w, c, x, rfl, hw, hc⟩ := members_head hts hms
    have hspace : whitespace (w ++ c :: x ++ r) = c :: (x ++ r) := by
      rw [List.append_assoc]
      exact whitespace_append hw (Ws.stops_first hc _)
    have hopen : ¬c = closing object := fun h => hc (by rw [h]; exact first_closing object)
    have hrest := containerLoop_whitespace hwithin
      (by rw [hspace]; exact List.cons_ne_nil _ _) hloop
    rw [hspace] at hrest ⊢
    exact (if_neg hopen).trans hrest

/-- With a turn for each unit the loop of a container ends: a member is followed by one unit more.
-/
theorem containerLoop_turns (hentry : ∀ (key a r : CodeUnits) (k k' : Counters), k.Within →
      Stops isWhitespace a →
      entry key a k = .ok (r, k') → ∃ s, a = s ++ r ∧ V key s k k' ∧ k'.Within)
    (hturns : ∀ (key a : CodeUnits) (k : Counters), k.Within → Stops isWhitespace a → a.length ≤ n →
      Gives (entry key a k) (· = .refused) fun _ => True) :
    ∀ {m : Nat} {seen : List CodeUnits} {a : CodeUnits} {k : Counters}, k.Within → a.length ≤ m →
      a.length ≤ n →
      Gives (containerLoop n object admits entry m seen a k) (· = .refused) fun _ => True
  | _, _, [], _, _, _, _ => by
    rw [containerLoop]
    rfl
  | 0, _, _ :: _, _, _, hm, _ => absurd hm (Nat.not_succ_le_zero _)
  | m + 1, seen, c :: a, k, hk, hm, hn => by
    rw [containerLoop]
    refine gives_orReject.mpr ⟨fun _ => rfl, fun k₁ hcount => ?_⟩
    obtain ⟨rfl, hmember⟩ := (Counters.countMember_iff hk).mp hcount
    have hspace := whitespace_length (c :: a)
    refine (memberKey_turns (hspace.trans hn)).bind ?_
    rintro ⟨key, b⟩ hkey
    obtain ⟨q, htext, -, -⟩ := memberKey_sound hkey
    have hb := whitespace_length b
    have hkeyed := congrArg List.length htext
    rw [List.length_append] at hkeyed
    refine (hturns key _ _ hmember (stops_whitespace b) (by omega)).bind ?_
    rintro ⟨b', k₁⟩ hvalue
    obtain ⟨s, hslice, -, hk₁⟩ := hentry _ _ _ _ _ hmember (stops_whitespace b) hvalue
    have hvalued := congrArg List.length hslice
    rw [List.length_append] at hvalued
    have hb' := whitespace_length b'
    dsimp only
    split
    · rfl
    next d x hend =>
      rw [hend, List.length_cons] at hb'
      refine gives_ite.mpr ⟨fun _ => trivial, fun _ => gives_ite.mpr ⟨fun _ => ?_, fun _ => rfl⟩⟩
      exact containerLoop_turns hentry hturns hk₁ (by omega) (by omega)

theorem container_turns (hentry : ∀ (key a r : CodeUnits) (k k' : Counters), k.Within →
      Stops isWhitespace a →
      entry key a k = .ok (r, k') → ∃ s, a = s ++ r ∧ V key s k k' ∧ k'.Within)
    (hturns : ∀ (key a : CodeUnits) (k : Counters), k.Within → Stops isWhitespace a → a.length ≤ n →
      Gives (entry key a k) (· = .refused) fun _ => True) {a : CodeUnits} {k : Counters}
      (hk : k.Within) (hn : a.length ≤ n) : Gives (container n object admits entry a k)
      (· = .refused) fun _ => True := by
  unfold container
  refine gives_orReject.mpr ⟨fun _ => rfl, fun k₁ hcount => ?_⟩
  obtain ⟨rfl, hwithin⟩ := (Counters.countContainer_iff hk).mp hcount
  have hspace := whitespace_length a
  split
  · rfl
  next d x hend =>
    rw [hend] at hspace
    refine gives_ite.mpr ⟨fun _ => trivial, fun _ => ?_⟩
    exact containerLoop_turns hentry hturns hwithin (hspace.trans hn) (hspace.trans hn)

end

/-! ### Values -/

/-- What a tree and the trees below it count. -/
def Counters.afterMembers (k : Counters) (ts : List (CodeUnits × Tree)) : Counters :=
  k.add (Tree.countMembers (fun _ => 1) ts) (Tree.countMembers Tree.isContainer ts)
  (ts.length + Tree.countMembers Tree.ownMembers ts)

/-- A value, by what it counts. -/
def ValueRead (levels : Nat) (s : CodeUnits) (k k' : Counters) : Prop :=
  ∃ t, Reads t s ∧ t.height ≤ levels ∧ t.All Allowed ∧ k' = k.after t

theorem Counters.after_container (k : Counters) (object : Bool) (ts : List (CodeUnits × Tree)) :
    k.after (.container object ts) = ((k.add 1 0 0).add 0 1 0).afterMembers ts := by
  simp only [after, afterMembers, add, Tree.values, Tree.containers, Tree.members, Tree.count,
    Tree.isContainer, Tree.ownMembers, mk.injEq, and_true]
  omega

theorem Counters.afterMembers_cons (k : Counters) (key : CodeUnits) (t : Tree)
    (ts : List (CodeUnits × Tree)) :
    k.afterMembers ((key, t) :: ts) = ((k.add 0 0 1).after t).afterMembers ts := by
  simp only [after, afterMembers, add, Tree.values, Tree.containers, Tree.members,
    Tree.countMembers, List.length_cons, mk.injEq, and_true]
  omega

theorem Counters.within_of_add {k : Counters} {v c m : Nat} (h : (k.add v c m).Within) : k.Within :=
  ⟨(Nat.le_add_right _ _).trans h.values, (Nat.le_add_right _ _).trans h.containers,
    (Nat.le_add_right _ _).trans h.members⟩

/-- The members of a nested container are values. -/
theorem fold_values {levels : Nat} :
    ∀ {ms : List (CodeUnits × CodeUnits)} {k k' : Counters}, k'.Within →
    (Fold (fun _ => ValueRead levels) ms k k' ↔ ∃ ts, Matches ts ms ∧ Tree.heightMembers ts ≤ levels
      ∧ Tree.AllMembers Allowed ts
      ∧ k' = k.afterMembers ts)
  | [], k, k', _ => by
    constructor
    · rintro rfl
      exact ⟨[], by rw [Matches], Nat.zero_le _, trivial, rfl⟩
    · rintro ⟨ts, hts, -, -, rfl⟩
      obtain rfl := matches_nil hts
      rfl
  | (key, s) :: ms, k, k', hk' => by
    constructor
    · rintro ⟨-, k₁, ⟨t, ht, hheight, hall, rfl⟩, -, hfold⟩
      obtain ⟨ts, hts, hheights, halls, rfl⟩ := (fold_values hk').mp hfold
      refine ⟨(key, t) :: ts, ?_, max_le hheight hheights, ⟨hall, halls⟩,
        (Counters.afterMembers_cons k key t ts).symm⟩
      rw [Matches]
      exact ⟨s, ms, rfl, ht, hts⟩
    · rintro ⟨ts, hts, hheights, halls, rfl⟩
      rcases ts with _ | ⟨⟨key', t⟩, ts⟩
      · rw [Matches] at hts
        cases hts
      rw [Matches] at hts
      obtain ⟨s', ms', heq, ht, hts⟩ := hts
      rw [List.cons.injEq, Prod.mk.injEq] at heq
      obtain ⟨⟨rfl, rfl⟩, rfl⟩ := heq
      obtain ⟨hall, halls⟩ := halls
      rw [Counters.afterMembers_cons] at hk' ⊢
      have hafter := Counters.within_of_add hk'
      exact ⟨Counters.within_of_add hafter, _,
        ⟨t, ht, (le_max_left _ _).trans hheights, hall, rfl⟩, hafter,
        (fold_values hk').mpr ⟨ts, hts, (le_max_right _ _).trans hheights, halls, rfl⟩⟩

/-- What `value` says that it has read. -/
def kindOf : Tree → Kind
  | .text _ => .string
  | .number _ => .number
  | .literal none => .null
  | .literal (some _) => .boolean
  | .container true _ => .object
  | .container false _ => .array

theorem matches_keys : ∀ {ts : List (CodeUnits × Tree)} {ms : List (CodeUnits × CodeUnits)},
    Matches ts ms →
    ms.map Prod.fst = ts.map Prod.fst
  | [], ms, h => by
    rw [Matches] at h
    rw [h]
    rfl
  | (key, t) :: ts, ms, h => by
    rw [Matches] at h
    obtain ⟨s, ms', rfl, -, hts⟩ := h
    rw [List.map_cons, List.map_cons, matches_keys hts]

theorem keysAllowed_iff {object : Bool} {ts : List (CodeUnits × Tree)}
    {ms : List (CodeUnits × CodeUnits)} (h : Matches ts ms) :
    (object = true → KeysTaken (fun _ => true) [] (ms.map Prod.fst)) ↔
    Allowed (.container object ts) := by
  rw [matches_keys h]
  cases object with
  | false => exact iff_of_true (fun h => nomatch h) trivial
  | true =>
    simp only [forall_const, keysTaken_iff, List.not_mem_nil, not_false_eq_true, and_true,
      Allowed, KeysAllowed]

/-- The bracket tells an object from an array. -/
theorem opening_of {c : UInt16} (h : c = 123 ∨ c = 91) : c = opening (decide (c = 123)) := by
  rcases h with rfl | rfl <;> rfl

/-- A member of a nested container is a value. -/
theorem valueRead_sound {n levels : Nat}
    (h : ∀ {a r : CodeUnits} {kind : Kind} {k k' : Counters}, k.Within → Stops isWhitespace a →
      value n levels a k = .ok (kind, r, k') →
      ∃ t s, a = s ++ r ∧ Reads t s ∧ t.height ≤ levels ∧ t.All Allowed ∧ kind = kindOf t
        ∧ k' = k.after t ∧ k'.Within)
    (_ a r : CodeUnits) (k k' : Counters) (hk : k.Within) (hstops : Stops isWhitespace a)
    (hmember : (value n levels a k).map Prod.snd = .ok (r, k')) :
      ∃ s, a = s ++ r ∧ ValueRead levels s k k' ∧ k'.Within := by
  obtain ⟨⟨kind, r', k''⟩, hvalue, heq⟩ := map_ok.mp hmember
  obtain ⟨rfl, rfl⟩ := Prod.mk.inj heq
  obtain ⟨t, s, htext, ht, hheight, hall, -, hafter, hwithin⟩ := h hk hstops hvalue
  exact ⟨s, htext, ⟨t, ht, hheight, hall, hafter⟩, hwithin⟩

theorem value_sound {n levels : Nat} : ∀ {a r : CodeUnits} {kind : Kind} {k k' : Counters},
    k.Within → Stops isWhitespace a →
    value n levels a k = .ok (kind, r, k') →
    ∃ t s, a = s ++ r ∧ Reads t s ∧ t.height ≤ levels ∧ t.All Allowed ∧ kind = kindOf t
      ∧ k' = k.after t ∧ k'.Within := by
  induction levels using Nat.strong_induction_on with
  | _ levels ih =>
  intro a r kind k k' hk hstops h
  unfold value at h
  obtain ⟨k₁, hcount, h⟩ := bind_ok.mp h
  obtain ⟨rfl, hwithin⟩ := (Counters.countValue_iff hk).mp (orReject_ok.mp hcount)
  rw [show whitespace a = a from dropWhile_of_stops hstops] at h
  rcases a with _ | ⟨c, a⟩
  · cases h
  dsimp only at h
  by_cases hquote : c = 34
  · rw [if_pos hquote, map_ok] at h
    obtain ⟨⟨s, b⟩, hstring, heq⟩ := h
    simp only [Prod.mk.injEq] at heq
    obtain ⟨rfl, rfl, rfl⟩ := heq
    obtain ⟨q, htext, hq, hfits⟩ := stringValue_sound hstring
    exact ⟨.text s, q, htext, by rw [Reads]; exact hq, Nat.zero_le _, hfits, rfl, rfl, hwithin⟩
  rw [if_neg hquote] at h
  by_cases hdigit : (decide (c = 45) || isDigit c) = true
  · rw [if_pos hdigit, map_ok] at h
    obtain ⟨b, hnumber, heq⟩ := h
    simp only [Prod.mk.injEq] at heq
    obtain ⟨rfl, rfl, rfl⟩ := heq
    obtain ⟨token, htext, htoken, -⟩ := number_iff.mp (orReject_ok.mp hnumber)
    exact ⟨.number token, token,
      htext, by rw [Reads]; exact ⟨htoken, rfl⟩, Nat.zero_le _, trivial, rfl, rfl, hwithin⟩
  rw [if_neg hdigit] at h
  have hliteral {value : Option Bool} {m : Nat} (htake : (c :: a).take m = literalUnits value)
      (heq : Except.ok (ε := Halt) (kindOf (.literal value), (c :: a).drop m, k.add 1 0 0)
        = .ok (kind, r, k')) :
      ∃ t s, c :: a = s ++ r ∧ Reads t s ∧ t.height ≤ levels ∧ t.All Allowed ∧ kind = kindOf t
        ∧ k' = k.after t ∧ k'.Within := by
    simp only [Except.ok.injEq, Prod.mk.injEq] at heq
    obtain ⟨rfl, rfl, rfl⟩ := heq
    refine ⟨.literal value, literalUnits value,
      ?_, by rw [Reads], Nat.zero_le _, trivial, rfl, rfl, hwithin⟩
    rw [← htake, List.take_append_drop]
  by_cases htrue : (c :: a).take 4 = literalUnits (some true)
  · rw [if_pos htrue] at h
    exact hliteral htrue h
  rw [if_neg htrue] at h
  by_cases hfalse : (c :: a).take 5 = literalUnits (some false)
  · rw [if_pos hfalse] at h
    exact hliteral hfalse h
  rw [if_neg hfalse] at h
  by_cases hnull : (c :: a).take 4 = literalUnits none
  · rw [if_pos hnull] at h
    exact hliteral hnull h
  rw [if_neg hnull] at h
  obtain ⟨hbracket, h⟩ := ite_error_left_ok.mp h
  have hbracket : c = 123 ∨ c = 91 := by
    by_cases hc : c = 123
    · exact .inl hc
    · exact .inr (by_contra fun hc' => hbracket ⟨hc, hc'⟩)
  rcases levels with _ | levels
  · cases h
  obtain ⟨⟨b, k₂⟩, hcontainer, heq⟩ := map_ok.mp h
  simp only [Prod.mk.injEq] at heq
  obtain ⟨hkind, rfl, rfl⟩ := heq
  have hentry := valueRead_sound fun hk hstops h => ih levels (Nat.lt_succ_self _) hk hstops h
  obtain ⟨ms, y, rfl, hlayout, hkeys, -, hfold, hk₂⟩ :=
    container_sound (V := fun _ => ValueRead levels) hentry hwithin hcontainer
  obtain ⟨ts, hts, hheights, halls, rfl⟩ := (fold_values hk₂).mp hfold
  refine ⟨.container (decide (c = 123)) ts, c :: y, rfl, ?_, Nat.succ_le_succ hheights,
    ⟨(keysAllowed_iff hts).mp hkeys, halls⟩, ?_, (Counters.after_container k _ ts).symm, hk₂⟩
  · rw [Reads]
    exact ⟨y, ms, by rw [← opening_of hbracket], hlayout, hts⟩
  · rw [← hkind]
    by_cases hc : c = 123
    · rw [if_pos hc, decide_eq_true hc]
      rfl
    · rw [if_neg hc, decide_eq_false hc]
      rfl

/-- What is not a string or a number is not read as one. -/
theorem first_other {c : UInt16} {f : First} (h : first c = some f) (hquote : f ≠ .quote)
    (hdigit : f ≠ .digit) :
    c ≠ 34 ∧ ¬(decide (c = 45) || isDigit c) = true := by
  refine ⟨fun heq => ?_, fun hc => ?_⟩
  · rw [heq, show first 34 = some .quote by decide] at h
    exact hquote (Option.some.inj h).symm
  · simp only [Bool.or_eq_true, decide_eq_true_eq] at hc
    rw [first_digit hc] at h
    exact hdigit (Option.some.inj h).symm

theorem value_complete {n levels : Nat} : ∀ {t : Tree} {s r : CodeUnits} {k : Counters}, k.Within →
    (k.after t).Within →
    Reads t s → t.height ≤ levels → t.All Allowed → Delimited r → (s ++ r).length ≤ n →
    value n levels (s ++ r) k = .ok (kindOf t, r, k.after t) := by
  induction levels using Nat.strong_induction_on with
  | _ levels ih =>
  intro t s r k hk hafter ht hheight hall hr hn
  have hspace : whitespace (s ++ r) = s ++ r := dropWhile_of_stops (stops_reads ht r)
  have hvalues : 1 ≤ t.values := by
    cases t with
    | container object ts => exact Nat.le_add_right _ _
    | _ => exact le_refl _
  have hone : (k.add 1 0 0).Within :=
    ⟨(Nat.add_le_add_left hvalues _).trans hafter.values, hk.containers, hk.members⟩
  have hcount : k.countValue = some (k.add 1 0 0) := (Counters.countValue_iff hk).mpr ⟨rfl, hone⟩
  unfold value
  refine bind_ok.mpr ⟨_, orReject_ok.mpr hcount, ?_⟩
  rw [hspace]
  obtain ⟨c, x, rfl, hc⟩ := first_reads ht
  rw [List.cons_append] at hn ⊢
  dsimp only
  cases t with
  | text u =>
    rw [Reads] at ht
    have hstring := stringValue_complete ht hall r hn
    rw [List.cons_append] at hstring
    have hquote : c = 34 := by
      obtain ⟨b, heq, -⟩ := ht
      exact (List.cons.inj heq).1
    rw [if_pos hquote, hstring]
    rfl
  | number token =>
    rw [Reads] at ht
    obtain ⟨hnumber, rfl⟩ := ht
    have hread : number (c :: (x ++ r)) = some r := number_iff.mpr ⟨c :: x, rfl, hnumber, hr⟩
    have hquote : c ≠ 34 := fun heq => by
      rw [heq, show first 34 = some .quote by decide] at hc
      cases hc
    have hdigit : (decide (c = 45) || isDigit c) = true := by
      by_contra hnot
      rw [first, if_neg hquote, if_neg hnot] at hc
      repeat' split at hc
      all_goals cases hc
    rw [if_neg hquote, if_pos hdigit, hread]
    rfl
  | literal value =>
    obtain ⟨hquote, hdigit⟩ := first_other hc (by rintro ⟨⟩) (by rintro ⟨⟩)
    rw [Reads] at ht
    rw [if_neg hquote, if_neg hdigit, ← List.cons_append, ht]
    rcases value with _ | _ | _
    · rw [if_neg (by simp [literalUnits]), if_neg (by simp [literalUnits])]
      exact if_pos rfl
    · rw [if_neg (by simp [literalUnits])]
      exact if_pos rfl
    · exact if_pos rfl
  | container object ts =>
    obtain ⟨hquote, hdigit⟩ := first_other hc (by rintro ⟨⟩) (by rintro ⟨⟩)
    rw [Reads] at ht
    obtain ⟨b, ms, heq, hlayout, hts⟩ := ht
    obtain ⟨rfl, rfl⟩ := List.cons.inj heq
    rcases levels with _ | levels
    · exact absurd hheight (Nat.not_succ_le_zero _)
    obtain ⟨hkeys, halls⟩ := hall
    rw [Counters.after_container] at hafter ⊢
    have hentry : ∀ (key s r : CodeUnits) (k k' : Counters), k.Within → k'.Within →
        ValueRead levels s k k' → Delimited r →
        (s ++ r).length ≤ n → (value n levels (s ++ r) k).map Prod.snd = .ok (r, k') := by
      rintro key s r k _ hk hk' ⟨t, ht, hheight, hall, rfl⟩ hr hn
      rw [ih levels (Nat.lt_succ_self _) hk hk' ht hheight hall hr hn]
      rfl
    have hcontainer : container n object (fun _ => true)
        (fun _ a k => (value n levels a k).map Prod.snd) (x ++ r) (k.add 1 0 0)
        = .ok (r, ((k.add 1 0 0).add 0 1 0).afterMembers ts) :=
      container_complete (V := fun _ => ValueRead levels) hentry
        (by rintro _ _ _ _ ⟨t, ht, -⟩; exact ⟨t, ht⟩) hlayout hone
        (Counters.within_of_add hafter) ((keysAllowed_iff hts).mpr hkeys)
        ((fold_values hafter).mpr ⟨ts, hts, Nat.le_of_succ_le_succ hheight, halls, rfl⟩)
        (by rw [List.length_cons] at hn; omega)
    rw [if_neg hquote, if_neg hdigit]
    cases object with
    | true =>
      rw [if_neg (by simp [opening, literalUnits]), if_neg (by simp [opening, literalUnits]),
        if_neg (by simp [opening, literalUnits]), if_neg (by simp [opening])]
      exact congrArg (Except.map fun r => (Kind.object, r)) hcontainer
    | false =>
      rw [if_neg (by simp [opening, literalUnits]), if_neg (by simp [opening, literalUnits]),
        if_neg (by simp [opening, literalUnits]), if_neg (by simp [opening])]
      exact congrArg (Except.map fun r => (Kind.array, r)) hcontainer

/-- With a turn for each unit a value is read or refused. -/
theorem value_turns {n levels : Nat} : ∀ {a : CodeUnits} {k : Counters}, k.Within → a.length ≤ n →
    Gives (value n levels a k) (· = .refused) fun _ => True := by
  induction levels using Nat.strong_induction_on with
  | _ levels ih =>
  intro a k hk hn
  unfold value
  refine gives_orReject.mpr ⟨fun _ => rfl, fun k₁ hcount => ?_⟩
  obtain ⟨rfl, hwithin⟩ := (Counters.countValue_iff hk).mp hcount
  have hspace := (whitespace_length a).trans hn
  split
  · rfl
  next c x hstart =>
  rw [hstart] at hspace
  refine gives_ite.mpr ⟨fun _ => gives_map.mpr (stringValue_turns hspace),
    fun _ => gives_ite.mpr ⟨fun _ => ?_, fun _ => ?_⟩⟩
  · cases number (c :: x) with
    | none => rfl
    | some r => trivial
  refine gives_ite.mpr ⟨fun _ => trivial,
    fun _ => gives_ite.mpr
    ⟨fun _ => trivial, fun _ => gives_ite.mpr ⟨fun _ => trivial, fun _ => ?_⟩⟩⟩
  refine gives_ite.mpr ⟨fun _ => rfl, fun _ => ?_⟩
  rcases levels with _ | levels
  · rfl
  refine gives_map.mpr (container_turns (valueRead_sound fun hk hstops h => value_sound hk hstops h)
    (fun _ a k hk _ hn => gives_map.mpr (ih levels (Nat.lt_succ_self _) hk hn)) hwithin
    ((Nat.le_succ _).trans hspace))

/-! ### The envelope -/

/-- A member of the envelope: a value that is what its key asks for. -/
def EnvelopeRead (expectedId key s : CodeUnits) (k k' : Counters) : Prop :=
  ∃ t, Reads t s ∧ t.height ≤ MAX_DEPTH - 1 ∧ t.All Allowed
    ∧ (key = units "jsonrpc" → t = .text (units "2.0"))
    ∧ (key = units "id" → t = .number expectedId) ∧ k' =
      if key = units "jsonrpc" then { k.after t with versionSeen := true }
      else if key = units "id" then { k.after t with idSeen := true }
      else if key = units "result" then { k.after t with result := some s }
      else k.after t

theorem slice_append (s r : CodeUnits) : slice (s ++ r) r = s := by
  rw [slice, List.length_append, Nat.add_sub_cancel, List.take_left]

theorem within_update {k k' : Counters} (h : k.Within) (hvalues : k'.values = k.values)
    (hcontainers : k'.containers = k.containers) (hmembers : k'.members = k.members) : k'.Within :=
  ⟨hvalues ▸ h.values, hcontainers ▸ h.containers, hmembers ▸ h.members⟩

theorem id_ne_jsonrpc : units "id" ≠ units "jsonrpc" := by
  decide

theorem result_ne_jsonrpc : units "result" ≠ units "jsonrpc" := by
  decide

theorem result_ne_id : units "result" ≠ units "id" := by
  decide

theorem envelopeEntry_sound {n : Nat} {expectedId : CodeUnits} (key a r : CodeUnits)
    (k k' : Counters) (hk : k.Within) (hstops : Stops isWhitespace a)
    (h : envelopeEntry n expectedId key a k = .ok (r, k')) :
    ∃ s, a = s ++ r ∧ EnvelopeRead expectedId key s k k' ∧ k'.Within := by
  unfold envelopeEntry at h
  by_cases hversion : key = units "jsonrpc"
  · rw [if_pos hversion] at h
    obtain ⟨k₁, hcount, h⟩ := bind_ok.mp h
    obtain ⟨rfl, hwithin⟩ := (Counters.countValue_iff hk).mp (orReject_ok.mp hcount)
    obtain ⟨⟨s, b⟩, hstring, h⟩ := bind_ok.mp h
    rw [ite_error_right_ok, Except.ok.injEq, Prod.mk.injEq] at h
    obtain ⟨rfl, rfl, rfl⟩ := h
    obtain ⟨q, htext, hq, hfits⟩ := stringValue_sound hstring
    refine ⟨q, htext, ⟨.text
      (units "2.0"), by rw [Reads]; exact hq, Nat.zero_le _, hfits, fun _ => rfl,
      fun hid => ?_, ?_⟩, within_update hwithin rfl rfl rfl⟩
    · exact absurd (hid.symm.trans hversion) id_ne_jsonrpc
    · rw [if_pos hversion]
      rfl
  · rw [if_neg hversion] at h
    obtain ⟨⟨kind, b, k₁⟩, hvalue, h⟩ := bind_ok.mp h
    obtain ⟨t, s, rfl, ht, hheight, hall, rfl, rfl, hwithin⟩ := value_sound hk hstops hvalue
    dsimp only at h
    by_cases hid : key = units "id"
    · rw [if_pos hid, ite_error_right_ok, Except.ok.injEq, Prod.mk.injEq] at h
      obtain ⟨⟨hkind, hslice⟩, rfl, rfl⟩ := h
      rw [slice_append] at hslice
      refine ⟨s, rfl, ⟨t, ht, hheight, hall, fun h => absurd h hversion, fun _ => ?_, ?_⟩,
        within_update hwithin rfl rfl rfl⟩
      · cases t with
        | number token =>
          rw [Reads] at ht
          rw [← ht.2, hslice]
        | literal value => rcases value with _ | _ <;> cases hkind
        | container object ts => cases object <;> cases hkind
        | text u => cases hkind
      · rw [if_neg hversion, if_pos hid]
    · rw [if_neg hid] at h
      by_cases hresult : key = units "result"
      · rw [if_pos hresult, Except.ok.injEq, Prod.mk.injEq, slice_append] at h
        obtain ⟨rfl, rfl⟩ := h
        refine ⟨s, rfl, ⟨t, ht, hheight, hall, fun h => absurd h hversion, fun h => absurd h hid,
          ?_⟩, within_update hwithin rfl rfl rfl⟩
        rw [if_neg hversion, if_neg hid, if_pos hresult]
      · rw [if_neg hresult, Except.ok.injEq, Prod.mk.injEq] at h
        obtain ⟨rfl, rfl⟩ := h
        refine ⟨s, rfl, ⟨t, ht, hheight, hall, fun h => absurd h hversion,
          fun h => absurd h hid, ?_⟩, hwithin⟩
        rw [if_neg hversion, if_neg hid, if_neg hresult]

theorem envelopeEntry_turns {n : Nat} {expectedId : CodeUnits} (key a : CodeUnits) (k : Counters)
    (hk : k.Within) (_ : Stops isWhitespace a) (hn : a.length ≤ n) :
    Gives (envelopeEntry n expectedId key a k) (· = .refused) fun _ => True := by
  unfold envelopeEntry
  refine gives_ite.mpr ⟨fun _ => gives_orReject.mpr
    ⟨fun _ => rfl, fun k₁ _ => (stringValue_turns hn).bind fun r _ => ?_⟩,
    fun _ => (value_turns hk hn).bind fun r _ => ?_⟩
  · exact gives_ite.mpr ⟨fun _ => trivial, fun _ => rfl⟩
  · refine gives_ite.mpr ⟨fun _ => gives_ite.mpr ⟨fun _ => trivial, fun _ => rfl⟩,
      fun _ => gives_ite.mpr ⟨fun _ => trivial, fun _ => trivial⟩⟩

/-- What a member leaves behind, but for what it counts. -/
theorem within_of_envelope_member {k : Counters} {key s : CodeUnits}
    (h : (if key = units "jsonrpc" then { k with versionSeen := true }
      else if key = units "id" then { k with idSeen := true }
      else if key = units "result" then { k with result := some s } else k).Within) : k.Within := by
  split at h
  · exact within_update h rfl rfl rfl
  split at h
  · exact within_update h rfl rfl rfl
  split at h
  · exact within_update h rfl rfl rfl
  · exact h

theorem envelopeEntry_complete {n : Nat} {expectedId : CodeUnits} (key s r : CodeUnits)
    (k k' : Counters) (hk : k.Within) (hk' : k'.Within) (h : EnvelopeRead expectedId key s k k')
    (hr : Delimited r) (hn : (s ++ r).length ≤ n) :
    envelopeEntry n expectedId key (s ++ r) k = .ok (r, k') := by
  obtain ⟨t, ht, hheight, hall, hversion, hid, rfl⟩ := h
  have hafter : (k.after t).Within := within_of_envelope_member hk'
  unfold envelopeEntry
  by_cases hkey : key = units "jsonrpc"
  · obtain rfl := hversion hkey
    rw [Reads] at ht
    rw [if_pos hkey, if_pos hkey]
    refine bind_ok.mpr ⟨k.add 1 0 0,
      orReject_ok.mpr ((Counters.countValue_iff hk).mpr ⟨rfl, hafter⟩), ?_⟩
    refine bind_ok.mpr ⟨(units "2.0", r), stringValue_complete ht hall r hn, ?_⟩
    exact if_pos rfl
  · rw [if_neg hkey, if_neg hkey]
    refine bind_ok.mpr ⟨_, value_complete hk hafter ht hheight hall hr hn, ?_⟩
    dsimp only
    by_cases hkey' : key = units "id"
    · obtain rfl := hid hkey'
      rw [Reads] at ht
      rw [if_pos hkey', if_pos hkey', slice_append, if_pos ⟨rfl, ht.2⟩]
    · rw [if_neg hkey', if_neg hkey', slice_append]
      by_cases hkey'' : key = units "result"
      · rw [if_pos hkey'', if_pos hkey'']
      · rw [if_neg hkey'', if_neg hkey'']

/-- What the members of the envelope leave behind, if their keys are different. -/
def Counters.envelope (k : Counters) (ts : List (CodeUnits × Tree))
    (ms : List (CodeUnits × CodeUnits)) : Counters :=
  { k.afterMembers ts with
    versionSeen := k.versionSeen || (ts.map Prod.fst).contains (units "jsonrpc")
    idSeen := k.idSeen || (ts.map Prod.fst).contains (units "id")
    result := (ms.lookup (units "result")).or k.result }

/-- A member is what its key asks for. -/
def EnvelopeMember (expectedId : CodeUnits) (m : CodeUnits × Tree) : Prop :=
  (m.1 = units "jsonrpc" → m.2 = .text (units "2.0"))
    ∧ (m.1 = units "id" → m.2 = .number expectedId)

/-- One member more. -/
theorem envelope_cons {k : Counters} {key s : CodeUnits} {t : Tree} {ts : List (CodeUnits × Tree)}
    {ms : List (CodeUnits × CodeUnits)} (hnew : key ∉ ms.map Prod.fst) {k₁ : Counters}
    (hk₁ : k₁ = if key = units "jsonrpc" then { (k.add 0 0 1).after t with versionSeen := true }
      else if key = units "id" then { (k.add 0 0 1).after t with idSeen := true }
      else if key = units "result" then { (k.add 0 0 1).after t with result := some s }
      else (k.add 0 0 1).after t) :
      k.envelope ((key, t) :: ts) ((key, s) :: ms) = k₁.envelope ts ms := by
  have hversion : (units "result" == units "jsonrpc") = false :=
    beq_eq_false_iff_ne.mpr result_ne_jsonrpc
  have hid : (units "result" == units "id") = false := beq_eq_false_iff_ne.mpr result_ne_id
  have hboth : (units "jsonrpc" == units "id") = false := beq_eq_false_iff_ne.mpr id_ne_jsonrpc.symm
  have hboth' : (units "id" == units "jsonrpc") = false := beq_eq_false_iff_ne.mpr id_ne_jsonrpc
  have hversion' : (units "jsonrpc" == units "result") = false :=
    beq_eq_false_iff_ne.mpr result_ne_jsonrpc.symm
  have hid' : (units "id" == units "result") = false := beq_eq_false_iff_ne.mpr result_ne_id.symm
  unfold Counters.envelope
  rw [k.afterMembers_cons key t ts, List.map_cons, List.contains_cons, List.contains_cons,
    List.lookup_cons]
  by_cases h₁ : key = units "jsonrpc"
  · subst h₁
    rw [if_pos rfl] at hk₁
    subst hk₁
    simp [Counters.afterMembers, Counters.after, Counters.add, hversion, hboth']
  rw [if_neg h₁] at hk₁
  by_cases h₂ : key = units "id"
  · subst h₂
    rw [if_pos rfl] at hk₁
    subst hk₁
    simp [Counters.afterMembers, Counters.after, Counters.add, hid, hboth]
  rw [if_neg h₂] at hk₁
  by_cases h₃ : key = units "result"
  · subst h₃
    rw [if_pos rfl] at hk₁
    subst hk₁
    simp [Counters.afterMembers, Counters.after, Counters.add, Js.Value.lookup_of_notMem hnew,
      hversion', hid']
  rw [if_neg h₃] at hk₁
  subst hk₁
  have hk₁ : (units "jsonrpc" == key) = false := beq_eq_false_iff_ne.mpr (Ne.symm h₁)
  have hk₂ : (units "id" == key) = false := beq_eq_false_iff_ne.mpr (Ne.symm h₂)
  have hk₃ : (units "result" == key) = false := beq_eq_false_iff_ne.mpr (Ne.symm h₃)
  simp [Counters.afterMembers, Counters.after, Counters.add, hk₁, hk₂, hk₃]

theorem within_of_envelope {k : Counters} {ts : List (CodeUnits × Tree)}
    {ms : List (CodeUnits × CodeUnits)} (h : (k.envelope ts ms).Within) : k.Within :=
  Counters.within_of_add (within_update h rfl rfl rfl : (k.afterMembers ts).Within)

/-- The members of the envelope are what their keys ask for. -/
theorem fold_envelope {expectedId : CodeUnits} :
    ∀ {ms : List (CodeUnits × CodeUnits)} {k k' : Counters}, (ms.map Prod.fst).Nodup → k'.Within →
    (Fold (EnvelopeRead expectedId) ms k k' ↔ ∃ ts, Matches ts ms ∧ Tree.heightMembers ts
      ≤ MAX_DEPTH - 1 ∧ Tree.AllMembers Allowed ts
      ∧ (∀ m ∈ ts, EnvelopeMember expectedId m) ∧ k' = k.envelope ts ms)
  | [], k, k', _, _ => by
    have hempty : k.envelope [] [] = k := by
      simp [Counters.envelope, Counters.afterMembers, Counters.add, Tree.countMembers]
    constructor
    · rintro rfl
      exact ⟨[], by rw [Matches], Nat.zero_le _, trivial, List.forall_mem_nil _, hempty.symm⟩
    · rintro ⟨ts, hts, -, -, -, rfl⟩
      obtain rfl := matches_nil hts
      exact hempty
  | (key, s) :: ms, k, k', hnodup, hk' => by
    obtain ⟨hnew, hnodup⟩ := List.nodup_cons.mp hnodup
    constructor
    · rintro ⟨-, k₁, ⟨t, ht, hheight, hall, hversion, hid, hk₁⟩, -, hfold⟩
      obtain ⟨ts, hts, hheights, halls, hmembers, rfl⟩ := (fold_envelope hnodup hk').mp hfold
      refine ⟨(key, t) :: ts, ?_, max_le hheight hheights, ⟨hall, halls⟩,
        List.forall_mem_cons.mpr ⟨⟨hversion, hid⟩, hmembers⟩, (envelope_cons hnew hk₁).symm⟩
      rw [Matches]
      exact ⟨s, ms, rfl, ht, hts⟩
    · rintro ⟨ts, hts, hheights, halls, hmembers, rfl⟩
      rcases ts with _ | ⟨⟨key', t⟩, ts⟩
      · rw [Matches] at hts
        cases hts
      rw [Matches] at hts
      obtain ⟨s', ms', heq, ht, hts⟩ := hts
      rw [List.cons.injEq, Prod.mk.injEq] at heq
      obtain ⟨⟨rfl, rfl⟩, rfl⟩ := heq
      obtain ⟨hall, halls⟩ := halls
      obtain ⟨⟨hversion, hid⟩, hmembers⟩ := List.forall_mem_cons.mp hmembers
      have hcons := @envelope_cons k key s t ts ms hnew _ rfl
      rw [hcons] at hk' ⊢
      have hk₁ := within_of_envelope hk'
      have hafter : ((k.add 0 0 1).after t).Within := within_of_envelope_member hk₁
      exact ⟨Counters.within_of_add hafter, _,
        ⟨t, ht, (le_max_left _ _).trans hheights, hall, hversion, hid, rfl⟩, hk₁,
        (fold_envelope hnodup hk').mpr ⟨ts, hts, (le_max_right _ _).trans hheights, halls,
          hmembers, rfl⟩⟩

end Scanner
end Zenon
end ZenonX402
