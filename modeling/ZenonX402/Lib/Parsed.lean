/-
# What a parser gives

`JSON.parse` gives data whose objects have distinct keys and in which nothing is
undefined: `Parsed`. Its numbers may be anything, so it is not yet data that is written
as it was read; with safe integers alone it is (`Plain`).

Key definitions: `Parsed`.
Key theorems: `parse_parsed`.
-/
import ZenonX402.Lib.Shape

namespace Js
namespace Value

/-- Data out of a JSON text. -/
inductive Parsed : Value → Prop
  | null : Parsed .null
  | bool (b : Bool) : Parsed (.bool b)
  | num (n : Int) : Parsed (.num n)
  | negZero : Parsed .negZero
  | fractional : Parsed .fractional
  | str (s : String) : Parsed (.str s)
  | arr {xs : List Value} (h : ∀ x ∈ xs, Parsed x) : Parsed (.arr xs)
  | obj {fs : List (String × Value)} (hn : (fs.map Prod.fst).Nodup) (h : ∀ f ∈ fs, Parsed f.2) :
      Parsed (.obj fs)

theorem Plain.parsed {v : Value} (h : Plain v) : Parsed v := by
  induction h with
  | null => exact .null
  | bool b => exact .bool b
  | num _ => exact .num _
  | negZero => exact .negZero
  | str s => exact .str s
  | arr _ ih => exact .arr ih
  | obj hn _ ih => exact .obj hn ih

end Value

namespace Json

open Value (Parsed)

theorem setField_keys (fs : List (String × Value)) (f : String × Value) :
    (setField fs f).map Prod.fst = if f.1 ∈ fs.map Prod.fst then fs.map Prod.fst
    else fs.map Prod.fst ++ [f.1] := by
  by_cases h : f.1 ∈ fs.map Prod.fst
  · have hany : (fs.any fun g => g.1 == f.1) = true := by
      obtain ⟨g, hg, hkey⟩ := List.mem_map.mp h
      exact List.any_eq_true.mpr ⟨g, hg, by rw [hkey]; exact beq_self_eq_true _⟩
    rw [if_pos h, setField, if_pos hany, List.map_map]
    refine List.map_congr_left fun g _ => ?_
    by_cases hkey : g.1 = f.1
    · simp [hkey]
    · simp [hkey]
  · rw [if_neg h, setField_of_notMem h, List.map_append]
    rfl

theorem mem_setField {fs : List (String × Value)} {f g : String × Value} (h : g ∈ setField fs f) :
    g = f ∨ g ∈ fs := by
  unfold setField at h
  split at h
  · obtain ⟨e, he, rfl⟩ := List.mem_map.mp h
    split
    · exact .inl rfl
    · exact .inr he
  · rcases List.mem_append.mp h with h | h
    · exact .inr h
    · exact .inl (List.mem_singleton.mp h)

/-- Fields set one after the other have distinct keys. -/
theorem foldl_setField_parsed : ∀ (fs acc : List (String × Value)), (acc.map Prod.fst).Nodup →
    (∀ f ∈ acc, Parsed f.2) → (∀ f ∈ fs, Parsed f.2) → Parsed (.obj (fs.foldl setField acc))
  | [], _, hn, hacc, _ => .obj hn hacc
  | f :: fs, acc, hn, hacc, hfs => by
    obtain ⟨hf, hfs⟩ := List.forall_mem_cons.mp hfs
    refine foldl_setField_parsed fs (setField acc f) ?_ ?_ hfs
    · rw [setField_keys]
      split
      · exact hn
      · next hnew => exact List.nodup_append.mpr ⟨hn, List.nodup_singleton _,
          fun k hk k' hk' h => hnew (by
          rw [← List.mem_singleton.mp hk', ← h]
          exact hk)⟩
    · intro g hg
      rcases mem_setField hg with rfl | hg
      · exact hf
      · exact hacc g hg

theorem readLiteral_value {word cs rest : List Char} {v w : Value}
    (h : readLiteral word v cs = some (w, rest)) : w = v := by
  unfold readLiteral at h
  split at h
  · exact (Prod.mk.inj (Option.some.inj h)).1.symm
  · cases h

theorem numberOf_parsed (negative : Bool) (digits fraction : List Char) (exponent : Int) :
    Parsed (numberOf negative digits fraction exponent) := by
  unfold numberOf
  dsimp only
  split
  · exact .fractional
  · split
    · exact .negZero
    · exact .num 0
  · exact .num _

theorem readNumber_parsed {negative : Bool} {cs rest : List Char} {v : Value}
    (h : readNumber negative cs = some (v, rest)) :
    Parsed v := by
  simp only [readNumber, Option.bind_eq_bind, Option.pure_def] at h
  split at h
  · cases h
  · obtain ⟨_, _, h⟩ := Option.bind_eq_some_iff.mp h
    obtain ⟨p, _, h⟩ := Option.bind_eq_some_iff.mp h
    cases h
    exact numberOf_parsed ..

mutual

theorem readValue_parsed : ∀ (fuel : Nat) {cs rest : List Char} {v : Value}, readValue fuel cs
    = some (v, rest) → Parsed v
  | 0, _, _, _, h => by cases h
  | fuel + 1, cs, rest, v, h => by
    unfold readValue at h
    split at h
    · cases h
    · next c cs' _ =>
      split at h
      · rw [readLiteral_value h]
        exact .null
      split at h
      · rw [readLiteral_value h]
        exact .bool true
      split at h
      · rw [readLiteral_value h]
        exact .bool false
      split at h
      · obtain ⟨p, _, hp⟩ := Option.bind_eq_some_iff.mp h
        cases hp
        exact .str _
      split at h
      · split at h
        · cases h
          exact .arr (List.forall_mem_nil _)
        · obtain ⟨p, hp, h⟩ := Option.bind_eq_some_iff.mp h
          obtain ⟨q, hq, h⟩ := Option.bind_eq_some_iff.mp h
          cases h
          exact .arr (List.forall_mem_cons.mpr ⟨readValue_parsed fuel hp,
            readElements_parsed fuel hq⟩)
      split at h
      · split at h
        · cases h
          exact .obj List.nodup_nil (List.forall_mem_nil _)
        · obtain ⟨p, hp, h⟩ := Option.bind_eq_some_iff.mp h
          obtain ⟨q, hq, h⟩ := Option.bind_eq_some_iff.mp h
          cases h
          exact foldl_setField_parsed _ _ List.nodup_nil (List.forall_mem_nil _)
            (List.forall_mem_cons.mpr ⟨readMember_parsed fuel hp, readMembers_parsed fuel hq⟩)
      split at h
      · exact readNumber_parsed h
      · exact readNumber_parsed h

theorem readElements_parsed : ∀ (fuel : Nat) {cs rest : List Char} {vs : List Value},
    readElements fuel cs = some (vs, rest) →
    ∀ v ∈ vs, Parsed v
  | 0, _, _, _, h => by cases h
  | fuel + 1, cs, rest, vs, h => by
    unfold readElements at h
    split at h
    · cases h
      exact List.forall_mem_nil _
    · obtain ⟨p, hp, h⟩ := Option.bind_eq_some_iff.mp h
      obtain ⟨q, hq, h⟩ := Option.bind_eq_some_iff.mp h
      cases h
      exact List.forall_mem_cons.mpr ⟨readValue_parsed fuel hp, readElements_parsed fuel hq⟩
    · cases h

theorem readMember_parsed : ∀ (fuel : Nat) {cs rest : List Char} {f : String × Value},
    readMember fuel cs = some (f, rest) →
    Parsed f.2
  | 0, _, _, _, h => by cases h
  | fuel + 1, cs, rest, f, h => by
    unfold readMember at h
    split at h
    · obtain ⟨⟨k, cs'⟩, _, h⟩ := Option.bind_eq_some_iff.mp h
      dsimp only at h
      split at h
      · obtain ⟨q, hq, h⟩ := Option.bind_eq_some_iff.mp h
        cases h
        exact readValue_parsed fuel hq
      · cases h
    · cases h

theorem readMembers_parsed : ∀ (fuel : Nat) {cs rest : List Char} {fs : List (String × Value)},
    readMembers fuel cs = some (fs, rest) → ∀ f ∈ fs, Parsed f.2
  | 0, _, _, _, h => by cases h
  | fuel + 1, cs, rest, fs, h => by
    unfold readMembers at h
    split at h
    · cases h
      exact List.forall_mem_nil _
    · obtain ⟨p, hp, h⟩ := Option.bind_eq_some_iff.mp h
      obtain ⟨q, hq, h⟩ := Option.bind_eq_some_iff.mp h
      cases h
      exact List.forall_mem_cons.mpr ⟨readMember_parsed fuel hp, readMembers_parsed fuel hq⟩
    · cases h

end

end Json

/-- What `JSON.parse` gives. -/
theorem parse_parsed {text : String} {v : Value} (h : parse text = some v) : v.Parsed := by
  unfold parse at h
  split at h
  · next w cs hread =>
    split at h
    · cases h
      exact Json.readValue_parsed _ hread
    · cases h
  · cases h

end Js
