/-
# The tokens that the scanner reads

What the scanner passes over is a token of the grammar, and it passes over the whole of it: the
whitespace, a string with its escapes, a number. Strings are bounded by the bytes of what
they hold.

Key theorems: `utf8Length_iff`, `character_iff`, `stringValue_sound`, `stringValue_complete`,
`stringValue_turns`, `number_iff`.
-/
import Mathlib.Data.List.TakeWhile
import ZenonX402.Zenon.ResultScanner

namespace ZenonX402
namespace Zenon
namespace Scanner

open CodeUnits Rfc8259
open Js (bind_ok orReject_ok ite_error_left_ok ite_error_right_ok Gives gives_orReject gives_ite)

/-! ### Bytes and whitespace -/

/-- One step of the count: a text goes on with one unit or with two. -/
theorem sized_cons {c : UInt16} {a : CodeUnits} {n : Nat} : Sized (c :: a) n ↔
    (isHigh c = false ∧ isLow c = false ∧ ∃ k, Sized a k ∧ n = width c + k)
    ∨ (isHigh c = true ∧ ∃ d b k, a = d :: b ∧ isLow d = true ∧ Sized b k ∧ n = 4 + k) := by
  constructor
  · intro h
    cases h with
    | one hhigh hlow h => exact .inl ⟨hhigh, hlow, _, h, rfl⟩
    | pair hhigh hlow h => exact .inr ⟨hhigh, _, _, _, rfl, hlow, h, rfl⟩
  · rintro (⟨hhigh, hlow, k, h, rfl⟩ | ⟨hhigh, d, b, k, rfl, hlow, h, rfl⟩)
    · exact .one hhigh hlow h
    · exact .pair hhigh hlow h

theorem utf8Length_cons {maximum bytes : Nat} {c : UInt16} {a : CodeUnits} :
    utf8Length maximum bytes (c :: a) =
    if isHigh c then match a with
      | d :: b => if isLow d = false ∨ bytes + 4 > maximum then none
          else utf8Length maximum (bytes + 4) b
      | [] => none
    else if isLow c ∨ bytes + width c > maximum then none
    else utf8Length maximum (bytes + width c) a := by
  rcases a with _ | ⟨d, b⟩
  · rw [utf8Length]
    by_cases hhigh : isHigh c = true <;> by_cases hlow : isLow c = true <;> by_cases hmax : bytes
      + width c > maximum <;>
      simp [hhigh, hlow, hmax, utf8Length]
  · rw [utf8Length]
    by_cases hhigh : isHigh c = true <;> by_cases hlow : isLow c = true <;>
      by_cases hlow' : isLow d = true <;>
      by_cases hmax : bytes + width c > maximum <;> by_cases hmax' : bytes + 4 > maximum <;>
      simp [hhigh, hlow, hlow', hmax, hmax']

/-- The bytes are those of a text whose surrogates are paired. -/
theorem utf8Length_iff {maximum n : Nat} : ∀ {bytes : Nat} {a : CodeUnits}, bytes ≤ maximum →
    (utf8Length maximum bytes a = some n ↔ ∃ k, Sized a k ∧ n = bytes + k ∧ n ≤ maximum)
  | bytes, [], h => by
    rw [utf8Length, Option.some.injEq]
    constructor
    · rintro rfl
      exact ⟨0, .nil, rfl, h⟩
    · rintro ⟨k, hk, rfl, -⟩
      cases hk
      rfl
  | bytes, c :: a, h => by
    rw [utf8Length_cons]
    simp only [sized_cons]
    rcases hhigh : isHigh c with _ | _
    · rw [if_neg Bool.false_ne_true, Option.ite_none_left_eq_some, not_or,
        Bool.not_eq_true, Nat.not_lt]
      constructor
      · rintro ⟨⟨hlow, hmax⟩, hrest⟩
        obtain ⟨k, hk, rfl, hn⟩ := (utf8Length_iff hmax).mp hrest
        exact ⟨width c + k, .inl ⟨rfl, hlow, k, hk, rfl⟩, by omega, hn⟩
      · rintro ⟨_, ⟨-, hlow, k, hk, rfl⟩ | ⟨htrue, -⟩, rfl, hn⟩
        · have hmax : bytes + width c ≤ maximum := by omega
          exact ⟨⟨hlow, hmax⟩, (utf8Length_iff hmax).mpr ⟨k, hk, by omega, hn⟩⟩
        · cases htrue
    · rw [if_pos rfl]
      rcases a with _ | ⟨d, b⟩
      · refine iff_of_false (fun h => nomatch h) ?_
        rintro ⟨_, ⟨hfalse, -⟩ | ⟨-, _, _, _, hnil, -⟩, -⟩
        · cases hfalse
        · cases hnil
      · simp only [Option.ite_none_left_eq_some, not_or, Bool.not_eq_false, Nat.not_lt]
        constructor
        · rintro ⟨⟨hlow, hmax⟩, hrest⟩
          obtain ⟨k, hk, rfl, hn⟩ := (utf8Length_iff hmax).mp hrest
          exact ⟨4 + k, .inr ⟨trivial, d, b, k, rfl, hlow, hk, rfl⟩, by omega, hn⟩
        · rintro ⟨_, ⟨hfalse, -⟩ | ⟨-, d', b', k, heq, hlow, hk, rfl⟩, rfl, hn⟩
          · cases hfalse
          · obtain ⟨rfl, rfl⟩ := List.cons.inj heq
            have hmax : bytes + 4 ≤ maximum := by omega
            exact ⟨⟨hlow, hmax⟩, (utf8Length_iff hmax).mpr ⟨k, hk, by omega, hn⟩⟩
  termination_by _ a => a.length

theorem whitespace_split (a : CodeUnits) : ∃ w, a = w ++ whitespace a ∧ Ws w :=
  ⟨a.takeWhile isWhitespace, (List.takeWhile_append_dropWhile).symm,
    fun _ hc => List.mem_takeWhile_imp hc⟩

theorem whitespace_length (a : CodeUnits) : (whitespace a).length ≤ a.length :=
  (List.dropWhile_sublist isWhitespace).length_le

theorem whitespace_append {w x : CodeUnits} (hw : Ws w) (hx : Stops isWhitespace x) :
    whitespace (w ++ x) = x := dropWhile_append hw hx

theorem stops_whitespace (a : CodeUnits) : Stops isWhitespace (whitespace a) :=
  stops_dropWhile isWhitespace a

/-! ### Strings -/

theorem unicodeUnit_succ {n value : Nat} {a r : CodeUnits} {c : UInt16} :
    unicodeUnit (n + 1) value a = some (c, r) ↔
    ∃ u b i, a = u :: b ∧ hexDigit u = some i ∧ unicodeUnit n (value * 16 + i) b = some (c, r) := by
  cases a with
  | nil =>
    constructor
    · intro h
      cases h
    · rintro ⟨_, _, _, h, -⟩
      cases h
  | cons u b =>
    simp only [unicodeUnit, Option.bind_eq_bind, Option.bind_eq_some_iff]
    constructor
    · rintro ⟨i, hi, h⟩
      exact ⟨u, b, i, rfl, hi, h⟩
    · rintro ⟨_, _, i, heq, hi, h⟩
      obtain ⟨rfl, rfl⟩ := List.cons.inj heq
      exact ⟨i, hi, h⟩

theorem unicodeUnit_iff {a r : CodeUnits} {c : UInt16} :
    unicodeUnit 4 0 a = some (c, r) ↔ ∃ h, a = h ++ r ∧ Hex h c := by
  constructor
  · intro h
    obtain ⟨u, b, i, rfl, hi, h⟩ := unicodeUnit_succ.mp h
    obtain ⟨v, b, j, rfl, hj, h⟩ := unicodeUnit_succ.mp h
    obtain ⟨x, b, k, rfl, hk, h⟩ := unicodeUnit_succ.mp h
    obtain ⟨y, b, l, rfl, hl, h⟩ := unicodeUnit_succ.mp h
    obtain ⟨rfl, rfl⟩ := Prod.mk.inj (Option.some.inj h)
    exact ⟨[u, v, x, y], rfl, u, v, x, y, i, j, k, l, rfl, hi, hj, hk,
      hl, by rw [Nat.zero_mul, Nat.zero_add]⟩
  · rintro ⟨_, rfl, u, v, x, y, i, j, k, l, rfl, hi, hj, hk, hl, rfl⟩
    refine unicodeUnit_succ.mpr ⟨u, _, i, rfl, hi, unicodeUnit_succ.mpr ⟨v, _, j, rfl, hj, ?_⟩⟩
    refine unicodeUnit_succ.mpr ⟨x, _, k, rfl, hk, unicodeUnit_succ.mpr ⟨y, _, l, rfl, hl, ?_⟩⟩
    rw [Nat.zero_mul, Nat.zero_add]
    rfl

theorem escapedUnit_iff {a r : CodeUnits} {c : UInt16} : escapedUnit a = some (c, r) ↔
    (∃ e, a = e :: r ∧ escape e = some c) ∨ ∃ h, a = 117 :: (h ++ r) ∧ Hex h c := by
  have hletter : escape 117 = none := by decide
  rcases a with _ | ⟨e, a⟩
  · refine iff_of_false (fun h => nomatch h) ?_
    rintro (⟨_, h, -⟩ | ⟨_, h, -⟩) <;> cases h
  by_cases he : e = 117
  · rw [escapedUnit, if_pos he, unicodeUnit_iff]
    constructor
    · rintro ⟨h, rfl, hhex⟩
      exact .inr ⟨h, by rw [he], hhex⟩
    · rintro (⟨d, heq, hshort⟩ | ⟨h, heq, hhex⟩)
      · rw [← (List.cons.inj heq).1, he, hletter] at hshort
        cases hshort
      · exact ⟨h, (List.cons.inj heq).2, hhex⟩
  · rw [escapedUnit, if_neg he, Option.map_eq_some_iff]
    constructor
    · rintro ⟨code, hshort, heq⟩
      obtain ⟨rfl, rfl⟩ := Prod.mk.inj heq
      exact .inl ⟨e, rfl, hshort⟩
    · rintro (⟨d, heq, hshort⟩ | ⟨h, heq, -⟩)
      · obtain ⟨rfl, rfl⟩ := List.cons.inj heq
        exact ⟨c, hshort, rfl⟩
      · exact absurd (List.cons.inj heq).1 he

/-- What is read as one unit of a string: the unit itself, or an escape of it. -/
theorem stringUnit_iff {c code : UInt16} {escaped : Bool} {a r : CodeUnits} :
    stringUnit c a = some (code, escaped, r) ↔
    (c ≠ 92 ∧ 32 ≤ c.toNat ∧ code = c ∧ escaped = false ∧ r = a)
      ∨ (c = 92 ∧ escaped = true ∧ escapedUnit a = some (code, r)) := by
  unfold stringUnit
  by_cases hc : c = 92
  · rw [if_pos hc, Option.map_eq_some_iff]
    constructor
    · rintro ⟨⟨code', b⟩, h, heq⟩
      simp only [Prod.mk.injEq] at heq
      obtain ⟨rfl, rfl, rfl⟩ := heq
      exact .inr ⟨hc, rfl, h⟩
    · rintro (⟨hne, -⟩ | ⟨-, rfl, h⟩)
      · exact absurd hc hne
      · exact ⟨(code, r), h, rfl⟩
  · rw [if_neg hc, Option.ite_none_left_eq_some, Nat.not_lt]
    constructor
    · rintro ⟨hvisible, heq⟩
      simp only [Option.some.injEq, Prod.mk.injEq] at heq
      obtain ⟨rfl, rfl, rfl⟩ := heq
      exact .inl ⟨hc, hvisible, rfl, rfl, rfl⟩
    · rintro (⟨-, hvisible, rfl, rfl, rfl⟩ | ⟨heq, -⟩)
      · exact ⟨hvisible, rfl⟩
      · exact absurd heq hc

theorem lowUnit_iff {escaped : Bool} {d : UInt16} {a r : CodeUnits} :
    lowUnit escaped a = some (d, r) ↔
    (escaped = false ∧ a = d :: r)
      ∨ (escaped = true ∧ ∃ h, a = 92 :: 117 :: (h ++ r) ∧ Hex h d) := by
  rcases escaped with _ | _
  · rcases a with _ | ⟨b, a⟩
    · simp [lowUnit]
    · simp [lowUnit]
  · rcases a with _ | ⟨b, _ | ⟨u, a⟩⟩
    · simp [lowUnit]
    · simp [lowUnit]
    · simp only [lowUnit, Option.ite_none_right_eq_some, unicodeUnit_iff, Bool.true_eq_false,
        false_and, false_or, true_and, List.cons.injEq]
      constructor
      · rintro ⟨⟨rfl, rfl⟩, h, rfl, hhex⟩
        exact ⟨h, ⟨rfl, rfl, rfl⟩, hhex⟩
      · rintro ⟨h, ⟨rfl, rfl, rfl⟩, hhex⟩
        exact ⟨⟨rfl, rfl⟩, h, rfl, hhex⟩

theorem escape_single {e c : UInt16} (h : escape e = some c) :
    isHigh c = false ∧ isLow c = false := by
  unfold escape at h
  repeat' split at h
  all_goals cases h
  all_goals decide

/-- The first of two surrogates is read with the second. -/
theorem character_cases {c : UInt16} {a units r : CodeUnits} {size : Nat} :
    character c a = some (units, size, r) ↔
    ∃ code escaped b, stringUnit c a = some (code, escaped, b) ∧
      ((isHigh code = true ∧ ∃ low, lowUnit escaped b = some (low, r) ∧ isLow low = true
        ∧ units = [code, low] ∧ size = 4)
      ∨ (isHigh code = false ∧ isLow code = false ∧ units = [code] ∧ size = width code
        ∧ r = b)) := by
  unfold character
  simp only [Option.bind_eq_bind, Option.bind_eq_some_iff, Prod.exists]
  refine exists_congr fun code => exists_congr fun escaped => exists_congr fun b =>
    and_congr_right fun _ => ?_
  rcases hhigh : isHigh code with _ | _
  · simp only [Bool.false_eq_true, if_false, false_and, false_or, true_and,
      Option.ite_none_left_eq_some, Bool.not_eq_true, Option.some.injEq, Prod.mk.injEq]
    exact and_congr_right fun _ => and_congr eq_comm (and_congr eq_comm eq_comm)
  · simp only [if_true, Bool.true_eq_false, false_and, or_false, true_and,
      Option.bind_eq_some_iff, Prod.exists, Option.ite_none_right_eq_some, Option.some.injEq,
      Prod.mk.injEq]
    constructor
    · rintro ⟨low, b', hlow, hpaired, rfl, rfl, rfl⟩
      exact ⟨low, hlow, hpaired, rfl, rfl⟩
    · rintro ⟨low, hlow, hpaired, rfl, rfl⟩
      exact ⟨low, r, hlow, hpaired, rfl, rfl, rfl⟩

theorem sized_one {d : UInt16} (hhigh : isHigh d = false) (hlow : isLow d = false) :
    Sized [d] (width d) := .one hhigh hlow .nil

theorem sized_two {d e : UInt16} (hhigh : isHigh d = true) (hlow : isLow e = true) :
    Sized [d, e] 4 := .pair hhigh hlow .nil

/-- **Characters.** A character of a string is read in full, with its bytes. -/
theorem character_iff {c : UInt16} {a units r : CodeUnits} {size : Nat} (hc : c ≠ 34) :
    character c a = some (units, size, r) ↔
    ∃ raw, c :: a = raw ++ r ∧ Piece units raw ∧ Sized units size := by
  rw [character_cases]
  constructor
  · rintro ⟨code, escaped, b, hunit,
      ⟨hhigh, low, hpair, hlow, rfl, rfl⟩ | ⟨hhigh, hlow, rfl, rfl, rfl⟩⟩
    · rcases stringUnit_iff.mp hunit with ⟨-, -, rfl, rfl, rfl⟩ | ⟨rfl, rfl, hescaped⟩
      · rcases lowUnit_iff.mp hpair with ⟨-, rfl⟩ | ⟨hfalse, -⟩
        · exact ⟨[code, low], rfl, .pair hhigh hlow, sized_two hhigh hlow⟩
        · cases hfalse
      · rcases lowUnit_iff.mp hpair with ⟨hfalse, -⟩ | ⟨-, h', rfl, hhex'⟩
        · cases hfalse
        rcases escapedUnit_iff.mp hescaped with ⟨e, rfl, hshort⟩ | ⟨h, rfl, hhex⟩
        · exact absurd ((escape_single hshort).1.symm.trans hhigh) Bool.false_ne_true
        · exact ⟨92 :: 117 :: (h
            ++ 92 :: 117 :: h'), by simp, .hexPair hhex hhigh hhex' hlow, sized_two hhigh hlow⟩
    · rcases stringUnit_iff.mp hunit with ⟨hescape, hvisible, rfl, rfl, rfl⟩ | ⟨rfl, rfl, hescaped⟩
      · exact ⟨[code], rfl, .plain hvisible hc hescape hhigh hlow, sized_one hhigh hlow⟩
      · rcases escapedUnit_iff.mp hescaped with ⟨e, rfl, hshort⟩ | ⟨h, rfl, hhex⟩
        · exact ⟨[92, e], rfl, .short hshort, sized_one hhigh hlow⟩
        · exact ⟨92 :: 117 :: h, rfl, .hex hhex hhigh hlow, sized_one hhigh hlow⟩
  · rintro ⟨raw, heq, hpiece, hsize⟩
    cases hpiece with
    | plain hvisible _ hescape hhigh hlow =>
      obtain ⟨rfl, rfl⟩ := List.cons.inj heq
      exact ⟨c, false, a, stringUnit_iff.mpr (.inl ⟨hescape, hvisible, rfl, rfl, rfl⟩),
        .inr ⟨hhigh, hlow, rfl, sized_unique hsize (sized_one hhigh hlow), rfl⟩⟩
    | @pair _ low hhigh hlow =>
      obtain ⟨rfl, rfl⟩ := List.cons.inj heq
      have hescape : c ≠ 92 :=
        fun h => absurd (isHigh_escape.symm.trans (h ▸ hhigh)) Bool.false_ne_true
      have hvisible : 32 ≤ c.toNat := by
        simp only [isHigh, Bool.and_eq_true, decide_eq_true_eq] at hhigh
        omega
      exact ⟨c, false, low :: r, stringUnit_iff.mpr (.inl ⟨hescape, hvisible, rfl, rfl, rfl⟩),
        .inl ⟨hhigh, low, lowUnit_iff.mpr (.inl ⟨rfl, rfl⟩), hlow, rfl,
          sized_unique hsize (sized_two hhigh hlow)⟩⟩
    | @short e code hshort =>
      obtain ⟨rfl, rfl⟩ := List.cons.inj heq
      obtain ⟨hhigh, hlow⟩ := escape_single hshort
      exact ⟨code, true, r,
        stringUnit_iff.mpr (.inr ⟨rfl, rfl, escapedUnit_iff.mpr (.inl ⟨e, rfl, hshort⟩)⟩),
        .inr ⟨hhigh, hlow, rfl, sized_unique hsize (sized_one hhigh hlow), rfl⟩⟩
    | @hex h code hhex hhigh hlow =>
      obtain ⟨rfl, rfl⟩ := List.cons.inj heq
      exact ⟨code, true, r,
        stringUnit_iff.mpr (.inr ⟨rfl, rfl, escapedUnit_iff.mpr (.inr ⟨h, rfl, hhex⟩)⟩),
        .inr ⟨hhigh, hlow, rfl, sized_unique hsize (sized_one hhigh hlow), rfl⟩⟩
    | @hexPair h h' code low hhex hhigh hhex' hlow =>
      obtain ⟨rfl, rfl⟩ := List.cons.inj heq
      refine ⟨code, true, 92 :: 117 :: (h' ++ r),
        stringUnit_iff.mpr (.inr ⟨rfl, rfl, escapedUnit_iff.mpr (.inr ⟨h, by simp, hhex⟩)⟩),
        .inl ⟨hhigh, low, lowUnit_iff.mpr (.inr ⟨rfl, h', rfl, hhex'⟩), hlow, rfl,
          sized_unique hsize (sized_two hhigh hlow)⟩⟩

/-- A string of at most so many bytes. -/
def Fits (maximum : Nat) (s : CodeUnits) : Prop := ∃ k, Sized s k ∧ k ≤ maximum

theorem piece_sized {units raw : CodeUnits} (h : Piece units raw) : ∃ size, Sized units size := by
  cases h with
  | plain _ _ _ hhigh hlow => exact ⟨_, sized_one hhigh hlow⟩
  | pair hhigh hlow => exact ⟨_, sized_two hhigh hlow⟩
  | short h => exact ⟨_, sized_one (escape_single h).1 (escape_single h).2⟩
  | hex _ hhigh hlow => exact ⟨_, sized_one hhigh hlow⟩
  | hexPair _ hhigh _ hlow => exact ⟨_, sized_two hhigh hlow⟩

theorem spelled_sized {s b : CodeUnits} (h : Spelled s b) : ∃ k, Sized s k := by
  induction h with
  | nil => exact ⟨0, .nil⟩
  | cons hpiece _ ih =>
    obtain ⟨size, hsize⟩ := piece_sized hpiece
    obtain ⟨k, hk⟩ := ih
    exact ⟨size + k, hsize.append hk⟩

/-- What is read up to a quote is spelled there. -/
theorem stringLoop_sound {maximum : Nat} :
    ∀ {n : Nat} {decoded : CodeUnits} {bytes : Nat} {a s r : CodeUnits}, bytes ≤ maximum →
    stringLoop maximum n decoded bytes a = .ok (s, r) → ∃ t b k, a = b ++ 34 :: r ∧ Spelled t b
      ∧ s = decoded ++ t ∧ Sized t k
      ∧ bytes + k ≤ maximum
  | _, _, _, [], _, _, _, h => by
    rw [stringLoop] at h
    cases h
  | 0, _, _, _ :: _, _, _, _, h => nomatch h
  | n + 1, decoded, bytes, c :: a, s, r, hbytes, h => by
    rw [stringLoop] at h
    by_cases hc : c = 34
    · rw [if_pos hc, Except.ok.injEq, Prod.mk.injEq] at h
      obtain ⟨rfl, rfl⟩ := h
      exact ⟨[], [], 0, by rw [hc]; rfl, .nil, (List.append_nil _).symm, .nil, hbytes⟩
    · rw [if_neg hc] at h
      obtain ⟨⟨units, size, b⟩, hcharacter, h⟩ := bind_ok.mp h
      rw [ite_error_left_ok, Nat.not_lt] at h
      obtain ⟨hmax, hrest⟩ := h
      obtain ⟨raw, heq, hpiece, hsize⟩ := (character_iff hc).mp (orReject_ok.mp hcharacter)
      obtain ⟨t, b', k, rfl, ht, rfl, hk, hfits⟩ := stringLoop_sound hmax hrest
      exact ⟨units ++ t, raw ++ b',
        size + k, by rw [heq,
          List.append_assoc], .cons hpiece ht, List.append_assoc _ _ _, hsize.append hk, by omega⟩

/-- What is spelled is read, up to its quote. -/
theorem stringLoop_complete {maximum : Nat} {t b : CodeUnits} (h : Spelled t b) :
    ∀ {n : Nat} {decoded : CodeUnits} {bytes k : Nat}
    {r : CodeUnits}, Sized t k → bytes + k ≤ maximum → (b ++ 34 :: r).length ≤ n →
    stringLoop maximum n decoded bytes (b ++ 34 :: r) = .ok (decoded ++ t, r) := by
  induction h with
  | nil =>
    intro n decoded bytes k r _ _ hn
    obtain ⟨n, rfl⟩ := Nat.exists_eq_add_of_le' (Nat.lt_of_lt_of_le (Nat.zero_lt_succ _) hn)
    rw [List.nil_append, stringLoop, if_pos rfl, List.append_nil]
  | @cons units raw s b hpiece hs ih =>
    intro n decoded bytes k r hk hmax hn
    obtain ⟨size, hsize⟩ := piece_sized hpiece
    obtain ⟨l, hl⟩ := spelled_sized hs
    obtain rfl := sized_unique hk (hsize.append hl)
    obtain ⟨c, a, rfl, -⟩ := piece_head hpiece
    have hc : c ≠ 34 := fun heq => by
      rw [heq] at hpiece
      exact piece_ne_quote hpiece (x := []) rfl
    rw [List.append_assoc, List.cons_append] at hn ⊢
    obtain ⟨n, rfl⟩ := Nat.exists_eq_add_of_le' (Nat.lt_of_lt_of_le (Nat.zero_lt_succ _) hn)
    have hcharacter : character c (a ++ (b ++ 34 :: r)) = some (units, size, b ++ 34 :: r) :=
      (character_iff hc).mpr ⟨c :: a, rfl, hpiece, hsize⟩
    have hfits : ¬bytes + size > maximum := by omega
    have hrest : (b ++ 34 :: r).length ≤ n := by
      simp only [List.length_cons, List.length_append] at hn ⊢
      omega
    rw [stringLoop, if_neg hc, hcharacter, ← List.append_assoc]
    exact (if_neg hfits).trans (ih hl (by omega) hrest)

theorem stringValue_sound {n maximum : Nat} {a s r : CodeUnits}
    (h : stringValue n maximum a = .ok (s, r)) :
    ∃ q, a = q ++ r ∧ Quoted s q ∧ Fits maximum s := by
  rcases a with _ | ⟨c, a⟩
  · cases h
  rw [stringValue, ite_error_right_ok] at h
  obtain ⟨rfl, hloop⟩ := h
  obtain ⟨t, b, k, rfl, ht, rfl, hk, hfits⟩ := stringLoop_sound (Nat.zero_le _) hloop
  exact ⟨34 :: (b ++ [34]), by simp, ⟨b, rfl, ht⟩, k, hk, by omega⟩

theorem stringValue_complete {n maximum : Nat} {q s : CodeUnits} (hq : Quoted s q)
    (hs : Fits maximum s) (r : CodeUnits) (hn : (q ++ r).length ≤ n) :
    stringValue n maximum (q ++ r) = .ok (s, r) := by
  obtain ⟨b, rfl, hb⟩ := hq
  obtain ⟨k, hk, hfits⟩ := hs
  have htext : 34 :: (b ++ [34]) ++ r = 34 :: (b ++ 34 :: r) := by simp
  rw [htext] at hn ⊢
  rw [stringValue, if_pos rfl,
    stringLoop_complete hb hk (by omega) (by simp only [List.length_cons] at hn; omega),
    List.nil_append]

/-- With a turn for each unit the loop of a string ends: a character is some of the units. -/
theorem stringLoop_turns {maximum : Nat} :
    ∀ {n : Nat} {decoded : CodeUnits} {bytes : Nat} {a : CodeUnits}, a.length ≤ n →
    Gives (stringLoop maximum n decoded bytes a) (· = .refused) fun _ => True
  | _, _, _, [], _ => by
    rw [stringLoop]
    rfl
  | 0, _, _, _ :: _, hn => absurd hn (Nat.not_succ_le_zero _)
  | n + 1, decoded, bytes, c :: a, hn => by
    rw [stringLoop, gives_ite]
    refine ⟨fun _ => trivial, fun hc => gives_orReject.mpr ⟨fun _ => rfl, ?_⟩⟩
    rintro ⟨units, size, b⟩ hcharacter
    obtain ⟨raw, heq, hpiece, -⟩ := (character_iff hc).mp hcharacter
    obtain ⟨d, x, rfl, -⟩ := piece_head hpiece
    have hlength : b.length ≤ n := by
      have hlengths := congrArg List.length heq
      simp only [List.length_cons, List.length_append] at hlengths hn
      omega
    exact gives_ite.mpr ⟨fun _ => rfl, fun _ => stringLoop_turns hlength⟩

theorem stringValue_turns {n maximum : Nat} {a : CodeUnits} (hn : a.length ≤ n) :
    Gives (stringValue n maximum a) (· = .refused) fun _ => True := by
  rcases a with _ | ⟨c, a⟩
  · rfl
  rw [stringValue, gives_ite]
  exact ⟨fun _ => stringLoop_turns ((Nat.le_succ _).trans hn), fun _ => rfl⟩

/-! ### Numbers -/

theorem digits_iff {a r : CodeUnits} : digits a = some r ↔ ∃ ds, a = ds ++ r ∧ Digits ds
    ∧ Stops isDigit r := by
  unfold digits
  rw [Option.ite_none_left_eq_some]
  constructor
  · rintro ⟨hne, hr⟩
    obtain rfl := Option.some.inj hr
    exact ⟨a.takeWhile isDigit, (List.takeWhile_append_dropWhile).symm,
      ⟨hne, fun _ hc => List.mem_takeWhile_imp hc⟩, stops_dropWhile isDigit a⟩
  · rintro ⟨ds, rfl, ⟨hne, hds⟩, hr⟩
    rw [takeWhile_append hds hr, dropWhile_append hds hr]
    exact ⟨hne, rfl⟩

theorem stops_nil (p : UInt16 → Bool) : Stops p [] := fun _ hc => nomatch hc

theorem stops_of_takeWhile {p : UInt16 → Bool} {a : CodeUnits} (h : a.takeWhile p = []) :
    Stops p a := by
  intro c hc
  obtain ⟨b, rfl⟩ := List.head?_eq_some_iff.mp hc
  by_contra hp
  rw [Bool.not_eq_false] at hp
  rw [List.takeWhile_cons, if_pos hp] at h
  cases h

theorem integer_iff {a r : CodeUnits} : integer a = some r ↔ ∃ i, a = i ++ r ∧ IsInt i
    ∧ Stops isDigit r := by
  rcases a with _ | ⟨c, a⟩
  · refine iff_of_false (fun h => nomatch h) ?_
    rintro ⟨i, heq, hint, -⟩
    obtain ⟨rfl, -⟩ := List.append_eq_nil_iff.mp heq.symm
    rcases hint with h | ⟨_, _, h, -⟩ <;> cases h
  by_cases hzero : c = 48
  · rw [integer, if_pos hzero, Option.ite_none_right_eq_some, List.isEmpty_iff, Option.some.injEq]
    constructor
    · rintro ⟨hempty, rfl⟩
      exact ⟨[48], by rw [hzero]; rfl, .inl rfl, stops_of_takeWhile hempty⟩
    · rintro ⟨i, heq, rfl | ⟨d, ds, rfl, hd, -⟩, hr⟩
      · obtain ⟨-, rfl⟩ := List.cons.inj heq
        exact ⟨takeWhile_of_stops hr, rfl⟩
      · rw [← (List.cons.inj heq).1, hzero] at hd
        exact absurd hd.1 (by decide)
  · rw [integer, if_neg hzero, Option.ite_none_right_eq_some]
    constructor
    · rintro ⟨hc, hdigits⟩
      obtain ⟨ds, heq, ⟨hne, hds⟩, hr⟩ := digits_iff.mp hdigits
      rcases ds with _ | ⟨d, ds⟩
      · exact absurd rfl hne
      · obtain ⟨rfl, rfl⟩ := List.cons.inj heq
        exact ⟨c :: ds, rfl, .inr ⟨c, ds, rfl, hc, fun d hd => hds d (List.mem_cons_of_mem _ hd)⟩,
          hr⟩
    · rintro ⟨i, heq, rfl | ⟨d, ds, rfl, hd, hds⟩, hr⟩
      · exact absurd (List.cons.inj heq).1 hzero
      · obtain ⟨rfl, rfl⟩ := List.cons.inj heq
        refine ⟨hd, digits_iff.mpr
          ⟨c :: ds, rfl, ⟨List.cons_ne_nil _ _, List.forall_mem_cons.mpr ⟨?_, hds⟩⟩, hr⟩⟩
        simp only [isDigit, Bool.and_eq_true, decide_eq_true_eq]
        omega

theorem fraction_iff {a r : CodeUnits} : fraction a = some r ↔ ∃ f, a = f ++ r ∧ IsFrac f
    ∧ (f = [] → Stops (fun c => c = 46) r)
    ∧ (f ≠ [] → Stops isDigit r) := by
  rcases a with _ | ⟨c, a⟩
  · rw [fraction, Option.some.injEq]
    constructor
    · rintro rfl
      exact ⟨[], rfl, .inl rfl, fun _ => stops_nil _, fun hne => absurd rfl hne⟩
    · rintro ⟨f, heq, -⟩
      exact (List.append_eq_nil_iff.mp heq.symm).2.symm
  by_cases hpoint : c = 46
  · rw [fraction, if_pos hpoint, digits_iff]
    constructor
    · rintro ⟨ds, rfl, hds, hr⟩
      exact ⟨46 :: ds, by rw [hpoint]; rfl, .inr ⟨ds, rfl, hds⟩, (fun h => nomatch h), fun _ => hr⟩
    · rintro ⟨f, heq, rfl | ⟨ds, rfl, hds⟩, hstops, hr⟩
      · rw [List.nil_append] at heq
        have hnot := hstops rfl c (by rw [← heq]; rfl)
        exact absurd hpoint (of_decide_eq_false hnot)
      · exact ⟨ds, (List.cons.inj heq).2, hds, hr (List.cons_ne_nil _ _)⟩
  · rw [fraction, if_neg hpoint, Option.some.injEq]
    constructor
    · rintro rfl
      exact ⟨[], rfl, .inl rfl, fun _ => stops_cons (decide_eq_false hpoint),
        fun hne => absurd rfl hne⟩
    · rintro ⟨f, heq, rfl | ⟨ds, rfl, hds⟩, -⟩
      · exact heq
      · exact absurd (List.cons.inj heq).1 hpoint

/-- A sign is passed over, if there is one. -/
theorem sign_iff {isSign : UInt16 → Bool} {a r : CodeUnits} : sign isSign a = r ↔
    (a = r ∧ Stops isSign r) ∨ ∃ c, isSign c = true ∧ a = c :: r := by
  rcases a with _ | ⟨c, a⟩
  · rw [sign]
    constructor
    · rintro rfl
      exact .inl ⟨rfl, stops_nil _⟩
    · rintro (⟨h, -⟩ | ⟨_, _, h⟩)
      · exact h
      · cases h
  · rcases hc : isSign c with _ | _
    · rw [sign, hc, if_neg Bool.false_ne_true]
      constructor
      · rintro rfl
        exact .inl ⟨rfl, stops_cons hc⟩
      · rintro (⟨h, -⟩ | ⟨d, hd, h⟩)
        · exact h
        · rw [(List.cons.inj h).1, hd] at hc
          cases hc
    · rw [sign, hc, if_pos rfl]
      constructor
      · rintro rfl
        exact .inr ⟨c, hc, rfl⟩
      · rintro (⟨h, hstops⟩ | ⟨d, hd, h⟩)
        · have hnot := hstops c (by rw [← h]; rfl)
          rw [hc] at hnot
          cases hnot
        · exact (List.cons.inj h).2

theorem stops_digits {p : UInt16 → Bool} {ds : CodeUnits} (hds : Digits ds)
    (hp : ∀ c, isDigit c = true → p c = false) (x : CodeUnits) :
    Stops p (ds ++ x) := by
  obtain ⟨hne, hall⟩ := hds
  obtain ⟨c, b, rfl⟩ := List.exists_cons_of_ne_nil hne
  exact stops_cons (hp c (hall c List.mem_cons_self))

theorem isDigit_ne {c d : UInt16} (hc : isDigit c = true) (hd : isDigit d = false) :
    c ≠ d := fun h => by
  rw [h, hd] at hc
  cases hc

theorem exponent_iff {a r : CodeUnits} : exponent a = some r ↔ ∃ f, a = f ++ r ∧ IsExp f
    ∧ (f = [] → Stops (fun c => c = 101 || c = 69) r) ∧ (f ≠ [] → Stops isDigit r) := by
  rcases a with _ | ⟨c, a⟩
  · rw [exponent, Option.some.injEq]
    constructor
    · rintro rfl
      exact ⟨[], rfl, .inl rfl, fun _ => stops_nil _, fun hne => absurd rfl hne⟩
    · rintro ⟨f, heq, -⟩
      exact (List.append_eq_nil_iff.mp heq.symm).2.symm
  rcases hletter : (decide (c = 101) || decide (c = 69)) with _ | _
  · rw [exponent, hletter, if_neg Bool.false_ne_true, Option.some.injEq]
    constructor
    · rintro rfl
      exact ⟨[], rfl, .inl rfl, fun _ => stops_cons hletter, fun hne => absurd rfl hne⟩
    · rintro ⟨f, heq, rfl | ⟨e, sg, ds, rfl, he, -⟩, -⟩
      · exact heq
      · rw [← (List.cons.inj heq).1] at he
        rcases he with rfl | rfl <;> cases hletter
  · rw [exponent, hletter, if_pos rfl, digits_iff]
    simp only [Bool.or_eq_true, decide_eq_true_eq] at hletter
    constructor
    · rintro ⟨ds, hsign, hds, hr⟩
      rcases sign_iff.mp hsign with ⟨rfl, -⟩ | ⟨s, hs, rfl⟩
      · exact ⟨c :: ds, rfl, .inr ⟨c, [], ds, rfl, hletter, .inl rfl, hds⟩,
          (fun h => nomatch h), fun _ => hr⟩
      · simp only [Bool.or_eq_true, decide_eq_true_eq] at hs
        exact ⟨c :: ([s] ++ ds), rfl,
          .inr ⟨c, [s], ds, rfl, hletter, .inr (by simpa using hs), hds⟩,
          (fun h => nomatch h), fun _ => hr⟩
    · rintro ⟨f, heq, rfl | ⟨e, sg, ds, rfl, -, hsg, hds⟩, hstops, hr⟩
      · rw [List.nil_append] at heq
        have hnot := hstops rfl c (by rw [← heq]; rfl)
        rcases hletter with rfl | rfl <;> cases hnot
      · obtain ⟨rfl, rfl⟩ := List.cons.inj heq
        refine ⟨ds, sign_iff.mpr ?_, hds, hr (List.cons_ne_nil _ _)⟩
        have hnosign : ∀ d, isDigit d = true → (decide (d = 43) || decide (d = 45)) = false :=
          fun d hd => by
          simp [isDigit_ne hd (show isDigit 43 = false by decide),
            isDigit_ne hd (show isDigit 45 = false by decide)]
        rcases hsg with rfl | rfl | rfl
        · exact .inl ⟨rfl, stops_digits hds hnosign r⟩
        · exact .inr ⟨43, by decide, rfl⟩
        · exact .inr ⟨45, by decide, rfl⟩

theorem delimited_iff {a : CodeUnits} : a.head?.all isDelimiter = true ↔ Delimited a := by
  rcases a with _ | ⟨c, a⟩
  · exact iff_of_true rfl fun c hc => nomatch hc
  · rw [List.head?_cons, Option.all_some]
    constructor
    · intro h
      exact stops_cons (by simp [isPlainUnit, h])
    · intro h
      have hc := h c rfl
      simpa [isPlainUnit] using hc

section

variable {p : UInt16 → Bool} {r : CodeUnits} (hr : Delimited r)
    (hp : ∀ c, p c = true → isPlainUnit c = true)

include hr hp

theorem stops_of_delimited : Stops p r := fun c hc => by
  by_contra hpc
  rw [Bool.not_eq_false] at hpc
  exact absurd ((hr c hc).symm.trans (hp c hpc)) Bool.false_ne_true

theorem stops_exp {e : CodeUnits} (he : IsExp e) (hsmall : p 101 = false)
    (hcapital : p 69 = false) : Stops p (e ++ r) := by
  rcases he with rfl | ⟨c, sg, ds, rfl, hc, -⟩
  · exact stops_of_delimited hr hp
  · rcases hc with rfl | rfl
    · exact stops_cons hsmall
    · exact stops_cons hcapital

theorem stops_frac {f e : CodeUnits} (hf : IsFrac f) (he : IsExp e) (hpoint : p 46 = false)
    (hsmall : p 101 = false) (hcapital : p 69 = false) : Stops p (f ++ (e ++ r)) := by
  rcases hf with rfl | ⟨ds, rfl, -⟩
  · exact stops_exp hr hp he hsmall hcapital
  · exact stops_cons hpoint

end

theorem stops_int {i x : CodeUnits} (hi : IsInt i) : Stops (fun c => decide (c = 45)) (i ++ x) := by
  rcases hi with rfl | ⟨c, ds, rfl, hc, -⟩
  · exact stops_cons (by decide)
  · refine stops_cons (decide_eq_false fun h => ?_)
    rw [h] at hc
    exact absurd hc.1 (by decide)

/-- **Numbers.** A number is read in full, if what follows may follow a value. -/
theorem number_iff {a r : CodeUnits} : number a = some r ↔ ∃ token, a = token ++ r ∧ IsNumber token
    ∧ Delimited r := by
  unfold number
  simp only [Option.bind_eq_bind, Option.bind_eq_some_iff, integer_iff, fraction_iff, exponent_iff,
    Option.ite_none_right_eq_some, Option.some.injEq, delimited_iff]
  constructor
  · rintro ⟨a₁, ⟨i, hsign, hi, -⟩, a₂, ⟨f, rfl, hf, -⟩, a₃, ⟨e, rfl, he, -⟩, hr, rfl⟩
    rcases sign_iff.mp hsign with ⟨rfl, -⟩ | ⟨s, hs, rfl⟩
    · exact ⟨[] ++ (i ++ (f ++ e)), by simp, ⟨[], i, f, e, rfl, .inl rfl, hi, hf, he⟩, hr⟩
    · rw [decide_eq_true_eq] at hs
      subst hs
      exact ⟨[45] ++ (i ++ (f ++ e)), by simp, ⟨[45], i, f, e, rfl, .inr rfl, hi, hf, he⟩, hr⟩
  · rintro ⟨_, rfl, ⟨sg, i, f, e, rfl, hsg, hi, hf, he⟩, hr⟩
    have hdigit : ∀ c, isDigit c = true → isPlainUnit c = true := fun _ => isPlainUnit_digit
    have hpoint : ∀ c, decide (c = 46) = true → isPlainUnit c = true := fun c hc => by
      rw [of_decide_eq_true hc]
      decide
    have hexponent : ∀ c, (decide (c = 101) || decide (c = 69)) = true → isPlainUnit c = true :=
      fun c hc => by
      simp only [Bool.or_eq_true, decide_eq_true_eq] at hc
      rcases hc with rfl | rfl <;> decide
    refine ⟨f ++ (e ++ r),
      ⟨i, sign_iff.mpr ?_, hi, stops_frac hr hdigit hf he (by decide) (by decide) (by decide)⟩,
      e ++ r, ⟨f, rfl, hf, fun _ => stops_exp hr hpoint he (by decide) (by decide),
        fun _ => stops_exp hr hdigit he (by decide) (by decide)⟩,
      r, ⟨e, rfl, he, fun _ => stops_of_delimited hr hexponent,
        fun _ => stops_of_delimited hr hdigit⟩, hr, rfl⟩
    rcases hsg with rfl | rfl
    · exact .inl ⟨by simp, stops_int hi⟩
    · exact .inr ⟨45, by decide, by simp⟩

end Scanner
end Zenon
end ZenonX402
