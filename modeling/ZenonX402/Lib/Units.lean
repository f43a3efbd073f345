/-
# Texts of code units

A text as a program indexes it is the sequence of its UTF-16 code units, whether or not
they are paired. An alphabet gives each word of some width a unit of its own, so a
sequence of words is spelled in one way (`spell_inj`), and a text is read as words exactly
if all its units are letters (`read_iff`).

Key definitions: `CodeUnits`, `units`, `Alphabet`, `letter`, `indexOf`, `spell`, `read`.
Key theorems: `units_inj`, `indexOf_iff`, `spell_inj`, `read_iff`.
-/
import Mathlib.Algebra.Group.Nat.Defs
import Mathlib.Data.List.Basic
import Mathlib.Data.List.Lex
import Mathlib.Data.List.Nodup

/-- The order of units. A text is less than another one if its first unit that differs is, or if it
ends first. -/
instance instLinearOrderUInt16 : LinearOrder UInt16 where
  le_refl _ := UInt16.le_refl _
  le_trans _ _ _ := UInt16.le_trans
  le_antisymm _ _ := UInt16.le_antisymm
  le_total := UInt16.le_total
  lt_iff_le_not_ge a b := by
    rw [UInt16.lt_iff_toNat_lt, UInt16.le_iff_toNat_le, UInt16.le_iff_toNat_le]
    omega
  toDecidableLE := inferInstance

/-- The code units of a text. -/
abbrev CodeUnits := List UInt16

namespace CodeUnits

/-- A character is one unit, or a pair of surrogates. -/
def ofChar (c : Char) : CodeUnits :=
  if c.toNat < 0x10000 then [UInt16.ofNat c.toNat]
  else [UInt16.ofNat (0xd800 + (c.toNat - 0x10000) / 0x400),
    UInt16.ofNat (0xdc00 + (c.toNat - 0x10000) % 0x400)]

/-- The code units of a string. -/
def units (s : String) : CodeUnits := s.toList.flatMap ofChar

theorem toNat_char (c : Char) : c.toNat < 0x110000 ∧ ¬ (0xd800 ≤ c.toNat ∧ c.toNat < 0xe000) := by
  rcases c.valid with hlow | ⟨hlow, hhigh⟩
  · have hlow : c.toNat < 0xd800 := hlow
    omega
  · have hlow : 0xdfff < c.toNat := hlow
    have hhigh : c.toNat < 0x110000 := hhigh
    omega

/-- The units of a character are told from what follows them. -/
theorem ofChar_append_inj {c d : Char} {us vs : CodeUnits} (h : ofChar c ++ us = ofChar d ++ vs) :
    c = d ∧ us = vs := by
  have hunit {n m : Nat} (hn : n < 65536) (hm : m < 65536) (heq : UInt16.ofNat n = UInt16.ofNat m) :
      n = m := by
    have hnat := congrArg UInt16.toNat heq
    rwa [UInt16.toNat_ofNat', UInt16.toNat_ofNat', Nat.mod_eq_of_lt hn, Nat.mod_eq_of_lt hm] at hnat
  obtain ⟨hc, hsurrogate⟩ := toNat_char c
  obtain ⟨hd, hsurrogate'⟩ := toNat_char d
  unfold ofChar at h
  by_cases hsmall : c.toNat < 0x10000 <;> by_cases hsmall' : d.toNat < 0x10000
  · rw [if_pos hsmall, if_pos hsmall'] at h
    obtain ⟨hfirst, hrest⟩ := List.cons.inj h
    exact ⟨Char.toNat_inj.mp (hunit (by omega) (by omega) hfirst), hrest⟩
  · rw [if_pos hsmall, if_neg hsmall'] at h
    have hfirst := hunit (by omega) (by omega) (List.cons.inj h).1
    omega
  · rw [if_neg hsmall, if_pos hsmall'] at h
    have hfirst := hunit (by omega) (by omega) (List.cons.inj h).1
    omega
  · rw [if_neg hsmall, if_neg hsmall'] at h
    obtain ⟨hfirst, hrest⟩ := List.cons.inj h
    obtain ⟨hsecond, hrest⟩ := List.cons.inj hrest
    have hhigh := hunit (by omega) (by omega) hfirst
    have hlow := hunit (by omega) (by omega) hsecond
    exact ⟨Char.toNat_inj.mp (by omega), hrest⟩

theorem ofChar_ne_nil (c : Char) : ofChar c ≠ [] := by
  unfold ofChar
  split <;> exact List.cons_ne_nil _ _

/-- A text is known by its units. -/
theorem units_inj {s t : String} (h : units s = units t) : s = t := by
  have hchars : ∀ cs ds : List Char, cs.flatMap ofChar = ds.flatMap ofChar → cs = ds := by
    intro cs
    induction cs with
    | nil =>
      intro ds hds
      cases ds with
      | nil => rfl
      | cons d ds =>
        rw [List.flatMap_nil, List.flatMap_cons] at hds
        exact absurd (List.append_eq_nil_iff.mp hds.symm).1 (ofChar_ne_nil d)
    | cons c cs ih =>
      intro ds hds
      cases ds with
      | nil =>
        rw [List.flatMap_nil, List.flatMap_cons] at hds
        exact absurd (List.append_eq_nil_iff.mp hds).1 (ofChar_ne_nil c)
      | cons d ds =>
        rw [List.flatMap_cons, List.flatMap_cons] at hds
        obtain ⟨rfl, hrest⟩ := ofChar_append_inj hds
        rw [ih ds hrest]
  exact String.toList_inj.mp (hchars _ _ h)

/-! ### Alphabets -/

/-- A letter for each word of some width. -/
structure Alphabet (w : Nat) where
  letters : CodeUnits
  length_eq : letters.length = 2 ^ w
  nodup : letters.Nodup

variable {w : Nat} (A : Alphabet w)

def Alphabet.letter (v : BitVec w) : UInt16 :=
  A.letters.get ⟨v.toNat, by rw [A.length_eq]; exact v.isLt⟩

/-- The word that a unit is the letter of. -/
def Alphabet.indexOf (u : UInt16) : Option (BitVec w) := (A.letters.idxOf? u).map (BitVec.ofNat w)

theorem Alphabet.letter_inj {v v' : BitVec w} (h : A.letter v = A.letter v') : v = v' := by
  have hindex := (List.Nodup.get_inj_iff A.nodup).mp h
  exact BitVec.eq_of_toNat_eq (Fin.mk.inj hindex)

theorem Alphabet.indexOf_letter (v : BitVec w) : A.indexOf (A.letter v) = some v := by
  have hlt : v.toNat < A.letters.length := by
    rw [A.length_eq]
    exact v.isLt
  have hindex : A.letters.idxOf? (A.letter v) = some v.toNat := by
    rw [List.idxOf?, List.findIdx?_eq_some_iff_getElem]
    refine ⟨hlt, by simp [letter], fun i hi heq => ?_⟩
    have hsame := A.nodup.getElem_inj_iff.mp (beq_iff_eq.mp heq)
    omega
  rw [indexOf, hindex, Option.map_some, BitVec.ofNat_toNat, BitVec.setWidth_eq]

theorem Alphabet.indexOf_iff {u : UInt16} {v : BitVec w} :
    A.indexOf u = some v ↔ u = A.letter v := by
  constructor
  · intro h
    obtain ⟨i, hi, rfl⟩ := Option.map_eq_some_iff.mp h
    obtain ⟨hlt, heq, -⟩ := List.findIdx?_eq_some_iff_getElem.mp hi
    have hmod : i % 2 ^ w = i := Nat.mod_eq_of_lt (A.length_eq ▸ hlt)
    simp only [letter, BitVec.toNat_ofNat, hmod]
    exact (beq_iff_eq.mp heq).symm
  · rintro rfl
    exact A.indexOf_letter v

/-! ### Words as texts -/

/-- Words, a letter for each. -/
def Alphabet.spell (vs : List (BitVec w)) : CodeUnits := vs.map A.letter

/-- The words that a text spells, if all its units are letters. -/
def Alphabet.read (us : CodeUnits) : Option (List (BitVec w)) := us.mapM A.indexOf

theorem Alphabet.length_spell (vs : List (BitVec w)) : (A.spell vs).length = vs.length :=
  List.length_map ..

theorem Alphabet.spell_inj {vs us : List (BitVec w)} (h : A.spell vs = A.spell us) : vs = us :=
  List.map_injective_iff.mpr (fun _ _ => A.letter_inj) h

theorem Alphabet.read_iff : ∀ {us : CodeUnits} {vs : List (BitVec w)}, A.read us = some vs ↔
    us = A.spell vs
  | [], vs => by
    cases vs <;> simp [read, spell]
  | u :: us, vs => by
    have ih := fun vs => @read_iff us vs
    unfold read at ih ⊢
    rw [List.mapM_cons]
    simp only [Option.bind_eq_bind, Option.bind_eq_some_iff, Option.pure_def, Option.some.injEq, ih,
      A.indexOf_iff]
    constructor
    · rintro ⟨v, rfl, rest, rfl, rfl⟩
      rfl
    · intro h
      cases vs with
      | nil => simp [spell] at h
      | cons v vs =>
        obtain ⟨hu, hus⟩ := List.cons.inj h
        exact ⟨v, hu, vs, hus, rfl⟩

end CodeUnits
