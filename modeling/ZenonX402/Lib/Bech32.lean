/-
# The checksum of bech32

A symbol is five bits, an element of the field of `X ^ 5 + X ^ 3 + 1` over the bits
(`value`). A message of symbols is a polynomial over that field, and its checksum is what
is left of it modulo the generator, a polynomial of degree six (`generator`). A register
of thirty bits holds a remainder (`poly`), and one step of it multiplies the remainder by
`X`, adds a symbol and reduces (`poly_step`), so the register is the remainder of the whole
message (`poly_polymod`). A message has one checksum of six symbols (`valid_append_iff`),
and some data has one text (`existsUnique_encoding`).

Key definitions: `Field`, `value`, `poly`, `generator`, `step`, `polymod`, `Valid`, `checksum`,
`IsEncoding`.
Key theorems: `value_timesAlpha`, `poly_step`, `poly_polymod`, `valid_append_iff`,
`existsUnique_encoding`.
-/
import ZenonX402.Lib.Units
import ZenonX402.Lib.Bits
import Mathlib.RingTheory.AdjoinRoot
import Mathlib.Algebra.Polynomial.OfFn
import Mathlib.Algebra.Field.ZMod
import Mathlib.Algebra.CharP.Two
import Mathlib.Algebra.CharP.Algebra
import Mathlib.Algebra.Polynomial.Degree.Operations
import Mathlib.Tactic.ComputeDegree
import Mathlib.Tactic.LinearCombination

open Polynomial CodeUnits Bits

namespace Bech32

/-! ### Symbols -/

abbrev Symbol := BitVec 5

/-- The bits as numbers. -/
def bit (b : Bool) : ZMod 2 := if b then 1 else 0

theorem bit_xor (a b : Bool) : bit (a ^^ b) = bit a + bit b := by
  revert a b
  decide

theorem bit_inj : ∀ {a b : Bool}, bit a = bit b → a = b := by
  decide

/-- The polynomial of the field of symbols. -/
noncomputable def modulus : (ZMod 2)[X] := X ^ 5 + (X ^ 3 + 1)

theorem modulus_rest : (X ^ 3 + 1 : (ZMod 2)[X]).degree < (5 : Nat) := by
  compute_degree!

theorem modulus_degree : modulus.degree = (5 : Nat) := by
  rw [modulus, degree_add_eq_left_of_degree_lt (by rw [degree_X_pow]; exact modulus_rest),
    degree_X_pow]

/-- The field of symbols. -/
abbrev Field := AdjoinRoot modulus

instance : Nontrivial Field := AdjoinRoot.nontrivial modulus (by rw [modulus_degree]; decide)

instance : CharP Field 2 := charP_of_injective_ringHom (AdjoinRoot.of modulus).injective 2

noncomputable def α : Field := AdjoinRoot.root modulus

/-- The element that a symbol stands for. -/
noncomputable def value (v : Symbol) : Field :=
  AdjoinRoot.mk modulus (ofFn 5 fun i : Fin 5 => bit (v.getLsbD i))

theorem value_inj {v v' : Symbol} (h : value v = value v') : v = v' := by
  have hmod := (AdjoinRoot.mk_eq_mk.mp h)
  rw [← map_sub] at hmod
  have hzero := Polynomial.eq_zero_of_dvd_of_degree_lt hmod (by
    rw [modulus_degree]
    exact ofFn_degree_lt _)
  have hsame := injective_ofFn 5 (sub_eq_zero.mp ((map_sub (ofFn 5) _ _).symm.trans hzero))
  exact BitVec.eq_of_getLsbD_eq fun i hi => bit_inj (congrFun hsame ⟨i, hi⟩)

theorem value_xor (v v' : Symbol) : value (v ^^^ v') = value v + value v' := by
  have hbits : (fun i : Fin 5 => bit ((v ^^^ v').getLsbD i))
      = (fun i : Fin 5 => bit (v.getLsbD i)) + fun i : Fin 5 => bit (v'.getLsbD i) := by
    funext i
    rw [BitVec.getLsbD_xor, bit_xor, Pi.add_apply]
  rw [value, hbits, map_add, map_add, value, value]

/-- A symbol is a sum of powers of the root. -/
theorem value_eq (v : Symbol) :
    value v = ∑ i : Fin 5, AdjoinRoot.of modulus (bit (v.getLsbD i)) * α ^ (i : Nat) := by
  rw [value, ofFn_eq_sum_monomial, map_sum]
  refine Finset.sum_congr rfl fun i _ => ?_
  rw [← C_mul_X_pow_eq_monomial, map_mul, map_pow, AdjoinRoot.mk_C, AdjoinRoot.mk_X, α]

theorem value_zero : value 0 = 0 := by
  simp [value_eq, bit]

theorem value_one : value 1 = 1 := by
  simp [value_eq, bit]

theorem α_pow : α ^ 5 = α ^ 3 + 1 := by
  have hroot := AdjoinRoot.mk_self (f := modulus)
  rw [modulus, map_add, map_add, map_pow, map_pow, map_one] at hroot
  exact CharTwo.add_eq_zero.mp hroot

/-- A symbol times the root: its bits move up, and the highest is reduced. -/
def timesAlpha (v : Symbol) : Symbol := v <<< 1 ^^^ if v.getLsbD 4 then 9 else 0

theorem timesAlpha_bits : ∀ v : Symbol, (timesAlpha v).getLsbD 0 = v.getLsbD 4
    ∧ (timesAlpha v).getLsbD 1 = v.getLsbD 0
    ∧ (timesAlpha v).getLsbD 2 = v.getLsbD 1 ∧ (timesAlpha v).getLsbD 3
    = (v.getLsbD 2 ^^ v.getLsbD 4)
    ∧ (timesAlpha v).getLsbD 4 = v.getLsbD 3 := by
  decide

theorem value_timesAlpha (v : Symbol) : value (timesAlpha v) = α * value v := by
  obtain ⟨h0, h1, h2, h3, h4⟩ := timesAlpha_bits v
  simp only [value_eq, Fin.sum_univ_five, Fin.isValue, Fin.val_zero, Fin.val_one, Fin.val_two,
    show ((3 : Fin 5) : Nat) = 3 from rfl, show ((4 : Fin 5) : Nat) = 4 from rfl, h0, h1, h2, h3,
    h4, bit_xor, map_add]
  linear_combination -(AdjoinRoot.of modulus (bit (v.getLsbD 4))) * α_pow

/-! ### Registers -/

abbrev Register := BitVec 30

/-- Some symbol of a register, from the lowest. -/
def symbol (c : Register) (j : Nat) : Symbol := (c >>> (5 * j)).setWidth 5

theorem symbol_bit {c : Register} {i j : Nat} (h : i < 5) :
    (symbol c j).getLsbD i = c.getLsbD (5 * j + i) := by
  rw [symbol, BitVec.getLsbD_setWidth, decide_eq_true h, Bool.true_and, BitVec.getLsbD_ushiftRight]

theorem symbol_inj {c c' : Register} (h : ∀ j < 6, symbol c j = symbol c' j) : c = c' := by
  refine BitVec.eq_of_getLsbD_eq fun i hi => ?_
  have hbit := congrArg (fun v : Symbol => v.getLsbD (i % 5)) (h (i / 5) (by omega))
  simp only [symbol_bit (Nat.mod_lt i (by decide : 0 < 5)), Nat.div_add_mod] at hbit
  exact hbit

theorem symbol_xor (c c' : Register) (j : Nat) :
    symbol (c ^^^ c') j = symbol c j ^^^ symbol c' j := by
  refine BitVec.eq_of_getLsbD_eq fun i hi => ?_
  rw [BitVec.getLsbD_xor, symbol_bit hi, symbol_bit hi, symbol_bit hi, BitVec.getLsbD_xor]

/-- The polynomial that a register holds. -/
noncomputable def poly (c : Register) : Field[X] := ofFn 6 fun j : Fin 6 => value (symbol c j)

theorem poly_eq (c : Register) : poly c = ∑ j : Fin 6, C (value (symbol c j)) * X ^ (j : Nat) := by
  rw [poly, ofFn_eq_sum_monomial]
  exact Finset.sum_congr rfl fun j _ => (C_mul_X_pow_eq_monomial).symm

theorem poly_degree (c : Register) : (poly c).degree < (6 : Nat) := ofFn_degree_lt _

theorem poly_inj {c c' : Register} (h : poly c = poly c') : c = c' :=
  symbol_inj fun j hj => value_inj (congrFun (injective_ofFn 6 h) ⟨j, hj⟩)

theorem poly_xor (c c' : Register) : poly (c ^^^ c') = poly c + poly c' := by
  simp only [poly_eq, symbol_xor, value_xor, map_add, add_mul, Finset.sum_add_distrib]

theorem poly_zero : poly 0 = 0 := by
  have hsymbol (j : Nat) : symbol 0 j = 0 := by
    simp [symbol]
  simp only [poly_eq, hsymbol, value_zero, map_zero, zero_mul, Finset.sum_const_zero]

theorem poly_one : poly 1 = 1 := by
  have hfirst : symbol 1 0 = 1 := by decide
  have hrest : ∀ j : Fin 5, symbol 1 (j.succ : Fin 6) = 0 := by decide
  rw [poly_eq, Fin.sum_univ_succ]
  simp only [Fin.val_zero, hfirst, hrest, value_zero, value_one, map_zero, map_one, zero_mul,
    Finset.sum_const_zero, pow_zero, mul_one, add_zero]

/-! ### The generator -/

/-- What is left of the generator below its highest power, and its multiples by powers of the root.
-/
def generators : Fin 5 → Register := ![0x3b6a57b2, 0x26508e6d, 0x1ea119fa, 0x3d4233dd, 0x2a1462b3]

noncomputable def generator : Field[X] := X ^ 6 + poly (generators 0)

theorem generator_monic : generator.Monic := monic_X_pow_add (poly_degree _)

theorem generator_degree : generator.degree = (6 : Nat) := by
  rw [generator, degree_add_eq_left_of_degree_lt (by rw [degree_X_pow]; exact poly_degree _),
    degree_X_pow]

theorem poly_times {c c' : Register} (h : ∀ j : Fin 6, symbol c' j = timesAlpha (symbol c j)) :
    poly c' = C α * poly c := by
  simp only [poly_eq, h, value_timesAlpha, C_mul, mul_assoc, Finset.mul_sum]

theorem poly_generators (i : Fin 5) :
    poly (generators i) = C (α ^ (i : Nat)) * poly (generators 0) := by
  have hnext : ∀ (i : Fin 4) (j : Fin 6), symbol (generators i.succ) j
      = timesAlpha (symbol (generators i.castSucc) j) := by
    decide
  induction i using Fin.induction with
  | zero => rw [Fin.val_zero, pow_zero, map_one, one_mul]
  | succ i ih => rw [poly_times (hnext i), ih, Fin.val_succ, Fin.val_castSucc, pow_succ',
      C_mul, mul_assoc]

/-- What the symbol that leaves a register at its top amounts to below. -/
def reduction (top : Symbol) : Register :=
  (List.finRange 5).foldl
  (fun (result : Register) (i : Fin 5) => if top.getLsbD i then result ^^^ generators i
    else result) 0

theorem poly_reduction (top : Symbol) :
    poly (reduction top) = C (value top) * poly (generators 0) := by
  have hone (result : Register) (i : Fin 5) :
      poly (if top.getLsbD i then result ^^^ generators i else result)
      = poly result + C (AdjoinRoot.of modulus (bit (top.getLsbD i)) * α ^ (i : Nat))
      * poly (generators 0) := by
    cases top.getLsbD i
    · simp [bit]
    · simp [bit, poly_xor, poly_generators i]
  have hfold (is : List (Fin 5)) (result : Register) :
      poly (is.foldl (fun (result : Register) (i : Fin 5) => if top.getLsbD i
        then result ^^^ generators i else result) result)
      = poly result + C ((is.map fun i : Fin 5 => AdjoinRoot.of modulus (bit (top.getLsbD i))
        * α ^ (i : Nat)).sum) * poly (generators 0) := by
    induction is generalizing result with
    | nil => simp
    | cons i is ih => rw [List.foldl_cons, ih, hone, List.map_cons, List.sum_cons, map_add,
        add_mul, add_assoc]
  rw [reduction, hfold, poly_zero, zero_add, value_eq, ← List.sum_ofFn, List.ofFn_eq_map]

/-- The register moves up by one symbol, and what leaves it at the top is reduced. -/
def step (c : Register) (v : Symbol) : Register :=
  (c <<< 5 ^^^ v.setWidth 30) ^^^ reduction (symbol c 5)

theorem shift_symbol (c : Register) (v : Symbol) :
    symbol (c <<< 5 ^^^ v.setWidth 30) 0 = v ∧ ∀ j < 5, symbol (c <<< 5 ^^^ v.setWidth 30)
    (j + 1) = symbol c j := by
  constructor
  · refine BitVec.eq_of_getLsbD_eq fun i hi => ?_
    rw [symbol_bit hi]
    simp [hi, show i < 30 by omega]
  · intro j hj
    refine BitVec.eq_of_getLsbD_eq fun i hi => ?_
    have hhigh : v.getLsbD (5 * (j + 1) + i) = false := BitVec.getLsbD_of_ge _ _ (by omega)
    rw [symbol_bit hi, symbol_bit hi, BitVec.getLsbD_xor, BitVec.getLsbD_setWidth, hhigh,
      BitVec.getLsbD_shiftLeft, decide_eq_true (show 5 * (j + 1) + i < 30 by omega),
      decide_eq_false (show ¬ 5 * (j + 1) + i < 5 by omega),
      show 5 * (j + 1) + i - 5 = 5 * j + i by omega]
    simp

/-- **Step.** The remainder is multiplied by `X`, a symbol is added, and a multiple of the
generator. -/
theorem poly_step (c : Register) (v : Symbol) :
    poly (step c v) = poly c * X + C (value v) + C (value (symbol c 5)) * generator := by
  obtain ⟨hfirst, hrest⟩ := shift_symbol c v
  have hshift : poly (c <<< 5 ^^^ v.setWidth 30) = poly c * X + C (value v)
      + C (value (symbol c 5)) * X ^ 6 := by
    have htwo : C (value (symbol c 5)) * X ^ 6 + C (value (symbol c 5)) * X ^ 6 = 0 := by
      rw [← add_mul, ← map_add, CharTwo.add_self_eq_zero, map_zero, zero_mul]
    have hmoved : ∑ j ∈ Finset.range 5,
        C (value (symbol (c <<< 5 ^^^ v.setWidth 30) (j + 1))) * X ^ (j + 1)
        = (∑ j ∈ Finset.range 5, C (value (symbol c j)) * X ^ j) * X := by
      rw [Finset.sum_mul]
      refine Finset.sum_congr rfl fun j hj => ?_
      rw [hrest j (Finset.mem_range.mp hj), pow_succ, mul_assoc]
    rw [poly_eq, poly_eq, Fin.sum_univ_eq_sum_range (fun j => C (value (symbol _ j)) * X ^ j) 6,
      Fin.sum_univ_eq_sum_range (fun j => C (value (symbol c j)) * X ^ j) 6, Finset.sum_range_succ',
      hmoved, hfirst,
      Finset.sum_range_succ (fun j => C (value (symbol c j)) * X ^ j) 5]
    linear_combination - htwo
  rw [step, poly_xor, hshift, poly_reduction, generator]
  ring

/-! ### Messages -/

/-- A message as a polynomial: a leading one, and then the symbols. -/
noncomputable def message (vs : List Symbol) : Field[X] :=
  vs.foldl (fun p v => p * X + C (value v)) 1

/-- The register after a message. -/
def polymod (vs : List Symbol) : Register := vs.foldl step 1

theorem poly_fold : ∀ (vs : List Symbol) {c : Register} {p : Field[X]}, poly c = p %ₘ generator →
    poly (vs.foldl step c) = vs.foldl (fun p v => p * X + C (value v)) p %ₘ generator
  | [], _, _, h => h
  | v :: vs, c, p, h => by
    rw [List.foldl_cons, List.foldl_cons]
    refine poly_fold vs ?_
    have hdivision : poly (step c v) + generator * (X * (p /ₘ generator) - C (value (symbol c 5)))
        = p * X + C (value v) := by
      have hp := modByMonic_add_div p generator
      rw [poly_step, h]
      linear_combination X * hp
    refine ((div_modByMonic_unique _ _ generator_monic ⟨hdivision, ?_⟩).2).symm
    rw [generator_degree]
    exact poly_degree _

/-- **Remainder.** The register is what is left of the message modulo the generator. -/
theorem poly_polymod (vs : List Symbol) : poly (polymod vs) = message vs %ₘ generator := by
  refine poly_fold vs ?_
  rw [poly_one, (modByMonic_eq_self_iff generator_monic).mpr]
  rw [degree_one, generator_degree]
  decide

/-- A message whose checksum is right. -/
def Valid (vs : List Symbol) : Prop := message vs %ₘ generator = 1

theorem valid_iff {vs : List Symbol} : Valid vs ↔ polymod vs = 1 := by
  rw [Valid, ← poly_polymod, ← poly_one]
  exact ⟨poly_inj, congrArg poly⟩

/-! ### The checksum -/

/-- The symbols of a register, from the highest. -/
def symbols (c : Register) : List Symbol :=
  [symbol c 5, symbol c 4, symbol c 3, symbol c 2, symbol c 1, symbol c 0]

theorem symbols_inj {c c' : Register} (h : symbols c = symbols c') : c = c' := by
  simp only [symbols, List.cons.injEq, and_true] at h
  obtain ⟨h5, h4, h3, h2, h1, h0⟩ := h
  refine symbol_inj fun j hj => ?_
  interval_cases j <;> assumption

/-- The checksum that completes a message. -/
def checksum (vs : List Symbol) : List Symbol := symbols (polymod (vs ++ List.replicate 6 0) ^^^ 1)

theorem exists_symbols {cs : List Symbol} (h : cs.length = 6) : ∃ r, symbols r = cs := by
  obtain ⟨v5, v4, v3, v2, v1, v0, rfl⟩ : ∃ v5 v4 v3 v2 v1 v0, cs = [v5, v4, v3, v2, v1, v0] := by
    match cs, h with
    | [v5, v4, v3, v2, v1, v0], _ => exact ⟨v5, v4, v3, v2, v1, v0, rfl⟩
  refine ⟨(v5 ++ v4 ++ v3 ++ v2 ++ v1 ++ v0 : BitVec 30), ?_⟩
  have hbits (r : Register) (j : Nat) (v : Symbol) (hr : ∀ i < 5, r.getLsbD (5 * j + i)
      = v.getLsbD i) : symbol r j = v :=
    BitVec.eq_of_getLsbD_eq fun i hi => (symbol_bit hi).trans (hr i hi)
  rw [symbols, hbits _ 5 v5, hbits _ 4 v4, hbits _ 3 v3, hbits _ 2 v2, hbits _ 1 v1,
    hbits _ 0 v0] <;>
    intro i hi <;> simp only [BitVec.getLsbD_append] <;> interval_cases i <;> rfl

theorem fold_append (vs : List Symbol) : ∀ p : Field[X],
    vs.foldl (fun p v => p * X + C (value v)) p = p * X ^ vs.length
      + vs.foldl (fun p v => p * X + C (value v)) 0 := by
  induction vs with
  | nil => simp
  | cons v vs ih =>
    intro p
    rw [List.foldl_cons, List.foldl_cons, ih, ih (0 * X + _), List.length_cons]
    ring

theorem message_append (vs cs : List Symbol) :
    message (vs ++ cs) = message vs * X ^ cs.length
      + cs.foldl (fun p v => p * X + C (value v)) 0 := by
  rw [message, List.foldl_append, fold_append, ← message]

/-- What is left of a message with a checksum, if it were the symbols of a register. -/
theorem polymod_append (vs : List Symbol) (r : Register) :
    polymod (vs ++ symbols r) = polymod (vs ++ List.replicate 6 0) ^^^ r := by
  have hsymbols : (symbols r).foldl (fun p v => p * X + C (value v)) 0 = poly r := by
    rw [poly_eq, Fin.sum_univ_eq_sum_range (fun j => C (value (symbol r j)) * X ^ j) 6]
    simp only [Finset.sum_range_succ, Finset.sum_range_zero, symbols, List.foldl_cons,
      List.foldl_nil]
    ring
  have hzeros : (List.replicate 6 (0 : Symbol)).foldl (fun p v => p * X + C (value v)) 0 = 0 := by
    simp only [List.replicate_succ, List.replicate_zero, List.foldl_cons, List.foldl_nil,
      value_zero, map_zero, zero_mul, add_zero]
  have hsmall : poly r %ₘ generator = poly r := by
    rw [modByMonic_eq_self_iff generator_monic, generator_degree]
    exact poly_degree r
  apply poly_inj
  rw [poly_xor, poly_polymod, poly_polymod, message_append, message_append, hsymbols, hzeros,
    add_zero, add_modByMonic, hsmall, List.length_replicate]
  rfl

/-- **Checksum.** Of six symbols, only the checksum completes a message. -/
theorem valid_append_iff {vs cs : List Symbol} (h : cs.length = 6) :
    Valid (vs ++ cs) ↔ cs = checksum vs := by
  obtain ⟨r, rfl⟩ := exists_symbols h
  rw [valid_iff, polymod_append, checksum]
  constructor
  · intro hone
    rw [← hone, ← BitVec.xor_assoc, BitVec.xor_self, BitVec.zero_xor]
  · intro hsymbols
    rw [symbols_inj hsymbols, ← BitVec.xor_assoc, BitVec.xor_self, BitVec.zero_xor]

/-! ### Texts -/

/-- The letters, all of them lower-case. -/
def charset : Alphabet 5 := ⟨units "qpzry9x8gf2tvdw0s3jn54khce6mua7l", by decide, by decide⟩

/-- What the human-readable part contributes to a message: the high bits of its units, and the low
ones. -/
def expand (hrp : CodeUnits) : List Symbol :=
  hrp.map (fun u => BitVec.ofNat 5 (u.toNat / 32)) ++ [0] ++ hrp.map fun u => BitVec.ofNat 5 u.toNat

/-- The bytes of a core as symbols, filled up with fewer zeros than make a symbol. -/
def Regrouped (core : List (BitVec 8)) (words : List Symbol) : Prop :=
  ∃ padding < 5, ofWords words = ofWords core ++ List.replicate padding false

/-- The text of a core under a human-readable part. -/
def IsEncoding (hrp : CodeUnits) (core : List (BitVec 8)) (s : CodeUnits) : Prop :=
  ∃ words cs, Regrouped core words ∧ cs.length = 6 ∧ Valid (expand hrp ++ words ++ cs)
    ∧ s = hrp ++ units "1" ++ charset.spell (words ++ cs)

theorem regrouped_length {core : List (BitVec 8)} {words : List Symbol} (h : Regrouped core words) :
    words.length = (8 * core.length + 4) / 5 := by
  obtain ⟨padding, hless, hbits⟩ := h
  have hlength := congrArg List.length hbits
  rw [List.length_append, length_ofWords, length_ofWords, List.length_replicate] at hlength
  omega

theorem existsUnique_regrouped (core : List (BitVec 8)) : ∃! words, Regrouped core words := by
  have hlength : (ofWords core ++ List.replicate ((5 - 8 * core.length % 5) % 5) false).length
      = ((8 * core.length + 4) / 5) * 5 := by
    rw [List.length_append, length_ofWords, List.length_replicate]
    omega
  obtain ⟨words, -, hwords⟩ := exists_words 5 _ _ hlength
  refine ⟨words, ⟨_, by omega, hwords⟩, fun other hother => ?_⟩
  have hsame := regrouped_length hother
  obtain ⟨padding, hless, hbits⟩ := hother
  refine ofWords_inj (by decide) ?_
  have hpadding := congrArg List.length hbits
  rw [List.length_append, length_ofWords, length_ofWords, List.length_replicate, hsame] at hpadding
  rw [hbits, hwords, show padding = (5 - 8 * core.length % 5) % 5 by omega]

/-- Symbols are those of one core at most. -/
theorem regrouped_inj {core core' : List (BitVec 8)} {words : List Symbol}
    (h : Regrouped core words) (h' : Regrouped core' words) : core = core' := by
  have hlength := (regrouped_length h).symm.trans (regrouped_length h')
  obtain ⟨padding, -, hbits⟩ := h
  obtain ⟨padding', -, hbits'⟩ := h'
  refine ofWords_inj (by decide) (List.append_inj (hbits.symm.trans hbits') ?_).1
  rw [length_ofWords, length_ofWords]
  omega

/-- **Encoding.** A core has one text under a human-readable part. -/
theorem existsUnique_encoding (hrp : CodeUnits) (core : List (BitVec 8)) :
    ∃! s, IsEncoding hrp core s := by
  obtain ⟨words, hwords, hunique⟩ := existsUnique_regrouped core
  have hlength : (checksum (expand hrp ++ words)).length = 6 := rfl
  refine ⟨hrp ++ units "1" ++ charset.spell (words ++ checksum (expand hrp ++ words)),
    ⟨words, _, hwords, hlength, (valid_append_iff hlength).mpr rfl, rfl⟩, ?_⟩
  rintro s ⟨other, cs, hother, hcs, hvalid, rfl⟩
  obtain rfl := hunique other hother
  rw [(valid_append_iff hcs).mp hvalid]

/-- **Decoding.** A text is the text of one core at most. -/
theorem encoding_inj {hrp : CodeUnits} {core core' : List (BitVec 8)} {s : CodeUnits}
    (h : IsEncoding hrp core s) (h' : IsEncoding hrp core' s) : core = core' := by
  obtain ⟨words, cs, hwords, hcs, -, rfl⟩ := h
  obtain ⟨words', cs', hwords', hcs', -, hs⟩ := h'
  have hspelled := charset.spell_inj (List.append_cancel_left hs)
  have hlength := congrArg List.length hspelled
  rw [List.length_append, List.length_append, hcs, hcs'] at hlength
  rw [(List.append_inj hspelled (by omega)).1] at hwords
  exact regrouped_inj hwords hwords'

end Bech32
