/-
# Addresses, token standards and data

Two decoders of addresses are written by hand, and one of token standards. They accept
the bech32 texts of their cores and no others: `canonicalUserAddress` decides whether a
text names a payer (`canonicalUserAddress_exact`), and `address` answers the core
(`address_iff`), after it encoded it again. The accumulators are shifted without a mask
in 32 bits, and `Bits` has that what is lost there is never taken; the checksum runs in 32
bits as well, and stays below `2 ^ 30` (`polymodStep_register`). `base64Data` accepts the
one text of 32 bytes.

Key definitions: `polymodStep`, `canonicalUserAddress`, `address`, `tokenStandardCore`,
`base64Data`, `UserCore`.
Key theorems: `polymodStep_register`, `userWords_iff`, `canonicalUserAddress_exact`,
`decoders_agree`.
-/
import ZenonX402.Lib.Bech32
import ZenonX402.Lib.Formats
import Mathlib.Data.Nat.Bitwise
import Mathlib.Tactic.Ring

namespace ZenonX402
namespace Zenon

open CodeUnits Bits Bech32 Js

/-! ### The checksum -/

def BECH32 : Alphabet 5 :=
  ⟨units "qpzry9x8gf2tvdw0s3jn54khce6mua7l", Bech32.charset.length_eq, Bech32.charset.nodup⟩

def BECH32_GENERATORS : Fin 5 → BitVec 32 :=
  ![0x3b6a57b2, 0x26508e6d, 0x1ea119fa, 0x3d4233dd, 0x2a1462b3]

/-- A number that is shifted and masked is its 32 bits. -/
def polymodStep (checksum word : BitVec 32) : BitVec 32 :=
  let top := checksum >>> 25
  (List.finRange 5).foldl (fun (result : BitVec 32) (index : Fin 5) =>
    if (top >>> (index : Nat)) &&& 1 ≠ 0 then result ^^^ BECH32_GENERATORS index else result)
    (((checksum &&& 0x1ffffff) <<< 5) ^^^ word)

/-- The checksum after some words. -/
def polymodWords (checksum : BitVec 32) (words : List Symbol) : BitVec 32 :=
  words.foldl (fun checksum word => polymodStep checksum (word.setWidth 32)) checksum

/-- Whether the lowest bit is set. -/
theorem and_one (x : BitVec 32) : x &&& 1 ≠ 0 ↔ x.getLsbD 0 = true := by
  rw [show (1 : BitVec 32) = 1#32 from rfl, BitVec.and_one_eq_setWidth_ofBool_getLsbD]
  cases x.getLsbD 0 <;> decide

theorem shift_register (r : Register) (v : Symbol) :
    ((r.setWidth 32 &&& 0x1ffffff) <<< 5) ^^^ v.setWidth 32
      = (r <<< 5 ^^^ v.setWidth 30).setWidth 32 := by
  have hmask : ∀ i : Fin 32, (0x1ffffff : BitVec 32).getLsbD i = decide ((i : Nat) < 25) := by
    decide
  refine BitVec.eq_of_getLsbD_eq fun i hi => ?_
  have hbit := hmask ⟨i - 5, by omega⟩
  simp only at hbit
  rw [BitVec.getLsbD_xor, BitVec.getLsbD_shiftLeft, BitVec.getLsbD_and, hbit,
    BitVec.getLsbD_setWidth, BitVec.getLsbD_setWidth, BitVec.getLsbD_setWidth, BitVec.getLsbD_xor,
    BitVec.getLsbD_shiftLeft, BitVec.getLsbD_setWidth, decide_eq_true hi,
    decide_eq_true (show i - 5 < 32 by omega)]
  by_cases h30 : i < 30
  · rw [decide_eq_true h30]
    by_cases h5 : i < 5
    · simp [h5]
    · simp [h5, show i - 5 < 25 by omega]
  · have hv : v.getLsbD i = false := BitVec.getLsbD_of_ge _ _ (by omega)
    rw [decide_eq_false h30, decide_eq_false (show ¬ i - 5 < 25 by omega), hv]
    simp

/-- **Checksum.** In 32 bits the checksum is the register of 30, which never reaches the others. -/
theorem polymodStep_register (r : Register) (v : Symbol) :
    polymodStep (r.setWidth 32) (v.setWidth 32) = (step r v).setWidth 32 := by
  have htop (index : Fin 5) : ((r.setWidth 32 >>> 25) >>> (index : Nat)) &&& (1 : BitVec 32) ≠ 0
      ↔ (symbol r 5).getLsbD index = true := by
    have hlt := index.isLt
    rw [and_one, symbol_bit hlt, BitVec.getLsbD_ushiftRight, BitVec.getLsbD_ushiftRight,
      BitVec.getLsbD_setWidth, decide_eq_true (show 25 + ((index : Nat) + 0) < 32 by omega),
      Bool.true_and]
    rfl
  have hgenerators : ∀ index : Fin 5, BECH32_GENERATORS index = (generators index).setWidth 32 := by
    decide
  have hfold (top : Symbol) (is : List (Fin 5)) (result result' : Register) :
      is.foldl (fun (result : BitVec 32) (index : Fin 5) =>
        if top.getLsbD index then result ^^^ BECH32_GENERATORS index else result)
          ((result ^^^ result').setWidth 32)
      = (result ^^^ is.foldl (fun (result : Register) (i : Fin 5) =>
        if top.getLsbD i then result ^^^ generators i else result) result').setWidth 32 := by
    induction is generalizing result' with
    | nil => rfl
    | cons i is ih =>
      rw [List.foldl_cons, List.foldl_cons, ← ih]
      cases top.getLsbD i
      · simp
      · simp [hgenerators, BitVec.xor_assoc]
  simp only [polymodStep, htop, shift_register]
  have hzero : r <<< 5 ^^^ v.setWidth 30 ^^^ (0 : Register) = r <<< 5 ^^^ v.setWidth 30 :=
    BitVec.xor_zero
  rw [step, reduction, ← hfold, hzero]

theorem polymodWords_register : ∀ (words : List Symbol) (r : Register),
    polymodWords (r.setWidth 32) words = (words.foldl step r).setWidth 32
  | [], _ => rfl
  | v :: words, r => by
    rw [polymodWords, List.foldl_cons, polymodStep_register]
    exact polymodWords_register words (step r v)

/-- A checksum of 1 is that of a valid message. -/
theorem polymodWords_one {start words : List Symbol} :
    polymodWords (polymodWords 1 start) words = 1 ↔ Valid (start ++ words) := by
  have hstart : (1 : BitVec 32) = (1 : Register).setWidth 32 := by decide
  rw [valid_iff, polymod, List.foldl_append, hstart, polymodWords_register, polymodWords_register]
  constructor
  · intro h
    have hnarrow := congrArg (BitVec.setWidth 30) h
    rwa [BitVec.setWidth_setWidth_of_le _ (by decide), BitVec.setWidth_setWidth_of_le _ (by decide),
      BitVec.setWidth_eq, BitVec.setWidth_eq] at hnarrow
  · intro h
    rw [h]

/-! ### Addresses -/

/-- The words of an address whose checksum is right: both decoders of addresses begin so. -/
def userWords (value : CodeUnits) : Option (List Symbol) :=
  if value.length ≠ 40 ∨ value.take 2 ≠ units "z1" then none
  else do
    let words ← BECH32.read (value.drop 2)
    -- the loop takes each word into the checksum as it is read
    let checksum := polymodWords (polymodStep (polymodStep (polymodStep 1 3) 0) 26) words
    if checksum ≠ 1 then none else some words

/-- Whether 32 words are the bytes of a user's core. -/
def userBytes (a : Accumulator 8) : Bool :=
  a.taken.length = 20 && a.bits = 0 && a.taken.head? = some 0 && a.taken.any (· ≠ 0)

def canonicalUserAddress (value : CodeUnits) : Bool :=
  match userWords value with
  | none => false
  | some words => userBytes (regroup (words.take 32))

/-- The address is encoded again, and the core is answered if that is the same text. -/
def address (value : CodeUnits) : Option (List (BitVec 8)) := do
  let words ← userWords value
  let a : Accumulator 8 := regroup (words.take 32)
  if userBytes a then
    let bytes := a.taken
    let encoded : Accumulator 5 := regroupAll bytes
    if encoded.bits ≠ 0 then none
    else
      let checksum := polymodWords (polymodStep (polymodStep (polymodStep 1 3) 0) 26) encoded.taken
      let checksum := polymodWords checksum (List.replicate 6 0) ^^^ 1
      let last := [5, 4, 3, 2, 1, 0].map fun index => ((checksum >>> (5 * index)) &&& 31).setWidth 5
      if units "z1" ++ BECH32.spell encoded.taken ++ BECH32.spell last ≠ value then none
        else some bytes
  else none

/-- The core of a user's address: 20 bytes, the first of which is 0 and not all of which are. -/
structure UserCore (core : List (BitVec 8)) : Prop where
  length : core.length = 20
  first : core.head? = some 0
  nonzero : ∃ b ∈ core, b ≠ 0

/-- **Words.** Both decoders begin with the words that spell the text, if their checksum is valid.
-/
theorem userWords_iff {value : CodeUnits} {words : List Symbol} : userWords value = some words ↔
    words.length = 38 ∧ value = units "z1" ++ BECH32.spell words
      ∧ Valid (expand (units "z") ++ words) := by
  have hstart : polymodStep (polymodStep (polymodStep 1 3) 0) 26
      = polymodWords 1 (expand (units "z")) := by
    decide
  have hprefix : (units "z1").length = 2 := by decide
  unfold userWords
  constructor
  · intro h
    split at h
    · cases h
    next hshape =>
    simp only [not_or, Decidable.not_not] at hshape
    simp only [Option.bind_eq_bind, Option.bind_eq_some_iff, BECH32.read_iff] at h
    obtain ⟨read, hread, h⟩ := h
    split at h
    · cases h
    next hone =>
    obtain rfl := Option.some.inj h
    rw [Decidable.not_not, hstart, polymodWords_one] at hone
    have hvalue : value = units "z1" ++ BECH32.spell read := by
      rw [← hshape.2, ← hread, List.take_append_drop]
    have hlength := hshape.1
    rw [hvalue, List.length_append, hprefix, BECH32.length_spell] at hlength
    exact ⟨by omega, hvalue, hone⟩
  · rintro ⟨hlength, rfl, hvalid⟩
    have htake : (units "z1" ++ BECH32.spell words).take 2 = units "z1" := List.take_left' hprefix
    have hdrop : (units "z1" ++ BECH32.spell words).drop 2 = BECH32.spell words :=
      List.drop_left' hprefix
    rw [if_neg (by rw [htake, List.length_append, hprefix, BECH32.length_spell, hlength]; simp),
      hdrop, BECH32.read_iff.mpr rfl]
    simp only [Option.bind_eq_bind, Option.bind_some, hstart, polymodWords_one.mpr hvalid, ne_eq,
      not_true_eq_false, if_false]

theorem userBytes_iff {a : Accumulator 8} : userBytes a = true ↔ UserCore a.taken ∧ a.bits = 0 := by
  simp only [userBytes, Bool.and_eq_true, decide_eq_true_eq, List.any_eq_true, ne_eq]
  constructor
  · rintro ⟨⟨⟨hlength, hbits⟩, hfirst⟩, hnonzero⟩
    exact ⟨⟨hlength, hfirst, hnonzero⟩, hbits⟩
  · rintro ⟨⟨hlength, hfirst, hnonzero⟩, hbits⟩
    exact ⟨⟨⟨hlength, hbits⟩, hfirst⟩, hnonzero⟩

/-- **Regrouping.** Words of whole bytes are regrouped without a bit lost, invented or left. -/
theorem regroup_whole {words : List Symbol} {n : Nat} (h : words.length * 5 = n * 8) :
    (regroup words : Accumulator 8).taken.length = n ∧ (regroup words : Accumulator 8).bits = 0
      ∧ ofWords words = ofWords (regroup words : Accumulator 8).taken := by
  obtain ⟨hcontent, hless⟩ := regroup_bits (n := 8) (by decide) (by decide) (by decide) words
  obtain ⟨hlength, hbits⟩ := taken_length hcontent hless
  rw [h, Nat.mul_div_cancel n (by decide)] at hlength
  rw [h, Nat.mul_mod_left] at hbits
  refine ⟨hlength, hbits, ?_⟩
  rw [hcontent, content, hbits, low, List.append_nil]

theorem regroup_core {core : List (BitVec 8)} {words : List Symbol}
    (h : ofWords words = ofWords core) :
    (regroup words : Accumulator 8).taken = core ∧ (regroup words : Accumulator 8).bits = 0 := by
  obtain ⟨hcontent, hless⟩ := regroup_bits (n := 8) (by decide) (by decide) (by decide) words
  exact taken_eq (by decide) hcontent hless h.symm

/-- A core of whole symbols is filled up with nothing. -/
theorem regrouped_whole {core : List (BitVec 8)} {words : List Symbol} {n : Nat}
    (h : core.length * 8 = n * 5) :
    Regrouped core words ↔ words.length = n ∧ ofWords words = ofWords core := by
  constructor
  · intro hregrouped
    have hlength := regrouped_length hregrouped
    obtain ⟨padding, hless, hbits⟩ := hregrouped
    have hsum := congrArg List.length hbits
    rw [List.length_append, length_ofWords, length_ofWords, List.length_replicate] at hsum
    obtain rfl : padding = 0 := by omega
    exact ⟨by omega, by rw [hbits, List.replicate_zero, List.append_nil]⟩
  · rintro ⟨-, hbits⟩
    exact ⟨0, by decide, by rw [hbits, List.replicate_zero, List.append_nil]⟩

/-- The texts of a core of 20 bytes. -/
theorem isEncoding_user {core : List (BitVec 8)} {value : CodeUnits} (hcore : core.length = 20) :
    IsEncoding (units "z") core value ↔ ∃ words, userWords value = some words
      ∧ ofWords (words.take 32) = ofWords core := by
  have hwhole {words : List Symbol} : Regrouped core words ↔ words.length = 32 ∧ ofWords words
      = ofWords core :=
    regrouped_whole (by rw [hcore])
  constructor
  · rintro ⟨words, cs, hwords, hcs, hvalid, rfl⟩
    obtain ⟨hlength, hbits⟩ := hwhole.mp hwords
    refine ⟨words ++ cs, userWords_iff.mpr ⟨by rw [List.length_append, hlength, hcs], rfl, ?_⟩, ?_⟩
    · rwa [← List.append_assoc]
    · rw [List.take_left' hlength, hbits]
  · rintro ⟨words, hwords, hbits⟩
    obtain ⟨hlength, rfl, hvalid⟩ := userWords_iff.mp hwords
    refine ⟨words.take 32, words.drop 32, hwhole.mpr ⟨?_, hbits⟩, ?_, ?_, ?_⟩
    · rw [List.length_take, hlength]
      rfl
    · rw [List.length_drop, hlength]
    · rwa [List.append_assoc, List.take_append_drop]
    · rw [List.take_append_drop]
      rfl

/-- **Recognition.** A text names a payer if it is the text of a user's core. -/
theorem canonicalUserAddress_iff {value : CodeUnits} :
    canonicalUserAddress value = true ↔ ∃ core, UserCore core
      ∧ IsEncoding (units "z") core value := by
  unfold canonicalUserAddress
  constructor
  · intro h
    split at h
    · cases h
    next words hwords =>
    have hlength := (userWords_iff.mp hwords).1
    obtain ⟨hcore, -⟩ := userBytes_iff.mp h
    obtain ⟨-, -, hbits⟩ :=
      @regroup_whole (words.take 32) 20 (by rw [List.length_take, hlength]; rfl)
    exact ⟨_, hcore, (isEncoding_user hcore.length).mpr ⟨words, hwords, hbits⟩⟩
  · rintro ⟨core, hcore, hencoding⟩
    obtain ⟨words, hwords, hbits⟩ := (isEncoding_user hcore.length).mp hencoding
    obtain ⟨htaken, hzero⟩ := regroup_core hbits
    simp only [hwords]
    exact userBytes_iff.mpr ⟨htaken ▸ hcore, hzero⟩

/-- The last letters that are encoded are those of the checksum. -/
theorem encoded_checksum (words : List Symbol) :
    ([5, 4, 3, 2, 1, 0].map fun index =>
      (((polymodWords (polymodWords (polymodStep (polymodStep (polymodStep 1 3) 0) 26) words)
        (List.replicate 6 0) ^^^ 1) >>> (5 * index)) &&& 31).setWidth 5)
          = checksum (expand (units "z") ++ words) := by
  have hstart : polymodStep (polymodStep (polymodStep 1 3) 0) 26
      = polymodWords ((1 : Register).setWidth 32) (expand (units "z")) := by
    decide
  have hone : (1 : BitVec 32) = (1 : Register).setWidth 32 := by decide
  have hfolded : polymodWords
      (polymodWords (polymodStep (polymodStep (polymodStep 1 3) 0) 26) words) (List.replicate 6 0)
      = (polymod (expand (units "z") ++ words ++ List.replicate 6 0)).setWidth 32 := by
    rw [hstart, polymodWords_register, polymodWords_register, polymodWords_register, polymod,
      List.foldl_append, List.foldl_append]
  have hxor : (polymod (expand (units "z") ++ words ++ List.replicate 6 0)).setWidth 32 ^^^
      (1 : BitVec 32)
      = (polymod (expand (units "z") ++ words ++ List.replicate 6 0) ^^^ 1).setWidth 32 := by
    rw [hone, BitVec.setWidth_xor]
  rw [hfolded, hxor, checksum]
  generalize polymod (expand (units "z") ++ words ++ List.replicate 6 0) ^^^ 1 = c
  have hsymbol (index : Nat) (h : index < 6) :
      ((c.setWidth 32 >>> (5 * index)) &&& (31 : BitVec 32)).setWidth 5 = symbol c index := by
    have hmask : ∀ i : Fin 5, (31 : BitVec 32).getLsbD i = true := by decide
    refine BitVec.eq_of_getLsbD_eq fun i hi => ?_
    rw [BitVec.getLsbD_setWidth, BitVec.getLsbD_and, hmask ⟨i, hi⟩, BitVec.getLsbD_ushiftRight,
      BitVec.getLsbD_setWidth, symbol_bit hi, decide_eq_true hi,
      decide_eq_true (show 5 * index + i < 32 by omega)]
    simp
  simp only [List.map_cons, List.map_nil, symbols, hsymbol 5 (by decide), hsymbol 4 (by decide),
    hsymbol 3 (by decide), hsymbol 2 (by decide), hsymbol 1 (by decide), hsymbol 0 (by decide)]

/-- **Decoding.** The core of a text is answered if it is a user's, and nothing else is. -/
theorem address_iff {value : CodeUnits} {core : List (BitVec 8)} :
    address value = some core ↔ UserCore core ∧ IsEncoding (units "z") core value := by
  have hencoded {words : List Symbol} {core : List (BitVec 8)} (hcore : core.length = 20)
      (hwords : userWords value = some words)
      (hbits : ofWords (words.take 32) = ofWords core) :
      (regroupAll core : Accumulator 5).taken = words.take 32
        ∧ (regroupAll core : Accumulator 5).bits = 0
        ∧ units "z1" ++ BECH32.spell (words.take 32)
        ++ BECH32.spell (checksum (expand (units "z") ++ words.take 32)) = value := by
    obtain ⟨hlength, rfl, hvalid⟩ := userWords_iff.mp hwords
    obtain ⟨hcontent, hless⟩ := drained_bits (n := 5) (by decide) (by decide) core
    obtain ⟨htaken, hzero⟩ := taken_eq (by decide) hcontent hless hbits
    have hlast : (words.drop 32).length = 6 := by
      rw [List.length_drop, hlength]
    rw [← List.take_append_drop 32 words, ← List.append_assoc, valid_append_iff hlast] at hvalid
    refine ⟨htaken, hzero, ?_⟩
    rw [← hvalid, List.append_assoc, Alphabet.spell, Alphabet.spell, Alphabet.spell,
      ← List.map_append, List.take_append_drop]
  unfold address
  simp only [Option.bind_eq_bind, Option.bind_eq_some_iff, encoded_checksum]
  constructor
  · rintro ⟨words, hwords, h⟩
    have hlength := (userWords_iff.mp hwords).1
    split at h
    next hbytes =>
      obtain ⟨hcore, -⟩ := userBytes_iff.mp hbytes
      obtain ⟨-, -, hbits⟩ :=
        @regroup_whole (words.take 32) 20 (by rw [List.length_take, hlength]; rfl)
      obtain ⟨htaken, hzero, hvalue⟩ := hencoded hcore.length hwords hbits
      rw [if_neg (by rw [hzero]; simp), htaken, if_neg (by rw [hvalue]; simp)] at h
      obtain rfl := Option.some.inj h
      exact ⟨hcore, (isEncoding_user hcore.length).mpr ⟨words, hwords, hbits⟩⟩
    · cases h
  · rintro ⟨hcore, hencoding⟩
    obtain ⟨words, hwords, hbits⟩ := (isEncoding_user hcore.length).mp hencoding
    obtain ⟨hbytes, hnone⟩ := regroup_core hbits
    obtain ⟨htaken, hzero, hvalue⟩ := hencoded hcore.length hwords hbits
    refine ⟨words, hwords, ?_⟩
    rw [if_pos (userBytes_iff.mpr ⟨hbytes ▸ hcore, hnone⟩), hbytes, if_neg (by rw [hzero]; simp),
      htaken, if_neg (by rw [hvalue]; simp)]

/-! ### Token standards -/

/-- Sixteen words are eighty bits, so there is no padding. -/
def tokenStandardCore (value : CodeUnits) : Option (List (BitVec 8)) :=
  if value.length ≠ 26 ∨ value.take 4 ≠ units "zts1" then none
  else do
    let words ← BECH32.read (value.drop 4)
    let checksum := polymodWords (polymodWords 1 [3, 3, 3, 0, 26, 20, 19]) words
    -- the six words of the checksum are not regrouped
    let a : Accumulator 8 := regroup (words.take 16)
    if checksum ≠ 1 ∨ a.taken.length ≠ 10 ∨ a.bits ≠ 0 then none else some a.taken

theorem tokenStandardCore_iff {value : CodeUnits} {core : List (BitVec 8)} :
    tokenStandardCore value = some core ↔ core.length = 10 ∧ IsEncoding (units "zts") core value := by
  have hstart : polymodWords 1 [3, 3, 3, 0, 26, 20, 19] = polymodWords 1 (expand (units "zts")) := by
    decide
  have hprefix : (units "zts1").length = 4 := by decide
  unfold tokenStandardCore
  constructor
  · intro h
    split at h
    · cases h
    next hshape =>
    simp only [not_or, Decidable.not_not] at hshape
    simp only [Option.bind_eq_bind, Option.bind_eq_some_iff, BECH32.read_iff] at h
    obtain ⟨words, hwords, h⟩ := h
    split at h
    · cases h
    next haccepted =>
    simp only [not_or, Decidable.not_not] at haccepted
    obtain ⟨hone, hten, -⟩ := haccepted
    obtain rfl := Option.some.inj h
    rw [hstart, polymodWords_one] at hone
    have hvalue : value = units "zts1" ++ BECH32.spell words := by
      rw [← hshape.2, ← hwords, List.take_append_drop]
    have hlength := hshape.1
    rw [hvalue, List.length_append, hprefix, BECH32.length_spell] at hlength
    obtain ⟨-, -, hbits⟩ := @regroup_whole (words.take 16) 10 (by rw [List.length_take]; omega)
    refine ⟨hten, words.take 16, words.drop 16,
      (regrouped_whole (n := 16) (by rw [hten])).mpr ⟨?_, hbits⟩, ?_, ?_, ?_⟩
    · rw [List.length_take]
      omega
    · rw [List.length_drop]
      omega
    · rwa [List.append_assoc, List.take_append_drop]
    · rw [List.take_append_drop, hvalue]
      rfl
  · rintro ⟨hten, words, cs, hwords, hcs, hvalid, rfl⟩
    obtain ⟨hlength, hbits⟩ := (regrouped_whole (n := 16) (by rw [hten])).mp hwords
    obtain ⟨htaken, hzero⟩ := regroup_core hbits
    have hvalue : units "zts" ++ units "1" ++ charset.spell (words ++ cs)
        = units "zts1" ++ BECH32.spell (words ++ cs) := rfl
    have hone : polymodWords (polymodWords 1 [3, 3, 3, 0, 26, 20, 19]) (words ++ cs) = 1 := by
      rwa [hstart, polymodWords_one, ← List.append_assoc]
    rw [hvalue, List.take_left' hprefix, List.drop_left' hprefix,
      if_neg (by
        rw [List.length_append, hprefix, BECH32.length_spell, List.length_append, hlength, hcs]
        simp),
      BECH32.read_iff.mpr rfl]
    simp only [Option.bind_eq_bind, Option.bind_some]
    rw [List.take_left' hlength, htaken, if_neg (by rw [hone, hten, hzero]; simp)]

/-! ### Data -/

def BASE64 : Alphabet 6 :=
  ⟨units "ABCDEFGHIJKLMNOPQRSTUVWXYZabcdefghijklmnopqrstuvwxyz0123456789+/", by decide, by decide⟩

/-- Bytes in groups of three, a missing one being 0. -/
def encodedBytes : List (BitVec 8) → CodeUnits
  | first :: second :: third :: rest =>
    BASE64.spell [(first >>> 2).setWidth 6, ((first &&& 3) <<< 4 ||| second >>> 4).setWidth 6,
      ((second &&& 15) <<< 2 ||| third >>> 6).setWidth 6, (third &&& 63).setWidth 6]
        ++ encodedBytes rest
  | [first, second] => BASE64.spell [(first >>> 2).setWidth 6,
      ((first &&& 3) <<< 4 ||| second >>> 4).setWidth 6,
      ((second &&& 15) <<< 2 ||| 0 >>> 6).setWidth 6] ++ units "="
  | [first] => BASE64.spell [(first >>> 2).setWidth 6, ((first &&& 3) <<< 4 ||| 0 >>> 4).setWidth 6,
      ((0 &&& 15) <<< 2 ||| 0 >>> 6 : BitVec 8).setWidth 6] ++ units "="
  | [] => []

def base64Data (value : CodeUnits) : Option Unit :=
  if value.length ≠ 44 ∨ value.drop 43 ≠ units "=" then none
  else do
    let words ← BASE64.read (value.take 43)
    let a : Accumulator 8 := regroup words
    if a.taken.length ≠ 32 ∨ a.bits ≠ 2 ∨ a.register &&& 3 ≠ 0 then none
    else if encodedBytes a.taken ≠ value then none
    else some ()

/-- The lowest bits of a byte and the highest of the next are a word. -/
theorem toNat_joined (a b : BitVec 8) {k m : Nat} (hk : k + m = 6)
    (hb : b.toNat / 2 ^ (2 + k) < 2 ^ m) :
    (((a &&& BitVec.ofNat 8 (2 ^ k - 1)) <<< m ||| b >>> (2 + k)).setWidth 6).toNat
      = a.toNat % 2 ^ k * 2 ^ m + b.toNat / 2 ^ (2 + k) := by
  have hpow : 2 ^ k * 2 ^ m = 64 := by
    rw [← Nat.pow_add, hk]
  have hle : 2 ^ k ≤ 2 ^ 8 := Nat.pow_le_pow_right (by decide) (by omega)
  have hmod := Nat.mod_lt a.toNat (Nat.two_pow_pos k)
  have hlt : a.toNat % 2 ^ k * 2 ^ m + b.toNat / 2 ^ (2 + k) < 64 := by
    calc a.toNat % 2 ^ k * 2 ^ m + b.toNat / 2 ^ (2
            + k) < a.toNat % 2 ^ k * 2 ^ m + 2 ^ m := Nat.add_lt_add_left hb _
      _ = (a.toNat % 2 ^ k + 1) * 2 ^ m := by ring
      _ ≤ 2 ^ k * 2 ^ m := Nat.mul_le_mul_right _ hmod
      _ = 64 := hpow
  have hfit : a.toNat % 2 ^ k * 2 ^ m < 2 ^ 8 :=
    ((Nat.le_add_right _ _).trans_lt hlt).trans (by decide)
  have hmask : (2 ^ k - 1) % 2 ^ 8 = 2 ^ k - 1 := Nat.mod_eq_of_lt (by omega)
  rw [BitVec.toNat_setWidth, BitVec.toNat_or, BitVec.toNat_shiftLeft, BitVec.toNat_and,
    BitVec.toNat_ofNat, hmask, Nat.and_two_pow_sub_one_eq_mod, BitVec.toNat_ushiftRight,
    Nat.shiftRight_eq_div_pow, Nat.shiftLeft_eq, Nat.mod_eq_of_lt hfit,
    ← Nat.shiftLeft_eq, ← Nat.shiftLeft_add_eq_or_of_lt hb, Nat.shiftLeft_eq, Nat.mod_eq_of_lt hlt]

/-- A letter of the alphabet is the one of the standard. -/
theorem letter_standard {v : BitVec 6} {n : Nat} (h : v.toNat = n) :
    ofChar (Base64.letter n) = [BASE64.letter v] := by
  have hall : ∀ v : BitVec 6, ofChar (Base64.letter v.toNat) = [BASE64.letter v] := by
    decide
  exact h ▸ hall v

/-- Bytes that need no more than one letter of padding are encoded as the standard has it. -/
theorem encodedBytes_standard : ∀ {bytes : List (BitVec 8)}, bytes.length % 3 ≠ 1 →
    encodedBytes bytes = (Base64.text (bytes.map BitVec.toNat)).flatMap ofChar := by
  have hfirst (a : BitVec 8) : ((a >>> 2).setWidth 6).toNat = a.toNat / 4 := by
    rw [BitVec.toNat_setWidth, BitVec.toNat_ushiftRight, Nat.shiftRight_eq_div_pow]
    omega
  have hsecond (a b : BitVec 8) : (((a &&& 3) <<< 4 ||| b >>> 4).setWidth 6).toNat
      = a.toNat % 4 * 16 + b.toNat / 16 :=
    toNat_joined a b (k := 2) rfl (by omega)
  have hthird (a b : BitVec 8) : (((a &&& 15) <<< 2 ||| b >>> 6).setWidth 6).toNat
      = a.toNat % 16 * 4 + b.toNat / 64 :=
    toNat_joined a b (k := 4) rfl (by omega)
  have hfourth (a : BitVec 8) : ((a &&& 63).setWidth 6).toNat = a.toNat % 64 := by
    rw [BitVec.toNat_setWidth, BitVec.toNat_and, show (63 : BitVec 8).toNat = 2 ^ 6 - 1 from rfl,
      Nat.and_two_pow_sub_one_eq_mod, Nat.mod_mod]
  intro bytes
  induction bytes using encodedBytes.induct with
  | case1 a b c rest ih =>
    intro h
    rw [encodedBytes, ih (by simp only [List.length_cons] at h; omega)]
    simp only [List.map_cons, Base64.text, List.flatMap_cons, letter_standard (hfirst a),
      letter_standard (hsecond a b), letter_standard (hthird b c), letter_standard (hfourth c),
      Alphabet.spell, List.map_nil, List.cons_append, List.nil_append]
  | case2 a b =>
    intro _
    have hlast : (((b &&& 15) <<< 2 ||| 0 >>> 6).setWidth 6).toNat = b.toNat % 16 * 4 := hthird b 0
    simp only [encodedBytes, List.map_cons, List.map_nil, Base64.text, List.flatMap_cons,
      List.flatMap_nil, letter_standard (hfirst a), letter_standard (hsecond a b),
      letter_standard hlast, Alphabet.spell, List.cons_append, List.nil_append, List.append_nil]
    rfl
  | case3 a => exact fun h => absurd rfl h
  | case4 => exact fun _ => rfl

/-- Bytes that are two more than groups of three are encoded as the words of their bits and two
zeros. -/
theorem encodedBytes_words : ∀ {bytes : List (BitVec 8)}, bytes.length % 3 = 2 →
    ∃ words, encodedBytes bytes = BASE64.spell words ++ units "=" ∧ ofWords words = ofWords bytes
      ++ [false, false] := by
  intro bytes
  induction bytes using encodedBytes.induct with
  | case1 a b c rest ih =>
    intro h
    obtain ⟨words, hencoded, hbits⟩ := ih (by simp only [List.length_cons] at h; omega)
    refine ⟨[(a >>> 2).setWidth 6, ((a &&& 3) <<< 4 ||| b >>> 4).setWidth 6,
      ((b &&& 15) <<< 2 ||| c >>> 6).setWidth 6, (c &&& 63).setWidth 6] ++ words, ?_, ?_⟩
    · rw [encodedBytes, hencoded, ← List.append_assoc, Alphabet.spell, Alphabet.spell,
        Alphabet.spell, ← List.map_append]
    · rw [ofWords_append, hbits]
      simp [low]
  | case2 a b =>
    intro _
    refine ⟨_, rfl, ?_⟩
    simp [low]
  | case3 a => exact fun h => by simp at h
  | case4 => exact fun h => by simp at h

theorem base64Data_iff {value : CodeUnits} : base64Data value = some () ↔
    ∃ bytes : List (BitVec 8), bytes.length = 32
      ∧ value = units (base64Text (bytes.map BitVec.toNat)) := by
  have hstandard {bytes : List (BitVec 8)} (h : bytes.length = 32) : encodedBytes bytes
      = units (base64Text (bytes.map BitVec.toNat)) := by
    rw [encodedBytes_standard (by rw [h]; decide), units, base64Text, String.toList_ofList]
  unfold base64Data
  constructor
  · intro h
    split at h
    · cases h
    simp only [Option.bind_eq_bind, Option.bind_eq_some_iff] at h
    obtain ⟨words, -, h⟩ := h
    split at h
    · cases h
    next haccepted =>
    simp only [not_or, Decidable.not_not] at haccepted
    split at h
    · cases h
    next hsame =>
    rw [Decidable.not_not] at hsame
    exact ⟨_, haccepted.1, by rw [← hstandard haccepted.1, hsame]⟩
  · rintro ⟨bytes, hlength, rfl⟩
    rw [← hstandard hlength]
    obtain ⟨words, hencoded, hbits⟩ := @encodedBytes_words bytes (by rw [hlength])
    have hwords := congrArg List.length hbits
    rw [List.length_append, length_ofWords, length_ofWords, hlength] at hwords
    have hspelled : (BASE64.spell words).length = 43 := by
      rw [BASE64.length_spell]
      simp only [List.length_cons, List.length_nil] at hwords
      omega
    have hpad : (units "=").length = 1 := by decide
    obtain ⟨hcontent, hless⟩ := regroup_bits (n := 8) (by decide) (by decide) (by decide) words
    obtain ⟨hthirtytwo, htwo⟩ := taken_length hcontent hless
    rw [BASE64.length_spell] at hspelled
    rw [hspelled] at hthirtytwo htwo
    rw [hbits, content, htwo] at hcontent
    obtain ⟨hsame, hrest⟩ :=
      List.append_inj hcontent (by rw [length_ofWords, length_ofWords, hlength, hthirtytwo])
    have htaken := ofWords_inj (by decide) hsame
    have hzero : (regroup words : Accumulator 8).register &&& 3 = 0 := by
      have h0 := @getLsbD_of_low _ _ _ (0 : BitVec 2) 2 hrest.symm
      refine BitVec.eq_of_getLsbD_eq fun i hi => ?_
      have hmask : ∀ i : Fin 32, (3 : BitVec 32).getLsbD i = decide ((i : Nat) < 2) := by decide
      rw [BitVec.getLsbD_and, hmask ⟨i, hi⟩]
      by_cases h2 : i < 2
      · rw [h0 i h2]
        simp
      · simp [h2]
    rw [hencoded, if_neg (by
        rw [List.length_append, BASE64.length_spell, hspelled, hpad,
          List.drop_left' (by rw [BASE64.length_spell, hspelled])]
        simp), List.take_left' (by rw [BASE64.length_spell, hspelled]), BASE64.read_iff.mpr rfl]
    simp only [Option.bind_eq_bind, Option.bind_some]
    rw [if_neg (by rw [hthirtytwo, htwo, hzero]; simp), ← htaken, if_neg (by rw [hencoded]; simp)]

/-! ### Recognition and agreement -/

/-- **Recognition is exact.** A text names a payer exactly if it is the text of a user's core, and
each such core has one text. Regrouping loses and invents no bits, so there is no padding; and the
checksum, a number of 32 bits, is the remainder of the message by the generator, which has thirty.
-/
theorem canonicalUserAddress_exact :
    (∀ value, canonicalUserAddress value = true ↔ ∃ core, UserCore core
      ∧ IsEncoding (units "z") core value)
    ∧ (∀ core, UserCore core → ∃! value, canonicalUserAddress value = true
      ∧ IsEncoding (units "z") core value)
    ∧ (∀ words : List Symbol, ofWords words = content (regroup words : Accumulator 8)
      ∧ (regroup words : Accumulator 8).bits < 8)
    ∧ (∀ words cs : List Symbol, cs.length = 6 →
      canonicalUserAddress (units "z1" ++ BECH32.spell (words ++ cs)) = true →
      ∃ core, UserCore core ∧ ofWords words = ofWords core)
    ∧ ∀ words, polymodWords 1 words = (polymod words).setWidth 32 ∧ poly (polymod words)
      = message words %ₘ generator
      ∧ 0 ≤ (polymodWords 1 words).toInt ∧ (polymodWords 1 words).toInt < 2 ^ 30 := by
  refine ⟨fun _ => canonicalUserAddress_iff, fun core hcore => ?_, fun words => ?_,
    fun words cs hcs haccepted => ?_, fun words => ?_⟩
  · obtain ⟨value, hvalue, hunique⟩ := existsUnique_encoding (units "z") core
    exact ⟨value, ⟨canonicalUserAddress_iff.mpr ⟨core, hcore, hvalue⟩, hvalue⟩,
      fun other h => hunique other h.2⟩
  · exact regroup_bits (by decide) (by decide) (by decide) words
  · obtain ⟨core, hcore, hencoding⟩ := canonicalUserAddress_iff.mp haccepted
    obtain ⟨read, hread, hbits⟩ := (isEncoding_user hcore.length).mp hencoding
    obtain ⟨hlength, hvalue, -⟩ := userWords_iff.mp hread
    obtain rfl := BECH32.spell_inj (List.append_cancel_left hvalue)
    rw [List.length_append, hcs] at hlength
    rw [List.take_left' (by omega)] at hbits
    exact ⟨core, hcore, hbits⟩
  · have hone : (1 : BitVec 32) = (1 : Register).setWidth 32 := by decide
    have hregister : polymodWords 1 words = (polymod words).setWidth 32 := by
      rw [hone, polymodWords_register, polymod]
    have hlt := (polymod words).isLt
    have hnat : (polymodWords 1 words).toNat = (polymod words).toNat := by
      rw [hregister, BitVec.toNat_setWidth, Nat.mod_eq_of_lt (by omega)]
    rw [BitVec.toInt_eq_toNat_of_lt (by omega), hnat]
    exact ⟨hregister, poly_polymod words, by omega, by omega⟩

/-- A payer's address, and its core. -/
def payer : CodeUnits := units "z1qp6kjgxzjpwhjf90akspf2srzkghr7ljjqrd87"

def payerCore : List (BitVec 8) :=
  [0, 117, 105, 32, 194, 144, 93, 121, 36, 175, 237, 160, 20, 170, 3, 21, 145, 113, 251, 242]

theorem canonicalUserAddress_exact_sample : UserCore payerCore ∧ canonicalUserAddress payer = true
    ∧ ∃! value, canonicalUserAddress value = true ∧ IsEncoding (units "z") payerCore value := by
  have hcore : UserCore payerCore := ⟨rfl, rfl, by decide⟩
  exact ⟨hcore, by decide +kernel, canonicalUserAddress_exact.2.1 payerCore hcore⟩

/-- **Agreement.** The decoder of addresses answers for the texts that name a payer, and answers the
one core whose text it is; token standards and data are their canonical texts as well. -/
theorem decoders_agree :
    (∀ value, (∃ core, address value = some core) ↔ canonicalUserAddress value = true)
    ∧ (∀ value core, address value = some core → core.length = 20
      ∧ IsEncoding (units "z") core value
      ∧ ∀ other, IsEncoding (units "z") other value → other = core)
    ∧ (∀ value core, tokenStandardCore value = some core ↔ core.length = 10
      ∧ IsEncoding (units "zts") core value)
    ∧ (∀ value value' core, tokenStandardCore value = some core → tokenStandardCore value'
      = some core → value = value')
    ∧ ∀ value, base64Data value = some () ↔
      ∃ bytes : List (BitVec 8), bytes.length = 32
        ∧ value = units (base64Text (bytes.map BitVec.toNat)) := by
  refine ⟨fun value => ?_, fun value core h => ?_, fun _ _ => tokenStandardCore_iff,
    fun value value' core h h' => ?_, fun _ => base64Data_iff⟩
  · simp only [address_iff, canonicalUserAddress_iff]
  · obtain ⟨hcore, hencoding⟩ := address_iff.mp h
    exact ⟨hcore.length, hencoding, fun other hother => encoding_inj hother hencoding⟩
  · obtain ⟨-, hvalue⟩ := tokenStandardCore_iff.mp h
    obtain ⟨-, hvalue'⟩ := tokenStandardCore_iff.mp h'
    exact (existsUnique_encoding (units "zts") core).unique hvalue hvalue'

theorem decoders_agree_sample :
    address payer = some payerCore ∧ IsEncoding (units "z") payerCore payer
    ∧ canonicalUserAddress payer = true := by
  have haddress : address payer = some payerCore := by decide +kernel
  exact ⟨haddress, (decoders_agree.2.1 payer payerCore haddress).2.1,
    (decoders_agree.1 payer).mp ⟨payerCore, haddress⟩⟩

end Zenon
end ZenonX402
