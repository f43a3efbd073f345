/-
# Words cut out of a stream of bits

A sequence of words of one width is a sequence of bits, the highest of each word first
(`ofWords`), and no other sequence of words of that width has the same bits
(`ofWords_inj`). Words of one width are written as words of another by pushing them into
an accumulator and taking the words of the other width from its top. The accumulator is
never masked: what has been taken, or is lost at the top, is above the bits that count
(`low`), so all that matters is that those fit (`push_low`, `take_low`).

Key definitions: `low`, `ofWords`, `Accumulator`, `push`, `take`, `drain`, `regroup`.
Key theorems: `ofWords_inj`, `exists_words`, `push_low`, `take_low`, `regroup_bits`, `drained_bits`.
-/
import Mathlib.Data.List.Basic
import Mathlib.Tactic.Linarith

namespace Bits

/-! ### Bits of a word -/

/-- The lowest bits of a word, the highest of them first. -/
def low {w : Nat} (v : BitVec w) : Nat → List Bool
  | 0 => []
  | n + 1 => v.getLsbD n :: low v n

attribute [grind =] low

@[simp] theorem length_low {w : Nat} (v : BitVec w) : ∀ n, (low v n).length = n
  | 0 => rfl
  | n + 1 => by rw [low, List.length_cons, length_low v n]

theorem low_congr {w u : Nat} {v : BitVec w} {v' : BitVec u} :
    ∀ {n : Nat}, (∀ i < n, v.getLsbD i = v'.getLsbD i) →
    low v n = low v' n
  | 0, _ => rfl
  | n + 1, h => by rw [low, low, h n n.lt_succ_self,
      low_congr fun i hi => h i (hi.trans n.lt_succ_self)]

theorem getLsbD_of_low {w u : Nat} {v : BitVec w} {v' : BitVec u} :
    ∀ {n : Nat}, low v n = low v' n →
    ∀ i < n, v.getLsbD i = v'.getLsbD i
  | n + 1, h, i, hi => by
    obtain ⟨hhead, htail⟩ := List.cons.inj h
    rcases Nat.lt_succ_iff_lt_or_eq.mp hi with hlt | rfl
    · exact getLsbD_of_low htail i hlt
    · exact hhead

theorem low_inj {w : Nat} {v v' : BitVec w} (h : low v w = low v' w) : v = v' :=
  BitVec.eq_of_getLsbD_eq fun i hi => getLsbD_of_low h i hi

/-- The lowest bits are those above some of them, and these. -/
theorem low_add {w : Nat} (v : BitVec w) (m : Nat) : ∀ n, low v (n + m) = low (v >>> m) n ++ low v m
  | 0 => by rw [Nat.zero_add, low, List.nil_append]
  | n + 1 => by
    rw [Nat.add_right_comm, low, low, low_add v m n, List.cons_append, BitVec.getLsbD_ushiftRight,
      Nat.add_comm m n]

/-- Some bits are the bits of a word. -/
theorem exists_low (w : Nat) : ∀ bs : List Bool, bs.length ≤ w → ∃ v : BitVec w,
    low v bs.length = bs
  | [], _ => ⟨0, rfl⟩
  | b :: bs, h => by
    obtain ⟨v, hv⟩ := exists_low w bs (by rw [List.length_cons] at h; omega)
    rw [List.length_cons] at h
    refine ⟨(v &&& ~~~ (BitVec.twoPow w bs.length)) |||
      (if b then BitVec.twoPow w bs.length else 0), ?_⟩
    have hbit : ∀ i, ((v &&& ~~~ (BitVec.twoPow w bs.length)) |||
        (if b then BitVec.twoPow w bs.length else 0)).getLsbD i
        = if i = bs.length then b else v.getLsbD i := by
      intro i
      by_cases hi : i = bs.length
      · subst hi
        cases b <;> simp [show bs.length < w by omega]
      · cases b <;> simp [BitVec.getLsbD_twoPow, hi, Ne.symm hi] <;> intro hv <;>
          exact BitVec.lt_of_getLsbD hv
    rw [List.length_cons, low, hbit, if_pos rfl]
    congr 1
    conv_rhs => rw [← hv]
    refine low_congr fun i hi => ?_
    rw [hbit, if_neg (by omega)]

/-! ### Bits of words -/

/-- The bits of words, one word after the other. -/
def ofWords {w : Nat} (vs : List (BitVec w)) : List Bool := vs.flatMap fun v => low v w

@[simp] theorem ofWords_nil {w : Nat} : ofWords ([] : List (BitVec w)) = [] := rfl

@[simp] theorem ofWords_cons {w : Nat} (v : BitVec w) (vs : List (BitVec w)) :
    ofWords (v :: vs) = low v w ++ ofWords vs := rfl

@[simp] theorem ofWords_append {w : Nat} (vs us : List (BitVec w)) :
    ofWords (vs ++ us) = ofWords vs ++ ofWords us :=
  List.flatMap_append

@[simp] theorem length_ofWords {w : Nat} :
    ∀ vs : List (BitVec w), (ofWords vs).length = vs.length * w
  | [] => by simp
  | v :: vs => by
    rw [ofWords_cons, List.length_append, length_low, length_ofWords vs, List.length_cons,
      Nat.add_mul, Nat.one_mul, Nat.add_comm]

/-- Words are known by their bits. -/
theorem ofWords_inj {w : Nat} (hw : 0 < w) :
    ∀ {vs us : List (BitVec w)}, ofWords vs = ofWords us → vs = us
  | [], [], _ => rfl
  | [], u :: us, h => by
    have hlength := congrArg List.length h
    rw [length_ofWords, length_ofWords, List.length_nil, List.length_cons, Nat.add_mul] at hlength
    omega
  | v :: vs, [], h => by
    have hlength := congrArg List.length h
    rw [length_ofWords, length_ofWords, List.length_nil, List.length_cons, Nat.add_mul] at hlength
    omega
  | v :: vs, u :: us, h => by
    rw [ofWords_cons, ofWords_cons] at h
    obtain ⟨hhead, htail⟩ := List.append_inj h (by rw [length_low, length_low])
    rw [low_inj hhead, ofWords_inj hw htail]

/-- As many bits as some words have are the bits of words. -/
theorem exists_words (w : Nat) : ∀ (n : Nat) (bs : List Bool), bs.length = n * w →
    ∃ vs : List (BitVec w), vs.length = n ∧ ofWords vs = bs
  | 0, bs, h => by
    rw [Nat.zero_mul] at h
    exact ⟨[], rfl, (List.length_eq_zero_iff.mp h).symm⟩
  | n + 1, bs, h => by
    rw [Nat.add_mul, Nat.one_mul] at h
    have hfirst : (bs.take w).length = w := by
      rw [List.length_take]
      omega
    obtain ⟨v, hv⟩ := exists_low w (bs.take w) hfirst.le
    obtain ⟨vs, hlength, hvs⟩ := exists_words w n (bs.drop w) (by rw [List.length_drop]; omega)
    rw [hfirst] at hv
    exact ⟨v :: vs, by rw [List.length_cons, hlength], by rw [ofWords_cons, hv, hvs,
      List.take_append_drop]⟩

/-! ### The accumulator -/

/-- A register of 32 bits, how many of its lowest bits are still to be taken, and the words that
were. -/
structure Accumulator (n : Nat) where
  register : BitVec 32
  bits : Nat
  taken : List (BitVec n)

variable {m n : Nat}

def empty : Accumulator n := ⟨0, 0, []⟩

/-- `accumulator = (accumulator << m) | word; bits += m`. -/
def push (a : Accumulator n) (word : BitVec m) : Accumulator n :=
  ⟨a.register <<< m ||| word.setWidth 32, a.bits + m, a.taken⟩

/-- `bits -= n; taken.push((accumulator >>> bits) & (2 ** n - 1))`. -/
def take (a : Accumulator n) : Accumulator n :=
  ⟨a.register, a.bits - n, a.taken ++ [(a.register >>> (a.bits - n)).setWidth n]⟩

/-- The bits that went in: of the words that were taken, and those that are still to be taken. -/
def content (a : Accumulator n) : List Bool := ofWords a.taken ++ low a.register a.bits

theorem push_low {a : Accumulator n} {word : BitVec m} (h : a.bits + m ≤ 32) :
    content (push a word) = content a ++ low word m := by
  have hhigh : low ((a.register <<< m ||| word.setWidth 32) >>> m) a.bits
      = low a.register a.bits := by
    refine low_congr fun i hi => ?_
    have hword : word.getLsbD (m + i) = false := BitVec.getLsbD_of_ge _ _ (by omega)
    rw [BitVec.getLsbD_ushiftRight, BitVec.getLsbD_or, BitVec.getLsbD_shiftLeft,
      BitVec.getLsbD_setWidth, hword, decide_eq_true (show m + i < 32 by omega),
      decide_eq_false (show ¬ m + i < m by omega), Nat.add_sub_cancel_left]
    simp
  have hlow : low (a.register <<< m ||| word.setWidth 32) m = low word m := by
    refine low_congr fun i hi => ?_
    simp [hi, show i < 32 by omega]
  simp only [content, push, low_add, hhigh, hlow, List.append_assoc]

theorem take_low {a : Accumulator n} (h : n ≤ a.bits) : content (take a) = content a := by
  have hword : low ((a.register >>> (a.bits - n)).setWidth n) n
      = low (a.register >>> (a.bits - n)) n :=
    low_congr fun i hi => by rw [BitVec.getLsbD_setWidth, decide_eq_true hi, Bool.true_and]
  have hbits : a.bits = n + (a.bits - n) := by omega
  simp only [content, take, ofWords_append, ofWords_cons, ofWords_nil, List.append_nil,
    List.append_assoc, hword]
  conv_rhs => rw [hbits, low_add]

/-- A word is taken if there are enough bits for one. -/
def takeIf (a : Accumulator n) : Accumulator n := if n ≤ a.bits then take a else a

/-- The words of another width, one of which is taken after each word at most. -/
def regroup (words : List (BitVec m)) : Accumulator n :=
  words.foldl (fun a word => takeIf (push a word)) empty

/-- Words are taken as long as there are enough bits for one. -/
def drain (a : Accumulator n) : Accumulator n := if 0 < n ∧ n ≤ a.bits then drain (take a) else a
termination_by a.bits
decreasing_by
  simp only [take]
  omega

/-- The words of another width, all of which are taken after each word. -/
def regroupAll (words : List (BitVec m)) : Accumulator n :=
  words.foldl (fun a word => drain (push a word)) empty

theorem takeIf_low (a : Accumulator n) : content (takeIf a) = content a := by
  unfold takeIf
  split
  · next h => exact take_low h
  · rfl

theorem drain_low (a : Accumulator n) :
    content (drain a) = content a ∧ (0 < n → (drain a).bits < n) := by
  induction a using drain.induct with
  | case1 a h ih =>
    rw [drain, if_pos h]
    exact ⟨ih.1.trans (take_low h.2), ih.2⟩
  | case2 a h =>
    rw [drain, if_neg h]
    exact ⟨rfl, fun hn => by omega⟩

/-- What follows of the content and of the number of bits after each word holds after any. -/
theorem fold_bits {f : Accumulator n → Accumulator n} (hn : 0 < n) (hfit : n + m ≤ 33)
    (hf : ∀ a : Accumulator n, a.bits < n + m → content (f a) = content a ∧ (f a).bits < n) :
    ∀ (words : List (BitVec m)) (a : Accumulator n), a.bits < n →
      content (words.foldl (fun a word => f (push a word)) a) = content a ++ ofWords words
        ∧ (words.foldl (fun a word => f (push a word)) a).bits < n
  | [], a, ha => by simpa using ha
  | word :: words, a, ha => by
    have hbits : (push a word).bits < n + m := by
      simp only [push]
      omega
    obtain ⟨hcontent, hless⟩ := hf (push a word) hbits
    obtain ⟨hrest, hlast⟩ := fold_bits hn hfit hf words (f (push a word)) hless
    rw [List.foldl_cons]
    refine ⟨?_, hlast⟩
    rw [hrest, hcontent, push_low (by omega), ofWords_cons, List.append_assoc]

/-- Regrouping loses and invents no bits: those of the words are those that were taken and the rest.
-/
theorem regroup_bits (hn : 0 < n) (hle : m ≤ n) (hfit : n + m ≤ 33) (words : List (BitVec m)) :
    ofWords words = content (regroup words : Accumulator n)
      ∧ (regroup words : Accumulator n).bits < n := by
  have h := fold_bits hn hfit (f := takeIf) (fun a ha => ⟨takeIf_low a, ?_⟩) words empty hn
  · exact ⟨h.1.symm, h.2⟩
  · unfold takeIf
    split
    · simp only [take]
      omega
    · omega

theorem drained_bits (hn : 0 < n) (hfit : n + m ≤ 33) (words : List (BitVec m)) :
    ofWords words = content (regroupAll words : Accumulator n)
      ∧ (regroupAll words : Accumulator n).bits < n := by
  have h := fold_bits hn hfit (f := drain) (fun a _ => ⟨(drain_low a).1, (drain_low a).2 hn⟩)
    words empty hn
  exact ⟨h.1.symm, h.2⟩

/-- How many words are taken, and how many bits are left. -/
theorem taken_length {words : List (BitVec m)} {a : Accumulator n} (h : ofWords words = content a)
    (hbits : a.bits < n) :
    a.taken.length = words.length * m / n ∧ a.bits = words.length * m % n := by
  have hlength := congrArg List.length h
  rw [content, List.length_append, length_ofWords, length_ofWords, length_low] at hlength
  rw [hlength, Nat.mul_comm a.taken.length n]
  exact ⟨by rw [Nat.mul_add_div (by omega), Nat.div_eq_of_lt hbits, Nat.add_zero],
    by rw [Nat.mul_add_mod, Nat.mod_eq_of_lt hbits]⟩

/-- Words of two widths with the same bits: those that are taken of the ones are the others. -/
theorem taken_eq {words : List (BitVec m)} {a : Accumulator n} {vs : List (BitVec n)} (hn : 0 < n)
    (h : ofWords words = content a) (hbits : a.bits < n) (hvs : ofWords vs = ofWords words) :
    a.taken = vs ∧ a.bits = 0 := by
  have hlength : words.length * m = vs.length * n := by
    rw [← length_ofWords, ← length_ofWords, hvs]
  have hzero : a.bits = 0 := by
    rw [(taken_length h hbits).2, hlength, Nat.mul_mod_left]
  refine ⟨ofWords_inj hn ?_, hzero⟩
  rw [hvs, h, content, hzero, low, List.append_nil]

end Bits
