/-
# The measure of a value

What a program counts when it copies untrusted data with a budget: the values
inside a value, the entries of its arrays and objects, the bytes of its keys, of
the indices of its arrays and of its strings, how deep it nests and how many
entries its widest part has. Counters add up over the entries of a container and
extents are the largest of its entries (`Measure.combine`), so a bound on each
entry is a bound on the whole (`within_arr`), whatever the order
of the keys (`within_canonical`). The text of JSON data is at most linear in its
measure (`text_le`).

Key definitions: `Measure`, `tally`, `Within`.
Key theorems: `within_arr`, `within_canonical`, `text_le`.
-/
import ZenonX402.Lib.Json
import Mathlib.Data.String.Basic
import Mathlib.Tactic.Linarith

namespace Js

/-- Counters of what a value holds, and its extents. `refusedKeys` counts the
object keys that a program does not let through. -/
structure Measure where
  nodes : Nat
  members : Nat
  keyBytes : Nat
  indexBytes : Nat
  stringBytes : Nat
  refusedKeys : Nat
  depth : Nat
  width : Nat
  deriving DecidableEq, Repr

namespace Measure

/-- Nothing. -/
def none : Measure := ⟨0, 0, 0, 0, 0, 0, 0, 0⟩

/-- Two parts side by side. -/
def combine (a b : Measure) : Measure :=
  ⟨a.nodes + b.nodes, a.members + b.members, a.keyBytes + b.keyBytes, a.indexBytes + b.indexBytes,
    a.stringBytes + b.stringBytes, a.refusedKeys + b.refusedKeys, max a.depth b.depth,
    max a.width b.width⟩

/-- The entries of a container, inside it. -/
def inside (entries : Nat) (a : Measure) : Measure :=
  { a with nodes := a.nodes + 1, depth := a.depth + 1, width := max entries a.width }

/-- Every counter and every extent is at most the other's. -/
structure Le (a b : Measure) : Prop where
  nodes : a.nodes ≤ b.nodes
  members : a.members ≤ b.members
  keyBytes : a.keyBytes ≤ b.keyBytes
  indexBytes : a.indexBytes ≤ b.indexBytes
  stringBytes : a.stringBytes ≤ b.stringBytes
  refusedKeys : a.refusedKeys ≤ b.refusedKeys
  depth : a.depth ≤ b.depth
  width : a.width ≤ b.width

instance (a b : Measure) : Decidable (a.Le b) :=
  decidable_of_iff (a.nodes ≤ b.nodes ∧ a.members ≤ b.members ∧ a.keyBytes ≤ b.keyBytes
      ∧ a.indexBytes ≤ b.indexBytes ∧ a.stringBytes ≤ b.stringBytes ∧ a.refusedKeys ≤ b.refusedKeys
      ∧ a.depth ≤ b.depth ∧ a.width ≤ b.width)
    ⟨fun ⟨h1, h2, h3, h4, h5, h6, h7, h8⟩ => ⟨h1, h2, h3, h4, h5, h6, h7, h8⟩,
      fun h => ⟨h.1, h.2, h.3, h.4, h.5, h.6, h.7, h.8⟩⟩

theorem Le.refl (a : Measure) : a.Le a :=
  ⟨le_rfl, le_rfl, le_rfl, le_rfl, le_rfl, le_rfl, le_rfl, le_rfl⟩

theorem Le.trans {a b c : Measure} (h : a.Le b) (h' : b.Le c) : a.Le c :=
  ⟨h.1.trans h'.1, h.2.trans h'.2, h.3.trans h'.3, h.4.trans h'.4, h.5.trans h'.5, h.6.trans h'.6,
    h.7.trans h'.7, h.8.trans h'.8⟩

theorem Le.combine {a b c d : Measure} (h : a.Le b) (h' : c.Le d) :
    (a.combine c).Le (b.combine d) :=
  ⟨Nat.add_le_add h.1 h'.1, Nat.add_le_add h.2 h'.2, Nat.add_le_add h.3 h'.3,
    Nat.add_le_add h.4 h'.4, Nat.add_le_add h.5 h'.5, Nat.add_le_add h.6 h'.6, max_le_max h.7 h'.7,
    max_le_max h.8 h'.8⟩

theorem Le.inside {a b : Measure} {m n : Nat} (h : a.Le b) (hmn : m ≤ n) :
    (a.inside m).Le (b.inside n) :=
  ⟨Nat.succ_le_succ h.1, h.2, h.3, h.4, h.5, h.6, Nat.succ_le_succ h.7, max_le_max hmn h.8⟩

theorem combine_left_comm (a b c : Measure) :
    a.combine (b.combine c) = b.combine (a.combine c) := by
  simp only [Measure.combine, Measure.mk.injEq]
  refine ⟨?_, ?_, ?_, ?_, ?_, ?_, max_left_comm .., max_left_comm ..⟩
  · exact Nat.add_left_comm ..
  · exact Nat.add_left_comm ..
  · exact Nat.add_left_comm ..
  · exact Nat.add_left_comm ..
  · exact Nat.add_left_comm ..
  · exact Nat.add_left_comm ..

/-- `n` parts of this measure side by side. -/
def times (n : Nat) (a : Measure) : Measure :=
  ⟨n * a.nodes, n * a.members, n * a.keyBytes, n * a.indexBytes, n * a.stringBytes,
    n * a.refusedKeys, a.depth, a.width⟩

theorem times_le {m n : Nat} (h : m ≤ n) (a : Measure) : (a.times m).Le (a.times n) :=
  ⟨Nat.mul_le_mul_right _ h, Nat.mul_le_mul_right _ h, Nat.mul_le_mul_right _ h,
    Nat.mul_le_mul_right _ h, Nat.mul_le_mul_right _ h, Nat.mul_le_mul_right _ h, le_rfl, le_rfl⟩

theorem combine_times_le (n : Nat) (a : Measure) :
    (a.combine (a.times n)).Le (a.times (n + 1)) := by
  have hsucc (m : Nat) : m + n * m ≤ (n + 1) * m := by rw [Nat.succ_mul, Nat.add_comm]
  exact ⟨hsucc _, hsucc _, hsucc _, hsucc _, hsucc _, hsucc _, (max_self _).le, (max_self _).le⟩

end Measure

namespace Value

open Js.Measure

/-! ### Measuring -/

/-- A value that holds no others. -/
def leaf : Measure := ⟨1, 0, 0, 0, 0, 0, 0, 0⟩

/-- A string of this many bytes. -/
def stringLeaf (bytes : Nat) : Measure := ⟨1, 0, 0, 0, bytes, 0, 0, 0⟩

/-- An index of this many digits. -/
def indexEntry (digits : Nat) : Measure := ⟨0, 1, 0, digits, 0, 0, 0, 0⟩

/-- An object key. -/
def keyEntry (bytes : Nat) (refused : Bool) : Measure :=
  ⟨0, 1, bytes, 0, 0, if refused then 1 else 0, 0, 0⟩

mutual

/-- The measure of a value; `refused` tells the keys that are not let through. -/
def tally (refused : String → Bool) : Value → Measure
  | .str s => stringLeaf s.utf8ByteSize
  | .arr xs => (tallyElements refused 0 xs).inside xs.length
  | .obj fs => (tallyMembers refused fs).inside fs.length
  | .undefined | .null | .bool _ | .num _ | .negZero | .fractional | .host => leaf

def tallyElements (refused : String → Bool) (index : Nat) : List Value → Measure
  | [] => Measure.none
  | v :: vs => ((indexEntry (Nat.toDigits 10 index).length).combine (tally refused v)).combine
      (tallyElements refused (index + 1) vs)

def tallyMembers (refused : String → Bool) : List (String × Value) → Measure
  | [] => Measure.none
  | (k, v) :: fs => ((keyEntry k.utf8ByteSize (refused k)).combine (tally refused v)).combine
      (tallyMembers refused fs)

end

variable {refused : String → Bool}

/-- The value measures at most this much. -/
def Within (refused : String → Bool) (v : Value) (m : Measure) : Prop := (tally refused v).Le m

/-- The fields measure at most this much. -/
def FieldsWithin (refused : String → Bool) (fs : List (String × Value)) (m : Measure) : Prop :=
  (tallyMembers refused fs).Le m

theorem Within.mono {v : Value} {m m' : Measure} (h : Within refused v m) (hle : m.Le m') :
    Within refused v m' :=
  h.trans hle

theorem within_null : Within refused .null leaf := .refl _

theorem within_num (n : Int) : Within refused (.num n) leaf := .refl _

theorem within_str {s : String} {n : Nat} (h : s.utf8ByteSize ≤ n) :
    Within refused (.str s) (stringLeaf n) :=
  ⟨le_rfl, le_rfl, le_rfl, le_rfl, h, le_rfl, le_rfl, le_rfl⟩

theorem fields_nil : FieldsWithin refused [] Measure.none := .refl _

theorem fields_cons {k : String} {v : Value} {fs : List (String × Value)} {m m' : Measure}
    (hv : Within refused v m) (hfs : FieldsWithin refused fs m') :
    FieldsWithin refused ((k, v) :: fs)
    (((keyEntry k.utf8ByteSize (refused k)).combine m).combine m') :=
  ((Le.refl _).combine hv).combine hfs

/-- Elements whose indices, counted from `index` on, stay below ten thousand. -/
theorem elements_within {m : Measure} :
    ∀ (xs : List Value) (index : Nat), (∀ x ∈ xs, Within refused x m) →
    index + xs.length ≤ 10000 →
    (tallyElements refused index xs).Le (((indexEntry 4).combine m).times xs.length)
  | [], index, _, _ =>
    ⟨Nat.zero_le _, Nat.zero_le _, Nat.zero_le _, Nat.zero_le _, Nat.zero_le _, Nat.zero_le _,
      Nat.zero_le _, Nat.zero_le _⟩
  | x :: xs, index, h, hlen => by
    have hlen' : index + 1 + xs.length ≤ 10000 := by
      rw [List.length_cons] at hlen
      omega
    have hdigits : (Nat.toDigits 10 index).length ≤ 4 :=
      (Nat.length_toDigits_le_iff (by decide) (by decide)).mpr (by omega)
    have hrest := elements_within xs (index + 1) (fun y hy => h y (List.mem_cons_of_mem _ hy)) hlen'
    have hhead : (indexEntry (Nat.toDigits 10 index).length).Le (indexEntry 4) :=
      ⟨le_rfl, le_rfl, le_rfl, hdigits, le_rfl, le_rfl, le_rfl, le_rfl⟩
    exact ((hhead.combine (h x List.mem_cons_self)).combine hrest).trans (combine_times_le _ _)

/-- An array of at most `n` entries. -/
theorem within_arr {xs : List Value} {m : Measure} {n : Nat} (h : ∀ x ∈ xs, Within refused x m)
    (hlen : xs.length ≤ n) (hn : n ≤ 10000) :
    Within refused (.arr xs) ((((indexEntry 4).combine m).times n).inside n) := by
  have helements := elements_within xs 0 h (by omega)
  exact (helements.trans (times_le hlen _)).inside hlen

/-! ### The order of keys -/

theorem tallyMembers_perm {fs gs : List (String × Value)} (h : fs.Perm gs) :
    tallyMembers refused fs = tallyMembers refused gs := by
  induction h with
  | nil => rfl
  | cons f _ ih =>
    obtain ⟨k, v⟩ := f
    rw [tallyMembers, tallyMembers, ih]
  | swap f g fs =>
    obtain ⟨k, v⟩ := f
    obtain ⟨l, w⟩ := g
    simp only [tallyMembers]
    exact combine_left_comm _ _ _
  | trans _ _ ih ih' => exact ih.trans ih'

mutual

theorem tally_canonical : ∀ v : Value, tally refused v.canonical = tally refused v
  | .arr xs => by
    rw [canonical, tally, tally, tally_canonicalList 0 xs, canonicalList_eq_map, List.length_map]
  | .obj fs => by
    have hperm := perm_sortFields (canonicalFields fs)
    rw [canonical, tally, tally, tallyMembers_perm hperm, hperm.length_eq,
      tally_canonicalFields fs, canonicalFields_eq_map, List.length_map]
  | .undefined | .null | .bool _ | .num _ | .negZero | .fractional | .str _ | .host => by
    simp only [canonical, tally]

theorem tally_canonicalList : ∀ (index : Nat) (xs : List Value),
    tallyElements refused index (canonicalList xs) = tallyElements refused index xs
  | _, [] => rfl
  | index, x :: xs => by
    rw [canonicalList, tallyElements, tallyElements, tally_canonical x,
      tally_canonicalList (index + 1) xs]

theorem tally_canonicalFields : ∀ fs : List (String × Value),
    tallyMembers refused (canonicalFields fs) = tallyMembers refused fs
  | [] => rfl
  | (k, v) :: fs => by
    rw [canonicalFields, tallyMembers, tallyMembers, tally_canonical v, tally_canonicalFields fs]

end

theorem within_canonical {v : Value} {m : Measure} :
    Within refused v.canonical m ↔ Within refused v m := by
  unfold Within
  rw [tally_canonical]

/-! ### Bytes -/

open String (utf8Len)

theorem utf8Len_flatMap_escape : ∀ cs : List Char, utf8Len (cs.flatMap Json.escape) ≤ 6 * utf8Len cs
  | [] => le_rfl
  | c :: cs => by
    have hc : utf8Len (Json.escape c) ≤ 6 * c.utf8Size := by
      have hpos := c.utf8Size_pos
      have hhex (n : Nat) : (Json.hexDigit n).utf8Size = 1 := by
        have hlt : n % 16 < 16 := Nat.mod_lt _ (by decide)
        have hall : ∀ m < 16, (Nat.digitChar m).utf8Size = 1 := by decide
        exact hall _ hlt
      unfold Json.escape
      repeat' split
      all_goals simp only [String.utf8Len_cons, String.utf8Len_nil, hhex]
      any_goals have hone : ('\\').utf8Size = 1 ∧ ('\x22').utf8Size = 1 ∧ ('b').utf8Size = 1
        ∧ ('f').utf8Size = 1
          ∧ ('n').utf8Size = 1 ∧ ('r').utf8Size = 1 ∧ ('t').utf8Size = 1 ∧ ('u').utf8Size = 1
          ∧ ('0').utf8Size = 1 := by decide
      all_goals omega
    have ih := utf8Len_flatMap_escape cs
    rw [List.flatMap_cons, String.utf8Len_append, String.utf8Len_cons]
    omega

/-- A text of ASCII characters has one byte for each. -/
theorem utf8Len_ascii : ∀ {cs : List Char}, (∀ c ∈ cs, c.utf8Size = 1) → utf8Len cs = cs.length
  | [], _ => rfl
  | c :: cs, h => by
    rw [String.utf8Len_cons, utf8Len_ascii fun d hd => h d (List.mem_cons_of_mem _ hd),
      h c List.mem_cons_self, List.length_cons]

theorem utf8Size_isDigit {c : Char} (h : Json.isDigit c = true) : c.utf8Size = 1 := by
  unfold Json.isDigit at h
  simp only [Bool.and_eq_true, decide_eq_true_eq] at h
  have hle : c.val ≤ ('9').val := h.2
  have hnine : ('9').val ≤ 127 := by decide
  exact Char.utf8Size_eq_one_iff.mpr (UInt32.le_trans hle hnine)

theorem utf8Len_writeString (s : String) :
    utf8Len (Json.writeString s) ≤ 6 * s.utf8ByteSize + 2 := by
  have hflat := utf8Len_flatMap_escape s.toList
  have hquote : ('\x22').utf8Size = 1 := by decide
  rw [String.utf8Len_toList] at hflat
  simp only [Json.writeString, String.utf8Len_cons, String.utf8Len_append,
    String.utf8Len_nil, hquote]
  omega

theorem utf8Len_writeInt {n : Int} (h : n.natAbs ≤ 9007199254740991) :
    utf8Len (Json.writeInt n) ≤ 17 := by
  have hdigits : utf8Len (Nat.toDigits 10 n.natAbs) ≤ 16 := by
    rw [utf8Len_ascii fun c hc => utf8Size_isDigit (Json.isDigit_toDigits hc)]
    exact (Nat.length_toDigits_le_iff (by decide) (by decide)).mpr (by omega)
  have hminus : ('-').utf8Size = 1 := by decide
  unfold Json.writeInt
  split
  · rw [String.utf8Len_cons]
    omega
  · omega

/-! ### The text -/

/-- Bytes that are enough for the text of a value of this measure. -/
def textBytes (m : Measure) : Nat := 17 * m.nodes + 4 * m.members + 6 * (m.keyBytes + m.stringBytes)

theorem textBytes_mono {m m' : Measure} (h : m.Le m') : textBytes m ≤ textBytes m' := by
  unfold textBytes
  have := h.nodes
  have := h.members
  have := h.keyBytes
  have := h.stringBytes
  omega

theorem textBytes_combine (a b : Measure) :
    textBytes (a.combine b) = textBytes a + textBytes b := by
  unfold textBytes combine
  simp only
  omega

theorem textBytes_inside (n : Nat) (a : Measure) : textBytes (a.inside n) = textBytes a + 17 := by
  unfold textBytes inside
  simp only
  omega

theorem textBytes_indexEntry (n : Nat) : textBytes (indexEntry n) = 4 := rfl

theorem textBytes_keyEntry (n : Nat) (b : Bool) : textBytes (keyEntry n b) = 4 + 6 * n := rfl

theorem textBytes_leaf : textBytes leaf = 17 := rfl

theorem textBytes_stringLeaf (n : Nat) : textBytes (stringLeaf n) = 17 + 6 * n := by
  simp [textBytes, stringLeaf]

theorem utf8Size_punctuation : ('[').utf8Size = 1 ∧ (']').utf8Size = 1 ∧ ('\x7b').utf8Size = 1
    ∧ ('\x7d').utf8Size = 1 ∧ (',').utf8Size = 1 ∧ (':').utf8Size = 1 := by
  decide

/-- Every value measures at least one node. -/
theorem one_le_nodes : ∀ v : Value, 1 ≤ (tally refused v).nodes
  | .arr _ | .obj _ => by
    rw [tally]
    exact Nat.le_add_left 1 _
  | .undefined | .null | .bool _ | .num _ | .negZero | .fractional | .str _ | .host => by
    rw [tally]
    exact le_rfl

theorem short_le (v : Value) {n : Nat} (h : n ≤ 17) : n ≤ textBytes (tally refused v) := by
  have := @one_le_nodes refused v
  unfold textBytes
  omega

theorem utf8Len_closing {cs : List Char} {n : Nat} (h : utf8Len cs = 1) : utf8Len cs ≤ n + 1 := by
  omega

mutual

theorem utf8Len_write : ∀ {v : Value}, v.Json → utf8Len (Json.write v) ≤ textBytes (tally refused v)
  | .null, _ => short_le _ (by decide)
  | .bool true, _ => short_le _ (by decide)
  | .bool false, _ => short_le _ (by decide)
  | .num n, h => by
    cases h with
    | num hn => exact utf8Len_writeInt hn
  | .str s, _ => by
    have hs := utf8Len_writeString s
    simp only [Json.write, tally, textBytes, stringLeaf]
    omega
  | .arr [], _ => short_le _ (by decide)
  | .arr (v :: vs), h => by
    cases h with
    | arr h =>
      have hv := utf8Len_write (h v List.mem_cons_self)
      have hvs := utf8Len_writeElements (0 + 1) fun w hw => h w (List.mem_cons_of_mem _ hw)
      have hpunctuation := utf8Size_punctuation
      rw [tally, textBytes_inside, tallyElements, textBytes_combine, textBytes_combine,
        textBytes_indexEntry]
      rw [Json.write, String.utf8Len_cons, String.utf8Len_append]
      omega
  | .obj [], _ => short_le _ (by decide)
  | .obj ((k, v) :: fs), h => by
    cases h with
    | obj _ h =>
      have hk := utf8Len_writeString k
      have hv : utf8Len (Json.write v) ≤ _ := utf8Len_write (h (k, v) List.mem_cons_self)
      have hfs := utf8Len_writeMembers fun f hf => h f (List.mem_cons_of_mem _ hf)
      have hpunctuation := utf8Size_punctuation
      rw [tally, textBytes_inside, tallyMembers, textBytes_combine, textBytes_combine,
        textBytes_keyEntry]
      rw [Json.write, String.utf8Len_cons, String.utf8Len_append, String.utf8Len_cons,
        String.utf8Len_append]
      omega

theorem utf8Len_writeElements : ∀ (index : Nat) {vs : List Value}, (∀ v ∈ vs, v.Json) →
    utf8Len (Json.writeElements vs) ≤ textBytes (tallyElements refused index vs) + 1
  | _, [], _ => utf8Len_closing (by decide)
  | index, v :: vs, h => by
    have hv := utf8Len_write (h v List.mem_cons_self)
    have hvs := utf8Len_writeElements (index + 1) fun w hw => h w (List.mem_cons_of_mem _ hw)
    have hpunctuation := utf8Size_punctuation
    rw [tallyElements, textBytes_combine, textBytes_combine, textBytes_indexEntry]
    rw [Json.writeElements, String.utf8Len_cons, String.utf8Len_append]
    omega

theorem utf8Len_writeMembers : ∀ {fs : List (String × Value)}, (∀ f ∈ fs, f.2.Json) →
    utf8Len (Json.writeMembers fs) ≤ textBytes (tallyMembers refused fs) + 1
  | [], _ => utf8Len_closing (by decide)
  | (k, v) :: fs, h => by
    have hk := utf8Len_writeString k
    have hv : utf8Len (Json.write v) ≤ _ := utf8Len_write (h (k, v) List.mem_cons_self)
    have hfs := utf8Len_writeMembers fun f hf => h f (List.mem_cons_of_mem _ hf)
    have hpunctuation := utf8Size_punctuation
    rw [tallyMembers, textBytes_combine, textBytes_combine, textBytes_keyEntry]
    rw [Json.writeMembers, String.utf8Len_cons, String.utf8Len_append, String.utf8Len_cons,
      String.utf8Len_append]
    omega

end

/-- The canonical text of JSON data within a measure. -/
theorem text_le {v : Value} {m : Measure} (hv : v.Json) (h : Within refused v m) :
    (canonicalJson v).utf8ByteSize ≤ textBytes m := by
  unfold canonicalJson stringify
  rw [String.utf8ByteSize_ofList]
  calc utf8Len (Json.write v.canonical) ≤ textBytes (tally refused
          v.canonical) := utf8Len_write hv.canonical
    _ ≤ textBytes m := textBytes_mono (within_canonical.mpr h)

end Value
end Js
