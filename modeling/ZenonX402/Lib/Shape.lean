/-
# The shape of data

What the walks over untrusted JSON decide on: that a value is data throughout
(`Plain`: no fraction, nothing undefined, numbers safe, keys distinct), how deep it
nests (`height`) and what its keys are (`keysAll`). Each of the three is that of the
entries, so a walk that takes a container apart is followed by `height_arr_le`,
`height_obj_le`, `keysAll_arr` and `keysAll_obj`. None of them sees the sign of a
zero.

The text of a container is its entries with a comma each and the brackets
(`textSize_arr_eq`), and no shorter than what it is the text of
(`utf8ByteSize_le_textSize`).

Key definitions: `Plain`, `height`, `keysAll`.
Key theorems: `height_unsigned`, `keysAll_unsigned`, `textSize_unsigned`,
`utf8ByteSize_le_textSize`.
-/
import ZenonX402.Lib.Extent

namespace Js
namespace Value

open Js.Measure (none)
open String (utf8Len)

/-- JSON data, up to the sign of a zero. -/
inductive Plain : Value → Prop
  | null : Plain .null
  | bool (b : Bool) : Plain (.bool b)
  | num {n : Int} (h : n.natAbs ≤ 9007199254740991) : Plain (.num n)
  | negZero : Plain .negZero
  | str (s : String) : Plain (.str s)
  | arr {xs : List Value} (h : ∀ x ∈ xs, Plain x) : Plain (.arr xs)
  | obj {fs : List (String × Value)} (hn : (fs.map Prod.fst).Nodup) (h : ∀ f ∈ fs, Plain f.2) :
      Plain (.obj fs)

theorem Json.plain {v : Value} (h : v.Json) : Plain v := by
  induction h with
  | null => exact .null
  | bool b => exact .bool b
  | num h => exact .num h
  | str s => exact .str s
  | arr _ ih => exact .arr ih
  | obj hn _ ih => exact .obj hn ih

theorem Plain.json {v : Value} (h : Plain v) : v.unsigned.Json := by
  induction h with
  | null => rw [unsigned]; exact .null
  | bool b => rw [unsigned]; exact .bool b
  | num h => rw [unsigned]; exact .num h
  | negZero => rw [unsigned]; exact .num (by decide)
  | str s => rw [unsigned]; exact .str s
  | arr _ ih =>
    rw [unsigned, unsignedElements_eq_map]
    refine .arr fun x hx => ?_
    obtain ⟨y, hy, rfl⟩ := List.mem_map.mp hx
    exact ih y hy
  | obj hn _ ih =>
    rw [unsigned]
    refine .obj ?_ fun f hf => ?_
    · rw [unsignedMembers_keys]
      exact hn
    · rw [unsignedMembers_eq_map] at hf
      obtain ⟨g, hg, rfl⟩ := List.mem_map.mp hf
      exact ih g hg

mutual

/-- `Plain` as a check. -/
def isPlain : Value → Bool
  | .null | .bool _ | .negZero | .str _ => true
  | .num n => decide (n.natAbs ≤ 9007199254740991)
  | .arr xs => isPlainElements xs
  | .obj fs => decide (fs.map Prod.fst).Nodup && isPlainMembers fs
  | .undefined | .fractional | .host => false

def isPlainElements : List Value → Bool
  | [] => true
  | x :: xs => isPlain x && isPlainElements xs

def isPlainMembers : List (String × Value) → Bool
  | [] => true
  | (_, x) :: fs => isPlain x && isPlainMembers fs

end

mutual

theorem plain_of_isPlain : ∀ v : Value, isPlain v = true → Plain v
  | .null, _ => .null
  | .bool b, _ => .bool b
  | .num _, h => .num (of_decide_eq_true h)
  | .negZero, _ => .negZero
  | .str s, _ => .str s
  | .arr xs, h => .arr (plain_of_isPlainElements xs h)
  | .obj fs, h => by
    rw [isPlain, Bool.and_eq_true] at h
    exact .obj (of_decide_eq_true h.1) (plain_of_isPlainMembers fs h.2)

theorem plain_of_isPlainElements : ∀ xs : List Value, isPlainElements xs = true → ∀ x ∈ xs, Plain x
  | [], _ => List.forall_mem_nil _
  | x :: xs, h => by
    rw [isPlainElements, Bool.and_eq_true] at h
    exact List.forall_mem_cons.mpr ⟨plain_of_isPlain x h.1, plain_of_isPlainElements xs h.2⟩

theorem plain_of_isPlainMembers : ∀ fs : List (String × Value), isPlainMembers fs = true →
    ∀ f ∈ fs, Plain f.2
  | [], _ => List.forall_mem_nil _
  | (_, x) :: fs, h => by
    rw [isPlainMembers, Bool.and_eq_true] at h
    exact List.forall_mem_cons.mpr ⟨plain_of_isPlain x h.1, plain_of_isPlainMembers fs h.2⟩

end

/-! ### Nesting -/

mutual

/-- How many levels of entries are below a value. -/
def height : Value → Nat
  | .arr xs => heightElements xs
  | .obj fs => heightMembers fs
  | .undefined | .null | .bool _ | .num _ | .negZero | .fractional | .str _ | .host => 0

def heightElements : List Value → Nat
  | [] => 0
  | x :: xs => max (height x + 1) (heightElements xs)

def heightMembers : List (String × Value) → Nat
  | [] => 0
  | (_, x) :: fs => max (height x + 1) (heightMembers fs)

end

theorem heightElements_le {n : Nat} (xs : List Value) :
    heightElements xs ≤ n ↔ ∀ x ∈ xs, height x + 1 ≤ n := by
  induction xs with
  | nil => simp [heightElements]
  | cons x xs ih => rw [heightElements, max_le_iff, ih, List.forall_mem_cons]

theorem heightMembers_le {n : Nat} (fs : List (String × Value)) :
    heightMembers fs ≤ n ↔ ∀ f ∈ fs, height f.2 + 1 ≤ n := by
  induction fs with
  | nil => simp [heightMembers]
  | cons f fs ih => rw [heightMembers, max_le_iff, ih, List.forall_mem_cons]

theorem height_arr_le {xs : List Value} {n : Nat} :
    height (.arr xs) ≤ n ↔ ∀ x ∈ xs, height x + 1 ≤ n := by
  rw [height, heightElements_le]

theorem height_obj_le {fs : List (String × Value)} {n : Nat} :
    height (.obj fs) ≤ n ↔ ∀ f ∈ fs, height f.2 + 1 ≤ n := by
  rw [height, heightMembers_le]

/-- The levels that are left for the entries of a container. -/
theorem add_height_arr_le {xs : List Value} {depth n : Nat} (h : depth ≤ n) :
    depth + height (.arr xs) ≤ n ↔ ∀ x ∈ xs, depth + 1 + height x ≤ n := by
  rw [← Nat.le_sub_iff_add_le' h, height_arr_le]
  refine forall₂_congr fun x _ => ?_
  omega

theorem add_height_obj_le {fs : List (String × Value)} {depth n : Nat} (h : depth ≤ n) :
    depth + height (.obj fs) ≤ n ↔ ∀ f ∈ fs, depth + 1 + height f.2 ≤ n := by
  rw [← Nat.le_sub_iff_add_le' h, height_obj_le]
  refine forall₂_congr fun f _ => ?_
  omega

/-! ### Keys -/

mutual

/-- `p` of every key of every object. -/
def keysAll (p : String → Bool) : Value → Bool
  | .arr xs => keysAllElements p xs
  | .obj fs => keysAllMembers p fs
  | .undefined | .null | .bool _ | .num _ | .negZero | .fractional | .str _ | .host => true

def keysAllElements (p : String → Bool) : List Value → Bool
  | [] => true
  | x :: xs => keysAll p x && keysAllElements p xs

def keysAllMembers (p : String → Bool) : List (String × Value) → Bool
  | [] => true
  | (key, x) :: fs => p key && keysAll p x && keysAllMembers p fs

end

variable {p : String → Bool}

theorem keysAllElements_iff (xs : List Value) :
    keysAllElements p xs = true ↔ ∀ x ∈ xs, keysAll p x = true := by
  induction xs with
  | nil => simp [keysAllElements]
  | cons x xs ih => rw [keysAllElements, Bool.and_eq_true, ih, List.forall_mem_cons]

theorem keysAllMembers_iff (fs : List (String × Value)) :
    keysAllMembers p fs = true ↔ ∀ f ∈ fs, p f.1 = true ∧ keysAll p f.2 = true := by
  induction fs with
  | nil => simp [keysAllMembers]
  | cons f fs ih => rw [keysAllMembers, Bool.and_eq_true, Bool.and_eq_true, ih,
      List.forall_mem_cons]

theorem keysAll_arr {xs : List Value} :
    keysAll p (.arr xs) = true ↔ ∀ x ∈ xs, keysAll p x = true := by
  rw [keysAll, keysAllElements_iff]

theorem keysAll_obj {fs : List (String × Value)} :
    keysAll p (.obj fs) = true ↔ ∀ f ∈ fs, p f.1 = true ∧ keysAll p f.2 = true := by
  rw [keysAll, keysAllMembers_iff]

theorem keysAll_and {q : String → Bool} {v : Value} (hv : Plain v) :
    keysAll (fun key => p key && q key) v = true ↔ keysAll p v = true ∧ keysAll q v = true := by
  induction hv with
  | arr _ ih =>
    rw [keysAll_arr, keysAll_arr, keysAll_arr, ← forall₂_and]
    exact forall₂_congr ih
  | obj _ _ ih =>
    rw [keysAll_obj, keysAll_obj, keysAll_obj, ← forall₂_and]
    refine forall₂_congr fun f hf => ?_
    rw [Bool.and_eq_true, ih f hf, and_and_and_comm]
  | _ => simp [keysAll]

/-! ### The sign of zero -/

mutual

theorem height_unsigned : ∀ v : Value, height v.unsigned = height v
  | .arr xs => by rw [unsigned, height, height, heightElements_unsigned xs]
  | .obj fs => by rw [unsigned, height, height, heightMembers_unsigned fs]
  | .undefined | .null | .bool _ | .num _ | .negZero | .fractional | .str _ | .host => rfl

theorem heightElements_unsigned : ∀ xs : List Value, heightElements (unsignedElements xs)
    = heightElements xs
  | [] => rfl
  | x :: xs => by rw [unsignedElements, heightElements, heightElements, height_unsigned x,
      heightElements_unsigned xs]

theorem heightMembers_unsigned : ∀ fs : List (String × Value), heightMembers (unsignedMembers fs)
    = heightMembers fs
  | [] => rfl
  | (key, x) :: fs => by
    rw [unsignedMembers, heightMembers, heightMembers, height_unsigned x, heightMembers_unsigned fs]

end

mutual

theorem keysAll_unsigned : ∀ v : Value, keysAll p v.unsigned = keysAll p v
  | .arr xs => by rw [unsigned, keysAll, keysAll, keysAllElements_unsigned xs]
  | .obj fs => by rw [unsigned, keysAll, keysAll, keysAllMembers_unsigned fs]
  | .undefined | .null | .bool _ | .num _ | .negZero | .fractional | .str _ | .host => rfl

theorem keysAllElements_unsigned : ∀ xs : List Value, keysAllElements p (unsignedElements xs)
    = keysAllElements p xs
  | [] => rfl
  | x :: xs => by rw [unsignedElements, keysAllElements, keysAllElements, keysAll_unsigned x,
      keysAllElements_unsigned xs]

theorem keysAllMembers_unsigned :
    ∀ fs : List (String × Value), keysAllMembers p (unsignedMembers fs) = keysAllMembers p fs
  | [] => rfl
  | (key, x) :: fs => by
    rw [unsignedMembers, keysAllMembers, keysAllMembers, keysAll_unsigned x,
      keysAllMembers_unsigned fs]

end

theorem textSize_unsigned (v : Value) : textSize v.unsigned = textSize v := by
  have hwrite := Json.Layout.write_unsigned .compact 0 v
  rw [Json.Layout.write_compact, Json.Layout.write_compact] at hwrite
  rw [textSize, textSize, hwrite]

/-! ### Sizes -/

/-- The text of data is no longer than its measure allows. -/
theorem textSize_le_tally {v : Value} {n : Nat} (hv : Plain v)
    (h : textBytes (tally (fun _ => false) v.unsigned) ≤ n) : textSize v ≤ n := by
  rw [← textSize_unsigned, ← size_stringify]
  exact size_stringify_le hv.json h

theorem utf8Len_writeElements_eq : ∀ xs : List Value,
    utf8Len (Json.writeElements xs) = (xs.map fun x => textSize x + 1).sum + 1
  | [] => rfl
  | x :: xs => by
    have hcomma : (',').utf8Size = 1 := by decide
    rw [Json.writeElements, String.utf8Len_cons, String.utf8Len_append, utf8Len_writeElements_eq xs,
      List.map_cons, List.sum_cons]
    simp only [textSize]
    omega

/-- An array is its elements with a comma each, but for one, between brackets. -/
theorem textSize_arr_eq (xs : List Value) :
    textSize (.arr xs) + min 1 xs.length = (xs.map fun x => textSize x + 1).sum + 2 := by
  have hbracket : ('[').utf8Size = 1 ∧ (']').utf8Size = 1 := by decide
  cases xs with
  | nil =>
    simp only [textSize, Json.write, String.utf8Len_cons, String.utf8Len_nil, List.map_nil,
      List.sum_nil, List.length_nil]
    omega
  | cons x xs =>
    rw [textSize, Json.write, String.utf8Len_cons, String.utf8Len_append,
      utf8Len_writeElements_eq xs, List.map_cons, List.sum_cons, List.length_cons]
    simp only [textSize]
    omega

theorem utf8Size_le_escape (c : Char) : c.utf8Size ≤ utf8Len (Json.escape c) := by
  unfold Json.escape
  split_ifs with h1 h2 h3 h4 h5 h6 h7 h8
  · subst h1; decide
  · subst h2; decide
  · subst h3; decide
  · subst h4; decide
  · subst h5; decide
  · subst h6; decide
  · subst h7; decide
  · have hle : c.utf8Size ≤ 4 := c.utf8Size_le_four
    have hpos := fun d : Char => d.utf8Size_pos
    have h1 := hpos '\\'
    have h2 := hpos 'u'
    have h3 := hpos '0'
    simp only [String.utf8Len_cons, String.utf8Len_nil]
    omega
  · simp [String.utf8Len_cons]

theorem utf8Len_le_escape : ∀ cs : List Char, utf8Len cs ≤ utf8Len (cs.flatMap Json.escape)
  | [] => le_rfl
  | c :: cs => by
    have hc := utf8Size_le_escape c
    have hcs := utf8Len_le_escape cs
    rw [List.flatMap_cons, String.utf8Len_cons, String.utf8Len_append]
    omega

/-- A literal is at least as long as the string, and its quotes. -/
theorem utf8ByteSize_le_textSize (s : String) : s.utf8ByteSize + 2 ≤ textSize (.str s) := by
  have hquote : ('\x22').utf8Size = 1 := by decide
  have hle := utf8Len_le_escape s.toList
  have hsize : s.utf8ByteSize = utf8Len s.toList := by
    rw [← String.utf8ByteSize_ofList, String.ofList_toList]
  rw [textSize, Json.write, Json.writeString, String.utf8Len_cons, String.utf8Len_append,
    String.utf8Len_cons, String.utf8Len_nil]
  omega

mutual

/-- White space makes a text longer. -/
theorem textSize_le_layout (L : Json.Layout) :
    ∀ (depth : Nat) (v : Value), textSize v ≤ utf8Len (L.write depth v)
  | _, .null | _, .undefined | _, .fractional | _, .host | _, .num _ | _, .negZero | _, .str _ | _,
      .arr [] | _, .obj [] => le_rfl
  | _, .bool b => by cases b <;> rfl
  | depth, .arr (x :: xs) => by
    have hx := textSize_le_layout L (depth + 1) x
    have hxs := writeElements_le_layout L depth xs
    unfold textSize at hx ⊢
    simp only [Json.write, Json.Layout.write, String.utf8Len_cons, String.utf8Len_append]
    omega
  | depth, .obj ((k, x) :: fs) => by
    have hx := textSize_le_layout L (depth + 1) x
    have hfs := writeMembers_le_layout L depth fs
    unfold textSize at hx ⊢
    simp only [Json.write, Json.Layout.write, String.utf8Len_cons, String.utf8Len_append]
    omega

theorem writeElements_le_layout (L : Json.Layout) : ∀ (depth : Nat) (xs : List Value),
    utf8Len (Json.writeElements xs) ≤ utf8Len (L.writeElements depth xs)
  | depth, [] => by
    simp only [Json.writeElements, Json.Layout.writeElements, String.utf8Len_cons,
      String.utf8Len_append]
    omega
  | depth, x :: xs => by
    have hx := textSize_le_layout L (depth + 1) x
    have hxs := writeElements_le_layout L depth xs
    unfold textSize at hx
    simp only [Json.writeElements, Json.Layout.writeElements, String.utf8Len_cons,
      String.utf8Len_append]
    omega

theorem writeMembers_le_layout (L : Json.Layout) : ∀ (depth : Nat) (fs : List (String × Value)),
    utf8Len (Json.writeMembers fs) ≤ utf8Len (L.writeMembers depth fs)
  | depth, [] => by
    simp only [Json.writeMembers, Json.Layout.writeMembers, String.utf8Len_cons,
      String.utf8Len_append]
    omega
  | depth, (k, x) :: fs => by
    have hx := textSize_le_layout L (depth + 1) x
    have hfs := writeMembers_le_layout L depth fs
    unfold textSize at hx
    simp only [Json.writeMembers, Json.Layout.writeMembers, String.utf8Len_cons,
      String.utf8Len_append]
    omega

end

/-- The text of an object is shorter without its last members. -/
theorem textSize_obj_append (fs gs : List (String × Value)) :
    textSize (.obj fs) ≤ textSize (.obj (fs ++ gs)) := by
  have hf := textSize_obj_eq fs
  have hmembers : gs.length ≤ (gs.map fun f => memberSize f.1 f.2).sum := by
    induction gs with
    | nil => exact Nat.zero_le _
    | cons g gs ih =>
      rw [List.length_cons, List.map_cons, List.sum_cons, memberSize]
      omega
  have hg := textSize_obj_eq (fs ++ gs)
  rw [List.map_append, List.sum_append, List.length_append] at hg
  omega

end Value
end Js
