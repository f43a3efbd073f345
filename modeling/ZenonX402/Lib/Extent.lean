/-
# The measure of what a codec writes

The texts a codec takes are of one shape and so of bounded length, hence what it
writes measures at most a fixed amount, which is found from its fields
(`Fields.Bounded`) like the codec itself. Lists are bounded where their length is.
Where the strings hold no character that JSON escapes, the bytes of a text are
counted exactly, part by part (`textSize`). A text that is written inside another one
is at most twice as long there (`textSize_nested`).

Key definitions: `Codec.Bounded`, `Fields.Bounded`, `Value.textSize`.
Key theorems: `Codec.bounded_object`, `Fields.bounded_cons`, `Codec.within_list`,
`Text.size_headTail`, `Value.textSize_arr_le`, `Value.textSize_nested`, `Value.textSize_written_le`.
-/
import ZenonX402.Lib.Measure
import ZenonX402.Lib.Record
import ZenonX402.Lib.Text

namespace Js

open Value (Within FieldsWithin leaf stringLeaf keyEntry indexEntry)

/-! ### Texts -/

namespace Text

/-- An ASCII character. -/
def isAscii (c : Char) : Bool := c ≤ '\x7f'

theorem size_of_ascii {s : String} (h : ∀ c ∈ s.toList, isAscii c = true) :
    s.utf8ByteSize = s.toList.length := by
  rw [← String.utf8Len_toList]
  refine Value.utf8Len_ascii fun c hc => Char.utf8Size_eq_one_iff.mpr ?_
  exact UInt32.le_trans (of_decide_eq_true (h c hc)) (by decide)

theorem isAscii_of_le {c d : Char} (hd : d ≤ '\x7f') (h : c ≤ d) : isAscii c = true :=
  decide_eq_true (le_trans h hd)

theorem isAscii_isDigit {c : Char} (h : isDigit c = true) : isAscii c = true := by
  simp only [isDigit, Bool.and_eq_true, decide_eq_true_eq] at h
  exact isAscii_of_le (by decide) h.2

theorem isAscii_isHexLower {c : Char} (h : isHexLower c = true) : isAscii c = true := by
  simp only [isHexLower, Bool.or_eq_true, Bool.and_eq_true, decide_eq_true_eq] at h
  rcases h with h | h
  · exact isAscii_isDigit h
  · exact isAscii_of_le (by decide) h.2

theorem isAscii_isAlnum {c : Char} (h : isAlnum c = true) : isAscii c = true := by
  simp only [isAlnum, isUpper, isLower, Bool.or_eq_true, Bool.and_eq_true, decide_eq_true_eq] at h
  rcases h with (h | h) | h
  · exact isAscii_of_le (by decide) h.2
  · exact isAscii_of_le (by decide) h.2
  · exact isAscii_isDigit h

theorem isAscii_oneOf {s : String} {c : Char} (hs : s.toList.all isAscii = true)
    (h : oneOf s c = true) :
    isAscii c = true :=
  List.all_eq_true.mp hs c (List.contains_iff_mem.mp h)

theorem size_headTail {first rest : Char → Bool} {max : Nat} {s : String}
    (h : headTail first rest max s = true) (hfirst : ∀ c, first c = true → isAscii c = true)
    (hrest : ∀ c, rest c = true → isAscii c = true) :
    s.utf8ByteSize ≤ max + 1 := by
  unfold headTail at h
  cases hs : s.toList with
  | nil => rw [hs] at h; cases h
  | cons c cs =>
    rw [hs] at h
    simp only [Bool.and_eq_true, decide_eq_true_eq, List.all_eq_true] at h
    obtain ⟨⟨hc, hcs⟩, hlen⟩ := h
    rw [size_of_ascii, hs, List.length_cons]
    · omega
    · rw [hs]
      intro d hd
      rcases List.mem_cons.mp hd with rfl | hd
      · exact hfirst d hc
      · exact hrest d (hcs d hd)

theorem size_prefixed {pre : String} {cls : Char → Bool} {count : Nat} {s : String}
    (h : prefixed pre cls count s = true) (hpre : pre.toList.all isAscii = true)
    (hcls : ∀ c, cls c = true → isAscii c = true) :
    s.utf8ByteSize = pre.toList.length + count := by
  unfold prefixed at h
  simp only [Bool.and_eq_true, decide_eq_true_eq, List.all_eq_true, List.isPrefixOf_iff_prefix] at h
  obtain ⟨⟨⟨t, ht⟩, hall⟩, hlen⟩ := h
  rw [← ht, List.drop_left] at hall hlen
  rw [size_of_ascii, ← ht, List.length_append, hlen]
  rw [← ht]
  intro c hc
  rcases List.mem_append.mp hc with hc | hc
  · exact List.all_eq_true.mp hpre c hc
  · exact hcls c (hall c hc)

theorem size_isHash {s : String} (h : isHash s = true) : s.utf8ByteSize = 64 := by
  obtain ⟨hall, hlen⟩ := isHash_iff.mp h
  rw [size_of_ascii fun c hc => isAscii_isHexLower (hall c hc), hlen]

theorem size_isPositiveDecimal {s : String} (h : isPositiveDecimal s = true) :
    s.utf8ByteSize = s.length := by
  refine (size_of_ascii fun c hc => ?_).trans String.length_toList
  unfold isPositiveDecimal at h
  cases hs : s.toList with
  | nil => rw [hs] at h; cases h
  | cons d ds =>
    rw [hs] at h hc
    simp only [Bool.and_eq_true, List.all_eq_true] at h
    rcases List.mem_cons.mp hc with rfl | hc
    · exact isAscii_isDigit h.1.1
    · exact isAscii_isDigit (h.2 c hc)

/-- A character that a JSON text holds as it is, in one byte. -/
def isPlain (c : Char) : Bool := isAscii c && decide (' ' ≤ c) && c != '\x22' && c != '\\'

theorem isPlain_isAlnum {c : Char} (h : isAlnum c = true) : isPlain c = true := by
  have hascii := isAscii_isAlnum h
  have hlow : '0' ≤ c := by
    simp only [isAlnum, isUpper, isLower, isDigit, Bool.or_eq_true, Bool.and_eq_true,
      decide_eq_true_eq] at h
    rcases h with (h | h) | h
    · exact le_trans (by decide) h.1
    · exact le_trans (by decide) h.1
    · exact h.1
  have hspace : ' ' ≤ c := le_trans (by decide) hlow
  have hquote : c ≠ '\x22' := fun he => absurd (he ▸ hlow) (by decide)
  have hslash : c ≠ '\\' := by
    rintro rfl
    revert h
    decide
  simp [isPlain, hascii, hspace, hquote, hslash]

theorem isPlain_isDigit {c : Char} (h : isDigit c = true) : isPlain c = true :=
  isPlain_isAlnum (by simp [isAlnum, h])

theorem isPlain_isHexLower {c : Char} (h : isHexLower c = true) : isPlain c = true := by
  refine isPlain_isAlnum ?_
  simp only [isHexLower, Bool.or_eq_true, Bool.and_eq_true, decide_eq_true_eq] at h
  rcases h with h | h
  · simp [isAlnum, h]
  · have hz : c ≤ 'z' := le_trans h.2 (by decide)
    simp [isAlnum, isLower, h.1, hz]

theorem isPlain_oneOf {s : String} {c : Char} (hs : s.toList.all isPlain = true)
    (h : oneOf s c = true) :
    isPlain c = true :=
  List.all_eq_true.mp hs c (List.contains_iff_mem.mp h)

/-- Every character of a text of the shape is in one of its classes. -/
theorem all_headTail {P first rest : Char → Bool} {max : Nat} {s : String}
    (h : headTail first rest max s = true) (hfirst : ∀ c, first c = true → P c = true)
    (hrest : ∀ c, rest c = true → P c = true) :
    ∀ c ∈ s.toList, P c = true := by
  unfold headTail at h
  cases hs : s.toList with
  | nil => exact fun c hc => absurd hc List.not_mem_nil
  | cons c cs =>
    rw [hs] at h
    simp only [Bool.and_eq_true, List.all_eq_true] at h
    exact List.forall_mem_cons.mpr ⟨hfirst c h.1.1, fun d hd => hrest d (h.1.2 d hd)⟩

theorem all_prefixed {P cls : Char → Bool} {pre : String} {count : Nat} {s : String}
    (h : prefixed pre cls count s = true) (hpre : pre.toList.all P = true)
    (hcls : ∀ c, cls c = true → P c = true) : ∀ c ∈ s.toList, P c = true := by
  unfold prefixed at h
  simp only [Bool.and_eq_true, List.all_eq_true, List.isPrefixOf_iff_prefix] at h
  obtain ⟨⟨⟨t, ht⟩, hall⟩, -⟩ := h
  rw [← ht, List.drop_left] at hall
  intro c hc
  rw [← ht] at hc
  rcases List.mem_append.mp hc with hc | hc
  · exact List.all_eq_true.mp hpre c hc
  · exact hcls c (hall c hc)

theorem isAscii_of_plain {c : Char} (h : isPlain c = true) : isAscii c = true := by
  simp only [isPlain, Bool.and_eq_true] at h
  exact h.1.1.1

theorem escape_of_plain {c : Char} (h : isPlain c = true) : Json.escape c = [c] := by
  simp only [isPlain, Bool.and_eq_true, bne_iff_ne, decide_eq_true_eq] at h
  obtain ⟨⟨⟨_, hspace⟩, hquote⟩, hslash⟩ := h
  have hlow : ¬ c.toNat < 32 := by
    have hle : (' ').toNat ≤ c.toNat := UInt32.le_iff_toNat_le.mp hspace
    have hspace' : (' ').toNat = 32 := by decide
    omega
  have hcontrol {d : Char} (hd : d.toNat < 32) : c ≠ d := fun he => hlow (he ▸ hd)
  unfold Json.escape
  rw [if_neg hquote, if_neg hslash, if_neg (hcontrol (by decide)), if_neg (hcontrol (by decide)),
    if_neg (hcontrol (by decide)), if_neg (hcontrol (by decide)),
    if_neg (hcontrol (by decide)), if_neg hlow]

/-- A character that is not a control of the first kind. -/
def isPrintable (c : Char) : Bool := decide (' ' ≤ c)

theorem toNat_of_printable {c : Char} (h : isPrintable c = true) : 32 ≤ c.toNat := by
  have hle : (' ').toNat ≤ c.toNat := UInt32.le_iff_toNat_le.mp (of_decide_eq_true h)
  have hspace : (' ').toNat = 32 := by decide
  omega

theorem printable_of_toNat {c : Char} (h : 32 ≤ c.toNat) : isPrintable c = true := by
  refine decide_eq_true (UInt32.le_iff_toNat_le.mpr ?_)
  have hspace : (' ').val.toNat = 32 := by decide
  rw [hspace]
  exact h

end Text

/-! ### Bytes of a text -/

namespace Value

open String (utf8Len)

/-- The bytes of the text of a value. -/
def textSize (v : Value) : Nat := utf8Len (Json.write v)

theorem size_stringify (v : Value) : (stringify v).utf8ByteSize = textSize v := by
  rw [stringify, String.utf8ByteSize_ofList]
  rfl

/-- The text of JSON data is as long as its measure allows, at most. -/
theorem size_stringify_le {v : Value} {n : Nat} (hv : v.Json)
    (h : textBytes (tally (fun _ => false) v) ≤ n) :
    (stringify v).utf8ByteSize ≤ n := by
  rw [size_stringify]
  exact (utf8Len_write hv).trans h

theorem write_ne_nil (v : Value) : Json.write v ≠ [] := by
  cases v with
  | bool b => cases b <;> simp [Json.write]
  | num n =>
    rw [Json.write, Json.writeInt]
    split
    · simp
    · exact Nat.toDigits_ne_nil
  | str s => simp [Json.write, Json.writeString]
  | arr xs => cases xs <;> simp [Json.write]
  | obj fs => rcases fs with _ | ⟨⟨k, v⟩, fs⟩ <;> simp [Json.write]
  | _ => simp [Json.write]

theorem one_le_textSize (v : Value) : 1 ≤ textSize v := by
  obtain ⟨c, cs, h⟩ := List.exists_cons_of_ne_nil (write_ne_nil v)
  have hc := c.utf8Size_pos
  rw [textSize, h, String.utf8Len_cons]
  omega

/-- A string of plain characters has two quotes more. -/
theorem textSize_plain {s : String} (h : ∀ c ∈ s.toList, Text.isPlain c = true) :
    textSize (.str s) = s.utf8ByteSize + 2 := by
  have hflat : s.toList.flatMap Json.escape = s.toList := by
    have hall : ∀ cs : List Char, (∀ c ∈ cs, Text.isPlain c = true) →
        cs.flatMap Json.escape = cs := by
      intro cs
      induction cs with
      | nil => exact fun _ => rfl
      | cons c cs ih =>
        intro hcs
        rw [List.flatMap_cons, Text.escape_of_plain (hcs c List.mem_cons_self),
          ih fun d hd => hcs d (List.mem_cons_of_mem _ hd)]
        rfl
    exact hall s.toList h
  have hquote : ('\x22').utf8Size = 1 := by decide
  simp only [textSize, Json.write, Json.writeString, hflat, String.utf8Len_cons,
    String.utf8Len_append, String.utf8Len_nil, String.utf8Len_toList, hquote]

theorem textSize_headTail {first rest : Char → Bool} {max : Nat} {s : String}
    (h : Text.headTail first rest max s = true)
    (hfirst : ∀ c, first c = true → Text.isPlain c = true)
    (hrest : ∀ c, rest c = true → Text.isPlain c = true) : textSize (.str s) ≤ max + 3 := by
  have hsize := Text.size_headTail h (fun c hc => Text.isAscii_of_plain (hfirst c hc))
    fun c hc => Text.isAscii_of_plain (hrest c hc)
  rw [textSize_plain (Text.all_headTail h hfirst hrest)]
  omega

theorem textSize_prefixed {pre : String} {cls : Char → Bool} {count : Nat} {s : String}
    (h : Text.prefixed pre cls count s = true) (hpre : pre.toList.all Text.isPlain = true)
    (hcls : ∀ c, cls c = true → Text.isPlain c = true) :
    textSize (.str s) = pre.toList.length + count + 2 := by
  have hascii : pre.toList.all Text.isAscii = true :=
    List.all_eq_true.mpr fun c hc => Text.isAscii_of_plain (List.all_eq_true.mp hpre c hc)
  rw [textSize_plain (Text.all_prefixed h hpre hcls),
    Text.size_prefixed h hascii fun c hc => Text.isAscii_of_plain (hcls c hc)]

theorem textSize_num_le {n : Int} (h : n.natAbs ≤ 9007199254740991) : textSize (.num n) ≤ 17 :=
  utf8Len_writeInt h

theorem utf8Len_writeElements_le {b : Nat} : ∀ {xs : List Value}, (∀ x ∈ xs, textSize x ≤ b) →
    utf8Len (Json.writeElements xs) ≤ xs.length * (b + 1) + 1
  | [], _ => by
    have hpunctuation := utf8Size_punctuation
    simp only [Json.writeElements, String.utf8Len_cons, String.utf8Len_nil]
    omega
  | x :: xs, h => by
    have hpunctuation := utf8Size_punctuation
    have hx : utf8Len (Json.write x) ≤ b := h x List.mem_cons_self
    have hxs := utf8Len_writeElements_le fun y hy => h y (List.mem_cons_of_mem _ hy)
    have hsucc : (xs.length + 1) * (b + 1) = xs.length * (b + 1) + (b + 1) := Nat.succ_mul ..
    rw [Json.writeElements, String.utf8Len_cons, String.utf8Len_append, List.length_cons]
    omega

/-- The elements of an array, each with a comma, between brackets. -/
theorem textSize_arr_le {xs : List Value} {b n : Nat} (h : ∀ x ∈ xs, textSize x ≤ b)
    (hn : xs.length ≤ n) :
    textSize (.arr xs) ≤ n * (b + 1) + 2 := by
  have hmul : xs.length * (b + 1) ≤ n * (b + 1) := Nat.mul_le_mul_right _ hn
  have hpunctuation := utf8Size_punctuation
  cases xs with
  | nil =>
    simp only [textSize, Json.write, String.utf8Len_cons, String.utf8Len_nil]
    omega
  | cons x xs =>
    have hx : utf8Len (Json.write x) ≤ b := h x List.mem_cons_self
    have hxs := utf8Len_writeElements_le fun y hy => h y (List.mem_cons_of_mem _ hy)
    have hsucc : (xs.length + 1) * (b + 1) = xs.length * (b + 1) + (b + 1) := Nat.succ_mul ..
    rw [List.length_cons] at hmul
    rw [textSize, Json.write, String.utf8Len_cons, String.utf8Len_append]
    omega

/-! ### Texts inside texts -/

section

open Text (isPrintable)

theorem printable_escape (c : Char) : ∀ d ∈ Json.escape c, isPrintable d = true := by
  have hhex (n : Nat) : isPrintable (Json.hexDigit n) = true := by
    have hall : ∀ m < 16, isPrintable (Nat.digitChar m) = true := by decide
    exact hall _ (Nat.mod_lt _ (by decide))
  have hmarks : isPrintable '\\' = true ∧ isPrintable '\x22' = true ∧ isPrintable 'b' = true
      ∧ isPrintable 'f' = true
      ∧ isPrintable 'n' = true ∧ isPrintable 'r' = true ∧ isPrintable 't' = true
      ∧ isPrintable 'u' = true
      ∧ isPrintable '0' = true := by decide
  unfold Json.escape
  repeat' split
  all_goals intro d hd
  all_goals simp only [List.mem_cons, List.not_mem_nil, or_false] at hd
  · rcases hd with rfl | rfl <;> simp [hmarks]
  · rcases hd with rfl | rfl <;> simp [hmarks]
  · rcases hd with rfl | rfl <;> simp [hmarks]
  · rcases hd with rfl | rfl <;> simp [hmarks]
  · rcases hd with rfl | rfl <;> simp [hmarks]
  · rcases hd with rfl | rfl <;> simp [hmarks]
  · rcases hd with rfl | rfl <;> simp [hmarks]
  · rcases hd with rfl | rfl | rfl | rfl | rfl | rfl <;> simp [hmarks, hhex]
  · rename_i hlow
    rw [hd]
    exact Text.printable_of_toNat (by omega)

theorem printable_writeString (s : String) : (Json.writeString s).all isPrintable = true := by
  have hquote : isPrintable '\x22' = true := by decide
  rw [Json.writeString, List.all_cons, List.all_append, List.all_flatMap]
  simp only [hquote, Bool.true_and, Bool.and_eq_true, List.all_eq_true, List.all_cons, List.all_nil]
  exact ⟨fun c _ d hd => printable_escape c d hd, trivial⟩

theorem printable_writeInt (n : Int) : (Json.writeInt n).all isPrintable = true := by
  have hdigits : (Nat.toDigits 10 n.natAbs).all isPrintable = true := by
    refine List.all_eq_true.mpr fun c hc => decide_eq_true ?_
    have hdigit := Json.isDigit_toDigits hc
    unfold Json.isDigit at hdigit
    exact le_trans (by decide) (of_decide_eq_true (Bool.and_eq_true_iff.mp hdigit).1 : '0' ≤ c)
  unfold Json.writeInt
  split
  · rw [List.all_cons, hdigits]
    decide
  · exact hdigits

mutual

theorem printable_write : ∀ v : Value, (Json.write v).all isPrintable = true
  | .null | .undefined | .fractional | .host => by decide
  | .bool true => by decide
  | .bool false => by decide
  | .num n => printable_writeInt n
  | .negZero => by decide
  | .str s => printable_writeString s
  | .arr [] => by decide
  | .arr (v :: vs) => by
    rw [Json.write, List.all_cons, List.all_append, printable_write v, printable_writeElements vs]
    decide
  | .obj [] => by decide
  | .obj ((k, v) :: fs) => by
    rw [Json.write, List.all_cons, List.all_append, List.all_cons, List.all_append,
      printable_writeString k, printable_write v, printable_writeMembers fs]
    decide

theorem printable_writeElements : ∀ vs : List Value, (Json.writeElements vs).all isPrintable = true
  | [] => by decide
  | v :: vs => by
    rw [Json.writeElements, List.all_cons, List.all_append, printable_write v,
      printable_writeElements vs]
    decide

theorem printable_writeMembers :
    ∀ fs : List (String × Value), (Json.writeMembers fs).all isPrintable = true
  | [] => by decide
  | (k, v) :: fs => by
    rw [Json.writeMembers, List.all_cons, List.all_append, List.all_cons, List.all_append,
      printable_writeString k, printable_write v, printable_writeMembers fs]
    decide

end

/-- Of a printable text only the quotes and backslashes are escaped. -/
theorem utf8Len_escape_printable : ∀ {cs : List Char}, cs.all isPrintable = true →
    utf8Len (cs.flatMap Json.escape) ≤ 2 * utf8Len cs
  | [], _ => le_rfl
  | c :: cs, h => by
    rw [List.all_cons, Bool.and_eq_true] at h
    have hlow := Text.toNat_of_printable h.1
    have hpos := c.utf8Size_pos
    have hrest := utf8Len_escape_printable h.2
    have hmarks : ('\\').utf8Size = 1 ∧ ('\x22').utf8Size = 1 := by decide
    have hcontrol {d : Char} (hd : d.toNat < 32) : c ≠ d := fun he => by
      rw [he] at hlow
      omega
    have hc : utf8Len (Json.escape c) ≤ 2 * c.utf8Size := by
      unfold Json.escape
      split
      · simp only [String.utf8Len_cons, String.utf8Len_nil]
        omega
      · split
        · simp only [String.utf8Len_cons, String.utf8Len_nil]
          omega
        · rw [if_neg (hcontrol (by decide)), if_neg (hcontrol (by decide)),
            if_neg (hcontrol (by decide)), if_neg (hcontrol (by decide)),
            if_neg (hcontrol (by decide)), if_neg (show ¬ c.toNat < 32 by omega)]
          simp only [String.utf8Len_cons, String.utf8Len_nil]
          omega
    rw [List.flatMap_cons, String.utf8Len_append, String.utf8Len_cons]
    omega

/-- A text inside another one is at most twice as long, with two quotes. -/
theorem textSize_nested (v : Value) :
    textSize (.str (stringify v)) ≤ 2 * (stringify v).utf8ByteSize + 2 := by
  have hquote : ('\x22').utf8Size = 1 := by decide
  have hflat := utf8Len_escape_printable (printable_write v)
  have hsize : (stringify v).utf8ByteSize = utf8Len (Json.write v) := size_stringify v
  have hlist : (stringify v).toList = Json.write v := by rw [stringify, String.toList_ofList]
  simp only [textSize, Json.write, Json.writeString, hlist, String.utf8Len_cons,
    String.utf8Len_append, String.utf8Len_nil, hquote]
  omega

end

/-! ### Members -/

/-- A key, a colon, a value and a comma. -/
def memberSize (key : String) (v : Value) : Nat := textSize (.str key) + textSize v + 2

theorem utf8Len_writeMembers_eq : ∀ fs : List (String × Value),
    utf8Len (Json.writeMembers fs) = (fs.map fun f => memberSize f.1 f.2).sum + 1
  | [] => rfl
  | (k, v) :: fs => by
    have hpunctuation := utf8Size_punctuation
    rw [Json.writeMembers, String.utf8Len_cons, String.utf8Len_append, String.utf8Len_cons,
      String.utf8Len_append, utf8Len_writeMembers_eq fs, List.map_cons, List.sum_cons]
    simp only [memberSize, textSize, Json.write]
    omega

theorem textSize_obj_le (fs : List (String × Value)) :
    textSize (.obj fs) ≤ (fs.map fun f => memberSize f.1 f.2).sum + 2 := by
  have hpunctuation := utf8Size_punctuation
  rcases fs with _ | ⟨⟨k, v⟩, fs⟩
  · simp only [textSize, Json.write, String.utf8Len_cons, String.utf8Len_nil]
    omega
  · rw [textSize, Json.write, String.utf8Len_cons, String.utf8Len_append, String.utf8Len_cons,
      String.utf8Len_append, utf8Len_writeMembers_eq fs, List.map_cons, List.sum_cons]
    simp only [memberSize, textSize, Json.write]
    omega

theorem textSize_obj_eq (fs : List (String × Value)) :
    textSize (.obj fs) + min 1 fs.length = (fs.map fun f => memberSize f.1 f.2).sum + 2 := by
  have hpunctuation := utf8Size_punctuation
  rcases fs with _ | ⟨⟨k, v⟩, fs⟩
  · simp only [textSize, Json.write, String.utf8Len_cons, String.utf8Len_nil, List.map_nil,
      List.sum_nil, List.length_nil]
    omega
  · rw [textSize, Json.write, String.utf8Len_cons, String.utf8Len_append, String.utf8Len_cons,
      String.utf8Len_append, utf8Len_writeMembers_eq fs, List.map_cons, List.sum_cons,
      List.length_cons]
    simp only [memberSize, textSize, Json.write]
    omega

theorem textSize_obj_perm {fs gs : List (String × Value)} (h : fs.Perm gs) :
    textSize (.obj fs) = textSize (.obj gs) := by
  have hf := textSize_obj_eq fs
  have hg := textSize_obj_eq gs
  have hsum := (h.map fun f => memberSize f.1 f.2).sum_nat
  have hlength := h.length_eq
  omega

mutual

/-- A value in canonical order has as long a text. -/
theorem textSize_canonical : ∀ v : Value, textSize v.canonical = textSize v
  | .undefined | .null | .bool _ | .num _ | .fractional | .str _ | .host => rfl
  | .negZero => by decide
  | .arr [] => rfl
  | .arr (x :: xs) => by
    have hx : utf8Len (Json.write x.canonical) = utf8Len (Json.write x) := textSize_canonical x
    simp only [canonical, canonicalList, textSize, Json.write, String.utf8Len_cons,
      String.utf8Len_append, hx, size_canonicalList xs]
  | .obj fs => by
    have hperm := perm_sortFields (canonicalFields fs)
    have hsum := size_canonicalFields fs
    have hc := textSize_obj_eq (canonicalFields fs)
    have ho := textSize_obj_eq fs
    have hlength : (canonicalFields fs).length = fs.length := by
      rw [canonicalFields_eq_map, List.length_map]
    rw [canonical, textSize_obj_perm hperm]
    omega

theorem size_canonicalList : ∀ xs : List Value,
    utf8Len (Json.writeElements (canonicalList xs)) = utf8Len (Json.writeElements xs)
  | [] => rfl
  | x :: xs => by
    have hx : utf8Len (Json.write x.canonical) = utf8Len (Json.write x) := textSize_canonical x
    simp only [canonicalList, Json.writeElements, String.utf8Len_cons, String.utf8Len_append, hx,
      size_canonicalList xs]

theorem size_canonicalFields : ∀ fs : List (String × Value),
    ((canonicalFields fs).map fun f => memberSize f.1 f.2).sum
      = (fs.map fun f => memberSize f.1 f.2).sum
  | [] => rfl
  | (k, v) :: fs => by
    have hv : memberSize k v.canonical = memberSize k v := by
      rw [memberSize, memberSize, textSize_canonical v]
    rw [canonicalFields, List.map_cons, List.map_cons, List.sum_cons, List.sum_cons,
      size_canonicalFields fs, hv]

end

/-- The same data has a text of the same size. -/
theorem Same.textSize {v w : Value} (h : Same v w) : v.textSize = w.textSize := by
  rw [← textSize_canonical v, ← textSize_canonical w]
  exact congrArg Value.textSize h

/-- The order of the keys does not change the size. -/
theorem textSize_written_le {names : List String} (order : Order names) (field : String → Value) :
    textSize (written order field) ≤ (names.map fun k => memberSize k (field k)).sum + 2 := by
  have hsize := textSize_obj_le (order.1.map fun k => (k, field k))
  rw [List.map_map] at hsize
  have hsum := (order.2.map fun k => memberSize k (field k)).sum_nat
  rw [← hsum]
  exact hsize

end Value

/-! ### Codecs -/

variable {ε α β : Type} {refused : String → Bool} {m m' : Measure}

/-- What the codec writes measures at most `m`. -/
def Codec.Bounded (refused : String → Bool) (c : Codec ε α) (m : Measure) : Prop :=
  ∀ a, Within refused (c.encode a) m

/-- At most `n` fields are written, which measure at most `m`. -/
structure Fields.Bounded (refused : String → Bool) (fs : Fields ε α) (n : Nat) (m : Measure) :
    Prop where
  within : ∀ a, FieldsWithin refused (fs.write a) m
  count : ∀ a, (fs.write a).length ≤ n

namespace Codec

theorem Bounded.mono {c : Codec ε α} (h : c.Bounded refused m) (hle : m.Le m') :
    c.Bounded refused m' :=
  fun a => (h a).mono hle

theorem bounded_constStr (s : String) (e : ε) :
    (constStr s e).Bounded refused (stringLeaf s.utf8ByteSize) :=
  fun _ => Value.within_str le_rfl

theorem bounded_constNum (n : Nat) (e : ε) (hn : decide (0 < n ∧ n ≤ 9007199254740991) = true) :
    (constNum n e hn).Bounded refused leaf := fun _ => Value.within_num n

theorem bounded_text {p : String → Bool} {e : ε} {n : Nat}
    (h : ∀ s, p s = true → s.utf8ByteSize ≤ n) :
    (text p e).Bounded refused (stringLeaf n) := fun s => Value.within_str (h s.1 s.2)

theorem bounded_integer (p : Int → Bool) (e : ε) : (integer p e).Bounded refused leaf :=
  fun n => Value.within_num n.1

theorem bounded_enum {all : List α} {name : α → String} {e : ε} {complete : ∀ a, a ∈ all}
    {inj : ∀ a b, name a = name b → a = b} {n : Nat} (h : ∀ a ∈ all, (name a).utf8ByteSize ≤ n) :
    (enum all name e complete inj).Bounded refused (stringLeaf n) :=
  fun a => Value.within_str (h a (complete a))

theorem bounded_nullable {c : Codec ε α} {hnull : ∀ a, c.decode .null ≠ .ok a}
    (h : c.Bounded refused m) (hleaf : leaf.Le m) : (c.nullable hnull).Bounded refused m := by
  intro o
  cases o with
  | none => exact Value.within_null.mono hleaf
  | some a => exact h a

theorem bounded_refine {c : Codec ε α} (h : c.Bounded refused m) (p : α → Bool) (e : ε) :
    (c.refine p e).Bounded refused m := fun a => h a.1

theorem bounded_equiv {c : Codec ε α} (h : c.Bounded refused m) (f : α ≃ β) :
    (c.equiv f).Bounded refused m :=
  fun b => h (f.symm b)

/-- A list of bounded length. -/
theorem within_list {c : Codec ε α} (h : c.Bounded refused m) {e : ε} {as : List α} {n : Nat}
    (hlen : as.length ≤ n) (hn : n ≤ 10000) :
    Within refused ((list c e).encode as) ((((indexEntry 4).combine m).times n).inside n) := by
  refine Value.within_arr (fun x hx => ?_) ?_ hn
  · obtain ⟨a, _, rfl⟩ := List.mem_map.mp hx
    exact h a
  · rwa [List.length_map]

theorem bounded_object {fs : Fields ε α} {n : Nat} (h : fs.Bounded refused n m) (e : ε)
    (hn : fs.names.Nodup) :
    (object fs e hn).Bounded refused (m.inside n) :=
  fun a => Measure.Le.inside (h.within a) (h.count a)

end Codec

namespace Fields

theorem bounded_nil : (nil : Fields ε Unit).Bounded refused 0 Measure.none :=
  ⟨fun _ => Value.fields_nil, fun _ => le_rfl⟩

theorem bounded_cons {name : String} {c : Codec ε α} {rest : Fields ε β} {n : Nat}
    (hc : c.Bounded refused m) (hrest : rest.Bounded refused n m') :
    (cons name c rest).Bounded refused (n + 1)
    (((keyEntry name.utf8ByteSize (refused name)).combine m).combine m') :=
  ⟨fun ab => Value.fields_cons (hc ab.1) (hrest.within ab.2),
    fun ab => Nat.succ_le_succ (hrest.count ab.2)⟩

theorem bounded_const {name : String} {c : Codec ε Unit} {rest : Fields ε β} {n : Nat}
    (hc : c.Bounded refused m) (hrest : rest.Bounded refused n m') :
    (const name c rest).Bounded refused (n + 1)
    (((keyEntry name.utf8ByteSize (refused name)).combine m).combine m') :=
  ⟨fun b => (bounded_cons hc hrest).within ((), b), fun b => (bounded_cons hc hrest).count ((), b)⟩

end Fields
end Js
