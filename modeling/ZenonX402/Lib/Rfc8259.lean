/-
# The grammar of JSON, over code units

RFC 8259 as a relation between a tree and its text, where a text is a sequence of UTF-16 code
units. The tree keeps the spelling of each number and the units of each string with its escapes
undone; surrogates stand in pairs, written out or escaped.

An object or an array is read in two steps. `Layout` cuts the text after its opening bracket into
the keys and the texts of its members, and each text is one of a tree again (`Reads`). A text
has one tree at most (`parses_unique`), and it ends where its tree does, if what follows could
follow a value (`reads_append_inj`).

Key definitions: `Sized`, `Piece`, `Spelled`, `IsNumber`, `Tree`, `Layout`, `Reads`, `Parses`,
`Tree.count`, `Tree.height`, `Tree.All`.
Key theorems: `sized_append`, `spelled_append_inj`, `plain_append_inj`, `reads_append_inj`,
`parses_unique`.
-/
import ZenonX402.Lib.Units

namespace Rfc8259

/-! ### Code units -/

def isWhitespace (c : UInt16) : Bool := c = 32 || c = 9 || c = 10 || c = 13

/-- What may follow a value, other than the end of the text. -/
def isDelimiter (c : UInt16) : Bool := isWhitespace c || c = 44 || c = 93 || c = 125

def isDigit (c : UInt16) : Bool := 48 ≤ c.toNat && c.toNat ≤ 57

/-- The first of two surrogates. -/
def isHigh (c : UInt16) : Bool := 0xd800 ≤ c.toNat && c.toNat ≤ 0xdbff

/-- The second of two surrogates. -/
def isLow (c : UInt16) : Bool := 0xdc00 ≤ c.toNat && c.toNat ≤ 0xdfff

/-- The bytes of a unit that is no surrogate, in UTF-8. -/
def width (c : UInt16) : Nat := if c.toNat < 0x80 then 1 else if c.toNat < 0x800 then 2 else 3

/-- A text whose surrogates are paired, and its bytes in UTF-8. -/
inductive Sized : CodeUnits → Nat → Prop
  | nil : Sized [] 0
  | one {c : UInt16} {s : CodeUnits} {n : Nat} : isHigh c = false → isLow c = false → Sized s n →
      Sized (c :: s) (width c + n)
  | pair {c d : UInt16} {s : CodeUnits} {n : Nat} : isHigh c = true → isLow d = true → Sized s n →
      Sized (c :: d :: s) (4 + n)

/-- Whitespace. -/
def Ws (w : CodeUnits) : Prop := ∀ c ∈ w, isWhitespace c = true

/-! ### Strings and numbers -/

def hexDigit (c : UInt16) : Option Nat :=
  if 48 ≤ c.toNat ∧ c.toNat ≤ 57 then some (c.toNat - 48)
  else if 65 ≤ c.toNat ∧ c.toNat ≤ 70 then some (c.toNat - 55)
  else if 97 ≤ c.toNat ∧ c.toNat ≤ 102 then some (c.toNat - 87)
  else none

/-- The unit that is written with four hexadecimal digits. -/
def Hex (a : CodeUnits) (c : UInt16) : Prop :=
  ∃ u v x y i j k l, a = [u, v, x, y] ∧ hexDigit u = some i ∧ hexDigit v = some j
  ∧ hexDigit x = some k ∧ hexDigit y = some l ∧ c = UInt16.ofNat (((i * 16 + j) * 16 + k) * 16 + l)

/-- The units that are escaped with one letter. -/
def escape (c : UInt16) : Option UInt16 :=
  if c = 34 then some 34
  else if c = 92 then some 92
  else if c = 47 then some 47
  else if c = 98 then some 8
  else if c = 102 then some 12
  else if c = 110 then some 10
  else if c = 114 then some 13
  else if c = 116 then some 9
  else none

/-- A character of a string, and how it is written. -/
inductive Piece : CodeUnits → CodeUnits → Prop
  | plain {c : UInt16} : 32 ≤ c.toNat → c ≠ 34 → c ≠ 92 → isHigh c = false →
      isLow c = false → Piece [c] [c]
  | pair {c d : UInt16} : isHigh c = true → isLow d = true → Piece [c, d] [c, d]
  | short {e c : UInt16} : escape e = some c → Piece [c] [92, e]
  | hex {a : CodeUnits} {c : UInt16} : Hex a c → isHigh c = false → isLow c = false → Piece [c]
      (92 :: 117 :: a)
  | hexPair {a b : CodeUnits} {c d : UInt16} :
      Hex a c → isHigh c = true → Hex b d → isLow d = true →
    Piece [c, d] (92 :: 117 :: (a ++ 92 :: 117 :: b))

/-- What a string holds, and how it is written between its quotes. -/
inductive Spelled : CodeUnits → CodeUnits → Prop
  | nil : Spelled [] []
  | cons {c a s b : CodeUnits} : Piece c a → Spelled s b → Spelled (c ++ s) (a ++ b)

/-- A string in its quotes. -/
def Quoted (s a : CodeUnits) : Prop := ∃ b, a = 34 :: (b ++ [34]) ∧ Spelled s b

def Digits (a : CodeUnits) : Prop := a ≠ [] ∧ ∀ c ∈ a, isDigit c = true

/-- Zero, or digits that do not begin with one. -/
def IsInt (a : CodeUnits) : Prop := a = [48] ∨ ∃ c ds, a = c :: ds ∧ (49 ≤ c.toNat ∧ c.toNat ≤ 57)
    ∧ ∀ d ∈ ds, isDigit d = true

def IsFrac (a : CodeUnits) : Prop := a = [] ∨ ∃ ds, a = 46 :: ds ∧ Digits ds

def IsExp (a : CodeUnits) : Prop := a = [] ∨ ∃ e sign ds, a = e :: (sign ++ ds) ∧ (e = 101 ∨ e = 69)
  ∧ (sign = [] ∨ sign = [43] ∨ sign = [45]) ∧ Digits ds

def IsNumber (a : CodeUnits) : Prop := ∃ sign int frac exp, a = sign ++ (int ++ (frac ++ exp))
    ∧ (sign = [] ∨ sign = [45])
  ∧ IsInt int ∧ IsFrac frac ∧ IsExp exp

/-! ### Trees -/

/-- What a text says: a string, a number as it is written, `true`, `false` or `null`, and the
members of an object, or of an array, whose keys are empty. -/
inductive Tree
  | text (s : CodeUnits)
  | number (token : CodeUnits)
  | literal (value : Option Bool)
  | container (object : Bool) (members : List (CodeUnits × Tree))

def literalUnits : Option Bool → CodeUnits
  | none => [110, 117, 108, 108]
  | some true => [116, 114, 117, 101]
  | some false => [102, 97, 108, 115, 101]

attribute [grind =] literalUnits

def opening (object : Bool) : UInt16 := if object then 123 else 91

def closing (object : Bool) : UInt16 := if object then 125 else 93

/-- What is written before a member: its key and a colon, or nothing. -/
def Key (object : Bool) (key a : CodeUnits) : Prop :=
  if object then ∃ q w, a = q ++ (w ++ [58]) ∧ Quoted key q ∧ Ws w else key = [] ∧ a = []

/-- The text of members from the first one to the closing bracket. -/
inductive Members (object : Bool) : List (CodeUnits × CodeUnits) → CodeUnits → Prop
  | last {key q s w w' w'' : CodeUnits} : Ws w → Key object key q → Ws w' → Ws w'' →
    Members object [(key, s)] (w ++ (q ++ (w' ++ (s ++ (w'' ++ [closing object])))))
  | cons {key q s w w' w'' b : CodeUnits} {ms : List (CodeUnits × CodeUnits)} :
      Ws w → Key object key q → Ws w' → Ws w'' →
    Members object ms b → Members object ((key, s) :: ms)
    (w ++ (q ++ (w' ++ (s ++ (w'' ++ 44 :: b)))))

/-- The text of a container after its opening bracket, with the keys and the texts of its members.
-/
def Layout (object : Bool) (ms : List (CodeUnits × CodeUnits)) (a : CodeUnits) : Prop :=
  (ms = [] ∧ ∃ w, Ws w ∧ a = w ++ [closing object]) ∨ Members object ms a

mutual
/-- A tree and its text. -/
def Reads : Tree → CodeUnits → Prop
  | .text s, a => Quoted s a
  | .number token, a => IsNumber token ∧ a = token
  | .literal value, a => a = literalUnits value
  | .container object ts, a => ∃ b ms, a = opening object :: b ∧ Layout object ms b ∧ Matches ts ms

/-- Members and their texts. -/
def Matches : List (CodeUnits × Tree) → List (CodeUnits × CodeUnits) → Prop
  | [], ms => ms = []
  | (key, t) :: ts, ms => ∃ s ms', ms = (key, s) :: ms' ∧ Reads t s ∧ Matches ts ms'
end

attribute [grind =] Reads Matches

/-- A JSON text and its tree. -/
def Parses (a : CodeUnits) (t : Tree) : Prop :=
  ∃ w s w', a = w ++ (s ++ w') ∧ Ws w ∧ Reads t s ∧ Ws w'

/-! ### Measures of a tree -/

namespace Tree

mutual
/-- The sum over a tree and the trees below it. -/
def count (f : Tree → Nat) : Tree → Nat
  | .text s => f (.text s)
  | .number token => f (.number token)
  | .literal value => f (.literal value)
  | .container object ts => f (.container object ts) + countMembers f ts

def countMembers (f : Tree → Nat) : List (CodeUnits × Tree) → Nat
  | [] => 0
  | (_, t) :: ts => t.count f + countMembers f ts
end

attribute [grind =] count countMembers

def values (t : Tree) : Nat := t.count fun _ => 1

def isContainer : Tree → Nat
  | .container _ _ => 1
  | _ => 0

def ownMembers : Tree → Nat
  | .container _ ts => ts.length
  | _ => 0

def containers (t : Tree) : Nat := t.count isContainer

def members (t : Tree) : Nat := t.count ownMembers

mutual
/-- How many containers are nested. -/
def height : Tree → Nat
  | .text _ => 0
  | .number _ => 0
  | .literal _ => 0
  | .container _ ts => heightMembers ts + 1

def heightMembers : List (CodeUnits × Tree) → Nat
  | [] => 0
  | (_, t) :: ts => max t.height (heightMembers ts)
end

attribute [grind =] height heightMembers

mutual
/-- What holds of a tree and of the trees below it. -/
def All (P : Tree → Prop) : Tree → Prop
  | .text s => P (.text s)
  | .number token => P (.number token)
  | .literal value => P (.literal value)
  | .container object ts => P (.container object ts) ∧ AllMembers P ts

def AllMembers (P : Tree → Prop) : List (CodeUnits × Tree) → Prop
  | [] => True
  | (_, t) :: ts => t.All P ∧ AllMembers P ts
end

attribute [grind =] All AllMembers

end Tree

/-! ### Where a part of a text ends -/

/-- A text that does not go on with such a unit. -/
def Stops (p : UInt16 → Bool) (a : CodeUnits) : Prop := ∀ c ∈ a.head?, p c = false

section

variable {p : UInt16 → Bool} {w w' x x' : CodeUnits}

theorem stops_cons {c : UInt16} (h : p c = false) : Stops p (c :: x) := by
  intro d hd
  rw [List.head?_cons, Option.mem_some_iff] at hd
  rwa [← hd]

theorem takeWhile_of_stops (h : Stops p x) : x.takeWhile p = [] := by
  rcases x with _ | ⟨c, x⟩
  · rfl
  · rw [List.takeWhile_cons, if_neg (by rw [h c rfl]; exact Bool.false_ne_true)]

theorem dropWhile_of_stops (h : Stops p x) : x.dropWhile p = x := by
  rcases x with _ | ⟨c, x⟩
  · rfl
  · rw [List.dropWhile_cons, if_neg (by rw [h c rfl]; exact Bool.false_ne_true)]

theorem takeWhile_append (hw : ∀ c ∈ w, p c = true) (hx : Stops p x) :
    (w ++ x).takeWhile p = w := by
  rw [List.takeWhile_append_of_pos hw, takeWhile_of_stops hx, List.append_nil]

theorem dropWhile_append (hw : ∀ c ∈ w, p c = true) (hx : Stops p x) :
    (w ++ x).dropWhile p = x := by
  rw [List.dropWhile_append_of_pos hw, dropWhile_of_stops hx]

theorem stops_dropWhile (p : UInt16 → Bool) (a : CodeUnits) : Stops p (a.dropWhile p) := by
  induction a with
  | nil => exact fun c hc => absurd hc (by simp)
  | cons c a ih =>
    rw [List.dropWhile_cons]
    split
    · exact ih
    next hc => exact stops_cons (by simpa using hc)

/-- A text is cut in one way where such units end. -/
theorem span_unique (hw : ∀ c ∈ w, p c = true) (hw' : ∀ c ∈ w', p c = true) (hx : Stops p x)
    (hx' : Stops p x') (h : w ++ x = w' ++ x') : w = w' ∧ x = x' := by
  have htake := congrArg (List.takeWhile p) h
  have hdrop := congrArg (List.dropWhile p) h
  rw [takeWhile_append hw hx, takeWhile_append hw' hx'] at htake
  rw [dropWhile_append hw hx, dropWhile_append hw' hx'] at hdrop
  exact ⟨htake, hdrop⟩

end

/-! ### Parts of a text -/

/-- The bytes of a text are those of its parts, where it is not cut between two surrogates. -/
theorem sized_append {a b : CodeUnits} {n : Nat} (hb : Stops isLow b) (h : Sized (a ++ b) n) :
    ∃ k l, Sized a k ∧ Sized b l ∧ n = k + l := by
  generalize hs : a ++ b = s at h
  induction h generalizing a with
  | nil =>
    obtain ⟨rfl, rfl⟩ := List.append_eq_nil_iff.mp hs
    exact ⟨0, 0, .nil, .nil, rfl⟩
  | @one c s n hhigh hlow htail ih =>
    rcases a with _ | ⟨d, a⟩
    · rw [List.nil_append] at hs
      exact ⟨0, _, .nil, hs ▸ .one hhigh hlow htail, (Nat.zero_add _).symm⟩
    · rw [List.cons_append, List.cons.injEq] at hs
      obtain ⟨rfl, hs⟩ := hs
      obtain ⟨k, l, hk, hl, rfl⟩ := ih hs
      exact ⟨_, l, .one hhigh hlow hk, hl, (Nat.add_assoc _ _ _).symm⟩
  | @pair c d s n hhigh hlow htail ih =>
    rcases a with _ | ⟨e, _ | ⟨f, a⟩⟩
    · rw [List.nil_append] at hs
      exact ⟨0, _, .nil, hs ▸ .pair hhigh hlow htail, (Nat.zero_add _).symm⟩
    · rw [List.cons_append, List.cons.injEq, List.nil_append] at hs
      have hnot := hb d (by rw [hs.2]; rfl)
      rw [hlow] at hnot
      cases hnot
    · rw [List.cons_append, List.cons_append, List.cons.injEq, List.cons.injEq] at hs
      obtain ⟨rfl, rfl, hs⟩ := hs
      obtain ⟨k, l, hk, hl, rfl⟩ := ih hs
      exact ⟨_, l, .pair hhigh hlow hk, hl, (Nat.add_assoc _ _ _).symm⟩

theorem sized_unique {s : CodeUnits} {n : Nat} (h : Sized s n) :
    ∀ {m : Nat}, Sized s m → n = m := by
  induction h with
  | nil =>
    intro m hm
    cases hm
    rfl
  | one hhigh _ _ ih =>
    intro m hm
    cases hm with
    | one _ _ hm => rw [ih hm]
    | pair hhigh' => exact absurd (hhigh.symm.trans hhigh') Bool.false_ne_true
  | pair hhigh _ _ ih =>
    intro m hm
    cases hm with
    | one hhigh' => exact absurd (hhigh'.symm.trans hhigh) Bool.false_ne_true
    | pair _ _ hm => rw [ih hm]

theorem Sized.append {a b : CodeUnits} {k l : Nat} (ha : Sized a k) (hb : Sized b l) :
    Sized (a ++ b) (k + l) := by
  induction ha with
  | nil => rwa [Nat.zero_add]
  | one hhigh hlow _ ih =>
    rw [Nat.add_assoc]
    exact .one hhigh hlow ih
  | pair hhigh hlow _ ih =>
    rw [Nat.add_assoc]
    exact .pair hhigh hlow ih

theorem hex_unique {a b x y : CodeUnits} {c d : UInt16} (ha : Hex a c) (hb : Hex b d)
    (h : a ++ x = b ++ y) :
    a = b ∧ c = d ∧ x = y := by
  obtain ⟨u, v, p, q, i, j, k, l, rfl, hu, hv, hp, hq, rfl⟩ := ha
  obtain ⟨u', v', p', q', i', j', k', l', rfl, hu', hv', hp', hq', rfl⟩ := hb
  simp only [List.cons_append, List.nil_append, List.cons.injEq] at h
  obtain ⟨rfl, rfl, rfl, rfl, rfl⟩ := h
  obtain rfl := Option.some.inj (hu.symm.trans hu')
  obtain rfl := Option.some.inj (hv.symm.trans hv')
  obtain rfl := Option.some.inj (hp.symm.trans hp')
  obtain rfl := Option.some.inj (hq.symm.trans hq')
  exact ⟨rfl, rfl, rfl⟩

theorem isHigh_escape : isHigh 92 = false := by
  decide

/-- How a character is written begins with a unit of its own, the first of two surrogates or an
escape. -/
theorem piece_head {c a : CodeUnits} (h : Piece c a) :
    ∃ u b, a = u :: b ∧ ((u ≠ 92 ∧ isHigh u = false ∧ u ≠ 34 ∧ c = [u] ∧ b = [])
    ∨ (isHigh u = true ∧ ∃ d, c = [u, d] ∧ b = [d]) ∨ u = 92) := by
  cases h with
  | plain _ hquote hescape hhigh _ => exact ⟨_, _, rfl, .inl ⟨hescape, hhigh, hquote, rfl, rfl⟩⟩
  | pair hhigh _ => exact ⟨_, _, rfl, .inr (.inl ⟨hhigh, _, rfl, rfl⟩)⟩
  | short => exact ⟨_, _, rfl, .inr (.inr rfl)⟩
  | hex => exact ⟨_, _, rfl, .inr (.inr rfl)⟩
  | hexPair => exact ⟨_, _, rfl, .inr (.inr rfl)⟩

/-- How a character is escaped is told from what follows it. -/
theorem escaped_append_inj {c c' a a' x x' : CodeUnits} (h : Piece c (92 :: a))
    (h' : Piece c' (92 :: a')) (heq : a ++ x = a' ++ x') :
    c = c' ∧ a = a' ∧ x = x' := by
  have hletter : escape 117 = none := by decide
  have hnone {e : UInt16} {d : UInt16} (he : escape e = some d) : e ≠ 117 := fun h => by
    rw [h, hletter] at he
    cases he
  cases h with
  | plain _ _ hescape => exact absurd rfl hescape
  | pair hhigh => exact absurd (isHigh_escape.symm.trans hhigh) Bool.false_ne_true
  | short he =>
    cases h' with
    | plain _ _ hescape => exact absurd rfl hescape
    | pair hhigh => exact absurd (isHigh_escape.symm.trans hhigh) Bool.false_ne_true
    | short he' =>
      simp only [List.cons_append, List.nil_append, List.cons.injEq] at heq
      obtain ⟨rfl, hx⟩ := heq
      obtain rfl := Option.some.inj (he.symm.trans he')
      exact ⟨rfl, rfl, hx⟩
    | hex => exact absurd (List.cons.inj heq).1 (hnone he)
    | hexPair => exact absurd (List.cons.inj heq).1 (hnone he)
  | hex ha hhigh =>
    cases h' with
    | plain _ _ hescape => exact absurd rfl hescape
    | pair hhigh => exact absurd (isHigh_escape.symm.trans hhigh) Bool.false_ne_true
    | short he' => exact absurd (List.cons.inj heq).1.symm (hnone he')
    | hex ha' =>
      simp only [List.cons_append, List.cons.injEq, true_and] at heq
      obtain ⟨rfl, rfl, rfl⟩ := hex_unique ha ha' heq
      exact ⟨rfl, rfl, rfl⟩
    | hexPair ha' hhigh' =>
      simp only [List.cons_append, List.cons.injEq, true_and, List.append_assoc] at heq
      obtain ⟨-, rfl, -⟩ := hex_unique ha ha' heq
      exact absurd (hhigh.symm.trans hhigh') Bool.false_ne_true
  | hexPair ha hhigh hb _ =>
    cases h' with
    | plain _ _ hescape => exact absurd rfl hescape
    | pair hhigh => exact absurd (isHigh_escape.symm.trans hhigh) Bool.false_ne_true
    | short he' => exact absurd (List.cons.inj heq).1.symm (hnone he')
    | hex ha' hhigh' =>
      simp only [List.cons_append, List.cons.injEq, true_and, List.append_assoc] at heq
      obtain ⟨-, rfl, -⟩ := hex_unique ha ha' heq
      exact absurd (hhigh'.symm.trans hhigh) Bool.false_ne_true
    | hexPair ha' _ hb' _ =>
      simp only [List.cons_append, List.cons.injEq, true_and, List.append_assoc] at heq
      obtain ⟨rfl, rfl, htail⟩ := hex_unique ha ha' heq
      simp only [List.cons.injEq, true_and] at htail
      obtain ⟨rfl, rfl, rfl⟩ := hex_unique hb hb' htail
      exact ⟨rfl, rfl, rfl⟩

/-- The characters of a string are told from what follows them. -/
theorem piece_append_inj {c c' a a' x x' : CodeUnits} (h : Piece c a) (h' : Piece c' a')
    (heq : a ++ x = a' ++ x') :
    c = c' ∧ a = a' ∧ x = x' := by
  obtain ⟨u, b, rfl, hu⟩ := piece_head h
  obtain ⟨u', b', rfl, hu'⟩ := piece_head h'
  simp only [List.cons_append, List.cons.injEq] at heq
  obtain ⟨rfl, heq⟩ := heq
  rcases hu with ⟨hescape, hhigh, -, rfl, rfl⟩ | ⟨hhigh, d, rfl, rfl⟩ | rfl
  · rcases hu' with ⟨-, -, -, rfl, rfl⟩ | ⟨hhigh', -⟩ | rfl
    · exact ⟨rfl, rfl, heq⟩
    · exact absurd (hhigh.symm.trans hhigh') Bool.false_ne_true
    · exact absurd rfl hescape
  · rcases hu' with ⟨-, hhigh', -⟩ | ⟨-, d', rfl, rfl⟩ | rfl
    · exact absurd (hhigh'.symm.trans hhigh) Bool.false_ne_true
    · simp only [List.cons_append, List.nil_append, List.cons.injEq] at heq
      obtain ⟨rfl, hx⟩ := heq
      exact ⟨rfl, rfl, hx⟩
    · exact absurd (isHigh_escape.symm.trans hhigh) Bool.false_ne_true
  · rcases hu' with ⟨hescape, -⟩ | ⟨hhigh, -⟩ | -
    · exact absurd rfl hescape
    · exact absurd (isHigh_escape.symm.trans hhigh) Bool.false_ne_true
    · obtain ⟨rfl, rfl, rfl⟩ := escaped_append_inj h h' heq
      exact ⟨rfl, rfl, rfl⟩

theorem piece_ne_quote {c a x y : CodeUnits} (h : Piece c a) (heq : a ++ x = 34 :: y) : False := by
  obtain ⟨u, b, rfl, hu⟩ := piece_head h
  obtain ⟨rfl, -⟩ := List.cons.inj heq
  rcases hu with ⟨-, -, hquote, -⟩ | ⟨hhigh, -⟩ | hescape
  · exact hquote rfl
  · exact absurd hhigh (by decide)
  · exact absurd hescape (by decide)

/-- A string ends at its quote. -/
theorem spelled_append_inj {s b : CodeUnits} (h : Spelled s b) :
    ∀ {s' b' r r' : CodeUnits}, Spelled s' b' →
    b ++ 34 :: r = b' ++ 34 :: r' → s = s' ∧ b = b' ∧ r = r' := by
  induction h with
  | nil =>
    intro s' b' r r' h' heq
    cases h' with
    | nil => exact ⟨rfl, rfl, (List.cons.inj heq).2⟩
    | cons hpiece =>
      rw [List.append_assoc] at heq
      exact (piece_ne_quote hpiece heq.symm).elim
  | cons hpiece _ ih =>
    intro s' b' r r' h' heq
    cases h' with
    | nil =>
      rw [List.append_assoc] at heq
      exact (piece_ne_quote hpiece heq).elim
    | cons hpiece' hrest =>
      rw [List.append_assoc, List.append_assoc] at heq
      obtain ⟨rfl, rfl, htail⟩ := piece_append_inj hpiece hpiece' heq
      obtain ⟨rfl, rfl, rfl⟩ := ih hrest htail
      exact ⟨rfl, rfl, rfl⟩

theorem quoted_append_inj {s a s' a' r r' : CodeUnits} (h : Quoted s a) (h' : Quoted s' a')
    (heq : a ++ r = a' ++ r') :
    s = s' ∧ a = a' ∧ r = r' := by
  obtain ⟨b, rfl, hb⟩ := h
  obtain ⟨b', rfl, hb'⟩ := h'
  simp only [List.cons_append, List.append_assoc, List.nil_append, List.cons.injEq, true_and] at heq
  obtain ⟨rfl, rfl, rfl⟩ := spelled_append_inj hb hb' heq
  exact ⟨rfl, rfl, rfl⟩

/-! ### Numbers and literals -/

def isPlainUnit (c : UInt16) : Bool := !isDelimiter c

theorem isPlainUnit_digit {c : UInt16} (h : isDigit c = true) : isPlainUnit c = true := by
  have hne {d : UInt16} (hd : isDigit d = false) : c ≠ d :=
    fun heq => absurd (heq ▸ h) (by rw [hd]; exact Bool.false_ne_true)
  simp only [isPlainUnit, isDelimiter, isWhitespace, Bool.not_eq_true', Bool.or_eq_false_iff,
    decide_eq_false_iff_not]
  exact ⟨⟨⟨⟨⟨⟨hne (by decide), hne (by decide)⟩, hne (by decide)⟩, hne (by decide)⟩,
    hne (by decide)⟩, hne (by decide)⟩, hne (by decide)⟩

theorem forall_mem_plain {a b : CodeUnits} (ha : ∀ c ∈ a, isPlainUnit c = true)
    (hb : ∀ c ∈ b, isPlainUnit c = true) :
    ∀ c ∈ a ++ b, isPlainUnit c = true := fun c hc => (List.mem_append.mp hc).elim (ha c) (hb c)

theorem plain_digits {a : CodeUnits} (h : ∀ c ∈ a, isDigit c = true) :
    ∀ c ∈ a, isPlainUnit c = true :=
  fun c hc => isPlainUnit_digit (h c hc)

/-- No unit of a number may follow a value. -/
theorem plain_number {a : CodeUnits} (h : IsNumber a) : ∀ c ∈ a, isPlainUnit c = true := by
  obtain ⟨sign, int, frac, exp, rfl, hsign, hint, hfrac, hexp⟩ := h
  refine forall_mem_plain ?_ (forall_mem_plain ?_ (forall_mem_plain ?_ ?_))
  · rcases hsign with rfl | rfl <;> exact List.all_eq_true.mp (by decide)
  · rcases hint with rfl | ⟨c, ds, rfl, hc, hds⟩
    · exact List.all_eq_true.mp (by decide)
    · refine forall_mem_plain (a := [c]) (plain_digits fun d hd => ?_) (plain_digits hds)
      rw [List.mem_singleton.mp hd]
      simp only [isDigit, Bool.and_eq_true, decide_eq_true_eq]
      omega
  · rcases hfrac with rfl | ⟨ds, rfl, -, hds⟩
    · exact List.all_eq_true.mp (by decide)
    · exact forall_mem_plain (a := [46]) (List.all_eq_true.mp (by decide)) (plain_digits hds)
  · rcases hexp with rfl | ⟨e, sign, ds, rfl, he, hsign, -, hds⟩
    · exact List.all_eq_true.mp (by decide)
    · refine forall_mem_plain (a := [e]) ?_ (forall_mem_plain ?_ (plain_digits hds))
      · rcases he with rfl | rfl <;> exact List.all_eq_true.mp (by decide)
      · rcases hsign with rfl | rfl | rfl <;> exact List.all_eq_true.mp (by decide)

theorem plain_literal (value : Option Bool) : ∀ c ∈ literalUnits value, isPlainUnit c = true := by
  rcases value with _ | _ | _ <;> exact List.all_eq_true.mp (by decide)

/-- A text that goes on as a value may be followed, if at all. -/
def Delimited (a : CodeUnits) : Prop := Stops isPlainUnit a

/-- A number or a literal ends where what follows may follow a value. -/
theorem plain_append_inj {a a' r r' : CodeUnits} (ha : ∀ c ∈ a, isPlainUnit c = true)
    (ha' : ∀ c ∈ a', isPlainUnit c = true) (hr : Delimited r) (hr' : Delimited r')
    (heq : a ++ r = a' ++ r') : a = a' ∧ r = r' := span_unique ha ha' hr hr' heq

/-! ### What a value begins with -/

inductive First
  | quote
  | digit
  | letter
  | bracket (object : Bool)
  deriving DecidableEq

/-- What a unit may begin. -/
def first (c : UInt16) : Option First :=
  if c = 34 then some .quote
  else if c = 45 || isDigit c then some .digit
  else if c = 116 || c = 102 || c = 110 then some .letter
  else if c = 123 then some (.bracket true)
  else if c = 91 then some (.bracket false)
  else none

def Tree.first : Tree → First
  | .text _ => .quote
  | .number _ => .digit
  | .literal _ => .letter
  | .container object _ => .bracket object

theorem first_digit {c : UInt16} (h : c = 45 ∨ isDigit c = true) :
    Rfc8259.first c = some .digit := by
  have hquote : c ≠ 34 := fun heq => by
    rw [heq] at h
    exact absurd h (by decide)
  rw [Rfc8259.first, if_neg hquote, if_pos (by rcases h with h | h <;> simp [h])]

theorem first_number {a : CodeUnits} (h : IsNumber a) :
    ∃ c b, a = c :: b ∧ Rfc8259.first c = some .digit := by
  obtain ⟨sign, int, frac, exp, rfl, rfl | rfl, hint, -, -⟩ := h
  · rcases hint with rfl | ⟨c, ds, rfl, hc, -⟩
    · exact ⟨48, _, rfl, by decide⟩
    · exact ⟨c, _, rfl, first_digit
        (.inr (by simp only [isDigit, Bool.and_eq_true, decide_eq_true_eq]; omega))⟩
  · exact ⟨45, _, rfl, by decide⟩

theorem first_opening (object : Bool) :
    Rfc8259.first (opening object) = some (.bracket object) := by
  cases object <;> decide

theorem first_closing (object : Bool) : Rfc8259.first (closing object) = none := by
  cases object <;> decide

theorem first_reads {t : Tree} {a : CodeUnits} (h : Reads t a) :
    ∃ c b, a = c :: b ∧ Rfc8259.first c = some t.first := by
  cases t with
  | text s =>
    rw [Reads] at h
    obtain ⟨b, rfl, -⟩ := h
    exact ⟨34, _, rfl, rfl⟩
  | number token =>
    rw [Reads] at h
    obtain ⟨hnumber, rfl⟩ := h
    exact first_number hnumber
  | literal value =>
    rw [Reads] at h
    rcases value with _ | _ | _
    · exact ⟨110, _, h, by decide⟩
    · exact ⟨102, _, h, by decide⟩
    · exact ⟨116, _, h, by decide⟩
  | container object ts =>
    rw [Reads] at h
    obtain ⟨b, ms, rfl, -⟩ := h
    exact ⟨_, b, rfl, first_opening object⟩

theorem isWhitespace_of_first {c : UInt16} {f : First} (h : Rfc8259.first c = some f) :
    isWhitespace c = false := by
  by_contra hspace
  rw [Bool.not_eq_false] at hspace
  simp only [isWhitespace, Bool.or_eq_true, decide_eq_true_eq] at hspace
  have hnone : Rfc8259.first c = none := by
    rcases hspace with ((rfl | rfl) | rfl) | rfl <;> decide
  rw [hnone] at h
  cases h

theorem stops_reads {t : Tree} {a : CodeUnits} (h : Reads t a) (x : CodeUnits) :
    Stops isWhitespace (a ++ x) := by
  obtain ⟨c, b, rfl, hc⟩ := first_reads h
  exact stops_cons (isWhitespace_of_first hc)

/-! ### Members -/

theorem members_cons {object : Bool} {key s a : CodeUnits} {ms : List (CodeUnits × CodeUnits)}
    (h : Members object ((key, s) :: ms) a) :
    ∃ w q w' w'' tail, a = w ++ (q ++ (w' ++ (s ++ (w'' ++ tail)))) ∧ Ws w ∧ Key object key q
      ∧ Ws w' ∧ Ws w''
      ∧ ((ms = [] ∧ tail = [closing object]) ∨ ∃ b, tail = 44 :: b ∧ Members object ms b) := by
  cases h with
  | last hw hq hw' hw'' => exact ⟨_, _, _, _, _, rfl, hw, hq, hw', hw'', .inl ⟨rfl, rfl⟩⟩
  | cons hw hq hw' hw'' htail => exact ⟨_, _, _, _, _, rfl, hw, hq, hw', hw'', .inr ⟨_, rfl, htail⟩⟩

theorem Members.space {object : Bool} {ms : List (CodeUnits × CodeUnits)} {w a : CodeUnits}
    (hw : Ws w) (h : Members object ms a) :
    Members object ms (w ++ a) := by
  have happend {v : CodeUnits} (hv : Ws v) : Ws (w ++ v) :=
    fun c hc => (List.mem_append.mp hc).elim (hw c) (hv c)
  cases h with
  | last hv hq hv' hv'' =>
    rw [← List.append_assoc]
    exact .last (happend hv) hq hv' hv''
  | cons hv hq hv' hv'' htail =>
    rw [← List.append_assoc]
    exact .cons (happend hv) hq hv' hv'' htail

theorem stops_closing (object : Bool) (x : CodeUnits) : Stops isWhitespace (closing object :: x) :=
  stops_cons (by cases object <;> decide)

theorem closing_ne_comma (object : Bool) : closing object ≠ 44 := by
  cases object <;> decide

/-- What follows a member may follow a value. -/
theorem delimited_after {w : CodeUnits} {c : UInt16} (hw : Ws w) (hc : isPlainUnit c = false)
    (x : CodeUnits) : Delimited (w ++ c :: x) := by
  rcases w with _ | ⟨d, w⟩
  · exact stops_cons hc
  · refine stops_cons ?_
    have hd := hw d List.mem_cons_self
    simp [isPlainUnit, isDelimiter, hd]

theorem plain_closing (object : Bool) : isPlainUnit (closing object) = false := by
  cases object <;> decide

theorem Ws.append {w w' : CodeUnits} (h : Ws w) (h' : Ws w') : Ws (w ++ w') :=
  fun c hc => (List.mem_append.mp hc).elim (h c) (h' c)

theorem stops_quoted {s a : CodeUnits} (h : Quoted s a) (x : CodeUnits) :
    Stops isWhitespace (a ++ x) := by
  obtain ⟨b, rfl, -⟩ := h
  exact stops_cons (by decide)

/-- What is written before a member is told from the member. -/
theorem key_append_inj {object : Bool} {key key' q q' w v w' v' x x' : CodeUnits} (hw : Ws w)
    (hv : Ws v) (hq : Key object key q) (hw' : Ws w') (hv' : Ws v') (hq' : Key object key' q')
    (hx : Stops isWhitespace x) (hx' : Stops isWhitespace x')
    (h : w ++ (q ++ (v ++ x)) = w' ++ (q' ++ (v' ++ x'))) :
    key = key' ∧ w ++ (q ++ v) = w' ++ (q' ++ v') ∧ x = x' := by
  cases object with
  | true =>
    obtain ⟨p, u, rfl, hp, hu⟩ := hq
    obtain ⟨p', u', rfl, hp', hu'⟩ := hq'
    simp only [List.append_assoc, List.cons_append, List.nil_append] at h
    obtain ⟨rfl, hquoted⟩ := span_unique hw hw' (stops_quoted hp _) (stops_quoted hp' _) h
    obtain ⟨rfl, rfl, hspace⟩ := quoted_append_inj hp hp' hquoted
    have hcolon : isWhitespace 58 = false := by decide
    obtain ⟨rfl, hmember⟩ := span_unique hu hu' (stops_cons hcolon) (stops_cons hcolon) hspace
    obtain ⟨rfl, rfl⟩ := span_unique hv hv' hx hx' (List.cons.inj hmember).2
    exact ⟨rfl, rfl, rfl⟩
  | false =>
    obtain ⟨rfl, rfl⟩ := hq
    obtain ⟨rfl, rfl⟩ := hq'
    simp only [List.nil_append] at h ⊢
    rw [← List.append_assoc, ← List.append_assoc] at h
    obtain ⟨hspace, rfl⟩ := span_unique (hw.append hv) (hw'.append hv') hx hx' h
    exact ⟨trivial, hspace, rfl⟩

/-- Members begin as a value does. -/
theorem members_head {object : Bool} {ts : List (CodeUnits × Tree)}
    {ms : List (CodeUnits × CodeUnits)} {a : CodeUnits} (hms : Matches ts ms)
    (h : Members object ms a) : ∃ w c x, a = w ++ c :: x ∧ Ws w ∧ Rfc8259.first c ≠ none := by
  rcases ts with _ | ⟨⟨key, t⟩, ts⟩
  · rw [Matches] at hms
    subst hms
    cases h
  rw [Matches] at hms
  obtain ⟨s, ms', rfl, ht, -⟩ := hms
  obtain ⟨w, q, w', w'', tail, rfl, hw, hq, hw', -⟩ := members_cons h
  cases object with
  | true =>
    obtain ⟨p, u, rfl, ⟨b, rfl, -⟩, -⟩ := hq
    exact ⟨w, 34, _, rfl, hw, by decide⟩
  | false =>
    obtain ⟨-, rfl⟩ := hq
    obtain ⟨c, b, rfl, hc⟩ := first_reads ht
    refine ⟨w ++ w', c, b ++ (w'' ++ tail), by simp, hw.append hw', ?_⟩
    rw [hc]
    exact Option.some_ne_none _

theorem Ws.stops_first {c : UInt16} (h : Rfc8259.first c ≠ none) (x : CodeUnits) :
    Stops isWhitespace (c :: x) := by
  obtain ⟨f, hf⟩ := Option.ne_none_iff_exists'.mp h
  exact stops_cons (isWhitespace_of_first hf)

/-- A container that is closed at once has no members. -/
theorem members_not_empty {object : Bool} {ts : List (CodeUnits × Tree)}
    {ms : List (CodeUnits × CodeUnits)} {a w x y : CodeUnits} (hms : Matches ts ms)
    (h : Members object ms a) (hw : Ws w) (heq : a ++ x = w ++ closing object :: y) : False := by
  obtain ⟨v, c, z, rfl, hv, hc⟩ := members_head hms h
  rw [List.append_assoc, List.cons_append] at heq
  obtain ⟨-, heq⟩ := span_unique hv hw (Ws.stops_first hc _) (stops_closing object _) heq
  rw [(List.cons.inj heq).1] at hc
  exact hc (first_closing object)

/-! ### One tree for a text -/

/-- After a member come a comma or the closing bracket. -/
theorem after_member {object : Bool} {ms : List (CodeUnits × CodeUnits)}
    {w tail : CodeUnits} (hw : Ws w)
    (h : (ms = [] ∧ tail = [closing object]) ∨ ∃ b, tail = 44 :: b ∧ Members object ms b)
    (r : CodeUnits) :
    Stops isWhitespace (tail ++ r) ∧ Delimited (w ++ (tail ++ r)) := by
  rcases h with ⟨-, rfl⟩ | ⟨b, rfl, -⟩
  · exact ⟨stops_closing object r, delimited_after hw (plain_closing object) r⟩
  · exact ⟨stops_cons (by decide), delimited_after hw (by decide) _⟩

/-- Two values that begin alike are of one kind. -/
theorem first_eq {t t' : Tree} {a a' x x' : CodeUnits} (h : Reads t a) (h' : Reads t' a')
    (heq : a ++ x = a' ++ x') :
    t.first = t'.first := by
  obtain ⟨c, b, rfl, hc⟩ := first_reads h
  obtain ⟨c', b', rfl, hc'⟩ := first_reads h'
  obtain ⟨rfl, -⟩ := List.cons.inj heq
  exact Option.some.inj (hc.symm.trans hc')

theorem literalUnits_inj {v v' : Option Bool} (h : literalUnits v = literalUnits v') : v = v' := by
  revert h
  rcases v with _ | _ | _ <;> rcases v' with _ | _ | _ <;> decide

theorem matches_nil {ts : List (CodeUnits × Tree)} (h : Matches ts []) : ts = [] := by
  rcases ts with _ | ⟨⟨key, t⟩, ts⟩
  · rfl
  · rw [Matches] at h
    obtain ⟨_, _, hnil, -⟩ := h
    cases hnil

mutual
/-- **Values.** A value ends at one place, if what follows may follow a value, and has one tree. -/
theorem reads_append_inj : ∀ (t : Tree) {t' : Tree} {a a' r r' : CodeUnits}, Reads t a →
    Reads t' a' → Delimited r → Delimited r' →
    a ++ r = a' ++ r' → t = t' ∧ a = a' ∧ r = r'
  | .text s, t', a, a', r, r', h, h', _, _, heq => by
    have hfirst := first_eq h h' heq
    cases t' with
    | text s' =>
      rw [Reads] at h h'
      obtain ⟨rfl, rfl, rfl⟩ := quoted_append_inj h h' heq
      exact ⟨rfl, rfl, rfl⟩
    | _ => cases hfirst
  | .number token, t', a, a', r, r', h, h', hr, hr', heq => by
    have hfirst := first_eq h h' heq
    cases t' with
    | number token' =>
      rw [Reads] at h h'
      obtain ⟨hnumber, rfl⟩ := h
      obtain ⟨hnumber', rfl⟩ := h'
      obtain ⟨rfl, rfl⟩ := plain_append_inj (plain_number hnumber)
        (plain_number hnumber') hr hr' heq
      exact ⟨rfl, rfl, rfl⟩
    | _ => cases hfirst
  | .literal value, t', a, a', r, r', h, h', hr, hr', heq => by
    have hfirst := first_eq h h' heq
    cases t' with
    | literal value' =>
      rw [Reads] at h h'
      subst h h'
      obtain ⟨hvalue, rfl⟩ :=
        plain_append_inj (plain_literal value) (plain_literal value') hr hr' heq
      exact ⟨by rw [literalUnits_inj hvalue], hvalue, rfl⟩
    | _ => cases hfirst
  | .container object ts, t', a, a', r, r', h, h', hr, hr', heq => by
    have hfirst := first_eq h h' heq
    cases t' with
    | container object' ts' =>
      obtain rfl : object = object' := First.bracket.inj hfirst
      rw [Reads] at h h'
      obtain ⟨b, ms, rfl, hlayout, hms⟩ := h
      obtain ⟨b', ms', rfl, hlayout', hms'⟩ := h'
      have hinner : b ++ r = b' ++ r' := (List.cons.inj heq).2
      rcases hlayout with ⟨rfl, w, hw, rfl⟩ | hlayout
      · rcases hlayout' with ⟨rfl, w', hw', rfl⟩ | hlayout'
        · rw [List.append_assoc, List.append_assoc] at hinner
          obtain ⟨rfl, hend⟩ :=
            span_unique hw hw' (stops_closing object _) (stops_closing object _) hinner
          obtain rfl := matches_nil hms
          obtain rfl := matches_nil hms'
          exact ⟨rfl, rfl, (List.cons.inj hend).2⟩
        · rw [List.append_assoc] at hinner
          exact (members_not_empty hms' hlayout' hw hinner.symm).elim
      · rcases hlayout' with ⟨rfl, w', hw', rfl⟩ | hlayout'
        · rw [List.append_assoc] at hinner
          exact (members_not_empty hms hlayout hw' hinner).elim
        · obtain ⟨rfl, -, rfl, rfl⟩ := members_append_inj ts hms hms' hlayout hlayout' hinner
          exact ⟨rfl, rfl, rfl⟩
    | _ => cases hfirst

theorem members_append_inj : ∀ (ts : List (CodeUnits × Tree)) {object : Bool}
    {ts' : List (CodeUnits × Tree)} {ms ms' : List (CodeUnits × CodeUnits)} {b b' r r' : CodeUnits},
    Matches ts ms → Matches ts' ms' → Members object ms b →
    Members object ms' b' → b ++ r = b' ++ r' → ts = ts' ∧ ms = ms' ∧ b = b' ∧ r = r'
  | [], object, ts', ms, ms', b, b', r, r', hms, hms', h, h', heq => by
    rw [Matches] at hms
    subst hms
    cases h
  | (key, t) :: ts, object, ts', ms, ms', b, b', r, r', hms, hms', h, h', heq => by
    rcases ts' with _ | ⟨⟨key', t'⟩, ts'⟩
    · rw [Matches] at hms'
      subst hms'
      cases h'
    rw [Matches] at hms hms'
    obtain ⟨s, ms₁, rfl, ht, hts⟩ := hms
    obtain ⟨s', ms₁', rfl, ht', hts'⟩ := hms'
    obtain ⟨w, q, v, u, tail, rfl, hw, hq, hv, hu, htail⟩ := members_cons h
    obtain ⟨w', q', v', u', tail', rfl, hw', hq', hv', hu', htail'⟩ := members_cons h'
    simp only [List.append_assoc] at heq
    obtain ⟨rfl, hbefore, hvalue⟩ := key_append_inj hw hv hq hw' hv' hq' (stops_reads ht _)
      (stops_reads ht' _) heq
    obtain ⟨hstops, hdelimited⟩ := after_member hu htail r
    obtain ⟨hstops', hdelimited'⟩ := after_member hu' htail' r'
    obtain ⟨rfl, rfl, hafter⟩ := reads_append_inj t ht ht' hdelimited hdelimited' hvalue
    obtain ⟨rfl, hend⟩ := span_unique hu hu' hstops hstops' hafter
    have htext : ∀ x, w ++ (q ++ (v ++ x)) = w' ++ (q' ++ (v' ++ x)) := fun x => by
      have happend := congrArg (· ++ x) hbefore
      simpa only [List.append_assoc] using happend
    rcases htail with ⟨rfl, rfl⟩ | ⟨b, rfl, hb⟩
    · rcases htail' with ⟨rfl, rfl⟩ | ⟨b', rfl, -⟩
      · rw [matches_nil hts, matches_nil hts', htext]
        exact ⟨rfl, rfl, rfl, (List.cons.inj hend).2⟩
      · exact absurd (List.cons.inj hend).1 (closing_ne_comma object)
    · rcases htail' with ⟨rfl, rfl⟩ | ⟨b', rfl, hb'⟩
      · exact absurd (List.cons.inj hend).1.symm (closing_ne_comma object)
      · obtain ⟨rfl, rfl, rfl, rfl⟩ := members_append_inj ts hts hts' hb hb' (List.cons.inj hend).2
        exact ⟨rfl, rfl, htext _, rfl⟩
end

/-- A text has one tree. -/
theorem parses_unique {a : CodeUnits} {t t' : Tree} (h : Parses a t) (h' : Parses a t') :
    t = t' := by
  obtain ⟨w, s, v, rfl, hw, ht, hv⟩ := h
  obtain ⟨w', s', v', heq, hw', ht', hv'⟩ := h'
  obtain ⟨-, hvalue⟩ := span_unique hw hw' (stops_reads ht _) (stops_reads ht' _) heq
  have hend {u : CodeUnits} (hu : Ws u) : Delimited u := fun c hc => by
    have hspace := hu c (List.mem_of_mem_head? hc)
    simp [isPlainUnit, isDelimiter, hspace]
  exact (reads_append_inj t ht ht' (hend hv) (hend hv') hvalue).1

end Rfc8259
