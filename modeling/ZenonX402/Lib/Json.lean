/-
# JSON text

`stringify` is `JSON.stringify` of a value with the object keys in their own
order, `canonicalJson` the same with the keys of every object in order, and
`parse` reads a text back by the JSON grammar. What was written is read back,
in whatever layout (`parse_layout`): `parse (stringify v) = some v` for every
value that is JSON data (`parse_stringify`). So the text of a value says what the value is, and two
values have the same canonical text exactly when they are the same data
(`canonicalJson_inj`).

A text is a list of characters here; an escape that names half of a surrogate
pair has no character and does not parse.

Key definitions: `stringify`, `canonicalJson`, `parse`, `Layout`.
Key theorems: `parse_layout`, `parse_stringify`, `canonicalJson_inj`.
-/
import ZenonX402.Lib.Value
import ZenonX402.Lib.Double

namespace Js
namespace Json

/-! ### Writing -/

def hexDigit (n : Nat) : Char := Nat.digitChar (n % 16)

/-- One character of a string literal. -/
def escape (c : Char) : List Char :=
  if c = '\x22' then ['\\', '\x22']
  else if c = '\\' then ['\\', '\\']
  else if c = '\x08' then ['\\', 'b']
  else if c = '\x0c' then ['\\', 'f']
  else if c = '\n' then ['\\', 'n']
  else if c = '\r' then ['\\', 'r']
  else if c = '\t' then ['\\', 't']
  else if c.toNat < 32 then ['\\', 'u', '0', '0', hexDigit (c.toNat / 16), hexDigit c.toNat]
  else [c]

def writeString (s : String) : List Char :=
  '\x22' :: (s.toList.flatMap escape ++ ['\x22'])

def writeInt (n : Int) : List Char :=
  if n < 0 then '-' :: Nat.toDigits 10 n.natAbs else Nat.toDigits 10 n.natAbs

mutual

/-- The text of a value. What is not JSON data is written as it is inside an
array, as `null`. -/
def write : Value → List Char
  | .null | .undefined | .fractional | .host => ['n', 'u', 'l', 'l']
  | .bool true => ['t', 'r', 'u', 'e']
  | .bool false => ['f', 'a', 'l', 's', 'e']
  | .num n => writeInt n
  | .negZero => ['0']
  | .str s => writeString s
  | .arr [] => ['[', ']']
  | .arr (v :: vs) => '[' :: (write v ++ writeElements vs)
  | .obj [] => ['\x7b', '\x7d']
  | .obj ((k, v) :: fs) => '\x7b' :: (writeString k ++ ':' :: (write v ++ writeMembers fs))

/-- The elements after the first, up to the closing bracket. -/
def writeElements : List Value → List Char
  | [] => [']']
  | v :: vs => ',' :: (write v ++ writeElements vs)

/-- The members after the first, up to the closing brace. -/
def writeMembers : List (String × Value) → List Char
  | [] => ['\x7d']
  | (k, v) :: fs => ',' :: (writeString k ++ ':' :: (write v ++ writeMembers fs))

end

/-! ### Reading -/

def isSpace (c : Char) : Bool := c = ' ' || c = '\n' || c = '\r' || c = '\t'

def skipSpace (cs : List Char) : List Char := cs.dropWhile isSpace

def hexValue? (c : Char) : Option Nat :=
  if '0' ≤ c ∧ c ≤ '9' then some (c.toNat - '0'.toNat)
  else if 'a' ≤ c ∧ c ≤ 'f' then some (c.toNat - 'a'.toNat + 10)
  else if 'A' ≤ c ∧ c ≤ 'F' then some (c.toNat - 'A'.toNat + 10)
  else none

/-- Four hexadecimal digits: one UTF-16 code unit. -/
def readUnit : List Char → Option (Nat × List Char)
  | a :: b :: c :: d :: cs => do
    let a ← hexValue? a
    let b ← hexValue? b
    let c ← hexValue? c
    let d ← hexValue? d
    return (((a * 16 + b) * 16 + c) * 16 + d, cs)
  | _ => none

/-- The character of an escape, after its backslash. -/
def readEscape : List Char → Option (Char × List Char)
  | '\x22' :: cs => some ('\x22', cs)
  | '\\' :: cs => some ('\\', cs)
  | '/' :: cs => some ('/', cs)
  | 'b' :: cs => some ('\x08', cs)
  | 'f' :: cs => some ('\x0c', cs)
  | 'n' :: cs => some ('\n', cs)
  | 'r' :: cs => some ('\r', cs)
  | 't' :: cs => some ('\t', cs)
  | 'u' :: cs => do
    let (unit, cs) ← readUnit cs
    if unit < 0xd800 ∨ 0xe000 ≤ unit then return (Char.ofNat unit, cs)
    match cs with
    | '\\' :: 'u' :: cs =>
      let (low, cs) ← readUnit cs
      if unit < 0xdc00 ∧ 0xdc00 ≤ low ∧ low < 0xe000 then
        return (Char.ofNat (0x10000 + (unit - 0xd800) * 0x400 + (low - 0xdc00)), cs)
      none
    | _ => none
  | _ => none

/-- The characters of a string literal up to its closing quote. -/
def readChars : Nat → List Char → Option (List Char × List Char)
  | 0, _ => none
  | _ + 1, [] => none
  | fuel + 1, c :: cs =>
    if c = '\x22' then some ([], cs)
    else if c = '\\' then do
      let (c, cs) ← readEscape cs
      let (s, cs) ← readChars fuel cs
      return (c :: s, cs)
    else if c.toNat < 32 then none
    else do
      let (s, cs) ← readChars fuel cs
      return (c :: s, cs)

def isDigit (c : Char) : Bool := '0' ≤ c && c ≤ '9'

def readDigits (cs : List Char) : List Char × List Char :=
  (cs.takeWhile isDigit, cs.dropWhile isDigit)

/-- The value of the numeral `digits.fraction` times ten to the `exponent`. -/
def numberOf (negative : Bool) (digits fraction : List Char) (exponent : Int) : Value :=
  let p := Nat.ofDigitChars 10 (digits ++ fraction) 0
  let e := exponent - fraction.length
  match nearestInteger? (p * 10 ^ e.toNat) (10 ^ (-e).toNat) with
  | none => .fractional
  | some 0 => if negative then .negZero else .num 0
  | some n => .num (if negative then -n else n)

/-- The fraction of a numeral, if it has one. -/
def readFraction : List Char → Option (List Char × List Char)
  | '.' :: cs => match readDigits cs with
    | ([], _) => none
    | (ds, cs) => some (ds, cs)
  | cs => some ([], cs)

/-- The exponent of a numeral, if it has one. -/
def readExponent : List Char → Option (Int × List Char)
  | c :: cs =>
    if c = 'e' ∨ c = 'E' then
      let (negative, cs) := match cs with
        | '-' :: cs => (true, cs)
        | '+' :: cs => (false, cs)
        | cs => (false, cs)
      match readDigits cs with
      | ([], _) => none
      | (ds, cs) =>
        let n := Nat.ofDigitChars 10 ds 0
        some (if negative then -n else n, cs)
    else some (0, c :: cs)
  | [] => some (0, [])

/-- A number, its sign already read. -/
def readNumber (negative : Bool) (cs : List Char) : Option (Value × List Char) := do
  let (ds, cs) := readDigits cs
  if ds = [] ∨ ds.head? = some '0' ∧ ds.length ≠ 1 then none
  let (fraction, cs) ← readFraction cs
  let (exponent, cs) ← readExponent cs
  return (numberOf negative ds fraction exponent, cs)

/-- A member of an object: of two with one key the later stands, in the place
of the earlier. -/
def setField (fs : List (String × Value)) (f : String × Value) : List (String × Value) :=
  if fs.any fun g => g.1 == f.1 then fs.map fun g => if g.1 == f.1 then f else g else fs ++ [f]

/-- The rest of a text after a literal name. -/
def readLiteral (word : List Char) (v : Value) (cs : List Char) : Option (Value × List Char) :=
  if word.isPrefixOf cs then some (v, cs.drop word.length) else none

mutual

def readValue : Nat → List Char → Option (Value × List Char)
  | 0, _ => none
  | fuel + 1, cs => match skipSpace cs with
    | [] => none
    | c :: cs =>
      if c = 'n' then readLiteral ['u', 'l', 'l'] .null cs
      else if c = 't' then readLiteral ['r', 'u', 'e'] (.bool true) cs
      else if c = 'f' then readLiteral ['a', 'l', 's', 'e'] (.bool false) cs
      else if c = '\x22' then do
        let (s, cs) ← readChars fuel cs
        return (.str (String.ofList s), cs)
      else if c = '[' then
        if (skipSpace cs).head? = some ']' then some (.arr [], (skipSpace cs).tail)
        else do
          let (v, cs) ← readValue fuel cs
          let (vs, cs) ← readElements fuel cs
          return (.arr (v :: vs), cs)
      else if c = '\x7b' then
        if (skipSpace cs).head? = some '\x7d' then some (.obj [], (skipSpace cs).tail)
        else do
          let (f, cs) ← readMember fuel cs
          let (fs, cs) ← readMembers fuel cs
          return (.obj ((f :: fs).foldl setField []), cs)
      else if c = '-' then readNumber true cs
      else readNumber false (c :: cs)

/-- What follows an element, up to the closing bracket. -/
def readElements : Nat → List Char → Option (List Value × List Char)
  | 0, _ => none
  | fuel + 1, cs => match skipSpace cs with
    | ']' :: cs => some ([], cs)
    | ',' :: cs => do
      let (v, cs) ← readValue fuel cs
      let (vs, cs) ← readElements fuel cs
      return (v :: vs, cs)
    | _ => none

def readMember : Nat → List Char → Option ((String × Value) × List Char)
  | 0, _ => none
  | fuel + 1, cs => match skipSpace cs with
    | '\x22' :: cs => do
      let (k, cs) ← readChars fuel cs
      match skipSpace cs with
      | ':' :: cs => do
        let (v, cs) ← readValue fuel cs
        return ((String.ofList k, v), cs)
      | _ => none
    | _ => none

/-- What follows a member, up to the closing brace. -/
def readMembers : Nat → List Char → Option (List (String × Value) × List Char)
  | 0, _ => none
  | fuel + 1, cs => match skipSpace cs with
    | '\x7d' :: cs => some ([], cs)
    | ',' :: cs => do
      let (f, cs) ← readMember fuel cs
      let (fs, cs) ← readMembers fuel cs
      return (f :: fs, cs)
    | _ => none

end

/-! ### Layouts -/

/-- The white space a writer puts between tokens: what starts a line at a
depth, and what follows a colon. -/
structure Layout where
  line : Nat → List Char
  colon : List Char
  line_space : ∀ depth, ∀ c ∈ line depth, isSpace c = true
  colon_space : ∀ c ∈ colon, isSpace c = true

namespace Layout

/-- No white space at all. -/
def compact : Layout where
  line _ := []
  colon := []
  line_space _ c hc := by cases hc
  colon_space c hc := by cases hc

/-- Every entry on a line of its own, `width` more spaces for each level. -/
def indented (width : Nat) : Layout where
  line depth := '\n' :: List.replicate (depth * width) ' '
  colon := [' ']
  line_space depth c hc := by
    rcases List.mem_cons.mp hc with rfl | hc
    · decide
    · rw [List.eq_of_mem_replicate hc]
      decide
  colon_space c hc := by
    rw [List.mem_singleton.mp hc]
    decide

mutual

/-- The text of a value at a depth, its first line already started. -/
def write (L : Layout) (depth : Nat) : Value → List Char
  | .null | .undefined | .fractional | .host => ['n', 'u', 'l', 'l']
  | .bool true => ['t', 'r', 'u', 'e']
  | .bool false => ['f', 'a', 'l', 's', 'e']
  | .num n => writeInt n
  | .negZero => ['0']
  | .str s => writeString s
  | .arr [] => ['[', ']']
  | .arr (v :: vs) => '['
      :: (L.line (depth + 1) ++ (write L (depth + 1) v ++ writeElements L depth vs))
  | .obj [] => ['\x7b', '\x7d']
  | .obj ((k, v) :: fs) => '\x7b' :: (L.line (depth + 1) ++ (writeString k ++ ':' :: (L.colon ++
      (write L (depth + 1) v ++ writeMembers L depth fs))))

/-- The elements after the first, up to the closing bracket. -/
def writeElements (L : Layout) (depth : Nat) : List Value → List Char
  | [] => L.line depth ++ [']']
  | v :: vs => ',' :: (L.line (depth + 1) ++ (write L (depth + 1) v ++ writeElements L depth vs))

/-- The members after the first, up to the closing brace. -/
def writeMembers (L : Layout) (depth : Nat) : List (String × Value) → List Char
  | [] => L.line depth ++ ['\x7d']
  | (k, v) :: fs => ',' :: (L.line (depth + 1) ++ (writeString k ++ ':' :: (L.colon ++
      (write L (depth + 1) v ++ writeMembers L depth fs))))

end

mutual

theorem write_compact : ∀ (depth : Nat) (v : Value), compact.write depth v = Json.write v
  | depth, .arr (v :: vs) => by
    rw [write, Json.write, write_compact (depth + 1) v, writeElements_compact depth vs]
    rfl
  | depth, .obj ((k, v) :: fs) => by
    rw [write, Json.write, write_compact (depth + 1) v, writeMembers_compact depth fs]
    rfl
  | _, .arr [] | _, .obj [] | _, .bool true | _, .bool false | _, .null | _,
      .undefined | _, .fractional
  | _, .host | _, .num _ | _, .negZero | _, .str _ => by rw [write, Json.write]

theorem writeElements_compact : ∀ (depth : Nat) (vs : List Value),
    compact.writeElements depth vs = Json.writeElements vs
  | _, [] => rfl
  | depth, v :: vs => by
    rw [writeElements, Json.writeElements, write_compact (depth + 1) v,
      writeElements_compact depth vs]
    rfl

theorem writeMembers_compact : ∀ (depth : Nat) (fs : List (String × Value)),
    compact.writeMembers depth fs = Json.writeMembers fs
  | _, [] => rfl
  | depth, (k, v) :: fs => by
    rw [writeMembers, Json.writeMembers, write_compact (depth + 1) v, writeMembers_compact depth fs]
    rfl

end

mutual

/-- A writer does not show the sign of a zero. -/
theorem write_unsigned (L : Layout) :
    ∀ (depth : Nat) (v : Value), L.write depth v.unsigned = L.write depth v
  | depth, .arr (v :: vs) => by
    rw [Value.unsigned, Value.unsignedElements, write, write, write_unsigned L (depth + 1) v,
      writeElements_unsigned L depth vs]
  | depth, .obj ((k, v) :: fs) => by
    rw [Value.unsigned, Value.unsignedMembers, write, write, write_unsigned L (depth + 1) v,
      writeMembers_unsigned L depth fs]
  | _, .negZero => by rw [Value.unsigned, write, write]; rfl
  | _, .arr [] | _, .obj [] | _, .bool true | _, .bool false | _, .null | _,
      .undefined | _, .fractional
  | _, .host | _, .num _ | _, .str _ => by
    simp only [Value.unsigned, Value.unsignedElements, Value.unsignedMembers]

theorem writeElements_unsigned (L : Layout) : ∀ (depth : Nat) (vs : List Value),
    L.writeElements depth (Value.unsignedElements vs) = L.writeElements depth vs
  | _, [] => rfl
  | depth, v :: vs => by
    rw [Value.unsignedElements, writeElements, writeElements, write_unsigned L (depth + 1) v,
      writeElements_unsigned L depth vs]

theorem writeMembers_unsigned (L : Layout) : ∀ (depth : Nat) (fs : List (String × Value)),
    L.writeMembers depth (Value.unsignedMembers fs) = L.writeMembers depth fs
  | _, [] => rfl
  | depth, (k, v) :: fs => by
    rw [Value.unsignedMembers, writeMembers, writeMembers, write_unsigned L (depth + 1) v,
      writeMembers_unsigned L depth fs]

end

end Layout

/-! ### What was written is read back -/

theorem hexValue?_hexDigit (n : Nat) : hexValue? (hexDigit n) = some (n % 16) := by
  have h : ∀ k, k < 16 → hexValue? (Nat.digitChar k) = some k := by decide
  exact h _ (Nat.mod_lt _ (by omega))

/-- One written character is read as itself. -/
theorem readChars_escape (fuel : Nat) (c : Char) (cs : List Char) :
    readChars (fuel + 1) (escape c ++ cs) = (readChars fuel cs).map fun p => (c :: p.1, p.2) := by
  have hbind (o : Option (List Char × List Char)) :
      (o.bind fun p => some (c :: p.1, p.2)) = o.map fun p => (c :: p.1, p.2) := by
    cases o <;> rfl
  have hback {d : Char} {e : List Char} (h : readEscape (e ++ cs) = some (d, cs)) :
      readChars (fuel + 1) ('\\' :: (e ++ cs)) = (readChars fuel cs).map fun p =>
      (d :: p.1, p.2) := by
    have hquote : ¬ ('\\' = '\x22') := by decide
    simp only [readChars, if_neg hquote, if_true, h, Option.bind_eq_bind, Option.bind_some]
    cases readChars fuel cs <;> rfl
  unfold escape
  by_cases h1 : c = '\x22'
  · subst h1; exact hback (e := ['\x22']) rfl
  by_cases h2 : c = '\\'
  · subst h2; exact hback (e := ['\\']) rfl
  by_cases h3 : c = '\x08'
  · subst h3; exact hback (e := ['b']) rfl
  by_cases h4 : c = '\x0c'
  · subst h4; exact hback (e := ['f']) rfl
  by_cases h5 : c = '\n'
  · subst h5; exact hback (e := ['n']) rfl
  by_cases h6 : c = '\r'
  · subst h6; exact hback (e := ['r']) rfl
  by_cases h7 : c = '\t'
  · subst h7; exact hback (e := ['t']) rfl
  by_cases h8 : c.toNat < 32
  · rw [if_neg h1, if_neg h2, if_neg h3, if_neg h4, if_neg h5, if_neg h6, if_neg h7, if_pos h8]
    refine hback (e := ['u', '0', '0', hexDigit (c.toNat / 16), hexDigit c.toNat]) ?_
    have hzero : hexValue? '0' = some 0 := by decide
    have hunit : ((0 * 16 + 0) * 16 + c.toNat / 16 % 16) * 16 + c.toNat % 16 = c.toNat := by omega
    simp only [readEscape, readUnit, List.cons_append, List.nil_append, hexValue?_hexDigit, hzero,
      Option.bind_eq_bind, Option.bind_some, Option.pure_def, hunit]
    rw [if_pos (Or.inl (by omega)), Char.ofNat_toNat]
  · rw [if_neg h1, if_neg h2, if_neg h3, if_neg h4, if_neg h5, if_neg h6, if_neg h7, if_neg h8]
    simp only [List.cons_append, List.nil_append, readChars, if_neg h1, if_neg h2, if_neg h8]
    exact hbind _

theorem readChars_string : ∀ (s : List Char) (fuel : Nat) (rest : List Char), s.length < fuel →
    readChars fuel (s.flatMap escape ++ '\x22' :: rest) = some (s, rest)
  | [], fuel + 1, rest, _ => by simp [readChars]
  | c :: s, fuel + 1, rest, h => by
    have ih := readChars_string s fuel rest (by simpa using h)
    rw [List.flatMap_cons, List.append_assoc, readChars_escape, ih]
    rfl

theorem length_le_flatMap_escape : ∀ s : List Char, s.length ≤ (s.flatMap escape).length
  | [] => Nat.le_refl _
  | c :: s => by
    have hc : 1 ≤ (escape c).length := by
      unfold escape
      repeat' split
      all_goals simp
    have ih := length_le_flatMap_escape s
    rw [List.flatMap_cons, List.length_append, List.length_cons]
    omega

/-- A text that does not go on with a numeral. -/
def Ends (rest : List Char) : Prop :=
  ∀ c ∈ rest.head?, isDigit c = false ∧ c ≠ '.' ∧ c ≠ 'e' ∧ c ≠ 'E'

theorem isDigit_toDigits {n : Nat} {c : Char} (h : c ∈ Nat.toDigits 10 n) : isDigit c = true := by
  have := Nat.isDigit_of_mem_toDigits (by omega) (by omega) h
  simpa [Char.isDigit, isDigit, Char.le_def] using this

theorem readDigits_toDigits (n : Nat) {rest : List Char} (h : Ends rest) :
    readDigits (Nat.toDigits 10 n ++ rest) = (Nat.toDigits 10 n, rest) := by
  have hd : ∀ c ∈ Nat.toDigits 10 n, isDigit c = true := fun c hc => isDigit_toDigits hc
  have hr : rest.takeWhile isDigit = [] ∧ rest.dropWhile isDigit = rest := by
    cases rest with
    | nil => exact ⟨rfl, rfl⟩
    | cons c cs =>
      have hc := (h c (by simp)).1
      simp [hc]
  unfold readDigits
  rw [List.takeWhile_append_of_pos hd, List.dropWhile_append_of_pos hd, hr.1, hr.2, List.append_nil]

/-- No numeral starts with a superfluous zero. -/
theorem toDigits_head (n : Nat) :
    ¬ ((Nat.toDigits 10 n).head? = some '0' ∧ (Nat.toDigits 10 n).length ≠ 1) := by
  induction n using Nat.strongRecOn with
  | ind n ih =>
    by_cases h : n < 10
    · rw [Nat.toDigits_of_lt_base h]
      simp
    · rintro ⟨h0, -⟩
      rw [Nat.toDigits_of_base_le (by omega) (by omega), List.head?_append_of_ne_nil _
        Nat.toDigits_ne_nil] at h0
      have hlen : (Nat.toDigits 10 (n / 10)).length = 1 := by
        by_contra hne
        exact ih (n / 10) (by omega) ⟨h0, hne⟩
      obtain ⟨c, hc⟩ := List.length_eq_one_iff.mp hlen
      have hval := Nat.ofDigitChars_ten_toDigits (n := n / 10)
      rw [hc] at h0 hval
      have hc0 : c = '0' := by simpa using h0
      rw [hc0] at hval
      have : Nat.ofDigitChars 10 ['0'] 0 = 0 := by decide
      omega

theorem readNumber_toDigits (negative : Bool) (n : Nat) {rest : List Char} (h : Ends rest) :
    readNumber negative (Nat.toDigits 10 n ++ rest)
      = some (numberOf negative (Nat.toDigits 10 n) [] 0, rest) := by
  have hfrac : readFraction rest = some ([], rest) := by
    unfold readFraction
    split
    · exact absurd rfl (h '.' (by simp)).2.1
    · rfl
  have hexp : readExponent rest = some (0, rest) := by
    cases rest with
    | nil => rfl
    | cons c cs =>
      have hc := (h c (by simp)).2.2
      simp only [readExponent, hc.1, hc.2, or_self, if_false]
  have hds : ¬ (Nat.toDigits 10 n = [] ∨
      (Nat.toDigits 10 n).head? = some '0' ∧ (Nat.toDigits 10 n).length ≠ 1) :=
    fun hor => hor.elim Nat.toDigits_ne_nil (toDigits_head n)
  unfold readNumber
  rw [readDigits_toDigits n h]
  simp only [if_neg hds, hfrac, hexp, Option.bind_eq_bind, Option.bind_some, Option.pure_def]

theorem numberOf_toDigits (negative : Bool) {n : Nat} (h : n ≤ 9007199254740991)
    (hn : negative = true → n ≠ 0) :
    numberOf negative (Nat.toDigits 10 n) [] 0 = .num (if negative then -n else n) := by
  have hnear : nearestInteger? n 1 = some n := nearestInteger?_one (by omega)
  simp only [numberOf, List.append_nil, Nat.ofDigitChars_ten_toDigits, List.length_nil,
    Int.toNat_zero, Int.natCast_zero, Int.sub_zero, Int.neg_zero, pow_zero, Nat.mul_one, hnear]
  cases n with
  | zero =>
    have : negative = false := by simpa using hn
    subst this
    rfl
  | succ n => rfl

/-- The text of a value starts with a character that is no space and no
closing bracket. -/
theorem write_head (L : Layout) (depth : Nat) (v : Value) :
    ∃ c cs, L.write depth v = c :: cs ∧ isSpace c = false ∧ c ≠ ']' := by
  have hint (n : Int) : ∃ c cs, writeInt n = c :: cs ∧ isSpace c = false ∧ c ≠ ']' := by
    unfold writeInt
    split
    · exact ⟨'-', _, rfl, by decide, by decide⟩
    · obtain ⟨c, cs, hc⟩ :=
        List.exists_cons_of_ne_nil (Nat.toDigits_ne_nil (n := n.natAbs) (b := 10))
      have hd : isDigit c = true := isDigit_toDigits (hc ▸ List.mem_cons_self ..)
      refine ⟨c, cs, hc, ?_, fun h => ?_⟩
      · by_contra hs
        have : c = ' ' ∨ c = '\n' ∨ c = '\r' ∨ c = '\t' := by
          simpa only [isSpace, Bool.not_eq_false, Bool.or_eq_true, decide_eq_true_eq, or_assoc]
            using hs
        rcases this with rfl | rfl | rfl | rfl <;> revert hd <;> decide
      · subst h; revert hd; decide
  unfold Layout.write
  split
  all_goals first
    | exact hint _
    | exact ⟨_, _, rfl, by decide, by decide⟩

theorem skipSpace_cons {c : Char} {cs : List Char} (h : isSpace c = false) :
    skipSpace (c :: cs) = c :: cs := by
  simp [skipSpace, h]

/-- White space before a token is skipped. -/
theorem skipSpace_append {gap : List Char} (h : ∀ c ∈ gap, isSpace c = true) (cs : List Char) :
    skipSpace (gap ++ cs) = skipSpace cs := List.dropWhile_append_of_pos h

theorem readValue_gap {gap : List Char} (h : ∀ c ∈ gap, isSpace c = true) :
    ∀ (fuel : Nat) (cs : List Char), readValue fuel (gap ++ cs) = readValue fuel cs
  | 0, _ => rfl
  | fuel + 1, cs => by
    unfold readValue
    rw [skipSpace_append h]

theorem readMember_gap {gap : List Char} (h : ∀ c ∈ gap, isSpace c = true) :
    ∀ (fuel : Nat) (cs : List Char), readMember fuel (gap ++ cs) = readMember fuel cs
  | 0, _ => rfl
  | fuel + 1, cs => by
    unfold readMember
    rw [skipSpace_append h]

theorem readElements_gap {gap : List Char} (h : ∀ c ∈ gap, isSpace c = true) :
    ∀ (fuel : Nat) (cs : List Char), readElements fuel (gap ++ cs) = readElements fuel cs
  | 0, _ => rfl
  | fuel + 1, cs => by
    unfold readElements
    rw [skipSpace_append h]

theorem readMembers_gap {gap : List Char} (h : ∀ c ∈ gap, isSpace c = true) :
    ∀ (fuel : Nat) (cs : List Char), readMembers fuel (gap ++ cs) = readMembers fuel cs
  | 0, _ => rfl
  | fuel + 1, cs => by
    unfold readMembers
    rw [skipSpace_append h]

theorem ends_cons {c : Char} {cs : List Char} (h : c = ',' ∨ c = ']' ∨ c = '\x7d') :
    Ends (c :: cs) := by
  intro d hd
  have : d = c := by simpa [eq_comm] using hd
  subst this
  rcases h with rfl | rfl | rfl <;> decide

theorem ends_append {gap cs : List Char} (h : ∀ c ∈ gap, isSpace c = true) (hcs : Ends cs) :
    Ends (gap ++ cs) := by
  cases gap with
  | nil => exact hcs
  | cons c gap =>
    intro d hd
    have hdc : d = c := by simpa [eq_comm] using hd
    have hspace : c = ' ' ∨ c = '\n' ∨ c = '\r' ∨ c = '\t' := by
      simpa only [isSpace, Bool.or_eq_true, decide_eq_true_eq, or_assoc]
        using h c List.mem_cons_self
    rw [hdc]
    rcases hspace with rfl | rfl | rfl | rfl <;> decide

theorem ends_writeElements (L : Layout) (depth : Nat) (vs : List Value) (rest : List Char) :
    Ends (L.writeElements depth vs ++ rest) := by
  cases vs with
  | nil =>
    rw [Layout.writeElements, List.append_assoc]
    exact ends_append (L.line_space depth) (ends_cons (by simp))
  | cons v vs => exact ends_cons (by simp)

theorem ends_writeMembers (L : Layout) (depth : Nat) (fs : List (String × Value))
    (rest : List Char) :
    Ends (L.writeMembers depth fs ++ rest) := by
  cases fs with
  | nil =>
    rw [Layout.writeMembers, List.append_assoc]
    exact ends_append (L.line_space depth) (ends_cons (by simp))
  | cons f fs => exact ends_cons (by simp)

theorem setField_of_notMem {fs : List (String × Value)} {f : String × Value}
    (h : f.1 ∉ fs.map Prod.fst) : setField fs f = fs ++ [f] := by
  unfold setField
  rw [if_neg]
  intro hany
  obtain ⟨g, hg, he⟩ := List.any_eq_true.mp hany
  exact h (List.mem_map.mpr ⟨g, hg, by simpa using he⟩)

theorem foldl_setField : ∀ (fs acc : List (String × Value)), ((acc ++ fs).map Prod.fst).Nodup →
    fs.foldl setField acc = acc ++ fs
  | [], acc, _ => by simp
  | f :: fs, acc, h => by
    have hf : f.1 ∉ acc.map Prod.fst := by
      rw [List.map_append, List.map_cons, List.nodup_append] at h
      exact fun hmem => h.2.2 _ hmem _ (List.mem_cons_self ..) rfl
    rw [List.foldl_cons, setField_of_notMem hf, foldl_setField fs, List.append_assoc]
    · rfl
    · simpa using h

theorem readString_write (k : String) (fuel : Nat) (rest : List Char)
    (h : (writeString k).length ≤ fuel + 1) :
    readChars fuel (k.toList.flatMap escape ++ '\x22' :: rest) = some (k.toList, rest) := by
  have hlen := length_le_flatMap_escape k.toList
  have hk : (writeString k).length = (k.toList.flatMap escape).length + 2 := by simp [writeString]
  exact readChars_string _ _ _ (by omega)

theorem readNumber_write {n : Int} (h : n.natAbs ≤ 9007199254740991) (fuel : Nat) {rest : List Char}
    (hr : Ends rest) : readValue (fuel + 1) (writeInt n ++ rest) = some (.num n, rest) := by
  unfold writeInt
  by_cases hn : n < 0
  · rw [if_pos hn, List.cons_append]
    unfold readValue
    rw [skipSpace_cons (by decide)]
    have hnum : readNumber true (Nat.toDigits 10 n.natAbs ++ rest) = some (.num n, rest) := by
      rw [readNumber_toDigits true n.natAbs hr, numberOf_toDigits true h (by omega), if_pos rfl]
      rw [show (-(n.natAbs : Int)) = n by omega]
    exact hnum
  · rw [if_neg hn]
    have hnum : readNumber false (Nat.toDigits 10 n.natAbs ++ rest) = some (.num n, rest) := by
      rw [readNumber_toDigits false n.natAbs hr, numberOf_toDigits false h (by simp)]
      rw [if_neg (by decide), show (n.natAbs : Int) = n by omega]
    -- the first character is a digit, so only the last case of the reader is left
    obtain ⟨d, ds, hd⟩ := List.exists_cons_of_ne_nil (Nat.toDigits_ne_nil (n := n.natAbs) (b := 10))
    have hdigit : isDigit d = true := isDigit_toDigits (hd ▸ List.mem_cons_self ..)
    have hne {c : Char} (hc : isDigit c = false) : ¬ d = c := fun e => by
      rw [e, hc] at hdigit
      cases hdigit
    have hspace : isSpace d = false := by
      simp [isSpace, hne (c := ' ') (by decide), hne (c := '\n') (by decide),
        hne (c := '\r') (by decide), hne (c := '\t') (by decide)]
    rw [hd, List.cons_append] at hnum ⊢
    unfold readValue
    rw [skipSpace_cons hspace]
    simp only [if_neg (hne (c := 'n') (by decide)), if_neg (hne (c := 't') (by decide)),
      if_neg (hne (c := 'f') (by decide)), if_neg (hne (c := '\x22') (by decide)),
      if_neg (hne (c := '[') (by decide)), if_neg (hne (c := '\x7b') (by decide)),
      if_neg (hne (c := '-') (by decide)), hnum]

theorem readValue_bracket (fuel : Nat) {cs : List Char} (h : (skipSpace cs).head? ≠ some ']') :
    readValue (fuel + 1) ('[' :: cs) = (readValue fuel cs).bind fun p =>
      (readElements fuel p.2).bind fun q => some (.arr (p.1 :: q.1), q.2) := by
  conv_lhs => unfold readValue
  rw [skipSpace_cons (by decide)]
  simp only [show ¬ '[' = 'n' by decide, show ¬ '[' = 't' by decide, show ¬ '[' = 'f' by decide,
    show ¬ '[' = '\x22' by decide, if_false, if_true, if_neg h]
  rfl

theorem readValue_brace (fuel : Nat) {cs : List Char} (h : (skipSpace cs).head? ≠ some '\x7d') :
    readValue (fuel + 1) ('\x7b' :: cs) = (readMember fuel cs).bind fun p =>
      (readMembers fuel p.2).bind fun q => some (.obj ((p.1 :: q.1).foldl setField []), q.2) := by
  unfold readValue
  rw [skipSpace_cons (by decide)]
  simp only [show ¬ '\x7b' = 'n' by decide, show ¬ '\x7b' = 't' by decide,
    show ¬ '\x7b' = 'f' by decide, show ¬ '\x7b' = '\x22' by decide, show ¬ '\x7b' = '[' by decide,
    if_false, if_true, if_neg h]
  rfl

theorem readMember_quote (fuel : Nat) (cs : List Char) :
    readMember (fuel + 1) ('\x22' :: cs) = (readChars fuel cs).bind fun p =>
      match skipSpace p.2 with
      | ':' :: cs => (readValue fuel cs).bind fun q => some ((String.ofList p.1, q.1), q.2)
      | _ => none := by
  unfold readMember
  rw [skipSpace_cons (by decide)]
  rfl

section

variable (L : Layout)

mutual

/-- A written value is read back, whatever the layout and whatever follows it. -/
theorem readValue_write :
    ∀ (v : Value) (depth : Nat), v.Json → ∀ (fuel : Nat) (rest : List Char), Ends rest →
    (L.write depth v).length ≤ fuel → readValue fuel (L.write depth v ++ rest) = some (v, rest)
  | v, depth, _, 0, _, _, hf => by
    obtain ⟨c, cs, hc, -⟩ := write_head L depth v
    rw [hc] at hf
    simp at hf
  | .null, _, _, fuel + 1, rest, _, _ => by
    simp [Layout.write, readValue, readLiteral, skipSpace, isSpace]
  | .bool true, _, _, fuel + 1, rest, _, _ => by
    simp [Layout.write, readValue, readLiteral, skipSpace, isSpace]
  | .bool false, _, _, fuel + 1, rest, _, _ => by
    simp [Layout.write, readValue, readLiteral, skipSpace, isSpace]
  | .num n, _, hj, fuel + 1, rest, hr, _ => by
    cases hj with
    | num h => exact readNumber_write h fuel hr
  | .str s, _, _, fuel + 1, rest, _, hf => by
    have hs := readString_write s fuel rest hf
    unfold readValue
    simp only [Layout.write, writeString, List.cons_append, List.append_assoc, List.nil_append]
    rw [skipSpace_cons (by decide)]
    simp [hs]
  | .arr [], _, _, fuel + 1, rest, _, _ => by simp [Layout.write, readValue, skipSpace, isSpace]
  | .arr (v :: vs), depth, hj, fuel + 1, rest, hr, hf => by
    cases hj with
    | arr hj =>
      simp only [Layout.write, List.length_cons, List.length_append] at hf
      have hv := readValue_write v (depth + 1) (hj v (List.mem_cons_self ..)) fuel
        (L.writeElements depth vs ++ rest) (ends_writeElements L depth vs rest) (by omega)
      have hvs := readElements_write vs depth
        (fun w hw => hj w (List.mem_cons_of_mem _ hw)) fuel rest
        (by omega)
      have hopen : (skipSpace (L.line (depth + 1) ++ (L.write (depth + 1) v ++
          (L.writeElements depth vs ++ rest)))).head? ≠ some ']' := by
        obtain ⟨c, cs, hc, hspace, hclose⟩ := write_head L (depth + 1) v
        rw [skipSpace_append (L.line_space _), hc, List.cons_append, skipSpace_cons hspace,
          List.head?_cons]
        exact fun e => hclose (Option.some.inj e)
      simp only [Layout.write, List.cons_append, List.append_assoc]
      rw [readValue_bracket fuel hopen, readValue_gap (L.line_space _), hv, Option.bind_some, hvs,
        Option.bind_some]
  | .obj [], _, _, fuel + 1, rest, _, _ => by simp [Layout.write, readValue, skipSpace, isSpace]
  | .obj ((k, v) :: fs), depth, hj, fuel + 1, rest, hr, hf => by
    cases hj with
    | obj hn hj =>
      simp only [Layout.write, List.length_cons, List.length_append] at hf
      have hm := readMember_write k v depth (hj (k, v) (List.mem_cons_self ..)) fuel
        (L.writeMembers depth fs ++ rest) (ends_writeMembers L depth fs rest) (by simp; omega)
      have hms := readMembers_write fs depth
        (fun g hg => hj g (List.mem_cons_of_mem _ hg)) fuel rest
        (by omega)
      have hopen : (skipSpace
          (L.line (depth + 1) ++ (writeString k ++ ':' :: (L.colon ++ (L.write (depth + 1) v ++
          (L.writeMembers depth fs ++ rest)))))).head? ≠ some '\x7d' := by
        unfold writeString
        rw [skipSpace_append (L.line_space _), List.cons_append, skipSpace_cons (by decide),
          List.head?_cons]
        decide
      simp only [Layout.write, List.cons_append, List.append_assoc]
      rw [readValue_brace fuel hopen, readMember_gap (L.line_space _), hm, Option.bind_some, hms,
        Option.bind_some, foldl_setField _ [] hn, List.nil_append]
  | .undefined, _, hj, _ + 1, _, _, _ => by cases hj
  | .negZero, _, hj, _ + 1, _, _, _ => by cases hj
  | .fractional, _, hj, _ + 1, _, _, _ => by cases hj
  | .host, _, hj, _ + 1, _, _, _ => by cases hj

theorem readElements_write : ∀ (vs : List Value) (depth : Nat), (∀ v ∈ vs, v.Json) →
    ∀ (fuel : Nat) (rest : List Char), (L.writeElements depth vs).length ≤ fuel →
    readElements fuel (L.writeElements depth vs ++ rest) = some (vs, rest)
  | [], _, _, 0, _, hf => by simp [Layout.writeElements] at hf
  | [], depth, _, fuel + 1, rest, _ => by
    rw [Layout.writeElements, List.append_assoc, readElements_gap (L.line_space depth)]
    simp [readElements, skipSpace, isSpace]
  | v :: vs, _, hj, 0, rest, hf => by simp [Layout.writeElements] at hf
  | v :: vs, depth, hj, fuel + 1, rest, hf => by
    simp only [Layout.writeElements, List.length_cons, List.length_append] at hf
    have hv := readValue_write v (depth + 1) (hj v (List.mem_cons_self ..)) fuel
      (L.writeElements depth vs ++ rest) (ends_writeElements L depth vs rest) (by omega)
    have hvs := readElements_write vs depth (fun w hw => hj w (List.mem_cons_of_mem _ hw)) fuel rest
      (by omega)
    unfold readElements
    simp only [Layout.writeElements, List.cons_append, List.append_assoc]
    rw [skipSpace_cons (by decide)]
    simp only [readValue_gap (L.line_space (depth + 1)), hv, hvs, Option.bind_eq_bind,
      Option.bind_some, Option.pure_def]

theorem readMember_write (k : String) (v : Value) (depth : Nat) (hj : v.Json) :
    ∀ (fuel : Nat) (rest : List Char), Ends rest →
    (writeString k ++ ':' :: (L.colon ++ L.write (depth + 1) v)).length ≤ fuel + 1 →
    readMember fuel (writeString k ++ ':' :: (L.colon ++ (L.write (depth + 1) v ++ rest)))
      = some ((k, v), rest)
  | 0, _, _, hf => by simp [writeString] at hf
  | fuel + 1, rest, hr, hf => by
    simp only [List.length_append, List.length_cons, writeString, List.length_nil] at hf
    have hk := readChars_string k.toList fuel (':' :: (L.colon ++ (L.write (depth + 1) v ++ rest)))
      (by have := length_le_flatMap_escape k.toList; omega)
    have hv := readValue_write v (depth + 1) hj fuel rest hr (by omega)
    simp only [writeString, List.cons_append, List.append_assoc, List.nil_append]
    rw [readMember_quote, hk, Option.bind_some, skipSpace_cons (by decide)]
    simp only [readValue_gap L.colon_space, hv, Option.bind_some, String.ofList_toList]

theorem readMembers_write : ∀ (fs : List (String × Value)) (depth : Nat), (∀ f ∈ fs, f.2.Json) →
    ∀ (fuel : Nat) (rest : List Char), (L.writeMembers depth fs).length ≤ fuel →
    readMembers fuel (L.writeMembers depth fs ++ rest) = some (fs, rest)
  | [], _, _, 0, _, hf => by simp [Layout.writeMembers] at hf
  | [], depth, _, fuel + 1, rest, _ => by
    rw [Layout.writeMembers, List.append_assoc, readMembers_gap (L.line_space depth)]
    simp [readMembers, skipSpace, isSpace]
  | (k, v) :: fs, _, hj, 0, rest, hf => by simp [Layout.writeMembers] at hf
  | (k, v) :: fs, depth, hj, fuel + 1, rest, hf => by
    simp only [Layout.writeMembers, List.length_cons, List.length_append] at hf
    have hm := readMember_write k v depth (hj (k, v) (List.mem_cons_self ..)) fuel
      (L.writeMembers depth fs ++ rest) (ends_writeMembers L depth fs rest) (by simp; omega)
    have hms := readMembers_write fs depth (fun g hg => hj g (List.mem_cons_of_mem _ hg)) fuel rest
      (by omega)
    unfold readMembers
    simp only [Layout.writeMembers, List.cons_append, List.append_assoc]
    rw [skipSpace_cons (by decide)]
    simp only [readMember_gap (L.line_space (depth + 1)), hm, hms, Option.bind_eq_bind,
      Option.bind_some, Option.pure_def]

end

end

end Json

/-- `JSON.stringify` of a value that is not undefined. -/
def stringify (v : Value) : String := String.ofList (Json.write v)

/-- The text of a value with the keys of every object in order. -/
def canonicalJson (v : Value) : String := stringify v.canonical

/-- `JSON.parse`. Every character of the text is worth one unit of fuel. -/
def parse (text : String) : Option Value :=
  match Json.readValue (text.toList.length + 1) text.toList with
  | some (v, cs) => if Json.skipSpace cs = [] then some v else none
  | none => none

/-- JSON data survives being written and read, with white space around every
token and after the last. -/
theorem parse_layout (L : Json.Layout) {v : Value} (h : v.Json) {tail : List Char}
    (htail : ∀ c ∈ tail, Json.isSpace c = true) :
    parse (String.ofList (L.write 0 v ++ tail)) = some v := by
  have hends : Json.Ends tail := by
    have := Json.ends_append htail (show Json.Ends [] from fun c hc => by cases hc)
    rwa [List.append_nil] at this
  have hread := Json.readValue_write L v 0 h ((L.write 0 v ++ tail).length + 1) tail hends
    (by rw [List.length_append]; omega)
  have hrest : Json.skipSpace tail = [] := by
    have := Json.skipSpace_append htail []
    rwa [List.append_nil] at this
  unfold parse
  rw [String.toList_ofList, hread]
  simp only [hrest, if_true]

/-- JSON data survives being written and read. -/
theorem parse_stringify {v : Value} (h : v.Json) : parse (stringify v) = some v := by
  have hparse := @parse_layout Json.Layout.compact v h [] (by simp)
  rwa [Json.Layout.write_compact, List.append_nil] at hparse

theorem parse_canonicalJson {v : Value} (h : v.Json) : parse (canonicalJson v) = some v.canonical :=
  parse_stringify h.canonical

/-- `canonicalJson(left) === canonicalJson(right)`. -/
def sameJson (v w : Value) : Bool := canonicalJson v == canonicalJson w

/-- Two values have one canonical text exactly when they are the same data. -/
theorem canonicalJson_inj {v w : Value} (hv : v.Json) (hw : w.Json) :
    canonicalJson v = canonicalJson w ↔ Value.Same v w := by
  constructor
  · intro h
    have hparse := parse_canonicalJson hv
    rw [h, parse_canonicalJson hw] at hparse
    exact (Option.some.inj hparse).symm
  · intro h
    exact congrArg stringify h

theorem sameJson_iff {v w : Value} (hv : v.Json) (hw : w.Json) :
    sameJson v w = true ↔ Value.Same v w := by
  unfold sameJson
  rw [beq_iff_eq, canonicalJson_inj hv hw]

end Js
