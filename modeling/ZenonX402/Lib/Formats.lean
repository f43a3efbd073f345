/-
# Texts of lengths, bytes and instants

What JavaScript programs check of texts beyond their characters: `length`
counts UTF-16 units (`utf16Length`), base64 stands for bytes and is canonical
when encoding gives it back (`base64Bytes?`, `base64Text`), and the texts that
`toISOString` gives are read to their instant in milliseconds (`isoInstant?`).

Key definitions: `utf16Length`, `base64Bytes?`, `base64Text`, `utf8Bytes`, `isoInstant?`.
Key theorems: `utf8ByteSize_le`, `base64Bytes?_base64Text`, `size_base64Text`,
`utf8Text?_utf8Bytes`.
-/
import ZenonX402.Lib.Text
import Mathlib.Tactic.Linarith

namespace Js

/-! ### UTF-16 -/

def utf16Size (c : Char) : Nat := if c.toNat < 0x10000 then 1 else 2

def utf16Count (cs : List Char) : Nat := (cs.map utf16Size).sum

/-- `s.length`. -/
def utf16Length (s : String) : Nat := utf16Count s.toList

theorem utf16Count_cons (c : Char) (cs : List Char) :
    utf16Count (c :: cs) = utf16Size c + utf16Count cs := by
  rw [utf16Count, List.map_cons, List.sum_cons]
  rfl

theorem utf8Size_le (c : Char) : c.utf8Size ≤ 3 * utf16Size c := by
  have hfour := c.utf8Size_le_four
  unfold utf16Size
  by_cases h : c.toNat < 0x10000
  · have hval : c.val ≤ 0xffff := by
      rw [UInt32.le_iff_toNat_le]
      have htoNat : c.val.toNat = c.toNat := rfl
      have hmax : (0xffff : UInt32).toNat = 0xffff := rfl
      omega
    rw [if_pos h, Char.utf8Size]
    split
    · omega
    · split
      · omega
      · split
        · omega
        · contradiction
  · rw [if_neg h]
    omega

theorem utf8Len_le : ∀ cs : List Char, String.utf8Len cs ≤ 3 * utf16Count cs
  | [] => le_rfl
  | c :: cs => by
    have hc := utf8Size_le c
    have hcs := utf8Len_le cs
    rw [String.utf8Len_cons, utf16Count_cons]
    omega

/-- A text has at most three bytes for each of its units. -/
theorem utf8ByteSize_le (s : String) : s.utf8ByteSize ≤ 3 * utf16Length s := by
  rw [← String.utf8Len_toList]
  exact utf8Len_le s.toList

theorem utf16Size_le (c : Char) : utf16Size c ≤ c.utf8Size := by
  have hpos := c.utf8Size_pos
  unfold utf16Size
  split
  · exact hpos
  next hlarge =>
    have hval : 0x7f < c.val.toNat := Nat.lt_of_lt_of_le (by decide) (Nat.le_of_not_lt hlarge)
    have hascii : ¬c.utf8Size = 1 := fun h => by
      have hle := UInt32.le_iff_toNat_le.mp (Char.utf8Size_eq_one_iff.mp h)
      exact Nat.lt_irrefl _ (hval.trans_le hle)
    omega

/-- No text has more UTF-16 code units than bytes. -/
theorem utf16Length_le (s : String) : utf16Length s ≤ s.utf8ByteSize := by
  rw [← String.utf8Len_toList, utf16Length]
  induction s.toList with
  | nil => exact Nat.zero_le _
  | cons c cs ih =>
    rw [utf16Count_cons, String.utf8Len_cons]
    exact (Nat.add_le_add (utf16Size_le c) ih).trans_eq (Nat.add_comm _ _)

/-! ### Base64 -/

namespace Base64

/-- The six bits of a character of the alphabet. -/
def sextet? (c : Char) : Option Nat :=
  if 'A' ≤ c ∧ c ≤ 'Z' then some (c.toNat - 'A'.toNat)
  else if 'a' ≤ c ∧ c ≤ 'z' then some (c.toNat - 'a'.toNat + 26)
  else if '0' ≤ c ∧ c ≤ '9' then some (c.toNat - '0'.toNat + 52)
  else if c = '+' then some 62
  else if c = '/' then some 63
  else none

def letter (n : Nat) : Char :=
  if n < 26 then Char.ofNat ('A'.toNat + n)
  else if n < 52 then Char.ofNat ('a'.toNat + (n - 26))
  else if n < 62 then Char.ofNat ('0'.toNat + (n - 52))
  else if n = 62 then '+'
  else '/'

/-- The bytes of a last group, of which padding stands for the rest. -/
def tail? : List Char → Option (List Nat)
  | [a, b, '=', '='] => do
    let a ← sextet? a
    let b ← sextet? b
    return [a * 4 + b / 16]
  | [a, b, c, '='] => do
    let a ← sextet? a
    let b ← sextet? b
    let c ← sextet? c
    return [a * 4 + b / 16, b % 16 * 16 + c / 4]
  | _ => none

/-- The three bytes of a group without padding. -/
def group? (a b c d : Char) : Option (List Nat) := do
  let a ← sextet? a
  let b ← sextet? b
  let c ← sextet? c
  let d ← sextet? d
  return [a * 4 + b / 16, b % 16 * 16 + c / 4, c % 4 * 64 + d]

def bytes? : List Char → Option (List Nat)
  | [] => some []
  | a :: b :: c :: d :: rest => match group? a b c d with
    | some bytes => do
      let more ← bytes? rest
      return bytes ++ more
    | none => if rest = [] then tail? [a, b, c, d] else none
  | _ => none

def text : List Nat → List Char
  | a :: b :: c :: rest =>
    letter (a / 4) :: letter (a % 4 * 16 + b / 16) :: letter (b % 16 * 4 + c / 64)
      :: letter (c % 64) :: text rest
  | [a, b] => [letter (a / 4), letter (a % 4 * 16 + b / 16), letter (b % 16 * 4), '=']
  | [a] => [letter (a / 4), letter (a % 4 * 16), '=', '=']
  | [] => []

theorem sextet?_letter {n : Nat} (h : n < 64) : sextet? (letter n) = some n := by
  have hall : ∀ n : Fin 64, sextet? (letter n) = some n.val := by decide
  exact hall ⟨n, h⟩

theorem sextet?_pad : sextet? '=' = none := by decide

theorem letter_ne_pad {n : Nat} (h : n < 64) : letter n ≠ '=' := by
  intro heq
  have hletter := sextet?_letter h
  rw [heq, sextet?_pad] at hletter
  cases hletter

/-- Three bytes are the group that they are written as. -/
theorem group?_letters {a b c : Nat} (ha : a < 256) (hb : b < 256) (hc : c < 256) :
    group? (letter (a / 4)) (letter (a % 4 * 16 + b / 16)) (letter (b % 16 * 4 + c / 64))
    (letter (c % 64)) = some [a, b, c] := by
  have h1 : a / 4 * 4 + (a % 4 * 16 + b / 16) / 16 = a := by omega
  have h2 : (a % 4 * 16 + b / 16) % 16 * 16 + (b % 16 * 4 + c / 64) / 4 = b := by omega
  have h3 : (b % 16 * 4 + c / 64) % 4 * 64 + c % 64 = c := by omega
  simp only [group?, sextet?_letter (show a / 4 < 64 by omega),
    sextet?_letter (show a % 4 * 16 + b / 16 < 64 by omega),
    sextet?_letter (show b % 16 * 4 + c / 64 < 64 by omega),
    sextet?_letter (show c % 64 < 64 by omega), Option.bind_eq_bind,
    Option.bind_some, Option.pure_def, h1, h2, h3]

/-- Bytes are read back from their text. -/
theorem bytes?_text : ∀ {bytes : List Nat}, (∀ b ∈ bytes, b < 256) →
    bytes? (text bytes) = some bytes
  | [], _ => rfl
  | [a], h => by
    have ha := h a (List.mem_singleton_self a)
    have h1 := sextet?_letter (show a / 4 < 64 by omega)
    have h2 := sextet?_letter (show a % 4 * 16 < 64 by omega)
    have hsum : a / 4 * 4 + a % 4 * 16 / 16 = a := by omega
    simp only [text, bytes?, group?, h1, h2, sextet?_pad, Option.bind_eq_bind, Option.bind_some,
      Option.bind_none, if_true, tail?, Option.pure_def, hsum]
  | [a, b], h => by
    have ha := h a (by simp)
    have hb := h b (by simp)
    have h1 := sextet?_letter (show a / 4 < 64 by omega)
    have h2 := sextet?_letter (show a % 4 * 16 + b / 16 < 64 by omega)
    have h3 := sextet?_letter (show b % 16 * 4 < 64 by omega)
    have hpad := letter_ne_pad (show b % 16 * 4 < 64 by omega)
    have hfirst : a / 4 * 4 + (a % 4 * 16 + b / 16) / 16 = a := by omega
    have hsecond : (a % 4 * 16 + b / 16) % 16 * 16 + b % 16 * 4 / 4 = b := by omega
    simp only [text, bytes?, group?, h1, h2, h3, sextet?_pad, Option.bind_eq_bind, Option.bind_some,
      Option.bind_none, if_true]
    rw [tail?.eq_2 _ _ _ hpad]
    simp only [h1, h2, h3, Option.bind_eq_bind, Option.bind_some, Option.pure_def, hfirst, hsecond]
  | a :: b :: c :: rest, h => by
    have hgroup := group?_letters (h a (by simp)) (h b (by simp)) (h c (by simp))
    have hrest := @bytes?_text rest fun x hx => h x (by simp [hx])
    simp only [text, bytes?, hgroup, hrest, Option.bind_eq_bind, Option.bind_some, Option.pure_def,
      List.cons_append, List.nil_append]

theorem length_text : ∀ bytes : List Nat, (text bytes).length = (bytes.length + 2) / 3 * 4
  | [] => rfl
  | [_] => by simp [text]
  | [_, _] => by simp [text]
  | a :: b :: c :: rest => by
    have hrest := length_text rest
    simp only [text, List.length_cons, hrest]
    omega

/-- Letters and padding. -/
theorem mem_text : ∀ {bytes : List Nat}, (∀ b ∈ bytes, b < 256) → ∀ c ∈ text bytes, c = '=' ∨ ∃ n,
    n < 64 ∧ c = letter n
  | [], _, c, hc => by cases hc
  | [a], h, c, hc => by
    have ha := h a (List.mem_singleton_self a)
    simp only [text, List.mem_cons, List.not_mem_nil, or_false] at hc
    rcases hc with rfl | rfl | rfl | rfl
    · exact .inr ⟨a / 4, by omega, rfl⟩
    · exact .inr ⟨a % 4 * 16, by omega, rfl⟩
    · exact .inl rfl
    · exact .inl rfl
  | [a, b], h, c, hc => by
    have ha := h a (by simp)
    have hb := h b (by simp)
    simp only [text, List.mem_cons, List.not_mem_nil, or_false] at hc
    rcases hc with rfl | rfl | rfl | rfl
    · exact .inr ⟨a / 4, by omega, rfl⟩
    · exact .inr ⟨a % 4 * 16 + b / 16, by omega, rfl⟩
    · exact .inr ⟨b % 16 * 4, by omega, rfl⟩
    · exact .inl rfl
  | a :: b :: d :: rest, h, c, hc => by
    have ha := h a (by simp)
    have hb := h b (by simp)
    simp only [text, List.mem_cons] at hc
    rcases hc with rfl | rfl | rfl | rfl | hc
    · exact .inr ⟨a / 4, by omega, rfl⟩
    · exact .inr ⟨a % 4 * 16 + b / 16, by omega, rfl⟩
    · exact .inr ⟨b % 16 * 4 + d / 64, by have := h d (by simp); omega, rfl⟩
    · exact .inr ⟨d % 64, by omega, rfl⟩
    · exact @mem_text rest (fun x hx => h x (by simp [hx])) c hc

theorem letter_ascii {n : Nat} (h : n < 64) :
    (letter n).utf8Size = 1 ∧ utf16Size (letter n) = 1 := by
  have hall : ∀ n : Fin 64, (letter n).utf8Size = 1 ∧ utf16Size (letter n) = 1 := by decide
  exact hall ⟨n, h⟩

end Base64

/-- `Buffer.from(s, 'base64')` of a text of whole groups. -/
def base64Bytes? (s : String) : Option (List Nat) := Base64.bytes? s.toList

/-- `bytes.toString('base64')`. -/
def base64Text (bytes : List Nat) : String := String.ofList (Base64.text bytes)

/-- `Buffer.from(s, 'utf8')`. -/
def utf8Bytes (s : String) : List Nat := s.toByteArray.data.toList.map UInt8.toNat

/-- The text of bytes, if they are one. -/
def utf8Text? (bytes : List Nat) : Option String :=
  String.fromUTF8? ⟨(bytes.map UInt8.ofNat).toArray⟩

theorem length_utf8Bytes (s : String) : (utf8Bytes s).length = s.utf8ByteSize := by
  rw [utf8Bytes, List.length_map]
  rfl

theorem utf8Bytes_lt (s : String) : ∀ b ∈ utf8Bytes s, b < 256 := by
  intro b hb
  obtain ⟨u, _, rfl⟩ := List.mem_map.mp hb
  exact u.toNat_lt

theorem utf8Text?_utf8Bytes (s : String) : utf8Text? (utf8Bytes s) = some s := by
  have hbytes : (utf8Bytes s).map UInt8.ofNat = s.toByteArray.data.toList := by
    rw [utf8Bytes, List.map_map]
    exact List.map_congr_left (fun u _ => UInt8.ofNat_toNat) |>.trans (List.map_id _)
  unfold utf8Text?
  rw [hbytes, Array.toArray_toList]
  exact dif_pos s.isValidUTF8

/-- The text of bytes in base64 has one unit and one byte for each character. -/
theorem size_base64Text {bytes : List Nat} (h : ∀ b ∈ bytes, b < 256) :
    (base64Text bytes).utf8ByteSize = (bytes.length + 2) / 3 * 4 ∧ utf16Length (base64Text bytes)
      = (bytes.length + 2) / 3 * 4 := by
  have hsizes (c : Char) (hc : c ∈ Base64.text bytes) : c.utf8Size = 1 ∧ utf16Size c = 1 := by
    rcases Base64.mem_text h c hc with rfl | ⟨n, hn, rfl⟩
    · decide
    · exact Base64.letter_ascii hn
  rw [base64Text, utf16Length, String.toList_ofList, String.utf8ByteSize_ofList,
    ← Base64.length_text]
  generalize Base64.text bytes = cs at hsizes
  induction cs with
  | nil => exact ⟨rfl, rfl⟩
  | cons c cs ih =>
    obtain ⟨h8, h16⟩ := hsizes c (List.mem_cons_self ..)
    obtain ⟨ih8, ih16⟩ := ih fun d hd => hsizes d (List.mem_cons_of_mem _ hd)
    rw [String.utf8Len_cons, utf16Count_cons, List.length_cons, ih8, ih16, h8, h16]
    omega

theorem base64Bytes?_base64Text {bytes : List Nat} (h : ∀ b ∈ bytes, b < 256) :
    base64Bytes? (base64Text bytes) = some bytes := by
  rw [base64Bytes?, base64Text, String.toList_ofList]
  exact Base64.bytes?_text h

/-- `bytes.toString('hex')`. -/
def hexText (bytes : List Nat) : String :=
  String.ofList (bytes.flatMap fun b => [Nat.digitChar (b / 16), Nat.digitChar (b % 16)])

/-! ### Instants -/

namespace Calendar

def isLeap (year : Nat) : Bool := year % 4 = 0 && (year % 100 ≠ 0 || year % 400 = 0)

def daysInMonth (year month : Nat) : Nat :=
  if month = 2 then if isLeap year then 29 else 28
  else if month = 4 ∨ month = 6 ∨ month = 9 ∨ month = 11 then 30
  else 31

/-- The days from the first of January of year 0 to that of `year`. -/
def daysBeforeYear (year : Nat) : Nat :=
  365 * year + (year + 3) / 4 - (year + 99) / 100 + (year + 399) / 400

def daysBeforeMonth (year month : Nat) : Nat :=
  ((List.range (month - 1)).map fun m => daysInMonth year (m + 1)).sum

/-- The days from the first of January 1970. -/
def epochDay (year month day : Nat) : Int :=
  (daysBeforeYear year + daysBeforeMonth year month + day - 1 : Nat) - (719528 : Int)

end Calendar

/-- The numeral that these characters write, digits all of them. -/
def decimal? (cs : List Char) : Option Nat :=
  if cs.all Json.isDigit then some (Nat.ofDigitChars 10 cs 0) else none

/-- The instant, in milliseconds from 1970 on, of a text that `toISOString` gives for a year of four
digits: `YYYY-MM-DDTHH:mm:ss.sssZ`. -/
def isoInstant? (s : String) : Option Int := match s.toList with
  | [y1, y2, y3, y4, '-', m1, m2, '-', d1, d2, 'T', h1, h2, ':', n1, n2, ':', s1, s2, '.', f1, f2,
      f3, 'Z'] => do
    let year ← decimal? [y1, y2, y3, y4]
    let month ← decimal? [m1, m2]
    let day ← decimal? [d1, d2]
    let hour ← decimal? [h1, h2]
    let minute ← decimal? [n1, n2]
    let second ← decimal? [s1, s2]
    let milli ← decimal? [f1, f2, f3]
    if 1 ≤ month ∧ month ≤ 12 ∧ 1 ≤ day ∧ day ≤ Calendar.daysInMonth year month ∧ hour < 24
      ∧ minute < 60 ∧ second < 60
    then some (((Calendar.epochDay year month day * 24 + hour) * 60 + minute) * 60000 + second
      * 1000 + milli)
    else none
  | _ => none

end Js
