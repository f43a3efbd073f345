/-
# The shapes of texts

The anchored regular expressions a program checks its texts with, by the few
forms they have: one first character and then others (`headTail`, for
`/^[A][B]{0,n}$/`), a prefix and then a fixed number of characters of one class
(`prefixed`), characters of one class throughout (`allOf`). A digest is taken
by a function that is handed in: `Sha256` is what is known of it, that it gives
64 lowercase hexadecimal digits.

Key definitions: `headTail`, `prefixed`, `allOf`, `Sha256`.
Key theorems: `prefixed_append`, `headTail_append`.
-/
import ZenonX402.Lib.Json
import Mathlib.Data.List.Infix

namespace Js
namespace Text

/-! ### Classes of characters -/

def isUpper (c : Char) : Bool := 'A' ≤ c && c ≤ 'Z'

def isLower (c : Char) : Bool := 'a' ≤ c && c ≤ 'z'

def isDigit (c : Char) : Bool := '0' ≤ c && c ≤ '9'

/-- `[A-Za-z0-9]`. -/
def isAlnum (c : Char) : Bool := isUpper c || isLower c || isDigit c

/-- `[0-9a-f]`. -/
def isHexLower (c : Char) : Bool := isDigit c || 'a' ≤ c && c ≤ 'f'

/-- One of the characters of `s`. -/
def oneOf (s : String) (c : Char) : Bool := s.toList.contains c

/-! ### Shapes -/

/-- `/^[first][rest]{0,max}$/`. -/
def headTail (first rest : Char → Bool) (max : Nat) (s : String) : Bool := match s.toList with
  | [] => false
  | c :: cs => first c && cs.all rest && decide (cs.length ≤ max)

/-- `/^pre[cls]{count}$/`. -/
def prefixed (pre : String) (cls : Char → Bool) (count : Nat) (s : String) : Bool :=
  pre.toList.isPrefixOf s.toList && (s.toList.drop pre.toList.length).all cls
    && decide ((s.toList.drop pre.toList.length).length = count)

/-- `/^[cls]{min,max}$/`. -/
def allOf (cls : Char → Bool) (min max : Nat) (s : String) : Bool :=
  s.toList.all cls && decide (min ≤ s.toList.length ∧ s.toList.length ≤ max)

/-- `s.includes(part)`. -/
def includes (part s : String) : Bool := s.toList.tails.any fun t => part.toList.isPrefixOf t

/-- 64 lowercase hexadecimal digits. -/
def isHash (s : String) : Bool := allOf isHexLower 64 64 s

/-- `/^[1-9][0-9]*$/`. -/
def isPositiveDecimal (s : String) : Bool := match s.toList with
  | [] => false
  | c :: cs => isDigit c && c != '0' && cs.all isDigit

theorem isHash_iff {s : String} :
    isHash s = true ↔ (∀ c ∈ s.toList, isHexLower c = true) ∧ s.toList.length = 64 := by
  unfold isHash allOf
  rw [Bool.and_eq_true, List.all_eq_true, decide_eq_true_eq]
  constructor
  · rintro ⟨h, h1, h2⟩
    exact ⟨h, by omega⟩
  · rintro ⟨h, hlen⟩
    exact ⟨h, by omega, by omega⟩

/-- A prefix before a hash. -/
theorem prefixed_append (pre : String) {s : String} (h : isHash s = true) :
    prefixed pre isHexLower 64 (pre ++ s) = true := by
  obtain ⟨hall, hlen⟩ := isHash_iff.mp h
  have hdrop : (pre ++ s).toList.drop pre.toList.length = s.toList := by
    rw [String.toList_append, List.drop_left]
  have hpre : pre.toList.isPrefixOf (pre ++ s).toList = true := by
    rw [List.isPrefixOf_iff_prefix, String.toList_append]
    exact List.prefix_append ..
  unfold prefixed
  rw [hdrop, hpre, List.all_eq_true.mpr hall, hlen]
  rfl

/-- A word before a hash keeps the shape of the word. -/
theorem headTail_append {first rest : Char → Bool} {max m : Nat} {pre s : String}
    (hpre : headTail first rest m pre = true) (hs : isHash s = true)
    (hrest : ∀ c, isHexLower c = true → rest c = true) (hmax : m + 64 ≤ max) :
    headTail first rest max (pre ++ s) = true := by
  obtain ⟨hall, hlen⟩ := isHash_iff.mp hs
  unfold headTail at hpre ⊢
  rw [String.toList_append]
  cases hp : pre.toList with
  | nil => rw [hp] at hpre; cases hpre
  | cons c cs =>
    rw [hp] at hpre
    simp only [Bool.and_eq_true, decide_eq_true_eq] at hpre
    obtain ⟨⟨hc, hcs⟩, hl⟩ := hpre
    have hsrest : s.toList.all rest = true :=
      List.all_eq_true.mpr fun d hd => hrest d (hall d hd)
    simp only [List.cons_append, List.all_append, hc, hcs, hsrest, List.length_append,
      Bool.true_and, Bool.and_self, decide_eq_true_eq]
    omega

/-- A text without the first character of `part` does not include it. -/
theorem not_includes {part s : String} {c : Char} {cs : List Char} (hp : part.toList = c :: cs)
    (h : c ∉ s.toList) : includes part s = false := by
  unfold includes
  rw [List.any_eq_false]
  intro t ht hpre
  rw [hp, List.isPrefixOf_iff_prefix] at hpre
  have hsuffix : t <:+ s.toList := (List.mem_tails ..).mp ht
  exact h (hsuffix.subset (hpre.subset (List.mem_cons_self ..)))

end Text

/-- SHA-256 of the UTF-8 bytes of a text, in lowercase hexadecimal. -/
structure Sha256 where
  hex : String → String
  isHash_hex : ∀ text, Text.isHash (hex text) = true

/-- `sha256:` and the digest of a value's canonical text. -/
def Sha256.commitment (sha : Sha256) (v : Value) : String := "sha256:" ++ sha.hex (canonicalJson v)

end Js
