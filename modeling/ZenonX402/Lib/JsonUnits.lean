/-
# The text of JSON data, over code units

Data and the text that is written of it with the keys of every object in order, as sequences of
UTF-16 code units. A string is any sequence of units: a surrogate without its other half is
escaped, so that no two strings share a text (`quote_append_inj`). The text of data ends where
its data does, if what follows may follow a value; so data have one text exactly if they
are equal up to the order of keys (`canonicalJson_inj`). A zero has no sign here.

Key definitions: `Data`, `quote`, `canonicalJson`, `Data.Same`, `Data.Json`.
Key theorems: `quote_append_inj`, `canonicalJson_append_inj`, `canonicalJson_inj`.
-/
import ZenonX402.Lib.Rfc8259
import ZenonX402.Lib.Insertion
import ZenonX402.Lib.Value

open CodeUnits Rfc8259

namespace JsonUnits

/-! ### Data -/

/-- An integer that a number holds exactly. -/
abbrev SafeInteger := {n : Int // n.natAbs ≤ 9007199254740991}

/-- JSON data as a program holds it: an object has its keys in an order of their own. `inexact` is a
number that is no safe integer, with the text that is written of it. -/
inductive Data
  | null
  | bool (b : Bool)
  | number (n : SafeInteger)
  | negZero
  | inexact (text : CodeUnits)
  | text (s : CodeUnits)
  | array (elements : List Data)
  | object (members : List (CodeUnits × Data))

namespace Data

/-- The integer that a number is. -/
def integer? : Data → Option Int
  | .number n => some n.1
  | .negZero => some 0
  | _ => none

mutual

/-- The same data up to the order of keys: of two objects, each has the keys of the other, and the
same under every key. -/
def Same : Data → Data → Prop
  | .null, w => w = .null
  | .bool b, w => w = .bool b
  | .number n, w => w.integer? = some n.1
  | .negZero, w => w.integer? = some 0
  | .inexact t, w => w = .inexact t
  | .text s, w => w = .text s
  | .array vs, w => ∃ ws, w = .array ws ∧ SameElements vs ws
  | .object fs, w => ∃ gs, w = .object gs ∧ (fs.map Prod.fst).Perm (gs.map Prod.fst)
      ∧ SameMembers fs gs

def SameElements : List Data → List Data → Prop
  | [], ws => ws = []
  | v :: vs, ws => ∃ w ws', ws = w :: ws' ∧ Same v w ∧ SameElements vs ws'

def SameMembers : List (CodeUnits × Data) → List (CodeUnits × Data) → Prop
  | [], _ => True
  | (k, v) :: fs, gs => (∃ w, gs.lookup k = some w ∧ Same v w) ∧ SameMembers fs gs

end

attribute [grind =] Same SameElements SameMembers

/-- Data whose numbers are safe integers and whose keys are different in each object. -/
inductive Json : Data → Prop
  | null : Json .null
  | bool (b : Bool) : Json (.bool b)
  | number (n : SafeInteger) : Json (.number n)
  | negZero : Json .negZero
  | text (s : CodeUnits) : Json (.text s)
  | array {vs : List Data} (h : ∀ v ∈ vs, Json v) : Json (.array vs)
  | object {fs : List (CodeUnits × Data)} (hn : (fs.map Prod.fst).Nodup) (h : ∀ f ∈ fs, Json f.2) :
      Json (.object fs)

def isLeaf : Data → Bool
  | .array _ => false
  | .object _ => false
  | _ => true

mutual

/-- What holds of the leaves, and of what is above data that it holds of, holds of all data. -/
theorem induction {motive : Data → Prop} (leaf : ∀ v : Data, v.isLeaf = true → motive v)
    (array : ∀ vs, (∀ v ∈ vs, motive v) → motive (.array vs))
    (object : ∀ fs : List (CodeUnits × Data), (∀ f ∈ fs, motive f.2) → motive (.object fs)) :
    ∀ v : Data, motive v
  | .array vs => array vs (inductionElements leaf array object vs)
  | .object fs => object fs (inductionMembers leaf array object fs)
  | .null => leaf .null rfl
  | .bool b => leaf (.bool b) rfl
  | .number n => leaf (.number n) rfl
  | .negZero => leaf .negZero rfl
  | .inexact t => leaf (.inexact t) rfl
  | .text s => leaf (.text s) rfl

theorem inductionElements {motive : Data → Prop} (leaf : ∀ v : Data, v.isLeaf = true → motive v)
    (array : ∀ vs, (∀ v ∈ vs, motive v) → motive (.array vs))
    (object : ∀ fs : List (CodeUnits × Data), (∀ f ∈ fs, motive f.2) → motive (.object fs)) :
    ∀ (vs : List Data), ∀ v ∈ vs, motive v
  | [] => fun _ h => absurd h List.not_mem_nil
  | v :: vs => List.forall_mem_cons.mpr ⟨induction leaf array object v,
      inductionElements leaf array object vs⟩

theorem inductionMembers {motive : Data → Prop} (leaf : ∀ v : Data, v.isLeaf = true → motive v)
    (array : ∀ vs, (∀ v ∈ vs, motive v) → motive (.array vs))
    (object : ∀ fs : List (CodeUnits × Data), (∀ f ∈ fs, motive f.2) → motive (.object fs)) :
    ∀ (fs : List (CodeUnits × Data)), ∀ f ∈ fs, motive f.2
  | [] => fun _ h => absurd h List.not_mem_nil
  | (_, v) :: fs => List.forall_mem_cons.mpr ⟨induction leaf array object v,
      inductionMembers leaf array object fs⟩

end

theorem sameElements_iff : ∀ {vs ws : List Data}, SameElements vs ws ↔ List.Forall₂ Same vs ws
  | [], ws => by
    rw [SameElements, List.forall₂_nil_left_iff]
  | v :: vs, ws => by
    rw [SameElements, List.forall₂_cons_left_iff]
    constructor
    · rintro ⟨w, ws', rfl, hsame, hrest⟩
      exact ⟨w, ws', hsame, sameElements_iff.mp hrest, rfl⟩
    · rintro ⟨w, ws', hsame, hrest, rfl⟩
      exact ⟨w, ws', rfl, hsame, sameElements_iff.mpr hrest⟩

theorem sameMembers_iff {gs : List (CodeUnits × Data)} :
    ∀ {fs : List (CodeUnits × Data)}, SameMembers fs gs ↔
    ∀ f ∈ fs, ∃ w, gs.lookup f.1 = some w ∧ Same f.2 w
  | [] => by simp [SameMembers]
  | (k, v) :: fs => by rw [SameMembers, List.forall_mem_cons, sameMembers_iff]

end Data

/-! ### Writing -/

def hexLetter (n : Nat) : UInt16 := if n < 10 then UInt16.ofNat (48 + n) else UInt16.ofNat (87 + n)

/-- A unit by its number. -/
def unicodeEscape (c : UInt16) : CodeUnits :=
  [92, 117, hexLetter (c.toNat / 4096), hexLetter (c.toNat / 256 % 16),
    hexLetter (c.toNat / 16 % 16), hexLetter (c.toNat % 16)]

/-- A unit of a string that is not one of two surrogates. -/
def unitText (c : UInt16) : CodeUnits :=
  if c = 8 then [92, 98]
  else if c = 9 then [92, 116]
  else if c = 10 then [92, 110]
  else if c = 12 then [92, 102]
  else if c = 13 then [92, 114]
  else if c = 34 then [92, 34]
  else if c = 92 then [92, 92]
  else if decide (c.toNat < 32) || isHigh c || isLow c then unicodeEscape c
  else [c]

def quoteUnits : CodeUnits → CodeUnits
  | [] => []
  | [c] => unitText c
  | c :: d :: s => if isHigh c && isLow d then c :: d :: quoteUnits s else unitText c
      ++ quoteUnits (d :: s)

/-- What `JSON.stringify` writes of a string. -/
def quote (s : CodeUnits) : CodeUnits := 34 :: (quoteUnits s ++ [34])

def natText (n : Nat) : CodeUnits := (Nat.toDigits 10 n).map fun c => UInt16.ofNat c.toNat

def intText (n : Int) : CodeUnits := if n < 0 then 45 :: natText n.natAbs else natText n.natAbs

/-- Texts with a comma between two. -/
def join : List CodeUnits → CodeUnits
  | [] => []
  | t :: ts => t ++ ts.flatMap (44 :: ·)

/-- `Object.keys(value).sort()`. -/
def sortKeys (keys : List CodeUnits) : List CodeUnits := keys.mergeSort fun a b => decide (a ≤ b)

/-- The text of a member, from those under all keys. -/
def memberText (texts : List (CodeUnits × CodeUnits)) (k : CodeUnits) : CodeUnits :=
  quote k ++ 58 :: (texts.lookup k).getD []

mutual

/-- The text with the keys of every object in order. -/
def canonicalJson : Data → CodeUnits
  | .null => literalUnits none
  | .bool b => literalUnits (some b)
  | .number n => intText n.1
  | .negZero => intText 0
  | .inexact t => t
  | .text s => quote s
  | .array vs => 91 :: (join (canonicalElements vs) ++ [93])
  | .object fs => 123 :: (join ((sortKeys (fs.map Prod.fst)).map (memberText (canonicalMembers fs)))
      ++ [125])

def canonicalElements : List Data → List CodeUnits
  | [] => []
  | v :: vs => canonicalJson v :: canonicalElements vs

def canonicalMembers : List (CodeUnits × Data) → List (CodeUnits × CodeUnits)
  | [] => []
  | (k, v) :: fs => (k, canonicalJson v) :: canonicalMembers fs

end

attribute [grind =] canonicalJson canonicalElements canonicalMembers

theorem canonicalElements_eq_map : ∀ vs, canonicalElements vs = vs.map canonicalJson
  | [] => rfl
  | v :: vs => by rw [canonicalElements, canonicalElements_eq_map vs, List.map_cons]

theorem canonicalMembers_lookup (k : CodeUnits) :
    ∀ fs, (canonicalMembers fs).lookup k = (fs.lookup k).map canonicalJson
  | [] => rfl
  | (k', v) :: fs => by
    rw [canonicalMembers, List.lookup_cons, List.lookup_cons, canonicalMembers_lookup k fs]
    split <;> rfl

theorem sortKeys_perm (keys : List CodeUnits) : (sortKeys keys).Perm keys :=
  List.mergeSort_perm keys _

theorem sortKeys_sorted {keys : List CodeUnits} (h : keys.Nodup) :
    Insertion.Sorted (sortKeys keys) := by
  have hle : (sortKeys keys).Pairwise fun a b => a ≤ b := by
    have htrans : ∀ a b c : CodeUnits, decide (a ≤ b) = true → decide (b ≤ c) = true →
        decide (a ≤ c) = true :=
      fun a b c hab hbc => decide_eq_true ((of_decide_eq_true hab).trans (of_decide_eq_true hbc))
    have htotal : ∀ a b : CodeUnits, (decide (a ≤ b) || decide (b ≤ a)) = true := by
      intro a b
      rcases le_total a b with hab | hba <;> simp [*]
    exact (List.pairwise_mergeSort htrans htotal keys).imp fun hab => of_decide_eq_true hab
  have hne : (sortKeys keys).Nodup := (sortKeys_perm keys).nodup_iff.mpr h
  exact (hle.and hne).imp fun hab => lt_of_le_of_ne hab.1 hab.2

/-- Any sort puts different keys in the same order. -/
theorem sortKeys_eq {keys sorted : List CodeUnits} (h : keys.Nodup) (hperm : sorted.Perm keys)
    (hsorted : Insertion.Sorted sorted) :
    sorted = sortKeys keys :=
  Insertion.sorted_unique hsorted (sortKeys_sorted h) (hperm.trans (sortKeys_perm keys).symm)

/-! ### Strings are told from what follows them -/

/-- A unit, and how it is written. -/
def UnitPiece (c : UInt16) (a : CodeUnits) : Prop :=
  (a = [c] ∧ c ≠ 34 ∧ c ≠ 92) ∨ (∃ e, a = [92, e] ∧ escape e = some c) ∨ ∃ h,
  a = 92 :: 117 :: h ∧ Hex h c

/-- Units, and how they are written one after the other. -/
inductive Written : CodeUnits → CodeUnits → Prop
  | nil : Written [] []
  | cons {c : UInt16} {a s b : CodeUnits} : UnitPiece c a → Written s b → Written (c :: s) (a ++ b)

theorem escape_letter : escape 117 = none := by
  decide

theorem unitPiece_append_inj {c c' : UInt16} {a a' x x' : CodeUnits} (h : UnitPiece c a)
    (h' : UnitPiece c' a') (heq : a ++ x = a' ++ x') :
    c = c' ∧ x = x' := by
  have hletter {e d : UInt16} (he : escape e = some d) : e ≠ 117 := fun h => by
    rw [h, escape_letter] at he
    cases he
  rcases h with ⟨rfl, -, hescape⟩ | ⟨e, rfl, he⟩ | ⟨u, rfl, hu⟩
  · rcases h' with ⟨rfl, -, -⟩ | ⟨e, rfl, -⟩ | ⟨u, rfl, -⟩
    · exact List.cons.inj heq
    · exact absurd (List.cons.inj heq).1 hescape
    · exact absurd (List.cons.inj heq).1 hescape
  · rcases h' with ⟨rfl, -, hescape⟩ | ⟨e', rfl, he'⟩ | ⟨u, rfl, -⟩
    · exact absurd (List.cons.inj heq).1.symm hescape
    · simp only [List.cons_append, List.nil_append, List.cons.injEq, true_and] at heq
      obtain ⟨rfl, hx⟩ := heq
      exact ⟨Option.some.inj (he.symm.trans he'), hx⟩
    · simp only [List.cons_append, List.nil_append, List.cons.injEq, true_and] at heq
      exact absurd heq.1 (hletter he)
  · rcases h' with ⟨rfl, -, hescape⟩ | ⟨e, rfl, he⟩ | ⟨u', rfl, hu'⟩
    · exact absurd (List.cons.inj heq).1.symm hescape
    · simp only [List.cons_append, List.nil_append, List.cons.injEq, true_and] at heq
      exact absurd heq.1.symm (hletter he)
    · simp only [List.cons_append, List.cons.injEq, true_and] at heq
      obtain ⟨-, hc, hx⟩ := hex_unique hu hu' heq
      exact ⟨hc, hx⟩

theorem unitPiece_ne_quote {c : UInt16} {a x y : CodeUnits} (h : UnitPiece c a) :
    a ++ x ≠ 34 :: y := by
  intro heq
  rcases h with ⟨rfl, hquote, -⟩ | ⟨e, rfl, -⟩ | ⟨u, rfl, -⟩
  · exact hquote (List.cons.inj heq).1
  · exact absurd (List.cons.inj heq).1 (by decide)
  · exact absurd (List.cons.inj heq).1 (by decide)

theorem written_append_inj {s b : CodeUnits} (h : Written s b) :
    ∀ {s' b' r r' : CodeUnits}, Written s' b' →
    b ++ 34 :: r = b' ++ 34 :: r' → s = s' ∧ r = r' := by
  induction h with
  | nil =>
    intro s' b' r r' h' heq
    cases h' with
    | nil => exact ⟨rfl, (List.cons.inj heq).2⟩
    | cons hpiece _ =>
      rw [List.append_assoc] at heq
      exact absurd heq.symm (unitPiece_ne_quote hpiece)
  | cons hpiece _ ih =>
    intro s' b' r r' h' heq
    cases h' with
    | nil =>
      rw [List.append_assoc] at heq
      exact absurd heq (unitPiece_ne_quote hpiece)
    | cons hpiece' hrest =>
      rw [List.append_assoc, List.append_assoc] at heq
      obtain ⟨rfl, htail⟩ := unitPiece_append_inj hpiece hpiece' heq
      obtain ⟨rfl, rfl⟩ := ih hrest htail
      exact ⟨rfl, rfl⟩

theorem hexDigit_hexLetter {n : Nat} (h : n < 16) : hexDigit (hexLetter n) = some n := by
  have hall : ∀ n : Fin 16, hexDigit (hexLetter n) = some n.1 := by decide
  exact hall ⟨n, h⟩

theorem hex_unicodeEscape (c : UInt16) : ∃ h, unicodeEscape c = 92 :: 117 :: h ∧ Hex h c := by
  have hc := c.toNat_lt
  refine ⟨_, rfl, _, _, _, _, c.toNat / 4096, c.toNat / 256 % 16, c.toNat / 16 % 16, c.toNat % 16,
    rfl, ?_, ?_, ?_, ?_, ?_⟩
  · exact hexDigit_hexLetter (by omega)
  · exact hexDigit_hexLetter (by omega)
  · exact hexDigit_hexLetter (by omega)
  · exact hexDigit_hexLetter (by omega)
  · have hnumber : ((c.toNat / 4096 * 16 + c.toNat / 256 % 16) * 16 + c.toNat / 16 % 16) * 16
        + c.toNat % 16 = c.toNat := by omega
    rw [hnumber, UInt16.ofNat_toNat]

theorem unitPiece_unitText (c : UInt16) : UnitPiece c (unitText c) := by
  unfold unitText
  by_cases h8 : c = 8
  · exact .inr (.inl ⟨98, by rw [if_pos h8], by rw [h8]; decide⟩)
  by_cases h9 : c = 9
  · exact .inr (.inl ⟨116, by rw [if_neg h8, if_pos h9], by rw [h9]; decide⟩)
  by_cases h10 : c = 10
  · exact .inr (.inl ⟨110, by rw [if_neg h8, if_neg h9, if_pos h10], by rw [h10]; decide⟩)
  by_cases h12 : c = 12
  · exact .inr (.inl ⟨102, by rw [if_neg h8, if_neg h9, if_neg h10,
      if_pos h12], by rw [h12]; decide⟩)
  by_cases h13 : c = 13
  · exact .inr (.inl ⟨114, by rw [if_neg h8, if_neg h9, if_neg h10, if_neg h12,
      if_pos h13], by rw [h13]; decide⟩)
  by_cases h34 : c = 34
  · exact .inr (.inl ⟨34, by rw [if_neg h8, if_neg h9, if_neg h10, if_neg h12, if_neg h13,
      if_pos h34], by rw [h34]; decide⟩)
  by_cases h92 : c = 92
  · exact .inr (.inl ⟨92, by rw [if_neg h8, if_neg h9, if_neg h10, if_neg h12, if_neg h13,
      if_neg h34, if_pos h92], by rw [h92]; decide⟩)
  rw [if_neg h8, if_neg h9, if_neg h10, if_neg h12, if_neg h13, if_neg h34, if_neg h92]
  split
  · exact .inr (.inr (hex_unicodeEscape c))
  · exact .inl ⟨rfl, h34, h92⟩

theorem written_quoteUnits : ∀ s : CodeUnits, Written s (quoteUnits s)
  | [] => .nil
  | [c] => by
    have h : Written [c] (unitText c ++ []) := .cons (unitPiece_unitText c) .nil
    rwa [List.append_nil] at h
  | c :: d :: s => by
    rw [quoteUnits]
    split
    next hpair =>
      have hplain {e : UInt16} (he : 0xd800 ≤ e.toNat) : UnitPiece e [e] := by
        refine .inl ⟨rfl, ?_, ?_⟩ <;>
        · rintro rfl
          exact absurd he (by decide)
      simp only [isHigh, isLow, Bool.and_eq_true, decide_eq_true_eq] at hpair
      exact .cons (a := [c]) (hplain hpair.1.1)
        (.cons (a := [d]) (hplain (by omega)) (written_quoteUnits s))
    next => exact .cons (unitPiece_unitText c) (written_quoteUnits (d :: s))

/-- A string is told from what follows it. -/
theorem quote_append_inj {s s' r r' : CodeUnits} (h : quote s ++ r = quote s' ++ r') :
    s = s' ∧ r = r' := by
  simp only [quote, List.cons_append, List.append_assoc, List.nil_append, List.cons.injEq,
    true_and] at h
  exact written_append_inj (written_quoteUnits s) (written_quoteUnits s') h

/-! ### Numbers are told from what follows them -/

theorem toDigits_bounds {n : Nat} {d : Char} (hd : d ∈ Nat.toDigits 10 n) :
    48 ≤ d.toNat ∧ d.toNat ≤ 57 := by
  have hdigit := Nat.isDigit_of_mem_toDigits (b := 10) (by decide) (by decide) hd
  simp only [Char.isDigit, Bool.and_eq_true, decide_eq_true_eq, ge_iff_le,
    UInt32.le_iff_toNat_le] at hdigit
  exact hdigit

theorem natText_digits (n : Nat) : ∀ c ∈ natText n, isDigit c = true := by
  intro c hc
  obtain ⟨d, hd, rfl⟩ := List.mem_map.mp hc
  have hbounds := toDigits_bounds hd
  simp only [isDigit, UInt16.toNat_ofNat', Bool.and_eq_true, decide_eq_true_eq]
  omega

theorem natText_inj {n m : Nat} (h : natText n = natText m) : n = m := by
  have hback (n : Nat) : (natText n).map (fun u => Char.ofNat u.toNat) = Nat.toDigits 10 n := by
    rw [natText, List.map_map]
    refine (List.map_congr_left fun d hd => ?_).trans (List.map_id _)
    have hbounds := toDigits_bounds hd
    rw [Function.comp_apply, UInt16.toNat_ofNat', Nat.mod_eq_of_lt (by omega),
      Char.ofNat_toNat, id_eq]
  have hdigits : Nat.toDigits 10 n = Nat.toDigits 10 m := by rw [← hback n, ← hback m, h]
  rw [← Nat.ofDigitChars_ten_toDigits (n := n), hdigits, Nat.ofDigitChars_ten_toDigits]

theorem natText_cons (n : Nat) : ∃ c a, natText n = c :: a ∧ isDigit c = true := by
  rcases htext : natText n with _ | ⟨c, a⟩
  · exact absurd (List.map_eq_nil_iff.mp htext) Nat.toDigits_ne_nil
  · exact ⟨c, a, rfl, natText_digits n c (by rw [htext]; exact List.mem_cons_self)⟩

/-- A number ends where what follows may follow a value. -/
theorem plain_intText (n : Int) : ∀ c ∈ intText n, isPlainUnit c = true := by
  have hdigits := plain_digits (natText_digits n.natAbs)
  unfold intText
  split
  · exact List.forall_mem_cons.mpr ⟨by decide, hdigits⟩
  · exact hdigits

theorem first_intText (n : Int) : ∃ c a, intText n = c :: a ∧ first c = some .digit := by
  unfold intText
  split
  · exact ⟨45, _, rfl, first_digit (.inl rfl)⟩
  · obtain ⟨c, a, htext, hc⟩ := natText_cons n.natAbs
    exact ⟨c, a, htext, first_digit (.inr hc)⟩

theorem intText_inj {n m : Int} (h : intText n = intText m) : n = m := by
  have hsign {k : Nat} {a : CodeUnits} (heq : natText k = 45 :: a) : False := by
    have hdigit := natText_digits k 45 (by rw [heq]; exact List.mem_cons_self)
    exact absurd hdigit (by decide)
  unfold intText at h
  by_cases hn : n < 0 <;> by_cases hm : m < 0
  · rw [if_pos hn, if_pos hm] at h
    have habs := natText_inj (List.cons.inj h).2
    omega
  · rw [if_pos hn, if_neg hm] at h
    exact (hsign h.symm).elim
  · rw [if_neg hn, if_pos hm] at h
    exact (hsign h).elim
  · rw [if_neg hn, if_neg hm] at h
    have habs := natText_inj h
    omega

/-! ### Sequences are told from what follows them -/

section

variable {α β : Type} {f : α → CodeUnits} {g : β → CodeUnits} {R : α → β → Prop} {c : UInt16}

theorem delimited_tail (hc : isPlainUnit c = false) (ts : List CodeUnits) (r : CodeUnits) :
    Delimited (ts.flatMap (44 :: ·) ++ c :: r) := by
  rcases ts with _ | ⟨t, ts⟩
  · exact stops_cons hc
  · exact stops_cons (by decide)

/-- What stands after the first of some texts, up to a unit that ends them. -/
theorem tail_append_inj (hc : isPlainUnit c = false) (hcomma : c ≠ 44) {xs : List α} :
    ∀ {ys : List β} {r r' : CodeUnits},
    (∀ x ∈ xs, ∀ y ∈ ys, ∀ r r', Delimited r → Delimited r' → f x ++ r = g y ++ r' →
      R x y ∧ r = r') →
    (xs.map f).flatMap (44 :: ·) ++ c :: r = (ys.map g).flatMap (44 :: ·) ++ c :: r' →
    List.Forall₂ R xs ys ∧ r = r' := by
  induction xs with
  | nil =>
    intro ys r r' _ heq
    rcases ys with _ | ⟨y, ys⟩
    · exact ⟨.nil, (List.cons.inj heq).2⟩
    · exact absurd (List.cons.inj heq).1 hcomma
  | cons x xs ih =>
    intro ys r r' hinj heq
    rcases ys with _ | ⟨y, ys⟩
    · exact absurd (List.cons.inj heq).1.symm hcomma
    · simp only [List.map_cons, List.flatMap_cons, List.cons_append, List.append_assoc,
        List.cons.injEq, true_and] at heq
      obtain ⟨hxy, hrest⟩ := hinj x List.mem_cons_self y List.mem_cons_self _ _
        (delimited_tail hc _ _) (delimited_tail hc _ _) heq
      obtain ⟨htail, hr⟩ :=
        ih (fun x hx y hy => hinj x (List.mem_cons_of_mem _ hx) y (List.mem_cons_of_mem _ hy)) hrest
      exact ⟨.cons hxy htail, hr⟩

/-- Texts with commas between them, up to a unit that begins none of them. -/
theorem join_append_inj (hc : isPlainUnit c = false) (hcomma : c ≠ 44) (hfirst : first c = none)
    {xs : List α} {ys : List β} {r r' : CodeUnits}
    (hf : ∀ x ∈ xs, ∃ u a, f x = u :: a ∧ first u ≠ none)
    (hg : ∀ y ∈ ys, ∃ u a, g y = u :: a ∧ first u ≠ none)
    (hinj : ∀ x ∈ xs, ∀ y ∈ ys, ∀ r r', Delimited r → Delimited r' → f x ++ r = g y ++ r' →
      R x y ∧ r = r')
    (heq : join (xs.map f) ++ c :: r = join (ys.map g) ++ c :: r') :
    List.Forall₂ R xs ys ∧ r = r' := by
  rcases xs with _ | ⟨x, xs⟩
  · rcases ys with _ | ⟨y, ys⟩
    · exact ⟨.nil, (List.cons.inj heq).2⟩
    · obtain ⟨u, a, htext, hu⟩ := hg y List.mem_cons_self
      simp only [List.map_cons, join, htext, List.map_nil, List.nil_append, List.cons_append,
        List.cons.injEq] at heq
      exact absurd (heq.1 ▸ hfirst) hu
  · rcases ys with _ | ⟨y, ys⟩
    · obtain ⟨u, a, htext, hu⟩ := hf x List.mem_cons_self
      simp only [List.map_cons, join, htext, List.map_nil, List.nil_append, List.cons_append,
        List.cons.injEq] at heq
      exact absurd (heq.1 ▸ hfirst) hu
    · simp only [List.map_cons, join, List.append_assoc] at heq
      obtain ⟨hxy, hrest⟩ := hinj x List.mem_cons_self y List.mem_cons_self _ _
        (delimited_tail hc _ _) (delimited_tail hc _ _) heq
      obtain ⟨htail, hr⟩ :=
        tail_append_inj hc hcomma
        (fun x hx y hy => hinj x (List.mem_cons_of_mem _ hx) y (List.mem_cons_of_mem _ hy)) hrest
      exact ⟨.cons hxy htail, hr⟩

end

/-! ### Data are told from their text -/

namespace Data

/-- What the text of data begins with. -/
def first : Data → First
  | .null => .letter
  | .bool _ => .letter
  | .number _ => .digit
  | .negZero => .digit
  | .inexact _ => .digit
  | .text _ => .quote
  | .array _ => .bracket false
  | .object _ => .bracket true

def ofLiteral : Option Bool → Data
  | none => .null
  | some b => .bool b

theorem letter_cases {v : Data} (h : v.first = .letter) :
    ∃ x, v = ofLiteral x ∧ canonicalJson v = literalUnits x := by
  cases v with
  | null => exact ⟨none, rfl, by rw [canonicalJson]⟩
  | bool b => exact ⟨some b, rfl, by rw [canonicalJson]⟩
  | _ => cases h

theorem digit_cases {v : Data} (hv : v.Json) (h : v.first = .digit) :
    ∃ n, v.integer? = some n ∧ canonicalJson v = intText n := by
  cases hv with
  | number n => exact ⟨n.1, rfl, by rw [canonicalJson]⟩
  | negZero => exact ⟨0, rfl, by rw [canonicalJson]⟩
  | _ => cases h

theorem same_integer {v w : Data} {n : Int} (hv : v.integer? = some n) (hw : w.integer? = some n) :
    v.Same w := by
  cases v with
  | number m =>
    rw [Same, hw]
    exact hv.symm
  | negZero =>
    rw [Same, hw]
    exact hv.symm
  | _ => cases hv

theorem integer_of_same {v w : Data} {n : Int} (hv : v.integer? = some n) (h : v.Same w) :
    w.integer? = some n := by
  cases v with
  | number m =>
    rw [Same] at h
    exact h.trans hv
  | negZero =>
    rw [Same] at h
    exact h.trans hv
  | _ => cases hv

theorem same_literal (x : Option Bool) : (ofLiteral x).Same (ofLiteral x) := by
  rcases x with _ | b <;> rw [ofLiteral, Same]

end Data

theorem first_canonicalJson {v : Data} (h : v.Json) :
    ∃ c a, canonicalJson v = c :: a ∧ first c = some v.first := by
  have hletter (x : Option Bool) : ∃ c a, literalUnits x = c :: a ∧ first c = some .letter := by
    rcases x with _ | _ | _ <;> exact ⟨_, _, rfl, by decide⟩
  cases h with
  | null =>
    rw [canonicalJson]
    exact hletter none
  | bool b =>
    rw [canonicalJson]
    exact hletter (some b)
  | number n =>
    rw [canonicalJson]
    exact first_intText n.1
  | negZero =>
    rw [canonicalJson]
    exact first_intText 0
  | text s =>
    rw [canonicalJson]
    exact ⟨34, _, rfl, rfl⟩
  | array h =>
    rw [canonicalJson]
    exact ⟨91, _, rfl, (by decide : first 91 = some (.bracket false))⟩
  | object hn h =>
    rw [canonicalJson]
    exact ⟨123, _, rfl, (by decide : first 123 = some (.bracket true))⟩

theorem first_memberText (texts : List (CodeUnits × CodeUnits)) (k : CodeUnits) :
    ∃ u a, memberText texts k = u :: a ∧ first u ≠ none :=
  ⟨34, _, rfl, by decide⟩

/-- What the keys of an object in order look up. -/
theorem mem_sortKeys {fs : List (CodeUnits × Data)} {k : CodeUnits}
    (h : k ∈ sortKeys (fs.map Prod.fst)) (hn : (fs.map Prod.fst).Nodup) :
    ∃ v, (k, v) ∈ fs ∧ fs.lookup k = some v ∧ (canonicalMembers fs).lookup k
      = some (canonicalJson v) := by
  obtain ⟨⟨k, v⟩, hmem, rfl⟩ := List.mem_map.mp ((sortKeys_perm _).mem_iff.mp h)
  have hlookup : fs.lookup k = some v := (Js.Value.mem_iff_lookup _ _ hn).mp hmem
  exact ⟨v, hmem, hlookup, by rw [canonicalMembers_lookup, hlookup]; rfl⟩

/-- Objects are told from their members, if these are told from what follows them. -/
theorem object_append_inj {fs gs : List (CodeUnits × Data)} {r r' : CodeUnits}
    (hn : (fs.map Prod.fst).Nodup) (hn' : (gs.map Prod.fst).Nodup)
    (hinj : ∀ f ∈ fs, ∀ g ∈ gs, ∀ r r', Delimited r → Delimited r' → canonicalJson f.2 ++ r
      = canonicalJson g.2 ++ r' →
      f.2.Same g.2 ∧ r = r')
    (heq : canonicalJson (.object fs) ++ r = canonicalJson (.object gs) ++ r') :
      (Data.object fs).Same (.object gs) ∧ r = r' := by
  simp only [canonicalJson, List.cons_append, List.append_assoc, List.nil_append, List.cons.injEq,
    true_and] at heq
  have hmember : ∀ k ∈ sortKeys (fs.map Prod.fst), ∀ k' ∈ sortKeys (gs.map Prod.fst), ∀ r r',
      Delimited r → Delimited r' →
      memberText (canonicalMembers fs) k ++ r = memberText (canonicalMembers gs) k' ++ r' →
      ((∃ v w, fs.lookup k = some v ∧ gs.lookup k = some w ∧ v.Same w) ∧ k = k') ∧ r = r' := by
    intro k hk k' hk' r r' hdr hdr' heq
    obtain ⟨v, hv, hlookup, htext⟩ := mem_sortKeys hk hn
    obtain ⟨w, hw, hlookup', htext'⟩ := mem_sortKeys hk' hn'
    simp only [memberText, htext, htext', Option.getD_some, List.append_assoc,
      List.cons_append] at heq
    obtain ⟨rfl, hvalue⟩ := quote_append_inj heq
    obtain ⟨hsame, hr⟩ := hinj _ hv _ hw _ _ hdr hdr' (List.cons.inj hvalue).2
    exact ⟨⟨⟨v, w, hlookup, hlookup', hsame⟩, rfl⟩, hr⟩
  obtain ⟨hall, hr⟩ := join_append_inj (by decide) (by decide) (by decide)
    (fun k _ => first_memberText _ k)
    (fun k _ => first_memberText _ k) hmember heq
  obtain ⟨hvalues, hkeys⟩ := (List.forall₂_and_left _ _).mp hall
  rw [List.forall₂_eq_eq_eq] at hkeys
  refine ⟨?_, hr⟩
  rw [Data.Same]
  refine ⟨gs, rfl, (sortKeys_perm _).symm.trans (hkeys ▸ sortKeys_perm _),
    Data.sameMembers_iff.mpr fun f hf => ?_⟩
  obtain ⟨v, w, hv, hw, hsame⟩ :=
    hvalues f.1 ((sortKeys_perm _).mem_iff.mpr (List.mem_map_of_mem hf))
  obtain rfl := Option.some.inj (((Js.Value.mem_iff_lookup f.1 f.2 hn).mp hf).symm.trans hv)
  exact ⟨w, hw, hsame⟩

/-- Data are told from their text, and where it ends. -/
theorem canonicalJson_append_inj : ∀ (v : Data) {w : Data}, v.Json → w.Json → ∀ {r r' : CodeUnits},
    Delimited r → Delimited r' →
    canonicalJson v ++ r = canonicalJson w ++ r' → v.Same w ∧ r = r' := by
  have hkind {v w : Data} {r r' : CodeUnits} (hv : v.Json) (hw : w.Json)
      (heq : canonicalJson v ++ r = canonicalJson w ++ r') :
      w.first = v.first := by
    obtain ⟨c, a, htext, hc⟩ := first_canonicalJson hv
    obtain ⟨d, b, htext', hd⟩ := first_canonicalJson hw
    rw [htext, htext'] at heq
    obtain rfl := (List.cons.inj heq).1
    exact Option.some.inj (hd.symm.trans hc)
  intro v
  induction v using Data.induction with
  | leaf v hleaf =>
    intro w hv hw r r' hr hr' heq
    have hfirst := hkind hv hw heq
    have hletter (hl : v.first = .letter) : v.Same w ∧ r = r' := by
      obtain ⟨x, rfl, htext⟩ := Data.letter_cases hl
      obtain ⟨y, rfl, htext'⟩ := Data.letter_cases (hfirst.trans hl)
      rw [htext, htext'] at heq
      obtain ⟨hsame, hrest⟩ := plain_append_inj (plain_literal x) (plain_literal y) hr hr' heq
      obtain rfl := literalUnits_inj hsame
      exact ⟨Data.same_literal x, hrest⟩
    have hdigit (hd : v.first = .digit) : v.Same w ∧ r = r' := by
      obtain ⟨n, hn, htext⟩ := Data.digit_cases hv hd
      obtain ⟨m, hm, htext'⟩ := Data.digit_cases hw (hfirst.trans hd)
      rw [htext, htext'] at heq
      obtain ⟨hsame, hrest⟩ := plain_append_inj (plain_intText n) (plain_intText m) hr hr' heq
      obtain rfl := intText_inj hsame
      exact ⟨Data.same_integer hn hm, hrest⟩
    cases v with
    | null => exact hletter rfl
    | bool b => exact hletter rfl
    | number n => exact hdigit rfl
    | negZero => exact hdigit rfl
    | inexact t => exact hdigit rfl
    | array vs => cases hleaf
    | object fs => cases hleaf
    | text s =>
      cases w with
      | text s' =>
        rw [canonicalJson, canonicalJson] at heq
        obtain ⟨rfl, hrest⟩ := quote_append_inj heq
        exact ⟨by rw [Data.Same], hrest⟩
      | _ => cases hfirst
  | array vs ih =>
    intro w hv hw r r' hr hr' heq
    have hfirst := hkind hv hw heq
    cases w with
    | array ws =>
      cases hv with
      | array hvs =>
      cases hw with
      | array hws =>
      simp only [canonicalJson, canonicalElements_eq_map, List.cons_append, List.append_assoc,
        List.nil_append, List.cons.injEq, true_and] at heq
      have hbegin {xs : List Data} (h : ∀ x ∈ xs, x.Json) : ∀ x ∈ xs, ∃ u a, canonicalJson x
          = u :: a ∧ first u ≠ none := by
        intro x hx
        obtain ⟨u, a, htext, hu⟩ := first_canonicalJson (h x hx)
        exact ⟨u, a, htext, by rw [hu]; exact Option.some_ne_none _⟩
      obtain ⟨hall, hrest⟩ :=
        join_append_inj (R := Data.Same) (by decide) (by decide) (by decide)
        (hbegin hvs) (hbegin hws)
        (fun x hx y hy r r' hr hr' heq => ih x hx (hvs x hx) (hws y hy) hr hr' heq) heq
      refine ⟨?_, hrest⟩
      rw [Data.Same]
      exact ⟨ws, rfl, Data.sameElements_iff.mpr hall⟩
    | _ => cases hfirst
  | object fs ih =>
    intro w hv hw r r' hr hr' heq
    have hfirst := hkind hv hw heq
    cases w with
    | object gs =>
      cases hv with
      | object hn hfs =>
      cases hw with
      | object hn' hgs =>
      exact object_append_inj hn hn'
        (fun f hf g hg r r' hr hr' heq => ih f hf (hfs f hf) (hgs g hg) hr hr' heq) heq
    | _ => cases hfirst

/-- The same data have one text. -/
theorem canonicalJson_same : ∀ (v : Data) {w : Data}, v.Json → w.Json → v.Same w → canonicalJson v
    = canonicalJson w := by
  intro v
  induction v using Data.induction with
  | leaf v hleaf =>
    intro w hv hw hsame
    have hdigit (hd : v.first = .digit) : canonicalJson v = canonicalJson w := by
      obtain ⟨n, hn, htext⟩ := Data.digit_cases hv hd
      have hm := Data.integer_of_same hn hsame
      have hd' : w.first = .digit := by
        cases w with
        | number m => rfl
        | negZero => rfl
        | _ => cases hm
      obtain ⟨m, hm', htext'⟩ := Data.digit_cases hw hd'
      rw [htext, htext', Option.some.inj (hm.symm.trans hm')]
    cases v with
    | number n => exact hdigit rfl
    | negZero => exact hdigit rfl
    | inexact t => exact hdigit rfl
    | array vs => cases hleaf
    | object fs => cases hleaf
    | _ =>
      rw [Data.Same] at hsame
      rw [hsame]
  | array vs ih =>
    intro w hv hw hsame
    rw [Data.Same] at hsame
    obtain ⟨ws, rfl, hall⟩ := hsame
    cases hv with
    | array hvs =>
    cases hw with
    | array hws =>
    have htexts : vs.map canonicalJson = ws.map canonicalJson := by
      have hpairs := Data.sameElements_iff.mp hall
      clear hall
      induction hpairs with
      | nil => rfl
      | @cons x y xs ys hxy _ ihrest =>
        rw [List.forall_mem_cons] at hvs hws ih
        rw [List.map_cons, List.map_cons, ih.1 hvs.1 hws.1 hxy, ihrest ih.2 hvs.2 hws.2]
    rw [canonicalJson, canonicalJson, canonicalElements_eq_map, canonicalElements_eq_map, htexts]
  | object fs ih =>
    intro w hv hw hsame
    rw [Data.Same] at hsame
    obtain ⟨gs, rfl, hkeys, hall⟩ := hsame
    cases hv with
    | object hn hfs =>
    cases hw with
    | object hn' hgs =>
    have hsorted : sortKeys (fs.map Prod.fst) = sortKeys (gs.map Prod.fst) :=
      sortKeys_eq hn' ((sortKeys_perm _).trans hkeys) (sortKeys_sorted hn)
    have htexts : (sortKeys (fs.map Prod.fst)).map (memberText (canonicalMembers fs))
        = (sortKeys (fs.map Prod.fst)).map (memberText (canonicalMembers gs)) := by
      refine List.map_congr_left fun k hk => ?_
      obtain ⟨v, hv, hlookup, htext⟩ := mem_sortKeys hk hn
      obtain ⟨w, hlookup', hsame⟩ := Data.sameMembers_iff.mp hall _ hv
      have hw := (Js.Value.mem_iff_lookup _ _ hn').mpr hlookup'
      rw [memberText, memberText, htext, canonicalMembers_lookup, hlookup', Option.map_some,
        ih _ hv (hfs _ hv) (hgs _ hw) hsame]
    rw [canonicalJson, canonicalJson, htexts, hsorted]

/-- Data have one text exactly if they are the same up to the order of keys. -/
theorem canonicalJson_inj {v w : Data} (hv : v.Json) (hw : w.Json) :
    canonicalJson v = canonicalJson w ↔ v.Same w := by
  refine ⟨fun h => ?_, canonicalJson_same v hv hw⟩
  have hend : Delimited [] := fun _ h => nomatch h
  exact (canonicalJson_append_inj v hv hw hend hend (by rw [h])).1

end JsonUnits
