/-
# Plain JavaScript values

The values a JavaScript program is handed by code it does not trust, as far as
descriptor-level checks can tell them apart: `Value`. A value is a tree: no
two positions of it are the same object, so `===` holds between two objects
never (`strictEq`), and a program that keeps an object under a map key does
not find it again.

Two values are the same data (`Same`) when they differ only in the order of
object keys and in the sign of a zero. `canonical` is the representative:
keys sorted at every level. An object's canonical form depends only on what
each key holds (`same_obj_of_lookup`), which is what a reader of objects by
key needs. `unsigned` changes no more than the sign of every zero.
-/
import Mathlib.Data.List.Sort
import Mathlib.Data.List.Nodup
import Mathlib.Data.List.Perm.Basic
import Mathlib.Data.String.Basic
import ZenonX402.Lib.Units

namespace Js

/-- A JavaScript value. `fractional` is any number that is not an integer (a
fraction, an infinity, NaN), `host` anything that is not plain data: a
function, a symbol, a proxy, an object with accessors. -/
inductive Value where
  | undefined
  | null
  | bool (b : Bool)
  | num (n : Int)
  | negZero
  | fractional
  | str (s : String)
  | arr (xs : List Value)
  | obj (fields : List (String × Value))
  | host
  deriving Repr, Inhabited

/-- A value with a property that is evaluated. -/
abbrev evaluated {α : Type} {p : α → Prop} [DecidablePred p] (a : α)
    (h : decide (p a) = true := by exact Eq.refl true) :
    {a // p a} := ⟨a, of_decide_eq_true h⟩

namespace Value

/-- `===` between two positions of a tree of values. -/
def strictEq : Value → Value → Bool
  | .undefined, .undefined => true
  | .null, .null => true
  | .bool a, .bool b => a == b
  | .num a, .num b => a == b
  | .num a, .negZero => a == 0
  | .negZero, .num b => b == 0
  | .negZero, .negZero => true
  | .str a, .str b => a == b
  | _, _ => false

attribute [grind =] strictEq

theorem strictEq_str {v : Value} {s : String} : strictEq v (.str s) = true ↔ v = .str s := by
  cases v <;> simp [strictEq]

theorem strictEq_comm (v w : Value) : strictEq v w = strictEq w v := by
  cases v <;> cases w <;> simp [strictEq, eq_comm]

theorem strictEq_bool {v : Value} {b : Bool} : strictEq v (.bool b) = true ↔ v = .bool b := by
  cases v <;> simp [strictEq]

theorem strictEq_null {v : Value} : strictEq v .null = true ↔ v = .null := by
  cases v <;> simp [strictEq]

theorem strictEq_num {v : Value} {n : Int} (h : n ≠ 0) :
    strictEq v (.num n) = true ↔ v = .num n := by
  cases v with
  | negZero => simpa [strictEq] using h
  | _ => simp [strictEq]

/-! ### Keys in order -/

/-- Object fields in the order of their keys, as `Object.keys(value).sort()`
walks them: keys are compared by their code units. -/
def sortFields (fs : List (String × Value)) : List (String × Value) :=
  fs.insertionSort fun a b => CodeUnits.units a.1 ≤ CodeUnits.units b.1

theorem perm_sortFields (fs : List (String × Value)) : (sortFields fs).Perm fs :=
  List.perm_insertionSort _ fs

theorem sortFields_pairwise (fs : List (String × Value)) :
    (sortFields fs).Pairwise fun a b => CodeUnits.units a.1 ≤ CodeUnits.units b.1 :=
  haveI : Std.Total fun a b : String × Value => CodeUnits.units a.1 ≤ CodeUnits.units b.1 :=
    ⟨fun _ _ => le_total _ _⟩
  haveI : IsTrans (String × Value) fun a b => CodeUnits.units a.1 ≤ CodeUnits.units b.1 :=
    ⟨fun _ _ _ => le_trans⟩
  List.pairwise_insertionSort _ fs

mutual

/-- The value with the keys of every object in order and every zero positive. -/
def canonical : Value → Value
  | .negZero => .num 0
  | .arr xs => .arr (canonicalList xs)
  | .obj fs => .obj (sortFields (canonicalFields fs))
  | .undefined => .undefined
  | .null => .null
  | .bool b => .bool b
  | .num n => .num n
  | .fractional => .fractional
  | .str s => .str s
  | .host => .host

def canonicalList : List Value → List Value
  | [] => []
  | v :: vs => canonical v :: canonicalList vs

def canonicalFields : List (String × Value) → List (String × Value)
  | [] => []
  | (k, v) :: fs => (k, canonical v) :: canonicalFields fs

end

theorem canonicalList_eq_map : ∀ xs, canonicalList xs = xs.map canonical
  | [] => rfl
  | x :: xs => by rw [canonicalList, canonicalList_eq_map xs, List.map_cons]

theorem canonicalFields_eq_map : ∀ fs, canonicalFields fs = fs.map fun f => (f.1, canonical f.2)
  | [] => rfl
  | (k, v) :: fs => by rw [canonicalFields, canonicalFields_eq_map fs, List.map_cons]

theorem canonicalFields_keys (fs : List (String × Value)) :
    (canonicalFields fs).map Prod.fst = fs.map Prod.fst := by
  rw [canonicalFields_eq_map, List.map_map]
  rfl

/-- The same data: equal up to the order of object keys and the sign of zero. -/
def Same (v w : Value) : Prop := canonical v = canonical w

theorem Same.refl (v : Value) : Same v v := rfl

theorem Same.symm {v w : Value} (h : Same v w) : Same w v := Eq.symm h

theorem Same.trans {u v w : Value} (h : Same u v) (h' : Same v w) : Same u w := Eq.trans h h'

theorem same_arr {xs ys : List Value} (h : List.Forall₂ Same xs ys) : Same (.arr xs) (.arr ys) := by
  have : canonicalList xs = canonicalList ys := by
    induction h with
    | nil => rfl
    | cons hxy _ ih => rw [canonicalList, canonicalList, ih, show canonical _
        = canonical _ from hxy]
  simp only [Same, canonical, this]

/-! ### Objects by key -/

/-- A key that is not in the list looks up nothing. -/
theorem lookup_of_notMem {κ α : Type} [BEq κ] [LawfulBEq κ] {fs : List (κ × α)} {k : κ}
    (h : k ∉ fs.map Prod.fst) : fs.lookup k = none := by
  rw [List.lookup_eq_none_iff]
  intro p hp
  have : k ≠ p.1 := fun e => h (List.mem_map.mpr ⟨p, hp, e.symm⟩)
  simpa using this

/-- With distinct keys, an entry of the list is what its key looks up. -/
theorem mem_iff_lookup {κ α : Type} [BEq κ] [LawfulBEq κ] (k : κ) (a : α) : ∀ {l : List (κ × α)},
    (l.map Prod.fst).Nodup → ((k, a) ∈ l ↔ l.lookup k = some a)
  | [], _ => by simp
  | (k', a') :: l, hn => by
    simp only [List.map_cons, List.nodup_cons] at hn
    rw [List.mem_cons, List.lookup_cons, mem_iff_lookup k a hn.2]
    rcases eq_or_ne k k' with hk | hk
    · subst hk
      simp [lookup_of_notMem hn.1, eq_comm]
    · have : (k == k') = false := by simpa using hk
      simp [this, hk]

/-- Two field lists with distinct keys and the same entry under every key are
permutations of each other. -/
theorem perm_of_lookup {α : Type} {fs gs : List (String × α)} (hf : (fs.map Prod.fst).Nodup)
    (hg : (gs.map Prod.fst).Nodup) (h : ∀ k, fs.lookup k = gs.lookup k) : fs.Perm gs := by
  rw [List.perm_ext_iff_of_nodup (hf.of_map _) (hg.of_map _)]
  rintro ⟨k, a⟩
  rw [mem_iff_lookup k a hf, mem_iff_lookup k a hg, h k]

theorem lookup_perm {α : Type} {fs gs : List (String × α)} (hf : (fs.map Prod.fst).Nodup)
    (h : fs.Perm gs) (k : String) : fs.lookup k = gs.lookup k := by
  have hg : (gs.map Prod.fst).Nodup := (h.map Prod.fst).nodup_iff.mp hf
  refine Option.ext fun a => ?_
  rw [← mem_iff_lookup k a hf, ← mem_iff_lookup k a hg, h.mem_iff]

theorem sortFields_perm {fs gs : List (String × Value)} (hn : (fs.map Prod.fst).Nodup)
    (h : fs.Perm gs) : sortFields fs = sortFields gs := by
  have hp : (sortFields fs).Perm (sortFields gs) :=
    (perm_sortFields fs).trans (h.trans (perm_sortFields gs).symm)
  refine hp.eq_of_pairwise ?_ (sortFields_pairwise fs) (sortFields_pairwise gs)
  intro a b ha hb hab hba
  have ha' : a ∈ fs := (perm_sortFields fs).mem_iff.mp ha
  have hb' : b ∈ fs := h.mem_iff.mpr ((perm_sortFields gs).mem_iff.mp hb)
  exact List.inj_on_of_nodup_map hn ha' hb' (CodeUnits.units_inj (le_antisymm hab hba))

theorem lookup_canonicalFields (fs : List (String × Value)) (k : String) :
    (canonicalFields fs).lookup k = (fs.lookup k).map canonical := by
  induction fs with
  | nil => rfl
  | cons f fs ih =>
    obtain ⟨k', v⟩ := f
    rw [canonicalFields, List.lookup_cons, List.lookup_cons, ih]
    split <;> rfl

/-- An object is known by what each key holds. -/
theorem same_obj_of_lookup {fs gs : List (String × Value)} (hf : (fs.map Prod.fst).Nodup)
    (hg : (gs.map Prod.fst).Nodup)
    (h : ∀ k, (fs.lookup k).map canonical = (gs.lookup k).map canonical) :
    Same (.obj fs) (.obj gs) := by
  have hp : (canonicalFields fs).Perm (canonicalFields gs) := by
    refine perm_of_lookup ?_ ?_ fun k => ?_
    · rw [canonicalFields_keys]; exact hf
    · rw [canonicalFields_keys]; exact hg
    · rw [lookup_canonicalFields, lookup_canonicalFields, h k]
  simp only [Same, canonical]
  rw [sortFields_perm (by rw [canonicalFields_keys]; exact hf) hp]

/-! ### Numbers -/

/-- `Number.MAX_SAFE_INTEGER`. -/
def maxSafeInteger : Int := 9007199254740991

/-- The number, when `Number.isSafeInteger` holds of the value. -/
def safeInteger? : Value → Option Int
  | .num n => if n.natAbs ≤ 9007199254740991 then some n else none
  | .negZero => some 0
  | _ => none

theorem safeInteger?_num {n : Int} (h : n.natAbs ≤ 9007199254740991) :
    safeInteger? (.num n) = some n := if_pos h

theorem safeInteger?_some {v : Value} {n : Int} (h : safeInteger? v = some n) :
    n.natAbs ≤ 9007199254740991 ∧ Same (.num n) v := by
  cases v <;> simp only [safeInteger?, reduceCtorEq] at h
  case num m =>
    split at h
    · rename_i hm
      cases h
      exact ⟨hm, Same.refl _⟩
    · cases h
  case negZero => cases h; exact ⟨by decide, rfl⟩

/-! ### JSON data -/

/-- The values `JSON.stringify` writes without loss: nothing undefined, no
fraction, no function, every number a safe integer, object keys distinct. -/
inductive Json : Value → Prop
  | null : Json .null
  | bool (b : Bool) : Json (.bool b)
  | num {n : Int} (h : n.natAbs ≤ 9007199254740991) : Json (.num n)
  | str (s : String) : Json (.str s)
  | arr {xs : List Value} (h : ∀ x ∈ xs, Json x) : Json (.arr xs)
  | obj {fs : List (String × Value)} (hn : (fs.map Prod.fst).Nodup) (h : ∀ f ∈ fs, Json f.2) :
      Json (.obj fs)

theorem Json.canonical {v : Value} (h : Json v) : Json v.canonical := by
  induction h with
  | null => exact .null
  | bool b => exact .bool b
  | num h => exact .num h
  | str s => exact .str s
  | arr _ ih =>
    refine .arr fun x hx => ?_
    rw [canonicalList_eq_map] at hx
    obtain ⟨y, hy, rfl⟩ := List.mem_map.mp hx
    exact ih y hy
  | @obj fs hn _ ih =>
    have hp := perm_sortFields (canonicalFields fs)
    refine .obj ?_ fun f hf => ?_
    · rw [(hp.map Prod.fst).nodup_iff, canonicalFields_keys]
      exact hn
    · have hf' := hp.mem_iff.mp hf
      rw [canonicalFields_eq_map] at hf'
      obtain ⟨g, hg, rfl⟩ := List.mem_map.mp hf'
      exact ih g hg

/-! ### The sign of zero -/

mutual

/-- The value with every zero positive. -/
def unsigned : Value → Value
  | .negZero => .num 0
  | .arr xs => .arr (unsignedElements xs)
  | .obj fs => .obj (unsignedMembers fs)
  | .undefined => .undefined
  | .null => .null
  | .bool b => .bool b
  | .num n => .num n
  | .fractional => .fractional
  | .str s => .str s
  | .host => .host

def unsignedElements : List Value → List Value
  | [] => []
  | x :: xs => unsigned x :: unsignedElements xs

def unsignedMembers : List (String × Value) → List (String × Value)
  | [] => []
  | (key, x) :: fs => (key, unsigned x) :: unsignedMembers fs

end

theorem unsignedElements_eq_map : ∀ xs, unsignedElements xs = xs.map unsigned
  | [] => rfl
  | x :: xs => by rw [unsignedElements, unsignedElements_eq_map xs, List.map_cons]

theorem unsignedMembers_eq_map : ∀ fs, unsignedMembers fs = fs.map fun f => (f.1, unsigned f.2)
  | [] => rfl
  | (key, x) :: fs => by rw [unsignedMembers, unsignedMembers_eq_map fs, List.map_cons]

theorem unsignedMembers_keys (fs : List (String × Value)) :
    (unsignedMembers fs).map Prod.fst = fs.map Prod.fst := by
  rw [unsignedMembers_eq_map, List.map_map]
  rfl

theorem unsignedMembers_lookup (fs : List (String × Value)) (k : String) :
    (unsignedMembers fs).lookup k = (fs.lookup k).map unsigned := by
  induction fs with
  | nil => rfl
  | cons f fs ih =>
    obtain ⟨key, x⟩ := f
    rw [unsignedMembers, List.lookup_cons, List.lookup_cons, ih]
    split <;> rfl

mutual

theorem unsigned_json : ∀ {v : Value}, v.Json → unsigned v = v
  | .arr xs, h => by
    cases h with
    | arr h => rw [unsigned, unsignedElements_json h]
  | .obj fs, h => by
    cases h with
    | obj _ h => rw [unsigned, unsignedMembers_json h]
  | .null, _ | .bool _, _ | .num _, _ | .str _, _ => by rw [unsigned]

theorem unsignedElements_json : ∀ {xs : List Value}, (∀ x ∈ xs, x.Json) → unsignedElements xs = xs
  | [], _ => rfl
  | x :: xs, h => by
    rw [unsignedElements, unsigned_json (h x List.mem_cons_self),
      unsignedElements_json fun y hy => h y (List.mem_cons_of_mem _ hy)]

theorem unsignedMembers_json : ∀ {fs : List (String × Value)}, (∀ f ∈ fs, f.2.Json) →
    unsignedMembers fs = fs
  | [], _ => rfl
  | (key, x) :: fs, h => by
    rw [unsignedMembers, unsigned_json (h (key, x) List.mem_cons_self),
      unsignedMembers_json fun f hf => h f (List.mem_cons_of_mem _ hf)]

end

mutual

/-- Key order does not look at the sign of a zero, and neither does `Same`. -/
theorem canonical_unsigned : ∀ v : Value, (unsigned v).canonical = v.canonical
  | .arr xs => by rw [unsigned, canonical, canonical, canonical_unsignedElements xs]
  | .obj fs => by rw [unsigned, canonical, canonical, canonical_unsignedMembers fs]
  | .negZero | .undefined | .null | .bool _ | .num _ | .fractional | .str _ | .host => by
    simp only [unsigned, canonical]

theorem canonical_unsignedElements : ∀ xs, canonicalList (unsignedElements xs) = canonicalList xs
  | [] => rfl
  | x :: xs => by
    rw [unsignedElements, canonicalList, canonicalList, canonical_unsigned x,
      canonical_unsignedElements xs]

theorem canonical_unsignedMembers : ∀ fs, canonicalFields (unsignedMembers fs) = canonicalFields fs
  | [] => rfl
  | (key, x) :: fs => by
    rw [unsignedMembers, canonicalFields, canonicalFields, canonical_unsigned x,
      canonical_unsignedMembers fs]

end

theorem strictEq_unsigned (v w : Value) : strictEq (unsigned v) (unsigned w) = strictEq v w := by
  cases v <;> cases w <;> simp [unsigned, strictEq, eq_comm]

end Value
end Js
