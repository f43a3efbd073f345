/-
# A map in insertion order

`Map` of JavaScript: the entries in the order their keys were first set, no key
twice (`nodup`). Setting a key that is there keeps its place. What a reader
sees of a map is `get?`; what a loop over the values sees is `values`, and
`sum_set` says what setting a key does to a sum over them.

Key definitions: `JsMap`, `get?`, `set`, `values`.
Key theorems: `get?_set`, `mem_values_iff`, `sum_set`, `size_set`.
-/
import ZenonX402.Lib.Value
import Mathlib.Algebra.Order.BigOperators.Group.List
import Mathlib.Algebra.Order.Group.Int
import Mathlib.Algebra.Ring.Int.Defs

namespace Js

structure JsMap (κ α : Type) where
  entries : List (κ × α)
  nodup : (entries.map Prod.fst).Nodup

namespace JsMap

variable {κ α : Type}

def empty : JsMap κ α := ⟨[], List.nodup_nil⟩

def keys (m : JsMap κ α) : List κ := m.entries.map Prod.fst

def values (m : JsMap κ α) : List α := m.entries.map Prod.snd

def size (m : JsMap κ α) : Nat := m.entries.length

/-- What the values of a map add up to. -/
def sum (f : α → Int) (m : JsMap κ α) : Int := (m.values.map f).sum

@[simp] theorem size_empty : (empty : JsMap κ α).size = 0 := rfl

theorem sum_nonneg {f : α → Int} {m : JsMap κ α} (hf : ∀ a, 0 ≤ f a) : 0 ≤ m.sum f :=
  List.sum_nonneg fun x hx => by
    obtain ⟨a, -, rfl⟩ := List.mem_map.mp hx
    exact hf a

theorem length_values (m : JsMap κ α) : m.values.length = m.size := List.length_map _

variable [DecidableEq κ]

def get? (m : JsMap κ α) (k : κ) : Option α := m.entries.lookup k

/-- The entries with the one under `k` replaced, or a new one at the end. -/
def setEntry (k : κ) (a : α) : List (κ × α) → List (κ × α)
  | [] => [(k, a)]
  | (k', a') :: es => if k' = k then (k, a) :: es else (k', a') :: setEntry k a es

theorem setEntry_keys (k : κ) (a : α) (es : List (κ × α)) :
    (setEntry k a es).map Prod.fst =
      if k ∈ es.map Prod.fst then es.map Prod.fst else es.map Prod.fst ++ [k] := by
  induction es with
  | nil => rfl
  | cons e es ih =>
    obtain ⟨k', a'⟩ := e
    unfold setEntry
    by_cases h : k' = k
    · subst h
      simp
    · have h' : ¬ k = k' := fun e => h e.symm
      rw [if_neg h, List.map_cons, ih]
      by_cases hm : k ∈ es.map Prod.fst <;> simp [hm, h']

def set (m : JsMap κ α) (k : κ) (a : α) : JsMap κ α where
  entries := setEntry k a m.entries
  nodup := by
    rw [setEntry_keys]
    split
    · exact m.nodup
    · rename_i h
      exact List.nodup_append.mpr ⟨m.nodup, List.nodup_singleton k, by
        intro x hx y hy
        rw [List.mem_singleton.mp hy]
        exact fun e => h (e ▸ hx)⟩

/-! ### Reading -/

@[simp] theorem get?_empty (k : κ) : (empty : JsMap κ α).get? k = none := rfl

theorem lookup_setEntry (k k' : κ) (a : α) (es : List (κ × α)) :
    (setEntry k a es).lookup k' = if k' = k then some a else es.lookup k' := by
  induction es with
  | nil =>
    rcases eq_or_ne k' k with h | h
    · simp [setEntry, h]
    · simp [setEntry, List.lookup_cons, h, beq_eq_false_iff_ne.mpr h]
  | cons e es ih =>
    obtain ⟨l, b⟩ := e
    unfold setEntry
    by_cases hl : l = k
    · subst hl
      rcases eq_or_ne k' l with h | h
      · simp [h]
      · simp [List.lookup_cons, h, beq_eq_false_iff_ne.mpr h]
    · rw [if_neg hl, List.lookup_cons, List.lookup_cons, ih]
      by_cases h : k' = k
      · subst h
        have : (k' == l) = false := by simpa using fun e : k' = l => hl e.symm
        simp [this]
      · simp [h]

@[simp] theorem get?_set (m : JsMap κ α) (k k' : κ) (a : α) :
    (m.set k a).get? k' = if k' = k then some a else m.get? k' :=
  lookup_setEntry k k' a m.entries

theorem get?_set_self (m : JsMap κ α) (k : κ) (a : α) : (m.set k a).get? k = some a := by simp

theorem get?_set_ne (m : JsMap κ α) {k k' : κ} (a : α) (h : k' ≠ k) :
    (m.set k a).get? k' = m.get? k' := by simp [h]

theorem setEntry_of_lookup {k : κ} {a : α} : ∀ {es : List (κ × α)}, es.lookup k = some a →
    setEntry k a es = es
  | [], h => by cases h
  | (l, b) :: es, h => by
    unfold setEntry
    by_cases hl : l = k
    · subst hl
      have hb : b = a := by simpa using h
      rw [if_pos rfl, hb]
    · have hkl : (k == l) = false := beq_eq_false_iff_ne.mpr fun e => hl e.symm
      rw [List.lookup_cons, hkl] at h
      rw [if_neg hl, setEntry_of_lookup h]

/-- Writing back what a key holds changes nothing. -/
theorem set_of_get? {m : JsMap κ α} {k : κ} {a : α} (h : m.get? k = some a) : m.set k a = m := by
  obtain ⟨es, hn⟩ := m
  simp only [set, JsMap.mk.injEq]
  exact setEntry_of_lookup h

/-- A new key goes to the end. -/
theorem setEntry_new {k : κ} {a : α} : ∀ {es : List (κ × α)}, es.lookup k = none →
    setEntry k a es = es ++ [(k, a)]
  | [], _ => rfl
  | (l, b) :: es, h => by
    rw [List.lookup_cons] at h
    by_cases hl : l = k
    · subst hl
      simp at h
    · have hkl : (k == l) = false := beq_eq_false_iff_ne.mpr fun e => hl e.symm
      rw [hkl] at h
      rw [setEntry, if_neg hl, setEntry_new h, List.cons_append]

theorem entries_set_new {m : JsMap κ α} {k : κ} (a : α) (h : m.get? k = none) :
    (m.set k a).entries = m.entries ++ [(k, a)] := setEntry_new h

theorem mem_entries_iff {m : JsMap κ α} {k : κ} {a : α} : (k, a) ∈ m.entries ↔ m.get? k = some a :=
  Value.mem_iff_lookup k a m.nodup

theorem mem_values_iff {m : JsMap κ α} {a : α} : a ∈ m.values ↔ ∃ k, m.get? k = some a := by
  constructor
  · intro h
    obtain ⟨⟨k, b⟩, he, rfl⟩ := List.mem_map.mp h
    exact ⟨k, mem_entries_iff.mp he⟩
  · rintro ⟨k, h⟩
    exact List.mem_map.mpr ⟨(k, a), mem_entries_iff.mpr h, rfl⟩

theorem mem_keys_iff {m : JsMap κ α} {k : κ} : k ∈ m.keys ↔ ∃ a, m.get? k = some a := by
  constructor
  · intro h
    obtain ⟨⟨k, b⟩, he, rfl⟩ := List.mem_map.mp h
    exact ⟨b, mem_entries_iff.mp he⟩
  · rintro ⟨a, h⟩
    exact List.mem_map.mpr ⟨(k, a), mem_entries_iff.mpr h, rfl⟩

/-! ### Sums over the values -/

theorem sum_setEntry (f : α → Int) (k : κ) (a : α) (es : List (κ × α)) :
    (((setEntry k a es).map Prod.snd).map f).sum =
      ((es.map Prod.snd).map f).sum - ((es.lookup k).map f).getD 0 + f a := by
  induction es with
  | nil => simp [setEntry]
  | cons e es ih =>
    obtain ⟨l, b⟩ := e
    unfold setEntry
    rw [List.lookup_cons]
    by_cases hl : l = k
    · subst hl
      simp only [if_true, beq_self_eq_true, List.map_cons, List.sum_cons, Option.map_some,
        Option.getD_some]
      omega
    · have : (k == l) = false := by simpa using fun e : k = l => hl e.symm
      simp only [if_neg hl, this, List.map_cons, List.sum_cons, ih]
      omega

/-- Setting a key takes what it held out of the sum and puts the new value in. -/
theorem sum_set (f : α → Int) (m : JsMap κ α) (k : κ) (a : α) :
    (m.set k a).sum f = m.sum f - ((m.get? k).map f).getD 0 + f a :=
  sum_setEntry f k a m.entries

theorem length_setEntry (k : κ) (a : α) (es : List (κ × α)) :
    (setEntry k a es).length = es.length + if (es.lookup k).isSome then 0 else 1 := by
  induction es with
  | nil => rfl
  | cons e es ih =>
    obtain ⟨l, b⟩ := e
    unfold setEntry
    rw [List.lookup_cons]
    by_cases hl : l = k
    · subst hl
      simp
    · have : (k == l) = false := by simpa using fun e : k = l => hl e.symm
      simp only [if_neg hl, this, List.length_cons, ih]
      omega

theorem size_set (m : JsMap κ α) (k : κ) (a : α) :
    (m.set k a).size = m.size + if (m.get? k).isSome then 0 else 1 :=
  length_setEntry k a m.entries

theorem size_set_le (m : JsMap κ α) (k : κ) (a : α) : (m.set k a).size ≤ m.size + 1 := by
  rw [size_set]
  split <;> omega

/-- A value that gains elements gains them for the whole map. -/
theorem flatMap_set {β : Type} {f : α → List β} {m : JsMap κ α} {k : κ} {a b : α} {xs : List β}
    (h : m.get? k = some a) (hf : (f b).Perm (f a ++ xs)) :
    ((m.set k b).values.flatMap f).Perm (m.values.flatMap f ++ xs) := by
  have hes : ∀ es : List (κ × α), es.lookup k = some a →
      (((setEntry k b es).map Prod.snd).flatMap f).Perm ((es.map Prod.snd).flatMap f ++ xs) := by
    intro es
    induction es with
    | nil => intro h; cases h
    | cons e es ih =>
      obtain ⟨l, c⟩ := e
      intro h
      rw [List.lookup_cons] at h
      by_cases hl : l = k
      · subst hl
        have hc : c = a := by simpa using h
        rw [setEntry, if_pos rfl, List.map_cons, List.map_cons, List.flatMap_cons,
          List.flatMap_cons, hc]
        refine (hf.append_right _).trans ?_
        rw [List.append_assoc, List.append_assoc]
        exact List.perm_append_comm.append_left _
      · have hkl : (k == l) = false := beq_eq_false_iff_ne.mpr fun e => hl e.symm
        rw [hkl] at h
        rw [setEntry, if_neg hl, List.map_cons, List.map_cons, List.flatMap_cons, List.flatMap_cons,
          List.append_assoc]
        exact (ih h).append_left _
  exact hes m.entries h

/-- A sum over the entries in which only those under `k` count is what `k` holds. -/
theorem sum_entries_ite (f : α → Int) (m : JsMap κ α) (k : κ) :
    (m.entries.map fun e => if e.1 = k then f e.2 else 0).sum = ((m.get? k).map f).getD 0 := by
  obtain ⟨es, hn⟩ := m
  change (es.map fun e => if e.1 = k then f e.2 else 0).sum = ((es.lookup k).map f).getD 0
  induction es with
  | nil => rfl
  | cons e es ih =>
    obtain ⟨l, a⟩ := e
    obtain ⟨hl, hn'⟩ := List.nodup_cons.mp hn
    rw [List.map_cons, List.sum_cons, ih hn', List.lookup_cons]
    rcases eq_or_ne l k with hlk | hlk
    · subst hlk
      simp [Value.lookup_of_notMem hl]
    · have hkl : (k == l) = false := beq_eq_false_iff_ne.mpr hlk.symm
      simp [hlk, hkl]

/-- A value of the map is one of its terms, so a sum of non-negative terms bounds it. -/
theorem le_sum {f : α → Int} {m : JsMap κ α} (hf : ∀ k a, m.get? k = some a → 0 ≤ f a)
    {k : κ} {a : α} (h : m.get? k = some a) : f a ≤ m.sum f := by
  have hmem : f a ∈ m.values.map f := List.mem_map.mpr ⟨a, mem_values_iff.mpr ⟨k, h⟩, rfl⟩
  refine List.single_le_sum ?_ _ hmem
  intro x hx
  obtain ⟨b, hb, rfl⟩ := List.mem_map.mp hx
  obtain ⟨l, hl⟩ := mem_values_iff.mp hb
  exact hf l b hl

end JsMap
end Js
