/-
# Order statistics

The `k`-th smallest of a list, counted from 1, is the element with fewer than `k`
below it and at least `k` not above it (`IsRank`). There is one (`IsRank.unique`), it
does not depend on the order of the list (`IsRank.perm`), and it stands at its place
in the list sorted (`isRank_sorted`).

A sorted list is what any sorting of it is (`sort_eq`), so sorting goes through a
monotone map and through a filter (`sort_map`, `sort_filter`).

Key definitions: `sort`, `IsRank`, `nearestRank`.
Key theorems: `IsRank.unique`, `isRank_sorted`, `sort_map`, `sort_filter`.
-/
import Mathlib.Data.List.Sort
import Mathlib.Order.Nat

namespace Js

variable {α β : Type} [LinearOrder α] [LinearOrder β]

/-- `values.sort((a, b) => a < b ? -1 : a > b ? 1 : 0)`. -/
def sort (xs : List α) : List α := xs.insertionSort (· ≤ ·)

theorem sort_perm (xs : List α) : (sort xs).Perm xs := List.perm_insertionSort _ xs

theorem sort_sorted (xs : List α) : (sort xs).Pairwise (· ≤ ·) := List.pairwise_insertionSort _ xs

theorem length_sort (xs : List α) : (sort xs).length = xs.length := (sort_perm xs).length_eq

theorem sort_eq {xs ys : List α} (hperm : ys.Perm xs) (hsorted : ys.Pairwise (· ≤ ·)) :
    ys = sort xs :=
  (hperm.trans (sort_perm xs).symm).eq_of_pairwise' hsorted (sort_sorted xs)

/-- A monotone map of the sorted list is the sorted list of the images. -/
theorem sort_map {f : α → β} (hf : Monotone f) (xs : List α) : (sort xs).map f = sort (xs.map f) :=
  sort_eq ((sort_perm xs).map f) (List.pairwise_map.mpr ((sort_sorted xs).imp fun h => hf h))

theorem sort_filter (p : α → Bool) (xs : List α) : (sort xs).filter p = sort (xs.filter p) :=
  sort_eq ((sort_perm xs).filter p) ((sort_sorted xs).sublist List.filter_sublist)

/-- The `k`-th smallest. -/
structure IsRank (xs : List α) (k : Nat) (v : α) : Prop where
  mem : v ∈ xs
  below : xs.countP (· < v) < k
  upTo : k ≤ xs.countP (· ≤ v)

namespace IsRank

variable {xs ys : List α} {k : Nat} {v w : α}

theorem perm (h : IsRank xs k v) (hperm : xs.Perm ys) : IsRank ys k v :=
  ⟨hperm.mem_iff.mp h.mem, hperm.countP_eq _ ▸ h.below, hperm.countP_eq _ ▸ h.upTo⟩

theorem le (h : IsRank xs k v) (h' : IsRank xs k w) : w ≤ v := by
  by_contra hle
  have hlt := lt_of_not_ge hle
  have hmono : xs.countP (· ≤ v) ≤ xs.countP (· < w) :=
    List.countP_mono_left fun x _ hx => by simpa using lt_of_le_of_lt (by simpa using hx) hlt
  have hup := h.upTo
  have hbelow := h'.below
  omega

theorem unique (h : IsRank xs k v) (h' : IsRank xs k w) : v = w := le_antisymm (h'.le h) (h.le h')

end IsRank

/-- The nearest rank of a percentage of `n` samples: `Math.ceil(n * percentage / 100)`. (Of few
samples and whole percentages the quotient is rounded to no other side of an integer.) -/
def nearestRank (n percentage : Nat) : Nat := (n * percentage + 99) / 100

theorem nearestRank_pos {n percentage : Nat} (hn : 0 < n) (hp : 0 < percentage) :
    0 < nearestRank n percentage := by
  have hpos : 0 < n * percentage := Nat.mul_pos hn hp
  unfold nearestRank
  omega

theorem nearestRank_le {n percentage : Nat} (hp : percentage ≤ 100) :
    nearestRank n percentage ≤ n := by
  have hle : n * percentage ≤ n * 100 := Nat.mul_le_mul_left _ hp
  unfold nearestRank
  omega

/-- In a sorted list every element stands at its rank. -/
theorem isRank_sorted {xs : List α} (hsorted : xs.Pairwise (· ≤ ·)) {i : Nat} {v : α}
    (hi : xs[i]? = some v) :
    IsRank xs (i + 1) v := by
  obtain ⟨hlt, rfl⟩ := List.getElem?_eq_some_iff.mp hi
  have hle : ∀ j (hj : j < xs.length), j ≤ i → xs[j] ≤ xs[i] := fun j hj hji => by
    rcases Nat.lt_or_eq_of_le hji with h | rfl
    · exact List.pairwise_iff_getElem.mp hsorted j i hj hlt h
    · exact le_rfl
  have hge : ∀ j (hj : j < xs.length), i ≤ j → xs[i] ≤ xs[j] := fun j hj hij => by
    rcases Nat.lt_or_eq_of_le hij with h | rfl
    · exact List.pairwise_iff_getElem.mp hsorted i j hlt hj h
    · exact le_rfl
  refine ⟨List.getElem_mem hlt, ?_, ?_⟩
  · have hdrop : (xs.drop i).countP (· < xs[i]) = 0 := by
      refine List.countP_eq_zero.mpr fun x hx => ?_
      obtain ⟨j, hj, rfl⟩ := List.mem_drop_iff_getElem.mp hx
      simpa using hge (i + j) (by omega) (Nat.le_add_right i j)
    calc xs.countP (· < xs[i]) = (xs.take i ++ xs.drop i).countP (· < xs[i]) := by
           rw [List.take_append_drop]
      _ = (xs.take i).countP (· < xs[i]) := by rw [List.countP_append, hdrop, Nat.add_zero]
      _ ≤ (xs.take i).length := List.countP_le_length
      _ < i + 1 := by rw [List.length_take]; omega
  · have htake : (xs.take (i + 1)).countP (· ≤ xs[i]) = (xs.take (i + 1)).length := by
      refine List.countP_eq_length.mpr fun x hx => ?_
      obtain ⟨j, hj, rfl⟩ := List.mem_take_iff_getElem.mp hx
      simpa using hle j (by omega) (by omega)
    have hsplit := congrArg (List.countP (· ≤ xs[i])) (List.take_append_drop (i + 1) xs)
    rw [List.countP_append, htake, List.length_take] at hsplit
    omega

/-- What changing an element does to how many there are of a kind. -/
theorem countP_modify {β : Type} {q : β → Bool} {m : β → β} {xs : List β} {k : Nat} {e : β}
    (hk : xs[k]? = some e) :
    (xs.modify k m).countP q + (q e).toNat = xs.countP q + (q (m e)).toNat := by
  induction xs generalizing k with
  | nil => simp at hk
  | cons x xs ih =>
    rw [List.countP_cons]
    cases k with
    | zero =>
      obtain rfl : x = e := by simpa using hk
      rw [List.modify_zero_cons, List.countP_cons]
      cases q x <;> cases q (m x) <;> simp
    | succ k =>
      have hrest := ih (by simpa using hk)
      rw [List.modify_succ_cons, List.countP_cons]
      omega

/-- The element at the place of a rank of the sorted list is the one of that rank. -/
theorem isRank_sort {xs : List α} {k : Nat} {v : α} (hk : 0 < k) (h : (sort xs)[k - 1]? = some v) :
    IsRank xs k v := by
  have hrank := (isRank_sorted (sort_sorted xs) h).perm (sort_perm xs)
  rwa [Nat.sub_add_cancel hk] at hrank

end Js
