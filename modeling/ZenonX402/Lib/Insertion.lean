/-
# Insertion sort in place

The sort as a program writes it over an array: the key at each place moves down past the
greater ones before it, which move up by one. An array is a list here. Places before the
one whose turn it is are in strict order (`Sorted`), if no key stands twice, so the array is
in the end, and it keeps its keys (`insertionSort_spec`).

Key definitions: `shift`, `insertAt`, `insertionSort`.
Key theorems: `insertAt_prefix`, `insertionSort_spec`.
-/
import Mathlib.Data.List.Induction
import Mathlib.Data.List.Lex
import Mathlib.Data.List.Sort

namespace Insertion

variable {α : Type} [LinearOrder α]

/-- Keys that are greater than this one move up, from the place before `insertion` down. -/
def shift (key : α) : Nat → List α → Nat × List α
  | 0, keys => (0, keys)
  | insertion + 1, keys => match keys[insertion]? with
    | none => (insertion + 1, keys)
    | some other => if key < other then shift key insertion (keys.set (insertion + 1) other)
        else (insertion + 1, keys)

/-- The key at a place moves down to where it belongs. -/
def insertAt (keys : List α) (index : Nat) : List α :=
  match keys[index]? with
  | none => keys
  | some key =>
    let (insertion, keys) := shift key index keys
    keys.set insertion key

def insertionSort (keys : List α) : List α := (List.range' 1 (keys.length - 1)).foldl insertAt keys

/-- Keys in strict order. -/
def Sorted (keys : List α) : Prop := keys.Pairwise (· < ·)

/-! ### One key -/

/-- The key comes to stand after the last one that is not greater. Whatever stands at its place
before is lost. -/
theorem shift_prefix (key : α) : ∀ (p : List α) (x : α) (q : List α), ∃ a b, p = a ++ b
    ∧ (∀ other ∈ b, key < other)
    ∧ (∀ other ∈ a.getLast?, ¬key < other)
    ∧ (shift key p.length (p ++ x :: q)).2.set (shift key p.length (p ++ x :: q)).1 key = a
    ++ key :: (b ++ q) := by
  intro p
  induction p using List.reverseRecOn with
  | nil =>
    intro x q
    exact ⟨[], [], rfl, by simp, by simp, by simp [shift]⟩
  | append_singleton p other ih =>
    intro x q
    have hget : (p ++ [other] ++ x :: q)[p.length]? = some other := by simp
    have hset : (p ++ [other] ++ x :: q).set (p.length + 1) other = p ++ other :: other :: q := by
      rw [List.set_append_right _ _ (by simp)]
      simp
    rw [List.length_append, List.length_singleton, shift, hget]
    dsimp only
    by_cases hless : key < other
    · rw [if_pos hless, hset]
      obtain ⟨a, b, rfl, hb, ha, hresult⟩ := ih other (other :: q)
      refine ⟨a, b ++ [other], by simp, fun y hy => ?_, ha, by rw [hresult]; simp⟩
      rcases List.mem_append.mp hy with hy | hy
      · exact hb y hy
      · rw [List.mem_singleton.mp hy]
        exact hless
    · rw [if_neg hless]
      refine ⟨p ++ [other], [], by simp, by simp, fun y hy => ?_, ?_⟩
      · rw [List.getLast?_append, List.getLast?_singleton, Option.some_or,
          Option.mem_some_iff] at hy
        rwa [← hy]
      · rw [List.set_append_right _ _ (by simp)]
        simp

/-- A key moves down among the ones before it, and the ones after it stay. -/
theorem insertAt_prefix (p : List α) (key : α) (q : List α) :
    ∃ a b, p = a ++ b ∧ (∀ other ∈ b, key < other)
    ∧ (∀ other ∈ a.getLast?, ¬key < other) ∧ insertAt (p ++ key :: q) p.length = a
    ++ key :: (b ++ q) := by
  obtain ⟨a, b, hp, hb, ha, hresult⟩ := shift_prefix key p key q
  refine ⟨a, b, hp, hb, ha, ?_⟩
  have hget : (p ++ key :: q)[p.length]? = some key := by simp
  rw [insertAt, hget]
  exact hresult

/-- A key that is new comes into its place among sorted ones. -/
theorem sorted_insert {a b : List α} {key : α} (h : Sorted (a ++ b)) (hnew : key ∉ a ++ b)
    (hb : ∀ other ∈ b, key < other) (ha : ∀ other ∈ a.getLast?, ¬key < other) :
    Sorted (a ++ key :: b) := by
  obtain ⟨hsorted, hsorted', hcross⟩ := List.pairwise_append.mp h
  have hbefore : ∀ other ∈ a, other < key := by
    rcases List.eq_nil_or_concat a with rfl | ⟨a, last, rfl⟩
    · exact fun other h => absurd h List.not_mem_nil
    have hlast : last < key := by
      refine lt_of_le_of_ne (not_lt.mp (ha last (by simp))) fun heq => hnew ?_
      rw [← heq]
      simp
    intro other hother
    rw [List.concat_eq_append] at hother hsorted
    rcases List.mem_append.mp hother with hother | hother
    · exact lt_trans ((List.pairwise_append.mp hsorted).2.2 other hother last
        List.mem_cons_self) hlast
    · rwa [List.mem_singleton.mp hother]
  refine List.pairwise_append.mpr ⟨hsorted, List.pairwise_cons.mpr ⟨hb, hsorted'⟩,
    fun x hx y hy => ?_⟩
  rcases List.mem_cons.mp hy with rfl | hy
  · exact hbefore x hx
  · exact hcross x hx y hy

/-! ### All keys -/

/-- After some turns the first keys are in order, and the others stand as they did. -/
theorem foldl_insertAt (q : List α) : ∀ (p : List α), Sorted p → (p ++ q).Nodup →
    ∃ r, (List.range' p.length q.length).foldl insertAt (p ++ q) = r ∧ r.Perm (p ++ q)
      ∧ Sorted r := by
  induction q with
  | nil =>
    intro p hp _
    exact ⟨p ++ [], rfl, List.Perm.refl _, by rwa [List.append_nil]⟩
  | cons key q ih =>
    intro p hp hnodup
    obtain ⟨a, b, rfl, hb, ha, hinsert⟩ := insertAt_prefix p key q
    have hperm : (a ++ key :: b ++ q).Perm (a ++ b ++ key :: q) := by
      simp only [List.append_assoc, List.cons_append]
      exact List.perm_middle.symm.append_left a
    have hnew : key ∉ a ++ b := by
      intro hmem
      exact (List.nodup_append.mp hnodup).2.2 key hmem key List.mem_cons_self rfl
    obtain ⟨r, hfold, hr, hsorted⟩ :=
      ih (a ++ key :: b) (sorted_insert hp hnew hb ha) (hperm.nodup_iff.mpr hnodup)
    refine ⟨r, ?_, hr.trans hperm, hsorted⟩
    rw [List.length_cons, List.range'_succ, List.foldl_cons, hinsert, ← hfold]
    have hlength : (a ++ key :: b).length = (a ++ b).length + 1 := by
      simp only [List.length_append, List.length_cons]
      omega
    rw [hlength]
    simp only [List.append_assoc, List.cons_append]

/-- The sort puts keys in order that are all different, and loses none. -/
theorem insertionSort_spec {keys : List α} (h : keys.Nodup) :
    (insertionSort keys).Perm keys ∧ Sorted (insertionSort keys) := by
  rcases keys with _ | ⟨key, q⟩
  · exact ⟨List.Perm.refl _, List.Pairwise.nil⟩
  obtain ⟨r, hfold, hperm, hsorted⟩ := foldl_insertAt q [key] (List.pairwise_singleton _ _) h
  have hsort : insertionSort (key :: q) = r := by
    rw [← hfold, insertionSort]
    simp
  rw [hsort]
  exact ⟨hperm, hsorted⟩

/-- Keys are put in order in one way. -/
theorem sorted_unique {l l' : List α} (hl : Sorted l) (hl' : Sorted l') (h : l.Perm l') : l = l' :=
  h.eq_of_pairwise (fun _ _ _ _ hlt hlt' => absurd hlt' (lt_asymm hlt)) hl hl'

end Insertion
