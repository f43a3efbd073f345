/-
# Bounded copies of the observer's inputs

`snapshotJson` copies what it is handed within a budget of values, members, key
bytes and string bytes, and refuses a copy whose canonical text is too long.
What it is handed is a tree of plain values: a value that stands in two places,
which the source refuses by the set of the objects it has seen, is refused here
as `host`. A copy is JSON data (`snapshotJson_json`), and data
whose measure is within the limits is copied (`snapshotJson_within`).

Key definitions: `copyJson`, `snapshotJson`, `exactObject`.
Key theorems: `snapshotJson_obj`, `snapshotJson_within`, `snapshotJson_members`.
-/
import ZenonX402.Lib.Loop
import ZenonX402.Lib.Measure
import ZenonX402.Lib.Record

namespace ZenonX402
namespace Observer

open Js
open Value (Json tally tallyElements tallyMembers Within unsigned unsignedElements
  unsignedMembers unsigned_json unsignedMembers_keys unsignedMembers_lookup)

def MAX_INPUT_BYTES : Nat := 512 * 1024

def MAX_INPUT_NODES : Nat := 8192

def MAX_INPUT_MEMBERS : Nat := 8192

def MAX_INPUT_KEY_BYTES : Nat := 64 * 1024

def MAX_INPUT_STRING_BYTES : Nat := 256 * 1024

def MAX_ARRAY_LENGTH : Nat := 4096

def MAX_DEPTH : Nat := 24

/-- `if (c) onFailure()`. -/
def refuseIf (c : Prop) [Decidable c] : Option Unit := if c then none else some ()

@[simp] theorem refuseIf_eq {c : Prop} [Decidable c] {u : Unit} : refuseIf c = some u ↔ ¬ c := by
  unfold refuseIf
  by_cases h : c
  · simp [h]
  · simp [h]

structure Budget where
  keyBytes : Nat
  members : Nat
  nodes : Nat
  stringBytes : Nat

def addBudget (used amount maximum : Nat) : Option Nat := do
  refuseIf (maximum < used + amount)
  return used + amount

namespace Budget

/-- The checks on entering a value: its depth, and one more node. -/
def enter (budget : Budget) (depth : Nat) : Option Budget := do
  refuseIf (MAX_DEPTH < depth)
  let nodes ← addBudget budget.nodes 1 MAX_INPUT_NODES
  return { budget with nodes }

def addStringBytes (budget : Budget) (amount : Nat) : Option Budget := do
  let stringBytes ← addBudget budget.stringBytes amount MAX_INPUT_STRING_BYTES
  return { budget with stringBytes }

def addMembers (budget : Budget) (amount : Nat) : Option Budget := do
  let members ← addBudget budget.members amount MAX_INPUT_MEMBERS
  return { budget with members }

def addKeyBytes (budget : Budget) (amount : Nat) : Option Budget := do
  let keyBytes ← addBudget budget.keyBytes amount MAX_INPUT_KEY_BYTES
  return { budget with keyBytes }

end Budget

/-- Keys that no copied object has. -/
def refusedKey (key : String) : Bool :=
  key == "__proto__" || key == "constructor" || key == "prototype"

mutual

/-- The copy, and the budget that is left of. A length in UTF-16 units is never above the one in
bytes, so the checks on lengths are those on bytes. -/
def copyJson (budget : Budget) (depth : Nat) : Value → Option (Value × Budget)
  | .null => do
    let budget ← budget.enter depth
    return (.null, budget)
  | .bool b => do
    let budget ← budget.enter depth
    return (.bool b, budget)
  | .str s => do
    let budget ← budget.enter depth
    let budget ← budget.addStringBytes s.utf8ByteSize
    return (.str s, budget)
  | .num n => do
    let budget ← budget.enter depth
    refuseIf (9007199254740991 < n.natAbs)
    return (.num n, budget)
  | .negZero => do
    let budget ← budget.enter depth
    return (.num 0, budget)
  | .arr xs => do
    let budget ← budget.enter depth
    refuseIf (MAX_ARRAY_LENGTH < xs.length)
    let budget ← budget.addMembers xs.length
    let (copy, budget) ← copyElements budget depth 0 xs
    return (.arr copy, budget)
  | .obj fs => do
    let budget ← budget.enter depth
    refuseIf (MAX_ARRAY_LENGTH < fs.length)
    let budget ← budget.addMembers fs.length
    let (copy, budget) ← copyMembers budget depth fs
    return (.obj copy, budget)
  | .undefined | .fractional | .host => none

def copyElements (budget : Budget) (depth index : Nat) : List Value → Option (List Value × Budget)
  | [] => some ([], budget)
  | x :: xs => do
    let budget ← budget.addKeyBytes (Nat.toDigits 10 index).length
    let (copy, budget) ← copyJson budget (depth + 1) x
    let (rest, budget) ← copyElements budget depth (index + 1) xs
    return (copy :: rest, budget)

def copyMembers (budget : Budget) (depth : Nat) :
    List (String × Value) → Option (List (String × Value) × Budget)
  | [] => some ([], budget)
  | (key, x) :: fs => do
    refuseIf (refusedKey key)
    let budget ← budget.addKeyBytes key.utf8ByteSize
    let (copy, budget) ← copyJson budget (depth + 1) x
    let (rest, budget) ← copyMembers budget depth fs
    return ((key, copy) :: rest, budget)

end

def snapshotJson (input : Value) : Option Value := do
  let (copy, _) ← copyJson ⟨0, 0, 0, 0⟩ 0 input
  refuseIf (MAX_INPUT_BYTES < (canonicalJson copy).utf8ByteSize)
  return copy

/-- `exactObject`: what a plain object holds under exactly these keys. -/
def exactObject (keys : List String) (input : Value) : Option (String → Value) :=
  (fields keys input).map Prod.snd

/-! ### What a copy is -/

mutual

theorem copyJson_eq : ∀ (v : Value) {w : Value} {budget budget' : Budget} {depth : Nat},
    copyJson budget depth v = some (w, budget') → w = unsigned v
  | .arr xs, w, budget, budget', depth, h => by
    simp only [copyJson, Option.bind_eq_bind, Option.bind_eq_some_iff, Option.pure_def,
      Option.some.injEq] at h
    obtain ⟨b1, _, _, _, b2, _, ⟨copy, b3⟩, hcopy, heq⟩ := h
    obtain ⟨rfl, rfl⟩ := Prod.mk.inj heq
    rw [unsigned, copyElements_eq xs hcopy]
  | .obj fs, w, budget, budget', depth, h => by
    simp only [copyJson, Option.bind_eq_bind, Option.bind_eq_some_iff, Option.pure_def,
      Option.some.injEq] at h
    obtain ⟨b1, _, _, _, b2, _, ⟨copy, b3⟩, hcopy, heq⟩ := h
    obtain ⟨rfl, rfl⟩ := Prod.mk.inj heq
    rw [unsigned, copyMembers_eq fs hcopy]
  | .num n, w, budget, budget', depth, h => by
    simp only [copyJson, Option.bind_eq_bind, Option.bind_eq_some_iff, Option.pure_def,
      Option.some.injEq] at h
    obtain ⟨b1, _, _, _, heq⟩ := h
    exact (Prod.mk.inj heq).1 ▸ rfl
  | .str s, w, budget, budget', depth, h => by
    simp only [copyJson, Option.bind_eq_bind, Option.bind_eq_some_iff, Option.pure_def,
      Option.some.injEq] at h
    obtain ⟨b1, _, b2, _, heq⟩ := h
    exact (Prod.mk.inj heq).1 ▸ rfl
  | .null, w, budget, budget', depth, h | .bool _, w, budget, budget', depth, h
  | .negZero, w, budget, budget', depth, h => by
    simp only [copyJson, Option.bind_eq_bind, Option.bind_eq_some_iff, Option.pure_def,
      Option.some.injEq] at h
    obtain ⟨b1, _, heq⟩ := h
    exact (Prod.mk.inj heq).1 ▸ rfl
  | .undefined, _, _, _, _, h | .fractional, _, _, _, _, h | .host, _, _, _, _, h => by
    rw [copyJson] at h
    cases h

theorem copyElements_eq :
    ∀ (xs : List Value) {ys : List Value} {budget budget' : Budget} {depth index : Nat},
    copyElements budget depth index xs = some (ys, budget') → ys = unsignedElements xs
  | [], ys, budget, budget', depth, index, h => by
    rw [copyElements] at h
    cases h
    rfl
  | x :: xs, ys, budget, budget', depth, index, h => by
    simp only [copyElements, Option.bind_eq_bind, Option.bind_eq_some_iff, Option.pure_def,
      Option.some.injEq] at h
    obtain ⟨b1, _, ⟨copy, b2⟩, hcopy, ⟨rest, b3⟩, hrest, heq⟩ := h
    obtain ⟨rfl, rfl⟩ := Prod.mk.inj heq
    rw [unsignedElements, copyJson_eq x hcopy, copyElements_eq xs hrest]

theorem copyMembers_eq : ∀ (fs : List (String × Value)) {gs : List (String × Value)}
    {budget budget' : Budget} {depth : Nat}, copyMembers budget depth fs = some (gs, budget') →
    gs = unsignedMembers fs
  | [], gs, budget, budget', depth, h => by
    rw [copyMembers] at h
    cases h
    rfl
  | (key, x) :: fs, gs, budget, budget', depth, h => by
    simp only [copyMembers, Option.bind_eq_bind, Option.bind_eq_some_iff, Option.pure_def,
      Option.some.injEq] at h
    obtain ⟨_, _, b1, _, ⟨copy, b2⟩, hcopy, ⟨rest, b3⟩, hrest, heq⟩ := h
    obtain ⟨rfl, rfl⟩ := Prod.mk.inj heq
    rw [unsignedMembers, copyJson_eq x hcopy, copyMembers_eq fs hrest]

end

theorem snapshotJson_eq {v w : Value} (h : snapshotJson v = some w) : w = unsigned v := by
  simp only [snapshotJson, Option.bind_eq_bind, Option.bind_eq_some_iff, Option.pure_def,
    Option.some.injEq] at h
  obtain ⟨⟨copy, b⟩, hcopy, _, _, rfl⟩ := h
  exact copyJson_eq v hcopy

/-- An object is copied key by key. -/
theorem snapshotJson_obj {fs : List (String × Value)} {w : Value}
    (h : snapshotJson (.obj fs) = some w) :
    ∃ gs, w = .obj gs ∧ gs.map Prod.fst = fs.map Prod.fst
      ∧ ∀ k v, fs.lookup k = some v → v.Json → gs.lookup k = some v := by
  refine ⟨unsignedMembers fs, ?_, ?_, fun k v hk hv => ?_⟩
  · rw [snapshotJson_eq h, unsigned]
  · exact unsignedMembers_keys fs
  · rw [unsignedMembers_lookup, hk, Option.map_some, unsigned_json hv]

/-! ### What is copied -/

/-- The budget has room for a value of this measure at this depth. -/
structure Budget.Allows (b : Budget) (depth : Nat) (m : Measure) : Prop where
  keyBytes : b.keyBytes + m.keyBytes + m.indexBytes ≤ MAX_INPUT_KEY_BYTES
  members : b.members + m.members ≤ MAX_INPUT_MEMBERS
  nodes : b.nodes + m.nodes ≤ MAX_INPUT_NODES
  stringBytes : b.stringBytes + m.stringBytes ≤ MAX_INPUT_STRING_BYTES
  depth : depth + m.depth ≤ MAX_DEPTH
  width : m.width ≤ MAX_ARRAY_LENGTH
  keys : m.refusedKeys = 0

/-- The budget after a value of this measure. -/
def Budget.after (b : Budget) (m : Measure) : Budget :=
  ⟨b.keyBytes + m.keyBytes + m.indexBytes, b.members + m.members, b.nodes + m.nodes,
    b.stringBytes + m.stringBytes⟩

/-- The members of a container are charged before its entries. -/
def Budget.charged (b : Budget) (members : Nat) : Budget :=
  { b with members := b.members + members }

theorem addBudget_of_le {used amount maximum : Nat} (h : used + amount ≤ maximum) :
    addBudget used amount maximum = some (used + amount) := by
  unfold addBudget refuseIf
  rw [if_neg (not_lt.mpr h)]
  rfl

theorem refuseIf_of_not {c : Prop} [Decidable c] (h : ¬ c) : refuseIf c = some () := if_neg h

theorem Budget.enter_of_le {b : Budget} {depth : Nat} (hdepth : depth ≤ MAX_DEPTH)
    (hnodes : b.nodes + 1 ≤ MAX_INPUT_NODES) :
    b.enter depth = some { b with nodes := b.nodes + 1 } := by
  unfold Budget.enter
  rw [refuseIf_of_not (not_lt.mpr hdepth), addBudget_of_le hnodes]
  rfl

theorem Budget.after_combine (b : Budget) (m m' : Measure) :
    (b.after m).after m' = b.after (m.combine m') := by
  simp only [Budget.after, Measure.combine, Budget.mk.injEq]
  omega

theorem Budget.Allows.left {b : Budget} {depth : Nat} {m m' : Measure}
    (h : b.Allows depth (m.combine m')) :
    b.Allows depth m := by
  obtain ⟨h1, h2, h3, h4, h5, h6, h7⟩ := h
  simp only [Measure.combine] at h1 h2 h3 h4 h5 h6 h7
  exact ⟨by omega, by omega, by omega, by omega, by omega, by omega, by omega⟩

theorem Budget.Allows.right {b : Budget} {depth : Nat} {m m' : Measure}
    (h : b.Allows depth (m.combine m')) :
    (b.after m).Allows depth m' := by
  obtain ⟨h1, h2, h3, h4, h5, h6, h7⟩ := h
  simp only [Measure.combine] at h1 h2 h3 h4 h5 h6 h7
  have hkeys : b.keyBytes + m.keyBytes + m.indexBytes + m'.keyBytes + m'.indexBytes
      ≤ MAX_INPUT_KEY_BYTES := by omega
  have hmembers : b.members + m.members + m'.members ≤ MAX_INPUT_MEMBERS := by omega
  have hnodes : b.nodes + m.nodes + m'.nodes ≤ MAX_INPUT_NODES := by omega
  have hstrings : b.stringBytes + m.stringBytes + m'.stringBytes ≤ MAX_INPUT_STRING_BYTES := by
    omega
  exact ⟨hkeys, hmembers, hnodes, hstrings, by omega, by omega, by omega⟩

theorem Budget.Allows.mono {b : Budget} {depth : Nat} {m m' : Measure} (h : b.Allows depth m')
    (hle : m.Le m') :
    b.Allows depth m := by
  obtain ⟨h1, h2, h3, h4, h5, h6, h7⟩ := h
  obtain ⟨l1, l2, l3, l4, l5, l6, l7, l8⟩ := hle
  exact ⟨by omega, by omega, by omega, by omega, by omega, by omega, by omega⟩

/-- The budget after entering a value. -/
def Budget.entered (b : Budget) : Budget := { b with nodes := b.nodes + 1 }

/-- What is inside a container, one level deeper. -/
theorem Budget.Allows.inside {b : Budget} {depth n : Nat} {m : Measure}
    (h : b.Allows depth (m.inside n)) :
    b.entered.Allows (depth + 1) m ∧ n ≤ MAX_ARRAY_LENGTH ∧ b.enter depth = some b.entered := by
  obtain ⟨h1, h2, h3, h4, h5, h6, h7⟩ := h
  simp only [Measure.inside] at h1 h2 h3 h4 h5 h6 h7
  have hnodes : b.nodes + 1 + m.nodes ≤ MAX_INPUT_NODES := by omega
  refine ⟨⟨h1, h2, hnodes, h4, ?_, ?_, h7⟩, ?_, Budget.enter_of_le ?_ ?_⟩
  all_goals omega

theorem length_le_members (refused : String → Bool) (fs : List (String × Value)) :
    fs.length ≤ (tallyMembers refused fs).members := by
  induction fs with
  | nil => exact le_rfl
  | cons f fs ih =>
    simp only [tallyMembers, Measure.combine, Value.keyEntry, List.length_cons]
    omega

theorem length_le_elements (refused : String → Bool) (index : Nat) (xs : List Value) :
    xs.length ≤ (tallyElements refused index xs).members := by
  induction xs generalizing index with
  | nil => exact le_rfl
  | cons x xs ih =>
    have := ih (index + 1)
    simp only [tallyElements, Measure.combine, Value.indexEntry, List.length_cons]
    omega

/-- Charging the members of the rest first leaves room for this one. -/
theorem Budget.Allows.charged {b : Budget} {depth n : Nat} {m m' : Measure}
    (h : b.Allows depth (m.combine m')) (hn : n ≤ m'.members) : (b.charged n).Allows depth m := by
  obtain ⟨h1, h2, h3, h4, h5, h6, h7⟩ := h
  simp only [Measure.combine] at h1 h2 h3 h4 h5 h6 h7
  have hmembers : b.members + n + m.members ≤ MAX_INPUT_MEMBERS := by omega
  have hkeys : b.keyBytes + m.keyBytes + m.indexBytes ≤ MAX_INPUT_KEY_BYTES := by omega
  have hnodes : b.nodes + m.nodes ≤ MAX_INPUT_NODES := by omega
  have hstrings : b.stringBytes + m.stringBytes ≤ MAX_INPUT_STRING_BYTES := by omega
  exact ⟨hkeys, hmembers, hnodes, hstrings, by omega, by omega, by omega⟩

theorem Budget.after_charged (b : Budget) (n : Nat) (m : Measure) :
    (b.charged n).after m = (b.after m).charged n := by
  simp only [Budget.after, Budget.charged, Budget.mk.injEq, true_and, and_true]
  omega

theorem Budget.addKeyBytes_of_le {b : Budget} {amount : Nat}
    (h : b.keyBytes + amount ≤ MAX_INPUT_KEY_BYTES) :
    b.addKeyBytes amount = some { b with keyBytes := b.keyBytes + amount } := by
  unfold Budget.addKeyBytes
  rw [addBudget_of_le h]
  rfl

theorem Budget.addMembers_of_le {b : Budget} {amount : Nat}
    (h : b.members + amount ≤ MAX_INPUT_MEMBERS) :
    b.addMembers amount = some (b.charged amount) := by
  unfold Budget.addMembers
  rw [addBudget_of_le h]
  rfl

/-- A key is charged after all the members of its container. -/
theorem Budget.addKeyBytes_entry {b : Budget} {entry : Measure} {n bytes : Nat}
    (hentry : entry = Value.indexEntry bytes ∨ ∃ refused, entry = Value.keyEntry bytes refused)
    (h : b.keyBytes + bytes ≤ MAX_INPUT_KEY_BYTES) :
    (b.charged (n + 1)).addKeyBytes bytes = some ((b.after entry).charged n) := by
  have hcharged : (b.charged (n + 1)).addKeyBytes bytes
      = some ⟨b.keyBytes + bytes, b.members + (n + 1), b.nodes, b.stringBytes⟩ :=
        Budget.addKeyBytes_of_le h
  rw [hcharged, Option.some.injEq]
  rcases hentry with rfl | ⟨refused, rfl⟩
  · simp only [Budget.charged, Budget.after, Value.indexEntry, Budget.mk.injEq]
    omega
  · simp only [Budget.charged, Budget.after, Value.keyEntry, Budget.mk.injEq]
    omega

/-- Entering a container and filling it. -/
theorem Budget.entered_after (b : Budget) (m : Measure) (n : Nat) :
    b.entered.after m = b.after (m.inside n) := by
  simp only [Budget.entered, Budget.after, Measure.inside, Budget.mk.injEq, true_and, and_true]
  omega

mutual

/-- JSON data that the budget has room for is copied as it is. -/
theorem copyJson_of_allows : ∀ {v : Value} {b : Budget} {depth : Nat}, v.Json →
    b.Allows depth (tally refusedKey v) → copyJson b depth v
      = some (v, b.after (tally refusedKey v))
  | .arr xs, b, depth, hv, h => by
    cases hv with
    | arr hxs =>
      rw [tally] at h ⊢
      obtain ⟨hroom, hlen, henter⟩ := h.inside
      have hmembers : b.entered.members + xs.length ≤ MAX_INPUT_MEMBERS :=
        (Nat.add_le_add_left (length_le_elements refusedKey 0 xs) _).trans hroom.members
      have hcopy := copyElements_of_allows hxs hroom
      simp only [copyJson, Option.bind_eq_bind, Option.bind_eq_some_iff, Option.pure_def]
      refine ⟨_, henter, (), refuseIf_of_not (not_lt.mpr hlen), _,
        Budget.addMembers_of_le hmembers, _, hcopy, ?_⟩
      rw [Budget.entered_after]
  | .obj fs, b, depth, hv, h => by
    cases hv with
    | obj _ hfs =>
      rw [tally] at h ⊢
      obtain ⟨hroom, hlen, henter⟩ := h.inside
      have hmembers : b.entered.members + fs.length ≤ MAX_INPUT_MEMBERS :=
        (Nat.add_le_add_left (length_le_members refusedKey fs) _).trans hroom.members
      have hcopy := copyMembers_of_allows hfs hroom
      simp only [copyJson, Option.bind_eq_bind, Option.bind_eq_some_iff, Option.pure_def]
      refine ⟨_, henter, (), refuseIf_of_not (not_lt.mpr hlen), _,
        Budget.addMembers_of_le hmembers, _, hcopy, ?_⟩
      rw [Budget.entered_after]
  | .str s, b, depth, _, h => by
    have hbytes : b.stringBytes + s.utf8ByteSize ≤ MAX_INPUT_STRING_BYTES := h.stringBytes
    have henter : b.enter depth = some b.entered := Budget.enter_of_le h.depth h.nodes
    have hstring : b.entered.addStringBytes s.utf8ByteSize
        = some { b.entered with stringBytes := b.stringBytes + s.utf8ByteSize } := by
      unfold Budget.addStringBytes
      rw [show b.entered.stringBytes = b.stringBytes from rfl, addBudget_of_le hbytes]
      rfl
    rw [copyJson, henter]
    simp only [Option.bind_eq_bind, Option.bind_some, hstring, Option.pure_def]
    rfl
  | .num n, b, depth, hv, h => by
    cases hv with
    | num hn =>
      have henter : b.enter depth = some b.entered := Budget.enter_of_le h.depth h.nodes
      rw [copyJson, henter]
      simp only [Option.bind_eq_bind, Option.bind_some, refuseIf_of_not (not_lt.mpr hn),
        Option.pure_def]
      rfl
  | .null, b, depth, _, h | .bool _, b, depth, _, h => by
    have henter : b.enter depth = some b.entered := Budget.enter_of_le h.depth h.nodes
    rw [copyJson, henter]
    rfl

theorem copyElements_of_allows : ∀ {xs : List Value} {b : Budget} {depth index : Nat},
    (∀ x ∈ xs, x.Json) →
    b.Allows (depth + 1) (tallyElements refusedKey index xs) →
    copyElements (b.charged xs.length) depth index xs
      = some (xs, b.after (tallyElements refusedKey index xs))
  | [], b, depth, index, _, _ => rfl
  | x :: xs, b, depth, index, hxs, h => by
    rw [tallyElements] at h ⊢
    have hx := h.charged (length_le_elements refusedKey (index + 1) xs)
    have hroom : b.keyBytes + (Nat.toDigits 10 index).length ≤ MAX_INPUT_KEY_BYTES :=
  h.left.left.keyBytes
    have hkey := Budget.addKeyBytes_entry (n := xs.length) (.inl rfl) hroom
    have hcopy := copyJson_of_allows (hxs x List.mem_cons_self) hx.right
    have hrest := copyElements_of_allows (fun y hy => hxs y (List.mem_cons_of_mem _ hy)) h.right
    rw [Budget.after_combine, Budget.after_charged, Budget.after_charged] at hcopy
    rw [Budget.after_combine] at hrest
    simp only [copyElements, Option.bind_eq_bind, Option.bind_eq_some_iff, Option.pure_def]
    exact ⟨_, hkey, (x, _), hcopy, (xs, _), hrest, rfl⟩

theorem copyMembers_of_allows : ∀ {fs : List (String × Value)} {b : Budget} {depth : Nat},
    (∀ f ∈ fs, f.2.Json) →
    b.Allows (depth + 1) (tallyMembers refusedKey fs) →
    copyMembers (b.charged fs.length) depth fs = some (fs, b.after (tallyMembers refusedKey fs))
  | [], b, depth, _, _ => rfl
  | (key, x) :: fs, b, depth, hfs, h => by
    rw [tallyMembers] at h ⊢
    have hx := h.charged (length_le_members refusedKey fs)
    have hallowed : ¬ refusedKey key = true := by
      intro hrefused
      have hkeys := hx.left.keys
      simp [Value.keyEntry, hrefused] at hkeys
    have hroom : b.keyBytes + key.utf8ByteSize ≤ MAX_INPUT_KEY_BYTES := h.left.left.keyBytes
    have hkey := Budget.addKeyBytes_entry (n := fs.length) (.inr ⟨refusedKey key, rfl⟩) hroom
    have hcopy := copyJson_of_allows (hfs (key, x) List.mem_cons_self) hx.right
    have hrest := copyMembers_of_allows (fun f hf => hfs f (List.mem_cons_of_mem _ hf)) h.right
    rw [Budget.after_combine, Budget.after_charged, Budget.after_charged] at hcopy
    rw [Budget.after_combine] at hrest
    simp only [copyMembers, Option.bind_eq_bind, Option.bind_eq_some_iff, Option.pure_def]
    exact ⟨(), refuseIf_of_not hallowed, _, hkey, (x, _), hcopy, (fs, _), hrest, rfl⟩

end

/-- JSON data within the limits is handed on as it is. -/
theorem snapshotJson_within {v : Value} {m : Measure} (hv : v.Json) (h : Within refusedKey v m)
    (hroom : (⟨0, 0, 0, 0⟩ : Budget).Allows 0 m) (hbytes : Value.textBytes m ≤ MAX_INPUT_BYTES) :
    snapshotJson v = some v := by
  have hcopy := copyJson_of_allows hv (hroom.mono h)
  have htext : (canonicalJson v).utf8ByteSize ≤ MAX_INPUT_BYTES := (Value.text_le hv h).trans hbytes
  simp only [snapshotJson, Option.bind_eq_bind, Option.bind_eq_some_iff, Option.pure_def]
  exact ⟨_, hcopy, (), refuseIf_of_not (not_lt.mpr htext), rfl⟩

/-! ### What a copy has used -/

theorem addBudget_some {used amount maximum n : Nat} (h : addBudget used amount maximum = some n) :
    n = used + amount ∧ n ≤ maximum := by
  simp only [addBudget, Option.bind_eq_bind, Option.bind_eq_some_iff, refuseIf_eq, Option.pure_def,
    Option.some.injEq]
    at h
  obtain ⟨_, hle, rfl⟩ := h
  exact ⟨rfl, not_lt.mp hle⟩

theorem Budget.enter_members {b b' : Budget} {depth : Nat} (h : b.enter depth = some b') :
    b'.members = b.members := by
  simp only [Budget.enter, Option.bind_eq_bind, Option.bind_eq_some_iff, Option.pure_def,
    Option.some.injEq] at h
  obtain ⟨_, _, _, _, rfl⟩ := h
  rfl

theorem Budget.addStringBytes_members {b b' : Budget} {n : Nat} (h : b.addStringBytes n = some b') :
    b'.members = b.members := by
  simp only [Budget.addStringBytes, Option.bind_eq_bind, Option.bind_eq_some_iff, Option.pure_def,
    Option.some.injEq] at h
  obtain ⟨_, _, rfl⟩ := h
  rfl

theorem Budget.addKeyBytes_members {b b' : Budget} {n : Nat} (h : b.addKeyBytes n = some b') :
    b'.members = b.members := by
  simp only [Budget.addKeyBytes, Option.bind_eq_bind, Option.bind_eq_some_iff, Option.pure_def,
    Option.some.injEq] at h
  obtain ⟨_, _, rfl⟩ := h
  rfl

theorem Budget.addMembers_members {b b' : Budget} {n : Nat} (h : b.addMembers n = some b') :
    b'.members = b.members + n ∧ b'.members ≤ MAX_INPUT_MEMBERS := by
  simp only [Budget.addMembers, Option.bind_eq_bind, Option.bind_eq_some_iff, Option.pure_def,
    Option.some.injEq] at h
  obtain ⟨n', hadd, rfl⟩ := h
  exact addBudget_some hadd

mutual

/-- A copy has used the members of the value, and never more than there are. -/
theorem copyJson_members : ∀ (v : Value) {w : Value} {b b' : Budget} {depth : Nat},
    copyJson b depth v = some (w, b') → b'.members = b.members + (tally refusedKey v).members
      ∧ (b.members ≤ MAX_INPUT_MEMBERS → b'.members ≤ MAX_INPUT_MEMBERS)
  | .arr xs, w, b, b', depth, h => by
    simp only [copyJson, Option.bind_eq_bind, Option.bind_eq_some_iff, Option.pure_def,
      Option.some.injEq] at h
    obtain ⟨b1, henter, _, _, b2, hadd, ⟨copy, b3⟩, hcopy, heq⟩ := h
    obtain ⟨_, rfl⟩ := Prod.mk.inj heq
    have h1 := Budget.enter_members henter
    obtain ⟨h2, hle⟩ := Budget.addMembers_members hadd
    obtain ⟨h3, hkept⟩ := copyElements_members xs hcopy
    simp only [tally, Measure.inside]
    exact ⟨by omega, fun _ => hkept hle⟩
  | .obj fs, w, b, b', depth, h => by
    simp only [copyJson, Option.bind_eq_bind, Option.bind_eq_some_iff, Option.pure_def,
      Option.some.injEq] at h
    obtain ⟨b1, henter, _, _, b2, hadd, ⟨copy, b3⟩, hcopy, heq⟩ := h
    obtain ⟨_, rfl⟩ := Prod.mk.inj heq
    have h1 := Budget.enter_members henter
    obtain ⟨h2, hle⟩ := Budget.addMembers_members hadd
    obtain ⟨h3, hkept⟩ := copyMembers_members fs hcopy
    simp only [tally, Measure.inside]
    exact ⟨by omega, fun _ => hkept hle⟩
  | .num n, w, b, b', depth, h => by
    simp only [copyJson, Option.bind_eq_bind, Option.bind_eq_some_iff, Option.pure_def,
      Option.some.injEq] at h
    obtain ⟨b1, henter, _, _, heq⟩ := h
    obtain ⟨_, rfl⟩ := Prod.mk.inj heq
    exact ⟨Budget.enter_members henter, fun hle => (Budget.enter_members henter).le.trans hle⟩
  | .str s, w, b, b', depth, h => by
    simp only [copyJson, Option.bind_eq_bind, Option.bind_eq_some_iff, Option.pure_def,
      Option.some.injEq] at h
    obtain ⟨b1, henter, b2, hstring, heq⟩ := h
    obtain ⟨_, rfl⟩ := Prod.mk.inj heq
    have hsame := (Budget.addStringBytes_members hstring).trans (Budget.enter_members henter)
    exact ⟨hsame, fun hle => hsame.le.trans hle⟩
  | .null, w, b, b', depth, h | .bool _, w, b, b', depth, h | .negZero, w, b, b', depth, h => by
    simp only [copyJson, Option.bind_eq_bind, Option.bind_eq_some_iff, Option.pure_def,
      Option.some.injEq] at h
    obtain ⟨b1, henter, heq⟩ := h
    obtain ⟨_, rfl⟩ := Prod.mk.inj heq
    exact ⟨Budget.enter_members henter, fun hle => (Budget.enter_members henter).le.trans hle⟩
  | .undefined, _, _, _, _, h | .fractional, _, _, _, _, h | .host, _, _, _, _, h => by
    rw [copyJson] at h
    cases h

theorem copyElements_members :
    ∀ (xs : List Value) {ys : List Value} {b b' : Budget} {depth index : Nat},
    copyElements b depth index xs = some (ys, b') →
      b'.members + xs.length = b.members + (tallyElements refusedKey index xs).members
        ∧ (b.members ≤ MAX_INPUT_MEMBERS → b'.members ≤ MAX_INPUT_MEMBERS)
  | [], ys, b, b', depth, index, h => by
    rw [copyElements] at h
    cases h
    exact ⟨rfl, id⟩
  | x :: xs, ys, b, b', depth, index, h => by
    simp only [copyElements, Option.bind_eq_bind, Option.bind_eq_some_iff, Option.pure_def,
      Option.some.injEq] at h
    obtain ⟨b1, hkey, ⟨copy, b2⟩, hcopy, ⟨rest, b3⟩, hrest, heq⟩ := h
    obtain ⟨_, rfl⟩ := Prod.mk.inj heq
    have h1 := Budget.addKeyBytes_members hkey
    obtain ⟨h2, hkept⟩ := copyJson_members x hcopy
    obtain ⟨h3, hkept'⟩ := copyElements_members xs hrest
    change _ = b2.members + _ at h3
    simp only [tallyElements, Measure.combine, Value.indexEntry, List.length_cons]
    exact ⟨by omega, fun hle => hkept' (hkept (h1.le.trans hle))⟩

theorem copyMembers_members :
    ∀ (fs : List (String × Value)) {gs : List (String × Value)} {b b' : Budget} {depth : Nat},
    copyMembers b depth fs = some (gs, b') →
      b'.members + fs.length = b.members + (tallyMembers refusedKey fs).members
        ∧ (b.members ≤ MAX_INPUT_MEMBERS → b'.members ≤ MAX_INPUT_MEMBERS)
  | [], gs, b, b', depth, h => by
    rw [copyMembers] at h
    cases h
    exact ⟨rfl, id⟩
  | (key, x) :: fs, gs, b, b', depth, h => by
    simp only [copyMembers, Option.bind_eq_bind, Option.bind_eq_some_iff, Option.pure_def,
      Option.some.injEq] at h
    obtain ⟨_, _, b1, hkey, ⟨copy, b2⟩, hcopy, ⟨rest, b3⟩, hrest, heq⟩ := h
    obtain ⟨_, rfl⟩ := Prod.mk.inj heq
    have h1 := Budget.addKeyBytes_members hkey
    obtain ⟨h2, hkept⟩ := copyJson_members x hcopy
    obtain ⟨h3, hkept'⟩ := copyMembers_members fs hrest
    change _ = b2.members + _ at h3
    simp only [tallyMembers, Measure.combine, Value.keyEntry, List.length_cons]
    exact ⟨by omega, fun hle => hkept' (hkept (h1.le.trans hle))⟩

end

/-- What is handed on has at most this many members. -/
theorem snapshotJson_members {v w : Value} (h : snapshotJson v = some w) :
    (tally refusedKey v).members ≤ MAX_INPUT_MEMBERS := by
  simp only [snapshotJson, Option.bind_eq_bind, Option.bind_eq_some_iff, Option.pure_def,
    Option.some.injEq] at h
  obtain ⟨⟨copy, b⟩, hcopy, _, _, rfl⟩ := h
  obtain ⟨hmembers, hle⟩ := copyJson_members v hcopy
  have hwithin := hle (Nat.zero_le _)
  rw [hmembers, Nat.zero_add] at hwithin
  exact hwithin

/-- JSON data that is handed on is handed on as it is. -/
theorem snapshotJson_json {v w : Value} (hv : v.Json) (h : snapshotJson v = some w) : w = v :=
  (snapshotJson_eq h).trans (unsigned_json hv)

end Observer
end ZenonX402
