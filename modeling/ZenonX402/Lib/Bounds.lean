/-
# Data within bounds

A program that copies untrusted data with a budget walks it once (`charge`): every value
costs a node, every string and every key its bytes, and arrays, objects and the depth are
bounded. What it copies is JSON data of a bounded shape (`Copied`), and what the walk costs
is the measure of the data, so that the walk succeeds exactly when the data has the shape
and the budget covers its measure (`charge_iff`). Neither depends on the order of keys.

A reader of texts that walks what it parsed and compares the canonical text with the one it
was given takes one text for each value (`ofCanonical_iff`). The budget for bytes does not
matter there: a text is longer than all that is written in it.

Key definitions: `Limits`, `Copied`, `charge`, `ofCanonical`, `Codec.read`.
Key theorems: `charge_iff`, `Copied.canonical`, `ofCanonical_iff`, `Codec.read_iff`.
-/
import ZenonX402.Lib.Shape

namespace Js

/-- How deep data nests, how long its arrays are, how many keys its objects have, and which keys
none of them has. -/
structure Limits where
  depth : Nat
  entries : Nat
  keys : Nat
  refused : String → Bool

/-- Whether an object may have these keys. -/
def Limits.allows (L : Limits) (names : List String) : Bool :=
  decide (names.length ≤ L.keys) && decide names.Nodup && names.all fun k => !L.refused k

/-- What may still be copied. -/
structure Budget where
  nodes : Nat
  bytes : Nat

/-- A value at this depth costs a node. -/
def Budget.node (L : Limits) (d : Nat) (b : Budget) : Option Budget :=
  if d ≤ L.depth ∧ 1 ≤ b.nodes then some ⟨b.nodes - 1, b.bytes⟩ else none

def Budget.take (b : Budget) (n : Nat) : Option Budget :=
  if n ≤ b.bytes then some ⟨b.nodes, b.bytes - n⟩ else none

namespace Value

open Js.Measure (none)
open String (utf8Len)

/-! ### The shape -/

/-- Data that may be copied at this depth. -/
inductive Copied (L : Limits) : Nat → Value → Prop
  | null {d : Nat} (hd : d ≤ L.depth) : Copied L d .null
  | bool {d : Nat} (hd : d ≤ L.depth) (b : Bool) : Copied L d (.bool b)
  | num {d : Nat} (hd : d ≤ L.depth) {n : Int} (h : n.natAbs ≤ 9007199254740991) :
      Copied L d (.num n)
  | str {d : Nat} (hd : d ≤ L.depth) (s : String) : Copied L d (.str s)
  | arr {d : Nat} (hd : d ≤ L.depth) {xs : List Value} (hlen : xs.length ≤ L.entries)
      (h : ∀ x ∈ xs, Copied L (d + 1) x) : Copied L d (.arr xs)
  | obj {d : Nat} (hd : d ≤ L.depth) {fs : List (String × Value)} (hlen : fs.length ≤ L.keys)
      (hn : (fs.map Prod.fst).Nodup) (hkeys : ∀ f ∈ fs, L.refused f.1 = false)
      (h : ∀ f ∈ fs, Copied L (d + 1) f.2) : Copied L d (.obj fs)

variable {L : Limits}

theorem Copied.json {d : Nat} {v : Value} (h : Copied L d v) : v.Json := by
  induction h with
  | null _ => exact .null
  | bool _ b => exact .bool b
  | num _ h => exact .num h
  | str _ s => exact .str s
  | arr _ _ _ ih => exact .arr ih
  | obj _ _ hn _ _ ih => exact .obj hn ih

/-- The order of keys does not matter. -/
theorem Copied.canonical {d : Nat} {v : Value} (h : Copied L d v) : Copied L d v.canonical := by
  induction h with
  | null hd => exact .null hd
  | bool hd b => exact .bool hd b
  | num hd h => exact .num hd h
  | str hd s => exact .str hd s
  | arr hd hlen _ ih =>
    rw [Value.canonical, canonicalList_eq_map]
    refine .arr hd (by rwa [List.length_map]) fun x hx => ?_
    obtain ⟨y, hy, rfl⟩ := List.mem_map.mp hx
    exact ih y hy
  | @obj d hd fs hlen hn hkeys _ ih =>
    have hp := perm_sortFields (canonicalFields fs)
    have hmem {f : String × Value} (hf : f ∈ sortFields (canonicalFields fs)) :
        ∃ g ∈ fs, f = (g.1, g.2.canonical) := by
      have hf' := hp.mem_iff.mp hf
      rw [canonicalFields_eq_map] at hf'
      obtain ⟨g, hg, rfl⟩ := List.mem_map.mp hf'
      exact ⟨g, hg, rfl⟩
    rw [Value.canonical]
    refine .obj hd ?_ ?_ (fun f hf => ?_) fun f hf => ?_
    · rw [hp.length_eq, canonicalFields_eq_map, List.length_map]
      exact hlen
    · rw [(hp.map Prod.fst).nodup_iff, canonicalFields_keys]
      exact hn
    · obtain ⟨g, hg, rfl⟩ := hmem hf
      exact hkeys g hg
    · obtain ⟨g, hg, rfl⟩ := hmem hf
      exact ih g hg

theorem copied_fields {d : Nat} {fs : List (String × Value)} (names : List String)
    (hd : d ≤ L.depth) (hnames : fs.map Prod.fst = names) (hallows : L.allows names = true)
    (h : ∀ f ∈ fs, Copied L (d + 1) f.2) :
    Copied L d (.obj fs) := by
  unfold Limits.allows at hallows
  simp only [Bool.and_eq_true, decide_eq_true_eq, List.all_eq_true, Bool.not_eq_true', ← hnames,
    List.length_map] at hallows
  obtain ⟨⟨hlen, hn⟩, hkeys⟩ := hallows
  exact .obj hd hlen hn (fun f hf => hkeys f.1 (List.mem_map_of_mem hf)) h

/-! ### The measure -/

/-- The values inside a value, itself included. -/
def nodeCount (v : Value) : Nat := (tally (fun _ => false) v).nodes

/-- The bytes of its strings and keys. -/
def byteCount (v : Value) : Nat :=
  (tally (fun _ => false) v).keyBytes + (tally (fun _ => false) v).stringBytes

theorem nodeCount_canonical (v : Value) : nodeCount v.canonical = nodeCount v := by
  unfold nodeCount
  rw [tally_canonical]

theorem byteCount_canonical (v : Value) : byteCount v.canonical = byteCount v := by
  unfold byteCount
  rw [tally_canonical]

/-- The values inside a list of them. -/
def nodeCounts (xs : List Value) : Nat := (xs.map nodeCount).sum

def byteCounts (xs : List Value) : Nat := (xs.map byteCount).sum

def memberBytes (fs : List (String × Value)) : Nat :=
  (fs.map fun f => f.1.utf8ByteSize + byteCount f.2).sum

theorem tallyElements_counts (index : Nat) (xs : List Value) :
    (tallyElements (fun _ => false) index xs).nodes = nodeCounts xs
      ∧ (tallyElements (fun _ => false) index xs).keyBytes
      + (tallyElements (fun _ => false) index xs).stringBytes
        = byteCounts xs := by
  induction xs generalizing index with
  | nil => exact ⟨rfl, rfl⟩
  | cons x xs ih =>
    obtain ⟨hnodes, hbytes⟩ := ih (index + 1)
    simp only [tallyElements, Measure.combine, indexEntry, nodeCounts, byteCounts, nodeCount,
      byteCount, List.map_cons, List.sum_cons] at hnodes hbytes ⊢
    omega

theorem tallyMembers_counts (fs : List (String × Value)) :
    (tallyMembers (fun _ => false) fs).nodes = nodeCounts (fs.map Prod.snd)
      ∧ (tallyMembers (fun _ => false) fs).keyBytes + (tallyMembers (fun _ => false) fs).stringBytes
      = memberBytes fs := by
  induction fs with
  | nil => exact ⟨rfl, rfl⟩
  | cons f fs ih =>
    obtain ⟨hnodes, hbytes⟩ := ih
    simp only [tallyMembers, Measure.combine, keyEntry, nodeCounts, memberBytes, nodeCount,
      byteCount, List.map_cons, List.sum_cons] at hnodes hbytes ⊢
    omega

theorem nodeCount_arr (xs : List Value) : nodeCount (.arr xs) = nodeCounts xs + 1 := by
  rw [← (tallyElements_counts 0 xs).1]
  rfl

theorem byteCount_arr (xs : List Value) : byteCount (.arr xs) = byteCounts xs := by
  rw [← (tallyElements_counts 0 xs).2]
  rfl

theorem nodeCount_obj (fs : List (String × Value)) :
    nodeCount (.obj fs) = nodeCounts (fs.map Prod.snd) + 1 := by
  rw [← (tallyMembers_counts fs).1]
  rfl

theorem byteCount_obj (fs : List (String × Value)) : byteCount (.obj fs) = memberBytes fs := by
  rw [← (tallyMembers_counts fs).2]
  rfl

/-- An object of values that hold no others. -/
theorem nodeCount_leaves {fs : List (String × Value)} (h : ∀ f ∈ fs, nodeCount f.2 = 1) :
    nodeCount (.obj fs) = fs.length + 1 := by
  have hsum : ∀ gs : List (String × Value), (∀ f ∈ gs, nodeCount f.2 = 1) →
      nodeCounts (gs.map Prod.snd) = gs.length := by
    intro gs
    induction gs with
    | nil => exact fun _ => rfl
    | cons g gs ih =>
      intro hgs
      have hg := hgs g List.mem_cons_self
      have hrest := ih fun f hf => hgs f (List.mem_cons_of_mem _ hf)
      simp only [nodeCounts, List.map_cons, List.sum_cons, List.length_cons] at hrest ⊢
      omega
  rw [nodeCount_obj, hsum fs h]

mutual

/-- A text is longer than what is written in it. -/
theorem byteCount_le_textSize : ∀ v : Value, byteCount v ≤ textSize v
  | .undefined | .null | .bool _ | .num _ | .negZero | .fractional | .host => Nat.zero_le _
  | .str s => by
    have hsize := utf8ByteSize_le_textSize s
    have hbytes : byteCount (.str s) = s.utf8ByteSize := Nat.zero_add _
    omega
  | .arr xs => by
    have hsize := textSize_arr_eq xs
    have hsum := byteCounts_le xs
    rw [byteCount_arr]
    omega
  | .obj fs => by
    have hsize := textSize_obj_eq fs
    have hsum := memberBytes_le fs
    rw [byteCount_obj]
    omega

theorem byteCounts_le : ∀ xs : List Value, byteCounts xs ≤ (xs.map fun x => textSize x + 1).sum
  | [] => le_rfl
  | x :: xs => by
    have hx := byteCount_le_textSize x
    have hxs := byteCounts_le xs
    simp only [byteCounts, List.map_cons, List.sum_cons] at hxs ⊢
    omega

theorem memberBytes_le :
    ∀ fs : List (String × Value), memberBytes fs ≤ (fs.map fun f => memberSize f.1 f.2).sum
  | [] => le_rfl
  | (k, v) :: fs => by
    have hk := utf8ByteSize_le_textSize k
    have hv := byteCount_le_textSize v
    have hfs := memberBytes_le fs
    simp only [memberBytes, memberSize, List.map_cons, List.sum_cons] at hfs ⊢
    omega

end

/-! ### The walk -/

theorem node_some {d : Nat} {b b' : Budget} :
    b.node L d = some b' ↔ d ≤ L.depth ∧ 1 ≤ b.nodes ∧ b' = ⟨b.nodes - 1, b.bytes⟩ := by
  unfold Budget.node
  split
  · next h => simp only [Option.some.injEq, h, true_and, eq_comm]
  · next h => simpa using fun hd hnodes => absurd ⟨hd, hnodes⟩ h

theorem take_some {b b' : Budget} {n : Nat} :
    b.take n = some b' ↔ n ≤ b.bytes ∧ b' = ⟨b.nodes, b.bytes - n⟩ := by
  unfold Budget.take
  split
  · next h => simp only [Option.some.injEq, h, true_and, eq_comm]
  · next h => simpa using fun hn => absurd hn h

mutual

/-- What is left of the budget after the walk over a value. The keys of an object are distinct in
the program. -/
def charge (L : Limits) (d : Nat) (b : Budget) : Value → Option Budget
  | .null | .bool _ => b.node L d
  | .num n => do
    guard (n.natAbs ≤ 9007199254740991)
    b.node L d
  | .str s => do
    let b ← b.node L d
    b.take s.utf8ByteSize
  | .arr xs => do
    let b ← b.node L d
    guard (xs.length ≤ L.entries)
    chargeElements L (d + 1) b xs
  | .obj fs => do
    let b ← b.node L d
    guard (fs.length ≤ L.keys ∧ (fs.map Prod.fst).Nodup)
    chargeMembers L (d + 1) b fs
  | .undefined | .negZero | .fractional | .host => Option.none

def chargeElements (L : Limits) (d : Nat) (b : Budget) : List Value → Option Budget
  | [] => some b
  | x :: xs => do
    let b ← charge L d b x
    chargeElements L d b xs

def chargeMembers (L : Limits) (d : Nat) (b : Budget) : List (String × Value) → Option Budget
  | [] => some b
  | (k, x) :: fs => do
    guard (L.refused k = false)
    let b ← b.take k.utf8ByteSize
    let b ← charge L d b x
    chargeMembers L d b fs

end

/-- What a budget is after so much of it is spent. -/
def Spent (nodes bytes : Nat) (b b' : Budget) : Prop :=
  nodes ≤ b.nodes ∧ bytes ≤ b.bytes ∧ b' = ⟨b.nodes - nodes, b.bytes - bytes⟩

theorem spent_zero {b b' : Budget} : Spent 0 0 b b' ↔ b = b' :=
  ⟨fun h => h.2.2.symm, fun h => h ▸ ⟨Nat.zero_le _, Nat.zero_le _, rfl⟩⟩

theorem spent_add {n m n' m' : Nat} {b b'' : Budget} :
    (∃ b', Spent n m b b' ∧ Spent n' m' b' b'') ↔ Spent (n + n') (m + m') b b'' := by
  unfold Spent
  constructor
  · rintro ⟨b', ⟨hn, hm, rfl⟩, hn', hm', rfl⟩
    simp only at hn' hm' ⊢
    refine ⟨by omega, by omega, ?_⟩
    rw [Nat.sub_sub, Nat.sub_sub]
  · rintro ⟨hn, hm, rfl⟩
    refine ⟨_, ⟨by omega, by omega, rfl⟩, by simp only; omega, by simp only; omega, ?_⟩
    simp only [Nat.sub_sub]

theorem spent_node {d : Nat} {b b' : Budget} :
    b.node L d = some b' ↔ d ≤ L.depth ∧ Spent 1 0 b b' := by
  rw [node_some]
  unfold Spent
  simp only [Nat.zero_le, Nat.sub_zero, true_and]

theorem spent_take {b b' : Budget} {n : Nat} : b.take n = some b' ↔ Spent 0 n b b' := by
  rw [take_some]
  unfold Spent
  simp only [Nat.zero_le, Nat.sub_zero, true_and]

mutual

/-- The walk succeeds where the data has the shape and the budget covers it. -/
theorem charge_iff {d : Nat} {b b' : Budget} : ∀ v : Value,
    charge L d b v = some b' ↔ Copied L d v ∧ Spent (nodeCount v) (byteCount v) b b'
  | .null => by
    rw [charge, spent_node]
    exact and_congr_left fun _ => ⟨.null, fun h => by cases h; assumption⟩
  | .bool c => by
    rw [charge, spent_node]
    exact and_congr_left fun _ => ⟨fun hd => .bool hd c, fun h => by cases h; assumption⟩
  | .num n => by
    simp only [charge, Option.bind_eq_bind, Option.bind_eq_some_iff, guard_some, spent_node]
    constructor
    · rintro ⟨-, hn, hd, hspent⟩
      exact ⟨.num hd hn, hspent⟩
    · rintro ⟨h, hspent⟩
      cases h with
      | num hd hn => exact ⟨(), hn, hd, hspent⟩
  | .str s => by
    have hbytes : byteCount (.str s) = 0 + s.utf8ByteSize := by
      rw [Nat.zero_add]; exact Nat.zero_add _
    have hnodes : nodeCount (.str s) = 1 + 0 := rfl
    simp only [charge, Option.bind_eq_bind, Option.bind_eq_some_iff, spent_node, spent_take]
    rw [hbytes, hnodes, ← spent_add]
    constructor
    · rintro ⟨b₁, ⟨hd, hnode⟩, htake⟩
      exact ⟨.str hd s, b₁, hnode, htake⟩
    · rintro ⟨h, b₁, hnode, htake⟩
      cases h with
      | str hd => exact ⟨b₁, ⟨hd, hnode⟩, htake⟩
  | .arr xs => by
    rw [nodeCount_arr, byteCount_arr, Nat.add_comm, ← Nat.zero_add (byteCounts xs), ← spent_add]
    simp only [charge, Option.bind_eq_bind, Option.bind_eq_some_iff, guard_some, spent_node,
      chargeElements_iff xs]
    constructor
    · rintro ⟨b₁, ⟨hd, hnode⟩, -, hlen, hxs, hspent⟩
      exact ⟨.arr hd hlen hxs, b₁, hnode, hspent⟩
    · rintro ⟨h, b₁, hnode, hspent⟩
      cases h with
      | arr hd hlen hxs => exact ⟨b₁, ⟨hd, hnode⟩, (), hlen, hxs, hspent⟩
  | .obj fs => by
    rw [nodeCount_obj, byteCount_obj, Nat.add_comm, ← Nat.zero_add (memberBytes fs), ← spent_add]
    simp only [charge, Option.bind_eq_bind, Option.bind_eq_some_iff, guard_some, spent_node,
      chargeMembers_iff fs]
    constructor
    · rintro ⟨b₁, ⟨hd, hnode⟩, -, ⟨hlen, hn⟩, hfs, hspent⟩
      exact ⟨.obj hd hlen hn (fun f hf => (hfs f hf).1) (fun f hf => (hfs f hf).2), b₁,
        hnode, hspent⟩
    · rintro ⟨h, b₁, hnode, hspent⟩
      cases h with
      | obj hd hlen hn hkeys hfs =>
          exact ⟨b₁, ⟨hd, hnode⟩, (), ⟨hlen, hn⟩, fun f hf => ⟨hkeys f hf, hfs f hf⟩, hspent⟩
  | .undefined | .negZero | .fractional | .host => ⟨nofun, nofun⟩

theorem chargeElements_iff {d : Nat} {b b' : Budget} : ∀ xs : List Value,
    chargeElements L d b xs = some b' ↔ (∀ x ∈ xs, Copied L d x) ∧ Spent (nodeCounts xs)
    (byteCounts xs) b b'
  | [] => by
    rw [chargeElements, nodeCounts, byteCounts, List.map_nil, List.map_nil, List.sum_nil,
      spent_zero, Option.some.injEq]
    exact ⟨fun h => ⟨nofun, h⟩, fun h => h.2⟩
  | x :: xs => by
    rw [nodeCounts, byteCounts, List.map_cons, List.map_cons, List.sum_cons,
      List.sum_cons, ← spent_add]
    simp only [chargeElements, Option.bind_eq_bind, Option.bind_eq_some_iff, charge_iff x,
      chargeElements_iff xs, List.forall_mem_cons]
    constructor
    · rintro ⟨b₁, ⟨hx, hspent⟩, hxs, hrest⟩
      exact ⟨⟨hx, hxs⟩, b₁, hspent, hrest⟩
    · rintro ⟨⟨hx, hxs⟩, b₁, hspent, hrest⟩
      exact ⟨b₁, ⟨hx, hspent⟩, hxs, hrest⟩

theorem chargeMembers_iff {d : Nat} {b b' : Budget} : ∀ fs : List (String × Value),
    chargeMembers L d b fs = some b' ↔ (∀ f ∈ fs, L.refused f.1 = false ∧ Copied L d f.2)
      ∧ Spent (nodeCounts (fs.map Prod.snd)) (memberBytes fs) b b'
  | [] => by
    rw [chargeMembers, memberBytes, List.map_nil, nodeCounts, List.map_nil, List.map_nil,
      List.sum_nil, spent_zero, Option.some.injEq]
    exact ⟨fun h => ⟨nofun, h⟩, fun h => h.2⟩
  | (k, x) :: fs => by
    have hnodes : nodeCounts (((k, x) :: fs).map Prod.snd)
        = 0 + (nodeCount x + nodeCounts (fs.map Prod.snd)) := by
      rw [Nat.zero_add]
      rfl
    have hbytes : memberBytes ((k, x) :: fs) = k.utf8ByteSize + (byteCount x + memberBytes fs) := by
      rw [← Nat.add_assoc]
      rfl
    rw [hnodes, hbytes, ← spent_add]
    simp only [chargeMembers, Option.bind_eq_bind, Option.bind_eq_some_iff, guard_some,
      spent_take, charge_iff x, chargeMembers_iff fs, List.forall_mem_cons, ← spent_add]
    constructor
    · rintro ⟨-, hk, b₁, hkey, b₂, ⟨hx, hspent⟩, hfs, hrest⟩
      exact ⟨⟨⟨hk, hx⟩, hfs⟩, b₁, hkey, b₂, hspent, hrest⟩
    · rintro ⟨⟨⟨hk, hx⟩, hfs⟩, b₁, hkey, b₂, hspent, hrest⟩
      exact ⟨(), hk, b₁, hkey, b₂, ⟨hx, hspent⟩, hfs, hrest⟩

end

/-- The walk from the top, with a whole budget. -/
theorem charge_isSome {b : Budget} {v : Value} :
    (charge L 0 b v).isSome = true ↔ Copied L 0 v ∧ nodeCount v ≤ b.nodes ∧ byteCount v
      ≤ b.bytes := by
  rw [Option.isSome_iff_exists]
  constructor
  · rintro ⟨b', h⟩
    obtain ⟨hcopied, hnodes, hbytes, -⟩ := (charge_iff v).mp h
    exact ⟨hcopied, hnodes, hbytes⟩
  · rintro ⟨hcopied, hnodes, hbytes⟩
    exact ⟨_, (charge_iff v).mpr ⟨hcopied, hnodes, hbytes, rfl⟩⟩

end Value

/-! ### Canonical texts -/

open Value

mutual

/-- What is in order stays as it is. -/
theorem Value.canonical_canonical : ∀ v : Value, v.canonical.canonical = v.canonical
  | .undefined | .null | .bool _ | .num _ | .negZero | .fractional | .str _ | .host => rfl
  | .arr xs => by
    rw [canonical, canonical, Value.canonicalList_canonicalList xs]
  | .obj fs => by
    have hmap : canonicalFields (sortFields (canonicalFields fs))
        = sortFields (canonicalFields fs) := by
      rw [canonicalFields_eq_map]
      refine (List.map_congr_left fun f hf => ?_).trans (List.map_id _)
      have hmem := (perm_sortFields _).mem_iff.mp hf
      exact Prod.ext rfl (Value.canonicalFields_fixed fs f hmem)
    rw [canonical, canonical, hmap]
    exact congrArg Value.obj (sortFields_pairwise (canonicalFields fs)).insertionSort_eq

theorem Value.canonicalList_canonicalList :
    ∀ xs : List Value, canonicalList (canonicalList xs) = canonicalList xs
  | [] => rfl
  | x :: xs => by
    rw [canonicalList, canonicalList, Value.canonical_canonical x,
      Value.canonicalList_canonicalList xs]

theorem Value.canonicalFields_fixed : ∀ (fs : List (String × Value)), ∀ f ∈ canonicalFields fs,
    f.2.canonical = f.2
  | [], f, hf => by cases hf
  | (k, v) :: fs, f, hf => by
    rw [canonicalFields] at hf
    rcases List.mem_cons.mp hf with rfl | hf
    · exact Value.canonical_canonical v
    · exact Value.canonicalFields_fixed fs f hf

end

/-- The value of a canonical text of at most so many bytes, whose copy costs at most so many nodes.
-/
def ofCanonical (L : Limits) (nodes max : Nat) (raw : String) : Option Value := do
  guard (raw ≠ "" ∧ raw.utf8ByteSize ≤ max)
  let v ← parse raw
  guard ((charge L 0 ⟨nodes, max⟩ v).isSome = true)
  guard (canonicalJson v = raw)
  return v

theorem canonicalJson_ne_empty (v : Value) : canonicalJson v ≠ "" := by
  intro h
  have hsize := size_stringify v.canonical
  have hone := one_le_textSize v.canonical
  rw [← canonicalJson, h] at hsize
  have hzero : ("" : String).utf8ByteSize = 0 := rfl
  omega

theorem size_canonicalJson (v : Value) : (canonicalJson v).utf8ByteSize = textSize v := by
  rw [canonicalJson, size_stringify, textSize_canonical]

/-- One text for each value. -/
theorem ofCanonical_iff {L : Limits} {nodes max : Nat} {raw : String} {v : Value} :
    ofCanonical L nodes max raw = some v ↔
    raw = canonicalJson v ∧ v.canonical = v ∧ textSize v ≤ max ∧ Copied L 0 v
      ∧ nodeCount v ≤ nodes := by
  simp only [ofCanonical, Option.bind_eq_bind, Option.bind_eq_some_iff, guard_some, charge_isSome,
    Option.pure_def, Option.some.injEq]
  constructor
  · rintro ⟨-, ⟨-, hsize⟩, w, hparse, -, ⟨hcopied, hnodes, -⟩, -, htext, rfl⟩
    have hcanonical := parse_canonicalJson hcopied.json
    rw [htext, hparse] at hcanonical
    rw [← htext, size_canonicalJson] at hsize
    exact ⟨htext.symm, (Option.some.inj hcanonical).symm, hsize, hcopied, hnodes⟩
  · rintro ⟨rfl, hcanonical, hsize, hcopied, hnodes⟩
    have hparse := parse_canonicalJson hcopied.json
    rw [hcanonical] at hparse
    have hbytes := byteCount_le_textSize v
    refine ⟨(), ⟨canonicalJson_ne_empty v, (size_canonicalJson v).trans_le hsize⟩, v, hparse, (),
      ⟨hcopied, hnodes, ?_⟩, (), rfl, rfl⟩
    exact hbytes.trans hsize

/-- A reader that parses its own canonical text again. -/
theorem ofCanonical_canonicalJson {L : Limits} {nodes max : Nat} {v : Value}
    (hcopied : Copied L 0 v) (hnodes : nodeCount v ≤ nodes) (hsize : textSize v ≤ max) :
    ofCanonical L nodes max (canonicalJson v) = some v.canonical := by
  refine ofCanonical_iff.mpr ⟨?_, ?_, ?_, hcopied.canonical, ?_⟩
  · rw [canonicalJson, canonicalJson, canonical_canonical]
  · exact canonical_canonical v
  · rwa [textSize_canonical]
  · rwa [nodeCount_canonical]

namespace Codec

variable {ε α : Type}

theorem toOption_some {x : Except ε α} {a : α} : x.toOption = some a ↔ x = .ok a := by
  cases x with
  | error e => exact ⟨nofun, nofun⟩
  | ok b => exact ⟨fun h => congrArg Except.ok (Option.some.inj h),
      fun h => congrArg some (Except.ok.inj h)⟩

/-- The record in a canonical text. -/
def read (c : Codec ε α) (L : Limits) (nodes max : Nat) (raw : String) : Option α := do
  let v ← ofCanonical L nodes max raw
  (c.decode v).toOption

/-- The canonical text of a record. -/
def canonicalText (c : Codec ε α) (a : α) : String := canonicalJson (c.encode a)

theorem read_iff {c : Codec ε α} {L : Limits} {nodes max : Nat} {raw : String} {a : α} :
    c.read L nodes max raw = some a ↔ raw = c.canonicalText a ∧ textSize (c.encode a) ≤ max
      ∧ Copied L 0 (c.encode a).canonical
      ∧ nodeCount (c.encode a) ≤ nodes := by
  simp only [read, Option.bind_eq_bind, Option.bind_eq_some_iff, ofCanonical_iff, toOption_some]
  constructor
  · rintro ⟨v, ⟨rfl, hcanonical, hsize, hcopied, hnodes⟩, hdecode⟩
    have hsame : (c.encode a).canonical = v.canonical := c.same_of_decode v a hdecode
    rw [hcanonical] at hsame
    rw [canonicalText, canonicalJson, canonicalJson, hsame, hcanonical,
      ← textSize_canonical (c.encode a), ← nodeCount_canonical (c.encode a), hsame]
    exact ⟨rfl, hsize, hcopied, hnodes⟩
  · rintro ⟨rfl, hsize, hcopied, hnodes⟩
    refine ⟨(c.encode a).canonical, ⟨?_, canonical_canonical _, ?_, hcopied, ?_⟩,
      c.decode_canonical a⟩
    · rw [canonicalText, canonicalJson, canonicalJson, canonical_canonical]
    · rwa [textSize_canonical]
    · rwa [nodeCount_canonical]

theorem canonicalText_inj {c : Codec ε α} {a b : α} (h : c.canonicalText a = c.canonicalText b) :
    a = b :=
  c.encode_injective ((canonicalJson_inj (c.json_encode a) (c.json_encode b)).mp h)

end Codec
end Js
