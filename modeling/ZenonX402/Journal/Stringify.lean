/-
# The sorted text of a value, over code units

`stringifyJsonWithoutHooks` again, over data whose strings and keys are any sequences of
UTF-16 code units, with the sort of the keys and the order of all writing as they stand. With
sorted keys and no indentation it writes the canonical text (`serialize_sound`), so two
texts that it wrote are equal exactly if the data are the same up to the order of keys.

A value is a tree: what was met above is not met again. An object is the list of its own
keys with what stands under them, and every property is plain data.

Key definitions: `orderedJsonKeys`, `serialize`, `stringifyJsonWithoutHooks`, `Distinct`.
Key theorems: `serialize_sound`, `canonicalText_exact`.
-/
import ZenonX402.Journal.Snapshot
import ZenonX402.Lib.JsonUnits

namespace ZenonX402
namespace Journal
namespace Utf16

open CodeUnits Rfc8259 JsonUnits Js

/-! ### The source -/

/-- `Buffer.byteLength`. A surrogate without its other half has the bytes of what stands in for it.
-/
def byteLength : CodeUnits → Nat
  | [] => 0
  | [c] => width c
  | c :: d :: s => if isHigh c && isLow d then 4 + byteLength s else width c + byteLength (d :: s)

structure Options where
  indentationWidth : Nat
  sortKeys : Bool
  maximumBytes : Nat

structure Output where
  encoded : CodeUnits
  encodedBytes : Nat

def emit (o : Options) (fragment : CodeUnits) (out : Output) : Except JsonFault Output := do
  rejectIf (o.maximumBytes < out.encodedBytes + byteLength fragment) .jsonSnapshotTooLarge
  return ⟨out.encoded ++ fragment, out.encodedBytes + byteLength fragment⟩

/-- A fragment that is left out for what is empty, or first. -/
def emitUnless (skip : Bool) (o : Options) (fragment : CodeUnits) (out : Output) :
    Except JsonFault Output :=
  if skip then .ok out else emit o fragment out

def jsonIndent (depth width : Nat) : CodeUnits := List.replicate (depth * width) 32

def orderedJsonKeys (keys : List CodeUnits) (sortKeys : Bool) : List CodeUnits :=
  if sortKeys then Insertion.insertionSort keys else keys

/-- `openIndent` and `closeIndent`: what starts a line at a depth. -/
def indent (o : Options) (depth : Nat) : CodeUnits :=
  if o.indentationWidth = 0 then [] else 10 :: jsonIndent depth o.indentationWidth

def separator (o : Options) (depth : Nat) : CodeUnits := 44 :: indent o (depth + 1)

def colon (o : Options) : CodeUnits := if o.indentationWidth = 0 then [58] else [58, 32]

/-- What `serialize` does with a value. -/
abbrev Writer := Nat → Output → Except JsonFault Output

/-- An array or an object, by what writes its entries. -/
def enclose (o : Options) (depth : Nat) (opening closing : UInt16) (isEmpty : Bool)
    (body : Output → Except JsonFault Output) (out : Output) : Except JsonFault Output := do
  let out ← emit o [opening] out
  let out ← emitUnless isEmpty o (indent o (depth + 1)) out
  let out ← body out
  let out ← emitUnless isEmpty o (indent o depth) out
  emit o [closing] out

/-- The loop over the keys of an object. -/
def writeMembers (o : Options) (depth : Nat) (writers : List (CodeUnits × Writer)) :
    Bool → List CodeUnits → Output → Except JsonFault Output
  | _, [], out => .ok out
  | first, key :: keys, out => do
    let writer ← orReject (writers.lookup key) .invalidJsonSnapshot
    let out ← emitUnless first o (separator o depth) out
    let out ← emit o (quote key) out
    let out ← emit o (colon o) out
    let out ← writer (depth + 1) out
    writeMembers o depth writers false keys out

/-- A value is not too deep. -/
def atDepth (writer : Writer) : Writer := fun depth out => do
  rejectIf (MAX_JSON_DEPTH + 4 < depth) .invalidJsonSnapshot
  writer depth out

mutual

def serialize (o : Options) : Data → Writer
  | .null => atDepth fun _ => emit o (literalUnits none)
  | .bool b => atDepth fun _ => emit o (literalUnits (some b))
  | .text s => atDepth fun _ => emit o (quote s)
  | .number n => atDepth fun _ => emit o (intText n.1)
  | .negZero => atDepth fun _ => emit o (intText 0)
  | .inexact _ => atDepth fun _ _ => .error .invalidJsonSnapshot
  | .array vs => atDepth fun depth =>
      enclose o depth 91 93 vs.isEmpty (serializeElements o vs depth true)
  | .object fs => atDepth fun depth => enclose o depth 123 125 fs.isEmpty
      (writeMembers o depth (serializeMembers o fs) true
        (orderedJsonKeys (fs.map Prod.fst) o.sortKeys))

/-- The loop over the elements of an array. -/
def serializeElements (o : Options) : List Data → Nat → Bool → Output → Except JsonFault Output
  | [] => fun _ _ out => .ok out
  | v :: vs => fun depth first out => do
    let out ← emitUnless first o (separator o depth) out
    let out ← serialize o v (depth + 1) out
    serializeElements o vs depth false out

def serializeMembers (o : Options) : List (CodeUnits × Data) → List (CodeUnits × Writer)
  | [] => []
  | (key, v) :: fs => (key, serialize o v) :: serializeMembers o fs

end

def stringifyJsonWithoutHooks (value : Data) (space : Int) (sortKeys : Bool) (maximumBytes : Int) :
    Except JsonFault CodeUnits := do
  rejectIf (space < 0 ∨ 10 < space) .invalidJsonSnapshot
  rejectIf (maximumBytes < 1 ∨ 9007199254740991 < maximumBytes) .invalidJsonSnapshot
  let out ← serialize ⟨space.toNat, sortKeys, maximumBytes.toNat⟩ value 0 ⟨[], 0⟩
  return out.encoded

/-- Data whose keys are different in each object. -/
inductive Distinct : Data → Prop
  | leaf {v : Data} (h : v.isLeaf = true) : Distinct v
  | array {vs : List Data} (h : ∀ v ∈ vs, Distinct v) : Distinct (.array vs)
  | object {fs : List (CodeUnits × Data)} (hn : (fs.map Prod.fst).Nodup)
      (h : ∀ f ∈ fs, Distinct f.2) : Distinct (.object fs)

/-! ### What is written -/

theorem emit_ok {o : Options} {fragment : CodeUnits} {out out' : Output}
    (h : emit o fragment out = .ok out') :
    out'.encoded = out.encoded ++ fragment := by
  simp only [emit, bind_ok, rejectIf_ok] at h
  obtain ⟨_, _, heq⟩ := h
  rw [← Except.ok.inj heq]

theorem atDepth_ok {writer : Writer} {depth : Nat} {out out' : Output}
    (h : atDepth writer depth out = .ok out') :
    writer depth out = .ok out' := by
  simp only [atDepth, bind_ok, rejectIf_ok] at h
  obtain ⟨_, _, h⟩ := h
  exact h

theorem serializeMembers_lookup (o : Options) (key : CodeUnits) (fs : List (CodeUnits × Data)) :
    (serializeMembers o fs).lookup key = (fs.lookup key).map (serialize o) := by
  induction fs with
  | nil => rfl
  | cons f fs ih =>
    obtain ⟨key', v⟩ := f
    rw [serializeMembers, List.lookup_cons, List.lookup_cons, ih]
    split <;> rfl

/-- The keys in the order in which they are written. -/
theorem orderedJsonKeys_sorted {keys : List CodeUnits} (h : keys.Nodup) :
    (orderedJsonKeys keys true).Perm keys ∧
    Insertion.Sorted (orderedJsonKeys keys true) :=
  Insertion.insertionSort_spec h

section

variable {o : Options} (hwidth : o.indentationWidth = 0)

include hwidth

theorem indent_compact (depth : Nat) : indent o depth = [] := if_pos hwidth

/-- A fragment that is left out at first. -/
theorem separator_ok {first : Bool} {depth : Nat} {out out' : Output}
    (h : emitUnless first o (separator o depth) out = .ok out') :
    out'.encoded = out.encoded ++ if first then [] else [44] := by
  cases first with
  | true =>
    obtain rfl := Except.ok.inj (show Except.ok out = .ok out' from h)
    exact (List.append_nil _).symm
  | false =>
    rw [emit_ok (show emit o (separator o depth) out = .ok out' from h), separator,
      indent_compact hwidth]
    rfl

theorem enclose_ok {depth : Nat} {opening closing : UInt16} {isEmpty : Bool}
    {body : Output → Except JsonFault Output} {out out' : Output}
    (h : enclose o depth opening closing isEmpty body out = .ok out') :
    ∃ mid mid', body mid = .ok mid' ∧ mid.encoded = out.encoded ++ [opening] ∧ out'.encoded
      = mid'.encoded ++ [closing] := by
  have hindent {depth : Nat} {a b : Output} (h : emitUnless isEmpty o (indent o depth) a = .ok b) :
      b.encoded = a.encoded := by
    cases isEmpty with
    | true => rw [Except.ok.inj (show Except.ok a = .ok b from h)]
    | false => rw [emit_ok (show emit o (indent o depth) a = .ok b from h), indent_compact hwidth,
        List.append_nil]
  simp only [enclose, bind_ok] at h
  obtain ⟨a, ha, b, hb, c, hc, d, hd, hlast⟩ := h
  exact ⟨b, c, hc, (hindent hb).trans (emit_ok ha), by rw [emit_ok hlast, hindent hd]⟩

/-- What the loop over the elements writes, if each element is written as it should be. -/
theorem serializeElements_ok : ∀ {vs : List Data} {depth : Nat} {first : Bool} {out out' : Output},
    (∀ v ∈ vs, ∀ {depth : Nat} {out out' : Output}, serialize o v depth out = .ok out' →
      v.Json ∧ out'.encoded = out.encoded ++ JsonUnits.canonicalJson v) →
    serializeElements o vs depth first out = .ok out' →
    (∀ v ∈ vs, v.Json) ∧ out'.encoded = out.encoded ++
      if first then join (vs.map JsonUnits.canonicalJson)
      else (vs.map JsonUnits.canonicalJson).flatMap (44 :: ·)
  | [], depth, first, out, out', _, h => by
    rw [serializeElements] at h
    obtain rfl := Except.ok.inj h
    refine ⟨fun v h => absurd h List.not_mem_nil, ?_⟩
    cases first <;> exact (List.append_nil _).symm
  | v :: vs, depth, first, out, out', hall, h => by
    rw [List.forall_mem_cons] at hall
    simp only [serializeElements, bind_ok] at h
    obtain ⟨a, ha, b, hb, hrest⟩ := h
    obtain ⟨hjson, hvalue⟩ := hall.1 hb
    obtain ⟨hjsons, hvalues⟩ := serializeElements_ok hall.2 hrest
    refine ⟨List.forall_mem_cons.mpr ⟨hjson, hjsons⟩, ?_⟩
    rw [hvalues, hvalue, separator_ok hwidth ha]
    cases first <;> simp [join]

/-- What the loop over the keys writes, if what stands under each is written as it should be. -/
theorem writeMembers_ok {fs : List (CodeUnits × Data)} :
    ∀ {keys : List CodeUnits} {depth : Nat} {first : Bool} {out out' : Output},
    (∀ f ∈ fs, ∀ {depth : Nat} {out out' : Output}, serialize o f.2 depth out = .ok out' →
      f.2.Json ∧ out'.encoded = out.encoded ++ JsonUnits.canonicalJson f.2) →
    writeMembers o depth (serializeMembers o fs) first keys out = .ok out' →
    (∀ key ∈ keys, ∃ v, fs.lookup key = some v ∧ v.Json) ∧ out'.encoded = out.encoded ++
      if first then join (keys.map (memberText (canonicalMembers fs)))
      else (keys.map (memberText (canonicalMembers fs))).flatMap (44 :: ·)
  | [], depth, first, out, out', _, h => by
    rw [writeMembers] at h
    obtain rfl := Except.ok.inj h
    refine ⟨fun v h => absurd h List.not_mem_nil, ?_⟩
    cases first <;> exact (List.append_nil _).symm
  | key :: keys, depth, first, out, out', hall, h => by
    simp only [writeMembers, bind_ok, orReject_ok, serializeMembers_lookup,
      Option.map_eq_some_iff] at h
    obtain ⟨writer, ⟨v, hlookup, rfl⟩, a, ha, b, hb, c, hc, d, hd, hrest⟩ := h
    obtain ⟨l, l', hfs, -⟩ := List.lookup_eq_some_iff.mp hlookup
    have hmem : (key, v) ∈ fs := by
      rw [hfs]
      exact List.mem_append_right _ List.mem_cons_self
    obtain ⟨hjson, hvalue⟩ := hall _ hmem hd
    obtain ⟨hjsons, hvalues⟩ := writeMembers_ok hall hrest
    have hcolon : colon o = [58] := if_pos hwidth
    have hmember : memberText (canonicalMembers fs) key = quote key
        ++ 58 :: JsonUnits.canonicalJson v := by
      rw [memberText, canonicalMembers_lookup, hlookup]
      rfl
    refine ⟨List.forall_mem_cons.mpr ⟨⟨v, hlookup, hjson⟩, hjsons⟩, ?_⟩
    rw [hvalues, hvalue, emit_ok hc, emit_ok hb, separator_ok hwidth ha, hcolon,
      List.map_cons, hmember]
    cases first <;> simp [join]

/-- With sorted keys, what is written is the canonical text, and everything in it is JSON. -/
theorem serialize_sound (hsort : o.sortKeys = true) :
    ∀ {v : Data}, Distinct v → ∀ {depth : Nat} {out out' : Output}, serialize o v depth out
      = .ok out' → v.Json ∧ out'.encoded = out.encoded ++ JsonUnits.canonicalJson v := by
  intro v
  induction v using Data.induction with
  | leaf v hleaf =>
    intro _ depth out out' h
    cases v with
    | null =>
      rw [serialize] at h
      exact ⟨.null, emit_ok (atDepth_ok h)⟩
    | bool b =>
      rw [serialize] at h
      exact ⟨.bool b, emit_ok (atDepth_ok h)⟩
    | text s =>
      rw [serialize] at h
      exact ⟨.text s, emit_ok (atDepth_ok h)⟩
    | number n =>
      rw [serialize] at h
      exact ⟨.number n, emit_ok (atDepth_ok h)⟩
    | negZero =>
      rw [serialize] at h
      exact ⟨.negZero, emit_ok (atDepth_ok h)⟩
    | inexact t =>
      rw [serialize] at h
      cases atDepth_ok h
    | array vs => cases hleaf
    | object fs => cases hleaf
  | array vs ih =>
    intro hdistinct depth out out' h
    cases hdistinct with
    | leaf hleaf => cases hleaf
    | array hvs =>
    rw [serialize] at h
    obtain ⟨mid, mid', hbody, hopen, hclose⟩ := enclose_ok hwidth (atDepth_ok h)
    obtain ⟨hjson, htext⟩ := serializeElements_ok hwidth (fun v hv => ih v hv (hvs v hv)) hbody
    refine ⟨.array hjson, ?_⟩
    rw [hclose, htext, hopen, JsonUnits.canonicalJson, canonicalElements_eq_map]
    simp
  | object fs ih =>
    intro hdistinct depth out out' h
    cases hdistinct with
    | leaf hleaf => cases hleaf
    | object hn hfs =>
    rw [serialize] at h
    obtain ⟨mid, mid', hbody, hopen, hclose⟩ := enclose_ok hwidth (atDepth_ok h)
    obtain ⟨hjson, htext⟩ := writeMembers_ok hwidth (fun f hf => ih f hf (hfs f hf)) hbody
    rw [hsort] at hjson htext
    obtain ⟨hperm, hsorted⟩ := orderedJsonKeys_sorted hn
    refine ⟨.object hn fun f hf => ?_, ?_⟩
    · obtain ⟨v, hlookup, hv⟩ := hjson f.1 (hperm.mem_iff.mpr (List.mem_map_of_mem hf))
      obtain rfl := Option.some.inj (((Value.mem_iff_lookup f.1 f.2 hn).mp hf).symm.trans hlookup)
      exact hv
    · rw [hclose, htext, hopen, JsonUnits.canonicalJson, sortKeys_eq hn hperm hsorted]
      simp

end

/-! ### The texts of two values -/

/-- A text that is written with sorted keys and no indentation is the canonical one, and two of them
are equal exactly if the values are the same up to the order of keys. The sort of the keys puts them
in strictly increasing order and loses none. -/
theorem canonicalText_exact {v w : Data} {maximumBytes maximumBytes' : Int} {a b : CodeUnits}
    (hv : Distinct v) (hw : Distinct w)
    (ha : stringifyJsonWithoutHooks v 0 true maximumBytes = .ok a)
    (hb : stringifyJsonWithoutHooks w 0 true maximumBytes' = .ok b) :
    a = JsonUnits.canonicalJson v ∧ (a = b ↔ v.Same w) ∧
      ∀ keys : List CodeUnits, keys.Nodup → (orderedJsonKeys keys true).Perm keys
        ∧ (orderedJsonKeys keys true).Pairwise (· < ·) := by
  have hwritten {v : Data} {m : Int} {a : CodeUnits} (hv : Distinct v)
      (h : stringifyJsonWithoutHooks v 0 true m = .ok a) :
      v.Json ∧ a = JsonUnits.canonicalJson v := by
    simp only [stringifyJsonWithoutHooks, bind_ok, rejectIf_ok] at h
    obtain ⟨_, _, _, _, out, hout, htext⟩ := h
    obtain ⟨hjson, hencoded⟩ := serialize_sound rfl rfl hv hout
    exact ⟨hjson, (Except.ok.inj htext).symm.trans hencoded⟩
  obtain ⟨hjson, rfl⟩ := hwritten hv ha
  obtain ⟨hjson', rfl⟩ := hwritten hw hb
  exact ⟨rfl, canonicalJson_inj hjson hjson', fun keys hkeys => orderedJsonKeys_sorted hkeys⟩

namespace Sample

/-- The members of an object, and their keys in another order with a zero of another sign. -/
def written : Data := .object [([98], .number ⟨1, by decide⟩), ([97, 34], .array [.negZero, .null]),
      ([0xD800], .text [])]

def reordered : Data :=
  .object [([0xD800], .text []), ([97, 34], .array [.number ⟨0, by decide⟩, .null]),
    ([98], .number ⟨1, by decide⟩)]

/-- What is written of both. -/
def encoded : CodeUnits := units "\x7b\"a\\\"\":[0,null],\"b\":1,\"\\ud800\":\"\"\x7d"

theorem distinct_written : Distinct written := by
  refine .object (by decide) ?_
  simp only [List.forall_mem_cons, List.not_mem_nil, false_implies, implies_true, and_true]
  refine ⟨.leaf rfl, .array ?_, .leaf rfl⟩
  simp only [List.forall_mem_cons, List.not_mem_nil, false_implies, implies_true, and_true]
  exact ⟨.leaf rfl, .leaf rfl⟩

theorem distinct_reordered : Distinct reordered := by
  refine .object (by decide) ?_
  simp only [List.forall_mem_cons, List.not_mem_nil, false_implies, implies_true, and_true]
  refine ⟨.leaf rfl, .array ?_, .leaf rfl⟩
  simp only [List.forall_mem_cons, List.not_mem_nil, false_implies, implies_true, and_true]
  exact ⟨.leaf rfl, .leaf rfl⟩

end Sample

/-- Two values with one text, in which a key is escaped for what it holds and another one for its
surrogate. -/
theorem canonicalText_sample :
    stringifyJsonWithoutHooks Sample.written 0 true 1000 = .ok Sample.encoded ∧
    stringifyJsonWithoutHooks Sample.reordered 0 true 1000 = .ok Sample.encoded ∧
    Sample.encoded = JsonUnits.canonicalJson Sample.written
      ∧ Sample.written.Same Sample.reordered := by
  have hwritten : stringifyJsonWithoutHooks Sample.written 0 true 1000 = .ok Sample.encoded := rfl
  have hreordered : stringifyJsonWithoutHooks Sample.reordered 0 true 1000
      = .ok Sample.encoded := rfl
  obtain ⟨htext, hsame, -⟩ :=
    canonicalText_exact Sample.distinct_written Sample.distinct_reordered hwritten hreordered
  exact ⟨hwritten, hreordered, htext, hsame.mp rfl⟩

end Utf16
end Journal
end ZenonX402
