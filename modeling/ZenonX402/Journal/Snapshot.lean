/-
# Copies and texts of journal values

`descriptorSafeJsonValue` copies a value within a budget of bytes,
`stringifyJsonWithoutHooks` writes one within another, with the keys in their
own order or sorted, on one line or indented; `cloneJson` is a copy that also
holds no secret and is short when written. A writer that does not fail has
written a value of bounded depth whose every part is JSON data, and its text is
the layout's (`serialize_ok`); it does not fail on such a value when the text
fits (`serialize_of_writable`). A copy is the value with every zero positive
(`cloneJson_eq`).

Values are trees, as `JSON.parse` and `descriptorSafeJsonValue` build them: the
set of the objects a walk is inside of never meets one of them again. A field
list that repeats a key is no object.

Key definitions: `descriptorSafeJsonValue`, `stringifyJsonWithoutHooks`, `cloneJson`, `Writable`.
Key theorems: `serialize_ok`, `serialize_of_writable`, `cloneJson_eq`.
-/
import ZenonX402.Lib.Loop
import ZenonX402.Lib.Measure
import ZenonX402.Lib.Text

namespace ZenonX402
namespace Journal

open Js
open Value (unsigned unsignedElements unsignedMembers canonical canonicalList
  canonicalFields sortFields)
open String (utf8Len)

def MAX_RECORD_BYTES : Nat := 128 * 1024

def MAX_JSON_DEPTH : Nat := 20

/-- The codes of `SettlementJournalError`. -/
inductive JournalError where
  | journalCorrupt
  | journalRecordInvalid
  | journalRecordTooLarge
  | journalSecretFieldForbidden
  | journalCapacityExceeded
  | journalWriteFailed
  | journalReadFailed
  | journalStateMissing
  | journalUnsafeFile
  | journalDirectorySyncFailed
  | journalMarkerCorrupt
  | journalMarkerReadFailed
  | journalMarkerWriteFailed
  | journalMarkerSyncFailed
  | journalCleanupFailed
  | journalClockInvalid
  | journalIdentityConflict
  | journalRetentionInvalid
  | journalCompareAndReplaceFailed
  | journalWriteVerificationFailed
  | journalEvidenceInvalid
  | journalMomentumEvidenceInvalid
  | journalRecordNotFound
  | journalDeliveryClaimInvalid
  | journalMomentumRequired
  | journalDeliveryConflict
  | journalDeliveryNotPending
  | journalOptionsInvalid
  deriving DecidableEq, Repr

/-- What the walks over a value throw. -/
inductive JsonFault where
  | invalidJsonSnapshot
  | jsonSnapshotTooLarge
  deriving DecidableEq, Repr

/-! ### Copying -/

/-- `chargeJsonSnapshot`, from the bytes charged so far to those charged after. -/
def chargeJsonSnapshot (maximumBytes bytes : Nat) (value : String) : Except JsonFault Nat := do
  rejectIf (maximumBytes < bytes + value.utf8ByteSize) .jsonSnapshotTooLarge
  return bytes + value.utf8ByteSize

/-- The keys of an object are charged before its entries. -/
def chargeKeys (maximumBytes : Nat) (bytes : Nat) (keys : List String) : Except JsonFault Nat :=
  keys.foldlM (chargeJsonSnapshot maximumBytes) bytes

mutual

/-- The copy and the bytes charged after it. The second look at an object, after its entries, sees
what the first saw and charges no more. -/
def descriptorSafeJsonValue (maximumBytes bytes depth : Nat) :
    Value → Except JsonFault (Value × Nat)
  | .null => do
    rejectIf (MAX_JSON_DEPTH < depth) .invalidJsonSnapshot
    return (.null, bytes)
  | .bool b => do
    rejectIf (MAX_JSON_DEPTH < depth) .invalidJsonSnapshot
    return (.bool b, bytes)
  | .str s => do
    rejectIf (MAX_JSON_DEPTH < depth) .invalidJsonSnapshot
    let bytes ← chargeJsonSnapshot maximumBytes bytes s
    return (.str s, bytes)
  | .num n => do
    rejectIf (MAX_JSON_DEPTH < depth) .invalidJsonSnapshot
    rejectIf (9007199254740991 < n.natAbs) .invalidJsonSnapshot
    return (.num n, bytes)
  | .negZero => do
    rejectIf (MAX_JSON_DEPTH < depth) .invalidJsonSnapshot
    return (.num 0, bytes)
  | .arr xs => do
    rejectIf (MAX_JSON_DEPTH < depth) .invalidJsonSnapshot
    rejectIf (maximumBytes < xs.length) .jsonSnapshotTooLarge
    let (snapshot, bytes) ← descriptorSafeElements maximumBytes bytes depth xs
    return (.arr snapshot, bytes)
  | .obj fs => do
    rejectIf (MAX_JSON_DEPTH < depth ∨ ¬ (fs.map Prod.fst).Nodup) .invalidJsonSnapshot
    rejectIf (maximumBytes < fs.length) .jsonSnapshotTooLarge
    let bytes ← chargeKeys maximumBytes bytes (fs.map Prod.fst)
    let (snapshot, bytes) ← descriptorSafeMembers maximumBytes bytes depth fs
    return (.obj snapshot, bytes)
  | .undefined | .fractional | .host => .error .invalidJsonSnapshot

def descriptorSafeElements (maximumBytes bytes depth : Nat) :
    List Value → Except JsonFault (List Value × Nat)
  | [] => .ok ([], bytes)
  | x :: xs => do
    let (child, bytes) ← descriptorSafeJsonValue maximumBytes bytes (depth + 1) x
    let (rest, bytes) ← descriptorSafeElements maximumBytes bytes depth xs
    return (child :: rest, bytes)

def descriptorSafeMembers (maximumBytes bytes depth : Nat) :
    List (String × Value) → Except JsonFault (List (String × Value) × Nat)
  | [] => .ok ([], bytes)
  | (key, x) :: fs => do
    let (child, bytes) ← descriptorSafeJsonValue maximumBytes bytes (depth + 1) x
    let (rest, bytes) ← descriptorSafeMembers maximumBytes bytes depth fs
    return ((key, child) :: rest, bytes)

end

/-! ### Writing -/

/-- `emit`, from the text so far to the text after. -/
def emit (maximumBytes : Nat) (encoded fragment : List Char) : Except JsonFault (List Char) := do
  rejectIf (maximumBytes < utf8Len (encoded ++ fragment)) .jsonSnapshotTooLarge
  return encoded ++ fragment

mutual

/-- `serialize`, from the text so far to the text after. -/
def serialize (layout : Json.Layout) (maximumBytes depth : Nat) (encoded : List Char) :
    Value → Except JsonFault (List Char)
  | .null => do
    rejectIf (MAX_JSON_DEPTH + 4 < depth) .invalidJsonSnapshot
    emit maximumBytes encoded (Json.write .null)
  | .bool b => do
    rejectIf (MAX_JSON_DEPTH + 4 < depth) .invalidJsonSnapshot
    emit maximumBytes encoded (Json.write (.bool b))
  | .str s => do
    rejectIf (MAX_JSON_DEPTH + 4 < depth) .invalidJsonSnapshot
    emit maximumBytes encoded (Json.write (.str s))
  | .num n => do
    rejectIf (MAX_JSON_DEPTH + 4 < depth) .invalidJsonSnapshot
    rejectIf (9007199254740991 < n.natAbs) .invalidJsonSnapshot
    emit maximumBytes encoded (Json.write (.num n))
  | .negZero => do
    rejectIf (MAX_JSON_DEPTH + 4 < depth) .invalidJsonSnapshot
    emit maximumBytes encoded (Json.write .negZero)
  | .arr [] => do
    rejectIf (MAX_JSON_DEPTH + 4 < depth) .invalidJsonSnapshot
    let encoded ← emit maximumBytes encoded ['[']
    emit maximumBytes encoded [']']
  | .arr (x :: xs) => do
    rejectIf (MAX_JSON_DEPTH + 4 < depth) .invalidJsonSnapshot
    let encoded ← emit maximumBytes encoded ['[']
    let encoded ← emit maximumBytes encoded (layout.line (depth + 1))
    let encoded ← serialize layout maximumBytes (depth + 1) encoded x
    let encoded ← serializeElements layout maximumBytes depth encoded xs
    let encoded ← emit maximumBytes encoded (layout.line depth)
    emit maximumBytes encoded [']']
  | .obj [] => do
    rejectIf (MAX_JSON_DEPTH + 4 < depth) .invalidJsonSnapshot
    let encoded ← emit maximumBytes encoded ['\x7b']
    emit maximumBytes encoded ['\x7d']
  | .obj ((key, x) :: fs) => do
    rejectIf (MAX_JSON_DEPTH + 4 < depth ∨ ¬ (key :: fs.map Prod.fst).Nodup) .invalidJsonSnapshot
    let encoded ← emit maximumBytes encoded ['\x7b']
    let encoded ← emit maximumBytes encoded (layout.line (depth + 1))
    let encoded ← emit maximumBytes encoded (Json.writeString key)
    let encoded ← emit maximumBytes encoded (':' :: layout.colon)
    let encoded ← serialize layout maximumBytes (depth + 1) encoded x
    let encoded ← serializeMembers layout maximumBytes depth encoded fs
    let encoded ← emit maximumBytes encoded (layout.line depth)
    emit maximumBytes encoded ['\x7d']
  | .undefined | .fractional | .host => .error .invalidJsonSnapshot

def serializeElements (layout : Json.Layout) (maximumBytes depth : Nat) (encoded : List Char) :
    List Value → Except JsonFault (List Char)
  | [] => .ok encoded
  | x :: xs => do
    let encoded ← emit maximumBytes encoded (',' :: layout.line (depth + 1))
    let encoded ← serialize layout maximumBytes (depth + 1) encoded x
    serializeElements layout maximumBytes depth encoded xs

def serializeMembers (layout : Json.Layout) (maximumBytes depth : Nat) (encoded : List Char) :
    List (String × Value) → Except JsonFault (List Char)
  | [] => .ok encoded
  | (key, x) :: fs => do
    let encoded ← emit maximumBytes encoded (',' :: layout.line (depth + 1))
    let encoded ← emit maximumBytes encoded (Json.writeString key)
    let encoded ← emit maximumBytes encoded (':' :: layout.colon)
    let encoded ← serialize layout maximumBytes (depth + 1) encoded x
    serializeMembers layout maximumBytes depth encoded fs

end

/-- The layout of an indentation width. -/
def layoutOf (space : Nat) : Json.Layout := if space = 0 then .compact else .indented space

/-- `sortKeys` puts the keys of every object in order before the walk meets them. -/
def stringifyJsonWithoutHooks (value : Value) (space : Nat) (sortKeys : Bool) (maximumBytes : Nat) :
    Except JsonFault (List Char) := do
  rejectIf (10 < space) .invalidJsonSnapshot
  rejectIf (maximumBytes < 1) .invalidJsonSnapshot
  serialize (layoutOf space) maximumBytes 0 [] (if sortKeys then value.canonical else value)

def canonicalJson (value : Value) (maximumBytes : Nat) : Except JsonFault String :=
  (stringifyJsonWithoutHooks value 0 true maximumBytes).map String.ofList

/-- A string is digested as it is, any other value by its sorted text. -/
def sha256Hex (sha : Sha256) (value : Value) (maximumBytes : Nat) : Except JsonFault String :=
  match value with
  | .str s => .ok (sha.hex s)
  | value => (canonicalJson value maximumBytes).map sha.hex

/-! ### Copies that may be kept -/

def FORBIDDEN_PERSISTED_KEYS : List String :=
  ["mnemonic", "privatekey", "seed", "authtoken", "authorization", "password", "secret",
    "rpccredentials", "accesstoken", "refreshtoken"]

/-- What `toLowerCase` and the removal of everything outside `[a-z0-9]` leave of one character.
Besides `A` to `Z` only the Kelvin sign and the dotted capital I have a letter in reach. -/
def normalizedChar (c : Char) : List Char :=
  if Text.isUpper c then [Char.ofNat (c.toNat + 32)]
  else if Text.isLower c || Text.isDigit c then [c]
  else if c.toNat = 0x212a then ['k']
  else if c.toNat = 0x130 then ['i']
  else []

def normalizedKey (key : String) : String := String.ofList (key.toList.flatMap normalizedChar)

mutual

def validateJsonValueInternal (depth : Nat) : Value → Except JournalError Unit
  | .null | .str _ | .bool _ | .negZero => rejectIf (MAX_JSON_DEPTH < depth) .journalRecordInvalid
  | .num n => do
    rejectIf (MAX_JSON_DEPTH < depth) .journalRecordInvalid
    rejectIf (9007199254740991 < n.natAbs) .journalRecordInvalid
  | .arr xs => do
    rejectIf (MAX_JSON_DEPTH < depth) .journalRecordInvalid
    validateElements depth xs
  | .obj fs => do
    rejectIf (MAX_JSON_DEPTH < depth) .journalRecordInvalid
    validateMembers depth fs
  | .undefined | .fractional | .host => .error .journalRecordInvalid

def validateElements (depth : Nat) : List Value → Except JournalError Unit
  | [] => .ok ()
  | x :: xs => do
    validateJsonValueInternal (depth + 1) x
    validateElements depth xs

def validateMembers (depth : Nat) : List (String × Value) → Except JournalError Unit
  | [] => .ok ()
  | (key, x) :: fs => do
    rejectIf (normalizedKey key ∈ FORBIDDEN_PERSISTED_KEYS) .journalSecretFieldForbidden
    rejectIf (key = "__proto__" ∨ key = "prototype" ∨ key = "constructor") .journalRecordInvalid
    validateJsonValueInternal (depth + 1) x
    validateMembers depth fs

end

def validateJsonValue (value : Value) : Except JournalError Unit :=
  validateJsonValueInternal 0 value

/-- The code under which a copy that failed is reported. -/
def JsonFault.code : JsonFault → JournalError
  | .jsonSnapshotTooLarge => .journalRecordTooLarge
  | .invalidJsonSnapshot => .journalRecordInvalid

def cloneJson (value : Value) (maximumBytes : Nat) : Except JournalError Value := do
  let (snapshot, _) ← (descriptorSafeJsonValue maximumBytes 0 0 value).mapError JsonFault.code
  validateJsonValue snapshot
  let encoded ← (stringifyJsonWithoutHooks snapshot 0 false maximumBytes).mapError JsonFault.code
  rejectIf (maximumBytes < utf8Len encoded) .journalRecordTooLarge
  return snapshot

/-! ### What a copy is -/

mutual

theorem descriptorSafeJsonValue_eq :
    ∀ (v : Value) {w : Value} {maximumBytes bytes bytes' depth : Nat},
    descriptorSafeJsonValue maximumBytes bytes depth v = .ok (w, bytes') → w = unsigned v ∧ w.Json
  | .arr xs, w, maximumBytes, bytes, bytes', depth, h => by
    simp only [descriptorSafeJsonValue, bind_ok, rejectIf_ok] at h
    obtain ⟨_, _, _, _, ⟨snapshot, b⟩, hsnapshot, heq⟩ := h
    obtain ⟨rfl, rfl⟩ := Prod.mk.inj (Except.ok.inj heq)
    obtain ⟨hxs, hjson⟩ := descriptorSafeElements_eq xs hsnapshot
    exact ⟨by rw [unsigned, hxs], .arr hjson⟩
  | .obj fs, w, maximumBytes, bytes, bytes', depth, h => by
    simp only [descriptorSafeJsonValue, bind_ok, rejectIf_ok, not_or, not_not] at h
    obtain ⟨_, ⟨_, hnodup⟩, _, _, b, _, ⟨snapshot, b'⟩, hsnapshot, heq⟩ := h
    obtain ⟨rfl, rfl⟩ := Prod.mk.inj (Except.ok.inj heq)
    obtain ⟨hfs, hjson⟩ := descriptorSafeMembers_eq fs hsnapshot
    refine ⟨by rw [unsigned, hfs], .obj ?_ hjson⟩
    rw [hfs, Value.unsignedMembers_keys]
    exact hnodup
  | .num n, w, maximumBytes, bytes, bytes', depth, h => by
    simp only [descriptorSafeJsonValue, bind_ok, rejectIf_ok, not_lt] at h
    obtain ⟨_, _, _, hn, heq⟩ := h
    obtain ⟨rfl, rfl⟩ := Prod.mk.inj (Except.ok.inj heq)
    exact ⟨by rw [unsigned], .num hn⟩
  | .negZero, w, maximumBytes, bytes, bytes', depth, h => by
    simp only [descriptorSafeJsonValue, bind_ok, rejectIf_ok] at h
    obtain ⟨_, _, heq⟩ := h
    obtain ⟨rfl, rfl⟩ := Prod.mk.inj (Except.ok.inj heq)
    exact ⟨by rw [unsigned], .num (by decide)⟩
  | .str s, w, maximumBytes, bytes, bytes', depth, h => by
    simp only [descriptorSafeJsonValue, bind_ok, rejectIf_ok] at h
    obtain ⟨_, _, b, _, heq⟩ := h
    obtain ⟨rfl, rfl⟩ := Prod.mk.inj (Except.ok.inj heq)
    exact ⟨by rw [unsigned], .str s⟩
  | .null, w, maximumBytes, bytes, bytes', depth, h => by
    simp only [descriptorSafeJsonValue, bind_ok, rejectIf_ok] at h
    obtain ⟨_, _, heq⟩ := h
    obtain ⟨rfl, rfl⟩ := Prod.mk.inj (Except.ok.inj heq)
    exact ⟨by rw [unsigned], .null⟩
  | .bool b, w, maximumBytes, bytes, bytes', depth, h => by
    simp only [descriptorSafeJsonValue, bind_ok, rejectIf_ok] at h
    obtain ⟨_, _, heq⟩ := h
    obtain ⟨rfl, rfl⟩ := Prod.mk.inj (Except.ok.inj heq)
    exact ⟨by rw [unsigned], .bool b⟩
  | .undefined, _, _, _, _, _, h | .fractional, _, _, _, _, _, h | .host, _, _, _, _, _, h => by
    rw [descriptorSafeJsonValue] at h
    cases h

theorem descriptorSafeElements_eq :
    ∀ (xs : List Value) {ys : List Value} {maximumBytes bytes bytes' depth : Nat},
    descriptorSafeElements maximumBytes bytes depth xs = .ok (ys, bytes') →
    ys = unsignedElements xs ∧ ∀ y ∈ ys, y.Json
  | [], ys, maximumBytes, bytes, bytes', depth, h => by
    rw [descriptorSafeElements] at h
    cases h
    exact ⟨rfl, fun y hy => by cases hy⟩
  | x :: xs, ys, maximumBytes, bytes, bytes', depth, h => by
    simp only [descriptorSafeElements, bind_ok] at h
    obtain ⟨⟨child, b⟩, hchild, ⟨rest, b'⟩, hrest, heq⟩ := h
    obtain ⟨rfl, rfl⟩ := Prod.mk.inj (Except.ok.inj heq)
    obtain ⟨hx, hjson⟩ := descriptorSafeJsonValue_eq x hchild
    obtain ⟨hxs, hjsons⟩ := descriptorSafeElements_eq xs hrest
    exact ⟨by rw [unsignedElements, hx, hxs], List.forall_mem_cons.mpr ⟨hjson, hjsons⟩⟩

theorem descriptorSafeMembers_eq : ∀ (fs : List (String × Value)) {gs : List (String × Value)}
    {maximumBytes bytes bytes' depth : Nat}, descriptorSafeMembers maximumBytes bytes depth fs
      = .ok (gs, bytes') →
    gs = unsignedMembers fs ∧ ∀ g ∈ gs, g.2.Json
  | [], gs, maximumBytes, bytes, bytes', depth, h => by
    rw [descriptorSafeMembers] at h
    cases h
    exact ⟨rfl, fun g hg => by cases hg⟩
  | (key, x) :: fs, gs, maximumBytes, bytes, bytes', depth, h => by
    simp only [descriptorSafeMembers, bind_ok] at h
    obtain ⟨⟨child, b⟩, hchild, ⟨rest, b'⟩, hrest, heq⟩ := h
    obtain ⟨rfl, rfl⟩ := Prod.mk.inj (Except.ok.inj heq)
    obtain ⟨hx, hjson⟩ := descriptorSafeJsonValue_eq x hchild
    obtain ⟨hfs, hjsons⟩ := descriptorSafeMembers_eq fs hrest
    exact ⟨by rw [unsignedMembers, hx, hfs], List.forall_mem_cons.mpr ⟨hjson, hjsons⟩⟩

end

mutual

/-- A copy does not look at the sign of a zero. -/
theorem descriptorSafeJsonValue_unsigned : ∀ (v : Value) (maximumBytes bytes depth : Nat),
    descriptorSafeJsonValue maximumBytes bytes depth v.unsigned
      = descriptorSafeJsonValue maximumBytes bytes depth v
  | .arr xs, maximumBytes, bytes, depth => by
    rw [unsigned, descriptorSafeJsonValue, descriptorSafeJsonValue,
      descriptorSafeElements_unsigned xs, Value.unsignedElements_eq_map, List.length_map]
  | .obj fs, maximumBytes, bytes, depth => by
    have hlength : (unsignedMembers fs).length = fs.length := by
      rw [Value.unsignedMembers_eq_map, List.length_map]
    rw [unsigned, descriptorSafeJsonValue, descriptorSafeJsonValue,
      Value.unsignedMembers_keys, hlength]
    simp only [descriptorSafeMembers_unsigned fs]
  | .negZero, maximumBytes, bytes, depth => by
    have hzero : rejectIf (9007199254740991 < (0 : Int).natAbs) JsonFault.invalidJsonSnapshot
        = .ok () := rfl
    rw [unsigned, descriptorSafeJsonValue, descriptorSafeJsonValue, hzero]
    rfl
  | .num _, _, _, _ | .str _, _, _, _ | .null, _, _, _ | .bool _, _, _, _ | .undefined, _, _, _
  | .fractional, _, _, _ | .host, _, _, _ => by rw [unsigned]

theorem descriptorSafeElements_unsigned : ∀ (xs : List Value) (maximumBytes bytes depth : Nat),
    descriptorSafeElements maximumBytes bytes depth (unsignedElements xs) =
      descriptorSafeElements maximumBytes bytes depth xs
  | [], _, _, _ => rfl
  | x :: xs, maximumBytes, bytes, depth => by
    rw [unsignedElements, descriptorSafeElements, descriptorSafeElements,
      descriptorSafeJsonValue_unsigned x]
    simp only [descriptorSafeElements_unsigned xs]

theorem descriptorSafeMembers_unsigned :
    ∀ (fs : List (String × Value)) (maximumBytes bytes depth : Nat),
    descriptorSafeMembers maximumBytes bytes depth (unsignedMembers fs) =
      descriptorSafeMembers maximumBytes bytes depth fs
  | [], _, _, _ => rfl
  | (key, x) :: fs, maximumBytes, bytes, depth => by
    rw [unsignedMembers, descriptorSafeMembers, descriptorSafeMembers,
      descriptorSafeJsonValue_unsigned x]
    simp only [descriptorSafeMembers_unsigned fs]

end

theorem cloneJson_eq {v w : Value} {maximumBytes : Nat} (h : cloneJson v maximumBytes = .ok w) :
    w = unsigned v ∧ w.Json := by
  simp only [cloneJson, bind_ok, mapError_ok] at h
  obtain ⟨⟨snapshot, bytes⟩, hsnapshot, _, _, encoded, _, _, _, heq⟩ := h
  cases heq
  exact descriptorSafeJsonValue_eq v hsnapshot

/-! ### What is written -/

/-- What the writer accepts at a depth: JSON data up to the sign of zero, nested no deeper than it
walks. -/
inductive Writable : Nat → Value → Prop
  | null {depth : Nat} (h : depth ≤ MAX_JSON_DEPTH + 4) : Writable depth .null
  | bool {depth : Nat} (h : depth ≤ MAX_JSON_DEPTH + 4) (b : Bool) : Writable depth (.bool b)
  | str {depth : Nat} (h : depth ≤ MAX_JSON_DEPTH + 4) (s : String) : Writable depth (.str s)
  | num {depth : Nat} (h : depth ≤ MAX_JSON_DEPTH + 4) {n : Int}
      (hn : n.natAbs ≤ 9007199254740991) :
      Writable depth (.num n)
  | negZero {depth : Nat} (h : depth ≤ MAX_JSON_DEPTH + 4) : Writable depth .negZero
  | arr {depth : Nat} (h : depth ≤ MAX_JSON_DEPTH + 4) {xs : List Value}
      (hxs : ∀ x ∈ xs, Writable (depth + 1) x) :
      Writable depth (.arr xs)
  | obj {depth : Nat} (h : depth ≤ MAX_JSON_DEPTH + 4) {fs : List (String × Value)}
      (hnodup : (fs.map Prod.fst).Nodup) (hfs : ∀ f ∈ fs, Writable (depth + 1) f.2) :
      Writable depth (.obj fs)

theorem Writable.json {depth : Nat} {v : Value} (h : Writable depth v) : v.unsigned.Json := by
  induction h with
  | null => rw [unsigned]; exact .null
  | bool _ b => rw [unsigned]; exact .bool b
  | str _ s => rw [unsigned]; exact .str s
  | num _ hn => rw [unsigned]; exact .num hn
  | negZero => rw [unsigned]; exact .num (by decide)
  | arr _ _ ih =>
    rw [unsigned, Value.unsignedElements_eq_map]
    refine .arr fun x hx => ?_
    obtain ⟨y, hy, rfl⟩ := List.mem_map.mp hx
    exact ih y hy
  | obj _ hnodup _ ih =>
    rw [unsigned]
    refine .obj ?_ fun f hf => ?_
    · rw [Value.unsignedMembers_keys]
      exact hnodup
    · rw [Value.unsignedMembers_eq_map] at hf
      obtain ⟨g, hg, rfl⟩ := List.mem_map.mp hf
      exact ih g hg

mutual

/-- A value whose sorted form can be written can be written. -/
theorem writable_of_canonical : ∀ (v : Value) {depth : Nat}, Writable depth v.canonical →
    Writable depth v
  | .arr xs, depth, h => by
    rw [canonical] at h
    cases h with
    | arr h hxs => exact .arr h (writable_of_canonicalList xs hxs)
  | .obj fs, depth, h => by
    rw [canonical] at h
    cases h with
    | obj h hnodup hfs =>
      have hperm := Value.perm_sortFields (canonicalFields fs)
      refine .obj h ?_ (writable_of_canonicalFields fs fun f hf => hfs f (hperm.mem_iff.mpr hf))
      rw [← Value.canonicalFields_keys, ← (hperm.map Prod.fst).nodup_iff]
      exact hnodup
  | .negZero, depth, h => by
    rw [canonical] at h
    cases h with
    | num h => exact .negZero h
  | .null, _, h | .bool _, _, h | .str _, _, h | .num _, _, h | .undefined, _, h | .fractional, _, h
  | .host, _, h => by rwa [canonical] at h

theorem writable_of_canonicalList : ∀ (xs : List Value) {depth : Nat},
    (∀ x ∈ canonicalList xs, Writable depth x) → ∀ x ∈ xs, Writable depth x
  | [], _, _ => fun x hx => by cases hx
  | x :: xs, depth, h => by
    rw [canonicalList, List.forall_mem_cons] at h
    exact List.forall_mem_cons.mpr ⟨writable_of_canonical x h.1, writable_of_canonicalList xs h.2⟩

theorem writable_of_canonicalFields : ∀ (fs : List (String × Value)) {depth : Nat},
    (∀ f ∈ canonicalFields fs, Writable depth f.2) → ∀ f ∈ fs, Writable depth f.2
  | [], _, _ => fun f hf => by cases hf
  | (key, x) :: fs, depth, h => by
    rw [canonicalFields, List.forall_mem_cons] at h
    exact List.forall_mem_cons.mpr ⟨writable_of_canonical x h.1, writable_of_canonicalFields fs h.2⟩

end

theorem emit_ok {maximumBytes : Nat} {encoded fragment out : List Char} :
    emit maximumBytes encoded fragment = .ok out ↔ out = encoded ++ fragment ∧ utf8Len out
      ≤ maximumBytes := by
  simp only [emit, bind_ok, rejectIf_ok, not_lt]
  constructor
  · rintro ⟨_, hle, heq⟩
    cases heq
    exact ⟨rfl, hle⟩
  · rintro ⟨rfl, hle⟩
    exact ⟨(), hle, rfl⟩

theorem emit_of_le {maximumBytes : Nat} {encoded fragment rest : List Char}
    (h : utf8Len (encoded ++ fragment ++ rest) ≤ maximumBytes) :
    emit maximumBytes encoded fragment = .ok (encoded ++ fragment) := by
  rw [String.utf8Len_append] at h
  exact emit_ok.mpr ⟨rfl, by omega⟩

section

variable {layout : Json.Layout} {maximumBytes : Nat}

mutual

/-- A writer that does not fail has written the text of its layout. -/
theorem serialize_ok : ∀ (v : Value) {depth : Nat} {encoded out : List Char},
    serialize layout maximumBytes depth encoded v = .ok out →
    Writable depth v ∧ out = encoded ++ layout.write depth v ∧ utf8Len out ≤ maximumBytes
  | .null, depth, encoded, out, h => by
    simp only [serialize, bind_ok, rejectIf_ok, not_lt, emit_ok] at h
    obtain ⟨_, hdepth, hout⟩ := h
    exact ⟨.null hdepth, hout⟩
  | .bool true, depth, encoded, out, h => by
    simp only [serialize, bind_ok, rejectIf_ok, not_lt, emit_ok] at h
    obtain ⟨_, hdepth, hout⟩ := h
    exact ⟨.bool hdepth true, hout⟩
  | .bool false, depth, encoded, out, h => by
    simp only [serialize, bind_ok, rejectIf_ok, not_lt, emit_ok] at h
    obtain ⟨_, hdepth, hout⟩ := h
    exact ⟨.bool hdepth false, hout⟩
  | .str s, depth, encoded, out, h => by
    simp only [serialize, bind_ok, rejectIf_ok, not_lt, emit_ok] at h
    obtain ⟨_, hdepth, hout⟩ := h
    exact ⟨.str hdepth s, hout⟩
  | .num n, depth, encoded, out, h => by
    simp only [serialize, bind_ok, rejectIf_ok, not_lt, emit_ok] at h
    obtain ⟨_, hdepth, _, hn, hout⟩ := h
    exact ⟨.num hdepth hn, hout⟩
  | .negZero, depth, encoded, out, h => by
    simp only [serialize, bind_ok, rejectIf_ok, not_lt, emit_ok] at h
    obtain ⟨_, hdepth, hout⟩ := h
    exact ⟨.negZero hdepth, hout⟩
  | .arr [], depth, encoded, out, h => by
    simp only [serialize, bind_ok, rejectIf_ok, not_lt, emit_ok] at h
    obtain ⟨_, hdepth, e1, ⟨rfl, _⟩, rfl, hle⟩ := h
    refine ⟨.arr hdepth fun x hx => (by cases hx), ?_, hle⟩
    rw [Json.Layout.write, List.append_assoc]
    rfl
  | .arr (x :: xs), depth, encoded, out, h => by
    simp only [serialize, bind_ok, rejectIf_ok, not_lt, emit_ok] at h
    obtain ⟨_, hdepth, e1, ⟨rfl, _⟩, e2, ⟨rfl, _⟩, e3, hx, e4, hxs, e5, ⟨rfl, _⟩, rfl, hle⟩ := h
    obtain ⟨hwx, rfl, _⟩ := serialize_ok x hx
    obtain ⟨hwxs, hout⟩ := serializeElements_ok xs hxs
    refine ⟨.arr hdepth (List.forall_mem_cons.mpr ⟨hwx, hwxs⟩), ?_, hle⟩
    rw [Json.Layout.write, List.append_assoc, hout]
    simp only [List.append_assoc, List.cons_append, List.nil_append]
  | .obj [], depth, encoded, out, h => by
    simp only [serialize, bind_ok, rejectIf_ok, not_lt, emit_ok] at h
    obtain ⟨_, hdepth, e1, ⟨rfl, _⟩, rfl, hle⟩ := h
    refine ⟨.obj hdepth List.nodup_nil fun f hf => (by cases hf), ?_, hle⟩
    rw [Json.Layout.write, List.append_assoc]
    rfl
  | .obj ((key, x) :: fs), depth, encoded, out, h => by
    simp only [serialize, bind_ok, rejectIf_ok, not_or, not_lt, not_not, emit_ok] at h
    obtain ⟨_, ⟨hdepth, hnodup⟩, e1, ⟨rfl, _⟩, e2, ⟨rfl, _⟩, e3, ⟨rfl, _⟩, e4, ⟨rfl, _⟩, e5, hx, e6,
      hfs, e7, ⟨rfl, _⟩, rfl, hle⟩ := h
    obtain ⟨hwx, rfl, _⟩ := serialize_ok x hx
    obtain ⟨hwfs, hout⟩ := serializeMembers_ok fs hfs
    refine ⟨.obj hdepth hnodup (List.forall_mem_cons.mpr ⟨hwx, hwfs⟩), ?_, hle⟩
    rw [Json.Layout.write, List.append_assoc, hout]
    simp only [List.append_assoc, List.cons_append, List.nil_append]
  | .undefined, _, _, _, h | .fractional, _, _, _, h | .host, _, _, _, h => by
    rw [serialize] at h
    cases h

theorem serializeElements_ok : ∀ (xs : List Value) {depth : Nat} {encoded out : List Char},
    serializeElements layout maximumBytes depth encoded xs = .ok out →
    (∀ x ∈ xs, Writable (depth + 1) x) ∧
      out ++ (layout.line depth ++ [']']) = encoded ++ layout.writeElements depth xs
  | [], depth, encoded, out, h => by
    rw [serializeElements] at h
    cases h
    exact ⟨fun x hx => (by cases hx), rfl⟩
  | x :: xs, depth, encoded, out, h => by
    simp only [serializeElements, bind_ok, emit_ok] at h
    obtain ⟨e1, ⟨rfl, _⟩, e2, hx, hxs⟩ := h
    obtain ⟨hwx, rfl, _⟩ := serialize_ok x hx
    obtain ⟨hwxs, hout⟩ := serializeElements_ok xs hxs
    refine ⟨List.forall_mem_cons.mpr ⟨hwx, hwxs⟩, ?_⟩
    rw [hout, Json.Layout.writeElements]
    simp only [List.append_assoc, List.cons_append]

theorem serializeMembers_ok :
    ∀ (fs : List (String × Value)) {depth : Nat} {encoded out : List Char},
    serializeMembers layout maximumBytes depth encoded fs = .ok out →
    (∀ f ∈ fs, Writable (depth + 1) f.2) ∧
      out ++ (layout.line depth ++ ['\x7d']) = encoded ++ layout.writeMembers depth fs
  | [], depth, encoded, out, h => by
    rw [serializeMembers] at h
    cases h
    exact ⟨fun f hf => (by cases hf), rfl⟩
  | (key, x) :: fs, depth, encoded, out, h => by
    simp only [serializeMembers, bind_ok, emit_ok] at h
    obtain ⟨e1, ⟨rfl, _⟩, e2, ⟨rfl, _⟩, e3, ⟨rfl, _⟩, e4, hx, hfs⟩ := h
    obtain ⟨hwx, rfl, _⟩ := serialize_ok x hx
    obtain ⟨hwfs, hout⟩ := serializeMembers_ok fs hfs
    refine ⟨List.forall_mem_cons.mpr ⟨hwx, hwfs⟩, ?_⟩
    rw [hout, Json.Layout.writeMembers]
    simp only [List.append_assoc, List.cons_append]

end

mutual

/-- What can be written is written, if its text fits. -/
theorem serialize_of_writable : ∀ (v : Value) {depth : Nat} {encoded : List Char},
    Writable depth v →
    utf8Len (encoded ++ layout.write depth v) ≤ maximumBytes →
    serialize layout maximumBytes depth encoded v = .ok (encoded ++ layout.write depth v)
  | .null, depth, encoded, .null hdepth, hle => by
    simp only [serialize, bind_ok, rejectIf_ok, not_lt, emit_ok]
    exact ⟨(), hdepth, rfl, hle⟩
  | .bool true, depth, encoded, .bool hdepth _, hle => by
    simp only [serialize, bind_ok, rejectIf_ok, not_lt, emit_ok]
    exact ⟨(), hdepth, rfl, hle⟩
  | .bool false, depth, encoded, .bool hdepth _, hle => by
    simp only [serialize, bind_ok, rejectIf_ok, not_lt, emit_ok]
    exact ⟨(), hdepth, rfl, hle⟩
  | .str s, depth, encoded, .str hdepth _, hle => by
    simp only [serialize, bind_ok, rejectIf_ok, not_lt, emit_ok]
    exact ⟨(), hdepth, rfl, hle⟩
  | .num n, depth, encoded, .num hdepth hn, hle => by
    simp only [serialize, bind_ok, rejectIf_ok, not_lt, emit_ok]
    exact ⟨(), hdepth, (), hn, rfl, hle⟩
  | .negZero, depth, encoded, .negZero hdepth, hle => by
    simp only [serialize, bind_ok, rejectIf_ok, not_lt, emit_ok]
    exact ⟨(), hdepth, rfl, hle⟩
  | .arr [], depth, encoded, .arr hdepth _, hle => by
    have htext : encoded ++ layout.write depth (.arr []) = encoded ++ ['['] ++ [']'] := by
      rw [Json.Layout.write, List.append_assoc]
      rfl
    rw [htext] at hle ⊢
    simp only [serialize, bind_ok, rejectIf_ok, not_lt]
    exact ⟨(), hdepth, _, emit_of_le hle, emit_ok.mpr ⟨rfl, hle⟩⟩
  | .arr (x :: xs), depth, encoded, .arr hdepth hxs, hle => by
    obtain ⟨hx, hxs⟩ := List.forall_mem_cons.mp hxs
    have htext : encoded ++ layout.write depth (.arr (x :: xs)) =
        encoded ++ ['['] ++ layout.line (depth + 1) ++ layout.write (depth + 1) x
          ++ layout.writeElements depth xs := by
      rw [Json.Layout.write]
      simp only [List.append_assoc, List.cons_append, List.nil_append]
    rw [htext] at hle ⊢
    have hopen := hle
    rw [List.append_assoc, List.append_assoc] at hopen
    have hline := hle
    rw [List.append_assoc] at hline
    have hwx : utf8Len (encoded ++ ['['] ++ layout.line (depth + 1) ++ layout.write (depth + 1) x)
        ≤ maximumBytes := by
      rw [String.utf8Len_append] at hle
      omega
    obtain ⟨out, hout, hclose⟩ := serializeElements_of_writable xs hxs hle
    rw [← hclose] at hle ⊢
    rw [← List.append_assoc] at hle ⊢
    simp only [serialize, bind_ok, rejectIf_ok, not_lt]
    exact ⟨(), hdepth, _, emit_of_le hopen, _, emit_of_le hline, _,
      serialize_of_writable x hx hwx, _, hout, _, emit_of_le hle, emit_ok.mpr ⟨rfl, hle⟩⟩
  | .obj [], depth, encoded, .obj hdepth _ _, hle => by
    have htext : encoded ++ layout.write depth (.obj []) = encoded ++ ['\x7b'] ++ ['\x7d'] := by
      rw [Json.Layout.write, List.append_assoc]
      rfl
    rw [htext] at hle ⊢
    simp only [serialize, bind_ok, rejectIf_ok, not_lt]
    exact ⟨(), hdepth, _, emit_of_le hle, emit_ok.mpr ⟨rfl, hle⟩⟩
  | .obj ((key, x) :: fs), depth, encoded, .obj hdepth hnodup hfs, hle => by
    obtain ⟨hx, hfs⟩ := List.forall_mem_cons.mp hfs
    have htext : encoded ++ layout.write depth (.obj ((key, x) :: fs)) =
        encoded ++ ['\x7b'] ++ layout.line (depth + 1) ++ Json.writeString key
          ++ (':' :: layout.colon) ++
          layout.write (depth + 1) x ++ layout.writeMembers depth fs := by
      rw [Json.Layout.write]
      simp only [List.append_assoc, List.cons_append, List.nil_append]
    rw [htext] at hle ⊢
    have hcolon := hle
    rw [List.append_assoc] at hcolon
    have hkey := hcolon
    rw [List.append_assoc] at hkey
    have hline := hkey
    rw [List.append_assoc] at hline
    have hopen := hline
    rw [List.append_assoc] at hopen
    have hwx : utf8Len (encoded ++ ['\x7b'] ++ layout.line (depth + 1) ++ Json.writeString key ++
        (':' :: layout.colon) ++ layout.write (depth + 1) x) ≤ maximumBytes := by
      rw [String.utf8Len_append] at hle
      omega
    obtain ⟨out, hout, hclose⟩ := serializeMembers_of_writable fs hfs hle
    rw [← hclose] at hle ⊢
    rw [← List.append_assoc] at hle ⊢
    simp only [serialize, bind_ok, rejectIf_ok, not_or, not_lt, not_not]
    exact ⟨(), ⟨hdepth, hnodup⟩, _, emit_of_le hopen, _, emit_of_le hline, _, emit_of_le hkey, _,
      emit_of_le hcolon, _, serialize_of_writable x hx hwx, _, hout, _, emit_of_le hle,
      emit_ok.mpr ⟨rfl, hle⟩⟩

theorem serializeElements_of_writable : ∀ (xs : List Value) {depth : Nat} {encoded : List Char},
    (∀ x ∈ xs, Writable (depth + 1) x) → utf8Len (encoded ++ layout.writeElements depth xs)
      ≤ maximumBytes →
    ∃ out, serializeElements layout maximumBytes depth encoded xs = .ok out ∧
      out ++ (layout.line depth ++ [']']) = encoded ++ layout.writeElements depth xs
  | [], depth, encoded, _, _ => ⟨encoded, rfl, rfl⟩
  | x :: xs, depth, encoded, hxs, hle => by
    obtain ⟨hx, hxs⟩ := List.forall_mem_cons.mp hxs
    have htext : encoded ++ layout.writeElements depth (x :: xs) =
        encoded ++ (',' :: layout.line (depth + 1)) ++ layout.write (depth + 1) x
          ++ layout.writeElements depth xs := by
      rw [Json.Layout.writeElements]
      simp only [List.append_assoc, List.cons_append]
    rw [htext] at hle ⊢
    have hcomma := hle
    rw [List.append_assoc] at hcomma
    have hwx : utf8Len (encoded ++ (',' :: layout.line (depth + 1)) ++ layout.write (depth + 1) x)
        ≤ maximumBytes := by
      rw [String.utf8Len_append] at hle
      omega
    obtain ⟨out, hout, hclose⟩ := serializeElements_of_writable xs hxs hle
    refine ⟨out, ?_, hclose⟩
    simp only [serializeElements, bind_ok]
    exact ⟨_, emit_of_le hcomma, _, serialize_of_writable x hx hwx, hout⟩

theorem serializeMembers_of_writable :
    ∀ (fs : List (String × Value)) {depth : Nat} {encoded : List Char},
    (∀ f ∈ fs, Writable (depth + 1) f.2) → utf8Len (encoded ++ layout.writeMembers depth fs)
      ≤ maximumBytes →
    ∃ out, serializeMembers layout maximumBytes depth encoded fs = .ok out ∧
      out ++ (layout.line depth ++ ['\x7d']) = encoded ++ layout.writeMembers depth fs
  | [], depth, encoded, _, _ => ⟨encoded, rfl, rfl⟩
  | (key, x) :: fs, depth, encoded, hfs, hle => by
    obtain ⟨hx, hfs⟩ := List.forall_mem_cons.mp hfs
    have htext : encoded ++ layout.writeMembers depth ((key, x) :: fs) =
        encoded ++ (',' :: layout.line (depth + 1)) ++ Json.writeString key
          ++ (':' :: layout.colon) ++
          layout.write (depth + 1) x ++ layout.writeMembers depth fs := by
      rw [Json.Layout.writeMembers]
      simp only [List.append_assoc, List.cons_append]
    rw [htext] at hle ⊢
    have hcolon := hle
    rw [List.append_assoc] at hcolon
    have hkey := hcolon
    rw [List.append_assoc] at hkey
    have hcomma := hkey
    rw [List.append_assoc] at hcomma
    have hwx : utf8Len (encoded ++ (',' :: layout.line (depth + 1)) ++ Json.writeString key
        ++ (':' :: layout.colon) ++
        layout.write (depth + 1) x) ≤ maximumBytes := by
      rw [String.utf8Len_append] at hle
      omega
    obtain ⟨out, hout, hclose⟩ := serializeMembers_of_writable fs hfs hle
    refine ⟨out, ?_, hclose⟩
    simp only [serializeMembers, bind_ok]
    exact ⟨_, emit_of_le hcomma, _, emit_of_le hkey, _, emit_of_le hcolon, _,
      serialize_of_writable x hx hwx, hout⟩

end

end

/-- The writer's outcome on text that fits does not depend on the layout. -/
theorem stringifyJsonWithoutHooks_of_writable {v : Value} {space maximumBytes : Nat}
    (h : Writable 0 v) (hspace : space ≤ 10) (hmax : 1 ≤ maximumBytes)
    (hle : utf8Len ((layoutOf space).write 0 v) ≤ maximumBytes) :
    stringifyJsonWithoutHooks v space false maximumBytes = .ok ((layoutOf space).write 0 v) := by
  have hserialize := @serialize_of_writable (layoutOf space) maximumBytes v 0 [] h
    (by simpa using hle)
  simp only [stringifyJsonWithoutHooks, bind_ok, rejectIf_ok, not_lt]
  exact ⟨(), hspace, (), hmax, by simpa using hserialize⟩

theorem stringifyJsonWithoutHooks_ok {v : Value} {space maximumBytes : Nat} {out : List Char}
    (h : stringifyJsonWithoutHooks v space false maximumBytes = .ok out) :
    Writable 0 v ∧ out = (layoutOf space).write 0 v := by
  simp only [stringifyJsonWithoutHooks, bind_ok, rejectIf_ok] at h
  obtain ⟨_, _, _, _, hserialize⟩ := h
  obtain ⟨hwritable, hout, _⟩ := serialize_ok _ hserialize
  exact ⟨by simpa using hwritable, by simpa using hout⟩

end Journal
end ZenonX402
