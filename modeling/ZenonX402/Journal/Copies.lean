/-
# Which values the journal keeps

`cloneJson` copies a value exactly when the value is data throughout, nests at most
`MAX_JSON_DEPTH` levels deep, has only keys that may be kept and is written in at most
so many bytes (`clones_iff`): what the copy charges and what the second walk looks for
is no more than that.

Key definitions: `isSecretKey`, `isPrototypeKey`, `isKept`.
Key theorems: `descriptorSafeJsonValue_of_plain`, `validateJsonValueInternal_iff`, `clones_iff`.
-/
import ZenonX402.Journal.Records
import ZenonX402.Lib.Shape

namespace ZenonX402
namespace Journal

open Js
open Value (Plain height keysAll textSize memberSize unsigned unsignedElements unsignedMembers)

/-! ### Copying -/

mutual

/-- What was copied is data that nests no deeper than the walk goes. -/
theorem descriptorSafeJsonValue_plain :
    ∀ (v : Value) {w : Value} {maximumBytes bytes bytes' depth : Nat},
    descriptorSafeJsonValue maximumBytes bytes depth v = .ok (w, bytes') → Plain v
      ∧ depth + height v ≤ MAX_JSON_DEPTH
  | .arr xs, w, maximumBytes, bytes, bytes', depth, h => by
    simp only [descriptorSafeJsonValue, bind_ok, rejectIf_ok, not_lt] at h
    obtain ⟨_, hdepth, _, _, ⟨snapshot, b⟩, hsnapshot, _⟩ := h
    have hxs := descriptorSafeElements_plain xs hsnapshot
    exact ⟨.arr fun x hx => (hxs x hx).1, (Value.add_height_arr_le hdepth).mpr
      fun x hx => (hxs x hx).2⟩
  | .obj fs, w, maximumBytes, bytes, bytes', depth, h => by
    simp only [descriptorSafeJsonValue, bind_ok, rejectIf_ok, not_or, not_not, not_lt] at h
    obtain ⟨_, ⟨hdepth, hnodup⟩, _, _, b, _, ⟨snapshot, b'⟩, hsnapshot, _⟩ := h
    have hfs := descriptorSafeMembers_plain fs hsnapshot
    exact ⟨.obj hnodup fun f hf => (hfs f hf).1, (Value.add_height_obj_le hdepth).mpr
      fun f hf => (hfs f hf).2⟩
  | .num n, w, maximumBytes, bytes, bytes', depth, h => by
    simp only [descriptorSafeJsonValue, bind_ok, rejectIf_ok, not_lt] at h
    obtain ⟨_, hdepth, _, hn, _⟩ := h
    exact ⟨.num hn, hdepth⟩
  | .negZero, w, maximumBytes, bytes, bytes', depth, h => by
    simp only [descriptorSafeJsonValue, bind_ok, rejectIf_ok, not_lt] at h
    exact ⟨.negZero, h.choose_spec.1⟩
  | .str s, w, maximumBytes, bytes, bytes', depth, h => by
    simp only [descriptorSafeJsonValue, bind_ok, rejectIf_ok, not_lt] at h
    exact ⟨.str s, h.choose_spec.1⟩
  | .null, w, maximumBytes, bytes, bytes', depth, h => by
    simp only [descriptorSafeJsonValue, bind_ok, rejectIf_ok, not_lt] at h
    exact ⟨.null, h.choose_spec.1⟩
  | .bool b, w, maximumBytes, bytes, bytes', depth, h => by
    simp only [descriptorSafeJsonValue, bind_ok, rejectIf_ok, not_lt] at h
    exact ⟨.bool b, h.choose_spec.1⟩
  | .undefined, _, _, _, _, _, h | .fractional, _, _, _, _, _, h | .host, _, _, _, _, _, h => by
    rw [descriptorSafeJsonValue] at h
    cases h

theorem descriptorSafeElements_plain :
    ∀ (xs : List Value) {ys : List Value} {maximumBytes bytes bytes' depth : Nat},
    descriptorSafeElements maximumBytes bytes depth xs = .ok (ys, bytes') →
    ∀ x ∈ xs, Plain x ∧ depth + 1 + height x ≤ MAX_JSON_DEPTH
  | [], _, _, _, _, _, _ => fun x hx => by cases hx
  | x :: xs, ys, maximumBytes, bytes, bytes', depth, h => by
    simp only [descriptorSafeElements, bind_ok] at h
    obtain ⟨⟨child, b⟩, hchild, ⟨rest, b'⟩, hrest, _⟩ := h
    exact List.forall_mem_cons.mpr ⟨descriptorSafeJsonValue_plain x hchild,
      descriptorSafeElements_plain xs hrest⟩

theorem descriptorSafeMembers_plain : ∀ (fs : List (String × Value)) {gs : List (String × Value)}
    {maximumBytes bytes bytes' depth : Nat}, descriptorSafeMembers maximumBytes bytes depth fs
      = .ok (gs, bytes') →
    ∀ f ∈ fs, Plain f.2 ∧ depth + 1 + height f.2 ≤ MAX_JSON_DEPTH
  | [], _, _, _, _, _, _ => fun f hf => by cases hf
  | (key, x) :: fs, gs, maximumBytes, bytes, bytes', depth, h => by
    simp only [descriptorSafeMembers, bind_ok] at h
    obtain ⟨⟨child, b⟩, hchild, ⟨rest, b'⟩, hrest, _⟩ := h
    exact List.forall_mem_cons.mpr ⟨descriptorSafeJsonValue_plain x hchild,
      descriptorSafeMembers_plain fs hrest⟩

end

theorem chargeJsonSnapshot_of_le {maximumBytes bytes : Nat} {s : String}
    (h : bytes + s.utf8ByteSize ≤ maximumBytes) :
    chargeJsonSnapshot maximumBytes bytes s = .ok (bytes + s.utf8ByteSize) := by
  simp only [chargeJsonSnapshot, bind_ok, rejectIf_ok, not_lt]
  exact ⟨(), h, rfl⟩

theorem chargeKeys_of_le {maximumBytes : Nat} : ∀ (keys : List String) {bytes : Nat},
    bytes + (keys.map String.utf8ByteSize).sum ≤ maximumBytes →
    chargeKeys maximumBytes bytes keys = .ok (bytes + (keys.map String.utf8ByteSize).sum)
  | [], _, _ => rfl
  | key :: keys, bytes, h => by
    rw [List.map_cons, List.sum_cons, ← Nat.add_assoc] at h ⊢
    have hkey := @chargeJsonSnapshot_of_le maximumBytes bytes key (by omega)
    have hkeys := chargeKeys_of_le keys h
    unfold chargeKeys at hkeys ⊢
    rw [List.foldlM_cons]
    exact bind_ok.mpr ⟨_, hkey, hkeys⟩

theorem sum_elements (xs : List Value) :
    (xs.map fun x => textSize x + 1).sum = (xs.map textSize).sum + xs.length := by
  induction xs with
  | nil => rfl
  | cons x xs ih =>
    simp only [List.map_cons, List.sum_cons, List.length_cons]
    omega

theorem sum_keys_le (fs : List (String × Value)) : ((fs.map Prod.fst).map String.utf8ByteSize).sum
    + (fs.map fun f => textSize f.2).sum + 4 * fs.length
    ≤ (fs.map fun f => memberSize f.1 f.2).sum := by
  induction fs with
  | nil => exact Nat.zero_le _
  | cons f fs ih =>
    have hkey := Value.utf8ByteSize_le_textSize f.1
    simp only [List.map_cons, List.sum_cons, List.length_cons]
    unfold memberSize at ih ⊢
    omega

mutual

/-- Data that nests no deeper than the walk goes is copied, if its text fits. -/
theorem descriptorSafeJsonValue_of_plain : ∀ (v : Value) {maximumBytes bytes depth : Nat}, Plain v →
    depth + height v ≤ MAX_JSON_DEPTH → bytes + textSize v ≤ maximumBytes →
    ∃ bytes', descriptorSafeJsonValue maximumBytes bytes depth v = .ok (unsigned v, bytes')
      ∧ bytes' ≤ bytes + textSize v
  | .arr xs, maximumBytes, bytes, depth, .arr hxs, hheight, hfits => by
    have hdepth : depth ≤ MAX_JSON_DEPTH := (Nat.le_add_right ..).trans hheight
    have hsize := Value.textSize_arr_eq xs
    have hlength := sum_elements xs
    obtain ⟨b, hsnapshot, hb⟩ := @descriptorSafeElements_of_plain xs maximumBytes bytes depth hxs
      ((Value.add_height_arr_le hdepth).mp hheight) (by omega)
    refine ⟨b, ?_, by omega⟩
    simp only [descriptorSafeJsonValue, bind_ok, rejectIf_ok, not_lt]
    exact ⟨(), hdepth, (), by omega, _, hsnapshot, by rw [unsigned]; rfl⟩
  | .obj fs, maximumBytes, bytes, depth, .obj hnodup hfs, hheight, hfits => by
    have hdepth : depth ≤ MAX_JSON_DEPTH := (Nat.le_add_right ..).trans hheight
    have hsize := Value.textSize_obj_eq fs
    have hkeys := sum_keys_le fs
    have hcharged := @chargeKeys_of_le maximumBytes (fs.map Prod.fst) bytes (by omega)
    obtain ⟨b, hsnapshot, hb⟩ := @descriptorSafeMembers_of_plain fs maximumBytes
      (bytes + ((fs.map Prod.fst).map String.utf8ByteSize).sum) depth hfs
      ((Value.add_height_obj_le hdepth).mp hheight) (by omega)
    refine ⟨b, ?_, by omega⟩
    simp only [descriptorSafeJsonValue, bind_ok, rejectIf_ok, not_or, not_not, not_lt]
    exact ⟨(), ⟨hdepth, hnodup⟩, (), by omega, _, hcharged, _, hsnapshot, by rw [unsigned]; rfl⟩
  | .num n, maximumBytes, bytes, depth, .num hn, hheight, hfits => by
    refine ⟨bytes, ?_, by omega⟩
    simp only [descriptorSafeJsonValue, bind_ok, rejectIf_ok, not_lt]
    exact ⟨(), hheight, (), hn, by rw [unsigned]; rfl⟩
  | .negZero, maximumBytes, bytes, depth, _, hheight, hfits => by
    refine ⟨bytes, ?_, by omega⟩
    simp only [descriptorSafeJsonValue, bind_ok, rejectIf_ok, not_lt]
    exact ⟨(), hheight, by rw [unsigned]; rfl⟩
  | .str s, maximumBytes, bytes, depth, _, hheight, hfits => by
    have hsize := Value.utf8ByteSize_le_textSize s
    refine ⟨bytes + s.utf8ByteSize, ?_, by omega⟩
    simp only [descriptorSafeJsonValue, bind_ok, rejectIf_ok, not_lt]
    exact ⟨(), hheight, _, chargeJsonSnapshot_of_le (by omega), by rw [unsigned]; rfl⟩
  | .null, maximumBytes, bytes, depth, _, hheight, hfits => by
    refine ⟨bytes, ?_, by omega⟩
    simp only [descriptorSafeJsonValue, bind_ok, rejectIf_ok, not_lt]
    exact ⟨(), hheight, by rw [unsigned]; rfl⟩
  | .bool b, maximumBytes, bytes, depth, _, hheight, hfits => by
    refine ⟨bytes, ?_, by omega⟩
    simp only [descriptorSafeJsonValue, bind_ok, rejectIf_ok, not_lt]
    exact ⟨(), hheight, by rw [unsigned]; rfl⟩

theorem descriptorSafeElements_of_plain : ∀ (xs : List Value) {maximumBytes bytes depth : Nat},
    (∀ x ∈ xs, Plain x) →
    (∀ x ∈ xs, depth + 1 + height x ≤ MAX_JSON_DEPTH) → bytes + (xs.map textSize).sum
      ≤ maximumBytes →
    ∃ bytes', descriptorSafeElements maximumBytes bytes depth xs = .ok (unsignedElements xs, bytes')
      ∧ bytes' ≤ bytes + (xs.map textSize).sum
  | [], maximumBytes, bytes, depth, _, _, _ => ⟨bytes, rfl, Nat.le_add_right ..⟩
  | x :: xs, maximumBytes, bytes, depth, hplain, hheight, hfits => by
    obtain ⟨hx, hxs⟩ := List.forall_mem_cons.mp hplain
    obtain ⟨hheight, hheights⟩ := List.forall_mem_cons.mp hheight
    rw [List.map_cons, List.sum_cons] at hfits ⊢
    obtain ⟨b, hchild, hb⟩ :=
  @descriptorSafeJsonValue_of_plain x maximumBytes bytes (depth + 1) hx hheight (by omega)
    obtain ⟨b', hrest, hb'⟩ :=
  @descriptorSafeElements_of_plain xs maximumBytes b depth hxs hheights (by omega)
    refine ⟨b', ?_, by omega⟩
    simp only [descriptorSafeElements, bind_ok]
    exact ⟨_, hchild, _, hrest, by rw [unsignedElements]; rfl⟩

theorem descriptorSafeMembers_of_plain :
    ∀ (fs : List (String × Value)) {maximumBytes bytes depth : Nat}, (∀ f ∈ fs, Plain f.2) →
    (∀ f ∈ fs, depth + 1 + height f.2 ≤ MAX_JSON_DEPTH) →
    bytes + (fs.map fun f => textSize f.2).sum ≤ maximumBytes →
    ∃ bytes', descriptorSafeMembers maximumBytes bytes depth fs = .ok (unsignedMembers fs, bytes')
      ∧ bytes' ≤ bytes + (fs.map fun f => textSize f.2).sum
  | [], maximumBytes, bytes, depth, _, _, _ => ⟨bytes, rfl, Nat.le_add_right ..⟩
  | (key, x) :: fs, maximumBytes, bytes, depth, hplain, hheight, hfits => by
    obtain ⟨hx, hfs⟩ := List.forall_mem_cons.mp hplain
    obtain ⟨hheight, hheights⟩ := List.forall_mem_cons.mp hheight
    simp only [List.map_cons, List.sum_cons] at hfits ⊢
    obtain ⟨b, hchild, hb⟩ :=
  @descriptorSafeJsonValue_of_plain x maximumBytes bytes (depth + 1) hx hheight (by omega)
    obtain ⟨b', hrest, hb'⟩ :=
  @descriptorSafeMembers_of_plain fs maximumBytes b depth hfs hheights (by omega)
    refine ⟨b', ?_, by omega⟩
    simp only [descriptorSafeMembers, bind_ok]
    exact ⟨_, hchild, _, hrest, by rw [unsignedMembers]; rfl⟩

end

/-! ### Keys -/

/-- A key under which the journal keeps nothing. -/
def isSecretKey (key : String) : Bool := FORBIDDEN_PERSISTED_KEYS.contains (normalizedKey key)

def isPrototypeKey (key : String) : Bool :=
  key == "__proto__" || key == "prototype" || key == "constructor"

def isKept (key : String) : Bool := !isSecretKey key && !isPrototypeKey key

theorem isKept_iff {key : String} : isKept key = true ↔ normalizedKey key ∉ FORBIDDEN_PERSISTED_KEYS
    ∧ ¬ (key = "__proto__" ∨ key = "prototype" ∨ key = "constructor") := by
  simp [isKept, isSecretKey, isPrototypeKey, and_assoc]

theorem check_ok {ε : Type} {x y : Except ε Unit} :
    (x >>= fun _ => y) = .ok () ↔ x = .ok () ∧ y = .ok () := by
  rw [bind_ok]
  exact ⟨fun ⟨_, hx, hy⟩ => ⟨hx, hy⟩, fun ⟨hx, hy⟩ => ⟨(), hx, hy⟩⟩

mutual

theorem validateJsonValueInternal_iff : ∀ (v : Value) (depth : Nat), Plain v →
    (validateJsonValueInternal depth v = .ok () ↔ depth + height v ≤ MAX_JSON_DEPTH
      ∧ keysAll isKept v = true)
  | .arr xs, depth, .arr hxs => by
    simp only [validateJsonValueInternal, check_ok, rejectIf_ok, not_lt, Value.keysAll_arr]
    rw [validateElements_iff xs depth hxs]
    constructor
    · rintro ⟨hdepth, hxs⟩
      exact ⟨(Value.add_height_arr_le hdepth).mpr fun x hx => (hxs x hx).1,
        fun x hx => (hxs x hx).2⟩
    · rintro ⟨hheight, hkeys⟩
      have hdepth : depth ≤ MAX_JSON_DEPTH := (Nat.le_add_right ..).trans hheight
      exact ⟨hdepth, fun x hx => ⟨(Value.add_height_arr_le hdepth).mp hheight x hx, hkeys x hx⟩⟩
  | .obj fs, depth, .obj _ hfs => by
    simp only [validateJsonValueInternal, check_ok, rejectIf_ok, not_lt, Value.keysAll_obj]
    rw [validateMembers_iff fs depth hfs]
    constructor
    · rintro ⟨hdepth, hfs⟩
      exact ⟨(Value.add_height_obj_le hdepth).mpr fun f hf => (hfs f hf).2.1,
        fun f hf => ⟨(hfs f hf).1, (hfs f hf).2.2⟩⟩
    · rintro ⟨hheight, hkeys⟩
      have hdepth : depth ≤ MAX_JSON_DEPTH := (Nat.le_add_right ..).trans hheight
      exact ⟨hdepth, fun f hf => ⟨(hkeys f hf).1, (Value.add_height_obj_le hdepth).mp hheight f hf,
        (hkeys f hf).2⟩⟩
  | .num n, depth, .num hn => by
    simp only [validateJsonValueInternal, check_ok, rejectIf_ok, not_lt]
    exact ⟨fun h => ⟨h.1, rfl⟩, fun h => ⟨h.1, hn⟩⟩
  | .negZero, depth, _ | .null, depth, _ | .str _, depth, _ | .bool _, depth, _ => by
    simp only [validateJsonValueInternal, rejectIf_ok, not_lt]
    exact ⟨fun h => ⟨h, rfl⟩, fun h => h.1⟩

theorem validateElements_iff : ∀ (xs : List Value) (depth : Nat), (∀ x ∈ xs, Plain x) →
    (validateElements depth xs = .ok () ↔ ∀ x ∈ xs, depth + 1 + height x ≤ MAX_JSON_DEPTH
      ∧ keysAll isKept x = true)
  | [], depth, _ => by simp [validateElements]
  | x :: xs, depth, hplain => by
    obtain ⟨hx, hxs⟩ := List.forall_mem_cons.mp hplain
    rw [validateElements, check_ok, validateJsonValueInternal_iff x (depth + 1) hx,
      validateElements_iff xs depth hxs, List.forall_mem_cons]

theorem validateMembers_iff : ∀ (fs : List (String × Value)) (depth : Nat), (∀ f ∈ fs, Plain f.2) →
    (validateMembers depth fs = .ok () ↔
      ∀ f ∈ fs, isKept f.1 = true ∧ depth + 1 + height f.2 ≤ MAX_JSON_DEPTH
        ∧ keysAll isKept f.2 = true)
  | [], depth, _ => by simp [validateMembers]
  | (key, x) :: fs, depth, hplain => by
    obtain ⟨hx, hfs⟩ := List.forall_mem_cons.mp hplain
    rw [validateMembers, check_ok, check_ok, check_ok, rejectIf_ok, rejectIf_ok,
      validateJsonValueInternal_iff x (depth + 1) hx, validateMembers_iff fs depth hfs,
      List.forall_mem_cons, isKept_iff]
    simp only [and_assoc]

end

mutual

/-- Of data without a prototype key and not too deep, all that can be refused is a secret. -/
theorem validateJsonValueInternal_gives : ∀ (v : Value) (depth : Nat), Plain v → depth + height v
    ≤ MAX_JSON_DEPTH →
    keysAll (fun key => !isPrototypeKey key) v = true →
    Gives (validateJsonValueInternal depth v) (· = .journalSecretFieldForbidden) fun _ => True
  | .arr xs, depth, .arr hxs, hheight, hkeys => by
    have hdepth : depth ≤ MAX_JSON_DEPTH := (Nat.le_add_right ..).trans hheight
    rw [validateJsonValueInternal, gives_rejectIf]
    exact ⟨fun h => absurd hdepth (Nat.not_le.mpr h), fun _ => validateElements_gives xs depth hxs
      ((Value.add_height_arr_le hdepth).mp hheight) (Value.keysAll_arr.mp hkeys)⟩
  | .obj fs, depth, .obj _ hfs, hheight, hkeys => by
    have hdepth : depth ≤ MAX_JSON_DEPTH := (Nat.le_add_right ..).trans hheight
    rw [validateJsonValueInternal, gives_rejectIf]
    exact ⟨fun h => absurd hdepth (Nat.not_le.mpr h), fun _ => validateMembers_gives fs depth hfs
      ((Value.add_height_obj_le hdepth).mp hheight) (Value.keysAll_obj.mp hkeys)⟩
  | .num n, depth, .num hn, hheight, _ => by
    have hok := (validateJsonValueInternal_iff (.num n) depth (.num hn)).mpr ⟨hheight, rfl⟩
    rw [hok]
    trivial
  | .negZero, depth, hv, hheight, _ | .null, depth, hv, hheight, _ | .str _, depth, hv, hheight, _
  | .bool _, depth, hv, hheight, _ => by
    rw [(validateJsonValueInternal_iff _ depth hv).mpr ⟨hheight, rfl⟩]
    trivial

theorem validateElements_gives : ∀ (xs : List Value) (depth : Nat), (∀ x ∈ xs, Plain x) →
    (∀ x ∈ xs, depth + 1 + height x ≤ MAX_JSON_DEPTH) →
    (∀ x ∈ xs, keysAll (fun key => !isPrototypeKey key) x = true) →
    Gives (validateElements depth xs) (· = .journalSecretFieldForbidden) fun _ => True
  | [], _, _, _, _ => trivial
  | x :: xs, depth, hplain, hheight, hkeys => by
    obtain ⟨hx, hxs⟩ := List.forall_mem_cons.mp hplain
    obtain ⟨hheight, hheights⟩ := List.forall_mem_cons.mp hheight
    obtain ⟨hkey, hkeys⟩ := List.forall_mem_cons.mp hkeys
    have hfirst := validateJsonValueInternal_gives x (depth + 1) hx hheight hkey
    rw [validateElements, gives_bind]
    exact ⟨fun e he => by rw [he] at hfirst; exact hfirst,
      fun _ _ => validateElements_gives xs depth hxs hheights hkeys⟩

theorem validateMembers_gives : ∀ (fs : List (String × Value)) (depth : Nat),
    (∀ f ∈ fs, Plain f.2) →
    (∀ f ∈ fs, depth + 1 + height f.2 ≤ MAX_JSON_DEPTH) →
    (∀ f ∈ fs, (!isPrototypeKey f.1) = true ∧ keysAll (fun key => !isPrototypeKey key) f.2 = true) →
    Gives (validateMembers depth fs) (· = .journalSecretFieldForbidden) fun _ => True
  | [], _, _, _, _ => trivial
  | (key, x) :: fs, depth, hplain, hheight, hkeys => by
    obtain ⟨hx, hfs⟩ := List.forall_mem_cons.mp hplain
    obtain ⟨hheight, hheights⟩ := List.forall_mem_cons.mp hheight
    obtain ⟨⟨hkey, hvalue⟩, hkeys⟩ := List.forall_mem_cons.mp hkeys
    have hfirst := validateJsonValueInternal_gives x (depth + 1) hx hheight hvalue
    have hprototype : ¬ (key = "__proto__" ∨ key = "prototype" ∨ key = "constructor") := by
      simpa [isPrototypeKey, and_assoc] using hkey
    rw [validateMembers, gives_rejectIf]
    refine ⟨fun _ => rfl, fun _ => ?_⟩
    rw [gives_rejectIf]
    refine ⟨fun h => absurd h hprototype, fun _ => ?_⟩
    rw [gives_bind]
    exact ⟨fun e he => by rw [he] at hfirst; exact hfirst,
      fun _ _ => validateMembers_gives fs depth hfs hheights hkeys⟩

end

/-! ### Copies -/

theorem Writable.of_plain : ∀ {v : Value} {depth : Nat}, Plain v → depth + height v ≤ MAX_JSON_DEPTH
    + 4 → Writable depth v := by
  intro v depth h
  induction h generalizing depth with
  | null => exact fun h => .null h
  | bool b => exact fun h => .bool h b
  | num hn => exact fun h => .num h hn
  | negZero => exact fun h => .negZero h
  | str s => exact fun h => .str h s
  | arr _ ih =>
    intro h
    have hdepth := (Nat.le_add_right ..).trans h
    exact .arr hdepth fun x hx => ih x hx ((Value.add_height_arr_le hdepth).mp h x hx)
  | obj hnodup _ ih =>
    intro h
    have hdepth := (Nat.le_add_right ..).trans h
    exact .obj hdepth hnodup fun f hf => ih f hf ((Value.add_height_obj_le hdepth).mp h f hf)

/-- Data in the order of its keys is as deep. -/
theorem Writable.canonical {depth : Nat} {v : Value} (h : Writable depth v) :
    Writable depth v.canonical := by
  induction h with
  | null h => exact .null h
  | bool h b => exact .bool h b
  | str h s => exact .str h s
  | num h hn => exact .num h hn
  | negZero h => exact .num h (Nat.zero_le _)
  | arr h _ ih =>
    refine .arr h fun x hx => ?_
    rw [Value.canonicalList_eq_map] at hx
    obtain ⟨y, hy, rfl⟩ := List.mem_map.mp hx
    exact ih y hy
  | @obj depth h fs hn _ ih =>
    have hperm := Value.perm_sortFields (Value.canonicalFields fs)
    refine .obj h ?_ fun f hf => ?_
    · rw [(hperm.map Prod.fst).nodup_iff, Value.canonicalFields_keys]
      exact hn
    · have hf' := hperm.mem_iff.mp hf
      rw [Value.canonicalFields_eq_map] at hf'
      obtain ⟨g, hg, rfl⟩ := List.mem_map.mp hf'
      exact ih g hg

theorem layout_compact (v : Value) : (layoutOf 0).write 0 v = Json.write v := by
  rw [layoutOf, if_pos rfl, Json.Layout.write_compact]

/-- Data with a short enough text in the order of its keys has that text. -/
theorem canonicalJson_of_writable {v : Value} {maximumBytes : Nat} (h : Writable 0 v)
    (hbytes : textSize v ≤ maximumBytes) :
    canonicalJson v maximumBytes = .ok (Js.canonicalJson v) := by
  have hone := Value.one_le_textSize v
  have hlength : String.utf8Len ((layoutOf 0).write 0 v.canonical) ≤ maximumBytes := by
    rw [layout_compact]
    exact (Value.textSize_canonical v).trans_le hbytes
  have htext := stringifyJsonWithoutHooks_of_writable h.canonical (Nat.zero_le 10)
    (hone.trans hbytes) hlength
  have hsame : stringifyJsonWithoutHooks v 0 true maximumBytes
      = stringifyJsonWithoutHooks v.canonical 0 false maximumBytes := rfl
  rw [canonicalJson, hsame, htext, layout_compact]
  rfl

/-- A value is copied exactly if it is data, not too deep, with keys that may be kept, and short
enough when written. -/
theorem clones_iff (v : Value) (maximumBytes : Nat) : clones v maximumBytes = true ↔
    Plain v ∧ height v ≤ MAX_JSON_DEPTH ∧ keysAll isKept v = true ∧ textSize v ≤ maximumBytes := by
  have hclones : clones v maximumBytes = true ↔ ∃ w, cloneJson v maximumBytes = .ok w := by
    unfold clones
    cases cloneJson v maximumBytes <;> simp
  rw [hclones]
  constructor
  · rintro ⟨w, h⟩
    simp only [cloneJson, bind_ok, mapError_ok, rejectIf_ok, not_lt] at h
    obtain ⟨⟨snapshot, bytes⟩, hsnapshot, _, hvalidate, encoded, hencoded, _, hsize, _⟩ := h
    obtain ⟨hplain, hheight⟩ := descriptorSafeJsonValue_plain v hsnapshot
    obtain ⟨rfl, hjson⟩ := descriptorSafeJsonValue_eq v hsnapshot
    obtain ⟨_, rfl⟩ := stringifyJsonWithoutHooks_ok hencoded
    have hkeys := ((validateJsonValueInternal_iff _ 0 hjson.plain).mp hvalidate).2
    rw [Value.keysAll_unsigned] at hkeys
    rw [layout_compact] at hsize
    have htext : textSize v.unsigned ≤ maximumBytes := hsize
    rw [Value.textSize_unsigned] at htext
    exact ⟨hplain, by simpa using hheight, hkeys, htext⟩
  · rintro ⟨hplain, hheight, hkeys, hsize⟩
    have hjson := hplain.json
    obtain ⟨bytes, hsnapshot, _⟩ :=
      @descriptorSafeJsonValue_of_plain v maximumBytes 0 0 hplain (by simpa using hheight)
      (by simpa using hsize)
    have htext : textSize v.unsigned ≤ maximumBytes := by rwa [Value.textSize_unsigned]
    have hvalidate : validateJsonValue v.unsigned = .ok () := by
      refine (validateJsonValueInternal_iff _ 0 hjson.plain).mpr ⟨?_, ?_⟩
      · rwa [Value.height_unsigned, Nat.zero_add]
      · rwa [Value.keysAll_unsigned]
    have hwritable : Writable 0 v.unsigned :=
      .of_plain hjson.plain (by rw [Value.height_unsigned]; omega)
    have hone := Value.one_le_textSize v
    have hencoded := @stringifyJsonWithoutHooks_of_writable v.unsigned 0 maximumBytes hwritable
      (by decide) (by omega)
      (by rw [layout_compact]; exact htext)
    refine ⟨v.unsigned, ?_⟩
    simp only [cloneJson, bind_ok, mapError_ok, rejectIf_ok, not_lt]
    exact ⟨_, hsnapshot, (), hvalidate, _, hencoded, (), by rw [layout_compact]; exact htext, rfl⟩

theorem cloneJson_of_clones {v : Value} {maximumBytes : Nat} (h : clones v maximumBytes = true) :
    cloneJson v maximumBytes = .ok v.unsigned := by
  unfold clones at h
  cases hclone : cloneJson v maximumBytes with
  | error e =>
    rw [hclone] at h
    cases h
  | ok w => rw [(cloneJson_eq hclone).1]

/-- Data within the bounds, but with a secret in it, is refused for the secret. -/
theorem cloneJson_secret {v : Value} {maximumBytes : Nat} (hplain : Plain v)
    (hheight : height v ≤ MAX_JSON_DEPTH) (hbytes : textSize v ≤ maximumBytes)
    (hprototype : keysAll (fun key => !isPrototypeKey key) v = true)
    (hsecret : keysAll (fun key => !isSecretKey key) v = false) :
    cloneJson v maximumBytes = .error .journalSecretFieldForbidden := by
  obtain ⟨bytes, hsnapshot, _⟩ :=
    @descriptorSafeJsonValue_of_plain v maximumBytes 0 0 hplain (by simpa using hheight)
    (by simpa using hbytes)
  have hgives := validateJsonValueInternal_gives v.unsigned 0 hplain.json.plain
    (by rwa [Value.height_unsigned, Nat.zero_add])
    (by rwa [Value.keysAll_unsigned])
  cases hvalidate : validateJsonValueInternal 0 v.unsigned with
  | ok u =>
    have hkeys := ((validateJsonValueInternal_iff v.unsigned 0 hplain.json.plain).mp hvalidate).2
    rw [Value.keysAll_unsigned] at hkeys
    rw [((Value.keysAll_and hplain).mp hkeys).1] at hsecret
    cases hsecret
  | error e =>
    rw [hvalidate] at hgives
    rw [cloneJson, hsnapshot]
    show (validateJsonValueInternal 0 v.unsigned >>= fun _ => _) = _
    rw [hvalidate, show e = .journalSecretFieldForbidden from hgives]
    rfl

end Journal
end ZenonX402
