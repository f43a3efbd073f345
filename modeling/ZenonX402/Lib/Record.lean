/-
# Objects read key by key

A plain object is read by its keys, which must be exactly the expected ones, in
any order (`fields`), and written in an order that is remembered (`written`):
reading finds what was written under each key, and an object that was read is
the one that its own order writes. A text that `JSON.stringify` gave for such an
object thus determines both its content and the order of its keys.

A record with a codec has one text of its own (`Codec.ofText`).

Key definitions: `Order`, `fields`, `written`, `Codec.ofText`.
Key theorems: `fields_written`, `fields_some`, `written_inj`, `stringify_inj`, `Codec.ofText_ok`.
-/
import ZenonX402.Lib.Codec
import ZenonX402.Lib.Json

namespace Js

open Value

/-- An order of the keys `names`. -/
abbrev Order (names : List String) := {order : List String // order.Perm names}

def Order.given (names : List String) : Order names := ⟨names, .refl names⟩

/-- The keys in their order and the values under them, of a plain object that
has exactly the keys `names`. -/
def fields (names : List String) : Value → Option (Order names × (String → Value))
  | .obj gs => if h : (gs.map Prod.fst).Perm names
      then some (⟨gs.map Prod.fst, h⟩, fun k => (gs.lookup k).getD .undefined) else none
  | _ => none

/-- The object with a value under each key, its keys in the order given. -/
def written {names : List String} (order : Order names) (field : String → Value) : Value :=
  .obj (order.1.map fun k => (k, field k))

/-- A check in the middle of a reader. -/
theorem guard_some {p : Prop} [Decidable p] {u : Unit} : (guard p : Option Unit) = some u ↔ p := by
  by_cases h : p
  · simp [guard, h]
  · simp [guard, h]

variable {names : List String}

theorem keys_written (order : List String) (field : String → Value) :
    (order.map fun k => (k, field k)).map Prod.fst = order := by
  rw [List.map_map]
  exact List.map_id _

theorem lookup_written {order : List String} {field : String → Value} {k : String} (h : k ∈ order) :
    (order.map fun k => (k, field k)).lookup k = some (field k) := by
  induction order with
  | nil => cases h
  | cons k' order ih =>
    rw [List.map_cons, List.lookup_cons]
    by_cases hk : k = k'
    · simp [hk]
    · have hne : (k == k') = false := by simpa using hk
      rw [hne]
      exact ih ((List.mem_cons.mp h).resolve_left hk)

theorem written_congr {order : Order names} {field field' : String → Value}
    (h : ∀ k ∈ names, field k = field' k) : written order field = written order field' := by
  refine congrArg Value.obj (List.map_congr_left fun k hk => ?_)
  rw [h k (order.2.mem_iff.mp hk)]

theorem fields_written (order : Order names) (field : String → Value) :
    ∃ get, fields names (written order field) = some (order, get) ∧ ∀ k ∈ names,
    get k = field k := by
  have hkeys := keys_written order.1 field
  refine ⟨fun k => ((order.1.map fun k => (k, field k)).lookup k).getD .undefined, ?_,
    fun k hk => ?_⟩
  · refine (dif_pos (by rw [hkeys]; exact order.2)).trans ?_
    simp only [Option.some.injEq, Prod.mk.injEq, and_true, ← Subtype.val_inj]
    exact hkeys
  · change ((order.1.map fun k => (k, field k)).lookup k).getD .undefined = field k
    rw [lookup_written (order.2.mem_iff.mpr hk), Option.getD_some]

/-- An object that is read is the one its own order writes. -/
theorem fields_some {v : Value} {order : Order names} {get : String → Value} (hn : names.Nodup)
    (h : fields names v = some (order, get)) : v = written order get := by
  cases v with
  | obj gs =>
    simp only [fields, Option.dite_none_right_eq_some, Option.some.injEq, Prod.mk.injEq] at h
    obtain ⟨hperm, rfl, rfl⟩ := h
    refine congrArg Value.obj ?_
    rw [List.map_map]
    refine (List.map_id gs).symm.trans (List.map_congr_left fun f hf => ?_)
    have hlookup := (mem_iff_lookup f.1 f.2 (hperm.nodup_iff.mpr hn)).mp hf
    simp only [Function.comp_apply, hlookup, Option.getD_some]
    rfl
  | _ => simp [fields] at h

/-- An object that is written is read in one way only. -/
theorem written_inj {order order' : Order names} {field field' : String → Value}
    (he : written order field = written order' field') :
    order = order' ∧ ∀ k ∈ names, field k = field' k := by
  have hentries := Value.obj.inj he
  have hkeys := congrArg (List.map Prod.fst) hentries
  rw [keys_written, keys_written] at hkeys
  obtain rfl := Subtype.ext hkeys
  refine ⟨rfl, fun k hk => ?_⟩
  have hmem := order.2.mem_iff.mpr hk
  have hlookup := congrArg (List.lookup k) hentries
  rw [lookup_written hmem, lookup_written hmem] at hlookup
  exact Option.some.inj hlookup

theorem json_written {order : Order names} {field : String → Value} (hn : names.Nodup)
    (hf : ∀ k ∈ names, Json (field k)) : Json (written order field) := by
  refine .obj ?_ fun f hmem => ?_
  · rw [keys_written]
    exact order.2.nodup_iff.mpr hn
  · obtain ⟨k, hk, rfl⟩ := List.mem_map.mp hmem
    exact hf k (order.2.mem_iff.mp hk)

/-- Two values of JSON data with one text are one value. -/
theorem stringify_inj {v w : Value} (hv : Json v) (hw : Json w) (h : stringify v = stringify w) :
    v = w := by
  have hparse := parse_stringify hv
  rw [h, parse_stringify hw] at hparse
  exact (Option.some.inj hparse).symm

/-- Two objects that are the same data have the same data under each key. -/
theorem lookup_of_same {fs gs : List (String × Value)} (hf : (fs.map Prod.fst).Nodup)
    (h : Same (.obj fs) (.obj gs)) (k : String) :
    (fs.lookup k).map canonical = (gs.lookup k).map canonical := by
  have hsort : sortFields (canonicalFields fs) = sortFields (canonicalFields gs) := by
    simpa only [Same, canonical, Value.obj.injEq] using h
  have hp : (canonicalFields fs).Perm (canonicalFields gs) :=
    calc (canonicalFields fs).Perm (sortFields (canonicalFields fs)) := (perm_sortFields _).symm
      _ = sortFields (canonicalFields gs) := hsort
      List.Perm _ (canonicalFields gs) := perm_sortFields _
  rw [← lookup_canonicalFields, ← lookup_canonicalFields]
  exact lookup_perm (by rwa [canonicalFields_keys]) hp k

/-- An object with its keys in order is read as it was written. -/
theorem fields_canonical (hn : names.Nodup) (field : String → Value) :
    ∃ order get, fields names (written (.given names) field).canonical = some (order, get)
      ∧ ∀ k ∈ names, get k = (field k).canonical := by
  have hkeys := keys_written names field
  have hp := perm_sortFields (canonicalFields (names.map fun k => (k, field k)))
  have hperm : ((sortFields (canonicalFields (names.map fun k => (k, field k)))).map Prod.fst).Perm
      names := by
    refine (hp.map Prod.fst).trans ?_
    rw [canonicalFields_keys, hkeys]
  refine ⟨_, _, dif_pos hperm, fun k hk => ?_⟩
  have hnodup : ((canonicalFields (names.map fun k => (k, field k))).map Prod.fst).Nodup := by
    rw [canonicalFields_keys, hkeys]
    exact hn
  have hlookup : (sortFields (canonicalFields (names.map fun k => (k, field k)))).lookup k
      = some (field k).canonical := by
    rw [← lookup_perm hnodup hp.symm, lookup_canonicalFields, lookup_written hk, Option.map_some]
  exact congrArg (Option.getD · .undefined) hlookup

/-- An object is the same data as what is written under its keys. -/
theorem same_written {fs : List (String × Value)} {field : String → Value} (hn : names.Nodup)
    (hperm : (fs.map Prod.fst).Perm names)
    (h : ∀ k ∈ names, Same (field k) ((fs.lookup k).getD .undefined)) :
    Same (written (Order.given names) field) (.obj fs) := by
  have hkeys := keys_written names field
  have hfs := hperm.nodup_iff.mpr hn
  refine same_obj_of_lookup (hkeys.symm ▸ hn) hfs fun k => ?_
  change (List.lookup k (names.map fun k => (k, field k))).map canonical = _
  by_cases hk : k ∈ names
  · obtain ⟨f, hf, rfl⟩ := List.mem_map.mp (hperm.mem_iff.mpr hk)
    have hlookup := (mem_iff_lookup f.1 f.2 hfs).mp hf
    have hfield := h f.1 hk
    rw [hlookup] at hfield
    rw [lookup_written hk, hlookup]
    exact congrArg some hfield
  · rw [lookup_of_notMem (hkeys.symm ▸ hk), lookup_of_notMem fun hmem => hk (hperm.mem_iff.mp hmem)]

/-- Two records that a codec writes have one canonical text exactly when they are one. -/
theorem Codec.same_iff {ε α : Type} (c : Codec ε α) {a b : α} :
    sameJson (c.encode a) (c.encode b) = true ↔ a = b := by
  rw [sameJson_iff (c.json_encode a) (c.json_encode b)]
  constructor
  · exact c.encode_injective
  · intro h
    rw [h]
    exact Same.refl _

/-! ### Records as texts -/

namespace Codec

variable {ε α : Type}

/-- A text of at most `cap` bytes that is exactly what the codec writes for the record it holds. (A
text has no more units than bytes, so the same limit on its length checks nothing more.) -/
def ofText (c : Codec ε α) (cap : Nat) (e : ε) : Value → Except ε α
  | .str raw =>
    if raw.utf8ByteSize ≤ cap then
      match parse raw with
      | some v => match c.decode v with
        | .ok a => if stringify (c.encode a) = raw then .ok a else .error e
        | .error e => .error e
      | none => .error e
    else .error e
  | _ => .error e

/-- Each record has one text. -/
theorem ofText_ok {c : Codec ε α} {cap : Nat} {e : ε} {v : Value} {a : α} :
    c.ofText cap e v = .ok a ↔
    v = .str (stringify (c.encode a)) ∧ (stringify (c.encode a)).utf8ByteSize ≤ cap := by
  constructor
  · intro h
    cases v with
    | str raw =>
      unfold ofText at h
      dsimp only at h
      split at h
      · rename_i hsize
        split at h
        · split at h
          · split at h
            · rename_i heq
              cases h
              exact ⟨congrArg Value.str heq.symm, heq ▸ hsize⟩
            · cases h
          · cases h
        · cases h
      · cases h
    | _ => cases h
  · rintro ⟨rfl, hsize⟩
    simp only [ofText, if_pos hsize, parse_stringify (c.json_encode a), decode_encode_self, if_true]

end Codec

end Js
