/-
# Records read from untrusted values

A reader of untrusted input captures an object by its exact keys, checks each
field, and keeps a normalized record; a writer gives the record back as an
object. A `Codec` is the two together with the laws that make the pair worth
having: what was written reads back as the same record, also after its keys
were put in order (`decode_encode`), what is read is written back as the
same data (`same_of_decode`), and only JSON data is written (`json_encode`).
The laws compose: `Fields` builds the fields of an object one at a time,
`object` closes them, and `list`, `nullable`, `refine` and `equiv` build on a
codec, so a record's two round trips come with the list of its fields.

Key definitions: `Codec`, `Fields`, `object`.
Key theorems: the law fields of `object` and of `list`; `decode_canonical`.
-/
import ZenonX402.Lib.Value
import Mathlib.Logic.Equiv.Defs

namespace Js

open Value

/-- A value as it was built, or with its keys in order. -/
def view (sorted : Bool) (v : Value) : Value := if sorted then v.canonical else v

/-- A reader and a writer of one kind of value. The reader fails with an
error of the program that uses it. -/
structure Codec (ε α : Type) where
  decode : Value → Except ε α
  encode : α → Value
  decode_encode : ∀ sorted a, decode (view sorted (encode a)) = .ok a
  same_of_decode : ∀ v a, decode v = .ok a → Same (encode a) v
  json_encode : ∀ a, Json (encode a)

namespace Codec

variable {ε α β : Type}

@[simp] theorem decode_encode_self (c : Codec ε α) (a : α) : c.decode (c.encode a) = .ok a :=
  c.decode_encode false a

/-- Reading does not depend on the order the keys were written in. -/
@[simp] theorem decode_canonical (c : Codec ε α) (a : α) :
    c.decode (c.encode a).canonical = .ok a :=
  c.decode_encode true a

theorem encode_injective (c : Codec ε α) {a b : α} (h : Same (c.encode a) (c.encode b)) :
    a = b := by
  have ha := c.decode_canonical a
  rw [show (c.encode a).canonical = (c.encode b).canonical from h, c.decode_canonical b] at ha
  exact (Except.ok.inj ha).symm

/-! ### Single values -/

/-- The constant string `s`, compared with `===`. -/
def constStr (s : String) (e : ε) : Codec ε Unit where
  decode v := if v.strictEq (.str s) then .ok () else .error e
  encode _ := .str s
  decode_encode sorted _ := by cases sorted <;> simp [view, canonical, strictEq]
  same_of_decode v _ h := by
    split at h
    · rename_i hv
      rw [strictEq_str.mp hv]; exact Same.refl _
    · cases h
  json_encode _ := .str s

/-- The constant positive number `n`, compared with `===`. -/
def constNum (n : Nat) (e : ε)
    (hn : decide (0 < n ∧ n ≤ 9007199254740991) = true := by exact Eq.refl true) :
    Codec ε Unit where
  decode v := if v.strictEq (.num n) then .ok () else .error e
  encode _ := .num n
  decode_encode sorted _ := by cases sorted <;> simp [view, canonical, strictEq]
  same_of_decode v _ h := by
    split at h
    · rename_i hv
      cases v <;> simp only [strictEq, Bool.false_eq_true, beq_iff_eq] at hv
      · rw [hv]; exact Same.refl _
      · have hpos := (of_decide_eq_true hn).1
        omega
    · cases h
  json_encode _ := .num (by have := (of_decide_eq_true hn).2; omega)

/-- The constant `b`, compared with `===`. -/
def constBool (b : Bool) (e : ε) : Codec ε Unit where
  decode v := if v.strictEq (.bool b) then .ok () else .error e
  encode _ := .bool b
  decode_encode sorted _ := by cases sorted <;> simp [view, canonical, strictEq]
  same_of_decode v _ h := by
    split at h
    · rename_i hv
      rw [strictEq_bool.mp hv]; exact Same.refl _
    · cases h
  json_encode _ := .bool b

/-- The constant `null`. -/
def constNull (e : ε) : Codec ε Unit where
  decode v := if v.strictEq .null then .ok () else .error e
  encode _ := .null
  decode_encode sorted _ := by cases sorted <;> simp [view, canonical, strictEq]
  same_of_decode v _ h := by
    split at h
    · rename_i hv
      rw [strictEq_null.mp hv]; exact Same.refl _
    · cases h
  json_encode _ := .null

/-- A count of at most `max`; −0 is none. -/
def count (max : Nat) (e : ε) (hmax : max ≤ 9007199254740991 := by decide) :
    Codec ε {n : Nat // n ≤ max} where
  decode
    | .num n => if h : 0 ≤ n ∧ n.toNat ≤ max then .ok ⟨n.toNat, h.2⟩ else .error e
    | _ => .error e
  encode n := .num n.1
  decode_encode sorted n := by
    obtain ⟨n, h⟩ := n
    cases sorted <;> simp [view, canonical, h]
  same_of_decode v a h := by
    cases v <;> simp only [reduceCtorEq] at h
    split at h
    · rename_i hn
      cases h
      simp only [Int.toNat_of_nonneg hn.1]
      exact Same.refl _
    · cases h
  json_encode n := .num (by have := n.2; omega)

/-- A string for which `p` holds. -/
def text (p : String → Bool) (e : ε) : Codec ε {s : String // p s = true} where
  decode
    | .str s => if h : p s = true then .ok ⟨s, h⟩ else .error e
    | _ => .error e
  encode s := .str s.1
  decode_encode sorted s := by
    obtain ⟨s, h⟩ := s
    cases sorted <;> simp [view, canonical, h]
  same_of_decode v a h := by
    cases v <;> simp only [reduceCtorEq] at h
    split at h
    · cases h; exact Same.refl _
    · cases h
  json_encode s := .str s.1

/-- Any string. -/
def string (e : ε) : Codec ε String where
  decode
    | .str s => .ok s
    | _ => .error e
  encode s := .str s
  decode_encode sorted s := by cases sorted <;> simp [view, canonical]
  same_of_decode v a h := by
    cases v <;> simp only [reduceCtorEq] at h
    cases h
    exact Same.refl _
  json_encode s := .str s

/-- The value inside `depth` arrays of one element each. -/
def wrap : Nat → Value → Value
  | 0, v => v
  | depth + 1, v => .arr [wrap depth v]

/-- The string inside arrays of one element each, and how many there are. -/
def unwrap : Value → Option (Nat × String)
  | .str s => some (0, s)
  | .arr [v] => (unwrap v).map fun ds => (ds.1 + 1, ds.2)
  | _ => none

theorem unwrap_wrap (depth : Nat) (s : String) :
    unwrap (wrap depth (.str s)) = some (depth, s) := by
  induction depth with
  | zero => simp [wrap, unwrap]
  | succ depth ih => simp [wrap, unwrap, ih]

theorem wrap_of_unwrap : ∀ (v : Value) (depth : Nat) (s : String), unwrap v = some (depth, s) →
    v = wrap depth (.str s)
  | .str t, depth, s, h => by
    simp only [unwrap, Option.some.injEq, Prod.mk.injEq] at h
    obtain ⟨rfl, rfl⟩ := h
    rfl
  | .arr [v], depth, s, h => by
    simp only [unwrap, Option.map_eq_some_iff, Prod.mk.injEq] at h
    obtain ⟨⟨d, t⟩, hv, rfl, rfl⟩ := h
    rw [wrap, ← wrap_of_unwrap v d t hv]
  | .arr [], _, _, h | .arr (_ :: _ :: _), _, _, h | .undefined, _, _, h | .null, _, _, h
  | .bool _, _, _, h | .num _, _, _, h | .negZero, _, _, h | .fractional, _, _, h | .obj _, _, _, h
  | .host, _, _, h => by simp [unwrap] at h

theorem canonical_wrap (depth : Nat) (s : String) :
    (wrap depth (.str s)).canonical = wrap depth (.str s) := by
  induction depth with
  | zero => rfl
  | succ depth ih => simp only [wrap, canonical, canonicalList, ih]

theorem json_wrap (depth : Nat) (s : String) : Json (wrap depth (.str s)) := by
  induction depth with
  | zero => exact .str s
  | succ depth ih => exact .arr fun x hx => List.mem_singleton.mp hx ▸ ih

/-- What passes a regular expression that is applied without a check of the
type: the expression reads the text of the value, and an array of one element
has the text of the element. -/
structure Coerced (p : String → Bool) where
  depth : Nat
  text : String
  accepted : p text = true
  deriving DecidableEq, Repr

/-- `===` between two such values in different places: arrays are never the same. -/
def Coerced.strictEq {p : String → Bool} (a b : Coerced p) : Bool :=
  a.depth == 0 && b.depth == 0 && a.text == b.text

/-- `p.test(value)`, without a check that the value is a string. -/
def coerced (p : String → Bool) (e : ε) : Codec ε (Coerced p) where
  decode v := match unwrap v with
    | some (depth, s) => if h : p s = true then .ok ⟨depth, s, h⟩ else .error e
    | none => .error e
  encode c := wrap c.depth (.str c.text)
  decode_encode sorted c := by
    have hview : view sorted (wrap c.depth (.str c.text)) = wrap c.depth (.str c.text) := by
      cases sorted
      · rfl
      · exact canonical_wrap c.depth c.text
    simp only [hview, unwrap_wrap, c.accepted, dite_true]
  same_of_decode v c h := by
    split at h
    · rename_i depth s hv
      split at h
      · cases h
        rw [wrap_of_unwrap v depth s hv]
        exact Same.refl _
      · cases h
    · cases h
  json_encode c := json_wrap c.depth c.text

/-- A safe integer for which `p` holds; −0 is read as 0. -/
def integer (p : Int → Bool) (e : ε) :
    Codec ε {n : Int // n.natAbs ≤ 9007199254740991 ∧ p n = true} where
  decode v := match safeInteger? v with
    | some n => if h : n.natAbs ≤ 9007199254740991 ∧ p n = true then .ok ⟨n, h⟩ else .error e
    | none => .error e
  encode n := .num n.1
  decode_encode sorted n := by
    obtain ⟨n, h⟩ := n
    cases sorted <;> simp [view, canonical, safeInteger?_num h.1, h]
  same_of_decode v a h := by
    split at h
    · rename_i n hn
      split at h
      · cases h; exact (safeInteger?_some hn).2
      · cases h
    · cases h
  json_encode n := .num n.2.1

theorem integer_error {p : Int → Bool} {e e' : ε} {v : Value}
    (h : (integer p e).decode v = .error e') :
    e' = e := by
  unfold integer at h
  simp only at h
  split at h
  · split at h
    · cases h
    · exact (Except.error.inj h).symm
  · exact (Except.error.inj h).symm

/-- One of the strings of an enumeration. -/
def enum (all : List α) (name : α → String) (e : ε) (complete : ∀ a, a ∈ all)
    (inj : ∀ a b, name a = name b → a = b) : Codec ε α where
  decode
    | .str s => match all.find? (fun a => name a == s) with
      | some a => .ok a
      | none => .error e
    | _ => .error e
  encode a := .str (name a)
  decode_encode sorted a := by
    have hf : all.find? (fun b => name b == name a) = some a := by
      cases hb : all.find? (fun b => name b == name a) with
      | none => exact absurd (List.find?_eq_none.mp hb a (complete a)) (by simp)
      | some b => rw [inj b a (by simpa using List.find?_some hb)]
    cases sorted <;> simp [view, canonical, hf]
  same_of_decode v a h := by
    cases v <;> simp only [reduceCtorEq] at h
    split at h
    · rename_i b hb
      cases h
      rw [show name a = _ from by simpa using List.find?_some hb]
      exact Same.refl _
    · cases h
  json_encode a := .str (name a)

/-! ### Built on a codec -/

/-- `null`, or what `c` writes. -/
def encodeNullable (c : Codec ε α) : Option α → Value
  | none => .null
  | some a => c.encode a

/-- `null` beside the values of `c`, which `c` itself does not read. -/
def nullable (c : Codec ε α) (h : ∀ a, c.decode .null ≠ .ok a) : Codec ε (Option α) where
  decode v := if v.strictEq .null then .ok none else (c.decode v).map some
  encode := encodeNullable c
  decode_encode sorted a := by
    cases a with
    | none => cases sorted <;> rfl
    | some a =>
      have hd := c.decode_encode sorted a
      have hne : ¬ (view sorted (c.encode a)).strictEq .null = true := fun hnull => by
        rw [strictEq_null.mp hnull] at hd
        exact h a hd
      simp only [encodeNullable, if_neg hne, hd, Except.map]
  same_of_decode v a hv := by
    split at hv
    · rename_i hnull
      cases hv
      rw [strictEq_null.mp hnull]
      exact Same.refl _
    · cases hc : c.decode v with
      | error e => rw [hc] at hv; cases hv
      | ok b => rw [hc] at hv; cases hv; exact c.same_of_decode v b hc
  json_encode
    | none => .null
    | some a => c.json_encode a

/-- Read the elements of a list in order; the first failure is the list's. -/
def decodeAll (c : Codec ε α) : List Value → Except ε (List α)
  | [] => .ok []
  | v :: vs => do
    let a ← c.decode v
    let as ← decodeAll c vs
    return a :: as

theorem decodeAll_encode (c : Codec ε α) (sorted : Bool) : ∀ as : List α,
    decodeAll c (as.map fun a => view sorted (c.encode a)) = .ok as
  | [] => rfl
  | a :: as => by
    simp only [List.map_cons, decodeAll, c.decode_encode, decodeAll_encode c sorted as]
    rfl

theorem same_of_decodeAll (c : Codec ε α) : ∀ (vs : List Value) (as : List α),
    decodeAll c vs = .ok as → List.Forall₂ Same (as.map c.encode) vs
  | [], as, h => by cases h; exact .nil
  | v :: vs, as, h => by
    simp only [decodeAll] at h
    cases hv : c.decode v with
    | error e => rw [hv] at h; cases h
    | ok a =>
      cases hvs : decodeAll c vs with
      | error e => rw [hv, hvs] at h; cases h
      | ok as' =>
        rw [hv, hvs] at h
        cases h
        exact .cons (c.same_of_decode v a hv) (same_of_decodeAll c vs as' hvs)

theorem decodeAll_iff (c : Codec ε α) : ∀ {vs : List Value} {as : List α},
    decodeAll c vs = .ok as ↔ List.Forall₂ (fun v a => c.decode v = .ok a) vs as := by
  intro vs
  induction vs with
  | nil =>
    intro as
    rw [List.forall₂_nil_left_iff]
    simp only [decodeAll, Except.ok.injEq, eq_comm]
  | cons v vs ih =>
    intro as
    rw [List.forall₂_cons_left_iff]
    constructor
    · intro h
      simp only [decodeAll] at h
      cases hv : c.decode v with
      | error e => rw [hv] at h; cases h
      | ok a =>
        cases hvs : decodeAll c vs with
        | error e => rw [hv, hvs] at h; cases h
        | ok as' =>
          rw [hv, hvs] at h
          cases h
          exact ⟨a, as', rfl, ih.mp hvs, rfl⟩
    · rintro ⟨a, as', hv, hvs, rfl⟩
      rw [decodeAll, hv, ih.mpr hvs]
      rfl

/-- In another order the same elements are read. -/
theorem decodeAll_perm (c : Codec ε α) {vs ws : List Value} {as : List α} (hp : vs.Perm ws)
    (h : decodeAll c vs = .ok as) : ∃ bs, decodeAll c ws = .ok bs ∧ as.Perm bs := by
  obtain ⟨bs, hbs, hperm⟩ := List.perm_comp_forall₂ hp.symm (c.decodeAll_iff.mp h)
  exact ⟨bs, c.decodeAll_iff.mpr hbs, hperm.symm⟩

/-- An array of values of `c`. -/
def list (c : Codec ε α) (e : ε) : Codec ε (List α) where
  decode
    | .arr vs => decodeAll c vs
    | _ => .error e
  encode as := .arr (as.map c.encode)
  decode_encode sorted as := by
    have := decodeAll_encode c sorted as
    cases sorted
    · exact this
    · simpa [view, canonical, canonicalList_eq_map, Function.comp_def] using this
  same_of_decode v as h := by
    cases v <;> simp only [reduceCtorEq] at h
    exact same_arr (same_of_decodeAll c _ as h)
  json_encode as := by
    refine .arr fun v hv => ?_
    obtain ⟨a, -, rfl⟩ := List.mem_map.mp hv
    exact c.json_encode a

/-- A value of `c` that also passes the check `p`. -/
def refine (c : Codec ε α) (p : α → Bool) (e : ε) : Codec ε {a : α // p a = true} where
  decode v := do
    let a ← c.decode v
    if h : p a = true then .ok ⟨a, h⟩ else .error e
  encode a := c.encode a.1
  decode_encode sorted a := by
    obtain ⟨a, h⟩ := a
    rw [c.decode_encode]
    simp only [bind, Except.bind, dif_pos h]
  same_of_decode v a h := by
    cases hv : c.decode v with
    | error e => rw [hv] at h; cases h
    | ok b =>
      rw [hv] at h
      simp only [bind, Except.bind] at h
      split at h
      · cases h; exact c.same_of_decode v b hv
      · cases h
  json_encode a := c.json_encode a.1

/-- The same values under another type. -/
def equiv (c : Codec ε α) (f : α ≃ β) : Codec ε β where
  decode v := (c.decode v).map f
  encode b := c.encode (f.symm b)
  decode_encode sorted b := by rw [c.decode_encode]; simp [Except.map]
  same_of_decode v b h := by
    cases hv : c.decode v with
    | error e => rw [hv] at h; cases h
    | ok a =>
      rw [hv] at h
      cases h
      simpa using c.same_of_decode v a hv
  json_encode b := c.json_encode (f.symm b)

/-- The same values with one other error. -/
def withError {ε' : Type} (c : Codec ε α) (e : ε') : Codec ε' α where
  decode v := (c.decode v).mapError fun _ => e
  encode := c.encode
  decode_encode sorted a := by rw [c.decode_encode]; rfl
  same_of_decode v a h := by
    cases hv : c.decode v with
    | error e' => rw [hv] at h; cases h
    | ok b =>
      rw [hv] at h
      cases h
      exact c.same_of_decode v _ hv
  json_encode := c.json_encode

end Codec

/-! ### Objects -/

/-- The fields of an object, read by key and written in order. `required`
are the keys that must be there. -/
structure Fields (ε α : Type) where
  names : List String
  required : List String
  read : (String → Option Value) → Except ε α
  write : α → List (String × Value)
  keys_write : ∀ a, ((write a).map Prod.fst).Sublist names
  required_write : ∀ a, ∀ k ∈ required, k ∈ (write a).map Prod.fst
  read_write : names.Nodup → ∀ sorted a get,
    (∀ k ∈ names, get k = ((write a).lookup k).map (view sorted)) → read get = .ok a
  same_of_read : names.Nodup → ∀ a get, read get = .ok a → (∀ k ∈ required, (get k).isSome) →
    ∀ k ∈ names, (get k).map canonical = ((write a).lookup k).map canonical
  json_write : ∀ a, ∀ f ∈ write a, Json f.2

namespace Fields

variable {ε α β : Type}

theorem lookup_eq_none {fs : List (String × Value)} {names : List String} {k : String}
    (hs : (fs.map Prod.fst).Sublist names) (hk : k ∉ names) : fs.lookup k = none :=
  lookup_of_notMem fun h => hk (hs.subset h)

/-- No fields. -/
def nil : Fields ε Unit where
  names := []
  required := []
  read _ := .ok ()
  write _ := []
  keys_write _ := .slnil
  required_write _ k hk := by cases hk
  read_write _ _ _ _ _ := rfl
  same_of_read _ _ _ _ _ k hk := by cases hk
  json_write _ f hf := by cases hf

/-- A required field in front of the others. -/
def cons (name : String) (c : Codec ε α) (rest : Fields ε β) : Fields ε (α × β) where
  names := name :: rest.names
  required := name :: rest.required
  read get := do
    let a ← c.decode ((get name).getD .undefined)
    let b ← rest.read get
    return (a, b)
  write ab := (name, c.encode ab.1) :: rest.write ab.2
  keys_write ab := (rest.keys_write ab.2).cons_cons name
  required_write ab k hk := by
    rcases List.mem_cons.mp hk with rfl | hk
    · simp
    · exact List.mem_cons_of_mem _ (rest.required_write ab.2 k hk)
  read_write hn sorted ab get h := by
    obtain ⟨hname, hn'⟩ := List.nodup_cons.mp hn
    have ha : get name = some (view sorted (c.encode ab.1)) := by
      rw [h name (List.mem_cons_self ..)]; simp
    have hb : rest.read get = .ok ab.2 := by
      refine rest.read_write hn' sorted ab.2 get fun k hk => ?_
      have hne : (k == name) = false := by
        simpa using fun e : k = name => hname (e ▸ hk)
      rw [h k (List.mem_cons_of_mem _ hk), List.lookup_cons, hne]
    simp only [ha, Option.getD_some, c.decode_encode, hb, bind, Except.bind]
    rfl
  same_of_read hn ab get h hreq k hk := by
    obtain ⟨hname, hn'⟩ := List.nodup_cons.mp hn
    cases hc : c.decode ((get name).getD .undefined) with
    | error e => rw [hc] at h; cases h
    | ok a =>
      cases hr : rest.read get with
      | error e => rw [hc, hr] at h; cases h
      | ok b =>
        rw [hc, hr] at h
        cases h
        have hrest := rest.same_of_read hn' b get hr fun k hk => hreq k (List.mem_cons_of_mem _ hk)
        rw [List.lookup_cons]
        rcases List.mem_cons.mp hk with rfl | hk
        · obtain ⟨v, hv⟩ := Option.isSome_iff_exists.mp (hreq k (List.mem_cons_self ..))
          rw [hv, Option.getD_some] at hc
          simp only [hv, beq_self_eq_true, Option.map_some]
          exact congrArg some (c.same_of_decode v a hc).symm
        · have hne : (k == name) = false := by simpa using fun e : k = name => hname (e ▸ hk)
          rw [hne]
          exact hrest k hk
  json_write ab f hf := by
    rcases List.mem_cons.mp hf with rfl | hf
    · exact c.json_encode ab.1
    · exact rest.json_write ab.2 f hf

/-- A required field whose value is fixed, which the record does not carry. -/
def const (name : String) (c : Codec ε Unit) (rest : Fields ε β) : Fields ε β where
  names := (cons name c rest).names
  required := (cons name c rest).required
  read get := ((cons name c rest).read get).map Prod.snd
  write b := (cons name c rest).write ((), b)
  keys_write b := (cons name c rest).keys_write ((), b)
  required_write b := (cons name c rest).required_write ((), b)
  read_write hn sorted b get h := by
    rw [(cons name c rest).read_write hn sorted ((), b) get h]
    rfl
  same_of_read hn b get h hreq := by
    cases hr : (cons name c rest).read get with
    | error e => rw [hr] at h; cases h
    | ok ub =>
      rw [hr] at h
      cases h
      exact (cons name c rest).same_of_read hn ub get hr hreq
  json_write b := (cons name c rest).json_write ((), b)

/-- A field that may be left out. -/
def optional (name : String) (c : Codec ε α) (rest : Fields ε β) : Fields ε (Option α × β) where
  names := name :: rest.names
  required := rest.required
  read get := do
    let a ← match get name with
      | none => .ok none
      | some v => (c.decode v).map some
    let b ← rest.read get
    return (a, b)
  write
    | (none, b) => rest.write b
    | (some a, b) => (name, c.encode a) :: rest.write b
  keys_write
    | (none, b) => (rest.keys_write b).cons name
    | (some _, b) => (rest.keys_write b).cons_cons name
  required_write
    | (none, b), k, hk => rest.required_write b k hk
    | (some _, b), k, hk => List.mem_cons_of_mem _ (rest.required_write b k hk)
  read_write hn sorted ab get h := by
    obtain ⟨hname, hn'⟩ := List.nodup_cons.mp hn
    obtain ⟨a, b⟩ := ab
    have hb : rest.read get = .ok b := by
      refine rest.read_write hn' sorted b get fun k hk => ?_
      have hne : (k == name) = false := by simpa using fun e : k = name => hname (e ▸ hk)
      rw [h k (List.mem_cons_of_mem _ hk)]
      cases a with
      | none => rfl
      | some a => simp only [List.lookup_cons, hne]
    cases a with
    | none =>
      have ha : get name = none := by
        rw [h name (List.mem_cons_self ..), lookup_eq_none (rest.keys_write b) hname]; rfl
      simp only [ha, hb, bind, Except.bind]
      rfl
    | some a =>
      have ha : get name = some (view sorted (c.encode a)) := by
        rw [h name (List.mem_cons_self ..)]; simp
      simp only [ha, c.decode_encode, Except.map, hb, bind, Except.bind]
      rfl
  same_of_read hn ab get h hreq k hk := by
    obtain ⟨hname, hn'⟩ := List.nodup_cons.mp hn
    cases hr : rest.read get with
    | error e =>
      rw [hr] at h
      simp only [bind, Except.bind] at h
      repeat' split at h
      all_goals cases h
    | ok b =>
      have hrest := rest.same_of_read hn' b get hr hreq
      rw [hr] at h
      cases hg : get name with
      | none =>
        rw [hg] at h
        cases h
        rcases List.mem_cons.mp hk with rfl | hk
        · rw [hg, lookup_eq_none (rest.keys_write b) hname]
        · exact hrest k hk
      | some v =>
        cases hc : c.decode v with
        | error e => rw [hg] at h; simp only [hc, Except.map] at h; cases h
        | ok a =>
          rw [hg] at h
          simp only [hc, Except.map] at h
          cases h
          rw [List.lookup_cons]
          rcases List.mem_cons.mp hk with rfl | hk
          · simp only [hg, beq_self_eq_true, Option.map_some]
            exact congrArg some (c.same_of_decode v a hc).symm
          · have hne : (k == name) = false := by simpa using fun e : k = name => hname (e ▸ hk)
            rw [hne]
            exact hrest k hk
  json_write
    | (none, b), f, hf => rest.json_write b f hf
    | (some a, b), f, hf => by
      rcases List.mem_cons.mp hf with rfl | hf
      · exact c.json_encode a
      · exact rest.json_write b f hf

end Fields

/-- The nested pairs that a list of fields reads. -/
abbrev Fields.Carrier {ε α : Type} (_ : Fields ε α) : Type := α

/-- The keys a list of fields may have: distinct, all known, none missing. -/
def Fields.Shape {ε α : Type} (fs : Fields ε α) (gs : List (String × Value)) : Prop :=
  (gs.map Prod.fst).Nodup ∧ (∀ k ∈ gs.map Prod.fst, k ∈ fs.names) ∧
    ∀ k ∈ fs.required, k ∈ gs.map Prod.fst

instance {ε α : Type} (fs : Fields ε α) (gs : List (String × Value)) : Decidable (fs.Shape gs) :=
  inferInstanceAs (Decidable (_ ∧ _))

theorem Fields.shape_of_perm {ε α : Type} (fs : Fields ε α) (hn : fs.names.Nodup) (a : α)
    {gs : List (String × Value)} (h : (gs.map Prod.fst).Perm ((fs.write a).map Prod.fst)) :
    fs.Shape gs :=
  ⟨h.nodup_iff.mpr (hn.sublist (fs.keys_write a)),
    fun _ hk => (fs.keys_write a).subset (h.mem_iff.mp hk),
    fun k hk => h.mem_iff.mpr (fs.required_write a k hk)⟩

/-- A plain object whose own keys are exactly those of the fields; any other
value fails with `e`. A field list that repeats a key is no object. -/
def object {ε α : Type} (fs : Fields ε α) (e : ε) (hn : fs.names.Nodup := by decide) :
    Codec ε α where
  decode
    | .obj gs => if fs.Shape gs then fs.read fun k => gs.lookup k else .error e
    | _ => .error e
  encode a := .obj (fs.write a)
  decode_encode sorted a := by
    cases sorted
    · simp only [view, Bool.false_eq_true, if_false]
      rw [if_pos (fs.shape_of_perm hn a (List.Perm.refl _))]
      refine fs.read_write hn false a _ fun k _ => ?_
      cases (fs.write a).lookup k <;> rfl
    · have hp := perm_sortFields (canonicalFields (fs.write a))
      have hshape := fs.shape_of_perm hn a
        ((hp.map Prod.fst).trans (by rw [canonicalFields_keys]))
      simp only [view, if_true, canonical]
      rw [if_pos hshape]
      refine fs.read_write hn true a _ fun k _ => ?_
      rw [lookup_perm hshape.1 hp, lookup_canonicalFields]
      rfl
  same_of_decode v a h := by
    cases v with
    | obj gs =>
      simp only at h
      split at h
      · rename_i hk
        obtain ⟨hnd, hall, hreq⟩ := hk
        have hsub := fs.keys_write a
        refine same_obj_of_lookup (hn.sublist hsub) hnd fun k => ?_
        by_cases hkn : k ∈ fs.names
        · refine (fs.same_of_read hn a _ h (fun k hk => ?_) k hkn).symm
          rw [List.lookup_isSome_iff]
          obtain ⟨p, hp, rfl⟩ := List.mem_map.mp (hreq k hk)
          exact ⟨p, hp, by simp⟩
        · rw [Fields.lookup_eq_none hsub hkn, lookup_of_notMem fun h => hkn (hall k h)]
      · cases h
    | _ => cases h
  json_encode a := .obj (hn.sublist (fs.keys_write a)) (fs.json_write a)

end Js
