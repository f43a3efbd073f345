/-
# Cached responses of the resource server

`normalizeCachedResponse` copies what a handler returned, or what the facilitator says
was delivered, within a budget of bytes, members and nodes, and requires the shape of a
JSON response with status 200. What it gives is the value itself, data with no
prototype keys that nests at most `MAX_JSON_DEPTH` levels deep and whose text is as
long as the bytes that were charged (`snapshotJsonValue_ok`). The sign of a zero
decides nothing (`normalizeCachedResponse_unsigned`).

A value is a tree, so the walk never meets an object that it is inside of; a proxy is
the tree that it shows when it is read, which is once.

Key definitions: `snapshotJsonValue`, `normalizeCachedResponse`.
Key theorems: `snapshotJsonValue_ok`, `normalizeCachedResponse_ok`,
`normalizeCachedResponse_unsigned`.
-/
import ZenonX402.Journal.Copies

namespace ZenonX402
namespace Resource

open Js
open Value (Plain height keysAll textSize memberSize unsigned unsignedElements unsignedMembers)
open Journal (isPrototypeKey get exactKeys check_ok)
open String (utf8Len)

def MAX_CACHED_RESPONSE_BYTES : Nat := 64 * 1024

def MAX_CACHED_RESPONSE_MEMBERS : Nat := 4096

def MAX_CACHED_RESPONSE_NODES : Nat := 4096

def MAX_JSON_DEPTH : Nat := 20

/-- Why a response is refused, by the text of the error. -/
inductive ResponseError
  | tooDeep
  | tooLarge
  | invalidNumber
  | invalidValue
  | invalidObject
  | invalidKey
  | invalidCachedResponse
  | cachedResponseTooLarge
  deriving DecidableEq, Repr

/-- What was consumed so far. -/
structure Budget where
  bytes : Nat
  members : Nat
  nodes : Nat
  deriving DecidableEq, Repr

def consumeNode (budget : Budget) : Except ResponseError Budget := do
  rejectIf (MAX_CACHED_RESPONSE_NODES < budget.nodes + 1) .tooLarge
  return { budget with nodes := budget.nodes + 1 }

def consumeMembers (budget : Budget) (amount : Nat) : Except ResponseError Budget := do
  rejectIf (MAX_CACHED_RESPONSE_MEMBERS < budget.members + amount) .tooLarge
  return { budget with members := budget.members + amount }

def consumeBytes (budget : Budget) (amount : Nat) : Except ResponseError Budget := do
  rejectIf (MAX_CACHED_RESPONSE_BYTES < budget.bytes + amount) .tooLarge
  return { budget with bytes := budget.bytes + amount }

def consumeJsonString (budget : Budget) (value : String) : Except ResponseError Budget := do
  rejectIf (MAX_CACHED_RESPONSE_BYTES < budget.bytes + 2 + value.utf8ByteSize) .tooLarge
  consumeBytes budget (textSize (.str value))

/-- The keys of an object, each with a colon. -/
def consumeKeys : Budget → List String → Except ResponseError Budget
  | budget, [] => .ok budget
  | budget, key :: keys => do
    rejectIf (isPrototypeKey key = true) .invalidKey
    let budget ← consumeJsonString budget key
    let budget ← consumeBytes budget 1
    consumeKeys budget keys

mutual

def snapshotJsonValue (budget : Budget) (depth : Nat) :
    Value → Except ResponseError (Value × Budget)
  | .null => do
    rejectIf (MAX_JSON_DEPTH < depth) .tooDeep
    let budget ← consumeNode budget
    let budget ← consumeBytes budget 4
    return (.null, budget)
  | .str s => do
    rejectIf (MAX_JSON_DEPTH < depth) .tooDeep
    let budget ← consumeNode budget
    let budget ← consumeJsonString budget s
    return (.str s, budget)
  | .bool b => do
    rejectIf (MAX_JSON_DEPTH < depth) .tooDeep
    let budget ← consumeNode budget
    let budget ← consumeBytes budget (if b then 4 else 5)
    return (.bool b, budget)
  | .num n => do
    rejectIf (MAX_JSON_DEPTH < depth) .tooDeep
    let budget ← consumeNode budget
    rejectIf (9007199254740991 < n.natAbs) .invalidNumber
    let budget ← consumeBytes budget (textSize (.num n))
    return (.num n, budget)
  | .negZero => do
    rejectIf (MAX_JSON_DEPTH < depth) .tooDeep
    let budget ← consumeNode budget
    let budget ← consumeBytes budget 1
    return (.negZero, budget)
  | .arr xs => do
    rejectIf (MAX_JSON_DEPTH < depth) .tooDeep
    let budget ← consumeNode budget
    let budget ← consumeMembers budget xs.length
    let budget ← consumeBytes budget (2 + (xs.length - 1))
    let (snapshot, budget) ← snapshotElements budget depth xs
    return (.arr snapshot, budget)
  | .obj fs => do
    rejectIf (MAX_JSON_DEPTH < depth) .tooDeep
    let budget ← consumeNode budget
    rejectIf (¬ (fs.map Prod.fst).Nodup) .invalidObject
    let budget ← consumeMembers budget fs.length
    let budget ← consumeBytes budget (2 + (fs.length - 1))
    let budget ← consumeKeys budget (fs.map Prod.fst)
    let (snapshot, budget) ← snapshotMembers budget depth fs
    return (.obj snapshot, budget)
  | .fractional => do
    rejectIf (MAX_JSON_DEPTH < depth) .tooDeep
    let _ ← consumeNode budget
    .error .invalidNumber
  | .undefined | .host => do
    rejectIf (MAX_JSON_DEPTH < depth) .tooDeep
    let _ ← consumeNode budget
    .error .invalidValue

def snapshotElements (budget : Budget) (depth : Nat) :
    List Value → Except ResponseError (List Value × Budget)
  | [] => .ok ([], budget)
  | x :: xs => do
    let (item, budget) ← snapshotJsonValue budget (depth + 1) x
    let (rest, budget) ← snapshotElements budget depth xs
    return (item :: rest, budget)

def snapshotMembers (budget : Budget) (depth : Nat) :
    List (String × Value) → Except ResponseError (List (String × Value) × Budget)
  | [] => .ok ([], budget)
  | (key, x) :: fs => do
    let (item, budget) ← snapshotJsonValue budget (depth + 1) x
    let (rest, budget) ← snapshotMembers budget depth fs
    return ((key, item) :: rest, budget)

end

def cloneBoundedJson (value : Value) : Except ResponseError Value := do
  let (snapshot, _) ← snapshotJsonValue ⟨0, 0, 0⟩ 0 value
  rejectIf (MAX_CACHED_RESPONSE_BYTES < textSize snapshot) .tooLarge
  return snapshot

/-- A JSON response with status 200. -/
def isJsonResponse (snapshot : Value) : Bool :=
  exactKeys snapshot ["status", "headers", "body"] && (get snapshot "status").strictEq (.num 200)
    && exactKeys (get snapshot "headers") ["content-type"]
    && (get (get snapshot "headers") "content-type").strictEq
    (.str "application/json; charset=utf-8")

def normalizeCachedResponse (value : Value) : Except ResponseError Value := do
  let snapshot ← cloneBoundedJson value
  rejectIf (isJsonResponse snapshot = false) .invalidCachedResponse
  rejectIf (MAX_CACHED_RESPONSE_BYTES
    < utf8Len ((Json.Layout.indented 2).write 0 (get snapshot "body")))
    .cachedResponseTooLarge
  return snapshot

/-! ### What was let through -/

theorem consumeNode_ok {budget budget' : Budget} (h : consumeNode budget = .ok budget') :
    budget'.bytes = budget.bytes := by
  simp only [consumeNode, bind_ok, rejectIf_ok] at h
  obtain ⟨_, _, heq⟩ := h
  cases heq
  rfl

theorem consumeMembers_ok {budget budget' : Budget} {amount : Nat}
    (h : consumeMembers budget amount = .ok budget') :
    budget'.bytes = budget.bytes := by
  simp only [consumeMembers, bind_ok, rejectIf_ok] at h
  obtain ⟨_, _, heq⟩ := h
  cases heq
  rfl

theorem consumeBytes_ok {budget budget' : Budget} {amount : Nat}
    (h : consumeBytes budget amount = .ok budget') :
    budget'.bytes = budget.bytes + amount := by
  simp only [consumeBytes, bind_ok, rejectIf_ok] at h
  obtain ⟨_, _, heq⟩ := h
  cases heq
  rfl

theorem consumeJsonString_ok {budget budget' : Budget} {s : String}
    (h : consumeJsonString budget s = .ok budget') :
    budget'.bytes = budget.bytes + textSize (.str s) := by
  simp only [consumeJsonString, bind_ok, rejectIf_ok] at h
  obtain ⟨_, _, h⟩ := h
  exact consumeBytes_ok h

theorem consumeKeys_ok : ∀ {keys : List String} {budget budget' : Budget}, consumeKeys budget keys
    = .ok budget' →
    (∀ key ∈ keys, isPrototypeKey key = false)
      ∧ budget'.bytes = budget.bytes + (keys.map fun key => textSize (.str key) + 1).sum
  | [], budget, budget', h => by
    cases h
    exact ⟨List.forall_mem_nil _, rfl⟩
  | key :: keys, budget, budget', h => by
    simp only [consumeKeys, bind_ok, rejectIf_ok, Bool.not_eq_true] at h
    obtain ⟨_, hkey, b1, hstring, b2, hcolon, hkeys⟩ := h
    obtain ⟨hall, hbytes⟩ := consumeKeys_ok hkeys
    have h1 := consumeJsonString_ok hstring
    have h2 := consumeBytes_ok hcolon
    refine ⟨List.forall_mem_cons.mpr ⟨hkey, hall⟩, ?_⟩
    rw [List.map_cons, List.sum_cons]
    omega

/-- What the walk has found of a value: it is data, of which it charged the text. -/
structure Admits (depth : Nat) (v : Value) : Prop where
  plain : Plain v
  height : depth + height v ≤ MAX_JSON_DEPTH
  keys : keysAll (fun key => !isPrototypeKey key) v = true

theorem sum_members (fs : List (String × Value)) : (fs.map fun f => memberSize f.1 f.2).sum
    = ((fs.map Prod.fst).map fun key => textSize (.str key) + 1).sum
    + (fs.map fun f => textSize f.2).sum + fs.length := by
  induction fs with
  | nil => rfl
  | cons f fs ih =>
    simp only [List.map_cons, List.sum_cons, List.length_cons]
    unfold memberSize at ih ⊢
    omega

mutual

theorem snapshotJsonValue_ok : ∀ (v : Value) {w : Value} {budget budget' : Budget} {depth : Nat},
    snapshotJsonValue budget depth v = .ok (w, budget') →
    w = v ∧ Admits depth v ∧ budget'.bytes = budget.bytes + textSize v
  | .null, w, budget, budget', depth, h => by
    simp only [snapshotJsonValue, bind_ok, rejectIf_ok, not_lt] at h
    obtain ⟨_, hdepth, b1, hnode, b2, hbytes, heq⟩ := h
    obtain ⟨rfl, rfl⟩ := Prod.mk.inj (Except.ok.inj heq)
    have h1 := consumeNode_ok hnode
    have h2 := consumeBytes_ok hbytes
    have htext : textSize .null = 4 := by decide
    exact ⟨rfl, ⟨.null, hdepth, rfl⟩, by omega⟩
  | .str s, w, budget, budget', depth, h => by
    simp only [snapshotJsonValue, bind_ok, rejectIf_ok, not_lt] at h
    obtain ⟨_, hdepth, b1, hnode, b2, hbytes, heq⟩ := h
    obtain ⟨rfl, rfl⟩ := Prod.mk.inj (Except.ok.inj heq)
    have h1 := consumeNode_ok hnode
    have h2 := consumeJsonString_ok hbytes
    exact ⟨rfl, ⟨.str s, hdepth, rfl⟩, by omega⟩
  | .bool b, w, budget, budget', depth, h => by
    simp only [snapshotJsonValue, bind_ok, rejectIf_ok, not_lt] at h
    obtain ⟨_, hdepth, b1, hnode, b2, hbytes, heq⟩ := h
    obtain ⟨rfl, rfl⟩ := Prod.mk.inj (Except.ok.inj heq)
    have h1 := consumeNode_ok hnode
    have h2 := consumeBytes_ok hbytes
    have htext : textSize (.bool b) = if b then 4 else 5 := by cases b <;> decide
    exact ⟨rfl, ⟨.bool b, hdepth, rfl⟩, by omega⟩
  | .num n, w, budget, budget', depth, h => by
    simp only [snapshotJsonValue, bind_ok, rejectIf_ok, not_lt] at h
    obtain ⟨_, hdepth, b1, hnode, _, hn, b2, hbytes, heq⟩ := h
    obtain ⟨rfl, rfl⟩ := Prod.mk.inj (Except.ok.inj heq)
    have h1 := consumeNode_ok hnode
    have h2 := consumeBytes_ok hbytes
    exact ⟨rfl, ⟨.num hn, hdepth, rfl⟩, by omega⟩
  | .negZero, w, budget, budget', depth, h => by
    simp only [snapshotJsonValue, bind_ok, rejectIf_ok, not_lt] at h
    obtain ⟨_, hdepth, b1, hnode, b2, hbytes, heq⟩ := h
    obtain ⟨rfl, rfl⟩ := Prod.mk.inj (Except.ok.inj heq)
    have h1 := consumeNode_ok hnode
    have h2 := consumeBytes_ok hbytes
    have htext : textSize .negZero = 1 := by decide
    exact ⟨rfl, ⟨.negZero, hdepth, rfl⟩, by omega⟩
  | .arr xs, w, budget, budget', depth, h => by
    simp only [snapshotJsonValue, bind_ok, rejectIf_ok, not_lt] at h
    obtain ⟨_, hdepth, b1, hnode, b2, hmembers, b3, hbytes, ⟨snapshot, b4⟩, hsnapshot, heq⟩ := h
    obtain ⟨rfl, rfl⟩ := Prod.mk.inj (Except.ok.inj heq)
    obtain ⟨rfl, hxs, h4⟩ := snapshotElements_ok xs hsnapshot
    have h1 := consumeNode_ok hnode
    have h2 := consumeMembers_ok hmembers
    have h3 := consumeBytes_ok hbytes
    have hsize := Value.textSize_arr_eq snapshot
    have hsum := Journal.sum_elements snapshot
    have hcharged : b4.bytes = budget.bytes + textSize (.arr snapshot) := by omega
    refine ⟨rfl, ⟨.arr fun x hx => (hxs x hx).plain, ?_, ?_⟩, hcharged⟩
    · exact (Value.add_height_arr_le hdepth).mpr fun x hx => (hxs x hx).height
    · exact Value.keysAll_arr.mpr fun x hx => (hxs x hx).keys
  | .obj fs, w, budget, budget', depth, h => by
    simp only [snapshotJsonValue, bind_ok, rejectIf_ok, not_lt, not_not] at h
    obtain ⟨_, hdepth, b1, hnode, _, hnodup, b2, hmembers, b3, hbytes, b4, hkeys, ⟨snapshot, b5⟩,
      hsnapshot, heq⟩ := h
    obtain ⟨rfl, rfl⟩ := Prod.mk.inj (Except.ok.inj heq)
    obtain ⟨rfl, hfs, h5⟩ := snapshotMembers_ok fs hsnapshot
    obtain ⟨hall, h4⟩ := consumeKeys_ok hkeys
    have h1 := consumeNode_ok hnode
    have h2 := consumeMembers_ok hmembers
    have h3 := consumeBytes_ok hbytes
    have hsize := Value.textSize_obj_eq snapshot
    have hsum := sum_members snapshot
    have hcharged : b5.bytes = budget.bytes + textSize (.obj snapshot) := by omega
    refine ⟨rfl, ⟨.obj hnodup fun f hf => (hfs f hf).plain, ?_, ?_⟩, hcharged⟩
    · exact (Value.add_height_obj_le hdepth).mpr fun f hf => (hfs f hf).height
    · refine Value.keysAll_obj.mpr fun f hf => ⟨?_, (hfs f hf).keys⟩
      rw [hall f.1 (List.mem_map_of_mem hf)]
      rfl
  | .fractional, _, _, _, _, h | .undefined, _, _, _, _, h | .host, _, _, _, _, h => by
    simp only [snapshotJsonValue, bind_ok] at h
    obtain ⟨_, _, _, _, h⟩ := h
    cases h

theorem snapshotElements_ok :
    ∀ (xs : List Value) {ys : List Value} {budget budget' : Budget} {depth : Nat},
    snapshotElements budget depth xs = .ok (ys, budget') →
    ys = xs ∧ (∀ x ∈ xs, Admits (depth + 1) x) ∧ budget'.bytes
      = budget.bytes + (xs.map textSize).sum
  | [], ys, budget, budget', depth, h => by
    cases h
    exact ⟨rfl, List.forall_mem_nil _, rfl⟩
  | x :: xs, ys, budget, budget', depth, h => by
    simp only [snapshotElements, bind_ok] at h
    obtain ⟨⟨item, b1⟩, hitem, ⟨rest, b2⟩, hrest, heq⟩ := h
    obtain ⟨rfl, rfl⟩ := Prod.mk.inj (Except.ok.inj heq)
    obtain ⟨rfl, hx, h1⟩ := snapshotJsonValue_ok x hitem
    obtain ⟨rfl, hxs, h2⟩ := snapshotElements_ok xs hrest
    refine ⟨rfl, List.forall_mem_cons.mpr ⟨hx, hxs⟩, ?_⟩
    simp only [List.map_cons, List.sum_cons] at h1 h2 ⊢
    omega

theorem snapshotMembers_ok : ∀ (fs : List (String × Value)) {gs : List (String × Value)}
    {budget budget' : Budget} {depth : Nat}, snapshotMembers budget depth fs = .ok (gs, budget') →
    gs = fs ∧ (∀ f ∈ fs, Admits (depth + 1) f.2) ∧ budget'.bytes
      = budget.bytes + (fs.map fun f => textSize f.2).sum
  | [], gs, budget, budget', depth, h => by
    cases h
    exact ⟨rfl, List.forall_mem_nil _, rfl⟩
  | (key, x) :: fs, gs, budget, budget', depth, h => by
    simp only [snapshotMembers, bind_ok] at h
    obtain ⟨⟨item, b1⟩, hitem, ⟨rest, b2⟩, hrest, heq⟩ := h
    obtain ⟨rfl, rfl⟩ := Prod.mk.inj (Except.ok.inj heq)
    obtain ⟨rfl, hx, h1⟩ := snapshotJsonValue_ok x hitem
    obtain ⟨rfl, hfs, h2⟩ := snapshotMembers_ok fs hrest
    refine ⟨rfl, List.forall_mem_cons.mpr ⟨hx, hfs⟩, ?_⟩
    simp only [List.map_cons, List.sum_cons] at h1 h2 ⊢
    omega

end

/-- A response that was let through is the value itself. -/
theorem normalizeCachedResponse_ok {v w : Value} (h : normalizeCachedResponse v = .ok w) :
    w = v ∧ Admits 0 v ∧ textSize v ≤ MAX_CACHED_RESPONSE_BYTES ∧ isJsonResponse v = true := by
  simp only [normalizeCachedResponse, cloneBoundedJson, bind_ok, rejectIf_ok, not_lt,
    Bool.not_eq_false] at h
  obtain ⟨_, ⟨⟨snapshot, budget⟩, hsnapshot, _, hsize, heq⟩, _, hshape, _, _, heq'⟩ := h
  cases heq
  cases heq'
  obtain ⟨rfl, hadmits, _⟩ := snapshotJsonValue_ok v hsnapshot
  exact ⟨rfl, hadmits, hsize, hshape⟩

/-! ### The sign of zero -/

mutual

/-- What was let through is let through with its zeros positive. -/
theorem snapshotJsonValue_unsigned :
    ∀ (v : Value) {w : Value} {budget budget' : Budget} {depth : Nat},
    snapshotJsonValue budget depth v = .ok (w, budget') →
    snapshotJsonValue budget depth v.unsigned = .ok (unsigned w, budget')
  | .arr xs, w, budget, budget', depth, h => by
    simp only [snapshotJsonValue, bind_ok] at h
    obtain ⟨_, hdepth, b1, hnode, b2, hmembers, b3, hbytes, ⟨snapshot, b4⟩, hsnapshot, heq⟩ := h
    obtain ⟨rfl, rfl⟩ := Prod.mk.inj (Except.ok.inj heq)
    have hlength : (unsignedElements xs).length = xs.length := by
      rw [Value.unsignedElements_eq_map, List.length_map]
    simp only [unsigned, snapshotJsonValue, bind_ok, hlength]
    exact ⟨(), hdepth, b1, hnode, b2, hmembers, b3, hbytes, _,
      snapshotElements_unsigned xs hsnapshot, rfl⟩
  | .obj fs, w, budget, budget', depth, h => by
    simp only [snapshotJsonValue, bind_ok] at h
    obtain ⟨_, hdepth, b1, hnode, _, hnodup, b2, hmembers, b3, hbytes, b4, hkeys, ⟨snapshot, b5⟩,
      hsnapshot, heq⟩ := h
    obtain ⟨rfl, rfl⟩ := Prod.mk.inj (Except.ok.inj heq)
    have hlength : (unsignedMembers fs).length = fs.length := by
      rw [Value.unsignedMembers_eq_map, List.length_map]
    simp only [unsigned, snapshotJsonValue, bind_ok, hlength, Value.unsignedMembers_keys]
    exact ⟨(), hdepth, b1, hnode, (), hnodup, b2, hmembers, b3, hbytes, b4, hkeys, _,
      snapshotMembers_unsigned fs hsnapshot, rfl⟩
  | .negZero, w, budget, budget', depth, h => by
    simp only [snapshotJsonValue, bind_ok] at h
    obtain ⟨_, hdepth, b1, hnode, b2, hbytes, heq⟩ := h
    obtain ⟨rfl, rfl⟩ := Prod.mk.inj (Except.ok.inj heq)
    have htext : textSize (.num 0) = 1 := by decide
    simp only [unsigned, snapshotJsonValue, bind_ok, htext]
    exact ⟨(), hdepth, b1, hnode, (), rfl, b2, hbytes, rfl⟩
  | .num n, w, budget, budget', depth, h => by
    rw [unsigned, h, (snapshotJsonValue_ok _ h).1, unsigned]
  | .str s, w, budget, budget', depth, h => by
    rw [unsigned, h, (snapshotJsonValue_ok _ h).1, unsigned]
  | .bool b, w, budget, budget', depth, h => by
    rw [unsigned, h, (snapshotJsonValue_ok _ h).1, unsigned]
  | .null, w, budget, budget', depth, h => by
    rw [unsigned, h, (snapshotJsonValue_ok _ h).1, unsigned]
  | .fractional, _, _, _, _, h | .undefined, _, _, _, _, h | .host, _, _, _, _, h => by
    simp only [snapshotJsonValue, bind_ok] at h
    obtain ⟨_, _, _, _, h⟩ := h
    cases h

theorem snapshotElements_unsigned :
    ∀ (xs : List Value) {ys : List Value} {budget budget' : Budget} {depth : Nat},
    snapshotElements budget depth xs = .ok (ys, budget') →
    snapshotElements budget depth (unsignedElements xs) = .ok (unsignedElements ys, budget')
  | [], ys, budget, budget', depth, h => by
    cases h
    rfl
  | x :: xs, ys, budget, budget', depth, h => by
    simp only [snapshotElements, bind_ok] at h
    obtain ⟨⟨item, b1⟩, hitem, ⟨rest, b2⟩, hrest, heq⟩ := h
    obtain ⟨rfl, rfl⟩ := Prod.mk.inj (Except.ok.inj heq)
    simp only [unsignedElements, snapshotElements, bind_ok]
    exact ⟨_, snapshotJsonValue_unsigned x hitem, _, snapshotElements_unsigned xs hrest, rfl⟩

theorem snapshotMembers_unsigned : ∀ (fs : List (String × Value)) {gs : List (String × Value)}
    {budget budget' : Budget} {depth : Nat}, snapshotMembers budget depth fs = .ok (gs, budget') →
    snapshotMembers budget depth (unsignedMembers fs) = .ok (unsignedMembers gs, budget')
  | [], gs, budget, budget', depth, h => by
    cases h
    rfl
  | (key, x) :: fs, gs, budget, budget', depth, h => by
    simp only [snapshotMembers, bind_ok] at h
    obtain ⟨⟨item, b1⟩, hitem, ⟨rest, b2⟩, hrest, heq⟩ := h
    obtain ⟨rfl, rfl⟩ := Prod.mk.inj (Except.ok.inj heq)
    simp only [unsignedMembers, snapshotMembers, bind_ok]
    exact ⟨_, snapshotJsonValue_unsigned x hitem, _, snapshotMembers_unsigned fs hrest, rfl⟩

end

theorem isJsonResponse_unsigned (v : Value) : isJsonResponse v.unsigned = isJsonResponse v := by
  have hstatus (x : Value) : x.unsigned.strictEq (.num 200) = x.strictEq (.num 200) :=
    Journal.strictEq_unsigned_left x (by rw [unsigned])
  have htype (x : Value) : x.unsigned.strictEq (.str "application/json; charset=utf-8")
      = x.strictEq (.str "application/json; charset=utf-8") :=
        Journal.strictEq_unsigned_left x (by rw [unsigned])
  simp only [isJsonResponse, Journal.get_unsigned, Journal.exactKeys_unsigned, hstatus, htype]

/-- A response that was let through is let through with its zeros positive, as the journal keeps it.
-/
theorem normalizeCachedResponse_unsigned {v w : Value} (h : normalizeCachedResponse v = .ok w) :
    normalizeCachedResponse v.unsigned = .ok w.unsigned := by
  simp only [normalizeCachedResponse, cloneBoundedJson, bind_ok] at h ⊢
  obtain ⟨_, ⟨⟨snapshot, budget⟩, hsnapshot, _, hsize, heq⟩, _, hshape, _, hbody, heq'⟩ := h
  cases heq
  cases heq'
  refine ⟨_, ⟨_, snapshotJsonValue_unsigned v hsnapshot, (), ?_, rfl⟩, (), ?_, (), ?_, rfl⟩
  · rw [Value.textSize_unsigned]
    exact hsize
  · rw [isJsonResponse_unsigned]
    exact hshape
  · rw [Journal.get_unsigned, Json.Layout.write_unsigned]
    exact hbody

end Resource
end ZenonX402
