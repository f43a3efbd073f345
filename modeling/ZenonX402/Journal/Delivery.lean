/-
# Delivered responses in the settlement journal

What `markDelivered` does with a response: it copies it, sets it in the record of the
payment, checks the record and writes the journal, which checks every record again
(`validateJournal`). The journal is its contents as they were validated when the file
was read; the text of the file has its own fields in the order of a new journal.

A pending record takes a response exactly when the copy of the response and the copy
of the record with it can be made (`validateRecord_delivered`), and a journal with a
record replaced by another valid one of the same payment is valid
(`validateJournalStructure_set`). So a response is recorded if its keys, its nesting and
its size allow it, and there is room for the file (`Holds.recorded`).

Key definitions: `Data`, `validateJournal`, `write`, `delivered`, `markDelivered`.
Key theorems: `validateRecord_delivered`, `validateJournalStructure_set`, `Holds.recorded`.
-/
import ZenonX402.Journal.Copies
import ZenonX402.Lib.JsMap

namespace ZenonX402
namespace Journal

open Js
open Value (Plain height keysAll textSize memberSize unsigned)
open String (utf8Len)

def MAX_TOMBSTONES : Nat := 4096

/-- The contents of a journal. Of schema version 1 it has no tombstones, of version 2 it has. -/
structure Data where
  revision : Nat
  records : JsMap String Value
  tombstones : Option (JsMap String Value)
  checksum : String

namespace Data

variable (data : Data)

def schemaVersion : Nat := if data.tombstones = none then 1 else 2

/-- The fields that the checksum is of. -/
def content : List (String × Value) :=
  [("schemaVersion", .num data.schemaVersion), ("revision", .num data.revision),
    ("records", .obj data.records.entries)]
    ++ (data.tombstones.map fun tombstones => ("tombstones", Value.obj tombstones.entries)).toList

def value : Value := .obj (data.content ++ [("checksum", .str data.checksum)])

/-- The text of the file. -/
def text : List Char := (layoutOf 2).write 0 data.value ++ ['\n']

end Data

structure Configuration where
  maxRecords : Nat
  maxFileBytes : Nat

section

variable (node : Node) (configuration : Configuration)

/-! ### Checking a journal -/

/-- An entry is valid, under its own key, and its identity is new. -/
def checkEntry (valid : Value → Bool) (seen : List Value × List Value) (entry : String × Value) :
    Except JournalError (List Value × List Value) := do
  rejectIf (valid entry.2 = false) .journalCorrupt
  let key ← recordKey (get entry.2 "authorizationKey") (get entry.2 "transactionHash")
  rejectIf (entry.1 ≠ key ∨ seen.1.any (·.strictEq (get entry.2 "authorizationKey"))
    ∨ seen.2.any (·.strictEq (get entry.2 "transactionHash"))) .journalCorrupt
  return (get entry.2 "authorizationKey" :: seen.1, get entry.2 "transactionHash" :: seen.2)

/-- `validateJournalStructure`, whose every failure has one code. -/
def validateJournalStructure (data : Data) : Except JournalError Unit := (do
  rejectIf (9007199254740991 < data.revision ∨ Text.isHash data.checksum = false) JournalError.journalCorrupt
  rejectIf (configuration.maxRecords < data.records.size) .journalCorrupt
  rejectIf (MAX_TOMBSTONES < (data.tombstones.getD .empty).size) .journalCorrupt
  let seen ← data.records.entries.foldlM (checkEntry (validateRecord node)) ([], [])
  let _ ← (data.tombstones.getD .empty).entries.foldlM (checkEntry (validateTombstone node)) seen
  return ()).mapError fun _ => .journalCorrupt

def checksumFor (data : Data) : Except JsonFault String :=
  sha256Hex node.sha (.obj data.content) configuration.maxFileBytes

def validateJournal (data : Data) : Except JournalError Unit := do
  validateJournalStructure node configuration data
  let checksum ← (checksumFor node configuration data).mapError fun _ => JournalError.journalCorrupt
  rejectIf (checksum ≠ data.checksum) .journalCorrupt

/-- The code under which a text that cannot be written is reported. -/
def JsonFault.writeCode : JsonFault → JournalError
  | .jsonSnapshotTooLarge => .journalCapacityExceeded
  | .invalidJsonSnapshot => .journalWriteFailed

/-- What `#write` checks of the contents: the journal with its new checksum, and the text of the
file. -/
def write (data : Data) : Except JournalError (Data × List Char) := do
  validateJournalStructure node configuration data
  let checksum ← (checksumFor node configuration data).mapError JsonFault.writeCode
  let data := { data with checksum := checksum }
  validateJournal node configuration data
  let text ← (stringifyJsonWithoutHooks data.value 2 false configuration.maxFileBytes).mapError
      JsonFault.writeCode
  rejectIf (configuration.maxFileBytes < utf8Len (text ++ ['\n'])) .journalCapacityExceeded
  return (data, text ++ ['\n'])

/-! ### Delivering -/

/-- `record[key] = value` of a key that is there. -/
def setField (record : Value) (key : String) (value : Value) : Value := match record with
  | .obj fs => .obj (JsMap.setEntry key value fs)
  | record => record

/-- `#nextTimestamp`. -/
def nextTimestamp (now : String) (previous : Value) : Value := match previous with
  | .str s => .str (if now < s then s else now)
  | _ => .str now

/-- The record with the response. -/
def delivered (now : String) (record cached : Value) : Value :=
  setField (setField (setField record "deliveryState" (.str "DELIVERED")) "cachedResponse" cached)
  "updatedAt"
    (nextTimestamp now (get record "updatedAt"))

def isPending (record : Value) : Bool :=
  (get record "deliveryState").strictEq (.str "DELIVERY_PENDING")
  && (get record "evidenceState").strictEq (.str "MOMENTUM_INCLUDED")

/-- `canonicalJson(left) === canonicalJson(right)`. -/
def sameResponse (left right : Value) : Except JournalError Bool := do
  let l ← (canonicalJson left MAX_RECORD_BYTES).mapError JsonFault.code
  let r ← (canonicalJson right MAX_RECORD_BYTES).mapError JsonFault.code
  return l == r

/-- `markDelivered` on the contents that were read, with the text of the clock: the record, the
contents and the file that is written, if one is. -/
def markDelivered (now : String) (data : Data)
    (authorizationKey transactionHash cachedResponse : Value) :
    Except JournalError (Value × Data × Option (List Char)) := do
  let cached ← cloneJson cachedResponse MAX_CACHED_RESPONSE_BYTES
  let key ← recordKey authorizationKey transactionHash
  let record ← orReject (data.records.get? key) .journalRecordNotFound
  if (get record "deliveryState").strictEq (.str "DELIVERED") then do
    let same ← sameResponse (get record "cachedResponse") cached
    rejectIf (same = false) .journalDeliveryConflict
    let copy ← cloneJson record MAX_RECORD_BYTES
    return (copy, data, none)
  else do
    rejectIf (isPending record = false) .journalDeliveryNotPending
    rejectIf (validateTimestamp (.str now) = false) .journalClockInvalid
    let record := delivered now record cached
    rejectIf (validateRecord node record = false) .journalRecordInvalid
    let (data, text) ← write node configuration
      { data with records := data.records.set key record, revision := data.revision + 1 }
    let copy ← cloneJson record MAX_RECORD_BYTES
    return (copy, data, some text)

end

/-! ### The record with the response -/

section

variable {node : Node} {record cached : Value} {now : String}

theorem get_setField {fs : List (String × Value)} (key key' : String) (value : Value) :
    get (setField (.obj fs) key value) key' = if key' = key then value else get (.obj fs) key' := by
  show ((JsMap.setEntry key value fs).lookup key').getD .undefined = _
  rw [JsMap.lookup_setEntry]
  split
  · rfl
  · rfl

theorem get_delivered (fs : List (String × Value)) (key : String) :
    get (delivered now (.obj fs) cached) key
    = if key = "updatedAt" then nextTimestamp now (get (.obj fs) "updatedAt")
    else if key = "cachedResponse" then cached
      else if key = "deliveryState" then .str "DELIVERED" else get (.obj fs) key := by
  unfold delivered
  rw [show setField (.obj fs) "deliveryState" (.str "DELIVERED")
    = .obj (JsMap.setEntry "deliveryState" (.str "DELIVERED") fs) from rfl]
  rw [show setField (.obj (JsMap.setEntry "deliveryState" (.str "DELIVERED") fs))
    "cachedResponse" cached
    = .obj (JsMap.setEntry "cachedResponse" cached
      (JsMap.setEntry "deliveryState" (.str "DELIVERED") fs)) from rfl]
  rw [get_setField]
  split
  · rfl
  · rw [show Value.obj (JsMap.setEntry "cachedResponse" cached
      (JsMap.setEntry "deliveryState" (.str "DELIVERED") fs))
      = setField (.obj (JsMap.setEntry "deliveryState" (.str "DELIVERED") fs)) "cachedResponse"
      cached from rfl, get_setField]
    split
    · rfl
    · rw [show Value.obj (JsMap.setEntry "deliveryState" (.str "DELIVERED") fs)
        = setField (.obj fs) "deliveryState" (.str "DELIVERED") from rfl, get_setField]

/-- The fields of the record with the response. -/
def deliveredFields (now : String) (fs : List (String × Value)) (cached : Value) :
    List (String × Value) :=
  JsMap.setEntry "updatedAt" (nextTimestamp now (get (.obj fs) "updatedAt"))
    (JsMap.setEntry "cachedResponse" cached (JsMap.setEntry "deliveryState" (.str "DELIVERED") fs))

theorem delivered_eq (fs : List (String × Value)) :
    delivered now (.obj fs) cached = .obj (deliveredFields now fs cached) := rfl

theorem keys_setEntry {fs : List (String × Value)} {key : String} (h : key ∈ fs.map Prod.fst)
    (value : Value) :
    (JsMap.setEntry key value fs).map Prod.fst = fs.map Prod.fst := by
  rw [JsMap.setEntry_keys, if_pos h]

theorem keys_delivered {fs : List (String × Value)} (h : (fs.map Prod.fst).Perm RECORD_FIELDS) :
    (deliveredFields now fs cached).map Prod.fst = fs.map Prod.fst := by
  have hmem (key : String) (hkey : key ∈ RECORD_FIELDS) : key ∈ fs.map Prod.fst :=
    h.mem_iff.mpr hkey
  have h1 := keys_setEntry (hmem "deliveryState" (by decide)) (.str "DELIVERED")
  have h2 := keys_setEntry (h1 ▸ hmem "cachedResponse" (by decide)) cached
  have h3 := keys_setEntry (h2 ▸ h1 ▸ hmem "updatedAt" (by decide))
    (nextTimestamp now (get (.obj fs) "updatedAt"))
  exact h3.trans (h2.trans h1)

theorem nodup_setEntry {fs : List (String × Value)} (hn : (fs.map Prod.fst).Nodup) (key : String)
    (value : Value) :
    ((JsMap.setEntry key value fs).map Prod.fst).Nodup := (JsMap.set ⟨fs, hn⟩ key value).nodup

/-- What is true of every entry after one was set. -/
theorem forall_setEntry {P : String × Value → Prop} {fs : List (String × Value)} {key : String}
    {value : Value} (hn : (fs.map Prod.fst).Nodup) :
    (∀ f ∈ JsMap.setEntry key value fs, P f) ↔ P (key, value) ∧ ∀ f ∈ fs, f.1 ≠ key → P f := by
  have hkeys := nodup_setEntry hn key value
  have hmem (f : String × Value) : f ∈ JsMap.setEntry key value fs ↔ if f.1 = key then f.2 = value
      else f ∈ fs := by
    rw [← Prod.mk.eta (p := f), Value.mem_iff_lookup f.1 f.2 hkeys, JsMap.lookup_setEntry,
      Value.mem_iff_lookup f.1 f.2 hn]
    split
    · exact ⟨fun h => (Option.some.inj h).symm, fun h => congrArg some h.symm⟩
    · rfl
  constructor
  · intro h
    refine ⟨h _ ((hmem _).mpr (by rw [if_pos rfl])), fun f hf hne => h f ((hmem f).mpr ?_)⟩
    rw [if_neg hne]
    exact hf
  · rintro ⟨hset, hrest⟩ f hf
    rw [hmem] at hf
    by_cases hkey : f.1 = key
    · rw [if_pos hkey] at hf
      rw [← Prod.mk.eta (p := f), hkey, hf]
      exact hset
    · rw [if_neg hkey] at hf
      exact hrest f hf hkey

/-! ### A record takes a response -/

/-- Delivering changes three fields. -/
theorem get_kept (fs : List (String × Value)) (key : String)
    (h : key ≠ "updatedAt" ∧ key ≠ "cachedResponse" ∧ key ≠ "deliveryState") :
    get (delivered now (.obj fs) cached) key = get (.obj fs) key := by
  rw [get_delivered, if_neg h.1, if_neg h.2.1, if_neg h.2.2]

theorem authorizationContent_delivered (fs : List (String × Value)) :
    authorizationContent (delivered now (.obj fs) cached) = authorizationContent (.obj fs) := by
  unfold authorizationContent
  rw [get_kept fs "chainProfile" (by decide), get_kept fs "intentDigest" (by decide),
    get_kept fs "resourceDigest" (by decide), get_kept fs "transactionHash" (by decide)]

theorem validateSignedAccountBlock_delivered (block : Value) (fs : List (String × Value)) :
    validateSignedAccountBlock block (delivered now (.obj fs) cached)
      = validateSignedAccountBlock block (.obj fs) := by
  unfold validateSignedAccountBlock sameChain carriesIntent
  rw [get_kept fs "chainProfile" (by decide), get_kept fs "transactionHash" (by decide),
    get_kept fs "payer" (by decide), get_kept fs "intentDigest" (by decide)]

theorem validateRecordEvidence_delivered (fs : List (String × Value)) :
    validateRecordEvidence (delivered now (.obj fs) cached) = validateRecordEvidence (.obj fs) := by
  unfold validateRecordEvidence
  rw [get_kept fs "evidenceState" (by decide), get_kept fs "momentumEvidence" (by decide)]

theorem validateRecordDelivery_delivered {fs : List (String × Value)}
    (hpending : isPending (.obj fs) = true) :
    validateRecordDelivery (delivered now (.obj fs) cached)
      = clones cached MAX_CACHED_RESPONSE_BYTES := by
  have hevidence : (get (.obj fs) "evidenceState").strictEq (.str "MOMENTUM_INCLUDED") = true :=
    (Bool.and_eq_true_iff.mp hpending).2
  have hstate : get (delivered now (.obj fs) cached) "deliveryState"
      = .str "DELIVERED" := by simp [get_delivered]
  have hcached : get (delivered now (.obj fs) cached) "cachedResponse"
      = cached := by simp [get_delivered]
  unfold validateRecordDelivery
  rw [hstate, hcached, get_kept fs "evidenceState" (by decide), hevidence, Bool.or_true,
    Bool.true_and]
  rfl

/-- The time of a record does not go back. -/
theorem nextTimestamp_valid {previous : Value} (hnow : validateTimestamp (.str now) = true)
    (hprevious : validateTimestamp previous = true) {created : Value}
    (horder : notBefore previous created = true) :
    validateTimestamp (nextTimestamp now previous) = true
      ∧ notBefore (nextTimestamp now previous) created = true := by
  unfold notBefore at horder
  split at horder
  · next s t =>
    simp only [nextTimestamp]
    split
    · exact ⟨hprevious, horder⟩
    · next hlt =>
      have hle : s ≤ now := String.not_lt.mp hlt
      have hst : ¬ s < t := of_decide_eq_true horder
      refine ⟨hnow, decide_eq_true ?_⟩
      exact String.not_lt.mpr ((String.not_lt.mp hst).trans hle)
  · cases horder

theorem exactKeys_delivered {fs : List (String × Value)}
    (h : exactKeys (.obj fs) RECORD_FIELDS = true) :
    exactKeys (delivered now (.obj fs) cached) RECORD_FIELDS = true := by
  have hkeys : (fs.map Prod.fst).Perm RECORD_FIELDS := of_decide_eq_true h
  rw [delivered_eq]
  refine decide_eq_true ?_
  rw [keys_delivered hkeys]
  exact hkeys

/-- A pending record takes exactly the responses that can be copied, alone and within it. -/
theorem validateRecord_delivered {fs : List (String × Value)}
    (hvalid : validateRecord node (.obj fs) = true) (hpending : isPending (.obj fs) = true)
    (hnow : validateTimestamp (.str now) = true) :
    validateRecord node (delivered now (.obj fs) cached) = true ↔
    clones cached MAX_CACHED_RESPONSE_BYTES = true
      ∧ clones (delivered now (.obj fs) cached) MAX_RECORD_BYTES = true := by
  unfold validateRecord at hvalid ⊢
  simp only [Bool.and_eq_true] at hvalid
  obtain ⟨⟨⟨⟨⟨⟨⟨⟨⟨⟨⟨⟨⟨⟨⟨⟨⟨⟨hkeys, h1⟩, h2⟩, h3⟩, h4⟩, h5⟩, h6⟩, h7⟩, h8⟩, h9⟩, h10⟩, h11⟩, h12⟩,
    h13⟩, hupdated⟩, horder⟩, hevidence⟩, _⟩, _⟩ := hvalid
  obtain ⟨htime, hafter⟩ := nextTimestamp_valid hnow hupdated horder
  have hstamp : get (delivered now (.obj fs) cached) "updatedAt"
      = nextTimestamp now (get (.obj fs) "updatedAt") := by
    rw [get_delivered, if_pos rfl]
  have hstate : get (delivered now (.obj fs) cached) "deliveryState"
      = .str "DELIVERED" := by simp [get_delivered]
  have hname : isText (fun s => DELIVERY_STATES.contains s) (.str "DELIVERED") = true := by decide
  rw [validateRecordDelivery_delivered hpending, validateRecordEvidence_delivered,
    validateSignedAccountBlock_delivered, authorizationContent_delivered, hstamp, hstate]
  simp only [get_kept fs "authorizationKey" (by decide), get_kept fs "transactionHash" (by decide),
    get_kept fs "intentDigest" (by decide), get_kept fs "resourceDigest" (by decide),
    get_kept fs "chainProfile" (by decide),
    get_kept fs "resourceIdentity" (by decide), get_kept fs "payer" (by decide),
    get_kept fs "signedAccountBlock" (by decide), get_kept fs "evidenceState" (by decide),
    get_kept fs "createdAt" (by decide), exactKeys_delivered hkeys, h1, h2, h3, h4, h5, h6, h7, h8,
    h9, h10, h11, h13, htime,
    hafter, hevidence, hname, Bool.and_eq_true, Bool.true_and]


/-! ### What the copies ask of a response -/

/-- The deepest a response may nest under its field of a record. -/
def MAX_KEPT_DEPTH : Nat := MAX_JSON_DEPTH - 1

/-- An entry that a copied object may have. -/
def Kept (f : String × Value) : Prop :=
  isKept f.1 = true ∧ Plain f.2 ∧ height f.2 ≤ MAX_KEPT_DEPTH ∧ keysAll isKept f.2 = true

theorem clones_obj {fs : List (String × Value)} (hn : (fs.map Prod.fst).Nodup)
    (maximumBytes : Nat) :
    clones (.obj fs) maximumBytes = true ↔ (∀ f ∈ fs, Kept f) ∧ textSize (.obj fs)
      ≤ maximumBytes := by
  have hdepth (n : Nat) : n + 1 ≤ MAX_JSON_DEPTH ↔ n ≤ MAX_KEPT_DEPTH := Nat.succ_le_succ_iff
  rw [clones_iff, Value.height_obj_le, Value.keysAll_obj]
  constructor
  · rintro ⟨hplain, hheight, hkeys, hbytes⟩
    cases hplain with
    | obj _ hall => exact ⟨fun f hf => ⟨(hkeys f hf).1, hall f hf, (hdepth _).mp (hheight f hf),
        (hkeys f hf).2⟩, hbytes⟩
  · rintro ⟨hall, hbytes⟩
    exact ⟨.obj hn fun f hf => (hall f hf).2.1, fun f hf => (hdepth _).mpr (hall f hf).2.2.1,
      fun f hf => ⟨(hall f hf).1, (hall f hf).2.2.2⟩, hbytes⟩

theorem kept_str {key s : String} (h : isKept key = true) : Kept (key, .str s) :=
  ⟨h, .str s, Nat.zero_le _, rfl⟩

/-- A record with a response is copied if the response is data within the bounds, and the record is
not too long. -/
theorem clones_delivered {fs : List (String × Value)}
    (hfields : (fs.map Prod.fst).Perm RECORD_FIELDS)
    (hclones : clones (.obj fs) MAX_RECORD_BYTES = true) :
    clones (delivered now (.obj fs) cached) MAX_RECORD_BYTES = true ↔
    (Plain cached ∧ height cached ≤ MAX_KEPT_DEPTH
      ∧ keysAll isKept cached = true) ∧ textSize (delivered now (.obj fs) cached)
      ≤ MAX_RECORD_BYTES := by
  have hn : (fs.map Prod.fst).Nodup := hfields.nodup_iff.mpr (by decide)
  have hn' : ((deliveredFields now fs cached).map Prod.fst).Nodup := by rwa [keys_delivered hfields]
  have hall := ((clones_obj hn _).mp hclones).1
  have htime : Kept ("updatedAt", nextTimestamp now (get (.obj fs) "updatedAt")) := by
    unfold nextTimestamp
    split
    · exact kept_str (by decide)
    · exact kept_str (by decide)
  rw [delivered_eq, clones_obj hn', deliveredFields]
  refine and_congr ?_ Iff.rfl
  rw [forall_setEntry (nodup_setEntry (nodup_setEntry hn _ _) _ _),
    forall_setEntry (nodup_setEntry hn _ _), forall_setEntry hn]
  constructor
  · rintro ⟨_, hcached, _⟩
    exact (hcached (show "cachedResponse" ≠ "updatedAt" by decide)).2
  · intro hcached
    exact ⟨htime, fun _ => ⟨show isKept "cachedResponse" = true by decide, hcached⟩,
      fun _ _ => kept_str (by decide), fun f hf _ _ _ => hall f hf⟩

/-! ### A journal with one record replaced -/

theorem checkEntry_congr {valid : Value → Bool} {key : String} {old new : Value}
    (hvalid : valid new = valid old)
    (hauthorization : get new "authorizationKey" = get old "authorizationKey")
    (htransaction : get new "transactionHash" = get old "transactionHash")
    (seen : List Value × List Value) :
    checkEntry valid seen (key, new) = checkEntry valid seen (key, old) := by
  unfold checkEntry
  rw [hvalid, hauthorization, htransaction]

/-- What is seen of the entries does not change with one that is as valid and of the same payment.
-/
theorem foldlM_setEntry {valid : Value → Bool} {key : String} {old new : Value}
    (hvalid : valid new = valid old)
    (hauthorization : get new "authorizationKey" = get old "authorizationKey")
    (htransaction : get new "transactionHash" = get old "transactionHash") :
    ∀ {entries : List (String × Value)} {seen : List Value × List Value},
    entries.lookup key = some old →
      (JsMap.setEntry key new entries).foldlM (checkEntry valid) seen
        = entries.foldlM (checkEntry valid) seen
  | [], _, h => by cases h
  | (key', value) :: entries, seen, h => by
    rw [List.lookup_cons] at h
    unfold JsMap.setEntry
    by_cases hkey : key' = key
    · subst hkey
      rw [beq_self_eq_true] at h
      cases Option.some.inj h
      rw [if_pos rfl, List.foldlM_cons, List.foldlM_cons,
        checkEntry_congr hvalid hauthorization htransaction]
    · rw [if_neg hkey, List.foldlM_cons, List.foldlM_cons]
      have hne : (key == key') = false := by simpa using fun e : key = key' => hkey e.symm
      rw [hne] at h
      exact bind_congr fun seen' => foldlM_setEntry hvalid hauthorization htransaction h

theorem checkEntry_ok {valid : Value → Bool} {seen seen' : List Value × List Value}
    {entry : String × Value} (h : checkEntry valid seen entry = .ok seen') :
    valid entry.2 = true := by
  simp only [checkEntry, bind_ok, rejectIf_ok, Bool.not_eq_false] at h
  exact h.choose_spec.1

theorem foldlM_checkEntry_ok {valid : Value → Bool} :
    ∀ {entries : List (String × Value)} {seen seen' : List Value × List Value},
    entries.foldlM (checkEntry valid) seen = .ok seen' → ∀ entry ∈ entries, valid entry.2 = true
  | [], _, _, _ => List.forall_mem_nil _
  | entry :: entries, seen, seen', h => by
    rw [List.foldlM_cons, bind_ok] at h
    obtain ⟨_, hentry, hentries⟩ := h
    exact List.forall_mem_cons.mpr ⟨checkEntry_ok hentry, foldlM_checkEntry_ok hentries⟩

variable {configuration : Configuration} {data : Data}

/-- What a journal of the right structure is. -/
theorem validateJournalStructure_ok : validateJournalStructure node configuration data = .ok () ↔
    (data.revision ≤ 9007199254740991 ∧ Text.isHash data.checksum = true) ∧ data.records.size
      ≤ configuration.maxRecords
      ∧ (data.tombstones.getD .empty).size ≤ MAX_TOMBSTONES ∧ ∃ seen seen',
        data.records.entries.foldlM (checkEntry (validateRecord node)) ([], []) = .ok seen
          ∧ (data.tombstones.getD .empty).entries.foldlM (checkEntry (validateTombstone node)) seen
          = .ok seen' := by
  unfold validateJournalStructure
  simp only [mapError_ok, bind_ok, rejectIf_ok, not_or, not_lt, Bool.not_eq_false]
  constructor
  · rintro ⟨_, h1, _, h2, _, h3, seen, hseen, seen', hseen', _⟩
    exact ⟨h1, h2, h3, seen, seen', hseen, hseen'⟩
  · rintro ⟨h1, h2, h3, seen, seen', hseen, hseen'⟩
    exact ⟨(), h1, (), h2, (), h3, seen, hseen, seen', hseen', rfl⟩

/-- A record may be replaced by a valid one of the same payment. -/
theorem validateJournalStructure_set {key : String} {old new : Value}
    (h : validateJournalStructure node configuration data = .ok ())
    (hold : data.records.get? key = some old) (hvalid : validateRecord node new = true)
    (hauthorization : get new "authorizationKey" = get old "authorizationKey")
    (htransaction : get new "transactionHash" = get old "transactionHash") {revision : Nat}
    (hrevision : revision ≤ 9007199254740991) :
    validateJournalStructure node configuration
    { data with records := data.records.set key new, revision := revision } = .ok () := by
  obtain ⟨⟨_, hhash⟩, hrecords, htombstones, seen, seen', hseen, hseen'⟩ :=
    validateJournalStructure_ok.mp h
  have hsame : validateRecord node new = validateRecord node old := by
    rw [hvalid, foldlM_checkEntry_ok hseen (key, old) (JsMap.mem_entries_iff.mpr hold)]
  refine validateJournalStructure_ok.mpr ⟨⟨hrevision, hhash⟩, ?_, htombstones, seen,
    seen', ?_, hseen'⟩
  · rw [JsMap.size_set, hold]
    exact hrecords
  · rw [← hseen]
    exact foldlM_setEntry hsame hauthorization htransaction hold

/-! ### Writing -/

theorem validateRecord_clones {record : Value} (h : validateRecord node record = true) :
    clones record MAX_RECORD_BYTES = true := by
  unfold validateRecord at h
  exact (Bool.and_eq_true_iff.mp h).2

theorem validateTombstone_clones {tombstone : Value} (h : validateTombstone node tombstone = true) :
    clones tombstone MAX_RECORD_BYTES = true := by
  unfold validateTombstone at h
  exact (Bool.and_eq_true_iff.mp h).2

/-- Entries that can be copied can be written within a journal. -/
theorem writable_entries {entries : List (String × Value)} (hn : (entries.map Prod.fst).Nodup)
    (h : ∀ entry ∈ entries, clones entry.2 MAX_RECORD_BYTES = true) :
    Writable 1 (.obj entries) := by
  refine .obj (by decide) hn fun entry hentry => ?_
  obtain ⟨hplain, hheight, _⟩ := (clones_iff _ _).mp (h entry hentry)
  exact .of_plain hplain (by omega)

theorem writable_value (h : validateJournalStructure node configuration data = .ok ()) :
    Writable 0 data.value := by
  obtain ⟨⟨hrevision, _⟩, _, _, seen, seen', hseen, hseen'⟩ := validateJournalStructure_ok.mp h
  have hrecords : Writable 1 (.obj data.records.entries) :=
    writable_entries data.records.nodup fun entry hentry =>
    validateRecord_clones (foldlM_checkEntry_ok hseen entry hentry)
  have htombstones : Writable 1 (.obj (data.tombstones.getD .empty).entries) := by
    refine writable_entries (data.tombstones.getD .empty).nodup fun entry hentry => ?_
    exact validateTombstone_clones (foldlM_checkEntry_ok hseen' entry hentry)
  have hversion : data.schemaVersion ≤ 2 := by
    unfold Data.schemaVersion
    split <;> decide
  have hnum (n : Nat) (hn : n ≤ 9007199254740991) : Writable 1 (.num n) :=
    .num (by decide) (by omega)
  cases htomb : data.tombstones with
  | none =>
    refine .obj (by decide) ?_ ?_
    · simp [Data.content, htomb]
    · simp only [Data.content, htomb, Option.map_none, Option.toList_none, List.append_nil,
        List.cons_append, List.nil_append, List.forall_mem_cons]
      exact ⟨hnum _ (by omega), hnum _ hrevision, hrecords, .str (by decide) _,
        List.forall_mem_nil _⟩
  | some tombstones =>
    rw [htomb, Option.getD_some] at htombstones
    refine .obj (by decide) ?_ ?_
    · simp [Data.content, htomb]
    · simp only [Data.content, htomb, Option.map_some, Option.toList_some, List.cons_append,
        List.nil_append, List.forall_mem_cons]
      exact ⟨hnum _ (by omega), hnum _ hrevision, hrecords, htombstones, .str (by decide) _,
        List.forall_mem_nil _⟩

theorem writable_content (h : validateJournalStructure node configuration data = .ok ()) :
    Writable 0 (.obj data.content) := by
  have hvalue := writable_value h
  unfold Data.value at hvalue
  cases hvalue with
  | obj hdepth hn hfs =>
    rw [List.map_append] at hn
    exact .obj hdepth (List.nodup_append.mp hn).1 fun f hf => hfs f (List.mem_append_left _ hf)

/-- The contents with their checksum. -/
def Data.sealed (node : Node) (data : Data) : Data :=
  { data with checksum := node.sha.hex (Js.canonicalJson (.obj data.content)) }

theorem checksumFor_of_fits (h : validateJournalStructure node configuration data = .ok ())
    (hfits : textSize (.obj data.content) ≤ configuration.maxFileBytes) :
    checksumFor node configuration data = .ok (data.sealed node).checksum := by
  have htext := canonicalJson_of_writable (writable_content h) hfits
  show (canonicalJson (.obj data.content) configuration.maxFileBytes).map node.sha.hex = _
  rw [htext]
  rfl

theorem validateJournalStructure_sealed
    (h : validateJournalStructure node configuration data = .ok ()) :
    validateJournalStructure node configuration (data.sealed node) = .ok () := by
  obtain ⟨⟨hrevision, _⟩, hrest⟩ := validateJournalStructure_ok.mp h
  exact validateJournalStructure_ok.mpr ⟨⟨hrevision, node.sha.isHash_hex _⟩, hrest⟩

/-- A journal of the right structure is written, with its checksum, if its file is not too long. -/
theorem write_of_fits (h : validateJournalStructure node configuration data = .ok ())
    (hfits : utf8Len (data.sealed node).text ≤ configuration.maxFileBytes) :
    write node configuration data = .ok (data.sealed node, (data.sealed node).text)
      ∧ validateJournal node configuration (data.sealed node) = .ok () := by
  have hsealed := validateJournalStructure_sealed h
  have hlength : utf8Len ((layoutOf 2).write 0 (data.sealed node).value) + 1
      ≤ configuration.maxFileBytes := by
    rw [Data.text, String.utf8Len_append] at hfits
    exact hfits
  have hvalue : textSize (data.sealed node).value ≤ configuration.maxFileBytes :=
    (Value.textSize_le_layout (layoutOf 2) 0 _).trans (by omega)
  have hcontent : textSize (.obj data.content) ≤ configuration.maxFileBytes :=
    (Value.textSize_obj_append data.content _).trans hvalue
  have hchecksum := checksumFor_of_fits h hcontent
  have hagain : checksumFor node configuration (data.sealed node)
      = .ok (data.sealed node).checksum :=
    checksumFor_of_fits hsealed hcontent
  have hjournal : validateJournal node configuration (data.sealed node) = .ok () := by
    simp only [validateJournal, bind_ok, mapError_ok, rejectIf_ok, not_not]
    exact ⟨(), hsealed, _, hagain, rfl⟩
  have htext := @stringifyJsonWithoutHooks_of_writable (data.sealed node).value 2
    configuration.maxFileBytes
    (writable_value hsealed) (by decide) (by omega) (by omega)
  refine ⟨?_, hjournal⟩
  simp only [write, bind_ok, mapError_ok, rejectIf_ok, not_lt]
  exact ⟨(), h, _, hchecksum, (), hjournal, _, htext, (), hfits, rfl⟩

/-! ### Recording a response -/

/-- A valid journal that holds the record of a payment, still pending. -/
structure Holds (node : Node) (configuration : Configuration) (data : Data)
    (authorizationKey transactionHash : Value) (key : String) (record : Value) : Prop where
  journal : validateJournal node configuration data = .ok ()
  identity : recordKey authorizationKey transactionHash = .ok key
  found : data.records.get? key = some record
  pending : isPending record = true

/-- The contents with a record replaced. -/
def Data.replaced (data : Data) (key : String) (record : Value) : Data :=
  { data with records := data.records.set key record, revision := data.revision + 1 }

/-- There is room for the file with the record, and one more revision. -/
structure Room (node : Node) (configuration : Configuration) (data : Data) (key : String)
    (record : Value) : Prop where
  revision : data.revision < 9007199254740991
  bytes : utf8Len ((data.replaced key record).sealed node).text ≤ configuration.maxFileBytes

variable {authorizationKey transactionHash : Value} {key : String}

/-- A record that is valid is an object of the fields of a record. -/
theorem validateRecord_obj (h : validateRecord node record = true) :
    ∃ fs, record = .obj fs ∧ (fs.map Prod.fst).Perm RECORD_FIELDS := by
  unfold validateRecord at h
  simp only [Bool.and_eq_true] at h
  obtain ⟨⟨⟨⟨⟨⟨⟨⟨⟨⟨⟨⟨⟨⟨⟨⟨⟨⟨hkeys, _⟩, _⟩, _⟩, _⟩, _⟩, _⟩, _⟩, _⟩, _⟩, _⟩, _⟩, _⟩, _⟩, _⟩, _⟩, _⟩,
    _⟩, _⟩ := h
  cases record with
  | obj fs => exact ⟨fs, rfl, of_decide_eq_true hkeys⟩
  | _ => cases hkeys

theorem isPending_not_delivered (h : isPending record = true) :
    (get record "deliveryState").strictEq (.str "DELIVERED") = false := by
  have hstate := Value.strictEq_str.mp (Bool.and_eq_true_iff.mp h).1
  rw [hstate]
  decide

theorem Holds.structure
    (h : Holds node configuration data authorizationKey transactionHash key record) :
    validateJournalStructure node configuration data = .ok () := by
  have hjournal := h.journal
  simp only [validateJournal, bind_ok] at hjournal
  exact hjournal.choose_spec.1

theorem Holds.valid (h : Holds node configuration data authorizationKey
      transactionHash key record) :
    validateRecord node record = true := by
  obtain ⟨_, _, _, seen, _, hseen, _⟩ := validateJournalStructure_ok.mp h.structure
  exact foldlM_checkEntry_ok hseen (key, record) (JsMap.mem_entries_iff.mpr h.found)

/-- A response within the bounds is recorded. -/
theorem Holds.recorded
    (h : Holds node configuration data authorizationKey transactionHash key record)
    (hnow : validateTimestamp (.str now) = true)
    (hcached : clones cached MAX_CACHED_RESPONSE_BYTES = true)
    (hvalid : validateRecord node (delivered now record cached.unsigned) = true)
    (hroom : Room node configuration data key (delivered now record cached.unsigned)) :
    ∃ written, markDelivered node configuration now data authorizationKey transactionHash cached
        = .ok ((delivered now record cached.unsigned).unsigned, written, some written.text)
      ∧ validateJournal node configuration written = .ok ()
      ∧ written.records.get? key = some (delivered now record cached.unsigned) := by
  obtain ⟨fs, rfl, _⟩ := validateRecord_obj h.valid
  have hstructure : validateJournalStructure node configuration
      (data.replaced key (delivered now (.obj fs) cached.unsigned)) = .ok () :=
    validateJournalStructure_set h.structure h.found hvalid
    (get_kept fs "authorizationKey" (by decide))
      (get_kept fs "transactionHash" (by decide)) hroom.revision
  obtain ⟨hwrite, hjournal⟩ := write_of_fits hstructure hroom.bytes
  refine ⟨_, ?_, hjournal, JsMap.get?_set_self ..⟩
  have hstate := isPending_not_delivered h.pending
  simp only [markDelivered, bind_ok, orReject_ok]
  refine ⟨_, cloneJson_of_clones hcached, key, h.identity, .obj fs, h.found, ?_⟩
  rw [if_neg (by rw [hstate]; exact Bool.false_ne_true)]
  simp only [bind_ok, rejectIf_ok, Bool.not_eq_false]
  exact ⟨(), h.pending, (), hnow, (), hvalid, _, hwrite, _,
    cloneJson_of_clones (validateRecord_clones hvalid), rfl⟩

end

end Journal
end ZenonX402
