/-
# Recording what the server lets through

A response that `normalizeCachedResponse` accepts meets the bounds of the journal but
for three: the journal keeps no key that names a secret (`isSecretKey`), it walks the
response one level further down, under the field `cachedResponse` of a record, and a
record has a length of its own. Where the response meets these, `markDelivered` records
it and what is recorded is accepted by the server again, with the same text; a secret
is refused under its own code (`response_recorded`).

Key theorems: `response_recorded`, `not_every_response_recorded`.
-/
import ZenonX402.Journal.Delivery
import ZenonX402.Resource.CachedResponse

namespace ZenonX402
namespace Resource

open Js Journal
open Value (Plain height keysAll textSize unsigned)
open String (utf8Len)

section

variable {node : Node} {configuration : Configuration} {now key : String} {data : Data}
  {authorizationKey transactionHash record response cached : Value}

theorem Admits.height_le (h : Admits 0 cached) : Value.height cached ≤ Journal.MAX_JSON_DEPTH := by
  have hdepth := h.height
  rw [Nat.zero_add] at hdepth
  exact hdepth

/-- An accepted response is copied by the journal if it names no secret. -/
theorem clones_of_admits (h : Admits 0 cached)
    (hsize : textSize cached ≤ Journal.MAX_CACHED_RESPONSE_BYTES)
    (hsecret : keysAll (fun key => !isSecretKey key) cached = true) :
    clones cached Journal.MAX_CACHED_RESPONSE_BYTES = true :=
  (clones_iff _ _).mpr ⟨h.plain, h.height_le,
    (Value.keysAll_and h.plain).mpr ⟨hsecret, h.keys⟩, hsize⟩

/-- The record takes the copy of such a response, if it has a level to spare and the record is not
too long. -/
theorem validateRecord_of_admits (h : Admits 0 cached)
    (hsize : textSize cached ≤ Journal.MAX_CACHED_RESPONSE_BYTES)
    (hsecret : keysAll (fun key => !isSecretKey key) cached = true)
    (hheight : height cached ≤ MAX_KEPT_DEPTH) (hvalid : validateRecord node record = true)
    (hpending : isPending record = true) (hnow : validateTimestamp (.str now) = true)
    (hbytes : textSize (delivered now record cached.unsigned) ≤ MAX_RECORD_BYTES) :
    Journal.validateRecord node (delivered now record cached.unsigned) = true := by
  obtain ⟨fs, rfl, hfields⟩ := validateRecord_obj hvalid
  have hkept : clones cached.unsigned Journal.MAX_CACHED_RESPONSE_BYTES = true := by
    have hclones := (clones_iff _ _).mp (clones_of_admits h hsize hsecret)
    rw [clones_iff, Value.height_unsigned, Value.keysAll_unsigned, Value.textSize_unsigned]
    exact ⟨h.plain.json.plain, hclones.2⟩
  refine (validateRecord_delivered hvalid hpending hnow).mpr ⟨hkept, ?_⟩
  have hparts := (clones_iff _ _).mp hkept
  refine (clones_delivered hfields (validateRecord_clones hvalid)).mpr
    ⟨⟨hparts.1, ?_, hparts.2.2.1⟩, hbytes⟩
  rwa [Value.height_unsigned]

/-- A response with a secret is refused, whatever the journal is. -/
theorem secret_refused (haccepted : normalizeCachedResponse response = .ok cached)
    (hsecret : keysAll (fun key => !isSecretKey key) cached = false) :
    markDelivered node configuration now data authorizationKey transactionHash cached
      = .error .journalSecretFieldForbidden := by
  obtain ⟨rfl, hadmits, hsize, _⟩ := normalizeCachedResponse_ok haccepted
  have hrefused := @cloneJson_secret cached Journal.MAX_CACHED_RESPONSE_BYTES hadmits.plain
    hadmits.height_le hsize
    hadmits.keys hsecret
  rw [markDelivered, hrefused]
  rfl

/-- Every accepted response without a secret is recorded and accepted again, if it leaves a level
and the record its bytes; one with a secret is refused by every journal. -/
theorem response_recorded (haccepted : normalizeCachedResponse response = .ok cached) :
    (∀ key record, Holds node configuration data authorizationKey transactionHash key record →
      validateTimestamp (.str now) = true →
      Room node configuration data key (delivered now record cached.unsigned) →
      keysAll (fun key => !isSecretKey key) cached = true → height cached ≤ MAX_KEPT_DEPTH →
      textSize (delivered now record cached.unsigned) ≤ MAX_RECORD_BYTES →
      ∃ copy written stored,
      markDelivered node configuration now data authorizationKey transactionHash cached
          = .ok (copy, written, some written.text)
        ∧ validateJournal node configuration written = .ok ()
        ∧ written.records.get? key = some stored ∧ validateRecord node stored = true
        ∧ ∃ again, normalizeCachedResponse (Journal.get stored "cachedResponse") = .ok again
          ∧ stringify again = stringify cached)
    ∧ (keysAll (fun key => !isSecretKey key) cached = false →
      markDelivered node configuration now data authorizationKey transactionHash cached
        = .error .journalSecretFieldForbidden) := by
  refine ⟨fun key record hholds hnow hroom hsecret hheight hbytes => ?_, secret_refused haccepted⟩
  obtain ⟨rfl, hadmits, hsize, _⟩ := normalizeCachedResponse_ok haccepted
  have hvalid := validateRecord_of_admits hadmits hsize hsecret hheight hholds.valid
    hholds.pending hnow hbytes
  obtain ⟨written, hdelivered, hjournal, hstored⟩ :=
    hholds.recorded hnow (clones_of_admits hadmits hsize hsecret) hvalid hroom
  obtain ⟨fs, rfl, _⟩ := validateRecord_obj hholds.valid
  have hcached : Journal.get (delivered now (.obj fs) cached.unsigned) "cachedResponse"
      = cached.unsigned := by
    simp [get_delivered]
  refine ⟨_, written, _, hdelivered, hjournal, hstored, hvalid, cached.unsigned, ?_, ?_⟩
  · rw [hcached]
    exact normalizeCachedResponse_unsigned haccepted
  · rw [stringify, stringify, ← layout_compact, ← layout_compact, Json.Layout.write_unsigned]

end

/-! ### A payment on which a response is pending -/

namespace Sample

def digest (c : Char) : String := String.ofList (List.replicate 64 c)

/-- A platform on which every text has one digest. -/
def node : Node where
  sha := ⟨fun _ => digest 'a', fun _ => by decide⟩
  url _ := some ⟨"https:", "example.com", "", ""⟩

def zeroBytes (digits : Nat) : String := String.ofList (List.replicate digits 'A')

def accountBlock : Value :=
  .obj [("version", .num 1), ("chainIdentifier", .num 1), ("blockType", .num 2),
    ("hash", .str (digest 'b')), ("previousHash", .str (digest 'c')), ("height", .num 1),
  ("momentumAcknowledged", .obj [("hash", .str (digest 'c')), ("height", .num 1)]),
  ("address", .str "z1qpayer-of-sample"),
  ("toAddress", .str "z1qpayee-of-sample"), ("amount", .str "1"),
  ("tokenStandard", .str "zts1token-of-sample"),
  ("fromBlockHash", .str (digest '0')), ("data", .str (zeroBytes 43 ++ "=")),
  ("fusedPlasma", .num 0),
  ("difficulty", .num 0), ("nonce", .str "0000000000000000"),
  ("publicKey", .str (zeroBytes 43 ++ "=")),
  ("signature", .str (zeroBytes 86 ++ "=="))]

def record : Value := .obj [("authorizationKey", .str (digest 'a')),
      ("transactionHash", .str (digest 'b')),
      ("chainProfile", .obj [("version", .num 1), ("chainIdentifier", .str "1"),
        ("genesisMomentumHash", .str (digest 'c'))]),
  ("intentDigest", .str (digest '0')),
    ("resourceIdentity", .obj [("url", .str "https://example.com/")]),
  ("resourceDigest", .str (digest 'a')), ("payer", .str "z1qpayer-of-sample"),
    ("signedAccountBlock", accountBlock),
  ("evidenceState", .str "MOMENTUM_INCLUDED"),
  ("momentumEvidence", .obj [("observedAt", .str "2026-01-01T00:00:00.000Z"),
    ("confirmationDetail", .obj [
    ("numConfirmations", .num 1), ("momentumHeight", .num 1), ("momentumHash", .str (digest 'd')),
    ("momentumTimestamp", .num 1)])]),
  ("deliveryState", .str "DELIVERY_PENDING"), ("cachedResponse", .null),
    ("createdAt", .str "2026-01-01T00:00:00.000Z"),
  ("updatedAt", .str "2026-01-01T00:00:00.000Z")]

def key : String := digest 'a' ++ ":" ++ digest 'b'

/-- The response with a body. -/
def response (body : Value) : Value :=
  .obj [("status", .num 200),
    ("headers", .obj [("content-type", .str "application/json; charset=utf-8")]), ("body", body)]

def greeting : Value := response (.obj [("greeting", .str "hello")])

def secret : Value := response (.obj [("seed", .str "hello")])

/-- A journal with the record alone. -/
def data : Data :=
  Data.sealed node
    { revision := 0, records := JsMap.empty.set key record, tombstones := none,
      checksum := digest 'a' }

def now : String := "2026-01-02T00:00:00.000Z"

/-- Room for the journal, and for the journal with a response. -/
def configuration (cached : Value) : Configuration where
  maxRecords := 4
  maxFileBytes := utf8Len data.text
    + utf8Len ((data.replaced key (delivered now record cached.unsigned)).sealed node).text

/-- Short data has the one digest. -/
theorem digestIs_node {fs : List (String × Value)} (hplain : Plain (.obj fs))
    (hheight : height (.obj fs) ≤ Journal.MAX_JSON_DEPTH)
    (hbytes : textSize (.obj fs) ≤ MAX_RECORD_BYTES) :
    digestIs node (.obj fs) (.str (digest 'a')) = true := by
  have htext := canonicalJson_of_writable (Writable.of_plain hplain (by omega)) hbytes
  have hdigest : sha256Hex node.sha (.obj fs) MAX_RECORD_BYTES = .ok (digest 'a') := by
    show (canonicalJson (.obj fs) MAX_RECORD_BYTES).map node.sha.hex = _
    rw [htext]
    rfl
  rw [digestIs, hdigest]
  exact Value.strictEq_str.mpr rfl

theorem plain_record : Plain record := Value.plain_of_isPlain _ (by decide)

theorem clones_record : clones record MAX_RECORD_BYTES = true :=
  (clones_iff _ _).mpr ⟨plain_record, by decide, by decide, Value.textSize_le_tally plain_record (by decide)⟩

theorem digestIs_resource : digestIs node (.obj [("url", .str "https://example.com/")])
    (.str (digest 'a')) = true :=
  have hplain := Value.plain_of_isPlain _ (by decide)
  digestIs_node hplain (by decide) (Value.textSize_le_tally hplain (by decide))

theorem digestIs_authorization : digestIs node (authorizationContent record)
    (.str (digest 'a')) = true :=
  have hplain := Value.plain_of_isPlain _ (by decide)
  digestIs_node hplain (by decide) (Value.textSize_le_tally hplain (by decide))

theorem validateRecord_record : validateRecord node record = true := by
  have hblock : validateSignedAccountBlock accountBlock record = true := by decide
  have hevidence : validateRecordEvidence record = true := by decide +kernel
  have hresource : validateResourceIdentity node (.obj [("url", .str "https://example.com/")])
      = true := by decide
  have htime : validateTimestamp (.str "2026-01-01T00:00:00.000Z") = true := by decide
  unfold validateRecord
  simp only [Bool.and_eq_true]
  refine ⟨⟨⟨⟨⟨⟨⟨⟨⟨⟨⟨⟨⟨⟨⟨⟨⟨⟨?_, ?_⟩, ?_⟩, ?_⟩, ?_⟩, ?_⟩, hresource⟩, digestIs_resource⟩,
    digestIs_authorization⟩, ?_⟩, hblock⟩, ?_⟩, ?_⟩, htime⟩, htime⟩, ?_⟩, hevidence⟩, ?_⟩,
    clones_record⟩
  all_goals decide

theorem recordKey_record : recordKey (.str (digest 'a')) (.str (digest 'b')) = .ok key := by rfl

theorem holds (cached : Value) :
    Holds node (configuration cached) data (.str (digest 'a')) (.str (digest 'b')) key record := by
  have hentry : checkEntry (validateRecord node) ([], []) (key, record)
      = .ok ([.str (digest 'a')], [.str (digest 'b')]) := by
    simp only [checkEntry, bind_ok, rejectIf_ok, validateRecord_record]
    exact ⟨(), by decide, key, recordKey_record, (), by simp, rfl⟩
  have hstructure : validateJournalStructure node (configuration cached)
      { revision := 0, records := JsMap.empty.set key record, tombstones := none,
        checksum := digest 'a' } = .ok () := by
    have hentries : [(key, record)].foldlM (checkEntry (validateRecord node)) ([], [])
        = .ok ([.str (digest 'a')], [.str (digest 'b')]) := by
      rw [List.foldlM_cons, hentry]
      rfl
    exact validateJournalStructure_ok.mpr
      ⟨by decide, show 1 ≤ 4 by decide, by decide, _, _, hentries, rfl⟩
  obtain ⟨_, hjournal⟩ := write_of_fits hstructure (Nat.le_add_right ..)
  exact ⟨hjournal, recordKey_record, JsMap.get?_set_self .., by decide⟩

theorem room (cached : Value) :
    Room node (configuration cached) data key (delivered now record cached.unsigned) :=
  ⟨by decide, Nat.le_add_left ..⟩

/-- What is let through is let through as it is. -/
theorem accepted {v : Value} (h : (normalizeCachedResponse v).isOk = true) :
    normalizeCachedResponse v = .ok v := by
  cases hv : normalizeCachedResponse v with
  | ok w => rw [(normalizeCachedResponse_ok hv).1]
  | error e =>
    rw [hv] at h
    cases h

theorem accepted_both : ∀ v ∈ [greeting, secret], normalizeCachedResponse v = .ok v := by
  have hok : ∀ v ∈ [greeting, secret], (normalizeCachedResponse v).isOk = true := by decide +kernel
  exact fun v hv => accepted (hok v hv)

theorem accepted_greeting : normalizeCachedResponse greeting = .ok greeting :=
  accepted_both _ List.mem_cons_self

theorem accepted_secret : normalizeCachedResponse secret = .ok secret := accepted_both _ (by simp)

/-- A greeting is recorded, and a journal with room for a secret refuses it. -/
theorem greeting_recorded : (∃ copy written stored,
    markDelivered node (configuration greeting) now data (.str (digest 'a'))
    (.str (digest 'b')) greeting
        = .ok (copy, written, some written.text)
      ∧ validateJournal node (configuration greeting) written = .ok ()
      ∧ written.records.get? key = some stored ∧ validateRecord node stored = true
      ∧ ∃ again, normalizeCachedResponse (Journal.get stored "cachedResponse") = .ok again
        ∧ stringify again = stringify greeting)
    ∧ markDelivered node (configuration secret) now data (.str (digest 'a'))
      (.str (digest 'b')) secret
      = .error .journalSecretFieldForbidden := by
  have hplain : Plain (delivered now record greeting.unsigned) :=
    Value.plain_of_isPlain _ (by decide)
  have hbytes : textSize (delivered now record greeting.unsigned) ≤ MAX_RECORD_BYTES :=
    Value.textSize_le_tally hplain (by decide +kernel)
  exact ⟨(response_recorded accepted_greeting).1 key record (holds greeting) (by decide)
    (room greeting) (by decide)
    (by decide) hbytes, (response_recorded accepted_secret).2 (by decide)⟩

/-- Not every accepted response is: a body may have a key that the journal keeps nothing under. -/
theorem not_every_response_recorded : ¬ ∀ (node : Node) (configuration : Configuration)
    (now : String) (data : Data) (authorizationKey transactionHash : Value) (key : String)
    (record response cached : Value),
    normalizeCachedResponse response = .ok cached →
    Holds node configuration data authorizationKey transactionHash key record →
    validateTimestamp (.str now) = true →
    Room node configuration data key (delivered now record cached.unsigned) →
    ∃ result, markDelivered node configuration now data authorizationKey transactionHash cached
      = .ok result := by
  intro h
  obtain ⟨result, hresult⟩ :=
    h node (configuration secret) now data (.str (digest 'a')) (.str (digest 'b')) key record secret
    secret accepted_secret (holds secret) (by decide) (room secret)
  rw [secret_refused accepted_secret (by decide)] at hresult
  cases hresult

end Sample

end Resource
end ZenonX402
