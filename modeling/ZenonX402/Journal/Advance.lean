/-
# Stronger evidence for a recorded inclusion

`compareAndUpdateEvidence` takes a revision and a whole record that the caller
expects, and raises the evidence of that record. What it does with a record that
is included already is decided by `captureJournalMomentumConfirmationAdvance`:
the same Momentum with more confirmations raises the count. But the
call is only admitted for a record whose evidence a tombstone may have had, and an
inclusion is none of these (`admitted_not_included`): for a recorded inclusion the
call fails whatever detail it is given, and nothing is written (`included_refused`).

Key definitions: `exactCasOptionsSnapshot`, `captureJournalMomentumConfirmationAdvance`, `plan`,
`compareAndUpdateEvidence`, `Advances`.
Key theorems: `admitted_not_included`, `included_refused`, `advances_iff`.
-/
import ZenonX402.Resource.Replay

namespace ZenonX402
namespace Journal

open Js
open Value (safeInteger?)
open String (utf8Len)

def MAX_CAS_OPTIONS_BYTES : Nat := MAX_RECORD_BYTES + 16 * 1024 + 4096

/-! ### The advance of a count -/

/-- The keys that `capture` reads of a detail. -/
def DETAIL_FIELDS : List String :=
  ["numConfirmations", "momentumHeight", "momentumHash", "momentumTimestamp"]

/-- A safe integer that is no negative zero, from `minimum` on. -/
def countFrom (minimum : Int) : Value → Option Int
  | .num n => if n.natAbs ≤ 9007199254740991 ∧ minimum ≤ n then some n else none
  | _ => none

structure Detail where
  numConfirmations : Int
  momentumHeight : Int
  momentumHash : String
  momentumTimestamp : Int
  deriving DecidableEq

/-- `capture`. -/
def captureDetail (value : Value) : Option Detail := do
  guard (exactKeys value DETAIL_FIELDS = true)
  let numConfirmations ← countFrom 1 (get value "numConfirmations")
  let momentumHeight ← countFrom 1 (get value "momentumHeight")
  let momentumTimestamp ← countFrom 0 (get value "momentumTimestamp")
  match get value "momentumHash" with
  | .str momentumHash =>
    if Text.isHash momentumHash = true then
      return ⟨numConfirmations, momentumHeight, momentumHash, momentumTimestamp⟩
    else none
  | _ => none

/-- One Momentum, whatever the count. -/
def Detail.SameMomentum (a b : Detail) : Prop :=
  a.momentumHeight = b.momentumHeight ∧ a.momentumHash = b.momentumHash ∧ a.momentumTimestamp
    = b.momentumTimestamp

instance (a b : Detail) : Decidable (a.SameMomentum b) := inferInstanceAs (Decidable (_ ∧ _))

/-- `captureJournalMomentumConfirmationAdvance`: the count, and whether it grows. -/
def captureJournalMomentumConfirmationAdvance (currentDetail nextDetail : Value) :
    Option (Bool × Int) := do
  let current ← captureDetail currentDetail
  let next ← captureDetail nextDetail
  guard (current.SameMomentum next)
  guard (current.numConfirmations ≤ next.numConfirmations)
  return (decide (current.numConfirmations < next.numConfirmations), next.numConfirmations)

/-! ### The call -/

def exactCasOptionsSnapshot (value : Value) (expected : List String) : Option Value := do
  let (snapshot, _) ← (descriptorSafeJsonValue MAX_CAS_OPTIONS_BYTES 0 0 value).toOption
  guard (exactKeys snapshot expected = true)
  let encoded ← (stringifyJsonWithoutHooks snapshot 0 false MAX_CAS_OPTIONS_BYTES).toOption
  guard (utf8Len encoded ≤ MAX_CAS_OPTIONS_BYTES)
  return snapshot

def CAS_FIELDS : List String :=
  ["expectedRevision", "expectedRecord", "evidenceState", "confirmationDetail"]

/-- What is written when the record changes. -/
structure Change where
  key : String
  record : Value
  data : Data
  text : List Char

/-- What the call comes to once the journal is open: the record as it is, or a change. -/
inductive Plan
  | unchanged (record : Value)
  | changed (change : Change)

/-- What the file operations of a call do: the journal that is opened, how the writing ends, and the
journal that is read back. -/
structure Disk where
  opened : Except JournalError Data
  stored : Except JournalError Unit
  reloaded : Except JournalError Data

/-- What a call returns or throws, and the text that it writes if it writes one. -/
structure Turn where
  result : Except JournalError (Bool × Value)
  written : Option (List Char)

section

variable (node : Node) (configuration : Configuration)

/-- What is checked of the options before the journal is opened. -/
def admits (snapshot : Value) : Bool :=
  isInteger (fun n => decide (0 ≤ n)) (get snapshot "expectedRevision")
    && validateRecord node (get snapshot "expectedRecord")
    && isText (fun s => TOMBSTONE_PRIOR_EVIDENCE_STATES.contains s)
    (get (get snapshot "expectedRecord") "evidenceState")
    && (get (get snapshot "expectedRecord") "deliveryState").strictEq (.str "NONE")
    && isText (fun s => ["SUBMISSION_ACKNOWLEDGED", "MOMENTUM_INCLUDED"].contains s)
    (get snapshot "evidenceState")
    && if (get snapshot "evidenceState").strictEq (.str "SUBMISSION_ACKNOWLEDGED")
      then (get snapshot "confirmationDetail").strictEq .null
      else validateConfirmationDetail (get snapshot "confirmationDetail")

/-- The options that are admitted. -/
def captureOptions (options : Value) : Except JournalError Value := do
  let snapshot ← orReject (exactCasOptionsSnapshot options CAS_FIELDS)
      .journalCompareAndReplaceFailed
  rejectIf (admits node snapshot = false) .journalCompareAndReplaceFailed
  return snapshot

/-- The copy of a detail, where there is one. -/
def copyDetail (confirmationDetail : Value) : Except JournalError Value :=
  if confirmationDetail.strictEq .null then .ok .null else cloneJson confirmationDetail (16 * 1024)

/-- The rank of the evidence of a record. -/
def evidenceRank (state : Value) : Nat :=
  if state.strictEq (.str "MOMENTUM_INCLUDED") then 3
  else if state.strictEq (.str "SUBMISSION_ACKNOWLEDGED") then 2
  else if state.strictEq (.str "SUBMISSION_OUTCOME_UNKNOWN") then 1
  else 0

/-- The record with the count raised. -/
def advanced (now : String) (current : Value) (numConfirmations : Int) : Value :=
  let evidence := get current "momentumEvidence"
  let detail := setField (get evidence "confirmationDetail") "numConfirmations" (.num numConfirmations)
  setField (setField current "momentumEvidence" (setField evidence "confirmationDetail" detail)) "updatedAt"
    (nextTimestamp now (get current "updatedAt"))

/-- The record with other evidence. -/
def raised (now : String) (current evidenceState confirmationDetail : Value) : Value :=
  let observedAt := nextTimestamp now (get current "updatedAt")
  let evidence := if confirmationDetail.strictEq .null then .null
    else .obj [("observedAt", observedAt), ("confirmationDetail", confirmationDetail)]
  setField (setField (setField current "evidenceState" evidenceState) "momentumEvidence" evidence)
    "updatedAt" observedAt

/-- The record that is to be kept; nothing when it stays as it is. -/
def nextRecord (now : String) (current evidenceState confirmationDetail : Value) :
    Except JournalError (Option Value) :=
  if (get current "evidenceState").strictEq evidenceState then
    if evidenceState.strictEq (.str "MOMENTUM_INCLUDED") then do
      let (changed, count) ← orReject
        (captureJournalMomentumConfirmationAdvance
          (get (get current "momentumEvidence") "confirmationDetail") confirmationDetail)
        .journalCompareAndReplaceFailed
      return if changed then some (advanced now current count) else none
    else return none
  else do
    let nextRank := if evidenceState.strictEq (.str "MOMENTUM_INCLUDED") then 3 else 2
    rejectIf (nextRank ≤ evidenceRank (get current "evidenceState")) .journalCompareAndReplaceFailed
    return some (raised now current evidenceState confirmationDetail)

/-- `compareAndUpdateEvidence` up to the writing, with the text of the clock. -/
def plan (now : String) (opened : Except JournalError Data) (options : Value) :
    Except JournalError Plan := do
  let snapshot ← captureOptions node options
  let expectedRecord ← cloneJson (get snapshot "expectedRecord") MAX_RECORD_BYTES
  let confirmationDetail ← copyDetail (get snapshot "confirmationDetail")
  let key ← recordKey (get expectedRecord "authorizationKey") (get expectedRecord "transactionHash")
  let data ← opened
  let current ← orReject (data.records.get? key) .journalCompareAndReplaceFailed
  let same ← sameResponse current expectedRecord
  rejectIf ((Value.num data.revision).strictEq (get snapshot "expectedRevision") = false
    ∨ ((data.tombstones.getD .empty).get? key).isSome ∨ same = false)
    .journalCompareAndReplaceFailed
  rejectIf (validateTimestamp (.str now) = false) .journalClockInvalid
  let next ← nextRecord now current (get snapshot "evidenceState") confirmationDetail
  match next with
  | none =>
    let copy ← cloneJson current MAX_RECORD_BYTES
    return .unchanged copy
  | some record =>
    rejectIf (validateRecord node record = false) .journalCompareAndReplaceFailed
    let (written, text) ← write node configuration (data.replaced key record)
    return .changed ⟨key, record, written, text⟩

/-- What is read back after the writing. -/
def verify (change : Change) (disk : Disk) : Except JournalError Value := do
  disk.stored
  let reloaded ← disk.reloaded
  let record := (reloaded.records.get? change.key).getD .null
  let same ← sameResponse record change.record
  rejectIf (reloaded.revision ≠ change.data.revision ∨ same = false) .journalWriteVerificationFailed
  cloneJson record MAX_RECORD_BYTES

def compareAndUpdateEvidence (now : String) (disk : Disk) (options : Value) : Turn :=
  match plan node configuration now disk.opened options with
  | .error e => ⟨.error e, none⟩
  | .ok (.unchanged record) => ⟨.ok (false, record), none⟩
  | .ok (.changed change) =>
      ⟨(verify change disk).map fun record => (true, record), some change.text⟩

end

/-! ### A recorded inclusion -/

/-- The options with which the record of a journal is to take a detail. -/
def inclusionOptions (data : Data) (record detail : Value) : Value :=
  .obj [("expectedRevision", .num data.revision), ("expectedRecord", record),
    ("evidenceState", .str "MOMENTUM_INCLUDED"), ("confirmationDetail", detail)]

/-- The detail that a record was included with. -/
def includedDetail (record : Value) : Value :=
  get (get record "momentumEvidence") "confirmationDetail"

/-- The integer that a value is. -/
def integerOf (value : Value) : Int := (safeInteger? value).getD 0

/-- The details name one Momentum. -/
def SameMomentum (current next : Value) : Prop :=
  integerOf (get current "momentumHeight") = integerOf (get next "momentumHeight")
    ∧ get current "momentumHash" = get next "momentumHash"
    ∧ integerOf (get current "momentumTimestamp") = integerOf (get next "momentumTimestamp")

def confirmations (detail : Value) : Int := integerOf (get detail "numConfirmations")

/-- The detail is of the Momentum that the record was included with, with no smaller count. -/
def Supports (record detail : Value) : Prop :=
  SameMomentum (includedDetail record) detail ∧ confirmations (includedDetail record)
    ≤ confirmations detail

/-- What the call is to do with a recorded inclusion and a detail: a larger count of the same
Momentum raises the count of the record, the same count leaves it, and any other detail is refused.
-/
structure Advances (now : String) (record detail : Value) (turn : Turn) : Prop where
  stronger : SameMomentum (includedDetail record) detail →
    confirmations (includedDetail record) < confirmations detail →
    turn.result = .ok (true, (advanced now record (confirmations detail)).unsigned)
      ∧ turn.written.isSome
  same : SameMomentum (includedDetail record) detail →
    confirmations (includedDetail record) = confirmations detail →
    turn.result = .ok (false, record.unsigned) ∧ turn.written = none
  refused : ¬ Supports record detail → (∃ e, turn.result = .error e) ∧ turn.written = none

section

variable {node : Node} {configuration : Configuration}

/-- What is admitted expects a record that is not included. -/
theorem admitted_not_included {snapshot : Value} (h : admits node snapshot = true) :
    get (get snapshot "expectedRecord") "evidenceState" ≠ .str "MOMENTUM_INCLUDED" := by
  unfold admits at h
  simp only [Bool.and_eq_true] at h
  obtain ⟨⟨⟨⟨_, hstate⟩, _⟩, _⟩, _⟩ := h
  intro hincluded
  rw [hincluded] at hstate
  revert hstate
  decide

theorem exactCasOptionsSnapshot_eq {value snapshot : Value} {expected : List String}
    (h : exactCasOptionsSnapshot value expected = some snapshot) : snapshot = value.unsigned := by
  simp only [exactCasOptionsSnapshot, Option.bind_eq_bind, Option.bind_eq_some_iff,
    Prod.exists, guard_some, Option.pure_def, Option.some.injEq] at h
  obtain ⟨w, bytes, hcopy, _, _, _, _, _, _, rfl⟩ := h
  cases hv : descriptorSafeJsonValue MAX_CAS_OPTIONS_BYTES 0 0 value with
  | error e => simp [hv, Except.toOption] at hcopy
  | ok copy =>
    rw [hv] at hcopy
    obtain rfl : copy = (w, bytes) := Option.some.inj hcopy
    exact (descriptorSafeJsonValue_eq value hv).1

/-- A call that expects a recorded inclusion fails, and writes nothing. -/
theorem included_refused (now : String) (disk : Disk) {options : Value}
    (h : get (get options "expectedRecord") "evidenceState" = .str "MOMENTUM_INCLUDED") :
    compareAndUpdateEvidence node configuration now disk options
      = ⟨.error .journalCompareAndReplaceFailed, none⟩ := by
  have hcapture : captureOptions node options = .error .journalCompareAndReplaceFailed := by
    unfold captureOptions
    cases hsnapshot : exactCasOptionsSnapshot options CAS_FIELDS with
    | none => rfl
    | some snapshot =>
      have hadmits : admits node snapshot = false := by
        rw [← Bool.not_eq_true]
        intro hadmits
        refine admitted_not_included hadmits ?_
        rw [exactCasOptionsSnapshot_eq hsnapshot, get_unsigned, get_unsigned, h]
        rfl
      show (do
        rejectIf (admits node snapshot = false) JournalError.journalCompareAndReplaceFailed
        return snapshot) = _
      rw [hadmits]
      rfl
  have hplan : plan node configuration now disk.opened options
      = .error .journalCompareAndReplaceFailed := by
    unfold plan
    rw [hcapture]
    rfl
  unfold compareAndUpdateEvidence
  rw [hplan]

/-- For a recorded inclusion, expected as it is, the call does what it is to do exactly when the
detail is of another Momentum or has a smaller count. -/
theorem advances_iff (node : Node) (configuration : Configuration) (now : String)
    (disk : Disk) (data : Data) {record : Value}
    (hincluded : get record "evidenceState" = .str "MOMENTUM_INCLUDED") (detail : Value) :
    Advances now record detail
        (compareAndUpdateEvidence node configuration now disk (inclusionOptions data record detail))
      ↔ ¬ Supports record detail := by
  rw [@included_refused node configuration now disk (inclusionOptions data record detail) hincluded]
  constructor
  · rintro h ⟨hsame, hle⟩
    rcases lt_or_eq_of_le hle with hlt | heq
    · exact nomatch (h.stronger hsame hlt).1
    · exact nomatch (h.same hsame heq).1
  · intro h
    exact ⟨fun hsame hlt => absurd ⟨hsame, hlt.le⟩ h, fun hsame heq => absurd ⟨hsame, heq.le⟩ h,
      fun _ => ⟨⟨_, rfl⟩, rfl⟩⟩

end

/-! ### A payment that is included with one confirmation -/

namespace Included

open Resource.Sample (digest node key now plain_record)

/-- The record of a payment that was not delivered yet. -/
def record : Value := setField Resource.Sample.record "deliveryState" (.str "NONE")

def data : Data :=
  Data.sealed node
    { revision := 0, records := JsMap.empty.set key record, tombstones := none,
      checksum := digest 'a' }

def configuration : Configuration := ⟨4, utf8Len data.text⟩

/-- The same inclusion, with two more confirmations. -/
def detail : Value := .obj [("numConfirmations", .num 3), ("momentumHeight", .num 1),
  ("momentumHash", .str (digest 'd')), ("momentumTimestamp", .num 1)]

/-- The same inclusion on another Momentum. -/
def otherDetail : Value := .obj [("numConfirmations", .num 3), ("momentumHeight", .num 2),
  ("momentumHash", .str (digest 'e')), ("momentumTimestamp", .num 1)]

def disk : Disk := ⟨.ok data, .ok (), .ok data⟩

theorem validateRecord_record : validateRecord node record = true := by
  have hpending := Resource.Sample.validateRecord_record
  have hplain : Value.Plain record := Value.plain_of_isPlain _ (by decide)
  have hclones : clones record MAX_RECORD_BYTES = true :=
    (clones_iff _ _).mpr ⟨hplain, by decide, by decide, Value.textSize_le_tally hplain (by decide +kernel)⟩
  have hblock : validateSignedAccountBlock Resource.Sample.accountBlock record = true := by decide
  have hevidence : validateRecordEvidence record = true := by decide +kernel
  unfold validateRecord at hpending ⊢
  simp only [Bool.and_eq_true] at hpending ⊢
  obtain ⟨⟨⟨⟨⟨⟨⟨⟨⟨⟨⟨⟨⟨⟨⟨⟨⟨⟨_, h1⟩, h2⟩, h3⟩, h4⟩, h5⟩, h6⟩, h7⟩, h8⟩, h9⟩, _⟩, h11⟩, _⟩, h13⟩, h14⟩,
    h15⟩, _⟩, _⟩, _⟩ := hpending
  refine ⟨⟨⟨⟨⟨⟨⟨⟨⟨⟨⟨⟨⟨⟨⟨⟨⟨⟨?_, h1⟩, h2⟩, h3⟩, h4⟩, h5⟩, h6⟩, h7⟩, h8⟩, h9⟩, hblock⟩, h11⟩, ?_⟩,
    h13⟩, h14⟩, h15⟩, hevidence⟩, ?_⟩, hclones⟩
  all_goals decide

theorem validateJournal_data : validateJournal node configuration data = .ok () := by
  have hentry : checkEntry (validateRecord node) ([], []) (key, record)
      = .ok ([.str (digest 'a')], [.str (digest 'b')]) := by
    simp only [checkEntry, bind_ok, rejectIf_ok, validateRecord_record]
    exact ⟨(), by decide, key, Resource.Sample.recordKey_record, (), by simp, rfl⟩
  have hstructure : validateJournalStructure node configuration
      { revision := 0, records := JsMap.empty.set key record, tombstones := none,
        checksum := digest 'a' } = .ok () := by
    have hentries : [(key, record)].foldlM (checkEntry (validateRecord node)) ([], [])
        = .ok ([.str (digest 'a')], [.str (digest 'b')]) := by
      rw [List.foldlM_cons, hentry]
      rfl
    exact validateJournalStructure_ok.mpr
      ⟨by decide, show 1 ≤ 4 by decide, by decide, _, _, hentries, rfl⟩
  have hfits : utf8Len data.text ≤ configuration.maxFileBytes := Nat.le_refl _
  exact (write_of_fits hstructure hfits).2

end Included

/-- Two more confirmations of a recorded inclusion are refused. -/
theorem stronger_refused :
    validateJournal Resource.Sample.node Included.configuration Included.data = .ok ()
    ∧ Included.data.records.get? Resource.Sample.key = some Included.record
    ∧ validateConfirmationDetail Included.detail = true
    ∧ SameMomentum (includedDetail Included.record) Included.detail
    ∧ confirmations (includedDetail Included.record) < confirmations Included.detail
    ∧ ¬ Advances Resource.Sample.now Included.record Included.detail
      (compareAndUpdateEvidence Resource.Sample.node Included.configuration
        Resource.Sample.now Included.disk
        (inclusionOptions Included.data Included.record Included.detail)) := by
  have hsame : SameMomentum (includedDetail Included.record) Included.detail :=
    ⟨by decide, rfl, by decide⟩
  have hlt : confirmations (includedDetail Included.record) < confirmations Included.detail := by
    decide
  have hplain : Value.Plain Included.detail := Value.plain_of_isPlain _ (by decide)
  have hclones : clones Included.detail MAX_EVIDENCE_BYTES = true :=
    (clones_iff _ _).mpr ⟨hplain, by decide, by decide, Value.textSize_le_tally hplain (by decide)⟩
  refine ⟨Included.validateJournal_data, JsMap.get?_set_self .., ?_, hsame, hlt, fun h => ?_⟩
  · unfold validateConfirmationDetail
    rw [hclones, Bool.and_true]
    decide
  · have hrefused := @included_refused Resource.Sample.node Included.configuration
      Resource.Sample.now Included.disk
      (inclusionOptions Included.data Included.record Included.detail) rfl
    rw [hrefused] at h
    exact nomatch (h.stronger hsame hlt).1

theorem advances_iff_sample : Advances Resource.Sample.now Included.record Included.otherDetail
    (compareAndUpdateEvidence Resource.Sample.node Included.configuration
      Resource.Sample.now Included.disk
      (inclusionOptions Included.data Included.record Included.otherDetail)) :=
  (advances_iff Resource.Sample.node Included.configuration Resource.Sample.now Included.disk
    Included.data rfl
    Included.otherDetail).mpr fun h => absurd h.1.1 (by decide)

end Journal
end ZenonX402
