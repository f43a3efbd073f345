/-
# Subjects of user sends

A subject is derived from a frontier that is declared and from an offer that is accepted, and
bound to them again: a binding takes a subject exactly as it is, if it is the transfer that
the offer asks for. So what is derived is always accepted by the binder
(`createZenonUserSendSubject_bound`), and the digest of a subject stands for its fields
(`subjectDigest_iff`).

With the encoders of the planner and of the payment code this says what a user send is: one
preimage for each block, and one digest for each subject (`userSend_exact`).

Key definitions: `snapshotJson`, `snapshotSelectedUpfrontIntent`,
`snapshotZenonUserSendPolicyBinding`, `createZenonUserSendSubject`.
Key theorems: `createZenonUserSendSubject_bound`, `subjectDigest_iff`, `userSend_exact`.
-/
import ZenonX402.Zenon.Preimage
import ZenonX402.Zenon.Work
import ZenonX402.Resource.Intent

namespace ZenonX402
namespace Zenon

open CodeUnits Js Octets Value Bech32
open Resource (validatePaymentRequired snapshotActiveUpfrontRequirement sameRequirements offers
  paymentIntentDigest EXPERIMENTAL_LIVE_NETWORK)

def SUBJECT_INPUT_FIELDS : List String :=
  ["subjectInputVersion", "phase", "paymentRequired", "accepted", "payerAddress",
    "compiledSporkIds", "accountFrontier", "momentumAcknowledged"]

def ACCOUNT_FRONTIER_FIELDS : List String := ["address", "chainIdentifier", "hash", "height"]

def BINDING_FIELDS : List String :=
  ["bindingVersion", "subject", "paymentRequired", "accepted", "payerAddress", "compiledSporkIds"]

def COMPILED_FIELDS : List String := ["dynamicPlasmaId", "libp2pId"]

/-! ### Copies -/

/-- What may still be copied. -/
structure Budget where
  nodes : Nat
  characters : Nat
  deriving DecidableEq

def Budget.node (budget : Budget) (depth : Nat) : Option Budget :=
  if 8 < depth ∨ budget.nodes = 0 then none else some { budget with nodes := budget.nodes - 1 }

def Budget.text (budget : Budget) (s : String) : Option Budget :=
  if 8192 < utf16Length s ∨ budget.characters < utf16Length s then none
  else some { budget with characters := budget.characters - utf16Length s }

mutual

/-- What is left of the budget when a value is copied. The copy is the value. -/
def snapshotJson (depth : Nat) (budget : Budget) : Value → Option Budget
  | .null | .bool _ => budget.node depth
  | .str s => do
    let budget ← budget.node depth
    budget.text s
  | .num n => do
    let budget ← budget.node depth
    guard (0 ≤ n ∧ n ≤ 9007199254740991)
    return budget
  | .arr xs => do
    let budget ← budget.node depth
    guard (xs.length ≤ 16)
    snapshotElements (depth + 1) budget xs
  | .obj fs => do
    let budget ← budget.node depth
    guard (fs.length ≤ 32)
    snapshotMembers (depth + 1) budget fs
  | .undefined | .negZero | .fractional | .host => none

def snapshotElements (depth : Nat) (budget : Budget) : List Value → Option Budget
  | [] => some budget
  | x :: xs => do
    let budget ← snapshotJson depth budget x
    snapshotElements depth budget xs

def snapshotMembers (depth : Nat) (budget : Budget) : List (String × Value) → Option Budget
  | [] => some budget
  | (key, x) :: fs => do
    guard (utf16Length key ≤ 128)
    let budget ← snapshotJson depth budget x
    snapshotMembers depth budget fs

end

/-! ### Parts of an input -/

def positiveInteger (value : Value) : Option Nat := match value with
  | .num n => if 0 < n ∧ n ≤ 9007199254740991 then some n.toNat else none
  | _ => none

/-- `isSafeInteger(value) && value >= 0 && !same(value, -0)`. -/
def unsignedInteger (value : Value) : Option Nat := match value with
  | .num n => if 0 ≤ n ∧ n ≤ 9007199254740991 then some n.toNat else none
  | _ => none

def requireHash (value : Value) : Option Hash := match value with
  | .str s => if h : Text.isHash s = true then some ⟨s, h⟩ else none
  | _ => none

structure CompiledSporks where
  dynamicPlasmaId : Hash
  libp2pId : Hash
  distinct : dynamicPlasmaId ≠ libp2pId
  deriving DecidableEq

def snapshotCompiledSporks (value : Value) : Option CompiledSporks := do
  let (_, compiled) ← fields COMPILED_FIELDS value
  let dynamicPlasmaId ← requireHash (compiled "dynamicPlasmaId")
  let libp2pId ← requireHash (compiled "libp2pId")
  if h : dynamicPlasmaId ≠ libp2pId then some ⟨dynamicPlasmaId, libp2pId, h⟩ else none

/-- `Buffer.from(digest, 'hex').toString('base64')`. -/
def base64OfHex (digest : String) : String := base64Text ((unhex digest).map BitVec.toNat)

/-- `String(integer)`. -/
def decimal (n : Nat) : String := String.ofList (Json.writeInt n)

section

variable (node : Journal.Node)

def isHttps (value : Value) : Bool := match value with
  | .str s => (node.url s).any fun url => url.protocol == "https:"
  | _ => false

/-- The challenge with its one offer, and the offer as it was accepted. -/
def snapshotSelectedUpfrontIntent (paymentRequired requirement : Value) :
    Option (Value × Value) := do
  let _ ← snapshotJson 0 ⟨512, 32768⟩ paymentRequired
  guard (validatePaymentRequired node paymentRequired = true)
  guard ((offers paymentRequired).length = 1
    ∧ isHttps node (Journal.get (Journal.get paymentRequired "resource") "url") = true)
  let accepted ← snapshotActiveUpfrontRequirement requirement
  guard ((Journal.get accepted "network").strictEq (.str EXPERIMENTAL_LIVE_NETWORK) = true
    ∧ (offers paymentRequired).all (sameRequirements accepted) = true)
  return (paymentRequired, accepted)

/-! ### The binder -/

structure PolicyBinding where
  subject : Subject
  subjectDigest : String
  intentDigest : String
  expectedChainProfile : Value
  compiledSporkIds : CompiledSporks
  quoteRequest : Value

def snapshotZenonUserSendPolicyBinding (input : Value) : Option PolicyBinding := do
  let (_, top) ← fields BINDING_FIELDS input
  guard ((top "bindingVersion").strictEq (.num 1) = true)
  let subject ← (snapshotSubject.decode (top "subject")).toOption
  let (challenge, accepted) ← snapshotSelectedUpfrontIntent node (top "paymentRequired")
      (top "accepted")
  let expectedChainProfile := Journal.get (Journal.get accepted "extra") "zenonChain"
  guard ((top "payerAddress").strictEq (.str subject.address.1) = true
    ∧ (Journal.get accepted "payTo").strictEq (.str subject.toAddress.1) = true
    ∧ (Journal.get accepted "amount").strictEq (.str subject.amount.1) = true
    ∧ (Journal.get accepted "asset").strictEq (.str subject.tokenStandard.1) = true
    ∧ (Journal.get expectedChainProfile "chainIdentifier").strictEq
    (.str (decimal subject.chainIdentifier.1.1)) = true)
  let intentDigest := paymentIntentDigest node.sha challenge accepted
  guard (subject.data.1 = base64OfHex intentDigest)
  let compiledSporkIds ← snapshotCompiledSporks (top "compiledSporkIds")
  return { subject
           subjectDigest := subjectDigest node.sha subject
           intentDigest
           expectedChainProfile
           compiledSporkIds
           quoteRequest := .obj [("address", .str subject.address.1), ("blockType", .num 2),
             ("toAddress", .str subject.toAddress.1), ("data", .str subject.data.1)] }

/-- What is given to the binder with a subject. -/
def bindingInput (subject : Value) (top : String → Value) : Value :=
  .obj [("bindingVersion", .num 1), ("subject", subject),
    ("paymentRequired", top "paymentRequired"), ("accepted", top "accepted"),
    ("payerAddress", top "payerAddress"), ("compiledSporkIds", top "compiledSporkIds")]

def createZenonUserSendSubject (input : Value) : Option Subject := do
  let (_, top) ← fields SUBJECT_INPUT_FIELDS input
  guard ((top "subjectInputVersion").strictEq (.num 1) = true
    ∧ (top "phase").strictEq (.str "UNSIGNED") = true)
  let (_, frontier) ← fields ACCOUNT_FRONTIER_FIELDS (top "accountFrontier")
  let _ ← positiveInteger (frontier "chainIdentifier")
  let hash ← requireHash (frontier "hash")
  let frontierHeight ← unsignedInteger (frontier "height")
  guard ((frontierHeight = 0 ↔ hash.1 = ZERO_HASH)
    ∧ (frontier "address").strictEq (top "payerAddress") = true)
  guard (frontierHeight + 1 ≤ 9007199254740991)
  let (challenge, accepted) ← snapshotSelectedUpfrontIntent node (top "paymentRequired")
      (top "accepted")
  let intentDigest := paymentIntentDigest node.sha challenge accepted
  let subject := Value.obj [("subjectVersion", .num 1), ("version", .num 1),
    ("chainIdentifier", frontier "chainIdentifier"), ("blockType", .num 2),
    ("previousHash", .str hash.1), ("height", .num ((frontierHeight : Int) + 1)),
    ("momentumAcknowledged", top "momentumAcknowledged"), ("address", frontier "address"),
    ("toAddress", Journal.get accepted "payTo"), ("amount", Journal.get accepted "amount"),
    ("tokenStandard", Journal.get accepted "asset"), ("fromBlockHash", .str ZERO_HASH),
    ("data", .str (base64OfHex intentDigest))]
  let binding ← snapshotZenonUserSendPolicyBinding node (bindingInput subject top)
  return binding.subject

end

/-! ### What is derived is accepted -/

variable {node : Journal.Node}

theorem fields_bindingInput (subject : Value) (top : String → Value) : ∃ order c,
    fields BINDING_FIELDS (bindingInput subject top) = some (order, c) ∧ c "subject" = subject
      ∧ c "bindingVersion" = .num 1
      ∧ c "paymentRequired" = top "paymentRequired" ∧ c "accepted" = top "accepted"
      ∧ c "payerAddress" = top "payerAddress"
      ∧ c "compiledSporkIds" = top "compiledSporkIds" := by
  obtain ⟨c, hfields, hvalue⟩ :=
    fields_written (Order.given BINDING_FIELDS) (Journal.get (bindingInput subject top))
  have hwritten : written (.given BINDING_FIELDS) (Journal.get (bindingInput subject top))
      = bindingInput subject top := by
    simp [written, Order.given, BINDING_FIELDS, bindingInput, Journal.get, List.lookup_cons,
      List.lookup_nil]
  rw [hwritten] at hfields
  exact ⟨_, c, hfields, hvalue _ (by decide), hvalue _ (by decide), hvalue _ (by decide),
    hvalue _ (by decide), hvalue _ (by decide), hvalue _ (by decide)⟩

/-- A binding has the subject that is read, and does not depend on how it was written. -/
theorem binding_of_decoded {subject : Value} {top : String → Value} {binding : PolicyBinding}
    (h : snapshotZenonUserSendPolicyBinding node (bindingInput subject top) = some binding) :
    snapshotSubject.decode subject = .ok binding.subject
      ∧ ∀ subject', snapshotSubject.decode subject' = .ok binding.subject →
        snapshotZenonUserSendPolicyBinding node (bindingInput subject' top) = some binding := by
  obtain ⟨order, c, hfields, hsubject, hversion, hrequired, haccepted, hpayer, hcompiled⟩ :=
    fields_bindingInput subject top
  simp only [snapshotZenonUserSendPolicyBinding, hfields, hsubject, hversion, hrequired, haccepted,
    hpayer, hcompiled, Option.bind_eq_bind, Option.bind_some, Option.bind_eq_some_iff] at h
  obtain ⟨u, hu, subject₀, hdecode, hrest⟩ := h
  have hdecoded : snapshotSubject.decode subject = .ok subject₀ := by
    cases hresult : snapshotSubject.decode subject with
    | ok s =>
      rw [hresult] at hdecode
      exact congrArg Except.ok (Option.some.inj hdecode)
    | error e =>
      rw [hresult] at hdecode
      cases hdecode
  have hbound : binding.subject = subject₀ := by
    obtain ⟨_, -, _, -, _, -, _, -, hbinding⟩ := hrest
    rw [← Option.some.inj hbinding]
  rw [hbound]
  refine ⟨hdecoded, fun subject' hdecode' => ?_⟩
  obtain ⟨order', c', hfields', hsubject', hversion', hrequired', haccepted', hpayer',
    hcompiled'⟩ := fields_bindingInput subject' top
  simp only [snapshotZenonUserSendPolicyBinding, hfields', hsubject', hversion', hrequired',
    haccepted', hpayer', hcompiled', hdecode', Except.toOption, Option.bind_eq_bind,
    Option.bind_some, Option.bind_eq_some_iff]
  exact ⟨u, hu, hrest⟩

/-- **Derived subjects.** The subject that is derived from an input is accepted, with the rest of
the input, and bound as it is. -/
theorem createZenonUserSendSubject_bound {input : Value} {subject : Subject}
    (h : createZenonUserSendSubject node input = some subject) : ∃ order top binding,
      fields SUBJECT_INPUT_FIELDS input = some (order, top)
        ∧ snapshotZenonUserSendPolicyBinding node
        (bindingInput (snapshotSubject.encode subject) top) = some binding
        ∧ binding.subject = subject := by
  simp only [createZenonUserSendSubject, Option.bind_eq_bind, Option.bind_eq_some_iff,
    Option.pure_def, Option.some.injEq] at h
  obtain ⟨⟨order, top⟩, hfields, _, -, _, -, _, -, _, -, _, -, _, -, _, -, _, -, binding,
    hbinding, rfl⟩ := h
  exact ⟨order, top, binding, hfields,
    (binding_of_decoded hbinding).2 _ (snapshotSubject.decode_encode_self _), rfl⟩

/-! ### Digests of subjects -/

/-- The text that the digest of a subject is of. -/
def subjectText (subject : Subject) : String :=
  canonicalJson (.arr [.str "zenon-x402-user-send-subject/v1", snapshotSubject.encode subject])

theorem subjectText_inj {s s' : Subject} (h : subjectText s = subjectText s') : s = s' := by
  have hjson (subject : Subject) :
      (Value.arr [.str "zenon-x402-user-send-subject/v1",
        snapshotSubject.encode subject]).Json := by
    refine .arr fun x hx => ?_
    simp only [List.mem_cons, List.not_mem_nil, or_false] at hx
    rcases hx with rfl | rfl
    · exact .str _
    · exact snapshotSubject.json_encode subject
  have hsame := (canonicalJson_inj (hjson s) (hjson s')).mp h
  simp only [Same, canonical, canonicalList, Value.arr.injEq, List.cons.injEq, and_true,
    true_and] at hsame
  exact snapshotSubject.encode_injective hsame

/-- Two subjects have one digest exactly if they are equal, unless their texts collide. -/
theorem subjectDigest_iff (sha : Sha256) {s s' : Subject}
    (hcollision : sha.hex (subjectText s) = sha.hex (subjectText s') → subjectText s
      = subjectText s') :
    subjectDigest sha s = subjectDigest sha s' ↔ s = s' := by
  constructor
  · intro h
    exact subjectText_inj (hcollision (String.append_right_inj "sha256:" |>.mp h))
  · rintro rfl
    rfl

/-- A block has a preimage exactly if its token standard has a core. -/
theorem preimage_iff (sha3 : Sha3) {block : AccountBlock} {bytes : Octets} :
    preimage sha3 block = some bytes ↔
    ∃ cores, hashCores block = some cores ∧ bytes = layout sha3 block cores := by
  constructor
  · intro h
    have hcores : (hashCores block).isSome = true := by
      cases hcores : hashCores block with
      | none =>
        rw [preimage, hcores] at h
        cases h
      | some cores => rfl
    obtain ⟨cores, hcores⟩ := Option.isSome_iff_exists.mp hcores
    rw [(preimage_some sha3 hcores).1] at h
    exact ⟨cores, hcores, (Option.some.inj h).symm⟩
  · rintro ⟨cores, hcores, rfl⟩
    exact (preimage_some sha3 hcores).1

/-- **User sends.** No encoder of an admitted block overflows, and its preimage is defined if its
token standard has a core, the one thing that is not yet checked of it. It is 306 bytes, those that
the payment code concatenates of the same block, and no other block has it, unless the digests of
two data collide. What is derived as a subject is accepted by the binder, and its digest stands for
its fields. -/
theorem userSend_exact (node : Journal.Node) (sha3 : Sha3) (sdk : Sdk)
    (hsdk : Documented sdk sha3) :
    (∀ block : AccountBlock,
      (∀ n ∈ [1, block.subject.chainIdentifier.1.1, 2, block.subject.height.1.1,
        block.subject.momentumAcknowledged.height.1.1, block.fusedPlasma.1, block.difficulty.1],
        (unsignedBE n 8).isSome = true)
      ∧ (unsignedBE (bigInt block.subject.amount.1) 32).isSome = true
      ∧ ((∃ bytes, preimage sha3 block = some bytes) ↔ ∃ core,
        tokenStandardCore (units block.subject.tokenStandard.1) = some core)
      ∧ ∀ bytes, preimage sha3 block = some bytes → bytes.length = 306)
    ∧ (∀ block json b bytes, preimage sha3 block = some bytes → sdk.fromJson json = some b →
      Carries json block →
      blockPreimage b sdk = .ok bytes)
    ∧ (∀ block block' bytes, preimage sha3 block = some bytes → preimage sha3 block' = some bytes →
      (sha3.digest (dataBytes block.subject.data.1)
        = sha3.digest (dataBytes block'.subject.data.1) →
        dataBytes block.subject.data.1 = dataBytes block'.subject.data.1) →
      block.subject = block'.subject ∧ block.fusedPlasma = block'.fusedPlasma ∧ block.difficulty
        = block'.difficulty
        ∧ block.nonce = block'.nonce)
    ∧ (∀ input subject, createZenonUserSendSubject node input = some subject → ∃ order top binding,
      fields SUBJECT_INPUT_FIELDS input = some (order, top)
        ∧ snapshotZenonUserSendPolicyBinding node
        (bindingInput (snapshotSubject.encode subject) top) = some binding
        ∧ binding.subject = subject)
    ∧ ∀ s s' : Subject, (node.sha.hex (subjectText s) = node.sha.hex (subjectText s') →
      subjectText s = subjectText s') →
      (subjectDigest node.sha s = subjectDigest node.sha s' ↔ s = s') := by
  refine ⟨fun block => ⟨fun n hn => ?_, ?_, ?_, fun bytes h => ?_⟩,
    fun block json b bytes h hjson hcarries => ?_, fun block block' bytes h h' hcollision => ?_,
    fun input subject h => createZenonUserSendSubject_bound h,
    fun s s' hcollision => subjectDigest_iff node.sha hcollision⟩
  · rw [(unsignedBE_admitted block).1 n hn, Option.isSome_some]
  · rw [(unsignedBE_admitted block).2, Option.isSome_some]
  · rw [← cores_some]
    constructor
    · rintro ⟨bytes, h⟩
      obtain ⟨cores, hcores, -⟩ := (preimage_iff sha3).mp h
      exact ⟨cores, hcores⟩
    · rintro ⟨cores, hcores⟩
      exact ⟨_, (preimage_iff sha3).mpr ⟨cores, hcores, rfl⟩⟩
  · obtain ⟨cores, hcores, rfl⟩ := (preimage_iff sha3).mp h
    exact (preimage_some sha3 hcores).2
  · obtain ⟨cores, hcores, rfl⟩ := (preimage_iff sha3).mp h
    exact blockPreimage_eq hsdk hjson hcarries hcores
  · obtain ⟨cores, hcores, rfl⟩ := (preimage_iff sha3).mp h
    obtain ⟨cores', hcores', hlayout⟩ := (preimage_iff sha3).mp h'
    exact layout_inj hcores hcores' hlayout hcollision

/-! ### A block of an SDK -/

namespace Sample

def textOf (value : Value) : Option String := match value with
  | .str s => some s
  | _ => none

def numberOf (value : Value) : Option Int := match value with
  | .num n => some n
  | _ => none

/-- An SDK that reads the fields of a block and nothing else. -/
def sdk : Sdk where
  digest := Sha3.standard.digest
  fromJson json := do
    let number key := numberOf (Journal.get json key)
    let text key := textOf (Journal.get json key)
    let version ← number "version"
    let chainIdentifier ← number "chainIdentifier"
    let blockType ← number "blockType"
    let previousHash ← text "previousHash"
    let height ← number "height"
    let momentumHash ← textOf (Journal.get (Journal.get json "momentumAcknowledged") "hash")
    let momentumHeight ← numberOf (Journal.get (Journal.get json "momentumAcknowledged") "height")
    let addressText ← text "address"
    let address ← Zenon.address (units addressText)
    let toAddressText ← text "toAddress"
    let toAddress ← Zenon.address (units toAddressText)
    let amount ← text "amount"
    let tokenStandardText ← text "tokenStandard"
    let tokenStandard ← tokenStandardCore (units tokenStandardText)
    let fromBlockHash ← text "fromBlockHash"
    let data ← text "data"
    let fusedPlasma ← number "fusedPlasma"
    let difficulty ← number "difficulty"
    let nonce ← text "nonce"
    return ⟨version, chainIdentifier, blockType, unhex previousHash, height, unhex momentumHash
      ++ toBig 8 momentumHeight.toNat, address, toAddress, amount, tokenStandard,
      unhex fromBlockHash, dataBytes data, fusedPlasma, difficulty, nonce⟩

theorem textOf_some {v : Value} {s : String} (h : textOf v = some s) : v = .str s := by
  cases v with
  | str t => exact congrArg Value.str (Option.some.inj h)
  | _ => cases h

theorem numberOf_some {v : Value} {n : Int} (h : numberOf v = some n) : v = .num n := by
  cases v with
  | num m => exact congrArg Value.num (Option.some.inj h)
  | _ => cases h

/-- The fields that a block was read from. -/
theorem fromJson_some {json : Value} {b : SdkBlock} (h : sdk.fromJson json = some b) :
    Journal.get json "version" = .num b.version ∧ Journal.get json "chainIdentifier"
      = .num b.chainIdentifier
      ∧ Journal.get json "blockType" = .num b.blockType ∧ Journal.get json "height" = .num b.height
      ∧ Journal.get json "fusedPlasma" = .num b.fusedPlasma ∧ Journal.get json "difficulty"
      = .num b.difficulty
      ∧ (∃ s, Journal.get json "previousHash" = .str s ∧ b.previousHash = unhex s)
      ∧ (∃ s, Journal.get json "fromBlockHash" = .str s ∧ b.fromBlockHash = unhex s)
      ∧ (∃ s n, Journal.get (Journal.get json "momentumAcknowledged") "hash" = .str s
        ∧ Journal.get (Journal.get json "momentumAcknowledged") "height" = .num n
        ∧ b.momentumAcknowledged = unhex s ++ toBig 8 n.toNat)
      ∧ (∃ s, Journal.get json "address" = .str s ∧ address (units s) = some b.address)
      ∧ (∃ s, Journal.get json "toAddress" = .str s ∧ address (units s) = some b.toAddress)
      ∧ (∃ s, Journal.get json "tokenStandard" = .str s ∧ tokenStandardCore (units s)
        = some b.tokenStandard)
      ∧ Journal.get json "amount" = .str b.amount
        ∧ (∃ s, Journal.get json "data" = .str s ∧ b.data = dataBytes s)
      ∧ Journal.get json "nonce" = .str b.nonce := by
  obtain ⟨version, hversion, h⟩ := Option.bind_eq_some_iff.mp h
  obtain ⟨chainIdentifier, hchain, h⟩ := Option.bind_eq_some_iff.mp h
  obtain ⟨blockType, htype, h⟩ := Option.bind_eq_some_iff.mp h
  obtain ⟨previousHash, hprevious, h⟩ := Option.bind_eq_some_iff.mp h
  obtain ⟨height, hheight, h⟩ := Option.bind_eq_some_iff.mp h
  obtain ⟨momentumHash, hmomentumHash, h⟩ := Option.bind_eq_some_iff.mp h
  obtain ⟨momentumHeight, hmomentumHeight, h⟩ := Option.bind_eq_some_iff.mp h
  obtain ⟨addressText, haddressText, h⟩ := Option.bind_eq_some_iff.mp h
  obtain ⟨from', haddress, h⟩ := Option.bind_eq_some_iff.mp h
  obtain ⟨toAddressText, htoAddressText, h⟩ := Option.bind_eq_some_iff.mp h
  obtain ⟨to', htoAddress, h⟩ := Option.bind_eq_some_iff.mp h
  obtain ⟨amount, hamount, h⟩ := Option.bind_eq_some_iff.mp h
  obtain ⟨tokenStandardText, htokenText, h⟩ := Option.bind_eq_some_iff.mp h
  obtain ⟨tokenStandard, htoken, h⟩ := Option.bind_eq_some_iff.mp h
  obtain ⟨fromBlockHash, hfromBlock, h⟩ := Option.bind_eq_some_iff.mp h
  obtain ⟨data, hdata, h⟩ := Option.bind_eq_some_iff.mp h
  obtain ⟨fusedPlasma, hfused, h⟩ := Option.bind_eq_some_iff.mp h
  obtain ⟨difficulty, hdifficulty, h⟩ := Option.bind_eq_some_iff.mp h
  obtain ⟨nonce, hnonce, h⟩ := Option.bind_eq_some_iff.mp h
  obtain rfl := Option.some.inj h
  exact ⟨numberOf_some hversion, numberOf_some hchain, numberOf_some htype, numberOf_some hheight,
    numberOf_some hfused, numberOf_some hdifficulty, ⟨_, textOf_some hprevious, rfl⟩,
    ⟨_, textOf_some hfromBlock, rfl⟩,
    ⟨_, _, textOf_some hmomentumHash, numberOf_some hmomentumHeight, rfl⟩,
    ⟨_, textOf_some haddressText, haddress⟩,
    ⟨_, textOf_some htoAddressText, htoAddress⟩, ⟨_, textOf_some htokenText, htoken⟩,
    textOf_some hamount,
    ⟨_, textOf_some hdata, rfl⟩, textOf_some hnonce⟩

theorem documented_sdk : Documented sdk Sha3.standard where
  digest _ := rfl
  version h hv := Value.num.inj ((fromJson_some h).1.symm.trans hv)
  chainIdentifier h hv := Value.num.inj ((fromJson_some h).2.1.symm.trans hv)
  blockType h hv := Value.num.inj ((fromJson_some h).2.2.1.symm.trans hv)
  height h hv := Value.num.inj ((fromJson_some h).2.2.2.1.symm.trans hv)
  fusedPlasma h hv := Value.num.inj ((fromJson_some h).2.2.2.2.1.symm.trans hv)
  difficulty h hv := Value.num.inj ((fromJson_some h).2.2.2.2.2.1.symm.trans hv)
  previousHash h hv _ := by
    obtain ⟨s, hs, hb⟩ := (fromJson_some h).2.2.2.2.2.2.1
    rw [hb, Value.str.inj (hs.symm.trans hv)]
  fromBlockHash h hv _ := by
    obtain ⟨s, hs, hb⟩ := (fromJson_some h).2.2.2.2.2.2.2.1
    rw [hb, Value.str.inj (hs.symm.trans hv)]
  momentumAcknowledged h hhash _ hheight := by
    obtain ⟨s, n, hs, hn, hb⟩ := (fromJson_some h).2.2.2.2.2.2.2.2.1
    rw [hb, Value.str.inj (hs.symm.trans hhash), Value.num.inj (hn.symm.trans hheight),
      Int.toNat_natCast]
  address h hv _ hcore := by
    obtain ⟨s, hs, hb⟩ := (fromJson_some h).2.2.2.2.2.2.2.2.2.1
    rw [Value.str.inj (hs.symm.trans hv)] at hb
    exact encoding_inj (address_iff.mp hb).2 hcore
  toAddress h hv _ hcore := by
    obtain ⟨s, hs, hb⟩ := (fromJson_some h).2.2.2.2.2.2.2.2.2.2.1
    rw [Value.str.inj (hs.symm.trans hv)] at hb
    exact encoding_inj (address_iff.mp hb).2 hcore
  tokenStandard h hv _ hcore := by
    obtain ⟨s, hs, hb⟩ := (fromJson_some h).2.2.2.2.2.2.2.2.2.2.2.1
    rw [Value.str.inj (hs.symm.trans hv)] at hb
    exact encoding_inj (tokenStandardCore_iff.mp hb).2 hcore
  amount h hv _ := Value.str.inj ((fromJson_some h).2.2.2.2.2.2.2.2.2.2.2.2.1.symm.trans hv)
  data h hv := by
    obtain ⟨s, hs, hb⟩ := (fromJson_some h).2.2.2.2.2.2.2.2.2.2.2.2.2.1
    rw [hb, Value.str.inj (hs.symm.trans hv), dataBytes_base64Text]
  nonce h hv := Value.str.inj ((fromJson_some h).2.2.2.2.2.2.2.2.2.2.2.2.2.2.symm.trans hv)

end Sample

theorem userSend_exact_sample :
    ∃ b bytes, Sample.sdk.fromJson (accountBlockCodec.encode Sample.draft) = some b
    ∧ preimage Sha3.standard Sample.draft = some bytes ∧ blockPreimage b Sample.sdk = .ok bytes
    ∧ bytes.length = 306 := by
  obtain ⟨hencoders, hsame, -⟩ :=
    userSend_exact Resource.Sample.intentNode Sha3.standard Sample.sdk Sample.documented_sdk
  have hpreimage := (preimage_iff Sha3.standard).mpr ⟨_, Sample.hashCores_draft, rfl⟩
  have hread : (Sample.sdk.fromJson (accountBlockCodec.encode Sample.draft)).isSome = true := by
    decide +kernel
  obtain ⟨b, hb⟩ := Option.isSome_iff_exists.mp hread
  exact ⟨b, _, hb, hpreimage, hsame _ _ _ _ hpreimage hb fun _ _ => rfl,
    (hencoders _).2.2.2 _ hpreimage⟩

end Zenon
end ZenonX402
