/-
# Unsigned user sends

An unsigned account block is admitted field by field (`accountBlockCodec`), and what is
left of it is the block itself, without the value it was read from: its numbers are safe,
its hashes are digits, its addresses have a core. The subject of a block is its transfer,
without plasma, nonce, hash and key (`AccountBlock.subject`).

Of a block whose token standard has a core the preimage of the hash is a text of 306 bytes
(`preimage_some`), so its hash can always be computed.

Key definitions: `Subject`, `AccountBlock`, `snapshotZenonUnsignedUserSendFields`, `preimage`,
`computeUnsignedHashFromSnapshot`, `validateZenonUnsignedUserSendHash`.
Key theorems: `cores_some`, `preimage_some`, `computeUnsignedHash_some`.
-/
import ZenonX402.Zenon.Address
import ZenonX402.Lib.Keccak
import ZenonX402.Lib.Codec
import ZenonX402.Journal.Records

namespace ZenonX402
namespace Zenon

open CodeUnits Js Octets

/-- SHA3-256. -/
structure Sha3 where
  digest : Octets → Octets
  length_digest : ∀ message, (digest message).length = 32

def Sha3.standard : Sha3 := ⟨Keccak.sha3, Keccak.length_sha3⟩

inductive PlannerError where
  | zenon_user_send_binding_input_rejected
  deriving DecidableEq

/-- `rejectBinding()`. -/
abbrev rejectBinding : PlannerError := .zenon_user_send_binding_input_rejected

def ZERO_HASH : String := String.ofList (List.replicate 64 '0')

/-! ### Fields -/

/-- `Number.isSafeInteger(value)` of a number that is not negative. -/
abbrev Amount := {n : Nat // n ≤ 9007199254740991}

/-- `positiveInteger`. -/
abbrev Positive := {n : Amount // decide (1 ≤ n.1) = true}

abbrev Hash := {s : String // Text.isHash s = true}

def isAddress (s : String) : Bool := (address (units s)).isSome

def isToken (s : String) : Bool := Text.allOf (fun c => '!' ≤ c && c ≤ '~') 10 128 s

def isData (s : String) : Bool := (base64Data (units s)).isSome

def isNonce (s : String) : Bool := Text.allOf Text.isHexLower 16 16 s

/-- A key may be missing. One that is there has 43 letters and a sign of padding, as 32 bytes are
written. -/
def isPublicKey (s : String) : Bool := s == "" || Journal.validateCanonicalBase64 (.str s) 32

def amount : Codec PlannerError Amount := .count 9007199254740991 rejectBinding

def positive : Codec PlannerError Positive :=
  amount.refine (fun n => decide (1 ≤ n.1)) rejectBinding

def hash : Codec PlannerError Hash := .text Text.isHash rejectBinding

structure Acknowledged where
  hash : Hash
  height : Positive
  deriving DecidableEq

def acknowledged : Codec PlannerError Acknowledged :=
  (object
    (.cons "hash" hash
    (.cons "height" positive
      .nil)) rejectBinding).equiv
    { toFun := fun (a, b, _) => ⟨a, b⟩
      invFun := fun m => (m.hash, m.height, ())
      left_inv := fun _ => rfl
      right_inv := fun _ => rfl }

/-! ### The subject -/

/-- `(height === 1) === (previousHash === ZERO_HASH)`. -/
def isFirst (height : Positive) (previousHash : Hash) : Bool :=
  decide (height.1.1 = 1) == decide (previousHash.1 = ZERO_HASH)

structure Subject where
  chainIdentifier : Positive
  previousHash : Hash
  height : Positive
  momentumAcknowledged : Acknowledged
  address : {s : String // isAddress s = true}
  toAddress : {s : String // isAddress s = true}
  amount : {s : String // Journal.validateAmount s = true}
  tokenStandard : {s : String // isToken s = true}
  data : {s : String // isData s = true}
  first : isFirst height previousHash = true
  deriving DecidableEq

def snapshotSubject : Codec PlannerError Subject :=
  ((object
    (.const "subjectVersion" (.constNum 1 rejectBinding)
    (.const "version" (.constNum 1 rejectBinding)
    (.cons "chainIdentifier" positive
    (.const "blockType" (.constNum 2 rejectBinding)
    (.cons "previousHash" hash
    (.cons "height" positive
    (.cons "momentumAcknowledged" acknowledged
    (.cons "address" (.text isAddress rejectBinding)
    (.cons "toAddress" (.text isAddress rejectBinding)
    (.cons "amount" (.text Journal.validateAmount rejectBinding)
    (.cons "tokenStandard" (.text isToken rejectBinding)
    (.const "fromBlockHash" (.constStr ZERO_HASH rejectBinding)
    (.cons "data" (.text isData rejectBinding)
      .nil))))))))))))) rejectBinding
    (show ["subjectVersion", "version", "chainIdentifier", "blockType", "previousHash", "height",
      "momentumAcknowledged", "address", "toAddress", "amount", "tokenStandard", "fromBlockHash",
      "data"].Nodup by decide)).refine
    (fun (_, previousHash, height, _) => isFirst height previousHash) rejectBinding).equiv
    { toFun := fun ⟨(a, b, c, d, e, f, g, h, i, _), first⟩ => ⟨a, b, c, d, e, f, g, h, i, first⟩
      invFun := fun s => ⟨(s.chainIdentifier, s.previousHash, s.height, s.momentumAcknowledged,
        s.address, s.toAddress, s.amount, s.tokenStandard, s.data, ()), s.first⟩
      left_inv := fun _ => rfl
      right_inv := fun _ => rfl }

/-! ### The block -/

/-- An unsigned block: its transfer, its plasma, and a hash and a nonce that are digits only. -/
structure AccountBlock where
  subject : Subject
  hash : Hash
  fusedPlasma : Amount
  difficulty : Amount
  nonce : {s : String // isNonce s = true}
  publicKey : {s : String // isPublicKey s = true}
  deriving DecidableEq

def accountBlockCodec : Codec PlannerError AccountBlock :=
  ((object
    (.const "version" (.constNum 1 rejectBinding)
    (.cons "chainIdentifier" positive
    (.const "blockType" (.constNum 2 rejectBinding)
    (.cons "hash" Zenon.hash
    (.cons "previousHash" Zenon.hash
    (.cons "height" positive
    (.cons "momentumAcknowledged" acknowledged
    (.cons "address" (.text isAddress rejectBinding)
    (.cons "toAddress" (.text isAddress rejectBinding)
    (.cons "amount" (.text Journal.validateAmount rejectBinding)
    (.cons "tokenStandard" (.text isToken rejectBinding)
    (.const "fromBlockHash" (.constStr ZERO_HASH rejectBinding)
    (.cons "data" (.text isData rejectBinding)
    (.cons "fusedPlasma" Zenon.amount
    (.cons "difficulty" Zenon.amount
    (.cons "nonce" (.text isNonce rejectBinding)
    (.cons "publicKey" (.text isPublicKey rejectBinding)
    (.const "signature" (.constStr "" rejectBinding)
      .nil)))))))))))))))))) rejectBinding
    (show ["version", "chainIdentifier", "blockType", "hash", "previousHash", "height",
      "momentumAcknowledged", "address", "toAddress", "amount", "tokenStandard", "fromBlockHash",
      "data", "fusedPlasma", "difficulty", "nonce", "publicKey",
      "signature"].Nodup by decide)).refine
    (fun (_, _, previousHash, height, _) => isFirst height previousHash) rejectBinding).equiv
    { toFun := fun ⟨(a, b, c, d, e, f, g, h, i, j, k, l, m, n, _), first⟩ => ⟨⟨a, c, d, e, f, g, h,
      i, j, first⟩, b, k, l, m, n⟩
      invFun := fun t => ⟨(t.subject.chainIdentifier, t.hash, t.subject.previousHash,
        t.subject.height, t.subject.momentumAcknowledged, t.subject.address, t.subject.toAddress,
        t.subject.amount, t.subject.tokenStandard,
        t.subject.data, t.fusedPlasma, t.difficulty, t.nonce, t.publicKey, ()), t.subject.first⟩
      left_inv := fun _ => rfl
      right_inv := fun _ => rfl }

theorem accountBlock_encode (block : AccountBlock) : accountBlockCodec.encode block = .obj
    [("version", .num 1), ("chainIdentifier", .num block.subject.chainIdentifier.1.1),
      ("blockType", .num 2), ("hash", .str block.hash.1),
      ("previousHash", .str block.subject.previousHash.1),
      ("height", .num block.subject.height.1.1),
      ("momentumAcknowledged", acknowledged.encode block.subject.momentumAcknowledged),
      ("address", .str block.subject.address.1), ("toAddress", .str block.subject.toAddress.1),
      ("amount", .str block.subject.amount.1),
      ("tokenStandard", .str block.subject.tokenStandard.1),
      ("fromBlockHash", .str ZERO_HASH), ("data", .str block.subject.data.1),
      ("fusedPlasma", .num block.fusedPlasma.1),
      ("difficulty", .num block.difficulty.1), ("nonce", .str block.nonce.1),
      ("publicKey", .str block.publicKey.1),
      ("signature", .str "")] := rfl

section

variable (sha : Sha256) (sha3 : Sha3)

structure UnsignedFields where
  accountBlock : AccountBlock
  subjectDigest : String
  fieldDigest : String
  deriving DecidableEq

def subjectDigest (subject : Subject) : String :=
  sha.commitment (.arr [.str "zenon-x402-user-send-subject/v1", snapshotSubject.encode subject])

def fieldDigest (block : AccountBlock) : String :=
  sha.commitment (.arr [.str "zenon-x402-unsigned-user-send-fields/v1",
    accountBlockCodec.encode block])

/-- The subject and the plasma that are selected are those of the block. -/
def snapshotZenonUnsignedUserSendFields (input : Value) : Except PlannerError UnsignedFields := do
  let accountBlock ← accountBlockCodec.decode input
  return ⟨accountBlock, subjectDigest sha accountBlock.subject, fieldDigest sha accountBlock⟩

/-! ### The hash -/

/-- The bytes of the two addresses and of the token standard. -/
structure Cores where
  address : Octets
  toAddress : Octets
  tokenStandard : Octets
  deriving DecidableEq

def decodeZenonUserSendHashCores (addressText toAddressText tokenStandardText : String) :
    Option Cores := do
  let address ← Zenon.address (units addressText)
  let toAddress ← Zenon.address (units toAddressText)
  let tokenStandard ← tokenStandardCore (units tokenStandardText)
  return ⟨address, toAddress, tokenStandard⟩

/-- The cores of a block. -/
def hashCores (block : AccountBlock) : Option Cores :=
  decodeZenonUserSendHashCores block.subject.address.1 block.subject.toAddress.1
  block.subject.tokenStandard.1

/-- The bytes of a number from the last one on, and what does not fit. -/
def bytesBE : Nat → Nat → Octets × Nat
  | 0, integer => ([], integer)
  | width + 1, integer =>
    let (front, rest) := bytesBE width (integer / 256)
    (front ++ [BitVec.ofNat 8 integer], rest)

def unsignedBE (value : Int) (width : Nat) : Option Octets :=
  if value < 0 then none
  else
    let (bytes, integer) := bytesBE width value.toNat
    if integer ≠ 0 then none else some bytes

/-- `BigInt(text)` of a decimal text. -/
def bigInt (text : String) : Int := Nat.ofDigitChars 10 text.toList 0

/-- `Buffer.from(text, 'base64')` of canonical text. -/
def dataBytes (text : String) : Octets := ((base64Bytes? text).getD []).map (BitVec.ofNat 8)

/-- What is hashed of a block. -/
def preimage (block : AccountBlock) : Option Octets := do
  let cores ← hashCores block
  let version ← unsignedBE 1 8
  let chainIdentifier ← unsignedBE block.subject.chainIdentifier.1.1 8
  let blockType ← unsignedBE 2 8
  let height ← unsignedBE block.subject.height.1.1 8
  let momentumHeight ← unsignedBE block.subject.momentumAcknowledged.height.1.1 8
  let amount ← unsignedBE (bigInt block.subject.amount.1) 32
  let fusedPlasma ← unsignedBE block.fusedPlasma.1 8
  let difficulty ← unsignedBE block.difficulty.1 8
  let preimage := version ++ chainIdentifier ++ blockType
    ++ unhex block.subject.previousHash.1 ++ height
    ++ unhex block.subject.momentumAcknowledged.hash.1 ++ momentumHeight ++ cores.address
    ++ cores.toAddress ++ amount
    ++ cores.tokenStandard ++ unhex ZERO_HASH ++ sha3.digest []
    ++ sha3.digest (dataBytes block.subject.data.1)
    ++ fusedPlasma ++ difficulty ++ unhex block.nonce.1
  if preimage.length ≠ 306 then none else some preimage

def computeUnsignedHashFromSnapshot (block : AccountBlock) : Option String :=
  (preimage sha3 block).map fun bytes => hex (sha3.digest bytes)

def computeZenonUnsignedUserSendHash (input : Value) : Except PlannerError String := do
  let fields ← snapshotZenonUnsignedUserSendFields sha input
  match computeUnsignedHashFromSnapshot sha3 fields.accountBlock with
  | some computed => .ok computed
  | none => .error rejectBinding

structure HashValidation where
  computedHash : String
  accountBlock : AccountBlock
  subjectDigest : String
  fieldDigest : String
  deriving DecidableEq

def validateZenonUnsignedUserSendHash (input : Value) : Except PlannerError HashValidation := do
  let fields ← snapshotZenonUnsignedUserSendFields sha input
  match computeUnsignedHashFromSnapshot sha3 fields.accountBlock with
  | some computedHash =>
    if fields.accountBlock.hash.1 ≠ computedHash then .error rejectBinding
    else .ok ⟨computedHash, fields.accountBlock, fields.subjectDigest, fields.fieldDigest⟩
  | none => .error rejectBinding

end

/-! ### The preimage is defined -/

theorem bytesBE_eq : ∀ width integer, bytesBE width integer
    = (toBig width integer, integer / 256 ^ width)
  | 0, integer => by rw [bytesBE, Nat.pow_zero, Nat.div_one]; rfl
  | width + 1, integer => by
    rw [bytesBE, bytesBE_eq width]
    refine Prod.ext ?_ ?_
    · rw [toBig, toBig, toLittle, List.reverse_cons]
    · exact (Nat.div_div_eq_div_mul ..).trans (by rw [Nat.pow_succ'])

/-- A number that fits is written in as many bytes. -/
theorem unsignedBE_some {n width : Nat} (h : n < 256 ^ width) :
    unsignedBE n width = some (toBig width n) := by
  have hfits : n / 256 ^ width = 0 := Nat.div_eq_of_lt h
  simp only [unsignedBE, bytesBE_eq, Int.toNat_natCast, hfits, ne_eq, not_true_eq_false, if_false]
  rw [if_neg (by omega)]

variable (sha3 : Sha3)

theorem isAddress_iff {s : String} : isAddress s = true ↔ ∃ core, address (units s) = some core :=
  Option.isSome_iff_exists

/-- A block has cores if its token standard has. -/
theorem cores_some (block : AccountBlock) : (∃ cores, hashCores block = some cores)
    ↔ ∃ core, tokenStandardCore (units block.subject.tokenStandard.1) = some core := by
  obtain ⟨from', hfrom⟩ := isAddress_iff.mp block.subject.address.2
  obtain ⟨to', hto⟩ := isAddress_iff.mp block.subject.toAddress.2
  simp [hashCores, decodeZenonUserSendHashCores, hfrom, hto, Option.bind_eq_some_iff]

theorem hashCores_iff {block : AccountBlock} {cores : Cores} : hashCores block = some cores ↔
    address (units block.subject.address.1) = some cores.address
      ∧ address (units block.subject.toAddress.1) = some cores.toAddress
      ∧ tokenStandardCore (units block.subject.tokenStandard.1) = some cores.tokenStandard := by
  simp only [hashCores, decodeZenonUserSendHashCores, Option.bind_eq_bind, Option.bind_eq_some_iff,
    Option.pure_def, Option.some.injEq]
  constructor
  · rintro ⟨_, hfrom, _, hto, _, htoken, rfl⟩
    exact ⟨hfrom, hto, htoken⟩
  · rintro ⟨hfrom, hto, htoken⟩
    exact ⟨_, hfrom, _, hto, _, htoken, rfl⟩

/-- The fields of a block at their widths, one after the other. -/
def layout (block : AccountBlock) (cores : Cores) : Octets :=
  toBig 8 1 ++ toBig 8 block.subject.chainIdentifier.1.1 ++ toBig 8 2
    ++ unhex block.subject.previousHash.1
    ++ toBig 8 block.subject.height.1.1 ++ unhex block.subject.momentumAcknowledged.hash.1
    ++ toBig 8 block.subject.momentumAcknowledged.height.1.1 ++ cores.address ++ cores.toAddress
    ++ toBig 32 (Nat.ofDigitChars 10 block.subject.amount.1.toList 0) ++ cores.tokenStandard
    ++ unhex ZERO_HASH ++ sha3.digest []
    ++ sha3.digest (dataBytes block.subject.data.1) ++ toBig 8 block.fusedPlasma.1
    ++ toBig 8 block.difficulty.1
    ++ unhex block.nonce.1

theorem amount_lt (amount : {s : String // Journal.validateAmount s = true}) :
    Nat.ofDigitChars 10 amount.1.toList 0 < 256 ^ 32 := by
  have h := amount.2
  simp only [Journal.validateAmount, Journal.MAX_ZENON_AMOUNT, Bool.and_eq_true] at h
  have hle : Nat.ofDigitChars 10 amount.1.toList 0 ≤ 2 ^ 255 - 1 := of_decide_eq_true h.2
  exact hle.trans_lt (by decide)

theorem length_hash (hash : Hash) : (unhex hash.1).length = 32 := (hex_unhex (n := 32) hash.2).2

theorem length_nonce (nonce : {s : String // isNonce s = true}) : (unhex nonce.1).length = 8 :=
  (hex_unhex (n := 8) nonce.2).2

theorem length_cores {block : AccountBlock} {cores : Cores} (h : hashCores block = some cores) :
    cores.address.length = 20 ∧ cores.toAddress.length = 20 ∧ cores.tokenStandard.length = 10 := by
  obtain ⟨hfrom, hto, htoken⟩ := hashCores_iff.mp h
  exact ⟨(address_iff.mp hfrom).1.length, (address_iff.mp hto).1.length,
    (tokenStandardCore_iff.mp htoken).1⟩

/-- **Preimage.** No encoder overflows, and the fields fill 306 bytes. -/
theorem preimage_some {block : AccountBlock} {cores : Cores} (h : hashCores block = some cores) :
    preimage sha3 block = some (layout sha3 block cores)
      ∧ (layout sha3 block cores).length = 306 := by
  have hamount (n : Amount) : n.1 < 256 ^ 8 := n.2.trans_lt (by decide)
  have hzero : (unhex ZERO_HASH).length = 32 := (hex_unhex (n := 32) (by decide)).2
  obtain ⟨hfrom, hto, htoken⟩ := length_cores h
  have hlength : (layout sha3 block cores).length = 306 := by
    simp only [layout, List.length_append, length_toBig, length_hash, length_nonce,
      sha3.length_digest, hfrom, hto, htoken, hzero]
  refine ⟨?_, hlength⟩
  have hone : unsignedBE 1 8 = some (toBig 8 1) := by decide
  have htwo : unsignedBE 2 8 = some (toBig 8 2) := by decide
  simp only [preimage, h, hone, htwo, unsignedBE_some (hamount _), bigInt,
    unsignedBE_some (amount_lt _), Option.bind_eq_bind, Option.bind_some]
  exact if_neg (not_not.mpr hlength)

theorem computeUnsignedHash_some {block : AccountBlock} {cores : Cores}
    (h : hashCores block = some cores) :
    computeUnsignedHashFromSnapshot sha3 block
      = some (hex (sha3.digest (layout sha3 block cores))) := by
  rw [computeUnsignedHashFromSnapshot, (preimage_some sha3 h).1, Option.map_some]

end Zenon
end ZenonX402
