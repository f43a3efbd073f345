/-
# Two encoders of a hash

What is hashed of a block is put together twice: by the planner from the block's fields, and
by the payment code from a block of the SDK, with encoders of its own. For a block that is
admitted and has cores the two are one text of 306 bytes (`blockPreimage_eq`), and none of
the encoders of numbers overflows (`unsignedBE_admitted`).

Each field stands at a place of its own, at a width of its own, so the text is known by no
other block: the fields are read back from it, but for the data, of which only the digest
is in it (`layout_inj`).

Key definitions: `SdkBlock`, `Sdk`, `Documented`, `uintBE`, `blockPreimage`, `computeBlockHash`.
Key theorems: `unsignedBE_admitted`, `blockPreimage_eq`, `computeBlockHash_eq`, `layout_inj`.
-/
import ZenonX402.Zenon.Texts
import ZenonX402.Lib.Decimal

namespace ZenonX402
namespace Zenon

open CodeUnits Js Octets Value Bech32

/-! ### The SDK -/

/-- A block of the SDK, as far as its hash reads it: numbers, what `getBytes` tells of its parts,
and the text of its amount. -/
structure SdkBlock where
  version : Int
  chainIdentifier : Int
  blockType : Int
  previousHash : Octets
  height : Int
  momentumAcknowledged : Octets
  address : Octets
  toAddress : Octets
  amount : String
  tokenStandard : Octets
  fromBlockHash : Octets
  data : Octets
  fusedPlasma : Int
  difficulty : Int
  nonce : String
  deriving DecidableEq

/-- What is taken from the SDK: the bytes of `Hash.digest`, and `AccountBlockTemplate.fromJson`,
which throws on some values. -/
structure Sdk where
  digest : Octets → Octets
  fromJson : Value → Option SdkBlock

/-- What the SDK is known to do: a block has the numbers of its JSON, hashes are the bytes of their
digits, an acknowledged momentum those of its hash and of its height, addresses and token standards
what their texts encode. -/
structure Documented (sdk : Sdk) (sha3 : Sha3) : Prop where
  digest : ∀ message, sdk.digest message = sha3.digest message
  version : ∀ {json b n}, sdk.fromJson json = some b → Journal.get json "version"
    = .num n → b.version = n
  chainIdentifier : ∀ {json b n}, sdk.fromJson json = some b → Journal.get json "chainIdentifier"
    = .num n → b.chainIdentifier = n
  blockType : ∀ {json b n}, sdk.fromJson json = some b → Journal.get json "blockType" = .num n →
    b.blockType = n
  height : ∀ {json b n}, sdk.fromJson json = some b → Journal.get json "height"
    = .num n → b.height = n
  fusedPlasma : ∀ {json b n}, sdk.fromJson json = some b → Journal.get json "fusedPlasma" = .num n →
    b.fusedPlasma = n
  difficulty : ∀ {json b n}, sdk.fromJson json = some b → Journal.get json "difficulty" = .num n →
    b.difficulty = n
  previousHash : ∀ {json b s}, sdk.fromJson json = some b → Journal.get json "previousHash"
    = .str s → Text.isHash s = true →
    b.previousHash = unhex s
  fromBlockHash : ∀ {json b s}, sdk.fromJson json = some b → Journal.get json "fromBlockHash"
    = .str s → Text.isHash s = true →
    b.fromBlockHash = unhex s
  momentumAcknowledged : ∀ {json b s} {n : Nat}, sdk.fromJson json = some b →
    Journal.get (Journal.get json "momentumAcknowledged") "hash" = .str s → Text.isHash s = true →
    Journal.get (Journal.get json "momentumAcknowledged") "height" = .num n → b.momentumAcknowledged
      = unhex s ++ toBig 8 n
  address : ∀ {json b s core}, sdk.fromJson json = some b → Journal.get json "address" = .str s →
    UserCore core →
    IsEncoding (units "z") core (units s) → b.address = core
  toAddress : ∀ {json b s core}, sdk.fromJson json = some b → Journal.get json "toAddress"
    = .str s → UserCore core →
    IsEncoding (units "z") core (units s) → b.toAddress = core
  tokenStandard : ∀ {json b s core}, sdk.fromJson json = some b → Journal.get json "tokenStandard"
    = .str s → core.length = 10 →
    IsEncoding (units "zts") core (units s) → b.tokenStandard = core
  amount : ∀ {json b s}, sdk.fromJson json = some b → Journal.get json "amount" = .str s →
    Text.isPositiveDecimal s = true →
    b.amount = s
  data : ∀ {json b} {bytes : Octets}, sdk.fromJson json = some b →
    Journal.get json "data" = .str (base64Text (bytes.map BitVec.toNat)) → b.data = bytes
  nonce : ∀ {json b s}, sdk.fromJson json = some b → Journal.get json "nonce" = .str s → b.nonce = s

inductive HashError where
  | negative_hash_integer
  | oversized_hash_integer
  deriving DecidableEq

def uintBE (value : Int) (bytes : Nat) : Except HashError Octets :=
  if value < 0 then .error .negative_hash_integer
  else
    let (output, integer) := bytesBE bytes value.toNat
    if integer ≠ 0 then .error .oversized_hash_integer else .ok output

/-- What `computeBlockHash` concatenates. -/
def blockPreimage (block : SdkBlock) (sdk : Sdk) : Except HashError Octets := do
  let emptyHash := sdk.digest []
  let dataHash := sdk.digest block.data
  let version ← uintBE block.version 8
  let chainIdentifier ← uintBE block.chainIdentifier 8
  let blockType ← uintBE block.blockType 8
  let height ← uintBE block.height 8
  let amount ← uintBE (bigInt block.amount) 32
  let fusedPlasma ← uintBE block.fusedPlasma 8
  let difficulty ← uintBE block.difficulty 8
  return version ++ chainIdentifier ++ blockType ++ block.previousHash ++ height
    ++ block.momentumAcknowledged ++ block.address
    ++ block.toAddress ++ amount ++ block.tokenStandard ++ block.fromBlockHash ++ emptyHash
    ++ dataHash ++ fusedPlasma ++ difficulty
    ++ unhex block.nonce

def computeBlockHash (block : SdkBlock) (sdk : Sdk) : Except HashError Octets := do
  let preimage ← blockPreimage block sdk
  return sdk.digest preimage

/-! ### The encoders agree -/

/-- The fields that are hashed. -/
def HASHED_FIELDS : List String :=
  ["version", "chainIdentifier", "blockType", "previousHash", "height", "momentumAcknowledged",
    "address", "toAddress", "amount", "tokenStandard", "fromBlockHash", "data", "fusedPlasma",
    "difficulty", "nonce"]

/-- A JSON of a block, whatever its hash, key and signature. -/
def Carries (json : Value) (block : AccountBlock) : Prop :=
  ∀ key ∈ HASHED_FIELDS, Journal.get json key = Journal.get (accountBlockCodec.encode block) key

theorem amount_fits (n : Amount) : n.1 < 256 ^ 8 := n.2.trans_lt (by decide)

/-- **Encoders.** No number of an admitted block is too large for its bytes. -/
theorem unsignedBE_admitted (block : AccountBlock) :
    (∀ n ∈ [1, block.subject.chainIdentifier.1.1, 2, block.subject.height.1.1,
      block.subject.momentumAcknowledged.height.1.1, block.fusedPlasma.1, block.difficulty.1],
      unsignedBE n 8 = some (toBig 8 n))
    ∧ unsignedBE (bigInt block.subject.amount.1) 32
      = some (toBig 32 (Nat.ofDigitChars 10 block.subject.amount.1.toList 0)) := by
  refine ⟨fun n hn => unsignedBE_some ?_, unsignedBE_some (amount_lt _)⟩
  simp only [List.mem_cons, List.not_mem_nil, or_false] at hn
  rcases hn with rfl | rfl | rfl | rfl | rfl | rfl | rfl
  · decide
  · exact amount_fits _
  · decide
  · exact amount_fits _
  · exact amount_fits _
  · exact amount_fits _
  · exact amount_fits _

theorem uintBE_ok {n width : Nat} (h : n < 256 ^ width) : uintBE n width = .ok (toBig width n) := by
  have hfits : n / 256 ^ width = 0 := Nat.div_eq_of_lt h
  simp only [uintBE, bytesBE_eq, Int.toNat_natCast, hfits, ne_eq, not_true_eq_false, if_false]
  rw [if_neg (by omega)]

theorem isPositiveDecimal_amount (amount : {s : String // Journal.validateAmount s = true}) :
    Text.isPositiveDecimal amount.1 = true := by
  have h := amount.2
  simp only [Journal.validateAmount, Bool.and_eq_true] at h
  exact h.1.2

theorem dataBytes_base64Text (bytes : Octets) :
    dataBytes (base64Text (bytes.map BitVec.toNat)) = bytes := by
  have hbytes : ∀ b ∈ bytes.map BitVec.toNat, b < 256 := by
    intro b hb
    obtain ⟨x, -, rfl⟩ := List.mem_map.mp hb
    exact x.isLt
  rw [dataBytes, base64Bytes?_base64Text hbytes, Option.getD_some, List.map_map]
  refine (List.map_congr_left fun b _ => ?_).trans (List.map_id bytes)
  rw [Function.comp_apply, BitVec.ofNat_toNat, BitVec.setWidth_eq, id]

/-- The data of a block are 32 bytes, in the one text they have. -/
theorem data_bytes (data : {s : String // isData s = true}) : ∃ bytes : Octets, bytes.length = 32
    ∧ data.1 = base64Text (bytes.map BitVec.toNat) ∧ dataBytes data.1 = bytes := by
  obtain ⟨_, hunit⟩ := Option.isSome_iff_exists.mp data.2
  obtain ⟨bytes, hlength, hunits⟩ := base64Data_iff.mp hunit
  have htext := units_inj hunits
  exact ⟨bytes, hlength, htext, by rw [htext, dataBytes_base64Text]⟩

variable {sha3 : Sha3} {sdk : Sdk}

/-- The fields of a JSON of a block. -/
theorem carried {json : Value} {block : AccountBlock} (h : Carries json block) :
    Journal.get json "version" = .num 1 ∧ Journal.get json "chainIdentifier"
      = .num block.subject.chainIdentifier.1.1
      ∧ Journal.get json "blockType" = .num 2 ∧ Journal.get json "previousHash"
      = .str block.subject.previousHash.1
      ∧ Journal.get json "height" = .num block.subject.height.1.1
      ∧ Journal.get json "momentumAcknowledged"
      = acknowledged.encode block.subject.momentumAcknowledged
      ∧ Journal.get json "address" = .str block.subject.address.1 ∧ Journal.get json "toAddress"
      = .str block.subject.toAddress.1
      ∧ Journal.get json "amount" = .str block.subject.amount.1
      ∧ Journal.get json "tokenStandard" = .str block.subject.tokenStandard.1
      ∧ Journal.get json "fromBlockHash" = .str ZERO_HASH ∧ Journal.get json "data"
      = .str block.subject.data.1
      ∧ Journal.get json "fusedPlasma" = .num block.fusedPlasma.1 ∧ Journal.get json "difficulty"
      = .num block.difficulty.1
      ∧ Journal.get json "nonce" = .str block.nonce.1 := by
  have hfield {key : String} {w : Value} (hkey : key ∈ HASHED_FIELDS)
      (hw : Journal.get (accountBlockCodec.encode block) key = w) :
      Journal.get json key = w := (h key hkey).trans hw
  rw [accountBlock_encode] at hfield
  exact ⟨hfield (by decide) rfl, hfield (by decide) rfl, hfield (by decide) rfl,
    hfield (by decide) rfl, hfield (by decide) rfl, hfield (by decide) rfl, hfield (by decide) rfl,
    hfield (by decide) rfl, hfield (by decide) rfl, hfield (by decide) rfl,
    hfield (by decide) rfl, hfield (by decide) rfl, hfield (by decide) rfl, hfield (by decide) rfl,
    hfield (by decide) rfl⟩

/-- **One preimage.** What the payment code hashes of a block of the SDK is what the planner hashes
of the block. -/
theorem blockPreimage_eq {json : Value} {b : SdkBlock} {block : AccountBlock} {cores : Cores}
    (hsdk : Documented sdk sha3) (hjson : sdk.fromJson json = some b)
    (hcarries : Carries json block) (hcores : hashCores block = some cores) :
    blockPreimage b sdk = .ok (layout sha3 block cores) := by
  obtain ⟨hversion, hchain, htype, hprevious, hheight, hmomentum, hfrom, hto, hamount, htoken,
    hzero, hdata, hfused, hdifficulty, hnonce⟩ := carried hcarries
  obtain ⟨hfromCore, htoCore, htokenCore⟩ := hashCores_iff.mp hcores
  obtain ⟨hfromUser, hfromText⟩ := address_iff.mp hfromCore
  obtain ⟨htoUser, htoText⟩ := address_iff.mp htoCore
  obtain ⟨htokenLength, htokenText⟩ := tokenStandardCore_iff.mp htokenCore
  obtain ⟨bytes, -, hdataText, hdataBytes⟩ := data_bytes block.subject.data
  have hmomentumHash : Journal.get (Journal.get json "momentumAcknowledged") "hash"
      = .str block.subject.momentumAcknowledged.hash.1 := by rw [hmomentum]; rfl
  have hmomentumHeight : Journal.get (Journal.get json "momentumAcknowledged") "height"
      = .num (block.subject.momentumAcknowledged.height.1.1 : Nat) := by rw [hmomentum]; rfl
  have hone : uintBE 1 8 = .ok (toBig 8 1) := uintBE_ok (by decide)
  have htwo : uintBE 2 8 = .ok (toBig 8 2) := uintBE_ok (by decide)
  have hbase64 : Journal.get json "data"
      = .str (base64Text (bytes.map BitVec.toNat)) := by rw [hdata, hdataText]
  simp only [blockPreimage, hsdk.version hjson hversion, hsdk.chainIdentifier hjson hchain,
    hsdk.blockType hjson htype, hsdk.height hjson hheight, hsdk.fusedPlasma hjson hfused,
    hsdk.difficulty hjson hdifficulty,
    hsdk.previousHash hjson hprevious block.subject.previousHash.2,
    hsdk.fromBlockHash hjson hzero (by decide),
    hsdk.momentumAcknowledged hjson hmomentumHash block.subject.momentumAcknowledged.hash.2
    hmomentumHeight,
    hsdk.address hjson hfrom hfromUser hfromText, hsdk.toAddress hjson hto htoUser htoText,
    hsdk.tokenStandard hjson htoken htokenLength htokenText,
    hsdk.amount hjson hamount (isPositiveDecimal_amount block.subject.amount),
    hsdk.data hjson hbase64, hsdk.nonce hjson hnonce,
    hsdk.digest, hone, htwo, uintBE_ok (amount_fits _), bigInt, uintBE_ok (amount_lt _), bind,
    Except.bind, pure, Except.pure,
    layout, hdataBytes, List.append_assoc]

/-- The two codes compute one hash. -/
theorem computeBlockHash_eq {json : Value} {b : SdkBlock} {block : AccountBlock} {cores : Cores}
    (hsdk : Documented sdk sha3) (hjson : sdk.fromJson json = some b)
    (hcarries : Carries json block) (hcores : hashCores block = some cores) :
    ∃ digest, computeBlockHash b sdk = .ok digest ∧ computeUnsignedHashFromSnapshot sha3 block
      = some (hex digest) := by
  refine ⟨sha3.digest (layout sha3 block cores), ?_, computeUnsignedHash_some sha3 hcores⟩
  simp only [computeBlockHash, blockPreimage_eq hsdk hjson hcarries hcores, bind, Except.bind, pure,
    Except.pure, hsdk.digest]

/-! ### Each field is bound -/

/-- An address is known by its core. -/
theorem address_inj {s t : String} {core : Octets} (hs : address (units s) = some core)
    (ht : address (units t) = some core) :
    s = t :=
  units_inj ((existsUnique_encoding (units "z") core).unique (address_iff.mp hs).2
    (address_iff.mp ht).2)

theorem tokenStandard_inj {s t : String} {core : Octets}
    (hs : tokenStandardCore (units s) = some core) (ht : tokenStandardCore (units t) = some core) :
    s = t :=
  units_inj ((existsUnique_encoding (units "zts") core).unique (tokenStandardCore_iff.mp hs).2
    (tokenStandardCore_iff.mp ht).2)

theorem amountText_inj {a a' : {s : String // Journal.validateAmount s = true}}
    (h : toBig 32 (Nat.ofDigitChars 10 a.1.toList 0)
      = toBig 32 (Nat.ofDigitChars 10 a'.1.toList 0)) : a = a' :=
  Subtype.ext (Text.positiveDecimal_inj (isPositiveDecimal_amount a) (isPositiveDecimal_amount a')
    (toBig_inj (amount_lt a) (amount_lt a') h))

theorem amount_inj {n m : Amount} (h : toBig 8 n.1 = toBig 8 m.1) : n = m :=
  Subtype.ext (toBig_inj (amount_fits n) (amount_fits m) h)

theorem positive_inj {n m : Positive} (h : toBig 8 n.1.1 = toBig 8 m.1.1) : n = m :=
  Subtype.ext (amount_inj h)

theorem hash_inj {h h' : Hash} (heq : unhex h.1 = unhex h'.1) : h = h' :=
  Subtype.ext (unhex_inj (n := 32) h.2 h'.2 heq)

theorem data_inj {data data' : {s : String // isData s = true}}
    (h : dataBytes data.1 = dataBytes data'.1) : data = data' := by
  obtain ⟨bytes, -, htext, hbytes⟩ := data_bytes data
  obtain ⟨bytes', -, htext', hbytes'⟩ := data_bytes data'
  rw [hbytes, hbytes'] at h
  exact Subtype.ext (by rw [htext, htext', h])

/-- **Injective.** Blocks with one preimage are equal but for their hash and key, unless the digests
of their data collide. -/
theorem layout_inj {block block' : AccountBlock} {cores cores' : Cores}
    (hcores : hashCores block = some cores) (hcores' : hashCores block' = some cores')
    (h : layout sha3 block cores = layout sha3 block' cores')
    (hcollision : sha3.digest (dataBytes block.subject.data.1)
      = sha3.digest (dataBytes block'.subject.data.1) →
      dataBytes block.subject.data.1 = dataBytes block'.subject.data.1) :
    block.subject = block'.subject ∧ block.fusedPlasma = block'.fusedPlasma ∧ block.difficulty
      = block'.difficulty
      ∧ block.nonce = block'.nonce := by
  obtain ⟨hfrom, hto, htoken⟩ := hashCores_iff.mp hcores
  obtain ⟨hfrom', hto', htoken'⟩ := hashCores_iff.mp hcores'
  obtain ⟨hlfrom, hlto, hltoken⟩ := length_cores hcores
  obtain ⟨hlfrom', hlto', hltoken'⟩ := length_cores hcores'
  unfold layout at h
  obtain ⟨h, hnonce⟩ := List.append_inj' h (by rw [length_nonce, length_nonce])
  obtain ⟨h, hdifficulty⟩ := List.append_inj' h (by rw [length_toBig, length_toBig])
  obtain ⟨h, hfused⟩ := List.append_inj' h (by rw [length_toBig, length_toBig])
  obtain ⟨h, hdata⟩ := List.append_inj' h (by rw [sha3.length_digest, sha3.length_digest])
  obtain ⟨h, -⟩ := List.append_inj' h rfl
  obtain ⟨h, -⟩ := List.append_inj' h rfl
  obtain ⟨h, htokenCore⟩ := List.append_inj' h (by rw [hltoken, hltoken'])
  obtain ⟨h, hamount⟩ := List.append_inj' h (by rw [length_toBig, length_toBig])
  obtain ⟨h, htoCore⟩ := List.append_inj' h (by rw [hlto, hlto'])
  obtain ⟨h, hfromCore⟩ := List.append_inj' h (by rw [hlfrom, hlfrom'])
  obtain ⟨h, hmomentumHeight⟩ := List.append_inj' h (by rw [length_toBig, length_toBig])
  obtain ⟨h, hmomentumHash⟩ := List.append_inj' h (by rw [length_hash, length_hash])
  obtain ⟨h, hheight⟩ := List.append_inj' h (by rw [length_toBig, length_toBig])
  obtain ⟨h, hprevious⟩ := List.append_inj' h (by rw [length_hash, length_hash])
  obtain ⟨h, -⟩ := List.append_inj' h rfl
  obtain ⟨-, hchain⟩ := List.append_inj' h (by rw [length_toBig, length_toBig])
  rw [hfromCore] at hfrom
  rw [htoCore] at hto
  rw [htokenCore] at htoken
  have hmomentum : block.subject.momentumAcknowledged = block'.subject.momentumAcknowledged := by
    have hh := hash_inj hmomentumHash
    have hn := positive_inj hmomentumHeight
    cases hm : block.subject.momentumAcknowledged
    cases hm' : block'.subject.momentumAcknowledged
    rw [hm, hm'] at hh hn
    exact congrArg₂ Acknowledged.mk hh hn
  refine ⟨?_, amount_inj hfused, amount_inj hdifficulty,
    Subtype.ext (unhex_inj (n := 8) block.nonce.2 block'.nonce.2 hnonce)⟩
  have hsubject (s s' : Subject) (h1 : s.chainIdentifier = s'.chainIdentifier)
      (h2 : s.previousHash = s'.previousHash)
      (h3 : s.height = s'.height) (h4 : s.momentumAcknowledged = s'.momentumAcknowledged)
      (h5 : s.address = s'.address)
      (h6 : s.toAddress = s'.toAddress) (h7 : s.amount = s'.amount)
      (h8 : s.tokenStandard = s'.tokenStandard)
      (h9 : s.data = s'.data) : s = s' := by
    cases s
    cases s'
    simp_all
  exact hsubject _ _ (positive_inj hchain) (hash_inj hprevious) (positive_inj hheight) hmomentum
    (Subtype.ext (address_inj hfrom hfrom')) (Subtype.ext (address_inj hto hto'))
    (amountText_inj hamount)
    (Subtype.ext (tokenStandard_inj htoken htoken')) (data_inj (hcollision hdata))

end Zenon
end ZenonX402
