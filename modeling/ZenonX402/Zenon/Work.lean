/-
# Work for a user send

A nonce is work if the first eight bytes of its digest with the data hash, read from the
lowest, reach a threshold. The search tries the nonces from a cursor on, up to a number of
attempts and not past the last one (`searchLoop`), and has the nonce it finds checked by
the validator of finished blocks. That check never fails (`verified_candidate`), so the
search is the search of `Lib.Search` (`searchLoop_eq`): it finds the first nonce that is
work, and can be resumed (`search_exact`).

Key definitions: `deriveZenonUserSendWorkInput`, `validateZenonUnsignedUserSendWork`,
`searchZenonUnsignedUserSendNonce`, `isWork`, `Exact`, `Continues`.
Key theorems: `verified_candidate`, `searchLoop_eq`, `search_exact`.
-/
import ZenonX402.Zenon.Block
import ZenonX402.Lib.Search
import ZenonX402.Lib.Sha2

namespace ZenonX402
namespace Zenon

open CodeUnits Js Octets

def RANGE : Nat := 2 ^ 64

def ZERO_NONCE : String := String.ofList (List.replicate 16 '0')

inductive WorkError where
  | zenon_user_send_work_input_rejected
  deriving DecidableEq

inductive SearchError where
  | zenon_user_send_nonce_search_input_rejected
  deriving DecidableEq

section

variable (sha : Sha256) (sha3 : Sha3)

/-! ### The input of the work -/

structure WorkInput where
  dataHash : String
  difficulty : Amount
  address : String
  previousHash : String
  subjectDigest : String
  fieldDigest : String
  deriving DecidableEq

def deriveZenonUserSendWorkInput (input : Value) : Except WorkError WorkInput :=
  match snapshotZenonUnsignedUserSendFields sha input with
  | .error _ => .error .zenon_user_send_work_input_rejected
  | .ok fields =>
    let block := fields.accountBlock
    match hashCores block with
    | none => .error .zenon_user_send_work_input_rejected
    | some cores =>
      let preimage := cores.address ++ unhex block.subject.previousHash.1
      if preimage.length ≠ 52 then .error .zenon_user_send_work_input_rejected
      else .ok ⟨hex (sha3.digest preimage), block.difficulty, block.subject.address.1,
        block.subject.previousHash.1, fields.subjectDigest, fields.fieldDigest⟩

/-! ### Work of a finished block -/

inductive Work where
  | notRequired
  | matchesDeclaredDifficulty (difficulty : Amount) (dataHash nonceDigest : String)
      (value threshold : Nat)
  deriving DecidableEq

/-- The first eight bytes, from the highest to the lowest of them. -/
def digestValue (nonceDigest : Octets) : Nat :=
  (nonceDigest.take 8).reverse.foldl (fun value byte => value <<< 8 ||| byte.toNat) 0

def threshold (difficulty : Nat) : Nat := RANGE - RANGE / difficulty

def checkDeclaredWork (block : AccountBlock) : Except WorkError Work :=
  if block.difficulty.1 = 0 then .ok .notRequired
  else do
    let input ← deriveZenonUserSendWorkInput sha sha3 (accountBlockCodec.encode block)
    let dataHash := unhex input.dataHash
    let nonceDigest := sha3.digest (unhex block.nonce.1 ++ dataHash)
    let value := digestValue nonceDigest
    if value < threshold block.difficulty.1 then .error .zenon_user_send_work_input_rejected
    else .ok (.matchesDeclaredDifficulty block.difficulty (hex dataHash) (hex nonceDigest) value
      (threshold block.difficulty.1))

structure WorkValidation where
  hashBinding : HashValidation
  work : Work
  deriving DecidableEq

def validateZenonUnsignedUserSendWork (input : Value) : Except WorkError WorkValidation :=
  match validateZenonUnsignedUserSendHash sha sha3 input with
  | .error _ => .error .zenon_user_send_work_input_rejected
  | .ok hashBinding => do
    let work ← checkDeclaredWork sha sha3 hashBinding.accountBlock
    return ⟨hashBinding, work⟩

/-! ### The search -/

structure Limits where
  maxAttempts : {n : Nat // n ≤ 4096}
  maxDifficulty : Amount
  deriving DecidableEq

structure SearchInput where
  accountBlock : AccountBlock
  startNonce : {s : String // isNonce s = true}
  limits : Limits
  deriving DecidableEq

def limitsCodec : Codec PlannerError Limits :=
  (object
    (.cons "maxAttempts" (.count 4096 rejectBinding)
    (.cons "maxDifficulty" amount
      .nil)) rejectBinding).equiv
    { toFun := fun (a, b, _) => ⟨a, b⟩
      invFun := fun l => (l.maxAttempts, l.maxDifficulty, ())
      left_inv := fun _ => rfl
      right_inv := fun _ => rfl }

def searchInputCodec : Codec PlannerError SearchInput :=
  (object
    (.const "nonceSearchVersion" (.constNum 1 rejectBinding)
    (.const "phase" (.constStr "UNSIGNED" rejectBinding)
    (.cons "accountBlock" accountBlockCodec
    (.cons "startNonce" (.text isNonce rejectBinding)
    (.cons "limits" limitsCodec
      .nil))))) rejectBinding).equiv
    { toFun := fun (a, b, c, _) => ⟨a, b, c⟩
      invFun := fun i => (i.accountBlock, i.startNonce, i.limits, ())
      left_inv := fun _ => rfl
      right_inv := fun _ => rfl }

inductive SearchStatus where
  | WORK_NOT_REQUIRED
  | FOUND
  | RANGE_EXHAUSTED
  | BUDGET_EXHAUSTED
  deriving DecidableEq

structure Receipt where
  workInput : WorkInput
  limits : Limits
  startNonce : String
  status : SearchStatus
  nonce : Option String
  attempts : Nat
  nextNonce : Option String
  verification : Option Work
  deriving DecidableEq

/-- An object with another value under a key it has. -/
def withField (key : String) (value : Value) : Value → Value
  | .obj fs => .obj (fs.map fun f => if f.1 = key then (key, value) else f)
  | v => v

/-- What the validator of finished blocks says of the block with a nonce. -/
def verifyCandidate (block : AccountBlock) (input : WorkInput) (nonce : String) (digest : Octets) :
    Except SearchError Work :=
  let candidate := withField "nonce" (.str nonce) (accountBlockCodec.encode block)
  match computeZenonUnsignedUserSendHash sha sha3 candidate with
  | .error _ => .error .zenon_user_send_nonce_search_input_rejected
  | .ok hash =>
    match validateZenonUnsignedUserSendWork sha sha3 (withField "hash" (.str hash) candidate) with
    | .error _ => .error .zenon_user_send_nonce_search_input_rejected
    | .ok verified => match verified.work with
      | .notRequired => .error .zenon_user_send_nonce_search_input_rejected
      | .matchesDeclaredDifficulty _ dataHash nonceDigest _ reached =>
        if dataHash ≠ input.dataHash ∨ nonceDigest ≠ hex digest ∨ reached ≠ threshold input.difficulty.1 then
          .error .zenon_user_send_nonce_search_input_rejected
        else .ok verified.work

/-- The loop, with the attempts that are left. -/
def searchLoop (block : AccountBlock) (input : WorkInput)
    (receipt : SearchStatus → Option String → Nat → Option String → Option Work → Receipt) :
    Nat → Nat → Nat → Except SearchError Receipt
  | 0, cursor, attempts =>
      .ok (receipt .BUDGET_EXHAUSTED none attempts (some (hex (toLittle 8 cursor))) none)
  | left + 1, cursor, attempts =>
    let message := toLittle 8 cursor ++ unhex input.dataHash
    let digest := sha3.digest message
    if threshold input.difficulty.1 ≤ ofLittle (digest.take 8) then do
      let nonce := hex (message.take 8)
      let verified ← verifyCandidate sha sha3 block input nonce digest
      return receipt .FOUND (some nonce) (attempts + 1) none (some verified)
    else if cursor = RANGE - 1 then .ok (receipt .RANGE_EXHAUSTED none (attempts + 1) none none)
    else searchLoop block input receipt left (cursor + 1) (attempts + 1)

def searchZenonUnsignedUserSendNonce (input : Value) : Except SearchError Receipt :=
  match searchInputCodec.decode input with
  | .error _ => .error .zenon_user_send_nonce_search_input_rejected
  | .ok top =>
    let block := top.accountBlock
    if block.hash.1 ≠ ZERO_HASH ∨ block.nonce.1 ≠ ZERO_NONCE ∨ block.publicKey.1 ≠ ""
        ∨ top.limits.maxDifficulty.1
        < block.difficulty.1 then .error .zenon_user_send_nonce_search_input_rejected
    else match deriveZenonUserSendWorkInput sha sha3 (accountBlockCodec.encode block) with
      | .error _ => .error .zenon_user_send_nonce_search_input_rejected
      | .ok workInput =>
        let receipt := Receipt.mk workInput top.limits top.startNonce.1
        if workInput.difficulty.1 = 0
          then .ok (receipt .WORK_NOT_REQUIRED (some block.nonce.1) 0 none none)
        else searchLoop sha sha3 block workInput receipt top.limits.maxAttempts.1
          (ofLittle ((unhex top.startNonce.1).take 8)) 0

end

variable {sha : Sha256} {sha3 : Sha3}

/-! ### The nonce that is found is work -/

/-- The hash that the work of a block is done for. -/
def dataHash (sha3 : Sha3) (block : AccountBlock) (cores : Cores) : Octets :=
  sha3.digest (cores.address ++ unhex block.subject.previousHash.1)

/-- The first eight bytes of a nonce's digest reach the threshold. -/
def isWork (sha3 : Sha3) (block : AccountBlock) (cores : Cores) (nonce : Nat) : Bool :=
  decide (threshold block.difficulty.1
    ≤ ofLittle ((sha3.digest (toLittle 8 nonce ++ dataHash sha3 block cores)).take 8))

/-- The bytes from the highest to the lowest are the number that is read from the lowest. -/
theorem digestValue_eq (digest : Octets) : digestValue digest = ofLittle (digest.take 8) := by
  unfold digestValue
  generalize digest.take 8 = bytes
  rw [List.foldl_reverse]
  induction bytes with
  | nil => rfl
  | cons b bytes ih =>
    have hor := Nat.shiftLeft_add_eq_or_of_lt (show b.toNat < 2 ^ 8 from b.isLt) (ofLittle bytes)
    rw [List.foldr_cons, ih, ← hor, Nat.shiftLeft_eq, ofLittle]
    omega

variable {block : AccountBlock} {cores : Cores}

theorem snapshot_encode (block : AccountBlock) :
    snapshotZenonUnsignedUserSendFields sha (accountBlockCodec.encode block)
    = .ok ⟨block, subjectDigest sha block.subject, fieldDigest sha block⟩ := by
  rw [snapshotZenonUnsignedUserSendFields, accountBlockCodec.decode_encode_self]
  rfl

theorem derive_encode (h : hashCores block = some cores) :
    deriveZenonUserSendWorkInput sha sha3 (accountBlockCodec.encode block)
      = .ok ⟨hex (dataHash sha3 block cores), block.difficulty, block.subject.address.1,
        block.subject.previousHash.1, subjectDigest sha block.subject, fieldDigest sha block⟩ := by
  have hlength : (cores.address ++ unhex block.subject.previousHash.1).length = 52 := by
    rw [List.length_append, (length_cores h).1, length_hash]
  simp only [deriveZenonUserSendWorkInput, snapshot_encode, h, hlength, ne_eq,
    not_true_eq_false, if_false]
  rfl

theorem isHash_hex {bytes : Octets} (h : bytes.length = 32) : Text.isHash (hex bytes) = true := by
  have hall := allOf_hex bytes
  rwa [h] at hall

theorem isNonce_hex (n : Nat) : isNonce (hex (toLittle 8 n)) = true := by
  have hall := allOf_hex (toLittle 8 n)
  rwa [length_toLittle] at hall

/-- The work that the validator of finished blocks finds in a block with a nonce. -/
def workOf (sha3 : Sha3) (block : AccountBlock) (cores : Cores) (nonce : Nat) : Work :=
  .matchesDeclaredDifficulty block.difficulty (hex (dataHash sha3 block cores))
    (hex (sha3.digest (toLittle 8 nonce ++ dataHash sha3 block cores)))
    (ofLittle ((sha3.digest (toLittle 8 nonce ++ dataHash sha3 block cores)).take 8))
    (threshold block.difficulty.1)

theorem withField_nonce (nonce : {s : String // isNonce s = true}) :
    withField "nonce" (.str nonce.1) (accountBlockCodec.encode block)
      = accountBlockCodec.encode { block with nonce := nonce } := by
  simp [accountBlock_encode, withField]

theorem withField_hash (hash : Hash) :
    withField "hash" (.str hash.1) (accountBlockCodec.encode block)
      = accountBlockCodec.encode { block with hash := hash } := by
  simp [accountBlock_encode, withField]

/-- A block with its own hash is consistent. -/
theorem validate_computed (h : hashCores block = some cores) : ∃ hash : Hash,
    computeZenonUnsignedUserSendHash sha sha3 (accountBlockCodec.encode block) = .ok hash.1
      ∧ validateZenonUnsignedUserSendHash sha sha3
      (accountBlockCodec.encode { block with hash := hash })
        = .ok ⟨hash.1, { block with hash := hash }, subjectDigest sha block.subject,
          fieldDigest sha { block with hash := hash }⟩ := by
  obtain ⟨hash, hhash⟩ : ∃ hash : Hash, computeUnsignedHashFromSnapshot sha3 block = some hash.1 :=
    ⟨⟨_, isHash_hex (sha3.length_digest _)⟩, computeUnsignedHash_some sha3 h⟩
  have hsame : computeUnsignedHashFromSnapshot sha3 { block with hash := hash }
    = some hash.1 := hhash
  refine ⟨hash, ?_, ?_⟩
  · rw [computeZenonUnsignedUserSendHash, snapshot_encode]
    simp only [bind, Except.bind, hhash]
  · rw [validateZenonUnsignedUserSendHash, snapshot_encode]
    simp only [bind, Except.bind, hsame, ne_eq, not_true_eq_false, if_false]

/-- A nonce that is work passes the check of the work. -/
theorem checkDeclaredWork_work (h : hashCores block = some cores)
    (hpositive : block.difficulty.1 ≠ 0) {n : Nat} (hnonce : unhex block.nonce.1 = toLittle 8 n)
    (hwork : isWork sha3 block cores n = true) :
    checkDeclaredWork sha sha3 block = .ok (workOf sha3 block cores n) := by
  have hreached := of_decide_eq_true hwork
  rw [checkDeclaredWork, if_neg hpositive, derive_encode h]
  simp only [bind, Except.bind, unhex_hex, digestValue_eq, hnonce]
  rw [if_neg (not_lt.mpr hreached)]
  rfl

/-- **Validation.** The block with a nonce that is work passes the validator of finished blocks. -/
theorem verified_candidate (h : hashCores block = some cores)
    (hpositive : block.difficulty.1 ≠ 0) {n : Nat} (hwork : isWork sha3 block cores n = true)
    {input : WorkInput} (hinput : input.dataHash = hex (dataHash sha3 block cores))
    (hdifficulty : input.difficulty = block.difficulty) :
    verifyCandidate sha sha3 block input (hex (toLittle 8 n))
    (sha3.digest (toLittle 8 n ++ dataHash sha3 block cores))
      = .ok (workOf sha3 block cores n) := by
  obtain ⟨hash, hcomputed, hbinding⟩ :=
    @validate_computed sha sha3 { block with nonce := ⟨_, isNonce_hex n⟩ } cores h
  have hcheck := @checkDeclaredWork_work sha sha3
    { block with nonce := ⟨_, isNonce_hex n⟩, hash := hash } cores h
    hpositive n (unhex_hex _) hwork
  obtain ⟨binding, hvalid⟩ : ∃ binding, validateZenonUnsignedUserSendWork sha sha3
      (accountBlockCodec.encode { block with nonce := ⟨_, isNonce_hex n⟩, hash := hash })
        = .ok ⟨binding, workOf sha3 block cores n⟩ := by
    simp only [validateZenonUnsignedUserSendWork, hbinding, hcheck, bind, Except.bind]
    exact ⟨_, rfl⟩
  have hcandidate := @withField_nonce block ⟨_, isNonce_hex n⟩
  have hfinished := @withField_hash { block with nonce := ⟨_, isNonce_hex n⟩ } hash
  unfold verifyCandidate
  simp only [hcandidate, hcomputed, hfinished, hvalid]
  simp only [workOf, hinput, hdifficulty, ne_eq, not_true_eq_false, or_self, if_false]

/-! ### The search -/

/-- The receipt of a search that ended in some way. -/
def ended (receipt : SearchStatus → Option String → Nat → Option String → Option Work → Receipt)
    (work : Nat → Work) (attempts : Nat) :
    Search.Outcome → Receipt
  | .found n => receipt .FOUND (some (hex (toLittle 8 n))) attempts none (some (work n))
  | .range => receipt .RANGE_EXHAUSTED none attempts none none
  | .budget next => receipt .BUDGET_EXHAUSTED none attempts (some (hex (toLittle 8 next))) none

/-- **Loop.** The loop is a search with a budget, below the end of the range. -/
theorem searchLoop_eq (h : hashCores block = some cores) (hpositive : block.difficulty.1 ≠ 0)
    {input : WorkInput} (hinput : input.dataHash = hex (dataHash sha3 block cores))
    (hdifficulty : input.difficulty = block.difficulty)
    {receipt : SearchStatus → Option String → Nat → Option String → Option Work → Receipt} :
    ∀ (m cursor attempts : Nat),
    searchLoop sha sha3 block input receipt m cursor attempts
      = .ok (ended receipt (workOf sha3 block cores)
        (attempts + Search.attempts (isWork sha3 block cores) RANGE m cursor)
        (Search.search (isWork sha3 block cores) RANGE m cursor))
  | 0, cursor, attempts => rfl
  | m + 1, cursor, attempts => by
    have hmessage : (toLittle 8 cursor ++ dataHash sha3 block cores).take 8 = toLittle 8 cursor :=
      List.take_left' (length_toLittle 8 cursor)
    have hlast : cursor = RANGE - 1 ↔ cursor + 1 = RANGE := by
      have hrange : 0 < RANGE := by decide
      omega
    rw [searchLoop, hinput, unhex_hex, hdifficulty, hmessage]
    by_cases hwork : isWork sha3 block cores cursor = true
    · have hsearch : Search.search (isWork sha3 block cores) RANGE (m + 1) cursor = .found cursor :=
        if_pos hwork
      have hcount : Search.attempts (isWork sha3 block cores) RANGE (m + 1) cursor = 1 :=
        if_pos (.inl hwork)
      have hverified := @verified_candidate sha _ _ _ h hpositive _ hwork _ hinput hdifficulty
      rw [if_pos (of_decide_eq_true hwork), hsearch, hcount]
      simp only [hverified, bind, Except.bind]
      rfl
    · rw [if_neg fun hreached => hwork (decide_eq_true hreached)]
      by_cases hend : cursor + 1 = RANGE
      · have hsearch : Search.search (isWork sha3 block cores) RANGE (m + 1) cursor = .range :=
          (if_neg hwork).trans (if_pos hend)
        have hcount : Search.attempts (isWork sha3 block cores) RANGE (m + 1) cursor = 1 :=
          if_pos (.inr hend)
        rw [if_pos (hlast.mpr hend), hsearch, hcount]
        rfl
      · have hsearch : Search.search (isWork sha3 block cores) RANGE (m + 1) cursor
            = Search.search (isWork sha3 block cores) RANGE m (cursor + 1) :=
              (if_neg hwork).trans (if_neg hend)
        have hcount : Search.attempts (isWork sha3 block cores) RANGE (m + 1) cursor
            = Search.attempts (isWork sha3 block cores) RANGE m (cursor + 1) + 1 :=
              if_neg (not_or.mpr ⟨hwork, hend⟩)
        rw [if_neg fun heq => hend (hlast.mp heq),
          searchLoop_eq h hpositive hinput hdifficulty m (cursor + 1) (attempts + 1), hsearch,
          hcount, Nat.add_right_comm, Nat.add_assoc]

/-- A draft that the search admits: its hash, its nonce and its key are not there yet. -/
structure Draft (input : Value) (top : SearchInput) (cores : Cores) : Prop where
  read : searchInputCodec.decode input = .ok top
  hash : top.accountBlock.hash.1 = ZERO_HASH
  nonce : top.accountBlock.nonce.1 = ZERO_NONCE
  publicKey : top.accountBlock.publicKey.1 = ""
  difficulty : top.accountBlock.difficulty.1 ≤ top.limits.maxDifficulty.1
  cores : hashCores top.accountBlock = some cores

/-- The nonce at which the search starts. -/
def start (top : SearchInput) : Nat := ofLittle (unhex top.startNonce.1)

theorem start_lt (top : SearchInput) : start top < RANGE := by
  have hlt := ofLittle_lt (unhex top.startNonce.1)
  rw [length_nonce] at hlt
  exact hlt.trans_eq (by decide)

/-- The search of a draft is a search with a budget. -/
theorem search_draft {input : Value} {top : SearchInput} {cores : Cores} (h : Draft input top cores)
    (hpositive : 0 < top.accountBlock.difficulty.1) :
    ∃ workInput, searchZenonUnsignedUserSendNonce sha sha3 input
      = .ok (ended (Receipt.mk workInput top.limits top.startNonce.1)
        (workOf sha3 top.accountBlock cores)
        (Search.attempts (isWork sha3 top.accountBlock cores) RANGE top.limits.maxAttempts.1
          (start top)) (Search.search (isWork sha3 top.accountBlock cores) RANGE
          top.limits.maxAttempts.1 (start top))) := by
  have hne : top.accountBlock.difficulty.1 ≠ 0 := hpositive.ne'
  have hstart : (unhex top.startNonce.1).take 8 = unhex top.startNonce.1 :=
    List.take_of_length_le (length_nonce top.startNonce).le
  have hdraft : ¬ (top.accountBlock.hash.1 ≠ ZERO_HASH ∨ top.accountBlock.nonce.1 ≠ ZERO_NONCE
      ∨ top.accountBlock.publicKey.1 ≠ ""
      ∨ top.limits.maxDifficulty.1 < top.accountBlock.difficulty.1) := by
    simp only [not_or, Decidable.not_not, not_lt]
    exact ⟨h.hash, h.nonce, h.publicKey, h.difficulty⟩
  unfold searchZenonUnsignedUserSendNonce
  rw [h.read]
  dsimp only
  rw [if_neg hdraft, derive_encode h.cores]
  dsimp only
  rw [if_neg hne, searchLoop_eq h.cores hne rfl rfl, Nat.zero_add, hstart]
  exact ⟨_, rfl⟩

/-- What a receipt says of the nonces from the first one on, of which so many may be tried. -/
structure Exact (isWork : Nat → Bool) (first limit : Nat) (receipt : Receipt) : Prop where
  /-- The nonce that is found is the first that is work. -/
  found : ∀ n < RANGE, (receipt.status = .FOUND ∧ receipt.nonce = some (hex (toLittle 8 n))) ↔
    first ≤ n ∧ n < first + min limit (RANGE - first) ∧ isWork n = true
      ∧ Search.NoneIn isWork first n
  /-- A search that found a nonce names it, and the validator of finished blocks agreed. -/
  named : receipt.status = .FOUND → ∃ n < RANGE, receipt.nonce = some (hex (toLittle 8 n))
    ∧ receipt.attempts = n - first + 1
    ∧ receipt.verification.isSome
  range : receipt.status = .RANGE_EXHAUSTED ↔
    Search.NoneIn isWork first (first + min limit (RANGE - first)) ∧ RANGE - 1 < first + limit
  budget : receipt.status = .BUDGET_EXHAUSTED ↔
    Search.NoneIn isWork first (first + min limit (RANGE - first)) ∧ first + limit ≤ RANGE - 1
  next : receipt.status = .BUDGET_EXHAUSTED → receipt.nextNonce
    = some (hex (toLittle 8 (first + limit)))
  /-- As many nonces are tried as the limit allows, and none past the last. -/
  tried : receipt.attempts ≤ limit ∧ first + receipt.attempts ≤ RANGE
    ∧ (receipt.status ≠ .FOUND → receipt.attempts = min limit (RANGE - first))

theorem exact_ended {p : Nat → Bool} {first limit : Nat} (h : first < RANGE) (workInput : WorkInput)
    (limits : Limits) (startNonce : String) (work : Nat → Work) :
    Exact p first limit (ended (Receipt.mk workInput limits startNonce) work
      (Search.attempts p RANGE limit first) (Search.search p RANGE limit first)) := by
  have hdescribes := Search.search_describes (p := p) (m := limit) h
  have hfound := fun n => Search.search_found (p := p) (m := limit) (n := n) h
  have hrange := Search.search_range (p := p) (m := limit) h
  have hbudget := fun next => @Search.search_budget p _ limit _ next h
  have hpositive : 0 < RANGE := by decide
  have hbytes {n : Nat} (hn : n < RANGE) : n < 256 ^ 8 := hn.trans_eq (by decide)
  have hsame {n n' : Nat} (hn : n < RANGE) (hn' : n' < RANGE)
      (heq : some (hex (toLittle 8 n)) = some (hex (toLittle 8 n'))) : n = n' := by
    have hunhex := congrArg unhex (Option.some.inj heq)
    rw [unhex_hex, unhex_hex] at hunhex
    exact toLittle_inj (hbytes hn) (hbytes hn') hunhex
  have hlast : first + limit ≤ RANGE - 1 ↔ first + limit < RANGE := by omega
  have hpast : RANGE - 1 < first + limit ↔ RANGE ≤ first + limit := by omega
  generalize Search.search p RANGE limit first = outcome at hdescribes hfound hrange hbudget ⊢
  cases outcome with
  | found n =>
    obtain ⟨hle, hless, hbound, hmatch, hnone, hcount⟩ := hdescribes
    rw [hcount]
    refine ⟨fun n' hn' => ?_, fun _ => ⟨n, hbound, rfl, rfl, rfl⟩, ?_, ?_, fun hstatus => ?_, ?_⟩
    · rw [← hfound n']
      exact ⟨fun h => congrArg _ (hsame hbound hn' h.2),
        fun h => ⟨rfl, by rw [Search.Outcome.found.inj h]; rfl⟩⟩
    · rw [hpast, ← hrange]
      exact ⟨fun hstatus => (by cases hstatus), fun houtcome => (by cases houtcome)⟩
    · rw [hlast]
      exact ⟨fun hstatus => (by cases hstatus), fun h => (by cases (hbudget _).mpr ⟨h.1, h.2, rfl⟩)⟩
    · cases hstatus
    · exact ⟨by simp only [ended]; omega, by simp only [ended]; omega, fun hstatus => absurd rfl hstatus⟩
  | range =>
    obtain ⟨hreached, hnone, hcount⟩ := hdescribes
    rw [hcount]
    refine ⟨fun n' _ => ?_, fun hstatus => ?_, ?_, ?_, fun hstatus => ?_, ?_⟩
    · rw [← hfound n']
      exact ⟨fun h => (by cases h.1), fun houtcome => (by cases houtcome)⟩
    · cases hstatus
    · rw [hpast, ← hrange]
      exact ⟨fun _ => rfl, fun _ => rfl⟩
    · rw [hlast]
      exact ⟨fun hstatus => (by cases hstatus), fun h => (by cases (hbudget _).mpr ⟨h.1, h.2, rfl⟩)⟩
    · cases hstatus
    · exact ⟨by simp only [ended]; omega, by simp only [ended]; omega, fun _ => by simp only [ended]; omega⟩
  | budget next =>
    obtain ⟨rfl, hless, hnone, hcount⟩ := hdescribes
    rw [hcount]
    refine ⟨fun n' _ => ?_, fun hstatus => ?_, ?_, ?_, fun _ => rfl, ?_⟩
    · rw [← hfound n']
      exact ⟨fun h => (by cases h.1), fun houtcome => (by cases houtcome)⟩
    · cases hstatus
    · rw [hpast, ← hrange]
      exact ⟨fun hstatus => (by cases hstatus), fun houtcome => (by cases houtcome)⟩
    · rw [hlast]
      have hexhausted := (hbudget (first + limit)).mp rfl
      exact ⟨fun _ => ⟨hexhausted.1, hexhausted.2.1⟩, fun _ => rfl⟩
    · exact ⟨le_rfl, by simp only [ended]; omega, fun _ => by simp only [ended]; omega⟩

/-- A receipt that ends where another search ended, after more attempts. -/
structure Continues (receipt before after : Receipt) : Prop where
  status : receipt.status = after.status
  nonce : receipt.nonce = after.nonce
  next : receipt.nextNonce = after.nextNonce
  attempts : receipt.attempts = before.attempts + after.attempts

/-- **Search.** The search of a draft that needs work is exact: it finds the first nonce that is
work, ends at the end of the range or of its budget if there is none, and its own check of the
finished block never fails. Resumed where its budget ended, it ends as one search with both budgets
does. -/
theorem search_exact (sha : Sha256) (sha3 : Sha3) {input : Value} {top : SearchInput}
    {cores : Cores} (h : Draft input top cores) (hpositive : 0 < top.accountBlock.difficulty.1) :
    ∃ receipt, searchZenonUnsignedUserSendNonce sha sha3 input = .ok receipt
      ∧ Exact (isWork sha3 top.accountBlock cores) (start top) top.limits.maxAttempts.1 receipt
      ∧ ∀ {input₂ input₃ : Value} {top₂ top₃ : SearchInput}, Draft input₂ top₂ cores →
      Draft input₃ top₃ cores →
        top₂.accountBlock = top.accountBlock → top₃.accountBlock = top.accountBlock →
        top₃.startNonce = top.startNonce →
        top₃.limits.maxAttempts.1 = top.limits.maxAttempts.1 + top₂.limits.maxAttempts.1 →
        (receipt.status = .BUDGET_EXHAUSTED → receipt.nextNonce = some top₂.startNonce.1) →
        ∃ receipt₂ receipt₃, searchZenonUnsignedUserSendNonce sha sha3 input₂ = .ok receipt₂
          ∧ searchZenonUnsignedUserSendNonce sha sha3 input₃ = .ok receipt₃
          ∧ (receipt.status = .BUDGET_EXHAUSTED → Continues receipt₃ receipt receipt₂)
          ∧ (receipt.status ≠ .BUDGET_EXHAUSTED → receipt₃.status = receipt.status ∧ receipt₃.nonce
            = receipt.nonce
            ∧ receipt₃.attempts = receipt.attempts) := by
  obtain ⟨workInput, hsearch⟩ := @search_draft sha sha3 _ _ _ h hpositive
  refine ⟨_, hsearch, exact_ended (start_lt top) .., ?_⟩
  intro input₂ input₃ top₂ top₃ h₂ h₃ hblock₂ hblock₃ hstart hlimit hresumed
  obtain ⟨workInput₂, hsearch₂⟩ :=
    @search_draft sha sha3 _ _ _ h₂ (by rw [hblock₂]; exact hpositive)
  obtain ⟨workInput₃, hsearch₃⟩ :=
    @search_draft sha sha3 _ _ _ h₃ (by rw [hblock₃]; exact hpositive)
  have hstart₃ : start top₃ = start top := by
    rw [start, hstart, start]
  rw [hblock₂] at hsearch₂
  rw [hblock₃, hstart₃, hlimit, Search.search_add, Search.attempts_add] at hsearch₃
  refine ⟨_, _, hsearch₂, hsearch₃, ?_⟩
  have hdescribes := Search.search_describes (p := isWork sha3 top.accountBlock cores)
    (m := top.limits.maxAttempts.1) (start_lt top)
  generalize Search.search (isWork sha3 top.accountBlock cores) RANGE top.limits.maxAttempts.1
    (start top) = outcome
    at hdescribes hresumed ⊢
  -- only the search that its budget ended goes on; the others end alike with a larger budget
  cases outcome with
  | found n => exact ⟨fun hstatus => (by cases hstatus), fun _ => ⟨rfl, rfl, rfl⟩⟩
  | range => exact ⟨fun hstatus => (by cases hstatus), fun _ => ⟨rfl, rfl, rfl⟩⟩
  | budget next =>
    have hnext : start top₂ = next := by
      have htext : hex (toLittle 8 next) = top₂.startNonce.1 := Option.some.inj (hresumed rfl)
      have hlt : next < 256 ^ 8 := hdescribes.2.1.trans_eq (by decide)
      rw [start, ← htext, unhex_hex, ofLittle_toLittle hlt]
    refine ⟨fun _ => ?_, fun hstatus => absurd rfl hstatus⟩
    rw [hnext]
    dsimp only
    generalize Search.search (isWork sha3 top.accountBlock cores) RANGE top₂.limits.maxAttempts.1
      next = outcome₂
    cases outcome₂ <;> exact ⟨rfl, rfl, rfl, rfl⟩

/-! ### A search -/

namespace Sample

def amount (n : Nat) (h : decide (n ≤ 9007199254740991) = true := by exact Eq.refl true) :
    Amount := evaluated n h

def subject : Subject where
  chainIdentifier := evaluated (amount 3)
  previousHash := evaluated (String.ofList (List.replicate 64 'a'))
  height := evaluated (amount 2)
  momentumAcknowledged := ⟨evaluated (String.ofList (List.replicate 64 'b')), evaluated (amount 7)⟩
  address := ⟨"z1qp6kjgxzjpwhjf90akspf2srzkghr7ljjqrd87", by decide +kernel⟩
  toAddress := ⟨"z1qp6kjgxzjpwhjf90akspf2srzkghr7ljjqrd87", by decide +kernel⟩
  amount := evaluated "100"
  tokenStandard := evaluated "zts1znnxxxxxxxxxxxxx9z4ulx"
  data := ⟨"AAAAAAAAAAAAAAAAAAAAAAAAAAAAAAAAAAAAAAAAAAA=", by decide +kernel⟩
  first := by decide

def draft : AccountBlock where
  subject := subject
  hash := ⟨ZERO_HASH, by decide⟩
  fusedPlasma := amount 0
  difficulty := amount 1
  nonce := ⟨ZERO_NONCE, by decide⟩
  publicKey := ⟨"", by decide⟩

def draftCores : Cores := ⟨payerCore, payerCore, [20, 230, 99, 24, 198, 49, 140, 99, 24, 198]⟩

theorem hashCores_draft : hashCores draft = some draftCores := by
  decide +kernel

/-- So many attempts from a nonce on, one in four of which succeeds. -/
def search (startNonce : {s : String // isNonce s = true}) (maxAttempts : {n : Nat // n ≤ 4096}) :
    SearchInput where
  accountBlock := { draft with difficulty := amount 4 }
  startNonce := startNonce
  limits := ⟨maxAttempts, amount 4⟩

def first : SearchInput := search ⟨ZERO_NONCE, by decide⟩ ⟨2, by decide⟩

/-- The search from where the first one ended. -/
def resumed : SearchInput := search ⟨"0200000000000000", by decide⟩ ⟨1, by decide⟩

/-- The search with both budgets. -/
def whole : SearchInput := search ⟨ZERO_NONCE, by decide⟩ ⟨3, by decide⟩

theorem search_draft (startNonce : {s : String // isNonce s = true})
    (maxAttempts : {n : Nat // n ≤ 4096}) :
    Draft (searchInputCodec.encode (search startNonce maxAttempts))
    (search startNonce maxAttempts) draftCores :=
  ⟨searchInputCodec.decode_encode_self _, rfl, rfl, rfl, le_rfl, hashCores_draft⟩

/-- The third nonce is the first that is work. -/
theorem isWork_third : isWork Sha3.standard first.accountBlock draftCores 2 = true
    ∧ Search.NoneIn (isWork Sha3.standard first.accountBlock draftCores) 0 2 := by
  have htried : (List.range 3).map (isWork Sha3.standard first.accountBlock draftCores)
      = [false, false, true] := by
    decide +kernel
  simp only [List.range_succ, List.range_zero, List.nil_append, List.cons_append,
    List.map_cons, List.map_nil, List.cons.injEq, and_true] at htried
  refine ⟨htried.2.2, fun k _ hk => ?_⟩
  interval_cases k
  · exact htried.1
  · exact htried.2.1

end Sample

/-- A search that its budget ends before the third nonce, and that is resumed there. -/
theorem search_exact_sample : ∃ receipt receipt₂ receipt₃,
    searchZenonUnsignedUserSendNonce Sha256.standard Sha3.standard
    (searchInputCodec.encode Sample.first) = .ok receipt
      ∧ searchZenonUnsignedUserSendNonce Sha256.standard Sha3.standard
      (searchInputCodec.encode Sample.resumed) = .ok receipt₂
      ∧ searchZenonUnsignedUserSendNonce Sha256.standard Sha3.standard
      (searchInputCodec.encode Sample.whole) = .ok receipt₃
      ∧ receipt.status = .BUDGET_EXHAUSTED ∧ receipt.nextNonce = some "0200000000000000"
      ∧ receipt₃.status = .FOUND ∧ receipt₃.nonce = some "0200000000000000"
      ∧ receipt₃.attempts = 3 := by
  have hdraft := Sample.search_draft
  obtain ⟨hwork, hnone⟩ := Sample.isWork_third
  have hbytes : hex (toLittle 8 2) = "0200000000000000" := by decide
  obtain ⟨receipt, hreceipt, hexact, hresume⟩ := search_exact Sha256.standard Sha3.standard
    (hdraft ⟨ZERO_NONCE, by decide⟩ ⟨2, by decide⟩) (by decide)
  obtain ⟨receipt', hreceipt', hexact', -⟩ := search_exact Sha256.standard Sha3.standard
    (hdraft ⟨"0200000000000000", by decide⟩ ⟨1, by decide⟩) (by decide)
  rw [show start _ = 0 by decide] at hexact
  rw [show start _ = 2 by decide] at hexact'
  have hbudget : receipt.status = .BUDGET_EXHAUSTED := hexact.budget.mpr ⟨hnone, by decide⟩
  have hnext : receipt.nextNonce = some "0200000000000000" :=
    (hexact.next hbudget).trans (congrArg some hbytes)
  have htried : receipt.attempts = 2 := hexact.tried.2.2 (by rw [hbudget]; decide)
  have hfound : receipt'.status = .FOUND ∧ receipt'.nonce = some (hex (toLittle 8 2)) :=
    (hexact'.found 2 (by decide)).mpr
    ⟨le_rfl, by decide, hwork, fun k hk hk' => absurd hk' (not_lt.mpr hk)⟩
  have hone : receipt'.attempts = 1 := by
    obtain ⟨n, hn, hnonce, hattempts, -⟩ := hexact'.named hfound.1
    have hlimit := hexact'.tried.1
    change receipt'.attempts ≤ 1 at hlimit
    omega
  obtain ⟨receipt₂, receipt₃, hreceipt₂, hreceipt₃, hcontinues, -⟩ :=
    hresume (hdraft ⟨"0200000000000000", by decide⟩ ⟨1, by decide⟩)
    (hdraft ⟨ZERO_NONCE, by decide⟩ ⟨3, by decide⟩) rfl rfl rfl rfl fun _ => hnext
  obtain rfl : receipt' = receipt₂ := Except.ok.inj (hreceipt'.symm.trans hreceipt₂)
  have hends := hcontinues hbudget
  exact ⟨receipt, receipt', receipt₃, hreceipt, hreceipt', hreceipt₃, hbudget, hnext,
    hends.status.trans hfound.1,
    (hends.nonce.trans hfound.2).trans (congrArg some hbytes), by rw [hends.attempts, htried, hone]⟩

end Zenon
end ZenonX402
