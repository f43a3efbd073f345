/-
# The observation of two endpoints

`dynamic-plasma-observation-normalizer.js` reads what two endpoints reported of one chain and
answers with one classification. The input has three versions, told apart by the keys it has: with
three fields of the quote, with four, and with four for one request. All of them go through the same
checks in the same order (`agree`).

Key definitions: `Endpoint`, `boundDynamicSpork`, `agree`, `normalizeDynamicPlasmaObservation`.
-/
import ZenonX402.Plasma.Compatibility
import ZenonX402.Zenon.Address

namespace ZenonX402
namespace Plasma
namespace Observation

open Js CodeUnits

/-- The code of its one error. -/
inductive Refusal
  | dynamic_plasma_observation_input_rejected
  deriving DecidableEq, Repr

/-- `reject`. -/
abbrev refused : Refusal := .dynamic_plasma_observation_input_rejected

def DYNAMIC_PLASMA_NAME : String := "dynamic-plasma"

def LIBP2P_NAME : String := "libp2p"

def MAXIMUM_SPORK_SNAPSHOT_ENTRIES : Nat := 1024

/-! ### What an endpoint reports -/

def isUint64Decimal (s : String) : Bool :=
  decide (utf16Length s ≤ 20) && Text.isPositiveDecimal s
    && (decimal? s.toList).any (· ≤ 18446744073709551615)

abbrev ChainIdentifier := {s : String // isUint64Decimal s = true}

def chainIdentifierCodec : Codec Failure ChainIdentifier := .text isUint64Decimal rejected

structure Frontier extends ObservedFrontier where
  chainIdentifier : ChainIdentifier

def snapshotFrontier : Codec Failure Frontier :=
  (object (.cons "chainIdentifier" chainIdentifierCodec
    (.cons "height" positiveNumber
    (.cons "hash" Plasma.hash
    (.cons "version" safeNumber
    (.cons "nextFusionPrice" safeNumber
    (.cons "nextWorkPrice" safeNumber .nil)))))) rejected).equiv
    { toFun := fun (a, b, c, d, e, f, _) => ⟨⟨b, c, d, e, f⟩, a⟩
      invFun := fun f => (f.chainIdentifier, f.height, f.hash, f.version, f.nextFusionPrice,
        f.nextWorkPrice, ())
      left_inv := fun _ => rfl
      right_inv := fun _ => rfl }

/-- The momentum at height 2, whose version is 1. -/
structure HeightTwo where
  chainIdentifier : ChainIdentifier
  hash : Hash
  previousHash : Hash

def heightTwoCodec : Codec Failure HeightTwo :=
  (object (.cons "chainIdentifier" chainIdentifierCodec
    (.const "height" (.constNum 2 rejected)
    (.cons "hash" Plasma.hash
    (.cons "previousHash" Plasma.hash
    (.const "version" (.constNum 1 rejected) .nil))))) rejected).equiv
    { toFun := fun (a, b, c, _) => ⟨a, b, c⟩
      invFun := fun h => (h.chainIdentifier, h.hash, h.previousHash, ())
      left_inv := fun _ => rfl
      right_inv := fun _ => rfl }

def snapshotProfileEvidence : Codec Failure (HeightTwo × Unit) :=
  object (.cons "heightTwo" heightTwoCodec .nil) rejected

def isSporkName (s : String) : Bool :=
  decide (2 ≤ utf16Length s) && decide (utf16Length s ≤ 40) && decide (5 ≤ s.utf8ByteSize)
    && decide (s.utf8ByteSize ≤ 40)

structure Spork where
  id : Hash
  name : {s : String // isSporkName s = true}
  activated : Bool
  enforcementHeight : Safe

def snapshotSpork : Codec Failure Spork :=
  (object (.cons "id" Plasma.hash
    (.cons "name" (.text isSporkName rejected)
    (.cons "activated" boolean
    (.cons "enforcementHeight" safeNumber .nil)))) rejected).equiv
    { toFun := fun (a, b, c, d, _) => ⟨a, b, c, d⟩
      invFun := fun s => (s.id, s.name, s.activated, s.enforcementHeight, ())
      left_inv := fun _ => rfl
      right_inv := fun _ => rfl }

/-- `list` is nothing where there were too many to read. -/
structure Sporks where
  count : Within 0 4294967295
  list : Option (List Spork)

def Sporks.value (s : Sporks) : Value :=
  .obj [("count", .num s.count.1),
    ("list", (s.list.map fun list => .arr (list.map snapshotSpork.encode)).getD .null)]

/-- `list.sort`. -/
def sortById (list : List Spork) : List Spork :=
  list.mergeSort fun left right => decide (left.id.1 ≤ right.id.1)

def snapshotSporks (value : Value) : Except Failure Sporks := do
  let fields ← record value ["count", "list"]
  let count ← (within 0 4294967295).decode (fields "count")
  match fields "list" with
  | .arr entries =>
    if MAXIMUM_SPORK_SNAPSHOT_ENTRIES < count.1 ∨ MAXIMUM_SPORK_SNAPSHOT_ENTRIES < entries.length
      then .ok ⟨count, none⟩
    else do
      let list ← snapshotSpork.decodeAll entries
      .ok ⟨count, some (sortById list)⟩
  | _ => .error rejected

/-- `safeInteger`. -/
abbrev SafeInteger := {n : Int // n.natAbs ≤ 9007199254740991 ∧ decide True = true}

def safeInteger : Codec Failure SafeInteger := .integer (fun _ => True) rejected

structure PlasmaVariables where
  MaxBasePlasmaInMomentum : SafeInteger
  FusedPlasmaTarget : SafeInteger
  PowPlasmaTarget : SafeInteger
  MaxPriceChangePercent : SafeInteger
  PriceChangeDenominator : SafeInteger

def snapshotPlasmaVariables : Codec Failure PlasmaVariables :=
  (object (.cons "MaxBasePlasmaInMomentum" safeInteger
    (.cons "FusedPlasmaTarget" safeInteger
    (.cons "PowPlasmaTarget" safeInteger
    (.cons "MaxPriceChangePercent" safeInteger
    (.cons "PriceChangeDenominator" safeInteger .nil))))) rejected).equiv
    { toFun := fun (a, b, c, d, e, _) => ⟨a, b, c, d, e⟩
      invFun := fun v => (v.MaxBasePlasmaInMomentum, v.FusedPlasmaTarget, v.PowPlasmaTarget,
        v.MaxPriceChangePercent, v.PriceChangeDenominator, ())
      left_inv := fun _ => rfl
      right_inv := fun _ => rfl }

/-- `requiredFusedPlasma` is there under a version with four fields. -/
structure Rpc extends RpcObservation where
  requiredFusedPlasma : Option Safe

def Rpc.value (r : Rpc) : Value :=
  (r.requiredFusedPlasma.map (fourFields r.toRpcObservation)).getD
  (snapshotRpc.encode r.toRpcObservation)

def RPC_OBSERVATION_FIELDS : List String := ["availablePlasma", "basePlasma", "requiredDifficulty"]

def FOUR_FIELD_RPC_OBSERVATION_FIELDS : List String :=
  RPC_OBSERVATION_FIELDS ++ ["requiredFusedPlasma"]

/-- The fourth field, where there is one. -/
def fourthField (fourField : Bool) (value : Value) : Except Failure (Option Safe) :=
  if fourField then (safeNumber.decode value).map some else .ok none

def snapshotRpcObservation (value : Value) (fourField : Bool) : Except Failure Rpc := do
  let fields ← record value (if fourField then FOUR_FIELD_RPC_OBSERVATION_FIELDS
      else RPC_OBSERVATION_FIELDS)
  let availablePlasma ← safeNumber.decode (fields "availablePlasma")
  let basePlasma ← positiveNumber.decode (fields "basePlasma")
  let requiredDifficulty ← safeNumber.decode (fields "requiredDifficulty")
  let requiredFusedPlasma ← fourthField fourField (fields "requiredFusedPlasma")
  .ok ⟨⟨availablePlasma, basePlasma, requiredDifficulty⟩, requiredFusedPlasma⟩

structure Endpoint where
  beforeFrontier : Frontier
  profileEvidence : HeightTwo
  sporks : Sporks
  plasmaVariables : PlasmaVariables
  rpcObservation : Rpc
  afterFrontier : Frontier

def ENDPOINT_FIELDS : List String :=
  ["beforeFrontier", "profileEvidence", "sporks", "plasmaVariables", "rpcObservation",
    "afterFrontier"]

def snapshotEndpoint (fourField : Bool) (value : Value) : Except Failure Endpoint := do
  let fields ← record value ENDPOINT_FIELDS
  let beforeFrontier ← snapshotFrontier.decode (fields "beforeFrontier")
  let profileEvidence ← snapshotProfileEvidence.decode (fields "profileEvidence")
  let sporks ← snapshotSporks (fields "sporks")
  let plasmaVariables ← snapshotPlasmaVariables.decode (fields "plasmaVariables")
  let rpcObservation ← snapshotRpcObservation (fields "rpcObservation") fourField
  let afterFrontier ← snapshotFrontier.decode (fields "afterFrontier")
  .ok ⟨beforeFrontier, profileEvidence.1, sporks, plasmaVariables, rpcObservation, afterFrontier⟩

/-- An endpoint that is not there is `null`. -/
def snapshotNullableEndpoint (fourField : Bool) : Value → Except Failure (Option Endpoint)
  | .null => .ok none
  | value => (snapshotEndpoint fourField value).map some

def snapshotEndpointArray (value : Value) (fourField : Bool) :
    Except Failure (Option Endpoint × Option Endpoint) :=
  match value with
  | .arr [first, second] => do
    let left ← snapshotNullableEndpoint fourField first
    let right ← snapshotNullableEndpoint fourField second
    .ok (left, right)
  | _ => .error rejected

/-! ### What is expected of the chain -/

structure ExpectedProfile where
  chainIdentifier : ChainIdentifier
  genesisMomentumHash : Hash

def snapshotExpectedProfile : Codec Failure ExpectedProfile :=
  (object (.const "version" (.constNum 1 rejected)
    (.cons "chainIdentifier" chainIdentifierCodec
    (.cons "genesisMomentumHash" Plasma.hash .nil))) rejected).equiv
    { toFun := fun (a, b, _) => ⟨a, b⟩
      invFun := fun p => (p.chainIdentifier, p.genesisMomentumHash, ())
      left_inv := fun _ => rfl
      right_inv := fun _ => rfl }

structure SporkIds where
  dynamicPlasmaId : Hash
  libp2pId : Hash

/-- The two ids are different. -/
abbrev CompiledSporks := {ids : SporkIds // decide (ids.dynamicPlasmaId ≠ ids.libp2pId) = true}

def snapshotCompiledSporks : Codec Failure CompiledSporks :=
  ((object (.cons "dynamicPlasmaId" Plasma.hash (.cons "libp2pId" Plasma.hash .nil)) rejected).equiv
    { toFun := fun (a, b, _) => (⟨a, b⟩ : SporkIds)
      invFun := fun s => (s.dynamicPlasmaId, s.libp2pId, ())
      left_inv := fun _ => rfl
      right_inv := fun _ => rfl }).refine
      (fun ids => decide (ids.dynamicPlasmaId ≠ ids.libp2pId)) rejected

/-! ### A request -/

def isAddress (s : String) : Bool := (Zenon.address (units s)).isSome

def isData (s : String) : Bool := (Zenon.base64Data (units s)).isSome

/-- A request for a quote; its block type is 2. -/
structure QuoteRequest where
  address : {s : String // isAddress s = true}
  toAddress : {s : String // isAddress s = true}
  data : {s : String // isData s = true}

/-- `encodeQuoteRequest`. -/
def quoteRequestCodec : Codec Failure QuoteRequest :=
  (object (.cons "address" (.text isAddress rejected)
    (.const "blockType" (.constNum 2 rejected)
    (.cons "toAddress" (.text isAddress rejected)
    (.cons "data" (.text isData rejected) .nil)))) rejected).equiv
    { toFun := fun (a, b, c, _) => ⟨a, b, c⟩
      invFun := fun r => (r.address, r.toAddress, r.data, ())
      left_inv := fun _ => rfl
      right_inv := fun _ => rfl }

def QuoteRequest.canonicalParams (r : QuoteRequest) : String :=
  "[\x7b\"address\":\"" ++ r.address.1 ++ "\",\"blockType\":2,\"toAddress\":\"" ++ r.toAddress.1
    ++ "\",\"data\":\"" ++ r.data.1
    ++ "\"\x7d]"

structure RequestContext where
  quoteRequest : QuoteRequest
  digest : Digest

def RequestContext.value (c : RequestContext) : Value :=
  .obj [("requestContextVersion", .num 1),
    ("quoteRequest", quoteRequestCodec.encode c.quoteRequest), ("digest", .str c.digest.1)]

section

variable (sha : Sha256)

/-- The digest of a request under a profile and the compiled ids. -/
def contextDigest (profile : ExpectedProfile) (compiled : CompiledSporks) (request : QuoteRequest) :
    Digest :=
  ⟨"sha256:" ++ sha.hex (stringify (.arr [.str "zenon-x402-dp-quote-request-context/v1", .num 1,
    .str profile.chainIdentifier.1, .str profile.genesisMomentumHash.1,
    .str compiled.1.dynamicPlasmaId.1,
    .str compiled.1.libp2pId.1, .str request.canonicalParams])),
    Text.prefixed_append _ (sha.isHash_hex _)⟩

def snapshotDynamicPlasmaQuoteRequestContext (arguments : List Value) :
    Except Refusal RequestContext :=
  match arguments with
  | [input] => do
    let top ← failWith (record input ["requestContextVersion", "expectedChainProfile",
        "compiledSporkIds", "quoteRequest"]) refused
    rejectIf ((top "requestContextVersion").strictEq (.num 1) = false) refused
    let profile ← failWith (snapshotExpectedProfile.decode (top "expectedChainProfile")) refused
    let compiled ← failWith (snapshotCompiledSporks.decode (top "compiledSporkIds")) refused
    let request ← failWith (quoteRequestCodec.decode (top "quoteRequest")) refused
    .ok ⟨request, contextDigest sha profile compiled request⟩
  | _ => .error refused

end

/-! ### The checks -/

inductive FailureReason
  | QUOTE_REQUEST_CONTEXT_MISMATCH
  | ENDPOINT_DATA_UNAVAILABLE
  | FRONTIER_BINDING_MISMATCH
  | SPORK_SNAPSHOT_INCOMPLETE
  | ENDPOINT_OBSERVATION_MISMATCH
  | PROFILE_GENESIS_MISMATCH
  | SPORK_BINDING_MISMATCH
  | PLASMA_VARIABLES_INCOHERENT
  | FRONTIER_SPORK_STATE_INCOHERENT
  | RPC_QUOTE_INCOHERENT
  deriving DecidableEq, Repr

def FailureReason.name : FailureReason → String
  | QUOTE_REQUEST_CONTEXT_MISMATCH => "QUOTE_REQUEST_CONTEXT_MISMATCH"
  | ENDPOINT_DATA_UNAVAILABLE => "ENDPOINT_DATA_UNAVAILABLE"
  | FRONTIER_BINDING_MISMATCH => "FRONTIER_BINDING_MISMATCH"
  | SPORK_SNAPSHOT_INCOMPLETE => "SPORK_SNAPSHOT_INCOMPLETE"
  | ENDPOINT_OBSERVATION_MISMATCH => "ENDPOINT_OBSERVATION_MISMATCH"
  | PROFILE_GENESIS_MISMATCH => "PROFILE_GENESIS_MISMATCH"
  | SPORK_BINDING_MISMATCH => "SPORK_BINDING_MISMATCH"
  | PLASMA_VARIABLES_INCOHERENT => "PLASMA_VARIABLES_INCOHERENT"
  | FRONTIER_SPORK_STATE_INCOHERENT => "FRONTIER_SPORK_STATE_INCOHERENT"
  | RPC_QUOTE_INCOHERENT => "RPC_QUOTE_INCOHERENT"

/-- What is answered: a failure of the evidence, or what the classifier answered of an observation.
-/
inductive Answer
  | failure (classification : Classification) (reason : FailureReason)
  | observed (observation : Endpoint) (compatibility : Classified)

def Answer.classification : Answer → Classification
  | .failure classification _ => classification
  | .observed _ compatibility => compatibility.classification

def Answer.reason : Answer → String
  | .failure _ reason => reason.name
  | .observed _ compatibility => compatibility.reason.name

/-- `evidenceFailure`, of what does not belong together. -/
def misbound (reason : FailureReason) : Answer := .failure .MISBOUND_OR_INCOHERENT reason

def equalFrontier (left right : Frontier) : Bool :=
  decide (left.chainIdentifier = right.chainIdentifier)
    && sameFrontier left.toObservedFrontier right.toObservedFrontier

def equalProfileEvidence (left right : HeightTwo) : Bool :=
  decide (left.chainIdentifier = right.chainIdentifier) && decide (left.hash = right.hash)
    && decide (left.previousHash = right.previousHash)

def equalSpork (left right : Spork) : Bool :=
  decide (left.id = right.id) && decide (left.name = right.name)
    && decide (left.activated = right.activated)
    && decide (left.enforcementHeight = right.enforcementHeight)

/-- Of two snapshots whose lists are there. -/
def equalSporks (left right : Sporks) : Bool :=
  let (a, b) := (left.list.getD [], right.list.getD [])
  decide (left.count = right.count) && decide (a.length = b.length)
    && (a.zip b).all fun p => equalSpork p.1 p.2

def equalPlasmaVariables (left right : PlasmaVariables) : Bool :=
  decide (left.MaxBasePlasmaInMomentum = right.MaxBasePlasmaInMomentum)
    && decide (left.FusedPlasmaTarget = right.FusedPlasmaTarget)
    && decide (left.PowPlasmaTarget = right.PowPlasmaTarget)
    && decide (left.MaxPriceChangePercent = right.MaxPriceChangePercent)
    && decide (left.PriceChangeDenominator = right.PriceChangeDenominator)

/-- With three fields there is no total on either side. -/
def equalRpcObservation (left right : Rpc) : Bool :=
  decide (left.availablePlasma = right.availablePlasma)
    && decide (left.basePlasma = right.basePlasma)
    && decide (left.requiredDifficulty = right.requiredDifficulty)
    && decide (left.requiredFusedPlasma = right.requiredFusedPlasma)

def equalEndpoint (left right : Endpoint) : Bool :=
  equalFrontier left.beforeFrontier right.beforeFrontier
    && equalProfileEvidence left.profileEvidence right.profileEvidence
    && equalSporks left.sporks right.sporks
    && equalPlasmaVariables left.plasmaVariables right.plasmaVariables
    && equalRpcObservation left.rpcObservation right.rpcObservation
    && equalFrontier left.afterFrontier right.afterFrontier

/-- One round of the loop over the endpoints. -/
def endpointFailure (endpoint : Endpoint) : Option Answer :=
  if equalFrontier endpoint.beforeFrontier endpoint.afterFrontier = false
  then some (misbound .FRONTIER_BINDING_MISMATCH)
  else match endpoint.sporks.list with
    | none => some (.failure .UNAVAILABLE .SPORK_SNAPSHOT_INCOMPLETE)
    | some list =>
      if endpoint.sporks.count.1 ≠ list.length
        then some (.failure .UNAVAILABLE .SPORK_SNAPSHOT_INCOMPLETE) else none

def profileMatches (expected : ExpectedProfile) (observation : Endpoint) : Bool :=
  decide (observation.beforeFrontier.chainIdentifier = expected.chainIdentifier)
    && decide (observation.profileEvidence.chainIdentifier = expected.chainIdentifier)
    && decide (observation.profileEvidence.previousHash = expected.genesisMomentumHash)

/-- The variables of the loop of `boundDynamicSpork`. -/
structure Scan where
  ids : List Hash
  dynamicById : Option Spork
  libp2pById : Option Spork
  dynamicNameCount : Nat
  libp2pNameCount : Nat

def scanEntry (compiled : SporkIds) (s : Scan) (entry : Spork) : Option Scan :=
  if entry.id ∈ s.ids then none
  else some ⟨s.ids ++ [entry.id], if entry.id = compiled.dynamicPlasmaId then some entry
    else s.dynamicById, if entry.id = compiled.libp2pId then some entry else s.libp2pById,
    if entry.name.1 = DYNAMIC_PLASMA_NAME then s.dynamicNameCount + 1 else s.dynamicNameCount,
    if entry.name.1 = LIBP2P_NAME then s.libp2pNameCount + 1 else s.libp2pNameCount⟩

def boundDynamicSpork (list : List Spork) (compiled : SporkIds) : Option Spork := do
  let s ← list.foldlM (scanEntry compiled) ⟨[], none, none, 0, 0⟩
  let dynamicSpork ← s.dynamicById
  let libp2p ← s.libp2pById
  if dynamicSpork.name.1 ≠ DYNAMIC_PLASMA_NAME ∨ libp2p.name.1 ≠ LIBP2P_NAME ∨ s.dynamicNameCount
    ≠ 1 ∨ s.libp2pNameCount ≠ 1
  then none else some dynamicSpork

def coherentPlasmaVariables (value : PlasmaVariables) : Bool :=
  if value.MaxBasePlasmaInMomentum.1 < 210000 ∨ 210000000000000 < value.MaxBasePlasmaInMomentum.1
    ∨ value.FusedPlasmaTarget.1 < 1 ∨ value.PowPlasmaTarget.1 < 1
    ∨ value.MaxPriceChangePercent.1 < 1 ∨ 100 < value.MaxPriceChangePercent.1
    ∨ value.PriceChangeDenominator.1 < 1 ∨ 100 < value.PriceChangeDenominator.1 then false
  else decide (value.FusedPlasmaTarget.1 + value.PowPlasmaTarget.1
    ≤ value.MaxBasePlasmaInMomentum.1)

def activeAfterBoundary (frontier : Frontier) (dynamicSpork : Spork) : Bool :=
  dynamicSpork.activated && decide (3 ≤ frontier.height.1)
    && decide (dynamicSpork.enforcementHeight.1 < frontier.height.1)

def coherentFrontierState (frontier : Frontier) (dynamicSpork : Spork) : Bool :=
  if activeAfterBoundary frontier dynamicSpork then decide (frontier.version.1 = 2)
  else decide (frontier.version.1 = 1) && decide (frontier.nextFusionPrice.1 = 0)
    && decide (frontier.nextWorkPrice.1 = 0)

/-- Whether the total of an observation with four fields is refused. -/
def totalRefused (observation : Endpoint) : Bool :=
  match observation.rpcObservation.requiredFusedPlasma with
  | none => false
  | some total =>
    if observation.beforeFrontier.version.1 = 2 then
      -- every error of the validation is one that is known
      !(validateDynamicPlasmaRequiredFusedQuote
        [quoteInput observation.beforeFrontier.toObservedFrontier
        (fourFields observation.rpcObservation.toRpcObservation total)]).isOk
    else decide (total.1 ≠ observation.rpcObservation.basePlasma.1)

/-- What follows once both endpoints are there. -/
def agree (expected : ExpectedProfile) (compiled : SporkIds) (left right : Endpoint) :
    Except Refusal Answer :=
  match [left, right].findSome? endpointFailure with
  | some failure => .ok failure
  | none =>
    if equalEndpoint left right = false then .ok (misbound .ENDPOINT_OBSERVATION_MISMATCH)
    else if profileMatches expected left = false then .ok (misbound .PROFILE_GENESIS_MISMATCH)
    else match boundDynamicSpork (left.sporks.list.getD []) compiled with
      | none => .ok (misbound .SPORK_BINDING_MISMATCH)
      | some dynamicSpork =>
        if coherentPlasmaVariables left.plasmaVariables = false
          then .ok (misbound .PLASMA_VARIABLES_INCOHERENT)
        else if coherentFrontierState left.beforeFrontier dynamicSpork = false then
          .ok (misbound .FRONTIER_SPORK_STATE_INCOHERENT)
        else if totalRefused left then .ok (misbound .RPC_QUOTE_INCOHERENT)
        else do
          let compatibility ← failWith
              (classifyDynamicPlasmaCompatibility
                (compatibilityInput.encode ⟨.MATCH, some left.beforeFrontier.toObservedFrontier,
                  some left.rpcObservation.toRpcObservation,
            some left.afterFrontier.toObservedFrontier⟩)) refused
          .ok (.observed left compatibility)

/-! ### The normalizer -/

inductive Binding
  | NOT_ESTABLISHED
  | SELF_CONSISTENT_DECLARED_REQUEST_ONLY
  | MATCHES_DECLARED_EXPECTED_REQUEST_CONTEXT
  deriving DecidableEq, Repr

def Binding.name : Binding → String
  | NOT_ESTABLISHED => "NOT_ESTABLISHED"
  | SELF_CONSISTENT_DECLARED_REQUEST_ONLY => "SELF_CONSISTENT_DECLARED_REQUEST_ONLY"
  | MATCHES_DECLARED_EXPECTED_REQUEST_CONTEXT => "MATCHES_DECLARED_EXPECTED_REQUEST_CONTEXT"

/-- What is answered, with what goes into the observation beside the endpoint. -/
structure Normalized where
  observationVersion : Fin 3
  expectedProfile : ExpectedProfile
  compiledSporks : CompiledSporks
  requestContext : Option RequestContext
  requestBinding : Binding
  answer : Answer

def Normalized.classification (n : Normalized) : Classification := n.answer.classification

/-- The observation of an endpoint as it is returned. -/
def Normalized.observation (n : Normalized) (endpoint : Endpoint) : Value :=
  .obj ([("expectedChainProfile", snapshotExpectedProfile.encode n.expectedProfile),
    ("compiledSporkIds", snapshotCompiledSporks.encode n.compiledSporks),
    ("beforeFrontier", snapshotFrontier.encode endpoint.beforeFrontier),
    ("profileEvidence", snapshotProfileEvidence.encode (endpoint.profileEvidence, ())),
    ("sporks", endpoint.sporks.value),
    ("plasmaVariables", snapshotPlasmaVariables.encode endpoint.plasmaVariables),
    ("rpcObservation", endpoint.rpcObservation.value),
    ("afterFrontier", snapshotFrontier.encode endpoint.afterFrontier)]
    ++ n.requestContext.toList.map fun context => ("quoteRequestContext", context.value))

/-- `versionedResult`. -/
def Normalized.value (n : Normalized) : Value :=
  .obj ([("schemaVersion", .num (n.observationVersion.1 + 1 : Nat)),
    ("classification", .str n.classification.name), ("reason", .str n.answer.reason),
    ("scope", .str "DETACHED_DUAL_ENDPOINT_OBSERVATION"),
    ("chainAuthentication", .str "NOT_ESTABLISHED"), ("canonicality", .str "NOT_ESTABLISHED"),
    ("finality", .str "NOT_ESTABLISHED"), ("afterSigningAction", .str "NONE")]
    ++ (match n.answer with
      | .failure _ _ => [("observation", .null), ("compatibility", .null)]
      | .observed endpoint compatibility =>
        [("observation", n.observation endpoint), ("compatibility", compatibility.value)])
    ++ (if n.observationVersion = 0 then [] else [("requiredFusedObservationVersion", .num 1)])
    ++ if n.observationVersion = 2 then
      [("quoteRequestContextVersion", .num 1),
        ("requestContextBinding", .str n.requestBinding.name)] else [])

/-- `expectedDigest`, where one is handed in that is not `undefined`. -/
def expectedDigest : Option Value → Except Refusal (Option Digest)
  | none => .ok none
  | some .undefined => .ok none
  | some value => failWith ((digest.decode value).map some) refused

def TOP_LEVEL_FIELDS : List String :=
  ["expectedChainProfile", "compiledSporkIds", "endpointObservations"]

def FOUR_FIELD_TOP_LEVEL_FIELDS : List String :=
  TOP_LEVEL_FIELDS ++ ["requiredFusedObservationVersion"]

def REQUEST_BOUND_TOP_LEVEL_FIELDS : List String :=
  FOUR_FIELD_TOP_LEVEL_FIELDS ++ ["quoteRequestContextVersion", "quoteRequestContext"]

/-- The version that the keys select, and the fields of it. -/
def observationVersion (keys : List String) : Fin 3 × List String :=
  if "quoteRequestContextVersion" ∈ keys then (2, REQUEST_BOUND_TOP_LEVEL_FIELDS)
  else if "requiredFusedObservationVersion" ∈ keys then (1, FOUR_FIELD_TOP_LEVEL_FIELDS)
  else (0, TOP_LEVEL_FIELDS)

/-- What is bound to a request is read, and whether it is the one that is supplied and expected. -/
def boundContext (sha : Sha256) (profile : ExpectedProfile) (compiled : CompiledSporks)
    (expected : Option Digest) (value : Value) :
    Except Refusal (RequestContext × Bool) := do
  let supplied ← failWith (record value ["requestContextVersion", "quoteRequest", "digest"]) refused
  rejectIf ((supplied "requestContextVersion").strictEq (.num 1) = false) refused
  let context ← snapshotDynamicPlasmaQuoteRequestContext sha
      [.obj [("requestContextVersion", .num 1),
        ("expectedChainProfile", snapshotExpectedProfile.encode profile),
    ("compiledSporkIds", snapshotCompiledSporks.encode compiled),
      ("quoteRequest", supplied "quoteRequest")]]
  .ok (context, (supplied "digest").strictEq (.str context.digest.1)
    && expected.all (· = context.digest))

/-- The endpoints of the input, or that one of them is not there. -/
def observe (profile : ExpectedProfile) (compiled : CompiledSporks) (fourField : Bool)
    (value : Value) : Except Refusal Answer := do
  let endpoints ← failWith (snapshotEndpointArray value fourField) refused
  match endpoints with
  | (some left, some right) => agree profile compiled.1 left right
  | _ => .ok (.failure .UNAVAILABLE .ENDPOINT_DATA_UNAVAILABLE)

/-- What is answered of a request: the request stays with an observation alone. -/
def requestBound (profile : ExpectedProfile) (compiled : CompiledSporks) (expected : Option Digest)
    (context : RequestContext) (answer : Answer) : Normalized := match answer with
  | .failure _ _ => ⟨2, profile, compiled, none, .NOT_ESTABLISHED, answer⟩
  | .observed _ _ => ⟨2, profile, compiled, some context,
      if expected = none then .SELF_CONSISTENT_DECLARED_REQUEST_ONLY
      else .MATCHES_DECLARED_EXPECTED_REQUEST_CONTEXT, answer⟩

def normalizeDynamicPlasmaObservation (sha : Sha256) (arguments : List Value) :
    Except Refusal Normalized :=
  match arguments with
  | .obj fields :: rest => do
    let (version, names) := observationVersion (fields.map Prod.fst)
    let top ← failWith (record (.obj fields) names) refused
    rejectIf (version ≠ 0 ∧ (top "requiredFusedObservationVersion").strictEq (.num 1)
      = false) refused
    rejectIf (version = 2 ∧ (top "quoteRequestContextVersion").strictEq (.num 1) = false) refused
    rejectIf (1 < rest.length ∨ 0 < rest.length ∧ version ≠ 2) refused
    let expected ← expectedDigest rest.head?
    let profile ← failWith (snapshotExpectedProfile.decode (top "expectedChainProfile")) refused
    let compiled ← failWith (snapshotCompiledSporks.decode (top "compiledSporkIds")) refused
    if version = 2 then do
      let (context, bound) ← boundContext sha profile compiled expected (top "quoteRequestContext")
      -- the endpoints are not read before the request is the one that is expected
      if bound = false then
        .ok ⟨2, profile, compiled, none, .NOT_ESTABLISHED, misbound .QUOTE_REQUEST_CONTEXT_MISMATCH⟩
      else do
        let answer ← observe profile compiled true (top "endpointObservations")
        .ok (requestBound profile compiled expected context answer)
    else do
      let answer ← observe profile compiled (decide (version = 1)) (top "endpointObservations")
      .ok ⟨version, profile, compiled, none, .NOT_ESTABLISHED, answer⟩
  | _ => .error refused

end Observation
end Plasma
end ZenonX402
