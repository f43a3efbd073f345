/-
# What an intent stands for

Whether two requirements, or two resources, are the same is decided field by field, and what
is hashed of them is their canonical text. For valid ones the two are one relation
(`sameRequirements_iff`, `sameResource_iff`): a field that only one side looked at would let
an offer be altered after its digest was signed.

The digest of an intent is that of one text of both, so it stands for the resource and the
requirement, up to a collision of SHA-256 (`paymentIntentDigest_exact`).

Key definitions: `Value.Distinct`, `Scalar`, `intentText`, `Intended`.
Key theorems: `sameRequirements_iff`, `sameResource_iff`, `paymentIntentDigest_exact`.
-/
import ZenonX402.Resource.Evidence
import ZenonX402.Lib.Record
import ZenonX402.Lib.Sha2

namespace Js
namespace Value

/-- Data of the language: no object has a key twice. -/
inductive Distinct : Value → Prop
  | undefined : Distinct .undefined
  | null : Distinct .null
  | bool (b : Bool) : Distinct (.bool b)
  | num (n : Int) : Distinct (.num n)
  | negZero : Distinct .negZero
  | fractional : Distinct .fractional
  | str (s : String) : Distinct (.str s)
  | host : Distinct .host
  | arr {xs : List Value} (h : ∀ x ∈ xs, Distinct x) : Distinct (.arr xs)
  | obj {fs : List (String × Value)} (hn : (fs.map Prod.fst).Nodup) (h : ∀ f ∈ fs, Distinct f.2) :
      Distinct (.obj fs)

/-- A text, a safe integer or a truth value. -/
inductive Scalar : Value → Prop
  | str (s : String) : Scalar (.str s)
  | num {n : Int} (h : n.natAbs ≤ 9007199254740991) : Scalar (.num n)
  | bool (b : Bool) : Scalar (.bool b)

theorem Scalar.json {v : Value} (h : Scalar v) : v.Json := by
  cases h with
  | str s => exact .str s
  | num h => exact .num h
  | bool b => exact .bool b

/-- Scalars that are the same data are equal. -/
theorem Scalar.strictEq_of_same {v w : Value} (hv : Scalar v) (h : Same v w) :
    v.strictEq w = true := by
  cases hv <;> cases w <;> simp_all [Same, canonical, strictEq]

end Value
end Js

namespace ZenonX402
namespace Resource

open Js
open Journal (get isText Node serviceField validateResourceIdentity)
open Value (Same Distinct Scalar safeInteger? strictEq)

/-! ### Fields -/

theorem distinct_get {v : Value} (hv : v.Distinct) (key : String) : (get v key).Distinct := by
  cases hv with
  | @obj fs hn hfs =>
    cases hlookup : fs.lookup key with
    | none =>
      rw [get_obj, hlookup]
      exact .undefined
    | some w =>
      rw [get_obj, hlookup]
      exact hfs (key, w) ((Value.mem_iff_lookup key w hn).mpr hlookup)
  | _ => exact .undefined

/-- An object is JSON data if its fields are. -/
theorem json_of_fields {v : Value} {required optional : List String} (hv : v.Distinct)
    (hkeys : assertExactKeys v required optional = true)
    (hrequired : ∀ key ∈ required, (get v key).Json)
    (hoptional : ∀ key ∈ optional, hasOwn v key = true → (get v key).Json) :
    v.Json := by
  cases hv with
  | @obj fs hn _ =>
    refine .obj hn fun f hf => ?_
    have hlookup : fs.lookup f.1 = some f.2 := (Value.mem_iff_lookup f.1 f.2 hn).mp hf
    have hget : get (.obj fs) f.1 = f.2 := by rw [get_obj, hlookup, Option.getD_some]
    simp only [assertExactKeys, Bool.and_eq_true, List.all_eq_true, List.contains_iff_mem] at hkeys
    rw [← hget]
    rcases List.mem_append.mp (hkeys.1 f.1 (List.mem_map_of_mem hf)) with hkey | hkey
    · exact hrequired f.1 hkey
    · exact hoptional f.1 hkey (by rw [hasOwn_obj, hlookup, Option.isSome_some])
  | _ => cases hkeys

/-- The same data has the same fields, with the same data in each. -/
theorem fields_of_same {v w : Value} {required optional : List String} (hv : v.Distinct)
    (hkeys : assertExactKeys v required optional = true)
    (hkeys' : assertExactKeys w required optional = true) (h : Same v w) (key : String) :
    hasOwn v key = hasOwn w key ∧ Same (get v key) (get w key) := by
  cases hv with
  | @obj fs hn _ =>
    cases w with
    | obj gs =>
      have hlookup := lookup_of_same hn h key
      rw [hasOwn_obj, hasOwn_obj, get_obj, get_obj]
      cases hleft : fs.lookup key with
      | none =>
        rw [hleft, Option.map_none, eq_comm, Option.map_eq_none_iff] at hlookup
        rw [hlookup]
        exact ⟨rfl, rfl⟩
      | some x =>
        cases hright : gs.lookup key with
        | none =>
          rw [hleft, hright] at hlookup
          cases hlookup
        | some y =>
          rw [hleft, hright] at hlookup
          exact ⟨rfl, Option.some.inj hlookup⟩
    | _ => cases hkeys'
  | _ => cases hkeys

theorem scalar_isText {p : String → Bool} {v : Value} (h : isText p v = true) : Scalar v := by
  cases v with
  | str s => exact .str s
  | _ => cases h

theorem scalar_isInteger {p : Int → Bool} {v : Value} (h : Journal.isInteger p v = true)
    (hzero : p 0 = false) : Scalar v := by
  cases v with
  | num n =>
    by_cases hle : n.natAbs ≤ 9007199254740991
    · exact .num hle
    · rw [Journal.isInteger, safeInteger?, if_neg hle] at h
      cases h
  | negZero =>
    have hp : p 0 = true := h
    rw [hzero] at hp
    cases hp
  | _ => cases h

theorem scalar_strictEq {v w : Value} (hw : Scalar w) (hne : w ≠ .num 0) (h : v.strictEq w = true) :
    Scalar v := by
  cases hw with
  | str s =>
    rw [Value.strictEq_str.mp h]
    exact .str s
  | @num n hn =>
    have hnonzero : n ≠ 0 := fun heq => hne (by rw [heq])
    rw [(Value.strictEq_num hnonzero).mp h]
    exact .num hn
  | bool b =>
    rw [Value.strictEq_bool.mp h]
    exact .bool b

/-! ### Requirements -/

/-- The fields of a requirement that was read are scalars, but for the two objects in it. -/
theorem scalar_requirement {v snapshot : Value} {requireActive : Bool}
    (h : snapshotRequirement v requireActive = some snapshot) :
    (∀ key ∈ BASE_REQUIREMENT_FIELDS, Scalar (get v key)) ∧ Scalar (get (get v "extra") "poc")
      ∧ Scalar (get (get v "extra") "settlement")
      ∧ (∀ key ∈ REQUIREMENT_EXTRA_OPTIONAL_FIELDS, hasOwn (get v "extra") key = true →
        Scalar (get (get v "extra") key))
      ∧ ∀ key ∈ CHAIN_PROFILE_FIELDS, Scalar (get (get (get v "extra") "zenonChain") key) := by
  obtain ⟨-, -, -, hvalid, hget, hextra⟩ := snapshotRequirement_some h
  obtain ⟨hgetPoc, hgetSettlement, hgetChain⟩ := get_extraSnapshot (get v "extra")
  simp only [validateRequirementSnapshot, Bool.and_eq_true, hextra, hgetPoc, hgetSettlement,
    hgetChain] at hvalid
  obtain ⟨⟨⟨⟨⟨⟨⟨⟨⟨⟨⟨⟨⟨⟨⟨⟨htexts, _⟩, _⟩, _⟩, _⟩, _⟩, _⟩, htimeout⟩, hpoc⟩, hsettlement⟩, hflow⟩, _⟩,
    hchain⟩, _⟩, _⟩, hmock⟩, hminimum⟩ := hvalid
  simp only [validateZenonChainProfileSnapshot, Bool.and_eq_true] at hchain
  rw [List.all_eq_true] at htexts
  refine ⟨fun key hkey => ?_, scalar_strictEq (.bool true) (by simp) hpoc,
    scalar_strictEq (.str _) (by simp) hsettlement, fun key hkey hown => ?_, fun key hkey => ?_⟩
  · have hbase := hget key hkey
    simp only [BASE_REQUIREMENT_FIELDS, List.mem_cons, List.not_mem_nil, or_false] at hkey
    rw [← hbase]
    rcases hkey with rfl | rfl | rfl | rfl | rfl | rfl
    · exact scalar_isText (htexts "scheme" (by decide))
    · exact scalar_isText (htexts "network" (by decide))
    · exact scalar_isText (htexts "asset" (by decide))
    · exact scalar_isText (htexts "amount" (by decide))
    · exact scalar_isText (htexts "payTo" (by decide))
    · exact scalar_isInteger htimeout (by decide)
  · obtain ⟨hsame, hvalue⟩ := own_extraSnapshot (get v "extra") hkey
    rw [← hvalue hown]
    have hown' := hsame.trans hown
    simp only [REQUIREMENT_EXTRA_OPTIONAL_FIELDS, List.mem_cons, List.not_mem_nil, or_false] at hkey
    rcases hkey with rfl | rfl
    · rw [hown', Bool.not_true, Bool.false_or] at hflow
      exact scalar_strictEq (.str _) (by simp) hflow
    · rw [hown'] at hmock hminimum
      simp only [Bool.and_true, Bool.not_eq_true'] at hmock
      rw [hmock] at hminimum
      exact scalar_isInteger hminimum (by decide)
  · have hfield := get_chainSnapshot (get (get v "extra") "zenonChain") hkey
    simp only [CHAIN_PROFILE_FIELDS, List.mem_cons, List.not_mem_nil, or_false] at hkey
    rw [← hfield]
    rcases hkey with rfl | rfl | rfl
    · exact scalar_strictEq (.num (by decide)) (by simp) hchain.1.1
    · exact scalar_isText hchain.1.2
    · exact scalar_isText hchain.2

theorem json_requirement {v : Value} (hv : v.Distinct) (h : validateRequirement v = true) :
    v.Json := by
  obtain ⟨snapshot, hsnapshot⟩ := Option.isSome_iff_exists.mp h
  obtain ⟨hkeys, hextra, hchain, -⟩ := snapshotRequirement_some hsnapshot
  obtain ⟨hbase, hpoc, hsettlement, hoptional, hprofile⟩ := scalar_requirement hsnapshot
  have hchainJson : (get (get v "extra") "zenonChain").Json :=
    json_of_fields (distinct_get (distinct_get hv _) _) hchain
    (fun key hkey => (hprofile key hkey).json) (List.forall_mem_nil _)
  have hextraJson : (get v "extra").Json := by
    refine json_of_fields (distinct_get hv _) hextra (fun key hkey => ?_) fun key hkey hown =>
      (hoptional key hkey hown).json
    simp only [REQUIREMENT_EXTRA_FIELDS, List.mem_cons, List.not_mem_nil, or_false] at hkey
    rcases hkey with rfl | rfl | rfl
    · exact hpoc.json
    · exact hsettlement.json
    · exact hchainJson
  refine json_of_fields hv hkeys (fun key hkey => ?_) (List.forall_mem_nil _)
  by_cases hextraKey : key = "extra"
  · rw [hextraKey]
    exact hextraJson
  · refine (hbase key ?_).json
    simp only [REQUIREMENT_FIELDS, List.mem_cons, List.not_mem_nil, or_false] at hkey
    simp only [BASE_REQUIREMENT_FIELDS, List.mem_cons, List.not_mem_nil, or_false]
    tauto

/-- A field that is the same data on both sides. -/
theorem sameOptional_of_same {key : String} {left right : Value}
    (hown : hasOwn left key = hasOwn right key)
    (hscalar : hasOwn left key = true → Scalar (get left key))
    (h : Same (get left key) (get right key)) :
    sameOptional key left right = true := by
  simp only [sameOptional, hown, BEq.rfl, Bool.true_and, Bool.or_eq_true, Bool.not_eq_true']
  cases hright : hasOwn right key with
  | false => exact .inl rfl
  | true => exact .inr ((hscalar (hown.trans hright)).strictEq_of_same h)

/-- Valid requirements that are the same data are found the same. -/
theorem sameRequirements_of_same {a b : Value} (ha : a.Distinct)
    (hvalidA : validateRequirement a = true) (hvalidB : validateRequirement b = true)
    (h : Same a b) : sameRequirements a b = true := by
  obtain ⟨left, hleft⟩ := Option.isSome_iff_exists.mp hvalidA
  obtain ⟨right, hright⟩ := Option.isSome_iff_exists.mp hvalidB
  obtain ⟨hkeysA, hextraA, hchainA, -, hgetA, hgetExtraA⟩ := snapshotRequirement_some hleft
  obtain ⟨hkeysB, hextraB, hchainB, -, hgetB, hgetExtraB⟩ := snapshotRequirement_some hright
  obtain ⟨hpocA, hsettlementA, hzenonA⟩ := get_extraSnapshot (get a "extra")
  obtain ⟨hpocB, hsettlementB, hzenonB⟩ := get_extraSnapshot (get b "extra")
  obtain ⟨hbase, hpoc, hsettlement, hoptional, hprofile⟩ := scalar_requirement hleft
  have hfields := fields_of_same ha hkeysA hkeysB h
  have hextra := fields_of_same (distinct_get ha _) hextraA hextraB (hfields "extra").2
  have hchain := fields_of_same (distinct_get (distinct_get ha _) _) hchainA hchainB
    (hextra "zenonChain").2
  have hown (key : String) (hkey : key ∈ REQUIREMENT_EXTRA_OPTIONAL_FIELDS) :
      sameOptional key (extraSnapshot (get a "extra")) (extraSnapshot (get b "extra")) = true := by
    obtain ⟨hsame, hvalue⟩ := own_extraSnapshot (get a "extra") hkey
    obtain ⟨hsame', hvalue'⟩ := own_extraSnapshot (get b "extra") hkey
    have heq : hasOwn (extraSnapshot (get a "extra")) key
        = hasOwn (extraSnapshot (get b "extra")) key := by
      rw [hsame, hsame', (hextra key).1]
    cases hhas : hasOwn (get a "extra") key with
    | false => simp [sameOptional, ← heq, hsame, hhas]
    | true =>
      refine sameOptional_of_same heq (fun _ => ?_) ?_
      · rw [hvalue hhas]
        exact hoptional key hkey hhas
      · rw [hvalue hhas, hvalue' ((hextra key).1 ▸ hhas)]
        exact (hextra key).2
  unfold sameRequirements
  rw [hleft, hright]
  dsimp only
  rw [hgetExtraA, hgetExtraB, hpocA, hpocB, hsettlementA, hsettlementB, hzenonA, hzenonB]
  simp only [Bool.and_eq_true, List.all_eq_true]
  refine ⟨⟨⟨⟨⟨fun key hkey => ?_, ?_⟩, ?_⟩, hown _ (by decide)⟩, hown _ (by decide)⟩, ?_⟩
  · rw [hgetA key hkey, hgetB key hkey]
    exact (hbase key hkey).strictEq_of_same (hfields key).2
  · exact hpoc.strictEq_of_same (hextra "poc").2
  · exact hsettlement.strictEq_of_same (hextra "settlement").2
  · refine List.all_eq_true.mpr fun key hkey => ?_
    rw [get_chainSnapshot _ hkey, get_chainSnapshot _ hkey]
    exact (hprofile key hkey).strictEq_of_same (hchain key).2

/-- **Requirements.** Two requirements are found the same exactly if both are valid and have one
canonical text. -/
theorem sameRequirements_iff {a b : Value} (ha : a.Distinct) (hb : b.Distinct) :
    sameRequirements a b = true ↔
    validateRequirement a = true ∧ validateRequirement b = true ∧ canonicalJson a = canonicalJson b := by
  constructor
  · intro h
    have hvalid : validateRequirement a = true ∧ validateRequirement b = true := by
      unfold sameRequirements at h
      split at h
      next hleft hright =>
        exact ⟨by rw [validateRequirement, hleft]; rfl, by rw [validateRequirement, hright]; rfl⟩
      · cases h
    have hjsonA := json_requirement ha hvalid.1
    have hjsonB := json_requirement hb hvalid.2
    exact ⟨hvalid.1, hvalid.2,
      (canonicalJson_inj hjsonA hjsonB).mpr (same_of_sameRequirements hjsonA.plain.parsed hjsonB.plain.parsed h)⟩
  · rintro ⟨hvalidA, hvalidB, htext⟩
    exact sameRequirements_of_same ha hvalidA hvalidB
      ((canonicalJson_inj (json_requirement ha hvalidA) (json_requirement hb hvalidB)).mp htext)

/-! ### Resources -/

theorem optionally_get {p : Value → Bool} {fs : List (String × Value)} {key : String}
    (h : Journal.optionally p (fs.lookup key) = true) (hown : hasOwn (.obj fs) key = true) :
    p (get (.obj fs) key) = true := by
  obtain ⟨v, hv⟩ := Option.isSome_iff_exists.mp hown
  rw [hv] at h
  rwa [get_obj, hv, Option.getD_some]

theorem tags_of_valid {v : Value} (h : Journal.readResourceTags v = true) :
    ∃ tags, v = .arr tags ∧ ∀ tag ∈ tags, Scalar tag := by
  cases v with
  | arr tags =>
    simp only [Journal.readResourceTags, Bool.and_eq_true, List.all_eq_true] at h
    exact ⟨tags, rfl, fun tag htag => scalar_isText (h.2 tag htag)⟩
  | _ => cases h

/-- The fields of a valid resource are texts, but for its tags. -/
theorem scalar_resource {node : Node} {v : Value} (h : validateResourceIdentity node v = true) :
    Scalar (get v "url") ∧ (∀ key ∈ RESOURCE_OPTIONAL_FIELDS, key ≠ "tags" → hasOwn v key = true →
      Scalar (get v key))
      ∧ (hasOwn v "tags" = true → ∃ tags, get v "tags" = .arr tags ∧ ∀ tag ∈ tags, Scalar tag) := by
  cases v with
  | obj fs =>
    simp only [validateResourceIdentity, Bool.and_eq_true] at h
    obtain ⟨⟨⟨⟨⟨⟨⟨-, -⟩, hurl⟩, hdescription⟩, hmime⟩, hservice⟩, htags⟩, hicon⟩ := h
    refine ⟨scalar_isText hurl, fun key hkey hne hown => ?_,
      fun hown => tags_of_valid (optionally_get htags hown)⟩
    simp only [RESOURCE_OPTIONAL_FIELDS, List.mem_cons, List.not_mem_nil, or_false] at hkey
    rcases hkey with rfl | rfl | rfl | rfl | rfl
    · exact scalar_isText (optionally_get hdescription hown)
    · exact scalar_isText (optionally_get hmime hown)
    · exact scalar_isText (optionally_get hservice hown)
    · exact absurd rfl hne
    · exact scalar_isText (optionally_get hicon hown)
  | _ => cases h

theorem json_resource {node : Node} {v : Value} (hv : v.Distinct)
    (h : validateResourceIdentity node v = true) : v.Json := by
  obtain ⟨hurl, hoptional, htags⟩ := scalar_resource h
  refine json_of_fields hv (exactKeys_of_resource h) (fun key hkey => ?_) fun key hkey hown => ?_
  · rw [List.mem_singleton.mp hkey]
    exact hurl.json
  · by_cases hkeyTags : key = "tags"
    · rw [hkeyTags] at hown ⊢
      obtain ⟨tags, htag, hall⟩ := htags hown
      rw [htag]
      exact .arr fun tag hmem => (hall tag hmem).json
    · exact (hoptional key hkey hkeyTags hown).json

theorem strictEq_of_canonical : ∀ {xs ys : List Value}, (∀ x ∈ xs, Scalar x) →
    xs.map Value.canonical = ys.map Value.canonical →
    xs.length = ys.length ∧ ∀ p ∈ xs.zip ys, p.1.strictEq p.2 = true
  | [], [], _, _ => ⟨rfl, List.forall_mem_nil _⟩
  | x :: xs, y :: ys, hscalar, h => by
    rw [List.map_cons, List.map_cons, List.cons.injEq] at h
    obtain ⟨hfirst, hrest⟩ := List.forall_mem_cons.mp hscalar
    obtain ⟨hlength, hall⟩ := strictEq_of_canonical hrest h.2
    refine ⟨by rw [List.length_cons, List.length_cons, hlength], ?_⟩
    rw [List.zip_cons_cons]
    exact List.forall_mem_cons.mpr ⟨hfirst.strictEq_of_same h.1, hall⟩
  | [], _ :: _, _, h => by cases h
  | _ :: _, [], _, h => by cases h

/-- Valid resources that are the same data are found the same. -/
theorem sameResource_of_same {node : Node} {a b : Value} (ha : a.Distinct)
    (hvalidA : validateResourceIdentity node a = true)
    (hvalidB : validateResourceIdentity node b = true) (h : Same a b) :
    sameResource node a b = true := by
  have hfields := fields_of_same ha (exactKeys_of_resource hvalidA)
    (exactKeys_of_resource hvalidB) h
  obtain ⟨hurl, hoptional, htags⟩ := scalar_resource hvalidA
  obtain ⟨-, -, htags'⟩ := scalar_resource hvalidB
  have hown (key : String) (hkey : key ∈ RESOURCE_OPTIONAL_FIELDS) (hne : key ≠ "tags") :
      sameOptional key a b = true :=
    sameOptional_of_same (hfields key).1 (hoptional key hkey hne) (hfields key).2
  have hsameTags : (!hasOwn a "tags" || sameTags a b) = true := by
    cases hhas : hasOwn a "tags" with
    | false => rfl
    | true =>
      obtain ⟨tags, htag, hscalar⟩ := htags hhas
      obtain ⟨tags', htag', -⟩ := htags' ((hfields "tags").1 ▸ hhas)
      have hsame := (hfields "tags").2
      rw [htag, htag', Same, Value.canonical, Value.canonical, Value.canonicalList_eq_map,
        Value.canonicalList_eq_map, Value.arr.injEq] at hsame
      obtain ⟨hlength, hall⟩ := strictEq_of_canonical hscalar hsame
      rw [Bool.not_true, Bool.false_or, sameTags, htag, htag']
      simp only [Bool.and_eq_true, decide_eq_true_eq, List.all_eq_true]
      exact ⟨hlength, hall⟩
  simp only [sameResource, hvalidA, hvalidB, hurl.strictEq_of_same (hfields "url").2,
    hown "description" (by decide) (by decide), hown "mimeType" (by decide) (by decide),
    hown "serviceName" (by decide) (by decide), hown "iconUrl" (by decide) (by decide),
    (hfields "tags").1, BEq.rfl, Bool.and_true]
  rw [← (hfields "tags").1, hsameTags]
  rfl

/-- **Resources.** Two resources are found the same exactly if both are valid and have one canonical
text. -/
theorem sameResource_iff {node : Node} {a b : Value} (ha : a.Distinct) (hb : b.Distinct) :
    sameResource node a b = true ↔
    validateResourceIdentity node a = true ∧ validateResourceIdentity node b = true
      ∧ canonicalJson a = canonicalJson b := by
  constructor
  · intro h
    have hvalid := h
    simp only [sameResource, Bool.and_eq_true] at hvalid
    obtain ⟨⟨⟨⟨⟨⟨⟨⟨hvalidA, hvalidB⟩, -⟩, -⟩, -⟩, -⟩, -⟩, -⟩, -⟩ := hvalid
    have hjsonA := json_resource ha hvalidA
    have hjsonB := json_resource hb hvalidB
    exact ⟨hvalidA, hvalidB,
      (canonicalJson_inj hjsonA hjsonB).mpr
      (same_of_sameResource hjsonA.plain.parsed hjsonB.plain.parsed h)⟩
  · rintro ⟨hvalidA, hvalidB, htext⟩
    exact sameResource_of_same ha hvalidA hvalidB
      ((canonicalJson_inj (json_resource ha hvalidA) (json_resource hb hvalidB)).mp htext)

/-! ### Intents -/

/-- The text that an intent is the digest of. -/
def intentText (paymentRequired accepted : Value) : String :=
  canonicalJson (.obj [("x402Version", get paymentRequired "x402Version"),
    ("resource", get paymentRequired "resource"), ("accepted", accepted)])

/-- What an intent takes from a challenge: the one version there is, and a valid resource. -/
structure Intended (node : Node) (challenge : Value) : Prop where
  distinct : challenge.Distinct
  version : get challenge "x402Version" = .num X402_VERSION
  resource : validateResourceIdentity node (get challenge "resource") = true

theorem intended_of_valid {node : Node} {challenge : Value} (hc : challenge.Distinct)
    (h : validatePaymentRequired node challenge = true) : Intended node challenge := by
  simp only [validatePaymentRequired, validatePaymentRequiredOuter, Bool.and_eq_true] at h
  obtain ⟨⟨⟨⟨⟨⟨-, -⟩, hversion⟩, hresource⟩, -⟩, -⟩, -⟩ := h
  exact ⟨hc, (Value.strictEq_num (by decide)).mp hversion, hresource⟩

/-- Of valid parts there is one text exactly if the parts have one text each. -/
theorem intentText_iff {node : Node} {challenge challenge' accepted accepted' : Value}
    (hc : Intended node challenge) (hc' : Intended node challenge') (ha : accepted.Distinct)
    (ha' : accepted'.Distinct) (haccepted : validateRequirement accepted = true)
    (haccepted' : validateRequirement accepted' = true) :
    intentText challenge accepted = intentText challenge' accepted' ↔
      canonicalJson (get challenge "resource") = canonicalJson (get challenge' "resource")
        ∧ canonicalJson accepted = canonicalJson accepted' := by
  have hjson := json_resource (distinct_get hc.distinct _) hc.resource
  have hjson' := json_resource (distinct_get hc'.distinct _) hc'.resource
  have hoffer := json_requirement ha haccepted
  have hoffer' := json_requirement ha' haccepted'
  have hintent {resource offer : Value} (hr : resource.Json) (ho : offer.Json) :
      (Value.obj [("x402Version", .num X402_VERSION), ("resource", resource),
        ("accepted", offer)]).Json := by
    refine .obj (by simp) fun f hf => ?_
    simp only [List.mem_cons, List.not_mem_nil, or_false] at hf
    rcases hf with rfl | rfl | rfl
    · exact .num (by decide)
    · exact hr
    · exact ho
  rw [intentText, intentText, hc.version, hc'.version,
    canonicalJson_inj (hintent hjson hoffer) (hintent hjson' hoffer'),
    canonicalJson_inj hjson hjson', canonicalJson_inj hoffer hoffer']
  constructor
  · intro h
    have hlookup := lookup_of_same (by simp) h
    exact ⟨Option.some.inj (hlookup "resource"), Option.some.inj (hlookup "accepted")⟩
  · rintro ⟨hr, ho⟩
    refine Value.same_obj_of_lookup (by simp) (by simp) fun k => ?_
    by_cases h1 : k = "x402Version"
    · rw [h1]
      rfl
    by_cases h2 : k = "resource"
    · rw [h2]
      exact congrArg some hr
    by_cases h3 : k = "accepted"
    · rw [h3]
      exact congrArg some ho
    · simp [List.lookup_cons, List.lookup_nil, beq_eq_false_iff_ne.mpr h1,
        beq_eq_false_iff_ne.mpr h2, beq_eq_false_iff_ne.mpr h3]

/-- **Intents.** What is found the same is what is valid and has one canonical text. The digest of
an intent stands for both of its parts: the same parts have one digest, and two intents of one
digest have the same parts, unless their texts collide. -/
theorem paymentIntentDigest_exact (node : Node) (sha : Sha256) :
    (∀ a b : Value, a.Distinct → b.Distinct → (sameRequirements a b = true ↔
      validateRequirement a = true ∧ validateRequirement b = true ∧ canonicalJson a
        = canonicalJson b))
    ∧ (∀ a b : Value, a.Distinct → b.Distinct → (sameResource node a b = true ↔
      validateResourceIdentity node a = true ∧ validateResourceIdentity node b = true
        ∧ canonicalJson a = canonicalJson b))
    ∧ ∀ challenge challenge' accepted accepted' : Value, challenge.Distinct → challenge'.Distinct →
      accepted.Distinct →
      accepted'.Distinct →
      (validatePaymentRequired node challenge = true →
        validatePaymentRequired node challenge' = true →
        sameResource node (get challenge "resource") (get challenge' "resource") = true →
        sameRequirements accepted accepted' = true →
        paymentIntentDigest sha challenge accepted = paymentIntentDigest sha challenge' accepted')
      ∧ (Intended node challenge → Intended node challenge' →
        validateRequirement accepted = true → validateRequirement accepted' = true →
        paymentIntentDigest sha challenge accepted = paymentIntentDigest sha challenge' accepted' →
        (sha.hex (intentText challenge accepted) = sha.hex (intentText challenge' accepted') →
          intentText challenge accepted = intentText challenge' accepted') →
        sameResource node (get challenge "resource") (get challenge' "resource") = true
          ∧ sameRequirements accepted accepted' = true) := by
  refine ⟨fun a b ha hb => sameRequirements_iff ha hb, fun a b ha hb => sameResource_iff ha hb, ?_⟩
  intro challenge challenge' accepted accepted' hc hc' ha ha'
  constructor
  · intro hvalid hvalid' hresource hoffer
    obtain ⟨hacceptedA, hacceptedB, hofferText⟩ := (sameRequirements_iff ha ha').mp hoffer
    obtain ⟨-, -, hresourceText⟩ :=
      (sameResource_iff (distinct_get hc _) (distinct_get hc' _)).mp hresource
    have htext := (intentText_iff (intended_of_valid hc hvalid) (intended_of_valid hc' hvalid') ha
      ha' hacceptedA hacceptedB).mpr
      ⟨hresourceText, hofferText⟩
    exact congrArg sha.hex htext
  · intro hintended hintended' haccepted haccepted' hdigest hcollision
    obtain ⟨hresourceText, hofferText⟩ :=
      (intentText_iff hintended hintended' ha ha' haccepted haccepted').mp (hcollision hdigest)
    exact ⟨(sameResource_iff (distinct_get hc _) (distinct_get hc' _)).mpr
      ⟨hintended.resource, hintended'.resource, hresourceText⟩,
      (sameRequirements_iff ha ha').mpr ⟨haccepted, haccepted', hofferText⟩⟩

/-! ### One intent in two orders -/

namespace Sample

/-- A platform on which every text is the address of one place. -/
def intentNode : Node where
  sha := Sha256.standard
  url _ := some ⟨"https:", "example.com", "", ""⟩

def profile : Value := .obj [("version", .num 1), ("chainIdentifier", .str "3"),
  ("genesisMomentumHash", .str (String.ofList (List.replicate 64 'a')))]

def offered : Value := .obj [("scheme", .str "exact"), ("network", .str EXPERIMENTAL_LIVE_NETWORK),
      ("asset", .str "zts1"), ("amount", .str "1"), ("payTo", .str "z1"),
      ("maxTimeoutSeconds", .num 60),
  ("extra", .obj [("poc", .bool true), ("settlement", .str "account-block"),
    ("zenonChain", profile)])]

/-- The requirement with its fields in another order. -/
def offeredAgain : Value :=
  .obj [("extra", .obj [("zenonChain", profile), ("settlement", .str "account-block"),
    ("poc", .bool true)]), ("maxTimeoutSeconds", .num 60), ("payTo", .str "z1"),
    ("amount", .str "1"), ("asset", .str "zts1"),
  ("network", .str EXPERIMENTAL_LIVE_NETWORK), ("scheme", .str "exact")]

def intended (requirement : Value) : Value := .obj [("x402Version", .num 2),
  ("resource", .obj [("url", .str "https://example.com/")]), ("accepts", .arr [requirement])]

theorem distinct_profile : profile.Distinct :=
  .obj (by decide) (by
    simp only [List.forall_mem_cons]
    exact ⟨.num _, .str _, .str _, List.forall_mem_nil _⟩)

theorem distinct_offered : offered.Distinct := by
  have hextra : Value.Distinct
      (.obj [("poc", .bool true), ("settlement", .str "account-block"), ("zenonChain", profile)]) :=
    .obj (by decide) (by
      simp only [List.forall_mem_cons]
      exact ⟨.bool _, .str _, distinct_profile, List.forall_mem_nil _⟩)
  refine .obj (by decide) ?_
  simp only [List.forall_mem_cons]
  exact ⟨.str _, .str _, .str _, .str _, .str _, .num _, hextra, List.forall_mem_nil _⟩

theorem distinct_offeredAgain : offeredAgain.Distinct := by
  have hextra : Value.Distinct
      (.obj [("zenonChain", profile), ("settlement", .str "account-block"), ("poc", .bool true)]) :=
    .obj (by decide) (by
      simp only [List.forall_mem_cons]
      exact ⟨distinct_profile, .str _, .bool _, List.forall_mem_nil _⟩)
  refine .obj (by decide) ?_
  simp only [List.forall_mem_cons]
  exact ⟨hextra, .num _, .str _, .str _, .str _, .str _, .str _, List.forall_mem_nil _⟩

theorem distinct_intended {requirement : Value} (h : requirement.Distinct) :
    (intended requirement).Distinct := by
  have hresource : Value.Distinct (.obj [("url", .str "https://example.com/")]) :=
    .obj (by decide) (List.forall_mem_singleton.mpr (.str _))
  refine .obj (by simp) ?_
  simp only [List.forall_mem_cons]
  exact ⟨.num _, hresource, .arr (List.forall_mem_singleton.mpr h), List.forall_mem_nil _⟩

end Sample

theorem paymentIntentDigest_exact_sample :
    paymentIntentDigest Sha256.standard (Sample.intended Sample.offered) Sample.offered
      = paymentIntentDigest Sha256.standard (Sample.intended Sample.offeredAgain)
      Sample.offeredAgain
    ∧ sameRequirements Sample.offered Sample.offeredAgain = true := by
  obtain ⟨-, -, hdigest⟩ := paymentIntentDigest_exact Sample.intentNode Sha256.standard
  obtain ⟨hsame, -⟩ := hdigest _ _ _ _ (Sample.distinct_intended Sample.distinct_offered)
    (Sample.distinct_intended Sample.distinct_offeredAgain) Sample.distinct_offered
    Sample.distinct_offeredAgain
  have hfound : sameRequirements Sample.offered Sample.offeredAgain = true := by decide
  exact ⟨hsame (by decide) (by decide) (by decide) hfound, hfound⟩

end Resource
end ZenonX402
