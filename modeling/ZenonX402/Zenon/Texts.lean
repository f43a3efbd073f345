/-
# Texts of blocks

The texts of a block's fields are letters and digits, which stand in a JSON text as they
are, so the canonical text of a block is short (`textSize_block`): no limit on its length
refuses a block whose fields are admitted.

Key definitions: none beyond those of the block.
Key theorems: `plain_of_units`, `textSize_address`, `textSize_data`, `textSize_signed`,
`textSize_block`.
-/
import ZenonX402.Zenon.Block
import ZenonX402.Lib.Extent
import ZenonX402.Lib.Bounds

namespace ZenonX402
namespace Zenon

open CodeUnits Js Octets Value

/-! ### Characters and units -/

/-- A text of ASCII units has a character for each. -/
theorem chars_of_units : ∀ {cs : List Char}, (∀ u ∈ cs.flatMap ofChar, u.toNat < 128) →
    cs.flatMap ofChar = cs.map (fun c => UInt16.ofNat c.toNat) ∧ ∀ c ∈ cs, c.toNat < 128
  | [], _ => ⟨rfl, fun c hc => by cases hc⟩
  | c :: cs, h => by
    rw [List.flatMap_cons] at h
    obtain ⟨hrest, hall⟩ := chars_of_units fun u hu => h u (List.mem_append_right _ hu)
    have hc : c.toNat < 0x10000 := by
      by_contra hlarge
      have hfirst := h (UInt16.ofNat (0xd800 + (c.toNat - 0x10000) / 0x400)) (by
        rw [ofChar, if_neg hlarge]
        exact List.mem_append_left _ (List.mem_cons_self ..))
      have hchar : c.toNat < 0x110000 := by
        have hvalid := c.valid
        rcases hvalid with hlow | ⟨-, hhigh⟩
        · exact (show c.toNat < 0xd800 from hlow).trans (by decide)
        · exact hhigh
      rw [UInt16.toNat_ofNat'] at hfirst
      omega
    have hunit : ofChar c = [UInt16.ofNat c.toNat] := if_pos hc
    have hascii : c.toNat < 128 := by
      have hfirst := h (UInt16.ofNat c.toNat) (by
        rw [hunit]
        exact List.mem_append_left _ (List.mem_cons_self ..))
      rw [UInt16.toNat_ofNat'] at hfirst
      omega
    refine ⟨by rw [List.flatMap_cons, hrest, hunit]; rfl, fun d hd => ?_⟩
    rcases List.mem_cons.mp hd with rfl | hd
    · exact hascii
    · exact hall d hd

theorem plain_letters {letters : CodeUnits}
    (h : (letters.all fun u => decide (u.toNat < 128) && Text.isPlain (Char.ofNat u.toNat))
      = true) :
    ∀ u ∈ letters, u.toNat < 128 ∧ Text.isPlain (Char.ofNat u.toNat) = true := by
  intro u hu
  simpa using List.all_eq_true.mp h u hu

/-- A text whose units are some plain characters has a byte for each. -/
theorem plain_of_units {s : String} {letters : CodeUnits} (h : ∀ u ∈ units s, u ∈ letters)
    (hletters : ∀ u ∈ letters, u.toNat < 128 ∧ Text.isPlain (Char.ofNat u.toNat) = true) :
    (∀ c ∈ s.toList, Text.isPlain c = true) ∧ textSize (.str s) = (units s).length + 2 := by
  obtain ⟨hmap, hascii⟩ := @chars_of_units s.toList fun u hu => (hletters u (h u hu)).1
  have hplain : ∀ c ∈ s.toList, Text.isPlain c = true := by
    intro c hc
    have hlt := hascii c hc
    have hmem : UInt16.ofNat c.toNat ∈ units s := by
      rw [units, hmap]
      exact List.mem_map_of_mem hc
    have hchar := (hletters _ (h _ hmem)).2
    rwa [UInt16.toNat_ofNat', Nat.mod_eq_of_lt (by omega), Char.ofNat_toNat] at hchar
  refine ⟨hplain, ?_⟩
  rw [textSize_plain hplain, Text.size_of_ascii fun c hc => Text.isAscii_of_plain (hplain c hc),
    units, hmap, List.length_map]

theorem mem_spell {w : Nat} {A : Alphabet w} {vs : List (BitVec w)} {u : UInt16}
    (h : u ∈ A.spell vs) : u ∈ A.letters := by
  obtain ⟨v, -, rfl⟩ := List.mem_map.mp h
  exact List.get_mem _ _

theorem textSize_address {s : String} (h : isAddress s = true) : textSize (.str s) = 42 := by
  obtain ⟨core, hcore⟩ := isAddress_iff.mp h
  obtain ⟨huser, hencoding⟩ := address_iff.mp hcore
  obtain ⟨words, hwords, -⟩ := (isEncoding_user huser.length).mp hencoding
  obtain ⟨hlength, hunits, -⟩ := userWords_iff.mp hwords
  have hsize := (@plain_of_units s (units "z1" ++ BECH32.letters) (fun u hu => ?_)
    (plain_letters (by decide))).2
  · rw [hsize, hunits, List.length_append, BECH32.length_spell, hlength]
    rfl
  · rw [hunits] at hu
    rcases List.mem_append.mp hu with hu | hu
    · exact List.mem_append_left _ hu
    · exact List.mem_append_right _ (mem_spell hu)

/-! ### Base64 -/

theorem sextet_lt {c : Char} {n : Nat} (h : Base64.sextet? c = some n) : n < 64 := by
  have hle {d : Char} (hd : c ≤ d) : c.toNat ≤ d.toNat := UInt32.le_iff_toNat_le.mp hd
  unfold Base64.sextet? at h
  split at h
  next hc =>
    have hz := hle hc.2
    have hvalue : ('Z').toNat = 90 ∧ ('A').toNat = 65 := by decide
    cases h
    omega
  · split at h
    next hc =>
      have hz := hle hc.2
      have hvalue : ('z').toNat = 122 ∧ ('a').toNat = 97 := by decide
      cases h
      omega
    · split at h
      next hc =>
        have hz := hle hc.2
        have hvalue : ('9').toNat = 57 ∧ ('0').toNat = 48 := by decide
        cases h
        omega
      · split at h
        · cases h
          decide
        · split at h <;> cases h
          decide

/-- What base64 text stands for are bytes. -/
theorem base64Bytes_lt : ∀ {cs : List Char} {bytes : List Nat}, Base64.bytes? cs = some bytes →
    ∀ b ∈ bytes, b < 256 := by
  intro cs
  induction cs using Base64.bytes?.induct with
  | case1 =>
    intro bytes h b hb
    cases h
    cases hb
  | case2 a b c d rest group hgroup ih =>
    intro bytes h x hx
    simp only [Base64.bytes?, hgroup, Option.bind_eq_bind, Option.bind_eq_some_iff, Option.pure_def,
      Option.some.injEq] at h
    obtain ⟨more, hmore, rfl⟩ := h
    rcases List.mem_append.mp hx with hx | hx
    · simp only [Base64.group?, Option.bind_eq_bind, Option.bind_eq_some_iff, Option.pure_def,
        Option.some.injEq] at hgroup
      obtain ⟨a', ha, b', hb, c', hc, d', hd, rfl⟩ := hgroup
      have hlt := sextet_lt ha
      have hlt' := sextet_lt hd
      have hlt'' := sextet_lt hc
      simp only [List.mem_cons, List.not_mem_nil, or_false] at hx
      have hb' := sextet_lt hb
      rcases hx with rfl | rfl | rfl <;> omega
    · exact ih hmore x hx
  | case3 a b c d hgroup =>
    intro bytes h x hx
    simp only [Base64.bytes?, hgroup, if_true] at h
    unfold Base64.tail? at h
    split at h
    · simp only [Option.bind_eq_bind, Option.bind_eq_some_iff, Option.pure_def,
        Option.some.injEq] at h
      obtain ⟨a', ha, b', hb, rfl⟩ := h
      have hlt := sextet_lt ha
      have hlt' := sextet_lt hb
      simp only [List.mem_cons, List.not_mem_nil, or_false] at hx
      omega
    · simp only [Option.bind_eq_bind, Option.bind_eq_some_iff, Option.pure_def,
        Option.some.injEq] at h
      obtain ⟨a', ha, b', hb, c', hc, rfl⟩ := h
      have hlt := sextet_lt ha
      have hlt' := sextet_lt hb
      have hlt'' := sextet_lt hc
      simp only [List.mem_cons, List.not_mem_nil, or_false] at hx
      rcases hx with rfl | rfl <;> omega
    · cases h
  | case4 a b c d rest hgroup hrest =>
    intro bytes h
    simp only [Base64.bytes?, hgroup, if_neg hrest] at h
    cases h
  | case5 cs hnil hfour =>
    intro bytes h
    rw [Base64.bytes?.eq_3 _ hnil hfour] at h
    cases h

/-- Canonical base64 is plain. -/
theorem textSize_base64 {bytes : List Nat} (h : ∀ b ∈ bytes, b < 256) :
    textSize (.str (base64Text bytes)) = (bytes.length + 2) / 3 * 4 + 2 := by
  have hplain : ∀ c ∈ (base64Text bytes).toList, Text.isPlain c = true := by
    intro c hc
    rw [base64Text, String.toList_ofList] at hc
    rcases Base64.mem_text h c hc with rfl | ⟨n, hn, rfl⟩
    · decide
    · have hall : ∀ n < 64, Text.isPlain (Base64.letter n) = true := by decide
      exact hall n hn
  rw [textSize_plain hplain, (size_base64Text h).1]

theorem canonicalBase64_some {s : String} {count : Nat}
    (h : Journal.validateCanonicalBase64 (.str s) count = true) :
    ∃ bytes, (∀ b ∈ bytes, b < 256) ∧ bytes.length = count ∧ s = base64Text bytes := by
  unfold Journal.validateCanonicalBase64 Journal.canonicalBase64? at h
  cases hbytes : base64Bytes? s with
  | none =>
    simp only [hbytes] at h
    cases h
  | some bytes =>
    simp only [hbytes] at h
    split at h
    next found hfound =>
      split at hfound
      next htext =>
        cases hfound
        exact ⟨bytes, base64Bytes_lt hbytes, of_decide_eq_true h, htext.symm⟩
      · cases hfound
    · cases h

/-! ### Sizes of fields -/

theorem textSize_data {s : String} (h : isData s = true) : textSize (.str s) = 46 := by
  obtain ⟨_, hunit⟩ := Option.isSome_iff_exists.mp h
  obtain ⟨bytes, hlength, hunits⟩ := base64Data_iff.mp hunit
  obtain ⟨words, hencoded, hbits⟩ := @encodedBytes_words bytes (by rw [hlength])
  have hvalue : units s = BASE64.spell words ++ units "=" := by
    rw [hunits, ← hencoded, encodedBytes_standard (by rw [hlength]; decide), units, base64Text,
      String.toList_ofList]
  have hwords := congrArg List.length hbits
  rw [List.length_append, Bits.length_ofWords, Bits.length_ofWords, hlength] at hwords
  have hsize := (@plain_of_units s (BASE64.letters ++ units "=") (fun u hu => ?_)
    (plain_letters (by decide))).2
  · have hpad : (units "=").length = 1 := by decide
    rw [hsize, hvalue, List.length_append, BASE64.length_spell, hpad]
    simp only [List.length_cons, List.length_nil] at hwords
    omega
  · rw [hvalue] at hu
    rcases List.mem_append.mp hu with hu | hu
    · exact List.mem_append_left _ (mem_spell hu)
    · exact List.mem_append_right _ hu

theorem textSize_publicKey {s : String} (h : isPublicKey s = true) : textSize (.str s) ≤ 46 := by
  rw [isPublicKey, Bool.or_eq_true, beq_iff_eq] at h
  rcases h with rfl | h
  · decide
  · obtain ⟨bytes, hbytes, hlength, rfl⟩ := canonicalBase64_some h
    rw [textSize_base64 hbytes, hlength]

theorem textSize_allOf {cls : Char → Bool} {min max : Nat} {s : String}
    (h : Text.allOf cls min max s = true) (hcls : ∀ c, cls c = true → Text.isPlain c = true) :
    textSize (.str s) ≤ max + 2 := by
  rw [Text.allOf, Bool.and_eq_true, List.all_eq_true, decide_eq_true_eq] at h
  have hplain : ∀ c ∈ s.toList, Text.isPlain c = true := fun c hc => hcls c (h.1 c hc)
  rw [textSize_plain hplain, Text.size_of_ascii fun c hc => Text.isAscii_of_plain (hplain c hc)]
  omega

theorem textSize_hash (hash : Hash) : textSize (.str hash.1) ≤ 66 :=
  textSize_allOf hash.2 fun _ => Text.isPlain_isHexLower

theorem textSize_nonce (nonce : {s : String // isNonce s = true}) : textSize (.str nonce.1) ≤ 18 :=
  textSize_allOf nonce.2 fun _ => Text.isPlain_isHexLower

/-- Of a token standard quotes and backslashes are escaped. -/
theorem textSize_token {s : String} (h : isToken s = true) : textSize (.str s) ≤ 258 := by
  rw [isToken, Text.allOf, Bool.and_eq_true, List.all_eq_true, decide_eq_true_eq] at h
  have hprintable : s.toList.all Text.isPrintable = true := by
    refine List.all_eq_true.mpr fun c hc => decide_eq_true ?_
    have hrange := h.1 c hc
    rw [Bool.and_eq_true, decide_eq_true_eq] at hrange
    exact le_trans (by decide) hrange.1
  have hascii : ∀ c ∈ s.toList, Text.isAscii c = true := by
    intro c hc
    have hrange := h.1 c hc
    rw [Bool.and_eq_true, decide_eq_true_eq, decide_eq_true_eq] at hrange
    exact Text.isAscii_of_le (by decide) hrange.2
  have hescaped := utf8Len_escape_printable hprintable
  have hquote : ('\x22').utf8Size = 1 := by decide
  have hsize := Text.size_of_ascii hascii
  rw [← String.utf8Len_toList] at hsize
  simp only [textSize, Json.write, Json.writeString, String.utf8Len_cons, String.utf8Len_append,
    String.utf8Len_nil, hquote]
  omega

theorem textSize_amountText (amount : {s : String // Journal.validateAmount s = true}) :
    textSize (.str amount.1) ≤ 79 := by
  have h := amount.2
  simp only [Journal.validateAmount, Bool.and_eq_true] at h
  obtain ⟨⟨hlength, hdecimal⟩, -⟩ := h
  have hdigits : ∀ c ∈ amount.1.toList, Text.isDigit c = true := by
    unfold Text.isPositiveDecimal at hdecimal
    cases hs : amount.1.toList with
    | nil => exact fun c hc => absurd hc List.not_mem_nil
    | cons d ds =>
      rw [hs] at hdecimal
      simp only [Bool.and_eq_true, List.all_eq_true] at hdecimal
      intro c hc
      rcases List.mem_cons.mp hc with rfl | hc
      · exact hdecimal.1.1
      · exact hdecimal.2 c hc
  have hplain : ∀ c ∈ amount.1.toList, Text.isPlain c = true :=
    fun c hc => Text.isPlain_isDigit (hdigits c hc)
  have hcount : ∀ cs : List Char, (∀ c ∈ cs, Text.isDigit c = true) → utf16Count cs
      = cs.length := by
    intro cs
    induction cs with
    | nil => exact fun _ => rfl
    | cons c cs ih =>
      intro hcs
      have hascii := of_decide_eq_true (Text.isAscii_isDigit (hcs c (List.mem_cons_self ..)))
      have hsmall : c.toNat < 0x10000 := (UInt32.le_iff_toNat_le.mp hascii).trans_lt (by decide)
      rw [utf16Count_cons, ih fun d hd => hcs d (List.mem_cons_of_mem _ hd), utf16Size,
        if_pos hsmall, List.length_cons, Nat.add_comm]
  have hle := of_decide_eq_true hlength
  rw [utf16Length, hcount _ hdigits] at hle
  rw [textSize_plain hplain, Text.size_of_ascii fun c hc => Text.isAscii_isDigit (hdigits c hc)]
  omega

theorem textSize_amount (n : Amount) : textSize (.num n.1) ≤ 17 :=
  textSize_num_le (by have := n.2; omega)

theorem textSize_acknowledged (m : Acknowledged) : textSize (acknowledged.encode m) ≤ 110 := by
  have hsize := textSize_obj_le [("hash", .str m.hash.1), ("height", .num m.height.1.1)]
  have hhash := textSize_hash m.hash
  have hheight := textSize_amount m.height.1
  have hkeys : textSize (.str "hash") = 6 ∧ textSize (.str "height") = 8 := by decide
  simp only [List.map_cons, List.map_nil, List.sum_cons, List.sum_nil, memberSize, hkeys] at hsize
  have hencode : acknowledged.encode m
      = .obj [("hash", .str m.hash.1), ("height", .num m.height.1.1)] := rfl
  rw [hencode]
  omega

/-- The text of a block with a signature. -/
theorem textSize_signed (block : AccountBlock) (signature : String) : textSize (.obj
    [("version", .num 1), ("chainIdentifier", .num block.subject.chainIdentifier.1.1),
      ("blockType", .num 2), ("hash", .str block.hash.1),
      ("previousHash", .str block.subject.previousHash.1),
      ("height", .num block.subject.height.1.1),
      ("momentumAcknowledged", acknowledged.encode block.subject.momentumAcknowledged),
      ("address", .str block.subject.address.1), ("toAddress", .str block.subject.toAddress.1),
      ("amount", .str block.subject.amount.1),
      ("tokenStandard", .str block.subject.tokenStandard.1),
      ("fromBlockHash", .str ZERO_HASH), ("data", .str block.subject.data.1),
      ("fusedPlasma", .num block.fusedPlasma.1),
      ("difficulty", .num block.difficulty.1), ("nonce", .str block.nonce.1),
      ("publicKey", .str block.publicKey.1),
      ("signature", .str signature)]) ≤ 1398 + textSize (.str signature) := by
  have hkeys : textSize (.str "version") = 9 ∧ textSize (.str "chainIdentifier") = 17
      ∧ textSize (.str "blockType") = 11
      ∧ textSize (.str "hash") = 6 ∧ textSize (.str "previousHash") = 14
      ∧ textSize (.str "height") = 8
      ∧ textSize (.str "momentumAcknowledged") = 22 ∧ textSize (.str "address") = 9
      ∧ textSize (.str "toAddress") = 11
      ∧ textSize (.str "amount") = 8 ∧ textSize (.str "tokenStandard") = 15
      ∧ textSize (.str "fromBlockHash") = 15
      ∧ textSize (.str "data") = 6 ∧ textSize (.str "fusedPlasma") = 13
      ∧ textSize (.str "difficulty") = 12
      ∧ textSize (.str "nonce") = 7 ∧ textSize (.str "publicKey") = 11
      ∧ textSize (.str "signature") = 11
      ∧ textSize (.num 1) = 1 ∧ textSize (.num 2) = 1 ∧ textSize (.str ZERO_HASH) = 66 := by
    decide
  have hchain := textSize_amount block.subject.chainIdentifier.1
  have hhash := textSize_hash block.hash
  have hprevious := textSize_hash block.subject.previousHash
  have hheight := textSize_amount block.subject.height.1
  have hmomentum := textSize_acknowledged block.subject.momentumAcknowledged
  have haddress := textSize_address block.subject.address.2
  have hto := textSize_address block.subject.toAddress.2
  have hamount := textSize_amountText block.subject.amount
  have htoken := textSize_token block.subject.tokenStandard.2
  have hdata := textSize_data block.subject.data.2
  have hfused := textSize_amount block.fusedPlasma
  have hdifficulty := textSize_amount block.difficulty
  have hnonce := textSize_nonce block.nonce
  have hkey := textSize_publicKey block.publicKey.2
  refine (textSize_obj_le _).trans ?_
  simp only [List.map_cons, List.map_nil, List.sum_cons, List.sum_nil, memberSize, hkeys]
  omega

/-- The text of a block. -/
theorem textSize_block (block : AccountBlock) :
    textSize (accountBlockCodec.encode block) ≤ 1400 := by
  have hempty : textSize (.str "") = 2 := by decide
  have hsigned := textSize_signed block ""
  rw [hempty] at hsigned
  rwa [accountBlock_encode]

end Zenon
end ZenonX402
