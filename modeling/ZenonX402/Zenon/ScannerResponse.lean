/-
# What a response of JSON-RPC is

The scanner is met by its grammar: it returns a text exactly if what it is given is a response,
and the text is that of the result. A response is one JSON object of three members; the limits
are on its tree (`Envelope`) and on its bytes (`Response`).

Key definitions: `Envelope`, `Response`.
Key theorems: `resultSlice_iff`, `resultSlice_ends`, `response_tree`, `resultText_exact`.
-/
import ZenonX402.Zenon.ScannerGrammar

namespace ZenonX402
namespace Zenon
namespace Scanner

open CodeUnits Rfc8259
open Js (bind_ok map_ok orReject orReject_ok ite_error_left_ok ite_error_right_ok Gives
  gives_orReject gives_ite gives_map)

/-! ### Responses -/

/-- The members of a response. -/
structure Envelope (expectedId : CodeUnits) (ts : List (CodeUnits × Tree)) : Prop where
  keys : ∀ key, key ∈ ts.map Prod.fst ↔ key = units "jsonrpc" ∨ key = units "id"
    ∨ key = units "result"
  version : (units "jsonrpc", .text (units "2.0")) ∈ ts
  id : (units "id", .number expectedId) ∈ ts
  allowed : (Tree.container true ts).All Allowed
  depth : (Tree.container true ts).height ≤ MAX_DEPTH
  values : (Tree.container true ts).values ≤ MAX_VALUES
  containers : (Tree.container true ts).containers ≤ MAX_CONTAINERS
  members : (Tree.container true ts).members ≤ MAX_MEMBERS

/-- A text that is a response, and the text of its result. -/
def Response (text expectedId result : CodeUnits) : Prop :=
  ∃ (w b w' : CodeUnits) (ms : List (CodeUnits × CodeUnits)) (ts : List (CodeUnits × Tree)),
  text = w ++ 123 :: (b ++ w') ∧ Ws w ∧ Ws w'
    ∧ Layout true ms b ∧ Matches ts ms ∧ Envelope expectedId ts ∧ (units "result", result) ∈ ms
    ∧ Fits MAX_RESPONSE_BYTES text ∧ Fits MAX_RESULT_BYTES result

/-! ### The text of a member -/

/-- The text of a member stands in that of its container. -/
theorem members_slice {object : Bool} {key s : CodeUnits} {ms : List (CodeUnits × CodeUnits)}
    {b : CodeUnits} (h : Members object ms b) (hmem : (key, s) ∈ ms) :
    ∃ x y, b = x ++ (s ++ y) ∧ Delimited y := by
  induction h with
  | @last key' q s' w w' w'' _ _ _ hw'' =>
    obtain ⟨rfl, rfl⟩ := Prod.mk.inj (List.mem_singleton.mp hmem)
    refine ⟨w ++ (q ++ w'),
      w'' ++ [closing object], by simp, delimited_after hw'' (plain_closing object) []⟩
  | @cons key' q s' w w' w'' b ms _ _ _ hw'' _ ih =>
    rcases List.mem_cons.mp hmem with heq | hmem
    · obtain ⟨rfl, rfl⟩ := Prod.mk.inj heq
      exact ⟨w ++ (q ++ w'), w'' ++ 44 :: b, by simp, delimited_after hw'' (by decide) b⟩
    · obtain ⟨x, y, rfl, hy⟩ := ih hmem
      exact ⟨w ++ (q ++ (w' ++ (s' ++ (w'' ++ 44 :: x)))), y, by simp, hy⟩

theorem layout_slice {object : Bool} {key s : CodeUnits} {ms : List (CodeUnits × CodeUnits)}
    {b : CodeUnits} (h : Layout object ms b) (hmem : (key, s) ∈ ms) :
    ∃ x y, b = x ++ (s ++ y) ∧ Delimited y := by
  rcases h with ⟨rfl, -⟩ | h
  · cases hmem
  · exact members_slice h hmem

/-- A member has a tree. -/
theorem matches_mem : ∀ {ts : List (CodeUnits × Tree)} {ms : List (CodeUnits × CodeUnits)}
    {key s : CodeUnits}, Matches ts ms →
    (key, s) ∈ ms → ∃ t, (key, t) ∈ ts ∧ Reads t s
  | [], ms, key, s, h, hmem => by
    rw [Matches] at h
    rw [h] at hmem
    cases hmem
  | (key', t) :: ts, ms, key, s, h, hmem => by
    rw [Matches] at h
    obtain ⟨s', ms', rfl, ht, hts⟩ := h
    rcases List.mem_cons.mp hmem with heq | hmem
    · obtain ⟨rfl, rfl⟩ := Prod.mk.inj heq
      exact ⟨t, List.mem_cons_self, ht⟩
    · obtain ⟨t', hmem, ht'⟩ := matches_mem hts hmem
      exact ⟨t', List.mem_cons_of_mem _ hmem, ht'⟩

theorem isLow_plain {c : UInt16} (h : isLow c = true) : isPlainUnit c = true := by
  by_contra hplain
  simp only [isPlainUnit, isDelimiter, isWhitespace, Bool.not_eq_true', Bool.or_eq_true,
    decide_eq_true_eq, Bool.not_eq_false] at hplain
  rcases hplain with (((((rfl | rfl) | rfl) | rfl) | rfl) | rfl) | rfl <;>
    exact absurd h (by decide)

theorem isLow_first {c : UInt16} {f : First} (h : first c = some f) : isLow c = false := by
  by_contra hlow
  rw [Bool.not_eq_false] at hlow
  have hne {d : UInt16} (hd : isLow d = false) : c ≠ d := fun heq => by
    rw [heq, hd] at hlow
    cases hlow
  have hdigit : isDigit c = false := by
    by_contra hdigit
    simp only [isLow, isDigit, Bool.not_eq_false, Bool.and_eq_true,
      decide_eq_true_eq] at hlow hdigit
    omega
  simp [first, hdigit, hne (d := 34) (by decide), hne (d := 45) (by decide),
    hne (d := 116) (by decide), hne (d := 102) (by decide), hne (d := 110) (by decide),
    hne (d := 123) (by decide), hne (d := 91) (by decide)] at h

/-- The bytes of a value are some of those of the text that it stands in. -/
theorem fits_slice {maximum n : Nat} {t : Tree} {x s y : CodeUnits} (h : Sized (x ++ (s ++ y)) n)
    (hn : n ≤ maximum) (ht : Reads t s) (hy : Delimited y) : Fits maximum s := by
  obtain ⟨c, a, rfl, hc⟩ := first_reads ht
  have hs : Stops isLow (c :: a ++ y) := stops_cons (isLow_first hc)
  obtain ⟨i, j, -, hrest, rfl⟩ := sized_append hs h
  obtain ⟨k, l, hvalue, -, rfl⟩ :=
    sized_append (stops_of_delimited hy fun c hc => isLow_plain hc) hrest
  exact ⟨k, hvalue, by omega⟩

/-! ### The scan -/

/-- Where the members of the envelope begin, after the counters of the root. -/
theorem envelope_counters (ts : List (CodeUnits × Tree)) :
    ((Counters.initial.add 1 0 0).add 0 1 0).afterMembers ts
      = Counters.initial.after (.container true ts) :=
  (Counters.after_container Counters.initial true ts).symm

theorem within_after {t : Tree} : (Counters.initial.after t).Within ↔
    t.values ≤ MAX_VALUES ∧ t.containers ≤ MAX_CONTAINERS ∧ t.members ≤ MAX_MEMBERS := by
  constructor
  · rintro ⟨hvalues, hcontainers, hmembers⟩
    simp only [Counters.after, Counters.add, Counters.initial, Nat.zero_add] at hvalues hcontainers hmembers
    exact ⟨hvalues, hcontainers, hmembers⟩
  · rintro ⟨hvalues, hcontainers, hmembers⟩
    constructor <;> simpa only [Counters.after, Counters.add, Counters.initial, Nat.zero_add]

theorem isEnvelopeKey_iff {key : CodeUnits} :
    isEnvelopeKey key = true ↔ key = units "jsonrpc" ∨ key = units "id" ∨ key = units "result" := by
  simp only [isEnvelopeKey, Bool.or_eq_true, decide_eq_true_eq, or_assoc]

/-- What the loop checks of the members of an envelope, and what is checked after it. -/
theorem envelope_iff {expectedId : CodeUnits} {ts : List (CodeUnits × Tree)} :
    Envelope expectedId ts ↔
    KeysTaken isEnvelopeKey [] (ts.map Prod.fst) ∧ Tree.heightMembers ts ≤ MAX_DEPTH - 1
      ∧ Tree.AllMembers Allowed ts
    ∧ (∀ m ∈ ts, EnvelopeMember expectedId m) ∧ (Counters.initial.after (.container true ts)).Within
    ∧ units "jsonrpc" ∈ ts.map Prod.fst
    ∧ units "id" ∈ ts.map Prod.fst ∧ units "result" ∈ ts.map Prod.fst := by
  constructor
  · rintro ⟨hkeys, hversion, hid, ⟨⟨hnodup, hall⟩, halls⟩, hdepth, hvalues, hcontainers, hmembers⟩
    have hmember {key : CodeUnits} {t : Tree} (hmem : (key, t) ∈ ts) : ts.lookup key = some t :=
      (Js.Value.mem_iff_lookup _ _ hnodup).mp hmem
    refine ⟨keysTaken_iff.mpr ⟨hnodup, fun key hkey => ?_⟩,
      Nat.le_of_succ_le_succ hdepth, halls, ?_, within_after.mpr ⟨hvalues, hcontainers, hmembers⟩,
      (hkeys _).mpr (.inl rfl), (hkeys _).mpr (.inr (.inl rfl)),
      (hkeys _).mpr (.inr (.inr rfl))⟩
    · obtain ⟨hfits, hreserved⟩ := hall key hkey
      exact ⟨hfits, hreserved, List.not_mem_nil, isEnvelopeKey_iff.mpr ((hkeys key).mp hkey)⟩
    · rintro ⟨key, t⟩ hmem
      constructor
      · rintro rfl
        exact Option.some.inj ((hmember hmem).symm.trans (hmember hversion))
      · rintro rfl
        exact Option.some.inj ((hmember hmem).symm.trans (hmember hid))
  · rintro ⟨hkeys, hheights, halls, hmembers, hwithin, hversion, hid, hresult⟩
    obtain ⟨hnodup, htaken⟩ := keysTaken_iff.mp hkeys
    obtain ⟨hvalues, hcontainers, hcount⟩ := within_after.mp hwithin
    refine ⟨fun key => ⟨fun hkey => isEnvelopeKey_iff.mp (htaken key hkey).2.2.2, ?_⟩, ?_, ?_,
      ⟨⟨hnodup, fun key hkey => ⟨(htaken key hkey).1, (htaken key hkey).2.1⟩⟩, halls⟩,
      Nat.succ_le_succ hheights, hvalues, hcontainers,
      hcount⟩
    · rintro (rfl | rfl | rfl)
      · exact hversion
      · exact hid
      · exact hresult
    · obtain ⟨⟨key, t⟩, hmem, rfl⟩ := List.mem_map.mp hversion
      rw [← (hmembers _ hmem).1 rfl]
      exact hmem
    · obtain ⟨⟨key, t⟩, hmem, rfl⟩ := List.mem_map.mp hid
      rw [← (hmembers _ hmem).2 rfl]
      exact hmem

theorem within_root : (Counters.initial.add 1 0 0).Within := ⟨by decide, by decide, by decide⟩

theorem countValue_initial : Counters.initial.countValue = some (Counters.initial.add 1 0 0) :=
  (Counters.countValue_iff Counters.within_initial).mpr ⟨rfl, within_root⟩

/-- What is found of the envelope. -/
theorem envelope_found {k : Counters} {ts : List (CodeUnits × Tree)}
    {ms : List (CodeUnits × CodeUnits)} (hversion : k.versionSeen = false) (hid : k.idSeen = false)
    (hresult : k.result = none) (hts : Matches ts ms) (hnodup : (ts.map Prod.fst).Nodup)
    (s : CodeUnits) :
    ((k.envelope ts ms).versionSeen = true ∧ (k.envelope ts ms).idSeen = true
      ∧ (k.envelope ts ms).result = some s) ↔
    units "jsonrpc" ∈ ts.map Prod.fst ∧ units "id" ∈ ts.map Prod.fst
      ∧ (units "result", s) ∈ ms := by
  rw [Js.Value.mem_iff_lookup _ _ (matches_keys hts ▸ hnodup)]
  simp only [Counters.envelope, hversion, hid, hresult, Bool.false_or, Option.or_none,
    List.contains_iff_mem]

/-- The bytes of the result are counted only if those of the response do not bound them. -/
theorem result_bytes {bytes : Nat} {s result : CodeUnits}
    (hbytes : bytes ≤ MAX_RESULT_BYTES → Fits MAX_RESULT_BYTES s) :
    (if bytes > MAX_RESULT_BYTES then (orReject (utf8Length MAX_RESULT_BYTES 0 s) Halt.refused).map
      fun _ => s else .ok s)
      = .ok result ↔ s = result ∧ Fits MAX_RESULT_BYTES s := by
  split
  next hlarge =>
    rw [map_ok]
    constructor
    · rintro ⟨n, hn, rfl⟩
      obtain ⟨k, hsized, rfl, hmax⟩ := (utf8Length_iff (Nat.zero_le _)).mp (orReject_ok.mp hn)
      exact ⟨rfl, k, hsized, by omega⟩
    · rintro ⟨rfl, k, hsized, hmax⟩
      exact ⟨0 + k, orReject_ok.mpr
        ((utf8Length_iff (Nat.zero_le _)).mpr ⟨k, hsized, rfl, by omega⟩), rfl⟩
  next hsmall =>
    rw [Except.ok.injEq]
    exact ⟨fun h => ⟨h, hbytes (Nat.not_lt.mp hsmall)⟩, fun h => h.1⟩

/-- The bytes of the result are some of those of the response. -/
theorem result_fits {w b w' s : CodeUnits} {ms : List (CodeUnits × CodeUnits)}
    {ts : List (CodeUnits × Tree)} {bytes : Nat} (hsized : Sized (w ++ 123 :: (b ++ w')) bytes)
    (hlayout : Layout true ms b) (hw' : Ws w') (hts : Matches ts ms)
    (hmem : (units "result", s) ∈ ms) (hbytes : bytes ≤ MAX_RESULT_BYTES) :
    Fits MAX_RESULT_BYTES s := by
  obtain ⟨t, -, ht⟩ := matches_mem hts hmem
  obtain ⟨x, y, rfl, hy⟩ := layout_slice hlayout hmem
  have htext : w ++ 123 :: (x ++ (s ++ y) ++ w') = (w ++ 123 :: x) ++ (s ++ (y ++ w')) := by simp
  rw [htext] at hsized
  refine fits_slice hsized hbytes ht ?_
  rcases y with _ | ⟨c, y⟩
  · intro c hc
    have hspace := hw' c (List.mem_of_mem_head? hc)
    simp [isPlainUnit, isDelimiter, hspace]
  · exact stops_cons (hy c rfl)

/-- What the scanner finds is a response. -/
theorem resultSlice_sound {n : Nat} {text expectedId result : CodeUnits}
    (h : resultSlice n text expectedId = .ok result) :
    Response text expectedId result := by
  unfold resultSlice at h
  obtain ⟨bytes, hbytes, h⟩ := bind_ok.mp h
  obtain ⟨_, hsized, rfl, hmax⟩ := (utf8Length_iff (Nat.zero_le _)).mp (orReject_ok.mp hbytes)
  obtain ⟨w, htext, hw⟩ := whitespace_split text
  split at h
  · cases h
  next c a hspace =>
  obtain ⟨hc, h⟩ := ite_error_left_ok.mp h
  obtain rfl := not_not.mp hc
  obtain ⟨k, hcount, h⟩ := bind_ok.mp h
  obtain rfl := Option.some.inj (countValue_initial.symm.trans (orReject_ok.mp hcount))
  obtain ⟨⟨r, k'⟩, hcontainer, h⟩ := bind_ok.mp h
  obtain ⟨ms, b, rfl, hlayout, hkeys, -, hfold, hk'⟩ :=
    container_sound envelopeEntry_sound within_root hcontainer
  obtain ⟨ts, hts, hheights, halls, hmembers, rfl⟩ :=
    (fold_envelope (keysTaken_iff.mp (hkeys rfl)).1 hk').mp hfold
  have htaken := hkeys rfl
  rw [matches_keys hts] at htaken
  obtain ⟨hend, h⟩ := ite_error_left_ok.mp h
  simp only [Bool.or_eq_true, decide_eq_true_eq, not_or, Bool.not_eq_true', Bool.not_eq_false,
    not_not] at hend
  obtain ⟨⟨hempty, hversion⟩, hid⟩ := hend
  obtain ⟨s, hlookup, h⟩ := bind_ok.mp h
  obtain ⟨hversionKey, hidKey, hmem⟩ :=
    (envelope_found rfl rfl rfl hts (keysTaken_iff.mp htaken).1 s).mp
    ⟨hversion, hid, orReject_ok.mp hlookup⟩
  obtain ⟨w', hspace', hw'⟩ := whitespace_split r
  rw [hempty, List.append_nil] at hspace'
  rw [hspace, hspace'] at htext
  have hwithin : (Counters.initial.after (.container true ts)).Within := by
    rw [← envelope_counters]
    exact within_update hk' rfl rfl rfl
  have hresultKey : units "result" ∈ ts.map Prod.fst := by
    rw [← matches_keys hts]
    exact List.mem_map_of_mem hmem
  obtain ⟨rfl, hfits⟩ := (result_bytes fun hsmall =>
    result_fits (htext ▸ hsized) hlayout hw' hts hmem (by omega)).mp h
  exact ⟨w, b, w', ms, ts, htext, hw, hw', hlayout, hts,
    envelope_iff.mpr ⟨htaken, hheights, halls, hmembers, hwithin, hversionKey, hidKey, hresultKey⟩,
    hmem, ⟨_, hsized, by omega⟩, hfits⟩

/-- A response is found, if the loops may take a turn for each of its units. -/
theorem resultSlice_complete {n : Nat} {text expectedId result : CodeUnits}
    (h : Response text expectedId result) (hn : text.length ≤ n) :
    resultSlice n text expectedId = .ok result := by
  obtain ⟨w, b, w', ms, ts, rfl, hw, hw', hlayout, hts, henvelope, hmem,
    ⟨bytes, hsized, hmax⟩, hfits⟩ := h
  obtain ⟨htaken, hheights, halls, hmembers, hwithin, hversionKey, hidKey, -⟩ :=
    envelope_iff.mp henvelope
  have hnodup := (keysTaken_iff.mp htaken).1
  have hnodup' : (ms.map Prod.fst).Nodup := matches_keys hts ▸ hnodup
  have hspace : whitespace (w ++ 123 :: (b ++ w')) = 123 :: (b ++ w') :=
    whitespace_append hw (stops_cons (by decide))
  have hlength : (b ++ w').length ≤ n := by
    rw [List.length_append, List.length_cons] at hn
    omega
  rw [← envelope_counters] at hwithin
  obtain ⟨hversion, hid, hresult⟩ :=
    (envelope_found (k := (Counters.initial.add 1 0 0).add 0 1 0) rfl rfl rfl hts hnodup result).mpr
    ⟨hversionKey, hidKey, hmem⟩
  have hempty : whitespace w' = [] := by
    have hend := whitespace_append (x := []) hw' (stops_nil _)
    rwa [List.append_nil] at hend
  have hk' : ((((Counters.initial.add 1 0 0).add 0 1 0)).envelope ts ms).Within :=
    within_update hwithin rfl rfl rfl
  have hcontainer : container n true isEnvelopeKey (envelopeEntry n expectedId) (b ++ w')
      (Counters.initial.add 1 0 0)
      = .ok (w', ((Counters.initial.add 1 0 0).add 0 1 0).envelope ts ms) :=
    container_complete envelopeEntry_complete (fun _ _ _ _ ⟨t, ht, _⟩ => ⟨t, ht⟩) hlayout
      within_root (within_of_envelope hk')
      (fun _ => matches_keys hts ▸ htaken)
      ((fold_envelope hnodup' hk').mpr ⟨ts, hts, hheights, halls, hmembers, rfl⟩) hlength
  unfold resultSlice
  refine bind_ok.mpr ⟨0 + bytes,
    orReject_ok.mpr ((utf8Length_iff (Nat.zero_le _)).mpr ⟨bytes, hsized, rfl, by omega⟩), ?_⟩
  rw [hspace]
  refine (if_neg (by decide)).trans ?_
  rw [countValue_initial]
  refine bind_ok.mpr ⟨_, rfl, bind_ok.mpr ⟨_, hcontainer, ?_⟩⟩
  refine (if_neg (by simp [hempty, hversion, hid])).trans ?_
  refine bind_ok.mpr ⟨result, orReject_ok.mpr hresult, ?_⟩
  exact (result_bytes fun _ => hfits).mpr ⟨rfl, hfits⟩

theorem resultSlice_iff {n : Nat} {text expectedId result : CodeUnits} (hn : text.length ≤ n) :
    resultSlice n text expectedId = .ok result ↔ Response text expectedId result :=
  ⟨resultSlice_sound, fun h => resultSlice_complete h hn⟩

/-- With a turn for each unit a text is either read or refused. -/
theorem resultSlice_ends {n : Nat} {text expectedId : CodeUnits} (hn : text.length ≤ n) :
    Gives (resultSlice n text expectedId) (· = .refused) fun _ => True := by
  unfold resultSlice
  refine gives_orReject.mpr ⟨fun _ => rfl, fun bytes _ => ?_⟩
  have hspace := (whitespace_length text).trans hn
  split
  · rfl
  next c a hstart =>
  rw [hstart] at hspace
  refine gives_ite.mpr ⟨fun _ => rfl,
    fun _ => gives_orReject.mpr ⟨fun _ => rfl, fun k hcount => ?_⟩⟩
  obtain rfl : Counters.initial.add 1 0 0 = k :=
    Option.some.inj (countValue_initial.symm.trans hcount)
  refine (container_turns envelopeEntry_sound envelopeEntry_turns within_root
    ((Nat.le_succ _).trans hspace)).bind fun r _ => ?_
  refine gives_ite.mpr ⟨fun _ => rfl,
    fun _ => gives_orReject.mpr ⟨fun _ => rfl, fun result _ => ?_⟩⟩
  refine gives_ite.mpr ⟨fun _ => gives_map.mpr ?_, fun _ => trivial⟩
  cases utf8Length MAX_RESULT_BYTES 0 result with
  | none => rfl
  | some n => trivial

/-- More turns neither find nor refuse anything else. -/
theorem resultSlice_turns {n : Nat} {text expectedId : CodeUnits} (hn : text.length ≤ n) :
    resultSlice n text expectedId = resultSlice text.length text expectedId := by
  have hends := @resultSlice_ends n text expectedId hn
  have hends' := @resultSlice_ends text.length text expectedId (le_refl _)
  have hfound (result : CodeUnits) : resultSlice n text expectedId = .ok result ↔
      resultSlice text.length text expectedId = .ok result := by
    rw [resultSlice_iff hn, resultSlice_iff (le_refl _)]
  cases hresult : resultSlice n text expectedId with
  | ok result => exact ((hfound result).mp hresult).symm
  | error e =>
    cases hresult' : resultSlice text.length text expectedId with
    | ok result =>
      rw [(hfound result).mpr hresult'] at hresult
      cases hresult
    | error e' =>
      rw [hresult] at hends
      rw [hresult'] at hends'
      rw [show e = .refused from hends, show e' = .refused from hends']

/-- The text of the result says what the member of the response says. -/
theorem response_tree {text expectedId result : CodeUnits} (h : Response text expectedId result) :
    ∃ ts v, Parses text (.container true ts) ∧ ts.lookup (units "result") = some v
      ∧ Parses result v := by
  obtain ⟨w, b, w', ms, ts, rfl, hw, hw', hlayout, hts, henvelope, hmem, -, -⟩ := h
  obtain ⟨v, hmember, hv⟩ := matches_mem hts hmem
  have hempty : Ws [] := fun _ h => absurd h List.not_mem_nil
  refine ⟨ts, v, ⟨w, 123 :: b, w', by simp, hw, ?_, hw'⟩,
    (Js.Value.mem_iff_lookup _ _ henvelope.allowed.1.1).mp hmember, [], result,
    [], by simp, hempty, hv, hempty⟩
  rw [Reads]
  exact ⟨b, ms, rfl, hlayout, hts⟩

/-- The scanner of results accepts its grammar and nothing else: what it returns is the text of the
result as it stands, which says what the only tree of the response says of its result. What it does
not accept it refuses, for no loop of it runs out of turns, and with more of them nothing changes.
-/
theorem resultText_exact (text : CodeUnits) (expectedRequestId : Int) :
    (∀ result, snapshotBoundedJsonRpcReadResultText text expectedRequestId = .ok result ↔
      (1 ≤ expectedRequestId ∧ expectedRequestId ≤ MAX_REQUEST_ID)
        ∧ Response text (units (toString expectedRequestId)) result)
    ∧ (∀ result, snapshotBoundedJsonRpcReadResultText text expectedRequestId = .ok result →
      ∃ ts v, Parses text (.container true ts) ∧ (∀ t, Parses text t → t = .container true ts)
        ∧ ts.lookup (units "result") = some v
        ∧ Parses result v ∧ ∀ v', Parses result v' → v' = v)
    ∧ snapshotBoundedJsonRpcReadResultText text expectedRequestId ≠ .error .outOfTurns
    ∧ ∀ n, resultSlice (text.length + n) text (units (toString expectedRequestId))
      = resultSlice text.length text (units (toString expectedRequestId)) := by
  have hiff : ∀ result, snapshotBoundedJsonRpcReadResultText text expectedRequestId = .ok result ↔
      (1 ≤ expectedRequestId ∧ expectedRequestId ≤ MAX_REQUEST_ID)
        ∧ Response text (units (toString expectedRequestId)) result := by
    intro result
    rw [snapshotBoundedJsonRpcReadResultText, ite_error_left_ok, resultSlice_iff (le_refl _),
      not_or, not_lt, not_lt]
  refine ⟨hiff, fun result h => ?_, fun hlate => ?_,
    fun n => resultSlice_turns (Nat.le_add_right _ _)⟩
  · obtain ⟨-, hresponse⟩ := (hiff result).mp h
    obtain ⟨ts, v, ht, hlookup, hv⟩ := response_tree hresponse
    exact ⟨ts, v, ht, fun t' ht' => parses_unique ht' ht, hlookup, hv,
      fun v' hv' => parses_unique hv' hv⟩
  · have hends : Gives (snapshotBoundedJsonRpcReadResultText text expectedRequestId) (· = .refused)
        fun _ => True :=
      gives_ite.mpr ⟨fun _ => rfl, fun _ => resultSlice_ends (le_refl _)⟩
    rw [hlate] at hends
    cases (hends : Halt.outOfTurns = .refused)

/-- A response with its members in another order, with whitespace between them. -/
def sampleResponse : CodeUnits :=
  units "\x7b\"result\": [1, \"a\"], \"id\":7,\"jsonrpc\":\"2.0\"\x7d"

theorem resultText_sample : ∃ ts v, Parses sampleResponse (.container true ts)
    ∧ (∀ t, Parses sampleResponse t → t = .container true ts)
    ∧ ts.lookup (units "result") = some v ∧ Parses (units "[1, \"a\"]") v ∧ ∀ v',
    Parses (units "[1, \"a\"]") v' → v' = v :=
  (resultText_exact sampleResponse 7).2.1 _ (by decide +kernel)

end Scanner
end Zenon
end ZenonX402
