/-
# The normalizer and its versions

What the normalizer calls active, said of the input as it is handed in (`normalize_active`), and
what is before dynamic plasma (`normalize_before`). The three versions of it agree: a request is
one thing more to match (`active_bound`), and a total one thing more to be right (`active_total`).
An input whose endpoints list the sporks in another order is classified as before
(`normalize_listed`), and so is one whose endpoints are exchanged, exactly if they do not fail
alone, each in its own way (`normalize_exchanged`). A quote is created of whatever is active
(`normalize_quotable`).

Key definitions: `Declares`, `Active`, `threeFields`.
Key theorems: `normalize_active`, `normalize_before`, `active_total`, `active_bound`,
`normalize_listed`, `normalize_exchanged`, `normalize_quotable`.
-/
import ZenonX402.Lib.Sha2
import ZenonX402.Plasma.Inputs

namespace ZenonX402
namespace Plasma
namespace Observation

open Js

variable {sha : Sha256} {input v : Value} {rest : List Value} {n : Normalized} {version : Fin 3}
    {expected : Option Digest}
  {profile : ExpectedProfile} {compiled : CompiledSporks} {answer : Answer} {e : Endpoint}
  {key k : String}

/-! ### What an input declares -/

/-- What is asked of an input beside its endpoints and its request. -/
structure Declares (input : Value) (rest : List Value) (version : Fin 3) (expected : Option Digest)
    (profile : ExpectedProfile) (compiled : CompiledSporks) : Prop where
  keys : ∃ fs, input = .obj fs ∧ (observationVersion (fs.map Prod.fst)).1 = version
    ∧ (fs.map Prod.fst).Perm (observationVersion (fs.map Prod.fst)).2
  selector : ¬ (version ≠ 0 ∧ (under "requiredFusedObservationVersion" input).strictEq (.num 1)
    = false)
  requestSelector : ¬ (version = 2 ∧ (under "quoteRequestContextVersion" input).strictEq (.num 1)
    = false)
  arguments : ¬ (1 < rest.length ∨ 0 < rest.length ∧ version ≠ 2)
  expected_eq : expectedDigest rest.head? = .ok expected
  profile_eq : snapshotExpectedProfile.decode (under "expectedChainProfile" input) = .ok profile
  compiled_eq : snapshotCompiledSporks.decode (under "compiledSporkIds" input) = .ok compiled

/-- What the normalizer answers, of what an input declares. -/
theorem normalize_ok : normalizeDynamicPlasmaObservation sha (input :: rest) = .ok n ↔
    ∃ version expected profile compiled, Declares input rest version expected profile compiled
      ∧ (version ≠ 2 ∧ (∃ answer,
        observe profile compiled (decide (version = 1)) (under "endpointObservations" input)
          = .ok answer
          ∧ n = ⟨version, profile, compiled, none, .NOT_ESTABLISHED, answer⟩)
        ∨ version = 2 ∧ ∃ context bound,
          boundContext sha profile compiled expected (under "quoteRequestContext" input)
            = .ok (context, bound)
          ∧ (bound = false ∧ n
            = ⟨2, profile, compiled, none, .NOT_ESTABLISHED,
              misbound .QUOTE_REQUEST_CONTEXT_MISMATCH⟩
            ∨ bound = true ∧ ∃ answer,
            observe profile compiled true (under "endpointObservations" input) = .ok answer
              ∧ n = requestBound profile compiled expected context answer)) := by
  cases input with
  | obj fs =>
    unfold normalizeDynamicPlasmaObservation
    simp only [bind_ok, failWith_ok, rejectIf_ok]
    constructor
    · rintro ⟨get, hget, _, hselector, _, hrequest, _, harguments, expected, hexpected, profile,
        hprofile, compiled, hcompiled, h⟩
      obtain ⟨fs', hfs, hp, rfl⟩ := record_ok.mp hget
      obtain rfl := Value.obj.inj hfs
      refine ⟨_, expected, profile, compiled,
        ⟨⟨fs, rfl, rfl, hp⟩, hselector, hrequest, harguments, hexpected, hprofile, hcompiled⟩, ?_⟩
      split at h
      next htwo =>
        obtain ⟨⟨context, bound⟩, hcontext, h⟩ := bind_ok.mp h
        refine .inr ⟨htwo, context, bound, hcontext, ?_⟩
        dsimp only at h
        split at h
        next hbound => exact .inl ⟨hbound, (Except.ok.inj h).symm⟩
        next hbound =>
          obtain ⟨answer, hanswer, h⟩ := bind_ok.mp h
          exact .inr ⟨by simpa using hbound, answer, hanswer, (Except.ok.inj h).symm⟩
      next htwo =>
        obtain ⟨answer, hanswer, h⟩ := bind_ok.mp h
        exact .inl ⟨htwo, answer, hanswer, (Except.ok.inj h).symm⟩
    · rintro ⟨version, expected, profile, compiled,
        ⟨⟨fs', hfs, rfl, hp⟩, hselector, hrequest, harguments, hexpected, hprofile, hcompiled⟩, h⟩
      obtain rfl := Value.obj.inj hfs
      refine ⟨_, record_ok.mpr ⟨fs, rfl, hp, rfl⟩, (), hselector, (), hrequest, (), harguments,
        expected, hexpected, profile, hprofile, compiled, hcompiled, ?_⟩
      rcases h with ⟨htwo, answer, hanswer, rfl⟩ | ⟨htwo, context, bound, hcontext, h⟩
      · rw [if_neg htwo]
        exact bind_ok.mpr ⟨answer, hanswer, rfl⟩
      · rw [if_pos htwo]
        refine bind_ok.mpr ⟨(context, bound), hcontext, ?_⟩
        rcases h with ⟨rfl, rfl⟩ | ⟨rfl, answer, hanswer, rfl⟩
        · rfl
        · exact bind_ok.mpr ⟨answer, hanswer, rfl⟩
  | _ =>
    constructor
    · intro h
      cases h
    · rintro ⟨version, expected, profile, compiled, ⟨⟨fs, hfs, -⟩, -⟩, -⟩
      cases hfs

theorem requestBound_classification {context : RequestContext} :
    (requestBound profile compiled expected context answer).classification
      = answer.classification := by
  cases answer <;> rfl

/-- An input that the normalizer calls active. -/
def Active (sha : Sha256) (input : Value) (rest : List Value) : Prop :=
  ∃ n, normalizeDynamicPlasmaObservation sha (input :: rest) = .ok n ∧ n.classification = .DP_ACTIVE

/-- What an input declares is read of it in one way. -/
theorem declares_unique {version' : Fin 3} {expected' : Option Digest} {profile' : ExpectedProfile}
    {compiled' : CompiledSporks} (h : Declares input rest version expected profile compiled)
    (h' : Declares input rest version' expected' profile' compiled') :
    version = version' ∧ expected = expected' ∧ profile = profile' ∧ compiled = compiled' := by
  obtain ⟨fs, rfl, hversion, -⟩ := h.keys
  obtain ⟨fs', hfs, hversion', -⟩ := h'.keys
  obtain rfl := Value.obj.inj hfs
  exact ⟨hversion.symm.trans hversion', Except.ok.inj (h.expected_eq.symm.trans h'.expected_eq),
    Except.ok.inj (h.profile_eq.symm.trans h'.profile_eq),
    Except.ok.inj (h.compiled_eq.symm.trans h'.compiled_eq)⟩

/-- Only the first version is without the total. -/
theorem fourField_of_ne (h : version ≠ 2) : decide (version ≠ 0) = decide (version = 1) := by
  fin_cases version
  · rfl
  · rfl
  · exact absurd rfl h

/-- An input whose declarations are known is classified as its endpoints are, once its request is
the one that is expected. -/
theorem class_declared {k : Classification} (hunavailable : k ≠ .UNAVAILABLE)
    (hmisbound : k ≠ .MISBOUND_OR_INCOHERENT)
    (h : Declares input rest version expected profile compiled) :
    (∃ n, normalizeDynamicPlasmaObservation sha (input :: rest) = .ok n ∧ n.classification = k) ↔
      (version = 2 → ∃ context,
        boundContext sha profile compiled expected (under "quoteRequestContext" input)
          = .ok (context, true))
        ∧ ∃ left right, snapshotEndpointArray (under "endpointObservations" input)
        (decide (version ≠ 0)) = .ok (some left, some right)
          ∧ ∃ answer, agree profile compiled.1 left right = .ok answer
          ∧ answer.classification = k := by
  rw [← observe_class hunavailable]
  constructor
  · rintro ⟨n, hn, hclass⟩
    obtain ⟨version', expected', profile', compiled', h', hn⟩ := normalize_ok.mp hn
    obtain ⟨rfl, rfl, rfl, rfl⟩ := declares_unique h h'
    rcases hn with ⟨htwo, answer, hanswer, rfl⟩ | ⟨rfl, context, bound, hcontext,
      ⟨-, rfl⟩ | ⟨rfl, answer, hanswer, rfl⟩⟩
    · rw [fourField_of_ne htwo]
      exact ⟨fun h => absurd h htwo, answer, hanswer, hclass⟩
    · exact absurd hclass.symm hmisbound
    · rw [requestBound_classification] at hclass
      exact ⟨fun _ => ⟨context, hcontext⟩, answer, hanswer, hclass⟩
  · rintro ⟨hbound, answer, hanswer, hclass⟩
    by_cases htwo : version = 2
    · subst htwo
      obtain ⟨context, hcontext⟩ := hbound rfl
      exact ⟨_, normalize_ok.mpr ⟨2, expected, profile, compiled, h,
        .inr ⟨rfl, context, true, hcontext, .inr ⟨rfl, answer, hanswer, rfl⟩⟩⟩,
        requestBound_classification.trans hclass⟩
    · rw [fourField_of_ne htwo] at hanswer
      exact ⟨_, normalize_ok.mpr ⟨version, expected, profile, compiled, h,
        .inl ⟨htwo, answer, hanswer, rfl⟩⟩, hclass⟩

/-- What is active, of an input whose declarations are known. -/
theorem active_declared (h : Declares input rest version expected profile compiled) :
    Active sha input rest ↔
    (version = 2 → ∃ context,
      boundContext sha profile compiled expected (under "quoteRequestContext" input)
        = .ok (context, true))
      ∧ ∃ e, snapshotEndpointArray (under "endpointObservations" input) (decide (version ≠ 0))
      = .ok (some e, some e)
        ∧ Agreed profile compiled.1 e := by
  unfold Active
  rw [class_declared (by decide) (by decide) h]
  refine and_congr_right fun _ => ?_
  simp only [agree_active]
  constructor
  · rintro ⟨e, _, hread, rfl, hagreed⟩
    exact ⟨e, hread, hagreed⟩
  · rintro ⟨e, hread, hagreed⟩
    exact ⟨e, e, hread, rfl, hagreed⟩

/-- **What is active.** An input is active exactly if it declares a profile and the compiled ids
under a version, its request, if that is the version, is the one that is supplied and expected, and
both endpoints report one observation that agrees with them. -/
theorem normalize_active : Active sha input rest ↔ ∃ version expected profile compiled e,
    Declares input rest version expected profile compiled
      ∧ (version = 2 → ∃ context,
        boundContext sha profile compiled expected (under "quoteRequestContext" input)
          = .ok (context, true))
      ∧ snapshotEndpointArray (under "endpointObservations" input) (decide (version ≠ 0))
      = .ok (some e, some e)
      ∧ Agreed profile compiled.1 e := by
  constructor
  · intro hactive
    have ⟨n, hn, _⟩ := hactive
    obtain ⟨version, expected, profile, compiled, h, -⟩ := normalize_ok.mp hn
    obtain ⟨hbound, e, hread, hagreed⟩ := (active_declared h).mp hactive
    exact ⟨version, expected, profile, compiled, e, h, hbound, hread, hagreed⟩
  · rintro ⟨version, expected, profile, compiled, e, h, hbound, hread, hagreed⟩
    exact (active_declared h).mpr ⟨hbound, e, hread, hagreed⟩

/-- **What is before dynamic plasma.** The same, of one observation at a frontier without prices
after which dynamic plasma is not active. -/
theorem normalize_before :
    (∃ n, normalizeDynamicPlasmaObservation sha (input :: rest) = .ok n
      ∧ n.classification = .PRE_DP) ↔
    ∃ version expected profile compiled e, Declares input rest version expected profile compiled
      ∧ (version = 2 → ∃ context,
        boundContext sha profile compiled expected (under "quoteRequestContext" input)
          = .ok (context, true))
      ∧ snapshotEndpointArray (under "endpointObservations" input) (decide (version ≠ 0))
      = .ok (some e, some e)
      ∧ Earlier profile compiled.1 e := by
  constructor
  · intro hbefore
    have ⟨n, hn, _⟩ := hbefore
    obtain ⟨version, expected, profile, compiled, h, -⟩ := normalize_ok.mp hn
    obtain ⟨hbound, left, _, hread, hagree⟩ := (class_declared (by decide) (by decide) h).mp hbefore
    obtain ⟨rfl, hearlier⟩ := agree_before.mp hagree
    exact ⟨version, expected, profile, compiled, left, h, hbound, hread, hearlier⟩
  · rintro ⟨version, expected, profile, compiled, e, h, hbound, hread, hearlier⟩
    exact (class_declared (by decide) (by decide) h).mpr
      ⟨hbound, e, e, hread, agree_before.mpr ⟨rfl, hearlier⟩⟩

/-! ### An input with other endpoints -/

theorem under_edit_of_ne {f : Value → Value} (h : k ≠ key) :
    under k (edit key f v) = under k v := by
  cases v with
  | obj fs =>
    change ((replace fs key _).lookup k).getD _ = _
    rw [lookup_replace, if_neg h]
    rfl
  | _ => rfl

theorem under_edit_self {f : Value → Value} {fs : List (String × Value)}
    (h : key ∈ fs.map Prod.fst) :
    under key (edit key f (.obj fs)) = f (under key (.obj fs)) := by
  obtain ⟨got, hgot, hself, -⟩ := @record_edit _ _ key _ f (record_ok.mpr ⟨fs, rfl, .refl _, rfl⟩) h
  obtain ⟨_, _, _, rfl⟩ := record_ok.mp hgot
  exact hself

theorem declares_edit {f : Value → Value}
    (h : Declares input rest version expected profile compiled) :
    Declares (edit "endpointObservations" f input) rest version expected profile compiled
      ∧ under "endpointObservations" (edit "endpointObservations" f input)
      = f (under "endpointObservations" input) := by
  obtain ⟨⟨fs, rfl, hversion, hp⟩, hselector, hrequest, harguments, hexpected, hprofile,
    hcompiled⟩ := h
  have hmem : "endpointObservations" ∈ fs.map Prod.fst := by
    rw [hp.mem_iff]
    unfold observationVersion
    split_ifs <;> decide
  refine ⟨⟨⟨_, rfl, by rw [keys_replace]; exact hversion, by rw [keys_replace]; exact hp⟩, ?_, ?_,
    harguments, hexpected, ?_, ?_⟩, under_edit_self hmem⟩
  · rwa [under_edit_of_ne (by decide)]
  · rwa [under_edit_of_ne (by decide)]
  · rwa [under_edit_of_ne (by decide)]
  · rwa [under_edit_of_ne (by decide)]

/-- What is observed is never that the request is another one. -/
theorem observe_ne {fourField : Bool} (h : observe profile compiled fourField v = .ok answer) :
    answer ≠ misbound .QUOTE_REQUEST_CONTEXT_MISMATCH := by
  rcases observe_ok.mp h with ⟨left, right, -, hagree⟩ | ⟨_, _, -, -, rfl⟩
  · rcases agree_cases hagree with ⟨reason, hne, rfl⟩ | rfl | ⟨c, rfl, -⟩
    · exact fun heq => hne (Answer.failure.inj heq).2
    · exact nofun
    · exact nofun
  · exact nofun

theorem requestBound_answer {context : RequestContext} :
    (requestBound profile compiled expected context answer).answer = answer := by
  cases answer <;> rfl

theorem requestBound_version {context : RequestContext} :
    (requestBound profile compiled expected context answer).observationVersion = 2 := by
  cases answer <;> rfl

/-- Once its request is the one that is expected, an input is normalized as its endpoints are
observed, and so it is with other endpoints. -/
theorem normalize_observed (h : normalizeDynamicPlasmaObservation sha (input :: rest) = .ok n)
    (hbound : n.answer ≠ misbound .QUOTE_REQUEST_CONTEXT_MISMATCH) : ∃ profile compiled,
    observe profile compiled (decide (n.observationVersion ≠ 0))
    (under "endpointObservations" input) = .ok n.answer
      ∧ ∀ f, (∃ n', normalizeDynamicPlasmaObservation sha
        (edit "endpointObservations" f input :: rest) = .ok n'
          ∧ n'.classification = n.classification)
        ↔ ∃ answer, observe profile compiled (decide (n.observationVersion ≠ 0))
          (f (under "endpointObservations" input)) = .ok answer
          ∧ answer.classification = n.classification := by
  obtain ⟨version, expected, profile, compiled, hdeclares, h⟩ := normalize_ok.mp h
  have hrequest : ∀ f, under "quoteRequestContext" (edit "endpointObservations" f input)
      = under "quoteRequestContext" input :=
    fun f => under_edit_of_ne (by decide)
  rcases h with ⟨htwo, answer, hanswer, rfl⟩ | ⟨rfl, context, bound, hcontext,
    ⟨-, rfl⟩ | ⟨rfl, answer, hanswer, rfl⟩⟩
  · have hfour : decide (version ≠ 0) = decide (version = 1) := fourField_of_ne htwo
    refine ⟨profile, compiled, by rw [hfour]; exact hanswer, fun f => ?_⟩
    obtain ⟨hdeclares', hunder⟩ := @declares_edit _ _ _ _ _ _ f hdeclares
    rw [hfour, ← hunder]
    constructor
    · rintro ⟨n', hn', hclass⟩
      obtain ⟨_, _, _, _, hother, hn'⟩ := normalize_ok.mp hn'
      obtain ⟨rfl, rfl, rfl, rfl⟩ := declares_unique hdeclares' hother
      rcases hn' with ⟨-, answer', hanswer', rfl⟩ | ⟨htwo', -⟩
      · exact ⟨answer', hanswer', hclass⟩
      · exact absurd htwo' htwo
    · rintro ⟨answer', hanswer', hclass⟩
      exact ⟨_, normalize_ok.mpr ⟨version, expected, profile, compiled, hdeclares',
        .inl ⟨htwo, answer', hanswer', rfl⟩⟩, hclass⟩
  · exact absurd rfl hbound
  · rw [requestBound_version, requestBound_answer, requestBound_classification]
    refine ⟨profile, compiled, hanswer, fun f => ?_⟩
    obtain ⟨hdeclares', hunder⟩ := @declares_edit _ _ _ _ _ _ f hdeclares
    rw [← hunder]
    constructor
    · rintro ⟨n', hn', hclass⟩
      obtain ⟨_, _, _, _, hother, hn'⟩ := normalize_ok.mp hn'
      obtain ⟨rfl, rfl, rfl, rfl⟩ := declares_unique hdeclares' hother
      rw [hrequest, hcontext] at hn'
      rcases hn' with ⟨htwo', -⟩ | ⟨-, _, _, hsame, ⟨rfl, -⟩ | ⟨rfl, answer', hanswer', rfl⟩⟩
      · exact absurd rfl htwo'
      · cases hsame
      · exact ⟨answer', hanswer', requestBound_classification.symm.trans hclass⟩
    · rintro ⟨answer', hanswer', hclass⟩
      refine ⟨requestBound profile compiled expected context answer',
        normalize_ok.mpr ⟨2, expected, profile, compiled, hdeclares',
          .inr ⟨rfl, context, true, ?_, .inr ⟨rfl, answer', hanswer', rfl⟩⟩⟩,
          requestBound_classification.trans hclass⟩
      rw [hrequest]
      exact hcontext

/-- With another request than the one that is expected the endpoints are not read. -/
theorem normalize_unbound (h : normalizeDynamicPlasmaObservation sha (input :: rest) = .ok n)
    (hunbound : n.answer = misbound .QUOTE_REQUEST_CONTEXT_MISMATCH) (f : Value → Value) :
    normalizeDynamicPlasmaObservation sha (edit "endpointObservations" f input :: rest)
      = .ok n := by
  obtain ⟨version, expected, profile, compiled, hdeclares, h⟩ := normalize_ok.mp h
  rcases h with ⟨-, answer, hanswer, rfl⟩ | ⟨rfl, context, bound, hcontext,
    ⟨rfl, rfl⟩ | ⟨rfl, answer, hanswer, rfl⟩⟩
  · exact absurd hunbound (observe_ne hanswer)
  · refine normalize_ok.mpr ⟨2, expected, profile, compiled, (declares_edit hdeclares).1,
      .inr ⟨rfl, context, false, ?_, .inl ⟨rfl, rfl⟩⟩⟩
    rw [under_edit_of_ne (by decide)]
    exact hcontext
  · rw [requestBound_answer] at hunbound
    exact absurd hunbound (observe_ne hanswer)

/-- **The order of the sporks.** In whatever order each endpoint lists the sporks, the
classification is one. -/
theorem normalize_listed {order order' : List Value → List Value}
    (horder : ∀ entries, (order entries).Perm entries)
    (horder' : ∀ entries, (order' entries).Perm entries)
    (h : normalizeDynamicPlasmaObservation sha (input :: rest) = .ok n) :
    ∃ n', normalizeDynamicPlasmaObservation sha
    (edit "endpointObservations" (sides (listed order) (listed order')) input :: rest)
        = .ok n' ∧ n'.classification = n.classification := by
  by_cases hbound : n.answer = misbound .QUOTE_REQUEST_CONTEXT_MISMATCH
  · exact ⟨n, normalize_unbound h hbound _, rfl⟩
  · obtain ⟨profile, compiled, hobserve, hedited⟩ := normalize_observed h hbound
    exact (hedited _).mpr (observe_listed horder horder' hobserve)

/-- **The order of the endpoints.** Endpoints are classified as before when they are exchanged,
exactly if they are not read or do not fail alone, each in its own way. -/
theorem normalize_exchanged (h : normalizeDynamicPlasmaObservation sha (input :: rest) = .ok n) :
    (∃ n', normalizeDynamicPlasmaObservation sha
      (edit "endpointObservations" exchanged input :: rest) = .ok n'
        ∧ n'.classification = n.classification)
      ↔ n.answer = misbound .QUOTE_REQUEST_CONTEXT_MISMATCH ∨ ∀ left right,
        snapshotEndpointArray (under "endpointObservations" input)
        (decide (n.observationVersion ≠ 0)) = .ok (some left, some right) →
        ∀ f ∈ endpointFailure left, ∀ g ∈ endpointFailure right, f.classification
          = g.classification := by
  by_cases hbound : n.answer = misbound .QUOTE_REQUEST_CONTEXT_MISMATCH
  · exact ⟨fun _ => .inl hbound, fun _ => ⟨n, normalize_unbound h hbound _, rfl⟩⟩
  · obtain ⟨profile, compiled, hobserve, hedited⟩ := normalize_observed h hbound
    rw [hedited, or_iff_right hbound]
    exact observe_exchanged hobserve

/-! ### What is quoted -/

/-- The price policy reads what it is handed as it was written. -/
theorem create_encode {source : Compatibility} {policy : Policy} {subject runtime : Digest} :
    createDynamicPlasmaPricePolicyQuote
    [.obj [("compatibility", snapshotCompatibility.encode source),
      ("policy", snapshotPolicy.encode policy), ("subjectDigest", digest.encode subject),
      ("runtimeContextDigest", digest.encode runtime)]]
        = buildQuote source policy subject runtime := by
  have hbind : ∀ {α β : Type} (a : α) (f : α → Except Failure β), (Except.ok a >>= f) = f a :=
    fun _ _ => rfl
  obtain ⟨top, htop, hcompatibility, hpolicy, hsubject, hruntime⟩ : ∃ top,
      record (.obj [("compatibility", snapshotCompatibility.encode source),
        ("policy", snapshotPolicy.encode policy), ("subjectDigest", digest.encode subject),
        ("runtimeContextDigest", digest.encode runtime)]) CREATE_FIELDS = .ok top
      ∧ top "compatibility" = snapshotCompatibility.encode source ∧ top "policy"
        = snapshotPolicy.encode policy
      ∧ top "subjectDigest" = digest.encode subject ∧ top "runtimeContextDigest"
        = digest.encode runtime :=
    ⟨_, by rw [record_obj, if_pos (.refl _)], rfl, rfl, rfl, rfl⟩
  simp only [createDynamicPlasmaPricePolicyQuote, htop, hbind, hcompatibility, hpolicy, hsubject,
    hruntime, Codec.decode_encode_self]

/-- **What is active is quoted.** Of whatever the normalizer calls active, the price policy creates
the quote that the policy allows of what the endpoints reported. -/
theorem normalize_quotable (h : normalizeDynamicPlasmaObservation sha (input :: rest) = .ok n)
    (hactive : n.classification = .DP_ACTIVE) :
    ∃ (e : Endpoint) (c : Classified) (source : Compatibility), n.answer = .observed e c
      ∧ source.1.rpcObservation = e.rpcObservation.toRpcObservation ∧ source.1.frontier.height
      = e.beforeFrontier.height
      ∧ source.1.frontier.hash = e.beforeFrontier.hash
      ∧ source.1.frontier.nextFusionPrice.1 = e.beforeFrontier.nextFusionPrice.1
      ∧ source.1.frontier.nextWorkPrice.1 = e.beforeFrontier.nextWorkPrice.1
      ∧ ∀ (policy : Policy) (subject runtime : Digest),
      createDynamicPlasmaPricePolicyQuote
      [.obj [("compatibility", c.value), ("policy", snapshotPolicy.encode policy),
        ("subjectDigest", digest.encode subject), ("runtimeContextDigest", digest.encode runtime)]]
          = buildQuote source policy subject runtime := by
  have hbound : n.answer ≠ misbound .QUOTE_REQUEST_CONTEXT_MISMATCH := by
    intro hunbound
    rw [Normalized.classification, hunbound] at hactive
    cases hactive
  obtain ⟨profile, compiled, hobserve, -⟩ := normalize_observed h hbound
  rcases observe_ok.mp hobserve with ⟨left, right, -, hagree⟩ | ⟨_, _, -, -, hunavailable⟩
  · obtain ⟨-, -, a, quote, hquoted, hanswer, rfl⟩ := agree_of_active hagree hactive
    refine ⟨left, _, ⟨instantOf ⟨a, hquoted⟩ a, priced_of hquoted⟩, hanswer, rfl, rfl,
      rfl, rfl, rfl, fun policy subject runtime => ?_⟩
    rw [value_of hquoted]
    exact create_encode
  · rw [Normalized.classification, hunavailable] at hactive
    cases hactive

/-! ### The versions -/

/-- What an endpoint reported, without the total. -/
def Endpoint.threeField (e : Endpoint) : Endpoint :=
  { e with rpcObservation := { e.rpcObservation with requiredFusedPlasma := none } }

/-- An endpoint without the total. -/
def withoutTotal : Value → Value := edit "rpcObservation" (without "requiredFusedPlasma")

/-- An input without the totals, and without the selector of the version with them. -/
def threeFields (input : Value) : Value :=
  without "requiredFusedObservationVersion"
  (edit "endpointObservations" (sides withoutTotal withoutTotal) input)

theorem under_without (h : k ≠ key) : under k (without key v) = under k v := by
  cases v with
  | obj fs =>
    change ((fs.filter _).lookup k).getD _ = _
    rw [lookup_without h]
    rfl
  | _ => rfl

theorem snapshotRpcObservation_ok {fourField : Bool} {r : Rpc} :
    snapshotRpcObservation v fourField = .ok r ↔ ∃ get,
    record v (if fourField then FOUR_FIELD_RPC_OBSERVATION_FIELDS else RPC_OBSERVATION_FIELDS)
      = .ok get
      ∧ safeNumber.decode (get "availablePlasma") = .ok r.availablePlasma
      ∧ positiveNumber.decode (get "basePlasma") = .ok r.basePlasma
      ∧ safeNumber.decode (get "requiredDifficulty") = .ok r.requiredDifficulty
      ∧ fourthField fourField (get "requiredFusedPlasma") = .ok r.requiredFusedPlasma := by
  unfold snapshotRpcObservation
  simp only [bind_ok]
  refine exists_congr fun get => ?_
  constructor
  · rintro ⟨hget, available, havailable, base, hbase, difficulty, hdifficulty, total, htotal, h⟩
    obtain rfl := Except.ok.inj h
    exact ⟨hget, havailable, hbase, hdifficulty, htotal⟩
  · rintro ⟨hget, havailable, hbase, hdifficulty, htotal⟩
    exact ⟨hget, _, havailable, _, hbase, _, hdifficulty, _, htotal, rfl⟩

/-- Without its total an endpoint is read as it was, but for the total, which was there. -/
theorem snapshotEndpoint_total (h : snapshotEndpoint true v = .ok e) :
    snapshotEndpoint false (withoutTotal v) = .ok e.threeField
    ∧ ∃ total, e.rpcObservation.requiredFusedPlasma = some total := by
  obtain ⟨get, hget, hbefore, hevidence, hsporks, hplasma, hrpc, hafter⟩ := snapshotEndpoint_ok.mp h
  obtain ⟨get', hget', hself, hrest⟩ :=
    @record_edit _ _ "rpcObservation" _ (without "requiredFusedPlasma") hget (by decide)
  obtain ⟨rpc, hrecord, havailable, hbase, hdifficulty, htotal⟩ := snapshotRpcObservation_ok.mp hrpc
  obtain ⟨rpc', hrecord', hsame⟩ := @record_without _ _ "requiredFusedPlasma" _ hrecord
  refine ⟨snapshotEndpoint_ok.mpr ⟨get', hget', ?_⟩, ?_⟩
  · rw [hrest _ (show "beforeFrontier" ≠ _ by decide),
      hrest _ (show "profileEvidence" ≠ _ by decide), hrest _ (show "sporks" ≠ _ by decide),
      hrest _ (show "plasmaVariables" ≠ _ by decide),
      hrest _ (show "afterFrontier" ≠ _ by decide), hself]
    refine ⟨hbefore, hevidence, hsporks, hplasma,
      snapshotRpcObservation_ok.mpr ⟨rpc', hrecord', ?_⟩, hafter⟩
    rw [hsame _ (show "availablePlasma" ≠ _ by decide), hsame _ (show "basePlasma" ≠ _ by decide),
      hsame _ (show "requiredDifficulty" ≠ _ by decide)]
    exact ⟨havailable, hbase, hdifficulty, rfl⟩
  · obtain ⟨total, -, hsome⟩ := map_ok.mp htotal
    exact ⟨total, hsome.symm⟩

/-- An observation with a total agrees exactly if it agrees without it and the total is the base
plasma at the fusion price, rounded up. -/
theorem agreed_total {total : Safe} {ids : SporkIds}
    (h : e.rpcObservation.requiredFusedPlasma = some total) :
    Agreed profile ids e ↔ Agreed profile ids e.threeField
      ∧ total.1 = ceilDivide (e.rpcObservation.basePlasma.1 * e.beforeFrontier.nextFusionPrice.1)
      1000 := by
  constructor
  · rintro ⟨hfrontier, hchain, htwo, hgenesis, hsporks, hplasma, a, hquoted, htotal⟩
    refine ⟨⟨hfrontier, hchain, htwo, hgenesis, hsporks, hplasma, a, hquoted,
      fun _ hno => absurd hno (Option.not_mem_none _)⟩, ?_⟩
    rw [htotal total h]
    exact (amounts_ok hquoted.amounts).1
  · rintro ⟨⟨hfrontier, hchain, htwo, hgenesis, hsporks, hplasma, a, hquoted, -⟩, htotal⟩
    refine ⟨hfrontier, hchain, htwo, hgenesis, hsporks, hplasma, a, hquoted,
      fun total' htotal' => ?_⟩
    obtain rfl := Option.some.inj (h.symm.trans htotal')
    exact Subtype.ext (htotal.trans (amounts_ok hquoted.amounts).1.symm)

theorem keys_without {fs : List (String × Value)} : ∃ gs, without key (.obj fs) = .obj gs
    ∧ gs.map Prod.fst = (fs.map Prod.fst).filter fun k => decide (k ≠ key) :=
  ⟨_, rfl, by rw [List.filter_map]; rfl⟩

theorem observationVersion_perm {keys keys' : List String} (h : keys.Perm keys') :
    observationVersion keys = observationVersion keys' := by
  unfold observationVersion
  simp only [h.mem_iff]

/-- What an input declares, another one with fewer keys declares. -/
theorem declares_fewer (names : List String) {fs : List (String × Value)} {version' : Fin 3}
    (h : Declares input rest version expected profile compiled)
    (hkeys : (fs.map Prod.fst).Perm names) (hversion : observationVersion names = (version', names))
    (htwo : version' ≠ 2) (hselector : version' ≠ 0 → version ≠ 0
      ∧ under "requiredFusedObservationVersion" (.obj fs)
      = under "requiredFusedObservationVersion" input)
    (hprofile : under "expectedChainProfile" (.obj fs) = under "expectedChainProfile" input)
    (hcompiled : under "compiledSporkIds" (.obj fs) = under "compiledSporkIds" input) :
    Declares (.obj fs) [] version' none profile compiled := by
  refine ⟨⟨fs, rfl, ?_, ?_⟩, fun hno => ?_, fun hno => htwo hno.1, by simp, rfl, ?_, ?_⟩
  · rw [observationVersion_perm hkeys, hversion]
  · rw [observationVersion_perm hkeys, hversion]
    exact hkeys
  · obtain ⟨hne, hunder⟩ := hselector hno.1
    exact h.selector ⟨hne, by rw [← hunder]; exact hno.2⟩
  · rw [hprofile]
    exact h.profile_eq
  · rw [hcompiled]
    exact h.compiled_eq

/-- An input without its request, and without the selector of the version with one. -/
def withoutRequest (input : Value) : Value :=
  without "quoteRequestContext" (without "quoteRequestContextVersion" input)

theorem declares_withoutRequest (h : Declares input rest 2 expected profile compiled) :
    Declares (withoutRequest input) [] 1 none profile compiled := by
  obtain ⟨fs, rfl, hversion, hp⟩ := h.keys
  have hnames : (observationVersion (fs.map Prod.fst)).2 = REQUEST_BOUND_TOP_LEVEL_FIELDS := by
    unfold observationVersion at hversion ⊢
    split_ifs at hversion ⊢
    · rfl
    · cases hversion
    · cases hversion
  rw [hnames] at hp
  obtain ⟨gs, hgs, hkeys⟩ := @keys_without "quoteRequestContextVersion" fs
  obtain ⟨ks, hks, hkeys'⟩ := @keys_without "quoteRequestContext" gs
  have hinput : withoutRequest (.obj fs) = .obj ks := by rw [withoutRequest, hgs, hks]
  have hunder : ∀ {k}, k ≠ "quoteRequestContext" → k ≠ "quoteRequestContextVersion" →
      under k (.obj ks) = under k (.obj fs) := by
    intro k hne hne'
    rw [← hinput, withoutRequest, under_without hne, under_without hne']
  rw [hinput]
  refine declares_fewer FOUR_FIELD_TOP_LEVEL_FIELDS h ?_ (by decide) (by decide)
    (fun _ => ⟨by decide, ?_⟩) ?_ ?_
  · rw [hkeys', hkeys]
    exact (hp.filter _).filter _
  · exact hunder (by decide) (by decide)
  · exact hunder (by decide) (by decide)
  · exact hunder (by decide) (by decide)

/-- **A request is one thing more to match.** An input with a request is active exactly if it is so
without it, and the request is the one that is supplied and expected. -/
theorem active_bound (h : Declares input rest 2 expected profile compiled) : Active sha input rest ↔
    Active sha (withoutRequest input) []
      ∧ ∃ context, boundContext sha profile compiled expected (under "quoteRequestContext" input)
      = .ok (context, true) := by
  have hunder : under "endpointObservations" (withoutRequest input)
      = under "endpointObservations" input := by
    rw [withoutRequest, under_without (by decide), under_without (by decide)]
  rw [active_declared h, active_declared (declares_withoutRequest h), hunder]
  constructor
  · rintro ⟨hbound, e, hread, hagreed⟩
    exact ⟨⟨fun hno => absurd hno (by decide), e, hread, hagreed⟩, hbound rfl⟩
  · rintro ⟨⟨-, e, hread, hagreed⟩, hbound⟩
    exact ⟨fun _ => hbound, e, hread, hagreed⟩

theorem declares_threeFields (h : Declares input rest 1 expected profile compiled) :
    Declares (threeFields input) [] 0 none profile compiled := by
  obtain ⟨hedited, -⟩ := @declares_edit _ _ _ _ _ _ (sides withoutTotal withoutTotal) h
  obtain ⟨fs, hfs, hversion, hp⟩ := hedited.keys
  have hnames : (observationVersion (fs.map Prod.fst)).2 = FOUR_FIELD_TOP_LEVEL_FIELDS := by
    unfold observationVersion at hversion ⊢
    split_ifs at hversion ⊢
    · cases hversion
    · rfl
    · cases hversion
  rw [hnames] at hp
  obtain ⟨gs, hgs, hkeys⟩ := @keys_without "requiredFusedObservationVersion" fs
  have hinput : threeFields input = .obj gs := by rw [threeFields, hfs, hgs]
  have hunder : ∀ {k}, k ≠ "requiredFusedObservationVersion" → k ≠ "endpointObservations" →
      under k (.obj gs) = under k input := by
    intro k hne hne'
    rw [← hinput, threeFields, under_without hne, under_edit_of_ne hne']
  rw [hinput]
  refine declares_fewer TOP_LEVEL_FIELDS h ?_ (by decide) (by decide)
    (fun hno => absurd rfl hno) ?_ ?_
  · rw [hkeys]
    exact hp.filter _
  · exact hunder (by decide) (by decide)
  · exact hunder (by decide) (by decide)

/-- The total that an endpoint reported is the base plasma at the fusion price, rounded up. -/
def TotalRight (e : Endpoint) : Prop := ∃ total, e.rpcObservation.requiredFusedPlasma = some total
  ∧ total.1 = ceilDivide (e.rpcObservation.basePlasma.1 * e.beforeFrontier.nextFusionPrice.1) 1000

/-- Endpoints that are the same but for the totals, which are right, are the same. -/
theorem threeField_inj {left right : Endpoint} (h : left.threeField = right.threeField)
    (hl : TotalRight left) (hr : TotalRight right) :
    left = right := by
  obtain ⟨t, ht, hright⟩ := hl
  obtain ⟨t', ht', hright'⟩ := hr
  obtain ⟨before, evidence, sporks, plasma, ⟨rpc, total⟩, after⟩ := left
  obtain ⟨before', evidence', sporks', plasma', ⟨rpc', total'⟩, after'⟩ := right
  simp only [Endpoint.threeField, Endpoint.mk.injEq, Rpc.mk.injEq, and_true] at h
  obtain ⟨rfl, rfl, rfl, rfl, rfl, rfl⟩ := h
  simp only at ht ht' hright hright'
  rw [ht, ht', Subtype.ext (hright.trans hright'.symm)]

theorem threeFields_read (h : Declares input rest 1 expected profile compiled)
    {left right : Endpoint}
    (hread : snapshotEndpointArray (under "endpointObservations" input) true
      = .ok (some left, some right)) :
    snapshotEndpointArray (under "endpointObservations" (threeFields input)) false
      = .ok (some left.threeField, some right.threeField) := by
  obtain ⟨-, hunder⟩ := @declares_edit _ _ _ _ _ _ (sides withoutTotal withoutTotal) h
  rw [threeFields, under_without (by decide), hunder]
  obtain ⟨a, b, hv, ha, hb⟩ := snapshotEndpointArray_ok.mp hread
  rw [hv]
  have there : ∀ {v e}, snapshotNullableEndpoint true v = .ok (some e) →
      snapshotNullableEndpoint false (withoutTotal v) = .ok (some e.threeField) := by
    intro v e hv
    rcases snapshotNullableEndpoint_ok.mp hv with ⟨-, hno⟩ | ⟨e', he, hsome⟩
    · cases hno
    · obtain rfl := Option.some.inj hsome
      exact snapshotNullableEndpoint_ok.mpr (.inr ⟨_, (snapshotEndpoint_total he).1, rfl⟩)
  exact snapshotEndpointArray_ok.mpr ⟨_, _, rfl, there ha, there hb⟩

/-- **A total is one thing more to be right.** An input with totals is active exactly if it is so
without them, and each endpoint reported the base plasma at the fusion price, rounded up. -/
theorem active_total (h : Declares input rest 1 expected profile compiled) :
    Active sha input rest ↔ Active sha (threeFields input) []
    ∧ ∃ left right, snapshotEndpointArray (under "endpointObservations" input) true
    = .ok (some left, some right)
      ∧ TotalRight left ∧ TotalRight right := by
  rw [active_declared h, active_declared (declares_threeFields h)]
  constructor
  · rintro ⟨-, e, hread, hagreed⟩
    obtain ⟨a, b, hv, ha, -⟩ := snapshotEndpointArray_ok.mp hread
    obtain ⟨total, htotal⟩ : ∃ total, e.rpcObservation.requiredFusedPlasma = some total := by
      rcases snapshotNullableEndpoint_ok.mp ha with ⟨-, hno⟩ | ⟨e', he, hsome⟩
      · cases hno
      · obtain rfl := Option.some.inj hsome
        exact (snapshotEndpoint_total he).2
    obtain ⟨hagreed, hright⟩ := (agreed_total htotal).mp hagreed
    exact ⟨⟨fun hno => absurd hno (by decide), e.threeField, threeFields_read h hread, hagreed⟩, e,
      e, hread, ⟨total, htotal, hright⟩, total, htotal, hright⟩
  · rintro ⟨⟨-, e, hread', hagreed⟩, left, right, hread, hleft, hright⟩
    obtain ⟨hl, hr⟩ : left.threeField = e ∧ right.threeField = e := by
      simpa using (threeFields_read h hread).symm.trans hread'
    obtain rfl := threeField_inj (hl.trans hr.symm) hleft hright
    obtain ⟨total, htotal, hsame⟩ := hleft
    exact ⟨fun hno => absurd hno (by decide), left, hread,
      (agreed_total htotal).mpr ⟨by rw [hl]; exact hagreed, hsame⟩⟩

/-! ### Endpoints that are written -/

/-- What is reported of an endpoint. -/
def Endpoint.value (e : Endpoint) : Value :=
  .obj [("beforeFrontier", snapshotFrontier.encode e.beforeFrontier),
    ("profileEvidence", snapshotProfileEvidence.encode (e.profileEvidence, ())),
    ("sporks", e.sporks.value),
    ("plasmaVariables", snapshotPlasmaVariables.encode e.plasmaVariables),
    ("rpcObservation", e.rpcObservation.value),
    ("afterFrontier", snapshotFrontier.encode e.afterFrontier)]

theorem sporks_read {s : Sporks} {list : List Spork} (hlist : s.list = some list)
    (hcount : s.count.1 = list.length) (hfew : list.length ≤ MAXIMUM_SPORK_SNAPSHOT_ENTRIES)
    (hsorted : list.Pairwise fun left right => left.id.1 ≤ right.id.1) :
    snapshotSporks s.value = .ok s := by
  refine snapshotSporks_ok.mpr ⟨_, list.map snapshotSpork.encode,
    record_ok.mpr ⟨_, rfl, .refl _, rfl⟩, Codec.decode_encode_self .., ?_, ?_⟩
  · change (s.list.map _).getD _ = _
    rw [hlist]
    rfl
  · rw [if_neg (by rw [hcount, List.length_map]; omega), hlist]
    refine ⟨list, snapshotSpork.decodeAll_encode false list, ?_⟩
    rw [sortById, List.mergeSort_of_pairwise (hsorted.imp decide_eq_true)]

theorem rpc_read {r : Rpc} :
    snapshotRpcObservation r.value r.requiredFusedPlasma.isSome = .ok r := by
  obtain ⟨⟨available, base, difficulty⟩, total⟩ := r
  cases total with
  | none =>
    exact snapshotRpcObservation_ok.mpr ⟨_, record_ok.mpr ⟨_, rfl, .refl _, rfl⟩,
      Codec.decode_encode_self .., Codec.decode_encode_self .., Codec.decode_encode_self .., rfl⟩
  | some total =>
    exact snapshotRpcObservation_ok.mpr ⟨_, record_ok.mpr ⟨_, rfl, .refl _, rfl⟩,
      Codec.decode_encode_self .., Codec.decode_encode_self .., Codec.decode_encode_self ..,
      map_ok.mpr ⟨total, Codec.decode_encode_self .., rfl⟩⟩

/-- An endpoint whose sporks are sorted is read as it is written. -/
theorem endpoint_read {list : List Spork} (hlist : e.sporks.list = some list)
    (hcount : e.sporks.count.1 = list.length) (hfew : list.length ≤ MAXIMUM_SPORK_SNAPSHOT_ENTRIES)
    (hsorted : list.Pairwise fun left right => left.id.1 ≤ right.id.1) :
    snapshotEndpoint e.rpcObservation.requiredFusedPlasma.isSome e.value = .ok e :=
  snapshotEndpoint_ok.mpr ⟨_, record_ok.mpr ⟨_, rfl, .refl _, rfl⟩, Codec.decode_encode_self ..,
    Codec.decode_encode_self .., sporks_read hlist hcount hfew hsorted, Codec.decode_encode_self ..,
    rpc_read, Codec.decode_encode_self ..⟩

/-- A request that is supplied with its digest is bound, if that is the one that is expected. -/
theorem boundContext_value {context : RequestContext}
    (hdigest : context.digest = contextDigest sha profile compiled context.quoteRequest)
    (hexpected : ∀ d ∈ expected, d = context.digest) :
    boundContext sha profile compiled expected context.value = .ok (context, true) := by
  have hread : snapshotDynamicPlasmaQuoteRequestContext sha
      [.obj [("requestContextVersion", .num 1),
        ("expectedChainProfile", snapshotExpectedProfile.encode profile),
        ("compiledSporkIds", snapshotCompiledSporks.encode compiled),
      ("quoteRequest", quoteRequestCodec.encode context.quoteRequest)]] = .ok context := by
    simp only [snapshotDynamicPlasmaQuoteRequestContext, bind_ok, failWith_ok, rejectIf_ok]
    refine ⟨_, record_ok.mpr ⟨_, rfl, .refl _, rfl⟩, (), ?_, profile,
      Codec.decode_encode_self .., compiled, Codec.decode_encode_self .., context.quoteRequest,
      Codec.decode_encode_self .., ?_⟩
    · exact Bool.false_ne_true.symm
    · rw [← hdigest]
  unfold boundContext
  simp only [bind_ok, failWith_ok, rejectIf_ok]
  refine ⟨_, record_ok.mpr ⟨_, rfl, .refl _, rfl⟩, (), ?_, context, hread, ?_⟩
  · exact Bool.false_ne_true.symm
  · have hall : expected.all (fun d => decide (d = context.digest)) = true := by
      cases expected with
      | none => rfl
      | some d => exact decide_eq_true (hexpected d rfl)
    have hsame : ((Value.str context.digest.1).strictEq (.str context.digest.1)) = true := by
      exact decide_eq_true rfl
    change Except.ok (context, (Value.str context.digest.1).strictEq (.str context.digest.1) && _)
      = _
    rw [hsame, hall]
    rfl

/-! ### Inputs of each version -/

namespace Sample

def frontier : Frontier :=
  ⟨⟨evaluated 7, evaluated (String.ofList (List.replicate 64 'a')), evaluated 2, evaluated 1000,
    evaluated 1000⟩, evaluated "1"⟩

def dynamicPlasma : Spork :=
  ⟨evaluated (String.ofList (List.replicate 64 'd')), evaluated "dynamic-plasma", true, evaluated 5⟩

def libp2p : Spork := ⟨evaluated (String.ofList (List.replicate 64 'e')), evaluated "libp2p",
      true, evaluated 5⟩

def plasmaVariablesOf : PlasmaVariables :=
  ⟨evaluated 210000, evaluated 1000, evaluated 1000, evaluated 10, evaluated 100⟩

/-- What is available pays for the base plasma, which is the total if there is one. -/
def endpoint (total : Option Safe) : Endpoint where
  beforeFrontier := frontier
  profileEvidence := ⟨evaluated "1", evaluated (String.ofList (List.replicate 64 'b')),
    evaluated (String.ofList (List.replicate 64 'c'))⟩
  sporks := ⟨evaluated 2, some [dynamicPlasma, libp2p]⟩
  plasmaVariables := plasmaVariablesOf
  rpcObservation := ⟨⟨evaluated 30000, evaluated 21000, evaluated 0⟩, total⟩
  afterFrontier := frontier

def profileOf : ExpectedProfile :=
  ⟨evaluated "1", evaluated (String.ofList (List.replicate 64 'c'))⟩

def compiledOf : CompiledSporks :=
  evaluated ⟨evaluated (String.ofList (List.replicate 64 'd')),
    evaluated (String.ofList (List.replicate 64 'e'))⟩

def baseTotal : Safe := evaluated 21000

def baseAmounts : Amounts := ⟨baseTotal, baseTotal, evaluated 0, .FUSION_ONLY⟩

theorem amounts_base : frontier.toObservedFrontier.amounts 21000 30000 = .ok baseAmounts := by
  unfold ObservedFrontier.amounts calculateDynamicPlasmaPriceAmounts
  simp only [bind_ok, safeResult_ok]
  refine ⟨baseTotal, by decide, ?_⟩
  rw [if_pos (by decide)]
  simp only [bind_ok, safeResult_ok, Except.ok.injEq]
  exact ⟨evaluated 0, rfl, rfl⟩

theorem endpoint_quoted (total : Option Safe) :
    Quoted frontier.toObservedFrontier (endpoint total).rpcObservation.toRpcObservation
    baseAmounts :=
  ⟨rfl, by decide, by decide, amounts_base, rfl⟩

theorem endpoint_agreed {total : Option Safe} (h : ∀ t ∈ total, t = baseTotal) :
    Agreed profileOf compiledOf.1 (endpoint total) where
  frontier := rfl
  chain := rfl
  heightTwo := rfl
  genesis := rfl
  sporks := ⟨_, dynamicPlasma, libp2p, rfl,
    rfl, by decide, ⟨.head _, rfl, rfl, by decide⟩, ⟨.tail _ (.head _), rfl,
      rfl, by decide⟩, rfl, (by decide : 3 ≤ frontier.height.1),
      (by decide : dynamicPlasma.enforcementHeight.1 < frontier.height.1)⟩
  plasma := (by decide : coherentPlasmaVariables plasmaVariablesOf = true)
  quoted := ⟨baseAmounts, endpoint_quoted total, h⟩

theorem endpoint_value (total : Option Safe) :
    snapshotEndpoint total.isSome (endpoint total).value = .ok (endpoint total) :=
  @endpoint_read _ [dynamicPlasma, libp2p] rfl rfl (by decide) (by decide)

/-- The same from both endpoints, with what selects the version. -/
def inputOf (total : Option Safe) (selected : List (String × Value)) : Value :=
  .obj ([("expectedChainProfile", snapshotExpectedProfile.encode profileOf),
    ("compiledSporkIds", snapshotCompiledSporks.encode compiledOf),
    ("endpointObservations", .arr [(endpoint total).value, (endpoint total).value])] ++ selected)

theorem input_read (total : Option Safe) :
    snapshotEndpointArray (.arr [(endpoint total).value, (endpoint total).value]) total.isSome
    = .ok (some (endpoint total), some (endpoint total)) := by
  have hthere : snapshotNullableEndpoint total.isSome (endpoint total).value
      = .ok (some (endpoint total)) :=
    snapshotNullableEndpoint_ok.mpr (.inr ⟨_, endpoint_value total, rfl⟩)
  exact snapshotEndpointArray_ok.mpr ⟨_, _, rfl, hthere, hthere⟩

def threeFieldInput : Value := inputOf none []

def fourFieldInput : Value := inputOf (some baseTotal) [("requiredFusedObservationVersion", .num 1)]

theorem declares_three : Declares threeFieldInput [] 0 none profileOf compiledOf :=
  ⟨⟨_, rfl, rfl, .refl _⟩, by decide, by decide, by decide, rfl,
    Codec.decode_encode_self .., Codec.decode_encode_self ..⟩

theorem declares_four : Declares fourFieldInput [] 1 none profileOf compiledOf :=
  ⟨⟨_, rfl, rfl, .refl _⟩, by decide, by decide, by decide, rfl,
    Codec.decode_encode_self .., Codec.decode_encode_self ..⟩

theorem active_three : Active .standard threeFieldInput [] :=
  (active_declared declares_three).mpr ⟨fun hno => absurd hno (by decide), endpoint none,
    input_read none, endpoint_agreed fun _ hno => absurd hno (Option.not_mem_none _)⟩

theorem total_right : TotalRight (endpoint (some baseTotal)) := ⟨baseTotal, rfl, by decide⟩

theorem threeFields_four : threeFields fourFieldInput = threeFieldInput := by
  rfl

/-- With the total both endpoints are as active as without it. -/
theorem active_total_sample : Active .standard fourFieldInput [] := by
  refine (active_total declares_four).mpr ⟨?_, _, _, input_read (some baseTotal),
    total_right, total_right⟩
  rw [threeFields_four]
  exact active_three

/-- The payer asks for what it costs to send to itself. -/
def request : QuoteRequest where
  address := ⟨"z1qp6kjgxzjpwhjf90akspf2srzkghr7ljjqrd87", by decide +kernel⟩
  toAddress := ⟨"z1qp6kjgxzjpwhjf90akspf2srzkghr7ljjqrd87", by decide +kernel⟩
  data := ⟨"AAAAAAAAAAAAAAAAAAAAAAAAAAAAAAAAAAAAAAAAAAA=", by decide +kernel⟩

def context : RequestContext := ⟨request, contextDigest .standard profileOf compiledOf request⟩

def boundInput : Value := inputOf (some baseTotal) [("requiredFusedObservationVersion", .num 1),
  ("quoteRequestContextVersion", .num 1), ("quoteRequestContext", context.value)]

theorem declares_bound : Declares boundInput [] 2 none profileOf compiledOf :=
  ⟨⟨_, rfl, rfl, .refl _⟩, by decide, by decide, by decide, rfl,
    Codec.decode_encode_self .., Codec.decode_encode_self ..⟩

theorem withoutRequest_bound : withoutRequest boundInput = fourFieldInput := rfl

theorem active_four : Active .standard fourFieldInput [] :=
  (active_declared declares_four).mpr ⟨fun hno => absurd hno (by decide), endpoint (some baseTotal),
    input_read (some baseTotal), endpoint_agreed fun _ ht => (Option.mem_some_iff.mp ht).symm⟩

/-- With its request the input is as active as without it. -/
theorem active_bound_sample : Active .standard boundInput [] := by
  refine (active_bound declares_bound).mpr
    ⟨?_, context, boundContext_value rfl fun _ hno => absurd hno (Option.not_mem_none _)⟩
  rw [withoutRequest_bound]
  exact active_four

/-- One endpoint lists the sporks the other way round. -/
theorem normalize_listed_sample : Active .standard
    (edit "endpointObservations" (sides (listed List.reverse) (listed id)) threeFieldInput) [] := by
  obtain ⟨n, hn, hactive⟩ := active_three
  obtain ⟨n', hn', hclass⟩ := normalize_listed List.reverse_perm (fun _ => .refl _) hn
  exact ⟨n', hn', hclass.trans hactive⟩

/-- Endpoints that report the same are exchanged. -/
theorem normalize_exchanged_sample :
    Active .standard (edit "endpointObservations" exchanged threeFieldInput) [] := by
  obtain ⟨n, hn, hactive⟩ := active_three
  obtain ⟨n', hn', hclass⟩ :=
    (normalize_exchanged hn).mpr <| .inr fun left right hread f hf g hg => by
    obtain ⟨a, b, hv, ha, hb⟩ := snapshotEndpointArray_ok.mp hread
    obtain ⟨rfl, rfl⟩ : (endpoint none).value = a ∧ (endpoint none).value = b := by
      simpa using Value.arr.inj hv
    obtain rfl := Option.some.inj (Except.ok.inj (ha.symm.trans hb))
    rw [Option.mem_unique hf hg]
  exact ⟨n', hn', hclass.trans hactive⟩

/-- What the endpoints report is quoted. -/
theorem normalize_quotable_sample : ∃ (e : Endpoint) (c : Classified) (source : Compatibility),
    source.1.frontier.height = e.beforeFrontier.height
      ∧ source.1.frontier.nextFusionPrice.1 = e.beforeFrontier.nextFusionPrice.1
      ∧ ∀ (policy : Policy) (subject runtime : Digest),
        createDynamicPlasmaPricePolicyQuote [.obj [("compatibility", c.value),
          ("policy", snapshotPolicy.encode policy), ("subjectDigest", digest.encode subject),
          ("runtimeContextDigest", digest.encode runtime)]]
            = buildQuote source policy subject runtime := by
  obtain ⟨n, hn, hactive⟩ := active_three
  obtain ⟨e, c, source, -, -, hheight, -, hfusion, -, hquotes⟩ := normalize_quotable hn hactive
  exact ⟨e, c, source, hheight, hfusion, hquotes⟩

/-- What the classifier answers of the endpoint is read. -/
theorem active_read_sample :
    ∃ compatibility, snapshotCompatibility.decode (Classified.mk .DP_ACTIVE .NONE .MATCH (some
    (quoteOf frontier.toObservedFrontier (endpoint none).rpcObservation.toRpcObservation
      baseAmounts))).value = .ok compatibility :=
  active_read (classify_encode.trans (classifyObserved_of (endpoint_quoted none))) rfl

end Sample

end Observation
end Plasma
end ZenonX402
