/-
# Both recorders refine one

Abstractly a lane keeps what was recorded, each duration with whether it succeeded
(`History`), and summarizes all of it and its successes (`recorded`). Either series
keeps an image of that and gives the same summaries (`Refines`): the packed one sorts
`2 * duration + bit`, so halving sorts the durations and picking the odd numbers sorts
the successful ones (`refines_packed`). So every call of either recorder answers as the
abstract one does, but for how many references it retains (`call_refines`).

Key definitions: `History`, `recorded`, `Refines`, `Recorder.image`, `Likewise`.
Key theorems: `scan_spec`, `refines_packed`, `refines_unpacked`, `call_refines`.
-/
import ZenonX402.Capacity.Recorder
import ZenonX402.Lib.Relate

namespace ZenonX402
namespace Capacity

open Js Prog

/-! ### Summaries of what was recorded -/

/-- Durations, with whether each was a success. -/
abbrev History := List (Nat × Bool)

def History.all (h : History) : List Nat := h.map Prod.fst

def History.successful (h : History) : List Nat := (h.filter Prod.snd).map Prod.fst

/-- The abstract series. -/
def recorded : Series History where
  empty := []
  push h duration succeeded := h ++ [(duration, succeeded)]
  references h := h.length
  summarize h _ := (summarize h.all, summarize h.successful)

/-- A series that keeps an image of what was recorded and loses nothing that its summaries show. -/
structure Refines {σ : Type} (image : History → σ) (series : Series σ) : Prop where
  empty : image [] = series.empty
  push : ∀ h duration succeeded, image (h ++ [(duration, succeeded)])
    = series.push (image h) duration succeeded
  summarize : ∀ h, series.summarize (image h) h.successful.length
    = (Capacity.summarize h.all, Capacity.summarize h.successful)

def unpackedImage (h : History) : List Nat × List Nat := (h.all, h.successful)

theorem refines_unpacked : Refines unpackedImage unpacked := by
  refine ⟨rfl, fun h duration succeeded => ?_, fun h => rfl⟩
  unfold unpackedImage unpacked History.all History.successful
  cases succeeded <;> simp

/-! ### The packed series -/

def packedImage (h : History) : List Nat := h.map fun r => pack r.1 r.2

theorem pack_div (duration : Nat) (succeeded : Bool) : pack duration succeeded / 2 = duration := by
  cases succeeded
  · simp [pack]
  · simp only [pack, Bool.toNat_true]
    omega

theorem pack_mod (duration : Nat) (succeeded : Bool) :
    pack duration succeeded % 2 = succeeded.toNat := by
  cases succeeded <;> simp [pack]

theorem monotone_half : Monotone fun n : Nat => n / 2 := fun _ _ h => Nat.div_le_div_right h

/-- Halving the sorted packed numbers sorts the durations. -/
theorem sort_packed (h : History) : (sort (packedImage h)).map (· / 2) = sort h.all := by
  rw [sort_map monotone_half]
  congr 1
  simp [packedImage, History.all, pack_div]

def isSuccess (value : Nat) : Bool := value % 2 == 1

theorem filter_packed (h : History) :
    (packedImage h).filter isSuccess = packedImage (h.filter Prod.snd) := by
  unfold packedImage
  rw [List.filter_map]
  congr 1
  refine List.filter_congr fun r _ => ?_
  simp only [Function.comp_apply, isSuccess, pack_mod]
  cases r.2 <;> rfl

/-- The odd ones of the sorted packed numbers, halved, are the successful durations sorted. -/
theorem sort_packed_successful (h : History) :
    ((sort (packedImage h)).filter isSuccess).map (· / 2) = sort h.successful := by
  rw [sort_filter, filter_packed, sort_packed]
  rfl

/-- What the loop has found after the successful values `xs`. -/
def found (r50 r95 r99 : Nat) (xs : List Nat) : Scan where
  seen := xs.length
  first := xs.head?
  p50 := if r50 = 0 then none else xs[r50 - 1]?
  p95 := if r95 = 0 then none else xs[r95 - 1]?
  p99 := if r99 = 0 then none else xs[r99 - 1]?
  last := xs.getLast?

/-- The place of a rank when one value more has been seen. -/
theorem place_concat (r : Nat) (xs : List Nat) (x : Nat) :
    (if xs.length + 1 = r then some x else if r = 0 then none else xs[r - 1]?)
      = if r = 0 then none else (xs ++ [x])[r - 1]? := by
  by_cases hr : r = 0
  · rw [if_neg (by omega), if_pos hr, if_pos hr]
  · rw [if_neg hr, if_neg hr]
    by_cases heq : xs.length + 1 = r
    · subst heq
      simp
    · rw [if_neg heq]
      by_cases hlt : r - 1 < xs.length
      · rw [List.getElem?_append_left hlt]
      · rw [List.getElem?_eq_none (not_lt.mp hlt), List.getElem?_eq_none (by simp; omega)]

theorem next_found {r50 r95 r99 : Nat} (xs : List Nat) (x : Nat) :
    Scan.next r50 r95 r99 (found r50 r95 r99 xs) x
    = found r50 r95 r99 (xs ++ [x].filter isSuccess) := by
  by_cases hx : x % 2 = 0
  · have hskip : Scan.next r50 r95 r99 (found r50 r95 r99 xs) x = found r50 r95 r99 xs := if_pos hx
    rw [hskip]
    simp [isSuccess, hx]
  · have hodd : isSuccess x = true := by
      unfold isSuccess
      rw [beq_iff_eq]
      omega
    have hnext : Scan.next r50 r95 r99 (found r50 r95 r99 xs) x
        = ⟨xs.length + 1, if xs.head? = none then some x else xs.head?,
          if xs.length + 1 = r50 then some x else if r50 = 0 then none else xs[r50 - 1]?,
          if xs.length + 1 = r95 then some x else if r95 = 0 then none else xs[r95 - 1]?,
          if xs.length + 1 = r99 then some x else if r99 = 0 then none else xs[r99 - 1]?, some x⟩ :=
            if_neg hx
    have hhead : (if xs.head? = none then some x else xs.head?) = (xs ++ [x]).head? := by
      cases xs <;> simp
    rw [hnext, place_concat, place_concat, place_concat, hhead]
    simp [found, hodd]

/-- The loop finds the successful values at their places. -/
theorem scan_spec (r50 r95 r99 : Nat) : ∀ ys xs : List Nat,
    ys.foldl (Scan.next r50 r95 r99) (found r50 r95 r99 xs)
      = found r50 r95 r99 (xs ++ ys.filter isSuccess)
  | [], xs => by simp
  | y :: ys, xs => by
    rw [List.foldl_cons, next_found, scan_spec r50 r95 r99 ys]
    congr 1
    rw [List.append_assoc, ← List.filter_append, List.singleton_append]

theorem getElem?_unpack (xs : List Nat) (i : Nat) :
    (xs[i]?).map unpack = ((xs.map (· / 2))[i]?).map toString := by
  rw [List.getElem?_map, Option.map_map]
  rfl

theorem summarizePacked_spec (h : History) : summarizePacked (packedImage h) h.successful.length
    = (summarize h.all, summarize h.successful) := by
  unfold summarizePacked
  by_cases hnil : h = []
  · subst hnil
    rfl
  have himage : packedImage h ≠ [] := by simpa [packedImage] using hnil
  have hall : h.all ≠ [] := by simpa [History.all] using hnil
  rw [if_neg himage]
  have hlen : (sort (packedImage h)).length = (sort h.all).length := by
    rw [← sort_packed, List.length_map]
  have hterminal : (⟨(sort (packedImage h)).length, ((sort (packedImage h))[0]?).map unpack,
      ((sort (packedImage h))[nearestRank (sort (packedImage h)).length 50 - 1]?).map unpack,
      ((sort (packedImage h))[nearestRank (sort (packedImage h)).length 95 - 1]?).map unpack,
      ((sort (packedImage h))[nearestRank (sort (packedImage h)).length 99 - 1]?).map unpack,
      ((sort (packedImage h))[(sort (packedImage h)).length - 1]?).map unpack⟩ : Summary)
        = summarize h.all := by
    unfold summarize
    rw [if_neg hall]
    simp only [getElem?_unpack, sort_packed, hlen]
  simp only [hterminal]
  by_cases hsuccessful : h.successful = []
  · rw [hsuccessful]
    rfl
  · have hpos : 0 < h.successful.length := List.length_pos_iff.mpr hsuccessful
    have hcount : (sort h.successful).length = h.successful.length := length_sort _
    have hplace (percentage : Nat) (hp : 0 < percentage) :
        (if nearestRank h.successful.length percentage = 0 then none
          else ((sort (packedImage h)).filter isSuccess)[nearestRank h.successful.length percentage
            - 1]?).map unpack
        = ((sort h.successful)[nearestRank (sort h.successful).length percentage - 1]?).map
          toString := by
      rw [if_neg (Nat.pos_iff_ne_zero.mp (nearestRank_pos hpos hp)), getElem?_unpack,
        sort_packed_successful, hcount]
    have hscan := scan_spec (nearestRank h.successful.length 50)
      (nearestRank h.successful.length 95)
      (nearestRank h.successful.length 99) (sort (packedImage h)) []
    rw [List.nil_append] at hscan
    have hfirst : ((sort (packedImage h)).filter isSuccess).head?.map unpack
        = ((sort h.successful)[0]?).map toString := by
      rw [List.head?_eq_getElem?, getElem?_unpack, sort_packed_successful]
    have hlast : ((sort (packedImage h)).filter isSuccess).getLast?.map unpack
        = ((sort h.successful)[(sort h.successful).length - 1]?).map toString := by
      rw [List.getLast?_eq_getElem?, getElem?_unpack, sort_packed_successful,
        ← sort_packed_successful, List.length_map]
    rw [if_neg (Nat.pos_iff_ne_zero.mp hpos)]
    simp only [show (⟨0, none, none, none, none, none⟩ : Scan)
      = found (nearestRank h.successful.length 50)
      (nearestRank h.successful.length 95) (nearestRank h.successful.length 99)
      [] by simp [found], hscan]
    simp only [found, hplace 50 (by decide), hplace 95 (by decide), hplace 99 (by decide),
      hfirst, hlast]
    have hsummary : summarize h.successful
        = ⟨(sort h.successful).length, ((sort h.successful)[0]?).map toString,
          ((sort h.successful)[nearestRank (sort h.successful).length 50 - 1]?).map toString,
        ((sort h.successful)[nearestRank (sort h.successful).length 95 - 1]?).map toString,
        ((sort h.successful)[nearestRank (sort h.successful).length 99 - 1]?).map toString,
        ((sort h.successful)[(sort h.successful).length - 1]?).map toString⟩ := if_neg hsuccessful
    rw [hsummary]
    simp only [hcount]

theorem refines_packed : Refines packedImage packed := by
  refine ⟨rfl, fun h duration succeeded => ?_, summarizePacked_spec⟩
  unfold packedImage packed
  simp

/-! ### Calls -/

variable {σ : Type} {f : History → σ} {series : Series σ} {u : Recorder History} {s : Recorder σ}

def Lane.image (f : History → σ) (lane : Lane History) : Lane σ :=
  ⟨lane.entered, lane.settled, lane.succeeded, lane.rejected, lane.unknown, lane.peak,
    f lane.series, lane.active⟩

namespace Recorder

/-- The recorder that keeps images of what the abstract one keeps. -/
def image (f : History → σ) (u : Recorder History) : Recorder σ :=
  ⟨u.limits, fun phase => (u.lanes phase).image f, u.entries, u.firstTime, u.lastTime, u.issue,
    u.stopped, u.finalized, u.refusedStarts, u.balanceChecks, u.balanceMismatches⟩

/-- A lane counts the successes that it has recorded, as long as it keeps them. -/
def Counted (u : Recorder History) : Prop :=
  u.finalized = none → ∀ phase, (u.lanes phase).succeeded = (u.lanes phase).series.successful.length

theorem image_withLane (phase : Phase) (lane : Lane History) :
    (u.image f).withLane phase (lane.image f) = (u.withLane phase lane).image f := by
  unfold withLane image
  congr 1
  funext other
  by_cases h : other = phase
  · subst h
    simp
  · simp [h]

theorem image_enter (phase : Phase) (time : Nat) :
    (u.image f).enter phase time = (u.enter phase time).image f := by
  let lane := u.lanes phase
  let active := lane.active ++ [u.entries.length]
  have hlane := @image_withLane σ f u phase
    { lane with entered := lane.entered + 1, active := active, peak := max lane.peak active.length }
  exact congrArg (fun r : Recorder σ =>
    { r with entries := u.entries ++ [(⟨phase, time, none⟩ : Entry)] }) hlane

theorem image_settle (hf : Refines f series) (handle : Nat) (phase : Phase) (outcome : Outcome)
    (duration : Nat) :
    (u.image f).settle series handle phase outcome duration
      = (u.settle recorded handle phase outcome duration).image f := by
  unfold settle
  rw [← image_withLane]
  have hpush := hf.push (u.lanes phase).series duration (decide (outcome = .SUCCEEDED))
  simp only [Lane.image, image, recorded, hpush]

theorem image_finish (hf : Refines f series) (issue : Option Kind) (report : Report) :
    (u.image f).finish series issue report = (u.finish recorded issue report).image f := by
  unfold finish image Lane.image recorded
  simp only [hf.empty]

theorem image_report (hf : Refines f series) (hu : u.Counted) (hopen : u.finalized = none) :
    (u.image f).report series = u.report recorded := by
  have hphase (phase : Phase) : phaseReport series ((u.image f).lanes phase)
      = phaseReport recorded (u.lanes phase) := by
    have hsummaries := hf.summarize (u.lanes phase).series
    rw [← hu hopen phase] at hsummaries
    unfold phaseReport
    simp only [image, Lane.image, hsummaries]
    rfl
  unfold report
  simp only [hphase]
  rfl

theorem Counted.enter (h : u.Counted) (phase : Phase) (time : Nat) : (u.enter phase time).Counted :=
  fun hopen other => by
  have hold := h hopen other
  unfold Recorder.enter withLane
  by_cases hother : other = phase
  · subst hother
    simpa using hold
  · simpa [hother] using hold

theorem Counted.settle (h : u.Counted) (handle : Nat) (phase : Phase) (outcome : Outcome)
    (duration : Nat) :
    (u.settle recorded handle phase outcome duration).Counted := fun hopen other => by
  have hold := h hopen other
  unfold Recorder.settle withLane
  by_cases hother : other = phase
  · subst hother
    cases outcome <;> simpa [recorded, History.successful] using hold
  · simpa [hother] using hold

end Recorder

/-- The concrete recorder belongs to the abstract one. -/
def Belongs (f : History → σ) (s : Recorder σ) (u : Recorder History) : Prop :=
  s = u.image f ∧ u.Counted

theorem Belongs.of_eq {t : Recorder σ} {v : Recorder History} (h : Belongs f s u)
    (ht : t = v.image f) (hlanes : v.lanes = u.lanes) (hfinalized : v.finalized = u.finalized) :
    Belongs f t v := by
  refine ⟨ht, fun hopen phase => ?_⟩
  rw [hlanes]
  exact h.2 (hfinalized ▸ hopen) phase

theorem relates_taint {α β : Type} {V : α → β → Prop} (h : Belongs f s u) (kind : Kind) :
    Relates (taint kind : Work σ α) (taint kind : Work History β) s u V (Belongs f) := by
  obtain rfl := h.1
  exact relates_modify (relates_throw (h.of_eq rfl rfl rfl))

theorem relates_orTaint {α : Type} {o : Option α} {kind : Kind} (h : Belongs f s u) :
    Relates (orTaint o kind : Work σ α) (orTaint o kind : Work History α) s u Eq (Belongs f) := by
  cases o with
  | none => exact relates_taint h kind
  | some a => exact relates_pure rfl h

theorem relates_taintIf {c : Prop} [Decidable c] {kind : Kind} (h : Belongs f s u) :
    Relates (taintIf c kind : Work σ Unit)
    (taintIf c kind : Work History Unit) s u (fun _ _ => True) (Belongs f) := by
  unfold taintIf
  split
  · exact relates_taint h kind
  · exact relates_pure trivial h

theorem relates_refuseIf {c : Prop} [Decidable c] {kind : Kind} (h : Belongs f s u) :
    Relates (refuseIf c kind : Work σ Unit)
    (refuseIf c kind : Work History Unit) s u (fun _ _ => True) (Belongs f) := by
  unfold refuseIf
  split
  · obtain rfl := h.1
    have hrefused : Belongs f (u.image f).refuse u.refuse := h.of_eq rfl rfl rfl
    exact relates_modify (relates_taint hrefused kind)
  · exact relates_pure trivial h

theorem relates_assertOpen (h : Belongs f s u) :
    Relates (assertOpen : Work σ Unit) (assertOpen : Work History Unit) s u (fun _ _ => True)
    (Belongs f) := by
  obtain rfl := h.1
  exact relates_get (relates_failIf h)

theorem start_refines (arguments : List Input) (h : Belongs f s u) :
    Relates (start arguments : Work σ Nat)
    (start arguments : Work History Nat) s u Eq (Belongs f) := by
  unfold start
  refine relates_bind (relates_assertOpen h) fun _ _ s u _ h => ?_
  have hs := h.1
  subst hs
  refine relates_get (relates_bind (relates_refuseIf h) fun _ _ s' u' _ h => ?_)
  refine relates_bind (relates_orTaint h) fun a b s' u' hab h => ?_
  subst hab
  obtain ⟨phase, time⟩ := a
  refine relates_bind (relates_orTaint h) fun now b s' u' hab h => ?_
  subst hab
  refine relates_bind (relates_refuseIf h) fun _ _ s' u' _ h => ?_
  refine relates_bind (relates_refuseIf h) fun _ _ s' u' _ h => ?_
  have hs := h.1
  subst hs
  have hentered : Belongs f (((u'.image f).tick now).enter phase now)
      ((u'.tick now).enter phase now) :=
    ⟨@Recorder.image_enter σ f (u'.tick now) phase now,
      @Recorder.Counted.enter (u'.tick now) h.2 phase now⟩
  exact relates_modify (relates_modify (relates_pure rfl hentered))

theorem finish_refines (hf : Refines f series) (handle : Nat) (arguments : List Input)
    (h : Belongs f s u) :
    Relates (finish series handle arguments)
    (finish recorded handle arguments) s u (fun _ _ => True) (Belongs f) := by
  unfold finish
  have hs := h.1
  subst hs
  refine relates_get (relates_bind (relates_orFail h) fun entry b s' u' hab h => ?_)
  subst hab
  refine relates_bind (relates_assertOpen h) fun _ _ s' u' _ h => ?_
  refine relates_bind (relates_taintIf h) fun _ _ s' u' _ h => ?_
  refine relates_bind (relates_orTaint h) fun a b s' u' hab h => ?_
  subst hab
  obtain ⟨outcome, time⟩ := a
  refine relates_bind (relates_orTaint h) fun ended b s' u' hab h => ?_
  subst hab
  have hs := h.1
  subst hs
  refine relates_modify (relates_modify (relates_modify ?_))
  have hsettled : Belongs f
      ((((u'.image f).close handle outcome ended).tick ended).settle series handle entry.phase
        outcome (ended - entry.start))
      (((u'.close handle outcome ended).tick ended).settle recorded handle entry.phase outcome
        (ended - entry.start)) :=
    ⟨@Recorder.image_settle σ f series ((u'.close handle outcome ended).tick ended) hf _ _ _ _,
      @Recorder.Counted.settle ((u'.close handle outcome ended).tick ended) h.2 _ _ _ _⟩
  refine relates_modify_last trivial ?_
  split
  · obtain ⟨himage, hcounted⟩ := hsettled
    rw [himage]
    exact ⟨rfl, hcounted⟩
  · exact hsettled

theorem check_refines (arguments : List Input) (h : Belongs f s u) :
    Relates (recordLedgerBalanceCheck arguments : Work σ Bool)
    (recordLedgerBalanceCheck arguments : Work History Bool) s u
      Eq (Belongs f) := by
  unfold recordLedgerBalanceCheck
  refine relates_bind (relates_assertOpen h) fun _ _ s' u' _ h => ?_
  refine relates_bind (relates_orTaint h) fun input b s' u' hab h => ?_
  subst hab
  have hs := h.1
  subst hs
  refine relates_get (relates_bind (relates_taintIf h) fun _ _ s' u' _ h => ?_)
  refine relates_bind (relates_orTaint h) fun a b s' u' hab h => ?_
  subst hab
  obtain ⟨observed, expected⟩ := a
  have hs := h.1
  subst hs
  refine relates_modify (relates_modify (relates_pure rfl ?_))
  split
  · exact h.of_eq rfl rfl rfl
  · exact h.of_eq rfl rfl rfl

theorem noArguments_refines (arguments : List Input) (h : Belongs f s u) :
    Relates (noArguments arguments : Work σ Unit)
    (noArguments arguments : Work History Unit) s u (fun _ _ => True) (Belongs f) := by
  unfold noArguments
  have hs := h.1
  subst hs
  exact relates_get (relates_bind (relates_failIf h) fun _ _ _ _ _ h => relates_taintIf h)

/-- Two results that are the same, but for how many references an inspection counts. -/
inductive Likewise : Result → Result → Prop
  | same (r : Result) : Likewise r r
  | inspection (i : Inspection) (n m : Nat) :
      Likewise (.inspection { i with retainedDurationReferences := n })
      (.inspection { i with retainedDurationReferences := m })

theorem inspect_refines (arguments : List Input) (h : Belongs f s u) :
    Relates (Result.inspection <$> inspect series arguments)
    (Result.inspection <$> inspect recorded arguments) s u
      Likewise (Belongs f) := by
  have hinspect : Relates (inspect series arguments) (inspect recorded arguments) s u
      (fun i j => Likewise (.inspection i) (.inspection j)) (Belongs f) := by
    unfold inspect
    refine relates_bind (noArguments_refines arguments h) fun _ _ s' u' _ h => ?_
    have hs := h.1
    subst hs
    exact relates_get (relates_pure
      (.inspection ⟨u'.finalized.isSome, u'.issue, u'.stopped, u'.refusedStarts,
        u'.pending, 0⟩ _ _) h)
  exact relates_map hinspect fun _ _ h => h

theorem finalize_refines (hf : Refines f series) (arguments : List Input) (h : Belongs f s u) :
    Relates (finalize series arguments) (finalize recorded arguments) s u Eq (Belongs f) := by
  unfold finalize
  refine relates_bind (noArguments_refines arguments h) fun _ _ s' u' _ h => ?_
  have hs := h.1
  subst hs
  refine relates_get ?_
  have hsame : (u'.image f).finalized = u'.finalized := rfl
  rw [hsame]
  cases hopen : u'.finalized with
  | some report => exact relates_pure rfl h
  | none =>
    have hreport := Recorder.image_report hf h.2 hopen
    have hfinished : Belongs f ((u'.image f).finish series u'.finalIssue (u'.report recorded))
        (u'.finish recorded u'.finalIssue (u'.report recorded)) :=
          ⟨Recorder.image_finish hf _ _, fun h => nomatch h⟩
    simp only [hreport]
    exact relates_modify (relates_pure rfl hfinished)

/-- Every call of a recorder over a series that refines what was recorded answers as the abstract
recorder does. -/
theorem call_refines (hf : Refines f series) (call : Call) (h : Belongs f s u) :
    Relates (call.work series) (call.work recorded) s u Likewise (Belongs f) := by
  cases call with
  | start arguments => exact relates_map (start_refines arguments h) fun a b hab => hab ▸ .same _
  | finish handle arguments =>
      exact relates_map (finish_refines hf handle arguments h) fun _ _ _ => .same _
  | recordLedgerBalanceCheck arguments =>
      exact relates_map (check_refines arguments h) fun a b hab => hab ▸ .same _
  | inspect arguments => exact inspect_refines arguments h
  | finalize arguments =>
      exact relates_map (finalize_refines hf arguments h) fun a b hab => hab ▸ .same _

end Capacity
end ZenonX402
