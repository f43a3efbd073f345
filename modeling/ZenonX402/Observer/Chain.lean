/-
# Chains of momentums

The entries of a page lead from one checkpoint to the next (`Leads`): each is one
higher than the one before it and names its hash. What the loop over the entries
of a page lets through leads from the checkpoint that the page starts from, and
the membership it finds is that of an entry with the target among its members
(`walkPage_ok`). The pages that follow one another make one chain (`Leads.append`).

Key definitions: `Leads`, `Entry.membership`, `Entry.Holds`.
Key theorems: `Leads.append`, `Leads.height`, `walkPage_ok`, `linkedEntry_of_leads`.
-/
import ZenonX402.Observer.Transitions

namespace ZenonX402
namespace Observer

open Js
open Credit (Commitment PositiveInt)

/-- The entries lead from one checkpoint to another, each on top of the one before. -/
inductive Leads : Checkpoint → List Entry → Checkpoint → Prop
  | nil (c : Checkpoint) : Leads c [] c
  | cons {c d : Checkpoint} {e : Entry} {es : List Entry} (hheight : e.height.1 = c.height.1 + 1)
      (hparent : e.previousHash = c.hash) (rest : Leads e.checkpoint es d) : Leads c (e :: es) d

/-- The target is among the members of the entry. -/
def Entry.Holds (e : Entry) (target : Member) : Prop := target ∈ e.members

/-- The membership of the target in this entry. -/
def Entry.membership (e : Entry) (target : Member) : Membership :=
  ⟨target.transactionId, target.targetBindingDigest, e.height, e.hash⟩

/-- The target as the members of an entry name it. -/
def State.targetMember (s : State) : Member := ⟨s.target.transactionId, s.targetBindingDigest⟩

namespace Leads

variable {c d d' : Checkpoint} {es fs : List Entry}

theorem append (h : Leads c es d) (h' : Leads d fs d') : Leads c (es ++ fs) d' := by
  induction h with
  | nil c => exact h'
  | cons hheight hparent _ ih => exact .cons hheight hparent (ih h')

theorem height (h : Leads c es d) : d.height.1 = c.height.1 + es.length := by
  induction h with
  | nil c => simp
  | @cons c d e es hheight _ _ ih =>
    calc d.height.1 = e.height.1 + es.length := ih
      _ = c.height.1 + (e :: es).length := by
        rw [hheight, List.length_cons]
        push_cast
        ring

/-- An entry is above the start and not above the end. -/
theorem within (h : Leads c es d) :
    ∀ e ∈ es, c.height.1 < e.height.1 ∧ e.height.1 ≤ d.height.1 := by
  induction h with
  | nil c => exact nofun
  | @cons c d e es hheight _ rest ih =>
    have hend : d.height.1 = e.height.1 + es.length := rest.height
    intro e' he'
    rcases List.mem_cons.mp he' with rfl | he'
    · omega
    · have habove : e.height.1 < e'.height.1 ∧ e'.height.1 ≤ d.height.1 := ih e' he'
      omega

/-- The chain ends with its last entry. -/
theorem getLast? (h : Leads c es d) : d = (es.getLast?.map fun e => e.checkpoint).getD c := by
  induction h with
  | nil c => rfl
  | @cons c d e es _ _ rest ih =>
    rw [ih]
    cases es with
    | nil => rfl
    | cons f fs => rw [List.getLast?_cons_cons]; cases h : (f :: fs).getLast? <;> simp_all

theorem linked (h : Leads c es d) :
    linked c.height.1 c.hash (es.map (·.toLineageEntry)) = true := by
  induction h with
  | nil c => rfl
  | cons hheight hparent _ ih =>
    rw [List.map_cons, Observer.linked, Bool.and_eq_true, decide_eq_true_eq]
    exact ⟨⟨hheight, hparent⟩, ih⟩

/-- Heights of entries are distinct. -/
theorem heights_nodup (h : Leads c es d) : (es.map (·.height)).Nodup := by
  induction h with
  | nil c => exact .nil
  | @cons c d e es _ _ rest ih =>
    rw [List.map_cons, List.nodup_cons]
    refine ⟨fun hmem => ?_, ih⟩
    obtain ⟨f, hf, heq⟩ := List.mem_map.mp hmem
    have habove : e.height.1 < f.height.1 := (rest.within f hf).1
    rw [heq] at habove
    omega

end Leads

/-! ### Entries by height -/

theorem foldl_find_of_notMem {height : PositiveInt} :
    ∀ (es : List LineageEntry) (found : Option LineageEntry), (∀ e ∈ es, e.height ≠ height) →
      es.foldl (fun found entry => if entry.height = height then some entry
        else found) found = found
  | [], _, _ => rfl
  | e :: es, found, h => by
    rw [List.foldl_cons, if_neg (h e List.mem_cons_self)]
    exact foldl_find_of_notMem es found fun e' he' => h e' (List.mem_cons_of_mem _ he')

theorem foldl_find_of_mem {e : LineageEntry} :
    ∀ (es : List LineageEntry) (found : Option LineageEntry), (es.map (·.height)).Nodup → e ∈ es →
      es.foldl (fun found entry => if entry.height = e.height then some entry else found) found
        = some e
  | [], _, _, he => by cases he
  | e' :: es, found, hn, he => by
    rw [List.map_cons, List.nodup_cons] at hn
    rw [List.foldl_cons]
    rcases List.mem_cons.mp he with rfl | he
    · rw [if_pos rfl]
      refine foldl_find_of_notMem es _ fun f hf heq => hn.1 ?_
      exact List.mem_map.mpr ⟨f, hf, heq⟩
    · exact foldl_find_of_mem es _ hn.2 he

/-- In a chain the entry of a height is the one that has it. -/
theorem linkedEntry_of_leads {c d : Checkpoint} {es : List Entry} {e : Entry} (h : Leads c es d)
    (he : e ∈ es) :
    linkedEntry (es.map (·.toLineageEntry)) e.height = some e.toLineageEntry := by
  refine foldl_find_of_mem _ none ?_ (List.mem_map_of_mem he)
  rw [List.map_map]
  exact h.heights_nodup

/-! ### The loops over a page -/

variable {s : State}

/-- The loop over the members finds the target, or leaves what was found. -/
theorem walkMembers_ok {entry : Entry} {members : List Member} {seen : List TransactionId}
    {found : Option Membership} {r : List TransactionId × Option Membership}
    (h : members.foldlM (walkMember s entry) (seen, found) = .ok r) :
    r.2 = found ∨ (s.targetMember ∈ members ∧ r.2 = some (entry.membership s.targetMember)) := by
  refine foldlM_invariant (I := fun ps found' => found'.2 = found
    ∨ (s.targetMember ∈ ps ∧ found'.2 = some (entry.membership s.targetMember)))
    (fun ps member x x' hI hstep => ?_) members [] (seen, found) r (.inl rfl) h
  simp only [walkMember, bind_ok, rejectIf_ok] at hstep
  obtain ⟨_, _, hstep⟩ := hstep
  by_cases htarget : member.transactionId = s.target.transactionId
  · rw [if_pos htarget] at hstep
    simp only [bind_ok, rejectIf_ok, not_not] at hstep
    obtain ⟨_, hbinding, _, _, hstep⟩ := hstep
    obtain rfl := Except.ok.inj hstep
    have hmember : member = s.targetMember := by
      rw [State.targetMember, ← htarget, ← hbinding]
    refine .inr ⟨?_, ?_⟩
    · rw [← hmember]
      exact List.mem_append_right _ (List.mem_singleton_self member)
    · rw [← hmember]
      rfl
  · rw [if_neg htarget] at hstep
    obtain rfl := Except.ok.inj hstep
    rcases hI with hI | ⟨hmem, hI⟩
    · exact .inl hI
    · exact .inr ⟨List.mem_append_left _ hmem, hI⟩

/-- What the loop over the entries lets through is a chain, and what it finds is in it. -/
theorem walkPage_ok : ∀ {es : List Entry} {c : Checkpoint} {walk walk' : Walk},
    walk.previousHash = c.hash →
    walkPage s (c.height.1 + 1) walk es = .ok walk' →
    ∃ d, Leads c es d ∧ walk'.lineage = walk.lineage ++ es.map (·.toLineageEntry)
      ∧ (walk'.targetMembership = walk.targetMembership ∨ ∃ e ∈ es, e.Holds s.targetMember
        ∧ walk'.targetMembership = some (e.membership s.targetMember))
  | [], c, walk, walk', _, h => by
    obtain rfl := Except.ok.inj h
    exact ⟨c, .nil c, (List.append_nil _).symm, .inl rfl⟩
  | e :: es, c, walk, walk', hprev, h => by
    simp only [walkPage, walkEntry, bind_ok, rejectIf_ok, not_not] at h
    obtain ⟨next, ⟨_, hheight, _, hparent, found, hmembers, hnext⟩, h⟩ := h
    obtain rfl := Except.ok.inj hnext
    rw [← hheight] at h
    obtain ⟨d, hleads, hlineage, hfound⟩ := walkPage_ok (c := e.checkpoint) rfl h
    refine ⟨d, .cons hheight (hparent.trans hprev) hleads, ?_, ?_⟩
    · rw [hlineage, List.append_assoc]
      rfl
    · rcases hfound with hfound | ⟨f, hf, hholds, hfound⟩
      · rcases walkMembers_ok hmembers with hkept | ⟨hmem, hnew⟩
        · exact .inl (hfound.trans hkept)
        · exact .inr ⟨e, List.mem_cons_self, hmem, hfound.trans hnew⟩
      · exact .inr ⟨f, List.mem_cons_of_mem _ hf, hholds, hfound⟩

end Observer
end ZenonX402
