/-
# Runs of an admission

A call of an admission throws and changes nothing, or issues one ticket, moves one
ticket that is active on a worker that is not quarantined, or puts one worker in
quarantine (`Effect`, `call_effect`). So whatever is called, the maps and the
tickets agree (`Admission.Valid`), and what comes later keeps what was settled
(`Admission.Later`).

Key definitions: `Effect`, `Admission.Valid`, `Admission.Later`, `Exclusive`.
Key theorems: `call_effect`, `Effect.valid`, `Effect.later`, `admission_safe`.
-/
import ZenonX402.Lib.Trace
import ZenonX402.Payer.Admission
import Mathlib.Data.List.Nodup
import Mathlib.Data.List.Range

namespace ZenonX402
namespace Payer

open Js Prog

variable {n : Nat} {s t : Admission n}

/-! ### What a call does -/

/-- A ticket that is still active on its worker. -/
def Phase.isOpen : Phase → Bool
  | RESERVED | DISPATCHED => true
  | COMPLETED | RELEASED => false

/-- From one phase to a later one. -/
inductive Phase.Next : Phase → Phase → Bool → Prop
  | dispatched : Next RESERVED DISPATCHED false
  | released : Next RESERVED RELEASED true
  | completed : Next DISPATCHED COMPLETED true

namespace Admission

/-- The state after a ticket was issued to the payer of `r` on worker `i`. -/
def admitted (s : Admission n) (r : Request) (i : Fin n) : Admission n :=
  let sequence := (s.workers i).sequence + 1
  (((s.issue ⟨⟨s.lane, r.kind, r.payer, r.operationId, (s.workers i).id, sequence⟩, i,
    .RESERVED⟩).bind i r.payer).occupy i
    sequence s.tickets.length).count r.operationId

/-- The state after a ticket went into another phase. -/
def moved (s : Admission n) (index : Nat) (i : Fin n) (next : Phase) (release : Bool) :
    Admission n :=
  if release then (s.enter index next).vacate i else s.enter index next

def quarantine (s : Admission n) (i : Fin n) : Admission n :=
  s.at' i fun w => { w with quarantined := true }

/-- A worker that may be given the next ticket of a payer: its own, or one that has no payer. -/
structure Free (s : Admission n) (payer : String) (i : Fin n) : Prop where
  quarantined : (s.workers i).quarantined = false
  known : s.workersByPayer.get? payer = some i → (s.workers i).active = none
  fresh : s.workersByPayer.get? payer ≠ some i → s.workersByPayer.get? payer = none
    ∧ (s.workers i).payer = none

end Admission

/-- What a call for a ticket asks: the tickets it is given, the phase they must be in, the phase
after it, and whether it is the last one. -/
def Call.asks : Call → Option (List Handle × Phase × Phase × Bool)
  | markDispatched arguments => some (arguments, .RESERVED, .DISPATCHED, false)
  | releaseUndispatched arguments => some (arguments, .RESERVED, .RELEASED, true)
  | complete arguments => some (arguments, .DISPATCHED, .COMPLETED, true)
  | admitRequest _ | quarantineWorker _ => none

/-- What a call has done when it did not throw, and the ticket that it returns. -/
inductive Effect (s : Admission n) : Call → Option Nat → Admission n → Prop
  | admitted (arguments : List Value) (r : Request) (i : Fin n)
      (hnew : r.operationId ∉ s.operationIds) (hfree : s.Free r.payer i)
      (hlimit : s.admissions < s.maxAdmissions) :
      Effect s (.admitRequest arguments) (some s.tickets.length) (s.admitted r i)
  | moved (call : Call) (index : Nat) (record : Issued n) (next : Phase) (release : Bool)
      (hasked : call.asks = some ([.ticket index], record.phase, next, release))
      (hrecord : s.tickets[index]? = some record)
      (hquarantined : (s.workers record.worker).quarantined = false)
      (hactive : (s.workers record.worker).active = some index)
      (hnext : record.phase.Next next release) :
      Effect s call none (s.moved index record.worker next release)
  | quarantined (arguments : List Value) (i : Fin n) :
      Effect s (.quarantineWorker arguments) none (s.quarantine i)

/-- Either the call throws and nothing is changed, or it has one of the effects. -/
def Acts (s : Admission n) (call : Call) (r : Except Code (Option Nat)) (t : Admission n) :
    Prop := match r with
  | .error _ => t = s
  | .ok returned => Effect s call returned t

theorem assertFree_ok {payer : String} : s.assertFree (s.workersByPayer.get? payer) = .ok () ↔
    ∀ i, s.workersByPayer.get? payer = some i → (s.workers i).quarantined = false
      ∧ (s.workers i).active = none := by
  cases hknown : s.workersByPayer.get? payer with
  | none => simp [Admission.assertFree]
  | some i =>
    unfold Admission.assertFree
    simp only [bind_ok, rejectIf_ok, Bool.not_eq_true, ne_eq, not_not,
      Option.some.injEq, forall_eq']
    constructor
    · rintro ⟨_, hq, ha⟩
      exact ⟨hq, ha⟩
    · rintro ⟨hq, ha⟩
      exact ⟨(), hq, ha⟩

theorem free_of_choose {payer : String} {i : Fin n}
    (hfree : s.assertFree (s.workersByPayer.get? payer) = .ok ())
    (h : s.choose (s.workersByPayer.get? payer) = some i) : s.Free payer i := by
  rw [assertFree_ok] at hfree
  cases hknown : s.workersByPayer.get? payer with
  | none =>
    rw [hknown] at h
    have hi := List.find?_some h
    rw [Bool.and_eq_true, decide_eq_true_eq, Bool.not_eq_true'] at hi
    exact ⟨hi.2, fun hi' => (by rw [hknown] at hi'; cases hi'), fun _ => ⟨hknown, hi.1⟩⟩
  | some j =>
    rw [hknown] at h
    obtain rfl := Option.some.inj h
    exact ⟨(hfree j hknown).1, fun _ => (hfree j hknown).2, fun hne => absurd hknown hne⟩

theorem admit_acts (arguments : List Value) (s : Admission n) :
    Ends (admitRequest arguments) s fun r t => Acts s (.admitRequest arguments) (r.map some) t := by
  unfold admitRequest
  rw [ends_orFail]
  refine ⟨fun _ => rfl, fun request _ => ?_⟩
  rw [ends_get, ends_lift]
  refine ⟨fun _ _ => rfl, fun r _ => ?_⟩
  rw [ends_failIf]
  refine ⟨fun _ => rfl, fun hnew => ?_⟩
  rw [ends_lift]
  refine ⟨fun _ _ => rfl, fun _ hfree => ?_⟩
  rw [ends_failIf]
  refine ⟨fun _ => rfl, fun hlimit => ?_⟩
  rw [ends_orFail]
  refine ⟨fun _ => rfl, fun i hi => ?_⟩
  rw [ends_modify, ends_modify, ends_modify, ends_modify, ends_pure]
  exact .admitted arguments r i hnew (free_of_choose hfree hi) (not_le.mp hlimit)

theorem ticketRecord_ok {ticket : Handle} {index : Nat} {record : Issued n}
    (h : s.ticketRecord ticket = .ok (index, record)) :
    ticket = .ticket index ∧ s.tickets[index]? = some record := by
  cases ticket with
  | ticket k =>
    unfold Admission.ticketRecord at h
    simp only [bind_ok, orReject_ok, Except.ok.injEq, Prod.mk.injEq] at h
    obtain ⟨record', hrecord, rfl, rfl⟩ := h
    exact ⟨rfl, hrecord⟩
  | other value frozen =>
    unfold Admission.ticketRecord at h
    simp only [bind_ok] at h
    obtain ⟨_, _, _, _, h⟩ := h
    cases h

theorem sole_some {α : Type} {as : List α} {a : α} (h : sole as = some a) : as = [a] := by
  cases as with
  | nil => cases h
  | cons b bs =>
    cases bs with
    | nil => rw [Option.some.inj h]
    | cons c bs => cases h

theorem transition_acts {call : Call} {arguments : List Handle} {expected next : Phase}
    {release : Bool} (s : Admission n)
    (hasked : call.asks = some (arguments, expected, next, release))
    (hnext : expected.Next next release) :
    Ends (transition arguments expected next release) s fun r t =>
    Acts s call (r.map fun _ => none) t := by
  unfold transition
  rw [ends_orFail]
  refine ⟨fun _ => rfl, fun ticket hticket => ?_⟩
  rw [ends_get, ends_lift]
  refine ⟨fun _ _ => rfl, fun found hfound => ?_⟩
  obtain ⟨index, record⟩ := found
  rw [ends_failIf]
  refine ⟨fun _ => rfl, fun hquarantined => ?_⟩
  rw [ends_failIf]
  refine ⟨fun _ => rfl, fun hvalid => ?_⟩
  rw [not_or, not_not, not_not] at hvalid
  rw [ends_modify]
  obtain ⟨rfl, hactive⟩ := hvalid
  obtain ⟨rfl, hrecord⟩ := ticketRecord_ok hfound
  rw [sole_some hticket] at hasked
  exact .moved call index record next release hasked hrecord
    (Bool.eq_false_iff.mpr hquarantined) hactive hnext

theorem quarantineWorker_acts (arguments : List Value) (s : Admission n) :
    Ends (quarantineWorker arguments) s fun r t => Acts s (.quarantineWorker arguments)
    (r.map fun _ => none) t := by
  unfold quarantineWorker
  rw [ends_orFail]
  refine ⟨fun _ => rfl, fun value _ => ?_⟩
  rw [ends_lift]
  refine ⟨fun _ _ => rfl, fun workerId _ => ?_⟩
  rw [ends_get, ends_orFail]
  refine ⟨fun _ => rfl, fun i _ => ?_⟩
  exact .quarantined arguments i

theorem exec_map {α β : Type} {f : α → β} {p : Work n α} :
    (f <$> p).exec s = ((p.exec s).1.map f, (p.exec s).2) := by
  rw [map_eq_pure_bind, exec_bind]
  generalize p.exec s = r
  obtain ⟨x, s'⟩ := r
  cases x <;> rfl

/-- A call that throws has changed nothing, and any other has one of the effects. -/
theorem call_effect {l : Call × Except Code (Option Nat)} (h : CallStep s l t) :
    Acts s l.1 l.2 t := by
  obtain ⟨call, r⟩ := l
  have hends : Acts s call (call.work.exec s).1 (call.work.exec s).2 := by
    cases call with
    | admitRequest arguments =>
      rw [Call.work, exec_map]
      exact admit_acts arguments s
    | markDispatched arguments =>
      rw [Call.work, exec_map]
      exact transition_acts s rfl .dispatched
    | releaseUndispatched arguments =>
      rw [Call.work, exec_map]
      exact transition_acts s rfl .released
    | complete arguments =>
      rw [Call.work, exec_map]
      exact transition_acts s rfl .completed
    | quarantineWorker arguments =>
      rw [Call.work, exec_map]
      exact quarantineWorker_acts arguments s
  unfold CallStep at h
  rw [h] at hends
  exact hends

/-! ### What holds of every admission -/

/-- The numbers of the tickets of a worker, in the order in which they were issued. -/
def Admission.sequencesOf (s : Admission n) (i : Fin n) : List Nat :=
  s.tickets.filterMap fun r => if r.worker = i then some r.ticket.sequence else none

/-- The maps, the workers and the tickets agree. -/
structure Admission.Valid (s : Admission n) : Prop where
  payers : ∀ payer i, s.workersByPayer.get? payer = some i ↔ (s.workers i).payer = some payer
  active : ∀ i k, (s.workers i).active = some k ↔ ∃ r, s.tickets[k]? = some r ∧ r.worker = i
    ∧ r.phase.isOpen = true
  tickets : ∀ (k : Nat) (r : Issued n), s.tickets[k]? = some r →
    (s.workers r.worker).payer = some r.ticket.payer ∧ r.ticket.workerId = (s.workers r.worker).id
  sequences : ∀ i, s.sequencesOf i = List.range' 1 (s.workers i).sequence
  operations : s.operationIds = s.tickets.map (·.ticket.operationId)
  distinct : s.operationIds.Nodup
  admissions : s.admissions = s.tickets.length
  limit : s.admissions ≤ s.maxAdmissions

section

variable {r : Request} {i : Fin n}

/-- The ticket that is issued. -/
def Admission.issued (s : Admission n) (r : Request) (i : Fin n) : Issued n :=
  ⟨⟨s.lane, r.kind, r.payer, r.operationId, (s.workers i).id, (s.workers i).sequence + 1⟩, i,
    .RESERVED⟩

theorem bind_of_some {payer payer' : String} (h : (s.workers i).payer = some payer) :
    s.bind i payer' = s :=
  if_neg (by rw [h]; exact nofun)

theorem bind_of_none {payer : String} (h : (s.workers i).payer = none) : s.bind i payer =
    { s.at' i (fun w => { w with payer := some payer }) with workersByPayer := s.workersByPayer.set payer i } :=
  if_pos h

theorem admitted_tickets : (s.admitted r i).tickets = s.tickets ++ [s.issued r i] := by
  unfold Admission.admitted Admission.bind
  dsimp only
  split <;> rfl

theorem admitted_limit : (s.admitted r i).maxAdmissions = s.maxAdmissions
    ∧ (s.admitted r i).admissions = s.admissions + 1 := by
  unfold Admission.admitted Admission.bind
  dsimp only
  split <;> exact ⟨rfl, rfl⟩

theorem admitted_operations (hnew : r.operationId ∉ s.operationIds) :
    (s.admitted r i).operationIds = s.operationIds ++ [r.operationId] := by
  unfold Admission.admitted Admission.bind
  dsimp only
  split <;> exact if_neg hnew

/-- A worker that is free for a payer has that payer, or neither has the other. -/
theorem free_payer (hs : s.Valid) (hfree : s.Free r.payer i) : (s.workers i).payer = some r.payer
    ∨ ((s.workers i).payer = none ∧ s.workersByPayer.get? r.payer = none) := by
  by_cases hknown : s.workersByPayer.get? r.payer = some i
  · exact .inl ((hs.payers _ _).mp hknown)
  · exact .inr ⟨(hfree.fresh hknown).2, (hfree.fresh hknown).1⟩

theorem admitted_self (hs : s.Valid) (hfree : s.Free r.payer i) : (s.admitted r i).workers i =
    { s.workers i with payer := some r.payer, sequence := (s.workers
      i).sequence + 1, active := some s.tickets.length } := by
  unfold Admission.admitted
  dsimp only
  rcases free_payer hs hfree with hpayer | ⟨hpayer, -⟩
  · rw [@bind_of_some _ (s.issue _) i r.payer r.payer hpayer]
    refine (Function.update_self ..).trans ?_
    rw [← hpayer]
    rfl
  · rw [@bind_of_none _ (s.issue _) i r.payer hpayer]
    refine (Function.update_self ..).trans ?_
    simp only [Admission.at', Admission.issue, Function.update_self]

theorem admitted_ne {j : Fin n} (hj : j ≠ i) : (s.admitted r i).workers j = s.workers j := by
  unfold Admission.admitted Admission.bind
  dsimp only
  split
  · refine (Function.update_of_ne hj ..).trans ?_
    exact Function.update_of_ne hj ..
  · exact Function.update_of_ne hj ..

theorem admitted_payers (hs : s.Valid) (hfree : s.Free r.payer i) (payer : String) :
    (s.admitted r i).workersByPayer.get? payer = if payer = r.payer then some i
    else s.workersByPayer.get? payer := by
  unfold Admission.admitted
  dsimp only
  rcases free_payer hs hfree with hpayer | ⟨hpayer, -⟩
  · rw [@bind_of_some _ (s.issue _) i r.payer r.payer hpayer]
    split
    · rename_i heq
      rw [heq]
      exact (hs.payers _ _).mpr hpayer
    · rfl
  · rw [@bind_of_none _ (s.issue _) i r.payer hpayer]
    exact JsMap.get?_set _ _ _ _

/-- A free worker has no active ticket. -/
theorem free_active (hs : s.Valid) (hfree : s.Free r.payer i) : (s.workers i).active = none := by
  rcases free_payer hs hfree with hpayer | ⟨hpayer, -⟩
  · exact hfree.known ((hs.payers _ _).mpr hpayer)
  · rw [Option.eq_none_iff_forall_ne_some]
    intro k hk
    obtain ⟨record, hrecord, rfl, -⟩ := (hs.active _ _).mp hk
    rw [(hs.tickets _ _ hrecord).1] at hpayer
    cases hpayer

theorem admitted_bound (hs : s.Valid) (hfree : s.Free r.payer i) (payer : String) (j : Fin n) :
    (s.admitted r i).workersByPayer.get? payer = some j
    ↔ ((s.admitted r i).workers j).payer = some payer := by
  have hself := admitted_self hs hfree
  have hpayer := free_payer hs hfree
  rw [admitted_payers hs hfree]
  by_cases hj : j = i
  · subst hj
    rw [hself]
    by_cases heq : payer = r.payer
    · simp [heq]
    · rw [if_neg heq, hs.payers]
      rcases hpayer with hpayer | ⟨hpayer, -⟩
      · rw [hpayer]
      · simp [hpayer, Ne.symm heq]
  · rw [admitted_ne hj]
    by_cases heq : payer = r.payer
    · subst heq
      rw [if_pos rfl]
      refine ⟨fun h => absurd (Option.some.inj h).symm hj, fun h => ?_⟩
      have hother := (hs.payers _ _).mpr h
      rcases hpayer with hpayer | ⟨-, hnone⟩
      · exact absurd (Option.some.inj (hother.symm.trans ((hs.payers _ _).mpr hpayer))) hj
      · rw [hnone] at hother
        cases hother
    · rw [if_neg heq, hs.payers]

/-- The new ticket is the active one of its worker, and the other workers keep theirs. -/
theorem admitted_active (hs : s.Valid) (hfree : s.Free r.payer i) (j : Fin n) (k : Nat) :
    ((s.admitted r i).workers j).active = some k ↔ ∃ record, (s.admitted r i).tickets[k]?
    = some record ∧ record.worker = j ∧ record.phase.isOpen = true := by
  rw [admitted_tickets]
  by_cases hj : j = i
  · subst hj
    rw [admitted_self hs hfree]
    have hold (record : Issued n) (hk : k < s.tickets.length) :
        ¬ ((s.tickets ++ [s.issued r j])[k]? = some record
        ∧ record.worker = j ∧ record.phase.isOpen = true) := by
      rintro ⟨hrecord, hworker, hopen⟩
      rw [List.getElem?_append_left hk] at hrecord
      have hactive := (hs.active j k).mpr ⟨record, hrecord, hworker, hopen⟩
      rw [free_active hs hfree] at hactive
      cases hactive
    constructor
    · intro h
      obtain rfl := Option.some.inj h
      exact ⟨s.issued r j, by simp, rfl, rfl⟩
    · rintro ⟨record, hrecord⟩
      by_cases hk : k < s.tickets.length
      · exact absurd hrecord (hold record hk)
      · have hlt := (List.getElem?_eq_some_iff.mp hrecord.1).1
        rw [List.length_append, List.length_singleton] at hlt
        exact congrArg some (by omega)
  · rw [admitted_ne hj, hs.active]
    refine exists_congr fun record => and_congr_left fun hworker => ?_
    by_cases hk : k < s.tickets.length
    · rw [List.getElem?_append_left hk]
    · rw [List.getElem?_append_right (not_lt.mp hk), List.getElem?_eq_none (not_lt.mp hk)]
      refine ⟨nofun, fun h => ?_⟩
      obtain rfl := List.mem_singleton.mp (List.mem_of_getElem? h)
      exact absurd hworker.1.symm hj

theorem admitted_owned (hs : s.Valid) (hfree : s.Free r.payer i) {k : Nat} {record : Issued n}
    (hrecord : (s.admitted r i).tickets[k]? = some record) :
    ((s.admitted r i).workers record.worker).payer = some record.ticket.payer
    ∧ record.ticket.workerId = ((s.admitted r i).workers record.worker).id := by
  rw [admitted_tickets] at hrecord
  by_cases hk : k < s.tickets.length
  · rw [List.getElem?_append_left hk] at hrecord
    obtain ⟨hbound, hid⟩ := hs.tickets k record hrecord
    by_cases hj : record.worker = i
    · rw [hj] at hbound hid ⊢
      rw [admitted_self hs hfree]
      rcases free_payer hs hfree with hpayer | ⟨hpayer, -⟩
      · exact ⟨hpayer.symm.trans hbound, hid⟩
      · rw [hpayer] at hbound
        cases hbound
    · rw [admitted_ne hj]
      exact ⟨hbound, hid⟩
  · rw [List.getElem?_append_right (not_lt.mp hk)] at hrecord
    obtain rfl := List.mem_singleton.mp (List.mem_of_getElem? hrecord)
    rw [show (s.issued r i).worker = i from rfl, admitted_self hs hfree]
    exact ⟨rfl, rfl⟩

/-- The sequences of a worker have no gap. -/
theorem admitted_sequences (hs : s.Valid) (hfree : s.Free r.payer i) (j : Fin n) :
    (s.admitted r i).sequencesOf j = List.range' 1 ((s.admitted r i).workers j).sequence := by
  have hsequences := hs.sequences j
  unfold Admission.sequencesOf at hsequences ⊢
  rw [admitted_tickets, List.filterMap_append, hsequences]
  by_cases hj : j = i
  · subst hj
    rw [admitted_self hs hfree]
    simp only [Admission.issued, List.filterMap_cons, List.filterMap_nil, if_true]
    rw [List.range'_1_concat, Nat.add_comm]
  · rw [admitted_ne hj]
    simp [Admission.issued, Ne.symm hj]

theorem valid_admitted (hs : s.Valid) (hnew : r.operationId ∉ s.operationIds)
    (hfree : s.Free r.payer i) (hlimit : s.admissions < s.maxAdmissions) :
    (s.admitted r i).Valid := by
  refine ⟨admitted_bound hs hfree, admitted_active hs hfree, fun _ _ => admitted_owned hs hfree,
    admitted_sequences hs hfree, ?_, ?_, ?_, ?_⟩
  · rw [admitted_operations hnew, admitted_tickets, hs.operations, List.map_append]
    rfl
  · rw [admitted_operations hnew]
    exact List.nodup_append.mpr ⟨hs.distinct, List.nodup_singleton _, fun a ha b hb heq =>
      hnew (by rwa [← List.mem_singleton.mp hb, ← heq])⟩
  · rw [admitted_limit.2, admitted_tickets, hs.admissions, List.length_append]
    rfl
  · rw [admitted_limit.1, admitted_limit.2]
    exact hlimit

end

/-! ### Tickets that move and workers in quarantine -/

section

variable {index : Nat} {i : Fin n} {next : Phase} {release : Bool} {record : Issued n}

theorem moved_tickets : (s.moved index i next release).tickets
    = s.tickets.modify index fun record => { record with phase := next } := by
  unfold Admission.moved
  split <;> rfl

theorem moved_rest : (s.moved index i next release).workersByPayer = s.workersByPayer
    ∧ (s.moved index i next release).operationIds = s.operationIds
    ∧ (s.moved index i next release).admissions = s.admissions
    ∧ (s.moved index i next release).maxAdmissions = s.maxAdmissions := by
  unfold Admission.moved
  split <;> exact ⟨rfl, rfl, rfl, rfl⟩

theorem moved_workers (j : Fin n) : (s.moved index i next release).workers j =
    if release = true ∧ j = i then { s.workers i with active := none } else s.workers j := by
  unfold Admission.moved
  by_cases hrelease : release = true
  · rw [if_pos hrelease]
    by_cases hj : j = i
    · subst hj
      rw [if_pos ⟨hrelease, rfl⟩]
      exact Function.update_self ..
    · rw [if_neg fun h => hj h.2]
      exact Function.update_of_ne hj ..
  · rw [if_neg hrelease, if_neg fun h => hrelease h.1]
    rfl

/-- All but the active ticket of a worker is as it was. -/
theorem moved_same (j : Fin n) :
    ((s.moved index i next release).workers j).payer = (s.workers j).payer
    ∧ ((s.moved index i next release).workers j).id = (s.workers j).id
    ∧ ((s.moved index i next release).workers j).sequence = (s.workers j).sequence
    ∧ ((s.moved index i next release).workers j).quarantined = (s.workers j).quarantined := by
  rw [moved_workers]
  split
  · rename_i hj
    rw [hj.2]
    exact ⟨rfl, rfl, rfl, rfl⟩
  · exact ⟨rfl, rfl, rfl, rfl⟩

/-- A ticket moves in the phase only, and no other does. -/
theorem moved_getElem? (k : Nat) : (s.moved index i next release).tickets[k]? =
    (s.tickets[k]?).map fun record => if k = index then { record with phase := next }
    else record := by
  rw [moved_tickets, List.getElem?_modify]
  by_cases hk : k = index
  · subst hk
    simp
  · cases s.tickets[k]? <;> simp [hk, Ne.symm hk]

/-- What is read of tickets apart from their phases is as it was. -/
theorem filterMap_modify {α β : Type} (f : α → α) {g : α → Option β} (h : ∀ a, g (f a) = g a) :
    ∀ (as : List α) (k : Nat), (as.modify k f).filterMap g = as.filterMap g
  | [], _ => by simp
  | a :: as, 0 => by simp [List.filterMap_cons, h]
  | a :: as, k + 1 => by
    rw [List.modify_succ_cons, List.filterMap_cons, List.filterMap_cons, filterMap_modify f h as k]

theorem next_open {a b : Phase} (h : a.Next b release) : a.isOpen = true ∧ b.isOpen = !release := by
  cases h <;> exact ⟨rfl, rfl⟩

/-- The ticket that moves stays the active one of its worker, or its worker has none. -/
theorem moved_active (hs : s.Valid) (hrecord : s.tickets[index]? = some record)
    (hactive : (s.workers record.worker).active = some index)
    (hnext : record.phase.Next next release) (j : Fin n) (k : Nat) :
    ((s.moved index record.worker next release).workers j).active = some k
    ↔ ∃ r, (s.moved index record.worker next release).tickets[k]? = some r ∧ r.worker = j
      ∧ r.phase.isOpen = true := by
  rw [moved_workers, moved_getElem?]
  by_cases hk : k = index
  · subst hk
    rw [hrecord]
    have hopen := (next_open hnext).2
    by_cases hj : j = record.worker
    · subst hj
      cases release with
      | true => simp [hopen]
      | false => simp [hopen, hactive]
    · rw [if_neg fun h => hj h.2]
      refine ⟨fun h => ?_, fun ⟨record', heq, hworker, _⟩ => ?_⟩
      · obtain ⟨record', heq, hworker, -⟩ := (hs.active j k).mp h
        obtain rfl := Option.some.inj (hrecord.symm.trans heq)
        exact absurd hworker.symm hj
      · obtain rfl := Option.some.inj heq
        dsimp only at hworker
        rw [if_pos rfl] at hworker
        exact absurd hworker.symm hj
  · have hmap : ((s.tickets[k]?).map fun record => if k = index then { record with phase := next }
      else record)
        = s.tickets[k]? := by
      simp [hk]
    rw [hmap, ← hs.active j k]
    split
    · rename_i hj
      rw [hj.2, hactive]
      simp [Ne.symm hk]
    · rfl

theorem valid_moved (hs : s.Valid) (hrecord : s.tickets[index]? = some record)
    (hactive : (s.workers record.worker).active = some index)
    (hnext : record.phase.Next next release) :
    (s.moved index record.worker next release).Valid := by
  obtain ⟨hpayers, hoperations, hadmissions, hlimit⟩ :=
    @moved_rest n s index record.worker next release
  refine ⟨fun payer j => ?_, moved_active hs hrecord hactive hnext, fun k record' hrecord' => ?_,
    fun j => ?_, ?_, ?_, ?_, ?_⟩
  · rw [hpayers, (moved_same j).1]
    exact hs.payers payer j
  · rw [moved_getElem?] at hrecord'
    obtain ⟨old, hold, rfl⟩ := Option.map_eq_some_iff.mp hrecord'
    obtain ⟨hbound, hid⟩ := hs.tickets k old hold
    have hfields : (if k = index then { old with phase := next } else old).worker = old.worker
        ∧ (if k = index then { old with phase := next } else old).ticket = old.ticket := by
      split <;> exact ⟨rfl, rfl⟩
    rw [hfields.1, hfields.2, (moved_same old.worker).1, (moved_same old.worker).2.1]
    exact ⟨hbound, hid⟩
  · rw [(moved_same j).2.2.1, ← hs.sequences j]
    unfold Admission.sequencesOf
    rw [moved_tickets]
    exact filterMap_modify (fun record : Issued n => { record with phase := next })
      (fun _ => rfl) _ _
  · have hmap : (s.moved index record.worker next release).tickets.map (·.ticket.operationId)
        = s.tickets.map (·.ticket.operationId) := by
      rw [moved_tickets, ← List.filterMap_eq_map]
      exact filterMap_modify (fun record : Issued n => { record with phase := next })
        (fun _ => rfl) _ _
    rw [hoperations, hmap]
    exact hs.operations
  · rw [hoperations]
    exact hs.distinct
  · rw [hadmissions, moved_tickets, List.length_modify]
    exact hs.admissions
  · rw [hadmissions, hlimit]
    exact hs.limit

theorem quarantine_workers (j : Fin n) : (s.quarantine i).workers j =
    if j = i then { s.workers i with quarantined := true } else s.workers j := by
  by_cases hj : j = i
  · subst hj
    rw [if_pos rfl]
    exact Function.update_self ..
  · rw [if_neg hj]
    exact Function.update_of_ne hj ..

theorem valid_quarantine (hs : s.Valid) : (s.quarantine i).Valid := by
  have hsame (j : Fin n) : ((s.quarantine i).workers j).payer = (s.workers j).payer
      ∧ ((s.quarantine i).workers j).id = (s.workers j).id ∧ ((s.quarantine i).workers j).active
      = (s.workers j).active
      ∧ ((s.quarantine i).workers j).sequence = (s.workers j).sequence := by
    rw [quarantine_workers]
    split
    · rename_i hj
      rw [hj]
      exact ⟨rfl, rfl, rfl, rfl⟩
    · exact ⟨rfl, rfl, rfl, rfl⟩
  refine ⟨fun payer j => ?_, fun j k => ?_, fun k record hrecord => ?_, fun j => ?_,
    hs.operations, hs.distinct, hs.admissions, hs.limit⟩
  · rw [(hsame j).1]
    exact hs.payers payer j
  · rw [(hsame j).2.2.1]
    exact hs.active j k
  · rw [(hsame _).1, (hsame _).2.1]
    exact hs.tickets k record hrecord
  · rw [(hsame j).2.2.2]
    exact hs.sequences j

end

theorem Effect.valid {call : Call} {returned : Option Nat} (h : Effect s call returned t)
    (hs : s.Valid) : t.Valid := by
  cases h with
  | admitted arguments r i hnew hfree hlimit => exact valid_admitted hs hnew hfree hlimit
  | moved _ index record next release _ hrecord _ hactive hnext =>
      exact valid_moved hs hrecord hactive hnext
  | quarantined _ i => exact valid_quarantine hs

theorem valid_step {l : Call × Except Code (Option Nat)} (hs : s.Valid) (h : CallStep s l t) :
    t.Valid := by
  have hacts := call_effect h
  obtain ⟨call, r⟩ := l
  cases r with
  | error e =>
    obtain rfl : t = s := hacts
    exact hs
  | ok returned => exact Effect.valid hacts hs

/-! ### What is kept -/

/-- A phase that a ticket goes to, step by step, or stays in. -/
def Phase.Reaches : Phase → Phase → Prop := Relation.ReflTransGen fun a b => ∃ release,
    a.Next b release

/-- What is settled stays: who has which worker, which workers are in quarantine, what tickets were
issued, and where they ended; and neither a worker in quarantine nor its payer gets another ticket.
-/
structure Admission.Later (s t : Admission n) : Prop where
  payer : ∀ i payer, (s.workers i).payer = some payer → (t.workers i).payer = some payer
  quarantined : ∀ i, (s.workers i).quarantined = true → (t.workers i).quarantined = true
  ticket : ∀ (k : Nat) (r : Issued n), s.tickets[k]? = some r → ∃ r', t.tickets[k]? = some r'
    ∧ r'.ticket = r.ticket
    ∧ r'.worker = r.worker ∧ r.phase.Reaches r'.phase
    ∧ ((s.workers r.worker).quarantined = true → r'.phase = r.phase)
  issued : ∀ (k : Nat) (r : Issued n), t.tickets[k]? = some r → s.tickets.length ≤ k →
    (s.workers r.worker).quarantined = false
      ∧ ∀ i, (s.workers i).quarantined = true → (s.workers i).payer ≠ some r.ticket.payer
  limit : t.maxAdmissions = s.maxAdmissions

namespace Admission.Later

theorem refl (s : Admission n) : s.Later s := by
  refine ⟨fun _ _ h => h, fun _ h => h, fun k r hr => ⟨r, hr, rfl, rfl, .refl, fun _ => rfl⟩,
    fun k r hr hk => ?_, rfl⟩
  rw [List.getElem?_eq_none hk] at hr
  cases hr

theorem trans {u : Admission n} (h : s.Later t) (h' : t.Later u) : s.Later u := by
  refine ⟨fun i p hp => h'.payer i p (h.payer i p hp),
    fun i hi => h'.quarantined i (h.quarantined i hi), fun k r hr => ?_, fun k r hr hk => ?_,
    h'.limit.trans h.limit⟩
  · obtain ⟨r', hr', hticket, hworker, hreach, hstay⟩ := h.ticket k r hr
    obtain ⟨r'', hr'', hticket', hworker', hreach', hstay'⟩ := h'.ticket k r' hr'
    refine ⟨r'', hr'', hticket'.trans hticket, hworker'.trans hworker,
      hreach.trans hreach', fun hq => ?_⟩
    rw [hstay' (h.quarantined _ (hworker ▸ hq)), hstay hq]
  · by_cases hlen : t.tickets.length ≤ k
    · obtain ⟨hfree, hpayer⟩ := h'.issued k r hr hlen
      refine ⟨Bool.eq_false_iff.mpr fun hq => ?_,
        fun i hi hp => hpayer i (h.quarantined i hi) (h.payer i _ hp)⟩
      rw [h.quarantined _ hq] at hfree
      cases hfree
    · have hsome := List.getElem?_eq_getElem (not_le.mp hlen)
      obtain ⟨r', hr', hticket, hworker, -⟩ := h'.ticket k _ hsome
      obtain rfl := Option.some.inj (hr.symm.trans hr')
      rw [hticket, hworker]
      exact h.issued k _ hsome hk

end Admission.Later

section

variable {r : Request} {i : Fin n}

theorem later_admitted (hs : s.Valid) (hfree : s.Free r.payer i) : s.Later (s.admitted r i) := by
  have hself := admitted_self hs hfree
  have hpayer := free_payer hs hfree
  refine ⟨fun j p hp => ?_, fun j hj => ?_, fun k record hrecord => ?_,
    fun k record hrecord hk => ?_, admitted_limit.1⟩
  · by_cases hj : j = i
    · subst hj
      rw [hself]
      rcases hpayer with hpayer | ⟨hpayer, -⟩
      · exact hpayer.symm.trans hp
      · rw [hpayer] at hp
        cases hp
    · rw [admitted_ne hj]
      exact hp
  · by_cases hj' : j = i
    · subst hj'
      rw [hself]
      exact hj
    · rw [admitted_ne hj']
      exact hj
  · refine ⟨record, ?_, rfl, rfl, .refl, fun _ => rfl⟩
    rw [admitted_tickets, List.getElem?_append_left (List.getElem?_eq_some_iff.mp hrecord).1]
    exact hrecord
  · rw [admitted_tickets, List.getElem?_append_right hk] at hrecord
    obtain rfl := List.mem_singleton.mp (List.mem_of_getElem? hrecord)
    refine ⟨hfree.quarantined, fun j hj hp => ?_⟩
    -- the payer has no worker but the one that is free
    have hknown := (hs.payers r.payer j).mpr hp
    have hsame : j = i := by
      rcases hpayer with hpayer | ⟨-, hnone⟩
      · exact Option.some.inj (hknown.symm.trans ((hs.payers r.payer i).mpr hpayer))
      · rw [hnone] at hknown
        cases hknown
    rw [hsame, hfree.quarantined] at hj
    cases hj

theorem later_moved {index : Nat} {next : Phase} {release : Bool} {record : Issued n}
    (hrecord : s.tickets[index]? = some record)
    (hquarantined : (s.workers record.worker).quarantined = false)
    (hnext : record.phase.Next next release) :
    s.Later (s.moved index record.worker next release) := by
  refine ⟨fun j p hp => (moved_same j).1.trans hp, fun j hj => (moved_same j).2.2.2.trans hj,
    fun k old hold => ?_, fun k old hold hk => ?_, moved_rest.2.2.2⟩
  · rw [moved_getElem?, hold]
    by_cases hk : k = index
    · subst hk
      obtain rfl := Option.some.inj (hrecord.symm.trans hold)
      refine ⟨{ record with phase := next }, by simp, rfl, rfl, .single ⟨release, hnext⟩,
        fun hq => ?_⟩
      rw [hquarantined] at hq
      cases hq
    · exact ⟨old, by simp [hk], rfl, rfl, .refl, fun _ => rfl⟩
  · rw [moved_getElem?, List.getElem?_eq_none hk] at hold
    cases hold

theorem later_quarantine : s.Later (s.quarantine i) := by
  refine ⟨fun j p hp => ?_, fun j hj => ?_, fun k r hr => ⟨r, hr, rfl, rfl, .refl, fun _ => rfl⟩,
    fun k r hr hk => ?_, rfl⟩
  · rw [quarantine_workers]
    split
    · rename_i hj
      rw [← hj]
      exact hp
    · exact hp
  · rw [quarantine_workers]
    split
    · rfl
    · exact hj
  · rw [show (s.quarantine i).tickets = s.tickets from rfl, List.getElem?_eq_none hk] at hr
    cases hr

end

theorem Effect.later {call : Call} {returned : Option Nat} (h : Effect s call returned t)
    (hs : s.Valid) : s.Later t := by
  cases h with
  | admitted arguments r i hnew hfree hlimit => exact later_admitted hs hfree
  | moved _ index record next release _ hrecord hquarantined hactive hnext =>
    exact later_moved hrecord hquarantined hnext
  | quarantined _ i => exact later_quarantine

theorem later_step {l : Call × Except Code (Option Nat)} (hs : s.Valid) (h : CallStep s l t) :
    s.Later t := by
  have hacts := call_effect h
  obtain ⟨call, r⟩ := l
  cases r with
  | error e =>
    obtain rfl : t = s := hacts
    exact .refl t
  | ok returned => exact Effect.later hacts hs

/-! ### Runs -/

theorem run_valid {ls : List (Call × Except Code (Option Nat))} (hs : s.Valid)
    (h : Run CallStep s ls t) : t.Valid :=
  h.invariant (fun _ _ _ hs hstep => valid_step hs hstep) hs

theorem run_later {ls : List (Call × Except Code (Option Nat))} (hs : s.Valid)
    (h : Run CallStep s ls t) : s.Later t :=
  h.relates Admission.Later.refl Admission.Later.trans (fun _ _ _ hs hstep => valid_step hs hstep)
    (fun _ _ _ hs hstep => later_step hs hstep) hs

theorem create_valid {arguments : List Value} (h : create arguments = .ok ⟨n, s⟩) : s.Valid := by
  unfold create at h
  split at h
  · simp only [bind_ok, Except.ok.injEq] at h
    obtain ⟨_, -, lane, -, workerIds, -, maxAdmissions, -, h⟩ := h
    obtain ⟨rfl, h⟩ := Sigma.mk.inj h
    obtain rfl := eq_of_heq h
    refine ⟨fun payer i => ?_, fun i k => ?_, fun k r hr => ?_, fun _ => rfl, rfl, List.nodup_nil,
      rfl, Nat.zero_le _⟩
    · constructor <;> intro hi <;> cases hi
    · constructor
      · intro hi
        cases hi
      · rintro ⟨r, hr, -⟩
        cases hr
    · cases hr
  · cases h

/-- What is exclusive in an admission, and what its tickets are like. -/
structure Exclusive (s : Admission n) : Prop where
  worker : ∀ (k k' : Nat) (r r' : Issued n), s.tickets[k]? = some r → s.tickets[k']? = some r' →
    r.phase.isOpen = true → r'.phase.isOpen = true → r.worker = r'.worker → k = k'
  payer : ∀ (k k' : Nat) (r r' : Issued n), s.tickets[k]? = some r → s.tickets[k']? = some r' →
    r.phase.isOpen = true → r'.phase.isOpen = true → r.ticket.payer = r'.ticket.payer → k = k'
  bound : ∀ payer i, s.workersByPayer.get? payer = some i ↔ (s.workers i).payer = some payer
  injective : ∀ payer payer' i, s.workersByPayer.get? payer = some i →
    s.workersByPayer.get? payer' = some i →
    payer = payer'
  sequence : ∀ i, s.sequencesOf i = List.range' 1 (s.sequencesOf i).length
  same : ∀ (k : Nat) (r : Issued n), s.tickets[k]? = some r → (s.workers r.worker).payer
    = some r.ticket.payer
  operations : (s.tickets.map (·.ticket.operationId)).Nodup
  limit : s.tickets.length ≤ s.maxAdmissions

theorem Admission.Valid.exclusive (hs : s.Valid) : Exclusive s := by
  have hworker (k k' : Nat) (r r' : Issued n) (hr : s.tickets[k]? = some r)
      (hr' : s.tickets[k']? = some r')
      (hopen : r.phase.isOpen = true) (hopen' : r'.phase.isOpen = true)
      (hw : r.worker = r'.worker) : k = k' := by
    have hactive := (hs.active r.worker k).mpr ⟨r, hr, rfl, hopen⟩
    have hactive' := (hs.active r.worker k').mpr ⟨r', hr', hw.symm, hopen'⟩
    exact Option.some.inj (hactive.symm.trans hactive')
  refine ⟨hworker, fun k k' r r' hr hr' hopen hopen' hp => ?_, hs.payers,
    fun p p' i hp hp' => ?_, fun i => ?_, fun k r hr => (hs.tickets k r hr).1, ?_, ?_⟩
  · refine hworker k k' r r' hr hr' hopen hopen' ?_
    have hbound := (hs.payers _ _).mpr (hs.tickets k r hr).1
    have hbound' := (hs.payers _ _).mpr (hs.tickets k' r' hr').1
    rw [hp] at hbound
    exact Option.some.inj (hbound.symm.trans hbound')
  · exact Option.some.inj (((hs.payers _ _).mp hp).symm.trans ((hs.payers _ _).mp hp'))
  · rw [hs.sequences i, List.length_range']
  · rw [← hs.operations]
    exact hs.distinct
  · rw [← hs.admissions]
    exact hs.limit

/-- Whatever is called on an admission, with whatever it is given: its tickets are exclusive, one to
a worker and one to a payer, and numbered; what was settled stays; a call that throws changes
nothing; and a ticket is accepted only where it is one of this admission in the phase that the call
asks for, and then goes on to the next. -/
theorem admission_safe {arguments : List Value} (hcreate : create arguments = .ok ⟨n, s⟩)
    {ls : List (Call × Except Code (Option Nat))} (hrun : Run CallStep s ls t) :
    Exclusive t ∧ (∀ ls' u, Run CallStep t ls' u → t.Later u)
      ∧ (∀ call e u, CallStep t (call, .error e) u → u = t)
      ∧ (∀ call returned u arguments expected next release, CallStep t (call, .ok returned) u →
        call.asks = some (arguments, expected, next, release) → ∃ k r, arguments = [.ticket k]
          ∧ t.tickets[k]? = some r ∧ r.phase = expected ∧ expected.Next next release
          ∧ u.tickets = t.tickets.modify k fun r => { r with phase := next })
      ∧ ∀ arguments returned u, CallStep t (.admitRequest arguments, .ok returned) u →
        ∃ r : Issued n, r.phase = .RESERVED
          ∧ returned = some t.tickets.length ∧ u.tickets = t.tickets ++ [r] := by
  have hvalid := run_valid (create_valid hcreate) hrun
  refine ⟨hvalid.exclusive, fun ls' u h => run_later hvalid h, fun call e u h => call_effect h,
    fun call returned u arguments expected next release h hasked => ?_,
    fun arguments returned u h => ?_⟩
  · -- of the effects only a move starts from a ticket
    cases (show Effect t call returned u from call_effect h) with
    | admitted arguments r i hnew hfree hlimit => cases hasked
    | moved _ index record next' release' hasked' hrecord _ _ hnext =>
      rw [hasked'] at hasked
      simp only [Option.some.injEq, Prod.mk.injEq] at hasked
      obtain ⟨rfl, rfl, rfl, rfl⟩ := hasked
      exact ⟨index, record, rfl, hrecord, rfl, hnext, moved_tickets⟩
    | quarantined arguments i => cases hasked
  · cases (show Effect t (.admitRequest arguments) returned u from call_effect h) with
    | admitted _ r i hnew hfree hlimit => exact ⟨t.issued r i, rfl, rfl, admitted_tickets⟩
    | moved _ _ _ _ _ hasked _ _ _ _ => cases hasked

/-- What is answered to these calls one after the other, and the admission after them. -/
def answered (s : Admission n) : List Call → List (Call × Except Code (Option Nat)) × Admission n
  | [] => ([], s)
  | call :: calls =>
    let next := answered (call.work.exec s).2 calls
    ((call, (call.work.exec s).1) :: next.1, next.2)

theorem run_answered : ∀ (calls : List Call) (s : Admission n),
    Run CallStep s (answered s calls).1 (answered s calls).2
  | [], s => .nil s
  | call :: calls, s => .cons rfl (run_answered calls (call.work.exec s).2)

namespace Sample

def options : Value :=
  .obj [("lane", .str "facilitator"), ("workerIds", .arr [.str "worker-1", .str "worker-2"])]

def workers (i : Fin 2) : Worker := ⟨["worker-1", "worker-2"].get i, none, none, false, 0⟩

/-- An admission of two workers. -/
def fresh : Admission 2 :=
  ⟨.facilitator, workers, byId workers (List.finRange 2) .empty, .empty, [], [], 0, 64⟩

def request (payer operationId : String) : Value :=
  .obj [("payer", .str payer), ("operationId", .str operationId),
    ("kind", .str "facilitator.settle")]

/-- Two payers have a ticket each; the first is completed and the second is released, the first
payer gets another one, and the worker of the second payer is put in quarantine. -/
def calls : List Call :=
  [.admitRequest [request "z1first" "operation-1"],
    .admitRequest [request "z1second" "operation-2"], .markDispatched [.ticket 0],
    .releaseUndispatched [.ticket 1], .complete [.ticket 0],
    .admitRequest [request "z1first" "operation-3"], .quarantineWorker [.str "worker-2"]]

def served : Admission 2 := (answered fresh calls).2

/-- The payer whose worker is in quarantine is refused, as is the end of a ticket that was not
dispatched. -/
def more : List Call :=
  [.admitRequest [request "z1second" "operation-4"], .complete [.ticket 2],
    .markDispatched [.ticket 2]]

def after : Admission 2 := (answered served more).2

theorem created : create [options] = .ok ⟨2, fresh⟩ := rfl

end Sample

/-- Tickets of two payers, one of each phase, are exclusive and stay what they are. -/
theorem admission_safe_sample : Exclusive Sample.served ∧ Sample.served.Later Sample.after
    ∧ Sample.served.tickets.map (fun r => (r.ticket.payer, r.worker, r.phase))
      = [("z1first", 0, .COMPLETED), ("z1second", 1, .RELEASED), ("z1first", 0, .RESERVED)]
    ∧ (answered Sample.served Sample.more).1.map Prod.snd
      = [.error .WORKER_QUARANTINED, .error .INVALID_TRANSITION, .ok none]
    ∧ Sample.after.tickets.map (·.phase) = [.COMPLETED, .RELEASED, .DISPATCHED] := by
  obtain ⟨hexclusive, hlater, -⟩ :=
    admission_safe Sample.created (run_answered Sample.calls Sample.fresh)
  exact ⟨hexclusive, hlater _ _ (run_answered Sample.more Sample.served), rfl, rfl, rfl⟩

end Payer
end ZenonX402
