/-
# The liability of an order

What is purchased is delivered, paid back or owed, and nothing of it twice: any
record that an owner takes is liable for no more and no less (`Valid.liable`), and
so is any view of it (`viewOf_conserved`). What is settled stays (`Keeps`) where a
record is only followed by one that goes on from it (`Follows`).

Before a verified funding is recorded nothing is owed yet: then all the quantities
of a view are zero, and only from then on they add up to what was purchased.

Key definitions: `Liable`, `View.Conserved`, `FulfillmentRecord.Follows`, `FulfillmentRecord.Keeps`.
Key theorems: `proRata_bounds`, `Valid.liable`, `viewOf_conserved`, `Follows.keeps`.
-/
import Mathlib.Algebra.Order.Floor.Div
import ZenonX402.Order.FulfillmentOwner

namespace ZenonX402
namespace Order

open Js Prog

/-! ### Amounts -/

theorem Amount.value_toString {a : Amount} {n : Nat} (h : a.1 = toString n) : a.value = n := by
  have hfold : ∀ (cs : List Char) (init : Nat),
      cs.foldl (fun n c => n * 10 + (c.toNat - '0'.toNat)) init = Nat.ofDigitChars 10 cs init := by
    intro cs
    induction cs with
    | nil => exact fun _ => rfl
    | cons c cs ih =>
      intro init
      rw [List.foldl_cons, ih, Nat.ofDigitChars_cons, Nat.mul_comm]
  unfold Amount.value
  rw [h, hfold]
  change Nat.ofDigitChars 10 (String.ofList (Nat.toDigits 10 n)).toList 0 = n
  rw [String.toList_ofList]
  exact Nat.ofDigitChars_ten_toDigits

theorem Amount.value_pos (a : Amount) : 0 < a.value := by
  obtain ⟨s, hs⟩ := a
  have hmono : ∀ (cs : List Char) (init : Nat),
      init ≤ cs.foldl (fun n c => n * 10 + (c.toNat - '0'.toNat)) init := by
    intro cs
    induction cs with
    | nil => exact fun _ => le_rfl
    | cons c cs ih =>
      intro init
      exact le_trans (show init ≤ init * 10 + (c.toNat - '0'.toNat) by omega) (ih _)
  unfold Amount.value
  unfold isAmount Text.headTail at hs
  split at hs
  · cases hs
  · rename_i c cs heq
    simp only [Bool.and_eq_true] at hs
    obtain ⟨⟨⟨hdigit, hzero⟩, -⟩, -⟩ := hs
    dsimp only
    rw [heq, List.foldl_cons]
    refine lt_of_lt_of_le ?_ (hmono cs _)
    have hlow : '0'.toNat ≤ c.toNat :=
      (of_decide_eq_true (Bool.and_eq_true_iff.mp hdigit).1 : '0' ≤ c)
    have hne : c.toNat ≠ '0'.toNat := fun h => by
      rw [Char.toNat_inj] at h
      simp [h] at hzero
    omega

/-- What is paid back for some of what was purchased is something, and no more than the price. -/
theorem proRata_bounds {price quantity remaining : Nat} (hprice : 0 < price)
    (hremaining : 0 < remaining) (hle : remaining ≤ quantity) :
    proRata price quantity remaining = price * remaining ⌈/⌉ quantity
      ∧ 0 < proRata price quantity remaining ∧ proRata price quantity remaining ≤ price := by
  have hquantity : 0 < quantity := by omega
  have hceil : proRata price quantity remaining = price * remaining ⌈/⌉ quantity :=
    (Nat.ceilDiv_eq_add_pred_div _ _).symm
  refine ⟨hceil, ?_, ?_⟩
  · by_contra hzero
    have hle : price * remaining ⌈/⌉ quantity ≤ 0 := by omega
    rw [ceilDiv_le_iff_le_mul hquantity, Nat.mul_zero] at hle
    have := Nat.mul_pos hprice hremaining
    omega
  · rw [hceil, ceilDiv_le_iff_le_mul hquantity, Nat.mul_comm quantity]
    exact Nat.mul_le_mul_left price hle

/-! ### Quantities -/

theorem quantityOf_cons (counted : DeliveryStatus → Bool) (d : Delivery) (ds : List Delivery) :
    quantityOf counted (d :: ds) = (if counted d.status = true then d.quantity.value else 0)
      + quantityOf counted ds := by
  simp [quantityOf]

theorem quantityOf_le {counted counted' : DeliveryStatus → Bool}
    (h : ∀ s, counted s = true → counted' s = true) :
    ∀ ds : List Delivery, quantityOf counted ds ≤ quantityOf counted' ds
  | [] => le_rfl
  | d :: ds => by
    rw [quantityOf_cons, quantityOf_cons]
    have hrest := quantityOf_le h ds
    by_cases hd : counted d.status = true
    · rw [if_pos hd, if_pos (h _ hd)]
      omega
    · rw [if_neg hd]
      omega

/-- Where nothing is counted, no delivery has such a status: each has a quantity. -/
theorem not_counted {counted : DeliveryStatus → Bool} :
    ∀ {ds : List Delivery}, quantityOf counted ds = 0 →
    ∀ d ∈ ds, counted d.status = false
  | [], _, d, hd => (nomatch hd)
  | d :: ds, h, d', hd' => by
    rw [quantityOf_cons] at h
    rcases List.mem_cons.mp hd' with rfl | hd'
    · by_contra hcounted
      rw [Bool.not_eq_false] at hcounted
      rw [if_pos hcounted] at h
      have := d'.quantity.value_eq.2.1
      omega
    · exact not_counted (by omega) d' hd'

theorem delivered_le_reserved (s : FulfillmentRecord) :
    (counts s).delivered ≤ (counts s).reserved := by
  change quantityOf (fun status => status == .DELIVERED) s.deliveries
    ≤ quantityOf (fun status => status != .NOT_PERFORMED) s.deliveries
  refine quantityOf_le (fun status hstatus => ?_) s.deliveries
  rw [beq_iff_eq] at hstatus
  rw [hstatus]
  rfl

theorem settled_of_certain {s : FulfillmentRecord} (h : (counts s).uncertain = 0) :
    ∀ d ∈ s.deliveries, d.status.terminal = true := by
  intro d hd
  have hnone := @not_counted (fun status => status == .PENDING || status == .UNKNOWN)
    s.deliveries h d hd
  revert hnone
  cases d.status <;> decide

/-! ### What is owed -/

variable {w : Wire} {p : OrderPayment w}

/-- The liability of a record: what is under way or delivered is at most what was purchased, no
delivery is there twice, and a compensation pays for exactly what is not delivered. -/
structure Liable (p : OrderPayment w) (s : FulfillmentRecord) : Prop where
  reserved : (counts s).reserved ≤ p.terms.quantity.value
  ids : (s.deliveries.map Delivery.deliveryId).Nodup
  requests : (s.deliveries.map Delivery.requestScope).Nodup
  settled : s.compensation ≠ none → ∀ d ∈ s.deliveries, d.status.terminal = true
  compensated : ∀ c, s.compensation = some c → ∃ o, compensationOriginal c.originalJson = .ok o
    ∧ 0 < o.quantity.value ∧ o.quantity.value + (counts s).delivered = p.terms.quantity.value
    ∧ o.amountAtomic.value = p.terms.amount.value * o.quantity.value ⌈/⌉ p.terms.quantity.value
    ∧ 0 < o.amountAtomic.value ∧ o.amountAtomic.value ≤ p.terms.amount.value

namespace Fulfillment

theorem Valid.liable {setup : Setup p} {s : FulfillmentRecord} (h : Valid setup s) :
    Liable p s := by
  refine ⟨h.reserved, ?_, ?_, fun hcompensation d hd => ?_, fun c hc => ?_⟩
  · exact List.pairwise_map.mpr (h.beside.imp fun hbeside => hbeside.1)
  · exact List.pairwise_map.mpr (h.beside.imp fun hbeside => hbeside.2.1)
  · obtain ⟨c, hc⟩ := Option.ne_none_iff_exists'.mp hcompensation
    obtain ⟨o, ho, -⟩ := h.compensated c hc
    exact settled_of_certain (compensationTerms_ok.mp ho).2.2.certain d hd
  · obtain ⟨o, ho, -⟩ := h.compensated c hc
    obtain ⟨hraw, -, hcompensates⟩ := compensationTerms_ok.mp ho
    have hpositive := o.quantity.value_eq.2.1
    have hquantity := hcompensates.quantity
    obtain ⟨hceil, hpos, hle⟩ := proRata_bounds p.terms.amount.value_pos (by omega)
      (show o.quantity.value ≤ p.terms.quantity.value by omega)
    have hamount := Amount.value_toString hcompensates.amount
    refine ⟨o, hraw, by omega, hquantity, hamount.trans hceil, by omega, by omega⟩

/-- The view of what is purchased: once the funding is recorded it is delivered, paid back or owed.
-/
structure View.Conserved (p : OrderPayment w) (v : View) : Prop where
  purchased : v.purchasedQuantity = p.terms.quantity
  nothing : v.fundingRecorded = false → v.deliveredQuantity = 0 ∧ v.compensatedQuantity = 0
    ∧ v.quantityOwed = 0
  everything : v.fundingRecorded = true →
    (v.deliveredQuantity : Int) + v.compensatedQuantity + v.quantityOwed = p.terms.quantity.value
      ∧ 0 ≤ v.quantityOwed
  confirmed : v.compensationStatus = some .CONFIRMED → v.quantityOwed = 0

theorem compensatedQuantity_of_ok {s : FulfillmentRecord} {c : Compensation}
    {o : CompensationOriginal} (hc : s.compensation = some c)
    (ho : compensationOriginal c.originalJson = .ok o) :
    compensatedQuantity s = if c.status = .CONFIRMED then o.quantity.value else 0 := by
  unfold compensatedQuantity
  rw [hc]
  dsimp only
  rw [ho]

theorem viewOf_conserved {setup : Setup p} {s : FulfillmentRecord} (h : Valid setup s)
    (changed : Bool) (at' : Count) :
    (viewOf p s changed at').Conserved p := by
  have hdelivered := delivered_le_reserved s
  have hreserved := h.reserved
  have howed : s.fundingReceiptJson ≠ none → quantityOwed p s =
      p.terms.quantity.value - (counts s).delivered - compensatedQuantity s :=
        fun hfunded => if_neg hfunded
  refine ⟨rfl, fun hnone => ?_, fun hfunded => ?_, fun hconfirmed => ?_⟩
  · have hunfunded : s.fundingReceiptJson = none := by simpa [viewOf] using hnone
    obtain ⟨hdeliveries, hcompensation⟩ := h.funded hunfunded
    refine ⟨?_, ?_, if_pos hunfunded⟩
    · change quantityOf (fun status => status == .DELIVERED) s.deliveries = 0
      rw [hdeliveries]
      rfl
    · change compensatedQuantity s = 0
      unfold compensatedQuantity
      rw [hcompensation]
  · have hsome : s.fundingReceiptJson ≠ none := by
      rw [← Option.isSome_iff_ne_none]
      exact hfunded
    change ((counts s).delivered : Int) + compensatedQuantity s + quantityOwed p s = _
      ∧ 0 ≤ quantityOwed p s
    rw [howed hsome]
    cases hc : s.compensation with
    | none =>
      have hzero : compensatedQuantity s = 0 := by
        unfold compensatedQuantity
        rw [hc]
      omega
    | some c =>
      obtain ⟨o, ho, -, hquantity, -⟩ := h.liable.compensated c hc
      have hcompensated := compensatedQuantity_of_ok hc ho
      split at hcompensated <;> omega
  · obtain ⟨c, hc, hstatus⟩ := Option.map_eq_some_iff.mp hconfirmed
    have hsome : s.fundingReceiptJson ≠ none := by
      intro hunfunded
      rw [(h.funded hunfunded).2] at hc
      cases hc
    obtain ⟨o, ho, -, hquantity, -⟩ := h.liable.compensated c hc
    have hcompensated := compensatedQuantity_of_ok hc ho
    rw [if_pos hstatus] at hcompensated
    change quantityOwed p s = 0
    rw [howed hsome]
    omega

/-! ### What follows a record -/

end Fulfillment

/-- What stays of a delivery, whatever becomes of it. -/
def Delivery.identity (d : Delivery) : Delivery := { d with status := .PENDING, proofJson := none }

/-- What a proof makes of a delivery. -/
def Delivery.proved (d : Delivery) (status : DeliveryStatus) (raw : String) : Delivery :=
  { d with status := status, proofJson := some raw }

/-- What follows a record: the funding is recorded, a delivery is begun or proved, a compensation is
retained or proved. -/
inductive FulfillmentRecord.Follows (a b : FulfillmentRecord) : Prop
  | funded (raw : String) (hunfunded : a.fundingReceiptJson = none)
      (hb : b = { a with fundingReceiptJson := some raw })
  | begun (d : Delivery) (hfunded : a.fundingReceiptJson ≠ none) (hopen : a.compensation = none)
      (hpending : d.status = .PENDING) (hb : b = { a with deliveries := a.deliveries ++ [d] })
  | proved (early late : List Delivery) (d : Delivery) (status : DeliveryStatus) (raw : String)
      (hopen : a.compensation = none) (ha : a.deliveries = early ++ d :: late)
      (hunsettled : d.status.terminal = false) (hstatus : status ≠ .PENDING)
      (hb : b = { a with deliveries := early ++ d.proved status raw :: late })
  | retained (c : Compensation) (hfunded : a.fundingReceiptJson ≠ none)
      (hopen : a.compensation = none) (hretained : c.status = .RETAINED)
      (hb : b = { a with compensation := some c })
  | compensated (c : Compensation) (status : CompensationStatus) (raw : String)
      (ha : a.compensation = some c) (hunconfirmed : c.status ≠ .CONFIRMED)
      (hstatus : status ≠ .RETAINED)
      (hb : b = { a with compensation := some { c with status := status, proofJson := some raw } })

/-- What stays of a record: whose it is, its funding, its deliveries but for their proofs, what is
settled, and once there is a compensation, the deliveries as they are, and its original. -/
structure FulfillmentRecord.Keeps (a b : FulfillmentRecord) : Prop where
  binding : b.binding = a.binding
  funding : a.fundingReceiptJson ≠ none → b.fundingReceiptJson = a.fundingReceiptJson
  deliveries : a.deliveries.map Delivery.identity <+: b.deliveries.map Delivery.identity
  settled : ∀ d ∈ a.deliveries, d.status.terminal = true → d ∈ b.deliveries
  compensation : ∀ c, a.compensation = some c → b.deliveries = a.deliveries ∧ ∃ c',
    b.compensation = some c'
    ∧ c'.originalJson = c.originalJson ∧ c'.originalDigest = c.originalDigest
    ∧ (c.status = .CONFIRMED → c' = c)

namespace FulfillmentRecord

variable {a b c : FulfillmentRecord}

theorem Keeps.refl (a : FulfillmentRecord) : a.Keeps a :=
  ⟨rfl, fun _ => rfl, List.prefix_rfl, fun _ hd _ => hd,
    fun c hc => ⟨rfl, c, hc, rfl, rfl, fun _ => rfl⟩⟩

theorem Keeps.trans (h : a.Keeps b) (h' : b.Keeps c) : a.Keeps c := by
  refine ⟨h'.binding.trans h.binding, fun hfunded => ?_, h.deliveries.trans h'.deliveries,
    fun d hd hterminal => h'.settled d (h.settled d hd hterminal) hterminal, fun x hx => ?_⟩
  · have hb := h.funding hfunded
    rw [← hb] at hfunded ⊢
    exact h'.funding hfunded
  · obtain ⟨hdeliveries, y, hy, hjson, hdigest, hconfirmed⟩ := h.compensation x hx
    obtain ⟨hdeliveries', z, hz, hjson', hdigest', hconfirmed'⟩ := h'.compensation y hy
    refine ⟨hdeliveries'.trans hdeliveries, z, hz, hjson'.trans hjson, hdigest'.trans hdigest,
      fun hx' => ?_⟩
    have hyx := hconfirmed hx'
    rw [hyx] at hconfirmed'
    exact hconfirmed' hx'

/-- Where a record has no compensation yet, it is enough that the deliveries stay. -/
theorem keeps_of_open (hopen : a.compensation = none) (hbinding : b.binding = a.binding)
    (hfunding : a.fundingReceiptJson ≠ none → b.fundingReceiptJson = a.fundingReceiptJson)
    (hdeliveries : a.deliveries.map Delivery.identity <+: b.deliveries.map Delivery.identity)
    (hsettled : ∀ d ∈ a.deliveries, d.status.terminal = true → d ∈ b.deliveries) : a.Keeps b := by
  refine ⟨hbinding, hfunding, hdeliveries, hsettled, fun c hc => ?_⟩
  rw [hopen] at hc
  cases hc

theorem Follows.keeps (h : a.Follows b) : a.Keeps b := by
  cases h with
  | funded raw hunfunded hb =>
    subst hb
    exact ⟨rfl, fun hfunded => absurd hunfunded hfunded, List.prefix_rfl, fun _ hd _ => hd,
      fun c hc => ⟨rfl, c, hc, rfl, rfl, fun _ => rfl⟩⟩
  | begun d hfunded hopen hpending hb =>
    subst hb
    refine keeps_of_open hopen rfl (fun _ => rfl) ?_ fun d' hd' _ => List.mem_append_left _ hd'
    change _ <+: (a.deliveries ++ [d]).map Delivery.identity
    rw [List.map_append]
    exact List.prefix_append _ _
  | proved early late d status raw hopen ha hunsettled hstatus hb =>
    subst hb
    refine keeps_of_open hopen rfl (fun _ => rfl) ?_ fun d' hd' hterminal => ?_
    · change _ <+: (early ++ d.proved status raw :: late).map Delivery.identity
      rw [ha, List.map_append, List.map_append, List.map_cons, List.map_cons]
      exact List.prefix_rfl
    · change d' ∈ early ++ d.proved status raw :: late
      rw [ha] at hd'
      rcases List.mem_append.mp hd' with hd' | hd'
      · exact List.mem_append_left _ hd'
      · rcases List.mem_cons.mp hd' with rfl | hd'
        · rw [hunsettled] at hterminal
          cases hterminal
        · exact List.mem_append_right _ (List.mem_cons_of_mem _ hd')
  | retained c hfunded hopen hretained hb =>
    subst hb
    exact keeps_of_open hopen rfl (fun _ => rfl) List.prefix_rfl fun _ hd _ => hd
  | compensated c status raw ha hunconfirmed hstatus hb =>
    subst hb
    refine ⟨rfl, fun _ => rfl, List.prefix_rfl, fun _ hd _ => hd, fun c' hc' => ⟨rfl, _, rfl, ?_⟩⟩
    obtain rfl := Option.some.inj (ha.symm.trans hc')
    exact ⟨rfl, rfl, fun hconfirmed => absurd hconfirmed hunconfirmed⟩

end FulfillmentRecord
end Order
end ZenonX402
