/-
# Leases

A cell that one owner at a time may write, and that is handed from owner to owner.
It counts its changes (`revision`) and its owners (`epoch`): the owner writes
under its epoch, and a handover starts the next epoch and leaves the content as
it is. So an epoch has one owner, and once it is over it does not come back
(`Lease.Before`): whoever only replaces a cell of an earlier epoch replaces
nothing any more.

Key definitions: `Lease`, `Lease.Writes`, `Lease.HandsOver`, `Lease.Step`, `Lease.Before`.
Key theorems: `Step.before`, `Before.trans`, `Step.ordered`.
-/
import Mathlib.Order.Nat

namespace Js

structure Lease (ω ρ : Type) where
  owner : Option ω
  epoch : Nat
  revision : Nat
  content : ρ

namespace Lease

variable {ω ρ : Type} {a b c : Lease ω ρ}

/-- The owner of the epoch changes the content. -/
structure Writes (a b : Lease ω ρ) : Prop where
  owned : a.owner ≠ none
  owner : b.owner = a.owner
  epoch : b.epoch = a.epoch
  revision : b.revision = a.revision + 1

/-- The next epoch starts, with the content as it is. -/
structure HandsOver (a b : Lease ω ρ) : Prop where
  epoch : b.epoch = a.epoch + 1
  revision : b.revision = a.revision + 1
  content : b.content = a.content

def Step (a b : Lease ω ρ) : Prop := a.Writes b ∨ a.HandsOver b

/-- A later lease: of a later epoch, or of the same epoch and the same owner. -/
structure Before (a b : Lease ω ρ) : Prop where
  epoch : a.epoch ≤ b.epoch
  revision : a.revision ≤ b.revision
  owner : b.epoch = a.epoch → b.owner = a.owner

theorem Before.refl (a : Lease ω ρ) : a.Before a := ⟨le_rfl, le_rfl, fun _ => rfl⟩

theorem Before.trans (hab : a.Before b) (hbc : b.Before c) : a.Before c := by
  refine ⟨hab.epoch.trans hbc.epoch, hab.revision.trans hbc.revision, fun h => ?_⟩
  have hb : b.epoch = a.epoch := le_antisymm (h ▸ hbc.epoch) hab.epoch
  rw [hbc.owner (h.trans hb.symm), hab.owner hb]

theorem Step.before (h : a.Step b) : a.Before b := by
  rcases h with h | h
  · exact ⟨h.epoch.ge, by have := h.revision; omega, fun _ => h.owner⟩
  · have hepoch := h.epoch
    exact ⟨by omega, by have := h.revision; omega, fun he => absurd he (by omega)⟩

theorem Step.revision (h : a.Step b) : b.revision = a.revision + 1 :=
  h.elim Writes.revision HandsOver.revision

/-- There are at least as many changes as there are owners. -/
theorem Step.ordered (h : a.Step b) (ha : a.epoch ≤ a.revision) : b.epoch ≤ b.revision := by
  have hrevision := h.revision
  rcases h with h | h
  · have := h.epoch
    omega
  · have := h.epoch
    omega

end Lease
end Js
