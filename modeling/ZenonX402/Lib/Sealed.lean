/-
# Records with one text

A kind of record is read from any value that shows its fields, and each record has one text,
from which it is read again. Then a text is accepted exactly if it is the text of a record
(`read_iff`), and no two records have one text (`text_inj`).

A program that keeps the texts of the records it made, by their identity, need not read a
record again to write it: what it kept is what reading would give (`fast_path`).

Key definitions: `Sealed`, `Made`, `read`, `Registry`, `Handle`, `serialize`, `Reachable`.
Key theorems: `read_iff`, `text_inj`, `fast_path`.
-/
import ZenonX402.Lib.Json

namespace Js

/-- A kind of record: how it is read from a value, its value and its text. -/
structure Sealed (α : Type) where
  validate : Value → Option α
  value : α → Value
  text : α → String
  fits : String → Bool
  validate_value : ∀ {v a}, validate v = some a → validate (value a) = some a
  fits_text : ∀ {v a}, validate v = some a → fits (text a) = true
  parse_text : ∀ {v a}, validate v = some a → (parse (text a)).bind validate = some a

namespace Sealed

variable {α : Type} (S : Sealed α)

/-- A record that some value was read as. -/
def Made (a : α) : Prop := ∃ v, S.validate v = some a

/-- A text is read if it is the one that is written again. -/
def read (t : String) : Option α := do
  guard (S.fits t = true)
  let decoded ← parse t
  let result ← S.validate decoded
  if S.text result = t then some result else none

variable {S}

/-- **Texts.** A text is accepted exactly if it is the text of a record. -/
theorem read_iff {t : String} {a : α} : S.read t = some a ↔ S.Made a ∧ t = S.text a := by
  constructor
  · intro h
    obtain ⟨_, -, h⟩ := Option.bind_eq_some_iff.mp h
    obtain ⟨decoded, -, h⟩ := Option.bind_eq_some_iff.mp h
    obtain ⟨result, hvalid, h⟩ := Option.bind_eq_some_iff.mp h
    split at h
    next htext =>
      obtain rfl := Option.some.inj h
      exact ⟨⟨decoded, hvalid⟩, htext.symm⟩
    · cases h
  · rintro ⟨⟨v, hvalid⟩, rfl⟩
    obtain ⟨decoded, hparse, hdecoded⟩ := Option.bind_eq_some_iff.mp (S.parse_text hvalid)
    have hfits : (guard (S.fits (S.text a) = true) : Option Unit) = some () :=
      if_pos (S.fits_text hvalid)
    refine Option.bind_eq_some_iff.mpr
      ⟨(), hfits, Option.bind_eq_some_iff.mpr ⟨decoded, hparse, ?_⟩⟩
    exact Option.bind_eq_some_iff.mpr ⟨a, hdecoded, if_pos rfl⟩

/-- No two records have one text. -/
theorem text_inj {a b : α} (ha : S.Made a) (hb : S.Made b) (h : S.text a = S.text b) : a = b := by
  have hread := read_iff.mpr ⟨ha, h.symm⟩
  rw [read_iff.mpr ⟨hb, rfl⟩] at hread
  exact (Option.some.inj hread).symm

/-! ### Texts that are kept -/

/-- The records that a process made, with the texts it keeps of them: the identity of a record is
its place. -/
abbrev Registry (α : Type) := List (α × String)

/-- What is given to be written: a record of the registry itself, or any other value. -/
inductive Handle where
  | made (place : Nat)
  | other (value : Value)

/-- The text of a record is kept when it is made. -/
inductive Step (S : Sealed α) : Registry α → Registry α → Prop
  | keep {registry : Registry α} {a : α} (made : S.Made a) :
      Step S registry (registry ++ [(a, S.text a)])

def Reachable (S : Sealed α) : Registry α → Prop := Relation.ReflTransGen S.Step []

/-- The text that is kept, or that of what the value is read as. -/
def serialize (S : Sealed α) (registry : Registry α) : Handle → Option String
  | .made place => registry[place]?.map Prod.snd
  | .other value => (S.validate value).map S.text

theorem kept_of_reachable {registry : Registry α} (h : S.Reachable registry) : ∀ entry ∈ registry,
    S.Made entry.1 ∧ entry.2 = S.text entry.1 := by
  induction h with
  | refl => exact List.forall_mem_nil _
  | tail _ hstep ih =>
    obtain ⟨hmade⟩ := hstep
    intro entry hentry
    rcases List.mem_append.mp hentry with hentry | hentry
    · exact ih entry hentry
    · rw [List.mem_singleton.mp hentry]
      exact ⟨hmade, rfl⟩

/-- **Kept texts.** What is kept of a record is what is written of any value that shows the same
record. -/
theorem fast_path {registry : Registry α} (h : S.Reachable registry) {place : Nat}
    {a : α} {t : String} (hplace : registry[place]? = some (a, t)) :
    S.serialize registry (.made place) = some t
      ∧ S.serialize registry (.other (S.value a)) = some t
      ∧ ∀ copy, S.validate copy = S.validate (S.value a) → S.serialize registry (.other copy)
      = some t := by
  obtain ⟨⟨v, hvalid⟩, htext⟩ := kept_of_reachable h (a, t) (List.mem_of_getElem? hplace)
  dsimp only at hvalid htext
  have hvalue := S.validate_value hvalid
  have hother : S.serialize registry (.other (S.value a)) = some t := by
    rw [serialize, hvalue, Option.map_some, htext]
  refine ⟨by rw [serialize, hplace, Option.map_some], hother, fun copy hcopy => ?_⟩
  rw [serialize, hcopy]
  exact hother

end Sealed
end Js
