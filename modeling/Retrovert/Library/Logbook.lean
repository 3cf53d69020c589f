import Mathlib.Data.List.DropRight
import Mathlib.Data.Option.Basic

/-!
# Logbooks

A program keeps a value in memory and notes entries in it. After each entry it writes the whole
value to a file, which may fail, and a later run opens the file again, or starts with a blank
value when it cannot. What is in memory and what can be read back are then each made of a chain
of entries (`told_note`, `told_reopen`, `told_damage`): the one of all the entries since the
value was opened, the other of those noted up to the last write that landed.

A logbook that must not grow keeps the last entries only. Cutting early and cutting late come to
the same (`rtake_append_rtake`).
-/

set_option autoImplicit false

namespace Retrovert.Logbook

/-! ## The last entries -/

section Bounded

variable {α : Type*} (cap : Nat) (earlier later : List α)

theorem rtake_append_rtake :
    (earlier.rtake cap ++ later).rtake cap = (earlier ++ later).rtake cap := by
  simp only [List.rtake_eq_reverse_take_reverse, List.reverse_append, List.reverse_reverse,
    List.take_append, List.take_take]
  rw [Nat.min_eq_left (Nat.sub_le _ _)]

theorem length_rtake : (earlier.rtake cap).length = min cap earlier.length := by
  rw [List.rtake_eq_reverse_take_reverse]
  simp

theorem rtake_suffix : earlier.rtake cap <:+ earlier := List.drop_suffix _ _

/-- Entries noted one at a time, each time with the oldest ones dropped. -/
theorem foldl_rtake (kept : earlier.length ≤ cap) :
    later.foldl (fun entries entry => (entries ++ [entry]).rtake cap) earlier =
      (earlier ++ later).rtake cap := by
  induction later generalizing earlier with
  | nil => simp [List.rtake, Nat.sub_eq_zero_of_le kept]
  | cons entry later ih =>
      have short : ((earlier ++ [entry]).rtake cap).length ≤ cap := by
        rw [length_rtake]
        exact Nat.min_le_left _ _
      rw [List.foldl_cons, ih _ short, rtake_append_rtake]
      simp

end Bounded

/-! ## A value and its file -/

/-- How a value is written down. -/
structure Format (σ α : Type*) where
  write : σ → α
  read : α → Option σ
  read_write : ∀ value, read (write value) = some value

/-- What a file holds, if that is a value. -/
def Format.stored {σ α : Type*} (format : Format σ α) (file : Option α) : Option σ :=
  file.bind format.read

/-- A value in memory, and what the file it is kept in holds. -/
structure Book (σ α : Type*) where
  value : σ
  file : Option α

/-- The entries that the value in memory is made of, and those that a file which can be read
back is made of. -/
structure Chain (ε : Type*) where
  noted : List ε := []
  kept : Option (List ε) := none
deriving DecidableEq

namespace Book

variable {σ α ε : Type*} (format : Format σ α) (blank : σ) (enter : σ → ε → σ)

/-- Note an entry, and write the value down. -/
def note (book : Book σ α) (entry : ε) (lands : Bool) : Book σ α :=
  let value := enter book.value entry
  { value, file := if lands then some (format.write value) else book.file }

/-- Open the file again. -/
def reopen (book : Book σ α) (readable : Bool) : Book σ α :=
  { book with value := if readable then (format.stored book.file).getD blank else blank }

/-- What a book holds is made of a chain of entries. -/
structure Told (book : Book σ α) (chain : Chain ε) : Prop where
  value : book.value = chain.noted.foldl enter blank
  stored : format.stored book.file = chain.kept.map (·.foldl enter blank)

end Book

namespace Chain

variable {ε : Type*}

def note (chain : Chain ε) (entry : ε) (lands : Bool) : Chain ε :=
  let noted := chain.noted ++ [entry]
  { noted, kept := if lands then some noted else chain.kept }

def reopen (chain : Chain ε) (readable : Bool) : Chain ε :=
  { chain with noted := if readable then chain.kept.getD [] else [] }

/-- The file is lost, or holds nothing that can be read back. -/
def damage (chain : Chain ε) : Chain ε := { chain with kept := none }

end Chain

namespace Book

variable {σ α ε : Type*} {format : Format σ α} {blank : σ} {enter : σ → ε → σ}
  {book : Book σ α} {chain : Chain ε}

theorem told_note (told : book.Told format blank enter chain) (entry : ε) (lands : Bool) :
    (book.note format enter entry lands).Told format blank enter (chain.note entry lands) := by
  have value : enter book.value entry = (chain.noted ++ [entry]).foldl enter blank := by
    rw [told.value, List.foldl_append]
    rfl
  refine ⟨value, ?_⟩
  cases lands with
  | false => exact told.stored
  | true =>
      simp only [note, Format.stored, Chain.note, if_true, Option.bind_some, Option.map_some]
      rw [format.read_write, value]

theorem told_notes (told : book.Told format blank enter chain) (notes : List (ε × Bool)) :
    (notes.foldl (fun book note => book.note format enter note.1 note.2) book).Told format blank
      enter (notes.foldl (fun chain note => chain.note note.1 note.2) chain) := by
  induction notes generalizing book chain with
  | nil => exact told
  | cons first rest ih => exact ih (told_note told first.1 first.2)

theorem value_notes (book : Book σ α) (notes : List (ε × Bool)) :
    (notes.foldl (fun book note => book.note format enter note.1 note.2) book).value =
      (notes.map Prod.fst).foldl enter book.value := by
  induction notes generalizing book with
  | nil => rfl
  | cons first rest ih => exact ih (book.note format enter first.1 first.2)

theorem told_reopen (told : book.Told format blank enter chain) (readable : Bool) :
    (book.reopen format blank readable).Told format blank enter (chain.reopen readable) := by
  refine ⟨?_, told.stored⟩
  cases readable with
  | false => rfl
  | true =>
      simp only [reopen, Chain.reopen, if_true]
      rw [told.stored]
      cases chain.kept with
      | none => rfl
      | some kept => rfl

theorem told_damage (told : book.Told format blank enter chain) {file : Option α}
    (unreadable : format.stored file = none) :
    ({ book with file } : Book σ α).Told format blank enter chain.damage :=
  ⟨told.value, unreadable⟩

end Book

end Retrovert.Logbook
