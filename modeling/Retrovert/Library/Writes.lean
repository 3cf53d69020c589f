import Mathlib.Data.List.Nodup
import Retrovert.Library.Disk

/-!
# Lists of writes, and their prefixes

A run of whole-file writes is a list, and cutting the run off anywhere leaves a
prefix of the list landed. A file that no write of the prefix names is as it was
(`land_of_untouched`), and one that a list without repetition names holds what
was written (`land_of_mem`). Every write of a list stays exactly if those under
one name agree (`land_keeps_iff`).

When the last write of a list is its commit point, a cut either lands the whole
list or a prefix without the commit point (`take_concat`).
-/

set_option autoImplicit false

namespace Retrovert

/-- Whole files under names. -/
abbrev Files (κ : Type*) := κ → Option Bytes

namespace Files

variable {κ : Type*} [DecidableEq κ]

/-- The files after the writes, in order. -/
def land (files : Files κ) (writes : List (κ × Bytes)) : Files κ :=
  writes.foldl (fun files write => Function.update files write.1 (some write.2)) files

@[simp] theorem land_nil (files : Files κ) : files.land [] = files := rfl

@[simp] theorem land_cons (files : Files κ) (write : κ × Bytes) (rest : List (κ × Bytes)) :
    files.land (write :: rest) = land (Function.update files write.1 (some write.2)) rest := rfl

theorem land_append (files : Files κ) (first second : List (κ × Bytes)) :
    files.land (first ++ second) = (files.land first).land second :=
  List.foldl_append

/-- A file that no write names is as it was. -/
theorem land_of_untouched {files : Files κ} {writes : List (κ × Bytes)} {name : κ}
    (untouched : name ∉ writes.map Prod.fst) : files.land writes name = files name := by
  induction writes generalizing files with
  | nil => rfl
  | cons write rest ih =>
      simp only [List.map_cons, List.mem_cons, not_or] at untouched
      rw [land_cons, ih untouched.2, Function.update_of_ne untouched.1]

/-- What a write puts under a name stays when no other write names it. -/
theorem land_of_mem {files : Files κ} {writes : List (κ × Bytes)} {name : κ} {bytes : Bytes}
    (once : (writes.map Prod.fst).Nodup) (written : (name, bytes) ∈ writes) :
    files.land writes name = some bytes := by
  induction writes generalizing files with
  | nil => cases written
  | cons write rest ih =>
      rw [List.map_cons, List.nodup_cons] at once
      rcases List.mem_cons.mp written with rfl | later
      · rw [land_cons, land_of_untouched once.1, Function.update_self]
      · exact ih once.2 later

/-- Every write of a list stays exactly if those under one name agree. -/
theorem land_keeps_iff {files : Files κ} {writes : List (κ × Bytes)} :
    (∀ write ∈ writes, files.land writes write.1 = some write.2) ↔
      ∀ first ∈ writes, ∀ second ∈ writes, first.1 = second.1 → first.2 = second.2 := by
  constructor
  · intro kept first here second there same
    exact Option.some.inj ((kept first here).symm.trans (same ▸ kept second there))
  · intro agree
    induction writes generalizing files with
    | nil => exact fun _ absurd => nomatch absurd
    | cons write rest ih =>
        have later : ∀ first ∈ rest, ∀ second ∈ rest, first.1 = second.1 → first.2 = second.2 :=
          fun first here second there =>
            agree first (List.mem_cons_of_mem _ here) second (List.mem_cons_of_mem _ there)
        intro first here
        rw [land_cons]
        by_cases again : first.1 ∈ rest.map Prod.fst
        · -- A later write of the same name has the same content, and it stays.
          obtain ⟨second, there, same⟩ := List.mem_map.mp again
          rw [← same, ih later second there,
            agree second (List.mem_cons_of_mem _ there) first here same]
        · rcases List.mem_cons.mp here with rfl | there
          · rw [land_of_untouched again, Function.update_self]
          · exact absurd (List.mem_map_of_mem there) again

/-- A cut lands everything, or a prefix of what comes before the last write. -/
theorem take_concat {α : Type*} (before : List α) (last : α) (cut : Nat) :
    before.length < cut ∧ (before ++ [last]).take cut = before ++ [last] ∨
      cut ≤ before.length ∧ (before ++ [last]).take cut = before.take cut := by
  rcases Nat.lt_or_ge before.length cut with whole | short
  · exact .inl ⟨whole, List.take_of_length_le (by rw [List.length_append]; exact whole)⟩
  · exact .inr ⟨short, List.take_append_of_le_length short⟩

end Files

end Retrovert
