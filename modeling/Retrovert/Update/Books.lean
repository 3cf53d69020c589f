import Retrovert.Update.Acquire

/-!
# The books of an acquisition

An entry that the call has queued is on its list from when it takes a slot until the slot is
freed. A step of the queue that neither frees a slot nor takes one leaves the books in order,
and so does every step of another caller (`Books.queueStep`); a slot that the call takes goes on
the list, and one that it frees comes off.
-/

set_option autoImplicit false

namespace Retrovert.Update.Acquire

open Retrovert.Transport (CacheName)
open Retrovert.Queue (Action EntryId Request Shared)

namespace Ledger

variable {n : Nat}

/-- Every entry that the call queued is on the list of those it has yet to see off, in a slot
that nobody else frees, or its slot is free again. -/
structure Books (ledger : Ledger n) (active : Acquisition) : Prop where
  wired : ledger.shared.Wired
  numbered : ∀ id, ledger.entries id < ledger.count
  apart : Function.Injective ledger.entries
  issued : ∀ number ∈ ledger.tickets, number < ledger.count
  once : ledger.tickets.Nodup
  distinct : (active.map Prod.snd).Nodup
  tracked : ∀ entry ∈ active, ledger.tickets[entry.2]? = some (ledger.entries entry.1) ∧
    (ledger.shared.slots entry.1).inUse = true ∧
    ∀ path, (ledger.shared.slots entry.1).path = some path →
      path ∈ ledger.published (ledger.entries entry.1)
  others : ∀ id, ledger.others id = true →
    (ledger.shared.slots id).inUse = true ∧ ∀ entry ∈ active, entry.1 ≠ id
  freed : ∀ index number, ledger.tickets[index]? = some number →
    index ∈ active.map Prod.snd ∨ ledger.Freed number

theorem books_new {shared : Shared n} (wired : shared.Wired) : (new shared).Books [] where
  wired := wired
  numbered id := id.isLt
  apart := Fin.val_injective
  issued _ member := nomatch member
  once := .nil
  distinct := .nil
  tracked _ member := nomatch member
  others _ inUse := ⟨inUse, nofun⟩
  freed _ _ found := nomatch found

variable {ledger : Ledger n} {active : Acquisition} {shared : Shared n} {action : Action n}

/-- One slot is on the list for one artifact. -/
theorem Books.alone (books : ledger.Books active) {first second : EntryId × Nat}
    (here : first ∈ active) (there : second ∈ active) (same : first.1 = second.1) :
    first.2 = second.2 := by
  have one := (books.tracked first here).1
  have two := (books.tracked second there).1
  rw [same] at one
  exact (List.getElem?_inj (List.getElem?_eq_some_iff.mp one).1 books.once).mp (one.trans two.symm)

/-- The order of the list does not matter. -/
theorem Books.perm {other : Acquisition} (books : ledger.Books active)
    (order : active.Perm other) : ledger.Books other where
  wired := books.wired
  numbered := books.numbered
  apart := books.apart
  issued := books.issued
  once := books.once
  distinct := ((order.map Prod.snd).nodup_iff).mp books.distinct
  tracked entry member := books.tracked entry (order.mem_iff.mpr member)
  others id held := ⟨(books.others id held).1,
    fun entry member => (books.others id held).2 entry (order.mem_iff.mpr member)⟩
  freed index number found := (books.freed index number found).imp_left
    (order.map Prod.snd).mem_iff.mp

theorem mem_publishes {number : Nat} {path : CacheName}
    (member : path ∈ ledger.published number) : path ∈ ledger.publishes action shared number := by
  cases action with
  | settle worker verdict =>
      rw [publishes]
      cases (ledger.shared.active worker).slot with
      | none => exact member
      | some id =>
          dsimp only
          split
          · by_cases same : number = ledger.entries id
            · subst same
              rw [Function.update_self]
              exact List.mem_append_right _ member
            · rwa [Function.update_of_ne same]
          · exact member
  | _ => exact member

/-- **A step that frees no slot and takes none** leaves the books in order. -/
theorem Books.quiet (books : ledger.Books active)
    (stepped : ledger.shared.step action = some shared)
    (queues : ∀ request nowMs spawned, action ≠ .queue request nowMs spawned)
    (removes : ∀ id, action ≠ .remove id) :
    ({ ledger with shared, published := ledger.publishes action shared } : Ledger n).Books active
    where
  wired := Shared.wired_step stepped books.wired
  numbered := books.numbered
  apart := books.apart
  issued := books.issued
  once := books.once
  distinct := books.distinct
  tracked entry member := by
    obtain ⟨ticket, inUse, path⟩ := books.tracked entry member
    refine ⟨ticket, (Shared.inUse_step stepped books.wired queues (removes _)).trans inUse,
      fun found reads => ?_⟩
    rcases Shared.path_step stepped books.wired inUse with
      same | ⟨worker, verdict, rfl, holding, complete⟩
    · exact mem_publishes (path found (same ▸ reads))
    · dsimp only at reads ⊢
      simp only [publishes, holding]
      rw [if_pos complete, Function.update_self, reads]
      exact List.mem_append_left _ List.mem_cons_self
  others id held := ⟨(Shared.inUse_step stepped books.wired queues (removes _)).trans
    (books.others id held).1, (books.others id held).2⟩
  freed index number found := (books.freed index number found).imp_right fun freed id same =>
    (Shared.inUse_step stepped books.wired queues (removes _)).trans (freed id same)

/-! ## Taking a slot -/

section Taking

variable {id : EntryId} {request : Request} {nowMs : Int} {spawned : Fin n → Bool}

@[simp] theorem entries_takes_self (ledger : Ledger n) (shared : Shared n) (id : EntryId) :
    (ledger.takes shared id).entries id = ledger.count := Function.update_self ..

theorem entries_takes_of_ne (ledger : Ledger n) (shared : Shared n) {other : EntryId}
    (elsewhere : other ≠ id) : (ledger.takes shared id).entries other = ledger.entries other :=
  Function.update_of_ne elsewhere ..

/-- A slot that takes a request is not on the list. -/
theorem Books.untracked (books : ledger.Books active)
    (queued : ledger.shared.queue request nowMs spawned = some (shared, id)) :
    ∀ entry ∈ active, entry.1 ≠ id := by
  rintro entry member rfl
  have free := (Shared.queue_eq_some queued).1
  rw [(books.tracked entry member).2.1] at free
  cases free

theorem Books.takes (books : ledger.Books active)
    (queued : ledger.shared.queue request nowMs spawned = some (shared, id)) :
    (ledger.takes shared id).Books active where
  wired := by
    have stepped : ledger.shared.step (.queue request nowMs spawned) = some shared := by
      rw [Shared.step, queued]
      rfl
    exact Shared.wired_step stepped books.wired
  numbered other := by
    by_cases here : other = id
    · subst here
      rw [entries_takes_self]
      exact Nat.lt_succ_self _
    · rw [entries_takes_of_ne _ _ here]
      exact Nat.lt_succ_of_lt (books.numbered other)
  apart first second same := by
    by_cases one : first = id <;> by_cases two : second = id
    · exact one.trans two.symm
    · subst one
      rw [entries_takes_self, entries_takes_of_ne _ _ two] at same
      exact absurd same.symm (books.numbered second).ne
    · subst two
      rw [entries_takes_self, entries_takes_of_ne _ _ one] at same
      exact absurd same (books.numbered first).ne
    · rw [entries_takes_of_ne _ _ one, entries_takes_of_ne _ _ two] at same
      exact books.apart same
  issued number member := Nat.lt_succ_of_lt (books.issued number member)
  once := books.once
  distinct := books.distinct
  tracked entry member := by
    have elsewhere := books.untracked queued entry member
    obtain ⟨inUse, path⟩ := Shared.queue_elsewhere queued elsewhere
    rw [entries_takes_of_ne _ _ elsewhere]
    obtain ⟨ticket, used, published⟩ := books.tracked entry member
    exact ⟨ticket, inUse.trans used, fun found reads => published found (path.symm.trans reads)⟩
  others other held := by
    obtain ⟨inUse, untracked⟩ := books.others other held
    refine ⟨?_, untracked⟩
    have elsewhere : other ≠ id := by
      rintro rfl
      rw [(Shared.queue_eq_some queued).1] at inUse
      cases inUse
    exact (Shared.queue_elsewhere queued elsewhere).1.trans inUse
  freed index number found := by
    refine (books.freed index number found).imp_right fun freed other same => ?_
    have older := books.issued number (List.mem_of_getElem? found)
    by_cases here : other = id
    · subst here
      rw [entries_takes_self] at same
      exact absurd same older.ne'
    · rw [entries_takes_of_ne _ _ here] at same
      exact (Shared.queue_elsewhere queued here).1.trans (freed other same)

/-- Another caller queues a transfer. -/
theorem Books.taken (books : ledger.Books active)
    (queued : ledger.shared.queue request nowMs spawned = some (shared, id)) :
    ({ ledger.takes shared id with
      others := Function.update ledger.others id true } : Ledger n).Books active :=
  have takes := books.takes queued
  { takes with
    others := fun other held => by
      by_cases here : other = id
      · subst here
        refine ⟨?_, books.untracked queued⟩
        show (shared.slots other).inUse = true
        rw [(Shared.queue_slot queued).1]
        rfl
      · dsimp only at held
        rw [Function.update_of_ne here] at held
        exact takes.others other held }

/-- The call queues a transfer, and puts it on its list. -/
theorem Books.queues (books : ledger.Books active)
    (queued : ledger.shared.queue request nowMs spawned = some (shared, id)) :
    ({ ledger.takes shared id with tickets := ledger.tickets ++ [ledger.count] } : Ledger n).Books
      (active ++ [(id, ledger.tickets.length)]) where
  wired := (books.takes queued).wired
  numbered := (books.takes queued).numbered
  apart := (books.takes queued).apart
  issued number member := by
    rcases List.mem_append.mp member with earlier | last
    · exact (books.takes queued).issued number earlier
    · rw [List.mem_singleton.mp last]
      exact Nat.lt_succ_self _
  once := by
    refine List.nodup_append.mpr ⟨books.once, List.nodup_singleton _, ?_⟩
    rintro number earlier last member rfl
    rw [List.mem_singleton.mp member] at earlier
    exact Nat.lt_irrefl _ (books.issued _ earlier)
  distinct := by
    rw [List.map_append]
    refine List.nodup_append.mpr ⟨books.distinct, List.nodup_singleton _, ?_⟩
    rintro index earlier last member rfl
    obtain ⟨entry, there, same⟩ := List.mem_map.mp earlier
    have within := (List.getElem?_eq_some_iff.mp (books.tracked entry there).1).1
    rw [List.mem_singleton.mp member] at same
    omega
  tracked entry member := by
    rcases List.mem_append.mp member with earlier | last
    · obtain ⟨ticket, rest⟩ := (books.takes queued).tracked entry earlier
      refine ⟨?_, rest⟩
      exact (List.getElem?_append_left (List.getElem?_eq_some_iff.mp ticket).1).trans ticket
    · rw [List.mem_singleton.mp last]
      have slot : (ledger.takes shared id).shared.slots id = request.slot nowMs :=
        (Shared.queue_slot queued).1
      dsimp only
      rw [slot, entries_takes_self]
      exact ⟨List.getElem?_concat_length, rfl, nofun⟩
  others other held := by
    obtain ⟨inUse, untracked⟩ := (books.takes queued).others other held
    refine ⟨inUse, fun entry member => ?_⟩
    rcases List.mem_append.mp member with earlier | last
    · exact untracked entry earlier
    · rw [List.mem_singleton.mp last]
      rintro rfl
      have free := (Shared.queue_eq_some queued).1
      rw [(books.others id held).1] at free
      cases free
  freed index number found := by
    rw [List.map_append]
    rcases Nat.lt_or_ge index ledger.tickets.length with earlier | last
    · rw [List.getElem?_append_left earlier] at found
      exact ((books.takes queued).freed index number found).imp_left (List.mem_append_left _)
    · have within := (List.getElem?_eq_some_iff.mp found).1
      rw [List.length_append, List.length_singleton] at within
      have same : index = ledger.tickets.length := by omega
      exact .inl (same ▸ List.mem_append_right _ List.mem_cons_self)

end Taking

/-! ## Freeing a slot -/

section Freeing

variable {id : EntryId}

theorem wired_remove (wired : ledger.shared.Wired) (removed : ledger.shared.remove id = some shared) :
    shared.Wired := by
  have stepped : ledger.shared.step (.remove id) = some shared := by
    rw [Shared.step, removed]
    rfl
  exact Shared.wired_step stepped wired

theorem slots_remove (removed : ledger.shared.remove id = some shared) (other : EntryId) :
    other = id ∧ (shared.slots other).inUse = false ∨
      other ≠ id ∧ shared.slots other = ledger.shared.slots other := by
  obtain ⟨-, -, rfl⟩ := Shared.remove_eq_some removed
  rw [Shared.slots_updateSlot]
  by_cases here : other = id
  · subst here
    exact .inl ⟨rfl, by rw [Function.update_self]⟩
  · exact .inr ⟨here, Function.update_of_ne here ..⟩

/-- What is free stays free. -/
theorem free_remove (removed : ledger.shared.remove id = some shared) {other : EntryId}
    (free : (ledger.shared.slots other).inUse = false) : (shared.slots other).inUse = false := by
  rcases slots_remove removed other with ⟨-, freed⟩ | ⟨-, same⟩
  · exact freed
  · rw [same, free]

/-- Another caller frees a slot of its own. -/
theorem Books.gaveUp (books : ledger.Books active) (held : ledger.others id = true)
    (removed : ledger.shared.remove id = some shared) :
    ({ ledger with
      shared, others := Function.update ledger.others id false } : Ledger n).Books active where
  wired := wired_remove books.wired removed
  numbered := books.numbered
  apart := books.apart
  issued := books.issued
  once := books.once
  distinct := books.distinct
  tracked entry member := by
    rcases slots_remove removed entry.1 with ⟨here, -⟩ | ⟨-, same⟩
    · exact absurd here ((books.others id held).2 entry member)
    · dsimp only
      rw [same]
      exact books.tracked entry member
  others other kept := by
    by_cases here : other = id
    · subst here
      dsimp only at kept
      rw [Function.update_self] at kept
      cases kept
    · dsimp only at kept ⊢
      rw [Function.update_of_ne here] at kept
      rcases slots_remove removed other with ⟨there, -⟩ | ⟨-, same⟩
      · exact absurd there here
      · rw [same]
        exact books.others other kept
  freed index number found := (books.freed index number found).imp_right
    fun freed other same => free_remove removed (freed other same)

/-- The call frees the slot of an entry, and takes it off its list. -/
theorem Books.frees {entry : EntryId × Nat} {rest : Acquisition}
    (books : ledger.Books (entry :: rest))
    (removed : ledger.shared.remove entry.1 = some shared) :
    ({ ledger with shared } : Ledger n).Books rest where
  wired := wired_remove books.wired removed
  numbered := books.numbered
  apart := books.apart
  issued := books.issued
  once := books.once
  distinct := (List.nodup_cons.mp books.distinct).2
  tracked other member := by
    have elsewhere : other.1 ≠ entry.1 := fun same => by
      have index := books.alone (List.mem_cons_of_mem _ member) List.mem_cons_self same
      exact (List.nodup_cons.mp books.distinct).1 (index ▸ List.mem_map_of_mem member)
    rcases slots_remove removed other.1 with ⟨here, -⟩ | ⟨-, same⟩
    · exact absurd here elsewhere
    · dsimp only
      rw [same]
      exact books.tracked other (List.mem_cons_of_mem _ member)
  others other held := by
    obtain ⟨inUse, untracked⟩ := books.others other held
    refine ⟨?_, fun one member => untracked one (List.mem_cons_of_mem _ member)⟩
    rcases slots_remove removed other with ⟨here, -⟩ | ⟨-, same⟩
    · exact absurd here.symm (untracked entry List.mem_cons_self)
    · dsimp only
      rw [same]
      exact inUse
  freed index number found := by
    rcases books.freed index number found with listed | freed
    · rcases List.mem_cons.mp listed with rfl | later
      · -- The entry's own number: no other slot has it.
        right
        intro other same
        have ticket := (books.tracked entry List.mem_cons_self).1
        rw [Option.some.inj (found.symm.trans ticket)] at same
        rcases slots_remove removed other with ⟨-, free⟩ | ⟨elsewhere, -⟩
        · exact free
        · exact absurd (books.apart same) elsewhere
      · exact .inl later
    · exact .inr fun other same => free_remove removed (freed other same)

end Freeing

/-- The call asks for a cancel. -/
theorem Books.cancels {id : EntryId} (books : ledger.Books active) :
    ({ ledger with shared := (ledger.shared.cancel id).getD ledger.shared } : Ledger n).Books
      active := by
  have stepped : ledger.shared.step (.cancel id) =
    some ((ledger.shared.cancel id).getD ledger.shared) := rfl
  exact books.quiet stepped nofun nofun

/-- **A step of the others keeps the books in order.** -/
theorem Books.queueStep {later : Ledger n} (books : ledger.Books active)
    (stepped : ledger.queueStep action = some later) : later.Books active ∧
      later.tickets = ledger.tickets ∧
      ∀ number path, path ∈ ledger.published number → path ∈ later.published number := by
  unfold Ledger.queueStep at stepped
  split at stepped
  · split at stepped
    · cases stepped
      exact ⟨books, rfl, fun _ _ => id⟩
    · rename_i queued
      cases stepped
      exact ⟨books.taken queued, rfl, fun _ _ => id⟩
  · split at stepped
    · rename_i held
      split at stepped
      · cases stepped
        exact ⟨books, rfl, fun _ _ => id⟩
      · rename_i removed
        cases stepped
        exact ⟨books.gaveUp held removed, rfl, fun _ _ => id⟩
    · cases stepped
  · rename_i queues removes
    obtain ⟨shared, quiet, rfl⟩ := Option.map_eq_some_iff.mp stepped
    exact ⟨books.quiet quiet queues removes, rfl, fun _ _ => mem_publishes⟩

/-- A step of the others is a step of the queue, and frees only what they hold. -/
theorem step_of_queueStep {later : Ledger n} (stepped : ledger.queueStep action = some later) :
    ledger.shared.step action = some later.shared ∧
      ∀ id, action = .remove id → ledger.others id = true := by
  unfold Ledger.queueStep at stepped
  split at stepped
  · rw [Shared.step]
    split at stepped
    · rename_i queued
      cases stepped
      exact ⟨by rw [queued]; rfl, fun _ same => by cases same⟩
    · rename_i queued
      cases stepped
      exact ⟨by rw [queued]; rfl, fun _ same => by cases same⟩
  · split at stepped
    · rename_i held
      rw [Shared.step]
      split at stepped
      · rename_i removed
        cases stepped
        exact ⟨by rw [removed]; rfl, fun _ same => (Action.remove.inj same) ▸ held⟩
      · rename_i removed
        cases stepped
        exact ⟨by rw [removed]; rfl, fun _ same => (Action.remove.inj same) ▸ held⟩
    · cases stepped
  · rename_i removes
    obtain ⟨shared, quiet, rfl⟩ := Option.map_eq_some_iff.mp stepped
    exact ⟨quiet, fun id same => absurd same (removes id)⟩

end Ledger

end Retrovert.Update.Acquire
