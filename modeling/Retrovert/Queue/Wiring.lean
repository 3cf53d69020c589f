import Retrovert.Queue.Steps

/-!
# The wiring of workers, threads and slots

What the queue records of its workers agrees with what their threads are doing:
a worker's entry in the active list is the slot its thread believes it holds, a
worker is armed as long as it has a thread, and a slot that a worker holds stays
in use. No guard is needed for any of it.
-/

set_option autoImplicit false

namespace Retrovert.Queue

open Retrovert.Runs

namespace Shared

variable {n : Nat}

/-- The active list, the armed workers, the threads and the slots agree. -/
structure Wired (shared : Shared n) : Prop where
  holds : ∀ worker, (shared.active worker).slot = (shared.threads worker).index
  started : ∀ worker, (shared.active worker).download.isSome = true →
    (shared.active worker).slot.isSome = true
  inUse : ∀ id, shared.Held id → (shared.slots id).inUse = true
  armed : ∀ worker, shared.armed worker = true ↔ shared.threads worker ≠ .gone

theorem wired_fresh : Wired (fresh n) where
  holds _ := rfl
  started _ there := by cases there
  inUse _ := fun ⟨_, held⟩ => by cases held
  armed _ := by simp [fresh]

/-- A change of one slot that keeps whether it is in use. -/
theorem inUse_update {slots : EntryId → Slot} {id other : EntryId} {slot : Slot}
    (same : slot.inUse = (slots id).inUse) :
    (Function.update slots id slot other).inUse = (slots other).inUse := by
  by_cases here : other = id
  · subst here
    simpa using same
  · simp [here]

/-- A step that leaves claims and handles alone, keeps the slots that workers hold
in use and at most arms new workers. -/
theorem Wired.of_frame {before after : Shared n} (wired : before.Wired)
    (inUse : ∀ id, before.Held id → (after.slots id).inUse = true)
    (held : ∀ worker, (after.active worker).slot = (before.active worker).slot)
    (started : ∀ worker, (after.active worker).download.isSome = true →
      (before.active worker).slot.isSome = true)
    (worker : ∀ worker, (after.armed worker = before.armed worker ∧
        after.threads worker = before.threads worker) ∨
      (before.armed worker = false ∧ after.armed worker = true ∧
        after.threads worker = .starting)) : after.Wired where
  holds other := by
    rw [held other, wired.holds other]
    rcases worker other with same | new
    · rw [same.2]
    · have gone : before.threads other = .gone := by
        simpa [new.1] using (wired.armed other).not
      simp [gone, new.2.2, Thread.index]
  started other there := by
    rw [held other]
    exact started other there
  inUse id := fun ⟨other, holding⟩ => inUse id ⟨other, by rw [← held other, holding]⟩
  armed other := by
    rcases worker other with same | new
    · rw [same.1, same.2]
      exact wired.armed other
    · simp [new.2]

theorem Wired.quiet {before after : Shared n} (wired : before.Wired) (same : Quiet before after) :
    after.Wired where
  holds worker := by rw [same.held, wired.holds, (same.threads worker).1]
  started worker there := by
    rw [same.held, wired.holds]
    rcases same.started worker there with earlier | ⟨index, holding⟩
    · rw [← wired.holds]
      exact wired.started worker earlier
    · simp [holding, Thread.index]
  inUse id := by
    rintro ⟨worker, held⟩
    rw [(same.slots id).inUse]
    exact wired.inUse id ⟨worker, by rw [← same.held, held]⟩
  armed worker := by
    rw [same.armed, ne_eq, (same.threads worker).2]
    exact wired.armed worker

/-- A worker that retires holds nothing. -/
theorem Wired.retire {shared : Shared n} (wired : shared.Wired) {worker : Fin n}
    (idle : (shared.threads worker).index = none) : (shared.retire worker).Wired where
  holds other := by
    by_cases same : other = worker
    · subst same
      simpa [Shared.retire, Thread.index] using (wired.holds other).trans idle
    · simpa [Shared.retire, same] using wired.holds other
  started := wired.started
  inUse := wired.inUse
  armed other := by
    by_cases same : other = worker
    · subst same
      simp [Shared.retire]
    · simpa [Shared.retire, same] using wired.armed other

/-- An unwound worker holds nothing, and the slot it held stays in use. -/
theorem Wired.releaseWorker {shared : Shared n} (wired : shared.Wired) (worker : Fin n) :
    (shared.releaseWorker worker).Wired where
  holds other := by
    by_cases same : other = worker
    · subst same
      simp [Thread.index]
    · simpa [same] using wired.holds other
  started other := by
    by_cases same : other = worker
    · subst same
      simp
    · simpa [same] using wired.started other
  inUse id := by
    rintro ⟨other, held⟩
    have held_before : shared.Held id := by
      by_cases same : other = worker
      · subst same
        simp at held
      · exact ⟨other, by simpa [same] using held⟩
    have inUse := wired.inUse id held_before
    rw [slots_releaseWorker]
    split
    · exact inUse
    · rename_i claimed _
      by_cases same : id = claimed
      · subst same
        simpa [Slot.publishFailure] using inUse
      · simpa [same] using inUse
  armed other := by
    by_cases same : other = worker
    · subst same
      simp
    · simpa [same] using wired.armed other

theorem Wired.resumePreempted {shared : Shared n} (wired : shared.Wired) :
    shared.resumePreempted.Wired :=
  wired.of_frame
    (fun id held => by
      obtain ⟨state, same, _⟩ := shared.resumePreempted_slot id
      rw [same]
      exact wired.inUse id held)
    (fun _ => rfl) wired.started (fun _ => .inl ⟨rfl, rfl⟩)

theorem Wired.take {shared : Shared n} (wired : shared.Wired) {worker : Fin n} {index : EntryId}
    (inUse : (shared.slots index).inUse = true) (idle : shared.threads worker ≠ .gone)
    (spawned : Fin n → Bool) : (shared.take worker index spawned).Wired where
  holds other := by
    by_cases same : other = worker
    · subst same
      simp [Thread.index]
    · rw [active_take, Function.update_of_ne same, wired.holds other]
      rcases shared.take_worker worker index spawned same with kept | new
      · rw [kept.2]
      · have gone : shared.threads other = .gone := by
          simpa [new.1] using (wired.armed other).not
        simp [gone, new.2.2, Thread.index]
  started other there := by
    by_cases same : other = worker
    · subst same
      simp
    · rw [active_take, Function.update_of_ne same] at there ⊢
      exact wired.started other there
  inUse id := by
    rintro ⟨other, held⟩
    by_cases taken : id = index
    · subst taken
      simpa using inUse
    · have held_before : shared.Held id := by
        by_cases same : other = worker
        · subst same
          simp only [active_take, Function.update_self, Option.some.injEq] at held
          exact absurd held.symm taken
        · exact ⟨other, by simpa [same] using held⟩
      simpa [taken] using wired.inUse id held_before
  armed other := by
    by_cases same : other = worker
    · subst same
      simpa using armed_take ((wired.armed other).mpr idle)
    · rcases shared.take_worker worker index spawned same with kept | new
      · rw [kept.1, kept.2]
        exact wired.armed other
      · simp [new.2]

theorem Wired.finish {shared : Shared n} (wired : shared.Wired) {worker : Fin n} {index : EntryId}
    (holding : shared.threads worker = .holding index) (verdict : Verdict) :
    (shared.finish worker index verdict.digest verdict.state verdict.failure).Wired where
  holds other := by
    by_cases same : other = worker
    · subst same
      simp [Shared.finish, Thread.index]
    · simpa [Shared.finish, same] using wired.holds other
  started other := by
    by_cases same : other = worker
    · subst same
      simp [Shared.finish]
    · simpa [Shared.finish, same] using wired.started other
  inUse id := by
    rintro ⟨other, held⟩
    have held_before : shared.Held id := by
      by_cases same : other = worker
      · subst same
        simp [Shared.finish] at held
      · exact ⟨other, by simpa [Shared.finish, same] using held⟩
    have inUse := wired.inUse id held_before
    by_cases settled : id = index
    · subst settled
      simpa [Shared.finish, Slot.inUse_settle] using inUse
    · simpa [Shared.finish, settled] using inUse
  armed other := by
    by_cases same : other = worker
    · subst same
      simpa [Shared.finish, holding] using wired.armed other
    · simpa [Shared.finish, same] using wired.armed other

theorem wired_step {before after : Shared n} {action : Action n}
    (stepped : before.step action = some after) (wired : before.Wired) : after.Wired := by
  cases step_cases stepped with
  | quiet same _ => exact wired.quiet same
  | @queued request now spawned id queued =>
      obtain ⟨free, rfl⟩ := queue_eq_some queued
      refine wired.of_frame (fun other held => ?_) (by simp [enqueue])
        (fun worker there => wired.started worker (by simpa [enqueue] using there))
        (fun worker => ?_)
      · have inUse : ((before.enqueue id request now).slots other).inUse = true := by
          by_cases same : other = id
          · subst same
            simp [enqueue, Request.slot]
          · simpa [enqueue, same] using wired.inUse other held
        rw [slots_armWorkers, slots_yieldTo]
        split <;> exact inUse
      · have armed := armWorkers_worker spawned
          ((before.enqueue id request now).yieldTo request.priority) worker
        rw [armed_yieldTo, threads_yieldTo] at armed
        exact armed
  | cancelled applied =>
      obtain ⟨⟨state, slots, _⟩, armed, threads, _, held, _⟩ := cancel_eq_some applied
      refine wired.of_frame (fun id holding => ?_) (fun worker => (held worker).1)
        (fun worker there => wired.started worker ((held worker).2 ▸ there))
        (fun worker => .inl ⟨by rw [armed], by rw [threads]⟩)
      rw [slots]
      exact (inUse_update (by rfl)).trans (wired.inUse id holding)
  | paused applied =>
      obtain ⟨_, _, rfl⟩ := pause_eq_some applied
      refine wired.of_frame (fun id holding => ?_) (by simp)
        (fun worker there => wired.started worker (by simpa using there))
        (fun worker => .inl ⟨by simp, by simp⟩)
      rw [slots_requestPause]
      exact (inUse_update (by rfl)).trans (wired.inUse id holding)
  | resumed applied =>
      obtain ⟨_, rfl⟩ := resume_eq_some applied
      refine wired.of_frame (fun id holding => ?_) (by simp)
        (fun worker there => wired.started worker (by simpa using there))
        (fun worker => ?_)
      · rw [slots_armWorkers, slots_updateSlot]
        exact (inUse_update (by rfl)).trans (wired.inUse id holding)
      · exact armWorkers_worker _ _ worker
  | @removed id applied =>
      obtain ⟨idle, _, rfl⟩ := remove_eq_some applied
      refine wired.of_frame (fun other holding => ?_) (fun _ => rfl) wired.started
        (fun _ => .inl ⟨rfl, rfl⟩)
      have different : other ≠ id := fun same => idle (same ▸ holding)
      simpa [different] using wired.inUse other holding
  | stopped thread same => exact same ▸ wired.retire (by simp [thread, Thread.index])
  | hookPanicked thread same => exact same ▸ wired.releaseWorker _
  | claimed thread same =>
      subst same
      rcases before.claim_cases _ _ with ⟨_, same⟩ | ⟨index, found, same⟩
      · rw [same]
        exact wired.resumePreempted.retire (by simp [thread, Thread.index])
      · rw [same]
        exact wired.resumePreempted.take (pendingId_eq_some found).1 (by simp [thread]) _
  | settled thread _ same => exact same ▸ wired.finish thread _
  | settlePanicked thread same => exact same ▸ wired.releaseWorker _

/-- **The wiring holds in every run.** -/
theorem Reaches.wired {guard : Shared n → Action n → Prop} {shared : Shared n}
    (run : Reaches guard shared) : shared.Wired :=
  Moves.invariant _ (fun _ _ _ _ => wired_step) run wired_fresh

end Shared

end Retrovert.Queue
