import Retrovert.Queue.Wiring

/-!
# One entry's view of a run

What a step does, as seen from one entry: its slot, the workers that hold it,
and whether their transfers have been asked to pause. Most steps leave an entry
alone. The others are the moves of its life: queued, preempted, cancelled,
paused, resumed, swept, taken by a worker, settled, removed.
-/

set_option autoImplicit false

namespace Retrovert.Queue

open Retrovert.Runs

namespace Shared

variable {n : Nat}

theorem held_congr {id : EntryId} {before after : Shared n}
    (holders : ∀ worker, (after.active worker).slot = some id ↔
      (before.active worker).slot = some id) : after.Held id ↔ before.Held id :=
  exists_congr holders

/-- The same workers hold the entry, and none of them is asked to pause on any
account but the entry's own pause request. -/
structure SameClaim (id : EntryId) (before after : Shared n) : Prop where
  holders : ∀ worker, (after.active worker).slot = some id ↔ (before.active worker).slot = some id
  pausing : ∀ worker, (before.active worker).slot = some id → after.Pausing worker →
    before.Pausing worker ∨ (before.slots id).pauseRequested = true

theorem SameClaim.held {id : EntryId} {before after : Shared n} (claim : SameClaim id before after) :
    after.Held id ↔ before.Held id :=
  held_congr claim.holders

/-- A step that leaves the active list alone, handles included. -/
theorem SameClaim.of_active {id : EntryId} {before after : Shared n}
    (same : after.active = before.active) : SameClaim id before after where
  holders worker := by rw [same]
  pausing worker _ pausing := .inl (by unfold Pausing at *; rwa [same] at pausing)

/-- The moves of one entry's life. -/
inductive EntryChange (id : EntryId) (before after : Shared n) : Action n → Prop
  | same {action : Action n} (slot : (before.slots id).SameControl (after.slots id))
      (claim : SameClaim id before after) : EntryChange id before after action
  | queued {request : Request} {now : Int} {spawned : Fin n → Bool}
      (free : (before.slots id).inUse = false) (slot : after.slots id = request.slot now)
      (holders : ∀ worker, (after.active worker).slot = some id ↔
        (before.active worker).slot = some id) :
      EntryChange id before after (.queue request now spawned)
  | preempted {request : Request} {now : Int} {spawned : Fin n → Bool} {free : EntryId}
      (found : before.freeSlot = some free)
      (target : (before.enqueue free request now).yieldId request.priority = some id)
      (downloading : (before.slots id).state = .downloading)
      (slot : after.slots id =
        { before.slots id with state := .preempted, pauseRequested := true })
      (holders : ∀ worker, (after.active worker).slot = some id ↔
        (before.active worker).slot = some id) :
      EntryChange id before after (.queue request now spawned)
  | cancelled (state : State) (slot : after.slots id =
        { before.slots id with
          state
          cancelRequested := (before.slots id).cancelRequested || before.isActive id })
      (decided : before.Held id ∧ state = (before.slots id).state ∨ state = .cancelled ∧
        ((before.slots id).state = .pending ∨ (before.slots id).state = .paused ∨
          (before.slots id).state = .preempted ∧ ¬before.Held id))
      (claim : SameClaim id before after) : EntryChange id before after (.cancel id)
  | paused (applied : before.pause id = some after)
      (downloading : (before.slots id).state = .downloading)
      (slot : after.slots id = { before.slots id with pauseRequested := true })
      (holders : ∀ worker, (after.active worker).slot = some id ↔
        (before.active worker).slot = some id) : EntryChange id before after (.pause id)
  | resumed {spawned : Fin n → Bool} (applied : before.resume id spawned = some after)
      (paused : (before.slots id).state = .paused)
      (slot : after.slots id = { before.slots id with state := .pending })
      (claim : SameClaim id before after) : EntryChange id before after (.resume id spawned)
  | removed (applied : before.remove id = some after) (idle : ¬before.Held id)
      (slot : after.slots id = { before.slots id with inUse := false })
      (claim : SameClaim id before after) : EntryChange id before after (.remove id)
  | swept {worker : Fin n} {spawned : Fin n → Bool} (idle : ¬before.UserWorkOutstanding)
      (preempted : (before.slots id).state = .preempted)
      (slot : after.slots id = { before.slots id with state := .pending })
      (claim : SameClaim id before after) : EntryChange id before after (.claim worker spawned)
  | taken {worker : Fin n} {spawned : Fin n → Bool} (inUse : (before.slots id).inUse = true)
      (waiting : (before.slots id).state = .pending ∨
        (before.slots id).state = .preempted ∧ ¬before.UserWorkOutstanding)
      (slot : after.slots id = { before.slots id with state := .downloading })
      (holders : ∀ other, (after.active other).slot = some id ↔
        other = worker ∨ (before.active other).slot = some id)
      (calm : ¬after.Pausing worker)
      (pausing : ∀ other, other ≠ worker → after.Pausing other → before.Pausing other) :
      EntryChange id before after (.claim worker spawned)
  | settled {worker : Fin n} {verdict : Verdict}
      (holding : (before.active worker).slot = some id)
      (asked : verdict = .paused → before.Pausing worker)
      (slot : after.slots id =
        (before.slots id).settle verdict.digest verdict.state verdict.failure)
      (holders : ∀ other, (after.active other).slot = some id ↔
        other ≠ worker ∧ (before.active other).slot = some id)
      (pausing : ∀ other, after.Pausing other → before.Pausing other) :
      EntryChange id before after (.settle worker verdict)
  | settlePanicked {worker : Fin n} (holding : (before.active worker).slot = some id)
      (slot : after.slots id =
        { (before.slots id).publishFailure .panicked with state := .failed })
      (holders : ∀ other, (after.active other).slot = some id ↔
        other ≠ worker ∧ (before.active other).slot = some id) :
      EntryChange id before after (.settlePanics worker)

/-! ## Every step is one of these moves -/

/-- Releasing a worker of another entry leaves this entry's claim alone. -/
theorem SameClaim.of_release {id : EntryId} {before after : Shared n} {worker : Fin n}
    (other : (before.active worker).slot ≠ some id)
    (active : after.active = Function.update before.active worker {}) :
    SameClaim id before after where
  holders another := by
    rw [active]
    by_cases same : another = worker
    · subst same
      simp [other]
    · simp [same]
  pausing another holding pausing := by
    have different : another ≠ worker := by
      rintro rfl
      exact other holding
    rw [Pausing, active, Function.update_of_ne different] at pausing
    exact .inl pausing

/-- Releasing a worker of this entry leaves its other holders. -/
theorem holders_of_release {id : EntryId} {before after : Shared n} {worker : Fin n}
    (active : after.active = Function.update before.active worker {}) (other : Fin n) :
    (after.active other).slot = some id ↔
      other ≠ worker ∧ (before.active other).slot = some id := by
  rw [active]
  by_cases same : other = worker
  · subst same
    simp
  · simp [same]

/-- What has just been queued is pending, and makes way for nobody. -/
theorem yieldId_ne_queued (shared : Shared n) (id : EntryId) (request : Request) (now : Int) :
    (shared.enqueue id request now).yieldId request.priority ≠ some id := by
  intro target
  obtain ⟨_, _, _, _, downloading, _⟩ := yieldId_eq_some target
  simp [enqueue, Request.slot] at downloading

/-- The entry that a queue call returns. -/
theorem queue_slot {id : EntryId} {before after : Shared n} {request : Request} {now : Int}
    {spawned : Fin n → Bool} (queued : before.queue request now spawned = some (after, id)) :
    after.slots id = request.slot now ∧ ∀ worker, (after.active worker).slot = some id ↔
      (before.active worker).slot = some id := by
  obtain ⟨_, rfl⟩ := queue_eq_some queued
  refine ⟨?_, fun worker => by simp [enqueue]⟩
  rw [slots_armWorkers, slots_yieldTo, if_neg (before.yieldId_ne_queued id request now)]
  simp [enqueue]

/-- A queue call, as seen from one entry. -/
theorem entry_queue {id free : EntryId} {before after : Shared n} {request : Request} {now : Int}
    {spawned : Fin n → Bool} (queued : before.queue request now spawned = some (after, free)) :
    EntryChange id before after (.queue request now spawned) := by
  obtain ⟨unused, same⟩ := queue_eq_some queued
  have found := freeSlot_of_queue queued
  by_cases here : id = free
  · subst here
    exact .queued unused (queue_slot queued).1 (queue_slot queued).2
  · subst same
    have elsewhere : (before.enqueue free request now).slots id = before.slots id := by
      simp [enqueue, here]
    by_cases target : (before.enqueue free request now).yieldId request.priority = some id
    · obtain ⟨_, _, _, _, downloading, _⟩ := yieldId_eq_some target
      refine .preempted found target (by rwa [elsewhere] at downloading) ?_
        (fun worker => by simp [enqueue])
      rw [slots_armWorkers, slots_yieldTo, if_pos target, elsewhere]
    · refine .same ?_ ⟨fun worker => by simp [enqueue], fun worker holding pausing => .inl ?_⟩
      · rw [slots_armWorkers, slots_yieldTo, if_neg target, elsewhere]
        exact .refl _
      · rw [Pausing, active_armWorkers, yieldTo_eq] at pausing
        split at pausing
        · exact pausing
        · rename_i yielding chosen
          rcases pausing_raiseFor pausing with earlier | holds
          · exact earlier
          · have holds : (before.active worker).slot = some yielding := holds
            rw [holding] at holds
            cases holds
            exact absurd chosen target

/-- A look for work, as seen from one entry. -/
theorem entry_claim {id : EntryId} {before : Shared n} {worker : Fin n} {spawned : Fin n → Bool}
    (wired : before.Wired) (idle : (before.active worker).slot = none) :
    EntryChange id before (before.claim worker spawned) (.claim worker spawned) := by
  obtain ⟨state, swept, decided⟩ := before.resumePreempted_slot id
  have left_alone : ∀ after : Shared n, after.slots id = before.resumePreempted.slots id →
      SameClaim id before after → EntryChange id before after (.claim worker spawned) := by
    intro after slot claim
    rcases decided with kept | ⟨rfl, _, preempted, nothing⟩
    · refine .same ?_ claim
      rw [slot, swept, kept]
      exact .refl _
    · exact .swept nothing preempted (slot.trans swept) claim
  rcases before.claim_cases worker spawned with ⟨_, same⟩ | ⟨index, found, same⟩
  · rw [same]
    exact left_alone _ rfl (.of_active rfl)
  · rw [same]
    have calm : ¬before.Pausing worker := by
      intro pausing
      have started := wired.started worker
      rw [idle] at started
      obtain ⟨flags, there, _⟩ := pausing_iff.mp pausing
      simp [there] at started
    have others : ∀ other, other ≠ worker →
        (before.resumePreempted.take worker index spawned).Pausing other → before.Pausing other := by
      intro other different pausing
      simpa [Pausing, different] using pausing
    have taken_calm : ¬(before.resumePreempted.take worker index spawned).Pausing worker := by
      simpa [Pausing] using calm
    by_cases taken : index = id
    · subst taken
      obtain ⟨inUse, pending⟩ := pendingId_eq_some found
      rw [swept] at inUse pending
      refine .taken inUse ?_ ?_ (fun other => ?_) taken_calm others
      · rcases decided with kept | ⟨_, _, preempted, nothing⟩
        · exact .inl (kept ▸ pending)
        · exact .inr ⟨preempted, nothing⟩
      · rw [slots_take, Function.update_self, swept]
      · by_cases here : other = worker
        · subst here
          simp
        · simp [here]
    · refine left_alone _ (by simp [Ne.symm taken]) ⟨fun other => ?_, fun other _ pausing => ?_⟩
      · by_cases here : other = worker
        · subst here
          simp [taken, idle]
        · simp [here]
      · by_cases here : other = worker
        · exact absurd (here ▸ pausing) taken_calm
        · exact .inl (others other here pausing)

/-- **Every step is one of the moves of an entry's life.** -/
theorem step_entry {before after : Shared n} {action : Action n} (id : EntryId)
    (stepped : before.step action = some after) (wired : before.Wired) :
    EntryChange id before after action := by
  have slot_of : ∀ {worker : Fin n} {thread : Thread}, before.threads worker = thread →
      (before.active worker).slot = thread.index := fun thread => by rw [wired.holds, thread]
  cases step_cases stepped with
  | quiet same _ =>
      refine .same (same.slots id)
        ⟨fun worker => by rw [same.held], fun worker holding pausing => ?_⟩
      rcases same.pausing worker pausing with earlier | ⟨index, thread, asked⟩
      · exact .inl earlier
      · rw [slot_of thread] at holding
        cases holding
        exact .inr asked
  | queued queued => exact entry_queue queued
  | @cancelled other applied =>
      obtain ⟨⟨state, slots, decided⟩, _, _, _, same, pausing⟩ := cancel_eq_some applied
      have claim : SameClaim id before after :=
        ⟨fun worker => by rw [(same worker).1], fun worker _ asked => .inl (pausing worker asked)⟩
      by_cases here : other = id
      · subst here
        exact .cancelled state (by rw [slots, Function.update_self]) decided claim
      · refine .same ?_ claim
        rw [slots, Function.update_of_ne (Ne.symm here)]
        exact .refl _
  | @paused other applied =>
      obtain ⟨_, downloading, same⟩ := pause_eq_some applied
      by_cases here : other = id
      · subst here
        exact .paused applied downloading (by simp [same]) (by simp [same])
      · subst same
        refine .same ?_ ⟨by simp, fun worker holding pausing => .inl ?_⟩
        · rw [slots_requestPause, Function.update_of_ne (Ne.symm here)]
          exact .refl _
        · rcases pausing_raiseFor pausing with earlier | holds
          · exact earlier
          · have holds : (before.active worker).slot = some other := holds
            rw [holding] at holds
            exact absurd (Option.some.inj holds).symm here
  | @resumed other spawned applied =>
      obtain ⟨paused, same⟩ := resume_eq_some applied
      have claim : SameClaim id before after := .of_active (by rw [same, active_armWorkers]; rfl)
      by_cases here : other = id
      · subst here
        exact .resumed applied paused (by simp [same]) claim
      · refine .same ?_ claim
        rw [same, slots_armWorkers, slots_updateSlot, Function.update_of_ne (Ne.symm here)]
        exact .refl _
  | @removed other applied =>
      obtain ⟨idle, _, same⟩ := remove_eq_some applied
      have claim : SameClaim id before after := .of_active (by rw [same]; rfl)
      by_cases here : other = id
      · subst here
        exact .removed applied idle (by simp [same]) claim
      · refine .same ?_ claim
        rw [same, slots_updateSlot, Function.update_of_ne (Ne.symm here)]
        exact .refl _
  | stopped thread same => exact .same (same ▸ .refl _) (.of_active (by rw [same]; rfl))
  | @hookPanicked worker thread same =>
      have idle : (before.active worker).slot = none := slot_of thread
      have other : (before.active worker).slot ≠ some id := by simp [idle]
      refine .same ?_ (.of_release other (by rw [same]; simp))
      rw [same, slots_releaseWorker, idle]
      exact .refl _
  | claimed thread same => exact same ▸ entry_claim wired (slot_of thread)
  | @settled worker verdict index thread asked same =>
      subst same
      have holding : (before.active worker).slot = some index := slot_of thread
      by_cases here : index = id
      · subst here
        refine .settled holding asked (by simp [finish]) (holders_of_release rfl)
          (fun other pausing => ?_)
        by_cases released : other = worker
        · subst released
          simp [Pausing, finish] at pausing
        · simpa [Pausing, finish, released] using pausing
      · have other : (before.active worker).slot ≠ some id := by simp [holding, here]
        refine .same ?_ (.of_release other rfl)
        rw [finish, slots_setThread, slots_updateSlot, Function.update_of_ne (Ne.symm here)]
        exact .refl _
  | @settlePanicked worker index thread same =>
      have holding : (before.active worker).slot = some index := slot_of thread
      have active : after.active = Function.update before.active worker {} := by
        rw [same, active_releaseWorker]
      by_cases here : index = id
      · subst here
        refine .settlePanicked holding ?_ (holders_of_release active)
        rw [same, slots_releaseWorker, holding]
        exact Function.update_self ..
      · have other : (before.active worker).slot ≠ some id := by simp [holding, here]
        refine .same ?_ (.of_release other active)
        rw [same, slots_releaseWorker, holding]
        simp only [Function.update_of_ne (Ne.symm here)]
        exact .refl _

/-- A slot stays in use, or free, but for a queue call or its own removal. -/
theorem inUse_step {before after : Shared n} {action : Action n} {id : EntryId}
    (stepped : before.step action = some after) (wired : before.Wired)
    (queues : ∀ request now spawned, action ≠ .queue request now spawned)
    (kept : action ≠ .remove id) : (after.slots id).inUse = (before.slots id).inUse := by
  cases step_entry id stepped wired with
  | same slot => exact slot.inUse
  | queued | preempted => exact absurd rfl (queues _ _ _)
  | removed => exact absurd rfl kept
  | settled holding asked slot => rw [slot, Slot.inUse_settle]
  | settlePanicked holding slot =>
      rw [slot]
      rfl
  | cancelled _ slot | paused _ _ slot | resumed _ _ slot | swept _ _ slot | taken _ _ slot =>
      rw [slot]

/-- A queue call leaves another slot in use or free, with what it has published. -/
theorem queue_elsewhere {before after : Shared n} {request : Request} {now : Int}
    {spawned : Fin n → Bool} {id other : EntryId}
    (queued : before.queue request now spawned = some (after, id)) (elsewhere : other ≠ id) :
    (after.slots other).inUse = (before.slots other).inUse ∧
      (after.slots other).path = (before.slots other).path := by
  obtain ⟨-, same⟩ := queue_eq_some queued
  have kept : (before.enqueue id request now).slots other = before.slots other := by
    simp [enqueue, elsewhere]
  rw [same, slots_armWorkers, slots_yieldTo, kept]
  split <;> exact ⟨rfl, rfl⟩

end Shared

/-! ## What is recorded beside the control fields -/

/-- Two slots agree on the priority and on the published results. -/
structure Slot.SameRecord (before after : Slot) : Prop where
  priority : after.priority = before.priority
  path : after.path = before.path
  failure : after.failure = before.failure

theorem Slot.SameRecord.refl (slot : Slot) : slot.SameRecord slot := ⟨rfl, rfl, rfl⟩

namespace Shared

variable {n : Nat}

theorem record_update {slots : EntryId → Slot} {id other : EntryId} {slot : Slot}
    (same : (slots id).SameRecord slot) :
    (slots other).SameRecord (Function.update slots id slot other) := by
  by_cases here : other = id
  · subst here
    rwa [Function.update_self]
  · rw [Function.update_of_ne here]
    exact .refl _

theorem record_resumePreempted (shared : Shared n) (id : EntryId) :
    (shared.slots id).SameRecord (shared.resumePreempted.slots id) := by
  obtain ⟨state, swept, -⟩ := shared.resumePreempted_slot id
  rw [swept]
  exact ⟨rfl, rfl, rfl⟩

/-- **What is recorded of an entry stays** until the worker that holds it lets go. -/
theorem record_step {before after : Shared n} {action : Action n}
    (stepped : before.step action = some after) (wired : before.Wired) {id : EntryId}
    (inUse : (before.slots id).inUse = true) :
    (before.slots id).SameRecord (after.slots id) ∨
      ∃ worker, (before.active worker).slot = some id ∧
        ((∃ verdict, action = .settle worker verdict ∧ after.slots id =
            (before.slots id).settle verdict.digest verdict.state verdict.failure) ∨
          action = .settlePanics worker ∧ after.slots id =
            { (before.slots id).publishFailure .panicked with state := .failed }) := by
  cases action with
  | queue request now spawned =>
      refine .inl ?_
      cases queued : before.queue request now spawned with
      | none =>
          simp only [step, queued, Option.elim_none, Option.some.injEq] at stepped
          exact stepped ▸ .refl _
      | some result =>
          obtain ⟨made, free⟩ := result
          simp only [step, queued, Option.elim_some, Option.some.injEq] at stepped
          obtain ⟨unused, same⟩ := queue_eq_some queued
          have apart : id ≠ free := by
            rintro rfl
            rw [unused] at inUse
            cases inUse
          have kept : (before.enqueue free request now).slots id = before.slots id := by
            simp [enqueue, apart]
          rw [← stepped, same, slots_armWorkers, slots_yieldTo, kept]
          split <;> exact ⟨rfl, rfl, rfl⟩
  | cancel id' =>
      refine .inl ?_
      rcases applied_or_refused stepped with applied | rfl
      · obtain ⟨⟨state, slots, -⟩, -⟩ := cancel_eq_some applied
        rw [slots]
        exact record_update ⟨rfl, rfl, rfl⟩
      · exact .refl _
  | pause id' =>
      refine .inl ?_
      rcases applied_or_refused stepped with applied | rfl
      · obtain ⟨-, -, same⟩ := pause_eq_some applied
        rw [same, slots_requestPause]
        exact record_update ⟨rfl, rfl, rfl⟩
      · exact .refl _
  | resume id' spawned =>
      refine .inl ?_
      rcases applied_or_refused stepped with applied | rfl
      · obtain ⟨-, same⟩ := resume_eq_some applied
        rw [same, slots_armWorkers]
        exact record_update ⟨rfl, rfl, rfl⟩
      · exact .refl _
  | remove id' =>
      refine .inl ?_
      rcases applied_or_refused stepped with applied | rfl
      · obtain ⟨-, -, same⟩ := remove_eq_some applied
        rw [same]
        exact record_update ⟨rfl, rfl, rfl⟩
      · exact .refl _
  | shutdown | stopTransfers =>
      cases stepped
      exact .inl (.refl _)
  | hookReturns worker | look worker | stop worker =>
      simp only [step, Option.ite_none_right_eq_some, Option.some.injEq] at stepped
      rw [← stepped.2]
      exact .inl (.refl _)
  | hookPanics worker =>
      simp only [step, Option.ite_none_right_eq_some, Option.some.injEq] at stepped
      have idle : (before.active worker).slot = none := by
        rw [wired.holds, stepped.1]
        rfl
      rw [← stepped.2, slots_releaseWorker, idle]
      exact .inl (.refl _)
  | claim worker spawned =>
      simp only [step, Option.ite_none_right_eq_some, Option.some.injEq] at stepped
      rw [← stepped.2]
      refine .inl ?_
      have swept := before.record_resumePreempted id
      rcases before.claim_cases worker spawned with ⟨-, same⟩ | ⟨index, -, same⟩
      · rw [same]
        exact swept
      · rw [same, slots_take]
        have taken : (before.resumePreempted.slots id).SameRecord
            (Function.update before.resumePreempted.slots index
              { before.resumePreempted.slots index with state := .downloading } id) :=
          record_update ⟨rfl, rfl, rfl⟩
        exact ⟨taken.priority.trans swept.priority, taken.path.trans swept.path,
          taken.failure.trans swept.failure⟩
  | install worker =>
      simp only [step, Option.bind_eq_some_iff, Option.ite_none_right_eq_some,
        Option.some.injEq] at stepped
      obtain ⟨_, -, -, rfl⟩ := stepped
      exact .inl (.refl _)
  | requestCancel worker =>
      simp only [step, Option.map_eq_some_iff] at stepped
      obtain ⟨_, -, rfl⟩ := stepped
      exact .inl (.refl _)
  | relayPause worker =>
      simp only [step, Option.map_eq_some_iff] at stepped
      obtain ⟨_, -, rfl⟩ := stepped
      split <;> exact .inl (.refl _)
  | progress worker downloaded total =>
      simp only [step, Option.map_eq_some_iff] at stepped
      obtain ⟨_, -, rfl⟩ := stepped
      exact .inl (record_update ⟨rfl, rfl, rfl⟩)
  | settle worker verdict =>
      simp only [step, Option.bind_eq_some_iff, Option.ite_none_left_eq_some,
        Option.some.injEq] at stepped
      obtain ⟨index, thread, -, rfl⟩ := stepped
      rw [finish, slots_setThread, slots_updateSlot]
      by_cases here : id = index
      · subst here
        refine .inr ⟨worker, (wired.holds worker).trans thread, .inl ⟨verdict, rfl, ?_⟩⟩
        rw [Function.update_self]
        rfl
      · rw [Function.update_of_ne here]
        exact .inl (.refl _)
  | settlePanics worker =>
      simp only [step, Option.map_eq_some_iff] at stepped
      obtain ⟨index, thread, rfl⟩ := stepped
      have holds := (wired.holds worker).trans thread
      rw [slots_releaseWorker, holds]
      by_cases here : id = index
      · subst here
        exact .inr ⟨worker, holds, .inr ⟨rfl, Function.update_self ..⟩⟩
      · simp only [Function.update_of_ne here]
        exact .inl (.refl _)

end Shared

end Retrovert.Queue
