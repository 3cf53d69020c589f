import Retrovert.Queue.EntryView

/-!
# No stranded work

Workers retire by themselves when they find nothing pending, so every operation
that leaves work behind has to see to it that somebody is there to do it. A
queue call and a resume arm the workers themselves. A preempted entry is left to
the sweep of the worker that retires last: if that sweep refuses to resume it,
user-priority work is outstanding, which is either pending, and then the worker
does not retire, or downloading, and then somebody else holds it.
-/

set_option autoImplicit false

namespace Retrovert.Queue

open Retrovert.Runs

namespace Shared

variable {n : Nat}

/-- A step of a queue that is not shutting down, in which every thread that is
spawned starts and no worker unwinds. -/
def Orderly (_ : Shared n) : Action n → Prop
  | .queue _ _ spawned | .resume _ spawned | .claim _ spawned => ∀ worker, spawned worker = true
  | .shutdown | .stopTransfers | .hookPanics _ | .settlePanics _ => False
  | _ => True

instance (shared : Shared n) : (action : Action n) → Decidable (shared.Orderly action)
  | .queue _ _ spawned | .resume _ spawned | .claim _ spawned =>
      inferInstanceAs (Decidable (∀ worker, spawned worker = true))
  | .shutdown | .stopTransfers | .hookPanics _ | .settlePanics _ =>
      inferInstanceAs (Decidable False)
  | .cancel _ | .pause _ | .remove _ | .hookReturns _ | .look _ | .stop _ | .install _
  | .requestCancel _ | .relayPause _ | .progress _ _ _ | .settle _ _ =>
      inferInstanceAs (Decidable True)

/-! ## A downloading entry is held -/

/-- An entry in use that reads downloading is held by some worker. -/
def Attended (id : EntryId) (shared : Shared n) : Prop :=
  (shared.slots id).inUse = true → (shared.slots id).state = .downloading → shared.Held id

theorem attended_step {before after : Shared n} {action : Action n} {id : EntryId}
    (stepped : before.step action = some after) (wired : before.Wired)
    (attended : before.Attended id) : after.Attended id := by
  intro inUse state
  cases step_entry id stepped wired with
  | same slot claim =>
      rw [slot.inUse] at inUse
      rw [slot.state] at state
      exact claim.held.mpr (attended inUse state)
  | queued _ slot _ => simp [slot, Request.slot] at state
  | preempted _ _ _ slot _ => simp [slot] at state
  | cancelled kept slot decided claim =>
      rcases decided with ⟨held, _⟩ | ⟨rfl, _⟩
      · exact claim.held.mpr held
      · simp [slot] at state
  | paused _ downloading slot holders =>
      rw [slot] at inUse
      exact (held_congr holders).mpr (attended inUse downloading)
  | resumed _ _ slot _ => simp [slot] at state
  | removed _ _ slot _ => simp [slot] at inUse
  | swept _ _ slot _ => simp [slot] at state
  | taken _ _ _ holders _ _ => exact ⟨_, (holders _).mpr (.inl rfl)⟩
  | settled _ _ slot _ _ =>
      rw [slot] at state
      exact absurd state (Slot.state_settle_ne_downloading _ _)
  | settlePanicked _ slot _ => simp [slot] at state

/-! ## A running queue stays running -/

/-- The queue is running, and no worker is on its way out. -/
structure Running (shared : Shared n) : Prop where
  running : shared.running = true
  working : ∀ worker, shared.threads worker ≠ .stopping

theorem Running.of_frame {before after : Shared n} (running : before.Running)
    (same : after.running = before.running)
    (threads : ∀ worker, after.threads worker = before.threads worker ∨
      after.threads worker ≠ .stopping) : after.Running where
  running := same.trans running.running
  working worker := by
    rcases threads worker with kept | moved
    · rw [kept]
      exact running.working worker
    · exact moved

/-- Arming workers sends nobody on the way out. -/
theorem threads_armWorkers_ne_stopping (shared : Shared n) (spawned : Fin n → Bool)
    (worker : Fin n) : (shared.armWorkers spawned).threads worker = shared.threads worker ∨
      (shared.armWorkers spawned).threads worker ≠ .stopping := by
  rcases armWorkers_worker spawned shared worker with same | new
  · exact .inl same.2
  · exact .inr (by simp [new.2.2])

theorem running_step {before after : Shared n} {action : Action n}
    (meets : before.Orderly action) (stepped : before.step action = some after)
    (running : before.Running) : after.Running := by
  cases step_cases stepped with
  | quiet same kept =>
      have kept : after.running = before.running := by
        rcases kept with rfl | kept
        · exact meets.elim
        · exact kept
      refine ⟨kept.trans running.running, fun worker stopping => ?_⟩
      rcases same.stopping worker stopping with before_stopping | shut
      · exact running.working worker before_stopping
      · rw [running.running] at shut
        cases shut
  | @queued request now spawned id queued =>
      obtain ⟨_, rfl⟩ := queue_eq_some queued
      refine running.of_frame (by simp [enqueue]) (fun worker => ?_)
      have armed := threads_armWorkers_ne_stopping
        ((before.enqueue id request now).yieldTo request.priority) spawned worker
      rw [threads_yieldTo] at armed
      exact armed
  | cancelled applied =>
      obtain ⟨_, _, threads, same, _⟩ := cancel_eq_some applied
      exact running.of_frame same (fun worker => .inl (by rw [threads]))
  | paused applied =>
      obtain ⟨_, _, rfl⟩ := pause_eq_some applied
      exact running.of_frame (by simp) (fun worker => .inl (by simp))
  | resumed applied =>
      obtain ⟨_, rfl⟩ := resume_eq_some applied
      exact running.of_frame (by simp) (fun worker => threads_armWorkers_ne_stopping _ _ worker)
  | removed applied =>
      obtain ⟨_, _, rfl⟩ := remove_eq_some applied
      exact running.of_frame rfl (fun _ => .inl rfl)
  | stopped thread _ => exact absurd thread (running.working _)
  | hookPanicked _ _ => exact meets.elim
  | @claimed worker spawned _ same =>
      subst same
      rcases before.claim_cases worker spawned with ⟨_, same⟩ | ⟨index, _, same⟩
      · rw [same]
        refine running.of_frame rfl (fun other => ?_)
        by_cases here : other = worker
        · exact .inr (by simp [retire, here])
        · exact .inl (by simp [retire, here])
      · rw [same]
        refine running.of_frame (by simp) (fun other => ?_)
        by_cases here : other = worker
        · exact .inr (by simp [here])
        · rcases before.resumePreempted.take_worker worker index spawned here with kept | new
          · exact .inl kept.2
          · exact .inr (by simp [new.2.2])
  | @settled worker verdict index _ _ same =>
      subst same
      refine running.of_frame rfl (fun other => ?_)
      by_cases here : other = worker
      · exact .inr (by simp [finish, here])
      · exact .inl (by simp [finish, here])
  | settlePanicked _ _ => exact meets.elim

/-! ## Retired workers leave nothing behind -/

/-- Once no worker is armed, no entry in use waits for one. -/
def Drained (shared : Shared n) : Prop :=
  (∀ worker, shared.armed worker = false) → ∀ id, (shared.slots id).inUse = true →
    (shared.slots id).state ≠ .pending ∧ (shared.slots id).state ≠ .preempted

/-- Where some worker is armed there is nothing to show. -/
theorem Drained.of_armed {shared : Shared n} {worker : Fin n}
    (armed : shared.armed worker = true) : shared.Drained := by
  intro retired
  rw [retired worker] at armed
  cases armed

/-- A step that disarms nobody, and makes no entry wait. -/
theorem Drained.of_frame {before after : Shared n} (drained : before.Drained)
    (armed : ∀ worker, before.armed worker = true → after.armed worker = true)
    (waits : ∀ id, (after.slots id).inUse = true →
      (after.slots id).state = .pending ∨ (after.slots id).state = .preempted →
      (before.slots id).inUse = true ∧ (after.slots id).state = (before.slots id).state) :
    after.Drained := by
  intro retired id inUse
  have nothing := drained (fun worker => by
    rw [← Bool.not_eq_true]
    exact fun still => by simpa [retired worker] using armed worker still) id
  constructor <;> intro waiting
  · obtain ⟨inUse, same⟩ := waits id inUse (.inl waiting)
    exact (nothing inUse).1 (same ▸ waiting)
  · obtain ⟨inUse, same⟩ := waits id inUse (.inr waiting)
    exact (nothing inUse).2 (same ▸ waiting)

/-- **The last worker to retire leaves nothing behind.** -/
theorem drained_retire {shared : Shared n} {worker : Fin n} (wired : shared.Wired)
    (attended : ∀ id, shared.Attended id) (thread : shared.threads worker = .claiming)
    (nothing : shared.resumePreempted.pendingId = none) :
    (shared.resumePreempted.retire worker).Drained := by
  intro retired id inUse
  have idle := pendingId_eq_none nothing
  refine ⟨fun pending => idle id ⟨inUse, pending⟩, fun preempted => ?_⟩
  -- A sweep that leaves an entry preempted found user work outstanding.
  have busy : shared.UserWorkOutstanding := by
    by_contra quiet
    have swept : shared.resumePreempted.slots id = (shared.slots id).resumed := by
      rw [slots_resumePreempted, if_neg quiet]
    have preempted : (shared.slots id).resumed.state = .preempted := swept ▸ preempted
    have inUse : (shared.slots id).resumed.inUse = true := swept ▸ inUse
    unfold Slot.resumed at preempted inUse
    split at preempted
    · cases preempted
    · rename_i refused
      rw [if_neg refused] at inUse
      exact refused ⟨inUse, preempted⟩
  have unswept : ∀ other, shared.resumePreempted.slots other = shared.slots other := fun other => by
    rw [slots_resumePreempted, if_pos busy]
  obtain ⟨user, outstanding⟩ := busy
  simp only [isUserWorkOutstanding, Slot.snapshot, Bool.and_eq_true, Bool.or_eq_true,
    beq_iff_eq] at outstanding
  obtain ⟨⟨inUse, _⟩, pending | downloading⟩ := outstanding
  · exact idle user (by rw [unswept]; exact ⟨inUse, pending⟩)
  · -- Somebody else is at work on it, and still armed.
    obtain ⟨other, held⟩ := attended user inUse downloading
    have different : other ≠ worker := by
      rintro rfl
      rw [wired.holds, thread] at held
      cases held
    have gone := retired other
    rw [retire, armed_setThread, armed_setArmed, Function.update_of_ne different,
      armed_resumePreempted, ← Bool.not_eq_true, wired.armed] at gone
    rw [wired.holds, not_not.mp gone] at held
    cases held

theorem drained_step {before after : Shared n} {action : Action n} (some_worker : 0 < n)
    (meets : before.Orderly action) (stepped : before.step action = some after)
    (wired : before.Wired) (running : before.Running) (attended : ∀ id, before.Attended id)
    (drained : before.Drained) : after.Drained := by
  cases step_cases stepped with
  | quiet same _ =>
      refine drained.of_frame (fun _ armed => by rwa [same.armed]) (fun id inUse _ => ?_)
      rw [(same.slots id).inUse] at inUse
      exact ⟨inUse, (same.slots id).state⟩
  | @queued request now spawned id queued =>
      obtain ⟨_, rfl⟩ := queue_eq_some queued
      have all : spawned = fun _ => true := funext meets
      subst all
      have waits : (((before.enqueue id request now).yieldTo request.priority).slots id).inUse =
            true ∧
          (((before.enqueue id request now).yieldTo request.priority).slots id).state =
            .pending := by
        rw [← slots_armWorkers, (queue_slot queued).1]
        exact ⟨rfl, rfl⟩
      exact .of_armed (armWorkers_arms (by simpa [enqueue] using running.running) waits
        ⟨0, some_worker⟩)
  | @cancelled id applied =>
      obtain ⟨⟨state, slots, decided⟩, armed, _, _, _, _⟩ := cancel_eq_some applied
      refine drained.of_frame (fun _ still => by rwa [armed]) (fun other inUse waiting => ?_)
      rw [slots] at inUse waiting ⊢
      by_cases here : other = id
      · subst here
        rw [Function.update_self] at inUse waiting ⊢
        rcases decided with ⟨_, kept⟩ | ⟨rfl, _⟩
        · exact ⟨inUse, kept⟩
        · simp at waiting
      · rw [Function.update_of_ne here] at inUse ⊢
        exact ⟨inUse, rfl⟩
  | @paused id applied =>
      obtain ⟨_, _, rfl⟩ := pause_eq_some applied
      refine drained.of_frame (fun _ armed => by simpa using armed) (fun other inUse _ => ?_)
      rw [slots_requestPause] at inUse ⊢
      by_cases here : other = id
      · subst here
        simpa using inUse
      · simpa [here] using inUse
  | @resumed id spawned applied =>
      obtain ⟨_, rfl⟩ := resume_eq_some applied
      have all : spawned = fun _ => true := funext meets
      subst all
      by_cases used : (before.slots id).inUse = true
      · have waits : ((before.updateSlot id fun slot => { slot with state := .pending }).slots
              id).inUse = true ∧
            ((before.updateSlot id fun slot => { slot with state := .pending }).slots
              id).state = .pending := by
          simpa using used
        exact .of_armed (armWorkers_arms (by simpa using running.running) waits ⟨0, some_worker⟩)
      · -- Resuming a slot that is not in use wakes nobody, and leaves nothing to do.
        refine drained.of_frame (fun _ armed => armed_armWorkers (by simpa using armed))
          (fun other inUse _ => ?_)
        rw [slots_armWorkers, slots_updateSlot] at inUse ⊢
        by_cases here : other = id
        · subst here
          rw [Function.update_self] at inUse
          exact absurd inUse used
        · rw [Function.update_of_ne here] at inUse ⊢
          exact ⟨inUse, rfl⟩
  | @removed id applied =>
      obtain ⟨_, _, rfl⟩ := remove_eq_some applied
      refine drained.of_frame (fun _ armed => armed) (fun other inUse _ => ?_)
      rw [slots_updateSlot] at inUse ⊢
      by_cases here : other = id
      · subst here
        simp at inUse
      · rw [Function.update_of_ne here] at inUse ⊢
        exact ⟨inUse, rfl⟩
  | stopped thread _ => exact absurd thread (running.working _)
  | hookPanicked _ _ => exact meets.elim
  | @claimed worker spawned thread same =>
      subst same
      have armed : before.armed worker = true := (wired.armed worker).mpr (by simp [thread])
      rcases before.claim_cases worker spawned with ⟨nothing, same⟩ | ⟨index, _, same⟩
      · exact same ▸ drained_retire wired attended thread nothing
      · exact same ▸ .of_armed (armed_take (by simpa using armed))
  | @settled worker verdict index thread _ same =>
      subst same
      have armed : before.armed worker = true := (wired.armed worker).mpr (by simp [thread])
      exact .of_armed (show (before.finish worker index verdict.digest verdict.state
        verdict.failure).armed worker = true from armed)
  | settlePanicked _ _ => exact meets.elim

/-- What every orderly run keeps. -/
structure Draining (shared : Shared n) : Prop where
  wired : shared.Wired
  running : shared.Running
  attended : ∀ id, shared.Attended id
  drained : shared.Drained

theorem Reaches.draining (some_worker : 0 < n) {shared : Shared n}
    (run : Reaches Orderly shared) : shared.Draining :=
  Moves.invariant _
    (fun _ _ _ meets stepped held =>
      ⟨wired_step stepped held.wired, running_step meets stepped held.running,
        fun id => attended_step stepped held.wired (held.attended id),
        drained_step some_worker meets stepped held.wired held.running held.attended held.drained⟩)
    run
    ⟨wired_fresh, ⟨rfl, fun _ => by simp [fresh]⟩, fun _ inUse => by simp [fresh] at inUse,
      fun _ _ inUse => by simp [fresh] at inUse⟩

/-- **No work is stranded.** Whenever every worker of an orderly run has retired,
no entry in use is pending and none is preempted. -/
theorem no_work_is_stranded (some_worker : 0 < n) {shared : Shared n}
    (run : Reaches Orderly shared) (retired : ∀ worker, shared.threads worker = .gone)
    (id : EntryId) (inUse : (shared.slots id).inUse = true) :
    (shared.slots id).state ≠ .pending ∧ (shared.slots id).state ≠ .preempted := by
  have kept := run.draining some_worker
  refine kept.drained (fun worker => ?_) id inUse
  rw [← Bool.not_eq_true, kept.wired.armed worker, retired worker]
  simp

/-- A worker that has nothing left to do, after a preempted transfer was resumed
and arrived. -/
theorem no_work_is_stranded_resumed : ∃ shared : Shared 1,
    (shared.slots 0).inUse = true ∧ (∀ worker, shared.threads worker = .gone) ∧
      (shared.slots 0).state ≠ .pending ∧ (shared.slots 0).state ≠ .preempted := by
  obtain ⟨shared, run, there⟩ := Moves.of_check step Orderly (fresh 1)
      [.queue ⟨['u'], ⟨Vector.replicate 32 0⟩, none, .background⟩ 0 fun _ => true, .hookReturns 0,
        .look 0, .claim 0 fun _ => true, .install 0,
        .queue ⟨['u'], ⟨Vector.replicate 32 1⟩, none, .user⟩ 1 fun _ => true,
        .settle 0 .paused, .look 0, .claim 0 fun _ => true,
        .settle 0 (.complete ⟨Vector.replicate 32 1⟩), .look 0, .claim 0 fun _ => true,
        .settle 0 (.complete ⟨Vector.replicate 32 0⟩), .look 0, .claim 0 fun _ => true]
    (fun shared => (shared.slots 0).inUse && shared.threads 0 == .gone)
    (by decide +kernel)
  simp only [Bool.and_eq_true, beq_iff_eq] at there
  have gone : ∀ worker, shared.threads worker = .gone := fun worker => by
    rw [Subsingleton.elim worker 0]
    exact there.2
  exact ⟨shared, there.1, gone, no_work_is_stranded (by decide) run gone 0 there.1⟩

end Shared

end Retrovert.Queue
