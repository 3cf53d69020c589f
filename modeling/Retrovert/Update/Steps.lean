import Retrovert.Update.Jobs

/-!
# What one step of a job does

The body of a job keeps to its thread. It may set the phase to applying, and it queues
transfers, of which it has no more to queue once its plan is covered or given up.
-/

set_option autoImplicit false

namespace Retrovert.Update

open Retrovert.Transport (ArtifactDigest)
open Retrovert.Queue (EntryId Priority Request System)
open Retrovert.Apply (Plan)

namespace Updater

variable {m n : Nat}

/-- What one step of the body of a job does: it keeps to its thread, leaves the phase or sets
it to applying, and queues a transfer only while it may. -/
structure Continues (config : Config) (before after : Updater m n) (thread : Nat)
    (stage : Stage) : Prop where
  callers : after.callers = before.callers
  jobLock : after.jobLock = before.jobLock
  handle : after.handle = before.handle
  next : after.next = before.next
  dropping : after.dropping = before.dropping
  threads : ∃ later, after.threads = Function.update before.threads thread (.running later) ∧
    (later.mayQueue config.autoApply = true → stage.mayQueue config.autoApply = true)
  phase : after.status.phase = before.status.phase ∨ after.status.phase = .applying
  count : after.count = before.count ∨ stage.mayQueue config.autoApply = true
  numbered : (∀ id, before.entries id < before.count) → ∀ id, after.entries id < after.count

variable {config : Config} {updater after : Updater m n} {thread : Nat} {stage : Stage}

variable (updater) in
theorem enqueue_numbered (request : Request) (nowMs : Int) (spawned : Fin n → Bool)
    (numbered : ∀ id, updater.entries id < updater.count) (id : EntryId) :
    (updater.enqueue request nowMs spawned).1.entries id <
      (updater.enqueue request nowMs spawned).1.count := by
  rw [enqueue]
  split
  · exact numbered id
  · rename_i taken _
    by_cases same : id = taken
    · subst same
      simp
    · simp only [Function.update_of_ne same]
      exact Nat.lt_succ_of_lt (numbered id)

variable (updater) in
theorem enqueue_keeps (request : Request) (nowMs : Int) (spawned : Fin n → Bool) :
    ∃ system entries count, (updater.enqueue request nowMs spawned).1 =
      { updater with system, entries, count } := by
  rw [enqueue]
  split
  · exact ⟨_, _, _, rfl⟩
  · exact ⟨_, _, _, rfl⟩

/-- A step that leaves everything to the thread's stage, the cache and the slots. -/
theorem Continues.goes (system : System n) {later : Stage}
    (mayQueue : later.mayQueue config.autoApply = true → stage.mayQueue config.autoApply = true) :
    Continues config updater ({ updater with system }.goesTo thread later) thread stage :=
  ⟨rfl, rfl, rfl, rfl, rfl, ⟨later, rfl, mayQueue⟩, .inl rfl, .inl rfl, id⟩

theorem fill_continues (plan : Plan) (priority : Priority) (active : Acquisition) (next : Nat)
    (nowMs : Int) (spawned : Fin n → Bool) :
    Continues config updater (updater.fill config thread plan priority active next nowMs spawned)
      thread (.filling plan priority active next) := by
  rw [fill]
  split
  · exact .goes updater.system id
  · rename_i artifact found
    have more : next < plan.artifacts.length := (List.getElem?_eq_some_iff.mp found).1
    split
    · exact .goes updater.system nofun
    · rename_i request _
      have keeps := enqueue_keeps updater request nowMs spawned
      have numbers := enqueue_numbered updater request nowMs spawned
      generalize updater.enqueue request nowMs spawned = queued at keeps numbers
      obtain ⟨queued, taken⟩ := queued
      obtain ⟨system, entries, count, rfl⟩ := keeps
      cases taken with
      | none =>
          exact ⟨rfl, rfl, rfl, rfl, rfl, ⟨_, rfl, id⟩, .inl rfl,
            .inr (by simp [Stage.mayQueue, more]), numbers⟩
      | some id =>
          exact ⟨rfl, rfl, rfl, rfl, rfl, ⟨_, rfl, fun _ => by simp [Stage.mayQueue, more]⟩, .inl rfl,
            .inr (by simp [Stage.mayQueue, more]), numbers⟩

theorem sweep_continues {plan : Plan} {priority : Priority} {active : Acquisition}
    {next cursor : Nat} {answer : Answer n}
    (stepped : updater.sweep thread plan priority active next cursor answer = some after) :
    Continues config updater after thread (.sweeping plan priority active next cursor) := by
  simp only [sweep] at stepped
  split at stepped
  · split at stepped
    · cases stepped
      exact .goes updater.system id
    · cases stepped
      exact .goes updater.system nofun
  · split at stepped
    · split at stepped
      · cases stepped
        exact .goes updater.system id
      · cases stepped
        exact .goes _ nofun
      · cases stepped
    all_goals
      cases stepped
      first
        | exact .goes updater.system id
        | exact .goes updater.system nofun

theorem release_continues (at_work : updater.threads thread = .running stage) (plan : Plan)
    (failed : Option Apply.Error) (cancels frees : List EntryId)
    (releases : stage = .releasing plan failed cancels frees) :
    Continues config updater (updater.release thread plan failed cancels frees) thread stage := by
  cases cancels with
  | cons id cancels => exact .goes _ nofun
  | nil =>
      cases frees with
      | cons id frees =>
          simp only [release]
          split
          · exact .goes _ nofun
          · refine ⟨rfl, rfl, rfl, rfl, rfl, ⟨stage, ?_, fun more => more⟩, .inl rfl, .inl rfl,
              fun numbered => numbered⟩
            rw [← at_work, Function.update_eq_self]
      | nil =>
          cases failed with
          | some error => exact .goes updater.system nofun
          | none => exact .goes updater.system nofun

/-- **What one step of a job does.** -/
theorem advance_continues {answer : Answer n} (at_work : updater.threads thread = .running stage)
    (stepped : updater.advance config thread stage answer = some after) :
    Continues config updater after thread stage := by
  rw [advance.eq_def] at stepped
  split at stepped
  case h_1 =>
    cases stepped
    exact .goes updater.system id
  case h_2 =>
    cases stepped
    exact .goes updater.system id
  case h_3 priority installed outcome lastCheck =>
    cases stepped
    refine .goes updater.system fun more => ?_
    simp only [Stage.mayQueue] at more ⊢
    split at more
    · exact (Bool.and_eq_true_iff.mp more).1
    · cases more
  case h_4 priority outcome lastCheck =>
    cases stepped
    exact ⟨rfl, rfl, rfl, rfl, rfl, ⟨_, rfl, id⟩, .inl (Status.phase_checked _ _ _), .inl rfl, id⟩
  case h_5 =>
    cases stepped
    exact ⟨rfl, rfl, rfl, rfl, rfl, ⟨_, rfl, id⟩, .inl rfl, .inl rfl, id⟩
  case h_6 priority outcome =>
    split at stepped
    · rename_i plan auto
      cases stepped
      refine .goes updater.system fun more => ?_
      simp only [Stage.mayQueue, auto, Bool.true_and] at more ⊢
      exact more
    · cases stepped
      exact .goes updater.system nofun
  case h_7 =>
    cases stepped
    exact ⟨rfl, rfl, rfl, rfl, rfl, ⟨_, rfl, id⟩, .inr rfl, .inl rfl, id⟩
  case h_8 plan priority result =>
    split at stepped
    · cases stepped
      exact .goes updater.system nofun
    · cases stepped
      exact .goes updater.system nofun
    · cases stepped
      refine .goes updater.system fun more => ?_
      simp only [Stage.mayQueue, decide_eq_true_eq] at more
      simpa [Stage.mayQueue, List.length_pos_iff] using more
  case h_9 =>
    cases stepped
    exact fill_continues _ _ _ _ _ _
  case h_10 => exact sweep_continues stepped
  case h_11 =>
    cases stepped
    exact .goes _ id
  case h_12 =>
    cases stepped
    exact release_continues at_work _ _ _ _ rfl
  case h_13 =>
    cases stepped
    exact .goes updater.system nofun
  case h_14 plan result =>
    cases stepped
    exact ⟨rfl, rfl, rfl, rfl, rfl, ⟨_, rfl, nofun⟩, .inl (Status.phase_applied _ _ _), .inl rfl,
      id⟩
  case h_15 => cases stepped

variable (config) in
/-- A body that unwinds has nothing more to queue. -/
theorem unwind_continues (stepped : updater.unwind thread stage = some after) :
    Continues config updater after thread stage := by
  rw [unwind.eq_def] at stepped
  split at stepped
  all_goals first
    | cases stepped; done
    | cases stepped
      exact .goes updater.system nofun

/-- A step of the queue leaves everything else as it is. It takes a new entry from outside only
before the drop. -/
theorem queueStep_cases {sha256 : Bytes → ArtifactDigest} {step : Queue.Step n}
    (stepped : updater.queueStep sha256 step = some after) :
    (∃ system, after = { updater with system }) ∨
      (updater.dropping = .alive ∧ ∃ request nowMs spawned,
        after = (updater.enqueue request nowMs spawned).1) := by
  have keeps : ∀ {after : Updater m n}, ((updater.system.step sha256 step).map fun system =>
      { updater with system }) = some after → ∃ system, after = { updater with system } := by
    intro after stepped
    obtain ⟨system, -, rfl⟩ := Option.map_eq_some_iff.mp stepped
    exact ⟨system, rfl⟩
  rw [queueStep.eq_def] at stepped
  simp only at stepped
  split at stepped
  · split at stepped
    · rename_i alive
      cases stepped
      exact .inr ⟨alive, _, _, _, rfl⟩
    · cases stepped
  case h_8 => exact .inl (keeps stepped)
  all_goals
    split at stepped
    · exact .inl (keeps stepped)
    · cases stepped

end Updater

end Retrovert.Update
