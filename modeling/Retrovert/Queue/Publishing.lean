import Retrovert.Queue.Ownership

/-!
# What a slot publishes and its state

A settle decides the state, the path and the failure of its slot at once. The path goes by
the state that is settled on, with a cancel that was promised taken into account. The
failure goes by the transfer's outcome: one that fails by itself after its cancel was
promised is published as cancelled, with the failure beside it.
-/

set_option autoImplicit false

namespace Retrovert.Queue

open Retrovert.Runs

theorem Slot.path_settle (slot : Slot) (verdict : Verdict) :
    (slot.settle verdict.digest verdict.state verdict.failure).path =
      if slot.cancelRequested = true then slot.path
      else (verdict.digest.map fun digest => Transport.Cache.pathFor digest).or slot.path := by
  by_cases cancelled : slot.cancelRequested = true
  · cases verdict with
    | failed failure =>
        cases failure <;> simp [Slot.settle, Slot.settledState, cancelled, Verdict.failure,
          Slot.publishFailure]
    | _ => simp [Slot.settle, Slot.settledState, cancelled, Verdict.failure]
  · cases verdict with
    | failed failure =>
        cases failure <;> simp [Slot.settle, Slot.settledState, cancelled, Verdict.failure,
          Verdict.state, Verdict.digest, Slot.publishFailure]
    | _ => simp [Slot.settle, Slot.settledState, cancelled, Verdict.failure, Verdict.state,
        Verdict.digest]

theorem Slot.failure_settle (slot : Slot) (verdict : Verdict) :
    (slot.settle verdict.digest verdict.state verdict.failure).failure =
      (verdict.failure.map fun failure => slot.failure.getD failure).or slot.failure := by
  by_cases cancelled : slot.cancelRequested = true
  · cases verdict with
    | failed failure =>
        cases failure <;> simp [Slot.settle, Slot.settledState, cancelled, Verdict.failure,
          Slot.publishFailure]
    | _ => simp [Slot.settle, Slot.settledState, cancelled, Verdict.failure]
  · cases verdict with
    | failed failure =>
        cases failure <;> simp [Slot.settle, Slot.settledState, cancelled, Verdict.failure,
          Verdict.state, Verdict.digest, Slot.publishFailure]
    | _ => simp [Slot.settle, Slot.settledState, cancelled, Verdict.failure, Verdict.state,
        Verdict.digest]

/-- A path is published exactly with completion, and a failure only with a failure. -/
structure Slot.Agrees (slot : Slot) : Prop where
  path : slot.path.isSome = true ↔ slot.state = .complete
  failure : slot.failure.isSome = true → slot.state = .failed

/-- A slot in another state has published nothing. -/
theorem Slot.Agrees.nothing {slot : Slot} (agrees : slot.Agrees)
    (unfinished : slot.state ≠ .complete ∧ slot.state ≠ .failed) :
    slot.path = none ∧ slot.failure = none := by
  refine ⟨?_, ?_⟩
  · rw [← Option.not_isSome_iff_eq_none]
    exact fun published => unfinished.1 (agrees.path.mp published)
  · rw [← Option.not_isSome_iff_eq_none]
    exact fun published => unfinished.2 (agrees.failure published)

theorem Slot.agrees_of_nothing {slot : Slot} (nothing : slot.path = none ∧ slot.failure = none)
    (unfinished : slot.state ≠ .complete) : slot.Agrees := by
  refine ⟨?_, ?_⟩
  · simp [nothing.1, unfinished]
  · simp [nothing.2]

/-- A settle of a slot that has published nothing agrees with itself, unless it publishes a
failure over a promised cancel. -/
theorem Slot.agrees_settle {slot : Slot} (nothing : slot.path = none ∧ slot.failure = none)
    {verdict : Verdict} (kept : slot.cancelRequested = true → verdict.failure = none) :
    (slot.settle verdict.digest verdict.state verdict.failure).Agrees := by
  obtain ⟨path, failure⟩ := nothing
  by_cases cancelled : slot.cancelRequested = true
  · refine Slot.agrees_of_nothing ⟨?_, ?_⟩ ?_
    · rw [Slot.path_settle, if_pos cancelled, path]
    · rw [Slot.failure_settle, kept cancelled, failure]
      rfl
    · rw [Slot.state_settle, if_pos cancelled]
      simp
  · refine ⟨?_, ?_⟩
    · rw [Slot.path_settle, if_neg cancelled, path, Slot.state_settle, if_neg cancelled]
      cases verdict with
      | paused => split <;> simp [Verdict.digest, Verdict.state]
      | _ => simp [Verdict.digest, Verdict.state]
    · rw [Slot.failure_settle, failure, Slot.state_settle, if_neg cancelled]
      cases verdict <;> simp [Verdict.failure, Verdict.state]

namespace Shared

variable {n : Nat}

/-- What a slot in use has published stays, until its transfer settles complete. -/
theorem path_step {before after : Shared n} {action : Action n} {id : EntryId}
    (stepped : before.step action = some after) (wired : before.Wired)
    (inUse : (before.slots id).inUse = true) :
    (after.slots id).path = (before.slots id).path ∨
      ∃ worker verdict, action = .settle worker verdict ∧
        (before.active worker).slot = some id ∧ (after.slots id).state = .complete := by
  rcases record_step stepped wired inUse with
    same | ⟨worker, holding, ⟨verdict, rfl, slot⟩ | ⟨-, slot⟩⟩
  · exact .inl same.path
  · rw [slot, Slot.path_settle, Slot.state_settle]
    by_cases cancelled : (before.slots id).cancelRequested = true
    · rw [if_pos cancelled]
      exact .inl rfl
    · rw [if_neg cancelled, if_neg cancelled]
      cases verdict with
      | complete digest => exact .inr ⟨worker, _, rfl, holding, by simp [Verdict.state]⟩
      | failed | cancelled | paused => exact .inl rfl
  · rw [slot]
    exact .inl rfl

/-- Sweeps resume no held slot, and no transfer fails by itself once its cancel has been
promised. -/
def PublishesOutcome (shared : Shared n) (action : Action n) : Prop :=
  shared.SweepSparesHeld action ∧
    match action with
    | .settle worker verdict =>
        ((shared.active worker).slot.any fun index => (shared.slots index).cancelRequested) = true →
          verdict.failure = none
    | _ => True

instance (shared : Shared n) : (action : Action n) → Decidable (shared.PublishesOutcome action)
  | .settle worker verdict =>
      inferInstanceAs (Decidable (shared.SweepSparesHeld (.settle worker verdict) ∧
        (((shared.active worker).slot.any fun index => (shared.slots index).cancelRequested) =
          true → verdict.failure = none)))
  | .queue request now spawned =>
      inferInstanceAs (Decidable (shared.SweepSparesHeld (.queue request now spawned) ∧ True))
  | .claim worker spawned =>
      inferInstanceAs (Decidable (shared.SweepSparesHeld (.claim worker spawned) ∧ True))
  | .cancel _ | .pause _ | .resume _ _ | .remove _ | .shutdown | .stopTransfers
  | .hookReturns _ | .hookPanics _ | .look _ | .stop _ | .install _ | .requestCancel _
  | .relayPause _ | .progress _ _ _ | .settlePanics _ => inferInstanceAs (Decidable (True ∧ True))

section Step

variable {before after : Shared n} {action : Action n} {id : EntryId}

/-- **What one step does to what a slot publishes.** -/
theorem agrees_step (meets : before.PublishesOutcome action)
    (stepped : before.step action = some after) (wired : before.Wired) (owned : before.Owned id)
    (agrees : (before.slots id).inUse = true → (before.slots id).Agrees)
    (inUse : (after.slots id).inUse = true) : (after.slots id).Agrees := by
  -- A held slot has published nothing yet.
  have nothing : before.Held id → (before.slots id).path = none ∧
      (before.slots id).failure = none := by
    intro held
    obtain ⟨used, running⟩ := owned.held held
    refine (agrees used).nothing ?_
    rcases running with running | running <;> simp [running]
  have settles : ∀ worker verdict, action = .settle worker verdict →
      (before.active worker).slot = some id → after.slots id =
        (before.slots id).settle verdict.digest verdict.state verdict.failure →
      (after.slots id).Agrees := by
    rintro worker verdict rfl holds slot
    rw [slot]
    refine Slot.agrees_settle (nothing ⟨worker, holds⟩) fun cancelled => meets.2 ?_
    simp [holds, cancelled]
  have panics : ∀ worker, (before.active worker).slot = some id → after.slots id =
        { (before.slots id).publishFailure .panicked with state := .failed } →
      (after.slots id).Agrees := by
    intro worker holds slot
    obtain ⟨path, -⟩ := nothing ⟨worker, holds⟩
    rw [slot]
    exact ⟨by simp [Slot.publishFailure, path], fun _ => rfl⟩
  cases step_entry id stepped wired with
  | same slot _ =>
      rw [slot.inUse] at inUse
      rcases record_step stepped wired inUse with
        same | ⟨worker, holds, ⟨verdict, settled, made⟩ | ⟨-, made⟩⟩
      · obtain ⟨path, failure⟩ := agrees inUse
        refine ⟨?_, ?_⟩
        · rw [same.path, slot.state]
          exact path
        · rw [same.failure, slot.state]
          exact failure
      · exact settles worker verdict settled holds made
      · exact panics worker holds made
  | queued _ slot _ =>
      rw [slot]
      exact Slot.agrees_of_nothing ⟨rfl, rfl⟩ (by simp [Request.slot])
  | preempted _ _ downloading slot _ =>
      rw [slot] at inUse ⊢
      exact Slot.agrees_of_nothing ((agrees inUse).nothing (by simp [downloading])) (by simp)
  | cancelled state slot decided _ =>
      rw [slot] at inUse ⊢
      rcases decided with ⟨-, kept⟩ | ⟨cancelled, was⟩
      · rw [kept]
        exact ⟨(agrees inUse).path, (agrees inUse).failure⟩
      · rw [cancelled]
        refine Slot.agrees_of_nothing ((agrees inUse).nothing ?_) (by simp)
        rcases was with was | was | ⟨was, -⟩ <;> simp [was]
  | paused _ _ slot _ =>
      rw [slot] at inUse ⊢
      exact ⟨(agrees inUse).path, (agrees inUse).failure⟩
  | resumed _ was slot _ | swept _ was slot _ =>
      rw [slot] at inUse ⊢
      exact Slot.agrees_of_nothing ((agrees inUse).nothing (by simp [was])) (by simp)
  | removed _ _ slot _ => simp [slot] at inUse
  | taken _ waiting slot _ _ _ =>
      rw [slot] at inUse ⊢
      refine Slot.agrees_of_nothing ((agrees inUse).nothing ?_) (by simp)
      rcases waiting with was | ⟨was, -⟩ <;> simp [was]
  | settled holding _ slot _ _ => exact settles _ _ rfl holding slot
  | settlePanicked holding slot _ => exact panics _ holding slot

/-- An entry has come to its end, and no worker holds it. -/
structure Rests (shared : Shared n) (id : EntryId) : Prop where
  inUse : (shared.slots id).inUse = true
  ended : (shared.slots id).state = .complete ∨ (shared.slots id).state = .failed ∨
    (shared.slots id).state = .cancelled
  idle : ¬shared.Held id

/-- **An entry that has come to its end** stays as it is unless it is removed. -/
theorem rests_step (kept : action ≠ .remove id) (stepped : before.step action = some after)
    (wired : before.Wired) (rests : before.Rests id) :
    after.Rests id ∧ (after.slots id).state = (before.slots id).state ∧
      (after.slots id).path = (before.slots id).path ∧
      (after.slots id).failure = (before.slots id).failure := by
  obtain ⟨inUse, ended, idle⟩ := rests
  have apart : ∀ state, (before.slots id).state = state →
      state = .complete ∨ state = .failed ∨ state = .cancelled := by
    rintro state rfl
    exact ended
  rcases record_step stepped wired inUse with same | ⟨worker, holds, -⟩
  · cases step_entry id stepped wired with
    | same slot claim =>
        refine ⟨⟨slot.inUse.trans inUse, ?_, fun held => idle (claim.held.mp held)⟩, slot.state,
          same.path, same.failure⟩
        rw [slot.state]
        exact ended
    | queued free _ _ =>
        rw [inUse] at free
        cases free
    | preempted _ _ was _ _ | paused _ was _ _ | resumed _ was _ _ | swept _ was _ _ =>
        simpa using apart _ was
    | cancelled state slot decided _ =>
        rcases decided with ⟨held, -⟩ | ⟨-, was | was | ⟨was, -⟩⟩
        · exact absurd held idle
        · simpa using apart _ was
        · simpa using apart _ was
        · simpa using apart _ was
    | removed _ _ _ _ => exact absurd rfl kept
    | taken _ waiting _ _ _ _ =>
        rcases waiting with was | ⟨was, -⟩
        · simpa using apart _ was
        · simpa using apart _ was
    | settled holds _ _ _ _ | settlePanicked holds _ _ => exact absurd ⟨_, holds⟩ idle
  · exact absurd ⟨worker, holds⟩ idle

end Step

/-- **A published result agrees with its state**, in every run whose sweeps resume no held
slot and whose transfers do not fail by themselves once a cancel has been promised. And
whatever happens, an entry that has come to its end and that no worker holds stays as it is
until it is removed. -/
theorem published_results_agree {shared : Shared n} (run : Reaches PublishesOutcome shared)
    (id : EntryId) (inUse : (shared.slots id).inUse = true) :
    (shared.slots id).Agrees ∧
      (shared.Rests id → ∀ later, Moves step (fun _ action => action ≠ .remove id) shared later →
        later.Rests id ∧ (later.slots id).state = (shared.slots id).state ∧
          (later.slots id).path = (shared.slots id).path ∧
          (later.slots id).failure = (shared.slots id).failure) := by
  obtain ⟨wired, -, agrees⟩ := Moves.invariant
    (fun shared : Shared n => shared.Wired ∧ shared.Owned id ∧
      ((shared.slots id).inUse = true → (shared.slots id).Agrees))
    (fun _ _ _ meets stepped held =>
      ⟨wired_step stepped held.1, owned_step meets.1 stepped held.1 held.2.1,
        agrees_step meets stepped held.1 held.2.1 held.2.2⟩)
    run ⟨wired_fresh, owned_fresh id, fun inUse => (nomatch inUse)⟩
  refine ⟨agrees inUse, fun rests later goes => ?_⟩
  refine (Moves.invariant
    (fun later : Shared n => later.Wired ∧ later.Rests id ∧
      (later.slots id).state = (shared.slots id).state ∧
      (later.slots id).path = (shared.slots id).path ∧
      (later.slots id).failure = (shared.slots id).failure)
    (fun before action after kept stepped held => ?_) goes ⟨wired, rests, rfl, rfl, rfl⟩).2
  obtain ⟨wired, rests, state, path, failure⟩ := held
  obtain ⟨still, state', path', failure'⟩ := rests_step kept stepped wired rests
  exact ⟨wired_step stepped wired, still, state'.trans state, path'.trans path,
    failure'.trans failure⟩

/-- A worker takes the first request. -/
def started : List (Action 1) :=
  [.queue (request 0 .user) 0 fun _ => true, .hookReturns 0] ++ looks 0

/-- A transfer completes, and keeps its path when the queue shuts down. -/
theorem published_results_agree_completed : ∃ shared later : Shared 1,
    (shared.slots 0).Agrees ∧ (shared.slots 0).state = .complete ∧
      shared.step .shutdown = some later ∧ (later.slots 0).path = (shared.slots 0).path := by
  obtain ⟨shared, run, checked⟩ := Moves.of_check step PublishesOutcome (fresh 1)
    (started ++ [.settle 0 (.complete (request 0 .user).digest)])
    (fun shared => (shared.slots 0).inUse && (shared.slots 0).state == .complete &&
      !shared.isActive 0)
    (by decide +kernel)
  simp only [Bool.and_eq_true, beq_iff_eq, Bool.not_eq_true'] at checked
  obtain ⟨⟨inUse, complete⟩, free⟩ := checked
  have idle : ¬shared.Held 0 := fun held => by simp [isActive_iff.mpr held] at free
  obtain ⟨agrees, stays⟩ := published_results_agree run 0 inUse
  have shuts : shared.step .shutdown = some shared.shutdown := rfl
  have kept := stays ⟨inUse, .inl complete, idle⟩ _ (.tail (.refl _) (by simp) shuts)
  exact ⟨shared, _, agrees, complete, shuts, kept.2.2.1⟩

/-- A transfer fails by itself after its cancel has been promised. -/
theorem a_cancelled_entry_shows_a_failure :
    ¬∀ (n : Nat) (shared : Shared n), Reaches unguarded shared →
      ∀ id, (shared.slots id).inUse = true → (shared.slots id).Agrees := by
  intro agree
  obtain ⟨shared, run, checked⟩ := Moves.of_check step unguarded (fresh 1)
    (started ++ [.cancel 0, .settle 0 (.failed (some .unreadable))])
    (fun shared => (shared.slots 0).inUse && (shared.slots 0).state == .cancelled &&
      (shared.slots 0).failure.isSome)
    (by decide +kernel)
  simp only [Bool.and_eq_true, beq_iff_eq] at checked
  obtain ⟨⟨inUse, cancelled⟩, published⟩ := checked
  have failed := (agree 1 shared run 0 inUse).failure published
  rw [cancelled] at failed
  cases failed

end Shared

end Retrovert.Queue
