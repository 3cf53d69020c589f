import Retrovert.Queue.Ownership

/-!
# Pauses and preemptions

A caller's pause and a preemption stop a transfer through the same flag. They
differ in the state the entry reads while it stops, and in who may run it again:
a paused entry waits for a resume, a preempted one for the sweep.

The two are confused when one overtakes the other: a user request may preempt a
transfer whose pause was already requested, which then reads preempted when it
settles, and is swept back to pending (`a_paused_entry_runs_again`). It is
enough that no queue call does that, and that no sweep resumes an entry that a
worker still holds (`pauses_and_preemptions_stay_apart`).
-/

set_option autoImplicit false

namespace Retrovert.Queue

open Retrovert.Runs

namespace Shared

variable {n : Nat}

/-- A queue call preempts only a transfer whose pause nobody requested, and a
sweep resumes no held slot. -/
def PausesApart (shared : Shared n) : Action n → Prop
  | .queue request now _ => ∀ free, shared.freeSlot = some free → ∀ target,
      (shared.enqueue free request now).yieldId request.priority = some target →
        (shared.slots target).pauseRequested = false
  | action => shared.SweepSparesHeld action

instance (shared : Shared n) : (action : Action n) → Decidable (shared.PausesApart action)
  | .queue request now _ => inferInstanceAs (Decidable (∀ free, shared.freeSlot = some free →
      ∀ target, (shared.enqueue free request now).yieldId request.priority = some target →
        (shared.slots target).pauseRequested = false))
  | .claim worker spawned =>
      inferInstanceAs (Decidable (shared.SweepSparesHeld (.claim worker spawned)))
  | .cancel _ | .pause _ | .resume _ _ | .remove _ | .shutdown | .stopTransfers
  | .hookReturns _ | .hookPanics _ | .look _ | .stop _ | .install _ | .requestCancel _
  | .relayPause _ | .progress _ _ _ | .settle _ _ | .settlePanics _ =>
      inferInstanceAs (Decidable True)

/-- A step in which no resume acts on the entry, and its slot is not freed. -/
def NotResumed (id : EntryId) (shared : Shared n) : Action n → Prop
  | .resume resumed spawned => resumed = id → shared.resume id spawned = none
  | .remove freed => freed = id → shared.remove id = none
  | _ => True

/-- A step in which no pause acts on the entry, and its slot is not freed. -/
def NotPaused (id : EntryId) (shared : Shared n) : Action n → Prop
  | .pause paused => paused = id → shared.pause id = none
  | .remove freed => freed = id → shared.remove id = none
  | _ => True

/-- A pause that applied lasts: once the run it stops has ended, and not by
completing, failing or being cancelled, no worker holds the entry again before
it is resumed or its slot is freed. -/
def PausesLast (n : Nat) (guard : Shared n → Action n → Prop) : Prop :=
  ∀ (id : EntryId) (shared paused stopped after : Shared n), Reaches guard shared →
    shared.pause id = some paused →
    Moves step (fun state action => guard state action ∧ state.NotResumed id action)
      paused stopped →
    ¬stopped.Held id → (stopped.slots id).state ≠ .complete →
    (stopped.slots id).state ≠ .failed → (stopped.slots id).state ≠ .cancelled →
    Moves step (fun state action => guard state action ∧ state.NotResumed id action)
      stopped after →
    ¬after.Held id

/-- An entry that no pause acted on since it was queued never rests paused. -/
def OnlyPausesPause (n : Nat) (guard : Shared n → Action n → Prop) : Prop :=
  ∀ (id : EntryId) (shared queued after : Shared n) (request : Request) (now : Int)
    (spawned : Fin n → Bool), Reaches guard shared →
    shared.queue request now spawned = some (queued, id) →
    Moves step (fun state action => guard state action ∧ state.NotPaused id action)
      queued after →
    ¬after.Held id → (after.slots id).state ≠ .paused

theorem PausesApart.sweepSparesHeld {shared : Shared n} {action : Action n}
    (meets : shared.PausesApart action) : shared.SweepSparesHeld action := by
  cases action with
  | claim => exact meets
  | _ => trivial

/-! ## A pause that was asked for -/

/-- The entry's pause is down: its run is still going, unpreempted, or it has
stopped for good. -/
structure Stopping (id : EntryId) (shared : Shared n) : Prop where
  inUse : (shared.slots id).inUse = true
  going : shared.Held id → (shared.slots id).pauseRequested = true ∧
    (shared.slots id).state = .downloading
  stopped : ¬shared.Held id → (shared.slots id).state ∈ [.paused, .complete, .failed, .cancelled]

/-- A stopped entry waits for nobody. -/
theorem Stopping.held_of {id : EntryId} {shared : Shared n} (stopping : shared.Stopping id)
    (state : (shared.slots id).state ∉ [.paused, .complete, .failed, .cancelled]) :
    shared.Held id := by
  by_contra idle
  exact state (stopping.stopped idle)

theorem stopping_of_pause {shared after : Shared n} {id : EntryId} (wired : shared.Wired)
    (paused : shared.pause id = some after) : after.Stopping id := by
  obtain ⟨held, downloading, rfl⟩ := pause_eq_some paused
  have still : (shared.requestPause id).Held id := (held_congr (by simp)).mpr held
  refine ⟨?_, fun _ => ?_, fun idle => absurd still idle⟩
  · simpa using wired.inUse id held
  · simpa using downloading

/-- **What one step does to a pause that was asked for.** An entry it has
stopped gets no new holder. -/
theorem stopping_step {before after : Shared n} {action : Action n} {id : EntryId}
    (meets : before.PausesApart action) (untouched : before.NotResumed id action)
    (stepped : before.step action = some after) (wired : before.Wired) (owned : before.Owned id)
    (stopping : before.Stopping id) : after.Stopping id ∧ (after.Held id → before.Held id) := by
  -- Every move but a claim and a settle keeps the holders.
  have of_holders : (∀ worker, (after.active worker).slot = some id ↔
        (before.active worker).slot = some id) →
      (after.slots id).inUse = (before.slots id).inUse →
      (before.Held id → (after.slots id).pauseRequested = true ∧
        (after.slots id).state = .downloading) →
      (¬before.Held id →
        (after.slots id).state ∈ [.paused, .complete, .failed, .cancelled]) →
      after.Stopping id ∧ (after.Held id → before.Held id) := by
    intro holders inUse going stopped
    have held := held_congr holders
    exact ⟨⟨inUse.trans stopping.inUse, fun holding => going (held.mp holding),
      fun idle => stopped (mt held.mpr idle)⟩, held.mp⟩
  cases step_entry id stepped wired with
  | same slot claim =>
      refine of_holders claim.holders slot.inUse (fun held => ?_) (fun idle => ?_)
      · rw [slot.pauseRequested, slot.state]
        exact stopping.going held
      · rw [slot.state]
        exact stopping.stopped idle
  | queued free _ _ =>
      rw [stopping.inUse] at free
      cases free
  | preempted found target downloading _ _ =>
      have held := stopping.held_of (by simp [downloading])
      have refused := meets _ found id target
      rw [(stopping.going held).1] at refused
      cases refused
  | cancelled state slot decided claim =>
      refine of_holders claim.holders (by rw [slot]) (fun held => ?_) (fun idle => ?_)
      · obtain ⟨asked, downloading⟩ := stopping.going held
        rcases decided with ⟨_, kept⟩ | ⟨_, stopped⟩
        · rw [slot]
          exact ⟨asked, kept.trans downloading⟩
        · simp [downloading] at stopped
      · rcases decided with ⟨held, _⟩ | ⟨rfl, _⟩
        · exact absurd held idle
        · simp [slot]
  | paused _ downloading slot holders =>
      refine of_holders holders (by rw [slot]) (fun _ => by rw [slot]; exact ⟨rfl, downloading⟩)
        (fun idle => ?_)
      rw [slot]
      exact stopping.stopped idle
  | resumed applied _ _ _ =>
      rw [untouched rfl] at applied
      cases applied
  | removed applied _ _ _ =>
      rw [untouched rfl] at applied
      cases applied
  | swept _ preempted _ _ =>
      have going := stopping.going (stopping.held_of (by simp [preempted]))
      simp [preempted] at going
  | taken _ waiting _ _ _ _ =>
      rcases waiting with pending | ⟨preempted, _⟩
      · have going := stopping.going (stopping.held_of (by simp [pending]))
        simp [pending] at going
      · have going := stopping.going (stopping.held_of (by simp [preempted]))
        simp [preempted] at going
  | @settled worker verdict holding _ slot holders _ =>
      have free := owned.released holding holders
      obtain ⟨_, downloading⟩ := stopping.going ⟨worker, holding⟩
      refine ⟨⟨?_, fun held => absurd held free, fun _ => ?_⟩, fun held => absurd held free⟩
      · rw [slot, Slot.inUse_settle]
        exact stopping.inUse
      · rw [slot, Slot.state_settle, downloading]
        split
        · simp
        · cases verdict <;> simp [Verdict.state]
  | @settlePanicked worker holding slot holders =>
      have free := owned.released holding holders
      refine ⟨⟨?_, fun held => absurd held free, fun _ => by simp [slot]⟩,
        fun held => absurd held free⟩
      simpa [slot, Slot.publishFailure] using stopping.inUse

/-! ## A pause that was not -/

/-- Nobody asked for the entry's pause: a transfer of it is asked to pause only
once it is preempted, and it does not rest paused. -/
structure Unasked (id : EntryId) (shared : Shared n) : Prop where
  inUse : (shared.slots id).inUse = true
  asked : ∀ worker, (shared.active worker).slot = some id →
    shared.Pausing worker ∨ (shared.slots id).pauseRequested = true →
    (shared.slots id).state = .preempted
  resting : ¬shared.Held id → (shared.slots id).state ≠ .paused ∧
    ((shared.slots id).state = .failed ∨ (shared.slots id).pauseRequested = false)

theorem unasked_of_queue {shared after : Shared n} {id : EntryId} {request : Request} {now : Int}
    {spawned : Fin n → Bool} (wired : shared.Wired)
    (queued : shared.queue request now spawned = some (after, id)) : after.Unasked id := by
  obtain ⟨slot, holders⟩ := queue_slot queued
  have free := (queue_eq_some queued).1
  have idle : ∀ worker, (after.active worker).slot ≠ some id := by
    intro worker holding
    rw [wired.inUse id ⟨worker, (holders worker).mp holding⟩] at free
    cases free
  refine ⟨by rw [slot]; rfl, fun worker holding => absurd holding (idle worker), fun _ => ?_⟩
  simp [slot, Request.slot]

theorem unasked_step {before after : Shared n} {action : Action n} {id : EntryId}
    (meets : before.SweepSparesHeld action) (untouched : before.NotPaused id action)
    (stepped : before.step action = some after) (wired : before.Wired) (owned : before.Owned id)
    (unasked : before.Unasked id) : after.Unasked id := by
  cases step_entry id stepped wired with
  | same slot claim =>
      refine ⟨slot.inUse.trans unasked.inUse, fun worker holding asked => ?_, fun idle => ?_⟩
      · have holding := (claim.holders worker).mp holding
        rw [slot.state]
        rw [slot.pauseRequested] at asked
        refine unasked.asked worker holding ?_
        rcases asked with pausing | requested
        · exact claim.pausing worker holding pausing
        · exact .inr requested
      · rw [slot.state, slot.pauseRequested]
        exact unasked.resting (mt claim.held.mpr idle)
  | queued free _ _ =>
      rw [unasked.inUse] at free
      cases free
  | preempted _ _ downloading slot holders =>
      have held := (held_congr holders).mpr (owned.downloading unasked.inUse downloading)
      exact ⟨by rw [slot]; exact unasked.inUse, fun _ _ _ => by rw [slot],
        fun idle => absurd held idle⟩
  | cancelled state slot decided claim =>
      rcases decided with ⟨held, kept⟩ | ⟨rfl, stopped⟩
      · refine ⟨by rw [slot]; exact unasked.inUse, fun worker holding asked => ?_,
          fun idle => absurd (claim.held.mpr held) idle⟩
        have holding := (claim.holders worker).mp holding
        rw [slot] at asked ⊢
        refine kept.trans (unasked.asked worker holding ?_)
        rcases asked with pausing | requested
        · exact claim.pausing worker holding pausing
        · exact .inr requested
      · have idle : ¬before.Held id := by
          intro held
          have running := (owned.held held).2
          rcases stopped with pending | paused | ⟨_, idle⟩
          · simp [pending] at running
          · simp [paused] at running
          · exact idle held
        refine ⟨by rw [slot]; exact unasked.inUse,
          fun worker holding => absurd (claim.held.mp ⟨worker, holding⟩) idle, fun _ => ?_⟩
        rcases (unasked.resting idle).2 with failed | spent
        · simp [failed] at stopped
        · simp [slot, spent]
  | paused applied _ _ _ =>
      rw [untouched rfl] at applied
      cases applied
  | resumed _ paused _ _ =>
      by_cases held : before.Held id
      · have running := (owned.held held).2
        simp [paused] at running
      · exact absurd paused (unasked.resting held).1
  | removed applied _ _ _ =>
      rw [untouched rfl] at applied
      cases applied
  | swept nothing preempted slot claim =>
      have idle : ¬before.Held id := by
        intro held
        rcases meets with busy | spares
        · exact nothing busy
        · exact spares id held preempted
      refine ⟨by rw [slot]; exact unasked.inUse,
        fun worker holding => absurd (claim.held.mp ⟨worker, holding⟩) idle, fun _ => ?_⟩
      rcases (unasked.resting idle).2 with failed | spent
      · simp [preempted] at failed
      · simp [slot, spent]
  | @taken worker _ inUse waiting slot holders calm _ =>
      have idle := owned.not_held_of_waiting meets waiting
      have spent : (before.slots id).pauseRequested = false := by
        rcases (unasked.resting idle).2 with failed | spent
        · simp [failed] at waiting
        · exact spent
      refine ⟨by rw [slot]; exact inUse, fun other holding asked => ?_,
        fun free => absurd ⟨worker, (holders worker).mpr (.inl rfl)⟩ free⟩
      rcases (holders other).mp holding with rfl | earlier
      · rw [slot, spent] at asked
        simp [calm] at asked
      · exact absurd ⟨other, earlier⟩ idle
  | @settled worker verdict holding asked slot holders _ =>
      have free := owned.released holding holders
      refine ⟨by rw [slot, Slot.inUse_settle]; exact unasked.inUse,
        fun other holding => absurd ⟨other, holding⟩ free, fun _ => ⟨?_, .inr ?_⟩⟩
      · rw [slot, Slot.state_settle]
        split
        · simp
        · split
          · simp
          · rename_i kept
            -- A transfer that paused was asked to, so the entry is preempted.
            cases verdict with
            | paused => exact absurd ⟨unasked.asked worker holding (.inl (asked rfl)), rfl⟩ kept
            | _ => simp [Verdict.state]
      · rw [slot]
        rfl
  | settlePanicked holding slot holders =>
      have free := owned.released holding holders
      refine ⟨by simpa [slot, Slot.publishFailure] using unasked.inUse,
        fun other holding => absurd ⟨other, holding⟩ free, fun _ => by simp [slot]⟩

/-! ## Runs -/

theorem Reaches.mono {guard weaker : Shared n → Action n → Prop}
    (implies : ∀ shared action, guard shared action → weaker shared action) {shared : Shared n}
    (run : Reaches guard shared) : Reaches weaker shared :=
  Moves.mono implies run

/-- The part of a run after a pause that applied. -/
theorem Stopping.run {id : EntryId} {before after : Shared n}
    (later : Moves step (fun state action =>
      state.PausesApart action ∧ state.NotResumed id action) before after)
    (wired : before.Wired) (owned : before.Owned id) (stopping : before.Stopping id) :
    (after.Wired ∧ after.Owned id ∧ after.Stopping id) ∧ (¬before.Held id → ¬after.Held id) := by
  have kept : (after.Wired ∧ after.Owned id ∧ after.Stopping id) ∧
      (¬before.Held id → ¬after.Held id) :=
    Moves.invariant
      (fun shared => (shared.Wired ∧ shared.Owned id ∧ shared.Stopping id) ∧
        (¬before.Held id → ¬shared.Held id))
      (fun _ _ _ meets stepped ⟨⟨wired, owned, stopping⟩, free⟩ =>
        have next := stopping_step meets.1 meets.2 stepped wired owned stopping
        ⟨⟨wired_step stepped wired, owned_step meets.1.sweepSparesHeld stepped wired owned, next.1⟩,
          fun idle held => free idle (next.2 held)⟩)
      later ⟨⟨wired, owned, stopping⟩, fun idle => idle⟩
  exact kept

/-- **A pause and a preemption stay apart**, in every run of any number of
workers in which no queue call preempts a transfer whose pause was requested and
no sweep resumes a slot that a worker still holds: pauses last, and nothing but a
pause leaves an entry paused. -/
theorem pauses_and_preemptions_stay_apart (n : Nat) :
    PausesLast n PausesApart ∧ OnlyPausesPause n PausesApart := by
  constructor
  · intro id shared paused stopped after run applied current idle _ _ _ later
    have owned := (run.mono fun _ _ => PausesApart.sweepSparesHeld).owned id
    have stepped : shared.step (.pause id) = some paused := by simp [step, applied]
    have wired := wired_step stepped run.wired
    obtain ⟨⟨wired, owned, stopping⟩, _⟩ := (stopping_of_pause run.wired applied).run current wired
      (owned_step (by trivial) stepped run.wired owned)
    exact (stopping.run later wired owned).2 idle
  · intro id shared queued after request now spawned run applied later idle
    have owned := (run.mono fun _ _ => PausesApart.sweepSparesHeld).owned id
    have stepped : shared.step (.queue request now spawned) = some queued := by
      simp [step, applied]
    have kept : after.Wired ∧ after.Owned id ∧ after.Unasked id :=
      Moves.invariant (fun shared => shared.Wired ∧ shared.Owned id ∧ shared.Unasked id)
        (fun _ _ _ meets stepped held =>
          have spares := meets.1.sweepSparesHeld
          ⟨wired_step stepped held.1, owned_step spares stepped held.1 held.2.1,
            unasked_step spares meets.2 stepped held.1 held.2.1 held.2.2⟩)
        later ⟨wired_step stepped run.wired,
          owned_step (by trivial) stepped run.wired owned,
          unasked_of_queue run.wired applied⟩
    exact (kept.2.2.resting idle).1

/-! ## A paused entry that runs again -/

/-- The one worker transfers a background request. -/
def transferring : List (Action 1) :=
  [.queue (request 0 .background) 0 fun _ => true, .hookReturns 0] ++ looks 0 ++ [.install 0]

/-- The caller's pause is relayed, and the transfer stops. -/
def paused : List (Action 1) := [.relayPause 0, .settle 0 .paused]

/-- A user request arrives while the transfer stops, and is served. -/
def overtaken : List (Action 1) :=
  [.queue (request 1 .user) 1 fun _ => true] ++ paused ++ looks 0 ++
    [.settle 0 (.complete (request 1 .user).digest)]

instance (id : EntryId) (shared : Shared n) :
    (action : Action n) → Decidable (shared.NotResumed id action)
  | .resume resumed spawned =>
      inferInstanceAs (Decidable (resumed = id → shared.resume id spawned = none))
  | .remove freed => inferInstanceAs (Decidable (freed = id → shared.remove id = none))
  | .queue _ _ _ | .cancel _ | .pause _ | .shutdown | .stopTransfers | .hookReturns _
  | .hookPanics _ | .look _ | .stop _ | .claim _ _ | .install _ | .requestCancel _
  | .relayPause _ | .progress _ _ _ | .settle _ _ | .settlePanics _ =>
      inferInstanceAs (Decidable True)

theorem pauses_and_preemptions_stay_apart_served : ∃ stopped after : Shared 1,
    (stopped.slots 0).state = .paused ∧
      Moves step (fun state action => state.PausesApart action ∧ state.NotResumed 0 action)
        stopped after ∧ (after.slots 1).state = .complete ∧ ¬after.Held 0 := by
  have served : (script step PausesApart (fresh 1) transferring).any (fun shared =>
      (shared.pause 0).any fun asked =>
        (script step (fun state action => state.PausesApart action ∧ state.NotResumed 0 action)
          asked paused).any fun stopped =>
            (!stopped.isActive 0 && (stopped.slots 0).state == .paused) &&
            (script step (fun state action => state.PausesApart action ∧ state.NotResumed 0 action)
              stopped ([.queue (request 1 .user) 1 fun _ => true] ++ looks 0 ++
                [.settle 0 (.complete (request 1 .user).digest)])).any fun after =>
                  (after.slots 1).state == .complete) = true := by decide +kernel
  simp only [Option.any_eq_true, Bool.and_eq_true, beq_iff_eq, Bool.not_eq_true'] at served
  obtain ⟨shared, ran, asked, applied, stopped, ran', ⟨idle, state⟩, after, ran'', done⟩ := served
  have free : ¬stopped.Held 0 := fun held => by simp [isActive_iff.mpr held] at idle
  have later := (pauses_and_preemptions_stay_apart 1).1 0 shared asked stopped after
    (.of_script ran) applied (.of_script ran') free (by simp [state]) (by simp [state])
    (by simp [state]) (.of_script ran'')
  exact ⟨stopped, after, state, .of_script ran'', done, later⟩

/-- **A paused entry runs again** without a resume, after a user request has
preempted it while it was stopping. -/
theorem a_paused_entry_runs_again :
    ¬∀ n, 0 < n → PausesLast n unguarded ∧ OnlyPausesPause n unguarded := by
  intro claimed
  have again : (script step unguarded (fresh 1) transferring).any (fun shared =>
      (shared.pause 0).any fun asked =>
        (script step (fun state action => unguarded state action ∧ state.NotResumed 0 action)
          asked overtaken).any fun stopped =>
            (!stopped.isActive 0 && (stopped.slots 0).state == .preempted) &&
            (script step (fun state action => unguarded state action ∧ state.NotResumed 0 action)
              stopped (looks 0)).any fun after => after.isActive 0) = true := by decide +kernel
  simp only [Option.any_eq_true, Bool.and_eq_true, beq_iff_eq, Bool.not_eq_true'] at again
  obtain ⟨shared, ran, asked, applied, stopped, ran', ⟨idle, state⟩, after, ran'', held⟩ := again
  have free : ¬stopped.Held 0 := fun held => by simp [isActive_iff.mpr held] at idle
  exact (claimed 1 (by decide)).1 0 shared asked stopped after (.of_script ran) applied
    (.of_script ran') free (by simp [state]) (by simp [state]) (by simp [state])
    (.of_script ran'') (isActive_iff.mp held)

end Shared

end Retrovert.Queue
