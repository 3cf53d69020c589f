import Retrovert.Update.Exclusion

/-!
# Dropping the updater

The drop cancels what each slot of the queue holds at one moment, and nothing tells the job
that the updater is going. A job that has transfers to queue yet queues them after that, and
the drop waits for their bodies (`a_check_goes_on_to_download`). A job that has none leaves
the queue with what was in it (`dropping_stops_transfers`).
-/

set_option autoImplicit false

namespace Retrovert.Update

open Retrovert.Runs
open Retrovert.Transport (ArtifactDigest Head)
open Retrovert.Queue (EntryId System)

/-- The caller that takes a step. -/
def Step.caller {m n : Nat} : Step m n → Option (Fin m)
  | .call caller _ _ | .lock caller | .enter caller | .join caller | .spawn caller _
  | .giveUp caller | .unlock caller | .attempt caller => some caller
  | _ => none

namespace Updater

variable {m n : Nat}

/-- After the drop has cancelled every slot, in a state that the condition held of before,
every transfer that is started is of an entry that was queued by then. -/
def DropStopsTransfers (sha256 : Bytes → ArtifactDigest) (config : Config) (m n : Nat)
    (condition : Updater m n → Prop) : Prop :=
  ∀ (lastCheck : Option Record) (before cancelled later after : Updater m n) (worker : Fin n)
    (head : Head) (id : EntryId),
    Moves (step sha256 config) unguarded (new config m n lastCheck) before → condition before →
    before.step sha256 config .dropCancels = some cancelled → cancelled.dropping = .joining →
    Moves (step sha256 config) unguarded cancelled later →
    later.step sha256 config (.queue (.start worker head)) = some after →
    later.system.held worker = some id → later.entries id < cancelled.count

/-- No job has a transfer to queue yet. -/
def Spent (config : Config) (updater : Updater m n) : Prop :=
  ∀ thread stage, updater.threads thread = .running stage →
    stage.mayQueue config.autoApply = false

/-- Entries are numbered below the next, and the callers have left once the updater is being
dropped. -/
structure Orderly (updater : Updater m n) : Prop where
  numbered : ∀ id, updater.entries id < updater.count
  left : updater.dropping ≠ .alive → ∀ caller, updater.callers caller = .out

theorem orderly_new (config : Config) (lastCheck : Option Record) :
    (new config m n lastCheck).Orderly where
  numbered _ := Nat.zero_lt_one
  left _ _ := rfl

variable {sha256 : Bytes → ArtifactDigest} {config : Config} {updater after : Updater m n}
  {caller : Fin m} {thread : Nat}

/-! ## Steps -/

/-- Only a caller that is in a call takes steps, and one gets into a call before the drop. None
of its steps queues a transfer. -/
theorem caller_step {action : Step m n} (moves : action.caller = some caller)
    (stepped : updater.step sha256 config action = some after) :
    (updater.dropping = .alive ∨ updater.callers caller ≠ .out) ∧
      after.dropping = updater.dropping ∧ after.entries = updater.entries ∧
        after.count = updater.count := by
  cases action with
  | call other call nowMs =>
      cases moves
      simp only [step, Updater.call] at stepped
      split at stepped
      · rename_i alive out
        refine ⟨.inl alive, ?_⟩
        split at stepped
        · split at stepped
          · cases stepped
            exact ⟨rfl, rfl, rfl⟩
          · cases stepped
            exact ⟨rfl, rfl, rfl⟩
        · cases stepped
          exact ⟨rfl, rfl, rfl⟩
        · cases stepped
          exact ⟨rfl, rfl, rfl⟩
      · cases stepped
  | lock other =>
      cases moves
      simp only [step, Updater.lock] at stepped
      split at stepped
      · rename_i begins _
        cases stepped
        exact ⟨.inr (by simp [begins]), rfl, rfl, rfl⟩
      · cases stepped
  | enter other =>
      cases moves
      simp only [step, Updater.enter] at stepped
      split at stepped
      · rename_i locked
        split at stepped
        · cases stepped
          exact ⟨.inr (by simp [locked]), rfl, rfl, rfl⟩
        · cases stepped
          exact ⟨.inr (by simp [locked]), rfl, rfl, rfl⟩
      · cases stepped
  | join other =>
      cases moves
      simp only [step, Updater.join] at stepped
      split at stepped
      · rename_i joining
        split at stepped
        · cases stepped
          exact ⟨.inr (by simp [joining]), rfl, rfl, rfl⟩
        · split at stepped
          · cases stepped
            exact ⟨.inr (by simp [joining]), rfl, rfl, rfl⟩
          · cases stepped
      · cases stepped
  | spawn other error =>
      cases moves
      simp only [step, Updater.spawn] at stepped
      split at stepped
      · rename_i spawning
        split at stepped
        · cases stepped
          exact ⟨.inr (by simp [spawning]), rfl, rfl, rfl⟩
        · cases stepped
          exact ⟨.inr (by simp [spawning]), rfl, rfl, rfl⟩
      · cases stepped
  | giveUp other =>
      cases moves
      simp only [step, Updater.giveUp] at stepped
      split at stepped
      · rename_i refused
        cases stepped
        exact ⟨.inr (by simp [refused]), rfl, rfl, rfl⟩
      · cases stepped
  | unlock other =>
      cases moves
      simp only [step, Updater.unlock] at stepped
      split at stepped
      · rename_i unlocking
        cases stepped
        exact ⟨.inr (by simp [unlocking]), rfl, rfl, rfl⟩
      · cases stepped
  | attempt other =>
      cases moves
      simp only [step, Updater.attempt] at stepped
      split at stepped
      · rename_i attempted
        cases stepped
        exact ⟨.inr (by simp [attempted]), rfl, rfl, rfl⟩
      · cases stepped
  | _ => cases moves

/-- The threads, or what they run, as far as a settle or an exit goes. -/
theorem thread_finished {action : Step m n} (finished : action = .settle thread ∨ action = .exit thread)
    (stepped : updater.step sha256 config action = some after) :
    after.callers = updater.callers ∧ after.dropping = updater.dropping ∧
      after.entries = updater.entries ∧ after.count = updater.count ∧
        ∃ ended, after.threads = Function.update updater.threads thread ended ∧
          ended.isRunning = false := by
  obtain rfl | rfl := finished
  · simp only [step, Updater.settle] at stepped
    split at stepped
    · cases stepped
      exact ⟨rfl, rfl, rfl, rfl, _, rfl, rfl⟩
    · cases stepped
      exact ⟨rfl, rfl, rfl, rfl, _, rfl, rfl⟩
    · cases stepped
  · simp only [step] at stepped
    split at stepped
    · cases stepped
      exact ⟨rfl, rfl, rfl, rfl, _, rfl, rfl⟩
    · cases stepped

/-- A step of the body of a job is one that goes on, or one that unwinds. -/
theorem body_step {action : Step m n}
    (body : (∃ answer, action = .job thread answer) ∨ action = .panic thread)
    (stepped : updater.step sha256 config action = some after) :
    ∃ stage, updater.threads thread = .running stage ∧
      Continues config updater after thread stage := by
  obtain ⟨answer, rfl⟩ | rfl := body
  · simp only [step] at stepped
    split at stepped
    · rename_i stage at_work
      exact ⟨stage, at_work, advance_continues at_work stepped⟩
    · cases stepped
  · simp only [step] at stepped
    split at stepped
    · rename_i stage at_work
      exact ⟨stage, at_work, unwind_continues config stepped⟩
    · cases stepped

/-- A step of the drop changes how far it is, and the slots. It begins once every caller has
left. -/
theorem drop_step {action : Step m n}
    (drops : action = .drop ∨ action = .dropCancels ∨ action = .dropJoins)
    (stepped : updater.step sha256 config action = some after) :
    after.callers = updater.callers ∧ after.threads = updater.threads ∧
      after.entries = updater.entries ∧ after.count = updater.count ∧
        ((updater.dropping = .alive ∧ ∀ caller, updater.callers caller = .out) ∨
          (∃ index, updater.dropping = .cancelling index) ∨
            (updater.dropping = .joining ∧ after.dropping = .dropped)) := by
  obtain rfl | rfl | rfl := drops
  · simp only [step, Updater.drop] at stepped
    split at stepped
    · rename_i alive
      split at stepped
      · rename_i out
        cases stepped
        refine ⟨rfl, rfl, rfl, rfl, .inl ⟨alive, fun caller => ?_⟩⟩
        have left := out caller
        split at left
        · assumption
        · cases left
      · cases stepped
    · cases stepped
  · simp only [step, Updater.dropCancels] at stepped
    split at stepped
    · rename_i index cancelling
      split at stepped
      · cases stepped
        exact ⟨rfl, rfl, rfl, rfl, .inr (.inl ⟨index, cancelling⟩)⟩
      · cases stepped
        exact ⟨rfl, rfl, rfl, rfl, .inr (.inl ⟨index, cancelling⟩)⟩
    · cases stepped
  · simp only [step, Updater.dropJoins] at stepped
    split at stepped
    · rename_i joining _
      cases stepped
      exact ⟨rfl, rfl, rfl, rfl, .inr (.inr ⟨joining, rfl⟩)⟩
    · rename_i joining _
      split at stepped
      · cases stepped
        exact ⟨rfl, rfl, rfl, rfl, .inr (.inr ⟨joining, rfl⟩)⟩
      · cases stepped
    · cases stepped

/-- Who takes a step. -/
inductive By (m n : Nat) (thread : Nat) : Step m n → Prop
  | caller {action : Step m n} {caller : Fin m} (moves : action.caller = some caller) :
      By m n thread action
  | body {action : Step m n}
      (body : (∃ answer, action = .job thread answer) ∨ action = .panic thread) :
      By m n thread action
  | finished {action : Step m n} (finished : action = .settle thread ∨ action = .exit thread) :
      By m n thread action
  | queue (step : Queue.Step n) : By m n thread (.queue step)
  | drop {action : Step m n}
      (drops : action = .drop ∨ action = .dropCancels ∨ action = .dropJoins) :
      By m n thread action

theorem step_by (action : Step m n) : ∃ thread, By m n thread action := by
  cases action with
  | job thread answer => exact ⟨thread, .body (.inl ⟨answer, rfl⟩)⟩
  | panic thread => exact ⟨thread, .body (.inr rfl)⟩
  | settle thread => exact ⟨thread, .finished (.inl rfl)⟩
  | exit thread => exact ⟨thread, .finished (.inr rfl)⟩
  | queue step => exact ⟨0, .queue step⟩
  | drop => exact ⟨0, .drop (.inl rfl)⟩
  | dropCancels => exact ⟨0, .drop (.inr (.inl rfl))⟩
  | dropJoins => exact ⟨0, .drop (.inr (.inr rfl))⟩
  | _ => exact ⟨0, .caller rfl⟩

theorem orderly_step {action : Step m n}
    (stepped : updater.step sha256 config action = some after) (orderly : updater.Orderly) :
    after.Orderly := by
  obtain ⟨thread, who⟩ := step_by action
  cases who with
  | caller moves =>
      obtain ⟨there, dropping, entries, count⟩ := caller_step moves stepped
      refine ⟨by rw [entries, count]; exact orderly.numbered, fun gone => ?_⟩
      rw [dropping] at gone
      exact (there.elim gone fun busy => busy (orderly.left gone _)).elim
  | body body =>
      obtain ⟨stage, -, continues⟩ := body_step body stepped
      refine ⟨continues.numbered orderly.numbered, ?_⟩
      rw [continues.dropping, continues.callers]
      exact orderly.left
  | finished finishes =>
      obtain ⟨callers, dropping, entries, count, -⟩ := thread_finished finishes stepped
      refine ⟨by rw [entries, count]; exact orderly.numbered, ?_⟩
      rw [dropping, callers]
      exact orderly.left
  | queue step =>
      obtain ⟨system, rfl⟩ | ⟨alive, request, nowMs, spawned, rfl⟩ := queueStep_cases stepped
      · exact ⟨orderly.numbered, orderly.left⟩
      · refine ⟨enqueue_numbered updater request nowMs spawned orderly.numbered, ?_⟩
        obtain ⟨system, entries, count, same⟩ := enqueue_keeps updater request nowMs spawned
        rw [same]
        exact orderly.left
  | drop drops =>
      obtain ⟨callers, -, entries, count, which⟩ := drop_step drops stepped
      refine ⟨by rw [entries, count]; exact orderly.numbered, fun _ => ?_⟩
      rw [callers]
      obtain ⟨-, out⟩ | ⟨index, cancelling⟩ | ⟨joining, -⟩ := which
      · exact out
      · exact orderly.left (by simp [cancelling])
      · exact orderly.left (by simp [joining])

/-! ## After the drop has cancelled -/

/-- A thread that goes on with nothing to queue leaves no job with a transfer to queue. -/
theorem Spent.update (spent : updater.Spent config) {later : Thread}
    (threads : after.threads = Function.update updater.threads thread later)
    (quiet : ∀ stage, later = .running stage → stage.mayQueue config.autoApply = false) :
    after.Spent config := by
  intro other stage running
  rw [threads] at running
  by_cases same : other = thread
  · rw [same, Function.update_self] at running
    exact quiet stage running
  · rw [Function.update_of_ne same] at running
    exact spent other stage running

/-- The drop waits for the thread, and no job has a transfer to queue. -/
structure Silent (config : Config) (count : Nat) (updater : Updater m n) : Prop where
  dropping : updater.dropping = .joining ∨ updater.dropping = .dropped
  orderly : updater.Orderly
  spent : updater.Spent config
  counted : updater.count = count

/-- **A step that the drop waits out queues nothing.** -/
theorem silent_step {action : Step m n} {count : Nat}
    (stepped : updater.step sha256 config action = some after)
    (silent : updater.Silent config count) : after.Silent config count := by
  have orderly := orderly_step stepped silent.orderly
  have gone : updater.dropping ≠ .alive := by
    obtain joining | dropped := silent.dropping
    · simp [joining]
    · simp [dropped]
  obtain ⟨thread, who⟩ := step_by action
  cases who with
  | caller moves =>
      obtain ⟨there, -⟩ := caller_step moves stepped
      exact (there.elim gone fun busy => busy (silent.orderly.left gone _)).elim
  | body body =>
      obtain ⟨stage, at_work, continues⟩ := body_step body stepped
      have nothing := silent.spent thread stage at_work
      obtain ⟨later, threads, mayQueue⟩ := continues.threads
      refine ⟨continues.dropping ▸ silent.dropping, orderly, silent.spent.update threads ?_, ?_⟩
      · rintro _ ⟨⟩
        exact Bool.eq_false_iff.mpr fun more => by simp [mayQueue more] at nothing
      · obtain same | more := continues.count
        · rw [same]
          exact silent.counted
        · rw [nothing] at more
          cases more
  | finished finishes =>
      obtain ⟨-, dropping, -, count, ended, threads, quiet⟩ := thread_finished finishes stepped
      refine ⟨dropping ▸ silent.dropping, orderly, silent.spent.update threads ?_,
        count.trans silent.counted⟩
      rintro stage rfl
      cases quiet
  | queue step =>
      obtain ⟨system, rfl⟩ | ⟨alive, -⟩ := queueStep_cases stepped
      · exact ⟨silent.dropping, orderly, silent.spent, silent.counted⟩
      · exact absurd alive gone
  | drop drops =>
      obtain ⟨-, threads, -, count, which⟩ := drop_step drops stepped
      obtain ⟨alive, -⟩ | ⟨index, cancelling⟩ | ⟨-, dropped⟩ := which
      · exact absurd alive gone
      · obtain joining | dropped := silent.dropping
        · simp [joining] at cancelling
        · simp [dropped] at cancelling
      · refine ⟨.inr dropped, orderly, ?_, count.trans silent.counted⟩
        intro other stage running
        rw [threads] at running
        exact silent.spent other stage running

/-- **Dropping the updater stops transfers**, in every run in which no job has a transfer to
queue yet when the drop has cancelled the last slot. -/
theorem dropping_stops_transfers (sha256 : Bytes → ArtifactDigest) (config : Config) (m n : Nat) :
    DropStopsTransfers sha256 config m n (Spent config) := by
  intro lastCheck before cancelled later after worker head id reached spent cancels joining run
    starts held
  have orderly : before.Orderly :=
    Moves.invariant _ (fun _ _ _ _ stepped => orderly_step stepped) reached
      (orderly_new config lastCheck)
  have silent : cancelled.Silent config cancelled.count := by
    obtain ⟨-, threads, -⟩ := drop_step (.inr (.inl rfl)) cancels
    refine ⟨.inl joining, orderly_step cancels orderly, ?_, rfl⟩
    intro thread stage running
    rw [threads] at running
    exact spent thread stage running
  have still : later.Silent config cancelled.count :=
    Moves.invariant _ (fun _ _ _ _ stepped => silent_step stepped) run silent
  rw [← still.counted]
  exact still.orderly.numbered id

/-! ## An apply that has queued everything, and a check that goes on to apply -/

/-- A plan of one artifact. -/
def smallPlan : Apply.Plan where
  generationId := "0000000000000000000000000000000000000000000000000000000000000000"
  releaseVersion := 1
  artifacts := [{
    name := "a"
    target := none
    path := "a"
    sha256 := "0000000000000000000000000000000000000000000000000000000000000000"
    size := 3
    revision := "r"
    version := none }]

/-- A caller asks for the plan to be applied, and leaves once a thread does that. -/
def applies (caller : Fin m) : List (Step m n) :=
  [.call caller (.apply smallPlan .user) 0, .lock caller, .enter caller, .join caller,
    .spawn caller none, .unlock caller, .job 0 .none]

/-- The check finds the plan, and the job goes on to apply it. -/
def finds : List (Step m n) :=
  [.job 0 (.checked (.ok (.updateAvailable smallPlan)) none), .job 0 .none, .job 0 .none,
    .job 0 .none]

/-- The job acquires the plan it has found, up to its one transfer. -/
def acquires : List (Step m n) :=
  [.job 0 .none, .job 0 (.prepared (.ok none)), .job 0 (.queued 0 fun _ => true)]

/-- The worker takes the transfer, up to its start. -/
def takesTransfer : List (Step 1 1) :=
  [.queue (.shared (.hookReturns 0)), .queue (.shared (.look 0)),
    .queue (.shared (.claim 0 fun _ => true)), .queue (.enter 0), .queue (.probe 0)]

/-- The drop begins, and gets to the last slot. -/
def drops : List (Step m n) := .drop :: List.replicate Queue.queueMax .dropCancels

/-- The drop cancels the last slot of `before`, and after the steps that are given a transfer
of the first slot's entry is started. -/
def startsAfter (config : Config) (before : Updater 1 1) (steps : List (Step 1 1))
    (check : Updater 1 1 → Updater 1 1 → Bool) : Bool :=
  (before.step ArtifactDigest.leading config .dropCancels).any fun cancelled =>
    cancelled.dropping == .joining &&
      (script (step ArtifactDigest.leading config) unguarded cancelled steps).any fun later =>
        (later.step ArtifactDigest.leading config (.queue (.start 0 {}))).isSome &&
          later.system.held 0 == some 0 && check cancelled later

theorem startsAfter_eq_true {before : Updater 1 1} {steps : List (Step 1 1)}
    {check : Updater 1 1 → Updater 1 1 → Bool}
    (starts : startsAfter config before steps check = true) :
    ∃ cancelled later after : Updater 1 1,
      before.step ArtifactDigest.leading config .dropCancels = some cancelled ∧
      cancelled.dropping = .joining ∧
      Moves (step ArtifactDigest.leading config) unguarded cancelled later ∧
      later.step ArtifactDigest.leading config (.queue (.start 0 {})) = some after ∧
      later.system.held 0 = some 0 ∧ check cancelled later = true := by
  obtain ⟨cancelled, cancels, rest⟩ := (Option.any_eq_true _ _).mp starts
  obtain ⟨joining, rest⟩ := Bool.and_eq_true_iff.mp rest
  obtain ⟨later, ran, rest⟩ := (Option.any_eq_true _ _).mp rest
  simp only [Bool.and_eq_true, beq_iff_eq] at joining rest
  obtain ⟨⟨started, held⟩, found⟩ := rest
  obtain ⟨after, stepped⟩ := Option.isSome_iff_exists.mp started
  exact ⟨cancelled, later, after, cancels, joining, .of_script ran, stepped, held, found⟩

/-- There has been one job, and it has no transfer to queue yet. -/
def onlySpent (config : Config) (updater : Updater m n) : Bool :=
  updater.next == 1 &&
    match updater.threads 0 with
    | .running stage => !stage.mayQueue config.autoApply
    | _ => true

theorem Exclusive.spent (exclusive : updater.Exclusive)
    (only : updater.onlySpent config = true) : updater.Spent config := by
  obtain ⟨next, nothing⟩ := Bool.and_eq_true_iff.mp only
  intro thread stage running
  have first : thread = 0 := by
    by_contra other
    have absent := exclusive.unspawned thread (by
      rw [beq_iff_eq.mp next]
      exact Nat.one_le_iff_ne_zero.mpr other)
    rw [absent] at running
    cases running
  rw [first] at running
  rw [running] at nothing
  exact Bool.not_eq_true' _ ▸ nothing

theorem dropping_stops_transfers_applied : ∃ cancelled later : Updater 1 1,
    cancelled.dropping = .joining ∧ later.system.held 0 = some 0 ∧
      later.entries 0 < cancelled.count := by
  obtain ⟨before, run, found⟩ := Moves.of_check (step ArtifactDigest.leading automatic) unguarded
    (new automatic 1 1 none) (applies 0 ++ acquires ++ takesTransfer ++ drops)
    (fun before => before.onlySpent automatic &&
      startsAfter automatic before [] fun _ _ => true) (by decide +kernel)
  obtain ⟨only, starts⟩ := Bool.and_eq_true_iff.mp found
  obtain ⟨cancelled, later, after, cancels, joining, reruns, stepped, held, -⟩ :=
    startsAfter_eq_true starts
  have exclusive : before.Exclusive :=
    Moves.invariant _ (fun _ _ _ _ stepped => exclusive_step stepped) run
      (exclusive_new automatic none)
  exact ⟨cancelled, later, joining, held, dropping_stops_transfers ArtifactDigest.leading automatic
    1 1 none before cancelled later after 0 {} 0 run (exclusive.spent only) cancels joining reruns
    stepped held⟩

/-- **A check goes on to download.** The updater is dropped while its check is asking the
channel. The check finds a plan, which is applied, and the transfer it queues is started. -/
theorem a_check_goes_on_to_download :
    ¬ DropStopsTransfers ArtifactDigest.leading automatic 1 1 fun _ => True := by
  intro claimed
  obtain ⟨before, run, starts⟩ := Moves.of_check (step ArtifactDigest.leading automatic) unguarded
    (new automatic 1 1 none) (checks 0 ++ [.job 0 .none] ++ drops)
    (fun before => startsAfter automatic before (finds ++ acquires ++ takesTransfer)
      fun cancelled later => decide (cancelled.count ≤ later.entries 0)) (by decide +kernel)
  obtain ⟨cancelled, later, after, cancels, joining, reruns, stepped, held, found⟩ :=
    startsAfter_eq_true starts
  have queued := claimed none before cancelled later after 0 {} 0 run trivial cancels joining
    reruns stepped held
  exact Nat.not_lt.mpr (of_decide_eq_true found) queued

end Updater

end Retrovert.Update
