import Mathlib.Data.List.Chain
import Retrovert.Update.Offering
import Retrovert.Update.Stopping

/-!
# How checks are paced

The schedule keeps when a check was last attempted and how many have failed since one was
answered. Callers and jobs write it under a lock of its own, at moments that no other lock ties
together. What it says of a run is a summary of the run's history (`schedule_is_summary`), so a
tick begins a check only when the interval has passed since the last attempt, and the delay for
the failures since the last answer (`a_tick_backs_off`).

A second caller can slip in a check between the look of a first one and the check that it
begins. One that drives the updater alone cannot, and its checks are never closer together than
the interval (`driven_checks_keep_their_distance`).
-/

set_option autoImplicit false

namespace Retrovert.Update

open Retrovert.Runs
open Retrovert.Transport (ArtifactDigest)

/-- The checks of a run: when each was recorded as attempted, and whether each that concluded
was answered. -/
structure History where
  attempts : List Int := []
  answers : List Bool := []

namespace History

/-- How many checks in a row have not been answered, up to the last one. -/
def streak (history : History) : Nat := (history.answers.reverse.takeWhile (! ·)).length

/-- What a schedule keeps of a history. -/
def summary (intervalMs : Int) (history : History) : Schedule where
  intervalMs
  lastAttemptMs := history.attempts.getLast?
  failures := min history.streak (2 ^ 32 - 1)

theorem streak_answered (history : History) :
    ({ history with answers := history.answers ++ [true] } : History).streak = 0 := by
  simp [streak]

theorem streak_failed (history : History) :
    ({ history with answers := history.answers ++ [false] } : History).streak =
      history.streak + 1 := by
  simp [streak]

theorem waitMs_summary (intervalMs : Int) (history : History) {passed : Int} :
    (history.summary intervalMs).waitMs ≤ passed ↔
      intervalMs ≤ passed ∧ (history.streak ≠ 0 → retryDelayMs (history.streak - 1) ≤ passed) := by
  unfold Schedule.waitMs
  split
  · rename_i none
    have zero : history.streak = 0 := by
      simp only [summary] at none
      omega
    simp [zero, summary]
  · rename_i prior some
    have streak : history.streak ≠ 0 ∧ min prior 30 = min (history.streak - 1) 30 := by
      simp only [summary] at some
      omega
    have delay : retryDelayMs prior = retryDelayMs (history.streak - 1) := by
      rw [retryDelayMs, retryDelayMs, streak.2]
    rw [max_le_iff, delay]
    exact and_congr_right fun _ => ⟨fun waited _ => waited, fun waited => waited streak.1⟩

theorem due_summary (intervalMs nowMs : Int) (history : History) :
    (history.summary intervalMs).due nowMs = true ↔
      ∀ last ∈ history.attempts.getLast?,
        intervalMs ≤ saturatingSub nowMs last ∧
          (history.streak ≠ 0 →
            retryDelayMs (history.streak - 1) ≤ saturatingSub nowMs last) := by
  rw [Schedule.due, Option.all_eq_true]
  refine forall_congr' fun last => ?_
  rw [decide_eq_true_iff, waitMs_summary]
  rfl

end History

/-- The channel was asked, and answered. -/
def isAnswer : Except String Outcome → Bool
  | .ok (.upToDate _) | .ok (.updateAvailable _) => true
  | .ok .skipped | .error _ => false

/-- The check that a caller has yet to record as attempted, if it gets to start it. -/
def Caller.toRecord : Caller → Option Int
  | .begins _ attempt | .locked _ attempt | .joining _ attempt | .spawning _ attempt
  | .unlocking attempt => attempt
  | .attempted nowMs => some nowMs
  | .out | .refused _ => none

namespace Updater

variable {m n : Nat}

/-- What a step adds to the history. -/
def observe (updater : Updater m n) (history : History) : Step m n → History
  | .attempt caller =>
      match updater.callers caller with
      | .attempted nowMs => { history with attempts := history.attempts ++ [nowMs] }
      | _ => history
  | .job thread .none =>
      match updater.threads thread with
      | .running (.scheduling _ outcome) =>
          { history with answers := history.answers ++ [isAnswer outcome] }
      | _ => history
  | _ => history

/-- A step, and what it adds to the history. -/
def stepRecorded (sha256 : Bytes → ArtifactDigest) (config : Config)
    (run : Updater m n × History) (action : Step m n) : Option (Updater m n × History) :=
  (run.1.step sha256 config action).map fun after => (after, run.1.observe run.2 action)

theorem stepRecorded_eq_some {sha256 : Bytes → ArtifactDigest} {config : Config}
    {before after : Updater m n × History} {action : Step m n} :
    stepRecorded sha256 config before action = some after ↔
      before.1.step sha256 config action = some after.1 ∧
        after.2 = before.1.observe before.2 action := by
  rw [stepRecorded, Option.map_eq_some_iff]
  constructor
  · rintro ⟨updater, stepped, rfl⟩
    exact ⟨stepped, rfl⟩
  · rintro ⟨stepped, observed⟩
    exact ⟨after.1, stepped, by rw [← observed]⟩

variable {sha256 : Bytes → ArtifactDigest} {config : Config} {updater after : Updater m n}

/-! ## The schedule is a summary -/

theorem summary_attempted (intervalMs nowMs : Int) (history : History) :
    (history.summary intervalMs).attempted nowMs =
      ({ history with attempts := history.attempts ++ [nowMs] } : History).summary intervalMs := by
  simp [Schedule.attempted, History.summary, History.streak]

theorem summary_checked (intervalMs : Int) (history : History)
    (outcome : Except String Outcome) :
    (history.summary intervalMs).checked outcome =
      ({ history with answers := history.answers ++ [isAnswer outcome] } : History).summary
        intervalMs := by
  have succeeds : (history.summary intervalMs).succeeded =
      ({ history with answers := history.answers ++ [true] } : History).summary intervalMs := by
    rw [History.summary, History.summary, History.streak_answered]
    rfl
  have fails : (history.summary intervalMs).failed =
      ({ history with answers := history.answers ++ [false] } : History).summary intervalMs := by
    rw [History.summary, History.summary, History.streak_failed]
    simp only [Schedule.failed, Schedule.mk.injEq, true_and]
    omega
  unfold Schedule.checked isAnswer
  split
  · exact succeeds
  · exact succeeds
  · exact fails
  · exact fails

/-- A step of a job leaves the schedule as it is, unless it is to settle it. -/
theorem advance_schedule {thread : Nat} {stage : Stage} {answer : Answer n}
    (at_work : updater.threads thread = .running stage)
    (stepped : updater.advance config thread stage answer = some after) :
    (∃ priority outcome, stage = .scheduling priority outcome ∧ answer = .none ∧
        after.schedule = updater.schedule.checked outcome) ∨
      (∀ priority outcome, stage ≠ .scheduling priority outcome) ∧
        after.schedule = updater.schedule := by
  rw [advance.eq_def] at stepped
  split at stepped
  case h_5 priority outcome =>
    cases stepped
    exact .inl ⟨priority, outcome, rfl, rfl, rfl⟩
  case h_6 =>
    refine .inr ⟨fun _ _ => Stage.noConfusion, ?_⟩
    split at stepped
    · cases stepped
      rfl
    · cases stepped
      rfl
  case h_8 =>
    refine .inr ⟨fun _ _ => Stage.noConfusion, ?_⟩
    split at stepped
    · cases stepped
      rfl
    · cases stepped
      rfl
    · cases stepped
      rfl
  case h_9 =>
    cases stepped
    exact .inr ⟨fun _ _ => Stage.noConfusion, (fill_seesTo _ _ _ _ _ _).schedule⟩
  case h_10 => exact .inr ⟨fun _ _ => Stage.noConfusion, (sweep_seesTo stepped).schedule⟩
  case h_12 =>
    cases stepped
    exact .inr ⟨fun _ _ => Stage.noConfusion, (release_seesTo at_work).schedule⟩
  case h_15 => cases stepped
  all_goals
    cases stepped
    exact .inr ⟨fun _ _ => Stage.noConfusion, rfl⟩

theorem unwind_schedule {thread : Nat} {stage : Stage}
    (stepped : updater.unwind thread stage = some after) : after.schedule = updater.schedule := by
  rw [unwind.eq_def] at stepped
  split at stepped
  all_goals first
    | cases stepped; done
    | cases stepped
      rfl

/-- What a step does to the schedule it adds to the history. -/
inductive Schedules (updater after : Updater m n) (history later : History) : Prop where
  | same (schedule : after.schedule = updater.schedule) (history : later = history)
  | attempted {nowMs : Int} (schedule : after.schedule = updater.schedule.attempted nowMs)
      (history : later = { history with attempts := history.attempts ++ [nowMs] })
  | checked {outcome : Except String Outcome}
      (schedule : after.schedule = updater.schedule.checked outcome)
      (history : later = { history with answers := history.answers ++ [isAnswer outcome] })

theorem observe_bystander {action : Step m n} (stands : isBystander action = true)
    (history : History) : updater.observe history action = history := by
  cases action <;> first | rfl | cases stands

/-- **A step changes the schedule as it changes the history.** -/
theorem schedules_step {action : Step m n} (history : History)
    (stepped : updater.step sha256 config action = some after) :
    Schedules updater after history (updater.observe history action) := by
  by_cases stands : isBystander action = true
  · obtain ⟨-, -, schedule⟩ := bystander_step stands stepped
    exact .same schedule (observe_bystander stands history)
  cases action with
  | enter caller =>
      refine .same ?_ rfl
      simp only [step, Updater.enter] at stepped
      split at stepped
      · split at stepped
        · cases stepped
          rfl
        · cases stepped
          rfl
      · cases stepped
  | spawn caller error =>
      refine .same ?_ rfl
      simp only [step, Updater.spawn] at stepped
      split at stepped
      · split at stepped
        · cases stepped
          rfl
        · cases stepped
          rfl
      · cases stepped
  | giveUp caller =>
      refine .same ?_ rfl
      simp only [step, Updater.giveUp] at stepped
      split at stepped
      · cases stepped
        rfl
      · cases stepped
  | attempt caller =>
      simp only [step, Updater.attempt] at stepped
      split at stepped
      · rename_i nowMs attempted
        cases stepped
        exact .attempted rfl (by simp only [observe, attempted])
      · cases stepped
  | job thread answer =>
      simp only [step] at stepped
      split at stepped
      · rename_i stage at_work
        rcases advance_schedule at_work stepped with
          ⟨priority, outcome, rfl, rfl, schedule⟩ | ⟨other, schedule⟩
        · exact .checked schedule (by simp only [observe, at_work])
        · refine .same schedule ?_
          cases answer with
          | none =>
              simp only [observe, at_work]
              split
              · rename_i priority outcome scheduling
                exact absurd (Thread.running.inj scheduling) (other priority outcome)
              · rfl
          | _ => rfl
      · cases stepped
  | panic thread =>
      refine .same ?_ rfl
      simp only [step] at stepped
      split at stepped
      · exact unwind_schedule stepped
      · cases stepped
  | settle thread =>
      refine .same ?_ rfl
      simp only [step, Updater.settle] at stepped
      split at stepped
      · cases stepped
        rfl
      · cases stepped
        rfl
      · cases stepped
  | exit thread =>
      refine .same ?_ rfl
      simp only [step] at stepped
      split at stepped
      · cases stepped
        rfl
      · cases stepped
  | _ => exact absurd rfl stands

/-! ## What holds in every run -/

theorem summary_step {before later : Updater m n × History} {action : Step m n}
    (stepped : stepRecorded sha256 config before action = some later)
    (summary : before.1.schedule = before.2.summary config.intervalMs) :
    later.1.schedule = later.2.summary config.intervalMs := by
  obtain ⟨stepped, observed⟩ := stepRecorded_eq_some.mp stepped
  rw [observed]
  cases schedules_step before.2 stepped with
  | same schedule history => rw [schedule, history, summary]
  | attempted schedule history =>
      rw [schedule, history, summary, summary_attempted]
  | checked schedule history => rw [schedule, history, summary, summary_checked]

theorem schedule_is_summary (lastCheck : Option Record) {run : Updater m n × History}
    (moves : Moves (stepRecorded sha256 config) unguarded (new config m n lastCheck, {}) run) :
    run.1.schedule = run.2.summary config.intervalMs := by
  refine moves.invariant
    (fun run => run.1.schedule = run.2.summary config.intervalMs) ?_ rfl
  intro before action after _ stepped summary
  exact summary_step stepped summary

/-- **A tick begins a check only once the interval has passed since the last attempt, and the
delay for the checks in a row that have failed.** The first check of a run waits for nothing. -/
theorem a_tick_backs_off (lastCheck : Option Record) {run : Updater m n × History}
    {after : Updater m n} {caller : Fin m} {nowMs : Int}
    (moves : Moves (stepRecorded sha256 config) unguarded (new config m n lastCheck, {}) run)
    (ticks : run.1.step sha256 config (.call caller .tick nowMs) = some after) :
    (after.callers caller).toRecord = some nowMs ↔
      ∀ last ∈ run.2.attempts.getLast?,
        config.intervalMs ≤ saturatingSub nowMs last ∧
          (run.2.streak ≠ 0 →
            1000 * 2 ^ min (run.2.streak - 1) 30 ≤ saturatingSub nowMs last) := by
  refine Iff.trans ?_ (run.2.due_summary config.intervalMs nowMs)
  rw [← schedule_is_summary lastCheck moves]
  simp only [step, Updater.call] at ticks
  split at ticks
  · rename_i out
    split at ticks
    · rename_i due
      cases ticks
      exact iff_of_true (by simp [setCaller, Caller.toRecord]) due
    · rename_i early
      cases ticks
      exact iff_of_false (by simp [out, Caller.toRecord]) early
  · cases ticks

/-- The check of a job fails, and the job settles that. -/
def failsToCheck (thread : Nat) : List (Step m n) :=
  [.job thread .none, .job thread (.checked (.error "unreachable") none), .job thread .none,
    .job thread .none]

theorem a_tick_backs_off_early : ∃ (run : Updater 1 1 × History) (after : Updater 1 1),
    run.2.attempts = [0] ∧ run.2.streak = 1 ∧
      ((after.callers 0).toRecord = some 999 ↔
        ∀ last ∈ run.2.attempts.getLast?,
          0 ≤ saturatingSub 999 last ∧
            (run.2.streak ≠ 0 →
              1000 * 2 ^ min (run.2.streak - 1) 30 ≤ saturatingSub 999 last)) := by
  obtain ⟨run, moves, found⟩ := Moves.of_check (stepRecorded ArtifactDigest.leading automatic)
    unguarded (new automatic 1 1 none, {}) (checks 0 ++ failsToCheck 0)
    (fun run => decide (run.2.attempts = [0]) && decide (run.2.streak = 1) &&
      (run.1.step ArtifactDigest.leading automatic (.call 0 .tick 999)).isSome)
    (by decide +kernel)
  simp only [Bool.and_eq_true, decide_eq_true_eq] at found
  obtain ⟨⟨attempts, streak⟩, ticks⟩ := found
  obtain ⟨after, ticks⟩ := Option.isSome_iff_exists.mp ticks
  exact ⟨run, after, attempts, streak, a_tick_backs_off none moves ticks⟩

/-! ## One driver -/

def asksToCheck : Step m n → Bool
  | .call _ (.checkNow _) _ => true
  | _ => false

/-- Nothing asks for a check but a tick. -/
def Driven (_ : Updater m n × History) (action : Step m n) : Prop := asksToCheck action = false

instance (run : Updater m n × History) (action : Step m n) : Decidable (Driven run action) :=
  inferInstanceAs (Decidable (asksToCheck action = false))

/-- One check is at least the interval after another. -/
def KeepsDistance (intervalMs first second : Int) : Prop :=
  intervalMs ≤ saturatingSub second first

/-- A step that is no caller's leaves the callers where they are. -/
theorem callers_step {action : Step m n} (others : action.caller = none)
    (stepped : updater.step sha256 config action = some after) :
    after.callers = updater.callers := by
  obtain ⟨thread, who⟩ := step_by action
  cases who with
  | caller moves =>
      rw [others] at moves
      cases moves
  | body body =>
      obtain ⟨stage, -, continues⟩ := body_step body stepped
      exact continues.callers
  | finished finishes => exact (thread_finished finishes stepped).1
  | queue step =>
      obtain ⟨system, rfl⟩ | ⟨-, request, nowMs, spawned, rfl⟩ := queueStep_cases stepped
      · rfl
      · obtain ⟨system, entries, count, same⟩ := enqueue_keeps updater request nowMs spawned
        rw [same]
  | drop drops => exact (drop_step drops stepped).1

/-- A caller moves on with the check it had on its way, or without one, or with one that it
asks for just then. -/
theorem toRecord_step {action : Step m n} {caller : Fin m} {nowMs : Int}
    (moves : action.caller = some caller)
    (stepped : updater.step sha256 config action = some after)
    (records : (after.callers caller).toRecord = some nowMs) :
    (updater.callers caller).toRecord = some nowMs ∨
      ∃ request, action = .call caller request nowMs := by
  cases action with
  | call other request now =>
      cases moves
      simp only [step, Updater.call] at stepped
      split at stepped
      · split at stepped
        · split at stepped
          · cases stepped
            simp only [setCaller, Function.update_self, Caller.toRecord, Option.some.injEq]
              at records
            exact .inr ⟨_, by rw [records]⟩
          · cases stepped
            exact .inl records
        · cases stepped
          simp only [setCaller, Function.update_self, Caller.toRecord, Option.some.injEq]
            at records
          exact .inr ⟨_, by rw [records]⟩
        · cases stepped
          simp [setCaller, Caller.toRecord] at records
      · cases stepped
  | lock other =>
      cases moves
      simp only [step, Updater.lock] at stepped
      split at stepped
      · rename_i begins _
        cases stepped
        simp only [setCaller, Function.update_self, Caller.toRecord] at records
        exact .inl (by rw [begins]; exact records)
      · cases stepped
  | enter other =>
      cases moves
      simp only [step, Updater.enter] at stepped
      split at stepped
      · rename_i locked
        split at stepped
        · cases stepped
          simp [setCaller, Caller.toRecord] at records
        · cases stepped
          simp only [setCaller, Function.update_self, Caller.toRecord] at records
          exact .inl (by rw [locked]; exact records)
      · cases stepped
  | join other =>
      cases moves
      simp only [step, Updater.join] at stepped
      split at stepped
      · rename_i joining
        split at stepped
        · cases stepped
          simp only [setCaller, Function.update_self, Caller.toRecord] at records
          exact .inl (by rw [joining]; exact records)
        · split at stepped
          · cases stepped
            simp only [setCaller, Function.update_self, Caller.toRecord] at records
            exact .inl (by rw [joining]; exact records)
          · cases stepped
      · cases stepped
  | spawn other error =>
      cases moves
      simp only [step, Updater.spawn] at stepped
      split at stepped
      · rename_i spawning
        split at stepped
        · cases stepped
          simp only [setCaller, Function.update_self, Caller.toRecord] at records
          exact .inl (by rw [spawning]; exact records)
        · cases stepped
          simp [setCaller, Caller.toRecord] at records
      · cases stepped
  | giveUp other =>
      cases moves
      simp only [step, Updater.giveUp] at stepped
      split at stepped
      · cases stepped
        simp [setCaller, Caller.toRecord] at records
      · cases stepped
  | unlock other =>
      cases moves
      simp only [step, Updater.unlock] at stepped
      split at stepped
      · rename_i attempt unlocking
        cases stepped
        simp only [setCaller, Function.update_self] at records
        refine .inl ?_
        rw [unlocking]
        cases attempt with
        | none => cases records
        | some _ => exact records
      · cases stepped
  | attempt other =>
      cases moves
      simp only [step, Updater.attempt] at stepped
      split at stepped
      · cases stepped
        simp [setCaller, Caller.toRecord] at records
      · cases stepped
  | _ => cases moves

/-- The checks attempted so far keep their distance, and so will the one that is on its way. -/
structure Spaced (config : Config) (run : Updater 1 n × History) : Prop where
  attempts : run.2.attempts.IsChain (KeepsDistance config.intervalMs)
  next : ∀ caller nowMs, (run.1.callers caller).toRecord = some nowMs →
    ∀ last ∈ run.2.attempts.getLast?, KeepsDistance config.intervalMs last nowMs

theorem observe_attempts {action : Step m n} (other : ∀ caller, action ≠ .attempt caller)
    (history : History) : (updater.observe history action).attempts = history.attempts := by
  unfold observe
  split
  · rename_i caller
    exact absurd rfl (other caller)
  · split <;> rfl
  · rfl

/-- What the schedule says is due keeps its distance. -/
theorem Spaced.called {run : Updater 1 n × History} {after : Updater 1 n}
    {caller : Fin 1} {request : Call} {nowMs : Int}
    (summary : run.1.schedule = run.2.summary config.intervalMs)
    (driven : Driven run (.call caller request nowMs))
    (stepped : run.1.step sha256 config (.call caller request nowMs) = some after)
    (fresh : (run.1.callers caller).toRecord ≠ some nowMs)
    (records : (after.callers caller).toRecord = some nowMs) :
    ∀ last ∈ run.2.attempts.getLast?, KeepsDistance config.intervalMs last nowMs := by
  cases request with
  | tick =>
      simp only [step, Updater.call] at stepped
      split at stepped
      · split at stepped
        · rename_i due
          rw [summary, History.due_summary] at due
          exact fun last found => (due last found).1
        · cases stepped
          exact absurd records fresh
      · cases stepped
  | checkNow priority => cases driven
  | apply plan priority =>
      simp only [step, Updater.call] at stepped
      split at stepped
      · cases stepped
        simp [setCaller, Caller.toRecord] at records
      · cases stepped

theorem spaced_step {run later : Updater 1 n × History} {action : Step 1 n}
    (driven : Driven run action) (stepped : stepRecorded sha256 config run action = some later)
    (summary : run.1.schedule = run.2.summary config.intervalMs)
    (spaced : Spaced config run) : Spaced config later := by
  obtain ⟨stepped, observed⟩ := stepRecorded_eq_some.mp stepped
  by_cases records : ∃ caller, action = .attempt caller
  · obtain ⟨caller, rfl⟩ := records
    simp only [step, Updater.attempt] at stepped
    split at stepped
    · rename_i nowMs attempted
      have grown : later.2.attempts = run.2.attempts ++ [nowMs] := by
        rw [observed]
        simp only [observe, attempted]
      refine ⟨?_, ?_⟩
      · rw [grown, List.isChain_append]
        refine ⟨spaced.attempts, .singleton nowMs, ?_⟩
        rintro last found now now_first
        cases now_first
        exact spaced.next caller nowMs (by rw [attempted]; rfl) last found
      · intro other now pending
        have same : other = caller := Subsingleton.elim _ _
        rw [same, ← Option.some.inj stepped] at pending
        simp [setCaller, Caller.toRecord] at pending
    · cases stepped
  · have kept : later.2.attempts = run.2.attempts := by
      rw [observed]
      exact observe_attempts (fun caller attempts => records ⟨caller, attempts⟩) run.2
    refine ⟨by rw [kept]; exact spaced.attempts, ?_⟩
    intro caller nowMs pending
    rw [kept]
    by_cases before : (run.1.callers caller).toRecord = some nowMs
    · exact spaced.next caller nowMs before
    · cases moves : action.caller with
      | none =>
          rw [callers_step moves stepped] at pending
          exact absurd pending before
      | some other =>
          have same : other = caller := Subsingleton.elim _ _
          rw [same] at moves
          rcases toRecord_step moves stepped pending with already | ⟨request, rfl⟩
          · exact absurd already before
          · exact Spaced.called summary driven stepped before pending

/-- **Checks of one driver are never closer together than the interval.** -/
theorem driven_checks_keep_their_distance (lastCheck : Option Record)
    {run : Updater 1 n × History}
    (moves : Moves (stepRecorded sha256 config) Driven (new config 1 n lastCheck, {}) run) :
    run.2.attempts.IsChain (KeepsDistance config.intervalMs) := by
  have spaced : run.1.schedule = run.2.summary config.intervalMs ∧ Spaced config run := by
    refine moves.invariant (fun run =>
      run.1.schedule = run.2.summary config.intervalMs ∧ Spaced config run) ?_ ?_
    · rintro before action after driven stepped ⟨summary, spaced⟩
      exact ⟨summary_step stepped summary, spaced_step driven stepped summary spaced⟩
    · refine ⟨rfl, .nil, ?_⟩
      intro caller nowMs records
      cases records
  exact spaced.2.attempts

/-- A check a second. -/
def everySecond : Config where
  base := ['u', '/']
  autoApply := false
  intervalMs := 1000

/-- A caller drives the updater, which checks. -/
def ticks (caller : Fin m) (nowMs : Int) : List (Step m n) :=
  [.call caller .tick nowMs, .lock caller, .enter caller, .join caller, .spawn caller none,
    .unlock caller, .attempt caller]

theorem driven_checks_keep_their_distance_twice : ∃ run : Updater 1 1 × History,
    run.2.attempts = [0, 1000] ∧ run.2.attempts.IsChain (KeepsDistance 1000) := by
  obtain ⟨run, moves, found⟩ := Moves.of_check (stepRecorded ArtifactDigest.leading everySecond)
    Driven (new everySecond 1 1 none, {})
    (ticks 0 0 ++ failsToCheck 0 ++ [.job 0 .none, .settle 0, .exit 0, .call 0 .tick 999] ++
      ticks 0 1000)
    (fun run => decide (run.2.attempts = [0, 1000])) (by decide +kernel)
  exact ⟨run, of_decide_eq_true found, driven_checks_keep_their_distance none moves⟩

end Updater

end Retrovert.Update
