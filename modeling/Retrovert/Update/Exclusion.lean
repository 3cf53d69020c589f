import Retrovert.Library.Runs
import Retrovert.Update.Steps

/-!
# At most one job

The phase is all that keeps two jobs apart. It is set by a caller that holds the job lock and
finds it idle, moved by the job itself, and settled by the thread whose job is over or by the
caller that could not spawn it. So the phase is set exactly while a job is being started or
is running, and there is never a second one (`at_most_one_job`).
-/

set_option autoImplicit false

namespace Retrovert.Update

open Retrovert.Runs
open Retrovert.Transport (ArtifactDigest)
open Retrovert.Queue (Priority)

/-- The thread runs a job whose phase is not settled yet. -/
def Thread.isRunning : Thread → Bool
  | .running _ => true
  | _ => false

theorem Thread.isRunning_iff {thread : Thread} :
    thread.isRunning = true ↔ ∃ stage, thread = .running stage := by
  cases thread <;> simp [isRunning]

/-- A caller that starts a job holds the job lock. -/
theorem Caller.holdsLock_of_starting {caller : Caller} (starts : caller.starting = true) :
    caller.holdsLock = true := by
  cases caller <;> first | rfl | cases starts

/-- What is read of one place and is as it was there is as it was everywhere. -/
theorem read_update {ι α β : Type} [DecidableEq ι] {values : ι → α} {place : ι} {value : α}
    (read : α → β) (same : read value = read (values place)) (other : ι) :
    read (Function.update values place value other) = read (values other) := by
  rw [Function.apply_update fun _ => read, same, Function.update_eq_self]

theorem absent_update {threads : Nat → Thread} {thread : Nat} {later : Thread}
    (was : threads thread ≠ .absent) (there : later ≠ .absent) (other : Nat) :
    Function.update threads thread later other = .absent ↔ threads other = .absent :=
  iff_of_eq (read_update (· = Thread.absent) (propext (iff_of_false there was)) other)

namespace Updater

variable {m n : Nat}

/-- One caller at most starts a job, while none is running, and one job at most is running.
The phase is set just then. -/
structure Exclusive (updater : Updater m n) : Prop where
  lock : ∀ caller, (updater.callers caller).holdsLock = true ↔ updater.jobLock = some caller
  one : ∀ first second, (updater.threads first).isRunning = true →
    (updater.threads second).isRunning = true → first = second
  apart : ∀ caller thread, (updater.callers caller).starting = true →
    (updater.threads thread).isRunning = false
  phase : updater.status.phase ≠ .idle ↔ (∃ thread, (updater.threads thread).isRunning = true) ∨
    ∃ caller, (updater.callers caller).starting = true
  unspawned : ∀ thread, updater.next ≤ thread → updater.threads thread = .absent
  spawned : ∀ thread, updater.handle = some thread → updater.threads thread ≠ .absent

theorem exclusive_new (config : Config) (lastCheck : Option Record) :
    (new config m n lastCheck).Exclusive where
  lock := by simp [new, Caller.holdsLock]
  one := by simp [new, Thread.isRunning]
  apart := by simp [new, Caller.starting]
  phase := by simp [new, Thread.isRunning, Caller.starting]
  unspawned := by simp [new]
  spawned := by simp [new]

variable {sha256 : Bytes → ArtifactDigest} {config : Config} {updater after : Updater m n}
  {caller : Fin m} {thread : Nat}

/-- Only the callers, the lock, the threads and the phase count. -/
theorem Exclusive.congr (exclusive : updater.Exclusive) (callers : after.callers = updater.callers)
    (jobLock : after.jobLock = updater.jobLock) (threads : after.threads = updater.threads)
    (next : after.next = updater.next) (phase : after.status.phase = updater.status.phase)
    (handle : after.handle = updater.handle ∨ after.handle = none) : after.Exclusive where
  lock := by rw [callers, jobLock]; exact exclusive.lock
  one := by rw [threads]; exact exclusive.one
  apart := by rw [callers, threads]; exact exclusive.apart
  phase := by rw [callers, threads, phase]; exact exclusive.phase
  unspawned := by rw [next, threads]; exact exclusive.unspawned
  spawned := by
    intro thread held
    rw [threads]
    obtain same | none := handle
    · exact exclusive.spawned thread (same ▸ held)
    · rw [none] at held
      cases held

/-- A caller that keeps the lock, or does not hold it, leaves it where it was. -/
theorem Exclusive.lock_update (exclusive : updater.Exclusive) {stage : Caller}
    (locks : stage.holdsLock = (updater.callers caller).holdsLock) (other : Fin m) :
    (Function.update updater.callers caller stage other).holdsLock = true ↔
      updater.jobLock = some other := by
  rw [read_update Caller.holdsLock locks]
  exact exclusive.lock other

/-- A caller may move on if it keeps or does not keep the lock, and starts a job, as before. -/
theorem Exclusive.with_caller (exclusive : updater.Exclusive) {stage : Caller}
    (locks : stage.holdsLock = (updater.callers caller).holdsLock)
    (starts : stage.starting = (updater.callers caller).starting) :
    (updater.setCaller caller stage).Exclusive := by
  have starting := read_update Caller.starting starts
  exact {
    lock := exclusive.lock_update locks
    one := exclusive.one
    apart := fun other thread starts => exclusive.apart other thread (starting other ▸ starts)
    phase := by
      simp only [setCaller, starting]
      exact exclusive.phase
    unspawned := exclusive.unspawned
    spawned := exclusive.spawned }

/-- A caller that is in the middle of starting a job is the only one. -/
theorem Exclusive.only_starter (exclusive : updater.Exclusive) {other : Fin m}
    (holds : (updater.callers caller).holdsLock = true)
    (starts : (updater.callers other).starting = true) : other = caller := by
  have mine := (exclusive.lock caller).mp holds
  have theirs := (exclusive.lock other).mp (Caller.holdsLock_of_starting starts)
  rw [mine] at theirs
  exact (Option.some.inj theirs).symm

/-- Once that caller starts no job any more, nobody does. -/
theorem Exclusive.none_starting (exclusive : updater.Exclusive) {stage : Caller}
    (holds : (updater.callers caller).holdsLock = true) (ends : stage.starting = false)
    (other : Fin m) : (Function.update updater.callers caller stage other).starting = false := by
  by_cases same : other = caller
  · rw [same, Function.update_self, ends]
  · rw [Function.update_of_ne same]
    exact Bool.eq_false_iff.mpr fun starts => same (exclusive.only_starter holds starts)

/-- Nothing is running or being started while the phase is idle. -/
theorem Exclusive.of_idle (exclusive : updater.Exclusive) (idle : updater.status.phase = .idle) :
    (∀ thread, (updater.threads thread).isRunning = false) ∧
      ∀ caller, (updater.callers caller).starting = false := by
  have nothing := mt exclusive.phase.mpr (not_not.mpr idle)
  rw [not_or, not_exists, not_exists] at nothing
  exact ⟨fun thread => Bool.eq_false_iff.mpr (nothing.1 thread),
    fun caller => Bool.eq_false_iff.mpr (nothing.2 caller)⟩

/-! ## Steps -/

theorem Exclusive.call (exclusive : updater.Exclusive) {request : Call} {nowMs : Int}
    (stepped : updater.call caller request nowMs = some after) : after.Exclusive := by
  simp only [Updater.call] at stepped
  split at stepped
  · rename_i alive out
    have begins : ∀ job attempt, (updater.setCaller caller (.begins job attempt)).Exclusive :=
      fun job attempt => exclusive.with_caller (by rw [out]; rfl) (by rw [out]; rfl)
    split at stepped
    · split at stepped
      · cases stepped
        exact begins _ _
      · cases stepped
        exact exclusive
    · cases stepped
      exact begins _ _
    · cases stepped
      exact begins _ _
  · cases stepped

theorem Exclusive.take (exclusive : updater.Exclusive)
    (stepped : updater.lock caller = some after) : after.Exclusive := by
  simp only [Updater.lock] at stepped
  split at stepped
  · rename_i job attempt begins free
    cases stepped
    have starting : ∀ other, (Function.update updater.callers caller (.locked job attempt)
        other).starting = (updater.callers other).starting :=
      read_update Caller.starting (by rw [begins]; rfl)
    exact {
      lock := by
        intro other
        by_cases same : other = caller
        · subst same
          simp [setCaller, Caller.holdsLock]
        · have unlocked := mt (exclusive.lock other).mp (by rw [free]; simp)
          simp [setCaller, same, unlocked, Ne.symm same]
      one := exclusive.one
      apart := fun other thread starts => exclusive.apart other thread ((starting other) ▸ starts)
      phase := by
        simp only [setCaller, starting]
        exact exclusive.phase
      unspawned := exclusive.unspawned
      spawned := exclusive.spawned }
  · cases stepped

theorem Exclusive.enter (exclusive : updater.Exclusive)
    (stepped : updater.enter caller = some after) : after.Exclusive := by
  simp only [Updater.enter] at stepped
  split at stepped
  · rename_i job attempt locked
    split at stepped
    · cases stepped
      exact exclusive.with_caller (by rw [locked]; rfl) (by rw [locked]; rfl)
    · rename_i idle
      cases stepped
      obtain ⟨quiet, -⟩ := exclusive.of_idle (not_not.mp idle)
      exact {
        lock := exclusive.lock_update (by rw [locked]; rfl)
        one := exclusive.one
        apart := fun _ thread _ => quiet thread
        phase := by
          refine iff_of_true ?_ (.inr ⟨caller, by simp [setCaller, Caller.starting]⟩)
          cases job <;> simp [Job.phase]
        unspawned := exclusive.unspawned
        spawned := exclusive.spawned }
  · cases stepped

theorem Exclusive.join (exclusive : updater.Exclusive)
    (stepped : updater.join caller = some after) : after.Exclusive := by
  simp only [Updater.join] at stepped
  split at stepped
  · rename_i job attempt joining
    have moved : (updater.setCaller caller (.spawning job attempt)).Exclusive :=
      exclusive.with_caller (by rw [joining]; rfl) (by rw [joining]; rfl)
    have joined : Exclusive { updater.setCaller caller (.spawning job attempt) with
        handle := none } := moved.congr rfl rfl rfl rfl rfl (.inr rfl)
    split at stepped
    · cases stepped
      exact joined
    · split at stepped
      · cases stepped
        exact joined
      · cases stepped
  · cases stepped

theorem Exclusive.spawn (exclusive : updater.Exclusive) {error : Option String}
    (stepped : updater.spawn caller error = some after) : after.Exclusive := by
  simp only [Updater.spawn] at stepped
  split at stepped
  · rename_i job attempt spawning
    have starts : (updater.callers caller).starting = true := by rw [spawning]; rfl
    have holds : (updater.callers caller).holdsLock = true := Caller.holdsLock_of_starting starts
    split at stepped
    · cases stepped
      have quiet : ∀ other, (Function.update updater.callers caller (.unlocking attempt)
          other).starting = false := exclusive.none_starting holds rfl
      have running : ∀ thread, (Function.update updater.threads updater.next
          (.running (.entered job)) thread).isRunning = true ↔ thread = updater.next := by
        intro thread
        by_cases same : thread = updater.next
        · subst same
          simp [Thread.isRunning]
        · simp [same, exclusive.apart caller thread starts]
      exact {
        lock := exclusive.lock_update (by rw [spawning]; rfl)
        one := fun first second one two =>
          ((running first).mp one).trans ((running second).mp two).symm
        apart := fun other _ starts => absurd starts (by
          simp only [setCaller, goesTo, setThread, quiet other, Bool.false_eq_true,
            not_false_eq_true])
        phase := by
          refine iff_of_true ?_ (.inl ⟨updater.next, (running updater.next).mpr rfl⟩)
          exact exclusive.phase.mpr (.inr ⟨caller, starts⟩)
        unspawned := by
          intro thread later
          have other : thread ≠ updater.next := Nat.ne_of_gt later
          simp only [setCaller, goesTo, setThread, Function.update_of_ne other]
          exact exclusive.unspawned thread (Nat.le_of_succ_le later)
        spawned := by
          intro thread held
          cases held
          simp [setCaller, goesTo, setThread] }
    · cases stepped
      exact exclusive.with_caller (by rw [spawning]; rfl) (by rw [spawning]; rfl)
  · cases stepped

theorem Exclusive.giveUp (exclusive : updater.Exclusive)
    (stepped : updater.giveUp caller = some after) : after.Exclusive := by
  simp only [Updater.giveUp] at stepped
  split at stepped
  · rename_i text refused
    cases stepped
    have starts : (updater.callers caller).starting = true := by rw [refused]; rfl
    have holds : (updater.callers caller).holdsLock = true := Caller.holdsLock_of_starting starts
    have quiet : ∀ other, (Function.update updater.callers caller (.unlocking none)
        other).starting = false := exclusive.none_starting holds rfl
    exact {
      lock := exclusive.lock_update (by rw [refused]; rfl)
      one := exclusive.one
      apart := fun _ thread _ => exclusive.apart caller thread starts
      phase := by
        simp [setCaller, quiet, exclusive.apart caller _ starts]
      unspawned := exclusive.unspawned
      spawned := exclusive.spawned }
  · cases stepped

theorem Exclusive.unlock (exclusive : updater.Exclusive)
    (stepped : updater.unlock caller = some after) : after.Exclusive := by
  simp only [Updater.unlock] at stepped
  split at stepped
  · rename_i attempt unlocking
    cases stepped
    have leaves : (attempt.elim Caller.out .attempted).holdsLock = false ∧
        (attempt.elim Caller.out .attempted).starting = false := by
      cases attempt <;> exact ⟨rfl, rfl⟩
    have held : updater.jobLock = some caller :=
      (exclusive.lock caller).mp (by rw [unlocking]; rfl)
    have starting : ∀ other, (Function.update updater.callers caller
        (attempt.elim .out .attempted) other).starting = (updater.callers other).starting :=
      read_update Caller.starting (by rw [leaves.2, unlocking]; rfl)
    exact {
      lock := by
        intro other
        by_cases same : other = caller
        · subst same
          simp [setCaller, leaves.1]
        · have unlocked := mt (exclusive.lock other).mp (by rw [held]; simp [Ne.symm same])
          simp [setCaller, same, unlocked]
      one := exclusive.one
      apart := fun other thread starts => exclusive.apart other thread ((starting other) ▸ starts)
      phase := by
        simp only [setCaller, starting]
        exact exclusive.phase
      unspawned := exclusive.unspawned
      spawned := exclusive.spawned }
  · cases stepped

theorem Exclusive.attempt (exclusive : updater.Exclusive)
    (stepped : updater.attempt caller = some after) : after.Exclusive := by
  simp only [Updater.attempt] at stepped
  split at stepped
  · rename_i nowMs attempted
    cases stepped
    have moved : (updater.setCaller caller .out).Exclusive :=
      exclusive.with_caller (by rw [attempted]; rfl) (by rw [attempted]; rfl)
    exact moved.congr rfl rfl rfl rfl rfl (.inl rfl)
  · cases stepped

/-- A job that goes on is the one that is running. -/
theorem Exclusive.continues {stage : Stage} (exclusive : updater.Exclusive)
    (at_work : updater.threads thread = .running stage)
    (continues : Continues config updater after thread stage) : after.Exclusive := by
  obtain ⟨later, threads, -⟩ := continues.threads
  have running : ∀ other, (after.threads other).isRunning =
      (updater.threads other).isRunning := by
    rw [threads]
    exact read_update Thread.isRunning (by rw [at_work]; rfl)
  have absent : ∀ other, after.threads other = .absent ↔ updater.threads other = .absent := by
    rw [threads]
    exact absent_update (by rw [at_work]; nofun) nofun
  have set : updater.status.phase ≠ .idle :=
    exclusive.phase.mpr (.inl ⟨thread, Thread.isRunning_iff.mpr ⟨stage, at_work⟩⟩)
  exact {
    lock := by
      rw [continues.callers, continues.jobLock]
      exact exclusive.lock
    one := by
      intro first second one two
      rw [running] at one two
      exact exclusive.one first second one two
    apart := by
      intro caller other starts
      rw [continues.callers] at starts
      rw [running]
      exact exclusive.apart caller other starts
    phase := by
      simp only [running, continues.callers]
      refine Iff.trans ⟨fun _ => set, fun _ => ?_⟩ exclusive.phase
      obtain same | applying := continues.phase
      · rw [same]
        exact set
      · rw [applying]
        simp
    unspawned := by
      intro other later
      rw [continues.next] at later
      exact (absent other).mpr (exclusive.unspawned other later)
    spawned := by
      intro other held
      rw [continues.handle] at held
      exact mt (absent other).mp (exclusive.spawned other held) }

/-- A thread whose job is over may go on to exit. -/
theorem Exclusive.with_finished (exclusive : updater.Exclusive) {finished : Thread}
    (was : updater.threads thread ≠ .absent) (quiet : (updater.threads thread).isRunning = false)
    (ended : finished.isRunning = false) (there : finished ≠ .absent) :
    (updater.setThread thread finished).Exclusive := by
  have running := read_update Thread.isRunning (ended.trans quiet.symm)
  have absent := absent_update was there
  exact {
    lock := exclusive.lock
    one := by
      intro first second one two
      rw [setThread, running] at one two
      exact exclusive.one first second one two
    apart := fun caller other starts => (running other).trans (exclusive.apart caller other starts)
    phase := by
      simp only [setThread, running]
      exact exclusive.phase
    unspawned := fun other later => (absent other).mpr (exclusive.unspawned other later)
    spawned := fun other held => mt (absent other).mp (exclusive.spawned other held) }

/-- Settling the phase ends the one job there is. -/
theorem Exclusive.settled (exclusive : updater.Exclusive) {status : Status}
    (running : (updater.threads thread).isRunning = true) (idle : status.phase = .idle) :
    Exclusive { updater.setThread thread .exiting with status } := by
  have ended : ∀ other, (Function.update updater.threads thread .exiting other).isRunning =
      false := by
    intro other
    by_cases same : other = thread
    · subst same
      simp [Thread.isRunning]
    · rw [Function.update_of_ne same]
      exact Bool.eq_false_iff.mpr fun runs => same (exclusive.one other thread runs running)
  have quiet : ∀ caller, (updater.callers caller).starting = false := fun caller =>
    Bool.eq_false_iff.mpr fun starts => by
      rw [exclusive.apart caller thread starts] at running
      cases running
  have was : updater.threads thread ≠ .absent := by
    intro absent
    rw [absent] at running
    cases running
  have absent := absent_update was (nofun : Thread.exiting ≠ .absent)
  exact {
    lock := exclusive.lock
    one := fun first _ one _ => absurd one (by rw [setThread, ended first]; simp)
    apart := fun _ other _ => ended other
    phase := by
      simp [setThread, ended, quiet, idle]
    unspawned := fun other later => (absent other).mpr (exclusive.unspawned other later)
    spawned := fun other held => mt (absent other).mp (exclusive.spawned other held) }

theorem Exclusive.settle (exclusive : updater.Exclusive)
    (stepped : updater.settle thread = some after) : after.Exclusive := by
  simp only [Updater.settle] at stepped
  split at stepped
  · rename_i returned
    cases stepped
    exact exclusive.settled (by rw [returned]; rfl) rfl
  · rename_i unwound
    cases stepped
    exact exclusive.settled (by rw [unwound]; rfl) rfl
  · cases stepped

theorem Exclusive.queueStep (exclusive : updater.Exclusive) {step : Queue.Step n}
    (stepped : updater.queueStep sha256 step = some after) : after.Exclusive := by
  obtain ⟨system, rfl⟩ | ⟨-, request, nowMs, spawned, rfl⟩ := queueStep_cases stepped
  · exact exclusive.congr rfl rfl rfl rfl rfl (.inl rfl)
  · obtain ⟨system, entries, count, same⟩ := enqueue_keeps updater request nowMs spawned
    rw [same]
    exact exclusive.congr rfl rfl rfl rfl rfl (.inl rfl)

/-- **Every step keeps one job at most.** -/
theorem exclusive_step {action : Step m n}
    (stepped : updater.step sha256 config action = some after) (exclusive : updater.Exclusive) :
    after.Exclusive := by
  cases action with
  | call caller call nowMs => exact exclusive.call stepped
  | lock caller => exact exclusive.take stepped
  | enter caller => exact exclusive.enter stepped
  | join caller => exact exclusive.join stepped
  | spawn caller error => exact exclusive.spawn stepped
  | giveUp caller => exact exclusive.giveUp stepped
  | unlock caller => exact exclusive.unlock stepped
  | attempt caller => exact exclusive.attempt stepped
  | job thread answer =>
      simp only [step] at stepped
      split at stepped
      · rename_i stage at_work
        exact exclusive.continues at_work (advance_continues at_work stepped)
      · cases stepped
  | panic thread =>
      simp only [step] at stepped
      split at stepped
      · rename_i stage at_work
        exact exclusive.continues at_work (unwind_continues config stepped)
      · cases stepped
  | settle thread => exact exclusive.settle stepped
  | exit thread =>
      simp only [step] at stepped
      split at stepped
      · rename_i exiting
        cases stepped
        exact exclusive.with_finished (by rw [exiting]; simp) (by rw [exiting]; rfl) rfl (by simp)
      · cases stepped
  | queue step => exact exclusive.queueStep stepped
  | drop =>
      simp only [step, Updater.drop] at stepped
      split at stepped
      · split at stepped
        · cases stepped
          exact exclusive.congr rfl rfl rfl rfl rfl (.inl rfl)
        · cases stepped
      · cases stepped
  | dropCancels =>
      simp only [step, Updater.dropCancels] at stepped
      split at stepped
      · split at stepped
        · cases stepped
          exact exclusive.congr rfl rfl rfl rfl rfl (.inl rfl)
        · cases stepped
          exact exclusive.congr rfl rfl rfl rfl rfl (.inl rfl)
      · cases stepped
  | dropJoins =>
      simp only [step, Updater.dropJoins] at stepped
      split at stepped
      · cases stepped
        exact exclusive.congr rfl rfl rfl rfl rfl (.inl rfl)
      · split at stepped
        · cases stepped
          exact exclusive.congr rfl rfl rfl rfl rfl (.inr rfl)
        · cases stepped
      · cases stepped

/-! ## What holds in every run -/

variable (sha256 config) in
/-- A job gets to run on a thread of its own. -/
def GetsToRun (updater : Updater m n) (job : Job) : Prop :=
  ∃ after thread, Moves (step sha256 config) unguarded updater after ∧
    after.threads thread = .running (.entered job)

theorem GetsToRun.head {job : Job} {action : Step m n}
    (stepped : updater.step sha256 config action = some after)
    (runs : after.GetsToRun sha256 config job) : updater.GetsToRun sha256 config job := by
  obtain ⟨last, thread, run, running⟩ := runs
  exact ⟨last, thread, .head trivial stepped run, running⟩

theorem getsToRun_of_spawning {job : Job} {attempt : Option Int}
    (spawning : updater.callers caller = .spawning job attempt) :
    updater.GetsToRun sha256 config job := by
  have spawned : ∃ after, updater.step sha256 config (.spawn caller none) = some after ∧
      after.threads updater.next = .running (.entered job) := by
    refine ⟨_, by simp only [step, Updater.spawn, spawning]; rfl, ?_⟩
    simp [setCaller, goesTo, setThread]
  obtain ⟨after, stepped, running⟩ := spawned
  exact ⟨after, updater.next, .head trivial stepped (.refl _), running⟩

/-- A caller that has set the phase gets its job to run, once the last thread has exited. -/
theorem getsToRun_of_joining {job : Job} {attempt : Option Int}
    (joining : updater.callers caller = .joining job attempt)
    (finished : ∀ thread, updater.handle = some thread →
      updater.threads thread = .exiting ∨ updater.threads thread = .exited) :
    updater.GetsToRun sha256 config job := by
  have joins : ∀ updater : Updater m n, updater.callers caller = .joining job attempt →
      (∀ thread, updater.handle = some thread → updater.threads thread = .exited) →
      updater.GetsToRun sha256 config job := by
    intro updater joining exited
    have joined : updater.step sha256 config (.join caller) =
        some { updater.setCaller caller (.spawning job attempt) with handle := none } := by
      simp only [step, Updater.join, joining]
      cases held : updater.handle with
      | none => rfl
      | some last => simp only [exited last held]
    have spawning : (updater.setCaller caller (.spawning job attempt)).callers caller =
        .spawning job attempt := by simp [setCaller]
    exact .head joined (getsToRun_of_spawning spawning)
  cases held : updater.handle with
  | none => exact joins updater joining (by simp [held])
  | some last =>
      obtain exiting | exited := finished last held
      · have exits : updater.step sha256 config (.exit last) =
            some (updater.setThread last .exited) := by
          simp only [step, exiting]
        refine .head exits (joins _ joining fun thread same => ?_)
        rw [setThread, held] at same
        cases same
        simp [setThread]
      · refine joins updater joining fun thread same => ?_
        rw [held] at same
        cases same
        exact exited

/-- One body of a job at most is running. The phase is set exactly while one is running or
being started. Once a body is over, or could not be spawned, the phase can be settled, and a
caller that then asks for a job can get it running. -/
structure OneJob (sha256 : Bytes → ArtifactDigest) (config : Config) (updater : Updater m n) :
    Prop where
  one : ∀ first second, (updater.threads first).isRunning = true →
    (updater.threads second).isRunning = true → first = second
  phase : updater.status.phase ≠ .idle ↔ (∃ thread, (updater.threads thread).isRunning = true) ∨
    ∃ caller, (updater.callers caller).starting = true
  settles : ∀ thread, updater.threads thread = .running .returned ∨
    updater.threads thread = .running .unwound →
      ∃ after, updater.step sha256 config (.settle thread) = some after ∧
        after.status.phase = .idle ∧ ∀ other, (after.threads other).isRunning = false
  refused : ∀ caller text, updater.callers caller = .refused text →
    ∃ after, updater.step sha256 config (.giveUp caller) = some after ∧
      after.status.phase = .idle
  starts : ∀ caller job attempt, updater.callers caller = .begins job attempt →
    updater.status.phase = .idle → updater.jobLock = none → updater.GetsToRun sha256 config job

theorem Exclusive.oneJob (exclusive : updater.Exclusive) : updater.OneJob sha256 config where
  one := exclusive.one
  phase := exclusive.phase
  settles := by
    intro thread finished
    have settled : ∃ after, updater.step sha256 config (.settle thread) = some after ∧
        after.status.phase = .idle := by
      obtain returned | unwound := finished
      · exact ⟨_, by simp only [step, Updater.settle, returned]; rfl, rfl⟩
      · exact ⟨_, by simp only [step, Updater.settle, unwound]; rfl, rfl⟩
    obtain ⟨after, stepped, idle⟩ := settled
    exact ⟨after, stepped, idle, ((exclusive_step stepped exclusive).of_idle idle).1⟩
  refused := by
    intro caller text refused
    exact ⟨_, by simp only [step, Updater.giveUp, refused]; rfl, rfl⟩
  starts := by
    intro caller job attempt begins idle free
    obtain ⟨quiet, -⟩ := exclusive.of_idle idle
    let locked : Updater m n :=
      { updater.setCaller caller (.locked job attempt) with jobLock := some caller }
    let entered : Updater m n :=
      { locked.setCaller caller (.joining job attempt) with
        status := { updater.status with phase := job.phase } }
    have locks : updater.step sha256 config (.lock caller) = some locked := by
      simp only [step, Updater.lock, begins, free, locked]
    have enters : locked.step sha256 config (.enter caller) = some entered := by
      simp [step, Updater.enter, locked, entered, setCaller, idle]
    have joining : entered.callers caller = .joining job attempt := by
      simp [entered, setCaller]
    refine .head locks (.head enters (getsToRun_of_joining joining ?_))
    intro thread held
    have there : updater.threads thread ≠ .absent := exclusive.spawned thread held
    have still := quiet thread
    have same : entered.threads thread = updater.threads thread := rfl
    rw [same]
    cases now : updater.threads thread with
    | absent => exact absurd now there
    | running stage => simp [now, Thread.isRunning] at still
    | exiting => exact .inl rfl
    | exited => exact .inr rfl

/-- **At most one updater job**, in every run of any callers, threads and workers. -/
theorem at_most_one_job (sha256 : Bytes → ArtifactDigest) (config : Config) (m n : Nat)
    (lastCheck : Option Record) {updater : Updater m n}
    (run : Moves (step sha256 config) unguarded (new config m n lastCheck) updater) :
    updater.OneJob sha256 config := by
  have exclusive : updater.Exclusive :=
    Moves.invariant _ (fun _ _ _ _ stepped => exclusive_step stepped) run
      (exclusive_new config lastCheck)
  exact exclusive.oneJob

/-- An updater that applies what a check finds. -/
def automatic : Config where
  base := ['u', '/']
  autoApply := true
  intervalMs := 0

/-- A caller asks for a check, and gets it on a thread. -/
def checks (caller : Fin m) : List (Step m n) :=
  [.call caller (.checkNow .user) 0, .lock caller, .enter caller, .join caller, .spawn caller none,
    .unlock caller, .attempt caller]

theorem at_most_one_job_checking : ∃ updater : Updater 2 1,
    updater.status.phase = .checking ∧ updater.OneJob ArtifactDigest.leading automatic := by
  obtain ⟨updater, run, checking⟩ := Moves.of_check (step ArtifactDigest.leading automatic)
    unguarded (new automatic 2 1 none) (checks 0 ++ [.call 1 (.checkNow .user) 0, .lock 1, .enter 1])
    (fun updater => updater.status.phase == .checking) (by decide +kernel)
  exact ⟨updater, beq_iff_eq.mp checking, at_most_one_job _ automatic 2 1 none run⟩

end Updater

end Retrovert.Update
