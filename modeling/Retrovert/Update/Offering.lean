import Retrovert.Apply.Selecting
import Retrovert.Update.Exclusion

/-!
# What the status says

A check is answered against the generation that the status says is installed, and what it
finds is put into the status later, without a lock held in between. Callers come and go
meanwhile, jobs unwind, and threads may not be spawned. Since no two jobs run at once, the
status is moved by one job at a time and says what is so: a plan on offer is not what is
installed, and a plan being applied is the one the job is at (`status_is_true`).
-/

set_option autoImplicit false

namespace Retrovert.Update

open Retrovert.Runs
open Retrovert.Transport (ArtifactDigest Cache)
open Retrovert.Apply (Plan)

/-! ## What a check finds -/

/-- What asking a channel came to. -/
inductive Attempt where
  | skipped
  | authenticated (generationId : String) (manifest : Tuf.Manifest)

/-- What a check makes of it, given the generation this consumer has. -/
def resolve (target : Option String) (cache : Cache) (installed : Option String) :
    Except String Attempt → Except String Outcome
  | .error text => .error text
  | .ok .skipped => .ok .skipped
  | .ok (.authenticated generationId manifest) =>
      if installed = some generationId then .ok (.upToDate generationId)
      else .ok (.updateAvailable (Apply.Plan.select generationId manifest target cache).toPlan)

/-- What a check offers is not what is installed. -/
theorem resolve_offers {target : Option String} {cache : Cache} {installed : Option String}
    {attempt : Except String Attempt} {plan : Plan}
    (offers : resolve target cache installed attempt = .ok (.updateAvailable plan)) :
    installed ≠ some plan.generationId := by
  unfold resolve at offers
  split at offers
  · cases offers
  · cases offers
  · split at offers
    · cases offers
    · rename_i apart
      cases offers
      exact apart

theorem Status.applying_checked (status : Status) (outcome : Except String Outcome)
    (lastCheck : Option Record) :
    (status.checked outcome lastCheck).applying = status.applying := by
  rw [checked.eq_def]
  split <;> rfl

theorem Status.applying_applied (status : Status) (plan : Plan)
    (result : Except Apply.Error String) : (status.applied plan result).applying = none := by
  rw [applied.eq_def]
  split <;> rfl

/-- A check that offers nothing installed leaves nothing installed on offer. -/
theorem Status.fresh_checked {status : Status} {outcome : Except String Outcome}
    {lastCheck : Option Record}
    (fresh : ∀ plan, status.available = some plan → status.installed ≠ some plan.generationId)
    (offers : ∀ plan, outcome = .ok (.updateAvailable plan) →
      status.installed ≠ some plan.generationId) (plan : Plan)
    (available : (status.checked outcome lastCheck).available = some plan) :
    (status.checked outcome lastCheck).installed ≠ some plan.generationId := by
  rw [checked.eq_def] at available ⊢
  split at available
  · cases available
    exact offers _ rfl
  · cases available
  · exact fresh plan available
  · exact fresh plan available

/-- An apply takes what it has installed off the offer. -/
theorem Status.fresh_applied {status : Status} {applied : Plan}
    {result : Except Apply.Error String}
    (fresh : ∀ plan, status.available = some plan → status.installed ≠ some plan.generationId)
    (named : ∀ generation, result = .ok generation → generation = applied.generationId)
    (plan : Plan) (available : (status.applied applied result).available = some plan) :
    (status.applied applied result).installed ≠ some plan.generationId := by
  cases result with
  | error error => exact fresh plan available
  | ok generation =>
      obtain ⟨-, other⟩ := Option.filter_eq_some_iff.mp available
      rw [named generation rfl]
      intro same
      exact (bne_iff_ne.mp other) (Option.some.inj same).symm

/-! ## What the job is at -/

/-- The plan that a job is applying. -/
def Stage.underway : Stage → Option Plan
  | .preparing plan _ | .filling plan _ _ _ | .sweeping plan _ _ _ _ | .placed plan _ _ _ _
  | .releasing plan _ _ _ | .recording plan | .applied plan _ => some plan
  | .entered _ | .checking _ _ | .checked _ _ _ | .scheduling _ _ | .deciding _ _
  | .applies _ _ | .returned | .unwound => none

/-- What a job carries along agrees with the status. -/
def Stage.Agrees (status : Status) : Stage → Prop
  | .checking _ installed => installed = status.installed
  | .checked _ outcome _ => ∀ plan, outcome = .ok (.updateAvailable plan) →
      status.installed ≠ some plan.generationId
  | .applied plan result => ∀ generation, result = .ok generation →
      generation = plan.generationId
  | _ => True

namespace Updater

variable {m n : Nat}

/-- A check resolves what the channel answers against the generation it was given, and a
generation that is found installed is the one that was asked for. -/
def Answered (target : Option String) (updater : Updater m n) : Step m n → Prop
  | .job thread (.checked outcome _) => ∀ priority installed,
      updater.threads thread = .running (.checking priority installed) →
        ∃ cache attempt, outcome = resolve target cache installed attempt
  | .job thread (.prepared (.ok (some generation))) => ∀ plan priority,
      updater.threads thread = .running (.preparing plan priority) →
        generation = plan.generationId
  | _ => True

/-- The status and the job that moves it. -/
structure Truthful (updater : Updater m n) : Prop where
  fresh : ∀ plan, updater.status.available = some plan →
    updater.status.installed ≠ some plan.generationId
  agrees : ∀ thread stage, updater.threads thread = .running stage →
    stage.Agrees updater.status
  underway : ∀ thread stage, updater.threads thread = .running stage → stage ≠ .unwound →
    updater.status.applying = stage.underway
  phase : ∀ thread stage, updater.threads thread = .running stage →
    stage.underway.isSome = true → updater.status.phase = .applying
  quiet : (∀ thread, (updater.threads thread).isRunning = false) →
    updater.status.applying = none

theorem truthful_new (config : Config) (lastCheck : Option Record) :
    (new config m n lastCheck).Truthful where
  fresh := by simp [new]
  agrees := by simp [new]
  underway := by simp [new]
  phase := by simp [new]
  quiet _ := rfl

variable {sha256 : Bytes → ArtifactDigest} {config : Config} {target : Option String}
  {updater after : Updater m n} {caller : Fin m} {thread : Nat} {stage later : Stage}

/-! ## Steps of the job -/

/-- The one job there is goes on, and agrees with the status as it is then. -/
theorem Truthful.goes (exclusive : updater.Exclusive)
    (at_work : updater.threads thread = .running stage)
    (threads : after.threads = Function.update updater.threads thread (.running later))
    (fresh : ∀ plan, after.status.available = some plan →
      after.status.installed ≠ some plan.generationId)
    (agrees : later.Agrees after.status)
    (underway : later ≠ .unwound → after.status.applying = later.underway)
    (phase : later.underway.isSome = true → after.status.phase = .applying) :
    after.Truthful := by
  have only : ∀ other found, after.threads other = .running found → found = later := by
    intro other found running
    rw [threads] at running
    by_cases same : other = thread
    · rw [same, Function.update_self, Thread.running.injEq] at running
      exact running.symm
    · rw [Function.update_of_ne same] at running
      exact absurd (exclusive.one other thread (by rw [running]; rfl) (by rw [at_work]; rfl)) same
  refine ⟨fresh, ?_, ?_, ?_, ?_⟩
  · intro other found running
    rw [only other found running]
    exact agrees
  · intro other found running
    rw [only other found running]
    exact underway
  · intro other found running
    rw [only other found running]
    exact phase
  · intro none
    have running := none thread
    rw [threads, Function.update_self] at running
    cases running

/-- A job that goes on with its plan, or without one, leaves the status as it is. -/
theorem Truthful.stays (truthful : updater.Truthful) (exclusive : updater.Exclusive)
    (at_work : updater.threads thread = .running stage)
    (threads : after.threads = Function.update updater.threads thread (.running later))
    (status : after.status = updater.status) (agrees : later.Agrees updater.status)
    (plan : later.underway = stage.underway ∧ stage ≠ .unwound ∨ later = .unwound) :
    after.Truthful := by
  refine .goes exclusive at_work threads ?_ ?_ ?_ ?_
  · rw [status]
    exact truthful.fresh
  · rw [status]
    exact agrees
  · intro goes
    rw [status]
    rcases plan with ⟨same, here⟩ | unwinds
    · rw [same]
      exact truthful.underway thread stage at_work here
    · exact absurd unwinds goes
  · intro applies
    rw [status]
    rcases plan with ⟨same, -⟩ | unwinds
    · rw [same] at applies
      exact truthful.phase thread stage at_work applies
    · rw [unwinds] at applies
      cases applies

/-- What a step of a job with transfers to see to leaves alone: the status, the schedule, and
the plan. -/
structure SeesTo (plan : Plan) (before after : Updater m n) (thread : Nat) : Prop where
  status : after.status = before.status
  schedule : after.schedule = before.schedule
  threads : ∃ later, after.threads = Function.update before.threads thread (.running later) ∧
    (later.underway = some plan ∨ later = .unwound) ∧ later.Agrees before.status

theorem SeesTo.goes (system : Queue.System n) (entries : Queue.EntryId → Nat) (count : Nat)
    {plan : Plan} (goesOn : later.underway = some plan ∨ later = .unwound)
    (agrees : later.Agrees updater.status) :
    SeesTo plan updater ({ updater with system, entries, count }.goesTo thread later) thread :=
  ⟨rfl, rfl, later, rfl, goesOn, agrees⟩

theorem fill_seesTo (plan : Plan) (priority : Queue.Priority) (active : Acquisition) (next : Nat)
    (nowMs : Int) (spawned : Fin n → Bool) :
    SeesTo plan updater
      (updater.fill config thread plan priority active next nowMs spawned) thread := by
  rw [fill]
  split
  · exact .goes updater.system updater.entries updater.count (.inl rfl) trivial
  · split
    · exact .goes updater.system updater.entries updater.count (.inl rfl) trivial
    · rename_i request _
      have keeps := enqueue_keeps updater request nowMs spawned
      generalize updater.enqueue request nowMs spawned = queued at keeps
      obtain ⟨queued, taken⟩ := queued
      obtain ⟨system, entries, count, rfl⟩ := keeps
      cases taken with
      | none => exact .goes system entries count (.inl rfl) trivial
      | some id => exact .goes system entries count (.inl rfl) trivial

theorem sweep_seesTo {plan : Plan} {priority : Queue.Priority} {active : Acquisition}
    {next cursor : Nat} {answer : Answer n}
    (stepped : updater.sweep thread plan priority active next cursor answer = some after) :
    SeesTo plan updater after thread := by
  simp only [sweep] at stepped
  split at stepped
  · split at stepped
    · cases stepped
      exact .goes updater.system updater.entries updater.count (.inl rfl) trivial
    · cases stepped
      exact .goes updater.system updater.entries updater.count (.inl rfl) trivial
  · split at stepped
    · split at stepped
      · cases stepped
        exact .goes updater.system updater.entries updater.count (.inl rfl) trivial
      · cases stepped
        exact .goes _ updater.entries updater.count (.inl rfl) trivial
      · cases stepped
    all_goals
      cases stepped
      exact .goes updater.system updater.entries updater.count (.inl rfl) trivial

theorem release_seesTo {plan : Plan} {failed : Option Apply.Error}
    {cancels frees : List Queue.EntryId}
    (at_work : updater.threads thread = .running (.releasing plan failed cancels frees)) :
    SeesTo plan updater (updater.release thread plan failed cancels frees) thread := by
  cases cancels with
  | cons id cancels => exact .goes _ updater.entries updater.count (.inl rfl) trivial
  | nil =>
      cases frees with
      | cons id frees =>
          simp only [release]
          split
          · exact .goes _ updater.entries updater.count (.inl rfl) trivial
          · refine ⟨rfl, rfl, .releasing plan failed [] (id :: frees), ?_, .inl rfl, trivial⟩
            rw [← at_work, Function.update_eq_self]
      | nil =>
          cases failed with
          | some error =>
              refine .goes updater.system updater.entries updater.count (.inl rfl) ?_
              intro generation failed
              cases failed
          | none => exact .goes updater.system updater.entries updater.count (.inr rfl) trivial

theorem Truthful.seesTo (truthful : updater.Truthful) (exclusive : updater.Exclusive)
    {plan : Plan} (at_work : updater.threads thread = .running stage)
    (applies : stage.underway = some plan) (sees : SeesTo plan updater after thread) :
    after.Truthful := by
  obtain ⟨status, -, later, threads, plan, agrees⟩ := sees
  refine truthful.stays exclusive at_work threads status agrees ?_
  rcases plan with same | unwinds
  · refine .inl ⟨same.trans applies.symm, ?_⟩
    rintro rfl
    cases applies
  · exact .inr unwinds

/-- **A step of the job keeps the status true.** -/
theorem Truthful.advance {answer : Answer n} (truthful : updater.Truthful)
    (exclusive : updater.Exclusive) (answered : updater.Answered target (.job thread answer))
    (at_work : updater.threads thread = .running stage)
    (stepped : updater.advance config thread stage answer = some after) : after.Truthful := by
  have applying := truthful.underway thread stage at_work
  rw [advance.eq_def] at stepped
  split at stepped
  case h_1 priority =>
    cases stepped
    exact truthful.stays exclusive at_work rfl rfl rfl (.inl ⟨rfl, Stage.noConfusion⟩)
  case h_2 plan priority =>
    cases stepped
    exact truthful.stays exclusive at_work rfl rfl trivial (.inl ⟨rfl, Stage.noConfusion⟩)
  case h_3 priority installed outcome lastCheck =>
    cases stepped
    refine truthful.stays exclusive at_work rfl rfl ?_ (.inl ⟨rfl, Stage.noConfusion⟩)
    intro plan offers
    obtain ⟨cache, attempt, rfl⟩ := answered priority installed at_work
    rw [← truthful.agrees thread _ at_work]
    exact resolve_offers offers
  case h_4 priority outcome lastCheck =>
    cases stepped
    have agrees := truthful.agrees thread _ at_work
    refine .goes exclusive at_work rfl (Status.fresh_checked truthful.fresh agrees) trivial ?_
      Bool.noConfusion
    intro _
    exact (Status.applying_checked _ _ _).trans (applying Stage.noConfusion)
  case h_5 priority outcome =>
    cases stepped
    exact truthful.stays exclusive at_work rfl rfl trivial (.inl ⟨rfl, Stage.noConfusion⟩)
  case h_6 priority outcome =>
    split at stepped
    · cases stepped
      exact truthful.stays exclusive at_work rfl rfl trivial (.inl ⟨rfl, Stage.noConfusion⟩)
    · cases stepped
      exact truthful.stays exclusive at_work rfl rfl trivial (.inl ⟨rfl, Stage.noConfusion⟩)
  case h_7 plan priority =>
    cases stepped
    exact .goes exclusive at_work rfl truthful.fresh trivial (fun _ => rfl) (fun _ => rfl)
  case h_8 plan priority result =>
    split at stepped
    · cases stepped
      refine truthful.stays exclusive at_work rfl rfl ?_ (.inl ⟨rfl, Stage.noConfusion⟩)
      intro generation failed
      cases failed
    · rename_i installed
      cases stepped
      refine truthful.stays exclusive at_work rfl rfl ?_ (.inl ⟨rfl, Stage.noConfusion⟩)
      intro generation found
      cases found
      exact answered plan priority at_work
    · cases stepped
      exact truthful.stays exclusive at_work rfl rfl trivial (.inl ⟨rfl, Stage.noConfusion⟩)
  case h_9 plan priority active next nowMs spawned =>
    cases stepped
    exact truthful.seesTo exclusive at_work rfl (fill_seesTo _ _ _ _ _ _)
  case h_10 => exact truthful.seesTo exclusive at_work rfl (sweep_seesTo stepped)
  case h_11 plan priority active next cursor =>
    cases stepped
    exact truthful.seesTo exclusive at_work rfl
      (.goes _ updater.entries updater.count (.inl rfl) trivial)
  case h_12 plan failed cancels frees =>
    cases stepped
    exact truthful.seesTo exclusive at_work rfl (release_seesTo at_work)
  case h_13 plan result =>
    cases stepped
    refine truthful.stays exclusive at_work rfl rfl ?_ (.inl ⟨rfl, Stage.noConfusion⟩)
    intro generation recorded
    cases result with
    | error _ => cases recorded
    | ok _ => cases recorded; rfl
  case h_14 plan result =>
    cases stepped
    refine .goes exclusive at_work rfl ?_ trivial ?_ Bool.noConfusion
    · exact Status.fresh_applied truthful.fresh (truthful.agrees thread _ at_work)
    · intro _
      exact Status.applying_applied _ _ _
  case h_15 => cases stepped

/-- A job that unwinds keeps its plan while it has transfers to let go of. -/
theorem Truthful.unwind (truthful : updater.Truthful) (exclusive : updater.Exclusive)
    (at_work : updater.threads thread = .running stage)
    (stepped : updater.unwind thread stage = some after) : after.Truthful := by
  rw [unwind.eq_def] at stepped
  split at stepped
  case h_1 =>
    cases stepped
    exact truthful.stays exclusive at_work rfl rfl trivial (.inl ⟨rfl, Stage.noConfusion⟩)
  case h_2 =>
    cases stepped
    exact truthful.stays exclusive at_work rfl rfl trivial (.inl ⟨rfl, Stage.noConfusion⟩)
  case h_3 =>
    cases stepped
    exact truthful.stays exclusive at_work rfl rfl trivial (.inl ⟨rfl, Stage.noConfusion⟩)
  case h_4 => cases stepped
  case h_5 => cases stepped
  case h_6 => cases stepped
  case h_7 =>
    cases stepped
    exact truthful.stays exclusive at_work rfl rfl trivial (.inr rfl)

/-! ## The other steps -/

/-- A step that is none of a job's and sets neither the phase nor the schedule. -/
def isBystander : Step m n → Bool
  | .call _ _ _ | .lock _ | .join _ | .unlock _ | .queue _ | .drop | .dropCancels | .dropJoins =>
      true
  | .enter _ | .spawn _ _ | .giveUp _ | .attempt _ | .job _ _ | .panic _ | .settle _ | .exit _ =>
      false

/-- Such a step leaves the threads, the status and the schedule as they are. -/
theorem bystander_step {action : Step m n} (stands : isBystander action = true)
    (stepped : updater.step sha256 config action = some after) :
    after.threads = updater.threads ∧ after.status = updater.status ∧
      after.schedule = updater.schedule := by
  cases action with
  | call caller call nowMs =>
      simp only [step, Updater.call] at stepped
      split at stepped
      · split at stepped
        · split at stepped
          · cases stepped
            exact ⟨rfl, rfl, rfl⟩
          · cases stepped
            exact ⟨rfl, rfl, rfl⟩
        · cases stepped
          exact ⟨rfl, rfl, rfl⟩
        · cases stepped
          exact ⟨rfl, rfl, rfl⟩
      · cases stepped
  | lock caller =>
      simp only [step, Updater.lock] at stepped
      split at stepped
      · cases stepped
        exact ⟨rfl, rfl, rfl⟩
      · cases stepped
  | join caller =>
      simp only [step, Updater.join] at stepped
      split at stepped
      · split at stepped
        · cases stepped
          exact ⟨rfl, rfl, rfl⟩
        · split at stepped
          · cases stepped
            exact ⟨rfl, rfl, rfl⟩
          · cases stepped
      · cases stepped
  | unlock caller =>
      simp only [step, Updater.unlock] at stepped
      split at stepped
      · cases stepped
        exact ⟨rfl, rfl, rfl⟩
      · cases stepped
  | queue step =>
      obtain ⟨system, rfl⟩ | ⟨-, request, nowMs, spawned, rfl⟩ := queueStep_cases stepped
      · exact ⟨rfl, rfl, rfl⟩
      · obtain ⟨system, entries, count, same⟩ := enqueue_keeps updater request nowMs spawned
        rw [same]
        exact ⟨rfl, rfl, rfl⟩
  | drop =>
      simp only [step, Updater.drop] at stepped
      split at stepped
      · split at stepped
        · cases stepped
          exact ⟨rfl, rfl, rfl⟩
        · cases stepped
      · cases stepped
  | dropCancels =>
      simp only [step, Updater.dropCancels] at stepped
      split at stepped
      · split at stepped
        · cases stepped
          exact ⟨rfl, rfl, rfl⟩
        · cases stepped
          exact ⟨rfl, rfl, rfl⟩
      · cases stepped
  | dropJoins =>
      simp only [step, Updater.dropJoins] at stepped
      split at stepped
      · cases stepped
        exact ⟨rfl, rfl, rfl⟩
      · split at stepped
        · cases stepped
          exact ⟨rfl, rfl, rfl⟩
        · cases stepped
      · cases stepped
  | _ => cases stands

/-- The threads and the status are all that counts. -/
theorem Truthful.congr (truthful : updater.Truthful) (threads : after.threads = updater.threads)
    (status : after.status = updater.status) : after.Truthful := by
  refine ⟨?_, ?_, ?_, ?_, ?_⟩
  · rw [status]
    exact truthful.fresh
  · rw [threads, status]
    exact truthful.agrees
  · rw [threads, status]
    exact truthful.underway
  · rw [threads, status]
    exact truthful.phase
  · rw [threads, status]
    exact truthful.quiet

/-- Where no job runs, only what is on offer counts. -/
theorem Truthful.resting (truthful : updater.Truthful)
    (none : ∀ thread, (after.threads thread).isRunning = false)
    (available : after.status.available = updater.status.available)
    (installed : after.status.installed = updater.status.installed)
    (applying : after.status.applying = .none) : after.Truthful := by
  have nobody : ∀ thread stage, after.threads thread ≠ .running stage := by
    intro thread stage running
    have stopped := none thread
    rw [running] at stopped
    cases stopped
  refine ⟨?_, ?_, ?_, ?_, fun _ => applying⟩
  · rw [available, installed]
    exact truthful.fresh
  · exact fun thread stage running => absurd running (nobody thread stage)
  · exact fun thread stage running => absurd running (nobody thread stage)
  · exact fun thread stage running => absurd running (nobody thread stage)

theorem Truthful.enter (truthful : updater.Truthful) (exclusive : updater.Exclusive)
    (stepped : updater.enter caller = some after) : after.Truthful := by
  simp only [Updater.enter] at stepped
  split at stepped
  · split at stepped
    · cases stepped
      exact truthful.congr rfl rfl
    · rename_i idle
      cases stepped
      obtain ⟨none, -⟩ := exclusive.of_idle (not_not.mp idle)
      exact truthful.resting none rfl rfl (truthful.quiet none)
  · cases stepped

theorem Truthful.spawn {error : Option String} (truthful : updater.Truthful)
    (exclusive : updater.Exclusive) (stepped : updater.spawn caller error = some after) :
    after.Truthful := by
  simp only [Updater.spawn] at stepped
  split at stepped
  · rename_i job attempt spawning
    have none : ∀ thread, (updater.threads thread).isRunning = false := fun thread =>
      exclusive.apart caller thread (by rw [spawning]; rfl)
    split at stepped
    · cases stepped
      have only : ∀ thread stage, Function.update updater.threads updater.next
          (.running (.entered job)) thread = .running stage → stage = .entered job := by
        intro thread stage running
        by_cases same : thread = updater.next
        · rw [same, Function.update_self, Thread.running.injEq] at running
          exact running.symm
        · rw [Function.update_of_ne same] at running
          have stopped := none thread
          rw [running] at stopped
          cases stopped
      refine ⟨truthful.fresh, ?_, ?_, ?_, fun _ => truthful.quiet none⟩
      · intro thread stage running
        rw [only thread stage running]
        trivial
      · intro thread stage running _
        rw [only thread stage running]
        exact truthful.quiet none
      · intro thread stage running applies
        rw [only thread stage running] at applies
        cases applies
    · cases stepped
      exact truthful.congr rfl rfl
  · cases stepped

theorem Truthful.settle (truthful : updater.Truthful) (exclusive : updater.Exclusive)
    (stepped : updater.settle thread = some after) : after.Truthful := by
  have settled := exclusive.settle stepped
  simp only [Updater.settle] at stepped
  split at stepped
  · rename_i returned
    cases stepped
    obtain ⟨none, -⟩ := settled.of_idle rfl
    exact truthful.resting none rfl rfl (truthful.underway thread _ returned Stage.noConfusion)
  · cases stepped
    obtain ⟨none, -⟩ := settled.of_idle rfl
    exact truthful.resting none rfl rfl rfl
  · cases stepped

/-- A thread whose job is over leaves the status as it is when it exits. -/
theorem Truthful.exit (truthful : updater.Truthful)
    (exiting : updater.threads thread = .exiting) :
    (updater.setThread thread .exited).Truthful := by
  have runs : ∀ other stage, Function.update updater.threads thread .exited other =
      .running stage ↔ updater.threads other = .running stage := by
    intro other stage
    by_cases same : other = thread
    · subst same
      simp [exiting]
    · rw [Function.update_of_ne same]
  refine ⟨truthful.fresh, ?_, ?_, ?_, ?_⟩
  · exact fun other stage running => truthful.agrees other stage ((runs other stage).mp running)
  · exact fun other stage running => truthful.underway other stage ((runs other stage).mp running)
  · exact fun other stage running => truthful.phase other stage ((runs other stage).mp running)
  · intro none
    refine truthful.quiet fun other => ?_
    rw [← none other]
    exact (read_update Thread.isRunning (by rw [exiting]; rfl) other).symm

/-- **Every step keeps the status true.** -/
theorem truthful_step {action : Step m n} (answered : updater.Answered target action)
    (stepped : updater.step sha256 config action = some after) (exclusive : updater.Exclusive)
    (truthful : updater.Truthful) : after.Truthful := by
  by_cases stands : isBystander action = true
  · obtain ⟨threads, status, -⟩ := bystander_step stands stepped
    exact truthful.congr threads status
  cases action with
  | enter caller => exact truthful.enter exclusive stepped
  | spawn caller error => exact truthful.spawn exclusive stepped
  | giveUp caller =>
      simp only [step, Updater.giveUp] at stepped
      split at stepped
      · rename_i text refused
        cases stepped
        have none : ∀ thread, (updater.threads thread).isRunning = false := fun thread =>
          exclusive.apart caller thread (by rw [refused]; rfl)
        exact truthful.resting none rfl rfl (truthful.quiet none)
      · cases stepped
  | attempt caller =>
      simp only [step, Updater.attempt] at stepped
      split at stepped
      · cases stepped
        exact truthful.congr rfl rfl
      · cases stepped
  | job thread answer =>
      simp only [step] at stepped
      split at stepped
      · rename_i stage at_work
        exact truthful.advance exclusive answered at_work stepped
      · cases stepped
  | panic thread =>
      simp only [step] at stepped
      split at stepped
      · rename_i stage at_work
        exact truthful.unwind exclusive at_work stepped
      · cases stepped
  | settle thread => exact truthful.settle exclusive stepped
  | exit thread =>
      simp only [step] at stepped
      split at stepped
      · rename_i exiting
        cases stepped
        exact truthful.exit exiting
      · cases stepped
  | _ => exact absurd rfl stands

/-! ## What holds in every run -/

theorem truthful_run (lastCheck : Option Record)
    (run : Moves (step sha256 config) (Answered target) (new config m n lastCheck) updater) :
    updater.Exclusive ∧ updater.Truthful := by
  refine run.invariant (fun updater => updater.Exclusive ∧ updater.Truthful) ?_
    ⟨exclusive_new config lastCheck, truthful_new config lastCheck⟩
  rintro before action after answered stepped ⟨exclusive, truthful⟩
  exact ⟨exclusive_step stepped exclusive, truthful_step answered stepped exclusive truthful⟩

/-- **What is on offer is not installed, and what is being applied is the plan that the running
job is at**, until that job has unwound and the phase is settled. A job that applies a plan
shows it, and an idle status shows none. -/
theorem status_is_true (lastCheck : Option Record)
    (run : Moves (step sha256 config) (Answered target) (new config m n lastCheck) updater) :
    (∀ plan, updater.status.available = some plan →
        updater.status.installed ≠ some plan.generationId) ∧
      (∀ plan, updater.status.applying = some plan → updater.status.phase ≠ .idle ∧
        ∃ thread stage, updater.threads thread = .running stage ∧
          (stage.underway = some plan ∨ stage = .unwound)) ∧
      ∀ thread stage plan, updater.threads thread = .running stage →
        stage.underway = some plan →
          updater.status.applying = some plan ∧ updater.status.phase = .applying := by
  obtain ⟨exclusive, truthful⟩ := truthful_run lastCheck run
  refine ⟨truthful.fresh, ?_, ?_⟩
  · intro plan applying
    obtain ⟨thread, runs⟩ : ∃ thread, (updater.threads thread).isRunning = true := by
      by_contra none
      rw [not_exists] at none
      rw [truthful.quiet fun thread => Bool.eq_false_iff.mpr (none thread)] at applying
      cases applying
    obtain ⟨stage, at_work⟩ := Thread.isRunning_iff.mp runs
    refine ⟨exclusive.phase.mpr (.inl ⟨thread, runs⟩), thread, stage, at_work, ?_⟩
    by_cases unwound : stage = .unwound
    · exact .inr unwound
    · exact .inl ((truthful.underway thread stage at_work unwound).symm.trans applying)
  · intro thread stage plan at_work applies
    refine ⟨?_, truthful.phase thread stage at_work (by rw [applies]; rfl)⟩
    refine (truthful.underway thread stage at_work ?_).trans applies
    rintro rfl
    cases applies

/-! ### A generation with no artifacts -/

/-- The manifest of a generation that carries nothing. -/
def bareManifest : Tuf.Manifest := ⟨1, 7, "r", "p", []⟩

/-- The channel offers it, and nothing is installed yet. -/
def offersBare : Step 1 1 := .job 0 (.checked (resolve none .empty none
  (.ok (.authenticated "g" bareManifest))) none)

/-- The check is answered so when it is at it, and with nothing installed. -/
def answersBare (updater : Updater 1 1) : Step 1 1 → Bool
  | .job thread (.checked (.ok (.updateAvailable plan)) _) =>
      decide (plan = ⟨"g", 7, []⟩) &&
        (match updater.threads thread with
          | .running (.checking _ none) => true
          | _ => false)
  | .job _ (.checked _ _) | .job _ (.prepared (.ok (some _))) => false
  | _ => true

theorem answered_of_answersBare {updater : Updater 1 1} {action : Step 1 1}
    (answers : answersBare updater action = true) : updater.Answered none action := by
  unfold answersBare at answers
  split at answers
  · rename_i thread plan lastCheck
    rw [Bool.and_eq_true, decide_eq_true_eq] at answers
    obtain ⟨rfl, at_work⟩ := answers
    intro priority installed running
    rw [running] at at_work
    cases installed with
    | none => exact ⟨.empty, .ok (.authenticated "g" bareManifest), rfl⟩
    | some _ => cases at_work
  · cases answers
  · cases answers
  · rename_i other otherChecked otherPrepared
    unfold Answered
    split
    · rename_i thread outcome lastCheck
      exact absurd rfl (otherChecked thread outcome lastCheck)
    · rename_i thread generation
      exact absurd rfl (otherPrepared thread generation)
    · trivial

theorem status_is_true_applying : ∃ updater : Updater 1 1,
    updater.status.applying = some ⟨"g", 7, []⟩ ∧
      (∀ plan, updater.status.available = some plan →
        updater.status.installed ≠ some plan.generationId) ∧
      (∀ plan, updater.status.applying = some plan → updater.status.phase ≠ .idle ∧
        ∃ thread stage, updater.threads thread = .running stage ∧
          (stage.underway = some plan ∨ stage = .unwound)) ∧
      ∀ thread stage plan, updater.threads thread = .running stage →
        stage.underway = some plan →
          updater.status.applying = some plan ∧ updater.status.phase = .applying := by
  obtain ⟨updater, run, applying⟩ := Moves.of_check (step ArtifactDigest.leading automatic)
    (fun updater action => answersBare updater action = true) (new automatic 1 1 none)
    (checks 0 ++ [.job 0 .none, offersBare, .job 0 .none, .job 0 .none, .job 0 .none, .job 0 .none])
    (fun updater => updater.status.applying = some ⟨"g", 7, []⟩) (by decide +kernel)
  exact ⟨updater, of_decide_eq_true applying, status_is_true none
    (run.mono fun _ _ answers => answered_of_answersBare answers)⟩

end Updater

end Retrovert.Update
