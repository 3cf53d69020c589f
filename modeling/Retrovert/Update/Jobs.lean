import Retrovert.Apply.Plan
import Retrovert.Queue.Process

/-!
# The updater and its jobs

An updater checks its channel and applies what it finds on a thread of its own, one job at a
time. Its callers put a job on the thread: under the job lock they look at the phase, set it,
wait for the last thread to exit, and spawn the next. The job settles the phase when its body
has returned or unwound. Dropping the updater cancels the transfers of its queue, slot by
slot, and waits for the thread.

Any number of callers, the threads, the queue and its workers take their steps in any order.
What the channel answers, what the filesystem does and whether a thread can be spawned are
part of the steps. The entries that are queued are numbered in the order they were.
-/

set_option autoImplicit false

namespace Retrovert.Update

open Retrovert.Transport (Text ArtifactDigest)
open Retrovert.Queue (EntryId Priority Request System)
open Retrovert.Apply (Plan)

/-! ## Status -/

/-- What an updater is doing right now. -/
inductive Phase where
  | idle
  | checking
  | applying
deriving DecidableEq

/-- What a check concluded. -/
inductive Conclusion where
  | skipped
  | upToDate
  | updateAvailable
  | failed
deriving DecidableEq

/-- One check, as it is recorded. -/
structure Record where
  atMs : Int
  conclusion : Conclusion
  error : Option String
deriving DecidableEq

/-- What a check came to. -/
inductive Outcome where
  | skipped
  | upToDate (generationId : String)
  | updateAvailable (plan : Plan)

/-- Why a check or an apply did not get where it was going. -/
inductive JobError where
  | check (text : String)
  | apply (error : Apply.Error)
  | panicked
  | spawn (text : String)
deriving DecidableEq

/-- What a poll reads and the updater's thread writes. -/
structure Status where
  phase : Phase := .idle
  applying : Option Plan := none
  available : Option Plan := none
  lastCheck : Option Record := none
  lastError : Option JobError := none
  installed : Option String := none

/-- What a check leaves in the status. A skip is not an error. -/
def Status.checked (status : Status) (outcome : Except String Outcome)
    (lastCheck : Option Record) : Status :=
  match outcome with
  | .ok (.updateAvailable plan) =>
      { status with lastCheck, available := some plan, lastError := none }
  | .ok (.upToDate generationId) =>
      { status with lastCheck, available := none, lastError := none, installed := some generationId }
  | .ok .skipped => { status with lastCheck }
  | .error text => { status with lastCheck, lastError := some (.check text) }

/-- What an apply leaves in the status. The plan that was applied is no longer offered. -/
def Status.applied (status : Status) (plan : Plan) (result : Except Apply.Error String) : Status :=
  match result with
  | .ok generation =>
      { status with
          applying := none
          available := status.available.filter (·.generationId != plan.generationId)
          installed := some generation
          lastError := none }
  | .error error => { status with applying := none, lastError := some (.apply error) }

theorem Status.phase_checked (status : Status) (outcome : Except String Outcome)
    (lastCheck : Option Record) : (status.checked outcome lastCheck).phase = status.phase := by
  rw [checked.eq_def]
  split <;> rfl

theorem Status.phase_applied (status : Status) (plan : Plan)
    (result : Except Apply.Error String) : (status.applied plan result).phase = status.phase := by
  rw [applied.eq_def]
  split <;> rfl

/-! ## Schedule -/

/-- The interval between checks, stretched while attempts keep failing. -/
structure Schedule where
  intervalMs : Int
  lastAttemptMs : Option Int := none
  failures : Nat := 0

/-- The delay before a retry: one second, doubled up to thirty times. -/
def retryDelayMs (retryCount : Nat) : Int := 1000 * 2 ^ min retryCount 30

/-- A 64-bit difference, which stays within its range. -/
def saturatingSub (first second : Int) : Int := max (-2 ^ 63) (min (first - second) (2 ^ 63 - 1))

namespace Schedule

def waitMs (schedule : Schedule) : Int :=
  match schedule.failures with
  | 0 => schedule.intervalMs
  | prior + 1 => max schedule.intervalMs (retryDelayMs prior)

/-- Enough time has passed to attempt another check. -/
def due (schedule : Schedule) (nowMs : Int) : Bool :=
  schedule.lastAttemptMs.all fun last => schedule.waitMs ≤ saturatingSub nowMs last

def attempted (schedule : Schedule) (nowMs : Int) : Schedule :=
  { schedule with lastAttemptMs := some nowMs }

def succeeded (schedule : Schedule) : Schedule := { schedule with failures := 0 }

def failed (schedule : Schedule) : Schedule :=
  { schedule with failures := min (schedule.failures + 1) (2 ^ 32 - 1) }

/-- A check that did not get to ask, or failed, counts as a failure. -/
def checked (schedule : Schedule) : Except String Outcome → Schedule
  | .ok (.upToDate _) | .ok (.updateAvailable _) => schedule.succeeded
  | .ok .skipped | .error _ => schedule.failed

end Schedule

/-! ## Jobs -/

/-- What the updater's thread is asked to do. -/
inductive Job where
  | check (priority : Priority)
  | apply (plan : Plan) (priority : Priority)

def Job.phase : Job → Phase
  | .check _ => .checking
  | .apply _ _ => .applying

/-- The transfers an apply holds: entries of the queue, and which artifacts they are for. -/
abbrev Acquisition := List (EntryId × Nat)

/-- Take a member out of a list, and put the last one in its place. -/
def swapRemove {α : Type} (list : List α) (index : Nat) : List α :=
  ((list.getLast?.map (list.set index)).getD list).dropLast

/-- Where the body of a job is. -/
inductive Stage where
  | entered (job : Job)
  | checking (priority : Priority) (installed : Option String)
  | checked (priority : Priority) (outcome : Except String Outcome) (lastCheck : Option Record)
  | scheduling (priority : Priority) (outcome : Except String Outcome)
  | deciding (priority : Priority) (outcome : Except String Outcome)
  | applies (plan : Plan) (priority : Priority)
  | preparing (plan : Plan) (priority : Priority)
  | filling (plan : Plan) (priority : Priority) (active : Acquisition) (next : Nat)
  | sweeping (plan : Plan) (priority : Priority) (active : Acquisition) (next cursor : Nat)
  | placed (plan : Plan) (priority : Priority) (active : Acquisition) (next cursor : Nat)
  /-- The transfers still held are cancelled, and then their slots freed. The apply has
  failed, unless it unwinds. -/
  | releasing (plan : Plan) (failed : Option Apply.Error) (cancels frees : List EntryId)
  | recording (plan : Plan)
  | applied (plan : Plan) (result : Except Apply.Error String)
  | returned
  | unwound

/-- The job may have transfers to queue yet. -/
def Stage.mayQueue (autoApply : Bool) : Stage → Bool
  | .entered (.check _) | .checking _ _ => autoApply
  | .checked _ outcome _ | .scheduling _ outcome | .deciding _ outcome =>
      match outcome with
      | .ok (.updateAvailable plan) => autoApply && !plan.artifacts.isEmpty
      | _ => false
  | .entered (.apply plan _) | .applies plan _ | .preparing plan _ => !plan.artifacts.isEmpty
  | .filling plan _ _ next | .sweeping plan _ _ next _ | .placed plan _ _ next _ =>
      decide (next < plan.artifacts.length)
  | .releasing _ _ _ _ | .recording _ | .applied _ _ | .returned | .unwound => false

/-- A thread of the updater's. One whose job is over has settled the phase, and may yet have
to exit. -/
inductive Thread where
  | absent
  | running (stage : Stage)
  | exiting
  | exited

/-! ## Callers -/

/-- What a caller asks for. -/
inductive Call where
  | tick
  | checkNow (priority : Priority)
  | apply (plan : Plan) (priority : Priority)

/-- Where a caller is, and when the check it begins counts as attempted. -/
inductive Caller where
  | out
  | begins (job : Job) (attempt : Option Int)
  | locked (job : Job) (attempt : Option Int)
  | joining (job : Job) (attempt : Option Int)
  | spawning (job : Job) (attempt : Option Int)
  | refused (text : String)
  | unlocking (attempt : Option Int)
  | attempted (nowMs : Int)

/-- The job is being started: its phase is set, and it is not running yet. -/
def Caller.starting : Caller → Bool
  | .joining _ _ | .spawning _ _ | .refused _ => true
  | _ => false

/-- The caller holds the job lock. -/
def Caller.holdsLock : Caller → Bool
  | .locked _ _ | .joining _ _ | .spawning _ _ | .refused _ | .unlocking _ => true
  | _ => false

/-- How far the drop of an updater is. -/
inductive Dropping where
  | alive
  | cancelling (index : Nat)
  | joining
  | dropped
deriving DecidableEq

/-- What was configured of an updater. -/
structure Config where
  base : Text
  autoApply : Bool
  intervalMs : Int

/-- An updater with `m` callers, over a queue of `n` workers. -/
structure Updater (m n : Nat) where
  system : System n
  status : Status
  schedule : Schedule
  jobLock : Option (Fin m)
  handle : Option Nat
  threads : Nat → Thread
  next : Nat
  callers : Fin m → Caller
  dropping : Dropping
  /-- The number of the entry that each slot took last, and of the next to be queued. -/
  entries : EntryId → Nat
  count : Nat

/-- What happens outside the updater at a step of a job. -/
inductive Answer (n : Nat) where
  | none
  | checked (outcome : Except String Outcome) (lastCheck : Option Record)
  | prepared (result : Except Apply.Error (Option String))
  | queued (nowMs : Int) (spawned : Fin n → Bool)
  | placed (result : Except (Apply.Error × Bool) Unit)
  | recorded (result : Except Apply.Error Unit)

/-- A step of a caller, a thread, the queue or the drop. -/
inductive Step (m n : Nat) where
  | call (caller : Fin m) (call : Call) (nowMs : Int)
  | lock (caller : Fin m)
  | enter (caller : Fin m)
  | join (caller : Fin m)
  | spawn (caller : Fin m) (error : Option String)
  | giveUp (caller : Fin m)
  | unlock (caller : Fin m)
  | attempt (caller : Fin m)
  | job (thread : Nat) (answer : Answer n)
  | panic (thread : Nat)
  | settle (thread : Nat)
  | exit (thread : Nat)
  | queue (step : Queue.Step n)
  | drop
  | dropCancels
  | dropJoins

/-- The version of the release set, in each slot for it of the base. -/
def fillVersion (version : Text) : Text → Text
  | [] => []
  | '{' :: 'v' :: 'e' :: 'r' :: 's' :: 'i' :: 'o' :: 'n' :: '}' :: rest =>
      version ++ fillVersion version rest
  | char :: rest => char :: fillVersion version rest

namespace Updater

variable {m n : Nat}

/-- An updater nothing has been asked of yet. -/
def new (config : Config) (m n : Nat) (lastCheck : Option Record) : Updater m n where
  system := System.fresh n
  status := { lastCheck }
  schedule := { intervalMs := config.intervalMs }
  jobLock := none
  handle := none
  threads _ := .absent
  next := 0
  callers _ := .out
  dropping := .alive
  entries _ := 0
  count := 1

def setCaller (updater : Updater m n) (caller : Fin m) (stage : Caller) : Updater m n :=
  { updater with callers := Function.update updater.callers caller stage }

def setThread (updater : Updater m n) (thread : Nat) (stage : Thread) : Updater m n :=
  { updater with threads := Function.update updater.threads thread stage }

def goesTo (updater : Updater m n) (thread : Nat) (stage : Stage) : Updater m n :=
  updater.setThread thread (.running stage)

def setShared (updater : Updater m n) (shared : Queue.Shared n) : Updater m n :=
  { updater with system := { updater.system with shared } }

/-! ## The queue -/

/-- Queue a transfer, unless every slot is in use. -/
def enqueue (updater : Updater m n) (request : Request) (nowMs : Int) (spawned : Fin n → Bool) :
    Updater m n × Option EntryId :=
  match updater.system.shared.queue request nowMs spawned with
  | none => (updater, none)
  | some (shared, id) =>
      ({ updater.setShared shared with
          entries := Function.update updater.entries id updater.count
          count := updater.count + 1 },
        some id)

/-- The request for one artifact of a release set. -/
def requestFor (config : Config) (artifact : Tuf.Artifact) (releaseVersion : Nat)
    (priority : Priority) : Except Apply.Error Request :=
  match Apply.digestOf artifact with
  | .error error => .error error
  | .ok digest =>
      .ok ⟨fillVersion (Nat.toDigits 10 releaseVersion) config.base ++ artifact.path.toList, digest,
        some artifact.size, priority⟩

/-! ## The body of a job -/

/-- The apply fails, and lets go of the transfers it holds. -/
def refuses (updater : Updater m n) (thread : Nat) (plan : Plan) (active : Acquisition)
    (error : Apply.Error) : Updater m n :=
  updater.goesTo thread
    (.releasing plan (some error) (active.map Prod.fst) (active.map Prod.fst))

/-- Queue what there is room for. -/
def fill (config : Config) (updater : Updater m n) (thread : Nat) (plan : Plan)
    (priority : Priority) (active : Acquisition) (next : Nat) (nowMs : Int)
    (spawned : Fin n → Bool) : Updater m n :=
  match plan.artifacts[next]? with
  | none => updater.goesTo thread (.sweeping plan priority active next 0)
  | some artifact =>
      match requestFor config artifact plan.releaseVersion priority with
      | .error error => updater.refuses thread plan active error
      | .ok request =>
          match updater.enqueue request nowMs spawned with
          | (queued, some id) =>
              queued.goesTo thread (.filling plan priority (active ++ [(id, next)]) (next + 1))
          | (full, none) => full.goesTo thread (.sweeping plan priority active next 0)

/-- Look at one of the transfers that are held, and place its artifact if it has landed. -/
def sweep (updater : Updater m n) (thread : Nat) (plan : Plan) (priority : Priority)
    (active : Acquisition) (next cursor : Nat) (answer : Answer n) : Option (Updater m n) :=
  match active[cursor]? with
  | none =>
      if next < plan.artifacts.length ∨ active ≠ [] then
        some (updater.goesTo thread (.filling plan priority active next))
      else some (updater.goesTo thread (.recording plan))
  | some (id, index) =>
      let slot := updater.system.shared.slots id
      let name := (plan.artifacts[index]?.map Tuf.Artifact.name).getD ""
      match slot.state with
      | .complete =>
          match answer with
          | .placed (.ok ()) =>
              some (updater.goesTo thread (.placed plan priority active next cursor))
          | .placed (.error (error, quarantines)) =>
              let digest := slot.request.map Queue.SlotRequest.digest
              let cache := if quarantines then
                digest.elim updater.system.cache updater.system.cache.evict
                else updater.system.cache
              some ({ updater with system := { updater.system with cache } }.refuses thread plan
                active error)
          | _ => none
      | .failed =>
          some (updater.refuses thread plan active
            (.artifact name (slot.failure.getD .panicked)))
      | .cancelled => some (updater.refuses thread plan active (.cancelled name))
      | .pending | .downloading | .paused | .preempted =>
          some (updater.goesTo thread (.sweeping plan priority active next (cursor + 1)))

/-- Let go of one of the transfers that are held, or end the apply. A slot that is still active
is not freed yet. -/
def release (updater : Updater m n) (thread : Nat) (plan : Plan) (failed : Option Apply.Error) :
    List EntryId → List EntryId → Updater m n
  | id :: cancels, frees =>
      (updater.setShared ((updater.system.shared.cancel id).getD updater.system.shared)).goesTo
        thread (.releasing plan failed cancels frees)
  | [], id :: frees =>
      match updater.system.shared.remove id with
      | some shared => (updater.setShared shared).goesTo thread (.releasing plan failed [] frees)
      | none => updater
  | [], [] =>
      match failed with
      | some error => updater.goesTo thread (.applied plan (.error error))
      | none => updater.goesTo thread .unwound

/-- One step of the body of a job. -/
def advance (config : Config) (updater : Updater m n) (thread : Nat) (stage : Stage)
    (answer : Answer n) : Option (Updater m n) :=
  match stage, answer with
  | .entered (.check priority), .none =>
      some (updater.goesTo thread (.checking priority updater.status.installed))
  | .entered (.apply plan priority), .none => some (updater.goesTo thread (.applies plan priority))
  | .checking priority _, .checked outcome lastCheck =>
      some (updater.goesTo thread (.checked priority outcome lastCheck))
  | .checked priority outcome lastCheck, .none =>
      some ({ updater with status := updater.status.checked outcome lastCheck }.goesTo thread
        (.scheduling priority outcome))
  | .scheduling priority outcome, .none =>
      some ({ updater with schedule := updater.schedule.checked outcome }.goesTo thread
        (.deciding priority outcome))
  | .deciding priority outcome, .none =>
      match config.autoApply, outcome with
      | true, .ok (.updateAvailable plan) => some (updater.goesTo thread (.applies plan priority))
      | _, _ => some (updater.goesTo thread .returned)
  | .applies plan priority, .none =>
      let status := { updater.status with phase := .applying, applying := some plan }
      some ({ updater with status }.goesTo thread (.preparing plan priority))
  | .preparing plan priority, .prepared result =>
      match result with
      | .error error => some (updater.goesTo thread (.applied plan (.error error)))
      | .ok (some installed) => some (updater.goesTo thread (.applied plan (.ok installed)))
      | .ok none => some (updater.goesTo thread (.filling plan priority [] 0))
  | .filling plan priority active next, .queued nowMs spawned =>
      some (updater.fill config thread plan priority active next nowMs spawned)
  | .sweeping plan priority active next cursor, answer =>
      updater.sweep thread plan priority active next cursor answer
  | .placed plan priority active next cursor, .none =>
      let shared := active[cursor]?.elim updater.system.shared fun (id, _) =>
        (updater.system.shared.remove id).getD updater.system.shared
      some ((updater.setShared shared).goesTo thread
        (.sweeping plan priority (swapRemove active cursor) next cursor))
  | .releasing plan failed cancels frees, .none =>
      some (updater.release thread plan failed cancels frees)
  | .recording plan, .recorded result =>
      some (updater.goesTo thread (.applied plan (result.map fun _ => plan.generationId)))
  | .applied plan result, .none =>
      some ({ updater with status := updater.status.applied plan result }.goesTo thread .returned)
  | _, _ => none

/-- The body unwinds, and lets go of the transfers it holds. -/
def unwind (updater : Updater m n) (thread : Nat) : Stage → Option (Updater m n)
  | .filling plan _ active _ | .sweeping plan _ active _ _ | .placed plan _ active _ _ =>
      some (updater.goesTo thread
        (.releasing plan none (active.map Prod.fst) (active.map Prod.fst)))
  | .releasing _ _ _ _ | .returned | .unwound => none
  | _ => some (updater.goesTo thread .unwound)

/-! ## Steps -/

/-- Ask for a job. A tick asks for a check when one is due. -/
def call (updater : Updater m n) (caller : Fin m) (call : Call) (nowMs : Int) :
    Option (Updater m n) :=
  match updater.dropping, updater.callers caller with
  | .alive, .out =>
      match call with
      | .tick =>
          if updater.schedule.due nowMs then
            some (updater.setCaller caller (.begins (.check .background) (some nowMs)))
          else some updater
      | .checkNow priority =>
          some (updater.setCaller caller (.begins (.check priority) (some nowMs)))
      | .apply plan priority => some (updater.setCaller caller (.begins (.apply plan priority) none))
  | _, _ => none

/-- Take the job lock. -/
def lock (updater : Updater m n) (caller : Fin m) : Option (Updater m n) :=
  match updater.callers caller, updater.jobLock with
  | .begins job attempt, none =>
      some { updater.setCaller caller (.locked job attempt) with jobLock := some caller }
  | _, _ => none

/-- Set the phase, unless a job is running. -/
def enter (updater : Updater m n) (caller : Fin m) : Option (Updater m n) :=
  match updater.callers caller with
  | .locked job attempt =>
      if updater.status.phase ≠ .idle then some (updater.setCaller caller (.unlocking none))
      else some { updater.setCaller caller (.joining job attempt) with
        status := { updater.status with phase := job.phase } }
  | _ => none

/-- Wait for the thread of the last job to exit. -/
def join (updater : Updater m n) (caller : Fin m) : Option (Updater m n) :=
  match updater.callers caller with
  | .joining job attempt =>
      let joined := { updater.setCaller caller (.spawning job attempt) with handle := none }
      match updater.handle with
      | none => some joined
      | some thread =>
          match updater.threads thread with
          | .exited => some joined
          | _ => none
  | _ => none

/-- Spawn the thread, or fail to. -/
def spawn (updater : Updater m n) (caller : Fin m) (error : Option String) :
    Option (Updater m n) :=
  match updater.callers caller with
  | .spawning job attempt =>
      match error with
      | none => some { (updater.goesTo updater.next (.entered job)).setCaller caller
          (.unlocking attempt) with handle := some updater.next, next := updater.next + 1 }
      | some text => some (updater.setCaller caller (.refused text))
  | _ => none

/-- Settle the phase of a job that was not spawned. -/
def giveUp (updater : Updater m n) (caller : Fin m) : Option (Updater m n) :=
  match updater.callers caller with
  | .refused text =>
      let status := { updater.status with phase := .idle, lastError := some (.spawn text) }
      some { updater.setCaller caller (.unlocking none) with status }
  | _ => none

/-- Let go of the job lock, with a check to count as attempted if one was started. -/
def unlock (updater : Updater m n) (caller : Fin m) : Option (Updater m n) :=
  match updater.callers caller with
  | .unlocking attempt =>
      some { updater.setCaller caller (attempt.elim .out .attempted) with jobLock := none }
  | _ => none

def attempt (updater : Updater m n) (caller : Fin m) : Option (Updater m n) :=
  match updater.callers caller with
  | .attempted nowMs =>
      some { updater.setCaller caller .out with schedule := updater.schedule.attempted nowMs }
  | _ => none

/-- Settle the phase of a job whose body is over. -/
def settle (updater : Updater m n) (thread : Nat) : Option (Updater m n) :=
  match updater.threads thread with
  | .running .returned =>
      let status := { updater.status with phase := .idle }
      some { updater.setThread thread .exiting with status }
  | .running .unwound =>
      let status := { updater.status with
        phase := .idle, applying := none, lastError := some .panicked }
      some { updater.setThread thread .exiting with status }
  | _ => none

/-- A step of the queue. Its callers are there until the drop, and it is shut down after. -/
def queueStep (sha256 : Bytes → ArtifactDigest) (updater : Updater m n) (step : Queue.Step n) :
    Option (Updater m n) :=
  let stepped := (updater.system.step sha256 step).map fun system => { updater with system }
  match step with
  | .shared (.queue request nowMs spawned) =>
      if updater.dropping = .alive then some (updater.enqueue request nowMs spawned).1 else none
  | .shared (.cancel _) | .shared (.pause _) | .shared (.resume _ _) | .shared (.remove _) =>
      if updater.dropping = .alive then stepped else none
  | .shared .shutdown | .shared .stopTransfers =>
      if updater.dropping = .dropped then stepped else none
  | _ => stepped

/-- Begin to drop the updater, which nobody else has a hold of then. -/
def drop (updater : Updater m n) : Option (Updater m n) :=
  match updater.dropping with
  | .alive =>
      if ∀ caller, updater.callers caller matches .out then
        some { updater with dropping := .cancelling 0 }
      else none
  | _ => none

/-- Cancel the transfer of the next slot. -/
def dropCancels (updater : Updater m n) : Option (Updater m n) :=
  match updater.dropping with
  | .cancelling index =>
      match Queue.Shared.entryId index with
      | some id => some { updater.setShared
          ((updater.system.shared.cancel id).getD updater.system.shared) with
            dropping := .cancelling (index + 1) }
      | none => some { updater with dropping := .joining }
  | _ => none

/-- Wait for the thread to exit. -/
def dropJoins (updater : Updater m n) : Option (Updater m n) :=
  match updater.dropping, updater.handle with
  | .joining, none => some { updater with dropping := .dropped }
  | .joining, some thread =>
      match updater.threads thread with
      | .exited => some { updater with dropping := .dropped, handle := none }
      | _ => none
  | _, _ => none

def step (sha256 : Bytes → ArtifactDigest) (config : Config) (updater : Updater m n) :
    Step m n → Option (Updater m n)
  | .call caller call nowMs => updater.call caller call nowMs
  | .lock caller => updater.lock caller
  | .enter caller => updater.enter caller
  | .join caller => updater.join caller
  | .spawn caller error => updater.spawn caller error
  | .giveUp caller => updater.giveUp caller
  | .unlock caller => updater.unlock caller
  | .attempt caller => updater.attempt caller
  | .job thread answer =>
      match updater.threads thread with
      | .running stage => updater.advance config thread stage answer
      | _ => none
  | .panic thread =>
      match updater.threads thread with
      | .running stage => updater.unwind thread stage
      | _ => none
  | .settle thread => updater.settle thread
  | .exit thread =>
      match updater.threads thread with
      | .exiting => some (updater.setThread thread .exited)
      | _ => none
  | .queue step => updater.queueStep sha256 step
  | .drop => updater.drop
  | .dropCancels => updater.dropCancels
  | .dropJoins => updater.dropJoins

end Updater

end Retrovert.Update
