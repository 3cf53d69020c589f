import Mathlib.Data.List.FinRange
import Retrovert.Queue.Entry
import Retrovert.Transport.Download

/-!
# The queue's shared state and its lock holds

Everything the callers and the workers share: the fixed array of slots, which
workers are armed, what each of them holds, and whether the queue is still
running. Each definition below is one hold of the queue lock, or a change that
the source makes to an atomic outside it.

The thread of each worker is recorded beside what the queue knows of it: that a
worker's own idea of the slot it holds agrees with the active list is an
invariant, not a definition.
-/

set_option autoImplicit false

namespace Retrovert.Queue

open Retrovert.Transport

/-- The most entries the queue holds at once. -/
def queueMax : Nat := 32

instance : NeZero queueMax := ⟨by decide⟩

/-- The workers of a small queue are named by number. -/
instance neZero_one : NeZero 1 := ⟨Nat.one_ne_zero⟩

instance neZero_two : NeZero 2 := ⟨Nat.succ_ne_zero 1⟩

/-- A handle to one queued transfer: an index into the fixed slot array. -/
abbrev EntryId := Fin queueMax

/-- Why a queued transfer failed. -/
inductive Failure where
  | digest (actual : ArtifactDigest)
  | diskDigest (actual : ArtifactDigest)
  | size (expected actual : Nat)
  | oversize (expected actual : Nat)
  | unreadable
  | transfer (failure : Transport.Failure)
  | start (error : StartError)
  | panicked
deriving DecidableEq

/-- What a request carries once it is in a slot. -/
structure SlotRequest where
  url : Text
  digest : ArtifactDigest
  expectedSize : Option Nat
deriving DecidableEq

/-- One artifact to acquire. -/
structure Request where
  url : Text
  digest : ArtifactDigest
  expectedSize : Option Nat
  priority : Priority

/-- One slot in the fixed queue. -/
structure Slot where
  inUse : Bool := false
  priority : Priority := .background
  state : State := .pending
  cancelRequested : Bool := false
  pauseRequested : Bool := false
  queueTimeMs : Int := 0
  bytesDownloaded : Int := 0
  bytesTotal : Int := 0
  request : Option SlotRequest := none
  path : Option CacheName := none
  failure : Option Failure := none

/-- A slot that has just taken a request. -/
def Request.slot (request : Request) (now : Int) : Slot where
  inUse := true
  priority := request.priority
  state := .pending
  cancelRequested := false
  pauseRequested := false
  queueTimeMs := now
  bytesDownloaded := 0
  bytesTotal := unknownTotal
  request := some ⟨request.url, request.digest, request.expectedSize⟩
  path := none
  failure := none

/-- The scheduling view the policy operates on. -/
def Slot.snapshot (slot : Slot) : Entry where
  inUse := slot.inUse
  priority := slot.priority
  state := slot.state
  queueTimeMs := slot.queueTimeMs
  bytesDownloaded := slot.bytesDownloaded
  bytesTotal := slot.bytesTotal

/-- Write a policy decision's mutated fields back. -/
def Slot.apply (slot : Slot) (entry : Entry) : Slot :=
  { slot with inUse := entry.inUse, state := entry.state }

@[simp] theorem Slot.apply_snapshot (slot : Slot) : slot.apply slot.snapshot = slot := rfl

/-- A 64-bit count as the `i64` a slot holds. -/
def asI64 (value : Nat) : Int := min value (2 ^ 63 - 1)

def Slot.storeProgress (slot : Slot) (snapshot : Snapshot) : Slot :=
  { slot with
    bytesDownloaded := asI64 snapshot.downloaded
    bytesTotal := snapshot.total.elim unknownTotal fun total => asI64 total.toNat }

/-- Record a failure, keeping the first one reported for this attempt. -/
def Slot.publishFailure (slot : Slot) (failure : Failure) : Slot :=
  { slot with failure := some (slot.failure.getD failure) }

/-- What a settle publishes: a promised cancel overrides the outcome. -/
def Slot.settledState (slot : Slot) (state : State) : State :=
  if slot.cancelRequested then .cancelled else state

/-- Settle a slot: publish the cached path or the failure, then the state. The
pause is spent with the attempt; a preempted entry that paused stays preempted. -/
def Slot.settle (slot : Slot) (digest : Option ArtifactDigest) (state : State)
    (failure : Option Failure) : Slot :=
  let settled := slot.settledState state
  let published : Slot :=
    match settled, digest, failure with
    | .complete, some digest, _ => { slot with path := some (Cache.pathFor digest) }
    | _, _, some failure => slot.publishFailure failure
    | _, _, none => slot
  { published with
    pauseRequested := false
    state := if slot.state ≠ .preempted ∨ settled ≠ .paused then settled else slot.state }

@[simp] theorem Slot.cancelRequested_settle (slot : Slot) (digest : Option ArtifactDigest)
    (state : State) (failure : Option Failure) :
    (slot.settle digest state failure).cancelRequested = slot.cancelRequested := by
  unfold Slot.settle
  dsimp only
  split <;> rfl

@[simp] theorem Slot.inUse_settle (slot : Slot) (digest : Option ArtifactDigest) (state : State)
    (failure : Option Failure) : (slot.settle digest state failure).inUse = slot.inUse := by
  unfold Slot.settle
  dsimp only
  split <;> rfl

/-- How a worker's attempt at a slot ends. -/
inductive Verdict where
  | complete (digest : ArtifactDigest)
  | failed (failure : Option Failure)
  | cancelled
  | paused
deriving DecidableEq

def Verdict.state : Verdict → State
  | .complete _ => .complete
  | .failed _ => .failed
  | .cancelled => .cancelled
  | .paused => .paused

def Verdict.digest : Verdict → Option ArtifactDigest
  | .complete digest => some digest
  | _ => none

def Verdict.failure : Verdict → Option Failure
  | .failed failure => failure
  | _ => none

/-- The state a settle leaves: cancelled where that was promised, preempted where
a preempted entry paused, and the verdict's own everywhere else. -/
theorem Slot.state_settle (slot : Slot) (verdict : Verdict) :
    (slot.settle verdict.digest verdict.state verdict.failure).state =
      if slot.cancelRequested = true then .cancelled
      else if slot.state = .preempted ∧ verdict = .paused then .preempted
      else verdict.state := by
  have paused : verdict.state = .paused ↔ verdict = .paused := by
    cases verdict <;> simp [Verdict.state]
  by_cases cancelled : slot.cancelRequested = true
  · simp [Slot.settle, Slot.settledState, cancelled]
  · by_cases preempted : slot.state = .preempted <;> by_cases same : verdict.state = .paused <;>
      simp [Slot.settle, Slot.settledState, cancelled, preempted, ← paused, same]

theorem Verdict.state_ne_downloading (verdict : Verdict) : verdict.state ≠ .downloading := by
  cases verdict <;> simp [Verdict.state]

/-- No settle leaves a slot downloading. -/
theorem Slot.state_settle_ne_downloading (slot : Slot) (verdict : Verdict) :
    (slot.settle verdict.digest verdict.state verdict.failure).state ≠ .downloading := by
  rw [Slot.state_settle]
  split
  · simp
  · split
    · simp
    · exact verdict.state_ne_downloading

/-- The slot one worker holds, and the stop flags of the transfer running in
it, once it has started. -/
structure Active where
  slot : Option EntryId := none
  download : Option Flags := none

/-- Where a worker's thread is: not there, in the caller's start hook, at the
top of its loop, seen to be running, seen to be shut down, or between the claim
of a slot and its settle. -/
inductive Thread where
  | gone
  | starting
  | looking
  | claiming
  | stopping
  | holding (index : EntryId)
deriving DecidableEq

/-- Everything the callers and the `n` workers share. -/
structure Shared (n : Nat) where
  slots : EntryId → Slot
  running : Bool
  armed : Fin n → Bool
  active : Fin n → Active
  threads : Fin n → Thread

namespace Shared

variable {n : Nat}

/-- A queue nothing has been asked of yet. -/
def fresh (n : Nat) : Shared n where
  slots _ := {}
  running := true
  armed _ := false
  active _ := {}
  threads _ := .gone

/-! ## Reading the shared state -/

def snapshotAll (shared : Shared n) : List Entry :=
  List.ofFn fun id => (shared.slots id).snapshot

/-- The slots workers hold. -/
def claimed (shared : Shared n) : List Nat :=
  (List.finRange n).filterMap fun worker => (shared.active worker).slot.map Fin.val

def isActive (shared : Shared n) (id : EntryId) : Bool :=
  (List.finRange n).any fun worker => (shared.active worker).slot == some id

/-- The first worker found to hold a slot. -/
def holder (shared : Shared n) (id : EntryId) : Option (Fin n) :=
  (List.finRange n).find? fun worker => (shared.active worker).slot == some id

def hasIdleWorker (shared : Shared n) : Bool :=
  (List.finRange n).any fun worker => (shared.active worker).slot.isNone

/-- The entry with this index. -/
def entryId (index : Nat) : Option EntryId :=
  if within : index < queueMax then some ⟨index, within⟩ else none

/-- The next pending entry to run. -/
def pendingId (shared : Shared n) : Option EntryId :=
  (nextPending shared.snapshotAll).bind entryId

/-- A worker holds the slot. -/
def Held (shared : Shared n) (id : EntryId) : Prop :=
  ∃ worker, (shared.active worker).slot = some id

/-! ## Changing it in one place -/

def updateSlot (shared : Shared n) (id : EntryId) (change : Slot → Slot) : Shared n :=
  { shared with slots := Function.update shared.slots id (change (shared.slots id)) }

def setActive (shared : Shared n) (worker : Fin n) (active : Active) : Shared n :=
  { shared with active := Function.update shared.active worker active }

def setThread (shared : Shared n) (worker : Fin n) (thread : Thread) : Shared n :=
  { shared with threads := Function.update shared.threads worker thread }

def setArmed (shared : Shared n) (worker : Fin n) (armed : Bool) : Shared n :=
  { shared with armed := Function.update shared.armed worker armed }

/-- Raise a stop flag of one worker's transfer, if its handle is there. -/
def raise (shared : Shared n) (worker : Fin n) (flag : Flags → Flags) : Shared n :=
  shared.setActive worker
    { shared.active worker with download := (shared.active worker).download.map flag }

/-- Raise a stop flag of the transfer running in a slot, if its handle is
there. -/
def raiseFor (shared : Shared n) (id : EntryId) (flag : Flags → Flags) : Shared n :=
  match shared.holder id with
  | none => shared
  | some worker => shared.raise worker flag

/-! ## Workers -/

/-- Spawn the workers not yet armed, in order, up to the first spawn that
fails. -/
def spawn (spawned : Fin n → Bool) : List (Fin n) → Shared n → Shared n
  | [], shared => shared
  | worker :: rest, shared =>
      if shared.armed worker then spawn spawned rest shared
      else if spawned worker then
        spawn spawned rest ((shared.setArmed worker true).setThread worker .starting)
      else shared

/-- Arm drain workers up to the configured count, if there is pending work. -/
def armWorkers (shared : Shared n) (spawned : Fin n → Bool) : Shared n :=
  if (List.finRange n).all shared.armed || !shared.running then shared
  else if (nextPending shared.snapshotAll).isNone then shared
  else spawn spawned (List.finRange n) shared

/-- Write a whole-array snapshot back. -/
def applyAll (shared : Shared n) (entries : List Entry) : Shared n :=
  { shared with
    slots := fun id =>
      match entries[id.val]? with
      | some entry => (shared.slots id).apply entry
      | none => shared.slots id }

/-- Return every preempted entry to pending, once no user-priority work is left
to run. -/
def resumePreempted (shared : Shared n) : Shared n :=
  shared.applyAll (autoResumePreempted shared.snapshotAll)

/-- Retire in order. -/
def retire (shared : Shared n) (worker : Fin n) : Shared n :=
  (shared.setArmed worker false).setThread worker .gone

/-- Claim a slot, and arm more workers for what is still pending. -/
def take (shared : Shared n) (worker : Fin n) (index : EntryId) (spawned : Fin n → Bool) :
    Shared n :=
  (((shared.updateSlot index fun slot => { slot with state := .downloading }).setActive worker
    { shared.active worker with slot := some index }).armWorkers spawned).setThread worker
      (.holding index)

/-- A worker's look for work: sweep, then claim the next pending entry, or
retire when there is none. -/
def claim (shared : Shared n) (worker : Fin n) (spawned : Fin n → Bool) : Shared n :=
  match shared.resumePreempted.pendingId with
  | none => shared.resumePreempted.retire worker
  | some index => shared.resumePreempted.take worker index spawned

/-- Disarm a worker that unwound past its orderly retire, failing whatever slot
it still held. -/
def releaseWorker (shared : Shared n) (worker : Fin n) : Shared n :=
  let released := ((shared.setArmed worker false).setActive worker {}).setThread worker .gone
  match (shared.active worker).slot with
  | none => released
  | some claimed =>
      released.updateSlot claimed fun slot => { slot.publishFailure .panicked with state := .failed }

/-- Settle a slot and release the worker's claim on it. -/
def finish (shared : Shared n) (worker : Fin n) (index : EntryId)
    (digest : Option ArtifactDigest) (state : State) (failure : Option Failure) : Shared n :=
  ((shared.setActive worker {}).updateSlot index (·.settle digest state failure)).setThread worker
    .looking

/-! ## Callers -/

/-- Ask the transfer in a slot to stop at its next poll, keeping its partial
file. The flag goes down whether or not there is a handle to ask. -/
def requestPause (shared : Shared n) (id : EntryId) : Shared n :=
  (shared.updateSlot id fun slot => { slot with pauseRequested := true }).raiseFor id
    Flags.requestPause

/-- Have one background transfer make way for an entry of this priority. -/
def yieldTo (shared : Shared n) (priority : Priority) : Shared n :=
  match preemptForUser shared.snapshotAll shared.claimed priority shared.hasIdleWorker with
  | (_, none) => shared
  | (entries, some target) =>
      match entries[target]?, entryId target with
      | some entry, some id => (shared.updateSlot id (·.apply entry)).requestPause id
      | _, _ => shared

/-- The first slot that is not in use. -/
def freeSlot (shared : Shared n) : Option EntryId :=
  (List.finRange queueMax).find? fun id => !(shared.slots id).inUse

/-- Put a request into a slot. -/
def enqueue (shared : Shared n) (id : EntryId) (request : Request) (now : Int) : Shared n :=
  shared.updateSlot id fun _ => request.slot now

/-- Queue a transfer, or `none` when every slot is in use. -/
def queue (shared : Shared n) (request : Request) (now : Int) (spawned : Fin n → Bool) :
    Option (Shared n × EntryId) :=
  shared.freeSlot.map fun id =>
    (((shared.enqueue id request now).yieldTo request.priority).armWorkers spawned, id)

/-- Cancel a queued or active transfer; `none` when the request does not apply. -/
def cancel (shared : Shared n) (id : EntryId) : Option (Shared n) :=
  ((shared.slots id).snapshot.cancel (shared.isActive id)).map fun entry =>
    let cancelled := shared.updateSlot id (·.apply entry)
    if shared.isActive id then
      (cancelled.updateSlot id fun slot => { slot with cancelRequested := true }).raiseFor id
        Flags.requestCancel
    else cancelled

/-- Pause an active transfer, keeping its partial file resumable. -/
def pause (shared : Shared n) (id : EntryId) : Option (Shared n) :=
  if (shared.slots id).snapshot.pause (shared.isActive id) then some (shared.requestPause id)
  else none

/-- Resume a paused transfer. -/
def resume (shared : Shared n) (id : EntryId) (spawned : Fin n → Bool) : Option (Shared n) :=
  (shared.slots id).snapshot.resume.map fun entry =>
    (shared.updateSlot id (·.apply entry)).armWorkers spawned

/-- Free a slot. -/
def remove (shared : Shared n) (id : EntryId) : Option (Shared n) :=
  ((shared.slots id).snapshot.remove (shared.isActive id)).map fun entry =>
    shared.updateSlot id (·.apply entry)

/-- The caller drops the queue: workers stop re-arming. -/
def shutdown (shared : Shared n) : Shared n := { shared with running := false }

/-- The rest of the drop: every transfer that has started is asked to cancel. -/
def stopTransfers (shared : Shared n) : Shared n :=
  { shared with
    active := fun worker =>
      { shared.active worker with
        download := (shared.active worker).download.map Flags.requestCancel } }

/-! ## What each change leaves alone -/

section Frame

variable (shared : Shared n) (id : EntryId) (change : Slot → Slot) (worker : Fin n)

@[simp] theorem slots_updateSlot : (shared.updateSlot id change).slots =
    Function.update shared.slots id (change (shared.slots id)) := rfl

@[simp] theorem active_updateSlot : (shared.updateSlot id change).active = shared.active := rfl

@[simp] theorem armed_updateSlot : (shared.updateSlot id change).armed = shared.armed := rfl

@[simp] theorem threads_updateSlot : (shared.updateSlot id change).threads = shared.threads := rfl

@[simp] theorem running_updateSlot : (shared.updateSlot id change).running = shared.running := rfl

@[simp] theorem active_setActive (active : Active) : (shared.setActive worker active).active =
    Function.update shared.active worker active := rfl

@[simp] theorem slots_setActive (active : Active) :
    (shared.setActive worker active).slots = shared.slots := rfl

@[simp] theorem armed_setActive (active : Active) :
    (shared.setActive worker active).armed = shared.armed := rfl

@[simp] theorem threads_setActive (active : Active) :
    (shared.setActive worker active).threads = shared.threads := rfl

@[simp] theorem running_setActive (active : Active) :
    (shared.setActive worker active).running = shared.running := rfl

@[simp] theorem threads_setThread (thread : Thread) : (shared.setThread worker thread).threads =
    Function.update shared.threads worker thread := rfl

@[simp] theorem slots_setThread (thread : Thread) :
    (shared.setThread worker thread).slots = shared.slots := rfl

@[simp] theorem active_setThread (thread : Thread) :
    (shared.setThread worker thread).active = shared.active := rfl

@[simp] theorem armed_setThread (thread : Thread) :
    (shared.setThread worker thread).armed = shared.armed := rfl

@[simp] theorem running_setThread (thread : Thread) :
    (shared.setThread worker thread).running = shared.running := rfl

@[simp] theorem armed_setArmed (armed : Bool) : (shared.setArmed worker armed).armed =
    Function.update shared.armed worker armed := rfl

@[simp] theorem slots_setArmed (armed : Bool) :
    (shared.setArmed worker armed).slots = shared.slots := rfl

@[simp] theorem active_setArmed (armed : Bool) :
    (shared.setArmed worker armed).active = shared.active := rfl

@[simp] theorem threads_setArmed (armed : Bool) :
    (shared.setArmed worker armed).threads = shared.threads := rfl

@[simp] theorem running_setArmed (armed : Bool) :
    (shared.setArmed worker armed).running = shared.running := rfl

end Frame

/-! ## Reading what was claimed -/

theorem isActive_iff {shared : Shared n} {id : EntryId} :
    shared.isActive id = true ↔ shared.Held id := by
  simp [isActive, Held]

theorem mem_claimed {shared : Shared n} {index : Nat} :
    index ∈ shared.claimed ↔ ∃ id : EntryId, id.val = index ∧ shared.Held id := by
  simp only [claimed, List.mem_filterMap, List.mem_finRange, true_and, Option.map_eq_some_iff, Held]
  constructor
  · rintro ⟨worker, id, held, rfl⟩
    exact ⟨id, rfl, worker, held⟩
  · rintro ⟨id, rfl, worker, held⟩
    exact ⟨worker, id, held, rfl⟩

theorem snapshotAll_getElem? (shared : Shared n) (id : EntryId) :
    shared.snapshotAll[id.val]? = some (shared.slots id).snapshot := by
  simp [snapshotAll]

/-- An index the snapshot has is an entry's. -/
theorem snapshotAll_eq_some {shared : Shared n} {index : Nat} {entry : Entry}
    (found : shared.snapshotAll[index]? = some entry) :
    ∃ id : EntryId, id.val = index ∧ entryId index = some id ∧
      entry = (shared.slots id).snapshot := by
  have within : index < queueMax := by
    have := (List.getElem?_eq_some_iff.mp found).1
    simpa [snapshotAll] using this
  refine ⟨⟨index, within⟩, rfl, by simp [entryId, within], ?_⟩
  have same := shared.snapshotAll_getElem? ⟨index, within⟩
  rw [found] at same
  exact Option.some.inj same

theorem mem_snapshotAll {shared : Shared n} {entry : Entry} :
    entry ∈ shared.snapshotAll ↔ ∃ id, (shared.slots id).snapshot = entry := by
  simp [snapshotAll, List.mem_ofFn]

theorem entryId_eq_some_iff {index : Nat} {id : EntryId} :
    entryId index = some id ↔ index = id.val := by
  unfold entryId
  split
  · rw [Option.some.injEq, Fin.ext_iff]
  · rename_i outside
    simp only [reduceCtorEq, false_iff]
    rintro rfl
    exact outside id.isLt

theorem bind_entryId_eq_some_iff {chosen : Option Nat} {id : EntryId} :
    chosen.bind entryId = some id ↔ chosen = some id.val := by
  simp only [Option.bind_eq_some_iff, entryId_eq_some_iff, exists_eq_right]

/-- The next entry to run is the first in line. -/
theorem pendingId_eq_some_iff {shared : Shared n} {id : EntryId} :
    shared.pendingId = some id ↔ RunsFirst shared.snapshotAll id.val := by
  rw [pendingId, bind_entryId_eq_some_iff, nextPending_eq_some_iff]

theorem pendingId_eq_some {shared : Shared n} {id : EntryId} (chosen : shared.pendingId = some id) :
    (shared.slots id).inUse = true ∧ (shared.slots id).state = .pending := by
  obtain ⟨entry, found, waits, -⟩ := pendingId_eq_some_iff.mp chosen
  rw [snapshotAll_getElem?, Option.some.injEq] at found
  subst found
  exact waits

theorem pendingId_eq_none {shared : Shared n} (chosen : shared.pendingId = none) (id : EntryId) :
    ¬((shared.slots id).inUse = true ∧ (shared.slots id).state = .pending) := by
  cases first : nextPending shared.snapshotAll with
  | none => exact nextPending_eq_none_iff.mp first _ (mem_snapshotAll.mpr ⟨id, rfl⟩)
  | some index =>
      obtain ⟨entry, found, -⟩ := nextPending_eq_some_iff.mp first
      obtain ⟨_, -, known, -⟩ := snapshotAll_eq_some found
      rw [pendingId, first, Option.bind_some, known] at chosen
      cases chosen

/-- While a user's entry is pending, one of them is next. -/
theorem pendingId_user {shared : Shared n} {index id : EntryId}
    (chosen : shared.pendingId = some index)
    (waits : (shared.slots id).inUse = true ∧ (shared.slots id).state = .pending)
    (user : (shared.slots id).priority = .user) : (shared.slots index).priority = .user := by
  obtain ⟨entry, found, -, first⟩ := pendingId_eq_some_iff.mp chosen
  rw [snapshotAll_getElem?, Option.some.injEq] at found
  subst found
  rcases first id.val _ (snapshotAll_getElem? _ id) waits with below | ⟨same, -⟩
  · cases ranked : (shared.slots index).priority with
    | user => rfl
    | background => simp [Slot.snapshot, ranked, user, Priority.code] at below
  · exact same.symm.trans user

end Shared

end Retrovert.Queue
