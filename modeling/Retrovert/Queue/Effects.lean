import Retrovert.Queue.Shared

/-!
# What each lock hold does

One description for each operation of the shared state: which slots it changes
and how, and what it leaves of the active list, the armed workers and their
threads. Every invariant of the queue is proved from these, and none of them
unfolds an operation again.
-/

set_option autoImplicit false

namespace Retrovert.Queue

open Retrovert.Transport

/-- A slot once the sweep has resumed it. -/
def Slot.resumed (slot : Slot) : Slot :=
  if slot.inUse = true ∧ slot.state = .preempted then { slot with state := .pending } else slot

namespace Shared

variable {n : Nat}

/-! ## Stop flags -/

/-- The transfer a worker runs has been asked to pause. -/
def Pausing (shared : Shared n) (worker : Fin n) : Prop :=
  (shared.active worker).download.map Flags.pause = some true

instance (shared : Shared n) (worker : Fin n) : Decidable (shared.Pausing worker) :=
  inferInstanceAs (Decidable (_ = _))

theorem pausing_iff {shared : Shared n} {worker : Fin n} : shared.Pausing worker ↔
    ∃ flags, (shared.active worker).download = some flags ∧ flags.pause = true := by
  simp [Pausing]

section Raise

variable (shared : Shared n) (worker : Fin n) (id : EntryId) (flag : Flags → Flags)

@[simp] theorem slots_raise : (shared.raise worker flag).slots = shared.slots := rfl

@[simp] theorem armed_raise : (shared.raise worker flag).armed = shared.armed := rfl

@[simp] theorem threads_raise : (shared.raise worker flag).threads = shared.threads := rfl

@[simp] theorem running_raise : (shared.raise worker flag).running = shared.running := rfl

@[simp] theorem slot_raise (other : Fin n) :
    ((shared.raise worker flag).active other).slot = (shared.active other).slot := by
  by_cases same : other = worker
  · subst same
    simp [raise]
  · simp [raise, same]

@[simp] theorem isSome_download_raise (other : Fin n) :
    ((shared.raise worker flag).active other).download.isSome =
      (shared.active other).download.isSome := by
  by_cases same : other = worker
  · subst same
    simp [raise]
  · simp [raise, same]

@[simp] theorem slots_raiseFor : (shared.raiseFor id flag).slots = shared.slots := by
  unfold raiseFor
  split <;> rfl

@[simp] theorem armed_raiseFor : (shared.raiseFor id flag).armed = shared.armed := by
  unfold raiseFor
  split <;> rfl

@[simp] theorem threads_raiseFor : (shared.raiseFor id flag).threads = shared.threads := by
  unfold raiseFor
  split <;> rfl

@[simp] theorem running_raiseFor : (shared.raiseFor id flag).running = shared.running := by
  unfold raiseFor
  split <;> rfl

@[simp] theorem slot_raiseFor (other : Fin n) :
    ((shared.raiseFor id flag).active other).slot = (shared.active other).slot := by
  unfold raiseFor
  split
  · rfl
  · exact shared.slot_raise _ flag other

@[simp] theorem isSome_download_raiseFor (other : Fin n) :
    ((shared.raiseFor id flag).active other).download.isSome =
      (shared.active other).download.isSome := by
  unfold raiseFor
  split
  · rfl
  · exact shared.isSome_download_raise _ flag other

end Raise

/-- A flag raised on a worker's transfer asks only that transfer to pause. -/
theorem pausing_raise {shared : Shared n} {worker other : Fin n} {flag : Flags → Flags}
    (pausing : (shared.raise worker flag).Pausing other) :
    shared.Pausing other ∨ other = worker ∧ ∃ flags, (flag flags).pause = true := by
  obtain ⟨flags, found, raised⟩ := pausing_iff.mp pausing
  by_cases same : other = worker
  · subst same
    simp only [raise, active_setActive, Function.update_self, Option.map_eq_some_iff] at found
    obtain ⟨earlier, _, rfl⟩ := found
    exact .inr ⟨rfl, earlier, raised⟩
  · simp only [raise, active_setActive, ne_eq, same, not_false_eq_true,
      Function.update_of_ne] at found
    exact .inl (pausing_iff.mpr ⟨flags, found, raised⟩)

/-- A cancel never asks a transfer to pause. -/
theorem pausing_raise_requestCancel {shared : Shared n} {worker other : Fin n}
    (pausing : (shared.raise worker Flags.requestCancel).Pausing other) :
    shared.Pausing other := by
  obtain ⟨flags, found, raised⟩ := pausing_iff.mp pausing
  by_cases same : other = worker
  · subst same
    simp only [raise, active_setActive, Function.update_self, Option.map_eq_some_iff] at found
    obtain ⟨earlier, started, rfl⟩ := found
    exact pausing_iff.mpr ⟨earlier, started, raised⟩
  · simp only [raise, active_setActive, ne_eq, same, not_false_eq_true,
      Function.update_of_ne] at found
    exact pausing_iff.mpr ⟨flags, found, raised⟩

theorem holder_eq_some {shared : Shared n} {id : EntryId} {worker : Fin n}
    (found : shared.holder id = some worker) : (shared.active worker).slot = some id := by
  simpa using List.find?_some found

theorem pausing_raiseFor_requestCancel {shared : Shared n} {id : EntryId} {other : Fin n}
    (pausing : (shared.raiseFor id Flags.requestCancel).Pausing other) :
    shared.Pausing other := by
  unfold raiseFor at pausing
  split at pausing
  · exact pausing
  · exact pausing_raise_requestCancel pausing

/-- Only a worker that holds the slot is asked to pause. -/
theorem pausing_raiseFor {shared : Shared n} {id : EntryId} {other : Fin n} {flag : Flags → Flags}
    (pausing : (shared.raiseFor id flag).Pausing other) :
    shared.Pausing other ∨ (shared.active other).slot = some id := by
  unfold raiseFor at pausing
  split at pausing
  · exact .inl pausing
  · rename_i worker found
    rcases pausing_raise pausing with earlier | ⟨rfl, _⟩
    · exact .inl earlier
    · exact .inr (holder_eq_some found)

/-! ## Arming workers -/

section Arm

variable (spawned : Fin n → Bool)

theorem spawn_frame (workers : List (Fin n)) (shared : Shared n) :
    (spawn spawned workers shared).slots = shared.slots ∧
      (spawn spawned workers shared).active = shared.active ∧
      (spawn spawned workers shared).running = shared.running := by
  induction workers generalizing shared with
  | nil => exact ⟨rfl, rfl, rfl⟩
  | cons worker rest ih =>
      simp only [spawn]
      split
      · exact ih shared
      · split
        · exact ih _
        · exact ⟨rfl, rfl, rfl⟩

/-- A worker is either left as it was, or newly armed with a thread in the start
hook. -/
theorem spawn_worker (workers : List (Fin n)) (shared : Shared n) (worker : Fin n) :
    ((spawn spawned workers shared).armed worker = shared.armed worker ∧
        (spawn spawned workers shared).threads worker = shared.threads worker) ∨
      (shared.armed worker = false ∧ (spawn spawned workers shared).armed worker = true ∧
        (spawn spawned workers shared).threads worker = .starting) := by
  induction workers generalizing shared with
  | nil => exact .inl ⟨rfl, rfl⟩
  | cons first rest ih =>
      simp only [spawn]
      split
      · exact ih shared
      · rename_i unarmed
        split
        · by_cases same : worker = first
          · subst same
            rcases ih ((shared.setArmed worker true).setThread worker .starting) with kept | armed
            · exact .inr ⟨by simpa using unarmed, by simpa using kept.1, by simpa using kept.2⟩
            · simp at armed
          · rcases ih ((shared.setArmed first true).setThread first .starting) with kept | armed
            · exact .inl (by simpa [same] using kept)
            · exact .inr (by simpa [same] using armed)
        · exact .inl ⟨rfl, rfl⟩

/-- With every spawn succeeding, each listed worker ends up armed. -/
theorem spawn_arms {workers : List (Fin n)} {shared : Shared n} {worker : Fin n}
    (member : worker ∈ workers) : (spawn (fun _ => true) workers shared).armed worker = true := by
  induction workers generalizing shared with
  | nil => cases member
  | cons first rest ih =>
      have kept : ∀ start : Shared n, start.armed worker = true →
          (spawn (fun _ => true) rest start).armed worker = true := by
        intro start armed
        rcases spawn_worker (fun _ => true) rest start worker with same | new
        · exact same.1.trans armed
        · exact new.2.1
      simp only [spawn]
      rcases List.mem_cons.mp member with rfl | later
      · split
        · rename_i armed
          exact kept shared armed
        · exact kept _ (by simp)
      · split
        · exact ih later
        · exact ih later

theorem armWorkers_frame (shared : Shared n) :
    (shared.armWorkers spawned).slots = shared.slots ∧
      (shared.armWorkers spawned).active = shared.active ∧
      (shared.armWorkers spawned).running = shared.running := by
  unfold armWorkers
  split
  · exact ⟨rfl, rfl, rfl⟩
  · split
    · exact ⟨rfl, rfl, rfl⟩
    · exact spawn_frame spawned _ shared

@[simp] theorem slots_armWorkers (shared : Shared n) :
    (shared.armWorkers spawned).slots = shared.slots := (armWorkers_frame spawned shared).1

@[simp] theorem active_armWorkers (shared : Shared n) :
    (shared.armWorkers spawned).active = shared.active := (armWorkers_frame spawned shared).2.1

@[simp] theorem running_armWorkers (shared : Shared n) :
    (shared.armWorkers spawned).running = shared.running := (armWorkers_frame spawned shared).2.2

theorem armWorkers_worker (shared : Shared n) (worker : Fin n) :
    ((shared.armWorkers spawned).armed worker = shared.armed worker ∧
        (shared.armWorkers spawned).threads worker = shared.threads worker) ∨
      (shared.armed worker = false ∧ (shared.armWorkers spawned).armed worker = true ∧
        (shared.armWorkers spawned).threads worker = .starting) := by
  unfold armWorkers
  split
  · exact .inl ⟨rfl, rfl⟩
  · split
    · exact .inl ⟨rfl, rfl⟩
    · exact spawn_worker spawned _ shared worker

end Arm

/-- Arming disarms nobody. -/
theorem armed_armWorkers {shared : Shared n} {spawned : Fin n → Bool} {worker : Fin n}
    (armed : shared.armed worker = true) : (shared.armWorkers spawned).armed worker = true := by
  rcases armWorkers_worker spawned shared worker with same | new
  · exact same.1.trans armed
  · exact new.2.1

/-- On a running queue with every spawn succeeding, pending work leaves every
worker armed. -/
theorem armWorkers_arms {shared : Shared n} (running : shared.running = true) {id : EntryId}
    (pending : (shared.slots id).inUse = true ∧ (shared.slots id).state = .pending)
    (worker : Fin n) : (shared.armWorkers fun _ => true).armed worker = true := by
  unfold armWorkers
  split
  · rename_i skipped
    simp only [running, Bool.not_true, Bool.or_false, List.all_eq_true, List.mem_finRange,
      true_implies] at skipped
    exact skipped worker
  · split
    · rename_i nothing
      have nobody := nextPending_eq_none_iff.mp (Option.isNone_iff_eq_none.mp nothing) _
        (mem_snapshotAll.mpr ⟨id, rfl⟩)
      exact absurd pending nobody
    · exact spawn_arms (List.mem_finRange worker)

/-! ## The resume sweep -/

/-- User-priority work is still queued or in flight. -/
def UserWorkOutstanding (shared : Shared n) : Prop :=
  ∃ id, isUserWorkOutstanding (shared.slots id).snapshot = true

instance (shared : Shared n) : Decidable shared.UserWorkOutstanding :=
  inferInstanceAs (Decidable (∃ _ : EntryId, _))


theorem slots_resumePreempted (shared : Shared n) (id : EntryId) :
    shared.resumePreempted.slots id =
      if shared.UserWorkOutstanding then shared.slots id else (shared.slots id).resumed := by
  have outstanding : shared.snapshotAll.any isUserWorkOutstanding = true ↔
      shared.UserWorkOutstanding := by
    simp [List.any_eq_true, mem_snapshotAll, UserWorkOutstanding]
  have found := shared.snapshotAll_getElem? id
  unfold resumePreempted applyAll autoResumePreempted
  by_cases wanted : shared.UserWorkOutstanding
  · simp [outstanding.mpr wanted, wanted, found]
  · have idle : shared.snapshotAll.any isUserWorkOutstanding = false := by
      rw [Bool.eq_false_iff]
      exact fun busy => wanted (outstanding.mp busy)
    simp only [idle, Bool.false_eq_true, ↓reduceIte, List.getElem?_map, found, Option.map_some,
      wanted, Entry.autoResume, Slot.resumed, Slot.snapshot]
    split <;> rfl

@[simp] theorem active_resumePreempted (shared : Shared n) :
    shared.resumePreempted.active = shared.active := rfl

@[simp] theorem armed_resumePreempted (shared : Shared n) :
    shared.resumePreempted.armed = shared.armed := rfl

@[simp] theorem threads_resumePreempted (shared : Shared n) :
    shared.resumePreempted.threads = shared.threads := rfl

@[simp] theorem running_resumePreempted (shared : Shared n) :
    shared.resumePreempted.running = shared.running := rfl

/-! ## Preemption -/

/-- The entry that makes way for one of this priority, if one does. -/
def yieldId (shared : Shared n) (priority : Priority) : Option EntryId :=
  (yieldTarget shared.snapshotAll shared.claimed priority shared.hasIdleWorker).bind entryId

/-- What makes way for a user's entry, while no worker is idle, is the first to do so. -/
theorem yieldId_eq_some_iff {shared : Shared n} {priority : Priority} {id : EntryId} :
    shared.yieldId priority = some id ↔
      priority = .user ∧ shared.hasIdleWorker = false ∧
        YieldsFirst shared.snapshotAll shared.claimed id.val := by
  rw [yieldId, bind_entryId_eq_some_iff, yieldTarget_eq_some_iff]

/-- What makes way is a downloading background transfer that a worker holds, and
no worker is idle. -/
theorem yieldId_eq_some {shared : Shared n} {priority : Priority} {id : EntryId}
    (chosen : shared.yieldId priority = some id) :
    priority = .user ∧ shared.hasIdleWorker = false ∧ shared.Held id ∧
      (shared.slots id).inUse = true ∧ (shared.slots id).state = .downloading ∧
      (shared.slots id).priority = .background := by
  obtain ⟨user, busy, member, entry, found, runs, -⟩ := yieldId_eq_some_iff.mp chosen
  rw [snapshotAll_getElem?, Option.some.injEq] at found
  subst found
  obtain ⟨other, value, held⟩ := mem_claimed.mp member
  cases Fin.ext value
  exact ⟨user, busy, held, runs⟩

theorem yieldTo_eq (shared : Shared n) (priority : Priority) :
    shared.yieldTo priority =
      match shared.yieldId priority with
      | none => shared
      | some id =>
          (shared.updateSlot id fun slot => { slot with state := .preempted }).requestPause id := by
  unfold yieldTo yieldId preemptForUser
  cases chosen : yieldTarget shared.snapshotAll shared.claimed priority shared.hasIdleWorker with
  | none => rfl
  | some target =>
      obtain ⟨_, _, _, entry, found, _⟩ := yieldTarget_eq_some_iff.mp chosen
      obtain ⟨id, rfl, known, rfl⟩ := snapshotAll_eq_some found
      simp only [List.getElem?_modify, ↓reduceIte, found, known, Option.bind_some]
      rfl

@[simp] theorem armed_requestPause (shared : Shared n) (id : EntryId) :
    (shared.requestPause id).armed = shared.armed := by
  simp [requestPause]

@[simp] theorem threads_requestPause (shared : Shared n) (id : EntryId) :
    (shared.requestPause id).threads = shared.threads := by
  simp [requestPause]

@[simp] theorem running_requestPause (shared : Shared n) (id : EntryId) :
    (shared.requestPause id).running = shared.running := by
  simp [requestPause]

@[simp] theorem slot_requestPause (shared : Shared n) (id : EntryId) (worker : Fin n) :
    ((shared.requestPause id).active worker).slot = (shared.active worker).slot := by
  simp [requestPause]

@[simp] theorem isSome_download_requestPause (shared : Shared n) (id : EntryId)
    (worker : Fin n) : ((shared.requestPause id).active worker).download.isSome =
      (shared.active worker).download.isSome := by
  simp [requestPause]

@[simp] theorem slots_requestPause (shared : Shared n) (id : EntryId) :
    (shared.requestPause id).slots = Function.update shared.slots id
      { shared.slots id with pauseRequested := true } := by
  simp [requestPause]

section Yield

variable (shared : Shared n) (priority : Priority)

@[simp] theorem armed_yieldTo : (shared.yieldTo priority).armed = shared.armed := by
  rw [yieldTo_eq]
  split <;> simp

@[simp] theorem threads_yieldTo : (shared.yieldTo priority).threads = shared.threads := by
  rw [yieldTo_eq]
  split <;> simp

@[simp] theorem running_yieldTo : (shared.yieldTo priority).running = shared.running := by
  rw [yieldTo_eq]
  split <;> simp

@[simp] theorem slot_yieldTo (worker : Fin n) :
    ((shared.yieldTo priority).active worker).slot = (shared.active worker).slot := by
  rw [yieldTo_eq]
  split <;> simp

@[simp] theorem isSome_download_yieldTo (worker : Fin n) :
    ((shared.yieldTo priority).active worker).download.isSome =
      (shared.active worker).download.isSome := by
  rw [yieldTo_eq]
  split <;> simp

/-- A slot that makes way is preempted and asked to pause; every other slot is
left alone. -/
theorem slots_yieldTo (id : EntryId) :
    (shared.yieldTo priority).slots id =
      if shared.yieldId priority = some id then
        { shared.slots id with state := .preempted, pauseRequested := true }
      else shared.slots id := by
  rw [yieldTo_eq]
  cases chosen : shared.yieldId priority with
  | none => simp
  | some target =>
      by_cases same : id = target
      · subst same
        simp
      · simp [same, Ne.symm same]

end Yield

/-! ## Workers -/

section Take

variable (shared : Shared n) (worker : Fin n) (index : EntryId) (spawned : Fin n → Bool)

@[simp] theorem slots_take : (shared.take worker index spawned).slots =
    Function.update shared.slots index { shared.slots index with state := .downloading } := by
  simp [take]

@[simp] theorem active_take : (shared.take worker index spawned).active =
    Function.update shared.active worker { shared.active worker with slot := some index } := by
  simp [take]

@[simp] theorem running_take : (shared.take worker index spawned).running = shared.running := by
  simp [take]

@[simp] theorem threads_take_self :
    (shared.take worker index spawned).threads worker = .holding index := by
  simp [take]

/-- A claim leaves the other workers as they were, or newly armed. -/
theorem take_worker {other : Fin n} (different : other ≠ worker) :
    ((shared.take worker index spawned).armed other = shared.armed other ∧
        (shared.take worker index spawned).threads other = shared.threads other) ∨
      (shared.armed other = false ∧ (shared.take worker index spawned).armed other = true ∧
        (shared.take worker index spawned).threads other = .starting) := by
  simp only [take, armed_setThread, threads_setThread, ne_eq, different, not_false_eq_true,
    Function.update_of_ne]
  exact armWorkers_worker spawned _ other

end Take

/-- A claim disarms nobody. -/
theorem armed_take {shared : Shared n} {worker other : Fin n} {index : EntryId}
    {spawned : Fin n → Bool} (armed : shared.armed other = true) :
    (shared.take worker index spawned).armed other = true := by
  simp only [take, armed_setThread]
  exact armed_armWorkers armed

/-- The sweep leaves everything but a preempted entry's state alone. -/
theorem resumePreempted_slot (shared : Shared n) (id : EntryId) :
    ∃ state, shared.resumePreempted.slots id = { shared.slots id with state } ∧
      (state = (shared.slots id).state ∨ state = .pending ∧ (shared.slots id).inUse = true ∧
        (shared.slots id).state = .preempted ∧ ¬shared.UserWorkOutstanding) := by
  rw [slots_resumePreempted]
  split
  · exact ⟨_, rfl, .inl rfl⟩
  · rename_i idle
    unfold Slot.resumed
    split
    · rename_i preempted
      exact ⟨.pending, rfl, .inr ⟨rfl, preempted.1, preempted.2, idle⟩⟩
    · exact ⟨_, rfl, .inl rfl⟩

/-- A worker that looks for work retires after the sweep, or takes the entry
that is next. -/
theorem claim_cases (shared : Shared n) (worker : Fin n) (spawned : Fin n → Bool) :
    (shared.resumePreempted.pendingId = none ∧
        shared.claim worker spawned = shared.resumePreempted.retire worker) ∨
      ∃ index, shared.resumePreempted.pendingId = some index ∧
        shared.claim worker spawned = shared.resumePreempted.take worker index spawned := by
  unfold claim
  split
  · rename_i nothing
    exact .inl ⟨nothing, rfl⟩
  · rename_i index found
    exact .inr ⟨index, found, rfl⟩

section Release

variable (shared : Shared n) (worker : Fin n)

@[simp] theorem active_releaseWorker :
    (shared.releaseWorker worker).active = Function.update shared.active worker {} := by
  unfold releaseWorker
  split <;> rfl

@[simp] theorem armed_releaseWorker :
    (shared.releaseWorker worker).armed = Function.update shared.armed worker false := by
  unfold releaseWorker
  split <;> rfl

@[simp] theorem threads_releaseWorker :
    (shared.releaseWorker worker).threads = Function.update shared.threads worker .gone := by
  unfold releaseWorker
  split <;> rfl

@[simp] theorem running_releaseWorker :
    (shared.releaseWorker worker).running = shared.running := by
  unfold releaseWorker
  split <;> rfl

theorem slots_releaseWorker : (shared.releaseWorker worker).slots =
    match (shared.active worker).slot with
    | none => shared.slots
    | some claimed => Function.update shared.slots claimed
        { (shared.slots claimed).publishFailure .panicked with state := .failed } := by
  unfold releaseWorker
  cases (shared.active worker).slot <;> rfl

end Release

/-! ## Callers -/

section Callers

variable {shared after : Shared n} {id : EntryId}

theorem unused_of_freeSlot (found : shared.freeSlot = some id) :
    (shared.slots id).inUse = false := by
  simpa [freeSlot] using List.find?_some found

theorem freeSlot_of_queue {request : Request} {now : Int} {spawned : Fin n → Bool}
    (queued : shared.queue request now spawned = some (after, id)) :
    shared.freeSlot = some id := by
  simp only [queue, Option.map_eq_some_iff, Prod.mk.injEq] at queued
  obtain ⟨_, found, -, rfl⟩ := queued
  exact found

/-- What a queue call does to each slot: the first free one takes the request,
and a background transfer may make way. -/
theorem queue_eq_some {request : Request} {now : Int} {spawned : Fin n → Bool}
    (queued : shared.queue request now spawned = some (after, id)) :
    (shared.slots id).inUse = false ∧
      after = ((shared.enqueue id request now).yieldTo request.priority).armWorkers spawned := by
  refine ⟨unused_of_freeSlot (freeSlot_of_queue queued), ?_⟩
  simp only [queue, Option.map_eq_some_iff, Prod.mk.injEq] at queued
  obtain ⟨free, -, rfl, rfl⟩ := queued
  rfl

/-- What a cancel that applies does: the entry is cancelled, or a worker holds
it and the promise is down. -/
theorem cancel_eq_some (cancelled : shared.cancel id = some after) :
    (∃ state, after.slots = Function.update shared.slots id
        { shared.slots id with
          state
          cancelRequested := (shared.slots id).cancelRequested || shared.isActive id } ∧
      (shared.Held id ∧ state = (shared.slots id).state ∨ state = .cancelled ∧
        ((shared.slots id).state = .pending ∨ (shared.slots id).state = .paused ∨
          (shared.slots id).state = .preempted ∧ ¬shared.Held id))) ∧
    after.armed = shared.armed ∧ after.threads = shared.threads ∧
    after.running = shared.running ∧
    (∀ worker, (after.active worker).slot = (shared.active worker).slot ∧
      (after.active worker).download.isSome = (shared.active worker).download.isSome) ∧
    ∀ worker, after.Pausing worker → shared.Pausing worker := by
  simp only [cancel, Option.map_eq_some_iff] at cancelled
  obtain ⟨entry, policy, rfl⟩ := cancelled
  -- The policy only ever changes the state, and keeps it only under a claim.
  have decided : entry.inUse = (shared.slots id).inUse ∧
      (shared.Held id ∧ entry.state = (shared.slots id).state ∨ entry.state = .cancelled ∧
        ((shared.slots id).state = .pending ∨ (shared.slots id).state = .paused ∨
          (shared.slots id).state = .preempted ∧ ¬shared.Held id)) := by
    unfold Entry.cancel at policy
    split at policy
    · split at policy
      · rename_i active
        cases policy
        exact ⟨rfl, .inl ⟨isActive_iff.mp active, rfl⟩⟩
      · cases policy
    · rename_i preempted
      split at policy
      · rename_i active
        cases policy
        exact ⟨rfl, .inl ⟨isActive_iff.mp active, rfl⟩⟩
      · rename_i idle
        cases policy
        exact ⟨rfl, .inr ⟨rfl, .inr (.inr ⟨preempted, fun held => idle (isActive_iff.mpr held)⟩)⟩⟩
    · rename_i pending
      cases policy
      exact ⟨rfl, .inr ⟨rfl, .inl pending⟩⟩
    · rename_i paused
      cases policy
      exact ⟨rfl, .inr ⟨rfl, .inr (.inl paused)⟩⟩
    all_goals cases policy
  refine ⟨⟨entry.state, ?_, decided.2⟩, ?_⟩
  · split
    · rename_i active
      simp [Slot.apply, decided.1, active]
    · rename_i idle
      simp [Slot.apply, decided.1, idle]
  · split
    · exact ⟨by simp, by simp, by simp, by simp, fun _ => pausing_raiseFor_requestCancel⟩
    · exact ⟨rfl, rfl, rfl, fun _ => ⟨rfl, rfl⟩, fun _ pausing => pausing⟩

/-- What a pause that applies does, to a downloading entry that a worker
holds. -/
theorem pause_eq_some (paused : shared.pause id = some after) :
    shared.Held id ∧ (shared.slots id).state = .downloading ∧ after = shared.requestPause id := by
  simp only [pause, Entry.pause, Slot.snapshot, Option.ite_none_right_eq_some,
    Bool.and_eq_true, beq_iff_eq, Option.some.injEq] at paused
  exact ⟨isActive_iff.mp paused.1.2, paused.1.1, paused.2.symm⟩

/-- What a resume that applies does, to a paused entry. -/
theorem resume_eq_some {spawned : Fin n → Bool} (resumed : shared.resume id spawned = some after) :
    (shared.slots id).state = .paused ∧
      after = (shared.updateSlot id fun slot => { slot with state := .pending }).armWorkers
        spawned := by
  simp only [resume, Option.map_eq_some_iff] at resumed
  obtain ⟨entry, policy, rfl⟩ := resumed
  unfold Entry.resume at policy
  split at policy
  · rename_i paused
    cases policy
    exact ⟨paused, rfl⟩
  · cases policy

/-- What a remove that applies does, to an entry that no worker holds. -/
theorem remove_eq_some (removed : shared.remove id = some after) :
    ¬shared.Held id ∧ (shared.slots id).state ≠ .downloading ∧
      after = shared.updateSlot id fun slot => { slot with inUse := false } := by
  simp only [remove, Option.map_eq_some_iff] at removed
  obtain ⟨entry, policy, rfl⟩ := removed
  unfold Entry.remove at policy
  split at policy
  · cases policy
  · rename_i allowed
    cases policy
    exact ⟨fun held => allowed (.inl (isActive_iff.mpr held)),
      fun downloading => allowed (.inr downloading), rfl⟩

end Callers

end Shared

end Retrovert.Queue
