import Retrovert.Library.Runs
import Retrovert.Queue.Effects

/-!
# The queue as a system of callers and workers

An action is one hold of the queue lock, or one change made outside it: a
caller's operation, or the next thing one worker's thread does. A run is any
interleaving of them from a fresh queue, with any number of workers. What a
worker's transfer does in between is left open here: it may report progress, and
it may settle with any verdict, except that it reports a pause only once its
pause flag is up.

`Shared.step_cases` says once what a step can do. Every invariant of the queue
is a case analysis on it.
-/

set_option autoImplicit false

namespace Retrovert.Queue

open Retrovert Retrovert.Runs Retrovert.Transport

/-- One step of a caller or of a worker. `spawned` says which threads the
operating system manages to start. -/
inductive Action (n : Nat) where
  | queue (request : Request) (now : Int) (spawned : Fin n → Bool)
  | cancel (id : EntryId)
  | pause (id : EntryId)
  | resume (id : EntryId) (spawned : Fin n → Bool)
  | remove (id : EntryId)
  | shutdown
  | stopTransfers
  | hookReturns (worker : Fin n)
  | hookPanics (worker : Fin n)
  | look (worker : Fin n)
  | stop (worker : Fin n)
  | claim (worker : Fin n) (spawned : Fin n → Bool)
  | install (worker : Fin n)
  | requestCancel (worker : Fin n)
  | relayPause (worker : Fin n)
  | progress (worker : Fin n) (downloaded total : Int)
  | settle (worker : Fin n) (verdict : Verdict)
  | settlePanics (worker : Fin n)

/-- The slot a thread believes it holds. -/
def Thread.index : Thread → Option EntryId
  | .holding index => some index
  | _ => none

theorem Thread.index_eq_some {thread : Thread} {index : EntryId} :
    thread.index = some index ↔ thread = .holding index := by
  cases thread <;> simp [Thread.index]

namespace Shared

variable {n : Nat}

/-- Take one step, when it is enabled. -/
def step (shared : Shared n) : Action n → Option (Shared n)
  | .queue request now spawned => some ((shared.queue request now spawned).elim shared Prod.fst)
  | .cancel id => some ((shared.cancel id).getD shared)
  | .pause id => some ((shared.pause id).getD shared)
  | .resume id spawned => some ((shared.resume id spawned).getD shared)
  | .remove id => some ((shared.remove id).getD shared)
  | .shutdown => some shared.shutdown
  | .stopTransfers => some shared.stopTransfers
  | .hookReturns worker =>
      if shared.threads worker = .starting then some (shared.setThread worker .looking) else none
  | .hookPanics worker =>
      if shared.threads worker = .starting then some (shared.releaseWorker worker) else none
  | .look worker =>
      if shared.threads worker = .looking then
        some (shared.setThread worker (if shared.running then .claiming else .stopping))
      else none
  | .stop worker =>
      if shared.threads worker = .stopping then some (shared.retire worker) else none
  | .claim worker spawned =>
      if shared.threads worker = .claiming then some (shared.claim worker spawned) else none
  | .install worker =>
      (shared.threads worker).index.bind fun _ =>
        if (shared.active worker).download.isNone then
          some (shared.setActive worker { shared.active worker with download := some {} })
        else none
  | .requestCancel worker =>
      (shared.threads worker).index.map fun _ => shared.raise worker Flags.requestCancel
  | .relayPause worker =>
      (shared.threads worker).index.map fun index =>
        if (shared.slots index).pauseRequested then shared.raise worker Flags.requestPause
        else shared
  | .progress worker downloaded total =>
      (shared.threads worker).index.map fun index =>
        shared.updateSlot index fun slot =>
          { slot with bytesDownloaded := downloaded, bytesTotal := total }
  | .settle worker verdict =>
      (shared.threads worker).index.bind fun index =>
        if verdict = .paused ∧ ¬shared.Pausing worker then none
        else some (shared.finish worker index verdict.digest verdict.state verdict.failure)
  | .settlePanics worker =>
      (shared.threads worker).index.map fun _ => shared.releaseWorker worker

/-- The states that runs of a fresh queue lead to, every step meeting a guard. -/
def Reaches (guard : Shared n → Action n → Prop) (shared : Shared n) : Prop :=
  Moves step guard (fresh n) shared

end Shared

/-- Two slots agree on everything that decides whether and how they are run. -/
structure Slot.SameControl (before after : Slot) : Prop where
  inUse : after.inUse = before.inUse
  state : after.state = before.state
  cancelRequested : after.cancelRequested = before.cancelRequested
  pauseRequested : after.pauseRequested = before.pauseRequested
  request : after.request = before.request

theorem Slot.SameControl.refl (slot : Slot) : slot.SameControl slot := ⟨rfl, rfl, rfl, rfl, rfl⟩

namespace Shared

variable {n : Nat}

/-! ## What a step can do -/

/-- A step that only moves a thread along, raises a flag or reports progress. A
pause flag goes up only where the slot's own pause request is. -/
structure Quiet (before after : Shared n) : Prop where
  slots : ∀ id, (before.slots id).SameControl (after.slots id)
  held : ∀ worker, (after.active worker).slot = (before.active worker).slot
  armed : after.armed = before.armed
  threads : ∀ worker, (after.threads worker).index = (before.threads worker).index ∧
    (after.threads worker = .gone ↔ before.threads worker = .gone)
  stopping : ∀ worker, after.threads worker = .stopping →
    before.threads worker = .stopping ∨ before.running = false
  started : ∀ worker, (after.active worker).download.isSome = true →
    (before.active worker).download.isSome = true ∨
      ∃ index, before.threads worker = .holding index
  pausing : ∀ worker, after.Pausing worker → before.Pausing worker ∨
    ∃ index, before.threads worker = .holding index ∧ (before.slots index).pauseRequested = true

/-- What a step can do: nothing that matters to the scheduling, or one of the
operations on slots and claims. -/
inductive Change (before after : Shared n) : Action n → Prop
  | quiet {action : Action n} (same : Quiet before after)
      (running : action = .shutdown ∨ after.running = before.running) : Change before after action
  | queued {request : Request} {now : Int} {spawned : Fin n → Bool} {id : EntryId}
      (queued : before.queue request now spawned = some (after, id)) :
      Change before after (.queue request now spawned)
  | cancelled {id : EntryId} (applied : before.cancel id = some after) :
      Change before after (.cancel id)
  | paused {id : EntryId} (applied : before.pause id = some after) :
      Change before after (.pause id)
  | resumed {id : EntryId} {spawned : Fin n → Bool}
      (applied : before.resume id spawned = some after) : Change before after (.resume id spawned)
  | removed {id : EntryId} (applied : before.remove id = some after) :
      Change before after (.remove id)
  | stopped {worker : Fin n} (thread : before.threads worker = .stopping)
      (same : after = before.retire worker) :
      Change before after (.stop worker)
  | hookPanicked {worker : Fin n} (thread : before.threads worker = .starting)
      (same : after = before.releaseWorker worker) : Change before after (.hookPanics worker)
  | claimed {worker : Fin n} {spawned : Fin n → Bool} (thread : before.threads worker = .claiming)
      (same : after = before.claim worker spawned) : Change before after (.claim worker spawned)
  | settled {worker : Fin n} {verdict : Verdict} {index : EntryId}
      (thread : before.threads worker = .holding index)
      (asked : verdict = .paused → before.Pausing worker)
      (same : after = before.finish worker index verdict.digest verdict.state verdict.failure) :
      Change before after (.settle worker verdict)
  | settlePanicked {worker : Fin n} {index : EntryId}
      (thread : before.threads worker = .holding index)
      (same : after = before.releaseWorker worker) : Change before after (.settlePanics worker)

theorem Quiet.refl (shared : Shared n) : Quiet shared shared where
  slots _ := .refl _
  held _ := rfl
  armed := rfl
  threads _ := ⟨rfl, .rfl⟩
  stopping _ := .inl
  started _ there := .inl there
  pausing _ pausing := .inl pausing

/-- Moving a thread between two points at which it holds nothing is quiet. -/
theorem Quiet.setThread {shared : Shared n} {worker : Fin n} {thread : Thread}
    (before : (shared.threads worker).index = none) (there : shared.threads worker ≠ .gone)
    (after : thread.index = none) (stays : thread ≠ .gone)
    (stopping : thread = .stopping → shared.running = false) :
    Quiet shared (shared.setThread worker thread) where
  slots _ := .refl _
  held _ := rfl
  armed := rfl
  threads other := by
    by_cases same : other = worker
    · subst same
      simp [before, there, after, stays]
    · simp [same]
  stopping other there' := by
    by_cases same : other = worker
    · subst same
      exact .inr (stopping (by simpa using there'))
    · exact .inl (by simpa [same] using there')
  started _ there := .inl there
  pausing _ pausing := .inl pausing

/-- Raising a flag that is not the pause flag is quiet, and so is raising the
pause flag of a transfer whose slot asks for it. -/
theorem Quiet.raise {shared : Shared n} {worker : Fin n} {flag : Flags → Flags}
    (pausing : ∀ other, (shared.raise worker flag).Pausing other → shared.Pausing other ∨
      ∃ index, shared.threads other = .holding index ∧
        (shared.slots index).pauseRequested = true) :
    Quiet shared (shared.raise worker flag) where
  slots _ := .refl _
  held := shared.slot_raise worker flag
  armed := rfl
  threads _ := ⟨rfl, .rfl⟩
  stopping _ := .inl
  started other there := by
    by_cases same : other = worker
    · subst same
      exact .inl (by simpa [Shared.raise] using there)
    · exact .inl (by simpa [Shared.raise, same] using there)
  pausing := pausing

/-- A caller's operation either applies or leaves everything alone. -/
theorem applied_or_refused {before after : Shared n} {result : Option (Shared n)}
    (stepped : some (result.getD before) = some after) : result = some after ∨ after = before := by
  cases result with
  | none => exact .inr (Option.some.inj stepped).symm
  | some applied => exact .inl stepped

/-- **What a step can do.** -/
theorem step_cases {before after : Shared n} {action : Action n}
    (stepped : before.step action = some after) : Change before after action := by
  cases action with
  | queue request now spawned =>
      cases queued : before.queue request now spawned with
      | none =>
          simp only [step, queued, Option.elim_none, Option.some.injEq] at stepped
          exact stepped ▸ .quiet (.refl before) (.inr rfl)
      | some result =>
          simp only [step, queued, Option.elim_some, Option.some.injEq] at stepped
          subst stepped
          exact .queued queued
  | cancel id =>
      rcases applied_or_refused stepped with applied | rfl
      · exact .cancelled applied
      · exact .quiet (.refl _) (.inr rfl)
  | pause id =>
      rcases applied_or_refused stepped with applied | rfl
      · exact .paused applied
      · exact .quiet (.refl _) (.inr rfl)
  | resume id spawned =>
      rcases applied_or_refused stepped with applied | rfl
      · exact .resumed applied
      · exact .quiet (.refl _) (.inr rfl)
  | remove id =>
      rcases applied_or_refused stepped with applied | rfl
      · exact .removed applied
      · exact .quiet (.refl _) (.inr rfl)
  | shutdown =>
      cases stepped
      exact .quiet
        ⟨fun _ => .refl _, fun _ => rfl, rfl, fun _ => ⟨rfl, .rfl⟩, fun _ => .inl, fun _ => .inl,
          fun _ => .inl⟩
        (.inl rfl)
  | stopTransfers =>
      cases stepped
      refine .quiet ⟨fun _ => .refl _, fun _ => rfl, rfl, fun _ => ⟨rfl, .rfl⟩, fun _ => .inl,
        ?_, ?_⟩ (.inr rfl)
      · intro worker there
        exact .inl (by simpa [stopTransfers] using there)
      · intro worker pausing
        refine .inl (pausing_iff.mpr ?_)
        obtain ⟨flags, found, raised⟩ := pausing_iff.mp pausing
        simp only [stopTransfers, Option.map_eq_some_iff] at found
        obtain ⟨earlier, started, rfl⟩ := found
        exact ⟨earlier, started, raised⟩
  | hookReturns worker =>
      simp only [step, Option.ite_none_right_eq_some, Option.some.injEq] at stepped
      obtain ⟨thread, rfl⟩ := stepped
      exact .quiet (.setThread (by simp [thread, Thread.index]) (by simp [thread]) rfl (by simp)
        (by simp)) (.inr rfl)
  | hookPanics worker =>
      simp only [step, Option.ite_none_right_eq_some, Option.some.injEq] at stepped
      exact .hookPanicked stepped.1 stepped.2.symm
  | look worker =>
      simp only [step, Option.ite_none_right_eq_some, Option.some.injEq] at stepped
      obtain ⟨thread, rfl⟩ := stepped
      refine .quiet (.setThread (by simp [thread, Thread.index]) (by simp [thread]) ?_ ?_ ?_)
        (.inr rfl)
      · split <;> rfl
      · split <;> simp
      · split <;> simp_all
  | stop worker =>
      simp only [step, Option.ite_none_right_eq_some, Option.some.injEq] at stepped
      exact .stopped stepped.1 stepped.2.symm
  | claim worker spawned =>
      simp only [step, Option.ite_none_right_eq_some, Option.some.injEq] at stepped
      exact .claimed stepped.1 stepped.2.symm
  | install worker =>
      simp only [step, Option.bind_eq_some_iff, Option.ite_none_right_eq_some,
        Option.some.injEq] at stepped
      obtain ⟨index, thread, missing, rfl⟩ := stepped
      refine .quiet ⟨fun _ => .refl _, fun other => ?_, rfl, fun _ => ⟨rfl, .rfl⟩, fun _ => .inl,
        fun other there => ?_, fun other pausing => ?_⟩ (.inr rfl)
      all_goals by_cases same : other = worker
      · subst same
        simp
      · simp [same]
      · subst same
        exact .inr ⟨index, Thread.index_eq_some.mp thread⟩
      · exact .inl (by simpa [same] using there)
      · subst same
        simp [Pausing] at pausing
      · exact .inl (by simpa [Pausing, same] using pausing)
  | requestCancel worker =>
      simp only [step, Option.map_eq_some_iff] at stepped
      obtain ⟨index, thread, rfl⟩ := stepped
      exact .quiet (.raise fun other pausing => .inl (pausing_raise_requestCancel pausing))
        (.inr rfl)
  | relayPause worker =>
      simp only [step, Option.map_eq_some_iff] at stepped
      obtain ⟨index, thread, rfl⟩ := stepped
      split
      · rename_i asked
        refine .quiet (.raise fun other pausing => ?_) (.inr rfl)
        rcases pausing_raise pausing with earlier | ⟨rfl, _⟩
        · exact .inl earlier
        · exact .inr ⟨index, Thread.index_eq_some.mp thread, asked⟩
      · exact .quiet (.refl before) (.inr rfl)
  | progress worker downloaded total =>
      simp only [step, Option.map_eq_some_iff] at stepped
      obtain ⟨index, thread, rfl⟩ := stepped
      refine .quiet ⟨fun id => ?_, fun _ => rfl, rfl, fun _ => ⟨rfl, .rfl⟩, fun _ => .inl,
        fun _ => .inl, fun _ => .inl⟩ (.inr rfl)
      by_cases same : id = index
      · subst same
        simpa using ⟨rfl, rfl, rfl, rfl, rfl⟩
      · simpa [same] using .refl _
  | settle worker verdict =>
      simp only [step, Option.bind_eq_some_iff, Option.ite_none_left_eq_some, not_and, not_not,
        Option.some.injEq] at stepped
      obtain ⟨index, thread, asked, rfl⟩ := stepped
      exact .settled (Thread.index_eq_some.mp thread) asked rfl
  | settlePanics worker =>
      simp only [step, Option.map_eq_some_iff] at stepped
      obtain ⟨index, thread, rfl⟩ := stepped
      exact .settlePanicked (Thread.index_eq_some.mp thread) rfl

end Shared

end Retrovert.Queue
