import Retrovert.Queue.EntryView
import Retrovert.Queue.Ownership

/-!
# What the scheduler chooses

The two scans of the policy choose exactly the entry that their ordering puts
first (`selection_is_exact`). The queue asks them at two places, so the choice
can be read off its steps: a worker that takes an entry overtakes nobody who
waits (`nobody_is_overtaken`), and the transfer that makes way for a user's
request is the one that loses the least (`the_least_progressed_makes_way`).
-/

set_option autoImplicit false

namespace Retrovert.Queue

open Retrovert.Runs

/-- One entry of the active list is marked, the first to make way, and where none may make way
nothing is. -/
structure Preempts (entries : List Entry) (active : List Nat)
    (outcome : List Entry × Option Nat) : Prop where
  chosen : ∀ target, outcome.2 = some target ↔ YieldsFirst entries active target
  nobody : outcome.2 = none ↔
    ∀ index ∈ active, ∀ entry, entries[index]? = some entry → ¬entry.RunsInBackground
  marked : ∀ index, outcome.1[index]? =
    if outcome.2 = some index then
      (entries[index]?).map fun entry => { entry with state := .preempted }
    else entries[index]?

/-- What a preemption changes, and for whom. -/
theorem preemptForUser_cases (entries : List Entry) (active : List Nat) (priority : Priority)
    (idle : Bool) :
    (yieldTarget entries active priority idle = none ∧
        preemptForUser entries active priority idle = (entries, none)) ∨
      ∃ target, yieldTarget entries active priority idle = some target ∧
        preemptForUser entries active priority idle =
          (entries.modify target fun entry => { entry with state := .preempted }, some target) := by
  unfold preemptForUser
  split
  · rename_i nothing
    exact .inl ⟨nothing, rfl⟩
  · rename_i target chosen
    exact .inr ⟨target, chosen, rfl⟩

theorem preemptForUser_refused {entries : List Entry} {active : List Nat} {priority : Priority}
    {idle : Bool} (refused : ¬(priority = .user ∧ idle = false)) :
    preemptForUser entries active priority idle = (entries, none) := by
  rcases preemptForUser_cases entries active priority idle with ⟨-, same⟩ | ⟨target, chosen, -⟩
  · exact same
  · obtain ⟨user, busy, -⟩ := yieldTarget_eq_some_iff.mp chosen
    exact absurd ⟨user, busy⟩ refused

theorem preempts_preemptForUser (entries : List Entry) (active : List Nat) :
    Preempts entries active (preemptForUser entries active .user false) := by
  have first : ∀ target, yieldTarget entries active .user false = some target ↔
      YieldsFirst entries active target := by
    intro target
    rw [yieldTarget_eq_some_iff]
    simp only [true_and]
  rcases preemptForUser_cases entries active .user false with
    ⟨nothing, same⟩ | ⟨target, chosen, same⟩
  · rw [same]
    exact ⟨fun target => by rw [← first, nothing], by rw [← yieldTarget_eq_none_iff, nothing],
      fun index => by simp⟩
  · rw [same]
    refine ⟨fun other => by rw [← first, chosen], by rw [← yieldTarget_eq_none_iff, chosen], ?_⟩
    intro index
    by_cases here : target = index <;> simp [here]

/-- **Both scans choose what their ordering puts first**, and a preemption that no user's entry
needs changes nothing. -/
theorem selection_is_exact (entries : List Entry) (active : List Nat) (queuedPriority : Priority)
    (idleWorker : Bool) :
    (∀ index, nextPending entries = some index ↔ RunsFirst entries index) ∧
      (nextPending entries = none ↔ ∀ entry ∈ entries, ¬entry.Waits) ∧
      if queuedPriority = .user ∧ idleWorker = false then
        Preempts entries active (preemptForUser entries active queuedPriority idleWorker)
      else preemptForUser entries active queuedPriority idleWorker = (entries, none) := by
  refine ⟨fun index => nextPending_eq_some_iff, nextPending_eq_none_iff, ?_⟩
  split
  · rename_i asked
    obtain ⟨rfl, rfl⟩ := asked
    exact preempts_preemptForUser entries active
  · rename_i refused
    exact preemptForUser_refused refused

/-- A transfer that nobody waits for. -/
def backgroundTransfer : Entry where
  inUse := true
  priority := .background
  state := .downloading
  queueTimeMs := 0
  bytesDownloaded := 0
  bytesTotal := unknownTotal

/-- A background request preempts nothing, and neither does a user's while a worker is idle. -/
theorem a_gated_request_preempts_nothing :
    ¬Preempts [backgroundTransfer] [0] (preemptForUser [backgroundTransfer] [0] .background false) ∧
      ¬Preempts [backgroundTransfer] [0] (preemptForUser [backgroundTransfer] [0] .user true) := by
  have runs : backgroundTransfer.RunsInBackground := ⟨rfl, rfl, rfl⟩
  constructor
  · intro preempts
    exact preempts.nobody.mp rfl 0 List.mem_cons_self backgroundTransfer rfl runs
  · intro preempts
    exact preempts.nobody.mp rfl 0 List.mem_cons_self backgroundTransfer rfl runs

namespace Shared

variable {n : Nat}

/-! ## What the queue chooses -/

section Step

variable {guard : Shared n → Action n → Prop} {before after : Shared n} {action : Action n}

/-- A worker that comes to hold an entry has looked for work and found it first in line. -/
theorem taken_first (wired : before.Wired) (stepped : before.step action = some after)
    {worker : Fin n} {id : EntryId} (free : (before.active worker).slot ≠ some id)
    (took : (after.active worker).slot = some id) :
    before.resumePreempted.pendingId = some id := by
  cases step_entry id stepped wired with
  | same _ claim => exact absurd ((claim.holders worker).mp took) free
  | queued _ _ holders => exact absurd ((holders worker).mp took) free
  | preempted _ _ _ _ holders => exact absurd ((holders worker).mp took) free
  | cancelled _ _ _ claim => exact absurd ((claim.holders worker).mp took) free
  | paused _ _ _ holders => exact absurd ((holders worker).mp took) free
  | resumed _ _ _ claim => exact absurd ((claim.holders worker).mp took) free
  | removed _ _ _ claim => exact absurd ((claim.holders worker).mp took) free
  | swept _ _ _ claim => exact absurd ((claim.holders worker).mp took) free
  | settled _ _ _ holders _ => exact absurd ((holders worker).mp took).2 free
  | settlePanicked _ _ holders => exact absurd ((holders worker).mp took).2 free
  | @taken taker spawned _ _ _ holders _ _ =>
      rcases (holders worker).mp took with rfl | earlier
      · simp only [step, Option.ite_none_right_eq_some, Option.some.injEq] at stepped
        obtain ⟨-, rfl⟩ := stepped
        rcases before.claim_cases worker spawned with ⟨-, same⟩ | ⟨index, found, same⟩
        · rw [same] at took
          exact absurd took free
        · simp only [same, active_take, Function.update_self, Option.some.injEq] at took
          exact took ▸ found
      · exact absurd earlier free

/-- **A worker that takes an entry overtakes nobody who waits.** -/
theorem nobody_is_overtaken (run : Reaches guard before) (stepped : before.step action = some after)
    {worker : Fin n} {id : EntryId} (free : (before.active worker).slot ≠ some id)
    (took : (after.active worker).slot = some id) {other : EntryId}
    (inUse : (before.slots other).inUse = true) (pending : (before.slots other).state = .pending) :
    (before.slots other).priority.code < (before.slots id).priority.code ∨
      (before.slots other).priority = (before.slots id).priority ∧
        ((before.slots id).queueTimeMs < (before.slots other).queueTimeMs ∨
          (before.slots id).queueTimeMs = (before.slots other).queueTimeMs ∧ id ≤ other) := by
  obtain ⟨entry, found, -, first⟩ :=
    pendingId_eq_some_iff.mp (taken_first run.wired stepped free took)
  rw [snapshotAll_getElem?, Option.some.injEq] at found
  subst found
  -- The sweep changes states only, and leaves what waits waiting.
  obtain ⟨taken_state, taken_swept, -⟩ := before.resumePreempted_slot id
  obtain ⟨state, swept, decided⟩ := before.resumePreempted_slot other
  have still : state = .pending := by
    rcases decided with same | ⟨resumed, -⟩
    · exact same.trans pending
    · exact resumed
  have waits : (before.resumePreempted.slots other).snapshot.Waits := by
    rw [swept]
    exact ⟨inUse, still⟩
  have ahead := first other.val _ (snapshotAll_getElem? _ other) waits
  rw [swept, taken_swept] at ahead
  exact ahead

/-- A worker that looks for work passes a background entry for a user's that was queued later. -/
theorem nobody_is_overtaken_by_a_user : ∃ before after : Shared 1,
    (after.active 0).slot = some 1 ∧ (before.slots 0).state = .pending ∧
      ((before.slots 0).priority.code < (before.slots 1).priority.code ∨
        (before.slots 0).priority = (before.slots 1).priority ∧
          ((before.slots 1).queueTimeMs < (before.slots 0).queueTimeMs ∨
            (before.slots 1).queueTimeMs = (before.slots 0).queueTimeMs ∧ (1 : EntryId) ≤ 0)) := by
  obtain ⟨before, run, found⟩ := Moves.of_check step unguarded (fresh 1)
    [.queue (request 0 .background) 0 fun _ => true, .queue (request 1 .user) 1 fun _ => true,
      .hookReturns 0, .look 0]
    (fun before => decide ((before.active 0).slot ≠ some 1) &&
      ((before.slots 0).inUse && decide ((before.slots 0).state = .pending)) &&
      (before.step (.claim 0 fun _ => true)).any fun after : Shared 1 =>
        decide ((after.active 0).slot = some 1))
    (by decide +kernel)
  simp only [Bool.and_eq_true, decide_eq_true_eq] at found
  obtain ⟨⟨free, inUse, pending⟩, stepped⟩ := found
  obtain ⟨after, stepped, took⟩ := (Option.any_eq_true _ _).mp stepped
  exact ⟨before, after, of_decide_eq_true took, pending,
    nobody_is_overtaken run stepped free (of_decide_eq_true took) inUse pending⟩

/-- Only a request that finds every worker busy preempts what is downloading. -/
theorem preempted_first (wired : before.Wired) (stepped : before.step action = some after)
    {id : EntryId} (runs : (before.slots id).state = .downloading)
    (yields : (after.slots id).state = .preempted) :
    ∃ request now free, before.freeSlot = some free ∧
      (before.enqueue free request now).yieldId request.priority = some id := by
  cases step_entry id stepped wired with
  | @preempted request now _ free found target _ _ _ => exact ⟨request, now, free, found, target⟩
  | same slot _ => simp [slot.state, runs] at yields
  | queued _ slot _ => simp [slot, Request.slot] at yields
  | cancelled state slot decided _ =>
      rw [slot] at yields
      rcases decided with ⟨-, same⟩ | ⟨same, -⟩
      · simp [same, runs] at yields
      · simp [same] at yields
  | paused _ _ slot _ => simp [slot, runs] at yields
  | resumed _ _ slot _ => simp [slot] at yields
  | removed _ _ slot _ => simp [slot, runs] at yields
  | swept _ _ slot _ => simp [slot] at yields
  | taken _ _ slot _ _ _ => simp [slot] at yields
  | @settled _ verdict _ _ slot _ _ =>
      rw [slot, Slot.state_settle, runs] at yields
      split at yields
      · cases yields
      · cases verdict <;> simp [Verdict.state] at yields
  | settlePanicked _ slot _ => simp [slot] at yields

/-- **What makes way for a user's request has the fewest bytes on disk of the background
transfers that run, and of those that have as few it was queued last.** -/
theorem the_least_progressed_makes_way (run : Reaches guard before)
    (stepped : before.step action = some after) {id : EntryId}
    (runs : (before.slots id).state = .downloading)
    (yields : (after.slots id).state = .preempted) {other : EntryId} (held : before.Held other)
    (downloading : (before.slots other).state = .downloading)
    (background : (before.slots other).priority = .background) :
    (before.slots id).bytesDownloaded < (before.slots other).bytesDownloaded ∨
      (before.slots id).bytesDownloaded = (before.slots other).bytesDownloaded ∧
        (before.slots other).queueTimeMs ≤ (before.slots id).queueTimeMs := by
  obtain ⟨request, now, free, found, target⟩ := preempted_first run.wired stepped runs yields
  -- The slot that takes the request is none that a worker holds.
  have kept : ∀ slot, before.Held slot →
      (before.enqueue free request now).slots slot = before.slots slot := by
    intro slot holding
    have unused := unused_of_freeSlot found
    have apart : slot ≠ free := by
      rintro rfl
      rw [run.wired.inUse slot holding] at unused
      cases unused
    simp [enqueue, apart]
  have holding : before.Held id := (yieldId_eq_some target).2.2.1
  obtain ⟨-, -, -, entry, known, -, first⟩ := yieldId_eq_some_iff.mp target
  rw [snapshotAll_getElem?, kept id holding, Option.some.injEq] at known
  subst known
  have listed : other.val ∈ (before.enqueue free request now).claimed :=
    mem_claimed.mpr ⟨other, rfl, held⟩
  have ahead := first other.val listed _ (snapshotAll_getElem? _ other)
  rw [kept other held] at ahead
  rcases ahead ⟨run.wired.inUse other held, downloading, background⟩ with fewer | ⟨same, later⟩
  · exact .inl fewer
  · refine .inr ⟨same, ?_⟩
    rcases later with later | ⟨together, -⟩
    · exact later.le
    · exact together.le

/-- Both workers run background transfers, and a user's request stops the one queued last. -/
theorem the_least_progressed_makes_way_of_two : ∃ before after : Shared 2,
    (before.slots 1).state = .downloading ∧ (after.slots 1).state = .preempted ∧
      ((before.slots 1).bytesDownloaded < (before.slots 0).bytesDownloaded ∨
        (before.slots 1).bytesDownloaded = (before.slots 0).bytesDownloaded ∧
          (before.slots 0).queueTimeMs ≤ (before.slots 1).queueTimeMs) := by
  obtain ⟨before, run, found⟩ := Moves.of_check step unguarded (fresh 2)
    ([.queue (request 0 .background) 0 fun _ => true, .hookReturns 0] ++ looks 0 ++
      [.queue (request 1 .background) 1 fun _ => true, .hookReturns 1] ++ looks 1)
    (fun before => decide ((before.slots 1).state = .downloading) &&
      (decide ((before.active 0).slot = some 0) && decide ((before.slots 0).state = .downloading) &&
        decide ((before.slots 0).priority = .background)) &&
      (before.step (.queue (request 2 .user) 2 fun _ => true)).any fun after : Shared 2 =>
        decide ((after.slots 1).state = .preempted))
    (by decide +kernel)
  simp only [Bool.and_eq_true, decide_eq_true_eq] at found
  obtain ⟨⟨runs, ⟨held, downloading⟩, background⟩, stepped⟩ := found
  obtain ⟨after, stepped, yields⟩ := (Option.any_eq_true _ _).mp stepped
  exact ⟨before, after, runs, of_decide_eq_true yields,
    the_least_progressed_makes_way run stepped runs (of_decide_eq_true yields) ⟨0, held⟩
      downloading background⟩

end Step

end Shared

end Retrovert.Queue
