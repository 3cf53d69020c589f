import Mathlib.Data.Finset.Card
import Mathlib.Data.Fintype.Basic
import Retrovert.Queue.Ownership

/-!
# Users' requests and background transfers

A background transfer makes way once for a user's request: when the request is queued and
every worker is busy. Each background transfer that made way, and each idle worker, serves
one of the users' entries that wait (`Served`). A request that is queued while a worker is
idle relies on that worker, although others may; an entry that is resumed relies on nothing.
-/

set_option autoImplicit false

namespace Retrovert.Queue

open Retrovert.Runs

theorem Slot.priority_settle (slot : Slot) (verdict : Verdict) :
    (slot.settle verdict.digest verdict.state verdict.failure).priority = slot.priority := by
  unfold Slot.settle
  dsimp only
  split <;> rfl

theorem Slot.state_settle_ne_pending (slot : Slot) (verdict : Verdict) :
    (slot.settle verdict.digest verdict.state verdict.failure).state ≠ .pending := by
  rw [Slot.state_settle]
  split
  · simp
  · split
    · simp
    · cases verdict <;> simp [Verdict.state]

namespace Shared

variable {n : Nat}

/-! ## Priorities -/

/-- An entry keeps its priority. -/
theorem priority_step {before after : Shared n} {action : Action n}
    (stepped : before.step action = some after) (wired : before.Wired) {id : EntryId}
    (inUse : (before.slots id).inUse = true) :
    (after.slots id).priority = (before.slots id).priority := by
  rcases record_step stepped wired inUse with same | ⟨worker, -, ⟨verdict, -, slot⟩ | ⟨-, slot⟩⟩
  · exact same.priority
  · rw [slot]
    exact Slot.priority_settle _ _
  · rw [slot]
    rfl

/-! ## Who waits and who makes way -/

instance (shared : Shared n) (id : EntryId) : Decidable (shared.Held id) :=
  inferInstanceAs (Decidable (∃ worker : Fin n, (shared.active worker).slot = some id))

/-- A user's entry waits for a worker. -/
def Waits (shared : Shared n) (id : EntryId) : Prop :=
  (shared.slots id).inUse = true ∧ (shared.slots id).priority = .user ∧
    (shared.slots id).state = .pending

instance (shared : Shared n) : DecidablePred shared.Waits := fun _ =>
  inferInstanceAs (Decidable (_ ∧ _ ∧ _))

/-- A transfer that a worker runs has been told to yield. -/
def Yields (shared : Shared n) (id : EntryId) : Prop :=
  shared.Held id ∧ (shared.slots id).state = .preempted

instance (shared : Shared n) : DecidablePred shared.Yields := fun _ =>
  inferInstanceAs (Decidable (_ ∧ _))

def waiting (shared : Shared n) : Finset EntryId := Finset.univ.filter shared.Waits

def yielding (shared : Shared n) : Finset EntryId := Finset.univ.filter shared.Yields

def idle (shared : Shared n) : Finset (Fin n) :=
  Finset.univ.filter fun worker => (shared.active worker).slot = none

/-- Some worker runs a background transfer that has not been told to yield. -/
def BackgroundRuns (shared : Shared n) : Prop :=
  ∃ worker id, (shared.active worker).slot = some id ∧
    (shared.slots id).state = .downloading ∧ (shared.slots id).priority = .background

instance (shared : Shared n) : Decidable shared.BackgroundRuns :=
  inferInstanceAs (Decidable (∃ worker : Fin n, ∃ id : EntryId,
    (shared.active worker).slot = some id ∧ (shared.slots id).state = .downloading ∧
      (shared.slots id).priority = .background))

/-- Beside a background transfer, every user's entry that waits has a worker to wait for:
one that is idle, or one whose transfer has been told to yield. -/
def Served (shared : Shared n) : Prop :=
  shared.BackgroundRuns → shared.waiting.card ≤ shared.yielding.card + shared.idle.card

/-- There is a worker for one more of the users' entries. -/
def Spare (shared : Shared n) : Prop :=
  shared.BackgroundRuns → shared.waiting.card < shared.yielding.card + shared.idle.card

instance (shared : Shared n) : Decidable shared.Spare :=
  inferInstanceAs (Decidable (_ → _))

@[simp] theorem mem_waiting {shared : Shared n} {id : EntryId} :
    id ∈ shared.waiting ↔ shared.Waits id := by simp [waiting]

@[simp] theorem mem_yielding {shared : Shared n} {id : EntryId} :
    id ∈ shared.yielding ↔ shared.Yields id := by simp [yielding]

@[simp] theorem mem_idle {shared : Shared n} {worker : Fin n} :
    worker ∈ shared.idle ↔ (shared.active worker).slot = none := by simp [idle]

/-! ## What a step does to them -/

/-- What has been told to yield is a background transfer. -/
def BackgroundYields (shared : Shared n) : Prop :=
  ∀ id, (shared.slots id).inUse = true → (shared.slots id).state = .preempted →
    (shared.slots id).priority = .background

section Step

variable {before after : Shared n} {action : Action n}

theorem backgroundYields_step (stepped : before.step action = some after) (wired : before.Wired)
    (background : before.BackgroundYields) : after.BackgroundYields := by
  intro id inUse preempted
  cases step_entry id stepped wired with
  | same slot _ =>
      rw [slot.inUse] at inUse
      rw [slot.state] at preempted
      rw [priority_step stepped wired inUse]
      exact background id inUse preempted
  | queued _ slot _ => simp [slot, Request.slot] at preempted
  | @preempted request now _ free found target _ slot _ =>
      have apart : id ≠ free := by
        rintro rfl
        exact before.yieldId_ne_queued id request now target
      obtain ⟨-, -, -, -, -, ranked⟩ := yieldId_eq_some target
      rw [slot]
      simpa [enqueue, apart] using ranked
  | cancelled state slot decided _ =>
      rw [slot] at inUse preempted ⊢
      rcases decided with ⟨-, kept⟩ | ⟨cancelled, -⟩
      · exact background id inUse (kept ▸ preempted)
      · rw [cancelled] at preempted
        cases preempted
  | paused _ _ slot _ =>
      rw [slot] at inUse preempted ⊢
      exact background id inUse preempted
  | resumed _ _ slot _ | swept _ _ slot _ | taken _ _ slot _ _ _ | settlePanicked _ slot _ =>
      simp [slot] at preempted
  | removed _ _ slot _ => simp [slot] at inUse
  | @settled _ verdict _ _ slot _ _ =>
      rw [slot, Slot.inUse_settle] at inUse
      rw [slot, Slot.state_settle] at preempted
      rw [slot, Slot.priority_settle]
      split at preempted
      · cases preempted
      · split at preempted
        · rename_i was
          exact background id inUse was.1
        · cases verdict <;> cases preempted

/-- An entry waits that waited before, or that has just been queued or resumed. -/
theorem waits_step (stepped : before.step action = some after) (wired : before.Wired)
    (background : before.BackgroundYields) {id : EntryId} (waits : after.Waits id) :
    before.Waits id ∨
      (∃ request now spawned, action = .queue request now spawned ∧ request.priority = .user) ∨
      ∃ spawned, action = .resume id spawned ∧ (before.slots id).inUse = true ∧
        (before.slots id).priority = .user ∧ (before.slots id).state = .paused := by
  obtain ⟨inUse, user, pending⟩ := waits
  cases step_entry id stepped wired with
  | same slot _ =>
      rw [slot.inUse] at inUse
      rw [slot.state] at pending
      rw [priority_step stepped wired inUse] at user
      exact .inl ⟨inUse, user, pending⟩
  | @queued request now spawned _ slot _ =>
      rw [slot] at user
      exact .inr (.inl ⟨request, now, spawned, rfl, user⟩)
  | preempted _ _ _ slot _ | taken _ _ slot _ _ _ | settlePanicked _ slot _ =>
      simp [slot] at pending
  | cancelled state slot decided _ =>
      rw [slot] at inUse user pending
      rcases decided with ⟨-, kept⟩ | ⟨cancelled, -⟩
      · exact .inl ⟨inUse, user, kept ▸ pending⟩
      · rw [cancelled] at pending
        cases pending
  | paused _ _ slot _ =>
      rw [slot] at inUse user pending
      exact .inl ⟨inUse, user, pending⟩
  | @resumed spawned _ paused slot _ =>
      rw [slot] at inUse user
      exact .inr (.inr ⟨spawned, rfl, inUse, user, paused⟩)
  | removed _ _ slot _ => simp [slot] at inUse
  | swept _ preempted slot _ =>
      rw [slot] at inUse user
      rw [background id inUse preempted] at user
      cases user
  | settled _ _ slot _ _ =>
      rw [slot] at pending
      exact absurd pending (Slot.state_settle_ne_pending _ _)

/-- A transfer that has been told to yield goes on to, until its worker lets go of it, or a
look for work finds no user's entry outstanding. -/
theorem yields_step (stepped : before.step action = some after) (wired : before.Wired)
    {id : EntryId} (yields : before.Yields id) :
    after.Yields id ∨
      (∃ worker spawned, action = .claim worker spawned ∧ ¬before.UserWorkOutstanding) ∨
      ∃ worker, (before.active worker).slot = some id ∧
        ((∃ verdict, action = .settle worker verdict) ∨ action = .settlePanics worker) := by
  obtain ⟨held, preempted⟩ := yields
  cases step_entry id stepped wired with
  | same slot claim => exact .inl ⟨claim.held.mpr held, slot.state.trans preempted⟩
  | queued free _ _ =>
      rw [wired.inUse id held] at free
      cases free
  | preempted _ _ downloading _ _ | paused _ downloading _ _ =>
      rw [preempted] at downloading
      cases downloading
  | cancelled state slot decided claim =>
      rcases decided with ⟨-, kept⟩ | ⟨-, pending | paused | ⟨-, idle⟩⟩
      · refine .inl ⟨claim.held.mpr held, ?_⟩
        rw [slot, kept]
        exact preempted
      · rw [preempted] at pending
        cases pending
      · rw [preempted] at paused
        cases paused
      · exact absurd held idle
  | resumed _ paused _ _ =>
      rw [preempted] at paused
      cases paused
  | removed _ idle _ _ => exact absurd held idle
  | swept nothing _ _ _ => exact .inr (.inl ⟨_, _, rfl, nothing⟩)
  | taken _ waiting _ _ _ _ =>
      rcases waiting with pending | ⟨-, nothing⟩
      · rw [preempted] at pending
        cases pending
      · exact .inr (.inl ⟨_, _, rfl, nothing⟩)
  | settled holding _ _ _ _ => exact .inr (.inr ⟨_, holding, .inl ⟨_, rfl⟩⟩)
  | settlePanicked holding _ _ => exact .inr (.inr ⟨_, holding, .inr rfl⟩)

/-- Only a look for work starts a transfer. -/
theorem backgroundRuns_step (stepped : before.step action = some after) (wired : before.Wired)
    (calm : ∀ worker spawned, action ≠ .claim worker spawned) (runs : after.BackgroundRuns) :
    before.BackgroundRuns := by
  obtain ⟨worker, id, holds, downloading, background⟩ := runs
  cases step_entry id stepped wired with
  | same slot claim =>
      have held := (claim.holders worker).mp holds
      rw [slot.state] at downloading
      rw [priority_step stepped wired (wired.inUse id ⟨worker, held⟩)] at background
      exact ⟨worker, id, held, downloading, background⟩
  | queued _ slot _ => simp [slot, Request.slot] at downloading
  | preempted _ _ _ slot _ | resumed _ _ slot _ | settlePanicked _ slot _ =>
      simp [slot] at downloading
  | cancelled state slot decided claim =>
      rw [slot] at downloading background
      rcases decided with ⟨-, kept⟩ | ⟨cancelled, -⟩
      · exact ⟨worker, id, (claim.holders worker).mp holds, kept ▸ downloading, background⟩
      · rw [cancelled] at downloading
        cases downloading
  | paused _ _ slot holders =>
      rw [slot] at downloading background
      exact ⟨worker, id, (holders worker).mp holds, downloading, background⟩
  | removed _ idle _ claim => exact absurd (claim.held.mp ⟨worker, holds⟩) idle
  | swept _ _ _ _ | taken _ _ _ _ _ _ => exact absurd rfl (calm _ _)
  | settled _ _ slot _ _ =>
      rw [slot] at downloading
      exact absurd downloading (Slot.state_settle_ne_downloading _ _)

/-- A worker that is idle stays so until it looks for work. -/
theorem idle_step (stepped : before.step action = some after) (wired : before.Wired)
    {worker : Fin n} (idle : (before.active worker).slot = none) :
    (after.active worker).slot = none ∨ ∃ spawned, action = .claim worker spawned := by
  cases holds : (after.active worker).slot with
  | none => exact .inl rfl
  | some id =>
      have busy : (before.active worker).slot ≠ some id := by simp [idle]
      cases step_entry id stepped wired with
      | same _ claim | cancelled _ _ _ claim | resumed _ _ _ claim | removed _ _ _ claim
      | swept _ _ _ claim => exact absurd ((claim.holders worker).mp holds) busy
      | queued _ _ holders | preempted _ _ _ _ holders | paused _ _ _ holders =>
          exact absurd ((holders worker).mp holds) busy
      | taken _ _ _ holders _ _ =>
          rcases (holders worker).mp holds with rfl | held
          · exact .inr ⟨_, rfl⟩
          · exact absurd held busy
      | settled _ _ _ holders _ | settlePanicked _ _ holders =>
          exact absurd ((holders worker).mp holds).2 busy

end Step

/-! ## Every user's entry has its worker -/

/-- A user's request that is queued while a worker is idle, and a user's entry that is
resumed, has a worker of its own. -/
def FindsWorker (shared : Shared n) : Action n → Prop
  | .queue request _ _ =>
      request.priority = .user → shared.hasIdleWorker = true → shared.freeSlot.isSome = true →
        shared.Spare
  | .resume id _ =>
      (shared.slots id).inUse = true → (shared.slots id).priority = .user →
        (shared.slots id).state = .paused → shared.Spare
  | _ => True

instance (shared : Shared n) : (action : Action n) → Decidable (shared.FindsWorker action)
  | .queue request _ _ =>
      inferInstanceAs (Decidable (request.priority = .user → shared.hasIdleWorker = true →
        shared.freeSlot.isSome = true → shared.Spare))
  | .resume id _ =>
      inferInstanceAs (Decidable ((shared.slots id).inUse = true →
        (shared.slots id).priority = .user → (shared.slots id).state = .paused → shared.Spare))
  | .cancel _ | .pause _ | .remove _ | .shutdown | .stopTransfers | .hookReturns _
  | .hookPanics _ | .look _ | .stop _ | .claim _ _ | .install _ | .requestCancel _
  | .relayPause _ | .progress _ _ _ | .settle _ _ | .settlePanics _ =>
      inferInstanceAs (Decidable True)

section Serve

variable {before after : Shared n} {action : Action n}

theorem idle_subset (stepped : before.step action = some after) (wired : before.Wired)
    (calm : ∀ worker spawned, action ≠ .claim worker spawned) : before.idle ⊆ after.idle := by
  intro worker idle
  rw [mem_idle] at idle ⊢
  rcases idle_step stepped wired idle with still | ⟨spawned, same⟩
  · exact still
  · exact absurd same (calm _ _)

theorem yielding_subset (stepped : before.step action = some after) (wired : before.Wired)
    (calm : ∀ worker spawned, action ≠ .claim worker spawned)
    (holds : ∀ worker, action ≠ .settlePanics worker ∧
      ∀ verdict, action ≠ .settle worker verdict) : before.yielding ⊆ after.yielding := by
  intro id yields
  rw [mem_yielding] at yields ⊢
  rcases yields_step stepped wired yields with
    still | ⟨_, _, same, -⟩ | ⟨worker, -, ⟨verdict, same⟩ | same⟩
  · exact still
  · exact absurd same (calm _ _)
  · exact absurd same ((holds worker).2 verdict)
  · exact absurd same (holds worker).1

theorem waiting_subset (stepped : before.step action = some after) (wired : before.Wired)
    (background : before.BackgroundYields)
    (queues : ∀ request now spawned, action = .queue request now spawned →
      request.priority ≠ .user)
    (resumes : ∀ id spawned, action = .resume id spawned → (before.slots id).inUse = true →
      (before.slots id).priority = .user → (before.slots id).state ≠ .paused) :
    after.waiting ⊆ before.waiting := by
  intro id waits
  rw [mem_waiting] at waits ⊢
  rcases waits_step stepped wired background waits with
    still | ⟨_, _, _, same, user⟩ | ⟨_, same, inUse, user, paused⟩
  · exact still
  · exact absurd user (queues _ _ _ same)
  · exact absurd paused (resumes _ _ same inUse user)

/-- A step by which no entry starts to wait and no worker is lost. -/
theorem Served.of_subset (served : before.Served)
    (runs : after.BackgroundRuns → before.BackgroundRuns)
    (waiting : after.waiting ⊆ before.waiting)
    (workers : before.yielding.card + before.idle.card ≤
      after.yielding.card + after.idle.card) : after.Served := by
  intro running
  have fewer := Finset.card_le_card waiting
  have enough := served (runs running)
  omega

/-- A worker that lets go of a transfer is idle, whatever the transfer was told. -/
theorem workers_release {worker : Fin n} {index : EntryId}
    (holding : (before.active worker).slot = some index)
    (free : (after.active worker).slot = none) (idle : before.idle ⊆ after.idle)
    (yielding : ∀ id, before.Yields id → after.Yields id ∨ id = index) :
    before.yielding.card + before.idle.card ≤ after.yielding.card + after.idle.card := by
  have gained : insert worker before.idle ⊆ after.idle :=
    Finset.insert_subset (mem_idle.mpr free) idle
  have busy : worker ∉ before.idle := by simp [holding]
  have lost : before.yielding ⊆ insert index after.yielding := by
    intro id yields
    rcases yielding id (mem_yielding.mp yields) with still | rfl
    · exact Finset.mem_insert_of_mem (mem_yielding.mpr still)
    · exact Finset.mem_insert_self _ _
  have more := Finset.card_le_card gained
  have fewer := (Finset.card_le_card lost).trans (Finset.card_insert_le _ _)
  rw [Finset.card_insert_of_notMem busy] at more
  omega

/-- With every worker busy, a background transfer makes way for a user's request. -/
theorem yieldId_of_background (wired : before.Wired) (busy : before.hasIdleWorker = false)
    (runs : before.BackgroundRuns) {free : EntryId} (unused : (before.slots free).inUse = false)
    (request : Request) (now : Int) :
    ∃ id, (before.enqueue free request now).yieldId .user = some id := by
  obtain ⟨worker, id, holds, downloading, background⟩ := runs
  have inUse := wired.inUse id ⟨worker, holds⟩
  have apart : id ≠ free := by
    rintro rfl
    rw [unused] at inUse
    cases inUse
  have kept : (before.enqueue free request now).slots id = before.slots id := by
    simp [enqueue, apart]
  have idle : (before.enqueue free request now).hasIdleWorker = false := busy
  cases chosen : yieldTarget (before.enqueue free request now).snapshotAll
      (before.enqueue free request now).claimed .user
      (before.enqueue free request now).hasIdleWorker with
  | none =>
      rw [idle] at chosen
      have listed : id.val ∈ (before.enqueue free request now).claimed :=
        mem_claimed.mpr ⟨id, rfl, worker, holds⟩
      have refused := yieldTarget_eq_none_iff.mp chosen id.val listed _ (snapshotAll_getElem? _ id)
      rw [kept] at refused
      exact absurd ⟨inUse, downloading, background⟩ refused
  | some target =>
      obtain ⟨_, _, _, entry, found, _⟩ := yieldTarget_eq_some_iff.mp chosen
      obtain ⟨same, -, known, -⟩ := snapshotAll_eq_some found
      exact ⟨same, by rw [yieldId, chosen, Option.bind_some, known]⟩

theorem served_queue {request : Request} {now : Int} {spawned : Fin n → Bool}
    (finds : before.FindsWorker (.queue request now spawned))
    (stepped : before.step (.queue request now spawned) = some after) (wired : before.Wired)
    (background : before.BackgroundYields) (served : before.Served) : after.Served := by
  have runs := backgroundRuns_step stepped wired (by simp)
  have idle := Finset.card_le_card (idle_subset stepped wired (by simp))
  have yielding := yielding_subset stepped wired (by simp) (by simp)
  by_cases user : request.priority = .user
  · cases queued : before.queue request now spawned with
    | none =>
        simp only [step, queued, Option.elim_none, Option.some.injEq] at stepped
        exact stepped ▸ served
    | some result =>
        obtain ⟨made, free⟩ := result
        simp only [step, queued, Option.elim_some, Option.some.injEq] at stepped
        obtain ⟨unused, same⟩ := queue_eq_some queued
        rw [stepped] at same
        have slots : ∀ id, id ≠ free → after.slots id =
            if (before.enqueue free request now).yieldId request.priority = some id then
              { before.slots id with state := .preempted, pauseRequested := true }
            else before.slots id := by
          intro id apart
          have kept : (before.enqueue free request now).slots id = before.slots id := by
            simp [enqueue, apart]
          rw [same, slots_armWorkers, slots_yieldTo, kept]
        have waiting : after.waiting ⊆ insert free before.waiting := by
          intro id waits
          by_cases apart : id = free
          · exact apart ▸ Finset.mem_insert_self _ _
          · obtain ⟨inUse, ranked, pending⟩ := mem_waiting.mp waits
            rw [slots id apart] at inUse ranked pending
            split at pending
            · cases pending
            · rename_i other
              rw [if_neg other] at inUse ranked
              exact Finset.mem_insert_of_mem (mem_waiting.mpr ⟨inUse, ranked, pending⟩)
        have more := (Finset.card_le_card waiting).trans (Finset.card_insert_le _ _)
        intro running
        cases free_worker : before.hasIdleWorker with
        | true =>
            have there := freeSlot_of_queue queued
            have spare := finds user free_worker (by simp [there]) (runs running)
            have still := Finset.card_le_card yielding
            omega
        | false =>
            obtain ⟨target, chosen⟩ :=
              yieldId_of_background wired free_worker (runs running) unused request now
            obtain ⟨-, -, held, -, downloading, -⟩ := yieldId_eq_some chosen
            have apart : target ≠ free := by
              rintro rfl
              simp [enqueue, Request.slot] at downloading
            have fresh : target ∉ before.yielding := by
              rw [mem_yielding]
              rintro ⟨-, preempted⟩
              simp [enqueue, apart, preempted] at downloading
            have makes_way : target ∈ after.yielding := by
              rw [mem_yielding]
              refine ⟨?_, ?_⟩
              · obtain ⟨worker, holds⟩ := held
                refine ⟨worker, ?_⟩
                rw [same, active_armWorkers, slot_yieldTo]
                exact holds
              · rw [slots target apart, user, if_pos chosen]
            have gained := Finset.card_le_card (Finset.insert_subset makes_way yielding)
            rw [Finset.card_insert_of_notMem fresh] at gained
            have enough := served (runs running)
            omega
  · have waiting : after.waiting ⊆ before.waiting := by
      refine waiting_subset stepped wired background ?_ (by simp)
      intro other _ _ same
      cases same
      exact user
    exact served.of_subset runs waiting (Nat.add_le_add (Finset.card_le_card yielding) idle)

theorem served_resume {id : EntryId} {spawned : Fin n → Bool}
    (finds : before.FindsWorker (.resume id spawned))
    (stepped : before.step (.resume id spawned) = some after) (wired : before.Wired)
    (background : before.BackgroundYields) (served : before.Served) : after.Served := by
  have runs := backgroundRuns_step stepped wired (by simp)
  have idle := Finset.card_le_card (idle_subset stepped wired (by simp))
  have yielding := Finset.card_le_card (yielding_subset stepped wired (by simp) (by simp))
  by_cases counts : (before.slots id).inUse = true ∧ (before.slots id).priority = .user ∧
      (before.slots id).state = .paused
  · obtain ⟨inUse, user, paused⟩ := counts
    have waiting : after.waiting ⊆ insert id before.waiting := by
      intro other waits
      rcases waits_step stepped wired background (mem_waiting.mp waits) with
        still | ⟨_, _, _, same, -⟩ | ⟨_, same, -⟩
      · exact Finset.mem_insert_of_mem (mem_waiting.mpr still)
      · cases same
      · cases same
        exact Finset.mem_insert_self _ _
    have more := (Finset.card_le_card waiting).trans (Finset.card_insert_le _ _)
    intro running
    have spare := finds inUse user paused (runs running)
    omega
  · have waiting : after.waiting ⊆ before.waiting := by
      refine waiting_subset stepped wired background (by simp) ?_
      intro other _ same inUse user paused
      cases same
      exact counts ⟨inUse, user, paused⟩
    exact served.of_subset runs waiting (Nat.add_le_add yielding idle)

/-- A look for work serves a user's entry, if one waits. -/
theorem served_claim {worker : Fin n} {spawned : Fin n → Bool}
    (stepped : before.step (.claim worker spawned) = some after) (wired : before.Wired)
    (background : before.BackgroundYields) (served : before.Served) : after.Served := by
  have waiting : after.waiting ⊆ before.waiting :=
    waiting_subset stepped wired background (by simp) (by simp)
  rcases Finset.eq_empty_or_nonempty after.waiting with nobody | ⟨id, waits⟩
  · intro _
    rw [nobody]
    exact Nat.zero_le _
  obtain ⟨inUse, user, pending⟩ := mem_waiting.mp (waiting waits)
  have outstanding : before.UserWorkOutstanding :=
    ⟨id, by simp [isUserWorkOutstanding, Slot.snapshot, inUse, user, pending]⟩
  -- The sweep resumes nothing, and the entry that is taken is a user's.
  have swept : ∀ other, before.resumePreempted.slots other = before.slots other := by
    intro other
    rw [slots_resumePreempted, if_pos outstanding]
  have claimed := stepped
  simp only [step, Option.ite_none_right_eq_some, Option.some.injEq] at claimed
  obtain ⟨-, same⟩ := claimed
  have ready : (before.resumePreempted.slots id).inUse = true ∧
      (before.resumePreempted.slots id).state = .pending := by
    rw [swept]
    exact ⟨inUse, pending⟩
  rcases before.claim_cases worker spawned with ⟨nothing, -⟩ | ⟨index, next, taken⟩
  · exact absurd ready (pendingId_eq_none nothing id)
  · rw [taken] at same
    obtain ⟨taken_inUse, taken_pending⟩ := pendingId_eq_some next
    have ranked := pendingId_user next ready (by rw [swept]; exact user)
    rw [swept] at taken_inUse taken_pending ranked
    have waited : index ∈ before.waiting := mem_waiting.mpr ⟨taken_inUse, ranked, taken_pending⟩
    have now_runs : index ∉ after.waiting := by
      rw [mem_waiting]
      rintro ⟨-, -, still⟩
      simp [← same] at still
    have fewer := Finset.card_le_card (Finset.insert_subset waited waiting)
    rw [Finset.card_insert_of_notMem now_runs] at fewer
    have others : before.idle ⊆ insert worker after.idle := by
      intro other idle
      by_cases here : other = worker
      · exact here ▸ Finset.mem_insert_self _ _
      · refine Finset.mem_insert_of_mem ?_
        rw [mem_idle] at idle ⊢
        simpa [← same, here] using idle
    have lost := (Finset.card_le_card others).trans (Finset.card_insert_le _ _)
    have yielding : before.yielding ⊆ after.yielding := by
      intro other yields
      rw [mem_yielding] at yields ⊢
      rcases yields_step stepped wired yields with
        still | ⟨_, _, -, nothing⟩ | ⟨_, -, ⟨_, other⟩ | other⟩
      · exact still
      · exact absurd outstanding nothing
      · cases other
      · cases other
    have kept := Finset.card_le_card yielding
    rintro ⟨other, slot, holds, downloading, ranks⟩
    have apart : slot ≠ index := by
      rintro rfl
      simp [← same, swept, ranked] at ranks
    have elsewhere : other ≠ worker := by
      rintro rfl
      simp [← same] at holds
      exact apart holds.symm
    have enough := served ⟨other, slot, by simpa [← same, elsewhere] using holds,
      by simpa [← same, apart, swept] using downloading,
      by simpa [← same, apart, swept] using ranks⟩
    omega

theorem served_release {worker : Fin n} {index : EntryId}
    (acts : (∃ verdict, action = .settle worker verdict) ∨ action = .settlePanics worker)
    (stepped : before.step action = some after) (wired : before.Wired)
    (background : before.BackgroundYields) (holding : before.threads worker = .holding index)
    (free : (after.active worker).slot = none) (served : before.Served) : after.Served := by
  have holds : (before.active worker).slot = some index := by
    rw [wired.holds, holding]
    rfl
  have calm : ∀ other spawned, action ≠ .claim other spawned := by
    rcases acts with ⟨verdict, rfl⟩ | rfl <;> simp
  refine served.of_subset (backgroundRuns_step stepped wired calm) ?_ ?_
  · refine waiting_subset stepped wired background ?_ ?_
    · rcases acts with ⟨verdict, rfl⟩ | rfl <;> simp
    · rcases acts with ⟨verdict, rfl⟩ | rfl <;> simp
  · refine workers_release holds free (idle_subset stepped wired calm) ?_
    intro id yields
    rcases yields_step stepped wired yields with
      still | ⟨_, _, same, -⟩ | ⟨other, held, ⟨_, same⟩ | same⟩
    · exact .inl still
    · exact absurd same (calm _ _)
    · rcases acts with ⟨verdict, rfl⟩ | rfl
      · cases same
        rw [holds] at held
        exact .inr (Option.some.inj held).symm
      · cases same
    · rcases acts with ⟨verdict, rfl⟩ | rfl
      · cases same
      · cases same
        rw [holds] at held
        exact .inr (Option.some.inj held).symm

/-- **What one step does to the users' entries that wait.** -/
theorem served_step (finds : before.FindsWorker action) (stepped : before.step action = some after)
    (wired : before.Wired) (background : before.BackgroundYields) (served : before.Served) :
    after.Served := by
  cases action with
  | queue request now spawned => exact served_queue finds stepped wired background served
  | resume id spawned => exact served_resume finds stepped wired background served
  | claim worker spawned => exact served_claim stepped wired background served
  | settle worker verdict =>
      have settled := stepped
      simp only [step, Option.bind_eq_some_iff, Option.ite_none_left_eq_some,
        Option.some.injEq] at settled
      obtain ⟨index, holding, -, same⟩ := settled
      refine served_release (.inl ⟨verdict, rfl⟩) stepped wired background
        (Thread.index_eq_some.mp holding) ?_ served
      simp [← same, finish]
  | settlePanics worker =>
      have panicked := stepped
      simp only [step, Option.map_eq_some_iff] at panicked
      obtain ⟨index, holding, same⟩ := panicked
      refine served_release (.inr rfl) stepped wired background
        (Thread.index_eq_some.mp holding) ?_ served
      simp [← same]
  | _ =>
      refine served.of_subset (backgroundRuns_step stepped wired (by simp)) ?_ ?_
      · exact waiting_subset stepped wired background (by simp) (by simp)
      · exact Nat.add_le_add
          (Finset.card_le_card (yielding_subset stepped wired (by simp) (by simp)))
          (Finset.card_le_card (idle_subset stepped wired (by simp)))

end Serve

theorem served_fresh : (fresh n).Served := by
  rintro ⟨worker, id, holds, -⟩
  cases holds

/-- **No priority inversion.** In every run of any number of workers in which a user's
request that is queued while a worker is idle, and a user's entry that is resumed, has a
worker of its own: with every worker busy, either none runs a background transfer that has
not been told to yield, or as many have been told as users' entries wait. -/
theorem no_priority_inversion {shared : Shared n} (run : Reaches FindsWorker shared)
    (busy : shared.hasIdleWorker = false) :
    ¬shared.BackgroundRuns ∨ shared.waiting.card ≤ shared.yielding.card := by
  obtain ⟨-, -, served⟩ := Moves.invariant
    (fun shared : Shared n => shared.Wired ∧ shared.BackgroundYields ∧ shared.Served)
    (fun _ _ _ finds stepped held =>
      ⟨wired_step stepped held.1, backgroundYields_step stepped held.1 held.2.1,
        served_step finds stepped held.1 held.2.1 held.2.2⟩)
    run ⟨wired_fresh, fun _ inUse => (nomatch inUse), served_fresh⟩
  have nobody : shared.idle = ∅ := by
    rw [Finset.eq_empty_iff_forall_notMem]
    intro worker idle
    rw [mem_idle] at idle
    have found : shared.hasIdleWorker = true :=
      List.any_eq_true.mpr ⟨worker, List.mem_finRange worker, by simp [idle]⟩
    rw [busy] at found
    cases found
  by_cases runs : shared.BackgroundRuns
  · have enough := served runs
    rw [nobody, Finset.card_empty, Nat.add_zero] at enough
    exact .inr enough
  · exact .inl runs

/-- A background transfer makes way for the second of two users' requests. -/
theorem no_priority_inversion_preempted : ∃ shared : Shared 2,
    shared.hasIdleWorker = false ∧ shared.waiting.card = 1 ∧
      (¬shared.BackgroundRuns ∨ shared.waiting.card ≤ shared.yielding.card) := by
  obtain ⟨shared, run, checked⟩ := Moves.of_check step FindsWorker (fresh 2) preempted
    (fun shared => !shared.hasIdleWorker && shared.waiting.card == 1)
    (by decide +kernel)
  simp only [Bool.and_eq_true, Bool.not_eq_true', beq_iff_eq] at checked
  exact ⟨shared, checked.1, checked.2, no_priority_inversion run checked.1⟩

/-- Two users' requests are queued before the one idle worker looks for work, and neither
makes the background transfer of the other worker yield. -/
def promisedTwice : List (Action 2) :=
  [.queue (request 0 .background) 0 fun _ => true, .hookReturns 0] ++ looks 0 ++
    [.queue (request 1 .user) 1 fun _ => true, .queue (request 2 .user) 2 fun _ => true,
      .hookReturns 1] ++ looks 1

theorem an_idle_worker_is_promised_twice :
    ¬∀ (n : Nat) (shared : Shared n), Reaches unguarded shared →
      shared.hasIdleWorker = false →
        ¬shared.BackgroundRuns ∨ shared.waiting.card ≤ shared.yielding.card := by
  intro claimed
  obtain ⟨shared, run, checked⟩ := Moves.of_check step unguarded (fresh 2) promisedTwice
    (fun shared => !shared.hasIdleWorker && decide shared.BackgroundRuns &&
      decide (shared.yielding.card < shared.waiting.card))
    (by decide +kernel)
  simp only [Bool.and_eq_true, Bool.not_eq_true', decide_eq_true_eq] at checked
  obtain ⟨⟨busy, runs⟩, more⟩ := checked
  rcases claimed 2 shared run busy with quiet | enough
  · exact quiet runs
  · exact absurd more (Nat.not_lt.mpr enough)

end Shared

end Retrovert.Queue
