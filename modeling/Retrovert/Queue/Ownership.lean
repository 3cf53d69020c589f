import Retrovert.Queue.EntryView

/-!
# Who owns a slot

A worker claims a slot by marking it downloading and putting it in its own
entry of the active list. Ownership would be exclusive if nothing but a settle
could make a claimed slot pending again. The resume sweep can: a preempted
transfer is still held until its worker settles it, and the sweep of a second
worker returns it to pending under the first one's feet
(`two_workers_hold_one_slot`).

That is the only way it fails. In every run whose sweeps resume no held slot,
each slot has at most one holder, a held slot is downloading or preempted, and
a downloading slot is held (`ownership_is_exclusive`).
-/

set_option autoImplicit false

namespace Retrovert.Queue

open Retrovert.Runs

namespace Shared

variable {n : Nat}

/-- A look for work finds user-priority work outstanding, so that its sweep
resumes nothing, or finds no preempted entry that a worker still holds. -/
def SweepSparesHeld (shared : Shared n) : Action n → Prop
  | .claim _ _ => shared.UserWorkOutstanding ∨
      ∀ id, shared.Held id → (shared.slots id).state ≠ .preempted
  | _ => True

instance (shared : Shared n) : (action : Action n) → Decidable (shared.SweepSparesHeld action)
  | .claim _ _ => inferInstanceAs (Decidable (shared.UserWorkOutstanding ∨
      ∀ id, (∃ worker, (shared.active worker).slot = some id) →
        (shared.slots id).state ≠ .preempted))
  | .queue _ _ _ | .cancel _ | .pause _ | .resume _ _ | .remove _ | .shutdown | .stopTransfers
  | .hookReturns _ | .hookPanics _ | .look _ | .stop _ | .install _ | .requestCancel _
  | .relayPause _ | .progress _ _ _ | .settle _ _ | .settlePanics _ =>
      inferInstanceAs (Decidable True)

/-- One slot and the workers agree on who runs it. -/
structure Owned (id : EntryId) (shared : Shared n) : Prop where
  alone : ∀ first second, (shared.active first).slot = some id →
    (shared.active second).slot = some id → first = second
  held : shared.Held id → (shared.slots id).inUse = true ∧
    ((shared.slots id).state = .downloading ∨ (shared.slots id).state = .preempted)
  downloading : (shared.slots id).inUse = true → (shared.slots id).state = .downloading →
    shared.Held id

theorem owned_fresh (id : EntryId) : Owned id (fresh n) where
  alone _ _ held := by cases held
  held := fun ⟨_, held⟩ => by cases held
  downloading inUse := by cases inUse

/-- A slot that nobody holds is owned by nobody, unless it reads downloading. -/
theorem Owned.of_idle {id : EntryId} {shared : Shared n} (idle : ¬shared.Held id)
    (state : (shared.slots id).inUse = true → (shared.slots id).state ≠ .downloading) :
    shared.Owned id where
  alone first _ held := absurd ⟨first, held⟩ idle
  held holding := absurd holding idle
  downloading inUse downloading := absurd downloading (state inUse)

/-- A slot that keeps its holders is owned as before, if it stays in use and in
one of a held slot's states while held, and starts downloading only then. -/
theorem Owned.of_holders {id : EntryId} {before after : Shared n} (owned : before.Owned id)
    (holders : ∀ worker, (after.active worker).slot = some id ↔
      (before.active worker).slot = some id)
    (held : before.Held id → (after.slots id).inUse = true ∧
      ((after.slots id).state = .downloading ∨ (after.slots id).state = .preempted))
    (downloading : (after.slots id).inUse = true → (after.slots id).state = .downloading →
      before.Held id) : after.Owned id where
  alone first second one other :=
    owned.alone first second ((holders first).mp one) ((holders second).mp other)
  held holding := held ((held_congr holders).mp holding)
  downloading inUse state := (held_congr holders).mpr (downloading inUse state)

/-- Once its only holder lets go, nobody holds a slot. -/
theorem Owned.released {id : EntryId} {before after : Shared n} (owned : before.Owned id)
    {worker : Fin n} (holding : (before.active worker).slot = some id)
    (holders : ∀ other, (after.active other).slot = some id ↔
      other ≠ worker ∧ (before.active other).slot = some id) : ¬after.Held id := by
  rintro ⟨other, held⟩
  obtain ⟨different, held⟩ := (holders other).mp held
  exact different (owned.alone other worker held holding)

/-- Nobody holds what a look for work may take. -/
theorem Owned.not_held_of_waiting {id : EntryId} {shared : Shared n} (owned : shared.Owned id)
    {worker : Fin n} {spawned : Fin n → Bool}
    (meets : shared.SweepSparesHeld (.claim worker spawned))
    (waiting : (shared.slots id).state = .pending ∨
      (shared.slots id).state = .preempted ∧ ¬shared.UserWorkOutstanding) : ¬shared.Held id := by
  intro held
  rcases waiting with pending | ⟨preempted, nothing⟩
  · have running := (owned.held held).2
    simp [pending] at running
  · rcases meets with busy | spares
    · exact nothing busy
    · exact spares id held preempted

/-- **What one step does to the ownership of a slot.** -/
theorem owned_step {before after : Shared n} {action : Action n} {id : EntryId}
    (meets : before.SweepSparesHeld action) (stepped : before.step action = some after)
    (wired : before.Wired) (owned : before.Owned id) : after.Owned id := by
  cases step_entry id stepped wired with
  | same slot claim =>
      refine owned.of_holders claim.holders (fun held => ?_) (fun inUse state => ?_)
      · rw [slot.inUse, slot.state]
        exact owned.held held
      · exact owned.downloading (slot.inUse ▸ inUse) (slot.state ▸ state)
  | queued free slot holders =>
      refine .of_idle (fun held => ?_) (fun _ => by simp [slot, Request.slot])
      have inUse := wired.inUse id ((held_congr holders).mp held)
      rw [free] at inUse
      cases inUse
  | preempted _ _ downloading slot holders =>
      refine owned.of_holders holders (fun held => ?_) (fun _ state => by simp [slot] at state)
      rw [slot]
      exact ⟨(owned.held held).1, .inr rfl⟩
  | cancelled state slot decided claim =>
      rcases decided with ⟨held, kept⟩ | ⟨rfl, stopped⟩
      · refine owned.of_holders claim.holders (fun held => ?_) (fun _ _ => held)
        rw [slot, kept]
        exact owned.held held
      · refine .of_idle (fun held => ?_) (fun _ => by simp [slot])
        have held := claim.held.mp held
        have running := (owned.held held).2
        rcases stopped with pending | paused | ⟨_, idle⟩
        · simp [pending] at running
        · simp [paused] at running
        · exact idle held
  | paused applied downloading slot holders =>
      refine owned.of_holders holders (fun held => ?_) (fun inUse state => ?_)
      · rw [slot]
        exact owned.held held
      · rw [slot] at inUse state
        exact owned.downloading inUse state
  | resumed applied paused slot claim =>
      refine .of_idle (fun held => ?_) (fun _ => by simp [slot])
      have running := (owned.held (claim.held.mp held)).2
      simp [paused] at running
  | removed applied idle slot claim =>
      exact .of_idle (fun held => idle (claim.held.mp held)) (fun inUse => by simp [slot] at inUse)
  | swept idle preempted slot claim =>
      refine .of_idle (fun held => ?_) (fun _ => by simp [slot])
      rcases meets with busy | spares
      · exact idle busy
      · exact spares id (claim.held.mp held) preempted
  | @taken worker spawned inUse waiting slot holders _ _ =>
      have free := owned.not_held_of_waiting meets waiting
      have taker : ∀ other, (after.active other).slot = some id → other = worker := by
        intro other held
        rcases (holders other).mp held with same | held
        · exact same
        · exact absurd ⟨other, held⟩ free
      refine ⟨fun first second one other => (taker first one).trans (taker second other).symm,
        fun _ => ?_, fun _ _ => ⟨worker, (holders worker).mpr (.inl rfl)⟩⟩
      rw [slot]
      exact ⟨inUse, .inl rfl⟩
  | settled holding asked slot holders _ =>
      refine .of_idle (owned.released holding holders) (fun _ => ?_)
      rw [slot]
      exact Slot.state_settle_ne_downloading _ _
  | settlePanicked holding slot holders =>
      exact .of_idle (owned.released holding holders) (fun _ => by simp [slot])

theorem Reaches.owned {shared : Shared n} (run : Reaches SweepSparesHeld shared) (id : EntryId) :
    shared.Owned id :=
  have kept : shared.Wired ∧ shared.Owned id :=
    Moves.invariant (fun shared => shared.Wired ∧ shared.Owned id)
      (fun _ _ _ meets stepped held =>
        ⟨wired_step stepped held.1, owned_step meets stepped held.1 held.2⟩)
      run ⟨wired_fresh, owned_fresh id⟩
  kept.2

/-- No slot has two holders, a held slot is in use and downloading or preempted,
and a downloading slot in use has exactly one holder. -/
def ExclusiveOwnership (shared : Shared n) : Prop :=
  (∀ first second id, (shared.active first).slot = some id →
      (shared.active second).slot = some id → first = second) ∧
    (∀ worker id, (shared.active worker).slot = some id → (shared.slots id).inUse = true ∧
      ((shared.slots id).state = .downloading ∨ (shared.slots id).state = .preempted)) ∧
    ∀ id, (shared.slots id).inUse = true → (shared.slots id).state = .downloading →
      ∃! worker, (shared.active worker).slot = some id

/-- **Ownership is exclusive** in every run of any number of workers whose sweeps
resume no slot that a worker still holds. -/
theorem ownership_is_exclusive {shared : Shared n} (run : Reaches SweepSparesHeld shared) :
    shared.ExclusiveOwnership := by
  have owned := run.owned
  refine ⟨fun first second id => (owned id).alone first second,
    fun worker id held => (owned id).held ⟨worker, held⟩, fun id inUse state => ?_⟩
  obtain ⟨worker, held⟩ := (owned id).downloading inUse state
  exact ⟨worker, held, fun other held' => (owned id).alone other worker held' held⟩

/-! ## A preempted slot with two holders -/

/-- A worker's steps from the top of its loop to its next look for work. -/
def looks (worker : Fin n) : List (Action n) := [.look worker, .claim worker fun _ => true]

def request (seed : UInt8) (priority : Priority) : Request where
  url := ['u']
  digest := ⟨Vector.replicate 32 seed⟩
  expectedSize := none
  priority := priority

/-- The first worker's background transfer is preempted by the second of two
user requests; the second worker holds the first of them. -/
def preempted : List (Action 2) :=
  [.queue (request 0 .background) 0 fun _ => true, .hookReturns 0] ++ looks 0 ++
    [.queue (request 1 .user) 1 fun _ => true, .hookReturns 1] ++ looks 1 ++
    [.queue (request 2 .user) 2 fun _ => true]

/-- Before the first worker settles, the second runs out of user requests and
looks for work. -/
def sweptUnderfoot : List (Action 2) :=
  preempted ++ [.settle 1 (.complete (request 1 .user).digest)] ++ looks 1 ++
    [.settle 1 (.complete (request 2 .user).digest)] ++ looks 1

theorem ownership_is_exclusive_preempted : ∃ shared : Shared 2,
    (shared.active 0).slot = some 0 ∧ (shared.slots 0).state = .preempted ∧
      shared.ExclusiveOwnership := by
  obtain ⟨shared, run, held⟩ := Moves.of_check step SweepSparesHeld (fresh 2) preempted
    (fun shared =>
      (shared.active 0).slot == some 0 && (shared.slots 0).state == .preempted)
    (by decide +kernel)
  simp only [Bool.and_eq_true, beq_iff_eq] at held
  exact ⟨shared, held.1, held.2, ownership_is_exclusive run⟩

/-- **Two workers hold one slot** after that. -/
theorem two_workers_hold_one_slot :
    ¬∀ (n : Nat) (shared : Shared n), 0 < n → Reaches unguarded shared →
      shared.ExclusiveOwnership := by
  intro claimed
  obtain ⟨shared, run, both⟩ := Moves.of_check step unguarded (fresh 2) sweptUnderfoot
    (fun shared => (shared.active 0).slot == some 0 && (shared.active 1).slot == some 0)
    (by decide +kernel)
  simp only [Bool.and_eq_true, beq_iff_eq] at both
  exact absurd ((claimed 2 shared (by decide) run).1 0 1 0 both.1 both.2) (by decide)

end Shared

end Retrovert.Queue
