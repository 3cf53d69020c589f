import Retrovert.Queue.EntryView

/-!
# What a bulk operation counts

Cancelling, pausing or resuming everything asks each slot in turn, under a hold of the lock of
its own, and counts the requests that applied. Callers and workers go on in between.

Whether a request applies is judged by the state of the slot, and a free slot has one too: the
state it was freed in, or the one that a new queue gives it. So a slot that nobody uses takes a
cancel while its state is pending, paused or preempted, and a resume while it is paused, and is
counted. But for that, what is counted is the entries in use that the operation changed or asked
to stop (`bulk_counts_exactly`).
-/

set_option autoImplicit false

namespace Retrovert.Queue

open Retrovert.Runs

/-- A request that can be made of one entry, or of all of them. -/
inductive Command where
  | cancel
  | pause
  | resume
deriving DecidableEq

/-- The states in which a command is taken by an entry that no worker holds. -/
def Command.takes : Command → State → Bool
  | .cancel, state => state == .pending || state == .paused || state == .preempted
  | .pause, _ => false
  | .resume, state => state == .paused

namespace Shared

variable {n : Nat}

/-- Make a request of one entry; `none` when it does not apply. -/
def obey (shared : Shared n) (command : Command) (id : EntryId) (spawned : Fin n → Bool) :
    Option (Shared n) :=
  match command with
  | .cancel => shared.cancel id
  | .pause => shared.pause id
  | .resume => shared.resume id spawned

/-- What callers and workers do, one after another; what is not enabled is passed over. -/
def perform (shared : Shared n) (actions : List (Action n)) : Shared n :=
  actions.foldl (fun shared action => (shared.step action).getD shared) shared

/-- Whether a command has changed an entry, or asked the worker that holds it to stop. -/
def acted (before after : Shared n) (id : EntryId) (command : Command) : Bool :=
  (after.slots id).state != (before.slots id).state ||
    before.isActive id && match command with
      | .cancel => (after.slots id).cancelRequested
      | .pause => (after.slots id).pauseRequested
      | .resume => false

end Shared

/-- One entry's turn in a bulk operation. -/
structure Turn (n : Nat) where
  id : EntryId
  before : Shared n
  result : Option (Shared n)

namespace Turn

variable {n : Nat}

def after (turn : Turn n) : Shared n := turn.result.getD turn.before

def applied (turn : Turn n) : Bool := turn.result.isSome

/-- The entry was in use, and the command changed it or asked it to stop. -/
def took (command : Command) (turn : Turn n) : Bool :=
  turn.result.any fun after =>
    (turn.before.slots turn.id).inUse && turn.before.acted after turn.id command

/-- The slot was free, and in a state that takes the command all the same. -/
def Stale (command : Command) (turn : Turn n) : Prop :=
  (turn.before.slots turn.id).inUse = false ∧
    command.takes (turn.before.slots turn.id).state = true

end Turn

namespace Shared

variable {n : Nat}

/-- The turns of entries, each after what the others do meanwhile. -/
def turns (command : Command) (meanwhile : EntryId → List (Action n))
    (spawned : EntryId → Fin n → Bool) : List EntryId → Shared n → List (Turn n)
  | [], _ => []
  | id :: rest, shared =>
      let before := shared.perform (meanwhile id)
      let turn : Turn n := ⟨id, before, before.obey command id (spawned id)⟩
      turn :: turns command meanwhile spawned rest turn.after

/-- `cancel_all`, `pause_all` and `resume_all`: every slot has its turn, in order. -/
def bulk (shared : Shared n) (command : Command) (meanwhile : EntryId → List (Action n))
    (spawned : EntryId → Fin n → Bool) : List (Turn n) :=
  turns command meanwhile spawned (List.finRange queueMax) shared

/-- What a bulk operation returns: how many took it. -/
def count (turns : List (Turn n)) : Nat := (turns.filter Turn.applied).length

/-- What is counted is what was done, and free slots are left alone. -/
structure CountsExactly (command : Command) (turns : List (Turn n)) : Prop where
  counted : count turns = (turns.filter (Turn.took command)).length
  spared : ∀ turn ∈ turns, (turn.before.slots turn.id).inUse = false → turn.result = none

/-! ## One request -/

section One

variable {shared after : Shared n} {command : Command} {id : EntryId} {spawned : Fin n → Bool}

/-- A request that applies changes the entry or asks it to stop, and touches no other slot. -/
theorem obey_eq_some (applied : shared.obey command id spawned = some after) :
    shared.acted after id command = true ∧
      ∀ other, other ≠ id → after.slots other = shared.slots other := by
  cases command with
  | cancel =>
      obtain ⟨⟨state, slots, decided⟩, -⟩ := cancel_eq_some applied
      refine ⟨?_, fun other different => by rw [slots, Function.update_of_ne different]⟩
      rw [acted, slots, Function.update_self]
      rcases decided with ⟨held, -⟩ | ⟨rfl, pending | paused | ⟨preempted, -⟩⟩
      · simp [isActive_iff.mpr held]
      · simp [pending]
      · simp [paused]
      · simp [preempted]
  | pause =>
      obtain ⟨held, -, rfl⟩ := pause_eq_some applied
      rw [acted, slots_requestPause]
      refine ⟨?_, fun other different => Function.update_of_ne different ..⟩
      simp [isActive_iff.mpr held]
  | resume =>
      obtain ⟨paused, rfl⟩ := resume_eq_some applied
      rw [acted, slots_armWorkers, slots_updateSlot]
      refine ⟨?_, fun other different => Function.update_of_ne different ..⟩
      simp [paused]

/-- A slot that no worker holds takes a request exactly in the states that take it. -/
theorem obey_of_idle (idle : ¬ shared.Held id) :
    shared.obey command id spawned = none ↔ command.takes (shared.slots id).state = false := by
  have inactive : shared.isActive id = false := by
    rw [Bool.eq_false_iff]
    exact mt isActive_iff.mp idle
  cases command with
  | cancel =>
      cases state : (shared.slots id).state <;>
        simp [obey, cancel, Entry.cancel, Slot.snapshot, inactive, state, Command.takes]
  | pause => simp [obey, pause, Entry.pause, inactive, Command.takes]
  | resume =>
      cases state : (shared.slots id).state <;>
        simp [obey, resume, Entry.resume, Slot.snapshot, state, Command.takes]

/-- A request is a step of the queue. -/
theorem wired_obey (wired : shared.Wired) :
    ((shared.obey command id spawned).getD shared).Wired := by
  cases command with
  | cancel => exact @wired_step _ _ _ (.cancel id) rfl wired
  | pause => exact @wired_step _ _ _ (.pause id) rfl wired
  | resume => exact @wired_step _ _ _ (.resume id spawned) rfl wired

theorem wired_perform (actions : List (Action n)) :
    ∀ shared : Shared n, shared.Wired → (shared.perform actions).Wired := by
  induction actions with
  | nil => exact fun _ wired => wired
  | cons action rest ih =>
      intro shared wired
      refine ih _ ?_
      show ((shared.step action).getD shared).Wired
      cases stepped : shared.step action with
      | none => exact wired
      | some after => exact wired_step stepped wired

end One

/-! ## Everything in turn -/

section Turns

variable {shared : Shared n} {command : Command} {meanwhile : EntryId → List (Action n)}
  {spawned : EntryId → Fin n → Bool}

theorem map_id_turns (ids : List EntryId) :
    ∀ shared : Shared n, (turns command meanwhile spawned ids shared).map Turn.id = ids := by
  induction ids with
  | nil => exact fun _ => rfl
  | cons id rest ih =>
      intro shared
      rw [turns, List.map_cons, ih]

/-- Each turn is a request made of its own entry, in a state that a run leads to. -/
theorem mem_turns {ids : List EntryId} {turn : Turn n} (wired : shared.Wired)
    (member : turn ∈ turns command meanwhile spawned ids shared) :
    turn.before.Wired ∧ turn.result = turn.before.obey command turn.id (spawned turn.id) := by
  induction ids generalizing shared with
  | nil => cases member
  | cons id rest ih =>
      have before := wired_perform (meanwhile id) shared wired
      rw [turns, List.mem_cons] at member
      rcases member with rfl | later
      · exact ⟨before, rfl⟩
      · exact ih (wired_obey before) later

/-- A turn that applied was taken, unless its slot was free. -/
theorem took_eq {turn : Turn n} (asked : turn.result =
      turn.before.obey command turn.id (spawned turn.id)) :
    turn.took command = (turn.applied && (turn.before.slots turn.id).inUse) := by
  rw [Turn.took, Turn.applied]
  cases result : turn.result with
  | none => rfl
  | some after =>
      rw [result] at asked
      simp [(obey_eq_some asked.symm).1]

/-- The requests that apply are those that are taken exactly if none of them applies to a free
slot. -/
theorem count_eq_iff {list : List (Turn n)} (asked : ∀ turn ∈ list, turn.result =
      turn.before.obey command turn.id (spawned turn.id)) :
    count list = (list.filter (Turn.took command)).length ↔
      ∀ turn ∈ list, (turn.before.slots turn.id).inUse = false → turn.result = none := by
  have fewer : list.filter (Turn.took command) =
      (list.filter Turn.applied).filter fun turn => (turn.before.slots turn.id).inUse := by
    rw [List.filter_filter]
    refine List.filter_congr fun turn member => ?_
    rw [took_eq (asked turn member), Bool.and_comm]
  rw [count, fewer, eq_comm, List.length_filter_eq_length_iff]
  refine ⟨fun used turn member free => ?_, fun spared turn member => ?_⟩
  · by_contra applied
    have taken : turn.applied = true := Option.isSome_iff_ne_none.mpr applied
    have busy := used turn (List.mem_filter.mpr ⟨member, taken⟩)
    rw [free] at busy
    cases busy
  · obtain ⟨listed, applied⟩ := List.mem_filter.mp member
    by_contra free
    rw [Turn.applied, spared turn listed (Bool.not_eq_true _ ▸ free)] at applied
    cases applied

/-- **What bulk operations count.** In every reachable queue, whatever callers and workers do
between one slot's turn and the next: every slot has one turn, and a turn touches no other slot.
The count is the number of entries in use that the operation changed or asked to stop, and no
free slot is touched or counted, exactly if at none of the turns the slot is free and in a state
that takes the command. And a single request of a free slot applies in just these states. -/
theorem bulk_counts_exactly (run : Reaches unguarded shared) (command : Command)
    (meanwhile : EntryId → List (Action n)) (spawned : EntryId → Fin n → Bool) :
    ((shared.bulk command meanwhile spawned).map Turn.id = List.finRange queueMax ∧
      ∀ turn ∈ shared.bulk command meanwhile spawned, ∀ other, other ≠ turn.id →
        turn.after.slots other = turn.before.slots other) ∧
    (CountsExactly command (shared.bulk command meanwhile spawned) ↔
      ∀ turn ∈ shared.bulk command meanwhile spawned, ¬ turn.Stale command) ∧
    ∀ id spawned, (shared.slots id).inUse = false →
      (shared.obey command id spawned = none ↔ command.takes (shared.slots id).state = false) := by
  have idle : ∀ {queue : Shared n} {id : EntryId}, queue.Wired → (queue.slots id).inUse = false →
      ¬ queue.Held id := by
    intro queue id wired free held
    rw [wired.inUse id held] at free
    cases free
  have asked := fun (turn : Turn n) (member : turn ∈ shared.bulk command meanwhile spawned) =>
    mem_turns run.wired member
  refine ⟨⟨map_id_turns _ _, fun turn member other different => ?_⟩, ?_,
    fun id spawned free => obey_of_idle (idle run.wired free)⟩
  · rw [Turn.after]
    cases result : turn.result with
    | none => rfl
    | some after =>
        exact (obey_eq_some ((asked turn member).2.symm.trans result)).2 other different
  · have spared : (∀ turn ∈ shared.bulk command meanwhile spawned,
        (turn.before.slots turn.id).inUse = false → turn.result = none) ↔
        ∀ turn ∈ shared.bulk command meanwhile spawned, ¬ turn.Stale command := by
      refine forall₂_congr fun turn member => ?_
      obtain ⟨wired, request⟩ := asked turn member
      rw [Turn.Stale, not_and, Bool.not_eq_true]
      refine forall_congr' fun free => ?_
      rw [request, obey_of_idle (idle wired free)]
    have counted := count_eq_iff fun turn member => (asked turn member).2
    exact ⟨fun exact => spared.mp exact.spared,
      fun clear => ⟨counted.mpr (spared.mpr clear), spared.mpr clear⟩⟩

/-- A queue whose one entry is downloading, all of which is paused: no free slot takes a
pause. -/
theorem bulk_counts_exactly_paused : ∃ shared : Shared 1,
    count (shared.bulk .pause (fun _ => []) fun _ _ => false) = 1 ∧
      CountsExactly .pause (shared.bulk .pause (fun _ => []) fun _ _ => false) := by
  obtain ⟨shared, run, counted⟩ := Moves.of_check step unguarded (fresh 1)
    [.queue ⟨['u'], ⟨Vector.replicate 32 0⟩, none, .user⟩ 0 fun _ => true, .hookReturns 0,
      .look 0, .claim 0 fun _ => true]
    (fun shared => count (shared.bulk .pause (fun _ => []) fun _ _ => false) == 1)
    (by decide +kernel)
  exact ⟨shared, beq_iff_eq.mp counted, (bulk_counts_exactly run .pause _ _).2.1.mpr
    fun _ _ stale => nomatch stale.2⟩

/-- A new queue has no entry in use, and counts a cancel for each of its slots; and a slot that
was freed while its entry was paused is counted as resumed. -/
theorem free_slots_are_counted :
    (∀ id, ((fresh 1).slots id).inUse = false) ∧
      count ((fresh 1).bulk .cancel (fun _ => []) fun _ _ => false) = queueMax ∧
      ((fresh 1).cancel 0).isSome = true ∧
      ((script step unguarded (fresh 1)
        [.queue ⟨['u'], ⟨Vector.replicate 32 0⟩, none, .user⟩ 0 fun _ => true, .hookReturns 0,
          .look 0, .claim 0 fun _ => true, .install 0, .pause 0, .settle 0 .paused,
          .remove 0]).any fun shared =>
        (List.finRange queueMax).all (fun id => !(shared.slots id).inUse) &&
          count (shared.bulk .resume (fun _ => []) fun _ _ => false) == 1) = true := by
  decide +kernel

end Turns

end Shared

end Retrovert.Queue
