import Retrovert.Queue.EntryView

/-!
# What a cancel promises

A cancel that applies leaves one of two things behind: the entry is cancelled
and nobody holds it, or somebody does and its cancel flag is up. Whatever the
callers and the workers do next, one of the two stays true until the slot is
freed, since every settle looks at the flag under the same lock. It does not
matter how the transfer ended, nor whether two workers hold the entry.
-/

set_option autoImplicit false

namespace Retrovert.Queue

open Retrovert.Runs

namespace Shared

variable {n : Nat}

/-- A step that neither frees the entry's slot nor panics inside a settle. -/
def KeepsEntry (id : EntryId) (shared : Shared n) : Action n → Prop
  | .remove freed => freed = id → shared.remove id = none
  | .settlePanics _ => False
  | _ => True

instance (id : EntryId) (shared : Shared n) :
    (action : Action n) → Decidable (shared.KeepsEntry id action)
  | .remove freed => inferInstanceAs (Decidable (freed = id → shared.remove id = none))
  | .settlePanics _ => inferInstanceAs (Decidable False)
  | .queue _ _ _ | .cancel _ | .pause _ | .resume _ _ | .shutdown | .stopTransfers
  | .hookReturns _ | .hookPanics _ | .look _ | .stop _ | .claim _ _ | .install _
  | .requestCancel _ | .relayPause _ | .progress _ _ _ | .settle _ _ =>
      inferInstanceAs (Decidable True)

/-- A cancel of the entry has been promised: it is cancelled, or whoever holds it
will find the flag. -/
structure Promised (id : EntryId) (shared : Shared n) : Prop where
  inUse : (shared.slots id).inUse = true
  flagged : shared.Held id → (shared.slots id).cancelRequested = true
  cancelled : ¬shared.Held id → (shared.slots id).state = .cancelled

/-- A cancel that applies is a promise. -/
theorem promised_of_cancel {shared after : Shared n} {id : EntryId}
    (inUse : (shared.slots id).inUse = true) (cancelled : shared.cancel id = some after) :
    after.Promised id := by
  obtain ⟨⟨state, slots, decided⟩, _, _, _, same, _⟩ := cancel_eq_some cancelled
  have holders : after.Held id ↔ shared.Held id := held_congr fun worker => by rw [(same worker).1]
  have slot : after.slots id =
      { shared.slots id with
        state
        cancelRequested := (shared.slots id).cancelRequested || shared.isActive id } := by
    rw [slots, Function.update_self]
  refine ⟨by rw [slot]; exact inUse, fun held => ?_, fun idle => ?_⟩
  · have active := isActive_iff.mpr (holders.mp held)
    simp [slot, active]
  · rcases decided with ⟨held, _⟩ | ⟨rfl, _⟩
    · exact absurd (holders.mpr held) idle
    · rw [slot]

/-- **What one step does to a promised cancel.** Nor does a step give a promised
entry that nobody holds a holder. -/
theorem promised_step {before after : Shared n} {action : Action n} {id : EntryId}
    (meets : before.KeepsEntry id action) (stepped : before.step action = some after)
    (wired : before.Wired) (promised : before.Promised id) :
    after.Promised id ∧ (after.Held id → before.Held id) := by
  -- Every move but a claim and a settle keeps the holders.
  have of_holders : (∀ worker, (after.active worker).slot = some id ↔
        (before.active worker).slot = some id) →
      (after.slots id).inUse = (before.slots id).inUse →
      (before.Held id → (after.slots id).cancelRequested = true) →
      (¬before.Held id → (after.slots id).state = .cancelled) →
      after.Promised id ∧ (after.Held id → before.Held id) := by
    intro holders inUse flagged cancelled
    have held := held_congr holders
    exact ⟨⟨inUse.trans promised.inUse, fun holding => flagged (held.mp holding),
      fun idle => cancelled (mt held.mpr idle)⟩, held.mp⟩
  cases step_entry id stepped wired with
  | same slot claim =>
      exact of_holders claim.holders slot.inUse
        (fun held => slot.cancelRequested.trans (promised.flagged held))
        (fun idle => slot.state.trans (promised.cancelled idle))
  | queued free _ _ =>
      rw [promised.inUse] at free
      cases free
  | preempted _ _ downloading slot holders =>
      refine of_holders holders (by rw [slot])
        (fun held => by rw [slot]; exact promised.flagged held) (fun idle => ?_)
      rw [promised.cancelled idle] at downloading
      cases downloading
  | cancelled state slot decided claim =>
      refine of_holders claim.holders (by rw [slot]) (fun held => ?_) (fun idle => ?_)
      · simp [slot, promised.flagged held]
      · rcases decided with ⟨held, _⟩ | ⟨rfl, _⟩
        · exact absurd held idle
        · rw [slot]
  | paused _ downloading slot holders =>
      refine of_holders holders (by rw [slot])
        (fun held => by rw [slot]; exact promised.flagged held) (fun idle => ?_)
      rw [promised.cancelled idle] at downloading
      cases downloading
  | resumed _ paused slot claim =>
      refine of_holders claim.holders (by rw [slot])
        (fun held => by rw [slot]; exact promised.flagged held) (fun idle => ?_)
      rw [promised.cancelled idle] at paused
      cases paused
  | removed applied idle _ _ =>
      rw [meets rfl] at applied
      cases applied
  | swept _ preempted slot claim =>
      refine of_holders claim.holders (by rw [slot])
        (fun held => by rw [slot]; exact promised.flagged held) (fun idle => ?_)
      rw [promised.cancelled idle] at preempted
      cases preempted
  | taken inUse waiting slot holders _ _ =>
      -- An entry that nobody holds is cancelled, and is not taken.
      have held : before.Held id := by
        by_contra idle
        rw [promised.cancelled idle] at waiting
        simp at waiting
      refine ⟨⟨by rw [slot]; exact inUse, fun _ => by rw [slot]; exact promised.flagged held, ?_⟩,
        fun _ => held⟩
      intro idle
      obtain ⟨holder, holding⟩ := held
      exact absurd ⟨holder, (holders holder).mpr (.inr holding)⟩ idle
  | @settled worker verdict holding _ slot holders _ =>
      have flag := promised.flagged ⟨worker, holding⟩
      refine ⟨⟨?_, fun _ => ?_, fun _ => ?_⟩,
        fun ⟨other, held⟩ => ⟨other, ((holders other).mp held).2⟩⟩
      · rw [slot, Slot.inUse_settle]
        exact promised.inUse
      · rw [slot, Slot.cancelRequested_settle]
        exact flag
      · rw [slot, Slot.state_settle, if_pos flag]
  | settlePanicked _ _ _ => exact meets.elim

/-- A promised cancel stays promised. -/
theorem Promised.run {before after : Shared n} {id : EntryId}
    (later : Moves step (KeepsEntry id) before after) (wired : before.Wired)
    (promised : before.Promised id) : after.Promised id ∧ after.Wired :=
  Moves.invariant (fun shared => shared.Promised id ∧ shared.Wired)
    (fun _ _ _ meets stepped held =>
      ⟨(promised_step meets stepped held.2 held.1).1, wired_step stepped held.2⟩)
    later ⟨promised, wired⟩

/-- Once nobody holds it, nobody claims it again. -/
theorem Promised.stays {before after : Shared n} {id : EntryId}
    (later : Moves step (KeepsEntry id) before after) (wired : before.Wired)
    (promised : before.Promised id) (idle : ¬before.Held id) : ¬after.Held id := by
  have kept : after.Promised id ∧ after.Wired ∧ ¬after.Held id :=
    Moves.invariant (fun shared => shared.Promised id ∧ shared.Wired ∧ ¬shared.Held id)
      (fun _ _ _ meets stepped ⟨promised, wired, idle⟩ =>
        have next := promised_step meets stepped wired promised
        ⟨next.1, wired_step stepped wired, fun held => idle (next.2 held)⟩)
      later ⟨promised, wired, idle⟩
  exact kept.2.2

/-- **A cancel keeps its promise.** From a cancel that applied to an entry in
use on, and until its slot is freed, the entry is in use, and cancelled whenever
no worker holds it; from the first such point on it is never held again. -/
theorem cancel_keeps_its_promise {shared cancelled settled after : Shared n} {id : EntryId}
    (run : Reaches unguarded shared) (inUse : (shared.slots id).inUse = true)
    (applied : shared.cancel id = some cancelled)
    (later : Moves step (KeepsEntry id) cancelled settled)
    (idle : ¬settled.Held id) (last : Moves step (KeepsEntry id) settled after) :
    (settled.slots id).state = .cancelled ∧
      (after.slots id).inUse = true ∧ ¬after.Held id ∧ (after.slots id).state = .cancelled := by
  have stepped : shared.step (.cancel id) = some cancelled := by simp [step, applied]
  have wired := wired_step stepped run.wired
  obtain ⟨promised, wired⟩ := (promised_of_cancel inUse applied).run later wired
  have free := promised.stays last wired idle
  obtain ⟨promised', _⟩ := promised.run last wired
  exact ⟨promised.cancelled idle, promised'.inUse, free, promised'.cancelled free⟩

/-- A cancel in mid-transfer, of a transfer that then arrives whole. -/
theorem cancel_keeps_its_promise_mid_transfer : ∃ shared cancelled settled : Shared 1,
    (shared.slots 0).state = .downloading ∧ shared.cancel 0 = some cancelled ∧
      Moves step (KeepsEntry 0) cancelled settled ∧ (settled.slots 0).state = .cancelled := by
  have transferring : (script step unguarded (fresh 1)
      [.queue ⟨['u'], ⟨Vector.replicate 32 0⟩, none, .user⟩ 0 fun _ => true, .hookReturns 0,
        .look 0, .claim 0 fun _ => true, .install 0]).any (fun shared =>
      (shared.slots 0).inUse && (shared.slots 0).state == .downloading &&
      (shared.cancel 0).any fun cancelled =>
        (script step (KeepsEntry 0) cancelled
          [.settle 0 (.complete ⟨Vector.replicate 32 0⟩)]).any fun settled =>
            !settled.isActive 0) = true := by decide +kernel
  simp only [Option.any_eq_true, Bool.and_eq_true, beq_iff_eq, Bool.not_eq_true'] at transferring
  obtain ⟨shared, ran, ⟨inUse, state⟩, cancelled, applied, settled, ran', idle⟩ := transferring
  have free : ¬settled.Held 0 := fun held => by simp [isActive_iff.mpr held] at idle
  have kept := cancel_keeps_its_promise (.of_script ran) inUse applied (.of_script ran') free
    (.refl _)
  exact ⟨shared, cancelled, settled, state, applied, .of_script ran', kept.1⟩

end Shared

end Retrovert.Queue
