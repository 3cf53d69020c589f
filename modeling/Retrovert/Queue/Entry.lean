import Mathlib.Data.Prod.Lex
import Retrovert.Library.Selection

/-!
# The scheduling policy

The queue's policy works on snapshots of its slots: which pending entry runs
next, how a cancel, pause, resume or remove resolves against an entry's state,
and which background transfer yields to a user's request. Nothing here knows of
workers or of the network.

An operation that the source reports with a `bool` and a changed entry is an
`Option`: `none` when the request does not apply and the entry is left alone.
-/

set_option autoImplicit false

namespace Retrovert.Queue

open Retrovert

/-- `bytesTotal` while the server has not said how long the transfer is. -/
def unknownTotal : Int := -1

/-- Scheduling priority, in ranking order. -/
inductive Priority where
  | background
  | user
deriving DecidableEq, Repr

/-- The stored form of a priority; the ranking compares it. -/
def Priority.code : Priority → Nat
  | .background => 0
  | .user => 1

/-- One entry's lifecycle state. -/
inductive State where
  | pending
  | downloading
  | paused
  | preempted
  | complete
  | failed
  | cancelled
deriving DecidableEq, Repr

/-- The stored form of a state, as held in a slot's atomic. -/
def State.code : State → Int
  | .pending => 0
  | .downloading => 1
  | .paused => 2
  | .preempted => 3
  | .complete => 4
  | .failed => 5
  | .cancelled => 6

/-- Read back a stored state. -/
def State.fromCode (code : Int) : State :=
  if code = 1 then .downloading
  else if code = 2 then .paused
  else if code = 3 then .preempted
  else if code = 4 then .complete
  else if code = 5 then .failed
  else if code = 6 then .cancelled
  else .pending

/-- The queue reads back every state it stores, so a slot can hold the state
itself. -/
theorem State.fromCode_code (state : State) : State.fromCode state.code = state := by
  cases state <;> rfl

/-- The scheduling view of one queued transfer. -/
structure Entry where
  inUse : Bool
  priority : Priority
  state : State
  queueTimeMs : Int
  bytesDownloaded : Int
  bytesTotal : Int
deriving DecidableEq, Repr

/-! ## Choosing what runs -/

/-- Whether an entry is waiting for a worker. -/
def Entry.isPending (entry : Entry) : Bool :=
  entry.inUse && entry.state == .pending

/-- Whether any in-use entry is a user-priority transfer still pending. -/
def hasUserPending (entries : List Entry) : Bool :=
  entries.any fun entry => entry.inUse && entry.priority == .user && entry.state == .pending

/-- Higher priority first, ties to the earlier queued. -/
def runsBefore (candidate held : Entry) : Bool :=
  candidate.priority.code > held.priority.code ||
    (candidate.priority.code == held.priority.code && candidate.queueTimeMs < held.queueTimeMs)

/-- Pick the next pending entry to run, by index. -/
def nextPending (entries : List Entry) : Option Nat :=
  Selection.select entries Entry.isPending runsBefore none (List.range entries.length)

/-- In use and waiting for a worker. -/
def Entry.Waits (entry : Entry) : Prop := entry.inUse = true ∧ entry.state = .pending

theorem Entry.isPending_iff {entry : Entry} : entry.isPending = true ↔ entry.Waits := by
  simp [Entry.isPending, Entry.Waits]

/-- `index` holds the waiting entry that is first in line: by priority, then by the time it was
queued, then by its index. -/
def RunsFirst (entries : List Entry) (index : Nat) : Prop :=
  ∃ entry, entries[index]? = some entry ∧ entry.Waits ∧
    ∀ other rival, entries[other]? = some rival → rival.Waits →
      rival.priority.code < entry.priority.code ∨
        rival.priority = entry.priority ∧
          (entry.queueTimeMs < rival.queueTimeMs ∨
            entry.queueTimeMs = rival.queueTimeMs ∧ index ≤ other)

theorem Priority.code_inj {first second : Priority} :
    first.code = second.code ↔ first = second := by
  cases first <;> cases second <;> simp [Priority.code]

/-- What waiting entries are lined up by. -/
def Entry.runKey (entry : Entry) : ℕᵒᵈ ×ₗ ℤ :=
  toLex (OrderDual.toDual entry.priority.code, entry.queueTimeMs)

theorem runsBefore_ranks : Selection.Ranks runsBefore Entry.runKey := by
  intro candidate held
  simp [runsBefore, Entry.runKey, Prod.Lex.toLex_lt_toLex]

theorem Entry.runKey_precedes_iff {entry rival : Entry} {index other : Nat} :
    (entry.runKey < rival.runKey ∨ entry.runKey = rival.runKey ∧ index ≤ other) ↔
      rival.priority.code < entry.priority.code ∨
        rival.priority = entry.priority ∧
          (entry.queueTimeMs < rival.queueTimeMs ∨
            entry.queueTimeMs = rival.queueTimeMs ∧ index ≤ other) := by
  simp only [Entry.runKey, Prod.Lex.toLex_lt_toLex, OrderDual.toDual_lt_toDual, toLex_inj,
    Prod.mk.injEq, OrderDual.toDual_inj, ← Priority.code_inj]
  omega

theorem nextPending_eq_some_iff {entries : List Entry} {index : Nat} :
    nextPending entries = some index ↔ RunsFirst entries index := by
  have places : ∀ {place : Nat} {entry : Entry}, entries[place]? = some entry →
      place ∈ List.range entries.length ∧ (List.range entries.length).idxOf place = place := by
    intro place entry found
    have within := (List.getElem?_eq_some_iff.mp found).1
    exact ⟨List.mem_range.mpr within, Selection.idxOf_range within⟩
  rw [nextPending, Selection.select_eq_some_iff runsBefore_ranks]
  constructor
  · rintro ⟨-, entry, found, pending, first⟩
    refine ⟨entry, found, Entry.isPending_iff.mp pending, ?_⟩
    intro other rival found_other waits
    have precedes := first other (places found_other).1 rival found_other
      (Entry.isPending_iff.mpr waits)
    rw [(places found).2, (places found_other).2] at precedes
    exact Entry.runKey_precedes_iff.mp precedes
  · rintro ⟨entry, found, waits, first⟩
    refine ⟨(places found).1, entry, found, Entry.isPending_iff.mpr waits, ?_⟩
    intro other _ rival found_other pending
    rw [(places found).2, (places found_other).2]
    exact Entry.runKey_precedes_iff.mpr
      (first other rival found_other (Entry.isPending_iff.mp pending))

theorem nextPending_eq_none_iff {entries : List Entry} :
    nextPending entries = none ↔ ∀ entry ∈ entries, ¬entry.Waits := by
  rw [nextPending, Selection.select_eq_none_iff runsBefore_ranks]
  constructor
  · intro nothing entry member waits
    obtain ⟨index, found⟩ := List.mem_iff_getElem?.mp member
    have within : index < entries.length := (List.getElem?_eq_some_iff.mp found).1
    have refused := nothing index (List.mem_range.mpr within) entry found
    rw [Entry.isPending_iff.mpr waits] at refused
    cases refused
  · intro nobody index _ entry found
    rw [← Bool.not_eq_true, Entry.isPending_iff]
    exact nobody entry (List.mem_of_getElem? found)

/-! ## Requests against one entry -/

/-- Cancel an entry. One a worker still holds keeps its state for the settle to
publish; anything else that can still run goes straight to cancelled. -/
def Entry.cancel (entry : Entry) (isActive : Bool) : Option Entry :=
  match entry.state with
  | .downloading => if isActive then some entry else none
  | .preempted => if isActive then some entry else some { entry with state := .cancelled }
  | .pending | .paused => some { entry with state := .cancelled }
  | .complete | .failed | .cancelled => none

/-- Whether a pause applies: only a downloading entry that a worker holds. -/
def Entry.pause (entry : Entry) (isActive : Bool) : Bool :=
  entry.state == .downloading && isActive

/-- Resume a paused entry back to pending. -/
def Entry.resume (entry : Entry) : Option Entry :=
  if entry.state = .paused then some { entry with state := .pending } else none

/-- Free an entry's slot. Refused while a worker still holds it. -/
def Entry.remove (entry : Entry) (isActive : Bool) : Option Entry :=
  if isActive = true ∨ entry.state = .downloading then none
  else some { entry with inUse := false }

/-! ## Preemption -/

/-- Whether an active entry may be asked to yield. -/
def Entry.canYield (entry : Entry) : Bool :=
  entry.inUse && entry.state == .downloading && entry.priority == .background

/-- Fewest bytes on disk yields first, ties to the later queued. -/
def yieldsBefore (candidate held : Entry) : Bool :=
  candidate.bytesDownloaded < held.bytesDownloaded ||
    (candidate.bytesDownloaded == held.bytesDownloaded && candidate.queueTimeMs > held.queueTimeMs)

/-- The active background transfer that yields to an entry of the queued
priority, if one does. -/
def yieldTarget (entries : List Entry) (active : List Nat) (queuedPriority : Priority)
    (idleWorker : Bool) : Option Nat :=
  if queuedPriority ≠ .user ∨ idleWorker = true then none
  else Selection.select entries Entry.canYield yieldsBefore none active

/-- Mark the transfer that yields as preempted, and return it. -/
def preemptForUser (entries : List Entry) (active : List Nat) (queuedPriority : Priority)
    (idleWorker : Bool) : List Entry × Option Nat :=
  match yieldTarget entries active queuedPriority idleWorker with
  | none => (entries, none)
  | some target =>
      (entries.modify target fun entry => { entry with state := .preempted }, some target)

/-- In use and downloading in the background. -/
def Entry.RunsInBackground (entry : Entry) : Prop :=
  entry.inUse = true ∧ entry.state = .downloading ∧ entry.priority = .background

theorem Entry.canYield_iff {entry : Entry} : entry.canYield = true ↔ entry.RunsInBackground := by
  simp [Entry.canYield, Entry.RunsInBackground, and_assoc]

/-- `target` is the background transfer of the active list that makes way before the others: the
one with the fewest bytes on disk, then the last queued, then the first in the list. -/
def YieldsFirst (entries : List Entry) (active : List Nat) (target : Nat) : Prop :=
  target ∈ active ∧ ∃ entry, entries[target]? = some entry ∧ entry.RunsInBackground ∧
    ∀ other ∈ active, ∀ rival, entries[other]? = some rival → rival.RunsInBackground →
      entry.bytesDownloaded < rival.bytesDownloaded ∨
        entry.bytesDownloaded = rival.bytesDownloaded ∧
          (rival.queueTimeMs < entry.queueTimeMs ∨
            rival.queueTimeMs = entry.queueTimeMs ∧ active.idxOf target ≤ active.idxOf other)

/-- What background transfers are lined up by to make way. -/
def Entry.yieldKey (entry : Entry) : ℤ ×ₗ ℤᵒᵈ :=
  toLex (entry.bytesDownloaded, OrderDual.toDual entry.queueTimeMs)

theorem yieldsBefore_ranks : Selection.Ranks yieldsBefore Entry.yieldKey := by
  intro candidate held
  simp [yieldsBefore, Entry.yieldKey, Prod.Lex.toLex_lt_toLex]

theorem Entry.yieldKey_precedes_iff {entry rival : Entry} {place other : Nat} :
    (entry.yieldKey < rival.yieldKey ∨ entry.yieldKey = rival.yieldKey ∧ place ≤ other) ↔
      entry.bytesDownloaded < rival.bytesDownloaded ∨
        entry.bytesDownloaded = rival.bytesDownloaded ∧
          (rival.queueTimeMs < entry.queueTimeMs ∨
            rival.queueTimeMs = entry.queueTimeMs ∧ place ≤ other) := by
  simp only [Entry.yieldKey, Prod.Lex.toLex_lt_toLex, OrderDual.toDual_lt_toDual, toLex_inj,
    Prod.mk.injEq, OrderDual.toDual_inj]
  omega

theorem first_iff_yieldsFirst {entries : List Entry} {active : List Nat} {target : Nat} :
    Selection.First entries Entry.canYield Entry.yieldKey active target ↔
      YieldsFirst entries active target := by
  simp only [Selection.First, YieldsFirst, Entry.canYield_iff, Entry.yieldKey_precedes_iff]

theorem yieldTarget_eq_some_iff {entries : List Entry} {active : List Nat} {priority : Priority}
    {idle : Bool} {target : Nat} :
    yieldTarget entries active priority idle = some target ↔
      priority = .user ∧ idle = false ∧ YieldsFirst entries active target := by
  by_cases guarded : priority ≠ .user ∨ idle = true
  · rw [yieldTarget, if_pos guarded]
    rcases guarded with background | spare
    · simp [background]
    · simp [spare]
  · rw [yieldTarget, if_neg guarded, Selection.select_eq_some_iff yieldsBefore_ranks,
      first_iff_yieldsFirst]
    simp only [ne_eq, not_or, not_not, Bool.not_eq_true] at guarded
    simp only [guarded.1, guarded.2, true_and]

theorem yieldTarget_eq_none_iff {entries : List Entry} {active : List Nat} :
    yieldTarget entries active .user false = none ↔
      ∀ index ∈ active, ∀ entry, entries[index]? = some entry → ¬entry.RunsInBackground := by
  rw [yieldTarget, if_neg (by simp), Selection.select_eq_none_iff yieldsBefore_ranks]
  simp only [← Bool.not_eq_true, Entry.canYield_iff]

/-- Whether an entry is user-priority work still queued or in flight. -/
def isUserWorkOutstanding (entry : Entry) : Bool :=
  entry.inUse && entry.priority == .user &&
    (entry.state == .pending || entry.state == .downloading)

/-- One entry's part of the resume sweep. -/
def Entry.autoResume (entry : Entry) : Entry :=
  if entry.inUse = true ∧ entry.state = .preempted then { entry with state := .pending } else entry

/-- Return every preempted entry to pending, once no user-priority work is left
to run. -/
def autoResumePreempted (entries : List Entry) : List Entry :=
  if entries.any isUserWorkOutstanding then entries else entries.map Entry.autoResume

end Retrovert.Queue
