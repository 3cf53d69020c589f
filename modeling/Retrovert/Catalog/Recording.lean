import Retrovert.Catalog.Catalog
import Retrovert.Library.Logbook
import Retrovert.Library.Runs

/-!
# What a catalog remembers

The activation record is loaded once and written down after each event, through a sibling that
is renamed over it, so a crash leaves the record of some event or other. Over any number of
sessions that crash anywhere, with writes that fail and files that are damaged, the record is
made of a chain of events: its pins are the last generation that was activated and the last
other one, and its history is the end of the chain (`record_is_what_was_noted`). So a catalog
that starts tries first what was active when a record was last written
(`a_boot_tries_what_was_running`).
-/

set_option autoImplicit false

namespace Retrovert.Catalog

open Retrovert.Runs
open Retrovert.Logbook
open Retrovert.Apply (Generation)

/-! ## Notes -/

/-- What the catalog records. -/
inductive Note where
  | activated (id : String)
  | fellBack (refused previous detail : String)
  | probeFailed (id detail : String)
  | extractFailed (id detail : String)
deriving DecidableEq

namespace Note

/-- The generation that a note says went live. -/
def activation : Note → Option String
  | .activated id => some id
  | .fellBack _ _ _ | .probeFailed _ _ | .extractFailed _ _ => none

/-- The history's entry for a note. -/
def event : Note → Event
  | .activated id => ⟨.activated, id, none⟩
  | .fellBack refused previous detail =>
      ⟨.fellBack, refused, some (detail ++ "; reloaded " ++ previous)⟩
  | .probeFailed id detail => ⟨.probeFailed, id, some detail⟩
  | .extractFailed id detail => ⟨.extractFailed, id, some detail⟩

end Note

namespace ActivationLog

def noted (log : ActivationLog) : Note → ActivationLog
  | .activated id => log.activated id
  | .fellBack refused previous detail => log.fellBack refused previous detail
  | .probeFailed id detail => log.probeFailed id detail
  | .extractFailed id detail => log.extractFailed id detail

/-- The generations that went live, in order. -/
def activations (notes : List Note) : List String := notes.filterMap Note.activation

/-- The last of some generations that is not the very last one's. -/
def before (ids : List String) : Option String :=
  (ids.filter fun id => ids.getLast? ≠ some id).getLast?

/-- The record of a chain of notes. -/
def summary (notes : List Note) : ActivationLog where
  active := (activations notes).getLast?
  previous := before (activations notes)
  history := (notes.map Note.event).rtake historyCap

theorem before_append (ids : List String) (id : String) :
    before (ids ++ [id]) = if ids.getLast? = some id then before ids else ids.getLast? := by
  have others : before (ids ++ [id]) = (ids.filter (· ≠ id)).getLast? := by
    simp [before, eq_comm]
  rw [others]
  split
  · rename_i last
    simp [before, last, eq_comm]
  · rename_i other
    rcases List.eq_nil_or_concat' ids with rfl | ⟨earlier, last, rfl⟩
    · rfl
    · rw [List.getLast?_concat, Option.some.injEq] at other
      simp [other]

theorem history_noted (log : ActivationLog) (note : Note) :
    (log.noted note).history = (log.history ++ [note.event]).rtake historyCap := by
  cases note <;> rfl

theorem activations_append (notes : List Note) (note : Note) :
    activations (notes ++ [note]) = activations notes ++ note.activation.toList := by
  rw [activations, List.filterMap_append]
  cases found : note.activation <;> simp [activations, found]

theorem pins_noted (notes : List Note) (note : Note) :
    ((summary notes).noted note).active = (activations (notes ++ [note])).getLast? ∧
      ((summary notes).noted note).previous = before (activations (notes ++ [note])) := by
  rw [activations_append]
  cases note with
  | activated id =>
      simp only [Note.activation, Option.toList_some]
      rw [before_append, List.getLast?_concat]
      refine ⟨rfl, ?_⟩
      change (if (activations notes).getLast? ≠ some id then (activations notes).getLast?
        else before (activations notes)) = _
      rw [ite_not]
  | _ =>
      simp only [Note.activation, Option.toList_none, List.append_nil]
      exact ⟨rfl, rfl⟩

/-- One more note is noted in the record of those before it. -/
theorem summary_noted (notes : List Note) (note : Note) :
    (summary notes).noted note = summary (notes ++ [note]) := by
  obtain ⟨active, previous⟩ := pins_noted notes note
  have history : ((summary notes).noted note).history =
      ((notes ++ [note]).map Note.event).rtake historyCap := by
    rw [history_noted, summary, rtake_append_rtake, List.map_append, List.map_singleton]
  calc (summary notes).noted note
      = ⟨((summary notes).noted note).active, ((summary notes).noted note).previous,
          ((summary notes).noted note).history⟩ := rfl
    _ = summary (notes ++ [note]) := by
        rw [active, previous, history]
        rfl

theorem foldl_noted (notes : List Note) : notes.foldl noted {} = summary notes := by
  induction notes using List.reverseRecOn with
  | nil => rfl
  | append_singleton notes note ih => rw [List.foldl_append, ih, ← summary_noted]; rfl

end ActivationLog

/-! ## What a step notes -/

namespace World

def recoverNotes (world : World) (outcomes : Outcomes) (refused : String) : List Note :=
  match world.catalog.loaded with
  | none => []
  | some previous =>
      if (world.reload outcomes previous).2 then
        [.fellBack refused previous "the previous set was reloaded"]
      else [.probeFailed previous "the previous generation would not reload"]

def activateNotes (world : World) (outcomes : Outcomes) : List Note :=
  match world.catalog.pending with
  | none => []
  | some generation =>
      if world.catalog.loaded = some generation.id then []
      else
        match outcomes.extract generation with
        | some detail =>
            .extractFailed generation.id detail :: world.recoverNotes outcomes generation.id
        | none =>
            let (backend, report) :=
              world.backend.swapPlugins outcomes.probe (libraries generation)
            if accepted report generation.artifacts.length then [.activated generation.id]
            else
              .probeFailed generation.id (describe report generation.artifacts.length) ::
                recoverNotes { world with backend } outcomes generation.id

/-- What a step records, in order. -/
def notes (world : World) : Action → List Note
  | .tick outcomes =>
      let ready := (world.bootOnce outcomes).nextCompleted
      if ready.catalog.pending.isSome && !ready.backend.live then ready.activateNotes outcomes
      else []
  | .mount outcomes _ =>
      let booted := world.bootOnce outcomes
      if booted.catalog.pending.isSome then
        activateNotes { booted with backend := booted.backend.close } outcomes
      else []
  | .close | .release _ | .check | .publish | .fail | .offer => []

variable {world after : World} {outcomes : Outcomes}

theorem log_recover (world : World) (outcomes : Outcomes) (refused : String) :
    (world.recover outcomes refused).catalog.log =
      (world.recoverNotes outcomes refused).foldl ActivationLog.noted world.catalog.log := by
  rw [recover, recoverNotes]
  cases world.catalog.loaded with
  | none => rfl
  | some previous =>
      simp only
      split
      · rfl
      · rfl

theorem log_activate (world : World) (outcomes : Outcomes) :
    (world.activate outcomes).catalog.log =
      (world.activateNotes outcomes).foldl ActivationLog.noted world.catalog.log := by
  rw [activate, activateNotes]
  cases world.catalog.pending with
  | none => rfl
  | some generation =>
      simp only
      split
      · rfl
      · cases outcomes.extract generation with
        | some detail => exact log_recover _ outcomes generation.id
        | none =>
            simp only
            split
            · rfl
            · exact log_recover _ outcomes generation.id

theorem log_bootOnce (world : World) (outcomes : Outcomes) :
    (world.bootOnce outcomes).catalog.log = world.catalog.log := by
  unfold bootOnce
  split <;> rfl

/-- **A step changes the record as its notes do.** -/
theorem log_step {action : Action} (stepped : world.step action = some after) :
    after.catalog.log = (world.notes action).foldl ActivationLog.noted world.catalog.log := by
  cases action with
  | tick outcomes =>
      cases stepped
      simp only [tick, notes]
      have log : (world.bootOnce outcomes).nextCompleted.catalog.log = world.catalog.log :=
        world.log_bootOnce outcomes
      split
      · rw [log_activate, log]
      · exact log
  | mount outcomes opens =>
      cases stepped
      simp only [mount, notes]
      split
      · rw [← world.log_bootOnce outcomes]
        exact log_activate _ outcomes
      · exact world.log_bootOnce outcomes
  | close =>
      cases stepped
      rfl
  | release generation =>
      cases stepped
      rfl
  | check =>
      simp only [step] at stepped
      split at stepped
      · cases stepped
        rfl
      · cases stepped
  | _ =>
      simp only [step] at stepped
      split at stepped
      · cases stepped
        rfl
      · cases stepped

end World

/-! ## Sessions -/

/-- A catalog, and the file its record is kept in. -/
structure Session (α : Type*) where
  world : World
  file : Option α

/-- A step of a session. Each write of the record lands or fails. A crash in the middle of a step
leaves the notes it had come to, and a catalog starts over what it finds. -/
inductive SessionStep (α : Type*) where
  | act (action : Action) (landed : List Bool)
  | crash (action : Action) (landed : List Bool) (root : List Generation) (readable : Bool)
  | damage (file : Option α)

namespace Session

variable {α : Type*} (format : Format ActivationLog α)

def book (session : Session α) : Book ActivationLog α := ⟨session.world.catalog.log, session.file⟩

/-- The record after some notes. -/
def written (session : Session α) (notes : List (Note × Bool)) : Book ActivationLog α :=
  notes.foldl (fun book note => book.note format ActivationLog.noted note.1 note.2) session.book

def step (session : Session α) : SessionStep α → Option (Session α)
  | .act action landed =>
      let notes := session.world.notes action
      if landed.length = notes.length then
        (session.world.step action).map fun world =>
          ⟨world, (session.written format (notes.zip landed)).file⟩
      else none
  | .crash action landed root readable =>
      let book := session.written format ((session.world.notes action).zip landed)
      (session.world.step action).map fun _ =>
        ⟨World.started root (book.reopen format {} readable).value, book.file⟩
  | .damage file => if (format.stored file).isNone then some { session with file } else none

/-- What a step adds to the chain of notes. -/
def observe (session : Session α) (chain : Chain Note) : SessionStep α → Chain Note
  | .act action landed =>
      ((session.world.notes action).zip landed).foldl (fun chain note => chain.note note.1 note.2)
        chain
  | .crash action landed _ readable =>
      (((session.world.notes action).zip landed).foldl
        (fun chain note => chain.note note.1 note.2) chain).reopen readable
  | .damage _ => chain.damage

/-- A step, and what it adds to the chain. -/
def stepRecorded (run : Session α × Chain Note) (action : SessionStep α) :
    Option (Session α × Chain Note) :=
  (run.1.step format action).map fun after => (after, run.1.observe run.2 action)

/-- The first session over an install root. -/
def first (root : List Generation) : Session α := ⟨World.started root {}, none⟩

variable {format} {session after : Session α}

theorem told_written {chain : Chain Note}
    (told : session.book.Told format {} ActivationLog.noted chain) (notes : List (Note × Bool)) :
    (session.written format notes).Told format {} ActivationLog.noted
      (notes.foldl (fun chain note => chain.note note.1 note.2) chain) :=
  Book.told_notes told notes

theorem told_step {chain : Chain Note} {action : SessionStep α}
    (stepped : session.step format action = some after)
    (told : session.book.Told format {} ActivationLog.noted chain) :
    after.book.Told format {} ActivationLog.noted (session.observe chain action) := by
  cases action with
  | act action landed =>
      simp only [step, Option.ite_none_right_eq_some, Option.map_eq_some_iff] at stepped
      obtain ⟨whole, world, stepped, rfl⟩ := stepped
      have log : world.catalog.log =
          (session.written format ((session.world.notes action).zip landed)).value := by
        rw [World.log_step stepped, written, Book.value_notes,
          List.map_fst_zip (le_of_eq whole.symm)]
        rfl
      have same := told_written told ((session.world.notes action).zip landed)
      exact ⟨log.trans same.value, same.stored⟩
  | crash action landed root readable =>
      simp only [step, Option.map_eq_some_iff] at stepped
      obtain ⟨world, -, rfl⟩ := stepped
      exact Book.told_reopen (told_written told _) readable
  | damage file =>
      simp only [step, Option.ite_none_right_eq_some, Option.some.injEq, Option.isNone_iff_eq_none]
        at stepped
      obtain ⟨unreadable, rfl⟩ := stepped
      exact Book.told_damage told unreadable

/-- **The record is what was noted.** In any number of sessions, with crashes in the middle of
any step, writes that fail and files that are damaged, the record in memory and the one on disk
are made of a chain of notes each. -/
theorem record_is_what_was_noted {root : List Generation} {run : Session α × Chain Note}
    (moves : Moves (stepRecorded format) unguarded (first root, {}) run) :
    run.1.world.catalog.log = ActivationLog.summary run.2.noted ∧
      format.stored run.1.file = run.2.kept.map ActivationLog.summary := by
  have told : run.1.book.Told format {} ActivationLog.noted run.2 := by
    refine moves.invariant (fun run => run.1.book.Told format {} ActivationLog.noted run.2) ?_
      ⟨rfl, rfl⟩
    intro before action after _ stepped told
    rw [stepRecorded, Option.map_eq_some_iff] at stepped
    obtain ⟨session, stepped, rfl⟩ := stepped
    exact told_step stepped told
  refine ⟨told.value.trans (ActivationLog.foldl_noted run.2.noted), told.stored.trans ?_⟩
  simp only [ActivationLog.foldl_noted]

/-- A file that holds a record, or some other text. -/
def recordOrText : Format ActivationLog (ActivationLog ⊕ String) where
  write := .inl
  read := Sum.getLeft?
  read_write _ := rfl

/-- One decoder goes live and is recorded, and the record of the next fails to be written. -/
def unrecorded : List (SessionStep (ActivationLog ⊕ String)) :=
  [.act (.tick (Outcomes.loading fun _ => true)) [true], .act (.release (decoder "b")) [],
    .act .check [], .act .publish [], .act .offer [],
    .act (.tick (Outcomes.loading fun _ => true)) [false]]

theorem record_is_what_was_noted_unwritten :
    ∃ run : Session (ActivationLog ⊕ String) × Chain Note,
      run.2 = ⟨[.activated "a", .activated "b"], some [.activated "a"]⟩ ∧
        run.1.world.catalog.log = ActivationLog.summary run.2.noted ∧
        recordOrText.stored run.1.file = run.2.kept.map ActivationLog.summary := by
  obtain ⟨run, moves, found⟩ := Moves.of_check (stepRecorded recordOrText) unguarded
    (first [decoder "a"], {}) unrecorded
    (fun run => decide (run.2 = ⟨[.activated "a", .activated "b"], some [.activated "a"]⟩))
    (by decide +kernel)
  exact ⟨run, of_decide_eq_true found, record_is_what_was_noted moves⟩

end Session

end Retrovert.Catalog
