import Retrovert.Library.Logbook
import Retrovert.Update.Offering

/-!
# The record of checks

A check is recorded, whatever it came to, in a file that is read, appended to and stored again
each time. What cannot be read back is replaced, and a check that ends well but cannot be
recorded has failed. Over any number of runs, with reads and stores that fail and a file that is
damaged, the file holds the last of the checks that were stored since it was last found
unreadable, and a status names a check only if it was stored (`the_log_keeps_the_last_checks`).
-/

set_option autoImplicit false

namespace Retrovert.Update

open Retrovert.Runs
open Retrovert.Logbook
open Retrovert.Transport (Cache)

/-- How many checks are kept. -/
def maxEntries : Nat := 64

/-- The file that checks are recorded in. -/
structure CheckLog (α : Type*) where
  file : Option α := none

/-- What a check is recorded as. -/
def recordOf (atMs : Int) : Except String Outcome → Record
  | .ok .skipped => ⟨atMs, .skipped, none⟩
  | .ok (.upToDate _) => ⟨atMs, .upToDate, none⟩
  | .ok (.updateAvailable _) => ⟨atMs, .updateAvailable, none⟩
  | .error text => ⟨atMs, .failed, some text⟩

namespace CheckLog

variable {α : Type*} (format : Format (List Record) α) (malformed : String)

/-- Every kept check, oldest first. A file that is not there holds none. -/
def entries (log : CheckLog α) (fails : Option String) : Except String (List Record) :=
  match fails, log.file with
  | some text, _ => .error text
  | none, none => .ok []
  | none, some text =>
      match format.read text with
      | some entries => .ok entries
      | none => .error malformed

/-- The most recent check. -/
def last (log : CheckLog α) (fails : Option String) : Except String (Option Record) :=
  (log.entries format malformed fails).map List.getLast?

/-- Append a record, dropping the oldest past the limit. -/
def append (log : CheckLog α) (record : Record) (opens stores : Option String) :
    CheckLog α × Except String Unit :=
  let entries := (log.entries format malformed opens).toOption.getD [] ++ [record]
  let kept :=
    if maxEntries < entries.length then entries.drop (entries.length - maxEntries) else entries
  match stores with
  | some text => (log, .error text)
  | none => (⟨some (format.write kept)⟩, .ok ())

/-- Ask the channel what it offers, and record what came of it. -/
def check (log : CheckLog α) (target : Option String) (cache : Cache) (installed : Option String)
    (attempt : Except String Attempt) (atMs : Int) (opens stores : Option String) :
    CheckLog α × Except String Outcome :=
  let outcome := resolve target cache installed attempt
  let (log, appended) := log.append format malformed (recordOf atMs outcome) opens stores
  match outcome with
  | .ok outcome => (log, appended.map fun _ => outcome)
  | .error text => (log, .error text)

end CheckLog

/-! ## Checking -/

/-- The status of an updater, and the log of its checks. -/
structure Checking (α : Type*) where
  status : Status := {}
  log : CheckLog α := {}

/-- A check runs, a generation is installed or the log is damaged, or an updater is started. -/
inductive CheckStep (α : Type*) where
  | check (target : Option String) (cache : Cache) (attempt : Except String Attempt) (atMs : Int)
      (opens stores reads : Option String)
  | installs (generation : Option String)
  | damage (file : Option α)
  | start (reads : Option String)

namespace Checking

variable {α : Type*} (format : Format (List Record) α) (malformed : String)

def step (checking : Checking α) : CheckStep α → Option (Checking α)
  | .check target cache attempt atMs opens stores reads =>
      let (log, outcome) := checking.log.check format malformed target cache
        checking.status.installed attempt atMs opens stores
      let lastCheck := (log.last format malformed reads).toOption.join
      some ⟨checking.status.checked outcome lastCheck, log⟩
  | .installs installed => some { checking with status := { checking.status with installed } }
  | .damage file =>
      if (format.stored file).isNone then some { checking with log := ⟨file⟩ } else none
  | .start reads =>
      let lastCheck := (checking.log.last format malformed reads).toOption.join
      some { checking with status := { lastCheck } }

/-- What a run has stored: the chain that the file is made of, and every record. -/
structure Stored where
  chain : Chain Record := {}
  records : List Record := []
deriving DecidableEq

def observe (checking : Checking α) (history : Stored) : CheckStep α → Stored
  | .check target cache attempt atMs opens stores _ =>
      let record := recordOf atMs (resolve target cache checking.status.installed attempt)
      { chain := (history.chain.reopen opens.isNone).note record stores.isNone
        records := if stores.isNone then history.records ++ [record] else history.records }
  | .damage _ => { history with chain := history.chain.damage }
  | .installs _ | .start _ => history

/-- A step, and what it stores. -/
def stepRecorded (run : Checking α × Stored) (action : CheckStep α) :
    Option (Checking α × Stored) :=
  (run.1.step format malformed action).map fun after => (after, run.1.observe run.2 action)

end Checking

/-- How a record is entered in the log. -/
def CheckLog.enter (entries : List Record) (record : Record) : List Record :=
  (entries ++ [record]).rtake maxEntries

namespace CheckLog

variable {α : Type*} {format : Format (List Record) α} {malformed : String}

theorem entries_eq_ok {log : CheckLog α} {fails : Option String} {entries : List Record}
    (read : log.entries format malformed fails = .ok entries) :
    fails = none ∧ (format.stored log.file).getD [] = entries := by
  unfold CheckLog.entries at read
  split at read
  · cases read
  · rename_i missing
    cases read
    exact ⟨rfl, by rw [missing]; rfl⟩
  · rename_i text found
    split at read
    · rename_i entries stored
      cases read
      exact ⟨rfl, by rw [found, Format.stored, Option.bind_some, stored]; rfl⟩
    · cases read

theorem entries_of_stored {log : CheckLog α} {entries : List Record}
    (stored : format.stored log.file = some entries) :
    log.entries format malformed none = .ok entries := by
  obtain ⟨text, found, read⟩ := Option.bind_eq_some_iff.mp stored
  simp only [CheckLog.entries, found, read]

theorem getD_entries (log : CheckLog α) (opens : Option String) :
    (log.entries format malformed opens).toOption.getD [] =
      if opens.isNone then (format.stored log.file).getD [] else [] := by
  cases opens with
  | some text => rfl
  | none =>
      cases found : log.file with
      | none => simp [CheckLog.entries, found, Format.stored, Except.toOption]
      | some text =>
          cases read : format.read text with
          | none => simp [CheckLog.entries, found, Format.stored, read, Except.toOption]
          | some entries => simp [CheckLog.entries, found, Format.stored, read, Except.toOption]

variable (format malformed) in
/-- Appending opens a book, and notes a record in it. -/
theorem file_append (log : CheckLog α) (record : Record) (opens stores : Option String)
    (value : List Record) :
    (log.append format malformed record opens stores).1.file =
      (((⟨value, log.file⟩ : Book (List Record) α).reopen format [] opens.isNone).note format enter
        record stores.isNone).file := by
  have kept : ∀ entries : List Record,
      (if maxEntries < entries.length then entries.drop (entries.length - maxEntries)
        else entries) = entries.rtake maxEntries := by
    intro entries
    split
    · rfl
    · rename_i few
      rw [List.rtake, Nat.sub_eq_zero_of_le (not_lt.mp few), List.drop_zero]
  cases stores with
  | some text => rfl
  | none =>
      simp only [append, kept, getD_entries]
      rfl

variable (format malformed) in
theorem file_check (log : CheckLog α) (target : Option String) (cache : Cache)
    (installed : Option String) (attempt : Except String Attempt) (atMs : Int)
    (opens stores : Option String) :
    (log.check format malformed target cache installed attempt atMs opens stores).1 =
      (log.append format malformed (recordOf atMs (resolve target cache installed attempt)) opens
        stores).1 := by
  rw [check]
  cases resolve target cache installed attempt with
  | ok outcome => rfl
  | error text => rfl

theorem getLast?_enter (entries : List Record) (record : Record) :
    (enter entries record).getLast? = some record := by
  rw [enter, show maxEntries = 63 + 1 from rfl, List.rtake_concat_succ, List.getLast?_concat]

/-- A check that ends well is the last one recorded. -/
theorem last_of_check {log after : CheckLog α} {target : Option String} {cache : Cache}
    {installed : Option String} {attempt : Except String Attempt} {atMs : Int}
    {opens stores : Option String} {outcome : Outcome}
    (ends : log.check format malformed target cache installed attempt atMs opens stores =
      (after, .ok outcome)) :
    resolve target cache installed attempt = .ok outcome ∧
      after.last format malformed none = .ok (some (recordOf atMs (.ok outcome))) := by
  have log_after := congrArg Prod.fst ends
  rw [file_check] at log_after
  rw [check] at ends
  cases resolved : resolve target cache installed attempt with
  | error text =>
      rw [resolved] at ends
      cases congrArg Prod.snd ends
  | ok found =>
      rw [resolved] at ends log_after
      cases stores with
      | some text => cases congrArg Prod.snd ends
      | none =>
          obtain rfl : found = outcome := Except.ok.inj (congrArg Prod.snd ends)
          have file := log.file_append format malformed (recordOf atMs (.ok found)) opens none []
          have stored : format.stored after.file =
              some (enter ((⟨[], log.file⟩ : Book (List Record) α).reopen format []
                opens.isNone).value (recordOf atMs (.ok found))) := by
            rw [← congrArg CheckLog.file log_after, file]
            exact format.read_write _
          rw [last, entries_of_stored stored, Except.map, getLast?_enter]
          exact ⟨rfl, rfl⟩

end CheckLog

namespace Checking

variable {α : Type*} {format : Format (List Record) α} {malformed : String}

/-- The file is made of the chain, of records that were all stored. -/
structure Kept (format : Format (List Record) α) (run : Checking α × Stored) : Prop where
  stored : format.stored run.1.log.file = run.2.chain.kept.map (·.foldl CheckLog.enter [])
  records : ∀ kept, run.2.chain.kept = some kept → kept ⊆ run.2.records
  lastCheck : ∀ record, run.1.status.lastCheck = some record → record ∈ run.2.records

/-- What the file holds is the end of the chain. -/
theorem foldl_enter (kept : List Record) : kept.foldl CheckLog.enter [] = kept.rtake maxEntries :=
  foldl_rtake maxEntries [] kept (Nat.zero_le _)

variable (malformed) in
theorem kept_append {run : Checking α × Stored} (kept : Kept format run) (record : Record)
    (opens stores : Option String) :
    format.stored (run.1.log.append format malformed record opens stores).1.file =
      ((run.2.chain.reopen opens.isNone).note record stores.isNone).kept.map
        (·.foldl CheckLog.enter []) := by
  have told : (⟨run.2.chain.noted.foldl CheckLog.enter [], run.1.log.file⟩ :
      Book (List Record) α).Told format [] CheckLog.enter run.2.chain := ⟨rfl, kept.stored⟩
  rw [CheckLog.file_append]
  exact (Book.told_note (Book.told_reopen told opens.isNone) record stores.isNone).stored

theorem last_mem {log : CheckLog α} {kept : Option (List Record)} {records : List Record}
    (stored : format.stored log.file = kept.map (·.foldl CheckLog.enter []))
    (within : ∀ entries, kept = some entries → entries ⊆ records) {reads : Option String}
    {record : Record}
    (found : (log.last format malformed reads).toOption.join = some record) :
    record ∈ records := by
  cases read : log.entries format malformed reads with
  | error text => simp [CheckLog.last, read, Except.map, Except.toOption] at found
  | ok entries =>
      rw [CheckLog.last, read, Except.map, Except.toOption, Option.join_some] at found
      have listed := (CheckLog.entries_eq_ok read).2
      rw [stored] at listed
      cases kept with
      | none =>
          rw [Option.map_none, Option.getD_none] at listed
          rw [← listed] at found
          cases found
      | some kept =>
          rw [Option.map_some, Option.getD_some, foldl_enter] at listed
          refine within kept rfl ((rtake_suffix maxEntries kept).subset ?_)
          rw [listed]
          exact List.mem_of_mem_getLast? found

theorem lastCheck_checked (status : Status) (outcome : Except String Outcome)
    (lastCheck : Option Record) : (status.checked outcome lastCheck).lastCheck = lastCheck := by
  rw [Status.checked.eq_def]
  split <;> rfl

/-- What is kept was stored. -/
theorem kept_subset {history : Stored}
    (within : ∀ kept, history.chain.kept = some kept → kept ⊆ history.records)
    (record : Record) (readable lands : Bool) {kept : List Record}
    (found : ((history.chain.reopen readable).note record lands).kept = some kept) :
    kept ⊆ if lands then history.records ++ [record] else history.records := by
  cases lands with
  | false => exact within kept found
  | true =>
      simp only [Chain.note, if_true, Option.some.injEq] at found
      rw [if_pos rfl, ← found]
      refine List.append_subset.mpr ⟨?_, List.subset_append_right _ _⟩
      refine List.Subset.trans ?_ (List.subset_append_left _ _)
      rw [Chain.reopen]
      cases earlier : history.chain.kept with
      | none => cases readable <;> exact List.nil_subset _
      | some entries =>
          cases readable with
          | false => exact List.nil_subset _
          | true => exact within entries earlier

theorem kept_step {run : Checking α × Stored} {after : Checking α} {action : CheckStep α}
    (stepped : run.1.step format malformed action = some after) (kept : Kept format run) :
    Kept format (after, run.1.observe run.2 action) := by
  cases action with
  | check target cache attempt atMs opens stores reads =>
      cases stepped
      have log := run.1.log.file_check format malformed target cache run.1.status.installed attempt
        atMs opens stores
      have stored := kept_append malformed kept
        (recordOf atMs (resolve target cache run.1.status.installed attempt)) opens stores
      rw [← log] at stored
      have within := fun entries => @kept_subset run.2 kept.records
        (recordOf atMs (resolve target cache run.1.status.installed attempt)) opens.isNone
        stores.isNone entries
      refine ⟨stored, within, ?_⟩
      intro record found
      rw [lastCheck_checked] at found
      exact last_mem stored within found
  | installs installed =>
      cases stepped
      exact ⟨kept.stored, kept.records, kept.lastCheck⟩
  | damage file =>
      simp only [step, Option.ite_none_right_eq_some, Option.some.injEq, Option.isNone_iff_eq_none]
        at stepped
      obtain ⟨unreadable, rfl⟩ := stepped
      exact ⟨unreadable, by rintro _ ⟨⟩, kept.lastCheck⟩
  | start reads =>
      cases stepped
      exact ⟨kept.stored, kept.records, fun record found => last_mem kept.stored kept.records found⟩

/-- **The log keeps the last checks.** In any number of runs of an updater, with reads and stores
that fail and a file that is damaged, it holds the last of the checks that were stored since it
was found unreadable or was damaged, and a status names a check only if it was stored. -/
theorem the_log_keeps_the_last_checks {run : Checking α × Stored}
    (moves : Moves (stepRecorded format malformed) unguarded ({}, {}) run) :
    (∀ kept, run.2.chain.kept = some kept →
        run.1.log.entries format malformed none = .ok (kept.rtake maxEntries)) ∧
      (∀ kept, run.2.chain.kept = some kept → kept ⊆ run.2.records) ∧
      (run.2.chain.kept = none →
        (run.1.log.entries format malformed none).toOption.getD [] = []) ∧
      ∀ record, run.1.status.lastCheck = some record → record ∈ run.2.records := by
  have kept : Kept format run := by
    refine moves.invariant (Kept format) ?_ ⟨rfl, by rintro _ ⟨⟩, by rintro _ ⟨⟩⟩
    intro before action after _ stepped kept
    rw [stepRecorded, Option.map_eq_some_iff] at stepped
    obtain ⟨checking, stepped, rfl⟩ := stepped
    exact kept_step stepped kept
  refine ⟨?_, kept.records, ?_, kept.lastCheck⟩
  · intro entries found
    have stored := kept.stored
    rw [found, Option.map_some, foldl_enter] at stored
    exact CheckLog.entries_of_stored stored
  · intro lost
    have stored := kept.stored
    rw [lost, Option.map_none] at stored
    rw [CheckLog.getD_entries, stored]
    rfl

/-- A file that holds records, or some other text. -/
def recordsOrText : Format (List Record) (List Record ⊕ String) where
  write := .inl
  read := Sum.getLeft?
  read_write _ := rfl

/-- A check fails, and is recorded as such. -/
def unreachable (atMs : Int) : CheckStep (List Record ⊕ String) :=
  .check none .empty (.error "unreachable") atMs none none none

theorem the_log_keeps_the_last_checks_damaged :
    ∃ run : Checking (List Record ⊕ String) × Stored,
      run.2 = ⟨⟨[⟨1, .failed, "unreachable"⟩], some [⟨1, .failed, "unreachable"⟩]⟩,
        [⟨0, .failed, "unreachable"⟩, ⟨1, .failed, "unreachable"⟩]⟩ ∧
      (∀ kept, run.2.chain.kept = some kept →
        run.1.log.entries recordsOrText "malformed" none = .ok (kept.rtake maxEntries)) ∧
      (∀ kept, run.2.chain.kept = some kept → kept ⊆ run.2.records) ∧
      (run.2.chain.kept = none →
        (run.1.log.entries recordsOrText "malformed" none).toOption.getD [] = []) ∧
      ∀ record, run.1.status.lastCheck = some record → record ∈ run.2.records := by
  obtain ⟨run, moves, found⟩ := Moves.of_check (stepRecorded recordsOrText "malformed") unguarded
    ({}, {}) [unreachable 0, .damage (some (.inr "not json")), unreachable 1]
    (fun run => decide (run.2 = ⟨⟨[⟨1, .failed, "unreachable"⟩],
      some [⟨1, .failed, "unreachable"⟩]⟩, [⟨0, .failed, "unreachable"⟩,
        ⟨1, .failed, "unreachable"⟩]⟩)) (by decide +kernel)
  exact ⟨run, of_decide_eq_true found, the_log_keeps_the_last_checks moves⟩

end Checking

end Retrovert.Update
