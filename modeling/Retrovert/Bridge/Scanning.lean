import Mathlib.Data.List.Nodup
import Retrovert.Bridge.Loop

/-!
# The rows of the library

A rescan empties the library and starts another walk; the walks under way go on. One that
comes back counts when its root is the library's, so after a rescan of the same root two of
them do, and the second one fills the list of pending files with what the first one's files
have become rows of.
-/

set_option autoImplicit false

namespace Retrovert.Bridge

open Playlists

/-! ## What a step does to the library -/

namespace Worker

variable {Path : Type}

theorem mount_library (host : Host Path) (worker : Worker Path) (item : ItemId)
    (track : Track Path) (subsong : UInt32) (mounting : Mounting) :
    (worker.mount host item track subsong mounting).library = worker.library := by
  cases mounting <;> rfl

theorem poll_library (host : Host Path) (worker : Worker Path) (mounting : Mounting) :
    (worker.poll host mounting).library = worker.library := by
  unfold poll
  split
  · rfl
  · exact mount_library host _ _ _ _ _

theorem ending_library (worker : Worker Path) (reached : Option Int) :
    (worker.ending reached).library = worker.library := by
  have ended := worker.ends reached
  generalize worker.ending reached = later at ended ⊢
  cases ended <;> rfl

theorem topUp_library (worker : Worker Path) (rendering : Rendering) :
    (worker.topUp rendering).library = worker.library := by
  have decoded := worker.decodes rendering
  generalize worker.topUp rendering = later at decoded ⊢
  cases decoded <;> rfl

variable [DecidableEq Path]

/-- A command leaves the library alone, or starts it over. -/
theorem handle_library (host : Host Path) (worker : Worker Path) (answers : Answers)
    {command : Command Path} (sent : ∀ root files, command ≠ .walked root files) :
    (worker.handle host answers command).library = worker.library ∨
      ∃ root, command = .scanLibrary root ∧
        (worker.handle host answers command).library = { root } := by
  cases command with
  | scanLibrary root => exact .inr ⟨root, rfl, rfl⟩
  | walked root files => exact absurd rfl (sent root files)
  | _ => exact .inl (spares_handle host worker answers (by simp) (by simp)).library

end Worker

namespace Loop

variable {Path : Type} [DecidableEq Path] (host : Host Path)

/-- What a step makes of the library. -/
inductive Rewrites (loop : Loop Path) : Action Path → Library Path → Prop
  | kept {action : Action Path} : Rewrites loop action loop.worker.library
  | cleared {answers : Answers} {root : Path} :
      Rewrites loop (.command (.scanLibrary root) answers) { root }
  | filled {walk : Nat} {files : List Path}
      (counts : loop.walks[walk]? = some loop.worker.library.root) (distinct : files.Nodup) :
      Rewrites loop (.delivery walk files)
        { loop.worker.library with pending := files.filter fun path => host.claimed path ≠ "" }
  | described {roomy : Bool} {described : Option Description} {path : Path} {rest : List Path}
      (next : loop.worker.library.pending = path :: rest) :
      Rewrites loop (.scan roomy described)
        { loop.worker.library with
          pending := rest
          entries := loop.worker.library.entries ++ described.toList.map fun described =>
            { toDescription := described
              id := Worker.rowId loop.worker.library.entries.length, path
              format := host.claimed path } }

theorem rewrites_step {host : Host Path} {loop after : Loop Path} {action : Action Path}
    (stepped : loop.step host action = some after) :
    loop.Rewrites host action after.worker.library := by
  cases steps_of_step stepped with
  | @command command answers _ sent =>
      rcases Worker.handle_library host loop.worker answers sent with same | ⟨root, rfl, cleared⟩
      · simp only [same]
        exact .kept
      · simp only [cleared]
        exact .cleared
  | delivery _ there distinct =>
      simp only [Worker.walked]
      split
      · exact .kept
      · rename_i counts
        rw [Decidable.not_not.mp counts] at there
        exact .filled there distinct
  | silence _ => exact .kept
  | poll _ =>
      simp only [Worker.poll_library]
      exact .kept
  | ending _ =>
      simp only [Worker.ending_library]
      exact .kept
  | output _ =>
      simp only [Worker.topUp_library]
      exact .kept
  | scan _ =>
      simp only [Worker.scanStep]
      split
      · exact .kept
      · rename_i next
        split
        · exact .kept
        · exact .described next

end Loop

/-! ## Each path once -/

theorem rowId_toNat {count : Nat} (few : count < 2 ^ 32) :
    (Worker.rowId count).toNat = count := by
  rw [Worker.rowId, if_pos few, UInt32.toNat_ofNat']
  exact Nat.mod_eq_of_lt few

/-- The rows are numbered by their places. -/
def Library.Numbered {Path : Type} (library : Library Path) : Prop :=
  ∀ (index : Nat) (entry : Entry Path), library.entries[index]? = some entry →
    entry.id = Worker.rowId index

namespace Loop

variable {Path : Type} [DecidableEq Path]

/-- A walk that counts finds no file that has a row. -/
def FindsNew (host : Host Path) (loop : Loop Path) : Action Path → Prop
  | .delivery walk files =>
      loop.walks[walk]? = some loop.worker.library.root →
        ∀ path ∈ files, host.claimed path ≠ "" → path ∉ loop.worker.library.entries.map Entry.path
  | _ => True

instance (host : Host Path) (loop : Loop Path) :
    (action : Action Path) → Decidable (loop.FindsNew host action)
  | .delivery walk files =>
      inferInstanceAs (Decidable (loop.walks[walk]? = some loop.worker.library.root →
        ∀ path ∈ files, host.claimed path ≠ "" →
          path ∉ loop.worker.library.entries.map Entry.path))
  | .command _ _ | .silence | .poll _ | .ending _ | .output _ | .scan _ _ =>
      inferInstanceAs (Decidable True)

theorem numbered_step {host : Host Path} {loop after : Loop Path} {action : Action Path}
    (stepped : loop.step host action = some after) (numbered : loop.worker.library.Numbered) :
    after.worker.library.Numbered := by
  have rewrites := rewrites_step stepped
  generalize after.worker.library = library at rewrites ⊢
  cases rewrites with
  | kept | filled _ _ => exact numbered
  | cleared => exact fun _ _ there => by cases there
  | @described _ described path rest next =>
      intro index entry there
      rcases Nat.lt_trichotomy index loop.worker.library.entries.length with
        before | rfl | beyond
      · rw [List.getElem?_append_left before] at there
        exact numbered index entry there
      · cases described with
        | none => simp at there
        | some described =>
            simp only [Option.toList_some, List.map_cons, List.map_nil] at there
            rw [List.getElem?_concat_length] at there
            cases there
            rfl
      · rw [List.getElem?_eq_none] at there
        · cases there
        · cases described <;> simp <;> omega

theorem distinct_step {host : Host Path} {loop after : Loop Path} {action : Action Path}
    (findsNew : loop.FindsNew host action) (stepped : loop.step host action = some after)
    (distinct : (loop.worker.library.entries.map Entry.path ++
      loop.worker.library.pending).Nodup) :
    (after.worker.library.entries.map Entry.path ++ after.worker.library.pending).Nodup := by
  have rewrites := rewrites_step stepped
  generalize after.worker.library = library at rewrites ⊢
  cases rewrites with
  | kept => exact distinct
  | cleared => exact .nil
  | filled counts once =>
      refine List.Nodup.append (List.nodup_append.mp distinct).1 (once.filter _) ?_
      intro path old new
      obtain ⟨member, claimed⟩ := List.mem_filter.mp new
      exact findsNew counts path member (by simpa using claimed) old
  | @described _ described path rest next =>
      rw [next] at distinct
      cases described with
      | none =>
          have fewer := (List.sublist_cons_self path rest).append_left
            (loop.worker.library.entries.map Entry.path)
          simpa using distinct.sublist fewer
      | some described => simpa using distinct

/-- **The library never holds a path twice**, and its rows are numbered by their places
as long as their numbers last, in every run in which each walk that counts finds no file
that has a row. -/
theorem library_is_distinct (host : Host Path) (root : Path) {loop : Loop Path}
    (run : Reaches host (FindsNew host) root loop) :
    (loop.worker.library.entries.map Entry.path ++ loop.worker.library.pending).Nodup ∧
      (loop.worker.library.entries.length < 2 ^ 32 →
        ∀ (index : Nat) (entry : Entry Path),
          loop.worker.library.entries[index]? = some entry → entry.id.toNat = index) := by
  have numbered := Runs.Moves.invariant (fun loop => loop.worker.library.Numbered)
    (fun _ _ _ _ stepped numbered => numbered_step stepped numbered) run
    (fun _ _ there => by cases there)
  refine ⟨Runs.Moves.invariant
    (fun loop => (loop.worker.library.entries.map Entry.path ++
      loop.worker.library.pending).Nodup)
    (fun _ _ _ findsNew stepped distinct => distinct_step findsNew stepped distinct) run .nil,
    fun few index entry there => ?_⟩
  have inside := (List.getElem?_eq_some_iff.mp there).1
  rw [numbered index entry there]
  exact rowId_toNat (Nat.lt_trans inside few)

/-- The rest of a pass in which a command or a walk was handled. -/
def describing : List (Action String) :=
  [.poll .bare, .ending none, .output .nothing, .scan true (some ⟨"", "", 0⟩)]

/-- Two files are found and one of them gets its row. -/
theorem library_is_distinct_found : ∃ loop : Loop String,
    loop.worker.library.pending = ["b.mod"] ∧
      (loop.worker.library.entries.map Entry.path ++ loop.worker.library.pending).Nodup := by
  obtain ⟨loop, run, checked⟩ := Runs.Moves.of_check (step modHost) (FindsNew modHost) (new "")
    (pass (.scanLibrary "music") ++ .delivery 0 ["a.mod", "b.mod"] :: describing)
    (fun loop => loop.worker.library.pending == ["b.mod"])
    (by decide +kernel)
  exact ⟨loop, by simpa using checked, (library_is_distinct modHost "" run).1⟩

/-- A root is scanned twice before a walk of it has come back. -/
theorem a_rescan_doubles_a_path :
    ¬∀ (host : Host String) (root : String) (loop : Loop String),
      Reaches host Runs.unguarded root loop →
        (loop.worker.library.entries.map Entry.path ++ loop.worker.library.pending).Nodup := by
  intro distinct
  obtain ⟨loop, run, checked⟩ := Runs.Moves.of_check (step modHost) Runs.unguarded (new "")
    (pass (.scanLibrary "music") ++ pass (.scanLibrary "music") ++
      (.delivery 0 ["a.mod"] :: describing) ++ [.delivery 0 ["a.mod"]])
    (fun loop => loop.worker.library.entries.map Entry.path ++ loop.worker.library.pending ==
      ["a.mod", "a.mod"])
    (by decide +kernel)
  have same := distinct modHost "" loop run
  rw [beq_iff_eq.mp checked] at same
  simp at same

end Loop

end Retrovert.Bridge
