import Retrovert.Bridge.Scanning
import Retrovert.Playlists.Storage

/-!
# The rows that tracks carry

A track from the library carries its row's number, into the queue and while it plays. The
library is described from the front, so a number goes on naming its row as rows are added.
A rescan gives the numbers out anew, and leaves the tracks with the ones they carry.
-/

set_option autoImplicit false

namespace Retrovert.Bridge

open Playlists

/-! ## What the queue stores -/

section Payloads

variable {P : Type}

/-- The payloads of the stored items. -/
def payloads (engine : Engine P) : List P :=
  engine.playlists.flatMap fun stored => stored.items.map fun item => item.payload

theorem mem_payloads {engine : Engine P} {payload : P} :
    payload ∈ payloads engine ↔
      ∃ stored ∈ engine.playlists, ∃ item ∈ stored.items, item.payload = payload := by
  simp [payloads]

/-- The operations that store payloads from a list, or none. -/
def Stores (fresh : List P) (_ : Engine P) : Playlists.Action P → Prop
  | .append _ spec => spec.payload ∈ fresh
  | .editItem _ _ _ | .fromBytes _ _ => False
  | _ => True

theorem changes_payloads {fresh : List P} {engine : Engine P} {action : Playlists.Action P}
    {stored changed : Playlist P} {next : Nat} (stores : Stores fresh engine action)
    (changes : engine.Changes action stored changed next) {item : Item P}
    (member : item ∈ changed.items) : item ∈ stored.items ∨ item.payload ∈ fresh := by
  cases changes with
  | renamed _ | dirtied _ | cleaned _ | saved _ | savedAll => exact .inl member
  | appended _ =>
      rcases List.mem_append.mp member with old | new
      · exact .inl old
      · rw [List.mem_singleton.mp new]
        exact .inr stores
  | edited _ => cases stores
  | removed _ => exact .inl (List.mem_of_mem_eraseIdx member)
  | moved _ => exact .inl ((Engine.subperm_relocated _ _ _).subset member)

theorem payloads_apply {fresh : List P} {engine : Engine P} {action : Playlists.Action P}
    (stores : Stores fresh engine action) {payload : P}
    (member : payload ∈ payloads (engine.apply action)) :
    payload ∈ payloads engine ∨ payload ∈ fresh := by
  obtain ⟨stored, there, item, inside, rfl⟩ := mem_payloads.mp member
  have kept : stored ∈ engine.playlists → item.payload ∈ payloads engine := fun old =>
    mem_payloads.mpr ⟨stored, old, item, inside, rfl⟩
  cases engine.effect_apply action with
  | kept playlists _ _ _ => exact .inl (kept (playlists ▸ there))
  | changed _ at_ changes playlists _ _ =>
      rw [playlists] at there
      rcases List.mem_or_eq_of_mem_set there with old | rfl
      · exact .inl (kept old)
      · refine (changes_payloads stores changes inside).imp_left fun old => ?_
        exact mem_payloads.mpr ⟨_, List.mem_of_getElem? at_, item, old, rfl⟩
  | added adds playlists _ _ _ =>
      rw [playlists] at there
      rcases List.mem_append.mp there with old | new
      · exact .inl (kept old)
      · rw [List.mem_singleton.mp new] at inside
        cases adds with
        | created _ => cases inside
        | loaded _ _ _ => cases stores
  | erased _ playlists _ _ _ =>
      exact .inl (kept (List.mem_of_mem_eraseIdx (playlists ▸ there)))

theorem payloads_moves {fresh : List P} {engine later : Engine P}
    {guard : Engine P → Playlists.Action P → Prop}
    (stores : ∀ before action, guard before action → Stores fresh before action)
    (run : Runs.Moves Engine.step guard engine later) {payload : P}
    (member : payload ∈ payloads later) : payload ∈ payloads engine ∨ payload ∈ fresh := by
  revert payload
  refine Runs.Moves.invariant
    (fun later => ∀ {payload}, payload ∈ payloads later →
      payload ∈ payloads engine ∨ payload ∈ fresh) ?_ run .inl
  intro before action after meets stepped held payload member
  cases stepped
  rcases payloads_apply (stores before action meets) member with old | new
  · exact held old
  · exact .inr new

end Payloads

namespace Worker

variable {Path : Type}

theorem stores_of_calm (engine : Engine (Track Path)) (action : Playlists.Action (Track Path))
    (calm : Calm engine action) : Stores [] engine action := by
  cases action <;> trivial

theorem stores_of_removing (engine : Engine (Track Path))
    (action : Playlists.Action (Track Path)) (removing : Removing engine action) :
    Stores [] engine action := by
  cases action <;> trivial

theorem stores_of_starting {tracks : List (Track Path)} {mode : Mode}
    (engine : Engine (Track Path)) (action : Playlists.Action (Track Path))
    (starting : Starting tracks mode engine action) : Stores tracks engine action := by
  cases action with
  | append id spec => exact starting
  | editItem _ _ _ | fromBytes _ _ => cases starting
  | _ => trivial

/-! ## The tracks that the worker keeps -/

/-- The queued tracks and the one that plays. -/
def tracks (worker : Worker Path) : List (Track Path) :=
  payloads worker.playlist ++ worker.playing.toList.map Playing.track

theorem mem_tracks {worker : Worker Path} {track : Track Path} :
    track ∈ worker.tracks ↔ track ∈ payloads worker.playlist ∨
      ∃ playing, worker.playing = some playing ∧ playing.track = track := by
  simp [tracks]

/-- A handler keeps the tracks it has: it queues none, and mounts none of another file. -/
structure Keeps (worker later : Worker Path) : Prop where
  queued : ∀ track ∈ payloads later.playlist, track ∈ payloads worker.playlist
  playing : ∀ playing, later.playing = some playing → playing.track ∈ worker.tracks

theorem Keeps.tracks {worker later : Worker Path} (keeps : worker.Keeps later)
    {track : Track Path} (member : track ∈ later.tracks) : track ∈ worker.tracks := by
  rcases mem_tracks.mp member with queued | ⟨playing, mounted, rfl⟩
  · exact mem_tracks.mpr (.inl (keeps.queued track queued))
  · exact keeps.playing playing mounted

theorem Calms.queued {worker later : Worker Path} (calms : worker.Calms later) :
    ∀ track ∈ payloads later.playlist, track ∈ payloads worker.playlist := by
  intro track member
  rcases payloads_moves stores_of_calm calms.playlist member with old | new
  · exact old
  · cases new

/-- A calm handler that leaves the mounted song, or drops it. -/
theorem Calms.keeps {worker later : Worker Path} (calms : worker.Calms later)
    (playing : later.playing = worker.playing ∨ later.playing = none) : worker.Keeps later where
  queued := calms.queued
  playing song mounted := by
    rcases playing with same | none
    · exact mem_tracks.mpr (.inr ⟨song, same ▸ mounted, rfl⟩)
    · rw [none] at mounted
      cases mounted

theorem mount_playing (host : Host Path) (worker : Worker Path) (item : ItemId)
    (track : Track Path) (subsong : UInt32) (mounting : Mounting) (playing : Playing Path)
    (mounted : (worker.mount host item track subsong mounting).playing = some playing) :
    playing.track = track := by
  cases mounting with
  | refused _ | bare => cases mounted
  | ready _ =>
      cases mounted
      rfl

/-- What a poll yields is stored. -/
theorem poll_payload {engine later : Engine (Track Path)} {item : Item (Track Path)}
    (yields : engine.poll = (later, some item)) : item.payload ∈ payloads engine := by
  unfold Engine.poll at yields
  split at yields
  · cases yields
  · split at yields
    · cases yields
    · split at yields
      · cases yields
      · rename_i found
        cases yields
        obtain ⟨stored, there, inside⟩ := Option.bind_eq_some_iff.mp found
        exact mem_payloads.mpr ⟨stored, List.mem_of_getElem? there, item,
          List.mem_of_getElem? inside, rfl⟩

theorem keeps_poll (host : Host Path) (worker : Worker Path) (mounting : Mounting) :
    worker.Keeps (worker.poll host mounting) := by
  refine ⟨(calms_poll host worker mounting).queued, fun playing mounted => ?_⟩
  unfold poll at mounted
  split at mounted
  · exact mem_tracks.mpr (.inr ⟨playing, mounted, rfl⟩)
  · rename_i later item yields
    rw [mount_playing host _ _ _ _ _ _ mounted]
    exact mem_tracks.mpr (.inl (poll_payload yields))

theorem keeps_ending (worker : Worker Path) (reached : Option Int) :
    worker.Keeps (worker.ending reached) := by
  refine (calms_ending worker reached).keeps ?_
  have ended := worker.ends reached
  generalize worker.ending reached = later at ended ⊢
  cases ended with
  | unfinished _ | restarted _ _ | advanced _ => exact .inl rfl
  | rested => exact .inr rfl

theorem keeps_topUp (worker : Worker Path) (rendering : Rendering) :
    worker.Keeps (worker.topUp rendering) := by
  refine (calms_topUp worker rendering).keeps ?_
  have decoded := worker.decodes rendering
  generalize worker.topUp rendering = later at decoded ⊢
  cases decoded with
  | going | finished => exact .inl rfl
  | failed _ => exact .inr rfl

theorem keeps_scanStep (host : Host Path) (worker : Worker Path) (roomy : Bool)
    (described : Option Description) : worker.Keeps (worker.scanStep host roomy described) := by
  refine (calms_scanStep host worker roomy described).keeps (.inl ?_)
  unfold scanStep
  split
  · rfl
  · split <;> rfl

variable [DecidableEq Path]

/-- A command mounts no other file. -/
theorem handle_playing (host : Host Path) (worker : Worker Path) (answers : Answers)
    (command : Command Path) (playing : Playing Path)
    (mounted : (worker.handle host answers command).playing = some playing) :
    ∃ song, worker.playing = some song ∧ song.track = playing.track := by
  cases command with
  | scanLibrary root => exact ⟨playing, mounted, rfl⟩
  | walked root files =>
      simp only [handle, walked] at mounted
      split at mounted <;> exact ⟨playing, mounted, rfl⟩
  | _ => exact (spares_handle host worker answers (by simp) (by simp)).playing playing mounted

/-- A command queues the tracks that it asks for, and no others. -/
theorem handle_queued (host : Host Path) (worker : Worker Path) (answers : Answers)
    (command : Command Path) {track : Track Path}
    (member : track ∈ payloads (worker.handle host answers command).playlist) :
    track ∈ payloads worker.playlist ∨ track ∈ worker.requested command := by
  have handled := handles host worker answers command
  generalize worker.handle host answers command = later at handled member
  cases handled with
  | starts start _ =>
      exact payloads_moves stores_of_starting (starts_startQueue host worker _ start) member
  | sets => exact .inl member
  | clears =>
      rcases payloads_moves stores_of_removing worker.removes_clearQueue member with old | new
      · exact .inl old
      · cases new
  | calm _ calms => exact .inl (calms.queued track member)

end Worker

namespace Loop

variable {Path : Type} [DecidableEq Path]

/-- A step keeps the tracks that there are, and those that a command asks for. -/
theorem tracks_step {host : Host Path} {loop after : Loop Path} {action : Action Path}
    (stepped : loop.step host action = some after) {track : Track Path}
    (member : track ∈ after.worker.tracks) :
    track ∈ loop.worker.tracks ∨ ∃ command answers, action = .command command answers ∧
      track ∈ loop.worker.requested command := by
  cases steps_of_step stepped with
  | @command command answers _ _ =>
      rcases Worker.mem_tracks.mp member with queued | ⟨playing, mounted, rfl⟩
      · rcases Worker.handle_queued host _ _ _ queued with old | new
        · exact .inl (Worker.mem_tracks.mpr (.inl old))
        · exact .inr ⟨command, answers, rfl, new⟩
      · obtain ⟨song, there, same⟩ := Worker.handle_playing host _ _ _ _ mounted
        exact .inl (Worker.mem_tracks.mpr (.inr ⟨song, there, same⟩))
  | @delivery _ files root _ _ _ =>
      refine .inl ?_
      simp only [Worker.walked] at member
      split at member <;> exact member
  | silence _ => exact .inl member
  | poll _ => exact .inl ((Worker.keeps_poll host _ _).tracks member)
  | ending _ => exact .inl ((Worker.keeps_ending _ _).tracks member)
  | output _ => exact .inl ((Worker.keeps_topUp _ _).tracks member)
  | scan _ => exact .inl ((Worker.keeps_scanStep host _ _ _).tracks member)

end Loop

/-! ## Rows that stay true -/

/-- A track that carries a row carries the row of its file. -/
def Library.Names {Path : Type} (library : Library Path) (track : Track Path) : Prop :=
  ∀ row, track.row = some row →
    ∃ entry, library.entries[row.toNat]? = some entry ∧ entry.path = track.path

/-- The library's rows are those that its numbers and the tracks name. -/
structure Library.Covers {Path : Type} (library : Library Path) (tracks : List (Track Path)) :
    Prop where
  numbered : library.Numbered
  few : library.entries.length ≤ 2 ^ 32
  names : ∀ track ∈ tracks, library.Names track

theorem Library.names_of_entry {Path : Type} {library : Library Path}
    (numbered : library.Numbered) (few : library.entries.length ≤ 2 ^ 32) {entry : Entry Path}
    (member : entry ∈ library.entries) :
    library.Names { path := entry.path, row := some entry.id } := by
  intro row carried
  cases carried
  obtain ⟨index, inside, rfl⟩ := List.getElem_of_mem member
  have there := List.getElem?_eq_getElem inside
  rw [numbered index _ there, rowId_toNat (Nat.lt_of_lt_of_le inside few)]
  exact ⟨_, there, rfl⟩

namespace Loop

variable {Path : Type} [DecidableEq Path]

theorem requested_names {worker : Worker Path} (numbered : worker.library.Numbered)
    (few : worker.library.entries.length ≤ 2 ^ 32) {command : Command Path}
    {track : Track Path} (asked : track ∈ worker.requested command) :
    worker.library.Names track := by
  cases command with
  | «open» path =>
      rw [List.mem_singleton.mp asked]
      intro row carried
      obtain ⟨entry, found, rfl⟩ := Option.map_eq_some_iff.mp carried
      have same : entry.path = path := by simpa using List.find?_some found
      rw [← same]
      exact Library.names_of_entry numbered few (List.mem_of_find?_eq_some found) _ rfl
  | playRows rows start =>
      obtain ⟨entry, found, rfl⟩ := List.mem_map.mp asked
      obtain ⟨row, -, there⟩ := List.mem_filterMap.mp found
      exact Library.names_of_entry numbered few (List.mem_of_getElem? there)
  | _ => cases asked

def rescans : Action Path → Bool
  | .command (.scanLibrary _) _ => true
  | _ => false

def describes : Action Path → Bool
  | .scan _ _ => true
  | _ => false

/-- The library is not started over under a track that carries a row, and has no more rows
than their numbers can tell apart. -/
def KeepsRows (loop : Loop Path) (action : Action Path) : Prop :=
  (rescans action = true → ∀ track ∈ loop.worker.tracks, track.row = none) ∧
    (describes action = true → loop.worker.library.pending ≠ [] →
      loop.worker.library.entries.length < 2 ^ 32)

instance (loop : Loop Path) (action : Action Path) : Decidable (loop.KeepsRows action) :=
  inferInstanceAs (Decidable (_ ∧ (_ → _ → _)))

theorem covers_step {host : Host Path} {loop after : Loop Path} {action : Action Path}
    (keepsRows : loop.KeepsRows action) (stepped : loop.step host action = some after)
    (covers : loop.worker.library.Covers loop.worker.tracks) :
    after.worker.library.Covers after.worker.tracks := by
  have numbered := numbered_step stepped covers.numbered
  have rewrites := rewrites_step stepped
  have kept : ∀ track ∈ after.worker.tracks, _ := fun track member => tracks_step stepped member
  generalize after.worker.tracks = tracks at kept ⊢
  generalize after.worker.library = library at numbered rewrites ⊢
  cases rewrites with
  | kept =>
      refine ⟨numbered, covers.few, fun track member => ?_⟩
      rcases kept track member with old | ⟨command, _, -, asked⟩
      · exact covers.names track old
      · exact requested_names covers.numbered covers.few asked
  | cleared =>
      refine ⟨numbered, Nat.zero_le _, fun track member row carried => ?_⟩
      rcases kept track member with old | ⟨command, _, same, asked⟩
      · rw [keepsRows.1 rfl track old] at carried
        cases carried
      · cases same
        cases asked
  | filled _ _ =>
      refine ⟨numbered, covers.few, fun track member => ?_⟩
      rcases kept track member with old | ⟨_, _, same, -⟩
      · exact covers.names track old
      · cases same
  | @described _ described path rest next =>
      refine ⟨numbered, ?_, fun track member row carried => ?_⟩
      · have room := keepsRows.2 rfl (by simp [next])
        cases described with
        | none => simpa using covers.few
        | some _ =>
            rw [List.length_append]
            exact Nat.succ_le_of_lt room
      · rcases kept track member with old | ⟨_, _, same, -⟩
        · obtain ⟨entry, there, named⟩ := covers.names track old row carried
          refine ⟨entry, ?_, named⟩
          rw [List.getElem?_append_left (List.getElem?_eq_some_iff.mp there).1]
          exact there
        · cases same

/-- **Row references stay true** in every run in which the library is not started over
under a track that carries a row. -/
theorem rows_stay_true (host : Host Path) (root : Path) {loop : Loop Path}
    (run : Reaches host KeepsRows root loop) {track : Track Path}
    (member : track ∈ loop.worker.tracks) {row : UInt32} (carried : track.row = some row)
    {entry : Entry Path} (there : loop.worker.library.entries[row.toNat]? = some entry) :
    entry.path = track.path := by
  have covers := Runs.Moves.invariant
    (fun loop => loop.worker.library.Covers loop.worker.tracks)
    (fun _ _ _ keepsRows stepped covers => covers_step keepsRows stepped covers) run
    ⟨fun _ _ there => (nomatch there), Nat.zero_le _, fun _ member => (nomatch member)⟩
  obtain ⟨named, there', same⟩ := covers.names track member row carried
  rw [there] at there'
  cases there'
  exact same

/-- A root is scanned, and the row of its file is played. -/
def playing : List (Action String) :=
  pass (.scanLibrary "music") ++ (.delivery 0 ["a.mod"] :: describing) ++ pass (.playRows [0] 0)

theorem rows_stay_true_playing : ∃ loop : Loop String, ∃ track row, ∃ entry : Entry String,
    track ∈ loop.worker.tracks ∧ track.row = some row ∧
      loop.worker.library.entries[row.toNat]? = some entry ∧ entry.path = track.path := by
  obtain ⟨loop, run, checked⟩ := Runs.Moves.of_check (step modHost) KeepsRows (new "") playing
    (fun loop => loop.worker.tracks.any fun track => track.row.any fun row =>
      (loop.worker.library.entries[row.toNat]?).isSome)
    (by decide +kernel)
  obtain ⟨track, member, checked⟩ := List.any_eq_true.mp checked
  obtain ⟨row, carried, found⟩ := (Option.any_eq_true _ _).mp checked
  obtain ⟨entry, there⟩ := Option.isSome_iff_exists.mp found
  exact ⟨loop, track, row, entry, member, carried, there,
    rows_stay_true modHost "" run member carried there⟩

/-- Another root is scanned while the row of a file is played. -/
theorem a_rescan_renames_a_row :
    ¬∀ (host : Host String) (root : String) (loop : Loop String),
      Reaches host Runs.unguarded root loop → ∀ track ∈ loop.worker.tracks, ∀ row,
        track.row = some row → ∀ entry : Entry String,
          loop.worker.library.entries[row.toNat]? = some entry → entry.path = track.path := by
  intro names
  obtain ⟨loop, run, checked⟩ := Runs.Moves.of_check (step modHost) Runs.unguarded (new "")
    (playing ++ pass (.scanLibrary "other") ++ .delivery 0 ["b.mod"] :: describing)
    (fun loop => loop.worker.tracks.any fun track => track.row.any fun row =>
      (loop.worker.library.entries[row.toNat]?).any fun entry => entry.path != track.path)
    (by decide +kernel)
  obtain ⟨track, member, checked⟩ := List.any_eq_true.mp checked
  obtain ⟨row, carried, found⟩ := (Option.any_eq_true _ _).mp checked
  obtain ⟨entry, there, differs⟩ := (Option.any_eq_true _ _).mp found
  have same := names modHost "" loop run track member row carried entry there
  simp [same] at differs

end Loop

end Retrovert.Bridge
