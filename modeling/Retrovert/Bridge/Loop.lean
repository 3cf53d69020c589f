import Retrovert.Bridge.Worker
import Retrovert.Playlists.Persisting

/-!
# Passes of the worker's loop

A pass goes through five stages. In the first one it takes a command of the UI, or the
files of a walk that has come back, or nothing. Walks run on threads of their own and
come back in any order, whatever the library's root is by then.
-/

set_option autoImplicit false

namespace Retrovert.Bridge

open Playlists

/-- The stage that comes next. -/
inductive Stage where
  | command
  | poll
  | ending
  | output
  | scan
deriving DecidableEq, Repr

structure Loop (Path : Type) where
  worker : Worker Path
  stage : Stage := .command
  /-- The roots of the walks that have not come back. -/
  walks : List Path := []

inductive Action (Path : Type) where
  | command (command : Command Path) (answers : Answers)
  | delivery (walk : Nat) (files : List Path)
  | silence
  | poll (mounting : Mounting)
  | ending (reached : Option Int)
  | output (rendering : Rendering)
  | scan (roomy : Bool) (described : Option Description)

namespace Loop

variable {Path : Type} [DecidableEq Path] (host : Host Path)

/-- The walks once a command has been handled. -/
def walksAfter (loop : Loop Path) (answers : Answers) : Command Path → List Path
  | .scanLibrary root => if answers.spawned then loop.walks ++ [root] else loop.walks
  | _ => loop.walks

/-- One stage of a pass. A walk lists each path once. -/
def step (loop : Loop Path) (action : Action Path) : Option (Loop Path) :=
  match loop.stage, action with
  | .command, .command (.walked _ _) _ => none
  | .command, .command command answers =>
      some { worker := loop.worker.handle host answers command, stage := .poll
             walks := loop.walksAfter answers command }
  | .command, .delivery walk files =>
      match loop.walks[walk]? with
      | none => none
      | some root =>
          if files.Nodup then
            some { worker := loop.worker.walked host root files, stage := .poll
                   walks := loop.walks.eraseIdx walk }
          else none
  | .command, .silence => some { loop with stage := .poll }
  | .poll, .poll mounting =>
      some { loop with worker := loop.worker.poll host mounting, stage := .ending }
  | .ending, .ending reached =>
      some { loop with worker := loop.worker.ending reached, stage := .output }
  | .output, .output rendering =>
      some { loop with worker := loop.worker.topUp rendering, stage := .scan }
  | .scan, .scan roomy described =>
      some { loop with worker := loop.worker.scanStep host roomy described, stage := .command }
  | _, _ => none

/-- A new worker. Its library has a root from the start, in the source the empty path. -/
def new (root : Path) : Loop Path := { worker := { library := { root } } }

/-- The states that runs of a new worker lead to, every step meeting a guard. -/
def Reaches (guard : Loop Path → Action Path → Prop) (root : Path) (loop : Loop Path) : Prop :=
  Runs.Moves (step host) guard (new root) loop

/-- A host of one decoder, and a pass with a command in which all goes well. -/
def modHost : Host String where
  text path := path
  extension _ := "mod"
  prefixOf _ := ""
  handles extension := extension == "mod"

def pass (command : Command String) : List (Action String) :=
  [.command command { mounting := .ready 1, reached := some 0 }, .poll (.ready 1), .ending none,
    .output .nothing, .scan true (some ⟨"title", "composer", 60000⟩)]

/-- What one stage does. -/
inductive Steps (loop : Loop Path) : Action Path → Loop Path → Prop
  | command {command : Command Path} {answers : Answers} (stage : loop.stage = .command)
      (sent : ∀ root files, command ≠ .walked root files) :
      Steps loop (.command command answers)
        { worker := loop.worker.handle host answers command, stage := .poll
          walks := loop.walksAfter answers command }
  | delivery {walk : Nat} {files : List Path} {root : Path} (stage : loop.stage = .command)
      (there : loop.walks[walk]? = some root) (distinct : files.Nodup) :
      Steps loop (.delivery walk files)
        { worker := loop.worker.walked host root files, stage := .poll
          walks := loop.walks.eraseIdx walk }
  | silence (stage : loop.stage = .command) : Steps loop .silence { loop with stage := .poll }
  | poll {mounting : Mounting} (stage : loop.stage = .poll) :
      Steps loop (.poll mounting)
        { loop with worker := loop.worker.poll host mounting, stage := .ending }
  | ending {reached : Option Int} (stage : loop.stage = .ending) :
      Steps loop (.ending reached)
        { loop with worker := loop.worker.ending reached, stage := .output }
  | output {rendering : Rendering} (stage : loop.stage = .output) :
      Steps loop (.output rendering)
        { loop with worker := loop.worker.topUp rendering, stage := .scan }
  | scan {roomy : Bool} {described : Option Description} (stage : loop.stage = .scan) :
      Steps loop (.scan roomy described)
        { loop with worker := loop.worker.scanStep host roomy described, stage := .command }

theorem steps_of_step {host : Host Path} {loop after : Loop Path} {action : Action Path}
    (stepped : loop.step host action = some after) : Steps host loop action after := by
  unfold step at stepped
  split at stepped
  · cases stepped
  · rename_i sent stage
    cases stepped
    exact .command stage fun root files same => sent root files same
  · rename_i stage
    split at stepped
    · cases stepped
    · rename_i there
      rw [Option.ite_none_right_eq_some] at stepped
      obtain ⟨distinct, made⟩ := stepped
      cases made
      exact .delivery stage there distinct
  · cases stepped
    exact .silence ‹_›
  · cases stepped
    exact .poll ‹_›
  · cases stepped
    exact .ending ‹_›
  · cases stepped
    exact .output ‹_›
  · cases stepped
    exact .scan ‹_›
  · cases stepped

end Loop

/-! ## What the handlers do to the playlist engine -/

namespace Worker

variable {Path : Type}

/-- Operations that move the cursor of a playback that has been started, or stop it. The
worker goes back only from an item. -/
def Calm (engine : Engine (Track Path)) : Playlists.Action (Track Path) → Prop
  | .stop | .poll | .onFinished | .onFailed | .next => True
  | .previous => engine.currentItemId.isSome = true
  | _ => False

def Removing (_ : Engine (Track Path)) : Playlists.Action (Track Path) → Prop
  | .removeItem _ _ => True
  | _ => False

/-- The operations by which a queue of tracks is started in a mode. -/
def Starting (tracks : List (Track Path)) (mode : Mode) (_ : Engine (Track Path)) :
    Playlists.Action (Track Path) → Prop
  | .stop | .create _ | .start _ _ => True
  | .append _ spec => spec.payload ∈ tracks
  | .setMode set => set = mode
  | _ => False

theorem calm_apply (engine : Engine (Track Path)) (action : Playlists.Action (Track Path))
    (calm : Calm engine action) : Runs.Moves Engine.step Calm engine (engine.apply action) :=
  Engine.moves_apply (.refl _) calm

/-- A handler works the playlist engine by calm operations and leaves the loop mode. -/
structure Calms (worker later : Worker Path) : Prop where
  playlist : Runs.Moves Engine.step Calm worker.playlist later.playlist
  loopMode : later.loopMode = worker.loopMode
  published : later.front.loopMode = worker.front.loopMode

section Calms

variable {worker later : Worker Path}

theorem Calms.refl (worker : Worker Path) : worker.Calms worker := ⟨.refl _, rfl, rfl⟩

theorem calms_mount (host : Host Path) (worker : Worker Path) (item : ItemId)
    (track : Track Path) (subsong : UInt32) (mounting : Mounting) :
    worker.Calms (worker.mount host item track subsong mounting) := by
  cases mounting with
  | refused _ | bare => exact ⟨calm_apply worker.playlist .onFailed trivial, rfl, rfl⟩
  | ready _ => exact ⟨.refl _, rfl, rfl⟩

theorem removes_removePast (playlist : PlaylistId) (current : Option ItemId) (ids : List ItemId)
    (engine : Engine (Track Path)) (past : Bool) :
    Runs.Moves Engine.step Removing engine (removePast playlist current engine past ids) := by
  induction ids generalizing engine past with
  | nil => exact .refl engine
  | cons id rest ih =>
      refine .trans ?_ (ih _ _)
      have removes : Runs.Moves Engine.step Removing engine (engine.apply (.removeItem playlist id)) :=
        Engine.moves_apply (.refl engine) trivial
      cases past with
      | true => exact removes
      | false => exact .refl engine

/-- A seek touches the session alone. -/
theorem backendSeek_eq {reached : Option Int} (sought : worker.backendSeek reached = some later) :
    ∃ session, later = { worker with session } := by
  unfold backendSeek at sought
  split at sought
  · cases sought
    exact ⟨_, rfl⟩
  · cases sought

/-- Going back is a seek, if anything, or a move of the cursor. -/
theorem previous_cases (worker : Worker Path) (positionMs : Int) (reached : Option Int) :
    (∃ session, worker.previous positionMs reached = { worker with session }) ∨
      worker.hasPrevious = true ∧ worker.previous positionMs reached =
        { worker with playlist := worker.playlist.previous } := by
  have seeks : ∃ session, (worker.backendSeek reached).getD worker = { worker with session } := by
    cases sought : worker.backendSeek reached with
    | none => exact ⟨worker.session, rfl⟩
    | some later => exact backendSeek_eq sought
  by_cases restarts : restartAfterMs < (if worker.session.isSome then positionMs else 0) ∨
      (!worker.hasPrevious) = true
  · simp only [previous, if_pos restarts]
    exact .inl seeks
  · simp only [previous, if_neg restarts]
    rw [not_or] at restarts
    exact .inr ⟨by simpa using restarts.2, trivial⟩

theorem hasPrevious_current (has : worker.hasPrevious = true) :
    worker.playlist.currentItemId.isSome = true := by
  unfold hasPrevious at has
  split at has
  · rename_i current
    rw [current]
    rfl
  · cases has

theorem calms_poll (host : Host Path) (worker : Worker Path) (mounting : Mounting) :
    worker.Calms (worker.poll host mounting) := by
  have polls : Runs.Moves Engine.step Calm worker.playlist worker.playlist.poll.1 :=
    calm_apply worker.playlist .poll trivial
  unfold poll
  cases polled : worker.playlist.poll with
  | mk engine yielded =>
      rw [polled] at polls
      cases yielded with
      | none => exact ⟨polls, rfl, rfl⟩
      | some item =>
          have mounted := calms_mount host { worker with playlist := engine } item.id item.payload
            0 mounting
          exact ⟨polls.trans mounted.playlist, mounted.loopMode, mounted.published⟩

/-- What the end of a song comes to. -/
inductive Ends (worker : Worker Path) (reached : Option Int) : Worker Path → Prop
  | unfinished (goes : worker.session ≠ some .finished) : Ends worker reached worker
  | restarted {session : Option PlaybackStatus} (mode : worker.loopMode = .one)
      (sought : worker.backendSeek reached = some { worker with session }) :
      Ends worker reached { worker with session }
  | advanced (more : worker.playlist.onFinished.peekNext.isSome = true) :
      Ends worker reached { worker with playlist := worker.playlist.onFinished }
  | rested : Ends worker reached
      { worker with
        playlist := worker.playlist.onFinished.stop, session := none, playing := none
        front := { worker.front with status := .finished } }

theorem ends (worker : Worker Path) (reached : Option Int) :
    Ends worker reached (worker.ending reached) := by
  unfold ending
  split
  · unfold songEnded
    split
    · rename_i restarted sought
      rw [Option.ite_none_right_eq_some] at sought
      obtain ⟨mode, sought⟩ := sought
      obtain ⟨session, rfl⟩ := backendSeek_eq sought
      exact .restarted mode sought
    · simp only
      split
      · rename_i more
        exact .advanced more
      · exact .rested
  · rename_i goes
    exact .unfinished goes

theorem calms_ending (worker : Worker Path) (reached : Option Int) :
    worker.Calms (worker.ending reached) := by
  have finishes : Runs.Moves Engine.step Calm worker.playlist worker.playlist.onFinished :=
    calm_apply worker.playlist .onFinished trivial
  have ended := worker.ends reached
  generalize worker.ending reached = later at ended ⊢
  cases ended with
  | unfinished _ => exact .refl worker
  | restarted _ _ => exact ⟨.refl _, rfl, rfl⟩
  | advanced _ => exact ⟨finishes, rfl, rfl⟩
  | rested => exact ⟨finishes.trans (calm_apply _ .stop trivial), rfl, rfl⟩

/-- What decoding comes to: nothing, the end of the song, or a failure. -/
inductive Decodes (worker : Worker Path) : Worker Path → Prop
  | going : Decodes worker worker
  | finished : Decodes worker { worker with session := some .finished }
  | failed (error : String) : Decodes worker
      { worker with
        playlist := worker.playlist.onFailed, session := none, playing := none
        front := { worker.front with status := .error, error } }

theorem decodes (worker : Worker Path) (rendering : Rendering) :
    Decodes worker (worker.topUp rendering) := by
  unfold topUp
  split
  · cases rendering with
    | nothing => exact .going
    | samples finished =>
        cases finished with
        | true => exact .finished
        | false => exact .going
    | failed error => exact .failed _
  · exact .going

theorem calms_topUp (worker : Worker Path) (rendering : Rendering) :
    worker.Calms (worker.topUp rendering) := by
  have decoded := worker.decodes rendering
  generalize worker.topUp rendering = later at decoded ⊢
  cases decoded with
  | going => exact .refl worker
  | finished => exact ⟨.refl _, rfl, rfl⟩
  | failed _ => exact ⟨calm_apply worker.playlist .onFailed trivial, rfl, rfl⟩

theorem calms_scanStep (host : Host Path) (worker : Worker Path) (roomy : Bool)
    (described : Option Description) :
    worker.Calms (worker.scanStep host roomy described) := by
  unfold scanStep
  split
  · exact .refl worker
  · split
    · exact .refl worker
    · exact ⟨.refl _, rfl, rfl⟩

end Calms

/-! ## Starting a queue -/

theorem spec_payload (host : Host Path) (library : Library Path) (track : Track Path) :
    (spec host library track).payload = track := by
  unfold spec
  split <;> rfl

theorem starting_apply {tracks : List (Track Path)} {mode : Mode} (engine : Engine (Track Path))
    (action : Playlists.Action (Track Path)) (starting : Starting tracks mode engine action) :
    Runs.Moves Engine.step (Starting tracks mode) engine (engine.apply action) :=
  Engine.moves_apply (.refl _) starting

theorem starts_enqueue (host : Host Path) (library : Library Path) (id : PlaylistId) (start : Nat)
    (mode : Mode) {all tracks : List (Track Path)} (within : tracks ⊆ all)
    (engine : Engine (Track Path)) (startItem : Option ItemId) (index : Nat) :
    Runs.Moves Engine.step (Starting all mode) engine
      (enqueue host library id start engine startItem index tracks).1 := by
  induction tracks generalizing engine startItem index with
  | nil => exact .refl engine
  | cons track rest ih =>
      have asked : (spec host library track).payload ∈ all := by
        rw [spec_payload]
        exact within List.mem_cons_self
      exact (starting_apply engine (.append id (spec host library track)) asked).trans
        (ih (fun _ member => within (List.mem_cons_of_mem _ member)) _ _ _)

theorem starts_startQueue (host : Host Path) (worker : Worker Path) (tracks : List (Track Path))
    (start : Nat) :
    Runs.Moves Engine.step (Starting tracks (playlistMode worker.loopMode)) worker.playlist
      (worker.startQueue host tracks start).playlist := by
  have stops : Runs.Moves Engine.step (Starting tracks (playlistMode worker.loopMode))
      worker.playlist worker.playlist.stop := starting_apply worker.playlist .stop trivial
  have creates := stops.trans (starting_apply _ (.create none) trivial)
  unfold startQueue
  cases created : worker.playlist.stop.create none with
  | mk engine id =>
      simp only [Engine.apply, created] at creates
      cases id with
      | none => exact creates
      | some id =>
          have fills := starts_enqueue host worker.library id start (playlistMode worker.loopMode)
            (List.Subset.refl tracks) engine none 0
          exact ((creates.trans fills).trans (starting_apply _ (.setMode _) rfl)).trans
            (starting_apply _ (.start id _) trivial)

/-- Starting a queue touches the playlist engine alone. -/
theorem startQueue_eq (host : Host Path) (worker : Worker Path) (tracks : List (Track Path))
    (start : Nat) : worker.startQueue host tracks start =
      { worker with playlist := (worker.startQueue host tracks start).playlist } := by
  unfold startQueue
  split <;> rfl

/-! ## Commands -/

variable [DecidableEq Path]

omit [DecidableEq Path] in
theorem removes_clearQueue (worker : Worker Path) :
    Runs.Moves Engine.step Removing worker.playlist worker.clearQueue.playlist := by
  unfold clearQueue
  split
  · exact .refl _
  · exact removes_removePast _ _ _ _ _

omit [DecidableEq Path] in
/-- Emptying the queue touches the playlist engine alone. -/
theorem clearQueue_eq (worker : Worker Path) :
    worker.clearQueue = { worker with playlist := worker.clearQueue.playlist } := by
  unfold clearQueue
  split <;> rfl

/-- The tracks of the queue that a command asks for, if it does. -/
def requested (worker : Worker Path) : Command Path → List (Track Path)
  | .open path =>
      [{ path, row := (worker.library.entries.find? (·.path == path)).map Entry.id }]
  | .playRows rows _ =>
      (rows.filterMap fun row => worker.library.entries[row.toNat]?).map
        fun entry => { path := entry.path, row := some entry.id }
  | _ => []

/-- What a command comes to: it starts a queue, or sets the mode, or empties the queue, or
does none of these. -/
inductive Handles (host : Host Path) (worker : Worker Path) : Command Path → Worker Path → Prop
  | starts {command : Command Path} (start : Nat) (asked : worker.requested command ≠ []) :
      Handles host worker command (worker.startQueue host (worker.requested command) start)
  | sets {mode : LoopMode} :
      Handles host worker (.setLoop mode)
        { worker with
          loopMode := mode
          playlist := worker.playlist.setMode (playlistMode mode)
          front := { worker.front with loopMode := mode } }
  | clears : Handles host worker .clearQueue worker.clearQueue
  | calm {command : Command Path} {later : Worker Path} (asked : worker.requested command = [])
      (calms : worker.Calms later) : Handles host worker command later

theorem handles (host : Host Path) (worker : Worker Path) (answers : Answers)
    (command : Command Path) :
    Handles host worker command (worker.handle host answers command) := by
  cases command with
  | «open» path => exact .starts 0 (List.cons_ne_nil _ _)
  | playRows rows start =>
      simp only [handle, playRows]
      split
      · rename_i none
        exact .calm none (.refl worker)
      · rename_i some
        exact .starts _ some
  | setLoop mode => exact .sets
  | stop => exact .calm rfl ⟨calm_apply worker.playlist .stop trivial, rfl, rfl⟩
  | next => exact .calm rfl ⟨calm_apply worker.playlist .next trivial, rfl, rfl⟩
  | togglePause =>
      refine .calm rfl ?_
      simp only [handle, togglePause]
      split <;> exact ⟨.refl _, rfl, rfl⟩
  | seek ms =>
      refine .calm rfl ?_
      simp only [handle, seek]
      split
      · exact .refl worker
      · rename_i later sought
        obtain ⟨session, rfl⟩ := backendSeek_eq sought
        exact ⟨.refl _, rfl, rfl⟩
  | previous =>
      refine .calm rfl ?_
      simp only [handle]
      rcases previous_cases worker answers.positionMs answers.reached with
        ⟨session, same⟩ | ⟨has, same⟩
      · rw [same]
        exact ⟨.refl _, rfl, rfl⟩
      · rw [same]
        exact ⟨calm_apply worker.playlist .previous (hasPrevious_current has), rfl, rfl⟩
  | setSubsong index =>
      refine .calm rfl ?_
      simp only [handle, setSubsong]
      split
      · exact .refl worker
      · split
        · exact calms_mount host _ _ _ _ _
        · exact .refl worker
  | clearQueue => exact .clears
  | walked root files =>
      refine .calm rfl ?_
      simp only [handle, walked]
      split <;> exact ⟨.refl _, rfl, rfl⟩
  | setVolume | scanLibrary root => exact .calm rfl ⟨.refl _, rfl, rfl⟩

/-- A command leaves the library alone, and the song that is mounted, unless it drops the song
or mounts another part of its file. -/
structure Spares (worker later : Worker Path) : Prop where
  library : later.library = worker.library
  playing : ∀ playing, later.playing = some playing →
    ∃ song, worker.playing = some song ∧ song.track = playing.track

omit [DecidableEq Path] in
theorem Spares.of_same {worker later : Worker Path} (library : later.library = worker.library)
    (playing : later.playing = worker.playing) : worker.Spares later :=
  ⟨library, fun playing' mounted => ⟨playing', playing ▸ mounted, rfl⟩⟩

omit [DecidableEq Path] in
theorem spares_mount (host : Host Path) {worker : Worker Path} {song : Playing Path}
    (there : worker.playing = some song) (subsong : UInt32) (mounting : Mounting) :
    worker.Spares (worker.mount host song.item song.track subsong mounting) := by
  cases mounting with
  | refused _ | bare => exact ⟨rfl, fun _ mounted => by cases mounted⟩
  | ready _ =>
      refine ⟨rfl, ?_⟩
      rintro _ ⟨⟩
      exact ⟨song, there, rfl⟩

/-- What becomes of the library and of the mounted song, unless the command is about the
library itself. -/
theorem spares_handle (host : Host Path) (worker : Worker Path) (answers : Answers)
    {command : Command Path} (rescans : ∀ root, command ≠ .scanLibrary root)
    (sent : ∀ root files, command ≠ .walked root files) :
    worker.Spares (worker.handle host answers command) := by
  have starts : ∀ tracks start, worker.Spares (worker.startQueue host tracks start) := by
    intro tracks start
    rw [startQueue_eq]
    exact .of_same rfl rfl
  cases command with
  | scanLibrary root => exact absurd rfl (rescans root)
  | walked root files => exact absurd rfl (sent root files)
  | «open» path =>
      simp only [handle]
      exact starts _ _
  | playRows rows start =>
      simp only [handle, playRows]
      split
      · exact .of_same rfl rfl
      · exact starts _ _
  | stop => exact ⟨rfl, fun _ mounted => by cases mounted⟩
  | togglePause =>
      simp only [handle, togglePause]
      split <;> exact .of_same rfl rfl
  | seek ms =>
      simp only [handle, seek]
      split
      · exact .of_same rfl rfl
      · rename_i later sought
        obtain ⟨session, rfl⟩ := backendSeek_eq sought
        exact .of_same rfl rfl
  | previous =>
      simp only [handle]
      rcases previous_cases worker answers.positionMs answers.reached with
        ⟨session, same⟩ | ⟨-, same⟩
      · rw [same]
        exact .of_same rfl rfl
      · rw [same]
        exact .of_same rfl rfl
  | setSubsong index =>
      simp only [handle, setSubsong]
      split
      · exact .of_same rfl rfl
      · rename_i song there
        split
        · exact spares_mount host there _ _
        · exact .of_same rfl rfl
  | clearQueue =>
      simp only [handle]
      rw [clearQueue_eq]
      exact .of_same rfl rfl
  | next | setLoop mode | setVolume => exact .of_same rfl rfl

omit [DecidableEq Path] in
theorem unguard {guard : Engine (Track Path) → Playlists.Action (Track Path) → Prop}
    {engine later : Engine (Track Path)} (run : Runs.Moves Engine.step guard engine later) :
    Runs.Moves Engine.step Runs.unguarded engine later :=
  run.mono fun _ _ _ => trivial

theorem moves_handle (host : Host Path) (worker : Worker Path) (answers : Answers)
    (command : Command Path) :
    Runs.Moves Engine.step Runs.unguarded worker.playlist
      (worker.handle host answers command).playlist := by
  have handled := handles host worker answers command
  generalize worker.handle host answers command = later at handled ⊢
  cases handled with
  | starts start _ => exact unguard (starts_startQueue host worker _ start)
  | @sets mode =>
      have set : worker.playlist.step (.setMode (playlistMode mode)) =
        some (worker.playlist.setMode (playlistMode mode)) := rfl
      exact .tail (.refl _) trivial set
  | clears => exact unguard (removes_clearQueue worker)
  | calm _ calms => exact unguard calms.playlist

end Worker

namespace Loop

variable {Path : Type} [DecidableEq Path]

/-- The worker's playlist engine runs as any other. -/
theorem moves_step {host : Host Path} {loop after : Loop Path} {action : Action Path}
    (stepped : loop.step host action = some after) :
    Runs.Moves Engine.step Runs.unguarded loop.worker.playlist after.worker.playlist := by
  cases steps_of_step stepped with
  | command _ _ => exact Worker.moves_handle host _ _ _
  | delivery _ _ _ =>
      simp only [Worker.walked]
      split <;> exact .refl _
  | silence _ => exact .refl _
  | poll _ => exact Worker.unguard (Worker.calms_poll host _ _).playlist
  | ending _ => exact Worker.unguard (Worker.calms_ending _ _).playlist
  | output _ => exact Worker.unguard (Worker.calms_topUp _ _).playlist
  | scan _ => exact Worker.unguard (Worker.calms_scanStep host _ _ _).playlist

end Loop

end Retrovert.Bridge
