import Retrovert.Playlists.Engine

/-!
# The audio worker of the shell

One thread owns the decoder session, the playlist engine and the library. A pass of its
loop handles at most one command, mounts what the playlist yields, ends a song that has
finished, decodes, and describes one file of the library. What decoders and files answer
is an argument of the handler that asks.

Audio, its gain and its visualization are left out, and so are the documents published
from the state here.
-/

set_option autoImplicit false

namespace Retrovert.Bridge

open Playlists

/-- What happens when a song ends. -/
inductive LoopMode where
  /-- The queue plays through once. -/
  | off
  /-- The song restarts. -/
  | one
  /-- The queue starts over. -/
  | all
deriving DecidableEq, Repr

def playlistMode : LoopMode → Mode
  | .all => .loop
  | .off | .one => .sequential

/-- Playback as the UI is told of it. -/
inductive Status where
  | idle
  | playing
  | finished
  | error
  | paused
deriving DecidableEq, Repr

/-- The state of a decoder session. -/
inductive PlaybackStatus where
  | idle
  | loading
  | playing
  | paused
  | error
  | finished
deriving DecidableEq, Repr

/-- A queued song: its file and, when it came from the library, its row. -/
structure Track (Path : Type) where
  path : Path
  row : Option UInt32
deriving DecidableEq

/-- What is made of a decoder's metadata for a row. -/
structure Description where
  title : String
  composer : String
  durationMs : UInt32

/-- One row of the library. -/
structure Entry (Path : Type) extends Description where
  id : UInt32
  path : Path
  format : String

/-- The library while and after it is described. -/
structure Library (Path : Type) where
  root : Path
  pending : List Path := []
  entries : List (Entry Path) := []

/-- The song currently mounted, and the queue item it was mounted from. The worker itself
does not keep the item. -/
structure Playing (Path : Type) where
  track : Track Path
  item : ItemId
  subsong : UInt32
  subsongs : UInt32

/-- What the worker publishes of its control state. -/
structure Front where
  status : Status := .idle
  error : String := ""
  loopMode : LoopMode := .off

/-- Paths as the host sees them, and the extensions that some decoder handles. -/
structure Host (Path : Type) where
  text : Path → String
  extension : Path → String
  prefixOf : Path → String
  handles : String → Bool

structure Worker (Path : Type) where
  playlist : Engine (Track Path) := {}
  playing : Option (Playing Path) := none
  session : Option PlaybackStatus := none
  library : Library Path
  loopMode : LoopMode := .off
  front : Front := {}

/-- How a file is mounted: the decoders refuse it, or the session has no visualization
layout, or it plays and has so many subsongs. -/
inductive Mounting where
  | refused (error : String)
  | bare
  | ready (subsongs : UInt32)

/-- What decoding for a pass of the loop comes to: nothing is owed, or samples, the last
of them or not, or an error. -/
inductive Rendering where
  | nothing
  | samples (finished : Bool)
  | failed (error : String)

/-- What the UI asks of the worker. -/
inductive Command (Path : Type) where
  | «open» (path : Path)
  | playRows (rows : List UInt32) (start : Nat)
  | stop
  | togglePause
  | seek (ms : Int)
  | next
  | previous
  | setSubsong (index : UInt32)
  | setLoop (mode : LoopMode)
  | setVolume
  | clearQueue
  | scanLibrary (root : Path)
  | walked (root : Path) (files : List Path)

/-- What is answered to a command: by the decoders, and whether a walk gets its thread. -/
structure Answers where
  reached : Option Int := none
  positionMs : Int := 0
  mounting : Mounting := .bare
  spawned : Bool := true

/-- The extension, or the prefix, that some decoder claims a path by; empty when none does. -/
def Host.claimed {Path : Type} (host : Host Path) (path : Path) : String :=
  if host.extension path ≠ "" ∧ host.handles (host.extension path) then host.extension path
  else if host.prefixOf path ≠ "" ∧ host.handles (host.prefixOf path) then host.prefixOf path
  else ""

/-- "Previous" inside the first seconds of a song goes to the song before. -/
def restartAfterMs : Int := 3000

namespace Worker

variable {Path : Type}

/-! ## The session -/

/-- The session after a seek, unless nothing is mounted or the decoder refuses. -/
def backendSeek (worker : Worker Path) (reached : Option Int) : Option (Worker Path) :=
  match worker.session, reached with
  | some status, some _ =>
      some { worker with session := some (if status = .finished then .playing else status) }
  | _, _ => none

/-- Drops the mounted song; the front's status is the caller's to set. -/
def unmount (worker : Worker Path) : Worker Path :=
  { worker with session := none, playing := none }

def fail (worker : Worker Path) (message : String) : Worker Path :=
  { worker.unmount with
    front := { worker.front with status := .error, error := message }
    playlist := worker.playlist.onFailed }

/-- Mounts a track at a subsong, or records the failure. -/
def mount (host : Host Path) (worker : Worker Path) (item : ItemId) (track : Track Path)
    (subsong : UInt32) : Mounting → Worker Path
  | .refused error =>
      { worker with session := none, playing := none }.fail
        ("could not play " ++ host.text track.path ++ ": " ++ error)
  | .bare =>
      { worker with session := some .playing, playing := none }.fail
        ("could not play " ++ host.text track.path ++
          ": the decoder published no visualization layout")
  | .ready subsongs =>
      { worker with
        session := some .playing
        playing := some { track, item, subsong, subsongs }
        front := { worker.front with status := .playing, error := "" } }

/-! ## The queue -/

/-- The queue item of a track, described by its row if that is in the library. -/
def spec (host : Host Path) (library : Library Path) (track : Track Path) :
    ItemSpec (Track Path) :=
  match track.row.bind fun row => library.entries[row.toNat]? with
  | some entry =>
      { identity := host.text track.path, subsong := 0, title := entry.title
        artist := entry.composer, durationMs := entry.durationMs, payload := track }
  | none =>
      { identity := host.text track.path, subsong := 0, title := "", artist := ""
        durationMs := 0, payload := track }

/-- Append tracks, from the given index on, and note the item at the start index. -/
def enqueue (host : Host Path) (library : Library Path) (id : PlaylistId) (start : Nat)
    (engine : Engine (Track Path)) (startItem : Option ItemId) (index : Nat) :
    List (Track Path) → Engine (Track Path) × Option ItemId
  | [] => (engine, startItem)
  | track :: rest =>
      let (appended, item) := engine.append id (spec host library track)
      enqueue host library id start appended (if index = start then item else startItem)
        (index + 1) rest

/-- Replaces the queue with tracks and starts at one of them. -/
def startQueue (host : Host Path) (worker : Worker Path) (tracks : List (Track Path))
    (start : Nat) : Worker Path :=
  match worker.playlist.stop.create none with
  | (stopped, none) => { worker with playlist := stopped }
  | (created, some id) =>
      let (filled, startItem) := enqueue host worker.library id start created none 0 tracks
      let mode := filled.setMode (playlistMode worker.loopMode)
      { worker with playlist := (mode.start id startItem).1 }

def playRows (host : Host Path) (worker : Worker Path) (rows : List UInt32) (start : Nat) :
    Worker Path :=
  let tracks := (rows.filterMap fun row => worker.library.entries[row.toNat]?).map
    fun entry => { path := entry.path, row := some entry.id }
  if tracks = [] then worker
  else worker.startQueue host tracks (min start (tracks.length - 1))

/-- Remove the listed items that come after the current one. -/
def removePast (playlist : PlaylistId) (current : Option ItemId) (engine : Engine (Track Path))
    (pastCurrent : Bool) : List ItemId → Engine (Track Path)
  | [] => engine
  | id :: rest =>
      removePast playlist current (if pastCurrent then (engine.removeItem playlist id).1 else engine)
        (pastCurrent || some id == current) rest

def clearQueue (worker : Worker Path) : Worker Path :=
  match worker.playlist.playingPlaylist with
  | none => worker
  | some playlist =>
      let current := worker.playlist.currentItemId
      let ids := (worker.playlist.playlist playlist).elim [] fun stored => stored.items.map Item.id
      { worker with
        playlist := removePast playlist current worker.playlist current.isNone ids }

def hasPrevious (worker : Worker Path) : Bool :=
  match worker.playlist.playingPlaylist, worker.playlist.currentItemId with
  | some playlist, some current =>
      ((worker.playlist.playlist playlist).bind (·.itemIndex current)).any (0 < ·)
  | _, _ => false

/-! ## Commands -/

def togglePause (worker : Worker Path) : Worker Path :=
  match worker.session with
  | some .playing =>
      { worker with
        session := some .paused
        front := { worker.front with status := .paused } }
  | some .paused =>
      { worker with
        session := some .playing
        front := { worker.front with status := .playing } }
  | _ => worker

def seek (worker : Worker Path) (reached : Option Int) : Worker Path :=
  match worker.backendSeek reached with
  | none => worker
  | some sought =>
      { sought with
        front := { sought.front with
          status := if sought.front.status = .finished then .playing else sought.front.status } }

def previous (worker : Worker Path) (positionMs : Int) (reached : Option Int) : Worker Path :=
  let position := if worker.session.isSome then positionMs else 0
  if restartAfterMs < position ∨ !worker.hasPrevious then (worker.backendSeek reached).getD worker
  else { worker with playlist := worker.playlist.previous }

def setSubsong (host : Host Path) (worker : Worker Path) (index : UInt32) (mounting : Mounting) :
    Worker Path :=
  match worker.playing with
  | none => worker
  | some playing =>
      if index < playing.subsongs ∧ index ≠ playing.subsong then
        worker.mount host playing.item playing.track index mounting
      else worker

/-- Starts over with a root. The walk of it runs on another thread. -/
def scanLibrary (worker : Worker Path) (root : Path) : Worker Path :=
  { worker with library := { root, pending := [], entries := [] } }

/-! ## The rest of a pass -/

/-- Mounts what the playlist yields. -/
def poll (host : Host Path) (worker : Worker Path) (mounting : Mounting) : Worker Path :=
  match worker.playlist.poll with
  | (polled, none) => { worker with playlist := polled }
  | (polled, some item) =>
      { worker with playlist := polled }.mount host item.id item.payload 0 mounting

/-- The decoder reached the end: restart, advance, or come to rest. -/
def songEnded (worker : Worker Path) (reached : Option Int) : Worker Path :=
  match if worker.loopMode = .one then worker.backendSeek reached else none with
  | some restarted => restarted
  | none =>
      let finished := { worker with playlist := worker.playlist.onFinished }
      if finished.playlist.peekNext.isSome then finished
      else
        { { finished with playlist := finished.playlist.stop }.unmount with
          front := { finished.front with status := .finished } }

def ending (worker : Worker Path) (reached : Option Int) : Worker Path :=
  if worker.session = some .finished then worker.songEnded reached else worker

/-- Decodes what is owed. Only a session that plays has anything to decode. -/
def topUp (worker : Worker Path) (rendering : Rendering) : Worker Path :=
  if worker.session = some .playing then
    match rendering with
    | .nothing => worker
    | .samples finished =>
        if finished then { worker with session := some .finished } else worker
    | .failed error =>
        { worker.unmount with
          front := { worker.front with status := .error, error := "render failed: " ++ error }
          playlist := worker.playlist.onFailed }
  else worker

/-- The id of the row after so many. -/
def rowId (count : Nat) : UInt32 := if count < 2 ^ 32 then UInt32.ofNat count else 0xFFFFFFFF

/-- Describes one pending file, when the ring can afford the time. -/
def scanStep (host : Host Path) (worker : Worker Path) (roomy : Bool)
    (described : Option Description) : Worker Path :=
  match worker.library.pending with
  | [] => worker
  | path :: rest =>
      if worker.playing.isSome && !roomy then worker
      else
        { worker with
          library := { worker.library with
            pending := rest
            entries := worker.library.entries ++ described.toList.map fun described =>
              { toDescription := described, id := rowId worker.library.entries.length, path
                format := host.claimed path } } }

/-! ## The handler -/

variable [DecidableEq Path]

/-- The walk of a root arrives. It counts if the root is the library's. -/
def walked (host : Host Path) (worker : Worker Path) (root : Path) (files : List Path) :
    Worker Path :=
  if root ≠ worker.library.root then worker
  else
    { worker with
      library := { worker.library with
        pending := files.filter fun path => host.claimed path ≠ "" } }

def handle (host : Host Path) (worker : Worker Path) (answers : Answers) :
    Command Path → Worker Path
  | .open path =>
      let row := (worker.library.entries.find? (·.path == path)).map Entry.id
      worker.startQueue host [{ path, row }] 0
  | .playRows rows start => worker.playRows host rows start
  | .stop =>
      let stopped := { worker with playlist := worker.playlist.stop }.unmount
      { stopped with front := { stopped.front with status := .idle } }
  | .togglePause => worker.togglePause
  | .seek _ => worker.seek answers.reached
  | .next => { worker with playlist := worker.playlist.next }
  | .previous => worker.previous answers.positionMs answers.reached
  | .setSubsong index => worker.setSubsong host index answers.mounting
  | .setLoop mode =>
      { worker with
        loopMode := mode
        playlist := worker.playlist.setMode (playlistMode mode)
        front := { worker.front with loopMode := mode } }
  | .setVolume => worker
  | .clearQueue => worker.clearQueue
  | .scanLibrary root => worker.scanLibrary root
  | .walked root files => worker.walked host root files

end Worker

end Retrovert.Bridge
