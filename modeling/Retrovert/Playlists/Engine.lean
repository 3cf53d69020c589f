import Mathlib.Algebra.Group.Nat.Defs
import Mathlib.Data.List.Basic
import Retrovert.Library.Disk

/-!
# Playlists and the playback cursor

An engine stores playlists and plays one of them at a time. The cursor is passive:
outcomes and transport commands leave a pending advance, and the next poll resolves
it against the list as it is by then. Each operation returns the engine after it,
and what the source returns beside it.

Ids and revisions are 64-bit counters. An id is minted by counting up, which fails
at the end of the range; a revision stays there. JSON is a parameter (`Reader`, `Writer`).
-/

set_option autoImplicit false

namespace Retrovert.Playlists

def formatVersion : Nat := 2

structure PlaylistId where
  value : Nat
deriving DecidableEq, Repr

structure ItemId where
  value : Nat
deriving DecidableEq, Repr

/-- Caller-owned fields accepted when an item is appended. -/
structure ItemSpec (P : Type) where
  identity : String
  subsong : UInt32
  title : String
  artist : String
  durationMs : UInt32
  payload : P

/-- One stored playlist item with an engine-minted stable id. -/
structure Item (P : Type) extends ItemSpec P where
  id : ItemId

/-- The next value of a counter that refuses to wrap. -/
def mint (last : Nat) : Option Nat := if last + 1 < 2 ^ 64 then some (last + 1) else none

/-- The next value of a counter that stays at its end. -/
def bump (revision : Nat) : Nat := min (revision + 1) (2 ^ 64 - 1)

/-- Take the element at one index out of a list and put it back at another. -/
def relocated {α : Type} (list : List α) (source target : Nat) : List α :=
  match list[source]? with
  | none => list
  | some element => (list.eraseIdx source).insertIdx target element

structure Playlist (P : Type) where
  id : PlaylistId
  name : Option String
  items : List (Item P)
  contentRevision : Nat := 0
  structureRevision : Nat := 0
  lastSavedRevision : Nat := 0

namespace Playlist

variable {P : Type}

def isAnonymous (playlist : Playlist P) : Bool := playlist.name.isNone

def isDirty (playlist : Playlist P) : Bool :=
  playlist.contentRevision != playlist.lastSavedRevision

def item (playlist : Playlist P) (id : ItemId) : Option (Item P) :=
  playlist.items.find? (·.id == id)

def itemIndex (playlist : Playlist P) (id : ItemId) : Option Nat :=
  playlist.items.findIdx? (·.id == id)

def touchContent (playlist : Playlist P) : Playlist P :=
  { playlist with contentRevision := bump playlist.contentRevision }

def touchStructure (playlist : Playlist P) : Playlist P :=
  { playlist.touchContent with structureRevision := bump playlist.structureRevision }

/-- Where an item moves when it goes to the front, or immediately after `after`:
its index, and its index once it has been taken out. -/
def destination (playlist : Playlist P) (item : ItemId) (after : Option ItemId) :
    Option (Nat × Nat) := do
  let source ← playlist.itemIndex item
  let destination ← match after with
    | some after => (playlist.itemIndex after).map (· + 1)
    | none => some 0
  let adjusted := if source < destination then destination - 1 else destination
  if adjusted = source then none else some (source, adjusted)

end Playlist

inductive Mode where
  | sequential
  | loop
deriving DecidableEq, Repr

/-- Where the next poll looks for its item. -/
inductive Advance where
  | start
  | forward
  | backward
deriving DecidableEq, Repr

structure Cursor where
  playlist : PlaylistId
  current : Option ItemId
  position : Nat
  pending : Option Advance
  failures : Nat
  currentRemoved : Bool
deriving DecidableEq

namespace Cursor

/-- The index of the cursor's current item, when it is in the list. -/
def index {P : Type} (cursor : Cursor) (playlist : Playlist P) : Option Nat :=
  cursor.current.bind playlist.itemIndex

/-- The cursor once its current item is gone from the given index. -/
def lose (cursor : Cursor) (itemIndex : Nat) : Cursor :=
  { cursor with position := itemIndex, failures := 0, currentRemoved := true }

/-- The cursor on an item it has been given. -/
def onto (cursor : Cursor) (item : ItemId) (position : Nat) : Cursor :=
  { cursor with pending := none, current := some item, position, currentRemoved := false }

/-- A song is playing: there is a current item, and nothing is pending. -/
def isPlaying (cursor : Cursor) : Bool := cursor.current.isSome && cursor.pending.isNone

/-- Queue an advance that starts counting failures afresh. -/
def advance (cursor : Cursor) (advance : Advance) : Cursor :=
  { cursor with failures := 0, pending := some advance }

end Cursor

inductive PersistenceError where
  | json
  | unsupportedVersion (version : Nat)
  | unknownPlaylist
  | idExhausted
deriving DecidableEq

/-- A persisted playlist. -/
structure Document (P : Type) where
  name : Option String
  items : List (ItemSpec P)

/-- How a persisted playlist is read: its version alone, and all of it. -/
structure Reader (P : Type) where
  version : Bytes → Option Nat
  document : Bytes → Option (Document P)

/-- How a playlist is persisted under a version, unless a payload cannot be. -/
structure Writer (P : Type) where
  bytes : Nat → Document P → Option Bytes

/-- Ordered playlist storage and a passive playback cursor. -/
structure Engine (P : Type) where
  playlists : List (Playlist P) := []
  nextPlaylistId : Nat := 0
  nextItemId : Nat := 0
  revision : Nat := 0
  cursor : Option Cursor := none
  mode : Mode := .sequential

namespace Engine

variable {P : Type}

/-! ## Reading -/

def playlist (engine : Engine P) (id : PlaylistId) : Option (Playlist P) :=
  engine.playlists.find? (·.id == id)

def playlistIndex (engine : Engine P) (id : PlaylistId) : Option Nat :=
  engine.playlists.findIdx? (·.id == id)

def playingPlaylist (engine : Engine P) : Option PlaylistId := engine.cursor.map Cursor.playlist

def isPlaying (engine : Engine P) : Bool := engine.cursor.isSome

def currentItemId (engine : Engine P) : Option ItemId := engine.cursor.bind Cursor.current

def item (engine : Engine P) (playlist : PlaylistId) (item : ItemId) : Option (Item P) :=
  (engine.playlist playlist).bind (·.item item)

def current (engine : Engine P) : Option (Item P) := do
  let cursor ← engine.cursor
  engine.item cursor.playlist (← cursor.current)

/-- Where a forward advance leads. -/
def forwardPosition (engine : Engine P) : Option Nat := do
  let cursor ← engine.cursor
  let playlist ← engine.playlist cursor.playlist
  if playlist.items = [] then none
  else
    let next := (cursor.index playlist).elim cursor.position (· + 1)
    if next < playlist.items.length then some next
    else if engine.mode = .loop then some 0
    else none

/-- Where a backward advance leads. -/
def previousPosition (engine : Engine P) : Option Nat := do
  let cursor ← engine.cursor
  let playlist ← engine.playlist cursor.playlist
  let position := (cursor.index playlist).getD cursor.position
  if position = 0 then none else some (position - 1)

def targetPosition (engine : Engine P) (advance : Advance) : Option (Nat × Nat) := do
  let cursor ← engine.cursor
  let playlistIndex ← engine.playlistIndex cursor.playlist
  let playlist ← engine.playlists[playlistIndex]?
  let position ← match advance with
    | .start => if cursor.position < playlist.items.length then some cursor.position else none
    | .forward => engine.forwardPosition
    | .backward => engine.previousPosition
  return (playlistIndex, position)

def peekNext (engine : Engine P) : Option (Item P) := do
  let position ← engine.forwardPosition
  let cursor ← engine.cursor
  let playlist ← engine.playlist cursor.playlist
  playlist.items[position]?

/-! ## Storage -/

def touch (engine : Engine P) : Engine P := { engine with revision := bump engine.revision }

/-- Change the stored playlist with this index. -/
def modify (engine : Engine P) (index : Nat) (change : Playlist P → Playlist P) : Engine P :=
  { engine with playlists := engine.playlists.modify index change }

def removePlaylist (engine : Engine P) (id : PlaylistId) : Engine P :=
  match engine.playlistIndex id with
  | none => engine
  | some index =>
      let removed : Engine P := { engine with playlists := engine.playlists.eraseIdx index }
      removed.touch

def create (engine : Engine P) (name : Option String) : Engine P × Option PlaylistId :=
  match mint engine.nextPlaylistId with
  | none => (engine, none)
  | some value =>
      let created : Engine P := { engine with
        nextPlaylistId := value
        playlists := engine.playlists ++ [{ id := ⟨value⟩, name, items := [] }] }
      (created.touch, some ⟨value⟩)

def delete (engine : Engine P) (id : PlaylistId) : Engine P × Bool :=
  match engine.playlistIndex id with
  | none => (engine, false)
  | some index =>
      let deleted : Engine P := { engine with
        cursor := if engine.playingPlaylist = some id then none else engine.cursor
        playlists := engine.playlists.eraseIdx index }
      (deleted.touch, true)

def rename (engine : Engine P) (id : PlaylistId) (name : Option String) : Engine P × Bool :=
  match engine.playlistIndex id with
  | none => (engine, false)
  | some index =>
      if (engine.playlists[index]?).any (·.name == name) then (engine, false)
      else
        ((engine.modify index fun playlist => { playlist.touchStructure with name }).touch, true)

def touchStructurePreservingDirty (engine : Engine P) (id : PlaylistId) : Engine P × Bool :=
  match engine.playlistIndex id with
  | none => (engine, false)
  | some index =>
      ((engine.modify index fun playlist =>
          let touched := playlist.touchStructure
          if playlist.isDirty then touched
          else { touched with lastSavedRevision := touched.contentRevision }).touch, true)

def append (engine : Engine P) (playlist : PlaylistId) (spec : ItemSpec P) :
    Engine P × Option ItemId :=
  match engine.playlistIndex playlist, mint engine.nextItemId with
  | some index, some value =>
      let minted : Engine P := { engine with nextItemId := value }
      ((minted.modify index fun playlist =>
          { playlist.touchContent with
            items := playlist.items ++ [⟨spec, ⟨value⟩⟩] }).touch,
        some ⟨value⟩)
  | _, _ => (engine, none)

/-- Where an item stands: the index of its playlist, and its own. -/
def locate (engine : Engine P) (playlist : PlaylistId) (item : ItemId) : Option (Nat × Nat) := do
  let playlistIndex ← engine.playlistIndex playlist
  let stored ← engine.playlists[playlistIndex]?
  let itemIndex ← stored.itemIndex item
  return (playlistIndex, itemIndex)

def editItem (engine : Engine P) (playlist : PlaylistId) (item : ItemId)
    (edit : Item P → Item P) : Engine P × Bool :=
  match engine.locate playlist item with
  | none => (engine, false)
  | some (playlistIndex, itemIndex) =>
      ((engine.modify playlistIndex fun playlist =>
          { playlist.touchStructure with
            items := playlist.items.modify itemIndex edit }).touch, true)

def removeItem (engine : Engine P) (playlist : PlaylistId) (item : ItemId) : Engine P × Bool :=
  match engine.locate playlist item with
  | none => (engine, false)
  | some (playlistIndex, itemIndex) =>
      let lost : Engine P := { engine with
        cursor := engine.cursor.map fun cursor =>
          if cursor.playlist = playlist ∧ cursor.current = some item then cursor.lose itemIndex
          else cursor }
      ((lost.modify playlistIndex fun playlist =>
          { playlist.touchStructure with
            items := playlist.items.eraseIdx itemIndex }).touch, true)

/-- Moves `item` to the front, or immediately after `after`. -/
def moveItem (engine : Engine P) (playlist : PlaylistId) (item : ItemId)
    (after : Option ItemId) : Engine P × Bool :=
  if after = some item then (engine, false)
  else
    match engine.playlistIndex playlist with
    | none => (engine, false)
    | some playlistIndex =>
        match (engine.playlists[playlistIndex]?).bind (Playlist.destination · item after) with
        | none => (engine, false)
        | some (source, adjusted) =>
            ((engine.modify playlistIndex fun playlist =>
                { playlist.touchStructure with
                  items := relocated playlist.items source adjusted }).touch, true)

/-- Records that the storage write for the contents at `revision` succeeded. -/
def markRevisionSaved (engine : Engine P) (id : PlaylistId) (revision : Nat) : Engine P × Bool :=
  match engine.playlistIndex id with
  | none => (engine, false)
  | some index =>
      if (engine.playlists[index]?).any (·.contentRevision < revision) then (engine, false)
      else
        (engine.modify index fun playlist =>
          { playlist with lastSavedRevision := max playlist.lastSavedRevision revision }, true)

def markSaved (engine : Engine P) (id : PlaylistId) : Engine P × Bool :=
  match engine.playlist id with
  | none => (engine, false)
  | some playlist => engine.markRevisionSaved id playlist.contentRevision

/-- Serializes a playlist using the current persistence format. -/
def toBytes (writer : Writer P) (engine : Engine P) (id : PlaylistId) :
    Except PersistenceError Bytes :=
  match engine.playlist id with
  | none => .error .unknownPlaylist
  | some playlist =>
      -- The ids of the items are not serialized.
      match writer.bytes formatVersion
          { name := playlist.name, items := playlist.items.map Item.toItemSpec } with
      | none => .error .json
      | some bytes => .ok bytes

/-- Items with the ids that follow `last`. -/
def numbered (last : Nat) : List (ItemSpec P) → List (Item P)
  | [] => []
  | spec :: rest => ⟨spec, ⟨last + 1⟩⟩ :: numbered (last + 1) rest

/-- Loads a playlist from the current persistence format. -/
def fromBytes (reader : Reader P) (engine : Engine P) (bytes : Bytes) :
    Engine P × Except PersistenceError PlaylistId :=
  match reader.version bytes with
  | none => (engine, .error .json)
  | some version =>
      if version ≠ formatVersion then (engine, .error (.unsupportedVersion version))
      else
        match reader.document bytes with
        | none => (engine, .error .json)
        | some document =>
            match mint engine.nextPlaylistId with
            | none => (engine, .error .idExhausted)
            | some value =>
                if engine.nextItemId + document.items.length < 2 ^ 64 then
                  let loaded : Engine P := { engine with
                    nextPlaylistId := value
                    nextItemId := engine.nextItemId + document.items.length
                    playlists := engine.playlists ++
                      [{ id := ⟨value⟩, name := document.name
                         items := numbered engine.nextItemId document.items }] }
                  (loaded.touch, .ok ⟨value⟩)
                else (engine, .error .idExhausted)

/-! ## Playback -/

/-- Playback ends, and an anonymous playlist with it. -/
def stop (engine : Engine P) : Engine P :=
  match engine.cursor with
  | none => engine
  | some cursor =>
      let stopped : Engine P := { engine with cursor := none }
      if (stopped.playlist cursor.playlist).any (·.isAnonymous) then
        stopped.removePlaylist cursor.playlist
      else stopped

def start (engine : Engine P) (playlist : PlaylistId) (source : Option ItemId) :
    Engine P × Bool :=
  let stopped := engine.stop
  match stopped.playlist playlist with
  | none => (stopped, false)
  | some stored =>
      if stored.items = [] then (stopped, false)
      else
        match source.elim (some 0) stored.itemIndex with
        | none => (stopped, false)
        | some position =>
            ({ stopped with
                mode := .sequential
                cursor := some
                  { playlist, current := none, position, pending := some .start
                    failures := 0, currentRemoved := false } }, true)

def setMode (engine : Engine P) (mode : Mode) : Engine P := { engine with mode }

/-- Pulls the item queued by `start`, transport, or a playback outcome. -/
def poll (engine : Engine P) : Engine P × Option (Item P) :=
  match engine.cursor.bind fun cursor => cursor.pending.map (cursor, ·) with
  | none => (engine, none)
  | some (cursor, advance) =>
      match engine.targetPosition advance with
      | none => (engine.stop, none)
      | some (playlistIndex, position) =>
          match (engine.playlists[playlistIndex]?).bind (·.items[position]?) with
          -- Out of bounds, where the source panics.
          | none => (engine, none)
          | some item =>
              ({ engine with cursor := some (cursor.onto item.id position) }, some item)

def onFinished (engine : Engine P) : Engine P :=
  { engine with
    cursor := engine.cursor.map fun cursor =>
      if cursor.isPlaying then cursor.advance .forward else cursor }

def onFailed (engine : Engine P) : Engine P :=
  match engine.cursor with
  | none => engine
  | some cursor =>
      if !cursor.isPlaying then engine
      else if cursor.currentRemoved then
        { engine with cursor := some (cursor.advance .forward) }
      else
        -- This saturates in the source, far above the length of any list.
        let failures := cursor.failures + 1
        let itemCount := (engine.playlist cursor.playlist).elim 0 fun stored => stored.items.length
        if engine.mode = .loop ∧ itemCount ≤ failures then engine.stop
        else { engine with cursor := some { cursor with failures, pending := some .forward } }

def next (engine : Engine P) : Engine P := engine.onFinished

def previous (engine : Engine P) : Engine P :=
  if engine.previousPosition.isNone then engine
  else
    { engine with
      cursor := engine.cursor.map fun cursor =>
        if cursor.pending.isNone then cursor.advance .backward else cursor }

end Engine

end Retrovert.Playlists
