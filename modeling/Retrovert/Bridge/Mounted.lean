import Retrovert.Bridge.Modes
import Retrovert.Playlists.Persisting

/-!
# The song that is mounted and the cursor

The worker mounts what the playlist yields and from then on keeps the song, the playlist
its cursor. A song that ends takes its queue along. A queue that ends does not take its
song along: a poll that finds nothing to go on to stops playback, and tells the worker
no more than one that finds nothing to do.
-/

set_option autoImplicit false

namespace Retrovert.Bridge

open Playlists

/-! ## The cursor's item -/

section Engine

variable {P : Type}

theorem currentItemId_onFinished (engine : Engine P) :
    engine.onFinished.currentItemId = engine.currentItemId := by
  unfold Engine.currentItemId Engine.onFinished
  cases engine.cursor with
  | none => rfl
  | some cursor =>
      simp only [Option.map_some, Option.bind_some]
      split <;> rfl

theorem currentItemId_previous (engine : Engine P) :
    engine.previous.currentItemId = engine.currentItemId := by
  unfold Engine.currentItemId Engine.previous
  split
  · rfl
  · cases engine.cursor with
    | none => rfl
    | some cursor =>
        simp only [Option.map_some, Option.bind_some]
        split <;> rfl

theorem currentItemId_removeItem (engine : Engine P) (id : PlaylistId) (item : ItemId) :
    (engine.removeItem id item).1.currentItemId = engine.currentItemId := by
  rcases engine.removeItem_eq id item with ⟨same, -⟩ | ⟨_, _, -, -, -, cursor, -⟩
  · rw [same]
  · unfold Engine.currentItemId
    rw [cursor]
    cases engine.cursor with
    | none => rfl
    | some cursor =>
        simp only [Option.map_some, Option.bind_some]
        split <;> rfl

/-- A start leads to a place in the list. -/
theorem start_inside {engine : Engine P} {index position : Nat}
    (target : engine.targetPosition .start = some (index, position)) :
    ((engine.playlists[index]?).bind (·.items[position]?)).isSome = true := by
  simp only [Engine.targetPosition, Option.bind_eq_bind, Option.bind_eq_some_iff] at target
  obtain ⟨cursor, -, place, -, stored, there, leads⟩ := target
  split at leads
  · rename_i inside
    cases leads
    rw [there, Option.bind_some, List.getElem?_eq_getElem inside]
    rfl
  · cases leads

/-- What a poll does while an advance is pending: playback stops, or goes to an item, or
stays on its item. -/
theorem poll_cases {engine : Engine P} {cursor : Cursor} {advance : Advance}
    (playing : engine.cursor = some cursor) (pending : cursor.pending = some advance) :
    engine.targetPosition advance = none ∧ engine.poll = (engine.stop, none) ∨
      (∃ item later, engine.poll = (later, some item) ∧ later.currentItemId = some item.id) ∨
      advance ≠ .start ∧ engine.poll = (engine, none) := by
  unfold Engine.poll
  rw [playing, Option.bind_some, pending, Option.map_some]
  simp only
  cases target : engine.targetPosition advance with
  | none => exact .inl ⟨rfl, rfl⟩
  | some place =>
      obtain ⟨index, position⟩ := place
      simp only
      cases found : (engine.playlists[index]?).bind (·.items[position]?) with
      | some item => exact .inr (.inl ⟨item, _, rfl, rfl⟩)
      | none =>
          refine .inr (.inr ⟨?_, rfl⟩)
          rintro rfl
          have inside := start_inside target
          rw [found] at inside
          cases inside

theorem poll_of_none {engine : Engine P}
    (quiet : (engine.cursor.bind Cursor.pending) = none) : engine.poll = (engine, none) := by
  unfold Engine.poll
  cases playing : engine.cursor with
  | none => rfl
  | some cursor =>
      rw [playing, Option.bind_some] at quiet
      simp [quiet]

/-! ## A playlist that is started -/

/-- A playlist that is about to play its first item. -/
def Begins (engine : Engine P) : Prop :=
  ∃ cursor, engine.cursor = some cursor ∧ cursor.pending = some .start

theorem start_cases (engine : Engine P) (id : PlaylistId) (source : Option ItemId) :
    (engine.start id source).1.cursor = none ∨ Begins (engine.start id source).1 := by
  unfold Engine.start
  simp only
  split
  · exact .inl engine.stop_cursor
  · split
    · exact .inl engine.stop_cursor
    · split
      · exact .inl engine.stop_cursor
      · exact .inr ⟨_, rfl, rfl⟩

/-- A list that holds something begins, from an item that it holds or from its front. -/
theorem start_begins {engine : Engine P} {stored : Playlist P} {source : Option ItemId}
    (silent : engine.cursor = none) (found : engine.playlist stored.id = some stored)
    (filled : stored.items ≠ [])
    (listed : ∀ id, source = some id → (stored.itemIndex id).isSome = true) :
    Begins (engine.start stored.id source).1 := by
  have stopped : engine.stop = engine := by rw [Engine.stop, silent]
  unfold Engine.start
  rw [stopped]
  simp only [found, filled, if_false]
  cases source with
  | none => exact ⟨_, rfl, rfl⟩
  | some id =>
      obtain ⟨position, there⟩ := Option.isSome_iff_exists.mp (listed id rfl)
      simp only [Option.elim_some, there]
      exact ⟨_, rfl, rfl⟩

end Engine

namespace Worker

variable {Path : Type}

/-- Appending leaves the tracks in the last playlist, and what is noted to start from is
one of them. -/
theorem enqueue_last (host : Host Path) (library : Library Path) (start : Nat)
    (tracks : List (Track Path)) {engine : Engine (Track Path)}
    {before : List (Playlist (Track Path))} {last : Playlist (Track Path)}
    (playlists : engine.playlists = before ++ [last])
    (fresh : ∀ stored ∈ before, stored.id ≠ last.id) {startItem : Option ItemId}
    (listed : ∀ id, startItem = some id → (last.itemIndex id).isSome = true) (index : Nat)
    (room : last.items ≠ [] ∨ tracks ≠ [] ∧ (mint engine.nextItemId).isSome = true) :
    ∃ filled, filled.id = last.id ∧ filled.items ≠ [] ∧
      (enqueue host library last.id start engine startItem index tracks).1.playlists =
        before ++ [filled] ∧
      (enqueue host library last.id start engine startItem index tracks).1.cursor =
        engine.cursor ∧
      ∀ id, (enqueue host library last.id start engine startItem index tracks).2 = some id →
        (filled.itemIndex id).isSome = true := by
  induction tracks generalizing engine last startItem index with
  | nil =>
      rcases room with some | ⟨none, -⟩
      · exact ⟨last, rfl, some, playlists, rfl, listed⟩
      · exact absurd rfl none
  | cons track rest ih =>
      rw [enqueue]
      cases minted : mint engine.nextItemId with
      | none =>
          -- No id is left. What is in the list already stays.
          have appended : engine.append last.id (spec host library track) = (engine, none) := by
            unfold Engine.append
            rw [Engine.playlistIndex_last playlists fresh, minted]
          rw [appended]
          rcases room with some | ⟨-, left⟩
          · refine ih playlists fresh (fun id noted => ?_) (index + 1) (.inl some)
            split at noted
            · cases noted
            · exact listed id noted
          · rw [minted] at left
            cases left
      | some value =>
          rw [Engine.append_last playlists fresh minted]
          let grown : Playlist (Track Path) := { last.touchContent with
            items := last.items ++ [⟨spec host library track, ⟨value⟩⟩] }
          let next : Engine (Track Path) := { engine with
            nextItemId := value
            revision := bump engine.revision
            playlists := before ++ [grown] }
          have there : next.playlists = before ++ [grown] := rfl
          have still : ∀ stored ∈ before, stored.id ≠ grown.id := fresh
          have inside : ∀ id, (grown.itemIndex id).isSome = true ↔
              (last.itemIndex id).isSome = true ∨ ⟨value⟩ = id := by
            intro id
            rw [Playlist.itemIndex, Playlist.itemIndex, List.findIdx?_isSome, List.findIdx?_isSome]
            simp [grown]
          refine ih there still (fun id noted => ?_) (index + 1)
            (.inl (List.append_ne_nil_of_right_ne_nil _ (List.cons_ne_nil _ _)))
          split at noted
          · exact (inside id).mpr (.inr (Option.some.inj noted))
          · exact (inside id).mpr (.inl (listed id noted))

theorem stop_counters {P : Type} (engine : Engine P) :
    engine.stop.nextPlaylistId = engine.nextPlaylistId ∧
      engine.stop.nextItemId = engine.nextItemId := by
  unfold Engine.stop
  split
  · exact ⟨rfl, rfl⟩
  · simp only
    split
    · unfold Engine.removePlaylist
      split <;> exact ⟨rfl, rfl⟩
    · exact ⟨rfl, rfl⟩

/-- The ids that starting a queue needs. -/
def HasIds (worker : Worker Path) : Prop :=
  (mint worker.playlist.nextPlaylistId).isSome = true ∧
    (mint worker.playlist.nextItemId).isSome = true

theorem startQueue_cases (host : Host Path) (worker : Worker Path) (tracks : List (Track Path))
    (start : Nat) :
    (worker.startQueue host tracks start).playlist.cursor = none ∨
      Begins (worker.startQueue host tracks start).playlist := by
  unfold startQueue
  split
  · rename_i stopped created
    unfold Engine.create at created
    split at created
    · cases created
      exact .inl worker.playlist.stop_cursor
    · cases created
  · exact start_cases _ _ _

/-- While ids last, a queue of tracks begins to play. -/
theorem startQueue_begins (host : Host Path) {worker : Worker Path}
    (filed : worker.playlist.Filed) (ids : worker.HasIds) {tracks : List (Track Path)}
    (asked : tracks ≠ []) (start : Nat) :
    Begins (worker.startQueue host tracks start).playlist := by
  obtain ⟨nextPlaylist, nextItem⟩ := stop_counters worker.playlist
  have stopped : worker.playlist.stop.Filed := (Engine.effect_apply worker.playlist .stop).filed filed
  obtain ⟨value, minted⟩ := Option.isSome_iff_exists.mp ids.1
  let last : Playlist (Track Path) := { id := ⟨value⟩, name := none, items := [] }
  have created : worker.playlist.stop.create none =
      ({ worker.playlist.stop with
          nextPlaylistId := value
          playlists := worker.playlist.stop.playlists ++ [last]
          revision := bump worker.playlist.stop.revision }, some last.id) := by
    unfold Engine.create
    rw [nextPlaylist, minted]
    rfl
  have fresh : ∀ stored ∈ worker.playlist.stop.playlists, stored.id ≠ last.id := by
    intro stored member same
    have bound := stopped.bound stored member
    rw [same, nextPlaylist] at bound
    obtain rfl := Engine.mint_eq_some minted
    exact Nat.not_succ_le_self _ bound
  unfold startQueue
  rw [created]
  simp only
  generalize made : ({ worker.playlist.stop with
    nextPlaylistId := value
    playlists := worker.playlist.stop.playlists ++ [last]
    revision := bump worker.playlist.stop.revision } : Engine (Track Path)) = engine
  have playlists : engine.playlists = worker.playlist.stop.playlists ++ [last] := by rw [← made]
  have silent : engine.cursor = none := by
    rw [← made]
    exact worker.playlist.stop_cursor
  have left : (mint engine.nextItemId).isSome = true := by
    rw [← made]
    exact (congrArg (fun next => (mint next).isSome) nextItem).trans ids.2
  have unnoted : ∀ id, none = some id → (last.itemIndex id).isSome = true :=
    fun _ noted => by cases noted
  obtain ⟨filled, named, holds, stored, cursor, listed⟩ := enqueue_last host worker.library start
    tracks playlists fresh unnoted 0 (.inr ⟨asked, left⟩)
  have found : (enqueue host worker.library last.id start engine none 0 tracks).1.playlist
      filled.id = some filled := by
    have only : ∀ other ∈ worker.playlist.stop.playlists, other.id ≠ filled.id := by
      rw [named]
      exact fresh
    rw [Engine.playlist_eq_bind, Engine.playlistIndex_last stored only, Option.bind_some, stored,
      List.getElem?_concat_length]
  rw [← named] at found listed cursor ⊢
  exact start_begins (cursor.trans silent) found holds listed

/-! ## The stages of a pass -/

/-- A mounted song is the cursor's item. -/
def InStep (worker : Worker Path) : Prop :=
  ∀ playing, worker.playing = some playing →
    worker.playlist.currentItemId = some playing.item

/-- A mounted song is the cursor's item, or it is over and so is its queue. -/
def InStepUntilOver (worker : Worker Path) : Prop :=
  ∀ playing, worker.playing = some playing →
    worker.playlist.currentItemId = some playing.item ∨
      worker.session = some .finished ∧ worker.playlist.cursor = none

/-- A mounted song is the cursor's item, or another queue is about to begin, or the song
is over and so is its queue. -/
def InStepUntilPolled (worker : Worker Path) : Prop :=
  ∀ playing, worker.playing = some playing →
    worker.playlist.currentItemId = some playing.item ∨ Begins worker.playlist ∨
      worker.session = some .finished ∧ worker.playlist.cursor = none

theorem InStep.untilPolled {worker : Worker Path} (inStep : worker.InStep) :
    worker.InStepUntilPolled :=
  fun playing mounted => .inl (inStep playing mounted)

theorem InStep.congr {worker later : Worker Path} (inStep : worker.InStep)
    (playing : later.playing = worker.playing)
    (current : later.playlist.currentItemId = worker.playlist.currentItemId) : later.InStep := by
  intro song mounted
  rw [current]
  exact inStep song (playing ▸ mounted)

theorem inStep_of_unmounted {worker : Worker Path} (unmounted : worker.playing = none) :
    worker.InStep := by
  intro playing mounted
  rw [unmounted] at mounted
  cases mounted

theorem mount_inStep (host : Host Path) {worker : Worker Path} {item : ItemId}
    (current : worker.playlist.currentItemId = some item) (track : Track Path)
    (subsong : UInt32) (mounting : Mounting) :
    (worker.mount host item track subsong mounting).InStep := by
  cases mounting with
  | refused _ | bare => exact inStep_of_unmounted rfl
  | ready subsongs =>
      intro playing mounted
      cases mounted
      exact current

theorem clearQueue_currentItemId (worker : Worker Path) :
    worker.clearQueue.playlist.currentItemId = worker.playlist.currentItemId :=
  Runs.Moves.invariant
    (fun engine => engine.currentItemId = worker.playlist.currentItemId)
    (fun before action after removing stepped held => by
      cases stepped
      cases action with
      | removeItem playlist item => exact (currentItemId_removeItem _ _ _).trans held
      | _ => cases removing)
    worker.removes_clearQueue rfl

theorem startQueue_inStep (host : Host Path) {worker : Worker Path}
    (filed : worker.playlist.Filed) {tracks : List (Track Path)} (asked : tracks ≠ [])
    (keepsUp : worker.playing.isSome = true →
      worker.HasIds ∨ worker.session = some .finished) (start : Nat) :
    (worker.startQueue host tracks start).InStepUntilPolled := by
  have same := startQueue_eq host worker tracks start
  intro playing mounted
  have kept : worker.playing = some playing := by rwa [same] at mounted
  have session : (worker.startQueue host tracks start).session = worker.session := by rw [same]
  rw [session]
  rcases keepsUp (by simp [kept]) with ids | finished
  · exact .inr (.inl (startQueue_begins host filed ids asked start))
  · rcases worker.startQueue_cases host tracks start with silent | begins
    · exact .inr (.inr ⟨finished, silent⟩)
    · exact .inr (.inl begins)

theorem poll_inStep (host : Host Path) {worker : Worker Path} (inStep : worker.InStepUntilPolled)
    (keepsUp : worker.playing.isSome = true → ∀ advance,
      worker.playlist.cursor.bind Cursor.pending = some advance →
        (worker.playlist.targetPosition advance).isSome = true ∨
          worker.session = some .finished) (mounting : Mounting) :
    (worker.poll host mounting).InStepUntilOver := by
  unfold poll
  cases pending : worker.playlist.cursor.bind Cursor.pending with
  | none =>
      rw [poll_of_none pending]
      intro playing mounted
      rcases inStep playing mounted with current | ⟨cursor, there, start⟩ | finished
      · exact .inl current
      · rw [there, Option.bind_some, start] at pending
        cases pending
      · exact .inr finished
  | some advance =>
      obtain ⟨cursor, there, asked⟩ := Option.bind_eq_some_iff.mp pending
      rcases poll_cases there asked with ⟨nowhere, stopped⟩ | ⟨item, later, yields, current⟩ |
        ⟨other, quiet⟩
      · rw [stopped]
        intro playing mounted
        have mounted' : worker.playing = some playing := mounted
        rcases keepsUp (by simp [mounted']) advance pending with leads | finished
        · rw [nowhere] at leads
          cases leads
        · exact .inr ⟨finished, worker.playlist.stop_cursor⟩
      · rw [yields]
        intro playing mounted
        refine .inl (mount_inStep host ?_ item.payload 0 mounting playing mounted)
        exact current
      · rw [quiet]
        intro playing mounted
        rcases inStep playing mounted with current | ⟨cursor', there', start⟩ | finished
        · exact .inl current
        · rw [there] at there'
          cases there'
          rw [asked] at start
          cases start
          exact absurd rfl other
        · exact .inr finished

theorem ending_inStep {worker : Worker Path} (inStep : worker.InStepUntilOver)
    {reached : Option Int}
    (keepsUp : worker.playing.isSome = true → worker.playlist.isPlaying = false →
      worker.loopMode = .one → reached = none) : (worker.ending reached).InStep := by
  have ended := worker.ends reached
  generalize worker.ending reached = later at ended ⊢
  cases ended with
  | unfinished goes =>
      intro playing mounted
      rcases inStep playing mounted with current | ⟨finished, -⟩
      · exact current
      · exact absurd finished goes
  | restarted mode sought =>
      intro playing mounted
      have there : worker.playing = some playing := mounted
      rcases inStep playing there with current | ⟨-, silent⟩
      · exact current
      · rw [keepsUp (by simp [there]) (by simp [Engine.isPlaying, silent]) mode] at sought
        simp [backendSeek] at sought
  | advanced more =>
      intro playing mounted
      rcases inStep playing mounted with current | ⟨-, silent⟩
      · exact (currentItemId_onFinished _).trans current
      · simp [Engine.peekNext, Engine.forwardPosition, Engine.onFinished, silent] at more
  | rested => exact inStep_of_unmounted rfl

theorem topUp_inStep {worker : Worker Path} (inStep : worker.InStep) (rendering : Rendering) :
    (worker.topUp rendering).InStep := by
  have decoded := worker.decodes rendering
  generalize worker.topUp rendering = later at decoded ⊢
  cases decoded with
  | going => exact inStep
  | finished => exact inStep.congr rfl rfl
  | failed _ => exact inStep_of_unmounted rfl

theorem scanStep_inStep (host : Host Path) {worker : Worker Path} (inStep : worker.InStep)
    (roomy : Bool) (described : Option Description) :
    (worker.scanStep host roomy described).InStep := by
  unfold scanStep
  split
  · exact inStep
  · split
    · exact inStep
    · exact inStep.congr rfl rfl

variable [DecidableEq Path]

theorem walked_inStep (host : Host Path) {worker : Worker Path} (inStep : worker.InStep)
    (root : Path) (files : List Path) : (worker.walked host root files).InStep := by
  unfold walked
  split
  · exact inStep
  · exact inStep.congr rfl rfl

theorem handle_inStep (host : Host Path) {worker : Worker Path} (filed : worker.playlist.Filed)
    (inStep : worker.InStep) (answers : Answers) {command : Command Path}
    (keepsUp : worker.playing.isSome = true → worker.requested command ≠ [] →
      worker.HasIds ∨ worker.session = some .finished) :
    (worker.handle host answers command).InStepUntilPolled := by
  cases command with
  | «open» path =>
      have asked : worker.requested (.open path) ≠ [] := List.cons_ne_nil _ _
      exact startQueue_inStep host filed asked (fun mounted => keepsUp mounted asked) 0
  | playRows rows start =>
      simp only [handle, playRows]
      split
      · exact inStep.untilPolled
      · rename_i asked
        exact startQueue_inStep host filed asked (fun mounted => keepsUp mounted asked) _
  | stop => exact (inStep_of_unmounted rfl).untilPolled
  | togglePause =>
      refine InStep.untilPolled ?_
      simp only [handle, togglePause]
      split <;> exact inStep.congr rfl rfl
  | seek ms =>
      refine InStep.untilPolled ?_
      simp only [handle, seek]
      split
      · exact inStep
      · rename_i later sought
        obtain ⟨session, rfl⟩ := backendSeek_eq sought
        exact inStep.congr rfl rfl
  | next =>
      refine InStep.untilPolled ?_
      exact inStep.congr rfl (currentItemId_onFinished _)
  | previous =>
      refine InStep.untilPolled ?_
      simp only [handle]
      rcases previous_cases worker answers.positionMs answers.reached with
        ⟨session, same⟩ | ⟨-, same⟩
      · rw [same]
        exact inStep.congr rfl rfl
      · rw [same]
        exact inStep.congr rfl (currentItemId_previous _)
  | setSubsong index =>
      refine InStep.untilPolled ?_
      simp only [handle, setSubsong]
      split
      · exact inStep
      · rename_i playing mounted
        split
        · exact mount_inStep host (inStep playing mounted) _ _ _
        · exact inStep
  | clearQueue =>
      have kept : worker.clearQueue.playing = worker.playing := by rw [clearQueue_eq]
      exact (inStep.congr kept worker.clearQueue_currentItemId).untilPolled
  | walked root files => exact (walked_inStep host inStep root files).untilPolled
  | setLoop mode | setVolume | scanLibrary root => exact (inStep.congr rfl rfl).untilPolled

end Worker

namespace Loop

variable {Path : Type} [DecidableEq Path]

/-- No queue ends under a song that goes on. A queue that is started has its ids, and an
advance leads somewhere, unless the song is finished; and a song that is finished is not started
anew when its queue has ended. -/
def KeepsQueue (loop : Loop Path) : Action Path → Prop
  | .command command _ =>
      loop.worker.playing.isSome = true → loop.worker.requested command ≠ [] →
        loop.worker.HasIds ∨ loop.worker.session = some .finished
  | .poll _ =>
      loop.worker.playing.isSome = true →
        (loop.worker.playlist.cursor.bind Cursor.pending).all
            (fun advance => (loop.worker.playlist.targetPosition advance).isSome) = true ∨
          loop.worker.session = some .finished
  | .ending reached =>
      loop.worker.playing.isSome = true → loop.worker.playlist.isPlaying = false →
        loop.worker.loopMode = .one → reached = none
  | _ => True

instance (loop : Loop Path) : (action : Action Path) → Decidable (loop.KeepsQueue action)
  | .command command _ =>
      inferInstanceAs (Decidable
        (loop.worker.playing.isSome = true → loop.worker.requested command ≠ [] →
          (_ ∧ _) ∨ loop.worker.session = some .finished))
  | .poll _ =>
      inferInstanceAs (Decidable
        (loop.worker.playing.isSome = true → _ ∨ loop.worker.session = some .finished))
  | .ending reached =>
      inferInstanceAs (Decidable
        (loop.worker.playing.isSome = true → loop.worker.playlist.isPlaying = false →
          loop.worker.loopMode = .one → reached = none))
  | .delivery _ _ | .silence | .output _ | .scan _ _ => inferInstanceAs (Decidable True)

/-- What holds of a mounted song at each stage. -/
def Follows (loop : Loop Path) : Prop :=
  match loop.stage with
  | .poll => loop.worker.InStepUntilPolled
  | .ending => loop.worker.InStepUntilOver
  | .command | .output | .scan => loop.worker.InStep

theorem follows_step {host : Host Path} {loop after : Loop Path} {action : Action Path}
    (keeps : loop.KeepsQueue action) (stepped : loop.step host action = some after)
    (filed : loop.worker.playlist.Filed) (follows : loop.Follows) : after.Follows := by
  cases steps_of_step stepped with
  | command stage _ =>
      rw [Follows, stage] at follows
      exact Worker.handle_inStep host filed follows _ keeps
  | @delivery _ files root stage _ _ =>
      rw [Follows, stage] at follows
      exact (Worker.walked_inStep host follows root files).untilPolled
  | silence stage =>
      rw [Follows, stage] at follows
      exact follows.untilPolled
  | poll stage =>
      rw [Follows, stage] at follows
      refine Worker.poll_inStep host follows (fun mounted advance pending => ?_) _
      exact (keeps mounted).imp_left fun leads => by simpa [pending] using leads
  | ending stage =>
      rw [Follows, stage] at follows
      exact Worker.ending_inStep follows keeps
  | output stage =>
      rw [Follows, stage] at follows
      exact Worker.topUp_inStep follows _
  | scan stage =>
      rw [Follows, stage] at follows
      exact Worker.scanStep_inStep host follows _ _

/-- **The mounted song is the cursor's item** at the end of every pass, in every run in
which no queue ends under a song that goes on. -/
theorem mounted_song_is_current (host : Host Path) (root : Path) {loop : Loop Path}
    (run : Reaches host KeepsQueue root loop) (rests : loop.stage = .command)
    (playing : Playing Path) (mounted : loop.worker.playing = some playing) :
    loop.worker.playlist.currentItemId = some playing.item := by
  have held := Runs.Moves.invariant
    (fun loop => loop.worker.playlist.Filed ∧ loop.Follows)
    (fun before action after keeps stepped held =>
      ⟨Runs.Moves.invariant Engine.Filed
          (fun _ _ _ _ stepped filed => by
            cases stepped
            exact (Engine.effect_apply _ _).filed filed)
          (moves_step stepped) held.1,
        follows_step keeps stepped held.1 held.2⟩)
    run ⟨⟨.nil, fun _ member => (nomatch member)⟩, Worker.inStep_of_unmounted rfl⟩
  have follows := held.2
  rw [Follows, rests] at follows
  exact follows playing mounted

/-- A song is opened and another one after it. -/
theorem mounted_song_is_current_reopened : ∃ loop : Loop String, ∃ playing : Playing String,
    loop.worker.playing = some playing ∧
      loop.worker.playlist.currentItemId = some playing.item := by
  obtain ⟨loop, run, checked⟩ := Runs.Moves.of_check (step modHost) KeepsQueue (new "")
    (pass (.open "a.mod") ++ pass (.open "b.mod"))
    (fun loop => loop.stage == .command && loop.worker.playing.isSome)
    (by decide +kernel)
  obtain ⟨rests, mounted⟩ := Bool.and_eq_true_iff.mp checked
  rw [beq_iff_eq] at rests
  obtain ⟨playing, there⟩ := Option.isSome_iff_exists.mp mounted
  exact ⟨loop, playing, there, mounted_song_is_current modHost "" run rests playing there⟩

/-- Of the commands, only this one takes items out of the queue. -/
def removesItems : Action Path → Bool
  | .command .clearQueue _ => true
  | _ => false

def KeepsItems (_ : Loop Path) (action : Action Path) : Prop := removesItems action = false

instance (loop : Loop Path) (action : Action Path) : Decidable (loop.KeepsItems action) :=
  inferInstanceAs (Decidable (removesItems action = false))

/-- "Next" at the end of the queue ends the queue and lets the song sound on. -/
theorem a_song_outlives_its_queue :
    ¬∀ (host : Host String) (root : String) (loop : Loop String),
      Reaches host KeepsItems root loop → loop.stage = .command →
        ∀ playing, loop.worker.playing = some playing →
          loop.worker.playlist.currentItemId = some playing.item := by
  intro current
  obtain ⟨loop, run, checked⟩ := Runs.Moves.of_check (step modHost) KeepsItems (new "")
    (pass (.open "a.mod") ++ pass .next)
    (fun loop => loop.stage == .command && loop.worker.playing.isSome &&
      loop.worker.playlist.currentItemId.isNone)
    (by decide +kernel)
  obtain ⟨sounding, gone⟩ := Bool.and_eq_true_iff.mp checked
  obtain ⟨rests, mounted⟩ := Bool.and_eq_true_iff.mp sounding
  rw [beq_iff_eq] at rests
  obtain ⟨playing, there⟩ := Option.isSome_iff_exists.mp mounted
  have same := current modHost "" loop run rests playing there
  rw [same] at gone
  cases gone

end Loop

end Retrovert.Bridge
