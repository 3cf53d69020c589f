import Retrovert.Bridge.Loop
import Retrovert.Playlists.Failing

/-!
# The loop mode that is shown and the one that is played

The worker keeps a loop mode, publishes it, and passes it on to the playlist engine. The
engine goes back to its first mode whenever it starts a playlist, and a queue is started
after the mode has been passed on. So a queue that is started while everything is to loop
plays through once, under a front that says otherwise.
-/

set_option autoImplicit false

namespace Retrovert.Bridge

open Playlists

/-! ## The playlist engine's mode -/

namespace Worker

variable {Path : Type}

theorem stop_mode {P : Type} (engine : Engine P) : engine.stop.mode = engine.mode := by
  unfold Engine.stop
  split
  · rfl
  · simp only
    split
    · unfold Engine.removePlaylist
      split <;> rfl
    · rfl

theorem stop_isPlaying {P : Type} (engine : Engine P) : engine.stop.isPlaying = false := by
  rw [Engine.isPlaying, Engine.stop_cursor]
  rfl

/-- A calm operation keeps the mode, and does not start playback. -/
theorem calm_mode {engine : Engine (Track Path)} {action : Playlists.Action (Track Path)}
    (calm : Calm engine action) :
    (engine.apply action).mode = engine.mode ∧
      ((engine.apply action).isPlaying = true → engine.isPlaying = true) := by
  have stops : engine.stop.mode = engine.mode ∧
      (engine.stop.isPlaying = true → engine.isPlaying = true) :=
    ⟨stop_mode engine, fun playing => by simp [stop_isPlaying] at playing⟩
  cases action with
  | stop => exact stops
  | poll =>
      simp only [Engine.apply, Engine.poll]
      split
      · exact ⟨rfl, fun playing => playing⟩
      · rename_i cursor advance pending
        split
        · exact stops
        · split
          · exact ⟨rfl, fun playing => playing⟩
          · obtain ⟨_, playing, -⟩ := Option.bind_eq_some_iff.mp pending
            exact ⟨rfl, fun _ => by simp [Engine.isPlaying, playing]⟩
  | onFinished | next =>
      exact ⟨rfl, fun playing => by
        simpa [Engine.apply, Engine.next, Engine.onFinished, Engine.isPlaying] using playing⟩
  | onFailed =>
      simp only [Engine.apply, Engine.onFailed]
      split
      · exact ⟨rfl, fun playing => playing⟩
      · rename_i cursor there
        have playing : engine.isPlaying = true := by simp [Engine.isPlaying, there]
        split
        · exact ⟨rfl, fun playing => playing⟩
        · split
          · exact ⟨rfl, fun _ => playing⟩
          · split
            · exact stops
            · exact ⟨rfl, fun _ => playing⟩
  | previous =>
      simp only [Engine.apply, Engine.previous]
      split
      · exact ⟨rfl, fun playing => playing⟩
      · exact ⟨rfl, fun playing => by simpa [Engine.isPlaying] using playing⟩
  | _ => cases calm

theorem removing_mode {engine : Engine (Track Path)} {action : Playlists.Action (Track Path)}
    (removing : Removing engine action) :
    (engine.apply action).mode = engine.mode ∧
      (engine.apply action).isPlaying = engine.isPlaying := by
  cases action with
  | removeItem playlist item =>
      simp only [Engine.apply, Engine.removeItem]
      split
      · exact ⟨rfl, rfl⟩
      · exact ⟨rfl, by simp [Engine.isPlaying, Engine.touch, Engine.modify]⟩
  | _ => cases removing

/-- A playlist is started in the first mode. -/
theorem start_mode {P : Type} (engine : Engine P) (id : PlaylistId) (source : Option ItemId)
    (playing : (engine.start id source).1.isPlaying = true) :
    (engine.start id source).1.mode = .sequential := by
  cases found : engine.stop.playlist id with
  | none => simp [Engine.start, found, stop_isPlaying] at playing
  | some stored =>
      by_cases empty : stored.items = []
      · simp [Engine.start, found, empty, stop_isPlaying] at playing
      · cases there : source.elim (some 0) stored.itemIndex with
        | none => simp [Engine.start, found, empty, there, stop_isPlaying] at playing
        | some position => simp [Engine.start, found, empty, there]

theorem startQueue_mode (host : Host Path) (worker : Worker Path) (tracks : List (Track Path))
    (start : Nat) (playing : (worker.startQueue host tracks start).playlist.isPlaying = true) :
    (worker.startQueue host tracks start).playlist.mode = .sequential := by
  unfold startQueue at playing ⊢
  cases created : worker.playlist.stop.create none with
  | mk engine id =>
      simp only [created] at playing ⊢
      cases id with
      | none =>
          -- Nothing was created, and playback has stopped.
          simp only [Engine.create] at created
          split at created
          · cases created
            simp [stop_isPlaying] at playing
          · cases created
      | some id => exact start_mode _ _ _ playing

/-! ## Agreement -/

/-- The front shows the worker's loop mode, and what plays is played in it. -/
structure Agrees (worker : Worker Path) : Prop where
  shown : worker.front.loopMode = worker.loopMode
  played : worker.playlist.isPlaying = true →
    worker.playlist.mode = playlistMode worker.loopMode

theorem Agrees.calms {worker later : Worker Path} (agrees : worker.Agrees)
    (calms : worker.Calms later) : later.Agrees := by
  have kept := Runs.Moves.invariant
    (fun engine : Engine (Track Path) => engine.isPlaying = true →
      engine.mode = playlistMode worker.loopMode)
    (fun before action after calm stepped held playing => by
      cases stepped
      obtain ⟨mode, earlier⟩ := calm_mode calm
      exact mode.trans (held (earlier playing)))
    calms.playlist agrees.played
  refine ⟨?_, fun playing => ?_⟩
  · rw [calms.published, calms.loopMode, agrees.shown]
  · rw [calms.loopMode]
    exact kept playing

theorem Agrees.clears {worker : Worker Path} (agrees : worker.Agrees) :
    worker.clearQueue.Agrees := by
  have kept := Runs.Moves.invariant
    (fun engine : Engine (Track Path) => engine.mode = worker.playlist.mode ∧
      engine.isPlaying = worker.playlist.isPlaying)
    (fun before action after removing stepped held => by
      cases stepped
      obtain ⟨mode, playing⟩ := removing_mode removing
      exact ⟨mode.trans held.1, playing.trans held.2⟩)
    worker.removes_clearQueue ⟨rfl, rfl⟩
  rw [clearQueue_eq]
  refine ⟨agrees.shown, fun playing => ?_⟩
  exact kept.1.trans (agrees.played (kept.2 ▸ playing))

end Worker

namespace Loop

variable {Path : Type} [DecidableEq Path]

/-- No queue is started while everything is to loop. -/
def StartsUnlooped (loop : Loop Path) : Action Path → Prop
  | .command command _ => loop.worker.loopMode = .all → loop.worker.requested command = []
  | _ => True

instance (loop : Loop Path) : (action : Action Path) → Decidable (loop.StartsUnlooped action)
  | .command command _ =>
      inferInstanceAs
        (Decidable (loop.worker.loopMode = .all → loop.worker.requested command = []))
  | .delivery _ _ | .silence | .poll _ | .ending _ | .output _ | .scan _ _ =>
      inferInstanceAs (Decidable True)

theorem agrees_step {host : Host Path} {loop after : Loop Path} {action : Action Path}
    (unlooped : loop.StartsUnlooped action) (stepped : loop.step host action = some after)
    (agrees : loop.worker.Agrees) : after.worker.Agrees := by
  cases steps_of_step stepped with
  | @command command answers _ _ =>
      have handled := Worker.handles host loop.worker answers command
      generalize loop.worker.handle host answers command = later at handled ⊢
      cases handled with
      | starts start asked =>
          have mode := Worker.startQueue_mode host loop.worker (loop.worker.requested command) start
          rw [Worker.startQueue_eq]
          refine ⟨agrees.shown, fun playing => (mode playing).trans ?_⟩
          show Mode.sequential = playlistMode loop.worker.loopMode
          cases mode : loop.worker.loopMode with
          | all => exact absurd (unlooped mode) asked
          | off | one => rfl
      | sets => exact ⟨rfl, fun _ => rfl⟩
      | clears => exact agrees.clears
      | calm _ calms => exact agrees.calms calms
  | @delivery _ files root _ _ _ =>
      have calms : loop.worker.Calms (loop.worker.walked host root files) := by
        unfold Worker.walked
        split <;> exact ⟨.refl _, rfl, rfl⟩
      exact agrees.calms calms
  | silence _ => exact agrees
  | poll _ => exact agrees.calms (Worker.calms_poll host _ _)
  | ending _ => exact agrees.calms (Worker.calms_ending _ _)
  | output _ => exact agrees.calms (Worker.calms_topUp _ _)
  | scan _ => exact agrees.calms (Worker.calms_scanStep host _ _ _)

/-- **The mode that is shown is the one that is played**, in every run that starts no queue
while everything is to loop. -/
theorem shown_mode_is_played (host : Host Path) (root : Path) {loop : Loop Path}
    (run : Reaches host StartsUnlooped root loop)
    (playing : loop.worker.playlist.isPlaying = true) :
    loop.worker.playlist.mode = playlistMode loop.worker.front.loopMode := by
  have agrees := Runs.Moves.invariant (fun loop => loop.worker.Agrees)
    (fun _ _ _ unlooped stepped agrees => agrees_step unlooped stepped agrees) run
    ⟨rfl, fun playing => by cases playing⟩
  rw [agrees.shown]
  exact agrees.played playing

/-- A queue is started first and then made to loop. -/
theorem shown_mode_is_played_looped : ∃ loop : Loop String,
    loop.worker.playlist.isPlaying = true ∧ loop.worker.front.loopMode = .all ∧
      loop.worker.playlist.mode = .loop := by
  obtain ⟨loop, run, checked⟩ := Runs.Moves.of_check (step modHost) StartsUnlooped (new "")
    (pass (.open "a.mod") ++ pass (.setLoop .all))
    (fun loop => loop.worker.playlist.isPlaying && loop.worker.front.loopMode == .all)
    (by decide +kernel)
  obtain ⟨playing, shown⟩ := Bool.and_eq_true_iff.mp checked
  rw [beq_iff_eq] at shown
  have played := shown_mode_is_played modHost "" run playing
  rw [shown] at played
  exact ⟨loop, playing, shown, played⟩

/-- Everything is to loop, and then a queue is started. It is played once through. -/
theorem a_looping_queue_plays_once :
    ¬∀ (host : Host String) (root : String) (loop : Loop String),
      Reaches host Runs.unguarded root loop → loop.worker.playlist.isPlaying = true →
        loop.worker.playlist.mode = playlistMode loop.worker.front.loopMode := by
  intro agree
  obtain ⟨loop, run, checked⟩ := Runs.Moves.of_check (step modHost) Runs.unguarded (new "")
    (pass (.setLoop .all) ++ pass (.open "a.mod"))
    (fun loop => loop.worker.playlist.isPlaying &&
      loop.worker.playlist.mode != playlistMode loop.worker.front.loopMode)
    (by decide +kernel)
  obtain ⟨playing, differs⟩ := Bool.and_eq_true_iff.mp checked
  have same := agree modHost "" loop run playing
  simp [same] at differs

end Loop

end Retrovert.Bridge
