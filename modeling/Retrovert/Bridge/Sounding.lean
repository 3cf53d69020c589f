import Retrovert.Bridge.Loop
import Retrovert.Player.Backend

/-!
# What the audio device plays

The worker decodes ahead of the device. It pushes what it has decoded into a ring, and the
device's callback, on a thread of its own, takes samples out of it and fills up with silence. A
pass looks at how full the ring is, decodes what is missing, and pushes that, and the device may
take samples between any two of these. When what stands in the ring is no longer to be played the
worker clears it, at a mount, a seek, a pause, a stop and a failure, and the output starts over.

Since the output last started over, the device has taken what was pushed, in order and in whole
frames; the ring never grows past its size; and the position that is reported is ahead of the
device by a fifth of a second at most. Where no song plays, or one is held, the ring is empty
(`device_plays_in_order`).

A sample is what is pushed, once the volume has been applied to it. How many frames the clock
allows a pass is a part of the step.
-/

set_option autoImplicit false

namespace Retrovert.Bridge

open Player (PlayerBackend saturatingAdd saturatingMul)

/-! ## How much to decode -/

def channels : Nat := 2

/-- The rate the device is opened at. -/
def sampleRate : Nat := 48000

def maxFrames : Nat := 4096

/-- How much audio the worker keeps decoded ahead of the device. -/
def bufferedSamples : Nat := sampleRate / 5 * channels

/-- Below this the ring is refilled as fast as possible. -/
def lowWaterSamples : Nat := bufferedSamples / 4

/-- Library files are described only while the ring holds at least this much. -/
def scanWaterSamples : Nat := bufferedSamples / 2

/-- The frames that a pass decodes, given how full the ring is and what the clock allows. -/
def framesFor (buffered earned : Nat) : Nat :=
  if bufferedSamples ≤ buffered then 0
  else
    let missing := min ((bufferedSamples - buffered) / channels) maxFrames
    if buffered < lowWaterSamples then missing else min missing earned

/-- What a pass decodes fits into the ring. -/
theorem framesFor_fits {buffered earned : Nat} (decodes : framesFor buffered earned ≠ 0) :
    buffered + channels * framesFor buffered earned ≤ bufferedSamples := by
  have short : ¬bufferedSamples ≤ buffered := fun full => decodes (if_pos full)
  have missing : framesFor buffered earned ≤ (bufferedSamples - buffered) / channels := by
    rw [framesFor, if_neg short]
    dsimp only
    split
    · exact Nat.min_le_left ..
    · exact Nat.le_trans (Nat.min_le_left ..) (Nat.min_le_left ..)
  have room := Nat.mul_le_mul_left channels missing
  have := Nat.mul_div_le (bufferedSamples - buffered) channels
  omega

/-! ## Where the output starts over -/

variable {Path : Type}

namespace Worker

/-- The frame that a seek leaves the session at, unless nothing is mounted or the decoder
refuses. -/
def sought (worker : Worker Path) (reached : Option Int) : Option Nat :=
  match worker.session, reached with
  | some _, some reached => some (saturatingMul reached.toNat sampleRate / 1000)
  | _, _ => none

/-- The frame that the output starts over from, if the handler of a command clears the ring. -/
def startsOver (worker : Worker Path) (frame : Nat) (answers : Answers) : Command Path → Option Nat
  | .stop => some 0
  | .togglePause => if worker.session = some .playing then some frame else none
  | .seek _ => worker.sought answers.reached
  | .previous =>
      let position := if worker.session.isSome then answers.positionMs else 0
      if restartAfterMs < position ∨ !worker.hasPrevious then worker.sought answers.reached
      else none
  | .setSubsong index =>
      worker.playing.bind fun playing =>
        if index < playing.subsongs ∧ index ≠ playing.subsong then some 0 else none
  | _ => none

/-- The frame that the output starts over from once a song has ended, if it does. -/
def endsOver (worker : Worker Path) (reached : Option Int) : Option Nat :=
  if worker.session = some .finished then
    match if worker.loopMode = .one then worker.sought reached else none with
    | some frame => some frame
    | none => if worker.playlist.onFinished.peekNext.isSome then none else some 0
  else none

/-- A song is decoded, or has been to its end. -/
def Sounds (worker : Worker Path) : Prop :=
  worker.session = some .playing ∨ worker.session = some .finished

end Worker

/-- The frame that the output starts over from, if a step of the worker clears the ring. -/
def Loop.startsOver (loop : Loop Path) (frame : Nat) : Action Path → Option Nat
  | .command command answers => loop.worker.startsOver frame answers command
  | .poll _ => loop.worker.playlist.poll.2.map fun _ => 0
  | .ending reached => loop.worker.endsOver reached
  | .output (.failed _) => if loop.worker.session = some .playing then some 0 else none
  | _ => none

/-! ## The worker, the ring and the device -/

/-- How far a pass has come with its output: it has looked at the ring, or it has decoded samples
that it has yet to push. -/
inductive Filling (α : Type) where
  | resting
  | measured (buffered : Nat)
  | decoded (samples : List α)

/-- What is decoded and not pushed. -/
def Filling.pending {α : Type} : Filling α → List α
  | .decoded samples => samples
  | _ => []

/-- The worker, the frame that its session has come to, and the ring. -/
structure Output (Path α : Type) where
  loop : Loop Path
  outputFrame : Nat := 0
  ring : List α := []
  filling : Filling α := .resting

/-- A step of the worker, or the device taking so many samples. -/
inductive Move (Path α : Type) where
  | loop (action : Action Path)
  | measure
  | decode (earned : Nat) (rendering : Rendering) (samples : List α)
  | push
  | device (count : Nat)

namespace Output

variable {α : Type}

/-- The session, as far as its position goes. -/
def backend (output : Output Path α) : PlayerBackend where
  sampleRate := sampleRate
  maxFrames := maxFrames
  session := output.loop.worker.session.map fun status => ⟨status, output.outputFrame⟩

/-- What the device's callback fills a buffer with. -/
def buffer (output : Output Path α) (silence : α) (count : Nat) : List α :=
  output.ring.take count ++ List.replicate (count - output.ring.length) silence

/-- The frames that a pass asks the decoder for. -/
def asked (output : Output Path α) (earned : Nat) : Nat :=
  match output.filling with
  | .measured buffered => framesFor buffered earned
  | _ => 0

/-- The decoder is not asked for nothing. -/
def rendered (output : Output Path α) (earned : Nat) (rendering : Rendering) : Rendering :=
  if output.asked earned = 0 then .nothing else rendering

/-- The worker's steps besides its output. It describes files only while the ring is full enough. -/
def admits (output : Output Path α) : Action Path → Bool
  | .output _ => false
  | .scan roomy _ => roomy == decide (scanWaterSamples ≤ output.ring.length)
  | _ => true

/-- The frame that a seek leaves is the one that the backend counts on from. -/
theorem sought_eq_seek (output : Output Path α) (positionMs : Int) (reached : Option Int) :
    output.loop.worker.sought reached =
      (output.backend.seek positionMs fun _ => reached).1.bind fun _ =>
        (output.backend.seek positionMs fun _ => reached).2.session.map (·.outputFrame) := by
  unfold Worker.sought backend PlayerBackend.seek
  cases output.loop.worker.session with
  | none => rfl
  | some status =>
      cases reached with
      | none => rfl
      | some reached => rfl

variable [DecidableEq Path] (host : Host Path)

/-- A step of the worker, and what it does to the ring. -/
def act (output : Output Path α) (action : Action Path) : Option (Output Path α) :=
  (output.loop.step host action).map fun loop =>
    match output.loop.startsOver output.outputFrame action with
    | none => { output with loop, filling := .resting }
    | some frame => { loop, outputFrame := frame }

/-- The samples of a chunk wait to be pushed, and the session has come so much further. -/
def holding (output : Output Path α) (samples : List α) : Output Path α :=
  { output with
    outputFrame := saturatingAdd output.outputFrame (samples.length / channels)
    filling := .decoded samples }

def step (output : Output Path α) : Move Path α → Option (Output Path α)
  | .loop action =>
      match output.filling with
      | .resting => if output.admits action then output.act host action else none
      | _ => none
  | .measure =>
      match output.filling, output.loop.stage with
      | .resting, .output => some { output with filling := .measured output.ring.length }
      | _, _ => none
  | .decode earned rendering samples =>
      match output.filling with
      | .measured _ =>
          (output.act host (.output (output.rendered earned rendering))).map fun after =>
            match output.rendered earned rendering with
            | .samples _ =>
                if output.loop.worker.session = some .playing then after.holding samples else after
            | _ => after
      | _ => none
  | .push =>
      match output.filling with
      | .decoded samples =>
          some { output with ring := output.ring ++ samples, filling := .resting }
      | _ => none
  | .device count => some { output with ring := output.ring.drop count }

/-- The device takes whole frames, and the decoder makes whole frames, as many as it is asked for
at most. -/
def WholeFrames (output : Output Path α) : Move Path α → Prop
  | .decode earned _ samples =>
      channels ∣ samples.length ∧ samples.length ≤ channels * output.asked earned
  | .device count => channels ∣ count
  | _ => True

instance (output : Output Path α) : (move : Move Path α) → Decidable (output.WholeFrames move)
  | .decode _ _ _ => inferInstanceAs (Decidable (_ ∧ _))
  | .device _ => inferInstanceAs (Decidable (_ ∣ _))
  | .loop _ | .measure | .push => inferInstanceAs (Decidable True)

/-- The step that the worker takes with its output. -/
def action? (output : Output Path α) : Move Path α → Option (Action Path)
  | .loop action => some action
  | .decode earned rendering _ => some (.output (output.rendered earned rendering))
  | _ => none

end Output

/-! ## What has been played -/

/-- Since the output last started over: the frame that it started from, and what was pushed and
taken. -/
structure Played (α : Type) where
  base : Nat := 0
  pushed : List α := []
  taken : List α := []

namespace Output

variable {α : Type}

/-- What a step adds, unless it starts the output over. -/
def observe (output : Output Path α) (played : Played α) (move : Move Path α) : Played α :=
  match move with
  | .push => { played with pushed := played.pushed ++ output.filling.pending }
  | .device count => { played with taken := played.taken ++ output.ring.take count }
  | _ =>
      match (output.action? move).bind (output.loop.startsOver output.outputFrame) with
      | some frame => { base := frame }
      | none => played

variable [DecidableEq Path] (host : Host Path)

/-- A step, and what it adds to what has been played. -/
def stepRecorded (run : Output Path α × Played α) (move : Move Path α) :
    Option (Output Path α × Played α) :=
  (run.1.step host move).map fun after => (after, run.1.observe run.2 move)

/-- What runs of a new worker lead to, every device and decoder working in whole frames. -/
def Reaches (root : Path) (run : Output Path α × Played α) : Prop :=
  Runs.Moves (stepRecorded host) (fun run move => run.1.WholeFrames move)
    ({ loop := Loop.new root }, {}) run

end Output

/-! ## A song that goes on -/

namespace Worker

theorem sought_isSome {worker later : Worker Path} {reached : Option Int}
    (sought : worker.backendSeek reached = some later) : worker.sought reached ≠ none := by
  unfold backendSeek at sought
  unfold Worker.sought
  cases session : worker.session with
  | none => simp [session] at sought
  | some status =>
      cases reached with
      | none => simp [session] at sought
      | some reached => simp

theorem sounds_walked [DecidableEq Path] (host : Host Path) {worker : Worker Path} (root : Path)
    (files : List Path) (sounds : worker.Sounds) : (worker.walked host root files).Sounds := by
  unfold walked
  split
  · exact sounds
  · exact sounds

/-- A handler that leaves the ring leaves a song going that goes. -/
theorem sounds_handle [DecidableEq Path] (host : Host Path) {worker : Worker Path} {frame : Nat}
    {answers : Answers} {command : Command Path}
    (goes : worker.startsOver frame answers command = none) (sounds : worker.Sounds) :
    (worker.handle host answers command).Sounds := by
  cases command with
  | «open» path =>
      rw [handle, startQueue_eq]
      exact sounds
  | playRows rows start =>
      rw [handle, playRows]
      split
      · exact sounds
      · rw [startQueue_eq]
        exact sounds
  | stop => cases goes
  | togglePause =>
      obtain playing | finished := sounds
      · simp [startsOver, playing] at goes
      · simp [handle, togglePause, Sounds, finished]
  | seek ms =>
      rw [handle, seek]
      cases sought : worker.backendSeek answers.reached with
      | none => exact sounds
      | some later => exact absurd goes (sought_isSome sought)
  | previous =>
      rw [handle]
      by_cases restarts : restartAfterMs < (if worker.session.isSome then answers.positionMs else 0) ∨
          (!worker.hasPrevious) = true
      · simp only [startsOver, if_pos restarts] at goes
        simp only [previous, if_pos restarts]
        cases sought : worker.backendSeek answers.reached with
        | none => exact sounds
        | some later => exact absurd goes (sought_isSome sought)
      · simp only [previous, if_neg restarts]
        exact sounds
  | setSubsong index =>
      rw [handle, setSubsong]
      rw [startsOver] at goes
      cases there : worker.playing with
      | none => exact sounds
      | some playing =>
          rw [there, Option.bind_some] at goes
          dsimp only
          split
          · rename_i other
            rw [if_pos other] at goes
            cases goes
          · exact sounds
  | clearQueue =>
      rw [handle, clearQueue_eq]
      exact sounds
  | walked root files => exact sounds_walked host root files sounds
  | next | setLoop _ | setVolume | scanLibrary _ => exact sounds

theorem sounds_ending {worker : Worker Path} {reached : Option Int}
    (goes : worker.endsOver reached = none) (sounds : worker.Sounds) :
    (worker.ending reached).Sounds := by
  unfold ending
  rw [endsOver] at goes
  split
  · rename_i finished
    rw [if_pos finished] at goes
    have rests : (if worker.loopMode = .one then worker.backendSeek reached else none) = none := by
      split
      · rename_i one
        rw [if_pos one] at goes
        cases sought : worker.backendSeek reached with
        | none => rfl
        | some later =>
            cases frame : worker.sought reached with
            | none => exact absurd frame (sought_isSome sought)
            | some frame' => simp [frame] at goes
      · rfl
    have next : worker.playlist.onFinished.peekNext.isSome = true := by
      split at goes
      · cases goes
      · by_contra last
        simp [last] at goes
    rw [songEnded, rests]
    dsimp only
    rw [if_pos next]
    exact sounds
  · exact sounds

theorem sounds_poll (host : Host Path) {worker : Worker Path} {mounting : Mounting}
    (goes : (worker.playlist.poll.2.map fun _ => 0) = none) (sounds : worker.Sounds) :
    (worker.poll host mounting).Sounds := by
  rw [Option.map_eq_none_iff] at goes
  unfold poll
  split
  · exact sounds
  · rename_i polled
    rw [polled] at goes
    cases goes

end Worker

/-- A step of the worker that leaves the ring leaves a song going that goes. -/
theorem Loop.sounds_step [DecidableEq Path] {host : Host Path} {loop after : Loop Path} {frame : Nat}
    {action : Action Path} (stepped : loop.step host action = some after)
    (goes : loop.startsOver frame action = none) (sounds : loop.worker.Sounds) :
    after.worker.Sounds := by
  have steps := Loop.steps_of_step stepped
  cases steps with
  | command _ _ => exact Worker.sounds_handle host goes sounds
  | @delivery walk files root _ _ _ => exact Worker.sounds_walked host root files sounds
  | silence _ => exact sounds
  | poll _ => exact Worker.sounds_poll host goes sounds
  | ending _ => exact Worker.sounds_ending goes sounds
  | @output rendering _ =>
      unfold Worker.topUp
      split
      · rename_i playing
        cases rendering with
        | nothing => exact sounds
        | samples finished =>
            cases finished with
            | true => exact .inr rfl
            | false => exact sounds
        | failed error =>
            rw [Loop.startsOver, if_pos playing] at goes
            cases goes
      · exact sounds
  | @scan roomy described _ =>
      unfold Worker.scanStep
      split
      · exact sounds
      · split
        · exact sounds
        · exact sounds

/-! ## What holds in every run -/

namespace Output

variable {α : Type} {output after : Output Path α} {played : Played α}

/-- What was pushed has been taken or stands in the ring, in order and in whole frames; it fits; it
accounts for the frame that the session has come to; and a song goes that it is of. -/
structure Plays (run : Output Path α × Played α) : Prop where
  delivered : run.2.taken ++ run.1.ring = run.2.pushed
  wholeTaken : channels ∣ run.2.taken.length
  wholePushed : channels ∣ run.2.pushed.length
  wholePending : channels ∣ run.1.filling.pending.length
  fits : run.1.ring.length + run.1.filling.pending.length ≤ bufferedSamples
  measured : ∀ buffered, run.1.filling = .measured buffered → run.1.ring.length ≤ buffered
  reported : run.1.outputFrame ≤
    run.2.base + (run.2.pushed.length + run.1.filling.pending.length) / channels
  sounds : run.1.ring ≠ [] ∨ run.1.filling.pending ≠ [] → run.1.loop.worker.Sounds


/-- The ring is empty, and nothing has been pushed or taken. -/
theorem plays_restarted (loop : Loop Path) (frame : Nat) :
    Plays (({ loop, outputFrame := frame }, { base := frame }) : Output Path α × Played α) where
  delivered := rfl
  wholeTaken := Nat.dvd_zero _
  wholePushed := Nat.dvd_zero _
  wholePending := Nat.dvd_zero _
  fits := Nat.zero_le _
  measured _ _ := Nat.zero_le _
  reported := Nat.le_add_right ..
  sounds left := by
    obtain left | left := left
    · exact absurd rfl left
    · exact absurd rfl left

/-- A step of the worker that leaves the ring. -/
theorem act_of_none [DecidableEq Path] {host : Host Path} {action : Action Path}
    (acted : output.act host action = some after)
    (goes : output.loop.startsOver output.outputFrame action = none) :
    ∃ loop, output.loop.step host action = some loop ∧
      after = { output with loop, filling := .resting } := by
  rw [Output.act, Option.map_eq_some_iff] at acted
  obtain ⟨loop, stepped, rfl⟩ := acted
  exact ⟨loop, stepped, by rw [goes]⟩

/-- What a step of the worker adds: nothing, or the output starts over. -/
theorem observe_worker (output : Output Path α) (played : Played α) {move : Move Path α}
    {action : Action Path} (acts : output.action? move = some action) :
    output.observe played move = (output.loop.startsOver output.outputFrame action).elim played
      fun frame => { base := frame } := by
  cases move with
  | loop _ | decode _ _ _ =>
      cases acts
      unfold observe
      dsimp only [action?, Option.bind_some]
      split
      · rename_i starts
        rw [starts]
        rfl
      · rename_i goes
        rw [goes]
        rfl
  | measure | push | device _ => cases acts

theorem Plays.act [DecidableEq Path] {host : Host Path} {action : Action Path}
    (plays : Plays (output, played)) (rests : output.filling.pending = [])
    (acted : output.act host action = some after) :
    after.filling = .resting ∧
      Plays (after, (output.loop.startsOver output.outputFrame action).elim played
        fun frame => { base := frame }) := by
  unfold Output.act at acted
  rw [Option.map_eq_some_iff] at acted
  obtain ⟨loop, stepped, rfl⟩ := acted
  cases starts : output.loop.startsOver output.outputFrame action with
  | some frame => exact ⟨rfl, plays_restarted loop frame⟩
  | none =>
      have fits := plays.fits
      have reported := plays.reported
      rw [rests] at fits reported
      exact ⟨rfl,
        { plays with
          wholePending := Nat.dvd_zero _
          fits := fits
          measured := fun _ same => by cases same
          reported := reported
          sounds := fun left => Loop.sounds_step stepped starts (plays.sounds (left.imp_right
            fun none => absurd rfl none)) }⟩

/-- The samples of a chunk are counted, and fit into the ring. -/
theorem Plays.holding {samples : List α} {frames : Nat} (plays : Plays (output, played))
    (rests : output.filling = .resting) (whole : channels ∣ samples.length)
    (few : samples.length ≤ channels * frames)
    (room : output.ring.length + channels * frames ≤ bufferedSamples)
    (sounds : output.loop.worker.Sounds) : Plays (output.holding samples, played) where
  delivered := plays.delivered
  wholeTaken := plays.wholeTaken
  wholePushed := plays.wholePushed
  wholePending := whole
  fits := Nat.le_trans (Nat.add_le_add_left few _) room
  measured _ same := by cases same
  reported := by
    have reported := plays.reported
    rw [rests] at reported
    have split : (played.pushed.length + samples.length) / channels =
        played.pushed.length / channels + samples.length / channels := by
      obtain ⟨frames, same⟩ := plays.wholePushed
      dsimp only at same
      rw [same, Nat.mul_add_div (by decide), Nat.mul_div_cancel_left _ (by decide)]
    have capped : saturatingAdd output.outputFrame (samples.length / channels) ≤
        output.outputFrame + samples.length / channels := Nat.min_le_left ..
    dsimp only [Output.holding, Filling.pending] at *
    rw [List.length_nil, Nat.add_zero] at reported
    rw [split]
    omega
  sounds _ := sounds

theorem Plays.push {samples : List α} (plays : Plays (output, played))
    (decoded : output.filling = .decoded samples) :
    Plays ({ output with ring := output.ring ++ samples, filling := .resting },
      { played with pushed := played.pushed ++ output.filling.pending }) := by
  have pending : output.filling.pending = samples := by rw [decoded]; rfl
  obtain ⟨delivered, wholeTaken, wholePushed, wholePending, fits, -, reported, sounds⟩ := plays
  dsimp only at *
  rw [pending] at wholePending fits reported sounds ⊢
  refine ⟨?_, wholeTaken, ?_, Nat.dvd_zero _, ?_, fun _ same => (by cases same), ?_, ?_⟩
  · dsimp only
    rw [← List.append_assoc, delivered]
  · dsimp only
    rw [List.length_append]
    exact Nat.dvd_add wholePushed wholePending
  · dsimp only [Filling.pending]
    rw [List.length_append]
    exact fits
  · dsimp only [Filling.pending]
    rw [List.length_append]
    exact reported
  · dsimp only [Filling.pending]
    rintro (left | none)
    · refine sounds ?_
      by_contra neither
      rw [not_or, not_not, not_not] at neither
      exact left (by rw [neither.1, neither.2]; rfl)
    · exact absurd rfl none

theorem Plays.device {count : Nat} (plays : Plays (output, played)) (whole : channels ∣ count) :
    Plays ({ output with ring := output.ring.drop count },
      { played with taken := played.taken ++ output.ring.take count }) := by
  obtain ⟨delivered, wholeTaken, wholePushed, wholePending, fits, measured, reported, sounds⟩ :=
    plays
  dsimp only at *
  have standing : channels ∣ output.ring.length := by
    have length := congrArg List.length delivered
    rw [List.length_append] at length
    exact (Nat.dvd_add_right wholeTaken).mp (length ▸ wholePushed)
  have shorter : (output.ring.drop count).length ≤ output.ring.length := by
    rw [List.length_drop]
    exact Nat.sub_le ..
  refine ⟨?_, ?_, wholePushed, wholePending, ?_, ?_, reported, ?_⟩
  · dsimp only
    rw [List.append_assoc, List.take_append_drop, delivered]
  · dsimp only
    rw [List.length_append, List.length_take]
    refine Nat.dvd_add wholeTaken ?_
    obtain least | least := Nat.le_total count output.ring.length
    · rw [Nat.min_eq_left least]
      exact whole
    · rw [Nat.min_eq_right least]
      exact standing
  · exact Nat.le_trans (Nat.add_le_add_right shorter _) fits
  · intro buffered same
    exact Nat.le_trans shorter (measured buffered same)
  · refine fun left => sounds (left.imp_left fun left none => left ?_)
    dsimp only
    rw [none, List.drop_nil]

/-- A pass that has looked at the ring decodes. -/
theorem Plays.decode [DecidableEq Path] {host : Host Path} {buffered earned : Nat}
    {rendering : Rendering} {samples : List α} (plays : Plays (output, played))
    (measured : output.filling = .measured buffered)
    (whole : output.WholeFrames (.decode earned rendering samples))
    (stepped : output.step host (.decode earned rendering samples) = some after) :
    Plays (after, output.observe played (.decode earned rendering samples)) := by
  have rests : output.filling.pending = [] := by rw [measured]; rfl
  simp only [Output.step, measured, Option.map_eq_some_iff] at stepped
  obtain ⟨later, acted, rfl⟩ := stepped
  obtain ⟨resting, acts⟩ := plays.act rests acted
  rw [observe_worker output played rfl]
  cases rendered : output.rendered earned rendering with
  | nothing | failed error =>
      rw [rendered] at acts
      exact acts
  | samples finished =>
      dsimp only
      rw [rendered] at acts acted
      split
      case isFalse => exact acts
      case isTrue playing =>
      obtain ⟨wholeFrames, few⟩ := whole
      have asked : output.asked earned ≠ 0 := by
        intro none
        rw [Output.rendered, if_pos none] at rendered
        cases rendered
      have goes : output.loop.startsOver output.outputFrame (.output (.samples finished)) = none :=
        rfl
      obtain ⟨loop, stepped, rfl⟩ := act_of_none acted goes
      refine acts.holding rfl wholeFrames few ?_ (Loop.sounds_step stepped goes (.inl playing))
      rw [Output.asked, measured] at asked ⊢
      exact Nat.le_trans (Nat.add_le_add_right (plays.measured buffered measured) _)
        (framesFor_fits asked)

/-- **The step lemma.** -/
theorem Plays.step [DecidableEq Path] {host : Host Path} {before after : Output Path α × Played α}
    {move : Move Path α} (whole : before.1.WholeFrames move)
    (stepped : stepRecorded host before move = some after) (plays : Plays before) :
    Plays after := by
  obtain ⟨output, played⟩ := before
  rw [stepRecorded, Option.map_eq_some_iff] at stepped
  obtain ⟨after, stepped, rfl⟩ := stepped
  cases move with
  | loop action =>
      cases resting : output.filling with
      | resting =>
          simp only [Output.step, resting, Option.ite_none_right_eq_some] at stepped
          have rests : output.filling.pending = [] := by rw [resting]; rfl
          dsimp only
          rw [observe_worker output played rfl]
          exact (plays.act rests stepped.2).2
      | measured _ | decoded _ => simp [Output.step, resting] at stepped
  | measure =>
      simp only [Output.step] at stepped
      split at stepped
      · rename_i resting stage
        cases stepped
        have fits := plays.fits
        have reported := plays.reported
        have sounds := plays.sounds
        rw [resting] at fits reported sounds
        exact
          { plays with
            wholePending := Nat.dvd_zero _
            fits := fits
            measured := fun _ same => by cases same; exact Nat.le_refl _
            reported := reported
            sounds := sounds }
      · cases stepped
  | decode earned rendering samples =>
      cases measured : output.filling with
      | measured buffered => exact plays.decode measured whole stepped
      | resting | decoded _ => simp [Output.step, measured] at stepped
  | push =>
      cases decoded : output.filling with
      | decoded samples =>
          simp only [Output.step, decoded, Option.some.injEq] at stepped
          rw [← stepped]
          exact plays.push decoded
      | resting | measured _ => simp [Output.step, decoded] at stepped
  | device count =>
      cases stepped
      exact plays.device whole

theorem plays_of_reaches [DecidableEq Path] {host : Host Path} {root : Path}
    {run : Output Path α × Played α} (reaches : Reaches host root run) : Plays run :=
  Runs.Moves.invariant Plays (fun _ _ _ whole stepped plays => plays.step whole stepped) reaches
    (plays_restarted _ 0)

/-- What the ring and the device are short of what was decoded is a fifth of a second. -/
theorem Plays.position (plays : Plays (output, played)) {position : Int}
    (reported : output.backend.positionMs = some position) :
    position ≤ ((played.base + played.taken.length / channels) * 1000 / sampleRate : Nat) + 200 := by
  obtain ⟨delivered, wholeTaken, wholePushed, wholePending, fits, measured, frame, sounds⟩ := plays
  dsimp only at *
  have length := congrArg List.length delivered
  rw [List.length_append] at length
  rw [PlayerBackend.positionMs, Option.bind_eq_some_iff] at reported
  obtain ⟨session, mounted, reported⟩ := reported
  rw [backend, Option.map_eq_some_iff] at mounted
  obtain ⟨status, -, rfl⟩ := mounted
  have rate : output.backend.sampleRate = 48000 := rfl
  rw [rate, if_neg (by decide), Player.toI64?, Option.ite_none_right_eq_some] at reported
  obtain ⟨-, same⟩ := reported
  cases same
  have capped : saturatingMul output.outputFrame 1000 ≤ output.outputFrame * 1000 :=
    Nat.min_le_left ..
  dsimp only
  unfold bufferedSamples at fits
  unfold channels sampleRate at *
  omega

/-- **The device plays what was decoded, in order.** Since the output last started over, a buffer
of the device's is filled with what was pushed and not yet taken, from a whole frame on, and then
with silence. The ring keeps to its size. Where no song goes the device plays silence. And the
position that is reported is a fifth of a second at most ahead of the frame that the device has
come to. -/
theorem device_plays_in_order [DecidableEq Path] (host : Host Path) (root : Path) (silence : α) :
    ∀ run : Output Path α × Played α, Reaches host root run →
      (∀ count, run.1.buffer silence count =
        (run.2.pushed.drop run.2.taken.length).take count ++
          List.replicate (count - (run.2.pushed.length - run.2.taken.length)) silence) ∧
      channels ∣ run.2.taken.length ∧
      run.1.ring.length ≤ bufferedSamples ∧
      (¬run.1.loop.worker.Sounds →
        ∀ count, run.1.buffer silence count = List.replicate count silence) ∧
      ∀ position, run.1.backend.positionMs = some position →
        position ≤ ((run.2.base + run.2.taken.length / channels) * 1000 / sampleRate : Nat) +
          200 := by
  intro run reaches
  have plays := plays_of_reaches reaches
  refine ⟨?_, plays.wholeTaken, ?_, ?_, fun position reported => plays.position reported⟩
  · intro count
    rw [← plays.delivered, List.drop_left, List.length_append, Nat.add_sub_cancel_left]
    rfl
  · exact Nat.le_trans (Nat.le_add_right ..) plays.fits
  · intro quiet count
    have empty : run.1.ring = [] := by
      by_contra left
      exact quiet (plays.sounds (.inl left))
    rw [buffer, empty, List.take_nil]
    rfl

/-- The first pass over a song. The device finds an empty ring before the samples are pushed. -/
def firstPass : List (Move String Int) :=
  [.loop (.command (.open "song.mod") {}), .loop (.poll (.ready 1)), .loop (.ending none), .measure,
    .decode 0 (.samples false) [1, 2, 3, 4], .device 2, .push, .device 2]

/-- A device that asks for two frames more gets the one that is left, and silence. -/
theorem device_plays_in_order_of_firstPass : ∃ run : Output String Int × Played Int,
    Reaches Loop.modHost "" run ∧ run.2.taken = [1, 2] ∧ run.1.buffer 0 4 = [3, 4, 0, 0] := by
  obtain ⟨run, reaches, found⟩ := Runs.Moves.of_check (stepRecorded Loop.modHost)
    (fun run move => run.1.WholeFrames move) ({ loop := Loop.new "" }, {}) firstPass
    (fun run => run.2.pushed == [1, 2, 3, 4] && run.2.taken == [1, 2]) (by decide +kernel)
  simp only [Bool.and_eq_true, beq_iff_eq] at found
  obtain ⟨buffers, -⟩ := device_plays_in_order Loop.modHost "" 0 run reaches
  refine ⟨run, reaches, found.2, ?_⟩
  rw [buffers, found.1, found.2]
  rfl

end Output

end Retrovert.Bridge
