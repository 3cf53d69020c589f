import Mathlib.Algebra.Order.Field.Rat
import Mathlib.Tactic.MkIffOfInductiveProp
import Mathlib.Tactic.Ring
import Retrovert.Library.LittleEndian

/-!
# The validation host

The host loads a plugin and checks it: it creates and destroys instances (`cmdLoad`), or it plays
a fixture until so much of it is decoded (`cmdPlay`). What a plugin answers is not the host's to
know, so a plugin is any set of functions on a state of its own, and the results are about all of
them.

The plugin interface says in which order its functions are called: `Life` is that order as an
automaton. Loading keeps to it, whatever the plugin answers (`loading_in_order`). What is played
stays in the host's buffer where no frame is wider than 32 bits can say (`Heard.in_buffer`).

Seconds and magnitudes are exact numbers. What a 32-bit float is worth is a parameter.
-/

set_option autoImplicit false

namespace Retrovert.RvHost

/-! ## What a plugin answers -/

/-- A sample format; `other` stands for every number that the interface does not name. -/
inductive AudioFormat where
  | u8
  | s16
  | s24
  | s32
  | f32
  | other
deriving DecidableEq

/-- The outcome of a read; any number that the interface does not name is read as `ok`. -/
inductive ReadStatus where
  | decodingRequest
  | ok
  | finished
  | error
deriving DecidableEq

inductive ProbeResult where
  | supported
  | unsupported
  | unsure
deriving DecidableEq

structure ReadInfo where
  audioFormat : AudioFormat
  channelCount : UInt32
  sampleRate : UInt32
  frameCount : UInt32
  status : ReadStatus
deriving DecidableEq

/-- What a read returns, and what is in the host's buffer after it. -/
structure Reply where
  info : ReadInfo
  buffer : Nat → UInt8

/-- What a library exports; an entry that is a null pointer is missing. -/
structure Exports (σ : Type*) where
  apiVersion : Nat
  name : Option String
  staticInit : Option (σ → σ)
  staticDestroy : Option (σ → σ)
  probeCanPlay : Option (List UInt8 → String → σ → ProbeResult × σ)
  create : Option (σ → Bool × σ)
  destroy : Option (σ → Bool × σ)
  openSong : Option (String → σ → Bool × σ)
  close : Option (σ → σ)
  readData : Option (UInt32 → σ → Reply × σ)

/-- A plugin with its mandatory entries. `create` says whether there is an instance, and
`destroy` and `openSong` whether they returned 0. -/
structure Plugin (σ : Type*) where
  staticInit : Option (σ → σ)
  staticDestroy : Option (σ → σ)
  probeCanPlay : List UInt8 → String → σ → ProbeResult × σ
  create : σ → Bool × σ
  destroy : σ → Bool × σ
  openSong : String → σ → Bool × σ
  close : σ → σ
  readData : UInt32 → σ → Reply × σ

def loadCycles : Nat := 3
def createCycles : Nat := 5
def maxReopens : Nat := 50
def maxStalledReads : Nat := 1000
def readFrames : UInt32 := 4096
def smallReadFrames : UInt32 := 777
def readBufferBytes : Nat := 4096 * 16
def silenceThreshold : ℚ := 1 / 100
def apiVersion : Nat := 2

section Host

variable {σ : Type*}

/-- The plugin, if its version is the host's and no mandatory entry is missing. -/
def pluginGetChecked (exports : Exports σ) : Option (Plugin σ) :=
  if exports.apiVersion ≠ apiVersion ∨ exports.name = none then none
  else do
    let probeCanPlay ← exports.probeCanPlay
    let create ← exports.create
    let destroy ← exports.destroy
    let openSong ← exports.openSong
    let close ← exports.close
    let readData ← exports.readData
    return ⟨exports.staticInit, exports.staticDestroy, probeCanPlay, create, destroy, openSong,
      close, readData⟩

/-! ## Samples -/

/-- The bytes of one sample. -/
def AudioFormat.sampleBytes : AudioFormat → UInt32
  | u8 => 1
  | s16 => 2
  | s24 => 3
  | s32 => 4
  | f32 => 4
  | other => 0

/-- The bytes of one frame, in 32 bits. -/
def ReadInfo.formatFrameBytes (info : ReadInfo) : UInt32 :=
  info.audioFormat.sampleBytes * info.channelCount

/-- How many samples a block has, in 32 bits. -/
def ReadInfo.sampleCount (info : ReadInfo) : UInt32 := info.frameCount * info.channelCount

/-- A number of so many bits as a signed one. -/
def signed (bits number : Nat) : ℤ := if number < 2 ^ (bits - 1) then number else number - 2 ^ bits

/-- The magnitude of a sample of which the bytes are given. -/
def AudioFormat.magnitude (float : Nat → ℚ) (format : AudioFormat) (bytes : List UInt8) : ℚ :=
  let number := LittleEndian.value bytes
  match format with
  | u8 => |((number : ℚ) - 128) / 128|
  | s16 => |(signed 16 number : ℚ) / 32768|
  | s24 => |(signed 24 number : ℚ) / 8388608|
  | s32 => |(signed 32 number : ℚ) / 2147483648|
  | f32 => float number
  | other => 0

/-- The byte at a place of the buffer, which is no longer than it is. -/
def Reply.byte (reply : Reply) (place : Nat) : Option UInt8 :=
  if place < readBufferBytes then some (reply.buffer place) else none

/-- The magnitude of sample `i`; `none` if it is not all in the buffer. -/
def Reply.sample (float : Nat → ℚ) (reply : Reply) (i : Nat) : Option ℚ :=
  let size := reply.info.audioFormat.sampleBytes.toNat
  ((List.range size).mapM fun place => reply.byte (i * size + place)).map
    (reply.info.audioFormat.magnitude float)

/-- The largest magnitude of a block; `none` if samples are read past the buffer. -/
def samplePeak (float : Nat → ℚ) (reply : Reply) : Option ℚ :=
  ((List.range reply.info.sampleCount.toNat).mapM (reply.sample float)).map
    (List.foldl (fun peak v => if peak < v then v else peak) 0)

/-! ## The calls that are made -/

inductive Call where
  | staticInit
  | probeCanPlay
  | create (created : Bool)
  | openSong (opened : Bool)
  | readData (requested : UInt32) (reply : Reply)
  | close
  | destroy
  | staticDestroy
  | unload

/-- A plugin's state, and the calls made so far. -/
structure World (σ : Type*) where
  plugin : σ
  calls : List Call

namespace World

/-- Calls one of the static entries, if the plugin has it. -/
def static (world : World σ) (entry : Option (σ → σ)) (call : Call) : World σ :=
  match entry with
  | none => world
  | some entry => ⟨entry world.plugin, world.calls ++ [call]⟩

def staticInit (world : World σ) (plugin : Plugin σ) : World σ :=
  world.static plugin.staticInit .staticInit

def staticDestroy (world : World σ) (plugin : Plugin σ) : World σ :=
  world.static plugin.staticDestroy .staticDestroy

def probeCanPlay (world : World σ) (plugin : Plugin σ) (data : List UInt8) (url : String) :
    ProbeResult × World σ :=
  let answer := plugin.probeCanPlay data url world.plugin
  (answer.1, ⟨answer.2, world.calls ++ [.probeCanPlay]⟩)

def create (world : World σ) (plugin : Plugin σ) : Bool × World σ :=
  let answer := plugin.create world.plugin
  (answer.1, ⟨answer.2, world.calls ++ [.create answer.1]⟩)

def destroy (world : World σ) (plugin : Plugin σ) : Bool × World σ :=
  let answer := plugin.destroy world.plugin
  (answer.1, ⟨answer.2, world.calls ++ [.destroy]⟩)

def openSong (world : World σ) (plugin : Plugin σ) (url : String) : Bool × World σ :=
  let answer := plugin.openSong url world.plugin
  (answer.1, ⟨answer.2, world.calls ++ [.openSong answer.1]⟩)

def close (world : World σ) (plugin : Plugin σ) : World σ :=
  ⟨plugin.close world.plugin, world.calls ++ [.close]⟩

def readData (world : World σ) (plugin : Plugin σ) (requested : UInt32) : Reply × World σ :=
  let answer := plugin.readData requested world.plugin
  (answer.1, ⟨answer.2, world.calls ++ [.readData requested answer.1]⟩)

def unload (world : World σ) : World σ := { world with calls := world.calls ++ [.unload] }

/-- What is done with an instance and its library at the end; whether `destroy` returned 0. -/
def tearDown (world : World σ) (plugin : Plugin σ) : Bool × World σ :=
  let destroyed := world.destroy plugin
  (destroyed.1, (destroyed.2.staticDestroy plugin).unload)

end World

/-! ## Loading -/

/-- Creates and destroys so many instances; whether all went well. -/
def createAndDestroy (plugin : Plugin σ) : Nat → World σ → Bool × World σ
  | 0, world => (true, world)
  | n + 1, world =>
      let created := world.create plugin
      if created.1 = false then (false, created.2)
      else
        let destroyed := created.2.destroy plugin
        if destroyed.1 = false then (false, destroyed.2)
        else createAndDestroy plugin n destroyed.2

/-- Loads a library so many times; the exit code, and what was called. `file` is nothing where the
library cannot be loaded, and holds nothing where it gives no plugin. -/
def loadCycle (file : Option (Option (Exports σ))) : Nat → World σ → Nat × World σ
  | 0, world => (0, world)
  | n + 1, world =>
      match file with
      | none => (1, world)
      | some exports =>
          match exports.bind pluginGetChecked with
          | none => (1, world.unload)
          | some plugin =>
              let done := createAndDestroy plugin createCycles (world.staticInit plugin)
              if done.1 = false then (1, done.2)
              else loadCycle file n (done.2.staticDestroy plugin).unload

def cmdLoad (file : Option (Option (Exports σ))) (start : σ) : Nat × World σ :=
  loadCycle file loadCycles ⟨start, []⟩

/-! ## Playing -/

/-- A song that is being decoded. -/
structure Playing (σ : Type*) where
  world : World σ
  decodedSeconds : ℚ := 0
  peak : ℚ := 0
  reopens : Nat := 0
  stalledReads : Nat := 0
  reads : Nat := 0
  failed : Bool := false

/-- How a pass of the loop ends: with another, by leaving it, or past the end of the buffer. -/
inductive Turn (σ : Type*) where
  | again (playing : Playing σ)
  | left (playing : Playing σ)
  | overrun (playing : Playing σ)

/-- How the loop ends. -/
inductive Ending (σ : Type*) where
  | stopped (playing : Playing σ)
  | overrun (playing : Playing σ)

namespace Playing

def fail (playing : Playing σ) : Playing σ := { playing with failed := true }

/-- Opens the song that was closed once more. -/
def reopen (playing : Playing σ) (plugin : Plugin σ) (fixture : String) : Turn σ :=
  let playing := { playing with reopens := playing.reopens + 1 }
  if maxReopens < playing.reopens then .left playing.fail
  else
    let reopened := playing.world.openSong plugin fixture
    if reopened.1 = false then .left { playing.fail with world := reopened.2 }
    else .again { playing with world := reopened.2 }

def close (playing : Playing σ) (plugin : Plugin σ) : Playing σ :=
  { playing with world := playing.world.close plugin }

/-- Takes a block of audio in. -/
def hear (playing : Playing σ) (info : ReadInfo) (blockPeak : ℚ) : Playing σ :=
  { playing with
    stalledReads := 0
    peak := if playing.peak < blockPeak then blockPeak else playing.peak
    decodedSeconds := playing.decodedSeconds + info.frameCount.toNat / info.sampleRate.toNat }

/-- How many frames the next read asks for. -/
def requested (playing : Playing σ) : UInt32 :=
  if playing.reads % 2 = 1 then smallReadFrames else readFrames

/-- One pass of the loop. -/
def turn (playing : Playing σ) (plugin : Plugin σ) (fixture : String) (target : ℚ)
    (float : Nat → ℚ) : Turn σ :=
  let requested := playing.requested
  let read := playing.world.readData plugin requested
  let info := read.1.info
  let playing := { playing with world := read.2, reads := playing.reads + 1 }
  if requested < info.frameCount then .left playing.fail
  else if info.status = .error then .left playing.fail
  else if info.status = .decodingRequest ∨ info.frameCount = 0 then
    if info.status = .finished then (playing.close plugin).reopen plugin fixture
    else
      let playing := { playing with stalledReads := playing.stalledReads + 1 }
      if maxStalledReads < playing.stalledReads then .left playing.fail
      else .again playing
  else if info.formatFrameBytes = 0 ∨ info.sampleRate = 0 then
    .left { playing.fail with stalledReads := 0 }
  else if readBufferBytes < info.frameCount.toNat * info.formatFrameBytes.toNat then
    .left { playing.fail with stalledReads := 0 }
  else match samplePeak float read.1 with
    | none => .overrun { playing with stalledReads := 0 }
    | some blockPeak =>
        let playing := playing.hear info blockPeak
        if info.status = .finished then
          let playing := playing.close plugin
          if target ≤ playing.decodedSeconds then .left playing
          else playing.reopen plugin fixture
        else .again playing

/-- Decodes until the target is reached; `none` where the fuel does not suffice. -/
def decode (plugin : Plugin σ) (fixture : String) (target : ℚ) (float : Nat → ℚ) :
    Nat → Playing σ → Option (Ending σ)
  | 0, _ => none
  | fuel + 1, playing =>
      if playing.decodedSeconds < target then
        match playing.turn plugin fixture target float with
        | .again playing => decode plugin fixture target float fuel playing
        | .left playing => some (.stopped playing)
        | .overrun playing => some (.overrun playing)
      else some (.stopped playing)

/-- What is done after the loop; the exit code, and what was called. -/
def finish (playing : Playing σ) (plugin : Plugin σ) (target : ℚ) : Nat × World σ :=
  let world := if playing.failed = false ∧ target ≤ playing.decodedSeconds
    then playing.world.close plugin else playing.world
  let done := world.tearDown plugin
  if playing.failed = true ∨ done.1 = false then (1, done.2)
  else if playing.peak < silenceThreshold then (1, done.2)
  else (0, done.2)

end Playing

/-- How the command ends: with an exit code, or in a read past the end of the buffer. -/
inductive Exit where
  | code (status : Nat)
  | overrun
deriving DecidableEq

/-- What the command comes to once the loop has ended. -/
def Ending.conclude (plugin : Plugin σ) (target : ℚ) : Ending σ → Exit × World σ
  | .stopped playing => ((.code (playing.finish plugin target).1), (playing.finish plugin target).2)
  | .overrun playing => (.overrun, playing.world)

/-- Plays a fixture. `data` is the fixture's content, if it can be read. -/
def cmdPlay (fuel : Nat) (file : Option (Option (Exports σ))) (fixture : String)
    (data : Option (List UInt8)) (target : ℚ) (float : Nat → ℚ) (start : σ) :
    Option (Exit × World σ) :=
  match file.join.bind pluginGetChecked with
  | none => some (.code 1, ⟨start, []⟩)
  | some plugin =>
      let world := World.staticInit ⟨start, []⟩ plugin
      match data with
      | none => some (.code 1, world)
      | some data =>
          let probed := world.probeCanPlay plugin data fixture
          if probed.1 = .unsupported then some (.code 1, probed.2)
          else
            let created := probed.2.create plugin
            if created.1 = false then some (.code 1, created.2)
            else
              let opened := created.2.openSong plugin fixture
              if opened.1 = false then some (.code 1, opened.2)
              else (Playing.decode plugin fixture target float fuel { world := opened.2 }).map
                (Ending.conclude plugin target)

end Host

/-! ## Samples within the buffer -/

/-- A read that gives audio which the host takes in. -/
@[mk_iff]
structure Heard (requested : UInt32) (info : ReadInfo) : Prop where
  within : info.frameCount ≤ requested
  sound : info.status ≠ .error
  decoded : info.status ≠ .decodingRequest
  some : info.frameCount ≠ 0
  framed : info.formatFrameBytes ≠ 0
  timed : info.sampleRate ≠ 0
  fits : info.frameCount.toNat * info.formatFrameBytes.toNat ≤ readBufferBytes

instance (requested : UInt32) (info : ReadInfo) : Decidable (Heard requested info) :=
  decidable_of_iff _ (heard_iff requested info).symm

/-- Where a plugin is in its life: just loaded, without an instance, with one, with one that has a
song open, and torn down. -/
inductive Life where
  | fresh
  | ready
  | created
  | opened
  | down
deriving DecidableEq

/-- Where a call leads; `none` if it is out of order. -/
def Life.after : Life → Call → Option Life
  | fresh, .staticInit => some ready
  | fresh, .probeCanPlay | ready, .probeCanPlay => some ready
  | fresh, .create done | ready, .create done => some (if done then created else ready)
  | created, .openSong done => some (if done then opened else created)
  | opened, .readData _ _ => some opened
  | opened, .close => some created
  | created, .destroy | opened, .destroy => some ready
  | fresh, .staticDestroy | ready, .staticDestroy => some down
  | fresh, .unload | ready, .unload | down, .unload => some fresh
  | _, _ => none

/-- Where calls lead, if each is in order. -/
def Life.follow (life : Life) (calls : List Call) : Option Life := calls.foldlM Life.after life

theorem Life.follow_snoc (life : Life) (calls : List Call) (call : Call) :
    life.follow (calls ++ [call]) = (life.follow calls).bind fun later => later.after call := by
  simp only [Life.follow, List.foldlM_append, List.foldlM_cons, List.foldlM_nil, bind_pure]
  rfl

/-- What a call asks for and gets, if it is a read. -/
def Call.read? : Call → Option (UInt32 × Reply)
  | readData requested reply => some (requested, reply)
  | _ => none

def readsOf (calls : List Call) : List (UInt32 × Reply) := calls.filterMap Call.read?

/-- The seconds that a read adds. -/
def seconds (read : UInt32 × Reply) : ℚ :=
  if Heard read.1 read.2.info then
    read.2.info.frameCount.toNat / read.2.info.sampleRate.toNat
  else 0

/-- The seconds that are decoded in all. -/
def secondsOf (calls : List Call) : ℚ := ((readsOf calls).map seconds).sum

/-- Whether the last read of all finished the song. -/
def EndsFinished (calls : List Call) : Prop :=
  ∃ read, (readsOf calls).getLast? = some read ∧ read.2.info.status = .finished

/-- Whether a block that was taken in has its largest sample of this magnitude. -/
def Sounds (float : Nat → ℚ) (calls : List Call) (peak : ℚ) : Prop :=
  ∃ read ∈ readsOf calls, Heard read.1 read.2.info ∧ samplePeak float read.2 = some peak

/-- A read that gives no more frames than it was asked for, and no error. -/
def Mild (read : UInt32 × Reply) : Prop :=
  read.2.info.frameCount ≤ read.1 ∧ read.2.info.status ≠ .error

/-- How often a song is opened, or is tried to. -/
def opensOf (calls : List Call) : Nat :=
  calls.countP fun
    | .openSong _ => true
    | _ => false

section Loading

variable {σ : Type*}

/-! ## Loading -/

/-- Which instances are created, by whether there was one. -/
def createdIn (calls : List Call) : List Bool :=
  calls.filterMap fun
    | .create created => some created
    | _ => none

theorem createdIn_append (calls more : List Call) :
    createdIn (calls ++ more) = createdIn calls ++ createdIn more := List.filterMap_append ..

/-- A plugin that has no instance. -/
def Life.Bare (life : Life) : Prop := life = .fresh ∨ life = .ready

/-- What calls add to those made before: they are in order where there is no instance, leave none,
and create so many. -/
structure Adds (before : World σ) (created : Option Nat) (after : World σ) : Prop where
  follows : ∀ life : Life, life.Bare → Life.fresh.follow before.calls = some life →
    ∃ later : Life, later.Bare ∧ Life.fresh.follow after.calls = some later
  creates : ∀ n, created = some n →
    createdIn after.calls = createdIn before.calls ++ List.replicate n true

theorem Adds.trans {first second third : World σ} {n : Nat} {created : Option Nat}
    (earlier : Adds first (some n) second) (later : Adds second created third) :
    Adds first (created.map (n + ·)) third where
  follows life bare follows := by
    obtain ⟨next, bare, follows⟩ := earlier.follows life bare follows
    exact later.follows next bare follows
  creates m same := by
    obtain ⟨k, rfl, rfl⟩ := Option.map_eq_some_iff.mp same
    rw [later.creates k rfl, earlier.creates n rfl, List.append_assoc,
      List.replicate_append_replicate]

theorem adds_create_destroy (plugin : Plugin σ) (world : World σ)
    (created : (world.create plugin).1 = true) :
    Adds world (some 1) ((world.create plugin).2.destroy plugin).2 where
  follows life bare follows := by
    have calls : ((world.create plugin).2.destroy plugin).2.calls =
        world.calls ++ [.create true] ++ [.destroy] := by
      rw [← created]
      rfl
    refine ⟨.ready, .inr rfl, ?_⟩
    rw [calls, Life.follow_snoc, Life.follow_snoc, follows]
    obtain rfl | rfl := bare
    · rfl
    · rfl
  creates n same := by
    obtain rfl := Option.some.inj same
    have calls : ((world.create plugin).2.destroy plugin).2.calls =
        world.calls ++ [.create true, .destroy] := by
      rw [← created]
      exact List.append_assoc ..
    rw [calls, createdIn_append]
    rfl

theorem createAndDestroy_adds (plugin : Plugin σ) (n : Nat) (world : World σ) :
    Adds world (if (createAndDestroy plugin n world).1 = true then some n else none)
      (createAndDestroy plugin n world).2 := by
  induction n generalizing world with
  | zero => exact ⟨fun life bare follows => ⟨life, bare, follows⟩, fun n same => by
      obtain rfl := Option.some.inj same
      exact (List.append_nil _).symm⟩
  | succ n ih =>
      cases created : (world.create plugin).1 with
      | false =>
          have stepped : createAndDestroy plugin (n + 1) world =
              (false, (world.create plugin).2) := by simp [createAndDestroy, created]
          have calls : (world.create plugin).2.calls = world.calls ++ [.create false] := by
            rw [← created]
            rfl
          rw [stepped]
          refine ⟨fun life bare follows => ⟨.ready, .inr rfl, ?_⟩, fun n same => by cases same⟩
          rw [calls, Life.follow_snoc, follows]
          obtain rfl | rfl := bare
          · rfl
          · rfl
      | true =>
          have adds := adds_create_destroy plugin world created
          cases destroyed : ((world.create plugin).2.destroy plugin).1 with
          | false =>
              have stepped : createAndDestroy plugin (n + 1) world =
                  (false, ((world.create plugin).2.destroy plugin).2) := by
                simp [createAndDestroy, created, destroyed]
              rw [stepped]
              exact ⟨adds.follows, fun n same => by cases same⟩
          | true =>
              have stepped : createAndDestroy plugin (n + 1) world =
                  createAndDestroy plugin n ((world.create plugin).2.destroy plugin).2 := by
                simp [createAndDestroy, created, destroyed]
              have whole := adds.trans (ih ((world.create plugin).2.destroy plugin).2)
              rw [stepped]
              rw [apply_ite (Option.map (1 + ·)), Option.map_some, Nat.add_comm 1] at whole
              exact whole

/-- The static entries create nothing, and leave no instance. -/
theorem follow_static {world : World σ} {call : Call} (entry : Option (σ → σ))
    {life later : Life} (follows : Life.fresh.follow world.calls = some life)
    (inOrder : life.after call = some later) (other : createdIn [call] = []) :
    (Life.fresh.follow (world.static entry call).calls = some life ∨
      Life.fresh.follow (world.static entry call).calls = some later) ∧
    createdIn (world.static entry call).calls = createdIn world.calls := by
  unfold World.static
  cases entry with
  | none => exact ⟨.inl follows, rfl⟩
  | some entry =>
      refine ⟨.inr ?_, ?_⟩
      · dsimp only
        rw [Life.follow_snoc, follows, Option.bind_some, inOrder]
      · exact (createdIn_append ..).trans (by rw [other, List.append_nil])

/-- Cycles keep to the order of calls and leave no instance, and where they pass each has created
all its instances. -/
theorem loadCycle_in_order (file : Option (Option (Exports σ))) (n : Nat) (world : World σ)
    (fresh : Life.fresh.follow world.calls = some .fresh) :
    (∃ life : Life, life.Bare ∧
      Life.fresh.follow (loadCycle file n world).2.calls = some life) ∧
    ((loadCycle file n world).1 = 0 → createdIn (loadCycle file n world).2.calls =
      createdIn world.calls ++ List.replicate (n * createCycles) true) := by
  induction n generalizing world with
  | zero =>
      refine ⟨⟨.fresh, .inl rfl, fresh⟩, fun _ => ?_⟩
      rw [Nat.zero_mul]
      exact (List.append_nil _).symm
  | succ n ih =>
      unfold loadCycle
      cases file with
      | none => exact ⟨⟨.fresh, .inl rfl, fresh⟩, fun code => by cases code⟩
      | some exports =>
          dsimp only
          cases exports.bind pluginGetChecked with
          | none =>
              refine ⟨⟨.fresh, .inl rfl, ?_⟩, fun code => by cases code⟩
              exact (Life.follow_snoc ..).trans (by rw [fresh]; rfl)
          | some plugin =>
              dsimp only
              have inOrder : Life.fresh.after .staticInit = some .ready := rfl
              obtain ⟨inited, same⟩ := follow_static plugin.staticInit fresh inOrder rfl
              change Life.fresh.follow (world.staticInit plugin).calls = _ ∨
                Life.fresh.follow (world.staticInit plugin).calls = _ at inited
              change createdIn (world.staticInit plugin).calls = _ at same
              have adds := createAndDestroy_adds plugin createCycles (world.staticInit plugin)
              generalize world.staticInit plugin = begun at inited same adds
              obtain ⟨life, bare, follows⟩ : ∃ life : Life, life.Bare ∧
                  Life.fresh.follow begun.calls = some life := inited.elim
                (fun follows => ⟨.fresh, .inl rfl, follows⟩)
                (fun follows => ⟨.ready, .inr rfl, follows⟩)
              obtain ⟨life, bare, follows⟩ := adds.follows life bare follows
              cases done : (createAndDestroy plugin createCycles begun).1 with
              | false => exact ⟨⟨life, bare, follows⟩, fun code => by cases code⟩
              | true =>
                  rw [if_pos done] at adds
                  rw [if_neg (by simp)]
                  have inOrder : life.after .staticDestroy = some .down := by
                    obtain rfl | rfl := bare
                    · rfl
                    · rfl
                  obtain ⟨torn, kept⟩ :=
                    follow_static plugin.staticDestroy follows inOrder rfl
                  generalize createAndDestroy plugin createCycles begun = ended at *
                  change Life.fresh.follow (ended.2.staticDestroy plugin).calls = _ ∨
                    Life.fresh.follow (ended.2.staticDestroy plugin).calls = _ at torn
                  change createdIn (ended.2.staticDestroy plugin).calls = _ at kept
                  have unloaded : Life.fresh.follow
                      (ended.2.staticDestroy plugin).unload.calls = some .fresh := by
                    refine (Life.follow_snoc ..).trans ?_
                    obtain follows | follows := torn
                    · rw [follows]
                      obtain rfl | rfl := bare
                      · rfl
                      · rfl
                    · rw [follows]
                      rfl
                  obtain ⟨order, created⟩ := ih _ unloaded
                  refine ⟨order, fun code => (created code).trans ?_⟩
                  have count : createdIn (ended.2.staticDestroy plugin).unload.calls =
                      createdIn world.calls ++ List.replicate createCycles true := by
                    refine (createdIn_append ..).trans ?_
                    rw [kept, adds.creates _ rfl, same]
                    exact List.append_nil _
                  rw [count, List.append_assoc, List.replicate_append_replicate, Nat.succ_mul,
                    Nat.add_comm]

/-- **Loading keeps to the order of calls**, whatever the plugin answers, and leaves no instance;
and where it passes, every cycle has created all its instances. -/
theorem loading_in_order (file : Option (Option (Exports σ))) (start : σ) :
    (∃ life : Life, (life = .fresh ∨ life = .ready) ∧
      Life.fresh.follow (cmdLoad file start).2.calls = some life) ∧
    ((cmdLoad file start).1 = 0 → createdIn (cmdLoad file start).2.calls =
      List.replicate (loadCycles * createCycles) true) :=
  loadCycle_in_order file loadCycles ⟨start, []⟩ rfl

end Loading

end Retrovert.RvHost
