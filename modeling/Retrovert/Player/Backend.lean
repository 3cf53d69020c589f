import Mathlib.Algebra.Group.Int.Defs
import Retrovert.Bridge.Worker

/-!
# Seeking, and the position that is reported

A session counts the frames it has put out, and the position is that count in milliseconds. A
seek sets the count back from the time that the decoder says it reached. Each way is a division
that truncates, so the position after a seek is the time reached, or one millisecond before it
where the rate is not a whole number of frames in a millisecond; and rendering only ever adds to
the count (`seek_and_position_agree`).

The decoder is a parameter: what a seek reaches, and what a read produces.
-/

set_option autoImplicit false

namespace Retrovert.Player

open Retrovert.Bridge (PlaybackStatus)

/-! ## 64-bit numbers -/

def maxU64 : Nat := 2 ^ 64 - 1

def saturatingAdd (first second : Nat) : Nat := min (first + second) maxU64

def saturatingMul (first second : Nat) : Nat := min (first * second) maxU64

/-- A 64-bit count as an `i64`, if it is one. -/
def toI64? (count : Nat) : Option Int := if count < 2 ^ 63 then some count else none

/-! ## The backend -/

/-- A mounted song, as far as its position goes. -/
structure Session where
  status : PlaybackStatus
  outputFrame : Nat
deriving DecidableEq

structure PlayerBackend where
  sampleRate : Nat
  maxFrames : Nat
  session : Option Session
deriving DecidableEq

/-- What one read of the decoder produced. -/
structure Chunk where
  frames : Nat
  finished : Bool

namespace PlayerBackend

/-- Render so many frames; `read` is what the decoder makes of a read, `none` an error. -/
def render (backend : PlayerBackend) (frames : Nat) (read : Nat → Option Chunk) : PlayerBackend :=
  match backend.session with
  | none => backend
  | some session =>
      if session.status ≠ .playing ∨ frames = 0 then backend
      else match read (min frames backend.maxFrames) with
        | none => backend
        | some chunk =>
            { backend with
              session := some
                { status := if chunk.finished then .finished else session.status
                  outputFrame := saturatingAdd session.outputFrame chunk.frames } }

/-- Seek; `reach` is the time that the decoder reaches, if it can seek. -/
def seek (backend : PlayerBackend) (positionMs : Int) (reach : Int → Option Int) :
    Option Int × PlayerBackend :=
  match backend.session with
  | none => (none, backend)
  | some session =>
      match reach positionMs with
      | none => (none, backend)
      | some reached =>
          (some reached,
            { backend with
              session := some
                { status := if session.status = .finished then .playing else session.status
                  outputFrame := saturatingMul reached.toNat backend.sampleRate / 1000 } })

/-- The position that is reported. -/
def positionMs (backend : PlayerBackend) : Option Int :=
  backend.session.bind fun session =>
    if backend.sampleRate = 0 then some 0
    else toI64? (saturatingMul session.outputFrame 1000 / backend.sampleRate)

/-- Renders one after another. -/
def renders (backend : PlayerBackend) (calls : List (Nat × (Nat → Option Chunk))) : PlayerBackend :=
  calls.foldl (fun backend call => backend.render call.1 call.2) backend

end PlayerBackend

theorem PlayerBackend.renders_append (backend : PlayerBackend)
    (earlier later : List (Nat × (Nat → Option Chunk))) :
    backend.renders (earlier ++ later) = (backend.renders earlier).renders later :=
  List.foldl_append ..

/-! ## There and back -/

/-- Milliseconds that are turned into frames and back are the same, or one fewer. -/
theorem milliseconds_back {reached rate : Nat} (fast : 1000 ≤ rate) :
    reached * rate / 1000 * 1000 / rate = reached ∨
      reached * rate / 1000 * 1000 / rate + 1 = reached := by
  have positive : 0 < rate := by omega
  have split := Nat.div_add_mod (reached * rate) 1000
  have rest := Nat.mod_lt (reached * rate) (by decide : 0 < 1000)
  have upper : reached * rate / 1000 * 1000 / rate ≤ reached := by
    have := Nat.div_le_div_right (c := rate) (Nat.div_mul_le_self (reached * rate) 1000)
    rwa [Nat.mul_div_cancel _ positive] at this
  cases reached with
  | zero => exact .inl (Nat.le_zero.mp upper)
  | succ earlier =>
      have lower : earlier ≤ (earlier + 1) * rate / 1000 * 1000 / rate := by
        rw [Nat.le_div_iff_mul_le positive]
        rw [Nat.add_mul, Nat.one_mul] at split rest ⊢
        omega
      omega

/-- Where a millisecond is a whole number of frames, nothing is lost. -/
theorem milliseconds_back_of_dvd {reached rate : Nat} (fast : 1000 ≤ rate) (whole : 1000 ∣ rate) :
    reached * rate / 1000 * 1000 / rate = reached := by
  rw [Nat.div_mul_cancel (Nat.dvd_mul_left_of_dvd whole reached), Nat.mul_div_cancel _ (by omega)]

section Positions

variable {backend : PlayerBackend} {session : Session}

/-- The position is the count in milliseconds, and never too large to be reported. -/
theorem positionMs_eq (mounted : backend.session = some session) (fast : 1000 ≤ backend.sampleRate) :
    backend.positionMs =
      some ((saturatingMul session.outputFrame 1000 / backend.sampleRate : Nat) : Int) := by
  have small : saturatingMul session.outputFrame 1000 / backend.sampleRate < 2 ^ 63 := by
    rw [Nat.div_lt_iff_lt_mul (by omega)]
    have capped : saturatingMul session.outputFrame 1000 ≤ maxU64 := Nat.min_le_right ..
    have wide : 2 ^ 63 * 1000 ≤ 2 ^ 63 * backend.sampleRate := Nat.mul_le_mul_left _ fast
    exact Nat.lt_of_le_of_lt capped (Nat.lt_of_lt_of_le (by decide) wide)
  rw [PlayerBackend.positionMs, mounted, Option.bind_some, if_neg (by omega), toI64?, if_pos small]

/-- A render leaves the rate, and the position where it is or further on. -/
theorem render_forward (mounted : backend.session = some session) (frames : Nat)
    (read : Nat → Option Chunk) : ∃ later, (backend.render frames read).session = some later ∧
      (backend.render frames read).sampleRate = backend.sampleRate ∧
      min session.outputFrame maxU64 ≤ later.outputFrame := by
  rw [PlayerBackend.render, mounted]
  dsimp only
  split
  · exact ⟨session, mounted, rfl, Nat.min_le_left ..⟩
  · split
    · exact ⟨session, mounted, rfl, Nat.min_le_left ..⟩
    · refine ⟨_, rfl, rfl, ?_⟩
      show min session.outputFrame maxU64 ≤ saturatingAdd session.outputFrame _
      rw [saturatingAdd]
      omega

theorem renders_forward (calls : List (Nat × (Nat → Option Chunk))) :
    ∀ {backend : PlayerBackend} {session : Session}, backend.session = some session →
      ∃ later, (backend.renders calls).session = some later ∧
        (backend.renders calls).sampleRate = backend.sampleRate ∧
        min session.outputFrame maxU64 ≤ later.outputFrame := by
  induction calls with
  | nil => exact fun mounted => ⟨_, mounted, rfl, Nat.min_le_left ..⟩
  | cons call rest ih =>
      intro backend session mounted
      obtain ⟨next, mounted', rate, forward⟩ := render_forward mounted call.1 call.2
      obtain ⟨later, last, rate', forward'⟩ := ih mounted'
      refine ⟨later, last, rate'.trans rate, ?_⟩
      omega

/-- Rendering never moves the position back. -/
theorem positionMs_renders (mounted : backend.session = some session)
    (fast : 1000 ≤ backend.sampleRate) (calls : List (Nat × (Nat → Option Chunk))) :
    ∃ before after, backend.positionMs = some before ∧
      (backend.renders calls).positionMs = some after ∧ before ≤ after := by
  obtain ⟨later, mounted', rate, forward⟩ := renders_forward calls mounted
  refine ⟨_, _, positionMs_eq mounted fast, positionMs_eq mounted' (rate.symm ▸ fast), ?_⟩
  rw [rate]
  refine Int.ofNat_le.mpr (Nat.div_le_div_right ?_)
  rw [saturatingMul, saturatingMul]
  have top : maxU64 ≤ maxU64 * 1000 := Nat.le_mul_of_pos_right _ (by decide)
  omega

/-- **Seeking and the reported position agree.** After a seek to which the decoder answers with
the time it reached, at a rate of at least 1000 and as long as the product of the two fits in 64
bits, the position reported is that time or one millisecond less, and just that time if 1000
divides the rate. A time below zero counts as zero. And of any renders after the seek, whatever
they ask for and produce, later ones never report an earlier position. -/
theorem seek_and_position_agree (mounted : backend.session = some session)
    (fast : 1000 ≤ backend.sampleRate) {asked reached : Int} {reach : Int → Option Int}
    (answered : reach asked = some reached) (fits : reached * backend.sampleRate < 2 ^ 64) :
    (backend.seek asked reach).1 = some reached ∧
      (∃ position, (backend.seek asked reach).2.positionMs = some position ∧
        (position = max reached 0 ∨ position = max reached 0 - 1) ∧
        (1000 ∣ backend.sampleRate → position = max reached 0)) ∧
      ∀ earlier later, ∃ before after,
        ((backend.seek asked reach).2.renders earlier).positionMs = some before ∧
          ((backend.seek asked reach).2.renders (earlier ++ later)).positionMs = some after ∧
          before ≤ after := by
  have small : reached.toNat * backend.sampleRate ≤ maxU64 := by
    rcases Int.le_total 0 reached with ahead | before
    · obtain ⟨count, rfl⟩ := Int.eq_ofNat_of_zero_le ahead
      have product : count * backend.sampleRate < 2 ^ 64 := by exact_mod_cast fits
      exact Nat.le_sub_one_of_lt product
    · rw [Int.toNat_of_nonpos before, Nat.zero_mul]
      exact Nat.zero_le _
  let rebased : Session :=
    { status := if session.status = .finished then .playing else session.status
      outputFrame := saturatingMul reached.toNat backend.sampleRate / 1000 }
  have sought : backend.seek asked reach =
      (some reached, { backend with session := some rebased }) := by
    rw [PlayerBackend.seek, mounted]
    dsimp only
    rw [answered]
  have counted : saturatingMul rebased.outputFrame 1000 =
      reached.toNat * backend.sampleRate / 1000 * 1000 := by
    have product : rebased.outputFrame = reached.toNat * backend.sampleRate / 1000 :=
      congrArg (· / 1000) (Nat.min_eq_left small)
    rw [product]
    exact Nat.min_eq_left (Nat.le_trans (Nat.div_mul_le_self ..) small)
  have mounted' : PlayerBackend.session { backend with session := some rebased } = some rebased :=
    rfl
  have position : PlayerBackend.positionMs { backend with session := some rebased } =
      some ((reached.toNat * backend.sampleRate / 1000 * 1000 / backend.sampleRate : Nat) : Int) := by
    rw [positionMs_eq mounted' fast, counted]
  rw [sought, ← Int.ofNat_toNat]
  refine ⟨rfl, ⟨_, position, ?_, fun whole => ?_⟩, fun earlier later => ?_⟩
  · have back := @milliseconds_back reached.toNat backend.sampleRate fast
    generalize reached.toNat * backend.sampleRate / 1000 * 1000 / backend.sampleRate = frames at back
    omega
  · exact congrArg Int.ofNat (milliseconds_back_of_dvd fast whole)
  · obtain ⟨next, mounted'', rate, -⟩ := renders_forward earlier mounted'
    have further := positionMs_renders mounted'' (rate.symm ▸ fast) later
    rwa [← PlayerBackend.renders_append] at further

end Positions

/-- A backend with a song mounted. -/
def mountedAt (sampleRate : Nat) : PlayerBackend := ⟨sampleRate, 4096, some ⟨.playing, 0⟩⟩

/-- A seek to one millisecond, of which eleven frames are too few by a little. -/
theorem seek_and_position_agree_truncated :
    ∃ position, ((mountedAt 11025).seek 1 some).2.positionMs = some position ∧
      (position = 1 ∨ position = 0) := by
  have mounted : (mountedAt 11025).session = some ⟨.playing, 0⟩ := rfl
  have answered : (some : Int → Option Int) 1 = some 1 := rfl
  obtain ⟨-, ⟨position, reported, near, -⟩, -⟩ :=
    seek_and_position_agree mounted (by decide) answered (by decide)
  exact ⟨position, reported, near⟩

end Retrovert.Player
