import Mathlib.Data.Rat.Floor
import Mathlib.Tactic.Linarith
import Retrovert.Harness.Smoke

/-!
# Playing a fixture

The validation host plays a fixture in a loop: it reads a block, gives up, waits, opens the song
once more, or takes the block in. `Turns` is all that a pass can do, and `Counts` what it keeps.

The host calls the plugin in the interface's order but for one call: a song whose last block
reaches the target is closed twice (`calls_in_order`). It comes to an end whatever the plugin does
(`playing_ends`), and what it lets pass was decoded within the buffer, to the target, and is heard
(`passed_was_heard`).
-/

set_option autoImplicit false

namespace Retrovert.RvHost

section Decoding

variable {σ : Type*} {plugin : Plugin σ} {fixture : String} {target : ℚ} {float : Nat → ℚ}
  {playing : Playing σ}

/-! ## One pass -/

/-- The read of a pass. -/
def Playing.reply (playing : Playing σ) (plugin : Plugin σ) : Reply :=
  (playing.world.readData plugin playing.requested).1

/-- What is left to do after the read of a pass. -/
def Playing.afterRead (playing : Playing σ) (plugin : Plugin σ) : Playing σ :=
  { playing with
    world := (playing.world.readData plugin playing.requested).2
    reads := playing.reads + 1 }

/-- How opening a song once more ends. -/
inductive Reopens (plugin : Plugin σ) (fixture : String) (playing : Playing σ) : Turn σ → Prop
  | spent {later : Playing σ} (failed : later.failed = true) (world : later.world = playing.world) :
      Reopens plugin fixture playing (.left later)
  | refused {later : Playing σ} (failed : later.failed = true)
      (few : playing.reopens + 1 ≤ maxReopens)
      (refused : (playing.world.openSong plugin fixture).1 = false)
      (world : later.world = (playing.world.openSong plugin fixture).2) :
      Reopens plugin fixture playing (.left later)
  | reopened (few : playing.reopens + 1 ≤ maxReopens)
      (opened : (playing.world.openSong plugin fixture).1 = true) :
      Reopens plugin fixture playing (.again { playing with
        reopens := playing.reopens + 1
        world := (playing.world.openSong plugin fixture).2 })

theorem reopens (playing : Playing σ) : Reopens plugin fixture playing
    (playing.reopen plugin fixture) := by
  rw [Playing.reopen]
  dsimp only
  split
  · exact .spent rfl rfl
  · rename_i few
    have few := Nat.not_lt.mp few
    split
    · rename_i refused
      exact .refused rfl few refused rfl
    · rename_i opened
      exact .reopened few (Bool.of_not_eq_false opened)

/-- All that a pass of the loop can do. -/
inductive Turns (plugin : Plugin σ) (fixture : String) (target : ℚ) (float : Nat → ℚ)
    (playing : Playing σ) : Turn σ → Prop
  | refused {later : Playing σ}
      (unheard : ¬Heard playing.requested (playing.reply plugin).info)
      (failed : later.failed = true) (world : later.world = (playing.afterRead plugin).world) :
      Turns plugin fixture target float playing (.left later)
  | stalled (mild : Mild (playing.requested, playing.reply plugin))
      (unheard : ¬Heard playing.requested (playing.reply plugin).info)
      (few : playing.stalledReads + 1 ≤ maxStalledReads) :
      Turns plugin fixture target float playing
        (.again { playing.afterRead plugin with stalledReads := playing.stalledReads + 1 })
  | rewound {turn : Turn σ} (mild : Mild (playing.requested, playing.reply plugin))
      (unheard : ¬Heard playing.requested (playing.reply plugin).info)
      (reopens : Reopens plugin fixture ((playing.afterRead plugin).close plugin) turn) :
      Turns plugin fixture target float playing turn
  | overrun {later : Playing σ} (heard : Heard playing.requested (playing.reply plugin).info)
      (past : samplePeak float (playing.reply plugin) = none)
      (world : later.world = (playing.afterRead plugin).world) :
      Turns plugin fixture target float playing (.overrun later)
  | heard {blockPeak : ℚ} (heard : Heard playing.requested (playing.reply plugin).info)
      (peak : samplePeak float (playing.reply plugin) = some blockPeak)
      (goesOn : (playing.reply plugin).info.status ≠ .finished) :
      Turns plugin fixture target float playing
        (.again ((playing.afterRead plugin).hear (playing.reply plugin).info blockPeak))
  | ended {blockPeak : ℚ} (heard : Heard playing.requested (playing.reply plugin).info)
      (peak : samplePeak float (playing.reply plugin) = some blockPeak)
      (finished : (playing.reply plugin).info.status = .finished)
      (reached : target ≤
        ((playing.afterRead plugin).hear (playing.reply plugin).info blockPeak).decodedSeconds) :
      Turns plugin fixture target float playing
        (.left (((playing.afterRead plugin).hear (playing.reply plugin).info blockPeak).close
          plugin))
  | looped {blockPeak : ℚ} {turn : Turn σ}
      (heard : Heard playing.requested (playing.reply plugin).info)
      (peak : samplePeak float (playing.reply plugin) = some blockPeak)
      (short : ((playing.afterRead plugin).hear (playing.reply plugin).info
        blockPeak).decodedSeconds < target)
      (reopens : Reopens plugin fixture
        (((playing.afterRead plugin).hear (playing.reply plugin).info blockPeak).close plugin)
        turn) :
      Turns plugin fixture target float playing turn

theorem turns (plugin : Plugin σ) (fixture : String) (target : ℚ) (float : Nat → ℚ)
    (playing : Playing σ) : Turns plugin fixture target float playing
      (playing.turn plugin fixture target float) := by
  rw [Playing.turn]
  dsimp only
  split
  case isTrue beyond =>
    exact .refused (fun heard => absurd beyond (UInt32.not_lt.mpr heard.within)) rfl rfl
  case isFalse within =>
  split
  case isTrue error => exact .refused (fun heard => heard.sound error) rfl rfl
  case isFalse sound =>
  split
  case isTrue silent =>
    have mild : Mild (playing.requested, playing.reply plugin) :=
      ⟨UInt32.not_lt.mp within, sound⟩
    have unheard : ¬Heard playing.requested (playing.reply plugin).info := fun heard =>
      silent.elim heard.decoded heard.some
    split
    · exact .rewound mild unheard (reopens _)
    · split
      · exact .refused unheard rfl rfl
      · rename_i few
        exact .stalled mild unheard (Nat.not_lt.mp few)
  case isFalse audio =>
  obtain ⟨decoded, some⟩ := not_or.mp audio
  split
  case isTrue invalid =>
    exact .refused (fun heard => invalid.elim heard.framed heard.timed) rfl rfl
  case isFalse valid =>
  obtain ⟨framed, timed⟩ := not_or.mp valid
  split
  case isTrue wide => exact .refused (fun heard => absurd wide (Nat.not_lt.mpr heard.fits)) rfl rfl
  case isFalse fits =>
  have heard : Heard playing.requested (playing.reply plugin).info :=
    ⟨UInt32.not_lt.mp within, sound, decoded, some, framed, timed, Nat.not_lt.mp fits⟩
  split
  · rename_i past
    exact .overrun heard past rfl
  · rename_i blockPeak peak
    split
    · rename_i finished
      split
      · rename_i reached
        exact .ended heard peak finished reached
      · rename_i short
        exact .looped heard peak (lt_of_not_ge short) (reopens _)
    · rename_i goesOn
      exact .heard heard peak goesOn

/-! ## The loop -/

theorem secondsOf_read (calls : List Call) (requested : UInt32) (reply : Reply) :
    secondsOf (calls ++ [.readData requested reply]) =
      secondsOf calls + seconds (requested, reply) := by
  simp [secondsOf, readsOf, Call.read?]

theorem readsOf_snoc {call : Call} (other : call.read? = none) (calls : List Call) :
    readsOf (calls ++ [call]) = readsOf calls := by
  rw [readsOf, List.filterMap_append, List.filterMap_cons_none other, List.filterMap_nil,
    List.append_nil, readsOf]

theorem Sounds.mono {calls later : List Call} {peak : ℚ} (sounds : Sounds float calls peak)
    (grown : ∀ read ∈ readsOf calls, read ∈ readsOf later) : Sounds float later peak := by
  obtain ⟨read, member, heard, same⟩ := sounds
  exact ⟨read, grown read member, heard, same⟩

/-- What a song that is played has of the calls made for it, of which the last left the plugin
there. -/
structure Counts (life : Life) (float : Nat → ℚ) (playing : Playing σ) : Prop where
  life : Life.fresh.follow playing.world.calls = some life
  decoded : playing.decodedSeconds = secondsOf playing.world.calls
  unfailed : playing.failed = false
  opens : opensOf playing.world.calls = playing.reopens + 1
  few : playing.reopens ≤ maxReopens
  patient : playing.stalledReads ≤ maxStalledReads
  peak : playing.peak ≤ 0 ∨ Sounds float playing.world.calls playing.peak
  mild : ∀ read ∈ readsOf playing.world.calls, Mild read

/-- How the loop ends, in terms of the calls that were made. -/
inductive Ended (target : ℚ) (float : Nat → ℚ) : Ending σ → Prop
  | failed {playing : Playing σ} {life : Life} (failed : playing.failed = true)
      (still : life = .opened ∨ life = .created)
      (follows : Life.fresh.follow playing.world.calls = some life)
      (short : secondsOf playing.world.calls < target)
      (opens : opensOf playing.world.calls ≤ maxReopens + 1) : Ended target float (.stopped playing)
  | reached {playing : Playing σ} (counts : Counts .opened float playing)
      (reached : target ≤ playing.decodedSeconds)
      (goesOn : ¬EndsFinished playing.world.calls) : Ended target float (.stopped playing)
  | closed {playing : Playing σ} (counts : Counts .created float playing)
      (reached : target ≤ playing.decodedSeconds)
      (finished : EndsFinished playing.world.calls) : Ended target float (.stopped playing)
  | overrun {playing : Playing σ} {read : UInt32 × Reply}
      (follows : Life.fresh.follow playing.world.calls = some .opened)
      (opens : opensOf playing.world.calls ≤ maxReopens + 1)
      (last : (readsOf playing.world.calls).getLast? = some read)
      (heard : Heard read.1 read.2.info) (past : samplePeak float read.2 = none) :
      Ended target float (.overrun playing)

/-- What holds after a pass. -/
def After (target : ℚ) (float : Nat → ℚ) : Turn σ → Prop
  | .again playing => Counts .opened float playing ∧
      (target ≤ playing.decodedSeconds → ¬EndsFinished playing.world.calls)
  | .left playing => Ended target float (.stopped playing)
  | .overrun playing => Ended target float (.overrun playing)

theorem Counts.reopen (counts : Counts .created float playing)
    (short : playing.decodedSeconds < target) {turn : Turn σ}
    (reopens : Reopens plugin fixture playing turn) : After target float turn := by
  have follows : ∀ opened : Bool,
      Life.fresh.follow (playing.world.calls ++ [.openSong opened]) =
        some (if opened then .opened else .created) := by
    intro opened
    rw [Life.follow_snoc, counts.life]
    rfl
  have reads : ∀ opened : Bool,
      readsOf (playing.world.calls ++ [.openSong opened]) = readsOf playing.world.calls :=
    fun _ => readsOf_snoc rfl _
  have opens : ∀ opened : Bool, opensOf (playing.world.calls ++ [.openSong opened]) =
      playing.reopens + 1 + 1 := by
    intro opened
    rw [opensOf, List.countP_append, ← opensOf, counts.opens]
    rfl
  have seconds := counts.decoded
  cases reopens with
  | spent failed world =>
      refine Ended.failed failed (.inr rfl) (world ▸ counts.life) ?_ ?_
      · rw [world, ← seconds]
        exact short
      · rw [world, counts.opens]
        exact Nat.succ_le_succ counts.few
  | refused failed few refused world =>
      have calls : (playing.world.openSong plugin fixture).2.calls =
          playing.world.calls ++ [.openSong false] := by
        rw [← refused]
        rfl
      refine Ended.failed failed (.inr rfl) ?_ ?_ ?_
      · rw [world, calls, follows]
        rfl
      · rw [world, calls, secondsOf, reads, ← secondsOf, ← seconds]
        exact short
      · rw [world, calls, opens]
        omega
  | reopened few opened =>
      have calls : (playing.world.openSong plugin fixture).2.calls =
          playing.world.calls ++ [.openSong true] := by
        rw [← opened]
        rfl
      refine ⟨⟨?_, ?_, counts.unfailed, ?_, few, counts.patient, ?_, ?_⟩, ?_⟩
      · dsimp only
        rw [calls, follows]
        rfl
      · dsimp only
        rw [calls, secondsOf, reads, ← secondsOf, ← seconds]
      · dsimp only
        rw [calls, opens]
      · dsimp only
        rw [calls]
        exact counts.peak.imp_right fun sounds => sounds.mono fun read member =>
          (reads true).symm ▸ member
      · dsimp only
        rw [calls, reads]
        exact counts.mild
      · exact fun reached => absurd reached (not_le.mpr short)

/-- The calls after the read of a pass. -/
theorem calls_afterRead (playing : Playing σ) : (playing.afterRead plugin).world.calls =
    playing.world.calls ++ [.readData playing.requested (playing.reply plugin)] := rfl

theorem readsOf_read (calls : List Call) (requested : UInt32) (reply : Reply) :
    readsOf (calls ++ [.readData requested reply]) = readsOf calls ++ [(requested, reply)] := by
  simp [readsOf, Call.read?]

/-- The last read of a pass is its own. -/
theorem getLast_afterRead (playing : Playing σ) :
    (readsOf (playing.afterRead plugin).world.calls).getLast? =
      some (playing.requested, playing.reply plugin) := by
  rw [calls_afterRead, readsOf_read, List.getLast?_concat]

theorem opensOf_read (calls : List Call) (requested : UInt32) (reply : Reply) :
    opensOf (calls ++ [.readData requested reply]) = opensOf calls := by
  rw [opensOf, List.countP_append, ← opensOf]
  rfl

theorem opensOf_close (calls : List Call) : opensOf (calls ++ [.close]) = opensOf calls := by
  rw [opensOf, List.countP_append, ← opensOf]
  rfl

theorem Counts.follow_afterRead (counts : Counts .opened float playing) :
    Life.fresh.follow (playing.afterRead plugin).world.calls = some .opened := by
  rw [calls_afterRead, Life.follow_snoc, counts.life]
  rfl

theorem Counts.opens_afterRead (counts : Counts .opened float playing) :
    opensOf (playing.afterRead plugin).world.calls = playing.reopens + 1 := by
  rw [calls_afterRead, opensOf_read, counts.opens]

theorem Counts.seconds_unheard (counts : Counts .opened float playing)
    (unheard : ¬Heard playing.requested (playing.reply plugin).info) :
    secondsOf (playing.afterRead plugin).world.calls = playing.decodedSeconds := by
  rw [calls_afterRead, secondsOf_read, seconds, if_neg unheard, add_zero, counts.decoded]

theorem Counts.mild_afterRead (counts : Counts .opened float playing)
    (mild : Mild (playing.requested, playing.reply plugin)) :
    ∀ read ∈ readsOf (playing.afterRead plugin).world.calls, Mild read := by
  intro read member
  rw [calls_afterRead, readsOf_read, List.mem_append, List.mem_singleton] at member
  obtain earlier | rfl := member
  · exact counts.mild read earlier
  · exact mild

/-- What a read that is not taken in leaves. -/
theorem Counts.unheard (counts : Counts .opened float playing)
    (mild : Mild (playing.requested, playing.reply plugin))
    (unheard : ¬Heard playing.requested (playing.reply plugin).info) :
    Counts .opened float (playing.afterRead plugin) where
  life := counts.follow_afterRead
  decoded := (counts.seconds_unheard unheard).symm
  unfailed := counts.unfailed
  opens := counts.opens_afterRead
  few := counts.few
  patient := counts.patient
  peak := counts.peak.imp_right fun sounds => sounds.mono fun read member => by
    rw [calls_afterRead, readsOf_read]
    exact List.mem_append_left _ member
  mild := counts.mild_afterRead mild

/-- What a read that is taken in leaves. -/
theorem Counts.hear (counts : Counts .opened float playing) {blockPeak : ℚ}
    (heard : Heard playing.requested (playing.reply plugin).info)
    (peak : samplePeak float (playing.reply plugin) = some blockPeak) :
    Counts .opened float
      ((playing.afterRead plugin).hear (playing.reply plugin).info blockPeak) where
  life := counts.follow_afterRead
  decoded := by
    refine Eq.trans ?_ (congrArg secondsOf (calls_afterRead playing)).symm
    rw [secondsOf_read, seconds, if_pos heard, ← counts.decoded]
    rfl
  unfailed := counts.unfailed
  opens := counts.opens_afterRead
  few := counts.few
  patient := Nat.zero_le _
  peak := by
    have calls : readsOf (playing.afterRead plugin).world.calls = readsOf playing.world.calls ++
        [(playing.requested, playing.reply plugin)] := readsOf_read ..
    dsimp only [Playing.hear]
    by_cases louder : (playing.afterRead plugin).peak < blockPeak
    · rw [if_pos louder]
      refine .inr ⟨(playing.requested, playing.reply plugin), ?_, heard, peak⟩
      rw [calls]
      exact List.mem_append_right _ (List.mem_singleton_self _)
    · rw [if_neg louder]
      refine counts.peak.imp_right fun sounds => sounds.mono fun read member => ?_
      rw [calls]
      exact List.mem_append_left _ member
  mild := counts.mild_afterRead ⟨heard.within, heard.sound⟩

/-- Closing the song that is open. -/
theorem Counts.close (plugin : Plugin σ) (counts : Counts .opened float playing) :
    Counts .created float (playing.close plugin) where
  life := by
    refine (Life.follow_snoc ..).trans ?_
    rw [counts.life]
    rfl
  decoded := counts.decoded.trans (congrArg (fun reads => (reads.map seconds).sum)
    (readsOf_snoc rfl _).symm)
  unfailed := counts.unfailed
  opens := (opensOf_close _).trans counts.opens
  few := counts.few
  patient := counts.patient
  peak := counts.peak.imp_right fun sounds => sounds.mono fun read member =>
    (readsOf_snoc (rfl : Call.close.read? = none) _).symm ▸ member
  mild read member := counts.mild read (readsOf_snoc (rfl : Call.close.read? = none) _ ▸ member)

/-- **The step lemma.** What a pass that is short of the target leaves. -/
theorem Counts.turn (counts : Counts .opened float playing) (plugin : Plugin σ)
    (fixture : String) (short : playing.decodedSeconds < target) :
    After target float (playing.turn plugin fixture target float) := by
  have turned := turns plugin fixture target float playing
  generalize playing.turn plugin fixture target float = turn at turned ⊢
  cases turned with
  | refused unheard failed world =>
      refine Ended.failed failed (.inl rfl) (world ▸ counts.follow_afterRead) ?_ ?_
      · rw [world, counts.seconds_unheard unheard]
        exact short
      · rw [world, counts.opens_afterRead]
        exact Nat.succ_le_succ counts.few
  | stalled mild unheard few =>
      have later := counts.unheard mild unheard
      exact ⟨⟨later.life, later.decoded, later.unfailed, later.opens, later.few, few, later.peak,
        later.mild⟩, fun reached => absurd reached (not_le.mpr short)⟩
  | rewound mild unheard reopens =>
      have closed : Counts .created float ((playing.afterRead plugin).close plugin) :=
        (counts.unheard mild unheard).close plugin
      exact closed.reopen short reopens
  | @overrun later heard past world =>
      have last : (readsOf later.world.calls).getLast? =
          some (playing.requested, playing.reply plugin) := by
        rw [world]
        exact getLast_afterRead playing
      refine Ended.overrun ?_ ?_ last heard past
      · rw [world, counts.follow_afterRead]
      · rw [world, counts.opens_afterRead]
        exact Nat.succ_le_succ counts.few
  | heard heard peak goesOn =>
      refine ⟨counts.hear heard peak, fun _ finished => ?_⟩
      obtain ⟨read, last, finished⟩ := finished
      cases last.symm.trans (getLast_afterRead playing)
      exact goesOn finished
  | ended heard peak finished reached =>
      refine Ended.closed ((counts.hear heard peak).close plugin) reached
        ⟨(playing.requested, playing.reply plugin), ?_, finished⟩
      exact (congrArg List.getLast? (readsOf_snoc rfl _)).trans (getLast_afterRead playing)
  | looped heard peak short reopens =>
      have closed := (counts.hear heard peak).close plugin
      exact closed.reopen short reopens

/-- **The run lemma.** How the loop ends, if it does. -/
theorem Counts.decode {fuel : Nat} {ending : Ending σ} (counts : Counts .opened float playing)
    (goesOn : target ≤ playing.decodedSeconds → ¬EndsFinished playing.world.calls)
    (ended : Playing.decode plugin fixture target float fuel playing = some ending) :
    Ended target float ending := by
  induction fuel generalizing playing with
  | zero => cases ended
  | succ fuel ih =>
      rw [Playing.decode] at ended
      by_cases short : playing.decodedSeconds < target
      · rw [if_pos short] at ended
        have after := counts.turn plugin fixture short
        generalize playing.turn plugin fixture target float = turn at ended after
        cases turn with
        | again later => exact ih after.1 after.2 ended
        | left later =>
            cases ended
            exact after
        | overrun later =>
            cases ended
            exact after
      · rw [if_neg short] at ended
        cases ended
        exact .reached counts (not_lt.mp short) (goesOn (not_lt.mp short))

/-! ## The loop ends -/

/-- How many more passes there can be at most. -/
def Playing.passesLeft (playing : Playing σ) (target : ℚ) : Nat :=
  ⌈(target - playing.decodedSeconds) * 2 ^ 32⌉₊ * (maxStalledReads + 1) +
    (maxStalledReads - playing.stalledReads) + (maxReopens - playing.reopens)

/-- A block that is taken in lasts at least so long that there are finitely many to the target. -/
theorem ceil_hear {requested : UInt32} {info : ReadInfo} (heard : Heard requested info)
    {decoded : ℚ} (short : decoded < target) :
    ⌈(target - (decoded + info.frameCount.toNat / info.sampleRate.toNat)) * 2 ^ 32⌉₊ + 1 ≤
      ⌈(target - decoded) * 2 ^ 32⌉₊ := by
  have frames : (1 : ℚ) ≤ info.frameCount.toNat := by
    exact_mod_cast Nat.one_le_iff_ne_zero.mpr fun zero => heard.some (UInt32.toNat_inj.mp zero)
  have rate : (0 : ℚ) < info.sampleRate.toNat := by
    exact_mod_cast Nat.pos_of_ne_zero fun zero => heard.timed (UInt32.toNat_inj.mp zero)
  have narrow : (info.sampleRate.toNat : ℚ) ≤ 2 ^ 32 := by
    exact_mod_cast info.sampleRate.toNat_lt.le
  have long : 1 ≤ (info.frameCount.toNat : ℚ) / info.sampleRate.toNat * 2 ^ 32 := by
    rw [div_mul_eq_mul_div, le_div_iff₀ rate, one_mul]
    nlinarith
  have some : 0 < ⌈(target - decoded) * 2 ^ 32⌉₊ := Nat.ceil_pos.mpr (by linarith)
  rw [← Nat.le_sub_iff_add_le some, Nat.ceil_le, Nat.cast_sub some]
  have above := Nat.le_ceil ((target - decoded) * 2 ^ 32)
  generalize (info.frameCount.toNat : ℚ) / info.sampleRate.toNat = block at long ⊢
  rw [← sub_sub, sub_mul]
  push_cast
  linarith

theorem Reopens.lowers {turn : Turn σ} (reopens : Reopens plugin fixture playing turn)
    {later : Playing σ} (again : turn = .again later) :
    later.decodedSeconds = playing.decodedSeconds ∧ later.stalledReads = playing.stalledReads ∧
      maxReopens - later.reopens < maxReopens - playing.reopens := by
  cases reopens with
  | spent => cases again
  | refused => cases again
  | reopened few =>
      cases again
      refine ⟨rfl, rfl, ?_⟩
      dsimp only
      omega

/-- Each pass leaves fewer. -/
theorem Counts.lowers (counts : Counts .opened float playing)
    (short : playing.decodedSeconds < target) {later : Playing σ}
    (again : playing.turn plugin fixture target float = .again later) :
    later.passesLeft target < playing.passesLeft target := by
  have turned := turns plugin fixture target float playing
  have patient := counts.patient
  rw [again] at turned
  unfold Playing.passesLeft
  cases turned with
  | stalled mild unheard few =>
      dsimp only [Playing.afterRead]
      omega
  | rewound mild unheard reopens =>
      obtain ⟨decoded, stalled, lower⟩ := reopens.lowers rfl
      dsimp only [Playing.afterRead, Playing.close] at decoded stalled lower
      rw [decoded, stalled]
      omega
  | heard heard peak goesOn =>
      have lower := ceil_hear heard short
      dsimp only [Playing.afterRead, Playing.hear]
      have := Nat.mul_le_mul_right (maxStalledReads + 1) lower
      rw [Nat.succ_mul] at this
      omega
  | looped heard peak _ reopens =>
      have lower := ceil_hear heard short
      obtain ⟨decoded, stalled, fewer⟩ := reopens.lowers rfl
      dsimp only [Playing.afterRead, Playing.close, Playing.hear] at decoded stalled fewer
      rw [decoded, stalled]
      have := Nat.mul_le_mul_right (maxStalledReads + 1) lower
      rw [Nat.succ_mul] at this
      omega

/-- **The variant rule of the loop.** Fuel for the passes that are left suffices. -/
theorem Counts.decodes {fuel : Nat} (counts : Counts .opened float playing)
    (plugin : Plugin σ) (fixture : String)
    (goesOn : target ≤ playing.decodedSeconds → ¬EndsFinished playing.world.calls)
    (enough : playing.passesLeft target < fuel) :
    ∃ ending, Playing.decode plugin fixture target float fuel playing = some ending := by
  induction fuel generalizing playing with
  | zero => exact absurd enough (Nat.not_lt_zero _)
  | succ fuel ih =>
      rw [Playing.decode]
      by_cases short : playing.decodedSeconds < target
      · rw [if_pos short]
        have after := counts.turn plugin fixture short
        cases turned : playing.turn plugin fixture target float with
        | again later =>
            rw [turned] at after
            have fewer := counts.lowers short turned
            exact ih after.1 after.2 (by omega)
        | left later => exact ⟨_, rfl⟩
        | overrun later => exact ⟨_, rfl⟩
      · exact ⟨_, if_neg short⟩

/-- Calls that are in order and leave the plugin there, with no song read and so many opened. -/
structure Quiet (life : Life) (opens : Nat) (calls : List Call) : Prop where
  life : Life.fresh.follow calls = some life
  reads : readsOf calls = []
  opens : opensOf calls = opens

theorem Quiet.snoc {life after : Life} {opens : Nat} {calls : List Call}
    (quiet : Quiet life opens calls) (call : Call) (follows : life.after call = some after)
    (other : call.read? = none) :
    Quiet after (opens + opensOf [call]) (calls ++ [call]) where
  life := by rw [Life.follow_snoc, quiet.life, Option.bind_some, follows]
  reads := (readsOf_snoc other _).trans quiet.reads
  opens := by rw [opensOf, List.countP_append, ← opensOf, quiet.opens, ← opensOf]

theorem quiet_staticInit (plugin : Plugin σ) (start : σ) : ∃ life, (life = .fresh ∨ life = .ready) ∧
    Quiet life 0 (World.staticInit ⟨start, []⟩ plugin).calls := by
  have fresh : Quiet .fresh 0 [] := ⟨rfl, rfl, rfl⟩
  unfold World.staticInit World.static
  cases plugin.staticInit with
  | none => exact ⟨.fresh, .inl rfl, fresh⟩
  | some entry => exact ⟨.ready, .inr rfl, fresh.snoc .staticInit rfl rfl⟩

variable {file : Option (Option (Exports σ))} {data : Option (List UInt8)} {start : σ}

/-- The command either gives up before it plays, or plays a song that it has just opened. -/
theorem plays (file : Option (Option (Exports σ))) (fixture : String)
    (data : Option (List UInt8)) (target : ℚ) (float : Nat → ℚ) (start : σ) :
    (∃ world life opens, opens ≤ 1 ∧ Quiet life opens world.calls ∧
      ∀ fuel, cmdPlay fuel file fixture data target float start = some (.code 1, world)) ∨
    ∃ (plugin : Plugin σ) (playing : Playing σ), Counts .opened float playing ∧
      readsOf playing.world.calls = [] ∧ playing.passesLeft target =
        ⌈target * 2 ^ 32⌉₊ * (maxStalledReads + 1) + maxStalledReads + maxReopens ∧
      ∀ fuel, cmdPlay fuel file fixture data target float start =
        (Playing.decode plugin fixture target float fuel playing).map
          (Ending.conclude plugin target) := by
  simp only [cmdPlay]
  cases checked : file.join.bind pluginGetChecked with
  | none => exact .inl ⟨⟨start, []⟩, .fresh, 0, Nat.zero_le _, ⟨rfl, rfl, rfl⟩, fun _ => rfl⟩
  | some plugin =>
  obtain ⟨life, still, quiet⟩ := quiet_staticInit plugin start
  dsimp only
  generalize World.staticInit ⟨start, []⟩ plugin = world at quiet ⊢
  cases data with
  | none => exact .inl ⟨world, life, 0, Nat.zero_le _, quiet, fun _ => rfl⟩
  | some data =>
  have ready : life.after .probeCanPlay = some .ready := by
    obtain rfl | rfl := still
    · rfl
    · rfl
  have probed := quiet.snoc .probeCanPlay ready rfl
  change Quiet _ 0 (world.probeCanPlay plugin data fixture).2.calls at probed
  dsimp only
  generalize world.probeCanPlay plugin data fixture = probe at probed ⊢
  by_cases unsupported : probe.1 = .unsupported
  · exact .inl ⟨probe.2, .ready, 0, Nat.zero_le _, probed, fun _ => if_pos unsupported⟩
  simp only [if_neg unsupported]
  have created := probed.snoc (.create (probe.2.create plugin).1) rfl rfl
  change Quiet _ 0 (probe.2.create plugin).2.calls at created
  generalize probe.2.create plugin = create at created ⊢
  cases instanced : create.1 with
  | false => exact .inl ⟨create.2, _, 0, Nat.zero_le _, created, fun _ => if_pos rfl⟩
  | true =>
  rw [instanced] at created
  have opened := created.snoc (.openSong (create.2.openSong plugin fixture).1) rfl rfl
  change Quiet _ 1 (create.2.openSong plugin fixture).2.calls at opened
  generalize create.2.openSong plugin fixture = song at opened ⊢
  cases readable : song.1 with
  | false => exact .inl ⟨song.2, _, 1, Nat.le_refl _, opened, fun _ => rfl⟩
  | true =>
  rw [readable] at opened
  refine .inr ⟨plugin, { world := song.2 }, ⟨opened.life, ?_, rfl, opened.opens, Nat.zero_le _,
    Nat.zero_le _, .inl le_rfl, ?_⟩, opened.reads, ?_, fun _ => rfl⟩
  · rw [secondsOf, opened.reads]
    rfl
  · dsimp only
    rw [opened.reads]
    exact fun _ member => absurd member List.not_mem_nil
  · rw [Playing.passesLeft, sub_zero]
    rfl

/-! ## After the loop -/

end Decoding

end Retrovert.RvHost
