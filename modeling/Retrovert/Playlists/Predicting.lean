import Retrovert.Playlists.Starting

/-!
# The item that comes next

`peekNext` reports the item that playback goes on to, and changes nothing. It looks where a
forward advance leads, also when playback has yet to start. The two differ in one place: a
list that was shortened before its first poll, in a loop, so that the item it was to start at
is past the end (`peek_predicts_poll`).
-/

set_option autoImplicit false

namespace Retrovert.Playlists.Engine

variable {P : Type}

/-! ## The cursor before its first item -/

/-- A cursor has no current item exactly until its first poll. -/
def Cued (engine : Engine P) : Prop :=
  ∀ cursor, engine.cursor = some cursor → (cursor.current = none ↔ cursor.pending = some .start)

/-- Every cursor afterwards is one from before, with the same item and the same advance. -/
theorem Cued.of_kept {engine later : Engine P} (cued : engine.Cued)
    (kept : ∀ cursor, later.cursor = some cursor → ∃ earlier, engine.cursor = some earlier ∧
      cursor.current = earlier.current ∧ cursor.pending = earlier.pending) : later.Cued := by
  intro cursor playing
  obtain ⟨earlier, there, current, pending⟩ := kept cursor playing
  rw [current, pending]
  exact cued earlier there

theorem cued_of_silent {engine : Engine P} (silent : engine.cursor = none) : engine.Cued := by
  intro cursor playing
  rw [silent] at playing
  cases playing

theorem Cued.of_cursor {engine later : Engine P} (cued : engine.Cued)
    (same : later.cursor = engine.cursor) : later.Cued :=
  cued.of_kept fun cursor playing => ⟨cursor, same ▸ playing, rfl, rfl⟩

/-- An advance of a cursor that is on an item leaves it there. -/
theorem Cued.advanced {engine : Engine P} (cued : engine.Cued) {cursor later : Cursor}
    (playing : engine.cursor = some cursor) (quiet : cursor.pending = none)
    (current : later.current = cursor.current) (pending : later.pending ≠ some .start) :
    later.current = none ↔ later.pending = some .start := by
  rw [current, cued cursor playing, quiet]
  exact iff_of_false (fun same => nomatch same) pending

/-- The storage operations that never touch the cursor. -/
def sparesCursor : Action P → Bool
  | .create _ | .rename _ _ | .touchStructurePreservingDirty _ | .append _ _ | .editItem _ _ _
  | .moveItem _ _ _ | .markSaved _ | .markRevisionSaved _ _ | .fromBytes _ _ | .setMode _ => true
  | _ => false

theorem cursor_markRevisionSaved (engine : Engine P) (id : PlaylistId) (revision : Nat) :
    (engine.markRevisionSaved id revision).1.cursor = engine.cursor := by
  unfold markRevisionSaved
  split
  · rfl
  · split <;> rfl

theorem cursor_of_sparesCursor (engine : Engine P) {action : Action P}
    (spares : sparesCursor action = true) : (engine.apply action).cursor = engine.cursor := by
  cases action with
  | create name =>
      simp only [apply, create]
      split <;> rfl
  | rename id name =>
      simp only [apply, rename]
      split
      · rfl
      · split <;> rfl
  | touchStructurePreservingDirty id =>
      simp only [apply, touchStructurePreservingDirty]
      split <;> rfl
  | append playlist spec =>
      simp only [apply, append]
      split <;> rfl
  | editItem playlist item edit =>
      simp only [apply, editItem]
      split <;> rfl
  | moveItem playlist item after =>
      rcases engine.moveItem_eq playlist item after with same | ⟨_, _, _, _, _, _, same, _⟩
      · rw [apply, same]
      · exact same
  | markSaved id =>
      simp only [apply, markSaved]
      split
      · rfl
      · exact cursor_markRevisionSaved engine _ _
  | markRevisionSaved id revision => exact cursor_markRevisionSaved engine _ _
  | fromBytes reader bytes =>
      simp only [apply, fromBytes]
      split
      · rfl
      · split
        · rfl
        · split
          · rfl
          · split
            · rfl
            · split <;> rfl
  | setMode mode => rfl
  | delete | removeItem | start | stop | poll | onFinished | onFailed | next | previous =>
      cases spares

theorem cued_apply {engine : Engine P} (action : Action P) (cued : engine.Cued) :
    (engine.apply action).Cued := by
  cases action with
  | delete id =>
      simp only [apply, delete]
      split
      · exact cued
      · refine cued.of_kept fun cursor playing => ⟨cursor, ?_, rfl, rfl⟩
        exact (Option.ite_none_left_eq_some.mp playing).2
  | removeItem playlist item =>
      simp only [apply, removeItem]
      split
      · exact cued
      · refine cued.of_kept fun cursor playing => ?_
        obtain ⟨earlier, there, rfl⟩ := Option.map_eq_some_iff.mp playing
        refine ⟨earlier, there, ?_⟩
        split <;> exact ⟨rfl, rfl⟩
  | start playlist source =>
      simp only [apply, start]
      split
      · exact cued_of_silent engine.stop_cursor
      · split
        · exact cued_of_silent engine.stop_cursor
        · split
          · exact cued_of_silent engine.stop_cursor
          · intro cursor playing
            cases playing
            exact iff_of_true rfl rfl
  | stop => exact cued_of_silent engine.stop_cursor
  | poll =>
      simp only [apply, poll]
      split
      · exact cued
      · split
        · exact cued_of_silent engine.stop_cursor
        · split
          · exact cued
          · intro later same
            cases same
            exact iff_of_false (fun same => by cases same) fun same => by cases same
  | onFinished | next =>
      intro later playing
      obtain ⟨cursor, there, rfl⟩ := Option.map_eq_some_iff.mp playing
      split
      · rename_i song
        rw [Cursor.isPlaying, Bool.and_eq_true, Option.isNone_iff_eq_none] at song
        exact cued.advanced there song.2 rfl fun same => by cases same
      · exact cued cursor there
  | onFailed =>
      simp only [apply, onFailed]
      cases playing : engine.cursor with
      | none => exact cued
      | some cursor =>
          simp only
          split
          · exact cued
          · rename_i song
            rw [Cursor.isPlaying, Bool.not_eq_true', Bool.not_eq_false, Bool.and_eq_true,
              Option.isNone_iff_eq_none] at song
            split
            · intro later same
              cases same
              exact cued.advanced playing song.2 rfl fun same => by cases same
            · split
              · exact cued_of_silent engine.stop_cursor
              · intro later same
                cases same
                exact cued.advanced playing song.2 rfl fun same => by cases same
  | previous =>
      simp only [apply, previous]
      split
      · exact cued
      · intro later playing
        obtain ⟨cursor, there, rfl⟩ := Option.map_eq_some_iff.mp playing
        split
        · rename_i quiet
          rw [Option.isNone_iff_eq_none] at quiet
          exact cued.advanced there quiet rfl fun same => by cases same
        · exact cued cursor there
  | create | rename | touchStructurePreservingDirty | append | editItem | moveItem | markSaved
  | markRevisionSaved | fromBytes | setMode =>
      exact cued.of_cursor (cursor_of_sparesCursor engine rfl)

theorem Reaches.cued {guard : Engine P → Action P → Prop} {engine : Engine P}
    (run : Reaches guard engine) : engine.Cued :=
  Runs.Moves.invariant _
    (fun _ _ _ _ stepped cued => by
      cases stepped
      exact cued_apply _ cued)
    run (cued_of_silent rfl)

/-! ## Looking ahead -/

/-- The engine once a song that plays has been reported finished. -/
def queued (engine : Engine P) : Engine P :=
  if engine.cursor.any Cursor.isPlaying then engine.onFinished else engine

/-- What is reported to come next is what the poll yields, and nothing is when the poll
yields nothing or ends playback. -/
structure Predicts (engine : Engine P) : Prop where
  yields : ∀ item, engine.peekNext = some item → engine.queued.poll.2 = some item
  stops : engine.peekNext = none ↔
    engine.queued.poll.1.cursor = none ∨ engine.queued.poll.2 = none

/-- Playback is to start past the end of a list that has items, and would wrap. -/
def Overshoots (engine : Engine P) : Prop :=
  ∃ cursor stored, engine.cursor = some cursor ∧ engine.playlist cursor.playlist = some stored ∧
    cursor.pending = some .start ∧ engine.mode = .loop ∧ stored.items ≠ [] ∧
      stored.items.length ≤ cursor.position

theorem forwardPosition_lt {engine : Engine P} {cursor : Cursor} {stored : Playlist P}
    (playing : engine.cursor = some cursor) (found : engine.playlist cursor.playlist = some stored)
    {position : Nat} (leads : engine.forwardPosition = some position) :
    position < stored.items.length := by
  simp only [forwardPosition, playing, Option.bind_eq_bind, Option.bind_some, found,
    Option.ite_none_left_eq_some] at leads
  obtain ⟨filled, leads⟩ := leads
  split at leads
  · cases leads
    assumption
  · rw [Option.ite_none_right_eq_some] at leads
    cases leads.2
    exact List.length_pos_of_ne_nil filled

/-- What playback goes on to is where a forward advance leads. -/
theorem peekNext_eq {engine : Engine P} {cursor : Cursor} {stored : Playlist P}
    (playing : engine.cursor = some cursor)
    (found : engine.playlist cursor.playlist = some stored) :
    engine.peekNext = engine.forwardPosition.bind (stored.items[·]?) := by
  simp only [peekNext, playing, Option.bind_eq_bind, Option.bind_some, found]

/-- A poll yields what its advance leads to, and ends playback if that is nowhere. -/
theorem poll_of_leadsTo {engine : Engine P} {cursor : Cursor} {advance : Advance}
    {stored : Playlist P} (playing : engine.cursor = some cursor)
    (pending : cursor.pending = some advance)
    (found : engine.playlist cursor.playlist = some stored)
    (inside : ∀ position, engine.leadsTo cursor stored advance = some position →
      position < stored.items.length) :
    engine.poll.2 = (engine.leadsTo cursor stored advance).bind (stored.items[·]?) ∧
      (engine.poll.1.cursor = none ↔ engine.poll.2 = none) := by
  rw [poll_eq playing pending found]
  cases leads : engine.leadsTo cursor stored advance with
  | none => exact ⟨rfl, iff_of_true engine.stop_cursor rfl⟩
  | some position =>
      simp only [Option.bind_some, List.getElem?_eq_getElem (inside position leads)]
      exact ⟨trivial, iff_of_false (fun same => nomatch same) fun same => nomatch same⟩

theorem predicts_iff {engine : Engine P}
    (ends : engine.queued.poll.1.cursor = none ↔ engine.queued.poll.2 = none) :
    engine.Predicts ↔ engine.peekNext = engine.queued.poll.2 := by
  constructor
  · intro predicts
    cases peeked : engine.peekNext with
    | none =>
        rcases predicts.stops.mp peeked with stopped | nothing
        · exact (ends.mp stopped).symm
        · exact nothing.symm
    | some item => exact (predicts.yields item peeked).symm
  · intro same
    rw [← same] at ends
    refine ⟨fun item peeked => same ▸ peeked, ?_⟩
    rw [← same]
    exact ⟨.inr, fun stops => stops.elim ends.mp id⟩

/-- A song that plays is on its way forward once it has been reported; an advance that is
pending stays. -/
theorem queued_eq {engine : Engine P} (cued : engine.Cued) {cursor : Cursor}
    (playing : engine.cursor = some cursor) (ahead : cursor.pending ≠ some .backward) :
    cursor.pending = some .start ∧ engine.queued = engine ∨
      cursor.pending ≠ some .start ∧ ∃ later, engine.queued = { engine with cursor := some later } ∧
        later.pending = some .forward ∧ later.playlist = cursor.playlist ∧
        later.current = cursor.current ∧ later.position = cursor.position := by
  cases pending : cursor.pending with
  | none =>
      have current : cursor.current ≠ none := by
        intro none
        have start := (cued cursor playing).mp none
        rw [pending] at start
        cases start
      have song : cursor.isPlaying = true := by
        rw [Cursor.isPlaying, pending, Option.isNone_none, Bool.and_true]
        exact Option.isSome_iff_ne_none.mpr current
      refine .inr ⟨(fun same => by cases same), cursor.advance .forward, ?_, rfl, rfl, rfl, rfl⟩
      rw [queued, playing, Option.any_some, if_pos song, onFinished, playing, Option.map_some,
        if_pos song]
  | some advance =>
      have quiet : ¬ cursor.isPlaying = true := by
        rw [Cursor.isPlaying, pending, Option.isNone_some, Bool.and_false]
        exact Bool.false_ne_true
      have still : engine.queued = engine := by
        rw [queued, playing, Option.any_some, if_neg quiet]
      cases advance with
      | start => exact .inl ⟨rfl, still⟩
      | forward =>
          refine .inr ⟨(fun same => by cases same), cursor, ?_, pending, rfl, rfl, rfl⟩
          rw [still, ← playing]
      | backward => exact absurd pending ahead

theorem poll_of_missing {engine : Engine P} {cursor : Cursor} {advance : Advance}
    (playing : engine.cursor = some cursor) (pending : cursor.pending = some advance)
    (missing : engine.playlist cursor.playlist = none) : engine.poll = (engine.stop, none) := by
  have nowhere : engine.targetPosition advance = none := by
    cases looked : engine.playlistIndex cursor.playlist with
    | none => simp only [targetPosition, playing, Option.bind_eq_bind, Option.bind_some, looked,
        Option.bind_none]
    | some index =>
        obtain ⟨_, _, _, found⟩ := playlistIndex_eq_some looked
        rw [found] at missing
        cases missing
  unfold poll
  rw [playing, Option.bind_some, pending, Option.map_some]
  simp only [nowhere]

/-- Playback that goes forward goes where it was seen to. -/
theorem predicts_of_forward {engine : Engine P} {cursor later : Cursor}
    {stored : Playlist P} (playing : engine.cursor = some cursor)
    (found : engine.playlist cursor.playlist = some stored)
    (queued : engine.queued = { engine with cursor := some later })
    (pending : later.pending = some .forward) (listed : later.playlist = cursor.playlist)
    (current : later.current = cursor.current) (position : later.position = cursor.position) :
    engine.Predicts := by
  have leads : engine.queued.forwardPosition = engine.forwardPosition := by
    rw [queued]
    simp only [forwardPosition, playing, Option.bind_eq_bind, Option.bind_some, Cursor.index,
      listed, current, position]
    rfl
  have now : engine.queued.cursor = some later := by rw [queued]
  have there : engine.queued.playlist later.playlist = some stored := by
    rw [queued, listed]
    exact found
  obtain ⟨yields, ends⟩ := poll_of_leadsTo now pending there fun position leads =>
    forwardPosition_lt now there leads
  refine (predicts_iff ends).mpr ?_
  rw [yields, leadsTo, leads, peekNext_eq playing found]

/-- With the playlist gone there is nothing to go on to. -/
theorem predicts_of_missing {engine : Engine P} (cued : engine.Cued) {cursor : Cursor}
    (playing : engine.cursor = some cursor) (ahead : cursor.pending ≠ some .backward)
    (missing : engine.playlist cursor.playlist = none) : engine.Predicts := by
  have nowhere : engine.peekNext = none := by
    simp only [peekNext, forwardPosition, playing, Option.bind_eq_bind, Option.bind_some, missing,
      Option.bind_none]
  have ended : engine.queued.poll = (engine.queued.stop, none) := by
    rcases queued_eq cued playing ahead with
      ⟨start, same⟩ | ⟨_, later, queued, pending, listed, _, _⟩
    · rw [same]
      exact poll_of_missing playing start missing
    · have now : engine.queued.cursor = some later := by rw [queued]
      refine poll_of_missing now pending ?_
      rw [queued, listed]
      exact missing
  have ends : engine.queued.poll.1.cursor = none ↔ engine.queued.poll.2 = none := by
    rw [ended]
    exact iff_of_true engine.queued.stop_cursor rfl
  rw [predicts_iff ends, nowhere, ended]

/-- Playback that is to start past the end of a list that wraps is not what is seen. -/
theorem predicts_of_start {engine : Engine P} (cued : engine.Cued) {cursor : Cursor}
    {stored : Playlist P} (playing : engine.cursor = some cursor)
    (found : engine.playlist cursor.playlist = some stored)
    (start : cursor.pending = some .start) (queued : engine.queued = engine) :
    engine.Predicts ↔ ¬ (engine.mode = .loop ∧ stored.items ≠ [] ∧
      stored.items.length ≤ cursor.position) := by
  have silent : cursor.index stored = none := by
    rw [Cursor.index, (cued cursor playing).mpr start, Option.bind_none]
  have inside : ∀ position, engine.leadsTo cursor stored .start = some position →
      position < stored.items.length := by
    intro position leads
    rw [leadsTo, Option.ite_none_right_eq_some] at leads
    exact Option.some.inj leads.2 ▸ leads.1
  obtain ⟨yields, ends⟩ := poll_of_leadsTo playing start found inside
  have seen : engine.forwardPosition =
      if stored.items = [] then none
      else if cursor.position < stored.items.length then some cursor.position
      else if engine.mode = .loop then some 0 else none := by
    simp only [forwardPosition, playing, Option.bind_eq_bind, Option.bind_some, found, silent,
      Option.elim_none]
  rw [predicts_iff (queued.symm ▸ ends), queued, yields, peekNext_eq playing found, seen, leadsTo]
  rcases Nat.lt_or_ge cursor.position stored.items.length with within | past
  · have filled : stored.items ≠ [] := List.ne_nil_of_length_pos (Nat.zero_lt_of_lt within)
    rw [if_neg filled, if_pos within, if_pos within]
    exact iff_of_true rfl fun overshoots => Nat.not_le_of_lt within overshoots.2.2
  · rw [if_neg (Nat.not_lt_of_le past), if_neg (Nat.not_lt_of_le past)]
    by_cases empty : stored.items = []
    · rw [if_pos empty]
      exact iff_of_true rfl fun overshoots => overshoots.2.1 empty
    · rw [if_neg empty, Option.bind_none]
      have first := List.getElem?_eq_getElem (List.length_pos_of_ne_nil empty)
      by_cases loops : engine.mode = .loop
      · rw [if_pos loops, Option.bind_some, first]
        exact iff_of_false (fun same => by cases same) fun stays => stays ⟨loops, empty, past⟩
      · rw [if_neg loops]
        exact iff_of_true rfl fun overshoots => loops overshoots.1

/-- **What comes next is predicted exactly where playback does not start past the end** of a
list that would wrap. -/
theorem peek_predicts_poll {engine : Engine P} (run : Reaches Runs.unguarded engine)
    {cursor : Cursor} (playing : engine.cursor = some cursor)
    (ahead : cursor.pending ≠ some .backward) : engine.Predicts ↔ ¬ engine.Overshoots := by
  have cued := run.cued
  have here : engine.Overshoots ↔ ∃ stored, engine.playlist cursor.playlist = some stored ∧
      cursor.pending = some .start ∧ engine.mode = .loop ∧ stored.items ≠ [] ∧
        stored.items.length ≤ cursor.position := by
    rw [Overshoots, playing]
    exact ⟨fun ⟨_, stored, same, overshoots⟩ => by cases same; exact ⟨stored, overshoots⟩,
      fun ⟨stored, overshoots⟩ => ⟨cursor, stored, rfl, overshoots⟩⟩
  rw [here]
  cases found : engine.playlist cursor.playlist with
  | none =>
      refine iff_of_true (predicts_of_missing cued playing ahead found) ?_
      rintro ⟨_, there, _⟩
      cases there
  | some stored =>
      simp only [Option.some.injEq, exists_eq_left']
      rcases queued_eq cued playing ahead with
        ⟨start, queued⟩ | ⟨begun, later, queued, pending, listed, current, position⟩
      · rw [predicts_of_start cued playing found start queued]
        exact not_congr ⟨fun overshoots => ⟨start, overshoots⟩, And.right⟩
      · exact iff_of_true
          (predicts_of_forward playing found queued pending listed current position)
          fun overshoots => begun overshoots.1

/-- A list of two items that is to start at its second one, in a loop, and has lost it. -/
def shortening : List (Action Unit) :=
  let spec (identity : String) : ItemSpec Unit := ⟨identity, 0, "", "", 0, ()⟩
  [.create none, .append ⟨1⟩ (spec "a"), .append ⟨1⟩ (spec "b"), .start ⟨1⟩ (some ⟨2⟩),
    .setMode .loop, .removeItem ⟨1⟩ ⟨2⟩]

theorem peek_predicts_poll_before_the_removal : ∃ engine : Engine Unit,
    engine.peekNext.map Item.id = some ⟨2⟩ ∧ (engine.Predicts ↔ ¬ engine.Overshoots) :=
  ⟨(shortening.take 5).foldl apply {}, rfl,
    peek_predicts_poll (reaches_foldl (.refl _) _) rfl (fun same => nomatch same)⟩

/-- The item at the front is reported to come next, and the poll ends playback. -/
theorem a_shortened_loop_stops : ∃ engine : Engine Unit, ∃ cursor,
    Reaches Runs.unguarded engine ∧ engine.cursor = some cursor ∧
      cursor.pending ≠ some .backward ∧ engine.peekNext.map Item.id = some ⟨1⟩ ∧
      engine.queued.poll.2.map Item.id = none ∧ engine.queued.poll.1.isPlaying = false ∧
      ¬ engine.Predicts := by
  refine ⟨shortening.foldl apply {}, _, reaches_foldl (.refl _) _, rfl,
    (fun same => nomatch same), rfl, rfl, rfl, fun predicts => ?_⟩
  have yields := predicts.yields _ rfl
  cases yields

end Retrovert.Playlists.Engine
