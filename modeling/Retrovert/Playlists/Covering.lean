import Retrovert.Playlists.Starting

/-!
# Playing a list to its end

A list that is played from one of its items, without commands, goes item by item: whether a
song finishes or fails, the next poll yields what follows it. The place of a song is looked up
by its id, so a list in which an item has the id of an earlier one goes back there, and never
comes to its end (`sequential_playback_covers`).
-/

set_option autoImplicit false

namespace Retrovert.Playlists

/-- How a song ends. -/
inductive Ending where
  | finished
  | failed
deriving DecidableEq, Repr

namespace Engine

variable {P : Type}

def conclude (engine : Engine P) : Ending → Engine P
  | .finished => engine.onFinished
  | .failed => engine.onFailed

/-- Polls in turn, with the ending of each song before the next poll. -/
def played (engine : Engine P) : List Ending → Engine P × List (Option (Item P))
  | [] => (engine.poll.1, [engine.poll.2])
  | ending :: rest =>
      let later := played (engine.poll.1.conclude ending) rest
      (later.1, engine.poll.2 :: later.2)

/-- Without commands playback leaves the stored playlists on file. -/
theorem Filed.conclude {engine : Engine P} (filed : engine.Filed) (ending : Ending) :
    (engine.poll.1.conclude ending).Filed := by
  have polled : engine.poll.1.Filed := filed_apply .poll filed
  cases ending with
  | finished => exact filed_apply .onFinished polled
  | failed => exact filed_apply .onFailed polled

/-- The id of an item is found at its place or before it. -/
theorem itemIndex_le {stored : Playlist P} {position index : Nat} {item : Item P}
    (there : stored.items[position]? = some item) (placed : stored.itemIndex item.id = some index) :
    index ≤ position := by
  obtain ⟨within, rfl⟩ := List.getElem?_eq_some_iff.mp there
  obtain ⟨_, _, first⟩ := List.findIdx?_eq_some_iff_getElem.mp placed
  refine Nat.le_of_not_lt fun before => first position before ?_
  exact beq_self_eq_true _

section Due

variable {engine : Engine P} {id : PlaylistId} {stored : Playlist P} {position : Nat}

/-- The next poll is to yield what stands at a position of a stored list, or to end playback
if that is past its end. -/
structure Due (engine : Engine P) (id : PlaylistId) (stored : Playlist P) (position : Nat) :
    Prop where
  filed : engine.Filed
  mode : engine.mode = .sequential
  found : engine.playlist id = some stored
  queued : ∃ cursor advance, engine.cursor = some cursor ∧ cursor.playlist = id ∧
    cursor.pending = some advance ∧ engine.leadsTo cursor stored advance =
      if position < stored.items.length then some position else none

/-- Past the end of the list playback ends. -/
theorem Due.poll_end (due : engine.Due id stored position)
    (past : stored.items.length ≤ position) : engine.poll = (engine.stop, none) := by
  obtain ⟨cursor, advance, playing, rfl, pending, leads⟩ := due.queued
  rw [poll_eq playing pending due.found, leads, if_neg (Nat.not_lt_of_le past)]

/-- Playback yields the item that is due, and however it ends, what follows the first item of
its id is due. -/
theorem Due.poll {item : Item P} {index : Nat} (due : engine.Due id stored position)
    (there : stored.items[position]? = some item) (placed : stored.itemIndex item.id = some index) :
    engine.poll.2 = some item ∧
      ∀ ending, (engine.poll.1.conclude ending).Due id stored (index + 1) := by
  obtain ⟨cursor, advance, playing, rfl, pending, leads⟩ := due.queued
  have within := (List.getElem?_eq_some_iff.mp there).1
  rw [if_pos within] at leads
  have polled : engine.poll =
      ({ engine with cursor := some (cursor.onto item.id position) }, some item) := by
    rw [poll_eq playing pending due.found, leads]
    simp only [there]
  refine ⟨congrArg Prod.snd polled, fun ending => ?_⟩
  have filed := due.filed.conclude ending
  have alike : ∃ cursor', (engine.poll.1.conclude ending) =
        { engine with cursor := some cursor' } ∧ cursor'.playlist = cursor.playlist ∧
      cursor'.pending = some .forward ∧ cursor'.current = some item.id := by
    rw [polled]
    cases ending with
    | finished => exact ⟨_, rfl, rfl, rfl, rfl⟩
    | failed =>
        have sequential : engine.mode ≠ .loop := by
          rw [due.mode]
          exact Mode.noConfusion
        simp [conclude, onFailed, Cursor.isPlaying, Cursor.onto, sequential]
  obtain ⟨later, same, listed, forward, current⟩ := alike
  rw [same] at filed ⊢
  refine ⟨filed, due.mode, due.found, later, .forward, rfl, listed, forward, ?_⟩
  have filled : stored.items ≠ [] := List.ne_nil_of_length_pos (Nat.zero_lt_of_lt within)
  have sequential : engine.mode ≠ .loop := due.mode ▸ Mode.noConfusion
  have placed : later.index stored = some index := by
    rw [Cursor.index, current, Option.bind_some, placed]
  have looked : Engine.playlist { engine with cursor := some later } later.playlist =
      some stored := listed ▸ due.found
  simp only [leadsTo, forwardPosition, Option.bind_eq_bind, Option.bind_some, looked, if_neg filled,
    placed, Option.elim_some, if_neg sequential]

/-- Where every item from the one that is due on is the first of its id, playback yields them
in order, and then ends. -/
theorem Due.played_covers (endings : List Ending) (due : engine.Due id stored position)
    (first : ∀ index item, position ≤ index → stored.items[index]? = some item →
      stored.itemIndex item.id = some index)
    (enough : position + endings.length = stored.items.length) :
    (engine.played endings).2 = (stored.items.drop position).map some ++ [none] ∧
      ∃ last : Engine P, last.Filed ∧ last.playingPlaylist = some id ∧
        last.playlist id = some stored ∧ (engine.played endings).1 = last.stop := by
  induction endings generalizing engine position with
  | nil =>
      have past : stored.items.length ≤ position := Nat.le_of_eq enough.symm
      obtain ⟨cursor, advance, playing, listed, -⟩ := due.queued
      rw [played, due.poll_end past, List.drop_of_length_le past]
      refine ⟨rfl, engine, due.filed, ?_, due.found, rfl⟩
      rw [playingPlaylist, playing, Option.map_some, listed]
  | cons ending rest ih =>
      have within : position < stored.items.length := by
        rw [List.length_cons] at enough
        omega
      have there := List.getElem?_eq_getElem within
      obtain ⟨yields, next⟩ := due.poll there (first position _ (Nat.le_refl _) there)
      obtain ⟨covered, last⟩ := ih (next ending)
        (fun index item ahead => first index item (Nat.le_of_succ_le ahead))
        (by rw [List.length_cons] at enough; omega)
      rw [played, yields, List.drop_eq_getElem_cons within]
      exact ⟨congrArg (some _ :: ·) covered, last⟩

/-- Playback that is due before an item with the id of an earlier one stays before it. -/
theorem Due.poll_before {repeated earlier : Nat} {item : Item P}
    (due : engine.Due id stored position) (there : stored.items[repeated]? = some item)
    (placed : stored.itemIndex item.id = some earlier) (before : earlier < repeated)
    (ahead : position ≤ repeated) :
    engine.poll.2 ≠ none ∧ ∃ later ≤ repeated, ∀ ending,
      (engine.poll.1.conclude ending).Due id stored later := by
  have within : position < stored.items.length :=
    Nat.lt_of_le_of_lt ahead (List.getElem?_eq_some_iff.mp there).1
  have here := List.getElem?_eq_getElem within
  obtain ⟨index, found⟩ := Option.isSome_iff_exists.mp
    (Playlist.itemIndex_isSome.mpr (List.mem_map_of_mem (List.getElem_mem within)))
  obtain ⟨yields, next⟩ := due.poll here found
  refine ⟨fun nothing => ?_, index + 1, ?_, next⟩
  · rw [yields] at nothing
    cases nothing
  · rcases Nat.lt_or_eq_of_le ahead with strictly | rfl
    · exact Nat.succ_le_of_lt (Nat.lt_of_le_of_lt (itemIndex_le here found) strictly)
    · rw [here] at there
      cases there
      rw [placed] at found
      cases found
      exact before

/-- Where an item has the id of one before it, playback that is due before it never ends. -/
theorem Due.played_goes_on {repeated earlier : Nat} {item : Item P} (endings : List Ending)
    (due : engine.Due id stored position) (there : stored.items[repeated]? = some item)
    (placed : stored.itemIndex item.id = some earlier) (before : earlier < repeated)
    (ahead : position ≤ repeated) : none ∉ (engine.played endings).2 := by
  obtain ⟨yields, later, bound, next⟩ := due.poll_before there placed before ahead
  induction endings generalizing engine position later with
  | nil =>
      rw [played, List.mem_singleton]
      exact yields.symm
  | cons ending rest ih =>
      obtain ⟨yields', later', bound', next'⟩ :=
        (next ending).poll_before there placed before bound
      rw [played, List.mem_cons, not_or]
      exact ⟨yields.symm, ih (next ending) bound yields' later' bound' next'⟩

end Due

/-! ## From the start -/

/-- A playlist that has been started is due at the place of the item it is started at. -/
theorem due_start {engine : Engine P} (filed : engine.Filed) {id : PlaylistId}
    {stored : Playlist P} {source : Option ItemId} (found : engine.playlist id = some stored)
    (granted : (engine.start id source).2 = true) :
    ∃ position, source.elim (some 0) stored.itemIndex = some position ∧
      (engine.start id source).1.Due id stored position := by
  have filed' : (engine.start id source).1.Filed := filed_apply (.start id source) filed
  unfold start at granted filed' ⊢
  simp only at granted filed' ⊢
  cases looked : engine.stop.playlist id with
  | none => simp only [looked, Bool.false_eq_true] at granted
  | some same =>
      have kept := ((stop_playlist filed).mp looked).1
      rw [found] at kept
      cases kept
      simp only [looked] at granted filed' ⊢
      split at granted
      · cases granted
      · rename_i filled
        cases there : source.elim (some 0) stored.itemIndex with
        | none => simp only [there, Bool.false_eq_true] at granted
        | some position =>
            simp only [if_neg filled, there] at filed' ⊢
            exact ⟨position, rfl, filed', rfl, looked, _, .start, rfl, rfl, rfl, rfl⟩

/-- What playback is started with names the item at an index: by its id, or as the front. -/
def StartsAt (stored : Playlist P) (source : Option ItemId) (first : Nat) : Prop :=
  source = none ∧ first = 0 ∨
    ∃ item, stored.items[first]? = some item ∧ source = some item.id

/-- Playback covers a list from an index on: the items in order, and then its end, which an
anonymous list does not outlive. -/
structure Covers (engine : Engine P) (id : PlaylistId) (stored : Playlist P) (first : Nat)
    (endings : List Ending) : Prop where
  yields : (engine.played endings).2 = (stored.items.drop first).map some ++ [none]
  ends : (engine.played endings).1.cursor = none
  leaves : (engine.played endings).1.playlist id =
    if stored.isAnonymous then none else some stored

theorem covers_of_first {engine : Engine P} {id : PlaylistId} {stored : Playlist P} {position : Nat}
    {endings : List Ending} (due : engine.Due id stored position)
    (first : ∀ index item, position ≤ index → stored.items[index]? = some item →
      stored.itemIndex item.id = some index)
    (enough : position + endings.length = stored.items.length) :
    engine.Covers id stored position endings := by
  obtain ⟨yields, last, filed, playing, found, ended⟩ := due.played_covers endings first enough
  refine ⟨yields, ended ▸ last.stop_cursor, ?_⟩
  have gone : last.EndsWithPlayback stored ↔ stored.isAnonymous = true := by
    rw [EndsWithPlayback, playing, playlist_id found]
    exact ⟨And.right, fun anonymous => ⟨rfl, anonymous⟩⟩
  rw [ended]
  split
  · rename_i anonymous
    refine Option.eq_none_iff_forall_not_mem.mpr fun other there => ?_
    obtain ⟨same, stays⟩ := (stop_playlist filed).mp there
    rw [found] at same
    cases same
    exact stays (gone.mpr anonymous)
  · rename_i named
    exact (stop_playlist filed).mpr ⟨found, fun ends => named (gone.mp ends)⟩

/-- **Playback covers a list exactly if the items from where it starts on are the first of
their ids.** -/
theorem sequential_playback_covers {engine : Engine P} (run : Reaches Runs.unguarded engine)
    {id : PlaylistId} {stored : Playlist P} (found : engine.playlist id = some stored)
    {source : Option ItemId} (granted : (engine.start id source).2 = true) {first : Nat}
    (starts : StartsAt stored source first) {endings : List Ending}
    (enough : first + endings.length = stored.items.length) :
    (engine.start id source).1.Covers id stored first endings ↔
      ∀ index item, first ≤ index → stored.items[index]? = some item →
        stored.itemIndex item.id = some index := by
  obtain ⟨position, placed, due⟩ := due_start run.filed found granted
  constructor
  · intro covers index item ahead there
    have listed : item.id ∈ stored.items.map Item.id :=
      List.mem_map_of_mem (List.mem_of_getElem? there)
    obtain ⟨earlier, found⟩ :=
      Option.isSome_iff_exists.mp (Playlist.itemIndex_isSome.mpr listed)
    rcases Nat.lt_or_eq_of_le (itemIndex_le there found) with before | rfl
    · have early : position ≤ first := by
        rcases starts with ⟨rfl, rfl⟩ | ⟨begun, at_, rfl⟩
        · cases placed
          exact Nat.le_refl _
        · exact itemIndex_le at_ placed
      have goes := due.played_goes_on endings there found before (Nat.le_trans early ahead)
      rw [covers.yields] at goes
      exact absurd (List.mem_append_right _ List.mem_cons_self) goes
    · exact found
  · intro firsts
    have same : position = first := by
      rcases starts with ⟨rfl, rfl⟩ | ⟨begun, at_, rfl⟩
      · cases placed
        rfl
      · rw [Option.elim_some, firsts first begun (Nat.le_refl _) at_] at placed
        exact (Option.some.inj placed).symm
    subst same
    exact covers_of_first due firsts enough

/-- A list of two items, of which the second has been given the id of the first or not. -/
def pairing (edit : Item Unit → Item Unit) : List (Action Unit) :=
  [.create none, .append ⟨1⟩ ⟨"a", 0, "", "", 0, ()⟩, .append ⟨1⟩ ⟨"b", 0, "", "", 0, ()⟩,
    .editItem ⟨1⟩ ⟨2⟩ edit]

theorem sequential_playback_covers_a_pair : ∃ engine : Engine Unit, ∃ stored : Playlist Unit,
    stored.items.length = 2 ∧
      ((engine.start ⟨1⟩ none).1.Covers ⟨1⟩ stored 0 [.finished, .failed] ↔
        ∀ index item, 0 ≤ index → stored.items[index]? = some item →
          stored.itemIndex item.id = some index) :=
  ⟨(pairing id).foldl apply {}, _, rfl,
    sequential_playback_covers (reaches_foldl (.refl _) _) rfl rfl (.inl ⟨rfl, rfl⟩) rfl⟩

/-- With one id for both items, the second is yielded again instead of an end. -/
theorem a_shared_id_goes_round : ∃ engine : Engine Unit, ∃ stored : Playlist Unit,
    Reaches Runs.unguarded engine ∧ engine.playlist ⟨1⟩ = some stored ∧
      stored.items.length = 2 ∧ (engine.start ⟨1⟩ none).2 = true ∧
      ((engine.start ⟨1⟩ none).1.played [.finished, .finished]).2.map (Option.map (·.identity)) =
        [some "a", some "b", some "b"] ∧
      ¬ (engine.start ⟨1⟩ none).1.Covers ⟨1⟩ stored 0 [.finished, .finished] := by
  refine ⟨(pairing fun item => { item with id := ⟨1⟩ }).foldl apply {}, _,
    reaches_foldl (.refl _) _, rfl, rfl, rfl, rfl, fun covers => ?_⟩
  have yields := congrArg (List.map Option.isSome) covers.yields
  revert yields
  decide

end Engine

end Retrovert.Playlists
