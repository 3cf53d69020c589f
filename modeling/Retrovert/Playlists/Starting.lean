import Retrovert.Playlists.Failing
import Retrovert.Playlists.Storage

/-!
# Starting a playlist

A request to start names a playlist and, unless it starts at the front, one of its
items. Playback in progress ends before the request is looked at, and an anonymous
playlist goes with it. So a request that is refused still ends playback, and an
anonymous playlist cannot be started while it plays (`start_is_validated`).
-/

set_option autoImplicit false

namespace Retrovert.Playlists

namespace Playlist

variable {P : Type}

/-- A playlist can be started at its front, or at an item that it holds. -/
def Startable (stored : Playlist P) (source : Option ItemId) : Prop :=
  stored.items ≠ [] ∧ ∀ id, source = some id → id ∈ stored.items.map Item.id

/-- The item that a playlist is started at. -/
def opening (stored : Playlist P) (source : Option ItemId) : Option (Item P) :=
  source.elim stored.items.head? stored.item

theorem item_eq_bind (stored : Playlist P) (id : ItemId) :
    stored.item id = (stored.itemIndex id).bind (stored.items[·]?) :=
  List.find?_eq_bind_findIdx?_getElem?

theorem itemIndex_isSome {stored : Playlist P} {id : ItemId} :
    (stored.itemIndex id).isSome = true ↔ id ∈ stored.items.map Item.id := by
  rw [itemIndex, List.findIdx?_isSome, List.any_eq_true, List.mem_map]
  simp only [beq_iff_eq]

/-- The place of an opening item is one that the playlist has. -/
theorem opening_eq {stored : Playlist P} {source : Option ItemId} {position : Nat}
    (filled : stored.items ≠ []) (there : source.elim (some 0) stored.itemIndex = some position) :
    position < stored.items.length ∧ stored.opening source = stored.items[position]? := by
  cases source with
  | none =>
      cases there
      exact ⟨List.length_pos_of_ne_nil filled, List.head?_eq_getElem?⟩
  | some id =>
      rw [Option.elim_some] at there
      obtain ⟨_, at_, -⟩ := Engine.itemIndex_eq_some there
      refine ⟨(List.getElem?_eq_some_iff.mp at_).1, ?_⟩
      rw [opening, Option.elim_some, item_eq_bind, there, Option.bind_some]

/-- An item to start at is looked for by its id. -/
theorem startable_iff {stored : Playlist P} {source : Option ItemId} :
    stored.Startable source ↔
      stored.items ≠ [] ∧ ∃ position, source.elim (some 0) stored.itemIndex = some position := by
  refine and_congr_right fun _ => ?_
  cases source with
  | none => exact ⟨fun _ => ⟨0, rfl⟩, fun _ _ same => by cases same⟩
  | some id =>
      rw [Option.elim_some, ← Option.isSome_iff_exists, itemIndex_isSome]
      exact ⟨fun listed => listed id rfl, fun member _ same => by cases same; exact member⟩

end Playlist

namespace Engine

variable {P : Type}

/-- A request names a stored playlist that can be started so. -/
def Startable (engine : Engine P) (id : PlaylistId) (source : Option ItemId) : Prop :=
  ∃ stored, engine.playlist id = some stored ∧ stored.Startable source

/-- A playlist that is gone once playback ends: the one that plays, if it has no name. -/
def EndsWithPlayback (engine : Engine P) (stored : Playlist P) : Prop :=
  engine.playingPlaylist = some stored.id ∧ stored.isAnonymous = true

/-! ## What is left once playback ends -/

theorem mem_removePlaylist {engine : Engine P} (filed : engine.Filed) {id : PlaylistId}
    {stored : Playlist P} :
    stored ∈ (engine.removePlaylist id).playlists ↔ stored ∈ engine.playlists ∧ stored.id ≠ id := by
  unfold removePlaylist
  cases looked : engine.playlistIndex id with
  | none =>
      refine ⟨fun member => ⟨member, fun same => ?_⟩, And.left⟩
      simpa [same] using List.findIdx?_eq_none_iff.mp looked stored member
  | some index =>
      obtain ⟨erased, there, rfl, -⟩ := playlistIndex_eq_some looked
      obtain ⟨within, rfl⟩ := List.getElem?_eq_some_iff.mp there
      refine List.mem_eraseIdx_iff_getElem.trans ⟨?_, ?_⟩
      · rintro ⟨position, inside, apart, rfl⟩
        refine ⟨List.getElem_mem inside, fun same => apart ?_⟩
        have named : position < (engine.playlists.map Playlist.id).length := by
          rwa [List.length_map]
        refine (List.getElem?_inj named filed.distinct).mp ?_
        rw [List.getElem?_map, List.getElem?_map, List.getElem?_eq_getElem inside,
          List.getElem?_eq_getElem within, Option.map_some, Option.map_some, same]
      · rintro ⟨member, apart⟩
        obtain ⟨position, inside, rfl⟩ := List.getElem_of_mem member
        refine ⟨position, inside, ?_, rfl⟩
        rintro rfl
        exact apart rfl

/-- Ending playback takes the anonymous playlist that plays, and no other. -/
theorem mem_stop {engine : Engine P} (filed : engine.Filed) {stored : Playlist P} :
    stored ∈ engine.stop.playlists ↔
      stored ∈ engine.playlists ∧ ¬ engine.EndsWithPlayback stored := by
  unfold stop EndsWithPlayback playingPlaylist
  cases engine.cursor with
  | none => simp
  | some cursor =>
      have still : Filed { engine with cursor := none } := ⟨filed.distinct, filed.bound⟩
      simp only [Option.map_some, Option.some.injEq]
      cases found : playlist { engine with cursor := none } cursor.playlist with
      | none =>
          refine ⟨fun member => ⟨member, fun gone => ?_⟩, And.left⟩
          rw [still.playlist_eq_some.mpr ⟨member, gone.1.symm⟩] at found
          cases found
      | some playing =>
          obtain ⟨listed, named⟩ := still.playlist_eq_some.mp found
          rw [Option.any_some]
          split
          · rename_i anonymous
            refine (mem_removePlaylist still).trans (and_congr_right fun member => not_congr ?_)
            refine ⟨fun same => ⟨same.symm, ?_⟩, fun gone => gone.1.symm⟩
            rwa [List.inj_on_of_nodup_map filed.distinct member listed (same.trans named.symm)]
          · rename_i kept
            refine ⟨fun member => ⟨member, fun gone => kept ?_⟩, And.left⟩
            rw [← List.inj_on_of_nodup_map filed.distinct member listed
              (gone.1.symm.trans named.symm)]
            exact gone.2

theorem stop_playlist {engine : Engine P} (filed : engine.Filed) {id : PlaylistId}
    {stored : Playlist P} :
    engine.stop.playlist id = some stored ↔
      engine.playlist id = some stored ∧ ¬ engine.EndsWithPlayback stored := by
  have still : engine.stop.Filed := filed_apply .stop filed
  rw [still.playlist_eq_some, mem_stop filed, filed.playlist_eq_some, and_right_comm]

/-- A request can be granted once playback has ended if it could before, and does not name
the playlist that goes with playback. -/
theorem stop_startable {engine : Engine P} (filed : engine.Filed) {id : PlaylistId}
    {source : Option ItemId} :
    engine.stop.Startable id source ↔ engine.Startable id source ∧
      ∀ stored, engine.playlist id = some stored → ¬ engine.EndsWithPlayback stored := by
  constructor
  · rintro ⟨stored, found, startable⟩
    obtain ⟨found, stays⟩ := (stop_playlist filed).mp found
    refine ⟨⟨stored, found, startable⟩, fun other there => ?_⟩
    rw [found] at there
    cases there
    exact stays
  · rintro ⟨⟨stored, found, startable⟩, stays⟩
    exact ⟨stored, (stop_playlist filed).mpr ⟨found, stays stored found⟩, startable⟩

/-! ## Requests -/

/-- A request is refused, and then only playback has ended, or it is granted, and then the
next poll yields the item it asks for. -/
theorem start_spec (engine : Engine P) (id : PlaylistId) (source : Option ItemId) :
    ¬ engine.stop.Startable id source ∧ engine.start id source = (engine.stop, false) ∨
      ∃ stored item, engine.stop.playlist id = some stored ∧ stored.Startable source ∧
        stored.opening source = some item ∧ (engine.start id source).2 = true ∧
        (engine.start id source).1.poll.2 = some item := by
  cases found : engine.stop.playlist id with
  | none =>
      refine .inl ⟨?_, by simp only [start, found]⟩
      rintro ⟨stored, there, -⟩
      rw [found] at there
      cases there
  | some stored =>
      by_cases startable : stored.Startable source
      · obtain ⟨filled, position, there⟩ := Playlist.startable_iff.mp startable
        obtain ⟨within, opens⟩ := Playlist.opening_eq filled there
        rw [List.getElem?_eq_getElem within] at opens
        refine .inr ⟨stored, _, rfl, startable, opens, ?_⟩
        simp only [start, found, if_neg filled, there]
        rw [poll_eq rfl rfl found]
        simp only [leadsTo, if_pos within, List.getElem?_eq_getElem within]
        exact ⟨trivial, trivial⟩
      · refine .inl ⟨?_, ?_⟩
        · rintro ⟨stored', there, holds⟩
          rw [found] at there
          cases there
          exact startable holds
        · rw [Playlist.startable_iff, not_and] at startable
          simp only [start, found]
          split
          · rfl
          · rename_i filled
            cases there : source.elim (some 0) stored.itemIndex with
            | none => rfl
            | some position => exact absurd ⟨position, there⟩ (startable filled)

/-- Starting does what it is asked: it succeeds exactly on the requests that name a stored
playlist and something in it, the next poll yields that item, and a refusal leaves the stored
playlists and playback as they were. -/
structure StartsRightly (engine : Engine P) (id : PlaylistId) (source : Option ItemId) :
    Prop where
  succeeds : (engine.start id source).2 = true ↔ engine.Startable id source
  yields : (engine.start id source).2 = true → ∃ stored item,
    engine.playlist id = some stored ∧ stored.opening source = some item ∧
      (engine.start id source).1.poll.2 = some item
  refuses : (engine.start id source).2 = false →
    (engine.start id source).1.playlists = engine.playlists ∧
      (engine.start id source).1.cursor = engine.cursor ∧
      (engine.start id source).1.mode = engine.mode

/-- **Starting does what it is asked exactly when nothing plays**, or the request is a valid
one, for another playlist than an anonymous one that plays. -/
theorem start_is_validated {engine : Engine P} (run : Reaches Runs.unguarded engine)
    (id : PlaylistId) (source : Option ItemId) :
    engine.StartsRightly id source ↔
      engine.cursor = none ∨ engine.Startable id source ∧
        ∀ stored, engine.playlist id = some stored → ¬ engine.EndsWithPlayback stored := by
  have remaining : engine.stop.Startable id source ↔ _ := stop_startable run.filed
  rcases engine.start_spec id source with
    ⟨refused, started⟩ | ⟨stored, item, found, startable, opens, granted, yields⟩
  · constructor
    · intro rightly
      obtain ⟨-, kept, -⟩ := rightly.refuses (congrArg Prod.snd started)
      rw [started, stop_cursor] at kept
      exact .inl kept.symm
    · rintro (still | valid)
      · have same : engine.stop = engine := by rw [stop, still]
        rw [same] at refused started
        have failed : (engine.start id source).2 ≠ true := by simp [started]
        refine ⟨⟨fun granted => absurd granted failed, fun valid => absurd valid refused⟩,
          fun granted => absurd granted failed, fun _ => ?_⟩
        rw [started]
        exact ⟨rfl, rfl, rfl⟩
      · exact absurd (remaining.mpr valid) refused
  · have valid := remaining.mp ⟨stored, found, startable⟩
    refine ⟨fun _ => .inr valid, fun _ => ⟨⟨fun _ => valid.1, fun _ => granted⟩, fun _ => ?_,
      fun refused => ?_⟩⟩
    · exact ⟨stored, item, ((stop_playlist run.filed).mp found).1, opens, yields⟩
    · rw [granted] at refused
      cases refused

/-! ## Two refusals -/

/-- How a named playlist of two items and an anonymous one of one item come about. -/
def shelving : List (Action Unit) :=
  let spec : ItemSpec Unit := ⟨"", 0, "", "", 0, ()⟩
  [.create (some "mix"), .append ⟨1⟩ spec, .append ⟨1⟩ spec, .create none, .append ⟨2⟩ spec]

theorem reaches_foldl {engine : Engine P} (run : Reaches Runs.unguarded engine)
    (actions : List (Action P)) : Reaches Runs.unguarded (actions.foldl apply engine) := by
  induction actions generalizing engine with
  | nil => exact run
  | cons action rest ih => exact ih (moves_apply run trivial)

theorem start_is_validated_on_a_shelf : ∃ engine : Engine Unit,
    engine.cursor = none ∧ (engine.playlist ⟨1⟩).isSome ∧ (engine.StartsRightly ⟨1⟩ (some ⟨2⟩) ↔
      engine.cursor = none ∨ engine.Startable ⟨1⟩ (some ⟨2⟩) ∧
        ∀ stored, engine.playlist ⟨1⟩ = some stored → ¬ engine.EndsWithPlayback stored) :=
  ⟨shelving.foldl apply {}, rfl, rfl,
    start_is_validated (reaches_foldl (.refl _) shelving) ⟨1⟩ (some ⟨2⟩)⟩

/-- A refused request ends playback, and a request for the anonymous playlist that plays is
refused, and takes the playlist. -/
theorem a_refused_start_ends_playback :
    (∃ engine : Engine Unit, Reaches Runs.unguarded engine ∧
      engine.playingPlaylist = some ⟨1⟩ ∧ (engine.start ⟨7⟩ none).2 = false ∧
      (engine.start ⟨7⟩ none).1.playingPlaylist = none ∧ ¬ engine.StartsRightly ⟨7⟩ none) ∧
    ∃ engine : Engine Unit, Reaches Runs.unguarded engine ∧
      (engine.playlist ⟨2⟩).map (·.items.length) = some 1 ∧ (engine.start ⟨2⟩ none).2 = false ∧
      (engine.start ⟨2⟩ none).1.playlist ⟨2⟩ = none ∧ ¬ engine.StartsRightly ⟨2⟩ none := by
  have shelved : Reaches Runs.unguarded (shelving.foldl apply {}) := reaches_foldl (.refl _) _
  refine ⟨⟨Engine.apply (shelving.foldl apply {}) (.start ⟨1⟩ none), moves_apply shelved trivial,
    rfl, rfl, rfl, fun rightly => ?_⟩, Engine.apply (shelving.foldl apply {}) (.start ⟨2⟩ none),
    moves_apply shelved trivial, rfl, rfl, rfl, fun rightly => ?_⟩
  · have kept := (rightly.refuses rfl).2.1
    cases kept
  · have kept := (rightly.refuses rfl).2.1
    cases kept

end Engine

end Retrovert.Playlists
