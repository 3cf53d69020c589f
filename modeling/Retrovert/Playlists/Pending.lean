import Retrovert.Playlists.Runs

/-!
# The item that comes next while the current one is not in the list

Before the first poll, and after the current item is removed, the cursor has only
a number to go by. An edit that shifts the items below that number makes it name
another item: the removal of an item that stands before it
(`a_removal_skips_an_item`). A move that does not cross it leaves the next item
alone, and so does every other removal (`pending_position_is_stable`).
-/

set_option autoImplicit false

namespace Retrovert.Playlists

/-! ## Positions under edits of a list -/

section Positions

variable {α : Type}

/-- The index that a position leads to in a list of this length, one past the end
leading back to the front where the list wraps. -/
def pickIndex (length position : Nat) (wraps : Bool) : Option Nat :=
  if position < length then some position
  else if wraps && length != 0 then some 0
  else none

/-- The element that a position leads to. -/
def pick (list : List α) (position : Nat) (wraps : Bool) : Option α :=
  (pickIndex list.length position wraps).bind (list[·]?)

theorem pick_of_lt {list : List α} {position : Nat} {wraps : Bool}
    (within : position < list.length) : pick list position wraps = list[position]? := by
  simp [pick, pickIndex, within]

theorem pick_of_le {list : List α} {position : Nat} {wraps : Bool}
    (beyond : list.length ≤ position) :
    pick list position wraps = if wraps then list[0]? else none := by
  cases list with
  | nil => cases wraps <;> simp [pick, pickIndex]
  | cons first rest =>
      have past : ¬position < rest.length + 1 := Nat.not_lt.mpr beyond
      cases wraps <;> simp [pick, pickIndex, past]

/-- Where taking out the element at `index` leaves what a position leads to: at or
before the position, past the end, or where it wraps around to the only other
element. -/
def SparesPick (length position index : Nat) (wraps : Bool) : Prop :=
  position ≤ index ∨ length ≤ position ∨ wraps = true ∧ length = 2 ∧ position = 1

theorem pick_eraseIdx {list : List α} (distinct : list.Nodup) {index position : Nat} {wraps : Bool}
    (within : index < list.length) (other : pick list position wraps ≠ some list[index]) :
    pick (list.eraseIdx index) position wraps = pick list position wraps ↔
      SparesPick list.length position index wraps := by
  have length := List.length_eraseIdx_of_lt within
  rcases Nat.lt_or_ge position list.length with inside | beyond
  · rw [pick_of_lt inside, List.getElem?_eq_getElem inside] at other ⊢
    have apart : position ≠ index := by
      rintro rfl
      exact other rfl
    rcases Nat.lt_or_ge position index with before | behind
    · have kept : position < (list.eraseIdx index).length := by omega
      rw [pick_of_lt kept, List.getElem?_eraseIdx_of_lt before, List.getElem?_eq_getElem inside]
      exact iff_of_true rfl (.inl (Nat.le_of_lt before))
    · have shifted : index < position := by omega
      rcases Nat.lt_or_ge position (list.length - 1) with inner | last
      · rw [pick_of_lt (by omega), List.getElem?_eraseIdx_of_ge (by omega),
          List.getElem?_eq_getElem (by omega)]
        refine iff_of_false (fun same => ?_) ?_
        · have := (List.Nodup.getElem_inj_iff distinct).mp (Option.some.inj same)
          omega
        · rintro (le | le | ⟨-, two, one⟩) <;> omega
      · obtain rfl : position = list.length - 1 := by omega
        rw [pick_of_le (by omega)]
        cases wraps with
        | false =>
            refine iff_of_false (by simp) ?_
            rintro (le | le | ⟨no, -, -⟩)
            · omega
            · omega
            · cases no
        | true =>
            simp only [if_true, SparesPick, true_and]
            rw [List.getElem?_eraseIdx]
            split
            · rw [List.getElem?_eq_getElem (by omega), Option.some_inj,
                List.Nodup.getElem_inj_iff distinct]
              omega
            · rw [List.getElem?_eq_getElem (by omega), Option.some_inj,
                List.Nodup.getElem_inj_iff distinct]
              omega
  · refine iff_of_true ?_ (.inr (.inl beyond))
    rw [pick_of_le beyond] at other ⊢
    rw [pick_of_le (by omega)]
    cases wraps with
    | false => rfl
    | true =>
        simp only [if_true] at other ⊢
        have later : 0 < index := by
          rcases Nat.eq_zero_or_pos index with rfl | positive
          · exact absurd (List.getElem?_eq_getElem within) other
          · exact positive
        rw [List.getElem?_eraseIdx_of_lt later]

/-- A move between two indexes carries an element across a position. -/
def Crosses (source target position : Nat) : Prop :=
  source < position ∧ position ≤ target ∨ target ≤ position ∧ position < source

theorem length_relocated {list : List α} {source target : Nat} (within : target < list.length) :
    (relocated list source target).length = list.length := by
  unfold relocated
  cases found : list[source]? with
  | none => rfl
  | some element =>
      have inside := (List.getElem?_eq_some_iff.mp found).1
      have length := List.length_eraseIdx_of_lt inside
      simp only
      rw [List.length_insertIdx_of_le_length (by omega)]
      omega

theorem mem_relocated {list : List α} {source target : Nat}
    (within : target < list.length) {element : α} (member : element ∈ list) :
    element ∈ relocated list source target := by
  have same := (Engine.subperm_relocated list source target).perm_of_length_le
    (Nat.le_of_eq (length_relocated within).symm)
  exact same.mem_iff.mpr member

/-- An element stays where it is when no move crosses it. -/
theorem getElem?_relocated {list : List α} {source target position : Nat}
    (other : source ≠ position) (clear : ¬Crosses source target position) :
    (relocated list source target)[position]? = list[position]? := by
  unfold relocated
  cases found : list[source]? with
  | none => rfl
  | some element =>
      have inside := (List.getElem?_eq_some_iff.mp found).1
      have length := List.length_eraseIdx_of_lt inside
      simp only [Crosses] at clear ⊢
      rcases Nat.lt_or_ge position source with before | behind
      · rw [List.getElem?_insertIdx_of_lt (by omega), List.getElem?_eraseIdx_of_lt before]
      · rw [List.getElem?_insertIdx_of_gt (by omega), List.getElem?_eraseIdx_of_ge (by omega),
          Nat.sub_add_cancel (by omega)]

end Positions

namespace Engine

variable {P : Type}

/-! ## The next forward poll -/

/-- The engine about to be polled forward: playback starts if it has yet to start,
and advances otherwise. -/
def readyForward (engine : Engine P) : Engine P :=
  { engine with
    cursor := engine.cursor.map fun cursor =>
      if cursor.pending = some .start then cursor else { cursor with pending := some .forward } }

/-- The item that the next forward poll yields. -/
def pollForward (engine : Engine P) : Option (Item P) := engine.readyForward.poll.2

/-- That is the next poll, when it is to start or to advance. -/
theorem pollForward_of_pending {engine : Engine P} {cursor : Cursor}
    (playing : engine.cursor = some cursor)
    (pending : cursor.pending = some .start ∨ cursor.pending = some .forward) :
    engine.pollForward = engine.poll.2 := by
  have same : engine.readyForward = engine := by
    unfold readyForward
    rw [playing, Option.map_some]
    rcases pending with start | forward
    · rw [if_pos start, ← playing]
    · obtain ⟨playlist, current, position, pending, failures, currentRemoved⟩ := cursor
      cases forward
      rw [if_neg (by simp), ← playing]
  rw [pollForward, same]

section Absent

variable {engine : Engine P} {cursor : Cursor} {stored : Playlist P}

/-- The cursor's current item is not in the list that it plays. -/
structure Absent (engine : Engine P) (cursor : Cursor) (stored : Playlist P) : Prop where
  playing : engine.cursor = some cursor
  found : engine.playlist cursor.playlist = some stored
  absent : cursor.index stored = none

/-- Playback past the end of the list goes on at its front. -/
def wraps (engine : Engine P) (cursor : Cursor) : Bool :=
  engine.mode == .loop && cursor.pending != some .start

/-- What a poll yields is the item that its advance leads to. -/
theorem poll_item {advance : Advance} (playing : engine.cursor = some cursor)
    (pending : cursor.pending = some advance)
    (found : engine.playlist cursor.playlist = some stored) :
    engine.poll.2 = (engine.leadsTo cursor stored advance).bind (stored.items[·]?) := by
  rw [poll_eq playing pending found]
  cases engine.leadsTo cursor stored advance with
  | none => rfl
  | some position =>
      simp only [Option.bind_some]
      cases stored.items[position]? <;> rfl

/-- With the current item gone, the next one is where the position leads. -/
theorem Absent.pollForward_eq (absent : Absent engine cursor stored) :
    engine.pollForward = pick stored.items cursor.position (engine.wraps cursor) := by
  by_cases start : cursor.pending = some .start
  · rw [pollForward_of_pending absent.playing (.inl start),
      poll_item absent.playing start absent.found]
    simp [pick, pickIndex, wraps, start, leadsTo]
  · have ready : engine.readyForward = { engine with
        cursor := some { cursor with pending := some .forward } } := by
      rw [readyForward, absent.playing, Option.map_some, if_neg start]
    have forward : engine.readyForward.forwardPosition =
        pickIndex stored.items.length cursor.position (engine.wraps cursor) := by
      have loops : engine.wraps cursor = decide (engine.mode = .loop) := by
        have advances : (cursor.pending != some .start) = true := by simpa using start
        rw [wraps, advances, Bool.and_true]
        exact beq_eq_decide _ _
      have index : Cursor.index { cursor with pending := some .forward } stored = none :=
        absent.absent
      have found : engine.readyForward.playlist cursor.playlist = some stored := absent.found
      rw [ready] at found ⊢
      simp only [forwardPosition, Option.bind_eq_bind, Option.bind_some, found, index,
        Option.elim_none, pickIndex, loops]
      cases stored.items with
      | nil => simp
      | cons first rest => simp
    have playing : engine.readyForward.cursor =
        some { cursor with pending := some .forward } := by rw [ready]
    rw [Engine.pollForward, poll_item playing rfl absent.found, leadsTo, forward]
    rfl

end Absent

/-! ## Edits -/

section Edits

variable {engine : Engine P} {cursor : Cursor} {stored : Playlist P} {id : PlaylistId}
  {item : ItemId}

/-- A list whose items are among those of another has no item that the other lacks. -/
theorem itemIndex_eq_none {later : Playlist P} (missing : stored.itemIndex item = none)
    (subset : later.items ⊆ stored.items) : later.itemIndex item = none := by
  rw [Playlist.itemIndex, List.findIdx?_eq_none_iff] at missing ⊢
  exact fun element member => missing element (subset member)

/-- The item an edit names stands somewhere else than the current one did. -/
theorem Absent.current_ne (absent : Absent engine cursor stored) {index : Nat}
    (found : stored.itemIndex item = some index) : cursor.current ≠ some item := by
  intro current
  have missing := absent.absent
  rw [Cursor.index, current, Option.bind_some, found] at missing
  cases missing

/-- An edit of some list, the cursor left alone. -/
theorem Absent.edited (absent : Absent engine cursor stored) {later : Engine P}
    {edited : Playlist P} (same : later.cursor = engine.cursor) (mode : later.mode = engine.mode)
    (found : later.playlist cursor.playlist = some edited) (subset : edited.items ⊆ stored.items) :
    later.pollForward = pick edited.items cursor.position (engine.wraps cursor) := by
  have still : Absent later cursor edited := by
    refine ⟨same.trans absent.playing, found, ?_⟩
    have missing := absent.absent
    unfold Cursor.index at missing ⊢
    cases current : cursor.current with
    | none => rfl
    | some item =>
        rw [current, Option.bind_some] at missing
        exact itemIndex_eq_none missing subset
  rw [still.pollForward_eq, wraps, mode]
  rfl

/-- A removal leaves the next item alone: it is not from the list being played, or
spares what the position leads to. -/
def RemovesSafely (engine : Engine P) (id : PlaylistId) (item : ItemId) : Prop :=
  ∀ cursor stored index, engine.cursor = some cursor → cursor.playlist = id →
    engine.playlist id = some stored → stored.itemIndex item = some index →
      SparesPick stored.items.length cursor.position index (engine.wraps cursor)

/-- A move carries its item across the position of the next one. -/
def CarriesAcross (engine : Engine P) (id : PlaylistId) (item : ItemId)
    (after : Option ItemId) : Prop :=
  ∃ cursor stored source target position, engine.cursor = some cursor ∧ cursor.playlist = id ∧
    engine.playlist id = some stored ∧ stored.destination item after = some (source, target) ∧
    pickIndex stored.items.length cursor.position (engine.wraps cursor) = some position ∧
    Crosses source target position

/-- A removal from the list being played changes the next item unless it spares the
position. -/
theorem Absent.remove (absent : Absent engine cursor stored) (distinct : stored.items.Nodup)
    (playing : cursor.playlist = id) {index : Nat} (there : stored.itemIndex item = some index)
    (other : ∀ next, engine.pollForward = some next → next.id ≠ item) :
    (engine.removeItem id item).1.pollForward = engine.pollForward ↔
      SparesPick stored.items.length cursor.position index (engine.wraps cursor) := by
  subst playing
  obtain ⟨element, standing, named⟩ := itemIndex_eq_some there
  obtain ⟨within, rfl⟩ := List.getElem?_eq_some_iff.mp standing
  rcases engine.removeItem_eq cursor.playlist item with
    ⟨-, missing⟩ | ⟨_, _, found, at_, mode, left, lookup⟩
  · obtain ⟨position, looked, stands⟩ := playlistIndex_of_playlist absent.found
    simp [locate, looked, stands, there] at missing
  · rw [absent.found] at found
    cases found
    rw [there] at at_
    cases at_
    have apart : ¬(cursor.playlist = cursor.playlist ∧ cursor.current = some item) :=
      fun same => absent.current_ne there same.2
    have same : (engine.removeItem cursor.playlist item).1.cursor = engine.cursor := by
      rw [left, absent.playing, Option.map_some, if_neg apart]
    have edited := absent.edited same mode (by rw [lookup, if_pos rfl])
      (List.eraseIdx_sublist _ _).subset
    rw [edited, absent.pollForward_eq]
    refine pick_eraseIdx distinct within fun next => ?_
    exact other _ (absent.pollForward_eq.trans next) named

/-- An edit of a list that is not being played does not change the next item. -/
theorem Absent.elsewhere (absent : Absent engine cursor stored) {later : Engine P}
    (same : later.cursor = engine.cursor) (mode : later.mode = engine.mode)
    (found : later.playlist cursor.playlist = engine.playlist cursor.playlist) :
    later.pollForward = engine.pollForward := by
  rw [absent.edited same mode (found.trans absent.found) (List.Subset.refl _),
    absent.pollForward_eq]

/-- A move that carries nothing across the position of the next item does not
change it. -/
theorem Absent.move (absent : Absent engine cursor stored) {after : Option ItemId}
    (other : ∀ next, engine.pollForward = some next → next.id ≠ item)
    (clear : ¬engine.CarriesAcross id item after) :
    (engine.moveItem id item after).1.pollForward = engine.pollForward := by
  rcases engine.moveItem_eq id item after with
    same | ⟨list, source, target, found, moved, mode, left, lookup⟩
  · rw [same]
  · by_cases playing : cursor.playlist = id
    · subst playing
      rw [absent.found] at found
      cases found
      obtain ⟨there, within⟩ := destination_eq_some moved
      have subset : relocated stored.items source target ⊆ stored.items :=
        (subperm_relocated _ _ _).subset
      rw [absent.edited left mode (by rw [lookup, if_pos rfl]) subset, absent.pollForward_eq, pick,
        pick, length_relocated within]
      cases place : pickIndex stored.items.length cursor.position (engine.wraps cursor) with
      | none => rfl
      | some position =>
          refine getElem?_relocated (fun same => ?_) fun crossed => clear
            ⟨cursor, stored, source, target, position, absent.playing, rfl, absent.found, moved,
              place, crossed⟩
          obtain ⟨element, standing, named⟩ := itemIndex_eq_some there
          refine other element ?_ named
          rw [absent.pollForward_eq, pick, place, Option.bind_some, ← same]
          exact standing
    · exact absent.elsewhere left mode (by rw [lookup, if_neg playing])

end Edits

/-- The cursor's current item is not in the list: playback has yet to be polled, or
the item was removed. -/
def CurrentAbsent (engine : Engine P) : Prop := ∃ cursor stored, Absent engine cursor stored

theorem Wellformed.distinct {engine : Engine P} (wellformed : engine.Wellformed)
    {id : PlaylistId} {stored : Playlist P} (found : engine.playlist id = some stored) :
    (stored.items.map Item.id).Nodup :=
  (List.nodup_flatMap.mp wellformed.itemIds).1 stored (List.mem_of_find?_eq_some found)

/-- **A pending position is stable** under the edits of other items that keep the
items before it in place. In every run whose edits keep the ids of their items, with
the current item not in the list: removing another item than the next leaves the
next one as it was exactly when the removal is safe, and moving one does whenever
nothing is carried across the next one's position. -/
theorem pending_position_is_stable {engine : Engine P} (run : Reaches KeepsIds engine)
    (absent : engine.CurrentAbsent) (id : PlaylistId) (item : ItemId)
    (other : ∀ next, engine.pollForward = some next → next.id ≠ item) :
    ((engine.removeItem id item).1.pollForward = engine.pollForward ↔
        engine.RemovesSafely id item) ∧
      ∀ after, ¬engine.CarriesAcross id item after →
        (engine.moveItem id item after).1.pollForward = engine.pollForward := by
  obtain ⟨cursor, stored, absent⟩ := absent
  have distinct : stored.items.Nodup := .of_map _ (run.wellformed.distinct absent.found)
  refine ⟨?_, fun after clear => absent.move other clear⟩
  by_cases played : cursor.playlist = id ∧ ∃ index, stored.itemIndex item = some index
  · obtain ⟨playing, index, there⟩ := played
    rw [absent.remove distinct playing there other]
    constructor
    · intro spares cursor' stored' index' playing' _ found' there'
      rw [absent.playing] at playing'
      cases playing'
      rw [← playing, absent.found] at found'
      cases found'
      rw [there] at there'
      cases there'
      exact spares
    · intro safe
      exact safe cursor stored index absent.playing playing (playing ▸ absent.found) there
  · have safe : engine.RemovesSafely id item := by
      intro cursor' stored' index' playing' same found' there'
      rw [absent.playing] at playing'
      cases playing'
      rw [← same, absent.found] at found'
      cases found'
      exact absurd ⟨same, index', there'⟩ played
    refine iff_of_true ?_ safe
    rcases engine.removeItem_eq id item with
      ⟨same, -⟩ | ⟨list, index, found, there, mode, left, lookup⟩
    · rw [same]
    · have elsewhere : cursor.playlist ≠ id := by
        intro same
        rw [← same, absent.found] at found
        cases found
        exact played ⟨same, index, there⟩
      refine absent.elsewhere ?_ mode (by rw [lookup, if_neg elsewhere])
      rw [left, absent.playing, Option.map_some, if_neg fun same => elsewhere same.1]

/-- A new list of three items, its playback started from the given one. -/
def threeFrom (source : ItemId) : List (Action Unit) :=
  [.create none, .append ⟨1⟩ ⟨"a", 0, "", "", 0, ()⟩, .append ⟨1⟩ ⟨"b", 0, "", "", 0, ()⟩,
    .append ⟨1⟩ ⟨"c", 0, "", "", 0, ()⟩, .start ⟨1⟩ (some source)]

/-- No action of a script edits an item, so each keeps the ids. -/
theorem reaches_of_applied (actions : List (Action P))
    (edits : ∀ action ∈ actions, ∀ playlist item edit, action ≠ .editItem playlist item edit) :
    Reaches KeepsIds (actions.foldl Engine.apply ({} : Engine P)) := by
  suffices runs : ∀ engine : Engine P, Runs.Moves step KeepsIds engine
      (actions.foldl Engine.apply engine) from runs {}
  induction actions with
  | nil => exact fun engine => .refl engine
  | cons action rest ih =>
      intro engine
      refine .head ?_ rfl (ih (fun later member => edits later (List.mem_cons_of_mem _ member)) _)
      cases action with
      | editItem playlist item edit => exact absurd rfl (edits _ List.mem_cons_self _ _ _)
      | _ => trivial

theorem threeFrom_reaches (source : ItemId) :
    Reaches KeepsIds ((threeFrom source).foldl Engine.apply {}) :=
  reaches_of_applied _ (by simp [threeFrom])

/-- Removing the last item of a list that is to start from the first one. -/
theorem pending_position_is_stable_at_the_front :
    ((((threeFrom ⟨1⟩).foldl Engine.apply {}).removeItem ⟨1⟩ ⟨3⟩).1.pollForward.map Item.id =
      some ⟨1⟩) ∧ Reaches KeepsIds ((threeFrom ⟨1⟩).foldl Engine.apply {}) := by
  have run := threeFrom_reaches ⟨1⟩
  have safe : ((threeFrom ⟨1⟩).foldl Engine.apply {}).RemovesSafely ⟨1⟩ ⟨3⟩ := by
    rintro cursor stored index playing - - -
    cases playing
    exact .inl (Nat.zero_le index)
  have stable := (pending_position_is_stable run ⟨_, _, rfl, rfl, rfl⟩ ⟨1⟩ ⟨3⟩ (by
    rintro next found
    cases found
    decide)).1.mpr safe
  exact ⟨by rw [stable]; rfl, run⟩

/-- Playback is to start from the second of three items. With the first one removed
it starts from the third. -/
theorem a_removal_skips_an_item :
    ¬∀ engine : Engine Unit, Reaches KeepsIds engine → engine.CurrentAbsent → ∀ id item,
      (∀ next, engine.pollForward = some next → next.id ≠ item) →
        (engine.removeItem id item).1.pollForward = engine.pollForward := by
  intro stable
  have same := stable _ (threeFrom_reaches ⟨2⟩) ⟨_, _, rfl, rfl, rfl⟩ ⟨1⟩ ⟨1⟩ (by
    rintro next found
    cases found
    decide)
  have ids := congrArg (Option.map Item.id) same
  revert ids
  decide

end Engine

end Retrovert.Playlists
