import Retrovert.Playlists.Pending

/-!
# When every item of a loop has failed

The engine counts failures in a row, and in a loop it stops once it has counted as
many as there are items. What it counts are the items up to the one that it tries
next, going around the list backwards (`counted`). An edit can put an item that has
not failed among them (`an_edit_stops_a_loop_early`); in a run whose edits spare the
counted items, a loop stops only when every item has failed
(`loop_stops_when_all_failed`).
-/

set_option autoImplicit false

namespace Retrovert.Playlists

/-! ## Going around a list backwards -/

section Trail

variable {α : Type}

/-- The elements that come before a place, nearest first, going around the list. -/
def trail (list : List α) (place count : Nat) : List α :=
  ((list.take place).reverse ++ (list.drop place).reverse).take count

@[simp] theorem trail_none (list : List α) (place : Nat) : trail list place 0 = [] := rfl

theorem mem_trail_of_length_le {list : List α} {place count : Nat} (all : list.length ≤ count)
    {element : α} (member : element ∈ list) : element ∈ trail list place count := by
  rw [trail, List.take_of_length_le (by simp; omega), List.mem_append, List.mem_reverse,
    List.mem_reverse, ← List.mem_append, List.take_append_drop]
  exact member

theorem trail_subset (list : List α) (place count : Nat) : trail list place count ⊆ list := by
  intro element member
  have inside := List.mem_of_mem_take member
  rw [List.mem_append, List.mem_reverse, List.mem_reverse, ← List.mem_append,
    List.take_append_drop] at inside
  exact inside

/-- At the end of the list one is back at its front. -/
theorem trail_length (list : List α) (count : Nat) :
    trail list list.length count = trail list 0 count := by
  simp [trail]

/-- One place further there is one more element behind. -/
theorem trail_succ {list : List α} {place : Nat} (within : place < list.length) (count : Nat) :
    trail list (place + 1) (count + 1) ⊆ list[place] :: trail list place count := by
  intro element member
  rw [trail, List.take_succ_eq_append_getElem within, List.reverse_append, List.reverse_singleton,
    List.singleton_append, List.cons_append, List.take_succ_cons, List.mem_cons] at member
  rcases member with rfl | behind
  · exact List.mem_cons_self
  · refine List.mem_cons_of_mem _ ?_
    rw [trail, List.drop_eq_getElem_cons within, List.reverse_cons, ← List.append_assoc,
      List.take_append]
    exact List.mem_append_left _ behind

/-- Only what stands right before a place matters, if that is enough. -/
theorem trail_congr {list list' : List α} {place place' count : Nat}
    (same : list.take place = list'.take place') (enough : count ≤ (list.take place).length) :
    trail list place count = trail list' place' count := by
  rw [trail, trail, List.take_append_of_le_length (by simpa using enough),
    List.take_append_of_le_length (by simpa [← same] using enough), same]

/-- An element at the end of the list is out of reach of a count within the place. -/
theorem trail_append {list : List α} {place count : Nat} (within : place ≤ list.length)
    (enough : count ≤ place) (element : α) :
    trail (list ++ [element]) place count = trail list place count := by
  refine trail_congr (List.take_append_of_le_length within) ?_
  rw [List.length_take, List.length_append]
  omega

/-- What comes before an element that is not reached is all that is. -/
theorem take_append_of_not_mem {before after : List α} {element : α} {count : Nat}
    (missing : element ∉ (before ++ element :: after).take count) :
    (before ++ after).take count = (before ++ element :: after).take count := by
  have enough : count ≤ before.length := by
    by_contra beyond
    refine missing (List.mem_take_iff_getElem.mpr ⟨before.length, ?_, ?_⟩)
    · simp only [List.length_append, List.length_cons]
      omega
    · simp
  rw [List.take_append_of_le_length enough, List.take_append_of_le_length enough]

/-- Without an element that it does not reach, a trail is what it was. -/
theorem trail_erase {before after : List α} {element : α} {place count : Nat}
    (missing : element ∉ trail (before ++ element :: after) place count) :
    trail (before ++ after) (if before.length < place then place - 1 else place) count =
      trail (before ++ element :: after) place count := by
  unfold trail at missing ⊢
  split
  · rename_i behind
    obtain ⟨more, rfl⟩ : ∃ more, place = before.length + (more + 1) :=
      ⟨place - before.length - 1, by omega⟩
    have taken : (before ++ element :: after).take (before.length + (more + 1)) =
        before ++ element :: after.take more := by
      rw [List.take_length_add_append, List.take_succ_cons]
    have dropped : (before ++ element :: after).drop (before.length + (more + 1)) =
        after.drop more := by
      rw [List.drop_length_add_append, List.drop_succ_cons]
    have shorter : before.length + (more + 1) - 1 = before.length + more := rfl
    have around : (before ++ element :: after.take more).reverse ++ (after.drop more).reverse =
        (after.take more).reverse ++ element :: (before.reverse ++ (after.drop more).reverse) := by
      simp
    rw [taken, dropped, around] at missing ⊢
    rw [← take_append_of_not_mem missing, shorter, List.take_length_add_append,
      List.drop_length_add_append, List.reverse_append, List.append_assoc]
  · rename_i ahead
    have inside : place ≤ before.length := Nat.le_of_not_lt ahead
    have around : (before.take place).reverse ++ (before.drop place ++ element :: after).reverse =
        ((before.take place).reverse ++ after.reverse) ++
          element :: (before.drop place).reverse := by simp
    rw [List.take_append_of_le_length inside, List.drop_append_of_le_length inside, around]
      at missing
    rw [List.take_append_of_le_length inside, List.drop_append_of_le_length inside,
      List.take_append_of_le_length inside, List.drop_append_of_le_length inside, around,
      ← take_append_of_not_mem missing, List.reverse_append, List.append_assoc]

end Trail

/-! ## What the failure count stands for -/

section Items

variable {P : Type}

/-- The ids of the items of a playlist, in order. -/
def Playlist.ids (stored : Playlist P) : List ItemId := stored.items.map Item.id

@[simp] theorem Playlist.length_ids (stored : Playlist P) :
    stored.ids.length = stored.items.length := List.length_map _

theorem itemIndex_eq_idxOf {stored : Playlist P} {item : ItemId} {index : Nat}
    (found : stored.itemIndex item = some index) :
    index < stored.ids.length ∧ stored.ids.idxOf item = index := by
  have listed : stored.ids.findIdx? (· == item) = some index := by
    rw [Playlist.ids, List.findIdx?_map]
    exact found
  exact List.findIdx?_eq_some_iff_findIdx_eq.mp listed

theorem itemIndex_of_mem {stored : Playlist P} {item : ItemId} (member : item ∈ stored.ids) :
    stored.itemIndex item = some (stored.ids.idxOf item) := by
  cases found : stored.itemIndex item with
  | none =>
      obtain ⟨element, inside, rfl⟩ := List.mem_map.mp member
      have missing := List.findIdx?_eq_none_iff.mp found element inside
      simp at missing
  | some index => rw [(itemIndex_eq_idxOf found).2]

end Items

namespace Cursor

/-- How many items of the list come before the one that is tried next. -/
def place (cursor : Cursor) (ids : List ItemId) : Nat :=
  cursor.current.elim 0 fun current =>
    ids.idxOf current + if cursor.pending = none then 0 else 1

/-- The items that the failure count stands for. -/
def counted (cursor : Cursor) (ids : List ItemId) : List ItemId :=
  trail ids (cursor.place ids) cursor.failures

theorem counted_of_failures {cursor : Cursor} (fresh : cursor.failures = 0) (ids : List ItemId) :
    cursor.counted ids = [] := by
  rw [counted, fresh, trail_none]

/-- The items counted are among the failed ones. While any are, the current item is
in the list and about to be played, or the next one is about to be tried. -/
structure Counts (cursor : Cursor) (ids failed : List ItemId) : Prop where
  present : cursor.currentRemoved = false → ∀ current, cursor.current = some current → current ∈ ids
  counting : 0 < cursor.failures → cursor.currentRemoved = false ∧ cursor.current ≠ none ∧
    (cursor.pending = none ∨ cursor.pending = some .forward)
  counted : cursor.counted ids ⊆ failed

/-- With nothing counted, only the current item matters. -/
theorem Counts.of_failures {cursor : Cursor} {ids failed : List ItemId}
    (fresh : cursor.failures = 0)
    (present : cursor.currentRemoved = false →
      ∀ current, cursor.current = some current → current ∈ ids) :
    cursor.Counts ids failed where
  present := present
  counting counting := absurd counting (by omega)
  counted := by
    rw [counted_of_failures fresh]
    exact List.nil_subset _

/-- While items are counted, the current one is in the list. -/
theorem Counts.current {cursor : Cursor} {ids failed : List ItemId}
    (counts : cursor.Counts ids failed) (counting : 0 < cursor.failures) :
    ∃ current, cursor.current = some current ∧ current ∈ ids := by
  obtain ⟨kept, current, -⟩ := counts.counting counting
  obtain ⟨item, named⟩ := Option.ne_none_iff_exists'.mp current
  exact ⟨item, named, counts.present kept item named⟩

/-- An edit that leaves no item counted that was not, nor takes the current one away. -/
theorem Counts.edited {cursor : Cursor} {ids edited failed : List ItemId}
    (counts : cursor.Counts ids failed)
    (keeps : ∀ current, cursor.current = some current → current ∈ ids → current ∈ edited)
    (spares : 0 < cursor.failures → cursor.counted edited ⊆ cursor.counted ids) :
    cursor.Counts edited failed := by
  rcases Nat.eq_zero_or_pos cursor.failures with fresh | counting
  · exact .of_failures fresh fun kept current named =>
      keeps current named (counts.present kept current named)
  · exact ⟨fun kept current named => keeps current named (counts.present kept current named),
      counts.counting, fun item member => counts.counted (spares counting member)⟩

/-- An item that is put at the end of the list is not counted as long as the failures
have not gone around it. -/
theorem counted_append {cursor : Cursor} {ids : List ItemId} {current item : ItemId}
    (named : cursor.current = some current) (present : current ∈ ids)
    (enough : cursor.failures ≤ cursor.place ids) :
    cursor.counted (ids ++ [item]) = cursor.counted ids := by
  have index : (ids ++ [item]).idxOf current = ids.idxOf current :=
    List.idxOf_append_of_mem present
  have inside := List.idxOf_lt_length_of_mem present
  have same : cursor.place (ids ++ [item]) = cursor.place ids := by
    simp only [place, named, Option.elim_some, index]
  rw [counted, counted, same]
  refine trail_append ?_ enough item
  simp only [place, named, Option.elim_some]
  split <;> omega

/-- Without an item that is not counted, the same items are. -/
theorem counted_erase {cursor : Cursor} {before after : List ItemId} {current item : ItemId}
    (named : cursor.current = some current) (other : current ≠ item)
    (missing : item ∉ cursor.counted (before ++ item :: after)) :
    cursor.counted (before ++ after) = cursor.counted (before ++ item :: after) := by
  have moved : cursor.place (before ++ after) =
      if before.length < cursor.place (before ++ item :: after) then
        cursor.place (before ++ item :: after) - 1
      else cursor.place (before ++ item :: after) := by
    simp only [place, named, Option.elim_some]
    by_cases early : current ∈ before
    · have inside := List.idxOf_lt_length_of_mem early
      rw [List.idxOf_append_of_mem early, List.idxOf_append_of_mem early]
      split <;> split <;> omega
    · rw [List.idxOf_append_of_notMem early, List.idxOf_append_of_notMem early,
        List.idxOf_cons_ne _ (Ne.symm other)]
      split <;> split <;> omega
  rw [counted, moved]
  exact trail_erase missing

/-- A queued advance that starts counting afresh. -/
theorem Counts.advance {cursor : Cursor} {ids failed : List ItemId}
    (counts : cursor.Counts ids failed) (advance : Advance) (failed' : List ItemId) :
    (cursor.advance advance).Counts ids failed' :=
  .of_failures rfl counts.present

/-- One more failure reaches back to the item that failed and those counted before. -/
theorem Counts.fails {cursor : Cursor} {ids failed : List ItemId} {current : ItemId}
    (counts : cursor.Counts ids failed) (named : cursor.current = some current)
    (playing : cursor.pending = none) (kept : cursor.currentRemoved = false) :
    trail ids (ids.idxOf current + 1) (cursor.failures + 1) ⊆ current :: failed := by
  have inside := List.idxOf_lt_length_of_mem (counts.present kept current named)
  intro item member
  rcases List.mem_cons.mp (trail_succ inside _ member) with rfl | before
  · rw [List.getElem_idxOf inside]
    exact List.mem_cons_self
  · refine List.mem_cons_of_mem _ (counts.counted ?_)
    simpa [Cursor.counted, Cursor.place, named, playing] using before

end Cursor

namespace Engine

variable {P : Type}

/-! ## What is being played -/

/-- The cursor, and the ids of the list that it plays. -/
def heard (engine : Engine P) : Option (Cursor × List ItemId) :=
  engine.cursor.bind fun cursor =>
    (engine.playlist cursor.playlist).map fun stored => (cursor, stored.ids)

theorem heard_eq_some {engine : Engine P} {cursor : Cursor} {ids : List ItemId} :
    engine.heard = some (cursor, ids) ↔ engine.cursor = some cursor ∧
      ∃ stored, engine.playlist cursor.playlist = some stored ∧ stored.ids = ids := by
  constructor
  · intro heard
    obtain ⟨played, playing, rest⟩ := Option.bind_eq_some_iff.mp heard
    obtain ⟨stored, found, made⟩ := Option.map_eq_some_iff.mp rest
    cases made
    exact ⟨playing, stored, found, rfl⟩
  · rintro ⟨playing, stored, found, rfl⟩
    rw [heard, playing, Option.bind_some, found, Option.map_some]

theorem heard_eq_none {engine : Engine P} (silent : engine.cursor = none) :
    engine.heard = none := by
  rw [heard, silent, Option.bind_none]

theorem stop_cursor (engine : Engine P) : engine.stop.cursor = none := by
  unfold stop
  cases playing : engine.cursor with
  | none => exact playing
  | some cursor =>
      simp only
      split
      · unfold removePlaylist
        split <;> rfl
      · rfl

theorem Wellformed.found {engine : Engine P} (wellformed : engine.Wellformed) {cursor : Cursor}
    (playing : engine.cursor = some cursor) :
    ∃ stored, engine.playlist cursor.playlist = some stored := by
  obtain ⟨stored, member, named⟩ := List.mem_map.mp (wellformed.playing cursor playing)
  cases found : engine.playlist cursor.playlist with
  | some stored => exact ⟨stored, rfl⟩
  | none =>
      have missing := List.find?_eq_none.mp found stored member
      simp [named] at missing

/-- The same cursor, on a playlist of the same items. -/
theorem heard_congr {engine later : Engine P} (same : later.cursor = engine.cursor)
    (lookup : ∀ cursor, engine.cursor = some cursor →
      (later.playlist cursor.playlist).map Playlist.ids =
        (engine.playlist cursor.playlist).map Playlist.ids) : later.heard = engine.heard := by
  unfold heard
  rw [same]
  cases playing : engine.cursor with
  | none => rfl
  | some cursor =>
      have kept := congrArg (Option.map fun ids => (cursor, ids)) (lookup cursor playing)
      rw [Option.map_map, Option.map_map] at kept
      exact kept

/-- A change of one playlist that keeps its items. -/
theorem heard_modify {engine : Engine P} {id : PlaylistId} {index : Nat}
    (found : engine.playlistIndex id = some index) {change : Playlist P → Playlist P}
    (keeps : ∀ stored, (change stored).id = stored.id)
    (items : ∀ stored, (change stored).ids = stored.ids) :
    (engine.modify index change).heard = engine.heard := by
  refine heard_congr rfl fun cursor _ => ?_
  rw [playlist_modify engine change keeps found]
  split
  · rw [Option.map_map]
    exact congrArg (Option.map · _) (funext items)
  · rfl

/-- What is played is not what a saved revision is about. -/
theorem heard_markRevisionSaved (engine : Engine P) (id : PlaylistId) (revision : Nat) :
    (engine.markRevisionSaved id revision).1.heard = engine.heard := by
  unfold markRevisionSaved
  split
  · rfl
  · rename_i index found
    split
    · rfl
    · exact heard_modify found (fun _ => rfl) fun _ => rfl

theorem markRevisionSaved_cursor (engine : Engine P) (id : PlaylistId) (revision : Nat) :
    (engine.markRevisionSaved id revision).1.cursor = engine.cursor := by
  unfold markRevisionSaved
  split
  · rfl
  · split <;> rfl

/-- More playlists behind the others. -/
theorem heard_push {engine : Engine P} (wellformed : engine.Wellformed)
    (playlists : List (Playlist P)) (nextPlaylistId nextItemId : Nat) :
    heard { engine with nextPlaylistId, nextItemId, playlists := engine.playlists ++ playlists } =
      engine.heard := by
  refine heard_congr rfl fun cursor playing => ?_
  obtain ⟨stored, found⟩ := wellformed.found playing
  have still : playlist { engine with
      nextPlaylistId, nextItemId, playlists := engine.playlists ++ playlists } cursor.playlist =
        some stored := by
    rw [playlist, List.find?_append, ← playlist, found, Option.some_or]
  rw [still, found]

/-- Another playlist less. -/
theorem heard_erase {engine : Engine P} {id : PlaylistId} {index : Nat}
    (found : engine.playlistIndex id = some index)
    (apart : ∀ cursor, engine.cursor = some cursor → cursor.playlist ≠ id) :
    heard { engine with playlists := engine.playlists.eraseIdx index } = engine.heard := by
  refine heard_congr rfl fun cursor playing => ?_
  obtain ⟨erased, there, named, -⟩ := playlistIndex_eq_some found
  obtain ⟨within, rfl⟩ := List.getElem?_eq_some_iff.mp there
  have other : ((engine.playlists[index]).id == cursor.playlist) = false := by
    rw [named]
    exact beq_false_of_ne (Ne.symm (apart cursor playing))
  have same : (engine.playlists.eraseIdx index).find? (·.id == cursor.playlist) =
      engine.playlists.find? (·.id == cursor.playlist) := by
    rw [List.eraseIdx_eq_take_drop_succ, List.find?_append]
    conv_rhs => rw [← List.take_append_drop index engine.playlists, List.find?_append,
      List.drop_eq_getElem_cons within, List.find?_cons_of_neg (by simp [other])]
  exact congrArg (Option.map Playlist.ids) same

/-! ## Failures in a row -/

/-- Of the items counted, a move leaves none but those that were. An item is appended
while the failures have not gone around the end of the list, and one that is removed
is the current one, or not counted, or all of them are. -/
def SparesCounted (engine : Engine P) (action : Action P) : Prop :=
  engine.KeepsIds action ∧ ∀ cursor ids, engine.heard = some (cursor, ids) →
    match action with
    | .append id _ => cursor.playlist = id → cursor.failures ≤ cursor.place ids
    | .removeItem id item => cursor.playlist = id → cursor.current ≠ some item →
        item ∉ cursor.counted ids ∨ ids.length ≤ cursor.failures
    | .moveItem id item after => ∀ stored source target, cursor.playlist = id →
        engine.playlist id = some stored → stored.destination item after = some (source, target) →
          cursor.counted (relocated ids source target) ⊆ cursor.counted ids
    | _ => True

/-- What an operation means for the failures in a row. -/
inductive Outcome where
  /-- One more item has failed. -/
  | failed (item : ItemId)
  /-- A success, a transport command or a start, that took effect. -/
  | fresh
  /-- The items of a playlist have been edited. -/
  | edited
  | silent

def outcome (engine : Engine P) : Action P → Outcome
  | .onFailed =>
      match engine.cursor with
      | some ⟨_, some current, _, none, _, _⟩ => .failed current
      | _ => .silent
  | .onFinished | .next => if engine.cursor.any Cursor.isPlaying then .fresh else .silent
  | .previous =>
      if engine.previousPosition.isSome && engine.cursor.any (·.pending.isNone) then .fresh
      else .silent
  | .start .. | .stop => .fresh
  | .append .. | .editItem .. | .removeItem .. | .moveItem .. => .edited
  | _ => .silent

/-- The count stands for items among the failed ones. -/
def Counts (engine : Engine P) (failed : List ItemId) : Prop :=
  ∀ cursor ids, engine.heard = some (cursor, ids) → cursor.Counts ids failed

theorem Counts.of_heard {engine later : Engine P} {failed : List ItemId}
    (counts : engine.Counts failed) (same : later.heard = engine.heard) : later.Counts failed :=
  fun cursor ids heard => counts cursor ids (same ▸ heard)

theorem counts_of_stopped {engine : Engine P} (stopped : engine.cursor = none)
    (failed : List ItemId) : engine.Counts failed := by
  intro cursor ids heard
  rw [heard_eq_none stopped] at heard
  cases heard

/-- The cursor changed, and what it plays did not. -/
theorem Counts.of_cursor {engine : Engine P} {failed failed' : List ItemId} {cursor : Cursor}
    (counts : engine.Counts failed) (playing : engine.cursor = some cursor) {later : Cursor}
    (same : later.playlist = cursor.playlist)
    (keeps : ∀ stored, engine.playlist cursor.playlist = some stored →
      cursor.Counts stored.ids failed → later.Counts stored.ids failed') :
    Counts { engine with cursor := some later } failed' := by
  intro cursor' ids heard
  obtain ⟨playing', stored, found, rfl⟩ := heard_eq_some.mp heard
  cases playing'
  rw [same] at found
  exact keeps stored found (counts cursor stored.ids (heard_eq_some.mpr
    ⟨playing, stored, found, rfl⟩))

/-- Where a forward poll leads from an item of the list. -/
theorem forwardPosition_of_current {engine : Engine P} {cursor : Cursor} {stored : Playlist P}
    {current : ItemId} (playing : engine.cursor = some cursor)
    (found : engine.playlist cursor.playlist = some stored)
    (named : cursor.current = some current) (present : current ∈ stored.ids) {position : Nat}
    (leads : engine.forwardPosition = some position) :
    position = stored.ids.idxOf current + 1 ∨
      stored.ids.idxOf current + 1 = stored.ids.length ∧ position = 0 := by
  have inside := List.idxOf_lt_length_of_mem present
  simp only [forwardPosition, playing, Option.bind_eq_bind, Option.bind_some, found, Cursor.index,
    named, itemIndex_of_mem present, Option.elim_some, Option.ite_none_left_eq_some] at leads
  obtain ⟨-, leads⟩ := leads
  split at leads
  · exact .inl (Option.some.inj leads).symm
  · rename_i last
    rw [Option.ite_none_right_eq_some] at leads
    rw [Playlist.length_ids] at inside ⊢
    exact .inr ⟨by omega, (Option.some.inj leads.2).symm⟩

/-- A poll goes on to the next item, and what is behind it is what was. -/
theorem Counts.poll {engine : Engine P} {failed : List ItemId} (wellformed : engine.Wellformed)
    (counts : engine.Counts failed) : engine.poll.1.Counts failed := by
  cases pending : engine.cursor.bind fun cursor => cursor.pending.map (cursor, ·) with
  | none =>
      have same : engine.poll.1 = engine := by
        unfold Engine.poll
        rw [pending]
      rw [same]
      exact counts
  | some place =>
      obtain ⟨cursor, playing, rest⟩ := Option.bind_eq_some_iff.mp pending
      obtain ⟨advance, pending, -⟩ := Option.map_eq_some_iff.mp rest
      obtain ⟨stored, found⟩ := wellformed.found playing
      rw [poll_eq playing pending found]
      cases leads : engine.leadsTo cursor stored advance with
      | none => exact counts_of_stopped engine.stop_cursor failed
      | some position =>
          simp only
          cases there : stored.items[position]? with
          | none => exact counts
          | some item =>
              refine counts.of_cursor playing rfl fun stored' found' counts => ?_
              rw [found] at found'
              cases found'
              have listed : stored.ids[position]? = some item.id := by
                rw [Playlist.ids, List.getElem?_map, there, Option.map_some]
              have member : item.id ∈ stored.ids := List.mem_of_getElem? listed
              have present : ∀ current, (cursor.onto item.id position).current = some current →
                  current ∈ stored.ids := by
                intro current named
                cases named
                exact member
              rcases Nat.eq_zero_or_pos cursor.failures with fresh | counting
              · exact .of_failures fresh fun _ => present
              · obtain ⟨-, -, ahead⟩ := counts.counting counting
                obtain ⟨current, named, member'⟩ := counts.current counting
                obtain rfl : advance = .forward := by
                  rw [pending] at ahead
                  rcases ahead with no | forward
                  · cases no
                  · exact Option.some.inj forward
                have index : stored.ids.idxOf item.id = position := by
                  obtain ⟨within, same⟩ := List.getElem?_eq_some_iff.mp listed
                  rw [← same]
                  exact (wellformed.distinct found).idxOf_getElem position within
                refine ⟨fun _ => present, fun _ => ⟨rfl, Option.some_ne_none _, .inl rfl⟩, ?_⟩
                have behind : (cursor.onto item.id position).counted stored.ids =
                    cursor.counted stored.ids := by
                  simp only [Cursor.counted, Cursor.place, Cursor.onto, named, pending,
                    Option.elim_some, index, if_true, Nat.add_zero, reduceCtorEq, if_false]
                  rcases forwardPosition_of_current playing found named member' leads with
                    rfl | ⟨last, rfl⟩
                  · rfl
                  · rw [last, trail_length]
                rw [behind]
                exact counts.counted

/-- A failure ends playback only in a loop, once all items of the list have failed. -/
theorem onFailed_cases {engine : Engine P} {cursor : Cursor} {stored : Playlist P}
    (playing : engine.cursor = some cursor)
    (found : engine.playlist cursor.playlist = some stored) :
    engine.onFailed = engine ∧ cursor.isPlaying = false ∨
      ∃ current, cursor.current = some current ∧ cursor.pending = none ∧
        (cursor.currentRemoved = true ∧
            engine.onFailed = { engine with cursor := some (cursor.advance .forward) } ∨
          cursor.currentRemoved = false ∧
            (engine.mode = .loop ∧ stored.items.length ≤ cursor.failures + 1 ∧
                engine.onFailed = engine.stop ∨
              ¬(engine.mode = .loop ∧ stored.items.length ≤ cursor.failures + 1) ∧
                engine.onFailed = { engine with
                  cursor := some { cursor with
                    failures := cursor.failures + 1, pending := some .forward } })) := by
  unfold onFailed
  rw [playing]
  simp only [found, Option.elim_some]
  cases isPlaying : cursor.isPlaying with
  | false => exact .inl ⟨by simp, rfl⟩
  | true =>
      obtain ⟨current, pending⟩ := Bool.and_eq_true_iff.mp isPlaying
      obtain ⟨current, named⟩ := Option.isSome_iff_exists.mp current
      refine .inr ⟨current, named, Option.isNone_iff_eq_none.mp pending, ?_⟩
      cases removed : cursor.currentRemoved with
      | true => exact .inl ⟨rfl, by simp⟩
      | false =>
          refine .inr ⟨rfl, ?_⟩
          by_cases ends : engine.mode = .loop ∧ stored.items.length ≤ cursor.failures + 1
          · exact .inl ⟨ends.1, ends.2, by simp [ends]⟩
          · exact .inr ⟨ends, by simp [ends]⟩

/-! ## Edits -/

theorem map_relocated {α β : Type} (f : α → β) (list : List α) (source target : Nat) :
    (relocated list source target).map f = relocated (list.map f) source target := by
  unfold relocated
  rw [List.getElem?_map]
  cases list[source]? with
  | none => rfl
  | some element => simp [List.map_insertIdx, List.eraseIdx_map]

theorem Counts.append {engine : Engine P} {failed : List ItemId} {id : PlaylistId}
    {spec : ItemSpec P} (spares : engine.SparesCounted (.append id spec))
    (counts : engine.Counts failed) : (engine.append id spec).1.Counts failed := by
  unfold Engine.append
  split
  · rename_i index value found minted
    intro cursor ids heard
    obtain ⟨playing, stored, lookup, rfl⟩ := heard_eq_some.mp heard
    have modified := playlist_modify { engine with nextItemId := value }
      (fun playlist : Playlist P => { playlist.touchContent with
        items := playlist.items ++ [⟨spec, ⟨value⟩⟩] }) (fun _ => rfl) found cursor.playlist
    have lookup := modified.symm.trans lookup
    split at lookup
    · rename_i played
      obtain ⟨earlier, there, rfl⟩ := Option.map_eq_some_iff.mp lookup
      have before : engine.heard = some (cursor, earlier.ids) :=
        heard_eq_some.mpr ⟨playing, earlier, there, rfl⟩
      have listed : Playlist.ids { earlier.touchContent with
          items := earlier.items ++ [⟨spec, ⟨value⟩⟩] } = earlier.ids ++ [⟨value⟩] := by
        simp [Playlist.ids]
      rw [listed]
      have counts := counts _ _ before
      refine counts.edited (fun current _ member => List.mem_append_left _ member) fun counting => ?_
      obtain ⟨current, named, member⟩ := counts.current counting
      rw [Cursor.counted_append named member (spares.2 _ _ before played)]
      exact List.Subset.refl _
    · exact counts _ _ (heard_eq_some.mpr ⟨playing, stored, lookup, rfl⟩)
  · exact counts

theorem Counts.removeItem {engine : Engine P} {failed : List ItemId} {id : PlaylistId}
    {item : ItemId} (spares : engine.SparesCounted (.removeItem id item))
    (counts : engine.Counts failed) : (engine.removeItem id item).1.Counts failed := by
  rcases engine.removeItem_eq id item with ⟨same, -⟩ | ⟨stored, index, found, there, -, left, lookup⟩
  · rw [same]
    exact counts
  · intro cursor ids heard
    obtain ⟨playing, edited, looked, rfl⟩ := heard_eq_some.mp heard
    rw [left] at playing
    obtain ⟨earlier, played, rfl⟩ := Option.map_eq_some_iff.mp playing
    rw [lookup] at looked
    by_cases current : earlier.playlist = id ∧ earlier.current = some item
    · rw [if_pos current]
      exact .of_failures rfl fun removed => absurd removed (by simp [Cursor.lose])
    · rw [if_neg current] at looked ⊢
      split at looked
      · rename_i here
        cases looked
        have before : engine.heard = some (earlier, stored.ids) :=
          heard_eq_some.mpr ⟨played, stored, here ▸ found, rfl⟩
        obtain ⟨within, at_⟩ := itemIndex_eq_idxOf there
        have other : earlier.current ≠ some item := fun same => current ⟨here, same⟩
        have split : stored.ids = stored.ids.take index ++ item :: stored.ids.drop (index + 1) := by
          subst at_
          conv_lhs => rw [← List.take_append_drop (stored.ids.idxOf item) stored.ids,
            List.drop_eq_getElem_cons within, List.getElem_idxOf within]
        have listed : Playlist.ids { stored.touchStructure with
            items := stored.items.eraseIdx index } =
              stored.ids.take index ++ stored.ids.drop (index + 1) := by
          rw [Playlist.ids, ← List.eraseIdx_map, List.eraseIdx_eq_take_drop_succ]
          rfl
        rw [listed]
        have counts := counts _ _ before
        refine counts.edited (fun named same member => ?_) fun counting => ?_
        · rw [split, List.mem_append, List.mem_cons] at member
          rcases member with before | rfl | after
          · exact List.mem_append_left _ before
          · exact absurd same other
          · exact List.mem_append_right _ after
        · obtain ⟨named, same, member⟩ := counts.current counting
          rcases spares.2 _ _ before here other with missing | all
          · rw [split] at missing
            rw [Cursor.counted_erase same (fun is => other (same.trans (congrArg some is))) missing,
              ← split]
            exact List.Subset.refl _
          · intro counted behind
            have member := trail_subset _ _ _ behind
            refine mem_trail_of_length_le all ?_
            rw [split, List.mem_append, List.mem_cons]
            exact (List.mem_append.mp member).imp_right .inr
      · exact counts _ _ (heard_eq_some.mpr ⟨played, edited, looked, rfl⟩)

theorem Counts.moveItem {engine : Engine P} {failed : List ItemId} {id : PlaylistId}
    {item : ItemId} {after : Option ItemId} (spares : engine.SparesCounted (.moveItem id item after))
    (counts : engine.Counts failed) : (engine.moveItem id item after).1.Counts failed := by
  rcases engine.moveItem_eq id item after with
    same | ⟨stored, source, target, found, moved, -, left, lookup⟩
  · rw [same]
    exact counts
  · intro cursor ids heard
    obtain ⟨playing, edited, looked, rfl⟩ := heard_eq_some.mp heard
    rw [left] at playing
    rw [lookup] at looked
    split at looked
    · rename_i played
      cases looked
      have before : engine.heard = some (cursor, stored.ids) :=
        heard_eq_some.mpr ⟨playing, stored, played ▸ found, rfl⟩
      have listed : Playlist.ids { stored.touchStructure with
          items := relocated stored.items source target } = relocated stored.ids source target :=
        map_relocated _ _ _ _
      rw [listed]
      refine (counts _ _ before).edited (fun current _ member => ?_) fun _ =>
        spares.2 _ _ before stored source target played found moved
      exact mem_relocated (by simpa using (destination_eq_some moved).2) member
    · exact counts _ _ (heard_eq_some.mpr ⟨playing, edited, looked, rfl⟩)

/-! ## Every operation -/

/-- Where nothing plays, there is nothing to finish. -/
theorem onFinished_of_silent {engine : Engine P} (silent : engine.outcome .onFinished = .silent) :
    engine.onFinished = engine := by
  have idle : engine.cursor.any Cursor.isPlaying = false := by simpa [outcome] using silent
  unfold onFinished
  cases playing : engine.cursor with
  | none => rw [Option.map_none, ← playing]
  | some cursor =>
      rw [playing, Option.any_some] at idle
      simp only [Option.map_some, idle, Bool.false_eq_true, if_false]
      rw [← playing]

/-- Where an advance is queued already, or there is nothing to go back to, going back does
nothing. -/
theorem previous_of_silent {engine : Engine P} (silent : engine.outcome .previous = .silent) :
    engine.previous = engine := by
  unfold previous
  split
  · rfl
  · rename_i ahead
    cases playing : engine.cursor with
    | none => rw [Option.map_none, ← playing]
    | some cursor =>
        have there : engine.previousPosition ≠ none := by simpa using ahead
        have busy : cursor.pending.isNone = false := by
          simpa [outcome, playing, there, Option.isSome_iff_ne_none] using silent
        simp only [Option.map_some, busy, Bool.false_eq_true, if_false]
        rw [← playing]

/-- An operation that neither edits items nor concerns the failures in a row leaves
what is played alone, ends it, or polls. -/
theorem Counts.silent {engine : Engine P} {action : Action P} {failed : List ItemId}
    (wellformed : engine.Wellformed) (silent : engine.outcome action = .silent)
    (counts : engine.Counts failed) : (engine.apply action).Counts failed := by
  cases action with
  | create name =>
      simp only [apply, create]
      split
      · exact counts
      · rename_i value minted
        exact counts.of_heard (heard_push wellformed _ value engine.nextItemId)
  | delete id =>
      simp only [apply, delete]
      split
      · exact counts
      · rename_i index found
        split
        · exact counts_of_stopped rfl failed
        · rename_i apart
          refine counts.of_heard (heard_erase found fun cursor playing same => apart ?_)
          rw [playingPlaylist, playing, Option.map_some, same]
  | rename id name =>
      simp only [apply, rename]
      split
      · exact counts
      · rename_i index found
        split
        · exact counts
        · exact counts.of_heard (heard_modify found (fun _ => rfl) fun _ => rfl)
  | touchStructurePreservingDirty id =>
      simp only [apply, touchStructurePreservingDirty]
      split
      · exact counts
      · rename_i index found
        refine counts.of_heard (heard_modify found (fun stored => ?_) fun stored => ?_)
        · split <;> rfl
        · split <;> rfl
  | markSaved id =>
      simp only [apply, markSaved]
      split
      · exact counts
      · exact counts.of_heard (heard_markRevisionSaved engine id _)
  | markRevisionSaved id revision => exact counts.of_heard (heard_markRevisionSaved engine id _)
  | fromBytes reader bytes =>
      simp only [apply, fromBytes]
      split
      · exact counts
      · split
        · exact counts
        · split
          · exact counts
          · split
            · exact counts
            · rename_i document _ _ value minted
              split
              · exact counts.of_heard (heard_push wellformed _ value
                  (engine.nextItemId + document.items.length))
              · exact counts
  | setMode mode => exact counts
  | poll => exact counts.poll wellformed
  | onFinished | next =>
      show engine.onFinished.Counts failed
      rw [onFinished_of_silent silent]
      exact counts
  | onFailed =>
      cases playing : engine.cursor with
      | none =>
          refine counts_of_stopped ?_ failed
          simp only [apply, onFailed, playing]
      | some cursor =>
          obtain ⟨stored, found⟩ := wellformed.found playing
          rcases onFailed_cases playing found with ⟨same, -⟩ | ⟨current, named, pending, -⟩
          · rw [apply, same]
            exact counts
          · obtain ⟨_, _, _, _, _, _⟩ := cursor
            cases named
            cases pending
            simp [outcome, playing] at silent
  | previous =>
      rw [apply, previous_of_silent silent]
      exact counts
  | append | editItem | removeItem | moveItem | start | stop => cases silent

/-- A queued advance starts counting afresh. -/
theorem Counts.advance {engine : Engine P} {failed failed' : List ItemId} {cursor : Cursor}
    (counts : engine.Counts failed) (playing : engine.cursor = some cursor) (advance : Advance) :
    Counts { engine with cursor := some (cursor.advance advance) } failed' :=
  counts.of_cursor playing rfl fun _ _ counts => counts.advance advance failed'

/-- Counting starts afresh. -/
theorem Counts.fresh {engine : Engine P} {action : Action P} {failed : List ItemId}
    (fresh : engine.outcome action = .fresh) (counts : engine.Counts failed) :
    (engine.apply action).Counts [] := by
  cases action with
  | onFinished | next =>
      cases playing : engine.cursor with
      | none => simp [outcome, playing] at fresh
      | some cursor =>
          have isPlaying : cursor.isPlaying = true := by simpa [outcome, playing] using fresh
          have same : engine.onFinished =
              { engine with cursor := some (cursor.advance .forward) } := by
            rw [onFinished, playing, Option.map_some, if_pos isPlaying]
          show engine.onFinished.Counts []
          rw [same]
          exact counts.advance playing .forward
  | previous =>
      cases playing : engine.cursor with
      | none => simp [outcome, playing] at fresh
      | some cursor =>
          have ahead : engine.previousPosition.isSome = true ∧ cursor.pending.isNone = true := by
            simpa [outcome, playing] using fresh
          have same : engine.previous =
              { engine with cursor := some (cursor.advance .backward) } := by
            rw [previous, if_neg (by simpa [Option.isSome_iff_ne_none] using ahead.1), playing,
              Option.map_some, if_pos ahead.2]
          rw [apply, same]
          exact counts.advance playing .backward
  | start playlist source =>
      simp only [apply, start]
      have stopped := counts_of_stopped engine.stop_cursor []
      split
      · exact stopped
      · split
        · exact stopped
        · split
          · exact stopped
          · intro cursor ids heard
            obtain ⟨playing, -⟩ := heard_eq_some.mp heard
            cases playing
            exact .of_failures rfl fun _ current named => by cases named
  | stop => exact counts_of_stopped engine.stop_cursor []
  | onFailed =>
      simp only [outcome] at fresh
      split at fresh <;> cases fresh
  | _ => cases fresh

/-- One more item fails. -/
theorem Counts.fails {engine : Engine P} {action : Action P} {failed : List ItemId}
    {item : ItemId} (wellformed : engine.Wellformed) (fails : engine.outcome action = .failed item)
    (counts : engine.Counts failed) : (engine.apply action).Counts (item :: failed) := by
  cases action with
  | onFailed =>
      cases playing : engine.cursor with
      | none => simp [outcome, playing] at fails
      | some cursor =>
          obtain ⟨stored, found⟩ := wellformed.found playing
          rcases onFailed_cases playing found with
            ⟨-, idle⟩ | ⟨current, named, pending, ⟨-, same⟩ | ⟨kept, ⟨-, -, same⟩ | ⟨-, same⟩⟩⟩
          · obtain ⟨_, current, _, pending, _, _⟩ := cursor
            cases current <;> cases pending <;>
              simp [outcome, playing, Cursor.isPlaying] at fails idle
          · rw [apply, same]
            exact counts.advance playing .forward
          · rw [apply, same]
            exact counts_of_stopped engine.stop_cursor _
          · obtain rfl : current = item := by
              obtain ⟨_, _, _, _, _, _⟩ := cursor
              cases named
              cases pending
              simpa [outcome, playing] using fails
            rw [apply, same]
            refine counts.of_cursor playing rfl fun stored _ counts => ?_
            have further := counts.fails named pending kept
            refine ⟨counts.present, fun _ => ⟨kept, ?_, .inr rfl⟩, ?_⟩
            · exact fun none => by rw [named] at none; cases none
            · simpa [Cursor.counted, Cursor.place, named] using further
  | onFinished | next | previous =>
      simp only [outcome] at fails
      split at fails <;> cases fails
  | _ => cases fails

/-- An edit that spares the items counted. -/
theorem Counts.edits {engine : Engine P} {action : Action P} {failed : List ItemId}
    (spares : engine.SparesCounted action) (edited : engine.outcome action = .edited)
    (counts : engine.Counts failed) : (engine.apply action).Counts failed := by
  cases action with
  | append id spec => exact counts.append spares
  | editItem playlist item edit =>
      simp only [apply, editItem]
      split
      · exact counts
      · rename_i playlistIndex itemIndex located
        refine counts.of_heard
          (heard_modify (locate_eq_some located).1 (fun _ => rfl) fun stored => ?_)
        exact map_modify spares.1 _ _
  | removeItem playlist item => exact counts.removeItem spares
  | moveItem playlist item after => exact counts.moveItem spares
  | onFailed | onFinished | next | previous =>
      simp only [outcome] at edited
      split at edited <;> cases edited
  | _ => cases edited

/-- An operation that neither edits items nor concerns the failures in a row keeps
their number. -/
theorem cursor_silent {engine : Engine P} {action : Action P}
    (silent : engine.outcome action = .silent) {cursor : Cursor}
    (later : (engine.apply action).cursor = some cursor) :
    ∃ earlier, engine.cursor = some earlier ∧ cursor.failures = earlier.failures ∧
      (cursor.currentRemoved = true → cursor = earlier) := by
  have kept : (engine.apply action).cursor = engine.cursor → ∃ earlier,
      engine.cursor = some earlier ∧ cursor.failures = earlier.failures ∧
        (cursor.currentRemoved = true → cursor = earlier) :=
    fun same => ⟨cursor, same ▸ later, rfl, fun _ => rfl⟩
  cases action with
  | create name =>
      refine kept ?_
      simp only [apply, create]
      split <;> rfl
  | delete id =>
      simp only [apply, delete] at later
      split at later
      · exact ⟨cursor, later, rfl, fun _ => rfl⟩
      · exact ⟨cursor, (Option.ite_none_left_eq_some.mp later).2, rfl, fun _ => rfl⟩
  | rename id name =>
      refine kept ?_
      simp only [apply, rename]
      split
      · rfl
      · split <;> rfl
  | touchStructurePreservingDirty id =>
      refine kept ?_
      simp only [apply, touchStructurePreservingDirty]
      split <;> rfl
  | markSaved id =>
      refine kept ?_
      simp only [apply, markSaved]
      split
      · rfl
      · exact markRevisionSaved_cursor engine id _
  | markRevisionSaved id revision => exact kept (markRevisionSaved_cursor engine id _)
  | fromBytes reader bytes =>
      refine kept ?_
      simp only [apply, fromBytes]
      split
      · rfl
      · split
        · rfl
        · split
          · rfl
          · split
            · rfl
            · split <;> rfl
  | setMode mode => exact kept rfl
  | poll =>
      simp only [apply, poll] at later
      split at later
      · exact ⟨cursor, later, rfl, fun _ => rfl⟩
      · rename_i earlier advance pending
        obtain ⟨_, playing, there⟩ := Option.bind_eq_some_iff.mp pending
        obtain ⟨_, _, made⟩ := Option.map_eq_some_iff.mp there
        cases made
        split at later
        · rw [stop_cursor] at later
          cases later
        · split at later
          · exact ⟨cursor, later, rfl, fun _ => rfl⟩
          · cases later
            exact ⟨earlier, playing, rfl, fun removed => by cases removed⟩
  | onFinished | next =>
      exact kept (congrArg Engine.cursor (onFinished_of_silent silent))
  | previous => exact kept (congrArg Engine.cursor (previous_of_silent silent))
  | onFailed =>
      simp only [apply] at later
      cases playing : engine.cursor with
      | none => simp [onFailed, playing] at later
      | some earlier =>
          have idle : earlier.isPlaying = false := by
            obtain ⟨_, current, _, pending, _, _⟩ := earlier
            cases current <;> cases pending <;>
              simp [outcome, playing, Cursor.isPlaying] at silent ⊢
          simp only [onFailed, playing, idle, Bool.not_false, if_true] at later
          exact ⟨earlier, rfl, by rw [Option.some.inj later], fun _ => (Option.some.inj later).symm⟩
  | append | editItem | removeItem | moveItem | start | stop => cases silent

/-- An operation that starts counting afresh ends playback or queues an advance. -/
theorem cursor_fresh {engine : Engine P} {action : Action P}
    (fresh : engine.outcome action = .fresh) {cursor : Cursor}
    (later : (engine.apply action).cursor = some cursor) :
    cursor.failures = 0 ∧ cursor.pending ≠ none := by
  cases action with
  | onFinished | next =>
      obtain ⟨earlier, playing, made⟩ := Option.map_eq_some_iff.mp later
      have isPlaying : earlier.isPlaying = true := by simpa [outcome, playing] using fresh
      rw [if_pos isPlaying] at made
      exact ⟨made ▸ rfl, made ▸ Option.some_ne_none _⟩
  | previous =>
      simp only [apply, previous] at later
      split at later
      · rename_i behind
        simp [outcome, Option.isNone_iff_eq_none.mp behind] at fresh
      · obtain ⟨earlier, playing, made⟩ := Option.map_eq_some_iff.mp later
        have idle : engine.previousPosition.isSome = true ∧ earlier.pending.isNone = true := by
          simpa [outcome, playing] using fresh
        rw [if_pos idle.2] at made
        exact ⟨made ▸ rfl, made ▸ Option.some_ne_none _⟩
  | start playlist source =>
      simp only [apply, start] at later
      split at later
      · simp [stop_cursor] at later
      · split at later
        · simp [stop_cursor] at later
        · split at later
          · simp [stop_cursor] at later
          · cases later
            exact ⟨rfl, Option.some_ne_none _⟩
  | stop => simp [apply, stop_cursor] at later
  | onFailed =>
      simp only [outcome] at fresh
      split at fresh <;> cases fresh
  | _ => cases fresh

/-- A failure is counted unless the item that failed has been removed. -/
theorem cursor_failed {engine : Engine P} {action : Action P} {item : ItemId}
    (wellformed : engine.Wellformed) (fails : engine.outcome action = .failed item)
    {cursor : Cursor} (later : (engine.apply action).cursor = some cursor) :
    ∃ earlier, engine.cursor = some earlier ∧ earlier.pending = none ∧ cursor.pending ≠ none ∧
      (earlier.currentRemoved = false → cursor.failures = earlier.failures + 1) := by
  cases action with
  | onFailed =>
      simp only [apply] at later
      cases playing : engine.cursor with
      | none => simp [outcome, playing] at fails
      | some earlier =>
          obtain ⟨stored, found⟩ := wellformed.found playing
          refine ⟨earlier, rfl, ?_⟩
          rcases onFailed_cases playing found with
            ⟨-, idle⟩ | ⟨current, named, pending, ⟨removed, same⟩ | ⟨kept, ⟨-, -, same⟩ | ⟨-, same⟩⟩⟩
          · obtain ⟨_, current, _, pending, _, _⟩ := earlier
            cases current <;> cases pending <;>
              simp [outcome, playing, Cursor.isPlaying] at fails idle
          · rw [same] at later
            cases later
            exact ⟨pending, Option.some_ne_none _, fun kept => by rw [removed] at kept; cases kept⟩
          · rw [same, stop_cursor] at later
            cases later
          · rw [same] at later
            cases later
            exact ⟨pending, Option.some_ne_none _, fun _ => rfl⟩
  | onFinished | next | previous =>
      simp only [outcome] at fails
      split at fails <;> cases fails
  | _ => cases fails

end Engine

/-- An engine beside the failures in a row: the items that failed since the last
success, transport command or start, and whether an item was edited since. -/
structure Session (P : Type) where
  engine : Engine P := {}
  failed : List ItemId := []
  edited : Bool := false

namespace Session

variable {P : Type}

def apply (session : Session P) (action : Action P) : Session P :=
  let engine := session.engine.apply action
  match session.engine.outcome action with
  | .failed item => { session with engine, failed := item :: session.failed }
  | .fresh => { engine }
  | .edited => { session with engine, edited := true }
  | .silent => { session with engine }

def step (session : Session P) (action : Action P) : Option (Session P) :=
  some (session.apply action)

/-- The states that runs lead to whose every step meets a guard of the engine. -/
def Reaches (guard : Engine P → Action P → Prop) (session : Session P) : Prop :=
  Runs.Moves step (fun before action => guard before.engine action) {} session

@[simp] theorem apply_engine (session : Session P) (action : Action P) :
    (session.apply action).engine = session.engine.apply action := by
  unfold apply
  cases session.engine.outcome action <;> rfl

/-! ## Runs -/

/-- Well-formed, with counted items that have failed. -/
def Faithful (session : Session P) : Prop :=
  session.engine.Wellformed ∧ session.engine.Counts session.failed

theorem faithful_apply {session : Session P} {action : Action P}
    (spares : session.engine.SparesCounted action) (faithful : session.Faithful) :
    (session.apply action).Faithful := by
  obtain ⟨wellformed, counts⟩ := faithful
  refine ⟨session.apply_engine action ▸ Engine.wellformed_apply spares.1 wellformed, ?_⟩
  rw [apply_engine]
  unfold apply
  cases outcome : session.engine.outcome action with
  | failed item => exact counts.fails wellformed outcome
  | fresh => exact counts.fresh outcome
  | edited => exact counts.edits spares outcome
  | silent => exact counts.silent wellformed outcome

theorem Reaches.faithful {session : Session P}
    (run : Reaches Engine.SparesCounted session) : session.Faithful :=
  Runs.Moves.invariant Faithful
    (fun _ _ _ spares stepped faithful => by
      cases stepped
      exact faithful_apply spares faithful)
    run ⟨Engine.wellformed_new, Engine.counts_of_stopped rfl _⟩

/-- While no item is edited, the engine counts every failure. -/
def Counting (session : Session P) : Prop :=
  session.edited = false → ∀ cursor, session.engine.cursor = some cursor →
    cursor.failures = session.failed.length ∧ (cursor.currentRemoved = true → cursor.pending ≠ none)

theorem counting_apply {session : Session P} {action : Action P}
    (wellformed : session.engine.Wellformed) (counting : session.Counting) :
    (session.apply action).Counting := by
  intro unedited cursor later
  rw [apply_engine] at later
  unfold apply at unedited ⊢
  cases outcome : session.engine.outcome action with
  | failed item =>
      rw [outcome] at unedited
      obtain ⟨earlier, playing, idle, queued, counted⟩ :=
        Engine.cursor_failed wellformed outcome later
      obtain ⟨same, removed⟩ := counting unedited earlier playing
      have kept : earlier.currentRemoved = false := by
        by_contra removed'
        exact removed (by simpa using removed') idle
      exact ⟨by rw [counted kept, same]; rfl, fun _ => queued⟩
  | fresh =>
      obtain ⟨fresh, queued⟩ := Engine.cursor_fresh outcome later
      exact ⟨fresh, fun _ => queued⟩
  | edited =>
      rw [outcome] at unedited
      cases unedited
  | silent =>
      rw [outcome] at unedited
      obtain ⟨earlier, playing, same, kept⟩ := Engine.cursor_silent outcome later
      obtain ⟨counted, queued⟩ := counting unedited earlier playing
      refine ⟨same.trans counted, fun removed => ?_⟩
      obtain rfl := kept removed
      exact queued removed

theorem Reaches.counting {session : Session P}
    (run : Reaches Engine.SparesCounted session) : session.Counting :=
  (Runs.Moves.invariant (fun session => session.Faithful ∧ session.Counting)
    (fun _ _ _ spares stepped ⟨faithful, counting⟩ => by
      cases stepped
      exact ⟨faithful_apply spares faithful, counting_apply faithful.1 counting⟩)
    run ⟨⟨Engine.wellformed_new, Engine.counts_of_stopped rfl _⟩, fun _ _ none => nomatch none⟩).2

/-- **A loop stops when all its items have failed.** In every run whose edits spare the
items counted: a failure that ends playback leaves no item in the list that has not
failed since the last success, transport command or start; and without an edit since
then, the failure that makes as many in a row as there are items ends playback. -/
theorem loop_stops_when_all_failed {session : Session P}
    (run : Reaches Engine.SparesCounted session) {cursor : Cursor} {stored : Playlist P}
    (playing : session.engine.cursor = some cursor)
    (found : session.engine.playlist cursor.playlist = some stored) :
    ((session.apply .onFailed).engine.cursor = none →
        ∀ item ∈ stored.items, item.id ∈ (session.apply .onFailed).failed) ∧
      (session.engine.mode = .loop → session.edited = false → cursor.isPlaying = true →
        stored.items.length ≤ session.failed.length + 1 →
          (session.apply .onFailed).engine.cursor = none) := by
  obtain ⟨wellformed, counts⟩ := run.faithful
  have counts := counts cursor stored.ids (Engine.heard_eq_some.mpr ⟨playing, stored, found, rfl⟩)
  rw [apply_engine]
  simp only [Engine.apply]
  rcases Engine.onFailed_cases playing found with
    ⟨same, idle⟩ | ⟨current, named, pending, ⟨removed, same⟩ | ⟨kept, ⟨-, all, same⟩ | ⟨more, same⟩⟩⟩
  · refine ⟨fun stopped => ?_, fun _ _ isPlaying => ?_⟩
    · rw [same, playing] at stopped
      cases stopped
    · rw [idle] at isPlaying
      cases isPlaying
  · refine ⟨fun stopped => ?_, fun _ unedited _ _ => ?_⟩
    · rw [same] at stopped
      cases stopped
    · exact absurd pending ((run.counting unedited cursor playing).2 removed)
  · refine ⟨fun _ item member => ?_, fun _ _ _ _ => by rw [same, Engine.stop_cursor]⟩
    have failed : (session.apply .onFailed).failed = current :: session.failed := by
      have outcome : session.engine.outcome .onFailed = .failed current := by
        obtain ⟨_, _, _, _, _, _⟩ := cursor
        cases named
        cases pending
        simp [Engine.outcome, playing]
      unfold apply
      rw [outcome]
    rw [failed]
    refine counts.fails named pending kept (mem_trail_of_length_le ?_ (List.mem_map_of_mem member))
    rw [Playlist.length_ids]
    exact all
  · refine ⟨fun stopped => ?_, fun loop unedited _ all => ?_⟩
    · rw [same] at stopped
      cases stopped
    · rw [← (run.counting unedited cursor playing).1] at all
      exact absurd ⟨loop, all⟩ more

/-- Where nothing plays, nothing is counted. -/
theorem reaches_of_stopped {session : Session P} (action : Action P)
    (run : Reaches Engine.SparesCounted session) (stopped : session.engine.cursor = none)
    (keepsIds : session.engine.KeepsIds action) :
    Reaches Engine.SparesCounted (session.apply action) :=
  run.tail ⟨keepsIds, fun _ _ heard => by
    rw [Engine.heard_eq_none stopped] at heard
    cases heard⟩ rfl

/-- Operations that meet a guard wherever they are taken. -/
theorem reaches_of_actions {guard : Engine P → Action P → Prop} (actions : List (Action P))
    (meets : ∀ action ∈ actions, ∀ engine, guard engine action) {session : Session P}
    (run : Reaches guard session) : Reaches guard (actions.foldl apply session) := by
  induction actions generalizing session with
  | nil => exact run
  | cons action rest ih =>
      exact ih (fun later member => meets later (List.mem_cons_of_mem _ member))
        (run.tail (meets action List.mem_cons_self _) rfl)

/-- A loop of two items that fail one after the other. -/
theorem loop_stops_when_all_failed_of_two : ∃ session : Session Unit,
    Reaches Engine.SparesCounted session ∧ session.engine.cursor ≠ none ∧
      (session.apply .onFailed).engine.cursor = none := by
  have new : Reaches Engine.SparesCounted ({} : Session Unit) := .refl _
  have created := reaches_of_stopped (.create none) new rfl trivial
  have first := reaches_of_stopped (.append ⟨1⟩ ⟨"a", 0, "", "", 0, ()⟩) created rfl trivial
  have second := reaches_of_stopped (.append ⟨1⟩ ⟨"b", 0, "", "", 0, ()⟩) first rfl trivial
  have run := reaches_of_actions [.start ⟨1⟩ none, .setMode .loop, .poll, .onFailed, .poll]
    (by simp [Engine.SparesCounted, Engine.KeepsIds]) second
  refine ⟨_, run, ?_, (loop_stops_when_all_failed run rfl rfl).2 rfl rfl rfl ?_⟩
  · exact Option.some_ne_none _
  · decide

/-- Two items of a loop of four fail, the first of them is removed, and the third one
fails. That ends playback, with the last one never tried. -/
theorem an_edit_stops_a_loop_early :
    ¬∀ session : Session Unit, Reaches Engine.KeepsIds session →
      ∀ cursor stored, session.engine.cursor = some cursor →
        session.engine.playlist cursor.playlist = some stored → session.engine.mode = .loop →
          (session.apply .onFailed).engine.cursor = none →
            ∀ item ∈ stored.items, item.id ∈ (session.apply .onFailed).failed := by
  intro all
  have new : Reaches Engine.KeepsIds ({} : Session Unit) := .refl _
  have run := reaches_of_actions [.create none, .append ⟨1⟩ ⟨"a", 0, "", "", 0, ()⟩,
    .append ⟨1⟩ ⟨"b", 0, "", "", 0, ()⟩, .append ⟨1⟩ ⟨"c", 0, "", "", 0, ()⟩,
    .append ⟨1⟩ ⟨"d", 0, "", "", 0, ()⟩, .start ⟨1⟩ none, .setMode .loop, .poll, .onFailed, .poll,
    .onFailed, .poll, .removeItem ⟨1⟩ ⟨1⟩]
    (by simp [Engine.KeepsIds]) new
  have failed := all _ run _ _ rfl rfl rfl rfl ⟨⟨"d", 0, "", "", 0, ()⟩, ⟨4⟩⟩
    (by exact .tail _ (.tail _ (.head _)))
  revert failed
  decide

end Session

end Retrovert.Playlists
