import Mathlib.Data.List.Flatten
import Mathlib.Data.List.Nodup
import Mathlib.Data.List.Perm.Subperm
import Retrovert.Library.Runs
import Retrovert.Playlists.Engine

/-!
# Runs of the playlist engine

An action is one public operation with its arguments. In a run whose edits keep the
id of the item they are given, no two items have one id, and the playlist that the
cursor names is stored (`Wellformed`). An edit that breaks this has to replace the
whole item, since an id can be read but not assigned.
-/

set_option autoImplicit false

namespace Retrovert.Playlists

/-- One call of a public operation. -/
inductive Action (P : Type) where
  | create (name : Option String)
  | delete (id : PlaylistId)
  | rename (id : PlaylistId) (name : Option String)
  | touchStructurePreservingDirty (id : PlaylistId)
  | append (playlist : PlaylistId) (spec : ItemSpec P)
  | editItem (playlist : PlaylistId) (item : ItemId) (edit : Item P → Item P)
  | removeItem (playlist : PlaylistId) (item : ItemId)
  | moveItem (playlist : PlaylistId) (item : ItemId) (after : Option ItemId)
  | markSaved (id : PlaylistId)
  | markRevisionSaved (id : PlaylistId) (revision : Nat)
  | fromBytes (reader : Reader P) (bytes : Bytes)
  | start (playlist : PlaylistId) (source : Option ItemId)
  | stop
  | setMode (mode : Mode)
  | poll
  | onFinished
  | onFailed
  | next
  | previous

namespace Engine

variable {P : Type}

/-- The engine after an operation. -/
def apply (engine : Engine P) : Action P → Engine P
  | .create name => (engine.create name).1
  | .delete id => (engine.delete id).1
  | .rename id name => (engine.rename id name).1
  | .touchStructurePreservingDirty id => (engine.touchStructurePreservingDirty id).1
  | .append playlist spec => (engine.append playlist spec).1
  | .editItem playlist item edit => (engine.editItem playlist item edit).1
  | .removeItem playlist item => (engine.removeItem playlist item).1
  | .moveItem playlist item after => (engine.moveItem playlist item after).1
  | .markSaved id => (engine.markSaved id).1
  | .markRevisionSaved id revision => (engine.markRevisionSaved id revision).1
  | .fromBytes reader bytes => (engine.fromBytes reader bytes).1
  | .start playlist source => (engine.start playlist source).1
  | .stop => engine.stop
  | .setMode mode => engine.setMode mode
  | .poll => engine.poll.1
  | .onFinished => engine.onFinished
  | .onFailed => engine.onFailed
  | .next => engine.next
  | .previous => engine.previous

def step (engine : Engine P) (action : Action P) : Option (Engine P) := some (engine.apply action)

/-- An edit leaves the id of every item it is given alone. -/
def KeepsIds (_ : Engine P) : Action P → Prop
  | .editItem _ _ edit => ∀ item, (edit item).id = item.id
  | _ => True

/-- The states that runs of a new engine lead to, every step meeting a guard. -/
def Reaches (guard : Engine P → Action P → Prop) (engine : Engine P) : Prop :=
  Runs.Moves step guard {} engine

theorem moves_apply {guard : Engine P → Action P → Prop} {first engine : Engine P}
    (run : Runs.Moves step guard first engine) {action : Action P} (meets : guard engine action) :
    Runs.Moves step guard first (engine.apply action) :=
  run.tail meets rfl

/-! ## Looking playlists up -/

section Lookup

variable {engine : Engine P} {id other : PlaylistId} {index : Nat}

theorem playlist_eq_bind (engine : Engine P) (id : PlaylistId) :
    engine.playlist id = (engine.playlistIndex id).bind (engine.playlists[·]?) :=
  List.find?_eq_bind_findIdx?_getElem?

theorem playlistIndex_eq_some (found : engine.playlistIndex id = some index) :
    ∃ stored, engine.playlists[index]? = some stored ∧ stored.id = id ∧
      engine.playlist id = some stored := by
  obtain ⟨within, same, -⟩ := List.findIdx?_eq_some_iff_getElem.mp found
  refine ⟨engine.playlists[index], by simp [within], by simpa using same, ?_⟩
  rw [playlist_eq_bind, found, Option.bind_some, List.getElem?_eq_getElem within]

theorem playlistIndex_of_playlist {stored : Playlist P} (found : engine.playlist id = some stored) :
    ∃ index, engine.playlistIndex id = some index ∧ engine.playlists[index]? = some stored := by
  rw [playlist_eq_bind, Option.bind_eq_some_iff] at found
  exact found

theorem playlist_id {stored : Playlist P} (found : engine.playlist id = some stored) :
    stored.id = id := by
  simpa using List.find?_some found

theorem playlistIndex_eq_map (engine : Engine P) (id : PlaylistId) :
    engine.playlistIndex id = (engine.playlists.map Playlist.id).findIdx? (· == id) := by
  rw [List.findIdx?_map]
  rfl

/-- Playlists are looked up by their ids alone. -/
theorem playlistIndex_congr {later : Engine P}
    (same : later.playlists.map Playlist.id = engine.playlists.map Playlist.id)
    (id : PlaylistId) : later.playlistIndex id = engine.playlistIndex id := by
  rw [playlistIndex_eq_map, playlistIndex_eq_map, same]

end Lookup

/-! ## Polling -/

/-- Where an advance leads in the list that the cursor plays. -/
def leadsTo (engine : Engine P) (cursor : Cursor) (stored : Playlist P) : Advance → Option Nat
  | .start => if cursor.position < stored.items.length then some cursor.position else none
  | .forward => engine.forwardPosition
  | .backward => engine.previousPosition

theorem targetPosition_eq {engine : Engine P} {cursor : Cursor} {stored : Playlist P}
    (playing : engine.cursor = some cursor) (found : engine.playlist cursor.playlist = some stored)
    (advance : Advance) : ∃ index, engine.playlists[index]? = some stored ∧
      engine.targetPosition advance =
        (engine.leadsTo cursor stored advance).map fun position => (index, position) := by
  obtain ⟨index, looked, there⟩ := playlistIndex_of_playlist found
  refine ⟨index, there, ?_⟩
  unfold targetPosition leadsTo
  rw [playing, Option.bind_eq_bind, Option.bind_some, looked, Option.bind_eq_bind,
    Option.bind_some, there, Option.bind_eq_bind, Option.bind_some, Option.map_eq_bind]
  cases advance with
  | start =>
      dsimp only
      split <;> rfl
  | forward => rfl
  | backward => rfl

/-- What a poll yields, and the cursor it leaves on it. -/
theorem poll_eq {engine : Engine P} {cursor : Cursor} {advance : Advance} {stored : Playlist P}
    (playing : engine.cursor = some cursor) (pending : cursor.pending = some advance)
    (found : engine.playlist cursor.playlist = some stored) :
    engine.poll =
      match engine.leadsTo cursor stored advance with
      | none => (engine.stop, none)
      | some position =>
          match stored.items[position]? with
          | none => (engine, none)
          | some item =>
              ({ engine with cursor := some (cursor.onto item.id position) }, some item) := by
  obtain ⟨index, there, target⟩ := targetPosition_eq playing found advance
  unfold poll
  rw [playing, Option.bind_some, pending, Option.map_some]
  simp only [target]
  cases engine.leadsTo cursor stored advance with
  | none => rfl
  | some position =>
      cases item : stored.items[position]? with
      | none => simp [there, item]
      | some entry => simp [there, item]

/-! ## Changing one playlist -/

theorem map_modify_at {α β : Type} {f : α → α} {g : α → β} (list : List α) (index : Nat)
    (keeps : ∀ value, list[index]? = some value → g (f value) = g value) :
    (list.modify index f).map g = list.map g := by
  apply List.ext_getElem?
  intro position
  rw [List.getElem?_map, List.getElem?_map, List.getElem?_modify]
  cases there : list[position]? with
  | none => rfl
  | some value =>
      by_cases same : index = position
      · simp [same, keeps value (same ▸ there)]
      · simp [same]

theorem map_modify {α β : Type} {f : α → α} {g : α → β} (keeps : ∀ value, g (f value) = g value)
    (list : List α) (index : Nat) : (list.modify index f).map g = list.map g :=
  map_modify_at list index fun value _ => keeps value

/-- What is looked up once the playlist of an id has been changed. -/
theorem playlist_modify (engine : Engine P) {id : PlaylistId} {index : Nat}
    (change : Playlist P → Playlist P) (keeps : ∀ stored, (change stored).id = stored.id)
    (found : engine.playlistIndex id = some index) (other : PlaylistId) :
    (engine.modify index change).playlist other =
      if other = id then (engine.playlist other).map change else engine.playlist other := by
  have ids : (engine.modify index change).playlists.map Playlist.id =
      engine.playlists.map Playlist.id := map_modify keeps _ _
  rw [playlist_eq_bind, playlist_eq_bind, playlistIndex_congr ids]
  cases looked : engine.playlistIndex other with
  | none => simp
  | some position =>
      simp only [modify, Option.bind_some, List.getElem?_modify]
      by_cases same : other = id
      · subst same
        rw [found] at looked
        cases looked
        simp
      · have apart : index ≠ position := by
          rintro rfl
          obtain ⟨stored, there, first, -⟩ := playlistIndex_eq_some found
          obtain ⟨stored', there', second, -⟩ := playlistIndex_eq_some looked
          rw [there] at there'
          cases there'
          exact same (second.symm.trans first)
        simp [same, apart]

/-! ## Edits of the items of one playlist -/

section Edits

variable {stored : Playlist P} {item : ItemId}

theorem itemIndex_eq_some {index : Nat} (found : stored.itemIndex item = some index) :
    ∃ element, stored.items[index]? = some element ∧ element.id = item := by
  obtain ⟨within, same, -⟩ := List.findIdx?_eq_some_iff_getElem.mp found
  exact ⟨stored.items[index], List.getElem?_eq_getElem within, by simpa using same⟩

theorem destination_eq_some {after : Option ItemId} {source target : Nat}
    (found : stored.destination item after = some (source, target)) :
    stored.itemIndex item = some source ∧ target < stored.items.length := by
  simp only [Playlist.destination, Option.bind_eq_bind, Option.bind_eq_some_iff] at found
  obtain ⟨index, there, rest⟩ := found
  obtain ⟨_, at_, -⟩ := itemIndex_eq_some there
  have inside := (List.getElem?_eq_some_iff.mp at_).1
  have placed : ∀ place, place ≤ stored.items.length →
      (if (if index < place then place - 1 else place) = index then none
        else some (index, if index < place then place - 1 else place)) = some (source, target) →
      stored.itemIndex item = some source ∧ target < stored.items.length := by
    intro place within made
    rw [Option.ite_none_left_eq_some] at made
    obtain ⟨-, made⟩ := made
    cases made
    refine ⟨there, ?_⟩
    split <;> omega
  cases after with
  | none => exact placed 0 (Nat.zero_le _) rest
  | some after =>
      obtain ⟨place, afterwards, made⟩ := Option.bind_eq_some_iff.mp rest
      obtain ⟨position, behind, rfl⟩ := Option.map_eq_some_iff.mp afterwards
      obtain ⟨_, behind, -⟩ := itemIndex_eq_some behind
      exact placed _ (List.getElem?_eq_some_iff.mp behind).1 made

end Edits

theorem locate_eq_some {engine : Engine P} {playlist : PlaylistId} {item : ItemId}
    {playlistIndex itemIndex : Nat}
    (found : engine.locate playlist item = some (playlistIndex, itemIndex)) :
    engine.playlistIndex playlist = some playlistIndex ∧ ∃ stored,
      engine.playlists[playlistIndex]? = some stored ∧ engine.playlist playlist = some stored ∧
        stored.itemIndex item = some itemIndex := by
  simp only [locate, Option.bind_eq_bind, Option.bind_eq_some_iff] at found
  obtain ⟨index, there, stored, at_, position, inside, made⟩ := found
  cases made
  obtain ⟨stored', at', -, looked⟩ := playlistIndex_eq_some there
  rw [at_] at at'
  cases at'
  exact ⟨there, stored, at_, looked, inside⟩

/-- What is looked up once an item has been removed. -/
theorem removeItem_eq (engine : Engine P) (id : PlaylistId) (item : ItemId) :
    (engine.removeItem id item).1 = engine ∧ engine.locate id item = none ∨
      ∃ stored index, engine.playlist id = some stored ∧ stored.itemIndex item = some index ∧
        (engine.removeItem id item).1.mode = engine.mode ∧
        (engine.removeItem id item).1.cursor = (engine.cursor.map fun cursor =>
          if cursor.playlist = id ∧ cursor.current = some item then cursor.lose index
          else cursor) ∧
        ∀ other, (engine.removeItem id item).1.playlist other =
          if other = id then some { stored.touchStructure with items := stored.items.eraseIdx index }
          else engine.playlist other := by
  unfold removeItem
  cases located : engine.locate id item with
  | none => exact .inl ⟨rfl, rfl⟩
  | some place =>
      obtain ⟨playlistIndex, itemIndex⟩ := place
      obtain ⟨looked, stored, -, found, there⟩ := locate_eq_some located
      refine .inr ⟨stored, itemIndex, found, there, rfl, rfl, fun other => ?_⟩
      have lookup := playlist_modify
        { engine with
          cursor := engine.cursor.map fun cursor =>
            if cursor.playlist = id ∧ cursor.current = some item then cursor.lose itemIndex
            else cursor }
        (fun playlist =>
          { playlist.touchStructure with items := playlist.items.eraseIdx itemIndex })
        (fun _ => rfl) looked other
      refine lookup.trans ?_
      by_cases same : other = id
      · subst same
        simp only [if_true]
        exact congrArg (Option.map _) found
      · simp only [same, if_false]
        rfl

/-- What is looked up once an item has been moved. -/
theorem moveItem_eq (engine : Engine P) (id : PlaylistId) (item : ItemId)
    (after : Option ItemId) :
    (engine.moveItem id item after).1 = engine ∨
      ∃ stored source target, engine.playlist id = some stored ∧
        stored.destination item after = some (source, target) ∧
        (engine.moveItem id item after).1.mode = engine.mode ∧
        (engine.moveItem id item after).1.cursor = engine.cursor ∧
        ∀ other, (engine.moveItem id item after).1.playlist other =
          if other = id then
            some { stored.touchStructure with items := relocated stored.items source target }
          else engine.playlist other := by
  unfold moveItem
  split
  · exact .inl rfl
  · cases looked : engine.playlistIndex id with
    | none => exact .inl rfl
    | some index =>
        obtain ⟨stored, there, -, found⟩ := playlistIndex_eq_some looked
        simp only [there, Option.bind_some]
        cases moved : stored.destination item after with
        | none => exact .inl rfl
        | some place =>
            obtain ⟨source, target⟩ := place
            refine .inr ⟨stored, source, target, found, moved, rfl, rfl, fun other => ?_⟩
            have lookup := playlist_modify engine
              (fun playlist =>
                { playlist.touchStructure with items := relocated playlist.items source target })
              (fun _ => rfl) looked other
            refine lookup.trans ?_
            by_cases same : other = id
            · subst same
              simp only [if_true, found, Option.map_some]
            · simp only [same, if_false]

/-! ## Well-formed engines -/

/-- The ids of all stored items, in order. -/
def itemIds (engine : Engine P) : List ItemId :=
  engine.playlists.flatMap fun playlist => playlist.items.map Item.id

/-- The item ids around one playlist. -/
theorem itemIds_modify {engine : Engine P} {index : Nat} {stored : Playlist P}
    (found : engine.playlists[index]? = some stored) (change : Playlist P → Playlist P) :
    ∃ before after, engine.itemIds = before ++ stored.items.map Item.id ++ after ∧
      (engine.modify index change).itemIds =
        before ++ (change stored).items.map Item.id ++ after := by
  obtain ⟨within, rfl⟩ := List.getElem?_eq_some_iff.mp found
  refine ⟨(engine.playlists.take index).flatMap fun playlist => playlist.items.map Item.id,
    (engine.playlists.drop (index + 1)).flatMap fun playlist => playlist.items.map Item.id, ?_, ?_⟩
  · calc engine.itemIds
        = (engine.playlists.take index ++ engine.playlists.drop index).flatMap
            fun playlist => playlist.items.map Item.id := by rw [List.take_append_drop]; rfl
      _ = _ := by
          rw [List.flatMap_append, List.drop_eq_getElem_cons within, List.flatMap_cons,
            List.append_assoc]
  · rw [itemIds, modify, List.modify_eq_take_cons_drop within]
    simp

/-- Ids are distinct and below their counters, and the playlist being played is
stored. -/
structure Wellformed (engine : Engine P) : Prop where
  playlistIds : (engine.playlists.map Playlist.id).Nodup
  playlistBound : ∀ id ∈ engine.playlists.map Playlist.id, id.value ≤ engine.nextPlaylistId
  itemIds : engine.itemIds.Nodup
  itemBound : ∀ id ∈ engine.itemIds, id.value ≤ engine.nextItemId
  playing : ∀ cursor, engine.cursor = some cursor →
    cursor.playlist ∈ engine.playlists.map Playlist.id

theorem wellformed_new : Wellformed ({} : Engine P) where
  playlistIds := .nil
  playlistBound _ member := nomatch member
  itemIds := .nil
  itemBound _ member := nomatch member
  playing _ found := nomatch found

theorem nodup_of_subperm {α : Type} {smaller larger : List α} (within : smaller.Subperm larger)
    (distinct : larger.Nodup) : smaller.Nodup := by
  obtain ⟨between, same, sublist⟩ := within
  exact same.nodup_iff.mp (distinct.sublist sublist)

/-- No new ids, and no cursor on a playlist that is gone. -/
theorem Wellformed.of_subperm {engine later : Engine P} (wellformed : engine.Wellformed)
    (playlistIds : (later.playlists.map Playlist.id).Sublist (engine.playlists.map Playlist.id))
    (itemIds : later.itemIds.Subperm engine.itemIds)
    (nextPlaylistId : later.nextPlaylistId = engine.nextPlaylistId)
    (nextItemId : later.nextItemId = engine.nextItemId)
    (playing : ∀ cursor, later.cursor = some cursor →
      cursor.playlist ∈ later.playlists.map Playlist.id) : later.Wellformed where
  playlistIds := wellformed.playlistIds.sublist playlistIds
  playlistBound id member := by
    rw [nextPlaylistId]
    exact wellformed.playlistBound id (playlistIds.subset member)
  itemIds := nodup_of_subperm itemIds wellformed.itemIds
  itemBound id member := by
    rw [nextItemId]
    exact wellformed.itemBound id (itemIds.subset member)
  playing := playing

/-- The cursor stays, or moves within its playlist. -/
def SameStage (engine later : Engine P) : Prop :=
  ∀ cursor, later.cursor = some cursor →
    ∃ earlier, engine.cursor = some earlier ∧ cursor.playlist = earlier.playlist

theorem SameStage.refl (engine : Engine P) : SameStage engine engine :=
  fun cursor found => ⟨cursor, found, rfl⟩

/-- A change of the cursor within its playlist. -/
theorem Wellformed.of_stage {engine later : Engine P} (wellformed : engine.Wellformed)
    (playlists : later.playlists = engine.playlists)
    (nextPlaylistId : later.nextPlaylistId = engine.nextPlaylistId)
    (nextItemId : later.nextItemId = engine.nextItemId) (stage : SameStage engine later) :
    later.Wellformed := by
  refine wellformed.of_subperm (by rw [playlists]) ?_ nextPlaylistId nextItemId ?_
  · rw [Engine.itemIds, playlists]
    exact .refl _
  · intro cursor found
    obtain ⟨earlier, playing, same⟩ := stage cursor found
    rw [playlists, same]
    exact wellformed.playing earlier playing

/-- A change of one playlist that gives no item a new id. -/
theorem Wellformed.modify {engine : Engine P} (wellformed : engine.Wellformed) {id : PlaylistId}
    {index : Nat} (found : engine.playlistIndex id = some index)
    {change : Playlist P → Playlist P} (keeps : ∀ stored, (change stored).id = stored.id)
    (items : ∀ stored, ((change stored).items.map Item.id).Subperm (stored.items.map Item.id)) :
    (engine.modify index change).Wellformed := by
  obtain ⟨stored, there, -, -⟩ := playlistIndex_eq_some found
  obtain ⟨before, after, ids, changed⟩ := itemIds_modify there change
  have names : (engine.modify index change).playlists.map Playlist.id =
      engine.playlists.map Playlist.id := map_modify keeps _ _
  refine wellformed.of_subperm (by rw [names]) ?_ rfl rfl ?_
  · rw [ids, changed]
    exact List.Subperm.append (List.Subperm.append (.refl before) (items stored)) (.refl after)
  · intro cursor playing
    rw [names]
    exact wellformed.playing cursor playing

theorem Wellformed.touch {engine : Engine P} (wellformed : engine.Wellformed) :
    engine.touch.Wellformed :=
  wellformed.of_stage rfl rfl rfl (.refl _)

/-- An id in use is not the next one to be minted. -/
theorem mint_eq_some {last value : Nat} (minted : mint last = some value) : value = last + 1 := by
  unfold mint at minted
  split at minted
  · cases minted
    rfl
  · cases minted

theorem subperm_relocated {α : Type} (list : List α) (source target : Nat) :
    (relocated list source target).Subperm list := by
  unfold relocated
  cases found : list[source]? with
  | none => exact .refl _
  | some element =>
      obtain ⟨within, rfl⟩ := List.getElem?_eq_some_iff.mp found
      simp only
      rcases Nat.lt_or_ge (list.eraseIdx source).length target with beyond | inside
      · rw [List.insertIdx_of_length_lt beyond]
        exact (List.eraseIdx_sublist list source).subperm
      · exact ((List.perm_insertIdx _ _ inside).trans
          (List.getElem_cons_eraseIdx_perm within)).subperm

theorem numbered_ids (last : Nat) (specs : List (ItemSpec P)) :
    (numbered last specs).map Item.id = (List.range' (last + 1) specs.length).map ItemId.mk := by
  induction specs generalizing last with
  | nil => rfl
  | cons spec rest ih => rw [numbered, List.map_cons, ih, List.length_cons, List.range'_succ,
      List.map_cons]

/-- A playlist under a newly minted id, of items under newly minted ids. -/
theorem Wellformed.push {engine : Engine P} (wellformed : engine.Wellformed) {value : Nat}
    (minted : mint engine.nextPlaylistId = some value) (name : Option String)
    (specs : List (ItemSpec P)) :
    Wellformed { engine with
      nextPlaylistId := value
      nextItemId := engine.nextItemId + specs.length
      playlists := engine.playlists ++
        [{ id := ⟨value⟩, name, items := numbered engine.nextItemId specs }] } := by
  obtain rfl := mint_eq_some minted
  have ids : engine.playlists.flatMap (fun playlist => playlist.items.map Item.id) =
    engine.itemIds := rfl
  refine ⟨?_, ?_, ?_, ?_, ?_⟩
  · rw [List.map_append, List.map_singleton]
    refine wellformed.playlistIds.append (List.nodup_singleton _) ?_
    rintro id old new
    rw [List.mem_singleton.mp new] at old
    exact Nat.not_succ_le_self _ (wellformed.playlistBound _ old)
  · intro id member
    rw [List.map_append, List.mem_append] at member
    rcases member with old | new
    · exact Nat.le_succ_of_le (wellformed.playlistBound id old)
    · rw [List.map_singleton, List.mem_singleton] at new
      exact Nat.le_of_eq (congrArg PlaylistId.value new)
  · rw [Engine.itemIds, List.flatMap_append, ids, List.flatMap_singleton, numbered_ids]
    refine wellformed.itemIds.append ?_ ?_
    · exact List.Nodup.map (fun _ _ same => ItemId.mk.inj same) List.nodup_range'
    · intro id old new
      obtain ⟨number, member, rfl⟩ := List.mem_map.mp new
      have := wellformed.itemBound _ old
      rw [List.mem_range'_1] at member
      simp only at this
      omega
  · intro id member
    rw [Engine.itemIds, List.flatMap_append, ids, List.flatMap_singleton, numbered_ids,
      List.mem_append] at member
    rcases member with old | new
    · exact Nat.le_add_right_of_le (wellformed.itemBound id old)
    · obtain ⟨number, member, rfl⟩ := List.mem_map.mp new
      rw [List.mem_range'_1] at member
      simp only
      omega
  · intro cursor playing
    rw [List.map_append]
    exact List.mem_append_left _ (wellformed.playing cursor playing)

/-- An item under a newly minted id, at the end of a playlist. -/
theorem Wellformed.append {engine : Engine P} (wellformed : engine.Wellformed) {id : PlaylistId}
    {index value : Nat} (found : engine.playlistIndex id = some index)
    (minted : mint engine.nextItemId = some value) {change : Playlist P → Playlist P}
    (keeps : ∀ stored, (change stored).id = stored.id)
    (items : ∀ stored, (change stored).items.map Item.id =
      stored.items.map Item.id ++ [⟨value⟩]) :
    (Engine.modify { engine with nextItemId := value } index change).Wellformed := by
  obtain rfl := mint_eq_some minted
  obtain ⟨stored, there, -, -⟩ := playlistIndex_eq_some found
  obtain ⟨before, after, ids, changed⟩ := itemIds_modify there change
  have added : (before ++ (change stored).items.map Item.id ++ after).Perm
      (⟨engine.nextItemId + 1⟩ :: engine.itemIds) := by
    rw [ids, items, ← List.append_assoc before, List.append_assoc _ [_] after]
    exact List.perm_middle
  have names : (engine.modify index change).playlists.map Playlist.id =
      engine.playlists.map Playlist.id := map_modify keeps _ _
  have listed : (Engine.modify { engine with nextItemId := engine.nextItemId + 1 } index
      change).itemIds = before ++ (change stored).items.map Item.id ++ after := changed
  refine ⟨?_, ?_, ?_, ?_, ?_⟩
  · exact (congrArg List.Nodup names).mpr wellformed.playlistIds
  · intro other member
    exact wellformed.playlistBound other (names ▸ member)
  · rw [listed, added.nodup_iff, List.nodup_cons]
    refine ⟨fun old => ?_, wellformed.itemIds⟩
    exact Nat.not_succ_le_self _ (wellformed.itemBound _ old)
  · intro other member
    rw [listed, added.mem_iff, List.mem_cons] at member
    rcases member with rfl | old
    · exact Nat.le_refl _
    · exact Nat.le_succ_of_le (wellformed.itemBound other old)
  · intro cursor playing
    exact names ▸ wellformed.playing cursor playing

/-- A stored playlist is gone, and the cursor plays another one. -/
theorem Wellformed.erase {engine : Engine P} (wellformed : engine.Wellformed) {id : PlaylistId}
    {index : Nat} (found : engine.playlistIndex id = some index) {cursor : Option Cursor}
    (playing : ∀ left, cursor = some left → engine.cursor = some left ∧ left.playlist ≠ id) :
    Wellformed { engine with cursor, playlists := engine.playlists.eraseIdx index } := by
  have sublist := List.eraseIdx_sublist engine.playlists index
  refine wellformed.of_subperm (sublist.map _) (sublist.flatMap _).subperm rfl rfl ?_
  intro left there
  obtain ⟨earlier, apart⟩ := playing left there
  obtain ⟨stored, member, same⟩ := List.mem_map.mp (wellformed.playing left earlier)
  obtain ⟨position, at_, rfl⟩ := List.getElem_of_mem member
  refine List.mem_map.mpr ⟨_, List.mem_eraseIdx_iff_getElem?.mpr ⟨position, ?_,
    List.getElem?_eq_getElem at_⟩, same⟩
  rintro rfl
  obtain ⟨erased, there, named, -⟩ := playlistIndex_eq_some found
  rw [List.getElem?_eq_getElem at_] at there
  cases there
  exact apart (same.symm.trans named)

theorem Wellformed.stop {engine : Engine P} (wellformed : engine.Wellformed) :
    engine.stop.Wellformed := by
  unfold Engine.stop
  cases engine.cursor with
  | none => exact wellformed
  | some cursor =>
      simp only
      split
      · unfold removePlaylist
        split
        · exact wellformed.of_stage rfl rfl rfl fun _ found => by cases found
        · rename_i index found
          exact (wellformed.erase found fun _ there => by cases there).touch
      · exact wellformed.of_stage rfl rfl rfl fun _ found => by cases found

theorem Wellformed.markRevisionSaved {engine : Engine P} (wellformed : engine.Wellformed)
    (id : PlaylistId) (revision : Nat) :
    (engine.apply (.markRevisionSaved id revision)).Wellformed := by
  simp only [apply, Engine.markRevisionSaved]
  split
  · exact wellformed
  · rename_i index found
    split
    · exact wellformed
    · refine wellformed.modify found ?_ fun stored => ?_
      · exact fun _ => rfl
      · exact .refl _

/-- A change of the cursor that keeps its playlist. -/
theorem sameStage_map {engine : Engine P} {change : Cursor → Cursor}
    (keeps : ∀ cursor, (change cursor).playlist = cursor.playlist) :
    SameStage engine { engine with cursor := engine.cursor.map change } := by
  intro cursor found
  obtain ⟨earlier, there, rfl⟩ := Option.map_eq_some_iff.mp found
  exact ⟨earlier, there, keeps earlier⟩

theorem wellformed_create {engine : Engine P} (wellformed : engine.Wellformed)
    (name : Option String) : (engine.apply (.create name)).Wellformed := by
  simp only [apply, create]
  split
  · exact wellformed
  · rename_i value minted
    exact (wellformed.push minted name []).touch

theorem wellformed_delete {engine : Engine P} (wellformed : engine.Wellformed) (id : PlaylistId) :
    (engine.apply (.delete id)).Wellformed := by
  simp only [apply, delete]
  split
  · exact wellformed
  · rename_i index found
    refine (wellformed.erase found fun left there => ?_).touch
    rw [Option.ite_none_left_eq_some] at there
    refine ⟨there.2, fun same => there.1 ?_⟩
    rw [playingPlaylist, there.2, Option.map_some, same]

theorem wellformed_rename {engine : Engine P} (wellformed : engine.Wellformed)
    (id : PlaylistId) (name : Option String) : (engine.apply (.rename id name)).Wellformed := by
  simp only [apply, rename]
  split
  · exact wellformed
  · rename_i index found
    split
    · exact wellformed
    · refine (wellformed.modify found ?_ fun stored => ?_).touch
      · exact fun _ => rfl
      · exact .refl _

theorem wellformed_touch {engine : Engine P} (wellformed : engine.Wellformed)
    (id : PlaylistId) : (engine.apply (.touchStructurePreservingDirty id)).Wellformed := by
  simp only [apply, touchStructurePreservingDirty]
  split
  · exact wellformed
  · rename_i index found
    refine (wellformed.modify found (fun stored => ?_) fun stored => ?_).touch
    · split <;> rfl
    · split <;> exact .refl _

theorem wellformed_append {engine : Engine P} (wellformed : engine.Wellformed)
    (playlist : PlaylistId) (spec : ItemSpec P) :
    (engine.apply (.append playlist spec)).Wellformed := by
  simp only [apply, append]
  split
  · rename_i index value found minted
    refine (wellformed.append found minted ?_ fun stored => ?_).touch
    · exact fun _ => rfl
    · rw [List.map_append]
      rfl
  · exact wellformed

theorem wellformed_editItem {engine : Engine P} (wellformed : engine.Wellformed)
    {playlist : PlaylistId} {item : ItemId} {edit : Item P → Item P}
    (keepsIds : engine.KeepsIds (.editItem playlist item edit)) :
    (engine.apply (.editItem playlist item edit)).Wellformed := by
  simp only [apply, editItem]
  split
  · exact wellformed
  · rename_i playlistIndex itemIndex located
    refine (wellformed.modify (locate_eq_some located).1 ?_ fun stored => ?_).touch
    · exact fun _ => rfl
    · rw [map_modify keepsIds]

theorem wellformed_removeItem {engine : Engine P} (wellformed : engine.Wellformed)
    (playlist : PlaylistId) (item : ItemId) :
    (engine.apply (.removeItem playlist item)).Wellformed := by
  simp only [apply, removeItem]
  split
  · exact wellformed
  · rename_i playlistIndex itemIndex located
    have lost : Wellformed { engine with
        cursor := engine.cursor.map fun cursor =>
          if cursor.playlist = playlist ∧ cursor.current = some item then cursor.lose itemIndex
          else cursor } :=
      wellformed.of_stage rfl rfl rfl (sameStage_map fun cursor => by split <;> rfl)
    refine (lost.modify (locate_eq_some located).1 ?_ fun stored => ?_).touch
    · exact fun _ => rfl
    · exact ((List.eraseIdx_sublist _ _).map _).subperm

theorem wellformed_moveItem {engine : Engine P} (wellformed : engine.Wellformed)
    (playlist : PlaylistId) (item : ItemId) (after : Option ItemId) :
    (engine.apply (.moveItem playlist item after)).Wellformed := by
  simp only [apply, moveItem]
  split
  · exact wellformed
  · split
    · exact wellformed
    · rename_i playlistIndex found
      split
      · exact wellformed
      · refine (wellformed.modify found ?_ fun stored => ?_).touch
        · exact fun _ => rfl
        · obtain ⟨between, same, sublist⟩ := subperm_relocated stored.items _ _
          exact ⟨between.map _, same.map _, sublist.map _⟩

theorem wellformed_markSaved {engine : Engine P} (wellformed : engine.Wellformed)
    (id : PlaylistId) : (engine.apply (.markSaved id)).Wellformed := by
  simp only [apply, markSaved]
  split
  · exact wellformed
  · exact wellformed.markRevisionSaved _ _

theorem wellformed_fromBytes {engine : Engine P} (wellformed : engine.Wellformed)
    (reader : Reader P) (bytes : Bytes) : (engine.apply (.fromBytes reader bytes)).Wellformed := by
  simp only [apply, fromBytes]
  split
  · exact wellformed
  · split
    · exact wellformed
    · split
      · exact wellformed
      · split
        · exact wellformed
        · rename_i value minted
          split
          · exact (wellformed.push minted _ _).touch
          · exact wellformed

theorem wellformed_start {engine : Engine P} (wellformed : engine.Wellformed)
    (playlist : PlaylistId) (source : Option ItemId) :
    (engine.apply (.start playlist source)).Wellformed := by
  have stopped := wellformed.stop
  simp only [apply, start]
  split
  · exact stopped
  · rename_i stored found
    split
    · exact stopped
    · split
      · exact stopped
      · refine stopped.of_subperm (.refl _) (.refl _) rfl rfl fun cursor playing => ?_
        cases playing
        exact List.mem_map.mpr ⟨stored, List.mem_of_find?_eq_some found, playlist_id found⟩

theorem wellformed_poll {engine : Engine P} (wellformed : engine.Wellformed) :
    (engine.apply .poll).Wellformed := by
  simp only [apply, poll]
  split
  · exact wellformed
  · rename_i cursor advance pending
    obtain ⟨_, playing, there⟩ := Option.bind_eq_some_iff.mp pending
    obtain ⟨_, _, made⟩ := Option.map_eq_some_iff.mp there
    cases made
    split
    · exact wellformed.stop
    · split
      · exact wellformed
      · refine wellformed.of_stage rfl rfl rfl fun _ found => ?_
        cases found
        exact ⟨_, playing, rfl⟩

theorem wellformed_onFailed {engine : Engine P} (wellformed : engine.Wellformed) :
    (engine.apply .onFailed).Wellformed := by
  simp only [apply, onFailed]
  cases playing : engine.cursor with
  | none => exact wellformed
  | some cursor =>
      have kept : ∀ later : Cursor, later.playlist = cursor.playlist →
          Wellformed { engine with cursor := some later } := by
        intro later same
        refine wellformed.of_stage rfl rfl rfl fun _ found => ?_
        cases found
        exact ⟨cursor, playing, same⟩
      simp only
      split
      · exact wellformed
      · split
        · exact kept _ rfl
        · split
          · exact wellformed.stop
          · exact kept _ rfl

/-- **Well-formedness is kept by every operation**, edits keeping the ids of their
items. -/
theorem wellformed_apply {engine : Engine P} {action : Action P} (keepsIds : engine.KeepsIds action)
    (wellformed : engine.Wellformed) : (engine.apply action).Wellformed := by
  cases action with
  | create name => exact wellformed_create wellformed name
  | delete id => exact wellformed_delete wellformed id
  | rename id name => exact wellformed_rename wellformed id name
  | touchStructurePreservingDirty id => exact wellformed_touch wellformed id
  | append playlist spec => exact wellformed_append wellformed playlist spec
  | editItem playlist item edit => exact wellformed_editItem wellformed keepsIds
  | removeItem playlist item => exact wellformed_removeItem wellformed playlist item
  | moveItem playlist item after => exact wellformed_moveItem wellformed playlist item after
  | markSaved id => exact wellformed_markSaved wellformed id
  | markRevisionSaved id revision => exact wellformed.markRevisionSaved _ _
  | fromBytes reader bytes => exact wellformed_fromBytes wellformed reader bytes
  | start playlist source => exact wellformed_start wellformed playlist source
  | stop => exact wellformed.stop
  | setMode mode => exact wellformed.of_stage rfl rfl rfl (.refl _)
  | poll => exact wellformed_poll wellformed
  | onFinished | next =>
      exact wellformed.of_stage rfl rfl rfl (sameStage_map fun cursor => by split <;> rfl)
  | onFailed => exact wellformed_onFailed wellformed
  | previous =>
      simp only [apply, previous]
      split
      · exact wellformed
      · exact wellformed.of_stage rfl rfl rfl (sameStage_map fun cursor => by split <;> rfl)

theorem Reaches.wellformed {engine : Engine P} (run : Reaches KeepsIds engine) :
    engine.Wellformed :=
  Runs.Moves.invariant _
    (fun _ _ _ keepsIds stepped wellformed => by
      cases stepped
      exact wellformed_apply keepsIds wellformed)
    run wellformed_new

end Engine

end Retrovert.Playlists
