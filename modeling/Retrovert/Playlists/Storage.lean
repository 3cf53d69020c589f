import Retrovert.Playlists.Runs

/-!
# What an operation does to the stored playlists

An operation leaves the stored playlists as they are, adds one at the end, takes one
out, or changes one in place (`Effect`). What it can do to a playlist in place is a
list of its own (`Changes`). The facts about runs in which every edit counts, also
those that replace an item, are read off these two.
-/

set_option autoImplicit false

namespace Retrovert.Playlists

namespace Playlist

variable {P : Type}

/-- What a playlist holds: its name and its items in order. -/
def contents (playlist : Playlist P) : Option String × List (Item P) :=
  (playlist.name, playlist.items)

end Playlist

namespace Engine

variable {P : Type}

/-- The playlist that an operation reports to have mutated. -/
def mutates (engine : Engine P) : Action P → Option PlaylistId
  | .rename id name => if (engine.rename id name).2 then some id else none
  | .touchStructurePreservingDirty id =>
      if (engine.touchStructurePreservingDirty id).2 then some id else none
  | .append id spec => if (engine.append id spec).2.isSome then some id else none
  | .editItem id item edit => if (engine.editItem id item edit).2 then some id else none
  | .removeItem id item => if (engine.removeItem id item).2 then some id else none
  | .moveItem id item after => if (engine.moveItem id item after).2 then some id else none
  | _ => none

/-- An operation that acknowledges a save. -/
def acknowledges : Action P → Bool
  | .markSaved _ | .markRevisionSaved _ _ => true
  | _ => false

/-- How an operation changes a stored playlist in place, and the counter of item ids
that it leaves. -/
inductive Changes (engine : Engine P) : Action P → Playlist P → Playlist P → Nat → Prop
  | renamed {stored : Playlist P} {name : Option String} (differs : stored.name ≠ name) :
      Changes engine (.rename stored.id name) stored { stored.touchStructure with name }
        engine.nextItemId
  | dirtied {stored : Playlist P} (dirty : stored.isDirty = true) :
      Changes engine (.touchStructurePreservingDirty stored.id) stored stored.touchStructure
        engine.nextItemId
  | cleaned {stored : Playlist P} (clean : stored.isDirty = false) :
      Changes engine (.touchStructurePreservingDirty stored.id) stored
        { stored.touchStructure with lastSavedRevision := stored.touchStructure.contentRevision }
        engine.nextItemId
  | appended {stored : Playlist P} {spec : ItemSpec P} {value : Nat}
      (minted : mint engine.nextItemId = some value) :
      Changes engine (.append stored.id spec) stored
        { stored.touchContent with items := stored.items ++ [⟨spec, ⟨value⟩⟩] } value
  | edited {stored : Playlist P} {item : ItemId} {edit : Item P → Item P} {index : Nat}
      (found : stored.itemIndex item = some index) :
      Changes engine (.editItem stored.id item edit) stored
        { stored.touchStructure with items := stored.items.modify index edit } engine.nextItemId
  | removed {stored : Playlist P} {item : ItemId} {index : Nat}
      (found : stored.itemIndex item = some index) :
      Changes engine (.removeItem stored.id item) stored
        { stored.touchStructure with items := stored.items.eraseIdx index } engine.nextItemId
  | moved {stored : Playlist P} {item : ItemId} {after : Option ItemId} {source target : Nat}
      (found : stored.destination item after = some (source, target)) :
      Changes engine (.moveItem stored.id item after) stored
        { stored.touchStructure with items := relocated stored.items source target }
        engine.nextItemId
  | saved {stored : Playlist P} {revision : Nat} (within : revision ≤ stored.contentRevision) :
      Changes engine (.markRevisionSaved stored.id revision) stored
        { stored with lastSavedRevision := max stored.lastSavedRevision revision }
        engine.nextItemId
  | savedAll {stored : Playlist P} :
      Changes engine (.markSaved stored.id) stored
        { stored with lastSavedRevision := max stored.lastSavedRevision stored.contentRevision }
        engine.nextItemId

/-- A playlist that an operation adds, under the next id. -/
inductive Adds (engine : Engine P) : Action P → Playlist P → Prop
  | created {name : Option String} {value : Nat}
      (minted : mint engine.nextPlaylistId = some value) :
      Adds engine (.create name) { id := ⟨value⟩, name, items := [] }
  | loaded {reader : Reader P} {bytes : Bytes} {document : Document P} {value : Nat}
      (minted : mint engine.nextPlaylistId = some value)
      (read : reader.document bytes = some document)
      (room : engine.nextItemId + document.items.length < 2 ^ 64) :
      Adds engine (.fromBytes reader bytes)
        { id := ⟨value⟩, name := document.name
          items := numbered engine.nextItemId document.items }

theorem Changes.id_eq {engine : Engine P} {action : Action P} {stored changed : Playlist P}
    {next : Nat} (changes : engine.Changes action stored changed next) : changed.id = stored.id := by
  cases changes <;> rfl

/-- What an operation does to the stored playlists and to the counters of their ids. -/
inductive Effect (engine : Engine P) (action : Action P) (later : Engine P) : Prop
  | kept (playlists : later.playlists = engine.playlists)
      (nextPlaylistId : later.nextPlaylistId = engine.nextPlaylistId)
      (nextItemId : later.nextItemId = engine.nextItemId)
      (reported : engine.mutates action = none)
  | changed {index : Nat} {stored changed : Playlist P}
      (found : engine.playlistIndex stored.id = some index)
      (there : engine.playlists[index]? = some stored)
      (changes : engine.Changes action stored changed later.nextItemId)
      (playlists : later.playlists = engine.playlists.set index changed)
      (nextPlaylistId : later.nextPlaylistId = engine.nextPlaylistId)
      (reported : engine.mutates action = if acknowledges action then none else some stored.id)
  | added {added : Playlist P} (adds : engine.Adds action added)
      (playlists : later.playlists = engine.playlists ++ [added])
      (nextPlaylistId : later.nextPlaylistId = added.id.value)
      (nextItemId : later.nextItemId = engine.nextItemId + added.items.length)
      (reported : engine.mutates action = none)
  | erased {index : Nat} {id : PlaylistId} (found : engine.playlistIndex id = some index)
      (playlists : later.playlists = engine.playlists.eraseIdx index)
      (nextPlaylistId : later.nextPlaylistId = engine.nextPlaylistId)
      (nextItemId : later.nextItemId = engine.nextItemId)
      (reported : engine.mutates action = none)

theorem Effect.of_change {engine later : Engine P} {action : Action P} {id : PlaylistId}
    {index : Nat} {stored : Playlist P} {change : Playlist P → Playlist P}
    (found : engine.playlistIndex id = some index)
    (there : engine.playlists[index]? = some stored)
    (playlists : later.playlists = engine.playlists.modify index change)
    (nextPlaylistId : later.nextPlaylistId = engine.nextPlaylistId)
    (changes : engine.Changes action stored (change stored) later.nextItemId)
    (reported : engine.mutates action = if acknowledges action then none else some id) :
    engine.Effect action later := by
  obtain ⟨stored', there', named, -⟩ := playlistIndex_eq_some found
  rw [there] at there'
  cases there'
  subst named
  refine .changed found there changes ?_ nextPlaylistId reported
  obtain ⟨within, rfl⟩ := List.getElem?_eq_some_iff.mp there
  rw [playlists, List.modify_eq_set_getElem?, List.getElem?_eq_getElem within]
  rfl

theorem numbered_length (last : Nat) (specs : List (ItemSpec P)) :
    (numbered last specs).length = specs.length := by
  have ids := congrArg List.length (numbered_ids last specs)
  simpa using ids

theorem effect_stop {engine : Engine P} {action : Action P}
    (reported : engine.mutates action = none) : engine.Effect action engine.stop := by
  unfold stop
  cases engine.cursor with
  | none => exact .kept rfl rfl rfl reported
  | some cursor =>
      simp only
      split
      · unfold removePlaylist
        split
        · exact .kept rfl rfl rfl reported
        · rename_i index found
          exact .erased found rfl rfl rfl reported
      · exact .kept rfl rfl rfl reported

theorem effect_markRevisionSaved {engine : Engine P} {action : Action P} {id : PlaylistId}
    {revision : Nat} (reported : engine.mutates action = none)
    (acknowledges : acknowledges action = true)
    (changes : ∀ stored, engine.playlist id = some stored → revision ≤ stored.contentRevision →
      engine.Changes action stored
        { stored with lastSavedRevision := max stored.lastSavedRevision revision }
        engine.nextItemId) :
    engine.Effect action (engine.markRevisionSaved id revision).1 := by
  unfold markRevisionSaved
  cases looked : engine.playlistIndex id with
  | none => exact .kept rfl rfl rfl reported
  | some index =>
      obtain ⟨stored, there, named, found⟩ := playlistIndex_eq_some looked
      simp only [there, Option.any_some, decide_eq_true_eq]
      split
      · exact .kept rfl rfl rfl reported
      · rename_i within
        refine .of_change looked there rfl rfl (changes stored found (Nat.le_of_not_lt within)) ?_
        rw [reported, acknowledges, if_pos rfl]

theorem effect_create (engine : Engine P) (name : Option String) :
    engine.Effect (.create name) (engine.create name).1 := by
  simp only [create]
  split
  · exact .kept rfl rfl rfl rfl
  · rename_i value minted
    exact .added (.created minted) rfl rfl rfl rfl

theorem effect_delete (engine : Engine P) (id : PlaylistId) :
    engine.Effect (.delete id) (engine.delete id).1 := by
  simp only [delete]
  split
  · exact .kept rfl rfl rfl rfl
  · rename_i index found
    exact .erased found rfl rfl rfl rfl

theorem effect_rename (engine : Engine P) (id : PlaylistId) (name : Option String) :
    engine.Effect (.rename id name) (engine.rename id name).1 := by
  have report : engine.mutates (.rename id name) =
    if (engine.rename id name).2 then some id else none := rfl
  unfold rename at report ⊢
  cases looked : engine.playlistIndex id with
  | none => exact .kept rfl rfl rfl (by simp [report, looked])
  | some index =>
      obtain ⟨stored, there, named, -⟩ := playlistIndex_eq_some looked
      subst named
      simp only [looked, there, Option.any_some, beq_iff_eq] at report ⊢
      split
      · rename_i same
        exact .kept rfl rfl rfl (by simp [report, same])
      · rename_i differs
        refine .of_change looked there rfl rfl (.renamed differs) ?_
        simp [report, differs, acknowledges]

theorem effect_touch (engine : Engine P) (id : PlaylistId) :
    engine.Effect (.touchStructurePreservingDirty id)
      (engine.touchStructurePreservingDirty id).1 := by
  have report : engine.mutates (.touchStructurePreservingDirty id) =
    if (engine.touchStructurePreservingDirty id).2 then some id else none := rfl
  unfold touchStructurePreservingDirty at report ⊢
  cases looked : engine.playlistIndex id with
  | none => exact .kept rfl rfl rfl (by simp [report, looked])
  | some index =>
      obtain ⟨stored, there, named, -⟩ := playlistIndex_eq_some looked
      subst named
      simp only [looked] at report ⊢
      refine .of_change looked there rfl rfl ?_ (by simp [report, acknowledges])
      by_cases dirty : stored.isDirty = true
      · rw [if_pos dirty]
        exact .dirtied dirty
      · rw [if_neg dirty]
        exact .cleaned (Bool.eq_false_iff.mpr dirty)

theorem effect_append (engine : Engine P) (id : PlaylistId) (spec : ItemSpec P) :
    engine.Effect (.append id spec) (engine.append id spec).1 := by
  have report : engine.mutates (.append id spec) =
    if (engine.append id spec).2.isSome then some id else none := rfl
  unfold append at report ⊢
  split
  · rename_i index value looked minted
    obtain ⟨stored, there, named, -⟩ := playlistIndex_eq_some looked
    subst named
    refine .of_change looked there rfl rfl (.appended minted) ?_
    simp [report, looked, minted, acknowledges]
  · rename_i neither
    refine .kept rfl rfl rfl (report.trans ?_)
    split
    · exact absurd ‹_› (neither _ _ ‹_›)
    · rfl

theorem effect_editItem (engine : Engine P) (id : PlaylistId) (item : ItemId)
    (edit : Item P → Item P) :
    engine.Effect (.editItem id item edit) (engine.editItem id item edit).1 := by
  have report : engine.mutates (.editItem id item edit) =
    if (engine.editItem id item edit).2 then some id else none := rfl
  unfold editItem at report ⊢
  cases located : engine.locate id item with
  | none => exact .kept rfl rfl rfl (by simp [report, located])
  | some place =>
      obtain ⟨playlistIndex, itemIndex⟩ := place
      obtain ⟨looked, stored, there, found, inside⟩ := locate_eq_some located
      obtain rfl := playlist_id found
      refine .of_change looked there rfl rfl (.edited inside) ?_
      simp [report, located, acknowledges]

theorem effect_removeItem (engine : Engine P) (id : PlaylistId) (item : ItemId) :
    engine.Effect (.removeItem id item) (engine.removeItem id item).1 := by
  have report : engine.mutates (.removeItem id item) =
    if (engine.removeItem id item).2 then some id else none := rfl
  unfold removeItem at report ⊢
  cases located : engine.locate id item with
  | none => exact .kept rfl rfl rfl (by simp [report, located])
  | some place =>
      obtain ⟨playlistIndex, itemIndex⟩ := place
      obtain ⟨looked, stored, there, found, inside⟩ := locate_eq_some located
      obtain rfl := playlist_id found
      refine .of_change looked there rfl rfl (.removed inside) ?_
      simp [report, located, acknowledges]

theorem effect_moveItem (engine : Engine P) (id : PlaylistId) (item : ItemId)
    (after : Option ItemId) :
    engine.Effect (.moveItem id item after) (engine.moveItem id item after).1 := by
  have report : engine.mutates (.moveItem id item after) =
    if (engine.moveItem id item after).2 then some id else none := rfl
  unfold moveItem at report ⊢
  by_cases itself : after = some item
  · simp only [itself, if_true] at report ⊢
    exact .kept rfl rfl rfl (by simpa using report)
  · simp only [itself, if_false] at report ⊢
    cases looked : engine.playlistIndex id with
    | none => exact .kept rfl rfl rfl (by simp [report, looked])
    | some index =>
        obtain ⟨stored, there, named, -⟩ := playlistIndex_eq_some looked
        subst named
        simp only [looked, there, Option.bind_some] at report ⊢
        cases moved : stored.destination item after with
        | none => exact .kept rfl rfl rfl (by simp [report, moved])
        | some place =>
            obtain ⟨source, target⟩ := place
            refine .of_change looked there rfl rfl (.moved moved) ?_
            simp [report, moved, acknowledges]

theorem effect_markSaved (engine : Engine P) (id : PlaylistId) :
    engine.Effect (.markSaved id) (engine.markSaved id).1 := by
  simp only [markSaved]
  split
  · exact .kept rfl rfl rfl rfl
  · rename_i stored looked
    refine effect_markRevisionSaved rfl rfl fun stored' found _ => ?_
    rw [looked] at found
    cases found
    rw [← playlist_id looked]
    exact .savedAll

theorem effect_fromBytes (engine : Engine P) (reader : Reader P) (bytes : Bytes) :
    engine.Effect (.fromBytes reader bytes) (engine.fromBytes reader bytes).1 := by
  simp only [fromBytes]
  split
  · exact .kept rfl rfl rfl rfl
  · split
    · exact .kept rfl rfl rfl rfl
    · split
      · exact .kept rfl rfl rfl rfl
      · rename_i document read
        split
        · exact .kept rfl rfl rfl rfl
        · rename_i value minted
          split
          · rename_i room
            refine .added (.loaded minted read room) rfl rfl ?_ rfl
            exact congrArg _ (numbered_length _ _).symm
          · exact .kept rfl rfl rfl rfl

theorem effect_start (engine : Engine P) (id : PlaylistId) (source : Option ItemId) :
    engine.Effect (.start id source) (engine.start id source).1 := by
  have stopped : engine.Effect (.start id source) engine.stop := effect_stop rfl
  simp only [start]
  split
  · exact stopped
  · split
    · exact stopped
    · split
      · exact stopped
      · cases stopped with
        | kept playlists nextPlaylistId nextItemId _ =>
            exact .kept playlists nextPlaylistId nextItemId rfl
        | changed _ _ changes _ _ _ => cases changes
        | added adds _ _ _ _ => cases adds
        | erased found playlists nextPlaylistId nextItemId _ =>
            exact .erased found playlists nextPlaylistId nextItemId rfl

theorem effect_poll (engine : Engine P) : engine.Effect .poll engine.poll.1 := by
  simp only [poll]
  split
  · exact .kept rfl rfl rfl rfl
  · split
    · exact effect_stop rfl
    · split <;> exact .kept rfl rfl rfl rfl

theorem effect_onFailed (engine : Engine P) : engine.Effect .onFailed engine.onFailed := by
  simp only [onFailed]
  split
  · exact .kept rfl rfl rfl rfl
  · split
    · exact .kept rfl rfl rfl rfl
    · split
      · exact .kept rfl rfl rfl rfl
      · split
        · exact effect_stop rfl
        · exact .kept rfl rfl rfl rfl

/-- **What an operation does to the stored playlists.** -/
theorem effect_apply (engine : Engine P) (action : Action P) :
    engine.Effect action (engine.apply action) := by
  cases action with
  | create name => exact engine.effect_create name
  | delete id => exact engine.effect_delete id
  | rename id name => exact engine.effect_rename id name
  | touchStructurePreservingDirty id => exact engine.effect_touch id
  | append id spec => exact engine.effect_append id spec
  | editItem id item edit => exact engine.effect_editItem id item edit
  | removeItem id item => exact engine.effect_removeItem id item
  | moveItem id item after => exact engine.effect_moveItem id item after
  | markSaved id => exact engine.effect_markSaved id
  | markRevisionSaved id revision =>
      refine effect_markRevisionSaved rfl rfl fun stored found within => ?_
      rw [← playlist_id found]
      exact .saved within
  | fromBytes reader bytes => exact engine.effect_fromBytes reader bytes
  | start id source => exact engine.effect_start id source
  | stop => exact effect_stop rfl
  | setMode mode => exact .kept rfl rfl rfl rfl
  | poll => exact engine.effect_poll
  | onFinished | next => exact .kept rfl rfl rfl rfl
  | onFailed => exact engine.effect_onFailed
  | previous =>
      simp only [apply, previous]
      split <;> exact .kept rfl rfl rfl rfl

/-! ## Looking the playlists up afterwards -/

/-- Playlists have distinct ids, which were handed out. -/
structure Filed (engine : Engine P) : Prop where
  distinct : (engine.playlists.map Playlist.id).Nodup
  bound : ∀ stored ∈ engine.playlists, stored.id.value ≤ engine.nextPlaylistId

theorem Adds.id_eq {engine : Engine P} {action : Action P} {added : Playlist P}
    (adds : engine.Adds action added) : added.id.value = engine.nextPlaylistId + 1 := by
  cases adds with
  | created minted => exact mint_eq_some minted
  | loaded minted _ _ => exact mint_eq_some minted

theorem Effect.filed {engine later : Engine P} {action : Action P}
    (effect : engine.Effect action later) (filed : engine.Filed) : later.Filed := by
  cases effect with
  | kept playlists nextPlaylistId _ _ =>
      refine ⟨?_, ?_⟩
      · rw [playlists]
        exact filed.distinct
      · rw [playlists, nextPlaylistId]
        exact filed.bound
  | changed _ there changes playlists nextPlaylistId _ =>
      obtain ⟨within, rfl⟩ := List.getElem?_eq_some_iff.mp there
      refine ⟨?_, fun stored member => ?_⟩
      · rw [playlists, List.map_set, changes.id_eq, ← List.map_set, List.set_getElem_self]
        exact filed.distinct
      · rw [playlists] at member
        rw [nextPlaylistId]
        rcases List.mem_or_eq_of_mem_set member with old | rfl
        · exact filed.bound stored old
        · rw [changes.id_eq]
          exact filed.bound _ (List.getElem_mem within)
  | added adds playlists nextPlaylistId _ _ =>
      have next := adds.id_eq
      refine ⟨?_, fun stored member => ?_⟩
      · rw [playlists, List.map_append, List.map_singleton]
        refine filed.distinct.append (List.nodup_singleton _) fun id old new => ?_
        obtain ⟨stored, member, rfl⟩ := List.mem_map.mp old
        have bound := filed.bound stored member
        rw [List.mem_singleton.mp new, next] at bound
        exact Nat.not_succ_le_self _ bound
      · rw [playlists, List.mem_append, List.mem_singleton] at member
        rw [nextPlaylistId]
        rcases member with old | rfl
        · exact Nat.le_trans (filed.bound stored old) (by omega)
        · exact Nat.le_refl _
  | @erased index _ _ playlists nextPlaylistId _ _ =>
      have fewer := List.eraseIdx_sublist engine.playlists index
      rw [← playlists] at fewer
      refine ⟨filed.distinct.sublist (fewer.map _), fun stored member => ?_⟩
      rw [nextPlaylistId]
      exact filed.bound stored (fewer.subset member)

theorem Filed.playlist_eq_some {engine : Engine P} (filed : engine.Filed) {id : PlaylistId}
    {stored : Playlist P} :
    engine.playlist id = some stored ↔ stored ∈ engine.playlists ∧ stored.id = id := by
  constructor
  · intro found
    exact ⟨List.mem_of_find?_eq_some found, playlist_id found⟩
  · rintro ⟨member, rfl⟩
    cases found : engine.playlist stored.id with
    | none => simpa using List.find?_eq_none.mp found stored member
    | some first =>
        have same := List.inj_on_of_nodup_map filed.distinct
          (List.mem_of_find?_eq_some found) member (playlist_id found)
        rw [same]

theorem Effect.of_mutates {engine later : Engine P} {action : Action P}
    (effect : engine.Effect action later) {id : PlaylistId}
    (reported : engine.mutates action = some id) :
    ∃ stored ∈ engine.playlists, stored.id = id := by
  cases effect with
  | kept _ _ _ quiet | added _ _ _ _ quiet | erased _ _ _ _ quiet =>
      rw [quiet] at reported
      cases reported
  | changed _ there _ _ _ mutated =>
      rw [mutated] at reported
      split at reported
      · cases reported
      · exact ⟨_, List.mem_of_getElem? there, Option.some.inj reported⟩

/-- Where a playlist that is stored afterwards comes from. -/
inductive Origin (engine : Engine P) (action : Action P) (later : Engine P) (id : PlaylistId)
    (stored : Playlist P) : Prop
  | kept (found : engine.playlist id = some stored) (reported : engine.mutates action ≠ some id)
  | changed {old : Playlist P} (found : engine.playlist id = some old)
      (changes : engine.Changes action old stored later.nextItemId)
      (reported : engine.mutates action = if acknowledges action then none else some id)
  | added (adds : engine.Adds action stored) (beyond : engine.nextPlaylistId < id.value)
      (nextItemId : later.nextItemId = engine.nextItemId + stored.items.length)
      (reported : engine.mutates action = none)

theorem Effect.origin {engine later : Engine P} {action : Action P}
    (effect : engine.Effect action later) (filed : engine.Filed) {id : PlaylistId}
    {stored : Playlist P} (found : later.playlist id = some stored) :
    engine.Origin action later id stored := by
  have still := effect.filed filed
  obtain ⟨member, rfl⟩ := still.playlist_eq_some.mp found
  cases effect with
  | kept playlists _ _ reported =>
      rw [playlists] at member
      exact .kept (filed.playlist_eq_some.mpr ⟨member, rfl⟩) (by simp [reported])
  | @changed index old changed _ there changes playlists _ reported =>
      obtain ⟨within, rfl⟩ := List.getElem?_eq_some_iff.mp there
      have was : engine.playlist engine.playlists[index].id = some engine.playlists[index] :=
        filed.playlist_eq_some.mpr ⟨List.getElem_mem within, rfl⟩
      by_cases same : stored.id = engine.playlists[index].id
      · have itself : stored = changed := by
          have there' : changed ∈ later.playlists := playlists ▸ List.mem_set within changed
          exact List.inj_on_of_nodup_map still.distinct member there'
            (same.trans changes.id_eq.symm)
        subst itself
        rw [same]
        exact .changed was changes reported
      · rw [playlists] at member
        rcases List.mem_or_eq_of_mem_set member with old | rfl
        · refine .kept (filed.playlist_eq_some.mpr ⟨old, rfl⟩) ?_
          rw [reported]
          split
          · exact fun none => by cases none
          · exact fun other => same (Option.some.inj other).symm
        · exact absurd changes.id_eq same
  | added adds playlists _ nextItemId reported =>
      rw [playlists, List.mem_append, List.mem_singleton] at member
      rcases member with old | rfl
      · exact .kept (filed.playlist_eq_some.mpr ⟨old, rfl⟩) (by simp [reported])
      · exact .added adds (by rw [adds.id_eq]; exact Nat.lt_succ_self _) nextItemId reported
  | erased _ playlists _ _ reported =>
      rw [playlists] at member
      exact .kept (filed.playlist_eq_some.mpr ⟨List.mem_of_mem_eraseIdx member, rfl⟩)
        (by simp [reported])

theorem filed_apply {engine : Engine P} (action : Action P) (filed : engine.Filed) :
    (engine.apply action).Filed :=
  (effect_apply engine action).filed filed

theorem Reaches.filed {guard : Engine P → Action P → Prop} {engine : Engine P}
    (run : Reaches guard engine) : engine.Filed :=
  Runs.Moves.invariant _
    (fun _ _ _ _ stepped filed => by
      cases stepped
      exact filed_apply _ filed)
    run ⟨.nil, fun _ member => nomatch member⟩

/-- Counters never go back. -/
theorem Effect.counters {engine later : Engine P} {action : Action P}
    (effect : engine.Effect action later) :
    engine.nextPlaylistId ≤ later.nextPlaylistId ∧ engine.nextItemId ≤ later.nextItemId := by
  cases effect with
  | kept _ nextPlaylistId nextItemId _ | erased _ _ nextPlaylistId nextItemId _ =>
      rw [nextPlaylistId, nextItemId]
      exact ⟨Nat.le_refl _, Nat.le_refl _⟩
  | changed _ _ changes _ nextPlaylistId _ =>
      rw [nextPlaylistId]
      refine ⟨Nat.le_refl _, ?_⟩
      generalize later.nextItemId = next at changes
      cases changes with
      | appended minted =>
          rw [mint_eq_some minted]
          exact Nat.le_succ _
      | _ => exact Nat.le_refl _
  | added adds _ nextPlaylistId nextItemId _ =>
      rw [nextPlaylistId, nextItemId, adds.id_eq]
      exact ⟨Nat.le_succ _, Nat.le_add_right _ _⟩

end Engine

end Retrovert.Playlists
