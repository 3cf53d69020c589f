import Retrovert.Playlists.Storage

/-!
# Loading a playlist

Loading changes nothing until everything has been decoded and the ids are known to
suffice. What it adds then is what creating the playlist and appending its items one
by one adds (`build`), up to the revisions, which count the operations.
-/

set_option autoImplicit false

namespace Retrovert.Playlists

variable {P : Type}

/-- What was written is read back. -/
structure Writer.RoundTrips (writer : Writer P) (reader : Reader P) : Prop where
  version : ∀ version document bytes, writer.bytes version document = some bytes →
    reader.version bytes = some version
  document : ∀ version document bytes, writer.bytes version document = some bytes →
    reader.document bytes = some document

def Playlist.unrevised (playlist : Playlist P) : Playlist P :=
  { playlist with contentRevision := 0, structureRevision := 0, lastSavedRevision := 0 }

namespace Engine

/-- The engine without the counts of its operations. -/
def unrevised (engine : Engine P) : Engine P :=
  { engine with revision := 0, playlists := engine.playlists.map Playlist.unrevised }

/-- Append items one by one, and list the ids that they get. -/
def appendAll (engine : Engine P) (playlist : PlaylistId) :
    List (ItemSpec P) → Option (Engine P × List ItemId)
  | [] => some (engine, [])
  | spec :: rest =>
      match engine.append playlist spec with
      | (_, none) => none
      | (appended, some id) =>
          (appended.appendAll playlist rest).map fun (built, ids) => (built, id :: ids)

/-- Create a playlist and append its items one by one. -/
def build (engine : Engine P) (document : Document P) :
    Option (Engine P × PlaylistId × List ItemId) :=
  match engine.create document.name with
  | (_, none) => none
  | (created, some id) =>
      (created.appendAll id document.items).map fun (built, items) => (built, id, items)

/-- The playlist ids that an operation hands out. -/
def playlistIdsFrom (engine : Engine P) : Action P → List PlaylistId
  | .create name => (engine.create name).2.toList
  | .fromBytes reader bytes => (engine.fromBytes reader bytes).2.toOption.toList
  | _ => []

/-- The item ids that an operation hands out. -/
def itemIdsFrom (engine : Engine P) : Action P → List ItemId
  | .append playlist spec => (engine.append playlist spec).2.toList
  | .fromBytes reader bytes =>
      (engine.fromBytes reader bytes).2.toOption.toList.flatMap fun id =>
        ((engine.fromBytes reader bytes).1.playlist id).toList.flatMap fun stored =>
          stored.items.map Item.id
  | _ => []

/-! ## Appending to the last playlist -/

/-- The playlist at the end of the list is found when it is the only one with its id. -/
theorem playlistIndex_last {engine : Engine P} {before : List (Playlist P)} {last : Playlist P}
    (playlists : engine.playlists = before ++ [last])
    (fresh : ∀ stored ∈ before, stored.id ≠ last.id) :
    engine.playlistIndex last.id = some before.length := by
  rw [playlistIndex, playlists, List.findIdx?_append]
  have missing : before.findIdx? (·.id == last.id) = none := by
    rw [List.findIdx?_eq_none_iff]
    exact fun stored member => beq_false_of_ne (fresh stored member)
  rw [missing]
  simp

theorem append_last {engine : Engine P} {before : List (Playlist P)} {last : Playlist P}
    (playlists : engine.playlists = before ++ [last])
    (fresh : ∀ stored ∈ before, stored.id ≠ last.id) {value : Nat}
    (minted : mint engine.nextItemId = some value) (spec : ItemSpec P) :
    engine.append last.id spec =
      ({ engine with
          nextItemId := value
          revision := bump engine.revision
          playlists := before ++
            [{ last.touchContent with items := last.items ++ [⟨spec, ⟨value⟩⟩] }] },
        some ⟨value⟩) := by
  unfold append
  rw [playlistIndex_last playlists fresh, minted]
  simp [modify, touch, playlists, List.modify_eq_set_getElem?]

/-- Items appended one by one to the last playlist are numbered in order. -/
theorem appendAll_last (specs : List (ItemSpec P)) {engine : Engine P}
    {before : List (Playlist P)} {last : Playlist P}
    (playlists : engine.playlists = before ++ [last])
    (fresh : ∀ stored ∈ before, stored.id ≠ last.id)
    (room : engine.nextItemId + specs.length < 2 ^ 64) :
    ∃ revision contentRevision,
      engine.appendAll last.id specs =
        some ({ engine with
            nextItemId := engine.nextItemId + specs.length
            revision
            playlists := before ++
              [{ last with
                  contentRevision
                  items := last.items ++ numbered engine.nextItemId specs }] },
          (numbered engine.nextItemId specs).map Item.id) := by
  induction specs generalizing engine last with
  | nil =>
      refine ⟨engine.revision, last.contentRevision, ?_⟩
      simp [appendAll, numbered, ← playlists]
  | cons spec rest ih =>
      rw [List.length_cons] at room
      have minted : mint engine.nextItemId = some (engine.nextItemId + 1) := if_pos (by omega)
      have appended := append_last playlists fresh minted spec
      let grown : Playlist P := { last.touchContent with
        items := last.items ++ [⟨spec, ⟨engine.nextItemId + 1⟩⟩] }
      let next : Engine P := { engine with
        nextItemId := engine.nextItemId + 1
        revision := bump engine.revision
        playlists := before ++ [grown] }
      have there : next.playlists = before ++ [grown] := rfl
      have left : next.nextItemId + rest.length < 2 ^ 64 := by
        simp only [next]
        omega
      obtain ⟨revision, contentRevision, all⟩ := ih there fresh left
      have same : appendAll next last.id rest = appendAll next grown.id rest := rfl
      refine ⟨revision, contentRevision, ?_⟩
      rw [appendAll, appended]
      simp only
      rw [same, all]
      simp [next, grown, numbered, Playlist.touchContent, Nat.add_assoc, Nat.add_comm 1]

/-! ## Loading -/

/-- What loading reads before it changes anything, and what it adds. -/
theorem fromBytes_cases (reader : Reader P) (engine : Engine P) (bytes : Bytes) :
    (∃ error, engine.fromBytes reader bytes = (engine, .error error)) ∨
      ∃ document, reader.version bytes = some formatVersion ∧
        reader.document bytes = some document ∧ engine.nextPlaylistId + 1 < 2 ^ 64 ∧
        engine.nextItemId + document.items.length < 2 ^ 64 ∧
        engine.fromBytes reader bytes =
          ({ engine with
              nextPlaylistId := engine.nextPlaylistId + 1
              nextItemId := engine.nextItemId + document.items.length
              revision := bump engine.revision
              playlists := engine.playlists ++
                [{ id := ⟨engine.nextPlaylistId + 1⟩, name := document.name
                   items := numbered engine.nextItemId document.items }] },
            .ok ⟨engine.nextPlaylistId + 1⟩) := by
  unfold fromBytes
  split
  · exact .inl ⟨_, rfl⟩
  · rename_i version versioned
    split
    · exact .inl ⟨_, rfl⟩
    · rename_i same
      obtain rfl : version = formatVersion := by simpa using same
      split
      · exact .inl ⟨_, rfl⟩
      · rename_i document read
        split
        · exact .inl ⟨_, rfl⟩
        · rename_i value minted
          split
          · rename_i room
            obtain rfl := mint_eq_some minted
            have next : engine.nextPlaylistId + 1 < 2 ^ 64 := by
              by_contra exhausted
              rw [mint, if_neg exhausted] at minted
              cases minted
            exact .inr ⟨document, versioned, read, next, room, rfl⟩
          · exact .inl ⟨_, rfl⟩

/-- What creating a playlist and appending its items leads to. -/
theorem build_eq {engine : Engine P} (filed : engine.Filed) (document : Document P)
    (next : engine.nextPlaylistId + 1 < 2 ^ 64)
    (room : engine.nextItemId + document.items.length < 2 ^ 64) :
    ∃ revision contentRevision,
      engine.build document =
        some ({ engine with
            nextPlaylistId := engine.nextPlaylistId + 1
            nextItemId := engine.nextItemId + document.items.length
            revision
            playlists := engine.playlists ++
              [{ id := ⟨engine.nextPlaylistId + 1⟩, name := document.name
                 items := numbered engine.nextItemId document.items, contentRevision }] },
          ⟨engine.nextPlaylistId + 1⟩, (numbered engine.nextItemId document.items).map Item.id) := by
  have minted : mint engine.nextPlaylistId = some (engine.nextPlaylistId + 1) := if_pos next
  let last : Playlist P := { id := ⟨engine.nextPlaylistId + 1⟩, name := document.name, items := [] }
  let created : Engine P := { engine with
    nextPlaylistId := engine.nextPlaylistId + 1
    revision := bump engine.revision
    playlists := engine.playlists ++ [last] }
  have creates : engine.create document.name = (created, some last.id) := by
    rw [create, minted]
    rfl
  have there : created.playlists = engine.playlists ++ [last] := rfl
  have fresh : ∀ stored ∈ engine.playlists, stored.id ≠ last.id := by
    intro stored member same
    have bound := filed.bound stored member
    rw [same] at bound
    exact Nat.not_succ_le_self _ bound
  obtain ⟨revision, contentRevision, all⟩ := appendAll_last document.items there fresh room
  refine ⟨revision, contentRevision, ?_⟩
  rw [build, creates]
  simp only
  rw [all]
  simp [created, last]

/-- What was written is in the same format, and reads as it was. -/
theorem toBytes_eq_ok {writer : Writer P} {reader : Reader P} (roundTrips : writer.RoundTrips reader)
    {engine : Engine P} {id : PlaylistId} {bytes : Bytes}
    (written : engine.toBytes writer id = .ok bytes) :
    ∃ stored, engine.playlist id = some stored ∧ reader.version bytes = some formatVersion ∧
      reader.document bytes =
        some { name := stored.name, items := stored.items.map Item.toItemSpec } := by
  unfold toBytes at written
  cases found : engine.playlist id with
  | none => simp [found] at written
  | some stored =>
      simp only [found] at written
      split at written
      · cases written
      · rename_i made
        cases written
        exact ⟨stored, rfl, roundTrips.version _ _ _ made, roundTrips.document _ _ _ made⟩

theorem numbered_specs (last : Nat) (specs : List (ItemSpec P)) :
    (numbered last specs).map Item.toItemSpec = specs := by
  induction specs generalizing last with
  | nil => rfl
  | cons spec rest ih => rw [numbered, List.map_cons, ih]

/-- The playlist that loading adds. -/
theorem loaded_playlist {engine : Engine P} (filed : engine.Filed) {reader : Reader P}
    {bytes : Bytes} {id : PlaylistId} (loaded : (engine.fromBytes reader bytes).2 = .ok id) :
    ∃ document, reader.version bytes = some formatVersion ∧
      reader.document bytes = some document ∧ id.value = engine.nextPlaylistId + 1 ∧
      (engine.fromBytes reader bytes).1.nextPlaylistId = id.value ∧
      (engine.fromBytes reader bytes).1.nextItemId =
        engine.nextItemId + document.items.length ∧
      (engine.fromBytes reader bytes).1.playlist id =
        some { id, name := document.name, items := numbered engine.nextItemId document.items } := by
  rcases fromBytes_cases reader engine bytes with
    ⟨error, refused⟩ | ⟨document, version, read, next, room, added⟩
  · rw [refused] at loaded
    cases loaded
  · have effect := (effect_apply engine (.fromBytes reader bytes)).filed filed
    rw [added] at loaded
    cases loaded
    refine ⟨document, version, read, rfl, by rw [added], by rw [added],
      effect.playlist_eq_some.mpr ?_⟩
    refine ⟨?_, rfl⟩
    rw [apply, added]
    exact List.mem_append_right _ (List.mem_singleton.mpr rfl)

theorem fromBytes_of_room {reader : Reader P} {engine : Engine P} {bytes : Bytes}
    {document : Document P} (version : reader.version bytes = some formatVersion)
    (read : reader.document bytes = some document)
    (next : engine.nextPlaylistId + 1 < 2 ^ 64)
    (room : engine.nextItemId + document.items.length < 2 ^ 64) :
    (engine.fromBytes reader bytes).2 = .ok ⟨engine.nextPlaylistId + 1⟩ := by
  have minted : mint engine.nextPlaylistId = some (engine.nextPlaylistId + 1) := if_pos next
  unfold fromBytes
  simp only [version, read, minted, if_pos room]
  rfl

/-! ## Ids handed out -/

theorem numbered_bounds {last : Nat} {specs : List (ItemSpec P)} {id : ItemId}
    (member : id ∈ (numbered last specs).map Item.id) :
    last < id.value ∧ id.value ≤ last + specs.length := by
  rw [numbered_ids] at member
  obtain ⟨number, within, rfl⟩ := List.mem_map.mp member
  rw [List.mem_range'_1] at within
  simp only
  omega

theorem handedOut_le {engine : Engine P} (filed : engine.Filed) (action : Action P) :
    (∀ id ∈ engine.playlistIdsFrom action, id.value ≤ (engine.apply action).nextPlaylistId) ∧
      ∀ id ∈ engine.itemIdsFrom action, id.value ≤ (engine.apply action).nextItemId := by
  cases action with
  | create name =>
      refine ⟨fun id member => ?_, fun _ member => by cases member⟩
      simp only [playlistIdsFrom, Option.mem_toList, create] at member
      split at member
      · cases member
      · rename_i value minted
        cases member
        simp only [apply, create, minted]
        exact Nat.le_refl value
  | append playlist spec =>
      refine ⟨fun _ member => (by cases member), fun id member => ?_⟩
      simp only [itemIdsFrom, Option.mem_toList, append] at member
      split at member
      · rename_i index value looked minted
        cases member
        simp only [apply, append, looked, minted]
        exact Nat.le_refl value
      · cases member
  | fromBytes reader bytes =>
      cases loaded : (engine.fromBytes reader bytes).2 with
      | error _ =>
          refine ⟨fun id member => ?_, fun id member => ?_⟩
          · simp [playlistIdsFrom, loaded, Except.toOption] at member
          · simp [itemIdsFrom, loaded, Except.toOption] at member
      | ok id =>
          obtain ⟨document, -, -, -, next, nextItem, found⟩ := loaded_playlist filed loaded
          refine ⟨fun other member => ?_, fun other member => ?_⟩
          · simp only [playlistIdsFrom, loaded, Except.toOption, Option.toList_some,
              List.mem_singleton] at member
            exact Nat.le_of_eq (by rw [member, apply, next])
          · simp only [itemIdsFrom, loaded, Except.toOption, Option.toList_some,
              List.flatMap_singleton, found] at member
            rw [apply, nextItem]
            exact (numbered_bounds member).2
  | _ => exact ⟨fun _ member => (by cases member), fun _ member => by cases member⟩

theorem counters_le {first last : Engine P} (run : Runs.Moves step Runs.unguarded first last) :
    first.nextPlaylistId ≤ last.nextPlaylistId ∧ first.nextItemId ≤ last.nextItemId := by
  refine Runs.Moves.invariant (fun engine => first.nextPlaylistId ≤ engine.nextPlaylistId ∧
    first.nextItemId ≤ engine.nextItemId) (fun before action after _ stepped bounds => ?_) run
    ⟨Nat.le_refl _, Nat.le_refl _⟩
  cases stepped
  have counters := (effect_apply before action).counters
  exact ⟨Nat.le_trans bounds.1 counters.1, Nat.le_trans bounds.2 counters.2⟩

/-- **Loading is atomic and equals building.** Of a reachable engine, an error leaves it as
it was. Otherwise it is, up to revisions, the engine that creating the playlist and
appending its items leads to, with the same ids, which follow all that were handed out,
and the playlist is not dirty. What was written of a playlist loads, while ids last, as
the same name and items. -/
theorem loading_is_building (reader : Reader P) {engine : Engine P}
    (run : Reaches Runs.unguarded engine) (bytes : Bytes) :
    (∀ error, (engine.fromBytes reader bytes).2 = .error error →
      (engine.fromBytes reader bytes).1 = engine) ∧
    (∀ id, (engine.fromBytes reader bytes).2 = .ok id →
      ∃ document built items stored,
        reader.version bytes = some formatVersion ∧ reader.document bytes = some document ∧
        engine.build document = some (built, id, items) ∧
        (engine.fromBytes reader bytes).1.unrevised = built.unrevised ∧
        (engine.fromBytes reader bytes).1.playlist id = some stored ∧
        stored.items.map Item.id = items ∧ stored.isDirty = false ∧
        ∀ earlier action, Reaches Runs.unguarded earlier →
          Runs.Moves step Runs.unguarded (earlier.apply action) engine →
            (∀ old ∈ earlier.playlistIdsFrom action, old.value < id.value) ∧
            ∀ old ∈ earlier.itemIdsFrom action, ∀ item ∈ items, old.value < item.value) ∧
    ∀ (writer : Writer P) (source : Engine P) (id : PlaylistId) (stored : Playlist P),
      writer.RoundTrips reader → source.playlist id = some stored →
        source.toBytes writer id = .ok bytes →
          (engine.nextPlaylistId + 1 < 2 ^ 64 →
            engine.nextItemId + stored.items.length < 2 ^ 64 →
              ∃ copy, (engine.fromBytes reader bytes).2 = .ok copy) ∧
          ∀ copy, (engine.fromBytes reader bytes).2 = .ok copy →
            ∃ loaded, (engine.fromBytes reader bytes).1.playlist copy = some loaded ∧
              loaded.name = stored.name ∧
              loaded.items.map Item.toItemSpec = stored.items.map Item.toItemSpec := by
  refine ⟨fun error refused => ?_, fun id loaded => ?_, ?_⟩
  · rcases fromBytes_cases reader engine bytes with ⟨_, same⟩ | ⟨_, _, _, _, _, added⟩
    · rw [same]
    · rw [added] at refused
      cases refused
  · obtain ⟨document, version, read, named, -, -, found⟩ := loaded_playlist run.filed loaded
    rcases fromBytes_cases reader engine bytes with
      ⟨_, same⟩ | ⟨document', _, read', next, room, added⟩
    · rw [same] at loaded
      cases loaded
    · rw [read] at read'
      cases read'
      obtain ⟨revision, contentRevision, built⟩ := build_eq run.filed document next room
      have itself : id = ⟨engine.nextPlaylistId + 1⟩ := congrArg PlaylistId.mk named
      subst itself
      refine ⟨document, _, _, _, version, read, built, ?_, found, rfl, rfl, ?_⟩
      · rw [added]
        simp [unrevised, Playlist.unrevised]
      · intro earlier action reached later
        obtain ⟨playlists, items⟩ := handedOut_le reached.filed action
        obtain ⟨nextPlaylist, nextItem⟩ := counters_le later
        refine ⟨fun old member => ?_, fun old member item new => ?_⟩
        · exact Nat.lt_succ_of_le (Nat.le_trans (playlists old member) nextPlaylist)
        · exact Nat.lt_of_le_of_lt (Nat.le_trans (items old member) nextItem)
            (numbered_bounds new).1
  · intro writer source id stored roundTrips found written
    obtain ⟨stored', found', version, read⟩ := toBytes_eq_ok roundTrips written
    rw [found] at found'
    cases found'
    refine ⟨fun next room => ⟨_, fromBytes_of_room version read next (by simpa using room)⟩,
      fun copy loaded => ?_⟩
    obtain ⟨document, -, read', -, -, -, copied⟩ := loaded_playlist run.filed loaded
    rw [read] at read'
    cases read'
    exact ⟨_, copied, rfl, numbered_specs _ _⟩

/-- One item and how it is written, on its own in a playlist with a name. -/
def lonely : ItemSpec Unit := ⟨"a", 3, "A", "", 4200, ()⟩

def lonelyBytes : Bytes :=
  ("\x7b\n  \"version\": 2,\n  \"name\": \"list\",\n  \"items\": [\n    \x7b\n" ++
    "      \"identity\": \"a\",\n      \"subsong\": 3,\n      \"title\": \"A\",\n" ++
    "      \"artist\": \"\",\n      \"duration_ms\": 4200,\n      \"payload\": null\n" ++
    "    \x7d\n  ]\n\x7d").toUTF8.toList

def lonelyReader : Reader Unit where
  version bytes := if bytes = lonelyBytes then some formatVersion else none
  document bytes := if bytes = lonelyBytes then some ⟨some "list", [lonely]⟩ else none

def lonelyWriter : Writer Unit where
  bytes
    | 2, ⟨some "list", [⟨"a", 3, "A", "", 4200, ()⟩]⟩ => some lonelyBytes
    | _, _ => none

theorem lonely_roundTrips : lonelyWriter.RoundTrips lonelyReader := by
  refine ⟨fun version document bytes written => ?_, fun version document bytes written => ?_⟩
  · simp only [lonelyWriter] at written
    split at written
    · cases written
      exact if_pos rfl
    · cases written
  · simp only [lonelyWriter] at written
    split at written
    · cases written
      exact if_pos rfl
    · cases written

/-- A playlist is loaded from what is written of it. -/
theorem loading_is_building_lonely : ∃ engine : Engine Unit, ∃ copy loaded,
    engine.toBytes lonelyWriter ⟨1⟩ = .ok lonelyBytes ∧
      (engine.fromBytes lonelyReader lonelyBytes).1.playlist copy = some loaded ∧
      loaded.items.map Item.toItemSpec = [lonely] := by
  let created : Engine Unit := apply {} (.create (some "list"))
  let engine : Engine Unit := created.apply (.append ⟨1⟩ lonely)
  have start : Reaches Runs.unguarded created := moves_apply (.refl _) trivial
  have run : Reaches Runs.unguarded engine := moves_apply start trivial
  have written : engine.toBytes lonelyWriter ⟨1⟩ = .ok lonelyBytes := rfl
  obtain ⟨loads, reads⟩ := (loading_is_building lonelyReader run lonelyBytes).2.2 lonelyWriter
    engine ⟨1⟩ _ lonely_roundTrips rfl written
  obtain ⟨copy, loaded⟩ := loads (by decide) (by decide)
  obtain ⟨stored, found, -, items⟩ := reads copy loaded
  exact ⟨engine, copy, stored, written, found, items⟩

end Engine

end Retrovert.Playlists
