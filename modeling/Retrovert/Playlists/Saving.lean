import Retrovert.Playlists.Storage

/-!
# Saves and their acknowledgements

A save is started from what a playlist holds by then, and acknowledged under the
revision that was serialized, in the meantime overtaken by mutations or by other
saves. A playlist that is not dirty holds what its latest acknowledged save holds.

An archive is the engine with the saves that were taken from it. It also records what
each playlist held when it appeared, and how often it was mutated since.
-/

set_option autoImplicit false

namespace Retrovert.Playlists

/-- A name and items in order. -/
abbrev Contents (P : Type) : Type := Option String × List (Item P)

/-- A save: the playlist, the revision that was serialized, and what it held. -/
structure Save (P : Type) where
  playlist : PlaylistId
  revision : Nat
  contents : Contents P

def Playlist.save {P : Type} (playlist : Playlist P) : Save P :=
  ⟨playlist.id, playlist.contentRevision, playlist.contents⟩

structure Archive (P : Type) where
  engine : Engine P := {}
  started : List (Save P) := []
  acknowledged : List (Save P) := []
  origin : PlaylistId → Option (Contents P) := fun _ => none
  mutations : PlaylistId → Nat := fun _ => 0

namespace Archive

variable {P : Type}

inductive Event (P : Type) where
  | call (action : Action P)
  | serialize (playlist : PlaylistId)
  | acknowledge (save : Nat)

/-- The archive after a call that acknowledges nothing. -/
def call (archive : Archive P) (action : Action P) : Archive P :=
  let later := archive.engine.apply action
  { archive with
    engine := later
    origin := fun id =>
      if (archive.engine.playlist id).isSome then archive.origin id
      else (later.playlist id).map Playlist.contents
    mutations := fun id =>
      if archive.engine.mutates action = some id then archive.mutations id + 1
      else archive.mutations id }

/-- The archive after an acknowledgement of a save, which counts if the engine takes it. -/
def acknowledge (archive : Archive P) (save : Save P) (marked : Engine P × Bool) : Archive P :=
  { archive with
    engine := marked.1
    acknowledged := archive.acknowledged ++ if marked.2 then [save] else [] }

/-- One event. The revision of any save that was started is acknowledged at any time and
any number of times. With `markSaved` a save is started and acknowledged at once. -/
def step (archive : Archive P) : Event P → Option (Archive P)
  | .call (.markRevisionSaved _ _) => none
  | .call (.markSaved id) =>
      (archive.engine.playlist id).map fun stored =>
        archive.acknowledge stored.save (archive.engine.markSaved id)
  | .call action => some (archive.call action)
  | .serialize id =>
      (archive.engine.playlist id).map fun stored =>
        { archive with started := archive.started ++ [stored.save] }
  | .acknowledge save =>
      (archive.started[save]?).map fun save =>
        archive.acknowledge save (archive.engine.markRevisionSaved save.playlist save.revision)

/-- The archives that runs of a new engine lead to. -/
def Reaches (archive : Archive P) : Prop := Runs.Moves step Runs.unguarded {} archive

/-- The acknowledged save of a playlist with the largest revision. -/
def Latest (archive : Archive P) (id : PlaylistId) (save : Save P) : Prop :=
  save ∈ archive.acknowledged ∧ save.playlist = id ∧
    ∀ other ∈ archive.acknowledged, other.playlist = id → other.revision ≤ save.revision

/-! ## Revisions -/

/-- The revision after a number of mutations. -/
def revisionAfter (mutations : Nat) : Nat := min mutations (2 ^ 64 - 1)

theorem bump_revisionAfter (mutations : Nat) :
    bump (revisionAfter mutations) = revisionAfter (mutations + 1) := by
  unfold bump revisionAfter
  generalize 2 ^ 64 - 1 = limit
  omega

theorem revisionAfter_le_bump (mutations : Nat) :
    revisionAfter mutations ≤ bump (revisionAfter mutations) := by
  unfold bump revisionAfter
  generalize 2 ^ 64 - 1 = limit
  omega

theorem revisionAfter_of_lt {mutations : Nat} (few : mutations < 2 ^ 64) :
    revisionAfter mutations = mutations :=
  Nat.min_eq_left (Nat.le_sub_one_of_lt few)

theorem bump_mono {revision later : Nat} (earlier : revision ≤ later) :
    bump revision ≤ bump later := by
  unfold bump
  generalize 2 ^ 64 - 1 = limit
  omega

/-! ## What a playlist held -/

/-- The saves of a playlist agree with what it held at each revision. From the latest
acknowledged save to the revision that counts as saved, it held the same. -/
structure Chronicle (archive : Archive P) (stored : Playlist P) (past : Nat → Contents P) :
    Prop where
  first : archive.origin stored.id = some (past 0)
  now : past stored.contentRevision = stored.contents
  started : ∀ save ∈ archive.started, save.playlist = stored.id →
    save.revision ≤ stored.contentRevision ∧ save.contents = past save.revision
  acknowledged : ∀ save ∈ archive.acknowledged, save.playlist = stored.id →
    save.revision ≤ stored.lastSavedRevision ∧ save.contents = past save.revision
  settled : ∀ revision ≤ stored.lastSavedRevision,
    (∀ save ∈ archive.acknowledged, save.playlist = stored.id → save.revision ≤ revision) →
      past revision = past stored.lastSavedRevision

/-- How the revisions of a playlist move with a mutation. -/
theorem changes_revisions {engine : Engine P} {action : Action P} {old changed : Playlist P}
    {next : Nat} (changes : engine.Changes action old changed next)
    (mutation : Engine.acknowledges action = false) :
    changed.contentRevision = bump old.contentRevision ∧
      (changed.structureRevision = old.structureRevision ∨
        changed.structureRevision = bump old.structureRevision) ∧
      (changed.lastSavedRevision = old.lastSavedRevision ∨
        old.isDirty = false ∧ changed.contents = old.contents ∧
          changed.lastSavedRevision = changed.contentRevision) := by
  cases changes with
  | renamed _ | dirtied _ | edited _ | removed _ | moved _ => exact ⟨rfl, .inr rfl, .inl rfl⟩
  | cleaned clean => exact ⟨rfl, .inr rfl, .inr ⟨clean, rfl, rfl⟩⟩
  | appended _ => exact ⟨rfl, .inl rfl, .inl rfl⟩
  | saved _ | savedAll => cases mutation

theorem Chronicle.mutate {archive later : Archive P} {stored changed : Playlist P}
    {past : Nat → Contents P} (chronicle : archive.Chronicle stored past)
    (origin : later.origin stored.id = archive.origin stored.id)
    (started : later.started = archive.started)
    (acknowledged : later.acknowledged = archive.acknowledged)
    (named : changed.id = stored.id)
    (next : changed.contentRevision = stored.contentRevision + 1)
    (within : stored.lastSavedRevision ≤ stored.contentRevision)
    (last : changed.lastSavedRevision = stored.lastSavedRevision ∨
      stored.isDirty = false ∧ changed.contents = stored.contents ∧
        changed.lastSavedRevision = changed.contentRevision) :
    ∃ past, later.Chronicle changed past := by
  let later_past : Nat → Contents P := Function.update past changed.contentRevision changed.contents
  have before : ∀ revision ≤ stored.contentRevision, later_past revision = past revision :=
    fun revision earlier => Function.update_of_ne (by omega) _ _
  have now : later_past changed.contentRevision = changed.contents := Function.update_self ..
  refine ⟨later_past, ?_, now, ?_, ?_, ?_⟩
  · rw [named, origin, chronicle.first, before 0 (Nat.zero_le _)]
  · intro save member same
    rw [started] at member
    rw [named] at same
    obtain ⟨earlier, contents⟩ := chronicle.started save member same
    exact ⟨by omega, by rw [contents, before _ earlier]⟩
  · intro save member same
    rw [acknowledged] at member
    rw [named] at same
    obtain ⟨earlier, contents⟩ := chronicle.acknowledged save member same
    refine ⟨?_, by rw [contents, before _ (Nat.le_trans earlier within)]⟩
    rcases last with same | ⟨-, -, same⟩ <;> omega
  · intro revision earlier above
    rw [acknowledged, named] at above
    rcases last with same | ⟨clean, contents, same⟩
    · rw [same] at earlier ⊢
      rw [before _ (Nat.le_trans earlier within), before _ within]
      exact chronicle.settled revision earlier above
    · -- The playlist was clean and holds what it held.
      have upToDate : stored.contentRevision = stored.lastSavedRevision := by
        simpa [Playlist.isDirty] using clean
      rw [same] at earlier ⊢
      rcases Nat.eq_or_lt_of_le earlier with rfl | sooner
      · rfl
      · rw [now, contents, ← chronicle.now, before revision (by omega), upToDate]
        exact chronicle.settled revision (by omega) above

/-- A save is acknowledged that agrees with what the playlist held. -/
theorem Chronicle.acknowledge {archive later : Archive P} {stored : Playlist P} {save : Save P}
    {past : Nat → Contents P} (chronicle : archive.Chronicle stored past)
    (origin : later.origin stored.id = archive.origin stored.id)
    (started : later.started = archive.started)
    (acknowledged : later.acknowledged = archive.acknowledged ++ [save])
    (own : save.playlist = stored.id) (contents : save.contents = past save.revision) :
    later.Chronicle
      { stored with lastSavedRevision := max stored.lastSavedRevision save.revision } past := by
  refine ⟨origin.trans chronicle.first, chronicle.now, ?_, ?_, ?_⟩
  · rw [started]
    exact chronicle.started
  · intro other member same
    rw [acknowledged, List.mem_append, List.mem_singleton] at member
    rcases member with old | rfl
    · obtain ⟨earlier, contents⟩ := chronicle.acknowledged other old same
      exact ⟨Nat.le_trans earlier (Nat.le_max_left _ _), contents⟩
    · exact ⟨Nat.le_max_right _ _, contents⟩
  · intro revision earlier above
    rw [acknowledged] at above
    have reached := above save (by simp) own
    simp only at earlier ⊢
    rcases Nat.le_total stored.lastSavedRevision save.revision with newer | late
    · rw [Nat.max_eq_right newer] at earlier ⊢
      rw [Nat.le_antisymm earlier reached]
    · rw [Nat.max_eq_left late] at earlier ⊢
      exact chronicle.settled revision earlier fun other member =>
        above other (List.mem_append_left _ member)

/-- What happens to other playlists, and a save that is started of this one. -/
theorem Chronicle.keep {archive later : Archive P} {stored : Playlist P}
    {past : Nat → Contents P} (chronicle : archive.Chronicle stored past)
    (origin : later.origin stored.id = archive.origin stored.id)
    (started : ∀ save ∈ later.started, save.playlist = stored.id →
      save ∈ archive.started ∨ save = stored.save)
    (acknowledged : ∀ save, save.playlist = stored.id →
      (save ∈ later.acknowledged ↔ save ∈ archive.acknowledged)) :
    later.Chronicle stored past := by
  refine ⟨origin.trans chronicle.first, chronicle.now, ?_, ?_, ?_⟩
  · intro save member same
    rcases started save member same with old | rfl
    · exact chronicle.started save old same
    · exact ⟨Nat.le_refl _, chronicle.now.symm⟩
  · intro save member same
    exact chronicle.acknowledged save ((acknowledged save same).mp member) same
  · intro revision earlier above
    refine chronicle.settled revision earlier fun save member same => ?_
    exact above save ((acknowledged save same).mpr member) same

/-! ## Every playlist -/

/-- What runs keep of one stored playlist. -/
structure Tracked (archive : Archive P) (stored : Playlist P) : Prop where
  structured : stored.structureRevision ≤ stored.contentRevision
  saved : stored.lastSavedRevision ≤ stored.contentRevision
  counted : stored.contentRevision = revisionAfter (archive.mutations stored.id)
  chronicle : archive.mutations stored.id < 2 ^ 64 → ∃ past, archive.Chronicle stored past

/-- What runs keep of an archive. -/
structure Dated (archive : Archive P) : Prop where
  filed : archive.engine.Filed
  issued : ∀ save ∈ archive.started ++ archive.acknowledged,
    save.playlist.value ≤ archive.engine.nextPlaylistId
  unused : ∀ id : PlaylistId, archive.engine.nextPlaylistId < id.value → archive.mutations id = 0
  tracked : ∀ id stored, archive.engine.playlist id = some stored → archive.Tracked stored

theorem dated_new : Dated ({} : Archive P) where
  filed := ⟨.nil, fun _ member => nomatch member⟩
  issued _ member := nomatch member
  unused _ _ := rfl
  tracked _ _ found := nomatch found

theorem Tracked.keep {archive later : Archive P} {stored : Playlist P}
    (tracked : archive.Tracked stored)
    (origin : later.origin stored.id = archive.origin stored.id)
    (mutations : later.mutations stored.id = archive.mutations stored.id)
    (started : ∀ save ∈ later.started, save.playlist = stored.id →
      save ∈ archive.started ∨ save = stored.save)
    (acknowledged : ∀ save, save.playlist = stored.id →
      (save ∈ later.acknowledged ↔ save ∈ archive.acknowledged)) : later.Tracked stored := by
  refine ⟨tracked.structured, tracked.saved, mutations ▸ tracked.counted, fun few => ?_⟩
  obtain ⟨past, chronicle⟩ := tracked.chronicle (mutations ▸ few)
  exact ⟨past, chronicle.keep origin started acknowledged⟩

theorem Tracked.mutate {archive later : Archive P} {old changed : Playlist P} {action : Action P}
    {next : Nat} (tracked : archive.Tracked old)
    (changes : archive.engine.Changes action old changed next)
    (quiet : Engine.acknowledges action = false)
    (origin : later.origin old.id = archive.origin old.id)
    (mutations : later.mutations old.id = archive.mutations old.id + 1)
    (started : later.started = archive.started)
    (acknowledged : later.acknowledged = archive.acknowledged) : later.Tracked changed := by
  obtain ⟨content, structureRevision, last⟩ := changes_revisions changes quiet
  have grown : old.contentRevision ≤ bump old.contentRevision := by
    rw [tracked.counted]
    exact revisionAfter_le_bump _
  refine ⟨?_, ?_, ?_, fun few => ?_⟩
  · rw [content]
    rcases structureRevision with same | bumped
    · rw [same]
      exact Nat.le_trans tracked.structured grown
    · rw [bumped]
      exact bump_mono tracked.structured
  · rcases last with same | ⟨-, -, same⟩
    · rw [same, content]
      exact Nat.le_trans tracked.saved grown
    · exact Nat.le_of_eq same
  · rw [content, changes.id_eq, mutations, tracked.counted, bump_revisionAfter]
  · rw [changes.id_eq, mutations] at few
    have earlier : archive.mutations old.id < 2 ^ 64 := Nat.lt_of_succ_lt few
    obtain ⟨past, chronicle⟩ := tracked.chronicle earlier
    refine chronicle.mutate origin started acknowledged changes.id_eq ?_ tracked.saved last
    rw [content, tracked.counted, bump_revisionAfter, revisionAfter_of_lt few,
      revisionAfter_of_lt earlier]

/-- A playlist appears that no save is of. -/
theorem Tracked.add {archive later : Archive P} {added : Playlist P} {action : Action P}
    (adds : archive.engine.Adds action added)
    (origin : later.origin added.id = some added.contents)
    (mutations : later.mutations added.id = 0)
    (unsaved : ∀ save ∈ later.started ++ later.acknowledged, save.playlist ≠ added.id) :
    later.Tracked added := by
  have new : added.contentRevision = 0 ∧ added.structureRevision = 0 ∧
      added.lastSavedRevision = 0 := by
    cases adds <;> exact ⟨rfl, rfl, rfl⟩
  obtain ⟨content, structured, saved⟩ := new
  refine ⟨by omega, by omega, ?_, fun _ => ⟨fun _ => added.contents, origin, rfl, ?_, ?_, ?_⟩⟩
  · rw [content, mutations]
    rfl
  · exact fun save member same => absurd same (unsaved save (List.mem_append_left _ member))
  · exact fun save member same => absurd same (unsaved save (List.mem_append_right _ member))
  · exact fun _ _ _ => rfl

theorem Dated.playlist_absent {archive : Archive P} (dated : archive.Dated) {id : PlaylistId}
    (beyond : archive.engine.nextPlaylistId < id.value) : archive.engine.playlist id = none := by
  cases found : archive.engine.playlist id with
  | none => rfl
  | some stored =>
      have bound := dated.filed.bound stored (List.mem_of_find?_eq_some found)
      rw [Engine.playlist_id found] at bound
      exact absurd beyond (Nat.not_lt_of_le bound)

theorem Dated.call {archive : Archive P} (dated : archive.Dated) {action : Action P}
    (quiet : Engine.acknowledges action = false) : (archive.call action).Dated := by
  have effect := Engine.effect_apply archive.engine action
  have monotone := effect.counters.1
  refine ⟨effect.filed dated.filed, ?_, ?_, ?_⟩
  · exact fun save member => Nat.le_trans (dated.issued save member) monotone
  · intro id beyond
    have earlier := Nat.lt_of_le_of_lt monotone beyond
    rw [← dated.unused id earlier]
    refine if_neg fun reported => ?_
    obtain ⟨stored, member, rfl⟩ := effect.of_mutates reported
    exact absurd earlier (Nat.not_lt_of_le (dated.filed.bound stored member))
  · intro id stored found
    obtain rfl := Engine.playlist_id found
    cases effect.origin dated.filed found with
    | kept same reported =>
        refine (dated.tracked _ _ same).keep (if_pos ?_) (if_neg reported) ?_ fun _ _ => Iff.rfl
        · rw [same]
          rfl
        · exact fun _ member _ => .inl member
    | changed same changes reported =>
        rw [quiet] at reported
        have tracked := dated.tracked _ _ same
        have named := changes.id_eq
        refine tracked.mutate changes quiet (if_pos ?_) (if_pos ?_) rfl rfl
        · rw [← named, same]
          rfl
        · rw [← named]
          exact reported
    | added adds beyond _ reported =>
        have absent := dated.playlist_absent beyond
        refine .add adds ((if_neg (by simp [absent])).trans ?_) ?_ ?_
        · exact congrArg (Option.map Playlist.contents) found
        · rw [← dated.unused _ beyond]
          exact if_neg (by simp [reported])
        · intro save member same
          have issued := dated.issued save member
          rw [same] at issued
          exact absurd beyond (Nat.not_lt_of_le issued)

/-- What an acknowledged revision leaves, unless the engine refuses it. -/
theorem markRevisionSaved_eq (engine : Engine P) (id : PlaylistId) (revision : Nat) :
    engine.markRevisionSaved id revision = (engine, false) ∨
      ∃ stored, engine.playlist id = some stored ∧ revision ≤ stored.contentRevision ∧
        (engine.markRevisionSaved id revision).2 = true ∧
        (engine.markRevisionSaved id revision).1.nextPlaylistId = engine.nextPlaylistId ∧
        ∀ other, (engine.markRevisionSaved id revision).1.playlist other =
          if other = id then
            some { stored with lastSavedRevision := max stored.lastSavedRevision revision }
          else engine.playlist other := by
  unfold Engine.markRevisionSaved
  cases looked : engine.playlistIndex id with
  | none => exact .inl rfl
  | some index =>
      obtain ⟨stored, there, -, found⟩ := Engine.playlistIndex_eq_some looked
      simp only [there, Option.any_some, decide_eq_true_eq]
      split
      · exact .inl rfl
      · rename_i within
        refine .inr ⟨stored, found, Nat.le_of_not_lt within, rfl, rfl, fun other => ?_⟩
        have lookup := Engine.playlist_modify engine
          (fun playlist =>
            { playlist with lastSavedRevision := max playlist.lastSavedRevision revision })
          (fun _ => rfl) looked other
        refine lookup.trans ?_
        by_cases same : other = id
        · rw [if_pos same, if_pos same, same, found, Option.map_some]
        · rw [if_neg same, if_neg same]

theorem Tracked.acknowledge {archive later : Archive P} {stored : Playlist P} {save : Save P}
    (tracked : archive.Tracked stored) (own : save.playlist = stored.id)
    (known : save ∈ archive.started ∨ save = stored.save)
    (within : save.revision ≤ stored.contentRevision)
    (origin : later.origin stored.id = archive.origin stored.id)
    (mutations : later.mutations stored.id = archive.mutations stored.id)
    (started : later.started = archive.started)
    (acknowledged : later.acknowledged = archive.acknowledged ++ [save]) :
    later.Tracked
      { stored with lastSavedRevision := max stored.lastSavedRevision save.revision } := by
  refine ⟨tracked.structured, Nat.max_le.mpr ⟨tracked.saved, within⟩, ?_, fun few => ?_⟩
  · exact tracked.counted.trans (congrArg _ mutations.symm)
  · obtain ⟨past, chronicle⟩ := tracked.chronicle (mutations ▸ few)
    refine ⟨past, chronicle.acknowledge origin started acknowledged own ?_⟩
    rcases known with member | rfl
    · exact (chronicle.started save member own).2
    · exact chronicle.now.symm

theorem Dated.acknowledge {archive : Archive P} (dated : archive.Dated) {save : Save P}
    (known : save ∈ archive.started ∨
      ∃ stored, archive.engine.playlist save.playlist = some stored ∧ save = stored.save) :
    (archive.acknowledge save
      (archive.engine.markRevisionSaved save.playlist save.revision)).Dated := by
  have filed := (Engine.effect_apply archive.engine
    (.markRevisionSaved save.playlist save.revision)).filed dated.filed
  rcases markRevisionSaved_eq archive.engine save.playlist save.revision with
    refused | ⟨stored, found, within, marked, counters, lookup⟩
  · rw [refused]
    refine ⟨dated.filed, ?_, dated.unused, fun id stored found => ?_⟩
    · simpa [Archive.acknowledge] using dated.issued
    · refine (dated.tracked id stored found).keep rfl rfl ?_ fun _ _ => ?_
      · exact fun _ member _ => .inl member
      · simp [Archive.acknowledge]
  · have named := Engine.playlist_id found
    have added : (archive.acknowledge save
        (archive.engine.markRevisionSaved save.playlist save.revision)).acknowledged =
          archive.acknowledged ++ [save] := by
      simp [Archive.acknowledge, marked]
    refine ⟨filed, fun other member => ?_, fun id beyond => ?_, fun id later found' => ?_⟩
    · rw [added, ← List.append_assoc, List.mem_append, List.mem_singleton] at member
      refine Nat.le_trans ?_ (Nat.le_of_eq counters.symm)
      rcases member with old | rfl
      · exact dated.issued other old
      · rw [← named]
        exact dated.filed.bound stored (List.mem_of_find?_eq_some found)
    · exact dated.unused id (Nat.lt_of_le_of_lt (Nat.le_of_eq counters.symm) beyond)
    · have looked := (lookup id).symm.trans found'
      split at looked
      · cases looked
        refine (dated.tracked _ _ found).acknowledge named.symm ?_ within rfl rfl rfl added
        refine known.imp_right fun ⟨current, current', same⟩ => ?_
        rw [found] at current'
        cases current'
        exact same
      · rename_i apart
        refine (dated.tracked id later looked).keep rfl rfl ?_ fun other same => ?_
        · exact fun _ member _ => .inl member
        · rw [added, List.mem_append, List.mem_singleton]
          refine or_iff_left fun itself => apart ?_
          rw [← Engine.playlist_id looked, ← same, itself]

theorem Dated.serialize {archive : Archive P} (dated : archive.Dated) {stored : Playlist P}
    (found : archive.engine.playlist stored.id = some stored) :
    Dated { archive with started := archive.started ++ [stored.save] } := by
  refine ⟨dated.filed, fun save member => ?_, dated.unused, fun id other looked => ?_⟩
  · simp only [List.mem_append, List.mem_singleton] at member
    rcases member with (old | rfl) | old
    · exact dated.issued save (List.mem_append_left _ old)
    · exact dated.filed.bound stored (List.mem_of_find?_eq_some found)
    · exact dated.issued save (List.mem_append_right _ old)
  · refine (dated.tracked id other looked).keep rfl rfl (fun save member same => ?_)
      fun _ _ => Iff.rfl
    rcases List.mem_append.mp member with old | new
    · exact .inl old
    · cases List.mem_singleton.mp new
      rw [← Engine.playlist_id looked, ← same] at looked
      cases found.symm.trans looked
      exact .inr rfl

theorem dated_step {archive after : Archive P} {event : Event P}
    (stepped : archive.step event = some after) (dated : archive.Dated) : after.Dated := by
  cases event with
  | call action =>
      cases action with
      | markRevisionSaved id revision => cases stepped
      | markSaved id =>
          obtain ⟨stored, found, rfl⟩ := Option.map_eq_some_iff.mp stepped
          obtain rfl := Engine.playlist_id found
          have marked : archive.engine.markSaved stored.id =
              archive.engine.markRevisionSaved stored.id stored.contentRevision := by
            rw [Engine.markSaved, found]
          rw [marked]
          exact dated.acknowledge (.inr ⟨stored, found, rfl⟩)
      | _ =>
          cases stepped
          exact dated.call rfl
  | serialize id =>
      obtain ⟨stored, found, rfl⟩ := Option.map_eq_some_iff.mp stepped
      obtain rfl := Engine.playlist_id found
      exact dated.serialize found
  | acknowledge save =>
      obtain ⟨save, there, rfl⟩ := Option.map_eq_some_iff.mp stepped
      exact dated.acknowledge (.inl (List.mem_of_getElem? there))

theorem Reaches.dated {archive : Archive P} (run : archive.Reaches) : archive.Dated :=
  Runs.Moves.invariant _ (fun _ _ _ _ stepped dated => dated_step stepped dated) run dated_new

/-- **Dirty tracking is sound.** In every run of fewer than 2^64 mutations of a playlist,
with saves acknowledged in any order: while it is not dirty, it holds what it held when
it appeared, or what the latest of its acknowledged saves holds once there is one. The
other revisions never pass the one of its contents. -/
theorem dirty_tracking_is_sound {archive : Archive P} (run : archive.Reaches) {id : PlaylistId}
    {stored : Playlist P} (found : archive.engine.playlist id = some stored)
    (few : archive.mutations id < 2 ^ 64) :
    (stored.isDirty = false →
      ((∀ save ∈ archive.acknowledged, save.playlist ≠ id) →
        archive.origin id = some stored.contents) ∧
      ∀ save, archive.Latest id save → stored.contents = save.contents) ∧
    stored.lastSavedRevision ≤ stored.contentRevision ∧
    stored.structureRevision ≤ stored.contentRevision := by
  have tracked := run.dated.tracked id stored found
  obtain rfl := Engine.playlist_id found
  obtain ⟨past, chronicle⟩ := tracked.chronicle few
  refine ⟨fun clean => ?_, tracked.saved, tracked.structured⟩
  have upToDate : stored.contentRevision = stored.lastSavedRevision := by
    simpa [Playlist.isDirty] using clean
  refine ⟨fun unsaved => ?_, fun save latest => ?_⟩
  · rw [chronicle.first, ← chronicle.now, upToDate]
    refine congrArg some (chronicle.settled 0 (Nat.zero_le _) fun save member same => ?_)
    exact absurd same (unsaved save member)
  · obtain ⟨member, own, largest⟩ := latest
    obtain ⟨within, contents⟩ := chronicle.acknowledged save member own
    rw [contents, ← chronicle.now, upToDate]
    exact (chronicle.settled save.revision within largest).symm

/-- Two saves of a playlist, the newer of which is acknowledged first. -/
def crossing : List (Event Unit) :=
  [.call (.create none), .call (.append ⟨1⟩ ⟨"a", 0, "", "", 0, ()⟩), .serialize ⟨1⟩,
    .call (.rename ⟨1⟩ (some "list")), .serialize ⟨1⟩, .acknowledge 1, .acknowledge 0]

def crossed : Archive Unit := (Runs.script step Runs.unguarded {} crossing).getD {}

theorem dirty_tracking_is_sound_crossing : ∃ stored save,
    crossed.engine.playlist ⟨1⟩ = some stored ∧ crossed.Latest ⟨1⟩ save ∧ save.revision = 2 ∧
      stored.contents = save.contents := by
  have ran : Runs.script step Runs.unguarded ({} : Archive Unit) crossing = some crossed := rfl
  have latest : crossed.Latest ⟨1⟩
      ⟨⟨1⟩, 2, (some "list", [⟨⟨"a", 0, "", "", 0, ()⟩, ⟨1⟩⟩])⟩ := by
    refine ⟨.head _, rfl, fun other member _ => ?_⟩
    cases member with
    | head => decide
    | tail _ older =>
        cases older with
        | head => decide
        | tail _ none => cases none
  have found : crossed.engine.playlist ⟨1⟩ = some ⟨⟨1⟩, some "list",
    [⟨⟨"a", 0, "", "", 0, ()⟩, ⟨1⟩⟩], 2, 1, 2⟩ := rfl
  have sound := dirty_tracking_is_sound (.of_script ran) found (by decide)
  exact ⟨_, _, found, latest, rfl, (sound.1 rfl).2 _ latest⟩

end Archive

end Retrovert.Playlists
