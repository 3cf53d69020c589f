import Retrovert.Playlists.Pending
import Retrovert.Playlists.Storage

/-!
# The ids of items

Ids are minted by counting up, so one that was handed out is never handed out again,
whatever became of its item. Between two mints an item stays what it is under its id,
at most edited in place.

An edit gets the whole item to write to, and so it can put another item there, id and
all: a copy of one that is stored elsewhere gives two items one id. The rest is about
runs in which no edit does this.
-/

set_option autoImplicit false

namespace Retrovert.Playlists

namespace Engine

variable {P : Type}

/-- An edit leaves the id of the item that it is given alone. -/
def KeepsOwnId (engine : Engine P) : Action P → Prop
  | .editItem playlist item edit =>
      ∀ element, engine.item playlist item = some element → (edit element).id = element.id
  | _ => True

theorem KeepsIds.keepsOwnId {engine : Engine P} {action : Action P}
    (keepsIds : engine.KeepsIds action) : engine.KeepsOwnId action := by
  cases action with
  | editItem playlist item edit => exact fun element _ => keepsIds element
  | _ => trivial

/-- What an operation does to the items under their ids. An item that is stored
afterwards is new under a new id, or it was stored under its id before, and an edit
of that id is all that can have changed it. An item is stored for as long as its
playlist is and it is not removed. -/
structure Lineage (engine : Engine P) (action : Action P) : Prop where
  descends : ∀ id stored, (engine.apply action).playlist id = some stored →
    ∀ item ∈ stored.items,
      engine.nextItemId < item.id.value ∧ item.id.value ≤ (engine.apply action).nextItemId ∨
        ∃ old, engine.item id item.id = some old ∧
          (item = old ∨ ∃ edit, action = .editItem id item.id edit ∧ item = edit old)
  survives : ∀ id item, (engine.item id item).isSome → action ≠ .removeItem id item →
    ((engine.apply action).playlist id).isSome → ((engine.apply action).item id item).isSome

/-- An id that was handed out by now is in use later only for the item that has it now. -/
def Remembers (engine later : Engine P) : Prop :=
  engine.nextItemId ≤ later.nextItemId ∧
    ∀ id stored, later.playlist id = some stored → ∀ item ∈ stored.items,
      item.id.value ≤ engine.nextItemId → (engine.item id item.id).isSome

/-! ## Looking items up -/

section Items

variable {stored : Playlist P} {item : ItemId}

theorem item_eq_getElem? (stored : Playlist P) (item : ItemId) :
    stored.item item = (stored.itemIndex item).bind (stored.items[·]?) :=
  List.find?_eq_bind_findIdx?_getElem?

theorem item_isSome : (stored.item item).isSome ↔ item ∈ stored.items.map Item.id := by
  simp [Playlist.item]

theorem item_of_mem (distinct : (stored.items.map Item.id).Nodup) {element : Item P}
    (member : element ∈ stored.items) : stored.item element.id = some element := by
  cases found : stored.item element.id with
  | none => simpa using List.find?_eq_none.mp found element member
  | some first =>
      have named : first.id = element.id := by simpa using List.find?_some found
      rw [List.inj_on_of_nodup_map distinct (List.mem_of_find?_eq_some found) member named]

end Items

/-- An edit is made of the item with its id and of no other. -/
theorem editItem_congr {engine : Engine P} {id : PlaylistId} {item : ItemId}
    {edit other : Item P → Item P}
    (same : ∀ element, engine.item id item = some element → edit element = other element) :
    engine.editItem id item edit = engine.editItem id item other := by
  unfold editItem
  cases located : engine.locate id item with
  | none => rfl
  | some place =>
      obtain ⟨playlistIndex, itemIndex⟩ := place
      obtain ⟨looked, stored, there, found, inside⟩ := locate_eq_some located
      obtain ⟨element, at_, -⟩ := itemIndex_eq_some inside
      have given : engine.item id item = some element := by
        rw [Engine.item, found, Option.bind_some, item_eq_getElem?, inside, Option.bind_some, at_]
      have edited : stored.items.modify itemIndex edit = stored.items.modify itemIndex other := by
        rw [List.modify_eq_set_getElem?, List.modify_eq_set_getElem?, at_]
        exact congrArg (stored.items.set itemIndex) (same element given)
      simp only [modify]
      rw [List.modify_eq_set_getElem?, List.modify_eq_set_getElem?, there]
      simp [edited]

theorem wellformed_apply_own {engine : Engine P} {action : Action P}
    (keepsOwnId : engine.KeepsOwnId action) (wellformed : engine.Wellformed) :
    (engine.apply action).Wellformed := by
  cases action with
  | editItem id item edit =>
      -- The same edit, made to keep the id of every item.
      let keeping : Item P → Item P := fun element => { edit element with id := element.id }
      have same : engine.editItem id item edit = engine.editItem id item keeping := by
        refine editItem_congr fun element given => ?_
        have kept := keepsOwnId element given
        simp only [keeping]
        rw [← kept]
      have keepsIds : engine.KeepsIds (.editItem id item keeping) := fun _ => rfl
      have applied := wellformed_apply keepsIds wellformed
      simp only [apply] at applied ⊢
      rw [same]
      exact applied
  | _ => exact wellformed_apply trivial wellformed

theorem Reaches.wellformed_own {engine : Engine P} (run : Reaches KeepsOwnId engine) :
    engine.Wellformed :=
  Runs.Moves.invariant _
    (fun _ _ _ keepsOwnId stepped wellformed => by
      cases stepped
      exact wellformed_apply_own keepsOwnId wellformed)
    run wellformed_new

/-! ## One operation -/

theorem Wellformed.item_of_mem {engine : Engine P} (wellformed : engine.Wellformed)
    {id : PlaylistId} {stored : Playlist P} (found : engine.playlist id = some stored)
    {element : Item P} (member : element ∈ stored.items) :
    engine.item id element.id = some element := by
  rw [Engine.item, found, Option.bind_some]
  exact Engine.item_of_mem (wellformed.distinct found) member

/-- What a change in place leaves is what was there, or newly appended, or edited. -/
theorem Changes.descends {engine : Engine P} {action : Action P} {old changed : Playlist P}
    {next : Nat} (changes : engine.Changes action old changed next) {item : Item P}
    (member : item ∈ changed.items) :
    item ∈ old.items ∨ engine.nextItemId < item.id.value ∧ item.id.value ≤ next ∨
      ∃ edit element, element ∈ old.items ∧ item = edit element ∧
        old.item element.id = some element ∧ action = .editItem old.id element.id edit := by
  cases changes with
  | renamed _ | dirtied _ | cleaned _ | saved _ | savedAll => exact .inl member
  | appended minted =>
      rcases List.mem_append.mp member with kept | new
      · exact .inl kept
      · cases List.mem_singleton.mp new
        rw [mint_eq_some minted]
        exact .inr (.inl ⟨Nat.lt_succ_self _, Nat.le_refl _⟩)
  | @edited _ id edit index found =>
      obtain ⟨element, there, named⟩ := itemIndex_eq_some found
      rw [List.modify_eq_set_getElem?, there] at member
      rcases List.mem_or_eq_of_mem_set member with kept | rfl
      · exact .inl kept
      · refine .inr (.inr ⟨edit, element, List.mem_of_getElem? there, rfl, ?_, by rw [named]⟩)
        rw [item_eq_getElem?, named, found, Option.bind_some, there]
  | removed _ => exact .inl (List.mem_of_mem_eraseIdx member)
  | moved _ => exact .inl ((subperm_relocated _ _ _).subset member)

/-- What was there is still there under its id, if it is not removed. -/
theorem Changes.survives {engine : Engine P} {action : Action P} {old changed : Playlist P}
    {next : Nat} (changes : engine.Changes action old changed next)
    (keepsOwnId : engine.KeepsOwnId action) (found : engine.playlist old.id = some old)
    {item : Item P} (member : item ∈ old.items) (kept : action ≠ .removeItem old.id item.id) :
    item.id ∈ changed.items.map Item.id := by
  have itself := List.mem_map_of_mem (f := Item.id) member
  cases changes with
  | renamed _ | dirtied _ | cleaned _ | saved _ | savedAll => exact itself
  | appended _ =>
      rw [List.map_append]
      exact List.mem_append_left _ itself
  | @edited _ id edit index inside =>
      have same : (old.items.modify index edit).map Item.id = old.items.map Item.id := by
        refine map_modify_at old.items index fun value at_ => keepsOwnId value ?_
        rw [Engine.item, found, Option.bind_some, item_eq_getElem?, inside, Option.bind_some, at_]
      rw [same]
      exact itself
  | @removed _ id index inside =>
      obtain ⟨element, there, named⟩ := itemIndex_eq_some inside
      obtain ⟨position, at_⟩ := List.mem_iff_getElem?.mp member
      refine List.mem_map_of_mem (List.mem_eraseIdx_iff_getElem?.mpr ⟨position, ?_, at_⟩)
      rintro rfl
      rw [there] at at_
      cases at_
      rw [named] at kept
      exact kept rfl
  | moved destination => exact List.mem_map_of_mem (mem_relocated (destination_eq_some destination).2 member)

/-- The items of a playlist that is added are under new ids. -/
theorem Adds.fresh {engine : Engine P} {action : Action P} {added : Playlist P}
    (adds : engine.Adds action added) {item : Item P} (member : item ∈ added.items) :
    engine.nextItemId < item.id.value ∧
      item.id.value ≤ engine.nextItemId + added.items.length := by
  cases adds with
  | created _ => cases member
  | @loaded _ _ document _ _ _ _ =>
      have numbers := List.mem_map_of_mem (f := Item.id) member
      rw [numbered_ids] at numbers
      obtain ⟨number, within, same⟩ := List.mem_map.mp numbers
      rw [List.mem_range'_1] at within
      rw [numbered_length, ← same]
      simp only
      omega

theorem lineage_apply {engine : Engine P} {action : Action P}
    (keepsOwnId : engine.KeepsOwnId action) (wellformed : engine.Wellformed)
    (filed : engine.Filed) : engine.Lineage action := by
  have effect := effect_apply engine action
  refine ⟨fun id stored found item member => ?_, fun id item before kept after => ?_⟩
  · cases effect.origin filed found with
    | kept same _ => exact .inr ⟨item, wellformed.item_of_mem same member, .inl rfl⟩
    | @changed old was changes _ =>
        rcases changes.descends member with same | fresh | ⟨edit, element, _, rfl, looked, rfl⟩
        · exact .inr ⟨item, wellformed.item_of_mem was same, .inl rfl⟩
        · exact .inl fresh
        · obtain rfl := playlist_id was
          have given : engine.item old.id element.id = some element := by
            rw [Engine.item, was, Option.bind_some, looked]
          rw [keepsOwnId element given]
          exact .inr ⟨element, given, .inr ⟨edit, rfl, rfl⟩⟩
    | added adds _ nextItemId _ =>
        rw [nextItemId]
        exact .inl (adds.fresh member)
  · obtain ⟨stored, found⟩ := Option.isSome_iff_exists.mp after
    obtain ⟨element, given⟩ := Option.isSome_iff_exists.mp before
    obtain ⟨old, was, inside⟩ := Option.bind_eq_some_iff.mp given
    have member := List.mem_of_find?_eq_some inside
    have named : element.id = item := by simpa using List.find?_some inside
    obtain rfl := playlist_id was
    subst named
    rw [Engine.item, found, Option.bind_some, item_isSome]
    cases effect.origin filed found with
    | kept same _ =>
        rw [was] at same
        cases same
        exact List.mem_map_of_mem member
    | changed was' changes _ =>
        rw [was] at was'
        cases was'
        exact changes.survives keepsOwnId was member kept
    | added _ beyond _ _ =>
        have bound := filed.bound old (List.mem_of_find?_eq_some was)
        exact absurd beyond (Nat.not_lt_of_le bound)

/-! ## Runs -/

theorem Remembers.step {first engine : Engine P} {action : Action P}
    (remembers : first.Remembers engine) (keepsOwnId : engine.KeepsOwnId action)
    (wellformed : engine.Wellformed) (filed : engine.Filed) :
    first.Remembers (engine.apply action) := by
  refine ⟨Nat.le_trans remembers.1 (effect_apply engine action).counters.2, ?_⟩
  intro id stored found item member old
  rcases (lineage_apply keepsOwnId wellformed filed).descends id stored found item member with
    ⟨beyond, -⟩ | ⟨earlier, was, -⟩
  · exact absurd (Nat.lt_of_le_of_lt remembers.1 beyond) (Nat.not_lt_of_le old)
  · obtain ⟨stored', found', inside⟩ := Option.bind_eq_some_iff.mp was
    have named : earlier.id = item.id := by simpa using List.find?_some inside
    rw [← named] at old ⊢
    exact remembers.2 id stored' found' earlier (List.mem_of_find?_eq_some inside) old

theorem Wellformed.remembers {engine later : Engine P} (wellformed : engine.Wellformed)
    (filed : engine.Filed) (run : Runs.Moves step KeepsOwnId engine later) :
    engine.Remembers later := by
  have both := Runs.Moves.invariant
    (fun later => (later.Wellformed ∧ later.Filed) ∧ engine.Remembers later)
    (fun before action after keepsOwnId stepped held => by
      obtain ⟨⟨wellformed, filed⟩, remembers⟩ := held
      cases stepped
      exact ⟨⟨wellformed_apply_own keepsOwnId wellformed, filed_apply action filed⟩,
        remembers.step keepsOwnId wellformed filed⟩) run
  refine (both ⟨⟨wellformed, filed⟩, Nat.le_refl _, fun id stored found item member _ => ?_⟩).2
  rw [wellformed.item_of_mem found member]
  rfl

/-- **Ids are stable.** In every run whose edits leave the ids of their items alone,
playlists and items have distinct ids up to their counters, and the playlist of the
cursor is stored. Every operation keeps the items under their ids, and no id is given
out twice. -/
theorem ids_are_stable {engine : Engine P} (run : Reaches KeepsOwnId engine) :
    engine.Wellformed ∧
      (∀ action, engine.KeepsOwnId action → engine.Lineage action) ∧
      ∀ later, Runs.Moves step KeepsOwnId engine later → engine.Remembers later :=
  ⟨run.wellformed_own, fun _ keepsOwnId => lineage_apply keepsOwnId run.wellformed_own run.filed,
    fun _ further => run.wellformed_own.remembers run.filed further⟩

/-- A new playlist of two items. -/
def pair : List (Action Unit) :=
  [.create none, .append ⟨1⟩ ⟨"a", 0, "", "", 0, ()⟩, .append ⟨1⟩ ⟨"b", 0, "", "", 0, ()⟩]

theorem pair_reaches : Reaches KeepsOwnId (pair.foldl Engine.apply {}) :=
  (reaches_of_applied pair (by simp [pair])).mono fun _ _ keepsIds => keepsIds.keepsOwnId

/-- The first of two items gets a title, and the second one is removed. -/
theorem ids_are_stable_of_pair : ∃ engine later : Engine Unit,
    engine.Wellformed ∧ engine.Remembers later ∧ (later.item ⟨1⟩ ⟨1⟩).map (·.title) = some "A" := by
  let entitle : Action Unit := .editItem ⟨1⟩ ⟨1⟩ fun item => { item with title := "A" }
  let remove : Action Unit := .removeItem ⟨1⟩ ⟨2⟩
  have titled : Runs.Moves step KeepsOwnId (pair.foldl Engine.apply {})
      ((pair.foldl Engine.apply {}).apply entitle) := moves_apply (.refl _) fun _ _ => rfl
  have removed : Runs.Moves step KeepsOwnId (pair.foldl Engine.apply {})
      (((pair.foldl Engine.apply {}).apply entitle).apply remove) := moves_apply titled trivial
  obtain ⟨wellformed, -, remembers⟩ := ids_are_stable pair_reaches
  exact ⟨_, _, wellformed, remembers _ removed, by decide⟩

/-- An edit puts a copy of the first of two items in the place of the second one. -/
theorem an_edit_doubles_an_id :
    ¬∀ engine : Engine Unit, Reaches Runs.unguarded engine → engine.Wellformed := by
  intro wellformed
  let copy : Action Unit := .editItem ⟨1⟩ ⟨2⟩ fun _ => ⟨⟨"a", 0, "", "", 0, ()⟩, ⟨1⟩⟩
  have run : Reaches Runs.unguarded ((pair.foldl Engine.apply {}).apply copy) :=
    moves_apply (pair_reaches.mono fun _ _ _ => trivial) trivial
  have distinct := (wellformed _ run).itemIds
  revert distinct
  decide

end Engine

end Retrovert.Playlists
