import Retrovert.Publish.Init

/-!
# Preparing a workspace

Before anything is signed the folders are made, the private keys are written, and what was
published is cleared if `init` is forced to. Whether this comes to its end, and what stands
where then, is said of what stood where before (`admits_preparation`).
-/

set_option autoImplicit false

namespace Retrovert.Publish

open Retrovert.Tuf Workspace

section

variable (ceremony : Ceremony)

/-- The folders of the key store, and those above them. -/
def storeFolders : List Place := [[.keys], onlineDir, offlineDir].flatMap List.inits

/-- The folders of the channel, and those above them. -/
def channelFolders : List Place := [metadataDir, targetsDir].flatMap List.inits

def folders : List Place := storeFolders ++ channelFolders

/-- No file stands where a folder goes, and no folder where a private key goes. -/
def Clear (keys : KeySet) (nodes : Place → Option Node) : Prop :=
  (∀ place ∈ folders, ∀ content, nodes place ≠ some (.file content)) ∧
    ∀ file ∈ keys.stored ceremony, nodes file.1 ≠ some .folder

/-- Whether something stands in a published directory. -/
def Published (place : Place) : Prop :=
  (metadataDir <+: place ∨ targetsDir <+: place) ∧ place ∉ folders

instance (place : Place) : Decidable (Published place) := inferInstanceAs (Decidable (_ ∧ _))

/-- The folders are there, the private keys are these, and nothing is published. -/
def Prepared (keys : KeySet) (nodes : Place → Option Node) : Prop :=
  (∀ place ∈ folders, nodes place = some .folder) ∧
    (∀ file ∈ keys.stored ceremony, nodes file.1 = some (.file file.2)) ∧
    ∀ place, Published place → nodes place = none

/-- What stands at each place after the preparation. -/
def prepared (keys : KeySet) (force : Bool) (nodes : Place → Option Node) (place : Place) :
    Option Node :=
  if place ∈ folders then some .folder
  else match (keys.stored ceremony).lookup place with
    | some content => some (.file content)
    | none => if force = true ∧ Published place then none else nodes place

/-- A private key lives in a folder of the key store, and nowhere else. -/
theorem keyPath_apart (role : RoleName) :
    keyPath role ≠ [] ∧ (keyPath role).dropLast ∈ storeFolders ∧ keyPath role ∉ storeFolders ∧
      keyPath role ∉ channelFolders ∧ ¬ metadataDir <+: keyPath role ∧
      ¬ targetsDir <+: keyPath role ∧ ∀ other, (keyPath role).dropLast ≠ keyPath other := by
  refine ⟨?_, ?_, ?_, ?_, ?_, ?_, fun other => ?_⟩
  all_goals cases role
  any_goals cases other
  all_goals decide

theorem storeFolders_apart :
    ∀ place ∈ storeFolders, ¬ metadataDir <+: place ∧ ¬ targetsDir <+: place := by
  decide

theorem KeySet.stored_keyPath {keys : KeySet} {file : Place × Bytes}
    (member : file ∈ keys.stored ceremony) : ∃ role, file.1 = keyPath role := by
  obtain ⟨role, -, made⟩ := List.mem_filterMap.mp member
  obtain ⟨key, -, rfl⟩ := Option.map_eq_some_iff.mp made
  exact ⟨role, rfl⟩

theorem KeySet.stored_nodup (keys : KeySet) : ((keys.stored ceremony).map Prod.fst).Nodup := by
  obtain ⟨root, targets, snapshot, timestamp⟩ := keys
  cases root <;> simp [stored, allRoles, get, RootKeys.toStore, keyPath]

theorem admits_clearing (force : Bool) (nodes : Place → Option Node) :
    (Tree.Admits nodes (clearing force) ↔
      (force = true → ∀ place ∈ channelFolders, ∀ content,
        nodes place ≠ some (.file content))) ∧
    Tree.effects nodes (clearing force) = fun other =>
      if force = true ∧ (metadataDir <+: other ∨ targetsDir <+: other) then none
      else nodes other := by
  cases force with
  | false => exact ⟨by simp [clearing, Tree.Admits], by simp [clearing, Tree.effects]⟩
  | true =>
      have apart : ∀ above ∈ targetsDir.inits, ¬ metadataDir <+: above := by decide
      refine ⟨?_, funext fun other => ?_⟩
      · simp only [clearing, Tree.Admits, Tree.Operation.Ready, Tree.Operation.effect, if_true,
          and_true, forall_const, channelFolders, List.flatMap_cons, List.flatMap_nil,
          List.append_nil, List.forall_mem_append]
        refine and_congr_right fun _ => forall₂_congr fun above member => ?_
        rw [if_neg (apart above member)]
      · simp only [clearing, Tree.effects, Tree.Operation.effect, true_and, if_true]
        by_cases targets : targetsDir <+: other <;> simp [targets]

theorem KeySet.lookup_stored {keys : KeySet} {place : Place}
    (elsewhere : ∀ role, place ≠ keyPath role) : (keys.stored ceremony).lookup place = none := by
  rw [List.lookup_eq_none_iff]
  intro file member
  obtain ⟨role, there⟩ := KeySet.stored_keyPath ceremony member
  exact bne_iff_ne.mpr (there ▸ elsewhere role)

theorem KeySet.keyPath_of_lookup {keys : KeySet} {place : Place} {content : Bytes}
    (found : (keys.stored ceremony).lookup place = some content) :
    ∃ role, place = keyPath role := by
  by_contra elsewhere
  rw [KeySet.lookup_stored ceremony (not_exists.mp elsewhere)] at found
  cases found

/-- What stands at each place once the private keys are written. -/
def keyed (keys : KeySet) (nodes : Place → Option Node) (place : Place) : Option Node :=
  (((keys.stored ceremony).lookup place).map .file).or
    (if place ∈ storeFolders then some .folder else nodes place)

/-- The folders of the channel are not places of the key store, but for what is above both. -/
theorem keyed_channel {keys : KeySet} {nodes : Place → Option Node} {place : Place}
    (member : place ∈ channelFolders) : keyed ceremony keys nodes place =
      if place ∈ storeFolders then some .folder else nodes place := by
  have elsewhere : ∀ role, place ≠ keyPath role := by
    rintro role rfl
    exact (keyPath_apart role).2.2.2.1 member
  rw [keyed, KeySet.lookup_stored ceremony elsewhere, Option.map_none, Option.none_or]

/-- The key store can be made and filled where no file stands in the way of its folders, and
no folder in that of a key. -/
theorem admits_store (keys : KeySet) (nodes : Place → Option Node) :
    (Tree.Admits nodes (storeDirs ++ writing (keys.stored ceremony)) ↔
      (∀ place ∈ storeFolders, ∀ content, nodes place ≠ some (.file content)) ∧
        ∀ file ∈ keys.stored ceremony, nodes file.1 ≠ some .folder) ∧
    Tree.effects nodes (storeDirs ++ writing (keys.stored ceremony)) =
      keyed ceremony keys nodes := by
  have dirs : (Tree.Admits nodes storeDirs ↔
        ∀ above ∈ storeFolders, ∀ content, nodes above ≠ some (.file content)) ∧
      Tree.effects nodes storeDirs = fun other =>
        if other ∈ storeFolders then some .folder else nodes other :=
    Tree.admits_createDirs nodes [[.keys], onlineDir, offlineDir]
  have stored := Tree.admits_write (Tree.effects nodes storeDirs)
    (keys.stored_nodup ceremony) fun file member => by
      obtain ⟨role, there⟩ := KeySet.stored_keyPath ceremony member
      obtain ⟨below, within, -, -, -, -, apart⟩ := keyPath_apart role
      rw [there, dirs.2]
      refine ⟨below, if_pos within, fun written => ?_⟩
      obtain ⟨other, otherMember, same⟩ := List.mem_map.mp written
      obtain ⟨otherRole, otherThere⟩ := KeySet.stored_keyPath ceremony otherMember
      exact apart otherRole (same.symm.trans otherThere)
  rw [Tree.admits_append, Tree.effects_append, writing, stored.1, stored.2, dirs.1, dirs.2]
  refine ⟨and_congr_right fun _ => forall₂_congr fun file member => ?_, rfl⟩
  obtain ⟨role, there⟩ := KeySet.stored_keyPath ceremony member
  have outside : file.1 ∉ storeFolders := there ▸ (keyPath_apart role).2.2.1
  simp only [if_neg outside]

/-- The channel's folders can be cleared and made where no file stands in their way. -/
theorem admits_channel (force : Bool) (nodes : Place → Option Node) :
    (Tree.Admits nodes (clearing force ++ channelDirs) ↔
      ∀ place ∈ channelFolders, ∀ content, nodes place ≠ some (.file content)) ∧
    Tree.effects nodes (clearing force ++ channelDirs) = fun other =>
      if other ∈ channelFolders then some .folder
      else if force = true ∧ (metadataDir <+: other ∨ targetsDir <+: other) then none
      else nodes other := by
  have cleared := admits_clearing force nodes
  have made := Tree.admits_createDirs (Tree.effects nodes (clearing force))
    [metadataDir, targetsDir]
  rw [Tree.admits_append, Tree.effects_append, cleared.1, channelDirs, made.1, made.2, cleared.2]
  refine ⟨⟨fun able place member content file => ?_, fun clear => ⟨fun _ => clear,
    fun place member content file => ?_⟩⟩, rfl⟩
  · by_cases forced : force = true
    · exact able.1 forced place member content file
    · have kept := able.2 place member content
      simp only [if_neg fun removed : force = true ∧ _ => forced removed.1] at kept
      exact kept file
  · simp only at file
    split at file
    · cases file
    · exact clear place member content file

theorem clear_iff (keys : KeySet) (nodes : Place → Option Node) :
    (((∀ place ∈ storeFolders, ∀ content, nodes place ≠ some (.file content)) ∧
        ∀ file ∈ keys.stored ceremony, nodes file.1 ≠ some .folder) ∧
      ∀ place ∈ channelFolders, ∀ content,
        keyed ceremony keys nodes place ≠ some (.file content)) ↔ Clear ceremony keys nodes := by
  constructor
  · rintro ⟨⟨clear, vacant⟩, standing⟩
    refine ⟨fun place member content file => ?_, vacant⟩
    obtain inStore | inChannel := List.mem_append.mp member
    · exact clear place inStore content file
    · refine standing place inChannel content ?_
      rw [keyed_channel ceremony inChannel]
      split
      · rename_i inStore
        exact absurd file (clear place inStore content)
      · exact file
  · rintro ⟨clear, vacant⟩
    refine ⟨⟨fun place member => clear place (List.mem_append_left _ member), vacant⟩, ?_⟩
    intro place member content
    rw [keyed_channel ceremony member]
    split
    · exact fun same => nomatch same
    · exact clear place (List.mem_append_right _ member) content

/-- Clearing the channel and making it again takes nothing from the key store. -/
theorem cleared_keyed (keys : KeySet) (force : Bool) (nodes : Place → Option Node)
    (place : Place) :
    (if place ∈ channelFolders then some .folder
      else if force = true ∧ (metadataDir <+: place ∨ targetsDir <+: place) then none
      else keyed ceremony keys nodes place) = prepared ceremony keys force nodes place := by
  have inFolders : place ∈ folders ↔ place ∈ storeFolders ∨ place ∈ channelFolders :=
    List.mem_append
  rw [prepared]
  by_cases inChannel : place ∈ channelFolders
  · rw [if_pos inChannel, if_pos (inFolders.mpr (.inr inChannel))]
  · rw [if_neg inChannel]
    by_cases inStore : place ∈ storeFolders
    · have elsewhere : ∀ role, place ≠ keyPath role := by
        rintro role rfl
        exact (keyPath_apart role).2.2.1 inStore
      have apart := storeFolders_apart place inStore
      rw [if_pos (inFolders.mpr (.inl inStore)),
        if_neg fun removed => removed.2.elim apart.1 apart.2, keyed,
        KeySet.lookup_stored ceremony elsewhere, if_pos inStore]
      rfl
    · have outside : place ∉ folders := fun member =>
        (inFolders.mp member).elim inStore inChannel
      rw [if_neg outside, keyed, if_neg inStore]
      cases found : (keys.stored ceremony).lookup place with
      | none =>
          have same : Published place ↔ metadataDir <+: place ∨ targetsDir <+: place :=
            and_iff_left outside
          simp only [same, Option.map_none, Option.none_or]
      | some content =>
          obtain ⟨role, rfl⟩ := KeySet.keyPath_of_lookup ceremony found
          have apart := (keyPath_apart role).2.2.2.2
          rw [if_neg fun removed => removed.2.elim apart.1 apart.2.1]
          rfl

theorem admits_preparation (keys : KeySet) (force : Bool) (nodes : Place → Option Node) :
    (Tree.Admits nodes (preparation ceremony keys force) ↔ Clear ceremony keys nodes) ∧
      Tree.effects nodes (preparation ceremony keys force) =
        prepared ceremony keys force nodes := by
  have store := admits_store ceremony keys nodes
  have channel := admits_channel force (keyed ceremony keys nodes)
  rw [preparation, List.append_assoc, Tree.admits_append, store.1, store.2, channel.1,
    Tree.effects_append nodes (storeDirs ++ _), store.2, channel.2]
  exact ⟨clear_iff ceremony keys nodes, funext (cleared_keyed ceremony keys force nodes)⟩

/-- A forced preparation changes nothing exactly if all is as it would leave it. -/
theorem prepared_eq_iff (keys : KeySet) (nodes : Place → Option Node) :
    prepared ceremony keys true nodes = nodes ↔ Prepared ceremony keys nodes := by
  constructor
  · intro same
    refine ⟨fun place member => ?_, fun file member => ?_, fun place published => ?_⟩
    · rw [← same, prepared, if_pos member]
    · obtain ⟨role, there⟩ := KeySet.stored_keyPath ceremony member
      have apart := keyPath_apart role
      have outside : file.1 ∉ folders := fun inside => by
        rw [there] at inside
        exact (List.mem_append.mp inside).elim apart.2.2.1 apart.2.2.2.1
      rw [← same, prepared, if_neg outside, Tree.lookup_of_mem (keys.stored_nodup ceremony) member]
    · have elsewhere : ∀ role, place ≠ keyPath role := by
        rintro role rfl
        exact published.1.elim (keyPath_apart role).2.2.2.2.1 (keyPath_apart role).2.2.2.2.2.1
      rw [← same, prepared, if_neg published.2, KeySet.lookup_stored ceremony elsewhere]
      exact if_pos ⟨rfl, published⟩
  · rintro ⟨standing, stored, bare⟩
    funext place
    rw [prepared]
    split
    · rename_i member
      exact (standing place member).symm
    · split
      · rename_i content found
        obtain ⟨before, after, same, -⟩ := List.lookup_eq_some_iff.mp found
        have member : (place, content) ∈ keys.stored ceremony := by
          rw [same]
          exact List.mem_append_right _ List.mem_cons_self
        exact (stored _ member).symm
      · split
        · rename_i removed
          exact (bare place removed.2).symm
        · rfl

end

variable {ceremony : Ceremony}

theorem nodeAt_of_isEmpty {workspace : Tree Entry} (empty : isEmpty workspace = some true) :
    workspace.nodeAt [.keys] = none := by
  by_contra stands
  have present : [Entry.keys] ∈ workspace.nodes := by
    rw [← Finmap.lookup_isSome]
    exact Option.isSome_iff_ne_none.mpr stands
  have folder : workspace.nodeAt [] = some .folder :=
    workspace.rooted [.keys] present (List.cons_ne_nil _ _)
  rw [isEmpty, folder] at empty
  have leaf : workspace.Leaf [] := of_decide_eq_true (Option.some.inj empty)
  exact leaf [.keys] (Finmap.mem_keys.mpr present) (List.cons_ne_nil _ _) rfl

/-- The preparation of a workspace that may be taken changes nothing exactly if all is as it
would leave it. -/
theorem prepared_eq_of_may {keys : KeySet} {workspace : Tree Entry} {force : Bool}
    (may : force = true ∨ isEmpty workspace = some true) :
    prepared ceremony keys force workspace.nodeAt = workspace.nodeAt ↔
      Prepared ceremony keys workspace.nodeAt := by
  cases force with
  | true => exact prepared_eq_iff ceremony keys _
  | false =>
      have vacant := nodeAt_of_isEmpty (may.resolve_left nofun)
      have folder : [Entry.keys] ∈ folders := by decide
      refine iff_of_false (fun same => ?_) fun all => ?_
      · have stands := congrFun same [.keys]
        rw [prepared, if_pos folder, vacant] at stands
        cases stands
      · have stands := all.1 _ folder
        rw [vacant] at stands
        cases stands

/-- The metadata can be written into a prepared workspace, and its root then stands under each
of its names. -/
theorem fileAt_written {keys : KeySet} {force : Bool} {workspace : Place → Option Node}
    {before : Tree Entry} (prepares : before.nodeAt = prepared ceremony keys force workspace)
    {rootFile targets snapshot timestamp : Bytes} {files : List (Place × Bytes)}
    (same : files = Ceremony.writeRole .root rootFile ++ Ceremony.writeRole .targets targets ++
      Ceremony.writeRole .snapshot snapshot ++ Ceremony.writeRole .timestamp timestamp)
    (ended : (before.perform (writing files)).2 = none) :
    ∀ file ∈ publishedNames .root initialVersion,
      (before.perform (writing files)).1.fileAt (metadataPath file) = some rootFile := by
  have distinct : (files.map Prod.fst).Nodup := by
    rw [same]
    simp [Ceremony.writeRole, publishedNames, metadataPath, metadataDir]
  have within : ∀ file ∈ files, file.1 ≠ [] ∧ before.nodeAt file.1.dropLast = some .folder ∧
      file.1.dropLast ∉ files.map Prod.fst := by
    have standing : before.nodeAt metadataDir = some .folder := by
      rw [prepares, prepared, if_pos (by decide)]
    rw [same]
    simp [Ceremony.writeRole, publishedNames, metadataPath, metadataDir] at standing ⊢
    exact standing
  intro file member
  have listed : (metadataPath file, rootFile) ∈ files := by
    rw [same]
    simp only [List.mem_append]
    exact .inl (.inl (.inl (List.mem_map_of_mem member)))
  have effect := (Tree.admits_write before.nodeAt distinct within).2
  rw [Tree.fileAt, Tree.perform_iff.2 ended, writing, effect]
  simp only [Tree.lookup_of_mem distinct listed]
  rfl

end Retrovert.Publish
