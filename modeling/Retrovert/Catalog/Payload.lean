import Mathlib.Data.Finmap
import Retrovert.Catalog.Loaded
import Retrovert.Tuf.Manifest

/-!
# Payload trees

Loading a generation needs the flat tree inside its archives. The store extracts each
generation once, into a staging directory that is renamed into place, and from then on
trusts the directory that stands under its id. It removes the directories of the
generations that are no longer live one entry after the other.

A step is one operation on the file system, and a call may be cut off before any of
them. An extraction that is cut leaves anything in its staging directory. The unpacking
of an archive is a parameter, with what it promises (`Unpacker`).
-/

set_option autoImplicit false

namespace Retrovert.Catalog

open Retrovert.Apply (Generation Installed)
open Retrovert.Runs
open Retrovert.Tuf (isHexSha256)

/-! ## Trees and archives -/

/-- What stands at a place of a tree. -/
inductive Entry where
  | folder
  | file (content : Bytes)
  | link (target : String)
deriving DecidableEq

/-- The names that lead to an entry. -/
abbrev Place := List String

/-- What stands below a directory. -/
abbrev Payload := Finmap fun _ : Place => Entry

/-- The contents of the regular file at a place. -/
def Payload.fileAt (payload : Payload) (place : Place) : Option Bytes :=
  match payload.lookup place with
  | some (.file content) => some content
  | _ => none

/-- Remove an entry with nothing below it. -/
def Payload.remove (payload : Payload) (place : Place) : Option Payload :=
  if place ∈ payload ∧ ∀ other ∈ payload.keys, place <+: other → other = place then
    some (payload.erase place)
  else none

/-- Unpacking without overwriting: an archive that unpacks leaves all its files, and takes
none from what was there. -/
structure Unpacker (α : Type*) where
  files : α → List (Place × Bytes)
  unpack : α → Payload → Option Payload
  lands : ∀ archive before after, unpack archive before = some after →
    ∀ file ∈ files archive, after.fileAt file.1 = some file.2
  keeps : ∀ archive before after, unpack archive before = some after →
    ∀ place content, before.fileAt place = some content → after.fileAt place = some content

/-- The archives of the generations, by their paths, and the suffix of a library on this
platform. -/
structure Archives (α : Type*) extends Unpacker α where
  archive : String → String → α
  dllSuffix : String

/-- The archive form every plugin artifact ships in. -/
def archiveSuffix : String := ".tar.zst"

/-- Where an extraction stages before its tree commits. -/
def stagingPrefix : String := ".staging-"

def staging (id : String) : String := stagingPrefix ++ id

/-- Whether an artifact's name is a single path segment. -/
def checkName (name : String) : Bool :=
  !name.isEmpty && name.toList.all fun c => c.isAlphanum || c == '-' || c == '_'

/-! ## The store -/

/-- What the call that runs is at. A collection has the directories that it has yet to look
at, and has begun to remove the first one or not. -/
inductive Call where
  | idle
  | clearing (generation : Generation)
  | unpacking (generation : Generation) (rest : List Installed)
  | retaining (live names : List String) (begun : Bool)

/-- The directories of the store, the call that runs, and the generation whose libraries the
last step has returned, if it has. -/
structure PayloadStore where
  dirs : String → Option Payload := fun _ => none
  call : Call := .idle
  returned : Option Generation := none

/-- A step of a call. A call that fails stops where it stands, as one that is cut does; but
a collection that fails to remove an entry goes on to the next directory. -/
inductive Step where
  | ensure (generation : Generation)
  | remove (place : Place)
  | removeDir
  | create
  | unpack
  | commit
  | retain (live names : List String)
  | skip
  | finish
  | fail
  | cut (left : Payload)

namespace PayloadStore

variable {α : Type*} (archives : Archives α) (store : PayloadStore)

def setDir (name : String) (dir : Option Payload) : PayloadStore :=
  { store with dirs := Function.update store.dirs name dir }

/-- The library an artifact loads from, inside a committed tree. -/
def library (artifact : Installed) : Place :=
  [artifact.name ++ "_playback" ++ archives.dllSuffix]

/-- The end of a call: the libraries are returned if all of them are regular files. -/
def libraries (generation : Generation) : PayloadStore :=
  let found := (store.dirs generation.id).any fun dir =>
    generation.artifacts.all fun artifact => (dir.fileAt (library archives artifact)).isSome
  { store with call := .idle, returned := if found then some generation else none }

/-- The loadable libraries for a generation, extracting its tree if absent. -/
def ensure (generation : Generation) : PayloadStore :=
  if generation.artifacts.all fun artifact => checkName artifact.name then
    if (store.dirs generation.id).isSome then store.libraries archives generation
    else { store with call := .clearing generation }
  else store

/-- The directory that is being removed. -/
def removing : Option String :=
  match store.call with
  | .clearing generation => some (staging generation.id)
  | .retaining live (name :: _) _ => if name ∈ live then none else some name
  | _ => none

/-- One step, from a store that has not returned anything. -/
def act : Step → Option PayloadStore
  | .ensure generation =>
      match store.call with
      | .idle => some (store.ensure archives generation)
      | _ => none
  | .remove place => do
      let name ← store.removing
      let dir ← store.dirs name
      let left ← dir.remove place
      match store.call with
      | .retaining live names _ =>
          some { store.setDir name (some left) with call := .retaining live names true }
      | _ => some (store.setDir name (some left))
  | .removeDir => do
      let name ← store.removing
      if store.dirs name = some ∅ then
        match store.call with
        | .retaining live names _ =>
            some { store.setDir name none with call := .retaining live names.tail false }
        | _ => some (store.setDir name none)
      else none
  | .create =>
      match store.call with
      | .clearing generation =>
          if store.dirs (staging generation.id) = none then
            some { store.setDir (staging generation.id) (some ∅) with
              call := .unpacking generation generation.artifacts }
          else none
      | _ => none
  | .unpack =>
      match store.call with
      | .unpacking generation (artifact :: rest) =>
          if archiveSuffix.toList <:+ artifact.path.toList then do
            let dir ← store.dirs (staging generation.id)
            let left ← archives.unpack (archives.archive generation.id artifact.path) dir
            some { store.setDir (staging generation.id) (some left) with
              call := .unpacking generation rest }
          else none
      | _ => none
  | .commit =>
      match store.call with
      | .unpacking generation [] =>
          if (store.dirs generation.id).all (· = ∅) then
            some (((store.setDir generation.id (store.dirs (staging generation.id))).setDir
              (staging generation.id) none).libraries archives generation)
          else none
      | _ => none
  | .retain live names =>
      match store.call with
      | .idle => some { store with call := .retaining live names false }
      | _ => none
  | .skip =>
      match store.call with
      | .retaining live (name :: rest) false =>
          if name ∈ live ∨ store.dirs name = none then
            some { store with call := .retaining live rest false }
          else none
      | _ => none
  | .finish =>
      match store.call with
      | .retaining _ [] _ => some { store with call := .idle }
      | _ => none
  | .fail =>
      match store.call with
      | .retaining live (_ :: rest) _ => some { store with call := .retaining live rest false }
      | _ => none
  | .cut left =>
      match store.call with
      | .unpacking generation _ =>
          some { store.setDir (staging generation.id) (some left) with call := .idle }
      | _ => some { store with call := .idle }

/-- One step. What an earlier call returned is not returned again. -/
def step (action : Step) : Option PayloadStore :=
  { store with returned := none }.act archives action

/-- The directory whose removal by a collection has begun. -/
def begun : Option String :=
  match store.call with
  | .retaining _ (name :: _) true => some name
  | _ => none

end PayloadStore

/-! ## Trees that are whole -/

section Guards

variable (manifest : String → List Installed)

/-- A generation is what its id names, and the id is a manifest's digest. -/
def Denotes (generation : Generation) : Prop :=
  generation = named manifest generation.id ∧ isHexSha256 generation.id = true

/-- The trees that are asked for are those of generations. -/
def AsksGenerations (_ : PayloadStore) : Step → Prop
  | .ensure generation => Denotes manifest generation
  | _ => True

end Guards

/-- No collection stops part way through the tree of a generation. -/
def CollectsWhole (store : PayloadStore) : Step → Prop
  | .fail | .cut _ => ∀ name ∈ store.begun, isHexSha256 name = false
  | _ => True

variable {α : Type*} {archives : Archives α} {manifest : String → List Installed}
  {store after : PayloadStore} {tree : Payload} {generation : Generation} {id name : String}
  {artifacts : List Installed} {dir : Option Payload}

theorem PayloadStore.dirs_setDir_self (store : PayloadStore) (name : String)
    (dir : Option Payload) : (store.setDir name dir).dirs name = dir :=
  Function.update_self ..

theorem PayloadStore.dirs_setDir_of_ne (store : PayloadStore) (dir : Option Payload)
    (different : id ≠ name) : (store.setDir name dir).dirs id = store.dirs id :=
  Function.update_of_ne different ..

theorem staging_ne (digest : isHexSha256 id = true) (other : String) : id ≠ staging other := by
  intro same
  rw [same, isHexSha256, Bool.and_eq_true, List.all_eq_true] at digest
  have dot : '.' ∈ (staging other).toList := by
    simp [staging, stagingPrefix]
  exact absurd (digest.2 '.' dot) (by decide)

/-- A tree contains every file of the archives of some of a generation's artifacts. -/
def Contains (archives : Archives α) (tree : Payload) (id : String)
    (artifacts : List Installed) : Prop :=
  ∀ artifact ∈ artifacts, ∀ file ∈ archives.files (archives.archive id artifact.path),
    tree.fileAt file.1 = some file.2

/-- An archive that unpacks adds its files to those of the archives before it. -/
theorem Contains.unpack {artifact : Installed} {left : Payload}
    (contains : Contains archives tree id artifacts)
    (unpacked : archives.unpack (archives.archive id artifact.path) tree = some left) :
    Contains archives left id (artifacts ++ [artifact]) := by
  intro other member file within
  rcases List.mem_append.mp member with earlier | last
  · exact archives.keeps _ _ _ unpacked _ _ (contains other earlier file within)
  · cases List.mem_singleton.mp last
    exact archives.lands _ _ _ unpacked file within

/-- The tree of a generation has all its files, but for one whose removal has begun; an
extraction has unpacked the archives that are not left; and what was returned is a whole
tree with every library in it. -/
structure Sound (archives : Archives α) (manifest : String → List Installed)
    (store : PayloadStore) : Prop where
  committed : ∀ id tree, isHexSha256 id = true → store.dirs id = some tree →
    store.begun ≠ some id → Contains archives tree id (manifest id)
  clearing : ∀ generation, store.call = .clearing generation → Denotes manifest generation
  unpacking : ∀ generation rest, store.call = .unpacking generation rest →
    Denotes manifest generation ∧ ∃ unpacked tree, generation.artifacts = unpacked ++ rest ∧
      store.dirs (staging generation.id) = some tree ∧
      Contains archives tree generation.id unpacked
  returned : ∀ generation ∈ store.returned, ∃ tree, store.dirs generation.id = some tree ∧
    Contains archives tree generation.id generation.artifacts ∧
    ∀ artifact ∈ generation.artifacts,
      (tree.fileAt (PayloadStore.library archives artifact)).isSome

namespace Sound

theorem new : Sound archives manifest {} where
  committed _ _ _ found := by cases found
  clearing _ call := by cases call
  unpacking _ _ call := by cases call
  returned _ returned := by cases returned

theorem quiet (sound : Sound archives manifest store) :
    Sound archives manifest { store with returned := none } :=
  { sound with returned := by simp }

/-- What happens to a staging directory is not seen under an id. -/
theorem setStaging (sound : Sound archives manifest store) (begun : store.begun = none)
    {other : String} (digest : isHexSha256 id = true)
    (found : (store.setDir (staging other) dir).dirs id = some tree) :
    Contains archives tree id (manifest id) := by
  rw [store.dirs_setDir_of_ne dir (staging_ne digest other)] at found
  exact sound.committed id tree digest found (by simp [begun])

/-- The end of a call, in a store where every tree is whole. -/
theorem libraries (whole : ∀ id tree, isHexSha256 id = true → store.dirs id = some tree →
      Contains archives tree id (manifest id))
    (denotes : Denotes manifest generation) :
    Sound archives manifest (store.libraries archives generation) where
  committed id tree digest found _ := whole id tree digest found
  clearing _ same := by cases same
  unpacking _ _ same := by cases same
  returned other same := by
    simp only [PayloadStore.libraries, Option.mem_def, Option.ite_none_right_eq_some,
      Option.any_eq_true, List.all_eq_true] at same
    obtain ⟨⟨tree, found, every⟩, same⟩ := same
    cases same
    refine ⟨tree, found, ?_, every⟩
    rw [denotes.1]
    exact whole _ tree denotes.2 found

theorem ensure (sound : Sound archives manifest store) (call : store.call = .idle)
    (returned : store.returned = none) (denotes : Denotes manifest generation) :
    Sound archives manifest (store.ensure archives generation) := by
  have begun : store.begun = none := by simp [PayloadStore.begun, call]
  simp only [PayloadStore.ensure]
  split
  · split
    · exact .libraries (fun id tree digest found =>
        sound.committed id tree digest found (by simp [begun])) denotes
    · exact {
        committed := fun id tree digest found _ =>
          sound.committed id tree digest found (by simp [begun])
        clearing := fun _ same => by
          cases same
          exact denotes
        unpacking := fun _ _ same => by cases same
        returned := by simp [returned] }
  · exact sound

/-- An entry is removed from a staging directory, or from one whose removal has then begun. -/
theorem remove {place : Place} (sound : Sound archives manifest store)
    (returned : store.returned = none) (acted : store.act archives (.remove place) = some after) :
    Sound archives manifest after := by
  simp only [PayloadStore.act, Option.bind_eq_bind, Option.bind_eq_some_iff] at acted
  obtain ⟨name, removing, dir, stands, left, removed, acted⟩ := acted
  simp only [PayloadStore.removing] at removing
  cases call : store.call with
  | idle | unpacking generation rest => simp [call] at removing
  | clearing generation =>
      simp only [call, Option.some.injEq] at removing acted
      subst removing acted
      exact {
        committed := fun _ _ digest found _ =>
          sound.setStaging (by simp [PayloadStore.begun, call]) digest found
        clearing := sound.clearing
        unpacking := fun _ _ same => by simp [PayloadStore.setDir, call] at same
        returned := by simp [PayloadStore.setDir, returned] }
  | retaining live names begun =>
      cases names with
      | nil => simp [call] at removing
      | cons first rest =>
          simp only [call, Option.ite_none_left_eq_some, Option.some.injEq] at removing acted
          obtain ⟨-, rfl⟩ := removing
          subst acted
          refine {
            committed := fun id tree digest found whole => ?_
            clearing := fun _ same => by cases same
            unpacking := fun _ _ same => by cases same
            returned := by simp [PayloadStore.setDir, returned] }
          -- Only the tree whose removal has begun has changed.
          have other : id ≠ first := fun same => whole (by simp [PayloadStore.begun, same])
          refine sound.committed id tree digest ?_ ?_
          · exact (store.dirs_setDir_of_ne _ other).symm.trans found
          · cases begun with
            | false => simp [PayloadStore.begun, call]
            | true => simpa [PayloadStore.begun, call] using other.symm

/-- An emptied directory goes. -/
theorem removeDir (sound : Sound archives manifest store) (returned : store.returned = none)
    (acted : store.act archives .removeDir = some after) : Sound archives manifest after := by
  simp only [PayloadStore.act, Option.bind_eq_bind, Option.bind_eq_some_iff] at acted
  obtain ⟨name, removing, acted⟩ := acted
  rw [Option.ite_none_right_eq_some] at acted
  obtain ⟨-, acted⟩ := acted
  simp only [PayloadStore.removing] at removing
  cases call : store.call with
  | idle | unpacking generation rest => simp [call] at removing
  | clearing generation =>
      simp only [call, Option.some.injEq] at removing acted
      subst removing acted
      exact {
        committed := fun _ _ digest found _ =>
          sound.setStaging (by simp [PayloadStore.begun, call]) digest found
        clearing := sound.clearing
        unpacking := fun _ _ same => by simp [PayloadStore.setDir, call] at same
        returned := by simp [PayloadStore.setDir, returned] }
  | retaining live names begun =>
      cases names with
      | nil => simp [call] at removing
      | cons first rest =>
          simp only [call, Option.ite_none_left_eq_some, Option.some.injEq] at removing acted
          obtain ⟨-, rfl⟩ := removing
          subst acted
          refine {
            committed := fun id tree digest found _ => ?_
            clearing := fun _ same => by cases same
            unpacking := fun _ _ same => by cases same
            returned := by simp [PayloadStore.setDir, returned] }
          have other : id ≠ first := by
            rintro rfl
            have gone := (store.dirs_setDir_self id none).symm.trans found
            cases gone
          refine sound.committed id tree digest ?_ ?_
          · exact (store.dirs_setDir_of_ne _ other).symm.trans found
          · cases begun with
            | false => simp [PayloadStore.begun, call]
            | true => simpa [PayloadStore.begun, call] using other.symm

/-- An extraction starts from an empty staging directory. -/
theorem create (sound : Sound archives manifest store) (returned : store.returned = none)
    (acted : store.act archives .create = some after) : Sound archives manifest after := by
  simp only [PayloadStore.act] at acted
  cases call : store.call with
  | clearing generation =>
      simp only [call, Option.ite_none_right_eq_some, Option.some.injEq] at acted
      obtain ⟨-, rfl⟩ := acted
      exact {
        committed := fun _ _ digest found _ =>
          sound.setStaging (by simp [PayloadStore.begun, call]) digest found
        clearing := fun _ same => by cases same
        unpacking := fun _ _ same => by
          cases same
          exact ⟨sound.clearing generation call, [], ∅, rfl, store.dirs_setDir_self ..,
            fun _ member => nomatch member⟩
        returned := by simp [PayloadStore.setDir, returned] }
  | _ => simp [call] at acted

/-- An archive is unpacked beside those before it. -/
theorem unpack (sound : Sound archives manifest store) (returned : store.returned = none)
    (acted : store.act archives .unpack = some after) : Sound archives manifest after := by
  simp only [PayloadStore.act] at acted
  cases call : store.call with
  | unpacking generation rest =>
      cases rest with
      | nil => simp [call] at acted
      | cons artifact rest =>
          simp only [call, Option.ite_none_right_eq_some, Option.bind_eq_bind,
            Option.bind_eq_some_iff, Option.some.injEq] at acted
          obtain ⟨-, dir, stands, left, unpacked, rfl⟩ := acted
          obtain ⟨denotes, earlier, tree, split, staged, contains⟩ :=
            sound.unpacking generation _ call
          cases stands.symm.trans staged
          exact {
            committed := fun _ _ digest found _ =>
              sound.setStaging (by simp [PayloadStore.begun, call]) digest found
            clearing := fun _ same => by cases same
            unpacking := fun _ _ same => by
              cases same
              exact ⟨denotes, earlier ++ [artifact], left, by simp [split],
                store.dirs_setDir_self .., contains.unpack unpacked⟩
            returned := by simp [PayloadStore.setDir, returned] }
  | _ => simp [call] at acted

/-- A tree commits with all its archives. -/
theorem commit (sound : Sound archives manifest store)
    (acted : store.act archives .commit = some after) : Sound archives manifest after := by
  simp only [PayloadStore.act] at acted
  cases call : store.call with
  | unpacking generation rest =>
      cases rest with
      | cons artifact rest => simp [call] at acted
      | nil =>
          simp only [call, Option.ite_none_right_eq_some, Option.some.injEq] at acted
          obtain ⟨-, rfl⟩ := acted
          obtain ⟨denotes, unpacked, tree, split, staged, contains⟩ :=
            sound.unpacking generation [] call
          refine .libraries (fun id found digest stands => ?_) denotes
          rw [PayloadStore.dirs_setDir_of_ne _ _ (staging_ne digest _)] at stands
          by_cases same : id = generation.id
          · -- The tree that has been staged.
            rw [same, PayloadStore.dirs_setDir_self, staged, Option.some.injEq] at stands
            have whole : manifest id = unpacked := by
              rw [same, ← List.append_nil unpacked, ← split, denotes.1]
              rfl
            rw [← stands, whole, same]
            exact contains
          · rw [PayloadStore.dirs_setDir_of_ne _ _ same] at stands
            exact sound.committed id found digest stands (by simp [PayloadStore.begun, call])
  | _ => simp [call] at acted

/-- Unless the tree of a generation has been begun on, all of them are whole. -/
theorem whole (sound : Sound archives manifest store)
    (spared : ∀ name ∈ store.begun, isHexSha256 name = false) (id : String) (tree : Payload)
    (digest : isHexSha256 id = true) (found : store.dirs id = some tree) :
    Contains archives tree id (manifest id) := by
  refine sound.committed id tree digest found fun begun => ?_
  rw [spared id begun] at digest
  cases digest

/-- A store that goes on to look at another directory, or rests. -/
theorem turn {call : Call} (whole : ∀ id tree, isHexSha256 id = true → store.dirs id = some tree →
      Contains archives tree id (manifest id))
    (clears : ∀ generation, call ≠ .clearing generation)
    (unpacks : ∀ generation rest, call ≠ .unpacking generation rest)
    (returned : store.returned = none) : Sound archives manifest { store with call } where
  committed id tree digest found _ := whole id tree digest found
  clearing generation same := absurd same (clears generation)
  unpacking generation rest same := absurd same (unpacks generation rest)
  returned := by simp [returned]

/-- Every step keeps the trees whole that no collection has begun on. -/
theorem act {action : Step} (sound : Sound archives manifest store)
    (returned : store.returned = none) (asks : AsksGenerations manifest store action)
    (whole : CollectsWhole store action) (acted : store.act archives action = some after) :
    Sound archives manifest after := by
  cases action with
  | ensure generation =>
      simp only [PayloadStore.act] at acted
      cases call : store.call with
      | idle =>
          simp only [call, Option.some.injEq] at acted
          subst acted
          exact sound.ensure call returned asks
      | _ => simp [call] at acted
  | remove place => exact sound.remove returned acted
  | removeDir => exact sound.removeDir returned acted
  | create => exact sound.create returned acted
  | unpack => exact sound.unpack returned acted
  | commit => exact sound.commit acted
  | retain live names =>
      simp only [PayloadStore.act] at acted
      cases call : store.call with
      | idle =>
          simp only [call, Option.some.injEq] at acted
          subst acted
          exact turn (sound.whole (by simp [PayloadStore.begun, call])) (by simp) (by simp) returned
      | _ => simp [call] at acted
  | skip =>
      simp only [PayloadStore.act] at acted
      split at acted
      · rename_i call
        rw [Option.ite_none_right_eq_some, Option.some.injEq] at acted
        obtain ⟨-, rfl⟩ := acted
        exact turn (sound.whole (by simp [PayloadStore.begun, call])) (by simp) (by simp) returned
      · cases acted
  | finish =>
      simp only [PayloadStore.act] at acted
      split at acted
      · rename_i call
        cases acted
        exact turn (sound.whole (by simp [PayloadStore.begun, call])) (by simp) (by simp) returned
      · cases acted
  | fail =>
      simp only [PayloadStore.act] at acted
      split at acted
      · cases acted
        exact turn (sound.whole whole) (by simp) (by simp) returned
      · cases acted
  | cut left =>
      simp only [PayloadStore.act] at acted
      split at acted
      · rename_i generation rest call
        cases acted
        refine turn (fun id tree digest found => ?_) (by simp) (by simp) returned
        exact sound.setStaging (by simp [PayloadStore.begun, call]) digest found
      · cases acted
        exact turn (sound.whole whole) (by simp) (by simp) returned

end Sound

/-- Whenever `ensure` returns the libraries of a generation, the tree that they are in has
every file of every archive of the generation, and each library in it is a regular file;
as long as no collection stops part way through the tree of a generation. -/
theorem an_accepted_tree_is_complete {last : PayloadStore}
    (run : Moves (PayloadStore.step archives)
      (fun store action => AsksGenerations manifest store action ∧ CollectsWhole store action)
      {} last)
    (returned : last.returned = some generation) :
    ∃ tree, last.dirs generation.id = some tree ∧
      (∀ artifact ∈ generation.artifacts,
        ∀ file ∈ archives.files (archives.archive generation.id artifact.path),
          tree.fileAt file.1 = some file.2) ∧
      ∀ artifact ∈ generation.artifacts,
        (tree.fileAt (PayloadStore.library archives artifact)).isSome := by
  have sound : Sound archives manifest last :=
    run.invariant (Sound archives manifest)
      (fun _ _ _ meets stepped sound => sound.quiet.act rfl meets.1 meets.2 stepped) .new
  exact sound.returned generation returned

/-! ## Archives of plain files -/

/-- Create a file where nothing stands. -/
def createFile (payload : Payload) (file : Place × Bytes) : Option Payload :=
  if file.1 ∈ payload then none else some (payload.insert file.1 (.file file.2))

theorem fileAt_createFile {payload left : Payload} {file : Place × Bytes}
    (created : createFile payload file = some left) :
    left.fileAt file.1 = some file.2 ∧ ∀ place content,
      payload.fileAt place = some content → left.fileAt place = some content := by
  simp only [createFile, Option.ite_none_left_eq_some, Option.some.injEq] at created
  obtain ⟨fresh, rfl⟩ := created
  refine ⟨by simp [Payload.fileAt], fun place content found => ?_⟩
  have other : place ≠ file.1 := by
    rintro rfl
    rw [Payload.fileAt, Finmap.lookup_eq_none.mpr fresh] at found
    cases found
  rw [Payload.fileAt, Finmap.lookup_insert_of_ne _ other]
  exact found

theorem fileAt_createFiles {files : List (Place × Bytes)} {payload left : Payload}
    (created : files.foldlM createFile payload = some left) :
    (∀ file ∈ files, left.fileAt file.1 = some file.2) ∧ ∀ place content,
      payload.fileAt place = some content → left.fileAt place = some content := by
  induction files generalizing payload with
  | nil =>
      cases created
      exact ⟨fun _ member => (nomatch member), fun _ _ found => found⟩
  | cons file rest ih =>
      rw [List.foldlM_cons, Option.bind_eq_bind, Option.bind_eq_some_iff] at created
      obtain ⟨between, first, later⟩ := created
      obtain ⟨lands, keeps⟩ := ih later
      have placed := fileAt_createFile first
      refine ⟨fun other member => ?_, fun place content found =>
        keeps place content (placed.2 place content found)⟩
      rcases List.mem_cons.mp member with rfl | member
      · exact keeps _ _ placed.1
      · exact lands other member

/-- Archives that hold nothing but files, each in the folder they are unpacked into. -/
def plainFiles (contents : String → String → List (Place × Bytes)) :
    Archives (List (Place × Bytes)) where
  files archive := archive
  unpack archive payload := archive.foldlM createFile payload
  lands _ _ _ unpacked := (fileAt_createFiles unpacked).1
  keeps _ _ _ unpacked := (fileAt_createFiles unpacked).2
  archive := contents
  dllSuffix := ".so"

instance : ∀ store action, Decidable (AsksGenerations manifest store action)
  | _, .ensure generation =>
      inferInstanceAs (Decidable (generation = named manifest generation.id ∧
        isHexSha256 generation.id = true))
  | _, .remove _ | _, .removeDir | _, .create | _, .unpack | _, .commit | _, .retain _ _
  | _, .skip | _, .finish | _, .fail | _, .cut _ => inferInstanceAs (Decidable True)

instance : ∀ store action, Decidable (CollectsWhole store action)
  | store, .fail | store, .cut _ =>
      inferInstanceAs (Decidable (∀ name ∈ store.begun, isHexSha256 name = false))
  | _, .remove _ | _, .removeDir | _, .create | _, .unpack | _, .commit | _, .retain _ _
  | _, .skip | _, .finish | _, .ensure _ => inferInstanceAs (Decidable True)

/-- A decoder and a table that it reads. -/
def decoderArchive : Archives (List (Place × Bytes)) :=
  plainFiles fun _ _ => [(["decoder_playback.so"], [1]), (["table.bin"], [2])]

/-- A manifest's digest. -/
def someDigest : String := String.ofList (List.replicate 64 'a')

/-- An extraction that runs through returns a whole tree. -/
theorem an_extracted_tree_is_complete :
    ∃ last, Moves (PayloadStore.step decoderArchive)
        (fun store action => AsksGenerations (fun _ => (decoder "").artifacts) store action ∧
          CollectsWhole store action) {} last ∧
      last.returned = some (decoder someDigest) ∧
      ∃ tree, last.dirs someDigest = some tree ∧
        (∀ artifact ∈ (decoder someDigest).artifacts,
          ∀ file ∈ decoderArchive.files (decoderArchive.archive someDigest artifact.path),
            tree.fileAt file.1 = some file.2) ∧
        ∀ artifact ∈ (decoder someDigest).artifacts,
          (tree.fileAt (PayloadStore.library decoderArchive artifact)).isSome := by
  obtain ⟨last, run, found⟩ := Moves.of_check (PayloadStore.step decoderArchive)
    (fun store action => AsksGenerations (fun _ => (decoder "").artifacts) store action ∧
      CollectsWhole store action) {}
    [.ensure (decoder someDigest), .create, .unpack, .commit]
    (fun last => decide (last.returned = some (decoder someDigest))) (by decide +kernel)
  have returned := of_decide_eq_true found
  exact ⟨last, run, returned, an_accepted_tree_is_complete run returned⟩

/-- A collection is cut once it has removed the table of a tree. What is left stands under
the generation's id, and the next call trusts it. -/
theorem a_cut_collection_is_trusted :
    ∃ last, Moves (PayloadStore.step decoderArchive)
        (AsksGenerations fun _ => (decoder "").artifacts) {} last ∧
      last.returned = some (decoder someDigest) ∧
      ∃ tree, last.dirs someDigest = some tree ∧
        (["table.bin"], [2]) ∈
          decoderArchive.files (decoderArchive.archive someDigest "decoder.tar.zst") ∧
        tree.fileAt ["table.bin"] = none := by
  obtain ⟨last, run, found⟩ := Moves.of_check (PayloadStore.step decoderArchive)
    (AsksGenerations fun _ => (decoder "").artifacts) {}
    [.ensure (decoder someDigest), .create, .unpack, .commit, .retain [] [someDigest],
      .remove ["table.bin"], .cut ∅, .ensure (decoder someDigest)]
    (fun last => decide (last.returned = some (decoder someDigest)) &&
      (last.dirs someDigest).any fun tree : Payload => tree.fileAt ["table.bin"] = none)
    (by decide +kernel)
  rw [Bool.and_eq_true, Option.any_eq_true] at found
  obtain ⟨returned, tree, stands, missing⟩ := found
  exact ⟨last, run, of_decide_eq_true returned, tree, stands, by decide,
    of_decide_eq_true missing⟩

end Retrovert.Catalog
