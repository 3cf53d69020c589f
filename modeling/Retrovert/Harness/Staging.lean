import Mathlib.Data.List.Sort
import Mathlib.Data.String.Basic
import Retrovert.Library.Writes

/-!
# Staging the licences of a plugin

The packager collects the licence texts of a plugin's repository from two places: the root,
where a name tells them, and the folder `licenses` with everything below it. It copies them all
into one directory under the last name of each. So of two files with one name, one replaces the
other, and every file found is there with its own content exactly if those with one name agree
(`every_licence_is_staged`). The lint of the finished archive only counts that some file is
there, and so it never notices (`licenses_counted`).

What names the host takes for the same is a parameter.
-/

set_option autoImplicit false

namespace Retrovert.Harness

/-! ## What stands in a directory -/

/-- An entry of a directory: a file, a folder, or something that is neither. -/
inductive Item where
  | file (name : String) (content : Bytes)
  | folder (name : String) (entries : List Item)
  | other (name : String)

def Item.name : Item → String
  | .file name _ | .folder name _ | .other name => name

/-- What a path leads to, and the folders that it goes through. -/
structure Source where
  parents : List String
  item : Item

def Source.path (source : Source) : List String := source.parents ++ [source.item.name]

def Source.under (folder : String) (source : Source) : Source :=
  ⟨folder :: source.parents, source.item⟩

mutual
/-- What stands below an entry, at any depth. -/
def Item.inside : Item → List Source
  | .file _ _ | .other _ => []
  | .folder _ entries => walk entries

/-- `rglob("*")`: what stands in a directory, at any depth. -/
def walk : List Item → List Source
  | [] => []
  | item :: rest => ⟨[], item⟩ :: item.inside.map (Source.under item.name) ++ walk rest
end

/-- How the host handles names. -/
structure Host where
  /-- what a name is compared by, in a pattern and in a sorted list -/
  pathName : String → String
  /-- what tells one name from another in a directory -/
  fileName : String → String
  join : String → String → String

def unix : Host := ⟨id, id, fun folder name => folder ++ "/" ++ name⟩

namespace Host

/-- Whether two names are one in a directory. -/
def Same (host : Host) (first second : String) : Prop := host.fileName first = host.fileName second

instance (host : Host) (first second : String) : Decidable (host.Same first second) :=
  inferInstanceAs (Decidable (_ = _))

/-- The entries of the folder of a name. -/
def folder? (host : Host) (items : List Item) (name : String) : Option (List Item) :=
  match items.find? fun item => host.Same item.name name with
  | some (.folder _ entries) => some entries
  | _ => none

/-- The paths in order, compared name by name. -/
def sorted (host : Host) (sources : List Source) : List Source :=
  sources.insertionSort fun first second =>
    first.path.map host.pathName ≤ second.path.map host.pathName

end Host

/-! ## The licence files -/

def licenseGlobs : List String := ["LICENSE*", "LICENCE*", "COPYING*", "NOTICE*"]

/-- Whether a name matches a pattern, of whose wildcards only `*` occurs. -/
def fnmatch : List Char → List Char → Bool
  | [], name => name.isEmpty
  | '*' :: rest, name => name.tails.any (fnmatch rest)
  | _ :: _, [] => false
  | char :: rest, first :: name => char == first && fnmatch rest name

structure Repo where
  path : String
  entries : List Item

def Repo.glob (host : Host) (repo : Repo) (pattern : String) : List Source :=
  (repo.entries.filter fun item =>
    fnmatch (host.pathName pattern).toList (host.pathName item.name).toList).map (⟨[], ·⟩)

/-- A file that was found: where, under what name, and what is in it. -/
structure License where
  parents : List String
  name : String
  content : Bytes
deriving DecidableEq

/-- The files among what was found. -/
def licenses (sources : List Source) : List License :=
  sources.filterMap fun
    | ⟨parents, .file name content⟩ => some ⟨parents, name, content⟩
    | _ => none

/-- The licence files, in the order in which they are copied. -/
def licenseFiles (host : Host) (repo : Repo) : List License :=
  licenseGlobs.flatMap (fun pattern => licenses (host.sorted (repo.glob host pattern))) ++
    match host.folder? repo.entries "licenses" with
    | some entries =>
        licenses (host.sorted ((walk entries).map (Source.under "licenses")))
    | none => []

/-! ## Staging -/

/-- The files of one directory. -/
abbrev Directory := List (String × Bytes)

/-- Copy a file into a directory, over the file of that name if there is one. -/
def copyfile (host : Host) : Directory → String → Bytes → Directory
  | [], name, content => [(name, content)]
  | file :: rest, name, content =>
      if host.Same file.1 name then (file.1, content) :: rest
      else file :: copyfile host rest name content

def copyAll (host : Host) (directory : Directory) (licenses : List License) : Directory :=
  licenses.foldl (fun directory license => copyfile host directory license.name license.content)
    directory

/-- What is read under a name. -/
def read (host : Host) (directory : Directory) (name : String) : Option Bytes :=
  (directory.find? fun file => host.Same file.1 name).map Prod.snd

/-- What stops the packager. -/
inductive Failure where
  | exists (name : String)
  | noLicenses (repo : String)
  | noData (folder : String)
deriving DecidableEq

/-- The text of a failure that the packager reports itself. -/
def Failure.text : Failure → Option String
  | .exists _ => none
  | .noLicenses repo =>
      some ("no license texts found in " ++ repo ++ ": <name>_licenses/ must not be empty")
  | .noData folder =>
      some ("harness.toml declares data entries but " ++ folder ++ " does not exist")

structure Staging where
  lib : String × Bytes
  licensesDir : String
  licenses : Directory
  data : Option (String × List Item)

def stage (host : Host) (repo : Repo) (lib : String × Bytes) (name : String)
    (dataEntries : List String) : Except Failure Staging :=
  let licensesDir := name ++ "_licenses"
  if host.Same lib.1 licensesDir then .error (.exists licensesDir)
  else
    let licenses := copyAll host [] (licenseFiles host repo)
    if licenses.isEmpty then .error (.noLicenses repo.path)
    else if dataEntries.isEmpty then .ok ⟨lib, licensesDir, licenses, none⟩
    else
      let dataDir := name ++ "_data"
      match host.folder? repo.entries dataDir with
      | none => .error (.noData (host.join repo.path dataDir))
      | some entries =>
          if host.Same lib.1 dataDir then .error (.exists dataDir)
          else .ok ⟨lib, licensesDir, licenses, some (dataDir, entries)⟩

/-! ## The archive, and its lint -/

/-- What the staging directory holds. -/
def Staging.items (staging : Staging) : List Item :=
  .file staging.lib.1 staging.lib.2 ::
    .folder staging.licensesDir (staging.licenses.map fun file => .file file.1 file.2) ::
    staging.data.toList.map fun data => .folder data.1 data.2

/-- A member of the archive: its path, and whether it is a regular file. -/
structure Member where
  parts : List String
  isreg : Bool

/-- What is packed, in the order of the walk. -/
def Staging.members (staging : Staging) : List Member :=
  (walk staging.items).map fun source =>
    ⟨source.path, match source.item with | .file _ _ => true | _ => false⟩

/-- How many regular files the lint counts under the licences directory. -/
def licensesCount (licensesDir : String) (members : List Member) : Nat :=
  members.countP fun entry => entry.parts.head? = some licensesDir && entry.isreg

/-! ## Which files are found -/

/-- That a file stands below a directory, through these folders. -/
inductive Below : List Item → List String → String → Bytes → Prop
  | here {items : List Item} {name : String} {content : Bytes}
      (member : .file name content ∈ items) : Below items [] name content
  | deeper {items entries : List Item} {folder name : String} {parents : List String}
      {content : Bytes} (member : .folder folder entries ∈ items)
      (below : Below entries parents name content) : Below items (folder :: parents) name content

/-- That a file of a repository is a licence file: it is in the root and a pattern matches its
name, or it is somewhere below the folder `licenses`. -/
inductive Repo.Ships (host : Host) (repo : Repo) : License → Prop
  | root {pattern name : String} {content : Bytes} (listed : pattern ∈ licenseGlobs)
      (fits : fnmatch (host.pathName pattern).toList (host.pathName name).toList = true)
      (member : .file name content ∈ repo.entries) : Ships host repo ⟨[], name, content⟩
  | folder {entries : List Item} {parents : List String} {name : String} {content : Bytes}
      (there : host.folder? repo.entries "licenses" = some entries)
      (below : Below entries parents name content) :
      Ships host repo ⟨"licenses" :: parents, name, content⟩

section Found

variable {host : Host} {repo : Repo} {parents : List String} {name : String} {content : Bytes}
  {sources : List Source}

theorem mem_licenses {license : License} : license ∈ licenses sources ↔
    ⟨license.parents, .file license.name license.content⟩ ∈ sources := by
  rw [licenses, List.mem_filterMap]
  constructor
  · rintro ⟨⟨parents, item⟩, member, found⟩
    cases item with
    | file name content =>
        obtain rfl := Option.some.inj found
        exact member
    | folder name entries => cases found
    | other name => cases found
  · exact fun member => ⟨_, member, rfl⟩

@[simp] theorem mem_sorted {source : Source} : source ∈ host.sorted sources ↔ source ∈ sources :=
  List.mem_insertionSort _

mutual
/-- A file that the walk finds inside an entry stands in the entries of a folder. -/
theorem below_of_mem_inside : ∀ {item : Item} {parents : List String},
    ⟨parents, .file name content⟩ ∈ item.inside →
      ∃ entries, item = .folder item.name entries ∧ Below entries parents name content
  | .file _ _, _, member => nomatch member
  | .other _, _, member => nomatch member
  | .folder _ entries, _, member => ⟨entries, rfl, below_of_mem_walk member⟩

theorem below_of_mem_walk : ∀ {items : List Item} {parents : List String},
    ⟨parents, .file name content⟩ ∈ walk items → Below items parents name content
  | [], _, member => nomatch member
  | item :: rest, parents, member => by
      rw [walk, List.mem_append, List.mem_cons, List.mem_map] at member
      rcases member with (first | ⟨⟨folders, found⟩, member, same⟩) | later
      · injection first with none this
        rw [none]
        exact .here (this ▸ List.mem_cons_self)
      · injection same with through this
        subst through this
        obtain ⟨entries, folder, below⟩ := below_of_mem_inside member
        exact .deeper (folder ▸ List.mem_cons_self) below
      · cases below_of_mem_walk later with
        | here member => exact .here (List.mem_cons_of_mem _ member)
        | deeper member below => exact .deeper (List.mem_cons_of_mem _ member) below
end

theorem mem_walk_of_mem {item : Item} {items : List Item} (member : item ∈ items) :
    ⟨[], item⟩ ∈ walk items ∧
      ∀ source ∈ item.inside, source.under item.name ∈ walk items := by
  induction items with
  | nil => cases member
  | cons first rest ih =>
      simp only [walk, List.mem_append, List.mem_cons, List.mem_map]
      rcases List.mem_cons.mp member with rfl | later
      · exact ⟨.inl (.inl rfl), fun source inside => .inl (.inr ⟨source, inside, rfl⟩)⟩
      · exact ⟨.inr (ih later).1, fun source inside => .inr ((ih later).2 source inside)⟩

/-- The walk finds the files below a directory, all of them and no others. -/
theorem mem_walk {items : List Item} :
    ⟨parents, .file name content⟩ ∈ walk items ↔ Below items parents name content := by
  refine ⟨below_of_mem_walk, fun below => ?_⟩
  induction below with
  | here member => exact (mem_walk_of_mem member).1
  | deeper member _ ih =>
      refine (mem_walk_of_mem member).2 ⟨_, _⟩ ?_
      rw [Item.inside]
      exact ih

/-- The files that are copied are the licence files of the repository. -/
theorem mem_licenseFiles {license : License} :
    license ∈ licenseFiles host repo ↔ repo.Ships host license := by
  rw [licenseFiles, List.mem_append, List.mem_flatMap]
  constructor
  · rintro (⟨pattern, listed, found⟩ | found)
    · rw [mem_licenses, mem_sorted, Repo.glob, List.mem_map] at found
      obtain ⟨item, matched, same⟩ := found
      obtain ⟨member, fits⟩ := List.mem_filter.mp matched
      obtain ⟨parents, name, content⟩ := license
      injection same with top file
      subst top file
      exact .root listed fits member
    · cases there : host.folder? repo.entries "licenses" with
      | none => rw [there] at found; cases found
      | some entries =>
          rw [there] at found
          rw [mem_licenses, mem_sorted, List.mem_map] at found
          obtain ⟨⟨parents, item⟩, member, same⟩ := found
          obtain ⟨folders, name, content⟩ := license
          injection same with through file
          dsimp only at file
          subst through file
          exact .folder there (mem_walk.mp member)
  · intro ships
    cases ships with
    | root listed fits member =>
        refine .inl ⟨_, listed, ?_⟩
        rw [mem_licenses, mem_sorted]
        exact List.mem_map.mpr ⟨_, List.mem_filter.mpr ⟨member, fits⟩, rfl⟩
    | folder there below =>
        right
        rw [there]
        refine mem_licenses.mpr (mem_sorted.mpr (List.mem_map.mpr ?_))
        exact ⟨_, mem_walk.mpr below, rfl⟩

end Found

/-! ## What is staged -/

section Staged

variable {host : Host} {repo : Repo} {lib : String × Bytes} {name : String}
  {dataEntries : List String} {staging : Staging} {directory : Directory}

/-- A directory as the files under its names, of which the host takes some for the same. -/
def contents (host : Host) (directory : Directory) : Files String := fun key =>
  (directory.find? fun file => host.fileName file.1 = key).map Prod.snd

theorem read_eq (host : Host) (directory : Directory) (name : String) :
    read host directory name = contents host directory (host.fileName name) := rfl

theorem contents_cons (host : Host) (file : String × Bytes) (rest : Directory) :
    contents host (file :: rest) =
      Function.update (contents host rest) (host.fileName file.1) (some file.2) := by
  funext key
  by_cases first : host.fileName file.1 = key
  · subst first
    rw [Function.update_self, contents, List.find?_cons_of_pos (by simp), Option.map_some]
  · rw [Function.update_of_ne (Ne.symm first), contents,
      List.find?_cons_of_neg (by simpa using first), contents]

/-- Copying a file sets what is read under its name. -/
theorem contents_copyfile (host : Host) (directory : Directory) (name : String)
    (content : Bytes) : contents host (copyfile host directory name content) =
      Function.update (contents host directory) (host.fileName name) (some content) := by
  induction directory with
  | nil => exact contents_cons host (name, content) []
  | cons file rest ih =>
      rw [copyfile]
      by_cases same : host.Same file.1 name
      · rw [if_pos same, contents_cons, contents_cons, show host.fileName file.1 = _ from same,
          Function.update_idem]
      · rw [if_neg same, contents_cons, ih, contents_cons,
          Function.update_comm (Ne.symm same)]

theorem contents_copyAll (host : Host) (licenses : List License) :
    ∀ directory, contents host (copyAll host directory licenses) =
      (contents host directory).land
        (licenses.map fun license => (host.fileName license.name, license.content)) := by
  induction licenses with
  | nil => exact fun _ => rfl
  | cons license rest ih =>
      intro directory
      rw [copyAll, List.foldl_cons, List.map_cons, Files.land_cons, ← contents_copyfile]
      exact ih _

theorem copyfile_ne_nil (host : Host) (name : String) (content : Bytes) :
    copyfile host directory name content ≠ [] := by
  cases directory with
  | nil => exact List.cons_ne_nil _ _
  | cons file rest =>
      rw [copyfile]
      split <;> exact List.cons_ne_nil _ _

theorem copyAll_eq_nil {licenses : List License} :
    copyAll host directory licenses = [] ↔ directory = [] ∧ licenses = [] := by
  induction licenses generalizing directory with
  | nil => exact (and_iff_left rfl).symm
  | cons license rest ih =>
      rw [copyAll, List.foldl_cons]
      refine iff_of_false (fun empty => ?_) fun empty => List.cons_ne_nil _ _ empty.2
      exact copyfile_ne_nil host _ _ (ih.mp empty).1

/-- What the packager ends with, if nothing stops it. -/
theorem stage_eq_ok (staged : stage host repo lib name dataEntries = .ok staging) :
    staging.lib = lib ∧ staging.licensesDir = name ++ "_licenses" ∧
      staging.licenses = copyAll host [] (licenseFiles host repo) ∧
      licenseFiles host repo ≠ [] := by
  unfold stage at staged
  dsimp only at staged
  split at staged
  · cases staged
  split at staged
  · cases staged
  case isFalse filled =>
    have found : licenseFiles host repo ≠ [] := fun none =>
      filled (List.isEmpty_iff.mpr (copyAll_eq_nil.mpr ⟨rfl, none⟩))
    split at staged
    · obtain rfl := Except.ok.inj staged
      exact ⟨rfl, rfl, rfl, found⟩
    split at staged
    · cases staged
    split at staged
    · cases staged
    · obtain rfl := Except.ok.inj staged
      exact ⟨rfl, rfl, rfl, found⟩

/-- The lint passes the licences of whatever was staged. -/
theorem licenses_counted (staged : stage host repo lib name dataEntries = .ok staging) :
    0 < licensesCount staging.licensesDir staging.members := by
  obtain ⟨-, -, copied, found⟩ := stage_eq_ok staged
  have filled : staging.licenses ≠ [] := fun empty =>
    found (copyAll_eq_nil.mp (copied.symm.trans empty)).2
  obtain ⟨file, rest, first⟩ := List.exists_cons_of_ne_nil filled
  rw [licensesCount, List.countP_pos_iff]
  refine ⟨⟨[staging.licensesDir, file.1], true⟩, ?_, by simp⟩
  refine List.mem_map.mpr ⟨⟨[staging.licensesDir], .file file.1 file.2⟩, ?_, rfl⟩
  refine mem_walk.mpr (.deeper (List.mem_cons_of_mem _ List.mem_cons_self) (.here ?_))
  exact List.mem_map.mpr ⟨file, first ▸ List.mem_cons_self, rfl⟩

/-- **Staging keeps every licence file** exactly if those with one name agree. Of a repository
that the packager stages, every licence file is read back from the plugin's licences directory,
under its own name and with its own content, exactly if any two of them with the same name have
the same content. -/
theorem every_licence_is_staged (staged : stage host repo lib name dataEntries = .ok staging) :
    (∀ license, repo.Ships host license →
      read host staging.licenses license.name = some license.content) ↔
      ∀ first, repo.Ships host first → ∀ second, repo.Ships host second →
        host.Same first.name second.name → first.content = second.content := by
  obtain ⟨-, -, copied, -⟩ := stage_eq_ok staged
  have keeps := @Files.land_keeps_iff _ _ (contents host [])
    ((licenseFiles host repo).map fun license => (host.fileName license.name, license.content))
  simp only [← contents_copyAll, ← copied, List.forall_mem_map, mem_licenseFiles] at keeps
  exact keeps

end Staged

/-- A repository with two licences, in folders of their own. -/
def twoLibraries : Repo :=
  ⟨"repo", [.folder "licenses"
    [.folder "first" [.file "LICENSE" [1]], .folder "second" [.file "LICENSE" [2]]]]⟩

/-- Of the licences of two libraries the second replaces the first, and the lint sees nothing
wrong. -/
theorem a_licence_is_lost : ∃ staging,
    stage unix twoLibraries ("spu_playback.so", []) "spu" [] = .ok staging ∧
      twoLibraries.Ships unix ⟨["licenses", "first"], "LICENSE", [1]⟩ ∧
      read unix staging.licenses "LICENSE" = some [2] ∧
      licensesCount staging.licensesDir staging.members = 1 :=
  ⟨_, rfl, .folder rfl (.deeper List.mem_cons_self (.here List.mem_cons_self)),
    by decide +kernel, by decide +kernel⟩

/-- A repository with a licence in its root and a notice of a library. -/
def oneLibrary : Repo :=
  ⟨"repo", [.file "LICENSE" [1], .folder "licenses" [.folder "zlib" [.file "NOTICE" [2]]]]⟩

theorem every_licence_is_staged_of_one : ∃ staging,
    stage unix oneLibrary ("spu_playback.so", []) "spu" [] = .ok staging ∧
      read unix staging.licenses "NOTICE" = some [2] := by
  obtain ⟨staging, staged⟩ : ∃ staging,
    stage unix oneLibrary ("spu_playback.so", []) "spu" [] = .ok staging := ⟨_, rfl⟩
  have apart : ∀ first ∈ licenseFiles unix oneLibrary, ∀ second ∈ licenseFiles unix oneLibrary,
      unix.Same first.name second.name → first.content = second.content := by decide +kernel
  simp only [mem_licenseFiles] at apart
  have notice : oneLibrary.Ships unix ⟨["licenses", "zlib"], "NOTICE", [2]⟩ :=
    .folder rfl (.deeper List.mem_cons_self (.here List.mem_cons_self))
  exact ⟨staging, staged, (every_licence_is_staged staged).mpr apart _ notice⟩

end Retrovert.Harness
