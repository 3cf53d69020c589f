import Mathlib.Tactic.MkIffOfInductiveProp
import Retrovert.Harness.Staging
import Retrovert.Library.Fallible

/-!
# The archive of a plugin

What has been staged is packed into an archive: every file and folder of the staging directory,
in the order of their paths, under the path with slashes.

Where no name holds a slash of either kind, the parts of a member's name are the path of what was
packed (`parts_tarInfo`), no two members have one name (`names_packed`), and on the way to a
member stand folders (`folder_mem_walk`).

Whether the archive's format has room for a member is a parameter. That an archive is read back
as it was written, and that compression is undone, is taken for granted.
-/

set_option autoImplicit false

namespace Retrovert.Harness

/-! ## Packing -/

inductive Kind where
  | reg
  | dir
  | other
deriving DecidableEq

/-- A member of an archive, with its header. -/
structure TarInfo where
  name : String
  kind : Kind
  uid : Nat := 0
  gid : Nat := 0
  uname : String := ""
  gname : String := ""
  mode : Nat
  mtime : Int
  content : Bytes := []
deriving DecidableEq

/-- A path as the host writes it. -/
def Host.text (host : Host) : List String → String
  | [] => "."
  | first :: rest => rest.foldl host.join first

/-- The name of a member: the path with slashes. -/
def arcname (text : String) : String :=
  String.ofList (text.toList.map fun char => if char = '\\' then '/' else char)

/-- What stops the packing of what was staged. -/
inductive PackFailure where
  | unsupported (path : String)
  | noRoom (name : String)
deriving DecidableEq

def tarInfo (host : Host) (mtime : Int) (source : Source) : TarInfo :=
  let name := arcname (host.text source.path)
  match source.item with
  | .folder _ _ => { name, kind := .dir, mode := 0o755, mtime }
  | .file _ content => { name, kind := .reg, mode := 0o644, mtime, content }
  | .other _ => { name, kind := .other, mode := 0o644, mtime }

def addfile (host : Host) (room : TarInfo → Bool) (mtime : Int) (source : Source) :
    Except PackFailure TarInfo :=
  let info := tarInfo host mtime source
  if info.kind = .other then .error (.unsupported (host.text source.path))
  else if room info then .ok info
  else .error (.noRoom info.name)

def makeTarZst (host : Host) (room : TarInfo → Bool) (staging : Staging) (mtime : Int) :
    Except PackFailure (List TarInfo) :=
  ((walk staging.items).insertionSort fun first second =>
    host.text first.path ≤ host.text second.path).mapM (addfile host room mtime)

/-! ## Names of members -/

/-- The name of a file or a folder that every host takes for one name. -/
@[mk_iff] structure PlainName (name : String) : Prop where
  filled : name ≠ ""
  notHere : name ≠ "."
  notUp : name ≠ ".."
  slash : '/' ∉ name.toList
  backslash : '\\' ∉ name.toList

instance (name : String) : Decidable (PlainName name) :=
  decidable_of_iff' _ (plainName_iff name)

/-- The names that a member's name is made of. -/
def parts (name : String) : List String := (name.toList.splitOn '/').map String.ofList

/-- The host puts a slash between the names of a path, or a backslash. -/
def Host.Joins (host : Host) : Prop :=
  ∃ separator, (separator = '/' ∨ separator = '\\') ∧ ∀ folder name,
    host.join folder name = folder ++ String.singleton separator ++ name

theorem joins_unix : unix.Joins := ⟨'/', .inl rfl, fun _ _ => rfl⟩

section Names

variable {host : Host} {path : List String}

theorem toList_arcname (text : String) :
    (arcname text).toList = text.toList.map fun char => if char = '\\' then '/' else char :=
  String.toList_ofList

theorem arcname_join (joins : host.Joins) (folder name : String) :
    (arcname (host.join folder name)).toList =
      (arcname folder).toList ++ '/' :: (arcname name).toList := by
  obtain ⟨separator, either, joined⟩ := joins
  simp only [toList_arcname, joined, String.toList_append, String.toList_singleton, List.map_append,
    List.map_cons, List.append_assoc, List.singleton_append]
  rcases either with rfl | rfl <;> rfl

theorem arcname_of_plain {name : String} (plain : PlainName name) : arcname name = name := by
  apply String.ext
  rw [toList_arcname]
  refine (List.map_congr_left fun char member => if_neg ?_).trans (List.map_id _)
  exact fun same => plain.backslash (same ▸ member)

theorem toList_arcname_text (joins : host.Joins) (first : String) (rest : List String) :
    (arcname (host.text (first :: rest))).toList =
      (arcname first).toList ++ rest.flatMap fun part => '/' :: (arcname part).toList := by
  induction rest generalizing first with
  | nil => exact (List.append_nil _).symm
  | cons second rest ih =>
      refine (ih (host.join first second)).trans ?_
      rw [arcname_join joins, List.flatMap_cons, List.append_assoc, List.cons_append]

theorem intercalate_cons {α : Type} (separator : α) (first : List α) (rest : List (List α)) :
    [separator].intercalate (first :: rest) = first ++ rest.flatMap (separator :: ·) := by
  induction rest generalizing first with
  | nil => rw [List.intercalate_singleton, List.flatMap_nil, List.append_nil]
  | cons second rest ih =>
      rw [List.intercalate_cons_cons, ih, List.flatMap_cons, List.append_assoc,
        List.singleton_append, List.cons_append]

/-- The parts of a member's name are the path of what was packed. -/
theorem parts_arcname (joins : host.Joins) (plain : ∀ part ∈ path, PlainName part)
    (filled : path ≠ []) : parts (arcname (host.text path)) = path := by
  obtain ⟨first, rest, rfl⟩ := List.exists_cons_of_ne_nil filled
  have joined : (arcname (host.text (first :: rest))).toList =
      ['/'].intercalate ((first :: rest).map String.toList) := by
    rw [toList_arcname_text joins, List.map_cons, intercalate_cons, List.flatMap_map,
      arcname_of_plain (plain first List.mem_cons_self)]
    refine congrArg _ (List.flatMap_congr fun part member => ?_)
    rw [arcname_of_plain (plain part (List.mem_cons_of_mem _ member))]
  rw [parts, joined, List.splitOn_intercalate '/' ?_ (mt List.map_eq_nil_iff.mp filled),
    List.map_map]
  · exact (List.map_congr_left fun part _ => String.ofList_toList).trans (List.map_id _)
  · exact List.forall_mem_map.mpr fun part member => (plain part member).slash

end Names

/-! ## What stands where -/

/-- The entries of a directory that can be told apart, and so can the names on the way to them. -/
structure PlainTree (items : List Item) : Prop where
  names : ∀ source ∈ walk items, PlainName source.item.name
  apart : ((walk items).map Source.path).Nodup

section Walks

variable {items entries : List Item} {source : Source} {folder : String}

theorem walk_eq_flatMap (items : List Item) : walk items =
    items.flatMap fun item => ⟨[], item⟩ :: item.inside.map (Source.under item.name) := by
  induction items with
  | nil => rw [walk, List.flatMap_nil]
  | cons item rest ih => rw [walk, ih, List.flatMap_cons]

theorem Source.path_ne_nil (source : Source) : source.path ≠ [] :=
  List.append_ne_nil_of_right_ne_nil _ (List.cons_ne_nil _ _)

theorem Source.path_under (source : Source) (folder : String) :
    (source.under folder).path = folder :: source.path := rfl

theorem mem_walk_iff : source ∈ walk items ↔ (∃ item ∈ items, source = ⟨[], item⟩) ∨
    ∃ folder entries, .folder folder entries ∈ items ∧
      ∃ inner ∈ walk entries, source = inner.under folder := by
  rw [walk_eq_flatMap, List.mem_flatMap]
  constructor
  · rintro ⟨item, member, found⟩
    rcases List.mem_cons.mp found with top | inside
    · exact .inl ⟨item, member, top⟩
    · obtain ⟨inner, within, same⟩ := List.mem_map.mp inside
      cases item with
      | file name content | other name => simp [Item.inside] at within
      | folder name entries =>
          rw [Item.inside] at within
          exact .inr ⟨name, entries, member, inner, within, same.symm⟩
  · rintro (⟨item, member, rfl⟩ | ⟨folder, entries, member, inner, within, rfl⟩)
    · exact ⟨item, member, List.mem_cons_self⟩
    · refine ⟨_, member, List.mem_cons_of_mem _ (List.mem_map.mpr ⟨inner, ?_, rfl⟩)⟩
      rwa [Item.inside]

theorem mem_walk_under (member : .folder folder entries ∈ items) (within : source ∈ walk entries) :
    source.under folder ∈ walk items :=
  mem_walk_iff.mpr (.inr ⟨folder, entries, member, source, within, rfl⟩)

/-- A path begins with an entry at the top. -/
theorem head_mem_walk {top : String} :
    (∃ source ∈ walk items, source.path.headD "" = top) ↔ top ∈ items.map Item.name := by
  rw [List.mem_map]
  constructor
  · rintro ⟨source, member, rfl⟩
    rcases mem_walk_iff.mp member with ⟨item, listed, rfl⟩ | ⟨_, _, listed, inner, -, rfl⟩
    · exact ⟨item, listed, rfl⟩
    · exact ⟨_, listed, rfl⟩
  · rintro ⟨item, listed, rfl⟩
    exact ⟨⟨[], item⟩, mem_walk_iff.mpr (.inl ⟨item, listed, rfl⟩), rfl⟩

/-- A longer path goes on in the folder that it begins with. -/
theorem second_mem_walk {entry : String} :
    (∃ source ∈ walk items, ∃ rest, source.path = folder :: entry :: rest) ↔
      ∃ entries, .folder folder entries ∈ items ∧ entry ∈ entries.map Item.name := by
  constructor
  · rintro ⟨source, member, rest, path⟩
    rcases mem_walk_iff.mp member with ⟨item, -, rfl⟩ | ⟨_, entries, listed, inner, within, rfl⟩
    · cases path
    · rw [Source.path_under, List.cons.injEq] at path
      obtain ⟨rfl, path⟩ := path
      exact ⟨entries, listed, head_mem_walk.mp ⟨inner, within, by rw [path]; rfl⟩⟩
  · rintro ⟨entries, listed, named⟩
    obtain ⟨item, member, rfl⟩ := List.mem_map.mp named
    have within : ⟨[], item⟩ ∈ walk entries := mem_walk_iff.mpr (.inl ⟨item, member, rfl⟩)
    exact ⟨⟨[folder], item⟩, mem_walk_under listed within, [], rfl⟩

/-- On the way to an entry stand folders. -/
theorem folder_mem_walk {place : List String} (member : source ∈ walk items)
    (before : place <+: source.path) (filled : place ≠ []) (short : place ≠ source.path) :
    ∃ other ∈ walk items, other.path = place ∧
      ∃ name entries, other.item = .folder name entries := by
  induction place generalizing items source with
  | nil => exact absurd rfl filled
  | cons first rest ih =>
      rcases mem_walk_iff.mp member with ⟨item, -, rfl⟩ | ⟨_, entries, listed, inner, within, rfl⟩
      · -- nothing stands on the way to an entry at the top
        obtain ⟨rfl, none⟩ := List.cons_prefix_cons.mp before
        exact absurd (congrArg _ (List.prefix_nil.mp none)) short
      · obtain ⟨rfl, before⟩ := List.cons_prefix_cons.mp before
        by_cases last : rest = []
        · subst last
          have top := mem_walk_iff.mpr (.inl ⟨_, listed, rfl⟩)
          exact ⟨⟨[], .folder first entries⟩, top, rfl, first, entries, rfl⟩
        · obtain ⟨other, found, same, folder⟩ :=
            ih within before last fun whole => short (congrArg _ whole)
          exact ⟨_, mem_walk_under listed found, congrArg _ same, folder⟩

/-- Every name on the way to an entry is the name of an entry. -/
theorem exists_name_eq {part : String} (member : source ∈ walk items)
    (within : part ∈ source.path) : ∃ other ∈ walk items, other.item.name = part := by
  obtain ⟨parents, item⟩ := source
  induction parents generalizing items with
  | nil =>
      cases List.mem_singleton.mp within
      exact ⟨_, member, rfl⟩
  | cons parent parents ih =>
      rcases mem_walk_iff.mp member with ⟨_, -, same⟩ | ⟨_, entries, listed, inner, found, same⟩
      · cases same
      · rw [Source.under, Source.mk.injEq, List.cons.injEq] at same
        obtain ⟨⟨rfl, rfl⟩, rfl⟩ := same
        rcases List.mem_cons.mp within with rfl | within
        · exact ⟨⟨[], .folder part entries⟩, mem_walk_iff.mpr (.inl ⟨_, listed, rfl⟩), rfl⟩
        · obtain ⟨other, found, same⟩ := ih found within
          exact ⟨other.under _, mem_walk_under listed found, same⟩

theorem PlainTree.plain_path (plain : PlainTree items) (member : source ∈ walk items) :
    ∀ part ∈ source.path, PlainName part := by
  intro part within
  obtain ⟨other, found, rfl⟩ := exists_name_eq member within
  exact plain.names other found

/-- What stands in a folder can be told apart, too. -/
theorem PlainTree.inside (plain : PlainTree items) (listed : .folder folder entries ∈ items) :
    PlainTree entries where
  names source member := plain.names (source.under folder) (mem_walk_under listed member)
  apart := by
    have within : ((walk entries).map (Source.under folder)).Sublist (walk items) := by
      rw [walk_eq_flatMap items, List.flatMap_def]
      refine List.Sublist.trans ?_ (List.sublist_flatten_of_mem (List.mem_map_of_mem listed))
      rw [Item.inside]
      exact List.sublist_cons_self ..
    have apart := plain.apart.sublist (within.map Source.path)
    rw [List.map_map] at apart
    refine List.Nodup.of_map (List.cons folder) ?_
    rw [List.map_map]
    exact apart

theorem head?_of_mem_inside {item : Item} {place : List String} (member :
      place ∈ (⟨[], item⟩ :: item.inside.map (Source.under item.name)).map Source.path) :
    place.head? = some item.name := by
  obtain ⟨source, found, rfl⟩ := List.mem_map.mp member
  rcases List.mem_cons.mp found with rfl | found
  · rfl
  · obtain ⟨inner, -, rfl⟩ := List.mem_map.mp found
    rfl

/-- The entries of a directory can be told apart if they have different names, and so for each of
its folders. -/
theorem PlainTree.of_items (names : ∀ item ∈ items, PlainName item.name)
    (apart : (items.map Item.name).Nodup)
    (inside : ∀ folder entries, .folder folder entries ∈ items → PlainTree entries) :
    PlainTree items where
  names source member := by
    rcases mem_walk_iff.mp member with ⟨item, listed, rfl⟩ | ⟨_, _, listed, inner, within, rfl⟩
    · exact names item listed
    · exact (inside _ _ listed).names inner within
  apart := by
    rw [walk_eq_flatMap, List.map_flatMap, List.nodup_flatMap]
    constructor
    · intro item listed
      rw [List.map_cons, List.nodup_cons, List.map_map]
      constructor
      · intro again
        obtain ⟨inner, -, same⟩ := List.mem_map.mp again
        exact inner.path_ne_nil (List.cons.inj same).2
      · cases item with
        | file name content | other name => exact .nil
        | folder name entries =>
            rw [Item.inside]
            have apart := (inside name entries listed).apart.map (f := List.cons name)
              List.cons_injective
            rwa [List.map_map] at apart
    · refine (List.pairwise_map.mp apart).imp fun differ => ?_
      intro place here there
      exact differ (Option.some.inj ((head?_of_mem_inside here).symm.trans
        (head?_of_mem_inside there)))

end Walks

/-! ## What is staged can be told apart -/

section Staged

variable {host : Host} {repo : Repo} {lib : String × Bytes} {name : String}
  {dataEntries : List String} {staging : Staging}

theorem mem_of_folder? {items entries : List Item} {name : String}
    (found : host.folder? items name = some entries) :
    ∃ folder, .folder folder entries ∈ items := by
  unfold Host.folder? at found
  split at found
  case h_1 folder _ first =>
    cases found
    exact ⟨folder, List.mem_of_find?_eq_some first⟩
  case h_2 => cases found

/-- The data that is staged is the plugin's data folder, if the plugin declares some. -/
theorem stage_data (staged : stage host repo lib name dataEntries = .ok staging) :
    lib.1 ≠ name ++ "_licenses" ∧
      (dataEntries = [] ∧ staging.data = none ∨
        dataEntries ≠ [] ∧ lib.1 ≠ name ++ "_data" ∧ ∃ folder entries,
          .folder folder entries ∈ repo.entries ∧
            staging.data = some (name ++ "_data", entries)) := by
  have same {first second : String} (differs : ¬host.Same first second) : first ≠ second :=
    fun same => differs (congrArg _ same)
  unfold stage at staged
  dsimp only at staged
  split at staged
  · cases staged
  case isFalse licenses =>
    refine ⟨same licenses, ?_⟩
    split at staged
    · cases staged
    split at staged
    case isTrue none =>
      cases staged
      exact .inl ⟨List.isEmpty_iff.mp none, rfl⟩
    case isFalse some =>
      split at staged
      · cases staged
      case h_2 entries found =>
        split at staged
        · cases staged
        case isFalse data =>
          cases staged
          refine .inr ⟨fun none => some (List.isEmpty_iff.mpr none), same data, ?_⟩
          obtain ⟨folder, listed⟩ := mem_of_folder? found
          exact ⟨folder, entries, listed, rfl⟩

theorem names_copyfile (host : Host) (directory : Directory) (name : String) (content : Bytes) :
    (copyfile host directory name content).map Prod.fst = directory.map Prod.fst ∨
      name ∉ directory.map Prod.fst ∧
        (copyfile host directory name content).map Prod.fst = directory.map Prod.fst ++ [name] := by
  induction directory with
  | nil => exact .inr ⟨List.not_mem_nil, rfl⟩
  | cons file rest ih =>
      rw [copyfile]
      split
      · exact .inl rfl
      case isFalse differs =>
        simp only [List.map_cons, List.mem_cons, List.cons_append, List.cons.injEq, true_and]
        refine ih.imp_right fun added => ⟨?_, added.2⟩
        exact not_or.mpr ⟨fun same => differs (congrArg _ same.symm), added.1⟩

/-- Copying keeps the names of a directory apart, and adds none but those that are copied. -/
theorem names_copyAll (host : Host) (licenses : List License) (directory : Directory)
    (apart : (directory.map Prod.fst).Nodup) :
    ((copyAll host directory licenses).map Prod.fst).Nodup ∧
      ∀ name ∈ (copyAll host directory licenses).map Prod.fst,
        name ∈ directory.map Prod.fst ∨ name ∈ licenses.map License.name := by
  induction licenses generalizing directory with
  | nil => exact ⟨apart, fun _ => .inl⟩
  | cons license rest ih =>
      rw [copyAll, List.foldl_cons]
      rcases names_copyfile host directory license.name license.content with same | ⟨fresh, added⟩
      · obtain ⟨nodup, only⟩ := ih _ (same ▸ apart)
        refine ⟨nodup, fun name member => ?_⟩
        rcases only name member with before | later
        · exact .inl (same ▸ before)
        · exact .inr (List.mem_cons_of_mem _ later)
      · have one_more := (List.perm_append_singleton license.name _).nodup_iff.mpr
          (List.nodup_cons.mpr ⟨fresh, apart⟩)
        obtain ⟨nodup, only⟩ := ih _ (added ▸ one_more)
        refine ⟨nodup, fun name member => ?_⟩
        rcases only name member with before | later
        · rw [added] at before
          rcases List.mem_append.mp before with before | here
          · exact .inl before
          · exact .inr (List.mem_singleton.mp here ▸ List.mem_cons_self)
        · exact .inr (List.mem_cons_of_mem _ later)

/-- A licence file stands somewhere in the repository. -/
theorem Repo.Ships.mem_walk {license : License} (ships : repo.Ships host license) :
    ∃ parents, ⟨parents, .file license.name license.content⟩ ∈ walk repo.entries := by
  cases ships with
  | root _ _ member => exact ⟨_, Harness.mem_walk.mpr (.here member)⟩
  | folder there below =>
      obtain ⟨folder, listed⟩ := mem_of_folder? there
      exact ⟨_, Harness.mem_walk.mpr (.deeper listed below)⟩

theorem PlainName.append {suffix : String} (plain : PlainName name) (score : '_' ∈ suffix.toList)
    (slash : '/' ∉ suffix.toList) (backslash : '\\' ∉ suffix.toList) :
    PlainName (name ++ suffix) := by
  have holds : '_' ∈ (name ++ suffix).toList := by
    rw [String.toList_append]
    exact List.mem_append_right _ score
  constructor
  · intro same
    rw [same] at holds
    exact absurd holds (by decide)
  · intro same
    rw [same] at holds
    exact absurd holds (by decide)
  · intro same
    rw [same] at holds
    exact absurd holds (by decide)
  · rw [String.toList_append, List.mem_append]
    exact not_or.mpr ⟨plain.slash, slash⟩
  · rw [String.toList_append, List.mem_append]
    exact not_or.mpr ⟨plain.backslash, backslash⟩

/-- What is staged from a plain repository can be told apart. -/
theorem plainTree_stage (plainRepo : PlainTree repo.entries) (plainName : PlainName name)
    (plainLib : PlainName lib.1) (staged : stage host repo lib name dataEntries = .ok staging) :
    PlainTree staging.items := by
  obtain ⟨same, folder, copied, -⟩ := stage_eq_ok staged
  obtain ⟨notLicenses, data⟩ := stage_data staged
  have apart := names_copyAll host (licenseFiles host repo) [] .nil
  rw [← copied] at apart
  have plainLicenses : PlainTree (staging.licenses.map fun file => .file file.1 file.2) := by
    refine .of_items ?_ ?_ ?_
    · intro item listed
      obtain ⟨file, member, rfl⟩ := List.mem_map.mp listed
      obtain ⟨license, found, same⟩ := List.mem_map.mp
        ((apart.2 file.1 (List.mem_map_of_mem member)).resolve_left List.not_mem_nil)
      obtain ⟨parents, within⟩ := (mem_licenseFiles.mp found).mem_walk
      exact same ▸ plainRepo.names _ within
    · rw [List.map_map]
      exact apart.1
    · intro folder entries listed
      obtain ⟨file, -, same⟩ := List.mem_map.mp listed
      cases same
  have licensesName : PlainName (name ++ "_licenses") :=
    plainName.append (by decide) (by decide) (by decide)
  have dataName : PlainName (name ++ "_data") :=
    plainName.append (by decide) (by decide) (by decide)
  rw [Staging.items, same, folder]
  rcases data with ⟨-, none⟩ | ⟨-, notData, source, entries, listed, some⟩
  · rw [none]
    refine .of_items ?_ ?_ ?_
    · simpa [Item.name] using ⟨plainLib, licensesName⟩
    · simpa [Item.name] using notLicenses
    · intro folder entries listed
      simp only [Option.toList_none, List.map_nil, List.mem_cons, reduceCtorEq, Item.folder.injEq,
        List.not_mem_nil, or_false, false_or] at listed
      exact listed.2 ▸ plainLicenses
  · rw [some]
    refine .of_items ?_ ?_ ?_
    · simpa [Item.name] using ⟨plainLib, licensesName, dataName⟩
    · simpa [Item.name] using ⟨notLicenses, notData⟩
    · intro folder entries listed
      simp only [Option.toList_some, List.map_cons, List.map_nil, List.mem_cons, reduceCtorEq,
        Item.folder.injEq, List.not_mem_nil, or_false, false_or] at listed
      rcases listed with ⟨-, rfl⟩ | ⟨-, rfl⟩
      · exact plainLicenses
      · exact plainRepo.inside ‹_›

end Staged

/-! ## What is packed -/

section Packed

variable {host : Host} {room : TarInfo → Bool} {repo : Repo} {lib : String × Bytes} {name : String}
  {dataEntries : List String} {staging : Staging} {mtime : Int} {archive : List TarInfo}
  {source : Source}

theorem addfile_eq_ok {info : TarInfo} (added : addfile host room mtime source = .ok info) :
    info = tarInfo host mtime source ∧ (tarInfo host mtime source).kind ≠ .other := by
  unfold addfile at added
  dsimp only at added
  split at added
  · cases added
  split at added
  case isFalse kind _ =>
    cases added
  case isTrue kind _ =>
    cases added
    exact ⟨rfl, kind⟩

/-- An archive holds what was staged, each entry once. -/
theorem makeTarZst_eq_ok (packed : makeTarZst host room staging mtime = .ok archive) :
    archive.Perm ((walk staging.items).map (tarInfo host mtime)) ∧
      ∀ source ∈ walk staging.items, (tarInfo host mtime source).kind ≠ .other := by
  obtain ⟨rfl, all⟩ := Fallible.mapM_eq_ok (fun source info added => (addfile_eq_ok added).1) packed
  refine ⟨(List.perm_insertionSort ..).map _, fun source member => ?_⟩
  exact (addfile_eq_ok (all source ((List.mem_insertionSort _).mpr member))).2

theorem tarInfo_name (source : Source) :
    (tarInfo host mtime source).name = arcname (host.text source.path) := by
  unfold tarInfo
  dsimp only
  split <;> rfl

variable (joins : host.Joins) (plain : PlainTree staging.items)
  (packed : makeTarZst host room staging mtime = .ok archive)

include joins plain

theorem parts_tarInfo (member : source ∈ walk staging.items) :
    parts (tarInfo host mtime source).name = source.path := by
  rw [tarInfo_name]
  exact parts_arcname joins (plain.plain_path member) source.path_ne_nil

include packed

/-- No two members have one name. -/
theorem names_packed : (archive.map TarInfo.name).Nodup := by
  obtain ⟨members, -⟩ := makeTarZst_eq_ok packed
  refine (members.map TarInfo.name).nodup_iff.mpr (List.Nodup.of_map parts ?_)
  rw [List.map_map, List.map_map]
  have same : ∀ source ∈ walk staging.items,
      ((parts ∘ TarInfo.name) ∘ tarInfo host mtime) source = source.path :=
    fun source member => parts_tarInfo joins plain member
  rw [List.map_congr_left same]
  exact plain.apart

theorem exists_packed (holds : List String → Prop) :
    (∃ info ∈ archive, holds (parts info.name)) ↔
      ∃ source ∈ walk staging.items, holds source.path := by
  obtain ⟨members, -⟩ := makeTarZst_eq_ok packed
  constructor
  · rintro ⟨info, member, found⟩
    obtain ⟨source, within, rfl⟩ := List.mem_map.mp (members.mem_iff.mp member)
    exact ⟨source, within, parts_tarInfo joins plain within ▸ found⟩
  · rintro ⟨source, within, found⟩
    refine ⟨_, members.mem_iff.mpr (List.mem_map_of_mem within), ?_⟩
    rwa [parts_tarInfo joins plain within]

end Packed

end Retrovert.Harness
