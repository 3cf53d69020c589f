import Mathlib.Data.List.Dedup
import Retrovert.Harness.Archive

/-!
# The lint of an archive

A finished archive is read back and checked: each member by itself, that no two have one name,
and that what stands at the top is the library, the licences and the data that the plugin
declares.

Whatever is packed passes the checks on its members. It passes the lint as a whole exactly if the
library has the name of the plugin and the target, and the declared entries are what the data
folder holds (`packed_passes_iff`).

How the language writes a list of names down is a parameter.
-/

set_option autoImplicit false

namespace Retrovert.Harness

/-! ## The lint -/

inductive Target where
  | linuxX86_64
  | linuxArm64
  | windowsX86_64
deriving DecidableEq

def Target.libSuffix : Target → String
  | .linuxX86_64 | .linuxArm64 => ".so"
  | .windowsX86_64 => ".dll"

/-- What the lint fails with. -/
inductive LintError where
  | kind (name : String)
  | relative (name : String)
  | duplicate (name : String)
  | owner (name : String)
  | mode (name : String) (found expected : Nat)
  | mtimes (found : List Int)
  | unexpected (entries : List String)
  | noLibrary (libName : String)
  | noLicenses (licensesDir : String)
  | missing (entries : List String)
  | undeclared (entries : List String)
deriving DecidableEq

/-- A number as the language writes it in octal. -/
def oct (mode : Nat) : String := "0o" ++ String.ofList (Nat.toDigits 8 mode)

def LintError.text (repr : List String → String) : LintError → String
  | .kind name => name ++ ": only regular files and directories are allowed"
  | .relative name => name ++ ": paths must be relative with no '..'"
  | .duplicate name => name ++ ": duplicate entry"
  | .owner name => name ++ ": owner not normalized to 0/0"
  | .mode name found expected =>
      name ++ ": mode " ++ oct found ++ ", expected " ++ oct expected
  | .mtimes found => "mtimes are not uniform: " ++ toString found
  | .unexpected entries => "unexpected top-level entries: " ++ repr entries
  | .noLibrary libName => libName ++ " missing from archive root"
  | .noLicenses licensesDir => licensesDir ++ "/ is missing or empty"
  | .missing entries =>
      "harness.toml declares data entries missing from archive: " ++ repr entries
  | .undeclared entries => "archive ships undeclared data entries: " ++ repr entries

/-- The sets and the count of the members that have been looked at. -/
structure Seen where
  seen : List String := []
  topLevel : List String := []
  dataTopLevel : List String := []
  licensesCount : Nat := 0
  mtimes : List Int := []

def TarInfo.isRelative (info : TarInfo) : Bool :=
  info.name.toList.head? != some '/' && info.name.toList.head? != some '\\' &&
    !(parts info.name).contains ".."

def TarInfo.expectedMode (info : TarInfo) : Nat := if info.kind = .dir then 0o755 else 0o644

/-- The entry of the data folder that a member belongs to. -/
def TarInfo.dataEntry (dataDir : String) (info : TarInfo) : Option String :=
  match parts info.name with
  | first :: second :: _ => if first = dataDir then some second else none
  | _ => none

def Seen.note (licensesDir dataDir : String) (state : Seen) (info : TarInfo) : Seen where
  seen := state.seen.insert info.name
  topLevel := state.topLevel.insert ((parts info.name).headD "")
  dataTopLevel :=
    (info.dataEntry dataDir).elim state.dataTopLevel state.dataTopLevel.insert
  licensesCount :=
    if (parts info.name).head? = some licensesDir ∧ info.kind = .reg then state.licensesCount + 1
    else state.licensesCount
  mtimes := state.mtimes.insert info.mtime

def checkMember (licensesDir dataDir : String) (state : Seen) (info : TarInfo) :
    Except LintError Seen :=
  if info.kind ≠ .reg ∧ info.kind ≠ .dir then .error (.kind info.name)
  else if !info.isRelative then .error (.relative info.name)
  else if info.name ∈ state.seen then .error (.duplicate info.name)
  else if info.uid ≠ 0 ∨ info.gid ≠ 0 ∨ info.uname ≠ "" ∨ info.gname ≠ "" then
    .error (.owner info.name)
  else if info.mode ≠ info.expectedMode then
    .error (.mode info.name info.mode info.expectedMode)
  else .ok (state.note licensesDir dataDir info)

/-- The names of a set that are not in another, in order. -/
def difference (names others : List String) : List String :=
  (names.filter (· ∉ others)).dedup.insertionSort (· ≤ ·)

/-- The checks on the sets, once every member has been looked at. -/
def checkLayout (libName licensesDir dataDir : String) (dataEntries : List String) (state : Seen) :
    Except LintError Nat :=
  let allowed := libName :: licensesDir :: if dataEntries = [] then [] else [dataDir]
  if 1 < state.mtimes.length then .error (.mtimes (state.mtimes.insertionSort (· ≤ ·)))
  else if difference state.topLevel allowed ≠ [] then
    .error (.unexpected (difference state.topLevel allowed))
  else if libName ∉ state.topLevel then .error (.noLibrary libName)
  else if state.licensesCount = 0 then .error (.noLicenses licensesDir)
  else if difference dataEntries state.dataTopLevel ≠ [] then
    .error (.missing (difference dataEntries state.dataTopLevel))
  else if difference state.dataTopLevel dataEntries ≠ [] then
    .error (.undeclared (difference state.dataTopLevel dataEntries))
  else .ok state.seen.length

/-- The lint of an archive; it returns how many members there are. -/
def check (archive : List TarInfo) (name : String) (target : Target) (dataEntries : List String) :
    Except LintError Nat :=
  archive.foldlM (checkMember (name ++ "_licenses") (name ++ "_data")) {} >>=
    checkLayout (name ++ "_playback" ++ target.libSuffix) (name ++ "_licenses") (name ++ "_data")
      dataEntries

/-! ## What passes -/

section Passing

variable {licensesDir dataDir libName : String} {dataEntries : List String} {state last : Seen}
  {archive : List TarInfo}

/-- What the lint asks of a member by itself. -/
structure TarInfo.Normal (info : TarInfo) : Prop where
  kind : info.kind = .reg ∨ info.kind = .dir
  relative : info.isRelative = true
  owner : info.uid = 0 ∧ info.gid = 0 ∧ info.uname = "" ∧ info.gname = ""
  mode : info.mode = info.expectedMode

theorem checkMember_eq_ok {info : TarInfo} :
    checkMember licensesDir dataDir state info = .ok last ↔
      info.Normal ∧ info.name ∉ state.seen ∧ last = state.note licensesDir dataDir info := by
  unfold checkMember
  split
  case isTrue special =>
    refine iff_of_false nofun fun passes => ?_
    exact passes.1.kind.elim special.1 special.2
  split
  case isTrue absolute =>
    refine iff_of_false nofun fun passes => ?_
    rw [passes.1.relative] at absolute
    cases absolute
  split
  case isTrue again => exact iff_of_false nofun fun passes => passes.2.1 again
  split
  case isTrue owned =>
    refine iff_of_false nofun fun passes => ?_
    obtain ⟨uid, gid, uname, gname⟩ := passes.1.owner
    exact owned.elim (· uid) (·.elim (· gid) (·.elim (· uname) (· gname)))
  split
  case isTrue differs => exact iff_of_false nofun fun passes => differs passes.1.mode
  case isFalse kind relative fresh owner mode =>
    rw [Except.ok.injEq]
    refine ⟨fun same => ⟨⟨?_, by simpa using relative, ?_, not_not.mp mode⟩, fresh, same.symm⟩,
      fun passes => passes.2.2.symm⟩
    · rwa [not_and_or, not_not, not_not] at kind
    · simpa only [not_or, not_not] using owner

/-- The lint goes through the members if each is normal and no two have one name. -/
theorem checkMembers_eq_ok :
    archive.foldlM (checkMember licensesDir dataDir) state = .ok last ↔
      (∀ info ∈ archive, info.Normal ∧ info.name ∉ state.seen) ∧
        (archive.map TarInfo.name).Nodup ∧
        last = archive.foldl (Seen.note licensesDir dataDir) state := by
  induction archive generalizing state with
  | nil =>
      rw [List.foldlM_nil]
      exact ⟨fun same => ⟨nofun, .nil, (Except.ok.inj same).symm⟩, fun all => all.2.2 ▸ rfl⟩
  | cons first rest ih =>
      simp only [List.foldlM_cons, Fallible.bind_eq_ok, checkMember_eq_ok, ih, List.forall_mem_cons,
        List.map_cons, List.nodup_cons, List.foldl_cons]
      constructor
      · rintro ⟨_, ⟨normal, fresh, rfl⟩, others, apart, same⟩
        refine ⟨⟨⟨normal, fresh⟩, fun info member => ⟨(others info member).1, fun seen => ?_⟩⟩,
          ⟨fun again => ?_, apart⟩, same⟩
        · exact (others info member).2 (List.mem_insert_of_mem seen)
        · obtain ⟨info, member, same⟩ := List.mem_map.mp again
          exact (others info member).2 (same ▸ List.mem_insert_self)
      · rintro ⟨⟨⟨normal, fresh⟩, others⟩, ⟨once, apart⟩, same⟩
        refine ⟨_, ⟨normal, fresh, rfl⟩, fun info member => ⟨(others info member).1, ?_⟩, apart,
          same⟩
        intro seen
        rcases List.mem_insert_iff.mp seen with same | seen
        · exact once (same ▸ List.mem_map_of_mem member)
        · exact (others info member).2 seen

theorem difference_eq_nil {names others : List String} :
    difference names others = [] ↔ ∀ name ∈ names, name ∈ others := by
  rw [difference, ← List.length_eq_zero_iff, List.length_insertionSort, List.length_eq_zero_iff,
    List.dedup_eq_nil, List.filter_eq_nil_iff]
  simp

theorem checkLayout_eq_ok {count : Nat} :
    checkLayout libName licensesDir dataDir dataEntries state = .ok count ↔
      state.mtimes.length ≤ 1 ∧
      (∀ top ∈ state.topLevel, top = libName ∨ top = licensesDir ∨
        top = dataDir ∧ dataEntries ≠ []) ∧
      libName ∈ state.topLevel ∧ state.licensesCount ≠ 0 ∧
      (∀ entry, entry ∈ dataEntries ↔ entry ∈ state.dataTopLevel) ∧
      count = state.seen.length := by
  have allowed : ∀ top, (top ∈ libName :: licensesDir :: if dataEntries = [] then [] else [dataDir])
      ↔ top = libName ∨ top = licensesDir ∨ top = dataDir ∧ dataEntries ≠ [] := by
    intro top
    by_cases none : dataEntries = [] <;> simp [none]
  simp only [← allowed, ← difference_eq_nil]
  unfold checkLayout
  generalize (libName :: licensesDir :: if dataEntries = [] then [] else [dataDir]) = known
  dsimp only
  split
  case isTrue many => exact iff_of_false nofun fun passes => by omega
  split
  case isTrue more => exact iff_of_false nofun fun passes => more passes.2.1
  split
  case isTrue none => exact iff_of_false nofun fun passes => none passes.2.2.1
  split
  case isTrue none => exact iff_of_false nofun fun passes => passes.2.2.2.1 none
  split
  case isTrue missing =>
    refine iff_of_false nofun fun passes => missing ?_
    exact difference_eq_nil.mpr fun entry => (passes.2.2.2.2.1 entry).mp
  split
  case isTrue undeclared =>
    refine iff_of_false nofun fun passes => undeclared ?_
    exact difference_eq_nil.mpr fun entry => (passes.2.2.2.2.1 entry).mpr
  case isFalse few listed there some declared shipped =>
    rw [Except.ok.injEq]
    refine ⟨fun same => ⟨Nat.not_lt.mp few, not_not.mp listed, not_not.mp there, some, ?_,
      same.symm⟩, fun passes => passes.2.2.2.2.2.symm⟩
    intro entry
    exact ⟨difference_eq_nil.mp (not_not.mp declared) entry,
      difference_eq_nil.mp (not_not.mp shipped) entry⟩

/-- A set that some of the members add to. -/
theorem mem_foldl_insert {β : Type} [DecidableEq β] (set : Seen → List β)
    (adds : TarInfo → Option β)
    (noted : ∀ state info, set (state.note licensesDir dataDir info) =
      (adds info).elim (set state) (set state).insert) {element : β} :
    element ∈ set (archive.foldl (Seen.note licensesDir dataDir) state) ↔
      element ∈ set state ∨ ∃ info ∈ archive, adds info = some element := by
  induction archive generalizing state with
  | nil => simp
  | cons first rest ih =>
      rw [List.foldl_cons, ih, noted]
      cases added : adds first with
      | none => simp [added]
      | some other =>
          rw [Option.elim_some, List.mem_insert_iff, List.exists_mem_cons_iff, added,
            Option.some.injEq, eq_comm]
          tauto

theorem mem_topLevel {top : String} :
    top ∈ (archive.foldl (Seen.note licensesDir dataDir) {}).topLevel ↔
      ∃ info ∈ archive, (parts info.name).headD "" = top := by
  rw [mem_foldl_insert Seen.topLevel (fun info => some ((parts info.name).headD ""))
    fun _ _ => rfl]
  simp

theorem dataEntry_eq_some {info : TarInfo} {entry : String} :
    info.dataEntry dataDir = some entry ↔ ∃ rest, parts info.name = dataDir :: entry :: rest := by
  unfold TarInfo.dataEntry
  split
  case h_1 first second rest split =>
    rw [Option.ite_none_right_eq_some, Option.some.injEq, split]
    constructor
    · rintro ⟨rfl, rfl⟩
      exact ⟨rest, rfl⟩
    · rintro ⟨_, same⟩
      cases same
      exact ⟨rfl, rfl⟩
  case h_2 short => exact iff_of_false nofun fun ⟨rest, same⟩ => short _ _ rest same

theorem mem_dataTopLevel {entry : String} :
    entry ∈ (archive.foldl (Seen.note licensesDir dataDir) {}).dataTopLevel ↔
      ∃ info ∈ archive, ∃ rest, parts info.name = dataDir :: entry :: rest := by
  rw [mem_foldl_insert Seen.dataTopLevel (TarInfo.dataEntry dataDir) fun _ _ => rfl]
  simp only [dataEntry_eq_some, List.not_mem_nil, false_or]

theorem licensesCount_foldl :
    (archive.foldl (Seen.note licensesDir dataDir) state).licensesCount =
      state.licensesCount + archive.countP fun info =>
        (parts info.name).head? = some licensesDir ∧ info.kind = .reg := by
  induction archive generalizing state with
  | nil => rfl
  | cons first rest ih =>
      rw [List.foldl_cons, ih, List.countP_cons, Seen.note]
      dsimp only
      simp only [decide_eq_true_eq]
      split <;> omega

/-- Members of one time leave no more than that one. -/
theorem length_mtimes {mtime : Int} (same : ∀ info ∈ archive, info.mtime = mtime)
    (before : state.mtimes = [] ∨ state.mtimes = [mtime]) :
    (archive.foldl (Seen.note licensesDir dataDir) state).mtimes.length ≤ 1 := by
  induction archive generalizing state with
  | nil => rcases before with before | before <;> simp [before]
  | cons first rest ih =>
      refine ih (fun info member => same info (List.mem_cons_of_mem _ member)) (.inr ?_)
      rw [Seen.note]
      dsimp only
      rw [same first List.mem_cons_self]
      rcases before with before | before <;> simp [before]

theorem length_seen (apart : (archive.map TarInfo.name).Nodup)
    (fresh : ∀ info ∈ archive, info.name ∉ state.seen) :
    (archive.foldl (Seen.note licensesDir dataDir) state).seen.length =
      state.seen.length + archive.length := by
  induction archive generalizing state with
  | nil => rfl
  | cons first rest ih =>
      rw [List.map_cons, List.nodup_cons] at apart
      rw [List.foldl_cons, ih apart.2, Seen.note]
      · dsimp only
        rw [List.length_insert_of_not_mem (fresh first List.mem_cons_self), List.length_cons]
        omega
      · intro info member seen
        rcases List.mem_insert_iff.mp seen with same | seen
        · exact apart.1 (same ▸ List.mem_map_of_mem member)
        · exact fresh info (List.mem_cons_of_mem _ member) seen

end Passing

/-! ## What is packed passes -/

section Packed

variable {host : Host} {room : TarInfo → Bool} {repo : Repo} {lib : String × Bytes} {name : String}
  {dataEntries : List String} {staging : Staging} {mtime : Int} {archive : List TarInfo}
  {source : Source} (joins : host.Joins) (plain : PlainTree staging.items)
  (packed : makeTarZst host room staging mtime = .ok archive)

include joins plain

theorem normal_tarInfo (member : source ∈ walk staging.items)
    (kind : (tarInfo host mtime source).kind ≠ .other) : (tarInfo host mtime source).Normal := by
  have relative : (tarInfo host mtime source).isRelative = true := by
    obtain ⟨first, rest, path⟩ := List.exists_cons_of_ne_nil source.path_ne_nil
    have names := plain.plain_path member
    have plainFirst := names first (path ▸ List.mem_cons_self)
    obtain ⟨char, chars, filled⟩ := List.exists_cons_of_ne_nil
      fun empty => plainFirst.filled (String.toList_eq_nil_iff.mp empty)
    have head : (tarInfo host mtime source).name.toList.head? = some char := by
      rw [tarInfo_name, path, toList_arcname_text joins, arcname_of_plain plainFirst, filled]
      rfl
    have slash : char ≠ '/' := fun same => plainFirst.slash (filled ▸ same ▸ List.mem_cons_self)
    have backslash : char ≠ '\\' :=
      fun same => plainFirst.backslash (filled ▸ same ▸ List.mem_cons_self)
    have up : ".." ∉ source.path := fun within => (names _ within).notUp rfl
    simp [TarInfo.isRelative, head, parts_tarInfo joins plain member, slash, backslash, up]
  obtain ⟨parents, item⟩ := source
  cases item with
  | file name content => exact ⟨.inl rfl, relative, ⟨rfl, rfl, rfl, rfl⟩, rfl⟩
  | folder name entries => exact ⟨.inr rfl, relative, ⟨rfl, rfl, rfl, rfl⟩, rfl⟩
  | other name => exact absurd rfl kind

include packed

/-- Whatever is packed passes the checks on its members. -/
theorem checkMembers_packed (licensesDir dataDir : String) :
    archive.foldlM (checkMember licensesDir dataDir) {} =
      .ok (archive.foldl (Seen.note licensesDir dataDir) {}) := by
  obtain ⟨members, kinds⟩ := makeTarZst_eq_ok packed
  refine checkMembers_eq_ok.mpr ⟨fun info member => ⟨?_, List.not_mem_nil⟩,
    names_packed joins plain packed, rfl⟩
  obtain ⟨source, found, rfl⟩ := List.mem_map.mp (members.mem_iff.mp member)
  exact normal_tarInfo joins plain found (kinds source found)

/-- The lint counts a licence in whatever was staged. -/
theorem licensesCount_packed (staged : stage host repo lib name dataEntries = .ok staging)
    (dataDir : String) :
    (archive.foldl (Seen.note (name ++ "_licenses") dataDir) {}).licensesCount ≠ 0 := by
  obtain ⟨members, -⟩ := makeTarZst_eq_ok packed
  obtain ⟨-, folder, -⟩ := stage_eq_ok staged
  obtain ⟨entry, member, counted⟩ := List.countP_pos_iff.mp (licenses_counted staged)
  obtain ⟨source, within, rfl⟩ := List.mem_map.mp member
  rw [Bool.and_eq_true, decide_eq_true_eq, folder] at counted
  rw [licensesCount_foldl, Nat.zero_add, ← Nat.pos_iff_ne_zero, List.countP_pos_iff]
  refine ⟨_, members.mem_iff.mpr (List.mem_map_of_mem within), ?_⟩
  rw [parts_tarInfo joins plain within, decide_eq_true_eq]
  refine ⟨counted.1, ?_⟩
  have regular := counted.2
  obtain ⟨parents, item⟩ := source
  cases item with
  | file name content => rfl
  | folder _ _ | other _ => cases regular

end Packed

/-- What was staged of the data: the names at the top of the data folder. -/
def Staging.dataNames (staging : Staging) : List String :=
  staging.data.toList.flatMap fun data => data.2.map Item.name

section Layout

variable {host : Host} {repo : Repo} {lib : String × Bytes} {name : String}
  {dataEntries : List String} {staging : Staging}

/-- At the top of what is staged stand the library, the licences, and the data if the plugin
declares some. -/
theorem mem_names_stage (staged : stage host repo lib name dataEntries = .ok staging)
    (top : String) : top ∈ staging.items.map Item.name ↔
      top = lib.1 ∨ top = name ++ "_licenses" ∨ top = name ++ "_data" ∧ dataEntries ≠ [] := by
  obtain ⟨same, folder, -, -⟩ := stage_eq_ok staged
  obtain ⟨-, ⟨empty, none⟩ | ⟨some, -, _, entries, -, data⟩⟩ := stage_data staged
  · simp [Staging.items, Item.name, same, folder, none, empty]
  · simp [Staging.items, Item.name, same, folder, data, some]

theorem mem_dataNames_stage (staged : stage host repo lib name dataEntries = .ok staging)
    (entry : String) : (∃ entries, .folder (name ++ "_data") entries ∈ staging.items ∧
      entry ∈ entries.map Item.name) ↔ entry ∈ staging.dataNames := by
  obtain ⟨-, folder, -, -⟩ := stage_eq_ok staged
  obtain ⟨-, ⟨-, none⟩ | ⟨-, -, _, entries, -, data⟩⟩ := stage_data staged
  · simp [Staging.items, Staging.dataNames, folder, none]
  · simp [Staging.items, Staging.dataNames, folder, data]

end Layout

/-- **What the packager makes passes the lint** exactly if the library has the name of the plugin
and the target, and the declared entries are what the data folder holds. The lint then counts
every entry that was staged. -/
theorem packed_passes_iff {host : Host} {room : TarInfo → Bool} {repo : Repo}
    {lib : String × Bytes} {name : String} {dataEntries : List String} {staging : Staging}
    {mtime : Int} {archive : List TarInfo} (joins : host.Joins) (plainRepo : PlainTree repo.entries)
    (plainName : PlainName name) (plainLib : PlainName lib.1)
    (staged : stage host repo lib name dataEntries = .ok staging)
    (packed : makeTarZst host room staging mtime = .ok archive) (target : Target) :
    check archive name target dataEntries = .ok (walk staging.items).length ↔
      lib.1 = name ++ "_playback" ++ target.libSuffix ∧
        ∀ entry, entry ∈ dataEntries ↔ entry ∈ staging.dataNames := by
  have plain := plainTree_stage plainRepo plainName plainLib staged
  obtain ⟨members, -⟩ := makeTarZst_eq_ok packed
  have times : ∀ info ∈ archive, info.mtime = mtime := by
    intro info member
    obtain ⟨⟨parents, item⟩, -, rfl⟩ := List.mem_map.mp (members.mem_iff.mp member)
    cases item <;> rfl
  have tops (top : String) :
      top ∈ (archive.foldl (Seen.note (name ++ "_licenses") (name ++ "_data")) {}).topLevel ↔
        top = lib.1 ∨ top = name ++ "_licenses" ∨ top = name ++ "_data" ∧ dataEntries ≠ [] := by
    rw [mem_topLevel, exists_packed joins plain packed fun path => path.headD "" = top,
      head_mem_walk, mem_names_stage staged]
  have data (entry : String) :
      entry ∈ (archive.foldl (Seen.note (name ++ "_licenses") (name ++ "_data")) {}).dataTopLevel ↔
        entry ∈ staging.dataNames := by
    rw [mem_dataTopLevel, exists_packed joins plain packed
      fun path => ∃ rest, path = (name ++ "_data") :: entry :: rest, second_mem_walk,
      mem_dataNames_stage staged]
  have library (suffix : String) (differ : "_playback" ++ target.libSuffix ≠ suffix) :
      name ++ "_playback" ++ target.libSuffix ≠ name ++ suffix := by
    rw [String.append_assoc]
    exact fun same => differ ((String.append_right_inj name).mp same)
  have notLicenses := library "_licenses" (by cases target <;> decide)
  have notData := library "_data" (by cases target <;> decide)
  rw [check, checkMembers_packed joins plain packed]
  refine checkLayout_eq_ok.trans ?_
  simp only [tops, data]
  constructor
  · rintro ⟨-, -, there, -, declared, -⟩
    refine ⟨?_, declared⟩
    rcases there with there | there | ⟨there, -⟩
    · exact there.symm
    · exact absurd there notLicenses
    · exact absurd there notData
  · rintro ⟨named, declared⟩
    refine ⟨length_mtimes times (.inl rfl), fun top listed => ?_, .inl named.symm,
      licensesCount_packed joins plain packed staged _, declared, ?_⟩
    · exact named ▸ listed
    · rw [length_seen (names_packed joins plain packed) fun _ _ => List.not_mem_nil,
        members.length_eq, List.length_map, List.length_nil, Nat.zero_add]

/-- A repository with a licence, and with a table that the plugin reads. -/
def spu : Repo :=
  ⟨"repo", [.file "LICENSE" [1], .folder "spu_data" [.file "table.bin" [2]]]⟩

def spuLib : String × Bytes := ("spu_playback.so", [3])

theorem plainTree_spu : PlainTree spu.entries := ⟨by decide +kernel, by decide +kernel⟩

/-- What is staged of it. -/
def spuStaging : Staging :=
  ⟨spuLib, "spu_licenses", [("LICENSE", [1])], some ("spu_data", [.file "table.bin" [2]])⟩

theorem packs_spu : ∃ archive, makeTarZst unix (fun _ => true) spuStaging 0 = .ok archive := by
  have packs : (makeTarZst unix (fun _ => true) spuStaging 0).isOk = true := by decide +kernel
  cases packed : makeTarZst unix (fun _ => true) spuStaging 0 with
  | error failure =>
      rw [packed] at packs
      cases packs
  | ok archive => exact ⟨archive, rfl⟩

/-- An archive of five members passes. -/
theorem packed_passes_iff_of_spu : ∃ archive,
    stage unix spu spuLib "spu" ["table.bin"] = .ok spuStaging ∧
      makeTarZst unix (fun _ => true) spuStaging 0 = .ok archive ∧
      check archive "spu" .linuxX86_64 ["table.bin"] = .ok 5 := by
  obtain ⟨archive, packed⟩ := packs_spu
  have staged : stage unix spu spuLib "spu" ["table.bin"] = .ok spuStaging := rfl
  refine ⟨archive, staged, packed, ?_⟩
  exact (packed_passes_iff joins_unix plainTree_spu (by decide) (by decide) staged packed
    .linuxX86_64).mpr ⟨by decide, fun entry => Iff.rfl⟩

end Retrovert.Harness
