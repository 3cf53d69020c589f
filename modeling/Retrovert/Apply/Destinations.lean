import Retrovert.Apply.Crash

/-!
# Where artifacts may be placed

An artifact's path is joined to its generation's directory and resolved component by component,
by the rules of the platform. A path that passes the manifest's check resolves beneath the
directory without leaving it on the way, and no two of them to one location, so that comparing
paths as strings finds the artifacts that want one place (`clean_paths_confine_and_separate`).

What the comparison does not find is an artifact whose path leads through another's. So the
artifacts of an accepted plan never overwrite each other, and all of them can be placed exactly
if none is to stand above another (`accepted_plan_places`).
-/

set_option autoImplicit false

namespace Retrovert.Apply

open Retrovert.Transport Retrovert.Tuf

/-! ## Resolving a path -/

/-- Whose rules a path is resolved by. -/
inductive Platform where
  | unix
  | windows

/-- The tree that a place is in: the generation's own, or another that a path can name. -/
inductive Volume where
  | own
  | drive (letter : Char)
  | share
deriving DecidableEq

structure Location where
  volume : Volume
  place : List Component
deriving DecidableEq

def Platform.isSeparator : Platform → Char → Bool
  | .unix, char => char == '/'
  | .windows, char => char == '/' || char == '\\'

/-- One component further. A parent of the root is the root. -/
def Location.enter (location : Location) (part : Component) : Location :=
  if part = [] ∨ part = ['.'] then location
  else if part = ['.', '.'] then { location with place := location.place.dropLast }
  else { location with place := location.place ++ [part] }

/-- A location is in a directory, or is it. -/
def Location.Within (base location : Location) : Prop :=
  location.volume = base.volume ∧ base.place <+: location.place

section Resolving

variable (platform : Platform) (current : Char → List Component) (base : Location)

/-- Where a path that is joined to a directory begins, and what is left of it: in the
directory; at the root, if it is absolute; or on the drive or the share that it names. A path
on a drive that is not absolute begins in the drive's current directory. -/
def begins : List Char → Location × List Char
  | [] => (base, [])
  | [only] => if platform.isSeparator only then (⟨base.volume, []⟩, []) else (base, [only])
  | first :: second :: rest =>
      match platform with
      | .unix =>
          if platform.isSeparator first then (⟨base.volume, []⟩, second :: rest)
          else (base, first :: second :: rest)
      | .windows =>
          if first.isAlpha && second == ':' then
            if rest.head?.any platform.isSeparator then (⟨.drive first, []⟩, rest)
            else (⟨.drive first, current first⟩, rest)
          else if platform.isSeparator first && platform.isSeparator second then (⟨.share, []⟩, rest)
          else if platform.isSeparator first then (⟨base.volume, []⟩, second :: rest)
          else (base, first :: second :: rest)

/-- The locations that resolving a path goes through, from where it begins. -/
def trail (path : String) : List Location :=
  let (start, rest) := begins platform current base path.toList
  (rest.splitOnP platform.isSeparator).scanl Location.enter start

/-- Where a path that is joined to a directory leads. -/
def resolvePath (path : String) : Location :=
  let (start, rest) := begins platform current base path.toList
  (rest.splitOnP platform.isSeparator).foldl Location.enter start

end Resolving

/-! ## Clean paths -/

/-- A component that names an entry of the directory it is looked up in. -/
def IsEntry (part : Component) : Prop := part ≠ [] ∧ part ≠ ['.'] ∧ part ≠ ['.', '.']

theorem isCleanRelativePath_iff {path : String} : isCleanRelativePath path = true ↔
    path.toList ≠ [] ∧ (∀ char ∈ path.toList, isForbidden char = false) ∧
      ∀ part ∈ components path, IsEntry part := by
  simp only [isCleanRelativePath, IsEntry, Bool.and_eq_true, Bool.not_eq_true', List.all_eq_true,
    List.any_eq_false, List.isEmpty_eq_false_iff, bne_iff_ne, Bool.not_eq_true, and_assoc]

theorem splitOnP_congr {α : Type*} {p q : α → Bool} {list : List α}
    (agree : ∀ item ∈ list, p item = q item) : list.splitOnP p = list.splitOnP q := by
  induction list with
  | nil => rw [List.splitOnP_nil, List.splitOnP_nil]
  | cons item rest ih =>
      rw [List.forall_mem_cons] at agree
      rw [List.splitOnP_cons_eq_if_modifyHead, List.splitOnP_cons_eq_if_modifyHead, agree.1,
        ih agree.2]

section Clean

variable {platform : Platform} {current : Char → List Component} {base location : Location}
  {path other : String}

/-- A component that names an entry is entered. -/
theorem enter_of_isEntry {part : Component} (entry : IsEntry part) :
    base.enter part = ⟨base.volume, base.place ++ [part]⟩ := by
  obtain ⟨filled, here, up⟩ := entry
  rw [Location.enter, if_neg (not_or.mpr ⟨filled, here⟩), if_neg up]

theorem foldl_enter {parts : List Component} (entries : ∀ part ∈ parts, IsEntry part) :
    parts.foldl Location.enter base = ⟨base.volume, base.place ++ parts⟩ := by
  induction parts generalizing base with
  | nil => rw [List.foldl_nil, List.append_nil]
  | cons part rest ih =>
      rw [List.forall_mem_cons] at entries
      rw [List.foldl_cons, enter_of_isEntry entries.1, ih entries.2, List.append_assoc,
        List.singleton_append]

theorem within_scanl {parts : List Component} (entries : ∀ part ∈ parts, IsEntry part) :
    ∀ location ∈ parts.scanl Location.enter base, base.Within location := by
  induction parts generalizing base with
  | nil =>
      intro location member
      rw [List.scanl_nil, List.mem_singleton] at member
      exact member ▸ ⟨rfl, List.prefix_rfl⟩
  | cons part rest ih =>
      rw [List.forall_mem_cons] at entries
      intro location member
      rw [List.scanl_cons, List.mem_cons] at member
      rcases member with rfl | later
      · exact ⟨rfl, List.prefix_rfl⟩
      · obtain ⟨volume, beneath⟩ := ih entries.2 location later
        rw [enter_of_isEntry entries.1] at volume beneath
        exact ⟨volume, (List.prefix_append ..).trans beneath⟩

/-- A clean path holds no separator but the one it is split at. -/
theorem isSeparator_of_clean (clean : isCleanRelativePath path = true) {char : Char}
    (member : char ∈ path.toList) : platform.isSeparator char = (char == '/') := by
  cases platform with
  | unix => rfl
  | windows =>
      have plain := (isCleanRelativePath_iff.mp clean).2.1 char member
      have slash : (char == '\\') = false := by
        rw [beq_eq_false_iff_ne]
        rintro rfl
        exact absurd plain (by decide)
      rw [Platform.isSeparator, slash, Bool.or_false]

/-- A clean path begins in the directory that it is joined to. -/
theorem begins_of_clean (clean : isCleanRelativePath path = true) :
    begins platform current base path.toList = (base, path.toList) := by
  have separators : ∀ char ∈ path.toList, platform.isSeparator char = (char == '/') :=
    fun _ member => isSeparator_of_clean clean member
  obtain ⟨filled, plain, entries⟩ := isCleanRelativePath_iff.mp clean
  unfold components at entries
  rw [List.splitOn_eq_splitOnP] at entries
  generalize path.toList = text at filled plain entries separators
  have relative : ∀ first rest, text = first :: rest → platform.isSeparator first = false := by
    rintro first rest rfl
    rw [separators first List.mem_cons_self]
    by_contra slash
    rw [Bool.not_eq_false] at slash
    refine (entries [] ?_).1 rfl
    rw [List.splitOnP_cons_eq_if_modifyHead, if_pos slash]
    exact List.mem_cons_self
  match text with
  | [] => exact absurd rfl filled
  | [only] => rw [begins, relative only [] rfl, if_neg Bool.false_ne_true]
  | first :: second :: rest =>
      have here := relative first (second :: rest) rfl
      have colon : (second == ':') = false := by
        rw [beq_eq_false_iff_ne]
        rintro rfl
        exact absurd (plain ':' (by simp)) (by decide)
      cases platform with
      | unix => simp only [begins, here, Bool.false_eq_true, if_false]
      | windows =>
          simp only [begins, here, colon, Bool.and_false, Bool.false_and, Bool.false_eq_true,
            if_false]

theorem splitOnP_of_clean (clean : isCleanRelativePath path = true) :
    path.toList.splitOnP platform.isSeparator = components path := by
  rw [components, List.splitOn_eq_splitOnP]
  exact splitOnP_congr fun char member => isSeparator_of_clean clean member

/-- A clean path leads to its own place beneath the directory. -/
theorem resolvePath_of_clean (clean : isCleanRelativePath path = true) :
    resolvePath platform current base path = ⟨base.volume, base.place ++ components path⟩ := by
  rw [resolvePath, begins_of_clean clean]
  dsimp only
  rw [splitOnP_of_clean clean, foldl_enter (isCleanRelativePath_iff.mp clean).2.2]

theorem within_trail (clean : isCleanRelativePath path = true)
    (member : location ∈ trail platform current base path) : base.Within location := by
  rw [trail, begins_of_clean clean] at member
  dsimp only at member
  rw [splitOnP_of_clean clean] at member
  exact within_scanl (isCleanRelativePath_iff.mp clean).2.2 location member

theorem components_ne_nil (path : String) : components path ≠ [] := by
  rw [components, List.splitOn_eq_splitOnP]
  exact List.splitOnP_ne_nil _ _

/-- A clean path leads strictly beneath the directory. -/
theorem beneath_of_clean (clean : isCleanRelativePath path = true) :
    base.Within (resolvePath platform current base path) ∧
      (resolvePath platform current base path).place ≠ base.place := by
  rw [resolvePath_of_clean clean]
  exact ⟨⟨rfl, List.prefix_append ..⟩, fun same =>
    components_ne_nil path (List.append_right_eq_self.mp same)⟩

/-- Two clean paths lead to two locations. -/
theorem resolvePath_injective (clean : isCleanRelativePath path = true)
    (clean' : isCleanRelativePath other = true)
    (same : resolvePath platform current base path = resolvePath platform current base other) :
    path = other := by
  rw [resolvePath_of_clean clean, resolvePath_of_clean clean', Location.mk.injEq] at same
  exact components_injective (List.append_cancel_left same.2)

end Clean

/-- **Clean paths confine and separate.** On each platform and from any directory, a path that
the manifest's check accepts resolves without leaving the directory and ends strictly beneath
it; two of them end at two locations; and artifacts with such paths are refused for a collision
exactly if two of them resolve to one location. -/
theorem clean_paths_confine_and_separate (platform : Platform)
    (current : Char → List Component) (base : Location) :
    (∀ path, isCleanRelativePath path = true →
      (∀ location ∈ trail platform current base path, base.Within location) ∧
        base.Within (resolvePath platform current base path) ∧
        (resolvePath platform current base path).place ≠ base.place) ∧
    (∀ path other, isCleanRelativePath path = true → isCleanRelativePath other = true →
      path ≠ other →
        resolvePath platform current base path ≠ resolvePath platform current base other) ∧
    ∀ artifacts : List Artifact,
      (∀ artifact ∈ artifacts, isCleanRelativePath artifact.path = true) →
        (refuseCollisions artifacts = .ok () ↔
          (artifacts.map fun artifact => resolvePath platform current base artifact.path).Nodup) := by
  refine ⟨fun path clean => ⟨fun location member => within_trail clean member,
      beneath_of_clean clean⟩,
    fun path other clean clean' different same => different (resolvePath_injective clean clean' same),
    fun artifacts clean => ?_⟩
  have paths : artifacts.map (fun artifact => resolvePath platform current base artifact.path) =
      (artifacts.map Artifact.path).map (resolvePath platform current base) := by
    rw [List.map_map]
    rfl
  rw [refuseCollisions_iff, paths]
  refine ⟨fun distinct => distinct.map_on ?_, List.Nodup.of_map _⟩
  rintro path member other member' same
  obtain ⟨first, found, rfl⟩ := List.mem_map.mp member
  obtain ⟨second, found', rfl⟩ := List.mem_map.mp member'
  exact resolvePath_injective (clean first found) (clean second found') same

/-- Paths on Windows, from the directory of a generation. -/
theorem clean_paths_confine_and_separate_nested :
    let base : Location := ⟨.own, [['g']]⟩
    let resolve := resolvePath .windows (fun _ => []) base
    (∀ location ∈ trail .windows (fun _ => []) base "dir/app.bin", base.Within location) ∧
      (resolve "dir/app.bin").place ≠ base.place ∧
      resolve "dir/app.bin" ≠ resolve "dir" ∧
      (refuseCollisions [spu] = .ok () ↔ ([spu].map fun artifact => resolve artifact.path).Nodup) := by
  intro base resolve
  obtain ⟨confined, separate, collide⟩ :=
    clean_paths_confine_and_separate .windows (fun _ => []) base
  obtain ⟨inside, -, beneath⟩ := confined "dir/app.bin" (by decide +kernel)
  exact ⟨inside, beneath,
    separate _ _ (by decide +kernel) (by decide +kernel) (by decide),
    collide [spu] (by decide +kernel)⟩

/-- Paths that the check refuses lead elsewhere. -/
example : ["../x", "/x", "c:/x", "\\\\host\\x"].map
      (resolvePath .windows (fun _ => []) ⟨.own, [['g']]⟩) =
    [⟨.own, [['x']]⟩, ⟨.own, [['x']]⟩, ⟨.drive 'c', [['x']]⟩, ⟨.share, [['h', 'o', 's', 't'], ['x']]⟩] := by
  decide +kernel

/-! ## Placing the artifacts of a plan -/

/-- A file to place: where the artifact goes beneath the generation's directory, and its
bytes. -/
def destination (file : Artifact × Bytes) : List Component × Bytes := (file.1.place, file.2)

/-- What placing artifacts does to a generation's directory, one artifact after another: the
folders above each are made, and its copy is renamed into place. -/
def placeAll (files : List (Artifact × Bytes)) : List (Tree.Operation Component) :=
  (files.map destination).flatMap Tree.placing

/-- Whether neither of two artifacts is to stand above the other. -/
def Beside (first second : Artifact) : Prop :=
  ¬ first.place <+: second.place ∧ ¬ second.place <+: first.place

instance (first second : Artifact) : Decidable (Beside first second) :=
  inferInstanceAs (Decidable (_ ∧ _))

section Placing

variable {plan : Plan} {files : List (Artifact × Bytes)}

/-- The artifacts of an accepted plan go to different places. -/
theorem places_nodup {artifacts : List Artifact} (apart : refuseCollisions artifacts = .ok ()) :
    (artifacts.map Artifact.place).Nodup := by
  have places : artifacts.map Artifact.place = (artifacts.map Artifact.path).map components := by
    rw [List.map_map]
    rfl
  rw [places]
  exact (refuseCollisions_iff.mp apart).map components_injective

theorem map_destination (files : List (Artifact × Bytes)) :
    (files.map destination).map Prod.fst = (files.map Prod.fst).map Artifact.place := by
  simp only [List.map_map]
  rfl

theorem pairwise_beside_of_coexist {places : List (List Component × Bytes)}
    (distinct : (places.map Prod.fst).Nodup) : Tree.Coexist places ↔
      (places.map Prod.fst).Pairwise fun first second => ¬ first <+: second ∧ ¬ second <+: first := by
  rw [List.pairwise_map]
  constructor
  · intro coexist
    refine (List.pairwise_map.mp distinct).imp_of_mem fun here there different => ⟨?_, ?_⟩
    · exact fun above => different (coexist _ here _ there above)
    · exact fun above => different (coexist _ there _ here above).symm
  · intro apart first here second there above
    by_contra different
    have symmetric : Std.Symm fun first second : List Component × Bytes =>
        ¬ first.1 <+: second.1 ∧ ¬ second.1 <+: first.1 := ⟨fun _ _ clear => ⟨clear.2, clear.1⟩⟩
    exact (apart.forall here there fun same => different (congrArg Prod.fst same)).1 above

/-- **The artifacts of an accepted plan**, placed in any order in an empty directory: no two of
them have one destination, and none overwrites an earlier one. Placing them comes to its end
exactly if no destination is an ancestor of another, and then each stands with its own bytes. -/
theorem accepted_plan_places (safe : refuseUnsafeNames plan = .ok ())
    (apart : refuseCollisions plan.artifacts = .ok ())
    (order : (files.map Prod.fst).Perm plan.artifacts) :
    (∀ artifact ∈ plan.artifacts, isCleanRelativePath artifact.path = true) ∧
      (plan.artifacts.map Artifact.place).Nodup ∧
      (∀ done file rest, files = done ++ file :: rest →
        (Tree.bare.perform (placeAll done)).1.fileAt file.1.place = none) ∧
      ((Tree.bare.perform (placeAll files)).2 = none ↔ plan.artifacts.Pairwise Beside) ∧
      ((Tree.bare.perform (placeAll files)).2 = none → ∀ file ∈ files,
        (Tree.bare.perform (placeAll files)).1.fileAt file.1.place = some file.2) := by
  have distinct := places_nodup apart
  have distinct' : ((files.map destination).map Prod.fst).Nodup := by
    rw [map_destination]
    exact (order.map Artifact.place).nodup_iff.mpr distinct
  have below : ∀ file ∈ files.map destination, file.1 ≠ [] := by
    intro file member
    obtain ⟨source, -, rfl⟩ := List.mem_map.mp member
    exact components_ne_nil _
  obtain ⟨ends, stands⟩ := Tree.perform_placing below
  refine ⟨(refuseUnsafeNames_iff.mp safe).2, distinct, fun done file rest split => ?_, ?_,
    fun ended file member => ?_⟩
  · rw [placeAll, Tree.fileAt_perform_placing, Tree.fileAt_bare]
    intro earlier member same
    rw [split, List.map_append, List.map_append, List.map_cons, List.map_cons,
      List.nodup_append] at distinct'
    exact distinct'.2.2 _ (List.mem_map_of_mem member) _ List.mem_cons_self same
  · rw [placeAll, ends, pairwise_beside_of_coexist distinct', map_destination, List.pairwise_map]
    exact order.pairwise_iff fun {first second} clear => ⟨clear.2, clear.1⟩
  · rw [placeAll, Tree.fileAt_eq_some, stands (ends.mp ended)]
    exact Tree.laid_of_mem distinct' (List.mem_map_of_mem member)

/-- A plan of one artifact. -/
theorem accepted_plan_places_spu :
    (Tree.bare.perform (placeAll [(spu, [0x61])])).1.fileAt spu.place = some [0x61] := by
  have safe : refuseUnsafeNames spuPlan = .ok () := by decide +kernel
  have apart : refuseCollisions spuPlan.artifacts = .ok () := by decide +kernel
  have order : ([(spu, ([0x61] : Bytes))].map Prod.fst).Perm spuPlan.artifacts := .refl _
  obtain ⟨-, -, -, ends, stands⟩ := accepted_plan_places safe apart order
  have alone : spuPlan.artifacts.Pairwise Beside := List.pairwise_singleton Beside spu
  exact stands (ends.mpr alone) (spu, [0x61]) List.mem_cons_self

/-- A plan whose second artifact is to stand below its first. -/
def nestedPlan : Plan := ⟨generationA, 1, [{ spu with path := "a" }, { spu with path := "a/b" }]⟩

/-- An accepted plan whose artifacts cannot be placed, in either order: the first is in the way
of a folder that the second needs, or the other way round. -/
theorem a_nested_plan_does_not_place :
    refuseUnsafeNames nestedPlan = .ok () ∧ refuseCollisions nestedPlan.artifacts = .ok () ∧
      (∃ first ∈ nestedPlan.artifacts, ∃ second ∈ nestedPlan.artifacts,
        first ≠ second ∧ first.place <+: second.place) ∧
      (Tree.bare.perform (placeAll (nestedPlan.artifacts.map (·, [0x61])))).2 = some [['a']] ∧
      (Tree.bare.perform (placeAll (nestedPlan.artifacts.reverse.map (·, [0x61])))).2 =
        some [['a']] := by
  decide +kernel

end Placing

end Retrovert.Apply
