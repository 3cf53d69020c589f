import Mathlib.Data.List.Forall2
import Retrovert.Apply.Resolvable

/-!
# Publishing a generation is atomic

An apply places each artifact of its plan under its own name, and records the
generation last. So wherever it stops, by an error or a crash, every other
generation is as it was; and its own resolves only once every artifact stands in
its place with the digest that the plan names, and then lists exactly the plan's
artifacts (`publication_is_crash_atomic`).

What an earlier attempt has left in the generation's directory does not matter: no
two artifacts of a plan want one place, and each is placed by a rename of a copy
that has been verified.
-/

set_option autoImplicit false

namespace Retrovert.Apply

open Retrovert.Transport Retrovert.Tuf

/-! ## Places -/

/-- A path is the join of its components. -/
theorem components_injective : Function.Injective components := by
  intro first second same
  have joined := congrArg (List.intercalate ['/']) same
  unfold components at joined
  rw [List.intercalate_splitOn, List.intercalate_splitOn] at joined
  exact String.toList_inj.mp joined

/-- What a check for collisions lets pass has no two artifacts of one path, nor one
of a path that has been claimed. -/
theorem refuseCollisionsFrom_eq_ok {claimed artifacts : List Artifact}
    (apart : refuseCollisionsFrom claimed artifacts = .ok ()) :
    (artifacts.map Artifact.path).Nodup ∧
      ∀ artifact ∈ artifacts, artifact.path ∉ claimed.map Artifact.path := by
  induction artifacts generalizing claimed with
  | nil => exact ⟨List.nodup_nil, fun _ member => nomatch member⟩
  | cons artifact rest ih =>
      unfold refuseCollisionsFrom at apart
      cases found : claimant claimed artifact.path with
      | some first => simp [found] at apart
      | none =>
          simp only [found] at apart
          obtain ⟨distinct, fresh⟩ := ih apart
          have free : artifact.path ∉ claimed.map Artifact.path := by
            rintro taken
            obtain ⟨earlier, member, same⟩ := List.mem_map.mp taken
            have missing := List.find?_eq_none.mp found earlier member
            simp [same] at missing
          refine ⟨List.nodup_cons.mpr ⟨fun again => ?_, distinct⟩, fun other member => ?_⟩
          · obtain ⟨other, member, same⟩ := List.mem_map.mp again
            exact fresh other member (by rw [same]; exact List.mem_cons_self)
          · rcases List.mem_cons.mp member with rfl | member
            · exact free
            · exact fun taken => fresh other member (List.mem_cons_of_mem _ taken)

theorem refuseCollisionsFrom_of_nodup {claimed artifacts : List Artifact}
    (distinct : (artifacts.map Artifact.path).Nodup)
    (fresh : ∀ artifact ∈ artifacts, artifact.path ∉ claimed.map Artifact.path) :
    refuseCollisionsFrom claimed artifacts = .ok () := by
  induction artifacts generalizing claimed with
  | nil => rfl
  | cons artifact rest ih =>
      rw [List.map_cons, List.nodup_cons] at distinct
      have free : claimant claimed artifact.path = none := by
        refine List.find?_eq_none.mpr fun other member same => ?_
        exact fresh artifact List.mem_cons_self
          (List.mem_map.mpr ⟨other, member, by simpa using same⟩)
      rw [refuseCollisionsFrom, free]
      refine ih distinct.2 fun other member taken => ?_
      rcases List.mem_cons.mp taken with same | older
      · exact distinct.1 (List.mem_map.mpr ⟨other, member, same⟩)
      · exact fresh other (List.mem_cons_of_mem _ member) older

theorem refuseCollisions_iff {artifacts : List Artifact} :
    refuseCollisions artifacts = .ok () ↔ (artifacts.map Artifact.path).Nodup :=
  ⟨fun apart => (refuseCollisionsFrom_eq_ok apart).1,
    fun distinct => refuseCollisionsFrom_of_nodup distinct fun _ _ taken => nomatch taken⟩

/-- What a check of the names lets pass has a generation id that is a digest, and clean
paths. -/
theorem refuseUnsafeNames_iff {plan : Plan} : refuseUnsafeNames plan = .ok () ↔
    isHexSha256 plan.generationId = true ∧
      ∀ artifact ∈ plan.artifacts, isCleanRelativePath artifact.path = true := by
  have paths : ∀ artifacts : List Artifact, artifacts.forM refuseUnsafePath = .ok () ↔
      ∀ artifact ∈ artifacts, isCleanRelativePath artifact.path = true := by
    intro artifacts
    induction artifacts with
    | nil => exact iff_of_true rfl fun _ member => nomatch member
    | cons artifact rest ih =>
        rw [List.forM, List.forall_mem_cons, ← ih, refuseUnsafePath]
        by_cases clean : isCleanRelativePath artifact.path = true
        · rw [if_pos clean, and_iff_right clean]
          rfl
        · rw [if_neg clean]
          exact iff_of_false (fun same => nomatch same) fun both => clean both.1
  rw [refuseUnsafeNames]
  split
  · rename_i digest
    rw [paths, and_iff_right digest]
  · rename_i digest
    exact iff_of_false (fun same => nomatch same) fun both => digest both.1

/-- Two artifacts of such a plan have two places. -/
theorem place_ne_of_index_ne {artifacts : List Artifact}
    (apart : refuseCollisions artifacts = .ok ()) {index index' : Nat}
    {artifact artifact' : Artifact}
    (found : artifacts[index]? = some artifact) (found' : artifacts[index']? = some artifact')
    (different : index ≠ index') : artifact.place ≠ artifact'.place := by
  intro same
  have distinct := (refuseCollisionsFrom_eq_ok apart).1
  have within := (List.getElem?_eq_some_iff.mp found).1
  refine different ((List.getElem?_inj (by simpa using within) distinct).mp ?_)
  rw [List.getElem?_map, List.getElem?_map, found, found', Option.map_some, Option.map_some,
    components_injective same]

/-! ## What an attempt leaves -/

/-- An artifact stands in its place with the digest that its plan names, and is
recorded as it is. -/
def Placed (sha256 : Bytes → ArtifactDigest) (dir : Tree Component) (artifact : Artifact)
    (installed : Installed) : Prop :=
  ∃ content, dir.fileAt artifact.place = some content ∧ digestOf artifact = .ok (sha256 content) ∧
    installed = installedFrom artifact (sha256 content)

/-- Every artifact of the plan that has been placed stands. -/
structure PlacedSoFar (sha256 : Bytes → ArtifactDigest) (dir : Tree Component)
    (artifacts : List Artifact) (placed : List (Option Installed)) : Prop where
  apart : refuseCollisions artifacts = .ok ()
  length : placed.length = artifacts.length
  placed : ∀ (index : Nat) artifact installed, artifacts[index]? = some artifact →
    placed[index]? = some (some installed) → Placed sha256 dir artifact installed

section Attempts

variable {sha256 : Bytes → ArtifactDigest} {dir after : Tree Component}
  {artifacts : List Artifact} {placed : List (Option Installed)}

theorem placedSoFar_none (apart : refuseCollisions artifacts = .ok ()) :
    PlacedSoFar sha256 dir artifacts (artifacts.map fun _ => none) where
  apart := apart
  length := List.length_map _
  placed index artifact installed found missing := by
    rw [List.getElem?_map, found] at missing
    cases missing

/-- A change that leaves every file in place. -/
theorem PlacedSoFar.congr (sofar : PlacedSoFar sha256 dir artifacts placed)
    (same : ∀ place, after.fileAt place = dir.fileAt place) :
    PlacedSoFar sha256 after artifacts placed where
  apart := sofar.apart
  length := sofar.length
  placed index artifact installed found stands := by
    obtain ⟨content, there, rest⟩ := sofar.placed index artifact installed found stands
    exact ⟨content, (same _).trans there, rest⟩

/-- One more artifact is placed, beside the others. -/
theorem PlacedSoFar.set (sofar : PlacedSoFar sha256 dir artifacts placed) {index : Nat}
    {artifact : Artifact} {landed : Bytes} (found : artifacts[index]? = some artifact)
    (verified : digestOf artifact = .ok (sha256 landed))
    (put : dir.put artifact.place (.file landed) = some after) :
    PlacedSoFar sha256 after artifacts
      (placed.set index (some (installedFrom artifact (sha256 landed)))) where
  apart := sofar.apart
  length := (List.length_set ..).trans sofar.length
  placed index' artifact' installed found' stands := by
    have files := Tree.fileAt_put_file put
    by_cases same : index = index'
    · subst same
      rw [found] at found'
      cases found'
      have within := (List.getElem?_eq_some_iff.mp found).1
      rw [List.getElem?_set_self (sofar.length ▸ within)] at stands
      cases stands
      exact ⟨landed, by rw [files, if_pos rfl], verified, rfl⟩
    · rw [List.getElem?_set_ne same] at stands
      obtain ⟨content, there, rest⟩ := sofar.placed index' artifact' installed found' stands
      have other := place_ne_of_index_ne sofar.apart found' found (Ne.symm same)
      exact ⟨content, by rw [files, if_neg other, there], rest⟩

/-- With all of them placed, what is recorded is the plan's artifacts in order. -/
theorem PlacedSoFar.all (sofar : PlacedSoFar sha256 dir artifacts placed)
    (all : placed.all Option.isSome = true) :
    List.Forall₂ (Placed sha256 dir) artifacts placed.reduceOption := by
  have listed : placed = placed.reduceOption.map some := by
    clear sofar
    induction placed with
    | nil => rfl
    | cons first rest ih =>
        rw [List.all_cons, Bool.and_eq_true] at all
        obtain ⟨installed, rfl⟩ := Option.isSome_iff_exists.mp all.1
        rw [List.reduceOption_cons_of_some, List.map_cons, ← ih all.2]
  have length : artifacts.length = placed.reduceOption.length := by
    rw [← sofar.length, listed, List.length_map, ← listed]
  refine List.forall₂_iff_get.mpr ⟨length, fun index within within' => ?_⟩
  refine sofar.placed index _ _ (List.getElem?_eq_getElem within) ?_
  have stands := congrArg (·[index]?) listed
  simp only [List.getElem?_map, List.getElem?_eq_getElem within', Option.map_some] at stands
  exact stands

end Attempts

/-! ## Runs of one apply -/

/-- An install root, and the one apply that runs on it. -/
structure Attempt where
  root : InstallRoot
  apply : Applying

def Attempt.step (sha256 : Bytes → ArtifactDigest) (attempt : Attempt) (move : Move) :
    Option Attempt :=
  (attempt.apply.step sha256 attempt.root move).map fun (root, stage) =>
    ⟨root, { attempt.apply with stage }⟩

/-- What an apply knows of its generation's directory, by where it stands. -/
def Stage.Knows (sha256 : Bytes → ArtifactDigest) (dir : Tree Component)
    (artifacts : List Artifact) : Stage → Prop
  | .acquiring placed | .copying placed _ _ _ | .placing placed _ _ =>
      PlacedSoFar sha256 dir artifacts placed
  | .recording installed => List.Forall₂ (Placed sha256 dir) artifacts installed
  | _ => True

/-- An apply that has ended, or lets its claim go. -/
def Stage.ends : Stage → Bool
  | .unclaiming _ | .returned _ => true
  | _ => false

/-- Other generations are as they were. The apply's own resolves once it has ended, if
then, and only with all its artifacts in place. -/
structure Atomic (sha256 : Bytes → ArtifactDigest) (start : InstallRoot) (plan : Plan)
    (root : InstallRoot) (stage : Stage) : Prop where
  records : ∀ id, id ≠ plan.generationId → root.records id = start.records id
  dirs : ∀ id, id ≠ plan.generationId → root.dirs id = start.dirs id
  unresolved : stage.ends = false → root.resolve plan.generationId = none
  knows : stage.Knows sha256 (root.dirs plan.generationId) plan.artifacts
  resolved : ∀ generation, root.resolve plan.generationId = some generation →
    List.Forall₂ (Placed sha256 (root.dirs plan.generationId)) plan.artifacts generation.artifacts

section Runs

variable {sha256 : Bytes → ArtifactDigest} {start root next : InstallRoot} {plan : Plan}
  {stage later : Stage}

/-- A step that leaves the records and the directories alone. -/
theorem Atomic.quiet (atomic : Atomic sha256 start plan root stage)
    (records : next.records = root.records) (dirs : next.dirs = root.dirs)
    (ends : later.ends = false → stage.ends = false)
    (knows : later.Knows sha256 (root.dirs plan.generationId) plan.artifacts) :
    Atomic sha256 start plan next later := by
  have resolve : ∀ id, next.resolve id = root.resolve id := by
    intro id
    rw [InstallRoot.resolve, records]
    rfl
  refine ⟨?_, ?_, ?_, ?_, ?_⟩
  · rw [records]
    exact atomic.records
  · rw [dirs]
    exact atomic.dirs
  · rw [resolve]
    exact fun still => atomic.unresolved (ends still)
  · rw [dirs]
    exact knows
  · rw [resolve, dirs]
    exact atomic.resolved

/-- Giving up. -/
theorem Atomic.refuse (atomic : Atomic sha256 start plan root stage) (error : Error) :
    Atomic sha256 start plan root (.refuse error) :=
  atomic.quiet rfl rfl (fun ends => nomatch ends) trivial

/-- A change of the generation's own directory, before it ends. -/
theorem Atomic.setDir (atomic : Atomic sha256 start plan root stage)
    (running : stage.ends = false) {dir : Tree Component}
    (knows : later.Knows sha256 dir plan.artifacts) :
    Atomic sha256 start plan (root.setDir plan.generationId dir) later where
  records := atomic.records
  dirs id other := (root.dirs_setDir_of_ne dir other).trans (atomic.dirs id other)
  unresolved _ := atomic.unresolved running
  knows := by rwa [root.dirs_setDir_self]
  resolved generation resolves := by
    have unresolved : (root.setDir plan.generationId dir).resolve plan.generationId = none :=
      atomic.unresolved running
    rw [unresolved] at resolves
    cases resolves

/-- The record is written once everything stands. -/
theorem Atomic.record (atomic : Atomic sha256 start plan root stage) {installed : List Installed}
    (knows : List.Forall₂ (Placed sha256 (root.dirs plan.generationId)) plan.artifacts installed)
    (result : Except Error Generation) :
    Atomic sha256 start plan (root.record plan.generationId installed) (.unclaiming result) where
  records id other := (Function.update_of_ne other ..).trans (atomic.records id other)
  dirs := atomic.dirs
  unresolved running := nomatch running
  knows := trivial
  resolved generation resolves := by
    rw [root.resolve_record, if_pos rfl] at resolves
    cases resolves
    exact knows

theorem Atomic.copy {apply : Applying} (own : apply.plan = plan)
    (atomic : Atomic sha256 start plan root stage) (running : stage.ends = false)
    {placed : List (Option Installed)} (sofar : PlacedSoFar sha256 (root.dirs plan.generationId)
      plan.artifacts placed) {index : Nat} {artifact : Artifact} {folders : List (List Component)}
    {cached : Option Bytes}
    (copied : apply.copy root placed index artifact folders cached = (next, later)) :
    Atomic sha256 start plan next later := by
  subst own
  unfold Applying.copy at copied
  split at copied
  · split at copied
    · cases copied
      exact atomic.refuse _
    · rename_i dir made
      cases copied
      exact atomic.setDir running (sofar.congr (Tree.fileAt_createDir made))
  · split at copied <;> cases copied
    · exact atomic.refuse _
    · exact atomic.quiet rfl rfl (fun _ => running) sofar

theorem Atomic.persist {apply : Applying} (own : apply.plan = plan)
    (atomic : Atomic sha256 start plan root stage) (running : stage.ends = false)
    {placed : List (Option Installed)} (sofar : PlacedSoFar sha256 (root.dirs plan.generationId)
      plan.artifacts placed) {index : Nat} {artifact : Artifact}
    (found : plan.artifacts[index]? = some artifact) {landed : Bytes}
    (persisted : apply.persist sha256 root placed index artifact landed = (next, later)) :
    Atomic sha256 start plan next later := by
  subst own
  unfold Applying.persist at persisted
  split at persisted
  · cases persisted
    exact atomic.refuse _
  · rename_i digest parsed
    split at persisted
    · cases persisted
      exact atomic.refuse _
    · rename_i verified
      obtain rfl : sha256 landed = digest := not_not.mp verified
      split at persisted
      · cases persisted
        exact atomic.refuse _
      · rename_i dir put
        cases persisted
        exact atomic.setDir running (sofar.set found parsed put)

/-- **One step** of the apply keeps all this. -/
theorem Atomic.step {apply : Applying} (own : apply.plan = plan)
    (atomic : Atomic sha256 start plan root apply.stage) {move : Move}
    (stepped : apply.step sha256 root move = some (next, later)) :
    Atomic sha256 start plan next later := by
  subst own
  unfold Applying.step at stepped
  split at stepped
  · rename_i resolving
    have unresolved : root.resolve apply.id = none := atomic.unresolved (by rw [resolving]; rfl)
    rw [unresolved] at stepped
    cases stepped
    exact atomic.quiet rfl rfl (fun _ => by rw [resolving]; rfl) trivial
  · rename_i claiming
    cases stepped
    exact atomic.quiet rfl rfl (fun _ => by rw [claiming]; rfl) trivial
  · rename_i preparing
    split at stepped
    · cases stepped
      exact atomic.refuse _
    · rename_i apart
      split at stepped
      · cases stepped
        exact atomic.refuse _
      · cases stepped
        exact atomic.setDir (by rw [preparing]; rfl) (placedSoFar_none apart)
  · rename_i placed index cached acquiring
    have knows := atomic.knows
    rw [acquiring] at knows
    split at stepped
    · split at stepped
      · cases stepped
        exact atomic.refuse _
      · cases stepped
        exact atomic.quiet rfl rfl (fun _ => by rw [acquiring]; rfl) knows
    · cases stepped
  · rename_i placed acquiring
    have knows := atomic.knows
    rw [acquiring] at knows
    split at stepped
    · rename_i all
      cases stepped
      exact atomic.quiet rfl rfl (fun _ => by rw [acquiring]; rfl) (PlacedSoFar.all knows all)
    · cases stepped
  · rename_i placed index folders cached copying
    have knows := atomic.knows
    rw [copying] at knows
    obtain ⟨artifact, -, copied⟩ := Option.map_eq_some_iff.mp stepped
    exact atomic.copy rfl (by rw [copying]; rfl) knows copied
  · rename_i placed index landed placing
    have knows := atomic.knows
    rw [placing] at knows
    obtain ⟨artifact, found, persisted⟩ := Option.map_eq_some_iff.mp stepped
    exact atomic.persist rfl (by rw [placing]; rfl) knows found persisted
  · rename_i installed recording
    have knows := atomic.knows
    rw [recording] at knows
    cases stepped
    exact atomic.record knows _
  · rename_i result unclaiming
    cases stepped
    exact atomic.quiet rfl rfl (fun ends => nomatch ends) trivial
  -- The operations that fail, and the answers no stage takes.
  all_goals first
    | cases stepped
      exact atomic.refuse _
    | cases stepped

theorem atomic_start (fresh : start.resolve plan.generationId = none) :
    Atomic sha256 start plan start (Applying.start plan).stage := by
  have unresolved : ∀ generation, start.resolve plan.generationId = some generation →
      List.Forall₂ (Placed sha256 (start.dirs plan.generationId)) plan.artifacts
        generation.artifacts := by
    intro generation resolves
    rw [fresh] at resolves
    cases resolves
  unfold Applying.start
  refine ⟨fun _ _ => rfl, fun _ _ => rfl, fun _ => fresh, ?_, unresolved⟩
  split <;> trivial

/-- **Publication is crash-atomic.** Whatever an earlier attempt has left of the
generation that a plan names, as long as it does not resolve: wherever an apply of
the plan stops, every other generation is as it was and resolves as it did. The
plan's own resolves only with every artifact of the plan in its place, of the digest
that the plan names, and lists these artifacts in order. -/
theorem publication_is_crash_atomic (fresh : start.resolve plan.generationId = none)
    {last : Attempt}
    (run : Runs.Moves (Attempt.step sha256) Runs.unguarded ⟨start, .start plan⟩ last) :
    (∀ id, id ≠ plan.generationId → last.root.records id = start.records id ∧
        last.root.dirs id = start.dirs id ∧ last.root.resolve id = start.resolve id) ∧
      ∀ generation, last.root.resolve plan.generationId = some generation →
        generation.id = plan.generationId ∧
          List.Forall₂ (Placed sha256 (last.root.dirs plan.generationId)) plan.artifacts
            generation.artifacts := by
  have kept : last.apply.plan = plan ∧
      Atomic sha256 start plan last.root last.apply.stage := by
    refine run.invariant
      (fun attempt => attempt.apply.plan = plan ∧
        Atomic sha256 start plan attempt.root attempt.apply.stage) ?_
      ⟨rfl, atomic_start fresh⟩
    rintro before move after - stepped ⟨own, atomic⟩
    obtain ⟨⟨next, stage⟩, moved, rfl⟩ := Option.map_eq_some_iff.mp stepped
    exact ⟨own, atomic.step own moved⟩
  obtain ⟨-, atomic⟩ := kept
  refine ⟨fun id other => ⟨atomic.records id other, atomic.dirs id other, ?_⟩,
    fun generation resolves => ⟨?_, atomic.resolved generation resolves⟩⟩
  · rw [InstallRoot.resolve, atomic.records id other]
    rfl
  · unfold InstallRoot.resolve at resolves
    split at resolves
    · split at resolves
      · cases resolves
      · rename_i recorded
        cases resolves
        exact not_not.mp fun other => recorded (.inr other)
    · cases resolves

/-- An apply of one artifact that gets as far as its record. -/
theorem publication_is_crash_atomic_recorded : ∃ (last : Attempt) (generation : Generation),
    last.root.resolve generationA = some generation ∧
      List.Forall₂ (Placed .leading (last.root.dirs generationA)) [spu] generation.artifacts := by
  obtain ⟨last, run, found⟩ := Runs.Moves.of_check (Attempt.step .leading) Runs.unguarded
    ⟨.new, .start spuPlan⟩ [.proceed, .proceed, .proceed, .land 0 (some [0x61]), .proceed, .proceed,
      .proceed, .proceed, .proceed]
    (fun last => (last.root.resolve generationA).isSome) (by decide +kernel)
  obtain ⟨generation, resolves⟩ := Option.isSome_iff_exists.mp found
  exact ⟨last, generation, resolves,
    ((publication_is_crash_atomic rfl run).2 generation resolves).2⟩

end Runs

end Retrovert.Apply
