import Retrovert.Apply.Plan
import Retrovert.Library.Runs
import Retrovert.Library.Tree

/-!
# The install root

A generation is a directory of files and, beside it, a record. An apply takes the
publish claim on its generation, makes the directory, places every artifact in
it by a rename, writes the record, and lets the claim go. A retain goes over the
ids it found; it looks at each one's claim, and removes the record and then the
directory of those that are neither live nor claimed.

Each case of `Applying.step` and `Retaining.step` is one file operation or one hold
of the claim lock, so that the interleavings of any number of applies and retains
are the runs of `Installs.step`. What the environment answers is part of
the action: whether an operation fails, which transfer landed and with which
bytes, which entry of a directory goes next, and what the listing of the root
found. SHA-256 is a parameter.

The record of a generation and its directory are kept apart by their names: no
id that an apply accepts ends in the suffix of a record.
-/

set_option autoImplicit false

namespace Retrovert.Apply

open Retrovert.Transport Retrovert.Tuf

/-- The record schema this build reads and writes. -/
def recordSchema : Nat := 1

/-- What a generation's record holds on disk. -/
structure Record where
  schema : Nat
  generation : String
  artifacts : List Installed
deriving DecidableEq

/-- What a record file reads as. -/
inductive RecordFile where
  | garbled
  | recorded (record : Record)
deriving DecidableEq

/-- A generation that has been published in full. Its directory is its id's. -/
structure Generation where
  id : String
  artifacts : List Installed
deriving DecidableEq

/-- The install root: the record and the directory of each generation, and how
many publish claims are held on it. -/
structure InstallRoot where
  records : String → Option RecordFile
  dirs : String → Tree Component
  publishing : String → Nat

namespace InstallRoot

/-- A root that has never published. -/
def new : InstallRoot where
  records _ := none
  dirs _ := .absent
  publishing _ := 0

/-- The generation `id`, if it has been published in full. -/
def resolve (root : InstallRoot) (id : String) : Option Generation :=
  match root.records id with
  | some (.recorded record) =>
      if record.schema ≠ recordSchema ∨ record.generation ≠ id then none
      else some ⟨record.generation, record.artifacts⟩
  | _ => none

/-- Take the publish claim on `id`. -/
def claim (root : InstallRoot) (id : String) : InstallRoot :=
  { root with publishing := Function.update root.publishing id (root.publishing id + 1) }

/-- Let the publish claim on `id` go. -/
def unclaim (root : InstallRoot) (id : String) : InstallRoot :=
  { root with publishing := Function.update root.publishing id (root.publishing id - 1) }

/-- Record `artifacts` as generation `id`, which is what makes it resolve. -/
def record (root : InstallRoot) (id : String) (artifacts : List Installed) : InstallRoot :=
  { root with
    records := Function.update root.records id (some (.recorded ⟨recordSchema, id, artifacts⟩)) }

/-- Remove the record of `id`, if there is one. -/
def unrecord (root : InstallRoot) (id : String) : InstallRoot :=
  { root with records := Function.update root.records id none }

def setDir (root : InstallRoot) (id : String) (dir : Tree Component) : InstallRoot :=
  { root with dirs := Function.update root.dirs id dir }

@[simp] theorem dirs_setDir_self (root : InstallRoot) (id : String) (dir : Tree Component) :
    (root.setDir id dir).dirs id = dir :=
  Function.update_self ..

theorem dirs_setDir_of_ne (root : InstallRoot) {id other : String} (dir : Tree Component)
    (different : other ≠ id) : (root.setDir id dir).dirs other = root.dirs other :=
  Function.update_of_ne different ..

theorem publishing_claim (root : InstallRoot) (id other : String) :
    (root.claim id).publishing other = root.publishing other + if id = other then 1 else 0 := by
  by_cases same : id = other
  · simp [claim, same]
  · simp [claim, same, Function.update_of_ne (Ne.symm same)]

theorem publishing_unclaim (root : InstallRoot) (id other : String) :
    (root.unclaim id).publishing other = root.publishing other - if id = other then 1 else 0 := by
  by_cases same : id = other
  · simp [unclaim, same]
  · simp [unclaim, same, Function.update_of_ne (Ne.symm same)]

/-- A generation that has just been recorded resolves to what was recorded. -/
theorem resolve_record (root : InstallRoot) (id other : String) (artifacts : List Installed) :
    (root.record id artifacts).resolve other =
      if other = id then some ⟨id, artifacts⟩ else root.resolve other := by
  by_cases same : other = id
  · simp [resolve, record, same]
  · simp [resolve, record, same]

theorem resolve_unrecord (root : InstallRoot) (id other : String) :
    (root.unrecord id).resolve other = if other = id then none else root.resolve other := by
  by_cases same : other = id
  · simp [resolve, unrecord, same]
  · simp [resolve, unrecord, same]

end InstallRoot

/-! ## Applies -/

/-- Where an apply stands. `placed` has an entry for each artifact of the plan:
what was installed, once its copy is in place. -/
inductive Stage where
  | resolving
  | claiming
  | preparing
  | acquiring (placed : List (Option Installed))
  | copying (placed : List (Option Installed)) (index : Nat) (folders : List (List Component))
      (cached : Option Bytes)
  | placing (placed : List (Option Installed)) (index : Nat) (landed : Bytes)
  | recording (installed : List Installed)
  | unclaiming (result : Except Error Generation)
  | returned (result : Except Error Generation)

/-- Return an error, by way of the drop that lets the claim go. -/
def Stage.refuse (error : Error) : Stage := .unclaiming (.error error)

/-- An apply under way. -/
structure Applying where
  plan : Plan
  stage : Stage

/-- What the environment answers a step of an apply. A transfer that landed
comes with the bytes its cache entry reads as, when it has one. -/
inductive Move where
  | proceed
  | land (index : Nat) (cached : Option Bytes)
  | fail (error : Error)
deriving DecidableEq

namespace Applying

/-- The generation an apply publishes. -/
def id (apply : Applying) : String := apply.plan.generationId


/-- The next folder on the way to an artifact's place, or the copy of its bytes
under a temporary name once they all stand. -/
def copy (root : InstallRoot) (apply : Applying) (placed : List (Option Installed))
    (index : Nat) (artifact : Artifact) (folders : List (List Component))
    (cached : Option Bytes) : InstallRoot × Stage :=
  match folders with
  | folder :: rest =>
      match (root.dirs apply.id).createDir folder with
      | none => (root, .refuse .install)
      | some dir => (root.setDir apply.id dir, .copying placed index rest cached)
  | [] =>
      match cached with
      | none => (root, .refuse (.artifact artifact.name .unreadable))
      | some landed => (root, .placing placed index landed)

/-- The copy is verified and renamed into place. -/
def persist (sha256 : Bytes → ArtifactDigest) (root : InstallRoot) (apply : Applying)
    (placed : List (Option Installed)) (index : Nat) (artifact : Artifact) (landed : Bytes) :
    InstallRoot × Stage :=
  match digestOf artifact with
  | .error error => (root, .refuse error)
  | .ok digest =>
      if sha256 landed ≠ digest then
        (root, .refuse (.artifact artifact.name (.diskDigest (sha256 landed))))
      else
        match (root.dirs apply.id).put artifact.place (.file landed) with
        | none => (root, .refuse .install)
        | some dir =>
            (root.setDir apply.id dir,
              .acquiring (placed.set index (some (installedFrom artifact digest))))

/-- One step of an apply. -/
def step (sha256 : Bytes → ArtifactDigest) (root : InstallRoot) (apply : Applying)
    (move : Move) : Option (InstallRoot × Stage) :=
  match apply.stage, move with
  | .resolving, .proceed =>
      match root.resolve apply.id with
      | some installed => some (root, .returned (.ok installed))
      | none => some (root, .claiming)
  | .claiming, .proceed => some (root.claim apply.id, .preparing)
  | .preparing, .proceed =>
      match refuseCollisions apply.plan.artifacts with
      | .error error => some (root, .refuse error)
      | .ok () =>
          match (root.dirs apply.id).createDir [] with
          | none => some (root, .refuse .install)
          | some dir =>
              some (root.setDir apply.id dir,
                .acquiring (apply.plan.artifacts.map fun _ => none))
  | .acquiring placed, .land index cached =>
      match apply.plan.artifacts[index]?, placed[index]? with
      | some artifact, some none =>
          match digestOf artifact with
          | .error error => some (root, .refuse error)
          | .ok _ =>
              some (root, .copying placed index artifact.place.dropLast.inits cached)
      | _, _ => none
  | .acquiring placed, .proceed =>
      if placed.all Option.isSome then some (root, .recording placed.reduceOption)
      else none
  | .copying placed index folders cached, .proceed =>
      (apply.plan.artifacts[index]?).map fun artifact =>
        apply.copy root placed index artifact folders cached
  | .placing placed index landed, .proceed =>
      (apply.plan.artifacts[index]?).map fun artifact =>
        apply.persist sha256 root placed index artifact landed
  | .recording installed, .proceed =>
      some (root.record apply.id installed, .unclaiming (.ok ⟨apply.id, installed⟩))
  | .unclaiming result, .proceed =>
      some (root.unclaim apply.id, .returned result)
  | .preparing, .fail error | .acquiring _, .fail error | .copying _ _ _ _, .fail error
  | .placing _ _ _, .fail error | .recording _, .fail error =>
      some (root, .refuse error)
  | _, _ => none

end Applying

/-! ## Retention -/

/-- Where a retain stands. -/
inductive Sweep where
  | looking
  | unrecording (id : String)
  | emptying (id : String)
  | returned (result : Except Error (List String))

/-- A retain under way: the ids it keeps, the ids it has yet to look at, and the
ids it has removed. -/
structure Retaining where
  live : List String
  ids : List String
  removed : List String
  sweep : Sweep

/-- What the environment answers a step of a retain. `drop` names the next entry
of the directory that the removal takes away. -/
inductive Answer where
  | proceed
  | drop (place : List Component)
  | fail
deriving DecidableEq

namespace Retaining

/-- One step of a retain. -/
def step (root : InstallRoot) (retain : Retaining) (answer : Answer) :
    Option (InstallRoot × Retaining) :=
  match retain.sweep, answer with
  | .looking, .proceed =>
      match retain.ids with
      | [] => some (root, { retain with sweep := .returned (.ok retain.removed) })
      | id :: ids =>
          if id ∈ retain.live ∨ 0 < root.publishing id then some (root, { retain with ids })
          else some (root, { retain with ids, sweep := .unrecording id })
  | .unrecording id, .proceed =>
      some (root.unrecord id, { retain with sweep := .emptying id })
  | .emptying id, .drop place =>
      if place = [] then none
      else ((root.dirs id).remove place).map fun dir => (root.setDir id dir, retain)
  | .emptying id, .proceed =>
      let done : Retaining := { retain with removed := retain.removed ++ [id], sweep := .looking }
      if (root.dirs id).nodeAt [] = none then some (root, done)
      else match (root.dirs id).remove [] with
        | some dir => some (root.setDir id dir, done)
        | none => some (root, { retain with sweep := .returned (.error .install) })
  | .unrecording _, .fail | .emptying _, .fail =>
      some (root, { retain with sweep := .returned (.error .install) })
  | _, _ => none

/-- The id a retain has looked at and found neither live nor claimed, until it
has removed it. -/
def collecting (retain : Retaining) : Option String :=
  match retain.sweep with
  | .unrecording id | .emptying id => some id
  | _ => none

end Retaining

/-! ## Interleavings -/

/-- An install root, and the applies and retains that run on clones of it. -/
structure Installs where
  root : InstallRoot
  applies : List Applying
  retains : List Retaining

/-- A call starts, or one that has started takes a step. A retain starts with
the ids its listing of the root found. -/
inductive Action where
  | apply (plan : Plan)
  | advance (thread : Nat) (move : Move)
  | retain (live ids : List String)
  | sweep (thread : Nat) (answer : Answer)
deriving DecidableEq

/-- An apply that has checked the names of its plan. -/
def Applying.start (plan : Plan) : Applying where
  plan
  stage := match refuseUnsafeNames plan with
    | .ok () => .resolving
    | .error error => .returned (.error error)

namespace Installs

/-- A root no call runs on. -/
def idle (root : InstallRoot) : Installs := ⟨root, [], []⟩

/-- One step of one call. -/
def step (sha256 : Bytes → ArtifactDigest) (installs : Installs) :
    Action → Option Installs
  | .apply plan => some { installs with applies := installs.applies ++ [.start plan] }
  | .advance thread move => do
      let apply ← installs.applies[thread]?
      let (root, stage) ← apply.step sha256 installs.root move
      some { installs with root, applies := installs.applies.set thread { apply with stage } }
  | .retain live ids =>
      some { installs with retains := installs.retains ++ [⟨live, ids, [], .looking⟩] }
  | .sweep thread answer => do
      let retain ← installs.retains[thread]?
      let (root, retain) ← retain.step installs.root answer
      some { installs with root, retains := installs.retains.set thread retain }

end Installs

end Retrovert.Apply
