import Retrovert.Queue.Shared
import Retrovert.Tuf.Manifest

/-!
# Plans, and the names they may put on disk

A plan is the artifacts that one generation asks of this consumer. Its
generation id names a directory and the artifacts' paths name files inside it,
so both are checked before either reaches the filesystem: the id is the hex
SHA-256 of a manifest, and a path is a clean relative one. Two artifacts that
want one path are refused.
-/

set_option autoImplicit false

namespace Retrovert.Apply

open Retrovert.Transport Retrovert.Tuf

/-! ## Plans -/

/-- The artifacts of one generation that apply to this consumer, in manifest
order. -/
structure Plan where
  generationId : String
  releaseVersion : Nat
  artifacts : List Artifact
deriving DecidableEq

/-- One artifact as it sits in a published generation. -/
structure Installed where
  name : String
  target : Option String
  version : Option String
  revision : String
  sha256 : String
  size : Nat
  path : String
deriving DecidableEq

/-- What is recorded of an artifact once its verified copy is in place. -/
def installedFrom (artifact : Artifact) (digest : ArtifactDigest) : Installed where
  name := artifact.name
  target := artifact.target
  version := artifact.version
  revision := artifact.revision
  sha256 := digest.toHex
  size := artifact.size
  path := artifact.path

/-- What an apply reports to its caller. -/
inductive Error where
  | artifact (name : String) (source : Queue.Failure)
  | cancelled (name : String)
  | digest (name digest : String)
  | unsafePath (name path : String)
  | generationId (id : String)
  | collision (first second path : String)
  | install
deriving DecidableEq

/-- The digest an artifact's bytes are fetched and verified under. -/
def digestOf (artifact : Artifact) : Except Error ArtifactDigest :=
  match ArtifactDigest.fromHex artifact.sha256 with
  | some digest => .ok digest
  | none => .error (.digest artifact.name artifact.sha256)

/-! ## Refusals -/

def refuseUnsafePath (artifact : Artifact) : Except Error Unit :=
  if isCleanRelativePath artifact.path then .ok ()
  else .error (.unsafePath artifact.name artifact.path)

/-- Refuse a plan whose generation id is not a manifest digest, or whose paths
could climb out of the generation's directory. -/
def refuseUnsafeNames (plan : Plan) : Except Error Unit :=
  if isHexSha256 plan.generationId then plan.artifacts.forM refuseUnsafePath
  else .error (.generationId plan.generationId)

/-- The artifact that claimed a path last. -/
def claimant (claimed : List Artifact) (path : String) : Option Artifact :=
  claimed.find? (·.path == path)

/-- The pass over the artifacts that `refuseCollisions` makes, past those that
have claimed their paths. -/
def refuseCollisionsFrom (claimed : List Artifact) : List Artifact → Except Error Unit
  | [] => .ok ()
  | artifact :: rest =>
      match claimant claimed artifact.path with
      | some first => .error (.collision first.name artifact.name artifact.path)
      | none => refuseCollisionsFrom (artifact :: claimed) rest

/-- Refuse a plan whose artifacts want the same path in the generation. -/
def refuseCollisions (artifacts : List Artifact) : Except Error Unit :=
  refuseCollisionsFrom [] artifacts

end Retrovert.Apply
