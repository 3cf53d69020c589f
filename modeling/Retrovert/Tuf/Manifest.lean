import Retrovert.Transport.Digest

/-!
# The release-set manifest

The manifest lists the artifacts of one release set. Parsing is deserialization
and then a pass of checks over what came out; only the second is spelled out
here, the first is a parameter (`Reader`).
-/

set_option autoImplicit false

namespace Retrovert.Tuf

/-- The target path the manifest is published under. -/
def targetPath : String := "manifest.json"

/-- The manifest schema this build reads. -/
def schemaVersion : Nat := 1

/-- One artifact of a release set. -/
structure Artifact where
  name : String
  target : Option String
  path : String
  sha256 : String
  size : Nat
  revision : String
  version : Option String
deriving DecidableEq

/-- A release set. -/
structure Manifest where
  schema : Nat
  version : Nat
  sourceRevision : String
  published : String
  artifacts : List Artifact
deriving DecidableEq

/-- What JSON and RFC 3339 make of bytes and text. -/
structure Reader where
  schema : Bytes → Option Nat
  manifest : Bytes → Option Manifest
  isTimestamp : String → Bool

/-- Why a manifest is refused. -/
inductive ManifestError where
  | json
  | schema (found : Nat)
  | version
  | sourceRevision
  | published (text : String)
  | name
  | duplicate (name : String) (target : Option String)
  | target (name : String)
  | revision (name : String)
  | sha256 (name : String)
  | path (name path : String)
deriving DecidableEq

/-! ## Names -/

/-- Whether `text` is a lower-case hex SHA-256. -/
def isHexSha256 (text : String) : Bool :=
  text.toList.length == 64 &&
    text.toList.all fun char => ('0' ≤ char && char ≤ '9') || ('a' ≤ char && char ≤ 'f')

/-- The name of a file or a folder in its parent. -/
abbrev Component := List Char

/-- The components of a path. -/
def components (path : String) : List Component :=
  path.toList.splitOn '/'

/-- The characters a path may not hold: controls, and those that a path resolver
or a URL would take for something else. -/
def isForbidden (char : Char) : Bool :=
  char.toNat < 32 || char.toNat == 127 || ['\\', ':', '?', '#', '%'].contains char

/-- Whether `path` is a relative path that stays under what it is resolved
against. -/
def isCleanRelativePath (path : String) : Bool :=
  !path.toList.isEmpty && !path.toList.any isForbidden &&
    (components path).all fun part => !part.isEmpty && part != ['.'] && part != ['.', '.']

/-- Where an artifact is placed beneath a directory. -/
def Artifact.place (artifact : Artifact) : List Component := components artifact.path

/-! ## Parsing -/

/-- The checks on one artifact, past those whose names have been seen. -/
def Artifact.check (seen : List (String × Option String)) (artifact : Artifact) :
    Except ManifestError Unit :=
  if artifact.name = "" then .error .name
  else if (artifact.name, artifact.target) ∈ seen then
    .error (.duplicate artifact.name artifact.target)
  else if artifact.target = some "" then .error (.target artifact.name)
  else if artifact.revision = "" then .error (.revision artifact.name)
  else if !isHexSha256 artifact.sha256 then .error (.sha256 artifact.name)
  else if !isCleanRelativePath artifact.path then .error (.path artifact.name artifact.path)
  else .ok ()

/-- The checks on the artifacts, in order. -/
def checkArtifacts (seen : List (String × Option String)) :
    List Artifact → Except ManifestError Unit
  | [] => .ok ()
  | artifact :: rest =>
      match artifact.check seen with
      | .error error => .error error
      | .ok () => checkArtifacts ((artifact.name, artifact.target) :: seen) rest

/-- The checks on a manifest that has been read. -/
def Manifest.check (reader : Reader) (manifest : Manifest) : Except ManifestError Unit :=
  if manifest.version = 0 then .error .version
  else if manifest.sourceRevision = "" then .error .sourceRevision
  else if !reader.isTimestamp manifest.published then .error (.published manifest.published)
  else checkArtifacts [] manifest.artifacts

/-- Parse and validate manifest bytes. The schema is read first, so that a later
document reports the version it is. -/
def Manifest.parse (reader : Reader) (bytes : Bytes) : Except ManifestError Manifest :=
  match reader.schema bytes with
  | none => .error .json
  | some schema =>
      if schema ≠ schemaVersion then .error (.schema schema)
      else match reader.manifest bytes with
        | none => .error .json
        | some manifest =>
            match manifest.check reader with
            | .error error => .error error
            | .ok () => .ok manifest

/-- The generation id of the manifest serialized as `bytes`. -/
def generationId (sha256 : Bytes → Transport.ArtifactDigest) (bytes : Bytes) : String :=
  (sha256 bytes).toHex

end Retrovert.Tuf
