import Retrovert.Library.Writes
import Retrovert.Tuf.Manifest
import Retrovert.Tuf.Metadata

/-!
# The channel's online metadata chain, and the commands that advance it

Publishing a generation and re-signing differ only in what the targets role ends
up saying. Either reads the versions in force, signs targets and the snapshot and
timestamp that pin it, and writes the three in that order; a publish writes its
manifest first. `timestamp.json` is the one name that does not carry a version, so
its write is the commit point.

A command is the list of the writes it makes and what it returns. It computes
everything it signs before the first metadata write, so a command that is cut off
has landed a prefix of its list.
-/

set_option autoImplicit false

namespace Retrovert.Publish

open Retrovert.Transport (ArtifactDigest)
open Retrovert.Tuf

/-- Seconds since the Unix epoch. -/
abbrev Time := Int

/-- What a publisher works with: SHA-256, how documents are read and written, the
keys of its workspace, and the expiry policy. -/
structure Publisher where
  sha256 : Bytes → ArtifactDigest
  reader : Reader
  targets : Codec Targets
  snapshot : Codec Snapshot
  timestamp : Codec Timestamp
  keys : RoleName → Option KeyPair
  expires : RoleName → Time → Option String

/-- Errors produced by publish-side commands. -/
inductive Error where
  | manifest (error : ManifestError)
  | io (file : FileName)
  | metadata (file : FileName)
  | missingPin (file : FileName) (name : String)
  | versionExhausted (file : FileName) (version : Nat)
  | key (role : RoleName)
  | signing (role : RoleName)
  | policy (role : RoleName)
deriving DecidableEq

/-! ## Reading the chain in force -/

/-- The payload of a metadata file. -/
def payload {α : Type} (codec : Codec α) (bytes : Bytes) : Option α :=
  (codec.fromJson bytes).map Signed.signed

def readSigned {α : Type} (codec : Codec α) (files : Files FileName) (file : FileName) :
    Except Error α :=
  match files file with
  | none => .error (.io file)
  | some bytes =>
      match payload codec bytes with
      | none => .error (.metadata file)
      | some role => .ok role

/-- Advance a version counter, refusing to wrap. -/
def nextVersion (version : Nat) (file : FileName) : Except Error Nat :=
  if version + 1 < 2 ^ 64 then .ok (version + 1) else .error (.versionExhausted file version)

def pinnedVersion (pins : Finmap fun _ : String => MetaFile) (file : FileName)
    (child : RoleName) : Except Error Nat :=
  match pins.lookup child.fileName with
  | some pin => .ok pin.version
  | none => .error (.missingPin file child.fileName)

/-- The versions a channel's next write advances its online roles to, and the
targets file that it supersedes. -/
structure Next where
  targets : Nat
  snapshot : Nat
  timestamp : Nat
  currentTargets : FileName
deriving DecidableEq

/-- Read the chain in force: timestamp names the snapshot, which names the
targets. -/
def Next.read (publisher : Publisher) (files : Files FileName) : Except Error Next := do
  let timestampPath := FileName.unversioned .timestamp
  let timestamp ← readSigned publisher.timestamp files timestampPath
  let snapshotPin ← pinnedVersion timestamp.pins timestampPath .snapshot
  let snapshotPath := FileName.versioned .snapshot snapshotPin
  let snapshot ← readSigned publisher.snapshot files snapshotPath
  let targetsPin ← pinnedVersion snapshot.pins snapshotPath .targets
  let targets ← nextVersion targetsPin snapshotPath
  let nextSnapshot ← nextVersion snapshot.version snapshotPath
  let nextTimestamp ← nextVersion timestamp.version timestampPath
  return ⟨targets, nextSnapshot, nextTimestamp, .versioned .targets targetsPin⟩

/-! ## Committing -/

/-- A role as one write left it. -/
structure SignedRole where
  role : RoleName
  version : Nat
  expires : String
deriving DecidableEq

/-- What a commit writes. -/
structure Committed where
  writes : List (FileName × Bytes)
  roles : List SignedRole

section Commands

variable (publisher : Publisher)

/-- The file of a payload, signed with the role's key. -/
def sign {α : Type} (codec : Codec α) (role : RoleName) (payload : α) : Except Error Bytes :=
  match publisher.keys role with
  | none => .error (.key role)
  | some key =>
      match (Signed.new codec payload [key]).bind codec.toJson with
      | none => .error (.signing role)
      | some bytes => .ok bytes

def expiry (role : RoleName) (now : Time) : Except Error String :=
  match publisher.expires role now with
  | none => .error (.policy role)
  | some expires => .ok expires

/-- The writes that publish a role's file. -/
def publication (role : RoleName) (version : Nat) (bytes : Bytes) : List (FileName × Bytes) :=
  (publishedNames role version).map fun name => (name, bytes)

/-- Sign `targets` and the snapshot and timestamp that pin it, and write all
three. -/
def commit (targets : Targets) (next : Next) (now : Time) : Except Error Committed := do
  let targetsBytes ← sign publisher publisher.targets .targets targets
  let snapshotExpires ← expiry publisher .snapshot now
  let snapshotBytes ← sign publisher publisher.snapshot .snapshot
    (.new next.snapshot snapshotExpires (Finmap.singleton RoleName.targets.fileName
      (.pinning publisher.sha256 targets.version targetsBytes)))
  let timestampExpires ← expiry publisher .timestamp now
  let timestampBytes ← sign publisher publisher.timestamp .timestamp
    (.new next.timestamp timestampExpires
      (.pinning publisher.sha256 next.snapshot snapshotBytes))
  return {
    writes := publication .targets targets.version targetsBytes ++
      publication .snapshot next.snapshot snapshotBytes ++
      publication .timestamp next.timestamp timestampBytes
    roles := [⟨.targets, targets.version, targets.expires⟩,
      ⟨.snapshot, next.snapshot, snapshotExpires⟩,
      ⟨.timestamp, next.timestamp, timestampExpires⟩] }

/-! ## Commands -/

/-- What a publish reports: the release-set number names the generation's own
release. -/
structure PublishReport where
  generationId : String
  sourceRevision : String
  version : Nat
  written : List FileName
deriving DecidableEq

structure ResignReport where
  roles : List SignedRole
  written : List FileName
deriving DecidableEq

/-- The writes a command makes, in order, and what it returns. -/
structure Attempt (α : Type) where
  writes : List (FileName × Bytes)
  result : Except Error α

/-- An attempt that fails before it writes anything. -/
def Attempt.refuse {α : Type} (error : Error) : Attempt α := ⟨[], .error error⟩

/-- The entry that lists a manifest. -/
def manifestEntry (sha256 : Bytes → ArtifactDigest) (manifest : Bytes) : TargetFile where
  length := manifest.length
  hashes := sha256Map sha256 manifest
  extra := .none

/-- What a publish does once it has read its manifest and the chain. -/
def publishNext (bytes : Bytes) (manifest : Manifest) (next : Next) (now : Time) :
    Attempt PublishReport :=
  match expiry publisher .targets now with
  | .error error => .refuse error
  | .ok expires =>
      let id := generationId publisher.sha256 bytes
      let target := (FileName.target targetPath id, bytes)
      let targets := Targets.new next.targets expires
        (Finmap.singleton targetPath (manifestEntry publisher.sha256 bytes))
      match commit publisher targets next now with
      | .error error => ⟨[target], .error error⟩
      | .ok committed =>
          let writes := target :: committed.writes
          ⟨writes, .ok ⟨id, manifest.sourceRevision, manifest.version, writes.map Prod.fst⟩⟩

/-- Publish a manifest as the channel's next generation. -/
def publish (files : Files FileName) (bytes : Bytes) (now : Time) : Attempt PublishReport :=
  match Manifest.parse publisher.reader bytes with
  | .error error => .refuse (.manifest error)
  | .ok manifest =>
      match Next.read publisher files with
      | .error error => .refuse error
      | .ok next => publishNext publisher bytes manifest next now

/-- Re-sign the online roles, leaving what the targets list as it is. -/
def resign (files : Files FileName) (now : Time) : Attempt ResignReport :=
  let committed : Except Error Committed := do
    let next ← Next.read publisher files
    let current ← readSigned publisher.targets files next.currentTargets
    let expires ← expiry publisher .targets now
    commit publisher { current with version := next.targets, expires } next now
  match committed with
  | .error error => .refuse error
  | .ok committed =>
      ⟨committed.writes, .ok ⟨committed.roles, committed.writes.map Prod.fst⟩⟩

end Commands

end Retrovert.Publish
