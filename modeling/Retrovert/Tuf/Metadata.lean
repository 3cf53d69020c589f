import Mathlib.Data.Finmap
import Retrovert.Library.Json
import Retrovert.Transport.Digest

/-!
# The metadata of a channel

The root lists the keys of every role and how many of them must sign, and is trusted from
elsewhere. The online roles are targets, which lists the distributable files, snapshot,
which pins the targets metadata, and timestamp, which pins the snapshot. Each is
published inside an envelope that carries the signatures over its canonical form.

Every object keeps the fields it does not know. A field of this kind never has
the name of a known one, so what is written can be told apart again.

JSON and signing are parameters (`Codec`, `KeyPair`): what the publisher relies on
is that the file written for a payload that could be signed reads back as it was.
-/

set_option autoImplicit false

namespace Retrovert.Tuf

open Retrovert.Transport (ArtifactDigest)

/-! ## Roles and file names -/

/-- The four top-level roles. -/
inductive RoleName where
  | root
  | targets
  | snapshot
  | timestamp
deriving DecidableEq

namespace RoleName

def asStr : RoleName → String
  | .root => "root"
  | .targets => "targets"
  | .snapshot => "snapshot"
  | .timestamp => "timestamp"

/-- The unversioned metadata file name. -/
def fileName (role : RoleName) : String := role.asStr ++ ".json"

end RoleName

/-- The names files are published under: metadata without its version or with it,
and a target under its path and its digest. -/
inductive FileName where
  | unversioned (role : RoleName)
  | versioned (role : RoleName) (version : Nat)
  | target (path digest : String)
deriving DecidableEq

/-- The names a role's metadata is published under. -/
def publishedNames (role : RoleName) (version : Nat) : List FileName :=
  match role with
  | .timestamp => [.unversioned role]
  | .root => [.versioned role version, .unversioned role]
  | .targets | .snapshot => [.versioned role version]

/-! ## Fields -/

/-- The value of an unknown field. Nothing looks inside. -/
abbrev Value := Json

/-- The unknown fields of an object whose known fields are given. -/
structure Extra (known : List String) where
  fields : Finmap fun _ : String => Value
  apart : ∀ key ∈ known, key ∉ fields
deriving DecidableEq

/-- No unknown fields. -/
def Extra.none {known : List String} : Extra known := ⟨∅, fun _ _ => Finmap.notMem_empty⟩

/-- The hashes of a file: the algorithm to the hex digest. -/
abbrev Hashes := Finmap fun _ : String => String

/-- The hash map recorded for a file. -/
def sha256Map (sha256 : Bytes → ArtifactDigest) (bytes : Bytes) : Hashes :=
  Finmap.singleton "sha256" (sha256 bytes).toHex

/-- A reference to another metadata file, as a parent role records it. -/
structure MetaFile where
  version : Nat
  length : Option Nat
  hashes : Option Hashes
  extra : Extra ["version", "length", "hashes"]
deriving DecidableEq

/-- Pin the exact published file at `version`. -/
def MetaFile.pinning (sha256 : Bytes → ArtifactDigest) (version : Nat) (bytes : Bytes) :
    MetaFile where
  version
  length := some bytes.length
  hashes := some (sha256Map sha256 bytes)
  extra := .none

/-- A distributable file's metadata. -/
structure TargetFile where
  length : Nat
  hashes : Hashes
  extra : Extra ["length", "hashes"]
deriving DecidableEq

/-- The TUF specification version this publisher writes. -/
def specVersion : String := "1.0.33"

/-! ## Roles -/

/-- The inventory of distributable files. -/
structure Targets where
  type : String
  specVersion : String
  version : Nat
  expires : String
  targets : Finmap fun _ : String => TargetFile
  extra : Extra ["_type", "spec_version", "version", "expires", "targets"]
deriving DecidableEq

/-- The pin on the version of the targets metadata. -/
structure Snapshot where
  type : String
  specVersion : String
  version : Nat
  expires : String
  pins : Finmap fun _ : String => MetaFile
  extra : Extra ["_type", "spec_version", "version", "expires", "meta"]
deriving DecidableEq

/-- The pin on the current snapshot. -/
structure Timestamp where
  type : String
  specVersion : String
  version : Nat
  expires : String
  pins : Finmap fun _ : String => MetaFile
  extra : Extra ["_type", "spec_version", "version", "expires", "meta"]
deriving DecidableEq

/-- The inner object of a key. -/
structure KeyVal where
  publicHex : String
  extra : Extra ["public"]
deriving DecidableEq

/-- The public half of a signing key. -/
structure PublicKey where
  keytype : String
  scheme : String
  keyval : KeyVal
  extra : Extra ["keytype", "scheme", "keyval"]
deriving DecidableEq

/-- The keys that may sign for a role, and how many of them must. -/
structure RoleKeys where
  keyids : List String
  threshold : Nat
  extra : Extra ["keyids", "threshold"]
deriving DecidableEq

/-- The trust anchor: every key under its id, and the keys of every role. -/
structure Root where
  type : String
  specVersion : String
  version : Nat
  expires : String
  consistentSnapshot : Bool
  keys : Finmap fun _ : String => PublicKey
  roles : Finmap fun _ : String => RoleKeys
  extra : Extra ["_type", "spec_version", "version", "expires", "consistent_snapshot", "keys",
    "roles"]
deriving DecidableEq

def Targets.new (version : Nat) (expires : String)
    (targets : Finmap fun _ : String => TargetFile) : Targets where
  type := RoleName.targets.asStr
  specVersion := Tuf.specVersion
  version
  expires
  targets
  extra := .none

def Snapshot.new (version : Nat) (expires : String) (pins : Finmap fun _ : String => MetaFile) :
    Snapshot where
  type := RoleName.snapshot.asStr
  specVersion := Tuf.specVersion
  version
  expires
  pins
  extra := .none

def Timestamp.new (version : Nat) (expires : String) (snapshot : MetaFile) : Timestamp where
  type := RoleName.timestamp.asStr
  specVersion := Tuf.specVersion
  version
  expires
  pins := Finmap.singleton RoleName.snapshot.fileName snapshot
  extra := .none

/-! ## Signing -/

/-- One signature over the canonical form of a payload. -/
structure Signature where
  keyid : String
  sig : String
  extra : Extra ["keyid", "sig"]
deriving DecidableEq

/-- A metadata file: a payload and the signatures over it. -/
structure Signed (α : Type) where
  signatures : List Signature
  signed : α
  extra : Extra ["signatures", "signed"]
deriving DecidableEq

/-- A signing key: its id, and the hex signature it gives a message. -/
structure KeyPair where
  keyId : String
  signHex : Bytes → String

/-- How a payload becomes bytes. `canonical` is what signatures cover; it fails on
numbers that are not integers. `toJson` and `fromJson` write and read the published
file, and a payload that has a canonical form is read back as it was written. -/
structure Codec (α : Type) where
  canonical : α → Option Bytes
  toJson : Signed α → Option Bytes
  fromJson : Bytes → Option (Signed α)
  reads_back : ∀ envelope covered bytes, canonical envelope.signed = some covered →
    toJson envelope = some bytes → fromJson bytes = some envelope

/-- Sign a payload with every key. Two keys of one id are an error. -/
def Signed.new {α : Type} (codec : Codec α) (payload : α) (keys : List KeyPair) :
    Option (Signed α) := do
  let canonical ← codec.canonical payload
  let signatures := (keys.map fun key => (⟨key.keyId, key.signHex canonical, .none⟩ : Signature))
    |>.mergeSort fun first second => first.keyid ≤ second.keyid
  if (signatures.map Signature.keyid).Nodup then some ⟨signatures, payload, .none⟩ else none

/-- A payload that was signed and written is read back. -/
theorem Signed.reads_back {α : Type} {codec : Codec α} {payload : α} {keys : List KeyPair}
    {envelope : Signed α} {bytes : Bytes} (signed : Signed.new codec payload keys = some envelope)
    (written : codec.toJson envelope = some bytes) :
    (codec.fromJson bytes).map Signed.signed = some payload := by
  unfold Signed.new at signed
  rw [Option.bind_eq_bind, Option.bind_eq_some_iff] at signed
  obtain ⟨covered, canonical, signed⟩ := signed
  simp only at signed
  split at signed
  · cases signed
    rw [codec.reads_back _ covered bytes canonical written]
    rfl
  · cases signed

end Retrovert.Tuf
