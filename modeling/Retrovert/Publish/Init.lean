import Retrovert.Library.Tree
import Retrovert.Publish.Chain
import Retrovert.Tuf.Signing

/-!
# Creating a channel

`init` describes the root and checks who signs it, makes the directories and writes the
private keys, clears the channel that was there if it is forced to, and then signs the four
roles and writes them.

A workspace is a tree, and a run of `init` leaves one and returns a report or an error. The
names that `init` knows are told apart from each other and from all the others. What it works
with is a parameter (`Ceremony`); permissions and links are left out.
-/

set_option autoImplicit false

namespace Retrovert.Publish

open Retrovert.Tuf

/-- The version every role carries in a freshly initialized channel. -/
def initialVersion : Nat := 1

/-! ## The workspace -/

/-- A name in a workspace. -/
inductive Entry where
  | keys
  | online
  | offline
  | pem (role : RoleName)
  | repository
  | metadata
  | targets
  | published (file : FileName)
  | other (name : String)
deriving DecidableEq

/-- Where something stands in a workspace. -/
abbrev Place := List Entry

namespace Workspace

def onlineDir : Place := [.keys, .online]

def offlineDir : Place := [.keys, .offline]

def metadataDir : Place := [.repository, .metadata]

def targetsDir : Place := [.repository, .targets]

/-- Where a role's private key lives. -/
def keyPath (role : RoleName) : Place :=
  match role with
  | .root => offlineDir ++ [.pem role]
  | .targets | .snapshot | .timestamp => onlineDir ++ [.pem role]

def metadataPath (file : FileName) : Place := metadataDir ++ [.published file]

/-- Whether the root directory is absent or has no entries. It cannot be read if it is a
file. -/
def isEmpty (workspace : Tree Entry) : Option Bool :=
  match workspace.nodeAt [] with
  | none => some true
  | some .folder => some (decide (workspace.Leaf []))
  | some (.file _) => none

end Workspace

open Workspace

/-! ## Keys -/

/-- How a channel's root is keyed: by one key generated here, or by keys held elsewhere, of
which some are present to sign. -/
inductive RootKeys where
  | generated (key : SigningKey)
  | held (authorized : List PublicKey) (threshold : Nat) (signing : List SigningKey)

/-- The keys a channel is initialized with. -/
structure KeySet where
  root : RootKeys
  targets : SigningKey
  snapshot : SigningKey
  timestamp : SigningKey

inductive InitError where
  | notEmpty
  | io (place : Place)
  | policy (role : RoleName)
  | json
  | authorization (error : AuthorizationError)
  | notEnoughRootSigners (present threshold : Nat)
  | unauthorizedRootSigner (keyId : String)
  | signing (error : SigningError)
deriving DecidableEq

/-- What `init` works with: how documents are hashed and signed, how they are written, and
when they expire. -/
structure Ceremony where
  hashing : Hashing
  scheme : Ed25519
  text : Json → Bytes
  expires : RoleName → Time → Option String

variable (ceremony : Ceremony)

namespace RootKeys

/-- How the root role is described in the root metadata. -/
def authorization : RootKeys → RoleAuthorization
  | .generated key => .single .root (key.publicKey ceremony.scheme)
  | .held authorized threshold _ => ⟨.root, authorized, threshold⟩

/-- Whether each signing key goes by one of the given ids. -/
def checkAuthorized (authorized : List String) : List SigningKey → Except InitError Unit
  | [] => .ok ()
  | key :: rest =>
      match key.keyId ceremony.hashing ceremony.scheme with
      | none => .error .json
      | some id =>
          if id ∈ authorized then checkAuthorized authorized rest
          else .error (.unauthorizedRootSigner id)

/-- The keys that sign the root, which can meet the threshold and are all authorized. -/
def signers : RootKeys → Except InitError (List SigningKey)
  | .generated key => .ok [key]
  | .held authorized threshold signing =>
      if signing.length < threshold then
        .error (.notEnoughRootSigners signing.length threshold)
      else
        match authorized.mapM (PublicKey.keyId ceremony.hashing) with
        | none => .error .json
        | some ids => do
            checkAuthorized ceremony ids signing
            return signing

/-- The key to store, when the channel has one. -/
def toStore : RootKeys → Option SigningKey
  | .generated key => some key
  | .held _ _ _ => none

end RootKeys

def onlineRoles : List RoleName := [.targets, .snapshot, .timestamp]

/-- All roles, in the order their keys are written in. -/
def allRoles : List RoleName := [.root, .targets, .snapshot, .timestamp]

namespace KeySet

/-- The key this set holds for a role, if it holds one. -/
def get (keys : KeySet) : RoleName → Option SigningKey
  | .root => keys.root.toStore
  | .targets => some keys.targets
  | .snapshot => some keys.snapshot
  | .timestamp => some keys.timestamp

/-- How every role is authorized in the root metadata. -/
def authorizations (keys : KeySet) : List RoleAuthorization :=
  keys.root.authorization ceremony :: onlineRoles.filterMap fun role =>
    (keys.get role).map fun key => .single role (key.publicKey ceremony.scheme)

/-- The private keys that are written, each where it lives. -/
def stored (keys : KeySet) : List (Place × Bytes) :=
  allRoles.filterMap fun role =>
    (keys.get role).map fun key => (keyPath role, ceremony.scheme.toPkcs8Pem key.seed)

end KeySet

/-! ## Steps -/

/-- What is checked before anything is written: that the workspace may be taken, that the
root can be described, and that its signers can sign it. -/
def check (workspace : Tree Entry) (keys : KeySet) (now : Time) (force : Bool) :
    Except InitError (Root × List SigningKey) :=
  if force = false ∧ isEmpty workspace = none then .error (.io [])
  else if force = false ∧ isEmpty workspace = some false then .error .notEmpty
  else
    match ceremony.expires .root now with
    | none => .error (.policy .root)
    | some expires =>
        match Root.new ceremony.hashing initialVersion expires (keys.authorizations ceremony) with
        | .error error => .error (.authorization error)
        | .ok root =>
            match keys.root.signers ceremony with
            | .error error => .error error
            | .ok signers => .ok (root, signers)

/-- Make the directories of the key store. -/
def storeDirs : List (Tree.Operation Entry) :=
  [[.keys], onlineDir, offlineDir].flatMap Tree.createDirAll

/-- Clear the published directories of the channel that was there. -/
def clearing (force : Bool) : List (Tree.Operation Entry) :=
  if force then [.removeAll metadataDir, .removeAll targetsDir] else []

def channelDirs : List (Tree.Operation Entry) :=
  [metadataDir, targetsDir].flatMap Tree.createDirAll

/-- Write files, each as a whole. -/
def writing (files : List (Place × Bytes)) : List (Tree.Operation Entry) :=
  files.map fun file => .write file.1 file.2

/-- What is done to the workspace before anything is signed. -/
def preparation (keys : KeySet) (force : Bool) : List (Tree.Operation Entry) :=
  storeDirs ++ writing (keys.stored ceremony) ++ clearing force ++ channelDirs

namespace Ceremony

/-- The file of a payload that is signed with the given keys. -/
def signed {α : Type} (write : α → Json) (payload : α) (keys : List SigningKey) :
    Except InitError Bytes :=
  match Signed.sign ceremony.hashing ceremony.scheme write payload keys with
  | .error error => .error (.signing error)
  | .ok envelope => .ok (ceremony.text (envelope.write write))

def expiry (role : RoleName) (now : Time) : Except InitError String :=
  match ceremony.expires role now with
  | none => .error (.policy role)
  | some expires => .ok expires

/-- A role's file, under each of its names. -/
def writeRole (role : RoleName) (bytes : Bytes) : List (Place × Bytes) :=
  (publishedNames role initialVersion).map fun name => (metadataPath name, bytes)

/-- The metadata of a channel without targets. A role is signed after what it pins. -/
def generation (root : Root) (signers : List SigningKey) (keys : KeySet) (now : Time) :
    Except InitError (List (Place × Bytes)) := do
  let rootFile ← ceremony.signed Root.write root signers
  let expires ← ceremony.expiry .targets now
  let targets ← ceremony.signed Targets.write (.new initialVersion expires ∅) [keys.targets]
  let expires ← ceremony.expiry .snapshot now
  let snapshot ← ceremony.signed Snapshot.write
    (.new initialVersion expires (Finmap.singleton RoleName.targets.fileName
      (.pinning ceremony.hashing.sha256 initialVersion targets))) [keys.snapshot]
  let expires ← ceremony.expiry .timestamp now
  let timestamp ← ceremony.signed Timestamp.write
    (.new initialVersion expires
      (.pinning ceremony.hashing.sha256 initialVersion snapshot)) [keys.timestamp]
  return writeRole .root rootFile ++ writeRole .targets targets ++ writeRole .snapshot snapshot ++
    writeRole .timestamp timestamp

end Ceremony

/-- What `init` wrote: the metadata and the private keys, the ids of the root's keys, and how
many of them a root needs. -/
structure InitReport where
  metadata : List Place
  keys : List Place
  rootKeyIds : List String
  rootThreshold : Nat
deriving DecidableEq

/-- Initialize a workspace as a channel signed by the given keys: what it then holds, and the
report or the error. -/
def init (workspace : Tree Entry) (keys : KeySet) (now : Time) (force : Bool) :
    Tree Entry × Except InitError InitReport :=
  match check ceremony workspace keys now force with
  | .error error => (workspace, .error error)
  | .ok (root, signers) =>
      match workspace.perform (preparation ceremony keys force) with
      | (prepared, some place) => (prepared, .error (.io place))
      | (prepared, none) =>
          match ceremony.generation root signers keys now with
          | .error error => (prepared, .error error)
          | .ok files =>
              match prepared.perform (writing files) with
              | (written, some place) => (written, .error (.io place))
              | (written, none) =>
                  (written, .ok
                    { metadata := files.map Prod.fst
                      keys := (keys.stored ceremony).map Prod.fst
                      rootKeyIds := (root.roles.lookup RoleName.root.asStr).elim [] RoleKeys.keyids
                      rootThreshold :=
                        (root.roles.lookup RoleName.root.asStr).elim 0 RoleKeys.threshold })

end Retrovert.Publish
