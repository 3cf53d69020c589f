import Retrovert.Transport.Digest
import Retrovert.Transport.Meta

/-!
# The download cache

An entry of the cache is a file named for the digest its bytes are expected to
have, with its resume sidecar beside it. The cache directory is a disk whose
names are these: the two file names of a digest are distinct, and those of
different digests are too, so the digest itself stands for the path.
-/

set_option autoImplicit false

namespace Retrovert.Transport

/-- The file names of the cache directory. -/
inductive CacheName where
  | artifact (digest : ArtifactDigest)
  | sidecar (digest : ArtifactDigest)
deriving DecidableEq

/-- The cache directory. -/
abbrev Cache := Disk CacheName

namespace Cache

/-- Where the artifact with this digest is cached. -/
def pathFor (digest : ArtifactDigest) : CacheName := .artifact digest

/-- The sidecar of the entry at `path`, when there is one to read. -/
def readMeta (cache : Cache) (path : ArtifactDigest) : Option Meta :=
  (cache.read (.sidecar path)).bind deserialize

def writeMeta (cache : Cache) (path : ArtifactDigest) (record : Meta) : Cache :=
  cache.write (.sidecar path) (serialize record)

def deleteMeta (cache : Cache) (path : ArtifactDigest) : Cache :=
  cache.remove (.sidecar path)

/-- Complete means the file exists, is non-empty, and its sidecar says every
byte arrived. -/
def isCompleteAt (cache : Cache) (path : ArtifactDigest) : Bool :=
  match cache.read (.artifact path) with
  | none => false
  | some content =>
      if content.length = 0 then false
      else match cache.readMeta path with
        | some record => record.bytesWritten == record.fileSize
        | none => false

/-- Drop the entry and its sidecar. -/
def evict (cache : Cache) (digest : ArtifactDigest) : Cache :=
  (cache.deleteMeta digest).remove (.artifact digest)

/-! ## Reading back -/

/-- The sidecar written is the one read, when its sizes fit. -/
theorem readMeta_writeMeta (cache : Cache) (path : ArtifactDigest) (record : Meta) :
    (cache.writeMeta path record).readMeta path =
      if record.fileSize.toNat < 2 ^ 63 ∧ record.bytesWritten.toNat < 2 ^ 63 then some record
      else none := by
  simp only [readMeta, writeMeta, Disk.read_write_self, Option.bind_some, deserialize_serialize]

theorem isCompleteAt_iff (cache : Cache) (path : ArtifactDigest) :
    cache.isCompleteAt path = true ↔
      ∃ content record, cache.read (.artifact path) = some content ∧ content ≠ [] ∧
        cache.readMeta path = some record ∧ record.bytesWritten = record.fileSize := by
  unfold isCompleteAt
  cases cache.read (.artifact path) with
  | none => simp
  | some content =>
      cases cache.readMeta path with
      | none => simp
      | some record => simp [List.length_eq_zero_iff]

/-- An entry is as complete as its file and its sidecar make it. -/
theorem isCompleteAt_congr {cache later : Cache} {path : ArtifactDigest}
    (file : later.read (.artifact path) = cache.read (.artifact path))
    (sidecar : later.read (.sidecar path) = cache.read (.sidecar path)) :
    later.isCompleteAt path = cache.isCompleteAt path := by
  simp only [isCompleteAt, readMeta, file, sidecar]

@[simp] theorem readMeta_deleteMeta (cache : Cache) (path : ArtifactDigest) :
    (cache.deleteMeta path).readMeta path = none := by
  simp [readMeta, deleteMeta]

end Cache

end Retrovert.Transport
