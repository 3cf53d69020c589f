import Retrovert.Library.Fallible
import Retrovert.Publish.Chain

/-!
# Whole chains

A chain is whole in a set of files when the entry point is there and each pin
leads to a file of the pinned version, length and digest. It depends on three
files only (`Whole.congr`), whose names a commit does not write: it writes the
entry point last, and every other file under a version above the pinned one.

What the targets list is looked at apart, since a workspace may not hold it.
-/

set_option autoImplicit false

namespace Retrovert.Publish

open Retrovert.Fallible
open Retrovert.Transport (ArtifactDigest)
open Retrovert.Tuf

/-- The roles that an entry point leads to, with the pins on the way. -/
structure Chain where
  timestamp : Timestamp
  snapshotPin : MetaFile
  snapshot : Snapshot
  targetsPin : MetaFile
  targets : Targets

section

variable (publisher : Publisher)

/-- The file a pin leads to, of the pinned length and digest. -/
def Pinned {α : Type} (codec : Codec α) (files : Files FileName) (file : FileName)
    (pin : MetaFile) (role : α) : Prop :=
  ∃ bytes, files file = some bytes ∧ pin.length = some bytes.length ∧
    pin.hashes = some (sha256Map publisher.sha256 bytes) ∧ payload codec bytes = some role

/-- The metadata chain that `timestamp.json` leads to is there in full. -/
structure Whole (files : Files FileName) (chain : Chain) : Prop where
  timestamp : ∃ bytes, files (.unversioned .timestamp) = some bytes ∧
    payload publisher.timestamp bytes = some chain.timestamp
  pinsSnapshot : chain.timestamp.pins.lookup RoleName.snapshot.fileName = some chain.snapshotPin
  snapshot : Pinned publisher publisher.snapshot files
    (.versioned .snapshot chain.snapshotPin.version) chain.snapshotPin chain.snapshot
  snapshotVersion : chain.snapshot.version = chain.snapshotPin.version
  pinsTargets : chain.snapshot.pins.lookup RoleName.targets.fileName = some chain.targetsPin
  targets : Pinned publisher publisher.targets files
    (.versioned .targets chain.targetsPin.version) chain.targetsPin chain.targets
  targetsVersion : chain.targets.version = chain.targetsPin.version

/-- The file a listed target stands under, by its digest, has the listed length
and hashes. -/
def Serves (sha256 : Bytes → ArtifactDigest) (files : Files FileName) (path : String)
    (entry : TargetFile) : Prop :=
  match entry.hashes.lookup "sha256" with
  | none => False
  | some digest =>
      match files (.target path digest) with
      | none => False
      | some bytes => entry.length = bytes.length ∧ entry.hashes = sha256Map sha256 bytes

instance (sha256 : Bytes → ArtifactDigest) (files : Files FileName) (path : String)
    (entry : TargetFile) : Decidable (Serves sha256 files path entry) := by
  unfold Serves
  split
  · infer_instance
  · split <;> infer_instance

/-- Every file the targets list is there. -/
def Listed (sha256 : Bytes → ArtifactDigest) (files : Files FileName) (targets : Targets) : Prop :=
  ∀ path ∈ targets.targets.keys, ∀ entry ∈ targets.targets.lookup path,
    Serves sha256 files path entry

instance (sha256 : Bytes → ArtifactDigest) (files : Files FileName) (targets : Targets) :
    Decidable (Listed sha256 files targets) :=
  inferInstanceAs (Decidable (∀ path ∈ targets.targets.keys, _))

/-- What the targets list are manifests of the given set. -/
def Known (sha256 : Bytes → ArtifactDigest) (manifests : Set Bytes) (targets : Targets) : Prop :=
  ∀ path entry, targets.targets.lookup path = some entry →
    ∃ manifest ∈ manifests, entry.length = manifest.length ∧
      entry.hashes = sha256Map sha256 manifest

end

variable {publisher : Publisher} {files later : Files FileName} {chain : Chain}

/-! ## What a chain depends on -/

theorem Pinned.congr {α : Type} {codec : Codec α} {file : FileName} {pin : MetaFile} {role : α}
    (pinned : Pinned publisher codec files file pin role) (same : later file = files file) :
    Pinned publisher codec later file pin role := by
  obtain ⟨bytes, found, rest⟩ := pinned
  exact ⟨bytes, same.trans found, rest⟩

/-- A chain is whole wherever its three files are as they are here. -/
theorem Whole.congr (whole : Whole publisher files chain)
    (timestamp : later (.unversioned .timestamp) = files (.unversioned .timestamp))
    (snapshot : later (.versioned .snapshot chain.snapshotPin.version) =
      files (.versioned .snapshot chain.snapshotPin.version))
    (targets : later (.versioned .targets chain.targetsPin.version) =
      files (.versioned .targets chain.targetsPin.version)) :
    Whole publisher later chain := by
  obtain ⟨bytes, found, read⟩ := whole.timestamp
  exact { whole with
    timestamp := ⟨bytes, timestamp.trans found, read⟩
    snapshot := whole.snapshot.congr snapshot
    targets := whole.targets.congr targets }

@[simp] theorem sha256Map_lookup (sha256 : Bytes → ArtifactDigest) (bytes : Bytes) :
    (sha256Map sha256 bytes).lookup "sha256" = some (sha256 bytes).toHex :=
  Finmap.lookup_singleton_eq

/-- Equal hash maps are of equal digests. -/
theorem sha256Map_injective {sha256 : Bytes → ArtifactDigest} {first second : Bytes}
    (same : sha256Map sha256 first = sha256Map sha256 second) : sha256 first = sha256 second := by
  have spelled := congrArg (Finmap.lookup "sha256") same
  simp only [sha256Map_lookup, Option.some.injEq] at spelled
  have parsed := congrArg ArtifactDigest.fromHex spelled
  simpa [ArtifactDigest.fromHex_toHex] using parsed

/-! ## Listed files -/

/-- A write of a target is of a known manifest, under its own digest. -/
def Honest (sha256 : Bytes → ArtifactDigest) (manifests : Set Bytes)
    (write : FileName × Bytes) : Prop :=
  ∀ path digest, write.1 = .target path digest →
    write.2 ∈ manifests ∧ digest = (sha256 write.2).toHex

theorem serves_iff {sha256 : Bytes → ArtifactDigest} {path : String} {entry : TargetFile}
    {manifest : Bytes} (hashes : entry.hashes = sha256Map sha256 manifest) :
    Serves sha256 files path entry ↔
      ∃ bytes, files (.target path (sha256 manifest).toHex) = some bytes ∧
        entry.length = bytes.length ∧ entry.hashes = sha256Map sha256 bytes := by
  unfold Serves
  rw [show entry.hashes.lookup "sha256" = some (sha256 manifest).toHex by
    rw [hashes, sha256Map_lookup]]
  simp only
  cases found : files (.target path (sha256 manifest).toHex) with
  | none => simp
  | some bytes => simp

/-- A listed file still stands after an honest write: one under its name is of the
manifest that it lists. -/
theorem Serves.update {sha256 : Bytes → ArtifactDigest} {manifests : Set Bytes}
    (distinct : Set.InjOn sha256 manifests) {path : String} {entry : TargetFile}
    {manifest : Bytes} (known : manifest ∈ manifests) (length : entry.length = manifest.length)
    (hashes : entry.hashes = sha256Map sha256 manifest) {write : FileName × Bytes}
    (honest : Honest sha256 manifests write) (serves : Serves sha256 files path entry) :
    Serves sha256 (Function.update files write.1 (some write.2)) path entry := by
  rw [serves_iff hashes] at serves ⊢
  by_cases overlaps : FileName.target path (sha256 manifest).toHex = write.1
  · obtain ⟨member, digest⟩ := honest _ _ overlaps.symm
    have parsed := congrArg ArtifactDigest.fromHex digest
    simp only [ArtifactDigest.fromHex_toHex, Option.some.injEq] at parsed
    obtain rfl : manifest = write.2 := distinct known member parsed
    exact ⟨_, by rw [overlaps, Function.update_self], length, hashes⟩
  · obtain ⟨bytes, found, rest⟩ := serves
    exact ⟨bytes, by rw [Function.update_of_ne overlaps, found], rest⟩

/-- Honest writes leave what is listed in place. -/
theorem Listed.land {sha256 : Bytes → ArtifactDigest} {manifests : Set Bytes}
    (distinct : Set.InjOn sha256 manifests) {targets : Targets}
    (known : Known sha256 manifests targets) {writes : List (FileName × Bytes)}
    (honest : ∀ write ∈ writes, Honest sha256 manifests write)
    (listed : Listed sha256 files targets) : Listed sha256 (files.land writes) targets := by
  induction writes generalizing files with
  | nil => exact listed
  | cons write rest ih =>
      refine ih (fun other member => honest other (List.mem_cons_of_mem _ member)) ?_
      intro path there entry found
      obtain ⟨manifest, member, length, hashes⟩ := known path entry found
      exact (listed path there entry found).update distinct member length hashes
        (honest write List.mem_cons_self)

/-- A target list that holds one manifest, whose file stands. -/
theorem listed_singleton {sha256 : Bytes → ArtifactDigest} {manifest : Bytes} {targets : Targets}
    (lists : targets.targets =
      Finmap.singleton targetPath (manifestEntry sha256 manifest))
    (stands : files (.target targetPath (sha256 manifest).toHex) = some manifest) :
    Listed sha256 files targets := by
  intro path there entry found
  rw [lists, Finmap.keys_singleton, Finset.mem_singleton] at there
  subst there
  rw [lists, Finmap.lookup_singleton_eq] at found
  cases found
  exact (serves_iff rfl).mpr ⟨manifest, stands, rfl, rfl⟩

theorem known_singleton {sha256 : Bytes → ArtifactDigest} {manifests : Set Bytes}
    {manifest : Bytes} (member : manifest ∈ manifests) {targets : Targets}
    (lists : targets.targets =
      Finmap.singleton targetPath (manifestEntry sha256 manifest)) :
    Known sha256 manifests targets := by
  intro path entry found
  rw [lists] at found
  have there := Finmap.mem_of_lookup_eq_some found
  rw [Finmap.mem_singleton] at there
  subst there
  rw [Finmap.lookup_singleton_eq] at found
  cases found
  exact ⟨manifest, member, rfl, rfl⟩

/-! ## Reading the versions in force -/

theorem readSigned_eq_ok {α : Type} {codec : Codec α} {file : FileName} {role : α} :
    readSigned codec files file = .ok role ↔
      ∃ bytes, files file = some bytes ∧ payload codec bytes = some role := by
  unfold readSigned
  cases found : files file with
  | none => simp
  | some bytes =>
      cases read : payload codec bytes with
      | none => simp [read]
      | some other => simp [read]

theorem readSigned_unique {α : Type} {codec : Codec α} {file : FileName} {role other : α}
    {bytes : Bytes} (read : readSigned codec files file = .ok role)
    (found : files file = some bytes) (parsed : payload codec bytes = some other) :
    role = other := by
  obtain ⟨same, found', parsed'⟩ := readSigned_eq_ok.mp read
  rw [found] at found'
  cases found'
  rw [parsed] at parsed'
  cases parsed'
  rfl

theorem nextVersion_eq_ok {version next : Nat} {file : FileName}
    (advanced : nextVersion version file = .ok next) : next = version + 1 := by
  unfold nextVersion at advanced
  split at advanced
  · cases advanced
    rfl
  · cases advanced

theorem pinnedVersion_eq_ok {pins : Finmap fun _ : String => MetaFile} {file : FileName}
    {child : RoleName} {pin : MetaFile} {version : Nat}
    (pinned : pins.lookup child.fileName = some pin)
    (read : pinnedVersion pins file child = .ok version) : version = pin.version := by
  unfold pinnedVersion at read
  rw [pinned] at read
  cases read
  rfl

/-- The next versions follow those of a whole chain. -/
theorem Whole.next (whole : Whole publisher files chain) {next : Next}
    (read : Next.read publisher files = .ok next) :
    next = ⟨chain.targetsPin.version + 1, chain.snapshotPin.version + 1,
      chain.timestamp.version + 1, .versioned .targets chain.targetsPin.version⟩ := by
  unfold Next.read at read
  simp only [bind_eq_ok] at read
  obtain ⟨timestamp, entry, snapshotPin, pinsSnapshot, snapshot, readSnapshot, targetsPin,
    pinsTargets, targets, advanced, nextSnapshot, advanced', nextTimestamp, advanced'', made⟩ := read
  cases made
  obtain rfl : timestamp = chain.timestamp := by
    obtain ⟨bytes, found, parsed⟩ := whole.timestamp
    exact readSigned_unique entry found parsed
  obtain rfl := pinnedVersion_eq_ok whole.pinsSnapshot pinsSnapshot
  obtain rfl : snapshot = chain.snapshot := by
    obtain ⟨bytes, found, -, -, parsed⟩ := whole.snapshot
    exact readSigned_unique readSnapshot found parsed
  obtain rfl := pinnedVersion_eq_ok whole.pinsTargets pinsTargets
  rw [nextVersion_eq_ok advanced, nextVersion_eq_ok advanced', nextVersion_eq_ok advanced'',
    whole.snapshotVersion]

theorem Whole.follows (whole : Whole publisher files chain) {next : Next}
    (read : Next.read publisher files = .ok next) :
    next.targets = chain.targetsPin.version + 1 ∧
      next.snapshot = chain.snapshotPin.version + 1 ∧
      next.timestamp = chain.timestamp.version + 1 := by
  rw [whole.next read]
  exact ⟨rfl, rfl, rfl⟩

/-! ## What a commit lands -/

/-- A file that was signed reads as what was signed. -/
theorem payload_of_sign {α : Type} {codec : Codec α} {role : RoleName} {role' : α}
    {bytes : Bytes} (signed : sign publisher codec role role' = .ok bytes) :
    payload codec bytes = some role' := by
  unfold sign at signed
  split at signed
  · cases signed
  · split at signed
    · cases signed
    · rename_i written
      cases signed
      obtain ⟨envelope, made, json⟩ := Option.bind_eq_some_iff.mp written
      exact Signed.reads_back made json

/-- What a command that commits has written: the targets and the snapshot under the
next versions, and the entry point to them last. -/
structure Commits (publisher : Publisher) (chain later : Chain)
    (written : List (FileName × Bytes)) : Prop where
  targetsVersion : later.targetsPin.version = chain.targetsPin.version + 1
  snapshotVersion : later.snapshotPin.version = chain.snapshotPin.version + 1
  timestampVersion : later.timestamp.version = chain.timestamp.version + 1
  writes : ∃ targets snapshot timestamp, written =
    [(.versioned .targets later.targetsPin.version, targets),
      (.versioned .snapshot later.snapshotPin.version, snapshot),
      (.unversioned .timestamp, timestamp)]
  whole : ∀ files : Files FileName, Whole publisher (files.land written) later

/-- A commit on the versions that follow a chain's lands a whole chain of the
targets it was given. -/
theorem commit_commits {targets : Targets} {next : Next} {now : Time} {committed : Committed}
    (versions : next.targets = chain.targetsPin.version + 1 ∧
      next.snapshot = chain.snapshotPin.version + 1 ∧
      next.timestamp = chain.timestamp.version + 1)
    (version : targets.version = next.targets)
    (ok : commit publisher targets next now = .ok committed) :
    ∃ later, Commits publisher chain later committed.writes ∧ later.targets = targets := by
  unfold commit at ok
  simp only [bind_eq_ok] at ok
  obtain ⟨targetsBytes, signedTargets, snapshotExpires, -, snapshotBytes, signedSnapshot,
    timestampExpires, -, timestampBytes, signedTimestamp, made⟩ := ok
  cases made
  let targetsPin := MetaFile.pinning publisher.sha256 targets.version targetsBytes
  let snapshotPin := MetaFile.pinning publisher.sha256 next.snapshot snapshotBytes
  let later : Chain := {
    timestamp := .new next.timestamp timestampExpires snapshotPin
    snapshotPin
    snapshot := .new next.snapshot snapshotExpires
      (Finmap.singleton RoleName.targets.fileName targetsPin)
    targetsPin
    targets }
  refine ⟨later, ?_, rfl⟩
  refine {
    targetsVersion := version.trans versions.1
    snapshotVersion := versions.2.1
    timestampVersion := versions.2.2
    writes := ⟨targetsBytes, snapshotBytes, timestampBytes, rfl⟩
    whole := fun files => ?_ }
  let written : List (FileName × Bytes) := [(.versioned .targets targets.version, targetsBytes),
    (.versioned .snapshot next.snapshot, snapshotBytes),
    (.unversioned .timestamp, timestampBytes)]
  have once : (written.map Prod.fst).Nodup := by simp [written]
  have landed : ∀ name bytes, (name, bytes) ∈ written → files.land written name = some bytes :=
    fun _ _ => Files.land_of_mem once
  exact {
    timestamp := ⟨timestampBytes, landed _ _ (by simp [written]), payload_of_sign signedTimestamp⟩
    pinsSnapshot := Finmap.lookup_singleton_eq
    snapshot := ⟨snapshotBytes, landed _ _ (by simp [written, later, snapshotPin, MetaFile.pinning]),
      rfl, rfl, payload_of_sign signedSnapshot⟩
    snapshotVersion := rfl
    pinsTargets := Finmap.lookup_singleton_eq
    targets := ⟨targetsBytes, landed _ _ (by simp [written, later, targetsPin, MetaFile.pinning]),
      rfl, rfl, payload_of_sign signedTargets⟩
    targetsVersion := rfl }

/-! ## What a command does -/

/-- A publish on a whole chain fails, having written its manifest at most, or
commits a chain whose targets list its manifest. -/
theorem publish_cases (whole : Whole publisher files chain) (manifest : Bytes) (now : Time) :
    (∃ error, (publish publisher files manifest now).result = .error error ∧
      ∀ write ∈ (publish publisher files manifest now).writes,
        write = (.target targetPath (publisher.sha256 manifest).toHex, manifest)) ∨
    ∃ report later written, (publish publisher files manifest now).result = .ok report ∧
      (publish publisher files manifest now).writes =
        (.target targetPath (publisher.sha256 manifest).toHex, manifest) :: written ∧
      report.written = (publish publisher files manifest now).writes.map Prod.fst ∧
      Commits publisher chain later written ∧
      later.targets.targets =
        Finmap.singleton targetPath (manifestEntry publisher.sha256 manifest) := by
  unfold publish
  cases Manifest.parse publisher.reader manifest with
  | error error => exact .inl ⟨_, rfl, fun _ member => nomatch member⟩
  | ok parsed =>
      cases read : Next.read publisher files with
      | error error => exact .inl ⟨_, rfl, fun _ member => nomatch member⟩
      | ok next =>
          simp only
          unfold publishNext
          cases expiry publisher .targets now with
          | error error => exact .inl ⟨_, rfl, fun _ member => nomatch member⟩
          | ok expires =>
              simp only
              split
              · exact .inl ⟨_, rfl, fun _ member => List.mem_singleton.mp member⟩
              · rename_i committed ok
                obtain ⟨later, commits, lists⟩ := commit_commits (whole.follows read) rfl ok
                exact .inr ⟨_, later, _, rfl, rfl, rfl, commits, by rw [lists]; rfl⟩

/-- A re-sign on a whole chain fails without writing anything, or commits a chain
whose targets differ in version and expiry alone. -/
theorem resign_cases (whole : Whole publisher files chain) (now : Time) :
    (∃ error, (resign publisher files now).result = .error error ∧
      (resign publisher files now).writes = []) ∨
    ∃ report later, (resign publisher files now).result = .ok report ∧
      report.written = (resign publisher files now).writes.map Prod.fst ∧
      Commits publisher chain later (resign publisher files now).writes ∧
      later.targets = { chain.targets with
        version := later.targets.version, expires := later.targets.expires } := by
  unfold resign
  simp only
  split
  · exact .inl ⟨_, rfl, rfl⟩
  · rename_i committed ok
    simp only [bind_eq_ok] at ok
    obtain ⟨next, read, current, inForce, expires, -, ok⟩ := ok
    obtain rfl : current = chain.targets := by
      obtain ⟨bytes, found, -, -, parsed⟩ := whole.targets
      rw [whole.next read] at inForce
      exact readSigned_unique inForce found parsed
    obtain ⟨later, commits, targets⟩ := commit_commits (whole.follows read) rfl ok
    exact .inr ⟨_, later, rfl, rfl, commits, by rw [targets]⟩

end Retrovert.Publish
