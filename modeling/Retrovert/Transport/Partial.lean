import Retrovert.Transport.Steps

/-!
# What a transfer leaves of its entry

While a transfer runs, the file it writes is its entry's and holds what has
arrived, and the sidecar does not say that every byte has. Only the last byte
changes that, and a pause or a drop that finds it already there: the sidecar of
either says how many bytes arrived out of how many were declared, which is
complete once the two agree, whatever the bytes are.
-/

set_option autoImplicit false

namespace Retrovert.Transport

namespace Cache

/-- There is no sidecar that says every byte arrived. -/
def Unfinished (cache : Cache) (path : ArtifactDigest) : Prop :=
  ∀ record, cache.readMeta path = some record → record.bytesWritten ≠ record.fileSize

/-- Every entry but one reads as before. -/
def SameElsewhere (path : ArtifactDigest) (before after : Cache) : Prop :=
  ∀ name, name ≠ .artifact path → name ≠ .sidecar path → Disk.SameAt name before after

theorem SameElsewhere.refl (path : ArtifactDigest) (cache : Cache) :
    SameElsewhere path cache cache := fun _ _ _ => .refl _ _

theorem SameElsewhere.trans {path : ArtifactDigest} {first second third : Cache}
    (earlier : SameElsewhere path first second) (later : SameElsewhere path second third) :
    SameElsewhere path first third :=
  fun name file sidecar => (earlier name file sidecar).trans (later name file sidecar)

section Entry

variable {cache : Cache} {path : ArtifactDigest}

theorem isCompleteAt_of_unfinished (unfinished : cache.Unfinished path) :
    cache.isCompleteAt path = false := by
  rw [Bool.eq_false_iff, ne_eq, isCompleteAt_iff]
  rintro ⟨_, record, _, _, found, all⟩
  exact unfinished record found all

theorem unfinished_of_none (missing : cache.readMeta path = none) : cache.Unfinished path := by
  intro record found
  rw [missing] at found
  cases found

/-- Only the sidecar decides. -/
theorem Unfinished.congr {later : Cache} (unfinished : cache.Unfinished path)
    (same : later.read (.sidecar path) = cache.read (.sidecar path)) : later.Unfinished path := by
  intro record found
  exact unfinished record (by rwa [readMeta, same] at found)

theorem unfinished_writeMeta {record : Meta} (part : record.bytesWritten ≠ record.fileSize) :
    (cache.writeMeta path record).Unfinished path := by
  intro read found
  rw [readMeta_writeMeta] at found
  split at found
  · cases found
    exact part
  · cases found

theorem unfinished_evict (cache : Cache) (path : ArtifactDigest) :
    (cache.evict path).Unfinished path := by
  have gone : (cache.evict path).read (.sidecar path) = none := by
    rw [evict, Disk.read_remove_of_ne _ (by simp), deleteMeta, Disk.read_remove_self]
  exact unfinished_of_none (by simp [readMeta, gone])

theorem sameElsewhere_writeMeta (cache : Cache) (path : ArtifactDigest) (record : Meta) :
    SameElsewhere path cache (cache.writeMeta path record) :=
  fun _ _ sidecar => .write cache sidecar _

theorem sameElsewhere_evict (cache : Cache) (path : ArtifactDigest) :
    SameElsewhere path cache (cache.evict path) :=
  fun _ file sidecar => (Disk.SameAt.remove cache sidecar).trans (.remove _ file)

end Entry

end Cache

/-! ## Discarding and saving -/

theorem unfinished_discard (cache : Cache) (xfer : Transfer) :
    (discard cache xfer).Unfinished xfer.path :=
  Cache.unfinished_of_none (Cache.readMeta_deleteMeta _ _)

theorem sameElsewhere_discard (cache : Cache) (xfer : Transfer) :
    Cache.SameElsewhere xfer.path cache (discard cache xfer) :=
  fun _ file sidecar => (Disk.SameAt.remove cache file).trans (.remove _ sidecar)

/-- The sidecar that a pause or a drop leaves says that every byte arrived. -/
def Transfer.looksComplete (xfer : Transfer) : Bool :=
  xfer.sidecar.any fun record => record.bytesWritten == record.fileSize

/-- A pause or a drop short of the declared length leaves the entry unfinished. -/
theorem unfinished_saveMeta {cache : Cache} {xfer : Transfer}
    (unfinished : cache.Unfinished xfer.path) (part : xfer.looksComplete = false) :
    (saveMeta cache xfer).Unfinished xfer.path := by
  unfold saveMeta
  cases left : xfer.sidecar with
  | none => exact unfinished
  | some record =>
      refine Cache.unfinished_writeMeta fun all => ?_
      simp [Transfer.looksComplete, left, all] at part

theorem sameElsewhere_saveMeta (cache : Cache) (xfer : Transfer) :
    Cache.SameElsewhere xfer.path cache (saveMeta cache xfer) := by
  unfold saveMeta
  split
  · exact .refl _ _
  · exact Cache.sameElsewhere_writeMeta cache _ _

/-! ## A transfer and its entry -/

namespace Download

/-- The file being written is the entry's, and holds what has arrived. -/
def Holds (cache : Cache) (xfer : Transfer) (arrived : Bytes) : Prop :=
  ∃ handle, xfer.file = some handle ∧ cache.names (.artifact xfer.path) = some handle.file ∧
    cache.contents handle.file = arrived ∧ (handle.appends = false → xfer.resumeOffset = 0)

/-- A transfer that has more to do, with a body to read once its request has been
answered. -/
structure Writing (cache : Cache) (download : Download) (arrived : Bytes) : Prop where
  running : download.status = .pending ∨ download.status = .downloading
  fetched : download.xfer.isCached = false
  holds : Holds cache download.xfer arrived
  total : arrived.length = download.xfer.total
  progress : download.progressBytes = download.xfer.total
  started : download.xfer.started = true →
    download.status = .downloading ∧ download.xfer.reader = true
  unfinished : cache.Unfinished download.xfer.path

/-- A transfer that has stopped: every byte has arrived, or its entry is unfinished. -/
inductive Stopped (cache : Cache) (download : Download) (arrived : Bytes) : Prop
  | complete (status : download.status = .complete)
      (read : cache.read (.artifact download.xfer.path) = some arrived)
      (progress : download.progressBytes = arrived.length)
  | short (status : download.status = .failed ∨ download.status = .cancelled ∨
        download.status = .paused)
      (unfinished : cache.Unfinished download.xfer.path)

/-- What one poll of a transfer leaves. -/
structure Polled (cache later : Cache) (download polled : Download) (arrived : Bytes)
    (chunk : Chunk) : Prop where
  elsewhere : Cache.SameElsewhere download.xfer.path cache later
  path : polled.xfer.path = download.xfer.path
  fetched : polled.xfer.isCached = false
  goesOn : ∀ bytes, chunk = .read bytes → polled.Writing later (arrived ++ bytes)
  stops : (∀ bytes, chunk ≠ .read bytes) → polled.Stopped later arrived

variable {cache later : Cache} {download polled : Download} {xfer : Transfer}
  {arrived : Bytes} {chunk : Chunk}

/-- A poll that stops the transfer. -/
theorem Polled.of_stopped (elsewhere : Cache.SameElsewhere download.xfer.path cache later)
    (path : polled.xfer.path = download.xfer.path) (fetched : polled.xfer.isCached = false)
    (nothing : ∀ bytes, chunk ≠ .read bytes) (stopped : polled.Stopped later arrived) :
    Polled cache later download polled arrived chunk where
  elsewhere := elsewhere
  path := path
  fetched := fetched
  goesOn bytes same := absurd same (nothing bytes)
  stops _ := stopped

/-! ## Writing the body -/

theorem Holds.read (holds : Holds cache xfer arrived) :
    cache.read (.artifact xfer.path) = some arrived := by
  obtain ⟨handle, -, names, contents, -⟩ := holds
  rw [Disk.read_eq names, contents]

/-- A chunk of the body goes to the end of the file. -/
theorem Holds.append (holds : Holds cache xfer arrived) (total : arrived.length = xfer.total)
    (bytes : Bytes) : Holds (Download.writeBody cache xfer bytes) xfer (arrived ++ bytes) := by
  obtain ⟨handle, file, names, contents, fresh⟩ := holds
  refine ⟨handle, file, ?_, ?_, fresh⟩
  · simp only [Download.writeBody, file]
    split
    · exact names
    · exact names
  · simp only [Download.writeBody, file]
    split
    · rw [Disk.append, Disk.contents_store, contents]
    · rename_i keeps
      have offset : xfer.bytesWritten = arrived.length := by
        rw [total, Transfer.total, fresh (by simpa using keeps), Nat.zero_add]
      rw [Disk.writeAt, Disk.contents_store, contents, offset, Disk.overwritten_end]

/-- Only the file of the entry decides what it holds. -/
theorem Holds.congr (holds : Holds cache xfer arrived)
    (same : Disk.SameAt (.artifact xfer.path) cache later) : Holds later xfer arrived := by
  have read := same.read.trans holds.read
  obtain ⟨handle, file, names, -, fresh⟩ := holds
  rw [Disk.read_eq (same.names.trans names)] at read
  exact ⟨handle, file, same.names.trans names, Option.some.inj read, fresh⟩

/-- Writing to a file is seen under its own name only. -/
theorem Holds.sameAt_writeBody (holds : Holds cache xfer arrived) (bytes : Bytes)
    {name : CacheName} (other : name ≠ .artifact xfer.path) :
    Disk.SameAt name cache (Download.writeBody cache xfer bytes) := by
  obtain ⟨handle, file, names, -⟩ := holds
  simp only [Download.writeBody, file]
  split
  · exact .store names other _
  · exact .store names other _

theorem Holds.unfinished_writeBody (holds : Holds cache xfer arrived)
    (unfinished : cache.Unfinished xfer.path) (bytes : Bytes) :
    (Download.writeBody cache xfer bytes).Unfinished xfer.path :=
  unfinished.congr (holds.sameAt_writeBody bytes (by simp)).read

/-- Only the file and the sidecar of its entry decide how a transfer stands. -/
theorem Writing.congr (writing : download.Writing cache arrived)
    (file : Disk.SameAt (.artifact download.xfer.path) cache later)
    (sidecar : Disk.SameAt (.sidecar download.xfer.path) cache later) :
    download.Writing later arrived :=
  { writing with
    holds := writing.holds.congr file
    unfinished := writing.unfinished.congr sidecar.read }

theorem Stopped.congr (stopped : download.Stopped cache arrived)
    (file : Disk.SameAt (.artifact download.xfer.path) cache later)
    (sidecar : Disk.SameAt (.sidecar download.xfer.path) cache later) :
    download.Stopped later arrived := by
  cases stopped with
  | complete status read progress => exact .complete status (file.read.trans read) progress
  | short status unfinished => exact .short status (unfinished.congr sidecar.read)

/-! ## Polling -/

/-- An answered transfer still writes. -/
theorem Writing.answered (writing : download.Writing cache arrived) (etag : Bytes) :
    (download.answered etag).Writing cache arrived :=
  { writing with
    running := .inr rfl
    started := fun _ => ⟨rfl, rfl⟩ }

/-- Writing a chunk leaves the file with one chunk more. -/
theorem Writing.wrote (writing : download.Writing cache arrived) (etag bytes : Bytes) :
    ((download.answered etag).wrote bytes).Writing (writeBody cache download.xfer bytes)
      (arrived ++ bytes) where
  running := .inr rfl
  fetched := writing.fetched
  holds := writing.holds.append writing.total bytes
  total := by rw [List.length_append, writing.total, total_wrote]
  progress := rfl
  started _ := ⟨rfl, rfl⟩
  unfinished := writing.holds.unfinished_writeBody writing.unfinished bytes

/-- **What a poll of a running transfer leaves**, unless it pauses one whose declared bytes
have all arrived. -/
theorem readChunk_polled (flags : Flags) (net : Net) (writing : download.Writing cache arrived)
    (short : flags.cancel = false → flags.pause = true → download.xfer.looksComplete = false) :
    Polled cache (download.readChunk flags net cache).1 download
      (download.readChunk flags net cache).2.1 arrived
      (download.readChunk flags net cache).2.2 := by
  have ended : ∀ {later ended}, Ended download ended →
      Cache.SameElsewhere download.xfer.path cache later → later.Unfinished download.xfer.path →
      Polled cache later download ended arrived .failed := by
    intro later ended ends elsewhere unfinished
    refine .of_stopped elsewhere ends.path (ends.fetched.trans writing.fetched) (by simp)
      (.short ?_ (by rwa [ends.path]))
    exact ends.status.imp_right .inl
  have advances := readChunk_advances flags net cache writing.running writing.fetched
    writing.started
  generalize download.readChunk flags net cache = out at advances
  obtain ⟨later, polled, chunk⟩ := out
  cases advances with
  | discarded ends =>
      exact ended ends (sameElsewhere_discard cache download.xfer)
        (unfinished_discard cache download.xfer)
  | failed ends => exact ended ends (.refl _ _) writing.unfinished
  | paused goes asked =>
      exact .of_stopped (sameElsewhere_saveMeta cache download.xfer) rfl writing.fetched
        (by simp) (.short (.inr (.inr rfl))
          (unfinished_saveMeta writing.unfinished (short goes asked)))
  | finished etag accepts last =>
      refine .of_stopped (Cache.sameElsewhere_writeMeta _ _ _) rfl writing.fetched (by simp)
        (.complete rfl ?_ writing.total.symm)
      exact (Disk.read_write_of_ne _ (by simp) _).trans writing.holds.read
  | wrote etag accepts arrives more =>
      exact {
        elsewhere := fun _ artifact _ => writing.holds.sameAt_writeBody _ artifact
        path := rfl
        fetched := writing.fetched
        goesOn := fun bytes same => by
          cases same
          exact writing.wrote etag _
        stops := fun nothing => absurd rfl (nothing _) }
  | torn bytes fails ends =>
      exact ended ends (fun _ artifact _ => writing.holds.sameAt_writeBody _ artifact)
        (writing.holds.unfinished_writeBody writing.unfinished _)

/-! ## Starting and dropping -/

/-- A transfer resumes where the partial file and its sidecar agree that it can. -/
theorem resume_writing {path : ArtifactDigest} {url : Text} {resume : Resume} {file : Nat}
    (planned : planResume cache path = some resume)
    (names : cache.names (.artifact path) = some file) :
    (Download.fromSetup path url (.resume file resume)).Writing cache (cache.contents file) := by
  obtain ⟨record, content, recorded, read, agree, part, rfl⟩ := planResume_cases planned
  have held : cache.contents file = content :=
    Option.some.inj ((Disk.read_eq names).symm.trans read)
  exact {
    running := .inl rfl
    fetched := rfl
    holds := ⟨⟨file, true⟩, rfl, names, rfl, by simp⟩
    total := held.symm ▸ agree
    progress := rfl
    started := by simp [fromSetup]
    unfinished := by
      intro other found all
      cases recorded.symm.trans found
      exact absurd part (by rw [all]; exact UInt64.lt_irrefl _) }

/-- **What can be resumed is resumed** by a start that may. -/
theorem start_of_planned {path : ArtifactDigest} {url : Text} {resume : Resume}
    (planned : planResume cache path = some resume) (given : url ≠ []) (head : Head) :
    ∃ file, Download.start cache path url true head =
      (cache, .ok (Download.fromSetup path url (.resume file resume))) := by
  obtain ⟨record, content, recorded, read, -, part, -⟩ := planResume_cases planned
  obtain ⟨file, names, -⟩ := Option.map_eq_some_iff.mp read
  have missing : cache.isCompleteAt path = false := by
    refine Cache.isCompleteAt_of_unfinished fun other found all => ?_
    cases recorded.symm.trans found
    exact absurd part (by rw [all]; exact UInt64.lt_irrefl _)
  refine ⟨file, ?_⟩
  simp only [Download.start, if_neg given, prepare, openCached, missing, Bool.false_eq_true,
    if_false, if_true, openResume, planned, names]

/-- A fresh transfer starts from an empty file. -/
theorem fresh_writing {path : ArtifactDigest} {url : Text} {length : Option UInt64}
    (unfinished : cache.Unfinished path) :
    (Download.fromSetup path url (.fresh (cache.create (.artifact path)).2 length)).Writing
      (cache.create (.artifact path)).1 [] where
  running := .inl rfl
  fetched := rfl
  holds := by
    have names := Disk.names_create_self cache (.artifact path)
    have read := Disk.read_create_self cache (.artifact path)
    rw [Disk.read_eq names] at read
    exact ⟨_, rfl, names, Option.some.inj read, fun _ => rfl⟩
  total := rfl
  progress := rfl
  started := by simp [fromSetup]
  unfinished := unfinished.congr (Disk.read_create_of_ne _ (by simp))

theorem sameElsewhere_cleared (cache : Cache) (path : ArtifactDigest) (allowResume : Bool) :
    Cache.SameElsewhere path cache (cleared cache path allowResume) := by
  unfold cleared
  split
  · exact fun _ artifact sidecar => (Disk.SameAt.remove cache sidecar).trans (.remove _ artifact)
  · exact .refl _ _

/-- A transfer that starts where nothing is complete holds what can be resumed, or nothing. -/
theorem start_writing {path : ArtifactDigest} {url : Text} {head : Head}
    (missing : cache.isCompleteAt path = false)
    (started : Download.start cache path url true head = (later, .ok download)) :
    Cache.SameElsewhere path cache later ∧ download.xfer.path = path ∧
      download.status = .pending ∧ ∃ arrived, download.Writing later arrived := by
  cases start_cases started with
  | cached file complete _ => simp [missing] at complete
  | resumed file resume _ planned names => exact ⟨.refl _ _, rfl, rfl, _, resume_writing planned names⟩
  | fresh _ =>
      refine ⟨?_, rfl, rfl, [], fresh_writing (Cache.unfinished_of_none (by simp))⟩
      exact (sameElsewhere_cleared cache path true).trans
        fun _ artifact _ => .create _ artifact

/-- A transfer that cannot be started has at most cleared its entry. -/
theorem start_fails {path : ArtifactDigest} {url : Text} {head : Head} {error : StartError}
    (missing : cache.isCompleteAt path = false)
    (failed : Download.start cache path url true head = (later, .error error)) :
    Cache.SameElsewhere path cache later ∧ later.isCompleteAt path = false := by
  cases start_cases failed with
  | refused _ => exact ⟨.refl _ _, missing⟩
  | failed _ => exact ⟨sameElsewhere_cleared cache path true, by simp [Cache.isCompleteAt]⟩

/-- Dropping a transfer leaves an unfinished entry unfinished, unless the transfer was cut off
once all its declared bytes had arrived. -/
theorem unfinished_drop (unfinished : cache.Unfinished download.xfer.path)
    (short : download.status = .downloading → download.xfer.looksComplete = false) :
    (download.drop cache).Unfinished download.xfer.path := by
  simp only [drop]
  split
  · exact unfinished
  · split
    · rename_i cut
      exact unfinished_saveMeta unfinished (short cut.1)
    · split
      · exact unfinished_discard cache download.xfer
      · exact unfinished

theorem sameElsewhere_drop (cache : Cache) (download : Download) :
    Cache.SameElsewhere download.xfer.path cache (download.drop cache) := by
  simp only [drop]
  split
  · exact .refl _ _
  · split
    · exact sameElsewhere_saveMeta cache download.xfer
    · split
      · exact sameElsewhere_discard cache download.xfer
      · exact .refl _ _

/-- A transfer that is complete leaves its entry as it is. -/
theorem drop_of_complete (complete : download.status = .complete) :
    download.drop cache = cache := by
  simp [drop, complete]

end Download

end Retrovert.Transport
