import Retrovert.Transport.Download

/-!
# What one operation of a transfer does

A start serves what is complete, goes on with what can be resumed, or begins again with an
empty file. A poll of a running transfer ends it, pauses it, or moves its body along by one
read. Each is taken apart once here, with everything it decides by.
-/

set_option autoImplicit false

namespace Retrovert.Transport

/-! ## Starting -/

/-- What can be resumed is what the sidecar says is there, short of its full length. -/
theorem planResume_cases {cache : Cache} {path : ArtifactDigest} {resume : Resume}
    (planned : planResume cache path = some resume) :
    ∃ record content, cache.readMeta path = some record ∧
      cache.read (.artifact path) = some content ∧
      content.length = record.bytesWritten.toNat ∧ record.bytesWritten < record.fileSize ∧
      resume = ⟨record.bytesWritten.toNat, record.fileSize, unpackEtag record.etag⟩ := by
  unfold planResume at planned
  split at planned
  · rename_i record content recorded read
    simp only [checkDiskSpace_eq_true, if_true] at planned
    split at planned
    · cases planned
    · rename_i agree
      split at planned
      · cases planned
      · rename_i part
        cases planned
        rw [not_or, not_not] at agree
        exact ⟨record, content, recorded, read, agree.1, UInt64.not_le.mp part, rfl⟩
  · cases planned

/-- The cache once what a fresh start finds there has been cleared, where it may be. -/
def cleared (cache : Cache) (path : ArtifactDigest) (allowResume : Bool) : Cache :=
  if allowResume then (cache.deleteMeta path).remove (.artifact path) else cache

@[simp] theorem readMeta_cleared (cache : Cache) (path : ArtifactDigest) :
    (cleared cache path true).readMeta path = none := by
  rw [cleared, if_pos rfl, Cache.readMeta, Disk.read_remove_of_ne _ (by simp)]
  exact Cache.readMeta_deleteMeta cache path

@[simp] theorem read_cleared (cache : Cache) (path : ArtifactDigest) :
    (cleared cache path true).read (.artifact path) = none := by
  rw [cleared, if_pos rfl, Disk.read_remove_self]

namespace Download

variable {cache later : Cache} {download : Download} {path : ArtifactDigest} {url : Text}
  {allowResume : Bool} {head : Head}

/-- Where a start leads. -/
inductive Starts (cache : Cache) (path : ArtifactDigest) (url : Text) (allowResume : Bool)
    (head : Head) : Cache → Except StartError Download → Prop
  | refused (empty : url = []) : Starts cache path url allowResume head cache (.error .emptyUrl)
  | cached (file : Nat) (complete : cache.isCompleteAt path = true)
      (names : cache.names (.artifact path) = some file) :
      Starts cache path url allowResume head cache
        (.ok (fromSetup path url (.cached file (cache.contents file).length)))
  | resumed (file : Nat) (resume : Resume) (missing : cache.isCompleteAt path = false)
      (planned : planResume cache path = some resume)
      (names : cache.names (.artifact path) = some file) :
      Starts cache path url allowResume head cache (.ok (fromSetup path url (.resume file resume)))
  | fresh (missing : cache.isCompleteAt path = false) :
      Starts cache path url allowResume head
        ((cleared cache path allowResume).create (.artifact path)).1
        (.ok (fromSetup path url
          (.fresh ((cleared cache path allowResume).create (.artifact path)).2 head.length)))
  | failed (missing : cache.isCompleteAt path = false) :
      Starts cache path url allowResume head (cleared cache path allowResume) (.error .io)

/-- **What a start does.** -/
theorem start_cases {started : Except StartError Download}
    (starts : Download.start cache path url allowResume head = (later, started)) :
    Starts cache path url allowResume head later started := by
  unfold Download.start at starts
  split at starts
  · rename_i empty
    cases starts
    exact .refused empty
  · have again : cache.isCompleteAt path = false →
        prepare cache path allowResume head =
          startFresh (cleared cache path allowResume) path head →
        Starts cache path url allowResume head later started := by
      intro missing prepared
      simp only [prepared, startFresh, checkDiskSpace_eq_true, Bool.not_true, Bool.or_false]
        at starts
      cases fails : head.createFails with
      | true =>
          simp only [fails, if_true] at starts
          cases starts
          exact .failed missing
      | false =>
          simp only [fails, Bool.false_eq_true, if_false] at starts
          cases starts
          exact .fresh missing
    cases complete : cache.isCompleteAt path with
    | true =>
        obtain ⟨content, _, read, _⟩ := (Cache.isCompleteAt_iff _ _).mp complete
        obtain ⟨file, names, -⟩ := Option.map_eq_some_iff.mp read
        simp only [prepare, openCached, complete, if_true, names, Option.map_some] at starts
        cases starts
        exact .cached file complete names
    | false =>
        by_cases allowed : allowResume = true
        · cases resumed : openResume cache path with
          | none => exact again complete (by simp [prepare, openCached, complete, allowed, resumed,
              cleared])
          | some setup =>
              simp only [prepare, openCached, complete, Bool.false_eq_true, if_false, allowed,
                if_true, resumed] at starts
              cases starts
              unfold openResume at resumed
              split at resumed
              · rename_i planned names
                cases resumed
                exact .resumed _ _ complete planned names
              · cases resumed
        · exact again complete (by simp [prepare, openCached, complete, allowed, cleared])

/-! ## Polling -/

/-- The transfer once its request has been answered. -/
def answered (download : Download) (etag : Bytes) : Download :=
  { download with
      status := .downloading
      xfer := { download.xfer with etag, reader := true, started := true } }

/-- The transfer once a chunk of the body has been written. -/
def wrote (download : Download) (bytes : Bytes) : Download :=
  let xfer := { download.xfer with bytesWritten := download.xfer.bytesWritten + bytes.length }
  { download with xfer, progressBytes := xfer.total }

@[simp] theorem total_wrote (download : Download) (etag bytes : Bytes) :
    ((download.answered etag).wrote bytes).xfer.total = download.xfer.total + bytes.length := by
  simp [Transfer.total, wrote, answered, Nat.add_assoc]

/-- The request has been answered, now or before, with something to read from. -/
def Accepts (download : Download) (net : Net) : Prop :=
  download.xfer.started = true ∨ ∃ response, net.response = some response ∧
    response.status < 400 ∧
      resumeResponseIsValid download.xfer.resumeOffset response.status = true

/-- A transfer that has ended without its body. -/
structure Ended (download ended : Download) : Prop where
  status : ended.status = .failed ∨ ended.status = .cancelled
  path : ended.xfer.path = download.xfer.path
  fetched : ended.xfer.isCached = download.xfer.isCached

/-- Where one poll of a running transfer leads. -/
inductive Advances (flags : Flags) (net : Net) (cache : Cache) (download : Download) :
    Cache → Download → Chunk → Prop
  /-- It was cancelled, or the answer was not one to read from. -/
  | discarded {ended : Download} (ends : Ended download ended) :
      Advances flags net cache download (discard cache download.xfer) ended .failed
  /-- The connection failed. -/
  | failed {ended : Download} (ends : Ended download ended) :
      Advances flags net cache download cache ended .failed
  | paused (goes : flags.cancel = false) (asked : flags.pause = true) :
      Advances flags net cache download (saveMeta cache download.xfer)
        { download with status := .paused } .idle
  | finished (etag : Bytes) (accepts : Accepts download net) (last : net.body = .bytes []) :
      Advances flags net cache download ((download.answered etag).finalizeComplete cache).1
        ((download.answered etag).finalizeComplete cache).2 .idle
  | wrote (etag : Bytes) {bytes : Bytes} (accepts : Accepts download net)
      (arrives : net.body = .bytes bytes) (more : bytes ≠ []) :
      Advances flags net cache download (writeBody cache download.xfer bytes)
        ((download.answered etag).wrote bytes) (.read bytes)
  /-- The write failed part of the way. -/
  | torn {ended : Download} {landed : Nat} (bytes : Bytes)
      (fails : net.writeFailsAfter = some landed) (ends : Ended download ended) :
      Advances flags net cache download (writeBody cache download.xfer bytes) ended .failed

/-- A transfer whose request has been answered stays answered. -/
theorem answered_of_started (status : download.status = .downloading)
    (reader : download.xfer.reader = true) (started : download.xfer.started = true) :
    download.answered download.xfer.etag = download := by
  obtain ⟨progressBytes, progressTotal, _, failure, noRetry, xfer⟩ := download
  obtain ⟨url, path, fileSize, bytesWritten, resumeOffset, etag, _, isCached, _⟩ := xfer
  cases status
  cases reader
  cases started
  rfl

theorem readBody_advances (flags : Flags) {net : Net} (cache : Cache) (etag : Bytes)
    (accepts : Accepts download net) :
    Advances flags net cache download ((download.answered etag).readBody net cache).1
      ((download.answered etag).readBody net cache).2.1
      ((download.answered etag).readBody net cache).2.2 := by
  have reader : (download.answered etag).xfer.reader = true := rfl
  have ends : Ended download ((download.answered etag).closeFile.fail .transfer false) :=
    ⟨.inl rfl, rfl, rfl⟩
  simp only [readBody, reader, Bool.not_true, Bool.false_eq_true, if_false]
  cases body : net.body with
  | error => exact .failed ends
  | bytes bytes =>
      by_cases last : bytes = []
      · simp only [last, if_true]
        exact .finished etag accepts (by rw [body, last])
      · simp only [last, if_false]
        split
        · rename_i landed handle fails _
          exact .torn _ fails ends
        · exact .wrote etag accepts body last

/-- An answer that is accepted leaves the transfer ready to read, and any other stops it. -/
theorem startTransfer_cases (flags : Flags) (net : Net) (cache : Cache) (download : Download) :
    (∃ etag, download.startTransfer net cache = (cache, download.answered etag, true) ∧
      Accepts download net) ∨
    ∃ later stopped, download.startTransfer net cache = (later, stopped, false) ∧
      Advances flags net cache download later stopped .failed := by
  cases answer : net.response with
  | none =>
      refine .inr ⟨cache, download.closeFile.fail .transfer false, ?_, ?_⟩
      · simp only [startTransfer, answer]
      · exact .failed ⟨.inl rfl, rfl, rfl⟩
  | some response =>
      have named : ∃ tagged : Download, ∃ etag, tagged = (if response.etag = [] then download
          else { download with xfer := { download.xfer with etag := response.etag } }) ∧
          tagged = { download with xfer := { download.xfer with etag } } := by
        refine ⟨_, if response.etag = [] then download.xfer.etag else response.etag, rfl, ?_⟩
        split
        · rfl
        · rfl
      obtain ⟨tagged, etag, same, named⟩ := named
      have refused : ∀ failure noRetry, Advances flags net cache download
          (discard cache tagged.xfer) (tagged.closeFile.fail failure noRetry) .failed := by
        intro failure noRetry
        rw [named]
        exact .discarded ⟨.inl rfl, rfl, rfl⟩
      have offset : tagged.xfer.resumeOffset = download.xfer.resumeOffset := by rw [named]
      simp only [startTransfer, answer, ← same]
      split
      · exact .inr ⟨_, _, rfl, refused _ _⟩
      · rename_i success
        split
        · exact .inr ⟨_, _, rfl, refused _ _⟩
        · rename_i valid
          split
          · exact .inr ⟨_, _, rfl, refused _ _⟩
          · refine .inl ⟨etag, by rw [named, answered], .inr ⟨response, answer, ?_, ?_⟩⟩
            · exact Nat.lt_of_not_le success
            · rw [← offset]
              simpa using valid

/-- A poll of a running transfer looks at the flags first. -/
theorem readChunk_of_running (flags : Flags) (net : Net)
    (running : download.status = .pending ∨ download.status = .downloading)
    (fetched : download.xfer.isCached = false) : download.readChunk flags net cache =
      if flags.cancel then
        (discard cache download.xfer, { download.closeFile with status := .cancelled }, .failed)
      else if flags.pause then
        (saveMeta cache download.xfer, { download with status := .paused }, .idle)
      else if !download.xfer.started then
        let answered := download.startTransfer net cache
        if answered.2.2 then answered.2.1.readBody net answered.1
        else (answered.1, answered.2.1, .failed)
      else download.readBody net cache := by
  unfold readChunk
  rw [if_neg (by simp [fetched])]
  rcases running with status | status
  · rw [status]
    rcases download.startTransfer net cache with ⟨later, started, ready⟩
    cases ready <;> rfl
  · rw [status]
    rcases download.startTransfer net cache with ⟨later, started, ready⟩
    cases ready <;> rfl

/-- **What a poll of a running transfer does.** -/
theorem readChunk_advances (flags : Flags) (net : Net) (cache : Cache)
    (running : download.status = .pending ∨ download.status = .downloading)
    (fetched : download.xfer.isCached = false)
    (started : download.xfer.started = true →
      download.status = .downloading ∧ download.xfer.reader = true) :
    Advances flags net cache download (download.readChunk flags net cache).1
      (download.readChunk flags net cache).2.1 (download.readChunk flags net cache).2.2 := by
  rw [readChunk_of_running flags net running fetched]
  cases cancel : flags.cancel with
  | true => exact .discarded ⟨.inr rfl, rfl, rfl⟩
  | false =>
      cases pause : flags.pause with
      | true => exact .paused cancel pause
      | false =>
          cases request : download.xfer.started with
          | true =>
              obtain ⟨downloading, reader⟩ := started request
              have body := readBody_advances flags cache download.xfer.etag
                (.inl request : Accepts download net)
              rw [answered_of_started downloading reader request] at body
              exact body
          | false =>
              rcases startTransfer_cases flags net cache download with
                ⟨etag, ready, accepts⟩ | ⟨later, stopped, refused, advances⟩
              · simp only [ready]
                exact readBody_advances flags cache etag accepts
              · simp only [refused]
                exact advances

theorem readCached_keeps (net : Net) (cache : Cache) (download : Download) :
    (download.readCached net cache).1.status = download.status ∧
      (download.readCached net cache).1.xfer.path = download.xfer.path ∧
      (download.readCached net cache).1.xfer.isCached = download.xfer.isCached := by
  simp only [readCached]
  split
  · exact ⟨rfl, rfl, rfl⟩
  · split
    · exact ⟨rfl, rfl, rfl⟩
    · split
      · exact ⟨rfl, rfl, rfl⟩
      · exact ⟨rfl, rfl, rfl⟩

/-- A poll of a transfer that is served from disk, or is not running, moves no body along. -/
theorem readChunk_of_settled (flags : Flags) (net : Net) (cache : Cache)
    (settled : download.xfer.isCached = false →
      download.status ≠ .pending ∧ download.status ≠ .downloading) :
    ∃ polled chunk, download.readChunk flags net cache = (cache, polled, chunk) ∧
      polled.status = download.status ∧ polled.xfer.path = download.xfer.path ∧
      polled.xfer.isCached = download.xfer.isCached := by
  cases served : download.xfer.isCached with
  | true =>
      refine ⟨(download.readCached net cache).1, (download.readCached net cache).2, ?_, ?_⟩
      · simp only [readChunk, served, if_true]
      · obtain ⟨status, path, cached⟩ := readCached_keeps net cache download
        exact ⟨status, path, cached.trans served⟩
  | false =>
      obtain ⟨pending, downloading⟩ := settled served
      cases status : download.status with
      | pending => exact absurd status pending
      | downloading => exact absurd status downloading
      | failed | cancelled =>
          refine ⟨download, .failed, ?_, status, rfl, served⟩
          simp only [readChunk, served, Bool.false_eq_true, if_false, status]
      | complete | paused =>
          refine ⟨download, .idle, ?_, status, rfl, served⟩
          simp only [readChunk, served, Bool.false_eq_true, if_false, status]

end Download

end Retrovert.Transport
