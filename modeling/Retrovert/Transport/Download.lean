import Retrovert.Transport.Cache

/-!
# One transfer

A transfer resumes from a sidecar, is paused or cancelled through two flags
that it polls, and is driven by repeated calls of `readChunk`. Everything the
network decides arrives as an argument: whether a request is answered and how,
and what each read of the body returns.

Counters are natural numbers. The sizes that a server declares or a sidecar
records are the 64-bit values of the source, since the sidecar compares them.
-/

set_option autoImplicit false

namespace Retrovert.Transport

/-- Text, as its characters. -/
abbrev Text := List Char

/-- The progress total when the server did not say how long the body is. -/
def unknownTotal : UInt64 := UInt64.ofNat (2 ^ 64 - 1)

/-- The read size used for transfers and for hashing from disk. -/
def chunkSize : Nat := 64 * 1024

/-- Where a transfer stands. -/
inductive Status where
  | pending
  | downloading
  | paused
  | complete
  | cancelled
  | failed
deriving DecidableEq, Repr

/-- Why a transfer failed. -/
inductive Failure where
  | server
  | resumeRestart
  | htmlPage
  | transfer
deriving DecidableEq, Repr

/-- Why a transfer could not be started at all. -/
inductive StartError where
  | emptyUrl
  | io
deriving DecidableEq, Repr

/-- The two stop flags of a transfer, shared with whoever holds it. -/
structure Flags where
  cancel : Bool := false
  pause : Bool := false
deriving DecidableEq, Repr

def Flags.requestCancel (flags : Flags) : Flags := { flags with cancel := true }

def Flags.requestPause (flags : Flags) : Flags := { flags with pause := true }

/-- An open file: from scratch, keeping its position, or for appending. -/
structure Handle where
  file : Nat
  appends : Bool
deriving DecidableEq, Repr

/-- A cached file being read, and how far. -/
structure CachedHandle where
  file : Nat
  position : Nat
deriving DecidableEq, Repr

/-- Mutable transfer state. The entry is named by its digest. -/
structure Transfer where
  url : Text
  path : ArtifactDigest
  fileSize : Option UInt64
  bytesWritten : Nat
  resumeOffset : Nat
  etag : Bytes
  started : Bool
  isCached : Bool
  /-- Whether there is a response body to read from. -/
  reader : Bool
  file : Option Handle
  cachedFile : Option CachedHandle

/-- A single transfer. Its two stop flags are kept with the handle on it. -/
structure Download where
  progressBytes : Nat
  progressTotal : UInt64
  status : Status
  failure : Option Failure
  noRetry : Bool
  xfer : Transfer

/-- A transfer's state at one instant. -/
structure Snapshot where
  downloaded : Nat
  total : Option UInt64
  status : Status
  failure : Option Failure
  noRetry : Bool

def Download.progress (download : Download) : Snapshot where
  downloaded := download.progressBytes
  total := if download.progressTotal ≠ unknownTotal then some download.progressTotal else none
  status := download.status
  failure := download.failure
  noRetry := download.noRetry

/-- Bytes on disk, resumed bytes included. -/
def Transfer.total (xfer : Transfer) : Nat := xfer.resumeOffset + xfer.bytesWritten

/-! ## Disk space -/

/-- Always unknown: there is no free-space query. -/
def availableDiskSpace : Option Nat := none

/-- Size plus a tenth of headroom, at least 1 MiB. -/
def hasEnoughDiskSpace (required available : Nat) : Bool :=
  required == 0 || min (required + max (required / 10) (1024 * 1024)) (2 ^ 64 - 1) ≤ available

/-- Unknown free space, or an unknown length, allows the transfer. -/
def checkDiskSpace (required : Option UInt64) : Bool :=
  match required, availableDiskSpace with
  | some required, some available => hasEnoughDiskSpace required.toNat available
  | _, _ => true

@[simp] theorem checkDiskSpace_eq_true (required : Option UInt64) :
    checkDiskSpace required = true := by
  cases required <;> rfl

/-! ## Starting -/

/-- What a partial file on disk allows a transfer to skip. -/
structure Resume where
  offset : Nat
  fileSize : UInt64
  etag : Bytes

/-- How a transfer starts. -/
inductive Setup where
  | cached (file : Nat) (size : Nat)
  | resume (file : Nat) (resume : Resume)
  | fresh (file : Nat) (fileSize : Option UInt64)

/-- What the network and the filesystem answer while a transfer is set up: the
length the server declares, and whether the file can be created. -/
structure Head where
  length : Option UInt64 := none
  createFails : Bool := false

def openCached (cache : Cache) (path : ArtifactDigest) : Option Setup :=
  if cache.isCompleteAt path then
    (cache.names (.artifact path)).map fun file => .cached file (cache.contents file).length
  else none

/-- What the partial file and its sidecar agree can be skipped, if anything. -/
def planResume (cache : Cache) (path : ArtifactDigest) : Option Resume :=
  match cache.readMeta path, cache.read (.artifact path) with
  | some record, some content =>
      if content.length ≠ record.bytesWritten.toNat ∨ record.bytesWritten = 0 then none
      -- Complete or inconsistent: restart rather than resume past the end.
      else if record.fileSize ≤ record.bytesWritten then none
      else if checkDiskSpace (some (record.fileSize - record.bytesWritten)) then
        some ⟨record.bytesWritten.toNat, record.fileSize, unpackEtag record.etag⟩
      else none
  | _, _ => none

def openResume (cache : Cache) (path : ArtifactDigest) : Option Setup :=
  match planResume cache path, cache.names (.artifact path) with
  | some resume, some file => some (.resume file resume)
  | _, _ => none

def startFresh (cache : Cache) (path : ArtifactDigest) (head : Head) :
    Cache × Except StartError Setup :=
  if head.createFails || !checkDiskSpace head.length then (cache, .error .io)
  else ((cache.create (.artifact path)).1,
    .ok (.fresh (cache.create (.artifact path)).2 head.length))

/-- Decide how a transfer starts: from a complete entry, from a partial one, or
from nothing, in which case what was there is cleared first. -/
def prepare (cache : Cache) (path : ArtifactDigest) (allowResume : Bool) (head : Head) :
    Cache × Except StartError Setup :=
  match openCached cache path with
  | some cached => (cache, .ok cached)
  | none =>
      if allowResume then
        match openResume cache path with
        | some resumed => (cache, .ok resumed)
        | none => startFresh ((cache.deleteMeta path).remove (.artifact path)) path head
      else startFresh cache path head

def Download.fromSetup (path : ArtifactDigest) (url : Text) (setup : Setup) : Download :=
  let xfer : Transfer :=
    { url, path, fileSize := none, bytesWritten := 0, resumeOffset := 0, etag := [],
      started := false, isCached := false, reader := false, file := none, cachedFile := none }
  match setup with
  | .cached file size =>
      { progressBytes := size, progressTotal := UInt64.ofNat size, status := .complete,
        failure := none, noRetry := false
        xfer := { xfer with
          cachedFile := some ⟨file, 0⟩, fileSize := some (UInt64.ofNat size), isCached := true,
          started := true } }
  | .resume file resume =>
      { progressBytes := resume.offset, progressTotal := resume.fileSize, status := .pending,
        failure := none, noRetry := false
        xfer := { xfer with
          file := some ⟨file, true⟩, resumeOffset := resume.offset,
          fileSize := some resume.fileSize, etag := resume.etag } }
  | .fresh file fileSize =>
      { progressBytes := 0, progressTotal := fileSize.getD unknownTotal, status := .pending,
        failure := none, noRetry := false
        xfer := { xfer with file := some ⟨file, false⟩, fileSize } }

def Download.start (cache : Cache) (path : ArtifactDigest) (url : Text) (allowResume : Bool)
    (head : Head) : Cache × Except StartError Download :=
  if url = [] then (cache, .error .emptyUrl)
  else
    match prepare cache path allowResume head with
    | (cache, .error error) => (cache, .error error)
    | (cache, .ok setup) => (cache, .ok (Download.fromSetup path url setup))

/-! ## What a server's answer means -/

/-- A server's answer to the request for the body. -/
structure Response where
  status : Nat
  contentType : Text := []
  etag : Bytes := []

/-- What one read of the body returns. -/
inductive BodyRead where
  | error
  | bytes (bytes : Bytes)

/-- What the network does during one poll: the answer to the request when it is
made (`none` when the connection fails), the read of the body, and how many
bytes land when writing them fails. -/
structure Net where
  response : Option Response := none
  body : BodyRead := .bytes []
  writeFailsAfter : Option Nat := none

/-- Only 206 makes a resumed body splice onto the partial file. -/
def partialContent : Nat := 206

/-- A fresh transfer accepts any success status; a resume needs 206. -/
def resumeResponseIsValid (resumeOffset status : Nat) : Bool :=
  resumeOffset == 0 || status == partialContent

def urlHasExtension (url extension : Text) : Bool :=
  let path := url.takeWhile fun c => c != '?' && c != '#'
  let name := (path.reverse.takeWhile (· != '/')).reverse
  -- What follows the last dot, unless the dot leads the name or there is none.
  let suffix := (name.reverse.takeWhile (· != '.')).reverse
  suffix.length + 1 < name.length && suffix.map Char.toLower == extension

/-- An HTML page for a URL that does not name one is a likely error page. -/
def isContentTypeMismatch (contentType url : Text) : Bool :=
  if (contentType.take 9).map Char.toLower ≠ ['t', 'e', 'x', 't', '/', 'h', 't', 'm', 'l'] then
    false
  else
    !([['h', 't', 'm', 'l'], ['h', 't', 'm'], ['x', 'h', 't', 'm', 'l']].any (urlHasExtension url))

/-! ## Polling -/

/-- Outcome of one poll; `read` carries the bytes put into the buffer. -/
inductive Chunk where
  | read (bytes : Bytes)
  | idle
  | failed

/-- The sidecar a pause or a drop would leave: none for a body of unknown
length or before anything was written. -/
def Transfer.sidecar (xfer : Transfer) : Option Meta :=
  match xfer.fileSize with
  | none => none
  | some fileSize =>
      if xfer.bytesWritten = 0 then none
      else some ⟨fileSize, UInt64.ofNat xfer.total, packEtag xfer.etag⟩

def saveMeta (cache : Cache) (xfer : Transfer) : Cache :=
  match xfer.sidecar with
  | none => cache
  | some record => cache.writeMeta xfer.path record

/-- Delete the partial file and its sidecar. -/
def discard (cache : Cache) (xfer : Transfer) : Cache :=
  Cache.deleteMeta (cache.remove (.artifact xfer.path)) xfer.path

namespace Download

def fail (download : Download) (failure : Failure) (noRetry : Bool) : Download :=
  { download with failure := some failure, noRetry, status := .failed }

/-- Close the file being written. -/
def closeFile (download : Download) : Download :=
  { download with xfer := { download.xfer with file := none } }

/-- One read of a complete entry being served from disk. -/
def readCached (net : Net) (cache : Cache) (download : Download) : Download × Chunk :=
  match download.xfer.cachedFile with
  | none => (download, .idle)
  | some handle =>
      let bytes := ((cache.contents handle.file).drop handle.position).take chunkSize
      let closed := { download with xfer := { download.xfer with cachedFile := none } }
      match net.body with
      | .error => (closed, .idle)
      | .bytes _ =>
          if bytes = [] then (closed, .idle)
          else
            ({ download with
                xfer := { download.xfer with
                  cachedFile := some ⟨handle.file, handle.position + bytes.length⟩ } },
              .read bytes)

/-- Make the request. Returns `false` after setting a terminal failed state. -/
def startTransfer (net : Net) (cache : Cache) (download : Download) : Cache × Download × Bool :=
  match net.response with
  | none => (cache, download.closeFile.fail .transfer false, false)
  | some response =>
      let download :=
        if response.etag = [] then download
        else { download with xfer := { download.xfer with etag := response.etag } }
      if response.status ≥ 400 then
        (discard cache download.xfer,
          download.closeFile.fail .server (decide (response.status < 500)), false)
      else if !resumeResponseIsValid download.xfer.resumeOffset response.status then
        (discard cache download.xfer, download.closeFile.fail .resumeRestart false, false)
      else if isContentTypeMismatch response.contentType download.xfer.url then
        (discard cache download.xfer, download.closeFile.fail .htmlPage true, false)
      else
        (cache,
          { download with
              status := .downloading, xfer := { download.xfer with reader := true, started := true } },
          true)

/-- Every byte has arrived: record so in the sidecar. -/
def finalizeComplete (cache : Cache) (download : Download) : Cache × Download :=
  let total := download.xfer.total
  (cache.writeMeta download.xfer.path
      ⟨UInt64.ofNat total, UInt64.ofNat total, packEtag download.xfer.etag⟩,
    { download.closeFile with
        progressBytes := total, progressTotal := UInt64.ofNat total, status := .complete })

/-- Write a chunk of the body through the open file. -/
def writeBody (cache : Cache) (xfer : Transfer) (bytes : Bytes) : Cache :=
  match xfer.file with
  | none => cache
  | some handle =>
      if handle.appends then cache.append handle.file bytes
      else cache.writeAt handle.file xfer.bytesWritten bytes

/-- One read of the response body. -/
def readBody (net : Net) (cache : Cache) (download : Download) : Cache × Download × Chunk :=
  if !download.xfer.reader then (cache, download, .failed)
  else
    match net.body with
    | .error => (cache, download.closeFile.fail .transfer false, .failed)
    | .bytes bytes =>
        if bytes = [] then
          let finished := download.finalizeComplete cache
          (finished.1, finished.2, .idle)
        else
          match net.writeFailsAfter, download.xfer.file with
          | some landed, some _ =>
              (writeBody cache download.xfer (bytes.take landed),
                download.closeFile.fail .transfer false, .failed)
          | _, _ =>
              let xfer :=
                { download.xfer with bytesWritten := download.xfer.bytesWritten + bytes.length }
              (writeBody cache download.xfer bytes,
                { download with xfer, progressBytes := xfer.total }, .read bytes)

/-- Advance the transfer by at most one read. -/
def readChunk (flags : Flags) (net : Net) (cache : Cache) (download : Download) :
    Cache × Download × Chunk :=
  if download.xfer.isCached then
    let served := download.readCached net cache
    (cache, served.1, served.2)
  else
    match download.status with
    | .failed | .cancelled => (cache, download, .failed)
    | .complete | .paused => (cache, download, .idle)
    | .pending | .downloading =>
        if flags.cancel then
          (discard cache download.xfer, { download.closeFile with status := .cancelled }, .failed)
        else if flags.pause then
          (saveMeta cache download.xfer, { download with status := .paused }, .idle)
        else if !download.xfer.started then
          match download.startTransfer net cache with
          | (cache, download, false) => (cache, download, .failed)
          | (cache, download, true) => download.readBody net cache
        else download.readBody net cache

/-- Drop a transfer. One in flight leaves a resumable sidecar; a failure that
never wrote a byte leaves nothing behind. -/
def drop (cache : Cache) (download : Download) : Cache :=
  if download.xfer.isCached then cache
  else if download.status = .downloading ∧ download.xfer.bytesWritten > 0 then
    saveMeta cache download.xfer
  else if download.status = .failed ∧ download.xfer.bytesWritten = 0 then
    discard cache download.xfer
  else cache

end Download

end Retrovert.Transport
