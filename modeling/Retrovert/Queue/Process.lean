import Retrovert.Queue.EntryView

/-!
# What a worker does with a slot it holds

Between the claim of a slot and its settle a worker looks in the cache, sets a transfer
up, polls it until it stops, and judges what came of it. After the settle it drops the
transfer, which may write to the cache once more. Each of these is a step, interleaved
with the lock holds of the queue and with the other workers; what the network answers is
part of the step.

The bytes that a transfer feeds its hasher are kept as they are, and hashed when they
are judged. SHA-256 is a parameter.
-/

set_option autoImplicit false

namespace Retrovert.Queue

open Retrovert.Transport

/-! ## Validation -/

section Validation

variable (sha256 : Bytes → ArtifactDigest)

/-- Hash the file at `path`, or `none` when it cannot be read or holds nothing. -/
def hashFile (cache : Cache) (path : ArtifactDigest) : Option ArtifactDigest :=
  match cache.read (.artifact path) with
  | some content => if content = [] then none else some (sha256 content)
  | none => none

/-- Check that the file at `path` reads back as `digest`. -/
def verifyOnDisk (cache : Cache) (path digest : ArtifactDigest) : Except Failure Unit :=
  match hashFile sha256 cache path with
  | none => .error .unreadable
  | some onDisk => if onDisk ≠ digest then .error (.diskDigest onDisk) else .ok ()

/-- Check a completed transfer against everything its request promised. -/
def validate (cache : Cache) (path digest : ArtifactDigest) (expectedSize : Option Nat)
    (inFlight : Bytes) (downloaded : Nat) : Except Failure Unit :=
  if sha256 inFlight ≠ digest then .error (.digest (sha256 inFlight))
  else
    match expectedSize with
    | some expected =>
        if downloaded ≠ expected then .error (.size expected downloaded)
        else verifyOnDisk sha256 cache path digest
    | none => verifyOnDisk sha256 cache path digest

end Validation

/-- The first `len` bytes of the file at `path`, unless it is shorter. -/
def hashPrefix (cache : Cache) (path : ArtifactDigest) (len : Nat) : Option Bytes :=
  (cache.read (.artifact path)).bind fun content =>
    if len ≤ content.length then some (content.take len) else none

/-- A file can be hashed up to its end. -/
theorem hashPrefix_whole {cache : Cache} {path : ArtifactDigest} {content : Bytes} {len : Nat}
    (read : cache.read (.artifact path) = some content) (whole : len = content.length) :
    hashPrefix cache path len = some content := by
  rw [hashPrefix, read, Option.bind_some, whole, if_pos (Nat.le_refl _), List.take_length]

/-! ## A worker's task -/

/-- Where a worker is with the slot it holds. After the settle, the transfer is left to be
dropped, and the entry to be evicted when its partial file could not be read. -/
inductive Task where
  | idle
  | entered (request : SlotRequest)
  | opening (request : SlotRequest)
  | opened (request : SlotRequest) (download : Download)
  | reading (request : SlotRequest) (download : Download) (hashed : Bytes)
      (oversize : Option Failure)
  | judging (request : SlotRequest) (download : Download) (hashed : Bytes)
      (oversize : Option Failure)
  | settling (request : Option SlotRequest) (verdict : Verdict) (left : Option Download)
      (evicts : Bool)
  | dropping (request : Option SlotRequest) (left : Option Download) (evicts : Bool)

namespace Task

def request : Task → Option SlotRequest
  | .idle => none
  | .entered request | .opening request | .opened request _ | .reading request _ _ _
  | .judging request _ _ _ => some request
  | .settling request _ _ _ | .dropping request _ _ => request

/-- The artifact that the task is about. -/
def digest (task : Task) : Option ArtifactDigest := task.request.map SlotRequest.digest

/-- The transfer that a panic would leave to be dropped. -/
def download : Task → Option Download
  | .opened _ download | .reading _ download _ _ | .judging _ download _ _ => some download
  | _ => none

/-- Whether the slot has yet to be settled. -/
def unsettled : Task → Bool
  | .idle | .dropping _ _ _ => false
  | _ => true

/-- Whether the worker is still at its slot's transfer. -/
def running : Task → Bool
  | .entered _ | .opening _ | .opened _ _ | .reading _ _ _ _ | .judging _ _ _ _ => true
  | _ => false

end Task

/-- The queue, what each worker is at, and the cache directory. -/
structure System (n : Nat) where
  shared : Shared n
  tasks : Fin n → Task
  cache : Cache

/-- A step of the queue, or of a worker with the slot it holds. -/
inductive Step (n : Nat) where
  | shared (action : Action n)
  | enter (worker : Fin n)
  | probe (worker : Fin n)
  | start (worker : Fin n) (head : Head)
  | rehash (worker : Fin n)
  | poll (worker : Fin n) (net : Net)
  | judge (worker : Fin n)
  | panic (worker : Fin n)
  | settle (worker : Fin n)
  | drop (worker : Fin n)

namespace System

variable {n : Nat} (sha256 : Bytes → ArtifactDigest)

/-- A queue nothing has been asked of yet, over an empty cache directory. -/
def fresh (n : Nat) : System n := ⟨Shared.fresh n, fun _ => .idle, Disk.empty⟩

def setTask (system : System n) (worker : Fin n) (task : Task) : System n :=
  { system with tasks := Function.update system.tasks worker task }

/-- The slot a worker holds. -/
def held (system : System n) (worker : Fin n) : Option EntryId :=
  (system.shared.threads worker).index

/-- A settle takes the verdict of the worker's task, and a worker looks for work once it is
done with the last one. No settle panics here. -/
def queueStep (system : System n) (action : Action n) : Option (System n) :=
  let stepped := (system.shared.step action).map fun shared => { system with shared }
  match action with
  | .settle _ _ | .settlePanics _ => none
  | .look worker =>
      match system.tasks worker with
      | .idle => stepped
      | _ => none
  | _ => stepped

/-- Read the request, unless the work was called off already. -/
def enter (system : System n) (worker : Fin n) : Option (System n) :=
  match system.held worker, system.tasks worker with
  | some index, .idle =>
      match (system.shared.slots index).request with
      | none => some (system.setTask worker (.settling none (.failed none) none false))
      | some request =>
          if (system.shared.slots index).cancelRequested then
            some (system.setTask worker (.settling (some request) .cancelled none false))
          else some (system.setTask worker (.entered request))
  | _, _ => none

/-- Serve a complete cache entry, which needs neither the network nor a hash. -/
def probe (system : System n) (worker : Fin n) : Option (System n) :=
  match system.tasks worker with
  | .entered request =>
      if system.cache.isCompleteAt request.digest then
        let cached := asI64 ((system.cache.read (.artifact request.digest)).elim 0 List.length)
        (system.shared.step (.progress worker cached cached)).map fun shared =>
          { system with shared }.setTask worker
            (.settling (some request) (.complete request.digest) none false)
      else some (system.setTask worker (.opening request))
  | _ => none

/-- Set the transfer up. -/
def start (system : System n) (worker : Fin n) (head : Head) : Option (System n) :=
  match system.held worker, system.tasks worker with
  | some index, .opening request =>
      match Download.start system.cache request.digest request.url true head with
      | (cache, .error error) =>
          some ({ system with cache }.setTask worker
            (.settling (some request) (.failed (some (.start error))) none false))
      | (cache, .ok download) =>
          if (system.shared.slots index).cancelRequested then
            some ({ system with cache }.setTask worker
              (.settling (some request) .cancelled (some download) false))
          else some ({ system with cache }.setTask worker (.opened request download))
  | _, _ => none

/-- Hash what a resumed transfer has on disk already. -/
def rehash (system : System n) (worker : Fin n) : Option (System n) :=
  match system.tasks worker with
  | .opened request download =>
      if download.progress.downloaded = 0 then
        some (system.setTask worker (.reading request download [] none))
      else
        match hashPrefix system.cache request.digest download.progress.downloaded with
        | none => some (system.setTask worker
            (.settling (some request) (.failed (some .unreadable)) (some download) true))
        | some hashed => some (system.setTask worker (.reading request download hashed none))
  | _ => none

/-- The refusal of a body that has run past the length its request names. -/
def oversizeOf (request : SlotRequest) (downloaded : Nat) : Option Failure :=
  request.expectedSize.bind fun expected =>
    if expected < downloaded then some (.oversize expected downloaded) else none

/-- Store what a transfer has come to in the slot it runs in. -/
def report (system : System n) (worker : Fin n) (progress : Snapshot) : Option (Shared n) :=
  let slot := Slot.storeProgress {} progress
  system.shared.step (.progress worker slot.bytesDownloaded slot.bytesTotal)

/-- Poll the transfer once, and stop it at the first chunk past the named length. -/
def poll (system : System n) (worker : Fin n) (net : Net) : Option (System n) :=
  match system.tasks worker, (system.shared.active worker).download with
  | .reading request download hashed oversize, some flags =>
      let (cache, polled, chunk) := download.readChunk flags net system.cache
      let progress := polled.progress
      let reported := system.report worker progress
      match chunk with
      | .read bytes =>
          let refused := oversizeOf request progress.downloaded
          let asked := if oversize.isNone ∧ refused.isSome then
            reported.bind fun shared => shared.step (.requestCancel worker) else reported
          asked.map fun shared =>
            { system with shared, cache }.setTask worker
              (.reading request polled (hashed ++ bytes) (oversize.or refused))
      | _ => reported.map fun shared =>
          { system with shared, cache }.setTask worker (.judging request polled hashed oversize)
  | _, _ => none

/-- Decide what the transfer came to. An entry that was refused is evicted, or the next
attempt would take it for a hit. -/
def judge (system : System n) (worker : Fin n) : Option (System n) :=
  match system.tasks worker with
  | .judging request download hashed oversize =>
      let settle (cache : Cache) (verdict : Verdict) : System n :=
        { system with cache }.setTask worker (.settling (some request) verdict (some download) false)
      match oversize with
      | some refused => some (settle (system.cache.evict request.digest) (.failed (some refused)))
      | none =>
          match download.status with
          | .complete =>
              match validate sha256 system.cache request.digest request.digest
                  request.expectedSize hashed download.progress.downloaded with
              | .ok () => some (settle system.cache (.complete request.digest))
              | .error refused =>
                  some (settle (system.cache.evict request.digest) (.failed (some refused)))
          | .cancelled => some (settle system.cache .cancelled)
          | .paused => some (settle system.cache .paused)
          | .pending | .downloading | .failed =>
              some (settle system.cache (.failed (download.failure.map .transfer)))
  | _ => none

/-- The worker unwinds, and settles its slot as panicked. -/
def panic (system : System n) (worker : Fin n) : Option (System n) :=
  if (system.tasks worker).running then
    some (system.setTask worker (.settling (system.tasks worker).request (.failed (some .panicked))
      (system.tasks worker).download false))
  else none

/-- Settle the slot. -/
def settle (system : System n) (worker : Fin n) : Option (System n) :=
  match system.tasks worker with
  | .settling request verdict left evicts =>
      (system.shared.step (.settle worker verdict)).map fun shared =>
        { system with shared }.setTask worker (.dropping request left evicts)
  | _ => none

/-- Let the transfer go, after the slot has been settled. -/
def drop (system : System n) (worker : Fin n) : Option (System n) :=
  match system.tasks worker with
  | .dropping request left evicts =>
      let evicted := if evicts then request.elim system.cache fun request =>
        system.cache.evict request.digest else system.cache
      some ({ system with cache := left.elim evicted fun download => download.drop evicted }.setTask
        worker .idle)
  | _ => none

def step (system : System n) : Step n → Option (System n)
  | .shared action => system.queueStep action
  | .enter worker => system.enter worker
  | .probe worker => system.probe worker
  | .start worker head => system.start worker head
  | .rehash worker => system.rehash worker
  | .poll worker net => system.poll worker net
  | .judge worker => system.judge sha256 worker
  | .panic worker => system.panic worker
  | .settle worker => system.settle worker
  | .drop worker => system.drop worker

end System

end Retrovert.Queue
