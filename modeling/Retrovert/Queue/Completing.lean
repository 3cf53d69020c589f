import Retrovert.Queue.Process
import Retrovert.Transport.Partial

/-!
# Complete implies validated

A slot settles complete when its worker has validated a transfer, one that the
transport serves from the cache included, or has found its entry complete before
there was a transfer. The second rests on the sidecar, which says how many bytes
arrived and not which ones. It is written when a transfer ends, and the transfer
is validated after that or its entry evicted. But a pause writes it as well, and
one that lands once every declared byte has arrived leaves an entry that looks
complete and was never validated (`a_paused_body_is_served_unvalidated`).

It is enough that no pause lands there and no worker panics there, that a
complete entry has the length its next request names, and that no two workers are
at one artifact (`complete_implies_validated`).
-/

set_option autoImplicit false

namespace Retrovert.Queue

open Retrovert.Runs Retrovert.Transport

/-! ## What the cache owes a request -/

section Entries

variable (sha256 : Bytes → ArtifactDigest)

/-- An entry that looks complete holds what its digest names. -/
def Genuine (cache : Cache) (digest : ArtifactDigest) : Prop :=
  cache.isCompleteAt digest = true → ∃ content,
    cache.read (.artifact digest) = some content ∧ content ≠ [] ∧ sha256 content = digest

/-- The entry is what the request asked for. -/
def Valid (cache : Cache) (request : SlotRequest) : Prop :=
  ∃ content, cache.read (.artifact request.digest) = some content ∧ content ≠ [] ∧
    sha256 content = request.digest ∧ ∀ expected ∈ request.expectedSize, content.length = expected

/-- What a transfer leaves of its entry once its slot is being settled: an entry that dropping
it does not change, or one that is not finished and that dropping it does not finish. -/
inductive Settled (cache : Cache) (digest : ArtifactDigest) : Option Download → Prop
  | genuine {left : Option Download} (genuine : Genuine sha256 cache digest)
      (complete : ∀ download ∈ left, download.status = .complete) : Settled cache digest left
  | unfinished {download : Download} (path : download.xfer.path = digest)
      (unfinished : cache.Unfinished digest)
      (short : download.status = .downloading → download.xfer.looksComplete = false) :
      Settled cache digest (some download)

/-- Where a task stands with its entry. -/
def Stage (cache : Cache) : Task → Prop
  | .idle => True
  | .entered request => Genuine sha256 cache request.digest
  | .opening request => cache.isCompleteAt request.digest = false
  | .opened request download => download.xfer.path = request.digest ∧
      download.status = .pending ∧ ∃ arrived, download.Writing cache arrived
  | .reading request download hashed _ => download.xfer.path = request.digest ∧
      download.Writing cache hashed
  | .judging request download hashed _ => download.xfer.path = request.digest ∧
      download.Stopped cache hashed
  | .settling none verdict left evicts => verdict.state ≠ .complete ∧ left = none ∧ evicts = false
  | .settling (some request) verdict left evicts =>
      (∀ digest, verdict = .complete digest →
        digest = request.digest ∧ Valid sha256 cache request) ∧
      Settled sha256 cache request.digest left ∧ evicts = false
  | .dropping none left evicts => left = none ∧ evicts = false
  | .dropping (some request) left evicts =>
      Settled sha256 cache request.digest left ∧ evicts = false

variable {sha256}

theorem Genuine.of_incomplete {cache : Cache} {digest : ArtifactDigest}
    (missing : cache.isCompleteAt digest = false) : Genuine sha256 cache digest := by
  intro complete
  rw [missing] at complete
  cases complete

/-- What is valid for a request is what its digest names. -/
theorem Valid.genuine {cache : Cache} {request : SlotRequest} (valid : Valid sha256 cache request) :
    Genuine sha256 cache request.digest := by
  obtain ⟨content, read, full, hash, -⟩ := valid
  exact fun _ => ⟨content, read, full, hash⟩

/-- A cache hit is what its request asked for, when its length is. -/
theorem Genuine.valid {cache : Cache} {request : SlotRequest}
    (genuine : Genuine sha256 cache request.digest)
    (hit : cache.isCompleteAt request.digest = true)
    (fits : ∀ expected ∈ request.expectedSize, ∀ content,
      cache.read (.artifact request.digest) = some content → content.length = expected) :
    Valid sha256 cache request := by
  obtain ⟨content, read, full, hash⟩ := genuine hit
  exact ⟨content, read, full, hash, fun expected named => fits expected named content read⟩

/-- A transfer that passes validation left what was asked for. -/
theorem valid_of_validate {cache : Cache} {request : SlotRequest} {inFlight : Bytes}
    {downloaded : Nat} (length : downloaded = inFlight.length)
    (read : cache.read (.artifact request.digest) = some inFlight)
    (passed : validate sha256 cache request.digest request.digest request.expectedSize inFlight
      downloaded = .ok ()) : Valid sha256 cache request := by
  have onDisk : verifyOnDisk sha256 cache request.digest request.digest = .ok () ∧
      ∀ expected ∈ request.expectedSize, inFlight.length = expected := by
    unfold validate at passed
    split at passed
    · cases passed
    · split at passed
      · rename_i expected named
        split at passed
        · cases passed
        · rename_i same
          refine ⟨passed, fun other also => ?_⟩
          rw [named, Option.mem_some] at also
          rw [← also, ← length]
          exact not_not.mp same
      · rename_i unnamed
        exact ⟨passed, by simp [unnamed]⟩
  obtain ⟨verified, fits⟩ := onDisk
  unfold verifyOnDisk hashFile at verified
  rw [read] at verified
  by_cases empty : inFlight = []
  · simp [empty] at verified
  · simp only [if_neg empty] at verified
    split at verified
    · cases verified
    · rename_i hash
      exact ⟨inFlight, read, empty, not_not.mp hash, fits⟩

/-! ## Entries that a step leaves alone -/

section Frame

variable {cache later : Cache}

theorem Genuine.congr {digest : ArtifactDigest} (genuine : Genuine sha256 cache digest)
    (file : Disk.SameAt (.artifact digest) cache later)
    (sidecar : Disk.SameAt (.sidecar digest) cache later) : Genuine sha256 later digest := by
  intro complete
  rw [Cache.isCompleteAt_congr file.read sidecar.read] at complete
  rw [file.read]
  exact genuine complete

theorem Valid.congr {request : SlotRequest} (valid : Valid sha256 cache request)
    (file : Disk.SameAt (.artifact request.digest) cache later) : Valid sha256 later request := by
  unfold Valid
  rw [file.read]
  exact valid

theorem Settled.congr {digest : ArtifactDigest} {left : Option Download}
    (settled : Settled sha256 cache digest left)
    (file : Disk.SameAt (.artifact digest) cache later)
    (sidecar : Disk.SameAt (.sidecar digest) cache later) : Settled sha256 later digest left := by
  cases settled with
  | genuine genuine complete => exact .genuine (genuine.congr file sidecar) complete
  | unfinished path unfinished short =>
      exact .unfinished path (unfinished.congr sidecar.read) short

/-- A task is where it was with an entry that nobody else has touched. -/
theorem Stage.congr {task : Task} (stage : Stage sha256 cache task)
    (same : ∀ digest, task.digest = some digest → Disk.SameAt (.artifact digest) cache later ∧
      Disk.SameAt (.sidecar digest) cache later) : Stage sha256 later task := by
  cases task with
  | idle => trivial
  | entered request => exact Genuine.congr stage (same _ rfl).1 (same _ rfl).2
  | opening request =>
      exact (Cache.isCompleteAt_congr (same _ rfl).1.read (same _ rfl).2.read).trans stage
  | opened request download =>
      obtain ⟨path, pending, arrived, writing⟩ := stage
      obtain ⟨file, sidecar⟩ := same request.digest rfl
      exact ⟨path, pending, arrived, writing.congr (path ▸ file) (path ▸ sidecar)⟩
  | reading request download hashed oversize =>
      obtain ⟨path, writing⟩ := stage
      obtain ⟨file, sidecar⟩ := same request.digest rfl
      exact ⟨path, writing.congr (path ▸ file) (path ▸ sidecar)⟩
  | judging request download hashed oversize =>
      obtain ⟨path, stopped⟩ := stage
      obtain ⟨file, sidecar⟩ := same request.digest rfl
      exact ⟨path, stopped.congr (path ▸ file) (path ▸ sidecar)⟩
  | settling request verdict left evicts =>
      cases request with
      | none => exact stage
      | some request =>
          obtain ⟨valid, settled, kept⟩ := stage
          obtain ⟨file, sidecar⟩ := same request.digest rfl
          refine ⟨fun digest complete => ?_, settled.congr file sidecar, kept⟩
          exact ⟨(valid digest complete).1, (valid digest complete).2.congr file⟩
  | dropping request left evicts =>
      cases request with
      | none => exact stage
      | some request =>
          obtain ⟨settled, kept⟩ := stage
          exact ⟨settled.congr (same _ rfl).1 (same _ rfl).2, kept⟩

end Frame

/-! ## Letting a transfer go -/

/-- Dropping a transfer whose slot has been settled makes nothing look complete. -/
theorem Settled.dropped {cache : Cache} {digest : ArtifactDigest} {left : Option Download}
    (settled : Settled sha256 cache digest left) :
    Genuine sha256 (left.elim cache fun download => download.drop cache) digest ∧
      Cache.SameElsewhere digest cache (left.elim cache fun download => download.drop cache) := by
  cases settled with
  | genuine genuine complete =>
      cases left with
      | none => exact ⟨genuine, .refl _ _⟩
      | some download =>
          rw [Option.elim_some, Download.drop_of_complete (complete download rfl)]
          exact ⟨genuine, .refl _ _⟩
  | unfinished path unfinished short =>
      subst path
      refine ⟨.of_incomplete (Cache.isCompleteAt_of_unfinished ?_),
        Download.sameElsewhere_drop cache _⟩
      exact Download.unfinished_drop unfinished short

/-- Stopping a running transfer short of the declared length leaves it unfinished. -/
theorem Settled.of_writing {cache : Cache} {digest : ArtifactDigest} {download : Download}
    {arrived : Bytes} (path : download.xfer.path = digest)
    (writing : download.Writing cache arrived)
    (short : download.status = .downloading → download.xfer.looksComplete = false) :
    Settled sha256 cache digest (some download) :=
  .unfinished path (path ▸ writing.unfinished) short

/-- A transfer that stopped without completing leaves its entry unfinished. -/
theorem Settled.of_stopped {cache : Cache} {digest : ArtifactDigest} {download : Download}
    {arrived : Bytes} (path : download.xfer.path = digest)
    (stopped : download.Stopped cache arrived) (short : download.status ≠ .complete) :
    Settled sha256 cache digest (some download) := by
  cases stopped with
  | complete status => exact absurd status short
  | short status unfinished =>
      refine .unfinished path (path ▸ unfinished) fun downloading => ?_
      simp [downloading] at status

/-- An entry that was evicted is unfinished, however its transfer stopped. -/
theorem Settled.of_evict {cache : Cache} {digest : ArtifactDigest} {download : Download}
    {arrived : Bytes} (path : download.xfer.path = digest)
    (stopped : download.Stopped cache arrived) :
    Settled sha256 (cache.evict digest) digest (some download) := by
  refine .unfinished path (Cache.unfinished_evict cache digest) fun downloading => ?_
  cases stopped with
  | complete status => simp [downloading] at status
  | short status => simp [downloading] at status

end Entries

/-! ## The slot a worker holds -/

theorem Slot.request_settle (slot : Slot) (digest : Option ArtifactDigest) (state : State)
    (failure : Option Failure) : (slot.settle digest state failure).request = slot.request := by
  unfold Slot.settle
  dsimp only
  split <;> rfl

/-- A slot that settles complete publishes the entry of the digest it settles with. -/
theorem Slot.settle_complete {slot : Slot} {verdict : Verdict}
    (complete : (slot.settle verdict.digest verdict.state verdict.failure).state = .complete) :
    ∃ digest, verdict = .complete digest ∧
      (slot.settle verdict.digest verdict.state verdict.failure).path = some (.artifact digest) := by
  rw [Slot.state_settle] at complete
  split at complete
  · cases complete
  · rename_i kept
    split at complete
    · cases complete
    · cases verdict with
      | complete digest =>
          refine ⟨digest, rfl, ?_⟩
          simp [Slot.settle, Slot.settledState, kept, Verdict.state, Verdict.digest, Cache.pathFor]
      | _ => cases complete

namespace Shared

variable {n : Nat}

/-- Until its slot is settled, a worker holds it, and the slot keeps its request. -/
theorem claim_kept {before after : Shared n} {action : Action n} {worker : Fin n} {id : EntryId}
    (wired : before.Wired) (stepped : before.step action = some after)
    (unsettled : ∀ verdict, action ≠ .settle worker verdict)
    (runs : action ≠ .settlePanics worker) (held : (before.active worker).slot = some id) :
    (after.active worker).slot = some id ∧
      (after.slots id).request = (before.slots id).request := by
  cases step_entry id stepped wired with
  | same slot claim => exact ⟨(claim.holders worker).mpr held, slot.request⟩
  | queued free => simp [wired.inUse id ⟨worker, held⟩] at free
  | preempted _ _ _ slot holders => exact ⟨(holders worker).mpr held, by rw [slot]⟩
  | cancelled _ slot _ claim => exact ⟨(claim.holders worker).mpr held, by rw [slot]⟩
  | paused _ _ slot holders => exact ⟨(holders worker).mpr held, by rw [slot]⟩
  | resumed _ _ slot claim => exact ⟨(claim.holders worker).mpr held, by rw [slot]⟩
  | removed _ idle => exact absurd ⟨worker, held⟩ idle
  | swept _ _ slot claim => exact ⟨(claim.holders worker).mpr held, by rw [slot]⟩
  | taken _ _ slot holders => exact ⟨(holders worker).mpr (.inr held), by rw [slot]⟩
  | @settled settler verdict _ _ slot holders =>
      have other : worker ≠ settler := by
        rintro rfl
        exact unsettled verdict rfl
      exact ⟨(holders worker).mpr ⟨other, held⟩, by rw [slot, Slot.request_settle]⟩
  | @settlePanicked settler _ slot holders =>
      have other : worker ≠ settler := by
        rintro rfl
        exact runs rfl
      exact ⟨(holders worker).mpr ⟨other, held⟩, by rw [slot]; rfl⟩

end Shared

/-! ## What every guarded run keeps -/

namespace System

variable {n : Nat} (sha256 : Bytes → ArtifactDigest)

/-- Workers are at different artifacts, each as far with its entry as its task says, and the
entries that nobody is at are what their digests name. -/
structure Sound (system : System n) : Prop where
  wired : system.shared.Wired
  claims : ∀ worker request, (system.tasks worker).unsettled = true →
    (system.tasks worker).request = some request →
      ∃ id, (system.shared.active worker).slot = some id ∧
        (system.shared.slots id).request = some request
  apart : ∀ worker other digest, (system.tasks worker).digest = some digest →
    (system.tasks other).digest = some digest → worker = other
  genuine : ∀ digest, (∀ worker, (system.tasks worker).digest ≠ some digest) →
    Genuine sha256 system.cache digest
  stages : ∀ worker, Stage sha256 system.cache (system.tasks worker)

/-- No two workers are at one artifact; a complete entry has the length its request names; no
pause stops a transfer, and no worker panics, once the sidecar it leaves says that every
byte has arrived. -/
def spares (system : System n) : Step n → Bool
  | .enter worker =>
      match (system.held worker).bind fun id => (system.shared.slots id).request with
      | some request => (List.finRange n).all fun other =>
          other == worker || (system.tasks other).digest != some request.digest
      | none => true
  | .probe worker =>
      match system.tasks worker with
      | .entered request => !system.cache.isCompleteAt request.digest ||
          request.expectedSize.all fun expected =>
            (system.cache.read (.artifact request.digest)).all fun content =>
              content.length == expected
      | _ => true
  | .poll worker _ =>
      match system.tasks worker, (system.shared.active worker).download with
      | .reading _ download _ _, some flags =>
          flags.cancel || !flags.pause || !download.xfer.looksComplete
      | _, _ => true
  | .panic worker => (system.tasks worker).download.all fun download =>
      download.status != .complete && !download.xfer.looksComplete
  | _ => true

variable {sha256} {system after : System n} {worker : Fin n}

theorem sound_fresh : (fresh n).Sound sha256 where
  wired := Shared.wired_fresh
  claims _ _ unsettled := by cases unsettled
  apart _ _ _ there := by cases there
  genuine _ _ := .of_incomplete rfl
  stages _ := trivial

theorem Sound.stage {task : Task} (sound : system.Sound sha256)
    (at_work : system.tasks worker = task) : Stage sha256 system.cache task :=
  at_work ▸ sound.stages worker

/-- The queue moves, and every worker that has yet to settle keeps its claim. -/
theorem Sound.with_shared {shared : Shared n} (sound : system.Sound sha256)
    (wired : shared.Wired)
    (kept : ∀ worker id, (system.tasks worker).unsettled = true →
      (system.shared.active worker).slot = some id → (shared.active worker).slot = some id ∧
        (shared.slots id).request = (system.shared.slots id).request) :
    Sound sha256 { system with shared } where
  wired := wired
  claims worker request unsettled at_work := by
    obtain ⟨id, held, asked⟩ := sound.claims worker request unsettled at_work
    obtain ⟨holds, same⟩ := kept worker id unsettled held
    exact ⟨id, holds, same.trans asked⟩
  apart := sound.apart
  genuine := sound.genuine
  stages := sound.stages

/-- A worker's task changes, and no entry does but the one the worker was at. -/
theorem Sound.with_change {earlier task : Task} {later : Cache} (sound : system.Sound sha256)
    (at_work : system.tasks worker = earlier)
    (claim : task.unsettled = true → ∀ request, task.request = some request →
      ∃ id, (system.shared.active worker).slot = some id ∧
        (system.shared.slots id).request = some request)
    (alone : ∀ digest, task.digest = some digest → ∀ other, other ≠ worker →
      (system.tasks other).digest ≠ some digest)
    (frame : ∀ digest, earlier.digest ≠ some digest →
      Disk.SameAt (.artifact digest) system.cache later ∧
        Disk.SameAt (.sidecar digest) system.cache later)
    (genuine : ∀ digest, earlier.digest = some digest → task.digest ≠ some digest →
      Genuine sha256 later digest)
    (stage : Stage sha256 later task) :
    Sound sha256 ({ system with cache := later }.setTask worker task) := by
  subst at_work
  have mine : ({ system with cache := later }.setTask worker task).tasks worker = task := by
    simp [setTask]
  have theirs : ∀ other, other ≠ worker →
      ({ system with cache := later }.setTask worker task).tasks other = system.tasks other := by
    intro other different
    simp [setTask, different]
  refine ⟨sound.wired, fun other request => ?_, fun one other digest first second => ?_,
    fun digest nobody => ?_, fun other => ?_⟩
  · by_cases same : other = worker
    · subst same
      rw [mine]
      exact fun unsettled => claim unsettled request
    · rw [theirs other same]
      exact sound.claims other request
  · by_cases here : one = worker <;> by_cases there : other = worker
    · exact here.trans there.symm
    · subst here
      rw [mine] at first
      rw [theirs other there] at second
      exact absurd second (alone digest first other there)
    · subst there
      rw [mine] at second
      rw [theirs one here] at first
      exact absurd first (alone digest second one here)
    · rw [theirs one here] at first
      rw [theirs other there] at second
      exact sound.apart one other digest first second
  · by_cases left : (system.tasks worker).digest = some digest
    · exact genuine digest left (mine ▸ nobody worker)
    · obtain ⟨file, sidecar⟩ := frame digest left
      refine (sound.genuine digest fun other => ?_).congr file sidecar
      by_cases same : other = worker
      · exact same ▸ left
      · exact theirs other same ▸ nobody other
  · by_cases same : other = worker
    · subst same
      rw [mine]
      exact stage
    · rw [theirs other same]
      exact (sound.stages other).congr fun digest there => frame digest fun here =>
        same (sound.apart other worker digest there here)

/-- A worker moves on with its artifact, touching no entry but that one. -/
theorem Sound.with_task {earlier task : Task} {later : Cache} (sound : system.Sound sha256)
    (at_work : system.tasks worker = earlier) (request : task.request = earlier.request)
    (unsettled : task.unsettled = true → earlier.unsettled = true)
    (frame : ∀ digest, earlier.digest ≠ some digest →
      Disk.SameAt (.artifact digest) system.cache later ∧
        Disk.SameAt (.sidecar digest) system.cache later)
    (stage : Stage sha256 later task) :
    Sound sha256 ({ system with cache := later }.setTask worker task) := by
  have digest : task.digest = earlier.digest := congrArg (Option.map SlotRequest.digest) request
  subst at_work
  refine sound.with_change rfl (fun working asked about => ?_) (fun _ here other different there => ?_)
    frame (fun _ here gone => absurd (digest.trans here) gone) stage
  · exact sound.claims worker asked (unsettled working) (request.symm.trans about)
  · exact different (sound.apart other worker _ there (digest.symm.trans here))

/-- A worker moves on with its artifact, and leaves the cache alone. -/
theorem Sound.with_task_only {earlier task : Task} (sound : system.Sound sha256)
    (at_work : system.tasks worker = earlier) (request : task.request = earlier.request)
    (unsettled : task.unsettled = true → earlier.unsettled = true)
    (stage : Stage sha256 system.cache task) : Sound sha256 (system.setTask worker task) :=
  sound.with_task at_work request unsettled (fun _ _ => ⟨.refl _ _, .refl _ _⟩) stage

/-- A worker takes a task at an artifact that nobody else is at. -/
theorem Sound.with_new {task : Task} (sound : system.Sound sha256)
    (idle : system.tasks worker = .idle)
    (claim : ∀ request, task.request = some request →
      ∃ id, (system.shared.active worker).slot = some id ∧
        (system.shared.slots id).request = some request)
    (alone : ∀ digest, task.digest = some digest → ∀ other, other ≠ worker →
      (system.tasks other).digest ≠ some digest)
    (stage : Stage sha256 system.cache task) : Sound sha256 (system.setTask worker task) :=
  sound.with_change idle (fun _ => claim) alone (fun _ _ => ⟨.refl _ _, .refl _ _⟩)
    (fun _ here => by cases here) stage

/-- A worker is done with its artifact, whose entry is what it should be. -/
theorem Sound.with_idle {earlier : Task} {later : Cache} (sound : system.Sound sha256)
    (at_work : system.tasks worker = earlier)
    (frame : ∀ digest, earlier.digest ≠ some digest →
      Disk.SameAt (.artifact digest) system.cache later ∧
        Disk.SameAt (.sidecar digest) system.cache later)
    (genuine : ∀ digest, earlier.digest = some digest → Genuine sha256 later digest) :
    Sound sha256 ({ system with cache := later }.setTask worker .idle) :=
  sound.with_change at_work (by simp [Task.unsettled]) (by simp [Task.digest, Task.request]) frame
    (fun digest here _ => genuine digest here) trivial

/-- What touches one entry leaves those of other artifacts alone. -/
theorem entry_of_elsewhere {before after : Cache} {path digest : ArtifactDigest}
    (elsewhere : Cache.SameElsewhere path before after) (other : path ≠ digest) :
    Disk.SameAt (.artifact digest) before after ∧ Disk.SameAt (.sidecar digest) before after :=
  ⟨elsewhere _ (by simpa using other.symm) (by simp),
    elsewhere _ (by simp) (by simpa using other.symm)⟩

/-! ## What each step keeps -/

/-- The queue moves without settling a slot. -/
theorem Sound.relay {action : Action n} {shared : Shared n} (sound : system.Sound sha256)
    (moved : system.shared.step action = some shared)
    (unsettled : ∀ worker verdict, action ≠ .settle worker verdict)
    (runs : ∀ worker, action ≠ .settlePanics worker) : Sound sha256 { system with shared } :=
  sound.with_shared (Shared.wired_step moved sound.wired) fun worker _ _ held =>
    Shared.claim_kept sound.wired moved (unsettled worker) (runs worker) held

theorem Sound.report {progress : Snapshot} {shared : Shared n} (sound : system.Sound sha256)
    (reported : system.report worker progress = some shared) :
    Sound sha256 { system with shared } := by
  have moved : system.shared.step (.progress worker
      (Slot.storeProgress {} progress).bytesDownloaded
      (Slot.storeProgress {} progress).bytesTotal) = some shared := reported
  exact sound.relay moved (by simp) (by simp)

theorem Sound.queueStep {action : Action n} (sound : system.Sound sha256)
    (stepped : system.queueStep action = some after) : after.Sound sha256 := by
  unfold System.queueStep at stepped
  split at stepped
  · cases stepped
  · cases stepped
  · split at stepped
    · obtain ⟨shared, moved, rfl⟩ := Option.map_eq_some_iff.mp stepped
      exact sound.relay moved (by simp) (by simp)
    · cases stepped
  · rename_i unsettled runs _
    obtain ⟨shared, moved, rfl⟩ := Option.map_eq_some_iff.mp stepped
    exact sound.relay moved unsettled runs

theorem Sound.enter (sound : system.Sound sha256) (meets : system.spares (.enter worker) = true)
    (stepped : system.enter worker = some after) : after.Sound sha256 := by
  unfold System.enter at stepped
  split at stepped
  · rename_i index held idle
    have holds : (system.shared.active worker).slot = some index :=
      (sound.wired.holds worker).trans held
    cases asked : (system.shared.slots index).request with
    | none =>
        simp only [asked, Option.some.injEq] at stepped
        subst stepped
        exact sound.with_new idle (by simp [Task.request]) (by simp [Task.digest, Task.request])
          ⟨by simp [Verdict.state], rfl, rfl⟩
    | some request =>
        have alone : ∀ other, other ≠ worker →
            (system.tasks other).digest ≠ some request.digest := by
          intro other different
          have apart := meets
          simp only [spares, held, Option.bind_some, asked, List.all_eq_true,
            List.mem_finRange, true_imp_iff, Bool.or_eq_true, beq_iff_eq, bne_iff_ne] at apart
          exact (apart other).resolve_left different
        have genuine : Genuine sha256 system.cache request.digest := by
          refine sound.genuine _ fun other => ?_
          by_cases same : other = worker
          · simp [same, idle, Task.digest, Task.request]
          · exact alone other same
        have takes : ∀ task : Task, task.request = some request →
            Stage sha256 system.cache task → Sound sha256 (system.setTask worker task) := by
          intro task about stage
          refine sound.with_new idle (fun other same => ?_) (fun digest same => ?_) stage
          · rw [about] at same
            cases same
            exact ⟨index, holds, asked⟩
          · rw [Task.digest, about] at same
            cases same
            exact alone
        simp only [asked] at stepped
        split at stepped
        · cases stepped
          exact takes _ rfl ⟨by simp, .genuine genuine (by simp), rfl⟩
        · cases stepped
          exact takes _ rfl genuine
  · cases stepped

theorem Sound.probe (sound : system.Sound sha256) (meets : system.spares (.probe worker) = true)
    (stepped : system.probe worker = some after) : after.Sound sha256 := by
  unfold System.probe at stepped
  split at stepped
  · rename_i request entered
    have genuine : Genuine sha256 system.cache request.digest := sound.stage entered
    split at stepped
    · rename_i hit
      obtain ⟨shared, reported, rfl⟩ := Option.map_eq_some_iff.mp stepped
      refine (sound.relay reported (by simp) (by simp)).with_task_only entered rfl (fun _ => rfl)
        ⟨fun digest complete => ?_, .genuine genuine (by simp), rfl⟩
      cases complete
      refine ⟨rfl, genuine.valid hit fun expected named content read => ?_⟩
      simp only [spares, entered, hit, Bool.not_true, Bool.false_or, Option.all_eq_true] at meets
      exact beq_iff_eq.mp (meets expected named content read)
    · rename_i missing
      cases stepped
      exact sound.with_task_only entered rfl (fun _ => rfl)
        (by simpa [Stage] using missing)
  · cases stepped

theorem Sound.start {head : Head} (sound : system.Sound sha256)
    (stepped : system.start worker head = some after) : after.Sound sha256 := by
  unfold System.start at stepped
  split at stepped
  · rename_i index request held opening
    have missing : system.cache.isCompleteAt request.digest = false := sound.stage opening
    have frame : ∀ later, Cache.SameElsewhere request.digest system.cache later →
        ∀ digest, (Task.opening request).digest ≠ some digest →
          Disk.SameAt (.artifact digest) system.cache later ∧
            Disk.SameAt (.sidecar digest) system.cache later :=
      fun later elsewhere digest other => entry_of_elsewhere elsewhere fun same =>
        other (same ▸ rfl)
    split at stepped
    · rename_i later error failed
      obtain ⟨elsewhere, incomplete⟩ := Download.start_fails missing failed
      cases stepped
      exact sound.with_task opening rfl (fun _ => rfl)
        (frame later elsewhere) ⟨by simp, .genuine (.of_incomplete incomplete) (by simp), rfl⟩
    · rename_i later download started
      obtain ⟨elsewhere, path, pending, arrived, writing⟩ :=
        Download.start_writing missing started
      split at stepped
      · cases stepped
        refine sound.with_task opening rfl (fun _ => rfl) (frame later elsewhere)
          ⟨by simp, .of_writing path writing fun downloading => ?_, rfl⟩
        simp [pending] at downloading
      · cases stepped
        exact sound.with_task opening rfl (fun _ => rfl) (frame later elsewhere)
          ⟨path, pending, arrived, writing⟩
  · cases stepped

theorem Sound.rehash (sound : system.Sound sha256)
    (stepped : system.rehash worker = some after) : after.Sound sha256 := by
  unfold System.rehash at stepped
  split at stepped
  · rename_i request download opened
    obtain ⟨path, _, arrived, writing⟩ := sound.stage opened
    have read : system.cache.read (.artifact request.digest) = some arrived :=
      path ▸ writing.holds.read
    have whole : download.progress.downloaded = arrived.length :=
      writing.progress.trans writing.total.symm
    have hashes : ∀ hashed, hashed = arrived → Sound sha256 (system.setTask worker
        (.reading request download hashed none)) := by
      rintro hashed rfl
      exact sound.with_task_only opened rfl (fun _ => rfl)
        ⟨path, writing⟩
    split at stepped
    · rename_i nothing
      cases stepped
      exact hashes [] (List.length_eq_zero_iff.mp (whole.symm.trans nothing)).symm
    · rw [hashPrefix_whole read whole] at stepped
      cases stepped
      exact hashes arrived rfl
  · cases stepped

theorem Sound.poll {net : Net} (sound : system.Sound sha256)
    (meets : system.spares (.poll worker net) = true)
    (stepped : system.poll worker net = some after) : after.Sound sha256 := by
  unfold System.poll at stepped
  split at stepped
  · rename_i request download hashed oversize flags reading installed
    obtain ⟨path, writing⟩ := sound.stage reading
    have short : flags.cancel = false → flags.pause = true →
        download.xfer.looksComplete = false := by
      intro runs pauses
      simpa [spares, reading, installed, runs, pauses] using meets
    have left := Download.readChunk_polled flags net writing short
    generalize download.readChunk flags net system.cache = result at stepped left
    obtain ⟨later, polled, chunk⟩ := result
    have moves : ∀ {shared : Shared n} (task : Task), Sound sha256 { system with shared } →
        task.request = some request → Stage sha256 later task →
        Sound sha256 (System.setTask { system with shared, cache := later } worker task) := by
      intro shared task relayed about stage
      refine relayed.with_task reading about (fun _ => rfl) (fun digest other => ?_) stage
      exact entry_of_elsewhere left.elsewhere fun same => other
        (by rw [← same, path]; rfl)
    cases chunk with
    | read bytes =>
        obtain ⟨shared, asked, rfl⟩ := Option.map_eq_some_iff.mp stepped
        have relayed : Sound sha256 { system with shared } := by
          split at asked
          · obtain ⟨reported, first, second⟩ := Option.bind_eq_some_iff.mp asked
            exact (sound.report first).relay second (by simp) (by simp)
          · exact sound.report asked
        exact moves _ relayed rfl ⟨left.path.trans path, left.goesOn bytes rfl⟩
    | idle =>
        obtain ⟨shared, reported, rfl⟩ := Option.map_eq_some_iff.mp stepped
        exact moves _ (sound.report reported) rfl
          ⟨left.path.trans path, left.stops (by simp)⟩
    | failed =>
        obtain ⟨shared, reported, rfl⟩ := Option.map_eq_some_iff.mp stepped
        exact moves _ (sound.report reported) rfl
          ⟨left.path.trans path, left.stops (by simp)⟩
  · cases stepped

theorem Sound.judge (sound : system.Sound sha256)
    (stepped : system.judge sha256 worker = some after) : after.Sound sha256 := by
  unfold System.judge at stepped
  split at stepped
  · rename_i request download hashed oversize judging
    obtain ⟨path, stopped⟩ := sound.stage judging
    have keeps : ∀ verdict : Verdict, Stage sha256 system.cache
        (.settling (some request) verdict (some download) false) →
        Sound sha256 (system.setTask worker
          (.settling (some request) verdict (some download) false)) := fun _ stage =>
      sound.with_task_only judging rfl (fun _ => rfl) stage
    have evicts : ∀ failure, Sound sha256
        ({ system with cache := system.cache.evict request.digest }.setTask worker
          (.settling (some request) (.failed failure) (some download) false)) := fun failure =>
      sound.with_task judging rfl (fun _ => rfl)
        (fun digest other => entry_of_elsewhere (Cache.sameElsewhere_evict _ _) fun same =>
          other (same ▸ rfl))
        ⟨by simp, .of_evict path stopped, rfl⟩
    have ends : ∀ verdict : Verdict, download.status ≠ .complete →
        (∀ digest, verdict ≠ .complete digest) → Sound sha256 (system.setTask worker
          (.settling (some request) verdict (some download) false)) := fun verdict short other =>
      keeps verdict ⟨fun digest same => absurd same (other digest),
        .of_stopped path stopped short, rfl⟩
    cases oversize with
    | some refused =>
        cases stepped
        exact evicts _
    | none =>
        cases status : download.status <;> simp only [status] at stepped
        case complete =>
          split at stepped
          · rename_i passed
            cases stepped
            have read : system.cache.read (.artifact request.digest) = some hashed ∧
                download.progress.downloaded = hashed.length := by
              cases stopped with
              | complete _ read progress => exact ⟨path ▸ read, progress⟩
              | short short => simp [status] at short
            have valid := valid_of_validate read.2 read.1 passed
            refine keeps _
              ⟨fun digest same => ?_, .genuine valid.genuine (by simpa using status), rfl⟩
            cases same
            exact ⟨rfl, valid⟩
          · cases stepped
            exact evicts _
        all_goals
          cases stepped
          exact ends _ (by simp [status]) (by simp)
  · cases stepped

theorem Sound.panic (sound : system.Sound sha256) (meets : system.spares (.panic worker) = true)
    (stepped : system.panic worker = some after) : after.Sound sha256 := by
  unfold System.panic at stepped
  split at stepped
  · rename_i running
    cases stepped
    have unwinds : ∀ {task : Task} {request}, system.tasks worker = task →
        task.request = some request → task.unsettled = true →
        Settled sha256 system.cache request.digest task.download →
        Sound sha256 (system.setTask worker
          (.settling task.request (.failed (some .panicked)) task.download false)) := by
      intro task request at_work about unsettled settled
      refine sound.with_task_only at_work rfl (fun _ => unsettled) ?_
      rw [about]
      exact ⟨by simp, settled, rfl⟩
    simp only [spares, Option.all_eq_true, Bool.and_eq_true, bne_iff_ne, ne_eq,
      Bool.not_eq_true'] at meets
    cases task : system.tasks worker with
    | entered request =>
        exact unwinds task rfl rfl (.genuine (sound.stage task) (by simp [Task.download]))
    | opening request =>
        exact unwinds task rfl rfl
          (.genuine (.of_incomplete (sound.stage task)) (by simp [Task.download]))
    | opened request download =>
        rw [task] at meets
        obtain ⟨path, _, arrived, writing⟩ := sound.stage task
        exact unwinds task rfl rfl (.of_writing path writing fun _ => (meets download rfl).2)
    | reading request download hashed oversize =>
        rw [task] at meets
        obtain ⟨path, writing⟩ := sound.stage task
        exact unwinds task rfl rfl (.of_writing path writing fun _ => (meets download rfl).2)
    | judging request download hashed oversize =>
        rw [task] at meets
        obtain ⟨path, stopped⟩ := sound.stage task
        exact unwinds task rfl rfl (.of_stopped path stopped (meets download rfl).1)
    | _ => simp [task, Task.running] at running
  · cases stepped

theorem Sound.drop (sound : system.Sound sha256) (stepped : system.drop worker = some after) :
    after.Sound sha256 := by
  unfold System.drop at stepped
  split at stepped
  · rename_i request left evicts dropping
    cases stepped
    cases request with
    | none =>
        obtain ⟨rfl, rfl⟩ := sound.stage dropping
        exact sound.with_idle dropping (fun _ _ => ⟨.refl _ _, .refl _ _⟩)
          (fun _ here => by cases here)
    | some request =>
        obtain ⟨settled, rfl⟩ := sound.stage dropping
        obtain ⟨genuine, elsewhere⟩ := settled.dropped
        refine sound.with_idle dropping (fun digest other => ?_) (fun digest here => ?_)
        · exact entry_of_elsewhere elsewhere fun same => other (same ▸ rfl)
        · cases here
          exact genuine
  · cases stepped

theorem Sound.settle (sound : system.Sound sha256) (stepped : system.settle worker = some after) :
    after.Sound sha256 := by
  unfold System.settle at stepped
  split at stepped
  · rename_i request verdict left evicts settling
    obtain ⟨shared, settled, rfl⟩ := Option.map_eq_some_iff.mp stepped
    have stage : Stage sha256 system.cache (.dropping request left evicts) := by
      have before := sound.stage settling
      cases request with
      | none => exact before.2
      | some request => exact before.2
    have dropping : Sound sha256 (system.setTask worker (.dropping request left evicts)) :=
      sound.with_task_only settling rfl (by simp [Task.unsettled]) stage
    refine dropping.with_shared (Shared.wired_step settled sound.wired)
      fun other id unsettled held => Shared.claim_kept sound.wired settled ?_ (by simp) held
    rintro _ same
    cases same
    simp [setTask, Task.unsettled] at unsettled
  · cases stepped

theorem sound_step {action : Step n} (meets : system.spares action = true)
    (stepped : system.step sha256 action = some after) (sound : system.Sound sha256) :
    after.Sound sha256 := by
  cases action with
  | shared action => exact sound.queueStep stepped
  | enter worker => exact sound.enter meets stepped
  | probe worker => exact sound.probe meets stepped
  | start worker head => exact sound.start stepped
  | rehash worker => exact sound.rehash stepped
  | poll worker net => exact sound.poll meets stepped
  | judge worker => exact sound.judge stepped
  | panic worker => exact sound.panic meets stepped
  | settle worker => exact sound.settle stepped
  | drop worker => exact sound.drop stepped

/-! ## What a slot that settles complete publishes -/

/-- The slot publishes an entry that is what its request asked for. -/
def Validated (sha256 : Bytes → ArtifactDigest) (cache : Cache) (slot : Slot) : Prop :=
  ∃ request, slot.request = some request ∧ slot.path = some (Cache.pathFor request.digest) ∧
    Valid sha256 cache request

/-- Whenever a slot settles complete, the file at its published path is what its request
asked for. -/
def CompleteIsValidated (sha256 : Bytes → ArtifactDigest) (n : Nat)
    (guard : System n → Step n → Prop) : Prop :=
  ∀ (system after : System n) (worker : Fin n) (id : EntryId),
    Moves (step sha256) guard (fresh n) system → system.settle worker = some after →
    system.held worker = some id → (after.shared.slots id).state = .complete →
    Validated sha256 after.cache (after.shared.slots id)

theorem Sound.settles {id : EntryId} (sound : system.Sound sha256)
    (stepped : system.settle worker = some after) (held : system.held worker = some id)
    (complete : (after.shared.slots id).state = .complete) :
    Validated sha256 after.cache (after.shared.slots id) := by
  unfold System.settle at stepped
  split at stepped
  · rename_i request verdict left evicts settling
    obtain ⟨shared, settled, rfl⟩ := Option.map_eq_some_iff.mp stepped
    have finished : shared.slots id = (system.shared.slots id).settle verdict.digest verdict.state
        verdict.failure := by
      simp only [Shared.step, Option.bind_eq_some_iff] at settled
      obtain ⟨index, thread, finished⟩ := settled
      rw [show (system.shared.threads worker).index = some id from held] at thread
      cases thread
      split at finished
      · cases finished
      · cases finished
        simp [Shared.finish]
    have complete : (shared.slots id).state = .complete := complete
    rw [finished] at complete
    obtain ⟨digest, rfl, path⟩ := Slot.settle_complete complete
    have stage := sound.stage settling
    cases request with
    | none => exact absurd rfl stage.1
    | some request =>
        obtain ⟨same, valid⟩ := stage.1 digest rfl
        obtain ⟨index, holds, asked⟩ := sound.claims worker request
          (by simp [settling, Task.unsettled]) (by simp [settling, Task.request])
        rw [sound.wired.holds, show (system.shared.threads worker).index = some id from held] at holds
        cases holds
        refine ⟨request, ?_, ?_, valid⟩
        · rw [← asked, ← Slot.request_settle (system.shared.slots id)]
          exact congrArg Slot.request finished
        · rw [← same]
          exact (congrArg Slot.path finished).trans path
  · cases stepped

/-- **Complete implies validated.** In every run whose steps meet the guard, what a slot that
settles complete publishes is not empty, hashes to the digest its request named, and has
the length its request named. -/
theorem complete_implies_validated (sha256 : Bytes → ArtifactDigest) (n : Nat) :
    CompleteIsValidated sha256 n fun system action => system.spares action = true := by
  intro system after worker id run stepped held complete
  have sound : system.Sound sha256 :=
    Moves.invariant _ (fun _ _ _ meets stepped => sound_step meets stepped) run sound_fresh
  exact sound.settles stepped held complete

/-! ## A run that completes, and one whose pause comes too late -/

/-- An artifact of three bytes, under this digest. -/
def tripleRequest (digest : ArtifactDigest) : Request := ⟨['u'], digest, some 3, .user⟩

/-- A worker looks for work and takes the entry. -/
def takes : List (Step 1) :=
  [.shared (.look 0), .shared (.claim 0 fun _ => true), .enter 0, .probe 0]

/-- The first worker starts on an artifact, and its three bytes arrive. -/
def arriving (digest : ArtifactDigest) : List (Step 1) :=
  [.shared (.queue (tripleRequest digest) 0 fun _ => true), .shared (.hookReturns 0)] ++ takes ++
    [.start 0 { length := some 3 }, .shared (.install 0), .rehash 0,
      .poll 0 { response := some { status := 200 }, body := .bytes [1, 2, 3] }]

/-- The body ends, and is validated. -/
def ending : List (Step 1) := [.poll 0 {}, .judge 0]

/-- The transfer is paused once its three bytes have arrived, and resumed. -/
def interrupted : List (Step 1) :=
  [.shared (.pause 0), .poll 0 {}, .judge 0, .settle 0, .drop 0,
    .shared (.resume 0 fun _ => true)] ++ takes

theorem complete_implies_validated_triple : ∃ (cache : Cache) (slot : Slot),
    slot.state = .complete ∧ Validated ArtifactDigest.leading cache slot := by
  obtain ⟨system, run, settles⟩ := Moves.of_check (step ArtifactDigest.leading)
    (fun system action => system.spares action = true) (fresh 1)
    (arriving (ArtifactDigest.leading [1, 2, 3]) ++ ending)
    (fun system => system.held 0 == some 0 &&
      (system.settle 0).any fun after => (after.shared.slots 0).state == .complete)
    (by decide +kernel)
  simp only [Bool.and_eq_true, beq_iff_eq, Option.any_eq_true] at settles
  obtain ⟨held, after, stepped, complete⟩ := settles
  exact ⟨after.cache, after.shared.slots 0, complete,
    complete_implies_validated ArtifactDigest.leading 1 system after 0 0 run stepped held complete⟩

/-- A step that validates no transfer. -/
def judgesNothing (system : System n) : Step n → Bool
  | .judge worker =>
      match system.tasks worker with
      | .judging _ download _ _ => download.status != .complete
      | _ => true
  | _ => true

/-- SHA-256 has no part in a step that validates no transfer. -/
theorem step_of_judgesNothing (other : Bytes → ArtifactDigest) {action : Step n}
    (nothing : system.judgesNothing action = true) :
    system.step other action = system.step sha256 action := by
  cases action with
  | judge worker =>
      simp only [judgesNothing] at nothing
      simp only [step, System.judge]
      split
      · rename_i request download hashed oversize judging
        simp only [judging, bne_iff_ne, ne_eq] at nothing
        cases oversize with
        | some refused => rfl
        | none => cases status : download.status <;> simp_all
      · rfl
  | _ => rfl

/-- **A paused body is served unvalidated.** A pause that lands once every declared byte has
arrived leaves a sidecar that says so, and the resumed entry is complete as it stands,
whatever its digest is. No digest function helps: of two digests, these bytes have at most
one. -/
theorem a_paused_body_is_served_unvalidated :
    ¬∃ sha256, ∀ n, 0 < n → CompleteIsValidated sha256 n unguarded := by
  rintro ⟨sha256, claimed⟩
  have served : ∀ byte ∈ [(0 : UInt8), 1], sha256 [1, 2, 3] = ⟨Vector.replicate 32 byte⟩ := by
    intro byte either
    have ran : ∀ byte ∈ [(0 : UInt8), 1], (script (step ArtifactDigest.leading)
        (fun system action => system.judgesNothing action = true) (fresh 1)
        (arriving ⟨Vector.replicate 32 byte⟩ ++ interrupted)).any (fun system =>
          system.held 0 == some 0 && (system.settle 0).any fun after =>
            (after.shared.slots 0).state == .complete &&
              (after.shared.slots 0).path == some (.artifact ⟨Vector.replicate 32 byte⟩) &&
                after.cache.read (.artifact ⟨Vector.replicate 32 byte⟩) ==
                  some [1, 2, 3]) = true := by
      decide +kernel
    obtain ⟨system, run, settles⟩ := Moves.of_check _ _ _ _ _ (ran byte either)
    simp only [Bool.and_eq_true, beq_iff_eq, Option.any_eq_true] at settles
    obtain ⟨held, after, stepped, ⟨complete, path⟩, read⟩ := settles
    have moves : Moves (step sha256) unguarded (fresh 1) system :=
      (run.congr fun _ _ nothing => step_of_judgesNothing sha256 nothing).mono
        fun _ _ _ => trivial
    obtain ⟨request, _, published, content, holds, _, hash, _⟩ :=
      claimed 1 (by decide) system after 0 0 moves stepped held complete
    rw [path, Cache.pathFor, Option.some.injEq, CacheName.artifact.injEq] at published
    rw [← published, read] at holds
    cases holds
    exact hash.trans published.symm
  have same := (served 0 (by simp)).symm.trans (served 1 (by simp))
  exact absurd same (by decide)

end System

end Retrovert.Queue
