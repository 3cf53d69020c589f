import Retrovert.Queue.Completing

/-!
# What the hasher of a transfer is fed

A transfer feeds its hasher what it finds on disk when it resumes, and then every chunk it
reads. It takes how much there is on disk from its progress, and the progress of a transfer
that is served from a complete entry is the whole entry. That one is fed the entry first, and
then again as it is read, so that it is refused and evicted
(`a_complete_entry_is_hashed_twice`).

The others are fed what is on disk, and nothing else (`the_file_is_hashed_once`). A transfer
is followed from its start, through any steps of others that leave the file of its entry
alone.
-/

set_option autoImplicit false

namespace Retrovert.Queue

open Retrovert.Runs Retrovert.Transport

/-! ## A transfer that is being fetched -/

/-- A transfer that has more to fetch. The file of its entry holds what has arrived. -/
structure Fetching (cache : Cache) (download : Download) (arrived : Bytes) : Prop where
  running : download.status = .pending ∨ download.status = .downloading
  fetched : download.xfer.isCached = false
  holds : Download.Holds cache download.xfer arrived
  total : arrived.length = download.xfer.total
  progress : download.progressBytes = download.xfer.total
  started : download.xfer.started = true →
    download.status = .downloading ∧ download.xfer.reader = true

/-- A refusal names a length that what was hashed has run past. -/
def Overrun (request : SlotRequest) (hashed : Bytes) (oversize : Option Failure) : Prop :=
  ∀ refused ∈ oversize, ∃ expected ∈ request.expectedSize, expected < hashed.length

/-- The hasher was fed the file on disk, whole and once. -/
structure Covered (cache : Cache) (request : SlotRequest) (download : Download) (hashed : Bytes)
    (oversize : Option Failure) : Prop where
  read : cache.read (.artifact request.digest) = some hashed
  counted : download.progressBytes = hashed.length
  overrun : Overrun request hashed oversize

section Transfers

variable {cache later : Cache} {download polled : Download} {request : SlotRequest}
  {arrived hashed : Bytes} {chunk : Chunk} {oversize : Option Failure}

theorem Fetching.of_writing (writing : download.Writing cache arrived) :
    Fetching cache download arrived := { writing with }

theorem Fetching.congr (fetching : Fetching cache download arrived)
    (same : Disk.SameAt (.artifact download.xfer.path) cache later) :
    Fetching later download arrived :=
  { fetching with holds := fetching.holds.congr same }

theorem Covered.congr (covered : Covered cache request download hashed oversize)
    (same : Disk.SameAt (.artifact request.digest) cache later) :
    Covered later request download hashed oversize :=
  { covered with read := same.read.trans covered.read }

theorem Fetching.length (fetching : Fetching cache download arrived) :
    arrived.length = download.progress.downloaded :=
  fetching.total.trans fetching.progress.symm

/-- What there is on disk of a transfer is what it feeds its hasher first. -/
theorem Fetching.hashPrefix (fetching : Fetching cache download arrived) :
    hashPrefix cache download.xfer.path download.progress.downloaded = some arrived :=
  hashPrefix_whole fetching.holds.read fetching.length.symm

/-- A poll adds to the file what it reads. It reads nothing when it completes the transfer. -/
theorem Fetching.poll (fetching : Fetching cache download arrived) (flags : Flags) (net : Net)
    (out : download.readChunk flags net cache = (later, polled, chunk)) :
    polled.xfer.path = download.xfer.path ∧
      (∀ bytes, chunk = .read bytes → Fetching later polled (arrived ++ bytes)) ∧
      (polled.status = .complete → later.read (.artifact download.xfer.path) = some arrived ∧
        polled.progressBytes = arrived.length) := by
  have advances : Download.Advances flags net cache download later polled chunk := by
    have polls := Download.readChunk_advances flags net cache fetching.running fetching.fetched
      fetching.started
    rwa [out] at polls
  cases advances with
  | discarded ends | failed ends | torn bytes fails ends =>
      refine ⟨ends.path, by simp, fun complete => ?_⟩
      exact absurd ends.status (by simp [complete])
  | paused goes asked => exact ⟨rfl, by simp, by simp⟩
  | finished etag accepts last =>
      refine ⟨rfl, by simp, fun _ => ⟨?_, fetching.total.symm⟩⟩
      exact (Disk.read_write_of_ne _ (by simp) _).trans fetching.holds.read
  | wrote etag accepts arrives more =>
      refine ⟨rfl, fun bytes same => ?_, by simp [Download.wrote, Download.answered]⟩
      cases same
      exact {
        running := .inr rfl
        fetched := fetching.fetched
        holds := fetching.holds.append fetching.total _
        total := by rw [List.length_append, fetching.total, Download.total_wrote]
        progress := rfl
        started := fun _ => ⟨rfl, rfl⟩ }

/-- The refusal of a chunk names a length that is overrun. -/
theorem Overrun.read (overrun : Overrun request hashed oversize) (bytes : Bytes) :
    Overrun request (hashed ++ bytes)
      (oversize.or (System.oversizeOf request (hashed ++ bytes).length)) := by
  intro refused found
  cases oversize with
  | some earlier =>
      obtain ⟨expected, named, short⟩ := overrun earlier rfl
      refine ⟨expected, named, ?_⟩
      rw [List.length_append]
      omega
  | none =>
      rw [Option.none_or, System.oversizeOf, Option.mem_def, Option.bind_eq_some_iff] at found
      obtain ⟨expected, named, exceeded⟩ := found
      refine ⟨expected, named, ?_⟩
      split at exceeded
      · assumption
      · cases exceeded

/-! ## A transfer that is served from a complete entry -/

/-- A complete entry that is open, and has not been read from yet. -/
structure Unread (cache : Cache) (download : Download) (digest : ArtifactDigest)
    (content : Bytes) : Prop where
  cached : download.xfer.isCached = true
  complete : download.status = .complete
  progress : download.progressBytes = content.length
  handle : ∃ file, download.xfer.cachedFile = some ⟨file, 0⟩ ∧
    cache.names (.artifact digest) = some file
  read : cache.read (.artifact digest) = some content

theorem Unread.congr {digest : ArtifactDigest} {content : Bytes}
    (unread : Unread cache download digest content)
    (same : Disk.SameAt (.artifact digest) cache later) : Unread later download digest content :=
  { unread with
    handle := by
      obtain ⟨file, opened, names⟩ := unread.handle
      exact ⟨file, opened, same.names.trans names⟩
    read := same.read.trans unread.read }

/-- The first poll of an open entry reads from its start, unless reading fails. -/
theorem Unread.poll {digest : ArtifactDigest} {content : Bytes}
    (unread : Unread cache download digest content) (full : content ≠ []) (flags : Flags)
    (net : Net) (out : download.readChunk flags net cache = (later, polled, chunk)) :
    later = cache ∧ polled.xfer.isCached = true ∧ polled.progressBytes = download.progressBytes ∧
      ((net.body = .error ∧ chunk = .idle) ∨
        ∃ bytes, net.body ≠ .error ∧ chunk = .read bytes ∧ bytes ≠ []) := by
  obtain ⟨file, opened, names⟩ := unread.handle
  have held : cache.contents file = content :=
    Option.some.inj ((Disk.read_eq names).symm.trans unread.read)
  have first : content.take chunkSize ≠ [] := by
    rw [Ne, List.take_eq_nil_iff, not_or]
    exact ⟨by decide, full⟩
  rw [Download.readChunk, if_pos unread.cached] at out
  simp only [Download.readCached, opened, held, List.drop_zero, if_neg first] at out
  cases body : net.body with
  | error =>
      rw [body] at out
      cases out
      exact ⟨rfl, unread.cached, rfl, .inl ⟨rfl, rfl⟩⟩
  | bytes bytes =>
      rw [body] at out
      cases out
      exact ⟨rfl, unread.cached, rfl, .inr ⟨_, by simp, rfl, first⟩⟩

/-- Serving an entry from disk leaves the cache as it is. -/
theorem served_keeps (cached : download.xfer.isCached = true) (flags : Flags) (net : Net)
    (out : download.readChunk flags net cache = (later, polled, chunk)) :
    later = cache ∧ polled.xfer.isCached = true := by
  rw [Download.readChunk, if_pos cached] at out
  cases out
  exact ⟨rfl, (Download.readCached_keeps net cache download).2.2.trans cached⟩

end Transfers

/-! ## The task of a worker during a transfer -/

/-- A transfer is under way. -/
def Task.transferring : Task → Bool
  | .opened _ _ | .reading _ _ _ _ | .judging _ _ _ _ => true
  | _ => false

/-- Where a transfer stands that is fetched. -/
def Fetched (cache : Cache) (request : SlotRequest) : Task → Prop
  | .opened asked download => asked = request ∧ download.xfer.path = request.digest ∧
      ∃ arrived, Fetching cache download arrived
  | .reading asked download hashed oversize => asked = request ∧
      download.xfer.path = request.digest ∧ Fetching cache download hashed ∧
        Overrun request hashed oversize
  | .judging asked download hashed oversize => asked = request ∧
      (download.status = .complete → Covered cache request download hashed oversize)
  | _ => True

/-- Where a transfer stands that is served from a complete entry, and what its first poll
was told. -/
def Served (cache : Cache) (request : SlotRequest) (content : Bytes) (first : Option Net) :
    Task → Prop
  | .opened asked download => asked = request ∧ first = none ∧
      Unread cache download request.digest content
  | .reading asked download hashed oversize => asked = request ∧
      cache.read (.artifact request.digest) = some content ∧ download.xfer.isCached = true ∧
        ((first = none ∧ hashed = content ∧ oversize = none ∧
            Unread cache download request.digest content) ∨
          ∃ net, first = some net ∧ net.body ≠ .error ∧ content.length < hashed.length)
  | .judging asked download hashed oversize => asked = request ∧
      cache.read (.artifact request.digest) = some content ∧
        ((∃ net, first = some net ∧ net.body = .error ∧
            Covered cache request download hashed oversize) ∨
          ∃ net, first = some net ∧ net.body ≠ .error ∧ content.length < hashed.length)
  | _ => True

section Tasks

variable {cache later : Cache} {request : SlotRequest} {task : Task}

theorem Fetched.of_not_transferring (other : task.transferring = false) :
    Fetched cache request task := by
  cases task with
  | opened | reading | judging => cases other
  | _ => trivial

theorem Fetched.congr (fetched : Fetched cache request task)
    (same : Disk.SameAt (.artifact request.digest) cache later) : Fetched later request task := by
  cases task with
  | opened asked download =>
      obtain ⟨asks, path, arrived, fetching⟩ := fetched
      exact ⟨asks, path, arrived, fetching.congr (path ▸ same)⟩
  | reading asked download hashed oversize =>
      obtain ⟨asks, path, fetching, overrun⟩ := fetched
      exact ⟨asks, path, fetching.congr (path ▸ same), overrun⟩
  | judging asked download hashed oversize =>
      exact ⟨fetched.1, fun complete => (fetched.2 complete).congr same⟩
  | _ => trivial

variable {content : Bytes} {first : Option Net}

theorem Served.of_not_transferring (other : task.transferring = false) :
    Served cache request content first task := by
  cases task with
  | opened | reading | judging => cases other
  | _ => trivial

theorem Served.congr (served : Served cache request content first task)
    (same : Disk.SameAt (.artifact request.digest) cache later) :
    Served later request content first task := by
  cases task with
  | opened asked download => exact ⟨served.1, served.2.1, served.2.2.congr same⟩
  | reading asked download hashed oversize =>
      obtain ⟨asks, read, cached, which⟩ := served
      refine ⟨asks, same.read.trans read, cached, which.imp_left ?_⟩
      rintro ⟨none, fed, kept, unread⟩
      exact ⟨none, fed, kept, unread.congr same⟩
  | judging asked download hashed oversize =>
      obtain ⟨asks, read, which⟩ := served
      refine ⟨asks, same.read.trans read, which.imp_left ?_⟩
      rintro ⟨net, told, fails, covered⟩
      exact ⟨net, told, fails, covered.congr same⟩
  | _ => trivial

end Tasks

/-! ## Steps -/

/-- The worker that takes a step. -/
def Step.worker {n : Nat} : Step n → Option (Fin n)
  | .shared _ => none
  | .enter worker | .probe worker | .start worker _ | .rehash worker | .poll worker _
  | .judge worker | .panic worker | .settle worker | .drop worker => some worker

/-- What a poll of the worker's is told. -/
def Step.told {n : Nat} (worker : Fin n) : Step n → Option Net
  | .poll other net => if other = worker then some net else none
  | _ => none

/-- What the first poll of the worker's is told. -/
def firstPoll {n : Nat} (worker : Fin n) (actions : List (Step n)) : Option Net :=
  actions.findSome? (Step.told worker)

namespace System

variable {n : Nat} (sha256 : Bytes → ArtifactDigest) {system after : System n} {worker : Fin n}

/-- The worker starts no other transfer, and nobody else changes the file of the entry. -/
def Undisturbed (worker : Fin n) (digest : ArtifactDigest) (system : System n)
    (action : Step n) : Prop :=
  (∀ head, action ≠ .start worker head) ∧
    (action.worker ≠ some worker → ∀ after, system.step sha256 action = some after →
      Disk.SameAt (.artifact digest) system.cache after.cache)

variable {sha256}

/-- A step of a worker's replaces its task. The task is in a transfer because the worker was
before, or has started one. -/
theorem task_of_own {action : Step n} (own : action.worker = some worker)
    (stepped : system.step sha256 action = some after) :
    ∃ task, after.tasks = Function.update system.tasks worker task ∧
      (task.transferring = true → (∃ head, action = .start worker head) ∨
        action = .rehash worker ∨ ∃ net, action = .poll worker net) := by
  cases action with
  | shared action => cases own
  | start other head =>
      cases own
      simp only [step, start] at stepped
      split at stepped
      · split at stepped
        · cases stepped
          exact ⟨_, rfl, fun _ => .inl ⟨head, rfl⟩⟩
        · split at stepped
          · cases stepped
            exact ⟨_, rfl, fun _ => .inl ⟨head, rfl⟩⟩
          · cases stepped
            exact ⟨_, rfl, fun _ => .inl ⟨head, rfl⟩⟩
      · cases stepped
  | rehash other =>
      cases own
      simp only [step, rehash] at stepped
      split at stepped
      · split at stepped
        · cases stepped
          exact ⟨_, rfl, fun _ => .inr (.inl rfl)⟩
        · split at stepped
          · cases stepped
            exact ⟨_, rfl, fun _ => .inr (.inl rfl)⟩
          · cases stepped
            exact ⟨_, rfl, fun _ => .inr (.inl rfl)⟩
      · cases stepped
  | poll other net =>
      cases own
      simp only [step, poll] at stepped
      split at stepped
      · split at stepped
        · obtain ⟨shared, -, rfl⟩ := Option.map_eq_some_iff.mp stepped
          exact ⟨_, rfl, fun _ => .inr (.inr ⟨net, rfl⟩)⟩
        · obtain ⟨shared, -, rfl⟩ := Option.map_eq_some_iff.mp stepped
          exact ⟨_, rfl, fun _ => .inr (.inr ⟨net, rfl⟩)⟩
      · cases stepped
  | enter other =>
      cases own
      simp only [step, enter] at stepped
      split at stepped
      · split at stepped
        · cases stepped
          exact ⟨_, rfl, fun transfers => by cases transfers⟩
        · split at stepped
          · cases stepped
            exact ⟨_, rfl, fun transfers => by cases transfers⟩
          · cases stepped
            exact ⟨_, rfl, fun transfers => by cases transfers⟩
      · cases stepped
  | probe other =>
      cases own
      simp only [step, probe] at stepped
      split at stepped
      · split at stepped
        · obtain ⟨shared, -, rfl⟩ := Option.map_eq_some_iff.mp stepped
          exact ⟨_, rfl, fun transfers => by cases transfers⟩
        · cases stepped
          exact ⟨_, rfl, fun transfers => by cases transfers⟩
      · cases stepped
  | judge other =>
      cases own
      simp only [step, judge] at stepped
      split at stepped
      · split at stepped
        · cases stepped
          exact ⟨_, rfl, fun transfers => by cases transfers⟩
        · split at stepped
          · split at stepped
            · cases stepped
              exact ⟨_, rfl, fun transfers => by cases transfers⟩
            · cases stepped
              exact ⟨_, rfl, fun transfers => by cases transfers⟩
          all_goals
            cases stepped
            exact ⟨_, rfl, fun transfers => by cases transfers⟩
      · cases stepped
  | panic other =>
      cases own
      simp only [step, panic] at stepped
      split at stepped
      · cases stepped
        exact ⟨_, rfl, fun transfers => by cases transfers⟩
      · cases stepped
  | settle other =>
      cases own
      simp only [step, settle] at stepped
      split at stepped
      · obtain ⟨shared, -, rfl⟩ := Option.map_eq_some_iff.mp stepped
        exact ⟨_, rfl, fun transfers => by cases transfers⟩
      · cases stepped
  | drop other =>
      cases own
      simp only [step, drop] at stepped
      split at stepped
      · cases stepped
        exact ⟨_, rfl, fun transfers => by cases transfers⟩
      · cases stepped

/-- A step of the queue's leaves the tasks and the cache as they are. -/
theorem queueStep_keeps {action : Action n} (stepped : system.queueStep action = some after) :
    after.tasks = system.tasks ∧ after.cache = system.cache := by
  have keeps : ∀ {after : System n}, ((system.shared.step action).map fun shared =>
      { system with shared }) = some after →
      after.tasks = system.tasks ∧ after.cache = system.cache := by
    intro after stepped
    obtain ⟨shared, -, rfl⟩ := Option.map_eq_some_iff.mp stepped
    exact ⟨rfl, rfl⟩
  simp only [queueStep] at stepped
  split at stepped
  · cases stepped
  · cases stepped
  · split at stepped
    · exact keeps stepped
    · cases stepped
  · exact keeps stepped

/-- A step of somebody else leaves the worker's task as it is. -/
theorem task_of_other {action : Step n} (other : action.worker ≠ some worker)
    (stepped : system.step sha256 action = some after) :
    after.tasks worker = system.tasks worker := by
  cases acts : action.worker with
  | none =>
      cases action with
      | shared action => rw [(queueStep_keeps stepped).1]
      | _ => cases acts
  | some actor =>
      obtain ⟨task, tasks, -⟩ := task_of_own acts stepped
      have different : worker ≠ actor := by
        rintro rfl
        exact other acts
      rw [tasks, Function.update_of_ne different]

/-- A poll reports what it came to, and goes on or stops by what it read. -/
theorem poll_eq_some {net : Net} (stepped : system.poll worker net = some after) :
    ∃ request download hashed oversize flags later polled chunk,
      system.tasks worker = .reading request download hashed oversize ∧
      download.readChunk flags net system.cache = (later, polled, chunk) ∧ after.cache = later ∧
      ((∃ bytes, chunk = .read bytes ∧ after.tasks worker = .reading request polled
          (hashed ++ bytes) (oversize.or (oversizeOf request polled.progress.downloaded))) ∨
        (∀ bytes, chunk ≠ .read bytes) ∧
          after.tasks worker = .judging request polled hashed oversize) := by
  simp only [poll] at stepped
  split at stepped
  · rename_i request download hashed oversize flags reading installed
    generalize polls : download.readChunk flags net system.cache = out at stepped
    obtain ⟨later, polled, chunk⟩ := out
    refine ⟨request, download, hashed, oversize, flags, later, polled, chunk, reading, polls, ?_⟩
    cases chunk with
    | read bytes =>
        obtain ⟨shared, -, rfl⟩ := Option.map_eq_some_iff.mp stepped
        exact ⟨rfl, .inl ⟨bytes, rfl, by simp [setTask]⟩⟩
    | idle | failed =>
        obtain ⟨shared, -, rfl⟩ := Option.map_eq_some_iff.mp stepped
        exact ⟨rfl, .inr ⟨by simp, by simp [setTask]⟩⟩
  · cases stepped

/-- What is there of a transfer is hashed first, if there is anything. -/
theorem rehash_eq_some (stepped : system.rehash worker = some after) :
    ∃ request download, system.tasks worker = .opened request download ∧
      after.cache = system.cache ∧
      ((download.progress.downloaded = 0 ∧
          after.tasks worker = .reading request download [] none) ∨
        (download.progress.downloaded ≠ 0 ∧ ∀ hashed,
          hashPrefix system.cache request.digest download.progress.downloaded = some hashed →
            after.tasks worker = .reading request download hashed none) ∨
        (after.tasks worker).transferring = false) := by
  simp only [rehash] at stepped
  split at stepped
  · rename_i request download opened
    refine ⟨request, download, opened, ?_⟩
    split at stepped
    · rename_i nothing
      cases stepped
      exact ⟨rfl, .inl ⟨nothing, by simp [setTask]⟩⟩
    · rename_i something
      split at stepped
      · cases stepped
        exact ⟨rfl, .inr (.inr (by simp [setTask, Task.transferring]))⟩
      · rename_i found
        cases stepped
        refine ⟨rfl, .inr (.inl ⟨something, fun hashed same => ?_⟩)⟩
        rw [found] at same
        cases same
        simp [setTask]
  · cases stepped

/-- In an undisturbed run somebody else takes a step, or the transfer is over, or it goes on. -/
theorem undisturbed_cases {digest : ArtifactDigest} {action : Step n}
    (meets : Undisturbed sha256 worker digest system action)
    (stepped : system.step sha256 action = some after) :
    (action.worker ≠ some worker ∧ after.tasks worker = system.tasks worker ∧
        Disk.SameAt (.artifact digest) system.cache after.cache) ∨
      (after.tasks worker).transferring = false ∨
        action = .rehash worker ∨ ∃ net, action = .poll worker net := by
  by_cases own : action.worker = some worker
  · obtain ⟨task, tasks, moves⟩ := task_of_own own stepped
    rw [tasks, Function.update_self]
    cases transferring : task.transferring with
    | false => exact .inr (.inl rfl)
    | true =>
        obtain ⟨head, starts⟩ | goesOn := moves transferring
        · exact absurd starts (meets.1 head)
        · exact .inr (.inr goesOn)
  · exact .inl ⟨own, task_of_other own stepped, meets.2 own after stepped⟩

section Fetched

variable {request : SlotRequest}

theorem fetched_rehash (fetched : Fetched system.cache request (system.tasks worker))
    (stepped : system.rehash worker = some after) :
    Fetched after.cache request (after.tasks worker) := by
  obtain ⟨asked, download, opened, cache, which⟩ := rehash_eq_some stepped
  rw [opened] at fetched
  obtain ⟨rfl, path, arrived, fetching⟩ := fetched
  rw [cache]
  obtain ⟨nothing, reading⟩ | ⟨something, reading⟩ | left := which
  · have none : arrived = [] := by
      rw [← List.length_eq_zero_iff, fetching.length, nothing]
    rw [reading]
    exact ⟨rfl, path, none ▸ fetching, nofun⟩
  · rw [reading arrived (path ▸ fetching.hashPrefix)]
    exact ⟨rfl, path, fetching, nofun⟩
  · exact .of_not_transferring left

theorem fetched_poll {net : Net} (fetched : Fetched system.cache request (system.tasks worker))
    (stepped : system.poll worker net = some after) :
    Fetched after.cache request (after.tasks worker) := by
  obtain ⟨asked, download, hashed, oversize, flags, later, polled, chunk, reading, out, rfl,
    which⟩ := poll_eq_some stepped
  rw [reading] at fetched
  obtain ⟨rfl, path, fetching, overrun⟩ := fetched
  obtain ⟨same, goesOn, completes⟩ := fetching.poll flags net out
  obtain ⟨bytes, rfl, goes⟩ | ⟨-, stops⟩ := which
  · have fetching := goesOn bytes rfl
    rw [goes, ← fetching.length]
    exact ⟨rfl, same.trans path, fetching, overrun.read bytes⟩
  · rw [stops]
    refine ⟨rfl, fun complete => ?_⟩
    obtain ⟨read, counted⟩ := completes complete
    exact ⟨path ▸ read, counted, overrun⟩

/-- **One step of an undisturbed run keeps a transfer that is fetched in step with its file.** -/
theorem fetched_step {action : Step n}
    (meets : Undisturbed sha256 worker request.digest system action)
    (stepped : system.step sha256 action = some after)
    (fetched : Fetched system.cache request (system.tasks worker)) :
    Fetched after.cache request (after.tasks worker) := by
  obtain ⟨-, task, same⟩ | ended | rfl | ⟨net, rfl⟩ := undisturbed_cases meets stepped
  · rw [task]
    exact fetched.congr same
  · exact .of_not_transferring ended
  · exact fetched_rehash fetched stepped
  · exact fetched_poll fetched stepped

end Fetched

theorem firstPoll_append (actions : List (Step n)) (action : Step n) :
    firstPoll worker (actions ++ [action]) = (firstPoll worker actions).or (action.told worker) := by
  rw [firstPoll, List.findSome?_append, List.findSome?_singleton]
  rfl

theorem told_of_other {action : Step n} (other : action.worker ≠ some worker) :
    action.told worker = none := by
  cases action with
  | poll actor net => exact if_neg fun same => other (congrArg some same)
  | _ => rfl

section Served

variable {request : SlotRequest} {content : Bytes} {first : Option Net}

theorem served_rehash (full : content ≠ [])
    (served : Served system.cache request content first (system.tasks worker))
    (stepped : system.rehash worker = some after) :
    Served after.cache request content first (after.tasks worker) := by
  obtain ⟨asked, download, opened, cache, which⟩ := rehash_eq_some stepped
  rw [opened] at served
  obtain ⟨rfl, untold, unread⟩ := served
  have whole : download.progress.downloaded = content.length := unread.progress
  rw [cache]
  obtain ⟨nothing, -⟩ | ⟨something, reading⟩ | left := which
  · rw [whole, List.length_eq_zero_iff] at nothing
    exact absurd nothing full
  · rw [reading content (hashPrefix_whole unread.read whole)]
    exact ⟨rfl, unread.read, unread.cached, .inl ⟨untold, rfl, rfl, unread⟩⟩
  · exact .of_not_transferring left

theorem served_poll {net : Net} (full : content ≠ [])
    (served : Served system.cache request content first (system.tasks worker))
    (stepped : system.poll worker net = some after) :
    Served after.cache request content (first.or (some net)) (after.tasks worker) := by
  obtain ⟨asked, download, hashed, oversize, flags, later, polled, chunk, reading, out, rfl,
    which⟩ := poll_eq_some stepped
  rw [reading] at served
  obtain ⟨rfl, read, cached, ⟨rfl, rfl, rfl, unread⟩ | ⟨earlier, rfl, reads, longer⟩⟩ := served
  · obtain ⟨same, cached, progress, answer⟩ := unread.poll full flags net out
    rw [same, Option.none_or]
    obtain ⟨fails, rfl⟩ | ⟨bytes, reads, rfl, more⟩ := answer
    · obtain ⟨bytes, reads, -⟩ | ⟨-, stops⟩ := which
      · cases reads
      · rw [stops]
        exact ⟨rfl, read, .inl ⟨net, rfl, fails, read, progress.trans unread.progress, nofun⟩⟩
    · obtain ⟨bytes, same, goes⟩ | ⟨nothing, -⟩ := which
      · cases same
        rw [goes]
        have grown : hashed.length < (hashed ++ bytes).length := by
          rw [List.length_append]
          exact Nat.lt_add_of_pos_right (List.length_pos_iff.mpr more)
        exact ⟨rfl, read, cached, .inr ⟨net, rfl, reads, grown⟩⟩
      · exact absurd rfl (nothing bytes)
  · obtain ⟨same, cached⟩ := served_keeps cached flags net out
    rw [same, Option.some_or]
    obtain ⟨bytes, -, goes⟩ | ⟨-, stops⟩ := which
    · rw [goes]
      have grown : content.length < (hashed ++ bytes).length := by
        rw [List.length_append]
        omega
      exact ⟨rfl, read, cached, .inr ⟨earlier, rfl, reads, grown⟩⟩
    · rw [stops]
      exact ⟨rfl, read, .inr ⟨earlier, rfl, reads, longer⟩⟩

/-- One step of an undisturbed run keeps a transfer that is served in step with what its first
poll was told. -/
theorem served_step (full : content ≠ []) {actions : List (Step n)} {action : Step n}
    (meets : Undisturbed sha256 worker request.digest system action)
    (stepped : system.step sha256 action = some after)
    (served : Served system.cache request content (firstPoll worker actions)
      (system.tasks worker)) :
    Served after.cache request content (firstPoll worker (actions ++ [action]))
      (after.tasks worker) := by
  rw [firstPoll_append]
  obtain ⟨other, task, same⟩ | ended | rfl | ⟨net, rfl⟩ := undisturbed_cases meets stepped
  · rw [task, told_of_other other, Option.or_none]
    exact served.congr same
  · exact .of_not_transferring ended
  · have untold : (Step.rehash worker).told worker = none := rfl
    rw [untold, Option.or_none]
    exact served_rehash full served stepped
  · have told : (Step.poll worker net).told worker = some net := if_pos rfl
    rw [told]
    exact served_poll full served stepped

end Served

/-- A start sets the transfer up, unless it fails or finds the work called off. -/
theorem start_eq_some {head : Head} {request : SlotRequest}
    (opening : system.tasks worker = .opening request)
    (stepped : system.start worker head = some after) :
    (after.tasks worker).transferring = false ∨
      ∃ download, Download.start system.cache request.digest request.url true head =
          (after.cache, .ok download) ∧ after.tasks worker = .opened request download := by
  simp only [start, opening] at stepped
  split at stepped
  · rename_i asked held same
    cases same
    split at stepped
    · cases stepped
      exact .inl (by simp [setTask, Task.transferring])
    · rename_i download starts
      split at stepped
      · cases stepped
        exact .inl (by simp [setTask, Task.transferring])
      · cases stepped
        exact .inr ⟨download, starts, by simp [setTask]⟩
  · cases stepped

/-- Where no entry is complete, a start is of a transfer that is fetched. -/
theorem fetched_start {head : Head} {request : SlotRequest}
    (opening : system.tasks worker = .opening request)
    (stepped : system.start worker head = some after)
    (missing : system.cache.isCompleteAt request.digest = false) :
    Fetched after.cache request (after.tasks worker) := by
  obtain other | ⟨download, starts, opened⟩ := start_eq_some opening stepped
  · exact .of_not_transferring other
  · obtain ⟨-, path, -, arrived, writing⟩ := Download.start_writing missing starts
    rw [opened]
    exact ⟨rfl, path, arrived, .of_writing writing⟩

/-- A complete entry is opened, and not read from yet. -/
theorem served_start {head : Head} {request : SlotRequest}
    (opening : system.tasks worker = .opening request)
    (stepped : system.start worker head = some after)
    (complete : system.cache.isCompleteAt request.digest = true) :
    ∃ content, content ≠ [] ∧
      Served after.cache request content (firstPoll worker []) (after.tasks worker) := by
  obtain ⟨content, _, read, full, -⟩ := (Cache.isCompleteAt_iff _ _).mp complete
  refine ⟨content, full, ?_⟩
  obtain other | ⟨download, starts, opened⟩ := start_eq_some opening stepped
  · exact .of_not_transferring other
  · rw [opened]
    generalize after.cache = later at starts
    cases Download.start_cases starts with
    | cached file _ names =>
        have held : system.cache.contents file = content :=
          Option.some.inj ((Disk.read_eq names).symm.trans read)
        exact ⟨rfl, rfl, rfl, rfl, congrArg List.length held, ⟨file, rfl, names⟩, read⟩
    | resumed file resume missing => simp [complete] at missing
    | fresh missing => simp [complete] at missing

/-! ## The digest of a transfer in flight -/

variable (sha256) in
/-- What the hasher was fed is the file on disk, and a file that is what its request asked for
is neither refused nor evicted. -/
def HashedOnce (system : System n) (worker : Fin n) (request : SlotRequest) (download : Download)
    (hashed : Bytes) : Prop :=
  system.cache.read (.artifact request.digest) = some hashed ∧
    (Valid sha256 system.cache request → system.judge sha256 worker = some (system.setTask worker
      (.settling (some request) (.complete request.digest) (some download) false)))

theorem HashedOnce.of_covered {request : SlotRequest} {download : Download} {hashed : Bytes}
    {oversize : Option Failure} (judging : system.tasks worker =
      .judging request download hashed oversize) (complete : download.status = .complete)
    (covered : Covered system.cache request download hashed oversize) :
    system.HashedOnce sha256 worker request download hashed := by
  refine ⟨covered.read, fun valid => ?_⟩
  obtain ⟨content, read, full, hash, fits⟩ := valid
  rw [covered.read, Option.some_inj] at read
  subst read
  have fitting : oversize = none := by
    cases oversize with
    | none => rfl
    | some refused =>
        obtain ⟨expected, named, short⟩ := covered.overrun refused rfl
        have long := fits expected named
        omega
  have onDisk : verifyOnDisk sha256 system.cache request.digest request.digest = .ok () := by
    simp only [verifyOnDisk, hashFile, covered.read, if_neg full, hash, ne_eq, not_true_eq_false,
      if_false]
  have passes : validate sha256 system.cache request.digest request.digest request.expectedSize
      hashed download.progress.downloaded = .ok () := by
    simp only [validate, hash, ne_eq, not_true_eq_false, if_false]
    split
    · rename_i expected named
      have length : download.progress.downloaded = expected :=
        covered.counted.trans (fits expected named)
      rw [if_neg (not_not.mpr length), onDisk]
    · exact onDisk
  rw [judge, judging]
  simp only [fitting, complete, passes]

/-- **The file is hashed once exactly if its transfer is not served from a complete entry**,
or reading that entry fails at once. -/
theorem the_file_is_hashed_once {before opened : System n} {head : Head}
    {request asked : SlotRequest} {actions : List (Step n)} {download : Download} {hashed : Bytes}
    {oversize : Option Failure} (opening : before.tasks worker = .opening request)
    (started : before.start worker head = some opened)
    (run : Trace (step sha256) (Undisturbed sha256 worker request.digest) opened actions after)
    (judging : after.tasks worker = .judging asked download hashed oversize)
    (complete : download.status = .complete) :
    after.HashedOnce sha256 worker request download hashed ↔
      before.cache.isCompleteAt request.digest = false ∨
        ∃ net, firstPoll worker actions = some net ∧ net.body = .error := by
  cases whole : before.cache.isCompleteAt request.digest with
  | false =>
      have fetched : Fetched opened.cache request (opened.tasks worker) :=
        fetched_start opening started whole
      have kept := run.invariant
        (fun _ system => Fetched system.cache request (system.tasks worker))
        (fun _ _ _ _ meets stepped => fetched_step meets stepped) fetched
      rw [judging] at kept
      obtain ⟨rfl, covered⟩ := kept
      exact iff_of_true (.of_covered judging complete (covered complete)) (.inl rfl)
  | true =>
      obtain ⟨content, full, served⟩ := served_start opening started whole
      have kept := run.invariant
        (fun actions system => Served system.cache request content (firstPoll worker actions)
          (system.tasks worker))
        (fun _ _ _ _ meets stepped => served_step full meets stepped) served
      rw [judging] at kept
      obtain ⟨rfl, read, ⟨net, told, fails, covered⟩ | ⟨net, told, reads, longer⟩⟩ := kept
      · exact iff_of_true (.of_covered judging complete covered) (.inr ⟨net, told, fails⟩)
      · refine iff_of_false (fun once => ?_) ?_
        · have same := once.1
          rw [read, Option.some_inj] at same
          rw [same] at longer
          exact Nat.lt_irrefl _ longer
        · rintro (missing | ⟨other, first, fails⟩)
          · cases missing
          · rw [told] at first
            cases first
            exact reads fails

/-! ## A transfer that is fetched, and one that is served -/

/-- A step of the worker's or the queue's, and not the start of a transfer. -/
def keepsTo (worker : Fin n) (_ : System n) : Step n → Bool
  | .shared _ => true
  | .start _ _ => false
  | action => action.worker == some worker

theorem undisturbed_of_keepsTo {digest : ArtifactDigest} {action : Step n}
    (keeps : system.keepsTo worker action = true) :
    Undisturbed sha256 worker digest system action := by
  refine ⟨?_, fun other after stepped => ?_⟩
  · rintro head rfl
    cases keeps
  · cases action with
    | shared action => exact (queueStep_keeps stepped).2 ▸ .refl _ _
    | start actor head => cases keeps
    | _ => exact absurd (beq_iff_eq.mp keeps) other

/-- SHA-256 of three bytes, and of the same bytes twice over. -/
def sha256OfTriple (bytes : Bytes) : ArtifactDigest :=
  (ArtifactDigest.fromHex
    (if bytes = [1, 2, 3] then "039058c6f2c0cb492c533b0a4d14ef77cc0f78abccced5287d84a1a2011cfb81"
    else "3ba35ee83f218013f8b83f08ae2c06c9d8e05a198d271c57c9e9a1771b44a211")).getD (.leading bytes)

/-- The three bytes, as a worker asks for them. -/
def tripleAsked : SlotRequest := ⟨['u'], sha256OfTriple [1, 2, 3], some 3⟩

/-- A worker takes the entry of a slot, and does not find it complete. -/
def seeks (worker : Fin n) : List (Step n) :=
  [.shared (.look worker), .shared (.claim worker fun _ => true), .enter worker, .probe worker]

/-- A transfer of the three bytes, once it has been set up. -/
def fetches (worker : Fin n) : List (Step n) :=
  [.shared (.install worker), .rehash worker,
    .poll worker { response := some { status := 200 }, body := .bytes [1, 2, 3] }, .poll worker {}]

/-- The three bytes are asked for, and a worker begins. -/
def asks (worker : Fin n) : List (Step n) :=
  [.shared (.queue (tripleRequest (sha256OfTriple [1, 2, 3])) 0 fun _ => true),
    .shared (.hookReturns worker)]

/-- A worker is about to set the transfer of the three bytes up. -/
def sets (worker : Fin n) (system : System n) : Bool :=
  match system.tasks worker with
  | .opening request => request == tripleAsked
  | _ => false

theorem sets_iff : system.sets worker = true ↔ system.tasks worker = .opening tripleAsked := by
  rw [sets]
  split
  · rename_i opening
    simp [opening]
  · rename_i other
    exact iff_of_false (by simp) (other _)

/-- A worker has a complete transfer of the three bytes to judge, and what was hashed of it. -/
def judges (worker : Fin n) (fed : Bytes) (system : System n) : Bool :=
  match system.tasks worker with
  | .judging request download hashed oversize =>
      request == tripleAsked && download.status == .complete && hashed == fed && oversize.isNone
  | _ => false

theorem judges_eq_true {fed : Bytes} (found : system.judges worker fed = true) :
    ∃ download, system.tasks worker = .judging tripleAsked download fed none ∧
      download.status = .complete := by
  rw [judges] at found
  split at found
  · rename_i request download hashed oversize judging
    simp only [Bool.and_eq_true, beq_iff_eq, Option.isNone_iff_eq_none] at found
    obtain ⟨⟨⟨rfl, complete⟩, rfl⟩, rfl⟩ := found
    exact ⟨download, judging, complete⟩
  · cases found

/-- What a run of scripts and a start between them leads to. -/
theorem started_of_check (sha256 : Bytes → ArtifactDigest) (first : System n) (worker : Fin n)
    (head : Head) (earlier later : List (Step n)) (check : System n → Bool)
    (checked : ((script (step sha256) unguarded first earlier).any fun before =>
      before.sets worker && (before.start worker head).any fun opened =>
        (script (step sha256) (fun system action => system.keepsTo worker action = true) opened
          later).any check) = true) :
    ∃ before opened after, Moves (step sha256) unguarded first before ∧
      before.tasks worker = .opening tripleAsked ∧ before.start worker head = some opened ∧
      Trace (step sha256) (Undisturbed sha256 worker tripleAsked.digest) opened later after ∧
      check after = true := by
  obtain ⟨before, ran, sets⟩ := (Option.any_eq_true _ _).mp checked
  obtain ⟨sets, starts⟩ := Bool.and_eq_true_iff.mp sets
  obtain ⟨opened, started, reads⟩ := (Option.any_eq_true _ _).mp starts
  obtain ⟨after, reran, found⟩ := (Option.any_eq_true _ _).mp reads
  exact ⟨before, opened, after, .of_script ran, sets_iff.mp sets, started,
    (Trace.of_script reran).mono fun _ _ => undisturbed_of_keepsTo, found⟩

theorem the_file_is_hashed_once_fetched : ∃ (before after : System 1) (download : Download),
    after.HashedOnce sha256OfTriple 0 tripleAsked download [1, 2, 3] ↔
      before.cache.isCompleteAt tripleAsked.digest = false ∨
        ∃ net, firstPoll 0 (fetches (0 : Fin 1)) = some net ∧ net.body = .error := by
  obtain ⟨before, opened, after, -, opening, started, run, found⟩ :=
    started_of_check sha256OfTriple (fresh 1) 0 { length := some 3 } (asks 0 ++ seeks 0)
      (fetches 0) (fun after => after.judges 0 [1, 2, 3]) (by decide +kernel)
  obtain ⟨download, judging, complete⟩ := judges_eq_true found
  exact ⟨before, after, download, the_file_is_hashed_once opening started run judging complete⟩

/-- **A complete entry is hashed twice.** Two workers are asked for three bytes. One finds no
entry, and starts its transfer once the other has completed it. The file it is served from is
what was asked for, and is evicted. -/
theorem a_complete_entry_is_hashed_twice :
    ∃ (before opened after judged : System 2) (download : Download),
      Moves (step sha256OfTriple) unguarded (fresh 2) before ∧
      before.start 1 {} = some opened ∧
      Trace (step sha256OfTriple) (Undisturbed sha256OfTriple 1 tripleAsked.digest) opened
        (fetches 1) after ∧
      after.tasks 1 = .judging tripleAsked download ([1, 2, 3] ++ [1, 2, 3]) none ∧
      download.status = .complete ∧ Valid sha256OfTriple after.cache tripleAsked ∧
      ¬ after.HashedOnce sha256OfTriple 1 tripleAsked download ([1, 2, 3] ++ [1, 2, 3]) ∧
      after.judge sha256OfTriple 1 = some judged ∧
      judged.cache.read (.artifact tripleAsked.digest) = none := by
  obtain ⟨before, opened, after, reached, opening, started, run, found⟩ :=
    started_of_check sha256OfTriple (fresh 2) 1 {}
      (asks 0 ++ asks 1 ++ seeks 0 ++ seeks 1 ++ [.start 0 { length := some 3 }] ++ fetches 0 ++
        [.judge 0, .settle 0, .drop 0])
      (fetches 1)
      (fun after => after.judges 1 ([1, 2, 3] ++ [1, 2, 3]) &&
        after.cache.read (.artifact tripleAsked.digest) == some [1, 2, 3] &&
        (after.judge sha256OfTriple 1).any fun judged =>
          judged.cache.read (.artifact tripleAsked.digest) == none)
      (by decide +kernel)
  simp only [Bool.and_eq_true, beq_iff_eq, Option.any_eq_true] at found
  obtain ⟨⟨judges, read⟩, judged, stepped, evicted⟩ := found
  obtain ⟨download, judging, complete⟩ := judges_eq_true judges
  refine ⟨before, opened, after, judged, download, reached, started, run, judging, complete,
    ⟨[1, 2, 3], read, by decide, rfl, by simp [tripleAsked]⟩, fun once => ?_, stepped, evicted⟩
  have same := once.1
  rw [read] at same
  exact absurd (Option.some.inj same) (by decide)

end System

end Retrovert.Queue
