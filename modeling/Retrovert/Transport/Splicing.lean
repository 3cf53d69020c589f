import Retrovert.Library.Runs
import Retrovert.Transport.Partial

/-!
# Splicing a body together

One URL is transferred into one cache by one transfer at a time, from a server that has the
same body to give whenever it is asked: the rest of it from the requested offset on with a
206, and all of it with any other answer. Transfers are paused, cancelled, cut off and
dropped wherever that happens to them, and started again.

How far the body has come is said in four places: the file, its sidecar, the counters of
the transfer, and the answer that is being read. While a transfer is under way the first,
third and fourth agree at every step, and no sidecar says that all has arrived
(`Fetch.Underway`). Between transfers only the file and the sidecar are left, and where
these agree the file is the beginning of the body (`Cache.Spliced`).
-/

set_option autoImplicit false

namespace Retrovert.Transport

open Retrovert.Runs

/-! ## Transfers of one body -/

/-- How many bytes of the body a poll has put into the buffer. -/
def Chunk.length : Chunk → Nat
  | .read bytes => bytes.length
  | .idle | .failed => 0

/-- What an answer has to give: a 206 the rest of the body from the offset asked for, and any
other answer all of it. -/
def Response.gives (response : Response) (body : Bytes) (offset : Nat) : Bytes :=
  if response.status = partialContent then body.drop offset else body

/-- A transfer, and what the answer to its request has still to give, once there is one. -/
structure Fetch where
  download : Download
  rest : Bytes

/-- What a poll can read from: the answer it has, or the one it is given now. -/
def Fetch.available (fetch : Fetch) (body : Bytes) (net : Net) : Bytes :=
  if fetch.download.xfer.started then fetch.rest
  else match net.response with
    | some response => response.gives body fetch.download.xfer.resumeOffset
    | none => []

/-- One poll, which takes what it reads from the answer. -/
def Fetch.poll (fetch : Fetch) (body : Bytes) (flags : Flags) (net : Net) (cache : Cache) :
    Cache × Fetch :=
  let polled := fetch.download.readChunk flags net cache
  (polled.1, ⟨polled.2.1, (fetch.available body net).drop polled.2.2.length⟩)

/-- A read gives some of what is left of the answer, and ends it only where nothing is. -/
def BodyRead.Gives (rest : Bytes) : BodyRead → Prop
  | .error => True
  | .bytes chunk => chunk <+: rest ∧ (chunk = [] → rest = [])

instance (rest : Bytes) : (read : BodyRead) → Decidable (read.Gives rest)
  | .error => .isTrue trivial
  | .bytes chunk => inferInstanceAs (Decidable (chunk <+: rest ∧ (chunk = [] → rest = [])))

/-- One cache, and the transfer into it that is live, if there is one. -/
structure Fetching where
  cache : Cache
  live : Option Fetch

namespace Fetching

inductive Action where
  | start (allowResume : Bool) (head : Head)
  | poll (flags : Flags) (net : Net)
  | drop

/-- The cache before any transfer. -/
def idle (cache : Cache) : Fetching := ⟨cache, none⟩

/-- One step of the transfers of `url`, one of which at most is live. -/
def step (body : Bytes) (path : ArtifactDigest) (url : Text) (fetching : Fetching) :
    Action → Option Fetching
  | .start allowResume head =>
      match fetching.live with
      | some _ => none
      | none =>
          match Download.start fetching.cache path url allowResume head with
          | (cache, .error _) => some ⟨cache, none⟩
          | (cache, .ok download) => some ⟨cache, some ⟨download, []⟩⟩
  | .poll flags net =>
      fetching.live.map fun fetch =>
        let polled := fetch.poll body flags net fetching.cache
        ⟨polled.1, some polled.2⟩
  | .drop => fetching.live.map fun fetch => ⟨fetch.download.drop fetching.cache, none⟩

/-- The length declared is the body's, what is read is what the server gives, and what
arrives can be written. -/
def Honest (body : Bytes) (fetching : Fetching) : Action → Prop
  | .start _ head => ∀ length ∈ head.length, length.toNat = body.length
  | .poll _ net => net.writeFailsAfter = none ∧
      ∀ fetch ∈ fetching.live, net.body.Gives (fetch.available body net)
  | .drop => True

instance (body : Bytes) (fetching : Fetching) :
    (action : Action) → Decidable (fetching.Honest body action)
  | .start _ head => Option.decidableForallMem head.length
  | .poll _ _ => @instDecidableAnd _ _ inferInstance (Option.decidableForallMem fetching.live)
  | .drop => .isTrue trivial

end Fetching

/-! ## The file and its sidecar -/

/-- As far as its sidecar says anything of it, the entry is the beginning of the body. -/
structure Cache.Spliced (cache : Cache) (path : ArtifactDigest) (body : Bytes) : Prop where
  complete : ∀ record, cache.readMeta path = some record →
    record.bytesWritten = record.fileSize → cache.read (.artifact path) = some body
  part : ∀ record, cache.readMeta path = some record →
    record.bytesWritten ≠ record.fileSize → record.fileSize.toNat = body.length ∧
      ∀ content, cache.read (.artifact path) = some content → content <+: body

namespace Cache.Spliced

variable {cache later : Cache} {path : ArtifactDigest} {body content : Bytes}

theorem of_none (nothing : cache.readMeta path = none) : cache.Spliced path body where
  complete record found := by simp [nothing] at found
  part record found := by simp [nothing] at found

/-- **What can be resumed** is the beginning of the body. -/
theorem planned (spliced : cache.Spliced path body) {resume : Resume}
    (planned : planResume cache path = some resume) :
    cache.read (.artifact path) = some (body.take resume.offset) ∧
      resume.offset ≤ body.length ∧ resume.fileSize.toNat = body.length := by
  obtain ⟨record, content, recorded, read, agree, part, rfl⟩ := planResume_cases planned
  obtain ⟨size, begins⟩ := spliced.part record recorded (UInt64.ne_of_lt part)
  have offset := List.prefix_iff_eq_take.mp (begins content read)
  rw [agree] at offset
  refine ⟨by rw [read, ← offset], ?_, size⟩
  rw [← agree]
  exact (begins content read).length_le

/-- What is complete is the body. -/
theorem read_of_complete (spliced : cache.Spliced path body)
    (complete : cache.isCompleteAt path = true) : cache.read (.artifact path) = some body := by
  obtain ⟨_, record, _, _, found, all⟩ := (isCompleteAt_iff _ _).mp complete
  exact spliced.complete record found all

/-- An entry of a body that has any bytes is unfinished where it is not complete. -/
theorem unfinished (spliced : cache.Spliced path body) (given : body ≠ [])
    (missing : cache.isCompleteAt path = false) : cache.Unfinished path := by
  intro record found all
  have complete : cache.isCompleteAt path = true := (isCompleteAt_iff _ _).mpr
    ⟨body, record, spliced.complete record found all, given, found, all⟩
  rw [missing] at complete
  cases complete

/-- While the sidecar does not change, the file may be any beginning of the body. -/
theorem begins (spliced : cache.Spliced path body) (unfinished : cache.Unfinished path)
    (sidecar : later.read (.sidecar path) = cache.read (.sidecar path))
    (read : later.read (.artifact path) = some content) (begins : content <+: body) :
    later.Spliced path body where
  complete record found all := by
    rw [readMeta, sidecar] at found
    exact absurd all (unfinished record found)
  part record found part := by
    rw [readMeta, sidecar] at found
    refine ⟨(spliced.part record found part).1, ?_⟩
    intro other again
    rw [read] at again
    cases again
    exact begins

/-- A sidecar that says every byte arrived, beside all of them. -/
theorem writeMeta_all (read : cache.read (.artifact path) = some body) (size : UInt64)
    (etag : Vector UInt8 etagLen) : (cache.writeMeta path ⟨size, size, etag⟩).Spliced path body where
  complete _ _ _ := (Disk.read_write_of_ne _ (by simp) _).trans read
  part record found part := by
    rw [readMeta_writeMeta] at found
    split at found
    · cases found
      exact absurd rfl part
    · cases found

end Cache.Spliced

/-! ## A transfer under way -/

/-- The file of a running transfer is the beginning of the body, as long as its counters
say, and the answer has the rest. -/
structure Fetch.Underway (fetch : Fetch) (cache : Cache) (body : Bytes) : Prop where
  writing : fetch.download.Writing cache (body.take fetch.download.xfer.total)
  rest : fetch.download.xfer.started = true → fetch.rest = body.drop fetch.download.xfer.total
  unread : fetch.download.xfer.started = false → fetch.download.xfer.bytesWritten = 0
  size : ∀ size, fetch.download.xfer.fileSize = some size → size.toNat = body.length

/-- What a live transfer has to show for itself. -/
structure Fetch.Stands (fetch : Fetch) (cache : Cache) (path : ArtifactDigest) (body : Bytes) :
    Prop where
  named : fetch.download.xfer.path = path
  underway : fetch.download.status = .pending ∨ fetch.download.status = .downloading →
    fetch.Underway cache body
  complete : fetch.download.status = .complete → cache.read (.artifact path) = some body
  cached : fetch.download.xfer.isCached = true → fetch.download.status = .complete

namespace Fetch

variable {fetch : Fetch} {cache later : Cache} {path : ArtifactDigest} {body : Bytes}

theorem Underway.total_le (underway : fetch.Underway cache body) :
    fetch.download.xfer.total ≤ body.length := by
  have total := underway.writing.total
  rw [List.length_take] at total
  omega

theorem Underway.read (underway : fetch.Underway cache body) :
    cache.read (.artifact fetch.download.xfer.path) =
      some (body.take fetch.download.xfer.total) :=
  underway.writing.holds.read

/-- **An answer that is read from** gives the body from where the file ends. -/
theorem Underway.available (underway : fetch.Underway cache body) {net : Net}
    (accepts : fetch.download.Accepts net) :
    fetch.available body net = body.drop fetch.download.xfer.total := by
  unfold Fetch.available
  cases started : fetch.download.xfer.started with
  | true => simpa using underway.rest started
  | false =>
      obtain before | ⟨response, answer, -, valid⟩ := accepts
      · simp [started] at before
      · simp only [answer, Bool.false_eq_true, if_false, Response.gives, Transfer.total,
          underway.unread started, Nat.add_zero]
        split
        · rfl
        · rename_i whole
          -- Only a plain request takes an answer other than 206.
          have plain : fetch.download.xfer.resumeOffset = 0 := by
            simpa [resumeResponseIsValid, whole] using valid
          rw [plain, List.drop_zero]

/-- Where there is nothing left to give, the file is the body. -/
theorem Underway.read_of_end (underway : fetch.Underway cache body)
    (last : body.drop fetch.download.xfer.total = []) :
    cache.read (.artifact fetch.download.xfer.path) = some body := by
  have past := List.drop_eq_nil_iff.mp last
  rw [underway.read, List.take_of_length_le past]

/-- The sidecar of a pause or a drop says how much of the body is there. -/
theorem Underway.spliced_saveMeta (underway : fetch.Underway cache body)
    (spliced : cache.Spliced fetch.download.xfer.path body) :
    (saveMeta cache fetch.download.xfer).Spliced fetch.download.xfer.path body := by
  unfold saveMeta
  cases left : fetch.download.xfer.sidecar with
  | none => exact spliced
  | some record =>
      unfold Transfer.sidecar at left
      split at left
      · cases left
      · rename_i size declared
        split at left
        · cases left
        · cases left
          have length := underway.size size declared
          have read : (cache.writeMeta fetch.download.xfer.path ⟨size,
              UInt64.ofNat fetch.download.xfer.total,
              packEtag fetch.download.xfer.etag⟩).read (.artifact fetch.download.xfer.path) =
                some (body.take fetch.download.xfer.total) :=
            (Disk.read_write_of_ne _ (by simp) _).trans underway.read
          refine ⟨fun record found all => ?_, fun record found _ => ?_⟩
          · rw [Cache.readMeta_writeMeta] at found
            split at found
            · cases found
              -- No more than the declared length has arrived, so the count is not cut short.
              have total : fetch.download.xfer.total = body.length := by
                have within := underway.total_le
                have fits : fetch.download.xfer.total < UInt64.size :=
                  Nat.lt_of_le_of_lt (length ▸ within) size.toNat_lt
                have arrived : (UInt64.ofNat fetch.download.xfer.total).toNat = size.toNat :=
                  congrArg UInt64.toNat all
                rw [UInt64.toNat_ofNat_of_lt' fits] at arrived
                exact arrived.trans length
              rw [read, total, List.take_length]
            · cases found
          · rw [Cache.readMeta_writeMeta] at found
            split at found
            · cases found
              refine ⟨length, fun content again => ?_⟩
              rw [read] at again
              cases again
              exact List.take_prefix _ _
            · cases found

/-- A chunk of what the answer has left goes to the end of the file. -/
theorem Underway.wrote (underway : fetch.Underway cache body) (etag : Bytes) {bytes : Bytes}
    (chunk : bytes <+: body.drop fetch.download.xfer.total) :
    Underway ⟨(fetch.download.answered etag).wrote bytes,
        (body.drop fetch.download.xfer.total).drop bytes.length⟩
      (Download.writeBody cache fetch.download.xfer bytes) body := by
  have next : body.take fetch.download.xfer.total ++ bytes =
      body.take (fetch.download.xfer.total + bytes.length) := by
    rw [List.take_add, ← List.prefix_iff_eq_take.mp chunk]
  refine ⟨?_, fun _ => ?_, fun unread => (nomatch unread), underway.size⟩
  · simp only [Download.total_wrote, ← next]
    exact underway.writing.wrote etag bytes
  · simp only [Download.total_wrote, List.drop_drop]

theorem Stands.of_ended (polled : Download) (named : polled.xfer.path = path)
    (fetched : polled.xfer.isCached = false)
    (status : polled.status = .failed ∨ polled.status = .cancelled ∨ polled.status = .paused)
    (rest : Bytes) : Stands ⟨polled, rest⟩ cache path body where
  named := named
  underway running := by
    have run : polled.status = .pending ∨ polled.status = .downloading := running
    rcases run with run | run
    · simp [run] at status
    · simp [run] at status
  complete done := by
    have done : polled.status = .complete := done
    simp [done] at status
  cached served := by simp [fetched] at served

/-- **What a poll leaves.** -/
theorem Stands.poll {flags : Flags} {net : Net} (stands : fetch.Stands cache path body)
    (spliced : cache.Spliced path body) (gives : net.body.Gives (fetch.available body net))
    (writes : net.writeFailsAfter = none) :
    (fetch.poll body flags net cache).1.Spliced path body ∧
      (fetch.poll body flags net cache).2.Stands (fetch.poll body flags net cache).1 path body := by
  by_cases running : fetch.download.status = .pending ∨ fetch.download.status = .downloading
  · have underway := stands.underway running
    have named := stands.named
    subst named
    have writing := underway.writing
    have advances := Download.readChunk_advances flags net cache running writing.fetched
      writing.started
    rw [Fetch.poll]
    generalize fetch.download.readChunk flags net cache = out at advances
    obtain ⟨later, polled, chunk⟩ := out
    have ended : ∀ {ended : Download}, fetch.download.Ended ended →
        Stands ⟨ended, fetch.available body net⟩ later fetch.download.xfer.path body := fun ends =>
      .of_ended _ ends.path (ends.fetched.trans writing.fetched) (ends.status.imp_right .inl) _
    cases advances with
    | discarded ends => exact ⟨.of_none (Cache.readMeta_deleteMeta _ _), ended ends⟩
    | failed ends => exact ⟨spliced, ended ends⟩
    | paused goes asked =>
        exact ⟨underway.spliced_saveMeta spliced,
          .of_ended { fetch.download with status := .paused } rfl writing.fetched
            (.inr (.inr rfl)) _⟩
    | finished etag accepts last =>
        rw [last, underway.available accepts] at gives
        have read := underway.read_of_end (gives.2 rfl)
        refine ⟨.writeMeta_all read _ _, rfl, ?_, ?_, ?_⟩
        · rintro (run | run)
          · cases run
          · cases run
        · exact fun _ => (Disk.read_write_of_ne _ (by simp) _).trans read
        · exact fun _ => rfl
    | wrote etag accepts arrives more =>
        rw [arrives, underway.available accepts] at gives
        have next := underway.wrote etag gives.1
        simp only [underway.available accepts]
        refine ⟨?_, rfl, fun _ => next, ?_, ?_⟩
        · exact spliced.begins writing.unfinished
            (writing.holds.sameAt_writeBody _ (by simp)).read next.read (List.take_prefix _ _)
        · intro done
          cases done
        · intro served
          exact absurd served (by simp [Download.answered, writing.fetched])
    | torn bytes fails ends => simp [writes] at fails
  · rw [not_or] at running
    obtain ⟨polled, chunk, same, status, named, cached⟩ :=
      Download.readChunk_of_settled flags net cache fun _ => running
    simp only [Fetch.poll, same]
    exact ⟨spliced, named.trans stands.named, fun run => by
        rw [status] at run
        exact absurd run (not_or.mpr running),
      fun done => stands.complete (status.symm.trans done),
      fun served => status.trans (stands.cached (cached.symm.trans served))⟩

/-- **What a start leaves.** -/
theorem Stands.of_start {url : Text} {allowResume : Bool} {head : Head}
    {started : Except StartError Download} (given : body ≠ [])
    (spliced : cache.Spliced path body)
    (declared : ∀ length ∈ head.length, length.toNat = body.length)
    (starts : Download.start cache path url allowResume head = (later, started)) :
    later.Spliced path body ∧
      ∀ download, started = .ok download → Stands ⟨download, []⟩ later path body := by
  have cleared : (cleared cache path allowResume).Spliced path body := by
    cases allowResume with
    | true => exact .of_none (readMeta_cleared cache path)
    | false => exact spliced
  have stands : ∀ {later : Cache} {download : Download}, download.xfer.path = path →
      download.status = .pending → Underway ⟨download, []⟩ later body →
      Stands ⟨download, []⟩ later path body := by
    intro later download named pending underway
    refine ⟨named, fun _ => underway, fun done => ?_, fun served => ?_⟩
    · exact absurd (pending.symm.trans done) (by decide)
    · exact absurd (underway.writing.fetched.symm.trans served) (by decide)
  cases Download.start_cases starts with
  | refused _ => exact ⟨spliced, fun _ made => (nomatch made)⟩
  | failed _ => exact ⟨cleared, fun _ made => (nomatch made)⟩
  | cached file complete names =>
      refine ⟨spliced, ?_⟩
      rintro _ ⟨⟩
      refine ⟨rfl, ?_, fun _ => spliced.read_of_complete complete, fun _ => rfl⟩
      rintro (run | run)
      · cases run
      · cases run
  | resumed file resume missing planned names =>
      refine ⟨spliced, ?_⟩
      rintro _ ⟨⟩
      obtain ⟨read, -, size⟩ := spliced.planned planned
      have held : cache.contents file = body.take resume.offset :=
        Option.some.inj ((Disk.read_eq names).symm.trans read)
      have writing : (Download.fromSetup path url (.resume file resume)).Writing cache
          (body.take resume.offset) := held ▸ Download.resume_writing planned names
      refine stands rfl rfl ⟨writing, fun answered => (nomatch answered), fun _ => rfl, ?_⟩
      rintro _ ⟨⟩
      exact size
  | fresh missing =>
      have unfinished : (Transport.cleared cache path allowResume).Unfinished path := by
        cases allowResume with
        | true => exact Cache.unfinished_of_none (readMeta_cleared cache path)
        | false => exact spliced.unfinished given missing
      refine ⟨cleared.begins unfinished (Disk.read_create_of_ne _ (by simp))
        (Disk.read_create_self _ _) List.nil_prefix, ?_⟩
      rintro _ ⟨⟩
      exact stands rfl rfl ⟨Download.fresh_writing unfinished, fun answered => (nomatch answered),
        fun _ => rfl, declared⟩

/-- **What a drop leaves.** -/
theorem Stands.drop (stands : fetch.Stands cache path body) (spliced : cache.Spliced path body) :
    (fetch.download.drop cache).Spliced path body := by
  have named := stands.named
  subst named
  unfold Download.drop
  split
  · exact spliced
  · split
    · rename_i cut
      exact (stands.underway (.inr cut.1)).spliced_saveMeta spliced
    · split
      · exact .of_none (Cache.readMeta_deleteMeta _ _)
      · exact spliced

end Fetch

/-! ## Runs -/

namespace Fetching

variable {body : Bytes} {path : ArtifactDigest} {url : Text} {before after : Fetching}
  {action : Action}

/-- The entry is spliced, and the live transfer stands as it says. -/
structure Sound (body : Bytes) (path : ArtifactDigest) (fetching : Fetching) : Prop where
  spliced : fetching.cache.Spliced path body
  stands : ∀ fetch, fetching.live = some fetch → fetch.Stands fetching.cache path body

theorem sound_step (given : body ≠ []) (honest : before.Honest body action)
    (stepped : before.step body path url action = some after) (sound : before.Sound body path) :
    after.Sound body path := by
  obtain ⟨spliced, stands⟩ := sound
  cases action with
  | start allowResume head =>
      unfold step at stepped
      cases live : before.live with
      | some _ => simp [live] at stepped
      | none =>
          simp only [live] at stepped
          cases starts : Download.start before.cache path url allowResume head with
          | mk later started =>
              obtain ⟨spliced, stands⟩ := Fetch.Stands.of_start given spliced honest starts
              rw [starts] at stepped
              cases started with
              | error _ =>
                  cases stepped
                  exact ⟨spliced, fun _ found => (nomatch found)⟩
              | ok download =>
                  cases stepped
                  refine ⟨spliced, ?_⟩
                  rintro _ ⟨⟩
                  exact stands download rfl
  | poll flags net =>
      obtain ⟨fetch, live, rfl⟩ := Option.map_eq_some_iff.mp stepped
      obtain ⟨writes, gives⟩ := honest
      obtain ⟨spliced, stands⟩ := (stands fetch live).poll spliced (gives fetch live) writes
      refine ⟨spliced, ?_⟩
      rintro _ ⟨⟩
      exact stands
  | drop =>
      obtain ⟨fetch, live, rfl⟩ := Option.map_eq_some_iff.mp stepped
      exact ⟨(stands fetch live).drop spliced, fun _ found => (nomatch found)⟩

/-- **Resuming splices the body exactly**, in every run that begins where nothing says how far
the entry has come. What can be resumed is the beginning of the body up to its offset, and a
start that may resume goes on from there; a transfer under way has written the body up to
where it is, and its answer has the rest; and one that is complete has written all of it,
which dropping it leaves. -/
theorem resuming_splices_the_body (given : body ≠ []) {cache : Cache} {fetching : Fetching}
    (nothing : cache.readMeta path = none)
    (run : Moves (step body path url) (Honest body) (idle cache) fetching) :
    (∀ resume, planResume fetching.cache path = some resume →
      resume.offset ≤ body.length ∧
      fetching.cache.read (.artifact path) = some (body.take resume.offset) ∧
      (url ≠ [] → ∀ head, ∃ download,
        Download.start fetching.cache path url true head = (fetching.cache, .ok download) ∧
          download.status = .pending ∧ download.xfer.resumeOffset = resume.offset ∧
          download.xfer.bytesWritten = 0)) ∧
    ∀ fetch, fetching.live = some fetch →
      (fetch.download.status = .pending ∨ fetch.download.status = .downloading →
        fetching.cache.read (.artifact path) = some (body.take fetch.download.xfer.total) ∧
          (fetch.download.xfer.started = true →
            fetch.rest = body.drop fetch.download.xfer.total)) ∧
      (fetch.download.status = .complete →
        fetching.cache.read (.artifact path) = some body ∧
          fetch.download.drop fetching.cache = fetching.cache) := by
  have sound := run.invariant (Sound body path)
    (fun _ _ _ honest stepped sound => sound_step given honest stepped sound)
    ⟨.of_none nothing, fun _ found => (nomatch found)⟩
  refine ⟨fun resume planned => ?_, fun fetch live => ⟨fun running => ?_, fun done => ?_⟩⟩
  · obtain ⟨read, within, -⟩ := sound.spliced.planned planned
    refine ⟨within, read, fun named head => ?_⟩
    obtain ⟨file, starts⟩ := Download.start_of_planned planned named head
    exact ⟨_, starts, rfl, rfl, rfl⟩
  · have stands := sound.stands fetch live
    have underway := stands.underway running
    refine ⟨?_, underway.rest⟩
    rw [← stands.named]
    exact underway.read
  · exact ⟨(sound.stands fetch live).complete done, Download.drop_of_complete done⟩

/-- A transfer that is paused after two of its three bytes, dropped and resumed. -/
theorem resuming_splices_the_body_paused : ∃ fetching : Fetching, ∃ fetch,
    fetching.live = some fetch ∧ fetch.download.xfer.resumeOffset = 2 ∧
      fetching.cache.read (.artifact ⟨Vector.replicate 32 0⟩) = some [1, 2, 3] := by
  obtain ⟨fetching, run, checked⟩ := Moves.of_check
    (step [1, 2, 3] ⟨Vector.replicate 32 0⟩ ['u']) (Honest [1, 2, 3]) (idle Disk.empty)
    [.start true ⟨some 3, false⟩,
      .poll {} ⟨some ⟨200, [], []⟩, .bytes [1, 2], none⟩,
      .poll { pause := true } { body := .error },
      .drop,
      .start true ⟨some 3, false⟩,
      .poll {} ⟨some ⟨206, [], []⟩, .bytes [3], none⟩,
      .poll {} {}]
    (fun fetching => fetching.live.any fun fetch =>
      fetch.download.status == .complete && fetch.download.xfer.resumeOffset == 2)
    (by decide +kernel)
  obtain ⟨fetch, live, checked⟩ := (Option.any_eq_true _ _).mp checked
  simp only [Bool.and_eq_true, beq_iff_eq] at checked
  obtain ⟨complete, offset⟩ := checked
  have spliced := resuming_splices_the_body (by simp) rfl run
  exact ⟨fetching, fetch, live, offset, ((spliced.2 fetch live).2 complete).1⟩

end Fetching

end Retrovert.Transport
