import Retrovert.Library.Runs
import Retrovert.Publish.Whole

/-!
# Publication is crash consistent in the workspace

Commands run on one workspace, each cut off after any number of its writes. A cut
before the commit point leaves the chain in force as it was: the files it has
landed carry versions above the pinned ones, and a manifest stands under its own
digest. A cut after it has landed a whole chain.

A history keeps, beside the files, every commit that landed and the chain that was
in force right after it. What must hold of a whole run is said of that log
(`Succession`).
-/

set_option autoImplicit false

namespace Retrovert.Publish

open Retrovert.Transport (ArtifactDigest)
open Retrovert.Tuf

/-! ## Runs of commands -/

/-- A command on a workspace, and when it is run. -/
inductive Command where
  | publish (manifest : Bytes) (now : Time)
  | resign (now : Time)
deriving DecidableEq

/-- The writes a command makes on these files. -/
def Command.writes (publisher : Publisher) (files : Files FileName) :
    Command → List (FileName × Bytes)
  | .publish manifest now => (Publish.publish publisher files manifest now).writes
  | .resign now => (Publish.resign publisher files now).writes

/-- The files that a command reports as written, in order, when it succeeds. -/
def Command.written (publisher : Publisher) (files : Files FileName) :
    Command → Option (List FileName)
  | .publish manifest now =>
      match (Publish.publish publisher files manifest now).result with
      | .ok report => some report.written
      | .error _ => none
  | .resign now =>
      match (Publish.resign publisher files now).result with
      | .ok report => some report.written
      | .error _ => none

/-- The chain that the workspace's `timestamp.json` leads to. -/
def chainOf (publisher : Publisher) (files : Files FileName) : Option Chain := do
  let timestamp ← (files (.unversioned .timestamp)).bind (payload publisher.timestamp)
  let snapshotPin ← timestamp.pins.lookup RoleName.snapshot.fileName
  let snapshot ← (files (.versioned .snapshot snapshotPin.version)).bind
    (payload publisher.snapshot)
  let targetsPin ← snapshot.pins.lookup RoleName.targets.fileName
  let targets ← (files (.versioned .targets targetsPin.version)).bind (payload publisher.targets)
  return ⟨timestamp, snapshotPin, snapshot, targetsPin, targets⟩

/-- A command whose `timestamp.json` write landed, and the chain in force after
it. -/
structure Landed where
  command : Command
  chain : Option Chain

/-- The files of a workspace, and the commits that landed in it, latest first. -/
structure History where
  files : Files FileName
  log : List Landed

/-- Run a command and cut it off after the given number of its writes. -/
def History.step (publisher : Publisher) (history : History) (action : Command × Nat) :
    Option History :=
  let taken := (action.1.writes publisher history.files).take action.2
  let files := history.files.land taken
  some {
    files
    log := if FileName.unversioned .timestamp ∈ taken.map Prod.fst then
        ⟨action.1, chainOf publisher files⟩ :: history.log
      else history.log }

/-- The manifest of the last publish that landed. -/
def lastPublished (log : List Landed) : Option Bytes :=
  log.findSome? fun landed =>
    match landed.command with
    | .publish manifest _ => some manifest
    | .resign _ => none

/-- The target list that names exactly the given manifest. -/
def listing (sha256 : Bytes → ArtifactDigest) (manifest : Option Bytes) :
    Finmap fun _ : String => TargetFile :=
  match manifest with
  | none => ∅
  | some manifest => Finmap.singleton targetPath (manifestEntry sha256 manifest)

/-! ## What commits do to the chain -/

/-- What a commit makes of the chain in force: every version grows; a publish
lists its manifest alone, and a re-sign changes nothing else of the targets but
their expiry. -/
structure Advances (sha256 : Bytes → ArtifactDigest) (command : Command)
    (earlier later : Chain) : Prop where
  timestamp : earlier.timestamp.version < later.timestamp.version
  snapshot : earlier.snapshot.version < later.snapshot.version
  targets : earlier.targets.version < later.targets.version
  lists : match command with
    | .publish manifest _ => later.targets.targets = listing sha256 (some manifest)
    | .resign _ => later.targets = { earlier.targets with
        version := later.targets.version, expires := later.targets.expires }

/-- The log of commits leads from the first chain to the last, each commit
advancing the one before. -/
inductive Succession (sha256 : Bytes → ArtifactDigest) (initial : Chain) :
    List Landed → Chain → Prop
  | start : Succession sha256 initial [] initial
  | commit {log : List Landed} {earlier later : Chain} {command : Command}
      (before : Succession sha256 initial log earlier)
      (advances : Advances sha256 command earlier later) :
      Succession sha256 initial (⟨command, some later⟩ :: log) later

variable {publisher : Publisher} {manifests : Set Bytes} {files : Files FileName}
  {chain later : Chain}

/-- A whole chain is the one the entry point leads to. -/
theorem Whole.chainOf (whole : Whole publisher files chain) :
    chainOf publisher files = some chain := by
  obtain ⟨_, entry, readTimestamp⟩ := whole.timestamp
  obtain ⟨_, snapshot, -, -, readSnapshot⟩ := whole.snapshot
  obtain ⟨_, targets, -, -, readTargets⟩ := whole.targets
  simp [Publish.chainOf, entry, readTimestamp, whole.pinsSnapshot, snapshot, readSnapshot,
    whole.pinsTargets, targets, readTargets]

/-! ## Cuts -/

/-- The writes of a command that commits, before its commit point: manifests under
their digests, and metadata under versions above the chain's. -/
def Ahead (chain : Chain) (write : FileName × Bytes) : Prop :=
  match write.1 with
  | .target _ _ => True
  | .versioned .targets version => chain.targetsPin.version < version
  | .versioned .snapshot version => chain.snapshotPin.version < version
  | _ => False

theorem Ahead.not_entry {write : FileName × Bytes} (ahead : Ahead chain write) :
    write.1 ≠ .unversioned .timestamp := by
  intro entry
  rw [Ahead, entry] at ahead
  exact ahead

/-- Writes ahead of a chain leave it whole. -/
theorem Whole.land (whole : Whole publisher files chain) {writes : List (FileName × Bytes)}
    (ahead : ∀ write ∈ writes, Ahead chain write) : Whole publisher (files.land writes) chain := by
  have untouched : ∀ name, (∀ bytes, ¬ Ahead chain (name, bytes)) →
      files.land writes name = files name := by
    intro name behind
    apply Files.land_of_untouched
    intro written
    obtain ⟨write, member, rfl⟩ := List.mem_map.mp written
    exact behind write.2 (ahead write member)
  exact whole.congr (untouched _ fun _ => id) (untouched _ fun _ => Nat.lt_irrefl _)
    (untouched _ fun _ => Nat.lt_irrefl _)

/-- What a cut of a committing command lands: everything, or only writes ahead of
the chain. -/
theorem Commits.cut {before written : List (FileName × Bytes)}
    (commits : Commits publisher chain later written)
    (ahead : ∀ write ∈ before, Ahead chain write) (cut : Nat) :
    (before ++ written).take cut = before ++ written ∨
      ∀ write ∈ (before ++ written).take cut, Ahead chain write := by
  obtain ⟨targets, snapshot, timestamp, rfl⟩ := commits.writes
  rw [show before ++ [(.versioned .targets later.targetsPin.version, targets),
      (.versioned .snapshot later.snapshotPin.version, snapshot),
      (.unversioned .timestamp, timestamp)] =
    (before ++ [(.versioned .targets later.targetsPin.version, targets),
      (.versioned .snapshot later.snapshotPin.version, snapshot)]) ++
      [(.unversioned .timestamp, timestamp)] by simp]
  rcases Files.take_concat _ (FileName.unversioned .timestamp, timestamp) cut with
    ⟨-, all⟩ | ⟨-, some⟩
  · exact .inl all
  · right
    rw [some]
    intro write taken
    rcases List.mem_append.mp (List.mem_of_mem_take taken) with early | metadata
    · exact ahead write early
    · have targetsAhead := commits.targetsVersion
      have snapshotAhead := commits.snapshotVersion
      rcases List.mem_pair.mp metadata with rfl | rfl
      · show chain.targetsPin.version < later.targetsPin.version
        omega
      · show chain.snapshotPin.version < later.snapshotPin.version
        omega

theorem Commits.advances {written : List (FileName × Bytes)} {sha256 : Bytes → ArtifactDigest}
    {command : Command} (whole : Whole publisher files chain)
    (commits : Commits publisher chain later written)
    (lists : match command with
      | .publish manifest _ => later.targets.targets = listing sha256 (some manifest)
      | .resign _ => later.targets = { chain.targets with
          version := later.targets.version, expires := later.targets.expires }) :
    Advances sha256 command chain later where
  timestamp := by
    have := commits.timestampVersion
    omega
  snapshot := by
    have := commits.snapshotVersion
    rw [whole.snapshotVersion, (commits.whole files).snapshotVersion]
    omega
  targets := by
    have := commits.targetsVersion
    rw [whole.targetsVersion, (commits.whole files).targetsVersion]
    omega
  lists := lists

theorem Commits.honest {sha256 : Bytes → ArtifactDigest} {written : List (FileName × Bytes)}
    (commits : Commits publisher chain later written) :
    ∀ write ∈ written, Honest sha256 manifests write := by
  obtain ⟨targets, snapshot, timestamp, rfl⟩ := commits.writes
  intro write member path digest target
  simp only [List.mem_cons, List.not_mem_nil, or_false] at member
  rcases member with rfl | rfl | rfl <;> cases target

/-- The manifests a command publishes. -/
def Command.Publishes (manifests : Set Bytes) : Command → Prop
  | .publish manifest _ => manifest ∈ manifests
  | .resign _ => True

/-- A manifest's own write. -/
theorem honest_target (sha256 : Bytes → ArtifactDigest) {manifest : Bytes}
    (member : manifest ∈ manifests) :
    Honest sha256 manifests (.target targetPath (sha256 manifest).toHex, manifest) := by
  intro path digest target
  cases target
  exact ⟨member, rfl⟩

/-- A commit writes no targets. -/
theorem Commits.target_untouched {written : List (FileName × Bytes)}
    (commits : Commits publisher chain later written) (path digest : String) :
    FileName.target path digest ∉ written.map Prod.fst := by
  obtain ⟨targets, snapshot, timestamp, rfl⟩ := commits.writes
  simp

/-- A commit writes no file twice. -/
theorem Commits.once {written : List (FileName × Bytes)}
    (commits : Commits publisher chain later written) : (written.map Prod.fst).Nodup := by
  obtain ⟨targets, snapshot, timestamp, rfl⟩ := commits.writes
  simp

/-- What a command that commits does: before the commit it writes ahead of the
chain, and the chain it commits has its listed files. -/
structure Lands (publisher : Publisher) (manifests : Set Bytes) (chain later : Chain)
    (command : Command) (before written : List (FileName × Bytes)) : Prop where
  ahead : ∀ write ∈ before, Ahead chain write
  once : ((before ++ written).map Prod.fst).Nodup
  commits : Commits publisher chain later written
  advances : Advances publisher.sha256 command chain later
  known : Known publisher.sha256 manifests later.targets
  listed : ∀ files : Files FileName,
    (∀ now, command = .resign now → Listed publisher.sha256 files chain.targets) →
      Listed publisher.sha256 (files.land (before ++ written)) later.targets

instance (manifest : Bytes) (command : Command) : Decidable (command.Publishes {manifest}) := by
  unfold Command.Publishes
  split
  · exact decidable_of_iff _ Set.mem_singleton_iff.symm
  · infer_instance

/-- A command on a whole chain writes its manifest at most, or commits. Whatever it
writes as a target is a manifest under its digest. -/
theorem Command.writes_cases (distinct : Set.InjOn publisher.sha256 manifests)
    (whole : Whole publisher files chain) (known : Known publisher.sha256 manifests chain.targets)
    {command : Command} (publishes : command.Publishes manifests) :
    (∀ write ∈ command.writes publisher files, Honest publisher.sha256 manifests write) ∧
    (command.written publisher files = none ∧
        (∀ write ∈ command.writes publisher files, Ahead chain write) ∨
      ∃ before written later, command.writes publisher files = before ++ written ∧
        command.written publisher files = some ((before ++ written).map Prod.fst) ∧
        Lands publisher manifests chain later command before written) := by
  cases command with
  | publish manifest now =>
      have own := honest_target publisher.sha256 publishes
      rcases publish_cases whole manifest now with
        ⟨error, failed, only⟩ | ⟨report, later, written, ok, writes, reported, commits, lists⟩
      · refine ⟨fun write member => ?_,
          .inl ⟨by rw [Command.written, failed], fun write member => ?_⟩⟩
        · rw [only write member]
          exact own
        · rw [only write member]
          trivial
      · refine ⟨fun write member => ?_, .inr ⟨[_], written, later, writes, ?_, ?_⟩⟩
        · rw [Command.writes, writes] at member
          rcases List.mem_cons.mp member with rfl | metadata
          · exact own
          · exact commits.honest write metadata
        · rw [Command.written, ok]
          exact congrArg some (reported.trans (congrArg _ writes))
        · exact {
            ahead := fun write member => by
              rw [List.mem_singleton.mp member]
              trivial
            once := List.nodup_cons.mpr ⟨commits.target_untouched _ _, commits.once⟩
            commits
            advances := commits.advances whole lists
            known := known_singleton publishes lists
            listed := fun files _ => listed_singleton lists (by
              rw [List.singleton_append, Files.land_cons,
                Files.land_of_untouched (commits.target_untouched _ _), Function.update_self]) }
  | resign now =>
      rcases resign_cases whole now with
        ⟨error, failed, none⟩ | ⟨report, later, ok, reported, commits, targets⟩
      · refine ⟨fun write member => ?_,
          .inl ⟨by rw [Command.written, failed], fun write member => ?_⟩⟩ <;>
          · rw [Command.writes, none] at member
            cases member
      · have lists : later.targets.targets = chain.targets.targets := by rw [targets]
        refine ⟨commits.honest, .inr ⟨[], _, later, rfl, ?_, ?_⟩⟩
        · rw [Command.written, ok]
          exact congrArg some reported
        exact {
          ahead := fun _ member => nomatch member
          once := commits.once
          commits
          advances := commits.advances whole targets
          known := by
            intro path entry found
            rw [lists] at found
            exact known path entry found
          listed := fun files listed => by
            have kept := (listed now rfl).land distinct known commits.honest
            intro path there entry found
            rw [lists] at there found
            exact kept path there entry found }

/-! ## Runs -/

/-- What holds of a history whose chain in force is `chain`. -/
structure Consistent (publisher : Publisher) (manifests : Set Bytes) (initial : Chain)
    (history : History) (chain : Chain) : Prop where
  whole : Whole publisher history.files chain
  listed : Listed publisher.sha256 history.files chain.targets
  known : Known publisher.sha256 manifests chain.targets
  lists : chain.targets.targets = listing publisher.sha256 (lastPublished history.log)
  succession : Succession publisher.sha256 initial history.log chain

/-- Cutting a command off anywhere leaves a consistent history: of the chain that
was in force, or of the one that the command committed. -/
theorem Consistent.step (distinct : Set.InjOn publisher.sha256 manifests) {initial : Chain}
    {before after : History} {action : Command × Nat}
    (publishes : action.1.Publishes manifests)
    (stepped : before.step publisher action = some after)
    (consistent : Consistent publisher manifests initial before chain) :
    ∃ later, Consistent publisher manifests initial after later := by
  cases stepped
  obtain ⟨command, cut⟩ := action
  obtain ⟨honest, writes⟩ :=
    Command.writes_cases distinct consistent.whole consistent.known publishes
  have short : (∀ write ∈ (command.writes publisher before.files).take cut, Ahead chain write) →
      Consistent publisher manifests initial
        ⟨before.files.land ((command.writes publisher before.files).take cut),
          if FileName.unversioned .timestamp ∈
              ((command.writes publisher before.files).take cut).map Prod.fst then
            ⟨command, chainOf publisher
              (before.files.land ((command.writes publisher before.files).take cut))⟩ :: before.log
          else before.log⟩ chain := by
    intro ahead
    have uncommitted : FileName.unversioned .timestamp ∉
        ((command.writes publisher before.files).take cut).map Prod.fst := by
      intro written
      obtain ⟨write, taken, entry⟩ := List.mem_map.mp written
      exact (ahead write taken).not_entry entry
    rw [if_neg uncommitted]
    exact {
      whole := consistent.whole.land ahead
      listed := consistent.listed.land distinct consistent.known
        fun write taken => honest write (List.mem_of_mem_take taken)
      known := consistent.known
      lists := consistent.lists
      succession := consistent.succession }
  rcases writes with ⟨-, ahead⟩ | ⟨early, written, later, writes, -, lands⟩
  · exact ⟨chain, short fun write taken => ahead write (List.mem_of_mem_take taken)⟩
  · rcases lands.commits.cut lands.ahead cut with all | ahead
    · refine ⟨later, ?_⟩
      simp only [writes, all]
      have committed : FileName.unversioned .timestamp ∈ (early ++ written).map Prod.fst := by
        obtain ⟨targets, snapshot, timestamp, rfl⟩ := lands.commits.writes
        simp
      have whole : Whole publisher (before.files.land (early ++ written)) later := by
        rw [Files.land_append]
        exact lands.commits.whole _
      rw [if_pos committed, whole.chainOf]
      exact {
        whole
        listed := lands.listed _ fun _ _ => consistent.listed
        known := lands.known
        lists := by
          have advances := lands.advances.lists
          cases command with
          | publish manifest now => exact advances
          | resign now =>
              have same : later.targets.targets = chain.targets.targets := by rw [advances]
              rw [same, consistent.lists]
              rfl
        succession := .commit consistent.succession lands.advances }
    · rw [← writes] at ahead
      exact ⟨chain, short ahead⟩

/-! ## A workspace to run on -/

/-- A codec whose documents are numbered by their versions, each written as its
number. -/
def numbered {α : Type} [DecidableEq α] (version : α → Nat) (document : Nat → Signed α) :
    Codec α where
  canonical _ := some []
  toJson envelope :=
    if envelope = document (version envelope.signed) ∧ version envelope.signed < 256 then
      some [(version envelope.signed).toUInt8]
    else none
  fromJson bytes := bytes.head?.map fun number => document number.toNat
  reads_back envelope _ bytes _ written := by
    split at written
    · rename_i numbered
      cases written
      have small : (version envelope.signed).toUInt8.toNat = version envelope.signed := by
        simpa using numbered.2
      simp only [List.head?_cons, Option.map_some, small, ← numbered.1]
    · cases written

def demoEnvelope {α : Type} (payload : α) : Signed α := ⟨[⟨"key", "sig", .none⟩], payload, .none⟩

/-- The manifest that the runs below publish. -/
def demoManifest : Bytes := [0x61]

/-- A publisher whose first targets list nothing and whose later ones list the
manifest. -/
def demoPublisher : Publisher where
  sha256 := .leading
  reader := ⟨fun _ => some 1, fun _ => some ⟨1, 1, "abc1234", "2026-08-15T12:00:00Z", []⟩,
    fun _ => true⟩
  targets := numbered Targets.version fun version => demoEnvelope (.new version "expires"
    (listing .leading (if version ≤ 1 then none else some demoManifest)))
  snapshot := numbered Snapshot.version fun version => demoEnvelope (.new version "expires"
    (Finmap.singleton RoleName.targets.fileName (.pinning .leading version [version.toUInt8])))
  timestamp := numbered Timestamp.version fun version => demoEnvelope (.new version "expires"
    (.pinning .leading version [version.toUInt8]))
  keys _ := some ⟨"key", fun _ => "sig"⟩
  expires _ _ := some "expires"

/-- The files of a workspace that has been initialized. -/
def demoFiles : Files FileName :=
  Files.land (fun _ => none) [(.versioned .targets 1, [1]), (.versioned .snapshot 1, [1]),
    (.unversioned .timestamp, [1])]

def demoChain : Chain where
  timestamp := .new 1 "expires" (.pinning .leading 1 [1])
  snapshotPin := .pinning .leading 1 [1]
  snapshot := .new 1 "expires"
    (Finmap.singleton RoleName.targets.fileName (.pinning .leading 1 [1]))
  targetsPin := .pinning .leading 1 [1]
  targets := .new 1 "expires" ∅

theorem whole_demo : Whole demoPublisher demoFiles demoChain where
  timestamp := ⟨[1], rfl, rfl⟩
  pinsSnapshot := Finmap.lookup_singleton_eq
  snapshot := ⟨[1], rfl, rfl, rfl, rfl⟩
  snapshotVersion := rfl
  pinsTargets := Finmap.lookup_singleton_eq
  targets := ⟨[1], rfl, rfl, rfl, rfl⟩
  targetsVersion := rfl

/-- **Publication is crash consistent.** Run any commands on a workspace whose chain
is whole and lists nothing, each cut off after any number of its writes. The chain
reached from `timestamp.json` is whole and the files it lists are there; it lists
exactly the manifest of the last publish that landed; and from each commit that
landed to the next all three versions grow, a re-sign leaving the rest of the
targets as it was. SHA-256 is taken to tell the manifests published apart. -/
theorem publication_is_crash_consistent (distinct : Set.InjOn publisher.sha256 manifests)
    {start : Files FileName} {initial : Chain} (whole : Whole publisher start initial)
    (empty : initial.targets.targets = ∅) {last : History}
    (run : Runs.Moves (History.step publisher) (fun _ action => action.1.Publishes manifests)
      ⟨start, []⟩ last) :
    ∃ chain, Whole publisher last.files chain ∧
      Listed publisher.sha256 last.files chain.targets ∧
      chain.targets.targets = listing publisher.sha256 (lastPublished last.log) ∧
      Succession publisher.sha256 initial last.log chain := by
  have start : Consistent publisher manifests initial ⟨start, []⟩ initial := {
    whole
    listed := fun path there => by simp [empty] at there
    known := fun path entry found => by simp [empty] at found
    lists := empty
    succession := .start }
  obtain ⟨chain, consistent⟩ := Runs.Moves.invariant
    (fun history => ∃ chain, Consistent publisher manifests initial history chain)
    (fun _ _ _ publishes stepped ⟨_, consistent⟩ => consistent.step distinct publishes stepped)
    run ⟨initial, start⟩
  exact ⟨chain, consistent.whole, consistent.listed, consistent.lists, consistent.succession⟩

/-- A publish is cut off after two writes and run again, and a re-sign is cut off
after one. The retried publish is the last that landed. -/
theorem publication_is_crash_consistent_retried :
    ∃ last : History, lastPublished last.log = some demoManifest ∧
      ∃ chain, Whole demoPublisher last.files chain ∧
        Listed demoPublisher.sha256 last.files chain.targets ∧
        chain.targets.targets = listing demoPublisher.sha256 (lastPublished last.log) ∧
        Succession demoPublisher.sha256 demoChain last.log chain := by
  obtain ⟨last, run, found⟩ := Runs.Moves.of_check (History.step demoPublisher)
    (fun _ action => action.1.Publishes {demoManifest}) ⟨demoFiles, []⟩
    [(.publish demoManifest 0, 2), (.publish demoManifest 1, 4), (.resign 2, 1)]
    (fun last => decide (lastPublished last.log = some demoManifest)) (by decide +kernel)
  exact ⟨last, of_decide_eq_true found, publication_is_crash_consistent
    (Set.injOn_singleton _ _) whole_demo rfl run⟩

end Retrovert.Publish
