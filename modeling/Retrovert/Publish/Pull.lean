import Retrovert.Publish.Workspace

/-!
# Pulling a channel into a workspace

A pull verifies what a host serves against the workspace's root, and then writes the
three online roles in the chain's own order. The client that verifies is a parameter
(`Client`), taken to return whole chains alone.

The served chain may carry the versions of the workspace's own one and other bytes,
when the workspace has been re-signed in the meantime. A pull that is cut off has
then replaced a file that the workspace's chain still pins
(`an_interrupted_pull_breaks_the_chain`). Otherwise the workspace is left with a
whole chain wherever the pull is cut off (`interrupted_pull_leaves_a_whole_chain`).
-/

set_option autoImplicit false

namespace Retrovert.Publish

open Retrovert.Transport (ArtifactDigest)
open Retrovert.Tuf

/-- What a refresh leaves: the version and the expiry of each role that it trusts, and
the metadata captured as the client accepted it. -/
structure Refreshed where
  trusted : RoleName → Option (Nat × String)
  captured : String → Option Bytes

/-- The client: what it makes of a root, of what a host serves, and of the time. -/
structure Client (σ : Type) where
  refresh : Bytes → σ → Time → Option Refreshed

inductive PullError where
  | missingRoot (file : FileName)
  | client
  | incompleteRefresh (file : String)
deriving DecidableEq

/-- What a pull wrote. -/
structure PullReport where
  roles : List SignedRole
  written : List FileName
deriving DecidableEq

/-- The writes a pull makes, in order, and what it returns. -/
structure Pulled where
  writes : List (FileName × Bytes)
  result : Except PullError PullReport

/-- The online roles as the client trusts them. -/
def Refreshed.roles (refreshed : Refreshed) : Except PullError (List SignedRole) :=
  [RoleName.targets, .snapshot, .timestamp].mapM fun role =>
    match refreshed.trusted role with
    | none => .error (.incompleteRefresh role.fileName)
    | some (version, expires) => .ok ⟨role, version, expires⟩

/-- Write each role under its published names, up to one that was not captured. -/
def Refreshed.write (refreshed : Refreshed) :
    List SignedRole → List (FileName × Bytes) × Option PullError
  | [] => ([], none)
  | signed :: rest =>
      match refreshed.captured signed.role.fileName with
      | none => ([], some (.incompleteRefresh signed.role.fileName))
      | some bytes =>
          let (writes, failed) := refreshed.write rest
          (publication signed.role signed.version bytes ++ writes, failed)

/-- Replace the online metadata by what the host serves. -/
def pull {σ : Type} (client : Client σ) (files : Files FileName) (served : σ) (now : Time) :
    Pulled :=
  match files (.unversioned .root) with
  | none => ⟨[], .error (.missingRoot (.unversioned .root))⟩
  | some root =>
      match client.refresh root served now with
      | none => ⟨[], .error .client⟩
      | some refreshed =>
          match refreshed.roles with
          | .error error => ⟨[], .error error⟩
          | .ok roles =>
              let (writes, failed) := refreshed.write roles
              match failed with
              | some error => ⟨writes, .error error⟩
              | none => ⟨writes, .ok ⟨roles, writes.map Prod.fst⟩⟩

/-! ## What the client returns -/

/-- A file is of the length and the digest of a pin. -/
def Matches (sha256 : Bytes → ArtifactDigest) (pin : MetaFile) (bytes : Bytes) : Prop :=
  pin.length = some bytes.length ∧ pin.hashes = some (sha256Map sha256 bytes)

/-- What a refresh leaves of one role. -/
structure Captured {α : Type} (codec : Codec α) (refreshed : Refreshed) (role : RoleName)
    (version : Nat) (bytes : Bytes) (read : α) : Prop where
  trusted : ∃ expires, refreshed.trusted role = some (version, expires)
  captured : refreshed.captured role.fileName = some bytes
  payload : payload codec bytes = some read

/-- The files of the online roles as a host serves them. -/
structure Served where
  targets : Bytes
  snapshot : Bytes
  timestamp : Bytes

/-- A refresh has left a chain that is whole. -/
structure Verified (publisher : Publisher) (refreshed : Refreshed) (chain : Chain)
    (files : Served) : Prop where
  timestamp : Captured publisher.timestamp refreshed .timestamp chain.timestamp.version
    files.timestamp chain.timestamp
  pinsSnapshot : chain.timestamp.pins.lookup RoleName.snapshot.fileName = some chain.snapshotPin
  snapshot : Captured publisher.snapshot refreshed .snapshot chain.snapshotPin.version
    files.snapshot chain.snapshot
  snapshotVersion : chain.snapshot.version = chain.snapshotPin.version
  snapshotMatches : Matches publisher.sha256 chain.snapshotPin files.snapshot
  pinsTargets : chain.snapshot.pins.lookup RoleName.targets.fileName = some chain.targetsPin
  targets : Captured publisher.targets refreshed .targets chain.targetsPin.version
    files.targets chain.targets
  targetsVersion : chain.targets.version = chain.targetsPin.version
  targetsMatches : Matches publisher.sha256 chain.targetsPin files.targets

/-- The client returns chains alone that are whole. -/
def Client.ReturnsWhole {σ : Type} (publisher : Publisher) (client : Client σ) : Prop :=
  ∀ root served now refreshed, client.refresh root served now = some refreshed →
    ∃ chain files, Verified publisher refreshed chain files

/-- The writes of a pull: the targets, the snapshot, and the entry point last. -/
def Served.writes (files : Served) (chain : Chain) : List (FileName × Bytes) :=
  [(.versioned .targets chain.targetsPin.version, files.targets),
    (.versioned .snapshot chain.snapshotPin.version, files.snapshot),
    (.unversioned .timestamp, files.timestamp)]

variable {publisher : Publisher} {files : Files FileName} {chain served : Chain}
  {refreshed : Refreshed} {fetched : Served}

theorem Verified.write (verified : Verified publisher refreshed served fetched) :
    ∃ roles, refreshed.roles = .ok roles ∧
      refreshed.write roles = (fetched.writes served, none) := by
  obtain ⟨expires, trusted⟩ := verified.targets.trusted
  obtain ⟨expires', trusted'⟩ := verified.snapshot.trusted
  obtain ⟨expires'', trusted''⟩ := verified.timestamp.trusted
  let roles : List SignedRole := [⟨.targets, served.targetsPin.version, expires⟩,
    ⟨.snapshot, served.snapshotPin.version, expires'⟩,
    ⟨.timestamp, served.timestamp.version, expires''⟩]
  refine ⟨roles, ?_, ?_⟩
  · simp only [Refreshed.roles, List.mapM_cons, List.mapM_nil, trusted, trusted', trusted'']
    rfl
  · simp only [roles, Refreshed.write, verified.targets.captured, verified.snapshot.captured,
      verified.timestamp.captured]
    rfl

/-- With all its writes landed the served chain is the workspace's. -/
theorem Verified.whole (verified : Verified publisher refreshed served fetched)
    (files : Files FileName) : Whole publisher (files.land (fetched.writes served)) served where
  timestamp := ⟨fetched.timestamp, by simp [Served.writes], verified.timestamp.payload⟩
  pinsSnapshot := verified.pinsSnapshot
  snapshot := ⟨fetched.snapshot, by simp [Served.writes], verified.snapshotMatches.1,
    verified.snapshotMatches.2, verified.snapshot.payload⟩
  snapshotVersion := verified.snapshotVersion
  pinsTargets := verified.pinsTargets
  targets := ⟨fetched.targets, by simp [Served.writes], verified.targetsMatches.1,
    verified.targetsMatches.2, verified.targets.payload⟩
  targetsVersion := verified.targetsVersion

/-! ## Cuts -/

/-- Whatever the served chain writes over a file that the workspace's one pins matches
that pin. -/
def Spares (sha256 : Bytes → ArtifactDigest) (chain served : Chain) (fetched : Served) : Prop :=
  (served.targetsPin.version = chain.targetsPin.version →
      Matches sha256 chain.targetsPin fetched.targets) ∧
    (served.snapshotPin.version = chain.snapshotPin.version →
      Matches sha256 chain.snapshotPin fetched.snapshot)

/-- A chain that is whole in files of the same entry point is the same down to its pin
on the snapshot. -/
theorem Whole.same_entry {later : Files FileName} {chain' : Chain}
    (whole : Whole publisher files chain) (whole' : Whole publisher later chain')
    (same : later (.unversioned .timestamp) = files (.unversioned .timestamp)) :
    chain'.timestamp = chain.timestamp ∧ chain'.snapshotPin = chain.snapshotPin := by
  obtain ⟨bytes, found, read⟩ := whole.timestamp
  obtain ⟨bytes', found', read'⟩ := whole'.timestamp
  rw [same, found] at found'
  cases found'
  rw [read] at read'
  have entry := Option.some.inj read'
  have pins := whole'.pinsSnapshot
  rw [← entry, whole.pinsSnapshot] at pins
  exact ⟨entry.symm, (Option.some.inj pins).symm⟩

/-- And down to its pin on the targets, where they have the same snapshot too. -/
theorem Whole.same_snapshot {later : Files FileName} {chain' : Chain}
    (whole : Whole publisher files chain) (whole' : Whole publisher later chain')
    (same : later (.unversioned .timestamp) = files (.unversioned .timestamp))
    (same' : later (.versioned .snapshot chain.snapshotPin.version) =
      files (.versioned .snapshot chain.snapshotPin.version)) :
    chain'.targetsPin = chain.targetsPin := by
  obtain ⟨-, pin⟩ := whole.same_entry whole' same
  obtain ⟨bytes, found, -, -, read⟩ := whole.snapshot
  obtain ⟨bytes', found', -, -, read'⟩ := whole'.snapshot
  rw [pin, same', found] at found'
  cases found'
  rw [read] at read'
  have pins := whole'.pinsTargets
  rw [← Option.some.inj read', whole.pinsTargets] at pins
  exact (Option.some.inj pins).symm

/-- Targets that are not the pinned ones, or match their pin, leave a chain whole. -/
theorem Whole.write_targets (whole : Whole publisher files chain)
    (verified : Verified publisher refreshed served fetched)
    (spares : served.targetsPin.version = chain.targetsPin.version →
      Matches publisher.sha256 chain.targetsPin fetched.targets) :
    ∃ targets, Whole publisher (Function.update files
      (.versioned .targets served.targetsPin.version) (some fetched.targets))
        { chain with targets } := by
  by_cases same : served.targetsPin.version = chain.targetsPin.version
  · obtain ⟨length, hashes⟩ := spares same
    obtain ⟨bytes, found, read⟩ := whole.timestamp
    exact ⟨served.targets, { whole with
      timestamp := ⟨bytes, by rw [Function.update_of_ne (by simp), found], read⟩
      snapshot := whole.snapshot.congr (Function.update_of_ne (by simp) ..)
      targets := ⟨fetched.targets, by rw [same, Function.update_self], length, hashes,
        verified.targets.payload⟩
      targetsVersion := verified.targetsVersion.trans same }⟩
  · have other : FileName.versioned .targets chain.targetsPin.version ≠
        .versioned .targets served.targetsPin.version := by
      simpa using Ne.symm same
    exact ⟨chain.targets, whole.congr (Function.update_of_ne (by simp) ..)
      (Function.update_of_ne (by simp) ..) (Function.update_of_ne other ..)⟩

/-- **A cut pull leaves a whole chain** exactly when it writes nothing over a pinned
file that does not match the pin. -/
theorem Verified.cut_iff (verified : Verified publisher refreshed served fetched)
    (whole : Whole publisher files chain) :
    (∀ cut, ∃ later, Whole publisher (files.land ((fetched.writes served).take cut)) later) ↔
      Spares publisher.sha256 chain served fetched := by
  constructor
  · intro left
    refine ⟨fun same => ?_, fun same => ?_⟩
    · obtain ⟨later, whole'⟩ := left 1
      have entry : files.land ((fetched.writes served).take 1) (.unversioned .timestamp) =
          files (.unversioned .timestamp) := by simp [Served.writes]
      have pin := whole.same_snapshot whole' entry (by simp [Served.writes])
      obtain ⟨bytes, found, length, hashes, -⟩ := whole'.targets
      rw [pin] at found length hashes
      simp only [Served.writes, List.take_succ_cons, List.take_zero, Files.land_cons,
        Files.land_nil, same, Function.update_self] at found
      cases found
      exact ⟨length, hashes⟩
    · obtain ⟨later, whole'⟩ := left 2
      have entry : files.land ((fetched.writes served).take 2) (.unversioned .timestamp) =
          files (.unversioned .timestamp) := by simp [Served.writes]
      obtain ⟨-, pin⟩ := whole.same_entry whole' entry
      obtain ⟨bytes, found, length, hashes, -⟩ := whole'.snapshot
      rw [pin] at found length hashes
      simp only [Served.writes, List.take_succ_cons, List.take_zero, Files.land_cons,
        Files.land_nil, same, Function.update_self] at found
      cases found
      exact ⟨length, hashes⟩
  · rintro ⟨sparesTargets, sparesSnapshot⟩ cut
    rcases cut with _ | _ | _ | more
    · exact ⟨chain, whole⟩
    · obtain ⟨targets, left⟩ := whole.write_targets verified sparesTargets
      exact ⟨_, left⟩
    · obtain ⟨targets, left⟩ := whole.write_targets verified sparesTargets
      by_cases same : served.snapshotPin.version = chain.snapshotPin.version
      · obtain ⟨length, hashes⟩ := sparesSnapshot same
        obtain ⟨bytes, found, read⟩ := whole.timestamp
        refine ⟨{ served with timestamp := chain.timestamp, snapshotPin := chain.snapshotPin }, ?_⟩
        exact {
          timestamp := ⟨bytes, by simp [Served.writes, found], read⟩
          pinsSnapshot := whole.pinsSnapshot
          snapshot := ⟨fetched.snapshot, by simp [Served.writes, same], length, hashes,
            verified.snapshot.payload⟩
          snapshotVersion := verified.snapshotVersion.trans same
          pinsTargets := verified.pinsTargets
          targets := ⟨fetched.targets, by simp [Served.writes], verified.targetsMatches.1,
            verified.targetsMatches.2, verified.targets.payload⟩
          targetsVersion := verified.targetsVersion }
      · have other : FileName.versioned .snapshot chain.snapshotPin.version ≠
            .versioned .snapshot served.snapshotPin.version := by
          simpa using Ne.symm same
        have landed : files.land ((fetched.writes served).take (0 + 1 + 1)) =
            Function.update (Function.update files (.versioned .targets
              served.targetsPin.version) (some fetched.targets))
                (.versioned .snapshot served.snapshotPin.version) (some fetched.snapshot) := rfl
        rw [landed]
        exact ⟨_, left.congr (Function.update_of_ne (by simp) ..)
          (Function.update_of_ne other ..) (Function.update_of_ne (by simp) ..)⟩
    · have all : (fetched.writes served).take (more + 1 + 1 + 1) = fetched.writes served :=
        List.take_of_length_le (by simp [Served.writes])
      rw [all]
      exact ⟨served, verified.whole files⟩

/-! ## Runs -/

/-- A command on a workspace, or a pull of what a host serves. -/
inductive Job (σ : Type) where
  | run (command : Command)
  | pull (served : σ) (now : Time)

section Runs

variable {σ : Type} {client : Client σ}

def Job.writes (publisher : Publisher) (client : Client σ) (files : Files FileName) :
    Job σ → List (FileName × Bytes)
  | .run command => command.writes publisher files
  | .pull served now => (Publish.pull client files served now).writes

/-- Run a job and cut it off after the given number of its writes. -/
def Job.step (publisher : Publisher) (client : Client σ) (files : Files FileName)
    (action : Job σ × Nat) : Option (Files FileName) :=
  some (files.land ((action.1.writes publisher client files).take action.2))

/-- What the host serves leaves alone, or matches, the files that the workspace's chain
pins. -/
def SparesPinned (publisher : Publisher) (client : Client σ) (files : Files FileName)
    (served : σ) (now : Time) : Prop :=
  ∀ root refreshed chain verified fetched, files (.unversioned .root) = some root →
    client.refresh root served now = some refreshed → Whole publisher files chain →
      Verified publisher refreshed verified fetched →
        Spares publisher.sha256 chain verified fetched

/-- Every pull of a run does. -/
def PullsSpare (publisher : Publisher) (client : Client σ) (files : Files FileName)
    (action : Job σ × Nat) : Prop :=
  match action.1 with
  | .run _ => True
  | .pull served now => SparesPinned publisher client files served now

/-- A pull writes nothing, or what its refresh verified. -/
theorem pull_cases (returnsWhole : client.ReturnsWhole publisher) (files : Files FileName)
    (served : σ) (now : Time) :
    (pull client files served now).writes = [] ∧
        (∀ root, files (.unversioned .root) = some root → client.refresh root served now = none) ∨
      ∃ root refreshed, files (.unversioned .root) = some root ∧
        client.refresh root served now = some refreshed ∧
        (∃ chain fetched, Verified publisher refreshed chain fetched) ∧
        ∀ chain fetched, Verified publisher refreshed chain fetched →
          (pull client files served now).writes = fetched.writes chain := by
  unfold pull
  cases rooted : files (.unversioned .root) with
  | none => exact .inl ⟨rfl, fun _ some => nomatch some⟩
  | some root =>
      cases refreshed : client.refresh root served now with
      | none =>
          refine .inl ⟨by simp only [refreshed], fun _ some => ?_⟩
          cases some
          exact refreshed
      | some trusted =>
          refine .inr ⟨root, trusted, rfl, refreshed, returnsWhole _ _ _ _ refreshed, ?_⟩
          intro chain fetched verified
          obtain ⟨roles, read, written⟩ := verified.write
          simp only [refreshed, read, written]

/-- A pull that is cut off leaves a whole chain exactly when it spares the pinned
files. -/
theorem pull_cut_iff (returnsWhole : client.ReturnsWhole publisher)
    (whole : Whole publisher files chain) (served : σ) (now : Time) :
    (∀ cut, ∃ later,
        Whole publisher (files.land ((pull client files served now).writes.take cut)) later) ↔
      SparesPinned publisher client files served now := by
  rcases pull_cases returnsWhole files served now with
    ⟨none, refused⟩ | ⟨root, refreshed, rooted, accepted, ⟨verified, fetched, isVerified⟩, writes⟩
  · rw [none]
    refine iff_of_true (fun cut => ⟨chain, by rw [List.take_nil]; exact whole⟩) ?_
    intro root refreshed _ _ _ rooted accepted
    rw [refused root rooted] at accepted
    cases accepted
  · constructor
    · intro left root' refreshed' chain' verified' fetched' rooted' accepted' whole' isVerified'
      rw [rooted] at rooted'
      cases rooted'
      rw [accepted] at accepted'
      cases accepted'
      rw [writes verified' fetched' isVerified'] at left
      exact (isVerified'.cut_iff whole').mp left
    · intro spares
      rw [writes verified fetched isVerified]
      exact (isVerified.cut_iff whole).mpr
        (spares root refreshed chain verified fetched rooted accepted whole isVerified)

/-- A command that is cut off leaves a whole chain. -/
theorem Command.whole_of_cut (whole : Whole publisher files chain) (command : Command) (cut : Nat) :
    ∃ later, Whole publisher (files.land ((command.writes publisher files).take cut)) later := by
  have committed : ∀ (before : List (FileName × Bytes)) {written : List (FileName × Bytes)}
      {later : Chain}, Commits publisher chain later written →
        (∀ write ∈ before, Ahead chain write) →
        ∃ later, Whole publisher (files.land ((before ++ written).take cut)) later := by
    intro before written later commits ahead
    rcases commits.cut ahead cut with all | short
    · rw [all, Files.land_append]
      exact ⟨later, commits.whole _⟩
    · exact ⟨chain, whole.land short⟩
  cases command with
  | publish manifest now =>
      rcases publish_cases whole manifest now with
        ⟨-, -, only⟩ | ⟨-, later, written, -, writes, -, commits, -⟩
      · refine ⟨chain, whole.land fun write taken => ?_⟩
        rw [only write (List.mem_of_mem_take taken)]
        trivial
      · rw [Command.writes, writes]
        refine committed [_] commits fun write member => ?_
        rw [List.mem_singleton.mp member]
        trivial
  | resign now =>
      rcases resign_cases whole now with ⟨-, -, none⟩ | ⟨-, later, -, -, commits, -⟩
      · rw [Command.writes, none, List.take_nil]
        exact ⟨chain, whole⟩
      · exact committed [] commits fun _ member => by cases member

/-- **An interrupted pull leaves a whole chain** exactly when it spares the pinned
files. In every run of publishes, re-signs and pulls, each cut off anywhere, whose
pulls do so, the workspace's chain is whole. From there a pull that is refused writes
nothing; and every cut of a pull leaves a whole chain if and only if whatever the
host serves under a pinned version matches the pin. -/
theorem interrupted_pull_leaves_a_whole_chain (returnsWhole : client.ReturnsWhole publisher)
    {start last : Files FileName} {initial : Chain} (whole : Whole publisher start initial)
    (run : Runs.Moves (Job.step publisher client) (PullsSpare publisher client) start last)
    (served : σ) (now : Time) :
    (∃ chain, Whole publisher last chain) ∧
      (∀ root, last (.unversioned .root) = some root → client.refresh root served now = none →
        (pull client last served now).writes = []) ∧
      ((∀ cut, ∃ chain,
          Whole publisher (last.land ((pull client last served now).writes.take cut)) chain) ↔
        SparesPinned publisher client last served now) := by
  obtain ⟨chain, whole⟩ := run.invariant (fun files => ∃ chain, Whole publisher files chain)
    (fun files action _ spares stepped ⟨chain, whole⟩ => by
      cases stepped
      obtain ⟨job, cut⟩ := action
      cases job with
      | run command => exact command.whole_of_cut whole cut
      | pull served now => exact (pull_cut_iff returnsWhole whole served now).mpr spares cut)
    ⟨initial, whole⟩
  refine ⟨⟨chain, whole⟩, fun root rooted refused => ?_, pull_cut_iff returnsWhole whole served now⟩
  unfold pull
  rw [rooted]
  simp only [refused]

end Runs

/-! ## A channel that has been re-signed twice -/

/-- Documents that are read and not written. -/
def readOnly {α : Type} (document : UInt8 → α) : Codec α where
  canonical _ := none
  toJson _ := none
  fromJson bytes := bytes.head?.map fun number => demoEnvelope (document number)
  reads_back _ _ _ canonical := nomatch canonical

/-- A reader of chains of version two, which differ in their bytes alone. -/
def twiceSigned : Publisher where
  sha256 := .leading
  reader := demoPublisher.reader
  targets := readOnly fun _ => .new 2 "expires" ∅
  snapshot := readOnly fun number => .new 2 "expires"
    (Finmap.singleton RoleName.targets.fileName (.pinning .leading 2 [number]))
  timestamp := readOnly fun number => .new 2 "expires" (.pinning .leading 2 [number])
  keys _ := none
  expires _ _ := none

/-- The chain whose three files hold one number. -/
def signedChain (number : UInt8) : Chain where
  timestamp := .new 2 "expires" (.pinning .leading 2 [number])
  snapshotPin := .pinning .leading 2 [number]
  snapshot := .new 2 "expires"
    (Finmap.singleton RoleName.targets.fileName (.pinning .leading 2 [number]))
  targetsPin := .pinning .leading 2 [number]
  targets := .new 2 "expires" ∅

/-- A client that accepts those chains. -/
def signedClient : Client UInt8 where
  refresh _ number _ := some {
    trusted := fun role => if role = .root then none else some (2, "expires")
    captured := fun name => if name = RoleName.root.fileName then none else some [number] }

theorem verified_signed (number : UInt8) (root : Bytes) (now : Time) {refreshed : Refreshed}
    (returned : signedClient.refresh root number now = some refreshed) :
    Verified twiceSigned refreshed (signedChain number) ⟨[number], [number], [number]⟩ := by
  cases returned
  exact {
    timestamp := ⟨⟨_, rfl⟩, rfl, rfl⟩
    pinsSnapshot := Finmap.lookup_singleton_eq
    snapshot := ⟨⟨_, rfl⟩, rfl, rfl⟩
    snapshotVersion := rfl
    snapshotMatches := ⟨rfl, rfl⟩
    pinsTargets := Finmap.lookup_singleton_eq
    targets := ⟨⟨_, rfl⟩, rfl, rfl⟩
    targetsVersion := rfl
    targetsMatches := ⟨rfl, rfl⟩ }

theorem signedClient_returnsWhole : signedClient.ReturnsWhole twiceSigned :=
  fun root number now _ returned => ⟨signedChain number, _, verified_signed number root now returned⟩

/-- A workspace that holds one of the chains. -/
def signedFiles (number : UInt8) : Files FileName :=
  Files.land (fun _ => none) [(.unversioned .root, []), (.versioned .targets 2, [number]),
    (.versioned .snapshot 2, [number]), (.unversioned .timestamp, [number])]

theorem whole_signed (number : UInt8) :
    Whole twiceSigned (signedFiles number) (signedChain number) where
  timestamp := ⟨[number], rfl, rfl⟩
  pinsSnapshot := Finmap.lookup_singleton_eq
  snapshot := ⟨[number], rfl, rfl, rfl, rfl⟩
  snapshotVersion := rfl
  pinsTargets := Finmap.lookup_singleton_eq
  targets := ⟨[number], rfl, rfl, rfl, rfl⟩
  targetsVersion := rfl

/-- A pull of what the workspace has already, cut off after one write. -/
theorem interrupted_pull_leaves_a_whole_chain_unchanged : ∃ chain, Whole twiceSigned
    ((signedFiles 1).land ((pull signedClient (signedFiles 1) 1 0).writes.take 1)) chain := by
  have spares : SparesPinned twiceSigned signedClient (signedFiles 1) 1 0 := by
    intro root refreshed chain verified fetched _ accepted whole isVerified
    cases accepted
    obtain ⟨-, snapshotPin⟩ := (whole_signed 1).same_entry whole rfl
    have targetsPin := (whole_signed 1).same_snapshot whole rfl rfl
    have targets : some [1] = some fetched.targets := isVerified.targets.captured
    have snapshot : some [1] = some fetched.snapshot := isVerified.snapshot.captured
    rw [Spares, targetsPin, snapshotPin, ← Option.some.inj targets, ← Option.some.inj snapshot]
    exact ⟨fun _ => ⟨rfl, rfl⟩, fun _ => ⟨rfl, rfl⟩⟩
  exact (interrupted_pull_leaves_a_whole_chain signedClient_returnsWhole (whole_signed 1)
    (.refl _) 1 0).2.2.mpr spares 1

/-- The workspace and the host have signed version two apart. A pull is cut off after
its first write: the workspace's snapshot pins targets that are gone. -/
theorem an_interrupted_pull_breaks_the_chain :
    ¬∀ (publisher : Publisher) (client : Client UInt8), client.ReturnsWhole publisher →
      ∀ files chain served now, Whole publisher files chain →
        ∀ cut, ∃ later,
          Whole publisher (files.land ((pull client files served now).writes.take cut)) later := by
  intro always
  have left := always twiceSigned signedClient signedClient_returnsWhole (signedFiles 1)
    (signedChain 1) 2 0 (whole_signed 1)
  have spares := (pull_cut_iff signedClient_returnsWhole (whole_signed 1) 2 0).mp left _ _ _ _ _ rfl
    rfl (whole_signed 1) (verified_signed 2 [] 0 rfl)
  -- The versions agree; comparing the pins themselves would hash both bodies.
  obtain ⟨-, hashes⟩ := spares.1 (show 2 = 2 from rfl)
  have same : ArtifactDigest.leading [1] = ArtifactDigest.leading [2] :=
    sha256Map_injective (Option.some.inj hashes)
  revert same
  decide

end Retrovert.Publish
