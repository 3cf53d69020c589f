import Retrovert.Publish.Workspace

/-!
# The channel on the release host

A channel is the assets of one rolling release, and each generation has a release
of its own. A command that succeeded in the workspace is followed by a push of
what it wrote, in the order it was written; a publish puts the manifest on the
generation's release first. A push that is cut off has put a prefix.

A push sends only what its own command wrote, while the chain it commits lists
what an earlier publish wrote. A re-sign after a publish whose push was cut off
before its manifest therefore puts a chain on the host that lists a file the host
does not have (`resign_outruns_its_manifest`). Otherwise the host's chain is whole
and its files are there (`channel_is_always_whole`).
-/

set_option autoImplicit false

namespace Retrovert.Publish

open Retrovert.Transport (ArtifactDigest)
open Retrovert.Tuf

/-- The assets of the rolling metadata release, and the manifest on the release of
each generation. -/
structure Host where
  metadata : Files FileName
  generations : Nat → Option Bytes

/-- One asset put on a release. -/
inductive Put where
  | generation (version : Nat) (manifest : Bytes)
  | metadata (name : FileName) (bytes : Bytes)

def Host.put (host : Host) : Put → Host
  | .generation version manifest =>
      { host with generations := Function.update host.generations version (some manifest) }
  | .metadata name bytes =>
      { host with metadata := Function.update host.metadata name (some bytes) }

/-- The host after the puts, in order. -/
def Host.land (host : Host) (puts : List Put) : Host := puts.foldl Host.put host

/-- Read each file and put it on the metadata release, up to one that cannot be
read. -/
def pushFiles (files : Files FileName) : List FileName → List Put
  | [] => []
  | name :: rest =>
      match files name with
      | none => []
      | some bytes => .metadata name bytes :: pushFiles files rest

/-- The push of a re-sign. -/
def pushMetadata (files : Files FileName) (report : ResignReport) : List Put :=
  pushFiles files report.written

/-- The push of a generation: the manifest onto its own release, then the files
that name it. -/
def pushGeneration (files : Files FileName) (report : PublishReport) (manifest : Bytes) :
    List Put :=
  .generation report.version manifest :: pushFiles files report.written

/-- A workspace and the host it publishes to. -/
structure Remote where
  workspace : Files FileName
  host : Host

/-- What a command puts on the host, when its files are in the workspace. -/
def Command.pushes (publisher : Publisher) (files : Files FileName) (command : Command) :
    List Put :=
  let landed := files.land (command.writes publisher files)
  match command with
  | .publish manifest now =>
      match (Publish.publish publisher files manifest now).result with
      | .ok report => pushGeneration landed report manifest
      | .error _ => []
  | .resign now =>
      match (Publish.resign publisher files now).result with
      | .ok report => pushMetadata landed report
      | .error _ => []

/-- Run a command, and cut its push off after the given number of puts. -/
def Remote.step (publisher : Publisher) (remote : Remote) (action : Command × Nat) :
    Option Remote :=
  some {
    workspace := remote.workspace.land (action.1.writes publisher remote.workspace)
    host := remote.host.land ((action.1.pushes publisher remote.workspace).take action.2) }

/-! ## What a cut push leaves on the metadata release -/

/-- What the puts write to the metadata release. -/
def metadataWrites (puts : List Put) : List (FileName × Bytes) :=
  puts.filterMap fun put =>
    match put with
    | .generation _ _ => none
    | .metadata name bytes => some (name, bytes)

theorem metadata_land (host : Host) (puts : List Put) :
    (host.land puts).metadata = host.metadata.land (metadataWrites puts) := by
  induction puts generalizing host with
  | nil => rfl
  | cons put rest ih =>
      show ((host.put put).land rest).metadata = _
      rw [ih]
      cases put <;> rfl

/-- The files of a command that are read back are put as they were written. -/
theorem pushFiles_written (files : Files FileName) {writes : List (FileName × Bytes)}
    (once : (writes.map Prod.fst).Nodup) {some : List (FileName × Bytes)} (subset : some ⊆ writes) :
    pushFiles (files.land writes) (some.map Prod.fst) =
      some.map fun write => .metadata write.1 write.2 := by
  induction some with
  | nil => rfl
  | cons write rest ih =>
      have landed : files.land writes write.1 = _ :=
        Files.land_of_mem once (subset List.mem_cons_self)
      simp only [List.map_cons, pushFiles, landed]
      rw [ih fun _ member => subset (List.mem_cons_of_mem _ member)]

theorem metadataWrites_take (writes : List (FileName × Bytes)) (cut : Nat) :
    metadataWrites ((writes.map fun write => Put.metadata write.1 write.2).take cut) =
      writes.take cut := by
  rw [← List.map_take, metadataWrites, List.filterMap_map]
  exact List.filterMap_some

variable {publisher : Publisher} {manifests : Set Bytes} {files : Files FileName}
  {chain : Chain} {command : Command}

/-- A command that fails is not pushed. -/
theorem pushes_of_failed (failed : command.written publisher files = none) :
    command.pushes publisher files = [] := by
  cases command with
  | publish manifest now =>
      cases result : (publish publisher files manifest now).result with
      | ok report => simp [Command.written, result] at failed
      | error error => simp [Command.pushes, result]
  | resign now =>
      cases result : (resign publisher files now).result with
      | ok report => simp [Command.written, result] at failed
      | error error => simp [Command.pushes, result]

/-- A cut push has put a prefix of what its command wrote on the metadata release,
and that of a re-sign is as long as the cut. -/
theorem metadata_pushed {writes : List (FileName × Bytes)}
    (wrote : command.writes publisher files = writes)
    (reported : command.written publisher files = some (writes.map Prod.fst))
    (once : (writes.map Prod.fst).Nodup) (cut : Nat) :
    ∃ taken, metadataWrites ((command.pushes publisher files).take cut) = writes.take taken ∧
      ∀ now, command = .resign now → taken = cut := by
  have read := pushFiles_written files once (List.Subset.refl writes)
  cases command with
  | publish manifest now =>
      cases result : (publish publisher files manifest now).result with
      | error error => simp [Command.written, result] at reported
      | ok report =>
          have written : report.written = writes.map Prod.fst := by
            simpa [Command.written, result] using reported
          simp only [Command.pushes, result, wrote, pushGeneration, written, read]
          refine ⟨cut - 1, ?_, fun _ resign => by cases resign⟩
          cases cut with
          | zero => rfl
          | succ cut => exact metadataWrites_take writes cut
  | resign now =>
      cases result : (resign publisher files now).result with
      | error error => simp [Command.written, result] at reported
      | ok report =>
          have written : report.written = writes.map Prod.fst := by
            simpa [Command.written, result] using reported
          simp only [Command.pushes, result, wrote, pushMetadata, written, read]
          exact ⟨cut, metadataWrites_take writes cut, fun _ _ => rfl⟩

/-! ## Runs -/

/-- What holds of a workspace and a host whose chains are `ahead` and `served`. -/
structure Serving (publisher : Publisher) (manifests : Set Bytes) (remote : Remote)
    (ahead served : Chain) : Prop where
  workspace : Whole publisher remote.workspace ahead
  known : Known publisher.sha256 manifests ahead.targets
  host : Whole publisher remote.host.metadata served
  listed : Listed publisher.sha256 remote.host.metadata served.targets
  servedKnown : Known publisher.sha256 manifests served.targets
  snapshotBehind : served.snapshotPin.version ≤ ahead.snapshotPin.version
  targetsBehind : served.targetsPin.version ≤ ahead.targetsPin.version

/-- The condition on a step. A publish is of one of the manifests; a re-sign whose
push gets as far as its third put, the timestamp, finds what its workspace's
targets list among the host's metadata assets. -/
def Delivered (publisher : Publisher) (manifests : Set Bytes) (remote : Remote)
    (action : Command × Nat) : Prop :=
  match action with
  | (.publish manifest _, _) => manifest ∈ manifests
  | (.resign _, cut) => 2 < cut → ∀ chain ∈ chainOf publisher remote.workspace,
      Listed publisher.sha256 remote.host.metadata chain.targets

theorem Ahead.mono {served : Chain}
    (snapshot : served.snapshotPin.version ≤ chain.snapshotPin.version)
    (targets : served.targetsPin.version ≤ chain.targetsPin.version)
    {write : FileName × Bytes} (ahead : Ahead chain write) : Ahead served write := by
  obtain ⟨name, bytes⟩ := write
  match name, ahead with
  | .target _ _, _ => trivial
  | .versioned .targets _, ahead => exact Nat.lt_of_le_of_lt targets ahead
  | .versioned .snapshot _, ahead => exact Nat.lt_of_le_of_lt snapshot ahead

/-- A command and its push, cut off anywhere, leave a host that serves a whole
chain. -/
theorem Serving.step (distinct : Set.InjOn publisher.sha256 manifests) {before after : Remote}
    {action : Command × Nat} (delivered : Delivered publisher manifests before action)
    (stepped : before.step publisher action = some after) {served : Chain}
    (serving : Serving publisher manifests before chain served) :
    ∃ ahead served, Serving publisher manifests after ahead served := by
  cases stepped
  obtain ⟨command, cut⟩ := action
  have publishes : command.Publishes manifests := by
    cases command with
    | publish => exact delivered
    | resign => trivial
  obtain ⟨honest, writes⟩ :=
    Command.writes_cases distinct serving.workspace serving.known publishes
  rcases writes with ⟨failed, ahead⟩ | ⟨early, written, later, wrote, reported, lands⟩
  · refine ⟨chain, served, { serving with
      workspace := serving.workspace.land ahead, host := ?_, listed := ?_ }⟩
    all_goals
      rw [pushes_of_failed failed, List.take_nil]
    · exact serving.host
    · exact serving.listed
  · have workspace : Whole publisher (before.workspace.land (early ++ written)) later := by
      rw [Files.land_append]
      exact lands.commits.whole _
    have newer : later.snapshotPin.version = chain.snapshotPin.version + 1 ∧
        later.targetsPin.version = chain.targetsPin.version + 1 :=
      ⟨lands.commits.snapshotVersion, lands.commits.targetsVersion⟩
    obtain ⟨taken, pushed, resigned⟩ := metadata_pushed wrote reported lands.once cut
    rcases lands.commits.cut lands.ahead taken with all | ahead
    · refine ⟨later, later, ?_⟩
      have listed : Listed publisher.sha256 (before.host.metadata.land (early ++ written))
          later.targets := by
        refine lands.listed _ fun now resign => ?_
        subst resign
        refine delivered ?_ chain serving.workspace.chainOf
        -- The commit point landed, so the push got past its third put.
        obtain ⟨targets, snapshot, timestamp, rfl⟩ := lands.commits.writes
        have long := congrArg List.length all
        rw [← resigned now rfl]
        simp only [List.length_take, List.length_append, List.length_cons, List.length_nil] at long
        omega
      exact {
        workspace := wrote ▸ workspace
        known := lands.known
        host := by
          rw [metadata_land, pushed, all, Files.land_append]
          exact lands.commits.whole _
        listed := by
          rw [metadata_land, pushed, all]
          exact listed
        servedKnown := lands.known
        snapshotBehind := le_rfl
        targetsBehind := le_rfl }
    · refine ⟨later, served, ?_⟩
      have behind : ∀ write ∈ (early ++ written).take taken, Ahead served write :=
        fun write member => (ahead write member).mono serving.snapshotBehind serving.targetsBehind
      rw [wrote] at honest
      exact {
        workspace := wrote ▸ workspace
        known := lands.known
        host := by
          rw [metadata_land, pushed]
          exact serving.host.land behind
        listed := by
          rw [metadata_land, pushed]
          exact serving.listed.land distinct serving.servedKnown
            fun write member => honest write (List.mem_of_mem_take member)
        servedKnown := serving.servedKnown
        snapshotBehind := by
          have := serving.snapshotBehind
          omega
        targetsBehind := by
          have := serving.targetsBehind
          omega }

/-- **The channel is always whole.** Start from a host that serves a whole chain and
a workspace equal to it. As long as a re-sign's timestamp is put only where the
manifest it lists has been delivered, the host serves a whole chain and every file
it lists, wherever the pushes are cut off. -/
theorem channel_is_always_whole (distinct : Set.InjOn publisher.sha256 manifests)
    {start : Remote} {initial : Chain} (workspace : Whole publisher start.workspace initial)
    (host : Whole publisher start.host.metadata initial)
    (listed : Listed publisher.sha256 start.host.metadata initial.targets)
    (known : Known publisher.sha256 manifests initial.targets) {last : Remote}
    (run : Runs.Moves (Remote.step publisher) (Delivered publisher manifests) start last) :
    ∃ chain, Whole publisher last.host.metadata chain ∧
      Listed publisher.sha256 last.host.metadata chain.targets := by
  have serving : Serving publisher manifests start initial initial :=
    ⟨workspace, known, host, listed, known, le_rfl, le_rfl⟩
  obtain ⟨ahead, served, serving⟩ := Runs.Moves.invariant
    (fun remote => ∃ ahead served, Serving publisher manifests remote ahead served)
    (fun _ _ _ delivered stepped ⟨_, _, serving⟩ => serving.step distinct delivered stepped)
    run ⟨initial, initial, serving⟩
  exact ⟨served, serving.host, serving.listed⟩

instance (manifest : Bytes) (remote : Remote) :
    (action : Command × Nat) → Decidable (Delivered publisher {manifest} remote action)
  | (.publish published now, _) =>
      inferInstanceAs (Decidable ((Command.publish published now).Publishes {manifest}))
  | (.resign _, cut) => inferInstanceAs (Decidable (2 < cut →
      ∀ chain ∈ chainOf publisher remote.workspace,
        Listed publisher.sha256 remote.host.metadata chain.targets))

/-- A host that serves an initialized channel, and the workspace it came from. -/
def demoRemote : Remote := ⟨demoFiles, demoFiles, fun _ => none⟩

/-- A publish whose push stops before the snapshot, and a re-sign that goes
through: the host lists the manifest, and has it. -/
theorem channel_is_always_whole_resigned :
    ∃ last : Remote, (chainOf demoPublisher last.workspace).isSome ∧
      ∃ chain, Whole demoPublisher last.host.metadata chain ∧
        Listed demoPublisher.sha256 last.host.metadata chain.targets := by
  obtain ⟨last, run, found⟩ := Runs.Moves.of_check (Remote.step demoPublisher)
    (Delivered demoPublisher {demoManifest}) demoRemote
    [(.publish demoManifest 0, 3), (.resign 1, 3)]
    (fun last => (chainOf demoPublisher last.workspace).isSome) (by decide +kernel)
  exact ⟨last, found, channel_is_always_whole (Set.injOn_singleton _ _) whole_demo whole_demo
    (fun _ there => by cases there) (fun _ _ found => by cases found) run⟩

/-- A publish whose push stops once the manifest is on the generation's own release,
and a re-sign that goes through: the host's chain lists the manifest, and the
metadata release does not have it. -/
theorem resign_outruns_its_manifest :
    ∃ last, Runs.Moves (Remote.step demoPublisher) Runs.unguarded demoRemote last ∧
      ∃ chain, chainOf demoPublisher last.host.metadata = some chain ∧
        ¬ Listed demoPublisher.sha256 last.host.metadata chain.targets := by
  obtain ⟨last, run, found⟩ := Runs.Moves.of_check (Remote.step demoPublisher) Runs.unguarded
    demoRemote [(.publish demoManifest 0, 1), (.resign 1, 3)]
    (fun last => (chainOf demoPublisher last.host.metadata).any fun chain =>
      decide (¬ Listed demoPublisher.sha256 last.host.metadata chain.targets))
    (by decide +kernel)
  simp only [Option.any_eq_true, decide_eq_true_eq] at found
  exact ⟨last, run, found⟩

end Retrovert.Publish
