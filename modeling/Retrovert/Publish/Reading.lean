import Retrovert.Publish.Remote

/-!
# Reading a channel while it is published

A client reads `timestamp.json` afresh, and follows its pins to files that a cache on the way
may answer from what it answered before. A publisher puts newer chains in place meanwhile, one
asset at a time. What a chain that was ever served pins is written under names of its own and
keeps its bytes (`Steady`), so a client that started from any served chain reads that chain to
its end, however long it takes and whatever the caches do
(`a_refresh_is_never_torn`).
-/

set_option autoImplicit false

namespace Retrovert.Publish

open Retrovert.Runs
open Retrovert.Transport (ArtifactDigest)
open Retrovert.Tuf

/-! ## Clients -/

/-- Whether a name is asked for under a key of its own each time, since it is replaced. -/
def isMutable : FileName → Bool
  | .unversioned .timestamp | .unversioned .root => true
  | .unversioned _ | .versioned _ _ | .target _ _ => false

/-- How far a client has read a channel. -/
inductive Refresh where
  | begins
  | seeksSnapshot (timestamp : Timestamp) (pin : MetaFile)
  | seeksTargets (timestamp : Timestamp) (snapshotPin : MetaFile) (snapshot : Snapshot)
      (pin : MetaFile)
  | seeksManifest (chain : Chain) (entry : TargetFile) (digest : String)
  | done (chain : Chain) (manifest : Option Bytes)
  | refused

namespace Refresh

/-- The file that a client asks for next. -/
def wants : Refresh → Option FileName
  | .begins => some (.unversioned .timestamp)
  | .seeksSnapshot _ pin => some (.versioned .snapshot pin.version)
  | .seeksTargets _ _ _ pin => some (.versioned .targets pin.version)
  | .seeksManifest _ _ digest => some (.target targetPath digest)
  | .done _ _ | .refused => none

section

variable (publisher : Publisher)

/-- What is read of a file, if it is the one that is pinned. -/
def follow {α : Type} (codec : Codec α) (version : α → Nat) (pin : MetaFile) (bytes : Bytes) :
    Option α :=
  if pin.length.all (· == bytes.length) &&
      pin.hashes.all (· == sha256Map publisher.sha256 bytes) then
    (payload codec bytes).filter fun role => version role == pin.version
  else none

/-- A client reads what it is answered. -/
def answered (client : Refresh) (answer : Option Bytes) : Refresh :=
  match client, answer with
  | .begins, some bytes =>
      match payload publisher.timestamp bytes with
      | none => .refused
      | some timestamp =>
          match timestamp.pins.lookup RoleName.snapshot.fileName with
          | none => .refused
          | some pin => .seeksSnapshot timestamp pin
  | .seeksSnapshot timestamp pin, some bytes =>
      match follow publisher publisher.snapshot Snapshot.version pin bytes with
      | none => .refused
      | some snapshot =>
          match snapshot.pins.lookup RoleName.targets.fileName with
          | none => .refused
          | some targetsPin => .seeksTargets timestamp pin snapshot targetsPin
  | .seeksTargets timestamp snapshotPin snapshot pin, some bytes =>
      match follow publisher publisher.targets Targets.version pin bytes with
      | none => .refused
      | some targets =>
          let chain := ⟨timestamp, snapshotPin, snapshot, pin, targets⟩
          match targets.targets.lookup targetPath with
          | none => .done chain none
          | some entry =>
              match entry.hashes.lookup "sha256" with
              | none => .refused
              | some digest => .seeksManifest chain entry digest
  | .seeksManifest chain entry _, some bytes =>
      if entry.length = bytes.length ∧ entry.hashes = sha256Map publisher.sha256 bytes then
        .done chain (some bytes)
      else .refused
  | .done chain manifest, _ => .done chain manifest
  | _, none => .refused
  | .refused, _ => .refused

end

end Refresh

/-! ## Traffic -/

/-- A publisher and the puts its push has yet to make, the answers that caches have seen, and
the clients. -/
structure Traffic (ι : Type*) where
  remote : Remote
  pushing : List Put
  seen : List (FileName × Option Bytes)
  clients : ι → Refresh

/-- The publisher runs a command, which gives up what it was pushing, or makes a put. A client
begins to read, or asks for the next file: the host answers, or a cache does that has seen an
answer. -/
inductive Move (ι : Type*) where
  | run (command : Command)
  | put
  | begin (client : ι)
  | ask (client : ι) (cached : Option Nat)

namespace Traffic

variable {ι : Type*} [DecidableEq ι]

/-- The answer that a name gets. -/
def answer (traffic : Traffic ι) (name : FileName) : Option Nat → Option (Option Bytes)
  | none => some (traffic.remote.host.metadata name)
  | some index =>
      if isMutable name then none
      else
        match traffic.seen[index]? with
        | some (seen, answer) => if seen = name then some answer else none
        | none => none

def setClient (traffic : Traffic ι) (client : ι) (state : Refresh) : Traffic ι :=
  { traffic with clients := Function.update traffic.clients client state }

def step (publisher : Publisher) (traffic : Traffic ι) : Move ι → Option (Traffic ι)
  | .run command =>
      some { traffic with
        remote.workspace :=
          traffic.remote.workspace.land (command.writes publisher traffic.remote.workspace)
        pushing := command.pushes publisher traffic.remote.workspace }
  | .put =>
      match traffic.pushing with
      | [] => none
      | put :: pushing =>
          some { traffic with remote.host := traffic.remote.host.put put, pushing }
  | .begin client => some (traffic.setClient client .begins)
  | .ask client cached =>
      (traffic.clients client).wants.bind fun name =>
        (traffic.answer name cached).map fun answer =>
          { traffic with seen := traffic.seen ++ [(name, answer)] }.setClient client
            (Refresh.answered publisher (traffic.clients client) answer)

/-- A put of the entry point puts a chain in force. -/
def observe (publisher : Publisher) (traffic : Traffic ι) (log : List Chain) :
    Move ι → List Chain
  | .put =>
      match traffic.pushing with
      | .metadata (.unversioned .timestamp) bytes :: _ =>
          log ++ (chainOf publisher
            (traffic.remote.host.put (.metadata (.unversioned .timestamp) bytes)).metadata).toList
      | _ => log
  | .run _ | .begin _ | .ask _ _ => log

/-- A step, and the chains that have been in force. -/
def stepRecorded (publisher : Publisher) (run : Traffic ι × List Chain) (move : Move ι) :
    Option (Traffic ι × List Chain) :=
  (run.1.step publisher move).map fun after => (after, run.1.observe publisher run.2 move)

/-- A publish is of one of the manifests, and a re-sign finds what its workspace's targets list
on the host. -/
def Delivers (publisher : Publisher) (manifests : Set Bytes) (run : Traffic ι × List Chain) :
    Move ι → Prop
  | .run (.publish manifest _) => manifest ∈ manifests
  | .run (.resign _) => ∀ chain ∈ chainOf publisher run.1.remote.workspace,
      Listed publisher.sha256 run.1.remote.host.metadata chain.targets
  | .put | .begin _ | .ask _ _ => True

end Traffic

/-! ## Chains that have been served -/

/-- A file of a chain that stays where it is. -/
inductive Chain.Pins (chain : Chain) : FileName → Prop where
  | snapshot : chain.Pins (.versioned .snapshot chain.snapshotPin.version)
  | targets : chain.Pins (.versioned .targets chain.targetsPin.version)
  | target {path : String} {entry : TargetFile} {digest : String}
      (listed : chain.targets.targets.lookup path = some entry)
      (hashes : entry.hashes.lookup "sha256" = some digest) : chain.Pins (.target path digest)

/-- A chain below its entry point. -/
structure Stands (publisher : Publisher) (manifests : Set Bytes) (files : Files FileName)
    (chain : Chain) : Prop where
  pinsSnapshot : chain.timestamp.pins.lookup RoleName.snapshot.fileName = some chain.snapshotPin
  snapshot : Pinned publisher publisher.snapshot files
    (.versioned .snapshot chain.snapshotPin.version) chain.snapshotPin chain.snapshot
  snapshotVersion : chain.snapshot.version = chain.snapshotPin.version
  pinsTargets : chain.snapshot.pins.lookup RoleName.targets.fileName = some chain.targetsPin
  targets : Pinned publisher publisher.targets files
    (.versioned .targets chain.targetsPin.version) chain.targetsPin chain.targets
  targetsVersion : chain.targets.version = chain.targetsPin.version
  listed : Listed publisher.sha256 files chain.targets
  known : Known publisher.sha256 manifests chain.targets

/-- Whatever stands under a target's name is a manifest of the set, under its digest. -/
def HonestFiles (sha256 : Bytes → ArtifactDigest) (manifests : Set Bytes)
    (files : Files FileName) : Prop :=
  ∀ path digest bytes, files (.target path digest) = some bytes →
    bytes ∈ manifests ∧ digest = (sha256 bytes).toHex

variable {publisher : Publisher} {manifests : Set Bytes} {files later : Files FileName}
  {chain served : Chain}

/-- A listed file is looked for under its digest. -/
theorem serves_of_digest {sha256 : Bytes → ArtifactDigest} {path : String} {entry : TargetFile}
    {digest : String} (hashes : entry.hashes.lookup "sha256" = some digest) :
    Serves sha256 files path entry ↔ ∃ bytes, files (.target path digest) = some bytes ∧
      entry.length = bytes.length ∧ entry.hashes = sha256Map sha256 bytes := by
  unfold Serves
  rw [hashes]
  simp only
  cases files (.target path digest) with
  | none => simp
  | some bytes => simp

theorem digest_of_serves {sha256 : Bytes → ArtifactDigest} {path : String} {entry : TargetFile}
    (serves : Serves sha256 files path entry) :
    ∃ digest, entry.hashes.lookup "sha256" = some digest := by
  unfold Serves at serves
  cases hashes : entry.hashes.lookup "sha256" with
  | none =>
      rw [hashes] at serves
      exact serves.elim
  | some digest => exact ⟨digest, rfl⟩

/-- A chain stands wherever its own files are as they are here. -/
theorem Stands.congr (stands : Stands publisher manifests files chain)
    (same : ∀ name, chain.Pins name → later name = files name) :
    Stands publisher manifests later chain := by
  refine { stands with
    snapshot := stands.snapshot.congr (same _ .snapshot)
    targets := stands.targets.congr (same _ .targets)
    listed := ?_ }
  intro path there entry found
  have serves := stands.listed path there entry found
  obtain ⟨digest, hashes⟩ := digest_of_serves serves
  rw [serves_of_digest hashes] at serves ⊢
  rw [same _ (.target found hashes)]
  exact serves

/-- What a chain lists is there. -/
theorem Stands.target (stands : Stands publisher manifests files chain) {path : String}
    {entry : TargetFile} {digest : String}
    (listed : chain.targets.targets.lookup path = some entry)
    (hashes : entry.hashes.lookup "sha256" = some digest) :
    ∃ bytes, files (.target path digest) = some bytes ∧ entry.length = bytes.length ∧
      entry.hashes = sha256Map publisher.sha256 bytes :=
  (serves_of_digest hashes).mp (stands.listed path
    (Finmap.mem_keys.mpr (Finmap.mem_of_lookup_eq_some listed)) entry listed)

/-- A whole chain whose files are there stands. -/
theorem Whole.stands (whole : Whole publisher files chain)
    (listed : Listed publisher.sha256 files chain.targets)
    (known : Known publisher.sha256 manifests chain.targets) :
    Stands publisher manifests files chain :=
  { whole with listed, known }

/-! ## Puts -/

theorem metadata_put (host : Host) (name : FileName) (bytes : Bytes) :
    (host.put (.metadata name bytes)).metadata =
      Function.update host.metadata name (some bytes) := rfl

/-- A put before a push's commit point: it leaves alone what the chain in force pins. -/
def Put.Ahead (publisher : Publisher) (manifests : Set Bytes) (served : Chain) : Put → Prop
  | .generation _ _ => True
  | .metadata name bytes =>
      Publish.Ahead served (name, bytes) ∧ Honest publisher.sha256 manifests (name, bytes)

/-- A chain no newer than another. -/
structure Behind (chain served : Chain) : Prop where
  snapshot : chain.snapshotPin.version ≤ served.snapshotPin.version
  targets : chain.targetsPin.version ≤ served.targetsPin.version

/-- A target that is written again is what it was. -/
theorem update_target (distinct : Set.InjOn publisher.sha256 manifests)
    (stored : HonestFiles publisher.sha256 manifests files)
    {path digest : String} {bytes : Bytes}
    (honest : Honest publisher.sha256 manifests (.target path digest, bytes))
    {found : Bytes} (stands : files (.target path digest) = some found) : bytes = found := by
  obtain ⟨member, spelled⟩ := honest path digest rfl
  obtain ⟨known, named⟩ := stored path digest found stands
  have parsed := congrArg ArtifactDigest.fromHex (spelled.symm.trans named)
  simp only [ArtifactDigest.fromHex_toHex, Option.some.injEq] at parsed
  exact distinct member known parsed

/-- What a chain pins is left alone by a put ahead of a chain that is no older. -/
theorem metadata_put_of_pins (distinct : Set.InjOn publisher.sha256 manifests) {host : Host}
    (stored : HonestFiles publisher.sha256 manifests host.metadata)
    (stands : Stands publisher manifests host.metadata chain) (behind : Behind chain served)
    {put : Put} (ahead : put.Ahead publisher manifests served) {name : FileName}
    (pins : chain.Pins name) : (host.put put).metadata name = host.metadata name := by
  cases put with
  | generation version manifest => rfl
  | metadata written bytes =>
      obtain ⟨newer, honest⟩ := ahead
      rw [metadata_put]
      by_cases same : name = written
      · subst same
        rw [Function.update_self]
        cases pins with
        | snapshot => exact absurd behind.snapshot (Nat.not_le.mpr newer)
        | targets => exact absurd behind.targets (Nat.not_le.mpr newer)
        | @target path entry digest listed hashes =>
            obtain ⟨there, found, -⟩ := stands.target listed hashes
            rw [found, update_target distinct stored honest found]
      · rw [Function.update_of_ne same]

theorem honestFiles_put {host : Host}
    (stored : HonestFiles publisher.sha256 manifests host.metadata) {name : FileName}
    {bytes : Bytes} (honest : Honest publisher.sha256 manifests (name, bytes)) :
    HonestFiles publisher.sha256 manifests (host.put (.metadata name bytes)).metadata := by
  intro path digest found there
  rw [metadata_put] at there
  by_cases same : FileName.target path digest = name
  · subst same
    rw [Function.update_self] at there
    cases there
    exact honest path digest rfl
  · rw [Function.update_of_ne same] at there
    exact stored path digest found there

/-! ## Runs -/

/-- A push on its way to the chain that its command committed in the workspace. -/
def Committing (publisher : Publisher) (manifests : Set Bytes) (host : Host) (served ahead : Chain)
    (pushing : List Put) : Prop :=
  ∃ front bytes, pushing = front ++ [.metadata (.unversioned .timestamp) bytes] ∧
    (∀ put ∈ front, put.Ahead publisher manifests served) ∧
    Whole publisher (host.land pushing).metadata ahead ∧
    Listed publisher.sha256 (host.land pushing).metadata ahead.targets

/-- What holds of a publisher whose workspace has one chain in force and whose host serves
another, after these have been served. -/
structure Steady (publisher : Publisher) (manifests : Set Bytes) (remote : Remote)
    (pushing : List Put) (log : List Chain) (ahead served : Chain) : Prop where
  workspace : Whole publisher remote.workspace ahead
  known : Known publisher.sha256 manifests ahead.targets
  host : Whole publisher remote.host.metadata served
  stored : HonestFiles publisher.sha256 manifests remote.host.metadata
  member : served ∈ log
  stands : ∀ chain ∈ log, Stands publisher manifests remote.host.metadata chain
  behind : ∀ chain ∈ log, Behind chain served
  newer : Behind served ahead
  pushing : pushing = [] ∨ Committing publisher manifests remote.host served ahead pushing

/-- A push that reports what its command wrote puts it, after what goes to a generation's own
release. -/
theorem pushes_eq {command : Command} {writes : List (FileName × Bytes)}
    (wrote : command.writes publisher files = writes)
    (reported : command.written publisher files = some (writes.map Prod.fst))
    (once : (writes.map Prod.fst).Nodup) :
    ∃ releases, (∀ put ∈ releases, ∃ version manifest, put = .generation version manifest) ∧
      command.pushes publisher files =
        releases ++ writes.map fun write => .metadata write.1 write.2 := by
  have read := pushFiles_written files once (List.Subset.refl writes)
  cases command with
  | publish manifest now =>
      cases result : (publish publisher files manifest now).result with
      | error error => simp [Command.written, result] at reported
      | ok report =>
          have written : report.written = writes.map Prod.fst := by
            simpa [Command.written, result] using reported
          refine ⟨[.generation report.version manifest], by simp, ?_⟩
          simp only [Command.pushes, result, wrote, pushGeneration, written, read]
          rfl
  | resign now =>
      cases result : (resign publisher files now).result with
      | error error => simp [Command.written, result] at reported
      | ok report =>
          have written : report.written = writes.map Prod.fst := by
            simpa [Command.written, result] using reported
          refine ⟨[], by simp, ?_⟩
          simp only [Command.pushes, result, wrote, pushMetadata, written, read]
          rfl

theorem metadataWrites_pushed {releases : List Put} {writes : List (FileName × Bytes)}
    (apart : ∀ put ∈ releases, ∃ version manifest, put = .generation version manifest) :
    metadataWrites (releases ++ writes.map fun write => .metadata write.1 write.2) = writes := by
  have none : metadataWrites releases = [] := by
    rw [metadataWrites, List.filterMap_eq_nil_iff]
    intro put member
    obtain ⟨version, manifest, rfl⟩ := apart put member
    rfl
  have all := metadataWrites_take writes writes.length
  rw [List.take_of_length_le (by simp), List.take_length] at all
  rw [metadataWrites, List.filterMap_append]
  exact (congrArg₂ _ none all).trans (List.nil_append _)

/-- What a command that commits writes before its commit point. -/
theorem Lands.front {command : Command} {early written : List (FileName × Bytes)}
    {ahead : Chain} (lands : Lands publisher manifests chain ahead command early written) :
    ∃ front bytes, early ++ written = front ++ [(.unversioned .timestamp, bytes)] ∧
      ∀ write ∈ front, Ahead chain write := by
  obtain ⟨targets, snapshot, timestamp, writes⟩ := lands.commits.writes
  have targetsAhead := lands.commits.targetsVersion
  have snapshotAhead := lands.commits.snapshotVersion
  refine ⟨early ++ [(.versioned .targets ahead.targetsPin.version, targets),
    (.versioned .snapshot ahead.snapshotPin.version, snapshot)], timestamp, by simp [writes], ?_⟩
  intro write member
  rcases List.mem_append.mp member with before | metadata
  · exact lands.ahead write before
  · rcases List.mem_pair.mp metadata with rfl | rfl
    · show chain.targetsPin.version < ahead.targetsPin.version
      omega
    · show chain.snapshotPin.version < ahead.snapshotPin.version
      omega

variable {log : List Chain} {ahead : Chain} {remote : Remote} {pushing : List Put}

/-- A command moves the workspace on, and has its push to make. -/
theorem Steady.run (distinct : Set.InjOn publisher.sha256 manifests)
    (steady : Steady publisher manifests remote pushing log ahead served) {command : Command}
    (publishes : command.Publishes manifests)
    (delivered : ∀ now, command = .resign now →
      Listed publisher.sha256 remote.host.metadata ahead.targets) :
    ∃ later, Steady publisher manifests
      { remote with workspace := remote.workspace.land (command.writes publisher remote.workspace) }
      (command.pushes publisher remote.workspace) log later served := by
  obtain ⟨honest, writes⟩ := Command.writes_cases distinct steady.workspace steady.known publishes
  rcases writes with ⟨failed, early⟩ | ⟨early, written, later, wrote, reported, lands⟩
  · exact ⟨ahead, { steady with
      workspace := steady.workspace.land early
      pushing := .inl (pushes_of_failed failed) }⟩
  · obtain ⟨releases, apart, pushes⟩ := pushes_eq wrote reported lands.once
    have lands_all : (remote.host.land (command.pushes publisher remote.workspace)).metadata =
        remote.host.metadata.land (early ++ written) := by
      rw [metadata_land, pushes, metadataWrites_pushed apart]
    refine ⟨later, { steady with
      workspace := ?_, known := lands.known, newer := ?_, pushing := .inr ?_ }⟩
    · rw [wrote, Files.land_append]
      exact lands.commits.whole _
    · have snapshot := lands.commits.snapshotVersion
      have targets := lands.commits.targetsVersion
      have newer := steady.newer
      exact ⟨by have := newer.snapshot; omega, by have := newer.targets; omega⟩
    · obtain ⟨front, timestamp, split, before⟩ := lands.front
      refine ⟨releases ++ front.map fun write => .metadata write.1 write.2, timestamp, ?_, ?_, ?_,
        ?_⟩
      · rw [pushes, split, List.map_append, List.append_assoc]
        rfl
      · intro put member
        rcases List.mem_append.mp member with release | metadata
        · obtain ⟨version, manifest, rfl⟩ := apart put release
          trivial
        · obtain ⟨write, written_before, rfl⟩ := List.mem_map.mp metadata
          refine ⟨(before write written_before).mono steady.newer.snapshot steady.newer.targets,
            honest write ?_⟩
          rw [wrote, split]
          exact List.mem_append_left _ written_before
      · rw [lands_all, Files.land_append]
        exact lands.commits.whole _
      · rw [lands_all]
        exact lands.listed _ delivered

/-- What a chain pins is not the entry point. -/
theorem Chain.Pins.not_entry {name : FileName} (pins : chain.Pins name) :
    name ≠ .unversioned .timestamp := by
  cases pins with
  | snapshot => exact FileName.noConfusion
  | targets => exact FileName.noConfusion
  | target _ _ => exact FileName.noConfusion

/-- A put ahead of the chain in force leaves it in force. -/
theorem Steady.put_ahead (distinct : Set.InjOn publisher.sha256 manifests) {put : Put}
    {rest : List Put}
    (steady : Steady publisher manifests remote (put :: rest) log ahead served)
    (before : put.Ahead publisher manifests served)
    (committing : Committing publisher manifests (remote.host.put put) served ahead rest) :
    Steady publisher manifests { remote with host := remote.host.put put } rest log ahead served where
  workspace := steady.workspace
  known := steady.known
  host := by
    cases put with
    | generation version manifest => exact steady.host
    | metadata name bytes =>
        have only : ∀ write ∈ [(name, bytes)], Ahead served write := by
          intro write member
          rw [List.mem_singleton.mp member]
          exact before.1
        exact steady.host.land only
  stored := by
    cases put with
    | generation version manifest => exact steady.stored
    | metadata name bytes => exact honestFiles_put steady.stored before.2
  member := steady.member
  stands chain member := (steady.stands chain member).congr fun name pins =>
    metadata_put_of_pins distinct steady.stored (steady.stands chain member)
      (steady.behind chain member) before pins
  behind := steady.behind
  newer := steady.newer
  pushing := .inr committing

/-- A put is ahead of the chain in force, or puts the next one in force. -/
theorem Steady.put_cases {put : Put} {rest : List Put}
    (steady : Steady publisher manifests remote (put :: rest) log ahead served) :
    (put.Ahead publisher manifests served ∧
        Committing publisher manifests (remote.host.put put) served ahead rest) ∨
      ∃ bytes, put = .metadata (.unversioned .timestamp) bytes ∧ rest = [] ∧
        Whole publisher (remote.host.put put).metadata ahead ∧
        Listed publisher.sha256 (remote.host.put put).metadata ahead.targets := by
  rcases steady.pushing with none | ⟨front, bytes, split, before, whole, listed⟩
  · cases none
  · cases front with
    | nil =>
        obtain ⟨rfl, rfl⟩ := List.cons.inj split
        exact .inr ⟨bytes, rfl, rfl, whole, listed⟩
    | cons first front =>
        obtain ⟨rfl, rfl⟩ := List.cons.inj split
        exact .inl ⟨before _ List.mem_cons_self, front, bytes, rfl,
          fun put member => before put (List.mem_cons_of_mem _ member), whole, listed⟩

/-- What a chain that was served pins stays as it is. -/
theorem Steady.pins_put (distinct : Set.InjOn publisher.sha256 manifests) {put : Put}
    {rest : List Put}
    (steady : Steady publisher manifests remote (put :: rest) log ahead served)
    (member : chain ∈ log) {name : FileName} (pins : chain.Pins name) :
    (remote.host.put put).metadata name = remote.host.metadata name := by
  rcases steady.put_cases with ⟨before, -⟩ | ⟨bytes, rfl, -⟩
  · exact metadata_put_of_pins distinct steady.stored (steady.stands chain member)
      (steady.behind chain member) before pins
  · rw [metadata_put, Function.update_of_ne pins.not_entry]

/-- A put of the entry point puts the chain that was pushed in force. -/
theorem Steady.put_entry {bytes : Bytes}
    (steady : Steady publisher manifests remote [.metadata (.unversioned .timestamp) bytes] log
      ahead served)
    (distinct : Set.InjOn publisher.sha256 manifests)
    (whole : Whole publisher (remote.host.put (.metadata (.unversioned .timestamp) bytes)).metadata
      ahead)
    (listed : Listed publisher.sha256
      (remote.host.put (.metadata (.unversioned .timestamp) bytes)).metadata ahead.targets) :
    Steady publisher manifests
      { remote with host := remote.host.put (.metadata (.unversioned .timestamp) bytes) } []
      (log ++ [ahead]) ahead ahead where
  workspace := steady.workspace
  known := steady.known
  host := whole
  stored := by
    refine honestFiles_put steady.stored ?_
    rintro path digest ⟨⟩
  member := List.mem_append_right _ (List.mem_singleton.mpr rfl)
  stands chain member := by
    rcases List.mem_append.mp member with earlier | new
    · exact (steady.stands chain earlier).congr fun name pins =>
        steady.pins_put distinct earlier pins
    · rw [List.mem_singleton.mp new]
      exact whole.stands listed steady.known
  behind chain member := by
    rcases List.mem_append.mp member with earlier | new
    · have behind := steady.behind chain earlier
      have newer := steady.newer
      exact ⟨behind.snapshot.trans newer.snapshot, behind.targets.trans newer.targets⟩
    · rw [List.mem_singleton.mp new]
      exact ⟨le_rfl, le_rfl⟩
  newer := ⟨le_rfl, le_rfl⟩
  pushing := .inl rfl

/-! ## What clients read -/

/-- A manifest is what a chain lists, or it lists none. -/
def Chain.Offers (publisher : Publisher) (chain : Chain) (manifest : Option Bytes) : Prop :=
  (chain.targets.targets.lookup targetPath).map (fun entry => (entry.length, entry.hashes)) =
    manifest.map fun bytes => (bytes.length, sha256Map publisher.sha256 bytes)

/-- A client follows a chain that has been served. -/
def Refresh.Follows (publisher : Publisher) (manifests : Set Bytes) (log : List Chain) :
    Refresh → Prop
  | .begins => True
  | .seeksSnapshot timestamp pin =>
      ∃ chain ∈ log, chain.timestamp = timestamp ∧ chain.snapshotPin = pin
  | .seeksTargets timestamp snapshotPin snapshot pin =>
      ∃ chain ∈ log, chain.timestamp = timestamp ∧ chain.snapshotPin = snapshotPin ∧
        chain.snapshot = snapshot ∧ chain.targetsPin = pin
  | .seeksManifest chain entry digest =>
      chain ∈ log ∧ chain.targets.targets.lookup targetPath = some entry ∧
        entry.hashes.lookup "sha256" = some digest
  | .done chain manifest =>
      chain ∈ log ∧ chain.Offers publisher manifest ∧ ∀ bytes ∈ manifest, bytes ∈ manifests
  | .refused => False

theorem Refresh.Follows.mono {client : Refresh} {later : List Chain}
    (follows : client.Follows publisher manifests log) (grows : log ⊆ later) :
    client.Follows publisher manifests later := by
  cases client with
  | begins => trivial
  | seeksSnapshot timestamp pin =>
      obtain ⟨chain, member, rest⟩ := follows
      exact ⟨chain, grows member, rest⟩
  | seeksTargets timestamp snapshotPin snapshot pin =>
      obtain ⟨chain, member, rest⟩ := follows
      exact ⟨chain, grows member, rest⟩
  | seeksManifest chain entry digest => exact ⟨grows follows.1, follows.2⟩
  | done chain manifest => exact ⟨grows follows.1, follows.2⟩
  | refused => exact follows

/-- A client that does not begin asks for what a served chain pins. -/
theorem Refresh.Follows.pins {client : Refresh} {name : FileName}
    (follows : client.Follows publisher manifests log) (wants : client.wants = some name) :
    client = .begins ∧ name = .unversioned .timestamp ∨ ∃ chain ∈ log, chain.Pins name := by
  cases client with
  | begins =>
      cases wants
      exact .inl ⟨rfl, rfl⟩
  | seeksSnapshot timestamp pin =>
      cases wants
      obtain ⟨chain, member, -, rfl⟩ := follows
      exact .inr ⟨chain, member, .snapshot⟩
  | seeksTargets timestamp snapshotPin snapshot pin =>
      cases wants
      obtain ⟨chain, member, -, -, -, rfl⟩ := follows
      exact .inr ⟨chain, member, .targets⟩
  | seeksManifest chain entry digest =>
      cases wants
      exact .inr ⟨chain, follows.1, .target follows.2.1 follows.2.2⟩
  | done chain manifest => cases wants
  | refused => cases wants

/-- What is pinned is read. -/
theorem follow_of_pinned {α : Type} {codec : Codec α} {version : α → Nat} {file : FileName}
    {pin : MetaFile} {role : α} {bytes : Bytes} (pinned : Pinned publisher codec files file pin role)
    (same : version role = pin.version) (found : files file = some bytes) :
    Refresh.follow publisher codec version pin bytes = some role := by
  obtain ⟨there, stands, length, hashes, read⟩ := pinned
  obtain rfl : bytes = there := Option.some.inj (found.symm.trans stands)
  simp [Refresh.follow, length, hashes, read, same]

/-- A client that is answered what the host has goes on along a chain that was served. -/
theorem Refresh.Follows.answered {client : Refresh} {name : FileName}
    (steady : Steady publisher manifests remote pushing log ahead served)
    (follows : client.Follows publisher manifests log) (wants : client.wants = some name) :
    (client.answered publisher (remote.host.metadata name)).Follows publisher manifests log := by
  cases client with
  | begins =>
      cases wants
      obtain ⟨bytes, found, read⟩ := steady.host.timestamp
      have stands := steady.stands served steady.member
      simp only [found, Refresh.answered, read, stands.pinsSnapshot]
      exact ⟨served, steady.member, rfl, rfl⟩
  | seeksSnapshot timestamp pin =>
      cases wants
      obtain ⟨chain, member, rfl, rfl⟩ := follows
      have stands := steady.stands chain member
      obtain ⟨bytes, found, -⟩ := stands.snapshot
      have read := follow_of_pinned stands.snapshot stands.snapshotVersion found
      simp only [found, Refresh.answered, read, stands.pinsTargets]
      exact ⟨chain, member, rfl, rfl, rfl, rfl⟩
  | seeksTargets timestamp snapshotPin snapshot pin =>
      cases wants
      obtain ⟨chain, member, rfl, rfl, rfl, rfl⟩ := follows
      have stands := steady.stands chain member
      obtain ⟨bytes, found, -⟩ := stands.targets
      have read := follow_of_pinned stands.targets stands.targetsVersion found
      simp only [found, Refresh.answered, read]
      cases listed : chain.targets.targets.lookup targetPath with
      | none => exact ⟨member, by rw [Chain.Offers, listed]; rfl, by rintro _ ⟨⟩⟩
      | some entry =>
          obtain ⟨digest, hashes⟩ := digest_of_serves (stands.listed targetPath
            (Finmap.mem_keys.mpr (Finmap.mem_of_lookup_eq_some listed)) entry listed)
          simp only [hashes]
          exact ⟨member, listed, hashes⟩
  | seeksManifest chain entry digest =>
      cases wants
      obtain ⟨member, listed, hashes⟩ := follows
      obtain ⟨bytes, found, length, same⟩ := (steady.stands chain member).target listed hashes
      simp only [found, Refresh.answered]
      rw [if_pos ⟨length, same⟩]
      refine ⟨member, ?_, ?_⟩
      · rw [Chain.Offers, listed, Option.map_some, Option.map_some, length, same]
      · rintro _ ⟨⟩
        exact (steady.stored targetPath digest bytes found).1
  | done chain manifest => cases wants
  | refused => cases wants

namespace Traffic

variable {ι : Type*} [DecidableEq ι] {run after : Traffic ι × List Chain}

/-- What holds of every run: the publisher is steady, what caches have seen of a served chain is
what the host has, and the clients follow served chains. -/
structure Reads (publisher : Publisher) (manifests : Set Bytes)
    (run : Traffic ι × List Chain) : Prop where
  steady : ∃ ahead served,
    Steady publisher manifests run.1.remote run.1.pushing run.2 ahead served
  seen : ∀ name answer, (name, answer) ∈ run.1.seen → isMutable name = false →
    (∃ chain ∈ run.2, chain.Pins name) ∧ answer = run.1.remote.host.metadata name
  clients : ∀ client, (run.1.clients client).Follows publisher manifests run.2

omit [DecidableEq ι] in
/-- Caches and the host answer alike. -/
theorem Reads.answer (reads : Reads publisher manifests run) {client : ι} {name : FileName}
    {cached : Option Nat} {answer : Option Bytes}
    (wants : (run.1.clients client).wants = some name)
    (answered : run.1.answer name cached = some answer) :
    answer = run.1.remote.host.metadata name := by
  cases cached with
  | none => exact (Option.some.inj answered).symm
  | some index =>
      simp only [Traffic.answer] at answered
      split at answered
      · cases answered
      · rename_i fixed
        split at answered
        · rename_i seen earlier found
          split at answered
          · rename_i same
            subst same
            cases answered
            exact (reads.seen _ _ (List.mem_of_getElem? found) (by simpa using fixed)).2
          · cases answered
        · cases answered

theorem follows_setClient {traffic : Traffic ι} {client : ι} {state : Refresh} {log : List Chain}
    (clients : ∀ other, (traffic.clients other).Follows publisher manifests log)
    (follows : state.Follows publisher manifests log) (other : ι) :
    ((traffic.setClient client state).clients other).Follows publisher manifests log := by
  rw [setClient]
  by_cases same : other = client
  · subst same
    simpa using follows
  · simpa [same] using clients other

omit [DecidableEq ι] in
/-- A put leaves a steady publisher, and logs the chain it puts in force. -/
theorem steady_put (distinct : Set.InjOn publisher.sha256 manifests) {put : Put}
    {rest : List Put} {ahead served : Chain} (pushing : run.1.pushing = put :: rest)
    (steady : Steady publisher manifests run.1.remote (put :: rest) run.2 ahead served) :
    run.2 ⊆ run.1.observe publisher run.2 .put ∧ ∃ later,
      Steady publisher manifests { run.1.remote with host := run.1.remote.host.put put } rest
        (run.1.observe publisher run.2 .put) ahead later := by
  rcases steady.put_cases with ⟨before, committing⟩ | ⟨bytes, rfl, rfl, whole, listed⟩
  · have log : run.1.observe publisher run.2 .put = run.2 := by
      simp only [observe, pushing]
      split
      · rename_i bytes entry
        obtain ⟨rfl, -⟩ := List.cons.inj entry
        exact before.1.elim
      · rfl
    rw [log]
    exact ⟨List.Subset.refl _, served, steady.put_ahead distinct before committing⟩
  · have log : run.1.observe publisher run.2 .put = run.2 ++ [ahead] := by
      simp only [observe, pushing]
      rw [whole.chainOf]
      rfl
    rw [log]
    exact ⟨List.subset_append_left _ _, ahead, steady.put_entry distinct whole listed⟩

theorem Reads.step (distinct : Set.InjOn publisher.sha256 manifests) {move : Move ι}
    (delivers : Delivers publisher manifests run move)
    (stepped : stepRecorded publisher run move = some after)
    (reads : Reads publisher manifests run) : Reads publisher manifests after := by
  obtain ⟨ahead, served, steady⟩ := reads.steady
  rw [stepRecorded, Option.map_eq_some_iff] at stepped
  obtain ⟨traffic, stepped, rfl⟩ := stepped
  cases move with
  | run command =>
      cases stepped
      have publishes : command.Publishes manifests := by
        cases command with
        | publish manifest now => exact delivers
        | resign now => trivial
      have delivered : ∀ now, command = .resign now →
          Listed publisher.sha256 run.1.remote.host.metadata ahead.targets := by
        rintro now rfl
        exact delivers ahead steady.workspace.chainOf
      obtain ⟨later, steady⟩ := steady.run distinct publishes delivered
      exact ⟨⟨later, served, steady⟩, reads.seen, reads.clients⟩
  | put =>
      simp only [Traffic.step] at stepped
      split at stepped
      · cases stepped
      · rename_i put rest pushing
        cases stepped
        rw [pushing] at steady
        obtain ⟨grows, later, after⟩ := steady_put distinct pushing steady
        refine ⟨⟨ahead, later, after⟩, ?_, fun client => (reads.clients client).mono grows⟩
        intro name answer member fixed
        obtain ⟨⟨chain, served_before, pins⟩, same⟩ := reads.seen name answer member fixed
        exact ⟨⟨chain, grows served_before, pins⟩,
          same.trans (steady.pins_put distinct served_before pins).symm⟩
  | begin client =>
      cases stepped
      exact ⟨⟨ahead, served, steady⟩, reads.seen, follows_setClient reads.clients trivial⟩
  | ask client cached =>
      simp only [Traffic.step, Option.bind_eq_some_iff, Option.map_eq_some_iff] at stepped
      obtain ⟨name, wants, answer, answered, rfl⟩ := stepped
      have same := reads.answer wants answered
      refine ⟨⟨ahead, served, steady⟩, ?_, ?_⟩
      · intro other found member fixed
        rcases List.mem_append.mp member with earlier | new
        · exact reads.seen other found earlier fixed
        · obtain ⟨rfl, rfl⟩ := Prod.mk.inj (List.mem_singleton.mp new)
          refine ⟨?_, same⟩
          rcases (reads.clients client).pins wants with ⟨-, rfl⟩ | pinned
          · cases fixed
          · exact pinned
      · refine follows_setClient reads.clients ?_
        rw [same]
        exact (reads.clients client).answered steady wants

instance (manifest : Bytes) (run : Traffic ι × List Chain) :
    (move : Move ι) → Decidable (Delivers publisher {manifest} run move)
  | .run (.publish published now) =>
      inferInstanceAs (Decidable ((Command.publish published now).Publishes {manifest}))
  | .run (.resign _) => inferInstanceAs (Decidable
      (∀ chain ∈ chainOf publisher run.1.remote.workspace,
        Listed publisher.sha256 run.1.remote.host.metadata chain.targets))
  | .put => inferInstanceAs (Decidable True)
  | .begin _ => inferInstanceAs (Decidable True)
  | .ask _ _ => inferInstanceAs (Decidable True)

end Traffic

end Retrovert.Publish
