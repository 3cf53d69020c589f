import Mathlib.Data.List.ReduceOption
import Retrovert.Apply.InstallRoot

/-!
# A resolvable generation has its files

A retain looks at a generation's claim in one hold of the claim lock, and removes
its record and its directory after it has let the lock go. An apply that takes
the claim in between publishes into the directory that is being removed, and
writes its record after the old one is gone: the generation resolves and its
files do not stand (`collected_while_published`).

This is the only way. As long as no apply takes the claim on a generation that a
retain is collecting, and the plans of one generation come from one manifest, a
generation that resolves has every file it names
(`resolvable_generation_has_its_files`). The invariant counts the claims: there
are as many as applies that stand between taking one and letting it go, so none
is held on a generation that is being collected, and nothing is recorded for it
once its record has been removed.
-/

set_option autoImplicit false

namespace Retrovert.Apply

open Retrovert.Transport Retrovert.Tuf

/-! ## What a step of an apply does -/

/-- Whether an apply stands between taking its claim and letting it go. -/
def Stage.holds : Stage → Bool
  | .resolving | .claiming | .returned _ => false
  | _ => true

/-- What an apply has placed so far. -/
def Stage.placements : Stage → List Installed
  | .acquiring placed | .copying placed _ _ _ | .placing placed _ _ => placed.reduceOption
  | .recording installed => installed
  | _ => []

/-- An apply that has placed something holds its claim. -/
theorem Stage.holds_of_placements {stage : Stage} {installed : Installed}
    (placed : installed ∈ stage.placements) : stage.holds = true := by
  cases stage with
  | resolving | claiming | returned => cases placed
  | _ => rfl

namespace Applying

/-- What one step of an apply can do: what becomes of the root, of the claim and
of what the apply has placed. -/
inductive Effect (sha256 : Bytes → ArtifactDigest) (root : InstallRoot) (apply : Applying)
    (stage : Stage) : InstallRoot → Prop
  | quiet (held : stage.holds = apply.stage.holds)
      (fewer : stage.placements ⊆ apply.stage.placements) : Effect sha256 root apply stage root
  | claims (claiming : apply.stage = .claiming) (held : stage.holds = true)
      (none : stage.placements = []) : Effect sha256 root apply stage (root.claim apply.id)
  | unclaims (held : apply.stage.holds = true) (released : stage.holds = false)
      (none : stage.placements = []) : Effect sha256 root apply stage (root.unclaim apply.id)
  | folder (dir : Tree Component) (held : stage.holds = apply.stage.holds)
      (fewer : stage.placements ⊆ apply.stage.placements)
      (same : ∀ place, dir.fileAt place = (root.dirs apply.id).fileAt place) :
      Effect sha256 root apply stage (root.setDir apply.id dir)
  | places (dir : Tree Component) (artifact : Artifact) (landed : Bytes)
      (planned : artifact ∈ apply.plan.artifacts)
      (verified : ArtifactDigest.fromHex artifact.sha256 = some (sha256 landed))
      (held : stage.holds = apply.stage.holds)
      (more : stage.placements ⊆
        installedFrom artifact (sha256 landed) :: apply.stage.placements)
      (placed : ∀ place, dir.fileAt place =
        if place = artifact.place then some landed else (root.dirs apply.id).fileAt place) :
      Effect sha256 root apply stage (root.setDir apply.id dir)
  | records (holding : apply.stage.holds = true) (held : stage.holds = true)
      (none : stage.placements = []) :
      Effect sha256 root apply stage (root.record apply.id apply.stage.placements)

variable {sha256 : Bytes → ArtifactDigest} {root next : InstallRoot} {apply : Applying}
  {stage : Stage}

theorem fromHex_of_digestOf {artifact : Artifact} {digest : ArtifactDigest}
    (parsed : digestOf artifact = .ok digest) :
    ArtifactDigest.fromHex artifact.sha256 = some digest := by
  unfold digestOf at parsed
  split at parsed
  · cases parsed
    assumption
  · cases parsed

/-- Putting an artifact in its place adds it to what was placed. -/
theorem reduceOption_set_subset (placed : List (Option Installed)) (index : Nat)
    (installed : Installed) :
    (placed.set index (some installed)).reduceOption ⊆ installed :: placed.reduceOption := by
  intro other there
  rw [List.reduceOption_mem_iff] at there
  rcases List.mem_or_eq_of_mem_set there with older | new
  · exact List.mem_cons_of_mem _ (List.reduceOption_mem_iff.mpr older)
  · cases new
    exact List.mem_cons_self

/-- Giving up keeps the claim for the drop to let go, and forgets what was placed. -/
theorem effect_refuse (error : Error) (held : apply.stage.holds = true) :
    Effect sha256 root apply (.refuse error) root :=
  .quiet held.symm (List.nil_subset _)

theorem effect_copy {placed : List (Option Installed)} {index : Nat} {artifact : Artifact}
    {folders : List (List Component)} {cached : Option Bytes}
    (copying : apply.stage = .copying placed index folders cached)
    (copied : apply.copy root placed index artifact folders cached = (next, stage)) :
    Effect sha256 root apply stage next := by
  have held : apply.stage.holds = true := by rw [copying]; rfl
  have fewer : placed.reduceOption ⊆ apply.stage.placements := by
    rw [copying]
    exact List.Subset.refl _
  unfold copy at copied
  cases folders with
  | nil =>
      cases cached with
      | none =>
          cases copied
          exact effect_refuse _ held
      | some landed =>
          cases copied
          exact .quiet held.symm fewer
  | cons folder rest =>
      simp only at copied
      split at copied
      · cases copied
        exact effect_refuse _ held
      · rename_i dir made
        cases copied
        exact .folder dir held.symm fewer (Tree.fileAt_createDir made)

theorem effect_persist {placed : List (Option Installed)} {index : Nat} {artifact : Artifact}
    {landed : Bytes} (placing : apply.stage = .placing placed index landed)
    (planned : artifact ∈ apply.plan.artifacts)
    (persisted : apply.persist sha256 root placed index artifact landed = (next, stage)) :
    Effect sha256 root apply stage next := by
  have held : apply.stage.holds = true := by rw [placing]; rfl
  unfold persist at persisted
  split at persisted
  · cases persisted
    exact effect_refuse _ held
  · rename_i digest parsed
    split at persisted
    · cases persisted
      exact effect_refuse _ held
    · rename_i verified
      obtain rfl : sha256 landed = digest := not_not.mp verified
      split at persisted
      · cases persisted
        exact effect_refuse _ held
      · rename_i dir put
        cases persisted
        refine .places dir artifact landed planned (fromHex_of_digestOf parsed) held.symm ?_
          (Tree.fileAt_put_file put)
        rw [placing]
        exact reduceOption_set_subset placed index _

/-- Every step of an apply has one of the effects. -/
theorem step_effect {move : Move} (stepped : apply.step sha256 root move = some (next, stage)) :
    Effect sha256 root apply stage next := by
  unfold step at stepped
  split at stepped
  · rename_i resolving
    split at stepped <;> cases stepped <;>
      exact .quiet (by rw [resolving]; rfl) (List.nil_subset _)
  · rename_i claiming
    cases stepped
    exact .claims claiming rfl rfl
  · rename_i preparing
    have held : apply.stage.holds = true := by rw [preparing]; rfl
    split at stepped
    · cases stepped
      exact effect_refuse _ held
    · split at stepped
      · cases stepped
        exact effect_refuse _ held
      · rename_i dir made
        cases stepped
        exact .folder dir held.symm (by simp [Stage.placements, List.reduceOption])
          (Tree.fileAt_createDir made)
  · rename_i placed index cached acquiring
    have held : apply.stage.holds = true := by rw [acquiring]; rfl
    split at stepped
    · split at stepped
      · cases stepped
        exact effect_refuse _ held
      · cases stepped
        exact .quiet held.symm (by rw [acquiring]; exact List.Subset.refl _)
    · cases stepped
  · rename_i placed acquiring
    split at stepped
    · cases stepped
      exact .quiet (by rw [acquiring]; rfl) (by rw [acquiring]; exact List.Subset.refl _)
    · cases stepped
  · rename_i placed index folders cached copying
    obtain ⟨artifact, -, copied⟩ := Option.map_eq_some_iff.mp stepped
    exact effect_copy copying copied
  · rename_i placed index landed placing
    obtain ⟨artifact, found, persisted⟩ := Option.map_eq_some_iff.mp stepped
    exact effect_persist placing (List.mem_of_getElem? found) persisted
  · rename_i installed recording
    have all : apply.stage.placements = installed := by rw [recording]; rfl
    cases stepped
    rw [← all]
    exact .records (by rw [recording]; rfl) rfl rfl
  · rename_i result unclaiming
    cases stepped
    exact .unclaims (by rw [unclaiming]; rfl) rfl rfl
  -- The operations that fail, and the answers no stage takes.
  all_goals first
    | cases stepped
      rename_i failing
      exact effect_refuse _ (by rw [failing]; rfl)
    | cases stepped

end Applying

/-! ## What a step of a retain does -/

namespace Retaining

/-- What one step of a retain can do: look on, find an unclaimed id to collect,
remove its record, or take something out of its directory. -/
inductive Effect (root : InstallRoot) (before after : Retaining) : InstallRoot → Prop
  | quiet (idle : after.collecting = none) : Effect root before after root
  | finds (id : String) (unclaimed : root.publishing id = 0)
      (sweep : after.sweep = .unrecording id) : Effect root before after root
  | unrecords (id : String) (sweeping : before.sweep = .unrecording id)
      (sweep : after.sweep = .emptying id) : Effect root before after (root.unrecord id)
  | empties (id : String) (dir : Tree Component) (sweeping : before.sweep = .emptying id)
      (sweep : after.sweep = .emptying id ∨ after.collecting = none) :
      Effect root before after (root.setDir id dir)

variable {root next : InstallRoot} {before after : Retaining}

/-- Every step of a retain has one of the effects. -/
theorem step_effect {answer : Answer} (stepped : before.step root answer = some (next, after)) :
    Effect root before after next := by
  unfold step at stepped
  split at stepped
  · rename_i looking
    split at stepped
    · cases stepped
      exact .quiet rfl
    · split at stepped
      · cases stepped
        exact .quiet (by simp only [collecting, looking])
      · rename_i id ids found kept
        cases stepped
        exact .finds id (by omega) rfl
  · rename_i id sweeping
    cases stepped
    exact .unrecords id sweeping rfl
  · rename_i id place sweeping
    split at stepped
    · cases stepped
    · obtain ⟨dir, -, moved⟩ := Option.map_eq_some_iff.mp stepped
      cases moved
      exact .empties id dir sweeping (.inl sweeping)
  · rename_i id sweeping
    simp only at stepped
    split at stepped
    · cases stepped
      exact .quiet rfl
    · split at stepped
      · rename_i dir removed
        cases stepped
        exact .empties id dir sweeping (.inr rfl)
      · cases stepped
        exact .quiet rfl
  all_goals
    cases stepped
  all_goals
    exact .quiet rfl

end Retaining

/-! ## The invariant -/

/-- What the manifest of each generation gives at each place. -/
abbrev Contents := String → List Component → ArtifactDigest

/-- The plan's artifacts are those of its generation's manifest. -/
def Plan.Agrees (contents : Contents) (plan : Plan) : Prop :=
  ∀ artifact ∈ plan.artifacts, ∀ digest ∈ ArtifactDigest.fromHex artifact.sha256,
    digest = contents plan.generationId artifact.place

instance (contents : Contents) (plan : Plan) : Decidable (plan.Agrees contents) :=
  inferInstanceAs (Decidable (∀ artifact ∈ plan.artifacts, _))

section Invariant

variable (sha256 : Bytes → ArtifactDigest) (contents : Contents)

/-- A file with the manifest's digest stands at the place. -/
def Stands (root : InstallRoot) (id : String) (place : List Component) : Prop :=
  ∃ content, (root.dirs id).fileAt place = some content ∧ sha256 content = contents id place

/-- The installed file is there, with the digest recorded for it. -/
def Present (root : InstallRoot) (id : String) (installed : Installed) : Prop :=
  Stands sha256 contents root id (components installed.path) ∧
    installed.sha256 = (contents id (components installed.path)).toHex

/-- Every generation that resolves has its files. -/
def Whole (root : InstallRoot) : Prop :=
  ∀ id generation, root.resolve id = some generation →
    ∀ installed ∈ generation.artifacts, Present sha256 contents root id installed

/-- Whether an apply holds a claim on `id`. -/
def Applying.claims (id : String) (apply : Applying) : Bool :=
  apply.stage.holds && apply.id == id

/-- The claims are those of the applies that hold one. What an apply has placed
and what a record names is there. No generation is claimed while a retain
collects it, and none resolves once its directory is being emptied. -/
structure Sound (installs : Installs) : Prop where
  agree : ∀ apply ∈ installs.applies, apply.plan.Agrees contents
  counted : ∀ id, installs.root.publishing id = installs.applies.countP (Applying.claims id)
  placed : ∀ apply ∈ installs.applies, ∀ installed ∈ apply.stage.placements,
    Present sha256 contents installs.root apply.id installed
  whole : Whole sha256 contents installs.root
  spared : ∀ retain ∈ installs.retains, ∀ id, retain.collecting = some id →
    installs.root.publishing id = 0
  unrecorded : ∀ retain ∈ installs.retains, ∀ id, retain.sweep = .emptying id →
    installs.root.resolve id = none

end Invariant

variable {sha256 : Bytes → ArtifactDigest} {contents : Contents}

/-! ## What applies keep -/

namespace Applying.Effect

variable {root next : InstallRoot} {apply : Applying} {stage : Stage}

/-- A step moves the claims on a generation by what it moves the apply's own. -/
theorem publishing (effect : Effect sha256 root apply stage next)
    (claimed : apply.stage.holds = true → 0 < root.publishing apply.id) (id : String) :
    next.publishing id + (if apply.claims id then 1 else 0) =
      root.publishing id + (if Applying.claims id { apply with stage } then 1 else 0) := by
  have own : Applying.id { apply with stage } = apply.id := rfl
  cases effect with
  | quiet held | folder _ held | places _ _ _ _ _ held =>
      simp only [Applying.claims, own, held]
      rfl
  | records holding held =>
      simp only [Applying.claims, own, holding, held]
      rfl
  | claims claiming held =>
      have idle : apply.stage.holds = false := by rw [claiming]; rfl
      simp [Applying.claims, idle, held, own, root.publishing_claim]
  | unclaims held released =>
      have claimed := claimed held
      simp only [Applying.claims, held, released, own, root.publishing_unclaim, Bool.true_and,
        Bool.false_and, beq_iff_eq]
      by_cases same : apply.id = id
      · rw [same] at claimed
        simp only [same, if_true, Bool.false_eq_true, if_false]
        omega
      · simp [same]

/-- An apply comes to hold a claim by taking it. -/
theorem claiming (effect : Effect sha256 root apply stage next)
    (free : apply.stage.holds = false) (holds : stage.holds = true) :
    apply.stage = .claiming := by
  cases effect with
  | claims claiming => exact claiming
  | quiet held | folder _ held | places _ _ _ _ _ held =>
      rw [held, free] at holds
      cases holds
  | unclaims held | records held =>
      rw [held] at free
      cases free

/-- An apply never disturbs a file that has its manifest's digest: what it renames
over such a file has the same one. -/
theorem stands (effect : Effect sha256 root apply stage next)
    (agrees : apply.plan.Agrees contents) {id : String} {place : List Component}
    (stood : Stands sha256 contents root id place) : Stands sha256 contents next id place := by
  obtain ⟨content, found, digest⟩ := stood
  cases effect with
  | quiet | claims | unclaims | records => exact ⟨content, found, digest⟩
  | folder dir _ _ same =>
      by_cases own : id = apply.id
      · subst own
        exact ⟨content, by rw [root.dirs_setDir_self, same, found], digest⟩
      · exact ⟨content, by rwa [root.dirs_setDir_of_ne dir own], digest⟩
  | places dir artifact landed planned verified _ _ placed =>
      by_cases own : id = apply.id
      · subst own
        by_cases overlaps : place = artifact.place
        · subst overlaps
          exact ⟨landed, by rw [root.dirs_setDir_self, placed, if_pos rfl],
            agrees artifact planned _ verified⟩
        · exact ⟨content, by rw [root.dirs_setDir_self, placed, if_neg overlaps, found], digest⟩
      · exact ⟨content, by rwa [root.dirs_setDir_of_ne dir own], digest⟩

/-- What an apply counts as placed, it had placed before or has placed now. -/
theorem placements (effect : Effect sha256 root apply stage next)
    (agrees : apply.plan.Agrees contents) {installed : Installed}
    (counted : installed ∈ stage.placements) :
    installed ∈ apply.stage.placements ∨ Present sha256 contents next apply.id installed := by
  cases effect with
  | quiet _ fewer | folder _ _ fewer => exact .inl (fewer counted)
  | claims _ _ none | unclaims _ _ none | records _ _ none =>
      rw [none] at counted
      cases counted
  | places dir artifact landed planned verified _ more placed =>
      rcases List.mem_cons.mp (more counted) with rfl | older
      · right
        have digest := agrees artifact planned _ verified
        refine ⟨⟨landed, ?_, digest⟩, congrArg ArtifactDigest.toHex digest⟩
        rw [root.dirs_setDir_self, placed]
        exact if_pos rfl
      · exact .inl older

/-- What resolves after a step resolved before it, or is what the apply placed. -/
theorem resolve (effect : Effect sha256 root apply stage next) {id : String}
    {generation : Generation} (resolved : next.resolve id = some generation) :
    root.resolve id = some generation ∨
      id = apply.id ∧ apply.stage.holds = true ∧ generation.artifacts = apply.stage.placements := by
  cases effect with
  | quiet | claims | unclaims | folder | places => exact .inl resolved
  | records holding =>
      rw [root.resolve_record] at resolved
      by_cases own : id = apply.id
      · rw [if_pos own] at resolved
        cases resolved
        exact .inr ⟨own, holding, rfl⟩
      · rw [if_neg own] at resolved
        exact .inl resolved

end Applying.Effect

/-- Replacing a member of a list moves a count by the member and what replaces
it. -/
theorem countP_set_add {α : Type*} {list : List α} {index : Nat} {old : α}
    (found : list[index]? = some old) (new : α) (counts : α → Bool) :
    (list.set index new).countP counts + (if counts old then 1 else 0) =
      list.countP counts + (if counts new then 1 else 0) := by
  obtain ⟨bound, rfl⟩ := List.getElem?_eq_some_iff.mp found
  rw [List.countP_set bound]
  by_cases counted : counts list[index] = true
  · have : 0 < list.countP counts :=
      List.countP_pos_iff.mpr ⟨_, List.getElem_mem bound, counted⟩
    simp only [counted, if_true]
    omega
  · simp [counted]

theorem Present.mono {root next : InstallRoot}
    (kept : ∀ id place, Stands sha256 contents root id place → Stands sha256 contents next id place)
    {id : String} {installed : Installed} (present : Present sha256 contents root id installed) :
    Present sha256 contents next id installed :=
  ⟨kept _ _ present.1, present.2⟩

namespace Sound

variable {installs : Installs}

/-- An apply that holds a claim is counted. -/
theorem claimed (sound : Sound sha256 contents installs) {apply : Applying}
    (running : apply ∈ installs.applies) (held : apply.stage.holds = true) :
    0 < installs.root.publishing apply.id := by
  rw [sound.counted]
  exact List.countP_pos_iff.mpr ⟨apply, running, by simp [Applying.claims, held]⟩

theorem start (sound : Sound sha256 contents installs) {plan : Plan}
    (agrees : plan.Agrees contents) :
    Sound sha256 contents { installs with applies := installs.applies ++ [.start plan] } := by
  have idle : (Applying.start plan).stage.holds = false ∧
      (Applying.start plan).stage.placements = [] := by
    unfold Applying.start
    split <;> exact ⟨rfl, rfl⟩
  refine { sound with agree := ?_, counted := ?_, placed := ?_ }
  · intro apply running
    rcases List.mem_append.mp running with older | new
    · exact sound.agree apply older
    · cases List.mem_singleton.mp new
      exact agrees
  · intro id
    rw [List.countP_append, ← sound.counted id]
    simp [Applying.claims, idle.1]
  · intro apply running installed placed
    rcases List.mem_append.mp running with older | new
    · exact sound.placed apply older installed placed
    · cases List.mem_singleton.mp new
      rw [idle.2] at placed
      cases placed

/-- A step of an apply keeps the invariant, unless it claims a generation that is
being collected. -/
theorem advance (sound : Sound sha256 contents installs) {thread : Nat} {apply : Applying}
    (found : installs.applies[thread]? = some apply) {stage : Stage} {next : InstallRoot}
    (effect : Applying.Effect sha256 installs.root apply stage next)
    (undisturbed : apply.stage = .claiming →
      ∀ retain ∈ installs.retains, retain.collecting ≠ some apply.id) :
    Sound sha256 contents
      ⟨next, installs.applies.set thread { apply with stage }, installs.retains⟩ := by
  have running : apply ∈ installs.applies := List.mem_of_getElem? found
  have agrees := sound.agree apply running
  have moved := effect.publishing (sound.claimed running)
  have kept : ∀ id place, Stands sha256 contents installs.root id place →
      Stands sha256 contents next id place := fun _ _ => effect.stands agrees
  refine ⟨?_, ?_, ?_, ?_, ?_, ?_⟩
  · intro other member
    rcases List.mem_or_eq_of_mem_set member with older | rfl
    · exact sound.agree other older
    · exact agrees
  · intro id
    have counts := countP_set_add found { apply with stage } (Applying.claims id)
    have := sound.counted id
    have := moved id
    show next.publishing id = (installs.applies.set thread _).countP _
    omega
  · intro other member installed placed
    rcases List.mem_or_eq_of_mem_set member with older | rfl
    · exact (sound.placed other older installed placed).mono kept
    · rcases effect.placements agrees placed with before | now
      · exact (sound.placed apply running installed before).mono kept
      · exact now
  · intro id generation resolved installed named
    rcases effect.resolve resolved with before | ⟨rfl, -, published⟩
    · exact (sound.whole id generation before installed named).mono kept
    · rw [published] at named
      exact (sound.placed apply running installed named).mono kept
  · intro retain sweeping id collecting
    have free := sound.spared retain sweeping id collecting
    have unheld : Applying.claims id { apply with stage } = false := by
      by_contra claims
      simp only [Applying.claims, Bool.not_eq_false, Bool.and_eq_true, beq_iff_eq] at claims
      obtain ⟨holds, rfl⟩ := claims
      cases held : apply.stage.holds with
      | true => exact (sound.claimed running held).ne' free
      | false => exact undisturbed (effect.claiming held holds) retain sweeping collecting
    have := moved id
    simp only [unheld, free] at this
    show next.publishing id = 0
    simp at this
    exact this.1
  · intro retain sweeping id emptying
    have collecting : retain.collecting = some id := by simp only [Retaining.collecting, emptying]
    rw [Option.eq_none_iff_forall_ne_some]
    intro generation resolved
    rcases effect.resolve resolved with before | ⟨rfl, held, -⟩
    · rw [sound.unrecorded retain sweeping id emptying] at before
      cases before
    · exact (sound.claimed running held).ne' (sound.spared retain sweeping _ collecting)

/-- A removal from a generation's directory keeps the invariant, when the
generation neither resolves nor is claimed. -/
theorem setDir (sound : Sound sha256 contents installs) {id : String} (dir : Tree Component)
    (unclaimed : installs.root.publishing id = 0) (unresolved : installs.root.resolve id = none) :
    Sound sha256 contents { installs with root := installs.root.setDir id dir } := by
  have kept : ∀ other, other ≠ id → ∀ installed,
      Present sha256 contents installs.root other installed →
        Present sha256 contents (installs.root.setDir id dir) other installed := by
    intro other different installed present
    obtain ⟨⟨content, found, digest⟩, recorded⟩ := present
    exact ⟨⟨content, by rwa [installs.root.dirs_setDir_of_ne dir different], digest⟩, recorded⟩
  refine { sound with placed := ?_, whole := ?_ }
  · intro apply running installed placed
    refine kept _ ?_ _ (sound.placed apply running installed placed)
    rintro rfl
    exact (sound.claimed running (Stage.holds_of_placements placed)).ne' unclaimed
  · intro other generation resolved installed named
    refine kept _ ?_ _ (sound.whole other generation resolved installed named)
    rintro rfl
    rw [show installs.root.resolve other = some generation from resolved] at unresolved
    cases unresolved

theorem unrecord (sound : Sound sha256 contents installs) (id : String) :
    Sound sha256 contents { installs with root := installs.root.unrecord id } := by
  refine { sound with whole := ?_, unrecorded := ?_ }
  · intro other generation resolved installed named
    rw [installs.root.resolve_unrecord] at resolved
    split at resolved
    · cases resolved
    · exact sound.whole other generation resolved installed named
  · intro retain sweeping other emptying
    show (installs.root.unrecord id).resolve other = none
    rw [installs.root.resolve_unrecord, sound.unrecorded retain sweeping other emptying, ite_self]

/-- One retain more, or one in the place of another, keeps the invariant when what
it collects is unclaimed and what it empties does not resolve. -/
theorem retains (sound : Sound sha256 contents installs) {retains : List Retaining}
    {retain : Retaining}
    (known : ∀ other ∈ retains, other ∈ installs.retains ∨ other = retain)
    (spared : ∀ id, retain.collecting = some id → installs.root.publishing id = 0)
    (unrecorded : ∀ id, retain.sweep = .emptying id → installs.root.resolve id = none) :
    Sound sha256 contents { installs with retains } := by
  refine { sound with spared := ?_, unrecorded := ?_ }
  · intro other member
    rcases known other member with older | rfl
    · exact sound.spared other older
    · exact spared
  · intro other member
    rcases known other member with older | rfl
    · exact sound.unrecorded other older
    · exact unrecorded

/-- A step of a retain keeps the invariant. -/
theorem sweep (sound : Sound sha256 contents installs) {thread : Nat} {before after : Retaining}
    (found : installs.retains[thread]? = some before) {next : InstallRoot}
    (effect : Retaining.Effect installs.root before after next) :
    Sound sha256 contents ⟨next, installs.applies, installs.retains.set thread after⟩ := by
  have sweeping : before ∈ installs.retains := List.mem_of_getElem? found
  have known : ∀ other ∈ installs.retains.set thread after,
      other ∈ installs.retains ∨ other = after := fun _ => List.mem_or_eq_of_mem_set
  cases effect with
  | quiet idle =>
      refine sound.retains known (fun id collecting => ?_) (fun id emptying => ?_)
      · rw [idle] at collecting
        cases collecting
      · rw [Retaining.collecting, emptying] at idle
        cases idle
  | finds id unclaimed sweep =>
      refine sound.retains known (fun other collecting => ?_) (fun other emptying => ?_)
      · rw [Retaining.collecting, sweep] at collecting
        cases collecting
        exact unclaimed
      · rw [sweep] at emptying
        cases emptying
  | unrecords id swept sweep =>
      have unclaimed := sound.spared before sweeping id (by rw [Retaining.collecting, swept])
      refine (sound.unrecord id).retains known (fun other collecting => ?_)
        (fun other emptying => ?_)
      · rw [Retaining.collecting, sweep] at collecting
        cases collecting
        exact unclaimed
      · rw [sweep] at emptying
        cases emptying
        exact (installs.root.resolve_unrecord id id).trans (if_pos rfl)
  | empties id dir swept sweep =>
      have unclaimed := sound.spared before sweeping id (by rw [Retaining.collecting, swept])
      have unresolved := sound.unrecorded before sweeping id swept
      refine (sound.setDir dir unclaimed unresolved).retains known (fun other collecting => ?_)
        (fun other emptying => ?_)
      · rcases sweep with sweep | idle
        · rw [Retaining.collecting, sweep] at collecting
          cases collecting
          exact unclaimed
        · rw [idle] at collecting
          cases collecting
      · rcases sweep with sweep | idle
        · rw [sweep] at emptying
          cases emptying
          exact unresolved
        · rw [Retaining.collecting, emptying] at idle
          cases idle

end Sound

/-! ## Runs -/

/-- The condition on a step: an apply starts on a plan of its generation's
manifest, and takes its claim while no retain is collecting the generation. -/
def Undisturbed (contents : Contents) (installs : Installs) : Action → Prop
  | .apply plan => plan.Agrees contents
  | .advance thread _ =>
      match installs.applies[thread]? with
      | some ⟨plan, .claiming⟩ =>
          ∀ retain ∈ installs.retains, retain.collecting ≠ some plan.generationId
      | _ => True
  | _ => True

instance (contents : Contents) (installs : Installs) (action : Action) :
    Decidable (Undisturbed contents installs action) := by
  unfold Undisturbed
  split
  · infer_instance
  · split <;> infer_instance
  · infer_instance

/-- An undisturbed step keeps the invariant. -/
theorem sound_step {before after : Installs} {action : Action}
    (undisturbed : Undisturbed contents before action)
    (stepped : before.step sha256 action = some after) (sound : Sound sha256 contents before) :
    Sound sha256 contents after := by
  cases action with
  | apply plan =>
      cases stepped
      exact sound.start undisturbed
  | advance thread move =>
      simp only [Installs.step, Option.bind_eq_bind, Option.bind_eq_some_iff] at stepped
      obtain ⟨apply, found, ⟨next, stage⟩, moved, stepped⟩ := stepped
      cases stepped
      refine sound.advance found (Applying.step_effect moved) ?_
      intro claiming
      obtain ⟨plan, _⟩ := apply
      subst claiming
      simpa [Undisturbed, found, Applying.id] using undisturbed
  | retain live ids =>
      cases stepped
      exact sound.retains
        (fun _ member => (List.mem_append.mp member).imp_right List.mem_singleton.mp)
        (fun _ collecting => by cases collecting) (fun _ emptying => by cases emptying)
  | sweep thread answer =>
      simp only [Installs.step, Option.bind_eq_bind, Option.bind_eq_some_iff] at stepped
      obtain ⟨retain, found, ⟨next, later⟩, moved, stepped⟩ := stepped
      cases stepped
      exact sound.sweep found (Retaining.step_effect moved)

/-- A root that has never published resolves nothing. -/
theorem whole_new : Whole sha256 contents .new := by
  intro id generation resolved
  cases resolved

theorem sound_idle {root : InstallRoot} (unclaimed : ∀ id, root.publishing id = 0)
    (whole : Whole sha256 contents root) : Sound sha256 contents (.idle root) where
  agree _ running := nomatch running
  counted := unclaimed
  placed _ running := nomatch running
  whole := whole
  spared _ sweeping := nomatch sweeping
  unrecorded _ sweeping := nomatch sweeping

/-- One artifact, whose content is the byte `0x61`. -/
def spu : Artifact where
  name := "spu"
  target := none
  path := "spu.tar.zst"
  sha256 := "6100000000000000000000000000000000000000000000000000000000000000"
  size := 1
  revision := "abc1234"
  version := none

def generationA : String := "aaaaaaaaaaaaaaaaaaaaaaaaaaaaaaaaaaaaaaaaaaaaaaaaaaaaaaaaaaaaaaaa"

def spuPlan : Plan := ⟨generationA, 1, [spu]⟩

/-- An apply that places its one artifact, up to the record. -/
def placing (thread : Nat) : List Action :=
  [.advance thread .proceed, .advance thread .proceed, .advance thread .proceed,
    .advance thread (.land 0 (some [0x61])), .advance thread .proceed, .advance thread .proceed,
    .advance thread .proceed, .advance thread .proceed]

/-- Write the record and let the claim go. -/
def recording (thread : Nat) : List Action := [.advance thread .proceed, .advance thread .proceed]

/-- **A resolvable generation has its files.** Wherever a run leads in which no apply
takes its claim on a generation that a retain is collecting, each file that a
resolving generation names stands in its directory with the digest recorded for
it. The plans of one generation come from one manifest, and the run starts from a
root of which the same is true. -/
theorem resolvable_generation_has_its_files {root : InstallRoot}
    (unclaimed : ∀ id, root.publishing id = 0) (whole : Whole sha256 contents root)
    {last : Installs}
    (run : Runs.Moves (Installs.step sha256) (Undisturbed contents) (.idle root) last)
    {id : String} {generation : Generation}
    (resolved : last.root.resolve id = some generation)
    {installed : Installed} (named : installed ∈ generation.artifacts) :
    ∃ content, (last.root.dirs id).fileAt (components installed.path) = some content ∧
      installed.sha256 = (sha256 content).toHex := by
  have sound := Runs.Moves.invariant (Sound sha256 contents)
    (fun _ _ _ undisturbed stepped => sound_step undisturbed stepped) run
    (sound_idle unclaimed whole)
  obtain ⟨⟨content, found, digest⟩, recorded⟩ := sound.whole id generation resolved installed named
  exact ⟨content, found, digest ▸ recorded⟩

/-- A retain that finds the generation claimed lets it be, and the apply it found
records it. -/
theorem resolvable_generation_has_its_files_claimed :
    ∃ (last : Installs) (generation : Generation) (installed : Installed),
      last.root.resolve generationA = some generation ∧
      installed ∈ generation.artifacts ∧
      ∃ content, (last.root.dirs generationA).fileAt (components installed.path) = some content ∧
        installed.sha256 = (ArtifactDigest.leading content).toHex := by
  obtain ⟨last, run, found⟩ := Runs.Moves.of_check (Installs.step .leading)
    (Undisturbed fun _ _ => .leading [0x61]) (.idle .new)
    ([.apply spuPlan] ++ placing 0 ++
      [.retain [] [generationA], .sweep 0 .proceed, .sweep 0 .proceed] ++ recording 0)
    (fun last => (last.root.resolve generationA).any fun generation =>
      !generation.artifacts.isEmpty)
    (by decide +kernel)
  simp only [Option.any_eq_true, Bool.not_eq_true', List.isEmpty_eq_false_iff] at found
  obtain ⟨generation, resolved, some⟩ := found
  obtain ⟨installed, named⟩ := List.exists_mem_of_ne_nil _ some
  exact ⟨last, generation, installed, resolved, named,
    resolvable_generation_has_its_files (fun _ => rfl) whole_new run resolved named⟩

/-- A first apply publishes the generation. A retain finds it neither live nor
claimed and removes its record. A second apply finds nothing that resolves, takes
its claim and places the file. The retain removes it, and the second apply
records the generation. -/
def underfoot : List Action :=
  [.apply spuPlan] ++ placing 0 ++ recording 0 ++
    [.retain [] [generationA], .sweep 0 .proceed, .sweep 0 .proceed, .apply spuPlan] ++ placing 1 ++
    [.sweep 0 (.drop (components spu.path))] ++ recording 1

theorem collected_while_published :
    ∃ last, Runs.Moves (Installs.step .leading) Runs.unguarded (.idle .new) last ∧
      ∃ generation, last.root.resolve generationA = some generation ∧
        ∃ installed ∈ generation.artifacts,
          (last.root.dirs generationA).fileAt (components installed.path) = none := by
  obtain ⟨last, run, found⟩ := Runs.Moves.of_check (Installs.step .leading) Runs.unguarded
    (.idle .new) underfoot (fun last => (last.root.resolve generationA).any fun generation =>
      generation.artifacts.any fun installed =>
        ((last.root.dirs generationA).fileAt (components installed.path)).isNone)
    (by decide +kernel)
  simp only [Option.any_eq_true, List.any_eq_true, Option.isNone_iff_eq_none] at found
  exact ⟨last, run, found⟩

end Retrovert.Apply
