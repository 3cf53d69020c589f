import Retrovert.Catalog.Activation
import Retrovert.Library.Runs

/-!
# The loaded set and the record

The backend holds exactly the libraries of the generation on record, each one accepted,
and nothing when there is none; and it is never swapped under an open session.

A generation is named by the digest of its manifest, so an id always names the same
artifacts. `manifest` says which. The generations that a run ever deals with come from
the install root and from the channel, and stay what the manifest says of them.
-/

set_option autoImplicit false

namespace Retrovert.Catalog

open Retrovert.Apply (Generation Installed)
open Retrovert.Runs

section Known

variable (manifest : String → List Installed)

/-- The generation that an id names. -/
def named (id : String) : Generation := ⟨id, manifest id⟩

/-- What the channel offers is what its id names. -/
def ReleasesNamed (_ : World) : Action → Prop
  | .release generation => generation = named manifest generation.id
  | _ => True

/-- The plugin set that goes with a record. -/
def resident : Option String → List Plugin
  | none => []
  | some id => accepting (named manifest id)

/-- Every generation of a world is what its id names. -/
structure Known (world : World) : Prop where
  root : ∀ generation ∈ world.updater.root, generation = named manifest generation.id
  completed : ∀ generation ∈ world.updater.completions.pending,
    generation = named manifest generation.id
  applying : ∀ generation, world.updater.job = .applying generation →
    generation = named manifest generation.id
  offering : ∀ generation, world.updater.job = .offering generation →
    generation = named manifest generation.id
  channel : ∀ generation ∈ world.channel, generation = named manifest generation.id
  pending : ∀ generation ∈ world.catalog.pending, generation = named manifest generation.id
  bootQueue : ∀ generation ∈ world.catalog.bootQueue, generation = named manifest generation.id

end Known

variable {manifest : String → List Installed} {world after : World} {outcomes : Outcomes}
  {generation : Generation} {root : List Generation} {log : ActivationLog}

namespace Known

theorem started (onDisk : ∀ generation ∈ root, generation = named manifest generation.id) :
    Known manifest (World.started root log) where
  root := onDisk
  completed := by simp [World.started]
  applying := by simp [World.started]
  offering := by simp [World.started]
  channel := by simp [World.started]
  pending := by simp [World.started]
  bootQueue := by simp [World.started]

/-- Popping a boot candidate keeps to what was known of the queue. -/
theorem popBoot (known : Known manifest world) {log : ActivationLog} {backend : Backend} :
    Known manifest { world with
      backend
      catalog := { world.catalog with log }.popBoot } :=
  { known with
    pending := fun _ last => known.bootQueue _ (List.mem_of_mem_getLast? last)
    bootQueue := fun _ member => known.bootQueue _ (List.mem_of_mem_dropLast member) }

theorem bootOnce (known : Known manifest world) (outcomes : Outcomes) :
    Known manifest (world.bootOnce outcomes) := by
  simp only [World.bootOnce]
  split
  · exact known
  · have candidates : ∀ generation ∈ world.catalog.candidates outcomes.modified
        (world.generations outcomes), generation = named manifest generation.id :=
      fun _ member => known.root _ (World.mem_generations (candidates_perm.mem_iff.mp member))
    exact { known with
      pending := fun _ last => candidates _ (List.mem_of_mem_getLast? last)
      bootQueue := fun _ member => candidates _ (List.mem_of_mem_dropLast member) }

theorem nextCompleted (known : Known manifest world) : Known manifest world.nextCompleted := by
  refine { known with
    completed := fun _ member => known.completed _ (List.mem_of_mem_tail member)
    pending := fun _ next => ?_ }
  rcases Option.or_eq_some_iff.mp next with head | ⟨-, kept⟩
  · exact known.completed _ (List.mem_of_mem_head? head)
  · exact known.pending _ kept

theorem activated (known : Known manifest world)
    (activated : Activated world outcomes generation after) : Known manifest after := by
  cases activated with
  | same loaded => exact { known with pending := by simp, bootQueue := by simp }
  | taken different accepts =>
      exact { known with
        root := fun _ member => known.root _ (List.mem_of_mem_filter member)
        pending := by simp
        bootQueue := by simp }
  | next log nothing refuses => exact known.popBoot
  | fellBack log previous again loaded different refuses reloads =>
      exact { known with pending := by simp }
  | lost log previous loaded different refuses lost => exact { known with pending := by simp }

theorem tick (known : Known manifest world) : Known manifest (world.tick outcomes) := by
  have ready := (known.bootOnce outcomes).nextCompleted
  rcases World.tick_cases world outcomes with
    ⟨rests, -⟩ | ⟨generation, -, -, activated⟩
  · rw [rests]
    exact ready
  · exact ready.activated activated

theorem mount {opens : Bool} (known : Known manifest world) :
    Known manifest (world.mount outcomes opens) := by
  have booted := known.bootOnce outcomes
  obtain ⟨ready, mounted, ⟨rfl, -⟩ | ⟨generation, -, activated⟩⟩ :=
    World.mount_cases world outcomes opens
  · rw [mounted]
    exact { booted with }
  · have closed : Known manifest { world.bootOnce outcomes with
        backend := (world.bootOnce outcomes).backend.close } := { booted with }
    rw [mounted]
    exact { closed.activated activated with }

theorem publish (known : Known manifest world) (job : world.updater.job = .applying generation) :
    Known manifest { world with updater := world.updater.publish generation } := by
  have applied := known.applying generation job
  simp only [Updater.publish]
  split
  · rename_i installed found
    exact { known with
      applying := by simp
      offering := fun _ same => by
        cases same
        exact known.root _ (List.mem_of_find?_eq_some found) }
  · exact { known with
      root := List.forall_mem_cons.mpr ⟨applied, known.root⟩
      applying := by simp
      offering := fun _ same => by
        cases same
        exact applied }

theorem offer (known : Known manifest world) (job : world.updater.job = .offering generation) :
    Known manifest { world with updater := world.updater.offer generation } := by
  have completed : ∀ waiting ∈ (world.updater.completions.record generation).pending,
      waiting = named manifest waiting.id := by
    intro waiting member
    simp only [Completions.record] at member
    split at member
    · exact known.completed waiting member
    · rcases List.mem_append.mp member with earlier | last
      · exact known.completed waiting earlier
      · cases List.mem_singleton.mp last
        exact known.offering generation job
  exact { known with
    completed
    applying := by simp [Updater.offer]
    offering := by simp [Updater.offer] }

/-- What the channel offers apart, no step brings anything new. -/
theorem step {action : Action} (known : Known manifest world)
    (releases : ReleasesNamed manifest world action) (stepped : world.step action = some after) :
    Known manifest after := by
  cases action with
  | tick outcomes =>
      cases stepped
      exact known.tick
  | mount outcomes opens =>
      cases stepped
      exact known.mount
  | close =>
      cases stepped
      exact { known with }
  | release generation =>
      cases stepped
      exact { known with
        channel := fun _ same => by
          cases same
          exact releases }
  | check =>
      simp only [World.step] at stepped
      split at stepped
      · rename_i offered job channel
        cases stepped
        simp only [Updater.check]
        split
        · exact known
        · exact { known with
            applying := fun _ same => by
              cases same
              exact known.channel _ channel
            offering := by simp }
      · cases stepped
  | publish =>
      simp only [World.step] at stepped
      split at stepped
      · rename_i generation job
        cases stepped
        exact known.publish job
      · cases stepped
  | fail =>
      simp only [World.step] at stepped
      split at stepped
      · cases stepped
        exact { known with applying := by simp, offering := by simp }
      · cases stepped
  | offer =>
      simp only [World.step] at stepped
      split at stepped
      · rename_i generation job
        cases stepped
        exact known.offer job
      · cases stepped

end Known

/-! ## The backend and the record -/

/-- The set goes with the record, and no session was ever interrupted. -/
structure InStep (manifest : String → List Installed) (world : World) : Prop where
  known : Known manifest world
  set : world.backend.plugins = resident manifest world.catalog.loaded
  undisturbed : world.backend.interrupted = false

namespace InStep

theorem started (onDisk : ∀ generation ∈ root, generation = named manifest generation.id) :
    InStep manifest (World.started root log) where
  known := .started onDisk
  set := rfl
  undisturbed := rfl

/-- An activation leaves the set it records: the generation's own, the previous one, or none. -/
theorem activated (inStep : InStep manifest world) (live : world.backend.live = false)
    (pending : world.catalog.pending = some generation)
    (activated : Activated world outcomes generation after) : InStep manifest after := by
  have undisturbed : (world.backend.interrupted || world.backend.live) = false := by
    rw [inStep.undisturbed, live]
    rfl
  refine ⟨inStep.known.activated activated, ?_, ?_⟩
  · cases activated with
    | same loaded => exact inStep.set
    | taken different accepts =>
        have known := inStep.known.pending generation pending
        simp only [resident]
        rw [← known]
    | next log nothing refuses => simp [PluginCatalog.popBoot, nothing, resident]
    | fellBack log previous again loaded different refuses reloads =>
        have found := reloads.1
        have known := inStep.known.root again
          (World.mem_generations (List.mem_of_find?_eq_some found))
        have same : again.id = previous := by simpa using List.find?_some found
        simp only [resident, loaded]
        rw [← same, ← known]
    | lost log previous loaded different refuses lost => rfl
  · cases activated with
    | same loaded => exact inStep.undisturbed
    | taken different accepts => exact undisturbed
    | next log nothing refuses => exact undisturbed
    | fellBack log previous again loaded different refuses reloads => exact undisturbed
    | lost log previous loaded different refuses lost => exact undisturbed

theorem bootOnce (inStep : InStep manifest world) (outcomes : Outcomes) :
    InStep manifest (world.bootOnce outcomes) := by
  obtain ⟨pending, bootQueue, booted⟩ := World.bootOnce_frame world outcomes
  refine ⟨inStep.known.bootOnce outcomes, ?_, ?_⟩
  · rw [booted]
    exact inStep.set
  · rw [booted]
    exact inStep.undisturbed

theorem tick (inStep : InStep manifest world) : InStep manifest (world.tick outcomes) := by
  have booted := inStep.bootOnce outcomes
  have ready : InStep manifest (world.bootOnce outcomes).nextCompleted :=
    ⟨booted.known.nextCompleted, booted.set, booted.undisturbed⟩
  rcases World.tick_cases world outcomes with
    ⟨rests, -⟩ | ⟨generation, pending, live, activated⟩
  · rw [rests]
    exact ready
  · exact ready.activated live pending activated

theorem mount {opens : Bool} (inStep : InStep manifest world) :
    InStep manifest (world.mount outcomes opens) := by
  have booted := inStep.bootOnce outcomes
  obtain ⟨ready, mounted, ⟨rfl, -⟩ | ⟨generation, pending, activated⟩⟩ :=
    World.mount_cases world outcomes opens
  · rw [mounted]
    exact ⟨{ booted.known with }, booted.set, booted.undisturbed⟩
  · have closed : InStep manifest { world.bootOnce outcomes with
        backend := (world.bootOnce outcomes).backend.close } :=
      ⟨{ booted.known with }, booted.set, booted.undisturbed⟩
    have after := closed.activated rfl pending activated
    rw [mounted]
    exact ⟨{ after.known with }, after.set, after.undisturbed⟩

/-- The updater and the channel touch neither the set nor the record. -/
theorem step {action : Action} (inStep : InStep manifest world)
    (releases : ReleasesNamed manifest world action) (stepped : world.step action = some after) :
    InStep manifest after := by
  have known := inStep.known.step releases stepped
  cases action with
  | tick outcomes =>
      cases stepped
      exact inStep.tick
  | mount outcomes opens =>
      cases stepped
      exact inStep.mount
  | close | release generation =>
      cases stepped
      exact ⟨known, inStep.set, inStep.undisturbed⟩
  | check | publish | fail | offer =>
      simp only [World.step] at stepped
      split at stepped
      · cases stepped
        exact ⟨known, inStep.set, inStep.undisturbed⟩
      · cases stepped

end InStep

/-- In every run of a catalog, from whatever its last run left on disk: the backend
holds the libraries of the generation on record, each one accepted as a decoder, and
none when there is no such generation; and no session was open when the set was
swapped. -/
theorem loaded_set_matches_the_record {last : World}
    (onDisk : ∀ generation ∈ root, generation = named manifest generation.id)
    (run : Moves World.step (ReleasesNamed manifest) (World.started root log) last) :
    last.backend.plugins = resident manifest last.catalog.loaded ∧
      last.backend.interrupted = false := by
  have inStep : InStep manifest last :=
    run.invariant (InStep manifest)
      (fun _ _ _ releases stepped inStep => inStep.step releases stepped) (.started onDisk)
  exact ⟨inStep.set, inStep.undisturbed⟩

instance : ∀ world action, Decidable (ReleasesNamed manifest world action)
  | _, .release generation =>
      inferInstanceAs (Decidable (generation = named manifest generation.id))
  | _, .tick _ | _, .mount _ _ | _, .close | _, .check | _, .publish | _, .fail | _, .offer =>
      inferInstanceAs (Decidable True)

/-- A generation that does not load gives way to the one that was loaded, whose set is
resident again. -/
theorem a_refused_generation_is_not_resident :
    ∃ last, Moves World.step (ReleasesNamed fun _ => (decoder "").artifacts)
        (World.started [decoder "good"] {}) last ∧
      last.catalog.loaded = some "good" ∧
      last.backend.plugins = resident (fun _ => (decoder "").artifacts) last.catalog.loaded ∧
      last.backend.interrupted = false := by
  let good := Outcomes.loading (· == "good")
  obtain ⟨last, run, loaded⟩ := Moves.of_check World.step
    (ReleasesNamed fun _ => (decoder "").artifacts) (World.started [decoder "good"] {})
    [.tick good, .release (decoder "bad"), .check, .publish, .offer, .tick good]
    (fun last => decide (last.catalog.loaded = some "good") &&
      last.catalog.log.history.length = 3)
    (by decide +kernel)
  simp only [Bool.and_eq_true, decide_eq_true_eq] at loaded
  exact ⟨last, run, loaded.1, loaded_set_matches_the_record (by simp [named, decoder]) run⟩

end Retrovert.Catalog
