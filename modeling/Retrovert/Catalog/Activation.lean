import Mathlib.Data.List.Perm.Basic
import Retrovert.Catalog.Catalog

/-!
# What an activation comes to

A swap is accepted when every library of the generation loads as a decoder, and leaves
the generation's set and no session. `Activated` says what the activation of a pending
generation comes to, with all that it leaves as it was; `tick_cases` and `mount_cases`
bring a tick and a mount down to it.
-/

set_option autoImplicit false

namespace Retrovert.Catalog

open Retrovert.Apply (Generation Installed)

/-! ## What a swap takes -/

variable {probe : Probe} {outcomes : Outcomes} {generation : Generation}

/-- The set of a generation that has been accepted. -/
def accepting (generation : Generation) : List Plugin :=
  (libraries generation).map fun library => ⟨library, .playback⟩

theorem loadPlugins_errors {paths : List Library} :
    (loadPlugins probe paths).2 = [] ↔ ∀ path ∈ paths, ∃ kind, probe path = .ok kind := by
  simp only [loadPlugins, List.filterMap_eq_nil_iff]
  refine forall₂_congr fun path _ => ?_
  cases probe path with
  | ok kind => simp
  | error error => simp

/-- Without errors there is a plugin of every path. -/
theorem loadPlugins_of_no_errors {paths : List Library}
    (clean : ∀ path ∈ paths, ∃ kind, probe path = .ok kind) :
    (loadPlugins probe paths).1.length = paths.length := by
  induction paths with
  | nil => rfl
  | cons path rest ih =>
      obtain ⟨kind, loads⟩ := clean path List.mem_cons_self
      have more := ih fun path member => clean path (List.mem_cons_of_mem _ member)
      simp only [loadPlugins, List.filterMap_cons, loads, Except.toOption, Option.map_some,
        List.length_cons] at more ⊢
      rw [more]

theorem loadPlugins_playback {paths : List Library}
    (clean : ∀ path ∈ paths, probe path = .ok .playback) :
    loadPlugins probe paths = (paths.map fun path => ⟨path, .playback⟩, []) := by
  refine Prod.ext ?_ (loadPlugins_errors.mpr fun path member => ⟨_, clean path member⟩)
  induction paths with
  | nil => rfl
  | cons path rest ih =>
      have more := ih fun path member => clean path (List.mem_cons_of_mem _ member)
      simp only [loadPlugins, List.filterMap_cons, clean path List.mem_cons_self, Except.toOption,
        Option.map_some, List.map_cons] at more ⊢
      rw [more]

/-- A set is accepted when every library of it loads as a decoder. -/
theorem accepted_iff {backend : Backend} :
    accepted (backend.swapPlugins probe (libraries generation)).2 generation.artifacts.length ↔
      ∀ library ∈ libraries generation, probe library = .ok .playback := by
  have count : generation.artifacts.length = (libraries generation).length := by
    simp [libraries]
  rw [count]
  generalize libraries generation = paths
  simp only [accepted, Backend.swapPlugins, Bool.and_eq_true, List.isEmpty_iff, beq_iff_eq]
  constructor
  · intro ⟨errors, loaded⟩ path member
    have every := loadPlugins_errors.mp errors
    obtain ⟨kind, loads⟩ := every path member
    rw [← loadPlugins_of_no_errors every, List.countP_eq_length] at loaded
    have found : Plugin.mk path kind ∈ (loadPlugins probe paths).1 :=
      List.mem_filterMap.mpr ⟨path, member, by simp [loads, Except.toOption]⟩
    have playback : kind = .playback := by simpa using loaded _ found
    rw [loads, playback]
  · intro clean
    rw [loadPlugins_playback clean]
    refine ⟨rfl, ?_⟩
    rw [List.countP_eq_length.mpr (by simp), List.length_map]

theorem Outcomes.accepts_iff :
    outcomes.accepts generation ↔ outcomes.extract generation = none ∧
      ∀ library ∈ libraries generation, outcomes.probe library = .ok .playback := by
  simp only [Outcomes.accepts, Bool.and_eq_true, Option.isNone_iff_eq_none, List.all_eq_true]
  refine and_congr_right fun _ => forall₂_congr fun library _ => ?_
  split
  · simp_all
  · rename_i refused
    simpa using refused

/-- Swapping an accepted generation in leaves its set and no session. -/
theorem swapPlugins_of_accepts {backend : Backend} (accepts : outcomes.accepts generation) :
    (backend.swapPlugins outcomes.probe (libraries generation)).1 =
      ⟨accepting generation, false, backend.interrupted || backend.live⟩ := by
  simp only [Backend.swapPlugins, loadPlugins_playback (Outcomes.accepts_iff.mp accepts).2,
    accepting]

@[simp] theorem swapPlugins_live {backend : Backend} {paths : List Library} :
    (backend.swapPlugins probe paths).1.live = false :=
  rfl

@[simp] theorem swapPlugins_interrupted {backend : Backend} {paths : List Library} :
    (backend.swapPlugins probe paths).1.interrupted = (backend.interrupted || backend.live) :=
  rfl

@[simp] theorem swapPlugins_nil {backend : Backend} :
    (backend.swapPlugins probe []).1.plugins = [] :=
  rfl

/-! ## The install root -/

theorem Updater.find_retain {updater : Updater} {live : List String} {id : String}
    (spared : id ∈ live) : (updater.retain live).find id = updater.find id := by
  simp only [find, retain, List.find?_filter]
  congr 1
  funext candidate
  by_cases same : candidate.id = id
  · simp [same, spared]
  · simp [same]

/-- Publishing takes no generation away. -/
theorem Updater.find_publish {updater : Updater} {id : String} {held : Generation}
    (found : updater.find id = some held) :
    (updater.publish generation).find id = some held := by
  simp only [publish]
  cases installed : updater.find generation.id with
  | some installed => exact found
  | none =>
      have apart : generation.id ≠ id := by
        intro same
        rw [same, found] at installed
        cases installed
      simpa [find, apart] using found

/-! ## What an activation comes to -/

/-- The set of `id` is taken from disk again. -/
def World.Reloads (world : World) (outcomes : Outcomes) (id : String)
    (generation : Generation) : Prop :=
  (world.generations outcomes).find? (·.id == id) = some generation ∧
    outcomes.accepts generation

variable {world : World} {id : String}

theorem World.reload_of_reloads (reloads : world.Reloads outcomes id generation) :
    world.reload outcomes id = (⟨accepting generation, false,
      world.backend.interrupted || world.backend.live⟩, true) := by
  obtain ⟨found, accepts⟩ := reloads
  have playback := Outcomes.accepts_iff.mp accepts
  simp only [reload, found, playback.1, Prod.mk.injEq]
  exact ⟨swapPlugins_of_accepts accepts, accepted_iff.mpr playback.2⟩

/-- A set that does not reload has interrupted nothing when no session was open. -/
theorem World.reload_of_not_reloads
    (lost : ∀ generation, ¬world.Reloads outcomes id generation) :
    (world.reload outcomes id).2 = false ∧
      ((world.reload outcomes id).1.interrupted || (world.reload outcomes id).1.live) =
        (world.backend.interrupted || world.backend.live) := by
  simp only [reload]
  cases found : (world.generations outcomes).find? (·.id == id) with
  | none => exact ⟨rfl, rfl⟩
  | some generation =>
      cases extracted : outcomes.extract generation with
      | some detail => simp [extracted]
      | none =>
          simp only [extracted]
          refine ⟨?_, by simp⟩
          have refused := lost generation
          rw [Reloads, Outcomes.accepts_iff] at refused
          rw [← Bool.not_eq_true, accepted_iff]
          exact fun playback => refused ⟨found, extracted, playback⟩

/-- What the activation of a pending generation comes to: it is what is loaded, it is
accepted, or it is refused. A refused one is followed by the next boot candidate when
nothing was loaded, and else by the previous set, unless that is lost. -/
inductive Activated (world : World) (outcomes : Outcomes) (generation : Generation) :
    World → Prop
  | same (loaded : world.catalog.loaded = some generation.id) :
      Activated world outcomes generation
        { world with catalog := { world.catalog with pending := none, bootQueue := [] } }
  | taken (different : world.catalog.loaded ≠ some generation.id)
      (accepts : outcomes.accepts generation) :
      Activated world outcomes generation
        { world with
          backend := ⟨accepting generation, false,
            world.backend.interrupted || world.backend.live⟩
          updater := world.updater.retain
            (generation.id :: (world.catalog.log.activated generation.id).previous.toList)
          catalog := { world.catalog with
            pending := none
            loaded := some generation.id
            log := world.catalog.log.activated generation.id
            bootQueue := [] } }
  | next (log : ActivationLog) (nothing : world.catalog.loaded = none)
      (refuses : ¬outcomes.accepts generation) :
      Activated world outcomes generation
        { world with
          backend := ⟨[], false, world.backend.interrupted || world.backend.live⟩
          catalog := { world.catalog with log }.popBoot }
  | fellBack (log : ActivationLog) (previous : String) (again : Generation)
      (loaded : world.catalog.loaded = some previous) (different : previous ≠ generation.id)
      (refuses : ¬outcomes.accepts generation) (reloads : world.Reloads outcomes previous again) :
      Activated world outcomes generation
        { world with
          backend := ⟨accepting again, false, world.backend.interrupted || world.backend.live⟩
          catalog := { world.catalog with pending := none, log } }
  | lost (log : ActivationLog) (previous : String)
      (loaded : world.catalog.loaded = some previous) (different : previous ≠ generation.id)
      (refuses : ¬outcomes.accepts generation)
      (lost : ∀ again, ¬world.Reloads outcomes previous again) :
      Activated world outcomes generation
        { world with
          backend := ⟨[], false, world.backend.interrupted || world.backend.live⟩
          catalog := { world.catalog with pending := none, loaded := none, log } }

/-- What a recovery comes to. The refused generation may have been loaded into the
backend, or have never reached it. -/
theorem World.recover_activated {refused : World} {log : ActivationLog}
    (catalog : refused.catalog = { world.catalog with pending := none, log })
    (updater : refused.updater = world.updater) (channel : refused.channel = world.channel)
    (swapped : (refused.backend.interrupted || refused.backend.live) =
      (world.backend.interrupted || world.backend.live))
    (different : world.catalog.loaded ≠ some generation.id)
    (refuses : ¬outcomes.accepts generation) :
    Activated world outcomes generation (refused.recover outcomes generation.id) := by
  have kept : refused.catalog.loaded = world.catalog.loaded := by rw [catalog]
  have listed : refused.generations outcomes = world.generations outcomes := by
    simp only [generations, updater]
  cases loaded : world.catalog.loaded with
  | none =>
      have next := Activated.next log loaded refuses
      rw [← swapped] at next
      rw [loaded] at kept
      simp only [recover, kept]
      rw [catalog, updater, channel]
      exact next
  | some previous =>
      have apart : previous ≠ generation.id := fun same => different (by rw [loaded, same])
      rw [loaded] at kept
      by_cases again : ∃ again, world.Reloads outcomes previous again
      · obtain ⟨again, reloads⟩ := again
        have fellBack := Activated.fellBack
          (log.fellBack generation.id previous "the previous set was reloaded")
          previous again loaded apart refuses reloads
        rw [Reloads, ← listed] at reloads
        rw [← swapped] at fellBack
        simp only [recover, kept, reload_of_reloads reloads, if_true]
        rw [catalog, updater, channel, ← loaded]
        exact fellBack
      · rw [not_exists] at again
        have lost := Activated.lost
          (log.probeFailed previous "the previous generation would not reload")
          previous loaded apart refuses again
        simp only [Reloads, ← listed] at again
        obtain ⟨refused, same⟩ := reload_of_not_reloads again
        rw [← swapped, ← same] at lost
        simp only [recover, kept, refused, Bool.false_eq_true, if_false]
        rw [catalog, updater, channel]
        exact lost

theorem World.activate_activated (pending : world.catalog.pending = some generation) :
    Activated world outcomes generation (world.activate outcomes) := by
  simp only [activate, pending]
  split
  · rename_i loaded
    exact .same loaded
  · rename_i different
    cases extracted : outcomes.extract generation with
    | some detail =>
        have refuses : ¬outcomes.accepts generation := by
          simp [Outcomes.accepts_iff, extracted]
        exact recover_activated rfl rfl rfl rfl different refuses
    | none =>
        simp only
        split
        · rename_i took
          have accepts := Outcomes.accepts_iff.mpr ⟨extracted, accepted_iff.mp took⟩
          have taken := Activated.taken different accepts
          rw [← swapPlugins_of_accepts accepts] at taken
          exact taken
        · rename_i refused
          have refuses : ¬outcomes.accepts generation := fun accepts =>
            refused (accepted_iff.mpr (Outcomes.accepts_iff.mp accepts).2)
          exact recover_activated rfl rfl rfl (by simp) different refuses

theorem Activated.completions {after : World}
    (activated : Activated world outcomes generation after) :
    after.updater.completions = world.updater.completions := by
  cases activated with
  | same => rfl
  | taken => rfl
  | next => rfl
  | fellBack => rfl
  | lost => rfl

theorem Activated.booted {after : World} (activated : Activated world outcomes generation after) :
    after.catalog.booted = world.catalog.booted := by
  cases activated with
  | same => rfl
  | taken => rfl
  | next => rfl
  | fellBack => rfl
  | lost => rfl

theorem Activated.installed {after : World}
    (activated : Activated world outcomes generation after) :
    after.updater.installed = world.updater.installed := by
  cases activated with
  | same => rfl
  | taken => rfl
  | next => rfl
  | fellBack => rfl
  | lost => rfl

/-- An accepted generation is what is loaded, and nothing is left to try. -/
theorem Activated.of_accepts {after : World} (activated : Activated world outcomes generation after)
    (accepts : outcomes.accepts generation) :
    after.catalog.loaded = some generation.id ∧ after.catalog.pending = none ∧
      after.catalog.bootQueue = [] := by
  cases activated with
  | same loaded => exact ⟨loaded, rfl, rfl⟩
  | taken => exact ⟨rfl, rfl, rfl⟩
  | next _ _ refuses => exact absurd accepts refuses
  | fellBack _ _ _ _ _ refuses => exact absurd accepts refuses
  | lost _ _ _ _ refuses => exact absurd accepts refuses

/-! ## What a step comes to -/

/-- The candidates are what was found, in another order. -/
theorem candidates_perm {catalog : PluginCatalog} {modified : String → Nat}
    {generations : List Generation} :
    (catalog.candidates modified generations).Perm generations := by
  have sorted := List.perm_insertionSort
    (fun first second : Generation => modified first.id ≤ modified second.id) generations
  simp only [PluginCatalog.candidates]
  split
  · rename_i position found
    obtain ⟨id, -, found⟩ := Option.bind_eq_some_iff.mp found
    obtain ⟨within, -⟩ := List.findIdx?_eq_some_iff_getElem.mp found
    rw [List.getElem?_eq_getElem within]
    exact (List.perm_append_singleton _ _).trans
      ((List.getElem_cons_eraseIdx_perm within).trans sorted)
  · exact sorted

theorem World.mem_generations (listed : generation ∈ world.generations outcomes) :
    generation ∈ world.updater.root := by
  simp only [generations] at listed
  split at listed
  · exact listed
  · cases listed

theorem World.bootOnce_of_booted (booted : world.catalog.booted = true) :
    world.bootOnce outcomes = world := by
  simp only [bootOnce, booted, if_true]

/-- Beside its boot candidates, booting changes nothing. -/
theorem World.bootOnce_frame (world : World) (outcomes : Outcomes) :
    ∃ pending bootQueue, world.bootOnce outcomes = { world with
      catalog := { world.catalog with booted := true, pending, bootQueue } } := by
  by_cases booted : world.catalog.booted
  · refine ⟨world.catalog.pending, world.catalog.bootQueue, ?_⟩
    rw [bootOnce_of_booted booted, ← booted]
  · simp only [bootOnce, booted, Bool.false_eq_true, if_false]
    exact ⟨_, _, rfl⟩

theorem World.bootOnce_booted : (world.bootOnce outcomes).catalog.booted = true := by
  obtain ⟨pending, bootQueue, booted⟩ := bootOnce_frame world outcomes
  rw [booted]

@[simp] theorem World.bootOnce_updater (world : World) (outcomes : Outcomes) :
    (world.bootOnce outcomes).updater = world.updater := by
  obtain ⟨pending, bootQueue, booted⟩ := bootOnce_frame world outcomes
  rw [booted]

theorem World.tick_cases (world : World) (outcomes : Outcomes) :
    (world.tick outcomes = (world.bootOnce outcomes).nextCompleted ∧
      ((world.bootOnce outcomes).nextCompleted.catalog.pending = none ∨
        (world.bootOnce outcomes).nextCompleted.backend.live = true)) ∨
    ∃ generation, (world.bootOnce outcomes).nextCompleted.catalog.pending = some generation ∧
      (world.bootOnce outcomes).nextCompleted.backend.live = false ∧
      Activated (world.bootOnce outcomes).nextCompleted outcomes generation
        (world.tick outcomes) := by
  simp only [tick]
  generalize (world.bootOnce outcomes).nextCompleted = ready
  cases pending : ready.catalog.pending with
  | none => exact .inl ⟨by simp, .inl rfl⟩
  | some generation =>
      cases live : ready.backend.live with
      | true => exact .inl ⟨by simp, .inr rfl⟩
      | false => exact .inr ⟨generation, rfl, rfl, by simpa using activate_activated pending⟩

theorem World.mount_cases (world : World) (outcomes : Outcomes) (opens : Bool) :
    ∃ ready : World,
      world.mount outcomes opens = { ready with backend := ready.backend.mount opens } ∧
      ((ready = world.bootOnce outcomes ∧ ready.catalog.pending = none) ∨
        ∃ generation, (world.bootOnce outcomes).catalog.pending = some generation ∧
          Activated { world.bootOnce outcomes with
            backend := (world.bootOnce outcomes).backend.close } outcomes generation ready) := by
  refine ⟨_, rfl, ?_⟩
  generalize world.bootOnce outcomes = booted
  cases pending : booted.catalog.pending with
  | none => exact .inl ⟨by simp, by simpa using pending⟩
  | some generation =>
      refine .inr ⟨generation, rfl, ?_⟩
      simp only [Option.isSome_some, if_true]
      exact activate_activated pending

theorem World.tick_booted : (world.tick outcomes).catalog.booted = true := by
  have booted : (world.bootOnce outcomes).nextCompleted.catalog.booted = true := bootOnce_booted
  rcases tick_cases world outcomes with
    ⟨rests, -⟩ | ⟨generation, -, -, activated⟩
  · rw [rests, booted]
  · rw [activated.booted, booted]

theorem World.tick_installed :
    (world.tick outcomes).updater.installed = world.updater.installed := by
  have kept : (world.bootOnce outcomes).nextCompleted.updater.installed =
      world.updater.installed := by
    simp [nextCompleted]
  rcases tick_cases world outcomes with
    ⟨rests, -⟩ | ⟨generation, -, -, activated⟩
  · rw [rests, kept]
  · rw [activated.installed, kept]

theorem World.mount_booted {opens : Bool} :
    (world.mount outcomes opens).catalog.booted = true := by
  obtain ⟨ready, mounted, ⟨rfl, -⟩ | ⟨generation, -, activated⟩⟩ :=
    mount_cases world outcomes opens
  · rw [mounted]
    exact bootOnce_booted
  · rw [mounted]
    exact activated.booted.trans bootOnce_booted

theorem World.mount_installed {opens : Bool} :
    (world.mount outcomes opens).updater.installed = world.updater.installed := by
  obtain ⟨ready, mounted, ⟨rfl, -⟩ | ⟨generation, -, activated⟩⟩ :=
    mount_cases world outcomes opens
  · rw [mounted, bootOnce_updater]
  · rw [mounted]
    exact activated.installed.trans (by rw [bootOnce_updater])

end Retrovert.Catalog
