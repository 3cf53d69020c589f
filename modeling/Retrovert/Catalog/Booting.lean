import Retrovert.Catalog.Activation
import Retrovert.Library.Runs

/-!
# Falling back at boot

At boot the catalog tries the generations that stand on disk one after the other, each
through the slot that generations from the updater arrive in too. A completion that
arrives between two candidates takes the place of the one that was about to be tried.
When that was the last one that loads, and the arrival is refused, the catalog comes to
rest with nothing loaded (`an_arrival_takes_the_last_candidate`). While no arrival takes
the place of the last candidate that loads, it never does
(`boot_fallback_is_exhaustive`).
-/

set_option autoImplicit false

namespace Retrovert.Catalog

open Retrovert.Apply (Generation Installed)
open Retrovert.Runs

/-- Nothing is pending, no boot candidate is left, and no session is open. -/
def World.AtRest (world : World) : Prop :=
  world.catalog.booted = true ∧ world.catalog.pending = none ∧ world.catalog.bootQueue = [] ∧
    world.backend.live = false

instance (world : World) : Decidable world.AtRest :=
  inferInstanceAs (Decidable (_ ∧ _ ∧ _ ∧ _))

section Guards

variable (clean : String → Bool)

/-- The generation `id` is on disk and loads clean. -/
def World.Loads (world : World) (id : String) : Prop :=
  clean id = true ∧ (world.updater.find id).isSome

/-- The install root can be listed, and a generation that is loaded is accepted if it loads
clean and is on disk. -/
def World.Verdict (world : World) (outcomes : Outcomes) : Prop :=
  outcomes.lists = true ∧
    ∀ generation ∈ world.catalog.pending.toList ++ world.updater.root,
      outcomes.accepts generation = true ↔ world.Loads clean generation.id

/-- With nothing loaded, a completion does not take the place of the last candidate that
loads, unless it loads too. -/
def World.SparesCandidate (world : World) : Prop :=
  world.catalog.loaded = none →
    (∃ generation ∈ world.catalog.pending, world.Loads clean generation.id) →
    (∀ generation ∈ world.catalog.bootQueue, ¬world.Loads clean generation.id) →
    ∀ next ∈ world.updater.completions.pending.head?, world.Loads clean next.id

/-- What a load of a generation comes to is always the same. -/
def FixedVerdicts (world : World) : Action → Prop
  | .tick outcomes => (world.bootOnce outcomes).nextCompleted.Verdict clean outcomes
  | .mount outcomes _ => (world.bootOnce outcomes).Verdict clean outcomes
  | _ => True

def SparesCandidates (world : World) : Action → Prop
  | .tick outcomes => (world.bootOnce outcomes).SparesCandidate clean
  | _ => True

instance (world : World) (id : String) : Decidable (world.Loads clean id) :=
  inferInstanceAs (Decidable (_ ∧ _))

instance (world : World) (outcomes : Outcomes) : Decidable (world.Verdict clean outcomes) :=
  inferInstanceAs (Decidable (_ ∧ ∀ generation ∈ _ ++ _, _ ↔ _))

instance (world : World) : Decidable (world.SparesCandidate clean) :=
  inferInstanceAs (Decidable (_ → (∃ generation ∈ world.catalog.pending, _) →
    (∀ generation ∈ world.catalog.bootQueue, _) →
    ∀ next ∈ world.updater.completions.pending.head?, _))

instance : ∀ world action, Decidable (FixedVerdicts clean world action)
  | world, .tick outcomes =>
      inferInstanceAs (Decidable ((world.bootOnce outcomes).nextCompleted.Verdict clean outcomes))
  | world, .mount outcomes _ =>
      inferInstanceAs (Decidable ((world.bootOnce outcomes).Verdict clean outcomes))
  | _, .release _ | _, .close | _, .check | _, .publish | _, .fail | _, .offer =>
      inferInstanceAs (Decidable True)

instance : ∀ world action, Decidable (SparesCandidates clean world action)
  | world, .tick outcomes =>
      inferInstanceAs (Decidable ((world.bootOnce outcomes).SparesCandidate clean))
  | _, .mount _ _ | _, .release _ | _, .close | _, .check | _, .publish | _, .fail | _, .offer =>
      inferInstanceAs (Decidable True)

end Guards

variable {clean : String → Bool} {world after : World} {outcomes : Outcomes}
  {generation : Generation} {root : List Generation} {log : ActivationLog} {id : String}

theorem mem_popBoot (catalog : PluginCatalog) (member : generation ∈ catalog.bootQueue) :
    generation ∈ catalog.popBoot.pending.toList ++ catalog.popBoot.bootQueue := by
  simp only [PluginCatalog.popBoot]
  rcases List.eq_nil_or_concat catalog.bootQueue with none | ⟨front, last, queue⟩
  · rw [none] at member
    cases member
  · rw [queue] at member ⊢
    simpa [or_comm] using member

theorem World.loads_of_mem (member : generation ∈ world.updater.root)
    (loads : clean generation.id = true) : world.Loads clean generation.id :=
  ⟨loads, List.find?_isSome.mpr ⟨generation, member, by simp⟩⟩

/-- A candidate that loads is left, or something is loaded. -/
structure Fed (clean : String → Bool) (world : World) : Prop where
  found : world.catalog.booted = false → ∃ generation ∈ world.updater.root,
    clean generation.id = true
  loaded : ∀ id ∈ world.catalog.loaded, world.Loads clean id
  untried : world.catalog.booted = true → world.catalog.loaded = none →
    ∃ generation ∈ world.catalog.pending.toList ++ world.catalog.bootQueue,
      world.Loads clean generation.id

namespace Fed

theorem started (found : ∃ generation ∈ root, clean generation.id = true) :
    Fed clean (World.started root log) where
  found _ := found
  loaded := by simp [World.started]
  untried booted := by cases booted

theorem bootOnce (fed : Fed clean world) (lists : outcomes.lists = true) :
    Fed clean (world.bootOnce outcomes) := by
  cases booted : world.catalog.booted with
  | true =>
      rw [World.bootOnce_of_booted booted]
      exact fed
  | false =>
      obtain ⟨generation, member, loads⟩ := fed.found booted
      have listed : generation ∈ world.catalog.candidates outcomes.modified
          (world.generations outcomes) := by
        rw [candidates_perm.mem_iff, World.generations, if_pos lists]
        exact member
      have untried := mem_popBoot { world.catalog with
        booted := true
        bootQueue := world.catalog.candidates outcomes.modified (world.generations outcomes) }
        listed
      simp only [World.bootOnce, booted, Bool.false_eq_true, if_false]
      exact {
        found := by simp [PluginCatalog.popBoot]
        loaded := fed.loaded
        untried := fun _ _ => ⟨generation, untried, World.loads_of_mem member loads⟩ }

/-- A completion takes the place of what is pending. -/
theorem nextCompleted (fed : Fed clean world) (booted : world.catalog.booted = true)
    (spares : world.SparesCandidate clean) : Fed clean world.nextCompleted := by
  refine ⟨by simp [World.nextCompleted, booted], fed.loaded, fun _ nothing => ?_⟩
  obtain ⟨generation, candidate, loads⟩ := fed.untried booted nothing
  by_cases left : ∃ generation ∈ world.catalog.bootQueue, world.Loads clean generation.id
  · obtain ⟨other, queued, loads⟩ := left
    exact ⟨other, List.mem_append_right _ queued, loads⟩
  · simp only [not_exists, not_and] at left
    have pending : generation ∈ world.catalog.pending.toList :=
      (List.mem_append.mp candidate).resolve_right fun queued => left generation queued loads
    rw [Option.mem_toList] at pending
    cases arrives : world.updater.completions.pending.head? with
    | none =>
        refine ⟨generation, ?_, loads⟩
        simp [World.nextCompleted, Completions.nextCompleted, arrives, Option.mem_def.mp pending]
    | some next =>
        have taken := spares nothing ⟨generation, pending, loads⟩ left next arrives
        refine ⟨next, ?_, taken⟩
        simp [World.nextCompleted, Completions.nextCompleted, arrives]

/-- A refusal goes on to the next candidate, or puts back a set that loads. -/
theorem activated (fed : Fed clean world) (booted : world.catalog.booted = true)
    (verdict : world.Verdict clean outcomes)
    (pending : world.catalog.pending = some generation)
    (activated : Activated world outcomes generation after) : Fed clean after := by
  have judged := verdict.2 generation (by simp [pending])
  refine ⟨by simp [activated.booted, booted], ?_, ?_⟩
  · cases activated with
    | same loaded => exact fed.loaded
    | taken different accepts =>
        intro id same
        cases same
        have spared : generation.id ∈
            generation.id :: (world.catalog.log.activated generation.id).previous.toList :=
          List.mem_cons_self
        rw [World.Loads, Updater.find_retain spared]
        exact judged.mp accepts
    | next log nothing refuses => exact fed.loaded
    | fellBack log previous again loaded different refuses reloads => exact fed.loaded
    | lost log previous loaded different refuses lost => simp
  · intro _ nothing
    cases activated with
    | same loaded => exact absurd (loaded.symm.trans nothing) (by simp)
    | taken different accepts => cases nothing
    | next log nothing refuses =>
        obtain ⟨other, candidate, loads⟩ := fed.untried booted nothing
        have queued : other ∈ world.catalog.bootQueue := by
          refine (List.mem_append.mp candidate).resolve_left fun same => refuses ?_
          simp only [pending, Option.toList_some, List.mem_singleton] at same
          rw [same] at loads
          exact judged.mpr loads
        exact ⟨other, mem_popBoot { world.catalog with log } queued, loads⟩
    | fellBack log previous again loaded different refuses reloads =>
        exact absurd (loaded.symm.trans nothing) (by simp)
    | lost log previous loaded different refuses lost =>
        obtain ⟨loads, resolves⟩ := fed.loaded previous loaded
        obtain ⟨again, found⟩ := Option.isSome_iff_exists.mp resolves
        have same : again.id = previous := by simpa using List.find?_some found
        have accepts := (verdict.2 again (by simp [List.mem_of_find?_eq_some found])).mpr
          (by rw [same]; exact ⟨loads, resolves⟩)
        refine absurd ⟨?_, accepts⟩ (lost again)
        rw [World.generations, if_pos verdict.1]
        exact found

theorem tick (fed : Fed clean world) (fixed : FixedVerdicts clean world (.tick outcomes))
    (spares : SparesCandidates clean world (.tick outcomes)) :
    Fed clean (world.tick outcomes) := by
  have booted : (world.bootOnce outcomes).nextCompleted.catalog.booted = true :=
    World.bootOnce_booted
  have ready := (fed.bootOnce fixed.1).nextCompleted World.bootOnce_booted spares
  rcases World.tick_cases world outcomes with ⟨rests, -⟩ | ⟨generation, pending, -, activated⟩
  · rw [rests]
    exact ready
  · exact ready.activated booted fixed pending activated

theorem mount {opens : Bool} (fed : Fed clean world)
    (fixed : FixedVerdicts clean world (.mount outcomes opens)) :
    Fed clean (world.mount outcomes opens) := by
  have booted := fed.bootOnce fixed.1
  obtain ⟨ready, mounted, ⟨rfl, -⟩ | ⟨generation, pending, activated⟩⟩ :=
    World.mount_cases world outcomes opens
  · rw [mounted]
    exact { booted with }
  · have closed : Fed clean { world.bootOnce outcomes with
        backend := (world.bootOnce outcomes).backend.close } := { booted with }
    rw [mounted]
    exact { closed.activated World.bootOnce_booted fixed pending activated with }

theorem publish (fed : Fed clean world) :
    Fed clean { world with updater := world.updater.publish generation } := by
  have kept : ∀ id, world.Loads clean id →
      World.Loads clean { world with updater := world.updater.publish generation } id := by
    intro id ⟨loads, resolves⟩
    obtain ⟨held, found⟩ := Option.isSome_iff_exists.mp resolves
    exact ⟨loads, Option.isSome_iff_exists.mpr ⟨held, Updater.find_publish found⟩⟩
  refine ⟨fun unbooted => ?_, fun id loaded => kept id (fed.loaded id loaded),
    fun booted nothing => ?_⟩
  · obtain ⟨held, member, loads⟩ := fed.found unbooted
    refine ⟨held, ?_, loads⟩
    simp only [Updater.publish]
    split
    · exact member
    · exact List.mem_cons_of_mem _ member
  · obtain ⟨candidate, member, loads⟩ := fed.untried booted nothing
    exact ⟨candidate, member, kept _ loads⟩

theorem step {action : Action} (fed : Fed clean world) (fixed : FixedVerdicts clean world action)
    (spares : SparesCandidates clean world action) (stepped : world.step action = some after) :
    Fed clean after := by
  cases action with
  | tick outcomes =>
      cases stepped
      exact fed.tick fixed spares
  | mount outcomes opens =>
      cases stepped
      exact fed.mount fixed
  | close | release generation =>
      cases stepped
      exact { fed with }
  | check =>
      simp only [World.step] at stepped
      split at stepped
      · cases stepped
        simp only [Updater.check]
        split
        · exact fed
        · exact { fed with }
      · cases stepped
  | publish =>
      simp only [World.step] at stepped
      split at stepped
      · cases stepped
        exact fed.publish
      · cases stepped
  | fail | offer =>
      simp only [World.step] at stepped
      split at stepped
      · cases stepped
        exact { fed with }
      · cases stepped

end Fed

/-- Some generation that stands on disk at boot loads clean. In every run in which no
completion takes the place of the last candidate that loads, the catalog does not come to
rest with nothing loaded. -/
theorem boot_fallback_is_exhaustive {last : World}
    (found : ∃ generation ∈ root, clean generation.id = true)
    (run : Moves World.step
      (fun world action => FixedVerdicts clean world action ∧ SparesCandidates clean world action)
      (World.started root log) last)
    (rests : last.AtRest) : last.catalog.loaded ≠ none := by
  have fed : Fed clean last :=
    run.invariant (Fed clean)
      (fun _ _ _ meets stepped fed => fed.step meets.1 meets.2 stepped) (.started found)
  obtain ⟨booted, pending, bootQueue, -⟩ := rests
  intro nothing
  obtain ⟨generation, candidate, -⟩ := fed.untried booted nothing
  simp [pending, bootQueue] at candidate

/-- The newest of two generations on disk does not load, and the catalog goes on to the
older one. -/
theorem the_older_candidate_is_loaded :
    ∃ last, Moves World.step
        (fun world action => FixedVerdicts (· == "good") world action ∧
          SparesCandidates (· == "good") world action)
        (World.started [decoder "good", decoder "bad"] {}) last ∧
      last.AtRest ∧ last.catalog.loaded ≠ none := by
  let outcomes := Outcomes.loading (· == "good")
  obtain ⟨last, run, found⟩ := Moves.of_check World.step
    (fun world action => FixedVerdicts (· == "good") world action ∧
      SparesCandidates (· == "good") world action)
    (World.started [decoder "good", decoder "bad"] {}) [.tick outcomes, .tick outcomes]
    (fun last => decide last.AtRest) (by decide +kernel)
  have rests := of_decide_eq_true found
  exact ⟨last, run, rests, boot_fallback_is_exhaustive (by decide) run rests⟩

/-- The newest generation on disk is refused, and the older one, which loads, is pending.
Then a completion arrives, takes its place, and is refused too: the catalog rests with
nothing loaded, and the generation that loads is on disk. -/
theorem an_arrival_takes_the_last_candidate :
    ∃ last, Moves World.step (FixedVerdicts (· == "good"))
        (World.started [decoder "good", decoder "bad"] {}) last ∧
      last.AtRest ∧ last.catalog.loaded = none ∧ decoder "good" ∈ last.updater.root := by
  let outcomes := Outcomes.loading (· == "good")
  obtain ⟨last, run, found⟩ := Moves.of_check World.step (FixedVerdicts (· == "good"))
    (World.started [decoder "good", decoder "bad"] {})
    [.tick outcomes, .release (decoder "worse"), .check, .publish, .offer, .tick outcomes]
    (fun last => decide (last.AtRest ∧ last.catalog.loaded = none ∧
      decoder "good" ∈ last.updater.root))
    (by decide +kernel)
  exact ⟨last, run, of_decide_eq_true found⟩

end Retrovert.Catalog
