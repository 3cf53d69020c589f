import Retrovert.Catalog.Activation
import Retrovert.Library.Runs

/-!
# Generations that wait

A generation waits from when it is published until it is activated: the updater has
yet to offer it, it is among the completions, or it is pending. A successful activation
collects every generation but its own and the one before it, so one that waits
meanwhile is gone by the time the catalog comes to it
(`a_waiting_generation_is_collected`). While no activation succeeds beside a waiting
generation that it does not name, each one still resolves when its turn comes
(`waiting_generations_resolve`).
-/

set_option autoImplicit false

namespace Retrovert.Catalog

open Retrovert.Apply (Generation Installed)
open Retrovert.Runs

/-- The generations that have been published and not taken by the catalog. -/
def Updater.waiting (updater : Updater) : List Generation :=
  (match updater.job with
    | .offering generation => [generation]
    | _ => []) ++ updater.completions.pending

/-- The ids that the collection after an activation of `id` spares. -/
def PluginCatalog.spared (catalog : PluginCatalog) (id : String) : List String :=
  id :: (catalog.log.activated id).previous.toList

/-- An activation that succeeds here leaves no generation waiting but the ones that it
spares. -/
def World.SparesWaiting (world : World) (outcomes : Outcomes) : Prop :=
  ∀ generation ∈ world.catalog.pending, world.catalog.loaded ≠ some generation.id →
    outcomes.accepts generation → ∀ waiting ∈ world.updater.waiting,
      waiting.id ∈ world.catalog.spared generation.id

instance (world : World) (outcomes : Outcomes) : Decidable (world.SparesWaiting outcomes) :=
  inferInstanceAs (Decidable (∀ generation ∈ world.catalog.pending, _))

/-- No activation succeeds beside a generation that waits and that it does not spare. -/
def SparesWaiting (world : World) : Action → Prop
  | .tick outcomes =>
      (world.bootOnce outcomes).nextCompleted.backend.live = false →
        (world.bootOnce outcomes).nextCompleted.SparesWaiting outcomes
  | .mount outcomes _ => (world.bootOnce outcomes).SparesWaiting outcomes
  | _ => True

instance : ∀ world action, Decidable (SparesWaiting world action)
  | world, .tick outcomes =>
      inferInstanceAs (Decidable ((world.bootOnce outcomes).nextCompleted.backend.live = false →
        (world.bootOnce outcomes).nextCompleted.SparesWaiting outcomes))
  | world, .mount outcomes _ =>
      inferInstanceAs (Decidable ((world.bootOnce outcomes).SparesWaiting outcomes))
  | _, .release _ | _, .close | _, .check | _, .publish | _, .fail | _, .offer =>
      inferInstanceAs (Decidable True)

/-! ## What the install root resolves -/

variable {world after : World} {outcomes : Outcomes} {updater : Updater}
  {generation other : Generation} {root : List Generation} {log : ActivationLog}

theorem Updater.mem_waiting : generation ∈ updater.waiting ↔
    updater.job = .offering generation ∨ generation ∈ updater.completions.pending := by
  simp only [waiting, List.mem_append]
  refine or_congr_left ?_
  cases updater.job with
  | idle => simp
  | applying applied => simp
  | offering offered => simp [eq_comm]

/-- A generation is in the install root, under its id. -/
def Updater.Resolves (updater : Updater) (generation : Generation) : Prop :=
  updater.find generation.id = some generation

theorem Updater.resolves_of_mem (unique : (updater.root.map (·.id)).Nodup)
    (member : generation ∈ updater.root) : updater.Resolves generation := by
  simp only [Resolves, find]
  generalize updater.root = generations at unique member
  induction generations with
  | nil => cases member
  | cons first rest ih =>
      rw [List.map_cons, List.nodup_cons] at unique
      rcases List.mem_cons.mp member with rfl | later
      · simp
      · have apart : first.id ≠ generation.id := fun same =>
          unique.1 (same ▸ List.mem_map_of_mem later)
        rw [List.find?_cons_of_neg (by simpa using apart)]
        exact ih unique.2 later

/-- What the updater goes on to offer is in the install root. -/
theorem Updater.publish_resolves {offered : Generation}
    (job : (updater.publish generation).job = .offering offered) :
    (updater.publish generation).Resolves offered := by
  simp only [Updater.publish] at job ⊢
  cases found : updater.find generation.id with
  | some installed =>
      rw [found] at job
      cases job
      have same : offered.id = generation.id := by simpa using List.find?_some found
      rw [← same] at found
      exact found
  | none =>
      rw [found] at job
      cases job
      simp [Resolves, find]

theorem Updater.publish_unique (unique : (updater.root.map (·.id)).Nodup) :
    ((updater.publish generation).root.map (·.id)).Nodup := by
  simp only [Updater.publish]
  cases found : updater.find generation.id with
  | some installed => exact unique
  | none =>
      have absent := List.find?_eq_none.mp found
      refine List.nodup_cons.mpr ⟨fun member => ?_, unique⟩
      obtain ⟨held, within, same⟩ := List.mem_map.mp member
      exact absent held within (by simpa using same)

/-! ## What waits resolves -/

/-- Every generation that waits, or that was found at boot, is in the install root. -/
structure Kept (world : World) : Prop where
  unique : (world.updater.root.map (·.id)).Nodup
  waiting : ∀ generation ∈ world.updater.waiting, world.updater.Resolves generation
  pending : ∀ generation ∈ world.catalog.pending, world.updater.Resolves generation
  bootQueue : ∀ generation ∈ world.catalog.bootQueue, world.updater.Resolves generation

namespace Kept

theorem started (unique : (root.map (·.id)).Nodup) : Kept (World.started root log) where
  unique := unique
  waiting := by simp [World.started, Updater.waiting]
  pending := by simp [World.started]
  bootQueue := by simp [World.started]

theorem bootOnce (kept : Kept world) (outcomes : Outcomes) : Kept (world.bootOnce outcomes) := by
  simp only [World.bootOnce]
  split
  · exact kept
  · have candidates : ∀ generation ∈ world.catalog.candidates outcomes.modified
        (world.generations outcomes), world.updater.Resolves generation :=
      fun _ member => Updater.resolves_of_mem kept.unique
        (World.mem_generations (candidates_perm.mem_iff.mp member))
    exact { kept with
      pending := fun _ last => candidates _ (List.mem_of_mem_getLast? last)
      bootQueue := fun _ member => candidates _ (List.mem_of_mem_dropLast member) }

/-- The catalog takes the first completion. -/
theorem nextCompleted (kept : Kept world) : Kept world.nextCompleted := by
  refine { kept with waiting := fun _ member => ?_, pending := fun _ next => ?_ }
  · exact kept.waiting _ (Updater.mem_waiting.mpr
      ((Updater.mem_waiting.mp member).imp_right List.mem_of_mem_tail))
  · rcases Option.or_eq_some_iff.mp next with head | ⟨-, pending⟩
    · exact kept.waiting _ (Updater.mem_waiting.mpr (.inr (List.mem_of_mem_head? head)))
    · exact kept.pending _ pending

theorem activated (kept : Kept world) (spares : world.SparesWaiting outcomes)
    (pending : world.catalog.pending = some generation)
    (activated : Activated world outcomes generation after) : Kept after := by
  cases activated with
  | same loaded => exact { kept with pending := by simp, bootQueue := by simp }
  | taken different accepts =>
      refine { unique := ?_, waiting := ?_, pending := by simp, bootQueue := by simp }
      · exact kept.unique.sublist (List.filter_sublist.map _)
      · intro waiting member
        have spared := spares generation pending different accepts waiting member
        exact (Updater.find_retain spared).trans (kept.waiting waiting member)
  | next log nothing refuses =>
      exact { kept with
        pending := fun _ last => kept.bootQueue _ (List.mem_of_mem_getLast? last)
        bootQueue := fun _ member => kept.bootQueue _ (List.mem_of_mem_dropLast member) }
  | fellBack log previous again loaded different refuses reloads =>
      exact { kept with pending := by simp }
  | lost log previous loaded different refuses lost => exact { kept with pending := by simp }

theorem tick (kept : Kept world) (spares : SparesWaiting world (.tick outcomes)) :
    Kept (world.tick outcomes) := by
  have ready := (kept.bootOnce outcomes).nextCompleted
  rcases World.tick_cases world outcomes with
    ⟨rests, -⟩ | ⟨generation, pending, live, activated⟩
  · rw [rests]
    exact ready
  · exact ready.activated (spares live) pending activated

theorem mount {opens : Bool} (kept : Kept world)
    (spares : SparesWaiting world (.mount outcomes opens)) : Kept (world.mount outcomes opens) := by
  have booted := kept.bootOnce outcomes
  obtain ⟨ready, mounted, ⟨rfl, -⟩ | ⟨generation, pending, activated⟩⟩ :=
    World.mount_cases world outcomes opens
  · rw [mounted]
    exact { booted with }
  · have closed : Kept { world.bootOnce outcomes with
        backend := (world.bootOnce outcomes).backend.close } := { booted with }
    rw [mounted]
    exact { closed.activated spares pending activated with }

theorem publish (kept : Kept world) :
    Kept { world with updater := world.updater.publish generation } where
  unique := Updater.publish_unique kept.unique
  waiting waiting member := by
    rcases Updater.mem_waiting.mp member with offered | completed
    · exact Updater.publish_resolves offered
    · have before : waiting ∈ world.updater.waiting := by
        refine Updater.mem_waiting.mpr (.inr ?_)
        simp only [Updater.publish] at completed
        split at completed
        · exact completed
        · exact completed
      exact Updater.find_publish (kept.waiting waiting before)
  pending _ pending := Updater.find_publish (kept.pending _ pending)
  bootQueue _ member := Updater.find_publish (kept.bootQueue _ member)

theorem offer (kept : Kept world) (job : world.updater.job = .offering generation) :
    Kept { world with updater := world.updater.offer generation } := by
  refine { kept with waiting := fun waiting member => kept.waiting waiting ?_ }
  rcases Updater.mem_waiting.mp member with offered | completed
  · cases offered
  · simp only [Updater.offer, Completions.record] at completed
    split at completed
    · exact Updater.mem_waiting.mpr (.inr completed)
    · rcases List.mem_append.mp completed with earlier | last
      · exact Updater.mem_waiting.mpr (.inr earlier)
      · cases List.mem_singleton.mp last
        exact Updater.mem_waiting.mpr (.inl job)

/-- A job that is not offering anything leaves only the completions waiting. -/
theorem setJob {job : Job} (kept : Kept world)
    (unpublished : ∀ generation, job ≠ .offering generation) :
    Kept { world with updater := { world.updater with job } } :=
  { kept with
    waiting := fun _ member => kept.waiting _ (Updater.mem_waiting.mpr
      (.inr ((Updater.mem_waiting.mp member).resolve_left (unpublished _)))) }

/-- The updater's steps move a generation on to where it waits next. -/
theorem step {action : Action} (kept : Kept world) (spares : SparesWaiting world action)
    (stepped : world.step action = some after) : Kept after := by
  cases action with
  | tick outcomes =>
      cases stepped
      exact kept.tick spares
  | mount outcomes opens =>
      cases stepped
      exact kept.mount spares
  | close | release generation =>
      cases stepped
      exact { kept with }
  | check =>
      simp only [World.step] at stepped
      split at stepped
      · cases stepped
        simp only [Updater.check]
        split
        · exact kept
        · exact kept.setJob (by simp)
      · cases stepped
  | publish =>
      simp only [World.step] at stepped
      split at stepped
      · cases stepped
        exact kept.publish
      · cases stepped
  | fail =>
      simp only [World.step] at stepped
      split at stepped
      · cases stepped
        exact kept.setJob (by simp)
      · cases stepped
  | offer =>
      simp only [World.step] at stepped
      split at stepped
      · rename_i generation job
        cases stepped
        exact kept.offer job
      · cases stepped

end Kept

/-- In every run in which no activation succeeds beside a waiting generation that it
does not spare: a generation that was published and not yet activated is in the install
root, and so is the one that the next tick or mount comes to. -/
theorem waiting_generations_resolve {last : World} (unique : (root.map (·.id)).Nodup)
    (run : Moves World.step SparesWaiting (World.started root log) last) :
    (∀ generation ∈ last.updater.waiting, last.updater.Resolves generation) ∧
      (∀ outcomes, ∀ generation ∈ (last.bootOnce outcomes).nextCompleted.catalog.pending,
        last.updater.Resolves generation) ∧
      (∀ outcomes, ∀ generation ∈ (last.bootOnce outcomes).catalog.pending,
        last.updater.Resolves generation) := by
  have kept : Kept last :=
    run.invariant Kept (fun _ _ _ spares stepped kept => kept.step spares stepped)
      (.started unique)
  refine ⟨kept.waiting, fun outcomes generation pending => ?_,
    fun outcomes generation pending => ?_⟩
  · have ready := (kept.bootOnce outcomes).nextCompleted.pending generation pending
    rw [← World.bootOnce_updater last outcomes]
    exact ready
  · have booted := (kept.bootOnce outcomes).pending generation pending
    rw [← World.bootOnce_updater last outcomes]
    exact booted

/-- Two generations that are released one after the other, each activated before the
next is published, both resolve. -/
theorem a_released_generation_resolves :
    ∃ last, Moves World.step SparesWaiting (World.started [decoder "first"] {}) last ∧
      last.updater.waiting = [decoder "second"] ∧
      (∀ generation ∈ last.updater.waiting, last.updater.Resolves generation) ∧
      (∀ outcomes, ∀ generation ∈ (last.bootOnce outcomes).nextCompleted.catalog.pending,
        last.updater.Resolves generation) ∧
      (∀ outcomes, ∀ generation ∈ (last.bootOnce outcomes).catalog.pending,
        last.updater.Resolves generation) := by
  obtain ⟨last, run, waits⟩ := Moves.of_check World.step SparesWaiting
    (World.started [decoder "first"] {})
    [.tick (.loading fun _ => true), .release (decoder "second"), .check, .publish, .offer]
    (fun last => decide (last.updater.waiting = [decoder "second"])) (by decide +kernel)
  exact ⟨last, run, of_decide_eq_true waits, waiting_generations_resolve (by simp) run⟩

/-- Two generations are published before the catalog ticks again. The activation of the
first one collects the second, and the next tick comes to activate a generation that
no longer resolves. -/
theorem a_waiting_generation_is_collected :
    ∃ last, Moves World.step unguarded (World.started [] {}) last ∧
      ∃ generation ∈ (last.bootOnce (.loading fun _ => true)).nextCompleted.catalog.pending,
        last.updater.find generation.id = none := by
  obtain ⟨last, run, gone⟩ := Moves.of_check World.step unguarded (World.started [] {})
    [.tick (.loading fun _ => true), .release (decoder "first"), .check, .publish, .offer,
      .release (decoder "second"), .check, .publish, .offer, .tick (.loading fun _ => true)]
    (fun last => decide (∃ generation ∈
      (last.bootOnce (.loading fun _ => true)).nextCompleted.catalog.pending,
        last.updater.find generation.id = none)) (by decide +kernel)
  exact ⟨last, run, of_decide_eq_true gone⟩

end Retrovert.Catalog
