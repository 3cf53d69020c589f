import Retrovert.Catalog.Loaded

/-!
# Converging on the channel

What arrives last in the catalog is the newest of the completions, or else what is
pending, or else what is loaded. While nothing newer is offered it stays what it is, and
once the completions have been ticked through it is loaded. So the catalog converges on
what the updater has installed if, whenever the updater offers it, it comes to arrive
last (`catalog_converges`).

The completions offer each generation once. One that the channel goes back to is not
offered again, and the catalog stays on what replaced it
(`a_channel_rolled_back_leaves_the_catalog`).
-/

set_option autoImplicit false

namespace Retrovert.Catalog

open Retrovert.Apply (Generation Installed)
open Retrovert.Runs

/-- The id of what arrives last. -/
def World.coming (world : World) : Option String :=
  match world.updater.completions.pending.getLast? with
  | some generation => some generation.id
  | none =>
      match world.catalog.pending with
      | some generation => some generation.id
      | none => world.catalog.loaded

section Guards

variable (manifest : String → List Installed) (id : String)

/-- The generation `id` extracts and loads clean, and when it is offered it has never been
offered before, or it is what arrives last. -/
def OffersAnew (world : World) : Action → Prop
  | .tick outcomes | .mount outcomes _ => outcomes.accepts (named manifest id) = true
  | .release generation => generation = named manifest generation.id
  | .offer => world.updater.job = .offering (named manifest id) →
      id ∉ world.updater.completions.seen ∨ world.coming = some id
  | _ => True

/-- The generation `id` extracts and loads clean, and nothing but what is installed is
published. -/
def Quiet (world : World) : Action → Prop
  | .tick outcomes | .mount outcomes _ => outcomes.accepts (named manifest id) = true
  | .release generation => generation = named manifest id
  | .check => ∀ offered ∈ world.channel, world.updater.installed = some offered.id
  | .publish | .offer => False
  | .close | .fail => True

end Guards

theorem OffersAnew.releasesNamed {manifest : String → List Installed} {id : String}
    {world : World} {action : Action} (meets : OffersAnew manifest id world action) :
    ReleasesNamed manifest world action := by
  cases action with
  | release generation => exact meets
  | _ => trivial

/-- A tick that is taken with no session open. -/
def IdleTick (world : World) : Action → Prop
  | .tick _ => world.backend.live = false
  | _ => False

variable {manifest : String → List Installed} {id : String} {world after : World}
  {action : Action} {outcomes : Outcomes} {generation : Generation} {root : List Generation}
  {log : ActivationLog}

/-- `id` is what arrives last. -/
structure Aimed (manifest : String → List Installed) (id : String) (world : World) : Prop where
  known : Known manifest world
  unbooted : world.catalog.booted = false →
    world.catalog.pending = none ∧ world.catalog.loaded = none
  coming : world.coming = some id

namespace Aimed

theorem bootOnce (aimed : Aimed manifest id world) (outcomes : Outcomes) :
    Aimed manifest id (world.bootOnce outcomes) := by
  refine ⟨aimed.known.bootOnce outcomes, ?_, ?_⟩
  · obtain ⟨pending, bootQueue, booted⟩ := World.bootOnce_frame world outcomes
    rw [booted]
    simp
  · cases booted : world.catalog.booted with
    | true =>
        rw [World.bootOnce_of_booted booted]
        exact aimed.coming
    | false =>
        -- Nothing is pending or loaded before the boot, so `id` is among the completions.
        have coming := aimed.coming
        obtain ⟨pending, loaded⟩ := aimed.unbooted booted
        cases newest : world.updater.completions.pending.getLast? with
        | none => simp [World.coming, newest, pending, loaded] at coming
        | some generation =>
            simp only [World.coming, newest, World.bootOnce_updater] at coming ⊢
            exact coming

theorem nextCompleted (aimed : Aimed manifest id world) (booted : world.catalog.booted = true) :
    Aimed manifest id world.nextCompleted := by
  refine ⟨aimed.known.nextCompleted, by simp [World.nextCompleted, booted], ?_⟩
  have coming := aimed.coming
  simp only [World.coming, World.nextCompleted, Completions.nextCompleted] at coming ⊢
  generalize world.updater.completions.pending = queue at coming ⊢
  cases queue with
  | nil => exact coming
  | cons first rest =>
      cases rest with
      | nil => exact coming
      | cons second more => simpa [List.getLast?_cons] using coming

/-- With no completions left, it is `id` that is pending. -/
theorem pending_eq (aimed : Aimed manifest id world)
    (none : world.updater.completions.pending = [])
    (pending : world.catalog.pending = some generation) : generation = named manifest id := by
  have coming := aimed.coming
  simp only [World.coming, none, pending, List.getLast?_nil, Option.some.injEq] at coming
  rw [← coming]
  exact aimed.known.pending generation pending

theorem activated (aimed : Aimed manifest id world)
    (accepts : outcomes.accepts (named manifest id))
    (pending : world.catalog.pending = some generation)
    (activated : Activated world outcomes generation after) : Aimed manifest id after := by
  refine ⟨aimed.known.activated activated, fun unbooted => ?_, ?_⟩
  · rw [activated.booted] at unbooted
    rw [(aimed.unbooted unbooted).1] at pending
    cases pending
  · have coming := aimed.coming
    cases newest : world.updater.completions.pending.getLast? with
    | some generation =>
        simpa [World.coming, activated.completions, newest] using coming
    | none =>
        have last := List.getLast?_eq_none_iff.mp newest
        rw [← aimed.pending_eq last pending] at accepts
        obtain ⟨loaded, taken, -⟩ := activated.of_accepts accepts
        simpa [World.coming, activated.completions, newest, pending, loaded, taken] using coming

theorem tick (aimed : Aimed manifest id world) (accepts : outcomes.accepts (named manifest id)) :
    Aimed manifest id (world.tick outcomes) := by
  have ready := (aimed.bootOnce outcomes).nextCompleted World.bootOnce_booted
  rcases World.tick_cases world outcomes with
    ⟨rests, -⟩ | ⟨generation, pending, -, activated⟩
  · rw [rests]
    exact ready
  · exact ready.activated accepts pending activated

theorem mount {opens : Bool} (aimed : Aimed manifest id world)
    (accepts : outcomes.accepts (named manifest id)) :
    Aimed manifest id (world.mount outcomes opens) := by
  have booted := aimed.bootOnce outcomes
  obtain ⟨ready, mounted, ⟨rfl, -⟩ | ⟨generation, pending, activated⟩⟩ :=
    World.mount_cases world outcomes opens
  · rw [mounted]
    exact ⟨{ booted.known with }, booted.unbooted, booted.coming⟩
  · have closed : Aimed manifest id { world.bootOnce outcomes with
        backend := (world.bootOnce outcomes).backend.close } :=
      ⟨{ booted.known with }, booted.unbooted, booted.coming⟩
    have after := closed.activated accepts pending activated
    rw [mounted]
    exact ⟨{ after.known with }, after.unbooted, after.coming⟩

end Aimed

/-! ## What is offered comes last -/

/-- Once `id` is installed it is what arrives last. -/
structure Tracked (manifest : String → List Installed) (id : String) (world : World) : Prop where
  known : Known manifest world
  unbooted : world.catalog.booted = false →
    world.catalog.pending = none ∧ world.catalog.loaded = none
  coming : world.updater.installed = some id → world.coming = some id

namespace Tracked

theorem started (onDisk : ∀ generation ∈ root, generation = named manifest generation.id) :
    Tracked manifest id (World.started root log) where
  known := .started onDisk
  unbooted _ := ⟨rfl, rfl⟩
  coming installed := by cases installed

theorem aimed (tracked : Tracked manifest id world)
    (installed : world.updater.installed = some id) : Aimed manifest id world :=
  ⟨tracked.known, tracked.unbooted, tracked.coming installed⟩

theorem offer (tracked : Tracked manifest id world)
    (job : world.updater.job = .offering generation)
    (anew : world.updater.job = .offering (named manifest id) →
      id ∉ world.updater.completions.seen ∨ world.coming = some id) :
    Tracked manifest id { world with updater := world.updater.offer generation } := by
  refine ⟨tracked.known.offer job, tracked.unbooted, fun installed => ?_⟩
  simp only [Updater.offer, Option.some.injEq] at installed
  subst installed
  have known := tracked.known.offering generation job
  rw [← known] at anew
  simp only [World.coming, Updater.offer, Completions.record]
  by_cases seen : generation.id ∈ world.updater.completions.seen
  · rw [if_pos seen]
    exact (anew job).resolve_left (not_not_intro seen)
  · rw [if_neg seen]
    simp

theorem step (tracked : Tracked manifest id world) (meets : OffersAnew manifest id world action)
    (stepped : world.step action = some after) : Tracked manifest id after := by
  have known := tracked.known.step meets.releasesNamed stepped
  cases action with
  | tick outcomes =>
      cases stepped
      refine ⟨known, by simp [World.tick_booted], fun installed => ?_⟩
      rw [World.tick_installed] at installed
      exact ((tracked.aimed installed).tick meets).coming
  | mount outcomes opens =>
      cases stepped
      refine ⟨known, by simp [World.mount_booted], fun installed => ?_⟩
      rw [World.mount_installed] at installed
      exact ((tracked.aimed installed).mount meets).coming
  | close | release generation =>
      cases stepped
      exact ⟨known, tracked.unbooted, tracked.coming⟩
  | check =>
      simp only [World.step] at stepped
      split at stepped
      · cases stepped
        refine ⟨known, tracked.unbooted, ?_⟩
        simp only [Updater.check]
        split
        · exact tracked.coming
        · exact tracked.coming
      · cases stepped
  | publish =>
      simp only [World.step] at stepped
      split at stepped
      · cases stepped
        refine ⟨known, tracked.unbooted, ?_⟩
        simp only [Updater.publish]
        split
        · exact tracked.coming
        · exact tracked.coming
      · cases stepped
  | fail =>
      simp only [World.step] at stepped
      split at stepped
      · cases stepped
        exact ⟨known, tracked.unbooted, tracked.coming⟩
      · cases stepped
  | offer =>
      simp only [World.step] at stepped
      split at stepped
      · rename_i generation job
        cases stepped
        exact tracked.offer job meets
      · cases stepped

end Tracked

/-! ## What comes last is loaded -/

/-- How many ticks it takes, at most, until what arrives last has arrived. -/
def World.outstanding (world : World) : Nat :=
  max world.updater.completions.pending.length world.catalog.pending.toList.length

namespace Aimed

/-- With nothing outstanding, what arrives last is loaded. -/
theorem loaded_of_outstanding (aimed : Aimed manifest id world) (settled : world.outstanding = 0) :
    world.catalog.loaded = some id := by
  simp only [World.outstanding, Nat.max_eq_zero_iff, List.length_eq_zero_iff,
    Option.toList_eq_nil_iff] at settled
  have coming := aimed.coming
  simpa [World.coming, settled.1, settled.2] using coming

theorem bootOnce_outstanding (aimed : Aimed manifest id world) (outcomes : Outcomes) :
    (world.bootOnce outcomes).outstanding ≤ world.outstanding := by
  cases booted : world.catalog.booted with
  | true => rw [World.bootOnce_of_booted booted]
  | false =>
      have coming := aimed.coming
      obtain ⟨pending, loaded⟩ := aimed.unbooted booted
      have waiting : world.updater.completions.pending ≠ [] := by
        intro none
        simp [World.coming, none, pending, loaded] at coming
      have positive := List.length_pos_iff.mpr waiting
      have one : (world.bootOnce outcomes).catalog.pending.toList.length ≤ 1 :=
        Option.length_toList_le
      simp only [World.outstanding, World.bootOnce_updater]
      omega

theorem nextCompleted_outstanding (world : World) :
    world.nextCompleted.outstanding ≤ world.outstanding := by
  simp only [World.outstanding, World.nextCompleted, Completions.nextCompleted]
  cases world.updater.completions.pending with
  | nil => simp
  | cons first rest => simp

/-- An activation leaves no more than the completions. -/
theorem activated_outstanding (aimed : Aimed manifest id world)
    (accepts : outcomes.accepts (named manifest id))
    (pending : world.catalog.pending = some generation)
    (activated : Activated world outcomes generation after) :
    after.outstanding ≤ world.updater.completions.pending.length := by
  have one : after.catalog.pending.toList.length ≤ 1 := Option.length_toList_le
  simp only [World.outstanding, activated.completions]
  cases queue : world.updater.completions.pending with
  | cons first rest =>
      rw [List.length_cons]
      omega
  | nil =>
      rw [← aimed.pending_eq queue pending] at accepts
      obtain ⟨-, taken, -⟩ := activated.of_accepts accepts
      simp [taken]

theorem tick_outstanding (aimed : Aimed manifest id world)
    (accepts : outcomes.accepts (named manifest id)) :
    (world.tick outcomes).outstanding ≤ world.outstanding ∧
      (world.backend.live = false →
        (world.tick outcomes).outstanding ≤ world.outstanding - 1) := by
  have ready := (aimed.bootOnce outcomes).nextCompleted World.bootOnce_booted
  have lower := (nextCompleted_outstanding (world.bootOnce outcomes)).trans
    (aimed.bootOnce_outstanding outcomes)
  have taken : (world.bootOnce outcomes).nextCompleted.updater.completions.pending.length =
      world.updater.completions.pending.length - 1 := by
    simp [World.nextCompleted, Completions.nextCompleted]
  have bound : world.updater.completions.pending.length ≤ world.outstanding := Nat.le_max_left ..
  rcases World.tick_cases world outcomes with
    ⟨rests, settled | live⟩ | ⟨generation, pending, -, activated⟩
  · rw [rests]
    refine ⟨lower, fun _ => ?_⟩
    have outstanding : (world.bootOnce outcomes).nextCompleted.outstanding =
        world.updater.completions.pending.length - 1 := by
      simp [World.outstanding, settled, taken]
    omega
  · rw [rests]
    refine ⟨lower, fun closed => ?_⟩
    have same : (world.bootOnce outcomes).nextCompleted.backend = world.backend := by
      obtain ⟨pending, bootQueue, booted⟩ := World.bootOnce_frame world outcomes
      rw [booted]
      rfl
    rw [same, closed] at live
    cases live
  · have after := ready.activated_outstanding accepts pending activated
    omega

theorem mount_outstanding {opens : Bool} (aimed : Aimed manifest id world)
    (accepts : outcomes.accepts (named manifest id)) :
    (world.mount outcomes opens).outstanding ≤ world.outstanding := by
  have booted := aimed.bootOnce outcomes
  have lower := aimed.bootOnce_outstanding outcomes
  obtain ⟨ready, mounted, ⟨rfl, -⟩ | ⟨generation, pending, activated⟩⟩ :=
    World.mount_cases world outcomes opens
  · rw [mounted]
    exact lower
  · have closed : Aimed manifest id { world.bootOnce outcomes with
        backend := (world.bootOnce outcomes).backend.close } :=
      ⟨{ booted.known with }, booted.unbooted, booted.coming⟩
    have after := closed.activated_outstanding accepts pending activated
    have bound : (world.bootOnce outcomes).updater.completions.pending.length ≤
        (world.bootOnce outcomes).outstanding := Nat.le_max_left ..
    rw [mounted]
    exact (after.trans bound).trans lower

/-- While nothing but what is installed is published, what arrives last stays what it is and
comes no further away. -/
theorem quiet (aimed : Aimed manifest id world) (meets : Quiet manifest id world action)
    (stepped : world.step action = some after) :
    Aimed manifest id after ∧ after.outstanding ≤ world.outstanding := by
  cases action with
  | tick outcomes =>
      cases stepped
      exact ⟨aimed.tick meets, (aimed.tick_outstanding meets).1⟩
  | mount outcomes opens =>
      cases stepped
      exact ⟨aimed.mount meets, aimed.mount_outstanding meets⟩
  | close =>
      cases stepped
      exact ⟨⟨{ aimed.known with }, aimed.unbooted, aimed.coming⟩, Nat.le_refl _⟩
  | release generation =>
      have releases : ReleasesNamed manifest world (.release generation) := by
        rw [ReleasesNamed, meets]
        rfl
      have known := aimed.known.step releases stepped
      cases stepped
      exact ⟨⟨known, aimed.unbooted, aimed.coming⟩, Nat.le_refl _⟩
  | check =>
      simp only [World.step] at stepped
      split at stepped
      · rename_i offered job channel
        cases stepped
        rw [Updater.check, if_pos (meets offered channel)]
        exact ⟨aimed, Nat.le_refl _⟩
      · cases stepped
  | fail =>
      have known := aimed.known.step (show ReleasesNamed manifest world .fail from trivial) stepped
      simp only [World.step] at stepped
      split at stepped
      · cases stepped
        exact ⟨⟨known, aimed.unbooted, aimed.coming⟩, Nat.le_refl _⟩
      · cases stepped
  | publish | offer => exact meets.elim

end Aimed

/-- The catalog converges on what the updater has installed. The run offers `id` only when
it has never been offered before or is what arrives last already. From where it is
installed, with nothing else published, as many ticks without a session as there are
completions, and one at the least, leave it loaded. -/
theorem catalog_converges {last : World} {ticks : Nat}
    (onDisk : ∀ generation ∈ root, generation = named manifest generation.id)
    (run : Moves World.step (OffersAnew manifest id) (World.started root log) world)
    (installed : world.updater.installed = some id)
    (settles : Counting World.step (Quiet manifest id) IdleTick ticks world last)
    (enough : max world.updater.completions.pending.length 1 ≤ ticks) :
    last.catalog.loaded = some id := by
  have tracked : Tracked manifest id world :=
    run.invariant (Tracked manifest id)
      (fun _ _ _ meets stepped tracked => tracked.step meets stepped) (.started onDisk)
  obtain ⟨aimed, outstanding⟩ := settles.dwindles (Aimed manifest id) World.outstanding
    (fun _ _ _ meets stepped aimed => aimed.quiet meets stepped)
    (fun before action after meets stepped idle aimed => by
      cases action with
      | tick outcomes =>
          cases stepped
          exact (aimed.tick_outstanding meets).2 idle
      | _ => exact idle.elim)
    (tracked.aimed installed)
  have one : world.catalog.pending.toList.length ≤ 1 := Option.length_toList_le
  have bound : world.outstanding ≤ ticks := by
    simp only [World.outstanding]
    omega
  exact aimed.loaded_of_outstanding (by omega)

instance : ∀ world action, Decidable (OffersAnew manifest id world action)
  | _, .tick outcomes | _, .mount outcomes _ =>
      inferInstanceAs (Decidable (outcomes.accepts (named manifest id) = true))
  | _, .release generation =>
      inferInstanceAs (Decidable (generation = named manifest generation.id))
  | world, .offer =>
      inferInstanceAs (Decidable (world.updater.job = .offering (named manifest id) →
        id ∉ world.updater.completions.seen ∨ world.coming = some id))
  | _, .close | _, .check | _, .publish | _, .fail => inferInstanceAs (Decidable True)

/-- One tick loads the first generation that a channel offers. -/
theorem a_new_generation_is_loaded :
    ∃ world last,
      Moves World.step (OffersAnew (fun _ => (decoder "").artifacts) "first")
        (World.started [] {}) world ∧
      world.catalog.loaded = none ∧
      Counting World.step (Quiet (fun _ => (decoder "").artifacts) "first") IdleTick 1 world last ∧
      last.catalog.loaded = some "first" := by
  obtain ⟨world, run, found⟩ := Moves.of_check World.step
    (OffersAnew (fun _ => (decoder "").artifacts) "first") (World.started [] {})
    [.tick (.loading fun _ => true), .release (decoder "first"), .check, .publish, .offer]
    (fun world => decide (world.updater.installed = some "first" ∧
      world.updater.completions.pending.length = 1 ∧ world.catalog.loaded = none ∧
      world.backend.live = false))
    (by decide +kernel)
  obtain ⟨installed, one, nothing, closed⟩ := of_decide_eq_true found
  let ticking := Outcomes.loading fun _ => true
  have loads : ticking.accepts (named (fun _ => (decoder "").artifacts) "first") := by decide
  have settles : Counting World.step (Quiet (fun _ => (decoder "").artifacts) "first") IdleTick 1
      world (world.tick ticking) :=
    .counted (.refl world) (show Quiet _ _ world (.tick ticking) from loads) closed rfl
  exact ⟨world, _, run, nothing, settles,
    catalog_converges (by simp) run installed settles (by rw [one]; decide)⟩

theorem World.nextCompleted_of_nil (completed : world.updater.completions.pending = []) :
    world.nextCompleted = world := by
  obtain ⟨catalog, backend, ⟨root, ⟨seen, pending⟩, installed, job⟩, channel⟩ := world
  cases completed
  rfl

theorem World.tick_of_settled (booted : world.catalog.booted = true)
    (pending : world.catalog.pending = none)
    (completed : world.updater.completions.pending = []) : world.tick outcomes = world := by
  have same := nextCompleted_of_nil completed
  simp only [tick, bootOnce_of_booted booted, same, pending, Option.isSome_none, Bool.false_and,
    Bool.false_eq_true, if_false]

/-- The channel offers one generation, another, and the first one again, each of them
applied and ticked through. The updater has the first one installed, and no number of
ticks takes the catalog off the second. -/
theorem a_channel_rolled_back_leaves_the_catalog :
    ∃ world, Moves World.step unguarded (World.started [] {}) world ∧
      world.channel = some (decoder "first") ∧ world.updater.installed = some "first" ∧
      world.updater.job = .idle ∧ world.backend.live = false ∧
      ∀ ticks : List Outcomes,
        (ticks.foldl World.tick world).catalog.loaded = some "second" := by
  obtain ⟨world, run, found⟩ := Moves.of_check World.step unguarded (World.started [] {})
    [.tick (.loading fun _ => true),
      .release (decoder "first"), .check, .publish, .offer, .tick (.loading fun _ => true),
      .release (decoder "second"), .check, .publish, .offer, .tick (.loading fun _ => true),
      .release (decoder "first"), .check, .publish, .offer]
    (fun world => decide (world.channel = some (decoder "first") ∧
      world.updater.installed = some "first" ∧ world.updater.job = .idle ∧
      world.backend.live = false ∧ world.catalog.booted = true ∧ world.catalog.pending = none ∧
      world.updater.completions.pending = [] ∧ world.catalog.loaded = some "second"))
    (by decide +kernel)
  obtain ⟨channel, installed, idle, closed, booted, pending, completed, loaded⟩ :=
    of_decide_eq_true found
  refine ⟨world, run, channel, installed, idle, closed, fun ticks => ?_⟩
  suffices settled : ticks.foldl World.tick world = world by rw [settled, loaded]
  induction ticks with
  | nil => rfl
  | cons outcomes rest ih =>
      rw [List.foldl_cons, World.tick_of_settled booted pending completed]
      exact ih

end Retrovert.Catalog
