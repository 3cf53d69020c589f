import Retrovert.Apply.Selecting

/-!
# What a plan says it has left to fetch

A check weighs the artifacts it selects: all of them, and those the cache already holds. Both
weights are 64-bit sums that stay at the end of their range, and what is left to fetch is their
difference. So it is the exact weight of the artifacts that are not cached as long as the whole
selection weighs less than 2^64, or nothing is left to fetch; past that the total has stopped
growing, and the difference falls short (`announced_size`).
-/

set_option autoImplicit false

namespace Retrovert.Apply

open Retrovert.Transport Retrovert.Tuf

/-- The largest 64-bit size. -/
def maxSize : Nat := 2 ^ 64 - 1

/-- `bytes_to_fetch`: what applying the plan would pull over the network. -/
def WeighedPlan.bytesToFetch (plan : WeighedPlan) : Nat := plan.totalBytes - plan.cachedBytes

/-- What artifacts weigh, as an exact number. -/
def weight (artifacts : List Artifact) : Nat := (artifacts.map Artifact.size).sum

@[simp] theorem weight_cons (artifact : Artifact) (rest : List Artifact) :
    weight (artifact :: rest) = artifact.size + weight rest := by
  rw [weight, List.map_cons, List.sum_cons, weight]

/-- A sum of those artifacts that `counts` picks out stays at the end of its range. -/
theorem foldl_saturatingAdd (counts : Artifact → Bool) (artifacts : List Artifact) :
    ∀ total ≤ maxSize,
      artifacts.foldl (fun total artifact =>
        if counts artifact then saturatingAdd total artifact.size else total) total =
        min (total + weight (artifacts.filter counts)) maxSize := by
  induction artifacts with
  | nil =>
      intro total small
      exact (Nat.min_eq_left small).symm
  | cons artifact rest ih =>
      intro total small
      have added : saturatingAdd total artifact.size = min (total + artifact.size) maxSize := rfl
      rw [List.foldl_cons]
      cases here : counts artifact with
      | false =>
          rw [List.filter_cons_of_neg (by simp [here]), if_neg Bool.false_ne_true, ih total small]
      | true =>
          rw [List.filter_cons_of_pos here, weight_cons, if_pos rfl, added,
            ih _ (Nat.min_le_right ..)]
          omega

/-- What is cached and what is not make up the whole. -/
theorem weight_split (counts : Artifact → Bool) (artifacts : List Artifact) :
    weight artifacts =
      weight (artifacts.filter counts) + weight (artifacts.filter (! counts ·)) := by
  induction artifacts with
  | nil => rfl
  | cons artifact rest ih =>
      cases here : counts artifact <;>
        simp only [List.filter_cons, here, Bool.not_true, Bool.not_false, if_true,
          Bool.false_eq_true, if_false, weight_cons] <;> omega

section Announcing

variable (generationId : String) (manifest : Manifest) (target : Option String) (cache : Cache)

theorem totalBytes_select : (Plan.select generationId manifest target cache).totalBytes =
    min (weight (manifest.artifacts.filter (appliesTo · target))) maxSize := by
  have summed := foldl_saturatingAdd (fun _ => true) (manifest.artifacts.filter (appliesTo · target))
    0 (Nat.zero_le _)
  rw [List.filter_true, Nat.zero_add] at summed
  exact summed

theorem cachedBytes_select : (Plan.select generationId manifest target cache).cachedBytes =
    min (weight ((manifest.artifacts.filter (appliesTo · target)).filter (isCached cache)))
      maxSize := by
  have summed := foldl_saturatingAdd (isCached cache)
    (manifest.artifacts.filter (appliesTo · target)) 0 (Nat.zero_le _)
  rw [Nat.zero_add] at summed
  exact summed

end Announcing

/-- **What is announced is the difference of two sums that saturate.** It is the exact weight
of the selected artifacts that the cache does not hold exactly if all that is selected weighs
less than 2^64, or what is not held weighs nothing. -/
theorem announced_size (generationId : String) (manifest : Manifest) (target : Option String)
    (cache : Cache) :
    let selected := manifest.artifacts.filter (appliesTo · target)
    let missing := selected.filter (! isCached cache ·)
    let announced := (Plan.select generationId manifest target cache).bytesToFetch
    announced = min (weight selected) maxSize -
        min (weight (selected.filter (isCached cache))) maxSize ∧
      (announced = weight missing ↔ weight selected ≤ maxSize ∨ weight missing = 0) := by
  intro selected missing announced
  have difference : announced = min (weight selected) maxSize -
      min (weight (selected.filter (isCached cache))) maxSize := by
    rw [← totalBytes_select generationId, ← cachedBytes_select generationId]
    rfl
  have split := weight_split (isCached cache) selected
  change weight selected = _ + weight missing at split
  refine ⟨difference, ?_⟩
  rw [difference, split]
  rcases Nat.le_total (weight (selected.filter (isCached cache)) + weight missing) maxSize
    with fits | past
  · rw [Nat.min_eq_left fits, Nat.min_eq_left (by omega)]
    omega
  · rw [Nat.min_eq_right past]
    omega

/-- A release set of two artifacts that weigh 2^64 between them. -/
def heavy : Manifest where
  schema := 1
  version := 1
  sourceRevision := "0123abc"
  published := "2026-08-15T12:00:00Z"
  artifacts :=
    let digest := (ArtifactDigest.leading []).toHex
    [⟨"a", none, "a", digest, 2 ^ 63, "def4567", none⟩,
      ⟨"b", none, "b", digest, 2 ^ 63, "def4567", none⟩]

/-- The release set as it is read. -/
def heavyReader : Reader where
  schema _ := some heavy.schema
  manifest _ := some heavy
  isTimestamp text := text == heavy.published

/-- An accepted manifest of which nothing is cached is announced as one byte less than it
weighs. -/
theorem a_heavy_plan_is_announced_short :
    Manifest.parse heavyReader [] = .ok heavy ∧
      (∀ artifact ∈ heavy.artifacts, isCached Disk.empty artifact = false) ∧
      weight (heavy.artifacts.filter (appliesTo · none)) = 2 ^ 64 ∧
      (Plan.select "" heavy none Disk.empty).bytesToFetch = 2 ^ 64 - 1 := by
  decide +kernel

end Retrovert.Apply
