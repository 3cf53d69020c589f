import Mathlib.Data.List.Nodup
import Retrovert.Apply.Plan

/-!
# From a manifest to a plan

A check turns the manifest of the generation that a channel offers into a plan: the artifacts
that apply to this consumer, and what they weigh. What the manifest was checked for holds of
every artifact that is selected.
-/

set_option autoImplicit false

namespace Retrovert.Tuf

/-! ## What a manifest has been checked for -/

/-- What the checks let pass, one artifact at a time. -/
structure Artifact.Accepted (artifact : Artifact) : Prop where
  name : artifact.name ≠ ""
  target : artifact.target ≠ some ""
  revision : artifact.revision ≠ ""
  sha256 : isHexSha256 artifact.sha256 = true
  path : isCleanRelativePath artifact.path = true

/-- What makes an artifact one of a kind in its manifest. -/
def Artifact.identity (artifact : Artifact) : String × Option String :=
  (artifact.name, artifact.target)

theorem Artifact.check_eq_ok {seen : List (String × Option String)} {artifact : Artifact}
    (checked : artifact.check seen = .ok ()) : artifact.Accepted ∧ artifact.identity ∉ seen := by
  simp only [Artifact.check, Bool.not_eq_true'] at checked
  split at checked
  · cases checked
  · split at checked
    · cases checked
    · split at checked
      · cases checked
      · split at checked
        · cases checked
        · split at checked
          · cases checked
          · split at checked
            · cases checked
            · rename_i name fresh target revision sha256 path
              exact ⟨⟨name, target, revision, eq_true_of_ne_false sha256,
                eq_true_of_ne_false path⟩, fresh⟩

theorem checkArtifacts_eq_ok {seen : List (String × Option String)} {artifacts : List Artifact}
    (checked : checkArtifacts seen artifacts = .ok ()) :
    (∀ artifact ∈ artifacts, artifact.Accepted ∧ artifact.identity ∉ seen) ∧
      (artifacts.map Artifact.identity).Nodup := by
  induction artifacts generalizing seen with
  | nil => exact ⟨(fun _ member => nomatch member), List.nodup_nil⟩
  | cons artifact rest ih =>
      rw [checkArtifacts] at checked
      split at checked
      · cases checked
      · rename_i here
        obtain ⟨accepted, distinct⟩ := ih checked
        refine ⟨?_, ?_⟩
        · rintro other (_ | ⟨_, member⟩)
          · exact Artifact.check_eq_ok here
          · obtain ⟨holds, fresh⟩ := accepted other member
            exact ⟨holds, fun old => fresh (List.mem_cons_of_mem _ old)⟩
        · rw [List.map_cons, List.nodup_cons]
          refine ⟨fun again => ?_, distinct⟩
          obtain ⟨other, member, same⟩ := List.mem_map.mp again
          exact (accepted other member).2 (same ▸ List.mem_cons_self)

/-- A manifest that is parsed lists accepted artifacts, no two of them of one identity. -/
theorem Manifest.parse_eq_ok {reader : Reader} {bytes : Bytes} {manifest : Manifest}
    (parsed : Manifest.parse reader bytes = .ok manifest) :
    (∀ artifact ∈ manifest.artifacts, artifact.Accepted) ∧
      (manifest.artifacts.map Artifact.identity).Nodup := by
  have checked : manifest.check reader = .ok () := by
    unfold Manifest.parse at parsed
    split at parsed
    · cases parsed
    · split at parsed
      · cases parsed
      · split at parsed
        · cases parsed
        · split at parsed
          · cases parsed
          · cases parsed
            assumption
  unfold Manifest.check at checked
  split at checked
  · cases checked
  · split at checked
    · cases checked
    · split at checked
      · cases checked
      · obtain ⟨accepted, distinct⟩ := checkArtifacts_eq_ok checked
        exact ⟨fun artifact member => (accepted artifact member).1, distinct⟩

end Retrovert.Tuf

namespace Retrovert.Apply

open Retrovert.Transport Retrovert.Tuf

/-! ## Selection -/

/-- Whether an artifact applies to a consumer that is configured for `target`. -/
def appliesTo (artifact : Artifact) (target : Option String) : Bool :=
  match artifact.target with
  | none => true
  | some named => some named == target

def isCached (cache : Cache) (artifact : Artifact) : Bool :=
  (ArtifactDigest.fromHex artifact.sha256).any cache.isCompleteAt

/-- The sum of two 64-bit sizes, which stays at the end of their range. -/
def saturatingAdd (total size : Nat) : Nat := min (total + size) (2 ^ 64 - 1)

/-- A plan, and what its artifacts weigh: all of them, and those the cache already holds. -/
structure WeighedPlan extends Plan where
  totalBytes : Nat
  cachedBytes : Nat

/-- The artifacts of a manifest that apply to a consumer, and what they weigh. -/
def Plan.select (generationId : String) (manifest : Manifest) (target : Option String)
    (cache : Cache) : WeighedPlan :=
  let artifacts := manifest.artifacts.filter (appliesTo · target)
  { generationId
    releaseVersion := manifest.version
    artifacts
    totalBytes := artifacts.foldl (fun total artifact => saturatingAdd total artifact.size) 0
    cachedBytes := artifacts.foldl (fun total artifact =>
      if isCached cache artifact then saturatingAdd total artifact.size else total) 0 }

section Selection

variable {generationId : String} {manifest : Manifest} {target : Option String} {cache : Cache}

theorem mem_select {artifact : Artifact} :
    artifact ∈ (Plan.select generationId manifest target cache).artifacts ↔
      artifact ∈ manifest.artifacts ∧ (artifact.target = none ∨ artifact.target = target) := by
  refine List.mem_filter.trans (and_congr_right fun _ => ?_)
  unfold appliesTo
  cases artifact.target with
  | none => simp
  | some named =>
      exact ⟨fun same => .inr (eq_of_beq same),
        fun applies => applies.elim (fun none => nomatch none) beq_iff_eq.mpr⟩

/-- Two artifacts that are selected for one consumer under one name are told apart by their
targets, so one of them is for every consumer. -/
theorem select_names (distinct : (manifest.artifacts.map Artifact.identity).Nodup) :
    (Plan.select generationId manifest target cache).artifacts.Pairwise fun first second =>
      first.name = second.name → target ≠ none ∧
        (first.target = none ∧ second.target = target ∨
          first.target = target ∧ second.target = none) := by
  have fewer : (Plan.select generationId manifest target cache).artifacts.Sublist
      manifest.artifacts := List.filter_sublist
  have apart := List.pairwise_map.mp (distinct.sublist (fewer.map Artifact.identity))
  refine apart.imp_of_mem fun {first second} here there differ same => ?_
  have targets : first.target ≠ second.target := fun equal => differ (Prod.ext same equal)
  rcases (mem_select.mp here).2 with none | named
  · rcases (mem_select.mp there).2 with none' | named'
    · exact absurd (none.trans none'.symm) targets
    · refine ⟨?_, .inl ⟨none, named'⟩⟩
      rintro rfl
      exact targets (none.trans named'.symm)
  · rcases (mem_select.mp there).2 with none' | named'
    · refine ⟨?_, .inr ⟨named, none'⟩⟩
      rintro rfl
      exact targets (named.trans none'.symm)
    · exact absurd (named.trans named'.symm) targets

end Selection

end Retrovert.Apply
