import Mathlib.Logic.Function.Basic
import Retrovert.Library.Disk
import Retrovert.Library.Runs

/-!
# Putting an asset on a release

The host cannot replace an asset, so a name in use is swapped: the new bytes go up
under a staging name, then the published asset is deleted, then the staged one
renamed over it. A run that is cut off between the last two calls leaves the bytes
under the staging name alone, and there the next run deletes them before it uploads
its own (`a_retry_deletes_the_only_copy`). A run that only clears a staging name
while the published one is in use never leaves the release without a copy
(`put_keeps_a_copy`).
-/

set_option autoImplicit false

namespace Retrovert.Publish

/-- Suffix an asset is uploaded under while it is being swapped in. -/
def stagingSuffix : String := ".incoming"

def staging (name : String) : String := name ++ stagingSuffix

/-- A staged asset does not have the published name. -/
theorem staging_ne (name : String) : staging name ≠ name := by
  intro same
  have length := congrArg String.length same
  rw [staging, String.length_append] at length
  have : stagingSuffix.length = 9 := by decide
  omega

/-! ## The host's side -/

/-- A named asset of a release. -/
structure Asset where
  name : String
  bytes : Bytes
deriving DecidableEq

/-- A release: its assets by their ids, and the id that the next one gets. -/
structure Release where
  assets : Nat → Option Asset
  nextId : Nat

namespace Release

/-- The id under which the release lists a name. -/
def assetId (release : Release) (name : String) : Option Nat :=
  (List.range release.nextId).find? fun id => (release.assets id).any (·.name == name)

/-- The host takes no second asset of one name. -/
def uploadAsset (release : Release) (name : String) (bytes : Bytes) : Option (Release × Nat) :=
  if (release.assetId name).isSome then none
  else
    some (⟨Function.update release.assets release.nextId (some ⟨name, bytes⟩), release.nextId + 1⟩,
      release.nextId)

def deleteAsset (release : Release) (id : Nat) : Release :=
  { release with assets := Function.update release.assets id none }

/-- There has to be an asset to rename, and none of the new name. -/
def renameAsset (release : Release) (id : Nat) (name : String) : Option Release :=
  if (release.assetId name).isSome then none
  else
    (release.assets id).map fun asset =>
      { release with assets := Function.update release.assets id (some { asset with name }) }

/-- Ids are below the next one, and no name is used twice. -/
structure Wellformed (release : Release) : Prop where
  bound : ∀ id, release.assets id ≠ none → id < release.nextId
  unique : ∀ id other asset asset', release.assets id = some asset →
    release.assets other = some asset' → asset.name = asset'.name → id = other

end Release

/-! ## The publisher's side -/

/-- The call that a run of `put_asset` makes next. A run starts by listing the
release. -/
inductive Call where
  /-- Delete what an earlier run left under the staging name. -/
  | clear (abandoned : Nat) (published : Option Nat)
  /-- Upload, under the staging name if the name is in use. -/
  | upload (published : Option Nat)
  | drop (published staged : Nat)
  | rename (staged : Nat)
deriving DecidableEq

/-- The call deletes a staged asset, and the release did not list the name. -/
def Call.clearsWithNothingPublished : Call → Bool
  | .clear _ none => true
  | _ => false

/-- A run of `put_asset`: the bytes it was given, and how far it has come. -/
structure Run where
  bytes : Bytes
  call : Call
deriving DecidableEq

/-- The run that a listing of the release leads to. -/
def putAsset (release : Release) (name : String) (bytes : Bytes) : Run :=
  let published := release.assetId name
  match release.assetId (staging name) with
  | some abandoned => ⟨bytes, .clear abandoned published⟩
  | none => ⟨bytes, .upload published⟩

/-- The release after a run's next call, the run after it, and whether the call put
the name on the release. A call that the host refuses ends the run. -/
def Run.perform (run : Run) (release : Release) (name : String) : Release × Option Run × Bool :=
  match run.call with
  | .clear abandoned published =>
      (release.deleteAsset abandoned, some { run with call := .upload published }, false)
  | .upload none =>
      match release.uploadAsset name run.bytes with
      | none => (release, none, false)
      | some (uploaded, _) => (uploaded, none, true)
  | .upload (some published) =>
      match release.uploadAsset (staging name) run.bytes with
      | none => (release, none, false)
      | some (uploaded, staged) =>
          (uploaded, some { run with call := .drop published staged }, false)
  | .drop published staged =>
      (release.deleteAsset published, some { run with call := .rename staged }, false)
  | .rename staged =>
      match release.renameAsset staged name with
      | none => (release, none, false)
      | some renamed => (renamed, none, true)

/-- A release, the run that is putting an asset on it, all bytes that runs were given,
and whether the name has been published. -/
structure Putting where
  release : Release
  run : Option Run := none
  given : List Bytes := []
  published : Bool := false

namespace Putting

inductive Action where
  /-- A new run; the one before it ended or was cut off. -/
  | put (bytes : Bytes)
  | call
deriving DecidableEq

def step (name : String) (putting : Putting) : Action → Option Putting
  | .put bytes =>
      some { putting with
        run := some (putAsset putting.release name bytes)
        given := bytes :: putting.given }
  | .call =>
      putting.run.map fun run =>
        let (release, next, published) := run.perform putting.release name
        { putting with release, run := next, published := putting.published || published }

/-- What an earlier run left under the staging name is deleted only while the
published name is in use. -/
def ClearsASecondCopy (putting : Putting) : Action → Prop
  | .put _ => True
  | .call => putting.run.all (fun run => !run.call.clearsWithNothingPublished) = true

instance (putting : Putting) : (action : Action) → Decidable (putting.ClearsASecondCopy action)
  | .put _ => inferInstanceAs (Decidable True)
  | .call => inferInstanceAs (Decidable (_ = true))

/-- Some run's bytes are on the release, under the published name or the staging
one. -/
def HasCopy (putting : Putting) (name : String) : Prop :=
  ∃ id asset, putting.release.assets id = some asset ∧
    (asset.name = name ∨ asset.name = staging name) ∧ asset.bytes ∈ putting.given

end Putting

/-! ## What the release lists -/

namespace Release

variable {release : Release} {name : String}

theorem assetId_eq_some {id : Nat} (found : release.assetId name = some id) :
    ∃ asset, release.assets id = some asset ∧ asset.name = name := by
  unfold assetId at found
  have matched := List.find?_some found
  obtain ⟨asset, there, named⟩ := (Option.any_eq_true _ _).mp matched
  exact ⟨asset, there, by simpa using named⟩

theorem assetId_of_asset (wellformed : release.Wellformed) {id : Nat} {asset : Asset}
    (there : release.assets id = some asset) (named : asset.name = name) :
    release.assetId name = some id := by
  cases found : release.assetId name with
  | some other =>
      obtain ⟨asset', there', named'⟩ := assetId_eq_some found
      rw [wellformed.unique id other asset asset' there there' (named.trans named'.symm)]
  | none =>
      have inside : id ∈ List.range release.nextId :=
        List.mem_range.mpr (wellformed.bound id (by simp [there]))
      have missing := List.find?_eq_none.mp found id inside
      simp [there, named] at missing

theorem assetId_eq_none (free : release.assetId name = none) (wellformed : release.Wellformed)
    {id : Nat} {asset : Asset} (there : release.assets id = some asset) : asset.name ≠ name := by
  intro named
  rw [assetId_of_asset wellformed there named] at free
  cases free

theorem deleteAsset_assets (id other : Nat) :
    (release.deleteAsset id).assets other = if other = id then none else release.assets other :=
  Function.update_apply ..

theorem wellformed_delete (wellformed : release.Wellformed) (id : Nat) :
    (release.deleteAsset id).Wellformed where
  bound other there := wellformed.bound other fun missing => there (by
    rw [deleteAsset_assets, missing, ite_self])
  unique first second asset asset' there there' := by
    rw [deleteAsset_assets, Option.ite_none_left_eq_some] at there there'
    exact wellformed.unique first second asset asset' there.2 there'.2

theorem wellformed_upload (wellformed : release.Wellformed) (free : release.assetId name = none)
    (bytes : Bytes) :
    Wellformed ⟨Function.update release.assets release.nextId (some ⟨name, bytes⟩),
      release.nextId + 1⟩ where
  bound id there := by
    rcases eq_or_ne id release.nextId with rfl | other
    · exact Nat.lt_succ_self _
    · dsimp only at there
      rw [Function.update_of_ne other] at there
      exact Nat.lt_succ_of_lt (wellformed.bound id there)
  unique first second asset asset' there there' same := by
    dsimp only at there there'
    rw [Function.update_apply] at there there'
    split at there <;> split at there'
    · rename_i left right
      exact left.trans right.symm
    · cases there
      exact absurd same.symm (assetId_eq_none free wellformed there')
    · cases there'
      exact absurd same (assetId_eq_none free wellformed there)
    · exact wellformed.unique first second asset asset' there there' same

theorem wellformed_rename (wellformed : release.Wellformed) (free : release.assetId name = none)
    {id : Nat} {asset : Asset} (there : release.assets id = some asset) :
    Wellformed { release with
      assets := Function.update release.assets id (some { asset with name }) } where
  bound other there' := by
    rcases eq_or_ne other id with rfl | apart
    · exact wellformed.bound other (by simp [there])
    · dsimp only at there'
      rw [Function.update_of_ne apart] at there'
      exact wellformed.bound other there'
  unique first second asset₁ asset₂ there₁ there₂ same := by
    dsimp only at there₁ there₂
    rw [Function.update_apply] at there₁ there₂
    split at there₁ <;> split at there₂
    · rename_i left right
      exact left.trans right.symm
    · cases there₁
      exact absurd same.symm (assetId_eq_none free wellformed there₂)
    · cases there₂
      exact absurd same (assetId_eq_none free wellformed there₁)
    · exact wellformed.unique first second asset₁ asset₂ there₁ there₂ same

/-- The release lists the one asset of a name. -/
theorem assetId_iff (wellformed : release.Wellformed) {id : Nat} :
    release.assetId name = some id ↔ ∃ asset, release.assets id = some asset ∧ asset.name = name :=
  ⟨assetId_eq_some, fun ⟨_, there, named⟩ => assetId_of_asset wellformed there named⟩

/-- A name is listed as before when the asset that has it is the same. -/
theorem assetId_congr {later : Release} (wellformed : release.Wellformed)
    (wellformed' : later.Wellformed)
    (same : ∀ id asset, asset.name = name →
      (later.assets id = some asset ↔ release.assets id = some asset)) :
    later.assetId name = release.assetId name := by
  apply Option.ext
  intro id
  rw [assetId_iff wellformed, assetId_iff wellformed']
  constructor
  · rintro ⟨asset, there, named⟩
    exact ⟨asset, (same id asset named).mp there, named⟩
  · rintro ⟨asset, there, named⟩
    exact ⟨asset, (same id asset named).mpr there, named⟩

section Listing

variable (wellformed : release.Wellformed)

include wellformed

theorem assetId_delete_self {id : Nat} (found : release.assetId name = some id) :
    (release.deleteAsset id).assetId name = none := by
  obtain ⟨asset, there, named⟩ := assetId_eq_some found
  cases left : (release.deleteAsset id).assetId name with
  | none => rfl
  | some other =>
      obtain ⟨asset', there', named'⟩ := assetId_eq_some left
      rw [deleteAsset_assets, Option.ite_none_left_eq_some] at there'
      exact absurd (wellformed.unique other id asset' asset there'.2 there
        (named'.trans named.symm)) there'.1

theorem assetId_delete_other {id : Nat} (found : release.assetId name = some id) {other : String}
    (apart : other ≠ name) : (release.deleteAsset id).assetId other = release.assetId other := by
  obtain ⟨asset, there, named⟩ := assetId_eq_some found
  refine assetId_congr wellformed (wellformed_delete wellformed id) fun id' asset' named' => ?_
  rw [deleteAsset_assets]
  by_cases same : id' = id
  · subst same
    rw [if_pos rfl, there]
    refine iff_of_false (by simp) ?_
    rintro is
    cases is
    exact apart (named'.symm.trans named)
  · rw [if_neg same]

theorem assetId_upload_other (free : release.assetId name = none) (bytes : Bytes) {other : String}
    (apart : other ≠ name) :
    assetId ⟨Function.update release.assets release.nextId (some ⟨name, bytes⟩),
      release.nextId + 1⟩ other = release.assetId other := by
  refine assetId_congr wellformed (wellformed_upload wellformed free bytes) fun id asset named => ?_
  dsimp only
  rw [Function.update_apply]
  by_cases fresh : id = release.nextId
  · subst fresh
    rw [if_pos rfl]
    refine iff_of_false (fun is => ?_) fun is => ?_
    · cases is
      exact apart named.symm
    · exact Nat.lt_irrefl _ (wellformed.bound release.nextId (by simp [is]))
  · rw [if_neg fresh]

theorem assetId_upload_self (free : release.assetId name = none) (bytes : Bytes) :
    assetId ⟨Function.update release.assets release.nextId (some ⟨name, bytes⟩),
      release.nextId + 1⟩ name = some release.nextId :=
  assetId_of_asset (wellformed_upload wellformed free bytes) (Function.update_self ..) rfl

end Listing

end Release

namespace Putting

variable {name : String}

/-- What a run knows of the release holds when it makes its next call. -/
def Fits (release : Release) (name : String) : Call → Prop
  | .clear abandoned published =>
      release.assetId (staging name) = some abandoned ∧ release.assetId name = published
  | .upload published =>
      release.assetId (staging name) = none ∧ release.assetId name = published
  | .drop published staged =>
      release.assetId (staging name) = some staged ∧ release.assetId name = some published
  | .rename staged =>
      release.assetId (staging name) = some staged ∧ release.assetId name = none

/-- The release lists the name or the staging name once the name is published. Both
stand for bytes that a run was given, and a run in progress knows how they stand. -/
structure Kept (name : String) (putting : Putting) : Prop where
  wellformed : putting.release.Wellformed
  given : ∀ id asset, putting.release.assets id = some asset →
    asset.name = name ∨ asset.name = staging name → asset.bytes ∈ putting.given
  run : ∀ run, putting.run = some run →
    run.bytes ∈ putting.given ∧ Fits putting.release name run.call
  copy : putting.published = true →
    putting.release.assetId name ≠ none ∨ putting.release.assetId (staging name) ≠ none

theorem fits_putAsset (release : Release) (name : String) (bytes : Bytes) :
    Fits release name (putAsset release name bytes).call := by
  unfold putAsset
  cases staged : release.assetId (staging name) with
  | none => exact ⟨staged, rfl⟩
  | some abandoned => exact ⟨staged, rfl⟩

/-- No call of a run uses an id or a name twice. -/
theorem wellformed_perform {release : Release} (wellformed : release.Wellformed) (run : Run)
    (name : String) : (run.perform release name).1.Wellformed := by
  obtain ⟨bytes, call⟩ := run
  have uploads : ∀ name uploaded, release.uploadAsset name bytes = some uploaded →
      uploaded.1.Wellformed := by
    intro name uploaded made
    rw [Release.uploadAsset, Option.ite_none_left_eq_some] at made
    obtain ⟨free, made⟩ := made
    cases made
    exact Release.wellformed_upload wellformed (by simpa using free) bytes
  cases call with
  | clear abandoned published => exact Release.wellformed_delete wellformed abandoned
  | drop published staged => exact Release.wellformed_delete wellformed published
  | upload published =>
      cases published <;> simp only [Run.perform] <;> split
      · exact wellformed
      · exact uploads _ _ (by assumption)
      · exact wellformed
      · exact uploads _ _ (by assumption)
  | rename staged =>
      simp only [Run.perform]
      split
      · exact wellformed
      · rename_i renamed made
        rw [Release.renameAsset, Option.ite_none_left_eq_some] at made
        obtain ⟨free, made⟩ := made
        obtain ⟨asset, there, rfl⟩ := Option.map_eq_some_iff.mp made
        exact Release.wellformed_rename wellformed (by simpa using free) there

/-- Starting a run only lists the release. -/
theorem Kept.put {putting : Putting} (kept : putting.Kept name) (bytes : Bytes) :
    Kept name { putting with
      run := some (putAsset putting.release name bytes), given := bytes :: putting.given } where
  wellformed := kept.wellformed
  given id asset there named := List.mem_cons_of_mem _ (kept.given id asset there named)
  run run same := by
    cases same
    refine ⟨?_, fits_putAsset putting.release name bytes⟩
    unfold putAsset
    split <;> exact List.mem_cons_self
  copy := kept.copy

/-- An asset that the host deletes does not put other bytes in its place. -/
theorem given_delete {putting : Putting} (kept : putting.Kept name) (deleted id : Nat)
    (asset : Asset) (there : (putting.release.deleteAsset deleted).assets id = some asset)
    (named : asset.name = name ∨ asset.name = staging name) : asset.bytes ∈ putting.given := by
  rw [Release.deleteAsset_assets, Option.ite_none_left_eq_some] at there
  exact kept.given id asset there.2 named

/-- An uploaded asset has the bytes of the run. -/
theorem given_upload {putting : Putting} (kept : putting.Kept name) {uploaded : Asset}
    (mine : uploaded.bytes ∈ putting.given) (id : Nat) (asset : Asset)
    (there : Function.update putting.release.assets putting.release.nextId (some uploaded) id =
      some asset)
    (named : asset.name = name ∨ asset.name = staging name) : asset.bytes ∈ putting.given := by
  rw [Function.update_apply] at there
  split at there
  · cases there
    exact mine
  · exact kept.given id asset there named

/-- **One call** of a run that clears a second copy only. -/
theorem Kept.call {putting : Putting} (kept : putting.Kept name)
    (clears : putting.ClearsASecondCopy .call) {run : Run} (running : putting.run = some run) :
    Kept name { putting with
      release := (run.perform putting.release name).1
      run := (run.perform putting.release name).2.1
      published := putting.published || (run.perform putting.release name).2.2 } := by
  obtain ⟨mine, fits⟩ := kept.run run running
  obtain ⟨bytes, call⟩ := run
  have apart := staging_ne name
  cases call with
  | clear abandoned published =>
      obtain ⟨staged, listed⟩ := fits
      have cleared := Release.assetId_delete_self kept.wellformed staged
      have same := Release.assetId_delete_other kept.wellformed staged apart.symm
      refine ⟨wellformed_perform kept.wellformed _ name, given_delete kept abandoned,
        fun next is => ?_, fun _ => .inl ?_⟩
      · cases is
        exact ⟨mine, cleared, same.trans listed⟩
      · simp only [Run.perform]
        rw [same, listed]
        rintro rfl
        simp [ClearsASecondCopy, running, Call.clearsWithNothingPublished] at clears
  | drop published staged =>
      obtain ⟨standing, listed⟩ := fits
      have gone := Release.assetId_delete_self kept.wellformed listed
      have same := Release.assetId_delete_other kept.wellformed listed apart
      refine ⟨wellformed_perform kept.wellformed _ name, given_delete kept published,
        fun next is => ?_, fun _ => .inr ?_⟩
      · cases is
        exact ⟨mine, same.trans standing, gone⟩
      · simp only [Run.perform]
        rw [same, standing]
        exact Option.some_ne_none _
  | upload published =>
      obtain ⟨free, listed⟩ := fits
      cases published with
      | none =>
          have performed : Run.perform ⟨bytes, .upload none⟩ putting.release name =
              (⟨Function.update putting.release.assets putting.release.nextId (some ⟨name, bytes⟩),
                putting.release.nextId + 1⟩, none, true) := by
            simp [Run.perform, Release.uploadAsset, listed]
          rw [performed]
          have uploaded := Release.assetId_upload_self kept.wellformed listed bytes
          refine ⟨Release.wellformed_upload kept.wellformed listed bytes,
            given_upload kept mine, fun next is => (nomatch is), fun _ => .inl ?_⟩
          rw [uploaded]
          exact Option.some_ne_none _
      | some published =>
          have performed : Run.perform ⟨bytes, .upload (some published)⟩ putting.release name =
              (⟨Function.update putting.release.assets putting.release.nextId
                (some ⟨staging name, bytes⟩), putting.release.nextId + 1⟩,
                some ⟨bytes, .drop published putting.release.nextId⟩, false) := by
            simp [Run.perform, Release.uploadAsset, free]
          rw [performed]
          have uploaded := Release.assetId_upload_self kept.wellformed free bytes
          have same := Release.assetId_upload_other kept.wellformed free bytes apart.symm
          refine ⟨Release.wellformed_upload kept.wellformed free bytes, given_upload kept mine,
            fun next is => ?_, fun _ => .inr ?_⟩
          · cases is
            exact ⟨mine, uploaded, same.trans listed⟩
          · rw [uploaded]
            exact Option.some_ne_none _
  | rename staged =>
      obtain ⟨standing, free⟩ := fits
      obtain ⟨asset, there, named⟩ := Release.assetId_eq_some standing
      have performed : Run.perform ⟨bytes, .rename staged⟩ putting.release name =
          ({ putting.release with
            assets := Function.update putting.release.assets staged (some { asset with name }) },
            none, true) := by
        simp [Run.perform, Release.renameAsset, free, there]
      rw [performed]
      have renamed := Release.wellformed_rename kept.wellformed free there
      refine ⟨renamed, fun id asset' there' named' => ?_, fun next is => (nomatch is),
        fun _ => .inl ?_⟩
      · dsimp only at there'
        rw [Function.update_apply] at there'
        split at there'
        · cases there'
          exact kept.given staged asset there (.inr named)
        · exact kept.given id asset' there' named'
      · rw [Release.assetId_of_asset renamed (Function.update_self ..) rfl]
        exact Option.some_ne_none _

/-- The states of runs on a release that has neither the name nor the staging name,
every step meeting a guard. -/
def Reaches (name : String) (guard : Putting → Action → Prop) (putting : Putting) : Prop :=
  ∃ release : Release, release.Wellformed ∧ release.assetId name = none ∧
    release.assetId (staging name) = none ∧ Runs.Moves (step name) guard { release } putting

theorem kept_new {release : Release} (wellformed : release.Wellformed)
    (free : release.assetId name = none) (free' : release.assetId (staging name) = none) :
    Kept name { release } where
  wellformed := wellformed
  given id asset there named := by
    rcases named with named | named
    · exact absurd named (Release.assetId_eq_none free wellformed there)
    · exact absurd named (Release.assetId_eq_none free' wellformed there)
  run _ running := nomatch running
  copy published := nomatch published

theorem wellformed_step {putting later : Putting} {action : Action}
    (stepped : step name putting action = some later) (wellformed : putting.release.Wellformed) :
    later.release.Wellformed := by
  cases action with
  | put bytes =>
      cases stepped
      exact wellformed
  | call =>
      obtain ⟨run, -, rfl⟩ := Option.map_eq_some_iff.mp stepped
      exact wellformed_perform wellformed run name

theorem kept_step {putting later : Putting} {action : Action}
    (clears : putting.ClearsASecondCopy action) (stepped : step name putting action = some later)
    (kept : putting.Kept name) : later.Kept name := by
  cases action with
  | put bytes =>
      cases stepped
      exact kept.put bytes
  | call =>
      obtain ⟨run, running, rfl⟩ := Option.map_eq_some_iff.mp stepped
      exact kept.call clears running

/-- **A put keeps a copy.** From the moment the name is published on, every run that
only clears a staging name while the published one is in use leaves the bytes of some
put on the release, wherever it is cut off. -/
theorem put_keeps_a_copy {putting : Putting} (run : Reaches name ClearsASecondCopy putting)
    (published : putting.published = true) : putting.HasCopy name := by
  obtain ⟨release, wellformed, free, free', run⟩ := run
  have kept := run.invariant (Kept name) (fun _ _ _ clears stepped kept =>
    kept_step clears stepped kept) (kept_new wellformed free free')
  rcases kept.copy published with listed | listed
  · obtain ⟨id, listed⟩ := Option.ne_none_iff_exists'.mp listed
    obtain ⟨asset, there, named⟩ := Release.assetId_eq_some listed
    exact ⟨id, asset, there, .inl named, kept.given id asset there (.inl named)⟩
  · obtain ⟨id, listed⟩ := Option.ne_none_iff_exists'.mp listed
    obtain ⟨asset, there, named⟩ := Release.assetId_eq_some listed
    exact ⟨id, asset, there, .inr named, kept.given id asset there (.inr named)⟩

/-- The release before anything is put on it. -/
def empty : Release := ⟨fun _ => none, 0⟩

theorem empty_wellformed : empty.Wellformed where
  bound _ there := absurd rfl there
  unique _ _ _ _ there := nomatch there

theorem reaches_of_moves {guard : Putting → Action → Prop} {putting : Putting}
    (run : Runs.Moves (step name) guard { release := empty } putting) : Reaches name guard putting :=
  ⟨empty, empty_wellformed, rfl, rfl, run⟩

/-- A second put that is cut off in mid-swap. -/
theorem put_keeps_a_copy_in_mid_swap : ∃ putting : Putting, putting.published = true ∧
    putting.release.assetId "timestamp.json" = none ∧ putting.HasCopy "timestamp.json" := by
  obtain ⟨putting, run, found⟩ := Runs.Moves.of_check (step "timestamp.json") ClearsASecondCopy
    { release := empty } [.put [1], .call, .put [2], .call, .call]
    (fun putting => putting.published && (putting.release.assetId "timestamp.json").isNone)
    (by decide +kernel)
  obtain ⟨published, gone⟩ := Bool.and_eq_true_iff.mp found
  exact ⟨putting, published, Option.isNone_iff_eq_none.mp gone,
    put_keeps_a_copy (reaches_of_moves run) published⟩

/-- A put is cut off between its delete and its rename, and the next one right after
it has deleted what that left. -/
theorem a_retry_deletes_the_only_copy : ¬∀ name putting, Reaches name Runs.unguarded putting →
    putting.published = true → putting.HasCopy name := by
  intro keeps
  obtain ⟨putting, run, found⟩ := Runs.Moves.of_check (step "timestamp.json") Runs.unguarded
    { release := empty } [.put [1], .call, .put [2], .call, .call, .put [3], .call]
    (fun putting => putting.published && (putting.release.assetId "timestamp.json").isNone &&
      (putting.release.assetId (staging "timestamp.json")).isNone) (by decide +kernel)
  simp only [Bool.and_eq_true, Option.isNone_iff_eq_none] at found
  have wellformed : putting.release.Wellformed :=
    run.invariant (·.release.Wellformed) (fun _ _ _ _ stepped held => wellformed_step stepped held)
      empty_wellformed
  obtain ⟨id, asset, there, named, -⟩ :=
    keeps "timestamp.json" putting (reaches_of_moves run) found.1.1
  rcases named with named | named
  · exact Release.assetId_eq_none found.1.2 wellformed there named
  · exact Release.assetId_eq_none found.2 wellformed there named

end Putting

end Retrovert.Publish
