import Retrovert.Apply.Crash
import Retrovert.Apply.Selecting
import Retrovert.Catalog.Payload
import Retrovert.Queue.Process

/-!
# What a consumer makes of an accepted manifest

Between a manifest that is accepted and a plugin that is loaded stand checks of three other
components: the apply's, the queue's and the catalog's. What they ask and the manifest does
not is that the paths of the artifacts differ, that their names are plain, and that no
artifact is empty.
-/

set_option autoImplicit false

/-! ## Hex -/

namespace Retrovert.Transport

open Retrovert.Tuf (isHexSha256)

/-- A character of a lower-case hex digest. -/
def isLowerHex (char : Char) : Bool := ('0' ≤ char && char ≤ '9') || ('a' ≤ char && char ≤ 'f')

theorem isHexSha256_iff {text : String} : isHexSha256 text = true ↔
    text.toList.length = 64 ∧ ∀ char ∈ text.toList, isLowerHex char = true := by
  rw [isHexSha256, Bool.and_eq_true, beq_iff_eq, List.all_eq_true]
  rfl

theorem hexValue_of_isLowerHex {char : Char} (lower : isLowerHex char = true) :
    ∃ value, hexValue char = some value := by
  simp only [isLowerHex, Bool.or_eq_true, Bool.and_eq_true, decide_eq_true_eq] at lower
  unfold hexValue
  rcases lower with digit | letter
  · rw [if_pos digit]
    exact ⟨_, rfl⟩
  · rw [if_pos letter]
    split <;> exact ⟨_, rfl⟩

theorem decodeHex_of_isLowerHex (count : Nat) {chars : List Char} (even : chars.length = 2 * count)
    (lower : ∀ char ∈ chars, isLowerHex char = true) :
    ∃ bytes, decodeHex chars = some bytes ∧ bytes.length = count := by
  induction count generalizing chars with
  | zero =>
      rw [List.length_eq_zero_iff.mp even]
      exact ⟨[], rfl, rfl⟩
  | succ count ih =>
      match chars, even with
      | high :: low :: rest, even =>
          obtain ⟨first, upper⟩ := hexValue_of_isLowerHex (lower high (by simp))
          obtain ⟨second, under⟩ := hexValue_of_isLowerHex (lower low (by simp))
          obtain ⟨bytes, decoded, length⟩ := ih (by simpa [Nat.mul_succ] using even)
            fun char member => lower char (by simp [member])
          refine ⟨(16 * first + second) :: bytes, ?_, by rw [List.length_cons, length]⟩
          simp only [decodeHex, upper, under, decoded, Option.bind_eq_bind, Option.bind_some]

/-- What the manifest takes for a digest is one. -/
theorem fromHex_of_isHexSha256 {text : String} (hex : isHexSha256 text = true) :
    ∃ digest, ArtifactDigest.fromHex text = some digest := by
  obtain ⟨length, lower⟩ := isHexSha256_iff.mp hex
  obtain ⟨bytes, decoded, size⟩ := decodeHex_of_isLowerHex 32 length lower
  rw [ArtifactDigest.fromHex, decoded, Option.bind_some, dif_pos size]
  exact ⟨_, rfl⟩

theorem isLowerHex_hexDigit {value : UInt8} (small : value < 16) :
    isLowerHex (hexDigit value) = true := by
  have every : ∀ value : Fin 16, isLowerHex (hexDigit (UInt8.ofNat value)) = true := by decide
  simpa using every ⟨value.toNat, small⟩

/-- A digest as it is written is what the manifest takes for one. -/
theorem isHexSha256_toHex (digest : ArtifactDigest) : isHexSha256 digest.toHex = true := by
  obtain ⟨⟨bytes, size⟩⟩ := digest
  rw [isHexSha256_iff, ArtifactDigest.toHex, String.toList_ofList]
  refine ⟨?_, fun char member => ?_⟩
  · simp [List.length_flatMap, size]
  · obtain ⟨byte, -, here⟩ := List.mem_flatMap.mp member
    rcases List.mem_pair.mp here with rfl | rfl
    · refine isLowerHex_hexDigit ?_
      rw [UInt8.lt_iff_toNat_lt, UInt8.toNat_div]
      have := byte.toNat_lt
      show byte.toNat / 16 < 16
      omega
    · exact isLowerHex_hexDigit (UInt8.mod_lt _ (by decide))

end Retrovert.Transport

namespace Retrovert.Catalog

open Retrovert.Apply Retrovert.Queue Retrovert.Transport Retrovert.Tuf

/-- A character that a plugin's name may hold. -/
def isPlain (char : Char) : Bool := char.isAlphanum || char == '-' || char == '_'

section Consumer

variable (sha256 : Bytes → ArtifactDigest)

/-- What the queue makes of an artifact that is served with the bytes its digest and its size
describe, and has been written as it was served. -/
def ValidatesAs (artifact : Artifact) (verdict : Except Queue.Failure Unit) : Prop :=
  ∀ (cache : Cache) (digest : ArtifactDigest) (content : Bytes),
    digestOf artifact = .ok digest → sha256 content = digest → content.length = artifact.size →
    cache.read (.artifact digest) = some content →
    validate sha256 cache digest digest (some artifact.size) content content.length = verdict

/-- A plan that passes every check from the apply to the catalog. -/
structure Installs (plan : Plan) : Prop where
  digests : ∀ artifact ∈ plan.artifacts, ∃ digest, digestOf artifact = .ok digest
  safe : refuseUnsafeNames plan = .ok ()
  apart : refuseCollisions plan.artifacts = .ok ()
  plain : ∀ artifact ∈ plan.artifacts, checkName artifact.name = true
  named : (plan.artifacts.map Artifact.name).Nodup
  validates : ∀ artifact ∈ plan.artifacts, ValidatesAs sha256 artifact (.ok ())

/-- What the consumer makes of a plan for `target` whose names and digests are in order. -/
structure Meets (plan : Plan) (target : Option String) : Prop where
  digests : ∀ artifact ∈ plan.artifacts, ∃ digest, digestOf artifact = .ok digest
  safe : refuseUnsafeNames plan = .ok ()
  apart : refuseCollisions plan.artifacts = .ok () ↔ (plan.artifacts.map Artifact.path).Nodup
  plain : ∀ artifact ∈ plan.artifacts,
    checkName artifact.name = true ↔ ∀ char ∈ artifact.name.toList, isPlain char = true
  named : plan.artifacts.Pairwise fun first second => first.name = second.name →
    target ≠ none ∧ (first.target = none ∧ second.target = target ∨
      first.target = target ∧ second.target = none)
  validates : ∀ artifact ∈ plan.artifacts, ValidatesAs sha256 artifact
    (if artifact.size = 0 then .error .unreadable else .ok ())

variable {sha256}

theorem checkName_iff {name : String} (filled : name ≠ "") :
    checkName name = true ↔ ∀ char ∈ name.toList, isPlain char = true := by
  rw [checkName, Bool.and_eq_true, List.all_eq_true]
  refine ⟨And.right, fun plain => ⟨?_, plain⟩⟩
  rw [Bool.not_eq_true', Bool.eq_false_iff]
  exact fun empty => filled (String.isEmpty_iff.mp empty)

/-- An artifact that was served as described is complete unless it is empty. -/
theorem validatesAs (artifact : Artifact) : ValidatesAs sha256 artifact
    (if artifact.size = 0 then .error .unreadable else .ok ()) := by
  rintro cache digest content - rfl sized stored
  have empty : artifact.size = 0 ↔ content = [] := by rw [← sized, List.length_eq_zero_iff]
  simp only [validate, sized, ne_eq, not_true_eq_false, if_false, verifyOnDisk, hashFile, stored]
  by_cases nothing : content = []
  · rw [if_pos nothing, if_pos (empty.mpr nothing)]
  · rw [if_neg nothing, if_neg fun zero => nothing (empty.mp zero)]
    simp only [not_true_eq_false, if_false]

/-- **What a manifest is accepted with is what the consumer needs**, but for paths that
collide, names that are not plain or are shared by an artifact for every consumer and one for
this target, and artifacts that are empty. -/
theorem accepted_manifest_installs {reader : Reader} {bytes : Bytes} {manifest : Manifest}
    (parsed : Manifest.parse reader bytes = .ok manifest) (target : Option String)
    (cache : Cache) :
    Meets sha256 (Plan.select (generationId sha256 bytes) manifest target cache).toPlan target := by
  obtain ⟨accepted, distinct⟩ := Manifest.parse_eq_ok parsed
  have selected : ∀ artifact ∈
      (Plan.select (generationId sha256 bytes) manifest target cache).artifacts,
      artifact.Accepted := fun artifact member => accepted artifact (mem_select.mp member).1
  refine ⟨fun artifact member => ?_, ?_, refuseCollisions_iff, fun artifact member => ?_, ?_,
    fun artifact _ => validatesAs artifact⟩
  · obtain ⟨digest, parsed⟩ := fromHex_of_isHexSha256 (selected artifact member).sha256
    exact ⟨digest, by rw [digestOf, parsed]⟩
  · exact refuseUnsafeNames_iff.mpr ⟨isHexSha256_toHex _, fun artifact member =>
      (selected artifact member).path⟩
  · exact checkName_iff (selected artifact member).name
  · exact select_names distinct

end Consumer

/-! ## What a consumer refuses -/

/-- Two artifacts of one name that is a path, at one place and empty, of which one is for every
consumer. -/
def clashing : Manifest where
  schema := 1
  version := 1
  sourceRevision := "0123abc"
  published := "2026-08-15T12:00:00Z"
  artifacts :=
    let digest := (ArtifactDigest.leading []).toHex
    [⟨"a/b", none, "x", digest, 0, "def4567", none⟩,
      ⟨"a/b", some "linux-x86_64", "x", digest, 0, "def4567", none⟩]

/-- One document, as it is read. -/
def reading (manifest : Manifest) : Reader where
  schema _ := some manifest.schema
  manifest _ := some manifest
  isTimestamp text := text == "2026-08-15T12:00:00Z"

theorem parse_clashing : Manifest.parse (reading clashing) [] = .ok clashing := by
  decide +kernel

/-- A consumer on the platform that the second artifact is for. -/
def clashingPlan : Plan :=
  (Plan.select (generationId ArtifactDigest.leading []) clashing (some "linux-x86_64")
    Disk.empty).toPlan

theorem accepted_manifest_installs_clashing :
    Meets ArtifactDigest.leading clashingPlan (some "linux-x86_64") :=
  accepted_manifest_installs parse_clashing _ _

/-- An empty artifact is unreadable once it has been served. -/
theorem not_validatesAs_of_empty {sha256 : Bytes → ArtifactDigest} {artifact : Artifact}
    (empty : artifact.size = 0) (hashed : digestOf artifact = .ok (sha256 [])) :
    ¬ ValidatesAs sha256 artifact (.ok ()) := by
  intro validates
  have stored := Disk.read_write_self (Disk.empty : Cache) (.artifact (sha256 [])) []
  have complete := validates _ _ [] hashed rfl empty.symm stored
  rw [validatesAs artifact _ _ [] hashed rfl empty.symm stored, if_pos empty] at complete
  cases complete

/-- A manifest that is accepted, and a plan of it that is refused for a collision, for a name
and for an empty artifact, and has one name twice. -/
theorem an_accepted_manifest_does_not_install :
    Manifest.parse (reading clashing) [] = .ok clashing ∧
      refuseCollisions clashingPlan.artifacts = .error (.collision "a/b" "a/b" "x") ∧
      (∀ artifact ∈ clashingPlan.artifacts, checkName artifact.name = false) ∧
      ¬ (clashingPlan.artifacts.map Artifact.name).Nodup ∧
      (∀ artifact ∈ clashingPlan.artifacts,
        ¬ ValidatesAs ArtifactDigest.leading artifact (.ok ())) ∧
      ¬ Installs ArtifactDigest.leading clashingPlan := by
  have refused : refuseCollisions clashingPlan.artifacts =
      .error (.collision "a/b" "a/b" "x") := by decide +kernel
  refine ⟨parse_clashing, refused, by decide +kernel, by decide +kernel, fun artifact member => ?_,
    fun installs => ?_⟩
  · have empty : ∀ artifact ∈ clashingPlan.artifacts, artifact.size = 0 ∧
        digestOf artifact = .ok (ArtifactDigest.leading []) := by decide +kernel
    exact not_validatesAs_of_empty (empty artifact member).1 (empty artifact member).2
  · have apart := installs.apart
    rw [refused] at apart
    cases apart

end Retrovert.Catalog
