import Mathlib.Algebra.Order.Field.Rat
import Mathlib.Tactic.Linarith
import Retrovert.Library.Buckets
import Retrovert.Library.Slice

/-!
# The scope trace

A trace of an oscilloscope has room for so many points. When there are more samples than points
the samples are bucketed, and each bucket gives the sample of largest magnitude, which keeps
transients visible.

The buckets are the samples, cut in order and without a rest, and none is empty; so a point is a
sample, the largest of its bucket, and the largest point is the largest sample
(`buckets_partition_samples`). Samples are exact numbers here, and so are the products of
indices and lengths.
-/

set_option autoImplicit false

namespace Retrovert.Present

open Retrovert.Buckets Retrovert.Slice

/-- One vertex of a scope polyline. -/
structure ScopePoint where
  x : ℚ := 0
  y : ℚ := 0
deriving DecidableEq

/-- A fixed-capacity polyline. -/
structure ScopeTrace where
  points : List ScopePoint
  len : Nat
deriving DecidableEq

/-- Keep a value in the display range. -/
def clamp (value : ℚ) : ℚ := if value < -1 then -1 else if 1 < value then 1 else value

/-- The sample of largest magnitude, of several the first. -/
def loudest (bucket : List ℚ) : ℚ :=
  bucket.foldl (fun best sample => if |best| < |sample| then sample else best) 0

namespace ScopeTrace

/-- Reserves `capacity` points. -/
def new (capacity : Nat) : ScopeTrace where
  points := List.replicate (max capacity 2) {}
  len := 0

/-- How many points samples are reduced to. -/
def filled (trace : ScopeTrace) (samples : List ℚ) : Nat :=
  min samples.length trace.points.length

/-- The bounds of bucket `i` of `n`. -/
def bucket (size n i : Nat) : Nat × Nat :=
  let lo := i * size / n
  (lo, max ((i + 1) * size / n) (lo + 1))

/-- Point `i` of `n`; `none` if its bucket is not a slice of the samples. -/
def point (samples : List ℚ) (n i : Nat) : Option ScopePoint :=
  let (lo, hi) := bucket samples.length n i
  (slice? samples lo hi).map fun bucket => ⟨i * (1 / (max (n - 1) 1 : Nat)), clamp (loudest bucket)⟩

/-- Refills the trace from raw samples. Nothing at all is a flat line of two points. -/
def fill (trace : ScopeTrace) (samples : List ℚ) : Option ScopeTrace :=
  if samples = [] then
    if 2 ≤ trace.points.length then some ⟨(trace.points.set 0 ⟨0, 0⟩).set 1 ⟨1, 0⟩, 2⟩ else none
  else
    let n := trace.filled samples
    ((List.range n).mapM (point samples n)).map fun points =>
      ⟨points ++ trace.points.drop n, n⟩

/-- The points populated by the last fill. -/
def populated (trace : ScopeTrace) : Option (List ScopePoint) := slice? trace.points 0 trace.len

end ScopeTrace

/-! ## Magnitudes -/

/-- The largest magnitude of several values. -/
def peak (values : List ℚ) : ℚ := values.foldr (fun value best => max |value| best) 0

theorem abs_le_peak {values : List ℚ} : ∀ value ∈ values, |value| ≤ peak values := by
  induction values with
  | nil => exact fun _ member => nomatch member
  | cons first rest ih =>
      intro value member
      rcases List.mem_cons.mp member with rfl | later
      · exact le_max_left ..
      · exact (ih value later).trans (le_max_right ..)

theorem peak_le {values : List ℚ} {bound : ℚ} (positive : 0 ≤ bound)
    (bounded : ∀ value ∈ values, |value| ≤ bound) : peak values ≤ bound := by
  induction values with
  | nil => exact positive
  | cons first rest ih =>
      rw [List.forall_mem_cons] at bounded
      exact max_le bounded.1 (ih bounded.2)

/-- The peak of some values is the magnitude of one of them. -/
theorem exists_peak {values : List ℚ} (filled : values ≠ []) :
    ∃ value ∈ values, peak values = |value| := by
  induction values with
  | nil => exact absurd rfl filled
  | cons first rest ih =>
      by_cases last : rest = []
      · subst last
        exact ⟨first, List.mem_cons_self, max_eq_left (abs_nonneg first)⟩
      · obtain ⟨value, member, same⟩ := ih last
        rcases max_cases |first| (peak rest) with ⟨larger, -⟩ | ⟨smaller, -⟩
        · exact ⟨first, List.mem_cons_self, larger⟩
        · exact ⟨value, List.mem_cons_of_mem _ member, smaller.trans same⟩

/-- Clamping cuts a magnitude at one. -/
theorem abs_clamp (value : ℚ) : |clamp value| = min |value| 1 := by
  unfold clamp
  split
  · rw [abs_of_neg (by linarith : value < 0), min_eq_right (by linarith)]
    norm_num
  · split
    · rw [abs_of_pos (by linarith : (0 : ℚ) < value), min_eq_right (by linarith)]
      norm_num
    · rw [min_eq_left (abs_le.mpr ⟨by linarith, by linarith⟩)]

theorem clamp_of_nonneg {value : ℚ} (positive : 0 ≤ value) : clamp value = min value 1 := by
  unfold clamp
  rw [if_neg (by linarith)]
  split
  · exact (min_eq_right (by linarith)).symm
  · exact (min_eq_left (by linarith)).symm

/-- What a pass over a bucket keeps is one of what it has met, and the largest. -/
theorem foldl_loudest (bucket : List ℚ) : ∀ best : ℚ,
    let kept := bucket.foldl (fun best sample => if |best| < |sample| then sample else best) best
    kept ∈ best :: bucket ∧ ∀ sample ∈ best :: bucket, |sample| ≤ |kept| := by
  induction bucket with
  | nil =>
      intro best
      refine ⟨List.mem_cons_self, fun sample member => ?_⟩
      rw [List.mem_singleton.mp member]
      exact le_rfl
  | cons first rest ih =>
      intro best kept
      have passed := ih (if |best| < |first| then first else best)
      change kept ∈ _ ∧ ∀ sample ∈ _, |sample| ≤ |kept| at passed
      obtain ⟨met, largest⟩ := passed
      have better := largest _ List.mem_cons_self
      constructor
      · rcases List.mem_cons.mp met with here | later
        · rw [here]
          split
          · exact List.mem_cons_of_mem _ List.mem_cons_self
          · exact List.mem_cons_self
        · exact List.mem_cons_of_mem _ (List.mem_cons_of_mem _ later)
      · intro sample member
        have both : |best| ≤ |kept| ∧ |first| ≤ |kept| := by
          split at better
          · exact ⟨by linarith, better⟩
          · exact ⟨better, by linarith⟩
        rcases List.mem_cons.mp member with rfl | member
        · exact both.1
        · rcases List.mem_cons.mp member with rfl | member
          · exact both.2
          · exact largest sample (List.mem_cons_of_mem _ member)

/-- The loudest of a bucket is one of its samples, and the largest. -/
theorem loudest_spec {bucket : List ℚ} (filled : bucket ≠ []) :
    loudest bucket ∈ bucket ∧ ∀ sample ∈ bucket, |sample| ≤ |loudest bucket| := by
  obtain ⟨met, largest⟩ := foldl_loudest bucket 0
  change loudest bucket ∈ _ at met
  change ∀ sample ∈ _, |sample| ≤ |loudest bucket| at largest
  refine ⟨?_, fun sample member => largest sample (List.mem_cons_of_mem _ member)⟩
  rcases List.mem_cons.mp met with silent | found
  · -- All the samples are zero, and so is the first.
    obtain ⟨first, rest, rfl⟩ := List.exists_cons_of_ne_nil filled
    have zero := largest first (List.mem_cons_of_mem _ List.mem_cons_self)
    rw [silent, abs_zero] at zero
    rw [silent, ← abs_nonpos_iff.mp zero]
    exact List.mem_cons_self
  · exact found

/-! ## The buckets -/

section Buckets

variable {size n i : Nat}

/-- A bucket is what lies between two cuts. -/
theorem bucket_eq (positive : 0 < n) (enough : n ≤ size) :
    ScopeTrace.bucket size n i = (cut n size i, cut n size (i + 1)) := by
  have filled := cut_lt_succ positive enough i
  exact Prod.ext rfl (max_eq_left filled)

/-- The samples between two cuts. -/
def samplesOf (samples : List ℚ) (n i : Nat) : List ℚ :=
  (samples.take (cut n samples.length (i + 1))).drop (cut n samples.length i)

variable {samples : List ℚ}

theorem cut_le (positive : 0 < n) (inside : i < n) :
    cut n size (i + 1) ≤ size :=
  (cut_mono n size inside).trans (cut_count positive).le

theorem samplesOf_ne_nil (positive : 0 < n) (enough : n ≤ samples.length) (inside : i < n) :
    samplesOf samples n i ≠ [] := by
  have filled := cut_lt_succ positive enough i
  have bounded : cut n samples.length (i + 1) ≤ samples.length := cut_le positive inside
  refine List.ne_nil_of_length_pos ?_
  rw [samplesOf, List.length_drop, List.length_take]
  omega

/-- The buckets in order are the samples. -/
theorem flatMap_samplesOf (positive : 0 < n) :
    (List.range n).flatMap (samplesOf samples n) = samples := by
  have pieces := flatMap_slices samples (cut_mono n samples.length) n
  rw [cut_zero, cut_count positive, List.take_length, List.drop_zero] at pieces
  exact pieces

/-- The point of a bucket: its loudest sample, clamped. -/
def pointOf (samples : List ℚ) (n i : Nat) : ScopePoint :=
  ⟨i * (1 / (max (n - 1) 1 : Nat)), clamp (loudest (samplesOf samples n i))⟩

theorem point_eq (positive : 0 < n) (enough : n ≤ samples.length) (inside : i < n) :
    ScopeTrace.point samples n i = some (pointOf samples n i) := by
  have filled := cut_lt_succ positive enough i
  rw [ScopeTrace.point, bucket_eq positive enough]
  dsimp only
  rw [slice?, if_pos ⟨filled.le, cut_le positive inside⟩, Option.map_some, pointOf, samplesOf]

/-- The largest point is the largest sample, clamped. -/
theorem peak_points (positive : 0 < n) (enough : n ≤ samples.length) (sounding : samples ≠ []) :
    peak (((List.range n).map (pointOf samples n)).map ScopePoint.y) = clamp (peak samples) := by
  have spec := fun i (inside : i < n) => loudest_spec (samplesOf_ne_nil positive enough inside)
  have covered : ∀ sample, sample ∈ samples ↔ ∃ i < n, sample ∈ samplesOf samples n i := by
    intro sample
    have whole : sample ∈ samples ↔ sample ∈ (List.range n).flatMap (samplesOf samples n) := by
      rw [flatMap_samplesOf positive]
    rw [whole, List.mem_flatMap]
    constructor
    · rintro ⟨i, member, here⟩
      exact ⟨i, List.mem_range.mp member, here⟩
    · rintro ⟨i, inside, here⟩
      exact ⟨i, List.mem_range.mpr inside, here⟩
  have nonneg : 0 ≤ peak samples :=
    (abs_nonneg _).trans (abs_le_peak _ (List.head_mem sounding))
  rw [clamp_of_nonneg nonneg]
  apply le_antisymm
  · refine peak_le (le_min nonneg zero_le_one) fun value member => ?_
    obtain ⟨point, listed, rfl⟩ := List.mem_map.mp member
    obtain ⟨i, here, rfl⟩ := List.mem_map.mp listed
    have inside := List.mem_range.mp here
    rw [pointOf, abs_clamp]
    exact min_le_min_right 1 (abs_le_peak _ ((covered _).mpr ⟨i, inside, (spec i inside).1⟩))
  · obtain ⟨sample, member, same⟩ := exists_peak sounding
    obtain ⟨i, inside, here⟩ := (covered sample).mp member
    calc min (peak samples) 1 = min |sample| 1 := by rw [same]
      _ ≤ min |loudest (samplesOf samples n i)| 1 :=
          min_le_min_right 1 ((spec i inside).2 sample here)
      _ = |(pointOf samples n i).y| := (abs_clamp _).symm
      _ ≤ _ := abs_le_peak _ (List.mem_map_of_mem (List.mem_map_of_mem (List.mem_range.mpr inside)))

end Buckets

/-- **The buckets of a scope partition its samples.** They are not empty, each begins where the
one before it ends, and in order their indices are all the indices, each once. Each point is the
largest sample of its bucket, clamped; and so the largest magnitude of the points is the clamped
largest magnitude of the samples. -/
theorem buckets_partition_samples {trace : ScopeTrace} (room : 2 ≤ trace.points.length)
    {samples : List ℚ} (sounding : samples ≠ []) :
    let n := trace.filled samples
    let bucket := ScopeTrace.bucket samples.length n
    (∀ i < n, (bucket i).1 < (bucket i).2 ∧ (bucket i).2 ≤ samples.length ∧
      (i + 1 < n → (bucket i).2 = (bucket (i + 1)).1)) ∧
    (List.range n).flatMap (fun i => List.range' (bucket i).1 ((bucket i).2 - (bucket i).1)) =
      List.range samples.length ∧
    ∃ after points, trace.fill samples = some after ∧ after.populated = some points ∧
      points.length = n ∧ after.points.length = trace.points.length ∧
      (∀ i < n, ∃ point sample, points[i]? = some point ∧ point.y = clamp sample ∧
        sample ∈ (samples.take (bucket i).2).drop (bucket i).1 ∧
        ∀ other ∈ (samples.take (bucket i).2).drop (bucket i).1, |other| ≤ |sample|) ∧
      peak (points.map ScopePoint.y) = clamp (peak samples) := by
  intro n bucket
  have positive : 0 < n := by
    have := List.length_pos_of_ne_nil sounding
    exact lt_min this (by omega)
  have enough : n ≤ samples.length := Nat.min_le_left ..
  have bounds : ∀ i, bucket i = (cut n samples.length i, cut n samples.length (i + 1)) := fun i =>
    bucket_eq positive enough
  have indices : (List.range n).flatMap
      (fun i => List.range' (bucket i).1 ((bucket i).2 - (bucket i).1)) =
      List.range samples.length := by
    have pieces := flatMap_range' (cut_mono n samples.length) n
    rw [cut_zero, cut_count positive, Nat.sub_zero, ← List.range_eq_range'] at pieces
    simp only [bounds]
    exact pieces
  let points : List ScopePoint := (List.range n).map (pointOf samples n)
  have length : points.length = n := by rw [List.length_map, List.length_range]
  have filled : trace.fill samples = some ⟨points ++ trace.points.drop n, n⟩ := by
    rw [ScopeTrace.fill, if_neg sounding]
    dsimp only
    rw [mapM_eq_some fun i member => point_eq positive enough (List.mem_range.mp member)]
    rfl
  have within : n ≤ trace.points.length := Nat.min_le_right ..
  refine ⟨fun i inside => ?_, indices, _, points, filled, ?_, length, ?_, fun i inside => ?_,
    peak_points positive enough sounding⟩
  · rw [bounds, bounds]
    exact ⟨cut_lt_succ positive enough i, cut_le positive inside, fun _ => rfl⟩
  · rw [ScopeTrace.populated, slice?_zero, List.take_append_of_le_length length.ge,
      List.take_of_length_le length.le]
    rw [List.length_append, length]
    exact Nat.le_add_right ..
  · rw [List.length_append, length, List.length_drop]
    omega
  · obtain ⟨member, largest⟩ := loudest_spec (samplesOf_ne_nil positive enough inside)
    rw [bounds]
    exact ⟨_, _, by rw [List.getElem?_map, List.getElem?_range inside, Option.map_some], rfl,
      member, largest⟩

/-- Five samples and room for two points, of which each keeps the peak of its bucket. -/
theorem buckets_partition_samples_of_five : ∃ after points,
    (ScopeTrace.new 2).fill [0, 1/2, -3, 1/4, -1/8] = some after ∧
      after.populated = some points ∧ points.length = 2 ∧
      peak (points.map ScopePoint.y) = clamp (peak [0, 1/2, -3, 1/4, -1/8]) := by
  obtain ⟨-, -, after, points, filled, populated, length, -, -, peaks⟩ :=
    @buckets_partition_samples (.new 2) (by decide) [0, 1/2, -3, 1/4, -1/8] (by decide)
  exact ⟨after, points, filled, populated, length, peaks⟩

end Retrovert.Present
