import Craftsman.Memory
import Craftsman.Stream.Moments
import Mathlib.Algebra.Field.Rat
import Mathlib.Algebra.Order.Ring.Rat
import Mathlib.Data.Fin.VecNotation
import Mathlib.Data.List.Induction

/-! The streaming statistics of call durations, in exact arithmetic. -/
namespace Craftsman.Statistics
open Craftsman.Stream.Moments

structure Stats where
  moments : Fin 3 → ℚ
  min : ℚ
  max : ℚ

def statsCount (accum : Stats) : ℚ := accum.moments 0

def statsMean (accum : Stats) : ℚ := accum.moments 1

def statsMin (accum : Stats) : ℚ := accum.min

def statsMax (accum : Stats) : ℚ := accum.max

def statsVariance (accum : Stats) : ℚ := accum.moments 2 / accum.moments 0

/-- The least value starts at the largest `unsigned`, the rest at zero. -/
def statsInit : Stats := ⟨![0,0,0],4294967295,0⟩

def statsInitArray (n : Nat) (stats : List Stats) : List Stats :=
  (List.range n).foldl (fun stats i => stats.set i statsInit) stats

def statsAdd (sample : ℚ) (accum : Stats) : Stats :=
  let n := accum.moments 0
  let n1 := n + 1
  let diffFromMean := sample - accum.moments 1
  let meanAccum := diffFromMean / n1
  let delta2 := meanAccum * diffFromMean * n
  ⟨![accum.moments 0 + 1,accum.moments 1 + meanAccum,accum.moments 2 + delta2],
    Min.min sample accum.min,Max.max sample accum.max⟩

def statsAfter (samples : List ℚ) : Stats := samples.foldl (fun accum sample => statsAdd sample accum) statsInit

/-- The accumulator holds the moments of the samples it was fed. -/
structure Summarises (accum : Stats) (samples : List ℚ) : Prop where
  count : accum.moments 0 = samples.length
  mean : accum.moments 1 = mean samples
  deviations : accum.moments 2 = deviations samples

theorem init_summarises : Summarises statsInit [] :=
  ⟨rfl,by simp [statsInit,mean],by simp [statsInit,deviations]⟩

theorem add_summarises (accum : Stats) (samples : List ℚ) (sample : ℚ) (sums : Summarises accum samples) :
    Summarises (statsAdd sample accum) (samples ++ [sample]) := by
  obtain ⟨count,mean,deviations⟩ := sums
  constructor
  · simp [statsAdd,count]
  · rw [mean_snoc,← mean,← count]
    rfl
  · rw [deviations_snoc,← mean,← count,← deviations]
    rfl

theorem after_summarises (samples : List ℚ) : Summarises (statsAfter samples) samples := by
  induction samples using List.reverseRecOn with
  | nil => exact init_summarises
  | append_singleton samples sample ih =>
    rw [statsAfter,List.foldl_append]
    exact add_summarises _ samples sample ih

theorem Summarises.unique {first second : Stats} {samples : List ℚ} (one : Summarises first samples)
    (two : Summarises second samples) : first.moments = second.moments := by
  ext i
  match i with
  | 0 => exact one.count.trans two.count.symm
  | 1 => exact one.mean.trans two.mean.symm
  | 2 => exact one.deviations.trans two.deviations.symm

/-- The moments are the number of the samples, their mean and the sum of the squared
deviations from it, whatever the order. -/
theorem streaming_moments (samples : List ℚ) (some_sample : samples ≠ []) :
    0 < statsCount (statsAfter samples) ∧ statsCount (statsAfter samples) = samples.length ∧
      statsMean (statsAfter samples) = mean samples ∧
      (statsAfter samples).moments 2 = deviations samples ∧
      statsVariance (statsAfter samples) = variance samples ∧
      ∀ others, samples.Perm others → (statsAfter others).moments = (statsAfter samples).moments := by
  have sums := after_summarises samples
  refine ⟨?_,sums.count,sums.mean,sums.deviations,?_,?_⟩
  · rw [statsCount,sums.count]
    exact Nat.cast_pos.mpr (List.length_pos_iff.mpr some_sample)
  · rw [statsVariance,sums.deviations,sums.count,variance]
  · intro others same
    have again := after_summarises others
    apply Summarises.unique again
    exact ⟨sums.count.trans (by rw [same.length_eq]),sums.mean.trans (mean_perm _ _ same),
      sums.deviations.trans (deviations_perm _ _ same)⟩

theorem streaming_moments_two : statsVariance (statsAfter [1,3]) = 1 := by
  rw [(streaming_moments [1,3] (by simp)).2.2.2.2.1]
  norm_num [variance,deviations,mean]

section Range

/-- What the two initializers leave; the second counts the entries in an `int`. -/
inductive Begun : Stats → Prop
  | single : Begun statsInit
  | array (n : Nat) (stats : List Stats) (i : Nat) (accum : Stats) (counted : n ≤ 2^31) (room : n ≤ stats.length)
      (inside : i < n) (here : (statsInitArray n stats)[i]? = some accum) : Begun accum

def statsFed (start : Stats) (samples : List ℚ) : Stats :=
  samples.foldl (fun accum sample => statsAdd sample accum) start

/-- Cycle counts of single calls, or sums of such counts. -/
def durations (cycles : List ℕ) : List ℚ := cycles.map fun (c : ℕ) => (c : ℚ)

structure TrueRange (accum : Stats) (samples : List ℚ) : Prop where
  least : IsLeast {x | x ∈ samples} (statsMin accum)
  greatest : IsGreatest {x | x ∈ samples} (statsMax accum)
  low : statsMin accum ≤ statsMean accum
  high : statsMean accum ≤ statsMax accum

/-- The extremes are those of the samples and the start values. -/
structure Spans (accum : Stats) (samples : List ℚ) : Prop where
  least : IsLeast (insert 4294967295 {x | x ∈ samples}) accum.min
  greatest : IsGreatest (insert 0 {x | x ∈ samples}) accum.max

theorem initArray_front (n : Nat) (stats : List Stats) (room : n ≤ stats.length) :
    (statsInitArray n stats).length = stats.length ∧ ∀ i, i < n → (statsInitArray n stats)[i]? = some statsInit := by
  unfold statsInitArray
  induction n with
  | zero => exact ⟨rfl,fun i inside => absurd inside (Nat.not_lt_zero i)⟩
  | succ n ih =>
    obtain ⟨length,front⟩ := ih (by omega)
    rw [List.range_succ,List.foldl_append,List.foldl_cons,List.foldl_nil]
    refine ⟨by rw [List.length_set,length],fun i inside => ?_⟩
    rw [List.getElem?_set]
    by_cases last : n = i
    · rw [if_pos last,if_pos (by omega)]
    · rw [if_neg last]
      exact front i (by omega)

theorem Begun.same {accum : Stats} (begun : Begun accum) : accum = statsInit := by
  cases begun with
  | single => rfl
  | array n stats i _ _ room inside here =>
    rw [(initArray_front n stats room).2 i inside] at here
    exact (Option.some.inj here).symm

theorem init_spans : Spans statsInit [] := ⟨by simp [statsInit],by simp [statsInit]⟩

theorem add_spans (accum : Stats) (samples : List ℚ) (sample : ℚ) (spans : Spans accum samples) :
    Spans (statsAdd sample accum) (samples ++ [sample]) := by
  have more (start : ℚ) : insert start {x | x ∈ samples ++ [sample]} = insert sample (insert start {x | x ∈ samples}) := by
    ext x
    simp only [List.mem_append,List.mem_singleton,Set.mem_insert_iff,Set.mem_ofPred_eq]
    tauto
  constructor
  · rw [more]
    exact spans.least.insert sample
  · rw [more]
    exact spans.greatest.insert sample

theorem after_spans (samples : List ℚ) : Spans (statsAfter samples) samples := by
  induction samples using List.reverseRecOn with
  | nil => exact init_spans
  | append_singleton samples sample ih =>
    rw [statsAfter,List.foldl_append]
    exact add_spans _ samples sample ih

/-- The mean never leaves the range: the start values only widen it. -/
theorem mean_between (samples : List ℚ) (some_sample : samples ≠ []) :
    statsMin (statsAfter samples) ≤ statsMean (statsAfter samples) ∧
      statsMean (statsAfter samples) ≤ statsMax (statsAfter samples) := by
  have spans := after_spans samples
  rw [statsMean,(after_summarises samples).mean]
  constructor
  · exact le_mean samples _ some_sample fun x member => spans.least.2 (Set.mem_insert_of_mem _ member)
  · exact mean_le samples _ some_sample fun x member => spans.greatest.2 (Set.mem_insert_of_mem _ member)

theorem least_iff (cycles : List ℕ) :
    IsLeast {x | x ∈ durations cycles} (statsMin (statsAfter (durations cycles))) ↔ ∃ c ∈ cycles, c ≤ 4294967295 := by
  rw [statsMin,least_without (after_spans (durations cycles)).least]
  simp only [durations,Set.mem_ofPred_eq,List.mem_map,exists_exists_and_eq_and]
  norm_cast

theorem range_iff (cycles : List ℕ) (some_cycle : cycles ≠ []) :
    TrueRange (statsAfter (durations cycles)) (durations cycles) ↔ ∃ c ∈ cycles, c ≤ 4294967295 := by
  have some_sample : durations cycles ≠ [] := fun none => some_cycle (List.map_eq_nil_iff.mp none)
  obtain ⟨low,high⟩ := mean_between _ some_sample
  refine ⟨fun range => (least_iff cycles).mp range.least,fun short => ⟨(least_iff cycles).mpr short,?_,low,high⟩⟩
  -- no duration is negative, so the start value of the greatest is never above them all
  obtain ⟨c,member⟩ := List.exists_mem_of_ne_nil cycles some_cycle
  apply (greatest_without (after_spans (durations cycles)).greatest).mpr
  exact ⟨c,List.mem_map_of_mem member,Nat.cast_nonneg c⟩

/-- The reported range is that of the samples if and only if one of them is not above
the start value of the least. -/
theorem reported_range (start : Stats) (begun : Begun start) (cycles : List ℕ) (some_cycle : cycles ≠ []) :
    TrueRange (statsFed start (durations cycles)) (durations cycles) ↔ ∃ c ∈ cycles, c ≤ 4294967295 := by
  rw [begun.same]
  exact range_iff cycles some_cycle

theorem reported_range_two : TrueRange (statsFed statsInit (durations [7,4294967296])) (durations [7,4294967296]) :=
  (reported_range statsInit .single [7,4294967296] (by simp)).mpr ⟨7,List.mem_cons_self,by decide⟩

theorem long_call_outside : ¬ TrueRange (statsFed statsInit (durations [4294967296])) (durations [4294967296]) := by
  intro range
  obtain ⟨c,member,small⟩ := (least_iff [4294967296]).mp range.least
  rw [List.mem_singleton.mp member] at small
  exact absurd small (by decide)

end Range

end Craftsman.Statistics
