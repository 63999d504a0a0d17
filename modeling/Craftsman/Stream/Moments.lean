import Mathlib.Algebra.BigOperators.Group.List.Basic
import Mathlib.Algebra.Field.Basic
import Mathlib.Algebra.Order.BigOperators.Group.List
import Mathlib.Algebra.Order.Field.Basic
import Mathlib.Order.Bounds.Basic
import Mathlib.Tactic.FieldSimp
import Mathlib.Tactic.Ring

/-! The moments of a sequence of samples, what one more sample adds to each, and the
extremes of samples that were folded into a start value. -/
namespace Craftsman.Stream.Moments

section Moments
variable {K : Type*} [Field K]

def mean (samples : List K) : K := samples.sum / samples.length

/-- The sum of the squared deviations from the mean. -/
def deviations (samples : List K) : K := (samples.map fun x => (x - mean samples)^2).sum

def variance (samples : List K) : K := deviations samples / samples.length

theorem mean_perm (samples others : List K) (same : samples.Perm others) : mean samples = mean others := by
  rw [mean,mean,same.sum_eq,same.length_eq]

theorem deviations_perm (samples others : List K) (same : samples.Perm others) :
    deviations samples = deviations others := by
  rw [deviations,deviations,mean_perm samples others same]
  exact (same.map _).sum_eq

theorem sum_mean [CharZero K] (samples : List K) : samples.sum = samples.length * mean samples := by
  cases samples with
  | nil => simp [mean]
  | cons x samples =>
    have some_sample : ((x::samples).length : K) ≠ 0 := Nat.cast_ne_zero.mpr (Nat.succ_ne_zero _)
    rw [mean,mul_div_cancel₀ _ some_sample]

theorem sum_squares (samples : List K) (centre : K) :
    (samples.map fun x => (x - centre)^2).sum =
      (samples.map fun x => x^2).sum - 2 * centre * samples.sum + samples.length * centre^2 := by
  induction samples with
  | nil => simp
  | cons x samples ih =>
    simp only [List.map_cons,List.sum_cons,List.length_cons,ih]
    push_cast
    ring

/-- Squares about any centre, from those about the mean. -/
theorem squares_about [CharZero K] (samples : List K) (centre : K) :
    (samples.map fun x => (x - centre)^2).sum =
      deviations samples + samples.length * (mean samples - centre)^2 := by
  rw [deviations,sum_squares,sum_squares,sum_mean samples]
  ring

theorem mean_snoc [CharZero K] (samples : List K) (x : K) :
    mean (samples ++ [x]) = mean samples + (x - mean samples) / (samples.length + 1) := by
  have total := sum_mean samples
  have more : (samples.length : K) + 1 ≠ 0 := Nat.cast_add_one_ne_zero _
  rw [mean,List.sum_append,List.sum_singleton,total,List.length_append,List.length_singleton,Nat.cast_add,Nat.cast_one]
  field_simp
  ring

theorem deviations_snoc [CharZero K] (samples : List K) (x : K) :
    deviations (samples ++ [x]) =
      deviations samples + (x - mean samples) / (samples.length + 1) * (x - mean samples) * samples.length := by
  have more : (samples.length : K) + 1 ≠ 0 := Nat.cast_add_one_ne_zero _
  rw [deviations,List.map_append,List.sum_append,squares_about,List.map_singleton,List.sum_singleton,mean_snoc]
  field_simp
  ring

end Moments

section Extremes

/-- A start value does no harm to the least of the others when one of them is not above it. -/
theorem least_without {α : Type*} [LinearOrder α] {start least : α} {items : Set α}
    (lowest : IsLeast (insert start items) least) : IsLeast items least ↔ ∃ x ∈ items, x ≤ start := by
  constructor
  · intro attained
    exact ⟨least,attained.1,lowest.2 (Set.mem_insert start items)⟩
  · rintro ⟨x,member,low⟩
    have below : least ≤ x := lowest.2 (Set.mem_insert_of_mem start member)
    refine ⟨?_,fun y inside => lowest.2 (Set.mem_insert_of_mem start inside)⟩
    rcases lowest.1 with rfl | inside
    · rwa [le_antisymm below low]
    · exact inside

theorem greatest_without {α : Type*} [LinearOrder α] {start greatest : α} {items : Set α}
    (highest : IsGreatest (insert start items) greatest) :
    IsGreatest items greatest ↔ ∃ x ∈ items, start ≤ x :=
  least_without (α := αᵒᵈ) highest

variable {K : Type*} [Field K] [LinearOrder K] [IsStrictOrderedRing K]

theorem le_mean (samples : List K) (low : K) (some_sample : samples ≠ []) (bound : ∀ x ∈ samples, low ≤ x) :
    low ≤ mean samples := by
  have many : (0 : K) < samples.length := Nat.cast_pos.mpr (List.length_pos_iff.mpr some_sample)
  have total := List.card_nsmul_le_sum samples low bound
  rw [nsmul_eq_mul] at total
  rw [mean,le_div_iff₀ many,mul_comm]
  exact total

theorem mean_le (samples : List K) (high : K) (some_sample : samples ≠ []) (bound : ∀ x ∈ samples, x ≤ high) :
    mean samples ≤ high := by
  have many : (0 : K) < samples.length := Nat.cast_pos.mpr (List.length_pos_iff.mpr some_sample)
  have total := List.sum_le_card_nsmul samples high bound
  rw [nsmul_eq_mul] at total
  rw [mean,div_le_iff₀ many,mul_comm]
  exact total

end Extremes

end Craftsman.Stream.Moments
