import Craftsman.Memory
import Craftsman.Stream.Exchange
import Mathlib.Algebra.Order.Ring.Rat
import Mathlib.Algebra.Order.Field.Basic
import Mathlib.Data.Rat.Floor
import Mathlib.Tactic.NormNum

/-! The calibration of the counter against `clock()`, in exact arithmetic. The
readings of both are inputs. -/
namespace Craftsman.Calibration
open Craftsman.Stream.Exchange

def clocksPerSec : Nat := 1000000

def clocksPerMs : Int := clocksPerSec / 1000

def usecPerClock : ℚ := 1000 / 1000 / clocksPerSec

def maxSamples : Nat := 10

/-- The clock units and the ticks since the sample before. -/
structure Sample where
  gap : Int
  ticks : UInt64

def poll (p : Int) : List Int → Option (Int × List Int)
  | [] => none
  | c::clocks => if c - p < clocksPerMs then poll p clocks else some (c,clocks)

def takeSamples : Nat → Int → UInt64 → List Int → List UInt64 → Option (List Sample)
  | 0,_,_,_,_ => some []
  | _+1,_,_,_,[] => none
  | n+1,p,rp,clocks,rc::counter =>
    match poll p clocks with
    | none => none
    | some (c,clocks) => (takeSamples n c rc clocks counter).map (⟨c - p,rc - rp⟩ :: ·)

def sampling : List Int → List UInt64 → Option (List Sample)
  | c::clocks,rc::counter => takeSamples maxSamples c rc clocks counter
  | _,_ => none

/-- The elapsed time is a factor here. -/
def rate (sample : Sample) : Nat := ⌊(sample.ticks.toNat : ℚ) * (sample.gap * usecPerClock)⌋₊

def tscPerUsec (clocks : List Int) (counter : List UInt64) : Option Nat :=
  (sampling clocks counter).bind fun samples => (exchangeSort (samples.map rate))[maxSamples / 2]?

theorem poll_late (p c : Int) (clocks later : List Int) (polled : poll p clocks = some (c,later)) :
    clocksPerMs ≤ c - p := by
  induction clocks with
  | nil => cases polled
  | cons first clocks ih =>
    rw [poll] at polled
    split at polled
    · exact ih polled
    · next late =>
      cases polled
      exact not_lt.mp late

theorem takeSamples_late (n : Nat) (p : Int) (rp : UInt64) (clocks : List Int) (counter : List UInt64)
    (samples : List Sample) (taken : takeSamples n p rp clocks counter = some samples) :
    samples.length = n ∧ ∀ sample ∈ samples, clocksPerMs ≤ sample.gap := by
  induction n generalizing p rp clocks counter samples with
  | zero =>
    cases taken
    simp
  | succ n ih =>
    cases counter with
    | nil => cases taken
    | cons rc counter =>
      rw [takeSamples] at taken
      split at taken
      · cases taken
      · next c later polled =>
        obtain ⟨rest,again,rfl⟩ := Option.map_eq_some_iff.mp taken
        obtain ⟨many,late⟩ := ih c rc later counter rest again
        refine ⟨by simp [many],?_⟩
        simpa using ⟨poll_late p c clocks later polled,late⟩

theorem sampling_late (clocks : List Int) (counter : List UInt64) (samples : List Sample)
    (taken : sampling clocks counter = some samples) :
    samples.length = maxSamples ∧ ∀ sample ∈ samples, clocksPerMs ≤ sample.gap := by
  unfold sampling at taken
  split at taken
  · exact takeSamples_late _ _ _ _ _ _ taken
  · cases taken

theorem rate_value (sample : Sample) (onward : 0 ≤ sample.gap) :
    rate sample = sample.ticks.toNat * sample.gap.toNat / clocksPerSec := by
  have units : (sample.gap : ℚ) = sample.gap.toNat := by
    exact_mod_cast (Int.toNat_of_nonneg onward).symm
  have exact_rate : (sample.ticks.toNat : ℚ) * (sample.gap * usecPerClock) =
      ((sample.ticks.toNat * sample.gap.toNat : Nat) : ℚ) / (clocksPerSec : Nat) := by
    rw [units,usecPerClock,Nat.cast_mul]
    ring
  exact (congrArg Nat.floor exact_rate).trans (Rat.natFloor_natCast_div_natCast _ _)

section Steady
variable (R : Nat) (sample : Sample) (late : clocksPerMs ≤ sample.gap)
  (steady : (sample.ticks.toNat : Int) = R * sample.gap)
include late steady

theorem rate_steady : rate sample = R * sample.gap.toNat^2 / clocksPerSec := by
  have onward : 0 ≤ sample.gap := le_trans (by decide) late
  obtain ⟨gap,same⟩ := Int.eq_ofNat_of_zero_le onward
  have ticks : sample.ticks.toNat = R * gap := by
    rw [same] at steady
    exact_mod_cast steady
  rw [rate_value sample onward,ticks,same,Int.toNat_natCast,Nat.pow_two,Nat.mul_assoc]

theorem rate_least : R ≤ rate sample := by
  have units : 1000 ≤ sample.gap.toNat := by
    have := late
    simp only [clocksPerMs,clocksPerSec] at this
    omega
  rw [rate_steady R sample late steady,Nat.le_div_iff_mul_le (by decide)]
  exact Nat.mul_le_mul_left R (Nat.pow_le_pow_left units 2)

/-- The rate comes out right when the excess of the gap over a millisecond costs less than one tick. -/
theorem rate_right : rate sample ≤ R ↔ R * sample.gap.toNat^2 < (R + 1) * clocksPerSec := by
  rw [rate_steady R sample late steady,← Nat.lt_succ_iff,Nat.div_lt_iff_lt_mul (by decide)]

end Steady

theorem tscPerUsec_ranked (clocks : List Int) (counter : List UInt64) (samples : List Sample)
    (taken : sampling clocks counter = some samples) :
    ∃ median, tscPerUsec clocks counter = some median ∧ Ranked (samples.map rate) 5 median := by
  have many := (sampling_late clocks counter samples taken).1
  have length : (exchangeSort (samples.map rate)).length = 10 := by
    rw [(exchangeSort_sorted _).2.length_eq,List.length_map,many]
    rfl
  have here : (exchangeSort (samples.map rate))[maxSamples / 2]? =
      some ((exchangeSort (samples.map rate)).get ⟨5,by rw [length]; decide⟩) :=
    List.getElem?_eq_getElem _
  exact ⟨_,by rw [tscPerUsec,taken]; exact here,exchangeSort_ranked _ 5 _ here⟩

/-- The result is the sixth smallest of ten rates. Against a steady counter it is the
counter's rate exactly when six gaps are close enough to a millisecond. -/
theorem tscPerUsec_right (clocks : List Int) (counter : List UInt64) (samples : List Sample)
    (taken : sampling clocks counter = some samples) :
    ∃ median, tscPerUsec clocks counter = some median ∧ samples.length = 10 ∧
      Ranked (samples.map rate) 5 median ∧
      ∀ R : Nat, (∀ sample ∈ samples, (sample.ticks.toNat : Int) = R * sample.gap) →
        (median = R ↔ 6 ≤ samples.countP fun sample => R * sample.gap.toNat^2 < (R + 1) * 1000000) := by
  obtain ⟨many,late⟩ := sampling_late clocks counter samples taken
  obtain ⟨median,result,ranked⟩ := tscPerUsec_ranked clocks counter samples taken
  refine ⟨median,result,many,ranked,fun R steady => ?_⟩
  have bound : ∀ x ∈ samples.map rate, R ≤ x := by
    intro x member
    obtain ⟨sample,inside,rfl⟩ := List.mem_map.mp member
    exact rate_least R sample (late sample inside) (steady sample inside)
  have right : samples.countP (fun sample => rate sample ≤ R) =
      samples.countP fun sample => R * sample.gap.toNat^2 < (R + 1) * 1000000 := by
    apply List.countP_congr
    intro sample inside
    have attained := rate_right R sample (late sample inside) (steady sample inside)
    rw [decide_eq_true_iff,decide_eq_true_iff]
    exact attained
  rw [ranked.least_iff R bound,List.countP_map,← right]
  rfl

def everyMillisecond : List Int := (List.range 11).map fun i => 1000 * i

def twoTicks : List UInt64 := (List.range 11).map fun i => UInt64.ofNat (2000 * i)

theorem tscPerUsec_right_two : tscPerUsec everyMillisecond twoTicks = some 2 := by
  have taken : sampling everyMillisecond twoTicks = some (List.replicate 10 ⟨1000,2000⟩) := by rfl
  obtain ⟨median,result,-,-,right⟩ := tscPerUsec_right everyMillisecond twoTicks _ taken
  rw [result,(right 2 (by decide)).mpr (by decide)]

/-- One tick per microsecond, sampled every two milliseconds, comes out as four. -/
theorem tscPerUsec_four :
    ∃ clocks counter samples, sampling clocks counter = some samples ∧
      (∀ sample ∈ samples, (sample.ticks.toNat : Int) = 1 * sample.gap ∧ clocksPerMs ≤ sample.gap) ∧
      tscPerUsec clocks counter = some 4 := by
  refine ⟨(List.range 11).map fun i => 2000 * i,twoTicks,List.replicate 10 ⟨2000,2000⟩,by rfl,by decide,?_⟩
  have rates : (List.replicate 10 (Sample.mk 2000 2000)).map rate = List.replicate 10 4 := by
    rw [List.map_replicate,rate_value _ (by decide)]
    rfl
  have taken : sampling ((List.range 11).map fun i => 2000 * (i : Int)) twoTicks =
      some (List.replicate 10 ⟨2000,2000⟩) := by rfl
  rw [tscPerUsec,taken,Option.bind_some,rates]
  decide

end Craftsman.Calibration
