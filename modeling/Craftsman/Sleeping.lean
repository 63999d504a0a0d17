import Craftsman.GameLoop
import Mathlib.Algebra.Order.Ring.Rat
import Mathlib.Algebra.Order.Field.Basic
import Mathlib.Tactic.FieldSimp
import Mathlib.Tactic.Linarith
import Mathlib.Tactic.Ring

/-! The time a waiting loop asks to sleep, computed by a reciprocal in fixed point. -/
namespace Craftsman.Sleeping
open Craftsman.Clock Craftsman.GameLoop

section Reciprocal
variable (scale divisor delta : Nat)

def quotient : Nat := delta * (scale / divisor) / scale

theorem quotient_le (some_scale : 0 < scale) : quotient scale divisor delta * divisor ≤ delta := by
  have reciprocal : scale / divisor * divisor ≤ scale := Nat.div_mul_le_self scale divisor
  have whole : quotient scale divisor delta * scale ≤ delta * (scale / divisor) := Nat.div_mul_le_self _ _
  refine Nat.le_of_mul_le_mul_right ?_ some_scale
  calc quotient scale divisor delta * divisor * scale = quotient scale divisor delta * scale * divisor := by ring
    _ ≤ delta * (scale / divisor) * divisor := Nat.mul_le_mul_right divisor whole
    _ = delta * (scale / divisor * divisor) := Nat.mul_assoc _ _ _
    _ ≤ delta * scale := Nat.mul_le_mul_left delta reciprocal

theorem quotient_short (some_scale : 0 < scale) (some_divisor : 0 < divisor) :
    delta * scale < (quotient scale divisor delta + 1) * scale * divisor + delta * divisor := by
  have reciprocal : scale < (scale / divisor + 1) * divisor := (Nat.div_lt_iff_lt_mul some_divisor).mp (Nat.lt_succ_self _)
  have whole : delta * (scale / divisor) < (quotient scale divisor delta + 1) * scale :=
    (Nat.div_lt_iff_lt_mul some_scale).mp (Nat.lt_succ_self _)
  calc delta * scale ≤ delta * ((scale / divisor + 1) * divisor) := Nat.mul_le_mul_left delta reciprocal.le
    _ = delta * (scale / divisor) * divisor + delta * divisor := by ring
    _ < (quotient scale divisor delta + 1) * scale * divisor + delta * divisor :=
      Nat.add_lt_add_right (Nat.mul_lt_mul_of_pos_right whole some_divisor) _

/-- Two truncations lose less than one, and one part in `scale` of the time. -/
theorem quotient_close (some_scale : 0 < scale) (some_divisor : 0 < divisor) :
    (delta : ℚ) / divisor - quotient scale divisor delta < 1 + delta / scale := by
  have short := quotient_short scale divisor delta some_scale some_divisor
  have scale_pos : (0 : ℚ) < scale := by exact_mod_cast some_scale
  have divisor_pos : (0 : ℚ) < divisor := by exact_mod_cast some_divisor
  have cast : (delta : ℚ) * scale < (quotient scale divisor delta + 1) * scale * divisor + delta * divisor := by
    exact_mod_cast short
  rw [sub_lt_iff_lt_add,div_lt_iff₀ divisor_pos]
  refine lt_of_mul_lt_mul_right ?_ scale_pos.le
  calc (delta : ℚ) * scale < (quotient scale divisor delta + 1) * scale * divisor + delta * divisor := cast
    _ = (1 + delta / scale + quotient scale divisor delta) * divisor * scale := by field_simp; ring

end Reciprocal

theorem step_exact (goal tscPerUsec now : UInt64) (goal_high : goal.toNat ≤ 1000000)
    (rate_high : tscPerUsec.toNat ≤ 2^40) :
    (clockInit goal tscPerUsec now).tscStep.toNat = goal.toNat * tscPerUsec.toNat := by
  have small : goal.toNat * tscPerUsec.toNat ≤ 1000000 * 2^40 := Nat.mul_le_mul goal_high rate_high
  simp only [clockInit,UInt64.toNat_mul]
  omega

theorem reciprocal_value (goal tscPerUsec now : UInt64) :
    (clockInit goal tscPerUsec now).medianUsecPerTsc.toNat = 2^33 / tscPerUsec.toNat := by
  simp only [clockInit,UInt64.toNat_div]
  rfl

theorem product_small (goal tscPerUsec delta : Nat) (goal_high : goal ≤ 1000000) (left : delta < goal * tscPerUsec) :
    delta * (2^33 / tscPerUsec) < 2^53 := by
  calc delta * (2^33 / tscPerUsec) ≤ goal * tscPerUsec * (2^33 / tscPerUsec) := Nat.mul_le_mul_right _ left.le
    _ = goal * (tscPerUsec * (2^33 / tscPerUsec)) := Nat.mul_assoc _ _ _
    _ ≤ 1000000 * 2^33 := Nat.mul_le_mul goal_high (Nat.mul_div_le _ _)
    _ < 2^53 := by norm_num

theorem asked_value (clock : TscClock) (delta : UInt64)
    (small : delta.toNat * clock.medianUsecPerTsc.toNat < 2^64) :
    (tscdeltaToUsec clock delta).toNat = delta.toNat * clock.medianUsecPerTsc.toNat / 2^33 := by
  rw [tscdeltaToUsec,UInt64.toNat_shiftRight,UInt64.toNat_mul,Nat.mod_eq_of_lt small,Nat.shiftRight_eq_div_pow]
  rfl

theorem sync_asks (clock : TscClock) (sleepUsec tscNow : UInt64) (waits : (clockSync clock sleepUsec tscNow).1 = false) :
    clock.tscClock + clock.tscStep - tscNow < clock.tscStep ∧
      (clockSync clock sleepUsec tscNow).2.2 = tscdeltaToUsec clock (clock.tscClock + clock.tscStep - tscNow) := by
  by_cases left : clock.tscClock + clock.tscStep - tscNow < clock.tscStep
  · refine ⟨left,?_⟩
    simp only [clockSync,if_pos left]
  · simp only [clockSync,if_neg left] at waits
    split at waits
    · cases waits
    · cases waits

theorem request_value (sleepUsec : UInt64) (small : sleepUsec.toNat < 1000000) :
    (loopOneRequest sleepUsec).tvNsec = sleepUsec.toNat * 1000 := by
  have product : (sleepUsec * 1000).toNat = sleepUsec.toNat * 1000 := by
    rw [UInt64.toNat_mul]
    exact Nat.mod_eq_of_lt (by simp only [UInt64.reduceToNat]; omega)
  have narrow : Int.bmod (sleepUsec.toNat * 1000 : Nat) (2^64) = (sleepUsec.toNat * 1000 : Nat) := by
    apply Int.bmod_eq_of_le
    · omega
    · omega
  simp only [loopOneRequest,product,narrow]
  omega

/-- Whenever the clock lets the loop wait, the sleep it asks for is exact but for two
truncations, and the request is one that `nanosleep` takes. -/
theorem sleep_exact (goal tscPerUsec start value jerk frame sleepUsec tscNow : UInt64)
    (goal_low : 1 ≤ goal.toNat) (goal_high : goal.toNat ≤ 1000000)
    (rate_low : 1 ≤ tscPerUsec.toNat) (rate_high : tscPerUsec.toNat ≤ 2^40) :
    let clock := {clockInit goal tscPerUsec start with tscClock := value, jerk := jerk, frameToFrameTsc := frame}
    let delta := value + clock.tscStep - tscNow
    let asked := (clockSync clock sleepUsec tscNow).2.2
    (clockSync clock sleepUsec tscNow).1 = false →
      delta.toNat * clock.medianUsecPerTsc.toNat < 2^64 ∧ asked.toNat * tscPerUsec.toNat ≤ delta.toNat ∧
        (delta.toNat : ℚ) / tscPerUsec.toNat - asked.toNat < 1 + (delta.toNat : ℚ) / 2^33 ∧
        asked.toNat < 1000000 ∧ (loopOneRequest asked).tvSec = 0 ∧
        (loopOneRequest asked).tvNsec = asked.toNat * 1000 ∧ (loopOneRequest asked).tvNsec < 10^9 := by
  intro clock delta asked waits
  have step : clock.tscStep.toNat = goal.toNat * tscPerUsec.toNat := step_exact goal tscPerUsec start goal_high rate_high
  have reciprocal : clock.medianUsecPerTsc.toNat = 2^33 / tscPerUsec.toNat := reciprocal_value goal tscPerUsec start
  obtain ⟨left,sleep⟩ := sync_asks clock sleepUsec tscNow waits
  have left : delta.toNat < goal.toNat * tscPerUsec.toNat := by
    rw [← step]
    exact UInt64.lt_iff_toNat_lt.mp left
  have product := product_small goal.toNat tscPerUsec.toNat delta.toNat goal_high left
  have result : asked.toNat = quotient (2^33) tscPerUsec.toNat delta.toNat := by
    rw [show asked = tscdeltaToUsec clock delta from sleep,asked_value clock delta (by rw [reciprocal]; omega),reciprocal]
    rfl
  have exact_time : asked.toNat * tscPerUsec.toNat ≤ delta.toNat := by
    rw [result]
    exact quotient_le _ _ _ (by decide)
  have below : asked.toNat < goal.toNat := Nat.lt_of_mul_lt_mul_right (lt_of_le_of_lt exact_time left)
  have request := request_value asked (by omega)
  refine ⟨by rw [reciprocal]; omega,exact_time,?_,by omega,rfl,request,by rw [request]; omega⟩
  have close := quotient_close (2^33) tscPerUsec.toNat delta.toNat (by decide) rate_low
  rw [← result] at close
  exact_mod_cast close

theorem sleep_exact_half :
    (clockSync (clockInit 4 3 100) 0 106).1 = false ∧ (clockSync (clockInit 4 3 100) 0 106).2.2.toNat * 3 ≤ 6 :=
  ⟨by decide,(sleep_exact 4 3 100 100 0 100 0 106 (by decide) (by decide) (by decide) (by decide) (by decide)).2.1⟩

end Craftsman.Sleeping
