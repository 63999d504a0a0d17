import Craftsman.Memory

/-! The rhythmic clock over the processor's time stamp counter, in wrapping
64-bit arithmetic. The readings of the counter are inputs. -/
namespace Craftsman.Clock

structure TscClock where
  medianTscPerUsec : UInt64
  medianUsecPerTsc : UInt64
  tscStep : UInt64
  jerk : UInt64
  tscClock : UInt64
  frameToFrameTsc : UInt64

def tscdeltaToUsec (clock : TscClock) (deltaTsc : UInt64) : UInt64 :=
  (deltaTsc * clock.medianUsecPerTsc) >>> 33

/-- A clock at the reading `now`; `tscPerUsec` is what the calibration measured. -/
def clockInit (frameGoalUsec tscPerUsec now : UInt64) : TscClock where
  medianTscPerUsec := tscPerUsec
  medianUsecPerTsc := ((1 : UInt64) <<< 33) / tscPerUsec
  tscStep := frameGoalUsec * tscPerUsec
  jerk := 0
  tscClock := now
  frameToFrameTsc := now

def clockSync (clock : TscClock) (sleepUsec tscNow : UInt64) : Bool × TscClock × UInt64 :=
  let tscNext := clock.tscClock + clock.tscStep
  if tscNext - tscNow < clock.tscStep then
    (false,clock,tscdeltaToUsec clock (tscNext - tscNow))
  else if tscNow - tscNext ≤ clock.tscStep then
    (true,{clock with tscClock := tscNext, frameToFrameTsc := tscNow},sleepUsec)
  else
    (true,{clock with tscClock := tscNow, jerk := clock.jerk + 1, frameToFrameTsc := tscNow},sleepUsec)

end Craftsman.Clock
