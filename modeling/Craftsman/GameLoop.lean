import Craftsman.Clock

/-! The frame counters of the loop. Advancing one waits until the clock lets the
frame pass; a loop that runs out of readings is still waiting. -/
namespace Craftsman.GameLoop
open Craftsman.Memory Craftsman.Clock

/-- The loop's static state, counters of 32 bits. -/
structure Loop where
  tscClock : TscClock
  sleepUsec : UInt64
  frame : Nat
  pauseFrame : Nat
  stallFrame : Nat
  running : Bool
  runCount : Nat
  inputQueue : Nat
  inputQueueMax : Nat

def Loop.boot : Loop where
  tscClock := ⟨0,0,0,0,0,0⟩
  sleepUsec := 0
  frame := 0
  pauseFrame := 0
  stallFrame := 0
  running := false
  runCount := 0
  inputQueue := 0
  inputQueueMax := 0

/-- The calibration and the first reading of a session. The goal of a framerate of
0 is a conversion that C leaves open. -/
structure Calibration where
  tscPerUsec : UInt64
  now : UInt64
  openGoal : UInt64

def usecGoal (framerate : UInt8) (openGoal : UInt64) : UInt64 :=
  if framerate = 0 then openGoal else 1000 * 1000 / framerate.toUInt64

def loopInit (framerate : UInt8) (calibration : Calibration) (loop : Loop) : Loop :=
  {loop with
    tscClock := clockInit (usecGoal framerate calibration.openGoal) calibration.tscPerUsec calibration.now
    frame := 0
    pauseFrame := 0
    stallFrame := 0
    running := true
    inputQueue := framerate.toNat
    inputQueueMax := framerate.toNat}

/-- A request to `nanosleep`. -/
structure Timespec where
  tvSec : Int
  tvNsec : Int

def loopOneRequest (sleepUsec : UInt64) : Timespec := ⟨0,Int.bmod (sleepUsec * 1000).toNat (2^64)⟩

def waitClock : List UInt64 → Loop → Option Loop
  | [],_ => none
  | now::readings,loop =>
    match clockSync loop.tscClock loop.sleepUsec now with
    | (true,clock,sleep) => some {loop with tscClock := clock, sleepUsec := sleep}
    | (false,clock,sleep) => waitClock readings {loop with tscClock := clock, sleepUsec := sleep}

def loopStall (readings : List UInt64) (loop : Loop) : Option Loop :=
  waitClock readings {loop with stallFrame := u32 (loop.stallFrame + 1)}

def loopPause (readings : List UInt64) (loop : Loop) : Option Loop :=
  waitClock readings {loop with pauseFrame := u32 (loop.pauseFrame + 1)}

def loopSync (readings : List UInt64) (loop : Loop) : Option Loop :=
  waitClock readings {loop with frame := u32 (loop.frame + 1)}

def loopHalt (loop : Loop) : Loop := {loop with running := false}

def loopWriteFrame (loop : Loop) : Nat := u32 (loop.frame + loop.pauseFrame + loop.inputQueue)

def loopShutdown (loop : Loop) : Loop := {loop with runCount := u32 (loop.runCount + 1)}

theorem waitClock_same (readings : List UInt64) (loop later : Loop) (passed : waitClock readings loop = some later) :
    ∃ clock sleep, later = {loop with tscClock := clock, sleepUsec := sleep} := by
  induction readings generalizing loop with
  | nil => cases passed
  | cons now readings ih =>
    unfold waitClock at passed
    split at passed
    · next clock sleep _ =>
      cases passed
      exact ⟨clock,sleep,rfl⟩
    · obtain ⟨clock,sleep,same⟩ := ih _ passed
      exact ⟨clock,sleep,same⟩

end Craftsman.GameLoop
