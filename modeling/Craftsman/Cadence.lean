import Craftsman.Clock

/-! The cadence of the clock over whole runs. A tick is a point in unbounded time,
of which the counter shows the last 64 bits. -/
namespace Craftsman.Cadence
open Craftsman.Clock

def reading (tick : Nat) : UInt64 := UInt64.ofNat tick

/-- What the clock is for: a beat passes once more than a step has gone by, and moves
on by one step, or to the present when more than two have gone by. -/
structure Metronome where
  beat : Nat
  jerk : Nat
  beats : Nat

def Metronome.next (step : Nat) (m : Metronome) (tick : Nat) : Metronome :=
  if tick - m.beat ≤ step then m
  else if tick - m.beat ≤ 2 * step then ⟨m.beat + step,m.jerk,m.beats + 1⟩
  else ⟨tick,m.jerk + 1,m.beats + 1⟩

structure Metronome.Paced (step start tick : Nat) (m : Metronome) : Prop where
  begun : start ≤ m.beat
  behind : m.beat ≤ tick
  close : tick - m.beat ≤ step
  rate : m.beats * step ≤ m.beat - start

theorem Metronome.next_paced (step start last tick : Nat) (m : Metronome) (paced : m.Paced step start last)
    (onward : last ≤ tick) : (m.next step tick).Paced step start tick := by
  obtain ⟨begun,behind,close,rate⟩ := paced
  have more : (m.beats + 1) * step = m.beats * step + step := Nat.succ_mul _ _
  unfold Metronome.next
  split
  · next within => exact ⟨begun,by omega,within,rate⟩
  · split
    · exact ⟨by dsimp only; omega,by dsimp only; omega,by dsimp only; omega,by dsimp only; omega⟩
    · exact ⟨by dsimp only; omega,le_refl _,by dsimp only; omega,by dsimp only; omega⟩

theorem ahead (beat tick : Nat) (step : UInt64) (behind : beat ≤ tick) (near : tick - beat < 2^63)
    (high : step.toNat ≤ 2^62) :
    (reading beat + step - reading tick).toNat =
      if tick - beat ≤ step.toNat then step.toNat - (tick - beat) else 2^64 + step.toNat - (tick - beat) := by
  simp only [reading,UInt64.toNat_sub,UInt64.toNat_add,UInt64.toNat_ofNat']
  split <;> omega

theorem past (beat tick : Nat) (step : UInt64) (behind : beat ≤ tick) (near : tick - beat < 2^63)
    (high : step.toNat ≤ 2^62) :
    (reading tick - (reading beat + step)).toNat =
      if tick - beat < step.toNat then 2^64 + (tick - beat) - step.toNat else tick - beat - step.toNat := by
  simp only [reading,UInt64.toNat_sub,UInt64.toNat_add,UInt64.toNat_ofNat']
  split <;> omega

theorem reading_same (beat tick : Nat) (behind : beat ≤ tick) (near : tick - beat < 2^63) :
    reading tick = reading beat ↔ tick = beat := by
  refine ⟨fun same => ?_,fun same => same ▸ rfl⟩
  have wrapped := congrArg UInt64.toNat same
  simp only [reading,UInt64.toNat_ofNat'] at wrapped
  omega

section Step
variable (clock : TscClock) (sleepUsec : UInt64) (beat tick : Nat) (here : clock.tscClock = reading beat)
  (low : 1 ≤ clock.tscStep.toNat) (high : clock.tscStep.toNat ≤ 2^62) (behind : beat ≤ tick) (near : tick - beat < 2^63)
include here low high behind near

theorem before_next : clock.tscClock + clock.tscStep - reading tick < clock.tscStep ↔
    tick ≠ beat ∧ tick - beat ≤ clock.tscStep.toNat := by
  have next := ahead beat tick clock.tscStep behind near high
  rw [here,UInt64.lt_iff_toNat_lt,next]
  split <;> omega

theorem soon_after_next (passed : tick = beat ∨ clock.tscStep.toNat < tick - beat) :
    reading tick - (clock.tscClock + clock.tscStep) ≤ clock.tscStep ↔
      tick ≠ beat ∧ tick - beat ≤ 2 * clock.tscStep.toNat := by
  have late := past beat tick clock.tscStep behind near high
  rw [here,UInt64.le_iff_toNat_le,late]
  split <;> omega

theorem sync_waits (some_time : tick ≠ beat) (within : tick - beat ≤ clock.tscStep.toNat) :
    clockSync clock sleepUsec (reading tick) =
      (false,clock,tscdeltaToUsec clock (clock.tscClock + clock.tscStep - reading tick)) := by
  have waits := before_next clock beat tick here low high behind near
  exact if_pos (waits.mpr ⟨some_time,within⟩)

theorem sync_steady (beyond : clock.tscStep.toNat < tick - beat) (within : tick - beat ≤ 2 * clock.tscStep.toNat) :
    clockSync clock sleepUsec (reading tick) =
      (true,{clock with tscClock := clock.tscClock + clock.tscStep, frameToFrameTsc := reading tick},sleepUsec) := by
  have waits := before_next clock beat tick here low high behind near
  have steady := soon_after_next clock beat tick here low high behind near (.inr beyond)
  unfold clockSync
  rw [if_neg (by rw [waits]; omega),if_pos (by rw [steady]; omega)]

/-- A reading of the beat itself falls through to the last branch as well. -/
theorem sync_lost (beyond : tick = beat ∨ 2 * clock.tscStep.toNat < tick - beat) :
    clockSync clock sleepUsec (reading tick) =
      (true,{clock with tscClock := reading tick, jerk := clock.jerk + 1, frameToFrameTsc := reading tick},sleepUsec) := by
  have waits := before_next clock beat tick here low high behind near
  have steady := soon_after_next clock beat tick here low high behind near (by omega)
  unfold clockSync
  rw [if_neg (by rw [waits]; omega),if_neg (by rw [steady]; omega)]

/-- What one call keeps, the beat standing `tick - beat` ticks in the past. -/
structure Keeps (clock : TscClock) (sleepUsec : UInt64) (beat tick : Nat) : Prop where
  due : (clockSync clock sleepUsec (reading tick)).1 = true ↔ clock.tscStep.toNat < tick - beat
  waits : (clockSync clock sleepUsec (reading tick)).1 = false →
    (clockSync clock sleepUsec (reading tick)).2.1 = clock
  steady : (clockSync clock sleepUsec (reading tick)).1 = true → tick - beat ≤ 2 * clock.tscStep.toNat →
    (clockSync clock sleepUsec (reading tick)).2.1.tscClock = clock.tscClock + clock.tscStep ∧
      (clockSync clock sleepUsec (reading tick)).2.1.jerk = clock.jerk
  lost : (clockSync clock sleepUsec (reading tick)).1 = true → 2 * clock.tscStep.toNat < tick - beat →
    (clockSync clock sleepUsec (reading tick)).2.1.tscClock = reading tick ∧
      (clockSync clock sleepUsec (reading tick)).2.1.jerk = clock.jerk + 1

theorem keeps_exact : Keeps clock sleepUsec beat tick ↔ reading tick ≠ clock.tscClock := by
  rw [here,Ne,reading_same beat tick behind near]
  by_cases same : tick = beat
  · refine ⟨fun keeps => ?_,fun other => absurd same other⟩
    have due := keeps.due
    rw [sync_lost clock sleepUsec beat tick here low high behind near (.inl same)] at due
    have passed := due.mp rfl
    omega
  · refine ⟨fun _ => same,fun _ => ?_⟩
    by_cases within : tick - beat ≤ clock.tscStep.toNat
    · have call := sync_waits clock sleepUsec beat tick here low high behind near same within
      constructor
      · rw [call]; simp [within]
      · rw [call]; simp
      · rw [call]; simp
      · rw [call]; simp
    · by_cases steady : tick - beat ≤ 2 * clock.tscStep.toNat
      · have call := sync_steady clock sleepUsec beat tick here low high behind near (by omega) steady
        constructor
        · rw [call]; simp; omega
        · rw [call]; simp
        · rw [call]; simp
        · intro _ beyond
          omega
      · have call := sync_lost clock sleepUsec beat tick here low high behind near (.inr (by omega))
        constructor
        · rw [call]; simp; omega
        · rw [call]; simp
        · intro _ within
          omega
        · rw [call]; simp

end Step

structure Sampling where
  clock : TscClock
  tick : Nat
  beats : Nat

def Sampling.next (s : Sampling) (sleepUsec : UInt64) (tick : Nat) : Sampling :=
  let synced := clockSync s.clock sleepUsec (reading tick)
  ⟨synced.2.1,tick,if synced.1 then s.beats + 1 else s.beats⟩

inductive Sampled (allowed : Sampling → Nat → Prop) (goal tscPerUsec : UInt64) (start : Nat) : Sampling → Prop
  | init : Sampled allowed goal tscPerUsec start ⟨clockInit goal tscPerUsec (reading start),start,0⟩
  | sync (s : Sampling) (sleepUsec : UInt64) (tick : Nat) (before : Sampled allowed goal tscPerUsec start s)
      (onward : s.tick ≤ tick) (near : tick - s.tick < 2^62) (may : allowed s tick) :
      Sampled allowed goal tscPerUsec start (s.next sleepUsec tick)

/-- The counter does not show the beat itself. -/
def fresh (s : Sampling) (tick : Nat) : Prop := reading tick ≠ s.clock.tscClock

structure Follows (step : UInt64) (start : Nat) (s : Sampling) (m : Metronome) : Prop where
  stepped : s.clock.tscStep = step
  here : s.clock.tscClock = reading m.beat
  jerks : s.clock.jerk = UInt64.ofNat m.jerk
  counted : s.beats = m.beats
  paced : m.Paced step.toNat start s.tick

theorem sync_follows (step : UInt64) (start : Nat) (s : Sampling) (m : Metronome) (sleepUsec : UInt64) (tick : Nat)
    (follows : Follows step start s m) (low : 1 ≤ step.toNat) (high : step.toNat ≤ 2^62)
    (onward : s.tick ≤ tick) (near : tick - s.tick < 2^62) (new : fresh s tick) :
    Follows step start (s.next sleepUsec tick) (m.next step.toNat tick) := by
  have paced := Metronome.next_paced step.toNat start s.tick tick m follows.paced onward
  obtain ⟨rfl,here,jerks,counted,begun,behind,close,rate⟩ := follows
  have past_beat : m.beat ≤ tick := by omega
  have soon : tick - m.beat < 2^63 := by omega
  have other : tick ≠ m.beat := by
    intro same
    exact new (by rw [here,same])
  by_cases within : tick - m.beat ≤ s.clock.tscStep.toNat
  · have call := sync_waits s.clock sleepUsec m.beat tick here low high past_beat soon other within
    have still : m.next s.clock.tscStep.toNat tick = m := if_pos within
    rw [still] at paced ⊢
    simp only [Sampling.next,call]
    exact ⟨rfl,here,jerks,counted,paced⟩
  · by_cases steady : tick - m.beat ≤ 2 * s.clock.tscStep.toNat
    · have call := sync_steady s.clock sleepUsec m.beat tick here low high past_beat soon (by omega) steady
      have moved : m.next s.clock.tscStep.toNat tick = ⟨m.beat + s.clock.tscStep.toNat,m.jerk,m.beats + 1⟩ := by
        rw [Metronome.next,if_neg within,if_pos steady]
      rw [moved] at paced ⊢
      simp only [Sampling.next,call]
      refine ⟨rfl,?_,jerks,by simp [counted],paced⟩
      simp [here,reading,UInt64.ofNat_add]
    · have call := sync_lost s.clock sleepUsec m.beat tick here low high past_beat soon (.inr (by omega))
      have moved : m.next s.clock.tscStep.toNat tick = ⟨tick,m.jerk + 1,m.beats + 1⟩ := by
        rw [Metronome.next,if_neg within,if_neg steady]
      rw [moved] at paced ⊢
      simp only [Sampling.next,call]
      exact ⟨rfl,rfl,by simp [jerks,UInt64.ofNat_add],by simp [counted],paced⟩

theorem sampled_follows (goal tscPerUsec : UInt64) (start : Nat) (s : Sampling)
    (low : 1 ≤ (goal * tscPerUsec).toNat) (high : (goal * tscPerUsec).toNat ≤ 2^62)
    (run : Sampled fresh goal tscPerUsec start s) : ∃ m, Follows (goal * tscPerUsec) start s m := by
  induction run with
  | init => exact ⟨⟨start,0,0⟩,rfl,rfl,rfl,rfl,le_refl _,le_refl _,by simp,by simp⟩
  | sync s sleepUsec tick before onward near new ih =>
    obtain ⟨m,follows⟩ := ih
    exact ⟨_,sync_follows _ start s m sleepUsec tick follows low high onward near new⟩

/-- Along the runs whose readings never show the beat itself, the clock keeps its
cadence, and the next call keeps it for exactly the readings that are fresh again. -/
theorem cadence_kept (goal tscPerUsec : UInt64) (start : Nat) (s : Sampling)
    (low : 1 ≤ (goal * tscPerUsec).toNat) (high : (goal * tscPerUsec).toNat ≤ 2^62)
    (run : Sampled fresh goal tscPerUsec start s) :
    s.beats * (goal * tscPerUsec).toNat ≤ s.tick - start ∧ s.clock.tscStep = goal * tscPerUsec ∧
      ∃ beat, start ≤ beat ∧ beat ≤ s.tick ∧ s.clock.tscClock = reading beat ∧
        ∀ sleepUsec tick, s.tick ≤ tick → tick - s.tick < 2^62 →
          (Keeps s.clock sleepUsec beat tick ↔ fresh s tick) := by
  obtain ⟨m,stepped,here,-,counted,begun,behind,close,rate⟩ := sampled_follows goal tscPerUsec start s low high run
  refine ⟨by rw [counted]; omega,stepped,m.beat,begun,behind,here,?_⟩
  intro sleepUsec tick onward near
  rw [← stepped] at low high close
  exact keeps_exact s.clock sleepUsec m.beat tick here low high (by omega) (by omega)

theorem cadence_kept_wrapping : ∃ s, Sampled fresh 100 10 (2^64 - 500) s ∧ s.beats = 1 ∧
    s.beats * 1000 ≤ s.tick - (2^64 - 500) := by
  have run : Sampled fresh 100 10 (2^64 - 500) (Sampling.next ⟨clockInit 100 10 (reading (2^64 - 500)),2^64 - 500,0⟩ 0 (2^64 + 501)) :=
    .sync _ 0 _ .init (by decide) (by decide) (by simp [fresh,clockInit,reading])
  exact ⟨_,run,by decide,(cadence_kept 100 10 _ _ (by decide) (by decide) run).1⟩

/-- The counter shows the time of `clock_init` once more: a frame passes in no time,
and counts as late. -/
theorem cadence_lost : ∃ s, Sampled (fun _ _ => True) 100 10 5000 s ∧ s.tick - 5000 = 0 ∧
    s.clock.jerk = 1 ∧ s.beats = 1 ∧ ¬ s.beats * 1000 ≤ s.tick - 5000 := by
  refine ⟨Sampling.next ⟨clockInit 100 10 (reading 5000),5000,0⟩ 0 5000,?_,by decide,by decide,by decide,by decide⟩
  exact .sync _ 0 5000 .init (by decide) (by decide) trivial

end Craftsman.Cadence
