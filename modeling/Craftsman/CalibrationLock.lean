import Craftsman.Calibration
import Craftsman.Stream.Turnstile
import Mathlib.Tactic.FinCases

/-! The lock of the calibration. `clock()` counts what the thread itself has used, so
the threads that calibrate do it one at a time: each takes a number of `lock_id` and
waits until `running_thread` has come to it. -/
namespace Craftsman.CalibrationLock
open Craftsman.Calibration Craftsman.Stream.Exchange Craftsman.Stream.Turnstile

inductive Reading where
  | clock (c : Int)
  | counter (rc : UInt64)

def Reading.clocks : Reading → List Int
  | .clock c => [c]
  | .counter _ => []

def Reading.counters : Reading → List UInt64
  | .clock _ => []
  | .counter rc => [rc]

def clocksOf (readings : List Reading) : List Int := readings.flatMap Reading.clocks

def countersOf (readings : List Reading) : List UInt64 := readings.flatMap Reading.counters

/-- Where a thread stands between two readings: before the first of either clock, in
the loop that waits for a millisecond, and behind it. -/
inductive Sampling where
  | opening
  | opened (c : Int)
  | spinning (samples : List Sample) (p : Int) (rp : UInt64)
  | elapsed (samples : List Sample) (p c : Int) (rp : UInt64)

def read : Sampling → Reading → Option Sampling
  | .opening,.clock c => some (.opened c)
  | .opened c,.counter rc => some (.spinning [] c rc)
  | .spinning samples p rp,.clock c =>
    if samples.length = maxSamples then none
    else if c - p < clocksPerMs then some (.spinning samples p rp)
    else some (.elapsed samples p c rp)
  | .elapsed samples p c rp,.counter rc => some (.spinning (samples ++ [⟨c - p,rc - rp⟩]) c rc)
  | _,_ => none

def median : Sampling → Option Nat
  | .spinning samples _ _ =>
    if samples.length = maxSamples then (exchangeSort (samples.map rate))[maxSamples / 2]? else none
  | _ => none

def calibrating : Work Sampling Reading Nat := ⟨.opening,read,median⟩

/-- The samples of a thread that goes on with these readings. -/
def samplesFrom : Sampling → List Int → List UInt64 → Option (List Sample)
  | .opening,clocks,counter => sampling clocks counter
  | .opened _,_,[] => none
  | .opened c,clocks,rc::counter => takeSamples maxSamples c rc clocks counter
  | .spinning samples p rp,clocks,counter =>
    (takeSamples (maxSamples - samples.length) p rp clocks counter).map (samples ++ ·)
  | .elapsed _ _ _ _,_,[] => none
  | .elapsed samples p c rp,clocks,rc::counter =>
    (takeSamples (maxSamples - (samples.length + 1)) c rc clocks counter).map (samples ++ ⟨c - p,rc - rp⟩::·)

def Sampling.Fits : Sampling → Prop
  | .spinning samples _ _ => samples.length ≤ maxSamples
  | .elapsed samples _ _ _ => samples.length < maxSamples
  | _ => True

theorem spinning_samples (samples : List Sample) (p c : Int) (rp : UInt64) (clocks : List Int) (counter : List UInt64)
    (room : samples.length < maxSamples) :
    samplesFrom (.spinning samples p rp) (c::clocks) counter =
      if c - p < clocksPerMs then samplesFrom (.spinning samples p rp) clocks counter
      else samplesFrom (.elapsed samples p c rp) clocks counter := by
  have more : maxSamples - samples.length = maxSamples - (samples.length + 1) + 1 := by omega
  rw [samplesFrom,samplesFrom,more]
  cases counter with
  | nil =>
    rw [takeSamples,takeSamples,samplesFrom]
    split <;> rfl
  | cons rc counter =>
    rw [takeSamples,takeSamples,samplesFrom,poll]
    by_cases early : c - p < clocksPerMs
    · rw [if_pos early,if_pos early]
    · rw [if_neg early,if_neg early]
      exact Option.map_map _ _ _

theorem read_samples (s later : Sampling) (reading : Reading) (clocks : List Int) (counter : List UInt64) (fits : s.Fits)
    (step : read s reading = some later) :
    later.Fits ∧ samplesFrom s (reading.clocks ++ clocks) (reading.counters ++ counter) =
      samplesFrom later clocks counter := by
  cases s with
  | opening =>
    cases reading with
    | clock c =>
      cases step
      refine ⟨trivial,?_⟩
      cases counter <;> rfl
    | counter rc => cases step
  | opened c =>
    cases reading with
    | clock c => cases step
    | counter rc =>
      cases step
      refine ⟨Nat.zero_le _,?_⟩
      change takeSamples maxSamples c rc clocks counter = (takeSamples maxSamples c rc clocks counter).map ([] ++ ·)
      cases takeSamples maxSamples c rc clocks counter <;> rfl
  | spinning samples p rp =>
    cases reading with
    | clock c =>
      rw [read] at step
      split at step
      · cases step
      · next more =>
        have room : samples.length < maxSamples := Nat.lt_of_le_of_ne fits more
        have next := spinning_samples samples p c rp clocks counter room
        split at step
        · next early =>
          cases step
          exact ⟨fits,next.trans (if_pos early)⟩
        · next late =>
          cases step
          exact ⟨room,next.trans (if_neg late)⟩
    | counter rc => cases step
  | elapsed samples p c rp =>
    cases reading with
    | clock c => cases step
    | counter rc =>
      cases step
      have room : samples.length < maxSamples := fits
      refine ⟨by rw [Sampling.Fits,List.length_append]; exact room,?_⟩
      change (takeSamples _ c rc clocks counter).map _ = (takeSamples _ c rc clocks counter).map _
      rw [List.length_append,List.length_singleton]
      congr 1
      funext rest
      rw [List.append_assoc]
      rfl

theorem reads_samples (s later : Sampling) (readings : List Reading) (fits : s.Fits)
    (steps : readings.foldlM read s = some later) :
    later.Fits ∧ samplesFrom s (clocksOf readings) (countersOf readings) = samplesFrom later [] [] := by
  induction readings generalizing s with
  | nil =>
    cases steps
    exact ⟨fits,rfl⟩
  | cons reading readings ih =>
    rw [List.foldlM_cons] at steps
    obtain ⟨middle,step,rest⟩ := Option.bind_eq_some_iff.mp steps
    obtain ⟨fits,one⟩ := read_samples s middle reading (clocksOf readings) (countersOf readings) fits step
    obtain ⟨last,more⟩ := ih middle fits rest
    exact ⟨last,one.trans more⟩

/-- A thread that reads alone gets what the calibration computes from its readings. -/
theorem gives_rate (readings : List Reading) (result : Nat) (gives : calibrating.Gives readings result) :
    tscPerUsec (clocksOf readings) (countersOf readings) = some result := by
  obtain ⟨state,after,done⟩ := gives
  obtain ⟨_,taken⟩ := reads_samples .opening state readings trivial after
  cases state with
  | opening => cases done
  | opened c => cases done
  | elapsed samples p c rp => cases done
  | spinning samples p rp =>
    change (if samples.length = maxSamples then _ else none) = some result at done
    split at done
    · next many =>
      have all : samplesFrom (.spinning samples p rp) [] [] = some samples := by
        rw [samplesFrom,many,Nat.sub_self,takeSamples,Option.map_some,List.append_nil]
      have sampled : sampling (clocksOf readings) (countersOf readings) = some samples := taken.trans all
      rw [tscPerUsec,sampled]
      exact done
    · cases done

theorem median_some (samples : List Sample) (p : Int) (rp : UInt64) (many : samples.length = maxSamples) :
    ∃ result, median (.spinning samples p rp) = some result := by
  have length : (exchangeSort (samples.map rate)).length = 10 := by
    rw [(exchangeSort_sorted _).2.length_eq,List.length_map,many]
    rfl
  rw [median,if_pos many]
  exact ⟨_,List.getElem?_eq_getElem (by rw [length]; decide)⟩

theorem iterate_number (k : Nat) (c : UInt64) : (· + 1)^[k] c = c + UInt64.ofNat k := by
  induction k with
  | zero => simp
  | succ k ih =>
    rw [Function.iterate_succ_apply',ih]
    apply UInt64.toNat.inj
    simp only [UInt64.toNat_add,UInt64.toNat_ofNat',UInt64.toNat_one]
    omega

/-- The numbers of 64 bits come back only after 2^64 of them. -/
theorem numbers_apart (c : UInt64) (k : Nat) (few : k < 2^64) (same : (· + 1)^[k] c = c) : k = 0 := by
  rw [iterate_number] at same
  have equal := congrArg UInt64.toNat same
  have bound := c.toNat_lt
  simp only [UInt64.toNat_add,UInt64.toNat_ofNat'] at equal
  omega

/-- As long as no two threads take their numbers at once, the threads calibrate one at a
time and in the order of their numbers, also when these wrap: the readings are one
block for each call, and each call returns what its own block says. Whoever is first
in the queue need not wait. -/
theorem calibrations_serial {ι : Type} [DecidableEq ι] [Fintype ι] (few : Fintype.card ι ≤ 2^64)
    (s : Gate ι UInt64 Sampling Nat) (h : History ι Reading Nat) (run : Run calibrating (· + 1) 0 False s h) :
    (∀ i j, (s.phase i).busy = true → (s.phase j).busy = true → i = j) ∧
      ∃ queue blocks tail, h.arrivals = h.served.map Prod.fst ++ queue ∧ h.log = blocks.flatten ++ tail ∧
        List.Forall₂ (fun call block => ∃ readings, block = readings.map (Prod.mk call.1) ∧
          tscPerUsec (clocksOf readings) (countersOf readings) = some call.2) h.served blocks ∧
        (∀ entry ∈ tail, queue.head? = some entry.1) ∧
        ∀ i ticket, queue.head? = some i → s.phase i = .waiting ticket → ticket = s.serving := by
  obtain ⟨queue,blocks,tail,queued,arrivals,serial⟩ :=
    run_serial calibrating (· + 1) 0 (2^64) (fun c k => numbers_apart c k) few s h run
  refine ⟨queued.exclusive,queue,blocks,tail,arrivals,serial.log,?_,?_,?_⟩
  · apply serial.served.imp
    rintro call block ⟨readings,same,gives⟩
    exact ⟨readings,same,gives_rate readings call.2 gives⟩
  · intro entry member
    have someone : ∃ i, (s.phase i).busy = true := by
      by_contra nobody
      rw [serial.quiet fun i => Bool.eq_false_iff.mpr fun busy => nobody ⟨i,busy⟩] at member
      exact absurd member List.not_mem_nil
    obtain ⟨i,busy⟩ := someone
    obtain ⟨k,here⟩ := queued.place i fun idle => by rw [idle] at busy; cases busy
    obtain rfl := queued.busy k i here busy
    have mine : ∃ readings : List Reading, tail = readings.map (Prod.mk i) := by
      cases phase : s.phase i with
      | inside state =>
        obtain ⟨readings,same,_⟩ := serial.inside i state phase
        exact ⟨readings,same⟩
      | leaving seen result =>
        obtain ⟨readings,same,_⟩ := serial.leaving i seen result phase
        exact ⟨readings,same⟩
      | idle => rw [phase] at busy; cases busy
      | drawing ticket => rw [phase] at busy; cases busy
      | waiting ticket => rw [phase] at busy; cases busy
    obtain ⟨readings,rfl⟩ := mine
    obtain ⟨reading,_,rfl⟩ := List.mem_map.mp member
    rw [List.head?_eq_getElem?,here]
  · intro i ticket front waiting
    rw [List.head?_eq_getElem?] at front
    exact queued.waiting 0 i ticket front waiting

/-- The readings of a call: both clocks, and then both again for each sample. -/
def everyReading : List Reading :=
  (everyMillisecond.zip twoTicks).flatMap fun pair => [.clock pair.1,.counter pair.2]

theorem calibrations_serial_two :
    ∃ (s : Gate (Fin 2) UInt64 Sampling Nat) (h : History (Fin 2) Reading Nat) (result : Nat),
      Run calibrating (· + 1) 0 False s h ∧ h.arrivals = [0,1] ∧ h.served = [(0,result)] ∧
      ∃ queue blocks tail, h.arrivals = h.served.map Prod.fst ++ queue ∧ h.log = blocks.flatten ++ tail ∧
        List.Forall₂ (fun call block => ∃ readings, block = readings.map (Prod.mk call.1) ∧
          tscPerUsec (clocksOf readings) (countersOf readings) = some call.2) h.served blocks ∧
        (∀ entry ∈ tail, queue.head? = some entry.1) ∧
        ∀ i ticket, queue.head? = some i → s.phase i = .waiting ticket → ticket = s.serving := by
  have drawn : Run calibrating (· + 1) (0 : UInt64) False _ (⟨[0],[],[]⟩ : History (Fin 2) Reading Nat) :=
    .draw _ _ 0 .start rfl (.inr fun _ _ => (nomatch ·))
  have numbered := drawn.number _ _ 0 0 rfl
  have entered := numbered.enter _ _ 0 rfl
  have drawn' := entered.draw _ _ 1 rfl (.inr fun j ticket => by fin_cases j <;> exact (nomatch ·))
  obtain ⟨state,after,result,done⟩ : ∃ state, everyReading.foldlM read .opening = some state ∧
      ∃ result, median state = some result :=
    ⟨.spinning (List.replicate 10 ⟨1000,2000⟩) 10000 20000,by rfl,median_some _ _ _ rfl⟩
  have called := drawn'.events 0 _ state everyReading rfl after
  have left := (called.leave _ _ 0 state result (put_self _ _ _) done).pass _ _ 0 _ result (put_self _ _ _)
  exact ⟨_,_,result,left,rfl,rfl,(calibrations_serial (by decide) _ _ left).2⟩

/-- Two threads that load `lock_id` before either has stored it calibrate at once. -/
theorem overlap_enters : ∃ (s : Gate (Fin 2) UInt64 Sampling Nat) (h : History (Fin 2) Reading Nat),
    Run calibrating (· + 1) 0 True s h ∧ ∀ i, (s.phase i).busy = true := by
  have drawn : Run calibrating (· + 1) (0 : UInt64) True _ (⟨[0],[],[]⟩ : History (Fin 2) Reading Nat) :=
    .draw _ _ 0 .start rfl (.inl trivial)
  have both := drawn.draw _ _ 1 rfl (.inl trivial)
  have numbered := (both.number _ _ 0 0 rfl).number _ _ 1 0 rfl
  have entered := (numbered.enter _ _ 0 rfl).enter _ _ 1 rfl
  exact ⟨_,_,entered,fun i => by fin_cases i <;> rfl⟩

end Craftsman.CalibrationLock
