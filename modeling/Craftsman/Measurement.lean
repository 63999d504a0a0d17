import Craftsman.Execute
import Craftsman.Statistics

/-! What is measured. The benchmark and the simulation time the calls of the functions and
feed the statistics; the benchmark's own decision reads the greatest of its sums. -/
namespace Craftsman.Measurement
open Craftsman.Memory Craftsman.Text Craftsman.Dlfn Craftsman.Execute Craftsman.Statistics

def toDouble (i : UInt64) : ℚ := i.toNat

section Benchmark

/-- The calls of one function in one magnitude: their statistics and their sum. -/
def measureCalls (cycles : Nat → Nat → Nat → UInt64) (h i calls : Nat) : Stats × ℚ :=
  (List.range calls).foldl (fun (perfStats,sum) j =>
    (statsAdd (toDouble (cycles h i j)) perfStats,sum + toDouble (cycles h i j))) (statsInit,0)

def measureRound (used : Nat) (cycles : Nat → Nat → Nat → UInt64) (h calls : Nat) (aggregate : Stats) : List Stats × Stats :=
  (List.range used).foldl (fun (perfStats,aggregate) i =>
    (perfStats ++ [(measureCalls cycles h i calls).1],statsAdd (measureCalls cycles h i calls).2 aggregate)) ([],aggregate)

variable {σ : Type} (library : Library σ)

/-- The benchmark with its statistics: a list of them for each magnitude that was run. -/
def measuredFrom (functions : List Function) (cycles : Nat → Nat → Nat → UInt64) :
    Nat → Nat → Nat → Stats → σ → List (List Stats) × σ
  | 0,_,_,_,memory => ([],memory)
  | magnitudes+1,h,calls,aggregate,memory =>
    let memory := (List.range functions.length).foldl
      (fun memory i => (fun memory => (callFunction library functions memory i).1)^[calls] memory) memory
    let (perfStats,aggregate) := measureRound functions.length cycles h calls aggregate
    if 10000000 < statsMax aggregate then ([perfStats],memory)
    else
      let (later,memory) := measuredFrom functions cycles magnitudes (h+1) (calls*10) aggregate memory
      (perfStats::later,memory)

def callCycles (cycles : Nat → Nat → Nat → UInt64) (h i calls : Nat) : List ℕ :=
  (List.range calls).map fun j => (cycles h i j).toNat

def roundStats (used : Nat) (cycles : Nat → Nat → Nat → UInt64) (h calls : Nat) : List Stats :=
  (List.range used).map fun i => statsAfter (durations (callCycles cycles h i calls))

theorem statsAfter_durations (cycles : List ℕ) (c : ℕ) :
    statsAfter (durations (cycles ++ [c])) = statsAdd c (statsAfter (durations cycles)) := by
  rw [durations,List.map_append,List.map_singleton,statsAfter,List.foldl_append]
  rfl

theorem measureCalls_after (cycles : Nat → Nat → Nat → UInt64) (h i calls : Nat) :
    measureCalls cycles h i calls =
      (statsAfter (durations (callCycles cycles h i calls)),(benchmarkSum cycles h i calls : ℚ)) := by
  unfold measureCalls callCycles benchmarkSum
  induction calls with
  | zero => rfl
  | succ calls ih =>
    rw [List.range_succ,List.foldl_append,ih,List.foldl_append,List.map_append,List.map_singleton,statsAfter_durations]
    simp only [List.foldl_cons,List.foldl_nil,toDouble,Nat.cast_add]

theorem measureRound_after (cycles : Nat → Nat → Nat → UInt64) (h calls used slowest : Nat) (aggregate : Stats)
    (greatest : statsMax aggregate = slowest) :
    (measureRound used cycles h calls aggregate).1 = roundStats used cycles h calls ∧
      statsMax (measureRound used cycles h calls aggregate).2 =
        ((List.range used).foldl (fun slowest i => max slowest (benchmarkSum cycles h i calls)) slowest : Nat) := by
  unfold measureRound roundStats
  induction used with
  | zero => exact ⟨rfl,greatest⟩
  | succ used ih =>
    obtain ⟨perf,sums⟩ := ih
    rw [List.range_succ,List.foldl_append,List.foldl_append,List.map_append,List.map_singleton]
    simp only [List.foldl_cons,List.foldl_nil,measureCalls_after] at perf sums ⊢
    refine ⟨by rw [perf],?_⟩
    rw [statsMax] at sums
    rw [statsMax,statsAdd,sums,Nat.cast_max,max_comm]

/-- The decision to stop is that of the sums alone, and each magnitude reports its own calls. -/
theorem measured_refines (functions : List Function) (cycles : Nat → Nat → Nat → UInt64)
    (magnitudes h calls slowest : Nat) (aggregate : Stats) (memory : σ) (greatest : statsMax aggregate = slowest) :
    (measuredFrom library functions cycles magnitudes h calls aggregate memory).2 =
        benchmarkFrom library functions cycles magnitudes h calls slowest memory ∧
      ∀ perfStats ∈ (measuredFrom library functions cycles magnitudes h calls aggregate memory).1,
        ∃ k, perfStats = roundStats functions.length cycles (h + k) (calls * 10^k) := by
  induction magnitudes generalizing h calls slowest aggregate memory with
  | zero => exact ⟨rfl,fun _ member => absurd member List.not_mem_nil⟩
  | succ magnitudes ih =>
    obtain ⟨perf,sums⟩ := measureRound_after cycles h calls functions.length slowest aggregate greatest
    rw [measuredFrom,benchmarkFrom]
    dsimp only
    rw [sums,perf]
    by_cases slow : 10000000 < (List.range functions.length).foldl
        (fun slowest i => max slowest (benchmarkSum cycles h i calls)) slowest
    · rw [if_pos (by exact_mod_cast slow),if_pos slow]
      refine ⟨rfl,fun perfStats member => ⟨0,?_⟩⟩
      rw [List.mem_singleton.mp member,Nat.pow_zero,Nat.mul_one]
      rfl
    · rw [if_neg (by exact_mod_cast slow),if_neg slow]
      obtain ⟨same,reports⟩ := ih (h + 1) (calls * 10) _ _ _ sums
      refine ⟨same,fun perfStats member => ?_⟩
      rcases List.mem_cons.mp member with rfl | later
      · exact ⟨0,by rw [Nat.pow_zero,Nat.mul_one]; rfl⟩
      · obtain ⟨k,report⟩ := reports perfStats later
        refine ⟨k + 1,?_⟩
        rw [report,Nat.add_assoc,Nat.add_comm 1 k,Nat.mul_assoc,← Nat.pow_succ']

/-- What a run of the command prints for a function is the range of its calls in that
magnitude if and only if one of them was short. -/
theorem benchmark_ranges (functions : List Function) (cycles : Nat → Nat → Nat → UInt64) (memory : σ)
    (perfStats : List Stats) (member : perfStats ∈ (measuredFrom library functions cycles 10 0 1 statsInit memory).1) :
    ∃ h, ∀ i < functions.length, ∃ accum, perfStats[i]? = some accum ∧
      (TrueRange accum (durations (callCycles cycles h i (10^h))) ↔
        ∃ j < 10^h, (cycles h i j).toNat ≤ 4294967295) := by
  obtain ⟨_,reports⟩ := measured_refines library functions cycles 10 0 1 0 statsInit memory rfl
  obtain ⟨h,report⟩ := reports perfStats member
  rw [Nat.zero_add,Nat.one_mul] at report
  refine ⟨h,fun i inside => ⟨statsAfter (durations (callCycles cycles h i (10^h))),?_,?_⟩⟩
  · rw [report,roundStats,List.getElem?_map,List.getElem?_range inside]
    rfl
  · have some_call : callCycles cycles h i (10^h) ≠ [] := by
      apply List.ne_nil_of_length_pos
      rw [callCycles,List.length_map,List.length_range]
      exact Nat.pow_pos (by decide)
    rw [range_iff _ some_call]
    simp only [callCycles,List.mem_map,List.mem_range,exists_exists_and_eq_and]

end Benchmark

section Simulation

/-- The durations of a frame are added when all its functions have run. -/
def addPerf (used : Nat) (perf : Nat → UInt64) (perfStats : List Stats) : List Stats :=
  (List.range used).foldl (fun perfStats i => perfStats.modify i (statsAdd (toDouble (perf i)))) perfStats

theorem addPerf_entry (used : Nat) (perf : Nat → UInt64) (perfStats : List Stats) (i : Nat) :
    (addPerf used perf perfStats)[i]? =
      if i < used then (perfStats[i]?).map (statsAdd (toDouble (perf i))) else perfStats[i]? := by
  unfold addPerf
  induction used with
  | zero => rfl
  | succ used ih =>
    rw [List.range_succ,List.foldl_append,List.foldl_cons,List.foldl_nil,List.getElem?_modify,ih]
    by_cases here : used = i
    · subst here
      rw [if_neg (Nat.lt_irrefl used),if_pos (Nat.lt_succ_self used)]
      simp
    · by_cases before : i < used
      · rw [if_pos before,if_pos (by omega)]
        simp [here]
      · rw [if_neg before,if_neg (by omega)]
        simp [here]

theorem simulation_after (used : Nat) (frames : List (Nat → UInt64)) (perfStats : List Stats) (i : Nat)
    (loaded : i < used) (fits : used ≤ maxSymbols) (room : maxSymbols ≤ perfStats.length) :
    (frames.foldl (fun perfStats perf => addPerf used perf perfStats) (statsInitArray maxSymbols perfStats))[i]? =
      some (statsAfter (durations (frames.map fun perf => (perf i).toNat))) := by
  induction frames using List.reverseRecOn with
  | nil =>
    rw [List.foldl_nil,(initArray_front maxSymbols perfStats room).2 i (by omega)]
    rfl
  | append_singleton frames perf ih =>
    rw [List.foldl_append,List.foldl_cons,List.foldl_nil,addPerf_entry,if_pos loaded,ih,List.map_append,
      List.map_singleton,statsAfter_durations]
    rfl

/-- What a session prints for a function when it ends. -/
theorem simulation_ranges (used : Nat) (frames : List (Nat → UInt64)) (perfStats : List Stats) (i : Nat)
    (loaded : i < used) (fits : used ≤ maxSymbols) (room : maxSymbols ≤ perfStats.length) (some_frame : frames ≠ []) :
    ∃ accum, (frames.foldl (fun perfStats perf => addPerf used perf perfStats)
        (statsInitArray maxSymbols perfStats))[i]? = some accum ∧
      (TrueRange accum (durations (frames.map fun perf => (perf i).toNat)) ↔
        ∃ perf ∈ frames, (perf i).toNat ≤ 4294967295) := by
  refine ⟨_,simulation_after used frames perfStats i loaded fits room,?_⟩
  rw [range_iff _ (by simpa using some_frame)]
  simp only [List.mem_map,exists_exists_and_eq_and]

end Simulation

end Craftsman.Measurement
