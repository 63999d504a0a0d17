import Craftsman.Execute
import Mathlib.Logic.Function.Iterate

/-! Commands and the cycle counter. The benchmark alone reads the counter, and the
readings decide how often it calls the functions of the library. -/
namespace Craftsman.Timing
open Craftsman.Memory Craftsman.Text Craftsman.Dlfn Craftsman.Execute

section Traces
variable {σ : Type}

structure Invocation where
  call : Nat
  args : Fin 3 → Word

/-- A library whose memory also keeps the calls made to it. -/
def tracing (library : Library σ) : Library (σ × List Invocation) where
  symbols := library.symbols
  init := (library.init,[])
  call := fun memory call args =>
    (((library.call memory.1 call args).1,memory.2 ++ [⟨call,args⟩]),(library.call memory.1 call args).2)
  byte := fun memory => library.byte memory.1

def traced (game : Game σ) : Game (σ × List Invocation) := ⟨game.engine,(game.memory,[]),game.simulationGoal⟩

def untraced (game : Game (σ × List Invocation)) : Game σ := ⟨game.engine,game.memory.1,game.simulationGoal⟩

variable (library : Library σ)

theorem callFunction_traced (functions : List Function) (memory : σ × List Invocation) (i : Nat) :
    ((callFunction (tracing library) functions memory i).1).1 = (callFunction library functions memory.1 i).1 := by
  unfold callFunction
  cases functions[i]? <;> rfl

theorem benchmark_traced (functions : List Function) (cycles : Nat → Nat → Nat → UInt64) (magnitudes h calls slowest : Nat)
    (memory : σ × List Invocation) :
    (benchmarkFrom (tracing library) functions cycles magnitudes h calls slowest memory).1 =
      benchmarkFrom library functions cycles magnitudes h calls slowest memory.1 := by
  induction magnitudes generalizing h calls slowest memory with
  | zero => rfl
  | succ magnitudes ih =>
    have round (order : List Nat) (memory : σ × List Invocation) :
        (order.foldl (fun memory i =>
            (fun memory => (callFunction (tracing library) functions memory i).1)^[calls] memory) memory).1 =
          order.foldl (fun memory i => (fun memory => (callFunction library functions memory i).1)^[calls] memory)
            memory.1 := by
      induction order generalizing memory with
      | nil => rfl
      | cons i order ih =>
        have same : Function.Semiconj Prod.fst (fun memory => (callFunction (tracing library) functions memory i).1)
            (fun memory => (callFunction library functions memory i).1) :=
          fun memory => callFunction_traced library functions memory i
        rw [List.foldl_cons,List.foldl_cons,ih,(same.iterate_right calls) memory]
    rw [benchmarkFrom,benchmarkFrom,← round]
    split
    · rfl
    · exact ih _ _ _ _

theorem executeAny_traced (cycles : Nat → Nat → Nat → UInt64) (game : Game (σ × List Invocation)) (text : List Byte) :
    (executeAny (tracing library) cycles game text).map untraced = executeAny library cycles (untraced game) text := by
  unfold executeAny
  split
  · change Except.ok _ = Except.ok _
    rw [untraced,executeBenchmark,benchmark_traced]
    rfl
  · split
    · rfl
    · split
      · dsimp only [untraced]
        cases executeObject text game.engine <;> rfl
      · split
        · rfl
        · split
          · rfl
          · split
            · rfl
            · split <;> rfl

end Traces

section Counters
variable {σ : Type} (library : Library σ)

theorem executeAny_timeless (cycles cycles' : Nat → Nat → Nat → UInt64) (game : Game σ) (text : List Byte)
    (timeless : firstByte text = 98 → executeBenchmark library game.engine.functions cycles game.memory =
      executeBenchmark library game.engine.functions cycles' game.memory) :
    executeAny library cycles game text = executeAny library cycles' game text := by
  unfold executeAny
  by_cases benchmark : firstByte text = 98
  · rw [if_pos benchmark,if_pos benchmark,timeless benchmark]
  · rw [if_neg benchmark,if_neg benchmark]

theorem benchmark_empty (cycles : Nat → Nat → Nat → UInt64) (magnitudes h calls slowest : Nat) (memory : σ) :
    benchmarkFrom library [] cycles magnitudes h calls slowest memory = memory := by
  induction magnitudes generalizing h calls slowest with
  | zero => rfl
  | succ magnitudes ih =>
    rw [benchmarkFrom]
    split
    · rfl
    · exact ih _ _ _

theorem benchmarkSum_const (cycles : UInt64) (h i calls : Nat) :
    benchmarkSum (fun _ _ _ => cycles) h i calls = calls * cycles.toNat := by
  unfold benchmarkSum
  induction calls with
  | zero => exact (Nat.zero_mul _).symm
  | succ calls ih => rw [List.range_succ,List.foldl_append,ih,List.foldl_cons,List.foldl_nil,Nat.succ_mul]

theorem repeated_calls (functions : List Function) (i : Nat) (inside : i < functions.length) (calls : Nat)
    (memory : σ × List Invocation) :
    ((fun memory => (callFunction (tracing library) functions memory i).1)^[calls] memory).2.length =
      memory.2.length + calls := by
  have one (memory : σ × List Invocation) :
      ((callFunction (tracing library) functions memory i).1).2.length = memory.2.length + 1 := by
    unfold callFunction
    rw [List.getElem?_eq_getElem inside]
    exact List.length_append
  induction calls generalizing memory with
  | zero => rfl
  | succ calls ih =>
    rw [Function.iterate_succ_apply,ih,one]
    omega

theorem round_calls (functions : List Function) (calls : Nat) (order : List Nat)
    (inside : ∀ i ∈ order, i < functions.length) (memory : σ × List Invocation) :
    (order.foldl (fun memory i =>
        (fun memory => (callFunction (tracing library) functions memory i).1)^[calls] memory) memory).2.length =
      memory.2.length + order.length * calls := by
  induction order generalizing memory with
  | nil => rw [List.foldl_nil,List.length_nil,Nat.zero_mul,Nat.add_zero]
  | cons i order ih =>
    rw [List.foldl_cons,ih fun j member => inside j (List.mem_cons_of_mem _ member),
      repeated_calls library functions i (inside i List.mem_cons_self),List.length_cons,Nat.succ_mul]
    omega

theorem benchmark_grows (functions : List Function) (cycles : Nat → Nat → Nat → UInt64) (magnitudes h calls slowest : Nat)
    (memory : σ × List Invocation) :
    memory.2.length ≤
      (benchmarkFrom (tracing library) functions cycles magnitudes h calls slowest memory).2.length := by
  induction magnitudes generalizing h calls slowest memory with
  | zero => exact Nat.le_refl _
  | succ magnitudes ih =>
    have round := round_calls library functions calls (List.range functions.length) (fun i => List.mem_range.mp) memory
    rw [benchmarkFrom]
    split
    · omega
    · apply Nat.le_trans _ (ih _ _ _ _)
      omega

theorem benchmark_fast (functions : List Function) (memory : σ × List Invocation) :
    memory.2.length + functions.length * 11 ≤
      (executeBenchmark (tracing library) functions (fun _ _ _ => 0) memory).2.length := by
  have nothing (h calls : Nat) : (List.range functions.length).foldl
      (fun slowest i => max slowest (benchmarkSum (fun _ _ _ => 0) h i calls)) 0 = 0 := by
    apply List.foldlRecOn (motive := (· = 0)) _ _ rfl
    rintro _ rfl i _
    rw [benchmarkSum_const]
    rfl
  have size : (List.range functions.length).length = functions.length := List.length_range
  unfold executeBenchmark
  rw [benchmarkFrom,nothing,if_neg (by decide),benchmarkFrom,nothing,if_neg (by decide)]
  apply Nat.le_trans _ (benchmark_grows library functions _ _ _ _ _ _)
  rw [round_calls library functions _ _ (fun i => List.mem_range.mp),
    round_calls library functions _ _ (fun i => List.mem_range.mp),size]
  omega

theorem benchmark_slow (functions : List Function) (loaded : functions ≠ []) (memory : σ × List Invocation) :
    (executeBenchmark (tracing library) functions (fun _ _ _ => 20000000) memory).2.length =
      memory.2.length + functions.length := by
  have long : 10000000 < (List.range functions.length).foldl
      (fun slowest i => max slowest (benchmarkSum (fun _ _ _ => 20000000) 0 i 1)) 0 := by
    obtain ⟨n,size⟩ := Nat.exists_eq_succ_of_ne_zero (fun none => loaded (List.length_eq_zero_iff.mp none))
    rw [size,List.range_succ,List.foldl_append,List.foldl_cons,List.foldl_nil,benchmarkSum_const]
    exact Nat.lt_of_lt_of_le (by decide) (Nat.le_max_right _ _)
  unfold executeBenchmark
  rw [benchmarkFrom,if_pos long,round_calls library functions _ _ (fun i => List.mem_range.mp),List.length_range,Nat.mul_one]

/-- Whatever the counter reads, a command leaves the same state and makes the same calls. -/
def ReplicaDeterministic (game : Game σ) (text : List Byte) : Prop :=
  ∀ cycles cycles', executeAny (tracing library) cycles (traced game) text =
    executeAny (tracing library) cycles' (traced game) text

theorem benchmark_timed (game : Game σ) (text : List Byte) (benchmark : firstByte text = 98)
    (loaded : game.engine.functions ≠ []) : ¬ ReplicaDeterministic library game text := by
  intro deterministic
  have same := deterministic (fun _ _ _ => 0) (fun _ _ _ => 20000000)
  unfold executeAny at same
  rw [if_pos benchmark,if_pos benchmark] at same
  have lengths := congrArg (fun memory => memory.2.length) (Game.mk.inj (Except.ok.inj same)).2.1
  have fast := benchmark_fast library game.engine.functions (game.memory,[])
  have slow := benchmark_slow library game.engine.functions loaded (game.memory,[])
  have some_function := List.length_pos_iff.mpr loaded
  dsimp only [traced] at lengths
  omega

/-- A command does not depend on local timing if and only if it is no benchmark
or there is no function to call. -/
theorem replica_deterministic_iff (game : Game σ) (text : List Byte) :
    ReplicaDeterministic library game text ↔ firstByte text ≠ 98 ∨ game.engine.functions = [] := by
  constructor
  · intro deterministic
    by_contra neither
    obtain ⟨benchmark,loaded⟩ := not_or.mp neither
    exact benchmark_timed library game text (not_not.mp benchmark) loaded deterministic
  · intro timeless cycles cycles'
    apply executeAny_timeless
    intro benchmark
    rcases timeless with other | empty
    · exact absurd benchmark other
    · have none : (traced game).engine.functions = [] := empty
      rw [none,executeBenchmark,executeBenchmark,benchmark_empty,benchmark_empty]

/-- The benchmark of a library with one function. -/
theorem benchmark_differs : ¬ ReplicaDeterministic sumLibrary ⟨openSession sumLibrary .boot,(),0⟩ [98] := by
  apply benchmark_timed sumLibrary _ _ rfl
  change (dlfnOpen sumLibrary).1 ≠ []
  rw [sumLibrary_functions]
  exact List.cons_ne_nil _ _

end Counters

end Craftsman.Timing
