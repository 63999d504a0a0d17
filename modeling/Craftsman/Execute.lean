import Craftsman.Dlfn
import Craftsman.Global

/-! The synchronized commands and the simulated frame. Loads and stores around a
function are functors of one append-only table; the pointers in them are
locations of the three static tables they can point into. -/
namespace Craftsman.Execute
open Craftsman.Memory Craftsman.Text Craftsman.Global Craftsman.Dlfn

inductive Loc where
  | global (i : Nat)
  | param (f : Nat) (p : Fin 3)
  | result (f : Nat)
  deriving DecidableEq

inductive Functor where
  | noop
  | copy (dst src : Loc)
  deriving DecidableEq

/-- The static state of the commands. The functor table is zero behind its used entries. -/
structure Engine where
  functions : List Function
  objects : List Object
  globals : List Variable
  result : Nat → Word
  loadParamHandle : Nat → Fin 3 → Int
  saveResultHandle : Nat → Int
  resultFunc : List Functor

def Engine.boot : Engine where
  functions := []
  objects := []
  globals := []
  result := fun _ => 0
  loadParamHandle := fun _ _ => 0
  saveResultHandle := fun _ => 0
  resultFunc := []

def maxFunc : Nat := maxSymbols * 3

def Engine.read (engine : Engine) : Loc → Word
  | .global i => valueAt engine.globals i
  | .param f p => paramAt engine.functions f p
  | .result f => engine.result f

def Engine.write (engine : Engine) (value : Word) : Loc → Engine
  | .global i => {engine with globals := setValue engine.globals i value}
  | .param f p => {engine with functions := setParam engine.functions f p value}
  | .result f => {engine with result := Function.update engine.result f value}

def addResultFunc (engine : Engine) (fnctor : Functor) : Engine × Int :=
  if maxFunc ≤ engine.resultFunc.length then (engine,-1)
  else ({engine with resultFunc := engine.resultFunc ++ [fnctor]},engine.resultFunc.length)

def setLoadParam (text : List Byte) (p : Loc) (engine : Engine) : Engine × Int :=
  match globalGet engine.globals text with
  | none => (engine,0)
  | some var =>
    addResultFunc {engine with globals := setType engine.globals var typeInt} (.copy p (.global var))

def setStoreParam (text : List Byte) (resultPtr : Loc) (engine : Engine) : Engine × Int :=
  match globalGetOrCreate engine.globals text with
  | (globals,none) => ({engine with globals := globals},0)
  | (globals,some var) =>
    addResultFunc {engine with globals := setType globals var typeInt} (.copy (.global var) resultPtr)

/-- The handles of the stored results are not reset here. -/
def executeInit (engine : Engine) : Engine :=
  {engine with result := fun _ => 0, loadParamHandle := fun _ _ => 0, resultFunc := [.noop]}

def openSession {σ : Type} (library : Library σ) (engine : Engine) : Engine :=
  {executeInit engine with functions := (dlfnOpen library).1, objects := (dlfnOpen library).2}

/-- A handle outside the used entries reaches a null pointer, or memory that is no functor. -/
def functorInvoke (engine : Engine) (handle : Int) : Except Stop Engine :=
  if 0 ≤ handle then
    match engine.resultFunc[handle.toNat]? with
    | none => .error .fault
    | some .noop => .ok engine
    | some (.copy dst src) => .ok (engine.write (engine.read src) dst)
  else .error .fault

def callLoadParam (symbolOffset : Nat) (engine : Engine) : Except Stop Engine :=
  [0,1,2].foldlM (fun engine p => functorInvoke engine (engine.loadParamHandle symbolOffset p)) engine

def callStoreResult (symbolOffset : Nat) (engine : Engine) : Except Stop Engine :=
  functorInvoke engine (engine.saveResultHandle symbolOffset)

def firstByte (text : List Byte) : Byte := text.headD 0

def executeSimulation (text : List Byte) : Nat :=
  match tokenize 2 text with
  | _::value::_ => u32 (size (strtol value))
  | _ => 2^32 - 1

def setsGoal (text : List Byte) : Bool := firstByte text = 115

def goalAfter (goal : Nat) (text : List Byte) : Nat := if setsGoal text then executeSimulation text else goal

def bindParam (tokens : List (List Byte)) (fi : Nat) (engine : Engine) (pi : Fin 3) : Engine :=
  match tokens[pi.val + 2]? with
  | none => engine
  | some token =>
    let (bound,func) := setLoadParam token (.param fi pi) engine
    let handles := Function.update (bound.loadParamHandle fi) pi func
    let handled := {bound with loadParamHandle := Function.update bound.loadParamHandle fi handles}
    if func > 0 then handled
    else {handled with functions := setParam handled.functions fi pi (setValueParam token).2}

theorem update_slot {α : Type} (table : Nat → Fin 3 → α) (i : Nat) (p : Fin 3) (value : α) :
    Function.update table i (Function.update (table i) p value) i p = value := by
  rw [Function.update_self,Function.update_self]

theorem update_other {α : Type} (table : Nat → Fin 3 → α) (i j : Nat) (p q : Fin 3) (value : α)
    (apart : ¬ (j = i ∧ q = p)) :
    Function.update table i (Function.update (table i) p value) j q = table j q := by
  by_cases index : j = i
  · subst index
    rw [Function.update_self,Function.update_of_ne fun again => apart ⟨rfl,again⟩]
  · rw [Function.update_of_ne index]

def selects (filter name : List Byte) : Bool := firstByte filter = 42 || filter == name

def bindFunction (tokens : List (List Byte)) (filter : List Byte) (engine : Engine) (fi : Nat) : Engine :=
  match engine.functions[fi]? with
  | none => engine
  | some function =>
    if selects filter function.name then [0,1,2].foldl (bindParam tokens fi) engine else engine

def executeParameter (text : List Byte) (engine : Engine) : Engine :=
  let tokens := tokenize 6 text
  match tokens with
  | _::filter::_ => (List.range engine.functions.length).foldl (bindFunction tokens filter) engine
  | _ => engine

/-- The lookup returns no object for an unknown name, and its address is read all the same. -/
def executeObject (text : List Byte) (engine : Engine) : Except Stop Engine :=
  match tokenize 2 text with
  | _::name::_ =>
    match dlfnGetObject engine.objects name with
    | none => .error .fault
    | some _ => .ok engine
  | _ => .ok engine

def executeVariable (text : List Byte) (engine : Engine) : Engine :=
  match tokenize 3 text with
  | _::name::value::_ =>
    match globalGetOrCreate engine.globals name with
    | (globals,none) => {engine with globals := globals}
    | (globals,some var) =>
      {engine with globals := globals.modify var fun old =>
        {old with value := (setValueParam value).2, type := (setValueParam value).1}}
  | _ => engine

def executeResult (text : List Byte) (engine : Engine) : Engine :=
  match tokenize 3 text with
  | _::name::target::_ =>
    match dlfnGetSymbol engine.functions name with
    | none => engine
    | some symOffset =>
      let (stored,func) := setStoreParam target (.result symOffset) engine
      {stored with saveResultHandle := Function.update stored.saveResultHandle symOffset func}
  | _ => engine

def executeMutation (text : List Byte) (engine : Engine) : Engine :=
  match tokenize 4 text with
  | _::left::opcode::right::_ =>
    match globalGet engine.globals left with
    | none => engine
    | some lhv =>
      let operand := match globalGet engine.globals right with
        | some rhv => Operand.var rhv
        | none => .constant (setValueParam right).1 (setValueParam right).2
      {engine with globals := engine.globals.modify lhv fun old =>
        {old with op := ⟨firstByte opcode,.var lhv,operand⟩}}
  | _ => engine

section Library
variable {σ : Type} (library : Library σ)

def callFunction (functions : List Function) (memory : σ) (i : Nat) : σ × Word :=
  match functions[i]? with
  | none => (memory,0)
  | some function => library.call memory function.call function.param

/-- The cycles of the calls of one function, added up. A sum of doubles is exact
below 2^53, and from there on it is over the threshold anyway. -/
def benchmarkSum (cycles : Nat → Nat → Nat → UInt64) (h i calls : Nat) : Nat :=
  (List.range calls).foldl (fun sum j => sum + (cycles h i j).toNat) 0

def benchmarkFrom (functions : List Function) (cycles : Nat → Nat → Nat → UInt64) :
    Nat → Nat → Nat → Nat → σ → σ
  | 0,_,_,_,memory => memory
  | magnitudes+1,h,calls,slowest,memory =>
    let memory := (List.range functions.length).foldl
      (fun memory i => (fun memory => (callFunction library functions memory i).1)^[calls] memory) memory
    let slowest := (List.range functions.length).foldl
      (fun slowest i => max slowest (benchmarkSum cycles h i calls)) slowest
    if 10000000 < slowest then memory
    else benchmarkFrom functions cycles magnitudes (h+1) (calls*10) slowest memory

def executeBenchmark (functions : List Function) (cycles : Nat → Nat → Nat → UInt64) (memory : σ) : σ :=
  benchmarkFrom library functions cycles 10 0 1 0 memory

structure Game (σ : Type) where
  engine : Engine
  memory : σ
  simulationGoal : Nat

/-- The conditions and the hashes are only printed. -/
def executeAny (cycles : Nat → Nat → Nat → UInt64) (game : Game σ) (text : List Byte) : Except Stop (Game σ) :=
  if firstByte text = 98 then
    .ok {game with memory := executeBenchmark library game.engine.functions cycles game.memory}
  else if firstByte text = 109 then .ok {game with engine := executeMutation text game.engine}
  else if firstByte text = 111 then (executeObject text game.engine).map fun engine => {game with engine := engine}
  else if firstByte text = 112 then .ok {game with engine := executeParameter text game.engine}
  else if firstByte text = 114 then .ok {game with engine := executeResult text game.engine}
  else if firstByte text = 115 then .ok {game with simulationGoal := executeSimulation text}
  else if firstByte text = 118 then .ok {game with engine := executeVariable text game.engine}
  else .ok game

structure Call where
  index : Nat
  args : Fin 3 → Word
  returned : Word

def frameFunction (engine : Engine) (memory : σ) (i : Nat) : Except Stop (Engine × σ × Call) := do
  let loaded ← callLoadParam i engine
  let (memory,returned) := callFunction library loaded.functions memory i
  let stored ← callStoreResult i {loaded with result := Function.update loaded.result i returned}
  return (stored,memory,⟨i,paramAt loaded.functions i,returned⟩)

def frameFrom : List Nat → Engine → σ → Except Stop (Engine × σ × List Call)
  | [],engine,memory => .ok (engine,memory,[])
  | i::order,engine,memory => do
    let (engine,memory,call) ← frameFunction library engine memory i
    let (engine,memory,calls) ← frameFrom order engine memory
    return (engine,memory,call::calls)

def frameBody (unset : Nat → Word) (engine : Engine) (memory : σ) : Except Stop (Engine × σ × List Call) :=
  frameFrom library (List.range engine.functions.length)
    {engine with globals := globalVarOps unset engine.globals} memory

end Library

/-! The loaded objects: no command and no frame changes the table. -/

theorem bindParam_objects (tokens : List (List Byte)) (fi : Nat) (engine : Engine) (p : Fin 3) :
    (bindParam tokens fi engine p).objects = engine.objects := by
  unfold bindParam setLoadParam addResultFunc
  cases tokens[p.val + 2]? with
  | none => rfl
  | some token =>
    dsimp only
    cases globalGet engine.globals token with
    | none => rfl
    | some var =>
      dsimp only
      by_cases full : maxFunc ≤ engine.resultFunc.length
      · simp only [if_pos full]
        split <;> rfl
      · simp only [if_neg full]
        split <;> rfl

theorem executeParameter_objects (text : List Byte) (engine : Engine) :
    (executeParameter text engine).objects = engine.objects := by
  unfold executeParameter
  generalize tokenize 6 text = tokens
  rcases tokens with _ | ⟨command,_ | ⟨filter,rest⟩⟩
  · rfl
  · rfl
  · apply List.foldlRecOn (motive := fun (later : Engine) => later.objects = engine.objects) _ _ rfl
    intro later same i _
    unfold bindFunction
    split
    · exact same
    · split
      · apply List.foldlRecOn (motive := fun (later : Engine) => later.objects = engine.objects) _ _ same
        exact fun later same p _ => (bindParam_objects _ i later p).trans same
      · exact same

theorem executeResult_objects (text : List Byte) (engine : Engine) :
    (executeResult text engine).objects = engine.objects := by
  unfold executeResult setStoreParam addResultFunc
  generalize tokenize 3 text = tokens
  rcases tokens with _ | ⟨command,_ | ⟨name,_ | ⟨target,rest⟩⟩⟩
  · rfl
  · rfl
  · rfl
  · dsimp only
    cases dlfnGetSymbol engine.functions name with
    | none => rfl
    | some i =>
      dsimp only
      rcases globalGetOrCreate engine.globals target with ⟨globals,_ | var⟩
      · rfl
      · dsimp only
        by_cases full : maxFunc ≤ engine.resultFunc.length
        · simp only [if_pos full]
        · simp only [if_neg full]

theorem executeVariable_objects (text : List Byte) (engine : Engine) :
    (executeVariable text engine).objects = engine.objects := by
  unfold executeVariable
  split
  · split <;> rfl
  · rfl

theorem executeMutation_objects (text : List Byte) (engine : Engine) :
    (executeMutation text engine).objects = engine.objects := by
  unfold executeMutation
  split
  · split <;> rfl
  · rfl

theorem executeObject_same (text : List Byte) (engine later : Engine) (ok : executeObject text engine = .ok later) :
    later = engine := by
  unfold executeObject at ok
  split at ok
  · split at ok
    · cases ok
    · exact (Except.ok.inj ok).symm
  · exact (Except.ok.inj ok).symm

section Library
variable {σ : Type} (library : Library σ)

inductive Executed (cycles : Nat → Nat → Nat → UInt64) (game : Game σ) (text : List Byte) : Game σ → Prop
  | benchmark (kind : firstByte text = 98) : Executed cycles game text
      {game with memory := executeBenchmark library game.engine.functions cycles game.memory}
  | mutation (kind : firstByte text = 109) : Executed cycles game text {game with engine := executeMutation text game.engine}
  | parameter (kind : firstByte text = 112) :
      Executed cycles game text {game with engine := executeParameter text game.engine}
  | result (kind : firstByte text = 114) : Executed cycles game text {game with engine := executeResult text game.engine}
  | simulation (kind : firstByte text = 115) : Executed cycles game text {game with simulationGoal := executeSimulation text}
  | assign (kind : firstByte text = 118) : Executed cycles game text {game with engine := executeVariable text game.engine}
  | printed (kind : firstByte text ∉ [98,109,112,114,115,118]) : Executed cycles game text game

theorem executeAny_executed (cycles : Nat → Nat → Nat → UInt64) (game later : Game σ) (text : List Byte)
    (ok : executeAny library cycles game text = .ok later) : Executed library cycles game text later := by
  unfold executeAny at ok
  split at ok
  · next kind =>
    cases ok
    exact .benchmark kind
  split at ok
  · next kind =>
    cases ok
    exact .mutation kind
  split at ok
  · next kind =>
    cases found : executeObject text game.engine with
    | error stop =>
      rw [found] at ok
      cases ok
    | ok engine =>
      rw [found] at ok
      cases ok
      rw [executeObject_same text game.engine engine found]
      exact .printed (by rw [kind]; decide)
  split at ok
  · next kind =>
    cases ok
    exact .parameter kind
  split at ok
  · next kind =>
    cases ok
    exact .result kind
  split at ok
  · next kind =>
    cases ok
    exact .simulation kind
  split at ok
  · next kind =>
    cases ok
    exact .assign kind
  · cases ok
    exact .printed (by simp [*])

theorem executeAny_goal (cycles : Nat → Nat → Nat → UInt64) (game later : Game σ) (text : List Byte)
    (ok : executeAny library cycles game text = .ok later) :
    later.simulationGoal = goalAfter game.simulationGoal text ∧ later.engine.objects = game.engine.objects := by
  have kept (other : firstByte text ≠ 115) : game.simulationGoal = goalAfter game.simulationGoal text := by
    rw [goalAfter,setsGoal,decide_eq_false other,if_neg Bool.false_ne_true]
  cases executeAny_executed library cycles game later text ok with
  | benchmark kind => exact ⟨kept (by rw [kind]; decide),rfl⟩
  | mutation kind => exact ⟨kept (by rw [kind]; decide),executeMutation_objects text game.engine⟩
  | parameter kind => exact ⟨kept (by rw [kind]; decide),executeParameter_objects text game.engine⟩
  | result kind => exact ⟨kept (by rw [kind]; decide),executeResult_objects text game.engine⟩
  | simulation kind => exact ⟨by rw [goalAfter,setsGoal,decide_eq_true kind,if_pos rfl],rfl⟩
  | assign kind => exact ⟨kept (by rw [kind]; decide),executeVariable_objects text game.engine⟩
  | printed kind => exact ⟨kept (by rintro same; simp [same] at kind),rfl⟩

theorem executeAny_regoal (cycles : Nat → Nat → Nat → UInt64) (game later : Game σ) (text : List Byte) (goal : Nat)
    (ok : executeAny library cycles game text = .ok later) :
    executeAny library cycles {game with simulationGoal := goal} text =
      .ok {later with simulationGoal := goalAfter goal text} := by
  unfold goalAfter setsGoal
  unfold executeAny at ok ⊢
  split at ok
  · next kind =>
    cases ok
    simp [kind]
  split at ok
  · next kind =>
    cases ok
    simp [kind]
  split at ok
  · next kind =>
    simp only [kind]
    cases found : executeObject text game.engine with
    | error stop =>
      rw [found] at ok
      cases ok
    | ok engine =>
      rw [found] at ok
      cases ok
      simp [Except.map]
  split at ok
  · next kind =>
    cases ok
    simp [kind]
  split at ok
  · next kind =>
    cases ok
    simp [kind]
  split at ok
  · next kind =>
    cases ok
    simp [kind]
  split at ok
  · next kind =>
    cases ok
    simp [kind]
  · cases ok
    simp [*]

theorem invoke_objects (handle : Int) (engine later : Engine) (ok : functorInvoke engine handle = .ok later) :
    later.objects = engine.objects := by
  unfold functorInvoke at ok
  split at ok
  · split at ok
    · cases ok
    · cases ok
      rfl
    · next dst _ _ =>
      cases ok
      cases dst <;> rfl
  · cases ok

theorem load_objects (i : Nat) (slots : List (Fin 3)) (engine later : Engine)
    (ok : slots.foldlM (fun engine p => functorInvoke engine (engine.loadParamHandle i p)) engine = .ok later) :
    later.objects = engine.objects := by
  induction slots generalizing engine with
  | nil =>
    cases ok
    rfl
  | cons p slots ih =>
    rw [List.foldlM_cons,bind_ok] at ok
    obtain ⟨next,invoked,rest⟩ := ok
    exact (ih next rest).trans (invoke_objects _ engine next invoked)

theorem frameFrom_objects (order : List Nat) (engine later : Engine) (memory memory' : σ) (calls : List Call)
    (ok : frameFrom library order engine memory = .ok (later,memory',calls)) : later.objects = engine.objects := by
  induction order generalizing engine memory calls with
  | nil =>
    cases ok
    rfl
  | cons i order ih =>
    rw [frameFrom,bind_ok] at ok
    obtain ⟨⟨next,middle,call⟩,function,rest⟩ := ok
    obtain ⟨⟨final,end',calls'⟩,frame,same⟩ := (bind_ok _ _ _).mp rest
    cases same
    rw [ih next middle calls' frame]
    unfold frameFunction at function
    obtain ⟨loaded,loads,function⟩ := (bind_ok _ _ _).mp function
    obtain ⟨stored,stores,same⟩ := (bind_ok _ _ _).mp function
    cases same
    exact (invoke_objects _ _ next stores).trans (load_objects i _ engine loaded loads)

theorem frameBody_objects (unset : Nat → Word) (engine later : Engine) (memory memory' : σ) (calls : List Call)
    (ok : frameBody library unset engine memory = .ok (later,memory',calls)) : later.objects = engine.objects := by
  unfold frameBody at ok
  have kept := frameFrom_objects library _ _ later memory memory' calls ok
  exact kept

end Library

end Craftsman.Execute

