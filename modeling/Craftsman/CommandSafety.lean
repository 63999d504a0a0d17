import Craftsman.Handles

/-! Memory safety of the commands. The commands once more, with every access of a
static table, of the token array and through a looked-up pointer tested; a test
that fails is a fault. The tests never fail but for one pointer. -/
namespace Craftsman.CommandSafety
open Craftsman.Memory Craftsman.Text Craftsman.Global Craftsman.Dlfn Craftsman.Execute Craftsman.Handles

section Accesses

/-- An access of entry `i` of a table with room for `room` entries. -/
def access (room i : Nat) : Except Stop Unit := if i < room then .ok () else .error .fault

/-- The entries of the token array are set up to the token count. -/
def tokenAt (tokens : List (List Byte)) (i : Nat) : Except Stop (List Byte) :=
  match tokens[i]? with
  | none => .error .fault
  | some token => .ok token

def checkedTokenize (tokenCount : Nat) (text : List Byte) : Except Stop (List (List Byte)) := do
  forM (List.range (tokenize tokenCount text).length) (access tokenCount)
  return tokenize tokenCount text

def scan {α : Type} (room : Nat) (same : α → Bool) : List α → Nat → Except Stop (Option Nat)
  | [],_ => .ok none
  | entry::later,i => do
    access room i
    if same entry then return some i else scan room same later (i + 1)

theorem access_inside {room i : Nat} (inside : i < room) : access room i = .ok () := if_pos inside

theorem access_all (room count : Nat) (inside : count ≤ room) : forM (List.range count) (access room) = Except.ok () := by
  have each (order : List Nat) (inside : ∀ i ∈ order, i < room) : forM order (access room) = Except.ok () := by
    induction order with
    | nil => rfl
    | cons i order ih =>
      rw [List.forM_cons,access_inside (inside i List.mem_cons_self),ok_bind]
      exact ih fun j member => inside j (List.mem_cons_of_mem _ member)
  exact each _ fun i member => (List.mem_range.mp member).trans_le inside

theorem tokenizeFrom_length (left : Nat) (text : List Byte) : (tokenizeFrom left text).length ≤ left + 1 := by
  induction text generalizing left with
  | nil =>
    unfold tokenizeFrom
    exact Nat.le_add_left 1 left
  | cons c rest ih =>
    cases left with
    | zero => exact Nat.le_refl 1
    | succ left =>
      rw [tokenizeFrom]
      split
      · exact Nat.succ_le_succ (ih left)
      · have shorter := ih (left + 1)
        split
        · exact Nat.succ_le_succ (Nat.zero_le _)
        · next token later found =>
          rwa [found] at shorter

theorem tokenize_some (tokenCount : Nat) (text : List Byte) : tokenize tokenCount text ≠ [] := by
  unfold tokenize
  generalize tokenCount - 1 = left
  cases text with
  | nil =>
    unfold tokenizeFrom
    exact List.cons_ne_nil _ _
  | cons c rest =>
    cases left with
    | zero => exact List.cons_ne_nil _ _
    | succ left =>
      rw [tokenizeFrom]
      split
      · exact List.cons_ne_nil _ _
      · split <;> exact List.cons_ne_nil _ _

theorem checkedTokenize_ok (tokenCount : Nat) (text : List Byte) (room : 1 ≤ tokenCount) :
    checkedTokenize tokenCount text = .ok (tokenize tokenCount text) := by
  have length := tokenizeFrom_length (tokenCount - 1) text
  rw [checkedTokenize,access_all _ _ (by unfold tokenize; omega)]
  rfl

theorem scan_ok {α : Type} (room : Nat) (same : α → Bool) (table : List α) (i : Nat) (inside : i + table.length ≤ room) :
    scan room same table i = .ok ((table.findIdx? same).map (· + i)) := by
  induction table generalizing i with
  | nil => rfl
  | cons entry table ih =>
    rw [List.length_cons] at inside
    rw [scan,access_inside (by omega),ok_bind,List.findIdx?_cons]
    cases same entry with
    | true =>
      rw [if_pos rfl,if_pos rfl,Option.map_some,Nat.zero_add]
      rfl
    | false =>
      rw [if_neg Bool.false_ne_true,if_neg Bool.false_ne_true,ih (i + 1) (by omega),Option.map_map]
      congr 2
      funext j
      simp only [Function.comp_apply]
      omega

theorem scan_start {α : Type} (room : Nat) (same : α → Bool) (table : List α) (inside : table.length ≤ room) :
    scan room same table 0 = .ok (table.findIdx? same) := by
  rw [scan_ok room same table 0 (by omega)]
  cases table.findIdx? same <;> rfl

end Accesses

section Commands

def checkedGet (globals : List Variable) (name : List Byte) : Except Stop (Option Nat) :=
  scan maxVariable (fun var => sameName name var.name) globals 0

def checkedGetOrCreate (globals : List Variable) (name : List Byte) : Except Stop (List Variable × Option Nat) := do
  match ← checkedGet globals name with
  | some i => return (globals,some i)
  | none =>
    if maxVariable ≤ globals.length then return (globals,none)
    else
      access maxVariable globals.length
      return (globals ++ [globalInit name],some globals.length)

def checkedAddResultFunc (engine : Engine) (fnctor : Functor) : Except Stop (Engine × Int) :=
  if maxFunc ≤ engine.resultFunc.length then .ok (engine,-1)
  else do
    access maxFunc engine.resultFunc.length
    return ({engine with resultFunc := engine.resultFunc ++ [fnctor]},engine.resultFunc.length)

def checkedLoadParam (text : List Byte) (p : Loc) (engine : Engine) : Except Stop (Engine × Int) := do
  match ← checkedGet engine.globals text with
  | none => return (engine,0)
  | some var =>
    access maxVariable var
    checkedAddResultFunc {engine with globals := setType engine.globals var typeInt} (.copy p (.global var))

def checkedStoreParam (text : List Byte) (resultPtr : Loc) (engine : Engine) : Except Stop (Engine × Int) := do
  match ← checkedGetOrCreate engine.globals text with
  | (globals,none) => return ({engine with globals := globals},0)
  | (globals,some var) =>
    access maxVariable var
    checkedAddResultFunc {engine with globals := setType globals var typeInt} (.copy (.global var) resultPtr)

/-- The function table and the table of the load handles have the same room. -/
def checkedBindParam (tokens : List (List Byte)) (fi : Nat) (engine : Engine) (pi : Fin 3) : Except Stop Engine :=
  if tokens.length ≤ pi.val + 2 then .ok engine
  else do
    let token ← tokenAt tokens (pi.val + 2)
    access maxSymbols fi
    let (bound,func) ← checkedLoadParam token (.param fi pi) engine
    let handles := Function.update (bound.loadParamHandle fi) pi func
    let handled := {bound with loadParamHandle := Function.update bound.loadParamHandle fi handles}
    if func > 0 then return handled
    else return {handled with functions := setParam handled.functions fi pi (setValueParam token).2}

def checkedBindFunction (tokens : List (List Byte)) (engine : Engine) (fi : Nat) : Except Stop Engine := do
  let filter ← tokenAt tokens 1
  access maxSymbols fi
  match engine.functions[fi]? with
  | none => .error .fault
  | some function =>
    if selects filter function.name then [0,1,2].foldlM (checkedBindParam tokens fi) engine else return engine

def checkedParameter (text : List Byte) (engine : Engine) : Except Stop Engine := do
  let tokens ← checkedTokenize 6 text
  if tokens.length < 2 then return engine
  else (List.range engine.functions.length).foldlM (checkedBindFunction tokens) engine

/-- The object's address is read without a test of the lookup. -/
def checkedObject (text : List Byte) (engine : Engine) : Except Stop Engine := do
  let tokens ← checkedTokenize 2 text
  if tokens.length < 2 then return engine
  else
    let name ← tokenAt tokens 1
    match ← scan maxSymbols (fun object => name == object.name) engine.objects 0 with
    | none => .error .fault
    | some i =>
      access maxSymbols i
      return engine

def checkedHash (engine : Engine) : Except Stop Unit := forM (List.range engine.objects.length) (access maxSymbols)

def checkedVariable (text : List Byte) (engine : Engine) : Except Stop Engine := do
  let tokens ← checkedTokenize 3 text
  if tokens.length < 3 then return engine
  else
    let name ← tokenAt tokens 1
    match ← checkedGetOrCreate engine.globals name with
    | (globals,none) => return {engine with globals := globals}
    | (globals,some var) =>
      let value ← tokenAt tokens 2
      access maxVariable var
      return {engine with globals := globals.modify var fun old =>
        {old with value := (setValueParam value).2, type := (setValueParam value).1}}

/-- The results and the handles of the stored results have the room of the functions. -/
def checkedResult (text : List Byte) (engine : Engine) : Except Stop Engine := do
  let tokens ← checkedTokenize 3 text
  if tokens.length < 3 then return engine
  else
    let name ← tokenAt tokens 1
    match ← scan maxSymbols (fun function => name == function.name) engine.functions 0 with
    | none => return engine
    | some symOffset =>
      let target ← tokenAt tokens 2
      access maxSymbols symOffset
      let (stored,func) ← checkedStoreParam target (.result symOffset) engine
      return {stored with saveResultHandle := Function.update stored.saveResultHandle symOffset func}

def checkedMutation (text : List Byte) (engine : Engine) : Except Stop Engine := do
  let tokens ← checkedTokenize 4 text
  if tokens.length < 4 then return engine
  else
    let left ← tokenAt tokens 1
    let right ← tokenAt tokens 3
    let lhv ← checkedGet engine.globals left
    let rhv ← checkedGet engine.globals right
    match lhv with
    | none => return engine
    | some lhv =>
      let opcode ← tokenAt tokens 2
      let operand := match rhv with
        | some rhv => Operand.var rhv
        | none => .constant (setValueParam right).1 (setValueParam right).2
      access maxVariable lhv
      return {engine with globals := engine.globals.modify lhv fun old =>
        {old with op := ⟨firstByte opcode,.var lhv,operand⟩}}

def checkedOperand : Operand → Except Stop Unit
  | .var i => access maxVariable i
  | .constant _ _ => .ok ()

def checkedCondition (text : List Byte) (engine : Engine) : Except Stop Unit := do
  let tokens ← checkedTokenize 4 text
  if tokens.length < 4 then return ()
  else
    let left ← tokenAt tokens 1
    let right ← tokenAt tokens 3
    let operand (name : List Byte) : Option Nat → Operand
      | some var => .var var
      | none => .constant (setValueParam name).1 (setValueParam name).2
    let lhv ← checkedGet engine.globals left
    let rhv ← checkedGet engine.globals right
    let _ ← tokenAt tokens 2
    checkedOperand (operand left lhv)
    checkedOperand (operand right rhv)

variable {σ : Type} (library : Library σ)

def checkedBenchmark (functions : List Function) (cycles : Nat → Nat → Nat → UInt64) (memory : σ) : Except Stop σ := do
  forM (List.range functions.length) (access maxSymbols)
  return executeBenchmark library functions cycles memory

def checkedAny (cycles : Nat → Nat → Nat → UInt64) (game : Game σ) (text : List Byte) : Except Stop (Game σ) := do
  if firstByte text = 98 then
    let memory ← checkedBenchmark library game.engine.functions cycles game.memory
    return {game with memory := memory}
  else if firstByte text = 99 then
    checkedCondition text game.engine
    return game
  else if firstByte text = 104 then
    checkedHash game.engine
    return game
  else if firstByte text = 109 then
    let engine ← checkedMutation text game.engine
    return {game with engine := engine}
  else if firstByte text = 111 then
    let engine ← checkedObject text game.engine
    return {game with engine := engine}
  else if firstByte text = 112 then
    let engine ← checkedParameter text game.engine
    return {game with engine := engine}
  else if firstByte text = 114 then
    let engine ← checkedResult text game.engine
    return {game with engine := engine}
  else if firstByte text = 115 then
    let tokens ← checkedTokenize 2 text
    if tokens.length = 1 then return {game with simulationGoal := executeSimulation text}
    else
      let _ ← tokenAt tokens 1
      return {game with simulationGoal := executeSimulation text}
  else if firstByte text = 118 then
    let engine ← checkedVariable text game.engine
    return {game with engine := engine}
  else return game

end Commands

section Agreement

structure Roomy (engine : Engine) : Prop where
  functions : engine.functions.length ≤ maxSymbols
  objects : engine.objects.length ≤ maxSymbols
  globals : engine.globals.length ≤ maxVariable

theorem tokenAt_ok (tokens : List (List Byte)) (i : Nat) (token : List Byte) (found : tokens[i]? = some token) :
    tokenAt tokens i = .ok token := by
  rw [tokenAt,found]

theorem checkedGet_ok (globals : List Variable) (name : List Byte) (room : globals.length ≤ maxVariable) :
    checkedGet globals name = .ok (globalGet globals name) :=
  scan_start maxVariable _ globals room

theorem checkedGetOrCreate_ok (globals : List Variable) (name : List Byte) (room : globals.length ≤ maxVariable) :
    checkedGetOrCreate globals name = .ok (globalGetOrCreate globals name) := by
  rw [checkedGetOrCreate,checkedGet_ok globals name room,ok_bind,globalGetOrCreate]
  cases globalGet globals name with
  | some i => rfl
  | none =>
    dsimp only
    by_cases full : maxVariable ≤ globals.length
    · rw [if_pos full,if_pos full]
      rfl
    · rw [if_neg full,if_neg full,access_inside (Nat.lt_of_not_le full)]
      rfl

theorem getOrCreate_room (globals later : List Variable) (name : List Byte) (var : Option Nat)
    (room : globals.length ≤ maxVariable) (created : globalGetOrCreate globals name = (later,var)) :
    later.length ≤ maxVariable ∧ ∀ i, var = some i → i < maxVariable := by
  unfold globalGetOrCreate at created
  split at created
  · next i found =>
    cases created
    refine ⟨room,?_⟩
    rintro j ⟨⟩
    exact (globalGet_inside globals name i found).trans_le room
  · split at created
    · cases created
      exact ⟨room,fun i none => nomatch none⟩
    · next full =>
      cases created
      have more : globals.length < maxVariable := Nat.lt_of_not_le full
      refine ⟨by rw [List.length_append]; exact more,?_⟩
      rintro j ⟨⟩
      exact more

theorem checkedAddResultFunc_ok (engine : Engine) (fnctor : Functor) :
    checkedAddResultFunc engine fnctor = .ok (addResultFunc engine fnctor) := by
  unfold checkedAddResultFunc addResultFunc
  by_cases full : maxFunc ≤ engine.resultFunc.length
  · rw [if_pos full,if_pos full]
  · rw [if_neg full,if_neg full,access_inside (Nat.lt_of_not_le full)]
    rfl

theorem checkedLoadParam_ok (text : List Byte) (p : Loc) (engine : Engine) (room : engine.globals.length ≤ maxVariable) :
    checkedLoadParam text p engine = .ok (setLoadParam text p engine) := by
  rw [checkedLoadParam,checkedGet_ok _ text room,ok_bind,setLoadParam]
  cases found : globalGet engine.globals text with
  | none => rfl
  | some var =>
    dsimp only
    rw [access_inside ((globalGet_inside _ _ _ found).trans_le room),ok_bind,checkedAddResultFunc_ok]

theorem checkedStoreParam_ok (text : List Byte) (resultPtr : Loc) (engine : Engine)
    (room : engine.globals.length ≤ maxVariable) :
    checkedStoreParam text resultPtr engine = .ok (setStoreParam text resultPtr engine) := by
  rw [checkedStoreParam,checkedGetOrCreate_ok _ text room,ok_bind,setStoreParam]
  rcases created : globalGetOrCreate engine.globals text with ⟨globals,_ | var⟩
  · rfl
  · dsimp only
    rw [access_inside ((getOrCreate_room _ _ _ _ room created).2 var rfl),ok_bind,checkedAddResultFunc_ok]

theorem bindParam_room (tokens : List (List Byte)) (fi : Nat) (engine : Engine) (p : Fin 3) :
    (bindParam tokens fi engine p).functions.length = engine.functions.length ∧
      (bindParam tokens fi engine p).globals.length = engine.globals.length := by
  have loaded (token : List Byte) : (setLoadParam token (.param fi p) engine).1.functions = engine.functions ∧
      (setLoadParam token (.param fi p) engine).1.globals.length = engine.globals.length := by
    unfold setLoadParam addResultFunc
    cases globalGet engine.globals token with
    | none => exact ⟨rfl,rfl⟩
    | some var =>
      dsimp only
      split
      · exact ⟨rfl,List.length_modify ..⟩
      · exact ⟨rfl,List.length_modify ..⟩
  unfold bindParam
  cases tokens[p.val + 2]? with
  | none => exact ⟨rfl,rfl⟩
  | some token =>
    obtain ⟨functions,globals⟩ := loaded token
    dsimp only
    split
    · exact ⟨congrArg List.length functions,globals⟩
    · refine ⟨?_,globals⟩
      rw [setParam,List.length_modify,functions]

theorem checkedBindParam_ok (tokens : List (List Byte)) (fi : Nat) (engine : Engine) (p : Fin 3) (inside : fi < maxSymbols)
    (room : engine.globals.length ≤ maxVariable) :
    checkedBindParam tokens fi engine p = .ok (bindParam tokens fi engine p) := by
  unfold checkedBindParam bindParam
  cases found : tokens[p.val + 2]? with
  | none => rw [if_pos (List.getElem?_eq_none_iff.mp found)]
  | some token =>
    have more := (List.getElem?_eq_some_iff.mp found).1
    rw [if_neg (Nat.not_le_of_lt more),tokenAt_ok _ _ _ found,ok_bind,access_inside inside,ok_bind,
      checkedLoadParam_ok _ _ _ room,ok_bind]
    dsimp only
    split <;> rfl

theorem foldlM_ok {α β : Type} (checked : β → α → Except Stop β) (step : β → α → β) (keeps : β → Prop) (order : List α)
    (start : β) (holds : keeps start)
    (each : ∀ state, ∀ item ∈ order, keeps state → checked state item = .ok (step state item) ∧ keeps (step state item)) :
    order.foldlM checked start = .ok (order.foldl step start) := by
  induction order generalizing start with
  | nil => rfl
  | cons item order ih =>
    obtain ⟨first,next⟩ := each start item List.mem_cons_self holds
    rw [List.foldlM_cons,first,ok_bind,List.foldl_cons]
    exact ih _ next fun state other member => each state other (List.mem_cons_of_mem _ member)

theorem bindSlots_room (tokens : List (List Byte)) (fi : Nat) (slots : List (Fin 3)) (engine : Engine) :
    (slots.foldl (bindParam tokens fi) engine).functions.length = engine.functions.length ∧
      (slots.foldl (bindParam tokens fi) engine).globals.length = engine.globals.length := by
  apply List.foldlRecOn (motive := fun (later : Engine) =>
    later.functions.length = engine.functions.length ∧ later.globals.length = engine.globals.length) _ _ ⟨rfl,rfl⟩
  rintro later ⟨functions,globals⟩ p _
  obtain ⟨functions',globals'⟩ := bindParam_room tokens fi later p
  exact ⟨functions'.trans functions,globals'.trans globals⟩

theorem bindFunction_room (tokens : List (List Byte)) (filter : List Byte) (engine : Engine) (fi : Nat) :
    (bindFunction tokens filter engine fi).functions.length = engine.functions.length ∧
      (bindFunction tokens filter engine fi).globals.length = engine.globals.length := by
  unfold bindFunction
  split
  · exact ⟨rfl,rfl⟩
  · split
    · exact bindSlots_room tokens fi _ engine
    · exact ⟨rfl,rfl⟩

theorem checkedBindFunction_ok (tokens : List (List Byte)) (filter : List Byte) (engine : Engine) (fi : Nat)
    (found : tokens[1]? = some filter) (inside : fi < engine.functions.length)
    (functions : engine.functions.length ≤ maxSymbols) (globals : engine.globals.length ≤ maxVariable) :
    checkedBindFunction tokens engine fi = .ok (bindFunction tokens filter engine fi) := by
  rw [checkedBindFunction,tokenAt_ok _ _ _ found,ok_bind,access_inside (inside.trans_le functions),ok_bind,bindFunction,
    List.getElem?_eq_getElem inside]
  dsimp only
  split
  · apply foldlM_ok _ _ (fun (later : Engine) => later.globals.length ≤ maxVariable) _ _ globals
    intro later p _ room
    refine ⟨checkedBindParam_ok tokens fi later p (inside.trans_le functions) room,?_⟩
    rw [(bindParam_room tokens fi later p).2]
    exact room
  · rfl

theorem checkedParameter_ok (text : List Byte) (engine : Engine) (roomy : Roomy engine) :
    checkedParameter text engine = .ok (executeParameter text engine) := by
  rw [checkedParameter,checkedTokenize_ok 6 text (by decide),ok_bind,executeParameter]
  generalize tokenize 6 text = tokens
  rcases tokens with _ | ⟨command,_ | ⟨filter,rest⟩⟩
  · rfl
  · rfl
  · rw [if_neg (by simp)]
    apply foldlM_ok _ _ (fun (later : Engine) => later.functions.length = engine.functions.length ∧
      later.globals.length ≤ maxVariable) _ _ ⟨rfl,roomy.globals⟩
    rintro later fi member ⟨functions,globals⟩
    have inside := List.mem_range.mp member
    obtain ⟨functions',globals'⟩ := bindFunction_room (command::filter::rest) filter later fi
    refine ⟨checkedBindFunction_ok _ filter later fi rfl (by omega) ?_ globals,functions'.trans functions,?_⟩
    · rw [functions]
      exact roomy.functions
    · rw [globals']
      exact globals

theorem checkedObject_ok (text : List Byte) (engine : Engine) (roomy : Roomy engine) :
    checkedObject text engine = executeObject text engine := by
  rw [checkedObject,checkedTokenize_ok 2 text (by decide),ok_bind,executeObject]
  generalize tokenize 2 text = tokens
  rcases tokens with _ | ⟨command,_ | ⟨name,rest⟩⟩
  · rfl
  · rfl
  · rw [if_neg (by simp),tokenAt_ok _ 1 name rfl,ok_bind,scan_start _ _ _ roomy.objects,ok_bind]
    dsimp only
    rw [dlfnGetObject]
    cases found : engine.objects.findIdx? (fun object => name == object.name) with
    | none =>
      rw [List.findIdx?_eq_none_iff] at found
      rw [List.find?_eq_none.mpr (by simpa using found)]
    | some i =>
      obtain ⟨inside,here,_⟩ := List.findIdx?_eq_some_iff_getElem.mp found
      have present : (engine.objects.find? fun object => name == object.name).isSome :=
        List.find?_isSome.mpr ⟨engine.objects[i],List.getElem_mem inside,here⟩
      obtain ⟨object,known⟩ := Option.isSome_iff_exists.mp present
      rw [known]
      dsimp only
      rw [access_inside (inside.trans_le roomy.objects)]
      rfl

theorem checkedVariable_ok (text : List Byte) (engine : Engine) (roomy : Roomy engine) :
    checkedVariable text engine = .ok (executeVariable text engine) := by
  rw [checkedVariable,checkedTokenize_ok 3 text (by decide),ok_bind,executeVariable]
  generalize tokenize 3 text = tokens
  rcases tokens with _ | ⟨command,_ | ⟨name,_ | ⟨value,rest⟩⟩⟩
  · rfl
  · rfl
  · rfl
  · rw [if_neg (by simp),tokenAt_ok _ 1 name rfl,ok_bind,checkedGetOrCreate_ok _ _ roomy.globals,ok_bind]
    dsimp only
    rcases created : globalGetOrCreate engine.globals name with ⟨globals,_ | var⟩
    · rfl
    · dsimp only
      rw [tokenAt_ok _ 2 value rfl,ok_bind,access_inside ((getOrCreate_room _ _ _ _ roomy.globals created).2 var rfl)]
      rfl

theorem checkedResult_ok (text : List Byte) (engine : Engine) (roomy : Roomy engine) :
    checkedResult text engine = .ok (executeResult text engine) := by
  rw [checkedResult,checkedTokenize_ok 3 text (by decide),ok_bind,executeResult]
  generalize tokenize 3 text = tokens
  rcases tokens with _ | ⟨command,_ | ⟨name,_ | ⟨target,rest⟩⟩⟩
  · rfl
  · rfl
  · rfl
  · rw [if_neg (by simp),tokenAt_ok _ 1 name rfl,ok_bind,scan_start _ _ _ roomy.functions,ok_bind]
    dsimp only
    rw [dlfnGetSymbol]
    cases found : engine.functions.findIdx? (fun function => name == function.name) with
    | none => rfl
    | some i =>
      obtain ⟨inside,_⟩ := List.findIdx?_eq_some_iff_getElem.mp found
      dsimp only
      rw [tokenAt_ok _ 2 target rfl,ok_bind,access_inside (inside.trans_le roomy.functions),ok_bind,
        checkedStoreParam_ok _ _ _ roomy.globals]
      rfl

theorem checkedMutation_ok (text : List Byte) (engine : Engine) (roomy : Roomy engine) :
    checkedMutation text engine = .ok (executeMutation text engine) := by
  rw [checkedMutation,checkedTokenize_ok 4 text (by decide),ok_bind,executeMutation]
  generalize tokenize 4 text = tokens
  rcases tokens with _ | ⟨command,_ | ⟨left,_ | ⟨opcode,_ | ⟨right,rest⟩⟩⟩⟩
  · rfl
  · rfl
  · rfl
  · rfl
  · rw [if_neg (by simp),tokenAt_ok _ 1 left rfl,ok_bind,tokenAt_ok _ 3 right rfl,ok_bind,
      checkedGet_ok _ _ roomy.globals,ok_bind,checkedGet_ok _ _ roomy.globals,ok_bind]
    dsimp only
    cases found : globalGet engine.globals left with
    | none => rfl
    | some lhv =>
      dsimp only
      rw [tokenAt_ok _ 2 opcode rfl,ok_bind,access_inside ((globalGet_inside _ _ _ found).trans_le roomy.globals)]
      rfl

theorem checkedOperand_ok (globals : List Variable) (name : List Byte) (constant : Byte × Word)
    (room : globals.length ≤ maxVariable) :
    checkedOperand (match globalGet globals name with
      | some var => .var var
      | none => .constant constant.1 constant.2) = .ok () := by
  cases found : globalGet globals name with
  | none => rfl
  | some var => exact access_inside ((globalGet_inside _ _ _ found).trans_le room)

theorem checkedCondition_ok (text : List Byte) (engine : Engine) (roomy : Roomy engine) :
    checkedCondition text engine = .ok () := by
  rw [checkedCondition,checkedTokenize_ok 4 text (by decide),ok_bind]
  generalize tokenize 4 text = tokens
  rcases tokens with _ | ⟨command,_ | ⟨left,_ | ⟨opcode,_ | ⟨right,rest⟩⟩⟩⟩
  · rfl
  · rfl
  · rfl
  · rfl
  · rw [if_neg (by simp),tokenAt_ok _ 1 left rfl,ok_bind,tokenAt_ok _ 3 right rfl,ok_bind,
      checkedGet_ok _ _ roomy.globals,ok_bind,checkedGet_ok _ _ roomy.globals,ok_bind,tokenAt_ok _ 2 opcode rfl,ok_bind]
    rw [checkedOperand_ok engine.globals left (setValueParam left) roomy.globals,ok_bind]
    exact checkedOperand_ok engine.globals right (setValueParam right) roomy.globals

variable {σ : Type} (library : Library σ)

/-- With room in the tables no test makes a difference. -/
theorem checkedAny_same (cycles : Nat → Nat → Nat → UInt64) (game : Game σ) (text : List Byte)
    (roomy : Roomy game.engine) : checkedAny library cycles game text = executeAny library cycles game text := by
  unfold checkedAny executeAny
  by_cases benchmark : firstByte text = 98
  · rw [if_pos benchmark,if_pos benchmark,checkedBenchmark,access_all _ _ roomy.functions]
    rfl
  rw [if_neg benchmark,if_neg benchmark]
  by_cases condition : firstByte text = 99
  · rw [if_pos condition,checkedCondition_ok text _ roomy,condition]
    rfl
  rw [if_neg condition]
  by_cases hash : firstByte text = 104
  · rw [if_pos hash,checkedHash,access_all _ _ roomy.objects,hash]
    rfl
  rw [if_neg hash]
  by_cases mutation : firstByte text = 109
  · rw [if_pos mutation,if_pos mutation,checkedMutation_ok text _ roomy]
    rfl
  rw [if_neg mutation,if_neg mutation]
  by_cases object : firstByte text = 111
  · rw [if_pos object,if_pos object,checkedObject_ok text _ roomy]
    cases executeObject text game.engine <;> rfl
  rw [if_neg object,if_neg object]
  by_cases parameter : firstByte text = 112
  · rw [if_pos parameter,if_pos parameter,checkedParameter_ok text _ roomy]
    rfl
  rw [if_neg parameter,if_neg parameter]
  by_cases result : firstByte text = 114
  · rw [if_pos result,if_pos result,checkedResult_ok text _ roomy]
    rfl
  rw [if_neg result,if_neg result]
  by_cases simulation : firstByte text = 115
  · rw [if_pos simulation,if_pos simulation,checkedTokenize_ok 2 text (by decide),ok_bind]
    have some_token : tokenize 2 text ≠ [] := tokenize_some 2 text
    generalize tokenize 2 text = tokens at some_token ⊢
    rcases tokens with _ | ⟨command,_ | ⟨value,rest⟩⟩
    · exact absurd rfl some_token
    · rfl
    · rw [if_neg (by simp),tokenAt_ok _ 1 value rfl]
      rfl
  rw [if_neg simulation,if_neg simulation]
  by_cases assign : firstByte text = 118
  · rw [if_pos assign,if_pos assign,checkedVariable_ok text _ roomy]
    rfl
  rw [if_neg assign,if_neg assign]
  rfl

end Agreement

section Runs

theorem parameter_roomy (text : List Byte) (engine : Engine) (roomy : Roomy engine) :
    Roomy (executeParameter text engine) := by
  refine ⟨?_,by rw [executeParameter_objects]; exact roomy.objects,?_⟩
  all_goals
    unfold executeParameter
    generalize tokenize 6 text = tokens
    rcases tokens with _ | ⟨command,_ | ⟨filter,rest⟩⟩
  · exact roomy.functions
  · exact roomy.functions
  · apply List.foldlRecOn (motive := fun (later : Engine) => later.functions.length ≤ maxSymbols) _ _ roomy.functions
    intro later room fi _
    rw [(bindFunction_room _ filter later fi).1]
    exact room
  · exact roomy.globals
  · exact roomy.globals
  · apply List.foldlRecOn (motive := fun (later : Engine) => later.globals.length ≤ maxVariable) _ _ roomy.globals
    intro later room fi _
    rw [(bindFunction_room _ filter later fi).2]
    exact room

theorem variable_roomy (text : List Byte) (engine : Engine) (roomy : Roomy engine) :
    Roomy (executeVariable text engine) := by
  unfold executeVariable
  generalize tokenize 3 text = tokens
  rcases tokens with _ | ⟨command,_ | ⟨name,_ | ⟨value,rest⟩⟩⟩
  · exact roomy
  · exact roomy
  · exact roomy
  · dsimp only
    rcases created : globalGetOrCreate engine.globals name with ⟨globals,_ | var⟩
    · exact ⟨roomy.functions,roomy.objects,(getOrCreate_room _ _ _ _ roomy.globals created).1⟩
    · refine ⟨roomy.functions,roomy.objects,?_⟩
      dsimp only
      rw [List.length_modify]
      exact (getOrCreate_room _ _ _ _ roomy.globals created).1

theorem result_roomy (text : List Byte) (engine : Engine) (roomy : Roomy engine) : Roomy (executeResult text engine) := by
  have stored (target : List Byte) (i : Nat) : Roomy (setStoreParam target (.result i) engine).1 := by
    unfold setStoreParam
    rcases created : globalGetOrCreate engine.globals target with ⟨globals,_ | var⟩
    · exact ⟨roomy.functions,roomy.objects,(getOrCreate_room _ _ _ _ roomy.globals created).1⟩
    · have room : (setType globals var typeInt).length ≤ maxVariable := by
        rw [setType,List.length_modify]
        exact (getOrCreate_room _ _ _ _ roomy.globals created).1
      unfold addResultFunc
      dsimp only
      split <;> exact ⟨roomy.functions,roomy.objects,room⟩
  unfold executeResult
  generalize tokenize 3 text = tokens
  rcases tokens with _ | ⟨command,_ | ⟨name,_ | ⟨target,rest⟩⟩⟩
  · exact roomy
  · exact roomy
  · exact roomy
  · dsimp only
    cases dlfnGetSymbol engine.functions name with
    | none => exact roomy
    | some i =>
      have after := stored target i
      exact ⟨after.functions,after.objects,after.globals⟩

theorem mutation_roomy (text : List Byte) (engine : Engine) (roomy : Roomy engine) :
    Roomy (executeMutation text engine) := by
  unfold executeMutation
  split
  · split
    · exact roomy
    · refine ⟨roomy.functions,roomy.objects,?_⟩
      dsimp only
      rw [List.length_modify]
      exact roomy.globals
  · exact roomy

theorem opened_roomy {σ : Type} (library : Library σ) (engine : Engine) (room : engine.globals.length ≤ maxVariable) :
    Roomy (openSession library engine) := by
  refine ⟨?_,?_,room⟩
  · change (sortFunctions (parseFunctions library.symbols)).length ≤ maxSymbols
    rw [sortFunctions,List.length_mergeSort,parseFunctions,List.length_map]
    exact List.length_take_le ..
  · change (sortObjects (parseObjects library.symbols)).length ≤ maxSymbols
    rw [sortObjects,List.length_mergeSort,parseObjects,List.length_map]
    exact List.length_take_le ..

theorem invoke_roomy (handle : Int) (engine later : Engine) (roomy : Roomy engine)
    (ok : functorInvoke engine handle = .ok later) : Roomy later := by
  unfold functorInvoke at ok
  split at ok
  · split at ok
    · cases ok
    · cases ok
      exact roomy
    · next dst _ _ =>
      cases ok
      cases dst with
      | global i => exact ⟨roomy.functions,roomy.objects,by rw [Engine.write,setValue,List.length_modify]; exact roomy.globals⟩
      | param f p => exact ⟨by rw [Engine.write,setParam,List.length_modify]; exact roomy.functions,roomy.objects,roomy.globals⟩
      | result f => exact ⟨roomy.functions,roomy.objects,roomy.globals⟩
  · cases ok

theorem load_roomy (i : Nat) (slots : List (Fin 3)) (engine later : Engine) (roomy : Roomy engine)
    (ok : slots.foldlM (fun engine p => functorInvoke engine (engine.loadParamHandle i p)) engine = .ok later) :
    Roomy later := by
  induction slots generalizing engine with
  | nil =>
    cases ok
    exact roomy
  | cons p slots ih =>
    rw [List.foldlM_cons,bind_ok] at ok
    obtain ⟨next,invoked,rest⟩ := ok
    exact ih next (invoke_roomy _ engine next roomy invoked) rest

variable {σ : Type}

theorem reached_roomy (process : Process σ) (reached : Reached process) : Roomy process.game.engine := by
  induction reached with
  | boot library => exact opened_roomy library .boot (Nat.zero_le _)
  | reload process library _ _ ih => exact opened_roomy library process.game.engine ih.globals
  | command process cycles text later _ _ ok ih =>
    change Roomy later.engine
    cases executeAny_executed process.library cycles process.game later text ok with
    | benchmark => exact ih
    | mutation => exact mutation_roomy text _ ih
    | parameter => exact parameter_roomy text _ ih
    | result => exact result_roomy text _ ih
    | simulation => exact ih
    | assign => exact variable_roomy text _ ih
    | printed => exact ih
  | frame process unset _ _ ih =>
    exact ⟨ih.functions,ih.objects,(globalVarOps_length unset _).trans_le ih.globals⟩
  | load process i engine _ _ _ ok ih => exact load_roomy i _ _ engine ih ok
  | call process i memory returned _ _ _ ih => exact ⟨ih.functions,ih.objects,ih.globals⟩
  | store process i engine _ _ ok ih => exact invoke_roomy _ _ engine ih ok
  | done process _ _ ih => exact ih

/-- An object command with a name that no object has. -/
def NamesNoObject (engine : Engine) (text : List Byte) : Prop :=
  firstByte text = 111 ∧ ∃ name, (tokenize 2 text)[1]? = some name ∧ dlfnGetObject engine.objects name = none

theorem executeObject_finishes (text : List Byte) (engine : Engine) :
    (∃ later, executeObject text engine = .ok later) ↔
      ¬ ∃ name, (tokenize 2 text)[1]? = some name ∧ dlfnGetObject engine.objects name = none := by
  unfold executeObject
  generalize tokenize 2 text = tokens
  rcases tokens with _ | ⟨command,_ | ⟨name,rest⟩⟩
  · simp
  · simp
  · cases found : dlfnGetObject engine.objects name with
    | none => simp [found]
    | some object => simp [found]

theorem executeAny_finishes (library : Library σ) (cycles : Nat → Nat → Nat → UInt64) (game : Game σ) (text : List Byte) :
    (∃ later, executeAny library cycles game text = .ok later) ↔ ¬ NamesNoObject game.engine text := by
  unfold NamesNoObject
  by_cases object : firstByte text = 111
  · rw [and_iff_right object,← executeObject_finishes text game.engine,executeAny,object,if_neg (by decide),
      if_neg (by decide),if_pos rfl]
    cases executeObject text game.engine with
    | error stop => exact ⟨fun ⟨_,ok⟩ => (nomatch ok),fun ⟨_,ok⟩ => (nomatch ok)⟩
    | ok engine => exact ⟨fun _ => ⟨_,rfl⟩,fun _ => ⟨_,rfl⟩⟩
  · refine ⟨fun _ named => object named.1,fun _ => ?_⟩
    unfold executeAny
    rw [if_neg object]
    repeat' split
    all_goals exact ⟨_,rfl⟩

/-- In every reachable state a command finishes without an access outside a table
or through a null pointer if and only if it does not name a missing object. -/
theorem command_safe_iff (process : Process σ) (reached : Reached process) (cycles : Nat → Nat → Nat → UInt64)
    (text : List Byte) :
    (∃ later, checkedAny process.library cycles process.game text = .ok later) ↔
      ¬ NamesNoObject process.game.engine text := by
  rw [checkedAny_same process.library cycles process.game text (reached_roomy process reached)]
  exact executeAny_finishes process.library cycles process.game text

/-- "o o", where a variable was created and the library has the object. -/
theorem command_safe_named : ∃ process : Process Nat, Reached process ∧ process.game.engine.globals.length = 1 ∧
    process.game.engine.objects = [⟨[111],8192,2⟩] ∧
    ∃ later, checkedAny process.library (fun _ _ _ => 0) process.game [111,32,111] = .ok later := by
  have created := Reached.command _ (fun _ _ _ => 0) [118,32,120,32,53] _ (.boot counterLibrary) rfl rfl
  have objects : (executeVariable [118,32,120,32,53] (openSession counterLibrary .boot)).objects = [⟨[111],8192,2⟩] := by
    rw [executeVariable_objects]
    simp only [openSession,counterLibrary_open]
  refine ⟨_,created,rfl,objects,(command_safe_iff _ created _ [111,32,111]).mpr ?_⟩
  rintro ⟨_,name,token,missing⟩
  have tokens : tokenize 2 [111,32,111] = [[111],[111]] := by decide
  rw [tokens] at token
  cases token
  change dlfnGetObject (executeVariable [118,32,120,32,53] (openSession counterLibrary .boot)).objects [111] = none at missing
  rw [objects] at missing
  cases missing

/-- "o x", in a library without objects. -/
theorem missing_object : Reached (.opened sumLibrary .boot) ∧ ∀ cycles,
    checkedAny sumLibrary cycles (Process.opened sumLibrary .boot).game [111,32,120] = .error .fault := by
  refine ⟨.boot sumLibrary,fun cycles => ?_⟩
  have roomy := opened_roomy sumLibrary .boot (Nat.zero_le _)
  have tokens : tokenize 2 [111,32,120] = [[111],[120]] := by decide
  have missing : dlfnGetObject (openSession sumLibrary .boot).objects [120] = none := by
    simp [openSession,dlfnOpen,sortObjects,parseObjects,sumLibrary,exported,dlfnGetObject]
  have stops : executeObject [111,32,120] (openSession sumLibrary .boot) = .error .fault := by
    rw [executeObject,tokens]
    dsimp only
    rw [missing]
  rw [checkedAny_same sumLibrary cycles _ _ roomy,executeAny,if_neg (by decide),if_neg (by decide),if_pos (by decide)]
  dsimp only [Process.opened]
  rw [stops]
  rfl

end Runs

end Craftsman.CommandSafety
