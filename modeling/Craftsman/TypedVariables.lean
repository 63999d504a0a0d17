import Craftsman.Execute

/-! The types of the variables. The types of an operation's operands are combined
bit by bit, so its result has a type and a value exactly when the operands have
the same type; every command keeps the table typed. -/
namespace Craftsman.TypedVariables
open Craftsman.Memory Craftsman.Text Craftsman.Global Craftsman.Dlfn Craftsman.Execute

def Typed (type : Byte) : Prop := type = typeInt ∨ type = typeDouble

def WellTyped (globals : List Variable) : Prop := ∀ var ∈ globals, Typed var.type

def Known (count : Nat) : Operand → Prop
  | .var i => i < count
  | .constant type _ => Typed type

structure Sound (count : Nat) (var : Variable) : Prop where
  typed : Typed var.type
  operands : var.op.opcode ≠ 0 → Known count var.op.left ∧ Known count var.op.right

def SoundTable (globals : List Variable) : Prop := ∀ var ∈ globals, Sound globals.length var

/-- The table in front of the operation of variable `i`. -/
def seen (unset : Nat → Word) (globals : List Variable) (i : Nat) : List Variable :=
  (List.range i).foldl (globalVarOp unset) globals

/-- Every operation of a pass finds operands of one type. -/
def SameTypes (globals : List Variable) : Prop :=
  ∀ i var, (seen (fun _ => 0) globals i)[i]? = some var → var.op.opcode ≠ 0 →
    (var.op.left.read (seen (fun _ => 0) globals i)).1 = (var.op.right.read (seen (fun _ => 0) globals i)).1

def OpsDefined (globals : List Variable) : Prop :=
  ∀ i var, (seen (fun _ => 0) globals i)[i]? = some var → var.op.opcode ≠ 0 →
    (performOp (seen (fun _ => 0) globals i) var.op).2 ≠ none

section Passes

theorem seen_succ (unset : Nat → Word) (globals : List Variable) (i : Nat) :
    seen unset globals (i + 1) = globalVarOp unset (seen unset globals i) i := by
  rw [seen,List.range_succ,List.foldl_append]
  rfl

theorem seen_length (unset : Nat → Word) (globals : List Variable) (i : Nat) :
    (seen unset globals i).length = globals.length := by
  induction i with
  | zero => rfl
  | succ i ih => rw [seen_succ,globalVarOp_length,ih]

theorem globalVarOps_defined (unset : Nat → Word) (globals : List Variable) (defined : OpsDefined globals) :
    globalVarOps unset globals = globalVarOps (fun _ => 0) globals := by
  change seen unset globals globals.length = seen (fun _ => 0) globals globals.length
  induction globals.length with
  | zero => rfl
  | succ n ih =>
    rw [seen_succ,seen_succ,ih]
    have here := defined n
    revert here
    generalize seen (fun _ => 0) globals n = table
    intro here
    unfold globalVarOp
    cases found : table[n]? with
    | none => rfl
    | some var =>
      dsimp only
      by_cases idle : var.op.opcode = 0
      · rw [if_pos idle,if_pos idle]
      · rw [if_neg idle,if_neg idle]
        obtain ⟨value,written⟩ := Option.ne_none_iff_exists'.mp (here var found idle)
        rw [written]
        rfl

theorem read_typed (globals : List Variable) (typed : WellTyped globals) (operand : Operand)
    (known : Known globals.length operand) : Typed (operand.read globals).1 := by
  cases operand with
  | var i =>
    have entry := List.getElem?_eq_getElem known
    have found := typed globals[i] (List.getElem_mem known)
    change Typed (typeAt globals i)
    unfold typeAt
    rw [entry]
    exact found
  | constant type value => exact known

/-- 'i' and 'd' have no common type. -/
theorem mixed : typeInt &&& typeDouble = 96 ∧ typeDouble &&& typeInt = 96 := by decide

theorem performOp_typed (globals : List Variable) (op : Op) (left : Typed (op.left.read globals).1)
    (right : Typed (op.right.read globals).1) :
    (Typed (performOp globals op).1 ↔ (op.left.read globals).1 = (op.right.read globals).1) ∧
      ((performOp globals op).2 ≠ none ↔ (op.left.read globals).1 = (op.right.read globals).1) := by
  unfold performOp
  revert left right
  rcases op.left.read globals with ⟨leftType,a⟩
  rcases op.right.read globals with ⟨rightType,b⟩
  intro left right
  dsimp only at left right ⊢
  rcases left with rfl | rfl <;> rcases right with rfl | rfl
  · simp [Typed]
  · rw [mixed.1]
    simp [Typed,typeInt,typeDouble]
  · rw [mixed.2]
    simp [Typed,typeInt,typeDouble]
  · simp [Typed,typeInt,typeDouble]

theorem globalVarOp_sound (unset : Nat → Word) (globals : List Variable) (i : Nat) (sound : SoundTable globals)
    (typed : ∀ var, globals[i]? = some var → var.op.opcode ≠ 0 → Typed (performOp globals var.op).1) :
    SoundTable (globalVarOp unset globals i) := by
  intro var member
  rw [globalVarOp_length]
  unfold globalVarOp at member
  split at member
  · exact sound var member
  · next old found =>
    split at member
    · exact sound var member
    · next performed =>
      rcases List.mem_or_eq_of_mem_set member with before | same
      · exact sound var before
      · rw [same]
        exact ⟨typed old found performed,(sound old (List.mem_of_getElem? found)).operands⟩

theorem seen_sound (globals : List Variable) (sound : SoundTable globals) (same : SameTypes globals) (i : Nat) :
    SoundTable (seen (fun _ => 0) globals i) := by
  induction i with
  | zero => exact sound
  | succ i ih =>
    rw [seen_succ]
    apply globalVarOp_sound _ _ i ih
    intro var found performed
    obtain ⟨left,right⟩ := (ih var (List.mem_of_getElem? found)).operands performed
    have typed : WellTyped (seen (fun _ => 0) globals i) := fun other member => (ih other member).typed
    exact (performOp_typed _ _ (read_typed _ typed _ left) (read_typed _ typed _ right)).1.mpr (same i var found performed)

theorem seen_entry (unset : Nat → Word) (globals : List Variable) (j i : Nat) (later : j < i) :
    (seen unset globals i)[j]? = (seen unset globals (j + 1))[j]? := by
  induction i with
  | zero => exact absurd later (Nat.not_lt_zero j)
  | succ i ih =>
    rcases Nat.lt_or_eq_of_le (Nat.le_of_lt_succ later) with before | rfl
    · rw [seen_succ,← ih before]
      unfold globalVarOp
      split
      · rfl
      · split
        · rfl
        · exact List.getElem?_set_ne (Nat.ne_of_gt before)
    · rfl

theorem typed_same (globals : List Variable) (sound : SoundTable globals)
    (typed : WellTyped (globalVarOps (fun _ => 0) globals)) : SameTypes globals := by
  have entry (i : Nat) (var : Variable) (found : (seen (fun _ => 0) globals i)[i]? = some var)
      (performed : var.op.opcode ≠ 0) : Typed (performOp (seen (fun _ => 0) globals i) var.op).1 := by
    obtain ⟨inside,_⟩ := List.getElem?_eq_some_iff.mp found
    have length := seen_length (fun _ => 0) globals i
    have written : (seen (fun _ => 0) globals (i + 1))[i]? = some {var with
        value := (performOp (seen (fun _ => 0) globals i) var.op).2.getD 0
        type := (performOp (seen (fun _ => 0) globals i) var.op).1} := by
      rw [seen_succ,globalVarOp,found]
      dsimp only
      rw [if_neg performed,List.getElem?_set_self inside]
    have last := seen_entry (fun _ => 0) globals i globals.length (by omega)
    rw [written] at last
    exact typed _ (List.mem_of_getElem? last)
  have tables (i : Nat) : SoundTable (seen (fun _ => 0) globals i) := by
    induction i with
    | zero => exact sound
    | succ i ih =>
      rw [seen_succ]
      exact globalVarOp_sound _ _ i ih (entry i)
  intro i var found performed
  obtain ⟨left,right⟩ := (tables i var (List.mem_of_getElem? found)).operands performed
  rw [seen_length] at left right
  have known : WellTyped (seen (fun _ => 0) globals i) := fun other member => (tables i other member).typed
  exact (performOp_typed _ _ (read_typed _ known _ (by rwa [seen_length])) (read_typed _ known _ (by rwa [seen_length]))).1.mp
    (entry i var found performed)

theorem same_defined (globals : List Variable) (sound : SoundTable globals) (same : SameTypes globals) :
    OpsDefined globals := by
  intro i var found performed
  have table := seen_sound globals sound same i
  obtain ⟨left,right⟩ := (table var (List.mem_of_getElem? found)).operands performed
  have typed : WellTyped (seen (fun _ => 0) globals i) := fun other member => (table other member).typed
  exact (performOp_typed _ _ (read_typed _ typed _ left) (read_typed _ typed _ right)).2.mpr (same i var found performed)

/-- What a pass should do: types for all variables, and nothing that the table does not determine. -/
structure GoodPass (globals : List Variable) : Prop where
  typed : ∀ unset, WellTyped (globalVarOps unset globals)
  determined : ∀ unset unset', globalVarOps unset globals = globalVarOps unset' globals

theorem goodPass_iff (globals : List Variable) (sound : SoundTable globals) :
    GoodPass globals ↔ SameTypes globals := by
  constructor
  · intro good
    exact typed_same globals sound (good.typed _)
  · intro same
    have defined := same_defined globals sound same
    have after : WellTyped (globalVarOps (fun _ => 0) globals) :=
      fun var member => (seen_sound globals sound same globals.length var member).typed
    refine ⟨?_,?_⟩
    · intro unset
      rw [globalVarOps_defined unset globals defined]
      exact after
    · intro unset unset'
      rw [globalVarOps_defined unset globals defined,globalVarOps_defined unset' globals defined]

end Passes

section Commands

theorem Known.grow {count : Nat} {operand : Operand} (known : Known count operand) (more : Nat) (larger : count ≤ more) :
    Known more operand := by
  cases operand with
  | var i => exact Nat.lt_of_lt_of_le known larger
  | constant type value => exact known

theorem Sound.grow {count : Nat} {var : Variable} (sound : Sound count var) (more : Nat) (larger : count ≤ more) :
    Sound more var :=
  ⟨sound.typed,fun performed =>
    ⟨(sound.operands performed).1.grow more larger,(sound.operands performed).2.grow more larger⟩⟩

theorem modify_sound (globals : List Variable) (i : Nat) (change : Variable → Variable)
    (others : ∀ j var, j ≠ i → globals[j]? = some var → Sound globals.length var)
    (here : ∀ var, globals[i]? = some var → Sound globals.length (change var)) :
    SoundTable (globals.modify i change) := by
  intro var member
  rw [List.length_modify]
  obtain ⟨j,found⟩ := List.getElem?_of_mem member
  rw [List.getElem?_modify] at found
  obtain ⟨old,entry,rfl⟩ := Option.map_eq_some_iff.mp found
  by_cases same : i = j
  · subst same
    rw [if_pos rfl]
    exact here old entry
  · rw [if_neg same]
    exact others j old (Ne.symm same) entry

theorem modify_keeps (globals : List Variable) (i : Nat) (change : Variable → Variable) (sound : SoundTable globals)
    (here : ∀ var, Sound globals.length var → Sound globals.length (change var)) :
    SoundTable (globals.modify i change) :=
  modify_sound globals i change (fun _ var _ found => sound var (List.mem_of_getElem? found))
    fun var found => here var (sound var (List.mem_of_getElem? found))

theorem setType_sound (globals : List Variable) (i : Nat) (sound : SoundTable globals) :
    SoundTable (setType globals i typeInt) :=
  modify_keeps globals i _ sound fun _ old => ⟨.inl rfl,old.operands⟩

theorem create_sound (globals later : List Variable) (name : List Byte) (i : Nat) (change : Variable → Variable)
    (sound : SoundTable globals) (created : globalGetOrCreate globals name = (later,some i))
    (typed : ∀ var, Typed (change var).type) (same : ∀ var, (change var).op = var.op) :
    SoundTable (later.modify i change) := by
  have fresh (var : Variable) (operands : var.op.opcode ≠ 0 → Known later.length var.op.left ∧ Known later.length var.op.right) :
      Sound later.length (change var) := by
    refine ⟨typed var,?_⟩
    rw [same]
    exact operands
  unfold globalGetOrCreate at created
  split at created
  · cases created
    exact modify_keeps globals i change sound fun var old => fresh var old.operands
  · split at created
    · cases created
    · cases created
      have size : globals.length ≤ (globals ++ [globalInit name]).length := by simp
      apply modify_sound
      · intro j var other found
        rcases Nat.lt_or_ge j globals.length with inside | outside
        · rw [List.getElem?_append_left inside] at found
          exact (sound var (List.mem_of_getElem? found)).grow _ size
        · have bound := (List.getElem?_eq_some_iff.mp found).1
          rw [List.length_append,List.length_singleton] at bound
          omega
      · intro var found
        rw [List.getElem?_concat_length] at found
        cases found
        exact fresh _ fun performed => absurd rfl performed

theorem create_none_sound (globals later : List Variable) (name : List Byte) (sound : SoundTable globals)
    (created : globalGetOrCreate globals name = (later,none)) : SoundTable later := by
  unfold globalGetOrCreate at created
  split at created
  · cases created
  · split at created
    · cases created
      exact sound
    · cases created

theorem setValueParam_typed (text : List Byte) : Typed (setValueParam text).1 := by
  unfold setValueParam
  split
  · exact .inr rfl
  · exact .inl rfl

theorem executeVariable_sound (text : List Byte) (engine : Engine) (sound : SoundTable engine.globals) :
    SoundTable (executeVariable text engine).globals := by
  unfold executeVariable
  generalize tokenize 3 text = tokens
  rcases tokens with _ | ⟨command,_ | ⟨name,_ | ⟨value,rest⟩⟩⟩
  · exact sound
  · exact sound
  · exact sound
  · dsimp only
    rcases created : globalGetOrCreate engine.globals name with ⟨globals,_ | var⟩
    · exact create_none_sound _ globals name sound created
    · exact create_sound _ globals name var _ sound created (fun _ => setValueParam_typed value) fun _ => rfl

theorem executeMutation_sound (text : List Byte) (engine : Engine) (sound : SoundTable engine.globals) :
    SoundTable (executeMutation text engine).globals := by
  unfold executeMutation
  generalize tokenize 4 text = tokens
  rcases tokens with _ | ⟨command,_ | ⟨left,_ | ⟨opcode,_ | ⟨right,rest⟩⟩⟩⟩
  · exact sound
  · exact sound
  · exact sound
  · exact sound
  · dsimp only
    cases found : globalGet engine.globals left with
    | none => exact sound
    | some lhv =>
      apply modify_keeps _ _ _ sound
      intro var old
      refine ⟨old.typed,fun _ => ⟨globalGet_inside _ _ _ found,?_⟩⟩
      dsimp only
      cases other : globalGet engine.globals right with
      | none => exact setValueParam_typed right
      | some rhv => exact globalGet_inside _ _ _ other

theorem addResultFunc_globals (engine : Engine) (fnctor : Functor) :
    (addResultFunc engine fnctor).1.globals = engine.globals := by
  unfold addResultFunc
  split <;> rfl

theorem bindParam_sound (tokens : List (List Byte)) (fi : Nat) (engine : Engine) (p : Fin 3)
    (sound : SoundTable engine.globals) : SoundTable (bindParam tokens fi engine p).globals := by
  have loaded (token : List Byte) : SoundTable (setLoadParam token (.param fi p) engine).1.globals := by
    unfold setLoadParam
    cases globalGet engine.globals token with
    | none => exact sound
    | some var =>
      dsimp only
      rw [addResultFunc_globals]
      exact setType_sound _ var sound
  unfold bindParam
  cases tokens[p.val + 2]? with
  | none => exact sound
  | some token =>
    dsimp only
    split <;> exact loaded token

theorem executeParameter_sound (text : List Byte) (engine : Engine) (sound : SoundTable engine.globals) :
    SoundTable (executeParameter text engine).globals := by
  unfold executeParameter
  generalize tokenize 6 text = tokens
  rcases tokens with _ | ⟨command,_ | ⟨filter,rest⟩⟩
  · exact sound
  · exact sound
  · apply List.foldlRecOn (motive := fun (later : Engine) => SoundTable later.globals) _ _ sound
    intro later sound i _
    unfold bindFunction
    split
    · exact sound
    · split
      · apply List.foldlRecOn (motive := fun (later : Engine) => SoundTable later.globals) _ _ sound
        exact fun later sound p _ => bindParam_sound _ i later p sound
      · exact sound

theorem executeResult_sound (text : List Byte) (engine : Engine) (sound : SoundTable engine.globals) :
    SoundTable (executeResult text engine).globals := by
  have stored (target : List Byte) (i : Nat) : SoundTable (setStoreParam target (.result i) engine).1.globals := by
    unfold setStoreParam
    rcases created : globalGetOrCreate engine.globals target with ⟨globals,_ | var⟩
    · exact create_none_sound _ globals target sound created
    · dsimp only
      rw [addResultFunc_globals]
      exact create_sound _ globals target var _ sound created (fun _ => .inl rfl) fun _ => rfl
  unfold executeResult
  generalize tokenize 3 text = tokens
  rcases tokens with _ | ⟨command,_ | ⟨name,_ | ⟨target,rest⟩⟩⟩
  · exact sound
  · exact sound
  · exact sound
  · dsimp only
    cases dlfnGetSymbol engine.functions name with
    | none => exact sound
    | some i => exact stored target i

end Commands

inductive Command where
  | assign (text : List Byte)
  | mutate (text : List Byte)
  | bind (text : List Byte)
  | store (text : List Byte)

def command (engine : Engine) : Command → Engine
  | .assign text => executeVariable text engine
  | .mutate text => executeMutation text engine
  | .bind text => executeParameter text engine
  | .store text => executeResult text engine

def pass (unset : Nat → Word) (engine : Engine) : Engine :=
  {engine with globals := globalVarOps unset engine.globals}

inductive Run : Engine → Prop
  | start (engine : Engine) (empty : engine.globals = []) : Run engine
  | command (engine : Engine) (kind : Command) (run : Run engine) : Run (command engine kind)
  | pass (engine : Engine) (unset : Nat → Word) (run : Run engine) (same : SameTypes engine.globals) :
    Run (pass unset engine)

theorem run_sound (engine : Engine) (run : Run engine) : SoundTable engine.globals := by
  induction run with
  | start engine empty =>
    rw [empty]
    exact fun _ member => absurd member List.not_mem_nil
  | command engine kind run ih =>
    cases kind with
    | assign text => exact executeVariable_sound text engine ih
    | mutate text => exact executeMutation_sound text engine ih
    | bind text => exact executeParameter_sound text engine ih
    | store text => exact executeResult_sound text engine ih
  | pass engine unset run same ih =>
    change SoundTable (globalVarOps unset engine.globals)
    rw [globalVarOps_defined unset _ (same_defined _ ih same)]
    exact seen_sound _ ih same engine.globals.length

/-- In a run whose passes find operands of one type every variable has a type, and
the next pass keeps it so and is determined by the table if and only if it finds
operands of one type as well. -/
theorem typed_iff_same (engine : Engine) (run : Run engine) :
    WellTyped engine.globals ∧ (GoodPass engine.globals ↔ SameTypes engine.globals) :=
  ⟨fun var member => (run_sound engine run var member).typed,goodPass_iff _ (run_sound engine run)⟩

def counter : Variable := ⟨[120],5,typeInt,⟨43,.var 0,.constant typeInt 2⟩⟩

/-- "v x 5" and "m x + 2". -/
def counting : Engine :=
  command (command Engine.boot (.assign [118,32,120,32,53])) (.mutate [109,32,120,32,43,32,50])

theorem counting_run : Run counting := .command _ _ (.command _ _ (.start _ rfl))

theorem counting_globals : counting.globals = [counter] := by decide

theorem counting_same : SameTypes counting.globals := by
  rw [counting_globals]
  intro i var found _
  have inside := (List.getElem?_eq_some_iff.mp found).1
  rw [seen_length] at inside
  obtain rfl : i = 0 := by simpa using inside
  cases found
  rfl

theorem typed_iff_same_counting : WellTyped (pass (fun _ => 0) counting).globals ∧ GoodPass counting.globals :=
  ⟨(typed_iff_same _ (.pass counting _ counting_run counting_same)).1,
    (typed_iff_same counting counting_run).2.mpr counting_same⟩

/-- "v x 5" and "m x + 1.5". -/
def mixing : Engine :=
  command (command Engine.boot (.assign [118,32,120,32,53])) (.mutate [109,32,120,32,43,32,49,46,53])

/-- The pass leaves x with the type 0x60 and with what the result held before. -/
theorem mixed_pass : Run mixing ∧ (∀ unset, ¬ WellTyped (globalVarOps unset mixing.globals)) ∧
    ∀ unset, valueAt (globalVarOps unset mixing.globals) 0 = unset 0 := by
  refine ⟨.command _ _ (.command _ _ (.start _ rfl)),?_,?_⟩
  · intro unset typed
    have mixture : ((globalVarOps unset mixing.globals)[0]?).map Variable.type = some 96 := rfl
    obtain ⟨var,found,type⟩ := Option.map_eq_some_iff.mp mixture
    have held := typed var (List.mem_of_getElem? found)
    rw [type] at held
    rcases held with int | double
    · exact absurd int (by decide)
    · exact absurd double (by decide)
  · intro unset
    rfl

end Craftsman.TypedVariables
