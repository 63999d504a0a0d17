import Craftsman.Text
import Mathlib.Data.List.Nodup

/-! The variable table, and the operation each variable may carry. -/
namespace Craftsman.Global
open Craftsman.Memory Craftsman.Text

inductive Operand where
  | var (index : Nat)
  | constant (type : Byte) (value : Word)
  deriving DecidableEq

structure Op where
  opcode : Byte
  left : Operand
  right : Operand
  deriving DecidableEq

def Op.none : Op := ⟨0,.constant 0 0,.constant 0 0⟩

structure Variable where
  name : List Byte
  value : Word
  type : Byte
  op : Op
  deriving DecidableEq

def maxVariable : Nat := 64

/-- `strncmp` over the 16 bytes of a name finds no difference. -/
def sameName (a b : List Byte) : Bool := a.take 16 == b.take 16

def globalGet (globals : List Variable) (name : List Byte) : Option Nat :=
  globals.findIdx? fun var => sameName name var.name

/-- The last of the 16 bytes is the NUL. -/
def globalInit (name : List Byte) : Variable := ⟨name.take 15,0,0,.none⟩

def globalGetOrCreate (globals : List Variable) (name : List Byte) : List Variable × Option Nat :=
  match globalGet globals name with
  | some i => (globals,some i)
  | none =>
    if maxVariable ≤ globals.length then (globals,none)
    else (globals ++ [globalInit name],some globals.length)

/-- A variable's value; the table is static memory, zero behind the used entries. -/
def valueAt (globals : List Variable) (i : Nat) : Word := (globals[i]?.map Variable.value).getD 0

def typeAt (globals : List Variable) (i : Nat) : Byte := (globals[i]?.map Variable.type).getD 0

def setValue (globals : List Variable) (i : Nat) (value : Word) : List Variable :=
  globals.modify i fun var => {var with value := value}

def setType (globals : List Variable) (i : Nat) (type : Byte) : List Variable :=
  globals.modify i fun var => {var with type := type}

def performOpInt (opcode : Byte) (lhv rhv : Word) : Word :=
  if opcode = 43 then lhv + rhv
  else if opcode = 45 then lhv - rhv
  else if opcode = 62 then (if rhv < lhv then 1 else 0)
  else if opcode = 60 then (if lhv < rhv then 1 else 0)
  else 0

def performOpDouble (opcode : Byte) (lhv rhv : Float) : Float :=
  if opcode = 43 then lhv + rhv
  else if opcode = 45 then lhv - rhv
  else if opcode = 62 then (if rhv < lhv then 1 else 0)
  else if opcode = 60 then (if lhv < rhv then 1 else 0)
  else 0

def Operand.read (globals : List Variable) : Operand → Byte × Word
  | .var i => (typeAt globals i,valueAt globals i)
  | .constant type value => (type,value)

/-- The result's type and value. The value is written for two types only. -/
def performOp (globals : List Variable) (op : Op) : Byte × Option Word :=
  let (leftType,left) := op.left.read globals
  let (rightType,right) := op.right.read globals
  let opType := leftType &&& rightType
  if opType = typeInt then (opType,some (performOpInt op.opcode left right))
  else if opType = typeDouble then
    (opType,some (performOpDouble op.opcode (Float.ofBits left) (Float.ofBits right)).toBits)
  else (opType,none)

/-- One variable's operation. `unset` is what the result holds when nothing was written to it. -/
def globalVarOp (unset : Nat → Word) (globals : List Variable) (i : Nat) : List Variable :=
  match globals[i]? with
  | none => globals
  | some var =>
    if var.op.opcode = 0 then globals
    else
      let (type,value) := performOp globals var.op
      globals.set i {var with value := value.getD (unset i), type := type}

/-- The operations in table order; each sees what the earlier ones stored. -/
def globalVarOps (unset : Nat → Word) (globals : List Variable) : List Variable :=
  (List.range globals.length).foldl (globalVarOp unset) globals

theorem globalVarOp_length (unset : Nat → Word) (globals : List Variable) (i : Nat) :
    (globalVarOp unset globals i).length = globals.length := by
  unfold globalVarOp
  split
  · rfl
  · split
    · rfl
    · simp

theorem globalVarOps_length (unset : Nat → Word) (globals : List Variable) :
    (globalVarOps unset globals).length = globals.length := by
  unfold globalVarOps
  generalize List.range globals.length = order
  induction order generalizing globals with
  | nil => rfl
  | cons i order ih => rw [List.foldl_cons,ih,globalVarOp_length]

theorem globalGet_inside (globals : List Variable) (name : List Byte) (i : Nat)
    (found : globalGet globals name = some i) : i < globals.length := by
  obtain ⟨inside,_⟩ := List.findIdx?_eq_some_iff_getElem.mp found
  exact inside

def names (globals : List Variable) : List (List Byte) := globals.map Variable.name

structure Named (globals : List Variable) : Prop where
  short : ∀ name ∈ names globals, name.length < 16
  distinct : (names globals).Nodup

theorem sameName_short (a b : List Byte) (short : b.length < 16) : sameName a b = true ↔ a = b := by
  unfold sameName
  rw [beq_iff_eq,List.take_of_length_le (l := b) (by omega)]
  constructor
  · intro same
    have cut : (a.take 16).length < 16 := by rwa [same]
    rw [List.length_take] at cut
    rwa [List.take_of_length_le (by omega)] at same
  · rintro rfl
    exact List.take_of_length_le (by omega)

theorem globalGet_names (globals : List Variable) (name : List Byte) :
    globalGet globals name = (names globals).findIdx? (sameName name) := by
  unfold globalGet names
  rw [List.findIdx?_map]
  rfl

theorem globalGet_congr (globals later : List Variable) (name : List Byte)
    (same : names later = names globals) : globalGet later name = globalGet globals name := by
  rw [globalGet_names,globalGet_names,same]

theorem Named.get_iff {globals : List Variable} (named : Named globals) (name : List Byte) (i : Nat) :
    globalGet globals name = some i ↔ (names globals)[i]? = some name := by
  rw [globalGet_names,List.findIdx?_eq_some_iff_getElem,List.getElem?_eq_some_iff]
  have equal (j : Nat) (inside : j < (names globals).length) :
      sameName name (names globals)[j] = true ↔ name = (names globals)[j] :=
    sameName_short _ _ (named.short _ (List.getElem_mem inside))
  constructor
  · rintro ⟨inside,found,_⟩
    exact ⟨inside,((equal i inside).mp found).symm⟩
  · rintro ⟨inside,found⟩
    refine ⟨inside,(equal i inside).mpr found.symm,?_⟩
    intro j earlier again
    have twice := (equal j (by omega)).mp again
    rw [← found] at twice
    have := named.distinct.getElem_inj_iff.mp twice
    omega

theorem Named.get_none {globals : List Variable} (named : Named globals) (name : List Byte) :
    globalGet globals name = none ↔ name ∉ names globals := by
  constructor
  · intro absent member
    obtain ⟨i,found⟩ := List.getElem?_of_mem member
    rw [(named.get_iff name i).mpr found] at absent
    exact absurd absent (by simp)
  · intro absent
    cases found : globalGet globals name with
    | none => rfl
    | some i => exact absurd (List.mem_of_getElem? ((named.get_iff name i).mp found)) absent

theorem Named.append {globals : List Variable} (named : Named globals) (name : List Byte)
    (short : name.length < 16) (absent : globalGet globals name = none) :
    names (globals ++ [globalInit name]) = names globals ++ [name] ∧
      Named (globals ++ [globalInit name]) := by
  have whole : names (globals ++ [globalInit name]) = names globals ++ [name] := by
    simp only [names,globalInit,List.map_append,List.map_cons,List.map_nil]
    rw [List.take_of_length_le (by omega)]
  refine ⟨whole,⟨?_,?_⟩⟩
  · intro other member
    rw [whole,List.mem_append,List.mem_singleton] at member
    rcases member with member | rfl
    · exact named.short other member
    · exact short
  · rw [whole,List.nodup_append]
    refine ⟨named.distinct,by simp,?_⟩
    intro old member new last same
    rw [List.mem_singleton] at last
    subst last same
    exact (named.get_none old).mp absent member

theorem names_modify (globals : List Variable) (i : Nat) (change : Variable → Variable)
    (keep : ∀ var, (change var).name = var.name) : names (globals.modify i change) = names globals := by
  unfold names
  apply List.ext_getElem
  · simp
  · intro j _ _
    rw [List.getElem_map,List.getElem_map,List.getElem_modify]
    split
    · exact keep _
    · rfl

theorem globalVarOps_idle (unset : Nat → Word) (globals : List Variable)
    (idle : ∀ var ∈ globals, var.op.opcode = 0) : globalVarOps unset globals = globals := by
  unfold globalVarOps
  apply List.foldlRecOn (motive := (· = globals)) _ _ rfl
  rintro _ rfl i _
  unfold globalVarOp
  split
  · rfl
  · next var found => rw [if_pos (idle var (List.mem_of_getElem? found))]

theorem valueAt_setValue (globals : List Variable) (i j : Nat) (value : Word) (inside : i < globals.length) :
    valueAt (setValue globals i value) j = if i = j then value else valueAt globals j := by
  unfold valueAt setValue
  rw [List.getElem?_modify]
  split
  · next same => subst same; simp [List.getElem?_eq_getElem inside]
  · simp

theorem valueAt_setType (globals : List Variable) (i j : Nat) (type : Byte) :
    valueAt (setType globals i type) j = valueAt globals j := by
  unfold valueAt setType
  rw [List.getElem?_modify]
  cases globals[j]? with
  | none => rfl
  | some var => by_cases same : i = j <;> simp [same]

end Craftsman.Global
