import Craftsman.Text

/-! The feature library: its symbols, the tables filled from them, and its
functions as transitions of the library's own memory. -/
namespace Craftsman.Dlfn
open Craftsman.Memory Craftsman.Text

inductive SymbolType where
  | func
  | object
  | other
  deriving DecidableEq

structure Symbol where
  name : List Byte
  type : SymbolType
  isGlobal : Bool
  address : Nat
  bytes : Nat

/-- A loaded library: the dynamic symbols, the memory after loading, what a call
does to the memory and returns, and the byte at an address. -/
structure Library (σ : Type) where
  symbols : List Symbol
  init : σ
  call : σ → Nat → (Fin 3 → Word) → σ × Word
  byte : σ → Nat → Byte

structure Function where
  name : List Byte
  call : Nat
  param : Fin 3 → Word

structure Object where
  name : List Byte
  address : Nat
  bytes : Nat

def maxSymbols : Nat := 32

def exported (type : SymbolType) (symbol : Symbol) : Bool :=
  symbol.type = type && symbol.isGlobal && symbol.bytes != 0

def parseFunctions (symbols : List Symbol) : List Function :=
  ((symbols.filter (exported .func)).take maxSymbols).map fun symbol =>
    ⟨symbol.name,symbol.address,fun _ => 0⟩

def parseObjects (symbols : List Symbol) : List Object :=
  ((symbols.filter (exported .object)).take maxSymbols).map fun symbol =>
    ⟨symbol.name,symbol.address,symbol.bytes⟩

/-- Functions follow the call ordering of the address space. -/
def sortFunctions (functions : List Function) : List Function :=
  functions.mergeSort fun lhs rhs => lhs.call ≤ rhs.call

def sortObjects (objects : List Object) : List Object :=
  objects.mergeSort fun lhs rhs => lhs.address ≤ rhs.address

def dlfnOpen {σ : Type} (library : Library σ) : List Function × List Object :=
  (sortFunctions (parseFunctions library.symbols),sortObjects (parseObjects library.symbols))

def dlfnGetSymbol (functions : List Function) (name : List Byte) : Option Nat :=
  functions.findIdx? fun function => name == function.name

def dlfnGetObject (objects : List Object) (name : List Byte) : Option Object :=
  objects.find? fun object => name == object.name

def paramAt (functions : List Function) (i : Nat) (p : Fin 3) : Word :=
  (functions[i]?.map fun function => function.param p).getD 0

def setParam (functions : List Function) (i : Nat) (p : Fin 3) (value : Word) : List Function :=
  functions.modify i fun function => {function with param := Function.update function.param p value}

def signatures (functions : List Function) : List (List Byte × Nat) :=
  functions.map fun function => (function.name,function.call)

theorem signatures_setParam (functions : List Function) (i : Nat) (p : Fin 3) (value : Word) :
    signatures (setParam functions i p value) = signatures functions := by
  unfold signatures setParam
  apply List.ext_getElem
  · simp
  · intro j _ _
    rw [List.getElem_map,List.getElem_map,List.getElem_modify]
    split <;> rfl

theorem paramAt_setParam (functions : List Function) (i j : Nat) (p q : Fin 3) (value : Word)
    (inside : i < functions.length) :
    paramAt (setParam functions i p value) j q = if i = j ∧ p = q then value else paramAt functions j q := by
  unfold paramAt setParam
  rw [List.getElem?_modify]
  by_cases same : i = j
  · subst same
    rw [List.getElem?_eq_getElem inside]
    by_cases slot : p = q
    · subst slot
      simp
    · simp [slot,Function.update_of_ne (Ne.symm slot)]
  · simp [same]

def sumLibrary : Library Unit where
  symbols := [⟨[102],.func,true,4096,64⟩]
  init := ()
  call := fun _ _ args => ((),args 0 + args 1 + args 2)
  byte := fun _ _ => 0

theorem sumLibrary_functions : (dlfnOpen sumLibrary).1 = [⟨[102],4096,fun _ => 0⟩] := by
  simp [dlfnOpen,sumLibrary,sortFunctions,parseFunctions,exported,maxSymbols]

/-- A function that counts its calls, and an object that shows the count. -/
def counterLibrary : Library Nat where
  symbols := [⟨[102],.func,true,4096,64⟩,⟨[111],.object,true,8192,2⟩]
  init := 0
  call := fun memory _ _ => (memory + 1,0)
  byte := fun memory _ => UInt8.ofNat memory

theorem counterLibrary_open : dlfnOpen counterLibrary = ([⟨[102],4096,fun _ => 0⟩],[⟨[111],8192,2⟩]) := by
  simp [dlfnOpen,counterLibrary,sortFunctions,sortObjects,parseFunctions,parseObjects,exported,maxSymbols]

end Craftsman.Dlfn
